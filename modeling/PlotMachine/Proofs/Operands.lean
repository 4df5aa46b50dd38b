import Mathlib.Data.Nat.Basic
import PlotMachine.Image.Operand

/-!
# Which instructions of an image file can be decoded

`InstrDef.Formed` says what an instruction has to look like, operation by operation, and
`InstrDef.Mentions` which lambda or record type of the file it refers to. Neither looks at how an
instruction is decoded: `InstrDef.decode` answers an operand for the instructions that are formed and
for no others (`exists_decode_iff`), and that operand refers to what is mentioned (`item?_of_decode`).
-/

namespace PlotMachine

/-- A computation whose result is converted had a result. -/
theorem exists_of_map_eq_ok {ε α β : Type} {x : Except ε α} {g : α → β} {b : β}
    (ok : x.map g = .ok b) : ∃ a, x = .ok a ∧ g a = b := by
  cases x with
  | error e => cases ok
  | ok a =>
    cases ok
    exact ⟨a, rfl, rfl⟩

/-- Two computations in a row that had a result both had one. -/
theorem exists_of_bind_eq_ok {ε α β : Type} {x : Except ε α} {g : α → Except ε β} {b : β}
    (ok : x >>= g = .ok b) : ∃ a, x = .ok a ∧ g a = .ok b := by
  cases x with
  | error e => cases ok
  | ok a => exact ⟨a, rfl, ok⟩

/-- Putting a failure into context changes no result. -/
theorem mapError_eq_ok_iff {ε δ α : Type} {x : Except ε α} {context : ε → δ} {a : α} :
    x.mapError context = .ok a ↔ x = .ok a := by
  cases x <;> simp [Except.mapError]

/-- A native is registered under a name. -/
def Registry.Offers (r : Registry) (name : String) : Prop := ∃ fn ∈ r.natives, fn.name = name

/-- A name is looked up with success if something is registered under it. -/
theorem Registry.exists_native?_iff {r : Registry} {name : String} :
    (∃ fn, r.native? name = some fn) ↔ r.Offers name := by
  rw [← Option.isSome_iff_exists, native?, List.find?_isSome]
  simp [Offers]

namespace Constant

/-- A constant whose native, if it is one, is registered. -/
def Offered (r : Registry) (c : Constant) : Prop := ∀ name, c = .native name → r.Offers name

/-- The value of a constant that refers to nothing. -/
def literal? : Constant → Option Value
  | .nil => some .nil
  | .bool b => some (.bool b)
  | .int n => some (.int n)
  | .real x => some (.real x)
  | .str s => some (.str s)
  | .undefined => some (.callable .undefined)
  | .lambda _ | .function _ | .native _ => none

end Constant

namespace Opcode

/-- The operand is one that the operation can have. Operations that need none ignore it. -/
def Accepts (r : Registry) : Opcode → Option Json → Prop
  | .intPush, arg => ∃ n : Int, arg = some (.int n) ∧ minSigned ≤ n ∧ n ≤ maxSigned
  | .constPush, arg => ∃ json c, arg = some json ∧ Constant.ofJson? json = some c ∧ c.Offered r
  | .varPush, arg | .varSave, arg | .globalPush, arg | .globalSave, arg | .fieldPush, arg
  | .fieldSave, arg | .jmp, arg | .cJmp, arg | .nJmp, arg | .makeFunc, arg | .alloc, arg =>
    ∃ n : Nat, arg = some (.int n)
  | .builtin, arg => ∃ name, arg = some (.str name) ∧ r.Offers name
  | _, _ => True

/-- An operation is found under its mnemonic and under no other name. -/
theorem ofMnemonic?_eq_some {name : String} {op : Opcode} :
    ofMnemonic? name = some op ↔ name = op.mnemonic := by
  constructor
  · intro found
    have same := List.find?_some found
    exact (beq_iff_eq.1 same).symm
  · rintro rfl
    exact ofMnemonic?_mnemonic op

end Opcode

namespace InstrDef

/-- An instruction names an operation and has an operand for it. -/
def Formed (r : Registry) (d : InstrDef) : Prop :=
  ∃ op : Opcode, d.op = op.mnemonic ∧ op.Accepts r d.arg

/-- The constant that an instruction pushes, if it has that form. -/
def Pushes (d : InstrDef) (c : Constant) : Prop :=
  d.op = Opcode.constPush.mnemonic ∧ ∃ json, d.arg = some json ∧ Constant.ofJson? json = some c

/-- An instruction refers to a lambda or record type of its file. -/
def Mentions (d : InstrDef) : FileItem → Prop
  | .lambda n =>
    (d.op = Opcode.makeFunc.mnemonic ∧ d.arg = some (.int n)) ∨ d.Pushes (.lambda n) ∨
      d.Pushes (.function n)
  | .record n => d.op = Opcode.alloc.mnemonic ∧ d.arg = some (.int n)

variable {r : Registry} {d : InstrDef}

/-! ## Operands -/

theorem signedWord?_eq_some {n : Int} {w : Int64} :
    signedWord? n = some w ↔ (minSigned ≤ n ∧ n ≤ maxSigned) ∧ Int64.ofInt n = w := by
  rw [signedWord?, Option.ite_none_right_eq_some, Option.some.injEq]

theorem exists_intArg_iff :
    (∃ w, d.intArg = .ok w) ↔ ∃ n : Int, d.arg = some (.int n) ∧ minSigned ≤ n ∧ n ≤ maxSigned := by
  constructor
  · rintro ⟨w, found⟩
    rw [intArg] at found
    split at found
    · next n given =>
      split at found
      · next w' word => exact ⟨n, given, (signedWord?_eq_some.1 word).1⟩
      · cases found
    · cases found
  · rintro ⟨n, given, bounds⟩
    refine ⟨Int64.ofInt n, ?_⟩
    have word := signedWord?_eq_some.2 ⟨bounds, rfl⟩
    simp only [intArg, given, word]

theorem indexArg_eq_ok {n : Nat} : d.indexArg = .ok n ↔ d.arg = some (.int n) := by
  constructor
  · intro found
    rw [indexArg] at found
    split at found
    · next k given =>
      split at found
      · next positive =>
        cases found
        rw [given, Int.toNat_of_nonneg positive]
      · cases found
    · cases found
  · intro given
    simp [indexArg, given]

theorem exists_nativeNamed_iff {name : String} :
    (∃ fn, nativeNamed r name = .ok fn) ↔ r.Offers name := by
  rw [← Registry.exists_native?_iff, nativeNamed]
  cases r.native? name <;> simp

theorem exists_nativeArg_iff :
    (∃ fn, d.nativeArg r = .ok fn) ↔ ∃ name, d.arg = some (.str name) ∧ r.Offers name := by
  constructor
  · rintro ⟨fn, found⟩
    rw [nativeArg] at found
    split at found
    · next name given => exact ⟨name, given, exists_nativeNamed_iff.1 ⟨fn, found⟩⟩
    · cases found
  · rintro ⟨name, given, offered⟩
    simpa only [nativeArg, given] using exists_nativeNamed_iff.2 offered

theorem exists_constant_iff {make : Value → Instr} {c : Constant} :
    (∃ o, constant r make c = .ok o) ↔ c.Offered r := by
  cases c with
  | native name =>
    have named : (∃ fn, nativeNamed r name = .ok fn) ↔ r.Offers name := exists_nativeNamed_iff
    constructor
    · rintro ⟨o, found⟩ _ ⟨⟩
      rw [constant] at found
      cases result : nativeNamed r name with
      | ok fn => exact named.1 ⟨fn, result⟩
      | error e =>
        rw [result] at found
        cases found
    · intro offered
      obtain ⟨fn, result⟩ := named.2 (offered name rfl)
      refine ⟨.nativeValue make fn, ?_⟩
      rw [constant, result]
      rfl
  | _ => exact ⟨fun _ => nofun, fun _ => ⟨_, rfl⟩⟩

theorem exists_constantArg_iff {make : Value → Instr} :
    (∃ o, d.constantArg r make = .ok o) ↔
      ∃ json c, d.arg = some json ∧ Constant.ofJson? json = some c ∧ c.Offered r := by
  constructor
  · rintro ⟨o, found⟩
    rw [constantArg] at found
    split at found
    · cases found
    · next json given =>
      split at found
      · next c read => exact ⟨json, c, given, read, exists_constant_iff.1 ⟨o, found⟩⟩
      · cases found
  · rintro ⟨json, c, given, read, offered⟩
    simpa only [constantArg, given, read] using exists_constant_iff.2 offered

/-! ## Decoding -/

/-- An instruction that names an operation is decoded by the form of that operation. -/
theorem decode_eq {op : Opcode} (named : d.op = op.mnemonic) :
    d.decode r = match op.form with
      | .plain instr => .ok (.plain instr)
      | .int make => d.intArg.map fun n => .plain (make n)
      | .constant make => d.constantArg r make
      | .slot make => d.indexArg.map fun n => .plain (make n)
      | .native make => (d.nativeArg r).map fun fn => .plain (make fn)
      | .target make => d.indexArg.map fun n => .target make n
      | .lambda make => d.indexArg.map fun n => .lambda make n
      | .record make => d.indexArg.map fun n => .record make n := by
  rw [decode, named, Opcode.ofMnemonic?_mnemonic]
  rfl

/-- An instruction can be decoded only if it names an operation. -/
theorem exists_mnemonic_of_decode {o : Operand} (decoded : d.decode r = .ok o) :
    ∃ op : Opcode, d.op = op.mnemonic := by
  rw [decode] at decoded
  split at decoded
  · cases decoded
  · next op named => exact ⟨op, Opcode.ofMnemonic?_eq_some.1 named⟩

/-- An operand is answered if what it is made of is. -/
theorem exists_map_iff {α : Type} {x : Except OperandError α} {make : α → Operand} :
    (∃ o, x.map make = .ok o) ↔ ∃ a, x = .ok a := by
  cases x <;> simp [Except.map]

/-- The operation that an instruction names decides whether it can be decoded. -/
theorem exists_decode_iff_accepts {op : Opcode} (named : d.op = op.mnemonic) :
    (∃ o, d.decode r = .ok o) ↔ op.Accepts r d.arg := by
  rw [decode_eq named]
  have index : ∀ make : Nat → Operand,
      (∃ o, d.indexArg.map make = .ok o) ↔ ∃ n : Nat, d.arg = some (.int n) := by
    intro make
    rw [exists_map_iff]
    exact exists_congr fun n => indexArg_eq_ok
  cases op with
  | intPush => exact exists_map_iff.trans exists_intArg_iff
  | constPush => exact exists_constantArg_iff
  | builtin => exact exists_map_iff.trans exists_nativeArg_iff
  | varPush | varSave | globalPush | globalSave | fieldPush | fieldSave => exact index _
  | jmp | cJmp | nJmp | makeFunc | alloc => exact index _
  | _ => exact ⟨fun _ => trivial, fun _ => ⟨_, rfl⟩⟩

/-- The instructions that are formed are those that can be decoded. -/
theorem exists_decode_iff : (∃ o, d.decode r = .ok o) ↔ d.Formed r := by
  constructor
  · rintro ⟨o, decoded⟩
    obtain ⟨op, named⟩ := exists_mnemonic_of_decode decoded
    exact ⟨op, named, (exists_decode_iff_accepts named).1 ⟨o, decoded⟩⟩
  · rintro ⟨op, named, accepts⟩
    exact (exists_decode_iff_accepts named).2 accepts

/-! ## What an instruction is decoded to -/

/-- What an operand says about the instruction it was decoded from. -/
inductive Decoded (r : Registry) (d : InstrDef) : Operand → Prop
  | simple {op : Opcode} {i : Instr} (named : d.op = op.mnemonic) (form : op.form = .plain i) :
      Decoded r d (.plain i)
  | intPush {w : Int64} (named : d.op = Opcode.intPush.mnemonic) (given : d.arg = some (.int w.toInt)) :
      Decoded r d (.plain (.intPush w))
  | load {storage : Storage} {n : Nat} (named : d.op = (Instr.load storage n).opcode.mnemonic)
      (given : d.arg = some (.int n)) : Decoded r d (.plain (.load storage n))
  | save {storage : Storage} {n : Nat} (named : d.op = (Instr.save storage n).opcode.mnemonic)
      (given : d.arg = some (.int n)) : Decoded r d (.plain (.save storage n))
  | literal {c : Constant} {v : Value} (pushes : d.Pushes c) (known : c.literal? = some v) :
      Decoded r d (.plain (.constPush v))
  | native {name : String} {fn : Native} (pushes : d.Pushes (.native name))
      (offered : r.native? name = some fn) : Decoded r d (.nativeValue .constPush fn)
  | lambda {n : Nat} (pushes : d.Pushes (.lambda n)) : Decoded r d (.lambdaValue .constPush n)
  | function {n : Nat} (pushes : d.Pushes (.function n)) :
      Decoded r d (.functionValue .constPush n)
  | builtin {name : String} {fn : Native} (named : d.op = Opcode.builtin.mnemonic)
      (given : d.arg = some (.str name)) (offered : r.native? name = some fn) :
      Decoded r d (.plain (.builtin fn))
  | jump {condition : JumpCondition} {n : Nat}
      (named : d.op = (Instr.jump condition {}).opcode.mnemonic) (given : d.arg = some (.int n)) :
      Decoded r d (.target (.jump condition) n)
  | makeFunc {n : Nat} (named : d.op = Opcode.makeFunc.mnemonic) (given : d.arg = some (.int n)) :
      Decoded r d (.lambda .makeFunc n)
  | alloc {n : Nat} (named : d.op = Opcode.alloc.mnemonic) (given : d.arg = some (.int n)) :
      Decoded r d (.record .alloc n)

theorem exists_of_indexArg_map {make : Nat → Operand} {o : Operand}
    (made : d.indexArg.map make = .ok o) : ∃ n : Nat, d.arg = some (.int n) ∧ make n = o := by
  obtain ⟨n, found, same⟩ := exists_of_map_eq_ok made
  exact ⟨n, indexArg_eq_ok.1 found, same⟩

theorem native?_of_nativeNamed {name : String} {fn : Native}
    (found : nativeNamed r name = .ok fn) : r.native? name = some fn := by
  rw [nativeNamed] at found
  split at found
  · next fn' named =>
    cases found
    exact named
  · cases found

/-- The word that an operand gives is the number that stands there. -/
theorem arg_of_intArg {w : Int64} (found : d.intArg = .ok w) : d.arg = some (.int w.toInt) := by
  rw [intArg] at found
  split at found
  · next n given =>
    split at found
    · next w' word =>
      cases found
      obtain ⟨⟨low, high⟩, rfl⟩ := signedWord?_eq_some.1 word
      rw [given, Int64.toInt_ofInt_of_le low (Int.lt_add_one_of_le high)]
    · cases found
  · cases found

theorem decoded_of_constant {c : Constant} {o : Operand} (pushes : d.Pushes c)
    (made : constant r .constPush c = .ok o) : Decoded r d o := by
  cases c with
  | native name =>
    rw [constant] at made
    obtain ⟨fn, found, same⟩ := exists_of_bind_eq_ok made
    cases same
    exact .native pushes (native?_of_nativeNamed found)
  | lambda n =>
    cases made
    exact .lambda pushes
  | function n =>
    cases made
    exact .function pushes
  | _ =>
    cases made
    exact .literal pushes rfl

/-- Every operand that is decoded is one of these. -/
theorem decoded_of_decode {o : Operand} (found : d.decode r = .ok o) : Decoded r d o := by
  obtain ⟨op, named⟩ := exists_mnemonic_of_decode found
  rw [decode_eq named] at found
  cases op with
  | intPush =>
    obtain ⟨w, given, rfl⟩ := exists_of_map_eq_ok found
    exact .intPush named (arg_of_intArg given)
  | constPush =>
    simp only [Opcode.form, constantArg] at found
    split at found
    · cases found
    · next json given =>
      split at found
      · next c read => exact decoded_of_constant ⟨named, json, given, read⟩ found
      · cases found
  | builtin =>
    obtain ⟨fn, looked, rfl⟩ := exists_of_map_eq_ok found
    rw [nativeArg] at looked
    split at looked
    · next name given => exact .builtin named given (native?_of_nativeNamed looked)
    · cases looked
  | varPush | globalPush | fieldPush =>
    obtain ⟨n, given, rfl⟩ := exists_of_indexArg_map found
    exact .load named given
  | varSave | globalSave | fieldSave =>
    obtain ⟨n, given, rfl⟩ := exists_of_indexArg_map found
    exact .save named given
  | jmp | cJmp | nJmp =>
    obtain ⟨n, given, rfl⟩ := exists_of_indexArg_map found
    exact .jump named given
  | makeFunc =>
    obtain ⟨n, given, rfl⟩ := exists_of_indexArg_map found
    exact .makeFunc named given
  | alloc =>
    obtain ⟨n, given, rfl⟩ := exists_of_indexArg_map found
    exact .alloc named given
  | _ =>
    cases found
    exact .simple named rfl

/-- The frame slot that an instruction uses. -/
def UsesSlot (d : InstrDef) (n : Nat) : Prop :=
  (d.op = Opcode.varPush.mnemonic ∨ d.op = Opcode.varSave.mnemonic) ∧ d.arg = some (.int n)

/-- The offset that an instruction jumps to. -/
def JumpsTo (d : InstrDef) (n : Nat) : Prop :=
  (d.op = Opcode.jmp.mnemonic ∨ d.op = Opcode.cJmp.mnemonic ∨ d.op = Opcode.nJmp.mnemonic) ∧
    d.arg = some (.int n)

end InstrDef

/-- No two operations have the same mnemonic. -/
theorem Opcode.mnemonic_inj {a b : Opcode} : a.mnemonic = b.mnemonic ↔ a = b := by
  constructor
  · intro same
    have found := ofMnemonic?_eq_some.2 same
    rw [ofMnemonic?_mnemonic] at found
    exact Option.some.inj found
  · rintro rfl
    rfl

namespace InstrDef

variable {r : Registry} {d : InstrDef}

/-- An instruction pushes one constant. -/
theorem Pushes.unique {c c' : Constant} (first : d.Pushes c) (second : d.Pushes c') : c = c' := by
  obtain ⟨-, json, given, read⟩ := first
  obtain ⟨-, json', given', read'⟩ := second
  cases given.symm.trans given'
  exact Option.some.inj (read.symm.trans read')

/-- Only three operations refer to something in the file. -/
theorem mentions_iff {op : Opcode} (named : d.op = op.mnemonic) (item : FileItem) :
    d.Mentions item ↔ ∃ n, (op = .makeFunc ∧ item = .lambda n ∧ d.arg = some (.int n)) ∨
      (op = .alloc ∧ item = .record n ∧ d.arg = some (.int n)) ∨
      (op = .constPush ∧ item = .lambda n ∧ (d.Pushes (.lambda n) ∨ d.Pushes (.function n))) := by
  have pushes : ∀ c, d.Pushes c → op = .constPush := fun c pushed =>
    Opcode.mnemonic_inj.1 (named.symm.trans pushed.1)
  cases item with
  | record n => simp [Mentions, named, Opcode.mnemonic_inj]
  | lambda n =>
    simp only [Mentions, named, Opcode.mnemonic_inj]
    constructor
    · rintro (made | pushed | pushed)
      · exact ⟨n, .inl ⟨made.1, rfl, made.2⟩⟩
      · exact ⟨n, .inr (.inr ⟨pushes _ pushed, rfl, .inl pushed⟩)⟩
      · exact ⟨n, .inr (.inr ⟨pushes _ pushed, rfl, .inr pushed⟩)⟩
    · rintro ⟨k, ⟨made, ⟨⟩, given⟩ | ⟨_, ⟨⟩, _⟩ | ⟨_, ⟨⟩, pushed⟩⟩
      · exact .inl ⟨made, given⟩
      · exact .inr pushed

/-- An instruction that pushes a constant refers to what the constant refers to. -/
theorem Pushes.mentions_iff {c : Constant} (pushes : d.Pushes c) {item : FileItem} :
    d.Mentions item ↔ ∃ n, item = .lambda n ∧ (c = .lambda n ∨ c = .function n) := by
  rw [InstrDef.mentions_iff pushes.1]
  constructor
  · rintro ⟨n, ⟨⟨⟩, _⟩ | ⟨⟨⟩, _⟩ | ⟨_, rfl, pushed | pushed⟩⟩
    · exact ⟨n, rfl, .inl (pushes.unique pushed)⟩
    · exact ⟨n, rfl, .inr (pushes.unique pushed)⟩
  · rintro ⟨n, rfl, rfl | rfl⟩
    · exact ⟨n, .inr (.inr ⟨rfl, rfl, .inl pushes⟩)⟩
    · exact ⟨n, .inr (.inr ⟨rfl, rfl, .inr pushes⟩)⟩

/-- An instruction that was decoded mentions what its operand refers to. -/
theorem item?_of_decode {o : Operand} (found : d.decode r = .ok o) (item : FileItem) :
    o.item? = some item ↔ d.Mentions item := by
  -- an operand that refers to nothing belongs to one of the other operations
  have nothing : ∀ {op : Opcode}, d.op = op.mnemonic → op ≠ .makeFunc → op ≠ .alloc →
      op ≠ .constPush → ¬ d.Mentions item := by
    intro op named makes allocs pushes mentioned
    obtain ⟨n, ⟨same, _⟩ | ⟨same, _⟩ | ⟨same, _⟩⟩ := (mentions_iff named item).1 mentioned
    · exact makes same
    · exact allocs same
    · exact pushes same
  cases decoded_of_decode found with
  | simple named form =>
    refine iff_of_false nofun (nothing named ?_ ?_ ?_) <;> rintro rfl <;> cases form
  | intPush named given => exact iff_of_false nofun (nothing named nofun nofun nofun)
  | @load storage n named given =>
    refine iff_of_false nofun (nothing named ?_ ?_ ?_) <;> cases storage <;> nofun
  | @save storage n named given =>
    refine iff_of_false nofun (nothing named ?_ ?_ ?_) <;> cases storage <;> nofun
  | builtin named given offered => exact iff_of_false nofun (nothing named nofun nofun nofun)
  | @jump condition n named given =>
    refine iff_of_false nofun (nothing named ?_ ?_ ?_) <;>
      rcases condition with _ | ⟨_ | _⟩ <;> nofun
  | @literal c v pushes known =>
    rw [pushes.mentions_iff]
    refine iff_of_false nofun ?_
    rintro ⟨n, -, rfl | rfl⟩ <;> cases known
  | native pushes offered =>
    rw [pushes.mentions_iff]
    refine iff_of_false nofun ?_
    rintro ⟨n, -, same | same⟩ <;> cases same
  | @lambda n pushes =>
    rw [pushes.mentions_iff]
    constructor
    · rintro ⟨⟩
      exact ⟨n, rfl, .inl rfl⟩
    · rintro ⟨k, rfl, same | same⟩ <;> cases same
      rfl
  | @function n pushes =>
    rw [pushes.mentions_iff]
    constructor
    · rintro ⟨⟩
      exact ⟨n, rfl, .inr rfl⟩
    · rintro ⟨k, rfl, same | same⟩ <;> cases same
      rfl
  | @makeFunc n named given =>
    rw [mentions_iff named]
    constructor
    · rintro ⟨⟩
      exact ⟨n, .inl ⟨rfl, rfl, given⟩⟩
    · rintro ⟨k, ⟨_, rfl, given'⟩ | ⟨⟨⟩, _⟩ | ⟨⟨⟩, _⟩⟩
      cases given.symm.trans given'
      rfl
  | @alloc n named given =>
    rw [mentions_iff named]
    constructor
    · rintro ⟨⟩
      exact ⟨n, .inr (.inl ⟨rfl, rfl, given⟩)⟩
    · rintro ⟨k, ⟨⟨⟩, _⟩ | ⟨_, rfl, given'⟩ | ⟨⟨⟩, _⟩⟩
      cases given.symm.trans given'
      rfl

end InstrDef

end PlotMachine
