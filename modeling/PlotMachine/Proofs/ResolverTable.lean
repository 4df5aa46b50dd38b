import Mathlib.Data.List.Forall2
import PlotMachine.Proofs.Resolving

/-!
# The table of the resolver

The resolver makes every lambda and record type of a file once, in an order that the references decide,
and enters it in its table. `Resolver.Sound` is what holds of the table at all times: what is entered is
what the file describes (`ImageFile.Holds`), every index in it stands for what the table has for that
index, and no two entries are the same object.

While something is made, the table only grows (`Resolver.Grows`): its entries and their objects stay as
they are, and nothing is entered for what is still under way. That is why entering a new object
overwrites nothing (`Resolver.Makes.kept_note`).
-/

namespace PlotMachine

namespace Store

/-- The second store has all that the first one has, in the same places. -/
structure Extends (s s' : Store) : Prop where
  programs : ∀ (n : Nat) p, s.programs[n]? = some p → s'.programs[n]? = some p
  lambdas : ∀ (n : Nat) l, s.lambdas[n]? = some l → s'.lambdas[n]? = some l
  records : ∀ (n : Nat) r, s.records[n]? = some r → s'.records[n]? = some r

/-- An array that keeps what it has does not get shorter. -/
theorem size_le_of_kept {α : Type} {a a' : Array α}
    (kept : ∀ (n : Nat) x, a[n]? = some x → a'[n]? = some x) : a.size ≤ a'.size := by
  by_contra shorter
  have inside : a'.size < a.size := Nat.lt_of_not_le shorter
  have found := kept _ _ (Array.getElem?_eq_getElem inside)
  exact Nat.lt_irrefl _ (Array.getElem?_eq_some_iff.1 found).1

namespace Extends

variable {s s' s'' : Store}

theorem refl (s : Store) : s.Extends s := ⟨fun _ _ h => h, fun _ _ h => h, fun _ _ h => h⟩

theorem trans (first : s.Extends s') (second : s'.Extends s'') : s.Extends s'' where
  programs n p found := second.programs n p (first.programs n p found)
  lambdas n l found := second.lambdas n l (first.lambdas n l found)
  records n r found := second.records n r (first.records n r found)

theorem programs_size_le (grown : s.Extends s') : s.programs.size ≤ s'.programs.size :=
  size_le_of_kept grown.programs

theorem records_size_le (grown : s.Extends s') : s.records.size ≤ s'.records.size :=
  size_le_of_kept grown.records

end Extends

/-- What was in an array is still there when something is pushed. -/
theorem getElem?_push_of_some {α : Type} {a : Array α} {n : Nat} {x : α} (found : a[n]? = some x)
    (y : α) : (a.push y)[n]? = some x := by
  have inside := (Array.getElem?_eq_some_iff.1 found).1
  rw [Array.getElem?_push, if_neg (Nat.ne_of_lt inside)]
  exact found

/-- Appending to a program leaves other programs alone. -/
theorem getElem?_extend_of_ne {s : Store} {p : Nat} {home : ProgramRef} (other : p ≠ home.index)
    (code : Code) : (s.extend home code).programs[p]? = s.programs[p]? := by
  simp [extend, Array.getElem?_modify, other.symm]

theorem getElem?_extend_self {s : Store} {home : ProgramRef} {code : Code}
    (there : s.programs[home.index]? = some (some code)) (more : Code) :
    (s.extend home more).programs[home.index]? = some (some (code ++ more)) := by
  simp [extend, Array.getElem?_modify, there]

theorem extends_addProgram (s : Store) (code : Code) : s.Extends (s.addProgram code).2 :=
  ⟨fun _ _ found => getElem?_push_of_some found _, fun _ _ found => found, fun _ _ found => found⟩

theorem extends_addLambda (s : Store) (l : Lambda) : s.Extends (s.addLambda l).2 :=
  ⟨fun _ _ found => found, fun _ _ found => getElem?_push_of_some found l, fun _ _ found => found⟩

theorem extends_addRecord (s : Store) (r : Record) : s.Extends (s.addRecord r).2 :=
  ⟨fun _ _ found => found, fun _ _ found => found, fun _ _ found => getElem?_push_of_some found r⟩

end Store

/-! ## Where objects are -/

/-- A place in a store that makes an object the one that it is. -/
inductive Place where
  | program (p : ProgramRef)
  | record (q : RecordRef)

/-- A store does not reach to a place yet. -/
def Place.IsNew (s : Store) : Place → Prop
  | .program p => s.programs.size ≤ p.index
  | .record q => s.records.size ≤ q.index

theorem Place.IsNew.of_extends {s s' : Store} {place : Place} (new : place.IsNew s')
    (grown : s.Extends s') : place.IsNew s := by
  cases place with
  | program p => exact Nat.le_trans grown.programs_size_le new
  | record q => exact Nat.le_trans grown.records_size_le new

/-- An object takes a place: a lambda has a program, and a record type has itself. -/
def Store.Takes (s : Store) : (item : FileItem) → item.Ref → Place → Prop
  | .lambda _, l, .program p => ∃ lambda, s.lambdas[l.index]? = some lambda ∧ lambda.code = p
  | .record _, q, .record q' => q = q'
  | _, _, _ => False

namespace Store.Takes

variable {s : Store} {n : Nat} {place : Place}

/-- A lambda takes no place but its program. -/
theorem eq_program {l : LambdaRef} {lambda : Lambda} (takes : s.Takes (.lambda n) l place)
    (found : s.lambdas[l.index]? = some lambda) : place = .program lambda.code := by
  cases place with
  | program p =>
    obtain ⟨lambda', found', rfl⟩ := takes
    cases found.symm.trans found'
    rfl
  | record q => exact takes.elim

/-- A record type takes no place but its own. -/
theorem eq_record {q : RecordRef} (takes : s.Takes (.record n) q place) : place = .record q := by
  cases place with
  | program p => exact takes.elim
  | record q' =>
    cases takes
    rfl

end Store.Takes

/-! ## What is made of an item -/

/-- The instruction that an operand becomes in the program `home`, where every index in it is replaced
by what is made of it. -/
inductive Operand.Makes (ref? : (item : FileItem) → Option item.Ref) (home : ProgramRef) :
    Operand → Instr → Prop
  | plain (i : Instr) : Makes ref? home (.plain i) i
  | nativeValue (make : Value → Instr) (fn : Native) (id : Nat) :
    Makes ref? home (.nativeValue make fn) (make (.callable (.native id fn)))
  | lambdaValue (make : Value → Instr) {n : Nat} {l : LambdaRef} (made : ref? (.lambda n) = some l) :
    Makes ref? home (.lambdaValue make n) (make (.lambda l))
  | functionValue (make : Value → Instr) (id : Nat) {n : Nat} {l : LambdaRef}
    (made : ref? (.lambda n) = some l) :
    Makes ref? home (.functionValue make n) (make (.callable (.function id l none)))
  | target (make : Label → Instr) (offset : Nat) :
    Makes ref? home (.target make offset) (make { program := some home, offset })
  | lambda (make : LambdaRef → Instr) {n : Nat} {l : LambdaRef} (made : ref? (.lambda n) = some l) :
    Makes ref? home (.lambda make n) (make l)
  | record (make : RecordRef → Instr) {n : Nat} {q : RecordRef} (made : ref? (.record n) = some q) :
    Makes ref? home (.record make n) (make q)

namespace Operand.Makes

variable {ref? ref?' : (item : FileItem) → Option item.Ref} {home : ProgramRef} {o : Operand} {i : Instr}

/-- What an operand refers to was made. -/
theorem exists_ref (makes : o.Makes ref? home i) {item : FileItem} (leads : o.item? = some item) :
    ∃ ref, ref? item = some ref := by
  cases makes with
  | lambdaValue _ made | functionValue _ _ made | lambda _ made | record _ made =>
    cases leads
    exact ⟨_, made⟩
  | _ => cases leads

/-- It does not matter what else is made. -/
theorem mono (kept : ∀ item ref, ref? item = some ref → ref?' item = some ref)
    (makes : o.Makes ref? home i) : o.Makes ref?' home i := by
  cases makes with
  | plain => exact .plain _
  | nativeValue make fn id => exact .nativeValue make fn id
  | lambdaValue make made => exact .lambdaValue make (kept _ _ made)
  | functionValue make id made => exact .functionValue make id (kept _ _ made)
  | target make offset => exact .target make offset
  | lambda make made => exact .lambda make (kept _ _ made)
  | record make made => exact .record make (kept _ _ made)

end Operand.Makes

namespace ImageFile

/-- A program is the code of a lambda of a file, instruction by instruction. -/
def Encoded (r : Registry) (ref? : (item : FileItem) → Option item.Ref) (home : ProgramRef)
    (defs : List InstrDef) (code : Code) : Prop :=
  List.Forall₂ (fun d i => ∃ o, d.decode r = .ok o ∧ o.Makes ref? home i) defs code.toList

/-- An object of the store is what the file describes, where every index in the description stands for
what was made of it. -/
def Holds (r : Registry) (ref? : (item : FileItem) → Option item.Ref) (s : Store) :
    (item : FileItem) → item.Def → item.Ref → Prop
  | .lambda _, d, l => ∃ home code, s.lambdas[l.index]? = some (lambdaOf home d) ∧
      s.programs[home.index]? = some (some code) ∧ Encoded r ref? home d.code code
  | .record _, d, q => ∃ init, ref? (.lambda d.init) = some init ∧
      s.records[q.index]? = some (recordOf init d)

variable {r : Registry} {ref? ref?' : (item : FileItem) → Option item.Ref} {s s' : Store}

theorem Encoded.mono {home : ProgramRef} {defs : List InstrDef} {code : Code}
    (kept : ∀ item ref, ref? item = some ref → ref?' item = some ref)
    (encoded : Encoded r ref? home defs code) : Encoded r ref?' home defs code :=
  encoded.imp fun _ _ ⟨o, decoded, makes⟩ => ⟨o, decoded, makes.mono kept⟩

/-- One more instruction. -/
theorem Encoded.push {home : ProgramRef} {defs : List InstrDef} {code : Code} {d : InstrDef}
    {o : Operand} {i : Instr} (encoded : Encoded r ref? home defs code) (decoded : d.decode r = .ok o)
    (makes : o.Makes ref? home i) : Encoded r ref? home (defs ++ [d]) (code ++ #[i]) := by
  rw [Encoded, Array.toList_append]
  exact List.rel_append encoded (.cons ⟨o, decoded, makes⟩ .nil)

/-- Every instruction of the file is in the program. -/
theorem Encoded.exists_makes {home : ProgramRef} {defs : List InstrDef} {code : Code} {d : InstrDef}
    (encoded : Encoded r ref? home defs code) (inside : d ∈ defs) :
    ∃ i o, d.decode r = .ok o ∧ o.Makes ref? home i := by
  obtain ⟨n, here, rfl⟩ := List.mem_iff_getElem.1 inside
  exact ⟨_, (List.forall₂_iff_get.1 encoded).2 n here (encoded.length_eq ▸ here)⟩

/-- An object stays what it is when more is made, if it stays where it is. -/
theorem Holds.mono {item : FileItem} {d : item.Def} {ref : item.Ref}
    (holds : Holds r ref? s item d ref)
    (kept : ∀ item ref, ref? item = some ref → ref?' item = some ref)
    (lambdas : ∀ (n : Nat) l, s.lambdas[n]? = some l → s'.lambdas[n]? = some l)
    (records : ∀ (n : Nat) q, s.records[n]? = some q → s'.records[n]? = some q)
    (programs : ∀ p code, s.Takes item ref (.program p) → s.programs[p.index]? = some code →
      s'.programs[p.index]? = some code) :
    Holds r ref?' s' item d ref := by
  cases item with
  | lambda n =>
    obtain ⟨home, code, found, written, encoded⟩ := holds
    exact ⟨home, code, lambdas _ _ found, programs _ _ ⟨_, found, rfl⟩ written, encoded.mono kept⟩
  | record n =>
    obtain ⟨init, made, found⟩ := holds
    exact ⟨init, kept _ _ made, records _ _ found⟩

/-- What takes a place after the store has grown took it before, if it was there. -/
theorem Holds.takes_of_kept {item : FileItem} {d : item.Def} {ref : item.Ref} {place : Place}
    (holds : Holds r ref? s item d ref)
    (lambdas : ∀ (n : Nat) l, s.lambdas[n]? = some l → s'.lambdas[n]? = some l)
    (takes : s'.Takes item ref place) : s.Takes item ref place := by
  cases item with
  | lambda n =>
    obtain ⟨home, code, found, -⟩ := holds
    cases takes.eq_program (lambdas _ _ found)
    exact ⟨_, found, rfl⟩
  | record n =>
    cases takes.eq_record
    exact rfl

/-- What is in the store takes no place that is new there. -/
theorem Holds.not_isNew {item : FileItem} {d : item.Def} {ref : item.Ref} {place : Place}
    (holds : Holds r ref? s item d ref) (takes : s.Takes item ref place) : ¬ place.IsNew s := by
  cases item with
  | lambda n =>
    obtain ⟨home, code, found, written, -⟩ := holds
    cases takes.eq_program found
    exact Nat.not_le_of_lt (Array.getElem?_eq_some_iff.1 written).1
  | record n =>
    obtain ⟨init, -, found⟩ := holds
    cases takes.eq_record
    exact Nat.not_le_of_lt (Array.getElem?_eq_some_iff.1 found).1

/-- What something in a file refers to was made. -/
theorem Holds.exists_ref {f : ImageFile} {item target : FileItem} {d : item.Def} {ref : item.Ref}
    (holds : Holds r ref? s item d ref) (found : f.def? item = some d)
    (refers : f.Refers item target) : ∃ ref', ref? target = some ref' := by
  cases refers with
  | @instruction n d' i target found' inside mentions =>
    cases found.symm.trans found'
    obtain ⟨home, code, -, -, encoded⟩ := holds
    obtain ⟨instr, o, decoded, makes⟩ := encoded.exists_makes inside
    exact makes.exists_ref ((InstrDef.item?_of_decode decoded target).2 mentions)
  | initializer found' =>
    cases found.symm.trans found'
    obtain ⟨init, made, -⟩ := holds
    exact ⟨init, made⟩

/-- A table has objects of a store that are what a file describes, by way of other objects of the table.
No two of them are the same. -/
structure Realizes (f : ImageFile) (r : Registry) (ref? : (item : FileItem) → Option item.Ref)
    (s : Store) : Prop where
  holds : ∀ item ref, ref? item = some ref →
    ∃ d, f.def? item = some d ∧ Holds r ref? s item d ref
  distinct : ∀ item item' ref ref' place, ref? item = some ref → ref? item' = some ref' →
    s.Takes item ref place → s.Takes item' ref' place → item = item'

/-- It does not matter what the store has elsewhere. -/
theorem Realizes.mono {f : ImageFile} (realizes : f.Realizes r ref? s)
    (lambdas : ∀ (n : Nat) l, s.lambdas[n]? = some l → s'.lambdas[n]? = some l)
    (records : ∀ (n : Nat) q, s.records[n]? = some q → s'.records[n]? = some q)
    (programs : ∀ item ref p code, ref? item = some ref → s.Takes item ref (.program p) →
      s.programs[p.index]? = some code → s'.programs[p.index]? = some code) :
    f.Realizes r ref? s' where
  holds item ref made := by
    obtain ⟨d, found, holds⟩ := realizes.holds item ref made
    exact ⟨d, found, holds.mono (fun _ _ made => made) lambdas records
      fun p code => programs item ref p code made⟩
  distinct item item' ref ref' place made made' takes takes' := by
    obtain ⟨_, -, holds⟩ := realizes.holds item ref made
    obtain ⟨_, -, holds'⟩ := realizes.holds item' ref' made'
    exact realizes.distinct item item' ref ref' place made made'
      (holds.takes_of_kept lambdas takes) (holds'.takes_of_kept lambdas takes')

theorem Realizes.extends {f : ImageFile} (realizes : f.Realizes r ref? s) (grown : s.Extends s') :
    f.Realizes r ref? s' :=
  realizes.mono grown.lambdas grown.records fun _ _ _ _ _ _ => grown.programs _ _

end ImageFile

/-! ## The table -/

namespace Resolver

variable {f : ImageFile} {r : Registry} {t t' t'' : Resolver f} {path : List FileItem}
  {item : FileItem} {s : Store}

@[simp] theorem store_note (ref : item.Ref) : (t.note item ref).store = t.store := by
  cases item <;> rfl

theorem made?_note_self {d : item.Def} (found : f.def? item = some d) (ref : item.Ref) :
    (t.note item ref).made? item = some ref := by
  cases item with
  | lambda n =>
    have inside : n < f.lambdas.length := (List.getElem?_eq_some_iff.1 found).1
    simp [made?, note, inside]
  | record n =>
    have inside : n < f.records.length := (List.getElem?_eq_some_iff.1 found).1
    simp [made?, note, inside]

theorem made?_note_of_ne {item' : FileItem} (ref : item.Ref) (other : item' ≠ item) :
    (t.note item ref).made? item' = t.made? item' := by
  cases item with
  | lambda n =>
    cases item' with
    | lambda m =>
      have apart : n ≠ m := fun same => other (congrArg FileItem.lambda same.symm)
      simp [made?, note, Vector.getElem?_setIfInBounds_ne apart]
    | record m => rfl
  | record n =>
    cases item' with
    | lambda m => rfl
    | record m =>
      have apart : n ≠ m := fun same => other (congrArg FileItem.record same.symm)
      simp [made?, note, Vector.getElem?_setIfInBounds_ne apart]

/-- What holds of the new entry and of all entries there were holds of all entries. -/
theorem forall_note {P : (item : FileItem) → item.Ref → Prop} {d : item.Def} {ref : item.Ref}
    (found : f.def? item = some d) (here : P item ref)
    (others : ∀ item' ref', t.made? item' = some ref' → P item' ref') :
    ∀ item' ref', (t.note item ref).made? item' = some ref' → P item' ref' := by
  intro item' ref' made
  by_cases same : item' = item
  · subst same
    rw [made?_note_self found, Option.some.injEq] at made
    exact made ▸ here
  · rw [made?_note_of_ne ref same] at made
    exact others item' ref' made

/-- What is in the table is what the file describes, and nothing in it refers to itself, also not by way
of others. -/
structure Sound (r : Registry) (t : Resolver f) : Prop extends f.Realizes r t.made? t.store where
  founded : ∀ item ref, t.made? item = some ref → Acc (fun target item => f.Refers item target) item

/-- More was made while the items of `path` were under way. -/
structure Grows (path : List FileItem) (t t' : Resolver f) : Prop where
  store : t.store.Extends t'.store
  kept : ∀ item ref, t.made? item = some ref → t'.made? item = some ref
  fresh : ∀ item ref place, t'.made? item = some ref → t'.store.Takes item ref place →
    t.made? item = some ref ∨ place.IsNew t.store
  waiting : ∀ item ∈ path, t'.made? item = t.made? item

theorem Grows.refl : t.Grows path t :=
  ⟨.refl _, fun _ _ made => made, fun _ _ _ made _ => .inl made, fun _ _ => rfl⟩

theorem Grows.trans (first : t.Grows path t') (sound : t'.Sound r) (second : t'.Grows path t'') :
    t.Grows path t'' where
  store := first.store.trans second.store
  kept item ref made := second.kept item ref (first.kept item ref made)
  fresh item ref place made takes := by
    rcases second.fresh item ref place made takes with before | new
    · obtain ⟨d, -, holds⟩ := sound.holds item ref before
      exact first.fresh item ref place before (holds.takes_of_kept second.store.lambdas takes)
    · exact .inr (new.of_extends first.store)
  waiting item inside := (second.waiting item inside).trans (first.waiting item inside)

theorem Sound.extends (sound : t.Sound r) (grown : t.store.Extends s) :
    { t with store := s }.Sound r :=
  ⟨sound.toRealizes.extends grown, sound.founded⟩

/-- Adding to the store adds nothing to the table. -/
theorem Grows.withStore (grown : t.store.Extends s) : t.Grows path { t with store := s } where
  store := grown
  kept _ _ made := made
  fresh _ _ _ made _ := .inl made
  waiting _ _ := rfl

/-- A table stays sound when more is appended to a program that no entry has. -/
theorem Sound.extend {home : ProgramRef} (sound : t.Sound r)
    (apart : ∀ item ref, t.made? item = some ref → ¬ t.store.Takes item ref (.program home))
    (code : Code) : { t with store := t.store.extend home code }.Sound r := by
  refine ⟨sound.toRealizes.mono (fun _ _ there => there) (fun _ _ there => there) ?_, sound.founded⟩
  intro item ref p old made takes there
  have other : p.index ≠ home.index := by
    intro same
    cases p
    cases same
    exact apart item ref made takes
  rw [Store.getElem?_extend_of_ne other]
  exact there

/-- Appending to a program that is new leaves all that there was alone. -/
theorem Grows.extend {home : ProgramRef} (grows : t.Grows path t')
    (new : t.store.programs.size ≤ home.index) (code : Code) :
    t.Grows path { t' with store := t'.store.extend home code } where
  store := by
    refine ⟨fun p old there => ?_, grows.store.lambdas, grows.store.records⟩
    have inside := (Array.getElem?_eq_some_iff.1 there).1
    rw [Store.getElem?_extend_of_ne (Nat.ne_of_lt (Nat.lt_of_lt_of_le inside new))]
    exact grows.store.programs p old there
  kept := grows.kept
  fresh := grows.fresh
  waiting := grows.waiting

/-- A new object, made of an item on top of a table, before it is entered there. -/
structure Makes (r : Registry) (path : List FileItem) (t : Resolver f) (item : FileItem)
    (d : item.Def) (ref : item.Ref) (t' : Resolver f) : Prop where
  sound : t'.Sound r
  grows : t.Grows path t'
  holds : ImageFile.Holds r t'.made? t'.store item d ref
  fresh : ∀ place, t'.store.Takes item ref place → place.IsNew t.store
  apart : ∀ item' ref' place, t'.made? item' = some ref' → t'.store.Takes item' ref' place →
    ¬ t'.store.Takes item ref place

section

variable {d : item.Def} {ref : item.Ref} (makes : Makes r (item :: path) t item d ref t')
  (new : t.made? item = none)
include makes new

/-- Entering the new object overwrites nothing, since nothing was made of an item that is under way. -/
theorem Makes.kept_note (item' : FileItem) (ref' : item'.Ref) (made : t'.made? item' = some ref') :
    (t'.note item ref).made? item' = some ref' := by
  have other : item' ≠ item := by
    rintro rfl
    rw [makes.grows.waiting _ List.mem_cons_self, new] at made
    cases made
  rw [made?_note_of_ne ref other]
  exact made

/-- With the new object entered the table is sound. -/
theorem Makes.sound_note (found : f.def? item = some d) : (t'.note item ref).Sound r := by
  have holds : ∀ {item' : FileItem} {d' : item'.Def} {ref' : item'.Ref},
      ImageFile.Holds r t'.made? t'.store item' d' ref' →
        ImageFile.Holds r (t'.note item ref).made? t'.store item' d' ref' := fun before =>
    before.mono (makes.kept_note new) (fun _ _ there => there) (fun _ _ there => there)
      fun _ _ _ there => there
  refine ⟨⟨?_, ?_⟩, ?_⟩
  · rw [store_note]
    refine forall_note found ⟨d, found, holds makes.holds⟩ fun item' ref' made => ?_
    obtain ⟨d', found', before⟩ := makes.sound.holds item' ref' made
    exact ⟨d', found', holds before⟩
  · rw [store_note]
    intro item₁ item₂ ref₁ ref₂ place made₁ made₂
    revert item₁ ref₁
    refine forall_note found ?_ fun item₁ ref₁ made₁ => ?_
    · revert item₂ ref₂
      refine forall_note found (fun _ _ => rfl) fun item₂ ref₂ made₂ takes takes₂ => ?_
      exact absurd takes (makes.apart item₂ ref₂ place made₂ takes₂)
    · revert item₂ ref₂
      refine forall_note found (fun takes₁ takes => ?_) fun item₂ ref₂ made₂ => ?_
      · exact absurd takes (makes.apart item₁ ref₁ place made₁ takes₁)
      · exact makes.sound.distinct item₁ item₂ ref₁ ref₂ place made₁ made₂
  · refine forall_note found (.intro item fun target refers => ?_) makes.sound.founded
    obtain ⟨ref', made⟩ := makes.holds.exists_ref found refers
    exact makes.sound.founded target ref' made

/-- Entering the new object is no change for what is still under way. -/
theorem Makes.grows_note (found : f.def? item = some d) (off : item ∉ path) :
    t.Grows path (t'.note item ref) where
  store := by
    rw [store_note]
    exact makes.grows.store
  kept item' ref' made := makes.kept_note new item' ref' (makes.grows.kept item' ref' made)
  fresh := by
    rw [store_note]
    intro item' ref' place made
    revert item' ref'
    exact forall_note found (fun takes => .inr (makes.fresh place takes)) fun item' ref' =>
      makes.grows.fresh item' ref' place
  waiting item' inside := by
    have other : item' ≠ item := fun same => off (same ▸ inside)
    rw [made?_note_of_ne ref other]
    exact makes.grows.waiting item' (List.mem_cons_of_mem item inside)

end

end Resolver

end PlotMachine
