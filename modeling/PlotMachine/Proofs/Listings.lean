import Mathlib.Logic.Relation
import PlotMachine.Listing
import PlotMachine.Proofs.BreadthFirst

/-!
# What a listing contains

A listing of a lambda is its header and one entry for each of its instructions (`Store.sectionOf`).
The labels that the listing goes along are those of the program, one after the other, so it comes to
the label at which it stops (`Writes`). It fails only at a jump out of the program.

A listing of several lambdas goes into all lambdas they refer to (`Store.Reaches`). It walks through
them in breadth-first order, and it fails if one of them cannot be listed.
-/

namespace PlotMachine

/-- An instruction jumps nowhere but into a program. -/
def Instr.StaysIn (p : ProgramRef) (i : Instr) : Prop :=
  ∀ condition target, i = .jump condition target → target.program = some p

namespace Store

/-- A lambda refers to another one that has to be valid with it. -/
inductive Needs (s : Store) (j k : LambdaRef) : Prop where
  | makeFunc (here : .makeFunc k ∈ s.body j)
  | constant (here : .constPush (.lambda k) ∈ s.body j)
  | initialiser (r : RecordRef) (here : .alloc r ∈ s.body j) (init : (s.record r).init = k)

/-- A lambda pushes a function, as a constant, that runs another one. -/
def PushesFunction (s : Store) (j k : LambdaRef) : Prop :=
  ∃ id closure, .constPush (.callable (.function id k closure)) ∈ s.body j

/-- A lambda leads to another one by way of what instructions mention. -/
def Reaches (s : Store) : LambdaRef → LambdaRef → Prop :=
  Relation.ReflTransGen fun j k => k ∈ s.mentions j

/-- Every offset of a program, and the one after its end, is a signed word. -/
def Addressable (s : Store) : Prop := ∀ p, ((s.code p).size : Int) ≤ maxSigned

/-- No jump of a lambda leaves its program. -/
def JumpsHome (s : Store) (l : LambdaRef) : Prop := ∀ i ∈ s.body l, i.StaysIn (s.lambda l).code

/-- The operand of an instruction in a listing of its program: a jump shows the offset it goes to. -/
def operand (s : Store) (h : Heap) : Instr → Option String
  | .jump _ target => some s!"-> {signedOffset target.offset}"
  | i => (s.operandText h {} i).toOption.join

/-- The line of a listing for the instruction at an offset. -/
def entry (s : Store) (h : Heap) (offset : Nat) (i : Instr) : String :=
  let start := padLeft 5 (toString offset) ++ "  " ++ padRight 12 i.opcode.mnemonic
  let line := match s.operand h i with
    | some operand => start ++ " " ++ operand
    | none => start
  trimEnd line ++ "\n"

/-- The lines of a listing for the instructions of a program, in order. -/
def entries (s : Store) (h : Heap) (p : ProgramRef) : String :=
  String.join ((s.code p).toList.mapIdx (s.entry h))

/-- The part of a listing that is about a lambda. -/
def sectionOf (s : Store) (h : Heap) (l : LambdaRef) : String :=
  listHeader (s.lambda l) ++ s.entries h (s.lambda l).code

/-- Lines are written from a label on, until the label is the one at the end of the program. -/
inductive Writes (s : Store) (h : Heap) (p : ProgramRef) : Label → String × Except Fault Unit → Prop
  | stop : Writes s h p (s.endOf p) ("", .ok ())
  | fault {label text fault} (inside : label ≠ s.endOf p)
      (stops : s.listAt h label { program := some p } = (text, .error fault)) :
      Writes s h p label (text, .error fault)
  | line {label text next more result} (inside : label ≠ s.endOf p)
      (written : s.listAt h label { program := some p } = (text, .ok next))
      (others : Writes s h p next (more, result)) :
      Writes s h p label (text ++ more, result)

variable {s : Store} {h : Heap} {p : ProgramRef} {j k l : LambdaRef} {i : Instr} {offset : Nat}

/-- A listing goes where validation goes, and into functions. -/
theorem mem_mentions : k ∈ s.mentions j ↔ s.Needs j k ∨ s.PushesFunction j k := by
  rw [mentions, List.mem_filterMap]
  constructor
  · rintro ⟨i, here, leads⟩
    have here := Array.mem_toList_iff.1 here
    unfold mentioned? at leads
    split at leads <;> cases leads
    · exact .inl (.makeFunc here)
    · exact .inl (.initialiser _ here rfl)
    · exact .inl (.constant here)
    · exact .inr ⟨_, _, here⟩
  · rintro ((here | here | ⟨r, here, rfl⟩) | ⟨id, closure, here⟩)
    all_goals exact ⟨_, Array.mem_toList_iff.2 here, rfl⟩

/-! ## Entries -/

/-- The distance to a place in the same program is its offset. -/
theorem distanceTo_home {target : Label} (own : target.program = some p) :
    Label.distanceTo { program := some p } target = .ok (signedOffset target.offset) := by
  have same : Label.sameProgram { program := some p } target = true := beq_iff_eq.2 own.symm
  have start : signedOffset 0 = 0 := rfl
  rw [Label.distanceTo, if_pos same, start, Int.sub_zero, signedOffset, Int.bmod_bmod]

theorem distanceTo_away {target : Label} (other : target.program ≠ some p) :
    Label.distanceTo { program := some p } target = .error .labelMismatch :=
  if_neg fun own => other (beq_iff_eq.1 own).symm

/-- The operand of an instruction can be told, unless it is a jump out of the program. -/
theorem operandText_eq (stays : i.StaysIn p) :
    s.operandText h { program := some p } i = .ok (s.operand h i) := by
  cases i with
  | jump condition target =>
    rw [operandText, distanceTo_home (stays condition target rfl)]
    rfl
  | _ => rfl

theorem operandText_away (leaves : ¬ i.StaysIn p) :
    s.operandText h { program := some p } i = .error .labelMismatch := by
  simp only [Instr.StaysIn, not_forall] at leaves
  obtain ⟨condition, target, rfl, other⟩ := leaves
  rw [operandText, distanceTo_away other]
  rfl

/-- The instruction at an offset is that of the program. -/
theorem dereference_eq (found : (s.code p)[offset]? = some i) :
    s.dereference ⟨some p, offset⟩ = .ok i := by
  rw [dereference, Option.bind_some]
  cases program : s.code? p with
  | none =>
    rw [code, program] at found
    cases found
  | some code =>
    rw [Store.code, program, Option.getD_some] at found
    simp only [found]

/-- An instruction that stays in its program is listed, and the label after it is the next one. -/
theorem listAt_eq (short : (offset : Int) < maxSigned) (found : (s.code p)[offset]? = some i)
    (stays : i.StaysIn p) :
    s.listAt h ⟨some p, offset⟩ { program := some p } =
      (s.entry h offset i, .ok ⟨some p, offset + 1⟩) := by
  have next : s.advance ⟨some p, offset⟩ 1 = .ok ⟨some p, offset + 1⟩ :=
    advance_eq_ok_iff.2 ⟨⟨by dsimp only; omega, short⟩, rfl⟩
  rw [listAt, dereference_eq found]
  simp only [distanceTo_home, signedOffset_eq (Int.le_of_lt short), bind, Except.bind, pure,
    Except.pure, operandText_eq stays, next, entry]
  rfl

/-- A jump out of a program cannot be listed. -/
theorem exists_listAt_away (found : (s.code p)[offset]? = some i) (leaves : ¬ i.StaysIn p) :
    ∃ text, s.listAt h ⟨some p, offset⟩ { program := some p } = (text, .error .labelMismatch) := by
  rw [listAt, dereference_eq found]
  simp only [distanceTo_home, bind, Except.bind, pure, Except.pure, operandText_away leaves]
  exact ⟨_, rfl⟩

/-! ## Sections -/

/-- The instruction at which the rest of a program begins. -/
theorem getElem?_of_drop {rest : List Instr} (left : (s.code p).toList.drop offset = i :: rest) :
    (s.code p)[offset]? = some i ∧ (s.code p).toList.drop (offset + 1) = rest := by
  constructor
  · rw [← Array.getElem?_toList, ← List.head?_drop, left, List.head?_cons]
  · rw [← List.tail_drop, left, List.tail_cons]

/-- A label inside a program is not the one at its end. -/
theorem ne_endOf (found : (s.code p)[offset]? = some i) : (⟨some p, offset⟩ : Label) ≠ s.endOf p := by
  intro same
  have inside := (Array.getElem?_eq_some_iff.1 found).1
  exact absurd (congrArg Label.offset same) (Nat.ne_of_lt inside)

/-- The instructions of a program from an offset on are listed if they stay in it. The induction is on
the instructions that are left. -/
theorem listFrom_eq (short : ((s.code p).size : Int) ≤ maxSigned) (rest : List Instr)
    (left : (s.code p).toList.drop offset = rest) (inside : offset ≤ (s.code p).size)
    (stay : ∀ i ∈ rest, i.StaysIn p) :
    s.listFrom h { program := some p } (s.endOf p) (fun _ => true) ⟨some p, offset⟩ =
      (String.join (rest.mapIdx fun n => s.entry h (offset + n)), .ok ()) := by
  induction rest generalizing offset with
  | nil =>
    have ended : offset = (s.code p).size := by
      have beyond := List.drop_eq_nil_iff.1 left
      rw [Array.length_toList] at beyond
      omega
    rw [listFrom, if_pos (ended ▸ rfl)]
    rfl
  | cons i rest ih =>
    obtain ⟨found, left'⟩ := getElem?_of_drop left
    have bound := (Array.getElem?_eq_some_iff.1 found).1
    obtain ⟨here, others⟩ := List.forall_mem_cons.1 stay
    have shift : (fun n => s.entry h (offset + (n + 1))) = fun n => s.entry h (offset + 1 + n) :=
      funext fun n => congrArg (s.entry h) (by omega)
    rw [listFrom, if_neg (ne_endOf found), dereference_eq found, List.mapIdx_cons, String.join_cons,
      shift]
    dsimp only
    rw [listAt_eq (by omega) found here]
    dsimp only
    rw [if_pos rfl, ih left' bound others]
    rfl

/-- A listing from an offset on fails if a jump leaves the program, even if other ones do so before. -/
theorem exists_listFrom_away (short : ((s.code p).size : Int) ≤ maxSigned) (rest : List Instr)
    (left : (s.code p).toList.drop offset = rest) (leaves : ∃ i ∈ rest, ¬ i.StaysIn p) :
    ∃ text, s.listFrom h { program := some p } (s.endOf p) (fun _ => true) ⟨some p, offset⟩ =
      (text, .error .labelMismatch) := by
  induction rest generalizing offset with
  | nil =>
    obtain ⟨_, inside, _⟩ := leaves
    cases inside
  | cons i rest ih =>
    obtain ⟨found, left'⟩ := getElem?_of_drop left
    have bound := (Array.getElem?_eq_some_iff.1 found).1
    rw [listFrom, if_neg (ne_endOf found), dereference_eq found]
    dsimp only
    by_cases here : i.StaysIn p
    · have later : ∃ i ∈ rest, ¬ i.StaysIn p := by
        obtain ⟨i', inside, away⟩ := leaves
        rcases List.mem_cons.1 inside with rfl | inside
        · exact (away here).elim
        · exact ⟨i', inside, away⟩
      obtain ⟨text, failed⟩ := ih left' later
      rw [listAt_eq (by omega) found here]
      simp only [if_true, failed]
      exact ⟨_, rfl⟩
    · obtain ⟨text, failed⟩ := exists_listAt_away (h := h) found here
      rw [failed]
      exact ⟨text, rfl⟩

/-- What is listed from a label on is written along the labels, up to the one at the end or to a
failure. -/
theorem writes_listFrom (label : Label) :
    s.Writes h p label (s.listFrom h { program := some p } (s.endOf p) (fun _ => true) label) := by
  fun_induction s.listFrom h { program := some p } (s.endOf p) (fun _ => true) label with
  | case1 => exact .stop
  | case2 label going e failed =>
    refine .fault going ?_
    rw [listAt, failed]
    rfl
  | case3 label going i found text e failed => exact .fault going failed
  | case4 label going i found text next listed _ others result same ih =>
    rw [same] at ih
    exact .line going listed ih
  | case5 label going i found text next listed no => exact absurd rfl no

/-- A lambda whose jumps stay in its program has a section in the listing. -/
theorem listLambda_eq (short : ((s.body l).size : Int) ≤ maxSigned) (home : s.JumpsHome l) :
    s.listLambda h l = .ok (s.sectionOf h l) := by
  have stay : ∀ i ∈ (s.body l).toList, i.StaysIn (s.lambda l).code :=
    fun i inside => home i (Array.mem_toList_iff.1 inside)
  have listed := listFrom_eq (h := h) short (s.body l).toList List.drop_zero (Nat.zero_le _) stay
  rw [listLambda, listed]
  simp only [Nat.zero_add]
  rfl

/-- A lambda with a jump that leaves its program is listed up to a failure. -/
theorem exists_listFrom_of_leaves (short : ((s.body l).size : Int) ≤ maxSigned)
    (leaves : ¬ s.JumpsHome l) :
    ∃ text, s.listFrom h { program := some (s.lambda l).code } (s.endOf (s.lambda l).code)
      (fun _ => true) { program := some (s.lambda l).code } = (text, .error .labelMismatch) := by
  simp only [JumpsHome, not_forall] at leaves
  obtain ⟨i, inside, away⟩ := leaves
  exact exists_listFrom_away short (s.body l).toList List.drop_zero
    ⟨i, Array.mem_toList_iff.2 inside, away⟩

theorem listLambda_away (short : ((s.body l).size : Int) ≤ maxSigned) (leaves : ¬ s.JumpsHome l) :
    s.listLambda h l = .error .labelMismatch := by
  obtain ⟨text, failed⟩ := exists_listFrom_of_leaves (h := h) short leaves
  rw [listLambda, failed]

/-- The lines of a section are those written along the labels of the program, from the first one to
the one at its end. -/
theorem writes_entries (short : ((s.body l).size : Int) ≤ maxSigned) (home : s.JumpsHome l) :
    s.Writes h (s.lambda l).code { program := some (s.lambda l).code }
      (s.entries h (s.lambda l).code, .ok ()) := by
  have stay : ∀ i ∈ (s.body l).toList, i.StaysIn (s.lambda l).code :=
    fun i inside => home i (Array.mem_toList_iff.1 inside)
  have written := s.writes_listFrom (h := h) (p := (s.lambda l).code)
    { program := some (s.lambda l).code }
  rw [listFrom_eq short (s.body l).toList List.drop_zero (Nat.zero_le _) stay] at written
  simp only [Nat.zero_add] at written
  exact written

/-- Where a jump leaves the program, writing along the labels comes to a failure. -/
theorem exists_writes_away (short : ((s.body l).size : Int) ≤ maxSigned) (leaves : ¬ s.JumpsHome l) :
    ∃ text, s.Writes h (s.lambda l).code { program := some (s.lambda l).code }
      (text, .error .labelMismatch) := by
  obtain ⟨text, failed⟩ := exists_listFrom_of_leaves (h := h) short leaves
  have written := s.writes_listFrom (h := h) (p := (s.lambda l).code)
    { program := some (s.lambda l).code }
  rw [failed] at written
  exact ⟨text, written⟩

/-! ## Listings of several lambdas -/

/-- A queue is listed in the order in which a walk through it meets the lambdas. -/
theorem exists_discovers (seen queue : List LambdaRef) :
    ∃ order, Discovers s.mentions seen queue order ∧
      s.listQueue h seen queue = order.mapM (s.listLambda h) := by
  fun_induction s.listQueue h seen queue with
  | case1 => exact ⟨[], .done, rfl⟩
  | case2 seen l rest known ih =>
    obtain ⟨order, walk, listed⟩ := ih
    exact ⟨order, .again known walk, listed⟩
  | case3 seen l rest new ih =>
    obtain ⟨order, walk, listed⟩ := ih
    exact ⟨l :: order, .found new walk, by rw [List.mapM_cons, listed]⟩

/-- Items that can all be treated are treated one by one. -/
theorem mapM_eq_ok {α β : Type} {f : α → Except Fault β} {g : α → β} {as : List α}
    (all : ∀ a ∈ as, f a = .ok (g a)) : as.mapM f = .ok (as.map g) := by
  induction as with
  | nil => rfl
  | cons a as ih =>
    obtain ⟨here, others⟩ := List.forall_mem_cons.1 all
    rw [List.mapM_cons, here, ih others]
    rfl

/-- An item that cannot be treated makes all fail, with its fault if no item fails with another one. -/
theorem mapM_eq_error {α β : Type} {f : α → Except Fault β} {g : α → β} {fault : Fault} {as : List α}
    (each : ∀ a ∈ as, f a = .ok (g a) ∨ f a = .error fault) (fails : ∃ a ∈ as, f a = .error fault) :
    as.mapM f = .error fault := by
  induction as with
  | nil =>
    obtain ⟨_, inside, _⟩ := fails
    cases inside
  | cons a as ih =>
    obtain ⟨here, others⟩ := List.forall_mem_cons.1 each
    rw [List.mapM_cons]
    rcases here with ok | failed
    · have later : ∃ a ∈ as, f a = .error fault := by
        obtain ⟨b, inside, failed⟩ := fails
        rcases List.mem_cons.1 inside with rfl | inside
        · rw [ok] at failed
          cases failed
        · exact ⟨b, inside, failed⟩
      rw [ok, ih others later]
      rfl
    · rw [failed]
      rfl

/-- A lambda is one of some roots, or they refer to it in one way or another. -/
def ReachedFrom (s : Store) (roots : List LambdaRef) (k : LambdaRef) : Prop :=
  ∃ r ∈ roots, Relation.ReflTransGen (fun i j => s.Needs i j ∨ s.PushesFunction i j) r k

theorem reachedFrom_iff {roots : List LambdaRef} :
    s.ReachedFrom roots k ↔ ∃ r ∈ roots, s.Reaches r k := by
  simp only [ReachedFrom, Reaches, mem_mentions]

/-- Two lambdas that refer to each other, and to a third one. -/
def pingPong : Store where
  programs := #[
    some #[.alloc ⟨0⟩, .makeFunc ⟨1⟩, .constPush (.lambda ⟨2⟩), .ret],
    some #[.constPush (.callable (.function 0 ⟨0⟩ none)), .jump .always ⟨some ⟨1⟩, 0⟩],
    some #[.load .var 0, .ret]]
  lambdas := #[{ name := some "ping", code := ⟨0⟩, maxStack := 2, params := 0, vars := 0 },
    { name := some "pong", code := ⟨1⟩, maxStack := 1, params := 0, vars := 0 },
    { name := some "start", code := ⟨2⟩, maxStack := 1, params := 1, vars := 1 }]
  records := #[{ name := some "Ball", size := 3, init := ⟨2⟩ }]

example : (generations pingPong.mentions 4 [⟨1⟩, ⟨0⟩, ⟨1⟩]).eraseDups = [⟨1⟩, ⟨0⟩, ⟨2⟩] := by decide

example : pingPong.entry {} 1 (.jump .always ⟨some ⟨1⟩, 0⟩) = "    1  jmp          -> 0\n" := by cbv

end Store

end PlotMachine
