import Mathlib.Data.Nat.Basic
import PlotMachine.Proofs.Operands
import PlotMachine.Validate

/-!
# What validation establishes

Validation follows some of the references of the code it checks and does not look at a lambda twice.
The theorems here put the walk aside. A walk that succeeds has settled every check it was asked for
and every lambda it visited (`exists_visited_of_checkAll`). A walk that starts in a set of lambdas and
record types which satisfy their checks, and which refer to nothing outside the set, succeeds
(`checkAll_of_closed`). Hence a lambda is accepted if and only if such a set contains it
(`validateLambda_eq_ok_iff`).
-/

namespace PlotMachine

namespace Store

/-- A lambda passes its own checks. -/
structure LambdaOk (s : Store) (l : LambdaRef) : Prop where
  sizes : checkSizes (s.lambda l) = .ok ()
  instr : ∀ offset i, (s.body l)[offset]? = some i → s.checkInstr (s.lambda l) offset i = .ok ()

/-- Lambdas and record types that pass their own checks and refer to nothing but each other. -/
structure Closed (s : Store) (lambdas : LambdaRef → Prop) (records : RecordRef → Prop) : Prop where
  lambda : ∀ l, lambdas l → s.LambdaOk l
  record : ∀ r, records r → s.checkInit (s.record r) = .ok () ∧ lambdas (s.record r).init
  dependency : ∀ l, lambdas l → ∀ i ∈ s.body l,
    (∀ l', i.dependency? = some (.lambda l') → lambdas l') ∧
      ∀ r, i.dependency? = some (.record r) → records r

/-- A record type passes its check, and its initialiser is visited. -/
def Initialised (s : Store) (visited : LambdaRef → Prop) (r : RecordRef) : Prop :=
  s.checkInit (s.record r) = .ok () ∧ visited (s.record r).init

/-- What an instruction is valid only with is visited. -/
def Leads (s : Store) (visited : LambdaRef → Prop) (i : Instr) : Prop :=
  (∀ l, i.dependency? = some (.lambda l) → visited l) ∧
    ∀ r, i.dependency? = some (.record r) → s.Initialised visited r

end Store

namespace Check

/-- A check was made with success, and the lambdas it leads to are visited. -/
def Settled (s : Store) (visited : LambdaRef → Prop) : Check → Prop
  | .record r => s.Initialised visited r
  | .lambda l => visited l
  | .instr l offset i => s.checkInstr (s.lambda l) offset i = .ok () ∧ s.Leads visited i

/-- A check is about certain lambdas and record types. -/
def About (s : Store) (lambdas : LambdaRef → Prop) (records : RecordRef → Prop) : Check → Prop
  | .record r => records r
  | .lambda l => lambdas l
  | .instr l offset i => lambdas l ∧ (s.body l)[offset]? = some i

end Check

namespace Store

variable {s : Store} {seen : List LambdaRef} {checks : List Check}

theorem mem_instrChecks {l : LambdaRef} {c : Check} :
    c ∈ s.instrChecks l ↔ ∃ offset i, (s.body l)[offset]? = some i ∧ c = .instr l offset i := by
  constructor
  · intro inside
    obtain ⟨⟨i, offset⟩, indexed, rfl⟩ := List.mem_map.1 inside
    refine ⟨offset, i, ?_, rfl⟩
    rw [← Array.getElem?_toList]
    exact List.mk_mem_zipIdx_iff_getElem?.1 indexed
  · rintro ⟨offset, i, found, rfl⟩
    rw [← Array.getElem?_toList] at found
    exact List.mem_map_of_mem (List.mk_mem_zipIdx_iff_getElem?.2 found)

/-- An instruction leads to visited code once what it depends on is settled. -/
theorem leads_of_settled {visited : LambdaRef → Prop} {i : Instr}
    (settled : ∀ c ∈ i.dependency?.toList, c.Settled s visited) : s.Leads visited i :=
  ⟨fun _ needs => settled _ (Option.mem_toList.2 needs),
    fun _ needs => settled _ (Option.mem_toList.2 needs)⟩

/-- A walk that succeeds has settled all checks, and all lambdas that were new to it. -/
theorem exists_visited_of_checkAll (ok : s.checkAll seen checks = .ok ()) :
    ∃ visited : LambdaRef → Prop, (∀ l ∈ seen, visited l) ∧ (∀ c ∈ checks, c.Settled s visited) ∧
      ∀ l, visited l → l ∈ seen ∨ s.LambdaOk l ∧ ∀ i ∈ s.body l, s.Leads visited i := by
  fun_induction s.checkAll seen checks with
  | case1 seen => exact ⟨(· ∈ seen), fun _ old => old, nofun, fun _ old => .inl old⟩
  | case2 seen r rest ih =>
    obtain ⟨_, here, others⟩ := exists_of_bind_eq_ok ok
    obtain ⟨visited, old, settled, good⟩ := ih others
    obtain ⟨init, settled⟩ := List.forall_mem_cons.1 settled
    exact ⟨visited, old, List.forall_mem_cons.2 ⟨⟨here, init⟩, settled⟩, good⟩
  | case3 seen l rest known ih =>
    obtain ⟨visited, old, settled, good⟩ := ih ok
    exact ⟨visited, old, List.forall_mem_cons.2 ⟨old l known, settled⟩, good⟩
  | case4 seen l rest new ih =>
    obtain ⟨_, sizes, others⟩ := exists_of_bind_eq_ok ok
    obtain ⟨visited, old, settled, good⟩ := ih others
    obtain ⟨here, old⟩ := List.forall_mem_cons.1 old
    obtain ⟨instrs, settled⟩ := List.forall_mem_append.1 settled
    refine ⟨visited, old, List.forall_mem_cons.2 ⟨here, settled⟩, fun l' inside => ?_⟩
    rcases good l' inside with known | fine
    · rcases List.mem_cons.1 known with rfl | known
      -- the lambda itself: the checks of its instructions were put in front of the rest
      · refine .inr ⟨⟨sizes, fun offset i found => ?_⟩, fun i inside => ?_⟩
        · exact (instrs _ (mem_instrChecks.2 ⟨offset, i, found, rfl⟩)).1
        · obtain ⟨offset, found⟩ := Array.mem_iff_getElem?.1 inside
          exact (instrs _ (mem_instrChecks.2 ⟨offset, i, found, rfl⟩)).2
      · exact .inl known
    · exact .inr fine
  | case5 seen l offset i rest ih =>
    obtain ⟨_, here, others⟩ := exists_of_bind_eq_ok ok
    obtain ⟨visited, old, settled, good⟩ := ih others
    obtain ⟨dependency, settled⟩ := List.forall_mem_append.1 settled
    exact ⟨visited, old,
      List.forall_mem_cons.2 ⟨⟨here, leads_of_settled dependency⟩, settled⟩, good⟩

/-- A walk within a closed set succeeds. -/
theorem checkAll_of_closed {lambdas : LambdaRef → Prop} {records : RecordRef → Prop}
    (closed : s.Closed lambdas records) (about : ∀ c ∈ checks, c.About s lambdas records) :
    s.checkAll seen checks = .ok () := by
  fun_induction s.checkAll seen checks with
  | case1 => rfl
  | case2 seen r rest ih =>
    obtain ⟨here, others⟩ := List.forall_mem_cons.1 about
    obtain ⟨init, inside⟩ := closed.record r here
    rw [init]
    exact ih (List.forall_mem_cons.2 ⟨inside, others⟩)
  | case3 seen l rest known ih => exact ih (List.forall_mem_cons.1 about).2
  | case4 seen l rest new ih =>
    obtain ⟨here, others⟩ := List.forall_mem_cons.1 about
    rw [(closed.lambda l here).sizes]
    refine ih (List.forall_mem_append.2 ⟨fun c inside => ?_, others⟩)
    obtain ⟨offset, i, found, rfl⟩ := mem_instrChecks.1 inside
    exact ⟨here, found⟩
  | case5 seen l offset i rest ih =>
    obtain ⟨⟨here, found⟩, others⟩ := List.forall_mem_cons.1 about
    rw [(closed.lambda l here).instr offset i found]
    refine ih (List.forall_mem_append.2 ⟨fun c inside => ?_, others⟩)
    have dependency := closed.dependency l here i (Array.mem_of_getElem? found)
    have leads := Option.mem_toList.1 inside
    cases c with
    | lambda l' => exact dependency.1 l' leads
    | record r => exact dependency.2 r leads
    | instr l' offset' i' =>
      unfold Instr.dependency? at leads
      split at leads <;> cases leads

/-- Checks that succeed with no lambda seen before are within a closed set. -/
theorem exists_closed_of_checkAll (ok : s.checkAll [] checks = .ok ()) :
    ∃ lambdas records, s.Closed lambdas records ∧ ∀ c ∈ checks, c.Settled s lambdas := by
  obtain ⟨visited, -, settled, good⟩ := exists_visited_of_checkAll ok
  have fine := fun l inside => (good l inside).resolve_left List.not_mem_nil
  exact ⟨visited, s.Initialised visited,
    ⟨fun l inside => (fine l inside).1, fun _ init => init, fun l inside => (fine l inside).2⟩,
    settled⟩

/-- A lambda is accepted if it belongs to a closed set. -/
theorem validateLambda_eq_ok_iff {l : LambdaRef} :
    s.validateLambda l = .ok () ↔ ∃ lambdas records, s.Closed lambdas records ∧ lambdas l := by
  constructor
  · intro ok
    obtain ⟨lambdas, records, closed, settled⟩ := exists_closed_of_checkAll ok
    exact ⟨lambdas, records, closed, settled _ (List.mem_singleton_self _)⟩
  · rintro ⟨lambdas, records, closed, inside⟩
    exact checkAll_of_closed closed (List.forall_mem_singleton.2 inside)

/-! ## Single checks -/

theorem checkSizes_eq_ok_iff {lambda : Lambda} :
    checkSizes lambda = .ok () ↔ lambda.params ≤ lambda.vars := by
  rw [checkSizes]
  split
  · next less => exact iff_of_false nofun (Nat.not_le_of_lt less)
  · next le => exact iff_of_true rfl (Nat.le_of_not_lt le)

theorem checkSlot_eq_ok_iff {lambda : Lambda} {offset slot : Nat} {op : Opcode} :
    checkSlot lambda offset slot op = .ok () ↔ slot < lambda.vars := by
  rw [checkSlot]
  split
  · next inside => exact iff_of_true rfl inside
  · next outside => exact iff_of_false nofun outside

theorem checkTarget_eq_ok_iff {lambda : Lambda} {target : Label} :
    s.checkTarget lambda target = .ok () ↔
      target.program = some lambda.code ∧ target.offset ≤ (s.code lambda.code).size := by
  rw [checkTarget, Label.offsetIn]
  split
  · next own =>
    change (if (s.code lambda.code).size < target.offset then _ else _) = _ ↔ _
    split
    · next far => exact iff_of_false nofun fun both => Nat.not_le_of_lt far both.2
    · next near => exact iff_of_true rfl ⟨own, Nat.le_of_not_lt near⟩
  · next other => exact iff_of_false nofun fun both => other both.1

end Store

end PlotMachine
