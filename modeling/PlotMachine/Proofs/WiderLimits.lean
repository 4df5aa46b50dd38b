import PlotMachine.Proofs.LibraryOnly
import PlotMachine.Proofs.Likeness.Capacity

/-!
# Limits are only ever reached

How many values a lambda may hold on the stack and how many lambdas may run inside each other decide
nothing but whether a run fails for want of room. So a call that does not fail in this way goes on as
it did when it is given more room (`Env.invoke_widen`): in the roomier run every ceiling is as high or
higher, and nothing is ever asked of a ceiling or of the depth but whether there is room left.

The stack is made large enough for what a lambda may hold when the lambda is entered. This is the one
thing for which the capacity may suffice in the first run and not in the roomier one.
-/

namespace PlotMachine

/-- A fault that says that there was no room. -/
def Fault.isLimit : Fault → Bool
  | .stackOverflow _ | .callDepthExceeded _ => true
  | _ => false

/-- The second store lets every lambda hold as many values on the stack as the first one does, or more,
and has the same code otherwise. -/
structure Store.Widens (s s' : Store) : Prop where
  programs : s'.programs = s.programs
  records : s'.records = s.records
  size_lambdas : s'.lambdas.size = s.lambdas.size
  lambda : ∀ l, ∃ n, s'.lambda l = { s.lambda l with maxStack := n } ∧ (s.lambda l).maxStack ≤ n

/-- A machine in which so many lambdas may run inside each other. -/
def Machine.withMaxDepth (m : Machine) (maxDepth : Nat) : Machine :=
  { m with stack := { m.stack with maxDepth } }

namespace Likeness

/-- The second run has as much room as the first one or more. Nothing is asked of it once the first one
has run out of room. -/
def widening {d₁ d₂ : Nat} (le : d₁ ≤ d₂) : Likeness where
  bottom₁ := #[]
  bottom₂ := #[]
  ceilings c₁ c₂ := c₁ ≤ c₂
  headrooms n₁ n₂ := n₁ ≤ n₂
  maxDepth₁ := d₁
  maxDepth₂ := d₂
  failures f₁ f₂ := f₁ = f₂
  excused₁ f := f.isLimit
  excused₂ _ := False
  strict := False
  ceilings_raise := by
    intro n₁ n₂ more k
    simp only [Array.size_empty]
    omega
  room := by
    intro c₁ c₂ higher k
    simp only [Array.size_empty]
    by_cases below : 0 + k < c₁
    · exact .inl ⟨below, by omega⟩
    · exact .inr (.inr (.inl ⟨Nat.le_of_not_lt below, rfl⟩))
  depths := .inr ⟨le, rfl⟩
  failures_refl := Eq.refl
  failures_locate := Failure.locate_same
  bottom_of_strict := False.elim
  failures_of_strict strict := strict.elim
  excused_of_strict := False.elim

variable {d₁ d₂ : Nat} (le : d₁ ≤ d₂)

theorem stores_widening {s s' : Store} (wider : s.Widens s') : (widening le).Stores s s' where
  code p := by
    unfold Store.code Store.code?
    rw [wider.programs]
  record r := by
    unfold Store.record
    rw [wider.records, wider.size_lambdas]
  lambda := wider.lambda

/-- Machines that differ in nothing but how many lambdas may run inside each other. -/
theorem machines_widening {m : Machine} (clean : m.keeper.pool.Clean) {d : Nat}
    (le : m.stack.maxDepth ≤ d) :
    (widening le).Machines m (m.withMaxDepth d) where
  stack :=
    { values := ⟨m.stack.values, (Array.empty_append).symm, (Array.empty_append).symm⟩
      floor := ⟨m.stack.floor, (Nat.zero_add _).symm, (Nat.zero_add _).symm⟩
      ceiling := Nat.le_refl m.stack.ceiling
      depth := rfl
      maxDepth₁ := rfl
      maxDepth₂ := rfl }
  heap := rfl
  globals := rfl
  interrupt := rfl
  output := rfl
  keeper := ⟨clean, clean, nofun⟩

end Likeness

namespace Env

/-- A call leaves the stack as it was. -/
theorem stack_invoke {env : Env} {fuel : Nat} {c : Callable} {args : List Value} {m m' : Machine}
    {result : Except Failure (Array Value)}
    (ended : env.invoke fuel c args m = some (result, m')) : m'.stack = m.stack := by
  have rests := Contract.rests_whole m.keeper.pool.all_true
  have answered := rests.invoke (Contract.covers_free _ _ _ env) rfl
    (fun v _ => Contract.fit_free _ _ _ v) (Contract.calls_free _ _ _ c) ended
  exact answered.stack

section

variable {env : Env} {s : Store} {d fuel capacity : Nat} {c : Callable} {args : List Value}
  {m m' : Machine} {result : Except Failure (Array Value)} (idle : m.Idle)
  (on : env.OnLibrary c args m) (wider : env.store.Widens s) (deeper : m.stack.maxDepth ≤ d)
  (ended : env.invoke fuel c args m = some (result, m'))
  (room : ∀ f, result = .error f → f.fault.isLimit = false)

include idle on wider deeper ended room

/-- A call that comes back without a fault about limits comes back with the same result if it is given more
room. -/
theorem exists_invoke_widen :
    ∃ k, { env with store := s }.invoke fuel c args (m.withMaxDepth d) =
      some (result, { m'.withMaxDepth d with keeper := k }) := by
  have clean : m.keeper.pool.Clean := idle.ready.parked
  have envs : (Likeness.widening deeper).Envs env { env with store := s } :=
    ⟨Likeness.stores_widening deeper wider, rfl⟩
  have machines := (Likeness.machines_widening clean deeper).closed
  have ends := envs.invoke machines c args fuel fun before e fn start later starts =>
    .inr (on.reserved clean start later starts)
  -- the machine that the roomier call leaves has the stack that was there before
  have joined : ∀ {n result'},
      { env with store := s }.invoke fuel c args (m.withMaxDepth d) = some (result', n) →
      m'.Agree n → n = { m'.withMaxDepth d with keeper := n.keeper } := by
    intro n result' ended' agree
    have stack : n.stack = (m'.withMaxDepth d).stack := by
      rw [stack_invoke ended', Machine.withMaxDepth, Machine.withMaxDepth, stack_invoke ended]
    calc n = { m' with stack := n.stack, keeper := n.keeper } := agree.eq
      _ = { m'.withMaxDepth d with keeper := n.keeper } := by rw [stack]; rfl
  rw [ended] at ends
  generalize ended' : { env with store := s }.invoke fuel c args (m.withMaxDepth d) = ending at ends
  cases ends with
  | @done values _ n agree => exact ⟨n.keeper, by rw [← joined ended' agree]⟩
  | @failed f _ _ n same agree =>
    cases same
    exact ⟨n.keeper, by rw [← joined ended' agree]⟩
  | @excused₁ f _ excused _ =>
    have limit : f.fault.isLimit = true := excused
    rw [room f rfl] at limit
    cases limit
  | excused₂ excused _ => exact excused.elim

omit idle on wider deeper in
/-- The tasks of the call come to no fault about limits. -/
theorem not_isLimit_of_concluded {f : Failure} {back : Machine}
    (failed : env.concluded fuel [.call c] args m = some (.error f, back)) :
    ¬ f.fault.isLimit = true := by
  rw [invoke_eq_map, failed] at ended
  cases ended
  rw [room f rfl]
  exact Bool.false_ne_true

/-- If the capacity suffices for the call, it suffices for the call with more room as well, unless a lambda
may fill more of the stack than that. -/
theorem ampleFor_widen (ample : env.AmpleFor capacity c args m)
    (within : ¬ (Likeness.widening deeper).Outgrows env.store s capacity) :
    { env with store := s }.AmpleFor capacity c args (m.withMaxDepth d) := by
  intro before₂ start₂
  have clean : m.keeper.pool.Clean := idle.ready.parked
  have envs : (Likeness.widening deeper).Envs env { env with store := s } :=
    ⟨Likeness.stores_widening deeper wider, rfl⟩
  have machines := (Likeness.machines_widening clean deeper).closed
  have results : (Likeness.widening deeper).Results Eq (started args m)
      (started args (m.withMaxDepth d)) := Likeness.steady_pushAll args _ _ machines
  rw [start₂] at results
  cases start₁ : started args m with
  | error f before₁ =>
    rw [start₁] at results
    have failed : env.concluded fuel [.call c] args m = some (.error f, before₁) := by
      rw [concluded, start₁]
    cases results with
    | excused₁ excused _ => exact absurd excused (not_isLimit_of_concluded ended room failed)
  | ok u before₁ =>
    rw [start₁] at results
    have ran : env.concluded fuel [.call c] args m = env.run fuel ⟨[.call c], before₁⟩ := by
      rw [concluded, start₁]
    cases results with
    | ok _ machines' =>
      have configs : (Likeness.widening deeper).Configs ⟨[.call c], before₁⟩ ⟨[.call c], before₂⟩ :=
        ⟨.cons (.call c) .nil, machines'⟩
      refine configs.ample envs (fun _ => id) ?_ ?_ (ample before₁ start₁) within
      · exact fun e fn later starts => .inr (on.reserved clean start₁ later starts)
      · intro last f back steps halts excused
        -- what the run comes to is what the call comes back from
        obtain ⟨fuel', failed⟩ := exists_run_of_steps steps halts
        have answered := ended
        rw [invoke_eq_map, Option.map_eq_some_iff] at answered
        obtain ⟨x, concluded, -⟩ := answered
        have same := eq_of_run (ran ▸ concluded) failed
        exact not_isLimit_of_concluded ended room (same ▸ concluded) excused

end

/-- A call that uses the native library only and does not fail for want of room goes on as it did if
lambdas may hold more values on the stack and more of them may run inside each other: it has the same
result and leaves the same heap, globals, stack and output. Or else the capacity, which sufficed before,
does not suffice for what some lambda may now hold on the stack, and the call is aborted. -/
theorem invoke_widen {env : Env} {s : Store} {d capacity fuel : Nat} {c : Callable} {args : List Value}
    {m m' : Machine} {result : Except Failure (Array Value)} (idle : m.Idle)
    (on : env.OnLibrary c args m) (wider : env.store.Widens s) (deeper : m.stack.maxDepth ≤ d)
    (ended : env.invokeWithin capacity fuel c args m = some (.done (result, m')))
    (room : ∀ f, result = .error f → f.fault.isLimit = false) :
    (∃ k, { env with store := s }.invokeWithin capacity fuel c args (m.withMaxDepth d) =
      some (.done (result, { m'.withMaxDepth d with keeper := k }))) ∨
    ({ env with store := s }.invokeWithin capacity fuel c args (m.withMaxDepth d) = some .aborted ∧
      ∃ l height, height + (env.store.lambda l).maxStack ≤ capacity ∧
        capacity < height + (s.lambda l).maxStack) := by
  obtain ⟨ended, ample⟩ := invoke_of_invokeWithin ended
  obtain ⟨k, same⟩ := exists_invoke_widen idle on wider deeper ended room
  by_cases ample' : { env with store := s }.AmpleFor capacity c args (m.withMaxDepth d)
  · exact .inl ⟨k, (invokeWithin_of_invoke same).1 ample'⟩
  refine .inr ⟨(invokeWithin_of_invoke same).2 ample', ?_⟩
  by_contra within
  refine ample' (ampleFor_widen idle on wider deeper ended room ample ?_)
  rintro ⟨l, height, _, ⟨n, rfl, rfl⟩, inside, beyond⟩
  exact within ⟨l, _, inside, beyond⟩

/-- The code of `answering` with more room for the lambda that leaves two values. -/
def roomyAnswering : Store :=
  { answering.store with
    lambdas :=
      #[{ code := ⟨0⟩, maxStack := 7, params := 0, vars := 0 },
        { code := ⟨1⟩, maxStack := 0, params := 1, vars := 1 }] }

/-- The lambda leaves its two values also where it may hold seven and three lambdas may run inside each
other, as it did where one may run and holds no more than those two, if the capacity suffices for seven. -/
theorem invoke_widen_answering :
    let m : Machine := .new { maxCallDepth := 1 }
    ∃ values m' k,
      answering.invokeWithin 7 9 (.function 5 ⟨0⟩ none) [] m = some (.done (.ok values, m')) ∧
      values.size = 2 ∧
      { answering with store := roomyAnswering }.invokeWithin 7 9 (.function 5 ⟨0⟩ none) []
          (m.withMaxDepth 3) =
        some (.done (.ok values, { m'.withMaxDepth 3 with keeper := k })) := by
  intro m
  obtain ⟨values, m', ran, two⟩ := exists_of_any_done (p := (·.size = 2))
    (x := answering.invokeWithin 7 9 (.function 5 ⟨0⟩ none) [] m) (by decide +kernel)
  have wider : answering.store.Widens roomyAnswering :=
    { programs := rfl
      records := rfl
      size_lambdas := rfl
      lambda := by
        rintro ⟨_ | _ | l⟩
        · exact ⟨7, rfl, by decide⟩
        · exact ⟨0, rfl, by decide⟩
        · exact ⟨0, rfl, Nat.le_refl 0⟩ }
  have deeper : m.stack.maxDepth ≤ 3 := by decide
  have room : ∀ f : Failure, Except.ok values = .error f → f.fault.isLimit = false := by
    intro f failed
    cases failed
  obtain ⟨k, same⟩ | ⟨aborted, -⟩ :=
    invoke_widen (.new _) (onLibrary_answering _) wider deeper ran room
  · exact ⟨values, m', k, ran, of_decide_eq_true two, same⟩
  · obtain ⟨_, _, done, -⟩ := exists_of_any_done (p := fun _ => true)
      (x := { answering with store := roomyAnswering }.invokeWithin 7 9 (.function 5 ⟨0⟩ none) []
        (m.withMaxDepth 3)) (by decide +kernel)
    rw [aborted] at done
    cases done

end Env

end PlotMachine
