import PlotMachine.Machine.Capacity
import PlotMachine.Proofs.Likeness.Host

/-!
# Runs and the capacity

A run for which the capacity suffices wherever it gets to (`Env.Ample`) is the same run as if there were
no limit to the capacity, and any other run that would end is aborted on the way
(`Env.runWithin_of_run`). The same holds of calls from the host (`Env.invokeWithin_of_invoke`).
-/

namespace PlotMachine

namespace Env

variable {env : Env} {capacity fuel : Nat} {c c' : Config} {x : Except Failure Unit × Machine}

/-- The capacity suffices for every step of a run. -/
def Ample (env : Env) (capacity : Nat) (c : Config) : Prop :=
  ∀ c', env.Steps c c' → env.fits capacity c' = true

namespace Ample

/-- What suffices for a run suffices for what remains of it. -/
theorem step (ample : env.Ample capacity c) (next : env.step c = .running c') :
    env.Ample capacity c' :=
  fun c'' later => ample c'' (.head next later)

/-- What suffices for the first step and for what comes after it suffices for a run. -/
theorem of_step (first : env.fits capacity c = true)
    (later : ∀ c', env.step c = .running c' → env.Ample capacity c') : env.Ample capacity c := by
  intro c'' steps
  rcases Relation.ReflTransGen.cases_head steps with rfl | ⟨c', next, rest⟩
  · exact first
  · exact later c' next c'' rest

end Ample

/-- Goes on after a step, as far as the fuel lasts and the capacity suffices. -/
def resumeWithin (env : Env) (capacity fuel : Nat) :
    Status → Option (Attempt (Except Failure Unit × Machine))
  | .running c => env.runWithin capacity fuel c
  | .halted outcome m => some (.done (outcome, m))

/-- A run goes on after a step for which the capacity suffices. -/
theorem runWithin_succ (fits : env.fits capacity c = true) :
    env.runWithin capacity (fuel + 1) c = env.resumeWithin capacity fuel (env.step c) := by
  rw [runWithin, stepWithin, if_pos fits]
  cases env.step c <;> rfl

/-- A run is aborted at a step for which the capacity does not suffice. -/
theorem runWithin_of_not_fits (short : ¬ env.fits capacity c = true) :
    env.runWithin capacity (fuel + 1) c = some .aborted := by
  rw [runWithin, stepWithin, if_neg short]

/-- A run that ends does so within the capacity if that is ample, and is aborted if it is not. -/
theorem runWithin_of_run (ended : env.run fuel c = some x) :
    (env.Ample capacity c → env.runWithin capacity fuel c = some (.done x)) ∧
      (¬ env.Ample capacity c → env.runWithin capacity fuel c = some .aborted) := by
  induction fuel generalizing c with
  | zero => cases ended
  | succ fuel ih =>
    by_cases fits : env.fits capacity c = true
    · rw [runWithin_succ fits]
      rw [run_succ] at ended
      cases next : env.step c with
      | halted outcome m =>
        rw [next] at ended
        cases ended
        have ample : env.Ample capacity c := .of_step fits fun c' step => by
          rw [next] at step
          cases step
        exact ⟨fun _ => rfl, fun scarce => absurd ample scarce⟩
      | running c' =>
        rw [next] at ended
        obtain ⟨done, aborted⟩ := ih ended
        refine ⟨fun ample => done (ample.step next), fun scarce => aborted fun ample => scarce ?_⟩
        refine .of_step fits fun c'' step => ?_
        rw [next] at step
        cases step
        exact ample
    · rw [runWithin_of_not_fits fits]
      exact ⟨fun ample => absurd (ample c (.refl c)) fits, fun _ => rfl⟩

/-- A run that ends within the capacity ends without it in the same way, and the capacity was ample. -/
theorem run_of_runWithin (ended : env.runWithin capacity fuel c = some (.done x)) :
    env.run fuel c = some x ∧ env.Ample capacity c := by
  induction fuel generalizing c with
  | zero => cases ended
  | succ fuel ih =>
    by_cases fits : env.fits capacity c = true
    · rw [runWithin_succ fits] at ended
      rw [run_succ]
      cases next : env.step c with
      | halted outcome m =>
        rw [next] at ended
        cases ended
        refine ⟨rfl, .of_step fits fun c' step => ?_⟩
        rw [next] at step
        cases step
      | running c' =>
        rw [next] at ended
        obtain ⟨same, ample⟩ := ih ended
        refine ⟨same, .of_step fits fun c'' step => ?_⟩
        rw [next] at step
        cases step
        exact ample
    · rw [runWithin_of_not_fits fits] at ended
      cases ended

/-! ## Calls from the host -/

variable {callee : Callable} {args : List Value} {m : Machine}
  {answer : Except Failure (Array Value) × Machine}

/-- The capacity suffices for every step of a call from the host. -/
def AmpleFor (env : Env) (capacity : Nat) (callee : Callable) (args : List Value) (m : Machine) :
    Prop :=
  ∀ before, started args m = .ok () before → env.Ample capacity ⟨[.call callee], before⟩

/-- A call answers what comes of its tasks. -/
theorem invoke_eq_map (env : Env) (fuel : Nat) (callee : Callable) (args : List Value) (m : Machine) :
    env.invoke fuel callee args m = (env.concluded fuel [.call callee] args m).map fun ended =>
      handedOver m.stack.height (restored m.stack ended) := by
  rw [invoke, guarded, Option.map_map]
  rfl

/-- The tasks of a call that end do so within the capacity if that is ample, and are aborted if it is
not. -/
theorem concludedWithin_of_concluded (ended : env.concluded fuel [.call callee] args m = some x) :
    (env.AmpleFor capacity callee args m →
        env.concludedWithin capacity fuel [.call callee] args m = some (.done x)) ∧
      (¬ env.AmpleFor capacity callee args m →
        env.concludedWithin capacity fuel [.call callee] args m = some .aborted) := by
  unfold concluded at ended
  unfold concludedWithin AmpleFor
  cases start : started args m with
  | ok _ before =>
    rw [start] at ended
    obtain ⟨done, aborted⟩ := runWithin_of_run ended
    refine ⟨fun ample => done (ample before rfl), fun scarce => aborted fun ample => scarce ?_⟩
    rintro _ ⟨⟩
    exact ample
  | error f before =>
    rw [start] at ended
    cases ended
    exact ⟨fun _ => rfl, fun scarce => absurd nofun scarce⟩

/-- A call that comes back does so within the capacity if that is ample, and is aborted if it is not. -/
theorem invokeWithin_of_invoke (ended : env.invoke fuel callee args m = some answer) :
    (env.AmpleFor capacity callee args m →
        env.invokeWithin capacity fuel callee args m = some (.done answer)) ∧
      (¬ env.AmpleFor capacity callee args m →
        env.invokeWithin capacity fuel callee args m = some .aborted) := by
  rw [invoke_eq_map, Option.map_eq_some_iff] at ended
  obtain ⟨x, ended, rfl⟩ := ended
  obtain ⟨done, aborted⟩ := concludedWithin_of_concluded ended
  unfold invokeWithin
  refine ⟨fun ample => ?_, fun scarce => ?_⟩
  · rw [done ample]
    rfl
  · rw [aborted scarce]
    rfl

/-- A call that comes back within the capacity comes back without it with the same answer, and the
capacity was ample. -/
theorem invoke_of_invokeWithin
    (ended : env.invokeWithin capacity fuel callee args m = some (.done answer)) :
    env.invoke fuel callee args m = some answer ∧ env.AmpleFor capacity callee args m := by
  unfold invokeWithin at ended
  rw [Option.map_eq_some_iff] at ended
  obtain ⟨x | _, ended, same⟩ := ended
  swap
  · cases same
  cases same
  rw [invoke_eq_map]
  unfold concludedWithin at ended
  unfold concluded AmpleFor
  cases start : started args m with
  | ok _ before =>
    rw [start] at ended
    obtain ⟨ran, ample⟩ := run_of_runWithin ended
    refine ⟨?_, ?_⟩
    · dsimp only
      rw [ran]
      rfl
    · rintro _ ⟨⟩
      exact ample
  | error f before =>
    rw [start] at ended
    cases ended
    exact ⟨rfl, nofun⟩

/-- The answer of a call that succeeds within the capacity, as a computation shows it. -/
theorem exists_of_any_done {ε α : Type} {x : Option (Attempt (Except ε α × Machine))} {p : α → Bool}
    (found : ((x.bind (·.done?)).any fun ended => ended.1.toOption.any p) = true) :
    ∃ a m', x = some (.done (.ok a, m')) ∧ p a = true := by
  obtain ⟨a, m', same, holds⟩ := exists_of_any found
  obtain ⟨attempt, rfl, done⟩ := Option.bind_eq_some_iff.1 same
  cases attempt with
  | done ended =>
    cases done
    exact ⟨a, m', rfl, holds⟩
  | aborted => cases done

end Env

end PlotMachine
