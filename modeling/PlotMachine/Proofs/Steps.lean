import Mathlib.Logic.Relation
import PlotMachine.Machine.Run

/-!
# Runs as sequences of steps

`Env.run` makes steps while its fuel lasts. `Env.Steps` says that one point of a run comes after
another, however many steps that takes. A run that ends has gone through a sequence of steps to a
point from which one more step halts (`steps_of_run`), so what holds wherever `Env.Steps` leads
holds at every point of a run, also of one that never ends.
-/

namespace PlotMachine

namespace Env

/-- The second point of a run comes after the first one. -/
def Steps (env : Env) : Config → Config → Prop :=
  Relation.ReflTransGen fun c c' => env.step c = .running c'

namespace Steps

/-- A point of a run comes after itself. -/
theorem refl {env : Env} (c : Config) : env.Steps c c := Relation.ReflTransGen.refl

/-- A step leads to a later point. -/
theorem head {env : Env} {c c' c'' : Config} (first : env.step c = .running c')
    (rest : env.Steps c' c'') : env.Steps c c'' :=
  Relation.ReflTransGen.head first rest

end Steps

/-- A run that ends goes through steps to a point from which one more step halts. -/
theorem steps_of_run {env : Env} {fuel : Nat} {c : Config} {outcome : Except Failure Unit}
    {m : Machine} (ended : env.run fuel c = some (outcome, m)) :
    ∃ last, env.Steps c last ∧ env.step last = .halted outcome m := by
  induction fuel generalizing c with
  | zero => cases ended
  | succ fuel ih =>
    rw [run] at ended
    split at ended
    · next c' first =>
      obtain ⟨last, steps, halts⟩ := ih ended
      exact ⟨last, .head first steps, halts⟩
    · next outcome' m' halts =>
      cases ended
      exact ⟨c, .refl c, halts⟩

/-- Goes on after a step, if the fuel lasts. -/
def resume (env : Env) (fuel : Nat) : Status → Option (Except Failure Unit × Machine)
  | .running c => env.run fuel c
  | .halted outcome m => some (outcome, m)

theorem run_succ (env : Env) (fuel : Nat) (c : Config) :
    env.run (fuel + 1) c = env.resume fuel (env.step c) := by
  rw [run]
  cases env.step c <;> rfl

/-- More fuel changes nothing about a run that ended. -/
theorem run_of_le {env : Env} {c : Config} {fuel fuel' : Nat} {x : Except Failure Unit × Machine}
    (ended : env.run fuel c = some x) (le : fuel ≤ fuel') : env.run fuel' c = some x := by
  induction fuel generalizing c fuel' with
  | zero => cases ended
  | succ fuel ih =>
    obtain ⟨more, rfl⟩ := Nat.exists_eq_add_of_le' le
    rw [← Nat.add_assoc, run_succ]
    rw [run_succ] at ended
    cases next : env.step c with
    | halted outcome m =>
      rw [next] at ended
      exact ended
    | running c' =>
      rw [next] at ended
      exact ih ended (Nat.le_add_left fuel more)

/-- A run comes to the end that its steps lead to. -/
theorem exists_run_of_steps {env : Env} {c last : Config} {outcome : Except Failure Unit} {m : Machine}
    (steps : env.Steps c last) (halts : env.step last = .halted outcome m) :
    ∃ fuel, env.run fuel c = some (outcome, m) := by
  induction steps using Relation.ReflTransGen.head_induction_on with
  | refl => exact ⟨1, by rw [run_succ, halts]; rfl⟩
  | head next _ ih =>
    obtain ⟨fuel, ended⟩ := ih
    exact ⟨fuel + 1, by rw [run_succ, next]; exact ended⟩

/-- A run has one end. -/
theorem eq_of_run {env : Env} {c : Config} {fuel fuel' : Nat} {x y : Except Failure Unit × Machine}
    (ended : env.run fuel c = some x) (ended' : env.run fuel' c = some y) : x = y := by
  have longer := run_of_le ended (Nat.le_max_left fuel fuel')
  have longer' := run_of_le ended' (Nat.le_max_right fuel fuel')
  exact Option.some.inj (longer.symm.trans longer')

/-! ## Calls

A call is made above the tasks that wait for it, and it is over when these are all that remain. -/

/-- The second point of a run comes after the first one, and in between there was always more to be
done than `rest`. -/
def Above (env : Env) (rest : List Task) : Config → Config → Prop :=
  Relation.ReflTransGen fun c c' =>
    (∃ t ts, c.tasks = t :: ts ++ rest) ∧ (∃ ts, c'.tasks = ts ++ rest) ∧ env.step c = .running c'

/-- All points of a run lie above nothing. -/
theorem Steps.above {env : Env} {c c' : Config} (steps : env.Steps c c') : env.Above [] c c' := by
  induction steps with
  | refl => exact .refl
  | @tail c c' _ last ih =>
    refine ih.tail ⟨?_, ⟨c'.tasks, (List.append_nil _).symm⟩, last⟩
    cases tasks : c.tasks with
    | nil =>
      rw [step, tasks] at last
      cases last
    | cons t ts => exact ⟨t, ts, (List.append_nil _).symm⟩

/-- A failure that is handled goes on with tasks that were waiting, less at least one of them. -/
theorem unwind_eq_running {env : Env} {f : Failure} {tasks : List Task} {m : Machine} {c : Config}
    (handled : env.unwind f tasks m = .running c) :
    ∃ passed taken next e below, tasks = passed ++ .handler taken next :: below ∧
      c.tasks = .native (next (.error e)) taken :: below := by
  induction tasks generalizing f m with
  | nil => cases handled
  | cons t rest ih =>
    cases t with
    | handler taken next =>
      cases handled
      exact ⟨[], taken, next, f, rest, rfl, rfl⟩
    | _ =>
      obtain ⟨passed, taken, next, e, below, split, tasks⟩ := ih handled
      exact ⟨_ :: passed, taken, next, e, below, congrArg (_ :: ·) split, tasks⟩

/-- A failure that is handled by one of the tasks below a call does not go on above them. -/
theorem not_above_of_unwind {env : Env} {f : Failure} {rest : List Task} {m : Machine} {c : Config}
    (handled : env.unwind f rest m = .running c) (ts : List Task) : c.tasks ≠ ts ++ rest := by
  obtain ⟨passed, taken, next, e, below, split, tasks⟩ := unwind_eq_running handled
  intro above
  rw [tasks, split] at above
  have length := congrArg List.length above
  simp only [List.length_append, List.length_cons] at length
  have nothing : ts = [] ∧ passed = [] := by
    constructor <;> apply List.eq_nil_of_length_eq_zero <;> omega
  rw [nothing.1, nothing.2] at above
  cases above

/-- A failure never ends a run as if there had been none. -/
theorem unwind_ne_ok (env : Env) (f : Failure) (tasks : List Task) (m m' : Machine) :
    env.unwind f tasks m ≠ .halted (.ok ()) m' := by
  induction tasks generalizing f m with
  | nil => rintro ⟨⟩
  | cons t rest ih =>
    cases t with
    | handler taken next => rintro ⟨⟩
    | _ => exact ih _ _

/-- A computation after which the tasks below are still there has not failed. -/
theorem ok_of_proceed {env : Env} {rest ts : List Task} {x : Exec (List Task)} {m : Machine}
    {c : Config} (next : env.proceed rest x m = .running c) (above : c.tasks = ts ++ rest) :
    x m = .ok c.tasks c.machine := by
  cases result : x m with
  | ok tasks m' =>
    rw [proceed, result] at next
    cases next
    rfl
  | error f m' =>
    rw [proceed, result] at next
    exact absurd above (not_above_of_unwind next ts)

end Env

end PlotMachine
