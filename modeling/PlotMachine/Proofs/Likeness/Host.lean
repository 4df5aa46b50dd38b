import PlotMachine.Proofs.HostCalls
import PlotMachine.Proofs.Likeness.Run

/-!
# Calls from the host on machines that are alike

A call from the host puts the stack out of reach, pushes the arguments and runs. If the machines are
alike then, the call ends in the same way (`Likeness.Envs.concluded`), so the host gets the same result
and finds the same heap, globals and output (`Likeness.Envs.invoke`).
-/

namespace PlotMachine

namespace Machine

/-- A machine with all of its stack out of reach. -/
def closed (m : Machine) : Machine := { m with stack := m.stack.raiseFloor }

/-- Two machines differ in nothing but the stack and the account of frames. -/
structure Agree (m₁ m₂ : Machine) : Prop where
  heap : m₂.heap = m₁.heap
  globals : m₂.globals = m₁.globals
  interrupt : m₂.interrupt = m₁.interrupt
  output : m₂.output = m₁.output

theorem Agree.eq {m₁ m₂ : Machine} (agree : m₁.Agree m₂) :
    m₂ = { m₁ with stack := m₂.stack, keeper := m₂.keeper } := by
  rw [← agree.heap, ← agree.globals, ← agree.interrupt, ← agree.output]

/-- Machines that are alike agree. -/
theorem Agree.of_machines {L : Likeness} {m₁ m₂ : Machine} (machines : L.Machines m₁ m₂) :
    m₁.Agree m₂ :=
  ⟨machines.heap, machines.globals, machines.interrupt, machines.output⟩

end Machine

/-- A call hands over what its tasks left above the stack there was. -/
theorem Env.invoke_eq (env : Env) (fuel : Nat) (c : Callable) (args : List Value) (m : Machine) :
    env.invoke fuel c args m = (env.concluded fuel [.call c] args m).map fun
      | (.ok (), back) =>
        (.ok (back.stack.above m.stack.height),
          { back with stack := { back.stack.truncate m.stack.height with floor := m.stack.floor } })
      | (.error f, back) =>
        let cut := back.cutStack m.stack.height
        (.error f, { cut with stack := { cut.stack with
          floor := m.stack.floor, ceiling := m.stack.ceiling, depth := m.stack.depth } }) := by
  rw [invoke, guarded_eq, Option.map_map]
  apply congrArg (Option.map · _)
  funext ended
  obtain ⟨outcome, back⟩ := ended
  cases outcome with
  | ok u => rfl
  | error f => rfl

namespace Likeness

variable {L : Likeness} {env₁ env₂ : Env} {m₁ m₂ : Machine}

/-- Arguments are pushed in the same way. -/
theorem steady_pushAll (args : List Value) :
    Exec.Steady L (args.foldlM (fun (_ : Unit) v => Exec.push v) ()) := by
  induction args with
  | nil => exact Exec.steady_pure ()
  | cons v rest ih =>
    rw [List.foldlM_cons]
    exact (Exec.steady_push v).bind fun _ => ih

/-- Machines that are alike are alike with their stacks out of reach. -/
theorem Machines.closed (machines : L.Machines m₁ m₂) : L.Machines m₁.closed m₂.closed :=
  machines.withStack machines.stack.raiseFloor

variable (envs : L.Envs env₁ env₂) (machines : L.Machines m₁.closed m₂.closed)

include envs machines

/-- The tasks of a call from the host end in the same way. -/
theorem Envs.concluded {t : Task} (task : L.Tasks t t) (args : List Value) (fuel : Nat)
    (unaware : ∀ before c fn, Env.started args m₁ = .ok () before →
      env₁.Steps ⟨[t], before⟩ c → c.Starts env₁ fn → L.Unaware (env₁.routine fn)) :
    L.Ends L.Machines (env₁.concluded fuel [t] args m₁) (env₂.concluded fuel [t] args m₂) := by
  have results : L.Results Eq (Env.started args m₁) (Env.started args m₂) :=
    steady_pushAll args m₁.closed m₂.closed machines
  unfold Env.concluded
  generalize start₁ : Env.started args m₁ = result₁ at results unaware
  generalize Env.started args m₂ = result₂ at results
  cases results with
  | ok _ started =>
    have configs : L.Configs ⟨[t], _⟩ ⟨[t], _⟩ := ⟨.cons task .nil, started⟩
    exact configs.run envs fun c fn => unaware _ c fn rfl
  | error same started => exact .failed same started
  | excused₁ excused _ => exact .excused₁ excused _
  | excused₂ excused _ => exact .excused₂ excused _

/-- A call from the host has the same result and leaves machines that agree. -/
theorem Envs.invoke (c : Callable) (args : List Value) (fuel : Nat)
    (unaware : ∀ before d fn, Env.started args m₁ = .ok () before →
      env₁.Steps ⟨[.call c], before⟩ d → d.Starts env₁ fn → L.Unaware (env₁.routine fn)) :
    L.Ends Machine.Agree (env₁.invoke fuel c args m₁) (env₂.invoke fuel c args m₂) := by
  have ends := envs.concluded machines (.call c) args fuel unaware
  have heights : L.Heights m₁.stack.height m₂.stack.height := machines.stack.height
  rw [Env.invoke_eq, Env.invoke_eq]
  generalize env₁.concluded fuel [.call c] args m₁ = end₁,
    env₂.concluded fuel [.call c] args m₂ = end₂ at ends
  cases ends with
  | unfinished => exact .unfinished
  | done _ backs =>
    simp only [Option.map_some, backs.stack.above heights]
    exact .done _ ⟨backs.heap, backs.globals, backs.interrupt, backs.output⟩
  | failed same backs =>
    have agree := Machine.Agree.of_machines (backs.cutStack heights)
    exact .failed same ⟨agree.heap, agree.globals, agree.interrupt, agree.output⟩
  | excused₁ excused _ => exact .excused₁ excused _
  | excused₂ excused _ => exact .excused₂ excused _

end Likeness

end PlotMachine
