import PlotMachine.Proofs.Termination

/-!
# Interrupted runs

The host can stop a run at any point of it by raising the flag that it installed. The flag is looked at
by jumps and calls only; an instance is made, a thunk hands over its argument and a lambda is entered
without a look at it. It is enough. A jump or a call that is reached on a stopped machine fails
(`Env.step_of_diverts`), so what runs from then on is the code that the activations have ahead of them,
whatever a call that was already made enters, and the initialisers of instances (`Env.StemsFrom`).

So the run ends where natives call nothing, which is a case of `Env.ends_of_quiet`: nothing leads back.
-/

namespace PlotMachine

/-- An instruction that may take a run elsewhere, by a jump or by a call. -/
def Instr.diverts : Instr → Bool
  | .jump .. | .popCall => true
  | _ => false

/-- The lambda that a call enters, once the thunks have handed over their arguments. -/
def Callable.target? : Callable → Option LambdaRef
  | .function _ l _ => some l
  | .thunk _ func _ => func.target?
  | _ => none

namespace Env

variable {env : Env} {c d : Config}

/-- The instruction that is to be carried out at a point of a run. -/
def current? (env : Env) (c : Config) : Option Instr :=
  match c.tasks with
  | .body a :: _ => (env.store.body a.lambda)[a.offset]?
  | _ => none

/-- What can happen to a run: it makes a step, or the host sets the flag. -/
inductive Drives (env : Env) : Config → Config → Prop
  | step {c c' : Config} (next : env.step c = .running c') : Drives env c c'
  | host (c : Config) (interrupt : Interrupt) :
      Drives env c { c with machine := { c.machine with interrupt } }

/-- The second point of a run comes after the first one, if the host sets the flag now and then. -/
def Driven (env : Env) : Config → Config → Prop := Relation.ReflTransGen env.Drives

/-- The instruction to be carried out is one of the innermost activation. -/
theorem exists_of_current {i : Instr} (current : env.current? c = some i) :
    ∃ a rest, c.tasks = .body a :: rest ∧ (env.store.body a.lambda)[a.offset]? = some i := by
  unfold current? at current
  split at current
  · next a rest here => exact ⟨a, rest, here, current⟩
  · cases current

/-- A jump or a call fails on a machine that is stopped. -/
theorem step_of_diverts {i : Instr} (stopped : c.machine.stopped = true)
    (current : env.current? c = some i) (diverts : i.diverts = true) :
    env.step c = env.unwind Fault.interrupted c.tasks c.machine := by
  obtain ⟨a, rest, here, found⟩ := exists_of_current current
  have interrupted : Exec.perform (env.store.lambda a.lambda).code a.frame i c.machine =
      .error Fault.interrupted c.machine := by
    cases i with
    | jump condition target => exact Exec.perform_jump_of_stopped stopped _ a.frame condition target
    | popCall => exact Exec.perform_popCall_of_stopped stopped _ a.frame
    | _ => cases diverts
  simp only [step, here, found, proceed, instruction, Bind.bind, EStateM.bind, interrupted]

/-! ## What still runs on a stopped machine -/

/-- Where a task comes from that is there when the machine has been stopped since `c`. An activation
was there at `c`, at the same place of its code or an earlier one, or its lambda is entered by a call
that was made by then, or it is that of an initialiser. A call was made by then, up to thunks. -/
def StemsFrom (env : Env) (c : Config) : Task → Prop
  | .call callee => ∃ made, .call made ∈ c.tasks ∧ callee.target? = made.target?
  | .body b | .waiting b _ =>
    (∃ t ∈ c.tasks, ∃ a, t.activation? = some a ∧ b.lambda = a.lambda ∧ b.frame = a.frame ∧
      a.offset ≤ b.offset) ∨
    (∃ made, .call made ∈ c.tasks ∧ made.target? = some b.lambda) ∨
    ∃ r, b.lambda = (env.store.record r).init
  | _ => True

/-- What is there when the machine is stopped stems from itself. -/
theorem stems_self (env : Env) (c : Config) : ∀ t ∈ c.tasks, env.StemsFrom c t := by
  intro t inside
  cases t with
  | call callee => exact ⟨callee, inside, rfl⟩
  | body b => exact .inl ⟨_, inside, b, rfl, rfl, rfl, Nat.le_refl _⟩
  | waiting b callee => exact .inl ⟨_, inside, b, rfl, rfl, rfl, Nat.le_refl _⟩
  | _ => trivial

/-- An activation stems from where it was earlier in its code. -/
theorem StemsFrom.later {b : Activation} {offset : Nat} (stems : env.StemsFrom c (.body b))
    (le : b.offset ≤ offset) : env.StemsFrom c (.body { b with offset }) := by
  obtain ⟨t, inside, a, belongs, lambda, frame, le'⟩ | other := stems
  · exact .inl ⟨t, inside, a, belongs, lambda, frame, Nat.le_trans le' le⟩
  · exact .inr other

/-- A step on a stopped machine brings up nothing that stems from elsewhere. -/
theorem stems_of_goes {d' : Config} (stopped : d.machine.stopped = true)
    (quiet : ∀ t ∈ d.tasks, t.Quiet) (stems : ∀ t ∈ d.tasks, env.StemsFrom c t)
    (goes : env.Goes d d') : ∀ t ∈ d'.tasks, env.StemsFrom c t := by
  cases goes with
  | unwrap =>
    obtain ⟨⟨made, inside, same⟩, below⟩ := List.forall_mem_cons.1 stems
    exact List.forall_mem_cons.2 ⟨⟨made, inside, same⟩, below⟩
  | native => exact List.forall_mem_cons.2 ⟨trivial, (List.forall_mem_cons.1 stems).2⟩
  | function enters =>
    obtain ⟨⟨made, inside, same⟩, below⟩ := List.forall_mem_cons.1 stems
    rw [← enters] at same
    exact List.forall_mem_cons.2 ⟨.inr (.inl ⟨made, inside, same.symm⟩), below⟩
  | @construct r i base rest a m m' enters =>
    have below := (List.forall_mem_cons.1 stems).2
    have waits : env.StemsFrom c (.constructed i base) := trivial
    exact List.forall_mem_cons.2 ⟨.inr (.inr ⟨r, enters⟩), List.forall_mem_cons.2 ⟨waits, below⟩⟩
  | constructed | done | leave => exact (List.forall_mem_cons.1 stems).2
  | calling calls => exact absurd (List.forall_mem_cons.1 quiet).1 calls
  | handled => exact (List.forall_mem_cons.1 quiet).1.elim
  | next =>
    obtain ⟨here, below⟩ := List.forall_mem_cons.1 stems
    exact List.forall_mem_cons.2 ⟨here.later (Nat.le_succ _), below⟩
  | jump _ free =>
    rw [free] at stopped
    cases stopped
  | @wait a i t callee rest m m' found asks =>
    obtain ⟨here, below⟩ := List.forall_mem_cons.1 stems
    have waits : env.StemsFrom c (.waiting a callee) := here
    have asked : env.StemsFrom c t := by
      cases asks with
      | call free =>
        rw [free] at stopped
        cases stopped
      | _ => trivial
    exact List.forall_mem_cons.2 ⟨asked, List.forall_mem_cons.2 ⟨waits, below⟩⟩
  | @resume a callee rest m m' =>
    obtain ⟨here, below⟩ := List.forall_mem_cons.1 stems
    have waited : env.StemsFrom c (.body a) := here
    exact List.forall_mem_cons.2 ⟨waited.later (Nat.le_succ _), below⟩

/-- All that runs on a stopped machine stems from what was there when it was stopped. -/
theorem stems_of_steps (stopped : c.machine.stopped = true) (calm : env.Calm c)
    (quiet : ∀ t ∈ c.tasks, t.Quiet) (later : env.Steps c d) :
    ∀ t ∈ d.tasks, env.StemsFrom c t := by
  induction later with
  | refl => exact stems_self env c
  | @tail d d' before next ih =>
    have quiet' := quiet_of_steps calm quiet before
    exact stems_of_goes (stopped_of_steps stopped before) quiet' ih (goes_of_step quiet' next)

/-! ## Runs that the host drives -/

/-- The natives of a call that uses the library only call nothing, whatever the host does to the flag
in the meantime, and no task handles failures. -/
theorem calm_of_driven {callee : Callable} {args : List Value} {m before : Machine}
    (idle : m.Idle) (on : env.OnLibrary callee args m) (start : started args m = .ok () before)
    (driven : env.Driven ⟨[.call callee], before⟩ c) : env.Calm c ∧ ∀ t ∈ c.tasks, t.Quiet := by
  have entry : (Contract.library m.stack.values m.globals).Entry env (.call callee) :=
    Contract.entry_call (Contract.calls_library _ _ on.callee)
  have sound₀ := on.sound_started idle.ready.parked entry start
  suffices held : (Contract.library m.stack.values m.globals).Sound env m.stack.maxDepth
      m.stack.raiseFloor.limits c.tasks c.machine ∧ ∀ t ∈ c.tasks, t.Quiet from
    ⟨calm_of_sound on.code held.1, held.2⟩
  induction driven with
  | refl => exact ⟨sound₀, List.forall_mem_singleton.2 trivial⟩
  | @tail d d' _ drives ih =>
    obtain ⟨sound, quiet⟩ := ih
    cases drives with
    | step next =>
      have covers := Contract.covers_library m.stack.values m.globals on.code
      have calm := calm_of_sound on.code sound
      have goes := goes_of_step quiet next
      exact ⟨sound.steps covers (.head next (.refl _)), quiet_of_goes calm quiet goes⟩
    | host interrupt =>
      have flagged : (Contract.library m.stack.values m.globals).Rests { d.machine with interrupt } :=
        sound.toRests.congr rfl rfl rfl sound.pool
      exact ⟨⟨flagged, sound.floor_le, sound.maxDepth_eq, sound.takes, sound.nest⟩, quiet⟩

/-- A run has the outcome that it halts with. -/
theorem outcome_of_steps {fuel : Nat} {outcome outcome' : Except Failure Unit} {m m' : Machine}
    (ended : env.run fuel c = some (outcome, m)) (later : env.Steps c d)
    (halts : env.step d = .halted outcome' m') : outcome = outcome' := by
  induction later using Relation.ReflTransGen.head_induction_on generalizing fuel with
  | refl =>
    cases fuel with
    | zero => cases ended
    | succ fuel =>
      rw [run_succ, halts] at ended
      cases ended
      rfl
  | head next _ ih =>
    cases fuel with
    | zero => cases ended
    | succ fuel =>
      rw [run_succ, next] at ended
      exact ih ended

/-- Once the host has stopped the machine, at whatever point of a run, it stays stopped whatever the code
does, and every jump and every call that is reached fails. In a call that uses the native library only,
nothing runs that does not stem from what was there when the machine was stopped, and the run ends: with
the failure that an interrupted instruction raises, unless no jump and no call is reached. -/
theorem interrupted_run (stopped : c.machine.stopped = true) :
    (∀ d, env.Steps c d → d.machine.stopped = true ∧
      ∀ i, env.current? d = some i → i.diverts = true →
        env.step d = env.unwind Fault.interrupted d.tasks d.machine) ∧
    ∀ callee args m before, m.Idle → env.OnLibrary callee args m →
      started args m = .ok () before → env.Driven ⟨[.call callee], before⟩ c →
        (∀ d, env.Steps c d → ∀ t ∈ d.tasks, env.StemsFrom c t) ∧
        ∃ fuel outcome m', (∀ fuel', fuel ≤ fuel' → env.run fuel' c = some (outcome, m')) ∧
          ((∃ f, outcome = .error f ∧ f.fault = .interrupted) ∨
            ∀ d i, env.Steps c d → env.current? d = some i → i.diverts = false) := by
  have fails : ∀ d, env.Steps c d → ∀ i, env.current? d = some i → i.diverts = true →
      env.step d = env.unwind Fault.interrupted d.tasks d.machine :=
    fun d later i => step_of_diverts (stopped_of_steps stopped later)
  refine ⟨fun d later => ⟨stopped_of_steps stopped later, fails d later⟩, ?_⟩
  intro callee args m before idle on start driven
  obtain ⟨calm, quiet⟩ := calm_of_driven idle on start driven
  refine ⟨fun d later => stems_of_steps stopped calm quiet later, ?_⟩
  obtain ⟨fuel, ⟨outcome, m'⟩, ended⟩ := (ends_of_quiet quiet (.inr stopped) calm).exists_run
  refine ⟨fuel, outcome, m', ended, ?_⟩
  by_cases reached : ∃ d i, env.Steps c d ∧ env.current? d = some i ∧ i.diverts = true
  · obtain ⟨d, i, later, current, diverts⟩ := reached
    have unhandled : ∀ taken next, Task.handler taken next ∉ d.tasks :=
      fun taken next inside => quiet_of_steps calm quiet later _ inside
    obtain ⟨f, m'', same, halts⟩ := Likeness.unwind_eq_halted (P := (· = Fault.interrupted))
      (f := Fault.interrupted) env d.machine unhandled rfl
    rw [← fails d later i current diverts] at halts
    exact .inl ⟨f, outcome_of_steps (ended fuel (Nat.le_refl fuel)) later halts, same⟩
  · refine .inr fun d i later current => ?_
    by_contra diverts
    exact reached ⟨d, i, later, current, eq_true_of_ne_false diverts⟩

/-- Code with one lambda, which jumps back to its start. -/
def looping : Env where
  store :=
    { programs := #[some #[.jump .always ⟨some ⟨0⟩, 0⟩]]
      lambdas := #[{ code := ⟨0⟩, maxStack := 0, params := 0, vars := 0 }] }
  host _ := .done ()

/-- A loop that would go on for ever ends once the host has raised the flag, which it installed. -/
theorem interrupted_run_looping :
    let f : Callable := .function 0 ⟨0⟩ none
    ∃ before entered, started [] (.new {}) = .ok () before ∧
      looping.step ⟨[.call f], before⟩ = .running entered ∧
      ∃ fuel failure m', failure.fault = .interrupted ∧ ∀ fuel', fuel ≤ fuel' →
        looping.run fuel' { entered with machine :=
          { entered.machine with interrupt := { installed := true, raised := true } } } =
            some (.error failure, m') := by
  intro f
  have on : looping.OnLibrary f [] (.new {}) := by
    refine onLibrary_new {} ?_ trivial nofun
    rintro ⟨_ | p⟩ i inside
    · obtain rfl : i = .jump .always ⟨some ⟨0⟩, 0⟩ := by
        simpa [looping, Store.code, Store.code?] using inside
      trivial
    · simp [looping, Store.code, Store.code?] at inside
  obtain ⟨before, entered, start, next, current⟩ : ∃ before entered,
      started [] (.new {}) = .ok () before ∧ looping.step ⟨[.call f], before⟩ = .running entered ∧
        looping.current? entered = some (.jump .always ⟨some ⟨0⟩, 0⟩) := ⟨_, _, rfl, rfl, rfl⟩
  refine ⟨before, entered, start, next, ?_⟩
  let raised : Interrupt := { installed := true, raised := true }
  let c : Config := { entered with machine := { entered.machine with interrupt := raised } }
  have driven : looping.Driven ⟨[.call f], before⟩ c :=
    .tail (.single (.step next)) (.host entered raised)
  obtain ⟨-, ends⟩ := @interrupted_run looping c rfl
  obtain ⟨-, fuel, outcome, m', ended, ⟨failure, rfl, same⟩ | straight⟩ :=
    ends f [] (.new {}) before (.new _) on start driven
  · exact ⟨fuel, failure, m', same, ended⟩
  · have jumps := straight c _ (.refl c) current
    cases jumps

end Env

end PlotMachine
