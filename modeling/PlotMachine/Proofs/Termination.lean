import PlotMachine.Proofs.Capacity
import PlotMachine.Proofs.Courses

/-!
# Runs that end

A run can go on for ever only by jumping back. Everything else it does uses something up: an instruction
is followed by a later one, a lambda is entered one level deeper and there are so many levels, a thunk
hands over to the callable inside it. Where no jump leads back, or none is carried out because the
machine is stopped, every run ends (`Env.ends_of_quiet`).

The callables that a run comes to call are made while it runs, so there is no bound to count down from.
What is shown instead is that a task comes back or fails for good above whatever lies below it
(`Env.ComesBack`): of an activation by the code it has left, of a call by the levels that remain
(`Env.settles_of_levels`) and, on one level, by the thunks to be undone. Failures end the run because no
task handles them: the natives are those that call nothing.

A call from the host then comes back with results or a failure, unless it asks for more than the capacity
on the way and is aborted there (`Env.invoke_ends`).
-/

namespace PlotMachine

/-- Every jump that leads anywhere leads to a later instruction. -/
def Store.JumpsForward (s : Store) : Prop :=
  ∀ (l : LambdaRef) (offset offset' : Nat) (condition : JumpCondition) (target : Label),
    (s.body l)[offset]? = some (.jump condition target) →
      target.offsetIn (s.lambda l).code = .ok offset' → offset < offset'

namespace Env

variable {env : Env} {c c' : Config} {t : Task} {tasks rest : List Task} {m m' : Machine}

/-! ## Ends -/

/-- A run ends, given enough fuel. -/
def Ends (env : Env) (s : Status) : Prop := ∃ fuel, (env.resume fuel s).isSome

theorem ends_halted (outcome : Except Failure Unit) (m : Machine) :
    env.Ends (.halted outcome m) := ⟨0, rfl⟩

/-- A run ends if it does after one more step. -/
theorem ends_running (later : env.Ends (env.step c)) : env.Ends (.running c) := by
  obtain ⟨fuel, ended⟩ := later
  exact ⟨fuel + 1, by rwa [resume, run_succ]⟩

/-- A run that ends has one outcome, whatever fuel it is given beyond what it needs. -/
theorem Ends.exists_run (ends : env.Ends (.running c)) :
    ∃ fuel outcome, ∀ fuel', fuel ≤ fuel' → env.run fuel' c = some outcome := by
  obtain ⟨fuel, ended⟩ := ends
  obtain ⟨outcome, ended⟩ := Option.isSome_iff_exists.1 ended
  exact ⟨fuel, outcome, fun fuel' le => run_of_le ended le⟩

/-- A failure that no task handles ends the run. -/
theorem ends_unwind (quiet : ∀ t ∈ tasks, t.Quiet) (f : Failure) (m : Machine) :
    env.Ends (env.unwind f tasks m) := by
  obtain ⟨_, halts⟩ := env.unwind_quiet quiet f m
  rw [halts]
  exact ends_halted _ _

/-! ## What every task comes to -/

/-- Nothing leads back: either no jump does, or no jump is carried out. -/
def Onward (env : Env) (m : Machine) : Prop := env.store.JumpsForward ∨ m.stopped = true

theorem Onward.of (onward : env.Onward m) (stopped : m.stopped = true → m'.stopped = true) :
    env.Onward m' :=
  onward.imp_right stopped

/-- A run ends if it does wherever a step goes that does not fail. -/
theorem ends_of_goes (calm : env.Calm c) (quiet : ∀ t ∈ c.tasks.tail, t.Quiet)
    (later : ∀ c', env.Goes c c' → env.Calm c' → env.Ends (.running c')) :
    env.Ends (.running c) := by
  apply ends_running
  have course := env.course_step c
  generalize next : env.step c = status at course
  cases course with
  | halt m => exact ends_halted _ _
  | @goes _ c' goes => exact later c' goes (calm.step next)
  | @fail _ _ _ m' f => exact ends_unwind quiet f m'
  | @failIn a rest m m' f =>
    have quiet' : ∀ t ∈ .body a :: rest, t.Quiet := List.forall_mem_cons.2 ⟨trivial, quiet⟩
    exact ends_unwind quiet' f m'

/-- Above whatever lies below it, a task comes back to one of the machines `back`, or it fails, as long
as the run ends from there on. -/
def ComesBack (env : Env) (t : Task) (m : Machine) (back : Machine → Prop) : Prop :=
  ∀ rest : List Task, (∀ u ∈ rest, u.Quiet) → env.Calm ⟨t :: rest, m⟩ →
    (∀ m', back m' → env.Calm ⟨rest, m'⟩ → env.Ends (.running ⟨rest, m'⟩)) →
      env.Ends (.running ⟨t :: rest, m⟩)

/-- What can be called on the level of a machine comes back to that level. -/
structure Settles (env : Env) (m : Machine) : Prop where
  call : ∀ c m', m.Level m' → env.ComesBack (.call c) m' m'.Level
  construct : ∀ r m', m.Level m' → env.ComesBack (.construct r) m' m'.Level

/-- What has just left an activation that was entered from this level or went on with it. -/
def Left (m back : Machine) : Prop := ∃ b m', m.Level m' ∧ back = leave b m'

/-- A native that calls nothing comes back. -/
theorem comesBack_native {r : Routine Unit} (plain : r.Plain) (taken : List Value) (m : Machine) :
    env.ComesBack (.native r taken) m m.Level := by
  intro rest quiet calm back
  refine ends_of_goes calm quiet fun c' goes calm' => ?_
  cases goes with
  | done level => exact back _ level calm'
  | calling calls => exact absurd plain calls

/-- An activation comes to the end of its code if what it calls comes back. -/
theorem comesBack_body (onward : env.Onward m) (settles : env.Settles m) (a : Activation) :
    env.ComesBack (.body a) m (Left m) := by
  -- the code that remains gets shorter
  generalize remaining : (env.store.body a.lambda).size - a.offset = n
  induction n using Nat.strongRecOn generalizing a m with
  | _ n ih =>
  intro rest quiet calm back
  have ends_at : ∀ {offset m'}, m.Level m' → a.offset < offset →
      a.offset < (env.store.body a.lambda).size → env.Calm ⟨.body { a with offset } :: rest, m'⟩ →
      env.Ends (.running ⟨.body { a with offset } :: rest, m'⟩) := by
    intro offset m' level later inside calm'
    have shorter : (env.store.body a.lambda).size - offset < n := by omega
    have settles' : env.Settles m' :=
      ⟨fun c m'' level' => settles.call c m'' (level.trans level'),
        fun r m'' level' => settles.construct r m'' (level.trans level')⟩
    refine ih _ shorter (onward.of level.stopped) settles' _ rfl rest quiet calm' ?_
    rintro _ ⟨b, m'', level', rfl⟩ calm''
    exact back _ ⟨b, m'', level.trans level', rfl⟩ calm''
  refine ends_of_goes calm quiet fun c' goes calm' => ?_
  cases goes with
  | next found level =>
    exact ends_at level (Nat.lt_succ_self _) (Array.getElem?_eq_some_iff.1 found).1 calm'
  | jump found free label level =>
    obtain forward | stopped := onward
    · exact ends_at level (forward _ _ _ _ _ found label) (Array.getElem?_eq_some_iff.1 found).1 calm'
    · rw [free] at stopped
      cases stopped
  | @wait _ i t callee _ _ m' found asks level =>
    have inside := (Array.getElem?_eq_some_iff.1 found).1
    have quiet' : ∀ u ∈ .waiting a callee :: rest, u.Quiet := List.forall_mem_cons.2 ⟨trivial, quiet⟩
    have resumes : ∀ m'', m'.Level m'' → env.Calm ⟨.waiting a callee :: rest, m''⟩ →
        env.Ends (.running ⟨.waiting a callee :: rest, m''⟩) := by
      intro m'' level' calm''
      refine ends_of_goes calm'' quiet fun c'' goes' calm₃ => ?_
      cases goes' with
      | resume level'' =>
        exact ends_at ((level.trans level').trans level'') (Nat.lt_succ_self _) inside calm₃
    cases asks with
    | call free c => exact settles.call c m' level _ quiet' calm' resumes
    | native fn =>
      have plain := calm _ fn (.refl _) (.builtin found rest m)
      exact comesBack_native plain [] m' _ quiet' calm' resumes
    | construct r => exact settles.construct r m' level _ quiet' calm' resumes
  | leave level => exact back _ ⟨a, _, level, rfl⟩ calm'

/-- Everything comes back on a level if it does one level deeper. -/
theorem settles_of_deeper (onward : env.Onward m) (deeper : ∀ m', m.Deeper m' → env.Settles m') :
    env.Settles m := by
  have enters : ∀ {m₁ m₂ : Machine} (a : Activation), m.Level m₁ → m₁.Deeper m₂ →
      env.ComesBack (.body a) m₂ m₁.Level := by
    intro m₁ m₂ a level entered rest quiet calm back
    have entered' := level.deeper entered
    refine comesBack_body (onward.of entered'.stopped) (deeper m₂ entered') a rest quiet calm ?_
    rintro _ ⟨b, m₃, level', rfl⟩ calm'
    exact back _ (entered.leave level' b) calm'
  constructor
  · intro c
    induction c using Callable.rec (motive_1 := fun _ => True) with
    | function id l closure =>
      intro m₁ level rest quiet calm back
      refine ends_of_goes calm quiet fun c' goes calm' => ?_
      cases goes with
      | @function _ _ _ _ a _ m₂ _ entered => exact enters a level entered rest quiet calm' back
    | native id fn =>
      intro m₁ level rest quiet calm back
      refine ends_of_goes calm quiet fun c' goes calm' => ?_
      cases goes with
      | native =>
        have plain := calm _ fn (.refl _) (.call id rest m₁)
        exact comesBack_native plain [] m₁ rest quiet calm' back
    | thunk id func arg ih =>
      intro m₁ level rest quiet calm back
      refine ends_of_goes calm quiet fun c' goes calm' => ?_
      cases goes with
      | @unwrap _ _ _ _ _ m₂ level' =>
        refine ih m₂ (level.trans level') rest quiet calm' fun m₃ level'' calm'' => ?_
        exact back m₃ (level'.trans level'') calm''
    | undefined =>
      intro m₁ level rest quiet calm back
      refine ends_of_goes calm quiet fun c' goes calm' => ?_
      cases goes
    | _ => trivial
  · intro r m₁ level rest quiet calm back
    refine ends_of_goes calm quiet fun c' goes calm' => ?_
    cases goes with
    | @construct _ i base _ a _ m₂ _ entered =>
      have quiet' : ∀ u ∈ .constructed i base :: rest, u.Quiet :=
        List.forall_mem_cons.2 ⟨trivial, quiet⟩
      refine enters a level entered _ quiet' calm' fun m₃ level' calm'' => ?_
      refine ends_of_goes calm'' quiet fun c'' goes' calm₃ => ?_
      cases goes' with
      | constructed level'' => exact back _ (level'.trans level'') calm₃

/-- Everything comes back, since only so many levels remain. -/
theorem settles_of_levels (onward : env.Onward m) : env.Settles m := by
  generalize levels : m.stack.maxDepth - m.stack.depth = k
  induction k generalizing m with
  | zero =>
    refine settles_of_deeper onward fun m' deeper => ?_
    have room := deeper.room
    omega
  | succ k ih =>
    refine settles_of_deeper onward fun m' deeper => ih (onward.of deeper.stopped) ?_
    rw [deeper.depth, deeper.maxDepth]
    omega

/-- Where nothing leads back, a run ends whatever remains to be done. -/
theorem ends_of_quiet (quiet : ∀ t ∈ tasks, t.Quiet) (onward : env.Onward m)
    (calm : env.Calm ⟨tasks, m⟩) : env.Ends (.running ⟨tasks, m⟩) := by
  induction tasks generalizing m with
  | nil => exact ends_running (ends_halted _ _)
  | cons t rest ih =>
    obtain ⟨quiet, below⟩ := List.forall_mem_cons.1 quiet
    have settles := settles_of_levels onward
    have back : ∀ m', m.Level m' → env.Calm ⟨rest, m'⟩ → env.Ends (.running ⟨rest, m'⟩) :=
      fun m' level => ih below (onward.of level.stopped)
    have bodies : ∀ a m', m.Level m' → env.Calm ⟨.body a :: rest, m'⟩ →
        env.Ends (.running ⟨.body a :: rest, m'⟩) := by
      intro a m' level calm'
      have onward' := onward.of level.stopped
      refine comesBack_body onward' (settles_of_levels onward') a rest below calm' ?_
      rintro _ ⟨b, m'', level', rfl⟩ calm''
      refine ih below (onward'.of fun stopped => ?_) calm''
      rw [Machine.stopped_leave]
      exact level'.stopped stopped
    cases t with
    | call c => exact settles.call c m (.refl m) rest below calm back
    | construct r => exact settles.construct r m (.refl m) rest below calm back
    | native r taken => exact comesBack_native quiet taken m rest below calm back
    | handler taken next => exact quiet.elim
    | body a => exact bodies a m (.refl m) calm
    | waiting a callee =>
      refine ends_of_goes calm below fun c' goes calm' => ?_
      cases goes with
      | resume level => exact bodies _ _ level calm'
    | constructed i base =>
      refine ends_of_goes calm below fun c' goes calm' => ?_
      cases goes with
      | constructed level => exact back _ level calm'

/-! ## Calls from the host -/

/-- A call that uses the native library only has an outcome if no jump leads back. -/
theorem exists_outcome {callee : Callable} {args : List Value} (idle : m.Idle)
    (on : env.OnLibrary callee args m) (forward : env.store.JumpsForward) :
    ∃ fuel outcome, ∀ fuel', fuel ≤ fuel' → env.invoke fuel' callee args m = some outcome := by
  have concludes : ∃ fuel ending, ∀ fuel', fuel ≤ fuel' →
      env.concluded fuel' [.call callee] args m = some ending := by
    cases start : started args m with
    | error f before => exact ⟨0, (.error f, before), fun _ _ => by rw [concluded, start]⟩
    | ok _ before =>
      have entry : (Contract.library m.stack.values m.globals).Entry env (.call callee) :=
        Contract.entry_call (Contract.calls_library _ _ on.callee)
      have calm : env.Calm ⟨[.call callee], before⟩ :=
        calm_of_sound on.code (on.sound_started idle.ready.parked entry start)
      have quiet : ∀ t ∈ [Task.call callee], t.Quiet := List.forall_mem_singleton.2 trivial
      obtain ⟨fuel, ending, ended⟩ := (ends_of_quiet quiet (.inl forward) calm).exists_run
      refine ⟨fuel, ending, fun fuel' enough => ?_⟩
      rw [concluded, start]
      exact ended fuel' enough
  obtain ⟨fuel, ending, ended⟩ := concludes
  refine ⟨fuel, handedOver m.stack.height (restored m.stack ending), fun fuel' enough => ?_⟩
  rw [invoke_eq_map, ended fuel' enough]
  rfl

/-- A call that uses the native library only comes to an end if no jump leads back: whatever is called,
on whatever, however deep calls may go. It has results or a failure if the capacity suffices for all that
it asks for on the way, and if the capacity does not, it is aborted. -/
theorem invoke_ends {callee : Callable} {args : List Value} (idle : m.Idle)
    (on : env.OnLibrary callee args m) (forward : env.store.JumpsForward) :
    ∃ fuel outcome, ∀ fuel', fuel ≤ fuel' →
      env.invoke fuel' callee args m = some outcome ∧
      ∀ capacity,
        (env.AmpleFor capacity callee args m →
          env.invokeWithin capacity fuel' callee args m = some (.done outcome)) ∧
        (¬ env.AmpleFor capacity callee args m →
          env.invokeWithin capacity fuel' callee args m = some .aborted) := by
  obtain ⟨fuel, outcome, ended⟩ := exists_outcome idle on forward
  refine ⟨fuel, outcome, fun fuel' enough => ⟨ended fuel' enough, fun capacity => ?_⟩⟩
  exact invokeWithin_of_invoke (ended fuel' enough)

/-- A lambda that makes an array which is as long as its argument says. -/
def arrayMaking : Env where
  store :=
    { programs := #[some #[.load .var 0, .builtin ⟨"array.new", .library .newArray⟩, .ret]]
      lambdas := #[{ code := ⟨0⟩, maxStack := 1, params := 1, vars := 1 }] }
  host _ := .done ()

-- no buffer of 2 ^ 59 values holds as many as the largest integer says
example :
    arrayMaking.invokeWithin (2 ^ 59) 9 (.function 0 ⟨0⟩ none) [.int 9223372036854775807]
      (.new {}) = some .aborted := by
  rfl

/-- Code with one lambda, which jumps forward and calls its argument on itself. -/
def selfCalling : Env where
  store :=
    { programs := #[some #[.jump .always ⟨some ⟨0⟩, 1⟩, .load .var 0, .load .var 0, .popCall]]
      lambdas := #[{ code := ⟨0⟩, maxStack := 2, params := 1, vars := 1 }] }
  host _ := .done ()

/-- The code of `selfCalling`. -/
theorem code_selfCalling {p : ProgramRef} {offset : Nat} {i : Instr}
    (found : (selfCalling.store.code p)[offset]? = some i) :
    offset = 0 ∧ i = .jump .always ⟨some ⟨0⟩, 1⟩ ∨ i = .load .var 0 ∨ i = .popCall := by
  obtain ⟨_ | p⟩ := p
  · obtain _ | _ | _ | _ | offset := offset
    · cases found
      exact .inl ⟨rfl, rfl⟩
    · cases found
      exact .inr (.inl rfl)
    · cases found
      exact .inr (.inl rfl)
    · cases found
      exact .inr (.inr rfl)
    · cases found
  · cases found

/-- A lambda that calls itself for ever, given itself as its argument, runs out of levels in the end. -/
theorem invoke_ends_selfCalling :
    let f : Callable := .function 0 ⟨0⟩ none
    let m : Machine := .new { maxCallDepth := 3 }
    ∃ fuel outcome, ∀ fuel', fuel ≤ fuel' → selfCalling.invoke fuel' f [.callable f] m = some outcome ∧
      ∀ capacity,
        (selfCalling.AmpleFor capacity f [.callable f] m →
          selfCalling.invokeWithin capacity fuel' f [.callable f] m = some (.done outcome)) ∧
        (¬ selfCalling.AmpleFor capacity f [.callable f] m →
          selfCalling.invokeWithin capacity fuel' f [.callable f] m = some .aborted) := by
  intro f m
  have forward : selfCalling.store.JumpsForward := by
    intro l offset offset' condition target found label
    obtain ⟨rfl, jump⟩ | other | other := code_selfCalling found
    · cases jump
      rw [Label.offsetIn] at label
      split at label
      · cases label
        exact Nat.zero_lt_one
      · cases label
    · cases other
    · cases other
  have on : selfCalling.OnLibrary f [.callable f] m := by
    refine onLibrary_new _ ?_ trivial (List.forall_mem_singleton.2 trivial)
    intro p i inside
    obtain ⟨offset, found⟩ := Array.getElem?_of_mem inside
    obtain ⟨-, rfl⟩ | rfl | rfl := code_selfCalling found <;> trivial
  exact invoke_ends (.new _) on forward

end Env

end PlotMachine
