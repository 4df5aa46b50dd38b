import PlotMachine.Proofs.Courses
import PlotMachine.Proofs.Likeness.Host

/-!
# Where a failure is blamed

A failure is raised without a position. On its way out it passes the activations that are alive, from
the innermost one outwards, and the first of them that knows the position of the instruction it is at
puts it on the failure (`Env.unwind_quiet`). A lambda that cannot be entered is no activation yet, so
its caller is to blame. `Env.Blamed` says all this of a failure that reaches the host.

In a call that uses the native library only no native takes a failure for its own, so every failure that
the host gets is one of these, or it was there before anything ran (`Env.failures_blamed`).
-/

namespace PlotMachine

/-- The activations that are alive at a point of a run, the innermost first. -/
def Config.alive (c : Config) : List Activation := c.tasks.filterMap Task.activation?

namespace Failure

variable {f : Failure} {positions : List Position}

/-- A failure that has a position keeps it. -/
theorem foldl_locate_of_isSome (located : f.position.isSome) : positions.foldl locate f = f := by
  induction positions with
  | nil => rfl
  | cons p rest ih => rw [List.foldl_cons, locate_of_isSome located, ih]

/-- Among positions that are met one after the other, the first known one is put on a failure. -/
theorem foldl_locate (unlocated : f.position = none) :
    positions.foldl locate f = { f with position := positions.find? (·.isKnown) } := by
  induction positions with
  | nil => rw [List.foldl_nil, List.find?_nil, ← unlocated]
  | cons p rest ih =>
    rw [List.foldl_cons]
    cases known : p.isKnown with
    | false =>
      have passed : f.locate p = f := by simp [locate, known]
      rw [passed, ih, List.find?_cons_of_neg (by simp [known])]
    | true =>
      have put : f.locate p = { f with position := some p } := by simp [locate, known, unlocated]
      rw [put, List.find?_cons_of_pos known]
      exact foldl_locate_of_isSome rfl

end Failure

namespace Env

/-- The position of the innermost activation that knows one. -/
def blamed (env : Env) (c : Config) : Option Position :=
  (c.alive.map env.position).find? (·.isKnown)

/-- A failure that the host gets is the one that was raised at a point of the run, with the position of
the innermost activation alive that knows the one of its instruction, if there is one. -/
structure Blamed (env : Env) (d : Config) (raised f : Failure) : Prop where
  raises : env.raised? d = some raised
  unlocated : raised.position = none
  fault : f.fault = raised.fault
  fatal : f.isFatal = raised.isFatal
  position : f.position = env.blamed d
  located : f.position.isSome = true ↔ ∃ a ∈ d.alive, (env.position a).isKnown = true

variable {env : Env} {c d : Config} {raised f : Failure}

theorem blamed_of (raises : env.raised? d = some raised) (unlocated : raised.position = none) :
    env.Blamed d raised { raised with position := env.blamed d } where
  raises := raises
  unlocated := unlocated
  fault := rfl
  fatal := rfl
  position := rfl
  located := by
    show (env.blamed d).isSome = true ↔ _
    rw [blamed, List.find?_isSome]
    simp only [List.mem_map, exists_exists_and_eq_and]

/-- A run that fails has come to a point at which the failure was raised. -/
theorem blamed_of_run {fuel : Nat} {m' : Machine} (calm : env.Calm c)
    (quiet : ∀ t ∈ c.tasks, t.Quiet) (ended : env.run fuel c = some (.error f, m')) :
    ∃ d raised, env.Steps c d ∧ env.Blamed d raised f := by
  obtain ⟨d, later, halts⟩ := steps_of_run ended
  have quiet' := quiet_of_steps calm quiet later
  have course := env.course_step d
  rw [halts] at course
  generalize status : Status.halted (.error f) m' = s at course
  cases course with
  | halt => cases status
  | goes => cases status
  | @fail t rest m m'' g plain raises unlocated _ =>
    obtain ⟨here, below⟩ := List.forall_mem_cons.1 quiet'
    obtain ⟨_, unwinds⟩ := env.unwind_quiet below g m''
    rw [unwinds, Failure.foldl_locate (unlocated here)] at status
    cases status
    have alive : Config.alive ⟨t :: rest, m⟩ = rest.filterMap Task.activation? :=
      List.filterMap_cons_none plain
    refine ⟨_, g, later, ?_⟩
    have blames := blamed_of raises (unlocated here)
    rwa [blamed, alive] at blames
  | @failIn a rest m m'' g raises unlocated _ =>
    obtain ⟨_, unwinds⟩ := env.unwind_quiet quiet' g m''
    rw [unwinds, Failure.foldl_locate unlocated] at status
    cases status
    exact ⟨_, g, later, blamed_of raises unlocated⟩

/-! ## Calls from the host -/

/-- How a call from the host fails that starts with a task. -/
inductive Fails (env : Env) (t : Task) (args : List Value) (m : Machine) : Failure → Prop
  /-- There is no room for the arguments, so that nothing runs. -/
  | early {f : Failure} {before : Machine} (start : started args m = .error f before)
      (unlocated : f.position = none) : Fails env t args m f
  /-- A failure is raised at some point of the run. -/
  | late {f raised : Failure} {before : Machine} {d : Config}
      (start : started args m = .ok () before) (later : env.Steps ⟨[t], before⟩ d)
      (blamed : env.Blamed d raised f) : Fails env t args m f

/-- A call from the host that uses the library only fails in one of these two ways. -/
theorem fails_of_guarded {callee : Callable} {args : List Value} {m back : Machine} {t : Task}
    {fuel : Nat} (clean : m.keeper.pool.Clean) (on : env.OnLibrary callee args m)
    (entry : (Contract.library m.stack.values m.globals).Entry env t) (quiet : t.Quiet)
    (ended : env.guarded fuel [t] args m = some (.error f, back)) : env.Fails t args m f := by
  rw [guarded_eq, Option.map_eq_some_iff] at ended
  obtain ⟨⟨outcome, last⟩, ended, same⟩ := ended
  cases outcome with
  | ok => cases same
  | error f' =>
    cases same
    unfold concluded at ended
    cases start : started args m with
    | error g before =>
      rw [start] at ended
      cases ended
      exact .early start ((Exec.stays_pushAll (R := Machine.Level) args).error start).1
    | ok u before =>
      rw [start] at ended
      have calm : env.Calm ⟨[t], before⟩ :=
        calm_of_sound on.code (on.sound_started clean entry start)
      obtain ⟨d, raised, later, blames⟩ :=
        blamed_of_run calm (List.forall_mem_singleton.2 quiet) ended
      exact .late start later blames

/-- A call that fails had its tasks fail. -/
theorem guarded_of_invoke_eq_error {fuel : Nat} {callee : Callable} {args : List Value}
    {m m' : Machine} (ended : env.invoke fuel callee args m = some (.error f, m')) :
    env.guarded fuel [.call callee] args m = some (.error f, m') := by
  rw [invoke, Option.map_eq_some_iff] at ended
  obtain ⟨⟨outcome, back⟩, ended, same⟩ := ended
  cases outcome with
  | ok => cases same
  | error g =>
    cases same
    exact ended

/-- An instance that is not made had its initialiser fail: once it is made it can be handed over. -/
theorem guarded_of_instantiate_eq_error {fuel : Nat} {r : RecordRef} {m m' : Machine}
    (floor_le : m.stack.floor ≤ m.stack.height)
    (ended : env.instantiate fuel r m = some (.error f, m')) :
    env.guarded fuel [.construct r] [] m = some (.error f, m') := by
  rw [instantiate, Option.map_eq_some_iff] at ended
  obtain ⟨⟨outcome, back⟩, ended, same⟩ := ended
  have covers := Contract.covers_free m.stack.values m.globals (fun _ => True) env
  have served := (Contract.rests_whole m.keeper.pool.all_true).guarded covers rfl
    (List.forall_mem_nil _) (Contract.entry_construct trivial) ended
  cases outcome with
  | ok u =>
    dsimp only at same
    rw [served.popInstance_eq floor_le] at same
    cases same
  | error g =>
    cases same
    exact ended

/-- Every failure that the host gets from a call that uses the library only is blamed on the innermost
activation alive that knows where it is, whether a callable is called, a lambda is run or an instance
is made. Where the host supplies too few or too many arguments nothing runs, and none is blamed. -/
theorem failures_blamed {callee : Callable} {args : List Value} {m m' : Machine} {fuel : Nat}
    (idle : m.Idle) (on : env.OnLibrary callee args m) :
    (env.invoke fuel callee args m = some (.error f, m') → env.Fails (.call callee) args m f) ∧
    (∀ l, env.exec fuel l args m = some (.error f, m') →
      args.length ≠ (env.store.lambda l).params ∧ f.position = none ∨
        env.Fails (.call (.function m.heap.nextCallable l none)) args
          { m with heap := m.heap.takeNumber.2 } f) ∧
    ∀ r, env.instantiate fuel r m = some (.error f, m') → env.Fails (.construct r) [] m f := by
  have clean : m.keeper.pool.Clean := idle.ready.parked
  refine ⟨fun ended => ?_, fun l ended => ?_, fun r ended => ?_⟩
  · have entry : (Contract.library m.stack.values m.globals).Entry env (.call callee) :=
      Contract.entry_call (Contract.calls_library _ _ on.callee)
    exact fails_of_guarded clean on entry trivial (guarded_of_invoke_eq_error ended)
  · simp only [exec] at ended
    split at ended
    · next few =>
      cases ended
      exact .inl ⟨Nat.ne_of_lt few, rfl⟩
    split at ended
    · next many =>
      cases ended
      exact .inl ⟨(Nat.ne_of_lt many).symm, rfl⟩
    have numbered : env.OnLibrary (.function m.heap.nextCallable l none) args
        { m with heap := m.heap.takeNumber.2 } :=
      ⟨on.code, fun o v inside => on.heap o v (by simpa using inside), trivial, on.args⟩
    have entry : (Contract.library m.stack.values m.globals).Entry env
        (.call (.function m.heap.nextCallable l none)) :=
      Contract.entry_call (Contract.calls_library _ _ numbered.callee)
    exact .inr (fails_of_guarded clean numbered entry trivial (guarded_of_invoke_eq_error ended))
  · have floor_le : m.stack.floor ≤ m.stack.height := by
      rw [idle.ready.floor_eq]
      exact Nat.zero_le _
    have nothing : env.OnLibrary callee [] m :=
      ⟨on.code, on.heap, on.callee, List.forall_mem_nil _⟩
    exact fails_of_guarded clean nothing (Contract.entry_construct trivial) trivial
      (guarded_of_instantiate_eq_error floor_le ended)

/-- Code with a lambda that knows its position and calls its argument, and one that knows none and
divides by zero. -/
def dividing : Env where
  store :=
    { programs := #[some #[.load .var 0, .popCall], some #[.intPush 1, .intPush 0, .intArith .divide]]
      lambdas :=
        #[{ code := ⟨0⟩, maxStack := 2, params := 1, vars := 1,
            positions := .ofEntries [⟨0, { line := 3, column := 4 }⟩] },
          { code := ⟨1⟩, maxStack := 2, params := 0, vars := 0 }] }
  host _ := .done ()

/-- The lambda that divides by zero does not know where it is, so its caller is to blame. -/
theorem failures_blamed_dividing :
    let caller : Callable := .function 0 ⟨0⟩ none
    let args : List Value := [.callable (.function 1 ⟨1⟩ none)]
    ∃ f m', dividing.invoke 9 caller args (.new {}) = some (.error f, m') ∧
      f.position = some { line := 3, column := 4 } ∧
      dividing.Fails (.call caller) args (.new {}) f := by
  intro caller args
  have known : ((dividing.invoke 9 caller args (.new {})).bind fun ended =>
      match ended.1 with
      | .ok _ => none
      | .error f => f.position) = some { line := 3, column := 4 } := by
    decide +kernel
  have on : dividing.OnLibrary caller args (.new {}) := by
    refine onLibrary_new {} ?_ trivial (List.forall_mem_singleton.2 trivial)
    rintro ⟨_ | _ | p⟩ i inside
    · have listed : i = .load .var 0 ∨ i = .popCall := by
        simpa [dividing, Store.code, Store.code?] using inside
      obtain rfl | rfl := listed <;> trivial
    · have listed : i = .intPush 1 ∨ i = .intPush 0 ∨ i = .intArith .divide := by
        simpa [dividing, Store.code, Store.code?] using inside
      obtain rfl | rfl | rfl := listed <;> trivial
    · simp [dividing, Store.code, Store.code?] at inside
  cases ran : dividing.invoke 9 caller args (.new {}) with
  | none =>
    rw [ran] at known
    cases known
  | some ended =>
    obtain ⟨outcome, m'⟩ := ended
    rw [ran] at known
    cases outcome with
    | ok values => cases known
    | error f => exact ⟨f, m', rfl, known, (failures_blamed (.new _) on).1 ran⟩

end Env

end PlotMachine
