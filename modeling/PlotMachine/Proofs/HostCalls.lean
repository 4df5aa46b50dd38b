import PlotMachine.Machine.Host
import PlotMachine.Proofs.CallDiscipline

/-!
# Calls from the host

Every call from the host goes through `Env.guarded`, which puts all that is on the stack out of
reach. What is out of reach comes back as it was, so a call that fails leaves the stack as it was,
and a call that succeeds leaves it with the results of the callee on top (`Contract.Rests.guarded`).
The results are then handed over (`Env.host_calls_restore_stack`).
-/

namespace PlotMachine

namespace Env

/-- The tasks of a call from the host were done, and they left the given values on the stack, bottom
first, above those that were there before. -/
def Leaves (env : Env) (fuel : Nat) (tasks : List Task) (args : List Value) (m : Machine)
    (values : Array Value) : Prop :=
  ∃ before ended, started args m = .ok () before ∧
    env.run fuel ⟨tasks, before⟩ = some (.ok (), ended) ∧
    ended.stack.values = m.stack.values ++ values

/-- A call from the host that failed is cut back, and one that succeeded gets its floor back. -/
theorem guarded_eq (env : Env) (fuel : Nat) (tasks : List Task) (args : List Value) (m : Machine) :
    env.guarded fuel tasks args m = (env.concluded fuel tasks args m).map fun
      | (.ok (), back) =>
        (.ok (), { back with stack := { back.stack with floor := m.stack.floor } })
      | (.error f, back) =>
        let cut := back.cutStack m.stack.height
        (.error f, { cut with stack := { cut.stack with
          floor := m.stack.floor, ceiling := m.stack.ceiling, depth := m.stack.depth } }) :=
  rfl

end Env

namespace Contract

variable {K : Contract} {env : Env} {m m' : Machine} {tasks : List Task} {args : List Value}

/-- A machine at rest works within limits once all values are out of reach. -/
theorem Rests.raiseFloor (rests : K.Rests m) (whole : K.bottom = m.stack.values) :
    K.Holds { m with stack := m.stack.raiseFloor } where
  toRests := rests.congr rfl rfl rfl rests.pool
  base_le := by rw [base, whole]; exact Nat.le_refl m.stack.height
  floor_le := Nat.le_refl m.stack.height

/-- Pushing arguments that may come into play observes the contract. -/
theorem obeys_pushAll (fit : ∀ v ∈ args, K.Fit v) :
    (args.foldlM (fun (_ : Unit) v => Exec.push v) ()).Obeys K fun _ => True := by
  induction args with
  | nil => exact Exec.obeys_pure trivial
  | cons v rest ih =>
    rw [List.foldlM_cons]
    refine (Exec.obeys_push (fit v List.mem_cons_self)).bind fun _ _ => ?_
    exact ih fun w inside => fit w (List.mem_cons_of_mem v inside)

/-- The values that were out of reach are still at the bottom of the stack. -/
theorem Rests.take_eq (rests : K.Rests m') (whole : K.bottom = m.stack.values) :
    m'.stack.values.take m.stack.height = m.stack.values := by
  apply Array.ext_getElem?
  intro i
  have cut := m'.stack.getElem?_truncate m.stack.height i
  rw [Stack.truncate] at cut
  rw [cut]
  split
  · next low => rw [rests.bottom i (by rw [base, whole]; exact low), whole]
  · next high => rw [Array.getElem?_eq_none (Nat.le_of_not_lt high)]

/-- The values above those that were out of reach may come into play. -/
theorem Rests.fit_above (rests : K.Rests m') (whole : K.bottom = m.stack.values) {v : Value}
    (inside : v ∈ m'.stack.above m.stack.height) : K.Fit v := by
  obtain ⟨i, _, same⟩ := Array.mem_extract_iff_getElem.1 inside
  refine rests.values (m.stack.height + i) v ?_ (Array.getElem?_eq_some_iff.2 ⟨_, same⟩)
  rw [base, whole]
  exact Nat.le_add_right _ _

/-- A machine is at rest if nothing is on the stack but what was out of reach. -/
theorem Rests.withStack {s : Stack} (rests : K.Rests m') (whole : K.bottom = s.values) :
    K.Rests { m' with stack := s } where
  bottom i _ := by rw [whole]
  values i v high found := by
    rw [base, whole] at high
    rw [Array.getElem?_eq_none high] at found
    cases found
  globals := rests.globals
  heap := rests.heap
  pool := rests.pool

/-- A call that failed is cut back to the stack there was before. -/
theorem Rests.restore (rests : K.Rests m') (whole : K.bottom = m.stack.values)
    (maxDepth : m'.stack.maxDepth = m.stack.maxDepth) :
    K.Rests { m'.cutStack m.stack.height with stack := m.stack } ∧
      { (m'.cutStack m.stack.height).stack with
        floor := m.stack.floor, ceiling := m.stack.ceiling, depth := m.stack.depth } = m.stack := by
  constructor
  · have rests' := rests.withStack whole
    rw [Machine.cutStack]
    exact rests'.congr (by simp) (by simp) (by simp) (by simpa using rests'.pool)
  · rw [Machine.stack_cutStack]
    simp only [Stack.truncate, rests.take_eq whole, maxDepth]

/-- A task by which the host calls into the machine. -/
structure Entry (K : Contract) (env : Env) (t : Task) : Prop where
  belongs : t.activation? = none
  uncut : t.cut? = none
  takes : ∀ h, K.Takes env h t

/-- The machine is sound once the arguments of a call from the host are on the stack. -/
theorem Rests.sound_started {t : Task} {before : Machine} (rests : K.Rests m)
    (whole : K.bottom = m.stack.values) (fit : ∀ v ∈ args, K.Fit v) (entry : K.Entry env t)
    (start : Env.started args m = .ok () before) :
    K.Sound env m.stack.maxDepth m.stack.raiseFloor.limits [t] before ∧
      m.heap.Extends before.heap := by
  have answers := obeys_pushAll fit _ (rests.raiseFloor whole)
  rw [Env.started] at start
  rw [start] at answers
  obtain ⟨-, holds, within, grown⟩ := answers
  have outside : K.Sound env m.stack.maxDepth m.stack.raiseFloor.limits [] before :=
    { toRests := holds.toRests
      floor_le := holds.floor_le
      maxDepth_eq := within.maxDepth
      takes := List.forall_mem_nil _
      nest := by rw [within.limits]; exact .nil }
  exact ⟨outside.add holds.base_le (entry.takes before.heap) entry.belongs entry.uncut, grown⟩

/-- What is known of the tasks of a call from the host when they have ended. -/
structure Concluded (K : Contract) (m : Machine) (outcome : Except Failure Unit)
    (back : Machine) : Prop where
  rests : K.Rests back
  ends : K.Ends outcome
  grown : m.heap.Extends back.heap
  maxDepth : back.stack.maxDepth = m.stack.maxDepth
  limits : outcome = .ok () → back.stack.limits = m.stack.raiseFloor.limits
  height_le : outcome = .ok () → m.stack.height ≤ back.stack.height

/-- The tasks of a call from the host observe the contract. -/
theorem Rests.concluded {t : Task} {back : Machine} {fuel : Nat} {outcome : Except Failure Unit}
    (covers : K.Covers env) (rests : K.Rests m) (whole : K.bottom = m.stack.values)
    (fit : ∀ v ∈ args, K.Fit v) (entry : K.Entry env t)
    (ended : env.concluded fuel [t] args m = some (outcome, back)) :
    K.Concluded m outcome back := by
  rw [Env.concluded] at ended
  split at ended
  · next before start =>
    obtain ⟨sound, grown⟩ := rests.sound_started whole fit entry start
    obtain ⟨ends, sound', grown'⟩ := sound.run_all covers ended
    have limits := sound'.nest.limits_eq
    refine ⟨sound'.toRests, ends, grown.trans grown', sound'.maxDepth_eq, fun _ => limits, ?_⟩
    intro _
    have floor : back.stack.floor = m.stack.height := congrArg Stack.Limits.floor limits
    exact floor ▸ sound'.floor_le
  · next f before start =>
    have answers := obeys_pushAll fit _ (rests.raiseFloor whole)
    rw [Env.started] at start
    rw [start] at answers
    obtain ⟨may, holds, within, grown⟩ := answers
    cases ended
    refine ⟨holds.toRests, ?_, grown, within.maxDepth, nofun, nofun⟩
    rintro _ ⟨⟩
    exact may

/-- What is known of a call from the host that is over. -/
structure Served (K : Contract) (env : Env) (fuel : Nat) (t : Task) (args : List Value)
    (m : Machine) (outcome : Except Failure Unit) (m' : Machine) : Prop where
  rests : K.Rests m'
  ends : K.Ends outcome
  grown : m.heap.Extends m'.heap
  error : ∀ f, outcome = .error f → m'.stack = m.stack
  ok : outcome = .ok () → ∃ before ended values, Env.started args m = .ok () before ∧
    env.run fuel ⟨[t], before⟩ = some (.ok (), ended) ∧
    ended.stack.values = m.stack.values ++ values ∧ (∀ v ∈ values, K.Fit v) ∧
    m'.heap = ended.heap ∧ m'.stack = { m.stack with values := m.stack.values ++ values }

/-- A call from the host observes the contract and keeps the values that were on the stack. -/
theorem Rests.guarded {t : Task} {fuel : Nat} {outcome : Except Failure Unit}
    (covers : K.Covers env) (rests : K.Rests m) (whole : K.bottom = m.stack.values)
    (fit : ∀ v ∈ args, K.Fit v) (entry : K.Entry env t)
    (ended : env.guarded fuel [t] args m = some (outcome, m')) :
    K.Served env fuel t args m outcome m' := by
  rw [Env.guarded_eq, Option.map_eq_some_iff] at ended
  obtain ⟨⟨outcome', back⟩, ended, same⟩ := ended
  have concluded := rests.concluded covers whole fit entry ended
  cases outcome' with
  | error f =>
    obtain ⟨rests', stack⟩ := concluded.rests.restore whole concluded.maxDepth
    cases same
    dsimp only
    rw [stack]
    refine ⟨rests', concluded.ends, ?_, fun _ _ => rfl, ?_⟩
    · rw [Machine.heap_cutStack]
      exact concluded.grown
    · rintro ⟨⟩
  | ok u =>
    cases same
    -- what was there before and what the callee left make up the stack
    have joined : m.stack.values ++ back.stack.above m.stack.height = back.stack.values := by
      have split := Stack.truncate_append_above (concluded.height_le rfl)
      rwa [Stack.truncate, concluded.rests.take_eq whole] at split
    refine ⟨concluded.rests.congr rfl rfl rfl concluded.rests.pool, K.ends_ok, concluded.grown, ?_, ?_⟩
    · rintro f ⟨⟩
    intro _
    rw [Env.concluded] at ended
    split at ended
    · next before start =>
      refine ⟨before, back, back.stack.above m.stack.height, start, ended, joined.symm, ?_, rfl, ?_⟩
      · exact fun v inside => concluded.rests.fit_above whole inside
      · have limits := concluded.limits rfl
        have ceiling : back.stack.ceiling = m.stack.ceiling := congrArg Stack.Limits.ceiling limits
        have depth : back.stack.depth = m.stack.depth := congrArg Stack.Limits.depth limits
        simp only [joined, ceiling, depth, concluded.maxDepth]
    · cases ended

/-- A call is a task by which the host calls into the machine. -/
theorem entry_call {c : Callable} (calls : K.Calls c) : K.Entry env (.call c) :=
  ⟨rfl, rfl, fun _ => calls⟩

theorem entry_construct {r : RecordRef} (record : K.record r) : K.Entry env (.construct r) :=
  ⟨rfl, rfl, fun _ => record⟩

end Contract

/-! ## Instances -/

namespace Env

variable {env : Env} {fuel : Nat} {r : RecordRef} {m ended : Machine}

/-- A run that goes on without failure after a computation goes on with the tasks it answered. -/
theorem resume_proceed {x : Exec (List Task)}
    (result : env.resume fuel (env.proceed [] x m) = some (.ok (), ended)) :
    ∃ tasks m', x m = .ok tasks m' ∧ env.run fuel ⟨tasks, m'⟩ = some (.ok (), ended) := by
  rw [proceed] at result
  cases answer : x m with
  | ok tasks m' =>
    rw [answer] at result
    exact ⟨tasks, m', rfl, result⟩
  | error f m' =>
    rw [answer] at result
    cases result

/-- The machine on which the initialiser of a new instance is entered. -/
def allocated (env : Env) (r : RecordRef) (m : Machine) : Machine :=
  { m with
    heap := (m.heap.addInstance r (env.store.record r).size).2
    stack := m.stack.push (.record ⟨m.heap.instances.size⟩) }

/-- Without the instance, the stack is as it was. -/
theorem truncate_allocated (env : Env) (r : RecordRef) (m : Machine) :
    (env.allocated r m).stack.truncate m.stack.height = m.stack := by
  simp [allocated, Stack.truncate, Stack.push, Stack.height]

/-- An instance is made, and its initialiser is entered with it as the argument. -/
theorem construct_eq_ok {rest tasks : List Task} {m' : Machine}
    (answer : env.construct rest r m = .ok tasks m') :
    ∃ a, tasks = .body a :: .constructed ⟨m.heap.instances.size⟩ m.stack.height :: rest ∧
      (env.store.lambda (env.store.record r).init).params = 1 ∧
      env.Entered (env.store.record r).init none (env.allocated r m) a m' := by
  rw [construct_eq] at answer
  split at answer
  · next one =>
    dsimp only at answer
    simp only [Exec.push] at answer
    split at answer
    · next u pushed same =>
      split at same
      · cases same
      · cases same
        split at answer
        · next a entered result =>
          cases answer
          exact ⟨a, rfl, one, entered_of_enter result⟩
        · cases answer
    · cases answer
  · cases answer

section

variable {a : Activation} {m₁ : Machine}

/-- The arguments of the initialiser are all that lies above the stack there was. -/
theorem argBase_allocated (one : (env.store.lambda (env.store.record r).init).params = 1) :
    env.argBase (env.store.record r).init (env.allocated r m) = m.stack.height := by
  rw [argBase, one]
  simp [allocated]

/-- The instance as its initialiser finds it. -/
theorem Entered.made (entered : env.Entered (env.store.record r).init none (env.allocated r m) a m₁) :
    m₁.heap.instance? ⟨m.heap.instances.size⟩ =
      some ⟨r, Array.replicate (env.store.record r).size .nil⟩ := by
  obtain ⟨fresh, -, -, heap⟩ := entered.heap
  rw [heap]
  simp [allocated, Heap.addFrame, Heap.addInstance, Heap.instance?]

/-- The initialiser works above the values there were. -/
theorem Entered.sound (floor_le : m.stack.floor ≤ m.stack.height)
    (one : (env.store.lambda (env.store.record r).init).params = 1)
    (entered : env.Entered (env.store.record r).init none (env.allocated r m) a m₁) :
    (Contract.beyond (env.allocated r m) m.stack.height fun _ => True).Sound env
      (env.allocated r m).stack.maxDepth (env.allocated r m).stack.limits [.body a] m₁ := by
  have height : (env.allocated r m).stack.height = m.stack.height + 1 := by
    simp [allocated]
  have le : m.stack.height ≤ (env.allocated r m).stack.height := by omega
  have floor_le' : (env.allocated r m).stack.floor ≤ (env.allocated r m).stack.height :=
    Nat.le_trans floor_le le
  have outside := Contract.sound_beyond env le floor_le' m.keeper.pool.all_true
  refine outside.enter ?_ trivial (fun _ _ => trivial) (fun v _ => Contract.fit_free _ _ _ v) entered
  rw [Contract.base_beyond le, argBase_allocated one]

end

/-- An instance that waited is pushed in place of what its initialiser left. -/
theorem run_constructed {i : InstanceRef} {height : Nat}
    (result : env.run fuel ⟨[.constructed i height], m⟩ = some (.ok (), ended)) :
    ended.stack.values = (m.stack.values.take height).push (.record i) ∧
      ended.heap = m.heap := by
  cases fuel with
  | zero => cases result
  | succ fuel =>
    rw [run_succ, step] at result
    obtain ⟨tasks, m', answer, result⟩ := resume_proceed result
    change (Exec.push (.record i) >>= fun _ => pure []) (m.cutStack height) = .ok tasks m' at answer
    simp only [Bind.bind, EStateM.bind, Exec.push] at answer
    split at answer
    · next u pushed same =>
      split at same
      · cases same
      · cases same
        cases answer
        cases fuel with
        | zero => cases result
        | succ fuel =>
          cases result
          simp [Stack.push, Stack.truncate]
    · cases answer

/-- An instance that was made and initialised is all that is left above the stack there was. -/
theorem run_construct (low : m.stack.floor = m.stack.height)
    (result : env.run fuel ⟨[.construct r], m⟩ = some (.ok (), ended)) :
    ended.stack.values = m.stack.values.push (.record ⟨m.heap.instances.size⟩) ∧
      ∃ fields, ended.heap.instance? ⟨m.heap.instances.size⟩ = some ⟨r, fields⟩ := by
  -- the first step makes the instance and enters the initialiser, above the task that waits for it
  cases fuel with
  | zero => cases result
  | succ fuel =>
    rw [run_succ, step] at result
    obtain ⟨tasks, m₁, answer, result⟩ := resume_proceed result
    obtain ⟨a, rfl, one, entered⟩ := construct_eq_ok answer
    have inside := entered.sound (Nat.le_of_eq low) one
    change env.run fuel ⟨[.body a] ++ [.constructed ⟨m.heap.instances.size⟩ m.stack.height], m₁⟩ = _
      at result
    -- the initialiser comes back to that task; a failure would have ended the run
    obtain ⟨fuel', back, sound, grown, done | ⟨f, _, failed⟩⟩ :=
      inside.run (Contract.covers_free _ _ _ env) result
    · obtain ⟨values, heap⟩ := run_constructed done
      have whole : (Contract.beyond (env.allocated r m) m.stack.height fun _ => True).bottom =
          m.stack.values := congrArg Stack.values (truncate_allocated env r m)
      obtain ⟨fields, found, -⟩ := grown.record _ _ entered.made
      rw [values, sound.toRests.take_eq whole, heap]
      exact ⟨rfl, fields, found⟩
    · cases failed

end Env

/-! ## What a call from the host answers -/

namespace Contract

/-- A call from the host is over: the stack is as it was, and the result is as described. -/
structure Answered (K : Contract) {α : Type} (m : Machine) (P : α → Prop)
    (result : Except Failure α) (m' : Machine) : Prop where
  rests : K.Rests m'
  grown : m.heap.Extends m'.heap
  stack : m'.stack = m.stack
  error : ∀ f, result = .error f → K.failure f
  ok : ∀ a, result = .ok a → P a

variable {K : Contract} {env : Env} {fuel : Nat} {m m' : Machine} {args : List Value}

/-- A call from the host that failed. -/
theorem Rests.answered_error {α : Type} {P : α → Prop} {f : Failure} (rests : K.Rests m')
    (grown : m.heap.Extends m'.heap) (stack : m'.stack = m.stack) (may : K.failure f) :
    K.Answered m P (.error f) m' := by
  refine ⟨rests, grown, stack, ?_, ?_⟩
  · rintro _ ⟨⟩
    exact may
  · rintro a ⟨⟩

/-- A call from the host that succeeded. -/
theorem Rests.answered_ok {α : Type} {P : α → Prop} {a : α} (rests : K.Rests m')
    (grown : m.heap.Extends m'.heap) (stack : m'.stack = m.stack) (result : P a) :
    K.Answered m P (.ok a) m' := by
  refine ⟨rests, grown, stack, ?_, ?_⟩
  · rintro f ⟨⟩
  · rintro _ ⟨⟩
    exact result

/-- A call that is refused before anything runs leaves the machine as it was. -/
theorem Rests.refused {α : Type} {P : α → Prop} {fault : Fault} (rests : K.Rests m)
    (tame : fault.isLabelFault = false) : K.Answered m P (.error fault) m :=
  rests.answered_error (.refl m.heap) rfl (K.failure_of fault tame)

/-- The new instance is all that is popped once it has been made. -/
theorem Served.popInstance_eq {r : RecordRef} {back : Machine}
    (served : K.Served env fuel (.construct r) [] m (.ok ()) back)
    (floor_le : m.stack.floor ≤ m.stack.height) :
    Exec.popInstance m.stack.height back = .ok ⟨m.heap.instances.size⟩
      (({ back with stack := m.stack }.cutStack m.stack.height).letGo
        (.record ⟨m.heap.instances.size⟩)) := by
  obtain ⟨before, last, values, start, ran, left, -, -, stack⟩ := served.ok rfl
  -- nothing was pushed before the run
  cases start
  obtain ⟨pushed, -⟩ := Env.run_construct rfl ran
  have top : back.stack = m.stack.push (.record ⟨m.heap.instances.size⟩) := by
    rw [stack, ← left, pushed]
    rfl
  rw [Exec.popInstance, Exec.taking, top, Stack.top?_push floor_le, Stack.drop_push]
  rfl

variable (covers : K.Covers env) (rests : K.Rests m) (whole : K.bottom = m.stack.values)

include covers rests whole

/-- A call of a callable answers what it left on the stack. -/
theorem Rests.invoke {c : Callable} {result : Except Failure (Array Value)}
    (fit : ∀ v ∈ args, K.Fit v) (calls : K.Calls c)
    (ended : env.invoke fuel c args m = some (result, m')) :
    K.Answered m (fun values => env.Leaves fuel [.call c] args m values ∧ ∀ v ∈ values, K.Fit v)
      result m' := by
  rw [Env.invoke, Option.map_eq_some_iff] at ended
  obtain ⟨⟨outcome, back⟩, ended, same⟩ := ended
  have served := rests.guarded covers whole fit (entry_call calls) ended
  cases outcome with
  | error f =>
    cases same
    exact served.rests.answered_error served.grown (served.error f rfl) (served.ends f rfl)
  | ok u =>
    cases same
    obtain ⟨before, last, values, start, ran, left, fits, -, stack⟩ := served.ok rfl
    have above : back.stack.above m.stack.height = values := by
      rw [stack]
      simp [Stack.above, Stack.height]
    have truncated : back.stack.truncate m.stack.height = m.stack := by
      rw [stack]
      simp [Stack.truncate, Stack.height]
    rw [above, truncated]
    exact (served.rests.withStack whole).answered_ok served.grown rfl
      ⟨⟨before, last, start, ran, left⟩, fits⟩

/-- A lambda that is run on its arguments answers what it left on the stack. -/
theorem Rests.exec {l : LambdaRef} {result : Except Failure (Array Value)}
    (fit : ∀ v ∈ args, K.Fit v) (lambda : K.lambda l)
    (ended : env.exec fuel l args m = some (result, m')) :
    K.Answered m (fun values => args.length = (env.store.lambda l).params ∧
      env.Leaves fuel [.call (.function m.heap.nextCallable l none)] args
        { m with heap := m.heap.takeNumber.2 } values ∧ ∀ v ∈ values, K.Fit v) result m' := by
  simp only [Env.exec] at ended
  split at ended
  · cases ended
    exact rests.refused rfl
  next few =>
  split at ended
  · cases ended
    exact rests.refused rfl
  next many =>
  have numbered : K.Rests { m with heap := m.heap.takeNumber.2 } :=
    { rests with heap := rests.heap.takeNumber }
  have calls : K.Calls (.function m.heap.nextCallable l none) := ⟨lambda, nofun⟩
  have answered := numbered.invoke covers whole fit calls ended
  have length : args.length = (env.store.lambda l).params := by omega
  exact
    { rests := answered.rests
      grown := m.heap.extends_takeNumber.trans answered.grown
      stack := answered.stack
      error := answered.error
      ok := fun values same => ⟨length, answered.ok values same⟩ }

/-- An instance that the host asks for is new and is of the record type it asked for. -/
theorem Rests.instantiate {r : RecordRef} {result : Except Failure InstanceRef}
    (record : K.record r) (floor_le : m.stack.floor ≤ m.stack.height)
    (ended : env.instantiate fuel r m = some (result, m')) :
    K.Answered m (fun i => i = ⟨m.heap.instances.size⟩ ∧
      (∃ fields, m'.heap.instance? i = some ⟨r, fields⟩) ∧
      env.Leaves fuel [.construct r] [] m #[.record i]) result m' := by
  rw [Env.instantiate, Option.map_eq_some_iff] at ended
  obtain ⟨⟨outcome, back⟩, ended, same⟩ := ended
  have served := rests.guarded covers whole (List.forall_mem_nil _) (entry_construct record) ended
  cases outcome with
  | error f =>
    cases same
    exact served.rests.answered_error served.grown (served.error f rfl) (served.ends f rfl)
  | ok u =>
    obtain ⟨before, last, values, start, ran, left, -, heap, stack⟩ := served.ok rfl
    -- nothing was pushed before the run
    cases start
    obtain ⟨pushed, made⟩ := Env.run_construct rfl ran
    dsimp only at same
    rw [served.popInstance_eq floor_le] at same
    have rests' := served.rests.withStack whole
    have uncut : m.stack.truncate m.stack.height = m.stack := Stack.truncate_of_height_le (Nat.le_refl _)
    cases same
    have leaves : env.Leaves fuel [.construct r] [] m #[.record ⟨m.heap.instances.size⟩] :=
      ⟨_, last, rfl, ran, by rw [pushed, ← Array.push_eq_append]; rfl⟩
    refine Rests.answered_ok ?_ (by simpa using served.grown) (by simp [uncut]) ⟨rfl, ?_, leaves⟩
    · exact rests'.congr (by simp [uncut]) (by simp) (by simp) (by simpa using rests'.pool)
    · simpa [heap] using made

end Contract

/-! ## Machines between calls from the host -/

namespace Machine

/-- Clearing frames changes their slots and the account of frames. -/
theorem clearFrames_eq (m : Machine) (frames : Array FrameRef) :
    (m.clearFrames frames).stack = m.stack ∧
      (m.clearFrames frames).keeper.pool = m.keeper.pool := by
  have each : ∀ (fs : List FrameRef) (m : Machine), (fs.foldl clearFrame m).stack = m.stack ∧
      (fs.foldl clearFrame m).keeper.pool = m.keeper.pool := by
    intro fs
    induction fs with
    | nil => exact fun m => ⟨rfl, rfl⟩
    | cons f rest ih =>
      intro m
      obtain ⟨stack, pool⟩ := ih (m.clearFrame f)
      rw [List.foldl_cons, stack, pool, clearFrame, stack_letGoAll, pool_letGoAll]
      exact ⟨rfl, rfl⟩
  rw [clearFrames, stack_letGoAll, pool_letGoAll, ← Array.foldl_toList]
  exact each frames.toList m

/-- A machine as the host has it between calls: a new one, or what the host made of one. -/
inductive Idle : Machine → Prop
  | new (settings : Settings) : Idle (.new settings)
  | invoke {env : Env} {fuel : Nat} {c : Callable} {args : List Value} {m m' : Machine}
      {result : Except Failure (Array Value)} (idle : Idle m)
      (ended : env.invoke fuel c args m = some (result, m')) : Idle m'
  | exec {env : Env} {fuel : Nat} {l : LambdaRef} {args : List Value} {m m' : Machine}
      {result : Except Failure (Array Value)} (idle : Idle m)
      (ended : env.exec fuel l args m = some (result, m')) : Idle m'
  | instantiate {env : Env} {fuel : Nat} {r : RecordRef} {m m' : Machine}
      {result : Except Failure InstanceRef} (idle : Idle m)
      (ended : env.instantiate fuel r m = some (result, m')) : Idle m'
  /-- A call of a callable on what is on the stack. -/
  | run {env : Env} {fuel : Nat} {c : Callable} {m m' : Machine} {outcome : Except Failure Unit}
      (idle : Idle m) (ended : env.run fuel ⟨[.call c], m⟩ = some (outcome, m')) : Idle m'
  /-- Work on the stack, or on anything else a native may ask for. -/
  | request {s : Store} {q : Request} {reply : q.Reply} {m m' : Machine} (idle : Idle m)
      (served : q.serve s (fun _ => []) m = .ok reply m') : Idle m'
  | reset {m : Machine} (idle : Idle m) : Idle m.reset.2
  | setMaxDepth {m : Machine} (idle : Idle m) (maxDepth : Nat) :
      Idle { m with stack := { m.stack with maxDepth } }
  /-- All else that the host can do leaves the stack alone and parks nothing but empty buffers. -/
  | other {m m' : Machine} (idle : Idle m) (same : m'.stack = m.stack)
      (parks : ∀ P, m.keeper.pool.All P → m'.keeper.pool.All P) : Idle m'

/-- Everything on the stack is in reach, and the buffers that are parked are empty. -/
structure Ready (m : Machine) : Prop where
  floor_eq : m.stack.floor = 0
  parked : m.keeper.pool.All fun _ => False

/-- The host may work on all of the stack. -/
theorem Ready.sound {m : Machine} (ready : m.Ready) (env : Env) :
    (Contract.beyond m 0 fun _ => False).Sound env m.stack.maxDepth m.stack.limits [] m :=
  Contract.sound_beyond env (Nat.zero_le _) (ready.floor_eq ▸ Nat.zero_le _) ready.parked

theorem ready_new (settings : Settings) : (Machine.new settings).Ready := by
  have empty : (({} : Pool).setLimit settings.poolLimit).All fun _ => False := by
    rw [Pool.setLimit]
    split <;> exact fun b parked => nomatch parked
  exact ⟨rfl, empty.take 0⟩

/-- A machine that the host made and worked with is ready for the next call. -/
theorem Idle.ready {m : Machine} (idle : m.Idle) : m.Ready := by
  -- nothing the host does moves the floor for good, and buffers are parked empty
  induction idle with
  | new settings => exact ready_new settings
  | @invoke env fuel c args m m' result _ ended ih =>
    have answered := (Contract.rests_whole ih.parked).invoke (Contract.covers_free _ _ _ env) rfl
      (fun v _ => Contract.fit_free _ _ _ v) (Contract.calls_free _ _ _ c) ended
    exact ⟨answered.stack ▸ ih.floor_eq, answered.rests.pool⟩
  | @exec env fuel l args m m' result _ ended ih =>
    have answered := (Contract.rests_whole ih.parked).exec (Contract.covers_free _ _ _ env) rfl
      (fun v _ => Contract.fit_free _ _ _ v) trivial ended
    exact ⟨answered.stack ▸ ih.floor_eq, answered.rests.pool⟩
  | @instantiate env fuel r m m' result _ ended ih =>
    have answered := (Contract.rests_whole ih.parked).instantiate (Contract.covers_free _ _ _ env) rfl
      trivial (ih.floor_eq ▸ Nat.zero_le _) ended
    exact ⟨answered.stack ▸ ih.floor_eq, answered.rests.pool⟩
  | @run env fuel c m m' outcome _ ended ih =>
    have inside := (ih.sound env).add (t := .call c) (Contract.base_beyond_zero_le _)
      (Contract.calls_free _ _ _ c) rfl rfl
    obtain ⟨-, back, -⟩ := inside.run_all (Contract.covers_free _ _ _ env) ended
    have limits := (back.restored (Nat.zero_le _)).limits
    exact ⟨(congrArg Stack.Limits.floor limits).trans ih.floor_eq, back.pool⟩
  | @request s q reply m m' _ served ih =>
    have answers := Request.obeys_serve s (fun _ => []) ((Contract.lenient_free _ _ _).allows q) m
      ⟨(ih.sound ⟨s, fun _ => .done ()⟩).toRests, Contract.base_beyond_zero_le _,
        ih.floor_eq ▸ Nat.zero_le _⟩
    rw [served] at answers
    exact ⟨answers.2.continues.stack.floor.trans ih.floor_eq, answers.2.holds.pool⟩
  | @reset m _ ih =>
    have parked : (m.cutStack 0).keeper.pool.All fun _ => False := by
      rw [pool_cutStack]
      exact ih.parked
    constructor
    · simp [Machine.reset, sweep, clearFrames_eq, settled, Stack.truncate, ih.floor_eq]
    · simp only [Machine.reset, sweep, clearFrames_eq]
      refine all_settle ?_ _
      exact parked
  | setMaxDepth _ maxDepth ih => exact ⟨ih.floor_eq, ih.parked⟩
  | other _ same parks ih => exact ⟨same ▸ ih.floor_eq, parks _ ih.parked⟩

end Machine

namespace Env

/-- Every call from the host leaves the stack as it was, limits included, whether it succeeds or
fails. What a callable or a lambda answers are the values it left above the stack there was, and the
instance the host is given is a new one of the record type it asked for. Between calls from the host the
floor is at the bottom of the stack (`Machine.Idle.ready`). -/
theorem host_calls_restore_stack (env : Env) (fuel : Nat) (m m' : Machine) :
    (∀ c args result, env.invoke fuel c args m = some (result, m') →
      m'.stack = m.stack ∧
        ∀ values, result = .ok values → env.Leaves fuel [.call c] args m values) ∧
    (∀ l args result, env.exec fuel l args m = some (result, m') →
      m'.stack = m.stack ∧
        ∀ values, result = .ok values → args.length = (env.store.lambda l).params ∧
          env.Leaves fuel [.call (.function m.heap.nextCallable l none)] args
            { m with heap := m.heap.takeNumber.2 } values) ∧
    ∀ r result, m.stack.floor ≤ m.stack.height → env.instantiate fuel r m = some (result, m') →
      m'.stack = m.stack ∧
        ∀ i, result = .ok i → ¬ m.heap.Has (.record i) ∧
          (∃ fields, m'.heap.instance? i = some ⟨r, fields⟩) ∧
          env.Leaves fuel [.construct r] [] m #[.record i] := by
  -- the contract that rules nothing out, with all of the stack out of reach
  have covers := Contract.covers_free m.stack.values m.globals (fun _ => True) env
  have fit := Contract.fit_free m.stack.values m.globals fun _ => True
  have rests := Contract.rests_whole m.keeper.pool.all_true
  refine ⟨?_, ?_, ?_⟩
  · intro c args result ended
    have answered := rests.invoke covers rfl (fun v _ => fit v) (Contract.calls_free _ _ _ c) ended
    exact ⟨answered.stack, fun values same => (answered.ok values same).1⟩
  · intro l args result ended
    have answered := rests.exec covers rfl (fun v _ => fit v) trivial ended
    refine ⟨answered.stack, fun values same => ?_⟩
    obtain ⟨length, leaves, -⟩ := answered.ok values same
    exact ⟨length, leaves⟩
  · intro r result floor_le ended
    have answered := rests.instantiate covers rfl trivial floor_le ended
    refine ⟨answered.stack, fun i same => ?_⟩
    obtain ⟨rfl, made, leaves⟩ := answered.ok i same
    exact ⟨Nat.lt_irrefl _, made, leaves⟩

/-- Code with a lambda that leaves two values and a record type whose initialiser does nothing. -/
def answering : Env where
  store :=
    { programs := #[some #[.intPush 7, .intPush 8], some #[]]
      lambdas :=
        #[{ code := ⟨0⟩, maxStack := 2, params := 0, vars := 0 },
          { code := ⟨1⟩, maxStack := 0, params := 1, vars := 1 }]
      records := #[{ size := 0, init := ⟨1⟩ }] }
  host _ := .done ()

/-- The answer of a call that succeeds, as a computation shows it. -/
theorem exists_of_any {ε α : Type} {x : Option (Except ε α × Machine)} {p : α → Bool}
    (found : (x.any fun ended => ended.1.toOption.any p) = true) :
    ∃ a m', x = some (.ok a, m') ∧ p a = true := by
  rcases x with _ | ⟨⟨f⟩ | ⟨a⟩, m'⟩
  · cases found
  · cases found
  · exact ⟨a, m', rfl, found⟩

/-- A call, a lambda that is run and an instance that is made, on a machine with one value on its
stack. -/
theorem host_calls_restore_stack_answering :
    let m : Machine := { stack := { values := #[.nil], maxDepth := 1 }, globals := ⟨0⟩ }
    (∃ values m', answering.invoke 9 (.function 5 ⟨0⟩ none) [] m = some (.ok values, m') ∧
      values.size = 2 ∧ m'.stack = m.stack) ∧
    (∃ values m', answering.exec 9 ⟨0⟩ [] m = some (.ok values, m') ∧
      values.size = 2 ∧ m'.stack = m.stack) ∧
    ∃ i m', answering.instantiate 9 ⟨0⟩ m = some (.ok i, m') ∧ i = ⟨0⟩ ∧ m'.stack = m.stack := by
  intro m
  have calls := fun m' => host_calls_restore_stack answering 9 m m'
  refine ⟨?_, ?_, ?_⟩
  · obtain ⟨values, m', ran, two⟩ := exists_of_any (p := (·.size = 2))
      (x := answering.invoke 9 (.function 5 ⟨0⟩ none) [] m) (by decide +kernel)
    exact ⟨values, m', ran, of_decide_eq_true two, ((calls m').1 _ _ _ ran).1⟩
  · obtain ⟨values, m', ran, two⟩ := exists_of_any (p := (·.size = 2))
      (x := answering.exec 9 ⟨0⟩ [] m) (by decide +kernel)
    exact ⟨values, m', ran, of_decide_eq_true two, ((calls m').2.1 _ _ _ ran).1⟩
  · obtain ⟨i, m', ran, first⟩ := exists_of_any (p := (· = ⟨0⟩))
      (x := answering.instantiate 9 ⟨0⟩ m) (by decide +kernel)
    exact ⟨i, m', ran, of_decide_eq_true first, ((calls m').2.2 _ _ (by decide) ran).1⟩

end Env

end PlotMachine
