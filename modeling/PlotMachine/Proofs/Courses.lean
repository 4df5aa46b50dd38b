import PlotMachine.Proofs.Level
import PlotMachine.Proofs.LibraryOnly

/-!
# The course that a run takes

`Env.Course` says how control moves in one step: which instruction takes an activation where, what an
instruction asks for before the activation can go on, which lambda is entered, and what is raised when
the step fails. `Env.course_step` goes through the steps once. What matters here is where a run can get
to, not what becomes of its values; the machine comes in only by its level of calls and by whether it is
stopped (`Machine.Level`, `Machine.Deeper`).

There are two ways for an instruction to move control elsewhere that do not exist on a machine that is
stopped: a jump that is taken (`Goes.jump`) and a call (`Asks.call`).
-/

namespace PlotMachine

namespace Machine

/-- In the second machine one more lambda is running than in the first one, which had room for it. It is
stopped if the first one is. -/
structure Deeper (m m' : Machine) : Prop where
  depth : m'.stack.depth = m.stack.depth + 1
  maxDepth : m'.stack.maxDepth = m.stack.maxDepth
  room : m.stack.depth < m.stack.maxDepth
  stopped : m.stopped = true → m'.stopped = true

/-- A lambda that is entered from the same level is as deep. -/
theorem Level.deeper {m m' m'' : Machine} (level : m.Level m') (deeper : m'.Deeper m'') :
    m.Deeper m'' where
  depth := by rw [deeper.depth, level.depth]
  maxDepth := by rw [deeper.maxDepth, level.maxDepth]
  room := by
    rw [← level.depth, ← level.maxDepth]
    exact deeper.room
  stopped stopped := deeper.stopped (level.stopped stopped)

/-- Leaving a lambda lowers no flag. -/
@[simp] theorem stopped_leave (a : Activation) (m : Machine) :
    (Env.leave a m).stopped = m.stopped := by
  simp only [Env.leave]
  split
  · rfl
  · rw [letGo_eq]
    rfl

/-- A lambda that is left gives back the level it was entered on. -/
theorem Deeper.leave {m m' m'' : Machine} (deeper : m.Deeper m') (level : m'.Level m'')
    (a : Activation) : m.Level (Env.leave a m'') where
  depth := by
    rw [Env.stack_leave]
    show m''.stack.depth - 1 = m.stack.depth
    rw [level.depth, deeper.depth, Nat.add_sub_cancel]
  maxDepth := by
    rw [Env.stack_leave]
    exact level.maxDepth.trans deeper.maxDepth
  stopped stopped := by
    rw [stopped_leave]
    exact level.stopped (deeper.stopped stopped)

end Machine

namespace Exec

variable {α : Type}

/-- The failure of a computation, if it fails. -/
def failure? (x : Exec α) (m : Machine) : Option Failure :=
  match x m with
  | .ok _ _ => none
  | .error f _ => some f

theorem failure?_of_error {x : Exec α} {m m' : Machine} {f : Failure}
    (failed : x m = .error f m') : x.failure? m = some f := by
  rw [failure?, failed]

end Exec

/-! ## Where instructions take a run -/

/-- An instruction may make the run go on in the given way. -/
inductive Flow.Of (home : ProgramRef) (m : Machine) : Instr → Flow → Prop
  | next (i : Instr) : Of home m i .next
  | goto {condition : JumpCondition} {target : Label} {offset : Nat} (free : m.stopped = false)
      (label : target.offsetIn home = .ok offset) : Of home m (.jump condition target) (.goto offset)
  | leave : Of home m .ret .leave
  | call (free : m.stopped = false) (c : Callable) : Of home m .popCall (.call c)
  | native (fn : Native) : Of home m (.builtin fn) (.native fn)
  | construct (r : RecordRef) : Of home m (.alloc r) (.construct r)

namespace Exec

variable {home : ProgramRef} {frame : FrameRef} {i : Instr} {m m' : Machine} {flow : Flow}

/-- What is only carried out if the machine is not stopped. -/
theorem free_of_poll {u : Unit} (done : poll m = .ok u m') : m.stopped = false ∧ m' = m := by
  rw [poll] at done
  split at done
  · cases done
  · next free =>
    cases done
    exact ⟨Bool.eq_false_iff.2 free, rfl⟩

/-- An instruction that only works on the machine is followed by the next one. -/
theorem flow_of_next {x : Exec Unit} {n : Machine} (i : Instr)
    (done : (do x; return .next : Exec Flow) n = .ok flow m') : Flow.Of home m i flow := by
  obtain ⟨_, _, -, next⟩ := exists_of_bind_eq_ok done
  cases next
  exact .next i

/-- Jumps, calls, natives, instances and returns are all that makes a run go on elsewhere than at the
next instruction. -/
theorem flow_of_perform (done : perform home frame i m = .ok flow m') : Flow.Of home m i flow := by
  cases i with
  | pop =>
    simp only [perform, taking] at done
    split at done
    · cases done
      exact .next _
    · cases done
  | builtin fn =>
    cases done
    exact .native fn
  | jump condition target =>
    obtain ⟨_, _, polled, done⟩ := exists_of_bind_eq_ok done
    obtain ⟨offset, _, label, done⟩ := exists_of_bind_eq_ok done
    obtain ⟨taken, _, -, done⟩ := exists_of_bind_eq_ok done
    cases taken with
    | false =>
      cases done
      exact .next _
    | true =>
      cases done
      cases found : target.offsetIn home with
      | error f =>
        rw [found] at label
        cases label
      | ok offset' =>
        rw [found] at label
        cases label
        exact .goto (free_of_poll polled).1 found
  | popCall =>
    obtain ⟨_, _, polled, done⟩ := exists_of_bind_eq_ok done
    obtain ⟨c, _, -, done⟩ := exists_of_bind_eq_ok done
    cases done
    exact .call (free_of_poll polled).1 c
  | makeFunc body =>
    obtain ⟨closure, _, -, done⟩ := exists_of_bind_eq_ok done
    obtain ⟨c, _, -, done⟩ := exists_of_bind_eq_ok done
    exact flow_of_next _ done
  | pushClosure =>
    obtain ⟨_, _, -, done⟩ := exists_of_bind_eq_ok done
    exact flow_of_next _ done
  | ret =>
    cases done
    exact .leave
  | alloc record =>
    cases done
    exact .construct record
  | _ => exact flow_of_next _ done

end Exec

/-! ## Steps -/

/-- A task that handles no failure, and that calls nothing if it is a native. -/
def Task.Quiet : Task → Prop
  | .native r _ => r.Plain
  | .handler .. => False
  | _ => True

namespace Env

/-- What an instruction asks for on a machine before its activation can go on. -/
inductive Asks (env : Env) (m : Machine) : Instr → Task → Prop
  | call (free : m.stopped = false) (c : Callable) : Asks env m .popCall (.call c)
  | native (fn : Native) : Asks env m (.builtin fn) (.native (env.routine fn) [])
  | construct (r : RecordRef) : Asks env m (.alloc r) (.construct r)

/-- The failure that the first task raises at a point of a run, before anything is made of it. -/
def raised? (env : Env) (c : Config) : Option Failure :=
  match c.tasks with
  | .call callee :: rest => (env.call rest callee).failure? c.machine
  | .native r taken :: rest =>
    match r.advance env.store (held rest) taken c.machine with
    | (.failed f, _) => some f
    | _ => none
  | .body a :: rest =>
    match (env.store.body a.lambda)[a.offset]? with
    | some i => (env.instruction rest a i).failure? c.machine
    | none => none
  | .construct r :: rest => (env.construct rest r).failure? c.machine
  | .constructed i base :: _ => (Exec.push (.record i)).failure? (c.machine.cutStack base)
  | _ => none

/-- The point of a run that a step which does not fail leads to. -/
inductive Goes (env : Env) : Config → Config → Prop
  /-- A thunk hands over its argument. -/
  | unwrap {id : Nat} {func : Callable} {arg : Value} {rest : List Task} {m m' : Machine}
      (level : m.Level m') : Goes env ⟨.call (.thunk id func arg) :: rest, m⟩ ⟨.call func :: rest, m'⟩
  | native (id : Nat) (fn : Native) (rest : List Task) (m : Machine) :
      Goes env ⟨.call (.native id fn) :: rest, m⟩ ⟨.native (env.routine fn) [] :: rest, m⟩
  | function {id : Nat} {l : LambdaRef} {closure : Option FrameRef} {rest : List Task}
      {a : Activation} {m m' : Machine} (enters : a.lambda = l) (deeper : m.Deeper m') :
      Goes env ⟨.call (.function id l closure) :: rest, m⟩ ⟨.body a :: rest, m'⟩
  | construct {r : RecordRef} {i : InstanceRef} {base : Nat} {rest : List Task} {a : Activation}
      {m m' : Machine} (enters : a.lambda = (env.store.record r).init) (deeper : m.Deeper m') :
      Goes env ⟨.construct r :: rest, m⟩ ⟨.body a :: .constructed i base :: rest, m'⟩
  | constructed {i : InstanceRef} {base : Nat} {rest : List Task} {m m' : Machine}
      (level : m.Level m') : Goes env ⟨.constructed i base :: rest, m⟩ ⟨rest, m'⟩
  | done {r : Routine Unit} {taken : List Value} {rest : List Task} {m m' : Machine}
      (level : m.Level m') : Goes env ⟨.native r taken :: rest, m⟩ ⟨rest, m'⟩
  | calling {r : Routine Unit} {taken taken' : List Value} {c : Callable}
      {next : Except Failure Unit → Routine Unit} {rest : List Task} {m m' : Machine}
      (calls : ¬ r.Plain) (level : m.Level m') :
      Goes env ⟨.native r taken :: rest, m⟩ ⟨.call c :: .handler taken' next :: rest, m'⟩
  | handled (taken : List Value) (next : Except Failure Unit → Routine Unit) (rest : List Task)
      (m : Machine) :
      Goes env ⟨.handler taken next :: rest, m⟩ ⟨.native (next (.ok ())) taken :: rest, m⟩
  | next {a : Activation} {i : Instr} {rest : List Task} {m m' : Machine}
      (found : (env.store.body a.lambda)[a.offset]? = some i) (level : m.Level m') :
      Goes env ⟨.body a :: rest, m⟩ ⟨.body { a with offset := a.offset + 1 } :: rest, m'⟩
  | jump {a : Activation} {condition : JumpCondition} {target : Label} {offset : Nat}
      {rest : List Task} {m m' : Machine}
      (found : (env.store.body a.lambda)[a.offset]? = some (.jump condition target))
      (free : m.stopped = false)
      (label : target.offsetIn (env.store.lambda a.lambda).code = .ok offset) (level : m.Level m') :
      Goes env ⟨.body a :: rest, m⟩ ⟨.body { a with offset } :: rest, m'⟩
  /-- An activation waits for what its instruction asks for. -/
  | wait {a : Activation} {i : Instr} {t : Task} {callee : Option Callable} {rest : List Task}
      {m m' : Machine} (found : (env.store.body a.lambda)[a.offset]? = some i)
      (asks : env.Asks m i t) (level : m.Level m') :
      Goes env ⟨.body a :: rest, m⟩ ⟨t :: .waiting a callee :: rest, m'⟩
  | leave {a : Activation} {rest : List Task} {m m' : Machine} (level : m.Level m') :
      Goes env ⟨.body a :: rest, m⟩ ⟨rest, leave a m'⟩
  | resume {a : Activation} {callee : Option Callable} {rest : List Task} {m m' : Machine}
      (level : m.Level m') :
      Goes env ⟨.waiting a callee :: rest, m⟩ ⟨.body { a with offset := a.offset + 1 } :: rest, m'⟩

/-- What a step from a point of a run leads to. -/
inductive Course (env : Env) : Config → Status → Prop
  | halt (m : Machine) : Course env ⟨[], m⟩ (.halted (.ok ()) m)
  | goes {c c' : Config} (goes : env.Goes c c') : Course env c (.running c')
  /-- A task of no activation fails. -/
  | fail {t : Task} {rest : List Task} {m m' : Machine} {f : Failure} (plain : t.activation? = none)
      (raised : env.raised? ⟨t :: rest, m⟩ = some f) (unlocated : t.Quiet → f.position = none)
      (level : m.Level m') : Course env ⟨t :: rest, m⟩ (env.unwind f rest m')
  /-- An activation fails. -/
  | failIn {a : Activation} {rest : List Task} {m m' : Machine} {f : Failure}
      (raised : env.raised? ⟨.body a :: rest, m⟩ = some f) (unlocated : f.position = none)
      (level : m.Level m') : Course env ⟨.body a :: rest, m⟩ (env.unwind f (.body a :: rest) m')

variable {env : Env} {rest : List Task} {m m' : Machine}

/-- Entering a lambda does not touch the flag. -/
theorem interrupt_enter {tasks : List Task} {l : LambdaRef} {closure : Option FrameRef}
    {a : Activation} (entered : env.enter tasks l closure m = .ok a m') :
    m'.interrupt = m.interrupt := by
  have settled : (m.settle (held tasks)).interrupt = m.interrupt := by
    rw [Machine.settle]
    split <;> rfl
  simp only [enter] at entered
  split at entered
  · cases entered
  · cases entered
    exact settled

/-- A lambda that is entered is one level deeper. -/
theorem deeper_enter {tasks : List Task} {l : LambdaRef} {closure : Option FrameRef}
    {a : Activation} (entered : env.enter tasks l closure m = .ok a m') :
    a.lambda = l ∧ m.Deeper m' := by
  have does := entered_of_enter entered
  refine ⟨by rw [does.activation], ?_, ?_, does.depth, ?_⟩
  · rw [does.stack]
  · rw [does.stack]
    rfl
  · rw [Machine.stopped, Machine.stopped, interrupt_enter entered]
    exact id

/-- A lambda that cannot be entered leaves the machine as it was. -/
theorem level_of_enter_eq_error {tasks : List Task} {l : LambdaRef} {closure : Option FrameRef}
    {f : Failure} (failed : env.enter tasks l closure m = .error f m') :
    f.position = none ∧ m.Level m' := by
  obtain ⟨rfl, fault, rfl, -⟩ := enter_eq_error failed
  exact ⟨rfl, .refl _⟩

/-- A task of no activation is carried out. -/
theorem course_proceed {t : Task} {x : Exec (List Task)} (plain : t.activation? = none)
    (raises : env.raised? ⟨t :: rest, m⟩ = x.failure? m)
    (fails : ∀ f m', x m = .error f m' → f.position = none ∧ m.Level m')
    (goes : ∀ ts m', x m = .ok ts m' → env.Goes ⟨t :: rest, m⟩ ⟨ts, m'⟩) :
    env.Course ⟨t :: rest, m⟩ (env.proceed rest x m) := by
  rw [proceed]
  cases result : x m with
  | ok ts m' => exact .goes (goes ts m' result)
  | error f m' =>
    obtain ⟨unlocated, level⟩ := fails f m' result
    rw [Exec.failure?_of_error result] at raises
    exact .fail plain raises (fun _ => unlocated) level

/-- A call starts. -/
theorem course_call (env : Env) (rest : List Task) (c : Callable) (m : Machine) :
    env.Course ⟨.call c :: rest, m⟩ (env.proceed rest (env.call rest c) m) := by
  apply course_proceed rfl rfl
  · intro f m' failed
    cases c with
    | function id l closure =>
      obtain failed | ⟨_, _, -, failed⟩ := Exec.error_of_bind_eq_error failed
      · exact level_of_enter_eq_error failed
      · cases failed
    | native id fn => cases failed
    | thunk id func arg =>
      obtain failed | ⟨_, _, -, failed⟩ := Exec.error_of_bind_eq_error failed
      · exact (Exec.stays_push arg).error failed
      · cases failed
    | undefined => exact (Exec.stays_fault _).error failed
  · intro ts m' called
    cases c with
    | function id l closure =>
      obtain ⟨a, _, entered, done⟩ := Exec.exists_of_bind_eq_ok called
      cases done
      obtain ⟨enters, deeper⟩ := deeper_enter entered
      exact .function enters deeper
    | native id fn =>
      cases called
      exact .native id fn rest m
    | thunk id func arg =>
      obtain ⟨_, _, pushed, done⟩ := Exec.exists_of_bind_eq_ok called
      cases done
      exact .unwrap ((Exec.stays_push arg).ok pushed)
    | undefined => cases called

/-- An instance is made and its initialiser is entered. -/
theorem course_construct (env : Env) (rest : List Task) (r : RecordRef) (m : Machine) :
    env.Course ⟨.construct r :: rest, m⟩ (env.proceed rest (env.construct rest r) m) := by
  apply course_proceed rfl rfl
  · intro f m' failed
    rw [construct_eq] at failed
    split at failed
    · dsimp only at failed
      generalize same : m.heap.addInstance r (env.store.record r).size = made at failed
      have added : m.Level { m with heap := made.2 } := ⟨rfl, rfl, id⟩
      split at failed
      · next n pushed =>
        split at failed
        · cases failed
        · next f' n' entering =>
          cases failed
          obtain ⟨unlocated, level⟩ := level_of_enter_eq_error entering
          exact ⟨unlocated, (added.trans ((Exec.stays_push _).ok pushed)).trans level⟩
      · next f' n pushing =>
        cases failed
        obtain ⟨unlocated, level⟩ := (Exec.stays_push (R := Machine.Level) _).error pushing
        exact ⟨unlocated, added.trans level⟩
    · cases failed
      exact ⟨rfl, .refl m⟩
  · intro ts m' made
    rw [construct_eq] at made
    split at made
    · dsimp only at made
      generalize same : m.heap.addInstance r (env.store.record r).size = added at made
      have level : m.Level { m with heap := added.2 } := ⟨rfl, rfl, id⟩
      split at made
      · next n pushed =>
        split at made
        · next a n' entered =>
          cases made
          obtain ⟨enters, deeper⟩ := deeper_enter entered
          exact .construct enters ((level.trans ((Exec.stays_push _).ok pushed)).deeper deeper)
        · cases made
      · cases made
    · cases made

/-- A native goes on to its end, to a failure or to a call. -/
theorem course_native (env : Env) (rest : List Task) (r : Routine Unit) (taken : List Value)
    (m : Machine) :
    env.Course ⟨.native r taken :: rest, m⟩ (env.step ⟨.native r taken :: rest, m⟩) := by
  have ends : r.Plain → Routine.Over (r.advance env.store (held rest) taken m).1 :=
    fun plain => plain.over_advance env.store (held rest) taken m
  have level : m.Level _ := r.stays_advance env.store (held rest) taken m
  rw [step]
  dsimp only
  split
  · next u m' result =>
    rw [result] at level
    exact .goes (.done level)
  · next f m' result =>
    rw [result] at ends level
    refine .fail rfl (by simp only [raised?, result]) (fun plain => ?_) level
    cases ends plain with
    | failed unlocated => exact unlocated
  · next c taken' next m' result =>
    rw [result] at ends level
    refine .goes (.calling (fun plain => ?_) level)
    cases ends plain

/-- An instruction is carried out. -/
theorem course_instruction (env : Env) (rest : List Task) {a : Activation} {i : Instr}
    (found : (env.store.body a.lambda)[a.offset]? = some i) (m : Machine) :
    env.Course ⟨.body a :: rest, m⟩
      (env.proceed (.body a :: rest) (env.instruction rest a i) m) := by
  have performs : Exec.Stays Machine.Level _ :=
    Exec.stays_perform (env.store.lambda a.lambda).code a.frame i
  rw [proceed]
  cases result : env.instruction rest a i m with
  | error f m' =>
    have raised : env.raised? ⟨.body a :: rest, m⟩ = some f := by
      simp only [raised?, found]
      exact Exec.failure?_of_error result
    obtain failed | ⟨flow, n, performed, failed⟩ := Exec.error_of_bind_eq_error result
    · obtain ⟨unlocated, level⟩ := performs.error failed
      exact .failIn raised unlocated level
    · have level := performs.ok performed
      cases flow with
      | goto offset =>
        dsimp only at failed
        split at failed
        · cases failed
        · cases failed
          exact .failIn raised rfl level
      | _ => cases failed
  | ok ts m' =>
    obtain ⟨flow, n, performed, done⟩ := Exec.exists_of_bind_eq_ok result
    have level := performs.ok performed
    apply Course.goes
    cases Exec.flow_of_perform performed with
    | next =>
      cases done
      exact .next found level
    | goto free label =>
      dsimp only at done
      split at done
      · cases done
        exact .jump found free label level
      · cases done
    | leave =>
      cases done
      exact .leave level
    | call free c =>
      cases done
      exact .wait found (.call free c) level
    | native fn =>
      cases done
      exact .wait found (.native fn) level
    | construct r =>
      cases done
      exact .wait found (.construct r) level

/-- An instance whose initialiser is done is pushed. -/
theorem course_constructed (env : Env) (rest : List Task) (i : InstanceRef) (base : Nat)
    (m : Machine) :
    env.Course ⟨.constructed i base :: rest, m⟩ (env.step ⟨.constructed i base :: rest, m⟩) := by
  have cut : m.Level (m.cutStack base) := Machine.Permits.cutStack m base
  let pushes : Exec (List Task) := Exec.push (.record i) >>= fun _ => pure rest
  show env.Course ⟨.constructed i base :: rest, m⟩
    (env.proceed rest (fun m => pushes (m.cutStack base)) m)
  apply course_proceed rfl
  · simp only [raised?, Exec.failure?, pushes, Bind.bind, EStateM.bind]
    cases Exec.push (.record i) (m.cutStack base) <;> rfl
  · intro f m' failed
    obtain failed | ⟨_, _, -, failed⟩ := Exec.error_of_bind_eq_error failed
    · obtain ⟨unlocated, level⟩ := (Exec.stays_push (R := Machine.Level) _).error failed
      exact ⟨unlocated, cut.trans level⟩
    · cases failed
  · intro ts m' done
    obtain ⟨_, _, pushed, done⟩ := Exec.exists_of_bind_eq_ok done
    cases done
    exact .constructed (cut.trans ((Exec.stays_push _).ok pushed))

/-- Every step takes one of these courses. -/
theorem course_step (env : Env) (c : Config) : env.Course c (env.step c) := by
  obtain ⟨tasks, m⟩ := c
  cases tasks with
  | nil => exact .halt m
  | cons t rest =>
    cases t with
    | call c => exact course_call env rest c m
    | native r taken => exact course_native env rest r taken m
    | handler taken next => exact .goes (.handled taken next rest m)
    | body a =>
      rw [step]
      dsimp only
      split
      · next i found => exact course_instruction env rest found m
      · exact .goes (.leave (.refl m))
    | waiting a callee => exact .goes (.resume (.finish (.refl m) callee))
    | construct r => exact course_construct env rest r m
    | constructed i base => exact course_constructed env rest i base m

/-- A step that does not fail lowers no flag. -/
theorem stopped_of_goes {c c' : Config} (goes : env.Goes c c') (stopped : c.machine.stopped = true) :
    c'.machine.stopped = true := by
  cases goes with
  | native | handled => exact stopped
  | function _ deeper | construct _ deeper => exact deeper.stopped stopped
  | leave level =>
    rw [Machine.stopped_leave]
    exact level.stopped stopped
  | unwrap level | constructed level | done level | calling _ level | next _ level
  | jump _ _ _ level | wait _ _ level | resume level => exact level.stopped stopped

/-- A failure that is handled lowers no flag on its way. -/
theorem stopped_of_unwind {f : Failure} {tasks : List Task} {c : Config}
    (stopped : m.stopped = true) (handled : env.unwind f tasks m = .running c) :
    c.machine.stopped = true := by
  induction tasks generalizing f m with
  | nil => cases handled
  | cons t rest ih =>
    have left : ∀ a n, m.Level n → (leave a n).stopped = true := by
      intro a n level
      rw [Machine.stopped_leave]
      exact level.stopped stopped
    cases t with
    | handler taken next =>
      cases handled
      exact stopped
    | body a => exact ih (left a m (.refl m)) handled
    | waiting a callee => exact ih (left a _ (.finish (.refl m) callee)) handled
    | constructed i base => exact ih (((Machine.Level.refl m).letGo _).stopped stopped) handled
    | call c => exact ih stopped handled
    | native r taken => exact ih stopped handled
    | construct r => exact ih stopped handled

/-- Once stopped, a machine stays stopped, whatever the code and the natives do. -/
theorem stopped_of_step {c c' : Config} (stopped : c.machine.stopped = true)
    (next : env.step c = .running c') : c'.machine.stopped = true := by
  have course := env.course_step c
  generalize status : env.step c = s at course next
  cases course with
  | halt => cases next
  | goes goes =>
    cases next
    exact stopped_of_goes goes stopped
  | fail _ _ _ level => exact stopped_of_unwind (level.stopped stopped) next
  | failIn _ _ level => exact stopped_of_unwind (level.stopped stopped) next

theorem stopped_of_steps {c c' : Config} (stopped : c.machine.stopped = true)
    (later : env.Steps c c') : c'.machine.stopped = true := by
  induction later with
  | refl => exact stopped
  | tail _ next ih => exact stopped_of_step ih next

/-! ## Runs whose natives call nothing

No failure is handled in such a run: a task that handles one waits for what a native called. -/

/-- The natives that come up in a run call nothing. -/
def Calm (env : Env) (c : Config) : Prop :=
  ∀ d fn, env.Steps c d → d.Starts env fn → (env.routine fn).Plain

section Calm

variable {c c' : Config}

theorem Calm.step (calm : env.Calm c) (next : env.step c = .running c') : env.Calm c' :=
  fun d fn later => calm d fn (.head next later)

/-- Calls that use the native library only are calm. -/
theorem calm_of_sound {bottom : Array Value} {globals : FrameRef} {maxDepth : Nat}
    {outer : Stack.Limits} (code : ∀ p, ∀ i ∈ env.store.code p, i.OnLibrary)
    (sound : (Contract.library bottom globals).Sound env maxDepth outer c.tasks c.machine) :
    env.Calm c := by
  intro d fn later starts
  have known := isLibrary_of_sound code sound later starts
  obtain ⟨intrinsic, same⟩ := Native.exists_intrinsic known env
  rw [same]
  exact intrinsic.plain_routine

/-- A failure that no task handles passes the activations on its way out and ends the run. -/
theorem unwind_quiet (env : Env) {tasks : List Task} (quiet : ∀ t ∈ tasks, t.Quiet) (f : Failure)
    (m : Machine) : ∃ m', env.unwind f tasks m =
      .halted (.error (((tasks.filterMap Task.activation?).map env.position).foldl
        Failure.locate f)) m' := by
  induction tasks generalizing f m with
  | nil => exact ⟨m, rfl⟩
  | cons t rest ih =>
    obtain ⟨here, below⟩ := List.forall_mem_cons.1 quiet
    cases t with
    | handler taken next => exact here.elim
    | body a => exact ih below (f.locate (env.position a)) _
    | waiting a callee => exact ih below (f.locate (env.position a)) _
    | constructed i base => exact ih below f _
    | call c => exact ih below f m
    | native r taken => exact ih below f m
    | construct r => exact ih below f m

/-- A run that goes on did not fail, since no task handles failures. -/
theorem goes_of_step (quiet : ∀ t ∈ c.tasks, t.Quiet) (next : env.step c = .running c') :
    env.Goes c c' := by
  have course := env.course_step c
  rw [next] at course
  generalize status : Status.running c' = s at course
  cases course with
  | halt => cases status
  | goes goes =>
    cases status
    exact goes
  | @fail _ _ _ m' f =>
    obtain ⟨_, halts⟩ := env.unwind_quiet (List.forall_mem_cons.1 quiet).2 f m'
    rw [halts] at status
    cases status
  | @failIn _ _ _ m' f =>
    obtain ⟨_, halts⟩ := env.unwind_quiet quiet f m'
    rw [halts] at status
    cases status

/-- A step that does not fail leaves no task that handles failures. -/
theorem quiet_of_goes (calm : env.Calm c) (quiet : ∀ t ∈ c.tasks, t.Quiet)
    (goes : env.Goes c c') : ∀ t ∈ c'.tasks, t.Quiet := by
  have plain : ∀ fn, c.Starts env fn → (env.routine fn).Plain := fun fn => calm c fn (.refl c)
  cases goes with
  | calling calls =>
    obtain ⟨native, -⟩ := List.forall_mem_cons.1 quiet
    exact absurd native calls
  | handled => exact (List.forall_mem_cons.1 quiet).1.elim
  | native id fn rest m =>
    exact List.forall_mem_cons.2 ⟨plain fn (.call id rest m), (List.forall_mem_cons.1 quiet).2⟩
  | @wait a i t callee rest m m' found asks =>
    have asked : t.Quiet := by
      cases asks with
      | native fn => exact plain fn (.builtin found rest m)
      | _ => trivial
    have waits : Task.Quiet (.waiting a callee) := trivial
    have below := (List.forall_mem_cons.1 quiet).2
    exact List.forall_mem_cons.2 ⟨asked, List.forall_mem_cons.2 ⟨waits, below⟩⟩
  | construct =>
    have below := (List.forall_mem_cons.1 quiet).2
    exact List.forall_mem_cons.2 ⟨trivial, List.forall_mem_cons.2 ⟨trivial, below⟩⟩
  | constructed | done | leave => exact (List.forall_mem_cons.1 quiet).2
  | unwrap | function | next | jump | resume =>
    exact List.forall_mem_cons.2 ⟨trivial, (List.forall_mem_cons.1 quiet).2⟩

/-- No task handles failures at any point of a run that starts without such a task. -/
theorem quiet_of_steps (calm : env.Calm c) (quiet : ∀ t ∈ c.tasks, t.Quiet)
    (later : env.Steps c c') : ∀ t ∈ c'.tasks, t.Quiet := by
  induction later using Relation.ReflTransGen.head_induction_on with
  | refl => exact quiet
  | head next _ ih =>
    exact ih (calm.step next) (quiet_of_goes calm quiet (goes_of_step quiet next))

end Calm

end Env

end PlotMachine
