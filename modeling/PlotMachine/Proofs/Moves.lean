import PlotMachine.Proofs.Changes
import PlotMachine.Proofs.Entering
import PlotMachine.Proofs.Steps

/-!
# What one step of a run does

`Env.Move` says all that a step can do, in terms of the tasks and of the changes to the machine. A
step works on the first task and leaves those below it alone. It makes changes, and then it puts
tasks in the place of the first one, enters a lambda, leaves one, or unwinds the tasks with a
failure.

`Env.move_step` goes through the kinds of tasks once. What is to be known of all steps, whatever the
code, follows from it by cases on the move.
-/

namespace PlotMachine

/-- A task that belongs to no activation. -/
def Task.Plain (t : Task) : Prop := t.activation? = none

/-- The activations are of one call: they have the same frame and the same caller. -/
structure Activation.Same (a b : Activation) : Prop where
  frame : b.frame = a.frame
  callerFloor : b.callerFloor = a.callerFloor
  callerCeiling : b.callerCeiling = a.callerCeiling

namespace Env

/-- What a step from a point of a run leads to. -/
inductive Move (env : Env) : Config → Status → Prop
  /-- Nothing remains to be done. -/
  | halt (m : Machine) : Move env ⟨[], m⟩ (.halted (.ok ()) m)
  /-- A task of no activation goes on as others. -/
  | work {t : Task} {us rest : List Task} {m m' : Machine} (plain : t.Plain)
      (plain' : ∀ u ∈ us, u.Plain) (changes : m.Changes m') :
      Move env ⟨t :: rest, m⟩ (.running ⟨us ++ rest, m'⟩)
  /-- An activation goes on, or waits for the tasks `us`. -/
  | goOn {t u : Task} {a b : Activation} {us rest : List Task} {m m' : Machine}
      (belongs : t.activation? = some a) (belongs' : u.activation? = some b) (same : a.Same b)
      (plain : ∀ u ∈ us, u.Plain) (changes : m.Changes m') :
      Move env ⟨t :: rest, m⟩ (.running ⟨us ++ u :: rest, m'⟩)
  /-- A lambda is entered, above tasks that wait for it. -/
  | enter {t : Task} {us rest : List Task} {l : LambdaRef} {closure : Option FrameRef}
      {a : Activation} {m m' m'' : Machine} (plain : t.Plain) (plain' : ∀ u ∈ us, u.Plain)
      (changes : m.Changes m') (entered : env.enter (us ++ rest) l closure m' = .ok a m'') :
      Move env ⟨t :: rest, m⟩ (.running ⟨.body a :: (us ++ rest), m''⟩)
  /-- A lambda is left. -/
  | leave {t : Task} {a : Activation} {rest : List Task} {m m' : Machine}
      (belongs : t.activation? = some a) (changes : m.Changes m') :
      Move env ⟨t :: rest, m⟩ (.running ⟨rest, leave a m'⟩)
  /-- A task of no activation fails. -/
  | fail {t : Task} {rest : List Task} {m m' : Machine} (f : Failure) (plain : t.Plain)
      (changes : m.Changes m') : Move env ⟨t :: rest, m⟩ (env.unwind f rest m')
  /-- An activation fails. -/
  | failIn {a : Activation} {rest : List Task} {m m' : Machine} (f : Failure)
      (changes : m.Changes m') : Move env ⟨.body a :: rest, m⟩ (env.unwind f (.body a :: rest) m')

variable {env : Env} {t : Task} {us rest : List Task} {m m' : Machine}

/-- A task of no activation goes on as another one. -/
theorem move_one {u : Task} (plain : t.Plain) (plain' : u.Plain) (changes : m.Changes m') :
    env.Move ⟨t :: rest, m⟩ (.running ⟨u :: rest, m'⟩) :=
  .work plain (List.forall_mem_singleton.2 plain') changes

/-- An activation goes on at some offset. -/
theorem move_to {a : Activation} (belongs : t.activation? = some a) (changes : m.Changes m')
    (offset : Nat) : env.Move ⟨t :: rest, m⟩ (.running ⟨.body { a with offset } :: rest, m'⟩) := by
  have same : a.Same { a with offset } := ⟨rfl, rfl, rfl⟩
  exact .goOn belongs rfl same (List.forall_mem_nil Task.Plain) changes

/-- A computation goes on with tasks of no activation, or it fails. -/
theorem move_proceed {x : Exec (List Task)} (plain : t.Plain) (stays : x.Stays Machine.Changes)
    (next : ∀ ts m', x m = .ok ts m' → ∃ us, ts = us ++ rest ∧ ∀ u ∈ us, u.Plain) :
    env.Move ⟨t :: rest, m⟩ (env.proceed rest x m) := by
  have changes := stays.after m
  rw [proceed]
  cases result : x m with
  | ok ts m' =>
    rw [Exec.after_of_ok result] at changes
    obtain ⟨us, rfl, plain'⟩ := next ts m' result
    exact .work plain plain' changes
  | error f m' =>
    rw [Exec.after_of_error result] at changes
    exact .fail f plain changes

/-- A lambda is entered, or it cannot be entered and the tasks below fail. -/
theorem move_enter (plain : t.Plain) (plain' : ∀ u ∈ us, u.Plain) (changes : m.Changes m')
    (l : LambdaRef) (closure : Option FrameRef) :
    env.Move ⟨t :: rest, m⟩
      (match env.enter (us ++ rest) l closure m' with
      | .ok a m'' => .running ⟨.body a :: (us ++ rest), m''⟩
      | .error f m'' => env.unwind f rest m'') := by
  split
  · next a m'' entered => exact .enter plain plain' changes entered
  · next f m'' failed =>
    obtain ⟨rfl, -⟩ := enter_eq_error failed
    exact .fail f plain changes

/-- A call starts: a lambda is entered, a native is up next, a thunk hands over its argument. -/
theorem move_call (env : Env) (rest : List Task) (c : Callable) (m : Machine) :
    env.Move ⟨.call c :: rest, m⟩ (env.proceed rest (env.call rest c) m) := by
  have plain : (Task.call c).Plain := rfl
  cases c with
  | function id body closure =>
    have entering : env.Move ⟨_ :: rest, m⟩ _ :=
      move_enter plain (List.forall_mem_nil Task.Plain) (.refl m) body closure
    simp only [proceed, call, Bind.bind, EStateM.bind]
    rw [List.nil_append] at entering
    cases result : env.enter rest body closure m with
    | ok a m' =>
      rw [result] at entering
      exact entering
    | error f m' =>
      rw [result] at entering
      exact entering
  | native id fn => exact move_one plain rfl (.refl m)
  | thunk id func arg =>
    have stays : (env.call rest (.thunk id func arg)).Stays Machine.Changes :=
      (Exec.stays_push arg).bind fun _ => Exec.stays_pure (.call func :: rest)
    refine move_proceed plain stays fun ts m' result => ?_
    obtain ⟨_, _, -, done⟩ := Exec.exists_of_bind_eq_ok result
    cases done
    exact ⟨[.call func], rfl, List.forall_mem_singleton.2 rfl⟩
  | undefined =>
    refine move_proceed plain (Exec.stays_fault _) fun ts m' result => ?_
    cases result

/-- An instance is made and its initialiser is entered. -/
theorem move_construct (env : Env) (rest : List Task) (r : RecordRef) (m : Machine) :
    env.Move ⟨.construct r :: rest, m⟩ (env.proceed rest (env.construct rest r) m) := by
  have plain : (Task.construct r).Plain := rfl
  rw [proceed, construct_eq]
  by_cases one : (env.store.lambda (env.store.record r).init).params = 1
  · rw [if_pos one]
    dsimp only
    generalize same : m.heap.addInstance r (env.store.record r).size = made
    have added : m.Changes { m with heap := made.2 } := by
      rw [← same]
      exact .of_change (.heap (.addInstance m.heap r _))
    have pushed : Machine.Changes _ _ := (Exec.stays_push (.record made.1)).after { m with heap := made.2 }
    cases result : Exec.push (.record made.1) { m with heap := made.2 } with
    | error f m' =>
      rw [Exec.after_of_error result] at pushed
      exact .fail f plain (added.trans pushed)
    | ok u m' =>
      rw [Exec.after_of_ok result] at pushed
      have waits : ∀ u ∈ [Task.constructed made.1 m.stack.height], u.Plain :=
        List.forall_mem_singleton.2 rfl
      have entering : env.Move ⟨_ :: rest, m⟩ _ :=
        move_enter plain waits (added.trans pushed) (env.store.record r).init none
      rw [List.singleton_append] at entering
      dsimp only
      cases result' : env.enter (.constructed made.1 m.stack.height :: rest)
          (env.store.record r).init none m' with
      | ok a m'' =>
        rw [result'] at entering
        exact entering
      | error f m'' =>
        rw [result'] at entering
        exact entering
  · rw [if_neg one]
    exact .fail _ plain (.refl m)

/-- A native goes on to its end, to a failure or to a call. -/
theorem move_native (env : Env) (rest : List Task) (r : Routine Unit) (taken : List Value)
    (m : Machine) :
    env.Move ⟨.native r taken :: rest, m⟩ (env.step ⟨.native r taken :: rest, m⟩) := by
  have plain : (Task.native r taken).Plain := rfl
  have changes : m.Changes _ := r.stays_advance env.store (held rest) taken m
  rw [step]
  dsimp only
  split
  · next u m' result =>
    rw [result] at changes
    exact .work plain (List.forall_mem_nil Task.Plain) changes
  · next f m' result =>
    rw [result] at changes
    exact .fail f plain changes
  · next callee taken' next m' result =>
    rw [result] at changes
    have waits : ∀ u ∈ [Task.call callee, .handler taken' next], u.Plain := by
      simp [Task.Plain, Task.activation?]
    exact .work plain waits changes

/-- An instruction is carried out. -/
theorem move_instruction (env : Env) (rest : List Task) (a : Activation) (i : Instr) (m : Machine) :
    env.Move ⟨.body a :: rest, m⟩
      (env.proceed (.body a :: rest) (env.instruction rest a i) m) := by
  have belongs : (Task.body a).activation? = some a := rfl
  have changes : m.Changes _ :=
    (Exec.stays_perform (env.store.lambda a.lambda).code a.frame i).after m
  simp only [proceed, instruction, Bind.bind, EStateM.bind]
  cases result : Exec.perform (env.store.lambda a.lambda).code a.frame i m with
  | error f m' =>
    rw [Exec.after_of_error result] at changes
    exact .failIn f changes
  | ok flow m' =>
    rw [Exec.after_of_ok result] at changes
    have waits : ∀ (u : Task) (callee : Option Callable), u.Plain →
        env.Move ⟨.body a :: rest, m⟩ (.running ⟨u :: .waiting a callee :: rest, m'⟩) :=
      fun u callee plain =>
        .goOn belongs rfl ⟨rfl, rfl, rfl⟩ (List.forall_mem_singleton.2 plain) changes
    cases flow with
    | next => exact move_to belongs changes (a.offset + 1)
    | goto offset =>
      dsimp only
      by_cases inside : offset ≤ (env.store.code (env.store.lambda a.lambda).code).size
      · rw [if_pos inside]
        exact move_to belongs changes offset
      · rw [if_neg inside]
        exact .failIn _ changes
    | leave => exact .leave belongs changes
    | call c => exact waits (.call c) (some c) rfl
    | native fn => exact waits (.native (env.routine fn) []) none rfl
    | construct r => exact waits (.construct r) none rfl

/-- Letting go of what an activation called is a change. -/
theorem changes_finish (callee : Option Callable) (m : Machine) : m.Changes (finish callee m) := by
  cases callee with
  | none => exact .refl m
  | some c => exact .letGo (.refl m) (.callable c)

/-- Every step is one of these moves. -/
theorem move_step (env : Env) (c : Config) : env.Move c (env.step c) := by
  obtain ⟨tasks, m⟩ := c
  cases tasks with
  | nil => exact .halt m
  | cons t rest =>
    cases t with
    | call c => exact move_call env rest c m
    | native r taken => exact move_native env rest r taken m
    | handler taken next => exact move_one rfl rfl (.refl m)
    | body a =>
      rw [step]
      dsimp only
      split
      · next i _ => exact move_instruction env rest a i m
      · exact .leave rfl (.refl m)
    | waiting a callee => exact move_to rfl (changes_finish callee m) (a.offset + 1)
    | construct r => exact move_construct env rest r m
    | constructed i base =>
      have cut : (modify (·.cutStack base) : Exec Unit).Stays Machine.Changes :=
        fun m => Machine.Permits.cutStack (R := Machine.Changes) m base
      refine move_proceed rfl ?_ fun ts m' result => ?_
      · exact cut.bind fun _ => (Exec.stays_push (.record i)).bind fun _ => Exec.stays_pure rest
      · obtain ⟨_, _, -, pushed⟩ := Exec.exists_of_bind_eq_ok result
        obtain ⟨_, _, -, done⟩ := Exec.exists_of_bind_eq_ok pushed
        cases done
        exact ⟨[], rfl, List.forall_mem_nil Task.Plain⟩

/-- A run that ends without failure comes to a point where nothing remains to be done. -/
theorem steps_of_run_ok {fuel : Nat} {c : Config} (ended : env.run fuel c = some (.ok (), m)) :
    env.Steps c ⟨[], m⟩ := by
  obtain ⟨last, steps, halts⟩ := steps_of_run ended
  have move := env.move_step last
  rw [halts] at move
  generalize status : Status.halted (.ok ()) m = s at move
  cases move with
  | halt => cases status; exact steps
  | fail f => exact absurd status.symm (unwind_ne_ok env f _ _ _)
  | failIn f => exact absurd status.symm (unwind_ne_ok env f _ _ _)
  | _ => cases status

end Env

/-! ## Failures touch no object -/

/-- The machine after a step. -/
def Status.machine : Status → Machine
  | .running c => c.machine
  | .halted _ m => m

namespace Env

/-- A failure touches no object on its way out. -/
theorem heap_unwind (env : Env) (f : Failure) (tasks : List Task) (m : Machine) :
    (env.unwind f tasks m).machine.heap = m.heap := by
  induction tasks generalizing f m with
  | nil => rfl
  | cons t rest ih =>
    cases t with
    | handler taken next => rfl
    | body a => exact (ih _ _).trans (heap_leave a m)
    | waiting a callee =>
      exact (ih _ _).trans ((heap_leave a _).trans (heap_finish callee m))
    | constructed i base => exact (ih _ _).trans (m.heap_letGo _)
    | call c => exact ih f m
    | native r taken => exact ih f m
    | construct r => exact ih f m

/-- A computation leaves the same objects whether or not it fails. -/
theorem heap_proceed (env : Env) (rest : List Task) (x : Exec (List Task)) (m : Machine) :
    (env.proceed rest x m).machine.heap = (x.after m).heap := by
  rw [proceed, Exec.after]
  split
  · next result => rw [result]; rfl
  · next result => rw [result]; exact env.heap_unwind _ rest _

/-- A step that saves leaves the objects that saving leaves. -/
theorem heap_step_of_save {env : Env} {a : Activation} {storage : Storage} {slot : Nat}
    (found : (env.store.body a.lambda)[a.offset]? = some (.save storage slot)) (below : List Task)
    (m : Machine) :
    (env.step ⟨.body a :: below, m⟩).machine.heap =
      ((Exec.saveTo a.frame slot storage).after m).heap := by
  rw [step]
  simp only [found]
  rw [heap_proceed, Exec.after, Exec.after]
  simp only [instruction, Exec.perform, Bind.bind, EStateM.bind]
  cases Exec.saveTo a.frame slot storage m <;> rfl

end Env

end PlotMachine
