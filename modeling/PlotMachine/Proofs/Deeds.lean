import PlotMachine.Proofs.HostCalls
import PlotMachine.Proofs.Moves

/-!
# What runs and calls do to a machine

Besides the changes that computations make, a run sets the limits of the stack, releases frames that
fell out of use, and makes a frame when a lambda is entered, which is put on record and filled at
once. `Machine.Deed` lists all this. Every step of a run consists of such deeds (`Env.deeds_step`), and
so does every call from the host (`Env.deeds_invoke`, `Env.deeds_exec`, `Env.deeds_instantiate`), so
that what is to be known of all of them has to be shown of a single deed.
-/

namespace PlotMachine

namespace Machine

/-- A thing that a run or a call does to a machine. -/
inductive Deed : Machine → Machine → Prop
  | change {m m' : Machine} (change : m.Change m') : Deed m m'
  /-- The limits of the stack are set, or the stack is cut after a call. -/
  | stack (m : Machine) (s : Stack) : Deed m { m with stack := s }
  /-- The frames that nothing holds any more are released. -/
  | settle (m : Machine) (held : Heap → List Object) : Deed m (m.settle held)
  /-- A frame is made for a call and put on record. -/
  | make (m : Machine) (length : Nat) :
      Deed m ((m.newFrame .owned length).2.register (m.newFrame .owned length).1)
  /-- The arguments of a call are put into its frame. -/
  | fill (m : Machine) (f : FrameRef) (g : Array Value → Array Value) :
      Deed m { m with heap := m.heap.update (.frame f) g }
  /-- The frame of a call is released. -/
  | release (m : Machine) (f : FrameRef) : Deed m { m with keeper := m.keeper.release m.heap f }

/-- The second machine comes from the first one by deeds. -/
def Deeds : Machine → Machine → Prop := Relation.ReflTransGen Deed

namespace Deeds

variable {m m' m'' : Machine}

theorem refl (m : Machine) : m.Deeds m := Relation.ReflTransGen.refl

theorem of_deed (deed : m.Deed m') : m.Deeds m' := Relation.ReflTransGen.single deed

theorem trans (first : m.Deeds m') (second : m'.Deeds m'') : m.Deeds m'' :=
  Relation.ReflTransGen.trans first second

theorem of_changes (changes : m.Changes m') : m.Deeds m' :=
  changes.preserves (fun change deeds => deeds.trans (of_deed (.change change))) (refl m)

/-- The limits of the stack are set after other deeds. -/
theorem withStack (deeds : m.Deeds m') (s : Stack) : m.Deeds { m' with stack := s } :=
  deeds.trans (of_deed (.stack m' s))

end Deeds

end Machine

namespace Env

variable {env : Env} {fuel : Nat} {tasks : List Task} {args : List Value} {m m' : Machine}

/-! ## Steps -/

/-- A lambda is entered with a new frame. -/
theorem deeds_enter {l : LambdaRef} {closure : Option FrameRef} {a : Activation}
    (entered : env.enter tasks l closure m = .ok a m') : m.Deeds m' := by
  simp only [enter] at entered
  split at entered
  · cases entered
  cases entered
  have settled := Machine.Deeds.of_deed (.settle m (held tasks))
  have made := settled.trans (.of_deed (.make _ (env.store.lambda l).vars))
  exact (made.trans (.of_deed (.fill _ _ _))).withStack _

/-- The frame of a lambda is released or handed over when the lambda is left. -/
theorem deeds_leave (a : Activation) (m : Machine) : m.Deeds (leave a m) := by
  rw [leave]
  dsimp only
  split
  · exact (Machine.Deeds.of_deed (.release m a.frame)).withStack _
  · have shared := Machine.Deeds.of_deed (.change (.share m a.frame))
    exact (shared.withStack _).trans (.of_deed (.change (.letGo _ (.frame a.frame))))

/-- A failure leaves the lambdas that it passes. -/
theorem deeds_unwind (env : Env) (f : Failure) (tasks : List Task) (m : Machine) :
    m.Deeds (env.unwind f tasks m).machine := by
  induction tasks generalizing f m with
  | nil => exact .refl m
  | cons t rest ih =>
    cases t with
    | handler taken next => exact .refl m
    | body a => exact (deeds_leave a m).trans (ih _ _)
    | waiting a callee =>
      have finished := Machine.Deeds.of_changes (changes_finish callee m)
      exact finished.trans ((deeds_leave a _).trans (ih _ _))
    | constructed i base =>
      have dropped := Machine.Deeds.of_changes (.letGo (.refl m) (.record i))
      exact dropped.trans (ih _ _)
    | call c => exact ih f m
    | native r taken => exact ih f m
    | construct r => exact ih f m

theorem deeds_step (env : Env) (c : Config) : c.machine.Deeds (env.step c).machine := by
  have move := env.move_step c
  generalize env.step c = status at move
  cases move with
  | halt m => exact .refl m
  | work _ _ changes => exact .of_changes changes
  | goOn _ _ _ _ changes => exact .of_changes changes
  | enter _ _ changes entered => exact (Machine.Deeds.of_changes changes).trans (deeds_enter entered)
  | leave _ changes => exact (Machine.Deeds.of_changes changes).trans (deeds_leave _ _)
  | fail f _ changes => exact (Machine.Deeds.of_changes changes).trans (env.deeds_unwind f _ _)
  | failIn f changes => exact (Machine.Deeds.of_changes changes).trans (env.deeds_unwind f _ _)

/-! ## Runs and calls from the host -/

theorem deeds_run {c : Config} {outcome : Except Failure Unit}
    (ended : env.run fuel c = some (outcome, m')) : c.machine.Deeds m' := by
  induction fuel generalizing c with
  | zero => cases ended
  | succ fuel ih =>
    have first := env.deeds_step c
    rw [run] at ended
    cases next : env.step c with
    | running c' =>
      rw [next] at first ended
      exact first.trans (ih ended)
    | halted outcome' m'' =>
      rw [next] at first ended
      cases ended
      exact first

theorem deeds_concluded {outcome : Except Failure Unit}
    (ended : env.concluded fuel tasks args m = some (outcome, m')) : m.Deeds m' := by
  have raised := (Machine.Deeds.refl m).withStack m.stack.raiseFloor
  have pushed : Machine.Changes _ _ :=
    (Exec.stays_pushAll args).after { m with stack := m.stack.raiseFloor }
  rw [concluded, started] at ended
  cases result : args.foldlM (fun (_ : Unit) v => Exec.push v) ()
      { m with stack := m.stack.raiseFloor } with
  | ok u before =>
    rw [Exec.after_of_ok result] at pushed
    rw [result] at ended
    exact (raised.trans (.of_changes pushed)).trans (deeds_run ended)
  | error f before =>
    rw [Exec.after_of_error result] at pushed
    rw [result] at ended
    cases ended
    exact raised.trans (.of_changes pushed)

theorem deeds_guarded {outcome : Except Failure Unit}
    (ended : env.guarded fuel tasks args m = some (outcome, m')) : m.Deeds m' := by
  rw [guarded_eq, Option.map_eq_some_iff] at ended
  obtain ⟨⟨outcome', back⟩, ended, same⟩ := ended
  have deeds := deeds_concluded ended
  cases outcome' with
  | ok u =>
    cases same
    exact deeds.withStack _
  | error f =>
    cases same
    have cut := Machine.Deeds.of_changes (Machine.Permits.cutStack back m.stack.height)
    exact (deeds.trans cut).withStack _

theorem deeds_invoke {c : Callable} {result : Except Failure (Array Value)}
    (ended : env.invoke fuel c args m = some (result, m')) : m.Deeds m' := by
  rw [invoke, Option.map_eq_some_iff] at ended
  obtain ⟨⟨outcome, back⟩, ended, same⟩ := ended
  have deeds := deeds_guarded ended
  cases outcome with
  | ok u =>
    cases same
    exact deeds.withStack _
  | error f =>
    cases same
    exact deeds

theorem deeds_exec {l : LambdaRef} {result : Except Failure (Array Value)}
    (ended : env.exec fuel l args m = some (result, m')) : m.Deeds m' := by
  simp only [exec] at ended
  split at ended
  · cases ended
    exact .refl m
  split at ended
  · cases ended
    exact .refl m
  · have numbered : m.Deeds { m with heap := m.heap.takeNumber.2 } :=
      .of_changes (.of_change (.heap (.takeNumber m.heap)))
    exact numbered.trans (deeds_invoke ended)

/-- Popping an instance makes only changes. -/
theorem stays_popInstance {R : Machine → Machine → Prop} [Machine.Permits R] (height : Nat) :
    (Exec.popInstance height).Stays R := by
  have cut : (modify (·.cutStack height) : Exec Unit).Stays R :=
    fun m => Machine.Permits.cutStack m height
  exact Exec.stays_taking fun v => cut.bind fun _ => Exec.stays_ofExcept v.read

theorem deeds_instantiate {r : RecordRef} {result : Except Failure InstanceRef}
    (ended : env.instantiate fuel r m = some (result, m')) : m.Deeds m' := by
  rw [instantiate, Option.map_eq_some_iff] at ended
  obtain ⟨⟨outcome, back⟩, ended, same⟩ := ended
  have deeds := deeds_guarded ended
  cases outcome with
  | error f =>
    cases same
    exact deeds
  | ok u =>
    have popped : back.Changes _ := (stays_popInstance m.stack.height).after back
    dsimp only at same
    split at same
    · next i m'' result =>
      rw [Exec.after_of_ok result] at popped
      cases same
      exact deeds.trans (.of_changes popped)
    · next f m'' result =>
      rw [Exec.after_of_error result] at popped
      cases same
      exact deeds.trans (.of_changes popped)

end Env

end PlotMachine
