import PlotMachine.Proofs.Changes

/-!
# Computations that stay on a level

Only entering and leaving a lambda changes how many lambdas are running. Everything else a run does
stays on the level of calls it is on, and the flag by which the host stops a run is never lowered
(`Machine.Level`). No change that a computation makes does either, so instructions and natives stay on
their level (`Exec.Stays Machine.Level`).

A failure leaves the computation that raised it without a position; the activations it passes on its way
out put one on it. Natives are such computations if they call nothing and raise failures of their own only
(`Routine.Plain`), as the functions of the library do.
-/

namespace PlotMachine

namespace Machine

/-- The host wants the run to stop. -/
def stopped (m : Machine) : Bool := m.interrupt.installed && m.interrupt.raised

/-- In the second machine as many lambdas are running as in the first one, and as many may run. It is
stopped if the first one is. -/
structure Level (m m' : Machine) : Prop where
  depth : m'.stack.depth = m.stack.depth
  maxDepth : m'.stack.maxDepth = m.stack.maxDepth
  stopped : m.stopped = true → m'.stopped = true

namespace Level

variable {m m' m'' : Machine}

theorem refl (m : Machine) : m.Level m := ⟨rfl, rfl, id⟩

theorem trans (first : m.Level m') (second : m'.Level m'') : m.Level m'' :=
  ⟨second.depth.trans first.depth, second.maxDepth.trans first.maxDepth,
    fun stopped => second.stopped (first.stopped stopped)⟩

theorem letGo (level : m.Level m') (v : Value) : m.Level (m'.letGo v) := by
  rw [letGo_eq]
  exact ⟨level.depth, level.maxDepth, level.stopped⟩

theorem finish (level : m.Level m') (callee : Option Callable) :
    m.Level (Env.finish callee m') := by
  cases callee with
  | none => exact level
  | some c => exact level.letGo (.callable c)

end Level

instance : Permits Level where
  refl := Level.refl
  trans := Level.trans
  stack change := by
    cases change <;> exact ⟨rfl, rfl, id⟩
  put _ _ _ _ := ⟨rfl, rfl, id⟩
  append _ _ _ := ⟨rfl, rfl, id⟩
  addArray _ _ := ⟨rfl, rfl, id⟩
  takeNumber _ := ⟨rfl, rfl, id⟩
  letGo m v := (Level.refl m).letGo v
  share _ _ := ⟨rfl, rfl, id⟩
  write _ _ := ⟨rfl, rfl, id⟩
  raise m := by
    -- a native can raise the flag, but it cannot install one
    refine ⟨rfl, rfl, fun stopped => ?_⟩
    rw [Machine.stopped, Bool.and_eq_true] at stopped
    rw [Machine.stopped, stopped.1]
    rfl

end Machine

namespace Exec

variable {α β : Type}

/-- One of two computations in a row failed if both of them together did. -/
theorem error_of_bind_eq_error {x : Exec α} {g : α → Exec β} {m m' : Machine} {f : Failure}
    (failed : (x >>= g) m = .error f m') :
    x m = .error f m' ∨ ∃ a n, x m = .ok a n ∧ g a n = .error f m' := by
  simp only [Bind.bind, EStateM.bind] at failed
  cases result : x m with
  | ok a n =>
    rw [result] at failed
    exact .inr ⟨a, n, rfl, failed⟩
  | error e n =>
    rw [result] at failed
    cases failed
    exact .inl rfl

/-- A jump is not carried out on a machine that is stopped. -/
theorem perform_jump_of_stopped {m : Machine} (stopped : m.stopped = true) (home : ProgramRef)
    (frame : FrameRef) (condition : JumpCondition) (target : Label) :
    perform home frame (.jump condition target) m = .error Fault.interrupted m := by
  rw [Machine.stopped] at stopped
  simp only [perform, Bind.bind, EStateM.bind, poll, stopped, if_true]

/-- A call is not carried out on a machine that is stopped. -/
theorem perform_popCall_of_stopped {m : Machine} (stopped : m.stopped = true) (home : ProgramRef)
    (frame : FrameRef) : perform home frame .popCall m = .error Fault.interrupted m := by
  rw [Machine.stopped] at stopped
  simp only [perform, Bind.bind, EStateM.bind, poll, stopped, if_true]

end Exec

namespace Routine

variable {α β : Type}

/-- A native that calls nothing and does not say where a failure happened. -/
def Plain : Routine α → Prop
  | .done _ => True
  | .fail f => f.position = none
  | .ask _ next => ∀ reply, (next reply).Plain
  | .invoke .. => False

/-- How a native that calls nothing ends. -/
inductive Over : Pause α → Prop
  | done (a : α) : Over (.done a)
  | failed {f : Failure} (unlocated : f.position = none) : Over (.failed f)

/-- A native that calls nothing is over in one go. -/
theorem Plain.over_advance {r : Routine α} (plain : r.Plain) (s : Store)
    (held : Heap → List Object) (taken : List Value) (m : Machine) :
    Over (r.advance s held taken m).1 := by
  induction r generalizing taken m with
  | done a => exact .done a
  | fail f => exact .failed plain
  | invoke c next _ => exact plain.elim
  | ask q next ih =>
    have comes := q.stays_serve (R := Machine.Level) s (holding taken held) m
    rw [advance]
    generalize q.serve s (holding taken held) m = r at comes
    cases r with
    | ok reply m' => exact ih reply (plain reply) _ m'
    | error f m' => exact .failed comes.1

/-- A native that goes on with another one. -/
theorem Plain.bind {r : Routine α} {f : α → Routine β} (first : r.Plain)
    (second : ∀ a, (f a).Plain) : (r >>= f).Plain := by
  show (r.bind f).Plain
  induction r with
  | done a => exact second a
  | fail e => exact first
  | ask q next ih => exact fun reply => ih reply (first reply)
  | invoke c next _ => exact first.elim

theorem plain_pure (a : α) : (pure a : Routine α).Plain := trivial

theorem plain_request (q : Request) : (request q).Plain := fun _ => trivial

theorem plain_pushData [Payload α] (a : α) : (pushData a).Plain := plain_request _

theorem plain_read [Payload α] (v : Value) : (read v : Routine α).Plain := by
  rw [read]
  split
  · trivial
  · exact rfl

theorem plain_popAs [Payload α] : (popAs α).Plain := (plain_request .pop).bind plain_read

theorem plain_failWith (f : NativeFault) : (failWith f : Routine α).Plain := rfl

theorem plain_index (i : Int64) : (index i).Plain := by
  rw [index]
  split
  · exact plain_failWith _
  · exact plain_pure _

theorem plain_ofReal (f : Float → Float) : (ofReal f).Plain :=
  plain_popAs.bind fun x => plain_pushData (f x)

theorem plain_reals (items : List Value) : (reals items).Plain := by
  induction items with
  | nil => exact plain_pure []
  | cons v rest ih =>
    exact (plain_read v).bind fun x => Plain.bind ih fun xs => plain_pure (x :: xs)

end Routine

open Routine in
/-- The functions of the library call nothing, and their failures are their own. -/
theorem Intrinsic.plain_routine (fn : Intrinsic) : fn.routine.Plain := by
  cases fn with
  | sqrt => exact plain_ofReal Float.sqrt
  | sin => exact plain_ofReal Float.sin
  | cos => exact plain_ofReal Float.cos
  | abs => exact plain_ofReal Float.abs
  | pow => exact plain_popAs.bind fun _ => plain_popAs.bind fun _ => plain_pushData _
  | floor =>
    refine plain_popAs.bind fun x => ?_
    dsimp only
    split
    · exact plain_pushData _
    · exact plain_failWith _
  | toReal => exact plain_popAs.bind fun _ => plain_pushData _
  | write =>
    exact (plain_request .pop).bind fun v => (plain_request (.text v)).bind fun _ => plain_request _
  | newArray =>
    refine plain_popAs.bind fun n => ?_
    split
    · exact plain_failWith _
    · exact (plain_request (.blankArray _)).bind fun _ => plain_pushData _
  | append =>
    refine (plain_request .pop).bind fun v => plain_popAs.bind fun a => ?_
    exact (plain_request (.append a v)).bind fun _ => plain_pushData a
  | arrayLength =>
    exact plain_popAs.bind fun a => (plain_request (.items a)).bind fun _ => plain_pushData _
  | getItem =>
    refine plain_popAs.bind fun n => (plain_index n).bind fun i => plain_popAs.bind fun a => ?_
    exact (plain_request (.getItem a i)).bind fun _ => plain_request _
  | setItem =>
    refine (plain_request .pop).bind fun v => plain_popAs.bind fun n => ?_
    refine (plain_index n).bind fun i => plain_popAs.bind fun a => ?_
    exact (plain_request (.setItem a i v)).bind fun _ => plain_request _
  | concat => exact plain_popAs.bind fun _ => plain_popAs.bind fun _ => plain_pushData _
  | textLength => exact plain_popAs.bind fun _ => plain_pushData _
  | bind =>
    refine (plain_request .pop).bind fun arg => plain_popAs.bind fun func => ?_
    exact (plain_request (.newThunk func arg)).bind fun _ => plain_pushData _
  | adjustDash =>
    refine plain_popAs.bind fun _ => plain_popAs.bind fun _ => plain_popAs.bind fun _ => ?_
    refine plain_popAs.bind fun pattern => (plain_request (.items pattern)).bind fun items => ?_
    refine (plain_reals _).bind fun _ => ?_
    exact (plain_request (.newArray _)).bind fun _ => plain_pushData _

end PlotMachine
