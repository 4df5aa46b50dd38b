import Mathlib.Logic.Relation
import PlotMachine.Machine.Run

/-!
# The changes that computations make

Whatever an instruction or a native does to the machine, it does by a few kinds of small changes: to
the top of the stack, to one object of the heap, to the account of frames, to the output and to the
interrupt flag. A value is pushed only where there is room for it. `Machine.Permits` says of a relation
between machines that it holds across these changes, one field for each kind.

`Exec.Stays` says of a computation that a relation holds between the machine it is given and the one it
leaves, also if it fails. Instructions (`Exec.stays_perform`) and natives (`Routine.stays_advance`) are
such computations for every relation that permits the changes, whatever code there is. The changes
themselves, listed by `Machine.Change`, make up one of these relations, `Machine.Changes`, and a property
that every change preserves is preserved along it.
-/

namespace PlotMachine

/-- A change that a computation makes to the stack. -/
inductive Stack.Change : Stack → Stack → Prop
  | push {s : Stack} (v : Value) (room : s.isFull = false) : Change s (s.push v)
  | drop {s : Stack} {v : Value} (found : s.top? = some v) : Change s s.drop
  | setTop {s : Stack} {old : Value} (found : s.top? = some old) (v : Value) : Change s (s.setTop v)
  | truncate (s : Stack) (height : Nat) : Change s (s.truncate height)

/-- A change that a computation makes to the heap. -/
inductive Heap.Change : Heap → Heap → Prop
  | put (h : Heap) (o : Object) (index : Nat) (v : Value) : Change h (h.put o index v)
  | append (h : Heap) (a : ArrayRef) (v : Value) : Change h (h.append a v)
  | addArray (h : Heap) (items : Array Value) : Change h (h.addArray items).2
  | addInstance (h : Heap) (r : RecordRef) (size : Nat) : Change h (h.addInstance r size).2
  | takeNumber (h : Heap) : Change h h.takeNumber.2

namespace Machine

/-- A change that a computation makes to the machine. -/
inductive Change : Machine → Machine → Prop
  | stack {m : Machine} {s : Stack} (change : m.stack.Change s) : Change m { m with stack := s }
  | heap {m : Machine} {h : Heap} (change : m.heap.Change h) : Change m { m with heap := h }
  | letGo (m : Machine) (v : Value) : Change m (m.letGo v)
  | share (m : Machine) (f : FrameRef) : Change m { m with keeper := m.keeper.share f }
  | output (m : Machine) (output : String) : Change m { m with output }
  | interrupt (m : Machine) (interrupt : Interrupt) : Change m { m with interrupt }

/-- The second machine comes from the first one by changes. -/
def Changes : Machine → Machine → Prop := Relation.ReflTransGen Change

namespace Changes

variable {m m' m'' : Machine}

theorem refl (m : Machine) : m.Changes m := Relation.ReflTransGen.refl

theorem of_change (change : m.Change m') : m.Changes m' := Relation.ReflTransGen.single change

theorem trans (first : m.Changes m') (second : m'.Changes m'') : m.Changes m'' :=
  Relation.ReflTransGen.trans first second

/-- What every change preserves is preserved by changes. -/
theorem preserves {P : Machine → Prop} (changes : m.Changes m')
    (step : ∀ {n n' : Machine}, n.Change n' → P n → P n') (start : P m) : P m' := by
  induction changes with
  | refl => exact start
  | tail _ change ih => exact step change ih

theorem letGo (changes : m.Changes m') (v : Value) : m.Changes (m'.letGo v) :=
  changes.trans (of_change (.letGo m' v))

end Changes

/-- A relation between machines that holds across every change a computation makes. Instances are not
among the objects that a computation makes by itself. -/
class Permits (R : Machine → Machine → Prop) : Prop where
  refl (m : Machine) : R m m
  trans {m m' m'' : Machine} (first : R m m') (second : R m' m'') : R m m''
  stack {m : Machine} {s : Stack} (change : m.stack.Change s) : R m { m with stack := s }
  put (m : Machine) (o : Object) (index : Nat) (v : Value) :
    R m { m with heap := m.heap.put o index v }
  append (m : Machine) (a : ArrayRef) (v : Value) : R m { m with heap := m.heap.append a v }
  addArray (m : Machine) (items : Array Value) : R m { m with heap := (m.heap.addArray items).2 }
  takeNumber (m : Machine) : R m { m with heap := m.heap.takeNumber.2 }
  letGo (m : Machine) (v : Value) : R m (m.letGo v)
  share (m : Machine) (f : FrameRef) : R m { m with keeper := m.keeper.share f }
  write (m : Machine) (output : String) : R m { m with output }
  raise (m : Machine) : R m { m with interrupt := { m.interrupt with raised := true } }

namespace Permits

variable {R : Machine → Machine → Prop} [Permits R]

theorem letGoAll (m : Machine) (values : List Value) : R m (m.letGoAll values) := by
  have folded : ∀ n : Machine, R n (values.foldl Machine.letGo n) := by
    induction values with
    | nil => exact refl
    | cons v rest ih => exact fun n => trans (letGo n v) (ih (n.letGo v))
  rw [Machine.letGoAll]
  split
  · exact refl m
  · exact folded m

theorem cutStack (m : Machine) (height : Nat) : R m (m.cutStack height) :=
  trans (stack (.truncate m.stack height)) (letGoAll _ _)

end Permits

instance : Permits Changes where
  refl := Changes.refl
  trans := Changes.trans
  stack change := .of_change (.stack change)
  put m o index v := .of_change (.heap (.put m.heap o index v))
  append m a v := .of_change (.heap (.append m.heap a v))
  addArray m items := .of_change (.heap (.addArray m.heap items))
  takeNumber m := .of_change (.heap (.takeNumber m.heap))
  letGo m v := .of_change (.letGo m v)
  share m f := .of_change (.share m f)
  write m output := .of_change (.output m output)
  raise m := .of_change (.interrupt m _)

end Machine

namespace Exec

variable {α β : Type}

/-- The machine that a computation leaves, whether or not it fails. -/
def after (x : Exec α) (m : Machine) : Machine :=
  match x m with
  | .ok _ m' | .error _ m' => m'

theorem after_of_ok {x : Exec α} {m m' : Machine} {a : α} (done : x m = .ok a m') :
    x.after m = m' := by
  rw [after, done]

theorem after_of_error {x : Exec α} {m m' : Machine} {f : Failure} (failed : x m = .error f m') :
    x.after m = m' := by
  rw [after, failed]

/-- Two computations in a row that had a result both had one. -/
theorem exists_of_bind_eq_ok {x : Exec α} {f : α → Exec β} {m m' : Machine} {b : β}
    (done : (x >>= f) m = .ok b m') : ∃ a n, x m = .ok a n ∧ f a n = .ok b m' := by
  simp only [Bind.bind, EStateM.bind] at done
  cases result : x m with
  | ok a n =>
    rw [result] at done
    exact ⟨a, n, rfl, done⟩
  | error e n =>
    rw [result] at done
    cases done

/-- What may come of a machine: one that is related to it. A failure has no position as yet. -/
def Comes (R : Machine → Machine → Prop) (m : Machine) :
    EStateM.Result Failure Machine α → Prop
  | .ok _ m' => R m m'
  | .error f m' => f.position = none ∧ R m m'

/-- A computation leaves a machine that is related to the one it is given, and it does not say where a
failure happened. -/
def Stays (R : Machine → Machine → Prop) (x : Exec α) : Prop := ∀ m : Machine, Comes R m (x m)

variable {R : Machine → Machine → Prop}

theorem Stays.ok {x : Exec α} {m m' : Machine} {a : α} (stays : x.Stays R)
    (done : x m = .ok a m') : R m m' := by
  have comes := stays m
  rwa [done] at comes

theorem Stays.error {x : Exec α} {m m' : Machine} {f : Failure} (stays : x.Stays R)
    (failed : x m = .error f m') : f.position = none ∧ R m m' := by
  have comes := stays m
  rwa [failed] at comes

theorem Stays.after {x : Exec α} (stays : x.Stays R) (m : Machine) : R m (x.after m) := by
  have comes := stays m
  rw [Exec.after]
  generalize x m = r at comes
  cases r with
  | ok a m' => exact comes
  | error f m' => exact comes.2

variable [Machine.Permits R]

/-- What comes of a machine comes of one that it is related to. -/
theorem Comes.of_related {m m' : Machine} {r : EStateM.Result Failure Machine α} (related : R m m')
    (comes : Comes R m' r) : Comes R m r := by
  cases r with
  | ok a m'' => exact Machine.Permits.trans related comes
  | error f m'' => exact ⟨comes.1, Machine.Permits.trans related comes.2⟩

/-! ## Primitive computations -/

theorem stays_pure (a : α) : (pure a : Exec α).Stays R := Machine.Permits.refl

/-- One computation after another. -/
theorem Stays.bind {x : Exec α} {f : α → Exec β} (first : x.Stays R)
    (second : ∀ a, (f a).Stays R) : (x >>= f).Stays R := by
  intro m
  have comes := first m
  simp only [Bind.bind, EStateM.bind]
  generalize x m = r at comes
  cases r with
  | ok a m' => exact (second a m').of_related comes
  | error e m' => exact comes

/-- A fault leaves the machine as it is. -/
theorem comes_fault (f : Fault) (m : Machine) :
    Comes R m (.error f m : EStateM.Result Failure Machine α) :=
  ⟨rfl, Machine.Permits.refl m⟩

theorem stays_fault (f : Fault) : (fault f : Exec α).Stays R := comes_fault f

theorem stays_ofExcept (x : Except Fault α) : (ofExcept x).Stays R := by
  cases x with
  | ok a => exact stays_pure a
  | error f => exact stays_fault f

theorem stays_view (f : Machine → α) : (view f).Stays R := Machine.Permits.refl

theorem stays_push (v : Value) : (push v).Stays R := by
  intro m
  rw [push]
  by_cases full : m.stack.isFull = true
  · rw [if_pos full]
    exact ⟨rfl, Machine.Permits.letGo m v⟩
  · rw [if_neg full]
    exact Machine.Permits.stack (.push v (Bool.eq_false_iff.2 full))

theorem stays_pop : pop.Stays R := by
  intro m
  rw [pop]
  cases found : m.stack.top? with
  | none => exact comes_fault _ m
  | some v => exact Machine.Permits.stack (.drop found)

theorem stays_top : top.Stays R := by
  intro m
  rw [top]
  cases m.stack.top? with
  | none => exact comes_fault _ m
  | some v => exact Machine.Permits.refl m

theorem stays_taking {body : Value → Exec α} (stays : ∀ v, (body v).Stays R) :
    (taking body).Stays R := by
  intro m
  rw [taking]
  cases found : m.stack.top? with
  | none => exact comes_fault _ m
  | some v =>
    have dropped : R m { m with stack := m.stack.drop } := Machine.Permits.stack (.drop found)
    have comes := (stays v _).of_related dropped
    dsimp only
    generalize body v { m with stack := m.stack.drop } = r at comes
    cases r with
    | ok a m' => exact Machine.Permits.trans comes (Machine.Permits.letGo m' v)
    | error e m' => exact ⟨comes.1, Machine.Permits.trans comes.2 (Machine.Permits.letGo m' v)⟩

theorem stays_popAs [Payload α] : (popAs α).Stays R :=
  stays_taking fun v => stays_ofExcept v.read

theorem stays_takingAs [Payload α] {body : α → Exec β} (stays : ∀ a, (body a).Stays R) :
    (takingAs body).Stays R :=
  stays_taking fun v => (stays_ofExcept v.read).bind stays

theorem stays_setTop (v : Value) : (setTop v).Stays R := by
  intro m
  rw [setTop]
  cases found : m.stack.top? with
  | none => exact comes_fault _ m
  | some old => exact Machine.Permits.trans (Machine.Permits.stack (.setTop found v)) (Machine.Permits.letGo _ old)

theorem stays_get (o : Object) (index : Nat) : (get o index).Stays R := by
  intro m
  rw [get, inspect]
  cases m.heap.get o index with
  | ok v => exact Machine.Permits.refl m
  | error f => exact comes_fault f m

theorem stays_put (o : Object) (index : Nat) (v : Value) : (put o index v).Stays R := by
  intro m
  rw [put]
  cases m.heap.get o index with
  | ok old => exact Machine.Permits.trans (Machine.Permits.put m o index v) (Machine.Permits.letGo _ old)
  | error f => exact comes_fault f m

theorem stays_newArray (items : Array Value) : (newArray items).Stays R :=
  fun m => Machine.Permits.addArray m items

theorem stays_newCallable (make : Nat → Callable) : (newCallable make).Stays R :=
  fun m => Machine.Permits.takeNumber m

theorem stays_poll : poll.Stays R := by
  intro m
  rw [poll]
  split
  · exact comes_fault _ m
  · exact Machine.Permits.refl m

/-- Pushing values one after the other. -/
theorem stays_pushAll (args : List Value) :
    (args.foldlM (fun (_ : Unit) v => push v) ()).Stays R := by
  induction args with
  | nil => exact stays_pure ()
  | cons v rest ih =>
    rw [List.foldlM_cons]
    exact (stays_push v).bind fun _ => ih

/-! ## Instructions -/

section Operators

variable [Payload α] [Payload β]

theorem stays_pushResult (x : Except Fault β) :
    (do pushData (← ofExcept x) : Exec Unit).Stays R :=
  (stays_ofExcept x).bind fun b => stays_push (Payload.toValue b)

theorem stays_binary (f : α → α → Except Fault β) : (binary f).Stays R :=
  stays_takingAs fun b => stays_takingAs fun a => stays_pushResult (f a b)

theorem stays_unary (f : α → Except Fault β) : (unary f).Stays R :=
  stays_popAs.bind fun a => stays_pushResult (f a)

end Operators

theorem stays_fieldOwner (v : Value) : (fieldOwner v).Stays R := by
  rw [fieldOwner]
  cases v.object? with
  | none => exact stays_fault _
  | some o => exact stays_pure o

theorem stays_pushFrom (o : Object) (slot : Nat) :
    (do push (← get o slot) : Exec Unit).Stays R :=
  (stays_get o slot).bind stays_push

theorem stays_loadFrom (frame : FrameRef) (slot : Nat) (storage : Storage) :
    (loadFrom frame slot storage).Stays R := by
  cases storage with
  | var => exact stays_pushFrom (.frame frame) slot
  | global => exact (stays_view _).bind fun f => stays_pushFrom (.frame f) slot
  | field =>
    exact stays_taking fun target =>
      (stays_fieldOwner target).bind fun o => stays_pushFrom o slot

theorem stays_saveTo (frame : FrameRef) (slot : Nat) (storage : Storage) :
    (saveTo frame slot storage).Stays R := by
  cases storage with
  | var => exact stays_top.bind fun v => stays_put (.frame frame) slot v
  | global =>
    exact stays_top.bind fun v => (stays_view _).bind fun f => stays_put (.frame f) slot v
  | field =>
    refine stays_taking fun target => stays_top.bind fun v => ?_
    exact (stays_fieldOwner target).bind fun o => stays_put o slot v

theorem stays_stepTop (up : Bool) : (stepTop up).Stays R := by
  refine stays_top.bind fun v => (stays_ofExcept _).bind fun n => ?_
  exact (stays_ofExcept _).bind fun n' => stays_setTop (.int n')

theorem stays_holds (condition : JumpCondition) : (holds condition).Stays R := by
  cases condition with
  | always => exact stays_pure true
  | when expected => exact stays_popAs.bind fun b => stays_pure (b == expected)

theorem Stays.next {x : Exec Unit} (stays : x.Stays R) :
    (do x; return .next : Exec Flow).Stays R :=
  stays.bind fun _ => stays_pure Flow.next

/-- Every instruction, by itself, makes only changes. -/
theorem stays_perform (home : ProgramRef) (frame : FrameRef) (i : Instr) :
    (perform home frame i).Stays R := by
  cases i with
  | pop => exact stays_taking fun _ => stays_pure Flow.next
  | intPush n => exact (stays_push (.int n)).next
  | constPush v => exact (stays_push v).next
  | load storage slot => exact (stays_loadFrom frame slot storage).next
  | save storage slot => exact (stays_saveTo frame slot storage).next
  | memCompare negated => exact (stays_taking fun b => stays_taking fun a => stays_push _).next
  | funcCompare negated => exact (stays_binary _).next
  | intArith op => exact (stays_binary op.onInts).next
  | intNegate => exact (stays_unary negateInt).next
  | intStep up => exact (stays_stepTop up).next
  | intCompare cmp => exact (stays_binary _).next
  | logNot => exact (stays_unary _).next
  | logCompare negated => exact (stays_binary _).next
  | realArith op => exact (stays_binary _).next
  | realNegate => exact (stays_unary _).next
  | realCompare cmp => exact (stays_binary _).next
  | builtin fn => exact stays_pure (Flow.native fn)
  | jump condition target =>
    refine stays_poll.bind fun _ => (stays_ofExcept _).bind fun offset => ?_
    refine (stays_holds condition).bind fun taken => ?_
    cases taken with
    | true => exact stays_pure (Flow.goto offset)
    | false => exact stays_pure Flow.next
  | popCall =>
    refine stays_poll.bind fun _ => stays_popAs.bind fun c => ?_
    exact stays_pure (Flow.call c)
  | pushClosure =>
    have shared : (modify fun m => { m with keeper := m.keeper.share frame } : Exec Unit).Stays R :=
      fun m => Machine.Permits.share m frame
    exact (stays_push (.frame frame)).bind fun _ => shared.next
  | makeFunc body =>
    refine stays_popAs.bind fun closure => (stays_newCallable _).bind fun c => ?_
    exact (stays_push (.callable c)).next
  | ret => exact stays_pure Flow.leave
  | alloc record => exact stays_pure (Flow.construct record)

end Exec

/-! ## Natives -/

section Natives

variable {R : Machine → Machine → Prop} [Machine.Permits R]

/-- Every request of a native makes only changes. -/
theorem Request.stays_serve (s : Store) (held : Heap → List Object) (q : Request) :
    (q.serve s held).Stays R := by
  cases q with
  | push v => exact Exec.stays_push v
  | pop => exact Exec.stays_pop
  | top => exact Exec.stays_top
  | setTop v => exact Exec.stays_setTop v
  | height => exact Exec.stays_view _
  | available => exact Exec.stays_view _
  | values => exact Exec.stays_view _
  | depth => exact Exec.stays_view _
  | globals => exact Exec.stays_view _
  | liveFrames => exact Exec.stays_view _
  | newArray items => exact Exec.stays_newArray items
  | blankArray length => exact Exec.stays_newArray (Array.replicate length .nil)
  | items a => exact Exec.stays_view _
  | getItem a index => exact Exec.stays_get (.array a) index
  | setItem a index v => exact Exec.stays_put (.array a) index v
  | append a v => exact fun m => Machine.Permits.append m a v
  | newThunk func arg => exact Exec.stays_newCallable (.thunk · func arg)
  | text v => exact Exec.stays_view _
  | write t => exact fun m => Machine.Permits.write m _
  | interrupt => exact Machine.Permits.raise

/-- A native makes only changes up to its end or its next call. -/
theorem Routine.stays_advance {α : Type} (s : Store) (held : Heap → List Object) (r : Routine α)
    (taken : List Value) (m : Machine) : R m (r.advance s held taken m).2 := by
  induction r generalizing taken m with
  | done a => exact Machine.Permits.letGoAll m taken
  | fail f => exact Machine.Permits.letGoAll m taken
  | invoke c next _ => exact Machine.Permits.refl m
  | ask q next ih =>
    have comes := q.stays_serve (R := R) s (holding taken held) m
    rw [advance]
    generalize q.serve s (holding taken held) m = r at comes
    cases r with
    | ok reply m' => exact Machine.Permits.trans comes (ih reply _ m')
    | error f m' => exact Machine.Permits.trans comes.2 (Machine.Permits.letGoAll m' _)

end Natives

end PlotMachine
