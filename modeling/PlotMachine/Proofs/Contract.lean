import PlotMachine.Machine.Run
import PlotMachine.Proofs.Growth

/-!
# Contracts

What can be relied on while code runs is written down as a `Contract`: which objects values may
refer to, which objects may be written, which lambdas, record types and natives may come into play,
and which failures may come out. The values at the bottom of the stack are out of reach; the code
works above them.

`Contract.Holds` is the state of a machine in which the contract is observed, and
`Machine.Continues` is what one computation in it does to the machine whatever the contract: the
limits of the call stay as they are, nothing below the floor of the stack changes, and the heap
grows. `Exec.Obeys` says of a computation that it does both, and what its result is like. Everything
that code can do is built up from a few primitive computations, so the work is done once, for all
contracts, and a property of runs is the choice of a contract.
-/

namespace PlotMachine

/-- Whether a fault is about a label. -/
def Fault.isLabelFault : Fault → Bool
  | .labelOutOfBounds .. | .labelMismatch | .danglingLabel => true
  | _ => false

namespace Stack

/-- What a call is held to, apart from the values. -/
structure Limits where
  floor : Nat
  ceiling : Nat
  depth : Nat
  deriving DecidableEq, Repr, Inhabited

/-- The limits of the current call. -/
def limits (s : Stack) : Limits := ⟨s.floor, s.ceiling, s.depth⟩

/-- The second stack comes from the first one by work within the limits of a call. -/
structure Within (s s' : Stack) : Prop where
  limits : s'.limits = s.limits
  maxDepth : s'.maxDepth = s.maxDepth
  height : s.floor ≤ s'.height
  below : ∀ i, i < s.floor → s'.values[i]? = s.values[i]?

namespace Within

variable {s s' s'' : Stack}

theorem refl (h : s.floor ≤ s.height) : s.Within s := ⟨rfl, rfl, h, fun _ _ => rfl⟩

theorem floor (h : s.Within s') : s'.floor = s.floor := congrArg Limits.floor h.limits

theorem trans (first : s.Within s') (second : s'.Within s'') : s.Within s'' where
  limits := second.limits.trans first.limits
  maxDepth := second.maxDepth.trans first.maxDepth
  height := first.floor ▸ second.height
  below i low := (second.below i (by rw [first.floor]; exact low)).trans (first.below i low)

end Within

/-- A value that is in reach is the last one. -/
theorem top?_eq_some {s : Stack} {v : Value} (found : s.top? = some v) :
    s.floor < s.height ∧ s.values[s.height - 1]? = some v := by
  rw [top?] at found
  split at found
  · next reach => exact ⟨reach, by rw [← found, Array.back?, height]⟩
  · cases found

/-- A push works above the floor. -/
theorem within_push {s : Stack} (h : s.floor ≤ s.height) (v : Value) : s.Within (s.push v) where
  limits := rfl
  maxDepth := rfl
  height := by
    rw [height_push]
    exact Nat.le_succ_of_le h
  below i low := by
    have ne : i ≠ s.values.size := Nat.ne_of_lt (Nat.lt_of_lt_of_le low h)
    simp [push, Array.getElem?_push, ne]

/-- A drop of a value in reach works above the floor. -/
theorem within_drop {s : Stack} (reach : s.floor < s.height) : s.Within s.drop where
  limits := rfl
  maxDepth := rfl
  height := by
    rw [height_drop]
    exact Nat.le_sub_one_of_lt reach
  below i low := by
    have still : i < s.values.size - 1 := Nat.lt_of_lt_of_le low (Nat.le_sub_one_of_lt reach)
    simp [drop, still]

/-- The values of a stack that is lower by one are values of the stack. -/
theorem getElem?_drop {s : Stack} {i : Nat} {v : Value} (found : s.drop.values[i]? = some v) :
    s.values[i]? = some v := by
  simp only [drop, Array.getElem?_pop] at found
  split at found
  · exact found
  · cases found

/-- A cut keeps the values below it. -/
theorem getElem?_truncate (s : Stack) (n i : Nat) :
    (s.truncate n).values[i]? = if i < n then s.values[i]? else none := by
  rw [truncate, Array.take_eq_extract, Array.getElem?_extract, Nat.zero_add, Nat.sub_zero]
  by_cases inside : i < s.values.size
  · simp only [Nat.lt_min, inside, and_true]
  · simp [Array.getElem?_eq_none (Nat.le_of_not_lt inside)]

end Stack

/-- The values in parked buffers all have a property. -/
def Pool.All (P : Value → Prop) (p : Pool) : Prop := ∀ b ∈ p.parked, ∀ v ∈ b.buffer, P v

/-- What is known of values, objects and code while a run lasts. -/
structure Contract where
  /-- The values of the stack that are out of reach. -/
  bottom : Array Value
  /-- The heap at the start. -/
  start : Heap
  /-- The global frame. -/
  globals : FrameRef
  /-- The objects that values may refer to. -/
  holds : Object → Prop
  /-- The objects that may be written. -/
  writes : Object → Prop
  /-- The lambdas that may be called. -/
  lambda : LambdaRef → Prop
  /-- The record types that may be instantiated. -/
  record : RecordRef → Prop
  /-- The natives that may be called. -/
  native : Native → Prop
  /-- The failures that may come out. -/
  failure : Failure → Prop
  /-- The values that parked buffers may hold. -/
  parked : Value → Prop
  -- what a run makes is its own, and arrays can be written by whoever has them
  holds_new : ∀ o, ¬ start.Has o → holds o
  writes_new : ∀ o, ¬ start.Has o → writes o
  writes_array : ∀ a, holds (.array a) → writes (.array a)
  -- any other fault can come up in code that is valid
  failure_of : ∀ fault : Fault, fault.isLabelFault = false → failure fault
  failure_locate : ∀ f p, failure f → failure (f.locate p)

namespace Contract

variable (K : Contract)

/-- The height of the stack above which the run works. -/
def base : Nat := K.bottom.size

mutual

/-- A value that may come into play. -/
def Fit : Value → Prop
  | .array a => K.holds (.array a)
  | .record i => K.holds (.record i)
  | .frame f => K.holds (.frame f)
  | .callable c => Calls c
  | _ => True

/-- A callable that may come into play. -/
def Calls : Callable → Prop
  | .function _ body closure => K.lambda body ∧ ∀ f, closure = some f → K.holds (.frame f)
  | .native _ fn => K.native fn
  | .thunk _ func arg => Calls func ∧ Fit arg
  | .undefined => True

end

/-- The objects that code may read. -/
def Reads (o : Object) : Prop := K.holds o ∨ o = .frame K.globals

/-- A heap in which the contract is observed. -/
structure Tends (h : Heap) : Prop where
  grown : K.start.Extends h
  contents : ∀ o, K.Reads o → ∀ v ∈ h.contents o, K.Fit v
  kept : ∀ o, ¬ K.writes o → h.contents o = K.start.contents o

/-- A machine that observes the contract, whether or not anything runs. -/
structure Rests (m : Machine) : Prop where
  bottom : ∀ i, i < K.base → m.stack.values[i]? = K.bottom[i]?
  values : ∀ i v, K.base ≤ i → m.stack.values[i]? = some v → K.Fit v
  globals : m.globals = K.globals
  heap : K.Tends m.heap
  pool : m.keeper.pool.All K.parked

/-- A machine that observes the contract while something runs. -/
structure Holds (m : Machine) : Prop extends K.Rests m where
  base_le : K.base ≤ m.stack.floor
  floor_le : m.stack.floor ≤ m.stack.height

end Contract

/-- What a computation does to a machine whatever the contract. -/
structure Machine.Continues (m m' : Machine) : Prop where
  stack : m.stack.Within m'.stack
  heap : m.heap.Extends m'.heap

/-- One computation continues another. -/
theorem Machine.Continues.trans {m m' m'' : Machine} (first : m.Continues m')
    (second : m'.Continues m'') : m.Continues m'' :=
  ⟨first.stack.trans second.stack, first.heap.trans second.heap⟩

/-- A machine in which the contract still holds, and that came from another by a computation. -/
structure Contract.Follows (K : Contract) (m m' : Machine) : Prop where
  holds : K.Holds m'
  continues : m.Continues m'

/-- The result of a computation that observes a contract. -/
def Contract.Answers (K : Contract) {α : Type} (m : Machine) (Q : α → Prop) :
    EStateM.Result Failure Machine α → Prop
  | .ok a m' => Q a ∧ K.Follows m m'
  | .error f m' => K.failure f ∧ K.Follows m m'

/-- A computation observes a contract and its results are as described. -/
def Exec.Obeys (K : Contract) {α : Type} (x : Exec α) (Q : α → Prop) : Prop :=
  ∀ m, K.Holds m → K.Answers m Q (x m)

/-! ## Contracts and heaps -/

namespace Contract

variable {K : Contract}

/-- What an object that may be read holds may come into play. -/
theorem Tends.fit_of_get {h : Heap} (tends : K.Tends h) {o : Object} (reads : K.Reads o)
    {index : Nat} {v : Value} (found : h.get o index = .ok v) : K.Fit v := by
  rw [Heap.get] at found
  split at found
  · next v' inside =>
    cases found
    exact tends.contents o reads v (Array.mem_of_getElem? inside)
  · cases found

namespace Tends

variable {h : Heap} (tends : K.Tends h)

include tends

theorem put {o : Object} (may : K.writes o) (index : Nat) {v : Value} (fit : K.Fit v) :
    K.Tends (h.put o index v) where
  grown := tends.grown.trans (h.extends_put o index v)
  contents p reads w inside := by
    rw [Heap.contents_put] at inside
    split at inside
    · next same =>
      subst same
      rcases Array.mem_or_eq_of_mem_setIfInBounds inside with old | new
      · exact tends.contents p reads w old
      · exact new ▸ fit
    · exact tends.contents p reads w inside
  kept p locked := by
    have ne : p ≠ o := fun same => locked (same ▸ may)
    rw [Heap.contents_put, if_neg ne, tends.kept p locked]

theorem append {a : ArrayRef} (may : K.writes (.array a)) {v : Value} (fit : K.Fit v) :
    K.Tends (h.append a v) where
  grown := tends.grown.trans (h.extends_append a v)
  contents o reads w inside := by
    rw [Heap.contents_append] at inside
    split at inside
    · rcases Array.mem_push.1 inside with old | new
      · exact tends.contents o reads w old
      · exact new ▸ fit
    · exact tends.contents o reads w inside
  kept o locked := by
    have ne : o ≠ .array a := fun same => locked (same ▸ may)
    rw [Heap.contents_append, if_neg (fun both => ne both.1), tends.kept o locked]

theorem takeNumber : K.Tends h.takeNumber.2 where
  grown := tends.grown.trans h.extends_takeNumber
  contents o reads v inside := tends.contents o reads v (by simpa using inside)
  kept o locked := by simpa using tends.kept o locked

/-- An object that is added to the heap was not there at the start. -/
theorem not_has_start {o : Object} (new : ¬ h.Has o) : ¬ K.start.Has o :=
  fun old => new (tends.grown.has o old)

/-- A heap still observes the contract when one object is new and the others are as they were. -/
theorem add {h' : Heap} {new : Object} {values : Array Value} (grown : h.Extends h')
    (fresh : ¬ h.Has new)
    (contents : ∀ o, h'.contents o = if o = new then values else h.contents o)
    (fit : ∀ v ∈ values, K.Fit v) : K.Tends h' where
  grown := tends.grown.trans grown
  contents o reads v inside := by
    rw [contents] at inside
    split at inside
    · exact fit v inside
    · exact tends.contents o reads v inside
  kept o locked := by
    -- what is new may be written, so an object that may not be written is an old one
    have ne : o ≠ new := fun same => locked (same ▸ K.writes_new _ (tends.not_has_start fresh))
    rw [contents, if_neg ne, tends.kept o locked]

theorem addArray {items : Array Value} (fit : ∀ v ∈ items, K.Fit v) :
    K.Tends (h.addArray items).2 :=
  tends.add (h.extends_addArray items) (h.not_has_addArray items) (h.contents_addArray items) fit

theorem addInstance (r : RecordRef) (size : Nat) : K.Tends (h.addInstance r size).2 := by
  refine tends.add (h.extends_addInstance r size) (h.not_has_addInstance r size)
    (h.contents_addInstance r size) fun v inside => ?_
  rw [Array.eq_of_mem_replicate inside]
  trivial

theorem addFrame {slots : Array Value} (fit : ∀ v ∈ slots, K.Fit v) :
    K.Tends (h.addFrame slots).2 :=
  tends.add (h.extends_addFrame slots) (h.not_has_addFrame slots) (h.contents_addFrame slots) fit

end Tends

end Contract

end PlotMachine
