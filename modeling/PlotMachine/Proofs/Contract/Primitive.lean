import PlotMachine.Proofs.Contract

/-!
# Primitive computations observe every contract

The stack operations, the accesses to the heap and the account of frames, one lemma each. A lemma asks
for what has to be known of the values that go in and says what is known of those that come out.
-/

namespace PlotMachine

/-! ## The pool and the account of frames -/

namespace Pool

variable {P : Value → Prop}

/-- A buffer is parked empty. -/
theorem All.give {p : Pool} (all : p.All P) (slots : Array Value) : (p.give slots).All P := by
  rw [Pool.give]
  split
  · intro b parked v inside
    rcases List.mem_cons.1 parked with new | old
    · subst new
      simp at inside
    · exact all b old v inside
  · exact all

/-- Taking a buffer leaves the others as they were. -/
theorem All.take {p : Pool} (all : p.All P) (length : Nat) : (p.take length).2.All P := by
  rw [Pool.take]
  split
  · exact fun b parked => all b (List.mem_of_mem_eraseP parked)
  · exact all

theorem all_true (p : Pool) : p.All fun _ => True := fun _ _ _ _ => trivial

theorem All.imp {Q : Value → Prop} {p : Pool} (all : p.All P) (weaker : ∀ v, P v → Q v) : p.All Q :=
  fun b parked v inside => weaker v (all b parked v inside)

/-- A frame is made of what was parked and of nil. -/
theorem All.mem_take {p : Pool} (all : p.All P) (nil : P .nil) {length : Nat} {v : Value}
    (inside : v ∈ (p.take length).1) : P v := by
  rw [Pool.take] at inside
  split at inside
  · next b found =>
    simp only [resize, Array.mem_append, Array.take_eq_extract] at inside
    rcases inside with parked | filled
    · obtain ⟨i, _, same⟩ := Array.mem_extract_iff_getElem.1 parked
      exact all b (List.mem_of_find?_eq_some found) v (same ▸ Array.getElem_mem _)
    · rw [Array.eq_of_mem_replicate filled]
      exact nil
  · rw [Array.eq_of_mem_replicate inside]
    exact nil

end Pool

namespace Keeper

/-- Noting that a value lost a holder leaves the pool as it was. -/
@[simp] theorem pool_letGo (k : Keeper) (v : Value) : (k.letGo v).pool = k.pool := by
  rw [letGo]
  split <;> rfl

@[simp] theorem pool_foldl_letGo (k : Keeper) (values : List Value) :
    (values.foldl letGo k).pool = k.pool := by
  induction values generalizing k with
  | nil => rfl
  | cons v rest ih => rw [List.foldl_cons, ih, pool_letGo]

@[simp] theorem pool_register (k : Keeper) (f : FrameRef) : (k.register f).pool = k.pool := rfl

@[simp] theorem pool_share (k : Keeper) (f : FrameRef) : (k.share f).pool = k.pool := by
  rw [share]
  split <;> rfl

/-- Frames that fall out of use are parked empty. -/
theorem all_foldl_release {P : Value → Prop} {k : Keeper} (all : k.pool.All P) (h : Heap)
    (frames : List FrameRef) :
    (frames.foldl (fun k f => k.release h f) k).pool.All P := by
  induction frames generalizing k with
  | nil => exact all
  | cons f rest ih => exact ih (all.give (h.slots f))

theorem all_settle {P : Value → Prop} {k : Keeper} (all : k.pool.All P) (h : Heap)
    (roots : List Object) : (k.settle h roots).pool.All P :=
  all_foldl_release all h _

end Keeper

namespace Machine

@[simp] theorem stack_letGo (m : Machine) (v : Value) : (m.letGo v).stack = m.stack := by
  rw [letGo_eq]

@[simp] theorem heap_letGo (m : Machine) (v : Value) : (m.letGo v).heap = m.heap := by
  rw [letGo_eq]

@[simp] theorem globals_letGo (m : Machine) (v : Value) : (m.letGo v).globals = m.globals := by
  rw [letGo_eq]

@[simp] theorem pool_letGo (m : Machine) (v : Value) :
    (m.letGo v).keeper.pool = m.keeper.pool := by
  rw [letGo_eq, Keeper.pool_letGo]

@[simp] theorem stack_letGoAll (m : Machine) (values : List Value) :
    (m.letGoAll values).stack = m.stack := by
  rw [letGoAll_eq]

@[simp] theorem heap_letGoAll (m : Machine) (values : List Value) :
    (m.letGoAll values).heap = m.heap := by
  rw [letGoAll_eq]

@[simp] theorem globals_letGoAll (m : Machine) (values : List Value) :
    (m.letGoAll values).globals = m.globals := by
  rw [letGoAll_eq]

@[simp] theorem pool_letGoAll (m : Machine) (values : List Value) :
    (m.letGoAll values).keeper.pool = m.keeper.pool := by
  rw [letGoAll_eq, Keeper.pool_foldl_letGo]

@[simp] theorem globals_cutStack (m : Machine) (height : Nat) :
    (m.cutStack height).globals = m.globals := by
  rw [cutStack, globals_letGoAll]

@[simp] theorem pool_cutStack (m : Machine) (height : Nat) :
    (m.cutStack height).keeper.pool = m.keeper.pool := by
  rw [cutStack, pool_letGoAll]

end Machine

/-! ## Machines that observe a contract -/

namespace Contract

variable {K : Contract}

/-- A contract looks at the stack, the heap, the global frame and the pool of a machine. -/
theorem Rests.congr {m m' : Machine} (rests : K.Rests m) (stack : m'.stack.values = m.stack.values)
    (heap : m'.heap = m.heap) (globals : m'.globals = m.globals)
    (pool : m'.keeper.pool.All K.parked) : K.Rests m' where
  bottom i low := by rw [stack]; exact rests.bottom i low
  values i v high found := rests.values i v high (by rw [← stack]; exact found)
  globals := globals.trans rests.globals
  heap := heap ▸ rests.heap
  pool := pool

namespace Holds

variable {m : Machine} (holds : K.Holds m)

include holds

/-- Nothing happened yet. -/
theorem follows : K.Follows m m :=
  ⟨holds, .refl holds.floor_le, .refl m.heap⟩

/-- Work above the floor leaves the bottom of the stack as it was. -/
theorem bottom_of_within {s : Stack} (within : m.stack.Within s) :
    ∀ i, i < K.base → s.values[i]? = K.bottom[i]? :=
  fun i low =>
    (within.below i (Nat.lt_of_lt_of_le low holds.base_le)).trans (holds.bottom i low)

/-- The top value may come into play. -/
theorem fit_top {v : Value} (found : m.stack.top? = some v) : K.Fit v := by
  obtain ⟨reach, last⟩ := Stack.top?_eq_some found
  exact holds.values _ v (Nat.le_trans holds.base_le (Nat.le_sub_one_of_lt reach)) last

theorem push {v : Value} (fit : K.Fit v) :
    K.Follows m { m with stack := m.stack.push v } where
  holds :=
    { bottom := holds.bottom_of_within (Stack.within_push holds.floor_le v)
      values := fun i w high found => by
        simp only [Stack.push, Array.getElem?_push] at found
        split at found
        · cases found
          exact fit
        · exact holds.values i w high found
      globals := holds.globals
      heap := holds.heap
      pool := holds.pool
      base_le := holds.base_le
      floor_le := (Stack.within_push holds.floor_le v).height }
  continues := ⟨Stack.within_push holds.floor_le v, .refl m.heap⟩

theorem drop {v : Value} (found : m.stack.top? = some v) :
    K.Follows m { m with stack := m.stack.drop } where
  holds :=
    { bottom := holds.bottom_of_within (Stack.within_drop (Stack.top?_eq_some found).1)
      values := fun i w high inside => holds.values i w high (Stack.getElem?_drop inside)
      globals := holds.globals
      heap := holds.heap
      pool := holds.pool
      base_le := holds.base_le
      floor_le := (Stack.within_drop (Stack.top?_eq_some found).1).height }
  continues := ⟨Stack.within_drop (Stack.top?_eq_some found).1, .refl m.heap⟩

/-- A cut above the floor. -/
theorem cutStack {height : Nat} (high : m.stack.floor ≤ height) :
    K.Follows m (m.cutStack height) := by
  have within : m.stack.Within (m.cutStack height).stack := by
    rw [Machine.stack_cutStack]
    refine ⟨rfl, rfl, ?_, fun i low => ?_⟩
    · rw [Stack.height_truncate]
      exact Nat.le_min.2 ⟨high, holds.floor_le⟩
    · rw [Stack.getElem?_truncate, if_pos (Nat.lt_of_lt_of_le low high)]
  exact
    { holds :=
        { bottom := holds.bottom_of_within within
          values := fun i v above found => by
            rw [Machine.stack_cutStack, Stack.getElem?_truncate] at found
            split at found
            · exact holds.values i v above found
            · cases found
          globals := by rw [Machine.globals_cutStack]; exact holds.globals
          heap := by rw [Machine.heap_cutStack]; exact holds.heap
          pool := by rw [Machine.pool_cutStack]; exact holds.pool
          base_le := by rw [Machine.stack_cutStack]; exact holds.base_le
          floor_le := within.floor ▸ within.height }
      continues := ⟨within, by rw [Machine.heap_cutStack]; exact .refl m.heap⟩ }

/-- A change of the heap that observes the contract. -/
theorem withHeap {h : Heap} (tends : K.Tends h) (grown : m.heap.Extends h) :
    K.Follows m { m with heap := h } where
  holds :=
    { bottom := holds.bottom
      values := holds.values
      globals := holds.globals
      heap := tends
      pool := holds.pool
      base_le := holds.base_le
      floor_le := holds.floor_le }
  continues := ⟨.refl holds.floor_le, grown⟩

end Holds

namespace Follows

variable {m m' m'' : Machine}

theorem trans (first : K.Follows m m') (second : K.Follows m' m'') : K.Follows m m'' :=
  ⟨second.holds, first.continues.trans second.continues⟩

/-- Only the account of frames, the output and the interrupt may differ. -/
theorem congr (follows : K.Follows m m') (stack : m''.stack = m'.stack)
    (heap : m''.heap = m'.heap) (globals : m''.globals = m'.globals)
    (pool : m''.keeper.pool = m'.keeper.pool) : K.Follows m m'' where
  holds :=
    { toRests := follows.holds.toRests.congr (by rw [stack]) heap globals
        (pool ▸ follows.holds.pool)
      base_le := stack ▸ follows.holds.base_le
      floor_le := stack ▸ follows.holds.floor_le }
  continues := ⟨stack ▸ follows.continues.stack, heap ▸ follows.continues.heap⟩

theorem letGo (follows : K.Follows m m') (v : Value) : K.Follows m (m'.letGo v) :=
  follows.congr (by simp) (by simp) (by simp) (by simp)

theorem letGoAll (follows : K.Follows m m') (values : List Value) :
    K.Follows m (m'.letGoAll values) :=
  follows.congr (by simp) (by simp) (by simp) (by simp)

end Follows

end Contract

/-! ## Computations -/

namespace Exec

variable {K : Contract} {α β : Type}

/-- What is known of the results may be weakened. -/
theorem Obeys.imp {x : Exec α} {Q Q' : α → Prop} (obeys : x.Obeys K Q)
    (weaker : ∀ a, Q a → Q' a) : x.Obeys K Q' := by
  intro m holds
  have answers := obeys m holds
  cases result : x m with
  | ok a m' =>
    rw [result] at answers
    exact ⟨weaker a answers.1, answers.2⟩
  | error f m' =>
    rw [result] at answers
    exact answers

theorem obeys_pure {Q : α → Prop} {a : α} (known : Q a) : (pure a : Exec α).Obeys K Q :=
  fun _ holds => ⟨known, holds.follows⟩

/-- One computation after another. -/
theorem Obeys.bind {x : Exec α} {f : α → Exec β} {Q : α → Prop} {Q' : β → Prop}
    (first : x.Obeys K Q) (second : ∀ a, Q a → (f a).Obeys K Q') : (x >>= f).Obeys K Q' := by
  intro m holds
  have answers := first m holds
  simp only [Bind.bind, EStateM.bind]
  cases result : x m with
  | ok a m' =>
    rw [result] at answers
    have answers' := second a answers.1 m' answers.2.holds
    cases result' : f a m' with
    | ok b m'' =>
      simp only [result'] at answers' ⊢
      exact ⟨answers'.1, answers.2.trans answers'.2⟩
    | error e m'' =>
      simp only [result'] at answers' ⊢
      exact ⟨answers'.1, answers.2.trans answers'.2⟩
  | error e m' =>
    rw [result] at answers
    exact answers

/-- A fault that is not about a label may come out of any computation. -/
theorem obeys_fault {Q : α → Prop} {f : Fault} (may : K.failure f) : (fault f : Exec α).Obeys K Q :=
  fun _ holds => ⟨may, holds.follows⟩

theorem obeys_ofExcept {Q : α → Prop} {x : Except Fault α} (ok : ∀ a, x = .ok a → Q a)
    (error : ∀ f, x = .error f → K.failure f) : (ofExcept x).Obeys K Q := by
  cases x with
  | ok a => exact obeys_pure (ok a rfl)
  | error f => exact obeys_fault (error f rfl)

theorem obeys_view {Q : α → Prop} {f : Machine → α} (known : ∀ m, K.Holds m → Q (f m)) :
    (view f).Obeys K Q :=
  fun m holds => ⟨known m holds, holds.follows⟩

theorem obeys_push {v : Value} (fit : K.Fit v) : (push v).Obeys K fun _ => True := by
  intro m holds
  rw [push]
  split
  · exact ⟨K.failure_of _ rfl, holds.follows.letGo v⟩
  · exact ⟨trivial, holds.push fit⟩

theorem obeys_pop : pop.Obeys K K.Fit := by
  intro m holds
  rw [pop]
  split
  · next v found => exact ⟨holds.fit_top found, holds.drop found⟩
  · exact ⟨K.failure_of _ rfl, holds.follows⟩

theorem obeys_top : top.Obeys K K.Fit := by
  intro m holds
  rw [top]
  split
  · next v found => exact ⟨holds.fit_top found, holds.follows⟩
  · exact ⟨K.failure_of _ rfl, holds.follows⟩

theorem obeys_taking {body : Value → Exec α} {Q : α → Prop}
    (obeys : ∀ v, K.Fit v → (body v).Obeys K Q) : (taking body).Obeys K Q := by
  intro m holds
  rw [taking]
  split
  · next v found =>
    have dropped := holds.drop found
    have answers := obeys v (holds.fit_top found) _ dropped.holds
    cases result : body v { m with stack := m.stack.drop } with
    | ok a m' =>
      rw [result] at answers
      exact ⟨answers.1, (dropped.trans answers.2).letGo v⟩
    | error f m' =>
      rw [result] at answers
      exact ⟨answers.1, (dropped.trans answers.2).letGo v⟩
  · exact ⟨K.failure_of _ rfl, holds.follows⟩

/-! ## Reading and writing data -/

/-- Data are read off the value that carries them. -/
theorem toValue_of_read [Payload α] {v : Value} {a : α} (found : v.read = .ok a) :
    Payload.toValue a = v := by
  rw [Value.read] at found
  split at found
  · next b same =>
    cases found
    exact Payload.toValue_eq same
  · cases found

/-- A value of the wrong kind is a fault that has nothing to do with labels. -/
theorem isLabelFault_of_read [Payload α] {v : Value} {f : Fault}
    (failed : (v.read : Except Fault α) = .error f) : f.isLabelFault = false := by
  rw [Value.read] at failed
  split at failed
  · cases failed
  · cases failed; rfl

section Data

variable [Payload α]

/-- What is read off a value that may come into play may come into play. -/
theorem obeys_read {v : Value} (fit : K.Fit v) :
    (ofExcept (v.read : Except Fault α)).Obeys K fun a => K.Fit (Payload.toValue a) :=
  obeys_ofExcept
    (fun _ found => by rw [toValue_of_read found]; exact fit)
    (fun _ failed => K.failure_of _ (isLabelFault_of_read failed))

theorem obeys_popAs : (popAs α).Obeys K fun a => K.Fit (Payload.toValue a) :=
  obeys_taking fun _ fit => obeys_read fit

theorem obeys_takingAs {body : α → Exec β} {Q : β → Prop}
    (obeys : ∀ a, K.Fit (Payload.toValue a) → (body a).Obeys K Q) : (takingAs body).Obeys K Q :=
  obeys_taking fun _ fit => (obeys_read fit).bind obeys

end Data

theorem obeys_setTop {v : Value} (fit : K.Fit v) : (setTop v).Obeys K fun _ => True := by
  intro m holds
  rw [setTop]
  split
  · next old found =>
    have dropped := holds.drop found
    exact ⟨trivial, (dropped.trans (dropped.holds.push fit)).letGo old⟩
  · exact ⟨K.failure_of _ rfl, holds.follows⟩

theorem obeys_get {o : Object} (reads : K.Reads o) (index : Nat) : (get o index).Obeys K K.Fit := by
  intro m holds
  simp only [get, inspect]
  split
  · next v found => exact ⟨holds.heap.fit_of_get reads found, holds.follows⟩
  · next e failed =>
    refine ⟨K.failure_of _ ?_, holds.follows⟩
    rw [Heap.get] at failed
    split at failed
    · cases failed
    · cases failed; rfl

theorem obeys_put {o : Object} (may : K.writes o) (index : Nat) {v : Value} (fit : K.Fit v) :
    (put o index v).Obeys K fun _ => True := by
  intro m holds
  simp only [put]
  split
  · next old found =>
    exact ⟨trivial,
      (holds.withHeap (holds.heap.put may index fit) (m.heap.extends_put o index v)).letGo old⟩
  · next e failed =>
    refine ⟨K.failure_of _ ?_, holds.follows⟩
    rw [Heap.get] at failed
    split at failed
    · cases failed
    · cases failed; rfl

/-- A new array may be held and written. -/
theorem obeys_newArray {items : Array Value} (fit : ∀ v ∈ items, K.Fit v) :
    (newArray items).Obeys K fun a => K.holds (.array a) :=
  fun m holds =>
    ⟨K.holds_new _ (holds.heap.not_has_start (m.heap.not_has_addArray items)),
      holds.withHeap (holds.heap.addArray fit) (m.heap.extends_addArray items)⟩

theorem obeys_newCallable {make : Nat → Callable} (calls : ∀ id, K.Calls (make id)) :
    (newCallable make).Obeys K K.Calls :=
  fun m holds =>
    ⟨calls _, holds.withHeap holds.heap.takeNumber m.heap.extends_takeNumber⟩

theorem obeys_poll : poll.Obeys K fun _ => True := by
  intro m holds
  rw [poll]
  split
  · exact ⟨K.failure_of _ rfl, holds.follows⟩
  · exact ⟨trivial, holds.follows⟩

end Exec

end PlotMachine
