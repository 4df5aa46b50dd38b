import PlotMachine.Proofs.Entering

/-!
# Machines that are alike

Some properties of runs compare two of them: with less and with more room, above one stack and above
another, with one frame pool and with another. A `Likeness` says in what the two runs may differ, and
`Likeness.Machines` that two machines differ in nothing else. Values lie above a bottom of the stack
that is out of reach and of another height in each machine, so heights are related by what lies above
the bottoms.

Which frames are in use may differ too, since it can hang on values that are out of reach. It makes
no difference to a run because buffers are parked empty: a frame is the same whether or not it is
built in a parked buffer (`Pool.take_of_clean`).
-/

namespace PlotMachine

/-- The same failure is still the same once it has a position. -/
theorem Failure.locate_same {f₁ f₂ : Failure} (same : f₁ = f₂) (p : Position) :
    f₁.locate p = f₂.locate p := by
  rw [same]

/-- In what two runs may differ. -/
structure Likeness where
  /-- The values of the first stack that are out of reach. -/
  bottom₁ : Array Value
  /-- The values of the second stack that are out of reach. -/
  bottom₂ : Array Value
  /-- Ceilings of one call. -/
  ceilings : Nat → Nat → Prop
  /-- How many values one lambda may hold on the stack. -/
  headrooms : Nat → Nat → Prop
  /-- How many lambdas may run inside each other in the first run. -/
  maxDepth₁ : Nat
  /-- How many lambdas may run inside each other in the second run. -/
  maxDepth₂ : Nat
  /-- Failures that count as the same. -/
  failures : Failure → Failure → Prop
  /-- Faults of the first run after which nothing is asked of the second one. -/
  excused₁ : Fault → Prop
  /-- Faults of the second run after which nothing is asked of the first one. -/
  excused₂ : Fault → Prop
  /-- Nothing but the frame pools differs, so that the runs cannot be told apart. -/
  strict : Prop
  -- a new ceiling is set above what lies on the stack
  ceilings_raise : ∀ {n₁ n₂}, headrooms n₁ n₂ → ∀ k,
    ceilings (min (bottom₁.size + k + n₁) (wordCount - 1))
      (min (bottom₂.size + k + n₂) (wordCount - 1))
  -- there is room in both stacks or in none, or else the fault is excused
  room : ∀ {c₁ c₂}, ceilings c₁ c₂ → ∀ k,
    (bottom₁.size + k < c₁ ∧ bottom₂.size + k < c₂) ∨
    (c₁ ≤ bottom₁.size + k ∧ c₂ ≤ bottom₂.size + k ∧
      failures (Fault.stackOverflow c₁) (Fault.stackOverflow c₂)) ∨
    (c₁ ≤ bottom₁.size + k ∧ excused₁ (.stackOverflow c₁)) ∨
    (c₂ ≤ bottom₂.size + k ∧ excused₂ (.stackOverflow c₂))
  depths : maxDepth₁ = maxDepth₂ ∨
    (maxDepth₁ ≤ maxDepth₂ ∧ excused₁ (.callDepthExceeded maxDepth₁))
  failures_refl : ∀ f, failures f f
  failures_locate : ∀ {f₁ f₂}, failures f₁ f₂ → ∀ p, failures (f₁.locate p) (f₂.locate p)
  bottom_of_strict : strict → bottom₁ = bottom₂
  failures_of_strict : strict → ∀ {f₁ f₂}, failures f₁ f₂ → f₁ = f₂
  excused_of_strict : strict → ∀ f, ¬ excused₁ f ∧ ¬ excused₂ f

/-! ## Pools -/

/-- The buffers that are parked are empty. -/
def Pool.Clean (p : Pool) : Prop := p.All fun _ => False

/-- A frame that is built in a parked buffer is as good as new. -/
theorem Pool.take_of_clean {p : Pool} (clean : p.Clean) (length : Nat) :
    (p.take length).1 = Array.replicate length .nil := by
  rw [take]
  split
  · next b found =>
    have empty : b.buffer = #[] :=
      Array.eq_empty_iff_forall_not_mem.2 fun v inside =>
        clean b (List.mem_of_find?_eq_some found) v inside
    rw [empty, resize_empty]
  · rfl

namespace Keeper

/-- A change of the account of frames that parks empty buffers and looks at nothing in the pool. -/
structure Blind (f : Keeper → Keeper) : Prop where
  clean : ∀ k : Keeper, k.pool.Clean → (f k).pool.Clean
  withPool : ∀ (k : Keeper) (p : Pool), ∃ p', f { k with pool := p } = { f k with pool := p' }

theorem blind_id : Blind id := ⟨fun _ clean => clean, fun _ p => ⟨p, rfl⟩⟩

/-- One change after another. -/
theorem Blind.comp {f g : Keeper → Keeper} (second : Blind g) (first : Blind f) :
    Blind fun k => g (f k) where
  clean k clean := second.clean _ (first.clean k clean)
  withPool k p := by
    obtain ⟨p', same⟩ := first.withPool k p
    obtain ⟨p'', same'⟩ := second.withPool (f k) p'
    exact ⟨p'', by rw [same, same']⟩

/-- One change for each item of a list. -/
theorem blind_foldl {α : Type} {f : Keeper → α → Keeper} (blind : ∀ a, Blind (f · a))
    (items : List α) : Blind fun k => items.foldl f k := by
  induction items with
  | nil => exact blind_id
  | cons a rest ih => exact ih.comp (blind a)

/-- A change that depends on something that is not in the pool. -/
theorem Blind.ite {c : Keeper → Prop} [DecidablePred c] {f g : Keeper → Keeper} (yes : Blind f)
    (no : Blind g) (same : ∀ (k : Keeper) (p : Pool), c { k with pool := p } = c k) :
    Blind fun k => if c k then f k else g k where
  clean k clean := by
    by_cases h : c k
    · rw [if_pos h]
      exact yes.clean k clean
    · rw [if_neg h]
      exact no.clean k clean
  withPool k p := by
    by_cases h : c k
    · rw [if_pos h, if_pos ((same k p).mpr h)]
      exact yes.withPool k p
    · rw [if_neg h, if_neg fun h' => h ((same k p).mp h')]
      exact no.withPool k p

theorem blind_letGo (v : Value) : Blind (·.letGo v) :=
  blind_id.ite ⟨fun _ clean => clean, fun _ p => ⟨p, rfl⟩⟩ fun _ _ => rfl

theorem blind_share (f : FrameRef) : Blind (·.share f) :=
  Blind.ite ⟨fun _ clean => clean, fun _ p => ⟨p, rfl⟩⟩ blind_id fun _ _ => rfl

theorem blind_register (f : FrameRef) : Blind (·.register f) :=
  ⟨fun _ clean => clean, fun _ p => ⟨p, rfl⟩⟩

theorem blind_enter (status : FrameStatus) (f : FrameRef) : Blind (·.enter status f) :=
  ⟨fun _ clean => clean, fun _ p => ⟨p, rfl⟩⟩

theorem blind_release (h : Heap) (f : FrameRef) : Blind (·.release h f) :=
  ⟨fun _ clean => clean.give _, fun _ p => ⟨p.give (h.slots f), rfl⟩⟩

/-- Takes a buffer for a frame out of the pool. -/
theorem blind_take (length : Nat) : Blind fun k => { k with pool := (k.pool.take length).2 } :=
  ⟨fun _ clean => clean.take length, fun _ p => ⟨(p.take length).2, rfl⟩⟩

theorem blind_settle (h : Heap) (roots : List Object) : Blind (·.settle h roots) where
  clean k clean := all_settle clean h roots
  withPool k p := by
    -- who is buried depends on what is held and let go, and burying parks a buffer for each
    have released := blind_foldl (fun f => blind_release h f)
      (k.census h roots).buried.reverse
    obtain ⟨p', same⟩ := released.withPool k p
    refine ⟨p', ?_⟩
    have census : { k with pool := p }.census h roots = k.census h roots := rfl
    simp only [settle, census, same]
    rfl

/-- Settles, unless there is nothing to watch. The values that the host holds are held besides the
given objects. -/
def settleBetween (h : Heap) (front back : List Object) (k : Keeper) : Keeper :=
  if k.idle then k else k.settle h (front ++ k.pins.flatMap Value.references ++ back)

theorem blind_settleBetween (h : Heap) (front back : List Object) :
    Blind (settleBetween h front back) := by
  refine Blind.ite blind_id ⟨fun k clean => all_settle clean h _, fun k p => ?_⟩ fun _ _ => rfl
  exact (blind_settle h (front ++ k.pins.flatMap Value.references ++ back)).withPool k p

end Keeper

namespace Machine

/-- The objects held by the machine itself. -/
def machineRoots (m : Machine) : List Object :=
  .frame m.globals :: m.heap.references (.frame m.globals)
    ++ m.stack.values.toList.flatMap Value.references

/-- Settling changes the account of frames and nothing else. -/
theorem settle_eq (m : Machine) (held : Heap → List Object) :
    m.settle held =
      { m with keeper := m.keeper.settleBetween m.heap m.machineRoots (held m.heap) } := by
  rw [settle, Keeper.settleBetween]
  split
  · rfl
  · rfl

end Machine

namespace Likeness

variable (L : Likeness)

/-! ## Stacks -/

/-- Heights with as many values above the bottoms. -/
def Heights (n₁ n₂ : Nat) : Prop :=
  ∃ n, n₁ = L.bottom₁.size + n ∧ n₂ = L.bottom₂.size + n

/-- Stacks with the same values in reach. -/
structure Stacks (s₁ s₂ : Stack) : Prop where
  values : ∃ top, s₁.values = L.bottom₁ ++ top ∧ s₂.values = L.bottom₂ ++ top
  floor : L.Heights s₁.floor s₂.floor
  ceiling : L.ceilings s₁.ceiling s₂.ceiling
  depth : s₂.depth = s₁.depth
  maxDepth₁ : s₁.maxDepth = L.maxDepth₁
  maxDepth₂ : s₂.maxDepth = L.maxDepth₂

variable {L}

namespace Stacks

variable {s₁ s₂ : Stack} (matched : L.Stacks s₁ s₂)

include matched

theorem height : L.Heights s₁.height s₂.height := by
  obtain ⟨top, values₁, values₂⟩ := matched.values
  refine ⟨top.size, ?_, ?_⟩
  · rw [Stack.height, values₁, Array.size_append]
  · rw [Stack.height, values₂, Array.size_append]

theorem available : s₂.available = s₁.available := by
  obtain ⟨k, height₁, height₂⟩ := matched.height
  obtain ⟨n, floor₁, floor₂⟩ := matched.floor
  unfold Stack.available
  omega

/-- The values of strictly alike stacks are the same. -/
theorem values_eq (strict : L.strict) : s₂.values = s₁.values := by
  obtain ⟨top, values₁, values₂⟩ := matched.values
  rw [values₁, values₂, L.bottom_of_strict strict]

/-- If a value is in reach there is one above the bottoms. -/
theorem exists_top (reach : s₁.floor < s₁.height) :
    ∃ top, top ≠ #[] ∧ s₁.values = L.bottom₁ ++ top ∧ s₂.values = L.bottom₂ ++ top := by
  obtain ⟨top, values₁, values₂⟩ := matched.values
  refine ⟨top, ?_, values₁, values₂⟩
  rintro rfl
  obtain ⟨n, floor₁, -⟩ := matched.floor
  rw [Stack.height, values₁, Array.append_empty] at reach
  omega

theorem top? : s₂.top? = s₁.top? := by
  obtain ⟨k, height₁, height₂⟩ := matched.height
  obtain ⟨n, floor₁, floor₂⟩ := matched.floor
  unfold Stack.top?
  by_cases reach : s₁.floor < s₁.height
  · have reach' : s₂.floor < s₂.height := by omega
    obtain ⟨top, some, values₁, values₂⟩ := matched.exists_top reach
    have last : top.back?.isSome := Array.back?_isSome.2 some
    rw [if_pos reach, if_pos reach', values₁, values₂, Array.back?_append, Array.back?_append,
      Option.or_of_isSome last, Option.or_of_isSome last]
  · have beyond : ¬ s₂.floor < s₂.height := by omega
    rw [if_neg reach, if_neg beyond]

theorem push (v : Value) : L.Stacks (s₁.push v) (s₂.push v) := by
  obtain ⟨top, values₁, values₂⟩ := matched.values
  refine { matched with values := ⟨top.push v, ?_, ?_⟩ }
  · rw [Stack.push, values₁, Array.push_append]
  · rw [Stack.push, values₂, Array.push_append]

theorem drop {v : Value} (found : s₁.top? = some v) : L.Stacks s₁.drop s₂.drop := by
  obtain ⟨top, some, values₁, values₂⟩ := matched.exists_top (Stack.top?_eq_some found).1
  refine { matched with values := ⟨top.pop, ?_, ?_⟩ }
  · rw [Stack.drop, values₁, Array.pop_append_of_ne_empty some]
  · rw [Stack.drop, values₂, Array.pop_append_of_ne_empty some]

theorem truncate {n₁ n₂ : Nat} (heights : L.Heights n₁ n₂) :
    L.Stacks (s₁.truncate n₁) (s₂.truncate n₂) := by
  obtain ⟨top, values₁, values₂⟩ := matched.values
  obtain ⟨n, rfl, rfl⟩ := heights
  have cut : ∀ bottom : Array Value, (bottom ++ top).take (bottom.size + n) = bottom ++ top.take n := by
    intro bottom
    simp [Array.extract_append, Array.extract_eq_self_of_le]
  refine { matched with values := ⟨top.take n, ?_, ?_⟩ }
  · rw [Stack.truncate, values₁, cut]
  · rw [Stack.truncate, values₂, cut]

theorem above {n₁ n₂ : Nat} (heights : L.Heights n₁ n₂) : s₂.above n₂ = s₁.above n₁ := by
  obtain ⟨top, values₁, values₂⟩ := matched.values
  obtain ⟨n, rfl, rfl⟩ := heights
  have cut : ∀ bottom : Array Value,
      (bottom ++ top).extract (bottom.size + n) (bottom ++ top).size = top.extract n top.size := by
    intro bottom
    simp
  unfold Stack.above Stack.height
  rw [values₁, values₂, cut, cut]

/-- The stack below arguments that are in reach. -/
theorem argBase {params : Nat} (reach : params ≤ s₁.available) :
    L.Heights (s₁.height - params) (s₂.height - params) := by
  obtain ⟨k, height₁, height₂⟩ := matched.height
  obtain ⟨n, floor₁, floor₂⟩ := matched.floor
  unfold Stack.available at reach
  exact ⟨k - params, by omega, by omega⟩

end Stacks

/-! ## Accounts of frames -/

variable (L)

/-- Accounts of frames with empty parked buffers. If the likeness is strict the accounts are the same
but for the pools. -/
structure Keepers (k₁ k₂ : Keeper) : Prop where
  clean₁ : k₁.pool.Clean
  clean₂ : k₂.pool.Clean
  same : L.strict → k₂ = { k₁ with pool := k₂.pool }

variable {L}

theorem Keepers.map {k₁ k₂ : Keeper} {f₁ f₂ : Keeper → Keeper} (keepers : L.Keepers k₁ k₂)
    (blind₁ : Keeper.Blind f₁) (blind₂ : Keeper.Blind f₂) (agree : L.strict → f₁ = f₂) :
    L.Keepers (f₁ k₁) (f₂ k₂) where
  clean₁ := blind₁.clean k₁ keepers.clean₁
  clean₂ := blind₂.clean k₂ keepers.clean₂
  same strict := by
    obtain ⟨p, same⟩ := blind₁.withPool k₁ k₂.pool
    rw [← agree strict, keepers.same strict, same]

/-! ## Machines -/

variable (L)

/-- Machines that differ in nothing but what the likeness allows. -/
structure Machines (m₁ m₂ : Machine) : Prop where
  stack : L.Stacks m₁.stack m₂.stack
  heap : m₂.heap = m₁.heap
  globals : m₂.globals = m₁.globals
  interrupt : m₂.interrupt = m₁.interrupt
  output : m₂.output = m₁.output
  keeper : L.Keepers m₁.keeper m₂.keeper

variable {L}

namespace Machines

variable {m₁ m₂ : Machine} (machines : L.Machines m₁ m₂)

include machines

theorem withStack {s₁ s₂ : Stack} (matched : L.Stacks s₁ s₂) :
    L.Machines { m₁ with stack := s₁ } { m₂ with stack := s₂ } :=
  { machines with stack := matched }

/-- The same change of the heap. -/
theorem withHeap {h₁ h₂ : Heap} (same : h₂ = h₁) :
    L.Machines { m₁ with heap := h₁ } { m₂ with heap := h₂ } :=
  { machines with heap := same }

/-- Changes of the accounts that are the same if the likeness is strict. -/
theorem withKeeper {f₁ f₂ : Keeper → Keeper} (blind₁ : Keeper.Blind f₁)
    (blind₂ : Keeper.Blind f₂) (agree : L.strict → f₁ = f₂) :
    L.Machines { m₁ with keeper := f₁ m₁.keeper } { m₂ with keeper := f₂ m₂.keeper } :=
  { machines with keeper := machines.keeper.map blind₁ blind₂ agree }

/-- The same change of the accounts. -/
theorem keep {f : Keeper → Keeper} (blind : Keeper.Blind f) :
    L.Machines { m₁ with keeper := f m₁.keeper } { m₂ with keeper := f m₂.keeper } :=
  machines.withKeeper blind blind fun _ => rfl

theorem letGo (v : Value) : L.Machines (m₁.letGo v) (m₂.letGo v) := by
  rw [Machine.letGo_eq, Machine.letGo_eq]
  exact machines.keep (Keeper.blind_letGo v)

theorem letGoAll (values : List Value) :
    L.Machines (m₁.letGoAll values) (m₂.letGoAll values) := by
  rw [Machine.letGoAll_eq, Machine.letGoAll_eq]
  exact machines.keep (Keeper.blind_foldl Keeper.blind_letGo values)

theorem cutStack {n₁ n₂ : Nat} (heights : L.Heights n₁ n₂) :
    L.Machines (m₁.cutStack n₁) (m₂.cutStack n₂) := by
  rw [Machine.cutStack, Machine.cutStack, machines.stack.above heights]
  exact (machines.withStack (machines.stack.truncate heights)).letGoAll _

theorem settle {held₁ held₂ : Heap → List Object}
    (agree : L.strict → held₂ m₁.heap = held₁ m₁.heap) :
    L.Machines (m₁.settle held₁) (m₂.settle held₂) := by
  rw [Machine.settle_eq, Machine.settle_eq]
  refine machines.withKeeper (Keeper.blind_settleBetween _ _ _)
    (Keeper.blind_settleBetween _ _ _) fun strict => ?_
  unfold Machine.machineRoots
  rw [machines.globals, machines.heap, machines.stack.values_eq strict, agree strict]

/-- New frames are the same one, whatever the pools. -/
theorem newFrame (status : FrameStatus) (length : Nat) :
    (m₂.newFrame status length).1 = (m₁.newFrame status length).1 ∧
      L.Machines (m₁.newFrame status length).2 (m₂.newFrame status length).2 := by
  have slots₁ := Pool.take_of_clean machines.keeper.clean₁ length
  have slots₂ := Pool.take_of_clean machines.keeper.clean₂ length
  unfold Machine.newFrame Machine.addFrame
  dsimp only
  rw [slots₁, slots₂, machines.heap]
  refine ⟨rfl, ?_⟩
  have taken := (machines.keep (Keeper.blind_take length)).keep
    (Keeper.blind_enter status ⟨m₁.heap.frames.size⟩)
  exact taken.withHeap rfl

theorem register (f : FrameRef) : L.Machines (m₁.register f) (m₂.register f) :=
  machines.keep (Keeper.blind_register f)

end Machines

end Likeness

end PlotMachine
