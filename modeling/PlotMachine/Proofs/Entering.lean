import PlotMachine.Proofs.Contract.Primitive

/-!
# Entering and leaving a lambda

`Env.Entered` is everything that entering a lambda does to the machine: the arguments move from the
stack to a new frame behind the captured values, and the limits of the call are set. `Env.leave` gives
the limits of the caller back. What these two lemmas say is all that later proofs use of them.
-/

namespace PlotMachine

namespace Machine

@[simp] theorem stack_settle (m : Machine) (held : Heap → List Object) :
    (m.settle held).stack = m.stack := by
  rw [settle]
  split <;> rfl

@[simp] theorem heap_settle (m : Machine) (held : Heap → List Object) :
    (m.settle held).heap = m.heap := by
  rw [settle]
  split <;> rfl

@[simp] theorem globals_settle (m : Machine) (held : Heap → List Object) :
    (m.settle held).globals = m.globals := by
  rw [settle]
  split <;> rfl

/-- Settling parks buffers empty. -/
theorem all_settle {P : Value → Prop} {m : Machine} (all : m.keeper.pool.All P)
    (held : Heap → List Object) : (m.settle held).keeper.pool.All P := by
  rw [settle]
  split
  · exact all
  · exact Keeper.all_settle all m.heap _

end Machine

namespace Env

/-- The values that a function brings along. -/
def captured (m : Machine) (closure : Option FrameRef) : Array Value :=
  (closure.map m.heap.slots).getD #[]

/-- What was captured are the slots of the closure. -/
theorem mem_captured {m : Machine} {closure : Option FrameRef} {v : Value}
    (inside : v ∈ captured m closure) : ∃ f, closure = some f ∧ v ∈ m.heap.slots f := by
  cases closure with
  | none => simp [captured] at inside
  | some f => exact ⟨f, rfl, inside⟩

/-- The height of the stack below the arguments of a lambda. -/
def argBase (env : Env) (l : LambdaRef) (m : Machine) : Nat :=
  m.stack.height - (env.store.lambda l).params

/-- The stack below the arguments of a lambda reaches up to them. -/
theorem height_truncate_argBase (env : Env) (l : LambdaRef) (m : Machine) :
    (m.stack.truncate (env.argBase l m)).height = env.argBase l m := by
  rw [Stack.height_truncate]
  exact Nat.min_eq_left (Nat.sub_le _ _)

/-- What a new frame of a lambda holds: captured values, arguments, and what is left of `fresh`. -/
def seeded (env : Env) (l : LambdaRef) (closure : Option FrameRef) (m : Machine)
    (fresh : Array Value) : Array Value :=
  let seed := captured m closure ++ m.stack.above (env.argBase l m)
  seed ++ fresh.extract seed.size fresh.size

/-- A lambda was entered in the first machine, which gave an activation and the second machine. -/
structure Entered (env : Env) (l : LambdaRef) (closure : Option FrameRef) (m : Machine)
    (a : Activation) (m' : Machine) : Prop where
  activation : a =
    { lambda := l
      frame := ⟨m.heap.frames.size⟩
      callerFloor := m.stack.floor
      callerCeiling := m.stack.ceiling }
  params : (env.store.lambda l).params ≤ m.stack.available
  depth : m.stack.depth < m.stack.maxDepth
  stack : m'.stack =
    { m.stack.truncate (env.argBase l m) with
      floor := env.argBase l m
      ceiling := min (env.argBase l m + (env.store.lambda l).maxStack) (wordCount - 1)
      depth := m.stack.depth + 1 }
  heap : ∃ fresh : Array Value, fresh.size = (env.store.lambda l).vars ∧
    (∀ P : Value → Prop, m.keeper.pool.All P → P .nil → ∀ v ∈ fresh, P v) ∧
    m'.heap = (m.heap.addFrame (env.seeded l closure m fresh)).2
  globals : m'.globals = m.globals
  pool : ∀ P : Value → Prop, m.keeper.pool.All P → m'.keeper.pool.All P

/-- Nothing keeps a lambda from being entered whose frame is large enough, whose arguments are in reach
and for which a level is left. -/
theorem barrier_eq_none {env : Env} {l : LambdaRef} {closure : Option FrameRef} {m : Machine} :
    env.barrier l closure m = none ↔
      ((captured m closure).size + (env.store.lambda l).params) % wordCount ≤
          (env.store.lambda l).vars ∧
        (env.store.lambda l).params ≤ m.stack.available ∧ m.stack.depth < m.stack.maxDepth := by
  unfold barrier captured
  dsimp only
  split
  · next large => simp [Nat.not_le.2 large]
  split
  · next short => simp [Nat.not_le.2 short]
  split
  · next deep => simp [Nat.not_lt.2 deep]
  · next fits near level =>
    exact iff_of_true rfl ⟨Nat.le_of_not_lt fits, Nat.le_of_not_lt near, Nat.lt_of_not_le level⟩

/-- What keeps a lambda from being entered is not about labels. -/
theorem isLabelFault_barrier {env : Env} {l : LambdaRef} {closure : Option FrameRef} {m : Machine}
    {fault : Fault} (kept : env.barrier l closure m = some fault) : fault.isLabelFault = false := by
  unfold barrier at kept
  dsimp only at kept
  split at kept
  · cases kept
    rfl
  split at kept
  · cases kept
    rfl
  split at kept
  · cases kept
    rfl
  · cases kept

/-- A lambda that can be entered is entered. -/
theorem entered_of_enter {env : Env} {tasks : List Task} {l : LambdaRef}
    {closure : Option FrameRef} {m m' : Machine} {a : Activation}
    (entered : env.enter tasks l closure m = .ok a m') : env.Entered l closure m a m' := by
  simp only [enter] at entered
  split at entered
  · cases entered
  next free =>
  obtain ⟨-, room, depth⟩ := barrier_eq_none.1 free
  have cut := env.height_truncate_argBase l m
  simp only [Machine.newFrame, Machine.addFrame, Machine.register, Heap.update_addFrame,
    Machine.heap_settle, Machine.stack_settle, Machine.globals_settle] at entered
  cases entered
  refine ⟨rfl, room, depth, ?_, ⟨_, Pool.size_take _ _, ?_, rfl⟩, rfl, ?_⟩
  · simp only [Stack.raiseFloor, Stack.raiseCeiling, Stack.height, argBase] at cut ⊢
    simp only [cut]
  · exact fun P all nil v inside => (Machine.all_settle all _).mem_take nil inside
  · exact fun P all => (Machine.all_settle all _).take _

/-- A lambda that cannot be entered leaves the machine as it was. The fault is not about labels. -/
theorem enter_eq_error {env : Env} {tasks : List Task} {l : LambdaRef}
    {closure : Option FrameRef} {m m' : Machine} {f : Failure}
    (failed : env.enter tasks l closure m = .error f m') :
    m' = m ∧ ∃ fault : Fault, f = fault ∧ fault.isLabelFault = false := by
  simp only [enter] at failed
  split at failed
  · next fault kept =>
    cases failed
    exact ⟨rfl, fault, rfl, isLabelFault_barrier kept⟩
  · cases failed

section Leaving

variable (a : Activation) (m : Machine)

/-- Leaving gives the caller its limits back. -/
@[simp] theorem stack_leave :
    (leave a m).stack =
      { m.stack with
        ceiling := a.callerCeiling, floor := a.callerFloor, depth := m.stack.depth - 1 } := by
  simp only [leave]
  split
  · rfl
  · simp

@[simp] theorem heap_leave : (leave a m).heap = m.heap := by
  simp only [leave]
  split
  · rfl
  · simp

@[simp] theorem globals_leave : (leave a m).globals = m.globals := by
  simp only [leave]
  split
  · rfl
  · simp

/-- The frame of an activation that is left is parked empty. -/
theorem all_leave {P : Value → Prop} (all : m.keeper.pool.All P) :
    (leave a m).keeper.pool.All P := by
  simp only [leave]
  split
  · exact all.give _
  · simpa using all

end Leaving

/-- An instance is made, and then its initialiser is entered. -/
theorem construct_eq_bind {env : Env} {r : RecordRef}
    (one : (env.store.lambda (env.store.record r).init).params = 1) (rest : List Task) :
    env.construct rest r = allocate r (env.store.record r).size >>= fun made =>
      env.enter (.constructed made.1 made.2 :: rest) (env.store.record r).init none >>= fun a =>
        pure (.body a :: .constructed made.1 made.2 :: rest) := by
  simp only [construct, one, bne_self_eq_false, Bool.false_eq_true, if_false]

/-- An instance is made before its initialiser is entered; it is the argument, and it waits below. -/
theorem construct_eq (env : Env) (rest : List Task) (r : RecordRef) (m : Machine) :
    env.construct rest r m =
      if (env.store.lambda (env.store.record r).init).params = 1 then
        let made := m.heap.addInstance r (env.store.record r).size
        let rest := .constructed made.1 m.stack.height :: rest
        match Exec.push (.record made.1) { m with heap := made.2 } with
        | .ok () m' =>
          match env.enter rest (env.store.record r).init none m' with
          | .ok a m'' => .ok (.body a :: rest) m''
          | .error f m'' => .error f m''
        | .error f m' => .error f m'
      else
        .error (Fault.malformed (.initializerArity (env.store.record r).displayName)) m := by
  by_cases one : (env.store.lambda (env.store.record r).init).params = 1
  · simp only [construct, one, bne_self_eq_false, Bool.false_eq_true, if_false, if_true]
    simp only [allocate, Bind.bind, EStateM.bind, Exec.view, Pure.pure, EStateM.pure]
    cases Exec.push (.record (m.heap.addInstance r (env.store.record r).size).1)
        { m with heap := (m.heap.addInstance r (env.store.record r).size).2 } with
    | error f m' => rfl
    | ok u m' =>
      dsimp only
      cases env.enter (.constructed (m.heap.addInstance r (env.store.record r).size).1
          m.stack.height :: rest) (env.store.record r).init none m' <;> rfl
  · simp only [construct, bne_iff_ne, ne_eq, one, not_false_eq_true, if_true, if_false]
    rfl

/-- Letting go of what was called changes the account of frames and nothing else. -/
theorem finish_eq (callee : Option Callable) (m : Machine) :
    ∃ k : Keeper, k.pool = m.keeper.pool ∧ finish callee m = { m with keeper := k } := by
  cases callee with
  | none => exact ⟨m.keeper, rfl, rfl⟩
  | some c => exact ⟨_, m.keeper.pool_letGo (.callable c), m.letGo_eq (.callable c)⟩

theorem heap_finish (callee : Option Callable) (m : Machine) : (finish callee m).heap = m.heap := by
  obtain ⟨k, -, same⟩ := finish_eq callee m
  rw [same]

end Env

end PlotMachine
