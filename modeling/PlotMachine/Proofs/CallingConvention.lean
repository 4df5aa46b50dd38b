import PlotMachine.Machine.Capacity
import PlotMachine.Proofs.PoolTransparency

/-!
# The calling convention

The frame of a lambda is made up of three regions: the values it captured, its arguments and its locals.
When a call starts, the first region is copied from the closure, the second one is moved from the top of
the stack and the third one is nil, though the buffer of the frame may have been used before.
`Env.call_starts` says so of every lambda for which there are arguments, room in its frame and a level of
calls left, whatever buffers are parked, and that nothing but the capacity can keep its body from
starting.
-/

namespace PlotMachine

namespace Env

/-- The values that a new frame takes from a clean pool are nil behind those it is seeded with. -/
theorem seeded_replicate (env : Env) (l : LambdaRef) (closure : Option FrameRef) (m : Machine)
    (vars : Nat) :
    env.seeded l closure m (Array.replicate vars .nil) =
      captured m closure ++ m.stack.above (env.argBase l m) ++ Array.replicate
        (vars - ((captured m closure).size + (m.stack.above (env.argBase l m)).size)) .nil := by
  simp [seeded, Array.extract_replicate]

/-- The first machine is about to call a lambda on arguments, and the activation is about to carry out the
first instruction of its body in the second one. -/
structure Starts (env : Env) (l : LambdaRef) (closure : Option FrameRef) (args : Array Value)
    (m : Machine) (a : Activation) (m' : Machine) : Prop where
  lambda : a.lambda = l
  offset : a.offset = 0
  fresh : ¬ m.heap.Has (.frame a.frame)
  has : m'.heap.Has (.frame a.frame)
  /-- The frame holds the captured values, then the arguments, then nil in what is left of it. -/
  slots : m'.heap.slots a.frame = captured m closure ++ args ++
    Array.replicate ((env.store.lambda l).vars - ((captured m closure).size + args.size)) .nil
  length : (m'.heap.slots a.frame).size = (env.store.lambda l).vars
  others : ∀ o, o ≠ .frame a.frame → m'.heap.contents o = m.heap.contents o

variable {env : Env} {l : LambdaRef} {closure : Option FrameRef} {m m' : Machine} {a : Activation}

/-- A lambda can be entered if its frame has room, its arguments are in reach and a level is left. -/
theorem exists_enter (tasks : List Task)
    (room : (captured m closure).size + (env.store.lambda l).params ≤ (env.store.lambda l).vars)
    (params : (env.store.lambda l).params ≤ m.stack.available)
    (depth : m.stack.depth < m.stack.maxDepth) :
    ∃ a m', env.enter tasks l closure m = .ok a m' := by
  -- the check compares a word, which is no more than the size itself
  have free : env.barrier l closure m = none :=
    barrier_eq_none.2 ⟨Nat.le_trans (Nat.mod_le _ _) room, params, depth⟩
  simp only [enter, free]
  exact ⟨_, _, rfl⟩

/-- The values that are moved are as many as the lambda takes arguments. -/
theorem size_args (params : (env.store.lambda l).params ≤ m.stack.available) :
    (m.stack.above (env.argBase l m)).size = (env.store.lambda l).params := by
  have reach : (env.store.lambda l).params ≤ m.stack.values.size :=
    Nat.le_trans params (Nat.sub_le _ _)
  rw [Stack.above, Array.size_extract, argBase, Stack.height]
  omega

/-- What an activation that was entered from a machine with a clean pool starts with. -/
theorem Entered.starts (entered : env.Entered l closure m a m') (clean : m.keeper.pool.Clean)
    (room : (captured m closure).size + (env.store.lambda l).params ≤ (env.store.lambda l).vars) :
    env.Starts l closure (m.stack.above (env.argBase l m)) m a m' := by
  obtain ⟨rfl, params, -, -, ⟨fresh, size, filled, heap⟩, -, -⟩ := entered
  have nil : fresh = Array.replicate (env.store.lambda l).vars .nil :=
    Array.eq_replicate_iff.2 ⟨size, filled (· = .nil) (clean.imp fun _ => False.elim) rfl⟩
  rw [nil, seeded_replicate] at heap
  have args : (m.stack.above (env.argBase l m)).size = (env.store.lambda l).params :=
    size_args params
  generalize held : _ ++ Array.replicate _ Value.nil = slots at heap
  have stored : m'.heap.slots ⟨m.heap.frames.size⟩ = slots := by
    rw [heap]
    exact Heap.slots_addFrame m.heap slots
  refine ⟨rfl, rfl, m.heap.not_has_addFrame slots, ?_, stored.trans held.symm, ?_, ?_⟩
  · simp [heap, Heap.addFrame, Heap.Has]
  · dsimp only
    rw [stored, ← held, Array.size_append, Array.size_append, Array.size_replicate, args]
    omega
  · intro o other
    rw [heap, Heap.contents_addFrame]
    exact if_neg other

/-- What a lambda that can be entered asks for are its frame and the stack that it may fill. -/
theorem entryFits_iff {capacity : Nat} (free : env.barrier l closure m = none) :
    env.entryFits capacity l closure m = true ↔ (env.store.lambda l).vars ≤ capacity ∧
      env.argBase l m + (env.store.lambda l).maxStack ≤ capacity := by
  simp [entryFits, free, argBase]

/-- A lambda that is entered, by a call or to initialise an instance, starts in a frame of its own, which
holds what was captured, then the arguments, the first pushed first, then nil. The arguments are all that
is removed from the stack. So every call of the lambda makes its body start if the capacity suffices for
the frame and for the stack that the lambda may fill, and is aborted if it does not. -/
theorem call_starts (env : Env) (l : LambdaRef) (closure : Option FrameRef) (m : Machine)
    (pool : m.keeper.pool.Reachable)
    (room : (captured m closure).size + (env.store.lambda l).params ≤ (env.store.lambda l).vars)
    (params : (env.store.lambda l).params ≤ m.stack.available)
    (depth : m.stack.depth < m.stack.maxDepth) :
    ∃ below args, m.stack.values = below ++ args ∧ args.size = (env.store.lambda l).params ∧
      ∀ rest, ∃ a m', env.enter rest l closure m = .ok a m' ∧
        m'.stack.values = below ∧ env.Starts l closure args m a m' ∧
        ∀ id, env.step ⟨.call (.function id l closure) :: rest, m⟩ =
            .running ⟨.body a :: rest, m'⟩ ∧
          ∀ capacity, env.stepWithin capacity ⟨.call (.function id l closure) :: rest, m⟩ =
            if (env.store.lambda l).vars ≤ capacity ∧
                below.size + (env.store.lambda l).maxStack ≤ capacity
            then .done (.running ⟨.body a :: rest, m'⟩) else .aborted := by
  have split : (m.stack.truncate (env.argBase l m)).values ++ m.stack.above (env.argBase l m) =
      m.stack.values := Stack.truncate_append_above (Nat.sub_le _ _)
  refine ⟨_, _, split.symm, size_args params, fun rest => ?_⟩
  obtain ⟨a, m', enters⟩ := exists_enter rest room params depth
  have entered := entered_of_enter enters
  have left : m'.stack.values = (m.stack.truncate (env.argBase l m)).values := by
    rw [entered.stack]
  refine ⟨a, m', enters, left, entered.starts pool.clean room, fun id => ?_⟩
  have starts : env.step ⟨.call (.function id l closure) :: rest, m⟩ =
      .running ⟨.body a :: rest, m'⟩ := by
    simp only [step, proceed, call, Bind.bind, EStateM.bind, enters]
    rfl
  have free : env.barrier l closure m = none :=
    barrier_eq_none.2 ⟨Nat.le_trans (Nat.mod_le _ _) room, params, depth⟩
  refine ⟨starts, fun capacity => ?_⟩
  have below : (m.stack.truncate (env.argBase l m)).values.size = env.argBase l m :=
    env.height_truncate_argBase l m
  rw [stepWithin, starts, below]
  exact if_congr (entryFits_iff free) rfl rfl

/-- Code with a lambda of two arguments, one captured value and one local. -/
def closing : Env where
  store := { lambdas := #[{ code := ⟨0⟩, maxStack := 1, params := 2, vars := 4 }] }
  host _ := .done ()

/-- A call above a value that stays, on a machine where a buffer that held other values is parked. -/
theorem call_starts_closing :
    let m : Machine :=
      { stack := { values := #[.int 0, .int 1, .int 2], maxDepth := 1 }
        heap := { frames := #[#[.int 9]] }
        globals := ⟨0⟩
        keeper := { pool := ({} : Pool).give (Array.replicate 4 (.int 5)) } }
    let call : Config := ⟨[.call (.function 7 ⟨0⟩ (some ⟨0⟩))], m⟩
    ∃ a m', closing.step call = .running ⟨[.body a], m'⟩ ∧
      closing.stepWithin 4 call = .done (.running ⟨[.body a], m'⟩) ∧
      closing.stepWithin 3 call = .aborted ∧
      m'.stack.values = #[.int 0] ∧
      m'.heap.slots a.frame = #[.int 9, .int 1, .int 2, .nil] := by
  intro m call
  have pool : m.keeper.pool.Reachable := (Pool.Reachable.new 256).give _
  obtain ⟨below, args, values, size, starts⟩ :=
    call_starts closing ⟨0⟩ (some ⟨0⟩) m pool (by decide) (by decide) (by decide)
  have split : #[.int 0] ++ #[.int 1, .int 2] = below ++ args := values
  obtain ⟨rfl, rfl⟩ := Array.append_inj' split size.symm
  obtain ⟨a, m', -, rest, start, runs⟩ := starts []
  obtain ⟨steps, within⟩ := runs 7
  exact ⟨a, m', steps, within 4, within 3, rest, start.slots⟩

end Env

end PlotMachine
