import PlotMachine.Proofs.Contract.Routine
import PlotMachine.Proofs.Entering

/-!
# Runs observe contracts

A run is a stack of tasks. `Nest` says that the limits of the tasks fit into each other: an
activation has its floor no lower than its caller's, counts one in the depth, and carries the limits
that its caller gets back. `Contract.Sound` is the invariant of a run. It is stated of the tasks
above some `tail` that the run comes back to, so that a call inside a run and a run of its own are
one case.

A task that is done, added or replaced keeps the point sound, and so does a lambda that is entered
or left.
-/

namespace PlotMachine

/-- The height of the stack that a task cuts it back to. -/
def Task.cut? : Task → Option Nat
  | .constructed _ height => some height
  | _ => none

/-- The limits of tasks fit into each other. The last task that is done leaves the limits `outer`. -/
inductive Nest (base maxDepth : Nat) (outer : Stack.Limits) :
    List Task → Stack.Limits → Prop
  | nil : Nest base maxDepth outer [] outer
  -- what is below an activation has the limits that the activation carries for its caller
  | activation {t : Task} {a : Activation} {rest : List Task} {limits : Stack.Limits} {depth : Nat}
      (belongs : t.activation? = some a) (base_le : base ≤ limits.floor)
      (floor_le : a.callerFloor ≤ limits.floor) (depth_eq : limits.depth = depth + 1)
      (depth_le : limits.depth ≤ maxDepth)
      (inner : Nest base maxDepth outer rest ⟨a.callerFloor, a.callerCeiling, depth⟩) :
      Nest base maxDepth outer (t :: rest) limits
  | other {t : Task} {rest : List Task} {limits : Stack.Limits} (belongs : t.activation? = none)
      (base_le : base ≤ limits.floor) (cut : ∀ height, t.cut? = some height → limits.floor ≤ height)
      (inner : Nest base maxDepth outer rest limits) : Nest base maxDepth outer (t :: rest) limits

namespace Nest

variable {base maxDepth : Nat} {outer limits : Stack.Limits} {t : Task} {tasks rest : List Task}

/-- A task that is not done works above the base. -/
theorem base_le (nest : Nest base maxDepth outer (t :: rest) limits) : base ≤ limits.floor := by
  cases nest with
  | activation _ base_le => exact base_le
  | other _ base_le => exact base_le

/-- The depth counts the activations. -/
theorem depth_eq (nest : Nest base maxDepth outer tasks limits) :
    limits.depth = outer.depth + (tasks.filterMap Task.activation?).length := by
  induction nest with
  | nil => rfl
  | activation belongs _ _ depth_eq _ _ ih =>
    rw [depth_eq, List.filterMap_cons_some belongs, List.length_cons]
    exact congrArg (· + 1) ih
  | other belongs _ _ _ ih => rw [List.filterMap_cons_none belongs, ih]

/-- The depth stays within what is allowed. -/
theorem depth_le (nest : Nest base maxDepth outer tasks limits) (start : outer.depth ≤ maxDepth) :
    limits.depth ≤ maxDepth := by
  induction nest with
  | nil => exact start
  | activation _ _ _ _ depth_le _ _ => exact depth_le
  | other _ _ _ _ ih => exact ih

/-- When no task remains the limits are the outer ones. -/
theorem limits_eq (nest : Nest base maxDepth outer [] limits) : limits = outer := by
  cases nest
  rfl

/-- The tasks below one that belongs to no activation have the same limits. -/
theorem of_other (nest : Nest base maxDepth outer (t :: rest) limits)
    (belongs : t.activation? = none) : Nest base maxDepth outer rest limits := by
  cases nest with
  | activation belongs' => rw [belongs] at belongs'; cases belongs'
  | other _ _ _ inner => exact inner

end Nest

namespace Contract

variable (K : Contract)

/-- Record types, natives and parked buffers do what the contract asks of them. -/
structure Supports (env : Env) : Prop where
  record : ∀ r, K.record r → K.lambda (env.store.record r).init
  native : ∀ fn, K.native fn → (env.routine fn).Keeps K
  parked : ∀ v, K.parked v → K.Fit v

/-- The code of an environment does what the contract asks of it, too. -/
structure Covers (env : Env) : Prop extends K.Supports env where
  instr : ∀ l, K.lambda l → ∀ i ∈ env.store.body l,
    K.Admits (env.store.lambda l).code (env.store.body l).size i

/-- The instruction that is next does nothing the contract rules out. -/
def AdmitsNext (env : Env) (c : Config) : Prop :=
  ∀ a rest i, c.tasks = .body a :: rest → (env.store.body a.lambda)[a.offset]? = some i →
    K.Admits (env.store.lambda a.lambda).code (env.store.body a.lambda).size i

/-- An activation may run: its frame is in the heap, has room for all variables of its lambda, and is
its own to write. -/
structure Runs (env : Env) (h : Heap) (a : Activation) : Prop where
  lambda : K.lambda a.lambda
  holds : K.holds (.frame a.frame)
  writes : K.writes (.frame a.frame)
  has : h.Has (.frame a.frame)
  room : (env.store.lambda a.lambda).vars ≤ (h.slots a.frame).size

/-- An activation may run from any offset if it may run at all. -/
theorem Runs.moveTo {K : Contract} {env : Env} {h : Heap} {a : Activation} (runs : K.Runs env h a)
    (offset : Nat) : K.Runs env h { a with offset } :=
  ⟨runs.lambda, runs.holds, runs.writes, runs.has, runs.room⟩

/-- A task may remain to be done. -/
def Takes (env : Env) (h : Heap) : Task → Prop
  | .call c => K.Calls c
  | .native r _ => r.Keeps K
  | .handler _ next => ∀ outcome, K.Ends outcome → (next outcome).Keeps K
  | .body a | .waiting a _ => K.Runs env h a
  | .construct r => K.record r
  | .constructed i _ => K.holds (.record i)

/-- A point of a run at which the contract is observed, where `tasks` remain to be done before the run
comes back to the limits `outer`. -/
structure Sound (env : Env) (maxDepth : Nat) (outer : Stack.Limits) (tasks : List Task)
    (m : Machine) : Prop extends K.Rests m where
  floor_le : m.stack.floor ≤ m.stack.height
  maxDepth_eq : m.stack.maxDepth = maxDepth
  takes : ∀ t ∈ tasks, K.Takes env m.heap t
  nest : Nest K.base maxDepth outer tasks m.stack.limits

variable {K}

/-- An activation that may run may still run when the heap has grown. -/
theorem Takes.grow {env : Env} {h h' : Heap} {t : Task} (takes : K.Takes env h t)
    (grown : h.Extends h') : K.Takes env h' t := by
  have runs : ∀ a, K.Runs env h a → K.Runs env h' a := fun a runs =>
    { lambda := runs.lambda
      holds := runs.holds
      writes := runs.writes
      has := grown.has _ runs.has
      room := by rw [grown.frame _ runs.has]; exact runs.room }
  cases t with
  | body a => exact runs a takes
  | waiting a callee => exact runs a takes
  | call c => exact takes
  | native r taken => exact takes
  | handler taken next => exact takes
  | construct r => exact takes
  | constructed i height => exact takes

namespace Sound

variable {env : Env} {maxDepth : Nat} {outer : Stack.Limits} {t : Task} {rest : List Task}
  {m m' : Machine}

/-- While a task is not done the machine works within limits. -/
theorem holds (sound : K.Sound env maxDepth outer (t :: rest) m) : K.Holds m where
  toRests := sound.toRests
  base_le := sound.nest.base_le
  floor_le := sound.floor_le

theorem head (sound : K.Sound env maxDepth outer (t :: rest) m) : K.Takes env m.heap t :=
  sound.takes t List.mem_cons_self

/-- Work within the limits of a call keeps a point of a run sound. -/
theorem follows {tasks : List Task} (sound : K.Sound env maxDepth outer tasks m)
    (follows : K.Follows m m') : K.Sound env maxDepth outer tasks m' where
  toRests := follows.holds.toRests
  floor_le := follows.holds.floor_le
  maxDepth_eq := follows.continues.stack.maxDepth.trans sound.maxDepth_eq
  takes t inside := (sound.takes t inside).grow follows.continues.heap
  nest := follows.continues.stack.limits ▸ sound.nest

/-- A task that belongs to no activation may be done. -/
theorem of_other (sound : K.Sound env maxDepth outer (t :: rest) m)
    (belongs : t.activation? = none) : K.Sound env maxDepth outer rest m where
  toRests := sound.toRests
  floor_le := sound.floor_le
  maxDepth_eq := sound.maxDepth_eq
  takes u inside := sound.takes u (List.mem_cons_of_mem t inside)
  nest := sound.nest.of_other belongs

/-- A task may be added. -/
theorem cons {tasks : List Task} (sound : K.Sound env maxDepth outer tasks m)
    (base_le : K.base ≤ m.stack.floor) (takes : K.Takes env m.heap t)
    (belongs : t.activation? = none)
    (cut : ∀ height, t.cut? = some height → m.stack.floor ≤ height) :
    K.Sound env maxDepth outer (t :: tasks) m where
  toRests := sound.toRests
  floor_le := sound.floor_le
  maxDepth_eq := sound.maxDepth_eq
  takes u inside := by
    rcases List.mem_cons.1 inside with same | old
    · exact same ▸ takes
    · exact sound.takes u old
  nest := .other belongs base_le cut sound.nest

/-- A task that does not cut the stack may be added. -/
theorem add {tasks : List Task} (sound : K.Sound env maxDepth outer tasks m)
    (base_le : K.base ≤ m.stack.floor) (takes : K.Takes env m.heap t)
    (belongs : t.activation? = none) (uncut : t.cut? = none) :
    K.Sound env maxDepth outer (t :: tasks) m := by
  refine sound.cons base_le takes belongs fun height cuts => ?_
  rw [uncut] at cuts
  cases cuts

/-- The task of an activation may be replaced by another one of the same activation. -/
theorem replace {u : Task} {a a' : Activation} (sound : K.Sound env maxDepth outer (t :: rest) m)
    (belongs : t.activation? = some a) (belongs' : u.activation? = some a')
    (floor : a'.callerFloor = a.callerFloor) (ceiling : a'.callerCeiling = a.callerCeiling)
    (takes : K.Takes env m.heap u) : K.Sound env maxDepth outer (u :: rest) m where
  toRests := sound.toRests
  floor_le := sound.floor_le
  maxDepth_eq := sound.maxDepth_eq
  takes v inside := by
    rcases List.mem_cons.1 inside with same | old
    · exact same ▸ takes
    · exact sound.takes v (List.mem_cons_of_mem t old)
  nest := by
    cases sound.nest with
    | other none => rw [belongs] at none; cases none
    | activation some base_le floor_le depth_eq depth_le inner =>
      cases belongs.symm.trans some
      refine .activation belongs' base_le (floor ▸ floor_le) depth_eq depth_le ?_
      rw [floor, ceiling]
      exact inner

/-- Only the account of frames may differ. -/
theorem withKeeper {tasks : List Task} (sound : K.Sound env maxDepth outer tasks m) (k : Keeper)
    (pool : k.pool = m.keeper.pool) :
    K.Sound env maxDepth outer tasks { m with keeper := k } where
  toRests := sound.toRests.congr rfl rfl rfl (pool ▸ sound.pool)
  floor_le := sound.floor_le
  maxDepth_eq := sound.maxDepth_eq
  takes := sound.takes
  nest := sound.nest

theorem letGo {tasks : List Task} (sound : K.Sound env maxDepth outer tasks m) (v : Value) :
    K.Sound env maxDepth outer tasks (m.letGo v) := by
  rw [Machine.letGo_eq]
  exact sound.withKeeper _ (m.keeper.pool_letGo v)

theorem finish {tasks : List Task} (sound : K.Sound env maxDepth outer tasks m)
    (callee : Option Callable) : K.Sound env maxDepth outer tasks (Env.finish callee m) := by
  obtain ⟨k, pool, same⟩ := Env.finish_eq callee m
  rw [same]
  exact sound.withKeeper k pool

/-- An activation may be left; the tasks below it get their limits back. -/
theorem leave {a : Activation} (sound : K.Sound env maxDepth outer (t :: rest) m)
    (belongs : t.activation? = some a) : K.Sound env maxDepth outer rest (Env.leave a m) := by
  cases sound.nest with
  | other none => rw [belongs] at none; cases none
  | activation some _ floor_le depth_eq _ inner =>
    cases belongs.symm.trans some
    exact
      { toRests := sound.toRests.congr (by simp) (by simp) (by simp) (Env.all_leave a m sound.pool)
        floor_le := by
          rw [Env.stack_leave]
          exact Nat.le_trans floor_le sound.floor_le
        maxDepth_eq := by
          rw [Env.stack_leave]
          exact sound.maxDepth_eq
        takes := fun u inside => by
          rw [Env.heap_leave]
          exact sound.takes u (List.mem_cons_of_mem t inside)
        nest := by
          simp only [Stack.limits] at depth_eq
          simpa only [Env.stack_leave, Stack.limits, depth_eq, Nat.add_sub_cancel] using inner }

/-- What a new frame holds may come into play: captured values, arguments and parked values. -/
theorem fit_seeded {tasks : List Task} {l : LambdaRef} {closure : Option FrameRef}
    {fresh : Array Value} (sound : K.Sound env maxDepth outer tasks m)
    (base_le : K.base ≤ env.argBase l m) (holds : ∀ f, closure = some f → K.holds (.frame f))
    (fits : ∀ v ∈ fresh, K.Fit v) : ∀ v ∈ env.seeded l closure m fresh, K.Fit v := by
  intro v inside
  simp only [Env.seeded, Array.mem_append] at inside
  rcases inside with (captured | argument) | local_
  · obtain ⟨f, same, slot⟩ := Env.mem_captured captured
    exact sound.heap.contents (.frame f) (.inl (holds f same)) v slot
  · obtain ⟨i, _, same⟩ := Array.mem_extract_iff_getElem.1 argument
    exact sound.values (env.argBase l m + i) v (Nat.le_trans base_le (Nat.le_add_right _ _))
      (Array.getElem?_eq_some_iff.2 ⟨_, same⟩)
  · obtain ⟨i, _, same⟩ := Array.mem_extract_iff_getElem.1 local_
    exact fits v (same ▸ Array.getElem_mem _)

/-- An activation that was entered may run in its new frame. -/
theorem runs_entered {tasks : List Task} {l : LambdaRef} {closure : Option FrameRef}
    {fresh : Array Value} {a : Activation} (sound : K.Sound env maxDepth outer tasks m)
    (lambda : K.lambda l) (size : fresh.size = (env.store.lambda l).vars) (runs : a.lambda = l)
    (frame : a.frame = ⟨m.heap.frames.size⟩) :
    K.Runs env (m.heap.addFrame (env.seeded l closure m fresh)).2 a := by
  have new := sound.heap.not_has_start (m.heap.not_has_addFrame (env.seeded l closure m fresh))
  have slots := Heap.slots_addFrame m.heap (env.seeded l closure m fresh)
  exact
    { lambda := runs ▸ lambda
      holds := frame ▸ K.holds_new _ new
      writes := frame ▸ K.writes_new _ new
      has := by simp [frame, Heap.addFrame, Heap.Has]
      room := by
        simp only [frame, runs, Heap.addFrame] at slots ⊢
        rw [slots, Env.seeded]
        -- what is seeded only takes the place of the first of the fresh values
        simp only [Array.size_append, Array.size_extract]
        omega }

/-- A lambda may be entered if its arguments lie above the base. -/
theorem enter {tasks : List Task} {l : LambdaRef} {closure : Option FrameRef} {a : Activation}
    (sound : K.Sound env maxDepth outer tasks m) (base_le : K.base ≤ env.argBase l m)
    (lambda : K.lambda l) (holds : ∀ f, closure = some f → K.holds (.frame f))
    (parked : ∀ v, K.parked v → K.Fit v) (entered : env.Entered l closure m a m') :
    K.Sound env maxDepth outer (.body a :: tasks) m' := by
  obtain ⟨rfl, params, depth, stack, ⟨fresh, size, filled, heap⟩, globals, pool⟩ := entered
  have low : env.argBase l m ≤ m.stack.height := Nat.sub_le _ _
  have values : m'.stack.values = (m.stack.truncate (env.argBase l m)).values := by rw [stack]
  have fit := sound.fit_seeded base_le holds (filled K.Fit (sound.pool.imp parked) trivial)
  exact
    { bottom := fun i lower => by
        rw [values, Stack.getElem?_truncate, if_pos (Nat.lt_of_lt_of_le lower base_le)]
        exact sound.bottom i lower
      values := fun i v high found => by
        rw [values, Stack.getElem?_truncate] at found
        split at found
        · exact sound.values i v high found
        · cases found
      globals := globals.trans sound.globals
      heap := heap ▸ sound.heap.addFrame fit
      pool := pool K.parked sound.pool
      floor_le := by
        have cut := m.stack.height_truncate (env.argBase l m)
        rw [Nat.min_eq_left low, Stack.height] at cut
        rw [Stack.height, values, cut, stack]
      maxDepth_eq := by rw [stack]; exact sound.maxDepth_eq
      takes := fun t inside => by
        rw [heap]
        rcases List.mem_cons.1 inside with same | old
        · subst same
          exact sound.runs_entered lambda size rfl rfl
        · exact (sound.takes t old).grow (m.heap.extends_addFrame _)
      nest := by
        rw [stack]
        refine .activation rfl base_le ?_ rfl ?_ sound.nest
        · -- the arguments were in reach, so the new floor is not below the one of the caller
          have := sound.floor_le
          simp only [Stack.available] at params
          simp only [Stack.limits, Env.argBase]
          omega
        · rw [← sound.maxDepth_eq]
          exact depth }

end Sound

end Contract

end PlotMachine
