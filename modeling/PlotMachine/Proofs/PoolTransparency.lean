import PlotMachine.Proofs.Likeness.Host
import PlotMachine.Registry

/-!
# The frame pool makes no difference

Buffers are parked empty, so a frame is the same whether or not it is built in a parked buffer. Nothing
else depends on the pool. A host that works with a machine in any way therefore gets the same answers and
leaves the same machine whatever buffers are parked and whatever limits it sets on their number
(`Session.shown_pools`).

What a host does is written down as a `Session`: it asks for one `Operation` after the other, and what
it asks for next may depend on the answers, which tell everything about the machine but the pool.
-/

namespace PlotMachine

/-- A pool that came about by making frames, letting go of frames and changing the limit. -/
inductive Pool.Reachable : Pool → Prop
  | new (limit : Nat) : Reachable { limit }
  | take {p : Pool} (reachable : Reachable p) (length : Nat) : Reachable (p.take length).2
  | give {p : Pool} (reachable : Reachable p) (slots : Array Value) : Reachable (p.give slots)
  | setLimit {p : Pool} (reachable : Reachable p) (limit : Nat) : Reachable (p.setLimit limit)

theorem Pool.Clean.setLimit {p : Pool} (clean : p.Clean) (limit : Nat) :
    (p.setLimit limit).Clean := by
  unfold Pool.setLimit
  split
  · exact fun b parked => nomatch parked
  · exact clean

/-- Whatever happened, the buffers that are parked are empty. -/
theorem Pool.Reachable.clean {p : Pool} (reachable : p.Reachable) : p.Clean := by
  induction reachable with
  | new limit => exact fun b parked => nomatch parked
  | take _ length ih => exact All.take ih length
  | give _ slots ih => exact All.give ih slots
  | setLimit _ limit ih => exact ih.setLimit limit

/-! ## Machines with different pools -/

/-- A machine with another pool. -/
def Machine.withPool (m : Machine) (pool : Pool) : Machine :=
  { m with keeper := { m.keeper with pool } }

/-- Two machines differ in nothing but their pools, in which the parked buffers are empty. -/
structure Machine.SameButPool (m₁ m₂ : Machine) : Prop where
  clean : m₁.keeper.pool.Clean
  same : ∃ p : Pool, p.Clean ∧ m₂ = m₁.withPool p

/-- Two runs differ in nothing but the pools, so that natives cannot tell them apart. -/
def Likeness.pools (maxDepth : Nat) : Likeness where
  bottom₁ := #[]
  bottom₂ := #[]
  ceilings c₁ c₂ := c₁ = c₂
  headrooms n₁ n₂ := n₁ = n₂
  maxDepth₁ := maxDepth
  maxDepth₂ := maxDepth
  failures f₁ f₂ := f₁ = f₂
  excused₁ _ := False
  excused₂ _ := False
  strict := True
  ceilings_raise := by
    rintro n _ rfl k
    rfl
  room := by
    rintro c _ rfl k
    by_cases full : c ≤ (#[] : Array Value).size + k
    · exact .inr (.inl ⟨full, full, rfl⟩)
    · exact .inl ⟨Nat.lt_of_not_le full, Nat.lt_of_not_le full⟩
  depths := .inl rfl
  failures_refl := Eq.refl
  failures_locate := Failure.locate_same
  bottom_of_strict _ := rfl
  failures_of_strict _ _ _ same := same
  excused_of_strict _ _ := ⟨id, id⟩

namespace Machine.SameButPool

variable {m₁ m₂ : Machine}

theorem of_machines {maxDepth : Nat} (machines : (Likeness.pools maxDepth).Machines m₁ m₂) :
    m₁.SameButPool m₂ := by
  refine ⟨machines.keeper.clean₁, m₂.keeper.pool, machines.keeper.clean₂, ?_⟩
  have stack : m₂.stack = m₁.stack := by
    have values : m₂.stack.values = m₁.stack.values := machines.stack.values_eq trivial
    have floor : m₂.stack.floor = m₁.stack.floor := by
      obtain ⟨n, floor₁, floor₂⟩ := machines.stack.floor
      exact floor₂.trans floor₁.symm
    have ceiling : m₂.stack.ceiling = m₁.stack.ceiling := machines.stack.ceiling.symm
    have maxDepth : m₂.stack.maxDepth = m₁.stack.maxDepth :=
      machines.stack.maxDepth₂.trans machines.stack.maxDepth₁.symm
    show Stack.mk m₂.stack.values m₂.stack.floor m₂.stack.ceiling m₂.stack.depth m₂.stack.maxDepth
      = m₁.stack
    rw [values, floor, ceiling, maxDepth, machines.stack.depth]
  have keeper : m₂.keeper = { m₁.keeper with pool := m₂.keeper.pool } :=
    machines.keeper.same trivial
  have agree := Machine.Agree.of_machines machines
  rw [agree.eq, withPool, ← keeper, stack]

variable (same : m₁.SameButPool m₂)

include same

theorem machines : (Likeness.pools m₁.stack.maxDepth).Machines m₁ m₂ := by
  obtain ⟨clean, p, clean', rfl⟩ := same
  refine ⟨⟨⟨m₁.stack.values, ?_, ?_⟩, ⟨m₁.stack.floor, ?_, ?_⟩, rfl, rfl, rfl, rfl⟩,
    rfl, rfl, rfl, rfl, ⟨clean, clean', fun _ => rfl⟩⟩
  · exact Array.empty_append.symm
  · exact Array.empty_append.symm
  · exact (Nat.zero_add _).symm
  · exact (Nat.zero_add _).symm

/-- A change that has nothing to do with the pool. -/
theorem update (g : Machine → Machine) (pool : ∀ m, (g m).keeper.pool = m.keeper.pool)
    (commutes : ∀ m p, g (m.withPool p) = (g m).withPool p) : (g m₁).SameButPool (g m₂) := by
  obtain ⟨clean, p, clean', rfl⟩ := same
  exact ⟨by rw [pool]; exact clean, p, clean', commutes m₁ p⟩

theorem withStack (f : Stack → Stack) :
    ({ m₁ with stack := f m₁.stack } : Machine).SameButPool { m₂ with stack := f m₂.stack } :=
  same.update (fun m => { m with stack := f m.stack }) (fun _ => rfl) fun _ _ => rfl

theorem withHeap (f : Heap → Heap) :
    ({ m₁ with heap := f m₁.heap } : Machine).SameButPool { m₂ with heap := f m₂.heap } :=
  same.update (fun m => { m with heap := f m.heap }) (fun _ => rfl) fun _ _ => rfl

theorem keep {f : Keeper → Keeper} (blind : Keeper.Blind f) :
    ({ m₁ with keeper := f m₁.keeper } : Machine).SameButPool
      { m₂ with keeper := f m₂.keeper } :=
  of_machines (same.machines.keep blind)

theorem letGo (v : Value) : (m₁.letGo v).SameButPool (m₂.letGo v) :=
  of_machines (same.machines.letGo v)

theorem letGoAll (values : List Value) : (m₁.letGoAll values).SameButPool (m₂.letGoAll values) :=
  of_machines (same.machines.letGoAll values)

theorem cutStack (height : Nat) : (m₁.cutStack height).SameButPool (m₂.cutStack height) :=
  of_machines (same.machines.cutStack ⟨height, (Nat.zero_add _).symm, (Nat.zero_add _).symm⟩)

theorem settled : m₁.settled.SameButPool m₂.settled :=
  of_machines (same.machines.settle fun _ => rfl)

theorem register (f : FrameRef) : (m₁.register f).SameButPool (m₂.register f) :=
  of_machines (same.machines.register f)

/-- The limits need not be the same afterwards. -/
theorem setPoolLimit (limit₁ limit₂ : Nat) :
    (m₁.withPool (m₁.keeper.pool.setLimit limit₁)).SameButPool
      (m₂.withPool (m₂.keeper.pool.setLimit limit₂)) := by
  obtain ⟨clean, p, clean', rfl⟩ := same
  exact ⟨clean.setLimit limit₁, p.setLimit limit₂, clean'.setLimit limit₂, rfl⟩

theorem stack_eq : m₂.stack = m₁.stack := by
  obtain ⟨-, p, -, rfl⟩ := same
  rfl

theorem heap_eq : m₂.heap = m₁.heap := by
  obtain ⟨-, p, -, rfl⟩ := same
  rfl

/-- The host sees no difference. -/
theorem hidden_eq : m₂.withPool {} = m₁.withPool {} := by
  obtain ⟨-, p, -, rfl⟩ := same
  rfl

end Machine.SameButPool

/-! ## Answers -/

/-- What a computation answers, whether or not it fails. -/
def Exec.outcome {α : Type} : EStateM.Result Failure Machine α → Except Failure α × Machine
  | .ok a m => (.ok a, m)
  | .error f m => (.error f, m)

/-- The same answer, from machines that differ in nothing but their pools. -/
inductive SameAnswer {α : Type} : Option (α × Machine) → Option (α × Machine) → Prop
  | none : SameAnswer none none
  | some (a : α) {m₁ m₂ : Machine} (machines : m₁.SameButPool m₂) :
      SameAnswer (some (a, m₁)) (some (a, m₂))

namespace SameAnswer

variable {α β : Type}

theorem of_pair {x y : α × Machine} (same : x.1 = y.1 ∧ x.2.SameButPool y.2) :
    SameAnswer (Option.some x) (Option.some y) := by
  obtain ⟨a, m₁⟩ := x
  obtain ⟨b, m₂⟩ := y
  obtain ⟨rfl, machines⟩ := same
  exact .some _ machines

theorem map {x y : Option (α × Machine)} (same : SameAnswer x y) {f g : α × Machine → β × Machine}
    (each : ∀ a m₁ m₂, m₁.SameButPool m₂ →
      (f (a, m₁)).1 = (g (a, m₂)).1 ∧ (f (a, m₁)).2.SameButPool (g (a, m₂)).2) :
    SameAnswer (x.map f) (y.map g) := by
  cases same with
  | none => exact .none
  | some a machines => exact of_pair (each a _ _ machines)

theorem of_ends {maxDepth : Nat} {x y : Option (Except Failure α × Machine)}
    (ends : (Likeness.pools maxDepth).Ends (Likeness.pools maxDepth).Machines x y) :
    SameAnswer x y := by
  cases ends with
  | unfinished => exact .none
  | done a machines => exact .some _ (.of_machines machines)
  | failed same machines =>
    cases same
    exact .some _ (.of_machines machines)
  | excused₁ excused => exact excused.elim
  | excused₂ excused => exact excused.elim

theorem of_results {maxDepth : Nat} {x y : EStateM.Result Failure Machine α}
    (results : (Likeness.pools maxDepth).Results Eq x y) :
    SameAnswer (Option.some (Exec.outcome x)) (Option.some (Exec.outcome y)) := by
  cases results with
  | ok same machines =>
    cases same
    exact .some _ (.of_machines machines)
  | error same machines =>
    cases same
    exact .some _ (.of_machines machines)
  | excused₁ excused => exact excused.elim
  | excused₂ excused => exact excused.elim

end SameAnswer

/-! ## Calls from the host -/

/-- An instance is popped in the same way. -/
theorem Likeness.steady_popInstance {maxDepth : Nat} (height : Nat) :
    Exec.Steady (pools maxDepth) (Exec.popInstance height) := by
  have heights : (pools maxDepth).Heights height height :=
    ⟨height, (Nat.zero_add _).symm, (Nat.zero_add _).symm⟩
  refine Exec.alike_taking fun v => Exec.Steady.bind ?_ fun _ => Exec.steady_ofExcept v.read
  exact fun _ _ machines => .ok rfl (machines.cutStack heights)

namespace Machine.SameButPool

variable {m₁ m₂ : Machine} (same : m₁.SameButPool m₂) (env : Env) (fuel : Nat)

include same

/-- A call on what is on the stack. -/
theorem run (c : Callable) :
    SameAnswer (env.run fuel ⟨[.call c], m₁⟩) (env.run fuel ⟨[.call c], m₂⟩) := by
  have configs : (Likeness.pools m₁.stack.maxDepth).Configs ⟨[.call c], m₁⟩ ⟨[.call c], m₂⟩ :=
    ⟨.cons (.call c) .nil, same.machines⟩
  exact .of_ends (configs.run (.refl (fun _ => rfl) env) fun _ _ _ _ => .inl trivial)

theorem guarded {t : Task} (task : ∀ n, (Likeness.pools n).Tasks t t) (args : List Value) :
    SameAnswer (env.guarded fuel [t] args m₁) (env.guarded fuel [t] args m₂) := by
  rw [Env.guarded_eq, Env.guarded_eq, same.stack_eq]
  have ends := (Likeness.Envs.refl (fun _ => rfl) env).concluded same.machines.closed (task _) args
    fuel fun _ _ _ _ _ _ => .inl trivial
  refine (SameAnswer.of_ends ends).map ?_
  rintro (f | ⟨⟩) back₁ back₂ backs
  · exact ⟨rfl, (backs.cutStack m₁.stack.height).withStack fun s =>
      { s with floor := m₁.stack.floor, ceiling := m₁.stack.ceiling, depth := m₁.stack.depth }⟩
  · exact ⟨rfl, backs.withStack fun s => { s with floor := m₁.stack.floor }⟩

theorem invoke (c : Callable) (args : List Value) :
    SameAnswer (env.invoke fuel c args m₁) (env.invoke fuel c args m₂) := by
  unfold Env.invoke
  rw [same.stack_eq]
  refine (same.guarded env fuel (fun _ => .call c) args).map ?_
  rintro (f | ⟨⟩) back₁ back₂ backs
  · exact ⟨rfl, backs⟩
  · refine ⟨?_, backs.withStack fun s => s.truncate m₁.stack.height⟩
    simp only [Env.handedOver, backs.stack_eq]

theorem exec (l : LambdaRef) (args : List Value) :
    SameAnswer (env.exec fuel l args m₁) (env.exec fuel l args m₂) := by
  unfold Env.exec
  dsimp only
  by_cases few : args.length < (env.store.lambda l).params
  · rw [if_pos few, if_pos few]
    exact .some _ same
  rw [if_neg few, if_neg few]
  by_cases many : (env.store.lambda l).params < args.length
  · rw [if_pos many, if_pos many]
    exact .some _ same
  rw [if_neg many, if_neg many]
  have numbered := same.withHeap fun h => h.takeNumber.2
  have number : m₂.heap.takeNumber.1 = m₁.heap.takeNumber.1 := by rw [same.heap_eq]
  rw [number]
  exact numbered.invoke env fuel _ args

theorem instantiate (r : RecordRef) :
    SameAnswer (env.instantiate fuel r m₁) (env.instantiate fuel r m₂) := by
  unfold Env.instantiate
  rw [same.stack_eq]
  refine (same.guarded env fuel (fun _ => .construct r) []).map ?_
  rintro (f | ⟨⟩) back₁ back₂ backs
  · exact ⟨rfl, backs⟩
  · have popped := Likeness.steady_popInstance m₁.stack.height back₁ back₂ backs.machines
    dsimp only
    generalize Exec.popInstance m₁.stack.height back₁ = result₁,
      Exec.popInstance m₁.stack.height back₂ = result₂ at popped
    cases popped with
    | ok made machines => exact ⟨congrArg Except.ok made, of_machines machines⟩
    | error failed machines => exact ⟨congrArg Except.error failed, of_machines machines⟩
    | excused₁ excused => exact excused.elim
    | excused₂ excused => exact excused.elim

end Machine.SameButPool

/-! ## Frames -/

namespace Machine.SameButPool

variable {m₁ m₂ : Machine} (same : m₁.SameButPool m₂)

include same

theorem newFrame (status : FrameStatus) (length : Nat) :
    (m₁.newFrame status length).1 = (m₂.newFrame status length).1 ∧
      (m₁.newFrame status length).2.SameButPool (m₂.newFrame status length).2 := by
  obtain ⟨frame, machines⟩ := same.machines.newFrame status length
  exact ⟨frame.symm, of_machines machines⟩

theorem frameOf (slots : Array Value) :
    (m₁.frameOf slots).1 = (m₂.frameOf slots).1 ∧
      (m₁.frameOf slots).2.SameButPool (m₂.frameOf slots).2 := by
  obtain ⟨clean, p, clean', rfl⟩ := same
  exact ⟨rfl, clean, p, clean', rfl⟩

theorem setGlobals (f : FrameRef) : (m₁.setGlobals f).SameButPool (m₂.setGlobals f) := by
  obtain ⟨clean, p, clean', registered⟩ := same.settled.register f
  unfold Machine.setGlobals
  dsimp only
  rw [registered]
  have shared : (m₁.settled.register f).SameButPool ((m₁.settled.register f).withPool p) :=
    ⟨clean, p, clean', rfl⟩
  have kept := shared.keep (Keeper.blind_share (m₁.settled.register f).globals)
  have moved := kept.update (fun m => { m with globals := f }) (fun _ => rfl) fun _ _ => rfl
  exact moved.letGo (.frame (m₁.settled.register f).globals)

theorem initGlobals (length : Nat) :
    (m₁.initGlobals length).1 = (m₂.initGlobals length).1 ∧
      (m₁.initGlobals length).2.SameButPool (m₂.initGlobals length).2 := by
  obtain ⟨frame, made⟩ := same.settled.newFrame .owned length
  unfold Machine.initGlobals
  dsimp only
  rw [frame]
  exact ⟨rfl, made.setGlobals _⟩

theorem setSlot (f : FrameRef) (slot : Nat) (v : Value) :
    (m₁.setSlot f slot v).SameButPool (m₂.setSlot f slot v) := by
  have results := Exec.steady_put (.frame f) slot v m₁ m₂ same.machines
  unfold Machine.setSlot
  generalize Exec.put (.frame f) slot v m₁ = result₁, Exec.put (.frame f) slot v m₂ = result₂
    at results
  cases results with
  | ok _ machines => exact of_machines machines
  | error _ machines => exact of_machines machines
  | excused₁ excused => exact excused.elim
  | excused₂ excused => exact excused.elim

theorem clearFrame (f : FrameRef) : (m₁.clearFrame f).SameButPool (m₂.clearFrame f) := by
  unfold Machine.clearFrame
  have cleared := same.withHeap fun h => h.clearFrame f
  rw [same.heap_eq] at cleared ⊢
  exact cleared.letGoAll _

theorem clearFrames (frames : Array FrameRef) :
    (m₁.clearFrames frames).SameButPool (m₂.clearFrames frames) := by
  unfold Machine.clearFrames
  rw [← Array.foldl_toList, ← Array.foldl_toList]
  refine letGoAll ?_ _
  induction frames.toList generalizing m₁ m₂ with
  | nil => exact same
  | cons f rest ih => exact ih (same.clearFrame f)

theorem reset :
    m₁.reset.1 = m₂.reset.1 ∧ m₁.reset.2.SameButPool m₂.reset.2 := by
  obtain ⟨clean, p, clean', settled⟩ :=
    ((same.cutStack 0).withStack fun s => { s with depth := 0 }).settled
  unfold Machine.reset Machine.sweep
  dsimp only
  rw [settled]
  generalize Machine.settled _ = n at clean
  refine ⟨rfl, ?_⟩
  have rest : n.SameButPool (n.withPool p) := ⟨clean, p, clean', rfl⟩
  have cleared := rest.clearFrames (n.keeper.arena.live n.keeper.inUse)
  exact cleared.update (fun m => { m with keeper := { m.keeper with arena := {} } }) (fun _ => rfl)
    fun _ _ => rfl

/-! ## Booting -/

theorem pin (values : List Value) : (m₁.pin values).SameButPool (m₂.pin values) :=
  same.update (fun m => m.pin values) (fun _ => rfl) fun _ _ => rfl

theorem boot (env : Env) (fuel : Nat) (globals : FrameRef) (made : List InstanceRef)
    (records : List (String × RecordRef)) :
    SameAnswer (env.boot fuel globals made records m₁) (env.boot fuel globals made records m₂) := by
  induction records generalizing m₁ m₂ made with
  | nil => exact .some _ same
  | cons entry rest ih =>
    obtain ⟨module, record⟩ := entry
    have answers := same.instantiate env fuel record
    unfold Env.boot
    generalize env.instantiate fuel record m₁ = x, env.instantiate fuel record m₂ = y at answers
    cases answers with
    | none => exact .none
    | some result machines =>
      cases result with
      | error failure => exact .some _ (machines.letGoAll _)
      | ok i =>
        have placed := machines.setSlot globals made.length (.record i)
        have held := placed.update (fun m => m.hold (.record i)) (fun _ => rfl) fun _ _ => rfl
        exact ih held (made ++ [i])

theorem bootup (env : Env) (fuel : Nat) (registry : Registry) (globals : Nat) :
    SameAnswer (env.bootup fuel registry globals m₁) (env.bootup fuel registry globals m₂) := by
  have pins : m₂.keeper.pins = m₁.keeper.pins := by
    obtain ⟨-, p, -, rfl⟩ := same
    rfl
  obtain ⟨frame, made⟩ := same.initGlobals (max globals registry.records.size)
  unfold Env.bootup
  dsimp only
  rw [frame, pins]
  exact (made.boot env fuel _ [] _).map fun result n₁ n₂ machines => ⟨rfl, machines.pin _⟩

end Machine.SameButPool

/-- New machines differ in nothing but the limits of their pools. -/
theorem Machine.sameButPool_new (settings : Settings) (limit : Nat) :
    (Machine.new settings).SameButPool (.new { settings with poolLimit := limit }) := by
  have empty : ({} : Pool).Clean := (Pool.Reachable.new 256).clean
  let m : Machine :=
    { stack := { maxDepth := settings.maxCallDepth }
      globals := ⟨0⟩
      keeper := { pool := ({} : Pool).setLimit settings.poolLimit } }
  have same : m.SameButPool (m.withPool (({} : Pool).setLimit limit)) :=
    ⟨empty.setLimit _, _, empty.setLimit _, rfl⟩
  exact (same.newFrame .owned 0).2

/-! ## Sessions -/

/-- What a host can ask for. The code and the natives may be others each time. -/
inductive Operation where
  /-- Call a callable on arguments. -/
  | call (env : Env) (fuel : Nat) (c : Callable) (args : List Value)
  /-- Run a lambda on arguments. -/
  | exec (env : Env) (fuel : Nat) (l : LambdaRef) (args : List Value)
  /-- Make and initialise an instance. -/
  | instantiate (env : Env) (fuel : Nat) (r : RecordRef)
  /-- Call a callable on what is on the stack. -/
  | run (env : Env) (fuel : Nat) (c : Callable)
  /-- Instantiate the record types of a registry into new globals. -/
  | bootup (env : Env) (fuel : Nat) (registry : Registry) (globals : Nat)
  /-- Anything a native can ask for. -/
  | request (s : Store) (q : Request)
  /-- A new frame of nil slots. -/
  | newFrame (length : Nat)
  /-- A new frame of given slots. -/
  | frameOf (slots : Array Value)
  /-- New globals of nil slots. -/
  | initGlobals (length : Nat)
  /-- Another frame for the globals. -/
  | setGlobals (f : FrameRef)
  /-- Write a slot of a frame. -/
  | setSlot (f : FrameRef) (slot : Nat) (v : Value)
  /-- Set every slot of a frame to nil. -/
  | clearFrame (f : FrameRef)
  /-- Set every slot of some frames to nil. -/
  | clearFrames (frames : Array FrameRef)
  /-- Tear down what the machine made. -/
  | reset
  /-- Let so many lambdas run inside each other. -/
  | setMaxDepth (maxDepth : Nat)
  /-- Set the flag that stops a run. -/
  | setInterrupt (interrupt : Interrupt)
  /-- Keep so many buffers in the pool. -/
  | setPoolLimit (limit : Nat)
  /-- Hold these values, and no others. -/
  | hold (values : List Value)
  /-- Let go of values. -/
  | drop (values : List Value)
  /-- Release the frames that nothing holds any more. -/
  | settle
  /-- Look at everything but the pool. -/
  | look

namespace Operation

/-- What an operation is answered with. -/
@[reducible] def Reply : Operation → Type
  | .call .. | .exec .. => Except Failure (Array Value)
  | .instantiate .. => Except Failure InstanceRef
  | .run .. => Except Failure Unit
  | .bootup .. => Except BootError (List InstanceRef)
  | .request _ q => Except Failure q.Reply
  | .newFrame _ | .frameOf _ | .initGlobals _ => FrameRef
  | .reset => Nat
  | .look => Machine
  | _ => Unit

/-- Carries out an operation, which need not come to an end. -/
def serve : (o : Operation) → Machine → Option (o.Reply × Machine)
  | .call env fuel c args, m => env.invoke fuel c args m
  | .exec env fuel l args, m => env.exec fuel l args m
  | .instantiate env fuel r, m => env.instantiate fuel r m
  | .run env fuel c, m => env.run fuel ⟨[.call c], m⟩
  | .bootup env fuel registry globals, m => env.bootup fuel registry globals m
  | .request s q, m => some (Exec.outcome (q.serve s (fun _ => []) m))
  | .newFrame length, m => some (m.hostFrame length)
  | .frameOf slots, m => some (m.frameOf slots)
  | .initGlobals length, m => some (m.initGlobals length)
  | .setGlobals f, m => some ((), m.setGlobals f)
  | .setSlot f slot v, m => some ((), m.setSlot f slot v)
  | .clearFrame f, m => some ((), m.clearFrame f)
  | .clearFrames frames, m => some ((), m.clearFrames frames)
  | .reset, m => some m.reset
  | .setMaxDepth maxDepth, m => some ((), { m with stack := { m.stack with maxDepth } })
  | .setInterrupt interrupt, m => some ((), { m with interrupt })
  | .setPoolLimit limit, m => some ((), m.withPool (m.keeper.pool.setLimit limit))
  | .hold values, m => some ((), m.pin values)
  | .drop values, m => some ((), m.letGoAll values)
  | .settle, m => some ((), m.settled)
  | .look, m => some (m.withPool {}, m)

/-- An operation has the same answer whatever the pool. -/
theorem sameAnswer_serve (o : Operation) {m₁ m₂ : Machine} (same : m₁.SameButPool m₂) :
    SameAnswer (o.serve m₁) (o.serve m₂) := by
  cases o with
  | call env fuel c args => exact same.invoke env fuel c args
  | exec env fuel l args => exact same.exec env fuel l args
  | instantiate env fuel r => exact same.instantiate env fuel r
  | run env fuel c => exact same.run env fuel c
  | bootup env fuel registry globals => exact same.bootup env fuel registry globals
  | request s q =>
    have alike : Exec.Alike (Likeness.pools m₁.stack.maxDepth) Eq (q.serve s _) (q.serve s _) :=
      Likeness.alike_serve (fun _ _ => rfl) (fun _ => []) (.inl trivial)
    exact .of_results (alike m₁ m₂ same.machines)
  | newFrame length => exact .of_pair (same.settled.newFrame .shared length)
  | frameOf slots => exact .of_pair (same.frameOf slots)
  | initGlobals length => exact .of_pair (same.initGlobals length)
  | setGlobals f => exact .some () (same.setGlobals f)
  | setSlot f slot v => exact .some () (same.setSlot f slot v)
  | clearFrame f => exact .some () (same.clearFrame f)
  | clearFrames frames => exact .some () (same.clearFrames frames)
  | reset => exact .of_pair same.reset
  | setMaxDepth maxDepth => exact .some () (same.withStack fun s => { s with maxDepth })
  | setInterrupt interrupt =>
    exact .some () (same.update (fun m => { m with interrupt }) (fun _ => rfl) fun _ _ => rfl)
  | setPoolLimit limit => exact .some () (same.setPoolLimit limit limit)
  | hold values => exact .some () (same.pin values)
  | drop values => exact .some () (same.letGoAll values)
  | settle => exact .some () same.settled
  | look => exact .of_pair ⟨same.hidden_eq.symm, same⟩

end Operation

/-- A host that asks for one operation after the other until it has a result. -/
inductive Session (α : Type) where
  | done (a : α)
  | ask (o : Operation) (next : o.Reply → Session α)

namespace Session

variable {α : Type}

/-- Carries out the operations of a session. -/
def run : Session α → Machine → Option (α × Machine)
  | .done a, m => some (a, m)
  | .ask o next, m =>
    match o.serve m with
    | some (reply, m) => (next reply).run m
    | none => none

/-- What a session comes to: its result and the machine it leaves, apart from the pool. -/
def shown (s : Session α) (m : Machine) : Option (α × Machine) :=
  (s.run m).map fun (a, m) => (a, m.withPool {})

/-- Two hosts ask for the same, but one of them may keep more buffers in the pool than the other. -/
inductive SameButLimits : Session α → Session α → Prop
  | done (a : α) : SameButLimits (.done a) (.done a)
  | ask (o : Operation) {next₁ next₂ : o.Reply → Session α}
      (later : ∀ reply, SameButLimits (next₁ reply) (next₂ reply)) :
      SameButLimits (.ask o next₁) (.ask o next₂)
  | setPoolLimit (limit₁ limit₂ : Nat) {next₁ next₂ : Unit → Session α}
      (later : SameButLimits (next₁ ()) (next₂ ())) :
      SameButLimits (.ask (.setPoolLimit limit₁) next₁) (.ask (.setPoolLimit limit₂) next₂)

variable {s₁ s₂ : Session α}

/-- A session gets the same answers whatever the pool. -/
theorem SameButLimits.sameAnswer_run (sessions : s₁.SameButLimits s₂) {m₁ m₂ : Machine}
    (same : m₁.SameButPool m₂) : SameAnswer (s₁.run m₁) (s₂.run m₂) := by
  induction sessions generalizing m₁ m₂ with
  | done a => exact .some a same
  | @ask o next₁ next₂ later ih =>
    have answers := o.sameAnswer_serve same
    unfold run
    generalize o.serve m₁ = x, o.serve m₂ = y at answers
    cases answers with
    | none => exact .none
    | some reply machines => exact ih reply machines
  | setPoolLimit limit₁ limit₂ later ih => exact ih (same.setPoolLimit limit₁ limit₂)

theorem SameButLimits.shown_eq (sessions : s₁.SameButLimits s₂) {m₁ m₂ : Machine}
    (same : m₁.SameButPool m₂) : s₁.shown m₁ = s₂.shown m₂ := by
  have answers := sessions.sameAnswer_run same
  unfold shown
  generalize s₁.run m₁ = x, s₂.run m₂ = y at answers
  cases answers with
  | none => rfl
  | some a machines => simp only [Option.map_some, machines.hidden_eq]

/-- A session comes to the same whatever is in the pool, if that came about by making and dropping
frames, and whatever limit the pool has at the start or is given later. Every frame that is made has the
length that was asked for and nothing but nil in it, also if it is built in a buffer that was used
before. -/
theorem shown_pools (sessions : s₁.SameButLimits s₂) (m : Machine) {p₁ p₂ : Pool}
    (reachable₁ : p₁.Reachable) (reachable₂ : p₂.Reachable) :
    s₁.shown (m.withPool p₁) = s₂.shown (m.withPool p₂) ∧
    (∀ settings limit,
      s₁.shown (.new settings) = s₂.shown (.new { settings with poolLimit := limit })) ∧
    ∀ status length, let made := (m.withPool p₁).newFrame status length
      made.2.heap.slots made.1 = Array.replicate length .nil := by
  refine ⟨sessions.shown_eq ⟨reachable₁.clean, p₂, reachable₂.clean, rfl⟩, ?_, ?_⟩
  · intro settings limit
    exact sessions.shown_eq (Machine.sameButPool_new settings limit)
  · intro status length made
    have slots : ((m.withPool p₁).keeper.pool.take length).1 = Array.replicate length .nil :=
      Pool.take_of_clean reachable₁.clean length
    rw [← slots]
    exact Heap.slots_addFrame m.heap _

/-- A host that asks for a frame of one slot gets the same frame from a pool with a buffer in it that
held a number before and from an empty pool, and whether or not it wants buffers to be kept. -/
theorem shown_pools_parked :
    let p : Pool := ({ limit := 3 } : Pool).give #[.int 5]
    let s (limit : Nat) : Session FrameRef :=
      .ask (.setPoolLimit limit) fun _ => .ask (.newFrame 1) .done
    p.count = 1 ∧
      (s 2).shown ((Machine.new {}).withPool p) = (s 0).shown ((Machine.new {}).withPool {}) := by
  intro p s
  have reachable : p.Reachable := .give (.new 3) #[.int 5]
  have sessions : (s 2).SameButLimits (s 0) := .setPoolLimit 2 0 (.ask _ fun f => .done f)
  exact ⟨rfl, (shown_pools sessions (.new {}) reachable (.new 256)).1⟩

end Session

end PlotMachine
