import Mathlib.Data.List.Forall2
import PlotMachine.Proofs.Likeness.Instr
import PlotMachine.Proofs.Steps

/-!
# Runs on machines that are alike

Two runs that are alike go through the same steps. Their tasks agree but for the limits that
activations carry for their callers, and one step keeps it so (`Likeness.Configs.step`), hence so does
a run (`Likeness.Configs.run`). Unless the likeness is strict the natives that come up must neither
call anything nor look at the height of the stack; then a failure meets no native that would handle it,
so a run that fails in a way that is excused ends there.
-/

namespace PlotMachine

namespace Likeness

variable (L : Likeness)

/-! ## Code -/

/-- Stores that differ in nothing but how many values lambdas may hold on the stack. -/
structure Stores (s₁ s₂ : Store) : Prop where
  code : ∀ p, s₂.code p = s₁.code p
  record : ∀ r, s₂.record r = s₁.record r
  lambda : ∀ l, ∃ n, s₂.lambda l = { s₁.lambda l with maxStack := n } ∧
    L.headrooms (s₁.lambda l).maxStack n

/-- Code and natives of runs that are alike. -/
structure Envs (env₁ env₂ : Env) : Prop where
  store : L.Stores env₁.store env₂.store
  host : env₂.host = env₁.host

variable {L}

namespace Stores

variable {s₁ s₂ : Store} (stores : L.Stores s₁ s₂)

include stores

theorem displayName (l : LambdaRef) : (s₂.lambda l).displayName = (s₁.lambda l).displayName := by
  obtain ⟨n, same, -⟩ := stores.lambda l
  rw [same]
  rfl

theorem body (l : LambdaRef) : s₂.body l = s₁.body l := by
  obtain ⟨n, same, -⟩ := stores.lambda l
  rw [Store.body, Store.body, same, stores.code]

theorem describe (c : Callable) : s₂.describe c = s₁.describe c := by
  match c with
  | .function _ body _ => rw [Store.describe, Store.describe, stores.displayName]
  | .native _ fn => rw [Store.describe, Store.describe]
  | .thunk _ func _ => rw [Store.describe, Store.describe, describe func]
  | .undefined => rw [Store.describe, Store.describe]

theorem plainText (h : Heap) (v : Value) : s₂.plainText h v = s₁.plainText h v := by
  cases v with
  | record i =>
    simp only [Store.plainText, Store.instanceName]
    cases h.instance? i with
    | none => rfl
    | some x =>
      dsimp only
      rw [stores.record]
  | callable c => simp only [Store.plainText, stores.describe]
  | lambda l => simp only [Store.plainText, stores.displayName]
  | _ => rfl

/-- Values have the same text. -/
theorem text (h : Heap) (v : Value) : s₂.text h v = s₁.text h v := by
  have inside : ∀ inside, s₂.textInside h inside v = s₁.textInside h inside v := by
    intro inside
    -- along the walk through the arrays, of which each is entered once on the way to any item
    induction inside, v using Store.textInside.induct (h := h) with
    | case1 inside a seen =>
      unfold Store.textInside
      rw [if_pos seen, if_pos seen]
    | case2 inside a new bound ih =>
      unfold Store.textInside
      rw [if_neg new, if_neg new, if_pos bound, if_pos bound]
      simp only [ih]
    | case3 inside a new beyond =>
      unfold Store.textInside
      rw [if_neg new, if_neg new, if_neg beyond, if_neg beyond]
    | case4 inside v plain =>
      rw [Store.textInside, Store.textInside]
      · exact stores.plainText h v
      · exact plain
      · exact plain
  exact inside []

end Stores

/-- Runs of the same code and natives. -/
theorem Envs.refl (same : ∀ n, L.headrooms n n) (env : Env) : L.Envs env env where
  store := ⟨fun _ => rfl, fun _ => rfl, fun _ => ⟨_, rfl, same _⟩⟩
  host := rfl

/-- Natives do the same in both runs. -/
theorem Envs.routine {env₁ env₂ : Env} (envs : L.Envs env₁ env₂) (fn : Native) :
    env₂.routine fn = env₁.routine fn := by
  unfold Env.routine
  rw [envs.host]

/-! ## Entering and leaving lambdas -/

namespace Stacks

variable {s₁ s₂ : Stack} (matched : L.Stacks s₁ s₂)

include matched

theorem withDepth (n : Nat) : L.Stacks { s₁ with depth := n } { s₂ with depth := n } :=
  { matched with depth := rfl }

theorem raiseFloor : L.Stacks s₁.raiseFloor s₂.raiseFloor := { matched with floor := matched.height }

theorem raiseCeiling {n₁ n₂ : Nat} (headrooms : L.headrooms n₁ n₂) :
    L.Stacks (s₁.raiseCeiling n₁) (s₂.raiseCeiling n₂) := by
  refine { matched with ceiling := ?_ }
  obtain ⟨k, height₁, height₂⟩ := matched.height
  unfold Stack.raiseCeiling
  rw [height₁, height₂]
  exact L.ceilings_raise headrooms k

/-- Calls that come back to limits that are alike. -/
theorem withLimits {floor₁ floor₂ ceiling₁ ceiling₂ : Nat} (floors : L.Heights floor₁ floor₂)
    (ceilings : L.ceilings ceiling₁ ceiling₂) (depth : Nat) :
    L.Stacks { s₁ with ceiling := ceiling₁, floor := floor₁, depth }
      { s₂ with ceiling := ceiling₂, floor := floor₂, depth } :=
  { matched with floor := floors, ceiling := ceilings, depth := rfl }

end Stacks

variable (L)

/-- Activations of one lambda that differ in nothing but the limits of their callers. -/
structure Activations (a₁ a₂ : Activation) : Prop where
  lambda : a₂.lambda = a₁.lambda
  frame : a₂.frame = a₁.frame
  offset : a₂.offset = a₁.offset
  floor : L.Heights a₁.callerFloor a₂.callerFloor
  ceiling : L.ceilings a₁.callerCeiling a₂.callerCeiling

/-- Tasks that differ in nothing but limits. A native that waits for a call handles failures, so there
is none unless failures are the same. -/
inductive Tasks : Task → Task → Prop
  | call (c : Callable) : Tasks (.call c) (.call c)
  | native {r : Routine Unit} (unaware : L.Unaware r) (taken : List Value) :
      Tasks (.native r taken) (.native r taken)
  | handler (strict : L.strict) (taken : List Value) (next : Except Failure Unit → Routine Unit) :
      Tasks (.handler taken next) (.handler taken next)
  | body {a₁ a₂ : Activation} (alike : L.Activations a₁ a₂) : Tasks (.body a₁) (.body a₂)
  | waiting {a₁ a₂ : Activation} (alike : L.Activations a₁ a₂) (callee : Option Callable) :
      Tasks (.waiting a₁ callee) (.waiting a₂ callee)
  | construct (r : RecordRef) : Tasks (.construct r) (.construct r)
  | constructed (i : InstanceRef) {base₁ base₂ : Nat} (bases : L.Heights base₁ base₂) :
      Tasks (.constructed i base₁) (.constructed i base₂)

variable {L}

/-- Tasks that are alike hold the same objects. -/
theorem held_eq {tasks₁ tasks₂ : List Task} (tasks : List.Forall₂ L.Tasks tasks₁ tasks₂)
    (h : Heap) : Env.held tasks₂ h = Env.held tasks₁ h := by
  induction tasks with
  | nil => rfl
  | @cons t₁ t₂ rest₁ rest₂ alike _ ih =>
    have same : t₂.references h = t₁.references h := by
      cases alike with
      | body alike => rw [Task.references, Task.references, alike.frame]
      | waiting alike => rw [Task.references, Task.references, alike.frame]
      | _ => rfl
    unfold Env.held at ih ⊢
    rw [List.flatMap_cons, List.flatMap_cons, same, ih]

variable {env₁ env₂ : Env} (envs : L.Envs env₁ env₂) {tasks₁ tasks₂ : List Task}
  {m₁ m₂ : Machine}

include envs

/-- The same keeps a lambda from being entered in both machines, unless only the first one is on its last
level. -/
theorem barrier_alike (machines : L.Machines m₁ m₂) (l : LambdaRef) (closure : Option FrameRef) :
    env₂.barrier l closure m₂ = env₁.barrier l closure m₁ ∨
      ∃ fault, env₁.barrier l closure m₁ = some fault ∧ L.excused₁ fault := by
  obtain ⟨n, lambda, -⟩ := envs.store.lambda l
  have matched := machines.stack
  simp only [Env.barrier, lambda, Lambda.displayName, machines.heap, matched.available, matched.depth,
    matched.maxDepth₁, matched.maxDepth₂]
  split
  · exact .inl rfl
  split
  · exact .inl rfl
  rcases L.depths with same | ⟨deeper, excused⟩
  · rw [same]
    exact .inl rfl
  by_cases deep : L.maxDepth₁ ≤ m₁.stack.depth
  · rw [if_pos deep]
    exact .inr ⟨_, rfl, excused⟩
  · have shallow : ¬ L.maxDepth₂ ≤ m₁.stack.depth := by omega
    rw [if_neg deep, if_neg shallow]
    exact .inl rfl

/-- A lambda that is entered is entered in both machines. -/
theorem alike_enter (tasks : List.Forall₂ L.Tasks tasks₁ tasks₂) (l : LambdaRef)
    (closure : Option FrameRef) :
    Exec.Alike L L.Activations (env₁.enter tasks₁ l closure) (env₂.enter tasks₂ l closure) := by
  intro m₁ m₂ machines
  obtain ⟨n, lambda, headrooms⟩ := envs.store.lambda l
  have matched := machines.stack
  unfold Env.enter
  rcases barrier_alike envs machines l closure with same | ⟨fault, kept, excused⟩
  swap
  · rw [kept]
    exact .excused₁ excused _
  rw [same]
  cases free : env₁.barrier l closure m₁ with
  | some fault => exact .fault fault machines
  | none =>
  obtain ⟨-, near, -⟩ := Env.barrier_eq_none.1 free
  simp only [lambda, machines.heap]
  have bases := matched.argBase near
  rw [matched.above bases]
  -- the frame is a new one in both machines
  have settled : L.Machines (m₁.settle (Env.held tasks₁)) (m₂.settle (Env.held tasks₂)) :=
    machines.settle fun _ => held_eq tasks m₁.heap
  have made := settled.newFrame .owned (env₁.store.lambda l).vars
  generalize (m₁.settle (Env.held tasks₁)).newFrame .owned (env₁.store.lambda l).vars = made₁,
    (m₂.settle (Env.held tasks₂)).newFrame .owned (env₁.store.lambda l).vars = made₂ at made
  obtain ⟨frame, m₁'⟩ := made₁
  obtain ⟨frame', m₂'⟩ := made₂
  obtain ⟨same, made⟩ := made
  dsimp only at same made ⊢
  subst same
  have registered := made.register frame'
  rw [registered.heap, registered.stack.depth]
  refine .ok ⟨rfl, rfl, rfl, registered.stack.floor, registered.stack.ceiling⟩ ?_
  refine (registered.withHeap rfl).withStack (Stacks.raiseCeiling (Stacks.raiseFloor ?_) headrooms)
  exact (registered.stack.truncate bases).withDepth _

omit envs

/-- What leaving a lambda does to the account of frames. -/
theorem blind_leave (h : Heap) (f : FrameRef) :
    Keeper.Blind fun k => if k.idle then k.release h f else (k.share f).letGo (.frame f) :=
  Keeper.Blind.ite (Keeper.blind_release h f)
    ((Keeper.blind_letGo (.frame f)).comp (Keeper.blind_share f)) fun _ _ => rfl

theorem Machines.leave {a₁ a₂ : Activation} (machines : L.Machines m₁ m₂)
    (alike : L.Activations a₁ a₂) : L.Machines (Env.leave a₁ m₁) (Env.leave a₂ m₂) := by
  have left : ∀ (a : Activation) (m : Machine), Env.leave a m =
      { m with
        stack := { m.stack with
          ceiling := a.callerCeiling, floor := a.callerFloor, depth := m.stack.depth - 1 }
        keeper := if m.keeper.idle then m.keeper.release m.heap a.frame
          else (m.keeper.share a.frame).letGo (.frame a.frame) } := by
    intro a m
    simp only [Env.leave, Machine.letGo_eq]
    split
    · rfl
    · rfl
  rw [left, left, alike.frame, machines.heap, machines.stack.depth]
  have matched := machines.stack.withLimits alike.floor alike.ceiling (m₁.stack.depth - 1)
  exact ((machines.withStack matched).keep (blind_leave m₁.heap a₁.frame)).withHeap rfl

theorem Machines.finish (machines : L.Machines m₁ m₂) (callee : Option Callable) :
    L.Machines (Env.finish callee m₁) (Env.finish callee m₂) := by
  cases callee with
  | none => exact machines
  | some c => exact machines.letGo (.callable c)

/-! ## Failures -/

variable (L)

/-- Runs that are alike after a step. -/
inductive Statuses : Status → Status → Prop
  | running {tasks₁ tasks₂ : List Task} {m₁ m₂ : Machine}
      (tasks : List.Forall₂ L.Tasks tasks₁ tasks₂) (machines : L.Machines m₁ m₂) :
      Statuses (.running ⟨tasks₁, m₁⟩) (.running ⟨tasks₂, m₂⟩)
  | done {m₁ m₂ : Machine} (machines : L.Machines m₁ m₂) :
      Statuses (.halted (.ok ()) m₁) (.halted (.ok ()) m₂)
  | failed {f₁ f₂ : Failure} {m₁ m₂ : Machine} (same : L.failures f₁ f₂)
      (machines : L.Machines m₁ m₂) : Statuses (.halted (.error f₁) m₁) (.halted (.error f₂) m₂)
  | excused₁ {f : Failure} {m : Machine} (excused : L.excused₁ f.fault) (status : Status) :
      Statuses (.halted (.error f) m) status
  | excused₂ {f : Failure} {m : Machine} (excused : L.excused₂ f.fault) (status : Status) :
      Statuses status (.halted (.error f) m)

variable {L}

/-- A failure meets no native that handles it, unless the likeness is strict. -/
theorem unwind_eq_halted {P : Fault → Prop} (env : Env) {f : Failure} {tasks : List Task}
    (m : Machine) (unhandled : ∀ taken next, .handler taken next ∉ tasks) (may : P f.fault) :
    ∃ f' m', P f'.fault ∧ env.unwind f tasks m = .halted (.error f') m' := by
  induction tasks generalizing f m with
  | nil => exact ⟨f, m, may, rfl⟩
  | cons t rest ih =>
    have below : ∀ taken next, .handler taken next ∉ rest :=
      fun taken next inside => unhandled taken next (List.mem_cons_of_mem t inside)
    cases t with
    | handler taken next => exact absurd List.mem_cons_self (unhandled taken next)
    | body a => exact ih (f := f.locate (env.position a)) _ below (by simpa using may)
    | waiting a callee => exact ih (f := f.locate (env.position a)) _ below (by simpa using may)
    | _ => exact ih _ below may

/-- Tasks of runs that are not strictly alike have no native that waits for a call. -/
theorem not_mem_handler (tasks : List.Forall₂ L.Tasks tasks₁ tasks₂) (lax : ¬ L.strict)
    (taken : List Value) (next : Except Failure Unit → Routine Unit) :
    .handler taken next ∉ tasks₁ ∧ .handler taken next ∉ tasks₂ := by
  induction tasks with
  | nil => exact ⟨List.not_mem_nil, List.not_mem_nil⟩
  | cons alike _ ih =>
    simp only [List.mem_cons, not_or]
    cases alike with
    | handler strict => exact absurd strict lax
    | _ => exact ⟨⟨nofun, ih.1⟩, nofun, ih.2⟩

/-- A failure that is excused ends the first run. -/
theorem exists_halted_of_excused₁ {f : Failure} (tasks : List.Forall₂ L.Tasks tasks₁ tasks₂)
    (excused : L.excused₁ f.fault) (m : Machine) :
    ∃ f' m', L.excused₁ f'.fault ∧ env₁.unwind f tasks₁ m = .halted (.error f') m' := by
  have lax : ¬ L.strict := fun strict => (L.excused_of_strict strict f.fault).1 excused
  exact unwind_eq_halted (P := L.excused₁) env₁ m
    (fun taken next => (not_mem_handler tasks lax taken next).1) excused

theorem unwind_excused₁ {f : Failure} (tasks : List.Forall₂ L.Tasks tasks₁ tasks₂)
    (excused : L.excused₁ f.fault) (m : Machine) (status : Status) :
    L.Statuses (env₁.unwind f tasks₁ m) status := by
  obtain ⟨f', m', excused', halts⟩ := exists_halted_of_excused₁ tasks excused m
  rw [halts]
  exact .excused₁ excused' status

theorem unwind_excused₂ {f : Failure} (tasks : List.Forall₂ L.Tasks tasks₁ tasks₂)
    (excused : L.excused₂ f.fault) (m : Machine) (status : Status) :
    L.Statuses status (env₂.unwind f tasks₂ m) := by
  have lax : ¬ L.strict := fun strict => (L.excused_of_strict strict f.fault).2 excused
  obtain ⟨f', m', excused', halts⟩ := unwind_eq_halted (P := L.excused₂) env₂ m
    (fun taken next => (not_mem_handler tasks lax taken next).2) excused
  rw [halts]
  exact .excused₂ excused' status

include envs

theorem Envs.position {a₁ a₂ : Activation} (alike : L.Activations a₁ a₂) :
    env₂.position a₂ = env₁.position a₁ := by
  obtain ⟨n, same, -⟩ := envs.store.lambda a₁.lambda
  rw [Env.position, Env.position, alike.lambda, alike.offset, same]

/-- A failure goes out through the tasks in the same way. -/
theorem Envs.unwind {f₁ f₂ : Failure} (same : L.failures f₁ f₂)
    (tasks : List.Forall₂ L.Tasks tasks₁ tasks₂) (machines : L.Machines m₁ m₂) :
    L.Statuses (env₁.unwind f₁ tasks₁ m₁) (env₂.unwind f₂ tasks₂ m₂) := by
  induction tasks generalizing f₁ f₂ m₁ m₂ with
  | nil => exact .failed same machines
  | cons alike rest ih =>
    cases alike with
    | call c => exact ih same machines
    | native unaware taken => exact ih same machines
    | handler strict taken next =>
      cases L.failures_of_strict strict same
      exact .running (.cons (.native (.inl strict) taken) rest) machines
    | body alike =>
      unfold Env.unwind
      rw [envs.position alike]
      exact ih (L.failures_locate same _) (machines.leave alike)
    | waiting alike callee =>
      unfold Env.unwind
      rw [envs.position alike]
      exact ih (L.failures_locate same _) ((machines.finish callee).leave alike)
    | construct r => exact ih same machines
    | constructed i bases => exact ih same (machines.letGo (.record i))

/-- Two runs go on with the tasks that computations answer, or unwind. -/
theorem Envs.proceed {x y : Exec (List Task)} (tasks : List.Forall₂ L.Tasks tasks₁ tasks₂)
    (machines : L.Machines m₁ m₂) (alike : Exec.Alike L (List.Forall₂ L.Tasks) x y) :
    L.Statuses (env₁.proceed tasks₁ x m₁) (env₂.proceed tasks₂ y m₂) := by
  have results := alike m₁ m₂ machines
  unfold Env.proceed
  generalize x m₁ = result₁, y m₂ = result₂ at results
  cases results with
  | ok same machines' => exact .running same machines'
  | error same machines' => exact envs.unwind same tasks machines'
  | excused₁ excused result => exact unwind_excused₁ tasks excused _ _
  | excused₂ excused result => exact unwind_excused₂ tasks excused _ _

/-! ## Steps -/

/-- A call starts in the same way. -/
theorem Envs.call (tasks : List.Forall₂ L.Tasks tasks₁ tasks₂) (c : Callable)
    (unaware : ∀ id fn, c = .native id fn → L.Unaware (env₁.routine fn)) :
    Exec.Alike L (List.Forall₂ L.Tasks) (env₁.call tasks₁ c) (env₂.call tasks₂ c) := by
  cases c with
  | function id body closure =>
    refine (alike_enter envs tasks body closure).bind fun a₁ a₂ alike => ?_
    exact Exec.alike_pure (.cons (.body alike) tasks)
  | native id fn =>
    simp only [Env.call, envs.routine]
    exact Exec.alike_pure (.cons (.native (unaware id fn rfl) []) tasks)
  | thunk id func arg =>
    refine (Exec.steady_push arg).alike_bind fun _ => ?_
    exact Exec.alike_pure (.cons (.call func) tasks)
  | undefined => exact Exec.alike_fault .undefinedCall

omit envs in
/-- An instance is made and pushed in the same way. -/
theorem alike_allocate (r : RecordRef) (size : Nat) :
    Exec.Alike L (fun made₁ made₂ => made₂.1 = made₁.1 ∧ L.Heights made₁.2 made₂.2)
      (Env.allocate r size) (Env.allocate r size) := by
  refine (Exec.steady_heap fun h => h.addInstance r size).alike_bind fun i => ?_
  refine (Exec.alike_view fun machines => machines.stack.height).bind fun base₁ base₂ bases => ?_
  refine (Exec.steady_push (.record i)).alike_bind fun _ => ?_
  exact Exec.alike_pure ⟨rfl, bases⟩

/-- An instance is made in the same way, and its initialiser starts in the same way. -/
theorem Envs.construct (tasks : List.Forall₂ L.Tasks tasks₁ tasks₂) (r : RecordRef) :
    Exec.Alike L (List.Forall₂ L.Tasks) (env₁.construct tasks₁ r) (env₂.construct tasks₂ r) := by
  obtain ⟨n, init, -⟩ := envs.store.lambda (env₁.store.record r).init
  simp only [Env.construct, envs.store.record, init]
  split
  · exact fun _ _ machines => .fault _ machines
  · refine (alike_allocate r _).bind ?_
    rintro ⟨_, base₁⟩ ⟨i, base₂⟩ ⟨rfl, bases⟩
    have waiting := tasks.cons (Tasks.constructed i bases)
    refine (alike_enter envs waiting _ none).bind fun a₁ a₂ alike => ?_
    exact Exec.alike_pure (.cons (.body alike) waiting)

/-- An instruction is carried out in the same way. -/
theorem Envs.instruction {a₁ a₂ : Activation} (tasks : List.Forall₂ L.Tasks tasks₁ tasks₂)
    (alike : L.Activations a₁ a₂) (i : Instr)
    (unaware : ∀ fn, i = .builtin fn → L.Unaware (env₁.routine fn)) :
    Exec.Alike L (List.Forall₂ L.Tasks) (env₁.instruction tasks₁ a₁ i)
      (env₂.instruction tasks₂ a₂ i) := by
  obtain ⟨n, lambda, -⟩ := envs.store.lambda a₁.lambda
  unfold Env.instruction
  rw [alike.lambda, alike.frame, lambda]
  dsimp only
  refine (Exec.alike_perform _ a₁.frame i).bind ?_
  rintro flow _ ⟨rfl, native⟩
  -- an activation that waits for what its instruction called
  have waits : ∀ callee, List.Forall₂ L.Tasks (.waiting a₁ callee :: tasks₁)
      (.waiting a₂ callee :: tasks₂) :=
    fun callee => .cons (.waiting alike callee) tasks
  cases flow with
  | next =>
    dsimp only
    rw [alike.offset]
    exact Exec.alike_pure (.cons (.body ⟨rfl, rfl, rfl, alike.floor, alike.ceiling⟩) tasks)
  | goto offset =>
    dsimp only
    rw [envs.store.code]
    by_cases inside : offset ≤ (env₁.store.code (env₁.store.lambda a₁.lambda).code).size
    · rw [if_pos inside, if_pos inside]
      exact Exec.alike_pure (.cons (.body ⟨rfl, rfl, rfl, alike.floor, alike.ceiling⟩) tasks)
    · rw [if_neg inside, if_neg inside]
      exact Exec.alike_fault _
  | leave => exact fun _ _ machines => .ok tasks (machines.leave alike)
  | call c => exact Exec.alike_pure (.cons (.call c) (waits (some c)))
  | native fn =>
    dsimp only
    rw [envs.routine]
    exact Exec.alike_pure (.cons (.native (unaware fn (native fn rfl)) []) (waits none))
  | construct r => exact Exec.alike_pure (.cons (.construct r) (waits none))

end Likeness

/-- A native is about to be run at a point of a run. -/
inductive Config.Starts (env : Env) (fn : Native) : Config → Prop
  | call (id : Nat) (rest : List Task) (m : Machine) :
      Starts env fn ⟨.call (.native id fn) :: rest, m⟩
  | builtin {a : Activation} (found : (env.store.body a.lambda)[a.offset]? = some (.builtin fn))
      (rest : List Task) (m : Machine) : Starts env fn ⟨.body a :: rest, m⟩

namespace Likeness

variable (L : Likeness)

/-- Points of runs that are alike. -/
structure Configs (c₁ c₂ : Config) : Prop where
  tasks : List.Forall₂ L.Tasks c₁.tasks c₂.tasks
  machines : L.Machines c₁.machine c₂.machine

/-- How runs that are alike end, where `M` relates the machines they leave. -/
inductive Ends {α : Type} (M : Machine → Machine → Prop) :
    Option (Except Failure α × Machine) → Option (Except Failure α × Machine) → Prop
  | unfinished : Ends M none none
  | done (a : α) {m₁ m₂ : Machine} (machines : M m₁ m₂) :
      Ends M (some (.ok a, m₁)) (some (.ok a, m₂))
  | failed {f₁ f₂ : Failure} {m₁ m₂ : Machine} (same : L.failures f₁ f₂) (machines : M m₁ m₂) :
      Ends M (some (.error f₁, m₁)) (some (.error f₂, m₂))
  | excused₁ {f : Failure} {m : Machine} (excused : L.excused₁ f.fault)
      (ending : Option (Except Failure α × Machine)) : Ends M (some (.error f, m)) ending
  | excused₂ {f : Failure} {m : Machine} (excused : L.excused₂ f.fault)
      (ending : Option (Except Failure α × Machine)) : Ends M ending (some (.error f, m))

variable {L} {env₁ env₂ : Env} (envs : L.Envs env₁ env₂) {c₁ c₂ : Config}

include envs

/-- Points of runs that are alike are alike after a step. -/
theorem Configs.step (configs : L.Configs c₁ c₂)
    (unaware : ∀ fn, c₁.Starts env₁ fn → L.Unaware (env₁.routine fn)) :
    L.Statuses (env₁.step c₁) (env₂.step c₂) := by
  obtain ⟨tasks₁, m₁⟩ := c₁
  obtain ⟨tasks₂, m₂⟩ := c₂
  obtain ⟨tasks, machines⟩ := configs
  dsimp only at tasks machines
  cases tasks with
  | nil => exact .done machines
  | @cons _ _ rest₁ rest₂ alike rest =>
    cases alike with
    | call c =>
      refine envs.proceed rest machines (envs.call rest c ?_)
      rintro id fn rfl
      exact unaware fn (.call id _ m₁)
    | @native r unaware' taken =>
      have pauses := unaware'.advance envs.store.text (Env.held rest₁) taken machines
      unfold Env.step
      dsimp only
      rw [funext (held_eq rest)]
      generalize r.advance env₁.store (Env.held rest₁) taken m₁ = pause₁,
        r.advance env₂.store (Env.held rest₁) taken m₂ = pause₂ at pauses
      cases pauses with
      | done u machines' => exact .running rest machines'
      | failed same machines' => exact envs.unwind same rest machines'
      | calling strict c taken' next machines' =>
        exact .running (.cons (.call c) (.cons (.handler strict taken' next) rest)) machines'
      | excused₁ excused pause => exact unwind_excused₁ rest excused _ _
      | excused₂ excused pause => exact unwind_excused₂ rest excused _ _
    | handler strict taken next =>
      exact .running (.cons (.native (.inl strict) taken) rest) machines
    | @body a₁ a₂ alike =>
      unfold Env.step
      dsimp only
      rw [alike.lambda, alike.offset, envs.store.body]
      cases found : (env₁.store.body a₁.lambda)[a₁.offset]? with
      | none => exact .running rest (machines.leave alike)
      | some i =>
        refine envs.proceed (.cons (.body alike) rest) machines (envs.instruction rest alike i ?_)
        rintro fn rfl
        exact unaware fn (.builtin found _ m₁)
    | waiting alike callee =>
      unfold Env.step
      dsimp only
      rw [alike.offset]
      exact .running (.cons (.body { alike with offset := rfl }) rest) (machines.finish callee)
    | construct r => exact envs.proceed rest machines (envs.construct rest r)
    | constructed i bases =>
      refine envs.proceed rest machines (Exec.Alike.bind (R := Eq) ?_ ?_)
      · exact fun _ _ machines => .ok rfl (machines.cutStack bases)
      · rintro _ _ -
        exact (Exec.steady_push (.record i)).alike_bind fun _ => Exec.alike_pure rest

/-- Runs that are alike at some point end in the same way, with as much fuel. -/
theorem Configs.run {fuel : Nat} (configs : L.Configs c₁ c₂)
    (unaware : ∀ c fn, env₁.Steps c₁ c → c.Starts env₁ fn → L.Unaware (env₁.routine fn)) :
    L.Ends L.Machines (env₁.run fuel c₁) (env₂.run fuel c₂) := by
  induction fuel generalizing c₁ c₂ with
  | zero => exact .unfinished
  | succ fuel ih =>
    have statuses := configs.step envs fun fn => unaware c₁ fn (.refl c₁)
    rw [Env.run_succ, Env.run_succ]
    generalize next : env₁.step c₁ = status₁ at statuses
    generalize env₂.step c₂ = status₂ at statuses
    cases statuses with
    | running tasks machines =>
      exact ih ⟨tasks, machines⟩ fun c fn later => unaware c fn (.head next later)
    | done machines => exact .done () machines
    | failed same machines => exact .failed same machines
    | excused₁ excused status => exact .excused₁ excused _
    | excused₂ excused status => exact .excused₂ excused _

end Likeness

end PlotMachine
