import PlotMachine.Proofs.HostCalls
import PlotMachine.Proofs.Likeness.Run

/-!
# Calls that use the native library only

If neither the code nor the heap nor what is handed over mentions a native of the host, then none ever
comes up, since a run can only bring up natives that it finds there (`Env.OnLibrary.isLibrary`). The
contract that is observed allows everything but natives of the host.
-/

namespace PlotMachine

/-- A native belongs to the library. -/
def Native.isLibrary (fn : Native) : Bool :=
  match fn.entry with
  | .library _ => true
  | .host _ => false

/-- A native of the library does what its function in the library does. -/
theorem Native.exists_intrinsic {fn : Native} (known : fn.isLibrary) (env : Env) :
    ∃ intrinsic : Intrinsic, env.routine fn = intrinsic.routine := by
  unfold isLibrary at known
  unfold Env.routine
  cases entry : fn.entry with
  | library intrinsic => exact ⟨intrinsic, rfl⟩
  | host key =>
    rw [entry] at known
    cases known

mutual

/-- A value that mentions no native of the host. -/
def Value.OnLibrary : Value → Prop
  | .callable c => c.OnLibrary
  | _ => True

/-- A callable that mentions no native of the host. -/
def Callable.OnLibrary : Callable → Prop
  | .native _ fn => fn.isLibrary
  | .thunk _ func arg => func.OnLibrary ∧ arg.OnLibrary
  | _ => True

end

/-- An instruction that mentions no native of the host. -/
def Instr.OnLibrary : Instr → Prop
  | .builtin fn => fn.isLibrary
  | .constPush v => v.OnLibrary
  | _ => True

/-- A call that brings no native of the host into play. What lies on the stack is out of its reach. -/
structure Env.OnLibrary (env : Env) (c : Callable) (args : List Value) (m : Machine) : Prop where
  code : ∀ p, ∀ i ∈ env.store.code p, i.OnLibrary
  heap : ∀ o, ∀ v ∈ m.heap.contents o, v.OnLibrary
  callee : c.OnLibrary
  args : ∀ v ∈ args, v.OnLibrary

namespace Contract

/-- The contract that rules nothing out except work on the bottom of the stack and natives of the
host. -/
def library (bottom : Array Value) (globals : FrameRef) : Contract :=
  { free bottom globals fun _ => False with native := fun fn => fn.isLibrary }

variable (bottom : Array Value) (globals : FrameRef)

mutual

theorem fit_library {v : Value} (known : v.OnLibrary) : (library bottom globals).Fit v := by
  cases v with
  | callable c =>
    unfold Value.OnLibrary at known
    exact calls_library known
  | _ => trivial

theorem calls_library {c : Callable} (known : c.OnLibrary) :
    (library bottom globals).Calls c := by
  cases c with
  | function id body closure => exact ⟨trivial, fun _ _ => trivial⟩
  | native id fn =>
    unfold Callable.OnLibrary at known
    exact known
  | thunk id func arg =>
    unfold Callable.OnLibrary at known
    exact ⟨calls_library known.1, fit_library known.2⟩
  | undefined => trivial

end

/-- Code that mentions no native of the host does what the contract asks of it. -/
theorem covers_library {env : Env} (code : ∀ p, ∀ i ∈ env.store.code p, i.OnLibrary) :
    (library bottom globals).Covers env where
  instr l _ i inside := by
    have known : i.OnLibrary := code _ i inside
    cases i with
    | constPush v => exact fit_library bottom globals known
    | builtin fn => exact known
    | save storage slot =>
      cases storage with
      | var => trivial
      | global => trivial
      | field => exact fun _ _ => trivial
    | jump condition target => exact .inr fun _ => trivial
    | _ => trivial
  record _ _ := trivial
  native fn known := by
    obtain ⟨intrinsic, same⟩ := Native.exists_intrinsic known env
    rw [same]
    exact intrinsic.keeps_routine
  parked _ none := none.elim

end Contract

namespace Env

variable {env : Env} {c : Callable} {args : List Value} {m : Machine}

/-- The machine observes the contract when the call is made. -/
theorem OnLibrary.rests (on : env.OnLibrary c args m) (clean : m.keeper.pool.Clean) :
    (Contract.library m.stack.values m.globals).Rests m where
  bottom _ _ := rfl
  values i v high found := by
    have none : m.stack.values[i]? = none := Array.getElem?_eq_none high
    rw [none] at found
    cases found
  globals := rfl
  heap :=
    { grown := .of_empty m.heap
      contents := fun o _ v inside => Contract.fit_library _ _ (on.heap o v inside)
      kept := fun _ locked => absurd trivial locked }
  pool := clean

/-- The contract is observed once the arguments of a call are handed over. -/
theorem OnLibrary.sound_started (on : env.OnLibrary c args m) (clean : m.keeper.pool.Clean)
    {t : Task} {before : Machine}
    (entry : (Contract.library m.stack.values m.globals).Entry env t)
    (start : started args m = .ok () before) :
    (Contract.library m.stack.values m.globals).Sound env m.stack.maxDepth
      m.stack.raiseFloor.limits [t] before := by
  have fit := fun v inside => Contract.fit_library m.stack.values m.globals (on.args v inside)
  exact ((on.rests clean).sound_started rfl fit entry start).1

/-- A native that comes up where the contract is observed belongs to the library. -/
theorem isLibrary_of_sound {bottom : Array Value} {globals : FrameRef} {maxDepth : Nat}
    {outer : Stack.Limits} {d e : Config} {fn : Native}
    (code : ∀ p, ∀ i ∈ env.store.code p, i.OnLibrary)
    (sound : (Contract.library bottom globals).Sound env maxDepth outer d.tasks d.machine)
    (later : env.Steps d e) (starts : e.Starts env fn) : fn.isLibrary := by
  have covers := Contract.covers_library bottom globals code
  have sound' := sound.steps covers later
  cases starts with
  | call id rest m' => exact sound'.head
  | @builtin a found rest m' =>
    have runs : (Contract.library bottom globals).Runs env m'.heap a := sound'.head
    exact covers.instr _ runs.lambda _ (Array.mem_of_getElem? found)

/-- A native that comes up in the course of the call belongs to the library. -/
theorem OnLibrary.isLibrary (on : env.OnLibrary c args m) (clean : m.keeper.pool.Clean)
    {before : Machine} {d : Config} {fn : Native} (start : started args m = .ok () before)
    (later : env.Steps ⟨[.call c], before⟩ d) (starts : d.Starts env fn) : fn.isLibrary := by
  have entry : (Contract.library m.stack.values m.globals).Entry env (.call c) :=
    Contract.entry_call (Contract.calls_library _ _ on.callee)
  exact isLibrary_of_sound (d := ⟨[.call c], before⟩) on.code
    (on.sound_started clean entry start) later starts

/-- So it neither calls anything nor asks how high the stack is. -/
theorem OnLibrary.reserved (on : env.OnLibrary c args m) (clean : m.keeper.pool.Clean)
    {before : Machine} {d : Config} {fn : Native} (start : started args m = .ok () before)
    (later : env.Steps ⟨[.call c], before⟩ d) (starts : d.Starts env fn) :
    (env.routine fn).Reserved := by
  have known := on.isLibrary clean start later starts
  obtain ⟨intrinsic, same⟩ := Native.exists_intrinsic known env
  rw [same]
  exact intrinsic.reserved_routine

end Env

/-- The objects of a new machine are empty. -/
theorem Machine.contents_new (settings : Settings) (o : Object) :
    (Machine.new settings).heap.contents o = #[] := by
  have slots := Pool.size_take (({} : Pool).setLimit settings.poolLimit) 0
  have added := Heap.contents_addFrame {} ((({} : Pool).setLimit settings.poolLimit).take 0).1 o
  have old : ({} : Heap).contents o = #[] := by
    apply Heap.contents_eq_empty
    cases o <;> exact Nat.not_lt_zero _
  rw [Array.eq_empty_of_size_eq_zero slots, old, ite_self] at added
  unfold new newFrame addFrame
  dsimp only
  rw [Array.eq_empty_of_size_eq_zero slots]
  exact added

/-- Nothing is in the heap of a new machine that could mention a native. -/
theorem Env.onLibrary_new {env : Env} (settings : Settings) {c : Callable} {args : List Value}
    (code : ∀ p, ∀ i ∈ env.store.code p, i.OnLibrary) (callee : c.OnLibrary)
    (handed : ∀ v ∈ args, v.OnLibrary) : env.OnLibrary c args (.new settings) where
  code := code
  heap o v inside := by
    rw [Machine.contents_new] at inside
    cases Array.not_mem_empty v inside
  callee := callee
  args := handed

/-- The lambda of `answering` that leaves two values mentions no native. -/
theorem Env.onLibrary_answering (settings : Settings) :
    answering.OnLibrary (.function 5 ⟨0⟩ none) [] (.new settings) := by
  refine onLibrary_new settings ?_ trivial nofun
  rintro ⟨_ | _ | p⟩ i inside
  · have pushes : i = .intPush 7 ∨ i = .intPush 8 := by
      simpa [answering, Store.code, Store.code?] using inside
    obtain rfl | rfl := pushes <;> trivial
  · simp [answering, Store.code, Store.code?] at inside
  · simp [answering, Store.code, Store.code?] at inside

end PlotMachine
