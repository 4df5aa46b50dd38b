import PlotMachine.Proofs.Contract.Step

/-!
# Calls keep to the stack they are given

The contract that rules nothing out above a height of the stack is observed by all code, valid or
not, and by every native (`Contract.covers_free`). So a call of a lambda, however it goes on and
whatever it calls, comes back with the limits it was made with, and it leaves everything below its
arguments alone (`Env.lambda_keeps_stack`).
-/

namespace PlotMachine

namespace Contract

/-! ## Contracts that leave code a free hand -/

/-- A contract that rules out no code, no native and no failure. All that it may rule out is work on
the bottom of the stack and on some objects. -/
structure Lenient (K : Contract) : Prop where
  holds : ∀ o, K.holds o
  lambda : ∀ l, K.lambda l
  record : ∀ r, K.record r
  native : ∀ fn, K.native fn
  failure : ∀ f, K.failure f

namespace Lenient

variable {K : Contract} (lenient : K.Lenient)

include lenient

mutual

/-- Every value may come into play. -/
theorem fit (v : Value) : K.Fit v := by
  cases v with
  | callable c => exact calls c
  | array a => exact lenient.holds (.array a)
  | record i => exact lenient.holds (.record i)
  | frame f => exact lenient.holds (.frame f)
  | _ => trivial

/-- Every callable may come into play. -/
theorem calls (c : Callable) : K.Calls c := by
  cases c with
  | function id body closure => exact ⟨lenient.lambda body, fun f _ => lenient.holds (.frame f)⟩
  | native id fn => exact lenient.native fn
  | thunk id func arg => exact ⟨calls func, fit arg⟩
  | undefined => trivial

end

/-- Every request is allowed. -/
theorem allows (q : Request) : K.Allows q := by
  cases q with
  | push v => exact lenient.fit v
  | setTop v => exact lenient.fit v
  | values => exact fun v _ => lenient.fit v
  | globals => exact lenient.holds (.frame K.globals)
  | newArray items => exact fun v _ => lenient.fit v
  | items a => exact lenient.holds (.array a)
  | getItem a index => exact lenient.holds (.array a)
  | setItem a index v => exact ⟨lenient.holds (.array a), lenient.fit v⟩
  | append a v => exact ⟨lenient.holds (.array a), lenient.fit v⟩
  | newThunk func arg => exact ⟨lenient.calls func, lenient.fit arg⟩
  | _ => trivial

/-- Every native keeps to the contract, since the requests are all it can make. -/
theorem keeps {α : Type} (r : Routine α) : r.Keeps K := by
  induction r with
  | done a => trivial
  | fail f => exact lenient.failure f
  | ask q next ih => exact ⟨lenient.allows q, fun reply _ => ih reply⟩
  | invoke c next ih => exact ⟨lenient.calls c, fun outcome _ => ih outcome⟩

/-- Code does what the contract asks of it unless it writes globals or fields that are ruled out. A
label that leads nowhere is a failure like others. -/
theorem covers {env : Env}
    (saves : ∀ l storage slot, .save storage slot ∈ env.store.body l →
      storage = .var ∨ ∀ o, K.writes o) : K.Covers env where
  instr l _ i inside := by
    cases i with
    | constPush v => exact lenient.fit v
    | save storage slot =>
      rcases saves l storage slot inside with rfl | writes
      · trivial
      · cases storage with
        | var => trivial
        | global => exact writes _
        | field => exact fun o _ => writes o
    | builtin fn => exact lenient.native fn
    | jump condition target => exact .inr fun f => lenient.failure f
    | makeFunc l => exact lenient.lambda l
    | alloc r => exact lenient.record r
    | _ => trivial
  record r _ := lenient.lambda _
  native fn _ := lenient.keeps (env.routine fn)
  parked v _ := lenient.fit v

end Lenient

/-- The contract that rules nothing out except work on the bottom of the stack. -/
def free (bottom : Array Value) (globals : FrameRef) (parked : Value → Prop) : Contract where
  bottom
  start := {}
  globals
  holds _ := True
  writes _ := True
  lambda _ := True
  record _ := True
  native _ := True
  failure _ := True
  parked
  holds_new _ _ := trivial
  writes_new _ _ := trivial
  writes_array _ _ := trivial
  failure_of _ _ := trivial
  failure_locate _ _ _ := trivial

variable (bottom : Array Value) (globals : FrameRef) (parked : Value → Prop)

theorem lenient_free : (free bottom globals parked).Lenient :=
  ⟨fun _ => trivial, fun _ => trivial, fun _ => trivial, fun _ => trivial, fun _ => trivial⟩

theorem fit_free (v : Value) : (free bottom globals parked).Fit v :=
  (lenient_free bottom globals parked).fit v

theorem calls_free (c : Callable) : (free bottom globals parked).Calls c :=
  (lenient_free bottom globals parked).calls c

theorem covers_free (env : Env) : (free bottom globals parked).Covers env :=
  (lenient_free bottom globals parked).covers fun _ _ _ _ => .inr fun _ => trivial

end Contract

namespace Stack

/-- The floor is not above the values, and no more lambdas run than may. -/
structure Sound (s : Stack) : Prop where
  floor_le : s.floor ≤ s.height
  depth_le : s.depth ≤ s.maxDepth

/-- The second stack has the limits of the first one and its values up to a height. -/
structure Restored (height : Nat) (s s' : Stack) : Prop where
  limits : s'.limits = s.limits
  maxDepth : s'.maxDepth = s.maxDepth
  height_le : height ≤ s'.height
  below : ∀ i, i < height → s'.values[i]? = s.values[i]?

end Stack

namespace Contract

/-- The contract under which everything is allowed above a height of the stack. -/
def beyond (m : Machine) (height : Nat) (parked : Value → Prop) : Contract :=
  free (m.stack.values.take height) m.globals parked

variable {env : Env} {m m' : Machine} {height : Nat} {tasks : List Task} {P : Value → Prop}

theorem base_beyond (le : height ≤ m.stack.height) : (beyond m height P).base = height := by
  simp only [base, beyond, free, Array.take_eq_extract, Array.size_extract, Nat.sub_zero]
  exact Nat.min_eq_left le

theorem base_beyond_zero_le (n : Nat) : (beyond m 0 P).base ≤ n := by
  rw [base_beyond (Nat.zero_le _)]
  exact Nat.zero_le n

theorem bottom_beyond {i : Nat} (low : i < height) :
    (beyond m height P).bottom[i]? = m.stack.values[i]? := by
  have kept := m.stack.getElem?_truncate height i
  rwa [if_pos low] at kept

/-- A machine is at rest if the bottom of its stack is as it should be. -/
theorem rests_free {bottom : Array Value}
    (same : ∀ i, i < bottom.size → m.stack.values[i]? = bottom[i]?) (all : m.keeper.pool.All P) :
    (free bottom m.globals P).Rests m where
  bottom := same
  values _ v _ _ := fit_free _ _ _ v
  globals := rfl
  heap :=
    { grown := .of_empty m.heap
      contents := fun _ _ v _ => fit_free _ _ _ v
      kept := fun _ locked => absurd trivial locked }
  pool := all

/-- A machine is at rest if all of its stack is out of reach. -/
theorem rests_whole (all : m.keeper.pool.All P) : (free m.stack.values m.globals P).Rests m :=
  rests_free (fun _ _ => rfl) all

/-- A machine at rest is sound for work above a height of its stack. -/
theorem sound_beyond (env : Env) (le : height ≤ m.stack.height)
    (floor_le : m.stack.floor ≤ m.stack.height) (all : m.keeper.pool.All P) :
    (beyond m height P).Sound env m.stack.maxDepth m.stack.limits [] m where
  toRests := by
    refine rests_free (fun i low => ?_) all
    have low' : i < (beyond m height P).base := low
    rw [base_beyond le] at low'
    exact (bottom_beyond (P := P) low').symm
  floor_le := floor_le
  maxDepth_eq := rfl
  takes := nofun
  nest := .nil

/-- Work above a height of the stack leaves what is below, and gives the limits back in the end. -/
theorem Sound.restored (le : height ≤ m.stack.height)
    (sound : (beyond m height P).Sound env m.stack.maxDepth m.stack.limits [] m') :
    m.stack.Restored height m'.stack := by
  have below : ∀ i, i < height → m'.stack.values[i]? = m.stack.values[i]? := by
    intro i low
    have kept := sound.bottom i (by rw [base_beyond le]; exact low)
    rwa [bottom_beyond low] at kept
  refine ⟨sound.nest.limits_eq, sound.maxDepth_eq, ?_, below⟩
  -- the last value below the height is still there
  by_contra short
  have kept := below m'.stack.height (Nat.lt_of_not_le short)
  rw [Array.getElem?_eq_none (Nat.le_refl m'.stack.height)] at kept
  exact short (Nat.le_trans le (Array.getElem?_eq_none_iff.1 kept.symm))

end Contract

namespace Env

/-- What is promised at a point of a call that was made above `rest` on the stack `s`, where `tasks`
remain of the call: whatever runs finds a sound stack, and the call gives back the stack up to a
height, whether it comes back or a failure leaves it. -/
structure KeepsStack (env : Env) (rest : List Task) (height : Nat) (s : Stack)
    (tasks : List Task) (m : Machine) : Prop where
  sound : m.stack.Sound
  /-- Each lambda that runs or waits counts one. -/
  depth : m.stack.depth = s.depth + (tasks.filterMap Task.activation?).length
  /-- A native finds a sound stack at each of its requests. -/
  native : ∀ r taken below, tasks = .native r taken :: below →
    ∀ m', r.Visits env.store (held (below ++ rest)) taken m m' →
      m'.stack.Sound ∧ m'.stack.depth = m.stack.depth
  back : tasks = [] → s.Restored height m.stack
  next : tasks ≠ [] →
    (∃ tasks' m', env.step ⟨tasks ++ rest, m⟩ = .running ⟨tasks' ++ rest, m'⟩) ∨
    ∃ f m', env.step ⟨tasks ++ rest, m⟩ = env.unwind f rest m' ∧ s.Restored height m'.stack

/-- Work above a height of the stack keeps what is promised. -/
theorem keepsStack_of_sound {env : Env} (rest : List Task) {height : Nat} {m m' : Machine}
    {tasks : List Task} {P : Value → Prop} (le : height ≤ m.stack.height)
    (depth_le : m.stack.depth ≤ m.stack.maxDepth)
    (sound : (Contract.beyond m height P).Sound env m.stack.maxDepth m.stack.limits tasks m') :
    env.KeepsStack rest height m.stack tasks m' := by
  have within : m'.stack.Sound := by
    refine ⟨sound.floor_le, ?_⟩
    rw [sound.maxDepth_eq]
    exact sound.nest.depth_le depth_le
  refine ⟨within, sound.nest.depth_eq, ?_, ?_, ?_⟩
  -- a native works within the limits it was called with, request by request
  · rintro r taken below rfl m'' visits
    have follows := visits.follows ((Contract.lenient_free _ _ _).keeps r) sound.holds
    have depth : m''.stack.depth = m'.stack.depth :=
      congrArg Stack.Limits.depth follows.continues.stack.limits
    refine ⟨⟨follows.holds.floor_le, ?_⟩, depth⟩
    rw [depth, follows.continues.stack.maxDepth]
    exact within.depth_le
  · rintro rfl
    exact sound.restored le
  · intro more
    cases tasks with
    | nil => exact absurd rfl more
    | cons t below =>
      have advances := sound.step (Contract.covers_free _ _ _ env) rest
      generalize env.step ⟨t :: below ++ rest, m'⟩ = status at advances
      cases advances with
      | running => exact .inl ⟨_, _, rfl⟩
      | failing _ sound' _ => exact .inr ⟨_, _, rfl, sound'.restored le⟩

/-- A lambda that cannot be entered leaves the stack alone. One that is entered keeps the stack that it
was given up to its arguments, at every point of its run, whatever the code and whatever it calls. -/
theorem lambda_keeps_stack (env : Env) (rest : List Task) (l : LambdaRef)
    (closure : Option FrameRef) (m : Machine) (sound : m.stack.Sound) :
    match env.enter rest l closure m with
    | .error _ m' => m'.stack = m.stack
    | .ok a m' => ∀ c, env.Above rest ⟨.body a :: rest, m'⟩ c →
      ∃ tasks, c.tasks = tasks ++ rest ∧
        env.KeepsStack rest (m.stack.height - (env.store.lambda l).params) m.stack tasks
          c.machine := by
  have le : env.argBase l m ≤ m.stack.height := Nat.sub_le _ _
  cases result : env.enter rest l closure m with
  | error f m' => exact congrArg Machine.stack (enter_eq_error result).1
  | ok a m' =>
    intro c later
    -- the arguments are in reach of the lambda, and what is below them is not
    have outside := Contract.sound_beyond env le sound.floor_le m.keeper.pool.all_true
    have inside := outside.enter (Nat.le_of_eq (Contract.base_beyond le)) trivial (fun _ _ => trivial)
      (fun v _ => Contract.fit_free _ _ _ v) (entered_of_enter result)
    obtain ⟨tasks, split, sound', _⟩ := inside.above (Contract.covers_free _ _ _ env) later
    exact ⟨tasks, split, keepsStack_of_sound rest le sound.depth_le sound'⟩

/-- Code with one lambda that takes an argument and fails at once, for want of a value to pop. -/
def failing : Env where
  store :=
    { programs := #[some #[.pop]]
      lambdas := #[{ code := ⟨0⟩, maxStack := 1, params := 1, vars := 1 }] }
  host _ := .done ()

/-- A stack of two values keeps the lower one when the lambda that takes the upper one has failed. -/
theorem lambda_keeps_stack_failing :
    let s : Stack := { values := #[.int 1, .int 2], maxDepth := 1 }
    ∃ a m', failing.enter [] ⟨0⟩ none { stack := s, globals := ⟨0⟩ } = .ok a m' ∧
      ∃ f back, failing.step ⟨[.body a], m'⟩ = failing.unwind f [] back ∧
        s.Restored 1 back.stack := by
  let s : Stack := { values := #[.int 1, .int 2], maxDepth := 1 }
  have sound : s.Sound := ⟨by decide, by decide⟩
  refine ⟨_, _, rfl, ?_⟩
  obtain ⟨tasks, split, keeps⟩ :=
    lambda_keeps_stack failing [] ⟨0⟩ none { stack := s, globals := ⟨0⟩ } sound _ .refl
  rw [List.append_nil] at split
  subst split
  rcases keeps.next nofun with ⟨tasks', m', running⟩ | failed
  · cases running
  · exact failed

end Env

end PlotMachine
