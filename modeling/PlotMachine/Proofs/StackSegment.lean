import PlotMachine.Proofs.LibraryOnly
import PlotMachine.Proofs.Likeness.Host

/-!
# Calls know nothing of the stack below them

A call from the host works on its own segment of the stack, from the height at which it was made. All
absolute heights that come up in it (floors, ceilings, the places to cut back to) lie above that height
and are shifted with it, so what the host had on the stack, and how much of it, makes no difference to
the call (`Env.shown_of_agree`). It shows in one place only: a failure for want of room names the height of
the ceiling.

A ceiling is no higher than a word can count, so in a stack of astronomic height one segment might be
cut short where another is not. A call that is stopped there fails at the greatest word.
-/

namespace PlotMachine

/-- A fault without the height at which the stack was full. -/
def Fault.relative : Fault → Fault
  | .stackOverflow _ => .stackOverflow 0
  | f => f

/-- A failure without the height at which the stack was full. -/
def Failure.relative (f : Failure) : Failure := { f with fault := f.fault.relative }

theorem Failure.relative_locate (f : Failure) (p : Position) :
    (f.locate p).relative = f.relative.locate p := by
  unfold locate relative
  by_cases known : (f.position.isSome || !p.isKnown) = true
  · rw [if_pos known, if_pos known]
  · rw [if_neg known, if_neg known]

namespace Likeness

/-- Runs above stacks of which nothing is in reach. Nothing is asked of either run once the other one
has come to the greatest height that a word can count. -/
def segments (bottom₁ bottom₂ : Array Value) (maxDepth : Nat) : Likeness where
  bottom₁
  bottom₂
  -- ceilings that allow as many values above the bottoms, as far as a word can count
  ceilings c₁ c₂ := ∃ n, c₁ = min (bottom₁.size + n) (wordCount - 1) ∧
    c₂ = min (bottom₂.size + n) (wordCount - 1)
  headrooms n₁ n₂ := n₁ = n₂
  maxDepth₁ := maxDepth
  maxDepth₂ := maxDepth
  failures f₁ f₂ := f₁.relative = f₂.relative
  excused₁ f := f = .stackOverflow (wordCount - 1)
  excused₂ f := f = .stackOverflow (wordCount - 1)
  strict := False
  ceilings_raise := by
    rintro n _ rfl k
    exact ⟨k + n, by rw [Nat.add_assoc], by rw [Nat.add_assoc]⟩
  room := by
    rintro _ _ ⟨n, rfl, rfl⟩ k
    by_cases full₁ : min (bottom₁.size + n) (wordCount - 1) ≤ bottom₁.size + k
    · by_cases full₂ : min (bottom₂.size + n) (wordCount - 1) ≤ bottom₂.size + k
      · exact .inr (.inl ⟨full₁, full₂, rfl⟩)
      · -- there is room above one of the bottoms, so the other stack is at the limit of words
        have limit : min (bottom₁.size + n) (wordCount - 1) = wordCount - 1 := by omega
        exact .inr (.inr (.inl ⟨full₁, congrArg Fault.stackOverflow limit⟩))
    · by_cases full₂ : min (bottom₂.size + n) (wordCount - 1) ≤ bottom₂.size + k
      · have limit : min (bottom₂.size + n) (wordCount - 1) = wordCount - 1 := by omega
        exact .inr (.inr (.inr ⟨full₂, congrArg Fault.stackOverflow limit⟩))
      · exact .inl ⟨Nat.lt_of_not_le full₁, Nat.lt_of_not_le full₂⟩
  depths := .inl rfl
  failures_refl _ := rfl
  failures_locate := by
    intro f₁ f₂ same p
    rw [Failure.relative_locate, Failure.relative_locate, same]
  bottom_of_strict := False.elim
  failures_of_strict strict := strict.elim
  excused_of_strict := False.elim

end Likeness

/-- Between calls from the host the stack may grow as far as a word can count. -/
theorem Machine.Idle.ceiling_eq {m : Machine} (idle : m.Idle) :
    m.stack.ceiling = wordCount - 1 := by
  induction idle with
  | new settings => rfl
  | @invoke env fuel c args m m' result idle ended ih =>
    have answered := (Contract.rests_whole idle.ready.parked).invoke (Contract.covers_free _ _ _ env)
      rfl (fun v _ => Contract.fit_free _ _ _ v) (Contract.calls_free _ _ _ c) ended
    rw [answered.stack, ih]
  | @exec env fuel l args m m' result idle ended ih =>
    have answered := (Contract.rests_whole idle.ready.parked).exec (Contract.covers_free _ _ _ env)
      rfl (fun v _ => Contract.fit_free _ _ _ v) trivial ended
    rw [answered.stack, ih]
  | @instantiate env fuel r m m' result idle ended ih =>
    have answered := (Contract.rests_whole idle.ready.parked).instantiate
      (Contract.covers_free _ _ _ env) rfl trivial (idle.ready.floor_eq ▸ Nat.zero_le _) ended
    rw [answered.stack, ih]
  | @run env fuel c m m' outcome idle ended ih =>
    have inside := (idle.ready.sound env).add (t := .call c) (Contract.base_beyond_zero_le _)
      (Contract.calls_free _ _ _ c) rfl rfl
    obtain ⟨-, back, -⟩ := inside.run_all (Contract.covers_free _ _ _ env) ended
    have limits := (back.restored (Nat.zero_le _)).limits
    exact (congrArg Stack.Limits.ceiling limits).trans ih
  | @request s q reply m m' idle served ih =>
    have answers := Request.obeys_serve s (fun _ => []) ((Contract.lenient_free _ _ _).allows q) m
      ⟨(idle.ready.sound ⟨s, fun _ => .done ()⟩).toRests, Contract.base_beyond_zero_le _,
        idle.ready.floor_eq ▸ Nat.zero_le _⟩
    rw [served] at answers
    exact (congrArg Stack.Limits.ceiling answers.2.continues.stack.limits).trans ih
  | @reset m _ ih => simpa [Machine.reset, sweep, clearFrames_eq, settled, Stack.truncate] using ih
  | setMaxDepth _ maxDepth ih => exact ih
  | other _ same _ ih => rw [same, ih]

/-- Machines between calls from the host, once their stacks are out of reach. -/
theorem Likeness.machines_segments {m₁ m₂ : Machine} (idle₁ : m₁.Idle) (idle₂ : m₂.Idle)
    (agree : m₁.Agree m₂) (stack : m₂.stack = { m₁.stack with values := m₂.stack.values }) :
    (segments m₁.stack.values m₂.stack.values m₁.stack.maxDepth).Machines m₁.closed m₂.closed := by
  have depth : m₂.stack.depth = m₁.stack.depth := by rw [stack]
  have maxDepth : m₂.stack.maxDepth = m₁.stack.maxDepth := by rw [stack]
  have unlimited : ∀ size, wordCount - 1 = min (size + (wordCount - 1)) (wordCount - 1) := by
    intro size
    omega
  have matched : (segments m₁.stack.values m₂.stack.values m₁.stack.maxDepth).Stacks
      m₁.closed.stack m₂.closed.stack :=
    { values := ⟨#[], (Array.append_empty).symm, (Array.append_empty).symm⟩
      floor := ⟨0, rfl, rfl⟩
      ceiling := ⟨wordCount - 1, idle₁.ceiling_eq.trans (unlimited _),
        idle₂.ceiling_eq.trans (unlimited _)⟩
      depth := depth
      maxDepth₁ := rfl
      maxDepth₂ := maxDepth }
  exact ⟨matched, agree.heap, agree.globals, agree.interrupt, agree.output,
    idle₁.ready.parked, idle₂.ready.parked, nofun⟩

namespace Env

/-- What a call from the host shows of itself, besides the stack, which it leaves as it was. -/
structure Shown where
  result : Except Failure (Array Value)
  heap : Heap
  globals : FrameRef
  interrupt : Interrupt
  output : String

/-- What a call from the host shows. Absolute heights are left out. -/
def shown (env : Env) (fuel : Nat) (c : Callable) (args : List Value) (m : Machine) :
    Option Shown :=
  (env.invoke fuel c args m).map fun (result, m') =>
    { result := result.mapError Failure.relative
      heap := m'.heap
      globals := m'.globals
      interrupt := m'.interrupt
      output := m'.output }

/-- A call from the host does not come to the greatest height that a word can count. -/
def Fits (env : Env) (fuel : Nat) (c : Callable) (args : List Value) (m : Machine) : Prop :=
  ∀ f m', env.invoke fuel c args m = some (.error f, m') → f.fault ≠ .stackOverflow (wordCount - 1)

/-- A call that uses the native library only shows the same whatever the host has on the stack: it has
the same result, the same failure up to the height of the ceiling, makes the same changes to the heap
and the globals and prints the same, and runs out of fuel if the other one does. Which frames are in use
may depend on what is on the stack, so the accounts of frames may differ too. -/
theorem shown_of_agree {env : Env} {fuel : Nat} {c : Callable} {args : List Value} {m₁ m₂ : Machine}
    (idle₁ : m₁.Idle) (idle₂ : m₂.Idle) (agree : m₁.Agree m₂)
    (stack : m₂.stack = { m₁.stack with values := m₂.stack.values })
    (on : env.OnLibrary c args m₁) (fits₁ : env.Fits fuel c args m₁)
    (fits₂ : env.Fits fuel c args m₂) :
    env.shown fuel c args m₂ = env.shown fuel c args m₁ := by
  have envs := Likeness.Envs.refl (L := .segments m₁.stack.values m₂.stack.values m₁.stack.maxDepth)
    (fun _ => rfl) env
  have machines := Likeness.machines_segments idle₁ idle₂ agree stack
  have ends := envs.invoke machines c args fuel fun before d fn start later starts =>
    .inr (on.reserved idle₁.ready.parked start later starts)
  unfold Fits at fits₁ fits₂
  unfold shown
  generalize env.invoke fuel c args m₁ = end₁ at ends fits₁
  generalize env.invoke fuel c args m₂ = end₂ at ends fits₂
  cases ends with
  | unfinished => rfl
  | done values back =>
    simp only [Option.map_some, back.heap, back.globals, back.interrupt, back.output]
  | failed same back =>
    have relative : Failure.relative _ = Failure.relative _ := same
    simp only [Option.map_some, Except.mapError, relative, back.heap, back.globals, back.interrupt,
      back.output]
  | excused₁ excused _ => exact absurd excused (fits₁ _ _ rfl)
  | excused₂ excused _ => exact absurd excused (fits₂ _ _ rfl)

/-- The lambda that leaves two values leaves them on an empty stack and on one with a value. -/
theorem shown_of_agree_answering :
    let m : Machine := .new {}
    let m' : Machine := { m with stack := m.stack.push (.int 1) }
    let c : Callable := .function 5 ⟨0⟩ none
    (∃ values back, answering.invoke 9 c [] m = some (.ok values, back) ∧ values.size = 2) ∧
      answering.shown 9 c [] m' = answering.shown 9 c [] m := by
  intro m m' c
  have pushed : m'.Idle :=
    .request (s := {}) (q := .push (.int 1)) (.new {}) rfl
  obtain ⟨values, back, ran, two⟩ := exists_of_any (p := (·.size = 2))
    (x := answering.invoke 9 c [] m) (by decide +kernel)
  obtain ⟨_, _, ran', _⟩ := exists_of_any (p := (·.size = 2))
    (x := answering.invoke 9 c [] m') (by decide +kernel)
  have fits : answering.Fits 9 c [] m := by
    intro f _ failed
    rw [ran] at failed
    cases failed
  have fits' : answering.Fits 9 c [] m' := by
    intro f _ failed
    rw [ran'] at failed
    cases failed
  refine ⟨⟨values, back, ran, of_decide_eq_true two⟩, ?_⟩
  exact shown_of_agree (.new {}) pushed ⟨rfl, rfl, rfl, rfl⟩ rfl (onLibrary_answering {}) fits fits'

end Env

end PlotMachine
