import PlotMachine.Proofs.StackBound
import PlotMachine.Proofs.StackEffects

/-!
# Library functions that fail after they wrote

Appending to an array and setting an item of it come before the push of the result, which needs room. A
library function takes its arguments off the stack first, so there is room for the result unless the stack
was higher than its ceiling by as many values as the function has arguments. Nothing else can go wrong once
an array is written (`Intrinsic.spares_of_failed`).

While a lambda runs its stack gets above the ceiling only by what its callees leave there. So a library
function that fails leaves all objects as they were, unless a callee came back with too many values
(`Env.contents_or_overfilled`). That case does arise (`Env.not_contents_of_failed`).
-/

namespace PlotMachine

/-- A library function that fails has written nothing, unless it found no room for its result, on a stack
that was too high by all of its arguments. -/
theorem Intrinsic.spares_of_failed {fn : Intrinsic} {s : Store} {held : Heap → List Object}
    {taken : List Value} {m m' : Machine} {f : Failure}
    (failed : fn.routine.advance s held taken m = (.failed f, m')) :
    m.heap.Spares m'.heap ∨
      (fn.writesArray = true ∧ f = Fault.stackOverflow m.stack.ceiling ∧
        m.stack.ceiling + fn.arity ≤ m.stack.height) := by
  have traded := fn.trades_routine.advance s held taken m
  rw [failed] at traded
  cases traded with
  | refused _ _ _ spares => exact .inl spares
  | overfull may _ full _ => exact .inr ⟨may, rfl, full⟩

namespace Env

variable {rest ts : List Task} {t : Task} {l : LambdaRef} {closure : Option FrameRef}
  {m m₁ m' : Machine} {a : Activation} {c : Config} {taken : List Value} {f : Failure}

/-- A lambda starts on a stack no higher than its ceiling. -/
theorem height_le_ceiling_of_enter {env : Env} (sized : m.stack.height < wordCount)
    (entered : env.enter rest l closure m = .ok a m₁) :
    m₁.stack.height ≤ m₁.stack.ceiling := by
  have made := (entered_of_enter entered).stack
  have base : env.argBase l m ≤ m.stack.height := Nat.sub_le _ _
  have height : m₁.stack.height = env.argBase l m := by
    rw [made]
    exact (Stack.height_truncate _ _).trans (Nat.min_eq_left base)
  have ceiling : m₁.stack.ceiling =
      min (env.argBase l m + (env.store.lambda l).maxStack) (wordCount - 1) := by
    rw [made]
  omega

/-- Wherever a library function fails while a lambda runs, called from its code or through natives, each
object has the contents that it had before the call, unless the function appended to an array or set an
item of it and found no room for its result. That takes a callee that came back earlier with more values
than the lambda had room for, by as many as the function has arguments. -/
theorem contents_or_overfilled (env : Env) (fn : Intrinsic) (sized : m.stack.height < wordCount)
    (entered : env.enter rest l closure m = .ok a m₁)
    (later : env.Above rest ⟨.body a :: rest, m₁⟩ c)
    (here : c.tasks = .native fn.routine taken :: ts ++ t :: rest) (innermost : nesting ts = 0)
    (failed : fn.routine.advance env.store (held (ts ++ t :: rest)) taken c.machine =
      (.failed f, m')) :
    (∀ o, c.machine.heap.Has o → m'.heap.contents o = c.machine.heap.contents o) ∨
      (fn.writesArray = true ∧ f = Fault.stackOverflow m₁.stack.ceiling ∧
        ∃ d e, env.Above rest ⟨.body a :: rest, m₁⟩ d ∧ env.Returns rest d e ∧ env.Above rest e c ∧
          m₁.stack.ceiling + fn.arity ≤ e.machine.stack.height) := by
  rcases Intrinsic.spares_of_failed failed with spares | ⟨may, rfl, full⟩
  · exact .inl spares.contents
  rcases Governed.above (Nat.le_refl _) (height_le_ceiling_of_enter sized entered) later with
    ended | ⟨us, u, governed⟩
  · -- the call is not over where the function runs
    have length := congrArg List.length (ended.symm.trans here)
    simp only [List.length_append, List.length_cons] at length
    omega
  · have tasks : (.native fn.routine taken :: ts) ++ t :: rest = us ++ u :: rest :=
      here.symm.trans governed.tasks
    obtain ⟨rfl, -⟩ := List.append_inj' tasks rfl
    have plain : (Task.native fn.routine taken).Plain := rfl
    have alone : nesting (.native fn.routine taken :: ts) = 0 :=
      (nesting_cons_of_plain plain ts).trans innermost
    have ceiling : c.machine.stack.ceiling = m₁.stack.ceiling := by
      rw [← governed.ceiling_eq, ceilingAfter_of_nesting alone]
    rw [ceiling] at full ⊢
    refine .inr ⟨may, rfl, ?_⟩
    rcases governed.bounded alone with low | ⟨d, e, before, returns, after, low⟩
    · -- a function that writes an array has arguments
      have some_argument : 0 < fn.arity := by
        cases fn <;> decide
      omega
    · exact ⟨d, e, before, returns, after, Nat.le_trans full low⟩

/-- Code that calls a function, which leaves an array between two other values, and appends the topmost of
them to the array. There was room for one value. -/
def appending : Env where
  store :=
    { programs := #[
        some #[.intPush 1, .intPush 0, .builtin ⟨"array.new", .library .newArray⟩, .intPush 7],
        some #[.constPush (.callable (.function 0 ⟨0⟩ none)), .popCall,
          .builtin ⟨"array.push", .library .append⟩]]
      lambdas :=
        #[{ code := ⟨0⟩, maxStack := 3, params := 0, vars := 0 },
          { code := ⟨1⟩, maxStack := 1, params := 0, vars := 0 }] }
  host _ := .done ()

/-- Whether appending at a point of a run fails and the array with the first reference is longer then. -/
def grownOnFailure (c : Config) : Bool :=
  match Intrinsic.append.routine.advance appending.store (held c.tasks.tail) [] c.machine with
  | (.failed _, m') =>
    c.machine.heap.Has (.array ⟨0⟩) ∧ (c.machine.heap.items ⟨0⟩).size < (m'.heap.items ⟨0⟩).size
  | _ => false

/-- The activation of the caller. -/
def appender : Activation :=
  { lambda := ⟨1⟩, frame := ⟨0⟩, callerFloor := 0, callerCeiling := wordCount - 1 }

/-- The machine when the caller is entered. -/
def beforeAppending : Machine := Exec.after (appending.enter [] ⟨1⟩ none) roomForTwo

/-- The caller gets to where it appends to the array. That fails, and yet the array is longer then. -/
theorem appending_above :
    ∃ b c, appending.enter [] ⟨1⟩ none roomForTwo = .ok appender beforeAppending ∧
      appending.Above [] ⟨[.body appender], beforeAppending⟩ c ∧
      c.tasks = .native Intrinsic.append.routine [] :: [] ++ .waiting b none :: [] ∧
      grownOnFailure c = true := by
  obtain ⟨c, b, reached, here⟩ :
      ∃ c b, appending.pointAfter 12 ⟨[.body appender], beforeAppending⟩ = some c ∧
        c.tasks = [.native Intrinsic.append.routine [], .waiting b none] := ⟨_, _, rfl, rfl⟩
  have checked :
      (appending.pointAfter 12 ⟨[.body appender], beforeAppending⟩).any grownOnFailure = true := by
    decide +kernel
  rw [reached] at checked
  exact ⟨b, c, rfl, (steps_of_pointAfter reached).above, here, checked⟩

theorem exists_failed_of_grownOnFailure {c : Config} (grown : grownOnFailure c = true) :
    ∃ f m', Intrinsic.append.routine.advance appending.store (held c.tasks.tail) [] c.machine =
        (.failed f, m') ∧
      ∃ o, c.machine.heap.Has o ∧ m'.heap.contents o ≠ c.machine.heap.contents o := by
  rw [grownOnFailure] at grown
  split at grown
  · next f m' failed =>
    obtain ⟨held, longer⟩ := of_decide_eq_true grown
    refine ⟨f, m', failed, .array ⟨0⟩, held, fun same => ?_⟩
    have size := congrArg Array.size same
    exact absurd longer (Nat.not_lt_of_le (Nat.le_of_eq size))
  · cases grown

/-- The return of the callee accounts for the item in the array. -/
theorem contents_or_overfilled_appending :
    ∃ a m₁ c, appending.enter [] ⟨1⟩ none roomForTwo = .ok a m₁ ∧
      appending.Above [] ⟨[.body a], m₁⟩ c ∧
      ∃ d e, appending.Above [] ⟨[.body a], m₁⟩ d ∧ appending.Returns [] d e ∧
        appending.Above [] e c ∧ m₁.stack.ceiling + 2 ≤ e.machine.stack.height := by
  obtain ⟨b, c, entered, later, here, grown⟩ := appending_above
  obtain ⟨f, m', failed, o, has, differs⟩ := exists_failed_of_grownOnFailure grown
  rw [here] at failed
  refine ⟨appender, beforeAppending, c, entered, later, ?_⟩
  have sized : roomForTwo.stack.height < wordCount := by decide
  rcases appending.contents_or_overfilled .append sized entered later here rfl failed with
    kept | ⟨-, -, returned⟩
  · exact absurd (kept o has) differs
  · exact returned

/-- Appending to an array can fail and write it. -/
theorem not_contents_of_failed :
    ¬ ∀ (env : Env) (rest ts : List Task) (t : Task) (l : LambdaRef) (closure : Option FrameRef)
      (m m₁ m' : Machine) (a : Activation) (c : Config) (f : Failure),
      m.stack.height < wordCount → env.enter rest l closure m = .ok a m₁ →
      env.Above rest ⟨.body a :: rest, m₁⟩ c →
      c.tasks = .native Intrinsic.append.routine [] :: ts ++ t :: rest → nesting ts = 0 →
      Intrinsic.append.routine.advance env.store (held (ts ++ t :: rest)) [] c.machine =
        (.failed f, m') →
      ∀ o, c.machine.heap.Has o → m'.heap.contents o = c.machine.heap.contents o := by
  intro kept
  obtain ⟨b, c, entered, later, here, grown⟩ := appending_above
  obtain ⟨f, m', failed, o, has, differs⟩ := exists_failed_of_grownOnFailure grown
  rw [here] at failed
  have sized : roomForTwo.stack.height < wordCount := by decide
  exact differs (kept appending [] [] _ ⟨1⟩ none _ _ m' _ c f sized entered later here rfl
    failed o has)

end Env

end PlotMachine
