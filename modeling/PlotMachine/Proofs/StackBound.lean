import PlotMachine.Proofs.Moves
import PlotMachine.Proofs.Steps

/-!
# How high the stack gets

A lambda says how many values it may have on the stack. Every push is checked against that limit,
and a callee is held to a limit of its own. But nothing is checked when the callee comes back: it
may have left more values than its caller could have pushed.

So the stack of a lambda is within the limit, or no higher than some callee left it
(`Env.height_le_or_returned`). The second case does arise (`Env.not_height_le`).
-/

namespace PlotMachine

/-! ## Changes keep to the ceiling -/

theorem Stack.Change.ceiling_eq {s s' : Stack} (change : s.Change s') : s'.ceiling = s.ceiling := by
  cases change <;> rfl

/-- Only a push makes the stack higher, and it needs room below the ceiling. -/
theorem Stack.Change.height_le {s s' : Stack} (change : s.Change s') :
    s'.height ≤ max s.height s.ceiling := by
  cases change with
  | push v room =>
    have below : s.height < s.ceiling := by simpa [Stack.isFull] using room
    rw [Stack.height_push]
    omega
  | drop found =>
    rw [Stack.height_drop]
    omega
  | setTop found v =>
    have some_value : s.floor < s.height := by
      by_contra empty
      rw [Stack.top?, if_neg empty] at found
      cases found
    rw [Stack.setTop, Stack.height_push, Stack.height_drop]
    omega
  | truncate height =>
    rw [Stack.height_truncate]
    omega

namespace Machine

variable {m m' : Machine}

theorem Change.ceiling_eq (change : m.Change m') : m'.stack.ceiling = m.stack.ceiling := by
  cases change with
  | stack change => exact change.ceiling_eq
  | letGo v => rw [letGo_eq]
  | heap | share | output | interrupt => rfl

theorem Change.height_le (change : m.Change m') :
    m'.stack.height ≤ max m.stack.height m.stack.ceiling := by
  cases change with
  | stack change => exact change.height_le
  | letGo v =>
    rw [letGo_eq]
    exact Nat.le_max_left _ _
  | heap | share | output | interrupt => exact Nat.le_max_left _ _

theorem Changes.ceiling_eq (changes : m.Changes m') : m'.stack.ceiling = m.stack.ceiling := by
  induction changes with
  | refl => rfl
  | tail _ change ih => rw [change.ceiling_eq, ih]

theorem Changes.height_le (changes : m.Changes m') :
    m'.stack.height ≤ max m.stack.height m.stack.ceiling := by
  induction changes with
  | refl => exact Nat.le_max_left _ _
  | tail before change ih =>
    have last := change.height_le
    rw [Changes.ceiling_eq before] at last
    omega

end Machine

namespace Env

/-! ## The ceilings of callers -/

/-- How many activations tasks have. -/
def nesting (tasks : List Task) : Nat := tasks.countP (·.activation?.isSome)

/-- The ceiling once the tasks are over: every activation gives its caller's back. -/
def ceilingAfter (tasks : List Task) (ceiling : Nat) : Nat :=
  tasks.foldl (fun ceiling t => (t.activation?.map (·.callerCeiling)).getD ceiling) ceiling

theorem nesting_of_plain {ts : List Task} (plain : ∀ t ∈ ts, t.Plain) : nesting ts = 0 := by
  refine List.countP_eq_zero.2 fun t inside => ?_
  rw [plain t inside]
  exact Bool.false_ne_true

@[simp] theorem nesting_append (ts us : List Task) : nesting (ts ++ us) = nesting ts + nesting us :=
  List.countP_append

theorem nesting_cons_of_plain {t : Task} (plain : t.Plain) (ts : List Task) :
    nesting (t :: ts) = nesting ts := by
  rw [nesting, List.countP_cons, plain]
  rfl

theorem nesting_cons_of_activation {t : Task} {a : Activation} (belongs : t.activation? = some a)
    (ts : List Task) : nesting (t :: ts) = nesting ts + 1 := by
  rw [nesting, List.countP_cons, belongs]
  rfl

@[simp] theorem ceilingAfter_append (ts us : List Task) (ceiling : Nat) :
    ceilingAfter (ts ++ us) ceiling = ceilingAfter us (ceilingAfter ts ceiling) :=
  List.foldl_append

theorem ceilingAfter_cons_of_plain {t : Task} (plain : t.Plain) (ts : List Task) (ceiling : Nat) :
    ceilingAfter (t :: ts) ceiling = ceilingAfter ts ceiling := by
  rw [ceilingAfter, List.foldl_cons, plain]
  rfl

theorem ceilingAfter_cons_of_activation {t : Task} {a : Activation}
    (belongs : t.activation? = some a) (ts : List Task) (ceiling : Nat) :
    ceilingAfter (t :: ts) ceiling = ceilingAfter ts a.callerCeiling := by
  rw [ceilingAfter, List.foldl_cons, belongs]
  rfl

/-- Tasks of no activation leave the ceiling alone. -/
theorem ceilingAfter_of_nesting {ts : List Task} (none : nesting ts = 0) (ceiling : Nat) :
    ceilingAfter ts ceiling = ceiling := by
  induction ts with
  | nil => rfl
  | cons t rest ih =>
    cases belongs : t.activation? with
    | some a =>
      rw [nesting_cons_of_activation belongs] at none
      omega
    | none =>
      rw [nesting_cons_of_plain belongs] at none
      rw [ceilingAfter_cons_of_plain belongs, ih none]

/-- Work that leads from some tasks to others and keeps to the ceilings: the ceiling in the end is
the same, and as long as there are no activations the stack gets no higher than the ceiling or it
was. -/
structure Confined (ts : List Task) (m : Machine) (us : List Task) (m' : Machine) : Prop where
  ceiling : ceilingAfter us m'.stack.ceiling = ceilingAfter ts m.stack.ceiling
  height : nesting ts = 0 → nesting us = 0 → m'.stack.height ≤ max m.stack.height m.stack.ceiling

namespace Confined

variable {ts us : List Task} {t : Task} {a : Activation} {m m₁ m' : Machine}

theorem of_changes (changes : m.Changes m₁) (confined : Confined ts m₁ us m') :
    Confined ts m us m' where
  ceiling := by rw [confined.ceiling, changes.ceiling_eq]
  height none none' := by
    have first := changes.height_le
    have second := confined.height none none'
    rw [changes.ceiling_eq] at second
    omega

/-- A task of no activation makes changes and is over. -/
theorem of_plain (plain : t.Plain) (changes : m.Changes m₁) (confined : Confined ts m₁ us m') :
    Confined (t :: ts) m us m' := by
  obtain ⟨ceiling, height⟩ := confined.of_changes changes
  refine ⟨?_, ?_⟩
  · rw [ceiling, ceilingAfter_cons_of_plain plain]
  · rwa [nesting_cons_of_plain plain]

/-- A task of an activation is over and gives the ceiling of the caller back. -/
theorem of_activation (belongs : t.activation? = some a)
    (back : m₁.stack.ceiling = a.callerCeiling) (confined : Confined ts m₁ us m') :
    Confined (t :: ts) m us m' where
  ceiling := by rw [confined.ceiling, ceilingAfter_cons_of_activation belongs, back]
  height none _ := by
    rw [nesting_cons_of_activation belongs] at none
    omega

theorem refl (ts : List Task) (m : Machine) : Confined ts m ts m := ⟨rfl, by omega⟩

/-- Without activations the stack stays below any limit on the ceiling, unless it was higher. -/
theorem height_le {limit : Nat} (confined : Confined ts m us m') (none : nesting ts = 0)
    (none' : nesting us = 0) (le : ceilingAfter ts m.stack.ceiling ≤ limit) :
    m'.stack.height ≤ max m.stack.height limit := by
  have grown := confined.height none none'
  rw [ceilingAfter_of_nesting none] at le
  omega

end Confined

variable {env : Env} {rest ts : List Task} {t u : Task} {m : Machine} {c : Config}

/-- A failure passes a task that does not handle it. -/
theorem unwind_cons (env : Env) (f : Failure) (t : Task) (rest : List Task) (m : Machine) :
    (∃ taken next, t = .handler taken next) ∨
    ∃ f' m', env.unwind f (t :: rest) m = env.unwind f' rest m' ∧ (t.Plain → m.Changes m') ∧
      ∀ a, t.activation? = some a → m'.stack.ceiling = a.callerCeiling := by
  cases t with
  | handler taken next => exact .inl ⟨taken, next, rfl⟩
  | body a =>
    refine .inr ⟨_, leave a m, rfl, nofun, ?_⟩
    rintro _ ⟨⟩
    rw [stack_leave]
  | waiting a callee =>
    refine .inr ⟨_, leave a (finish callee m), rfl, nofun, ?_⟩
    rintro _ ⟨⟩
    rw [stack_leave]
  | constructed i base => exact .inr ⟨f, _, rfl, fun _ => .letGo (.refl m) (.record i), nofun⟩
  | call | native | construct => exact .inr ⟨f, m, rfl, fun _ => .refl m, nofun⟩

/-- A failure in the tasks above an activation that is handled above it keeps to the ceilings. -/
theorem confined_unwind {f : Failure} (owner : ¬ t.Plain)
    (handled : env.unwind f (ts ++ t :: rest) m = .running c) (above : ∃ us, c.tasks = us ++ rest) :
    ∃ us, c.tasks = us ++ t :: rest ∧ Confined ts m us c.machine := by
  induction ts generalizing f m with
  | nil =>
    rcases env.unwind_cons f t rest m with ⟨taken, next, rfl⟩ | ⟨f', m', passes, -, -⟩
    · exact absurd rfl owner
    · -- a failure of the activation itself is handled below it
      rw [List.nil_append, passes] at handled
      obtain ⟨us, above⟩ := above
      exact absurd above (not_above_of_unwind handled us)
  | cons u ts ih =>
    rcases env.unwind_cons f u (ts ++ t :: rest) m with
      ⟨taken, next, rfl⟩ | ⟨f', m', passes, plain, left⟩
    · cases handled
      have plain : (Task.native (next (.error f)) taken).Plain := rfl
      refine ⟨.native (next (.error f)) taken :: ts, rfl, ?_⟩
      refine Confined.of_plain rfl (.refl m) ⟨?_, fun _ _ => Nat.le_max_left _ _⟩
      rw [ceilingAfter_cons_of_plain plain]
    · rw [List.cons_append, passes] at handled
      obtain ⟨us, tasks, confined⟩ := ih handled
      refine ⟨us, tasks, ?_⟩
      cases belongs : u.activation? with
      | none => exact confined.of_plain belongs (plain belongs)
      | some a => exact confined.of_activation belongs (left a belongs)

/-- A step above an activation keeps to the ceilings. -/
theorem confined_step (owner : ¬ t.Plain)
    (stepped : env.step ⟨u :: ts ++ t :: rest, m⟩ = .running c)
    (above : ∃ us, c.tasks = us ++ rest) :
    ∃ us, c.tasks = us ++ t :: rest ∧ Confined (u :: ts) m us c.machine := by
  have move := env.move_step ⟨u :: (ts ++ t :: rest), m⟩
  rw [← List.cons_append, stepped] at move
  generalize same : Status.running c = status at move
  generalize from_tasks : u :: ts ++ t :: rest = tasks at move
  cases move with
  | halt => cases from_tasks
  | @work u' us below _ m' plain plain' changes =>
    cases same
    cases from_tasks
    refine ⟨us ++ ts, (List.append_assoc ..).symm, .of_plain plain changes ⟨?_, ?_⟩⟩
    · rw [ceilingAfter_append, ceilingAfter_of_nesting (nesting_of_plain plain')]
    · exact fun _ _ => Nat.le_max_left _ _
  | @goOn u' v a b us below _ m' belongs belongs' alike plain changes =>
    cases same
    cases from_tasks
    refine ⟨us ++ v :: ts, by simp, .of_changes changes ⟨?_, fun none _ => ?_⟩⟩
    · rw [ceilingAfter_append, ceilingAfter_cons_of_activation belongs',
        ceilingAfter_cons_of_activation belongs, alike.callerCeiling]
    · rw [nesting_cons_of_activation belongs] at none
      omega
  | @enter u' us below l closure a _ m' m'' plain plain' changes entered =>
    cases same
    cases from_tasks
    have belongs : (Task.body a).activation? = some a := rfl
    have caller : a.callerCeiling = m'.stack.ceiling := by
      rw [(entered_of_enter entered).activation]
    refine ⟨.body a :: (us ++ ts), by simp, .of_plain plain changes ⟨?_, fun _ none => ?_⟩⟩
    · rw [ceilingAfter_cons_of_activation belongs, ceilingAfter_append,
        ceilingAfter_of_nesting (nesting_of_plain plain'), caller]
    · rw [nesting_cons_of_activation belongs] at none
      omega
  | @leave u' a below _ m' belongs changes =>
    cases same
    cases from_tasks
    refine ⟨ts, rfl, .of_activation belongs ?_ (.refl ts _)⟩
    rw [stack_leave]
  | fail f plain changes =>
    cases from_tasks
    obtain ⟨us, tasks, confined⟩ := confined_unwind owner same.symm above
    exact ⟨us, tasks, confined.of_plain plain changes⟩
  | @failIn a _ _ m' f changes =>
    cases from_tasks
    have handled : env.unwind f (.body a :: ts ++ t :: rest) m' = .running c := same.symm
    obtain ⟨us, tasks, confined⟩ := confined_unwind owner handled above
    exact ⟨us, tasks, confined.of_changes changes⟩

/-- An activation comes back, or it goes on with no other activations above it. -/
theorem confined_own_step (owner : ¬ t.Plain) (stepped : env.step ⟨t :: rest, m⟩ = .running c)
    (above : ∃ us, c.tasks = us ++ rest) :
    c.tasks = rest ∨
      ∃ us u, c.tasks = us ++ u :: rest ∧ ¬ u.Plain ∧ Confined [] m us c.machine := by
  have move := env.move_step ⟨t :: rest, m⟩
  rw [stepped] at move
  generalize same : Status.running c = status at move
  cases move with
  | work plain | enter plain | fail _ plain => exact absurd plain owner
  | @goOn _ u _ b us _ _ m' belongs belongs' alike plain changes =>
    cases same
    have other : ¬ u.Plain := fun plain => nomatch belongs'.symm.trans plain
    refine .inr ⟨us, u, rfl, other, .of_changes changes ⟨?_, fun _ _ => Nat.le_max_left _ _⟩⟩
    rw [ceilingAfter_of_nesting (nesting_of_plain plain)]
    rfl
  | leave belongs changes =>
    cases same
    exact .inl rfl
  | @failIn a _ _ m' f changes =>
    have handled : env.unwind (f.locate (env.position a)) rest (leave a m') = .running c :=
      same.symm
    obtain ⟨us, above⟩ := above
    exact absurd above (not_above_of_unwind handled us)

/-! ## The stack of a lambda -/

/-- A step that comes back from a callee to the lambda that runs right above `rest`. -/
structure Returns (env : Env) (rest : List Task) (d e : Config) : Prop where
  step : env.step d = .running e
  inside : nesting rest + 1 < nesting d.tasks
  back : nesting e.tasks = nesting rest + 1

/-- At a point of a call the stack is within a limit, or no higher than a callee left it earlier. -/
def Bounded (env : Env) (rest : List Task) (start : Config) (limit : Nat) (c : Config) : Prop :=
  c.machine.stack.height ≤ limit ∨
  ∃ d e, env.Above rest start d ∧ env.Returns rest d e ∧ env.Above rest e c ∧
    c.machine.stack.height ≤ e.machine.stack.height

/-- What holds at every point of a call that was entered at `start`: its activation is below the
other tasks of the call, its ceiling is the one they give back, and its stack is bounded while it
has no callees. -/
structure Governed (env : Env) (rest : List Task) (start : Config) (limit ceiling : Nat)
    (c : Config) (ts : List Task) (t : Task) : Prop where
  tasks : c.tasks = ts ++ t :: rest
  owner : ¬ t.Plain
  ceiling_eq : ceilingAfter ts c.machine.stack.ceiling = ceiling
  bounded : nesting ts = 0 → env.Bounded rest start limit c

section Runs

variable {start c' : Config} {limit ceiling : Nat}

/-- What is pushed below the limit does not count. -/
theorem Bounded.tail (bounded : env.Bounded rest start limit c)
    (later : env.Above rest c c')
    (height : c'.machine.stack.height ≤ max c.machine.stack.height limit) :
    env.Bounded rest start limit c' := by
  rcases bounded with low | ⟨d, e, before, returns, after, low⟩
  · exact .inl (by omega)
  · by_cases within : c'.machine.stack.height ≤ limit
    · exact .inl within
    · exact .inr ⟨d, e, before, returns, after.trans later, by omega⟩

/-- One step of a call: the activation comes back, or it is governed as before. -/
theorem Governed.step (governed : env.Governed rest start limit ceiling c ts t)
    (le : ceiling ≤ limit) (before : env.Above rest start c)
    (stepped : env.step c = .running c') (above : ∃ us, c'.tasks = us ++ rest) :
    c'.tasks = rest ∨ ∃ us u, env.Governed rest start limit ceiling c' us u := by
  obtain ⟨tasks, m⟩ := c
  obtain ⟨rfl, owner, ceiling_eq, bounded⟩ := governed
  obtain ⟨a, belongs⟩ := Option.ne_none_iff_exists'.1 owner
  cases ts with
  | nil =>
    have later : env.Above rest ⟨t :: rest, m⟩ c' := .single ⟨⟨t, [], rfl⟩, above, stepped⟩
    rcases confined_own_step owner stepped above with back | ⟨us, u, tasks, owner', confined⟩
    · exact .inl back
    · refine .inr ⟨us, u, tasks, owner', confined.ceiling.trans ceiling_eq, fun alone => ?_⟩
      exact (bounded rfl).tail later (confined.height_le rfl alone (ceiling_eq ▸ le))
  | cons v ts =>
    have later : env.Above rest ⟨v :: ts ++ t :: rest, m⟩ c' :=
      .single ⟨⟨v, ts ++ [t], by simp⟩, above, stepped⟩
    obtain ⟨us, tasks, confined⟩ := confined_step owner stepped above
    refine .inr ⟨us, t, tasks, owner, confined.ceiling.trans ceiling_eq, fun alone => ?_⟩
    by_cases alone' : nesting (v :: ts) = 0
    · exact (bounded alone').tail later (confined.height_le alone' alone (ceiling_eq ▸ le))
    · -- the last callee is over
      have inside : nesting rest + 1 < nesting (v :: ts ++ t :: rest) := by
        rw [nesting_append, nesting_cons_of_activation belongs]
        omega
      have back : nesting c'.tasks = nesting rest + 1 := by
        rw [tasks, nesting_append, nesting_cons_of_activation belongs, alone]
        omega
      exact .inr ⟨_, c', before, ⟨stepped, inside, back⟩, .refl, Nat.le_refl _⟩

/-- A call is governed at all its points until it is over. -/
theorem Governed.above {a : Activation} (le : m.stack.ceiling ≤ limit)
    (start_le : m.stack.height ≤ limit) (later : env.Above rest ⟨.body a :: rest, m⟩ c) :
    c.tasks = rest ∨
      ∃ ts t, env.Governed rest ⟨.body a :: rest, m⟩ limit m.stack.ceiling c ts t := by
  induction later with
  | refl => exact .inr ⟨[], .body a, rfl, nofun, rfl, fun _ => .inl start_le⟩
  | tail before last ih =>
    obtain ⟨⟨v, vs, more⟩, above, stepped⟩ := last
    rcases ih with ended | ⟨ts, t, governed⟩
    · -- nothing remains of a call that is over
      have length := congrArg List.length (ended.symm.trans more)
      simp only [List.length_append, List.length_cons] at length
      omega
    · exact governed.step le before stepped above

end Runs

/-- Wherever a lambda is at an instruction, the stack is no higher than its limit allows above its
arguments, or no higher than a callee left it. -/
theorem height_le_or_returned (env : Env) {rest : List Task} {l : LambdaRef}
    {closure : Option FrameRef} {m m' : Machine} {a b : Activation} {c : Config}
    (entered : env.enter rest l closure m = .ok a m')
    (later : env.Above rest ⟨.body a :: rest, m'⟩ c) (here : c.tasks = .body b :: rest) :
    c.machine.stack.height ≤ m'.stack.height + (env.store.lambda l).maxStack ∨
    ∃ d e, env.Above rest ⟨.body a :: rest, m'⟩ d ∧ env.Returns rest d e ∧ env.Above rest e c ∧
      c.machine.stack.height ≤ e.machine.stack.height := by
  have height : m'.stack.height = env.argBase l m := by
    rw [(entered_of_enter entered).stack]
    exact (Stack.height_truncate _ _).trans (Nat.min_eq_left (Nat.sub_le _ _))
  have ceiling : m'.stack.ceiling =
      min (env.argBase l m + (env.store.lambda l).maxStack) (wordCount - 1) := by
    rw [(entered_of_enter entered).stack]
  have le : m'.stack.ceiling ≤ m'.stack.height + (env.store.lambda l).maxStack := by omega
  rcases Governed.above le (Nat.le_add_right _ _) later with ended | ⟨ts, t, governed⟩
  · rw [here] at ended
    have length := congrArg List.length ended
    rw [List.length_cons] at length
    omega
  · -- the activation is the only task of the call
    have tasks : .body b :: rest = ts ++ t :: rest := here.symm.trans governed.tasks
    have alone : ts = [] := by
      have length := congrArg List.length tasks
      simp only [List.length_append, List.length_cons] at length
      exact List.eq_nil_of_length_eq_zero (by omega)
    exact governed.bounded (by rw [alone]; rfl)

/-- Code with a lambda that leaves two values, and one with room for one value that calls it. -/
def overfilling : Env where
  store :=
    { programs := #[some #[.intPush 1, .intPush 2],
        some #[.constPush (.callable (.function 0 ⟨0⟩ none)), .popCall]]
      lambdas :=
        #[{ code := ⟨0⟩, maxStack := 2, params := 0, vars := 0 },
          { code := ⟨1⟩, maxStack := 1, params := 0, vars := 0 }] }
  host _ := .done ()

/-- A machine with room for two calls inside each other. -/
def roomForTwo : Machine := { stack := { maxDepth := 2 }, globals := ⟨0⟩ }

/-- The point of a run after so many steps, if it has not halted. -/
def pointAfter (env : Env) : Nat → Config → Option Config
  | 0, c => some c
  | n + 1, c =>
    match env.step c with
    | .running c' => env.pointAfter n c'
    | .halted _ _ => none

theorem steps_of_pointAfter {env : Env} {n : Nat} {c c' : Config}
    (reached : env.pointAfter n c = some c') : env.Steps c c' := by
  induction n generalizing c with
  | zero =>
    cases reached
    exact .refl _
  | succ n ih =>
    rw [pointAfter] at reached
    cases stepped : env.step c with
    | running next =>
      rw [stepped] at reached
      exact .head stepped (ih reached)
    | halted outcome m =>
      rw [stepped] at reached
      cases reached

/-- Whether a task is an activation at an instruction. -/
def atInstruction : Task → Bool
  | .body _ => true
  | _ => false

theorem exists_of_atInstruction {tasks : List Task} (one : tasks.length = 1)
    (all : tasks.all atInstruction = true) : ∃ b, tasks = [.body b] := by
  obtain ⟨t, rfl⟩ := List.length_eq_one_iff.1 one
  cases t with
  | body b => exact ⟨b, rfl⟩
  | _ => cases all

/-- The caller is entered on an empty stack and gets to its end with two values on it. -/
theorem overfilling_above :
    ∃ a m' b c, overfilling.enter [] ⟨1⟩ none roomForTwo = .ok a m' ∧
      overfilling.Above [] ⟨[.body a], m'⟩ c ∧ c.tasks = [.body b] ∧
      m'.stack.height = 0 ∧ c.machine.stack.height = 2 := by
  let a : Activation :=
    { lambda := ⟨1⟩, frame := ⟨0⟩, callerFloor := 0, callerCeiling := wordCount - 1 }
  let m' := Exec.after (overfilling.enter [] ⟨1⟩ none) roomForTwo
  have entered : overfilling.enter [] ⟨1⟩ none roomForTwo = .ok a m' := rfl
  have checked : ((overfilling.pointAfter 7 ⟨[.body a], m'⟩).any fun c =>
      c.tasks.length == 1 && c.tasks.all atInstruction && c.machine.stack.height == 2) = true := by
    decide +kernel
  obtain ⟨c, reached, checks⟩ := (Option.any_eq_true _ _).1 checked
  simp only [Bool.and_eq_true, beq_iff_eq] at checks
  obtain ⟨⟨one, all⟩, high⟩ := checks
  obtain ⟨b, here⟩ := exists_of_atInstruction one all
  exact ⟨a, m', b, c, entered, (steps_of_pointAfter reached).above, here, rfl, high⟩

/-- The return of the callee accounts for what the limit of the caller does not. -/
theorem height_le_or_returned_overfilling :
    ∃ a m' b c, overfilling.enter [] ⟨1⟩ none roomForTwo = .ok a m' ∧
      overfilling.Above [] ⟨[.body a], m'⟩ c ∧ c.tasks = [.body b] ∧
      ∃ d e, overfilling.Above [] ⟨[.body a], m'⟩ d ∧ overfilling.Returns [] d e ∧
        overfilling.Above [] e c ∧ c.machine.stack.height ≤ e.machine.stack.height := by
  obtain ⟨a, m', b, c, entered, later, here, low, high⟩ := overfilling_above
  refine ⟨a, m', b, c, entered, later, here, ?_⟩
  rcases overfilling.height_le_or_returned entered later here with within | returned
  · rw [low, high] at within
    exact absurd within (by decide)
  · exact returned

/-- The limit of a lambda does not bound its stack: a callee can leave more. -/
theorem not_height_le :
    ¬ ∀ (env : Env) (rest : List Task) (l : LambdaRef) (closure : Option FrameRef) (m m' : Machine)
      (a b : Activation) (c : Config), env.enter rest l closure m = .ok a m' →
      env.Above rest ⟨.body a :: rest, m'⟩ c → c.tasks = .body b :: rest →
      c.machine.stack.height ≤ m'.stack.height + (env.store.lambda l).maxStack := by
  intro bounded
  obtain ⟨a, m', b, c, entered, later, here, low, high⟩ := overfilling_above
  have limited := bounded overfilling [] ⟨1⟩ none _ m' a b c entered later here
  rw [low, high] at limited
  exact absurd limited (by decide)

end Env

end PlotMachine
