import PlotMachine.Proofs.Contract.Run
import PlotMachine.Proofs.Steps

/-!
# What one step of a run preserves

`Sound.step` goes through the kinds of tasks once, for all contracts. From it follows, by induction on
the steps, what holds at every point of a call before it comes back to the tasks it was made above
(`Sound.above`), and that a run that ends has come back to them (`Sound.run`).
-/

namespace PlotMachine

namespace Contract

/-- What a step may lead to from a point with heap `h`, as far as the tasks above `tail` go: these
tasks go on, or a failure leaves them. -/
inductive Advances (K : Contract) (env : Env) (maxDepth : Nat) (outer : Stack.Limits)
    (tail : List Task) (h : Heap) : Status → Prop
  | running {tasks : List Task} {m : Machine} (sound : K.Sound env maxDepth outer tasks m)
      (grown : h.Extends m.heap) : Advances K env maxDepth outer tail h (.running ⟨tasks ++ tail, m⟩)
  | failing {f : Failure} {m : Machine} (may : K.failure f)
      (sound : K.Sound env maxDepth outer [] m) (grown : h.Extends m.heap) :
      Advances K env maxDepth outer tail h (env.unwind f tail m)

variable {K : Contract} {env : Env} {maxDepth : Nat} {outer : Stack.Limits} {tail : List Task}

/-- A step from a heap that has grown. -/
theorem Advances.grow {h h' : Heap} {status : Status}
    (advances : K.Advances env maxDepth outer tail h' status) (grown : h.Extends h') :
    K.Advances env maxDepth outer tail h status := by
  cases advances with
  | running sound grown' => exact .running sound (grown.trans grown')
  | failing may sound grown' => exact .failing may sound (grown.trans grown')

namespace Sound

variable {t : Task} {tasks rest : List Task} {m : Machine}

/-- A failure unwinds the tasks: each activation it passes gives the limits back to its caller. -/
theorem unwind {f : Failure} (sound : K.Sound env maxDepth outer tasks m) (may : K.failure f) :
    K.Advances env maxDepth outer tail m.heap (env.unwind f (tasks ++ tail) m) := by
  -- on the tasks that the failure passes; a handler among them stops it
  induction tasks generalizing f m with
  | nil => exact .failing may sound (.refl m.heap)
  | cons t rest ih =>
    cases t with
    | handler taken next =>
      have keeps : (next (.error f)).Keeps K :=
        sound.head (.error f) fun e same => by cases same; exact may
      have sound' : K.Sound env maxDepth outer (.native (next (.error f)) taken :: rest) m :=
        (sound.of_other rfl).add sound.nest.base_le keeps rfl rfl
      exact .running sound' (.refl m.heap)
    | body a =>
      have advances := ih (sound.leave rfl) (K.failure_locate f (env.position a) may)
      rwa [Env.heap_leave] at advances
    | waiting a callee =>
      have advances := ih ((sound.finish callee).leave rfl) (K.failure_locate f (env.position a) may)
      rwa [Env.heap_leave, Env.heap_finish] at advances
    | constructed i height =>
      have advances := ih ((sound.of_other rfl).letGo (.record i)) may
      rwa [Machine.heap_letGo] at advances
    | call c => exact ih (sound.of_other rfl) may
    | native r taken => exact ih (sound.of_other rfl) may
    | construct r => exact ih (sound.of_other rfl) may

/-- A computation that works within the limits goes on with tasks or unwinds those there were. -/
theorem proceed {x : Exec (List Task)} {Q : List Task → Prop}
    (sound : K.Sound env maxDepth outer tasks m) (answers : K.Answers m Q (x m))
    (next : ∀ ts m', Q ts → K.Follows m m' →
      ∃ tasks', ts = tasks' ++ tail ∧ K.Sound env maxDepth outer tasks' m') :
    K.Advances env maxDepth outer tail m.heap (env.proceed (tasks ++ tail) x m) := by
  rw [Env.proceed]
  split
  · next ts m' result =>
    rw [result] at answers
    obtain ⟨tasks', rfl, sound'⟩ := next ts m' answers.1 answers.2
    exact .running sound' answers.2.continues.heap
  · next f m' result =>
    rw [result] at answers
    exact ((sound.follows answers.2).unwind answers.1).grow answers.2.continues.heap

/-- A lambda is entered or, if that fails, the tasks there were are unwound. -/
theorem entering (tail : List Task) {l : LambdaRef} {closure : Option FrameRef} {m' : Machine}
    (sound : K.Sound env maxDepth outer tasks m') (holds : K.Holds m') (lambda : K.lambda l)
    (held : ∀ f, closure = some f → K.holds (.frame f)) (parked : ∀ v, K.parked v → K.Fit v)
    (grown : m.heap.Extends m'.heap)
    (unwound : List Task) (sound' : K.Sound env maxDepth outer unwound m') :
    K.Advances env maxDepth outer tail m.heap
      (match env.enter (tasks ++ tail) l closure m' with
      | .ok a m'' => .running ⟨.body a :: (tasks ++ tail), m''⟩
      | .error f m'' => env.unwind f (unwound ++ tail) m'') := by
  split
  · next a m'' result =>
    have entered := Env.entered_of_enter result
    have base_le : K.base ≤ env.argBase l m' := by
      have floor := holds.base_le
      have height := holds.floor_le
      have params := entered.params
      simp only [Stack.available, Env.argBase] at params ⊢
      omega
    obtain ⟨fresh, _, _, heap⟩ := entered.heap
    have grown' : m'.heap.Extends m''.heap := heap ▸ m'.heap.extends_addFrame _
    have sound'' := sound.enter base_le lambda held parked entered
    exact .running sound'' (grown.trans grown')
  · next f m'' result =>
    obtain ⟨rfl, fault, rfl, tame⟩ := Env.enter_eq_error result
    exact (sound'.unwind (K.failure_of fault tame)).grow grown

/-- A call starts: a lambda is entered, a native is up next, a thunk hands over its argument. -/
theorem call {c : Callable} (supports : K.Supports env)
    (sound : K.Sound env maxDepth outer (.call c :: rest) m) :
    K.Advances env maxDepth outer tail m.heap
      (env.proceed (rest ++ tail) (env.call (rest ++ tail) c) m) := by
  have below := sound.of_other rfl
  cases c with
  | function id body closure =>
    have calls : K.Calls (.function id body closure) := sound.head
    have entering := below.entering tail sound.holds calls.1 calls.2 supports.parked
      (.refl m.heap) rest below
    simp only [Env.proceed, Env.call, Bind.bind, EStateM.bind]
    cases result : env.enter (rest ++ tail) body closure m with
    | ok a m' =>
      rw [result] at entering
      exact entering
    | error f m' =>
      rw [result] at entering
      exact entering
  | native id fn =>
    have keeps := supports.native fn sound.head
    have sound' : K.Sound env maxDepth outer (.native (env.routine fn) [] :: rest) m :=
      below.add sound.nest.base_le keeps rfl rfl
    exact .running sound' (.refl m.heap)
  | thunk id func arg =>
    have calls : K.Calls (.thunk id func arg) := sound.head
    have obeys : (env.call (rest ++ tail) (.thunk id func arg)).Obeys K
        fun ts => ts = .call func :: (rest ++ tail) :=
      (Exec.obeys_push calls.2).bind fun _ _ => Exec.obeys_pure rfl
    refine below.proceed (obeys m sound.holds) fun ts m' same follows => ?_
    have sound' : K.Sound env maxDepth outer (.call func :: rest) m' :=
      (below.follows follows).add follows.holds.base_le calls.1 rfl rfl
    exact ⟨_, same, sound'⟩
  | undefined =>
    have obeys : (env.call (rest ++ tail) .undefined).Obeys K fun _ => False :=
      Exec.obeys_fault (K.failure_of _ rfl)
    exact below.proceed (obeys m sound.holds) fun _ _ impossible => impossible.elim

/-- An instance is made and its initialiser is entered. -/
theorem construct {r : RecordRef} (supports : K.Supports env)
    (sound : K.Sound env maxDepth outer (.construct r :: rest) m) :
    K.Advances env maxDepth outer tail m.heap
      (env.proceed (rest ++ tail) (env.construct (rest ++ tail) r) m) := by
  have below := sound.of_other rfl
  have lambda := supports.record r sound.head
  rw [Env.proceed, Env.construct_eq]
  by_cases one : (env.store.lambda (env.store.record r).init).params = 1
  · rw [if_pos one]
    dsimp only
    generalize same : m.heap.addInstance r (env.store.record r).size = made
    have held : K.Fit (.record made.1) := by
      rw [← same]
      exact K.holds_new _ (sound.heap.not_has_start (m.heap.not_has_addInstance r _))
    have added : K.Follows m { m with heap := made.2 } := by
      rw [← same]
      exact sound.holds.withHeap (sound.heap.addInstance r _) (m.heap.extends_addInstance r _)
    have answers := Exec.obeys_push held _ added.holds
    cases pushed : Exec.push (.record made.1) { m with heap := made.2 } with
    | error f m' =>
      rw [pushed] at answers
      have follows := added.trans answers.2
      exact ((below.follows follows).unwind answers.1).grow follows.continues.heap
    | ok u m' =>
      rw [pushed] at answers
      have follows := added.trans answers.2
      have after := below.follows follows
      have floor : m'.stack.floor ≤ m.stack.height := by
        rw [follows.continues.stack.floor]
        exact sound.floor_le
      have waits : K.Sound env maxDepth outer (.constructed made.1 m.stack.height :: rest) m' :=
        after.cons follows.holds.base_le held rfl fun height cuts => by
          cases cuts
          exact floor
      have nothing : ∀ f, (none : Option FrameRef) = some f → K.holds (.frame f) := by
        rintro f ⟨⟩
      have entering := waits.entering tail follows.holds lambda nothing supports.parked
        follows.continues.heap rest after
      rw [List.cons_append] at entering
      cases result : env.enter (.constructed made.1 m.stack.height :: (rest ++ tail))
          (env.store.record r).init none m' with
      | ok a m'' =>
        simp only [result] at entering ⊢
        exact entering
      | error f m'' =>
        simp only [result] at entering ⊢
        exact entering
  · rw [if_neg one]
    exact below.unwind (K.failure_of _ rfl)

/-- A native goes on to its end, to a failure or to a call. -/
theorem native {r : Routine Unit} {taken : List Value}
    (sound : K.Sound env maxDepth outer (.native r taken :: rest) m) :
    K.Advances env maxDepth outer tail m.heap (env.step ⟨.native r taken :: rest ++ tail, m⟩) := by
  have below := sound.of_other rfl
  have keeps : r.Keeps K := sound.head
  have advanced := keeps.advance env.store (Env.held (rest ++ tail)) taken sound.holds
  simp only [List.cons_append, Env.step]
  split
  · next u m' result =>
    rw [result] at advanced
    exact .running (below.follows advanced.2) advanced.2.continues.heap
  · next f m' result =>
    rw [result] at advanced
    exact ((below.follows advanced.2).unwind advanced.1).grow advanced.2.continues.heap
  · next callee taken' next m' result =>
    rw [result] at advanced
    have waits : K.Sound env maxDepth outer (.handler taken' next :: rest) m' :=
      (below.follows advanced.2).add advanced.2.holds.base_le advanced.1.2 rfl rfl
    have sound' : K.Sound env maxDepth outer (.call callee :: .handler taken' next :: rest) m' :=
      waits.add advanced.2.holds.base_le advanced.1.1 rfl rfl
    exact .running sound' advanced.2.continues.heap

/-- An instruction is carried out. -/
theorem instruction {a : Activation} {i : Instr} (supports : K.Supports env)
    (sound : K.Sound env maxDepth outer (.body a :: rest) m)
    (admits : K.Admits (env.store.lambda a.lambda).code (env.store.body a.lambda).size i) :
    K.Advances env maxDepth outer tail m.heap
      (env.proceed (.body a :: rest ++ tail) (env.instruction (rest ++ tail) a i) m) := by
  have runs : K.Runs env m.heap a := sound.head
  have answers := Exec.obeys_perform runs.holds runs.writes admits m sound.holds
  simp only [Env.proceed, Env.instruction, Bind.bind, EStateM.bind]
  cases result : Exec.perform (env.store.lambda a.lambda).code a.frame i m with
  | error f m' =>
    rw [result] at answers
    exact ((sound.follows answers.2).unwind answers.1).grow answers.2.continues.heap
  | ok flow m' =>
    rw [result] at answers
    have grown := answers.2.continues.heap
    have after := sound.follows answers.2
    have runs' : K.Runs env m'.heap a := after.head
    -- an activation that waits for what its instruction called
    have waits : ∀ callee, K.Sound env maxDepth outer (.waiting a callee :: rest) m' :=
      fun callee => after.replace rfl rfl rfl rfl runs'
    -- an activation that goes on at some offset
    have goes_on : ∀ offset, K.Sound env maxDepth outer (.body { a with offset } :: rest) m' :=
      fun offset => after.replace rfl rfl rfl rfl (runs'.moveTo offset)
    cases flow with
    | next => exact .running (goes_on (a.offset + 1)) grown
    | goto offset =>
      dsimp only
      rw [← Store.body]
      -- a jump past the end is a fault about a label, which not every contract allows
      by_cases inside : offset ≤ (env.store.body a.lambda).size
      · rw [if_pos inside]
        exact .running (goes_on offset) grown
      · rw [if_neg inside]
        have may := answers.1.resolve_left inside
        exact (after.unwind (may (.labelOutOfBounds _ _))).grow grown
    | leave => exact .running (after.leave rfl) (by rw [Env.heap_leave]; exact grown)
    | call c =>
      have sound' : K.Sound env maxDepth outer (.call c :: .waiting a (some c) :: rest) m' :=
        (waits (some c)).add answers.2.holds.base_le answers.1 rfl rfl
      exact .running sound' grown
    | native fn =>
      have keeps := supports.native fn answers.1
      have sound' : K.Sound env maxDepth outer
          (.native (env.routine fn) [] :: .waiting a none :: rest) m' :=
        (waits none).add answers.2.holds.base_le keeps rfl rfl
      exact .running sound' grown
    | construct r =>
      have sound' : K.Sound env maxDepth outer (.construct r :: .waiting a none :: rest) m' :=
        (waits none).add answers.2.holds.base_le answers.1 rfl rfl
      exact .running sound' grown

/-- One step preserves soundness, or a failure leaves the tasks, if the instruction that is next is
admitted. -/
theorem step_of_admits (supports : K.Supports env) (tail : List Task)
    (sound : K.Sound env maxDepth outer (t :: rest) m)
    (admits : K.AdmitsNext env ⟨t :: rest ++ tail, m⟩) :
    K.Advances env maxDepth outer tail m.heap (env.step ⟨t :: rest ++ tail, m⟩) := by
  cases t with
  | call c => exact sound.call supports
  | native r taken => exact sound.native
  | handler taken next =>
    have keeps : (next (.ok ())).Keeps K := sound.head (.ok ()) K.ends_ok
    have sound' : K.Sound env maxDepth outer (.native (next (.ok ())) taken :: rest) m :=
      (sound.of_other rfl).add sound.nest.base_le keeps rfl rfl
    exact .running sound' (.refl m.heap)
  | body a =>
    simp only [List.cons_append, Env.step]
    split
    · next i found => exact sound.instruction supports (admits a (rest ++ tail) i rfl found)
    · exact .running (sound.leave rfl) (by rw [Env.heap_leave]; exact .refl m.heap)
  | waiting a callee =>
    have finished := sound.finish callee
    have runs : K.Runs env (Env.finish callee m).heap a := finished.head
    have sound' : K.Sound env maxDepth outer (.body { a with offset := a.offset + 1 } :: rest)
        (Env.finish callee m) :=
      finished.replace (t := .waiting a callee) rfl rfl rfl rfl (runs.moveTo (a.offset + 1))
    exact .running sound' (by rw [Env.heap_finish]; exact .refl m.heap)
  | construct r => exact sound.construct supports
  | constructed i height =>
    have below := sound.of_other rfl
    have held : K.Fit (.record i) := sound.head
    have high : m.stack.floor ≤ height := by
      cases sound.nest with
      | activation belongs => cases belongs
      | other _ _ cut _ => exact cut height rfl
    have cut := sound.holds.cutStack high
    have obeys : (do Exec.push (.record i); return rest ++ tail : Exec (List Task)).Obeys K
        fun ts => ts = rest ++ tail :=
      (Exec.obeys_push held).bind fun _ _ => Exec.obeys_pure rfl
    have advances := (below.follows cut).proceed (obeys _ cut.holds) fun ts m' same follows =>
      ⟨rest, same, (below.follows cut).follows follows⟩
    exact advances.grow cut.continues.heap

/-- One step preserves soundness, or a failure leaves the tasks. -/
theorem step (covers : K.Covers env) (tail : List Task)
    (sound : K.Sound env maxDepth outer (t :: rest) m) :
    K.Advances env maxDepth outer tail m.heap (env.step ⟨t :: rest ++ tail, m⟩) :=
  sound.step_of_admits covers.toSupports tail fun a below i head found => by
    obtain rfl : t = .body a := (List.cons.inj head).1
    have runs : K.Runs env m.heap a := sound.head
    exact covers.instr _ runs.lambda i (Array.mem_of_getElem? found)

/-- A point that comes after a sound one is sound as long as the tasks that were there at the start lie
below, if the steps on the way preserve soundness. -/
theorem above_of_step {c : Config} (sound : K.Sound env maxDepth outer tasks m)
    (later : env.Above tail ⟨tasks ++ tail, m⟩ c)
    (step : ∀ c', env.Above tail ⟨tasks ++ tail, m⟩ c' → ∀ t rest, c'.tasks = t :: rest ++ tail →
      K.Sound env maxDepth outer (t :: rest) c'.machine →
      K.Advances env maxDepth outer tail c'.machine.heap (env.step c')) :
    ∃ tasks', c.tasks = tasks' ++ tail ∧ K.Sound env maxDepth outer tasks' c.machine ∧
      m.heap.Extends c.machine.heap := by
  induction later with
  | refl => exact ⟨tasks, rfl, sound, .refl m.heap⟩
  | @tail c c' before last ih =>
    obtain ⟨⟨t, rest, split⟩, ⟨ts, split'⟩, next⟩ := last
    obtain ⟨tasks', same, sound', grown⟩ := ih
    -- there was more to do than `tail`, so the step was one of the tasks above it
    have here : tasks' = t :: rest := List.append_cancel_right (same.symm.trans split)
    subst here
    have advances := step c before t rest split sound'
    rw [next] at advances
    generalize status : Status.running c' = s at advances
    cases advances with
    | running sound'' grown' =>
      cases status
      exact ⟨_, rfl, sound'', grown.trans grown'⟩
    | failing => exact absurd split' (Env.not_above_of_unwind status.symm ts)

/-- Every point of a run is sound as long as the tasks that were there at the start lie below. -/
theorem above (covers : K.Covers env) {c : Config} (sound : K.Sound env maxDepth outer tasks m)
    (later : env.Above tail ⟨tasks ++ tail, m⟩ c) :
    ∃ tasks', c.tasks = tasks' ++ tail ∧ K.Sound env maxDepth outer tasks' c.machine ∧
      m.heap.Extends c.machine.heap :=
  sound.above_of_step later fun c' _ t rest split sound' => by
    have advances := sound'.step covers tail
    rwa [← split] at advances

/-- Every point of a run is sound if the first one is and all instructions on the way are admitted. -/
theorem steps_of_admits (supports : K.Supports env) {c : Config}
    (sound : K.Sound env maxDepth outer tasks m) (later : env.Steps ⟨tasks, m⟩ c)
    (admits : ∀ c', env.Steps ⟨tasks, m⟩ c' → K.AdmitsNext env c') :
    K.Sound env maxDepth outer c.tasks c.machine := by
  have above := later.above
  rw [← List.append_nil tasks] at above
  obtain ⟨tasks', split, sound', -⟩ := sound.above_of_step above fun c' before t rest split sound' => by
    have reached : env.Steps ⟨tasks, m⟩ c' := by
      rw [List.append_nil] at before
      exact before.lift id fun _ _ step => step.2.2
    have point : (⟨t :: rest ++ [], c'.machine⟩ : Config) = c' := by rw [← split]
    have advances := sound'.step_of_admits supports [] (point ▸ admits c' reached)
    rwa [point] at advances
  rw [List.append_nil] at split
  rwa [split]

/-- A machine that halts observes the contract if the last instruction is admitted. -/
theorem rests_of_halted (supports : K.Supports env) {outcome : Except Failure Unit} {m' : Machine}
    (sound : K.Sound env maxDepth outer tasks m) (admits : K.AdmitsNext env ⟨tasks, m⟩)
    (halts : env.step ⟨tasks, m⟩ = .halted outcome m') : K.Rests m' := by
  cases tasks with
  | nil =>
    cases halts
    exact sound.toRests
  | cons t rest =>
    have advances := sound.step_of_admits supports [] (by rwa [List.append_nil])
    rw [List.append_nil, halts] at advances
    generalize status : Status.halted outcome m' = s at advances
    cases advances with
    | running => cases status
    | failing may sound' =>
      cases status
      exact sound'.toRests

/-- Every point of a run is sound if the first one is. -/
theorem steps (covers : K.Covers env) {c c' : Config}
    (sound : K.Sound env maxDepth outer c.tasks c.machine) (later : env.Steps c c') :
    K.Sound env maxDepth outer c'.tasks c'.machine := by
  have above : env.Above [] ⟨c.tasks ++ [], c.machine⟩ c' := by
    rw [List.append_nil]
    exact later.above
  obtain ⟨tasks, split, sound', -⟩ := sound.above covers above
  rw [List.append_nil] at split
  rwa [split]

/-- A run that ends has come back to the tasks that were there at the start, with or without
failure. -/
theorem run (covers : K.Covers env) {fuel : Nat} {outcome : Except Failure Unit} {m' : Machine}
    (sound : K.Sound env maxDepth outer tasks m)
    (ended : env.run fuel ⟨tasks ++ tail, m⟩ = some (outcome, m')) :
    ∃ fuel' back, K.Sound env maxDepth outer [] back ∧ m.heap.Extends back.heap ∧
      (env.run fuel' ⟨tail, back⟩ = some (outcome, m') ∨
        ∃ f, K.failure f ∧ env.resume fuel' (env.unwind f tail back) = some (outcome, m')) := by
  -- each step uses up fuel, and the tasks above `tail` are gone before the fuel is
  induction fuel generalizing tasks m with
  | zero => cases ended
  | succ fuel ih =>
    cases tasks with
    | nil => exact ⟨fuel + 1, m, sound, .refl m.heap, .inl ended⟩
    | cons t rest =>
      have advances := sound.step covers tail
      rw [Env.run_succ] at ended
      revert ended
      generalize env.step ⟨t :: rest ++ tail, m⟩ = status at advances
      intro ended
      cases advances with
      | running sound' grown =>
        obtain ⟨fuel', back, sound'', grown', rest'⟩ := ih sound' ended
        exact ⟨fuel', back, sound'', grown.trans grown', rest'⟩
      | failing may sound' grown => exact ⟨fuel, _, sound', grown, .inr ⟨_, may, ended⟩⟩

/-- A run that comes back to nothing ends with the limits it started with. -/
theorem run_all (covers : K.Covers env) {fuel : Nat} {outcome : Except Failure Unit} {m' : Machine}
    (sound : K.Sound env maxDepth outer tasks m)
    (ended : env.run fuel ⟨tasks, m⟩ = some (outcome, m')) :
    K.Ends outcome ∧ K.Sound env maxDepth outer [] m' ∧ m.heap.Extends m'.heap := by
  rw [← List.append_nil tasks] at ended
  obtain ⟨fuel', back, sound', grown, done | ⟨f, may, failed⟩⟩ := sound.run covers ended
  · cases fuel' with
    | zero => cases done
    | succ fuel' =>
      cases done
      exact ⟨K.ends_ok, sound', grown⟩
  · cases failed
    refine ⟨?_, sound', grown⟩
    rintro _ ⟨⟩
    exact may

end Sound

end Contract

end PlotMachine
