import PlotMachine.Proofs.Tracking

/-!
# Activations are isolated from each other

Frames are shared: functions, values and recursive calls may all refer to one. What keeps activations
apart is that a lambda runs in a frame that was not there when it was entered, and that saving a variable
writes to that frame and to no other object. So if code saves to no field and no global slot
(`Store.SavesLocally`), a call leaves all frames that existed before it as they were, whether it comes
back or fails, and whatever it calls (`Env.calls_keep_frames`).

The contract that is observed (`Contract.secluded`) rules out nothing but work on the bottom of the stack
and writes to the frames there are.
-/

namespace PlotMachine

/-- The code saves to slots of its own frame only: it has no instruction that saves to a field or to a
global slot. -/
def Store.SavesLocally (s : Store) : Prop :=
  ∀ l storage slot, .save storage slot ∈ s.body l → storage = .var

/-- Every frame of the first heap holds the same in the second one. -/
def Heap.SameFrames (h h' : Heap) : Prop := ∀ f, h.Has (.frame f) → h'.slots f = h.slots f

/-- A task by which a callable, a native or the initialiser of a record type is called. -/
def Task.IsCall : Task → Prop
  | .call _ | .native _ _ | .construct _ => True
  | _ => False

namespace Contract

/-- The contract under which everything is allowed above the bottom of the stack except to write to the
frames of a machine. -/
def secluded (bottom : Array Value) (m : Machine) : Contract :=
  { free bottom m.globals fun _ => True with
    start := m.heap
    writes := fun o => ∀ f, o = .frame f → ¬ m.heap.Has o
    holds_new := fun _ _ => trivial
    writes_new := fun _ new _ _ => new
    writes_array := fun _ _ => nofun }

variable {bottom : Array Value} {env : Env} {m m' : Machine}

theorem lenient_secluded : (secluded bottom m).Lenient :=
  ⟨fun _ => trivial, fun _ => trivial, fun _ => trivial, fun _ => trivial, fun _ => trivial⟩

/-- Code that saves locally does what the contract asks of it. -/
theorem covers_secluded (saves : env.store.SavesLocally) : (secluded bottom m).Covers env :=
  lenient_secluded.covers fun l storage slot inside => .inl (saves l storage slot inside)

/-- A machine is at rest if the bottom of its stack is as it should be. -/
theorem rests_secluded (same : ∀ i, i < bottom.size → m.stack.values[i]? = bottom[i]?) :
    (secluded bottom m).Rests m where
  bottom := same
  values _ v _ _ := lenient_secluded.fit v
  globals := rfl
  heap :=
    { grown := .refl m.heap
      contents := fun _ _ v _ => lenient_secluded.fit v
      kept := fun _ _ => rfl }
  pool := m.keeper.pool.all_true

/-- While the contract is observed, the frames of the machine hold what they did. -/
theorem Rests.sameFrames (rests : (secluded bottom m).Rests m') : m.heap.SameFrames m'.heap :=
  fun f held => rests.heap.kept (.frame f) fun may => may f rfl held

/-- An activation that may run does so in a frame that the machine did not have. -/
theorem Runs.not_has {h : Heap} {a : Activation} (runs : (secluded bottom m).Runs env h a) :
    ¬ m.heap.Has (.frame a.frame) :=
  runs.writes a.frame rfl

/-- The activations of a sound point run in frames that the machine did not have. -/
theorem Sound.not_has {maxDepth : Nat} {outer : Stack.Limits} {tasks : List Task} {a : Activation}
    (sound : (secluded bottom m).Sound env maxDepth outer tasks m')
    (inside : a ∈ tasks.filterMap Task.activation?) : ¬ m.heap.Has (.frame a.frame) := by
  obtain ⟨t, here, belongs⟩ := List.mem_filterMap.1 inside
  have takes := sound.takes t here
  unfold Task.activation? at belongs
  split at belongs
  · cases belongs
    exact Runs.not_has takes
  · cases belongs
    exact Runs.not_has takes
  · cases belongs

/-- Nothing that a task may call is ruled out. -/
theorem entry_secluded {t : Task} (call : t.IsCall) : (secluded bottom m).Entry env t := by
  cases t with
  | call c => exact entry_call (lenient_secluded.calls c)
  | native r taken => exact ⟨rfl, rfl, fun _ => lenient_secluded.keeps r⟩
  | construct r => exact entry_construct trivial
  | _ => exact call.elim

end Contract

namespace Env

/-- What is promised at a point of a call that was made above `rest` on the heap `h`, where `tasks` remain
of the call: frames of the heap hold what they did, activations of the call run in frames of their own, and
as long as there is more to do a step changes no frame of the heap either, whether the call goes on or a
failure leaves it. -/
structure Isolates (env : Env) (rest : List Task) (h : Heap) (tasks : List Task) (m : Machine) :
    Prop where
  frames : h.SameFrames m.heap
  own : ∀ a ∈ tasks.filterMap Task.activation?, ¬ h.Has (.frame a.frame)
  next : tasks ≠ [] → h.SameFrames (env.step ⟨tasks ++ rest, m⟩).machine.heap ∧
    ((∃ tasks' m', env.step ⟨tasks ++ rest, m⟩ = .running ⟨tasks' ++ rest, m'⟩) ∨
      ∃ f m', env.step ⟨tasks ++ rest, m⟩ = env.unwind f rest m')

variable {env : Env} {m m' : Machine}

/-- Saving a variable changes at most the frame it is saved in. -/
theorem contents_after_saveTo_var (frame : FrameRef) (slot : Nat) {o : Object} (m : Machine)
    (other : o ≠ .frame frame) :
    ((Exec.saveTo frame slot .var).after m).heap.contents o = m.heap.contents o := by
  rw [Exec.after]
  simp only [Exec.saveTo, Bind.bind, EStateM.bind, Exec.top]
  cases m.stack.top? with
  | none => rfl
  | some v =>
    simp only [Exec.put]
    cases m.heap.get (.frame frame) slot with
    | error e => rfl
    | ok old =>
      dsimp only
      rw [Machine.heap_letGo, Heap.contents_put, if_neg other]

/-- A step that saves a variable changes at most the frame of the activation. -/
theorem contents_step_of_save_var {a : Activation} {below : List Task} {slot : Nat}
    (found : (env.store.body a.lambda)[a.offset]? = some (.save .var slot)) {o : Object}
    (other : o ≠ .frame a.frame) :
    (env.step ⟨.body a :: below, m⟩).machine.heap.contents o = m.heap.contents o := by
  rw [heap_step_of_save found]
  exact contents_after_saveTo_var a.frame slot m other

/-- A call inside a run is isolated at every point. -/
theorem isolates_of_above (saves : env.store.SavesLocally) (floor_le : m.stack.floor ≤ m.stack.height)
    {t : Task} (call : t.IsCall) {rest : List Task} {c : Config}
    (later : env.Above rest ⟨t :: rest, m⟩ c) :
    ∃ tasks, c.tasks = tasks ++ rest ∧ env.Isolates rest m.heap tasks c.machine := by
  have covers : (Contract.secluded #[] m).Covers env := Contract.covers_secluded saves
  have entry : (Contract.secluded #[] m).Entry env t := Contract.entry_secluded call
  -- nothing on the stack has to be out of reach, so the bottom is empty
  have outside : (Contract.secluded #[] m).Sound env m.stack.maxDepth m.stack.limits [] m :=
    { toRests := Contract.rests_secluded nofun
      floor_le := floor_le
      maxDepth_eq := rfl
      takes := nofun
      nest := .nil }
  have start := outside.add (Nat.zero_le _) (entry.takes m.heap) entry.belongs entry.uncut
  obtain ⟨tasks, split, sound, -⟩ := start.above covers later
  refine ⟨tasks, split, sound.toRests.sameFrames, fun a inside => sound.not_has inside, ?_⟩
  intro more
  cases tasks with
  | nil => exact absurd rfl more
  | cons u below =>
    have advances := sound.step covers rest
    generalize env.step ⟨u :: below ++ rest, c.machine⟩ = status at advances
    cases advances with
    | running sound' _ => exact ⟨sound'.toRests.sameFrames, .inl ⟨_, _, rfl⟩⟩
    | @failing f m' _ sound' _ =>
      refine ⟨?_, .inr ⟨f, m', rfl⟩⟩
      rw [heap_unwind]
      exact sound'.toRests.sameFrames

/-- Saving a variable changes no object but the frame of the activation that does it. If that is the only
way in which the code saves, a call leaves all frames there were before it as they were, at every point
and whether it comes back or fails: one that is made inside a run above the tasks `rest`, and one that is
made by the host. -/
theorem calls_keep_frames (env : Env) (m : Machine) :
    (∀ a below slot, (env.store.body a.lambda)[a.offset]? = some (.save .var slot) →
      ∀ o, o ≠ .frame a.frame →
        (env.step ⟨.body a :: below, m⟩).machine.heap.contents o = m.heap.contents o) ∧
    (env.store.SavesLocally → m.stack.floor ≤ m.stack.height →
      (∀ t rest c, t.IsCall → env.Above rest ⟨t :: rest, m⟩ c →
        ∃ tasks, c.tasks = tasks ++ rest ∧ env.Isolates rest m.heap tasks c.machine) ∧
      (∀ fuel c args result m', env.invoke fuel c args m = some (result, m') →
        m.heap.SameFrames m'.heap) ∧
      (∀ fuel l args result m', env.exec fuel l args m = some (result, m') →
        m.heap.SameFrames m'.heap) ∧
      ∀ fuel r result m', env.instantiate fuel r m = some (result, m') →
        m.heap.SameFrames m'.heap) := by
  refine ⟨fun a below slot found o other => contents_step_of_save_var found other, ?_⟩
  intro saves floor_le
  have covers : (Contract.secluded m.stack.values m).Covers env := Contract.covers_secluded saves
  have rests : (Contract.secluded m.stack.values m).Rests m := Contract.rests_secluded fun _ _ => rfl
  have lenient : (Contract.secluded m.stack.values m).Lenient := Contract.lenient_secluded
  refine ⟨fun t rest c call later => isolates_of_above saves floor_le call later, ?_, ?_, ?_⟩
  · intro fuel c args result m' ended
    exact (rests.invoke covers rfl (fun v _ => lenient.fit v) (lenient.calls c) ended).rests.sameFrames
  · intro fuel l args result m' ended
    exact (rests.exec covers rfl (fun v _ => lenient.fit v) trivial ended).rests.sameFrames
  · intro fuel r result m' ended
    exact (rests.instantiate covers rfl trivial floor_le ended).rests.sameFrames

/-- Code with a lambda that overwrites the copy of what it captured and answers it. -/
def overwriting : Env where
  store :=
    { programs := #[some #[.intPush 2, .save .var 0, .pop, .load .var 0, .ret]]
      lambdas := #[{ code := ⟨0⟩, maxStack := 1, params := 0, vars := 1 }] }
  host _ := .done ()

/-- A machine with a frame to be captured, the second one. -/
def capturing : Machine := ((Machine.new {}).frameOf #[.int 1]).2

/-- The call answers the number that was saved, and the captured frame holds the one it did. -/
theorem calls_keep_frames_overwriting :
    ∃ values m', overwriting.invoke 9 (.function 0 ⟨0⟩ (some ⟨1⟩)) [] capturing =
        some (.ok values, m') ∧
      values.size = 1 ∧ values.all (·.sameRef (.int 2)) ∧
      m'.heap.slots ⟨1⟩ = #[.int 1] := by
  have saves : overwriting.store.SavesLocally := by
    intro l storage slot inside
    obtain ⟨p, program⟩ : ∃ p, (overwriting.store.lambda l).code = p := ⟨_, rfl⟩
    rw [Store.body, program] at inside
    obtain ⟨_ | p⟩ := p <;> simp_all [overwriting, Store.code, Store.code?]
  obtain ⟨values, m', ran, checks⟩ := exists_of_any
    (p := fun values => values.size = 1 && values.all (·.sameRef (.int 2)))
    (x := overwriting.invoke 9 (.function 0 ⟨0⟩ (some ⟨1⟩)) [] capturing) (by decide +kernel)
  rw [Bool.and_eq_true, decide_eq_true_eq] at checks
  obtain ⟨-, calls⟩ := calls_keep_frames overwriting capturing
  have kept := (calls saves (by decide)).2.1 9 _ [] _ m' ran ⟨1⟩ (by decide)
  exact ⟨values, m', ran, checks.1, checks.2, kept.trans rfl⟩

end Env

end PlotMachine
