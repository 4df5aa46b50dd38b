import PlotMachine.Proofs.Teardown

/-!
# The shapes of objects

Whatever code does, an object keeps its shape: a frame its length, an instance its record type and the
number of its fields, and an array never becomes shorter (`Heap.Extends`). An instance that is made has
as many fields as its record type says. `Heap.Shapes` says both of two heaps, and `Heap.Sized` is what
the second part comes to for a single heap.

All that computations do by themselves keeps shapes (`Machine.Shapes` is a relation that permits it).
What a run adds is that lambdas are entered and left and that instances are made. A failure touches no
object on its way out (`Env.heap_unwind`), so a step keeps shapes whether it succeeds or fails
(`Env.shapes_step`), and a teardown changes nothing but what frames hold.
-/

namespace PlotMachine

namespace Heap

/-- Every instance has as many fields as its record type says. -/
def Sized (s : Store) (h : Heap) : Prop :=
  ∀ i x, h.instance? i = some x → x.fields.size = (s.record x.record).size

/-- The objects of the first heap keep their shapes in the second one, and the instances that were made
in between have as many fields as their record types say. -/
structure Shapes (s : Store) (h h' : Heap) : Prop where
  kept : h.Extends h'
  made : ∀ i x, h'.instance? i = some x →
    h.Has (.record i) ∨ x.fields.size = (s.record x.record).size

namespace Shapes

variable {s : Store} {h h' h'' : Heap}

/-- Growth keeps shapes if it makes no instance. -/
theorem of_extends (grown : h.Extends h') (same : h'.instances.size = h.instances.size) :
    h.Shapes s h' where
  kept := grown
  made i x found := by
    have inside : i.index < h'.instances.size := (Array.getElem?_eq_some_iff.1 found).1
    exact .inl (Nat.lt_of_lt_of_eq inside same)

theorem refl (h : Heap) : h.Shapes s h := of_extends (.refl h) rfl

/-- An instance of the second heap has the fields of its record type if those of the first heap have. -/
theorem sized (shapes : h.Shapes s h') (sized : h.Sized s) : h'.Sized s := by
  intro i x found
  rcases shapes.made i x found with old | new
  · have there : h.instance? i = some h.instances[i.index] := Array.getElem?_eq_getElem old
    obtain ⟨fields, kept, size⟩ := shapes.kept.record i _ there
    cases found.symm.trans kept
    exact size.trans (sized i _ there)
  · exact new

theorem trans (first : h.Shapes s h') (second : h'.Shapes s h'') : h.Shapes s h'' where
  kept := first.kept.trans second.kept
  made i x found := by
    rcases second.made i x found with old | new
    · have there : h'.instance? i = some h'.instances[i.index] := Array.getElem?_eq_getElem old
      obtain ⟨fields, kept, size⟩ := second.kept.record i _ there
      cases found.symm.trans kept
      exact (first.made i _ there).imp_right size.trans
    · exact .inr new

end Shapes

variable (s : Store) (h : Heap)

theorem shapes_put (o : Object) (index : Nat) (v : Value) : h.Shapes s (h.put o index v) :=
  .of_extends (h.extends_put o index v) (by cases o <;> simp [put, update])

theorem shapes_addFrame (slots : Array Value) : h.Shapes s (h.addFrame slots).2 :=
  .of_extends (h.extends_addFrame slots) rfl

/-- An instance is made with as many fields as its record type says. -/
theorem shapes_addInstance (r : RecordRef) : h.Shapes s (h.addInstance r (s.record r).size).2 where
  kept := h.extends_addInstance r _
  made i x found := by
    simp only [instance?, addInstance, Array.getElem?_push] at found
    split at found
    · cases found
      exact .inr Array.size_replicate
    · exact .inl (Array.getElem?_eq_some_iff.1 found).1

/-- The second heap differs from the first one at most in what its frames hold. -/
structure Refilled (h h' : Heap) : Prop where
  arrays : h'.arrays = h.arrays
  instances : h'.instances = h.instances
  frames : h'.frames.size = h.frames.size
  length : ∀ f, (h'.slots f).size = (h.slots f).size

theorem Refilled.refl : h.Refilled h := ⟨rfl, rfl, rfl, fun _ => rfl⟩

theorem Refilled.trans {h h' h'' : Heap} (first : h.Refilled h') (second : h'.Refilled h'') :
    h.Refilled h'' where
  arrays := second.arrays.trans first.arrays
  instances := second.instances.trans first.instances
  frames := second.frames.trans first.frames
  length f := (second.length f).trans (first.length f)

theorem refilled_clearFrame (f : FrameRef) : h.Refilled (h.clearFrame f) where
  arrays := rfl
  instances := rfl
  frames := Array.size_modify
  length g := by
    by_cases same : f = g
    · rw [same, h.slots_clearFrame_self, Array.size_replicate]
    · rw [h.slots_clearFrame_of_ne same]

end Heap

namespace Machine

/-- The objects of the first machine keep their shapes in the second one. -/
def Shapes (s : Store) (m m' : Machine) : Prop := m.heap.Shapes s m'.heap

variable {s : Store} {m m' : Machine}

/-- Objects keep their shapes if the heap stays the same. -/
theorem shapes_of_eq (same : m'.heap = m.heap) : m.Shapes s m' := by
  rw [Shapes, same]
  exact .refl m.heap

instance : Permits (Shapes s) where
  refl m := .refl m.heap
  trans first second := first.trans second
  stack _ := shapes_of_eq rfl
  put m o index v := m.heap.shapes_put s o index v
  append m a v := .of_extends (m.heap.extends_append a v) rfl
  addArray m items := .of_extends (m.heap.extends_addArray items) rfl
  takeNumber m := .of_extends m.heap.extends_takeNumber rfl
  letGo m v := shapes_of_eq (m.heap_letGo v)
  share _ _ := shapes_of_eq rfl
  write _ _ := shapes_of_eq rfl
  raise _ := shapes_of_eq rfl

/-- A new machine has no instances. -/
theorem sized_new (settings : Settings) (s : Store) : (new settings).heap.Sized s := by
  intro i x found
  simp [new, newFrame, addFrame, Heap.addFrame, Heap.instance?] at found

/-- Clearing frames changes nothing but what they hold. -/
theorem refilled_clearFrames (m : Machine) (frames : Array FrameRef) :
    m.heap.Refilled (m.clearFrames frames).heap := by
  have each : ∀ (frames : List FrameRef) (m : Machine),
      m.heap.Refilled (frames.foldl clearFrame m).heap := by
    intro frames
    induction frames with
    | nil => exact fun m => .refl m.heap
    | cons f rest ih =>
      intro m
      have cleared : (m.clearFrame f).heap = m.heap.clearFrame f := heap_letGoAll _ _
      have first := m.heap.refilled_clearFrame f
      rw [← cleared] at first
      exact first.trans (ih _)
  rw [clearFrames, heap_letGoAll, ← Array.foldl_toList]
  exact each frames.toList m

/-- A teardown changes nothing but what frames hold. -/
theorem refilled_reset (m : Machine) : m.heap.Refilled m.reset.2.heap := by
  have cleared := m.emptied.refilled_clearFrames m.cleared
  rw [heap_emptied] at cleared
  rwa [reset_eq]

end Machine

/-! ## Runs -/

namespace Env

variable {env : Env} {s : Store}

theorem stays_enter (env : Env) (tasks : List Task) (l : LambdaRef) (closure : Option FrameRef) :
    (env.enter tasks l closure).Stays (Machine.Shapes s) := by
  intro m
  cases result : env.enter tasks l closure m with
  | ok a m' =>
    obtain ⟨fresh, -, -, heap⟩ := (entered_of_enter result).heap
    have added := m.heap.shapes_addFrame s (env.seeded l closure m fresh)
    rwa [← heap] at added
  | error f m' =>
    obtain ⟨rfl, fault, rfl, -⟩ := enter_eq_error result
    exact Exec.comes_fault fault m'

theorem stays_call (rest : List Task) (c : Callable) :
    (env.call rest c).Stays (Machine.Shapes s) := by
  cases c with
  | function id body closure => exact (env.stays_enter rest body closure).bind fun _ => Exec.stays_pure _
  | native id fn => exact Exec.stays_pure _
  | thunk id func arg => exact (Exec.stays_push arg).bind fun _ => Exec.stays_pure _
  | undefined => exact Exec.stays_fault _

theorem stays_construct (rest : List Task) (r : RecordRef) :
    (env.construct rest r).Stays (Machine.Shapes env.store) := by
  intro m
  rw [construct_eq]
  split
  · have shapes := m.heap.shapes_addInstance env.store r
    dsimp only
    generalize m.heap.addInstance r (env.store.record r).size = made at shapes
    have added : m.Shapes env.store { m with heap := made.2 } := shapes
    have pushed := (Exec.stays_push (.record made.1) _).of_related added
    generalize Exec.push (.record made.1) { m with heap := made.2 } = result at pushed
    cases result with
    | error f m' => exact pushed
    | ok u m' =>
      have entered := (env.stays_enter (.constructed made.1 m.stack.height :: rest)
        (env.store.record r).init none m').of_related pushed
      dsimp only
      generalize env.enter _ _ none m' = result at entered
      cases result with
      | error f m'' => exact entered
      | ok a m'' => exact entered
  · exact Exec.comes_fault _ m

theorem stays_instruction (rest : List Task) (a : Activation) (i : Instr) :
    (env.instruction rest a i).Stays (Machine.Shapes s) := by
  refine (Exec.stays_perform _ _ i).bind fun flow => ?_
  cases flow with
  | goto offset =>
    dsimp only
    split
    · exact Exec.stays_pure _
    · exact Exec.stays_fault _
  | leave => exact fun m => Machine.shapes_of_eq (heap_leave a m)
  | _ => exact Exec.stays_pure _

/-- Every step keeps shapes, whether it succeeds or fails. -/
theorem shapes_step (env : Env) (c : Config) :
    c.machine.Shapes env.store (env.step c).machine := by
  obtain ⟨tasks, m⟩ := c
  have proceeds : ∀ (rest : List Task) {x : Exec (List Task)}, x.Stays (Machine.Shapes env.store) →
      m.Shapes env.store (env.proceed rest x m).machine := by
    intro rest x stays
    have shapes := stays.after m
    rwa [Machine.Shapes, ← env.heap_proceed rest x m] at shapes
  cases tasks with
  | nil => exact .refl m.heap
  | cons t rest =>
    cases t with
    | call c => exact proceeds rest (stays_call rest c)
    | native r taken =>
      have shapes : m.Shapes env.store _ := r.stays_advance env.store (held rest) taken m
      rw [step]
      dsimp only
      generalize r.advance env.store (held rest) taken m = paused at shapes
      obtain ⟨pause, m'⟩ := paused
      cases pause with
      | done u => exact shapes
      | failed f =>
        rw [Machine.Shapes, ← env.heap_unwind f rest m'] at shapes
        exact shapes
      | calling callee taken' next => exact shapes
    | handler taken next => exact .refl m.heap
    | body a =>
      rw [step]
      dsimp only
      split
      · exact proceeds _ (stays_instruction rest a _)
      · exact Machine.shapes_of_eq (heap_leave a m)
    | waiting a callee => exact Machine.shapes_of_eq (heap_finish callee m)
    | construct r => exact proceeds rest (stays_construct rest r)
    | constructed i base =>
      have cut : (modify (·.cutStack base) : Exec Unit).Stays (Machine.Shapes env.store) :=
        fun m => Machine.Permits.cutStack (R := Machine.Shapes env.store) m base
      exact proceeds rest (cut.bind fun _ => (Exec.stays_push _).bind fun _ => Exec.stays_pure rest)

/-- A run keeps shapes, up to any of its points. -/
theorem shapes_steps {c c' : Config} (steps : env.Steps c c') :
    c.machine.Shapes env.store c'.machine := by
  induction steps with
  | refl => exact .refl c.machine.heap
  | @tail c' c'' _ last ih =>
    have shapes := env.shapes_step c'
    rw [last] at shapes
    exact ih.trans shapes

/-- Every step of every run keeps shapes, whatever the code and whether the step succeeds or fails: those
of the objects there were at any earlier point of the run, and those that record types give to instances.
So does each request of a native. A teardown changes what frames hold and nothing else. -/
theorem shapes_kept (env : Env) {c c' : Config} (steps : env.Steps c c') :
    c.machine.heap.Shapes env.store (env.step c').machine.heap ∧
    c'.machine.heap.Shapes env.store (env.step c').machine.heap ∧
    (c.machine.heap.Sized env.store → (env.step c').machine.heap.Sized env.store) ∧
    (∀ (held : Heap → List Object) (q : Request),
      c'.machine.heap.Shapes env.store ((q.serve env.store held).after c'.machine).heap) ∧
    c'.machine.heap.Refilled c'.machine.reset.2.heap := by
  have last := env.shapes_step c'
  have whole : c.machine.heap.Shapes env.store (env.step c').machine.heap :=
    (shapes_steps steps).trans last
  have request : ∀ (held : Heap → List Object) (q : Request),
      c'.machine.Shapes env.store ((q.serve env.store held).after c'.machine) :=
    fun held q => (q.stays_serve env.store held).after c'.machine
  exact ⟨whole, last, whole.sized, request, c'.machine.refilled_reset⟩

/-- Code that makes an instance of two fields, whose initialiser writes to one that is not there. -/
def overreaching : Env where
  store :=
    { programs := #[some #[.alloc ⟨0⟩, .ret], some #[.intPush 1, .load .var 0, .save .field 2]]
      lambdas := #[{ code := ⟨0⟩, maxStack := 1, params := 0, vars := 0 },
        { code := ⟨1⟩, maxStack := 2, params := 1, vars := 1 }]
      records := #[{ size := 2, init := ⟨1⟩ }] }
  host _ := .done ()

/-- The run fails, and the instance that it leaves has two fields. -/
theorem shapes_kept_overreaching :
    ∃ c f m x, overreaching.Steps ⟨[.call (.function 0 ⟨0⟩ none)], .new {}⟩ c ∧
      overreaching.step c = .halted (.error f) m ∧ m.heap.instance? ⟨0⟩ = some x ∧
      x.fields.size = 2 ∧ c.machine.heap.Refilled c.machine.reset.2.heap := by
  have failed : ((overreaching.run 9 ⟨[.call (.function 0 ⟨0⟩ none)], .new {}⟩).any fun ended =>
      !ended.1.toBool && (ended.2.heap.instance? ⟨0⟩).any (·.record = ⟨0⟩)) = true := by
    decide +kernel
  obtain ⟨⟨outcome, m⟩, ended, checks⟩ := (Option.any_eq_true _ _).1 failed
  simp only [Bool.and_eq_true, Bool.not_eq_true'] at checks
  obtain ⟨x, found, record⟩ := (Option.any_eq_true _ _).1 checks.2
  obtain ⟨c, steps, halts⟩ := steps_of_run ended
  obtain ⟨-, -, sized, -, refilled⟩ := shapes_kept overreaching steps
  rw [halts] at sized
  cases outcome with
  | ok u => cases checks.1
  | error f =>
    have size := sized (Machine.sized_new {} _) ⟨0⟩ x found
    rw [of_decide_eq_true record] at size
    exact ⟨c, f, m, x, steps, halts, found, size, refilled⟩

end Env

end PlotMachine
