import PlotMachine.Proofs.GlobalFrame
import PlotMachine.Proofs.Moves

/-!
# Making an instance

An instance is made before its initialiser runs. It is the argument of the initialiser, which works above
the values there were, and when that is done, whatever it leaves is cut off and the instance is pushed
(`Env.above_constructed`). While the initialiser runs, the only way to write to the instance is an
instruction that saves to one of its fields (`Env.field_of_step`). So a field to which nothing was saved
is nil in the end.
-/

namespace PlotMachine

/-- The stacks are the same below the height if the second one is the first one restored. -/
theorem Stack.Restored.truncate_eq {s s' : Stack} {height : Nat} (restored : s.Restored height s') :
    s'.truncate height = s.truncate height := by
  have values : (s'.truncate height).values = (s.truncate height).values := by
    refine Array.ext_getElem? fun i => ?_
    rw [getElem?_truncate, getElem?_truncate]
    split
    · next low => exact restored.below i low
    · rfl
  obtain ⟨limits, maxDepth, -, -⟩ := restored
  simp only [Stack.limits, Stack.Limits.mk.injEq] at limits
  obtain ⟨floor, ceiling, depth⟩ := limits
  simp only [truncate] at values ⊢
  rw [values, floor, ceiling, depth, maxDepth]

/-- The next instruction saves a value to a field of an instance. -/
def Config.SavesField (s : Store) (c : Config) (i : InstanceRef) (field : Nat) : Prop :=
  ∃ a rest v, c.tasks = .body a :: rest ∧
    (s.body a.lambda)[a.offset]? = some (.save .field field) ∧
    c.machine.stack.top? = some (.record i) ∧ c.machine.stack.drop.top? = some v

namespace Contract

/-- The contract under which everything is allowed above the bottom of the stack except to write to an
instance of a heap. -/
def guarding (bottom : Array Value) (m : Machine) (parked : Value → Prop) (i : InstanceRef)
    (has : m.heap.Has (.record i)) : Contract :=
  { free bottom m.globals parked with
    start := m.heap
    writes := fun o => o ≠ .record i
    holds_new := fun _ _ => trivial
    writes_new := fun _ new same => new (same ▸ has)
    writes_array := fun _ _ => Object.noConfusion }

variable {bottom : Array Value} {globals : FrameRef} {P : Value → Prop} {env : Env} {m : Machine}
  {i : InstanceRef} {has : m.heap.Has (.record i)} {maxDepth : Nat} {outer : Stack.Limits}
  {tasks : List Task}

theorem lenient_guarding : (guarding bottom m P i has).Lenient :=
  ⟨fun _ => trivial, fun _ => trivial, fun _ => trivial, fun _ => trivial, fun _ => trivial⟩

theorem supports_guarding : (guarding bottom m P i has).Supports env where
  record _ _ := trivial
  native fn _ := lenient_guarding.keeps (env.routine fn)
  parked v _ := lenient_guarding.fit v

/-- An instruction that saves to no field writes to no instance. -/
theorem admits_guarding {home : ProgramRef} {length : Nat} {instr : Instr}
    (other : ∀ field, instr ≠ .save .field field) :
    (guarding bottom m P i has).Admits home length instr := by
  cases instr with
  | constPush v => exact lenient_guarding.fit v
  | save storage slot =>
    cases storage with
    | var => trivial
    | global => exact Object.noConfusion
    | field => exact absurd rfl (other slot)
  | jump condition target => exact .inr fun _ => trivial
  | _ => trivial

/-- A point at which nothing is ruled out is one from which on the instance is to be left alone. -/
theorem Sound.guard (sound : (free bottom globals P).Sound env maxDepth outer tasks m)
    (has : m.heap.Has (.record i)) :
    (guarding bottom m P i has).Sound env maxDepth outer tasks m where
  bottom := sound.bottom
  values _ v _ _ := lenient_guarding.fit v
  globals := rfl
  heap :=
    { grown := .refl m.heap
      contents := fun _ _ v _ => lenient_guarding.fit v
      kept := fun _ _ => rfl }
  pool := sound.pool
  floor_le := sound.floor_le
  maxDepth_eq := sound.maxDepth_eq
  takes t inside := by
    have takes := sound.takes t inside
    have runs : ∀ a, (free bottom globals P).Runs env m.heap a →
        (guarding bottom m P i has).Runs env m.heap a := fun a runs =>
      ⟨trivial, trivial, Object.noConfusion, runs.has, runs.room⟩
    cases t with
    | call c => exact lenient_guarding.calls c
    | native r taken => exact lenient_guarding.keeps r
    | handler taken next => exact fun outcome _ => lenient_guarding.keeps (next outcome)
    | body a => exact runs a takes
    | waiting a callee => exact runs a takes
    | construct r => trivial
    | constructed j height => trivial
  nest := sound.nest

end Contract

namespace Env

variable {env : Env} {m m' : Machine} {i : InstanceRef} {field : Nat}

/-- Writing one value of an object changes no other value. -/
theorem getElem?_after_put (o : Object) (index : Nat) (v : Value) (m : Machine) {p : Object} {k : Nat}
    (other : ¬ (p = o ∧ index = k)) :
    (((Exec.put o index v).after m).heap.contents p)[k]? = (m.heap.contents p)[k]? := by
  rw [Exec.after, Exec.put]
  cases m.heap.get o index with
  | error e => rfl
  | ok old =>
    dsimp only
    rw [Machine.heap_letGo, Heap.contents_put]
    split
    · next same =>
      have differs : index ≠ k := fun here => other ⟨same, here⟩
      rw [Array.getElem?_setIfInBounds_ne differs, same]
    · rfl

/-- Letting go of a value that was taken touches no object. -/
theorem heap_after_taking {α : Type} (body : Value → Exec α) {v : Value}
    (found : m.stack.top? = some v) :
    ((Exec.taking body).after m).heap = ((body v).after { m with stack := m.stack.drop }).heap := by
  rw [Exec.after, Exec.after, Exec.taking, found]
  dsimp only
  cases body v { m with stack := m.stack.drop } <;> exact Machine.heap_letGo _ v

/-- Saving to a field changes no field of an instance but the one it is saved to. -/
theorem field_after_saveTo (frame : FrameRef) (slot : Nat)
    (other : ¬ (slot = field ∧ m.stack.top? = some (.record i) ∧ ∃ v, m.stack.drop.top? = some v)) :
    (((Exec.saveTo frame slot .field).after m).heap.fields i)[field]? = (m.heap.fields i)[field]? := by
  cases found : m.stack.top? with
  | none => rw [Exec.after, Exec.saveTo, Exec.taking, found]
  | some target =>
    rw [Exec.saveTo, heap_after_taking _ found, Exec.after]
    simp only [Bind.bind, EStateM.bind, Exec.top, Exec.fieldOwner]
    cases under : m.stack.drop.top? with
    | none => rfl
    | some v =>
      cases owner : target.object? with
      | none => rfl
      | some o =>
        refine getElem?_after_put o slot v { m with stack := m.stack.drop } (p := .record i) ?_
        rintro ⟨rfl, same⟩
        have instance_ : target = .record i := by
          cases target <;> cases owner
          rfl
        exact other ⟨same, instance_ ▸ found, v, under⟩

/-- While an initialiser runs, a step changes a field of an instance only if it saves to the field. -/
theorem field_of_step {bottom : Array Value} {globals : FrameRef} {P : Value → Prop} {maxDepth : Nat}
    {outer : Stack.Limits} {t : Task} {tasks tail ts : List Task} {c : Config}
    (sound : (Contract.free bottom globals P).Sound env maxDepth outer (t :: tasks) m)
    (has : m.heap.Has (.record i))
    (unsaved : ¬ Config.SavesField env.store ⟨t :: tasks ++ tail, m⟩ i field)
    (next : env.step ⟨t :: tasks ++ tail, m⟩ = .running c) (above : c.tasks = ts ++ tail) :
    (c.machine.heap.fields i)[field]? = (m.heap.fields i)[field]? := by
  by_cases saves : ∃ a slot, t = .body a ∧
      (env.store.body a.lambda)[a.offset]? = some (.save .field slot)
  · obtain ⟨a, slot, rfl, found⟩ := saves
    have left : c.machine.heap = ((Exec.saveTo a.frame slot .field).after m).heap := by
      rw [← heap_step_of_save found (tasks ++ tail) m, ← List.cons_append, next]
      rfl
    rw [left]
    refine field_after_saveTo a.frame slot ?_
    rintro ⟨rfl, top, v, under⟩
    exact unsaved ⟨a, tasks ++ tail, v, rfl, found, top, under⟩
  · have admits : (Contract.guarding bottom m P i has).AdmitsNext env ⟨t :: tasks ++ tail, m⟩ := by
      intro a below instr head found
      refine Contract.admits_guarding fun slot same => saves ⟨a, slot, (List.cons.inj head).1, ?_⟩
      rw [found, same]
    have advances := (sound.guard has).step_of_admits Contract.supports_guarding tail admits
    rw [next] at advances
    generalize status : Status.running c = s at advances
    cases advances with
    | running sound' _ =>
      cases status
      have kept := sound'.heap.kept (.record i) fun other => other rfl
      exact congrArg (·[field]?) kept
    | failing => exact absurd above (not_above_of_unwind status.symm ts)

/-! ## From the first step to the last one -/

/-- The instance is pushed in place of what its initialiser left. -/
theorem step_constructed {height : Nat} {rest ts : List Task} {c : Config}
    (next : env.step ⟨.constructed i height :: rest, m⟩ = .running c) (above : c.tasks = ts ++ rest) :
    c.tasks = rest ∧ c.machine.stack = (m.stack.truncate height).push (.record i) ∧
      c.machine.heap = m.heap := by
  have done : (Exec.push (.record i) >>= fun _ => pure rest) (m.cutStack height) =
      .ok c.tasks c.machine := ok_of_proceed next above
  obtain ⟨_, pushed, result, same⟩ := Exec.exists_of_bind_eq_ok done
  obtain ⟨tasks, mc⟩ := c
  cases same
  rw [Exec.push] at result
  split at result
  · cases result
  · cases result
    exact ⟨rfl, by rw [Machine.stack_cutStack], m.heap_cutStack height⟩

/-- Somewhere on the way to the tasks `rest`, an instruction saves to a field of an instance. -/
def Assigns (env : Env) (rest : List Task) (start : Config) (i : InstanceRef) (field : Nat) : Prop :=
  ∃ c t ts, env.Above rest start c ∧ c.tasks = t :: ts ++ rest ∧ c.SavesField env.store i field

/-- On the way from the first instruction of an initialiser to the end, the initialiser runs above the
task that waits for it, or the instance was pushed in place of what it left. -/
theorem above_constructed {n : Machine} {height : Nat} {P : Value → Prop} {tasks rest : List Task}
    {c : Config} (le : height ≤ n.stack.height) (has : m.heap.Has (.record i))
    (sound : (Contract.beyond n height P).Sound env n.stack.maxDepth n.stack.limits tasks m)
    (later : env.Above rest ⟨tasks ++ .constructed i height :: rest, m⟩ c) :
    m.heap.Extends c.machine.heap ∧
      (∀ field, ¬ env.Assigns rest ⟨tasks ++ .constructed i height :: rest, m⟩ i field →
        (c.machine.heap.fields i)[field]? = (m.heap.fields i)[field]?) ∧
      ((∃ tasks', c.tasks = tasks' ++ .constructed i height :: rest ∧
          (Contract.beyond n height P).Sound env n.stack.maxDepth n.stack.limits tasks' c.machine) ∨
        c.tasks = rest ∧ c.machine.stack = (n.stack.truncate height).push (.record i)) := by
  induction later with
  | refl => exact ⟨.refl m.heap, fun _ _ => rfl, .inl ⟨tasks, rfl, sound⟩⟩
  | @tail c c' before last ih =>
    obtain ⟨⟨t, below, split⟩, ⟨ts, split'⟩, next⟩ := last
    obtain ⟨grown, fields, ⟨tasks', here, sound'⟩ | ⟨here, -⟩⟩ := ih
    · obtain ⟨now, mc⟩ := c
      dsimp only at here
      subst here
      cases tasks' with
      | nil =>
        obtain ⟨done, stack, heap⟩ := step_constructed next split'
        rw [heap]
        refine ⟨grown, fields, .inr ⟨done, ?_⟩⟩
        rw [stack, (sound'.restored le).truncate_eq]
      | cons u us =>
        have advances := sound'.step (Contract.covers_free _ _ _ env) (.constructed i height :: rest)
        rw [next] at advances
        generalize status : Status.running c' = s at advances
        cases advances with
        | running sound'' grown' =>
          cases status
          refine ⟨grown.trans grown', fun field unassigned => ?_, .inl ⟨_, rfl, sound''⟩⟩
          rw [← fields field unassigned]
          refine field_of_step sound' (grown.has _ has) (fun saves => ?_) next rfl
          exact unassigned ⟨_, t, below, before, split, saves⟩
        | @failing f m' =>
          have handled : env.unwind f rest (m'.letGo (.record i)) = .running c' := status.symm
          exact absurd split' (not_above_of_unwind handled ts)
    · -- nothing comes after the instance was pushed
      rw [here] at split
      cases List.self_eq_append_left.1 split

/-- The activation is about to carry out the first instruction of the initialiser of an instance, which
is its only argument, above the values that were on the stack before. -/
structure Begins (env : Env) (r : RecordRef) (i : InstanceRef) (m : Machine) (a : Activation)
    (m' : Machine) : Prop where
  lambda : a.lambda = (env.store.record r).init
  offset : a.offset = 0
  params : (env.store.lambda a.lambda).params = 1
  slots : ∃ locals, m'.heap.slots a.frame = #[.record i] ++ locals
  values : m'.stack.values = m.stack.values

/-- An instance was made above the tasks `rest`. There was no such instance on the machine where that
began. Its initialiser was entered with the instance as the only argument. In the heap that this came
to, it has as many fields as its record type says, and those to which nothing was assigned are nil. -/
structure Constructed (env : Env) (rest : List Task) (r : RecordRef) (i : InstanceRef) (m : Machine)
    (h : Heap) : Prop where
  new : ¬ m.heap.Has (.record i)
  begins : ∃ a m₁, env.Begins r i m a m₁ ∧ env.Above rest ⟨.construct r :: rest, m⟩
    ⟨.body a :: .constructed i m.stack.height :: rest, m₁⟩
  fields : ∃ fields, h.instance? i = some ⟨r, fields⟩ ∧ fields.size = (env.store.record r).size ∧
    ∀ k < fields.size, ¬ env.Assigns rest ⟨.construct r :: rest, m⟩ i k → fields[k]? = some .nil

section

variable {r : RecordRef} {rest : List Task} {a : Activation}

/-- The first step towards an instance enters the initialiser. -/
theorem entered_of_above (later : env.Above rest ⟨.construct r :: rest, m⟩ ⟨rest, m'⟩) :
    ∃ a m₁,
      let c : Config := ⟨.body a :: .constructed ⟨m.heap.instances.size⟩ m.stack.height :: rest, m₁⟩
      env.Above rest ⟨.construct r :: rest, m⟩ c ∧ env.Above rest c ⟨rest, m'⟩ ∧
        (env.store.lambda (env.store.record r).init).params = 1 ∧
        env.Entered (env.store.record r).init none (env.allocated r m) a m₁ := by
  obtain same | ⟨⟨tasks, m₁⟩, ⟨begun, ⟨ts, above⟩, next⟩, later⟩ := later.cases_head
  · have length := congrArg (·.tasks.length) same
    simp at length
  · have made : env.construct rest r m = .ok tasks m₁ := ok_of_proceed next above
    obtain ⟨a, rfl, one, entered⟩ := construct_eq_ok made
    exact ⟨a, m₁, .single ⟨begun, ⟨ts, above⟩, next⟩, later, one, entered⟩

variable {m₁ : Machine}

/-- The new instance is what the initialiser is given. -/
theorem Entered.begins (one : (env.store.lambda (env.store.record r).init).params = 1)
    (entered : env.Entered (env.store.record r).init none (env.allocated r m) a m₁) :
    env.Begins r ⟨m.heap.instances.size⟩ m a m₁ := by
  obtain ⟨rfl, -, -, stack, ⟨fresh, -, -, heap⟩, -, -⟩ := entered
  have base := argBase_allocated (m := m) one
  have args : (env.allocated r m).stack.above m.stack.height =
      #[.record ⟨m.heap.instances.size⟩] := by
    simp only [allocated, Stack.above, Stack.push, Stack.height, Array.push_eq_append,
      Array.size_append]
    exact Array.extract_append_right
  refine ⟨rfl, rfl, one, ?_, ?_⟩
  · have slots : m₁.heap.slots ⟨(env.allocated r m).heap.frames.size⟩ =
        env.seeded (env.store.record r).init none (env.allocated r m) fresh := by
      rw [heap]
      exact Heap.slots_addFrame _ _
    rw [slots, seeded, base, args]
    exact ⟨_, by simp [captured]; rfl⟩
  · rw [stack, base]
    change ((env.allocated r m).stack.truncate m.stack.height).values = m.stack.values
    rw [truncate_allocated]

/-- Whoever waits for an instance finds it on top of the stack that it left. -/
theorem constructed_of_above (floor_le : m.stack.floor ≤ m.stack.height)
    (later : env.Above rest ⟨.construct r :: rest, m⟩ ⟨rest, m'⟩) :
    m'.stack = m.stack.push (.record ⟨m.heap.instances.size⟩) ∧
      env.Constructed rest r ⟨m.heap.instances.size⟩ m m'.heap := by
  obtain ⟨a, m₁, first, later, one, entered⟩ := entered_of_above later
  have found := entered.made
  have has : m₁.heap.Has (.record ⟨m.heap.instances.size⟩) := (Array.getElem?_eq_some_iff.1 found).1
  have le : m.stack.height ≤ (env.allocated r m).stack.height := by simp [allocated]
  obtain ⟨grown, kept, ⟨tasks, above, -⟩ | ⟨-, stack⟩⟩ :=
    above_constructed le has (entered.sound floor_le one) later
  · rw [List.append_cons] at above
    exact absurd (List.self_eq_append_left.1 above) (List.concat_ne_nil _ _)
  · rw [truncate_allocated] at stack
    refine ⟨stack, Nat.lt_irrefl _, ⟨a, m₁, entered.begins one, first⟩, ?_⟩
    obtain ⟨fields, found', size⟩ := grown.record _ _ found
    rw [Array.size_replicate] at size
    refine ⟨fields, found', size, fun k bound unassigned => ?_⟩
    have unassigned' : ¬ env.Assigns rest
        ⟨[.body a] ++ .constructed ⟨m.heap.instances.size⟩ m.stack.height :: rest, m₁⟩
        ⟨m.heap.instances.size⟩ k := by
      rintro ⟨c, t, ts, later, split, saves⟩
      exact unassigned ⟨c, t, ts, first.trans later, split, saves⟩
    have same := kept k unassigned'
    simp only [Heap.fields, found, found'] at same
    simpa [size ▸ bound] using same

end

/-- Whatever an initialiser does, when an instance has been made, it lies on the stack as it was before.
The same holds if the host has it made, but that the instance is then taken from the stack. -/
theorem construct_leaves_instance (env : Env) (r : RecordRef) (m : Machine)
    (floor_le : m.stack.floor ≤ m.stack.height) :
    (∀ rest m', env.Above rest ⟨.construct r :: rest, m⟩ ⟨rest, m'⟩ →
      ∃ i, m'.stack = m.stack.push (.record i) ∧ env.Constructed rest r i m m'.heap) ∧
    ∀ fuel i m', env.instantiate fuel r m = some (.ok i, m') →
      m'.stack = m.stack ∧
        env.Constructed [] r i { m with stack := m.stack.raiseFloor } m'.heap := by
  refine ⟨fun rest m' later => ⟨_, constructed_of_above floor_le later⟩, fun fuel i m' ended => ?_⟩
  have answered := (Contract.rests_whole m.keeper.pool.all_true).instantiate
    (Contract.covers_free _ _ _ env) rfl trivial floor_le ended
  obtain ⟨rfl, -, before, last, start, done, -⟩ := answered.ok i rfl
  obtain ⟨outcome, back, ran, -, heap, -⟩ := run_of_instantiate floor_le ended
  -- it is one run, and what was answered says that it did not fail
  cases start
  cases done.symm.trans ran
  have later := (steps_of_run_ok done).above
  obtain ⟨-, constructed⟩ := constructed_of_above (Nat.le_refl m.stack.height) later
  exact ⟨answered.stack, heap ▸ constructed⟩

/-- A record type of three fields. Its initialiser sets the second one and leaves two values. -/
def leaving : Env where
  store :=
    { programs := #[some #[.constPush (.int 7), .load .var 0, .save .field 1, .constPush (.int 8)]]
      lambdas := #[{ code := ⟨0⟩, maxStack := 2, params := 1, vars := 1 }]
      records := #[{ size := 3, init := ⟨0⟩ }] }
  host _ := .done ()

/-- The initialiser of `leaving` saves to no other field. -/
theorem eq_one_of_assigns_leaving {rest : List Task} {start : Config} {k : Nat}
    (assigns : leaving.Assigns rest start i k) : k = 1 := by
  obtain ⟨c, t, ts, -, -, a, below, v, -, found, -⟩ := assigns
  have inside := Array.mem_of_getElem? found
  generalize a.lambda = l at inside
  rcases l with ⟨_ | l⟩
  · simpa [leaving, Store.body, Store.lambda, Store.code, Store.code?] using inside
  · simp [leaving, Store.body, Store.lambda, Store.code, Store.code?] at inside

/-- An instance on a stack of one value. -/
theorem construct_leaves_instance_leaving :
    let m : Machine := { stack := { values := #[.int 1], maxDepth := 1 }, globals := ⟨0⟩ }
    m.stack.floor ≤ m.stack.height ∧ ∃ i m' fields,
      leaving.Above [] ⟨[.construct ⟨0⟩], m⟩ ⟨[], m'⟩ ∧
      m'.stack.values = #[.int 1, .record i] ∧ m'.heap.instance? i = some ⟨⟨0⟩, fields⟩ ∧
      fields.size = 3 ∧ fields[0]? = some .nil ∧ fields[2]? = some .nil := by
  intro m
  obtain ⟨u, m', ended, -⟩ := exists_of_any (p := fun _ => true)
    (x := leaving.run 12 ⟨[.construct ⟨0⟩], m⟩) (by decide +kernel)
  have later := (steps_of_run_ok ended).above
  obtain ⟨i, stack, constructed⟩ :=
    (construct_leaves_instance leaving ⟨0⟩ m (Nat.zero_le _)).1 [] m' later
  obtain ⟨fields, found, size, nil⟩ := constructed.fields
  have three : fields.size = 3 := size
  refine ⟨Nat.zero_le _, i, m', fields, later, by rw [stack]; rfl, found, three, ?_, ?_⟩
  · exact nil 0 (by omega) fun assigns => absurd (eq_one_of_assigns_leaving assigns) (by decide)
  · exact nil 2 (by omega) fun assigns => absurd (eq_one_of_assigns_leaving assigns) (by decide)

end Env

end PlotMachine
