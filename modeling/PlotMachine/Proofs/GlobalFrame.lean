import PlotMachine.Proofs.Bootup
import PlotMachine.Proofs.LibraryOnly

/-!
# What initialisers see of each other

Module bootup makes a new global frame and instantiates the loaded record types one after the other,
each into its slot. An initialiser is a program like any other: it may call, keep and change whatever
the modules before it have made. It runs while the global frame is half filled, and all that time the
frame is as bootup left it. Instructions that save to a global slot are one way to write to it, and
they are ruled out here. The other way would be a reference to the frame, as a closure or as a value,
and there is none: the frame is new when bootup begins, and nothing hands it out later.

So the contract that is observed (`Contract.sheltered`) rules out references to one frame and writes to
it. What it gives for one run, with or without an end, is put together along the course of bootup
(`Env.Booting`) to what the frame holds whenever an initialiser is at work and when bootup is over
(`Machine.Filled`).
-/

namespace PlotMachine

/-! ## A frame that nothing refers to -/

/-- A contract is about objects alone, and it allows all objects of a heap. -/
structure Contract.Spares (K : Contract) (h : Heap) : Prop where
  lambda : ∀ l, K.lambda l
  record : ∀ r, K.record r
  native : ∀ fn, K.native fn
  failure : ∀ f, K.failure f
  holds : ∀ o, h.Has o → K.holds o

/-- The objects of a heap and the constants of code refer to objects of the heap. A native of the host
refers to such objects, to what it is given and to what it makes, and to nothing else. -/
structure Env.Grounded (env : Env) (h : Heap) : Prop where
  contents : ∀ o, ∀ v ∈ h.contents o, ∀ p ∈ v.references, h.Has p
  constants : ∀ l v, .constPush v ∈ env.store.body l → ∀ p ∈ v.references, h.Has p
  natives : ∀ key (K : Contract), K.Spares h → (env.host key).Keeps K

/-- The next instruction saves to a global slot. -/
def Config.SavesGlobal (s : Store) (c : Config) : Prop :=
  ∃ a rest slot, c.tasks = .body a :: rest ∧
    (s.body a.lambda)[a.offset]? = some (.save .global slot)

namespace Contract

/-- The contract under which everything is allowed above the values of the stack except to refer to one
frame of the heap and to write to it. -/
def sheltered (m : Machine) (f : FrameRef) (has : m.heap.Has (.frame f)) : Contract where
  bottom := m.stack.values
  start := m.heap
  globals := f
  holds o := o ≠ .frame f
  writes o := o ≠ .frame f
  lambda _ := True
  record _ := True
  native _ := True
  failure _ := True
  parked _ := False
  holds_new _ new same := new (same ▸ has)
  writes_new _ new same := new (same ▸ has)
  writes_array _ may := may
  failure_of _ _ := trivial
  failure_locate _ _ _ := trivial

variable {env : Env} {h : Heap} {m : Machine} {f : FrameRef} {has : m.heap.Has (.frame f)}

mutual

/-- A value may come into play if it does not refer to the frame. -/
theorem fit_sheltered_iff (v : Value) : (sheltered m f has).Fit v ↔ .frame f ∉ v.references := by
  cases v with
  | callable c => exact calls_sheltered_iff c
  | array a => simp [Fit, sheltered, Value.references, Callable.references.ofArgument]
  | record i => simp [Fit, sheltered, Value.references, Callable.references.ofArgument]
  | frame g =>
    simp [Fit, sheltered, Value.references, Callable.references.ofArgument, eq_comm]
  | _ => simp [Fit, Value.references, Callable.references.ofArgument]

theorem calls_sheltered_iff (c : Callable) :
    (sheltered m f has).Calls c ↔ .frame f ∉ c.references := by
  cases c with
  | function id body closure =>
    cases closure <;> simp [Calls, sheltered, Callable.references, eq_comm]
  | native id fn => simp [Calls, sheltered, Callable.references]
  | thunk id func arg =>
    rw [Calls, calls_sheltered_iff func, fit_sheltered_iff arg, Callable.references,
      List.mem_append, not_or]
    rfl
  | undefined => simp [Calls, Callable.references]

end

/-- Natives do what the contract asks of them if the frame is not one they can refer to. -/
theorem supports_sheltered (grounded : env.Grounded h) (new : ¬ h.Has (.frame f)) :
    (sheltered m f has).Supports env where
  record _ _ := trivial
  native fn _ := by
    rw [Env.routine]
    split
    · exact Intrinsic.keeps_routine _
    · refine grounded.natives _ _ ⟨fun _ => trivial, fun _ => trivial, fun _ => trivial,
        fun _ => trivial, ?_⟩
      rintro _ old rfl
      exact new old
  parked _ := False.elim

/-- An instruction does what the contract asks of it unless it saves to a global slot. -/
theorem admitsNext_sheltered (grounded : env.Grounded h) (new : ¬ h.Has (.frame f)) {c : Config}
    (unsaved : ¬ c.SavesGlobal env.store) : (sheltered m f has).AdmitsNext env c := by
  intro a rest i head found
  cases i with
  | constPush v =>
    refine (fit_sheltered_iff v).2 fun refers => new ?_
    exact grounded.constants a.lambda v (Array.mem_of_getElem? found) _ refers
  | save storage slot =>
    cases storage with
    | var => trivial
    | global => exact (unsaved ⟨a, rest, slot, head, found⟩).elim
    | field => exact fun _ other => other
  | jump condition target => exact .inr fun _ => trivial
  | _ => trivial

/-- A machine observes the contract if nothing refers to its global frame yet. -/
theorem rests_sheltered (globals : m.globals = f) (parked : m.keeper.pool.All fun _ => False)
    (hidden : ∀ o, ∀ v ∈ m.heap.contents o, .frame f ∉ v.references) :
    (sheltered m f has).Rests m where
  bottom _ _ := rfl
  values i v high found := by
    have none : m.stack.values[i]? = none := Array.getElem?_eq_none high
    rw [none] at found
    cases found
  globals := globals
  heap :=
    { grown := .refl m.heap
      contents := fun o _ v inside => (fit_sheltered_iff v).2 (hidden o v inside)
      kept := fun _ _ => rfl }
  pool := parked

end Contract

/-! ## Runs that leave a frame alone -/

/-- The global frame of a machine holds the given values, and nothing refers to the frame. -/
structure Machine.Shelters (m : Machine) (f : FrameRef) (slots : Array Value) : Prop where
  globals : m.globals = f
  has : m.heap.Has (.frame f)
  slots : m.heap.slots f = slots
  hidden : ∀ o, ∀ v ∈ m.heap.contents o, .frame f ∉ v.references
  parked : m.keeper.pool.All fun _ => False

/-- Only globals, heap and pool matter. -/
theorem Machine.Shelters.congr {f : FrameRef} {slots : Array Value} {m m' : Machine}
    (shelters : m.Shelters f slots) (globals : m'.globals = m.globals) (heap : m'.heap = m.heap)
    (pool : m'.keeper.pool = m.keeper.pool) : m'.Shelters f slots where
  globals := globals.trans shelters.globals
  has := heap ▸ shelters.has
  slots := heap ▸ shelters.slots
  hidden := heap ▸ shelters.hidden
  parked := pool ▸ shelters.parked

/-- A machine that observes the contract leaves the frame alone. -/
theorem Contract.Rests.shelters {f : FrameRef} {m m' : Machine} {has : m.heap.Has (.frame f)}
    (rests : (Contract.sheltered m f has).Rests m') : m'.Shelters f (m.heap.slots f) where
  globals := rests.globals
  has := rests.heap.grown.has _ has
  slots := rests.heap.kept (.frame f) fun other => other rfl
  hidden o v inside := by
    have reads : (Contract.sheltered m f has).Reads o := (Classical.em (o = .frame f)).symm
    exact (Contract.fit_sheltered_iff v).1 (rests.heap.contents o reads v inside)
  parked := rests.pool

namespace Env

variable {env : Env} {h : Heap} {m m' : Machine} {f : FrameRef} {slots : Array Value}
  {r : RecordRef} {fuel : Nat}

/-- The instance that the host is given comes out of a run, which it leaves as it ended apart from the
stack. -/
theorem run_of_instantiate {result : Except Failure InstanceRef}
    (floor_le : m.stack.floor ≤ m.stack.height)
    (ended : env.instantiate fuel r m = some (result, m')) :
    ∃ outcome back, env.run fuel (making r m) = some (outcome, back) ∧
      m'.globals = back.globals ∧ m'.heap = back.heap ∧
      m'.keeper.pool = back.keeper.pool := by
  rw [instantiate, Option.map_eq_some_iff] at ended
  obtain ⟨⟨outcome, back⟩, ended, same⟩ := ended
  have served := (Contract.rests_whole m.keeper.pool.all_true).guarded
    (Contract.covers_free _ _ _ env) rfl (List.forall_mem_nil _) (Contract.entry_construct trivial)
    ended
  rw [guarded_eq, Option.map_eq_some_iff] at ended
  obtain ⟨⟨outcome', last⟩, ended, concluded⟩ := ended
  refine ⟨outcome', last, ended, ?_⟩
  cases outcome' with
  | error e =>
    cases concluded
    cases same
    simp
  | ok u =>
    cases concluded
    dsimp only at same
    rw [served.popInstance_eq floor_le] at same
    cases same
    simp

/-- Making an instance leaves the global frame alone at every point, if nothing refers to it and no
instruction saves to a global slot. -/
theorem shelters_making (grounded : env.Grounded h) (new : ¬ h.Has (.frame f))
    (start : m.Shelters f slots)
    (unsaved : ∀ c, env.Steps (making r m) c → ¬ c.SavesGlobal env.store) :
    (∀ c, env.Steps (making r m) c →
      c.machine.Shelters f slots ∧ m.heap.Extends c.machine.heap) ∧
      ∀ fuel result m', m.stack.floor ≤ m.stack.height →
        env.instantiate fuel r m = some (result, m') → m'.Shelters f slots := by
  have supports : (Contract.sheltered m f start.has).Supports env :=
    Contract.supports_sheltered grounded new
  have rests : (Contract.sheltered m f start.has).Rests m :=
    Contract.rests_sheltered start.globals start.parked start.hidden
  have entry : (Contract.sheltered m f start.has).Entry env (.construct r) :=
    Contract.entry_construct trivial
  obtain ⟨sound, -⟩ := rests.sound_started rfl (List.forall_mem_nil _) entry rfl
  have admits : ∀ c, env.Steps (making r m) c →
      (Contract.sheltered m f start.has).AdmitsNext env c := fun c steps =>
    Contract.admitsNext_sheltered grounded new (unsaved c steps)
  have points := fun c steps => sound.steps_of_admits supports (c := c) steps admits
  rw [← start.slots]
  refine ⟨fun c steps => ?_, fun fuel result m' floor_le ended => ?_⟩
  · have rests' := (points c steps).toRests
    exact ⟨rests'.shelters, rests'.heap.grown⟩
  · obtain ⟨outcome, back, ran, globals, heap, pool⟩ := run_of_instantiate floor_le ended
    obtain ⟨last, steps, halts⟩ := steps_of_run ran
    have rests' := (points last steps).rests_of_halted supports (admits last steps) halts
    exact rests'.shelters.congr globals heap pool

end Env

/-! ## What the global frame holds -/

/-- What the global frame holds when the given instances are in their slots. -/
def bootSlots (length : Nat) (made : List InstanceRef) : Array Value :=
  (made.map Value.record ++ List.replicate (length - made.length) Value.nil).toArray

/-- The instances fill the frame from its first slot on. -/
theorem setIfInBounds_bootSlots {length : Nat} {made : List InstanceRef} (i : InstanceRef)
    (room : made.length < length) :
    (bootSlots length made).setIfInBounds made.length (.record i) = bootSlots length (made ++ [i]) := by
  obtain ⟨left, more⟩ : ∃ left, length - made.length = left + 1 :=
    ⟨length - made.length - 1, by omega⟩
  have fewer : length - (made.length + 1) = left := by omega
  simp [bootSlots, more, fewer, List.replicate_succ]

/-- The first slot that is free is there. -/
theorem lt_size_bootSlots {length : Nat} {made : List InstanceRef} (room : made.length < length) :
    made.length < (bootSlots length made).size := by
  simp [bootSlots]
  omega

/-- Distinct instances, one for each of the first record types of a list. -/
structure Heap.Instances (h : Heap) (records : List (String × RecordRef)) (made : List InstanceRef) :
    Prop where
  nodup : made.Nodup
  record : ∀ (k : Nat) (i : InstanceRef), made[k]? = some i →
    ∃ (entry : String × RecordRef) (fields : Array Value),
      records[k]? = some entry ∧ h.instance? i = some ⟨entry.2, fields⟩

section

variable {h h' : Heap} {records : List (String × RecordRef)} {made : List InstanceRef}

/-- Instances stay what they are. -/
theorem Heap.Instances.extends (instances : h.Instances records made) (grown : h.Extends h') :
    h'.Instances records made where
  nodup := instances.nodup
  record k i found := by
    obtain ⟨entry, fields, listed, old⟩ := instances.record k i found
    obtain ⟨fields', same, -⟩ := grown.record i _ old
    exact ⟨entry, fields', listed, same⟩

/-- A new instance of the next record type is added. -/
theorem Heap.Instances.append {entry : String × RecordRef} {i : InstanceRef} {fields : Array Value}
    (instances : h.Instances records made) (grown : h.Extends h') (new : ¬ h.Has (.record i))
    (listed : records[made.length]? = some entry)
    (found : h'.instance? i = some ⟨entry.2, fields⟩) : h'.Instances records (made ++ [i]) where
  nodup := by
    refine List.nodup_append.2 ⟨instances.nodup, by simp, ?_⟩
    rintro j before _ inside rfl
    obtain ⟨k, found⟩ := List.mem_iff_getElem?.1 before
    obtain ⟨entry, fields, -, old⟩ := instances.record k j found
    cases List.mem_singleton.1 inside
    exact new (Array.getElem?_eq_some_iff.1 old).1
  record k j at_k := by
    rcases Nat.lt_or_ge k made.length with before | last
    · rw [List.getElem?_append_left before] at at_k
      exact (instances.extends grown).record k j at_k
    · rw [List.getElem?_append_right last, List.getElem?_singleton] at at_k
      split at at_k
      · next first =>
        cases at_k
        have same : k = made.length := by omega
        exact ⟨entry, fields, same ▸ listed, found⟩
      · cases at_k

end

namespace Machine

/-- The frame is still sheltered when a value that does not refer to it is put into it. -/
theorem Shelters.setSlot {f : FrameRef} {slots : Array Value} {slot : Nat} {v : Value} {m : Machine}
    (shelters : m.Shelters f slots) (bound : slot < slots.size) (apart : .frame f ∉ v.references) :
    (m.setSlot f slot v).Shelters f (slots.setIfInBounds slot v) := by
  obtain ⟨heap, globals, pool⟩ := setSlot_eq v (shelters.slots.symm ▸ bound)
  refine
    { globals := globals.trans shelters.globals
      has := ?_
      slots := ?_
      hidden := ?_
      parked := pool ▸ shelters.parked }
  · rw [heap]
    exact (Heap.extends_put _ _ _ _).has _ shelters.has
  · rw [heap, ← shelters.slots]
    exact Heap.contents_put_self _ (.frame f) _ _
  · intro o w held
    rw [heap, Heap.contents_put] at held
    split at held
    · rcases Array.mem_or_eq_of_mem_setIfInBounds held with old | rfl
      · exact shelters.hidden _ w old
      · exact apart
    · exact shelters.hidden o w held

/-- The machine while module bootup is making instances: those that were made are in their slots of the
global frame, which nothing refers to, and the stack is as it was. -/
structure Filled (f : FrameRef) (stack : Stack) (length : Nat) (records : List (String × RecordRef))
    (made : List InstanceRef) (m : Machine) : Prop where
  shelters : m.Shelters f (bootSlots length made)
  stack : m.stack = stack
  instances : m.heap.Instances records made

variable {env : Env} {h : Heap} {f : FrameRef} {stack : Stack} {length fuel : Nat}
  {records : List (String × RecordRef)} {made : List InstanceRef} {m m' : Machine}

/-- The global frame is empty and sheltered when it is made. -/
theorem filled_initGlobals (records : List (String × RecordRef))
    (parked : m.keeper.pool.All fun _ => False)
    (inside : ∀ o, ∀ v ∈ m.heap.contents o, ∀ p ∈ v.references, m.heap.Has p) (length : Nat) :
    Filled ⟨m.heap.frames.size⟩ m.stack length records [] (m.initGlobals length).2 := by
  have heap := heap_initGlobals parked length
  refine
    { shelters :=
        { globals := (globals_initGlobals m length).2
          has := ?_
          slots := ?_
          hidden := ?_
          parked := all_initGlobals parked length }
      stack := m.stack_initGlobals length
      instances := ⟨List.nodup_nil, nofun⟩ }
  · rw [heap]
    simp [Heap.Has, Heap.addFrame]
  · rw [heap]
    simp [bootSlots, Heap.addFrame, Heap.slots]
  · intro o v held refers
    rw [heap, Heap.contents_addFrame] at held
    split at held
    · rw [Array.eq_of_mem_replicate held] at refers
      cases refers
    · exact Nat.lt_irrefl _ (inside o v held _ refers)

/-- One more instance is made and put into its slot. -/
theorem Filled.next {entry : String × RecordRef} {i : InstanceRef}
    (filled : Filled f stack length records made m) (grounded : env.Grounded h)
    (new : ¬ h.Has (.frame f)) (floor_le : stack.floor ≤ stack.height)
    (room : records.length ≤ length) (listed : records[made.length]? = some entry)
    (unsaved : ∀ c, env.Steps (Env.making entry.2 m) c → ¬ c.SavesGlobal env.store)
    (ended : env.instantiate fuel entry.2 m = some (.ok i, m')) :
    Filled f stack length records (made ++ [i])
      ((m'.setSlot f made.length (.record i)).hold (.record i)) := by
  have floor_le' : m.stack.floor ≤ m.stack.height := filled.stack ▸ floor_le
  have bound : made.length < length :=
    Nat.lt_of_lt_of_le (List.getElem?_eq_some_iff.1 listed).1 room
  obtain ⟨-, after⟩ := Env.shelters_making grounded new filled.shelters unsaved
  have shelters := after _ _ _ floor_le' ended
  have there := lt_size_bootSlots bound
  have answered := (Contract.rests_whole m.keeper.pool.all_true).instantiate
    (Contract.covers_free _ _ _ env) rfl trivial floor_le' ended
  obtain ⟨fresh, ⟨fields, found⟩, -⟩ := answered.ok i rfl
  have placed := shelters.setSlot there (v := .record i) (by
    simp [Value.references, Callable.references.ofArgument])
  rw [setIfInBounds_bootSlots i bound] at placed
  have unheld : ¬ m.heap.Has (.record i) := fresh ▸ Nat.lt_irrefl _
  have instances := filled.instances.append answered.grown unheld listed found
  refine
    { shelters := placed.congr rfl rfl rfl
      stack := (stack_setSlot m' f _ _).trans (answered.stack.trans filled.stack)
      instances := ?_ }
  rw [hold, (setSlot_eq _ (shelters.slots.symm ▸ there)).1]
  exact instances.extends (Heap.extends_put _ _ _ _)

/-- The invariant of the loop: it holds at all machines that module bootup comes through. -/
theorem filled_of_booting {m₀ : Machine} (start : Filled f stack length records [] m₀)
    (grounded : env.Grounded h) (new : ¬ h.Has (.frame f)) (floor_le : stack.floor ≤ stack.height)
    (room : records.length ≤ length)
    (unsaved : ∀ made m entry c, env.Booting fuel f records m₀ made m →
      records[made.length]? = some entry → env.Steps (Env.making entry.2 m) c →
      ¬ c.SavesGlobal env.store)
    (booting : env.Booting fuel f records m₀ made m) : Filled f stack length records made m := by
  induction booting with
  | start => exact start
  | next before listed ended ih =>
    exact ih.next grounded new floor_le room listed
      (fun c => unsaved _ _ _ c before listed) ended

end Machine

namespace Env

variable {env : Env} {m : Machine} {r : Registry} {fuel globals : Nat}

section

variable (floor_le : m.stack.floor ≤ m.stack.height) (parked : m.keeper.pool.All fun _ => False)
  (grounded : env.Grounded m.heap)
  (unsaved : ∀ made c, env.Initialises fuel r globals m made c → ¬ c.SavesGlobal env.store)

include floor_le parked grounded unsaved

/-- The new global frame is filled in order if no initialiser writes to it. -/
theorem Boots.filled {made : List InstanceRef} {m' : Machine}
    (boots : env.Boots fuel r globals m made m') :
    m'.Filled ⟨m.heap.frames.size⟩ m.stack (max globals r.records.size) r.records.toList made := by
  have start := Machine.filled_initGlobals r.records.toList parked grounded.contents
    (max globals r.records.size)
  have boots_iff : ∀ made m', env.Boots fuel r globals m made m' ↔
      env.Booting fuel ⟨m.heap.frames.size⟩ r.records.toList
        (m.initGlobals (max globals r.records.size)).2 made m' := by
    intro made m'
    rw [← (Machine.globals_initGlobals m _).1, Boots]
  refine Machine.filled_of_booting start grounded (Nat.lt_irrefl _) floor_le
    (Nat.le_max_right _ _) ?_ ((boots_iff _ _).1 boots)
  intro made back entry c booting listed steps
  exact unsaved made c ⟨back, entry, (boots_iff _ _).2 booting, listed, steps⟩

/-- Module bootup gives the machine a new global frame and fills its slots in order with distinct
instances of the loaded record types. Whenever an initialiser is at work, the slots of the modules
before it are filled and the others are nil. The stack is left as it was, also when bootup fails. -/
theorem bootup_fills_globals :
    (∀ made c, env.Initialises fuel r globals m made c →
      c.machine.globals = ⟨m.heap.frames.size⟩ ∧
      c.machine.heap.slots ⟨m.heap.frames.size⟩ = bootSlots (max globals r.records.size) made ∧
      c.machine.heap.Instances r.records.toList made) ∧
    ∀ result m', env.bootup fuel r globals m = some (result, m') →
      m'.stack = m.stack ∧ ∀ made, result = .ok made →
        m'.globals = ⟨m.heap.frames.size⟩ ∧ m'.heap.Has (.frame ⟨m.heap.frames.size⟩) ∧
        m'.heap.slots ⟨m.heap.frames.size⟩ = bootSlots (max globals r.records.size) made ∧
        made.length = r.records.size ∧ m'.heap.Instances r.records.toList made ∧
        ∀ before c, env.Initialises fuel r globals m before c → before <+: made := by
  have filled : ∀ made m', env.Boots fuel r globals m made m' → _ := fun made m' boots =>
    boots.filled floor_le parked grounded unsaved
  constructor
  · rintro made c ⟨back, entry, boots, listed, steps⟩
    have at_start := filled made back boots
    obtain ⟨points, -⟩ := shelters_making grounded (Nat.lt_irrefl _) at_start.shelters
      fun c steps => unsaved made c ⟨back, entry, boots, listed, steps⟩
    obtain ⟨shelters, grown⟩ := points c steps
    exact ⟨shelters.globals, shelters.slots, at_start.instances.extends grown⟩
  · intro result m' ended
    obtain ⟨frame, m₀, back, begun, done, rfl⟩ := boot_of_bootup ended
    have boots_iff : ∀ made m', env.Boots fuel r globals m made m' ↔
        env.Booting fuel frame r.records.toList m₀ made m' := fun made m' => by rw [Boots, begun]
    have begins : env.Booting fuel frame r.records.toList m₀ [] m₀ := .start
    obtain ⟨finish, fail⟩ := begins.ends rfl done
    cases result with
    | error e =>
      refine ⟨?_, nofun⟩
      obtain ⟨made, before, after, record, -, booting, failed, rfl⟩ := fail e rfl
      have at_start := filled made before ((boots_iff _ _).2 booting)
      have answered := (Contract.rests_whole before.keeper.pool.all_true).instantiate
        (Contract.covers_free _ _ _ env) rfl trivial (at_start.stack.symm ▸ floor_le) failed
      rw [Machine.pin, Machine.stack_letGoAll]
      exact answered.stack.trans at_start.stack
    | ok made =>
      obtain ⟨-, length, booting⟩ := finish made rfl
      have at_end := filled made back ((boots_iff _ _).2 booting)
      refine ⟨at_end.stack, ?_⟩
      rintro _ ⟨⟩
      refine ⟨at_end.shelters.globals, at_end.shelters.has, at_end.shelters.slots, length,
        at_end.instances, ?_⟩
      rintro before c ⟨back', entry, boots, listed, steps⟩
      have meets := (boots_iff _ _).1 boots
      rw [meets.boot_eq] at done
      exact ((meets.ends rfl done).1 made rfl).1

end

/-- Two modules, the second of which keeps the first one in a field. -/
def keeping : Env where
  store :=
    { programs := #[some #[], some #[.load .global 0, .load .var 0, .save .field 0, .pop]]
      lambdas :=
        #[{ code := ⟨0⟩, maxStack := 0, params := 1, vars := 1 },
          { code := ⟨1⟩, maxStack := 2, params := 1, vars := 1 }]
      records := #[{ size := 0, init := ⟨0⟩ }, { size := 1, init := ⟨1⟩ }] }
  host _ := .done ()

/-- The modules of `keeping` as they are registered. -/
def kept : Registry :=
  ((({} : Registry).loadRecord "first" ⟨0⟩).2.loadRecord "second" ⟨1⟩).2

/-- The code of `keeping` does not save to global slots and has no constants. -/
theorem code_keeping {p : ProgramRef} {i : Instr} (inside : i ∈ keeping.store.code p) :
    (∀ slot, i ≠ .save .global slot) ∧ ∀ v, i ≠ .constPush v := by
  rcases p with ⟨_ | _ | p⟩
  · simp [keeping, Store.code, Store.code?] at inside
  · have listed : i = .load .global 0 ∨ i = .load .var 0 ∨ i = .save .field 0 ∨ i = .pop := by
      simpa [keeping, Store.code, Store.code?] using inside
    obtain rfl | rfl | rfl | rfl := listed <;> simp
  · simp [keeping, Store.code, Store.code?] at inside

theorem grounded_keeping : keeping.Grounded (Machine.new {}).heap where
  contents o v inside := by
    rw [Machine.contents_new] at inside
    cases Array.not_mem_empty v inside
  constants l v inside := ((code_keeping inside).2 v rfl).elim
  natives _ _ _ := trivial

/-- Bootup of two modules into a frame of three slots. -/
theorem bootup_fills_globals_keeping :
    (∃ c, keeping.Initialises 9 kept 3 (.new {}) [⟨0⟩] c ∧
      c.machine.heap.slots c.machine.globals = #[.record ⟨0⟩, .nil, .nil]) ∧
    ∃ made m', keeping.bootup 9 kept 3 (.new {}) = some (.ok made, m') ∧ made = [⟨0⟩, ⟨1⟩] ∧
      m'.heap.slots m'.globals = #[.record ⟨0⟩, .record ⟨1⟩, .nil] ∧
      m'.stack = (Machine.new {}).stack := by
  have unsaved : ∀ made c, keeping.Initialises 9 kept 3 (.new {}) made c →
      ¬ c.SavesGlobal keeping.store := by
    rintro made c - ⟨a, rest, slot, -, found⟩
    exact (code_keeping (Array.mem_of_getElem? found)).1 slot rfl
  have fills := bootup_fills_globals (Nat.le_refl _) (Machine.ready_new {}).parked grounded_keeping
    unsaved
  constructor
  · obtain ⟨i, m, ended, first⟩ := exists_of_any (p := (· = ⟨0⟩))
      (x := keeping.instantiate 9 ⟨0⟩ ((Machine.new {}).initGlobals 3).2) (by decide +kernel)
    cases of_decide_eq_true first
    have boots : keeping.Boots 9 kept 3 (.new {}) [⟨0⟩] _ := Booting.start.next rfl ended
    have meets : keeping.Initialises 9 kept 3 (.new {}) [⟨0⟩] _ :=
      ⟨_, ("second", ⟨1⟩), boots, rfl, .refl _⟩
    obtain ⟨globals, slots, -⟩ := fills.1 _ _ meets
    exact ⟨_, meets, globals ▸ slots⟩
  · obtain ⟨made, m', ended, two⟩ := exists_of_any (p := (· = [⟨0⟩, ⟨1⟩]))
      (x := keeping.bootup 9 kept 3 (.new {})) (by decide +kernel)
    obtain ⟨stack, filled⟩ := fills.2 _ _ ended
    obtain ⟨globals, -, slots, -⟩ := filled made rfl
    rw [of_decide_eq_true two] at slots
    exact ⟨made, m', ended, of_decide_eq_true two, globals ▸ slots, stack⟩

end Env

end PlotMachine
