import PlotMachine.Proofs.Bootup
import PlotMachine.Proofs.Loading

/-!
# Images that were loaded run safely

All code that an image was accepted with is valid, and it refers to nothing but the code of the same
image. A run of an image starts from that code with an empty global frame, and everything it can
read it has made itself. So the contract `Contract.loaded` holds throughout: every callable there is
has valid code, be it a constant, bound, captured or stored in an object. `Host.runImage_safe` draws
the conclusions.
-/

namespace PlotMachine

/-! ## Code that was accepted -/

namespace Image

/-- An image was loaded where all natives are those of the library, and its code is still in the
store. -/
def Accepted (image : Image) (s : Store) : Prop :=
  ∃ (h h' : Host) (f : ImageFile), (∀ fn ∈ h.registry.natives, ∃ i, fn.entry = .library i) ∧
    h.loadFile f = (.ok image, h') ∧ h'.store.Extends s

/-- The file that an image was made of, and what was made of it in the store. -/
theorem Accepted.exists_file {image : Image} {s : Store} (accepted : image.Accepted s) :
    ∃ (f : ImageFile) (r : Registry) (s₀ : Store), f.WellFormed r ∧ f.Built r image s₀ s ∧
      ∀ fn ∈ r.natives, ∃ i, fn.entry = .library i := by
  obtain ⟨h, h', f, library, found, grown⟩ := accepted
  have loaded := Host.loaded_of_loadFile found
  exact ⟨f, h.registry, h.store, loaded.formed, loaded.built.extends grown, library⟩

/-- An image stays accepted when more code is added to the store. -/
theorem Accepted.extends {image : Image} {s s' : Store} (accepted : image.Accepted s)
    (grown : s.Extends s') : image.Accepted s' := by
  obtain ⟨h, h', f, library, found, before⟩ := accepted
  exact ⟨h, h', f, library, found, before.trans grown⟩

/-- The code of an image passes its checks and refers to nothing outside the image. -/
theorem Accepted.closed {image : Image} {s : Store} (accepted : image.Accepted s) :
    s.Closed (· ∈ image.lambdas) (· ∈ image.records) := by
  obtain ⟨f, r, s₀, formed, built, -⟩ := accepted.exists_file
  exact built.closed formed.toBounded

end Image

namespace Store

variable (s : Store)

/-- A lambda belongs to an image that was accepted. -/
def Trusts (l : LambdaRef) : Prop := ∃ image : Image, image.Accepted s ∧ l ∈ image.lambdas

/-- A record type belongs to an image that was accepted. -/
def TrustsRecord (t : RecordRef) : Prop := ∃ image : Image, image.Accepted s ∧ t ∈ image.records

end Store

namespace Contract

/-- The contract of a run of code that was accepted: values refer to nothing but what the run has made,
callables run accepted code or natives of the library, and no failure is about a label. -/
def loaded (s : Store) (m : Machine) (globals : FrameRef) : Contract where
  bottom := m.stack.values
  start := m.heap
  globals
  -- what was there before the run may hold code that was never checked
  holds o := ¬ m.heap.Has o
  writes _ := True
  lambda := s.Trusts
  record := s.TrustsRecord
  native fn := ∃ i, fn.entry = .library i
  failure f := f.fault.isLabelFault = false
  parked _ := False
  holds_new _ new := new
  writes_new _ _ := trivial
  writes_array _ _ := trivial
  failure_of _ tame := tame
  failure_locate f p tame := by rwa [Failure.fault_locate]

variable {s : Store} {m : Machine} {globals : FrameRef}

/-- An instruction that needs no operand does nothing that a contract rules out. -/
theorem admits_of_form {K : Contract} {op : Opcode} {i : Instr} (form : op.form = .plain i)
    (home : ProgramRef) (length : Nat) : K.Admits home length i := by
  cases op <;> cases form <;> trivial

/-- The code of an image that was accepted does what the contract asks of it. -/
theorem admits_loaded {image : Image} (accepted : image.Accepted s) {l : LambdaRef}
    (inside : l ∈ image.lambdas) {i : Instr} (here : i ∈ s.body l) :
    (loaded s m globals).Admits (s.lambda l).code (s.body l).size i := by
  have lambda : ∀ l, l ∈ image.lambdas → s.Trusts l := fun l listed => ⟨image, accepted, listed⟩
  have record : ∀ t, t ∈ image.records → s.TrustsRecord t := fun t listed => ⟨image, accepted, listed⟩
  obtain ⟨f, r, s₀, formed, built, library⟩ := accepted.exists_file
  obtain ⟨n, there⟩ := Array.mem_iff_getElem?.1 inside
  obtain ⟨d, found, -⟩ := built.holds (.lambda n) l there
  have installed := built.installed found there
  obtain ⟨offset, at_offset⟩ := Array.mem_iff_getElem?.1 here
  obtain ⟨i, listed, o, decoded, makes⟩ := installed.exists_instrDef at_offset
  -- what the instruction refers to was made for the same image
  cases InstrDef.decoded_of_decode decoded with
  | simple named form =>
    cases makes
    exact admits_of_form form _ _
  | intPush named given =>
    cases makes
    trivial
  | load named given =>
    cases makes
    trivial
  | @save storage n named given =>
    cases makes
    cases storage with
    | var => trivial
    | global => trivial
    | field => exact fun _ _ => trivial
  | @literal c v pushes known =>
    cases makes
    cases c <;> cases known <;> trivial
  | native pushes offered =>
    cases makes
    exact library _ (List.mem_of_find?_eq_some offered)
  | lambda pushes =>
    cases makes
    trivial
  | function pushes =>
    cases makes with
    | functionValue _ _ made => exact ⟨lambda _ (Array.mem_of_getElem? made), nofun⟩
  | builtin named given offered =>
    cases makes
    exact library _ (List.mem_of_find?_eq_some offered)
  | jump named given =>
    cases makes
    refine .inl ⟨rfl, ?_⟩
    rw [installed.size]
    exact formed.jumps d (List.mem_of_getElem? found) i listed _
      (InstrDef.jumpsTo_of_mnemonic named given)
  | makeFunc named given =>
    cases makes with
    | lambda _ made => exact lambda _ (Array.mem_of_getElem? made)
  | alloc named given =>
    cases makes with
    | record _ made => exact record _ (Array.mem_of_getElem? made)

/-- Code that was accepted does what the contract asks of it. -/
theorem covers_loaded (host : String → Routine Unit) : (loaded s m globals).Covers ⟨s, host⟩ where
  instr l := by
    rintro ⟨image, accepted, inside⟩ i here
    exact admits_loaded accepted inside here
  record t := by
    rintro ⟨image, accepted, inside⟩
    exact ⟨image, accepted, (accepted.closed.record t inside).2⟩
  native fn := by
    rintro ⟨i, library⟩
    rw [Env.routine, library]
    exact i.keeps_routine
  parked _ := False.elim

end Contract

/-! ## Points of a run -/

/-- What is done next finds what it needs: an instruction finds its slot in the running frame, and an
initialiser takes exactly the instance. -/
structure Config.Safe (s : Store) (c : Config) : Prop where
  slot : ∀ a rest i, c.tasks = .body a :: rest → (s.body a.lambda)[a.offset]? = some i →
    ∀ slot, i = .load .var slot ∨ i = .save .var slot → slot < (c.machine.heap.slots a.frame).size
  alloc : ∀ a rest t, c.tasks = .body a :: rest → (s.body a.lambda)[a.offset]? = some (.alloc t) →
    (s.lambda (s.record t).init).params = 1
  construct : ∀ t rest, c.tasks = .construct t :: rest → (s.lambda (s.record t).init).params = 1

theorem Store.params_of_checkInit {s : Store} {record : Record}
    (ok : s.checkInit record = .ok ()) : (s.lambda record.init).params = 1 := by
  rw [checkInit] at ok
  split at ok
  · next one => exact one
  · cases ok

namespace Contract

variable {s : Store} {host : String → Routine Unit} {m₀ m : Machine} {globals : FrameRef}

/-- The initialiser of a record type that was accepted takes exactly the instance. -/
theorem params_init {t : RecordRef} (trusted : s.TrustsRecord t) :
    (s.lambda (s.record t).init).params = 1 := by
  obtain ⟨image, accepted, inside⟩ := trusted
  exact Store.params_of_checkInit (accepted.closed.record t inside).1

/-- A point of a run that observes the contract is safe. -/
theorem Sound.safe {maxDepth : Nat} {outer : Stack.Limits} {c : Config}
    (sound : (loaded s m₀ globals).Sound ⟨s, host⟩ maxDepth outer c.tasks c.machine) : c.Safe s where
  slot a rest i head found slot uses := by
    rw [head] at sound
    have runs : (loaded s m₀ globals).Runs ⟨s, host⟩ c.machine.heap a := sound.head
    obtain ⟨image, accepted, inside⟩ := runs.lambda
    have checked := (accepted.closed.lambda _ inside).instr _ _ found
    -- validation compares the slot with the variables, and the frame has room for all of them
    have less : slot < (s.lambda a.lambda).vars := by
      rcases uses with rfl | rfl <;> exact Store.checkSlot_eq_ok_iff.1 checked
    exact Nat.lt_of_lt_of_le less runs.room
  alloc a rest t head found := by
    rw [head] at sound
    have runs : (loaded s m₀ globals).Runs ⟨s, host⟩ c.machine.heap a := sound.head
    obtain ⟨image, accepted, inside⟩ := runs.lambda
    have listed := (accepted.closed.dependency _ inside _ (Array.mem_of_getElem? found)).2 t rfl
    exact params_init ⟨image, accepted, listed⟩
  construct t rest head := by
    rw [head] at sound
    have trusted : s.TrustsRecord t := sound.head
    exact params_init trusted

/-- Every point of a call from the host is safe. -/
theorem Rests.safe {t : Task} {c : Config} (rests : (loaded s m₀ globals).Rests m)
    (whole : (loaded s m₀ globals).bottom = m.stack.values)
    (entry : (loaded s m₀ globals).Entry ⟨s, host⟩ t)
    (steps : Env.Steps ⟨s, host⟩ ⟨[t], { m with stack := m.stack.raiseFloor }⟩ c) : c.Safe s := by
  obtain ⟨sound, -⟩ := rests.sound_started whole (List.forall_mem_nil _) entry rfl
  obtain ⟨tasks, same, sound', -⟩ := sound.above (covers_loaded host) steps.above
  rw [List.append_nil] at same
  subst same
  exact sound'.safe

end Contract

/-! ## Module bootup -/

namespace Contract

variable {s : Store} {host : String → Routine Unit} {m₀ m : Machine} {globals : FrameRef}

/-- A machine that is ready observes the contract when it has a new global frame. -/
theorem rests_initGlobals (ready : m.Ready) (length : Nat) :
    (loaded s m ⟨m.heap.frames.size⟩).Rests (m.initGlobals length).2 := by
  have heap := Machine.heap_initGlobals ready.parked length
  have fit : ∀ v ∈ Array.replicate length .nil, (loaded s m ⟨m.heap.frames.size⟩).Fit v :=
    fun v inside => by
      rw [Array.eq_of_mem_replicate inside]
      trivial
  have tends : (loaded s m ⟨m.heap.frames.size⟩).Tends m.heap :=
    { grown := .refl m.heap
      contents := fun o reads v inside => by
        -- nothing that may be read is there yet, the new global frame included
        have new : ¬ m.heap.Has o := by
          rcases reads with held | rfl
          · exact held
          · exact Nat.lt_irrefl _
        rw [Heap.contents_eq_empty new] at inside
        exact absurd inside (Array.not_mem_empty v)
      kept := fun _ locked => absurd trivial locked }
  exact
    { bottom := fun i _ => by rw [Machine.stack_initGlobals]; rfl
      values := fun i v high found => by
        have none : m.stack.values[i]? = none := Array.getElem?_eq_none high
        rw [Machine.stack_initGlobals, none] at found
        cases found
      globals := (Machine.globals_initGlobals m length).2
      heap := by rw [heap]; exact tends.addFrame fit
      pool := Machine.all_initGlobals ready.parked length }

/-- A machine still observes the contract when a new instance is put into a global slot. -/
theorem Rests.setSlot {v : Value} (rests : (loaded s m₀ globals).Rests m)
    (fit : (loaded s m₀ globals).Fit v) (slot : Nat) :
    (loaded s m₀ globals).Rests (m.setSlot globals slot v) := by
  rw [Machine.setSlot, Exec.put]
  cases m.heap.get (.frame globals) slot with
  | error e => exact rests
  | ok old =>
    have tends : (loaded s m₀ globals).Tends (m.heap.put (.frame globals) slot v) :=
      rests.heap.put trivial slot fit
    have put : (loaded s m₀ globals).Rests { m with heap := m.heap.put (.frame globals) slot v } :=
      { rests with heap := tends }
    exact put.congr (by simp) (by simp) (by simp) (by simpa using put.pool)

end Contract

namespace Env

/-- A point that module bootup comes through, where the instances in `made` were made before. -/
inductive BootMeets (env : Env) (globals : FrameRef) :
    List InstanceRef → List (String × RecordRef) → Machine → Config → Prop
  | here {made : List InstanceRef} {module : String} {record : RecordRef}
      {rest : List (String × RecordRef)} {m : Machine} {c : Config}
      (steps : env.Steps ⟨[.construct record], { m with stack := m.stack.raiseFloor }⟩ c) :
      BootMeets env globals made ((module, record) :: rest) m c
  | later {fuel : Nat} {made : List InstanceRef} {module : String} {record : RecordRef}
      {rest : List (String × RecordRef)} {m m' : Machine} {i : InstanceRef} {c : Config}
      (ended : env.instantiate fuel record m = some (.ok i, m'))
      (next : BootMeets env globals (made ++ [i]) rest
        ((m'.setSlot globals made.length (.record i)).hold (.record i)) c) :
      BootMeets env globals made ((module, record) :: rest) m c

end Env

namespace Contract

variable {s : Store} {host : String → Routine Unit} {m₀ m m' : Machine} {globals : FrameRef}
  {fuel : Nat} {made : List InstanceRef} {records : List (String × RecordRef)}

/-- A machine that observes the contract while nothing is on the stack but what was there before. -/
structure Boots (s : Store) (m₀ : Machine) (globals : FrameRef) (m : Machine) : Prop where
  rests : (loaded s m₀ globals).Rests m
  stack : m.stack = m₀.stack

/-- Letting go of values and pinning others makes no difference. -/
theorem Boots.congr (boots : Boots s m₀ globals m) (stack : m'.stack = m.stack)
    (heap : m'.heap = m.heap) (same : m'.globals = m.globals)
    (pool : m'.keeper.pool = m.keeper.pool) : Boots s m₀ globals m' where
  rests := boots.rests.congr (by rw [stack]) heap same (by rw [pool]; exact boots.rests.pool)
  stack := stack.trans boots.stack

theorem Boots.letGoAll (boots : Boots s m₀ globals m) (values : List Value) :
    Boots s m₀ globals (m.letGoAll values) :=
  boots.congr (by simp) (by simp) (by simp) (by simp)

/-- The stack of a machine that is booted is out of reach of the contract. -/
theorem Boots.whole (boots : Boots s m₀ globals m) :
    (loaded s m₀ globals).bottom = m.stack.values := by
  rw [boots.stack]
  rfl

/-- An instance that is made for the host leaves the machine as the contract wants it. -/
theorem Boots.instantiate {record : RecordRef} {result : Except Failure InstanceRef}
    (boots : Boots s m₀ globals m) (ready : m₀.Ready) (trusted : s.TrustsRecord record)
    (ended : Env.instantiate ⟨s, host⟩ fuel record m = some (result, m')) :
    Boots s m₀ globals m' ∧ (∀ i, result = .ok i → (loaded s m₀ globals).Fit (.record i)) ∧
      ∀ f, result = .error f → f.fault.isLabelFault = false := by
  have floor_le : m.stack.floor ≤ m.stack.height := by
    rw [boots.stack, ready.floor_eq]
    exact Nat.zero_le _
  have answered := boots.rests.instantiate (covers_loaded host) boots.whole trusted floor_le ended
  refine ⟨⟨answered.rests, answered.stack.trans boots.stack⟩, ?_, answered.error⟩
  intro i same
  obtain ⟨rfl, -⟩ := answered.ok i same
  exact boots.rests.heap.not_has_start (Nat.lt_irrefl _)

/-- An instance that was made is put into its slot and held. -/
theorem Boots.place {i : InstanceRef} (boots : Boots s m₀ globals m)
    (fit : (loaded s m₀ globals).Fit (.record i)) (slot : Nat) :
    Boots s m₀ globals ((m.setSlot globals slot (.record i)).hold (.record i)) := by
  have placed : Boots s m₀ globals (m.setSlot globals slot (.record i)) :=
    ⟨boots.rests.setSlot fit slot, (m.stack_setSlot _ _ _).trans boots.stack⟩
  exact placed.congr rfl rfl rfl rfl

/-- Module bootup comes through machines that are as the contract wants them. -/
theorem Boots.booting {m₁ : Machine} (ready : m₀.Ready)
    (trusted : ∀ entry ∈ records, s.TrustsRecord entry.2) (boots : Boots s m₀ globals m₁)
    (booting : Env.Booting ⟨s, host⟩ fuel globals records m₁ made m) : Boots s m₀ globals m := by
  induction booting with
  | start => exact boots
  | next before listed ended ih =>
    obtain ⟨boots', fit, -⟩ := ih.instantiate ready (trusted _ (List.mem_of_getElem? listed)) ended
    exact boots'.place (fit _ rfl) _

/-- Module bootup leaves the machine as the contract wants it, and it does not fail about a label. -/
theorem Boots.boot {result : Except BootError (List InstanceRef)} (ready : m₀.Ready)
    (trusted : ∀ entry ∈ records, s.TrustsRecord entry.2) (boots : Boots s m₀ globals m)
    (ended : Env.boot ⟨s, host⟩ fuel globals [] records m = some (result, m')) :
    Boots s m₀ globals m' ∧ ∀ e, result = .error e → e.failure.fault.isLabelFault = false := by
  have begins : Env.Booting ⟨s, host⟩ fuel globals records m [] m := .start
  obtain ⟨finish, fail⟩ := begins.ends rfl ended
  cases result with
  | ok final =>
    obtain ⟨-, -, booting⟩ := finish final rfl
    refine ⟨boots.booting ready trusted booting, ?_⟩
    rintro e ⟨⟩
  | error e =>
    obtain ⟨made, before, after, record, listed, booting, failed, rfl⟩ := fail e rfl
    obtain ⟨boots', -, tame⟩ :=
      (boots.booting ready trusted booting).instantiate ready (trusted _ listed) failed
    refine ⟨boots'.letGoAll _, ?_⟩
    rintro _ ⟨⟩
    exact tame _ rfl

/-- Every point of module bootup is safe. -/
theorem Boots.safe {c : Config} (ready : m₀.Ready)
    (trusted : ∀ entry ∈ records, s.TrustsRecord entry.2) (boots : Boots s m₀ globals m)
    (meets : Env.BootMeets ⟨s, host⟩ globals made records m c) : c.Safe s := by
  induction meets with
  | here steps =>
    have entry : (loaded s m₀ globals).Entry ⟨s, host⟩ (.construct _) :=
      entry_construct (trusted _ List.mem_cons_self)
    exact boots.rests.safe boots.whole entry steps
  | @later fuel made module record rest m m' i c ended next ih =>
    have rest_trusted : ∀ entry ∈ rest, s.TrustsRecord entry.2 :=
      fun entry listed => trusted entry (List.mem_cons_of_mem _ listed)
    obtain ⟨boots', fit, -⟩ := boots.instantiate ready (trusted _ List.mem_cons_self) ended
    exact ih rest_trusted (boots'.place (fit i rfl) made.length)

/-- A machine that is ready boots from a new global frame. -/
theorem boots_initGlobals {length : Nat} (ready : m.Ready)
    (begun : m.initGlobals length = (globals, m')) : Boots s m globals m' := by
  have frame := (Machine.globals_initGlobals m length).1
  have stack := m.stack_initGlobals length
  have rests := rests_initGlobals (s := s) ready length
  rw [begun] at frame stack rests
  cases frame
  exact ⟨rests, stack⟩

end Contract

/-! ## Runs of images -/

namespace Host

/-- A point that a run of an image comes through: of module bootup, or of the entry lambda when all
modules are booted. -/
inductive Meets (h : Host) (image : Image) : Config → Prop
  | boot {frame : FrameRef} {m : Machine} {c : Config}
      (begun : h.machine.initGlobals (max image.globals h.registry.records.size) = (frame, m))
      (meets : h.env.BootMeets frame [] h.registry.records.toList m c) : Meets h image c
  | entry {fuel : Nat} {instances : List InstanceRef} {booted m : Machine} {c : Config}
      (ended : h.env.bootup fuel h.registry image.globals h.machine = some (.ok instances, booted))
      (begun : booted.letGoAll (instances.map .record) = m)
      (takes : (h.store.lambda image.entry).params = 0)
      (steps : h.env.Steps
        ⟨[.call (.function m.heap.nextCallable image.entry none)],
          { m with heap := m.heap.takeNumber.2, stack := m.stack.raiseFloor }⟩ c) : Meets h image c

variable {h : Host} {image : Image}

/-- Module bootup leaves the machine as the contract of the run wants it. -/
theorem boots_bootup {fuel : Nat} {result : Except BootError (List InstanceRef)} {booted : Machine}
    (ready : h.machine.Ready)
    (trusted : ∀ entry ∈ h.registry.records.toList, h.store.TrustsRecord entry.2)
    (ended : h.env.bootup fuel h.registry image.globals h.machine = some (result, booted)) :
    ∃ frame, Contract.Boots h.store h.machine frame booted ∧
      ∀ e, result = .error e → e.failure.fault.isLabelFault = false := by
  obtain ⟨frame, m, back, begun, done, rfl⟩ := Env.boot_of_bootup ended
  obtain ⟨boots, tame⟩ := (Contract.boots_initGlobals ready begun).boot ready trusted done
  exact ⟨frame, boots.congr rfl rfl rfl rfl, tame⟩

/-- The entry lambda of an image that was accepted belongs to it. -/
theorem trusts_entry (accepted : image.Accepted h.store) : h.store.Trusts image.entry := by
  refine ⟨image, accepted, ?_⟩
  obtain ⟨f, r, s₀, formed, built, -⟩ := accepted.exists_file
  exact Array.mem_of_getElem? (built.entry formed.entry)

/-- A run of an image fails in module bootup or in its entry lambda. -/
theorem runImageFor_eq_error {fuel : Nat} {e : RunError} {h' : Host}
    (ended : h.runImageFor fuel image = some (.error e, h')) :
    (∃ b m, h.env.bootup fuel h.registry image.globals h.machine = some (.error b, m) ∧
      e = .boot b) ∨
    ∃ instances booted name f m,
      h.env.bootup fuel h.registry image.globals h.machine = some (.ok instances, booted) ∧
      h.env.exec fuel image.entry [] (booted.letGoAll (instances.map .record)) = some (.error f, m) ∧
      e = .entry name f := by
  rw [runImageFor, after] at ended
  cases result : h.env.bootup fuel h.registry image.globals h.machine with
  | none =>
    rw [result] at ended
    cases ended
  | some back =>
    rw [result] at ended
    obtain ⟨b | instances, booted⟩ := back
    · cases ended
      exact .inl ⟨b, booted, rfl, rfl⟩
    · dsimp only [Option.map_some] at ended
      rw [after, Option.map_map, Option.map_eq_some_iff] at ended
      obtain ⟨⟨f | values, m⟩, ended, same⟩ := ended
      · cases same
        exact .inr ⟨instances, booted, _, f, m, rfl, ended, rfl⟩
      · cases same

/-! ### Loading images -/

/-- Loading images leaves the machine as the host may have it. -/
theorem idle_loadFile (idle : h.machine.Idle) (f : ImageFile) : (h.loadFile f).2.machine.Idle := by
  rw [loadFile]
  split
  · exact idle
  · dsimp only
    split
    · exact idle
    · split <;> exact idle.other rfl fun _ parked => parked

/-- What was accepted stays so when more is added to the store. -/
theorem trusted_loadFile {f : ImageFile} {h' : Host}
    (library : ∀ fn ∈ h.registry.natives, ∃ i, fn.entry = .library i)
    (modules : ∀ entry ∈ h.registry.records, h.store.TrustsRecord entry.2)
    (found : h.loadFile f = (.ok image, h')) :
    image.Accepted h'.store ∧ ∀ entry ∈ h'.registry.records, h'.store.TrustsRecord entry.2 := by
  have accepted : image.Accepted h'.store := ⟨h, h', f, library, found, .refl _⟩
  have loaded := loaded_of_loadFile found
  refine ⟨accepted, fun entry listed => ?_⟩
  rcases loaded.mem_records listed with before | inside
  · obtain ⟨earlier, accepted', inside⟩ := modules entry before
    exact ⟨earlier, accepted'.extends loaded.built.grown, inside⟩
  · exact ⟨image, accepted, inside⟩

/-- A run of an image that was accepted does not fail about a label, however many steps it takes, and it
is safe at every point, if the modules come from images that were accepted too. -/
theorem runImage_safe (idle : h.machine.Idle) (accepted : image.Accepted h.store)
    (modules : ∀ entry ∈ h.registry.records, h.store.TrustsRecord entry.2) :
    (∀ fuel e h', h.runImageFor fuel image = some (.error e, h') → e.fault.isLabelFault = false) ∧
      ∀ c, h.Meets image c → c.Safe h.store := by
  have ready := idle.ready
  have trusted := trusts_entry accepted
  have records : ∀ entry ∈ h.registry.records.toList, h.store.TrustsRecord entry.2 :=
    fun entry listed => modules entry (Array.mem_toList_iff.1 listed)
  constructor
  · intro fuel e h' ended
    obtain ⟨b, m, failed, rfl⟩ | ⟨instances, booted, name, f, m, done, failed, rfl⟩ :=
      runImageFor_eq_error ended
    · obtain ⟨frame, -, tame⟩ := boots_bootup ready records failed
      exact tame b rfl
    · obtain ⟨frame, boots, -⟩ := boots_bootup ready records done
      have left := boots.letGoAll (instances.map .record)
      have answered := left.rests.exec (Contract.covers_loaded h.functions) left.whole
        (List.forall_mem_nil _) trusted failed
      exact answered.error f rfl
  · intro c meets
    cases meets with
    | boot begun meets =>
      exact (Contract.boots_initGlobals ready begun).safe ready records meets
    | @entry fuel instances booted m c ended begun takes steps =>
      obtain ⟨frame, boots, -⟩ := boots_bootup ready records ended
      have left := boots.letGoAll (instances.map .record)
      rw [begun] at left
      have numbered : (Contract.loaded h.store h.machine frame).Rests
          { m with heap := m.heap.takeNumber.2 } :=
        { left.rests with heap := left.rests.heap.takeNumber }
      have calls : (Contract.loaded h.store h.machine frame).Calls
          (.function m.heap.nextCallable image.entry none) := ⟨trusted, nofun⟩
      exact numbered.safe left.whole (Contract.entry_call calls) steps

/-- A file with a module and an entry lambda that makes an instance, saves it and jumps to its end. -/
def booting : ImageFile where
  version := 1
  entry := 1
  lambdas :=
    [{ params := 1, vars := 1, code := [] },
      { vars := 1
        code := [⟨"alloc", some (.int 0)⟩, ⟨"varsave", some (.int 0)⟩, ⟨"jmp", some (.int 3)⟩] }]
  records := [{ name := some "point", size := 2, init := 0, module := true }]

theorem mem_code_booting {d : LambdaDef} {i : InstrDef} (listed : d ∈ booting.lambdas)
    (inside : i ∈ d.code) : booting.lambdas[1]? = some d ∧
      (i = ⟨"alloc", some (.int 0)⟩ ∨ i = ⟨"varsave", some (.int 0)⟩ ∨
        i = ⟨"jmp", some (.int 3)⟩) := by
  simp only [booting, List.mem_cons, List.not_mem_nil, or_false] at listed
  obtain rfl | rfl := listed
  · cases inside
  · simpa [booting] using inside

/-- The entry lambda refers to the record type, and the record type to its initialiser. -/
theorem refers_booting {item target : FileItem} (refers : booting.Refers item target) :
    (item = .lambda 1 ∧ target = .record 0) ∨ (item = .record 0 ∧ target = .lambda 0) := by
  cases refers with
  | @instruction n d i _ found inside mentions =>
    rcases n with _ | _ | n <;> cases found
    · cases inside
    · refine .inl ⟨rfl, ?_⟩
      simp only [List.mem_cons, List.not_mem_nil, or_false] at inside
      obtain rfl | rfl | rfl := inside <;> cases target <;>
        simp_all [InstrDef.Mentions, InstrDef.Pushes, Opcode.mnemonic]
      simpa using Int.ofNat_inj.1 mentions.symm
  | @initializer n d found =>
    rcases n with _ | n <;> cases found
    exact .inr ⟨rfl, rfl⟩

theorem wellFormed_booting (r : Registry) : booting.WellFormed r where
  formed d listed i inside := by
    obtain ⟨-, rfl | rfl | rfl⟩ := mem_code_booting listed inside
    · exact ⟨.alloc, rfl, 0, rfl⟩
    · exact ⟨.varSave, rfl, 0, rfl⟩
    · exact ⟨.jmp, rfl, 3, rfl⟩
  inside item target refers := by
    obtain ⟨-, rfl⟩ | ⟨-, rfl⟩ := refers_booting refers <;> exact Nat.zero_lt_succ _
  acyclic item loop := by
    -- the path starts at the entry lambda or at the record type, and leads to neither
    have down : ∀ target, Relation.TransGen booting.Refers item target →
        (item = .lambda 1 ∧ target ≠ .lambda 1) ∨ (item = .record 0 ∧ target = .lambda 0) := by
      intro target path
      induction path with
      | single first => rcases refers_booting first with ⟨rfl, rfl⟩ | ⟨rfl, rfl⟩ <;> simp
      | tail _ last ih =>
        rcases refers_booting last with ⟨rfl, rfl⟩ | ⟨rfl, rfl⟩ <;> simp_all
    rcases down item loop with ⟨rfl, other⟩ | ⟨rfl, ⟨⟩⟩
    exact other rfl
  params := by decide
  slots d listed i inside n uses := by
    obtain ⟨found, rfl | rfl | rfl⟩ := mem_code_booting listed inside <;> cases found <;>
      simp_all [InstrDef.UsesSlot, Opcode.mnemonic]
    exact Int.ofNat_inj.1 uses.symm
  jumps d listed i inside n leads := by
    obtain ⟨found, rfl | rfl | rfl⟩ := mem_code_booting listed inside <;> cases found <;>
      simp_all [InstrDef.JumpsTo, Opcode.mnemonic]
    exact Nat.le_of_eq (Int.ofNat_inj.1 leads.symm)
  init := by
    rintro d listed l found
    rw [List.mem_singleton.1 listed] at found
    cases found
    rfl
  version := rfl
  entry := by decide
  named := by decide

/-- The natives that a standard host offers are those of the library. -/
theorem library_standard (settings : Settings) :
    ∀ fn ∈ (standard settings).registry.natives, ∃ i, fn.entry = .library i := by
  have all : (Registry.standard.natives.all fun fn => fn.entry matches .library _) = true := by
    decide +kernel
  intro fn listed
  have matched := List.all_eq_true.1 all fn listed
  cases entry : fn.entry with
  | library i => exact ⟨i, rfl⟩
  | host key => simp [entry] at matched

/-- The module of the file is there once the file is loaded. -/
theorem mem_records_booting {image : Image} {h h' : Host} (loaded : h.Loaded booting image h') :
    ∃ t, ("point", t) ∈ h'.registry.records := by
  have size : image.records.size = 1 := loaded.built.records_size
  obtain ⟨t, records⟩ : ∃ t, image.records.toList = [t] :=
    List.length_eq_one_iff.1 (Array.length_toList.trans size)
  have modules := loaded.modules
  rw [records] at modules
  have registry : (h.registry.loadRecord "point" t).2 = h'.registry := congrArg Prod.snd modules
  rw [← registry]
  exact ⟨t, Registry.mem_loadRecord _ _ _⟩

/-- A run comes through some point if there are modules to boot. -/
theorem exists_meets {h : Host} {entry : String × RecordRef} (image : Image)
    (listed : entry ∈ h.registry.records) : ∃ c, h.Meets image c := by
  cases records : h.registry.records.toList with
  | nil =>
    have none := Array.mem_toList_iff.2 listed
    rw [records] at none
    cases none
  | cons first rest =>
    cases begun : h.machine.initGlobals (max image.globals h.registry.records.size) with
    | mk frame m =>
      have here : h.env.BootMeets frame [] (first :: rest) m
          ⟨[.construct first.2], { m with stack := m.stack.raiseFloor }⟩ := .here (.refl _)
      rw [← records] at here
      exact ⟨_, .boot begun here⟩

/-- A standard host loads a file with a module and runs it. -/
theorem runImage_safe_booting :
    ∃ image h, (standard {}).loadFile booting = (.ok image, h) ∧ h.machine.Idle ∧
      image.Accepted h.store ∧
      (∃ t, ("point", t) ∈ h.registry.records ∧ h.store.TrustsRecord t) ∧
      (∀ fuel e h', h.runImageFor fuel image = some (.error e, h') → e.fault.isLabelFault = false) ∧
      ∃ c, h.Meets image c ∧ c.Safe h.store := by
  obtain ⟨image, h, found⟩ := exists_loadFile (wellFormed_booting (standard {}).registry)
  have idle : h.machine.Idle := by
    have after := idle_loadFile (h := standard {}) (.new {}) booting
    rwa [found] at after
  have none : ∀ entry ∈ (standard {}).registry.records,
      (standard {}).store.TrustsRecord entry.2 := fun _ listed => nomatch listed
  obtain ⟨accepted, modules⟩ := trusted_loadFile (library_standard {}) none found
  obtain ⟨t, listed⟩ := mem_records_booting (loaded_of_loadFile found)
  obtain ⟨tame, safe⟩ := runImage_safe idle accepted modules
  obtain ⟨c, meets⟩ := exists_meets image listed
  exact ⟨image, h, found, idle, accepted, ⟨t, listed, modules _ listed⟩, tame, c, meets, safe c meets⟩

end Host

end PlotMachine
