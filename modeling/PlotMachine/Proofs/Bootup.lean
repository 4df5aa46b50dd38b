import PlotMachine.Proofs.HostCalls
import PlotMachine.Registry

/-!
# The course of module bootup

Module bootup makes a new global frame and then goes through a loop: it has an instance made of the
next record type and puts it into the next slot. `Env.Booting` describes the machines that the loop
comes through, so what holds of a machine after bootup is shown by induction along it
(`Env.Booting.ends`). What is known of a single step is what the host knows of any instance it asks
for.
-/

namespace PlotMachine

/-! ## The global frame -/

namespace Machine

@[simp] theorem stack_setSlot (m : Machine) (f : FrameRef) (slot : Nat) (v : Value) :
    (m.setSlot f slot v).stack = m.stack := by
  rw [setSlot, Exec.put]
  cases m.heap.get (.frame f) slot <;> simp

/-- A slot that is there is written, and nothing else but the account of frames changes. -/
theorem setSlot_eq {m : Machine} {f : FrameRef} {slot : Nat} (v : Value)
    (bound : slot < (m.heap.slots f).size) :
    (m.setSlot f slot v).heap = m.heap.put (.frame f) slot v ∧
      (m.setSlot f slot v).globals = m.globals ∧
      (m.setSlot f slot v).keeper.pool = m.keeper.pool := by
  have found : m.heap.get (.frame f) slot = .ok (m.heap.slots f)[slot] := by
    simp [Heap.get, Heap.contents, bound]
  simp [setSlot, Exec.put, found]

/-- A new global frame changes nothing on the stack. -/
theorem stack_initGlobals (m : Machine) (length : Nat) : (m.initGlobals length).2.stack = m.stack := by
  simp [initGlobals, setGlobals, newFrame, addFrame, register, settled]

/-- A new global frame is new. -/
theorem globals_initGlobals (m : Machine) (length : Nat) :
    (m.initGlobals length).1 = ⟨m.heap.frames.size⟩ ∧
      (m.initGlobals length).2.globals = ⟨m.heap.frames.size⟩ := by
  simp [initGlobals, setGlobals, newFrame, addFrame, register, settled, Heap.addFrame]

/-- A new global frame holds nil, if the buffers that are parked are empty. -/
theorem heap_initGlobals {m : Machine} (parked : m.keeper.pool.All fun _ => False) (length : Nat) :
    (m.initGlobals length).2.heap = (m.heap.addFrame (Array.replicate length .nil)).2 := by
  have empty : m.settled.keeper.pool.All (· = .nil) := (all_settle parked _).imp fun _ => False.elim
  have slots : (m.settled.keeper.pool.take length).1 = Array.replicate length .nil :=
    Array.eq_replicate_iff.2 ⟨Pool.size_take _ _, fun v inside => empty.mem_take rfl inside⟩
  rw [← slots]
  simp [initGlobals, setGlobals, newFrame, addFrame, register, settled]

theorem all_initGlobals {P : Value → Prop} {m : Machine} (all : m.keeper.pool.All P) (length : Nat) :
    (m.initGlobals length).2.keeper.pool.All P := by
  have made : (m.settled.newFrame .owned length).2.keeper.pool.All P := (all_settle all _).take length
  simp only [initGlobals, setGlobals, pool_letGo, Keeper.pool_share, register, Keeper.pool_register]
  exact all_settle made _

end Machine

/-! ## The loop -/

namespace Env

/-- The run in which the host has an instance made. -/
def making (r : RecordRef) (m : Machine) : Config :=
  ⟨[.construct r], { m with stack := m.stack.raiseFloor }⟩

/-- The machine when module bootup has made the given instances, of the first record types there are,
and is about to make the next one. -/
inductive Booting (env : Env) (fuel : Nat) (globals : FrameRef)
    (records : List (String × RecordRef)) (m₀ : Machine) : List InstanceRef → Machine → Prop
  | start : Booting env fuel globals records m₀ [] m₀
  | next {made : List InstanceRef} {m m' : Machine} {module : String} {record : RecordRef}
      {i : InstanceRef} (before : Booting env fuel globals records m₀ made m)
      (listed : records[made.length]? = some (module, record))
      (ended : env.instantiate fuel record m = some (.ok i, m')) :
      Booting env fuel globals records m₀ (made ++ [i])
        ((m'.setSlot globals made.length (.record i)).hold (.record i))

/-- The machine when module bootup has made the given instances, counted from its beginning. -/
def Boots (env : Env) (fuel : Nat) (r : Registry) (globals : Nat) (m : Machine)
    (made : List InstanceRef) (m' : Machine) : Prop :=
  let begun := m.initGlobals (max globals r.records.size)
  env.Booting fuel begun.1 r.records.toList begun.2 made m'

/-- A point of the run of an initialiser in module bootup. The given instances were made before. -/
def Initialises (env : Env) (fuel : Nat) (r : Registry) (globals : Nat) (m : Machine)
    (made : List InstanceRef) (c : Config) : Prop :=
  ∃ m' entry, env.Boots fuel r globals m made m' ∧
    r.records.toList[made.length]? = some entry ∧ env.Steps (making entry.2 m') c

variable {env : Env} {fuel : Nat} {globals : FrameRef} {records : List (String × RecordRef)}
  {m₀ m m' : Machine} {made : List InstanceRef}

/-- What is left of bootup is to boot the modules that are left. -/
theorem Booting.boot_eq (booting : env.Booting fuel globals records m₀ made m) :
    env.boot fuel globals [] records m₀
      = env.boot fuel globals made (records.drop made.length) m := by
  induction booting with
  | start => rfl
  | @next made m m' module record i _ listed ended ih =>
    obtain ⟨bound, found⟩ := List.getElem?_eq_some_iff.1 listed
    rw [ih, List.drop_eq_getElem_cons bound, found, boot, ended, List.length_append]
    rfl

/-- There are no more instances than record types. -/
theorem Booting.length_le (booting : env.Booting fuel globals records m₀ made m) :
    made.length ≤ records.length := by
  cases booting with
  | start => exact Nat.zero_le _
  | next before listed ended =>
    rw [List.length_append]
    exact (List.getElem?_eq_some_iff.1 listed).1

/-- Bootup that succeeds has come to all instances, and they begin with those that were made so far.
Bootup that fails does so where an instance cannot be made. -/
theorem Booting.ends {rest : List (String × RecordRef)}
    {result : Except BootError (List InstanceRef)}
    (booting : env.Booting fuel globals records m₀ made m) (left : records.drop made.length = rest)
    (ended : env.boot fuel globals made rest m = some (result, m')) :
    (∀ final, result = .ok final → made <+: final ∧ final.length = records.length ∧
      env.Booting fuel globals records m₀ final m') ∧
    ∀ e, result = .error e → ∃ made' before after record, (e.module, record) ∈ records ∧
      env.Booting fuel globals records m₀ made' before ∧
      env.instantiate fuel record before = some (.error e.failure, after) ∧
      m' = after.letGoAll (made'.map .record) := by
  induction rest generalizing made m with
  | nil =>
    cases ended
    constructor
    · rintro _ ⟨⟩
      exact ⟨List.prefix_rfl,
        Nat.le_antisymm booting.length_le (List.drop_eq_nil_iff.1 left), booting⟩
    · rintro _ ⟨⟩
  | cons entry rest ih =>
    obtain ⟨module, record⟩ := entry
    have listed : records[made.length]? = some (module, record) := by
      rw [← List.head?_drop, left]
      rfl
    rw [boot] at ended
    split at ended
    · cases ended
    · next failure after failed =>
      cases ended
      constructor
      · rintro _ ⟨⟩
      · rintro _ ⟨⟩
        exact ⟨made, m, after, record, List.mem_of_getElem? listed, booting, failed, rfl⟩
    · next i after answered =>
      have left' : records.drop (made ++ [i]).length = rest := by
        rw [List.length_append, List.length_singleton, ← List.drop_drop, left]
        rfl
      obtain ⟨finish, fail⟩ := ih (booting.next listed answered) left' ended
      refine ⟨fun final same => ?_, fail⟩
      obtain ⟨begins, rest⟩ := finish final same
      exact ⟨(List.prefix_append _ _).trans begins, rest⟩

/-- Module bootup instantiates the modules into a new global frame. -/
theorem boot_of_bootup {globals : Nat} {r : Registry}
    {result : Except BootError (List InstanceRef)} {booted : Machine}
    (ended : env.bootup fuel r globals m = some (result, booted)) :
    ∃ frame m₀ back, m.initGlobals (max globals r.records.size) = (frame, m₀) ∧
      env.boot fuel frame [] r.records.toList m₀ = some (result, back) ∧
      booted = back.pin m.keeper.pins := by
  rw [bootup] at ended
  cases begun : m.initGlobals (max globals r.records.size) with
  | mk frame m₀ =>
    rw [begun] at ended
    obtain ⟨⟨result', back⟩, done, same⟩ := Option.map_eq_some_iff.1 ended
    cases same
    exact ⟨frame, m₀, back, rfl, done, rfl⟩

end Env

end PlotMachine
