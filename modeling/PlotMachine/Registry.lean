import PlotMachine.Machine.Host

/-!
# The registry

What a host offers to images: native functions under their qualified names, the modules they come
in, and record types that were loaded as modules. The loaded record types are numbered in the order
in which their names first appeared; the number is the global slot in which the instance of the
record type is found after `Env.bootup`.
-/

namespace PlotMachine

/-- A family of natives. -/
structure NativeModule where
  name : String
  description : String := ""
  /-- The natives of a module that is not enabled are not registered. -/
  enabled : Bool := true
  natives : List Native
  deriving DecidableEq, Repr, Inhabited

/-- No name has a slot, and none stands in one. -/
theorem Registry.indexed_empty (name : String) (slot : Nat) :
    ([] : List (String × Nat)).lookup name = some slot ↔
      (#[] : Array (String × RecordRef))[slot]?.map (·.1) = some name := by
  simp

/-- What a host offers. -/
structure Registry where
  /-- The modules by the name they were registered under. -/
  modules : List (String × NativeModule) := []
  natives : List Native := []
  /-- The loaded record types by name, in slot order. -/
  records : Array (String × RecordRef) := #[]
  /-- The slots of the loaded record types by name. -/
  index : List (String × Nat) := []
  /-- A name has the slot it stands in. -/
  indexed : ∀ name slot, index.lookup name = some slot ↔ records[slot]?.map (·.1) = some name := by
    exact Registry.indexed_empty

instance : Inhabited Registry := ⟨{}⟩

/-- Why something could not be registered or found. -/
inductive RegistryError where
  | moduleTwice (name : String)
  | nativeTwice (name : String)
  /-- A module has a native that is already registered. -/
  | moduleNative (module native : String)
  | unknownModule (name : String)
  deriving DecidableEq, Repr

/-- What went wrong, the outermost context first. -/
def RegistryError.chain : RegistryError → List String
  | .moduleTwice name => [s!"module '{name}' is already registered"]
  | .nativeTwice name => [s!"native '{name}' registered twice"]
  | .moduleNative module native =>
    [s!"while registering module '{module}'", s!"native '{native}' registered twice"]
  | .unknownModule name => [s!"Module '{name}' not found"]

namespace Registry

/-- The native with a qualified name. -/
def native? (r : Registry) (name : String) : Option Native := r.natives.find? (·.name == name)

/-- The module registered under a name. -/
def module (r : Registry) (name : String) : Except RegistryError NativeModule :=
  match r.modules.lookup name with
  | some m => .ok m
  | none => .error (.unknownModule name)

/-- The names of the modules, in ascending order. -/
def moduleNames (r : Registry) : List String := (r.modules.map (·.1)).mergeSort

/-- The names of the natives, in ascending order. -/
def nativeNames (r : Registry) : List String := (r.natives.map (·.name)).mergeSort

/-- Adds a native. Its name must be new. -/
def registerNative (r : Registry) (fn : Native) : Except RegistryError Registry :=
  if (r.native? fn.name).isSome then .error (.nativeTwice fn.name)
  else .ok { r with natives := r.natives ++ [fn] }

/-- Adds natives in order, up to the first one whose name is not new. -/
def registerNatives (r : Registry) : List Native → Except RegistryError Unit × Registry
  | [] => (.ok (), r)
  | fn :: rest =>
    match r.registerNative fn with
    | .ok r => r.registerNatives rest
    | .error e => (.error e, r)

/-- Adds a module under a name, with its natives. If one of them is not new, those before it stay
registered and the module is not. -/
def registerModule (r : Registry) (name : String) (module : NativeModule) :
    Except RegistryError Unit × Registry :=
  if (r.modules.lookup name).isSome then (.error (.moduleTwice name), r)
  else
    match r.registerNatives (if module.enabled then module.natives else []) with
    | (.ok (), r) => (.ok (), { r with modules := r.modules ++ [(name, module)] })
    | (.error (.nativeTwice native), r) => (.error (.moduleNative module.name native), r)
    | (.error e, r) => (.error e, r)

/-- The slot of a loaded record type. -/
def slot? (r : Registry) (name : String) : Option Nat := r.index.lookup name

/-- The record type loaded under a name. -/
def record? (r : Registry) (name : String) : Option RecordRef :=
  (r.slot? name).bind fun slot => r.records[slot]?.map (·.2)

/-- A name stands in its slot. -/
theorem slot?_eq_some {r : Registry} {name : String} {slot : Nat} :
    r.slot? name = some slot ↔ r.records[slot]?.map (·.1) = some name :=
  r.indexed name slot

/-- Names keep their slots when the record type in a slot is replaced. -/
theorem indexed_modify (r : Registry) (slot : Nat) (record : RecordRef) (name : String)
    (other : Nat) : r.index.lookup name = some other ↔
      (r.records.modify slot fun entry => (entry.1, record))[other]?.map (·.1) = some name := by
  rw [r.indexed, Array.getElem?_modify]
  split <;> simp [Function.comp_def]

/-- A new name stands in a slot behind the others, which keep theirs. -/
theorem indexed_push (r : Registry) {name : String} (new : r.slot? name = none)
    (record : RecordRef) (other : String) (slot : Nat) :
    ((name, r.records.size) :: r.index).lookup other = some slot ↔
      (r.records.push (name, record))[slot]?.map (·.1) = some other := by
  by_cases same : other = name
  · subst same
    have absent : r.records[slot]?.map (·.1) ≠ some other := fun stands =>
      nomatch new.symm.trans (slot?_eq_some.2 stands)
    rw [List.lookup_cons_self, Array.getElem?_push, Option.some_inj, eq_comm]
    split
    · next last => simp [last]
    · next before => exact iff_of_false before absent
  · have differs : (other == name) = false := beq_false_of_ne same
    rw [List.lookup_cons, differs, r.indexed, Array.getElem?_push]
    split
    · next last => simp [last, Ne.symm same]
    · rfl

/-- Replaces the record type in a slot. -/
def replaceRecord (r : Registry) (slot : Nat) (record : RecordRef) : Registry :=
  { r with
    records := r.records.modify slot fun entry => (entry.1, record)
    indexed := r.indexed_modify slot record }

/-- Adds a record type under a new name, in a slot behind the others. -/
def addRecord (r : Registry) (name : String) (new : r.slot? name = none) (record : RecordRef) :
    Registry :=
  { r with
    records := r.records.push (name, record)
    index := (name, r.records.size) :: r.index
    indexed := r.indexed_push new record }

/-- Loads a record type under a name and answers its slot. A name that was loaded before keeps its
slot. -/
def loadRecord (r : Registry) (name : String) (record : RecordRef) : Nat × Registry :=
  match new : r.slot? name with
  | some slot => (slot, r.replaceRecord slot record)
  | none => (r.records.size, r.addRecord name new record)

/-- Loading writes the slot that it answers and no other. -/
theorem getElem?_loadRecord (r : Registry) (name : String) (record : RecordRef) (slot : Nat) :
    (r.loadRecord name record).2.records[slot]? =
      if slot = (r.loadRecord name record).1 then some (name, record) else r.records[slot]? := by
  rw [loadRecord]
  split
  · next known found =>
    obtain ⟨⟨_, earlier⟩, stands, rfl⟩ := Option.map_eq_some_iff.1 (slot?_eq_some.1 found)
    rw [replaceRecord, Array.getElem?_modify]
    by_cases here : slot = known
    · rw [if_pos here, if_pos here.symm, here, stands]
      rfl
    · rw [if_neg here, if_neg (Ne.symm here)]
  · rw [addRecord, Array.getElem?_push]

/-- A name that is loaded has the slot that is answered. The other names keep theirs. -/
theorem slot?_loadRecord (r : Registry) (name : String) (record : RecordRef) (other : String) :
    (r.loadRecord name record).2.slot? other =
      if other = name then some (r.loadRecord name record).1 else r.slot? other := by
  rw [loadRecord]
  split
  · next known found =>
    split
    · next same => exact same ▸ found
    · rfl
  · rw [slot?, addRecord, List.lookup_cons]
    by_cases same : other = name
    · simp [same]
    · simp [same, beq_false_of_ne same, slot?]

end Registry

/-- The failure of an initialiser of a loaded record type. -/
structure BootError where
  module : String
  failure : Failure

/-- What went wrong, the outermost context first. -/
def BootError.chain (e : BootError) : List String :=
  s!"failed to initialize module '{e.module}'" :: e.failure.message :: e.failure.causes

namespace Env

/-- Instantiates record types into the slots of a frame, behind the instances made before. All of
them are held until the last one is made. -/
def boot (env : Env) (fuel : Nat) (globals : FrameRef) (made : List InstanceRef) :
    List (String × RecordRef) → Machine → Option (Except BootError (List InstanceRef) × Machine)
  | [], m => some (.ok made, m)
  | (module, record) :: rest, m =>
    match env.instantiate fuel record m with
    | none => none
    | some (.error failure, m) =>
      some (.error { module, failure }, m.letGoAll (made.map .record))
    | some (.ok i, m) =>
      let m := m.setSlot globals made.length (.record i)
      env.boot fuel globals (made ++ [i]) rest (m.hold (.record i))

/-- Makes a new global frame and instantiates the loaded record types into it, each one into its
slot. The frame has at least `globals` slots. -/
def bootup (env : Env) (fuel : Nat) (r : Registry) (globals : Nat) (m : Machine) :
    Option (Except BootError (List InstanceRef) × Machine) :=
  let pins := m.keeper.pins
  let (frame, m) := m.initGlobals (max globals r.records.size)
  (env.boot fuel frame [] r.records.toList m).map fun (result, m) => (result, m.pin pins)

end Env

end PlotMachine
