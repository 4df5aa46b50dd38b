import PlotMachine.Host
import PlotMachine.Image.Resolver
import PlotMachine.Listing

/-!
# Loading images

An image file is loaded in three stages. First every lambda and record type is made in the code store,
with all that it refers to. Then the lambdas and record types are validated. Last the record types that
are modules are loaded into the registry.
-/

namespace PlotMachine

/-- Why an image cannot be loaded. -/
inductive LoadError where
  /-- The text is not an image file. -/
  | malformedFile
  | unsupportedVersion (version : Nat)
  | entryOutOfRange (entry count : Nat)
  | unresolved (e : ResolveError)
  | invalidLambda (index : Nat) (name : String) (fault : Fault)
  | invalidRecord (index : Nat) (name : String) (fault : Fault)
  | namelessModule

namespace LoadError

/-- What is wrong, the outermost context first. -/
def chain : LoadError → List String
  | .malformedFile => ["malformed image JSON", "the text does not describe an image"]
  | .unsupportedVersion version => [s!"unsupported image version {version} (expected 1)"]
  | .entryOutOfRange entry count => [s!"entry lambda {entry} out of range ({count} lambdas)"]
  | .unresolved e => e.chain
  | .invalidLambda index name fault =>
    [s!"lambda {index} ({name}) is malformed", fault.message]
  | .invalidRecord index name fault =>
    [s!"record {index} ({name}) is malformed", fault.message]
  | .namelessModule => ["module record needs a name"]

/-- The fault that validation found. -/
def fault? : LoadError → Option Fault
  | .invalidLambda _ _ fault | .invalidRecord _ _ fault => some fault
  | _ => none

end LoadError

/-- The version of the image format. -/
def imageVersion : Nat := 1

namespace ImageFile

/-- Makes everything in a file, where the store has the given code and the next callable gets the given
number, if the head of the file is in order. -/
def build (f : ImageFile) (r : Registry) (store : Store) (nextCallable : Nat) :
    Except LoadError (Image × Resolver f) := do
  if f.version ≠ imageVersion then throw (.unsupportedVersion f.version)
  if f.lambdas.length ≤ f.entry then throw (.entryOutOfRange f.entry f.lambdas.length)
  (f.resolveAll r { store, nextCallable }).mapError .unresolved

/-- Validates the lambdas and record types of an image. -/
def validate (s : Store) (image : Image) : Except LoadError Unit := do
  image.lambdas.toList.zipIdx.forM fun (l, index) =>
    (s.validateLambda l).mapError (.invalidLambda index (s.lambda l).displayName)
  image.records.toList.zipIdx.forM fun (r, index) =>
    (s.validateRecord r).mapError (.invalidRecord index (s.record r).displayName)

/-- Loads the record types that are modules, up to the first one without a name. -/
def loadModules (r : Registry) : List (RecordDef × RecordRef) → Except LoadError Unit × Registry
  | [] => (.ok (), r)
  | (d, record) :: rest =>
    if d.module then
      match d.name with
      | some name => loadModules (r.loadRecord name record).2 rest
      | none => (.error .namelessModule, r)
    else loadModules r rest

end ImageFile

namespace Host

/-- Makes everything in an image file, next to the code and the callables there are. -/
def build (h : Host) (f : ImageFile) : Except LoadError (Image × Resolver f) :=
  f.build h.registry h.store h.machine.heap.nextCallable

/-- Loads an image file. If that fails, record types that were loaded as modules before stay
loaded. -/
def loadFile (h : Host) (f : ImageFile) : Except LoadError Image × Host :=
  match h.build f with
  | .error e => (.error e, h)
  | .ok (image, made) =>
    match ImageFile.validate made.store image with
    | .error e => (.error e, h)
    | .ok () =>
      let heap := { h.machine.heap with nextCallable := made.nextCallable }
      let h := { h with store := made.store, machine := { h.machine with heap } }
      match ImageFile.loadModules h.registry (f.records.zip image.records.toList) with
      | (.ok (), registry) => (.ok image, { h with registry })
      | (.error e, registry) => (.error e, { h with registry })

/-- Loads an image from the text of a file. -/
def load (h : Host) (text : String) : Except LoadError Image × Host :=
  match ImageFile.parse? text with
  | some f => h.loadFile f
  | none => (.error .malformedFile, h)

end Host

/-- Why an image that was loaded failed to run. -/
inductive RunError where
  | boot (e : BootError)
  /-- The entry lambda failed. -/
  | entry (name : String) (failure : Failure)

namespace RunError

/-- What went wrong, the outermost context first. -/
def chain : RunError → List String
  | .boot e => e.chain
  | .entry name failure => s!"{name} failed" :: failure.message :: failure.causes

/-- The fault that ended the run. -/
def fault : RunError → Fault
  | .boot e => e.failure.fault
  | .entry _ failure => failure.fault

end RunError

namespace Host

/-- Boots the loaded modules and runs the entry lambda of an image, where each run may take a number of
steps. -/
def runImageFor (h : Host) (fuel : Nat) (image : Image) :
    Option (Except RunError (Array Value) × Host) :=
  match h.after (h.env.bootup fuel h.registry image.globals h.machine) with
  | none => none
  | some (.error e, h) => some (.error (.boot e), h)
  | some (.ok instances, h) =>
    let h := { h with machine := h.machine.letGoAll (instances.map .record) }
    (h.after (h.env.exec fuel image.entry [] h.machine)).map fun
      | (.ok results, h) => (.ok results, h)
      | (.error failure, h) =>
        (.error (.entry (h.store.lambda image.entry).displayName failure), h)

/-- Boots the loaded modules and runs the entry lambda of an image. -/
def runImage (h : Host) (image : Image) : Option (Except RunError (Array Value) × Host) :=
  h.runImageFor fuel image

/-- The listing of an image: its entry lambda and the initialisers of all its record types, with all
they refer to. -/
def listImage (h : Host) (image : Image) : Except Fault String :=
  h.store.listAll h.machine.heap
    (image.entry :: image.records.toList.map fun r => (h.store.record r).init)

end Host

end PlotMachine
