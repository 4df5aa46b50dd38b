import PlotMachine.Command.Arguments
import PlotMachine.Image.Load
import PlotMachine.Settings.Reader

/-!
# The program

What the program does with an image, as a function of its arguments and of the files it reads.
-/

namespace PlotMachine

/-- Why the program fails. -/
inductive CommandError where
  | noImage
  /-- The settings file cannot be read. -/
  | unreadableSettings (path : String)
  | badSettings (path : String) (e : SettingsError)
  /-- The image file cannot be read. -/
  | unreadableImage (path : String)
  | badImage (path : String) (e : LoadError)
  | failedRun (e : RunError)
  | failedListing (fault : Fault)
  /-- The run took more steps than can be counted. -/
  | endlessRun

namespace CommandError

/-- What stands for the reason why a file cannot be read. -/
def unreadable : String := "the file cannot be read"

/-- What is wrong, the outermost context first. -/
def chain : CommandError → List String
  | .noImage => ["no image given; see `pathvm --help`"]
  | .unreadableSettings path => [s!"failed to read config {path}", unreadable]
  | .badSettings path e => s!"in {path}" :: e.chain
  | .unreadableImage path => [s!"failed to read image {path}", unreadable]
  | .badImage path e => s!"failed to load image {path}" :: e.chain
  | .failedRun e => e.chain
  | .failedListing fault => ["failed to disassemble image", fault.message]
  | .endlessRun => ["the run does not end"]

end CommandError

/-- What the program prints, and the error it ends with. -/
structure Report where
  output : String := ""
  error : Option CommandError := none

/-- What the program can see: the text of a file, if it can be read. -/
abbrev Files := String → Option String

/-- The settings to run with. -/
def loadSettings (files : Files) (config : Option String) (maxCallDepth : Option Nat) :
    Except CommandError Settings := do
  let settings ← match config with
    | none => pure {}
    | some path =>
      match files path with
      | none => throw (.unreadableSettings path)
      | some text => (Settings.parse text).mapError (.badSettings path)
  return { settings with maxCallDepth := maxCallDepth.getD settings.maxCallDepth }

/-- A host with an image. -/
def loadImage (files : Files) (settings : Settings) (path : String) :
    Except CommandError (Image × Host) :=
  match files path with
  | none => .error (.unreadableImage path)
  | some text =>
    match (Host.standard settings).load text with
    | (.ok image, h) => .ok (image, h)
    | (.error e, _) => .error (.badImage path e)

/-- Runs an image and prints what it leaves on the stack. -/
def runReport (h : Host) (image : Image) : Report :=
  match h.runImage image with
  | none => { error := some .endlessRun }
  | some (.error e, h) => { output := h.machine.output, error := some (.failedRun e) }
  | some (.ok results, h) =>
    { output := h.machine.output ++ String.join (results.toList.map fun v => h.text v ++ "\n") }

/-- Says what is in an image. -/
def checkReport (h : Host) (image : Image) : Report :=
  { output := s!"ok: {image.lambdas.size} lambdas, {image.records.size} records, "
      ++ s!"{h.registry.records.size} modules\n" }

/-- Lists an image. -/
def listReport (h : Host) (image : Image) : Report :=
  match h.listImage image with
  | .ok text => { output := text }
  | .error fault => { error := some (.failedListing fault) }

/-- Does something with the image in a file. -/
def actOn (files : Files) (action : Action) (settings : Settings) (path : String) : Report :=
  match loadImage files settings path with
  | .error e => { error := some e }
  | .ok (image, h) =>
    match action with
    | .run => runReport h image
    | .check => checkReport h image
    | .list => listReport h image

/-- The name and version of the program. -/
def versionLine : String := "pathvm 0.1.0\n"

/-- How the program is called. -/
def helpText : String :=
  "Usage: pathvm [--config FILE] [--max-call-depth N] [run | check | disasm] [FILE]\n"

/-- Does what the arguments ask for. -/
def Order.report (files : Files) : Order → Report
  | .version => { output := versionLine }
  | .help => { output := helpText }
  | .act action file config maxCallDepth =>
    match loadSettings files config maxCallDepth with
    | .error e => { error := some e }
    | .ok settings =>
      match file with
      | none => { error := some .noImage }
      | some path => actOn files action settings path

/-- The files that the arguments name. -/
def Order.paths : Order → List String
  | .act _ file config _ => file.toList ++ config.toList
  | _ => []

end PlotMachine
