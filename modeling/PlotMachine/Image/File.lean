import PlotMachine.Json.Reader

/-!
# Image files

An image file is a JSON document that holds lambdas and record types, which refer to each other by
their index in the file. `ImageFile` is the document as data, before anything is resolved.

`ImageFile.ofRaw?` reads a document and `ImageFile.toJson` writes one. The reader accepts a structure
as an object, in which unknown fields are passed over and no field may occur twice, or as an array of
its fields in order. Fields with a default value may be missing. The writer writes objects and all
fields, except an operand that is missing.
-/

namespace PlotMachine

open Json

/-- An instruction: the name of the operation and the operand. -/
structure InstrDef where
  op : String
  arg : Option Json := none
  deriving Inhabited

/-- A source position of the instructions from an offset on. -/
structure PositionDef where
  offset : Nat
  line : Nat
  column : Nat := 0
  file : Option String := none
  deriving DecidableEq, Repr, Inhabited

/-- A lambda. -/
structure LambdaDef where
  name : Option String := none
  params : Nat := 0
  vars : Nat := 0
  maxStack : Nat := 0
  code : List InstrDef
  positions : List PositionDef := []
  deriving Inhabited

/-- A record type. -/
structure RecordDef where
  name : Option String := none
  size : Nat
  /-- The index of the lambda that initialises instances. -/
  init : Nat
  /-- Whether the record type is loaded as a module. -/
  module : Bool := false
  deriving DecidableEq, Repr, Inhabited

/-- An image file. -/
structure ImageFile where
  version : Nat
  /-- How many global slots are needed. -/
  globals : Nat := 0
  /-- The index of the lambda to run. -/
  entry : Nat
  lambdas : List LambdaDef := []
  records : List RecordDef := []
  deriving Inhabited

namespace Json.Raw

/-- How deeply a document may be nested. -/
def depthLimit : Nat := 127

/-- The values of a field. -/
def valuesOf (name : String) (fields : List (String × Raw)) : List Raw :=
  fields.filterMap fun (key, r) => if key = name then some r else none

/-- The value of a field that may be missing; it may not occur twice. -/
def field? (fields : List (String × Raw)) (name : String) : Option (Option Raw) :=
  match valuesOf name fields with
  | [] => some none
  | [r] => some (some r)
  | _ => none

/-- The values of the named fields of a structure, in order. -/
def fields? (names : List String) : Raw → Option (List (Option Raw))
  | .arr items =>
    if items.length ≤ names.length then
      some (items.map some ++ List.replicate (names.length - items.length) none)
    else none
  | .obj fields => do
    let fields ← fields.mapM fun (key, r) => return (← textOf? key, r)
    names.mapM (field? fields)
  | _ => none

/-- A natural number up to a bound. -/
def nat? (bound : Nat) : Raw → Option Nat
  | .num n =>
    match numberValue n with
    | some (.int n) => if 0 ≤ n ∧ n ≤ bound then some n.toNat else none
    | _ => none
  | _ => none

/-- An unsigned 64-bit word. -/
def word? : Raw → Option Nat := nat? maxWord

/-- An unsigned 32-bit word. -/
def halfWord? : Raw → Option Nat := nat? 0xffffffff

/-- A truth value. -/
def bool? : Raw → Option Bool
  | .bool b => some b
  | _ => none

/-- A text. -/
def text? : Raw → Option String
  | .str s => textOf? s
  | _ => none

/-- A text or null. -/
def name? : Raw → Option (Option String)
  | .null => some none
  | r => r.text?.map some

/-- A list. -/
def list? {α : Type} (item : Raw → Option α) : Raw → Option (List α)
  | .arr items => items.mapM item
  | _ => none

/-- A field that has to be there. -/
def required {α : Type} (read : Raw → Option α) : Option Raw → Option α
  | some r => read r
  | none => none

/-- A field that has a default value. -/
def optional {α : Type} (read : Raw → Option α) (default : α) : Option Raw → Option α
  | some r => read r
  | none => some default

end Json.Raw

open Json.Raw

/-- How deeply an operand may be nested; five levels of the document are around it. -/
def operandDepth : Nat := depthLimit - 5

/-- Reads an operand. Null is a missing operand. -/
def operand? : Raw → Option (Option Json)
  | .null => some none
  | r => (r.value? operandDepth).map some

namespace InstrDef

/-- Reads an instruction. -/
def ofRaw? (r : Raw) : Option InstrDef := do
  match ← r.fields? ["op", "arg"] with
  | [op, arg] => return { op := ← required text? op, arg := ← optional operand? none arg }
  | _ => none

/-- Writes an instruction. -/
def toJson (d : InstrDef) : Json :=
  .obj (("op", .str d.op) :: match d.arg with
    | some arg => [("arg", arg)]
    | none => [])

end InstrDef

/-- Writes a text that may be missing. -/
def nameJson : Option String → Json
  | some name => .str name
  | none => .null

/-- Writes a natural number. -/
def natJson (n : Nat) : Json := .int n

namespace PositionDef

/-- Reads a position. -/
def ofRaw? (r : Raw) : Option PositionDef := do
  match ← r.fields? ["offset", "line", "column", "file"] with
  | [offset, line, column, file] => return {
      offset := ← required word? offset
      line := ← required halfWord? line
      column := ← optional halfWord? 0 column
      file := ← optional name? none file }
  | _ => none

/-- Writes a position. -/
def toJson (d : PositionDef) : Json :=
  .obj [("offset", natJson d.offset), ("line", natJson d.line), ("column", natJson d.column),
    ("file", nameJson d.file)]

end PositionDef

namespace LambdaDef

/-- Reads a lambda. -/
def ofRaw? (r : Raw) : Option LambdaDef := do
  match ← r.fields? ["name", "params", "vars", "max_stack", "code", "positions"] with
  | [name, params, vars, maxStack, code, positions] => return {
      name := ← optional name? none name
      params := ← optional word? 0 params
      vars := ← optional word? 0 vars
      maxStack := ← optional word? 0 maxStack
      code := ← required (list? InstrDef.ofRaw?) code
      positions := ← optional (list? PositionDef.ofRaw?) [] positions }
  | _ => none

/-- Writes a lambda. -/
def toJson (d : LambdaDef) : Json :=
  .obj [("name", nameJson d.name), ("params", natJson d.params), ("vars", natJson d.vars),
    ("max_stack", natJson d.maxStack), ("code", .arr (d.code.map InstrDef.toJson)),
    ("positions", .arr (d.positions.map PositionDef.toJson))]

end LambdaDef

namespace RecordDef

/-- Reads a record type. -/
def ofRaw? (r : Raw) : Option RecordDef := do
  match ← r.fields? ["name", "size", "init", "module"] with
  | [name, size, init, module] => return {
      name := ← optional name? none name
      size := ← required word? size
      init := ← required word? init
      module := ← optional bool? false module }
  | _ => none

/-- Writes a record type. -/
def toJson (d : RecordDef) : Json :=
  .obj [("name", nameJson d.name), ("size", natJson d.size), ("init", natJson d.init),
    ("module", .bool d.module)]

end RecordDef

namespace ImageFile

/-- Reads an image file. -/
def ofRaw? (r : Raw) : Option ImageFile := do
  match ← r.fields? ["version", "globals", "entry", "lambdas", "records"] with
  | [version, globals, entry, lambdas, records] => return {
      version := ← required halfWord? version
      globals := ← optional word? 0 globals
      entry := ← required word? entry
      lambdas := ← optional (list? LambdaDef.ofRaw?) [] lambdas
      records := ← optional (list? RecordDef.ofRaw?) [] records }
  | _ => none

/-- Reads the text of an image file. -/
def parse? (text : String) : Option ImageFile := (Json.read text).bind ofRaw?

/-- Writes an image file. -/
def toJson (f : ImageFile) : Json :=
  .obj [("version", natJson f.version), ("globals", natJson f.globals),
    ("entry", natJson f.entry), ("lambdas", .arr (f.lambdas.map LambdaDef.toJson)),
    ("records", .arr (f.records.map RecordDef.toJson))]

/-- The text of an image file. -/
def render (f : ImageFile) : String := f.toJson.render

end ImageFile

end PlotMachine
