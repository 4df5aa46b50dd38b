import PlotMachine.Listing
import PlotMachine.Registry

/-!
# Inspection

Texts for the eyes of someone who debugs a program. They name the kind of everything they show and
go no deeper than arrays.
-/

namespace PlotMachine

/-- Braces around the fields of a structure that is shown. -/
def showStructure (name : String) (fields : List (String × String)) : String :=
  name ++ " \x7b " ++ ", ".intercalate (fields.map fun (field, value) => field ++ ": " ++ value)
    ++ " \x7d"

/-- Brackets around the items of a list that is shown. -/
def showList (items : List String) : String := "[" ++ ", ".intercalate items ++ "]"

/-- A native. -/
def Native.inspect (fn : Native) : String := s!"Native({fn.name})"

/-- A label. -/
def Label.inspect (l : Label) : String := s!"Label(@{l.offset})"

/-- The kind of a callable, in one word. -/
def Callable.kindName : Callable → String
  | .function .. => "function"
  | .native .. => "native"
  | .thunk .. => "thunk"
  | .undefined => "undefined"

/-- An arena. -/
def Arena.inspect (a : Arena) : String :=
  showStructure "FrameArena" [("tracked", toString a.entries.size)]

/-- A frame. -/
def Heap.inspectFrame (h : Heap) (f : FrameRef) : String := s!"Frame(len={(h.slots f).size})"

namespace Store

/-- A callable. -/
def inspectCallable (s : Store) (c : Callable) : String := s!"Callable({s.describe c})"

/-- A value. -/
def inspect (s : Store) (h : Heap) : Value → String
  | .nil => "Nil"
  | .bool b => s!"Bool({b})"
  | .int n => s!"Int({n.toInt})"
  | .real x => s!"Real({realText x})"
  | .str t => s!"Str({quoted t})"
  | .array a => s!"Array({s.text h (.array a)})"
  | .record i => s!"Instance({s.instanceName h i})"
  | .callable c => s!"Callable({c.kindName})"
  | .frame f => h.inspectFrame f
  | .lambda l => s!"Lambda({(s.lambda l).displayName})"
  | .label l => l.inspect

/-- An instruction. -/
def inspectInstr (s : Store) (h : Heap) (i : Instr) : String :=
  let operand : Option String := match i with
    | .intPush n => some (toString n.toInt)
    | .constPush v => some (s.inspect h v)
    | .load _ slot | .save _ slot => some (toString slot)
    | .builtin fn => some fn.name
    | .jump _ target => some s!"@{target.offset}"
    | .makeFunc l => some (s.lambda l).displayName
    | .alloc r => some (s.record r).displayName
    | _ => none
  match operand with
  | some operand => i.opcode.mnemonic ++ " " ++ operand
  | none => i.opcode.mnemonic

/-- A program. -/
def inspectProgram (s : Store) (h : Heap) (p : ProgramRef) : String :=
  showList ((s.code p).toList.map (s.inspectInstr h))

/-- A lambda. -/
def inspectLambda (s : Store) (l : LambdaRef) : String :=
  let lambda := s.lambda l
  showStructure "Lambda"
    [("name", quoted lambda.displayName), ("params", toString lambda.params),
      ("vars", toString lambda.vars), ("max_stack_size", toString lambda.maxStack),
      ("len", toString (s.body l).size)]

/-- A record type. -/
def inspectRecord (s : Store) (r : RecordRef) : String :=
  let record := s.record r
  let name := match record.name with
    | some name => s!"Some({quoted name})"
    | none => "None"
  showStructure "Record"
    [("name", name), ("size", toString record.size), ("init", s.inspectLambda record.init)]

/-- An instance. -/
def inspectInstance (s : Store) (h : Heap) (i : InstanceRef) : String :=
  let size := match h.instance? i with
    | some x => (s.record x.record).size
    | none => 0
  s!"Instance({s.instanceName h i}, fields={size})"

/-- The stack. -/
def inspectStack (s : Store) (m : Machine) : String :=
  showStructure "Stack"
    [("values", showList (m.stack.values.toList.map (s.inspect m.heap))),
      ("depth", toString m.stack.depth)]

end Store

/-- A registry. -/
def Registry.inspect (r : Registry) : String :=
  showStructure "ModuleRegistry"
    [("modules", showList (r.moduleNames.map quoted)), ("natives", toString r.natives.length),
      ("records", toString r.records.size)]

end PlotMachine
