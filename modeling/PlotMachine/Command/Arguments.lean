import PlotMachine.Json.Reader

/-!
# Command lines

What the arguments of the program ask for. Options may stand before or after the name of the action;
an option that is given in both places counts as it is given after it. A path must not lead upwards.
-/

namespace PlotMachine

/-- What to do with an image. -/
inductive Action where
  | run | check | list
  deriving DecidableEq, Repr, Inhabited

/-- The action with a name. -/
def Action.ofName? (name : String) : Option Action :=
  if name = "run" then some .run
  else if name = "check" then some .check
  else if name = "disasm" then some .list
  else none

/-- A path that leads upwards was given. -/
structure PathError where
  deriving DecidableEq, Repr

/-- The description of the error. -/
def PathError.message (_ : PathError) : String :=
  "Parent directory components ('..') are not allowed in file paths."

/-- Refuses a path that leads upwards. -/
def checkPath (path : String) : Except PathError String :=
  if (path.splitOn "/").contains ".." then .error {} else .ok path

/-- What options and file were given before or after the name of the action. -/
structure Given where
  file : Option String := none
  config : Option String := none
  maxCallDepth : Option Nat := none
  deriving DecidableEq, Repr, Inhabited

/-- What the arguments ask for. -/
inductive Order where
  /-- The version of the program. -/
  | version
  /-- A description of the arguments. -/
  | help
  /-- Something to be done with a file, unless none is given. -/
  | act (action : Action) (file : Option String) (config : Option String)
      (maxCallDepth : Option Nat)
  deriving DecidableEq, Repr

/-- A way in which arguments can end early or be wrong. -/
inductive Parting where
  | version | help
  /-- The arguments make no sense. -/
  | misuse
  deriving DecidableEq, Repr

namespace Given

/-- A number of calls. A plus sign may stand before it. -/
def count? (text : String) : Option Nat :=
  let digits := match text.toList with
    | '+' :: rest => rest
    | cs => cs
  if digits.isEmpty then none
  else do
    let n ← digits.foldlM (fun n c => return n * 10 + (← Json.digit? c)) 0
    if n ≤ Json.maxWord then some n else none

/-- Notes the value of an option. -/
def setOption (g : Given) (name value : String) : Except Parting Given :=
  if name = "config" then
    match g.config, checkPath value with
    | none, .ok path => .ok { g with config := some path }
    | _, _ => .error .misuse
  else if name = "max-call-depth" then
    match g.maxCallDepth, count? value with
    | none, some n => .ok { g with maxCallDepth := some n }
    | _, _ => .error .misuse
  else .error .misuse

/-- Notes a file. -/
def setFile (g : Given) (path : String) : Except Parting Given :=
  match g.file, checkPath path with
  | none, .ok path => .ok { g with file := some path }
  | _, _ => .error .misuse

/-- Notes that the remaining arguments are files. -/
def setFiles (g : Given) : List String → Except Parting Given
  | [] => .ok g
  | path :: rest => do (← g.setFile path).setFiles rest

end Given

/-- An argument, by its form. -/
inductive Argument where
  /-- Two hyphens: only files follow. -/
  | filesOnly
  | option (name : String) (value : Option String)
  /-- Flags of one letter each. -/
  | flags (letters : List Char)
  | word (text : String)
  deriving DecidableEq, Repr

/-- The form of an argument. -/
def Argument.ofText (text : String) : Argument :=
  match text.toList with
  | ['-', '-'] => .filesOnly
  | '-' :: '-' :: rest =>
    match rest.dropWhile (· != '=') with
    | '=' :: value => .option (String.ofList (rest.takeWhile (· != '='))) (String.ofList value)
    | _ => .option (String.ofList rest) none
  | '-' :: c :: rest => .flags (c :: rest)
  | _ => .word text

/-- Whether an argument can be the value of the option before it. -/
def Argument.isValue : Argument → Bool
  | .word _ => true
  | _ => false

/-- What follows from asking for help by name: help, unless something else is asked for than help on
one of the names there are. -/
def helpOn : List String → Parting
  | [] => .help
  | [name] => if name = "help" || (Action.ofName? name).isSome then .help else .misuse
  | _ => .misuse

/-- Reads arguments. The flag tells whether the name of an action may still follow; the reading
stops there and answers the arguments behind it. -/
def readArguments (actions : Bool) (g : Given) :
    List String → Except Parting (Given × Option (Action × List String))
  | [] => .ok (g, none)
  | arg :: rest =>
    match Argument.ofText arg with
    | .filesOnly => do return (← g.setFiles rest, none)
    | .option "help" none => .error .help
    | .option "version" none => .error (if actions then .version else .misuse)
    | .option name (some value) => do readArguments actions (← g.setOption name value) rest
    | .option name none =>
      match rest with
      | value :: rest =>
        if (Argument.ofText value).isValue then do
          readArguments actions (← g.setOption name value) rest
        else .error .misuse
      | [] => .error .misuse
    | .flags ('h' :: _) => .error .help
    | .flags ('V' :: _) => .error (if actions then .version else .misuse)
    | .flags _ => .error .misuse
    | .word text =>
      match if actions then Action.ofName? text else none with
      | some action => .ok (g, some (action, rest))
      | none =>
        if actions && text = "help" then .error (helpOn rest)
        else do readArguments actions (← g.setFile text) rest

/-- What the arguments ask for, or nothing if they make no sense. -/
def parseArguments (args : List String) : Option Order :=
  let given := do
    let (outer, action) ← readArguments true {} args
    match action with
    | none => return Order.act .run outer.file outer.config outer.maxCallDepth
    | some (action, rest) =>
      let (inner, _) ← readArguments false {} rest
      match inner.file with
      | none => throw Parting.misuse
      | some file =>
        let config := inner.config.or outer.config
        let maxCallDepth := inner.maxCallDepth.or outer.maxCallDepth
        return .act action (some file) config maxCallDepth
  match given with
  | .ok request => some request
  | .error .version => some .version
  | .error .help => some .help
  | .error .misuse => none

end PlotMachine
