import PlotMachine.Image.Operand
import PlotMachine.Store
import PlotMachine.Unvisited

/-!
# Resolving image files

What an image file says of lambdas and record types by their index is made into lambdas and record
types of the code store. An instruction refers to an object that has to be made before it, so objects
are made depth first, in the middle of decoding other ones. A `Resolver` keeps a table of what it has
made, so that an object is made once however often it is referred to, and the path of references that
it follows must not come back to itself.
-/

namespace PlotMachine

/-- Where in a file something refers to something else. -/
inductive LinkSite where
  /-- An instruction of a lambda, with the operation as it is named there. -/
  | instruction (lambda : String) (offset : Nat) (op : String)
  /-- The initialiser of a record type. -/
  | initializer (record : Nat)
  deriving DecidableEq, Repr

/-- The description of a place in a file. -/
def LinkSite.message : LinkSite → String
  | .instruction lambda offset op => s!"lambda {lambda} instruction {offset} ({op})"
  | .initializer record => s!"initializer of record {record}"

/-- Why a lambda or record type cannot be resolved. -/
inductive ResolveError where
  /-- There is no such lambda or record type. -/
  | outOfRange (item : FileItem)
  /-- The lambda or record type refers to itself, if only by way of others. -/
  | circular (item : FileItem)
  | operand (e : OperandError)
  /-- Something that is referred to at a place cannot be resolved. -/
  | within (site : LinkSite) (e : ResolveError)

/-- What is wrong, the outermost context first. -/
def ResolveError.chain : ResolveError → List String
  | .outOfRange (.lambda index) => [s!"lambda index {index} out of range"]
  | .outOfRange (.record index) => [s!"record index {index} out of range"]
  | .circular (.lambda index) => [s!"lambda {index} refers back to itself"]
  | .circular (.record index) => [s!"record {index} refers back to itself"]
  | .operand e => e.chain
  | .within site e => site.message :: e.chain

namespace FileItem

/-- What a file has at an item. -/
@[reducible] def Def : FileItem → Type
  | .lambda _ => LambdaDef
  | .record _ => RecordDef

/-- What is made of an item. -/
@[reducible] def Ref : FileItem → Type
  | .lambda _ => LambdaRef
  | .record _ => RecordRef

end FileItem

namespace ImageFile

/-- All lambdas and record types of a file. -/
def items (f : ImageFile) : List FileItem :=
  (List.range f.lambdas.length).map .lambda ++ (List.range f.records.length).map .record

/-- What a file has at an item, if the item is in the file. -/
def def? (f : ImageFile) : (item : FileItem) → Option item.Def
  | .lambda n => f.lambdas[n]?
  | .record n => f.records[n]?

/-- What a file has something at is one of its items. -/
theorem mem_items_of_def? {f : ImageFile} {item : FileItem} {d : item.Def}
    (found : f.def? item = some d) : item ∈ f.items := by
  cases item with
  | lambda n => simp [items, (List.getElem?_eq_some_iff.1 found).1]
  | record n => simp [items, (List.getElem?_eq_some_iff.1 found).1]

end ImageFile

/-- What was made of a file so far. -/
structure Resolver (f : ImageFile) where
  /-- The store to which programs, lambdas and record types are added. -/
  store : Store
  /-- The next number for a callable. -/
  nextCallable : Nat
  /-- The lambdas that were made, by their index in the file. -/
  lambdas : Vector (Option LambdaRef) f.lambdas.length := .replicate _ none
  /-- The record types that were made, by their index in the file. -/
  records : Vector (Option RecordRef) f.records.length := .replicate _ none

namespace Resolver

variable {f : ImageFile}

/-- What was made of an item, if anything. -/
def made? (t : Resolver f) : (item : FileItem) → Option item.Ref
  | .lambda n => t.lambdas[n]?.join
  | .record n => t.records[n]?.join

/-- Enters what was made of an item in the table. -/
def note (t : Resolver f) : (item : FileItem) → item.Ref → Resolver f
  | .lambda n, l => { t with lambdas := t.lambdas.setIfInBounds n (some l) }
  | .record n, d => { t with records := t.records.setIfInBounds n (some d) }

end Resolver

/-- Computations that make parts of a file. -/
abbrev Resolving (f : ImageFile) := StateT (Resolver f) (Except ResolveError)

namespace Resolving

variable {f : ImageFile} {α : Type}

/-- Puts an error in the context of the place that led to it. -/
def within (site : LinkSite) (x : Resolving f α) : Resolving f α := fun t =>
  (x t).mapError (.within site)

/-- Takes a number for a callable. -/
def takeNumber : Resolving f Nat := fun t =>
  .ok (t.nextCallable, { t with nextCallable := t.nextCallable + 1 })

/-- Adds a program without instructions. -/
def newProgram : Resolving f ProgramRef := fun t =>
  let (home, store) := t.store.addProgram #[]
  .ok (home, { t with store })

/-- Appends an instruction to a program. -/
def encode (home : ProgramRef) (i : Instr) : Resolving f Unit := fun t =>
  .ok ((), { t with store := t.store.extend home #[i] })

/-- Adds a lambda. -/
def newLambda (l : Lambda) : Resolving f LambdaRef := fun t =>
  let (l, store) := t.store.addLambda l
  .ok (l, { t with store })

/-- Adds a record type. -/
def newRecord (d : Record) : Resolving f RecordRef := fun t =>
  let (d, store) := t.store.addRecord d
  .ok (d, { t with store })

end Resolving

/-- Makes an instruction of the program `home`, where `refer` makes what it refers to. A callable gets a
number of its own. -/
def Operand.link {f : ImageFile} (refer : (item : FileItem) → Resolving f item.Ref)
    (home : ProgramRef) : Operand → Resolving f Instr
  | .plain instr => return instr
  | .nativeValue make fn => do
    let id ← Resolving.takeNumber
    return make (.callable (.native id fn))
  | .lambdaValue make n => do
    let l ← refer (.lambda n)
    return make (.lambda l)
  | .functionValue make n => do
    let l ← refer (.lambda n)
    let id ← Resolving.takeNumber
    return make (.callable (.function id l none))
  | .target make offset => return make { program := some home, offset }
  | .lambda make n => do
    let l ← refer (.lambda n)
    return make l
  | .record make n => do
    let d ← refer (.record n)
    return make d

namespace ImageFile

/-- The source map of a lambda. -/
def sourceMap (positions : List PositionDef) : SourceMap :=
  .ofEntries (positions.map fun d =>
    ⟨d.offset, { file := d.file, line := d.line, column := d.column }⟩)

/-- The lambda that a lambda of a file becomes, with its program. -/
def lambdaOf (home : ProgramRef) (d : LambdaDef) : Lambda where
  name := d.name
  code := home
  maxStack := d.maxStack
  params := d.params
  vars := d.vars
  positions := sourceMap d.positions

/-- The record type that a record type of a file becomes, with its initialiser. -/
def recordOf (init : LambdaRef) (d : RecordDef) : Record where
  name := d.name
  size := d.size
  init

section

variable {f : ImageFile} (r : Registry) (refer : (item : FileItem) → Resolving f item.Ref)

/-- Decodes an instruction and appends it to a program. -/
def makeInstr (home : ProgramRef) (d : InstrDef) : Resolving f Unit :=
  match d.decode r with
  | .error e => fun _ => .error (.operand e)
  | .ok o => do
    let i ← o.link refer home
    Resolving.encode home i

/-- Makes a lambda. Its program is there before its instructions are, since its jumps refer to it. -/
def makeLambda (n : Nat) (d : LambdaDef) : Resolving f LambdaRef := do
  let home ← Resolving.newProgram
  d.code.zipIdx.forM fun (i, offset) =>
    (makeInstr r refer home i).within (.instruction (d.name.getD s!"#{n}") offset i.op)
  Resolving.newLambda (lambdaOf home d)

/-- Makes a record type. -/
def makeRecord (n : Nat) (d : RecordDef) : Resolving f RecordRef := do
  let init ← (refer (.lambda d.init)).within (.initializer n)
  Resolving.newRecord (recordOf init d)

/-- Makes what a file has at an item. -/
def make : (item : FileItem) → item.Def → Resolving f item.Ref
  | .lambda n, d => makeLambda r refer n d
  | .record n, d => makeRecord refer n d

end

/-- Makes what a file has at an item, unless it was made before, where the item is referred to by
everything in `path`. -/
def resolve (f : ImageFile) (r : Registry) (path : List FileItem) (item : FileItem) :
    Resolving f item.Ref := fun t =>
  match _found : f.def? item with
  | none => .error (.outOfRange item)
  | some d =>
    match t.made? item with
    | some ref => .ok (ref, t)
    | none =>
      if item ∈ path then .error (.circular item)
      else
        match make r (fun target => f.resolve r (item :: path) target) item d t with
        | .ok (ref, t) => .ok (ref, t.note item ref)
        | .error e => .error e
termination_by unvisited f.items path
decreasing_by exact unvisited_cons_lt (mem_items_of_def? _found) ‹_›

end ImageFile

/-- A loaded image. -/
structure Image where
  entry : LambdaRef
  lambdas : Array LambdaRef
  records : Array RecordRef
  /-- How many global slots are needed. -/
  globals : Nat
  deriving Inhabited

/-- Makes everything in a file. The entry has to be one of its lambdas. -/
def ImageFile.resolveAll (f : ImageFile) (r : Registry) : Resolving f Image := do
  let lambdas ← (List.range f.lambdas.length).mapM fun n => f.resolve r [] (.lambda n)
  let records ← (List.range f.records.length).mapM fun n => f.resolve r [] (.record n)
  return {
    entry := lambdas.getD f.entry default
    lambdas := lambdas.toArray
    records := records.toArray
    globals := f.globals }

end PlotMachine
