import PlotMachine.Proofs.Modules
import PlotMachine.Proofs.SourceMaps

/-!
# An image is what its file describes

`ImageFile.Decodes` says what a loaded image has to do with its file. Every lambda and every record
type of the file is one object of the image, with the sizes, the code and the positions that the
file gives it. An index in the file, wherever it stands, refers to the object that the image has for
it.

Nothing in the description goes through the decoder: an instruction is related to its name and its
JSON operand directly (`Instr.HasOperand`). `Host.decodes_of_loadFile` says that every image that is
loaded is such an image.
-/

namespace PlotMachine

/-- The value that a constant of a file stands for in an image. Functions and natives are made anew
for each constant. -/
inductive Constant.Denotes (r : Registry) (image : Image) : Constant → Value → Prop
  | literal {c : Constant} {v : Value} (known : c.literal? = some v) : Denotes r image c v
  | lambda {n : Nat} {l : LambdaRef} (found : image.lambdas[n]? = some l) :
      Denotes r image (.lambda n) (.lambda l)
  | function {n id : Nat} {l : LambdaRef} (found : image.lambdas[n]? = some l) :
      Denotes r image (.function n) (.callable (.function id l none))
  | native {name : String} {id : Nat} {fn : Native} (found : r.native? name = some fn) :
      Denotes r image (.native name) (.callable (.native id fn))

/-- The operand of an instruction of a program is the one that stands in the file. -/
def Instr.HasOperand (r : Registry) (image : Image) (home : ProgramRef) (arg : Option Json) :
    Instr → Prop
  | .intPush w => arg = some (.int w.toInt)
  | .constPush v =>
    ∃ json c, arg = some json ∧ Constant.ofJson? json = some c ∧ c.Denotes r image v
  | .load _ slot | .save _ slot => arg = some (.int slot)
  | .builtin fn => ∃ name, arg = some (.str name) ∧ r.native? name = some fn
  | .jump _ target => ∃ offset : Nat, arg = some (.int offset) ∧ target = ⟨some home, offset⟩
  | .makeFunc l => ∃ n : Nat, arg = some (.int n) ∧ image.lambdas[n]? = some l
  | .alloc t => ∃ n : Nat, arg = some (.int n) ∧ image.records[n]? = some t
  | _ => True

/-- A line of the source map as the file gives it. -/
def PositionDef.entry (d : PositionDef) : SourceMap.Entry :=
  ⟨d.offset, { file := d.file, line := d.line, column := d.column }⟩

/-- A lambda of the store is what the file describes. -/
structure LambdaDef.Decodes (d : LambdaDef) (r : Registry) (s : Store) (image : Image)
    (l : LambdaRef) : Prop where
  name : (s.lambda l).name = d.name
  params : (s.lambda l).params = d.params
  vars : (s.lambda l).vars = d.vars
  maxStack : (s.lambda l).maxStack = d.maxStack
  positions : (s.lambda l).positions.entries =
    (d.positions.map PositionDef.entry).mergeSort (·.offset ≤ ·.offset)
  length : (s.body l).size = d.code.length
  instr : ∀ (k : Nat) i, d.code[k]? = some i → ∃ instr, (s.body l)[k]? = some instr ∧
    instr.opcode.mnemonic = i.op ∧ instr.HasOperand r image (s.lambda l).code i.arg

/-- A record type of the store is what the file describes. -/
structure RecordDef.Decodes (d : RecordDef) (s : Store) (image : Image) (t : RecordRef) : Prop where
  name : (s.record t).name = d.name
  size : (s.record t).size = d.size
  init : image.lambdas[d.init]? = some (s.record t).init

/-- An image is what the file describes: its lambdas and record types are those of the file, each
one an object of its own. -/
structure ImageFile.Decodes (f : ImageFile) (r : Registry) (s : Store) (image : Image) : Prop where
  globals : image.globals = f.globals
  entry : image.lambdas[f.entry]? = some image.entry
  lambdas_size : image.lambdas.size = f.lambdas.length
  records_size : image.records.size = f.records.length
  lambdas_distinct : ∀ (m n : Nat) l l', image.lambdas[m]? = some l → image.lambdas[n]? = some l' →
    (s.lambda l).code = (s.lambda l').code → m = n
  records_distinct : ∀ (m n : Nat) t,
    image.records[m]? = some t → image.records[n]? = some t → m = n
  lambda : ∀ (n : Nat) d l, f.lambdas[n]? = some d → image.lambdas[n]? = some l →
    d.Decodes r s image l
  record : ∀ (n : Nat) d t, f.records[n]? = some d → image.records[n]? = some t →
    d.Decodes s image t

namespace ImageFile

variable {f : ImageFile} {r : Registry} {image : Image} {s s' : Store}

/-! ## Instructions -/

/-- An instruction that needs no operand keeps its name. -/
theorem opcode_of_form {op : Opcode} {i : Instr} (form : op.form = .plain i) :
    i.opcode = op ∧ ∀ image home arg, i.HasOperand r image home arg := by
  cases op <;> cases form <;> exact ⟨rfl, fun _ _ _ => trivial⟩

/-- An instruction that was made for an image is the one that stands in the file. -/
theorem hasOperand_of_makes {d : InstrDef} {o : Operand} {home : ProgramRef} {instr : Instr}
    (decoded : d.decode r = .ok o) (makes : o.Makes image.ref? home instr) :
    instr.opcode.mnemonic = d.op ∧ instr.HasOperand r image home d.arg := by
  cases InstrDef.decoded_of_decode decoded with
  | @simple op i named form =>
    cases makes
    obtain ⟨rfl, operand⟩ := opcode_of_form (r := r) form
    exact ⟨named.symm, operand _ _ _⟩
  | intPush named given =>
    cases makes
    exact ⟨named.symm, given⟩
  | load named given =>
    cases makes
    exact ⟨named.symm, given⟩
  | save named given =>
    cases makes
    exact ⟨named.symm, given⟩
  | literal pushes known =>
    cases makes
    obtain ⟨named, json, given, read⟩ := pushes
    exact ⟨named.symm, json, _, given, read, .literal known⟩
  | native pushes offered =>
    cases makes
    obtain ⟨named, json, given, read⟩ := pushes
    exact ⟨named.symm, json, _, given, read, .native offered⟩
  | lambda pushes =>
    obtain ⟨named, json, given, read⟩ := pushes
    cases makes with
    | lambdaValue _ made => exact ⟨named.symm, json, _, given, read, .lambda made⟩
  | function pushes =>
    obtain ⟨named, json, given, read⟩ := pushes
    cases makes with
    | functionValue _ _ made => exact ⟨named.symm, json, _, given, read, .function made⟩
  | builtin named given offered =>
    cases makes
    exact ⟨named.symm, _, given, offered⟩
  | @jump condition n named given =>
    cases makes
    have opcode_eq : ∀ target,
        (Instr.jump condition target).opcode = (Instr.jump condition {}).opcode := by
      intro target
      rcases condition with _ | ⟨_ | _⟩ <;> rfl
    rw [← opcode_eq ⟨some home, n⟩] at named
    exact ⟨named.symm, n, given, rfl⟩
  | makeFunc named given =>
    cases makes with
    | lambda _ made => exact ⟨named.symm, _, given, made⟩
  | alloc named given =>
    cases makes with
    | record _ made => exact ⟨named.symm, _, given, made⟩

/-! ## Lambdas and record types -/

/-- A lambda of an image is what the file describes. -/
theorem Installed.decodes {l : LambdaRef} {d : LambdaDef} (installed : Installed r image.ref? s l d) :
    d.Decodes r s image l := by
  refine ⟨?_, installed.params, installed.vars, ?_, ?_, installed.size, ?_⟩
  · rw [installed.lambda_eq, lambdaOf]
  · rw [installed.lambda_eq, lambdaOf]
  · rw [installed.lambda_eq]
    exact SourceMap.entries_ofEntries _
  · intro k i here
    obtain ⟨instr, o, found, decoded, makes⟩ := installed.exists_instr here
    exact ⟨instr, found, hasOperand_of_makes decoded makes⟩

/-- An image is what the file that it was made of describes. -/
theorem Built.decodes (built : f.Built r image s s') (entry : f.entry < f.lambdas.length) :
    f.Decodes r s' image := by
  refine ⟨built.globals, built.entry entry, built.lambdas_size, built.records_size, ?_, ?_, ?_, ?_⟩
  · intro m n l l' there there' same
    obtain ⟨d, -, home, code, stored, -⟩ := built.holds (.lambda m) l there
    obtain ⟨d', -, home', code', stored', -⟩ := built.holds (.lambda n) l' there'
    have code_eq : home = home' := by simpa [Store.lambda, stored, stored', lambdaOf] using same
    have items_eq := built.distinct (.lambda m) (.lambda n) l l' (.program home) there there'
      ⟨_, stored, rfl⟩ ⟨_, stored', code_eq.symm⟩
    exact FileItem.lambda.inj items_eq
  · intro m n t there there'
    have items_eq := built.distinct (.record m) (.record n) t t (.record t) there there' rfl rfl
    exact FileItem.record.inj items_eq
  · exact fun n d l found there => (built.installed found there).decodes
  · intro n d t found there
    obtain ⟨init, made, record_eq⟩ := built.record_eq found there
    refine ⟨?_, ?_, ?_⟩
    · rw [record_eq, recordOf]
    · rw [record_eq, recordOf]
    · rw [record_eq, recordOf]
      exact made

end ImageFile

namespace Host

variable {h h' : Host} {f : ImageFile} {image : Image}

/-- An image that is loaded is what its file describes. The modules of the file, which all have
names, are loaded into the registry in the order of the file. -/
theorem decodes_of_loadFile (loaded : h.loadFile f = (.ok image, h')) :
    f.Decodes h.registry h'.store image ∧
      (∀ d ∈ f.records, d.module = true → d.name.isSome) ∧
      h'.registry = h.registry.loadRecords (ImageFile.withNames (f.modules image)) := by
  have known := loaded_of_loadFile loaded
  exact ⟨known.built.decodes known.formed.entry, known.formed.named,
    ImageFile.loadModules_of_ok known.modules⟩

/-- A file in which one lambda is referred to three times, first by a lambda that stands before it, with
a loop, positions that are not in order and a module. -/
def sharing : ImageFile where
  version := 1
  entry := 0
  lambdas :=
    [{ name := some "main", maxStack := 2
       code := [⟨"constpush", some (.obj [("function", .int 1)])⟩, ⟨"pushclosure", none⟩,
         ⟨"makefunc", some (.int 1)⟩, ⟨"func_eq", none⟩, ⟨"cjmp", some (.int 0)⟩,
         ⟨"alloc", some (.int 0)⟩]
       positions := [⟨2, 5, 1, none⟩, ⟨0, 3, 1, none⟩, ⟨2, 7, 1, none⟩] },
      { name := some "init", params := 1, vars := 1, code := [⟨"ret", none⟩] }]
  records := [{ name := some "point", size := 2, init := 1, module := true }]

/-- The second lambda is made first, since the first one refers to it. -/
theorem decodes_of_loadFile_sharing :
    ∃ image h', bare.loadFile sharing = (.ok image, h') ∧ image.lambdas = #[⟨1⟩, ⟨0⟩] ∧
      sharing.Decodes bare.registry h'.store image ∧
      h'.registry = bare.registry.loadRecords [("point", ⟨0⟩)] := by
  have loaded : bare.loadFile sharing = (.ok ⟨⟨1⟩, #[⟨1⟩, ⟨0⟩], #[⟨0⟩], 0⟩, (bare.loadFile sharing).2) :=
    Prod.ext (by cbv) rfl
  have modules : ImageFile.withNames (sharing.modules ⟨⟨1⟩, #[⟨1⟩, ⟨0⟩], #[⟨0⟩], 0⟩) =
      [("point", ⟨0⟩)] := by
    cbv
  obtain ⟨decodes, -, registry⟩ := decodes_of_loadFile loaded
  rw [modules] at registry
  exact ⟨_, _, loaded, rfl, decodes, registry⟩

end Host

end PlotMachine
