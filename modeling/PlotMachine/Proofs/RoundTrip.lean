import PlotMachine.Image.Load
import PlotMachine.Proofs.Json.Laws

/-!
# Image files are written as they are read

The reader takes many spellings of an image file and the writer has one. What the reader answers
fits (`ImageFile.fits_of_parse?`): numbers are words, and operands are values that a document can
denote. A file that fits is read back from what is written for it (`ImageFile.Fits.parse?_render`),
if the numbers in its operands are integers: the written form of a real may be read as one next to it.

Of the text of JSON nothing is used but its laws (`Json.TextLaws`).
-/

namespace PlotMachine

open Json Json.Raw

/-! ## Fields -/

namespace Json.Raw

/-- The values that are looked up in a structure are those of the fields that were written. -/
theorem fields?_raw_obj (names : List String) (fields : List (String × Json)) :
    (Json.obj fields).raw.fields? names =
      names.mapM (field? (fields.map fun f => (f.1, f.2.raw))) := by
  have keys : (rawFields fields).mapM (fun f => do return (← textOf? f.1, f.2)) =
      some (fields.map fun f => (f.1, f.2.raw)) := by
    induction fields with
    | nil => rfl
    | cons f fields ih =>
      simp only [rawFields, List.mapM_cons, textLaws.text_pieces, ih]
      rfl
  exact congrArg (Option.bind · fun fields => names.mapM (field? fields)) keys

theorem le_of_nat? {bound n : Nat} {r : Raw} (read : nat? bound r = some n) : n ≤ bound := by
  cases r with
  | num t =>
    rw [nat?] at read
    split at read
    · next m value =>
      by_cases range : 0 ≤ m ∧ m ≤ bound
      · obtain rfl := Option.some.inj ((if_pos range).symm.trans read)
        omega
      · cases (if_neg range).symm.trans read
    · cases read
  | _ => cases read

theorem nat?_raw {bound n : Nat} (fits : n ≤ bound) (word : bound ≤ maxWord) :
    nat? bound (natJson n).raw = some n := by
  have value : numberValue (.ofInt n) = some (.int n) :=
    textLaws.number_ofInt n (by omega) (by omega)
  have range : (0 : Int) ≤ n ∧ (n : Int) ≤ bound := by omega
  show nat? bound (.num (.ofInt n)) = _
  rw [nat?, value]
  exact if_pos range

theorem word?_raw {n : Nat} (fits : n ≤ maxWord) : word? (natJson n).raw = some n :=
  nat?_raw fits (Nat.le_refl _)

theorem halfWord?_raw {n : Nat} (fits : n ≤ 0xffffffff) : halfWord? (natJson n).raw = some n :=
  nat?_raw fits (by decide)

theorem name?_raw (name : Option String) : name? (nameJson name).raw = some name := by
  cases name with
  | none => rfl
  | some name =>
    show (textOf? (pieces name)).map some = _
    rw [textLaws.text_pieces]
    rfl

theorem text?_raw (s : String) : text? (Json.str s).raw = some s := textLaws.text_pieces s

/-- A list is read back if its items are. -/
theorem list?_raw {α : Type} {read : Raw → Option α} {write : α → Json} {items : List α}
    (all : ∀ a ∈ items, read (write a).raw = some a) :
    list? read (Json.arr (items.map write)).raw = some items := by
  show (rawItems (items.map write)).mapM read = _
  rw [rawItems_eq]
  induction items with
  | nil => rfl
  | cons a items ih =>
    rw [List.map_cons, List.map_cons, List.mapM_cons, all a List.mem_cons_self,
      ih fun a inside => all a (List.mem_cons_of_mem _ inside)]
    rfl

section Sound

variable {α : Type} {read : Raw → Option α} {p : α → Prop} (sound : ∀ {r a}, read r = some a → p a)
include sound

/-- What holds of all that is read holds of a field that has to be there. -/
theorem holds_of_required {field : Option Raw} {a : α} (found : required read field = some a) :
    p a := by
  cases field with
  | none => cases found
  | some r => exact sound found

/-- What holds of all that is read and of the default value holds of a field. -/
theorem holds_of_optional {field : Option Raw} {preset a : α} (holds : p preset)
    (found : optional read preset field = some a) : p a := by
  cases field with
  | none =>
    obtain rfl := Option.some.inj found
    exact holds
  | some r => exact sound found

/-- What holds of all that is read holds of the items of a list. -/
theorem holds_of_list? {r : Raw} {items : List α} (found : list? read r = some items) :
    ∀ a ∈ items, p a := by
  cases r with
  | arr parts =>
    replace found : parts.mapM read = some items := found
    induction parts generalizing items with
    | nil =>
      obtain rfl := Option.some.inj found
      exact List.forall_mem_nil _
    | cons r parts ih =>
      rw [List.mapM_cons] at found
      obtain ⟨a, first, found⟩ := Option.bind_eq_some_iff.1 found
      obtain ⟨later, rest, found⟩ := Option.bind_eq_some_iff.1 found
      obtain rfl := Option.some.inj found
      exact List.forall_mem_cons.2 ⟨sound first, ih rest⟩
  | _ => cases found

end Sound

end Json.Raw

/-! ## Structures that fit -/

/-- An instruction whose operand is a value that a document can denote. -/
def InstrDef.Fits (d : InstrDef) : Prop := ∀ arg ∈ d.arg, arg ≠ .null ∧ arg.Fits operandDepth

/-- A position whose numbers are words. -/
structure PositionDef.Fits (d : PositionDef) : Prop where
  offset : d.offset ≤ maxWord
  line : d.line ≤ 0xffffffff
  column : d.column ≤ 0xffffffff

/-- A lambda whose numbers are words, with code that fits. -/
structure LambdaDef.Fits (d : LambdaDef) : Prop where
  params : d.params ≤ maxWord
  vars : d.vars ≤ maxWord
  maxStack : d.maxStack ≤ maxWord
  code : ∀ i ∈ d.code, i.Fits
  positions : ∀ p ∈ d.positions, p.Fits

/-- A record type whose numbers are words. -/
structure RecordDef.Fits (d : RecordDef) : Prop where
  size : d.size ≤ maxWord
  init : d.init ≤ maxWord

/-- A file whose numbers are words, with lambdas and record types that fit. -/
structure ImageFile.Fits (f : ImageFile) : Prop where
  version : f.version ≤ 0xffffffff
  globals : f.globals ≤ maxWord
  entry : f.entry ≤ maxWord
  lambdas : ∀ d ∈ f.lambdas, d.Fits
  records : ∀ d ∈ f.records, d.Fits

/-- Operands that are read are no null. -/
theorem fits_of_operand? {r : Raw} {arg : Option Json} (read : operand? r = some arg) :
    ∀ v ∈ arg, v ≠ .null ∧ v.Fits operandDepth := by
  unfold operand? at read
  split at read
  · obtain rfl := Option.some.inj read
    rintro v ⟨⟩
  · next other =>
    obtain ⟨v, value, rfl⟩ := Option.map_eq_some_iff.1 read
    rintro _ ⟨rfl⟩
    refine ⟨?_, textLaws.fits_value r _ v value⟩
    rintro rfl
    exact other (textLaws.null_value r _ value)

theorem InstrDef.fits_of_ofRaw? {r : Raw} {d : InstrDef} (read : ofRaw? r = some d) : d.Fits := by
  obtain ⟨parts, -, read⟩ := Option.bind_eq_some_iff.1 read
  split at read
  · obtain ⟨op, -, read⟩ := Option.bind_eq_some_iff.1 read
    obtain ⟨arg, given, read⟩ := Option.bind_eq_some_iff.1 read
    obtain rfl := Option.some.inj read
    exact holds_of_optional fits_of_operand? (by rintro v ⟨⟩) given
  · cases read

theorem PositionDef.fits_of_ofRaw? {r : Raw} {d : PositionDef} (read : ofRaw? r = some d) :
    d.Fits := by
  obtain ⟨parts, -, read⟩ := Option.bind_eq_some_iff.1 read
  split at read
  · obtain ⟨offset, word, read⟩ := Option.bind_eq_some_iff.1 read
    obtain ⟨line, half₁, read⟩ := Option.bind_eq_some_iff.1 read
    obtain ⟨column, half₂, read⟩ := Option.bind_eq_some_iff.1 read
    obtain ⟨file, -, read⟩ := Option.bind_eq_some_iff.1 read
    obtain rfl := Option.some.inj read
    exact ⟨holds_of_required le_of_nat? word, holds_of_required le_of_nat? half₁,
      holds_of_optional le_of_nat? (Nat.zero_le _) half₂⟩
  · cases read

theorem LambdaDef.fits_of_ofRaw? {r : Raw} {d : LambdaDef} (read : ofRaw? r = some d) :
    d.Fits := by
  obtain ⟨parts, -, read⟩ := Option.bind_eq_some_iff.1 read
  split at read
  · obtain ⟨name, -, read⟩ := Option.bind_eq_some_iff.1 read
    obtain ⟨params, word₁, read⟩ := Option.bind_eq_some_iff.1 read
    obtain ⟨vars, word₂, read⟩ := Option.bind_eq_some_iff.1 read
    obtain ⟨maxStack, word₃, read⟩ := Option.bind_eq_some_iff.1 read
    obtain ⟨code, list₁, read⟩ := Option.bind_eq_some_iff.1 read
    obtain ⟨positions, list₂, read⟩ := Option.bind_eq_some_iff.1 read
    obtain rfl := Option.some.inj read
    exact {
      params := holds_of_optional le_of_nat? (Nat.zero_le _) word₁
      vars := holds_of_optional le_of_nat? (Nat.zero_le _) word₂
      maxStack := holds_of_optional le_of_nat? (Nat.zero_le _) word₃
      code := holds_of_required (holds_of_list? InstrDef.fits_of_ofRaw?) list₁
      positions := holds_of_optional (holds_of_list? PositionDef.fits_of_ofRaw?)
        (List.forall_mem_nil _) list₂ }
  · cases read

theorem RecordDef.fits_of_ofRaw? {r : Raw} {d : RecordDef} (read : ofRaw? r = some d) :
    d.Fits := by
  obtain ⟨parts, -, read⟩ := Option.bind_eq_some_iff.1 read
  split at read
  · obtain ⟨name, -, read⟩ := Option.bind_eq_some_iff.1 read
    obtain ⟨size, word₁, read⟩ := Option.bind_eq_some_iff.1 read
    obtain ⟨init, word₂, read⟩ := Option.bind_eq_some_iff.1 read
    obtain ⟨module, -, read⟩ := Option.bind_eq_some_iff.1 read
    obtain rfl := Option.some.inj read
    exact ⟨holds_of_required le_of_nat? word₁, holds_of_required le_of_nat? word₂⟩
  · cases read

/-- A file that was read fits. -/
theorem ImageFile.fits_of_parse? {text : String} {f : ImageFile} (parsed : parse? text = some f) :
    f.Fits := by
  obtain ⟨r, -, read⟩ := Option.bind_eq_some_iff.1 parsed
  obtain ⟨parts, -, read⟩ := Option.bind_eq_some_iff.1 read
  split at read
  · obtain ⟨version, half, read⟩ := Option.bind_eq_some_iff.1 read
    obtain ⟨globals, word₁, read⟩ := Option.bind_eq_some_iff.1 read
    obtain ⟨entry, word₂, read⟩ := Option.bind_eq_some_iff.1 read
    obtain ⟨lambdas, list₁, read⟩ := Option.bind_eq_some_iff.1 read
    obtain ⟨records, list₂, read⟩ := Option.bind_eq_some_iff.1 read
    obtain rfl := Option.some.inj read
    exact {
      version := holds_of_required le_of_nat? half
      globals := holds_of_optional le_of_nat? (Nat.zero_le _) word₁
      entry := holds_of_required le_of_nat? word₂
      lambdas := holds_of_optional (holds_of_list? LambdaDef.fits_of_ofRaw?)
        (List.forall_mem_nil _) list₁
      records := holds_of_optional (holds_of_list? RecordDef.fits_of_ofRaw?)
        (List.forall_mem_nil _) list₂ }
  · cases read

/-! ## Structures that are written -/

/-- The numbers in an operand are integers. -/
def InstrDef.Integral (d : InstrDef) : Prop := ∀ arg ∈ d.arg, arg.Integral

/-- The numbers in the operands of a file are integers. -/
def ImageFile.Integral (f : ImageFile) : Prop := ∀ d ∈ f.lambdas, ∀ i ∈ d.code, i.Integral

@[simp]
theorem integral_nameJson (name : Option String) : (nameJson name).Integral := by
  cases name with
  | none => exact .null
  | some name => exact .str name

@[simp]
theorem integral_natJson (n : Nat) : (natJson n).Integral := .int n

theorem InstrDef.Integral.toJson {d : InstrDef} (integral : d.Integral) : d.toJson.Integral := by
  obtain ⟨op, arg⟩ := d
  cases arg with
  | none => simp [InstrDef.toJson]
  | some v => simp [InstrDef.toJson, integral v rfl]

theorem InstrDef.Fits.ofRaw?_toJson {d : InstrDef} (fits : d.Fits) (integral : d.Integral) :
    ofRaw? d.toJson.raw = some d := by
  obtain ⟨op, arg⟩ := d
  cases arg with
  | none =>
    have parts : (InstrDef.toJson ⟨op, none⟩).raw.fields? ["op", "arg"] =
        some [some (Json.str op).raw, none] := by
      rw [InstrDef.toJson, fields?_raw_obj]
      rfl
    simp [ofRaw?, parts, required, Raw.optional, text?_raw]
  | some v =>
    have parts : (InstrDef.toJson ⟨op, some v⟩).raw.fields? ["op", "arg"] =
        some [some (Json.str op).raw, some v.raw] := by
      rw [InstrDef.toJson, fields?_raw_obj]
      rfl
    have operand : operand? v.raw = some (some v) := by
      obtain ⟨given, fits⟩ := fits v rfl
      unfold operand?
      split
      · next null => cases v <;> first | exact absurd rfl given | cases null
      · rw [textLaws.value_raw _ v fits (integral v rfl)]
        rfl
    simp [ofRaw?, parts, required, Raw.optional, text?_raw, operand]

@[simp]
theorem PositionDef.integral_toJson (d : PositionDef) : d.toJson.Integral := by
  simp [toJson]

theorem PositionDef.Fits.ofRaw?_toJson {d : PositionDef} (fits : d.Fits) :
    ofRaw? d.toJson.raw = some d := by
  have parts : d.toJson.raw.fields? ["offset", "line", "column", "file"] =
      some [some (natJson d.offset).raw, some (natJson d.line).raw, some (natJson d.column).raw,
        some (nameJson d.file).raw] := by
    rw [PositionDef.toJson, fields?_raw_obj]
    rfl
  simp [ofRaw?, parts, required, Raw.optional, name?_raw, word?_raw fits.offset,
    halfWord?_raw fits.line, halfWord?_raw fits.column]

theorem LambdaDef.integral_toJson {d : LambdaDef} (integral : ∀ i ∈ d.code, i.Integral) :
    d.toJson.Integral := by
  simpa [toJson] using fun i inside => (integral i inside).toJson

theorem LambdaDef.Fits.ofRaw?_toJson {d : LambdaDef} (fits : d.Fits)
    (integral : ∀ i ∈ d.code, i.Integral) : ofRaw? d.toJson.raw = some d := by
  have parts : d.toJson.raw.fields? ["name", "params", "vars", "max_stack", "code", "positions"] =
      some [some (nameJson d.name).raw, some (natJson d.params).raw, some (natJson d.vars).raw,
        some (natJson d.maxStack).raw, some (Json.arr (d.code.map InstrDef.toJson)).raw,
        some (Json.arr (d.positions.map PositionDef.toJson)).raw] := by
    rw [LambdaDef.toJson, fields?_raw_obj]
    rfl
  have code : list? InstrDef.ofRaw? (Json.arr (d.code.map InstrDef.toJson)).raw = some d.code :=
    list?_raw fun i inside => (fits.code i inside).ofRaw?_toJson (integral i inside)
  have positions : list? PositionDef.ofRaw? (Json.arr (d.positions.map PositionDef.toJson)).raw =
      some d.positions :=
    list?_raw fun p inside => (fits.positions p inside).ofRaw?_toJson
  simp [ofRaw?, parts, required, Raw.optional, name?_raw, word?_raw fits.params,
    word?_raw fits.vars, word?_raw fits.maxStack, code, positions]

@[simp]
theorem RecordDef.integral_toJson (d : RecordDef) : d.toJson.Integral := by
  simp [toJson]

theorem RecordDef.Fits.ofRaw?_toJson {d : RecordDef} (fits : d.Fits) :
    ofRaw? d.toJson.raw = some d := by
  have parts : d.toJson.raw.fields? ["name", "size", "init", "module"] =
      some [some (nameJson d.name).raw, some (natJson d.size).raw, some (natJson d.init).raw,
        some (Json.bool d.module).raw] := by
    rw [RecordDef.toJson, fields?_raw_obj]
    rfl
  have flag : bool? (Json.bool d.module).raw = some d.module := rfl
  simp [ofRaw?, parts, required, Raw.optional, name?_raw, word?_raw fits.size,
    word?_raw fits.init, flag]

namespace ImageFile

theorem Integral.toJson {f : ImageFile} (integral : f.Integral) : f.toJson.Integral := by
  simpa [ImageFile.toJson] using fun d inside => LambdaDef.integral_toJson (integral d inside)

theorem Fits.ofRaw?_toJson {f : ImageFile} (fits : f.Fits) (integral : f.Integral) :
    ofRaw? f.toJson.raw = some f := by
  have parts : f.toJson.raw.fields? ["version", "globals", "entry", "lambdas", "records"] =
      some [some (natJson f.version).raw, some (natJson f.globals).raw,
        some (natJson f.entry).raw, some (Json.arr (f.lambdas.map LambdaDef.toJson)).raw,
        some (Json.arr (f.records.map RecordDef.toJson)).raw] := by
    rw [ImageFile.toJson, fields?_raw_obj]
    rfl
  have lambdas : list? LambdaDef.ofRaw? (Json.arr (f.lambdas.map LambdaDef.toJson)).raw =
      some f.lambdas :=
    list?_raw fun d inside => (fits.lambdas d inside).ofRaw?_toJson (integral d inside)
  have records : list? RecordDef.ofRaw? (Json.arr (f.records.map RecordDef.toJson)).raw =
      some f.records :=
    list?_raw fun d inside => (fits.records d inside).ofRaw?_toJson
  simp [ofRaw?, parts, required, Raw.optional, halfWord?_raw fits.version,
    word?_raw fits.globals, word?_raw fits.entry, lambdas, records]

/-- A file that fits is read back from what is written for it. -/
theorem Fits.parse?_render {f : ImageFile} (fits : f.Fits) (integral : f.Integral) :
    parse? f.render = some f := by
  rw [parse?, render, textLaws.read_render _ integral.toJson]
  exact fits.ofRaw?_toJson integral

/-- A text that is an image file and what is written for that file are the same to every reader: the
file is read back from what is written for it, it is written in the same way again, and a host loads
both with the same outcome. The numbers in the operands have to be integers. -/
theorem written_as_read {text : String} {f : ImageFile} (parsed : parse? text = some f)
    (integral : f.Integral) :
    parse? f.render = some f ∧ (parse? f.render).map render = some f.render ∧
      ∀ h : Host, h.load f.render = h.load text := by
  have again : parse? f.render = some f := (fits_of_parse? parsed).parse?_render integral
  refine ⟨again, ?_, fun h => ?_⟩
  · rw [again]
    rfl
  · rw [Host.load, Host.load, again, parsed]

/-- An image file that is not as it would be written: structures are arrays of their fields or have
unknown fields, and an operand has one key twice. -/
def misspelled : Json :=
  .arr [.int 1, .int 0, .int 0, .arr [
    .obj [("note", .str "\t"), ("code", .arr [
      .arr [.str "constpush", .obj [("int", .int 1), ("int", .int (-7))]],
      .arr [.str "ret", .null]])]]]

/-- The file that it denotes. -/
def misspelledFile : ImageFile :=
  { version := 1
    entry := 0
    lambdas := [{
      code := [{ op := "constpush", arg := some (.obj [("int", .int (-7))]) }, { op := "ret" }] }] }

theorem written_as_read_misspelled :
    parse? misspelled.render = some misspelledFile ∧ misspelledFile.Integral ∧
      parse? misspelledFile.render = some misspelledFile ∧
      ∀ h : Host, h.load misspelledFile.render = h.load misspelled.render := by
  have written : misspelled.Integral := by
    simp [misspelled]
  have parsed : parse? misspelled.render = some misspelledFile := by
    rw [parse?, textLaws.read_render _ written]
    rfl
  have integral : misspelledFile.Integral := by
    simp [ImageFile.Integral, InstrDef.Integral, misspelledFile]
  obtain ⟨again, -, loaded⟩ := written_as_read parsed integral
  exact ⟨parsed, integral, again, loaded⟩

end ImageFile

end PlotMachine
