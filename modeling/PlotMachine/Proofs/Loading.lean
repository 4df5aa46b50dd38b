import PlotMachine.Proofs.Making
import PlotMachine.Proofs.Validation

/-!
# Which image files can be loaded

`ImageFile.WellFormed` says what an image file has to be like, in terms of the file and of the
natives the registry offers. `Host.exists_loadFile_iff` says that these are the files that can be
loaded, whatever is loaded already.

Loading decides it in two passes. The resolver is dealt with in `PlotMachine.Proofs.Making`. The
lambdas and record types that it makes form a closed set, so validation succeeds if and only if each of
them passes its own checks.
-/

namespace PlotMachine

namespace ImageFile

/-- Sizes, slots, jumps and initialisers are in bounds. -/
structure Bounded (f : ImageFile) : Prop where
  params : ∀ d ∈ f.lambdas, d.params ≤ d.vars
  slots : ∀ d ∈ f.lambdas, ∀ i ∈ d.code, ∀ n, i.UsesSlot n → n < d.vars
  jumps : ∀ d ∈ f.lambdas, ∀ i ∈ d.code, ∀ n, i.JumpsTo n → n ≤ d.code.length
  init : ∀ d ∈ f.records, ∀ l, f.lambdas[d.init]? = some l → l.params = 1

/-- An image file that can be loaded where the given natives are offered. -/
structure WellFormed (f : ImageFile) (r : Registry) : Prop extends f.Linked r, f.Bounded where
  version : f.version = 1
  entry : f.entry < f.lambdas.length
  named : ∀ d ∈ f.records, d.module = true → d.name.isSome

end ImageFile

/-! ## Checks of instructions -/

namespace InstrDef

variable {r : Registry} {ref? : (item : FileItem) → Option item.Ref} {d : InstrDef} {o : Operand}
  {i : Instr} {home : ProgramRef}

/-- An instruction that needs no operand names no slot, goes nowhere and refers to nothing. -/
theorem checks_of_form {op : Opcode} {i : Instr} (form : op.form = .plain i) :
    i.dependency? = none ∧ ∀ s lambda offset, Store.checkInstr s lambda offset i = .ok () := by
  cases op <;> cases form <;> exact ⟨rfl, fun _ _ _ => rfl⟩

theorem usesSlot_iff {op : Opcode} (named : d.op = op.mnemonic) {n : Nat} :
    d.UsesSlot n ↔ (op = .varPush ∨ op = .varSave) ∧ d.arg = some (.int n) := by
  simp only [UsesSlot, named, Opcode.mnemonic_inj]

theorem jumpsTo_iff {op : Opcode} (named : d.op = op.mnemonic) {n : Nat} :
    d.JumpsTo n ↔ (op = .jmp ∨ op = .cJmp ∨ op = .nJmp) ∧ d.arg = some (.int n) := by
  simp only [JumpsTo, named, Opcode.mnemonic_inj]

theorem jumpsTo_of_mnemonic {condition : JumpCondition} {n : Nat}
    (named : d.op = (Instr.jump condition {}).opcode.mnemonic) (given : d.arg = some (.int n)) :
    d.JumpsTo n := by
  refine (jumpsTo_iff named).2 ⟨?_, given⟩
  rcases condition with _ | ⟨_ | _⟩
  · exact .inl rfl
  · exact .inr (.inr rfl)
  · exact .inr (.inl rfl)

/-- Other instructions have no bounds to keep to. -/
theorem bounds_of_other {op : Opcode} {vars size : Nat} (named : d.op = op.mnemonic)
    (other : op ∉ [.varPush, .varSave, .jmp, .cJmp, .nJmp]) :
    (∀ n, d.UsesSlot n → n < vars) ∧ ∀ n, d.JumpsTo n → n ≤ size := by
  simp only [usesSlot_iff named, jumpsTo_iff named]
  constructor
  · rintro n ⟨rfl | rfl, -⟩ <;> exact absurd (by decide) other
  · rintro n ⟨rfl | rfl | rfl, -⟩ <;> exact absurd (by decide) other

/-- An instruction for a variable has to keep to the slots. -/
theorem bounds_iff_of_var {op : Opcode} {vars size n : Nat} (named : d.op = op.mnemonic)
    (var : op = .varPush ∨ op = .varSave) (given : d.arg = some (.int n)) :
    ((∀ n, d.UsesSlot n → n < vars) ∧ ∀ n, d.JumpsTo n → n ≤ size) ↔ n < vars := by
  simp only [usesSlot_iff named, jumpsTo_iff named]
  constructor
  · exact fun bounds => bounds.1 n ⟨var, given⟩
  · intro inside
    refine ⟨fun k uses => ?_, fun k jumps => ?_⟩
    · cases given.symm.trans uses.2
      exact inside
    · rcases var with rfl | rfl <;> rcases jumps.1 with same | same | same <;> cases same

/-- A jump has to keep to the code. -/
theorem bounds_iff_of_jump {condition : JumpCondition} {vars size n : Nat}
    (named : d.op = (Instr.jump condition {}).opcode.mnemonic) (given : d.arg = some (.int n)) :
    ((∀ n, d.UsesSlot n → n < vars) ∧ ∀ n, d.JumpsTo n → n ≤ size) ↔ n ≤ size := by
  constructor
  · exact fun bounds => bounds.2 n (jumpsTo_of_mnemonic named given)
  · intro inside
    refine ⟨fun k uses => ?_, fun k jumps => ?_⟩
    · have both := (usesSlot_iff named).1 uses
      rcases condition with _ | ⟨_ | _⟩ <;> rcases both.1 with same | same <;> cases same
    · cases given.symm.trans jumps.2
      exact inside

/-- An instruction passes its check if its slot and its target are in bounds. -/
theorem checkInstr_eq_ok_iff {lambda : Lambda} (found : d.decode r = .ok o)
    (makes : o.Makes ref? lambda.code i) (s : Store) (offset : Nat) :
    s.checkInstr lambda offset i = .ok () ↔
      (∀ n, d.UsesSlot n → n < lambda.vars) ∧ ∀ n, d.JumpsTo n → n ≤ (s.code lambda.code).size := by
  cases decoded_of_decode found with
  | @simple op i named form =>
    cases makes
    refine iff_of_true ((checks_of_form form).2 s lambda offset) (bounds_of_other named ?_)
    intro listed
    cases op <;> cases form <;> exact absurd listed (by decide)
  | intPush named given =>
    cases makes
    exact iff_of_true rfl (bounds_of_other named (by decide))
  | @load storage n named given =>
    cases makes
    cases storage with
    | var => exact Store.checkSlot_eq_ok_iff.trans (bounds_iff_of_var named (.inl rfl) given).symm
    | global => exact iff_of_true rfl (bounds_of_other named (by simp [Instr.opcode]))
    | field => exact iff_of_true rfl (bounds_of_other named (by simp [Instr.opcode]))
  | @save storage n named given =>
    cases makes
    cases storage with
    | var => exact Store.checkSlot_eq_ok_iff.trans (bounds_iff_of_var named (.inr rfl) given).symm
    | global => exact iff_of_true rfl (bounds_of_other named (by simp [Instr.opcode]))
    | field => exact iff_of_true rfl (bounds_of_other named (by simp [Instr.opcode]))
  | literal pushes known =>
    cases makes
    exact iff_of_true rfl (bounds_of_other pushes.1 (by decide))
  | native pushes offered =>
    cases makes
    exact iff_of_true rfl (bounds_of_other pushes.1 (by decide))
  | lambda pushes =>
    cases makes
    exact iff_of_true rfl (bounds_of_other pushes.1 (by decide))
  | function pushes =>
    cases makes
    exact iff_of_true rfl (bounds_of_other pushes.1 (by decide))
  | builtin named given offered =>
    cases makes
    exact iff_of_true rfl (bounds_of_other named (by decide))
  | @jump condition n named given =>
    cases makes
    rw [bounds_iff_of_jump named given]
    exact Store.checkTarget_eq_ok_iff.trans ⟨And.right, fun inside => ⟨rfl, inside⟩⟩
  | makeFunc named given =>
    cases makes
    exact iff_of_true rfl (bounds_of_other named (by decide))
  | alloc named given =>
    cases makes
    exact iff_of_true rfl (bounds_of_other named (by decide))

/-- The code that an instruction is valid only with was made of something that it mentions. -/
theorem exists_ref_of_dependency? (found : d.decode r = .ok o) (makes : o.Makes ref? home i)
    {c : Check} (needs : i.dependency? = some c) :
    (∃ n l, ref? (.lambda n) = some l ∧ c = .lambda l) ∨
      ∃ n t, ref? (.record n) = some t ∧ c = .record t := by
  cases decoded_of_decode found with
  | simple named form =>
    cases makes
    rw [(checks_of_form form).1] at needs
    cases needs
  | @literal literal v pushes known =>
    cases makes
    cases literal <;> cases known <;> cases needs
  | lambda pushes =>
    cases makes with
    | lambdaValue _ made =>
      cases needs
      exact .inl ⟨_, _, made, rfl⟩
  | makeFunc named given =>
    cases makes with
    | lambda _ made =>
      cases needs
      exact .inl ⟨_, _, made, rfl⟩
  | alloc named given =>
    cases makes with
    | record _ made =>
      cases needs
      exact .inr ⟨_, _, made, rfl⟩
  | _ =>
    cases makes
    cases needs

end InstrDef

/-! ## Validation of what was made -/

/-- An action on each item of a list succeeds if it does on every item. -/
theorem forM_eq_ok_iff {ε α : Type} {g : α → Except ε Unit} {xs : List α} :
    xs.forM g = .ok () ↔ ∀ x ∈ xs, g x = .ok () := by
  induction xs with
  | nil => exact iff_of_true rfl nofun
  | cons x rest ih =>
    rw [List.forall_mem_cons, ← ih]
    change (g x >>= fun _ => rest.forM g) = _ ↔ _
    cases here : g x with
    | error e => exact iff_of_false nofun fun both => nomatch both.1
    | ok u => exact ⟨fun ok => ⟨rfl, ok⟩, fun both => both.2⟩

/-- A check of each item of an array, where the position of an item is only used to report it. -/
theorem forM_zipIdx_eq_ok_iff {α : Type} {check : α → Except Fault Unit} {xs : Array α}
    (context : α × Nat → Fault → LoadError) :
    (xs.toList.zipIdx.forM fun x => (check x.1).mapError (context x)) = .ok () ↔
      ∀ x ∈ xs, check x = .ok () := by
  simp only [forM_eq_ok_iff, mapError_eq_ok_iff]
  constructor
  · intro all x inside
    obtain ⟨n, here⟩ := List.mem_iff_getElem?.1 (Array.mem_toList_iff.2 inside)
    exact all (x, n) (List.mk_mem_zipIdx_iff_getElem?.2 here)
  · exact fun all x indexed => all x.1 (Array.mem_toList_iff.1 (List.fst_mem_of_mem_zipIdx indexed))

/-- A record type is there under its name once it is loaded. -/
theorem Registry.mem_loadRecord (r : Registry) (name : String) (t : RecordRef) :
    (name, t) ∈ (r.loadRecord name t).2.records := by
  refine Array.mem_of_getElem? (i := (r.loadRecord name t).1) ?_
  rw [getElem?_loadRecord, if_pos rfl]

/-- A record type that is loaded is the only module that is new. -/
theorem Registry.mem_records_loadRecord {r : Registry} {name : String} {t : RecordRef}
    {entry : String × RecordRef} (listed : entry ∈ (r.loadRecord name t).2.records) :
    entry ∈ r.records ∨ entry = (name, t) := by
  obtain ⟨slot, found⟩ := Array.mem_iff_getElem?.1 listed
  rw [getElem?_loadRecord] at found
  split at found
  · exact .inr (Option.some.inj found).symm
  · exact .inl (Array.mem_of_getElem? found)

namespace ImageFile

variable {f : ImageFile} {r : Registry} {image : Image} {s s' : Store}

/-- A lambda passes its checks if its sizes, slots and jumps are in bounds. -/
theorem Installed.lambdaOk_iff {ref? : (item : FileItem) → Option item.Ref} {l : LambdaRef}
    {d : LambdaDef} (installed : Installed r ref? s' l d) :
    s'.LambdaOk l ↔ d.params ≤ d.vars ∧ ∀ i ∈ d.code,
      (∀ n, i.UsesSlot n → n < d.vars) ∧ ∀ n, i.JumpsTo n → n ≤ d.code.length := by
  have sizes : Store.checkSizes (s'.lambda l) = .ok () ↔ d.params ≤ d.vars := by
    rw [← installed.params, ← installed.vars, Store.checkSizes_eq_ok_iff]
  have length : (s'.code (s'.lambda l).code).size = d.code.length := installed.size
  constructor
  · rintro ⟨sized, checked⟩
    refine ⟨sizes.1 sized, fun i inside => ?_⟩
    obtain ⟨n, here⟩ := List.mem_iff_getElem?.1 inside
    obtain ⟨instr, o, found, decoded, makes⟩ := installed.exists_instr here
    have bounds := (InstrDef.checkInstr_eq_ok_iff decoded makes s' n).1 (checked n _ found)
    rwa [installed.vars, length] at bounds
  · rintro ⟨sized, bounds⟩
    refine ⟨sizes.2 sized, fun n instr found => ?_⟩
    obtain ⟨i, here, o, decoded, makes⟩ := installed.exists_instrDef found
    refine (InstrDef.checkInstr_eq_ok_iff decoded makes s' n).2 ?_
    rw [installed.vars, length]
    exact bounds i here

/-- The record types of a file pass their check if their initialisers take one argument. -/
theorem Built.checkInit_iff (built : f.Built r image s s') {n : Nat} {d : RecordDef} {t : RecordRef}
    (found : f.records[n]? = some d) (there : image.records[n]? = some t) :
    s'.checkInit (s'.record t) = .ok () ↔ ∀ l, f.lambdas[d.init]? = some l → l.params = 1 := by
  obtain ⟨init, made, record_eq⟩ := built.record_eq found there
  obtain ⟨l, listed, -⟩ := built.holds (.lambda d.init) init made
  have params : (s'.lambda (recordOf init d).init).params = l.params :=
    (built.installed listed made).params
  rw [record_eq, Store.checkInit, params, show f.lambdas[d.init]? = some l from listed]
  split
  · next one =>
    refine iff_of_true rfl fun l same => ?_
    cases same
    exact one
  · next other => exact iff_of_false nofun fun all => other (all _ rfl)

/-- The lambdas and record types of an image refer to nothing but each other. -/
theorem Built.closed (built : f.Built r image s s') (bounded : f.Bounded) :
    s'.Closed (· ∈ image.lambdas) (· ∈ image.records) where
  lambda := by
    intro l inside
    obtain ⟨n, there⟩ := Array.mem_iff_getElem?.1 inside
    obtain ⟨d, found, -⟩ := built.holds (.lambda n) l there
    have listed := List.mem_of_getElem? found
    exact (built.installed found there).lambdaOk_iff.2
      ⟨bounded.params _ listed, fun i here =>
        ⟨bounded.slots _ listed i here, bounded.jumps _ listed i here⟩⟩
  record := by
    intro t inside
    obtain ⟨n, there⟩ := Array.mem_iff_getElem?.1 inside
    obtain ⟨d, found, -⟩ := built.holds (.record n) t there
    obtain ⟨init, made, record_eq⟩ := built.record_eq found there
    refine ⟨(built.checkInit_iff found there).2 (bounded.init _ (List.mem_of_getElem? found)), ?_⟩
    rw [record_eq]
    exact Array.mem_of_getElem? made
  dependency := by
    intro l inside instr here
    obtain ⟨n, there⟩ := Array.mem_iff_getElem?.1 inside
    obtain ⟨d, found, -⟩ := built.holds (.lambda n) l there
    obtain ⟨offset, at_offset⟩ := Array.mem_iff_getElem?.1 here
    obtain ⟨i, listed, o, decoded, makes⟩ := (built.installed found there).exists_instrDef at_offset
    constructor
    · intro l' needs
      rcases InstrDef.exists_ref_of_dependency? decoded makes needs with
        ⟨k, l', made, ⟨⟩⟩ | ⟨k, t, made, ⟨⟩⟩
      exact Array.mem_of_getElem? made
    · intro t' needs
      rcases InstrDef.exists_ref_of_dependency? decoded makes needs with
        ⟨k, l', made, ⟨⟩⟩ | ⟨k, t, made, ⟨⟩⟩
      exact Array.mem_of_getElem? made

/-- Validation succeeds if each lambda and each record type is valid. -/
theorem validate_eq_ok_iff :
    validate s' image = .ok () ↔ (∀ l ∈ image.lambdas, s'.validateLambda l = .ok ()) ∧
      ∀ t ∈ image.records, s'.validateRecord t = .ok () := by
  constructor
  · intro ok
    obtain ⟨_, first, second⟩ := exists_of_bind_eq_ok ok
    exact ⟨(forM_zipIdx_eq_ok_iff _).1 first, (forM_zipIdx_eq_ok_iff _).1 second⟩
  · rintro ⟨lambdas, records⟩
    have first := (forM_zipIdx_eq_ok_iff fun x =>
      .invalidLambda x.2 (s'.lambda x.1).displayName).2 lambdas
    have second := (forM_zipIdx_eq_ok_iff fun x =>
      .invalidRecord x.2 (s'.record x.1).displayName).2 records
    change (_ >>= fun _ => _) = _
    exact (congrArg (· >>= fun _ => _) first).trans second

/-- An image is valid if the file it was made of is in bounds. -/
theorem Built.validate_iff (built : f.Built r image s s') : validate s' image = .ok () ↔ f.Bounded := by
  rw [validate_eq_ok_iff]
  constructor
  · rintro ⟨lambdas, records⟩
    have good : ∀ d ∈ f.lambdas, d.params ≤ d.vars ∧ ∀ i ∈ d.code,
        (∀ n, i.UsesSlot n → n < d.vars) ∧ ∀ n, i.JumpsTo n → n ≤ d.code.length := by
      intro d listed
      obtain ⟨n, found⟩ := List.mem_iff_getElem?.1 listed
      obtain ⟨l, there⟩ := built.exists_ref (.lambda n) d found
      obtain ⟨_, _, closed, member⟩ :=
        Store.validateLambda_eq_ok_iff.1 (lambdas l (Array.mem_of_getElem? there))
      exact (built.installed found there).lambdaOk_iff.1 (closed.lambda l member)
    refine ⟨fun d listed => (good d listed).1, fun d listed i here => ((good d listed).2 i here).1,
      fun d listed i here => ((good d listed).2 i here).2, fun d listed => ?_⟩
    obtain ⟨n, found⟩ := List.mem_iff_getElem?.1 listed
    obtain ⟨t, there⟩ := built.exists_ref (.record n) d found
    obtain ⟨_, _, -, settled⟩ :=
      Store.exists_closed_of_checkAll (records t (Array.mem_of_getElem? there))
    exact (built.checkInit_iff found there).1 (settled _ (List.mem_singleton_self _)).1
  · intro bounded
    have closed := built.closed bounded
    exact ⟨fun l inside => Store.validateLambda_eq_ok_iff.2 ⟨_, _, closed, inside⟩,
      fun t inside => Store.checkAll_of_closed closed (List.forall_mem_singleton.2 inside)⟩

/-- Modules are loaded if all of them have a name. -/
theorem exists_loadModules_iff {records : List (RecordDef × RecordRef)} :
    (∃ r', loadModules r records = (.ok (), r')) ↔
      ∀ d ∈ records.map (·.1), d.module = true → d.name.isSome := by
  induction records generalizing r with
  | nil => exact iff_of_true ⟨r, rfl⟩ nofun
  | cons first rest ih =>
    obtain ⟨d, t⟩ := first
    rw [List.map_cons, List.forall_mem_cons, loadModules]
    by_cases module : d.module = true
    · rw [if_pos module]
      cases name : d.name with
      | none => exact iff_of_false nofun fun all => nomatch all.1 module
      | some name' => exact ih.trans ⟨fun all => ⟨fun _ => rfl, all⟩, fun all => all.2⟩
    · rw [if_neg module]
      exact ih.trans ⟨fun all => ⟨fun yes => absurd yes module, all⟩, fun all => all.2⟩

/-- The modules after loading are those there were and those that were to be loaded. -/
theorem mem_records_loadModules {records : List (RecordDef × RecordRef)} {r' : Registry}
    {result : Except LoadError Unit} (loaded : loadModules r records = (result, r'))
    {entry : String × RecordRef} (listed : entry ∈ r'.records) :
    entry ∈ r.records ∨ entry.2 ∈ records.map (·.2) := by
  induction records generalizing r with
  | nil =>
    cases loaded
    exact .inl listed
  | cons first rest ih =>
    obtain ⟨d, t⟩ := first
    rw [loadModules] at loaded
    rw [List.map_cons, List.mem_cons]
    split at loaded
    · split at loaded
      · rcases ih loaded with before | inside
        · rcases Registry.mem_records_loadRecord before with earlier | rfl
          · exact .inl earlier
          · exact .inr (.inl rfl)
        · exact .inr (.inr inside)
      · cases loaded
        exact .inl listed
    · exact (ih loaded).imp_right .inr

/-- An image is made of a file if its head is in order and the resolver makes it. -/
theorem build_eq_ok_iff {id : Nat} {made : Resolver f} :
    f.build r s id = .ok (image, made) ↔ f.version = 1 ∧ f.entry < f.lambdas.length ∧
      f.resolveAll r { store := s, nextCallable := id } = .ok (image, made) := by
  by_cases version : f.version = imageVersion
  · by_cases entry : f.lambdas.length ≤ f.entry
    · rw [build, if_neg (not_not.2 version), if_pos entry]
      exact iff_of_false nofun fun all => Nat.not_lt_of_le entry all.2.1
    · rw [build, if_neg (not_not.2 version), if_neg entry]
      refine mapError_eq_ok_iff.trans ⟨fun resolved => ?_, fun all => all.2.2⟩
      exact ⟨version, Nat.lt_of_not_le entry, resolved⟩
  · rw [build, if_pos version]
    exact iff_of_false nofun fun all => version all.1

end ImageFile

namespace Host

variable {h h' : Host} {f : ImageFile} {image : Image}

/-- The modules of a file can be loaded if they have names. -/
theorem exists_loadModules_iff {r : Registry} {s s' : Store} (built : f.Built r image s s') :
    (∃ r', ImageFile.loadModules r (f.records.zip image.records.toList) = (.ok (), r')) ↔
      ∀ d ∈ f.records, d.module = true → d.name.isSome := by
  have listed : (f.records.zip image.records.toList).map (·.1) = f.records := by
    rw [List.map_fst_zip]
    simp [built.records_size]
  rw [ImageFile.exists_loadModules_iff, listed]

/-- What is known of an image that was loaded: the file, what was made of it in the store, and that its
modules were loaded. -/
structure Loaded (h : Host) (f : ImageFile) (image : Image) (h' : Host) : Prop where
  formed : f.WellFormed h.registry
  built : f.Built h.registry image h.store h'.store
  modules : ImageFile.loadModules h.registry (f.records.zip image.records.toList) =
    (.ok (), h'.registry)

/-- The modules after an image was loaded are those there were and those of the image. -/
theorem Loaded.mem_records (loaded : h.Loaded f image h') {entry : String × RecordRef}
    (listed : entry ∈ h'.registry.records) :
    entry ∈ h.registry.records ∨ entry.2 ∈ image.records := by
  refine (ImageFile.mem_records_loadModules loaded.modules listed).imp_right fun inside => ?_
  obtain ⟨⟨d, t⟩, inside, rfl⟩ := List.mem_map.1 inside
  exact Array.mem_toList_iff.1 (List.of_mem_zip inside).2

/-- Only a file that is well-formed is loaded. -/
theorem loaded_of_loadFile (loaded : h.loadFile f = (.ok image, h')) : h.Loaded f image h' := by
  rw [loadFile] at loaded
  split at loaded
  · cases loaded
  next image' made resolved =>
  obtain ⟨version, entry, resolved⟩ := ImageFile.build_eq_ok_iff.1 resolved
  obtain ⟨linked, built⟩ := ImageFile.built_of_resolveAll resolved
  split at loaded
  · cases loaded
  next validated =>
  have bounded := built.validate_iff.1 validated
  dsimp only at loaded
  split at loaded
  · next registry modules =>
    cases loaded
    have named := (exists_loadModules_iff built).1 ⟨registry, modules⟩
    exact ⟨⟨linked, bounded, version, entry, named⟩, built, modules⟩
  · cases loaded

/-- A file that is well-formed can be loaded. -/
theorem exists_loadFile (formed : f.WellFormed h.registry) :
    ∃ image h', h.loadFile f = (.ok image, h') := by
  obtain ⟨image, made, resolved⟩ := formed.toLinked.exists_resolveAll
    { store := h.store, nextCallable := h.machine.heap.nextCallable }
  obtain ⟨-, built⟩ := ImageFile.built_of_resolveAll resolved
  have build_eq : h.build f = .ok (image, made) :=
    ImageFile.build_eq_ok_iff.2 ⟨formed.version, formed.entry, resolved⟩
  have validated := built.validate_iff.2 formed.toBounded
  obtain ⟨registry, modules⟩ := (exists_loadModules_iff built).2 formed.named
  rw [loadFile, build_eq]
  dsimp only
  rw [validated]
  dsimp only
  rw [modules]
  exact ⟨_, _, rfl⟩

/-- An image file can be loaded if and only if it is well-formed. -/
theorem exists_loadFile_iff (h : Host) (f : ImageFile) :
    (∃ image h', h.loadFile f = (.ok image, h')) ↔ f.WellFormed h.registry := by
  constructor
  · rintro ⟨image, h', loaded⟩
    exact (loaded_of_loadFile loaded).formed
  · exact exists_loadFile

end Host

end PlotMachine
