import Mathlib
import PlotMachine.Proofs.Loading

/-!
# Modules that a load leaves in the registry

The last thing that loading does is to put the record types that are modules into the registry, in
the order of the file, up to the first one without a name. Whatever else can be wrong with a file is
found out before. So a load that fails changes the host only if it fails for want of a name, and
then it leaves the modules before the nameless one in the registry
(`Host.registry_of_loadFile_error`).
-/

namespace PlotMachine

/-- Loads record types under their names, one after the other. -/
def Registry.loadRecords (r : Registry) (modules : List (String × RecordRef)) : Registry :=
  modules.foldl (fun r (name, t) => (r.loadRecord name t).2) r

namespace ImageFile

/-- The record types that are modules. -/
def modulesOf (records : List (RecordDef × RecordRef)) : List (RecordDef × RecordRef) :=
  records.filter (·.1.module)

/-- Whether a record type has a name. -/
def isNamed (record : RecordDef × RecordRef) : Bool := record.1.name.isSome

/-- Record types under their names; those without a name are left out. -/
def withNames (records : List (RecordDef × RecordRef)) : List (String × RecordRef) :=
  records.filterMap fun (d, t) => d.name.map (·, t)

/-- The modules of a file, in its order, with the record types that they are in an image. -/
def modules (f : ImageFile) (image : Image) : List (RecordDef × RecordRef) :=
  modulesOf (f.records.zip image.records.toList)

/-- The modules of a file before the first one without a name. -/
def leadingModules (f : ImageFile) (image : Image) : List (String × RecordRef) :=
  withNames ((f.modules image).takeWhile isNamed)

variable {f : ImageFile} {r r' : Registry} {records : List (RecordDef × RecordRef)} {e : LoadError}

/-- The modules before the first one without a name are loaded. -/
theorem loadModules_eq (r : Registry) (records : List (RecordDef × RecordRef)) :
    loadModules r records =
      (if (modulesOf records).all isNamed then .ok () else .error .namelessModule,
        r.loadRecords (withNames ((modulesOf records).takeWhile isNamed))) := by
  induction records generalizing r with
  | nil => rfl
  | cons first rest ih =>
    obtain ⟨d, t⟩ := first
    rw [loadModules]
    by_cases module : d.module = true
    · have modules_eq : modulesOf ((d, t) :: rest) = (d, t) :: modulesOf rest :=
        List.filter_cons_of_pos module
      rw [if_pos module, modules_eq]
      cases name : d.name with
      | none => simp [isNamed, name, withNames, Registry.loadRecords]
      | some symbol =>
        have named : isNamed (d, t) = true := by rw [isNamed, name, Option.isSome_some]
        dsimp only
        rw [ih, List.all_cons, List.takeWhile_cons_of_pos named, named, Bool.true_and]
        simp [name, withNames, Registry.loadRecords]
    · have modules_eq : modulesOf ((d, t) :: rest) = modulesOf rest :=
        List.filter_cons_of_neg module
      rw [if_neg module, modules_eq, ih]

/-- If loading modules succeeds, all of them are loaded. -/
theorem loadModules_of_ok (loaded : loadModules r records = (.ok (), r')) :
    r' = r.loadRecords (withNames (modulesOf records)) := by
  rw [loadModules_eq, Prod.mk.injEq] at loaded
  obtain ⟨ok, rfl⟩ := loaded
  split at ok
  · next named => rw [List.takeWhile_eq_self_iff.2 (List.all_eq_true.1 named)]
  · cases ok

/-- If loading modules fails, one of them has no name, and those before it are loaded. -/
theorem loadModules_of_error (failed : loadModules r records = (.error e, r')) :
    e = .namelessModule ∧ (∃ d ∈ modulesOf records, d.1.name = none) ∧
      r' = r.loadRecords (withNames ((modulesOf records).takeWhile isNamed)) := by
  rw [loadModules_eq, Prod.mk.injEq] at failed
  obtain ⟨error, rfl⟩ := failed
  split at error
  · cases error
  · next nameless =>
    cases error
    obtain ⟨d, inside, unnamed⟩ := List.all_eq_false.1 (Bool.eq_false_iff.2 nameless)
    exact ⟨rfl, ⟨d, inside, by simpa [isNamed] using unnamed⟩, rfl⟩

/-- If the second of two computations does not fail with `e`, the first one did. -/
theorem eq_error_of_bind_eq_error {ε α β : Type} {x : Except ε α} {g : α → Except ε β} {e : ε}
    (failed : x >>= g = .error e) : x = .error e ∨ ∃ a, g a = .error e := by
  cases x with
  | error e' =>
    cases failed
    exact .inl rfl
  | ok a => exact .inr ⟨a, failed⟩

/-- A check of items one after the other fails as the check of one of them does. -/
theorem exists_of_forM_eq_error {ε α : Type} {check : α → Except ε Unit} {xs : List α} {e : ε}
    (failed : xs.forM check = .error e) : ∃ x ∈ xs, check x = .error e := by
  induction xs with
  | nil => cases failed
  | cons x rest ih =>
    rcases eq_error_of_bind_eq_error failed with here | ⟨-, later⟩
    · exact ⟨x, List.mem_cons_self, here⟩
    · obtain ⟨y, inside, found⟩ := ih later
      exact ⟨y, List.mem_cons_of_mem x inside, found⟩

/-- A failure that was put into context is the context of some failure. -/
theorem exists_of_mapError_eq_error {ε δ α : Type} {x : Except ε α} {context : ε → δ} {e : δ}
    (failed : x.mapError context = .error e) : ∃ e', e = context e' := by
  cases x with
  | ok a => cases failed
  | error e' =>
    cases failed
    exact ⟨e', rfl⟩

/-- Whether modules have names does not matter to what is made of a file. -/
theorem ne_namelessModule_of_build {s : Store} {id : Nat} (failed : f.build r s id = .error e) :
    e ≠ .namelessModule := by
  rintro rfl
  rw [build] at failed
  split at failed
  · cases failed
  · split at failed
    · cases failed
    · obtain ⟨e', same⟩ := exists_of_mapError_eq_error failed
      cases same

/-- Validation does not look at whether modules have names. -/
theorem ne_namelessModule_of_validate {s : Store} {image : Image}
    (failed : validate s image = .error e) : e ≠ .namelessModule := by
  rintro rfl
  rcases eq_error_of_bind_eq_error failed with lambdas | ⟨-, records⟩
  · obtain ⟨x, -, found⟩ := exists_of_forM_eq_error lambdas
    obtain ⟨fault, same⟩ := exists_of_mapError_eq_error found
    cases same
  · obtain ⟨x, -, found⟩ := exists_of_forM_eq_error records
    obtain ⟨fault, same⟩ := exists_of_mapError_eq_error found
    cases same

end ImageFile

namespace Host

variable {h h' : Host} {f : ImageFile} {e : LoadError}

/-- A load that fails changes nothing, unless it fails because a module has no name. Then the
modules before the first one without a name were loaded, and stay loaded. -/
theorem registry_of_loadFile_error (failed : h.loadFile f = (.error e, h')) :
    (e ≠ .namelessModule → h' = h) ∧
      (e = .namelessModule → (∃ d ∈ f.records, d.module = true ∧ d.name = none) ∧
        ∃ image made, h.build f = .ok (image, made) ∧
          h'.registry = h.registry.loadRecords (f.leadingModules image)) := by
  rw [loadFile] at failed
  split at failed
  · next e' resolved =>
    cases failed
    exact ⟨fun _ => rfl, fun same => absurd same (ImageFile.ne_namelessModule_of_build resolved)⟩
  next image made resolved =>
  split at failed
  · next e' validated =>
    cases failed
    have other := ImageFile.ne_namelessModule_of_validate validated
    exact ⟨fun _ => rfl, fun same => absurd same other⟩
  dsimp only at failed
  split at failed
  · cases failed
  · next e' registry modules =>
    cases failed
    obtain ⟨rfl, ⟨⟨d, t⟩, inside, unnamed⟩, registry_eq⟩ := ImageFile.loadModules_of_error modules
    refine ⟨fun other => absurd rfl other,
      fun _ => ⟨⟨d, ?_, ?_, unnamed⟩, image, made, resolved, registry_eq⟩⟩
    · exact (List.of_mem_zip (List.mem_filter.1 inside).1).1
    · simpa using (List.mem_filter.1 inside).2

/-- A host without natives. -/
def bare : Host where
  machine := .new {}

/-- A file with three modules, of which the second one has no name. -/
def halfNamed : ImageFile where
  version := 1
  entry := 0
  lambdas := [{ params := 1, vars := 1, code := [] }]
  records := [{ name := some "first", size := 0, init := 0, module := true },
    { size := 0, init := 0, module := true },
    { name := some "last", size := 0, init := 0, module := true }]

/-- The first module is left in the registry, and the last one does not get there. -/
theorem registry_of_loadFile_error_halfNamed :
    ∃ h', bare.loadFile halfNamed = (.error .namelessModule, h') ∧
      h'.registry = bare.registry.loadRecords [("first", ⟨0⟩)] := by
  have failed : bare.loadFile halfNamed = (.error .namelessModule, (bare.loadFile halfNamed).2) :=
    Prod.ext (by cbv) rfl
  obtain ⟨-, image, made, resolved, registry⟩ := (registry_of_loadFile_error failed).2 rfl
  have modules : (bare.build halfNamed).toOption.map (halfNamed.leadingModules ·.1) =
      some [("first", ⟨0⟩)] := by cbv
  rw [resolved] at modules
  exact ⟨_, failed, registry.trans (congrArg _ (Option.some.inj modules))⟩

/-- A load that fails can change the registry. -/
theorem loadFile_error_changes_registry :
    ∃ h', bare.loadFile halfNamed = (.error .namelessModule, h') ∧
      bare.registry.records = #[] ∧ h'.registry.records = #[("first", ⟨0⟩)] :=
  ⟨(bare.loadFile halfNamed).2, Prod.ext (by cbv) rfl, rfl, by cbv⟩

end Host

end PlotMachine
