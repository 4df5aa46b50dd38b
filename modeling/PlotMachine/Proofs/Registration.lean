import Mathlib.Data.List.Nodup
import PlotMachine.Registry

/-!
# Registering a module

The natives of a module are put into the registry one by one, in the order of the module, and the first
one whose name is taken ends the registration: by a native that was there before, or by one that the
module has twice. Only a module all of whose natives got in is listed. Nothing that was registered before
is lost or replaced on the way.

So a module that is refused is not listed, but the natives before the one that clashed stay behind, and
the same registration can only be refused again (`Registry.registry_of_registerModule`). The table of
natives is not what it was before (`Registry.registerModule_error_changes_natives`).
-/

namespace PlotMachine

/-- The natives that a module brings along. -/
def NativeModule.offered (module : NativeModule) : List Native :=
  if module.enabled then module.natives else []

namespace Registry

/-- A registry with more natives, behind those that it has. -/
def withNatives (r : Registry) (fns : List Native) : Registry :=
  { r with natives := r.natives ++ fns }

/-- Natives whose names are new to a registry, and no two of which have one name. -/
structure New (r : Registry) (fns : List Native) : Prop where
  distinct : (fns.map (·.name)).Nodup
  absent : ∀ fn ∈ fns, r.native? fn.name = none

variable {r r' : Registry} {fn : Native} {fns before : List Native} {name : String}
  {module : NativeModule}

@[simp] theorem withNatives_nil (r : Registry) : r.withNatives [] = r := by
  simp [withNatives]

@[simp] theorem withNatives_withNatives (r : Registry) (fns gns : List Native) :
    (r.withNatives fns).withNatives gns = r.withNatives (fns ++ gns) := by
  simp [withNatives]

/-- What is behind is found only if nothing is found before. -/
theorem native?_withNatives (r : Registry) (fns : List Native) (name : String) :
    (r.withNatives fns).native? name = (r.native? name).or (fns.find? (·.name == name)) :=
  List.find?_append

/-- A native that is found is found as before when there are more of them. -/
theorem native?_withNatives_of_some (found : r.native? name = some fn) (fns : List Native) :
    (r.withNatives fns).native? name = some fn := by
  rw [native?_withNatives, found, Option.some_or]

/-- Natives with new names are found under them. -/
theorem New.native?_withNatives (new : r.New fns) (member : fn ∈ fns) :
    (r.withNatives fns).native? fn.name = some fn := by
  rw [Registry.native?_withNatives, new.absent fn member, Option.none_or]
  cases found : fns.find? (·.name == fn.name) with
  | none =>
    have unlike := List.find?_eq_none.1 found fn member
    exact absurd (beq_self_eq_true fn.name) unlike
  | some other =>
    have alike : other.name = fn.name := by simpa using List.find?_some found
    have inside : other ∈ fns := List.mem_of_find?_eq_some found
    rw [List.inj_on_of_nodup_map new.distinct inside member alike]

theorem new_nil (r : Registry) : r.New [] := ⟨List.nodup_nil, nofun⟩

/-- The first of some natives has a new name, and the others do once it is registered. -/
theorem New.cons (absent : r.native? fn.name = none) (rest : (r.withNatives [fn]).New fns) :
    r.New (fn :: fns) := by
  have apart : ∀ other ∈ fns, r.native? other.name = none ∧ fn.name ≠ other.name := by
    intro other member
    have unknown := rest.absent other member
    rw [Registry.native?_withNatives, Option.or_eq_none_iff] at unknown
    exact ⟨unknown.1, by simpa using unknown.2⟩
  refine ⟨?_, ?_⟩
  · rw [List.map_cons, List.nodup_cons]
    refine ⟨fun again => ?_, rest.distinct⟩
    obtain ⟨other, member, same⟩ := List.mem_map.1 again
    exact (apart other member).2 same.symm
  · intro other member
    rcases List.mem_cons.1 member with rfl | later
    · exact absent
    · exact (apart other later).1

/-! ## Natives one by one -/

/-- Natives are registered up to the first one whose name is taken: in the registry, or by one of those
before it. -/
structure Stops (r : Registry) (fns before : List Native) (fn : Native) : Prop where
  split : ∃ after, fns = before ++ fn :: after
  new : r.New before
  taken : ((r.withNatives before).native? fn.name).isSome = true

/-- A native with a new name is put behind the others, and one with a name that is taken is refused. -/
theorem registerNatives_cons (r : Registry) (fn : Native) (rest : List Native) :
    r.registerNatives (fn :: rest) =
      if (r.native? fn.name).isSome then (.error (.nativeTwice fn.name), r)
      else (r.withNatives [fn]).registerNatives rest := by
  rw [registerNatives, registerNative]
  by_cases taken : (r.native? fn.name).isSome = true
  · rw [if_pos taken, if_pos taken]
  · rw [if_neg taken, if_neg taken]
    rfl

/-- Either all natives are registered, or those before the first one that has a name that is taken. -/
theorem registerNatives_cases (r : Registry) (fns : List Native) :
    (r.New fns ∧ r.registerNatives fns = (.ok (), r.withNatives fns)) ∨
      ∃ before fn, r.Stops fns before fn ∧
        r.registerNatives fns = (.error (.nativeTwice fn.name), r.withNatives before) := by
  induction fns generalizing r with
  | nil => exact .inl ⟨new_nil r, by rw [registerNatives, withNatives_nil]⟩
  | cons fn rest ih =>
    rw [registerNatives_cons]
    cases found : r.native? fn.name with
    | some other =>
      refine .inr ⟨[], fn, ⟨⟨rest, rfl⟩, new_nil r, ?_⟩, ?_⟩
      · rw [withNatives_nil, found, Option.isSome_some]
      · rw [withNatives_nil, Option.isSome_some, if_pos rfl]
    | none =>
      rw [Option.isSome_none, if_neg Bool.false_ne_true]
      rcases ih (r.withNatives [fn]) with ⟨new, done⟩ | ⟨before, last, stops, failed⟩
      · rw [withNatives_withNatives] at done
        exact .inl ⟨.cons found new, done⟩
      · obtain ⟨⟨after, rfl⟩, new, taken⟩ := stops
        rw [withNatives_withNatives] at taken failed
        exact .inr ⟨fn :: before, last, ⟨⟨after, rfl⟩, .cons found new, taken⟩, failed⟩

/-- Natives one of which stops the registration are not all new. -/
theorem Stops.not_new (stops : r.Stops fns before fn) : ¬ r.New fns := by
  obtain ⟨⟨after, rfl⟩, -, taken⟩ := stops
  rintro ⟨distinct, absent⟩
  rw [native?_withNatives, absent fn (by simp), Option.none_or, List.find?_isSome] at taken
  obtain ⟨other, member, same⟩ := taken
  rw [List.map_append, List.nodup_append] at distinct
  have twice := distinct.2.2 other.name (List.mem_map_of_mem member) fn.name (by simp)
  exact twice (by simpa using same)

/-- The first of the natives stops the registration of all of them the next time. -/
theorem Stops.registerNatives_again (stops : r.Stops fns before fn) :
    ∃ first, fns.head? = some first ∧ (r.withNatives before).registerNatives fns =
      (.error (.nativeTwice first.name), r.withNatives before) := by
  obtain ⟨⟨after, rfl⟩, new, taken⟩ := stops
  cases before with
  | nil => exact ⟨fn, rfl, by rw [List.nil_append, registerNatives_cons, if_pos taken]⟩
  | cons first rest =>
    have known : (r.withNatives (first :: rest)).native? first.name = some first :=
      new.native?_withNatives List.mem_cons_self
    refine ⟨first, rfl, ?_⟩
    rw [List.cons_append, registerNatives_cons, known, Option.isSome_some, if_pos rfl]

/-! ## Modules -/

/-- A module is refused under a name that is taken, and otherwise comes down to its natives. -/
theorem registerModule_cases (r : Registry) (name : String) (module : NativeModule) :
    ((r.modules.lookup name).isSome = true ∧
        r.registerModule name module = (.error (.moduleTwice name), r)) ∨
      (r.modules.lookup name = none ∧ r.New module.offered ∧ r.registerModule name module =
        (.ok (), { r.withNatives module.offered with modules := r.modules ++ [(name, module)] })) ∨
      (r.modules.lookup name = none ∧ ∃ before fn, r.Stops module.offered before fn ∧
        r.registerModule name module =
          (.error (.moduleNative module.name fn.name), r.withNatives before)) := by
  rw [registerModule]
  cases listed : r.modules.lookup name with
  | some other => exact .inl ⟨rfl, rfl⟩
  | none =>
    have comes := r.registerNatives_cases module.offered
    rw [NativeModule.offered] at comes ⊢
    rw [Option.isSome_none, if_neg Bool.false_ne_true]
    rcases comes with ⟨new, done⟩ | ⟨before, fn, stops, failed⟩
    · rw [done]
      exact .inr (.inl ⟨rfl, new, rfl⟩)
    · rw [failed]
      exact .inr (.inr ⟨rfl, before, fn, stops, rfl⟩)

/-- A module that was refused for one of its natives is refused again, for the first of them. -/
theorem Stops.registerModule_again (stops : r.Stops module.offered before fn)
    (unlisted : r.modules.lookup name = none) :
    ∃ first, module.offered.head? = some first ∧ (r.withNatives before).registerModule name module =
      (.error (.moduleNative module.name first.name), r.withNatives before) := by
  obtain ⟨first, head, failed⟩ := stops.registerNatives_again
  have unlisted' : (r.withNatives before).modules.lookup name = none := unlisted
  refine ⟨first, head, ?_⟩
  rw [NativeModule.offered] at failed
  rw [registerModule, unlisted', Option.isSome_none, if_neg Bool.false_ne_true, failed]

/-- A module is registered exactly if its name and those of its natives are new. Then it is listed
beside the modules that were, and its natives are found. A module that is refused is not listed; the
natives before the one that clashed stay registered, and nothing but another refusal comes of the same
registration. The natives that were registered before are found in either case. -/
theorem registry_of_registerModule {result : Except RegistryError Unit}
    (registered : r.registerModule name module = (result, r')) :
    (result = .ok () ↔ r.modules.lookup name = none ∧ r.New module.offered) ∧
      (result = .ok () → r'.module name = .ok module ∧
        (∀ fn ∈ module.offered, r'.native? fn.name = some fn) ∧
        ∀ other listed, r.module other = .ok listed → r'.module other = .ok listed) ∧
      (∀ e, result = .error e → r'.modules = r.modules ∧
        ((e = .moduleTwice name ∧ r' = r ∧ r'.registerModule name module = (.error e, r')) ∨
          ∃ before fn first, r.Stops module.offered before fn ∧ module.offered.head? = some first ∧
            e = .moduleNative module.name fn.name ∧ r' = r.withNatives before ∧
            r'.registerModule name module =
              (.error (.moduleNative module.name first.name), r'))) ∧
      ∀ other fn, r.native? other = some fn → r'.native? other = some fn := by
  rcases r.registerModule_cases name module with
    ⟨listed, refused⟩ | ⟨unlisted, new, done⟩ | ⟨unlisted, before, fn, stops, refused⟩
  · obtain ⟨rfl, rfl⟩ := Prod.mk.inj (registered.symm.trans refused)
    have taken : r'.modules.lookup name ≠ none := Option.isSome_iff_ne_none.1 listed
    refine ⟨⟨nofun, fun both => absurd both.1 taken⟩, nofun, ?_, fun _ _ found => found⟩
    rintro e ⟨⟩
    exact ⟨rfl, .inl ⟨rfl, rfl, refused⟩⟩
  · obtain ⟨rfl, rfl⟩ := Prod.mk.inj (registered.symm.trans done)
    refine ⟨⟨fun _ => ⟨unlisted, new⟩, fun _ => rfl⟩, fun _ => ⟨?_, ?_, ?_⟩, nofun, ?_⟩
    · simp [Registry.module, List.lookup_append, unlisted]
    · exact fun fn member => new.native?_withNatives member
    · intro other listed found
      simp only [Registry.module] at found ⊢
      rw [List.lookup_append]
      cases stands : r.modules.lookup other with
      | some known => rwa [stands] at found
      | none =>
        rw [stands] at found
        cases found
    · exact fun other fn found => native?_withNatives_of_some found module.offered
  · obtain ⟨rfl, rfl⟩ := Prod.mk.inj (registered.symm.trans refused)
    obtain ⟨first, head, again⟩ := stops.registerModule_again unlisted
    refine ⟨⟨nofun, fun both => absurd both.2 stops.not_new⟩, nofun, ?_,
      fun other fn found => native?_withNatives_of_some found before⟩
    rintro e ⟨⟩
    exact ⟨rfl, .inr ⟨before, fn, first, stops, head, rfl, rfl, again⟩⟩

/-- A registry with one native, of no module. -/
def lone : Registry where
  natives := [⟨"south", .host "south"⟩]

/-- A module with two natives, the second of which has the name of another one. -/
def clashing : NativeModule where
  name := "poles"
  natives := [⟨"north", .host "north"⟩, ⟨"south", .host "pole"⟩]

/-- The first native of the module stays behind, and is what the module is refused for the next time.
The other native that was there keeps its name. -/
theorem registry_of_registerModule_clashing :
    ∃ r', lone.registerModule "poles" clashing = (.error (.moduleNative "poles" "south"), r') ∧
      r'.modules = [] ∧ r'.native? "south" = some ⟨"south", .host "south"⟩ ∧
      lone.native? "north" = none ∧ r'.native? "north" = some ⟨"north", .host "north"⟩ ∧
      r'.registerModule "poles" clashing = (.error (.moduleNative "poles" "north"), r') := by
  obtain ⟨-, -, refused, kept⟩ :=
    @registry_of_registerModule lone _ "poles" clashing _ rfl
  obtain ⟨unlisted, ⟨named, -⟩ | ⟨before, fn, first, stops, head, -, -, again⟩⟩ := refused _ rfl
  · cases named
  · cases head
    exact ⟨_, rfl, unlisted, kept _ _ rfl, rfl, rfl, again⟩

/-- A module that is refused can change what natives there are. -/
theorem registerModule_error_changes_natives :
    ∃ e r', lone.registerModule "poles" clashing = (.error e, r') ∧ r'.natives ≠ lone.natives :=
  ⟨_, _, rfl, by decide⟩

end Registry

end PlotMachine
