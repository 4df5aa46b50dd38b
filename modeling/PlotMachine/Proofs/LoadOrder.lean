import PlotMachine.Proofs.Modules

/-!
# The slots of loaded record types

A registry has a table of the record types that were loaded and an index by name into it. Loading goes
through the index: a name that is listed keeps its slot and gets another record type, and a new name
is put behind the others. `Registry.names_loadRecord` and `Registry.record?_loadRecord` say what one
load does to the order of the names and to what is found under them. After any number of loads the
names stand in the order in which they first came up, and under each of them is found what was loaded
last (`Registry.loadRecords_slots`).
-/

namespace PlotMachine

namespace Registry

variable (r : Registry) (name : String) (record : RecordRef)

/-- The names of the loaded record types, in slot order. -/
def names : List String := r.records.toList.map (·.1)

variable {r name} in
/-- A name has the slot it stands in. -/
theorem slot?_eq_some_iff {slot : Nat} : r.slot? name = some slot ↔ r.names[slot]? = some name := by
  rw [slot?_eq_some, names, List.getElem?_map, Array.getElem?_toList]

variable {r name} in
/-- A name has a slot if it is one of the names. -/
theorem slot?_eq_none_iff : r.slot? name = none ↔ name ∉ r.names := by
  simp [Option.eq_none_iff_forall_ne_some, slot?_eq_some_iff, List.mem_iff_getElem?]

/-- No name stands in two slots. -/
theorem nodup_names : r.names.Nodup := by
  rw [List.nodup_iff_injective_getElem]
  intro i j same
  have first : r.slot? r.names[j] = some i := slot?_eq_some_iff.2 (by simp [← same])
  have second : r.slot? r.names[j] = some j := slot?_eq_some_iff.2 (by simp)
  exact Fin.ext (Option.some.inj (first.symm.trans second))

variable {r} in
/-- Under the name of an entry is found its record type. -/
theorem record?_of_mem {entry : String × RecordRef} (member : entry ∈ r.records) :
    r.record? entry.1 = some entry.2 := by
  obtain ⟨slot, stands⟩ := Array.mem_iff_getElem?.1 member
  have found : r.slot? entry.1 = some slot := slot?_eq_some.2 (by rw [stands, Option.map_some])
  rw [record?, found, Option.bind_some, stands, Option.map_some]

/-! ## One load -/

variable {r name} in
/-- Loading under a name that is listed answers its slot. -/
theorem loadRecord_fst_of_slot? {slot : Nat} (stands : r.slot? name = some slot) :
    (r.loadRecord name record).1 = slot := by
  rw [loadRecord]
  split
  · next found => exact Option.some.inj (found.symm.trans stands)
  · next new => cases new.symm.trans stands

/-- A name that is loaded for the first time comes behind the others. -/
theorem names_loadRecord :
    (r.loadRecord name record).2.names = r.names ++ ([name].removeAll r.names).eraseDups := by
  rw [loadRecord]
  split
  · next slot found =>
    have listed : name ∈ r.names := List.mem_of_getElem? (slot?_eq_some_iff.1 found)
    have known : [name].removeAll r.names = [] := by simp [List.removeAll, listed]
    have kept : (r.replaceRecord slot record).names = r.names := by
      refine List.ext_getElem? fun i => Option.ext fun other => ?_
      rw [← slot?_eq_some_iff, ← slot?_eq_some_iff]
      rfl
    rw [known, kept, List.eraseDups_nil, List.append_nil]
  · next new =>
    have one : [name].removeAll r.names = [name] := by
      simp [List.removeAll, slot?_eq_none_iff.1 new]
    rw [one]
    simp [names, addRecord, List.eraseDups_cons]

/-- A name stands for the record type that was loaded last. The other names stand for what they stood
for before. -/
theorem record?_loadRecord (other : String) :
    (r.loadRecord name record).2.record? other =
      if other = name then some record else r.record? other := by
  have slots := r.slot?_loadRecord name record
  have entries := r.getElem?_loadRecord name record
  generalize r.loadRecord name record = loaded at slots entries
  rw [record?, slots]
  split
  · rw [Option.bind_some, entries, if_pos rfl]
    rfl
  · next differs =>
    rw [record?]
    refine Option.bind_congr fun slot found => ?_
    -- the slot that was written is that of the name that was loaded
    have elsewhere : slot ≠ loaded.1 := by
      rintro rfl
      have here : loaded.2.records[loaded.1]?.map (·.1) = some other := by
        rw [← slot?_eq_some, slots, if_neg differs, found]
      rw [entries, if_pos rfl] at here
      exact differs (Option.some.inj here).symm
    rw [entries, if_neg elsewhere]

/-! ## Any number of loads -/

theorem loadRecords_concat (r : Registry) (loads : List (String × RecordRef)) (name : String)
    (record : RecordRef) :
    r.loadRecords (loads ++ [(name, record)]) = ((r.loadRecords loads).loadRecord name record).2 := by
  rw [loadRecords, List.foldl_append]
  rfl

/-- The names stand in the order in which they first come up. -/
theorem names_loadRecords (r : Registry) (empty : r.names = []) (loads : List (String × RecordRef)) :
    (r.loadRecords loads).names = (loads.map (·.1)).eraseDups := by
  induction loads using List.reverseRecOn with
  | nil => exact empty
  | append_singleton loads load ih =>
    have remaining : [load.1].removeAll (loads.map (·.1)).eraseDups =
        [load.1].removeAll (loads.map (·.1)) :=
      List.filter_congr fun name _ => by rw [Bool.eq_iff_iff]; simp [List.mem_eraseDups]
    rw [loadRecords_concat, names_loadRecord, ih, List.map_append, List.eraseDups_append, remaining]
    rfl

/-- Under a name is found what was loaded last. -/
theorem record?_loadRecords (r : Registry) (empty : r.names = []) (loads : List (String × RecordRef))
    (name : String) : (r.loadRecords loads).record? name = loads.reverse.lookup name := by
  induction loads using List.reverseRecOn with
  | nil =>
    have absent : r.slot? name = none := slot?_eq_none_iff.2 (by simp [empty])
    rw [loadRecords, List.foldl_nil, record?, absent]
    rfl
  | append_singleton loads load ih =>
    rw [loadRecords_concat, record?_loadRecord, ih, List.reverse_append, List.reverse_singleton,
      List.singleton_append, List.lookup_cons]
    by_cases same : name = load.1
    · simp [same]
    · simp [same, beq_false_of_ne same]

/-- A name keeps its slot whatever is loaded. -/
theorem slot?_loadRecords_of_slot? {r : Registry} {name : String} {slot : Nat}
    (stands : r.slot? name = some slot) (loads : List (String × RecordRef)) :
    (r.loadRecords loads).slot? name = some slot := by
  induction loads using List.reverseRecOn with
  | nil => exact stands
  | append_singleton loads load ih =>
    rw [loadRecords_concat, slot?_loadRecord]
    split
    · next same =>
      rw [same] at ih
      rw [loadRecord_fst_of_slot? _ ih]
    · exact ih

/-- After any loads into a registry that has none, the table lists every name once, in the order in
which the names first came up and with the record type that was loaded last under it; a name has the
slot that it stands in, and under it that record type is found. One more load answers the slot of its
name and changes what is known of no other name, and no loads change a slot that is given. -/
theorem loadRecords_slots (modules : List (String × NativeModule)) (natives : List Native)
    (loads : List (String × RecordRef)) :
    let r := ({ modules, natives } : Registry).loadRecords loads
    let order := (loads.map (·.1)).eraseDups
    (order.Nodup ∧ r.records.toList.map (·.1) = order ∧
        ∀ entry ∈ r.records, loads.reverse.lookup entry.1 = some entry.2) ∧
      (∀ name slot, r.slot? name = some slot ↔ order[slot]? = some name) ∧
      (∀ name, r.record? name = loads.reverse.lookup name) ∧
      (∀ name record,
        (r.loadRecord name record).2.slot? name = some (r.loadRecord name record).1 ∧
          (r.loadRecord name record).2.record? name = some record ∧
          ∀ other ≠ name, (r.loadRecord name record).2.slot? other = r.slot? other ∧
            (r.loadRecord name record).2.record? other = r.record? other) ∧
      ∀ name slot, r.slot? name = some slot →
        ∀ more, (r.loadRecords more).slot? name = some slot := by
  intro r order
  have empty : ({ modules, natives } : Registry).names = [] := rfl
  have listed : r.names = order := names_loadRecords _ empty loads
  have found (name : String) : r.record? name = loads.reverse.lookup name :=
    record?_loadRecords _ empty loads name
  refine ⟨⟨listed ▸ r.nodup_names, listed, fun entry member => ?_⟩, fun name slot => ?_, found,
    fun name record => ⟨?_, ?_, fun other differs => ⟨?_, ?_⟩⟩, fun _ _ => slot?_loadRecords_of_slot?⟩
  · rw [← found, record?_of_mem member]
  · rw [slot?_eq_some_iff, listed]
  · rw [slot?_loadRecord, if_pos rfl]
  · rw [record?_loadRecord, if_pos rfl]
  · rw [slot?_loadRecord, if_neg differs]
  · rw [record?_loadRecord, if_neg differs]

/-- A record type that is loaded under a known name shadows the earlier one in its slot. -/
example : (({} : Registry).loadRecords [("north", ⟨0⟩), ("south", ⟨1⟩), ("north", ⟨2⟩)]).records =
    #[("north", ⟨2⟩), ("south", ⟨1⟩)] := by
  decide

end Registry

end PlotMachine
