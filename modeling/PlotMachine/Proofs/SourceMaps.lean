import PlotMachine.Position

/-!
# Source maps are sorted

`SourceMap.ofEntries` inserts entries one by one. The map it makes is the stable sort of the entries
by offset: entries of one offset stay in the order in which they were given.

A sorted list is determined by what it holds for each offset, in order
(`eq_of_ascending_of_entriesAt`), and both the insertions and the sort keep that for every offset.

Places are found by bisection, which is of use only in a sorted map: there it comes to the end of
the entries that begin at or before an offset (`reach_eq`), so a new entry goes behind them and the
last of them covers the offset. In a map made by insertions this is the one that was given last of
those with the greatest offset in reach (`stableSort_and_positionAt`).
-/

namespace PlotMachine

namespace SourceMap

/-- Entries in ascending order of offset. -/
def Ascending (entries : List Entry) : Prop := entries.Pairwise (·.offset ≤ ·.offset)

/-- The entries with an offset, in order. -/
def entriesAt (offset : Nat) (entries : List Entry) : List Entry :=
  entries.filter (·.offset = offset)

/-- Whether an entry may stand before another one. -/
def precedes (a b : Entry) : Bool := a.offset ≤ b.offset

theorem mem_entriesAt {e : Entry} {offset : Nat} {entries : List Entry} :
    e ∈ entriesAt offset entries ↔ e ∈ entries ∧ e.offset = offset := by
  simp [entriesAt]

theorem entriesAt_append (offset : Nat) (first second : List Entry) :
    entriesAt offset (first ++ second) = entriesAt offset first ++ entriesAt offset second :=
  List.filter_append first second

theorem entriesAt_cons (offset : Nat) (e : Entry) (entries : List Entry) :
    entriesAt offset (e :: entries) = entriesAt offset [e] ++ entriesAt offset entries :=
  entriesAt_append offset [e] entries

/-- Lists that hold the same for each offset hold the same. -/
theorem mem_iff_of_entriesAt {first second : List Entry}
    (same : ∀ offset, entriesAt offset first = entriesAt offset second) {e : Entry} :
    e ∈ first ↔ e ∈ second := by
  have here : e ∈ entriesAt e.offset first ↔ e ∈ entriesAt e.offset second := by rw [same]
  simpa only [mem_entriesAt, and_true] using here

/-- The first entry of a list in ascending order has the least offset. -/
theorem Ascending.offset_le {a e : Entry} {rest : List Entry} (sorted : Ascending (a :: rest))
    (inside : e ∈ a :: rest) : a.offset ≤ e.offset := by
  rcases List.mem_cons.1 inside with rfl | later
  · exact Nat.le_refl _
  · exact List.rel_of_pairwise_cons sorted later

/-- Lists in ascending order are equal if they hold the same for each offset. -/
theorem eq_of_ascending_of_entriesAt {first second : List Entry} (sorted : Ascending first)
    (sorted' : Ascending second)
    (same : ∀ offset, entriesAt offset first = entriesAt offset second) :
    first = second := by
  induction first generalizing second with
  | nil =>
    cases second with
    | nil => rfl
    | cons b rest' => exact nomatch (mem_iff_of_entriesAt same).2 List.mem_cons_self
  | cons a rest ih =>
    cases second with
    | nil => exact nomatch (mem_iff_of_entriesAt same).1 List.mem_cons_self
    | cons b rest' =>
      -- both heads have the least offset, so they head the list of its entries
      have offset_eq : a.offset = b.offset :=
        Nat.le_antisymm (sorted.offset_le ((mem_iff_of_entriesAt same).2 List.mem_cons_self))
          (sorted'.offset_le ((mem_iff_of_entriesAt same).1 List.mem_cons_self))
      have head_eq : a = b := by
        have heads := same a.offset
        simp only [entriesAt, List.filter_cons, offset_eq, decide_true, if_true] at heads
        exact (List.cons.inj heads).1
      subst head_eq
      congr 1
      refine ih sorted.of_cons sorted'.of_cons fun offset => ?_
      have both := same offset
      rw [entriesAt_cons, entriesAt_cons offset a rest'] at both
      exact List.append_cancel_left both

/-! ## Bisection -/

/-- Bisection comes to the place that parts the places with a property from those without it. -/
theorem bisect_eq {holds : Nat → Bool} {low high place : Nat} (above : low ≤ place)
    (below : place ≤ high) (before : ∀ i, i < place → holds i = true)
    (after : ∀ i, place ≤ i → i < high → holds i = false) : bisect holds low high = place := by
  fun_induction bisect holds low high with
  | case1 low high apart middle here ih =>
    have past : middle < place := by
      refine Nat.lt_of_not_le fun reached => ?_
      have not_here := after middle reached (by omega)
      rw [here] at not_here
      cases not_here
    exact ih past below after
  | case2 low high apart middle not_here ih =>
    have reached : place ≤ middle := Nat.le_of_not_lt fun past => not_here (before middle past)
    exact ih above reached fun i later inside => after i later (by omega)
  | case3 low high met => omega

variable {m : SourceMap}

/-- The leading entries that begin at or before `offset`. -/
def upTo (m : SourceMap) (offset : Nat) : List Entry :=
  m.entries.takeWhile (·.offset ≤ offset)

/-- The entries from the first one on that begins after `offset`. -/
def beyond (m : SourceMap) (offset : Nat) : List Entry :=
  m.entries.dropWhile (·.offset ≤ offset)

/-- The two parts of a map make it up. -/
theorem upTo_append_beyond (m : SourceMap) (offset : Nat) :
    m.upTo offset ++ m.beyond offset = m.entries :=
  List.takeWhile_append_dropWhile

/-- In a sorted map all entries from the first one on that begins after an offset do so. -/
theorem offset_lt_of_mem_beyond (sorted : Ascending m.entries) {offset : Nat} {e : Entry}
    (inside : e ∈ m.beyond offset) : offset < e.offset := by
  rw [beyond] at inside
  generalize m.entries = entries at sorted inside
  induction entries with
  | nil => cases inside
  | cons a rest ih =>
    rw [List.dropWhile_cons] at inside
    split at inside
    · exact ih sorted.of_cons inside
    · next later =>
      have lt : offset < a.offset := by simpa using later
      exact Nat.lt_of_lt_of_le lt (sorted.offset_le inside)

theorem offset_le_of_mem_upTo {offset : Nat} {e : Entry} (inside : e ∈ m.upTo offset) :
    e.offset ≤ offset := by
  simpa using List.all_eq_true.1 List.all_takeWhile e inside

/-- In a sorted map bisection comes to the end of the entries up to an offset. -/
theorem reach_eq (sorted : Ascending m.entries) (offset : Nat) :
    m.reach offset = (m.upTo offset).length := by
  have parts := upTo_append_beyond m offset
  refine bisect_eq (Nat.zero_le _) ?_ ?_ ?_
  · rw [← parts, List.length_append]
    exact Nat.le_add_right _ _
  · intro i inside
    rw [← parts, List.getElem?_append_left inside, List.getElem?_eq_getElem inside,
      Option.any_some, decide_eq_true_eq]
    exact offset_le_of_mem_upTo (List.getElem_mem inside)
  · intro i outside _
    rw [← parts, List.getElem?_append_right outside]
    cases found : (m.beyond offset)[i - (m.upTo offset).length]? with
    | none => rfl
    | some e =>
      have later := offset_lt_of_mem_beyond sorted (List.mem_of_getElem? found)
      rw [Option.any_some, decide_eq_false_iff_not]
      exact Nat.not_le_of_lt later

/-- An entry is inserted between the two parts of a sorted map. -/
theorem entries_insert (sorted : Ascending m.entries) (offset : Nat) (position : Position) :
    (m.insert offset position).entries =
      m.upTo offset ++ ⟨offset, position⟩ :: m.beyond offset := by
  rw [insert, reach_eq sorted, ← upTo_append_beyond m offset]
  exact List.modifyTailIdx_add (List.cons ⟨offset, position⟩) 0 (m.upTo offset) (m.beyond offset)

/-- The position at an offset is that of the last entry up to it, if the map is sorted. -/
theorem positionAt_eq (sorted : Ascending m.entries) (offset : Nat) :
    m.positionAt offset = ((m.upTo offset).getLast?.map (·.position)).getD .unknown := by
  rw [positionAt, reach_eq sorted, List.getLast?_eq_getElem?]
  cases length : (m.upTo offset).length with
  | zero => rw [List.length_eq_zero_iff.1 length]; rfl
  | succ last =>
    have inside : last < (m.upTo offset).length := by omega
    simp only [Nat.add_sub_cancel]
    rw [← upTo_append_beyond m offset, List.getElem?_append_left inside]
    cases (m.upTo offset)[last]? <;> rfl

/-! ## Insertion -/

/-- Beyond an offset a sorted map has nothing for an offset up to it. -/
theorem entriesAt_beyond (sorted : Ascending m.entries) {k offset : Nat} (le : k ≤ offset) :
    entriesAt k (m.beyond offset) = [] := by
  refine List.filter_eq_nil_iff.2 fun e inside => ?_
  have lt := offset_lt_of_mem_beyond sorted inside
  simp only [decide_eq_true_eq]
  omega

/-- A map stays sorted when something is inserted. -/
theorem ascending_insert (sorted : Ascending m.entries) (offset : Nat) (position : Position) :
    Ascending (m.insert offset position).entries := by
  have parts := sorted
  rw [← upTo_append_beyond m offset, Ascending, List.pairwise_append] at parts
  obtain ⟨before, after, across⟩ := parts
  rw [entries_insert sorted]
  refine List.pairwise_append.2 ⟨before, List.pairwise_cons.2 ⟨?_, after⟩, ?_⟩
  · exact fun e inside => Nat.le_of_lt (offset_lt_of_mem_beyond sorted inside)
  · intro a inside b inside'
    rcases List.mem_cons.1 inside' with rfl | inside'
    · exact offset_le_of_mem_upTo inside
    · exact across a inside b inside'

/-- What is inserted stands behind the entries with its offset. -/
theorem entriesAt_insert (sorted : Ascending m.entries) (k offset : Nat) (position : Position) :
    entriesAt k (m.insert offset position).entries =
      entriesAt k m.entries ++ entriesAt k [⟨offset, position⟩] := by
  have split_eq := congrArg (entriesAt k) (upTo_append_beyond m offset)
  rw [entries_insert sorted, entriesAt_append, entriesAt_cons, ← split_eq, entriesAt_append,
    List.append_assoc]
  congr 1
  by_cases here : offset = k
  · rw [entriesAt_beyond sorted (Nat.le_of_eq here.symm), List.append_nil, List.nil_append]
  · have other : entriesAt k [⟨offset, position⟩] = [] := by simp [entriesAt, here]
    rw [other, List.append_nil, List.nil_append]

/-- Insertions one after the other keep a map sorted and put the new entries behind those there
are. -/
theorem foldl_insert (entries : List Entry) (sorted : Ascending m.entries) :
    let m' := entries.foldl (fun m e => m.insert e.offset e.position) m
    Ascending m'.entries ∧
      ∀ k, entriesAt k m'.entries = entriesAt k m.entries ++ entriesAt k entries := by
  induction entries generalizing m with
  | nil => exact ⟨sorted, fun k => (List.append_nil _).symm⟩
  | cons e rest ih =>
    obtain ⟨sorted', same⟩ := ih (ascending_insert sorted e.offset e.position)
    refine ⟨sorted', fun k => ?_⟩
    rw [entriesAt_cons, ← List.append_assoc]
    exact (same k).trans (congrArg (· ++ _) (entriesAt_insert sorted k e.offset e.position))

/-! ## Sorting -/

theorem precedes_iff {a b : Entry} : precedes a b ↔ a.offset ≤ b.offset := decide_eq_true_iff

theorem precedes_trans (a b c : Entry) (first : precedes a b) (second : precedes b c) :
    precedes a c :=
  precedes_iff.2 (Nat.le_trans (precedes_iff.1 first) (precedes_iff.1 second))

theorem precedes_total (a b : Entry) : precedes a b || precedes b a := by
  simpa [precedes] using Nat.le_total a.offset b.offset

theorem ascending_mergeSort (entries : List Entry) : Ascending (entries.mergeSort precedes) :=
  (List.pairwise_mergeSort precedes_trans precedes_total entries).imp precedes_iff.1

/-- A stable sort keeps the entries of one offset in their order. -/
theorem entriesAt_mergeSort (k : Nat) (entries : List Entry) :
    entriesAt k (entries.mergeSort precedes) = entriesAt k entries := by
  have ordered : (entriesAt k entries).Pairwise (precedes · ·) := by
    refine List.pairwise_of_forall_mem_list fun a inside b inside' => ?_
    simp [precedes, (mem_entriesAt.1 inside).2, (mem_entriesAt.1 inside').2]
  have kept : (entriesAt k entries).Sublist (entries.mergeSort precedes) :=
    List.sublist_mergeSort precedes_trans precedes_total ordered List.filter_sublist
  have filtered := kept.filter (·.offset = k)
  rw [entriesAt, List.filter_filter] at filtered
  simp only [Bool.and_self] at filtered
  refine (filtered.eq_of_length ?_).symm
  exact ((List.mergeSort_perm entries precedes).filter _).length_eq.symm

/-- A map from entries holds the stable sort of the entries by offset. -/
theorem entries_ofEntries (entries : List Entry) :
    (ofEntries entries).entries = entries.mergeSort precedes := by
  obtain ⟨sorted, same⟩ := foldl_insert (m := {}) entries List.Pairwise.nil
  refine eq_of_ascending_of_entriesAt sorted (ascending_mergeSort entries) fun k => ?_
  rw [entriesAt_mergeSort]
  exact same k

/-- One list is a stable sort of another one by offset: it is in ascending order, nothing is lost, and
the entries of one offset stand in the order in which they stood. -/
structure StableSort (given sorted : List Entry) : Prop where
  ascending : Ascending sorted
  perm : sorted.Perm given
  order : ∀ offset, entriesAt offset sorted = entriesAt offset given

theorem stableSort_ofEntries (given : List Entry) : StableSort given (ofEntries given).entries := by
  rw [entries_ofEntries]
  exact ⟨ascending_mergeSort given, List.mergeSort_perm given precedes,
    fun offset => entriesAt_mergeSort offset given⟩

/-! ## Looking up -/

/-- Of some entries one covers an offset: none of those up to the offset has a greater one, and of those
that share its own it was given last. -/
structure Covers (given : List Entry) (offset : Nat) (e : Entry) : Prop where
  reached : e.offset ≤ offset
  greatest : ∀ other ∈ given, other.offset ≤ offset → other.offset ≤ e.offset
  last : (entriesAt e.offset given).getLast? = some e

variable {given sorted : List Entry} {offset : Nat} {a e : Entry}

theorem Covers.mem (covers : Covers given offset e) : e ∈ given :=
  (mem_entriesAt.1 (List.mem_of_getLast? covers.last)).1

/-- An offset is covered by one entry at most. -/
theorem Covers.unique (covers : Covers given offset e) (covers' : Covers given offset a) : e = a := by
  have offset_eq : e.offset = a.offset :=
    Nat.le_antisymm (covers'.greatest e covers.mem covers.reached)
      (covers.greatest a covers'.mem covers'.reached)
  have last := covers.last
  rw [offset_eq, covers'.last] at last
  exact (Option.some.inj last).symm

/-- What covers an offset is the same after a stable sort. -/
theorem StableSort.covers_iff (sort : StableSort given sorted) :
    Covers sorted offset e ↔ Covers given offset e := by
  constructor
  · rintro ⟨reached, greatest, last⟩
    refine ⟨reached, fun other inside => greatest other (sort.perm.mem_iff.2 inside), ?_⟩
    rwa [← sort.order]
  · rintro ⟨reached, greatest, last⟩
    refine ⟨reached, fun other inside => greatest other (sort.perm.mem_iff.1 inside), ?_⟩
    rwa [sort.order]

/-- In a sorted map an offset is covered by the last entry up to it. -/
theorem covers_of_getLast?_upTo (ascending : Ascending m.entries)
    (last : (m.upTo offset).getLast? = some e) : Covers m.entries offset e := by
  have reached := offset_le_of_mem_upTo (List.mem_of_getLast? last)
  have parts := upTo_append_beyond m offset
  obtain ⟨before, upTo_eq⟩ := List.getLast?_eq_some_iff.1 last
  have before_le : ∀ other ∈ before, other.offset ≤ e.offset := by
    have ordered : Ascending (before ++ [e]) := by
      rw [← upTo_eq]
      exact List.Pairwise.sublist (List.takeWhile_sublist _) ascending
    exact fun other inside => (List.pairwise_append.1 ordered).2.2 other inside e (by simp)
  refine ⟨reached, fun other inside within => ?_, ?_⟩
  · rw [← parts, List.mem_append] at inside
    rcases inside with inside | later
    · rw [upTo_eq, List.mem_append, List.mem_singleton] at inside
      rcases inside with inside | rfl
      · exact before_le other inside
      · exact Nat.le_refl _
    · exact absurd (offset_lt_of_mem_beyond ascending later) (Nat.not_lt_of_le within)
  · have own : entriesAt e.offset [e] = [e] := by simp [entriesAt]
    rw [← parts, entriesAt_append, entriesAt_beyond ascending reached, List.append_nil, upTo_eq,
      entriesAt_append, own, List.getLast?_concat]

/-- A sorted map with nothing up to an offset has only entries that begin after it. -/
theorem offset_lt_of_upTo_eq_nil (ascending : Ascending m.entries) (nothing : m.upTo offset = [])
    (inside : e ∈ m.entries) : offset < e.offset := by
  rw [← upTo_append_beyond m offset, nothing, List.nil_append] at inside
  exact offset_lt_of_mem_beyond ascending inside

/-- A map made by insertions, in whatever order, holds the stable sort of what was inserted. The position
at an offset is that of the entry that was inserted last of those with the greatest offset up to it, and
the unknown position if there is none. -/
theorem stableSort_and_positionAt (given : List Entry) :
    StableSort given (ofEntries given).entries ∧
      ∀ offset position, (ofEntries given).positionAt offset = position ↔
        (∃ e, Covers given offset e ∧ e.position = position) ∨
          ((∀ e ∈ given, offset < e.offset) ∧ position = .unknown) := by
  have sort := stableSort_ofEntries given
  refine ⟨sort, fun offset position => ?_⟩
  rw [positionAt_eq sort.ascending]
  cases last : ((ofEntries given).upTo offset).getLast? with
  | none =>
    have later : ∀ e ∈ given, offset < e.offset := fun e inside =>
      offset_lt_of_upTo_eq_nil sort.ascending (List.getLast?_eq_none_iff.1 last)
        (sort.perm.mem_iff.2 inside)
    constructor
    · rintro rfl
      exact .inr ⟨later, rfl⟩
    · rintro (⟨e, covers, -⟩ | ⟨-, rfl⟩)
      · exact absurd (later e covers.mem) (Nat.not_lt_of_le covers.reached)
      · rfl
  | some a =>
    have covers := sort.covers_iff.1 (covers_of_getLast?_upTo sort.ascending last)
    constructor
    · rintro rfl
      exact .inl ⟨a, covers, rfl⟩
    · rintro (⟨e, covers', rfl⟩ | ⟨later, -⟩)
      · rw [covers'.unique covers]
        rfl
      · exact absurd (later a covers.mem) (Nat.not_lt_of_le covers.reached)

/-- Of two entries of one offset the later one is found, also between entries of other offsets. -/
example : (ofEntries [⟨6, { line := 4, column := 1 }⟩, ⟨3, { line := 2, column := 5 }⟩,
    ⟨1, { line := 1, column := 1 }⟩, ⟨3, { line := 3, column := 1 }⟩]).positionAt 5 =
      { line := 3, column := 1 } := by
  decide +kernel

end SourceMap

end PlotMachine
