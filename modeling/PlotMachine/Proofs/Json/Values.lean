import PlotMachine.Proofs.Json.Writing

/-!
# Documents of values

A document denotes a value that fits (`fits_of_value?`): its integers are words of 64 bits, the
fields of its objects are in ascending order and it is nested no deeper than the limit. The document
that is written for a value that fits denotes that value again (`Fits.value?_raw`).
-/

namespace PlotMachine.Json

/-- A value that a document can denote, where it may be nested so deeply. -/
inductive Fits : Nat → Json → Prop
  | null {limit : Nat} : Fits limit .null
  | bool {limit : Nat} (b : Bool) : Fits limit (.bool b)
  | int {limit : Nat} {n : Int} (least : -0x8000000000000000 ≤ n) (greatest : n ≤ maxWord) :
    Fits limit (.int n)
  | real {limit : Nat} (x : Float) : Fits limit (.real x)
  | str {limit : Nat} (s : String) : Fits limit (.str s)
  | arr {limit : Nat} {items : List Json} (all : ∀ v ∈ items, Fits limit v) :
    Fits (limit + 1) (.arr items)
  | obj {limit : Nat} {fields : List (String × Json)}
    (ascending : fields.Pairwise fun f g => f.1 < g.1) (all : ∀ f ∈ fields, Fits limit f.2) :
    Fits (limit + 1) (.obj fields)

/-! ## Numbers -/

/-- Further digits make a number no smaller. -/
theorem le_foldl_digits (n : Nat) (ds : List Nat) : n ≤ ds.foldl (fun n d => n * 10 + d) n := by
  induction ds generalizing n with
  | nil => exact Nat.le_refl n
  | cons d ds ih =>
    have later := ih (n * 10 + d)
    rw [List.foldl_cons]
    omega

/-- Digits that fit a word are all read. -/
theorem significand_eq {n : Nat} {ds : List Nat}
    (fits : ds.foldl (fun n d => n * 10 + d) n ≤ maxWord) :
    significand n ds = (ds.foldl (fun n d => n * 10 + d) n, 0) := by
  induction ds generalizing n with
  | nil => rfl
  | cons d ds ih =>
    have first : n * 10 + d ≤ maxWord := (le_foldl_digits _ ds).trans fits
    rw [significand, if_pos first, ih fits]
    rfl

/-- What is read of digits fits a word. -/
theorem significand_le {n : Nat} {ds : List Nat} (fits : n ≤ maxWord) :
    (significand n ds).1 ≤ maxWord := by
  induction ds generalizing n with
  | nil => exact fits
  | cons d ds ih =>
    rw [significand]
    by_cases first : n * 10 + d ≤ maxWord
    · rw [if_pos first]
      exact ih first
    · rw [if_neg first]
      exact fits

theorem foldl_decimals (n : Nat) : (decimals n).foldl (fun n d => n * 10 + d) 0 = n := by
  have read : Nat.ofDigitChars 10 (Nat.toDigits 10 n) 0 = n := Nat.ofDigitChars_ten_toDigits
  rw [Nat.ofDigitChars_eq_foldl] at read
  rw [decimals, List.foldl_map]
  simpa only [Nat.mul_comm] using read

/-- An integer of 64 bits is read back. -/
theorem numberValue_ofInt {n : Int} (least : -0x8000000000000000 ≤ n) (greatest : n ≤ maxWord) :
    numberValue (.ofInt n) = some (.int n) := by
  have fits : n.natAbs ≤ maxWord := by
    have : maxWord = 0xffffffffffffffff := rfl
    omega
  have whole : significand 0 (decimals n.natAbs) = (n.natAbs, 0) := by
    rw [significand_eq ((foldl_decimals _).symm ▸ fits), foldl_decimals]
  unfold numberValue
  rw [NumberText.ofInt, NumberText.integer, whole]
  show (if (!decide (n < 0)) = true then some (Json.int n.natAbs) else _) = _
  by_cases negative : n < 0
  · have magnitude : 0 < n.natAbs ∧ n.natAbs ≤ 0x8000000000000000 := by omega
    rw [decide_eq_true negative, if_neg (by decide), if_pos magnitude,
      Int.ofNat_natAbs_of_nonpos (Int.le_of_lt negative), Int.neg_neg]
  · rw [decide_eq_false negative, if_pos (by decide),
      Int.natAbs_of_nonneg (Int.not_lt.1 negative)]

theorem numberValue_negativeZero : numberValue .negativeZero = some (.real negativeZero) := by
  have value : realValue .negativeZero = some negativeZero := by decide +kernel
  show (realValue .negativeZero).map Json.real = _
  rw [value]
  rfl

/-- A number denotes an integer of 64 bits or a real. -/
theorem numberValue_cases {t : NumberText} {v : Json} (value : numberValue t = some v) :
    (∃ n : Int, v = .int n ∧ -0x8000000000000000 ≤ n ∧ n ≤ maxWord) ∨ ∃ x, v = .real x := by
  have word : (significand 0 t.whole).1 ≤ maxWord := significand_le (Nat.zero_le _)
  unfold numberValue at value
  by_cases isReal : (t.isReal || (significand 0 t.whole).2 ≠ 0) = true
  · obtain ⟨x, -, rfl⟩ := Option.map_eq_some_iff.1 ((if_pos isReal).symm.trans value)
    exact .inr ⟨x, rfl⟩
  · replace value := (if_neg isReal).symm.trans value
    by_cases natural : (!t.negative) = true
    · obtain rfl := Option.some.inj ((if_pos natural).symm.trans value)
      exact .inl ⟨_, rfl, by omega, by omega⟩
    · replace value := (if_neg natural).symm.trans value
      by_cases signed :
          0 < (significand 0 t.whole).1 ∧ (significand 0 t.whole).1 ≤ 0x8000000000000000
      · obtain rfl := Option.some.inj ((if_pos signed).symm.trans value)
        exact .inl ⟨_, rfl, by omega, by omega⟩
      · obtain rfl := Option.some.inj ((if_neg signed).symm.trans value)
        exact .inr ⟨_, rfl⟩

/-! ## Fields -/

theorem mem_of_mem_insertField {key : String} {v : Json} {fields : List (String × Json)}
    {f : String × Json} (inside : f ∈ insertField key v fields) : f = (key, v) ∨ f ∈ fields := by
  induction fields with
  | nil => exact .inl (List.mem_singleton.1 inside)
  | cons g rest ih =>
    rw [insertField] at inside
    by_cases before : key < g.1
    · rw [if_pos before] at inside
      exact List.mem_cons.1 inside
    · rw [if_neg before] at inside
      by_cases same : key = g.1
      · rw [if_pos same] at inside
        exact (List.mem_cons.1 inside).imp_right (List.mem_cons_of_mem g)
      · rw [if_neg same] at inside
        obtain rfl | later := List.mem_cons.1 inside
        · exact .inr List.mem_cons_self
        · exact (ih later).imp_right (List.mem_cons_of_mem g)

/-- A field that is added keeps the fields in order. -/
theorem ascending_insertField (key : String) (v : Json) {fields : List (String × Json)}
    (ascending : fields.Pairwise fun f g => f.1 < g.1) :
    (insertField key v fields).Pairwise fun f g => f.1 < g.1 := by
  induction fields with
  | nil => exact List.pairwise_singleton _ _
  | cons g rest ih =>
    obtain ⟨above, later⟩ := List.pairwise_cons.1 ascending
    rw [insertField]
    by_cases before : key < g.1
    · rw [if_pos before]
      refine List.pairwise_cons.2 ⟨?_, ascending⟩
      intro f inside
      obtain rfl | inside := List.mem_cons.1 inside
      · exact before
      · exact before.trans (above f inside)
    · rw [if_neg before]
      by_cases same : key = g.1
      · rw [if_pos same]
        exact List.pairwise_cons.2 ⟨fun f inside => same ▸ above f inside, later⟩
      · rw [if_neg same]
        refine List.pairwise_cons.2 ⟨?_, ih later⟩
        intro f inside
        obtain rfl | inside := mem_of_mem_insertField inside
        · exact lt_of_le_of_ne (not_lt.1 before) (Ne.symm same)
        · exact above f inside

/-- The fields of an object are in order, and they are among those that are written. -/
theorem foldl_insertField_sound {before fields : List (String × Json)}
    (ascending : before.Pairwise fun f g => f.1 < g.1) :
    let sorted := fields.foldl (fun sorted (key, v) => insertField key v sorted) before
    (sorted.Pairwise fun f g => f.1 < g.1) ∧ ∀ f ∈ sorted, f ∈ before ∨ f ∈ fields := by
  induction fields generalizing before with
  | nil => exact ⟨ascending, fun f inside => .inl inside⟩
  | cons f fields ih =>
    obtain ⟨ordered, among⟩ := ih (ascending_insertField f.1 f.2 ascending)
    refine ⟨ordered, fun g inside => ?_⟩
    obtain inside | later := among g inside
    · obtain rfl | inside := mem_of_mem_insertField inside
      · exact .inr List.mem_cons_self
      · exact .inl inside
    · exact .inr (List.mem_cons_of_mem f later)

/-- A field whose key is greater than all others is added behind them. -/
theorem insertField_last {key : String} {v : Json} {fields : List (String × Json)}
    (greatest : ∀ f ∈ fields, f.1 < key) : insertField key v fields = fields ++ [(key, v)] := by
  induction fields with
  | nil => rfl
  | cons g rest ih =>
    have above : g.1 < key := greatest g List.mem_cons_self
    rw [insertField, if_neg (not_lt.2 above.le), if_neg (ne_of_gt above),
      ih fun f inside => greatest f (List.mem_cons_of_mem g inside)]
    rfl

/-- Adding fields in ascending order changes nothing about them. -/
theorem foldl_insertField {before fields : List (String × Json)}
    (ascending : (before ++ fields).Pairwise fun f g => f.1 < g.1) :
    fields.foldl (fun sorted (key, v) => insertField key v sorted) before = before ++ fields := by
  induction fields generalizing before with
  | nil => exact (List.append_nil before).symm
  | cons f fields ih =>
    have greatest : ∀ g ∈ before, g.1 < f.1 := fun g inside =>
      (List.pairwise_append.1 ascending).2.2 g inside f List.mem_cons_self
    rw [List.foldl_cons]
    show fields.foldl _ (insertField f.1 f.2 before) = _
    rw [List.append_cons] at ascending ⊢
    rw [insertField_last greatest]
    exact ih ascending

/-! ## Values -/

mutual

/-- A document denotes values that fit. -/
theorem fits_of_value? : ∀ (r : Raw) {limit : Nat} {v : Json},
    r.value? limit = some v → v.Fits limit
  | .null, limit, v, value => by
    obtain rfl := Option.some.inj value
    exact .null
  | .bool b, limit, v, value => by
    obtain rfl := Option.some.inj value
    exact .bool b
  | .num t, limit, v, value => by
    obtain ⟨n, rfl, least, greatest⟩ | ⟨x, rfl⟩ := numberValue_cases value
    · exact .int least greatest
    · exact .real x
  | .str s, limit, v, value => by
    obtain ⟨text, -, rfl⟩ := Option.map_eq_some_iff.1 value
    exact .str text
  | .arr items, 0, v, value => by cases value
  | .arr items, limit + 1, v, value => by
    obtain ⟨vs, values, rfl⟩ := Option.map_eq_some_iff.1 value
    exact .arr (fits_of_itemValues? items values)
  | .obj fields, 0, v, value => by cases value
  | .obj fields, limit + 1, v, value => by
    obtain ⟨vs, values, rfl⟩ := Option.map_eq_some_iff.1 value
    obtain ⟨ordered, among⟩ := foldl_insertField_sound List.Pairwise.nil
    refine .obj ordered fun f inside => ?_
    obtain early | inside := among f inside
    · cases early
    · exact fits_of_fieldValues? fields values f inside

theorem fits_of_itemValues? : ∀ (items : List Raw) {limit : Nat} {vs : List Json},
    itemValues? limit items = some vs → ∀ v ∈ vs, v.Fits limit
  | [], limit, vs, values => by
    obtain rfl := Option.some.inj values
    exact List.forall_mem_nil _
  | r :: rest, limit, vs, values => by
    rw [itemValues?] at values
    obtain ⟨v, value, values⟩ := Option.bind_eq_some_iff.1 values
    obtain ⟨vs, later, values⟩ := Option.bind_eq_some_iff.1 values
    obtain rfl := Option.some.inj values
    exact List.forall_mem_cons.2 ⟨fits_of_value? r value, fits_of_itemValues? rest later⟩

theorem fits_of_fieldValues? : ∀ (fields : List (List TextPiece × Raw)) {limit : Nat}
    {vs : List (String × Json)}, fieldValues? limit fields = some vs → ∀ f ∈ vs, f.2.Fits limit
  | [], limit, vs, values => by
    obtain rfl := Option.some.inj values
    exact List.forall_mem_nil _
  | (key, r) :: rest, limit, vs, values => by
    rw [fieldValues?] at values
    obtain ⟨k, text, values⟩ := Option.bind_eq_some_iff.1 values
    obtain ⟨v, value, values⟩ := Option.bind_eq_some_iff.1 values
    obtain ⟨vs, later, values⟩ := Option.bind_eq_some_iff.1 values
    obtain rfl := Option.some.inj values
    exact List.forall_mem_cons.2 ⟨fits_of_value? r value, fits_of_fieldValues? rest later⟩

end

/-- The values of the items that are written for an array. -/
theorem itemValues?_rawItems {limit : Nat} {items : List Json}
    (all : ∀ v ∈ items, v.raw.value? limit = some v) :
    itemValues? limit (rawItems items) = some items := by
  induction items with
  | nil => rfl
  | cons v items ih =>
    rw [rawItems, itemValues?, all v List.mem_cons_self,
      ih fun v inside => all v (List.mem_cons_of_mem _ inside)]
    rfl

/-- The values of the fields that are written for an object. -/
theorem fieldValues?_rawFields {limit : Nat} {fields : List (String × Json)}
    (all : ∀ f ∈ fields, f.2.raw.value? limit = some f.2) :
    fieldValues? limit (rawFields fields) = some fields := by
  induction fields with
  | nil => rfl
  | cons f fields ih =>
    rw [rawFields, fieldValues?, textOf?_pieces, all f List.mem_cons_self,
      ih fun f inside => all f (List.mem_cons_of_mem _ inside)]
    rfl

/-- The document that is written for a value that fits denotes that value. -/
theorem Fits.value?_raw {limit : Nat} {v : Json} (fits : v.Fits limit) (integral : v.Integral) :
    v.raw.value? limit = some v := by
  induction fits with
  | null => rfl
  | bool b => rfl
  | int least greatest => exact numberValue_ofInt least greatest
  | real x =>
    cases integral
    show numberValue (.ofReal negativeZero) = _
    rw [NumberText.ofReal_negativeZero, numberValue_negativeZero]
  | str s =>
    show (textOf? (pieces s)).map Json.str = _
    rw [textOf?_pieces]
    rfl
  | arr fits ih =>
    cases integral with | arr all
    rw [raw, Raw.value?, itemValues?_rawItems fun v inside => ih v inside (all v inside)]
    rfl
  | obj ascending fits ih =>
    cases integral with | obj all
    rw [raw, Raw.value?, fieldValues?_rawFields fun f inside => ih f inside (all f inside)]
    exact congrArg (some ∘ Json.obj) (@foldl_insertField [] _ ascending)

/-- Null is denoted by itself only. -/
theorem eq_null_of_value? {r : Raw} {limit : Nat} (value : r.value? limit = some .null) :
    r = .null := by
  cases r with
  | null => rfl
  | bool b => cases value
  | num t => obtain ⟨n, differs, -⟩ | ⟨x, differs⟩ := numberValue_cases value <;> cases differs
  | str s =>
    obtain ⟨text, -, differs⟩ := Option.map_eq_some_iff.1 value
    cases differs
  | arr items =>
    cases limit with
    | zero => cases value
    | succ limit =>
      obtain ⟨vs, -, differs⟩ := Option.map_eq_some_iff.1 value
      cases differs
  | obj fields =>
    cases limit with
    | zero => cases value
    | succ limit =>
      obtain ⟨vs, -, differs⟩ := Option.map_eq_some_iff.1 value
      cases differs

end PlotMachine.Json
