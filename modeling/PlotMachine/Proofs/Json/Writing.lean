import PlotMachine.Proofs.Json.Tokens

/-!
# Written values are read

The written form of a value whose numbers are integers is a document, and `Json.raw` says which one
(`Integral.read_render`). Reading is followed from state to state: `Reads state cs r` says that the
reader, in that state before the text `cs`, ends with the document `r`. What is written of a value
takes the reader from where the value is due to where it is complete (`Integral.crosses`), whatever
the value is part of.
-/

namespace PlotMachine.Json

/-- The real zero that is written with a sign; it is what `-0` denotes. -/
def negativeZero : Float := -0.0

/-- A value whose numbers are integers of 64 bits or zero with a sign. A number with a point or an
exponent and one that does not fit are reals. -/
inductive Integral : Json → Prop
  | null : Integral .null
  | bool (b : Bool) : Integral (.bool b)
  | int (n : Int) : Integral (.int n)
  | negativeZero : Integral (.real negativeZero)
  | str (s : String) : Integral (.str s)
  | arr {items : List Json} (all : ∀ v ∈ items, Integral v) : Integral (.arr items)
  | obj {fields : List (String × Json)} (all : ∀ f ∈ fields, Integral f.2) : Integral (.obj fields)

attribute [simp] Integral.null Integral.bool Integral.int Integral.str

@[simp]
theorem integral_arr {items : List Json} : (Json.arr items).Integral ↔ ∀ v ∈ items, v.Integral := by
  refine ⟨?_, .arr⟩
  rintro ⟨⟩
  assumption

@[simp]
theorem integral_obj {fields : List (String × Json)} :
    (Json.obj fields).Integral ↔ ∀ f ∈ fields, f.2.Integral := by
  refine ⟨?_, .obj⟩
  rintro ⟨⟩
  assumption

/-! ## What is written -/

/-- An integer as it is written. -/
def NumberText.ofInt (n : Int) : NumberText := .integer (n < 0) n.natAbs

/-- A real as it is written. -/
def NumberText.ofReal (x : Float) : NumberText :=
  match token (numberText x).toList with
  | some (.num t, _) => t
  | _ => default

theorem NumberText.ofReal_negativeZero : ofReal Json.negativeZero = .negativeZero := by
  decide +kernel

mutual

/-- The document that is written for a value. -/
def raw : Json → Raw
  | .null => .null
  | .bool b => .bool b
  | .int n => .num (.ofInt n)
  | .real x => .num (.ofReal x)
  | .str s => .str (pieces s)
  | .arr items => .arr (rawItems items)
  | .obj fields => .obj (rawFields fields)

/-- The documents that are written for the items of an array. -/
def rawItems : List Json → List Raw
  | [] => []
  | v :: rest => v.raw :: rawItems rest

/-- The documents that are written for the fields of an object. -/
def rawFields : List (String × Json) → List (List TextPiece × Raw)
  | [] => []
  | (key, v) :: rest => (pieces key, v.raw) :: rawFields rest

end

theorem rawItems_eq (items : List Json) : rawItems items = items.map raw := by
  induction items with
  | nil => rfl
  | cons v rest ih => rw [rawItems, ih, List.map_cons]

theorem rawFields_eq (fields : List (String × Json)) :
    rawFields fields = fields.map fun (key, v) => (pieces key, v.raw) := by
  induction fields with
  | nil => rfl
  | cons f rest ih => rw [rawFields, ih, List.map_cons]

theorem renderItems_eq (items : List Json) : renderItems items = items.map render := by
  induction items with
  | nil => rfl
  | cons v rest ih => rw [renderItems, ih, List.map_cons]

theorem renderFields_eq (fields : List (String × Json)) :
    renderFields fields = fields.map fun (key, v) => escape key ++ ":" ++ v.render := by
  induction fields with
  | nil => rfl
  | cons f rest ih => rw [renderFields, ih, List.map_cons]

/-- Texts with commas between them: the first one, and the others with a comma before each. -/
theorem toList_intercalate_cons (s : String) (rest : List String) :
    (",".intercalate (s :: rest)).toList = s.toList ++ rest.flatMap (',' :: ·.toList) := by
  induction rest generalizing s with
  | nil => rw [String.intercalate_singleton, List.flatMap_nil, List.append_nil]
  | cons s' rest ih =>
    rw [String.intercalate_cons_cons, String.toList_append, String.toList_append, ih,
      List.flatMap_cons, List.append_assoc]
    rfl

theorem toList_escape_ne_nil (s : String) : (escape s).toList ≠ [] := by
  rw [escape, String.toList_ofList]
  exact List.cons_ne_nil _ _

/-! ## Reading on -/

/-- The reader in a state before a text ends with a document. -/
def Reads (state : ReadState) (cs : List Char) (r : Raw) : Prop :=
  ∃ ts, tokensWithin cs.length cs = some ts ∧ ts.foldlM ReadState.next state = some (.done r)

theorem read_of_reads {s : String} {r : Raw} (reads : Reads (.value []) s.toList r) :
    read s = some r := by
  obtain ⟨ts, lexed, folded⟩ := reads
  rw [read, tokens, ← String.length_toList, lexed]
  show (ts.foldlM ReadState.next (.value [])).bind _ = _
  rw [folded]
  rfl

theorem tokensWithin_of_blank {cs : List Char} (blank : cs.dropWhile isSpace = []) (n : Nat) :
    tokensWithin n cs = some [] := by
  unfold tokensWithin
  rw [blank]

theorem tokensWithin_zero {cs : List Char} (ink : cs.dropWhile isSpace ≠ []) :
    tokensWithin 0 cs = none := by
  unfold tokensWithin
  cases start : cs.dropWhile isSpace with
  | nil => exact absurd start ink
  | cons c later => rfl

theorem tokensWithin_succ {cs : List Char} (ink : cs.dropWhile isSpace ≠ []) (n : Nat) :
    tokensWithin (n + 1) cs = (token (cs.dropWhile isSpace)).bind fun first =>
      (tokensWithin n first.2).map (first.1 :: ·) := by
  conv => lhs; unfold tokensWithin
  cases start : cs.dropWhile isSpace with
  | nil => exact absurd start ink
  | cons c later =>
    show (token (c :: later)).bind _ = _
    congr 1
    funext first
    exact (Option.map_eq_bind).symm

/-- Fuel that is enough stays enough. -/
theorem tokensWithin_mono {n m : Nat} {cs : List Char} {ts : List Token} (le : n ≤ m)
    (lexed : tokensWithin n cs = some ts) : tokensWithin m cs = some ts := by
  induction n generalizing m cs ts with
  | zero =>
    by_cases blank : cs.dropWhile isSpace = []
    · rw [tokensWithin_of_blank blank] at lexed ⊢
      exact lexed
    · rw [tokensWithin_zero blank] at lexed
      cases lexed
  | succ n ih =>
    by_cases blank : cs.dropWhile isSpace = []
    · rw [tokensWithin_of_blank blank] at lexed ⊢
      exact lexed
    · obtain ⟨m, rfl⟩ := Nat.exists_eq_add_one_of_ne_zero (show m ≠ 0 by omega)
      rw [tokensWithin_succ blank] at lexed ⊢
      obtain ⟨first, found, more⟩ := Option.bind_eq_some_iff.1 lexed
      obtain ⟨later, left, rfl⟩ := Option.map_eq_some_iff.1 more
      rw [found, Option.bind_some, ih (Nat.le_of_succ_le_succ le) left]
      rfl

/-- No token starts with a blank. -/
theorem dropWhile_isSpace_of_token {cs rest : List Char} {t : Token}
    (first : token cs = some (t, rest)) : cs ≠ [] ∧ cs.dropWhile isSpace = cs := by
  cases cs with
  | nil => cases first
  | cons c cs =>
    refine ⟨List.cons_ne_nil c cs, ?_⟩
    have ink : isSpace c ≠ true := by
      intro blank
      simp only [isSpace, Bool.or_eq_true, decide_eq_true_eq] at blank
      obtain ((rfl | rfl) | rfl) | rfl := blank <;> cases first
    rw [List.dropWhile_cons, if_neg ink]

namespace Reads

variable {r : Raw} {state state' : ReadState} {t : Token} {w rest : List Char}
  {inside : List OpenPart}

/-- After the whole document nothing is left to read. -/
theorem done (r : Raw) : Reads (.done r) [] r := ⟨[], rfl, rfl⟩

/-- The reader takes a token. -/
theorem next (first : token (w ++ rest) = some (t, rest)) (taken : w ≠ [])
    (step : state.next t = some state') (more : Reads state' rest r) :
    Reads state (w ++ rest) r := by
  obtain ⟨ts, lexed, folded⟩ := more
  obtain ⟨nonempty, ink⟩ := dropWhile_isSpace_of_token first
  refine ⟨t :: ts, ?_, ?_⟩
  · have longer : rest.length + 1 ≤ (w ++ rest).length := by
      have : 0 < w.length := List.length_pos_iff.2 taken
      rw [List.length_append]
      omega
    refine tokensWithin_mono longer ?_
    have nonblank : (w ++ rest).dropWhile isSpace ≠ [] := by rwa [ink]
    rw [tokensWithin_succ nonblank, ink, first, Option.bind_some, lexed]
    rfl
  · rw [List.foldlM_cons, step]
    exact folded

/-- A token of one character. -/
theorem mark {c : Char} (first : token (c :: rest) = some (t, rest))
    (step : state.next t = some state') (more : Reads state' rest r) :
    Reads state (c :: rest) r :=
  next (w := [c]) first (List.cons_ne_nil c []) step more

/-- The first item of an array is read like any other value. -/
theorem firstItem {cs : List Char} (first : Reads (.value (.arr [] :: inside)) cs r) :
    Reads (.firstItem inside) cs r := by
  obtain ⟨ts, lexed, folded⟩ := first
  refine ⟨ts, lexed, ?_⟩
  cases ts with
  | nil => cases folded
  | cons t ts => cases t <;> first | exact folded | cases folded

end Reads

/-! ## Values -/

/-- What is written of a value takes the reader from where the value is due to where it is complete,
if what follows is a delimiter. -/
def Crosses (v : Json) : Prop :=
  ∀ inside {rest r}, Ended rest → Reads (.complete v.raw inside) rest r →
    Reads (.value inside) (v.render.toList ++ rest) r

theorem ended_nil : Ended [] := by
  rintro c ⟨⟩

theorem ended_comma (cs : List Char) : Ended (',' :: cs) := by
  rintro c ⟨⟩
  exact .inl rfl

theorem ended_closeArray (cs : List Char) : Ended (']' :: cs) := by
  rintro c ⟨⟩
  exact .inr (.inl rfl)

theorem ended_closeObject (cs : List Char) : Ended ('\x7d' :: cs) := by
  rintro c ⟨⟩
  exact .inr (.inr rfl)

section Values

variable {inside : List OpenPart} {rest : List Char} {r : Raw}

/-- An integer ends where a delimiter follows. -/
theorem crosses_int (n : Int) : Crosses (.int n) := by
  intro inside rest r ended more
  cases n with
  | ofNat n =>
    have written : (Json.int (.ofNat n)).render.toList = Nat.toDigits 10 n := Nat.toList_repr
    have same : NumberText.ofInt (.ofNat n) = .integer false n := rfl
    rw [written]
    rw [raw, same] at more
    exact more.next (token_natural n ended) Nat.toDigits_ne_nil rfl
  | negSucc n =>
    have written : (Json.int (.negSucc n)).render.toList = '-' :: Nat.toDigits 10 (n + 1) := by
      show ("-" ++ (n + 1).repr).toList = _
      rw [String.toList_append, Nat.toList_repr]
      rfl
    have same : NumberText.ofInt (.negSucc n) = .integer true (n + 1) := by
      rw [NumberText.ofInt, decide_eq_true (Int.negSucc_lt_zero n)]
      rfl
    rw [written]
    rw [raw, same] at more
    exact more.next (token_negative (n + 1) ended) (List.cons_ne_nil _ _) rfl

theorem crosses_negativeZero : Crosses (.real negativeZero) := by
  intro inside rest r ended more
  have written : (Json.real negativeZero).render.toList = ['-', '0', '.', '0'] := by
    decide +kernel
  have first := token_negativeZero ended
  rw [← NumberText.ofReal_negativeZero] at first
  rw [written]
  exact more.next first (List.cons_ne_nil _ _) rfl

/-- After an item of an array a delimiter follows. -/
theorem ended_items (items : List Json) (rest : List Char) :
    Ended ((items.flatMap fun v => ',' :: v.render.toList) ++ ']' :: rest) := by
  cases items with
  | nil => exact ended_closeArray rest
  | cons v items => exact ended_comma _

/-- The items of an array after the first one. -/
theorem reads_items {items : List Json} (all : ∀ v ∈ items, Crosses v) (before : List Raw)
    (more : Reads (.complete (.arr (before.reverse ++ items.map raw)) inside) rest r) :
    Reads (.after (.arr before :: inside))
      ((items.flatMap fun v => ',' :: v.render.toList) ++ ']' :: rest) r := by
  induction items generalizing before with
  | nil =>
    rw [List.map_nil, List.append_nil] at more
    exact more.mark (t := .closeArray) rfl rfl
  | cons v items ih =>
    have later := ih (fun v among => all v (List.mem_cons_of_mem _ among)) (v.raw :: before)
      (by rwa [List.reverse_cons, List.append_assoc, List.singleton_append])
    have item := all v List.mem_cons_self (.arr before :: inside) (ended_items items rest) later
    rw [List.flatMap_cons, List.append_assoc]
    exact item.mark (t := .comma) rfl rfl

theorem crosses_arr {items : List Json} (all : ∀ v ∈ items, Crosses v) :
    Crosses (.arr items) := by
  intro inside rest r ended more
  rw [raw, rawItems_eq] at more
  rw [render, renderItems_eq]
  cases items with
  | nil =>
    have closed : Reads (.firstItem inside) (']' :: rest) r := more.mark (t := .closeArray) rfl rfl
    exact closed.mark (t := .openArray) rfl rfl
  | cons v items =>
    have later := reads_items (fun v among => all v (List.mem_cons_of_mem _ among)) [v.raw] more
    have first := all v List.mem_cons_self (.arr [] :: inside) (ended_items items rest) later
    have written : ("[" ++ ",".intercalate ((v :: items).map render) ++ "]").toList ++ rest =
        '[' :: (v.render.toList ++
          ((items.flatMap fun v => ',' :: v.render.toList) ++ ']' :: rest)) := by
      rw [String.toList_append, String.toList_append, List.map_cons, toList_intercalate_cons,
        List.flatMap_map]
      simp
    rw [written]
    exact first.firstItem.mark (t := .openArray) rfl rfl

/-- What is written of a field. -/
def fieldText (f : String × Json) : List Char := (escape f.1).toList ++ ':' :: f.2.render.toList

/-- After a field of an object a delimiter follows. -/
theorem ended_fields (fields : List (String × Json)) (rest : List Char) :
    Ended ((fields.flatMap fun f => ',' :: fieldText f) ++ '\x7d' :: rest) := by
  cases fields with
  | nil => exact ended_closeObject rest
  | cons f fields => exact ended_comma _

/-- A field of an object, where its key may stand. -/
theorem reads_field {f : String × Json} (crosses : Crosses f.2) {state : ReadState}
    {before : List (List TextPiece × Raw)} (ended : Ended rest)
    (step : state.next (.str (pieces f.1)) =
      some (.colon (.field before (pieces f.1) :: inside)))
    (more : Reads (.after (.obj ((pieces f.1, f.2.raw) :: before) :: inside)) rest r) :
    Reads state (fieldText f ++ rest) r := by
  have value := crosses (.field before (pieces f.1) :: inside) ended more
  have colon : Reads (.colon (.field before (pieces f.1) :: inside))
      (':' :: (f.2.render.toList ++ rest)) r := value.mark (t := .colon) rfl rfl
  have key := colon.next (token_escape f.1 _) (toList_escape_ne_nil f.1) step
  rwa [fieldText, List.append_assoc, List.cons_append]

/-- The fields of an object after the first one. -/
theorem reads_fields {fields : List (String × Json)} (all : ∀ f ∈ fields, Crosses f.2)
    (before : List (List TextPiece × Raw))
    (more : Reads (.complete (.obj (before.reverse ++
      fields.map fun (key, v) => (pieces key, v.raw))) inside) rest r) :
    Reads (.after (.obj before :: inside))
      ((fields.flatMap fun f => ',' :: fieldText f) ++ '\x7d' :: rest) r := by
  induction fields generalizing before with
  | nil =>
    rw [List.map_nil, List.append_nil] at more
    exact more.mark (t := .closeObject) rfl rfl
  | cons f fields ih =>
    have later := ih (fun f among => all f (List.mem_cons_of_mem _ among))
      ((pieces f.1, f.2.raw) :: before)
      (by rwa [List.reverse_cons, List.append_assoc, List.singleton_append])
    have field : Reads (.key before inside) (fieldText f ++ _) r :=
      reads_field (all f List.mem_cons_self) (ended_fields fields rest) rfl later
    rw [List.flatMap_cons, List.append_assoc]
    exact field.mark (t := .comma) rfl rfl

theorem crosses_obj {fields : List (String × Json)} (all : ∀ f ∈ fields, Crosses f.2) :
    Crosses (.obj fields) := by
  intro inside rest r ended more
  rw [raw, rawFields_eq] at more
  rw [render, renderFields_eq]
  cases fields with
  | nil =>
    have closed : Reads (.firstKey inside) ('\x7d' :: rest) r :=
      more.mark (t := .closeObject) rfl rfl
    exact closed.mark (t := .openObject) rfl rfl
  | cons f fields =>
    have later := reads_fields (fun f among => all f (List.mem_cons_of_mem _ among))
      [(pieces f.1, f.2.raw)] more
    have first : Reads (.firstKey inside) (fieldText f ++ _) r :=
      reads_field (all f List.mem_cons_self) (ended_fields fields rest) rfl later
    have written : ("\x7b" ++ ",".intercalate ((f :: fields).map fun (key, v) =>
          escape key ++ ":" ++ v.render) ++ "\x7d").toList ++ rest =
        '\x7b' :: (fieldText f ++
          ((fields.flatMap fun f => ',' :: fieldText f) ++ '\x7d' :: rest)) := by
      rw [String.toList_append, String.toList_append, List.map_cons, toList_intercalate_cons,
        List.flatMap_map]
      simp [fieldText]
    rw [written]
    exact first.mark (t := .openObject) rfl rfl

end Values

/-- What is written of a value takes the reader over it. -/
theorem Integral.crosses {v : Json} (integral : v.Integral) : Crosses v := by
  induction integral with
  | null =>
    intro inside rest r _ more
    exact more.next (w := ['n', 'u', 'l', 'l']) rfl (List.cons_ne_nil _ _) rfl
  | bool b =>
    intro inside rest r _ more
    cases b with
    | true => exact more.next (w := ['t', 'r', 'u', 'e']) rfl (List.cons_ne_nil _ _) rfl
    | false => exact more.next (w := ['f', 'a', 'l', 's', 'e']) rfl (List.cons_ne_nil _ _) rfl
  | int n => exact crosses_int n
  | negativeZero => exact crosses_negativeZero
  | str s =>
    intro inside rest r _ more
    exact more.next (token_escape s rest) (toList_escape_ne_nil s) rfl
  | arr all ih => exact crosses_arr ih
  | obj all ih => exact crosses_obj ih

/-- The written form of a value is read as the document that is written for it. -/
theorem Integral.read_render {v : Json} (integral : v.Integral) : read v.render = some v.raw := by
  refine read_of_reads ?_
  have whole : Reads (.value []) (v.render.toList ++ []) v.raw :=
    integral.crosses [] ended_nil (Reads.done v.raw)
  rwa [List.append_nil] at whole

end PlotMachine.Json
