import Mathlib
import PlotMachine.Json.Reader

/-!
# Tokens of written values

What is written of a number or of a text is one token again. A number ends where a delimiter follows
(`number_toDigits`), a text at its closing quote (`token_escape`).
-/

namespace PlotMachine.Json

/-! ## Numbers -/

/-- The decimal digits of a natural number. -/
def decimals (n : Nat) : List Nat := (Nat.toDigits 10 n).map fun c => c.toNat - '0'.toNat

/-- Nothing follows, or a delimiter that stands after a value. -/
def Ended (cs : List Char) : Prop := ∀ c ∈ cs.head?, c = ',' ∨ c = ']' ∨ c = '\x7d'

/-- An integer as it is written. -/
def NumberText.integer (negative : Bool) (n : Nat) : NumberText :=
  { negative, whole := decimals n, fraction := [], isReal := false, exponentNegative := false,
    exponent := [] }

theorem isDigit_of_mem_toDigits {n : Nat} {c : Char} (inside : c ∈ Nat.toDigits 10 n) :
    c.isDigit = true :=
  Nat.isDigit_of_mem_toDigits (by decide) (by decide) inside

theorem digit?_of_isDigit {c : Char} (digit : c.isDigit = true) :
    digit? c = some (c.toNat - '0'.toNat) := by
  simp only [Char.isDigit, Bool.and_eq_true, decide_eq_true_eq] at digit
  exact if_pos digit

theorem digits_append {cs rest : List Char} (all : ∀ c ∈ cs, c.isDigit = true)
    (ended : Ended rest) :
    digits (cs ++ rest) = (cs.map fun c => c.toNat - '0'.toNat, rest) := by
  induction cs with
  | nil =>
    cases rest with
    | nil => rfl
    | cons c rest =>
      have none : digit? c = none := by
        obtain rfl | rfl | rfl := ended c rfl <;> rfl
      show digits (c :: rest) = _
      rw [digits, none]
      rfl
  | cons c cs ih =>
    have first : c.isDigit = true := all c List.mem_cons_self
    rw [List.cons_append, digits, digit?_of_isDigit first,
      ih fun c inside => all c (List.mem_cons_of_mem _ inside)]
    rfl

/-- The digits of a number other than zero do not start with zero. -/
theorem decimals_of_pos (n : Nat) (pos : 0 < n) : ∃ d ds, decimals n = (d + 1) :: ds := by
  induction n using Nat.strongRecOn with
  | _ n ih =>
    by_cases small : n < 10
    · refine ⟨n - 1, [], ?_⟩
      rw [decimals, Nat.toDigits_of_lt_base small, List.map_singleton,
        Nat.toNat_digitChar_of_lt_ten small]
      show [48 + n - 48] = [n - 1 + 1]
      rw [Nat.add_sub_cancel_left, Nat.sub_add_cancel pos]
    · obtain ⟨d, ds, head⟩ := ih (n / 10) (by omega) (by omega)
      rw [decimals, Nat.toDigits_of_base_le (by decide) (Nat.le_of_not_lt small), List.map_append]
      exact ⟨d, _, by rw [← decimals, head, List.cons_append]⟩

theorem wholeDigits_toDigits (n : Nat) {rest : List Char} (ended : Ended rest) :
    wholeDigits (Nat.toDigits 10 n ++ rest) = some (decimals n, rest) := by
  have read : digits (Nat.toDigits 10 n ++ rest) = (decimals n, rest) :=
    digits_append (fun _ => isDigit_of_mem_toDigits) ended
  unfold wholeDigits
  rw [read]
  by_cases zero : n = 0
  · rw [zero]
    rfl
  · obtain ⟨d, ds, head⟩ := decimals_of_pos n (Nat.pos_of_ne_zero zero)
    rw [head]
    cases ds with
    | nil => rfl
    | cons d' ds => rfl

theorem fractionDigits_of_ended {rest : List Char} (ended : Ended rest) :
    fractionDigits rest = some (false, [], rest) := by
  cases rest with
  | nil => rfl
  | cons c rest => obtain rfl | rfl | rfl := ended c rfl <;> rfl

theorem exponentDigits_of_ended {rest : List Char} (ended : Ended rest) :
    exponentDigits rest = some (false, false, [], rest) := by
  cases rest with
  | nil => rfl
  | cons c rest => obtain rfl | rfl | rfl := ended c rfl <;> rfl

theorem number_toDigits (negative : Bool) (n : Nat) {rest : List Char} (ended : Ended rest) :
    number negative (Nat.toDigits 10 n ++ rest) = some (.integer negative n, rest) := by
  unfold number
  rw [wholeDigits_toDigits n ended]
  simp only [Option.bind_eq_bind, Option.bind_some, fractionDigits_of_ended ended,
    exponentDigits_of_ended ended]
  rfl

/-- A token that starts with a digit is a number. -/
theorem token_of_isDigit {c : Char} (digit : c.isDigit = true) (cs : List Char) :
    token (c :: cs) = (number false (c :: cs)).map fun (n, rest) => (.num n, rest) := by
  unfold token
  split
  -- all other tokens start with another character
  case h_12 => rfl
  all_goals
    next same =>
    rw [(List.cons.inj same).1] at digit
    cases digit

/-- A natural number that is written is one token up to a delimiter. -/
theorem token_natural (n : Nat) {rest : List Char} (ended : Ended rest) :
    token (Nat.toDigits 10 n ++ rest) = some (.num (.integer false n), rest) := by
  have read := number_toDigits false n ended
  cases digits : Nat.toDigits 10 n with
  | nil => exact absurd digits Nat.toDigits_ne_nil
  | cons c cs =>
    have first : c.isDigit = true :=
      isDigit_of_mem_toDigits (n := n) (digits ▸ List.mem_cons_self)
    rw [digits, List.cons_append] at read
    rw [List.cons_append, token_of_isDigit first, read]
    rfl

/-- So is a negative one. -/
theorem token_negative (n : Nat) {rest : List Char} (ended : Ended rest) :
    token ('-' :: (Nat.toDigits 10 n ++ rest)) = some (.num (.integer true n), rest) := by
  rw [token, number_toDigits true n ended]
  rfl

/-- Zero with a sign, which is written as a real. -/
def NumberText.negativeZero : NumberText :=
  { NumberText.integer true 0 with fraction := [0], isReal := true }

theorem token_negativeZero {rest : List Char} (ended : Ended rest) :
    token (['-', '0', '.', '0'] ++ rest) = some (.num .negativeZero, rest) := by
  have zero : digit? '0' = some 0 := by decide
  have stop : digit? '.' = none := by decide
  have point : wholeDigits ('0' :: '.' :: '0' :: rest) = some ([0], '.' :: '0' :: rest) := by
    rw [wholeDigits, digits, zero, digits, stop]
    rfl
  have fraction : digits ('0' :: rest) = ([0], rest) := by
    have read := @digits_append ['0'] rest (List.forall_mem_singleton.2 rfl) ended
    rwa [List.singleton_append, List.map_singleton, Nat.sub_self] at read
  have places : fractionDigits ('.' :: '0' :: rest) = some (true, [0], rest) := by
    rw [fractionDigits, fraction]
  show (number true ('0' :: '.' :: '0' :: rest)).map _ = _
  rw [number, point]
  simp only [Option.bind_eq_bind, Option.bind_some, places, exponentDigits_of_ended ended]
  rfl

/-! ## Texts -/

/-- The control characters that are written with a letter of their own. -/
def lettered : List Char := ['\n', '\r', '\t', Char.ofNat 8, Char.ofNat 12]

/-- A character of a text as it is written: the other control characters are given by number. -/
def piece (c : Char) : TextPiece :=
  if c.toNat < 32 ∧ c ∉ lettered then .unit c.toNat else .char c

/-- A text as it is written. -/
def pieces (s : String) : List TextPiece := s.toList.map piece

theorem hex4_of_lt : ∀ n < 32,
    hex4 n = ['0', '0', Nat.digitChar (n / 16), Nat.digitChar (n % 16)] := by
  decide

theorem hexUnit?_of_lt : ∀ n < 32,
    hexUnit? '0' '0' (Nat.digitChar (n / 16)) (Nat.digitChar (n % 16)) = some n := by
  decide

/-- A character that is written with a letter is read back by that letter. -/
theorem escapeChar_of_mem : ∀ c ∈ '"' :: '\\' :: lettered, ∃ l,
    escapeChar c = ['\\', l] ∧ l ≠ 'u' ∧ escaped? l = some c ∧ piece c = .char c := by
  simp only [lettered, List.forall_mem_cons]
  exact ⟨⟨'"', by decide⟩, ⟨'\\', by decide⟩, ⟨'n', by decide⟩, ⟨'r', by decide⟩, ⟨'t', by decide⟩,
    ⟨'b', by decide⟩, ⟨'f', by decide⟩, List.forall_mem_nil _⟩

theorem escapeChar_of_not_mem {c : Char} (plain : c ∉ '"' :: '\\' :: lettered) :
    escapeChar c = if c.toNat < 32 then '\\' :: 'u' :: hex4 c.toNat else [c] := by
  have numbered : ∀ {n}, c ≠ Char.ofNat n → c.toNat ≠ n := by
    rintro n other rfl
    exact other (Char.ofNat_toNat c).symm
  simp only [lettered, List.mem_cons, not_or] at plain
  obtain ⟨quote, backslash, feed, carriage, tab, back, page, -⟩ := plain
  unfold escapeChar
  rw [if_neg quote, if_neg backslash, if_neg feed, if_neg carriage, if_neg tab,
    if_neg (numbered back), if_neg (numbered page)]

theorem textPieces_letter {l c : Char} (other : l ≠ 'u') (read : escaped? l = some c)
    (cs : List Char) :
    textPieces ('\\' :: l :: cs) = (textPieces cs).map fun more => (.char c :: more.1, more.2) := by
  rw [textPieces, read]
  · cases textPieces cs with
    | none => rfl
    | some more => rfl
  · intro _ _ _ _ _ unit
    exact absurd unit other

theorem textPieces_unit {n : Nat} (control : n < 32) (cs : List Char) :
    textPieces ('\\' :: 'u' :: (hex4 n ++ cs)) =
      (textPieces cs).map fun more => (.unit n :: more.1, more.2) := by
  rw [hex4_of_lt n control]
  show textPieces ('\\' :: 'u' :: '0' :: '0' :: _ :: _ :: cs) = _
  rw [textPieces, hexUnit?_of_lt n control]
  cases textPieces cs with
  | none => rfl
  | some more => rfl

theorem textPieces_char {c : Char} (ink : 32 ≤ c.toNat) (quote : c ≠ '"') (backslash : c ≠ '\\')
    (cs : List Char) :
    textPieces (c :: cs) = (textPieces cs).map fun more => (.char c :: more.1, more.2) := by
  have allowed : guard (f := Option) (32 ≤ c.toNat ∧ c ≠ '\\') = some () :=
    if_pos ⟨ink, backslash⟩
  rw [textPieces, allowed]
  · cases textPieces cs with
    | none => rfl
    | some more => rfl
  · exact quote
  · intro _ _ _ _ _ same
    exact absurd same backslash
  · intro _ _ same
    exact absurd same backslash

/-- What is written of a character is one piece again. -/
theorem textPieces_escapeChar (c : Char) (cs : List Char) :
    textPieces (escapeChar c ++ cs) =
      (textPieces cs).map fun more => (piece c :: more.1, more.2) := by
  by_cases special : c ∈ '"' :: '\\' :: lettered
  · obtain ⟨l, written, other, read, same⟩ := escapeChar_of_mem c special
    rw [written, same]
    exact textPieces_letter other read cs
  · rw [escapeChar_of_not_mem special]
    simp only [List.mem_cons, not_or] at special
    obtain ⟨quote, backslash, unlettered⟩ := special
    by_cases control : c.toNat < 32
    · rw [if_pos control, piece, if_pos ⟨control, unlettered⟩]
      exact textPieces_unit control cs
    · rw [if_neg control, piece, if_neg fun both => control both.1]
      exact textPieces_char (Nat.le_of_not_lt control) quote backslash cs

theorem textPieces_escape (s : List Char) (rest : List Char) :
    textPieces (s.flatMap escapeChar ++ '"' :: rest) = some (s.map piece, rest) := by
  induction s with
  | nil => rfl
  | cons c s ih =>
    rw [List.flatMap_cons, List.append_assoc, textPieces_escapeChar, ih]
    rfl

/-- A text that is written is one token. -/
theorem token_escape (s : String) (rest : List Char) :
    token ((escape s).toList ++ rest) = some (.str (pieces s), rest) := by
  have written : (escape s).toList ++ rest =
      '"' :: (s.toList.flatMap escapeChar ++ '"' :: rest) := by
    rw [escape, String.toList_ofList, List.append_assoc]
    rfl
  rw [written, token, textPieces_escape]
  rfl

/-- The pieces of a text are no surrogates, so they denote the characters that were written. -/
theorem characters_pieces (s : List Char) : characters (s.map piece) = some s := by
  induction s with
  | nil => rfl
  | cons c s ih =>
    rw [List.map_cons]
    by_cases control : c.toNat < 32 ∧ c ∉ lettered
    · have low : ¬ (0xd800 ≤ c.toNat ∧ c.toNat < 0xdc00) := by omega
      have high : ¬ (0xdc00 ≤ c.toNat ∧ c.toNat < 0xe000) := by omega
      rw [piece, if_pos control]
      unfold characters
      rw [if_neg low, if_neg high, ih, Char.ofNat_toNat]
      rfl
    · rw [piece, if_neg control, characters, ih]
      rfl

theorem textOf?_pieces (s : String) : textOf? (pieces s) = some s := by
  rw [textOf?, pieces, characters_pieces]
  exact congrArg some String.ofList_toList

end PlotMachine.Json
