import PlotMachine.Fault
import PlotMachine.Store

/-!
# Labels

Arithmetic on labels. Offsets are unsigned 64-bit words and displacements are signed ones, so a
label may lie far past the end of its program; it can be moved and compared there, but not
dereferenced.
-/

namespace PlotMachine

/-- The number of 64-bit words. -/
def wordCount : Nat := 0x10000000000000000

/-- The greatest signed 64-bit word. -/
def maxSigned : Int := 0x7fffffffffffffff

/-- The least signed 64-bit word. -/
def minSigned : Int := -0x8000000000000000

/-- An offset read as a signed word. -/
def signedOffset (offset : Nat) : Int := (offset : Int).bmod wordCount

/-- An offset that is a signed word reads as itself. -/
theorem signedOffset_eq {offset : Nat} (short : (offset : Int) ≤ maxSigned) :
    signedOffset offset = offset := by
  refine Int.bmod_eq_of_le ?_ ?_
  all_goals simp only [wordCount, maxSigned] at *; omega

/-- The signed word that is nearest to an integer. -/
def saturated (n : Int) : Int := max minSigned (min maxSigned n)

/-- An offset with a displacement added, if that is a word. -/
def displaced? (offset : Nat) (by_ : Int) : Option Nat :=
  let target := (offset : Int) + by_
  if 0 ≤ target ∧ target < wordCount then some target.toNat else none

/-- An offset with a displacement added, if that is a word that is also a signed one. -/
def reached? (offset : Nat) (by_ : Int) : Option Nat :=
  (displaced? offset by_).filter fun (target : Nat) => (target : Int) ≤ maxSigned

/-- The two checks of an offset come to one. -/
theorem reached?_eq (offset : Nat) (by_ : Int) :
    reached? offset by_ =
      if 0 ≤ offset + by_ ∧ offset + by_ ≤ maxSigned then some (offset + by_).toNat else none := by
  rw [reached?, displaced?]
  by_cases word : 0 ≤ offset + by_ ∧ offset + by_ < wordCount
  · rw [if_pos word, Option.filter_some, Int.toNat_of_nonneg word.1]
    simp only [word.1, true_and, decide_eq_true_eq]
  · have unsigned : ¬ (0 ≤ offset + by_ ∧ offset + by_ ≤ maxSigned) := by
      simp only [maxSigned, wordCount] at *
      omega
    rw [if_neg word, if_neg unsigned, Option.filter_none]

namespace Store

/-- The length of the program that a label points into; nothing is left of a discarded one. -/
def labelledLength (s : Store) (l : Label) : Nat :=
  match l.program with
  | some p => (s.code p).size
  | none => 0

/-- Moves a label in its place: what comes of it, and the label afterwards. It goes where a signed word
can name it, or it stays and the move fails. -/
def displace (s : Store) (l : Label) (by_ : Int) : Except Fault Unit × Label :=
  match reached? l.offset by_ with
  | some target => (.ok (), { l with offset := target })
  | none =>
    (.error (.labelOutOfBounds (saturated (signedOffset l.offset + by_)) (s.labelledLength l)), l)

/-- A label that can be moved ends up the displacement away, in its program. -/
theorem displace_eq_ok {s : Store} {l : Label} {by_ : Int} (low : 0 ≤ l.offset + by_)
    (high : l.offset + by_ ≤ maxSigned) :
    s.displace l by_ = (.ok (), { l with offset := (l.offset + by_).toNat }) := by
  rw [displace, reached?_eq, if_pos ⟨low, high⟩]

/-- A label that cannot be moved stays where it is. -/
theorem displace_eq_error {s : Store} {l : Label} {by_ : Int}
    (off : ¬ (0 ≤ l.offset + by_ ∧ l.offset + by_ ≤ maxSigned)) :
    s.displace l by_ =
      (.error (.labelOutOfBounds (saturated (signedOffset l.offset + by_)) (s.labelledLength l)), l) := by
  rw [displace, reached?_eq, if_neg off]

/-- A copy of a label, moved. -/
def advance (s : Store) (l : Label) (by_ : Int) : Except Fault Label :=
  match s.displace l by_ with
  | (.ok (), moved) => .ok moved
  | (.error fault, _) => .error fault

/-- A copy goes where the label that it is a copy of goes, or there is none. -/
theorem advance_eq_ok_iff {s : Store} {l l' : Label} {by_ : Int} :
    s.advance l by_ = .ok l' ↔ (0 ≤ l.offset + by_ ∧ l.offset + by_ ≤ maxSigned) ∧
      l' = { l with offset := (l.offset + by_).toNat } := by
  by_cases reached : 0 ≤ l.offset + by_ ∧ l.offset + by_ ≤ maxSigned
  · rw [advance, displace_eq_ok reached.1 reached.2]
    constructor
    · rintro ⟨⟩
      exact ⟨reached, rfl⟩
    · rintro ⟨-, rfl⟩
      rfl
  · rw [advance, displace_eq_error reached]
    constructor
    · rintro ⟨⟩
    · exact fun both => absurd both.1 reached

/-- The instruction at a label. -/
def dereference (s : Store) (l : Label) : Except Fault Instr :=
  match l.program.bind s.code? with
  | none => .error .danglingLabel
  | some code =>
    match code[l.offset]? with
    | some i => .ok i
    | none => .error (.labelOutOfBounds (signedOffset l.offset) code.size)

/-- Replaces the instruction at a label, which must lie in the program. -/
def patch (s : Store) (p : ProgramRef) (at_ : Label) (i : Instr) : Except Fault Store :=
  if at_.program = some p then
    let length := (s.code p).size
    if at_.offset < length then
      .ok { s with programs := s.programs.modify p.index (Option.map (·.setIfInBounds at_.offset i)) }
    else .error (.labelOutOfBounds (signedOffset at_.offset) length)
  else .error .labelMismatch

end Store

namespace Label

/-- Whether two labels point into one program. -/
def sameProgram (a b : Label) : Bool := a.program == b.program

/-- The label after this one. -/
def next (l : Label) : Label := { l with offset := (l.offset + 1) % wordCount }

/-- How many instructions there are from one label to another. -/
def distanceTo (a b : Label) : Except Fault Int :=
  if a.sameProgram b then .ok ((signedOffset b.offset - signedOffset a.offset).bmod wordCount)
  else .error .labelMismatch

/-- The order of two labels of one program. -/
def compare? (a b : Label) : Option Ordering :=
  if a.sameProgram b then some (compare a.offset b.offset) else none

/-- The offset of a label in a program that must be its own. -/
def offsetIn (l : Label) (p : ProgramRef) : Except Fault Nat :=
  if l.program = some p then .ok l.offset else .error .labelMismatch

end Label

end PlotMachine
