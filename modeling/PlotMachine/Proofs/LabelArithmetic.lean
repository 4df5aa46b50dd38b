import PlotMachine.Label

/-!
# Labels of one program form a line

A label is a place on the line of offsets of its program, and a displacement leads from one place to
another. A move adds the displacement exactly, or fails and leaves the label where it is: nothing wraps
around at either end. Distances are differences of offsets (`Label.distanceTo_eq`), so that the distance
from one label to another is the displacement that leads there, changes its sign with the direction and
orders the two. Offsets beyond the greatest signed word are no part of the line: labels can have them, but
cannot be moved to them. `Store.label_arithmetic` says all this at once.
-/

namespace PlotMachine

namespace Label

variable {a b : Label}

/-- Labels are equal if they point into one program at one offset. -/
theorem eq_iff : a = b ↔ a.sameProgram b = true ∧ a.offset = b.offset := by
  rw [sameProgram, beq_iff_eq]
  cases a
  cases b
  rw [Label.mk.injEq]

/-- The distance of labels on the line is the difference of their offsets. -/
theorem distanceTo_eq (same : a.sameProgram b = true) (short : (a.offset : Int) ≤ maxSigned)
    (short' : (b.offset : Int) ≤ maxSigned) : a.distanceTo b = .ok (b.offset - a.offset) := by
  rw [distanceTo, if_pos same, signedOffset_eq short, signedOffset_eq short', Int.bmod_eq_of_le]
  all_goals simp only [wordCount, maxSigned] at *; omega

theorem sameProgram_comm (a b : Label) : a.sameProgram b = b.sameProgram a := by
  rw [sameProgram, sameProgram, Bool.beq_comm]

/-- Labels of one program are ordered by their offsets. -/
theorem compare?_eq (same : a.sameProgram b = true) :
    a.compare? b = some (compare a.offset b.offset) :=
  if_pos same

end Label

namespace Store

variable {s : Store}

/-- The distance from one label to another is the displacement that leads there. -/
theorem displace_distance {a b : Label} (same : a.sameProgram b = true)
    (short : (b.offset : Int) ≤ maxSigned) :
    s.displace a (b.offset - a.offset) = (.ok (), b) := by
  have there : (a.offset : Int) + (b.offset - a.offset) = b.offset := by omega
  rw [displace_eq_ok (by omega) (by omega), there]
  exact congrArg (Prod.mk _) (Label.eq_iff.2 ⟨same, Int.toNat_natCast b.offset⟩)

/-- A displacement measures the way from one label to another: it is their distance, leads from the one to
the other, has the opposite sign the other way, and tells which of them comes first. -/
structure Measures (s : Store) (a b : Label) (d : Int) : Prop where
  distance : a.distanceTo b = .ok d
  signed : minSigned ≤ d ∧ d ≤ maxSigned
  moved : s.displace a d = (.ok (), b)
  copied : s.advance a d = .ok b
  back : b.distanceTo a = .ok (-d)
  before_iff : a.compare? b = some .lt ↔ 0 < d
  same_iff : a = b ↔ d = 0
  after_iff : a.compare? b = some .gt ↔ d < 0

/-- Between labels on the line of a program the difference of their offsets measures the way. -/
theorem measures {a b : Label} (same : a.sameProgram b = true) (short : a.offset ≤ maxSigned)
    (short' : b.offset ≤ maxSigned) : s.Measures a b (b.offset - a.offset) := by
  have back : b.sameProgram a = true := by rwa [Label.sameProgram_comm]
  have moved : s.displace a (b.offset - a.offset) = (.ok (), b) := displace_distance same short'
  refine ⟨Label.distanceTo_eq same short short', ?_, moved, by rw [advance, moved], ?_, ?_, ?_, ?_⟩
  · simp only [minSigned, maxSigned] at *
    omega
  · rw [Label.distanceTo_eq back short' short, Int.neg_sub]
  · rw [Label.compare?_eq same, Option.some_inj, Nat.compare_eq_lt]
    omega
  · rw [Label.eq_iff, same, eq_self, true_and]
    omega
  · rw [Label.compare?_eq same, Option.some_inj, Nat.compare_eq_gt]
    omega

/-- Moves add displacements exactly, where a signed word can name the sum, or fail and leave the label
where it is. Between labels of one program with signed offsets there is a displacement that measures the
way. Labels of different programs have no distance, are not equal and have no order. -/
theorem label_arithmetic (s : Store) :
    (∀ (l : Label) (n : Int),
      (0 ≤ l.offset + n ∧ l.offset + n ≤ maxSigned →
        ∃ moved, s.displace l n = (.ok (), moved) ∧ s.advance l n = .ok moved ∧
          moved.sameProgram l = true ∧ moved.offset = l.offset + n) ∧
      (¬ (0 ≤ l.offset + n ∧ l.offset + n ≤ maxSigned) →
        ∃ reported length, s.displace l n = (.error (.labelOutOfBounds reported length), l) ∧
          s.advance l n = .error (.labelOutOfBounds reported length))) ∧
    (∀ a b : Label, a.sameProgram b = true → a.offset ≤ maxSigned → b.offset ≤ maxSigned →
      ∃ d, s.Measures a b d) ∧
    ∀ a b : Label, a.sameProgram b = false →
      a.distanceTo b = .error .labelMismatch ∧ a ≠ b ∧ a.compare? b = none := by
  refine ⟨fun l n => ⟨?_, ?_⟩, ?_, ?_⟩
  · rintro ⟨low, high⟩
    have moved : s.displace l n = (.ok (), { l with offset := (l.offset + n).toNat }) :=
      displace_eq_ok low high
    refine ⟨_, moved, by rw [advance, moved], ?_, Int.toNat_of_nonneg low⟩
    exact beq_self_eq_true l.program
  · intro off
    have stays := displace_eq_error (s := s) off
    exact ⟨_, _, stays, by rw [advance, stays]⟩
  · exact fun a b same short short' => ⟨_, measures same short short'⟩
  · intro a b apart
    have different : ¬ a.sameProgram b = true := by
      rw [apart]
      exact Bool.false_ne_true
    exact ⟨if_neg different, fun equal => different (Label.eq_iff.1 equal).1, if_neg different⟩

/-- From the start of a program to the last label that can be moved to and back, the label beyond it, which
cannot, and another program. -/
theorem label_arithmetic_ends :
    let start : Label := ⟨some ⟨0⟩, 0⟩
    let last : Label := ⟨some ⟨0⟩, 0x7fffffffffffffff⟩
    let foreign : Label := ⟨some ⟨1⟩, 0⟩
    (∃ d, last.distanceTo start = .ok d ∧ d < 0 ∧ ({} : Store).displace last d = (.ok (), start)) ∧
      (∃ f, ({} : Store).displace last 1 = (.error f, last)) ∧ start.compare? foreign = none := by
  intro start last foreign
  obtain ⟨moves, measured, apart⟩ := label_arithmetic {}
  obtain ⟨d, way⟩ := measured last start rfl (by decide) (by decide)
  obtain ⟨reported, length, stays, -⟩ := (moves last 1).2 (by decide)
  exact ⟨⟨d, way.distance, way.after_iff.1 rfl, way.moved⟩, ⟨_, stays⟩,
    (apart start foreign rfl).2.2⟩

end Store

end PlotMachine
