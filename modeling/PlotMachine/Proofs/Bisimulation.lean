import Mathlib
import PlotMachine.Value.Equality

/-!
# Equality of values is the greatest bisimulation

Arrays refer to each other freely, so equality of values cannot be defined by recursion on them. It
is pinned down from above: a relation is a *bisimulation* if all pairs in it look alike and have
items that are in it again, and equality is the largest one.

`Heap.equalAll` never takes back that a pair of arrays it once opened is equal. When it answers true,
the pairs it opened form a bisimulation (`Heap.exists_opened`), and when there is a bisimulation it
cannot answer false (`Heap.equalAll_of_bisimulation`). Reals that are not numbers differ from
themselves, so equality is symmetric and transitive but not reflexive.
-/

namespace PlotMachine

/-! ## Comparison by reference -/

/-- Reals are equal if they are numbers and the same one, or both zero. So it does not matter which
one comes first. -/
theorem real_beq_symm {x y : Float} (same : (x == y) = true) : (y == x) = true := by
  rw [Float.beq_iff_ne_nan_and_eq] at same ⊢
  grind

theorem real_beq_trans {x y z : Float} (first : (x == y) = true) (second : (y == z) = true) :
    (x == z) = true := by
  rw [Float.beq_iff_ne_nan_and_eq] at first second ⊢
  grind

namespace Value

theorem sameRef_symm {x y : Value} (same : x.sameRef y = true) : y.sameRef x = true := by
  cases x <;> cases y <;> simp only [sameRef, Bool.false_eq_true] at same ⊢
  case real.real => exact real_beq_symm same
  case callable.callable =>
    simp only [Callable.sameObject, beq_iff_eq] at same ⊢
    exact same.symm
  all_goals
    simp only [beq_iff_eq] at same ⊢
    exact same.symm

theorem sameRef_trans {x y z : Value} (first : x.sameRef y = true) (second : y.sameRef z = true) :
    x.sameRef z = true := by
  cases x <;> cases y <;> simp only [sameRef, Bool.false_eq_true] at first <;>
    cases z <;> simp only [sameRef, Bool.false_eq_true] at second ⊢
  case real.real.real => exact real_beq_trans first second
  case callable.callable.callable =>
    simp only [Callable.sameObject, beq_iff_eq] at first second ⊢
    exact first.trans second
  all_goals
    simp only [beq_iff_eq] at first second ⊢
    exact first.trans second

end Value

namespace Heap

/-! ## Bisimulations -/

/-- What is asked of two equal values, where `R` says which items are equal: arrays are one object or
have items that are equal one by one, and all other values are the same by reference. -/
def Matches (h : Heap) (R : Value → Value → Prop) : Value → Value → Prop
  | .array a, .array b => a = b ∨ List.Forall₂ R (h.items a).toList (h.items b).toList
  | x, y => x.sameRef y = true

/-- All pairs that are related have what is asked of equal values. -/
def Bisimulation (h : Heap) (R : Value → Value → Prop) : Prop := ∀ x y, R x y → h.Matches R x y

variable {h : Heap} {R S : Value → Value → Prop}

theorem Matches.imp {x y : Value} (found : h.Matches R x y) (weaker : ∀ x y, R x y → S x y) :
    h.Matches S x y := by
  cases x <;> cases y
  case array.array a b => exact Or.imp_right (List.Forall₂.imp weaker) found
  all_goals exact found

theorem Matches.flip {x y : Value} (found : h.Matches R x y) :
    h.Matches (fun x y => R y x) y x := by
  cases x <;> cases y
  case array.array a b => exact Or.imp Eq.symm List.Forall₂.flip found
  all_goals exact Value.sameRef_symm found

/-- An array matches only arrays. -/
theorem Matches.exists_array {a : ArrayRef} {y : Value} (found : h.Matches R (.array a) y) :
    ∃ b, y = .array b := by
  cases y with
  | array b => exact ⟨b, rfl⟩
  | _ => cases found

/-- Lists whose items are related over a third list are related. -/
theorem forall₂_comp {xs ys zs : List Value} (first : List.Forall₂ R xs ys)
    (second : List.Forall₂ S ys zs) :
    List.Forall₂ (fun x z => ∃ y, R x y ∧ S y z) xs zs := by
  induction first generalizing zs with
  | nil =>
    cases second
    exact .nil
  | cons head _ ih =>
    cases second with
    | cons head' tail' => exact .cons ⟨_, head, head'⟩ (ih tail')

/-- Pairs that match over a third value match with items that are related directly or over a third
one. Directly, since two arrays may be one object whose items are not equal to themselves. -/
theorem Matches.comp {x y z : Value} (first : h.Matches R x y) (second : h.Matches R y z) :
    h.Matches (fun x z => R x z ∨ ∃ y, R x y ∧ R y z) x z := by
  cases x with
  | array a =>
    obtain ⟨b, rfl⟩ := first.exists_array
    obtain ⟨c, rfl⟩ := second.exists_array
    rcases first with rfl | items
    · exact second.imp fun _ _ => .inl
    · rcases second with rfl | items'
      · exact .inr (items.imp fun _ _ => .inl)
      · exact .inr ((forall₂_comp items items').imp fun _ _ => .inr)
  | _ =>
    cases y with
    | array b => cases first
    | _ => exact Value.sameRef_trans first second

/-! ## What a comparison finds out -/

/-- Two values are equal if the pairs of arrays in `opened` are. -/
def Granted (opened : List (ArrayRef × ArrayRef)) : Value → Value → Prop
  | .array a, .array b => a = b ∨ (a, b) ∈ opened
  | x, y => x.sameRef y = true

/-- A comparison that finds all pairs equal has opened pairs of arrays that make them equal, and the
items of every pair it opened are equal for the same reason. -/
theorem exists_opened {seen : List (ArrayRef × ArrayRef)} {work : List (Value × Value)}
    (answer : h.equalAll seen work = true) :
    ∃ opened, (∀ p ∈ seen, p ∈ opened) ∧ (∀ p ∈ work, Granted opened p.1 p.2) ∧
      ∀ p ∈ opened, p ∈ seen ∨
        List.Forall₂ (Granted opened) (h.items p.1).toList (h.items p.2).toList := by
  fun_induction h.equalAll seen work with
  | case1 seen => exact ⟨seen, fun _ old => old, nofun, fun _ old => .inl old⟩
  | case2 seen a b rest known ih =>
    obtain ⟨opened, kept, granted, closed⟩ := ih answer
    refine ⟨opened, kept, List.forall_mem_cons.2 ⟨?_, granted⟩, closed⟩
    exact known.imp_right (kept (a, b))
  | case3 seen a b rest new sizes ih =>
    obtain ⟨opened, kept, granted, closed⟩ := ih answer
    have opens : (a, b) ∈ opened := kept (a, b) List.mem_cons_self
    refine ⟨opened, fun p old => kept p (List.mem_cons_of_mem _ old), ?_, fun p inside => ?_⟩
    · rw [List.forall_mem_append] at granted
      exact List.forall_mem_cons.2 ⟨.inr opens, granted.2⟩
    · rcases closed p inside with old | items
      · rcases List.mem_cons.1 old with rfl | old
        -- the items of the pair that was opened here are among the work that was done
        · refine .inr (List.forall₂_iff_zip.2 ⟨by simpa using sizes, fun {x y} paired => ?_⟩)
          exact granted (x, y) (List.mem_append_left _ paired)
        · exact .inl old
      · exact .inr items
  | case4 => cases answer
  | case5 seen x y rest other ih =>
    rw [Bool.and_eq_true] at answer
    obtain ⟨opened, kept, granted, closed⟩ := ih answer.2
    refine ⟨opened, kept, List.forall_mem_cons.2 ⟨?_, granted⟩, closed⟩
    cases x <;> cases y
    case array.array a b => exact (other a b rfl rfl).elim
    all_goals exact answer.1

/-- A comparison of pairs that are in a bisimulation finds them all equal. -/
theorem equalAll_of_bisimulation (bisimulation : h.Bisimulation R)
    {seen : List (ArrayRef × ArrayRef)} {work : List (Value × Value)}
    (related : ∀ p ∈ work, R p.1 p.2) : h.equalAll seen work = true := by
  fun_induction h.equalAll seen work with
  | case1 => rfl
  | case2 seen a b rest known ih => exact ih (List.forall_mem_cons.1 related).2
  | case3 seen a b rest new sizes ih =>
    obtain ⟨pair, others⟩ := List.forall_mem_cons.1 related
    apply ih
    rw [List.forall_mem_append]
    refine ⟨fun p paired => ?_, others⟩
    have items := (bisimulation _ _ pair).resolve_left fun same => new (.inl same)
    exact (List.forall₂_iff_zip.1 items).2 paired
  | case4 seen a b rest new sizes =>
    have items := (bisimulation _ _ (related _ List.mem_cons_self)).resolve_left fun same =>
      new (.inl same)
    have lengths := items.length_eq
    simp only [Array.length_toList] at lengths
    exact absurd lengths sizes
  | case5 seen x y rest other ih =>
    obtain ⟨pair, others⟩ := List.forall_mem_cons.1 related
    rw [Bool.and_eq_true]
    refine ⟨?_, ih others⟩
    have found := bisimulation _ _ pair
    cases x <;> cases y
    case array.array a b => exact (other a b rfl rfl).elim
    all_goals exact found

/-! ## Equality -/

/-- Values that are in a bisimulation are equal. -/
theorem equal_of_bisimulation (bisimulation : h.Bisimulation R) {x y : Value} (related : R x y) :
    h.equal x y = true :=
  equalAll_of_bisimulation bisimulation (List.forall_mem_singleton.2 related)

/-- Equality is a bisimulation. -/
theorem bisimulation_equal (h : Heap) : h.Bisimulation fun x y => h.equal x y = true := by
  intro x y equal
  obtain ⟨opened, -, granted, closed⟩ := exists_opened equal
  have bisimulation : h.Bisimulation (Granted opened) := by
    intro x y pair
    cases x <;> cases y
    case array.array a b =>
      refine pair.imp_right fun inside => ?_
      exact (closed (a, b) inside).resolve_left List.not_mem_nil
    all_goals exact pair
  have found := bisimulation x y (granted (x, y) List.mem_cons_self)
  exact found.imp fun _ _ => equal_of_bisimulation bisimulation

theorem equal_symm {x y : Value} (equal : h.equal x y = true) : h.equal y x = true := by
  have flipped : h.Bisimulation fun x y => h.equal y x = true :=
    fun x y found => (h.bisimulation_equal y x found).flip
  exact equal_of_bisimulation flipped equal

theorem equal_trans {x y z : Value} (first : h.equal x y = true) (second : h.equal y z = true) :
    h.equal x z = true := by
  have joined : h.Bisimulation fun x z =>
      h.equal x z = true ∨ ∃ y, h.equal x y = true ∧ h.equal y z = true := by
    rintro x z (equal | ⟨y, first, second⟩)
    · exact (h.bisimulation_equal x z equal).imp fun _ _ => .inl
    · exact (h.bisimulation_equal x y first).comp (h.bisimulation_equal y z second)
  exact equal_of_bisimulation joined (.inr ⟨y, first, second⟩)

/-- Equality of values is the greatest bisimulation. It is symmetric and transitive on every heap. -/
theorem equal_greatest (h : Heap) :
    h.Bisimulation (fun x y => h.equal x y = true) ∧
    (∀ R, h.Bisimulation R → ∀ x y, R x y → h.equal x y = true) ∧
    (∀ x y, h.equal x y = true → h.equal y x = true) ∧
    ∀ x y z, h.equal x y = true → h.equal y z = true → h.equal x z = true :=
  ⟨h.bisimulation_equal, fun _ bisimulation _ _ => equal_of_bisimulation bisimulation,
    fun _ _ => equal_symm, fun _ _ _ => equal_trans⟩

-- two arrays that hold each other, so that no item settles the question
example :
    let h : Heap := { arrays := #[#[.array ⟨1⟩, .array ⟨0⟩], #[.array ⟨0⟩, .array ⟨0⟩]] }
    h.equal (.array ⟨0⟩) (.array ⟨1⟩) = true := by
  cbv

end Heap

end PlotMachine
