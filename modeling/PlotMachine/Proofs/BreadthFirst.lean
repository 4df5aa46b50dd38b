import Mathlib.Data.List.Infix
import Mathlib.Logic.Relation
import Mathlib.Tactic.Tauto

/-!
# Breadth-first order

A walk through a graph takes the first node of a queue, passes over it if it was met before, and
otherwise notes it and puts its successors at the end of the queue (`Discovers`). The order that it
finds can be told without a queue: it is that of the generations of the roots, one after the other,
where of equal nodes the first one counts (`Discovers.exists_generations`). So a node that is nearer
to the roots comes earlier, and those that are equally near come in the order of their predecessors.

The queue is a mixture of two generations at any time. Two ways to regroup the generations make up
for that: a node at the front of the queue may be noted now and its successors moved to the end
(`generations_append`), and a node that was met before may be left out, since the nodes met so far and
the queue already contain its successors (`firsts_generations_append`).
-/

namespace PlotMachine

variable {α : Type}

/-! ## The walk -/

/-- A walk through a queue, past the nodes in `seen`, meets the nodes of `order` one by one. -/
inductive Discovers (next : α → List α) : List α → List α → List α → Prop
  | done {seen} : Discovers next seen [] []
  | again {seen a rest order} (known : a ∈ seen) (others : Discovers next seen rest order) :
      Discovers next seen (a :: rest) order
  | found {seen a rest order} (new : a ∉ seen)
      (others : Discovers next (a :: seen) (rest ++ next a) order) :
      Discovers next seen (a :: rest) (a :: order)

variable {next : α → List α} {seen queue order roots : List α} {a : α}

/-- A walk meets a node once, and none that was seen before. -/
theorem Discovers.nodup (walk : Discovers next seen queue order) :
    order.Nodup ∧ ∀ a ∈ order, a ∉ seen := by
  induction walk with
  | done => exact ⟨.nil, nofun⟩
  | again _ _ ih => exact ih
  | found new _ ih =>
    obtain ⟨once, fresh⟩ := ih
    refine ⟨List.nodup_cons.2 ⟨fun inside => fresh _ inside List.mem_cons_self, once⟩, ?_⟩
    exact List.forall_mem_cons.2
      ⟨new, fun b inside known => fresh b inside (List.mem_cons_of_mem _ known)⟩

/-- A walk meets only what the queue leads to. -/
theorem Discovers.exists_path (walk : Discovers next seen queue order) (met : a ∈ order) :
    ∃ q ∈ queue, Relation.ReflTransGen (fun j k => k ∈ next j) q a := by
  induction walk with
  | done => cases met
  | again _ _ ih =>
    obtain ⟨q, queued, path⟩ := ih met
    exact ⟨q, List.mem_cons_of_mem _ queued, path⟩
  | @found _ b rest _ _ _ ih =>
    rcases List.mem_cons.1 met with rfl | later
    · exact ⟨a, List.mem_cons_self, .refl⟩
    · obtain ⟨q, queued, path⟩ := ih later
      rcases List.mem_append.1 queued with queued | successor
      · exact ⟨q, List.mem_cons_of_mem _ queued, path⟩
      · exact ⟨b, List.mem_cons_self, .head successor path⟩

/-- A walk leaves out nothing: the queue and what follows a node it met was seen before or is met. -/
theorem Discovers.complete (walk : Discovers next seen queue order) :
    (∀ a ∈ queue, a ∈ seen ∨ a ∈ order) ∧
      ∀ a ∈ order, ∀ b ∈ next a, b ∈ seen ∨ b ∈ order := by
  induction walk with
  | done => exact ⟨nofun, nofun⟩
  | again known _ ih => exact ⟨List.forall_mem_cons.2 ⟨.inl known, ih.1⟩, ih.2⟩
  | @found seen b rest order _ _ ih =>
    obtain ⟨queued, successors⟩ := List.forall_mem_append.1 ih.1
    -- the node that is met here moves from the seen ones to the order
    have moved : ∀ a, a ∈ b :: seen ∨ a ∈ order → a ∈ seen ∨ a ∈ b :: order := by
      intro a met
      simp only [List.mem_cons] at met ⊢
      tauto
    exact ⟨List.forall_mem_cons.2 ⟨.inr List.mem_cons_self, fun a inside => moved a (queued a inside)⟩,
      List.forall_mem_cons.2 ⟨fun a inside => moved a (successors a inside),
        fun a inside c later => moved c (ih.2 a inside c later)⟩⟩

/-- A walk from roots with nothing seen before meets exactly what they lead to. -/
theorem Discovers.mem_iff (walk : Discovers next [] roots order) :
    a ∈ order ↔ ∃ r ∈ roots, Relation.ReflTransGen (fun j k => k ∈ next j) r a := by
  constructor
  · exact walk.exists_path
  · rintro ⟨r, start, path⟩
    induction path with
    | refl => exact (walk.complete.1 r start).resolve_left List.not_mem_nil
    | tail _ step ih => exact (walk.complete.2 _ ih _ step).resolve_left List.not_mem_nil

/-! ## Generations -/

/-- The nodes that are a number of steps away from a front, in order. -/
def generation (next : α → List α) : Nat → List α → List α
  | 0, front => front
  | n + 1, front => generation next n (front.flatMap next)

/-- The first generations that start with a front, one after the other. -/
def generations (next : α → List α) : Nat → List α → List α
  | 0, _ => []
  | n + 1, front => front ++ generations next n (front.flatMap next)

/-- Nodes at the front may be told first, and their successors after the rest of the front. -/
theorem generations_append (n : Nat) (as bs : List α) :
    generations next n (as ++ bs) ++ generation next n as =
      as ++ generations next n (bs ++ as.flatMap next) := by
  induction n generalizing as bs with
  | zero => exact (List.append_nil as).symm
  | succ n ih =>
    simp only [generations, generation, List.flatMap_append, List.append_assoc]
    rw [ih]

theorem generations_nil (n : Nat) : generations next n [] = [] := by
  induction n with
  | zero => rfl
  | succ n ih => exact ih

/-! ## First occurrences -/

variable [DecidableEq α]

/-- The first occurrences of the nodes of a list that are not in `seen`. -/
def firsts (seen as : List α) : List α := (as.removeAll seen).eraseDups

variable {seen' as bs : List α}

theorem mem_removeAll : a ∈ as.removeAll bs ↔ a ∈ as ∧ a ∉ bs := by
  simp only [List.removeAll, List.mem_filter, Bool.not_eq_true', List.elem_eq_mem,
    decide_eq_false_iff_not]

/-- Which nodes were seen matters, but not how often and in which order. -/
theorem firsts_congr (same : ∀ a, a ∈ seen ↔ a ∈ seen') : firsts seen as = firsts seen' as := by
  simp only [firsts, List.removeAll, List.elem_eq_mem, same]

/-- What the first part of a list contains is not new in the second. -/
theorem firsts_append : firsts seen (as ++ bs) = firsts seen as ++ firsts (as ++ seen) bs := by
  have apart : (bs.removeAll seen).removeAll (as.removeAll seen) = bs.removeAll (as ++ seen) := by
    simp only [List.removeAll, List.filter_filter]
    refine List.filter_congr fun b _ => ?_
    by_cases known : b ∈ seen <;> simp [known]
  rw [firsts, firsts, firsts, ← apart, ← List.eraseDups_append]
  exact congrArg List.eraseDups (List.filter_append ..)

theorem firsts_of_subset (known : ∀ a ∈ as, a ∈ seen) : firsts seen as = [] := by
  have none : as.removeAll seen = [] :=
    List.eq_nil_iff_forall_not_mem.2 fun a inside =>
      (mem_removeAll.1 inside).2 (known a (mem_removeAll.1 inside).1)
  rw [firsts, none, List.eraseDups_nil]

theorem firsts_cons (new : a ∉ seen) : firsts seen (a :: as) = a :: firsts (a :: seen) as := by
  have single : firsts seen [a] = [a] := by
    rw [firsts, List.cons_removeAll, if_pos (by simpa using new)]
    rfl
  rw [← List.singleton_append, firsts_append, single]
  rfl

theorem firsts_prefix (longer : as <+: bs) : firsts seen as <+: firsts seen bs := by
  obtain ⟨more, rfl⟩ := longer
  exact ⟨_, firsts_append.symm⟩

/-- Nodes met before may be left out of the front, if what follows the nodes met so far was met too
or is at the front itself. -/
theorem firsts_generations_append (n : Nat) (known : ∀ a ∈ as, a ∈ seen)
    (closed : ∀ a ∈ seen, ∀ b ∈ next a, b ∈ seen ∨ b ∈ bs) :
    firsts seen (generations next n (as ++ bs)) = firsts seen (generations next n bs) := by
  induction n generalizing seen as bs with
  | zero => rfl
  | succ n ih =>
    have met : firsts seen (as ++ bs) = firsts seen bs := by
      rw [firsts_append, firsts_of_subset known, List.nil_append]
      exact firsts_congr fun a => by
        rw [List.mem_append]
        exact or_iff_right_of_imp (known a)
    have same : ∀ a, a ∈ (as ++ bs) ++ seen ↔ a ∈ bs ++ seen := fun a => by
      simp only [List.mem_append]
      have := known a
      tauto
    rw [generations, generations, firsts_append, met, firsts_congr same, firsts_append,
      List.flatMap_append]
    -- the front joins the nodes met before, and its successors become the front
    congr 1
    refine ih (fun b later => ?_) (fun a met b later => ?_)
    · obtain ⟨a, inside, later⟩ := List.mem_flatMap.1 later
      exact List.mem_append.2 (closed a (known a inside) b later).symm
    · rcases List.mem_append.1 met with front | old
      · exact .inr (List.mem_flatMap.2 ⟨a, front, later⟩)
      · exact .inl (List.mem_append.2 (closed a old b later).symm)

/-! ## The order of the walk -/

/-- A walk tells the generations of its queue without the nodes seen before, if what follows those
was seen or is in the queue. -/
theorem Discovers.exists_firsts (walk : Discovers next seen queue order)
    (closed : ∀ a ∈ seen, ∀ b ∈ next a, b ∈ seen ∨ b ∈ queue) :
    ∃ n, ∀ m, n ≤ m → firsts seen (generations next m queue) = order := by
  induction walk with
  | @done seen =>
    exact ⟨0, fun m _ => by rw [generations_nil, firsts_of_subset nofun]⟩
  | @again seen a rest order known _ ih =>
    have closed : ∀ x ∈ seen, ∀ b ∈ next x, b ∈ seen ∨ b ∈ rest := fun x old b later =>
      (closed x old b later).elim .inl fun queued =>
        (List.mem_cons.1 queued).elim (fun same => .inl (same ▸ known)) .inr
    obtain ⟨n, told⟩ := ih closed
    exact ⟨n, fun m far =>
      (firsts_generations_append m (List.forall_mem_singleton.2 known) closed).trans (told m far)⟩
  | @found seen a rest order new _ ih =>
    obtain ⟨n, told⟩ := ih fun x old b later => by
      rcases List.mem_cons.1 old with rfl | old
      · exact .inr (List.mem_append_right _ later)
      · rcases closed x old b later with old | queued
        · exact .inl (List.mem_cons_of_mem _ old)
        · rcases List.mem_cons.1 queued with rfl | queued
          · exact .inl List.mem_cons_self
          · exact .inr (List.mem_append_left _ queued)
    have noted : ∀ m, n ≤ m → firsts seen (a :: generations next m (rest ++ next a)) = a :: order :=
      fun m far => by rw [firsts_cons new, told m far]
    refine ⟨n + 1, fun m far => ?_⟩
    obtain ⟨m, rfl⟩ : ∃ k, m = k + 1 := ⟨m - 1, by omega⟩
    have near : n ≤ m := by omega
    -- the generations of the queue lie between two that have the same first occurrences
    have above : generations next (m + 1) (a :: rest) <+:
        a :: generations next (m + 1) (rest ++ next a) := by
      have moved : generations next (m + 1) (a :: rest) ++ generation next (m + 1) [a] =
          a :: generations next (m + 1) (rest ++ ([a] : List α).flatMap next) :=
        generations_append (m + 1) [a] rest
      rw [List.flatMap_singleton] at moved
      exact ⟨_, moved⟩
    have below : a :: generations next m (rest ++ next a) <+:
        generations next (m + 1) (a :: rest) := by
      have moved : generations next m (rest ++ next a) ++ generation next m rest =
          rest ++ generations next m (next a ++ rest.flatMap next) := generations_append m rest (next a)
      rw [generations, List.flatMap_cons, List.cons_append, ← moved]
      exact ⟨_, rfl⟩
    refine antisymm (r := List.IsPrefix) ?_ ?_
    · rw [← noted (m + 1) (by omega)]
      exact firsts_prefix above
    · rw [← noted m near]
      exact firsts_prefix below

/-- A walk from roots with nothing seen before tells their generations, each node once. -/
theorem Discovers.exists_generations (walk : Discovers next [] roots order) :
    ∃ n, ∀ m, n ≤ m → (generations next m roots).eraseDups = order := by
  obtain ⟨n, told⟩ := walk.exists_firsts nofun
  refine ⟨n, fun m far => ?_⟩
  have all : ∀ as : List α, as.removeAll [] = as := fun as => by
    simp [List.removeAll]
  rw [← told m far, firsts, all]

end PlotMachine
