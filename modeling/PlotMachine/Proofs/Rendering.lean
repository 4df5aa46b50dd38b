import Mathlib.Data.List.Forall2
import Mathlib.Logic.Relation
import PlotMachine.Value.Text

/-!
# Texts of arrays that contain each other

The text of an array is the text of a tree (`Rendering`): an array is unfolded to its items, or cut
off as `[...]`. The tree that is printed is the one in which an array is cut off exactly where it
encloses itself (`Rendering.Exact`), however the arrays share their items. Where no array contains
itself, at any depth, nothing is cut off.

A printer that goes along keeps one set of open arrays for the whole text: it adds an array when it
opens it and takes it out when it closes it (`Store.Displays`). It comes to an end, and the set is
then what it was before, so at every array the set holds the arrays around it and no others.
-/

namespace PlotMachine

/-! ## Renderings -/

/-- How the text of a value is made up. -/
inductive Rendering where
  | plain (v : Value)
  | again (a : ArrayRef)
  | full (a : ArrayRef) (items : List Rendering)

namespace Rendering

/-- The value that is rendered. -/
def value : Rendering → Value
  | plain v => v
  | again a => .array a
  | full a _ => .array a

/-- The text of a rendering. -/
def text (s : Store) (h : Heap) : Rendering → String
  | plain v => s.plainText h v
  | again _ => "[...]"
  | full _ items => "[" ++ ", ".intercalate (items.map (text s h ·)) ++ "]"

/-- A part of a rendering lies within certain arrays, the innermost first. -/
inductive Occurs (r : Rendering) : List ArrayRef → Rendering → Prop
  | here : Occurs r [] r
  | item {enclosing a items u} (outer : Occurs r enclosing (full a items)) (inside : u ∈ items) :
      Occurs r (a :: enclosing) u

/-- A rendering shows a value as it is in a heap: arrays that are not cut off have their items. -/
structure IsOf (h : Heap) (v : Value) (r : Rendering) : Prop where
  value_eq : r.value = v
  plain : ∀ enclosing w, r.Occurs enclosing (plain w) → ∀ a, w ≠ .array a
  items : ∀ enclosing a items, r.Occurs enclosing (full a items) →
    items.map value = (h.items a).toList

/-- An array is cut off where it is within itself or within `inside`, and nowhere else. -/
def ExactIn (inside : List ArrayRef) (r : Rendering) : Prop :=
  ∀ enclosing u a, r.Occurs enclosing u → u.value = .array a →
    (u = again a ↔ a ∈ enclosing ++ inside)

/-- An array is cut off exactly where it is within itself. -/
def Exact (r : Rendering) : Prop :=
  ∀ enclosing u a, r.Occurs enclosing u → u.value = .array a → (u = again a ↔ a ∈ enclosing)

/-- No array is cut off. -/
def Unfolded (r : Rendering) : Prop := ∀ enclosing a, ¬ r.Occurs enclosing (again a)

variable {r u : Rendering} {items : List Rendering} {enclosing inside : List ArrayRef} {a : ArrayRef}
  {h : Heap} {v : Value}

/-! ## Parts of renderings -/

/-- What lies within an item lies within the array. -/
theorem Occurs.within (part : r.Occurs enclosing u) (inside : r ∈ items) :
    (full a items).Occurs (enclosing ++ [a]) u := by
  induction part with
  | here => exact .item .here inside
  | item _ deeper ih => exact .item ih deeper

/-- What lies within an array is the array or lies within one of its items. -/
theorem occurs_full (part : (full a items).Occurs enclosing u) :
    (enclosing = [] ∧ u = full a items) ∨
      ∃ r ∈ items, ∃ closer, enclosing = closer ++ [a] ∧ r.Occurs closer u := by
  induction part with
  | here => exact .inl ⟨rfl, rfl⟩
  | @item _ b _ u _ deeper ih =>
    rcases ih with ⟨rfl, same⟩ | ⟨r, inside, closer, rfl, part⟩
    · cases same
      exact .inr ⟨u, deeper, [], rfl, .here⟩
    · exact .inr ⟨r, inside, b :: closer, rfl, .item part deeper⟩

/-- Nothing lies within a plain value or an array that is cut off. -/
theorem occurs_leaf (leaf : ∀ a items, r ≠ full a items) (part : r.Occurs enclosing u) :
    enclosing = [] ∧ u = r := by
  induction part with
  | here => exact ⟨rfl, rfl⟩
  | item _ _ ih => exact (leaf _ _ ih.2.symm).elim

theorem occurs_plain (part : (plain v).Occurs enclosing u) : enclosing = [] ∧ u = plain v :=
  occurs_leaf (fun _ _ same => by cases same) part

theorem occurs_again (part : (again a).Occurs enclosing u) : enclosing = [] ∧ u = again a :=
  occurs_leaf (fun _ _ same => by cases same) part

theorem exactIn_nil : r.ExactIn [] ↔ r.Exact := by
  simp only [ExactIn, Exact, List.append_nil]

/-- The items of an array in full are rendered as it is, with one more array around them. -/
theorem IsOf.item (whole : (full a items).IsOf h v) (inside : r ∈ items) : r.IsOf h r.value :=
  ⟨rfl, fun _ w part => whole.plain _ w (part.within inside),
    fun _ b items part => whole.items _ b items (part.within inside)⟩

theorem ExactIn.item (exact : (full a items).ExactIn inside) (member : r ∈ items) :
    r.ExactIn (a :: inside) := fun enclosing u b part array => by
  rw [exact _ u b (part.within member) array, List.append_assoc, List.singleton_append]

theorem isOf_plain (plain : ∀ a, v ≠ .array a) : (Rendering.plain v).IsOf h v := by
  refine ⟨rfl, fun _ w part => ?_, fun _ _ _ part => ?_⟩
  · cases (occurs_plain part).2
    exact plain
  · cases (occurs_plain part).2

theorem isOf_again : (again a).IsOf h (.array a) := by
  refine ⟨rfl, fun _ w part => ?_, fun _ _ _ part => ?_⟩
  · cases (occurs_again part).2
  · cases (occurs_again part).2

theorem isOf_full (parts : ∀ r ∈ items, r.IsOf h r.value)
    (whole : items.map value = (h.items a).toList) : (full a items).IsOf h (.array a) := by
  refine ⟨rfl, fun enclosing w part => ?_, fun enclosing b others part => ?_⟩
  · rcases occurs_full part with ⟨_, same⟩ | ⟨r, inside, closer, _, part⟩
    · cases same
    · exact (parts r inside).plain closer w part
  · rcases occurs_full part with ⟨_, same⟩ | ⟨r, inside, closer, _, part⟩
    · cases same
      exact whole
    · exact (parts r inside).items closer b others part

theorem exactIn_plain (plain : ∀ a, v ≠ .array a) : (Rendering.plain v).ExactIn inside := by
  intro _ u a part array
  obtain ⟨_, rfl⟩ := occurs_plain part
  exact (plain a array).elim

theorem exactIn_again (known : a ∈ inside) : (again a).ExactIn inside := by
  intro _ u b part array
  obtain ⟨rfl, rfl⟩ := occurs_again part
  cases array
  exact iff_of_true rfl known

theorem exactIn_full (parts : ∀ r ∈ items, r.ExactIn (a :: inside)) (new : a ∉ inside) :
    (full a items).ExactIn inside := by
  intro enclosing u b part array
  rcases occurs_full part with ⟨rfl, rfl⟩ | ⟨r, member, closer, rfl, deeper⟩
  · cases array
    exact iff_of_false nofun new
  · rw [parts r member closer u b deeper array, List.append_assoc, List.singleton_append]

end Rendering

/-! ## The rendering that is printed -/

namespace Heap

/-- The rendering of a value inside the arrays `inside`. -/
def rendering (h : Heap) (inside : List ArrayRef) : Value → Rendering
  | .array a =>
    if a ∈ inside then .again a
    else if a.index < h.arrays.size then
      .full a ((h.items a).toList.map (h.rendering (a :: inside) ·))
    else .full a []
  | v => .plain v
termination_by unvisited h.arrayRefs inside
decreasing_by exact unvisited_cons_lt (mem_arrayRefs.2 ‹_›) ‹a ∉ inside›

variable {h : Heap} {inside : List ArrayRef} {a : ArrayRef} {v : Value}

theorem rendering_again (known : a ∈ inside) : h.rendering inside (.array a) = .again a := by
  rw [rendering, if_pos known]

/-- An array that is not open is rendered in full; one that is not of the heap has no items. -/
theorem rendering_full (new : a ∉ inside) : h.rendering inside (.array a) =
    .full a ((h.items a).toList.map (h.rendering (a :: inside))) := by
  rw [rendering, if_neg new]
  split
  · rfl
  · next out =>
    rw [items_eq_empty fun known => out (mem_arrayRefs.1 known)]
    rfl

theorem rendering_plain (plain : ∀ a, v ≠ .array a) : h.rendering inside v = .plain v := by
  rw [rendering]
  exact plain

/-- What holds of plain values and open arrays, and of an array if it holds of its items inside of it,
holds of every value: fewer arrays of the heap are left to open each time. -/
theorem walk_induction {motive : List ArrayRef → Value → Prop}
    (plain : ∀ inside v, (∀ a, v ≠ .array a) → motive inside v)
    (again : ∀ inside a, a ∈ inside → motive inside (.array a))
    (full : ∀ inside a, a ∉ inside → (∀ w ∈ (h.items a).toList, motive (a :: inside) w) →
      motive inside (.array a))
    (inside : List ArrayRef) (v : Value) : motive inside v := by
  fun_induction h.rendering inside v with
  | case1 inside a known => exact again inside a known
  | case2 inside a new _ ih => exact full inside a new fun w _ => ih w
  | case3 inside a new out =>
    refine full inside a new fun w member => ?_
    rw [items_eq_empty fun known => out (mem_arrayRefs.1 known)] at member
    cases member
  | case4 inside v other => exact plain inside v other

theorem value_rendering (inside : List ArrayRef) (v : Value) : (h.rendering inside v).value = v := by
  induction inside, v using h.walk_induction with
  | plain inside v plain =>
    rw [rendering_plain plain]
    rfl
  | again inside a known =>
    rw [rendering_again known]
    rfl
  | full inside a new =>
    rw [rendering_full new]
    rfl

/-- The rendering of a value shows it as it is, and cuts off the arrays that are open. -/
theorem rendering_spec (inside : List ArrayRef) (v : Value) :
    (h.rendering inside v).IsOf h v ∧ (h.rendering inside v).ExactIn inside := by
  induction inside, v using h.walk_induction with
  | plain inside v plain =>
    rw [rendering_plain plain]
    exact ⟨Rendering.isOf_plain plain, Rendering.exactIn_plain plain⟩
  | again inside a known =>
    rw [rendering_again known]
    exact ⟨Rendering.isOf_again, Rendering.exactIn_again known⟩
  | full inside a new ih =>
    rw [rendering_full new]
    have parts : ∀ r ∈ (h.items a).toList.map (h.rendering (a :: inside)),
        r.IsOf h r.value ∧ r.ExactIn (a :: inside) := by
      intro r member
      obtain ⟨w, item, rfl⟩ := List.mem_map.1 member
      rw [value_rendering]
      exact ih w item
    have whole : ((h.items a).toList.map (h.rendering (a :: inside))).map Rendering.value =
        (h.items a).toList := by
      rw [List.map_map]
      exact List.map_id'' (value_rendering (a :: inside)) _
    exact ⟨Rendering.isOf_full (fun r member => (parts r member).1) whole,
      Rendering.exactIn_full (fun r member => (parts r member).2) new⟩

/-- There is no other such rendering. -/
theorem eq_rendering {r : Rendering} (shows : r.IsOf h v) (exact_ : r.ExactIn inside) :
    r = h.rendering inside v := by
  induction inside, v using h.walk_induction generalizing r with
  | plain inside v plain =>
    rw [rendering_plain plain]
    cases r with
    | plain w => exact congrArg Rendering.plain shows.value_eq
    | again a => exact (plain a shows.value_eq.symm).elim
    | full a items => exact (plain a shows.value_eq.symm).elim
  | again inside a known =>
    rw [rendering_again known]
    exact (exact_ [] r a .here shows.value_eq).2 known
  | full inside a new ih =>
    rw [rendering_full new]
    cases r with
    | plain w => exact (shows.plain [] w .here a shows.value_eq).elim
    | again b =>
      cases shows.value_eq
      exact (new ((exact_ [] _ a .here rfl).1 rfl)).elim
    | full b items =>
      cases shows.value_eq
      have whole := shows.items [] a items .here
      have each : ∀ r ∈ items, r = h.rendering (a :: inside) r.value := fun r member =>
        ih r.value (whole ▸ List.mem_map_of_mem member) (shows.item member) (exact_.item member)
      rw [← whole, List.map_map]
      exact congrArg _ ((List.map_id _).symm.trans (List.map_congr_left each))

end Heap

namespace Store

variable {s : Store} {h : Heap} {inside : List ArrayRef} {a : ArrayRef} {v : Value}

theorem textInside_plain (plain : ∀ a, v ≠ .array a) : s.textInside h inside v = s.plainText h v := by
  rw [textInside]
  exact plain

theorem textInside_again (known : a ∈ inside) : s.textInside h inside (.array a) = "[...]" := by
  rw [textInside, if_pos known]

theorem textInside_full (new : a ∉ inside) : s.textInside h inside (.array a) =
    "[" ++ ", ".intercalate ((h.items a).toList.map (s.textInside h (a :: inside))) ++ "]" := by
  rw [textInside, if_neg new]
  split
  · rfl
  · next out =>
    rw [Heap.items_eq_empty fun known => out (Heap.mem_arrayRefs.1 known)]
    rfl

/-- The text of a value is that of its rendering. -/
theorem textInside_eq (inside : List ArrayRef) (v : Value) :
    s.textInside h inside v = (h.rendering inside v).text s h := by
  induction inside, v using h.walk_induction with
  | plain inside v plain => rw [Heap.rendering_plain plain, Rendering.text, textInside_plain plain]
  | again inside a known => rw [Heap.rendering_again known, Rendering.text, textInside_again known]
  | full inside a new ih =>
    have items : (h.items a).toList.map (s.textInside h (a :: inside)) =
        ((h.items a).toList.map (h.rendering (a :: inside))).map (Rendering.text s h) := by
      rw [List.map_map]
      exact List.map_congr_left ih
    rw [Heap.rendering_full new, Rendering.text, ← items, textInside_full new]

/-! ## The set of open arrays -/

/-- Values are printed one after the other. The set of open arrays is carried along: an array is added
before its items are printed and taken out behind them. -/
inductive Displays (s : Store) (h : Heap) :
    List ArrayRef → List Value → List String → List ArrayRef → Prop
  | done {opened} : Displays s h opened [] [] opened
  | plain {opened v vs texts after} (plain : ∀ a, v ≠ .array a)
      (others : Displays s h opened vs texts after) :
      Displays s h opened (v :: vs) (s.plainText h v :: texts) after
  | again {opened a vs texts after} (known : a ∈ opened)
      (others : Displays s h opened vs texts after) :
      Displays s h opened (.array a :: vs) ("[...]" :: texts) after
  | full {opened a items closing vs texts after} (new : a ∉ opened)
      (inner : Displays s h (a :: opened) (h.items a).toList items closing)
      (others : Displays s h (closing.erase a) vs texts after) :
      Displays s h opened (.array a :: vs) (("[" ++ ", ".intercalate items ++ "]") :: texts) after

variable {opened after : List ArrayRef} {vs : List Value} {texts : List String}

/-- A printer leaves the set of open arrays as it was, and what it prints is the text inside them. -/
theorem Displays.eq (prints : s.Displays h opened vs texts after) :
    texts = vs.map (s.textInside h opened) ∧ after = opened := by
  induction prints with
  | done => exact ⟨rfl, rfl⟩
  | plain plain _ ih =>
    obtain ⟨rfl, rfl⟩ := ih
    exact ⟨by rw [List.map_cons, textInside_plain plain], rfl⟩
  | again known _ ih =>
    obtain ⟨rfl, rfl⟩ := ih
    exact ⟨by rw [List.map_cons, textInside_again known], rfl⟩
  | full new _ _ inner others =>
    obtain ⟨rfl, rfl⟩ := inner
    rw [List.erase_cons_head] at others
    obtain ⟨rfl, rfl⟩ := others
    exact ⟨by rw [List.map_cons, textInside_full new], rfl⟩

/-- A printer comes to an end: it prints a value in front of what it prints anyway. -/
theorem Displays.cons (opened : List ArrayRef) (v : Value) (vs : List Value) (texts : List String)
    (after : List ArrayRef) (others : s.Displays h opened vs texts after) :
    s.Displays h opened (v :: vs) (s.textInside h opened v :: texts) after := by
  induction opened, v using h.walk_induction generalizing vs texts after with
  | plain opened v plain =>
    rw [textInside_plain plain]
    exact .plain plain others
  | again opened a known =>
    rw [textInside_again known]
    exact .again known others
  | full opened a new ih =>
    have inner : ∀ ws, (∀ w ∈ ws, w ∈ (h.items a).toList) →
        s.Displays h (a :: opened) ws (ws.map (s.textInside h (a :: opened))) (a :: opened) := by
      intro ws members
      induction ws with
      | nil => exact .done
      | cons w ws rest =>
        obtain ⟨here, later⟩ := List.forall_mem_cons.1 members
        exact ih w here ws _ _ (rest later)
    rw [textInside_full new]
    exact .full new (inner _ fun _ member => member) (by rwa [List.erase_cons_head])

end Store

/-! ## Heaps without cycles -/

namespace Heap

/-- No array contains itself, at any depth. -/
def Acyclic (h : Heap) : Prop :=
  ∀ a, ¬ Relation.TransGen (fun a b => .array b ∈ (h.items a).toList) a a

end Heap

namespace Rendering

variable {h : Heap} {v : Value} {r u : Rendering} {enclosing : List ArrayRef} {b : ArrayRef}

/-- An array contains, at some depth, the arrays that are rendered within it. -/
theorem IsOf.contains (shows : r.IsOf h v) (part : r.Occurs enclosing u)
    (array : u.value = .array b) : ∀ a ∈ enclosing,
      Relation.TransGen (fun a b => .array b ∈ (h.items a).toList) a b := by
  induction part generalizing b with
  | here => exact nofun
  | @item enclosing c items u outer member ih =>
    have contained : .array b ∈ (h.items c).toList := by
      rw [← shows.items _ c items outer, ← array]
      exact List.mem_map_of_mem member
    exact List.forall_mem_cons.2 ⟨.single contained, fun a around => (ih rfl a around).tail contained⟩

/-- Where no array contains itself, nothing is cut off in an exact rendering and in no other. -/
theorem IsOf.exact_iff_unfolded (shows : r.IsOf h v) (acyclic : h.Acyclic) :
    r.Exact ↔ r.Unfolded := by
  have apart : ∀ enclosing u a, r.Occurs enclosing u → u.value = .array a → a ∉ enclosing :=
    fun enclosing u a part array around => acyclic a (shows.contains part array a around)
  constructor
  · intro exact_ enclosing a part
    exact apart enclosing _ a part rfl ((exact_ enclosing _ a part rfl).1 rfl)
  · intro unfolded enclosing u a part array
    exact iff_of_false (fun same => unfolded enclosing a (same ▸ part)) (apart enclosing u a part array)

end Rendering

namespace Store

/-- Printing a value comes to an end with no array left open. Its text is that of the one rendering in
which an array is cut off exactly where it encloses itself. Where no array contains itself, that is
the one in which all arrays are unfolded. -/
theorem text_exact (s : Store) (h : Heap) (v : Value) :
    (∀ texts after, s.Displays h [] [v] texts after ↔ texts = [s.text h v] ∧ after = []) ∧
    (∃! r : Rendering, r.IsOf h v ∧ r.Exact) ∧
    (∀ r : Rendering, r.IsOf h v → r.Exact → s.text h v = r.text s h) ∧
    (h.Acyclic → (∃! r : Rendering, r.IsOf h v ∧ r.Unfolded) ∧
      ∀ r : Rendering, r.IsOf h v → r.Unfolded → s.text h v = r.text s h) := by
  have unique : ∀ r : Rendering, r.IsOf h v → r.Exact → r = h.rendering [] v :=
    fun r shows exact_ => h.eq_rendering shows (Rendering.exactIn_nil.2 exact_)
  have shown : ∀ r : Rendering, r.IsOf h v → r.Exact → s.text h v = r.text s h :=
    fun r shows exact_ => unique r shows exact_ ▸ textInside_eq [] v
  obtain ⟨shows, exact_⟩ := h.rendering_spec [] v
  have exact_ := Rendering.exactIn_nil.1 exact_
  refine ⟨fun texts after => ⟨fun prints => prints.eq, ?_⟩,
    ⟨_, ⟨shows, exact_⟩, fun r ⟨shows, exact_⟩ => unique r shows exact_⟩, shown, fun acyclic => ?_⟩
  · rintro ⟨rfl, rfl⟩
    exact .cons [] v [] [] [] .done
  · have same := fun (r : Rendering) (shows : r.IsOf h v) => shows.exact_iff_unfolded acyclic
    exact ⟨⟨_, ⟨shows, (same _ shows).1 exact_⟩,
        fun r ⟨shows, unfolded⟩ => unique r shows ((same r shows).2 unfolded)⟩,
      fun r shows unfolded => shown r shows ((same r shows).2 unfolded)⟩

/-- An array that contains another one twice. -/
def paired : Heap where
  arrays := #[#[.array ⟨1⟩, .array ⟨1⟩], #[.nil]]

theorem text_exact_paired : paired.Acyclic ∧
    ∃ r : Rendering, r.IsOf paired (.array ⟨0⟩) ∧ r.Unfolded ∧ r.text {} paired = "[[nil], [nil]]" := by
  have ascends : ∀ a b, .array b ∈ (paired.items a).toList → a.index < b.index := by
    rintro ⟨_ | _ | a⟩ b inside
    all_goals simp [paired, Heap.items] at inside
    exact inside ▸ Nat.zero_lt_one
  have acyclic : paired.Acyclic := fun a loop => by
    have less : ∀ b, Relation.TransGen (fun a b => .array b ∈ (paired.items a).toList) a b →
        a.index < b.index := fun b path => by
      induction path with
      | single step => exact ascends _ _ step
      | tail _ step ih => exact Nat.lt_trans ih (ascends _ _ step)
    exact Nat.lt_irrefl _ (less a loop)
  obtain ⟨⟨r, ⟨shows, unfolded⟩, -⟩, printed⟩ :=
    (text_exact {} paired (.array ⟨0⟩)).2.2.2 acyclic
  exact ⟨acyclic, r, shows, unfolded, (printed r shows unfolded).symm.trans (by cbv)⟩

-- an array that contains itself between two occurrences of another one
example : text {} { arrays := #[#[.array ⟨1⟩, .array ⟨0⟩, .array ⟨1⟩], #[.nil]] } (.array ⟨0⟩) =
    "[[nil], [...], [nil]]" := by cbv

end Store

end PlotMachine
