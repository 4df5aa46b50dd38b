import PlotMachine.Proofs.ResolverTable

/-!
# What the resolver makes

The invariant of the table is carried through the recursion by `ImageFile.Honest`: whoever is asked for
an item answers what is then in the table for it. A lambda that is under way owns a program that no
entry has, to which its instructions are appended one by one (`ImageFile.Writing`).

`ImageFile.Built` sums up what that means for an image. Since an entry goes back to a tree of
references, there is an image only of files that are linked (`ImageFile.exists_resolveAll_iff`).
-/

namespace PlotMachine

namespace ImageFile

variable {f : ImageFile} {r : Registry} {path : List FileItem} {t₀ t t' : Resolver f}
  {refer : (item : FileItem) → Resolving f item.Ref} {home : ProgramRef}

/-- Whoever is asked for an item of a file answers what the table then has for it. -/
def Honest (r : Registry) (path : List FileItem)
    (refer : (item : FileItem) → Resolving f item.Ref) : Prop :=
  ∀ item t ref t', t.Sound r → refer item t = .ok (ref, t') →
    t'.Sound r ∧ t.Grows path t' ∧ t'.made? item = some ref

/-! ## Making instructions -/

/-- Taking a number changes nothing that the table has. -/
theorem of_takeNumber {id : Nat} (ok : Resolving.takeNumber t = .ok (id, t')) (sound : t.Sound r) :
    t'.Sound r ∧ t.Grows path t' ∧ t'.made? = t.made? := by
  cases ok
  exact ⟨⟨⟨sound.holds, sound.distinct⟩, sound.founded⟩,
    ⟨.refl _, fun _ _ made => made, fun _ _ _ made _ => .inl made, fun _ _ => rfl⟩, rfl⟩

/-- An instruction is made of what is then in the table. -/
theorem makes_of_link (honest : Honest r path refer) {o : Operand} {i : Instr} (sound : t.Sound r)
    (ok : o.link refer home t = .ok (i, t')) :
    t'.Sound r ∧ t.Grows path t' ∧ o.Makes t'.made? home i := by
  cases o with
  | plain i =>
    cases ok
    exact ⟨sound, .refl, .plain i⟩
  | target make offset =>
    cases ok
    exact ⟨sound, .refl, .target make offset⟩
  | nativeValue make fn =>
    obtain ⟨id, t₁, took, made⟩ := Resolving.bind_eq_ok.1 ok
    cases made
    obtain ⟨sound', grows, -⟩ := of_takeNumber took sound
    exact ⟨sound', grows, .nativeValue make fn id⟩
  | lambdaValue make n =>
    obtain ⟨l, t₁, asked, made⟩ := Resolving.bind_eq_ok.1 ok
    cases made
    obtain ⟨sound', grows, there⟩ := honest _ t l _ sound asked
    exact ⟨sound', grows, .lambdaValue make there⟩
  | functionValue make n =>
    obtain ⟨l, t₁, asked, rest⟩ := Resolving.bind_eq_ok.1 ok
    obtain ⟨id, t₂, took, made⟩ := Resolving.bind_eq_ok.1 rest
    cases made
    obtain ⟨sound₁, grows₁, there⟩ := honest _ t l _ sound asked
    obtain ⟨sound', grows', same⟩ := of_takeNumber took sound₁
    exact ⟨sound', grows₁.trans sound₁ grows', .functionValue make id (same ▸ there)⟩
  | lambda make n =>
    obtain ⟨l, t₁, asked, made⟩ := Resolving.bind_eq_ok.1 ok
    cases made
    obtain ⟨sound', grows, there⟩ := honest _ t l _ sound asked
    exact ⟨sound', grows, .lambda make there⟩
  | record make n =>
    obtain ⟨q, t₁, asked, made⟩ := Resolving.bind_eq_ok.1 ok
    cases made
    obtain ⟨sound', grows, there⟩ := honest _ t q _ sound asked
    exact ⟨sound', grows, .record make there⟩

/-- An instruction is decoded, made and appended. -/
theorem exists_of_makeInstr {d : InstrDef} (ok : makeInstr r refer home d t = .ok ((), t')) :
    ∃ o i t₁, d.decode r = .ok o ∧ o.link refer home t = .ok (i, t₁) ∧
      Resolving.encode home i t₁ = .ok ((), t') := by
  cases decoded : d.decode r with
  | error e =>
    rw [makeInstr, decoded] at ok
    cases ok
  | ok o =>
    rw [makeInstr, decoded] at ok
    obtain ⟨i, t₁, linked, appended⟩ := Resolving.bind_eq_ok.1 ok
    exact ⟨o, i, t₁, rfl, linked, appended⟩

/-! ## Making lambdas and record types -/

/-- A lambda is under way: its program was added to `t₀` and has the first instructions by now, and
nothing in the table has this program. -/
structure Writing (r : Registry) (path : List FileItem) (t₀ : Resolver f) (home : ProgramRef)
    (defs : List InstrDef) (t : Resolver f) : Prop where
  sound : t.Sound r
  grows : t₀.Grows path t
  apart : ∀ item ref, t.made? item = some ref → ¬ t.store.Takes item ref (.program home)
  encoded : ∃ code, t.store.programs[home.index]? = some (some code) ∧
    Encoded r t.made? home defs code

/-- A lambda begins with a program without instructions. -/
theorem writing_of_newProgram (ok : Resolving.newProgram t₀ = .ok (home, t)) (sound : t₀.Sound r) :
    home.index = t₀.store.programs.size ∧ Writing r path t₀ home [] t := by
  cases ok
  have grown := t₀.store.extends_addProgram #[]
  refine ⟨rfl, sound.extends grown, .withStore grown, ?_, #[], Array.getElem?_push_size, .nil⟩
  intro item ref made takes
  obtain ⟨d, -, holds⟩ := sound.holds item ref made
  exact holds.not_isNew (holds.takes_of_kept grown.lambdas takes) (Nat.le_refl _)

/-- Nothing that is made meanwhile has the program of a lambda that is under way. -/
theorem Writing.apart_of_grows {defs : List InstrDef} (writing : Writing r path t₀ home defs t)
    (grows : t.Grows path t') (item : FileItem) (ref : item.Ref) (made : t'.made? item = some ref) :
    ¬ t'.store.Takes item ref (.program home) := by
  intro takes
  rcases grows.fresh item ref _ made takes with before | new
  · obtain ⟨_, -, holds⟩ := writing.sound.holds item ref before
    exact writing.apart item ref before (holds.takes_of_kept grows.store.lambdas takes)
  · obtain ⟨code, there, -⟩ := writing.encoded
    exact Nat.not_le_of_lt (Array.getElem?_eq_some_iff.1 there).1 new

/-- One more instruction is made and appended. -/
theorem Writing.step (honest : Honest r path refer) (owned : home.index = t₀.store.programs.size)
    {defs : List InstrDef} {d : InstrDef} (writing : Writing r path t₀ home defs t)
    (ok : makeInstr r refer home d t = .ok ((), t')) : Writing r path t₀ home (defs ++ [d]) t' := by
  obtain ⟨o, i, t₁, decoded, linked, appended⟩ := exists_of_makeInstr ok
  obtain ⟨sound, grows, makes⟩ := makes_of_link honest writing.sound linked
  obtain ⟨code, there, encoded⟩ := writing.encoded
  have apart := writing.apart_of_grows grows
  cases appended
  exact
    { sound := sound.extend apart #[i]
      grows := (writing.grows.trans writing.sound grows).extend (Nat.le_of_eq owned.symm) #[i]
      apart := apart
      encoded := ⟨code ++ #[i],
        Store.getElem?_extend_self (grows.store.programs _ _ there) #[i],
        (encoded.mono grows.kept).push decoded makes⟩ }

/-- Steps over a list lead from an invariant of what was done to the invariant for all of it, if each
step does. -/
theorem forM_induction {α : Type} {g : α → Resolving f Unit} {I : List α → Resolver f → Prop}
    (step : ∀ done x t t', I done t → g x t = .ok ((), t') → I (done ++ [x]) t') {done xs : List α}
    (start : I done t) (ok : xs.forM g t = .ok ((), t')) : I (done ++ xs) t' := by
  induction xs generalizing done t with
  | nil =>
    cases ok
    rwa [List.append_nil]
  | cons x rest ih =>
    obtain ⟨⟨⟩, t₁, first, others⟩ := Resolving.bind_eq_ok.1 ok
    have all := ih (step done x t t₁ start first) others
    rwa [List.append_assoc] at all

/-- A lambda of a file is made. -/
theorem makes_of_makeLambda (honest : Honest r path refer) (sound : t.Sound r) {n : Nat}
    {d : LambdaDef} {l : LambdaRef} (ok : makeLambda r refer n d t = .ok (l, t')) :
    t.Makes r path (.lambda n) d l t' := by
  obtain ⟨home, t₁, begun, rest⟩ := Resolving.bind_eq_ok.1 ok
  obtain ⟨⟨⟩, t₂, coded, added⟩ := Resolving.bind_eq_ok.1 rest
  obtain ⟨owned, start⟩ : home.index = t.store.programs.size ∧ Writing r path t home [] t₁ :=
    writing_of_newProgram begun sound
  have step : ∀ done x (t₁ t₂ : Resolver f), Writing r path t home (done.map Prod.fst) t₁ →
      (makeInstr r refer home x.1).within (.instruction (d.name.getD s!"#{n}") x.2 x.1.op) t₁ =
        .ok ((), t₂) → Writing r path t home ((done ++ [x]).map Prod.fst) t₂ := by
    intro done x t₁ t₂ writing made
    rw [List.map_append]
    exact writing.step honest owned (Resolving.within_eq_ok.1 made)
  have none_done : Writing r path t home (([] : List (InstrDef × Nat)).map Prod.fst) t₁ := start
  have written := forM_induction step none_done coded
  rw [List.nil_append, List.zipIdx_map_fst] at written
  obtain ⟨code, there, encoded⟩ := written.encoded
  cases added
  have grown := t₂.store.extends_addLambda (lambdaOf home d)
  have found : (t₂.store.addLambda (lambdaOf home d)).2.lambdas[t₂.store.lambdas.size]? =
      some (lambdaOf home d) := Array.getElem?_push_size
  refine ⟨written.sound.extends grown, written.grows.trans written.sound (.withStore grown),
    ⟨home, code, found, there, encoded⟩, fun place takes => ?_,
    fun item' ref' place made takes' takes => ?_⟩
  · cases takes.eq_program found
    exact Nat.le_of_eq owned.symm
  · cases takes.eq_program found
    obtain ⟨_, -, holds⟩ := written.sound.holds item' ref' made
    exact written.apart item' ref' made (holds.takes_of_kept grown.lambdas takes')

/-- A record type of a file is made. -/
theorem makes_of_makeRecord (honest : Honest r path refer) (sound : t.Sound r) {n : Nat}
    {d : RecordDef} {q : RecordRef} (ok : makeRecord refer n d t = .ok (q, t')) :
    t.Makes r path (.record n) d q t' := by
  obtain ⟨init, t₁, asked, added⟩ := Resolving.bind_eq_ok.1 ok
  obtain ⟨sound₁, grows, there⟩ := honest _ t init t₁ sound (Resolving.within_eq_ok.1 asked)
  cases added
  have grown := t₁.store.extends_addRecord (recordOf init d)
  refine ⟨sound₁.extends grown, grows.trans sound₁ (.withStore grown),
    ⟨init, there, Array.getElem?_push_size⟩, fun place takes => ?_,
    fun item' ref' place made takes' takes => ?_⟩
  · cases takes.eq_record
    exact grows.store.records_size_le
  · cases takes.eq_record
    obtain ⟨_, -, holds⟩ := sound₁.holds item' ref' made
    exact holds.not_isNew (holds.takes_of_kept grown.lambdas takes') (Nat.le_refl _)

/-! ## The walk -/

/-- The resolver is honest. -/
theorem honest_resolve (f : ImageFile) (r : Registry) (path : List FileItem) :
    Honest r path (f.resolve r path) := by
  -- on what is not on the path yet
  generalize count : unvisited f.items path = n
  induction n using Nat.strong_induction_on generalizing path with
  | _ n ih =>
    subst count
    intro item t ref t' sound ok
    obtain ⟨d, found, ⟨made, rfl⟩ | ⟨new, off, t₁, made, rfl⟩⟩ := exists_of_resolve ok
    · exact ⟨sound, .refl, made⟩
    have fewer := unvisited_cons_lt (mem_items_of_def? found) off
    have honest := ih _ fewer (item :: path) rfl
    have makes : t.Makes r (item :: path) item d ref t₁ := by
      cases item with
      | lambda m => exact makes_of_makeLambda honest sound made
      | record m => exact makes_of_makeRecord honest sound made
    exact ⟨makes.sound_note new found, makes.grows_note new found off,
      Resolver.made?_note_self found ref⟩

/-- Steps over a list whose answers are in the table then give a list of what is in the table. -/
theorem forall₂_of_mapM {α β : Type} {g : α → Resolving f β} {P : Resolver f → α → β → Prop}
    (step : ∀ x y t t', t.Sound r → g x t = .ok (y, t') → t'.Sound r ∧ t.Grows [] t' ∧ P t' x y)
    (stays : ∀ x y t t', t.Grows [] t' → P t x y → P t' x y) {xs : List α} {ys : List β}
    (sound : t.Sound r) (ok : xs.mapM g t = .ok (ys, t')) :
    t'.Sound r ∧ t.Grows [] t' ∧ List.Forall₂ (P t') xs ys := by
  induction xs generalizing t ys with
  | nil =>
    cases ok
    exact ⟨sound, .refl, .nil⟩
  | cons x rest ih =>
    rw [List.mapM_cons] at ok
    obtain ⟨y, t₁, first, ok⟩ := Resolving.bind_eq_ok.1 ok
    obtain ⟨ys, t₂, others, ok⟩ := Resolving.bind_eq_ok.1 ok
    cases ok
    obtain ⟨sound₁, grows₁, here⟩ := step x y t t₁ sound first
    obtain ⟨sound', grows', each⟩ := ih sound₁ others
    exact ⟨sound', grows₁.trans sound₁ grows', .cons (stays x y t₁ t' grows' here) each⟩

end ImageFile

/-! ## Images -/

/-- The object that an image has for an index of its file. -/
def Image.ref? (image : Image) : (item : FileItem) → Option item.Ref
  | .lambda n => image.lambdas[n]?
  | .record n => image.records[n]?

namespace ImageFile

/-- An image was made of a file in the first store, which gave the second one. -/
structure Built (f : ImageFile) (r : Registry) (image : Image) (s s' : Store) : Prop
    extends f.Realizes r image.ref? s' where
  grown : s.Extends s'
  globals : image.globals = f.globals
  entry : f.entry < f.lambdas.length → image.lambdas[f.entry]? = some image.entry
  lambdas_size : image.lambdas.size = f.lambdas.length
  records_size : image.records.size = f.records.length

variable {f : ImageFile} {r : Registry} {image : Image} {s s' s'' : Store} {t t' : Resolver f}
  {item target : FileItem}

/-- What was made stays what it is. -/
theorem Built.extends (built : f.Built r image s s') (grown : s'.Extends s'') :
    f.Built r image s s'' :=
  { built with
    toRealizes := built.toRealizes.extends grown
    grown := built.grown.trans grown }

/-- What is found on a tree of references does not refer to itself. -/
theorem not_transGen_of_acc (acc : Acc (fun target item => f.Refers item target) item) :
    ¬ Relation.TransGen f.Refers item item := by
  -- a circle through an item is a circle through what the item refers to first
  induction acc with
  | intro item _ ih =>
    intro circle
    obtain ⟨target, first, back⟩ := Relation.TransGen.head'_iff.1 circle
    exact ih target first (Relation.TransGen.tail' back first)

/-- A file is linked if there is a table with everything in it. -/
theorem linked_of_sound (sound : t.Sound r) (all : ∀ item, f.Has item → ∃ ref, t.made? item = some ref) :
    f.Linked r := by
  have holds : ∀ item, f.Has item → ∃ d ref, f.def? item = some d ∧
      Holds r t.made? t.store item d ref := by
    intro item inside
    obtain ⟨ref, made⟩ := all item inside
    obtain ⟨d, found, holds⟩ := sound.holds item ref made
    exact ⟨d, ref, found, holds⟩
  refine ⟨?_, ?_, ?_⟩
  · intro d listed i inside
    obtain ⟨n, here, rfl⟩ := List.mem_iff_getElem.1 listed
    obtain ⟨d, l, found, home, code, -, -, encoded⟩ := holds (.lambda n) here
    cases (List.getElem?_eq_getElem here).symm.trans found
    obtain ⟨instr, o, decoded, -⟩ := encoded.exists_makes inside
    exact InstrDef.exists_decode_iff.1 ⟨o, decoded⟩
  · intro item target refers
    obtain ⟨d, ref, found, there⟩ := holds item (has_of_refers refers)
    obtain ⟨ref', made⟩ := there.exists_ref found refers
    obtain ⟨d', found', -⟩ := sound.holds target ref' made
    exact has_iff_def?.2 ⟨d', found'⟩
  · intro item circle
    obtain ⟨target, first, -⟩ := Relation.TransGen.head'_iff.1 circle
    obtain ⟨ref, made⟩ := all item (has_of_refers first)
    exact not_transGen_of_acc (sound.founded item ref made) circle

/-- A table without entries. -/
theorem sound_empty (f : ImageFile) (r : Registry) (s : Store) (id : Nat) :
    ({ store := s, nextCallable := id } : Resolver f).Sound r := by
  have empty : ∀ item ref,
      ({ store := s, nextCallable := id } : Resolver f).made? item ≠ some ref := by
    intro item ref
    cases item <;> simp [Resolver.made?, Vector.getElem?_replicate] <;> split <;> simp
  exact ⟨⟨fun item ref made => absurd made (empty item ref),
    fun item _ ref _ _ made => absurd made (empty item ref)⟩,
    fun item ref made => absurd made (empty item ref)⟩

/-- A list with what a function has for the numbers below its length, and for no others. -/
theorem getElem?_of_forall₂_range {β : Type} {g : Nat → Option β} {count : Nat} {ys : List β}
    (all : List.Forall₂ (fun n y => g n = some y) (List.range count) ys)
    (beyond : ∀ n, count ≤ n → g n = none) (n : Nat) : ys[n]? = g n := by
  have length := all.length_eq
  rw [List.length_range] at length
  by_cases inside : n < count
  · have here := (List.forall₂_iff_get.1 all).2 n (by simpa using inside) (length ▸ inside)
    rw [List.get_eq_getElem, List.get_eq_getElem, List.getElem_range] at here
    rw [List.getElem?_eq_getElem (length ▸ inside), here]
  · rw [beyond n (Nat.le_of_not_lt inside), List.getElem?_eq_none]
    omega

/-- The image that the resolver makes, and the file it makes one of. -/
theorem built_of_resolveAll {id : Nat}
    (ok : f.resolveAll r { store := s, nextCallable := id } = .ok (image, t')) :
    f.Linked r ∧ f.Built r image s t'.store := by
  obtain ⟨lambdas, t₁, first, ok⟩ := Resolving.bind_eq_ok.1 ok
  obtain ⟨records, t₂, second, ok⟩ := Resolving.bind_eq_ok.1 ok
  cases ok
  obtain ⟨sound₁, grows₁, made₁⟩ := forall₂_of_mapM (P := fun t n l => t.made? (.lambda n) = some l)
    (fun n l t t' => honest_resolve f r [] (.lambda n) t l t')
    (fun n l t t' grows => grows.kept (.lambda n) l) (sound_empty f r s id) first
  obtain ⟨sound, grows, made⟩ := forall₂_of_mapM (P := fun t n q => t.made? (.record n) = some q)
    (fun n q t t' => honest_resolve f r [] (.record n) t q t')
    (fun n q t t' grows => grows.kept (.record n) q) sound₁ second
  have lambdas_eq : ∀ n, lambdas[n]? = t'.made? (.lambda n) := by
    refine getElem?_of_forall₂_range (made₁.imp fun n l => grows.kept (.lambda n) l) fun n beyond => ?_
    simp [Resolver.made?, beyond]
  have records_eq : ∀ n, records[n]? = t'.made? (.record n) := by
    refine getElem?_of_forall₂_range made fun n beyond => ?_
    simp [Resolver.made?, beyond]
  have table : t'.made? = Image.ref?
      ⟨lambdas.getD f.entry default, lambdas.toArray, records.toArray, f.globals⟩ := by
    funext item
    cases item with
    | lambda n => exact (lambdas_eq n).symm.trans List.getElem?_toArray.symm
    | record n => exact (records_eq n).symm.trans List.getElem?_toArray.symm
  have lambdas_length : lambdas.length = f.lambdas.length := by
    rw [← made₁.length_eq, List.length_range]
  have records_length : records.length = f.records.length := by
    rw [← made.length_eq, List.length_range]
  constructor
  · refine linked_of_sound sound fun item inside => ?_
    rw [table]
    cases item with
    | lambda n => exact ⟨_, Array.getElem?_eq_getElem (Nat.lt_of_lt_of_eq inside lambdas_length.symm)⟩
    | record n => exact ⟨_, Array.getElem?_eq_getElem (Nat.lt_of_lt_of_eq inside records_length.symm)⟩
  · refine ⟨table ▸ sound.toRealizes, (grows₁.trans sound₁ grows).store, rfl, fun inside => ?_,
      lambdas_length, records_length⟩
    have inside' : f.entry < lambdas.length := lambdas_length.symm ▸ inside
    simp [inside']

/-- The resolver makes an image of the files that are linked, and of no others. -/
theorem exists_resolveAll_iff {id : Nat} :
    (∃ image t', f.resolveAll r { store := s, nextCallable := id } = .ok (image, t')) ↔ f.Linked r :=
  ⟨fun ⟨_, _, ok⟩ => (built_of_resolveAll ok).1, fun linked => linked.exists_resolveAll _⟩

/-- A lambda of the store is what the file describes: its sizes, and its code instruction by
instruction. -/
structure Installed (r : Registry) (ref? : (item : FileItem) → Option item.Ref) (s : Store)
    (l : LambdaRef) (d : LambdaDef) : Prop where
  lambda_eq : s.lambda l = lambdaOf (s.lambda l).code d
  encoded : Encoded r ref? (s.lambda l).code d.code (s.body l)

namespace Installed

variable {ref? : (item : FileItem) → Option item.Ref} {l : LambdaRef} {d : LambdaDef}

theorem params (installed : Installed r ref? s l d) : (s.lambda l).params = d.params := by
  rw [installed.lambda_eq, lambdaOf]

theorem vars (installed : Installed r ref? s l d) : (s.lambda l).vars = d.vars := by
  rw [installed.lambda_eq, lambdaOf]

theorem size (installed : Installed r ref? s l d) : (s.body l).size = d.code.length :=
  installed.encoded.length_eq.symm

/-- Every instruction of the file is in the program, where it stands in the file. -/
theorem exists_instr (installed : Installed r ref? s l d) {n : Nat} {i : InstrDef}
    (here : d.code[n]? = some i) : ∃ instr o, (s.body l)[n]? = some instr ∧ i.decode r = .ok o ∧
      o.Makes ref? (s.lambda l).code instr := by
  obtain ⟨inside, rfl⟩ := List.getElem?_eq_some_iff.1 here
  have bound : n < (s.body l).size := installed.size ▸ inside
  obtain ⟨o, decoded, makes⟩ := (List.forall₂_iff_get.1 installed.encoded).2 n inside bound
  exact ⟨_, o, Array.getElem?_eq_getElem bound, decoded, makes⟩

/-- Every instruction of the program comes from an instruction of the file. -/
theorem exists_instrDef (installed : Installed r ref? s l d) {n : Nat} {instr : Instr}
    (found : (s.body l)[n]? = some instr) : ∃ i ∈ d.code, ∃ o, i.decode r = .ok o ∧
      o.Makes ref? (s.lambda l).code instr := by
  have inside : n < d.code.length := installed.size ▸ (Array.getElem?_eq_some_iff.1 found).1
  obtain ⟨instr', o, found', decoded, makes⟩ :=
    installed.exists_instr (List.getElem?_eq_getElem inside)
  cases found.symm.trans found'
  exact ⟨_, List.getElem_mem inside, o, decoded, makes⟩

end Installed

/-- A lambda of an image is what the file describes. -/
theorem Built.installed (built : f.Built r image s s') {n : Nat} {d : LambdaDef} {l : LambdaRef}
    (found : f.lambdas[n]? = some d) (there : image.lambdas[n]? = some l) :
    Installed r image.ref? s' l d := by
  obtain ⟨d', found', home, code, stored, written, encoded⟩ := built.holds (.lambda n) l there
  cases found.symm.trans found'
  have lambda_eq : s'.lambda l = lambdaOf home d := by simp [Store.lambda, stored]
  have code_eq : (s'.lambda l).code = home := by rw [lambda_eq, lambdaOf]
  have body_eq : s'.body l = code := by
    simp [Store.body, Store.code, Store.code?, code_eq, written]
  exact ⟨by rw [code_eq, lambda_eq], by rwa [code_eq, body_eq]⟩

/-- A record type of an image is what the file describes, and its initialiser is the lambda that the
image has for it. -/
theorem Built.record_eq (built : f.Built r image s s') {n : Nat} {d : RecordDef} {q : RecordRef}
    (found : f.records[n]? = some d) (there : image.records[n]? = some q) :
    ∃ init, image.lambdas[d.init]? = some init ∧ s'.record q = recordOf init d := by
  obtain ⟨d', found', init, made, stored⟩ := built.holds (.record n) q there
  cases found.symm.trans found'
  exact ⟨init, made, by simp [Store.record, stored]⟩

/-- An image has an object for everything in the file. -/
theorem Built.exists_ref (built : f.Built r image s s') (item : FileItem) (d : item.Def)
    (found : f.def? item = some d) : ∃ ref, image.ref? item = some ref := by
  cases item with
  | lambda n =>
    have inside := (List.getElem?_eq_some_iff.1 found).1
    exact ⟨_, Array.getElem?_eq_getElem (Nat.lt_of_lt_of_eq inside built.lambdas_size.symm)⟩
  | record n =>
    have inside := (List.getElem?_eq_some_iff.1 found).1
    exact ⟨_, Array.getElem?_eq_getElem (Nat.lt_of_lt_of_eq inside built.records_size.symm)⟩

end ImageFile

end PlotMachine
