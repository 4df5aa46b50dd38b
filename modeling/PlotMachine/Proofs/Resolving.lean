import Mathlib.Logic.Relation
import PlotMachine.Image.Load
import PlotMachine.Proofs.Operands

/-!
# Files in which everything can be made

`ImageFile.Linked` says what a file has to be like for the resolver to succeed, without a walk: all
instructions are formed, what they mention is in the file, and nothing refers to itself by way of
others.

In such a file a walk never comes back to the path it is on, so it succeeds whatever was made before
(`exists_resolve`). That the resolver accepts no other files is shown along with what it makes, in
`PlotMachine.Proofs.Making`.
-/

namespace PlotMachine

/-! ## Computations of the resolver -/

namespace Resolving

variable {f : ImageFile} {α β : Type} {t t' : Resolver f}

/-- Two steps in a row have a result if the first has one, from which the second goes on. -/
theorem bind_eq_ok {x : Resolving f α} {g : α → Resolving f β} {b : β} :
    (x >>= g) t = .ok (b, t') ↔ ∃ a t₁, x t = .ok (a, t₁) ∧ g a t₁ = .ok (b, t') := by
  change (x t >>= fun p => g p.1 p.2) = _ ↔ _
  cases x t with
  | error e => exact iff_of_false nofun fun ⟨_, _, first, _⟩ => nomatch first
  | ok p =>
    constructor
    · exact fun ok => ⟨p.1, p.2, rfl, ok⟩
    · rintro ⟨_, _, ⟨⟩, ok⟩
      exact ok

theorem pure_eq_ok {a a' : α} : (pure a : Resolving f α) t = .ok (a', t') ↔ a = a' ∧ t = t' := by
  change Except.ok (a, t) = Except.ok (a', t') ↔ _
  rw [Except.ok.injEq, Prod.mk.injEq]

/-- Putting an error into context changes no result. -/
theorem within_eq_ok {site : LinkSite} {x : Resolving f α} {a : α} :
    x.within site t = .ok (a, t') ↔ x t = .ok (a, t') :=
  mapError_eq_ok_iff

/-- Steps over a list have a result if each of them does. -/
theorem exists_forM {xs : List α} {g : α → Resolving f Unit}
    (step : ∀ x ∈ xs, ∀ t, ∃ t', g x t = .ok ((), t')) (t : Resolver f) :
    ∃ t', xs.forM g t = .ok ((), t') := by
  induction xs generalizing t with
  | nil => exact ⟨t, rfl⟩
  | cons x rest ih =>
    obtain ⟨t₁, first⟩ := step x List.mem_cons_self t
    obtain ⟨t', others⟩ := ih (fun y inside => step y (List.mem_cons_of_mem x inside)) t₁
    exact ⟨t', bind_eq_ok.2 ⟨(), t₁, first, others⟩⟩

theorem exists_mapM {xs : List α} {g : α → Resolving f β}
    (step : ∀ x ∈ xs, ∀ t, ∃ y t', g x t = .ok (y, t')) (t : Resolver f) :
    ∃ ys t', xs.mapM g t = .ok (ys, t') := by
  induction xs generalizing t with
  | nil => exact ⟨[], t, rfl⟩
  | cons x rest ih =>
    obtain ⟨y, t₁, first⟩ := step x List.mem_cons_self t
    obtain ⟨ys, t', others⟩ := ih (fun y inside => step y (List.mem_cons_of_mem x inside)) t₁
    refine ⟨y :: ys, t', ?_⟩
    rw [List.mapM_cons]
    exact bind_eq_ok.2 ⟨y, t₁, first, bind_eq_ok.2 ⟨ys, t', others, pure_eq_ok.2 ⟨rfl, rfl⟩⟩⟩

end Resolving

namespace ImageFile

variable (f : ImageFile) (r : Registry)

/-- A lambda or record type is in the file. -/
def Has : FileItem → Prop
  | .lambda n => n < f.lambdas.length
  | .record n => n < f.records.length

/-- One lambda or record type refers to another one. -/
inductive Refers : FileItem → FileItem → Prop
  | instruction {n : Nat} {d : LambdaDef} {i : InstrDef} {item : FileItem}
      (found : f.lambdas[n]? = some d) (inside : i ∈ d.code) (mentions : i.Mentions item) :
      Refers (.lambda n) item
  | initializer {n : Nat} {d : RecordDef} (found : f.records[n]? = some d) :
      Refers (.record n) (.lambda d.init)

/-- Every instruction can be decoded, everything that is referred to is there, and nothing refers to
itself, also not by way of others. -/
structure Linked : Prop where
  formed : ∀ d ∈ f.lambdas, ∀ i ∈ d.code, i.Formed r
  inside : ∀ item target, f.Refers item target → f.Has target
  acyclic : ∀ item, ¬ Relation.TransGen f.Refers item item

variable {f r} {path : List FileItem} {item target : FileItem} {t t' : Resolver f}

theorem has_iff_def? : f.Has item ↔ ∃ d, f.def? item = some d := by
  rw [← Option.isSome_iff_exists]
  cases item <;> simp [Has, def?]

/-- What refers to something is in the file. -/
theorem has_of_refers (refers : f.Refers item target) : f.Has item := by
  cases refers with
  | instruction found => exact (List.getElem?_eq_some_iff.1 found).1
  | initializer found => exact (List.getElem?_eq_some_iff.1 found).1

/-! ## One step of the walk -/

/-- What was made before is not made again. -/
theorem resolve_of_made {d : item.Def} {ref : item.Ref} (found : f.def? item = some d)
    (made : t.made? item = some ref) : f.resolve r path item t = .ok (ref, t) := by
  rw [resolve]
  split
  · next none => cases found.symm.trans none
  · next d' found' => rw [made]

/-- What was not made before is made, with what it refers to, if the path does not come back to it. -/
theorem resolve_of_new {d : item.Def} {ref : item.Ref} (found : f.def? item = some d)
    (new : t.made? item = none) (off : item ∉ path)
    (made : make r (f.resolve r (item :: path)) item d t = .ok (ref, t')) :
    f.resolve r path item t = .ok (ref, t'.note item ref) := by
  rw [resolve]
  split
  · next none => cases found.symm.trans none
  · next d' found' =>
    cases found.symm.trans found'
    rw [new]
    dsimp only
    rw [if_neg off, made]

/-- What a walk answers is in the file, and it was made before or is made and noted. -/
theorem exists_of_resolve {ref : item.Ref} (ok : f.resolve r path item t = .ok (ref, t')) :
    ∃ d, f.def? item = some d ∧ ((t.made? item = some ref ∧ t = t') ∨
      (t.made? item = none ∧ item ∉ path ∧
        ∃ t₁, make r (f.resolve r (item :: path)) item d t = .ok (ref, t₁) ∧
          t' = t₁.note item ref)) := by
  rw [resolve] at ok
  split at ok
  · cases ok
  next d found =>
  refine ⟨d, found, ?_⟩
  split at ok
  · next ref made =>
    cases ok
    exact .inl ⟨made, rfl⟩
  next new =>
  split at ok
  · cases ok
  next off =>
  split at ok
  · next ref t₁ made =>
    cases ok
    exact .inr ⟨new, off, t₁, made, rfl⟩
  · cases ok

/-! ## Walks that succeed -/

section

variable {refer : (item : FileItem) → Resolving f item.Ref}

/-- An instruction can be made if what it refers to can. -/
theorem exists_link {o : Operand} {home : ProgramRef}
    (next : ∀ target, o.item? = some target → ∀ t, ∃ ref t', refer target t = .ok (ref, t'))
    (t : Resolver f) : ∃ i t', o.link refer home t = .ok (i, t') := by
  cases o with
  | plain i => exact ⟨_, _, rfl⟩
  | nativeValue make fn => exact ⟨_, _, rfl⟩
  | target make offset => exact ⟨_, _, rfl⟩
  | lambdaValue make n =>
    obtain ⟨l, t', made⟩ := next _ rfl t
    exact ⟨_, _, Resolving.bind_eq_ok.2 ⟨l, t', made, rfl⟩⟩
  | functionValue make n =>
    obtain ⟨l, t', made⟩ := next _ rfl t
    exact ⟨_, _, Resolving.bind_eq_ok.2 ⟨l, t', made, rfl⟩⟩
  | lambda make n =>
    obtain ⟨l, t', made⟩ := next _ rfl t
    exact ⟨_, _, Resolving.bind_eq_ok.2 ⟨l, t', made, rfl⟩⟩
  | record make n =>
    obtain ⟨q, t', made⟩ := next _ rfl t
    exact ⟨_, _, Resolving.bind_eq_ok.2 ⟨q, t', made, rfl⟩⟩

/-- An instruction that is formed can be made if what it mentions can. -/
theorem exists_makeInstr {i : InstrDef} {home : ProgramRef} (formed : i.Formed r)
    (next : ∀ target, i.Mentions target → ∀ t, ∃ ref t', refer target t = .ok (ref, t'))
    (t : Resolver f) : ∃ t', makeInstr r refer home i t = .ok ((), t') := by
  obtain ⟨o, decoded⟩ := InstrDef.exists_decode_iff.2 formed
  have next' : ∀ target, o.item? = some target → ∀ t, ∃ ref t', refer target t = .ok (ref, t') :=
    fun target leads => next target ((InstrDef.item?_of_decode decoded target).1 leads)
  obtain ⟨instr, t', made⟩ := exists_link next' t
  rw [makeInstr, decoded]
  exact ⟨_, Resolving.bind_eq_ok.2 ⟨instr, t', made, rfl⟩⟩

/-- What is in a file that is linked can be made if what it refers to can. -/
theorem Linked.exists_make (linked : f.Linked r) {d : item.Def} (found : f.def? item = some d)
    (next : ∀ target, f.Refers item target → ∀ t, ∃ ref t', refer target t = .ok (ref, t'))
    (t : Resolver f) : ∃ ref t', make r refer item d t = .ok (ref, t') := by
  cases item with
  | lambda n =>
    have step : ∀ home, ∀ x ∈ d.code.zipIdx, ∀ t : Resolver f, ∃ t',
        (makeInstr r refer home x.1).within
          (.instruction (d.name.getD s!"#{n}") x.2 x.1.op) t = .ok ((), t') := by
      intro home x indexed t
      have inside := List.fst_mem_of_mem_zipIdx indexed
      obtain ⟨t', made⟩ := exists_makeInstr
        (linked.formed d (List.mem_of_getElem? found) x.1 inside)
        (fun target mentions => next target (.instruction found inside mentions)) t
      exact ⟨t', Resolving.within_eq_ok.2 made⟩
    obtain ⟨t', coded⟩ := Resolving.exists_forM (step ⟨t.store.programs.size⟩) _
    exact ⟨_, _, Resolving.bind_eq_ok.2 ⟨_, _, rfl, Resolving.bind_eq_ok.2 ⟨(), t', coded, rfl⟩⟩⟩
  | record n =>
    obtain ⟨l, t', made⟩ := next _ (.initializer found) t
    exact ⟨_, _, Resolving.bind_eq_ok.2 ⟨l, t', Resolving.within_eq_ok.2 made, rfl⟩⟩

end

/-- A walk succeeds in a file that is linked, if all on the path lead to where it goes. -/
theorem exists_resolve (linked : f.Linked r) (inside : f.Has item)
    (ancestors : ∀ p ∈ path, Relation.TransGen f.Refers p item) (t : Resolver f) :
    ∃ ref t', f.resolve r path item t = .ok (ref, t') := by
  -- again on what is not on the path yet
  generalize count : unvisited f.items path = n
  induction n using Nat.strong_induction_on generalizing path item t with
  | _ n ih =>
    subst count
    obtain ⟨d, found⟩ := has_iff_def?.1 inside
    cases known : t.made? item with
    | some ref => exact ⟨ref, t, resolve_of_made found known⟩
    | none =>
      -- all on the path lead here, so coming back to it would close a circle
      have off : item ∉ path := fun old => linked.acyclic item (ancestors item old)
      have fewer := unvisited_cons_lt (mem_items_of_def? found) off
      have next : ∀ target, f.Refers item target → ∀ t, ∃ ref t',
          f.resolve r (item :: path) target t = .ok (ref, t') := by
        intro target refers t
        have further : ∀ p ∈ item :: path, Relation.TransGen f.Refers p target := by
          intro p old
          rcases List.mem_cons.1 old with same | above
          · exact same ▸ .single refers
          · exact (ancestors p above).tail refers
        exact ih _ fewer (linked.inside item target refers) further t rfl
      obtain ⟨ref, t', made⟩ := linked.exists_make found next t
      exact ⟨ref, _, resolve_of_new found known off made⟩

/-- Everything in a file that is linked can be made. -/
theorem Linked.exists_resolveAll (linked : f.Linked r) (t : Resolver f) :
    ∃ image t', f.resolveAll r t = .ok (image, t') := by
  have walk : ∀ item, f.Has item → ∀ t, ∃ ref t', f.resolve r [] item t = .ok (ref, t') :=
    fun item inside => exists_resolve linked inside nofun
  obtain ⟨lambdas, t₁, first⟩ := Resolving.exists_mapM
    (fun n inside => walk (.lambda n) (List.mem_range.1 inside)) t
  obtain ⟨records, t', second⟩ := Resolving.exists_mapM
    (fun n inside => walk (.record n) (List.mem_range.1 inside)) t₁
  exact ⟨_, t', Resolving.bind_eq_ok.2 ⟨lambdas, t₁, first,
    Resolving.bind_eq_ok.2 ⟨records, t', second, rfl⟩⟩⟩

end ImageFile

end PlotMachine
