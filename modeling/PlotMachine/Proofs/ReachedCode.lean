import Mathlib
import PlotMachine.Proofs.Listings
import PlotMachine.Proofs.Validation

/-!
# The code that validation and listings reach

Validation and listings both walk over the code that a lambda refers to. A listing goes into every
lambda that an instruction mentions: `Store.Reaches`. Validation goes into those of makefunc, of the
initialiser of an allocated record type and of a lambda that is a constant (`Store.Needs`), but not
into the body of a function that is a constant (`Store.PushesFunction`).

So the code that is accepted is exactly the code that is in bounds as far as validation goes, with an
initialiser of one argument for every record type (`accepted_iff_valid`). It is in bounds as far as
a listing goes, and can be listed, if the bodies of the functions it pushes are accepted too
(`inBounds_of_validateLambda`). This is not for free: the code of `unbound` is accepted, and a
listing of it fails.
-/

namespace PlotMachine

namespace Store

/-- A lambda names only slots of its frame and only places in its own program. -/
structure InBounds (s : Store) (l : LambdaRef) : Prop where
  sizes : (s.lambda l).params ≤ (s.lambda l).vars
  slots : ∀ slot, .load .var slot ∈ s.body l ∨ .save .var slot ∈ s.body l →
    slot < (s.lambda l).vars
  jumps : ∀ condition target, .jump condition target ∈ s.body l →
    target.program = some (s.lambda l).code ∧ target.offset ≤ (s.body l).size

variable {s : Store} {h : Heap} {j k l : LambdaRef}

/-! ## Bounds -/

/-- An instruction passes its check if its slot and its target are in bounds. -/
theorem checkInstr_eq_ok_iff {lambda : Lambda} {offset : Nat} {i : Instr} :
    s.checkInstr lambda offset i = .ok () ↔
      (∀ slot, i = .load .var slot ∨ i = .save .var slot → slot < lambda.vars) ∧
      ∀ condition target, i = .jump condition target →
        target.program = some lambda.code ∧ target.offset ≤ (s.code lambda.code).size := by
  fun_cases s.checkInstr lambda offset i with
  | case1 | case2 => simp [checkSlot_eq_ok_iff]
  | case3 => simp [checkTarget_eq_ok_iff]
  | case4 _ notLoad notSave notJump =>
    refine iff_of_true rfl ⟨?_, fun _ _ same => (notJump _ _ same).elim⟩
    rintro slot (same | same)
    · exact (notLoad _ same).elim
    · exact (notSave _ same).elim

/-- A lambda passes its checks if it is in bounds. -/
theorem lambdaOk_iff : s.LambdaOk l ↔ s.InBounds l := by
  constructor
  · rintro ⟨sizes, instr⟩
    have bounds : ∀ i ∈ s.body l, _ := fun i here =>
      have ⟨offset, found⟩ := Array.mem_iff_getElem?.1 here
      checkInstr_eq_ok_iff.1 (instr offset i found)
    refine ⟨checkSizes_eq_ok_iff.1 sizes, fun slot here => ?_, fun condition target here => ?_⟩
    · rcases here with here | here
      · exact (bounds _ here).1 slot (.inl rfl)
      · exact (bounds _ here).1 slot (.inr rfl)
    · exact (bounds _ here).2 condition target rfl
  · rintro ⟨sizes, slots, jumps⟩
    refine ⟨checkSizes_eq_ok_iff.2 sizes, fun offset i found => checkInstr_eq_ok_iff.2 ⟨?_, ?_⟩⟩
    · rintro slot (rfl | rfl)
      · exact slots slot (.inl (Array.mem_of_getElem? found))
      · exact slots slot (.inr (Array.mem_of_getElem? found))
    · rintro condition target rfl
      exact jumps condition target (Array.mem_of_getElem? found)

theorem inBounds_of_accepted (ok : s.validateLambda l = .ok ()) : s.InBounds l := by
  obtain ⟨_, _, closed, inside⟩ := validateLambda_eq_ok_iff.1 ok
  exact lambdaOk_iff.1 (closed.lambda l inside)

/-- A closed set contains what its lambdas need. -/
theorem Closed.mem_of_needs {lambdas : LambdaRef → Prop} {records : RecordRef → Prop}
    (closed : s.Closed lambdas records) (inside : lambdas j) (needs : s.Needs j k) : lambdas k := by
  cases needs with
  | makeFunc here => exact (closed.dependency j inside _ here).1 k rfl
  | constant here => exact (closed.dependency j inside _ here).1 k rfl
  | initialiser r here init =>
    exact init ▸ (closed.record r ((closed.dependency j inside _ here).2 r rfl)).2

/-- What accepted code needs is accepted: it belongs to the same closed set. -/
theorem accepted_of_needs (ok : s.validateLambda j = .ok ()) (needs : s.Needs j k) :
    s.validateLambda k = .ok () := by
  obtain ⟨lambdas, records, closed, inside⟩ := validateLambda_eq_ok_iff.1 ok
  exact validateLambda_eq_ok_iff.2 ⟨lambdas, records, closed, closed.mem_of_needs inside needs⟩

/-- If the functions that are pushed are accepted, all that is reached from accepted code is. -/
theorem accepted_of_reaches (ok : s.validateLambda l = .ok ())
    (functions : ∀ j k, s.Reaches l j → s.PushesFunction j k → s.validateLambda k = .ok ())
    (reached : s.Reaches l k) : s.validateLambda k = .ok () := by
  induction reached with
  | refl => exact ok
  | tail before mentioned ih =>
    rcases mem_mentions.1 mentioned with needs | pushes
    · exact accepted_of_needs ih needs
    · exact functions _ _ before pushes

/-! ## What validation accepts -/

/-- A lambda is in bounds with all it needs, and all record types that are allocated there have an
initialiser that takes the new instance and nothing else. -/
structure Valid (s : Store) (l : LambdaRef) : Prop where
  bounds : ∀ k, Relation.ReflTransGen s.Needs l k → s.InBounds k
  initialisers : ∀ k, Relation.ReflTransGen s.Needs l k → ∀ r, .alloc r ∈ s.body k →
    (s.lambda (s.record r).init).params = 1

theorem checkInit_eq_ok_iff {record : Record} :
    s.checkInit record = .ok () ↔ (s.lambda record.init).params = 1 := by
  rw [checkInit]
  split
  · next one => exact iff_of_true rfl one
  · next other => exact iff_of_false nofun other

/-- The lambdas of a closed set are valid. -/
theorem Closed.valid {lambdas : LambdaRef → Prop} {records : RecordRef → Prop}
    (closed : s.Closed lambdas records) (inside : lambdas l) : s.Valid l := by
  have all : ∀ k, Relation.ReflTransGen s.Needs l k → lambdas k := fun k path => by
    induction path with
    | refl => exact inside
    | tail _ needs ih => exact closed.mem_of_needs ih needs
  refine ⟨fun k path => lambdaOk_iff.1 (closed.lambda k (all k path)), fun k path r here => ?_⟩
  have known := (closed.dependency k (all k path) _ here).2 r rfl
  exact checkInit_eq_ok_iff.1 (closed.record r known).1

/-- What a valid lambda needs is a closed set, with the record types that have their initialisers
there. -/
theorem Valid.closed (valid : s.Valid l) :
    s.Closed (Relation.ReflTransGen s.Needs l) fun r =>
      (s.lambda (s.record r).init).params = 1 ∧
        Relation.ReflTransGen s.Needs l (s.record r).init := by
  refine ⟨fun k path => lambdaOk_iff.2 (valid.bounds k path),
    fun r known => ⟨checkInit_eq_ok_iff.2 known.1, known.2⟩, fun k path i here => ?_⟩
  constructor
  · intro k' leads
    unfold Instr.dependency? at leads
    split at leads <;> cases leads
    · exact path.tail (.makeFunc here)
    · exact path.tail (.constant here)
  · intro r leads
    unfold Instr.dependency? at leads
    split at leads <;> cases leads
    exact ⟨valid.initialisers k path r here, path.tail (.initialiser r here rfl)⟩

/-- Validation accepts the lambdas that are valid, and the record types that have an initialiser which
is valid and takes one argument. -/
theorem accepted_iff_valid (s : Store) :
    (∀ l, s.validateLambda l = .ok () ↔ s.Valid l) ∧
      ∀ r, s.validateRecord r = .ok () ↔
        (s.lambda (s.record r).init).params = 1 ∧ s.Valid (s.record r).init := by
  refine ⟨fun l => ⟨fun ok => ?_, fun valid => ?_⟩, fun r => ⟨fun ok => ?_, fun ⟨one, valid⟩ => ?_⟩⟩
  · obtain ⟨_, _, closed, settled⟩ := exists_closed_of_checkAll ok
    exact closed.valid (settled _ (List.mem_singleton_self _))
  · exact checkAll_of_closed valid.closed (List.forall_mem_singleton.2 .refl)
  · obtain ⟨_, _, closed, settled⟩ := exists_closed_of_checkAll ok
    obtain ⟨init, inside⟩ := settled _ (List.mem_singleton_self _)
    exact ⟨checkInit_eq_ok_iff.1 init, closed.valid inside⟩
  · exact checkAll_of_closed valid.closed (List.forall_mem_singleton.2 ⟨one, .refl⟩)

/-- Code that makes a function of a lambda first and then has it initialise an instance. -/
def madeBefore : Store where
  programs := #[some #[.makeFunc ⟨1⟩, .alloc ⟨0⟩, .ret], some #[.ret]]
  lambdas := #[{ code := ⟨0⟩, maxStack := 2, params := 0, vars := 0 },
    { code := ⟨1⟩, maxStack := 1, params := 2, vars := 2 }]
  records := #[{ size := 0, init := ⟨1⟩ }]

-- the initialiser is known to be in bounds when the record type is checked, which fails all the same
example : madeBefore.validateLambda ⟨0⟩ = .error (.malformed (.initializerTakes "<record>" 2)) := by
  cbv

/-! ## Listings -/

/-- A lambda in bounds can be listed. -/
theorem exists_listLambda (inside : s.InBounds l) (short : ((s.body l).size : Int) ≤ maxSigned) :
    ∃ text, s.listLambda h l = .ok text :=
  ⟨_, listLambda_eq short fun _ here condition target jump =>
    (inside.jumps condition target (jump ▸ here)).1⟩

/-- A lambda is listed together with the lambdas it reaches, each once, if all of them can be. -/
theorem exists_listAll (listed : ∀ k, s.Reaches l k → ∃ text, s.listLambda h k = .ok text) :
    ∃ ks texts, s.listAll h [l] = .ok ("\n".intercalate texts) ∧
      List.Forall₂ (fun k text => s.listLambda h k = .ok text) ks texts ∧
      ks.Nodup ∧ ∀ k, k ∈ ks ↔ s.Reaches l k := by
  obtain ⟨ks, walk, queue⟩ := s.exists_discovers (h := h) [] [l]
  have reached : ∀ k, k ∈ ks ↔ s.Reaches l k := fun k => by
    rw [walk.mem_iff]
    simp only [List.mem_singleton, exists_eq_left]
    rfl
  choose! text listed using listed
  have each : ∀ k ∈ ks, s.listLambda h k = .ok (text k) := fun k inside =>
    listed k ((reached k).1 inside)
  refine ⟨ks, ks.map text, ?_, List.forall₂_map_right_iff.2 (List.forall₂_same.2 each), walk.nodup.1,
    reached⟩
  rw [listAll, queue, mapM_eq_ok each]
  rfl

/-! ## Accepted code -/

/-- Code that validation accepts is in bounds as far as validation goes. If it also accepts the bodies
of the functions pushed by code that a listing goes into, the code is in bounds as far as the listing
goes, and the listing succeeds. -/
theorem inBounds_of_validateLambda (ok : s.validateLambda l = .ok ()) :
    (∀ k, Relation.ReflTransGen s.Needs l k → s.InBounds k) ∧
    ((∀ j k, s.Reaches l j → s.PushesFunction j k → s.validateLambda k = .ok ()) →
      (∀ k, s.Reaches l k → s.InBounds k) ∧
      (s.Addressable → ∀ h, ∃ ks texts, s.listAll h [l] = .ok ("\n".intercalate texts) ∧
        List.Forall₂ (fun k text => s.listLambda h k = .ok text) ks texts ∧
        ks.Nodup ∧ ∀ k, k ∈ ks ↔ s.Reaches l k)) := by
  constructor
  · intro k needed
    refine inBounds_of_accepted ?_
    induction needed with
    | refl => exact ok
    | tail _ needs ih => exact accepted_of_needs ih needs
  · intro functions
    have inside : ∀ k, s.Reaches l k → s.InBounds k := fun k reached =>
      inBounds_of_accepted (accepted_of_reaches ok functions reached)
    exact ⟨inside, fun short h =>
      exists_listAll fun k reached => exists_listLambda (inside k reached) (short _)⟩

/-- Code that refers to other code in every way there is. -/
def referring : Store where
  programs := #[
    some #[.makeFunc ⟨1⟩, .constPush (.lambda ⟨1⟩), .alloc ⟨0⟩,
      .constPush (.callable (.function 0 ⟨2⟩ none)), .ret],
    some #[.load .var 0, .jump .always ⟨some ⟨1⟩, 2⟩],
    some #[.ret]]
  lambdas := #[{ code := ⟨0⟩, maxStack := 2, params := 0, vars := 0 },
    { code := ⟨1⟩, maxStack := 1, params := 1, vars := 1 },
    { code := ⟨2⟩, maxStack := 0, params := 0, vars := 0 }]
  records := #[{ size := 0, init := ⟨1⟩ }]

theorem inBounds_of_validateLambda_referring :
    referring.validateLambda ⟨0⟩ = .ok () ∧
      (∀ k, referring.Reaches ⟨0⟩ k → referring.InBounds k) ∧
      ∃ text, referring.listAll {} [⟨0⟩] = .ok text := by
  have ok : referring.validateLambda ⟨0⟩ = .ok () := by cbv
  have function : ∀ j k, referring.PushesFunction j k → k = ⟨2⟩ := by
    rintro j k ⟨id, closure, here⟩
    obtain ⟨p, program⟩ : ∃ p, (referring.lambda j).code = p := ⟨_, rfl⟩
    rw [body, program] at here
    obtain ⟨_ | _ | _ | p⟩ := p <;> simp_all [referring, code, code?]
  have short : referring.Addressable := by
    rintro ⟨_ | _ | _ | p⟩ <;> simp [referring, code, code?, maxSigned]
  obtain ⟨inside, listed⟩ := (inBounds_of_validateLambda ok).2 fun j k _ pushes =>
    function j k pushes ▸ by cbv
  obtain ⟨_, _, text, -⟩ := listed short {}
  exact ⟨ok, inside, _, text⟩

/-- Code that pushes a function whose body jumps into another program. -/
def unbound : Store where
  programs := #[some #[.ret], some #[.jump .always ⟨some ⟨0⟩, 0⟩],
    some #[.constPush (.callable (.function 0 ⟨0⟩ none)), .ret]]
  lambdas := #[{ code := ⟨1⟩, maxStack := 0, params := 0, vars := 0 },
    { code := ⟨2⟩, maxStack := 1, params := 0, vars := 0 }]

/-- Validation accepts code that pushes a function with a body out of bounds, which cannot be listed. -/
theorem validateLambda_unbound :
    unbound.validateLambda ⟨1⟩ = .ok () ∧ unbound.Reaches ⟨1⟩ ⟨0⟩ ∧ ¬ unbound.InBounds ⟨0⟩ ∧
      unbound.listAll {} [⟨1⟩] = .error .labelMismatch := by
  refine ⟨by cbv, .single ?_, fun inside => ?_, by cbv⟩
  · exact mem_mentions.2 (.inr ⟨0, none, Array.mem_of_getElem? (i := 0) rfl⟩)
  · have target := (inside.jumps .always ⟨some ⟨0⟩, 0⟩ (Array.mem_of_getElem? (i := 0) rfl)).1
    cases target

end Store

end PlotMachine
