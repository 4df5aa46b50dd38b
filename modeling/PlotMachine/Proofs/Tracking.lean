import PlotMachine.Proofs.Deeds

/-!
# Frames on record

The arena of a machine has an entry for every frame that the machine made for a call, as long as the
frame is in use. Frames are made only when a lambda is entered, which enters them in the arena at
once, and an entry is lost only when its frame is out of use. So after a run, and after every call from
the host, all frames that were made in its course are on record or out of use, and nothing else was
entered (`Machine.Deeds.tracks`).
-/

namespace PlotMachine

namespace Keeper

/-- A frame is entered in the arena or is out of use. -/
def Knows (k : Keeper) (f : FrameRef) : Prop := f ∈ k.arena.entries ∨ k.inUse f = false

/-- The second account comes from the first one by notes that enter nothing in the arena. No frame
comes back into use. -/
structure Notes (k k' : Keeper) : Prop where
  entries : k'.arena.entries = k.arena.entries
  released : ∀ f, k.inUse f = false → k'.inUse f = false

namespace Notes

variable {k k' k'' : Keeper}

theorem refl (k : Keeper) : k.Notes k := ⟨rfl, fun _ gone => gone⟩

theorem trans (first : k.Notes k') (second : k'.Notes k'') : k.Notes k'' where
  entries := second.entries.trans first.entries
  released f gone := second.released f (first.released f gone)

theorem knows (notes : k.Notes k') {f : FrameRef} (known : k.Knows f) : k'.Knows f := by
  rcases known with entered | gone
  · rw [← notes.entries] at entered
    exact .inl entered
  · exact .inr (notes.released f gone)

end Notes

variable (k : Keeper)

@[simp] theorem arena_letGo (v : Value) : (k.letGo v).arena = k.arena := by
  rw [letGo]
  split <;> rfl

@[simp] theorem inUse_letGo (v : Value) : (k.letGo v).inUse = k.inUse := by
  rw [letGo]
  split <;> rfl

theorem notes_letGo (v : Value) : k.Notes (k.letGo v) :=
  ⟨by rw [arena_letGo], fun f gone => by rwa [inUse_letGo]⟩

/-- A frame that is handed out is in use as before. -/
@[simp] theorem inUse_share (f : FrameRef) : (k.share f).inUse = k.inUse := by
  rw [share]
  split
  · next owned =>
    funext g
    simp only [inUse, FrameStatus.inUse, Array.getElem?_setIfInBounds]
    by_cases same : f.index = g.index
    · have inside := (Array.getElem?_eq_some_iff.1 owned).1
      rw [if_pos same, if_pos inside, ← same, owned]
      rfl
    · rw [if_neg same]
  · rfl

theorem notes_share (f : FrameRef) : k.Notes (k.share f) where
  entries := by
    rw [share]
    split <;> rfl
  released g gone := by rwa [inUse_share]

/-- A frame that falls out of use stays out of use, and no other one comes back. -/
theorem notes_release (h : Heap) (f : FrameRef) : k.Notes (k.release h f) where
  entries := rfl
  released g gone := by
    simp only [inUse, FrameStatus.inUse, release, Array.getElem?_setIfInBounds] at gone ⊢
    by_cases same : f.index = g.index
    · rw [if_pos same]
      by_cases inside : f.index < k.status.size
      · simp [inside]
      · rw [← same, Array.getElem?_eq_none (Nat.le_of_not_lt inside)] at gone
        simp at gone
    · rwa [if_neg same]

theorem notes_settle (h : Heap) (roots : List Object) : k.Notes (k.settle h roots) := by
  have folded : ∀ (frames : List FrameRef) (k : Keeper),
      k.Notes (frames.foldl (fun k f => k.release h f) k) := by
    intro frames
    induction frames with
    | nil => exact Notes.refl
    | cons f rest ih => exact fun k => (k.notes_release h f).trans (ih (k.release h f))
  obtain ⟨entries, released⟩ := folded (k.census h roots).buried.reverse k
  exact ⟨entries, released⟩

/-- The other frames are in use as before when a frame is made. -/
theorem notes_enter (status : FrameStatus) (f : FrameRef) : k.Notes (k.enter status f) where
  entries := rfl
  released g gone := by
    simp only [inUse, FrameStatus.inUse, enter, Array.getElem?_push] at gone ⊢
    by_cases last : g.index = k.status.size
    · rw [Array.getElem?_eq_none (Nat.le_of_eq last.symm)] at gone
      simp at gone
    · rwa [if_neg last]

/-- A frame that is entered in the arena is known from then on. -/
theorem knows_register (f : FrameRef) : (k.register f).Knows f := by
  cases used : k.inUse f with
  | false => exact .inr used
  | true =>
    refine .inl ?_
    simp only [register, Arena.register]
    split
    · exact Array.mem_filter.2 ⟨Array.mem_push_self, used⟩
    · exact Array.mem_push_self

/-- Only frames out of use are forgotten when a frame is entered. -/
theorem Knows.register {k : Keeper} {f : FrameRef} (known : k.Knows f) (g : FrameRef) :
    (k.register g).Knows f := by
  rcases known with entered | gone
  · cases used : k.inUse f with
    | false => exact .inr used
    | true =>
      refine .inl ?_
      simp only [Keeper.register, Arena.register]
      split
      · exact Array.mem_filter.2 ⟨Array.mem_push_of_mem g entered, used⟩
      · exact Array.mem_push_of_mem g entered
  · exact .inr gone

/-- Nothing else is entered. -/
theorem mem_entries_register {k : Keeper} {f g : FrameRef}
    (entered : f ∈ (k.register g).arena.entries) : f ∈ k.arena.entries ∨ f = g := by
  simp only [register, Arena.register] at entered
  split at entered
  · exact Array.mem_push.1 (Array.mem_filter.1 entered).1
  · exact Array.mem_push.1 entered

end Keeper

namespace Machine

section Notes

variable {m m' : Machine}

/-- Changes enter no frame in the arena. -/
theorem Change.notes (change : m.Change m') : m.keeper.Notes m'.keeper := by
  cases change with
  | letGo v =>
    rw [letGo_eq]
    exact m.keeper.notes_letGo v
  | share f => exact m.keeper.notes_share f
  | stack | heap | output | interrupt => exact .refl m.keeper

/-- Changes make no frames. -/
theorem Change.size_frames (change : m.Change m') :
    m'.heap.frames.size = m.heap.frames.size := by
  cases change with
  | heap change =>
    cases change with
    | put o index v => cases o <;> simp [Heap.put, Heap.update]
    | append | addArray | addInstance | takeNumber => rfl
  | letGo v => rw [letGo_eq]
  | stack | share | output | interrupt => rfl

theorem Changes.notes (changes : m.Changes m') : m.keeper.Notes m'.keeper := by
  induction changes with
  | refl => exact .refl m.keeper
  | tail _ change ih => exact ih.trans change.notes

theorem notes_settle (m : Machine) (held : Heap → List Object) :
    m.keeper.Notes (m.settle held).keeper := by
  rw [settle]
  split
  · exact .refl m.keeper
  · exact m.keeper.notes_settle _ _

theorem notes_newFrame (m : Machine) (status : FrameStatus) (length : Nat) :
    m.keeper.Notes (m.newFrame status length).2.keeper := by
  obtain ⟨entries, released⟩ := Keeper.notes_enter
    { m.keeper with pool := (m.keeper.pool.take length).2 } status ⟨m.heap.frames.size⟩
  exact ⟨entries, released⟩

end Notes

/-- A frame was made on the way from the first machine to the second one. -/
def Makes (m m' : Machine) (f : FrameRef) : Prop :=
  m.heap.frames.size ≤ f.index ∧ f.index < m'.heap.frames.size

/-- The second machine comes from the first one with an entry for every frame that was made. -/
structure Tracks (m m' : Machine) : Prop where
  grown : m.heap.frames.size ≤ m'.heap.frames.size
  known : ∀ f, m.keeper.Knows f → m'.keeper.Knows f
  made : ∀ f, m.Makes m' f → m'.keeper.Knows f
  entered : ∀ f ∈ m'.keeper.arena.entries, f ∈ m.keeper.arena.entries ∨ m.Makes m' f

namespace Tracks

variable {m m' m'' : Machine}

/-- Nothing is made and nothing is entered. -/
theorem of_notes (notes : m.keeper.Notes m'.keeper)
    (same : m'.heap.frames.size = m.heap.frames.size) : m.Tracks m' where
  grown := Nat.le_of_eq same.symm
  known _ known := notes.knows known
  made f made := absurd (Nat.lt_of_lt_of_le made.2 (Nat.le_of_eq same)) (Nat.not_lt_of_le made.1)
  entered f entered := .inl (by rwa [notes.entries] at entered)

theorem refl (m : Machine) : m.Tracks m := of_notes (.refl m.keeper) rfl

theorem trans (first : m.Tracks m') (second : m'.Tracks m'') : m.Tracks m'' where
  grown := Nat.le_trans first.grown second.grown
  known f known := second.known f (first.known f known)
  made f made := by
    by_cases early : f.index < m'.heap.frames.size
    · exact second.known f (first.made f ⟨made.1, early⟩)
    · exact second.made f ⟨Nat.le_of_not_lt early, made.2⟩
  entered f entered := by
    rcases second.entered f entered with before | late
    · rcases first.entered f before with old | early
      · exact .inl old
      · exact .inr ⟨early.1, Nat.lt_of_lt_of_le early.2 second.grown⟩
    · exact .inr ⟨Nat.le_trans first.grown late.1, late.2⟩

/-- Changes make no frames and enter none. -/
theorem of_changes (changes : m.Changes m') : m.Tracks m' :=
  changes.preserves
    (fun change tracks => tracks.trans (of_notes change.notes change.size_frames)) (refl m)

end Tracks

variable (m : Machine)

theorem tracks_settle (held : Heap → List Object) : m.Tracks (m.settle held) :=
  .of_notes (m.notes_settle held) (by rw [heap_settle])

/-- The limits of the stack are no business of the arena. -/
theorem tracks_withStack (s : Stack) : m.Tracks { m with stack := s } :=
  .of_notes (.refl m.keeper) rfl

/-- A frame is made and entered in the arena. -/
theorem tracks_register_newFrame (status : FrameStatus) (length : Nat) :
    m.Tracks ((m.newFrame status length).2.register (m.newFrame status length).1) := by
  have size : (m.newFrame status length).2.heap.frames.size = m.heap.frames.size + 1 := by
    simp [newFrame, addFrame, Heap.addFrame]
  have index : (m.newFrame status length).1.index = m.heap.frames.size := rfl
  have notes := m.notes_newFrame status length
  generalize m.newFrame status length = made at size index notes
  refine ⟨?_, fun f known => (notes.knows known).register made.1, ?_, ?_⟩
  · exact Nat.le_trans (Nat.le_succ _) (Nat.le_of_eq size.symm)
  · intro f made_between
    obtain ⟨new, inside⟩ := made_between
    have same : f = made.1 := by
      have inside' : f.index < m.heap.frames.size + 1 := Nat.lt_of_lt_of_eq inside size
      rcases f with ⟨i⟩
      rcases made with ⟨⟨j⟩, m'⟩
      simp only [FrameRef.mk.injEq] at new index inside' ⊢
      omega
    rw [same]
    exact made.2.keeper.knows_register made.1
  · intro f entered
    rcases Keeper.mem_entries_register entered with old | rfl
    · exact .inl (by rwa [notes.entries] at old)
    · refine .inr ⟨Nat.le_of_eq index.symm, ?_⟩
      rw [index]
      exact Nat.lt_of_lt_of_eq (Nat.lt_succ_self _) size.symm

/-- A frame is made only for a call, and is entered then. -/
theorem Deed.tracks {m m' : Machine} (deed : m.Deed m') : m.Tracks m' := by
  cases deed with
  | change change => exact .of_notes change.notes change.size_frames
  | stack s => exact m.tracks_withStack s
  | settle held => exact m.tracks_settle held
  | make length => exact m.tracks_register_newFrame .owned length
  | fill f g =>
    refine .of_notes (.refl m.keeper) ?_
    simp [Heap.update]
  | release f => exact .of_notes (m.keeper.notes_release m.heap f) rfl

/-- All frames that were made are on record or out of use, and nothing else was entered. -/
theorem Deeds.tracks {m m' : Machine} (deeds : m.Deeds m') : m.Tracks m' := by
  induction deeds with
  | refl => exact .refl m
  | tail _ deed ih => exact ih.trans deed.tracks

end Machine

end PlotMachine
