import PlotMachine.Proofs.Tracking

/-!
# What a teardown clears

A teardown clears the frames in use that are on record and empties the record. A frame is put on
record when it is made for a call and when it becomes the global frame, but not when it is merely
used again. So a teardown clears, of the frames in use, exactly those that were put on record since
the teardown before (`Machine.History.slots_reset_eq`). What a global frame is given after a first
teardown survives a second one (`Machine.reset_keeps_globals`).
-/

namespace PlotMachine

namespace Heap

/-- A frame that is cleared keeps its length. -/
theorem slots_clearFrame_self (h : Heap) (f : FrameRef) :
    (h.clearFrame f).slots f = Array.replicate (h.slots f).size .nil := by
  cases found : h.frames[f.index]? <;>
    simp [clearFrame, update, slots, Array.getElem?_modify, found]

/-- The other frames keep their slots when a frame is cleared. -/
theorem slots_clearFrame_of_ne (h : Heap) {f g : FrameRef} (ne : f ≠ g) :
    (h.clearFrame f).slots g = h.slots g := by
  have other : Object.frame f ≠ .frame g := fun same => ne (Object.frame.inj same)
  exact h.contents_update_of_ne other _

end Heap

namespace Machine

/-! ## Clearing frames -/

@[simp] theorem inUse_letGoAll (m : Machine) (values : List Value) :
    (m.letGoAll values).keeper.inUse = m.keeper.inUse := by
  rw [letGoAll_eq]
  dsimp only
  generalize m.keeper = k
  induction values generalizing k with
  | nil => rfl
  | cons v rest ih => rw [List.foldl_cons, ih, Keeper.inUse_letGo]

/-- Frames that are cleared one after the other have nil slots, and all others keep what they hold.
-/
theorem slots_clearFrames (m : Machine) (frames : Array FrameRef) (f : FrameRef) :
    (m.clearFrames frames).heap.slots f =
      if f ∈ frames then Array.replicate (m.heap.slots f).size .nil else m.heap.slots f := by
  have each : ∀ (frames : List FrameRef) (m : Machine), (frames.foldl clearFrame m).heap.slots f =
      if f ∈ frames then Array.replicate (m.heap.slots f).size .nil else m.heap.slots f := by
    intro frames
    induction frames with
    | nil => exact fun m => rfl
    | cons g rest ih =>
      intro m
      have cleared : (m.clearFrame g).heap = m.heap.clearFrame g := heap_letGoAll _ _
      rw [List.foldl_cons, ih, cleared]
      by_cases same : g = f
      · subst same
        rw [m.heap.slots_clearFrame_self]
        simp
      · have ne : f ≠ g := fun eq => same eq.symm
        simp [m.heap.slots_clearFrame_of_ne same, ne]
  rw [clearFrames, heap_letGoAll, ← Array.foldl_toList, each]
  simp

theorem inUse_clearFrames (m : Machine) (frames : Array FrameRef) :
    (m.clearFrames frames).keeper.inUse = m.keeper.inUse := by
  have each : ∀ (frames : List FrameRef) (m : Machine),
      (frames.foldl clearFrame m).keeper.inUse = m.keeper.inUse := by
    intro frames
    induction frames with
    | nil => exact fun m => rfl
    | cons g rest ih =>
      intro m
      rw [List.foldl_cons, ih, clearFrame, inUse_letGoAll]
  rw [clearFrames, inUse_letGoAll, ← Array.foldl_toList, each]

/-! ## What the host does with a machine -/

/-- A machine as the host has it, with the frames that were made for a call or became the global
frame since it was last torn down. -/
inductive History : Machine → (FrameRef → Prop) → Prop
  | new (settings : Settings) : History (.new settings) fun _ => False
  | initGlobals {m : Machine} {own : FrameRef → Prop} (history : History m own) (length : Nat) :
      History (m.initGlobals length).2 fun f => own f ∨ f = (m.initGlobals length).1
  | setGlobals {m : Machine} {own : FrameRef → Prop} (history : History m own) (g : FrameRef) :
      History (m.setGlobals g) fun f => own f ∨ f = g
  | invoke {env : Env} {fuel : Nat} {c : Callable} {args : List Value} {m m' : Machine}
      {result : Except Failure (Array Value)} {own : FrameRef → Prop} (history : History m own)
      (ended : env.invoke fuel c args m = some (result, m')) :
      History m' fun f => own f ∨ m.Makes m' f
  | exec {env : Env} {fuel : Nat} {l : LambdaRef} {args : List Value} {m m' : Machine}
      {result : Except Failure (Array Value)} {own : FrameRef → Prop} (history : History m own)
      (ended : env.exec fuel l args m = some (result, m')) :
      History m' fun f => own f ∨ m.Makes m' f
  | instantiate {env : Env} {fuel : Nat} {r : RecordRef} {m m' : Machine}
      {result : Except Failure InstanceRef} {own : FrameRef → Prop} (history : History m own)
      (ended : env.instantiate fuel r m = some (result, m')) :
      History m' fun f => own f ∨ m.Makes m' f
  /-- A call of a callable on what is on the stack. -/
  | run {env : Env} {fuel : Nat} {c : Callable} {m m' : Machine} {outcome : Except Failure Unit}
      {own : FrameRef → Prop} (history : History m own)
      (ended : env.run fuel ⟨[.call c], m⟩ = some (outcome, m')) :
      History m' fun f => own f ∨ m.Makes m' f
  /-- Work on the stack and on objects, those of the host included. -/
  | change {m m' : Machine} {own : FrameRef → Prop} (history : History m own)
      (change : m.Change m') : History m' own
  | hostFrame {m : Machine} {own : FrameRef → Prop} (history : History m own) (length : Nat) :
      History (m.hostFrame length).2 own
  | frameOf {m : Machine} {own : FrameRef → Prop} (history : History m own) (slots : Array Value) :
      History (m.frameOf slots).2 own
  | pin {m : Machine} {own : FrameRef → Prop} (history : History m own) (values : List Value) :
      History (m.pin values) own
  | reset {m : Machine} {own : FrameRef → Prop} (history : History m own) :
      History m.reset.2 fun _ => False

/-- The frames of a machine are on record: those of its own as long as they are in use, and no
others. -/
structure Records (m : Machine) (own : FrameRef → Prop) : Prop where
  known : ∀ f, own f → m.keeper.Knows f
  entered : ∀ f ∈ m.keeper.arena.entries, own f

namespace Records

variable {m m' : Machine} {own : FrameRef → Prop}

theorem of_notes (records : m.Records own) (notes : m.keeper.Notes m'.keeper) : m'.Records own where
  known f own := notes.knows (records.known f own)
  entered f entered := records.entered f (by rwa [notes.entries] at entered)

/-- What was made in the course of a call is on record. -/
theorem of_tracks (records : m.Records own) (tracks : m.Tracks m') :
    m'.Records fun f => own f ∨ m.Makes m' f where
  known f owned := by
    rcases owned with before | made
    · exact tracks.known f (records.known f before)
    · exact tracks.made f made
  entered f entered := (tracks.entered f entered).imp_left (records.entered f)

theorem register (records : m.Records own) (g : FrameRef) :
    (m.register g).Records fun f => own f ∨ f = g where
  known f owned := by
    rcases owned with before | rfl
    · exact (records.known f before).register g
    · exact m.keeper.knows_register f
  entered f entered := (Keeper.mem_entries_register entered).imp_left (records.entered f)

theorem empty (none : m.keeper.arena.entries = #[]) : m.Records fun _ => False where
  known _ owned := owned.elim
  entered f entered := by
    rw [none] at entered
    exact Array.not_mem_empty f entered

end Records

theorem notes_settled (m : Machine) : m.keeper.Notes m.settled.keeper := m.notes_settle _

/-- The frame that becomes the global one is put on record. -/
theorem Records.setGlobals {m : Machine} {own : FrameRef → Prop} (records : m.Records own)
    (g : FrameRef) : (m.setGlobals g).Records fun f => own f ∨ f = g := by
  have registered := (records.of_notes m.notes_settled).register g
  refine registered.of_notes ?_
  rw [Machine.setGlobals, letGo_eq]
  exact (Keeper.notes_share _ _).trans (Keeper.notes_letGo _ _)

theorem initGlobals_eq (m : Machine) (length : Nat) :
    m.initGlobals length =
      ((m.settled.newFrame .owned length).1,
        (m.settled.newFrame .owned length).2.setGlobals (m.settled.newFrame .owned length).1) :=
  rfl

theorem History.records {m : Machine} {own : FrameRef → Prop} (history : m.History own) :
    m.Records own := by
  induction history with
  | new settings => exact .empty rfl
  | initGlobals _ length ih =>
    have made := (ih.of_notes (notes_settled _)).of_notes (notes_newFrame _ .owned length)
    rw [initGlobals_eq]
    dsimp only
    exact made.setGlobals _
  | setGlobals _ g ih => exact ih.setGlobals g
  | invoke _ ended ih => exact ih.of_tracks (Env.deeds_invoke ended).tracks
  | exec _ ended ih => exact ih.of_tracks (Env.deeds_exec ended).tracks
  | instantiate _ ended ih => exact ih.of_tracks (Env.deeds_instantiate ended).tracks
  | run _ ended ih => exact ih.of_tracks (Env.deeds_run ended).tracks
  | change _ change ih => exact ih.of_notes change.notes
  | hostFrame _ length ih =>
    exact (ih.of_notes (notes_settled _)).of_notes (notes_newFrame _ .shared length)
  | frameOf _ slots ih => exact ih.of_notes (Keeper.notes_enter _ .shared _)
  | pin _ values ih => exact ih.of_notes ⟨rfl, fun _ gone => gone⟩
  | reset _ _ => exact .empty rfl

/-! ## Teardowns -/

/-- A machine whose stack was emptied, with all that fell out of use released. -/
def emptied (m : Machine) : Machine :=
  let m := m.cutStack 0
  { m with stack := { m.stack with depth := 0 } }.settled

theorem notes_emptied (m : Machine) : m.keeper.Notes m.emptied.keeper := by
  have cut : m.Changes (m.cutStack 0) := Permits.cutStack m 0
  rw [emptied]
  refine cut.notes.trans ?_
  exact notes_settled { m.cutStack 0 with stack := { (m.cutStack 0).stack with depth := 0 } }

theorem heap_emptied (m : Machine) : m.emptied.heap = m.heap := by
  rw [emptied, settled, heap_settle, heap_cutStack]

/-- The frames that a teardown clears. -/
def cleared (m : Machine) : Array FrameRef := m.emptied.keeper.arena.live m.emptied.keeper.inUse

theorem mem_cleared {m : Machine} {f : FrameRef} :
    f ∈ m.cleared ↔ f ∈ m.emptied.keeper.arena.entries ∧ m.emptied.keeper.inUse f = true := by
  rw [cleared, Arena.live, Array.mem_filter]

theorem reset_eq (m : Machine) :
    m.reset.2 =
      { m.emptied.clearFrames m.cleared with
        keeper := { (m.emptied.clearFrames m.cleared).keeper with arena := {} } } := by
  simp only [reset, sweep, cleared, emptied]

theorem inUse_reset (m : Machine) : m.reset.2.keeper.inUse = m.emptied.keeper.inUse := by
  rw [← m.emptied.inUse_clearFrames m.cleared, reset_eq]
  generalize m.emptied.clearFrames m.cleared = n
  rfl

theorem slots_reset (m : Machine) (f : FrameRef) :
    m.reset.2.heap.slots f =
      if f ∈ m.cleared then Array.replicate (m.heap.slots f).size .nil else m.heap.slots f := by
  rw [← m.heap_emptied, ← m.emptied.slots_clearFrames m.cleared f, reset_eq]

/-- A teardown clears the frames in use that were made for a call or became the global frame since
the teardown before. Any other frame keeps what it holds. -/
theorem History.slots_reset_eq {m : Machine} {own : FrameRef → Prop} (history : m.History own)
    (f : FrameRef) :
    (own f → m.reset.2.keeper.inUse f = true →
      m.reset.2.heap.slots f = Array.replicate (m.heap.slots f).size .nil) ∧
    (¬ own f → m.reset.2.heap.slots f = m.heap.slots f) := by
  obtain ⟨known, entered⟩ := history.records.of_notes m.notes_emptied
  rw [m.inUse_reset, m.slots_reset]
  refine ⟨fun owned used => ?_, fun other => ?_⟩
  · rcases known f owned with on_record | gone
    · rw [if_pos (mem_cleared.2 ⟨on_record, used⟩)]
    · rw [gone] at used
      cases used
  · rw [if_neg fun found => other (entered f (mem_cleared.1 found).1)]

/-- Code with a lambda that stores a value in the first global slot. -/
def storing : Env where
  store :=
    { programs := #[some #[.intPush 7, .save .global 0]]
      lambdas := #[{ code := ⟨0⟩, maxStack := 1, params := 0, vars := 0 }] }
  host _ := .done ()

/-- Some slot of the global frame is not nil. -/
def storesGlobal (m : Machine) : Bool := (m.heap.slots m.globals).any (·.kind != .nil)

theorem exists_of_storesGlobal {m : Machine} (stores : m.storesGlobal = true) :
    ∃ v ∈ m.heap.slots m.globals, v ≠ .nil := by
  obtain ⟨v, found, other⟩ := Array.any_eq_true'.1 stores
  refine ⟨v, found, ?_⟩
  rintro rfl
  cases other

/-- A machine with a global frame, the second one, and with a frame of the host, the third one. -/
def furnished : Machine := (((Machine.new {}).initGlobals 1).2.frameOf #[.int 5]).2

/-- The teardown after a first call clears the global frame and leaves the frame of the host alone.
-/
theorem slots_reset_eq_storing :
    ∃ result m, storing.exec 9 ⟨0⟩ [] furnished = some (result, m) ∧ m.globals = ⟨1⟩ ∧
      (∃ v ∈ m.heap.slots ⟨1⟩, v ≠ .nil) ∧ m.reset.2.keeper.inUse ⟨1⟩ = true ∧
      m.reset.2.heap.slots ⟨1⟩ = Array.replicate (m.heap.slots ⟨1⟩).size .nil ∧
      m.reset.2.heap.slots ⟨2⟩ = m.heap.slots ⟨2⟩ := by
  have checked : ((storing.exec 9 ⟨0⟩ [] furnished).any fun ended =>
      ended.2.globals = ⟨1⟩ && ended.2.storesGlobal &&
        ended.2.reset.2.keeper.inUse ⟨1⟩) = true := by
    decide +kernel
  obtain ⟨⟨result, m⟩, ended, checks⟩ := (Option.any_eq_true _ _).1 checked
  simp only [Bool.and_eq_true, decide_eq_true_eq] at checks
  obtain ⟨⟨globals, stores⟩, used⟩ := checks
  have history := ((History.new {}).initGlobals 1).frameOf #[.int 5]
  have reset := (history.exec ended).slots_reset_eq
  have size : furnished.heap.frames.size = 3 := by decide +kernel
  refine ⟨result, m, ended, globals, globals ▸ exists_of_storesGlobal stores, used, ?_, ?_⟩
  · exact (reset ⟨1⟩).1 (.inl (.inr (by decide +kernel))) used
  · refine (reset ⟨2⟩).2 ?_
    intro owned
    rcases owned with (none | global) | ⟨new, -⟩
    · exact none
    · exact absurd global (by decide +kernel)
    · exact absurd (Nat.le_trans (Nat.le_of_eq size.symm) new) (by decide)

/-- What the global frame is given after a first teardown survives a second one, though the frame is
in use. -/
theorem reset_keeps_globals :
    let start := (Machine.new {}).initGlobals 1
    ∃ result result' first second, storing.exec 9 ⟨0⟩ [] start.2 = some (result, first) ∧
      storing.exec 9 ⟨0⟩ [] first.reset.2 = some (result', second) ∧
      second.reset.2.globals = start.1 ∧ second.reset.2.keeper.inUse start.1 = true ∧
      ∃ v ∈ second.reset.2.heap.slots start.1, v ≠ .nil := by
  have checked : ((storing.exec 9 ⟨0⟩ [] ((Machine.new {}).initGlobals 1).2).any fun ended =>
      (storing.exec 9 ⟨0⟩ [] ended.2.reset.2).any fun ended' =>
        ended'.2.reset.2.globals = ⟨1⟩ && ended'.2.reset.2.keeper.inUse ⟨1⟩ &&
          ended'.2.reset.2.storesGlobal) = true := by
    decide +kernel
  obtain ⟨⟨result, first⟩, ended, again⟩ := (Option.any_eq_true _ _).1 checked
  obtain ⟨⟨result', second⟩, ended', checks⟩ := (Option.any_eq_true _ _).1 again
  simp only [Bool.and_eq_true, decide_eq_true_eq] at checks
  obtain ⟨⟨globals, used⟩, stores⟩ := checks
  have kept := exists_of_storesGlobal stores
  have second_frame : ((Machine.new {}).initGlobals 1).1 = ⟨1⟩ := by decide +kernel
  rw [← second_frame] at globals used
  rw [globals] at kept
  exact ⟨result, result', first, second, ended, ended', globals, used, kept⟩

end Machine

end PlotMachine
