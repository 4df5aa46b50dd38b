import PlotMachine.Proofs.Services

/-!
# What an arena remembers

An arena forgets frames that fell out of use from time to time, at moments that depend on how many
there were before. It never forgets one that is in use. So the frames in use among its entries are
those among all that were registered since the arena was swept, one for every time that a frame was
registered, and a sweep clears exactly these (`Arena.History.sweep_live`).
-/

namespace PlotMachine

namespace Machine

/-- No frame that is out of use in the first machine is in use in the second one. -/
def Releases (m m' : Machine) : Prop :=
  ∀ f, m.keeper.inUse f = false → m'.keeper.inUse f = false

theorem Deed.releases {m m' : Machine} (deed : m.Deed m') : m.Releases m' := by
  cases deed with
  | change change => exact change.notes.released
  | settle held => exact (m.notes_settle held).released
  | make length => exact (m.notes_newFrame .owned length).released
  | release f => exact (m.keeper.notes_release m.heap f).released
  | stack | fill => exact fun _ gone => gone

theorem Service.releases {m m' : Machine} (service : m.Service m') : m.Releases m' := by
  cases service with
  | deed deed => exact deed.releases
  | newFrame status length => exact (m.notes_newFrame status length).released
  | frameOf slots => exact (Keeper.notes_enter _ .shared _).released
  | register | globals | pin | arena => exact fun _ gone => gone

theorem Services.releases {m m' : Machine} (services : m.Services m') : m.Releases m' := by
  induction services with
  | refl => exact fun _ gone => gone
  | tail _ service ih => exact fun f gone => service.releases f (ih f gone)

end Machine

/-- A frame that fell out of use stays out of use whatever the host asks for. -/
theorem Operation.releases_serve {o : Operation} {reply : o.Reply} {m m' : Machine}
    (served : o.serve m = some (reply, m')) : m.Releases m' := by
  by_cases changed : ∃ limit, o = .setPoolLimit limit
  · obtain ⟨limit, rfl⟩ := changed
    cases served
    exact fun _ gone => gone
  · exact (services_serve served fun limit same => changed ⟨limit, same⟩).releases

namespace Arena

/-- An arena beside a machine, with the frames that were registered since the arena was swept, the
first one first, and with how many of these were in use when frames were forgotten the last time. -/
inductive History : Arena → Machine → List FrameRef → Nat → Prop
  | new {a : Arena} (m : Machine) (empty : a.entries = #[]) (early : a.pruneAt ≤ pruneFloor) :
      History a m [] 0
  /-- Frames are forgotten when the number of entries has reached the threshold. -/
  | register {a : Arena} {m : Machine} {frames : List FrameRef} {left : Nat}
      (history : History a m frames left) (f : FrameRef) :
      History (a.register m.keeper.inUse f) m (frames ++ [f])
        (if a.pruneAt ≤ a.entries.size + 1 then (frames ++ [f]).countP m.keeper.inUse else left)
  /-- Frames may fall out of use. -/
  | release {a : Arena} {m m' : Machine} {frames : List FrameRef} {left : Nat}
      (history : History a m frames left) (releases : m.Releases m') : History a m' frames left
  | sweep {a : Arena} {m : Machine} {frames : List FrameRef} {left : Nat}
      (history : History a m frames left) : History (m.sweep a).2.1 (m.sweep a).2.2 [] 0

/-- The entries of an arena that are in use are the registered frames that are in use. -/
structure Remembers (a : Arena) (inUse : FrameRef → Bool) (frames : List FrameRef) (left : Nat) :
    Prop where
  live : (a.live inUse).toList = frames.filter inUse
  pruneAt_le : a.pruneAt ≤ max pruneFloor (2 * left)

namespace Remembers

variable {a : Arena} {inUse inUse' : FrameRef → Bool} {frames : List FrameRef} {left : Nat}

theorem of_empty (empty : a.entries = #[]) (early : a.pruneAt ≤ pruneFloor) :
    a.Remembers inUse [] 0 where
  live := by rw [Arena.live, empty, Array.filter_empty]; rfl
  pruneAt_le := early

/-- What falls out of use in the arena falls out of use among the registered frames. -/
theorem release (remembers : a.Remembers inUse frames left)
    (releases : ∀ f, inUse f = false → inUse' f = false) : a.Remembers inUse' frames left where
  live := by
    have first : inUse' = fun f => inUse' f && inUse f := by
      funext f
      cases used : inUse f with
      | false => rw [releases f used, Bool.and_false]
      | true => rw [Bool.and_true]
    have live := congrArg (List.filter inUse') remembers.live
    rw [Arena.live, Array.toList_filter, List.filter_filter, List.filter_filter, ← first] at live
    rw [Arena.live, Array.toList_filter, live]
  pruneAt_le := remembers.pruneAt_le

theorem register (remembers : a.Remembers inUse frames left) (f : FrameRef) :
    (a.register inUse f).Remembers inUse (frames ++ [f])
      (if a.pruneAt ≤ a.entries.size + 1 then (frames ++ [f]).countP inUse else left) := by
  have live : ((a.entries.push f).filter inUse).toList = (frames ++ [f]).filter inUse := by
    rw [Array.toList_filter, Array.toList_push, List.filter_append, List.filter_append,
      ← remembers.live, Arena.live, Array.toList_filter]
  have kept : ((a.entries.push f).filter inUse).size = (frames ++ [f]).countP inUse := by
    rw [List.countP_eq_length_filter, ← live, Array.length_toList]
  have grown : a.entries.size + 1 = (a.entries.push f).size := (Array.size_push f).symm
  rw [grown]
  unfold Arena.register
  dsimp only
  split
  · refine ⟨?_, ?_⟩
    · rw [Arena.live, Array.toList_filter, live, List.filter_filter]
      simp only [Bool.and_self]
    · rw [kept, Nat.max_comm]
  · exact ⟨live, remembers.pruneAt_le⟩

end Remembers

/-- Fewer entries than the threshold are left when a frame was entered. -/
theorem size_register_lt (a : Arena) (inUse : FrameRef → Bool) (f : FrameRef) :
    (a.register inUse f).entries.size < (a.register inUse f).pruneAt := by
  unfold Arena.register
  dsimp only
  split
  · dsimp only [pruneFloor]
    omega
  · next room => exact Nat.lt_of_not_le room

theorem History.remembers {a : Arena} {m : Machine} {frames : List FrameRef} {left : Nat}
    (history : a.History m frames left) : a.Remembers m.keeper.inUse frames left := by
  induction history with
  | new m empty early => exact .of_empty empty early
  | register _ f ih => exact ih.register f
  | release _ releases ih => exact ih.release releases
  | sweep _ _ => exact .of_empty rfl (Nat.le_refl pruneFloor)

/-- However frames were registered, fell out of use and were cleared in sweeps, the entries of an arena
that are in use are as many as the registrations since it was swept whose frame is in use. The threshold
is at most twice their number when frames were forgotten the last time, or the least one there is, and
fewer entries are left whenever a frame is registered. A sweep answers how many entries are in use,
clears exactly the frames among them, and leaves nothing in the arena. All that the host can ask for and
every step of a run count as frames falling out of use. -/
theorem History.sweep_live {a : Arena} {m : Machine} {frames : List FrameRef} {left : Nat}
    (history : a.History m frames left) :
    (a.live m.keeper.inUse).size = frames.countP m.keeper.inUse ∧
      a.pruneAt ≤ max 64 (2 * left) ∧
      (∀ f, (a.register m.keeper.inUse f).entries.size < (a.register m.keeper.inUse f).pruneAt) ∧
      ((m.sweep a).1 = (a.live m.keeper.inUse).size ∧ (m.sweep a).2.1.entries = #[] ∧
        ∀ f, (m.sweep a).2.2.heap.slots f =
          if f ∈ frames ∧ m.keeper.inUse f = true then Array.replicate (m.heap.slots f).size .nil
          else m.heap.slots f) ∧
      (∀ (o : Operation) reply m', o.serve m = some (reply, m') → a.History m' frames left) ∧
      ∀ (env : Env) tasks, a.History (env.step ⟨tasks, m⟩).machine frames left := by
  obtain ⟨live, pruneAt_le⟩ := history.remembers
  refine ⟨?_, pruneAt_le, a.size_register_lt m.keeper.inUse, ⟨rfl, rfl, fun f => ?_⟩,
    fun o reply m' served => history.release (o.releases_serve served), fun env tasks => ?_⟩
  · rw [← Array.length_toList, live, List.countP_eq_length_filter]
  · have cleared : f ∈ a.live m.keeper.inUse ↔ f ∈ frames ∧ m.keeper.inUse f = true := by
      rw [← Array.mem_toList_iff, live, List.mem_filter]
    simp only [← cleared]
    exact m.slots_clearFrames (a.live m.keeper.inUse) f
  · have step := Machine.Services.of_deeds (env.deeds_step ⟨tasks, m⟩)
    exact history.release step.releases

/-- A machine with three frames of the host. -/
def guests : Machine :=
  ((((Machine.new {}).frameOf #[.int 5]).2.frameOf #[.int 6]).2.frameOf #[.int 7]).2

/-- The same machine without the second frame. -/
def fewerGuests : Machine := { guests with keeper := guests.keeper.release guests.heap ⟨2⟩ }

/-- If the first two of the frames are registered before the second one falls out of use, the first one
is cleared and the third one is left alone. -/
theorem History.sweep_live_guests :
    ∃ a : Arena, a.History fewerGuests [⟨1⟩, ⟨2⟩] 0 ∧ (a.live fewerGuests.keeper.inUse).size = 1 ∧
      (fewerGuests.sweep a).1 = 1 ∧ (fewerGuests.sweep a).2.2.heap.slots ⟨1⟩ = #[.nil] ∧
      (fewerGuests.sweep a).2.2.heap.slots ⟨3⟩ = fewerGuests.heap.slots ⟨3⟩ := by
  let a := (({} : Arena).register guests.keeper.inUse ⟨1⟩).register guests.keeper.inUse ⟨2⟩
  have both : a.History guests [⟨1⟩, ⟨2⟩] 0 :=
    ((History.new guests rfl (Nat.le_refl 64)).register ⟨1⟩).register ⟨2⟩
  have history : a.History fewerGuests [⟨1⟩, ⟨2⟩] 0 :=
    both.release (Machine.Deed.release guests ⟨2⟩).releases
  obtain ⟨live, -, -, ⟨count, -, slots⟩, -⟩ := history.sweep_live
  have one : [(⟨1⟩ : FrameRef), ⟨2⟩].countP fewerGuests.keeper.inUse = 1 := by decide
  have cleared : (fewerGuests.heap.slots ⟨1⟩).size = 1 := by decide
  refine ⟨a, history, live.trans one, count.trans (live.trans one), ?_, ?_⟩
  · rw [slots, if_pos (by decide), cleared]
    rfl
  · rw [slots, if_neg (by decide)]

end Arena

end PlotMachine
