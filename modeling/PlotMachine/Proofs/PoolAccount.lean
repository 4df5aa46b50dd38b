import PlotMachine.Proofs.Services

/-!
# The account of parked buffers

The number of parked buffers is stored beside them, in another place than where the buffers are kept.
`Pool.Account` says what ties the two together, and to the limit that was set last and to the frames
that were dropped. It outlasts all that is done to a pool: a frame is made, a frame is dropped, the
limit is changed.

`Machine.Parking` follows a machine through all this and keeps a list of the lengths of the dropped
frames. Whatever the host asks for and whatever a run does, frames that are dropped because the frame
that held them is dropped included, is a sequence of such events. So the account is right at every
point of every run (`Machine.Parking.account`).
-/

namespace PlotMachine

namespace Pool

/-- The count of a pool is right, it does not exceed the limit that was set last, and the buffers are
parked empty, each one under the length of a dropped frame of its own. The lengths of the dropped
frames are listed from the last one. -/
structure Account (p : Pool) (limit : Nat) (dropped : List Nat) : Prop where
  count : p.count = p.parked.length
  limit_eq : p.limit = limit
  bounded : p.count ≤ limit
  clean : p.Clean
  filed : (p.parked.map (·.length)).Sublist dropped

namespace Account

variable {p : Pool} {limit : Nat} {dropped : List Nat}

/-- A pool in which nothing is parked. -/
theorem empty (limit : Nat) (dropped : List Nat) : Account { limit } limit dropped :=
  ⟨rfl, rfl, Nat.zero_le limit, (Reachable.new limit).clean, List.nil_sublist dropped⟩

/-- A frame is made in a parked buffer or in a new one. -/
theorem take (account : p.Account limit dropped) (length : Nat) :
    (p.take length).2.Account limit dropped := by
  obtain ⟨count, limit_eq, bounded, clean, filed⟩ := account
  have clean' : (p.take length).2.Clean := All.take clean length
  rw [Pool.take] at clean' ⊢
  split at clean'
  · next b found =>
    have parked : (p.parked.eraseP (·.length == length)).length = p.parked.length - 1 :=
      List.length_eraseP_of_mem (List.mem_of_find?_eq_some found)
        (by simpa using List.find?_some found)
    exact ⟨by rw [parked, count], limit_eq, Nat.le_trans (Nat.sub_le _ _) bounded, clean',
      (List.eraseP_sublist.map _).trans filed⟩
  · exact ⟨count, limit_eq, bounded, clean, filed⟩

/-- A frame is dropped. Its buffer is parked if there is room. -/
theorem give (account : p.Account limit dropped) (slots : Array Value) :
    (p.give slots).Account limit (slots.size :: dropped) := by
  obtain ⟨count, limit_eq, bounded, clean, filed⟩ := account
  have clean' : (p.give slots).Clean := All.give clean slots
  unfold Pool.give at clean' ⊢
  by_cases room : p.count < p.limit
  · rw [if_pos room] at clean' ⊢
    exact ⟨congrArg (· + 1) count, limit_eq, limit_eq ▸ room, clean', filed.cons_cons slots.size⟩
  · rw [if_neg room]
    exact ⟨count, limit_eq, bounded, clean, filed.cons slots.size⟩

/-- The limit is changed. A pool with more buffers than that is emptied. -/
theorem setLimit (account : p.Account limit dropped) (n : Nat) :
    (p.setLimit n).Account n dropped := by
  rw [Pool.setLimit]
  split
  · exact empty n dropped
  · next room =>
    exact ⟨account.count, rfl, Nat.le_of_not_lt room, account.clean, account.filed⟩

end Account

end Pool

namespace Machine

/-- A machine with the limit that was set last and the lengths of the frames that were dropped, the
last one first. -/
inductive Parking : Machine → Nat → List Nat → Prop
  | new (settings : Settings) : Parking (.new settings) settings.poolLimit []
  | newFrame {m : Machine} {limit : Nat} {dropped : List Nat} (parking : Parking m limit dropped)
      (status : FrameStatus) (length : Nat) : Parking (m.newFrame status length).2 limit dropped
  | drop {m : Machine} {limit : Nat} {dropped : List Nat} (parking : Parking m limit dropped)
      (f : FrameRef) :
      Parking { m with keeper := m.keeper.release m.heap f } limit
        ((m.heap.slots f).size :: dropped)
  | setPoolLimit {m : Machine} {limit : Nat} {dropped : List Nat} (parking : Parking m limit dropped)
      (n : Nat) : Parking (m.withPool (m.keeper.pool.setLimit n)) n dropped
  /-- Whatever does not concern the pool, such as writing a slot. -/
  | other {m m' : Machine} {limit : Nat} {dropped : List Nat} (parking : Parking m limit dropped)
      (same : m'.keeper.pool = m.keeper.pool) : Parking m' limit dropped

/-- The pool of a machine has its account. -/
theorem Parking.pool {m : Machine} {limit : Nat} {dropped : List Nat}
    (parking : m.Parking limit dropped) : m.keeper.pool.Account limit dropped := by
  induction parking with
  | new settings => exact ((Pool.Account.empty 256 []).setLimit settings.poolLimit).take 0
  | newFrame _ status length ih => exact ih.take length
  | drop _ f ih => exact ih.give _
  | setPoolLimit _ n ih => exact ih.setLimit n
  | other _ same ih => rwa [same]

/-! ## What is done to the pool -/

/-- The second machine comes from the first one by making and dropping frames and by what does not
concern the pool. -/
def Drops (m m' : Machine) : Prop :=
  ∀ limit dropped, m.Parking limit dropped → ∃ more, m'.Parking limit (more ++ dropped)

namespace Drops

variable {m m' m'' : Machine}

theorem of_pool (same : m'.keeper.pool = m.keeper.pool) : m.Drops m' :=
  fun _ _ parking => ⟨[], parking.other same⟩

theorem refl (m : Machine) : m.Drops m := of_pool rfl

theorem trans (first : m.Drops m') (second : m'.Drops m'') : m.Drops m'' := by
  intro limit dropped parking
  obtain ⟨more, parking'⟩ := first limit dropped parking
  obtain ⟨more', parking''⟩ := second limit _ parking'
  exact ⟨more' ++ more, by rwa [List.append_assoc]⟩

/-- Nothing more concerns the pool after that. -/
theorem with_pool (drops : m.Drops m') (same : m''.keeper.pool = m'.keeper.pool) : m.Drops m'' :=
  drops.trans (of_pool same)

end Drops

theorem drops_release (m : Machine) (f : FrameRef) :
    m.Drops { m with keeper := m.keeper.release m.heap f } :=
  fun _ _ parking => ⟨[(m.heap.slots f).size], parking.drop f⟩

theorem drops_newFrame (m : Machine) (status : FrameStatus) (length : Nat) :
    m.Drops (m.newFrame status length).2 :=
  fun _ _ parking => ⟨[], parking.newFrame status length⟩

/-- The frames that nothing holds any more are dropped one after the other. -/
theorem drops_settle (m : Machine) (held : Heap → List Object) : m.Drops (m.settle held) := by
  have each (frames : List FrameRef) (k : Keeper) :
      ({ m with keeper := k } : Machine).Drops
        { m with keeper := frames.foldl (fun k f => k.release m.heap f) k } := by
    induction frames generalizing k with
    | nil => exact .refl _
    | cons f rest ih =>
      have first := drops_release { m with keeper := k } f
      exact first.trans (ih (k.release m.heap f))
  rw [settle]
  split
  · exact .refl m
  · exact (each _ m.keeper).with_pool rfl

theorem pool_change {m m' : Machine} (change : m.Change m') :
    m'.keeper.pool = m.keeper.pool := by
  cases change with
  | letGo v => exact m.pool_letGo v
  | share f => exact m.keeper.pool_share f
  | stack | heap | output | interrupt => rfl

theorem Deed.drops {m m' : Machine} (deed : m.Deed m') : m.Drops m' := by
  cases deed with
  | change change => exact .of_pool (pool_change change)
  | stack s => exact .of_pool rfl
  | settle held => exact m.drops_settle held
  | make length => exact (m.drops_newFrame .owned length).with_pool rfl
  | fill f g => exact .of_pool rfl
  | release f => exact m.drops_release f

theorem Deeds.drops {m m' : Machine} (deeds : m.Deeds m') : m.Drops m' := by
  induction deeds with
  | refl => exact .refl m
  | tail _ deed ih => exact ih.trans deed.drops

theorem Service.drops {m m' : Machine} (service : m.Service m') : m.Drops m' := by
  cases service with
  | deed deed => exact deed.drops
  | newFrame status length => exact m.drops_newFrame status length
  | frameOf | register | globals | pin | arena => exact .of_pool rfl

theorem Services.drops {m m' : Machine} (services : m.Services m') : m.Drops m' := by
  induction services with
  | refl => exact .refl m
  | tail _ service ih => exact ih.trans service.drops

end Machine

namespace Operation

/-- The limit of the pool after an operation. -/
def poolLimit : Operation → Nat → Nat
  | .setPoolLimit n, _ => n
  | _, limit => limit

/-- An operation other than a change of the limit makes and drops frames. -/
theorem parking_serve {o : Operation} {reply : o.Reply} {m m' : Machine}
    (served : o.serve m = some (reply, m')) {limit : Nat} {dropped : List Nat}
    (parking : m.Parking limit dropped) :
    ∃ more, m'.Parking (o.poolLimit limit) (more ++ dropped) := by
  by_cases changed : ∃ n, o = .setPoolLimit n
  · obtain ⟨n, rfl⟩ := changed
    cases served
    exact ⟨[], parking.setPoolLimit n⟩
  · have other : ∀ n, o ≠ .setPoolLimit n := fun n same => changed ⟨n, same⟩
    have kept : o.poolLimit limit = limit := by
      unfold poolLimit
      split
      · exact absurd rfl (other _)
      · rfl
    rw [kept]
    exact (services_serve served other).drops _ _ parking

end Operation

/-- After a session the pool of a machine has an account as before. -/
theorem Session.parking_run {α : Type} {s : Session α} {a : α} {m m' : Machine}
    (ended : s.run m = some (a, m')) {limit : Nat} {dropped : List Nat}
    (parking : m.Parking limit dropped) : ∃ limit' more, m'.Parking limit' (more ++ dropped) := by
  induction s generalizing m limit dropped with
  | done b =>
    cases ended
    exact ⟨limit, [], parking⟩
  | ask o next ih =>
    rw [run] at ended
    cases served : o.serve m with
    | none =>
      rw [served] at ended
      cases ended
    | some answer =>
      obtain ⟨reply, back⟩ := answer
      rw [served] at ended
      obtain ⟨more, parking'⟩ := o.parking_serve served parking
      obtain ⟨limit', more', parking''⟩ := ih reply ended parking'
      exact ⟨limit', more' ++ more, by rwa [List.append_assoc]⟩

namespace Machine

/-- Whatever was done to a machine, the count of its pool is the number of the buffers that are parked.
It does not exceed the limit that was set last. The parked buffers are empty, and each one is filed under
the length of a dropped frame of its own. A frame that is dropped is parked as long as there is room.
All that the host can ask for and every step of a run lead to machines of which the same is to be said,
with frames dropped on the way. -/
theorem Parking.account {m : Machine} {limit : Nat} {dropped : List Nat}
    (parking : m.Parking limit dropped) :
    let p := m.keeper.pool
    (p.count = p.parked.length ∧ p.count ≤ limit ∧ p.limit = limit) ∧
      (∀ b ∈ p.parked, b.buffer = #[]) ∧
      (p.parked.map (·.length)).Sublist dropped ∧
      (∀ f, p.parked.length < limit →
        (m.keeper.release m.heap f).pool.parked = ⟨(m.heap.slots f).size, #[]⟩ :: p.parked) ∧
      (∀ (o : Operation) reply m', o.serve m = some (reply, m') →
        ∃ more, m'.Parking (o.poolLimit limit) (more ++ dropped)) ∧
      ∀ (env : Env) tasks, ∃ more, (env.step ⟨tasks, m⟩).machine.Parking limit (more ++ dropped) := by
  intro p
  obtain ⟨count, limit_eq, bounded, clean, filed⟩ := parking.pool
  refine ⟨⟨count, bounded, limit_eq⟩, fun b parked => ?_, filed, fun f room => ?_,
    fun o reply m' served => o.parking_serve served parking,
    fun env tasks => (env.deeds_step ⟨tasks, m⟩).drops _ _ parking⟩
  · exact Array.eq_empty_iff_forall_not_mem.2 (clean b parked)
  · have fits : p.count < p.limit := count ▸ limit_eq ▸ room
    rw [Keeper.release, Pool.give, if_pos fits, Array.take_eq_extract, Array.extract_zero]

/-- A host that makes two frames, puts the first one into the second one and drops both. -/
def dropsBoth : Session Unit :=
  .ask (.newFrame 3) fun first =>
  .ask (.hold [.frame first]) fun _ =>
  .ask (.newFrame 2) fun second =>
  .ask (.setSlot second 0 (.frame first)) fun _ =>
  .ask (.hold [.frame second]) fun _ =>
  .ask (.drop [.frame first]) fun _ =>
  .ask (.hold []) fun _ =>
  .ask (.drop [.frame second]) fun _ =>
  .ask .settle .done

/-- The frame that is held by another one is dropped before it, and both buffers are parked. -/
theorem Parking.account_dropsBoth :
    ∃ m limit dropped, dropsBoth.run (.new {}) = some ((), m) ∧ m.Parking limit dropped ∧
      m.keeper.pool.count = 2 ∧ m.keeper.pool.parked.map (·.length) = [2, 3] ∧
      (∀ b ∈ m.keeper.pool.parked, b.buffer = #[]) ∧ [2, 3].Sublist dropped := by
  have checked : ((dropsBoth.run (.new {})).any fun ended =>
      ended.2.keeper.pool.parked.map (·.length) = [2, 3]) = true := by
    decide +kernel
  obtain ⟨⟨⟨⟩, m⟩, ended, checks⟩ := (Option.any_eq_true _ _).1 checked
  have filed : m.keeper.pool.parked.map (·.length) = [2, 3] := of_decide_eq_true checks
  obtain ⟨limit, dropped, parking⟩ := Session.parking_run ended (.new {})
  obtain ⟨⟨count, -⟩, clean, sublist, -⟩ := parking.account
  refine ⟨m, limit, dropped ++ [], ended, parking, ?_, filed, clean, filed ▸ sublist⟩
  rw [count, ← List.length_map, filed]
  rfl

end Machine

end PlotMachine
