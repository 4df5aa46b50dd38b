import PlotMachine.Proofs.Bootup
import PlotMachine.Proofs.PoolTransparency
import PlotMachine.Proofs.Teardown

/-!
# What the host does to a machine

The host does to a machine what runs and calls do. Besides, it makes frames for itself, puts frames on
record, chooses the global frame, says which values it holds, and empties the record. Whatever the host
can ask for comes down to such services (`Operation.services_serve`), apart from a change of the limit
of the pool.
-/

namespace PlotMachine

namespace Machine

/-- A thing that the host does to a machine. -/
inductive Service : Machine → Machine → Prop
  | deed {m m' : Machine} (deed : m.Deed m') : Service m m'
  | newFrame (m : Machine) (status : FrameStatus) (length : Nat) :
      Service m (m.newFrame status length).2
  | frameOf (m : Machine) (slots : Array Value) : Service m (m.frameOf slots).2
  | register (m : Machine) (f : FrameRef) : Service m (m.register f)
  | globals (m : Machine) (f : FrameRef) : Service m { m with globals := f }
  | pin (m : Machine) (values : List Value) : Service m (m.pin values)
  | arena (m : Machine) (arena : Arena) : Service m { m with keeper := { m.keeper with arena } }

/-- The second machine comes from the first one by services. -/
def Services : Machine → Machine → Prop := Relation.ReflTransGen Service

namespace Services

variable {m m' m'' : Machine}

theorem refl (m : Machine) : m.Services m := Relation.ReflTransGen.refl

theorem of_service (service : m.Service m') : m.Services m' := Relation.ReflTransGen.single service

theorem trans (first : m.Services m') (second : m'.Services m'') : m.Services m'' :=
  Relation.ReflTransGen.trans first second

theorem of_deeds (deeds : m.Deeds m') : m.Services m' := by
  induction deeds with
  | refl => exact .refl m
  | tail _ deed ih => exact ih.trans (.of_service (.deed deed))

theorem of_changes (changes : m.Changes m') : m.Services m' := .of_deeds (.of_changes changes)

/-- The machine that goes with an answer is the one that was left. -/
theorem answer {α : Type} {x : α × Machine} {a : α} (services : m.Services x.2)
    (answered : some x = some (a, m')) : m.Services m' := by
  rwa [Option.some.inj answered] at services

end Services

variable (m : Machine)

theorem services_settled : m.Services m.settled := .of_service (.deed (.settle m _))

theorem services_setGlobals (f : FrameRef) : m.Services (m.setGlobals f) := by
  have registered := m.services_settled.trans (.of_service (.register _ f))
  have shared := registered.trans (.of_deeds (.of_deed (.change (.share _ m.settled.globals))))
  have replaced := shared.trans (.of_service (.globals _ f))
  exact replaced.trans (.of_changes (.letGo (.refl _) (.frame m.settled.globals)))

theorem services_hostFrame (length : Nat) : m.Services (m.hostFrame length).2 :=
  m.services_settled.trans (.of_service (.newFrame _ .shared length))

theorem services_initGlobals (length : Nat) : m.Services (m.initGlobals length).2 := by
  have made := m.services_settled.trans (.of_service (.newFrame _ .owned length))
  rw [initGlobals_eq]
  dsimp only
  exact made.trans (services_setGlobals _ _)

theorem services_setSlot (f : FrameRef) (slot : Nat) (v : Value) : m.Services (m.setSlot f slot v) := by
  have written : m.Changes _ := (Exec.stays_put (.frame f) slot v).after m
  have same : (Exec.put (.frame f) slot v).after m = m.setSlot f slot v := by
    rw [Exec.after, setSlot]
    cases Exec.put (.frame f) slot v m <;> rfl
  exact .of_changes (same ▸ written)

theorem services_clearFrame (f : FrameRef) : m.Services (m.clearFrame f) :=
  (Services.of_service (.deed (.fill m f _))).trans (.of_changes (Permits.letGoAll _ _))

theorem services_clearFrames (frames : Array FrameRef) : m.Services (m.clearFrames frames) := by
  have each (frames : List FrameRef) (m : Machine) : m.Services (frames.foldl clearFrame m) := by
    induction frames generalizing m with
    | nil => exact .refl m
    | cons f rest ih => exact (m.services_clearFrame f).trans (ih _)
  rw [clearFrames, ← Array.foldl_toList]
  exact (each _ m).trans (.of_changes (Permits.letGoAll _ _))

theorem services_reset : m.Services m.reset.2 := by
  have cut : m.Services (m.cutStack 0) := .of_changes (Permits.cutStack m 0)
  have emptied : m.Services m.emptied :=
    (cut.trans (.of_service (.deed (.stack _ _)))).trans (services_settled _)
  have cleared := emptied.trans (services_clearFrames _ m.cleared)
  rw [reset_eq]
  generalize m.emptied.clearFrames m.cleared = n at cleared
  exact cleared.trans (.of_service (.arena n {}))

end Machine

namespace Env

variable {env : Env} {fuel : Nat} {m m' : Machine}

theorem services_boot {globals : FrameRef} {made : List InstanceRef}
    {records : List (String × RecordRef)} {result : Except BootError (List InstanceRef)}
    (ended : env.boot fuel globals made records m = some (result, m')) : m.Services m' := by
  induction records generalizing m made with
  | nil =>
    cases ended
    exact .refl _
  | cons entry rest ih =>
    obtain ⟨module, record⟩ := entry
    rw [boot] at ended
    cases instantiated : env.instantiate fuel record m with
    | none =>
      rw [instantiated] at ended
      cases ended
    | some answer =>
      obtain ⟨outcome, back⟩ := answer
      have services := Machine.Services.of_deeds (deeds_instantiate instantiated)
      rw [instantiated] at ended
      cases outcome with
      | error failure =>
        cases ended
        exact services.trans (.of_changes (Machine.Permits.letGoAll _ _))
      | ok i =>
        have placed := services.trans (back.services_setSlot globals made.length (.record i))
        exact (placed.trans (.of_service (.pin _ _))).trans (ih ended)

theorem services_bootup {registry : Registry} {globals : Nat}
    {result : Except BootError (List InstanceRef)}
    (ended : env.bootup fuel registry globals m = some (result, m')) : m.Services m' := by
  have begun := m.services_initGlobals (max globals registry.records.size)
  obtain ⟨frame, m₀, back, same, booted, rfl⟩ := boot_of_bootup ended
  rw [same] at begun
  exact (begun.trans (services_boot booted)).trans (.of_service (.pin back _))

end Env

/-- What is answered goes with the machine that is left. -/
theorem Exec.outcome_snd {α : Type} (x : Exec α) (m : Machine) :
    (Exec.outcome (x m)).2 = x.after m := by
  rw [Exec.after]
  cases x m <;> rfl

/-- An operation comes down to services, unless it changes the limit of the pool. -/
theorem Operation.services_serve {o : Operation} {reply : o.Reply} {m m' : Machine}
    (served : o.serve m = some (reply, m')) (other : ∀ limit, o ≠ .setPoolLimit limit) :
    m.Services m' := by
  cases o with
  | call env fuel c args => exact .of_deeds (Env.deeds_invoke served)
  | exec env fuel l args => exact .of_deeds (Env.deeds_exec served)
  | instantiate env fuel r => exact .of_deeds (Env.deeds_instantiate served)
  | run env fuel c => exact .of_deeds (Env.deeds_run served)
  | bootup env fuel registry globals => exact Env.services_bootup served
  | request s q =>
    have changes : m.Changes _ := (q.stays_serve s (fun _ => [])).after m
    rw [← Exec.outcome_snd] at changes
    exact (Machine.Services.of_changes changes).answer served
  | newFrame length => exact (m.services_hostFrame length).answer served
  | frameOf slots => exact (Machine.Services.of_service (.frameOf m slots)).answer served
  | initGlobals length => exact (m.services_initGlobals length).answer served
  | setGlobals f => exact (m.services_setGlobals f).answer served
  | setSlot f slot v => exact (m.services_setSlot f slot v).answer served
  | clearFrame f => exact (m.services_clearFrame f).answer served
  | clearFrames frames => exact (m.services_clearFrames frames).answer served
  | reset => exact m.services_reset.answer served
  | setMaxDepth maxDepth =>
    cases served
    exact .of_service (.deed (.stack m _))
  | setInterrupt interrupt =>
    cases served
    exact .of_changes (.of_change (.interrupt m interrupt))
  | setPoolLimit limit => exact absurd rfl (other limit)
  | hold values => exact (Machine.Services.of_service (.pin m values)).answer served
  | drop values => exact (Machine.Services.of_changes (Machine.Permits.letGoAll m values)).answer served
  | settle => exact m.services_settled.answer served
  | look =>
    cases served
    exact .refl m

end PlotMachine
