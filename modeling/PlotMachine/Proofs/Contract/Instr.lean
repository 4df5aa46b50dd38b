import PlotMachine.Proofs.Contract.Primitive

/-!
# Instructions observe every contract

An instruction that a contract admits does nothing the contract rules out, and what it hands over to
the run (a callable, a native, a record type, a place to go on at) may come into play.
-/

namespace PlotMachine

namespace Contract

/-- An instruction of a program with the given length does nothing that the contract rules out. -/
def Admits (K : Contract) (home : ProgramRef) (length : Nat) : Instr → Prop
  | .constPush v => K.Fit v
  | .save .global _ => K.writes (.frame K.globals)
  | .save .field _ => ∀ o, K.holds o → K.writes o
  | .builtin fn => K.native fn
  | .jump _ target =>
    (target.program = some home ∧ target.offset ≤ length) ∨ ∀ f : Fault, K.failure f
  | .makeFunc l => K.lambda l
  | .alloc r => K.record r
  | _ => True

/-- A way for the run to go on that the contract does not rule out. -/
def Goes (K : Contract) (length : Nat) : Flow → Prop
  | .goto offset => offset ≤ length ∨ ∀ f : Fault, K.failure f
  | .call c => K.Calls c
  | .native fn => K.native fn
  | .construct r => K.record r
  | _ => True

end Contract

/-! ## Arithmetic faults are not about labels -/

/-- An operation that always has a result has no fault at all. -/
theorem isLabelFault_of_ok {α : Type} {a : α} {f : Fault}
    (failed : Except.ok a = .error f) : f.isLabelFault = false :=
  nomatch failed

theorem isLabelFault_of_exactly {op : Opcode} {n : Int} {f : Fault}
    (failed : exactly op n = .error f) : f.isLabelFault = false := by
  rw [exactly] at failed
  split at failed <;> cases failed
  rfl

theorem Arith.isLabelFault_of_onInts {op : Arith} {a b : Int64} {f : Fault}
    (failed : op.onInts a b = .error f) : f.isLabelFault = false := by
  cases op with
  | plus => exact isLabelFault_of_exactly failed
  | minus => exact isLabelFault_of_exactly failed
  | times => exact isLabelFault_of_exactly failed
  | divide =>
    simp only [onInts] at failed
    split at failed
    · cases failed
      rfl
    · exact isLabelFault_of_exactly failed

theorem isLabelFault_of_stepInt {up : Bool} {a : Int64} {f : Fault}
    (failed : stepInt up a = .error f) : f.isLabelFault = false := by
  rw [stepInt] at failed
  split at failed <;> exact isLabelFault_of_exactly failed

/-- Data that refer to nothing. -/
class Scalar (α : Type) [Payload α] : Prop where
  fit : ∀ (K : Contract) (a : α), K.Fit (Payload.toValue a)

instance : Scalar Bool := ⟨fun _ _ => trivial⟩

instance : Scalar Int64 := ⟨fun _ _ => trivial⟩

instance : Scalar Float := ⟨fun _ _ => trivial⟩

instance : Scalar String := ⟨fun _ _ => trivial⟩

namespace Exec

variable {K : Contract} {α β : Type} [Payload α] [Payload β] [Scalar β]

/-! ## The parts of instructions -/

theorem obeys_pushResult {x : Except Fault β}
    (tame : ∀ f, x = .error f → f.isLabelFault = false) :
    (do pushData (← ofExcept x) : Exec Unit).Obeys K fun _ => True :=
  (obeys_ofExcept (fun b _ => Scalar.fit K b) fun f failed => K.failure_of f (tame f failed)).bind
    fun _ known => obeys_push known

theorem obeys_binary {f : α → α → Except Fault β}
    (tame : ∀ a b e, f a b = .error e → e.isLabelFault = false) :
    (binary f).Obeys K fun _ => True :=
  obeys_takingAs fun b _ => obeys_takingAs fun a _ => obeys_pushResult (tame a b)

theorem obeys_unary {f : α → Except Fault β}
    (tame : ∀ a e, f a = .error e → e.isLabelFault = false) :
    (unary f).Obeys K fun _ => True :=
  obeys_popAs.bind fun a _ => obeys_pushResult (tame a)

omit [Payload α] [Payload β] [Scalar β]

/-- The object whose fields a value gives access to may be held if the value may. -/
theorem obeys_fieldOwner {v : Value} (fit : K.Fit v) : (fieldOwner v).Obeys K K.holds := by
  rw [fieldOwner]
  split
  · next o found =>
    apply obeys_pure
    cases v <;> cases found <;> exact fit
  · exact obeys_fault (K.failure_of _ rfl)

theorem obeys_globals : (view (·.globals)).Obeys K fun f => f = K.globals :=
  obeys_view fun _ holds => holds.globals

theorem obeys_loadFrom {frame : FrameRef} (held : K.holds (.frame frame)) (slot : Nat)
    (storage : Storage) : (loadFrom frame slot storage).Obeys K fun _ => True := by
  cases storage with
  | var => exact (obeys_get (.inl held) slot).bind fun _ fit => obeys_push fit
  | global =>
    refine obeys_globals.bind fun f same => ?_
    exact (obeys_get (.inr (same ▸ rfl)) slot).bind fun _ fit => obeys_push fit
  | field =>
    refine obeys_taking fun target fit => (obeys_fieldOwner fit).bind fun o held => ?_
    exact (obeys_get (.inl held) slot).bind fun _ fit => obeys_push fit

theorem obeys_saveTo {frame : FrameRef} {slot : Nat} {storage : Storage} {home : ProgramRef}
    {length : Nat} (may : K.writes (.frame frame))
    (admits : K.Admits home length (.save storage slot)) :
    (saveTo frame slot storage).Obeys K fun _ => True := by
  cases storage with
  | var => exact obeys_top.bind fun _ fit => obeys_put may slot fit
  | global =>
    refine obeys_top.bind fun v fit => obeys_globals.bind fun f same => ?_
    exact obeys_put (same ▸ admits) slot fit
  | field =>
    refine obeys_taking fun target fit => obeys_top.bind fun v fit' => ?_
    exact (obeys_fieldOwner fit).bind fun o held => obeys_put (admits o held) slot fit'

theorem obeys_stepTop (up : Bool) : (stepTop up).Obeys K fun _ => True := by
  refine obeys_top.bind fun v fit => (obeys_read fit).bind fun n _ => ?_
  refine (obeys_ofExcept (Q := fun _ => True) (fun _ _ => trivial) fun f failed =>
    K.failure_of f (isLabelFault_of_stepInt failed)).bind fun n' _ => ?_
  exact obeys_setTop trivial

theorem obeys_holds (condition : JumpCondition) : (holds condition).Obeys K fun _ => True := by
  cases condition with
  | always => exact obeys_pure trivial
  | when expected => exact obeys_popAs.bind fun _ _ => obeys_pure trivial

/-- A jump that is admitted goes to a place in its own program. -/
theorem obeys_target {home : ProgramRef} {length : Nat} {condition : JumpCondition}
    {target : Label} (admits : K.Admits home length (.jump condition target)) :
    (ofExcept (target.offsetIn home)).Obeys K fun offset => K.Goes length (.goto offset) := by
  rcases admits with ⟨own, inside⟩ | all
  · rw [Label.offsetIn, if_pos own]
    exact obeys_pure (.inl inside)
  · exact obeys_ofExcept (fun _ _ => .inr all) fun f _ => all f

/-- A frame that is pushed is shared from then on. -/
theorem obeys_share (frame : FrameRef) :
    (modify fun m => { m with keeper := m.keeper.share frame } : Exec Unit).Obeys K
      fun _ => True :=
  fun _ holds => ⟨trivial, holds.follows.congr rfl rfl rfl (by simp)⟩

/-! ## Instructions -/

/-- Going on with the next instruction is always possible. -/
theorem Obeys.next {x : Exec Unit} {length : Nat} (obeys : x.Obeys K fun _ => True) :
    (do x; return .next : Exec Flow).Obeys K (K.Goes length) :=
  obeys.bind fun _ _ => obeys_pure trivial

/-- An instruction that is admitted observes the contract. -/
theorem obeys_perform {home : ProgramRef} {length : Nat} {frame : FrameRef} {i : Instr}
    (held : K.holds (.frame frame)) (may : K.writes (.frame frame))
    (admits : K.Admits home length i) : (perform home frame i).Obeys K (K.Goes length) := by
  cases i with
  | pop => exact obeys_taking fun _ _ => obeys_pure trivial
  | intPush n =>
    refine Obeys.next (obeys_push ?_)
    exact Scalar.fit K n
  | constPush v => exact (obeys_push admits).next
  | load storage slot => exact (obeys_loadFrom held slot storage).next
  | save storage slot => exact (obeys_saveTo may admits).next
  | memCompare negated =>
    refine Obeys.next (obeys_taking fun b _ => obeys_taking fun a _ => obeys_push ?_)
    exact Scalar.fit K (a.sameRef b != negated)
  | funcCompare negated => exact (obeys_binary fun _ _ _ => isLabelFault_of_ok).next
  | intArith op => exact (obeys_binary fun _ _ _ => Arith.isLabelFault_of_onInts).next
  | intNegate => exact (obeys_unary fun _ _ => isLabelFault_of_exactly).next
  | intStep up => exact (obeys_stepTop up).next
  | intCompare cmp => exact (obeys_binary fun _ _ _ => isLabelFault_of_ok).next
  | logNot => exact (obeys_unary fun _ _ => isLabelFault_of_ok).next
  | logCompare negated => exact (obeys_binary fun _ _ _ => isLabelFault_of_ok).next
  | realArith op => exact (obeys_binary fun _ _ _ => isLabelFault_of_ok).next
  | realNegate => exact (obeys_unary fun _ _ => isLabelFault_of_ok).next
  | realCompare cmp => exact (obeys_binary fun _ _ _ => isLabelFault_of_ok).next
  | builtin fn => exact obeys_pure admits
  | jump condition target =>
    refine obeys_poll.bind fun _ _ => (obeys_target admits).bind fun offset goes => ?_
    refine (obeys_holds condition).bind fun taken _ => ?_
    cases taken with
    | true => exact obeys_pure goes
    | false => exact obeys_pure trivial
  | popCall => exact obeys_poll.bind fun _ _ => obeys_popAs.bind fun _ calls => obeys_pure calls
  | pushClosure =>
    have fit : K.Fit (.frame frame) := held
    exact (obeys_push fit).bind fun _ _ => (obeys_share frame).next
  | makeFunc body =>
    refine obeys_popAs.bind fun closure held => ?_
    have calls : ∀ id, K.Calls (.function id body (some closure)) := by
      rintro id
      refine ⟨admits, ?_⟩
      rintro f ⟨⟩
      exact held
    exact (obeys_newCallable calls).bind fun c calls => Obeys.next (obeys_push calls)
  | ret => exact obeys_pure trivial
  | alloc record => exact obeys_pure admits

end Exec

end PlotMachine
