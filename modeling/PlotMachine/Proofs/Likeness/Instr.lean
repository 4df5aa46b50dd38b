import PlotMachine.Proofs.Likeness

/-!
# Instructions on machines that are alike

`Exec.Alike` says of two computations that they do the same in machines that are alike: they have
results that are alike and leave machines that are alike, or both fail, unless one of them fails in a
way that is excused. A computation that is alike to itself is `Exec.Steady`. Every instruction is
alike to itself (`Exec.alike_perform`), since none looks at the height of the stack, its limits or the
account of frames. A native may ask for the height of the stack; one that does not is alike to itself
up to its end or its next call (`Likeness.Unaware.advance`).
-/

namespace PlotMachine

namespace Likeness

variable (L : Likeness) {α β γ δ : Type}

/-- Results of computations in machines that are alike. -/
inductive Results (R : α → β → Prop) :
    EStateM.Result Failure Machine α → EStateM.Result Failure Machine β → Prop
  | ok {a : α} {b : β} {m₁ m₂ : Machine} (same : R a b) (machines : L.Machines m₁ m₂) :
      Results R (.ok a m₁) (.ok b m₂)
  | error {f₁ f₂ : Failure} {m₁ m₂ : Machine} (same : L.failures f₁ f₂)
      (machines : L.Machines m₁ m₂) : Results R (.error f₁ m₁) (.error f₂ m₂)
  | excused₁ {f : Failure} {m : Machine} (excused : L.excused₁ f.fault)
      (result : EStateM.Result Failure Machine β) : Results R (.error f m) result
  | excused₂ {f : Failure} {m : Machine} (excused : L.excused₂ f.fault)
      (result : EStateM.Result Failure Machine α) : Results R result (.error f m)

/-- The same failure in machines that are alike. -/
theorem Results.fault {L : Likeness} {R : α → β → Prop} {m₁ m₂ : Machine} (f : Failure)
    (machines : L.Machines m₁ m₂) : L.Results R (.error f m₁) (.error f m₂) :=
  .error (L.failures_refl f) machines

end Likeness

namespace Exec

variable {L : Likeness} {α β γ δ : Type}

/-- Two computations do the same in machines that are alike. -/
def Alike (L : Likeness) (R : α → β → Prop) (x : Exec α) (y : Exec β) : Prop :=
  ∀ m₁ m₂ : Machine, L.Machines m₁ m₂ → L.Results R (x m₁) (y m₂)

/-- A computation does the same in all machines that are alike. -/
def Steady (L : Likeness) (x : Exec α) : Prop := Alike L Eq x x

/-- One computation after another. -/
theorem Alike.bind {R : α → β → Prop} {S : γ → δ → Prop} {x : Exec α} {y : Exec β}
    {f : α → Exec γ} {g : β → Exec δ} (first : Alike L R x y)
    (second : ∀ a b, R a b → Alike L S (f a) (g b)) : Alike L S (x >>= f) (y >>= g) := by
  intro m₁ m₂ machines
  have results := first m₁ m₂ machines
  simp only [Bind.bind, EStateM.bind]
  generalize x m₁ = result₁, y m₂ = result₂ at results
  cases results with
  | ok same machines' => exact second _ _ same _ _ machines'
  | error same machines' => exact .error same machines'
  | excused₁ excused result => exact .excused₁ excused _
  | excused₂ excused result => exact .excused₂ excused _

/-- A steady computation before others that do the same. -/
theorem Steady.alike_bind {S : γ → δ → Prop} {x : Exec α} {f : α → Exec γ} {g : α → Exec δ}
    (first : Steady L x) (second : ∀ a, Alike L S (f a) (g a)) :
    Alike L S (x >>= f) (x >>= g) := by
  refine Alike.bind first ?_
  rintro a _ rfl
  exact second a

theorem Steady.bind {x : Exec α} {f : α → Exec β} (first : Steady L x)
    (second : ∀ a, Steady L (f a)) : Steady L (x >>= f) :=
  first.alike_bind second

theorem alike_pure {R : α → β → Prop} {a : α} {b : β} (same : R a b) :
    Alike L R (pure a) (pure b) :=
  fun _ _ machines => .ok same machines

theorem alike_fault {R : α → β → Prop} (f : Fault) : Alike L R (fault f) (fault f) :=
  fun _ _ machines => .fault f machines

/-! ## Primitive computations -/

theorem steady_pure (a : α) : Steady L (pure a) := alike_pure rfl

theorem steady_fault (f : Fault) : Steady L (fault f : Exec α) := alike_fault f

theorem steady_ofExcept (x : Except Fault α) : Steady L (ofExcept x) := by
  cases x with
  | ok a => exact steady_pure a
  | error f => exact steady_fault f

theorem alike_view {R : α → β → Prop} {f : Machine → α} {g : Machine → β}
    (same : ∀ {m₁ m₂ : Machine}, L.Machines m₁ m₂ → R (f m₁) (g m₂)) :
    Alike L R (view f) (view g) :=
  fun _ _ machines => .ok (same machines) machines

/-- What is read off the heap is the same. -/
theorem steady_viewHeap (f : Heap → α) : Steady L (view fun m => f m.heap) :=
  alike_view fun machines => congrArg f machines.heap.symm

theorem steady_push (v : Value) : Steady L (push v) := by
  intro m₁ m₂ machines
  obtain ⟨k, height₁, height₂⟩ := machines.stack.height
  unfold push Stack.isFull
  rw [height₁, height₂]
  -- there is room in both stacks or in none, or one of them may be out of room
  rcases L.room machines.stack.ceiling k with
    ⟨room₁, room₂⟩ | ⟨full₁, full₂, same⟩ | ⟨full₁, excused⟩ | ⟨full₂, excused⟩
  · rw [if_neg (by simpa using room₁), if_neg (by simpa using room₂)]
    exact .ok rfl (machines.withStack (machines.stack.push v))
  · rw [if_pos (by simpa using full₁), if_pos (by simpa using full₂)]
    exact .error same (machines.letGo v)
  · rw [if_pos (by simpa using full₁)]
    exact .excused₁ excused _
  · rw [if_pos (c := decide (m₂.stack.ceiling ≤ L.bottom₂.size + k) = true) (by simpa using full₂)]
    exact .excused₂ excused _

theorem steady_pop : Steady L pop := by
  intro m₁ m₂ machines
  unfold pop
  rw [machines.stack.top?]
  cases found : m₁.stack.top? with
  | none => exact .fault _ machines
  | some v => exact .ok rfl (machines.withStack (machines.stack.drop found))

theorem steady_top : Steady L top := by
  intro m₁ m₂ machines
  unfold top
  rw [machines.stack.top?]
  cases m₁.stack.top? with
  | none => exact .fault _ machines
  | some v => exact .ok rfl machines

theorem alike_taking {R : α → β → Prop} {body₁ : Value → Exec α} {body₂ : Value → Exec β}
    (alike : ∀ v, Alike L R (body₁ v) (body₂ v)) : Alike L R (taking body₁) (taking body₂) := by
  intro m₁ m₂ machines
  unfold taking
  rw [machines.stack.top?]
  cases found : m₁.stack.top? with
  | none => exact .fault _ machines
  | some v =>
    have results := alike v _ _ (machines.withStack (machines.stack.drop found))
    dsimp only
    generalize body₁ v { m₁ with stack := m₁.stack.drop } = result₁,
      body₂ v { m₂ with stack := m₂.stack.drop } = result₂ at results
    cases results with
    | ok same machines' => exact .ok same (machines'.letGo v)
    | error same machines' => exact .error same (machines'.letGo v)
    | excused₁ excused result => exact .excused₁ excused _
    | excused₂ excused result => exact .excused₂ excused _

theorem steady_popAs [Payload α] : Steady L (popAs α) :=
  alike_taking fun v => steady_ofExcept v.read

theorem steady_takingAs [Payload α] {body : α → Exec β} (steady : ∀ a, Steady L (body a)) :
    Steady L (takingAs body) :=
  alike_taking fun v => (steady_ofExcept v.read).bind steady

theorem steady_setTop (v : Value) : Steady L (setTop v) := by
  intro m₁ m₂ machines
  unfold setTop
  rw [machines.stack.top?]
  cases found : m₁.stack.top? with
  | none => exact .fault _ machines
  | some old =>
    have matched := (machines.stack.drop found).push v
    exact .ok rfl ((machines.withStack matched).letGo old)

theorem steady_get (o : Object) (index : Nat) : Steady L (get o index) := by
  intro m₁ m₂ machines
  unfold get inspect
  dsimp only
  rw [machines.heap]
  cases m₁.heap.get o index with
  | error e => exact .fault e machines
  | ok v => exact .ok rfl machines

theorem steady_put (o : Object) (index : Nat) (v : Value) : Steady L (put o index v) := by
  intro m₁ m₂ machines
  unfold put
  rw [machines.heap]
  cases m₁.heap.get o index with
  | error e => exact .fault e machines
  | ok old => exact .ok rfl ((machines.withHeap rfl).letGo old)

/-- A change of the heap that answers something. -/
theorem steady_heap (f : Heap → α × Heap) :
    Steady L fun m => .ok (f m.heap).1 { m with heap := (f m.heap).2 } := by
  intro m₁ m₂ machines
  dsimp only
  rw [machines.heap]
  exact .ok rfl (machines.withHeap rfl)

theorem steady_newArray (items : Array Value) : Steady L (newArray items) :=
  steady_heap fun h => h.addArray items

theorem steady_newCallable (make : Nat → Callable) : Steady L (newCallable make) :=
  steady_heap fun h => (make h.takeNumber.1, h.takeNumber.2)

theorem steady_poll : Steady L poll := by
  intro m₁ m₂ machines
  unfold poll
  rw [machines.interrupt]
  by_cases stopped : (m₁.interrupt.installed && m₁.interrupt.raised) = true
  · rw [if_pos stopped, if_pos stopped]
    exact .fault _ machines
  · rw [if_neg stopped, if_neg stopped]
    exact .ok rfl machines

/-! ## Instructions -/

section Operators

variable [Payload α] [Payload β]

theorem steady_pushResult (x : Except Fault β) :
    Steady L (do pushData (← ofExcept x) : Exec Unit) :=
  (steady_ofExcept x).bind fun b => steady_push (Payload.toValue b)

theorem steady_binary (f : α → α → Except Fault β) : Steady L (binary f) :=
  steady_takingAs fun b => steady_takingAs fun a => steady_pushResult (f a b)

theorem steady_unary (f : α → Except Fault β) : Steady L (unary f) :=
  steady_popAs.bind fun a => steady_pushResult (f a)

end Operators

theorem steady_fieldOwner (v : Value) : Steady L (fieldOwner v) := by
  unfold fieldOwner
  cases v.object? with
  | none => exact steady_fault _
  | some o => exact steady_pure o

theorem steady_pushFrom (o : Object) (slot : Nat) :
    Steady L (do push (← get o slot) : Exec Unit) :=
  (steady_get o slot).bind steady_push

/-- The global frame is the same. -/
theorem steady_globals : Steady L (view (·.globals)) :=
  alike_view fun machines => machines.globals.symm

theorem steady_loadFrom (frame : FrameRef) (slot : Nat) (storage : Storage) :
    Steady L (loadFrom frame slot storage) := by
  cases storage with
  | var => exact steady_pushFrom (.frame frame) slot
  | global => exact steady_globals.bind fun f => steady_pushFrom (.frame f) slot
  | field =>
    exact alike_taking fun target =>
      (steady_fieldOwner target).bind fun o => steady_pushFrom o slot

theorem steady_saveTo (frame : FrameRef) (slot : Nat) (storage : Storage) :
    Steady L (saveTo frame slot storage) := by
  cases storage with
  | var => exact steady_top.bind fun v => steady_put (.frame frame) slot v
  | global =>
    exact steady_top.bind fun v => steady_globals.bind fun f => steady_put (.frame f) slot v
  | field =>
    refine alike_taking fun target => steady_top.bind fun v => ?_
    exact (steady_fieldOwner target).bind fun o => steady_put o slot v

theorem steady_stepTop (up : Bool) : Steady L (stepTop up) := by
  refine steady_top.bind fun v => (steady_ofExcept _).bind fun n => ?_
  exact (steady_ofExcept _).bind fun n' => steady_setTop (.int n')

theorem steady_holds (condition : JumpCondition) : Steady L (holds condition) := by
  cases condition with
  | always => exact steady_pure true
  | when expected => exact steady_popAs.bind fun b => steady_pure (b == expected)

theorem steady_share (frame : FrameRef) :
    Steady L (modify fun m => { m with keeper := m.keeper.share frame } : Exec Unit) :=
  fun _ _ machines => .ok rfl (machines.keep (Keeper.blind_share frame))

/-- The same way to go on, with a native only after an instruction that runs it. -/
def SameFlow (i : Instr) (a b : Flow) : Prop := a = b ∧ ∀ fn, a = .native fn → i = .builtin fn

theorem Steady.next {i : Instr} {x : Exec Unit} (steady : Steady L x) :
    Alike L (SameFlow i) (do x; return .next) (do x; return .next) :=
  steady.alike_bind fun _ => alike_pure ⟨rfl, nofun⟩

/-- Every instruction does the same in machines that are alike. -/
theorem alike_perform (home : ProgramRef) (frame : FrameRef) (i : Instr) :
    Alike L (SameFlow i) (perform home frame i) (perform home frame i) := by
  cases i with
  | pop => exact alike_taking fun _ => alike_pure ⟨rfl, nofun⟩
  | intPush n => exact (steady_push (.int n)).next
  | constPush v => exact (steady_push v).next
  | load storage slot => exact (steady_loadFrom frame slot storage).next
  | save storage slot => exact (steady_saveTo frame slot storage).next
  | memCompare negated =>
    have compared : Steady L
        (taking fun b => taking fun a => push (.bool (a.sameRef b != negated))) :=
      alike_taking fun b => alike_taking fun a => steady_push _
    exact compared.next
  | funcCompare negated => exact (steady_binary _).next
  | intArith op => exact (steady_binary op.onInts).next
  | intNegate => exact (steady_unary negateInt).next
  | intStep up => exact (steady_stepTop up).next
  | intCompare cmp => exact (steady_binary _).next
  | logNot => exact (steady_unary _).next
  | logCompare negated => exact (steady_binary _).next
  | realArith op => exact (steady_binary _).next
  | realNegate => exact (steady_unary _).next
  | realCompare cmp => exact (steady_binary _).next
  | builtin fn =>
    refine alike_pure ⟨rfl, ?_⟩
    rintro _ ⟨⟩
    rfl
  | jump condition target =>
    refine steady_poll.alike_bind fun _ => (steady_ofExcept _).alike_bind fun offset => ?_
    refine (steady_holds condition).alike_bind fun taken => ?_
    cases taken with
    | true => exact alike_pure ⟨rfl, nofun⟩
    | false => exact alike_pure ⟨rfl, nofun⟩
  | popCall =>
    refine steady_poll.alike_bind fun _ => steady_popAs.alike_bind fun c => ?_
    exact alike_pure ⟨rfl, nofun⟩
  | pushClosure =>
    exact (steady_push (.frame frame)).alike_bind fun _ => (steady_share frame).next
  | makeFunc body =>
    refine steady_popAs.alike_bind fun closure => (steady_newCallable _).alike_bind fun c => ?_
    exact (steady_push (.callable c)).next
  | ret => exact alike_pure ⟨rfl, nofun⟩
  | alloc record => exact alike_pure ⟨rfl, nofun⟩

end Exec

/-! ## Natives -/

/-- Whether a request looks at values that are out of reach, if only at their number, or at the frames
in use. -/
def Request.pries : Request → Bool
  | .height | .values | .liveFrames => true
  | _ => false

/-- A native neither calls anything nor looks beyond its reach. -/
def Routine.Reserved {α : Type} : Routine α → Prop
  | .done _ | .fail _ => True
  | .ask q next => q.pries = false ∧ ∀ reply, (next reply).Reserved
  | .invoke _ _ => False

namespace Likeness

variable (L : Likeness) {α : Type}

/-- A native that cannot tell machines apart that are alike. -/
def Unaware (r : Routine α) : Prop := L.strict ∨ r.Reserved

/-- How far a native gets in machines that are alike. -/
inductive Pauses : Routine.Pause α × Machine → Routine.Pause α × Machine → Prop
  | done (a : α) {m₁ m₂ : Machine} (machines : L.Machines m₁ m₂) :
      Pauses (.done a, m₁) (.done a, m₂)
  | failed {f₁ f₂ : Failure} {m₁ m₂ : Machine} (same : L.failures f₁ f₂)
      (machines : L.Machines m₁ m₂) : Pauses (.failed f₁, m₁) (.failed f₂, m₂)
  -- a native that waits for a call handles its failure, so it has to be the same failure
  | calling (strict : L.strict) (c : Callable) (taken : List Value)
      (next : Except Failure Unit → Routine α) {m₁ m₂ : Machine} (machines : L.Machines m₁ m₂) :
      Pauses (.calling c taken next, m₁) (.calling c taken next, m₂)
  | excused₁ {f : Failure} {m : Machine} (excused : L.excused₁ f.fault)
      (pause : Routine.Pause α × Machine) : Pauses (.failed f, m) pause
  | excused₂ {f : Failure} {m : Machine} (excused : L.excused₂ f.fault)
      (pause : Routine.Pause α × Machine) : Pauses pause (.failed f, m)

variable {L}

/-- A request is answered in the same way, unless it looks beyond the reach of the call. -/
theorem alike_serve {s₁ s₂ : Store} (texts : ∀ h v, s₂.text h v = s₁.text h v)
    (held : Heap → List Object) {q : Request} (unaware : L.strict ∨ q.pries = false) :
    Exec.Alike L Eq (q.serve s₁ held) (q.serve s₂ held) := by
  cases q with
  | push v => exact Exec.steady_push v
  | pop => exact Exec.steady_pop
  | top => exact Exec.steady_top
  | setTop v => exact Exec.steady_setTop v
  | height =>
    have strict : L.strict := unaware.resolve_right nofun
    refine Exec.alike_view fun machines => ?_
    unfold Stack.height
    rw [machines.stack.values_eq strict]
  | available => exact Exec.alike_view fun machines => machines.stack.available.symm
  | values =>
    have strict : L.strict := unaware.resolve_right nofun
    exact Exec.alike_view fun machines => (machines.stack.values_eq strict).symm
  | depth => exact Exec.alike_view fun machines => machines.stack.depth.symm
  | globals => exact Exec.alike_view fun machines => machines.globals.symm
  | liveFrames =>
    have strict : L.strict := unaware.resolve_right nofun
    refine Exec.alike_view fun {m₁ m₂} machines => ?_
    have settled : L.Machines (m₁.settle held) (m₂.settle held) := machines.settle fun _ => rfl
    unfold Machine.liveFrames
    rw [settled.keeper.same strict]
    rfl
  | newArray items => exact Exec.steady_newArray items
  | blankArray length => exact Exec.steady_newArray (Array.replicate length .nil)
  | items a => exact Exec.steady_viewHeap (·.items a)
  | getItem a index => exact Exec.steady_get (.array a) index
  | setItem a index v => exact Exec.steady_put (.array a) index v
  | append a v => exact Exec.steady_heap fun h => ((), h.append a v)
  | newThunk func arg => exact Exec.steady_newCallable (.thunk · func arg)
  | text v =>
    refine Exec.alike_view fun machines => ?_
    rw [texts, machines.heap]
  | write t =>
    intro m₁ m₂ machines
    exact .ok rfl { machines with output := congrArg (· ++ t) machines.output }
  | interrupt =>
    intro m₁ m₂ machines
    refine .ok rfl { machines with interrupt := ?_ }
    exact congrArg ({ · with raised := true }) machines.interrupt

/-- A native does the same in machines that are alike, up to its end or its next call. -/
theorem Unaware.advance {r : Routine α} (unaware : L.Unaware r) {s₁ s₂ : Store}
    (texts : ∀ h v, s₂.text h v = s₁.text h v) (held : Heap → List Object) (taken : List Value)
    {m₁ m₂ : Machine} (machines : L.Machines m₁ m₂) :
    L.Pauses (r.advance s₁ held taken m₁) (r.advance s₂ held taken m₂) := by
  induction r generalizing taken m₁ m₂ with
  | done a => exact .done a (machines.letGoAll taken)
  | fail f => exact .failed (L.failures_refl f) (machines.letGoAll taken)
  | invoke c next _ =>
    have strict : L.strict := unaware.resolve_right id
    exact .calling strict c (.callable c :: taken) next machines
  | ask q next ih =>
    have answers := alike_serve texts (Routine.holding taken held) (unaware.imp_right And.left) m₁ m₂
      machines
    have later : ∀ reply, L.Unaware (next reply) :=
      fun reply => unaware.imp_right fun reserved => reserved.2 reply
    unfold Routine.advance
    generalize q.serve s₁ (Routine.holding taken held) m₁ = result₁,
      q.serve s₂ (Routine.holding taken held) m₂ = result₂ at answers
    cases answers with
    | ok same machines' =>
      cases same
      exact ih _ (later _) _ machines'
    | error same machines' => exact .failed same (machines'.letGoAll _)
    | excused₁ excused result => exact .excused₁ excused _
    | excused₂ excused result => exact .excused₂ excused _

end Likeness

namespace Routine

variable {α β : Type}

theorem Reserved.bind {r : Routine α} {f : α → Routine β} (first : r.Reserved)
    (second : ∀ a, (f a).Reserved) : (r >>= f).Reserved := by
  induction r with
  | done a => exact second a
  | fail e => trivial
  | ask q next ih => exact ⟨first.1, fun reply => ih reply (first.2 reply)⟩
  | invoke c next _ => exact first.elim

theorem reserved_pop : pop.Reserved := ⟨rfl, fun _ => trivial⟩

theorem reserved_push (v : Value) : (push v).Reserved := ⟨rfl, fun _ => trivial⟩

theorem reserved_read [Payload α] (v : Value) : (read v : Routine α).Reserved := by
  unfold read
  split
  · trivial
  · trivial

theorem reserved_popAs [Payload α] : (popAs α).Reserved := reserved_pop.bind reserved_read

theorem reserved_index (i : Int64) : (index i).Reserved := by
  unfold index
  split
  · trivial
  · trivial

theorem reserved_ofReal (f : Float → Float) : (ofReal f).Reserved :=
  reserved_popAs.bind fun x => reserved_push (.real (f x))

theorem reserved_reals (items : List Value) : (reals items).Reserved := by
  induction items with
  | nil => trivial
  | cons v rest ih => exact (reserved_read v).bind fun x => ih.bind fun xs => trivial

end Routine

open Routine in
/-- The functions of the library are reserved. -/
theorem Intrinsic.reserved_routine (fn : Intrinsic) : fn.routine.Reserved := by
  cases fn with
  | sqrt => exact reserved_ofReal Float.sqrt
  | sin => exact reserved_ofReal Float.sin
  | cos => exact reserved_ofReal Float.cos
  | abs => exact reserved_ofReal Float.abs
  | pow => exact reserved_popAs.bind fun exponent => reserved_popAs.bind fun base => reserved_push _
  | floor =>
    refine reserved_popAs.bind fun x => ?_
    dsimp only
    split
    · exact reserved_push _
    · trivial
  | toReal => exact reserved_popAs.bind fun n => reserved_push _
  | write => exact reserved_pop.bind fun v => ⟨rfl, fun line => ⟨rfl, fun _ => trivial⟩⟩
  | newArray =>
    refine reserved_popAs.bind fun n => ?_
    split
    · trivial
    · exact ⟨rfl, fun a => reserved_push _⟩
  | append =>
    exact reserved_pop.bind fun v => reserved_popAs.bind fun a => ⟨rfl, fun _ => reserved_push _⟩
  | arrayLength => exact reserved_popAs.bind fun a => ⟨rfl, fun items => reserved_push _⟩
  | getItem =>
    refine reserved_popAs.bind fun i => (reserved_index i).bind fun n => ?_
    exact reserved_popAs.bind fun a => ⟨rfl, fun v => reserved_push v⟩
  | setItem =>
    refine reserved_pop.bind fun v => reserved_popAs.bind fun i => (reserved_index i).bind fun n => ?_
    exact reserved_popAs.bind fun a => ⟨rfl, fun _ => reserved_push v⟩
  | concat => exact reserved_popAs.bind fun b => reserved_popAs.bind fun a => reserved_push _
  | textLength => exact reserved_popAs.bind fun s => reserved_push _
  | bind =>
    refine reserved_pop.bind fun arg => reserved_popAs.bind fun func => ?_
    exact ⟨rfl, fun thunk => reserved_push _⟩
  | adjustDash =>
    refine reserved_popAs.bind fun cyclic => reserved_popAs.bind fun arclength => ?_
    refine reserved_popAs.bind fun width => reserved_popAs.bind fun pattern => ?_
    refine ⟨rfl, fun items => (reserved_reals items.toList).bind fun lengths => ?_⟩
    exact ⟨rfl, fun a => reserved_push _⟩

end PlotMachine
