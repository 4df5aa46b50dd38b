import PlotMachine.Library.Natives
import PlotMachine.Proofs.Contract.Instr

/-!
# Natives observe contracts

A native is a tree of requests, so what it may do is said by recursion on the tree: `Routine.Keeps`
asks of each request that the contract allows it, and of what follows only for replies that the
contract allows. A native that keeps to a contract observes it at every request
(`Routine.Visits.follows`) and up to its end or its next call (`Routine.Keeps.advance`). The native
library keeps to every contract.
-/

namespace PlotMachine

namespace Contract

variable (K : Contract)

/-- A request that the contract allows. -/
def Allows : Request → Prop
  | .push v | .setTop v => K.Fit v
  -- a native may look at the values that are out of its reach
  | .values => ∀ v ∈ K.bottom, K.Fit v
  | .globals => K.holds (.frame K.globals)
  | .newArray items => ∀ v ∈ items, K.Fit v
  | .items a | .getItem a _ => K.holds (.array a)
  | .setItem a _ v | .append a v => K.holds (.array a) ∧ K.Fit v
  | .newThunk func arg => K.Calls func ∧ K.Fit arg
  | _ => True

/-- A reply that the contract allows. -/
def Replies : (q : Request) → q.Reply → Prop
  | .pop, v | .top, v | .getItem .., v => K.Fit v
  | .values, values | .items _, values => ∀ v ∈ values, K.Fit v
  | .globals, f => K.holds (.frame f)
  | .newArray _, a | .blankArray _, a => K.holds (.array a)
  | .newThunk .., c => K.Calls c
  | _, _ => True

/-- An outcome of a call that the contract allows. -/
def Ends (outcome : Except Failure Unit) : Prop := ∀ f, outcome = .error f → K.failure f

theorem ends_ok : K.Ends (.ok ()) := by
  rintro f ⟨⟩

end Contract

/-- A native asks only for what the contract allows, as long as it is answered so. -/
def Routine.Keeps (K : Contract) {α : Type} : Routine α → Prop
  | .done _ => True
  | .fail f => K.failure f
  | .ask q next => K.Allows q ∧ ∀ reply, K.Replies q reply → (next reply).Keeps K
  | .invoke c next => K.Calls c ∧ ∀ outcome, K.Ends outcome → (next outcome).Keeps K

variable {K : Contract}

/-- The values on the stack may all come into play if those that are out of reach may. -/
theorem Contract.Holds.fit_values {m : Machine} (holds : K.Holds m) (low : ∀ v ∈ K.bottom, K.Fit v)
    {v : Value} (inside : v ∈ m.stack.values) : K.Fit v := by
  obtain ⟨i, found⟩ := Array.mem_iff_getElem?.1 inside
  by_cases below : i < K.base
  · rw [holds.bottom i below] at found
    exact low v (Array.mem_of_getElem? found)
  · exact holds.values i v (Nat.le_of_not_lt below) found

/-- A request that is allowed observes the contract. -/
theorem Request.obeys_serve (s : Store) (held : Heap → List Object) {q : Request}
    (allowed : K.Allows q) : (q.serve s held).Obeys K (K.Replies q) := by
  cases q with
  | push v => exact (Exec.obeys_push allowed).imp fun _ _ => trivial
  | pop => exact Exec.obeys_pop
  | top => exact Exec.obeys_top
  | setTop v => exact (Exec.obeys_setTop allowed).imp fun _ _ => trivial
  | height => exact Exec.obeys_view fun _ _ => trivial
  | available => exact Exec.obeys_view fun _ _ => trivial
  | values => exact Exec.obeys_view fun m holds v => holds.fit_values allowed
  | depth => exact Exec.obeys_view fun _ _ => trivial
  | globals => exact Exec.obeys_view fun m holds => holds.globals ▸ allowed
  | liveFrames => exact Exec.obeys_view fun _ _ => trivial
  | newArray items => exact Exec.obeys_newArray allowed
  | blankArray length =>
    refine Exec.obeys_newArray fun v inside => ?_
    rw [Array.eq_of_mem_replicate inside]
    trivial
  | items a => exact Exec.obeys_view fun m holds => holds.heap.contents (.array a) (.inl allowed)
  | getItem a index => exact Exec.obeys_get (.inl allowed) index
  | setItem a index v =>
    have may := K.writes_array a allowed.1
    exact (Exec.obeys_put may index allowed.2).imp fun _ _ => trivial
  | append a v =>
    intro m holds
    have may := K.writes_array a allowed.1
    exact ⟨trivial,
      holds.withHeap (holds.heap.append may allowed.2) (m.heap.extends_append a v)⟩
  | newThunk func arg =>
    have calls : ∀ id, K.Calls (.thunk id func arg) := fun _ => allowed
    exact Exec.obeys_newCallable calls
  | text v => exact Exec.obeys_view fun _ _ => trivial
  | write t => exact fun m holds => ⟨trivial, holds.follows.congr rfl rfl rfl rfl⟩
  | interrupt => exact fun m holds => ⟨trivial, holds.follows.congr rfl rfl rfl rfl⟩

namespace Routine

variable {α : Type}

/-! ## Running a native -/

/-- The second machine is one that a native, which holds values, meets on its way to its end or its next
call, where `held` are the objects held by what waits for it. -/
inductive Visits (s : Store) (held : Heap → List Object) :
    Routine α → List Value → Machine → Machine → Prop
  | now (r : Routine α) (taken : List Value) (m : Machine) : Visits s held r taken m m
  | later {q : Request} {next : q.Reply → Routine α} {taken : List Value} {reply : q.Reply}
      {m m' m'' : Machine}
      (answered : q.serve s (holding taken held) m = .ok reply m')
      (rest : Visits s held (next reply) (q.taken reply ++ q.kept taken) m' m'') :
      Visits s held (.ask q next) taken m m''
  | refused {q : Request} {next : q.Reply → Routine α} {taken : List Value} {f : Failure}
      {m m' : Machine} (failed : q.serve s (holding taken held) m = .error f m') :
      Visits s held (.ask q next) taken m m'

/-- A native observes the contract at every request. -/
theorem Visits.follows {s : Store} {held : Heap → List Object} {r : Routine α} {taken : List Value}
    {m m' : Machine} (visits : Visits s held r taken m m') (keeps : r.Keeps K) (holds : K.Holds m) :
    K.Follows m m' := by
  induction visits with
  | now r taken m => exact holds.follows
  | @later q next taken reply m m' m'' answered _ ih =>
    have answers := Request.obeys_serve s (holding taken held) keeps.1 m holds
    rw [answered] at answers
    exact answers.2.trans (ih (keeps.2 _ answers.1) answers.2.holds)
  | @refused q next taken f m m' failed =>
    have answers := Request.obeys_serve s (holding taken held) keeps.1 m holds
    rw [failed] at answers
    exact answers.2

/-- What is known when a native has got to its end, to a failure or to a call. -/
def Pause.Keeps (K : Contract) : Pause α → Prop
  | .done _ => True
  | .failed f => K.failure f
  | .calling c _ next => K.Calls c ∧ ∀ outcome, K.Ends outcome → (next outcome).Keeps K

/-- A native observes the contract up to its end or its next call. -/
theorem Keeps.advance {r : Routine α} (keeps : r.Keeps K) (s : Store) (held : Heap → List Object)
    (taken : List Value) {m : Machine} (holds : K.Holds m) :
    (r.advance s held taken m).1.Keeps K ∧ K.Follows m (r.advance s held taken m).2 := by
  induction r generalizing taken m with
  | done a => exact ⟨trivial, holds.follows.letGoAll taken⟩
  | fail f => exact ⟨keeps, holds.follows.letGoAll taken⟩
  | invoke c next _ => exact ⟨keeps, holds.follows⟩
  | ask q next ih =>
    have answers := Request.obeys_serve s (holding taken held) keeps.1 m holds
    rw [Routine.advance]
    split
    · next reply m' answered =>
      rw [answered] at answers
      have rest := ih reply (keeps.2 reply answers.1) (q.taken reply ++ q.kept taken)
        answers.2.holds
      exact ⟨rest.1, answers.2.trans rest.2⟩
    · next f m' failed =>
      rw [failed] at answers
      exact ⟨answers.1, answers.2.letGoAll _⟩

/-! ## The parts of natives -/

/-- One routine after another keeps to the contract if both do. -/
theorem Keeps.bind {β : Type} {r : Routine α} {f : α → Routine β} (first : r.Keeps K)
    (second : ∀ a, (f a).Keeps K) : (r >>= f).Keeps K := by
  induction r with
  | done a => exact second a
  | fail e => exact first
  | ask q next ih => exact ⟨first.1, fun reply fit => ih reply (first.2 reply fit)⟩
  | invoke c next ih => exact ⟨first.1, fun outcome ends => ih outcome (first.2 outcome ends)⟩

/-- A native that pops a value goes on with one that may come into play. -/
theorem keeps_pop {f : Value → Routine α} (keeps : ∀ v, K.Fit v → (f v).Keeps K) :
    (pop >>= f).Keeps K :=
  ⟨trivial, keeps⟩

theorem keeps_push {v : Value} (fit : K.Fit v) : (push v).Keeps K := ⟨fit, fun _ _ => trivial⟩

theorem keeps_pushScalar {β : Type} [Payload β] [Scalar β] (b : β) : (pushData b).Keeps K :=
  keeps_push (Scalar.fit K b)

theorem keeps_failWith (f : NativeFault) : (failWith f : Routine α).Keeps K :=
  K.failure_of _ rfl

theorem keeps_read {β : Type} [Payload β] {v : Value} (fit : K.Fit v) {f : β → Routine α}
    (keeps : ∀ b, K.Fit (Payload.toValue b) → (f b).Keeps K) : (read v >>= f).Keeps K := by
  rw [Routine.read]
  split
  · next b found =>
    exact keeps b (by rw [Exec.toValue_of_read found]; exact fit)
  · next e failed => exact K.failure_of _ (Exec.isLabelFault_of_read failed)

/-- A native that pops data goes on with data that may come into play. -/
theorem keeps_popAs {β : Type} [Payload β] {f : β → Routine α}
    (keeps : ∀ b, K.Fit (Payload.toValue b) → (f b).Keeps K) : (popAs β >>= f).Keeps K :=
  keeps_pop fun _ fit => keeps_read fit keeps

theorem keeps_index {i : Int64} {f : Nat → Routine α} (keeps : ∀ n, (f n).Keeps K) :
    (index i >>= f).Keeps K := by
  rw [index]
  split
  · exact keeps_failWith _
  · exact keeps _

theorem keeps_ofReal (f : Float → Float) : (ofReal f).Keeps K :=
  keeps_popAs fun x _ => keeps_pushScalar (f x)

theorem keeps_reals {items : List Value} (fit : ∀ v ∈ items, K.Fit v) : (reals items).Keeps K := by
  induction items with
  | nil => trivial
  | cons v rest ih =>
    refine keeps_read (fit v List.mem_cons_self) fun x _ => ?_
    exact (ih fun w inside => fit w (List.mem_cons_of_mem v inside)).bind fun xs => trivial

end Routine

/-! ## The library -/

open Routine in
/-- Every function of the library keeps to every contract. -/
theorem Intrinsic.keeps_routine (fn : Intrinsic) : fn.routine.Keeps K := by
  cases fn with
  | sqrt => exact keeps_ofReal Float.sqrt
  | sin => exact keeps_ofReal Float.sin
  | cos => exact keeps_ofReal Float.cos
  | abs => exact keeps_ofReal Float.abs
  | pow =>
    exact keeps_popAs fun exponent _ => keeps_popAs fun base _ => keeps_pushScalar _
  | floor =>
    refine keeps_popAs fun x _ => ?_
    dsimp only
    split
    · exact keeps_pushScalar _
    · exact keeps_failWith _
  | toReal => exact keeps_popAs fun n _ => keeps_pushScalar _
  | write => exact keeps_pop fun v _ => ⟨trivial, fun line _ => ⟨trivial, fun _ _ => trivial⟩⟩
  | newArray =>
    refine keeps_popAs fun n _ => ?_
    split
    · exact keeps_failWith _
    · exact ⟨trivial, fun a held => keeps_push held⟩
  | append =>
    refine keeps_pop fun v fit => keeps_popAs fun a held => ?_
    exact ⟨⟨held, fit⟩, fun _ _ => keeps_push held⟩
  | arrayLength =>
    exact keeps_popAs fun a held => ⟨held, fun items _ => keeps_pushScalar _⟩
  | getItem =>
    refine keeps_popAs fun i _ => keeps_index fun n => keeps_popAs fun a held => ?_
    exact ⟨held, fun v fit => keeps_push fit⟩
  | setItem =>
    refine keeps_pop fun v fit => keeps_popAs fun i _ => keeps_index fun n => ?_
    exact keeps_popAs fun a held => ⟨⟨held, fit⟩, fun _ _ => keeps_push fit⟩
  | concat => exact keeps_popAs fun b _ => keeps_popAs fun a _ => keeps_pushScalar _
  | textLength => exact keeps_popAs fun s _ => keeps_pushScalar _
  | bind =>
    refine keeps_pop fun arg fit => keeps_popAs fun func calls => ?_
    exact ⟨⟨calls, fit⟩, fun thunk calls' => keeps_push calls'⟩
  | adjustDash =>
    refine keeps_popAs fun cyclic _ => keeps_popAs fun arclength _ => ?_
    refine keeps_popAs fun width _ => keeps_popAs fun pattern held => ?_
    refine ⟨held, fun items fit => ?_⟩
    have known : ∀ v ∈ items.toList, K.Fit v := fun v inside => fit v (Array.mem_toList_iff.1 inside)
    refine (keeps_reals known).bind fun lengths => ⟨fun v inside => ?_, fun a held' => ?_⟩
    · obtain ⟨x, _, same⟩ := Array.mem_map.1 inside
      exact same ▸ trivial
    · exact keeps_push held'

end PlotMachine
