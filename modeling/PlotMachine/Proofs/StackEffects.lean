import PlotMachine.Proofs.Changes
import PlotMachine.Proofs.Contract.Primitive

/-!
# What library functions take from the stack and put on it

A library function takes its arguments off the stack, one by one, and in the end pushes its result, if it
has one. It can fail anywhere in between: for want of a value in reach, over the kind of an argument, over
an index, and for want of room for the result.

`Routine.Trades` says this of a native as a tree of requests: how many values it pops, how many it pushes
after the last pop, and that an object which exists is written only right before the push. `Routine.Traded`
is what comes of running such a native. Every library function is one (`Intrinsic.trades_routine`), so it
takes as many values as it has arguments or fails with fewer of them gone, and all else on the stack, the
limits and the frames stay as they are (`Intrinsic.stack_effect`).
-/

namespace PlotMachine

namespace Stack

/-- The stack with other values in place of so many on top. -/
def exchange (s : Stack) (count : Nat) (added : List Value) : Stack :=
  { s with values := (s.truncate (s.height - count)).values ++ added.toArray }

variable {s : Stack} {v : Value}

@[simp] theorem exchange_zero_nil (s : Stack) : s.exchange 0 [] = s := by
  simp [exchange, truncate_of_height_le]

theorem exchange_zero_singleton (s : Stack) (v : Value) : s.exchange 0 [v] = s.push v := by
  simp [exchange, truncate_of_height_le, push]

/-- A cut below the top value does not depend on it. -/
theorem truncate_drop {n : Nat} (below : n ≤ s.height - 1) : s.drop.truncate n = s.truncate n := by
  have values : (s.drop.truncate n).values = (s.truncate n).values := by
    refine Array.ext_getElem? fun i => ?_
    rw [getElem?_truncate, getElem?_truncate]
    split
    · next inside =>
      have still : i < s.values.size - 1 := Nat.lt_of_lt_of_le inside below
      simp [drop, still]
    · rfl
  exact congrArg (fun values => { s with values }) values

/-- A value that is in reach is the first of those that are replaced. -/
theorem exchange_drop (found : s.top? = some v) (count : Nat) (added : List Value) :
    s.drop.exchange count added = s.exchange (count + 1) added := by
  have reach := (top?_eq_some found).1
  have cut : s.height - 1 - count = s.height - (count + 1) := by omega
  rw [exchange, exchange, height_drop, cut, truncate_drop (by omega)]
  rfl

/-- Without a value that is in reach there is one less. -/
theorem available_eq_of_top? (found : s.top? = some v) : s.available = s.drop.available + 1 := by
  have reach := (top?_eq_some found).1
  rw [available, available, height_drop]
  show _ = s.height - 1 - s.floor + 1
  omega

end Stack

namespace Heap

/-- What the first heap has is there in the second one with the same contents. -/
structure Spares (h h' : Heap) : Prop where
  has : ∀ o, h.Has o → h'.Has o
  contents : ∀ o, h.Has o → h'.contents o = h.contents o

namespace Spares

variable {h h' h'' : Heap}

theorem refl (h : Heap) : h.Spares h := ⟨fun _ held => held, fun _ _ => rfl⟩

theorem trans (first : h.Spares h') (second : h'.Spares h'') : h.Spares h'' where
  has o held := second.has o (first.has o held)
  contents o held := (second.contents o (first.has o held)).trans (first.contents o held)

theorem addArray (h : Heap) (items : Array Value) : h.Spares (h.addArray items).2 where
  has := (h.extends_addArray items).has
  contents o held := by
    have old : o ≠ .array (h.addArray items).1 := by
      rintro rfl
      exact h.not_has_addArray items held
    rw [contents_addArray, if_neg old]

theorem takeNumber (h : Heap) : h.Spares h.takeNumber.2 where
  has := h.extends_takeNumber.has
  contents o _ := h.contents_takeNumber o

end Spares

end Heap

/-- The second machine has the stack, the global frame and the frames of the first one. -/
structure Machine.Beside (m m' : Machine) : Prop where
  stack : m'.stack = m.stack
  globals : m'.globals = m.globals
  frames : m'.heap.frames = m.heap.frames

namespace Machine.Beside

variable {m m' m'' : Machine}

theorem refl (m : Machine) : m.Beside m := ⟨rfl, rfl, rfl⟩

theorem trans (first : m.Beside m') (second : m'.Beside m'') : m.Beside m'' :=
  ⟨second.stack.trans first.stack, second.globals.trans first.globals,
    second.frames.trans first.frames⟩

theorem letGo (beside : m.Beside m') (v : Value) : m.Beside (m'.letGo v) := by
  rw [letGo_eq]
  exact ⟨beside.stack, beside.globals, beside.frames⟩

theorem letGoAll (beside : m.Beside m') (values : List Value) : m.Beside (m'.letGoAll values) := by
  rw [letGoAll_eq]
  exact ⟨beside.stack, beside.globals, beside.frames⟩

end Machine.Beside

namespace Request

/-- Whether a request neither works on the stack nor writes an object that is there. -/
def looks : Request → Bool
  | .height | .available | .values | .depth | .globals | .liveFrames | .newArray _ | .blankArray _
  | .items _ | .getItem .. | .newThunk .. | .text _ | .write _ => true
  | _ => false

/-- Whether a request writes an array. -/
def writes : Request → Bool
  | .setItem .. | .append .. => true
  | _ => false

variable {q : Request}

/-- A request that looks leaves the stack, the frames and the contents of all objects alone. -/
theorem comes_of_looks (looks : q.looks = true) (s : Store) (held : Heap → List Object)
    (m : Machine) :
    Exec.Comes (fun m m' => m.Beside m' ∧ m.heap.Spares m'.heap) m (q.serve s held m) := by
  cases q with
  | height | available | values | depth | globals | liveFrames => exact ⟨.refl m, .refl m.heap⟩
  | newArray items => exact ⟨⟨rfl, rfl, rfl⟩, .addArray m.heap items⟩
  | blankArray length =>
    exact ⟨⟨rfl, rfl, rfl⟩, .addArray m.heap (Array.replicate length .nil)⟩
  | items a => exact ⟨.refl m, .refl m.heap⟩
  | getItem a index =>
    rw [serve, Exec.get, Exec.inspect]
    cases m.heap.get (.array a) index with
    | ok v => exact ⟨.refl m, .refl m.heap⟩
    | error f => exact ⟨rfl, .refl m, .refl m.heap⟩
  | newThunk func arg => exact ⟨⟨rfl, rfl, rfl⟩, .takeNumber m.heap⟩
  | text v => exact ⟨.refl m, .refl m.heap⟩
  | write t => exact ⟨⟨rfl, rfl, rfl⟩, .refl m.heap⟩
  | _ => cases looks

/-- A request that writes an array leaves the stack and the frames alone. If it fails, it has done
nothing. -/
theorem comes_of_writes (writes : q.writes = true) (s : Store) (held : Heap → List Object)
    (m : Machine) :
    (∃ reply m', q.serve s held m = .ok reply m' ∧ m.Beside m') ∨
      ∃ f, q.serve s held m = .error f m := by
  cases q with
  | setItem a index v =>
    rw [serve, Exec.put]
    cases m.heap.get (.array a) index with
    | ok old =>
      have written : m.Beside { m with heap := m.heap.put (.array a) index v } := ⟨rfl, rfl, rfl⟩
      exact .inl ⟨(), _, rfl, written.letGo old⟩
    | error f => exact .inr ⟨f, rfl⟩
  | append a v => exact .inl ⟨(), _, rfl, rfl, rfl, rfl⟩
  | _ => cases writes

end Request

namespace Routine

/-- A native that pops so many values and then pushes so many, at most one. It writes an object that is
there only if it `writes`, right before the push. -/
inductive Trades (writes : Bool) : Nat → Nat → Routine Unit → Prop
  | done : Trades writes 0 0 (.done ())
  | push (v : Value) : Trades writes 0 1 (push v)
  | fail (pops pushes : Nat) (f : Failure) : Trades writes pops pushes (.fail f)
  | pop {pops pushes : Nat} {next : Value → Routine Unit}
      (rest : ∀ v, Trades writes pops pushes (next v)) :
      Trades writes (pops + 1) pushes (.ask .pop next)
  | look {pops pushes : Nat} {q : Request} {next : q.Reply → Routine Unit} (looks : q.looks = true)
      (rest : ∀ reply, Trades writes pops pushes (next reply)) :
      Trades writes pops pushes (.ask q next)
  | write {q : Request} {next : q.Reply → Routine Unit} (may : writes = true)
      (alters : q.writes = true) (v : Value) (rest : ∀ reply, next reply = Routine.push v) :
      Trades writes 0 1 (.ask q next)

/-- What comes of a native that trades values. It is done, or it is refused with the heap as it was, or
there is no room for its result although it has popped its arguments and written the heap. -/
inductive Traded (writes : Bool) (pops pushes : Nat) (m : Machine) : Pause Unit × Machine → Prop
  | done {m' : Machine} {added : List Value} (reach : pops ≤ m.stack.available)
      (length : added.length = pushes)
      (beside : { m with stack := m.stack.exchange pops added }.Beside m') :
      Traded writes pops pushes m (.done (), m')
  | refused {f : Failure} {m' : Machine} {count : Nat} (le : count ≤ pops)
      (reach : count ≤ m.stack.available)
      (beside : { m with stack := m.stack.exchange count [] }.Beside m')
      (spares : m.heap.Spares m'.heap) : Traded writes pops pushes m (.failed f, m')
  | overfull {m' : Machine} (may : writes = true) (reach : pops ≤ m.stack.available)
      (full : m.stack.ceiling + pops ≤ m.stack.height)
      (beside : { m with stack := m.stack.exchange pops [] }.Beside m') :
      Traded writes pops pushes m (.failed (Fault.stackOverflow m.stack.ceiling), m')

namespace Traded

variable {writes : Bool} {pops pushes : Nat} {m m₁ : Machine} {x : Pause Unit × Machine}

/-- The value that is popped first is one of those that are traded. -/
theorem of_drop {v : Value} (found : m.stack.top? = some v)
    (traded : Traded writes pops pushes { m with stack := m.stack.drop } x) :
    Traded writes (pops + 1) pushes m x := by
  have more := Stack.available_eq_of_top? found
  have reach := (Stack.top?_eq_some found).1
  have replaced (count : Nat) (added : List Value) := Stack.exchange_drop found count added
  cases traded with
  | done within length beside =>
    rw [replaced] at beside
    exact .done (more ▸ Nat.succ_le_succ within) length beside
  | refused le within beside spares =>
    rw [replaced] at beside
    exact .refused (Nat.succ_le_succ le) (more ▸ Nat.succ_le_succ within) beside spares
  | overfull may within full beside =>
    rw [replaced] at beside
    have below : m.stack.ceiling + pops ≤ m.stack.height - 1 := Stack.height_drop m.stack ▸ full
    exact .overfull may (more ▸ Nat.succ_le_succ within) (by omega) beside

/-- What is done beside the stack before the trade does not count. -/
theorem of_beside (before : m.Beside m₁) (unwritten : m.heap.Spares m₁.heap)
    (traded : Traded writes pops pushes m₁ x) : Traded writes pops pushes m x := by
  have exchanged (count : Nat) (added : List Value) :
      { m with stack := m.stack.exchange count added }.Beside
        { m₁ with stack := m₁.stack.exchange count added } :=
    ⟨congrArg (·.exchange count added) before.stack, before.globals, before.frames⟩
  cases traded with
  | done within length beside =>
    exact .done (before.stack ▸ within) length ((exchanged _ _).trans beside)
  | refused le within beside spares =>
    exact .refused le (before.stack ▸ within) ((exchanged _ _).trans beside)
      (unwritten.trans spares)
  | overfull may within full beside =>
    rw [before.stack] at within full ⊢
    exact .overfull may within full ((exchanged _ _).trans beside)

/-- A native that fails at once has traded nothing. -/
theorem failed (f : Failure) (beside : m.Beside m₁) (spares : m.heap.Spares m₁.heap) :
    Traded writes pops pushes m (.failed f, m₁) := by
  refine .refused (Nat.zero_le _) (Nat.zero_le _) ?_ spares
  rwa [Stack.exchange_zero_nil]

end Traded

/-- Pushing a result trades nothing for it, unless there is no room. -/
theorem advance_push (v : Value) (s : Store) (held : Heap → List Object) (taken : List Value)
    (m : Machine) :
    (m.stack.isFull = true ∧ ∃ m', m.Beside m' ∧ m.heap.Spares m'.heap ∧
        (push v).advance s held taken m =
          (.failed (Fault.stackOverflow m.stack.ceiling), m')) ∨
      ∃ m', { m with stack := m.stack.exchange 0 [v] }.Beside m' ∧
        (push v).advance s held taken m = (.done (), m') := by
  rw [push, request, advance, Request.serve, Exec.push]
  by_cases full : m.stack.isFull = true
  · rw [if_pos full]
    refine .inl ⟨full, _, ((Machine.Beside.refl m).letGo v).letGoAll _, ?_, rfl⟩
    rw [Machine.heap_letGoAll, Machine.heap_letGo]
    exact .refl m.heap
  · rw [if_neg full]
    refine .inr ⟨_, Machine.Beside.letGoAll ?_ _, rfl⟩
    rw [Stack.exchange_zero_singleton]
    exact .refl _

/-- Running a native that trades values. -/
theorem Trades.advance {writes : Bool} {pops pushes : Nat} {r : Routine Unit}
    (trades : Trades writes pops pushes r) (s : Store) (held : Heap → List Object)
    (taken : List Value) (m : Machine) :
    Traded writes pops pushes m (r.advance s held taken m) := by
  induction trades generalizing taken m with
  | done =>
    have nothing : { m with stack := m.stack.exchange 0 [] }.Beside (m.letGoAll taken) := by
      rw [Stack.exchange_zero_nil]
      exact (Machine.Beside.refl m).letGoAll taken
    exact .done (Nat.zero_le _) rfl nothing
  | push v =>
    rcases advance_push v s held taken m with ⟨-, m', beside, spares, failed⟩ | ⟨m', beside, done⟩
    · rw [failed]
      exact .failed _ beside spares
    · rw [done]
      exact .done (Nat.zero_le _) rfl beside
  | fail pops pushes f =>
    refine .failed f ((Machine.Beside.refl m).letGoAll taken) ?_
    rw [Machine.heap_letGoAll]
    exact .refl m.heap
  | pop rest ih =>
    rw [Routine.advance, Request.serve, Exec.pop]
    cases found : m.stack.top? with
    | none =>
      refine .failed _ ((Machine.Beside.refl m).letGoAll _) ?_
      rw [Machine.heap_letGoAll]
      exact .refl m.heap
    | some v => exact .of_drop found (ih v _ _)
  | @look pops pushes q next looks rest ih =>
    have comes := Request.comes_of_looks looks s (holding taken held) m
    rw [Routine.advance]
    cases result : q.serve s (holding taken held) m with
    | ok reply m' =>
      rw [result] at comes
      exact .of_beside comes.1 comes.2 (ih reply _ m')
    | error f m' =>
      rw [result] at comes
      refine .failed f (comes.2.1.letGoAll _) ?_
      rw [Machine.heap_letGoAll]
      exact comes.2.2
  | @write q next may alters v rest =>
    rw [Routine.advance]
    rcases Request.comes_of_writes alters s (holding taken held) m with
      ⟨reply, m', answered, beside⟩ | ⟨f, failed⟩
    · rw [answered]
      dsimp only
      rw [rest]
      rcases advance_push v s held (q.taken reply ++ q.kept taken) m' with
        ⟨full, m'', after, -, failed⟩ | ⟨m'', after, done⟩
      · -- the array was written, and there is no room for the result
        rw [failed, beside.stack]
        rw [beside.stack, Stack.isFull, decide_eq_true_eq] at full
        refine .overfull may (Nat.zero_le _) full ?_
        rw [Stack.exchange_zero_nil]
        exact beside.trans after
      · rw [done]
        have written : { m with stack := m.stack.exchange 0 [v] }.Beside
            { m' with stack := m'.stack.exchange 0 [v] } :=
          ⟨congrArg (·.exchange 0 [v]) beside.stack, beside.globals, beside.frames⟩
        exact .done (Nat.zero_le _) rfl (written.trans after)
    · rw [failed]
      refine .failed f ((Machine.Beside.refl m).letGoAll _) ?_
      rw [Machine.heap_letGoAll]
      exact .refl m.heap

/-! ## The parts of library functions -/

section Parts

variable {writes : Bool} {pops pushes : Nat}

/-- A native that reads the data of a value goes on with the data, or fails. -/
theorem trades_read {α : Type} [Payload α] {v : Value} {next : α → Routine Unit}
    (rest : ∀ a, Trades writes pops pushes (next a)) :
    Trades writes pops pushes (read v >>= next) := by
  rw [Routine.read]
  split
  · next a _ => exact rest a
  · exact .fail pops pushes _

/-- A native that pops data takes one value more than what it goes on with. -/
theorem trades_popAs {α : Type} [Payload α] {next : α → Routine Unit}
    (rest : ∀ a, Trades writes pops pushes (next a)) :
    Trades writes (pops + 1) pushes (popAs α >>= next) :=
  .pop fun _ => trades_read rest

theorem trades_failWith (f : NativeFault) : Trades writes pops pushes (failWith f) :=
  .fail pops pushes _

theorem trades_index {i : Int64} {next : Nat → Routine Unit}
    (rest : ∀ n, Trades writes pops pushes (next n)) :
    Trades writes pops pushes (index i >>= next) := by
  rw [index]
  split
  · exact trades_failWith _
  · exact rest _

/-- Reading reals asks for nothing. -/
theorem reals_cases (items : List Value) :
    (∃ xs, reals items = .done xs) ∨ ∃ f, reals items = .fail f := by
  induction items with
  | nil => exact .inl ⟨[], rfl⟩
  | cons v rest ih =>
    rw [reals, Routine.read]
    split
    · next x _ =>
      rcases ih with ⟨xs, all⟩ | ⟨f, failed⟩
      · rw [all]
        exact .inl ⟨x :: xs, rfl⟩
      · rw [failed]
        exact .inr ⟨f, rfl⟩
    · next e _ => exact .inr ⟨e, rfl⟩

theorem trades_reals {items : List Value} {next : List Float → Routine Unit}
    (rest : ∀ xs, Trades writes pops pushes (next xs)) :
    Trades writes pops pushes (reals items >>= next) := by
  rcases reals_cases items with ⟨xs, all⟩ | ⟨f, failed⟩
  · rw [all]
    exact rest xs
  · rw [failed]
    exact .fail pops pushes f

theorem trades_ofReal (f : Float → Float) : Trades writes 1 1 (ofReal f) :=
  trades_popAs fun x => .push (.real (f x))

end Parts

end Routine

/-! ## The library -/

namespace Intrinsic

open Routine

/-- How many arguments a library function takes. -/
def arity : Intrinsic → Nat
  | .sqrt | .sin | .cos | .abs | .floor | .toReal => 1
  | .write | .newArray | .arrayLength | .textLength => 1
  | .pow | .append | .getItem | .concat | .bind => 2
  | .setItem => 3
  | .adjustDash => 4

/-- How many results a library function has. -/
def results : Intrinsic → Nat
  | .write => 0
  | _ => 1

/-- Whether a library function writes an array. -/
def writesArray : Intrinsic → Bool
  | .append | .setItem => true
  | _ => false

/-- Every library function trades its arguments for its result. -/
theorem trades_routine (fn : Intrinsic) :
    Trades fn.writesArray fn.arity fn.results fn.routine := by
  cases fn with
  | sqrt => exact trades_ofReal Float.sqrt
  | sin => exact trades_ofReal Float.sin
  | cos => exact trades_ofReal Float.cos
  | abs => exact trades_ofReal Float.abs
  | pow => exact trades_popAs fun exponent => trades_popAs fun base => .push _
  | floor =>
    refine trades_popAs fun x => ?_
    dsimp only
    split
    · exact .push _
    · exact trades_failWith _
  | toReal => exact trades_popAs fun n => .push _
  | write => exact .pop fun v => .look rfl fun line => .look rfl fun _ => .done
  | newArray =>
    refine trades_popAs fun n => ?_
    split
    · exact trades_failWith _
    · exact .look rfl fun a => .push _
  | append => exact .pop fun v => trades_popAs fun a => .write rfl rfl (.array a) fun _ => rfl
  | arrayLength => exact trades_popAs fun a => .look rfl fun items => .push _
  | getItem =>
    refine trades_popAs fun n => trades_index fun i => trades_popAs fun a => ?_
    exact .look rfl fun v => .push v
  | setItem =>
    refine .pop fun v => trades_popAs fun n => trades_index fun i => trades_popAs fun a => ?_
    exact .write rfl rfl v fun _ => rfl
  | concat => exact trades_popAs fun b => trades_popAs fun a => .push _
  | textLength => exact trades_popAs fun s => .push _
  | bind => exact .pop fun arg => trades_popAs fun func => .look rfl fun thunk => .push _
  | adjustDash =>
    refine trades_popAs fun cyclic => trades_popAs fun arclength => trades_popAs fun width => ?_
    refine trades_popAs fun pattern => .look rfl fun items => trades_reals fun lengths => ?_
    exact .look rfl fun a => .push _

end Intrinsic

end PlotMachine
