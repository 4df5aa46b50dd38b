import Mathlib.Data.Int.Lemmas
import Mathlib.Data.List.Basic
import PlotMachine.Proofs.Changes
import PlotMachine.Proofs.Contract.Primitive

/-!
# Arithmetic on integers is exact

Four instructions work on two integers, one changes the sign of an integer, and two change the integer on
top of the stack by one. `IntOperation.Gives` says which integer is the result, in terms of all integers
and not of words: the quotient of a division is the one whose remainder is smaller than the divisor and
not on the other side of zero than the dividend.

An instruction pushes the result exactly if that is a word, and fails otherwise. It also fails on operands
that are no integers. What lies below the operands stays as it is in any case
(`IntOperation.perform_exact`).
-/

namespace PlotMachine

/-! ## Words -/

/-- An integer that is a signed word. -/
def IsWord (n : Int) : Prop := minSigned ≤ n ∧ n ≤ maxSigned

instance (n : Int) : Decidable (IsWord n) :=
  inferInstanceAs (Decidable (minSigned ≤ n ∧ n ≤ maxSigned))

theorem isWord_toInt (w : Int64) : IsWord w.toInt :=
  ⟨w.le_toInt, Int.le_of_lt_add_one w.toInt_lt⟩

/-- An exact result is the word of that value. -/
theorem exactly_eq_ok_iff {op : Opcode} {n : Int} {w : Int64} :
    exactly op n = .ok w ↔ w.toInt = n := by
  constructor
  · intro done
    rw [exactly] at done
    split at done
    · next fits =>
      cases done
      exact Int64.toInt_ofInt_of_le fits.1 (Int.lt_add_one_of_le fits.2)
    · cases done
  · rintro rfl
    obtain ⟨low, high⟩ := isWord_toInt w
    rw [exactly, if_pos ⟨low, high⟩, Int64.ofInt_toInt]

/-- Without a word for it there is no exact result. -/
theorem exactly_eq_error_iff {op : Opcode} {n : Int} {f : Fault} :
    exactly op n = .error f ↔ f = .integerOverflow op ∧ ¬ IsWord n := by
  rw [exactly, IsWord]
  split
  · next fits => exact ⟨nofun, fun other => absurd fits other.2⟩
  · next outside =>
    constructor
    · rintro ⟨⟩
      exact ⟨rfl, outside⟩
    · rintro ⟨rfl, -⟩
      rfl

/-! ## Truncated division -/

/-- A quotient truncated toward zero: what remains of the dividend is smaller than the divisor, and it is
zero or has the sign of the dividend. -/
def TruncatedQuotient (a b q : Int) : Prop :=
  ∃ r, a = q * b + r ∧ r.natAbs < b.natAbs ∧ (r = 0 ∨ r.sign = a.sign)

/-- Nothing is a quotient by zero. -/
theorem not_truncatedQuotient_zero (a q : Int) : ¬ TruncatedQuotient a 0 q := by
  rintro ⟨r, -, smaller, -⟩
  exact absurd smaller (Nat.not_lt_zero _)

/-- By any other integer there is one quotient. -/
theorem truncatedQuotient_iff {a b q : Int} (nonzero : b ≠ 0) :
    TruncatedQuotient a b q ↔ q = a.tdiv b := by
  constructor
  · rintro ⟨r, split, smaller, sign⟩
    have whole : r + b * q = a := by
      rw [split, Int.mul_comm, Int.add_comm]
    rcases Int.le_total 0 a with up | down
    · have side : 0 ≤ r := by
        rcases sign with rfl | sign
        · exact Int.le_refl 0
        · rwa [← Int.sign_nonneg_iff, sign, Int.sign_nonneg_iff]
      have bounds : 0 ≤ r ∧ r < b.natAbs := by omega
      exact ((Int.tdiv_tmod_unique up nonzero).2 ⟨whole, bounds⟩).1.symm
    · have side : r ≤ 0 := by
        rcases sign with rfl | sign
        · exact Int.le_refl 0
        · rwa [← Int.sign_nonpos_iff, sign, Int.sign_nonpos_iff]
      have bounds : -b.natAbs < r ∧ r ≤ 0 := by omega
      exact ((Int.tdiv_tmod_unique' down nonzero).2 ⟨whole, bounds⟩).1.symm
  · rintro rfl
    refine ⟨a.tmod b, ?_, ?_, ?_⟩
    · rw [Int.mul_comm, Int.mul_tdiv_add_tmod]
    · rw [Int.natAbs_tmod]
      exact Nat.mod_lt _ (Int.natAbs_pos.2 nonzero)
    · rw [Int.sign_tmod]
      split
      · next divides => exact .inl (Int.tmod_eq_zero_of_dvd divides)
      · exact .inr rfl

/-! ## The operations -/

/-- The instructions that compute an integer from integers. -/
inductive IntOperation where
  | arith (op : Arith)
  | negate
  | step (up : Bool)

namespace IntOperation

/-- The instruction for an operation. -/
def instr : IntOperation → Instr
  | .arith op => .intArith op
  | .negate => .intNegate
  | .step up => .intStep up

/-- How many operands an operation has. -/
def arity : IntOperation → Nat
  | .arith _ => 2
  | .negate | .step _ => 1

/-- An integer is the result of an operation on operands, given from left to right. -/
def Gives : IntOperation → List Int → Int → Prop
  | .arith .plus, [a, b], n => n = a + b
  | .arith .minus, [a, b], n => n = a - b
  | .arith .times, [a, b], n => n = a * b
  | .arith .divide, [a, b], n => TruncatedQuotient a b n
  | .negate, [a], n => n = -a
  | .step true, [a], n => n = a + 1
  | .step false, [a], n => n = a - 1
  | _, _, _ => False

/-- An operation divides by zero. -/
def DividesByZero (op : IntOperation) (operands : List Int) : Prop :=
  op = .arith .divide ∧ ∃ a, operands = [a, 0]

/-- What the machine computes from words. -/
def onWords : IntOperation → List Int64 → Except Fault Int64
  | .arith op, [a, b] => op.onInts a b
  | .negate, [a] => negateInt a
  | .step up, [a] => stepInt up a
  | _, _ => .error .stackUnderflow

variable {op : IntOperation} {ws : List Int64} {w : Int64}

/-- How the machine computes an operation on words. -/
inductive Evaluation (op : IntOperation) (ws : List Int64) : Prop where
  /-- The operation divides by zero and has no result. -/
  | byZero (divides : op.DividesByZero (ws.map Int64.toInt))
      (failed : op.onWords ws = .error .divisionByZero)
      (never : ∀ n, ¬ op.Gives (ws.map Int64.toInt) n)
  /-- The operation has one result, which the machine finds if it is a word. -/
  | exact (n : Int) (other : ¬ op.DividesByZero (ws.map Int64.toInt))
      (computed : op.onWords ws = exactly op.instr.opcode n)
      (gives : ∀ k, op.Gives (ws.map Int64.toInt) k ↔ k = n)

/-- The machine computes every operation on as many words as it has operands. -/
theorem evaluation (length : ws.length = op.arity) : op.Evaluation ws := by
  cases op with
  | arith op =>
    obtain ⟨a, b, rfl⟩ := List.length_eq_two.1 length
    cases op with
    | plus => exact .exact _ (fun zero => nomatch zero.1) rfl fun _ => Iff.rfl
    | minus => exact .exact _ (fun zero => nomatch zero.1) rfl fun _ => Iff.rfl
    | times => exact .exact _ (fun zero => nomatch zero.1) rfl fun _ => Iff.rfl
    | divide =>
      by_cases zero : b = 0
      · subst zero
        exact .byZero ⟨rfl, a.toInt, rfl⟩ rfl (not_truncatedQuotient_zero a.toInt)
      · have nonzero : b.toInt ≠ 0 := fun same => zero (Int64.toInt_inj.1 same)
        refine .exact (a.toInt.tdiv b.toInt) ?_ (if_neg zero) fun k => truncatedQuotient_iff nonzero
        rintro ⟨-, a', same⟩
        exact nonzero (List.cons.inj (List.cons.inj same).2).1
  | negate =>
    obtain ⟨a, rfl⟩ := List.length_eq_one_iff.1 length
    exact .exact _ (fun zero => nomatch zero.1) rfl fun _ => Iff.rfl
  | step up =>
    obtain ⟨a, rfl⟩ := List.length_eq_one_iff.1 length
    cases up with
    | true => exact .exact _ (fun zero => nomatch zero.1) rfl fun _ => Iff.rfl
    | false => exact .exact _ (fun zero => nomatch zero.1) rfl fun _ => Iff.rfl

/-- A word is the result if it is the exact result. -/
theorem onWords_eq_ok_iff (length : ws.length = op.arity) :
    op.onWords ws = .ok w ↔ op.Gives (ws.map Int64.toInt) w.toInt := by
  cases evaluation length with
  | byZero _ failed never =>
    rw [failed]
    exact ⟨nofun, fun result => absurd result (never _)⟩
  | exact n _ computed gives => rw [computed, exactly_eq_ok_iff, gives]

/-- An operation overflows if its result is not a word. -/
theorem onWords_eq_overflow_iff (length : ws.length = op.arity) :
    op.onWords ws = .error (.integerOverflow op.instr.opcode) ↔
      ∃ n, op.Gives (ws.map Int64.toInt) n ∧ ¬ IsWord n := by
  cases evaluation length with
  | byZero _ failed never =>
    rw [failed]
    exact ⟨nofun, fun ⟨n, result, _⟩ => absurd result (never n)⟩
  | exact n _ computed gives =>
    rw [computed, exactly_eq_error_iff]
    constructor
    · rintro ⟨-, outside⟩
      exact ⟨n, (gives n).2 rfl, outside⟩
    · rintro ⟨k, result, outside⟩
      exact ⟨rfl, (gives k).1 result ▸ outside⟩

/-- No other operation fails over a division by zero. -/
theorem onWords_eq_divisionByZero_iff (length : ws.length = op.arity) :
    op.onWords ws = .error .divisionByZero ↔ op.DividesByZero (ws.map Int64.toInt) := by
  cases evaluation length with
  | byZero divides failed _ => exact ⟨fun _ => divides, fun _ => failed⟩
  | exact n other computed _ =>
    rw [computed, exactly_eq_error_iff]
    exact ⟨fun failed => (nomatch failed.1), fun divides => absurd divides other⟩

end IntOperation

/-! ## Operands on the stack -/

namespace Machine

/-- The machine with other values on the stack. -/
def withValues (m : Machine) (values : Array Value) : Machine :=
  { m with stack := { m.stack with values } }

/-- The second machine differs from the first one only in the stack above some values and in the account of
frames. -/
structure KeepsBelow (m : Machine) (below : Array Value) (m' : Machine) : Prop where
  stack : ∃ rest, m'.stack = { m.stack with values := below ++ rest }
  heap : m'.heap = m.heap
  globals : m'.globals = m.globals

theorem keepsBelow_withValues (m : Machine) (below rest : Array Value) :
    m.KeepsBelow below (m.withValues (below ++ rest)) := ⟨⟨rest, rfl⟩, rfl, rfl⟩

theorem KeepsBelow.letGo {m m' : Machine} {below : Array Value} (keeps : m.KeepsBelow below m')
    (v : Value) : m.KeepsBelow below (m'.letGo v) := by
  rw [letGo_eq]
  exact ⟨keeps.stack, keeps.heap, keeps.globals⟩

/-- Nothing depends on who holds an integer. -/
@[simp] theorem letGo_int (m : Machine) (n : Int64) : m.letGo (.int n) = m := by
  have kept : m.keeper.letGo (.int n) = m.keeper := if_pos (Bool.or_true _)
  rw [letGo_eq, kept]

end Machine

namespace Exec

variable {α : Type} {m : Machine} {below : Array Value} {v : Value} {a b : Int64}

/-- More values leave what is out of reach out of reach. -/
theorem reach_push (reach : m.stack.floor ≤ below.size) (v : Value) :
    m.stack.floor ≤ (below.push v).size := by
  rw [Array.size_push]
  exact Nat.le_succ_of_le reach

/-- A value above what is out of reach is the top value. -/
theorem top?_withValues (reach : m.stack.floor ≤ below.size) (v : Value) :
    (m.withValues (below.push v)).stack.top? = some v :=
  Stack.top?_push (s := (m.withValues below).stack) reach v

/-- Without its top value the stack is what lies below. -/
theorem drop_withValues (m : Machine) (below : Array Value) (v : Value) :
    { m.withValues (below.push v) with stack := (m.withValues (below.push v)).stack.drop } =
      m.withValues below := by
  simp [Machine.withValues, Stack.drop]

/-- The top value is taken off and let go when the computation on it is over. -/
theorem taking_of_ok {body : Value → Exec α} {x : α} {m' : Machine}
    (reach : m.stack.floor ≤ below.size) (done : body v (m.withValues below) = .ok x m') :
    taking body (m.withValues (below.push v)) = .ok x (m'.letGo v) := by
  simp only [taking, top?_withValues reach v, drop_withValues, done]

/-- The top value is taken off and let go when the computation on it has failed. -/
theorem taking_of_error {body : Value → Exec α} {f : Failure} {m' : Machine}
    (reach : m.stack.floor ≤ below.size) (failed : body v (m.withValues below) = .error f m') :
    taking body (m.withValues (below.push v)) = .error f (m'.letGo v) := by
  simp only [taking, top?_withValues reach v, drop_withValues, failed]

/-- An integer is taken off and nothing else is done with it. -/
theorem takingAs_int (reach : m.stack.floor ≤ below.size) (body : Int64 → Exec α) :
    takingAs body (m.withValues (below.push (.int a))) = body a (m.withValues below) := by
  rw [takingAs]
  cases result : body a (m.withValues below) with
  | ok x m' => rw [taking_of_ok reach result, Machine.letGo_int]
  | error f m' => rw [taking_of_error reach result, Machine.letGo_int]

theorem read_of_kind_ne (other : v.kind ≠ .int) :
    (v.read : Except Fault Int64) = .error (.typeMismatch .int v.kind) := by
  cases v with
  | int n => exact absurd rfl other
  | _ => rfl

/-- Where an integer is expected another value is gone and nothing is computed. -/
theorem takingAs_of_kind_ne (reach : m.stack.floor ≤ below.size) (other : v.kind ≠ .int)
    (body : Int64 → Exec α) :
    takingAs body (m.withValues (below.push v)) =
      .error (Fault.typeMismatch .int v.kind) ((m.withValues below).letGo v) := by
  refine taking_of_error reach ?_
  rw [read_of_kind_ne other]
  rfl

theorem pushData_int (room : below.size < m.stack.ceiling) :
    pushData a (m.withValues below) = .ok () (m.withValues (below.push (.int a))) := by
  have free : (m.withValues below).stack.isFull = false := decide_eq_false (Nat.not_le_of_lt room)
  simp only [pushData, push, free]
  rfl

/-! ## Computing on the stack -/

/-- What becomes of a word that was computed: it is pushed, or the failure leaves `kept`. -/
def answer (x : α) (m : Machine) (below kept : Array Value) :
    Except Fault Int64 → EStateM.Result Failure Machine α
  | .ok w => .ok x (m.withValues (below.push (.int w)))
  | .error e => .error e (m.withValues (below ++ kept))

theorem answer_eq_ok_iff {x : α} {kept : Array Value} {r : Except Fault Int64} :
    answer x m below kept r = .ok x (m.withValues (below.push (.int a))) ↔ r = .ok a := by
  cases r with
  | ok w =>
    constructor
    · intro same
      have values := congrArg (·.stack.values) (EStateM.Result.ok.inj same).2
      cases (Array.push_inj_right.1 values)
      rfl
    · rintro ⟨⟩
      rfl
  | error e => exact ⟨nofun, nofun⟩

theorem exists_answer_eq_error_iff {x : α} {kept : Array Value} {r : Except Fault Int64}
    {e : Fault} :
    (∃ m', answer x m below kept r = .error e m') ↔ r = .error e := by
  cases r with
  | ok w => exact ⟨nofun, nofun⟩
  | error e' =>
    constructor
    · rintro ⟨m', same⟩
      cases same
      rfl
    · rintro ⟨⟩
      exact ⟨_, rfl⟩

theorem binary_ints (reach : m.stack.floor ≤ below.size) (room : below.size < m.stack.ceiling)
    (f : Int64 → Int64 → Except Fault Int64) :
    binary f (m.withValues ((below.push (.int a)).push (.int b))) = answer () m below #[] (f a b) := by
  rw [binary, takingAs_int (reach_push reach _), takingAs_int reach]
  cases f a b with
  | ok w => exact pushData_int room
  | error e =>
    rw [answer, Array.append_empty]
    rfl

theorem popAs_eq : popAs Int64 = takingAs pure := by
  simp only [popAs, takingAs, bind_pure]

theorem unary_int (reach : m.stack.floor ≤ below.size) (room : below.size < m.stack.ceiling)
    (f : Int64 → Except Fault Int64) :
    unary f (m.withValues (below.push (.int a))) = answer () m below #[] (f a) := by
  have popped : popAs Int64 (m.withValues (below.push (.int a))) = .ok a (m.withValues below) := by
    rw [popAs_eq, takingAs_int reach]
    rfl
  simp only [unary, Bind.bind, EStateM.bind, popped]
  cases f a with
  | ok w => exact pushData_int room
  | error e =>
    rw [answer, Array.append_empty]
    rfl

theorem stepTop_int (reach : m.stack.floor ≤ below.size) (up : Bool) :
    stepTop up (m.withValues (below.push (.int a))) = answer () m below #[.int a] (stepInt up a) := by
  have found := top?_withValues reach (.int a)
  have seen : top (m.withValues (below.push (.int a))) =
      .ok (.int a) (m.withValues (below.push (.int a))) := by
    simp only [top, found]
  have read : (Value.int a).read = Except.ok a := rfl
  simp only [stepTop, Bind.bind, EStateM.bind, seen, read, ofExcept, pure, EStateM.pure]
  cases stepInt up a with
  | ok w =>
    have replaced : (m.withValues (below.push (.int a))).stack.setTop (.int w) =
        (m.withValues (below.push (.int w))).stack := by
      simp [Machine.withValues, Stack.setTop, Stack.drop, Stack.push]
    show setTop (.int w) (m.withValues (below.push (.int a))) = _
    simp only [setTop, found, Machine.letGo_int, replaced]
    rfl
  | error e =>
    rw [answer, Array.append_singleton]
    rfl

theorem binary_right (reach : m.stack.floor ≤ below.size) (other : v.kind ≠ .int)
    (f : Int64 → Int64 → Except Fault Int64) :
    binary f (m.withValues (below.push v)) =
      .error (Fault.typeMismatch .int v.kind) ((m.withValues below).letGo v) :=
  takingAs_of_kind_ne reach other _

theorem binary_left (reach : m.stack.floor ≤ below.size) (other : v.kind ≠ .int)
    (f : Int64 → Int64 → Except Fault Int64) :
    binary f (m.withValues ((below.push v).push (.int b))) =
      .error (Fault.typeMismatch .int v.kind) ((m.withValues below).letGo v) := by
  rw [binary, takingAs_int (reach_push reach v), takingAs_of_kind_ne reach other]

theorem unary_of_kind_ne (reach : m.stack.floor ≤ below.size) (other : v.kind ≠ .int)
    (f : Int64 → Except Fault Int64) :
    unary f (m.withValues (below.push v)) =
      .error (Fault.typeMismatch .int v.kind) ((m.withValues below).letGo v) := by
  simp only [unary, Bind.bind, EStateM.bind, popAs_eq, takingAs_of_kind_ne reach other]

theorem stepTop_of_kind_ne (reach : m.stack.floor ≤ below.size) (other : v.kind ≠ .int)
    (up : Bool) :
    stepTop up (m.withValues (below.push v)) =
      .error (Fault.typeMismatch .int v.kind) (m.withValues (below.push v)) := by
  simp only [stepTop, Bind.bind, EStateM.bind, top, top?_withValues reach v, read_of_kind_ne other]
  rfl

/-- An instruction that computes goes on with the next one. -/
theorem next_of_answer {x : Exec Unit} {n : Machine} {kept : Array Value} {r : Except Fault Int64}
    (answered : x n = answer () m below kept r) :
    (do x; return Flow.next : Exec Flow) n = answer .next m below kept r := by
  simp only [Bind.bind, EStateM.bind, answered]
  cases r <;> rfl

theorem next_of_error {x : Exec Unit} {n m' : Machine} {f : Failure} (failed : x n = .error f m') :
    (do x; return Flow.next : Exec Flow) n = .error f m' := by
  simp only [Bind.bind, EStateM.bind, failed]

end Exec

namespace IntOperation

open Exec

variable {op : IntOperation} {m : Machine} {below : Array Value} {ws : List Int64} {v : Value}

/-- On integers an instruction answers what the machine computes. -/
theorem perform_ints (home : ProgramRef) (frame : FrameRef) (length : ws.length = op.arity)
    (reach : m.stack.floor ≤ below.size) (room : below.size < m.stack.ceiling) :
    ∃ kept, perform home frame op.instr (m.withValues (below ++ (ws.map Value.int).toArray)) =
      answer .next m below kept (op.onWords ws) := by
  cases op with
  | arith op =>
    obtain ⟨a, b, rfl⟩ := List.length_eq_two.1 length
    exact ⟨_, next_of_answer (binary_ints reach room op.onInts)⟩
  | negate =>
    obtain ⟨a, rfl⟩ := List.length_eq_one_iff.1 length
    exact ⟨_, next_of_answer (unary_int reach room negateInt)⟩
  | step up =>
    obtain ⟨a, rfl⟩ := List.length_eq_one_iff.1 length
    exact ⟨_, next_of_answer (stepTop_int reach up)⟩

/-- A value that is the only operand has nothing beside it. -/
theorem alone_of_length {first : List Value} (one : first.length + (ws.length + 1) = 1) :
    first = [] ∧ ws = [] := by
  have none : first.length + ws.length = 0 := Nat.succ.inj one
  simpa using none

/-- An instruction fails over the last operand that is no integer. -/
theorem perform_other (home : ProgramRef) (frame : FrameRef) {first : List Value}
    (other : v.kind ≠ .int) (length : (first ++ v :: ws.map Value.int).length = op.arity)
    (reach : m.stack.floor ≤ below.size) :
    ∃ m', perform home frame op.instr
        (m.withValues (below ++ (first ++ v :: ws.map Value.int).toArray)) =
          .error (Fault.typeMismatch .int v.kind) m' ∧ m.KeepsBelow below m' := by
  have gone := m.keepsBelow_withValues below #[]
  rw [Array.append_empty] at gone
  rw [List.length_append, List.length_cons, List.length_map] at length
  cases op with
  | arith op =>
    cases first with
    | nil =>
      -- the right operand is an integer, and the left one is not
      obtain ⟨b, rfl⟩ : ∃ b, ws = [b] := by simpa [arity, List.length_eq_one_iff] using length
      exact ⟨_, next_of_error (binary_left reach other op.onInts), gone.letGo v⟩
    | cons x first =>
      have one : first.length + (ws.length + 1) = 1 := by
        rw [List.length_cons, arity] at length
        omega
      obtain ⟨rfl, rfl⟩ := alone_of_length one
      have left := m.keepsBelow_withValues below #[x]
      exact ⟨_, next_of_error (binary_right (reach_push reach x) other op.onInts), left.letGo v⟩
  | negate =>
    obtain ⟨rfl, rfl⟩ := alone_of_length length
    exact ⟨_, next_of_error (unary_of_kind_ne reach other negateInt), gone.letGo v⟩
  | step up =>
    obtain ⟨rfl, rfl⟩ := alone_of_length length
    have kept := m.keepsBelow_withValues below #[v]
    exact ⟨_, next_of_error (stepTop_of_kind_ne reach other up), kept⟩

/-- Values are all integers, or there is a last one that is none. -/
theorem integers_or_other (values : List Value) :
    (∃ ws : List Int64, values = ws.map Value.int) ∨
      ∃ first v, ∃ ws : List Int64, values = first ++ v :: ws.map Value.int ∧ v.kind ≠ .int := by
  induction values with
  | nil => exact .inl ⟨[], rfl⟩
  | cons v rest ih =>
    rcases ih with ⟨ws, rfl⟩ | ⟨first, other, ws, rfl, kind⟩
    · cases v with
      | int n => exact .inl ⟨n :: ws, rfl⟩
      | _ => exact .inr ⟨[], _, ws, rfl, nofun⟩
    · exact .inr ⟨v :: first, other, ws, rfl, kind⟩

/-- What an operation does to words on the stack: it has one result unless it divides by zero, pushes the
word that is the result, and fails if there is none. -/
structure Computes (op : IntOperation) (ws : List Int64) (m : Machine) (below : Array Value)
    (x : EStateM.Result Failure Machine Flow) : Prop where
  unique : op.DividesByZero (ws.map Int64.toInt) ∨ ∃! n, op.Gives (ws.map Int64.toInt) n
  pushes : ∀ w, x = .ok .next (m.withValues (below.push (.int w))) ↔
    op.Gives (ws.map Int64.toInt) w.toInt
  overflows : (∃ m', x = .error (Fault.integerOverflow op.instr.opcode) m') ↔
    ∃ n, op.Gives (ws.map Int64.toInt) n ∧ ¬ IsWord n
  divides : (∃ m', x = .error Fault.divisionByZero m') ↔ op.DividesByZero (ws.map Int64.toInt)

theorem computes_answer (length : ws.length = op.arity) (m : Machine) (below kept : Array Value) :
    op.Computes ws m below (answer .next m below kept (op.onWords ws)) where
  unique := by
    cases evaluation length with
    | byZero divides => exact .inl divides
    | exact n _ _ gives => exact .inr ⟨n, (gives n).2 rfl, fun k => (gives k).1⟩
  pushes w := answer_eq_ok_iff.trans (onWords_eq_ok_iff length)
  overflows := exists_answer_eq_error_iff.trans (onWords_eq_overflow_iff length)
  divides := exists_answer_eq_error_iff.trans (onWords_eq_divisionByZero_iff length)

/-- On integers an operation pushes the exact result, or fails if no word is the result. On other values
it fails over the last one that is no integer. In any case the values below the operands, the limits of the
stack, the heap and the global frame are as they were. -/
theorem perform_exact (op : IntOperation) (home : ProgramRef) (frame : FrameRef)
    {operands : List Value} (placed : m.stack.values = below ++ operands.toArray)
    (length : operands.length = op.arity) (reach : m.stack.floor ≤ below.size)
    (room : below.size < m.stack.ceiling) :
    (∀ ws : List Int64, operands = ws.map Value.int →
      op.Computes ws m below (perform home frame op.instr m)) ∧
    (∀ first v, ∀ ws : List Int64, operands = first ++ v :: ws.map Value.int → v.kind ≠ .int →
      ∃ m', perform home frame op.instr m = .error (Fault.typeMismatch .int v.kind) m') ∧
    m.KeepsBelow below (after (perform home frame op.instr) m) := by
  have same : m.withValues (below ++ operands.toArray) = m := by
    rw [← placed]
    rfl
  have onInts (ws : List Int64) (ints : operands = ws.map Value.int) : ws.length = op.arity ∧
      ∃ kept, perform home frame op.instr m = answer .next m below kept (op.onWords ws) := by
    subst ints
    rw [List.length_map] at length
    have performed := perform_ints (m := m) home frame length reach room
    rw [same] at performed
    exact ⟨length, performed⟩
  have onOther (first : List Value) (v : Value) (ws : List Int64)
      (parts : operands = first ++ v :: ws.map Value.int) (other : v.kind ≠ .int) :
      ∃ m', perform home frame op.instr m = .error (Fault.typeMismatch .int v.kind) m' ∧
        m.KeepsBelow below m' := by
    subst parts
    have performed := perform_other (m := m) home frame other length reach
    rwa [same] at performed
  refine ⟨fun ws ints => ?_, fun first v ws parts other => ?_, ?_⟩
  · obtain ⟨words, kept, performed⟩ := onInts ws ints
    rw [performed]
    exact computes_answer words m below kept
  · obtain ⟨m', failed, -⟩ := onOther first v ws parts other
    exact ⟨m', failed⟩
  · rcases integers_or_other operands with ⟨ws, ints⟩ | ⟨first, v, ws, parts, other⟩
    · obtain ⟨-, kept, performed⟩ := onInts ws ints
      rw [after, performed]
      cases op.onWords ws with
      | ok w => exact m.keepsBelow_withValues below #[.int w]
      | error e => exact m.keepsBelow_withValues below kept
    · obtain ⟨m', failed, keeps⟩ := onOther first v ws parts other
      rwa [after_of_error failed]

/-- A machine with the least word and minus one on top of its stack, above a value. -/
def leastByMinusOne : Machine where
  stack := { values := #[.nil, .int .minValue, .int (-1)], maxDepth := 1 }
  globals := ⟨0⟩

/-- The quotient of the least word by minus one is no word. -/
theorem perform_exact_leastByMinusOne :
    (∃ m', perform ⟨0⟩ ⟨0⟩ (.intArith .divide) leastByMinusOne =
        .error (Fault.integerOverflow .iDivide) m') ∧
      leastByMinusOne.KeepsBelow #[.nil]
        (after (perform ⟨0⟩ ⟨0⟩ (.intArith .divide)) leastByMinusOne) := by
  have placed : leastByMinusOne.stack.values =
      #[.nil] ++ ([.int .minValue, .int (-1)] : List Value).toArray := rfl
  obtain ⟨computes, -, keeps⟩ :=
    perform_exact (.arith .divide) ⟨0⟩ ⟨0⟩ placed rfl (by decide) (by decide)
  have computes := computes [.minValue, -1] rfl
  have quotient : TruncatedQuotient Int64.minValue.toInt (-1) 9223372036854775808 :=
    ⟨0, by decide, by decide, .inl rfl⟩
  exact ⟨computes.overflows.2 ⟨_, quotient, by decide⟩, keeps⟩

end IntOperation

end PlotMachine
