import PlotMachine.Label
import PlotMachine.Unvisited

/-!
# Validation of code

Code is valid if every slot that it names exists, every jump stays within its own program, and every
initialiser takes exactly the instance it initialises; and if the same holds of all code it refers to.
`Store.validate` goes through a list of checks. The checks of a lambda are followed at once by those of
the lambdas it refers to, and a lambda is checked once.
-/

namespace PlotMachine

/-- Something to be checked. -/
inductive Check where
  | record (r : RecordRef)
  | lambda (l : LambdaRef)
  | instr (l : LambdaRef) (offset : Nat) (i : Instr)

namespace Check

/-- How many further checks of other kinds a check may lead to, at most. -/
def weight : Check → Nat
  | .lambda _ => 1
  | .record _ => 2
  | .instr .. => 3

/-- How many further checks all of some checks may lead to. -/
def total : List Check → Nat
  | [] => 0
  | check :: rest => check.weight + total rest

theorem total_append (checks more : List Check) :
    total (checks ++ more) = total checks + total more := by
  induction checks with
  | nil => rw [List.nil_append, total, Nat.zero_add]
  | cons check rest ih => rw [List.cons_append, total, total, ih, Nat.add_assoc]

end Check

/-- The code an instruction refers to and that is valid only if that code is. -/
def Instr.dependency? : Instr → Option Check
  | .makeFunc l => some (.lambda l)
  | .constPush (.lambda l) => some (.lambda l)
  | .alloc r => some (.record r)
  | _ => none

/-- What an instruction refers to is quicker to check than the instruction. -/
theorem Instr.weight_dependency?_lt (i : Instr) :
    Check.total i.dependency?.toList < 3 := by
  unfold Instr.dependency?
  split <;> simp [Check.total, Check.weight]

namespace Store

/-- All lambdas of the store. -/
def lambdaRefs (s : Store) : List LambdaRef := (List.range s.lambdas.size).map (⟨·⟩)

/-- A lambda of the store is among all of them. -/
theorem mem_lambdaRefs {s : Store} {l : LambdaRef} :
    l ∈ s.lambdaRefs ↔ l.index < s.lambdas.size := by
  simp only [lambdaRefs, List.mem_map, List.mem_range]
  exact ⟨fun ⟨_, hi, e⟩ => e ▸ hi, fun hi => ⟨l.index, hi, rfl⟩⟩

/-- A lambda that is not of the store has no code. -/
theorem body_eq_empty {s : Store} {l : LambdaRef} (out : l ∉ s.lambdaRefs) : s.body l = #[] := by
  have : s.lambdas.size ≤ l.index := by simpa [mem_lambdaRefs] using out
  simp [body, lambda, code, code?, Array.getElem?_eq_none this]

/-- Checks the sizes of a lambda. -/
def checkSizes (lambda : Lambda) : Except Fault Unit :=
  if lambda.vars < lambda.params then
    .error (.malformed (.paramsExceedVars lambda.displayName lambda.params lambda.vars))
  else .ok ()

/-- Checks that a record type can be initialised. -/
def checkInit (s : Store) (record : Record) : Except Fault Unit :=
  let params := (s.lambda record.init).params
  if params = 1 then .ok ()
  else .error (.malformed (.initializerTakes record.displayName params))

/-- Checks the slot an instruction names. -/
def checkSlot (lambda : Lambda) (offset slot : Nat) (op : Opcode) : Except Fault Unit :=
  if slot < lambda.vars then .ok ()
  else .error (.malformed (.slotOutOfRange lambda.displayName op offset slot lambda.vars))

/-- Checks where a jump goes. -/
def checkTarget (s : Store) (lambda : Lambda) (target : Label) : Except Fault Unit := do
  let offset ← target.offsetIn lambda.code
  let length := (s.code lambda.code).size
  if length < offset then throw (.labelOutOfBounds (signedOffset offset) length)

/-- Checks an instruction by itself. -/
def checkInstr (s : Store) (lambda : Lambda) (offset : Nat) (i : Instr) : Except Fault Unit :=
  match i with
  | .load .var slot | .save .var slot => checkSlot lambda offset slot i.opcode
  | .jump _ target => s.checkTarget lambda target
  | _ => .ok ()

/-- The checks of all instructions of a lambda. -/
def instrChecks (s : Store) (l : LambdaRef) : List Check :=
  (s.body l).toList.zipIdx.map fun (i, offset) => .instr l offset i

/-- Makes checks in order, where the lambdas in `seen` need none. -/
def checkAll (s : Store) (seen : List LambdaRef) : List Check → Except Fault Unit
  | [] => .ok ()
  | .record r :: rest => do
    s.checkInit (s.record r)
    s.checkAll seen (.lambda (s.record r).init :: rest)
  | .lambda l :: rest =>
    if l ∈ seen then s.checkAll seen rest
    else do
      checkSizes (s.lambda l)
      s.checkAll (l :: seen) (s.instrChecks l ++ rest)
  | .instr l offset i :: rest => do
    s.checkInstr (s.lambda l) offset i
    s.checkAll seen (i.dependency?.toList ++ rest)
termination_by checks => (unvisited s.lambdaRefs seen, Check.total checks)
decreasing_by
  · exact Prod.Lex.right _ (by simp [Check.total, Check.weight])
  · exact Prod.Lex.right _ (by simp [Check.total, Check.weight])
  · by_cases known : l ∈ s.lambdaRefs
    · exact Prod.Lex.left _ _ (unvisited_cons_lt known ‹_›)
    · rw [unvisited_cons_of_not_mem _ known]
      exact Prod.Lex.right _ (by simp [instrChecks, body_eq_empty known, Check.total, Check.weight])
  · have := i.weight_dependency?_lt
    exact Prod.Lex.right _ (by
      rw [Check.total_append, Check.total, Check.weight]
      omega)

/-- Checks a lambda and everything it refers to. -/
def validateLambda (s : Store) (l : LambdaRef) : Except Fault Unit := s.checkAll [] [.lambda l]

/-- Checks a record type and everything its initialiser refers to. -/
def validateRecord (s : Store) (r : RecordRef) : Except Fault Unit := s.checkAll [] [.record r]

end Store

end PlotMachine
