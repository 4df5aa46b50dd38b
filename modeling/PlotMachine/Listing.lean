import PlotMachine.Text.Blank
import PlotMachine.Text.Quoted
import PlotMachine.Validate
import PlotMachine.Value.Text

/-!
# Listings

The readable form of code: one line for each instruction, with its offset, its mnemonic and its
operand. `Store.listAll` lists lambdas together with all lambdas they refer to, each one once, the
nearest first.
-/

namespace PlotMachine

/-- A text filled up with spaces on the left. -/
def padLeft (width : Nat) (s : String) : String :=
  String.ofList (List.replicate (width - s.length) ' ') ++ s

/-- A text filled up with spaces on the right. -/
def padRight (width : Nat) (s : String) : String :=
  s ++ String.ofList (List.replicate (width - s.length) ' ')

namespace Store

/-- A constant in a listing; texts are quoted. -/
def constantText (s : Store) (h : Heap) : Value → String
  | .str t => quoted t
  | v => s.text h v

/-- The operand of an instruction in a listing. Jump targets are given relative to `base`. -/
def operandText (s : Store) (h : Heap) (base : Label) : Instr → Except Fault (Option String)
  | .intPush n => .ok (toString n.toInt)
  | .constPush v => .ok (s.constantText h v)
  | .load _ slot | .save _ slot => .ok (toString slot)
  | .jump _ target => do return some s!"-> {← base.distanceTo target}"
  | .builtin fn => .ok fn.name
  | .makeFunc l => .ok (s.lambda l).displayName
  | .alloc r => .ok s!"{(s.record r).displayName} size={(s.record r).size}"
  | _ => .ok none

/-- Lists the instruction at a label and answers the label after it. What was written before a
failure is kept. -/
def listAt (s : Store) (h : Heap) (label base : Label) : String × Except Fault Label :=
  match (do return (← s.dereference label, ← base.distanceTo label) : Except Fault _) with
  | .error e => ("", .error e)
  | .ok (i, here) =>
    let start := padLeft 5 (toString here) ++ "  " ++ padRight 12 i.opcode.mnemonic
    match s.operandText h base i with
    | .error e => (start, .error e)
    | .ok operand =>
      let line := match operand with
        | some operand => start ++ " " ++ operand
        | none => start
      (trimEnd line ++ "\n", s.advance label 1)

/-- The label at the end of a program. -/
def endOf (s : Store) (p : ProgramRef) : Label := ⟨some p, (s.code p).size⟩

/-- How many instructions there are from a label on. -/
def ahead (s : Store) (label : Label) : Nat :=
  ((label.program.bind s.code?).getD #[]).size - label.offset

/-- What is listed is an instruction, and the label after it is the next one. -/
theorem exists_of_listAt {s : Store} {h : Heap} {label base next : Label} {text : String}
    (listed : s.listAt h label base = (text, .ok next)) :
    (∃ i, s.dereference label = .ok i) ∧ next = { label with offset := label.offset + 1 } := by
  cases found : s.dereference label with
  | error e =>
    rw [listAt, found] at listed
    cases listed
  | ok i =>
    refine ⟨⟨i, rfl⟩, ?_⟩
    have advanced : s.advance label 1 = .ok next := by
      unfold listAt at listed
      split at listed
      · simp only [Prod.mk.injEq, reduceCtorEq, and_false] at listed
      · dsimp only at listed
        split at listed
        · simp only [Prod.mk.injEq, reduceCtorEq, and_false] at listed
        · exact (Prod.mk.injEq .. ▸ listed).2
    exact (advance_eq_ok_iff.1 advanced).2

/-- There are fewer instructions ahead once one is listed. -/
theorem ahead_lt_of_listAt {s : Store} {h : Heap} {label base next : Label} {text : String}
    (listed : s.listAt h label base = (text, .ok next)) : s.ahead next < s.ahead label := by
  obtain ⟨⟨i, found⟩, rfl⟩ := exists_of_listAt listed
  unfold dereference at found
  unfold ahead
  split at found
  · cases found
  next code program =>
  split at found
  · next i' there =>
    rw [program, Option.getD_some]
    have inside := (Array.getElem?_eq_some_iff.1 there).1
    dsimp only
    omega
  · cases found

/-- Lists instructions from a label on, until the label is the one to stop at, as long as `more` allows
it. -/
def listFrom (s : Store) (h : Heap) (base stop : Label) (more : Instr → Bool) (label : Label) :
    String × Except Fault Unit :=
  if label = stop then ("", .ok ())
  else
    match s.dereference label with
    | .error e => ("", .error e)
    | .ok i =>
      match _listed : s.listAt h label base with
      | (text, .error e) => (text, .error e)
      | (text, .ok next) =>
        if more i then
          let (others, result) := s.listFrom h base stop more next
          (text ++ others, result)
        else (text, .ok ())
termination_by s.ahead label
decreasing_by exact ahead_lt_of_listAt _listed

/-- Whether a listing of a program goes on after an instruction. -/
def isRet : Instr → Bool
  | .ret => true
  | _ => false

/-- Lists a program up to its first `ret`. -/
def listProgram (s : Store) (h : Heap) (p : ProgramRef) : String × Except Fault Unit :=
  let base : Label := { program := some p }
  s.listFrom h base (s.endOf p) (fun i => !isRet i) base

/-- The first line of the listing of a lambda. -/
def listHeader (lambda : Lambda) : String :=
  s!"lambda {lambda.displayName} (params={lambda.params}, vars={lambda.vars}, "
    ++ s!"max_stack={lambda.maxStack})\n"

/-- Lists a lambda. -/
def listLambda (s : Store) (h : Heap) (l : LambdaRef) : Except Fault String :=
  let lambda := s.lambda l
  let base : Label := { program := some lambda.code }
  match s.listFrom h base (s.endOf lambda.code) (fun _ => true) base with
  | (text, .ok ()) => .ok (listHeader lambda ++ text)
  | (_, .error e) => .error e

/-- The lambda an instruction refers to in one way or another. -/
def mentioned? (s : Store) : Instr → Option LambdaRef
  | .makeFunc l => some l
  | .alloc r => some (s.record r).init
  | .constPush (.lambda l) => some l
  | .constPush (.callable (.function _ body _)) => some body
  | _ => none

/-- The lambdas a lambda refers to, in the order of its instructions. -/
def mentions (s : Store) (l : LambdaRef) : List LambdaRef :=
  (s.body l).toList.filterMap s.mentioned?

/-- Lists the lambdas of a queue and all they refer to, leaving out those in `seen`. -/
def listQueue (s : Store) (h : Heap) (seen : List LambdaRef) :
    List LambdaRef → Except Fault (List String)
  | [] => .ok []
  | l :: rest =>
    if l ∈ seen then s.listQueue h seen rest
    else do
      let text ← s.listLambda h l
      return text :: (← s.listQueue h (l :: seen) (rest ++ s.mentions l))
termination_by queue => (unvisited s.lambdaRefs seen, queue.length)
decreasing_by
  · exact Prod.Lex.right _ (by simp)
  · by_cases known : l ∈ s.lambdaRefs
    · exact Prod.Lex.left _ _ (unvisited_cons_lt known ‹_›)
    · rw [unvisited_cons_of_not_mem _ known]
      exact Prod.Lex.right _ (by simp [mentions, body_eq_empty known])

/-- Lists lambdas and all they refer to, with an empty line between two lambdas. -/
def listAll (s : Store) (h : Heap) (roots : List LambdaRef) : Except Fault String := do
  return "\n".intercalate (← s.listQueue h [] roots)

end Store

end PlotMachine
