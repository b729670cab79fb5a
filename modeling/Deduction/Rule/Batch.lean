import Deduction.Rule.Inference
import Deduction.Rule.Place

/-!
# Batches

One rule applied to every combination of candidate statements. In a strict batch the first
application that fails ends the batch with its error; in a silent one, applications that fail are
left out. Malformed batches are refused before any application, whatever the candidates.
-/

namespace Deduction

/-- The second argument of a batch: absent, one statement, or a list of candidates. -/
inductive Argument where
  | absent
  | one (f : Formula)
  | many (fs : List Formula)

/-- A rule with the candidates for its arguments. -/
structure Batch where
  rule : Rule
  first : List Formula
  second : Argument := .absent
  silent : Bool := false
  /-- The place inside each statement at which a rule of replacement acts. -/
  path : List Int := []

namespace Batch

/-- The candidates for the second argument. Addition takes exactly one, in a list or by itself;
the other rules take a list. -/
def seconds (b : Batch) : Except RuleError (List Formula) :=
  match b.second with
  | .absent => .error (.missingArgument b.rule)
  | .one f => if b.rule = .add then .ok [f] else .error (.notAList b.rule f)
  | .many fs =>
    if b.rule = .add && fs.length ≠ 1 then .error (.notOneAddend b.rule) else .ok fs

/-- All pairs, in the order of the first list and then of the second. -/
def pairs (xs ys : List Formula) : List (Formula × Formula) :=
  xs.flatMap fun x => ys.map fun y => (x, y)

/-- The application of a schema to one statement, at the path for a rule of replacement. -/
def applyOne (b : Batch) (conclude : Formula → Option Conclusion) (f : Formula) :
    Except RuleError Formula :=
  let change (g : Formula) := b.rule.outcome (conclude g)
  if b.rule.isReplacement then f.modifyAt b.rule change b.path else change f

/-- The application of a schema to two statements. -/
def applyTwo (b : Batch) (conclude : Formula → Formula → Option Conclusion)
    (fs : Formula × Formula) : Except RuleError Formula :=
  b.rule.outcome (conclude fs.1 fs.2)

/-- Runs the applications in order. -/
def collect {α : Type} (silent : Bool) (apply : α → Except RuleError Formula) :
    List α → Except RuleError (List Formula)
  | [] => .ok []
  | a :: rest =>
    match apply a with
    | .ok f => (collect silent apply rest).map (f :: ·)
    | .error e => if silent then collect silent apply rest else .error e

/-- Refuses a path for a rule that takes whole statements. -/
def checkPath (b : Batch) : Except RuleError Unit :=
  if !b.path.isEmpty && !b.rule.isReplacement then .error (.takesNoPath b.rule) else .ok ()

/-- The results of a batch, one for each application that succeeds. -/
def run (b : Batch) : Except RuleError (List Formula) := do
  let schema ← b.rule.schema
  b.checkPath
  match schema with
  | .unary conclude => collect b.silent (b.applyOne conclude) b.first
  | .binary conclude => collect b.silent (b.applyTwo conclude) (pairs b.first (← b.seconds))

end Batch

end Deduction
