import Deduction.Formula.Parser
import Deduction.Rule.Error

/-!
# Single inferences

What each rule concludes from one or two statements. A conclusion is either a part of a statement
that was given, or built anew. A statement that was built is accepted only if its canonical text
is read back as the same statement, so that whatever is stored can be typed in again.
-/

namespace Deduction

/-- What a rule concludes. -/
inductive Conclusion where
  /-- A part of a statement that was given. -/
  | part (f : Formula)
  /-- A statement put together from parts. -/
  | built (f : Formula)

/-- The schema of a rule: what it concludes from the one or two statements it takes. -/
inductive Schema where
  | unary (conclude : Formula → Option Conclusion)
  | binary (conclude : Formula → Formula → Option Conclusion)

/-! ### The schemas -/

namespace Schema

/-- From `A -> B` and `A` conclude `B`. -/
def modusPonens : Formula → Formula → Option Conclusion
  | .binary .implies a b, f => if a == f then some (.part b) else none
  | _, _ => none

/-- From `A -> B` and `~B` conclude `~A`. -/
def modusTollens : Formula → Formula → Option Conclusion
  | .binary .implies a b, .neg f => if f == b then some (.built (.neg a)) else none
  | _, _ => none

/-- From `A V B` and `~A` conclude `B`. -/
def disjunctiveSyllogism : Formula → Formula → Option Conclusion
  | .binary .or a b, f => if f == .neg a then some (.part b) else none
  | _, _ => none

/-- From `A -> B` and `B -> C` conclude `A -> C`. -/
def hypotheticalSyllogism : Formula → Formula → Option Conclusion
  | .binary .implies a b, .binary .implies b' c =>
    if b == b' then some (.built (.binary .implies a c)) else none
  | _, _ => none

/-- From `A ^ B` conclude `A`. -/
def simplification : Formula → Option Conclusion
  | .binary .and a _ => some (.part a)
  | _ => none

/-- From `A` and `B` conclude `A ^ B`. -/
def conjunction (a b : Formula) : Option Conclusion := some (.built (.binary .and a b))

/-- From `(A -> B) ^ (C -> D)` and `A V C` conclude `B V D`. -/
def constructiveDilemma : Formula → Formula → Option Conclusion
  | .binary .and (.binary .implies a b) (.binary .implies c d), .binary .or a' c' =>
    if a' == a && c' == c then some (.built (.binary .or b d)) else none
  | _, _ => none

/-- From `A -> B` conclude `A -> (A ^ B)`. -/
def absorption : Formula → Option Conclusion
  | .binary .implies a b => some (.built (.binary .implies a (.binary .and a b)))
  | _ => none

/-- From `A` conclude `A V B` for any `B`. -/
def addition (a b : Formula) : Option Conclusion := some (.built (.binary .or a b))

/-- Replace `~~A` by `A` and any other `A` by `~~A`. -/
def doubleNegation : Formula → Option Conclusion
  | .neg (.neg a) => some (.part a)
  | a => some (.built (.neg (.neg a)))

end Schema

namespace Rule

/-- The schema of a rule; the rules known by name alone have none. -/
def schema : Rule → Except RuleError Schema
  | mp => .ok (.binary Schema.modusPonens)
  | mt => .ok (.binary Schema.modusTollens)
  | ds => .ok (.binary Schema.disjunctiveSyllogism)
  | hs => .ok (.binary Schema.hypotheticalSyllogism)
  | simp => .ok (.unary Schema.simplification)
  | conj => .ok (.binary Schema.conjunction)
  | cd => .ok (.binary Schema.constructiveDilemma)
  | abs => .ok (.unary Schema.absorption)
  | add => .ok (.binary Schema.addition)
  | dn => .ok (.unary Schema.doubleNegation)
  | rule => .error (.notImplemented rule)

/-- Accepts a built statement if its canonical text reads back as the same statement. -/
def readBack (rule : Rule) (f : Formula) : Except RuleError Formula :=
  match Formula.parse f.render with
  | .error _ => .error (.unreadable rule f.render)
  | .ok g => if g == f then .ok f else .error (.misread rule f.render)

/-- The outcome of one application, from what the schema concludes. -/
def outcome (rule : Rule) : Option Conclusion → Except RuleError Formula
  | none => .error (.notApplicable rule)
  | some (.part f) => .ok f
  | some (.built f) => rule.readBack f

/-- One application of a rule to the given statements. -/
def infer (rule : Rule) (fs : List Formula) : Except RuleError Formula := do
  match ← rule.schema, fs with
  | .unary conclude, [f] => rule.outcome (conclude f)
  | .binary conclude, [f, g] => rule.outcome (conclude f g)
  | _, _ => throw (.wrongCount rule fs.length)

end Rule

end Deduction
