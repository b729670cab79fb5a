import Deduction.Formula.Basic
import Deduction.Rule.Error

/-!
# Places inside a statement

A place inside a statement is given by a path of operand positions, counted from 1 and read from
the top downwards; the empty path is the whole statement. The part at a place can be looked up
(`Formula.at?`) and changed (`Formula.modifyAt`); a change rebuilds the statement around the part.
-/

namespace Deduction.Formula

/-- The operand at a position counted from 1. -/
def operand? (f : Formula) (position : Int) : Option Formula :=
  if position < 1 then none else f.operands[(position - 1).toNat]?

/-- The part of a statement at a path. -/
def at? : Formula → List Int → Option Formula
  | f, [] => some f
  | f, step :: path => (f.operand? step).bind (·.at? path)

/-- Puts `g` in the place of the operand at a position. A negation has only one operand, and of a
joined pair every position but 1 is the right one. -/
def replaceOperand (f : Formula) (position : Int) (g : Formula) : Formula :=
  match f with
  | atom a => atom a
  | neg _ => neg g
  | binary c left right => if position = 1 then binary c g right else binary c left g

/-- Changes the part of a statement at a path by `change`. A step that is neither 1 nor 2 is
refused before it is asked whether the operand exists; refusals name `rule`. -/
def modifyAt (rule : Rule) (change : Formula → Except RuleError Formula) :
    Formula → List Int → Except RuleError Formula
  | f, [] => change f
  | f, step :: path =>
    if step < 1 || step > 2 then .error (.stepOutOfRange rule)
    else match f.operand? step with
      | none => .error (.noSuchOperand rule)
      | some g => (modifyAt rule change g path).map (f.replaceOperand step)

end Deduction.Formula
