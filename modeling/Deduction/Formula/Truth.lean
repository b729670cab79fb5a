import Deduction.Formula.Basic

/-!
# Truth

The truth value of a statement under an assignment of truth values to the variables, and the
consequence relation that goes with it.
-/

namespace Deduction

/-- An assignment of truth values to the variables. -/
abbrev Valuation := Atom → Bool

/-- The truth table of a connective. -/
def Connective.eval : Connective → Bool → Bool → Bool
  | implies, a, b => !a || b
  | iff, a, b => a == b
  | or, a, b => a || b
  | and, a, b => a && b

/-- The truth value of a statement. -/
def Formula.eval (v : Valuation) : Formula → Bool
  | atom a => v a
  | neg f => !f.eval v
  | binary c left right => c.eval (left.eval v) (right.eval v)

/-- Consequence: `f` is true under every valuation that makes all of `premises` true. -/
def Entails (premises : List Formula) (f : Formula) : Prop :=
  ∀ v : Valuation, (∀ g ∈ premises, g.eval v = true) → f.eval v = true

/-- Having the same truth value under every valuation. -/
def Formula.Equivalent (f g : Formula) : Prop := ∀ v : Valuation, f.eval v = g.eval v

end Deduction
