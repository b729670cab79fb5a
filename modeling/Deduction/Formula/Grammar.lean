import Deduction.Token

/-!
# The grammar of statements

Which sequences of lexemes are statements, and which statement each of them is. Inside parentheses
a negation sign takes the next operand. Outside all parentheses it does so only directly before an
opening parenthesis, and otherwise takes all that follows.
-/

namespace Deduction.Grammar

mutual

/-- The statements inside parentheses. -/
inductive Inner : List Lexeme → Formula → Prop
  | operand {xs : List Lexeme} {f : Formula} : InnerOperand xs f → Inner xs f
  | join {xs ys : List Lexeme} {f g : Formula} (c : Connective) :
    InnerOperand xs f → Inner ys g → Inner (xs ++ .connective c :: ys) (.binary c f g)

/-- The operands inside parentheses. -/
inductive InnerOperand : List Lexeme → Formula → Prop
  | atom (a : Atom) : InnerOperand [.atom a] (.atom a)
  | group {xs : List Lexeme} {f : Formula} :
    Inner xs f → InnerOperand (.lparen :: xs ++ [.rparen]) f
  | neg {xs : List Lexeme} {f : Formula} : InnerOperand xs f → InnerOperand (.not :: xs) (.neg f)

end

/-- The operands outside all parentheses. -/
inductive OuterOperand : List Lexeme → Formula → Prop
  | atom (a : Atom) : OuterOperand [.atom a] (.atom a)
  | group {xs : List Lexeme} {f : Formula} :
    Inner xs f → OuterOperand (.lparen :: xs ++ [.rparen]) f
  | negGroup {xs : List Lexeme} {f : Formula} :
    Inner xs f → OuterOperand (.not :: .lparen :: xs ++ [.rparen]) (.neg f)

/-- The statements outside all parentheses. -/
inductive Outer : List Lexeme → Formula → Prop
  | operand {xs : List Lexeme} {f : Formula} : OuterOperand xs f → Outer xs f
  | join {xs ys : List Lexeme} {f g : Formula} (c : Connective) :
    OuterOperand xs f → Outer ys g → Outer (xs ++ .connective c :: ys) (.binary c f g)
  | neg {xs : List Lexeme} {f : Formula} :
    xs.head? ≠ some .lparen → Outer xs f → Outer (.not :: xs) (.neg f)

end Deduction.Grammar
