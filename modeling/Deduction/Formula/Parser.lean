import Deduction.Token

/-!
# Reading statements

A statement is read from its tokens in one pass from left to right. Every connective groups to
the right. A negation sign reaches as far as the next operand when it stands inside parentheses or
directly before an opening parenthesis; outside all parentheses it otherwise reaches to the end of
the text. Each reading step returns what it built together with the number of tokens it took.
-/

namespace Deduction

/-- Why a text is not a statement. -/
inductive ParseError where
  /-- The scan stopped at a character. -/
  | illegal (e : IllegalCharacter)
  /-- There are no tokens. -/
  | empty
  /-- The parenthesis at this position is never closed. -/
  | unclosed (index : Nat)
  /-- The parentheses opened at this position hold nothing. -/
  | emptyGroup (index : Nat)
  /-- Nothing follows the negation sign at this position. -/
  | missingOperand (index : Nat)
  /-- An operand cannot start with this token. -/
  | unexpected (token : Token)
  /-- The token at this position should be a connective with something after it. -/
  | missingOperator (index : Nat)
  deriving DecidableEq

def ParseError.message : ParseError → String
  | illegal e => "Parse failed: " ++ e.message
  | empty => "Input formula is empty."
  | unclosed index => "No matching parenthesis for '(' at position " ++ toString index
  | emptyGroup index =>
    "Error in parenthesis at position " ++ toString index ++ ", not a statement"
  | missingOperand index => "Expected statement after '~' at position " ++ toString index
  | unexpected token =>
    "Unrecognized token '" ++ token.lexeme.text ++ "' at position " ++ toString token.index
  | missingOperator index => "Expected operator at position " ++ toString index

/-- The place in a list of tokens of the parenthesis that closes the group the list begins in.
Inside the group, `depth` more parentheses are open. -/
def Token.findClose : Nat → List Token → Option Nat
  | _, [] => none
  | depth, token :: rest =>
    match token.lexeme, depth with
    | .rparen, 0 => some 0
    | .rparen, outer + 1 => (findClose outer rest).map (· + 1)
    | .lparen, _ => (findClose (depth + 1) rest).map (· + 1)
    | _, _ => (findClose depth rest).map (· + 1)

namespace Formula

mutual

/-- Reads all of `tokens` as one statement. -/
def readAll (nested : Bool) (tokens : List Token) : Except ParseError (Formula × Nat) := do
  let (first, used) ← readOperand nested tokens
  match _h : tokens.drop used with
  | [] => return (first, used)
  | token :: rest =>
    match token.lexeme, rest with
    | .connective c, _ :: _ =>
      let (second, more) ← readAll nested rest
      return (binary c first second, used + 1 + more)
    | _, _ => throw (.missingOperator token.index)
termination_by 2 * tokens.length + 1
decreasing_by
  · omega
  · have := congrArg List.length _h
    simp at this
    omega

/-- Reads the operand at the beginning of `tokens`. -/
def readOperand (nested : Bool) (tokens : List Token) : Except ParseError (Formula × Nat) :=
  match tokens with
  | [] => throw .empty
  | token :: rest =>
    match token.lexeme with
    | .atom a => return (atom a, 1)
    | .lparen =>
      match Token.findClose 0 rest with
      | none => throw (.unclosed token.index)
      | some 0 => throw (.emptyGroup token.index)
      | some (n + 1) => do
        let (inner, _) ← readAll true (rest.take (n + 1))
        return (inner, n + 3)
    | .not =>
      match rest with
      | [] => throw (.missingOperand token.index)
      | next :: more =>
        if nested || next.lexeme = .lparen then do
          let (operand, used) ← readOperand nested (next :: more)
          return (neg operand, used + 1)
        else do
          let (operand, used) ← readAll false (next :: more)
          return (neg operand, used + 1)
    | _ => throw (.unexpected token)
termination_by 2 * tokens.length
decreasing_by
  all_goals
    simp only [List.length_cons, List.length_take]
    omega

end

/-- Reads a text as a statement, with the number of tokens read. -/
def parseCounted (text : String) : Except ParseError (Formula × Nat) :=
  let scan := Token.scan text
  match scan.fault with
  | some e => .error (.illegal e)
  | none => readAll false scan.tokens

/-- Reads a text as a statement. -/
def parse (text : String) : Except ParseError Formula :=
  (parseCounted text).map (·.1)

end Formula

end Deduction
