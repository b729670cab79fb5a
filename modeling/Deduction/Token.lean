import Deduction.Formula.Basic

/-!
# Tokens

The text of a statement is a sequence of lexemes: variables, connectives, the negation sign and
parentheses. Spaces, tabs, carriage returns and line feeds between lexemes are skipped. A token is
a lexeme with the position of its first character, counted from 0. Scanning goes from left to
right and stops at the first position where neither a lexeme nor a skipped character starts.
-/

namespace Deduction

/-- The words of the statement language. -/
inductive Lexeme where
  | atom (a : Atom)
  | connective (c : Connective)
  | not
  | lparen
  | rparen
  deriving DecidableEq

namespace Lexeme

def chars : Lexeme → List Char
  | atom a => [a.char]
  | connective c => c.chars
  | not => ['~']
  | lparen => ['(']
  | rparen => [')']

def text (x : Lexeme) : String := String.ofList x.chars

/-- The lexeme that consists of the character `c` alone. -/
def ofChar? (c : Char) : Option Lexeme :=
  if c = 'V' then some (connective .or)
  else if c = '^' then some (connective .and)
  else if c = '~' then some not
  else if c = '(' then some lparen
  else if c = ')' then some rparen
  else (Atom.ofChar? c).map atom

end Lexeme

/-- A lexeme and the position at which it starts. -/
structure Token where
  lexeme : Lexeme
  index : Nat
  deriving DecidableEq

/-- A character at which no lexeme starts and which is not skipped. -/
structure IllegalCharacter where
  char : Char
  index : Nat
  deriving DecidableEq

def IllegalCharacter.message (e : IllegalCharacter) : String :=
  "Illegal character '" ++ String.singleton e.char ++ "' encountered at position " ++
    toString e.index

/-- The tokens found in a text, and the character that ended the scan early, if any. -/
structure Scan where
  tokens : List Token
  fault : Option IllegalCharacter
  deriving DecidableEq

namespace Token

/-- The characters that may stand between lexemes. -/
def isSkipped (c : Char) : Bool :=
  c = ' ' || c = '\t' || c = '\r' || c = '\n'

/-- Scans characters of which the first stands at position `index`. -/
def scanFrom (index : Nat) : List Char → Scan
  | [] => ⟨[], none⟩
  | '<' :: '-' :: '>' :: rest =>
    let scan := scanFrom (index + 3) rest
    ⟨⟨.connective .iff, index⟩ :: scan.tokens, scan.fault⟩
  | '-' :: '>' :: rest =>
    let scan := scanFrom (index + 2) rest
    ⟨⟨.connective .implies, index⟩ :: scan.tokens, scan.fault⟩
  | c :: rest =>
    if isSkipped c then scanFrom (index + 1) rest
    else match Lexeme.ofChar? c with
      | some x =>
        let scan := scanFrom (index + 1) rest
        ⟨⟨x, index⟩ :: scan.tokens, scan.fault⟩
      | none => ⟨[], some ⟨c, index⟩⟩

/-- Scans a text from its beginning. -/
def scan (text : String) : Scan := scanFrom 0 text.toList

end Token

end Deduction
