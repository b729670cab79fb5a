/-!
# Statements

A statement is one of five propositional variables, the negation of a statement, or two
statements joined by a connective. Every statement has one canonical text: variables stand for
themselves, a negation puts `~` in front of its operand, and a joined pair is always parenthesized,
with one space on each side of the connective. Two statements count as the same when their
canonical texts agree, and they are hashed by that text.
-/

namespace Deduction

/-! ### Symbols -/

/-- The propositional variables. -/
inductive Atom where
  | p | q | r | s | t
  deriving DecidableEq

namespace Atom

def all : List Atom := [p, q, r, s, t]

/-- The character a variable is written as. -/
def char : Atom → Char
  | p => 'p'
  | q => 'q'
  | r => 'r'
  | s => 's'
  | t => 't'

def ofChar? (c : Char) : Option Atom :=
  all.find? (·.char = c)

/-- The variable written as the one-character text `text`. -/
def ofText? (text : String) : Option Atom :=
  match text.toList with
  | [c] => ofChar? c
  | _ => none

def render (a : Atom) : String := String.singleton a.char

end Atom

/-- The connectives that join two statements. -/
inductive Connective where
  | implies | iff | or | and
  deriving DecidableEq

namespace Connective

def all : List Connective := [implies, iff, or, and]

/-- The characters a connective is written with. -/
def chars : Connective → List Char
  | implies => ['-', '>']
  | iff => ['<', '-', '>']
  | or => ['V']
  | and => ['^']

end Connective

/-- What can stand at the top of a statement that is not a variable: a connective or negation. -/
inductive Operator where
  | binary (c : Connective)
  | not
  deriving DecidableEq

namespace Operator

def all : List Operator := Connective.all.map binary ++ [not]

def chars : Operator → List Char
  | binary c => c.chars
  | not => ['~']

/-- The text of an operator inside a statement. -/
def symbol (o : Operator) : String := String.ofList o.chars

def ofSymbol? (text : String) : Option Operator :=
  all.find? (·.symbol = text)

/-- The name of an operator in the explicit form of a statement. -/
def name : Operator → String
  | binary .implies => "IMPLIES"
  | binary .iff => "IFF"
  | binary .or => "OR"
  | binary .and => "AND"
  | not => "NOT"

def isUnary : Operator → Bool
  | binary _ => false
  | not => true

end Operator

/-! ### Statements -/

/-- Propositional statements. -/
inductive Formula where
  | atom (a : Atom)
  | neg (f : Formula)
  | binary (c : Connective) (left right : Formula)
  deriving DecidableEq

namespace Formula

/-- The operator at the top of a statement; a variable has none. -/
def operator? : Formula → Option Operator
  | atom _ => none
  | neg _ => some .not
  | binary c _ _ => some (.binary c)

/-- The immediate parts of a statement, from left to right. -/
def operands : Formula → List Formula
  | atom _ => []
  | neg f => [f]
  | binary _ left right => [left, right]

/-- The characters of the canonical text, followed by `rest`. -/
def charsThen : Formula → List Char → List Char
  | atom a, rest => a.char :: rest
  | neg f, rest => '~' :: f.charsThen rest
  | binary c left right, rest =>
    '(' :: left.charsThen (' ' :: c.chars ++ ' ' :: right.charsThen (')' :: rest))

/-- The canonical text of a statement. -/
def render (f : Formula) : String := String.ofList (f.charsThen [])

/-- The canonical text, with parentheses around a statement that is a variable. -/
def renderStandalone : Formula → String
  | atom a => "(" ++ a.render ++ ")"
  | f => f.render

/-- The word for the outermost shape of a statement. -/
def shape : Formula → String
  | atom _ => "Atom"
  | neg _ => "Negation"
  | binary _ _ _ => "Binary"

/-- The explicit form of a statement, in which every node is named. -/
def explicit : Formula → String
  | f@(atom a) => f.shape ++ "('" ++ a.render ++ "')"
  | f@(neg g) => f.shape ++ "(" ++ g.explicit ++ ")"
  | f@(binary c left right) =>
    f.shape ++ "(" ++ (Operator.binary c).name ++ ", " ++ left.explicit ++ ", " ++
      right.explicit ++ ")"

/-- Statements are compared by their canonical texts. -/
instance : BEq Formula where
  beq f g := f.render == g.render

instance : Hashable Formula where
  hash f := hash f.render

end Formula

/-! ### Building statements from outside -/

/-- Why symbols given from outside do not make up a statement. -/
inductive BuildError where
  | notVariable (text : String)
  | notConnective (o : Operator)
  deriving DecidableEq

def BuildError.message : BuildError → String
  | notVariable text => "'" ++ text ++ "' is not a propositional variable"
  | notConnective o => "Operator '" ++ o.symbol ++ "' is not a binary connective"

/-- The statement that is the variable written as `text`. -/
def Formula.ofVariable (text : String) : Except BuildError Formula :=
  match Atom.ofText? text with
  | some a => .ok (.atom a)
  | none => .error (.notVariable text)

/-- Joins two statements by an operator, which has to be a connective. -/
def Formula.join (o : Operator) (left right : Formula) : Except BuildError Formula :=
  match o with
  | .binary c => .ok (.binary c left right)
  | .not => .error (.notConnective .not)

end Deduction
