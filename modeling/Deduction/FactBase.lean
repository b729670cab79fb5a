import Deduction.Formula.Basic
import Deduction.Rule.Error
import Deduction.Text.Numeral

/-!
# The store of facts

Facts are statements with numbers, which are given out from 1 in the order of entry and never
change. A statement that is stored already is not stored again. The store also holds the
conclusion that the proof is to reach.
-/

namespace Deduction

/-- A reference that could not be resolved: a refused call, or a number that could not be read. -/
inductive Refusal where
  | rule (e : RuleError)
  | numeral (e : Text.NumeralFault)
  deriving DecidableEq

/-- The stored facts with their numbers, the next number, and the conclusion aimed at. -/
structure FactBase where
  entries : List (Nat × Formula) := []
  next : Nat := 1
  conclusion : Option Formula := none

namespace FactBase

def empty : FactBase := {}

def size (b : FactBase) : Nat := b.entries.length

/-- The stored statements in the order of entry. -/
def values (b : FactBase) : List Formula := b.entries.map (·.2)

/-- Whether a statement with the same canonical text is stored. -/
def contains (b : FactBase) (f : Formula) : Bool :=
  let text := f.render
  b.entries.any (·.2.render == text)

/-- Stores a statement under the next number, and tells whether it was new. -/
def add (b : FactBase) (f : Formula) : FactBase × Bool :=
  if b.contains f then (b, false)
  else ({ b with entries := b.entries ++ [(b.next, f)], next := b.next + 1 }, true)

/-- Stores statements in order, and tells whether all were new. -/
def addAll (b : FactBase) : List Formula → FactBase × Bool
  | [] => (b, true)
  | f :: fs =>
    let (b, new) := b.add f
    let (b, allNew) := b.addAll fs
    (b, new && allNew)

/-- The statement with a number. -/
def get? (b : FactBase) (number : Int) : Option Formula :=
  (b.entries.find? fun e => (e.1 : Int) = number).map (·.2)

/-- The reference to every fact. -/
def wildcard : String := "*"

/-- The facts that a reference stands for: all of them, or the one with a positive number, if
there is one. -/
def select (b : FactBase) (reference : String) : Except Refusal (List Formula) :=
  let key := Text.strip reference
  if key = wildcard then .ok b.values
  else if !Text.isDigits key.toList then .error (.rule (.invalidReference key))
  else match Text.readNumeral key.toList with
    | .error e => .error (.numeral e)
    | .ok number =>
      if number < 1 then .error (.rule (.invalidReference key))
      else .ok (b.get? number).toList

/-- The facts with the operator `o` at the top; the variables, for none. -/
def byOperator (b : FactBase) (o : Option Operator) : List Formula :=
  b.values.filter (·.operator? = o)

/-- Whether the conclusion is among the facts. -/
def isProven (b : FactBase) : Bool :=
  match b.conclusion with
  | some f => b.contains f
  | none => false

end FactBase

end Deduction
