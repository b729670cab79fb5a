import Deduction.FactBase
import Deduction.Text.Split

/-!
# Rule calls

A rule call is written `name(arg0[,arg1])`, with blanks allowed anywhere. The name has one to four
ASCII letters. The first argument is a reference to facts, made of ASCII digits and `*`. The second
is such a reference or, for a rule of replacement, a path: operand positions with dots between
them, or `0` for the whole statement. Further arguments are recognized as far as they look like
paths, and then refused as too many.
-/

namespace Deduction

/-- A rule call: the name as typed and the arguments, at least one. -/
structure RuleCall where
  name : String
  arguments : List String
  deriving DecidableEq

namespace RuleCall

/-- The characters of references: ASCII digits and the wildcard. -/
def isReferenceChar (c : Char) : Bool := c.isDigit || c = '*'

/-- The characters of paths. -/
def isPathChar (c : Char) : Bool := c = '1' || c = '2' || c = '.'

/-- The shape of a reference to facts. -/
def isReference (cs : List Char) : Bool := !cs.isEmpty && cs.all isReferenceChar

/-- The shape of a path of more than one character: it ends in a position. -/
def isPath (cs : List Char) : Bool :=
  2 ≤ cs.length && cs.all isPathChar && cs.getLast? != some '.'

/-- The shape of the arguments of a call. -/
def areArguments : List (List Char) → Bool
  | [] => false
  | [first] => isReference first
  | first :: second :: more =>
    isReference first && (isReference second || isPath second) && more.all isPath

/-- The name and the arguments of a call without blanks, if it has the right shape. -/
def ofChars? (cs : List Char) : Option (List Char × List (List Char)) :=
  let name := cs.takeWhile Char.isAlpha
  match cs.dropWhile Char.isAlpha with
  | '(' :: rest =>
    if rest.getLast? = some ')' && 1 ≤ name.length && name.length ≤ 4 then
      let arguments := Text.splitChars ',' rest.dropLast
      if areArguments arguments then some (name, arguments) else none
    else none
  | _ => none

/-- Reads a rule call. -/
def parse (text : String) : Except RuleError RuleCall :=
  match ofChars? (Text.squeezeChars text.toList) with
  | none => .error .invalidCall
  | some (name, arguments) =>
    if 2 < arguments.length then .error (.tooManyArguments (String.ofList name))
    else .ok ⟨String.ofList name, arguments.map String.ofList⟩

/-- Whether an argument refers to every fact. -/
def usesWildcard (call : RuleCall) : Bool := call.arguments.contains FactBase.wildcard

/-! ### Paths -/

/-- The path that means the whole statement. -/
def wholePath : String := "0"

/-- Reads the positions of a path, one after the other. -/
def readPositions (rule : Rule) : List (List Char) → Except Refusal (List Nat)
  | [] => .ok []
  | part :: parts =>
    if !Text.isDigits part then .error (.rule (.invalidPath rule))
    else match Text.readNumeral part with
      | .error e => .error (.numeral e)
      | .ok position => (readPositions rule parts).map (position :: ·)

/-- Reads a path for `rule`; the whole statement has none. -/
def readPath (rule : Rule) (text : String) : Except Refusal (Option (List Nat)) :=
  if text = wholePath then .ok none
  else (readPositions rule (Text.splitChars '.' text.toList)).map some

end RuleCall

end Deduction
