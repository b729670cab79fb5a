import Deduction.Text.Interval

/-!
# Lines

The lines of a text. A carriage return, alone or with a line feed after it, counts as a line feed.
A line ends at a line feed, at a vertical tab or form feed, at the file, group and record
separators, at the next-line character, and at the line and paragraph separators. A break at the
very end of the text begins no further line.
-/

namespace Deduction.Text

/-- Writes every line break made with a carriage return as a line feed. -/
def unifyBreaks : List Char → List Char
  | [] => []
  | '\r' :: '\n' :: rest => '\n' :: unifyBreaks rest
  | '\r' :: rest => '\n' :: unifyBreaks rest
  | c :: rest => c :: unifyBreaks rest

def breakIntervals : List (Nat × Nat) :=
  [(0xa, 0xc), (0x1c, 0x1e), (0x85, 0x85), (0x2028, 0x2029)]

def isBreak (c : Char) : Bool := within breakIntervals c

/-- The lines of a text without carriage returns. -/
def splitLines : List Char → List (List Char)
  | [] => []
  | c :: rest =>
    if isBreak c then [] :: splitLines rest
    else match splitLines rest with
      | [] => [[c]]
      | line :: lines => (c :: line) :: lines

/-- The lines of a text. -/
def linesOf (cs : List Char) : List String :=
  (splitLines (unifyBreaks cs)).map String.ofList

end Deduction.Text
