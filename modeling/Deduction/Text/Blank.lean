import Deduction.Text.Interval

/-!
# Blanks

The blank characters: spaces of every width, tabs, line and paragraph separators, and the
information separators. A zero-width space and a byte order mark are not blank.
-/

namespace Deduction.Text

def blankIntervals : List (Nat × Nat) :=
  [(0x9, 0xd), (0x1c, 0x20), (0x85, 0x85), (0xa0, 0xa0), (0x1680, 0x1680), (0x2000, 0x200a),
    (0x2028, 0x2029), (0x202f, 0x202f), (0x205f, 0x205f), (0x3000, 0x3000)]

def isBlank (c : Char) : Bool := within blankIntervals c

/-- Drops the blanks at both ends. -/
def stripChars (cs : List Char) : List Char :=
  ((cs.dropWhile isBlank).reverse.dropWhile isBlank).reverse

def strip (text : String) : String := String.ofList (stripChars text.toList)

/-- Drops all blanks. -/
def squeezeChars (cs : List Char) : List Char := cs.filter (!isBlank ·)

/-- A text of blanks only. -/
def isBlankText (text : String) : Bool := text.toList.all isBlank

end Deduction.Text
