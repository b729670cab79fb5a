import Deduction.Text.Digit
import Deduction.Text.Quoted

/-!
# Numerals

Numbers are read from decimal digits of any script, leading zeros allowed. Two things can go
wrong: the text has more digits than the limit, or it holds a character that is no decimal digit.
The digits are counted up to the first such character, and the limit is checked first.
-/

namespace Deduction.Text

/-- The largest number of digits that is read as a number. -/
def digitLimit : Nat := 4300

/-- Why a text is not read as a number. -/
inductive NumeralFault where
  | tooLong (digits : Nat)
  | notDecimal (text : String)
  deriving DecidableEq

/-- The message for a fault; of a text that is not decimal it shows 200 characters, the
quotation marks included. -/
def NumeralFault.message : NumeralFault → String
  | tooLong digits =>
    "Exceeds the limit (" ++ toString digitLimit ++
      " digits) for integer string conversion: value has " ++ toString digits ++
      " digits; use sys.set_int_max_str_digits() to increase the limit"
  | notDecimal text =>
    "invalid literal for int() with base 10: " ++
      String.ofList ((quoteChars text.toList).take 200)

/-- The number with the given decimal digits. -/
def numeralValue (digits : List Char) : Nat :=
  digits.foldl (fun n c => 10 * n + (decimalValue? c).getD 0) 0

/-- Reads a number. -/
def readNumeral (cs : List Char) : Except NumeralFault Nat :=
  let digits := cs.takeWhile isDecimal
  if digitLimit < digits.length then .error (.tooLong digits.length)
  else if cs.isEmpty || digits.length < cs.length then .error (.notDecimal (String.ofList cs))
  else .ok (numeralValue digits)

end Deduction.Text
