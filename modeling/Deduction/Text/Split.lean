/-!
# Separated texts

A text is cut at every occurrence of a separator. There is always at least one piece, and a
separator at either end leaves an empty piece there.
-/

namespace Deduction.Text

/-- The pieces between the occurrences of `separator`. -/
def splitChars (separator : Char) : List Char → List (List Char)
  | [] => [[]]
  | c :: rest =>
    if c = separator then [] :: splitChars separator rest
    else match splitChars separator rest with
      | [] => [[c]]
      | piece :: pieces => (c :: piece) :: pieces

def split (separator : Char) (text : String) : List String :=
  (splitChars separator text.toList).map String.ofList

end Deduction.Text
