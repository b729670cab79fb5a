import Deduction.Text.Split

/-!
# Paths

A path is a list of segments under an optional root. Empty segments and the segment `.` are
dropped; `..` is kept, since what it leads to depends on the segments before it. One leading slash
or more than two make up the same root, and exactly two make up another.
-/

namespace Deduction.CommandLine

structure Path where
  root : String
  segments : List String
  deriving DecidableEq

namespace Path

/-- The root of a path with the given number of leading slashes. -/
def rootOf : Nat → String
  | 0 => ""
  | 2 => "//"
  | _ => "/"

def ofText (text : String) : Path where
  root := rootOf (text.toList.takeWhile (· = '/')).length
  segments := (Text.split '/' text).filter fun segment => segment ≠ "" && segment ≠ "."

/-- The text of a path; the empty path is the working directory itself. -/
def text (path : Path) : String :=
  if path.root = "" && path.segments.isEmpty then "."
  else path.root ++ "/".intercalate path.segments

end Path

end Deduction.CommandLine
