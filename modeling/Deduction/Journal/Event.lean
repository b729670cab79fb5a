import Deduction.Formula.Parser
import Deduction.Text.Lowercase

/-!
# Events of the journal

The journal records what happens on the way to an answer: texts read, rules applied, facts
stored. An event is kept as data; its text is made only when the journal is shown. Names, numbers
and statements that only have to be shown are kept as texts.
-/

namespace Deduction

/-- What the journal records. -/
inductive Event where
  /-- A text is about to be read. -/
  | parsing (text : String)
  /-- The scan of a text stopped. -/
  | scanStopped (e : IllegalCharacter)
  /-- Reading ended because the scan stopped. -/
  | scanFailed (e : IllegalCharacter)
  | parseFailed
  | parsed (used : Nat) (f : Formula)
  | ruleUnknown (name : String)
  /-- An application ended a strict batch. -/
  | applicationFailed (rule arguments : String)
  /-- An application was left out of a silent batch. -/
  | applicationSkipped (rule arguments reason : String)
  | batchDone (rule produced : String) (silent : Bool)
  | factStored (number formula : String)
  | factRepeated (formula : String)
  | storeCleared
  | commandReceived (word mode : String)
  | conclusionChecked (conclusion : String) (reached : Bool)
  | resultsRecorded (label : String) (new total : Nat)
  | scriptStarted (path : String)

/-- The text of an event. -/
def Event.text : Event → String
  | parsing text => "Parsing formula: " ++ text
  | scanStopped e =>
    "Lexer stopped at '" ++ String.singleton e.char ++ "' (position " ++ toString e.index ++ ")"
  | scanFailed e => "Unexpected parsing error: " ++ e.message
  | parseFailed => "Parse error encountered"
  | parsed used f =>
    "Parsed " ++ toString used ++ " tokens into " ++ f.shape ++ ": " ++ f.render
  | ruleUnknown name => "No rule named '" ++ name ++ "'"
  | applicationFailed rule arguments => rule ++ " failed on " ++ arguments
  | applicationSkipped rule arguments reason =>
    "    " ++ rule ++ " skipped " ++ arguments ++ ": " ++ reason
  | batchDone rule produced silent =>
    "    " ++ rule ++ " (" ++ (if silent then "silent" else "strict") ++ ") produced " ++
      produced ++ " result(s)"
  | factStored number formula => "      + fact " ++ number ++ ": " ++ formula
  | factRepeated formula => "      = duplicate suppressed: " ++ formula
  | storeCleared => "Clearing fact base"
  | commandReceived word mode =>
    "Command '" ++ word ++ "' in " ++ Text.lowercase mode ++ " mode"
  | conclusionChecked conclusion reached =>
    "Conclusion " ++ conclusion ++ " " ++ (if reached then "reached" else "not reached")
  | resultsRecorded label new total =>
    label ++ ": " ++ toString new ++ " new of " ++ toString total ++ " result(s)"
  | scriptStarted path => "Running script: " ++ path

end Deduction
