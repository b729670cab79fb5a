import Deduction.Text.Blank
import Deduction.Text.Lowercase

/-!
# Modes and commands

What a line means depends on the mode of the session. In every mode some lines are commands: a
single word, whatever its letter case and the blanks around it.
-/

namespace Deduction

/-- What a line that is no command stands for. -/
inductive Mode where
  | premise
  | conclusion
  | rule
  deriving DecidableEq

/-- The name of a mode in the journal. -/
def Mode.name : Mode → String
  | premise => "PREMISE"
  | conclusion => "CONCLUSION"
  | rule => "RULE"

inductive Command where
  | exit | done | showFacts | therefore | reset | help
  deriving DecidableEq

namespace Command

/-- The word that gives a command. -/
def word : Command → String
  | exit => "exit"
  | done => "done"
  | showFacts => "facts"
  | therefore => "therefore"
  | reset => "reset"
  | help => "help"

/-- The commands of a mode, in the order in which they are listed. -/
def available : Mode → List Command
  | .premise => [exit, therefore, showFacts, help]
  | .conclusion => [exit, showFacts, help]
  | .rule => [exit, done, showFacts, reset, help]

/-- The command that a line gives in a mode. -/
def ofLine? (line : String) (mode : Mode) : Option Command :=
  let wanted := Text.lowercase (Text.strip line)
  (available mode).find? (·.word = wanted)

end Command

end Deduction
