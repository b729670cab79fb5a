import Deduction.CommandLine.Help
import Deduction.CommandLine.Options
import Deduction.CommandLine.Script
import Deduction.Console.Dialogue

/-!
# Running the program

What the program does with its arguments, the contents of the working directory and the lines that
are typed: what it writes, and the code with which it exits. The code is 0 after a dialogue that
came to its end and after the help page, 2 for a command line that is refused, 3 for a script that
cannot be used or a number that cannot be read, 4 after an interruption and 5 when reading fails.
-/

namespace Deduction.CommandLine

/-- The end of a run. -/
structure Outcome where
  code : Nat
  /-- Whether the run ended with the command line itself. -/
  exited : Bool
  output : Output
  deriving DecidableEq

/-- What is reported when a script cannot be used. -/
def scriptFailure (message : String) : String := "Script file error: " ++ message

/-- The exit code for the way a dialogue stopped, and the message that goes with it. -/
def closing : Stop → Nat × Option String
  | .over => (0, none)
  | .numeral e => (3, some (scriptFailure e.message))
  | .interrupted => (4, some "Session interrupted by user")
  | .failed reason => (5, some ("Unexpected error: " ++ reason))

/-- Shows the message with which a run closes. -/
def writeClosing (threshold : Level) (message : Option String) : Output :=
  Console.writeAll threshold .error message.toList

/-- The threshold that the options set. -/
def threshold (options : Options) : Level := Level.ofFlags options.verbose options.debug

/-- The session that the options ask for. -/
def session (options : Options) : Session := { verboseRules := options.verboseRules }

/-- Runs a dialogue and closes it. -/
def converse (options : Options) (reader : Reader) (lines : List String) : Outcome :=
  let dialogue := Dialogue.run (threshold options) reader (session options) lines
  let (code, message) := closing dialogue.stop
  ⟨code, false, dialogue.output ++ writeClosing (threshold options) message⟩

/-- Runs a script, given what reading it has led to. -/
def runScript (options : Options) (path : Path) (contents : Except ScriptError (List UInt8)) :
    Outcome :=
  match contents.bind scriptLines with
  | .error e =>
    ⟨3, false, writeClosing (threshold options) (some (scriptFailure e.message))⟩
  | .ok lines =>
    let outcome := converse options .script lines
    let started := Console.writeEvents (threshold options) [.scriptStarted path.text]
    { outcome with output := started ++ outcome.output }

/-- The outcome of a command line that is refused. -/
def refuse (e : UsageError) : Outcome :=
  ⟨2, true, { err := usage ++ programName ++ ": error: " ++ e.message ++ "\n" }⟩

/-- The outcome of asking for help. -/
def showHelp : Outcome := ⟨0, true, { out := helpPage }⟩

/-- Runs the program. -/
def run (arguments : List String) (directory : Directory) (typed : List String)
    (ending : Ending) : Outcome :=
  match readArguments arguments with
  | .error e => refuse e
  | .ok .help => showHelp
  | .ok (.start options) =>
    match options.script with
    | some text =>
      let path := Path.ofText text
      runScript options path (directory.read path)
    | none => converse options (.typed ending) typed

end Deduction.CommandLine
