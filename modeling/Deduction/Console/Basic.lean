import Deduction.Journal.Event

/-!
# The console

Messages have a level, and those below a threshold are not shown. Session output and the journal
go to the standard output; warnings and errors go to the error output. Session output and errors
are shown bare, all else with the name of its level in front.
-/

namespace Deduction

/-- The levels of messages, from the least to the most urgent. -/
inductive Level where
  | debug | info | warning | error
  deriving DecidableEq

namespace Level

def rank : Level → Nat
  | debug => 0
  | info => 1
  | warning => 2
  | error => 3

def name : Level → String
  | debug => "DEBUG"
  | info => "INFO"
  | warning => "WARNING"
  | error => "ERROR"

def all : List Level := [debug, info, warning, error]

/-- The threshold for the two flags of verbosity. Session output is shown in any case, so that
the first flag adds nothing; the second adds the journal. -/
def ofFlags (_verbose debugging : Bool) : Level := if debugging then debug else info

end Level

/-- What is written to the standard output and to the error output. -/
structure Output where
  out : String := ""
  err : String := ""
  deriving DecidableEq

instance : Append Output where
  append a b := ⟨a.out ++ b.out, a.err ++ b.err⟩

namespace Console

/-- A message as a line of its level. -/
def line (level : Level) (message : String) : String :=
  match level with
  | .info | .error => message ++ "\n"
  | _ => "[" ++ level.name ++ "] " ++ message ++ "\n"

/-- Shows messages of one level in order, if the level reaches the threshold. -/
def writeAll (threshold level : Level) (messages : List String) : Output :=
  let lines := String.join (messages.map (line level))
  if level.rank < threshold.rank then {}
  else if level.rank < Level.warning.rank then { out := lines }
  else { err := lines }

/-- Shows a message, if its level reaches the threshold. -/
def write (threshold level : Level) (message : String) : Output :=
  writeAll threshold level [message]

/-- Shows the journal, for which the threshold has to be at its lowest. -/
def writeEvents (threshold : Level) (events : List Event) : Output :=
  if threshold = .debug then writeAll threshold .debug (events.map Event.text) else {}

end Console

end Deduction
