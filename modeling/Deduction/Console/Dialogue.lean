import Deduction.Console.Basic
import Deduction.Journal.Basic

/-!
# Dialogues

A dialogue feeds lines to a session and shows its answers, from the welcome to the farewell. The
lines come from a script or are typed at a prompt, which is shown before each line is read, also
before the read at which the input turns out to have ended. A dialogue is over when the session is
finished or the input ends; it breaks off at a number with too many digits, and when reading is
interrupted or fails.
-/

namespace Deduction

/-- What the read after the last line does. -/
inductive Ending where
  | endOfInput
  | interrupted
  | failed (reason : String)
  deriving DecidableEq

/-- Where lines come from: the prompt shown before each read, and what ends the reading. -/
structure Reader where
  prompt : String
  ending : Ending

namespace Reader

/-- Lines of a script, which are read without a prompt. -/
def script : Reader := ⟨"", .endOfInput⟩

/-- Lines typed at the prompt. -/
def typed (ending : Ending) : Reader := ⟨"proofer> ", ending⟩

end Reader

/-- How a dialogue stopped. -/
inductive Stop where
  | over
  | numeral (e : Text.NumeralFault)
  | interrupted
  | failed (reason : String)
  deriving DecidableEq

def Ending.stop : Ending → Stop
  | endOfInput => .over
  | interrupted => .interrupted
  | failed reason => .failed reason

/-- A dialogue that has stopped. -/
structure Dialogue where
  output : Output
  /-- The number of lines that were read. -/
  processed : Nat
  session : Session
  stop : Stop

namespace Dialogue

def welcome : List String := ["Welcome to Proofer - The Logic Engine!", "Enter some premises"]

def farewell : String := "Good bye!"

/-- Shows a reply: its messages, then its errors. -/
def showReply (threshold : Level) (reply : Reply) : Output :=
  Console.writeAll threshold .info reply.messages ++
    Console.writeAll threshold .error reply.errors

/-- One line of a dialogue: what is shown, the session after it, and how the dialogue stops with
it, if it does. -/
structure Turn where
  output : Output
  session : Session
  stop : Option Stop

/-- Answers a line. -/
def answer (threshold : Level) (s : Session) (line : String) : Turn :=
  let events := Console.writeEvents threshold (Journal.ofLine s line)
  match s.handle line with
  | .error e => ⟨events, s, some (.numeral e)⟩
  | .ok (next, reply) =>
    ⟨events ++ showReply threshold reply, next, if reply.finished then some .over else none⟩

/-- Answers lines until the dialogue stops. -/
def answerLines (threshold : Level) (reader : Reader) : Session → List String → Dialogue
  | s, [] => ⟨{ out := reader.prompt }, 0, s, reader.ending.stop⟩
  | s, line :: rest =>
    let turn := answer threshold s line
    let shown := { out := reader.prompt } ++ turn.output
    match turn.stop with
    | some stop => ⟨shown, 1, turn.session, stop⟩
    | none =>
      let later := answerLines threshold reader turn.session rest
      { later with output := shown ++ later.output, processed := later.processed + 1 }

/-- A whole dialogue, with the welcome and, if nothing broke it off, the farewell. -/
def run (threshold : Level) (reader : Reader) (s : Session) (lines : List String) : Dialogue :=
  let answered := answerLines threshold reader s lines
  let closing : Output :=
    if answered.stop = .over then Console.write threshold .info farewell else {}
  { answered with
    output := Console.writeAll threshold .info welcome ++ answered.output ++ closing }

end Dialogue

end Deduction
