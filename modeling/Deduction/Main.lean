import Deduction.CommandLine.Run

/-!
# The program

The command line of the program: it reads the script file or the typed lines and writes what the
session answers, line by line.
-/

namespace Deduction.Program

open Deduction CommandLine

/-- Writes to the two outputs. -/
def emit (output : Output) : IO Unit := do
  let out ← IO.getStdout
  let err ← IO.getStderr
  out.putStr output.out
  out.flush
  err.putStr output.err
  err.flush

def finish (outcome : Outcome) : IO UInt32 := do
  emit outcome.output
  return outcome.code.toUInt32

/-- A failure of the file system; its number may be given with the opposite sign. -/
def fileFault (code : UInt32) (details : String) : FileFault :=
  let number := if code < 0x80000000 then code.toNat else (-code).toNat
  let known : List FileFault := [.notDirectory, .isDirectory, .nameTooLong]
  (known.find? (·.code = number)).getD ⟨number, details⟩

/-- Why a script cannot be read, from the error of reading it. -/
def fileError (path : Path) : IO.Error → ScriptError
  | .noFileOrDirectory .. => .notFound path
  | .inappropriateType _ code details
  | .permissionDenied _ code details
  | .resourceExhausted _ code details
  | .invalidArgument _ code details => .unreadable (fileFault code details) path
  | .otherError code details => .unreadable (fileFault code details) path
  | e => .unreadable ⟨0, toString e⟩ path

/-- Reads the bytes of a script. -/
def readBytes (path : Path) : IO (Except ScriptError (List UInt8)) := do
  if path.text.toList.contains (Char.ofNat 0) then return .error .nullInPath
  try
    let bytes ← IO.FS.readBinFile path.text
    return .ok bytes.toList
  catch e => return .error (fileError path e)

/-- A typed line without its line feed. -/
def withoutBreak (line : String) : String :=
  let cs := line.toList
  if cs.getLast? = some '\n' then String.ofList cs.dropLast else line

/-- Answers typed lines until the dialogue stops. -/
partial def answerTyped (options : Options) (input : IO.FS.Stream) (s : Session) : IO Stop := do
  let prompt := (Reader.typed .endOfInput).prompt
  emit { out := prompt }
  let line ← input.getLine
  if line.isEmpty then return .over
  let turn := Dialogue.answer (threshold options) s (withoutBreak line)
  emit turn.output
  match turn.stop with
  | some stop => return stop
  | none => answerTyped options input turn.session

/-- Runs a dialogue at the prompt. -/
def converseTyped (options : Options) : IO UInt32 := do
  emit (Console.writeAll (threshold options) .info Dialogue.welcome)
  let stop ←
    try answerTyped options (← IO.getStdin) (session options)
    catch e => pure (.failed (toString e))
  if stop = .over then emit (Console.write (threshold options) .info Dialogue.farewell)
  let (code, message) := closing stop
  emit (writeClosing (threshold options) message)
  return code.toUInt32

end Deduction.Program

open Deduction CommandLine Program in
def main (arguments : List String) : IO UInt32 := do
  match readArguments arguments with
  | .error e => finish (refuse e)
  | .ok .help => finish showHelp
  | .ok (.start options) =>
    match options.script with
    | some text =>
      let path := Path.ofText text
      finish (runScript options path (← readBytes path))
    | none => converseTyped options
