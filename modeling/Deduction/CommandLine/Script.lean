import Deduction.CommandLine.Path
import Deduction.Text.Blank
import Deduction.Text.Line
import Deduction.Text.Utf8

/-!
# Script files

A script is a text file in UTF-8 with one line of input on each of its lines, at least one of them
not blank. It is found by its path from the working directory, whose contents are given; nothing
is known of what lies outside it except that it is a directory.
-/

namespace Deduction.CommandLine

/-- A failure reported by the file system, by number and in words. -/
structure FileFault where
  code : Nat
  text : String
  deriving DecidableEq

namespace FileFault

def notDirectory : FileFault := ⟨20, "Not a directory"⟩

def isDirectory : FileFault := ⟨21, "Is a directory"⟩

def nameTooLong : FileFault := ⟨36, "File name too long"⟩

end FileFault

/-- Why a script cannot be used. -/
inductive ScriptError where
  | notFound (path : Path)
  | unreadable (fault : FileFault) (path : Path)
  /-- The path holds the null character. -/
  | nullInPath
  | undecodable (e : Text.Utf8Fault)
  /-- There is no line that is not blank. -/
  | empty
  deriving DecidableEq

def ScriptError.message : ScriptError → String
  | notFound path => "Script file not found: " ++ path.text
  | unreadable fault path =>
    "Error reading script file: [Errno " ++ toString fault.code ++ "] " ++ fault.text ++ ": " ++
      Text.quoted path.text
  | nullInPath => "embedded null byte"
  | undecodable e => e.message
  | empty => "Script file is empty"

/-! ### The working directory -/

/-- What a path can lead to. -/
inductive Entry where
  | file (bytes : List UInt8)
  | folder

/-- The contents of the working directory, by the segments of their paths. -/
structure Directory where
  entries : List (List String × Entry)

/-- Where a walk along a path has come to. -/
inductive Place where
  | inside (segments : List String)
  | outside

namespace Directory

def ofFiles (files : List (String × Entry)) : Directory :=
  ⟨files.map fun f => ((Path.ofText f.1).segments, f.2)⟩

/-- What there is at a place inside; a folder is also there when something lies in it. -/
def entry? (d : Directory) (segments : List String) : Option Entry :=
  if segments.isEmpty then some .folder
  else match d.entries.find? (·.1 = segments) with
    | some (_, entry) => some entry
    | none => if d.entries.any (segments.isPrefixOf ·.1) then some .folder else none

/-- The largest number of bytes in a segment. -/
def segmentLimit : Nat := 255

/-- The largest number of bytes in a path. -/
def pathLimit : Nat := 4095

/-- One step of a walk. -/
def step (d : Directory) (path : Path) (segment : String) : Place → Except ScriptError Place
  | .outside =>
    if segment = ".." then .ok .outside
    else if segmentLimit < segment.utf8ByteSize then .error (.unreadable .nameTooLong path)
    else .error (.notFound path)
  | .inside segments =>
    match d.entry? segments with
    | some (.file _) => .error (.unreadable .notDirectory path)
    | _ =>
      if segment = ".." then
        .ok (if segments.isEmpty then .outside else .inside segments.dropLast)
      else if segmentLimit < segment.utf8ByteSize then .error (.unreadable .nameTooLong path)
      else if (d.entry? (segments ++ [segment])).isSome then .ok (.inside (segments ++ [segment]))
      else .error (.notFound path)

/-- A walk along segments. -/
def walk (d : Directory) (path : Path) : List String → Place → Except ScriptError Place
  | [], place => .ok place
  | segment :: rest, place => do d.walk path rest (← d.step path segment place)

/-- The bytes of the file at a path. -/
def read (d : Directory) (path : Path) : Except ScriptError (List UInt8) := do
  if path.text.toList.contains (Char.ofNat 0) then throw .nullInPath
  if pathLimit < path.text.utf8ByteSize then throw (.unreadable .nameTooLong path)
  match ← d.walk path path.segments (if path.root = "" then .inside [] else .outside) with
  | .outside => throw (.unreadable .isDirectory path)
  | .inside segments =>
    match d.entry? segments with
    | some (.file bytes) => return bytes
    | some .folder => throw (.unreadable .isDirectory path)
    | none => throw (.notFound path)

end Directory

/-- The lines of a script with the given bytes. -/
def scriptLines (bytes : List UInt8) : Except ScriptError (List String) :=
  match Text.decodeUtf8 bytes with
  | .error e => .error (.undecodable e)
  | .ok cs =>
    let lines := Text.linesOf cs
    if lines.all Text.isBlankText then .error .empty else .ok lines

end Deduction.CommandLine
