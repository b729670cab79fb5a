import Deduction.Text.Quoted

/-!
# UTF-8

Decoding of bytes as UTF-8. The first byte of a character says how many continuation bytes follow
and which values the first of them may have; overlong forms, surrogates and code points beyond
the last one are thereby excluded. A fault is reported at the first byte of the character, with
the number of bytes that form a correct beginning of it.
-/

namespace Deduction.Text

/-- What is wrong with a sequence of bytes. -/
inductive Utf8Reason where
  | invalidStart
  | invalidContinuation
  | truncated
  deriving DecidableEq

def Utf8Reason.text : Utf8Reason → String
  | invalidStart => "invalid start byte"
  | invalidContinuation => "invalid continuation byte"
  | truncated => "unexpected end of data"

/-- A fault in the `size` bytes from position `start`, of which `first` is the first. -/
structure Utf8Fault where
  reason : Utf8Reason
  first : UInt8
  start : Nat
  size : Nat
  deriving DecidableEq

def Utf8Fault.message (e : Utf8Fault) : String :=
  let place :=
    if e.size = 1 then
      "byte 0x" ++ String.ofList (hexDigits 2 e.first.toNat) ++ " in position " ++ toString e.start
    else
      "bytes in position " ++ toString e.start ++ "-" ++ toString (e.start + e.size - 1)
  "'utf-8' codec can't decode " ++ place ++ ": " ++ e.reason.text

/-- What the first byte of a character tells: how many bytes follow, the least and the greatest
value of the next one, and the leading bits of the code point. -/
structure Utf8Lead where
  following : Nat
  least : Nat
  greatest : Nat
  bits : Nat

def Utf8Lead.ofByte? (b : Nat) : Option Utf8Lead :=
  if b < 0x80 then some ⟨0, 0, 0, b⟩
  else if b < 0xc2 then none
  else if b < 0xe0 then some ⟨1, 0x80, 0xbf, b - 0xc0⟩
  else if b = 0xe0 then some ⟨2, 0xa0, 0xbf, 0⟩
  else if b = 0xed then some ⟨2, 0x80, 0x9f, 0xd⟩
  else if b < 0xf0 then some ⟨2, 0x80, 0xbf, b - 0xe0⟩
  else if b = 0xf0 then some ⟨3, 0x90, 0xbf, 0⟩
  else if b < 0xf4 then some ⟨3, 0x80, 0xbf, b - 0xf0⟩
  else if b = 0xf4 then some ⟨3, 0x80, 0x8f, 4⟩
  else none

/-- Adds the bits of `following` continuation bytes to `bits`, of which the first lies between
`least` and `greatest`; `taken` bytes of the character have been read before. -/
def readContinuation (following least greatest bits taken : Nat) :
    List UInt8 → Except (Utf8Reason × Nat) Nat
  | bytes =>
    match following, bytes with
    | 0, _ => .ok bits
    | _ + 1, [] => .error (.truncated, taken)
    | more + 1, b :: rest =>
      if least ≤ b.toNat && b.toNat ≤ greatest then
        readContinuation more 0x80 0xbf (64 * bits + (b.toNat - 0x80)) (taken + 1) rest
      else .error (.invalidContinuation, taken)

/-- Decodes bytes of which the first stands at position `start`. -/
def decodeFrom (start : Nat) (bytes : List UInt8) : Except Utf8Fault (List Char) :=
  match bytes with
  | [] => .ok []
  | b :: rest =>
    match Utf8Lead.ofByte? b.toNat with
    | none => .error ⟨.invalidStart, b, start, 1⟩
    | some lead =>
      match readContinuation lead.following lead.least lead.greatest lead.bits 1 rest with
      | .error (reason, size) => .error ⟨reason, b, start, size⟩
      | .ok code =>
        (decodeFrom (start + 1 + lead.following) (rest.drop lead.following)).map
          (Char.ofNat code :: ·)
termination_by bytes.length
decreasing_by
  simp only [List.length_drop, List.length_cons]
  omega

/-- Decodes bytes. -/
def decodeUtf8 (bytes : List UInt8) : Except Utf8Fault (List Char) := decodeFrom 0 bytes

end Deduction.Text
