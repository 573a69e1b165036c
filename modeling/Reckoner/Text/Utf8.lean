import Reckoner.Text.Quoted

/-! Reading bytes as UTF-8. A sequence that is cut short, or goes on with a byte that
cannot continue it, is refused together with the part of it that was still good. -/

namespace Reckoner.Text.Utf8

inductive Reason where
  | invalidStart
  | invalidContinuation
  | unexpectedEnd
  deriving DecidableEq

/-- Where and why a byte sequence stops being UTF-8. -/
structure Error where
  reason : Reason
  /-- The position of the first refused byte. -/
  start : Nat
  /-- That byte itself. -/
  first : UInt8
  /-- How many bytes are refused. -/
  length : Nat
  deriving DecidableEq

def Reason.message : Reason → String
  | .invalidStart => "invalid start byte"
  | .invalidContinuation => "invalid continuation byte"
  | .unexpectedEnd => "unexpected end of data"

def Error.message (error : Error) : String :=
  let place :=
    if error.length = 1 then
      "byte 0x" ++ String.ofList (hex 2 error.first.toNat) ++ " in position " ++ toString error.start
    else
      "bytes in position " ++ toString error.start ++ "-" ++ toString (error.start + error.length - 1)
  "'utf-8' codec can't decode " ++ place ++ ": " ++ error.reason.message

/-- The bytes that may follow a given first byte, position by position, or none if it
cannot start a character. -/
def continuations? (first : UInt8) : Option (List (UInt8 × UInt8)) :=
  let any := (0x80, 0xbf)
  if first < 0x80 then some []
  else if first < 0xc2 then none
  else if first < 0xe0 then some [any]
  else if first = 0xe0 then some [(0xa0, 0xbf), any]
  else if first = 0xed then some [(0x80, 0x9f), any]
  else if first < 0xf0 then some [any, any]
  else if first = 0xf0 then some [(0x90, 0xbf), any, any]
  else if first < 0xf4 then some [any, any, any]
  else if first = 0xf4 then some [(0x80, 0x8f), any, any]
  else none

/-- Matches bytes against the ranges that may follow, and gives the matched bytes or the
reason and the number of good bytes before the trouble. -/
def follow : List (UInt8 × UInt8) → List UInt8 → Except (Reason × Nat) (List UInt8)
  | [], _ => .ok []
  | _ :: _, [] => .error (.unexpectedEnd, 0)
  | range :: ranges, byte :: bytes =>
    if range.1 ≤ byte ∧ byte ≤ range.2 then
      match follow ranges bytes with
      | .ok matched => .ok (byte :: matched)
      | .error (reason, good) => .error (reason, good + 1)
    else .error (.invalidContinuation, 0)

/-- The payload of the first byte of a sequence with the given number of further bytes. -/
def payload (first : UInt8) (further : Nat) : Nat :=
  if further = 0 then first.toNat else first.toNat % Nat.pow 2 (6 - further)

def scalar (first : UInt8) (further : List UInt8) : Char :=
  Char.ofNat (further.foldl (fun value byte => value * 64 + byte.toNat % 64) (payload first further.length))

/-- Reads the bytes from the given position on. So many bytes at the front belong to a
character already read. -/
def decodeFrom (position taken : Nat) : List UInt8 → Except Error (List Char)
  | [] => .ok []
  | first :: rest =>
    match taken with
    | taken + 1 => decodeFrom (position + 1) taken rest
    | 0 =>
      match continuations? first with
      | none => .error ⟨.invalidStart, position, first, 1⟩
      | some ranges =>
        match follow ranges rest with
        | .error (reason, good) => .error ⟨reason, position, first, good + 1⟩
        | .ok further =>
          match decodeFrom (position + 1) further.length rest with
          | .error error => .error error
          | .ok chars => .ok (scalar first further :: chars)

def decode (bytes : List UInt8) : Except Error (List Char) := decodeFrom 0 0 bytes

end Reckoner.Text.Utf8
