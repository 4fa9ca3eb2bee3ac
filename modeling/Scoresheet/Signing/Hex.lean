import Scoresheet.Json.Node
import Scoresheet.Text.Quoted

/-!
# Bytes in hexadecimal

Bytes are written as two hexadecimal digits each, in lower case, and read in either case.

* `encode` — the digits of bytes.
* `decode` — the bytes that a text denotes.
-/

namespace Scoresheet.Hex

/-- Why a text denotes no bytes. -/
inductive Fault where
  | oddLength
  /-- A byte of the text that is no digit, and its place. -/
  | notADigit (byte : UInt8) (index : Nat)
deriving DecidableEq, Repr

/-- The wording of a fault. The byte is shown as the character with its number. -/
def Fault.message : Fault → String
  | oddLength => "Odd number of digits"
  | notADigit byte index =>
    "Invalid character " ++ Text.quotedChar (Char.ofNat byte.toNat) ++ " at position "
      ++ toString index

/-- The digits of bytes, in lower case. -/
def encode (bytes : List UInt8) : String :=
  String.ofList (bytes.flatMap fun b =>
    [Json.hexDigit (b.toNat / 16), Json.hexDigit (b.toNat % 16)])

/-- The value of a digit. -/
def digit (index : Nat) (byte : UInt8) : Except Fault Nat :=
  match Json.hexValue? (Char.ofNat byte.toNat) with
  | some n => .ok n
  | none => .error (.notADigit byte index)

/-- The bytes that digits denote, the first digit having the index given. -/
def decodeFrom (index : Nat) : List UInt8 → Except Fault (List UInt8)
  | high :: low :: rest => do
    let h ← digit index high
    let l ← digit (index + 1) low
    return UInt8.ofNat (16 * h + l) :: (← decodeFrom (index + 2) rest)
  | _ => .ok []

/-- **The bytes that a text denotes.** An odd number of digits counts before a character that is no
digit. -/
def decode (text : String) : Except Fault (List UInt8) :=
  let bytes := text.toUTF8.toList
  if bytes.length % 2 = 1 then .error .oddLength else decodeFrom 0 bytes

end Scoresheet.Hex
