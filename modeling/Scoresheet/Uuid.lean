import Scoresheet.Json.Value
import Scoresheet.Json.Node

/-!
# Universally unique identifiers

The identifier of a report: 128 bits, written as 32 hexadecimal digits in five groups.

* `Uuid.text` — the five groups, in lower case.
* `Uuid.parse?` — the identifier that a text denotes, in any of its four forms.
* `Uuid.random` — the identifier that sixteen random bytes make.
-/

namespace Scoresheet

/-- A number of 128 bits. -/
structure Uuid where
  bits : BitVec 128
deriving DecidableEq, Repr

namespace Uuid

/-- The identifier with no bit set. -/
def nil : Uuid := ⟨0⟩

/-- The 32 hexadecimal digits, the most significant first. -/
def digits (u : Uuid) : List Char :=
  (List.range 32).map fun i => Json.hexDigit (u.bits.toNat / Nat.pow 16 (31 - i) % 16)

/-- Thirty-two characters in groups of eight, four, four, four and twelve. -/
def grouped (cs : List Char) : List Char :=
  cs.take 8 ++ '-' :: (cs.drop 8).take 4 ++ '-' :: (cs.drop 12).take 4
    ++ '-' :: (cs.drop 16).take 4 ++ '-' :: cs.drop 20

/-- The text of an identifier. -/
def text (u : Uuid) : String :=
  String.ofList (grouped u.digits)

/-- The number that hexadecimal digits denote, if all are such. -/
def hexNumber? (cs : List Char) : Option Nat :=
  cs.foldlM (fun n c => (Json.hexValue? c).map (16 * n + ·)) 0

/-- The identifier of 32 hexadecimal digits. -/
def ofDigits? (cs : List Char) : Option Uuid :=
  if cs.length = 32 then (hexNumber? cs).map fun n => ⟨BitVec.ofNat 128 n⟩ else none

/-- The identifier of five groups of digits. -/
def ofGroups? (cs : List Char) : Option Uuid :=
  let ds := cs.filter (· ≠ '-')
  if cs.length = 36 ∧ grouped ds = cs then ofDigits? ds else none

/-- **The identifier that a text denotes:** 32 digits, five groups, five groups in braces, or five
groups after the name of the namespace. Letters may be in either case. -/
def parse? (s : String) : Option Uuid :=
  let cs := s.toList
  if cs.length = 32 then ofDigits? cs
  else if cs.length = 38 ∧ cs.head? = some '\x7b' ∧ cs.getLast? = some '\x7d' then
    ofGroups? (cs.drop 1).dropLast
  else if cs.length = 45 ∧ cs.take 9 = "urn:uuid:".toList then ofGroups? (cs.drop 9)
  else ofGroups? cs

/-- The identifier that 128 random bits make: all but the six bits that mark it as random are
kept. -/
def random (bits : BitVec 128) : Uuid :=
  -- Four bits tell the version, two the variant.
  let keep : BitVec 128 := ~~~((0xF#128 <<< 76) ||| (0x3#128 <<< 62))
  ⟨(bits &&& keep) ||| (0x4#128 <<< 76) ||| (0x2#128 <<< 62)⟩

end Uuid

end Scoresheet
