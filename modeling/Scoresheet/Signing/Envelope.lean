import Scoresheet.Json.Decoder
import Scoresheet.Signing.Hex
import Scoresheet.Signing.Sha256
import Scoresheet.Text.Blank

/-!
# Signed envelopes

A payload is signed by a keyed digest of its compact JSON with every object in key order, so that
the signature does not depend on how the payload is laid out. Payload, signature and the name of the
method make an envelope.

* `mac` — the keyed digest of bytes.
* `Key.ofSetting` — the key that a setting names.
* `sign`, `verify`, `openWith` — envelopes made, checked and opened.
* `Envelope.toJson`, `Envelope.decoder` — envelopes stored.
-/

namespace Scoresheet.Signing

/-- The name of the method. -/
def algorithm : String := "HMAC-SHA256"

/-- Why a payload is not signed or an envelope not accepted. -/
inductive Error where
  | missingKey
  | unsupportedAlgorithm (name : String)
  | malformedSignature (fault : Hex.Fault)
  | mismatch
deriving DecidableEq

/-- The wording of an error. -/
def Error.message : Error → String
  | missingKey => "no signing key configured (set signing_key or SCORECALC_SIGNING_KEY)"
  | unsupportedAlgorithm name => "unsupported signature algorithm: " ++ name
  | malformedSignature fault => "malformed signature: " ++ fault.message
  | mismatch => "signature mismatch: payload was modified or signed with another key"

/-- A key: bytes, at least one. -/
structure Key where
  bytes : List UInt8
  nonempty : bytes ≠ []

/-- The key of bytes, if there are any. -/
def Key.ofBytes (bytes : List UInt8) : Except Error Key :=
  if h : bytes = [] then .error .missingKey else .ok ⟨bytes, h⟩

/-- **The key that a setting names.** A setting of blanks names none; blanks around a key belong to
it. -/
def Key.ofSetting : Option String → Except Error Key
  | some text =>
    if Text.trim text.toList = [] then .error .missingKey else Key.ofBytes text.toUTF8.toList
  | none => .error .missingKey

/-- The length of a block of the digest, to which keys are brought. -/
def blockLength : Nat := 64

/-- A key brought to the length of a block: a longer one is digested, then zeros follow. -/
def Key.block (key : Key) : List UInt8 :=
  let short := if blockLength < key.bytes.length then Sha256.digest key.bytes else key.bytes
  short ++ List.replicate (blockLength - short.length) 0

/-- **The keyed digest of a message:** the digest of the digest of the message, each with the key in
front, masked in two ways. -/
def mac (key : Key) (message : List UInt8) : List UInt8 :=
  let inner := Sha256.digest (key.block.map (· ^^^ 0x36) ++ message)
  Sha256.digest (key.block.map (· ^^^ 0x5C) ++ inner)

/-- A payload with its signature. The objects of the payload are in key order. -/
structure Envelope where
  algorithm : String
  payload : Json.Value
  /-- The keyed digest of the payload's compact JSON, in hexadecimal. -/
  signature : String

/-- The bytes that are signed. -/
def signedBytes (payload : Json.Value) : List UInt8 :=
  payload.compact.toUTF8.toList

/-- The keyed digest of a payload. -/
def payloadMac (key : Key) (payload : Json.Value) : List UInt8 :=
  mac key (signedBytes payload)

/-- **A payload signed.** -/
def sign (key : Key) (payload : Json.Value) : Envelope :=
  let payload := payload.sorted
  ⟨Signing.algorithm, payload, Hex.encode (payloadMac key payload)⟩

/-- **An envelope checked:** first the method, then the form of the signature, then the signature
itself, which must be the whole digest. -/
def verify (key : Key) (envelope : Envelope) : Except Error Unit := do
  if envelope.algorithm ≠ Signing.algorithm then throw (.unsupportedAlgorithm envelope.algorithm)
  let signature ← (Hex.decode envelope.signature).mapError Error.malformedSignature
  if signature = payloadMac key envelope.payload then return () else throw .mismatch

/-- Why an envelope is not opened. -/
inductive OpenError where
  | signing (error : Error)
  | payload (fault : Json.Fault)
deriving DecidableEq

/-- **An envelope checked and its payload decoded.** -/
def openWith {α : Type} (decoder : Json.Decoder α) (key : Key) (envelope : Envelope) :
    Except OpenError α := do
  (verify key envelope).mapError OpenError.signing
  (decoder .value envelope.payload.toNode).mapError OpenError.payload

namespace Envelope

open Json (Value Decoder Record applyFirst)

/-- An envelope as JSON. -/
def toJson (e : Envelope) : Value :=
  .object [("algorithm", .string e.algorithm), ("payload", e.payload),
    ("signature", .string e.signature)]

/-- The decoder of a payload, whose objects are put in key order. -/
def payloadDecoder : Decoder Value := fun _ node => node.toValue.map Value.sorted

/-- The decoder of an envelope. -/
def decoder : Decoder Envelope := fun origin node => do
  let r ← Record.ofNode ["algorithm", "payload", "signature"] origin node
  let fields := (r.field "algorithm" Decoder.string).map mk
  let fields := applyFirst fields (r.field "payload" payloadDecoder)
  r.build (applyFirst fields (r.field "signature" Decoder.string))

end Envelope

end Scoresheet.Signing
