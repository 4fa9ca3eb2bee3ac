import Scoresheet.Proofs.Basic
import Scoresheet.Proofs.Signing.Hex
import Scoresheet.Signing.Envelope

/-!
# Which envelopes are accepted

An envelope is accepted with a key in one case only: it names the method, and its signature is the
whole keyed digest of its payload, written in digits of either case. Every other envelope is refused
for the first of three reasons that holds, and what is refused is not opened.

* `Sha256.length_digest`, `length_mac` — a digest has 32 bytes, with a key or without.
* `verify_eq_ok_iff` — the envelopes that are accepted.
* `Rejected`, `verify_eq_error_iff` — the reasons for which the others are refused.
* `openWith_eq_ok_iff` — what is opened has been accepted.
* `accepted_iff_signed` — all of it.
-/

namespace Scoresheet

/-! ### The length of a digest -/

namespace Sha256

@[simp] theorem length_bigEndian (bytes n : ℕ) : (bigEndian bytes n).length = bytes := by
  simp [bigEndian]

theorem length_round (state : List UInt32) (constantAndWord : UInt32 × UInt32) :
    (round state constantAndWord).length = state.length := by
  unfold round
  split <;> rfl

/-- Steps that keep the number of words of a state do so any number of times. -/
theorem length_foldl {β : Type} {step : List UInt32 → β → List UInt32}
    (h : ∀ state b, (step state b).length = state.length) (bs : List β) (state : List UInt32) :
    (bs.foldl step state).length = state.length := by
  induction bs generalizing state with
  | nil => rfl
  | cons b rest ih => rw [List.foldl_cons, ih, h]

theorem length_compress (state : List UInt32) (block : List UInt8) :
    (compress state block).length = state.length := by
  rw [compress, List.length_zipWith, length_foldl length_round, Nat.min_self]

/-- **A digest has 32 bytes.** -/
theorem length_digest (message : List UInt8) : (digest message).length = 32 := by
  simp [digest, List.length_flatMap, length_foldl length_compress, initialState]

end Sha256

namespace Signing

open Json (Value Decoder)

/-- The keyed digest has 32 bytes. -/
theorem length_mac (key : Key) (message : List UInt8) : (mac key message).length = 32 :=
  Sha256.length_digest _

/-! ### Envelopes that are accepted -/

variable {key : Key} {e : Envelope}

/-- An envelope that names another method is refused for that, whatever its signature is. -/
theorem verify_of_ne (h : e.algorithm ≠ algorithm) :
    verify key e = .error (.unsupportedAlgorithm e.algorithm) := by
  unfold verify
  rw [if_pos h]
  rfl

/-- Where the method is the one named, the signature decides. -/
theorem verify_of_eq (h : e.algorithm = algorithm) :
    verify key e = match Hex.decode e.signature with
      | .error fault => .error (.malformedSignature fault)
      | .ok bytes => if bytes = payloadMac key e.payload then .ok () else .error .mismatch := by
  unfold verify
  rw [if_neg (not_not.2 h)]
  -- The signature is decoded before it is compared.
  cases Hex.decode e.signature with
  | error fault => rfl
  | ok bytes =>
    by_cases heq : bytes = payloadMac key e.payload
    · simp [heq, Except.mapError, bind, Except.bind, pure, Except.pure]
    · simp only [heq, Except.mapError, bind, Except.bind, if_false]
      rfl

/-- **The envelopes that are accepted** name the method and hold the whole keyed digest. -/
theorem verify_eq_ok_iff : verify key e = .ok () ↔
    e.algorithm = algorithm ∧ Hex.decode e.signature = .ok (payloadMac key e.payload) := by
  by_cases halgorithm : e.algorithm = algorithm
  · rw [verify_of_eq halgorithm]
    cases Hex.decode e.signature with
    | error fault => simp
    | ok bytes => simp [halgorithm]
  · simp [verify_of_ne halgorithm, halgorithm]

/-! ### Envelopes that are refused -/

/-- **The reason for which an envelope is refused:** the first one that holds. -/
inductive Rejected (key : Key) (e : Envelope) : Error → Prop where
  | unsupportedAlgorithm (hne : e.algorithm ≠ algorithm) :
    Rejected key e (.unsupportedAlgorithm e.algorithm)
  | malformedSignature (heq : e.algorithm = algorithm) {fault : Hex.Fault}
    (hmalformed : Hex.Malformed e.signature fault) : Rejected key e (.malformedSignature fault)
  | mismatch (heq : e.algorithm = algorithm) {bytes : List UInt8}
    (hdenotes : e.signature.toList.map Char.toLower = (Hex.encode bytes).toList)
    (hne : bytes ≠ payloadMac key e.payload) : Rejected key e .mismatch

theorem verify_eq_error_iff {error : Error} :
    verify key e = .error error ↔ Rejected key e error := by
  constructor
  · intro h
    -- The checks of verification come in this order, and the first that fails gives the error.
    by_cases halgorithm : e.algorithm = algorithm
    · rw [verify_of_eq halgorithm] at h
      cases hsignature : Hex.decode e.signature with
      | error fault =>
        rw [hsignature] at h
        obtain rfl := Except.error.inj h
        exact .malformedSignature halgorithm (Hex.decode_eq_error_iff.1 hsignature)
      | ok bytes =>
        rw [hsignature] at h
        dsimp only at h
        split at h
        · cases h
        next hne =>
        obtain rfl := Except.error.inj h
        exact .mismatch halgorithm (Hex.decode_eq_ok_iff.1 hsignature) hne
    · rw [verify_of_ne halgorithm] at h
      obtain rfl := Except.error.inj h
      exact .unsupportedAlgorithm halgorithm
  · intro h
    -- Each reason for a refusal includes that the earlier checks pass.
    cases h with
    | unsupportedAlgorithm hne => exact verify_of_ne hne
    | malformedSignature heq hmalformed =>
      rw [verify_of_eq heq, Hex.decode_eq_error_iff.2 hmalformed]
    | mismatch heq hdenotes hne =>
      rw [verify_of_eq heq, Hex.decode_eq_ok_iff.2 hdenotes]
      exact if_neg hne

/-- **What is opened** has been accepted, and its payload is what the decoder makes of it. -/
theorem openWith_eq_ok_iff {α : Type} {decoder : Decoder α} {a : α} :
    openWith decoder key e = .ok a ↔
      verify key e = .ok () ∧ decoder .value e.payload.toNode = .ok a := by
  unfold openWith
  rw [bind_eq_ok_iff]
  simp only [mapError_eq_ok_iff]
  exact ⟨fun ⟨(), hverify, hpayload⟩ => ⟨hverify, hpayload⟩, fun h => ⟨(), h⟩⟩

/-- **Envelopes are accepted exactly if they are signed.** The method must be the one there is, and
the signature the whole keyed digest of the payload's compact JSON, 32 bytes in 64 digits of either
case. Every other envelope is refused for the first reason that holds: another method, a signature
that is none, another signature. What is opened has been accepted. -/
theorem accepted_iff_signed (key : Key) (e : Envelope) :
    (verify key e = .ok () ↔ e.algorithm = "HMAC-SHA256" ∧
      e.signature.toList.map Char.toLower
        = (Hex.encode (mac key e.payload.compact.toUTF8.toList)).toList) ∧
    (mac key e.payload.compact.toUTF8.toList).length = 32 ∧
    (∀ signature : String, signature.toUTF8.toList.length ≠ 64 →
      verify key { e with signature := signature } ≠ .ok ()) ∧
    (∀ error, verify key e = .error error ↔ Rejected key e error) ∧
    ∀ (α : Type) (decoder : Decoder α) (a : α), openWith decoder key e = .ok a ↔
      verify key e = .ok () ∧ decoder .value e.payload.toNode = .ok a := by
  refine ⟨?_, length_mac key _, fun signature hlength h => hlength ?_, fun _ => verify_eq_error_iff,
    fun _ _ _ => openWith_eq_ok_iff⟩
  · rw [verify_eq_ok_iff, Hex.decode_eq_ok_iff]
    rfl
  -- A signature that is accepted is twice as long as its bytes.
  · have hdenotes := Hex.decode_eq_ok_iff.1 (verify_eq_ok_iff.1 h).2
    rw [Hex.length_of_lowered hdenotes, payloadMac, length_mac]

end Signing

end Scoresheet
