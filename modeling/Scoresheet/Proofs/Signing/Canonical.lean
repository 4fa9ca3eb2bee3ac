import Scoresheet.Proofs.Signing.Acceptance
import Scoresheet.Proofs.Signing.Envelope

/-!
# What is signed determines the payload

A signature is made of the compact text of a payload in key order. That text is read as one value
only, so that two payloads have the same bytes signed exactly if they are the same; and it is the
text of the payload itself, not of the envelope that holds it, so that neither the layout of an
envelope nor the order of its members is signed.

* `signedBytes_inj` — the bytes that are signed tell the payload.
* `signedBytes_sign_iff` — signing forgets the order of members, and nothing else.
* `EnvelopeText` — the texts of envelopes of a payload.
* `EnvelopeText.same_signedBytes_iff` — envelopes whose payloads have been reordered are read with
  the same bytes signed.
* `collide_of_accepted` — two payloads under one key and one signature are a collision of the keyed
  digest.
* `signedBytes_determine_payload` — all of it.

Payloads are values that can be stored: integers have 64 bits, floats are finite, and the keys of an
object differ. Numbers are told apart by their kind and their bits: an integer is never written as a
float is, and the digits of a finite float are read as that float, its sign included. Of the keyed
digest nothing is used but that it is a function; what two payloads under one signature would mean
is said of its inputs.
-/

namespace Scoresheet.Signing

open Json

/-! ### Bytes -/

/-- **The bytes that are signed** tell the payload. -/
theorem signedBytes_inj {v w : Value} (hv : v.Storable) (hw : w.Storable) :
    signedBytes v = signedBytes w ↔ v = w := by
  constructor
  · intro h
    have htext : v.compact = w.compact := toList_toUTF8_inj.1 h
    -- Both values have this text.
    have hspelled := (Value.written_compact v).spelled hv
    rw [htext] at hspelled
    exact hspelled.unique ((Value.written_compact w).spelled hw)
  · rintro rfl
    rfl

/-- **Signing forgets the order of members,** and nothing else. -/
theorem signedBytes_sign_iff (key : Key) {v w : Value} (hv : v.Storable) (hw : w.Storable) :
    signedBytes (sign key v).payload = signedBytes (sign key w).payload ↔ v.Reordered w := by
  rw [← Value.sorted_eq_iff hv hw]
  exact signedBytes_inj (Value.storable_sorted hv) (Value.storable_sorted hw)

/-! ### Texts -/

/-- **The texts of envelopes of a payload,** whatever else the envelopes hold and in whatever way
they are written. -/
def EnvelopeText (payload : Value) (text : String) : Prop :=
  ∃ (w : Value) (algorithm signature : String), w.Spelled text.toList ∧
    IsEnvelope algorithm payload signature w

/-- A text of an envelope is read exactly if the payload does not nest too deep, and what is taken
out of it is the payload in key order. -/
theorem EnvelopeText.decode_iff {text : String} {p : Value} (h : EnvelopeText p text) {q : Value} :
    (∃ e, decode Envelope.decoder text = .ok e ∧ e.payload = q)
      ↔ p.nesting < depthLimit ∧ q = p.sorted := by
  obtain ⟨w, a, s, hw, henvelope⟩ := h
  constructor
  · rintro ⟨e, hread, rfl⟩
    obtain ⟨p', henvelope', hnesting, hsorted⟩ := (Envelope.decode_eq_ok_iff hw).1 hread
    -- The envelope holds one payload, and so that is the one that was read.
    obtain rfl := henvelope.unique henvelope'
    exact ⟨hnesting, hsorted⟩
  · rintro ⟨hnesting, rfl⟩
    have hread : decode Envelope.decoder text = .ok ⟨a, p.sorted, s⟩ :=
      (Envelope.decode_eq_ok_iff hw).2 ⟨p, henvelope, hnesting, rfl⟩
    exact ⟨_, hread, rfl⟩

/-- **Two envelopes whose payloads differ in the order of members only** are both read, with the
same bytes signed, unless the payloads nest too deep to be read at all. -/
theorem EnvelopeText.same_signedBytes_iff {text text' : String} {p p' : Value}
    (h : EnvelopeText p text) (h' : EnvelopeText p' text') (hp : p.Reordered p') :
    (∃ e e', decode Envelope.decoder text = .ok e ∧ decode Envelope.decoder text' = .ok e' ∧
      signedBytes e.payload = signedBytes e'.payload) ↔ p.nesting < depthLimit := by
  constructor
  · rintro ⟨e, -, hread, -⟩
    exact (h.decode_iff.1 ⟨e, hread, rfl⟩).1
  · intro hnesting
    -- The members in another order are no deeper, so the second text is read as well.
    have hnesting' : p'.nesting < depthLimit :=
      Nat.lt_of_le_pred (by decide) (hp.nesting_le (Nat.le_pred_of_lt hnesting))
    obtain ⟨e, hread, hpayload⟩ := h.decode_iff.2 ⟨hnesting, rfl⟩
    obtain ⟨e', hread', hpayload'⟩ := h'.decode_iff.2 ⟨hnesting', rfl⟩
    refine ⟨e, e', hread, hread', ?_⟩
    rw [hpayload, hpayload', hp.sorted_eq]

/-! ### Collisions -/

/-- Two inputs of a function collide if they differ and have the same output. -/
def Collide {α β : Type} (f : α → β) (x y : α) : Prop :=
  x ≠ y ∧ f x = f y

/-- **Two payloads under one key and one signature** are a collision of the keyed digest. -/
theorem collide_of_accepted {key : Key} {e e' : Envelope} (he : e.payload.Storable)
    (he' : e'.payload.Storable) (h : verify key e = .ok ()) (h' : verify key e' = .ok ())
    (hsignature : Hex.decode e.signature = Hex.decode e'.signature) :
    e.payload ≠ e'.payload
      ↔ Collide (mac key) (signedBytes e.payload) (signedBytes e'.payload) := by
  have hmac : mac key (signedBytes e.payload) = mac key (signedBytes e'.payload) := by
    rw [(verify_eq_ok_iff.1 h).2, (verify_eq_ok_iff.1 h').2] at hsignature
    exact Except.ok.inj hsignature
  -- The digests are the same in any case, so that it is for the inputs to differ.
  rw [Collide, ne_eq, ne_eq, signedBytes_inj he he']
  exact (and_iff_left hmac).symm

/-! ### Everything -/

/-- **What is signed determines the payload,** however envelopes are written. -/
theorem signedBytes_determine_payload :
    (∀ v w : Value, v.Storable → w.Storable → (signedBytes v = signedBytes w ↔ v = w)) ∧
    (∀ (key : Key) (v w : Value), v.Storable → w.Storable →
      (signedBytes (sign key v).payload = signedBytes (sign key w).payload ↔ v.Reordered w)) ∧
    (∀ (text text' : String) (p p' : Value), EnvelopeText p text → EnvelopeText p' text' →
      p.Reordered p' →
      ((∃ e e', decode Envelope.decoder text = .ok e ∧ decode Envelope.decoder text' = .ok e' ∧
        signedBytes e.payload = signedBytes e'.payload) ↔ p.nesting < depthLimit)) ∧
    ∀ (key : Key) (e e' : Envelope), e.payload.Storable → e'.payload.Storable →
      verify key e = .ok () → verify key e' = .ok () →
      Hex.decode e.signature = Hex.decode e'.signature →
      (e.payload ≠ e'.payload
        ↔ Collide (mac key) (signedBytes e.payload) (signedBytes e'.payload)) :=
  ⟨fun _ _ => signedBytes_inj, fun key _ _ => signedBytes_sign_iff key,
    fun _ _ _ _ h h' hp => h.same_signedBytes_iff h' hp, fun _ _ _ => collide_of_accepted⟩

/-- One, as an integer and as a float, and both zeros; the texts of two envelopes, one compact and
one indented, with an unknown member and all members in another order; and two payloads that are
signed alike. -/
theorem signedBytes_determine_payload_secret :
    let key : Key := ⟨[115, 101, 99, 114, 101, 116], by decide⟩
    let numbers : List Value := [.int 1, .float 1.0, .float 0.0, .float (-0.0)]
    let p : Value := .object [("a", .array numbers), ("b", .string "\"")]
    let p' : Value := .object [("b", .string "\""), ("a", .array numbers)]
    let w : Value := .object [("algorithm", .string algorithm), ("payload", p),
      ("signature", .string "00")]
    let w' : Value := .object [("signature", .string "01"), ("payload", p'), ("note", .null),
      ("algorithm", .string algorithm)]
    ((∀ v ∈ numbers, v.Storable) ∧
      numbers.Pairwise fun v w => signedBytes v ≠ signedBytes w) ∧
    (p.Storable ∧ p'.Storable ∧
      signedBytes (sign key p).payload = signedBytes (sign key p').payload) ∧
    (EnvelopeText p w.compact ∧ EnvelopeText p' w'.pretty ∧ p.Reordered p' ∧
      p.nesting < depthLimit ∧ ∃ e e', decode Envelope.decoder w.compact = .ok e ∧
        decode Envelope.decoder w'.pretty = .ok e' ∧
        signedBytes e.payload = signedBytes e'.payload) ∧
    (verify key (sign key p) = .ok () ∧ verify key (sign key p') = .ok () ∧
      ¬ Collide (mac key) (signedBytes (sign key p).payload)
        (signedBytes (sign key p').payload)) := by
  intro key numbers p p' w w'
  obtain ⟨hbytes, hsign, htexts, haccepted⟩ := signedBytes_determine_payload
  -- What differs in the bytes that are signed differs in its bits.
  have hnumbers : ∀ v ∈ numbers, v.Storable := by
    have hone : (1.0 : Float).isFinite = true := by decide +kernel
    have hzero : (0.0 : Float).isFinite = true := by decide +kernel
    have hnegative : (-0.0 : Float).isFinite = true := by decide +kernel
    simp [numbers, hone, hzero, hnegative]
  have hdiffer : numbers.Pairwise (· ≠ ·) := by
    have hbits : ∀ {x y : Float}, x.toBits ≠ y.toBits → x ≠ y := fun h heq => h (heq ▸ rfl)
    have hzero : (1.0 : Float) ≠ 0.0 := hbits (by decide +kernel)
    have hnegative : (1.0 : Float) ≠ -0.0 := hbits (by decide +kernel)
    have hzeros : (0.0 : Float) ≠ -0.0 := hbits (by decide +kernel)
    simp [numbers, hzero, hnegative, hzeros]
  -- Both payloads can be stored, and they have the same members.
  have hp : p.Storable := by simpa [p] using hnumbers
  have hp' : p'.Storable := by simpa [p'] using hnumbers
  have hsorted : p.sorted = p'.sorted := by rfl
  have hreordered := (Value.sorted_eq_iff hp hp').1 hsorted
  have hw : w.Storable := by simpa [w] using hp
  have hw' : w'.Storable := by simpa [w'] using hp'
  have htext : EnvelopeText p w.compact :=
    ⟨w, _, _, (Value.written_compact w).spelled hw, .object rfl rfl rfl⟩
  have htext' : EnvelopeText p' w'.pretty :=
    ⟨w', _, _, (Value.written_pretty w').spelled hw', .object rfl rfl rfl⟩
  have hnesting : p.nesting < depthLimit := by decide
  have hpayload : (sign key p).payload = (sign key p').payload := hsorted
  -- The second signature goes with the first payload as well, because both have the same bytes.
  have hcollide := haccepted key (sign key p) (sign key p') (Value.storable_sorted hp)
    (Value.storable_sorted hp') (verify_sign key p) (verify_sign key p')
    (by rw [sign, sign, hsorted])
  refine ⟨⟨hnumbers, ?_⟩, ⟨hp, hp', (hsign key p p' hp hp').2 hreordered⟩,
    ⟨htext, htext', hreordered, hnesting,
      (htexts _ _ p p' htext htext' hreordered).2 hnesting⟩,
    verify_sign key p, verify_sign key p', fun h => hcollide.2 h hpayload⟩
  exact hdiffer.imp_of_mem fun hv hw hne heq =>
    hne ((hbytes _ _ (hnumbers _ hv) (hnumbers _ hw)).1 heq)

end Scoresheet.Signing
