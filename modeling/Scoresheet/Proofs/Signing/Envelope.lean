import Scoresheet.Proofs.Json.Fields
import Scoresheet.Proofs.Report.Codec
import Scoresheet.Proofs.Report.Nesting
import Scoresheet.Proofs.Signing.Hex
import Scoresheet.Signing.Envelope

/-!
# What is signed is opened

An envelope is checked against the compact text of its payload, but it is stored as an indented text
of its own. So the payload that is read from that text must have the very bytes that were signed: it
is the payload that was signed, since a text is read as the value it was written for, and since a
payload in key order stays as it is.

* `IsEnvelope`, `Envelope.decode_eq_ok_iff` — the values that are envelopes, and what becomes of
  their texts.
* `Envelope.decode_stored` — the text of an envelope is read as the envelope.
* `verify_sign` — an envelope is accepted with the key that signed it.
* `OpensAs` — a payload is signed, stored, read back, accepted and opened as a value.
* `sign_opens` — so are JSON values in key order, reports and breakdowns, each as what it was.

Nothing is used of the keyed digest but that it is a function of the key and the bytes.
-/

namespace Scoresheet.Signing

open Json

namespace Envelope

/-! ### Envelopes stored -/

/-- An envelope can be stored if its payload can. -/
theorem storable_toJson {e : Envelope} (h : e.payload.Storable) : e.toJson.Storable := by
  simpa [toJson] using h

/-- An envelope nests one deeper than its payload. -/
theorem nesting_toJson (e : Envelope) : e.toJson.nesting = e.payload.nesting + 1 := by
  simp [toJson, Value.nesting, Value.membersNesting]

theorem payloadDecoder_of_toValue (v : Value) (origin : Origin) (node : Node)
    (h : node.toValue = .ok v) : payloadDecoder origin node = .ok v.sorted := by
  rw [payloadDecoder, h, map_ok]

/-- **An envelope is decoded** exactly if its three fields are and its record has no fault. -/
theorem decoder_eq_ok_iff {origin : Origin} {node : Node} {e : Envelope} :
    decoder origin node = .ok e ↔
      ∃ r, Record.ofNode ["algorithm", "payload", "signature"] origin node = .ok r ∧
        r.fault? = none ∧ r.field "algorithm" Decoder.string = .ok e.algorithm ∧
        r.field "payload" payloadDecoder = .ok e.payload ∧
        r.field "signature" Decoder.string = .ok e.signature := by
  unfold decoder
  simp only [bind_eq_ok_iff, Record.build_eq_ok_iff, applyFirst_eq_ok_iff, map_eq_ok_iff]
  -- The fields are read in order, the payload as any value.
  constructor
  · rintro ⟨r, hr, hfault, f, s, ⟨g, p, ⟨a, ha, rfl⟩, hp, rfl⟩, hs, rfl⟩
    exact ⟨r, hr, hfault, ha, hp, hs⟩
  · rintro ⟨r, hr, hfault, ha, hp, hs⟩
    exact ⟨r, hr, hfault, _, _, ⟨_, _, ⟨_, ha, rfl⟩, hp, rfl⟩, hs, rfl⟩

section Fields

variable {v : Value} {node : Node} (h : ReadBy Key.Names 1 v node) (origin : Origin)
include h

/-- A text is taken out of an envelope as it is. -/
theorem string_eq_ok_iff {s : String} :
    Decoder.string origin node = .ok s ↔ v = .string s := by
  constructor
  · intro hdecode
    cases node with
    | string position t =>
      obtain rfl := Except.ok.inj hdecode
      exact h.shows.eq_of_toValue (fun _ _ => id) rfl
    -- Nothing else is decoded as a text.
    | _ => cases hdecode
  · rintro rfl
    cases h.shows with
    | scalar hstands _ =>
      cases hstands
      rfl

/-- A payload is taken out of an envelope in key order, if it does not nest too deep. -/
theorem payloadDecoder_eq_ok_iff {q : Value} :
    payloadDecoder origin node = .ok q ↔ v.nesting < depthLimit ∧ q = v.sorted := by
  rw [payloadDecoder, map_eq_ok_iff]
  simp only [h.toValue_eq_ok_iff (fun _ _ => id) (by decide)]
  constructor
  · rintro ⟨_, ⟨rfl, hnesting⟩, rfl⟩
    exact ⟨by omega, rfl⟩
  · rintro ⟨hnesting, rfl⟩
    exact ⟨v, ⟨rfl, by omega⟩, rfl⟩

end Fields

end Envelope

/-- **The values that are envelopes** of a payload: an object that gives each of the three fields
once, whatever else it holds, or an array of the three. -/
inductive IsEnvelope (algorithm : String) (payload : Value) (signature : String) : Value → Prop
  | object {members : List (String × Value)}
    (halgorithm : valuesOf "algorithm" members = [.string algorithm])
    (hpayload : valuesOf "payload" members = [payload])
    (hsignature : valuesOf "signature" members = [.string signature]) :
    IsEnvelope algorithm payload signature (.object members)
  | array : IsEnvelope algorithm payload signature
      (.array [.string algorithm, payload, .string signature])

/-- **An envelope is of one payload.** -/
theorem IsEnvelope.unique {a a' s s' : String} {p p' w : Value} (h : IsEnvelope a p s w)
    (h' : IsEnvelope a' p' s' w) : p = p' := by
  cases h with
  | object _ hpayload _ =>
    cases h' with
    | object _ hpayload' _ => exact List.singleton_inj.1 (hpayload.symm.trans hpayload')
  | array =>
    cases h'
    rfl

namespace Envelope

/-- An object is decoded by the values that it gives to the names of the three fields. -/
theorem decoder_object_eq_ok_iff {members : List (String × Value)} {node : Node}
    (h : ReadBy Key.Names 0 (.object members) node) {origin : Origin} {e : Envelope} :
    decoder origin node = .ok e ↔ ∃ p, IsEnvelope e.algorithm p e.signature (.object members) ∧
      p.nesting < depthLimit ∧ e.payload = p.sorted := by
  obtain ⟨position, last, nodes, rfl, hnames, hvalues⟩ := h.exists_of_object
  -- What is no field can be passed over, however deep it nests.
  have hkeys : List.Forall₂ (fun member node => node.1.text = .ok member.1 ∧
      node.2.pass = .ok ()) members nodes :=
    List.Forall₂.mp (fun _ _ hname h => ⟨hname, h.shows.pass⟩) hnames hvalues
  constructor
  · intro hdecode
    obtain ⟨r, hr, hfault, ha, hp, hs⟩ := decoder_eq_ok_iff.1 hdecode
    have hdistinct := (Record.fault?_eq_none_iff hkeys hr).1 hfault
    obtain ⟨_, halgorithm, rfl⟩ := (Record.field_eq_ok_iff hkeys hvalues hr hdistinct (by simp)
      fun _ _ h => string_eq_ok_iff h origin).1 ha
    obtain ⟨p, hpayload, hnesting, hsorted⟩ := (Record.field_eq_ok_iff hkeys hvalues hr hdistinct
      (by simp) fun _ _ h => payloadDecoder_eq_ok_iff h origin).1 hp
    obtain ⟨_, hsignature, rfl⟩ := (Record.field_eq_ok_iff hkeys hvalues hr hdistinct (by simp)
      fun _ _ h => string_eq_ok_iff h origin).1 hs
    exact ⟨p, .object halgorithm hpayload hsignature, hnesting, hsorted⟩
  · rintro ⟨p, henvelope, hnesting, hsorted⟩
    cases henvelope with
    | object halgorithm hpayload hsignature =>
      have hdistinct : ∀ name ∈ ["algorithm", "payload", "signature"],
          (valuesOf name members).length ≤ 1 := by
        simp [halgorithm, hpayload, hsignature]
      obtain ⟨r, hr⟩ : ∃ r, Record.ofNode ["algorithm", "payload", "signature"] origin
          (.object position (0 + 1) nodes (.closed last)) = .ok r := ⟨_, rfl⟩
      refine decoder_eq_ok_iff.2 ⟨r, hr, (Record.fault?_eq_none_iff hkeys hr).2 hdistinct,
        ?_, ?_, ?_⟩
      · exact (Record.field_eq_ok_iff hkeys hvalues hr hdistinct (by simp)
          fun _ _ h => string_eq_ok_iff h origin).2 ⟨_, halgorithm, rfl⟩
      · exact (Record.field_eq_ok_iff hkeys hvalues hr hdistinct (by simp)
          fun _ _ h => payloadDecoder_eq_ok_iff h origin).2 ⟨p, hpayload, hnesting, hsorted⟩
      · exact (Record.field_eq_ok_iff hkeys hvalues hr hdistinct (by simp)
          fun _ _ h => string_eq_ok_iff h origin).2 ⟨_, hsignature, rfl⟩

/-- An array of fewer values lacks a field, and one of more is refused where it was read. -/
theorem decoder_array_eq_ok_iff {items : List Value} {node : Node}
    (h : ReadBy Key.Names 0 (.array items) node) {e : Envelope} :
    decoder .text node = .ok e ↔ ∃ p, IsEnvelope e.algorithm p e.signature (.array items) ∧
      p.nesting < depthLimit ∧ e.payload = p.sorted := by
  obtain ⟨position, last, nodes, rfl, hvalues⟩ := h.exists_of_array
  rw [decoder_eq_ok_iff]
  constructor
  · rintro ⟨r, hr, hfault, ha, hp, hs⟩
    obtain rfl := Except.ok.inj hr
    -- With fewer than three items there is none for the signature, and with more the record has a
    -- fault.
    match items, nodes, hvalues with
    | [], [], _ => cases hs
    | [_], [_], _ => cases hs
    | [_, _], [_, _], _ => cases hs
    | [_, p, _], [_, _, _], .cons hx (.cons hy (.cons hz .nil)) =>
      obtain rfl := (string_eq_ok_iff hx .text).1 ha
      obtain ⟨hnesting, hsorted⟩ := (payloadDecoder_eq_ok_iff hy .text).1 hp
      obtain rfl := (string_eq_ok_iff hz .text).1 hs
      exact ⟨p, .array, hnesting, hsorted⟩
    | _ :: _ :: _ :: _ :: _, _ :: _ :: _ :: _ :: _, _ => cases hfault
  · rintro ⟨p, henvelope, hnesting, hsorted⟩
    cases henvelope with
    | array =>
      match nodes, hvalues with
      | [_, _, _], .cons hx (.cons hy (.cons hz .nil)) =>
        refine ⟨_, rfl, rfl, ?_, ?_, ?_⟩
        · exact (string_eq_ok_iff hx .text).2 rfl
        · exact (payloadDecoder_eq_ok_iff hy .text).2 ⟨hnesting, hsorted⟩
        · exact (string_eq_ok_iff hz .text).2 rfl

/-- **The texts of envelopes,** in whatever way they are written, are read as what they hold. The
objects of the payload are put in key order, and it must not nest too deep. -/
theorem decode_eq_ok_iff {w : Value} {text : String} (h : w.Spelled text.toList) {e : Envelope} :
    decode decoder text = .ok e ↔ ∃ p, IsEnvelope e.algorithm p e.signature w ∧
      p.nesting < depthLimit ∧ e.payload = p.sorted := by
  obtain ⟨node, hparse, hnode⟩ := Document.exists_parse_of_reads h.reads
  rw [decode_eq_of_parse hparse]
  cases w with
  | array items => exact decoder_array_eq_ok_iff hnode
  | object members => exact decoder_object_eq_ok_iff hnode
  | null | bool | int | float | string =>
    -- A scalar is no record.
    cases hnode.shows with
    | scalar hstands _ =>
      cases hstands
      constructor
      · intro hdecode
        cases hdecode
      · rintro ⟨p, henvelope, -⟩
        cases henvelope

/-- **The text of an envelope** is read as the envelope, if it does not nest too deep. -/
theorem decode_stored {e : Envelope} (h : e.payload.Storable)
    (hdepth : e.toJson.nesting ≤ depthLimit) :
    decode decoder e.toJson.pretty = .ok { e with payload := e.payload.sorted } := by
  have hspelled := (Value.written_pretty e.toJson).spelled (storable_toJson h)
  rw [nesting_toJson] at hdepth
  exact (decode_eq_ok_iff hspelled).2 ⟨e.payload, .object rfl rfl rfl, hdepth, rfl⟩

end Envelope

/-! ### Envelopes checked and opened -/

/-- **What was signed is accepted** with the key that signed it. -/
theorem verify_sign (key : Key) (payload : Value) : verify key (sign key payload) = .ok () := by
  simp [verify, sign, Hex.decode_encode, Except.mapError, bind, Except.bind, pure, Except.pure]

/-- **A payload is signed and opened as a value:** its envelope is accepted, its indented text is
read as an envelope, and that is accepted and opened as the value. -/
structure OpensAs {α : Type} (decoder : Decoder α) (key : Key) (payload : Value) (a : α) :
    Prop where
  accepted : verify key (sign key payload) = .ok ()
  opened : ∃ e, decode Envelope.decoder (sign key payload).toJson.pretty = .ok e ∧
    verify key e = .ok () ∧ openWith decoder key e = .ok a

/-- What the decoder makes of the payload in key order is what is taken out of the envelope. -/
theorem OpensAs.of_decodes {α : Type} {decoder : Decoder α} {payload : Value} {a : α} (key : Key)
    (hpayload : payload.Storable) (hdepth : (sign key payload).toJson.nesting ≤ depthLimit)
    (hdecoder : decoder .value payload.sorted.toNode = .ok a) : OpensAs decoder key payload a := by
  -- The payload of the envelope is in key order already.
  have hsorted : (sign key payload).payload.sorted = payload.sorted := payload.sorted_sorted
  have hread := Envelope.decode_stored (Value.storable_sorted hpayload) hdepth
  refine ⟨verify_sign key payload, sign key payload, ?_, verify_sign key payload, ?_⟩
  · rw [hread, hsorted]
    rfl
  · have hopen : decoder .value (sign key payload).payload.toNode = .ok a := hdecoder
    simp [openWith, verify_sign, hopen, Except.mapError, bind, Except.bind]

/-- Records are decoded from their JSON in whatever order its members are, and so in key order. -/
theorem OpensAs.of_record {α : Type} {decoder : Decoder α} {payload : Value} {a : α} (key : Key)
    (hpayload : payload.Storable) (hdepth : payload.nesting < depthLimit)
    (hdecodes : Decodes decoder payload a) : OpensAs decoder key payload a := by
  have hnesting : (sign key payload).toJson.nesting ≤ depthLimit := by
    rw [Envelope.nesting_toJson]
    exact payload.nesting_sorted_le.trans_lt hdepth
  -- What stands for the payload in key order stands for the payload as it was signed.
  have hstands := (Value.stands_toNode (Value.storable_sorted hpayload)).of_sorted hpayload
  exact .of_decodes key hpayload hnesting (hdecodes .value _ hstands)

/-- **What is signed is opened as what it was,** with every key: a JSON value in key order, if its
envelope does not nest too deep, and every report and every breakdown that can be stored. -/
theorem sign_opens (key : Key) :
    (∀ v : Value, v.Storable → v.InOrder → (sign key v).toJson.nesting ≤ depthLimit →
      OpensAs Envelope.payloadDecoder key v v) ∧
    (∀ r : Report, r.Storable → OpensAs Report.decoder key r.toJson r) ∧
    ∀ b : Breakdown, b.Storable → OpensAs Breakdown.decoder key b.toJson b := by
  refine ⟨fun v hv horder hdepth => ?_, fun r hr => ?_, fun b hb => ?_⟩
  -- A value in order is signed as it is.
  · have hsorted := Value.sorted_of_inOrder horder
    refine .of_decodes key hv hdepth ?_
    rw [hsorted, Envelope.payloadDecoder_of_toValue v _ _ (Value.toValue_toNode hv), hsorted]
  -- A report and a breakdown are records, which nest no deeper than their own fields.
  · exact .of_record key (Report.storable_toJson hr)
      (r.nesting_toJson_le.trans_lt (by decide)) (Report.decodes hr)
  · exact .of_record key (Breakdown.storable_toJson hb)
      (b.nesting_toJson_le.trans_lt (by decide)) (Breakdown.decodes hb)

/-- A value with nested objects, a negative zero and escapes, a report without breakdowns, and a
breakdown of a failed answer. -/
theorem sign_opens_secret :
    let key : Key := ⟨[115, 101, 99, 114, 101, 116], by decide⟩
    let v : Value := .object [("", .null), ("a\n", .array [.float (-0.0), .int (-1), .bool true]),
      ("b", .object [("\"", .string "ä"), ("ü", .int 18446744073709551615)])]
    let r : Report := {
      id := Uuid.nil
      createdAt := ⟨⟨2024, 2, 29, by decide, by decide, by decide⟩, 23, 59, 60, 120000000,
        by decide, by decide, by decide, by decide⟩
      settings := ⟨.abort, .sum⟩
      breakdowns := []
      failures := [⟨8, none, "no such answer"⟩]
      statistics := .ofBreakdowns [] 1
      durationMs := 0 }
    let b := Breakdown.fold 7 .kid .mean [⟨⟨3, -4⟩, "ä", "1 / 0", .failed .divisionByZero "zero"⟩]
    (v.Storable ∧ v.InOrder ∧ (sign key v).toJson.nesting ≤ depthLimit ∧
      OpensAs Envelope.payloadDecoder key v v) ∧
    (r.Storable ∧ OpensAs Report.decoder key r.toJson r) ∧
    (b.Storable ∧ OpensAs Breakdown.decoder key b.toJson b) := by
  intro key v r b
  -- The float is finite and the integers have 64 bits.
  have hv : v.Storable := by
    have hzero : (-0.0 : Float).isFinite = true := by decide +kernel
    simp [v, hzero]
  have horder : v.InOrder := by
    have hsorted : v.sorted = v := by rfl
    exact hsorted ▸ v.inOrder_sorted
  have hdepth : (sign key v).toJson.nesting ≤ depthLimit := by decide
  -- Without breakdowns there is nothing to average.
  have hr : r.Storable := by
    have hfinite : r.statistics.Finite :=
      ⟨nofun, fun _ h => (nomatch h), fun _ h => (nomatch h)⟩
    have hstatistics : r.statistics.Storable := ⟨hfinite, by decide, by decide, by decide,
      by decide, fun _ h => (nomatch h), fun _ h => (nomatch h)⟩
    exact ⟨fun _ h => (nomatch h), hstatistics, by decide⟩
  have hb : b.Storable := ⟨by decide, by decide, by decide +kernel, by decide⟩
  obtain ⟨hvalue, hreport, hbreakdown⟩ := sign_opens key
  exact ⟨⟨hv, horder, hdepth, hvalue v hv horder hdepth⟩, ⟨hr, hreport r hr⟩,
    hb, hbreakdown b hb⟩

end Scoresheet.Signing
