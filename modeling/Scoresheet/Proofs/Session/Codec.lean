import Scoresheet.Proofs.Json.Laws
import Scoresheet.Proofs.Json.Reordered
import Scoresheet.Proofs.Json.RoundTrip
import Scoresheet.Proofs.Timestamp
import Scoresheet.Session.Loading

/-!
# Sessions are read back

A session file holds a list of sessions in an object or a single session, and nothing in it says
which. The two are told apart by the members: an object with a list of sessions has no identifier,
and a session has no member named for a list.

* `Session.Finite` — every value of a session is finite.
* `Session.decodes` — the decoder makes the session of every node that stands for its JSON.
* `Session.decodes_many` — and the list of every node that stands for the JSON of a list.
* `Session.ReadAsMany`, `Session.ReadAsOne` — what becomes of a text that holds a list, and of one
  that holds a session.
* `Session.parse_compact` — the text of either is read as what it was written for, and not taken for
  the other.

The members may come in any order. A date need not be asked for anything: the text of every point in
time is read back.
-/

namespace Scoresheet

open Json

/-! ### Identifiers and values that may be missing -/

theorem decodes_idValue (id : Int64) : Decodes Decoder.identifier (idValue id) id :=
  decodes_identifier id

@[simp] theorem storable_idValue (id : Int64) : (idValue id).Storable := by
  have hlow := id.le_toInt
  have hhigh := id.toInt_lt
  rw [idValue, Value.storable_int]
  omega

@[simp] theorem nesting_idValue (id : Int64) : (idValue id).nesting = 0 := rfl

section Parts

variable {α : Type} {encode : α → Value} {n : ℕ}

/-- What may be missing is stored as nothing. -/
@[simp] theorem storable_ofOption {o : Option α} :
    (Value.ofOption encode o).Storable ↔ ∀ a ∈ o, (encode a).Storable := by
  cases o <;> simp [Value.ofOption]

theorem nesting_ofOption_le (h : ∀ a, (encode a).nesting ≤ n) (o : Option α) :
    (Value.ofOption encode o).nesting ≤ n := by
  cases o with
  | none => exact Nat.zero_le n
  | some a => exact h a

theorem nesting_list_le (h : ∀ a, (encode a).nesting ≤ n) (as : List α) :
    (Value.array (as.map encode)).nesting ≤ n + 1 :=
  Value.nesting_array_le.2 (List.forall_mem_map.2 fun a _ => h a)

end Parts

/-! ### Questions -/

theorem Question.decodes (q : Question) : Decodes decoder q.toJson q := by
  refine decodes_record (fun _ _ => rfl) rfl (by simp) fun r h => ?_
  have hid := h.field "id" (by simp) (decodes_idValue q.id)
  have hname := h.field "name" (by simp) (decodes_string q.name)
  simp [hid, hname, h.build]

@[simp] theorem Question.storable_toJson (q : Question) : q.toJson.Storable := by
  simp [toJson]

theorem Question.nesting_toJson_le (q : Question) : q.toJson.nesting ≤ 1 :=
  Value.nesting_object_le.2 (by simp)

theorem PossibleAnswer.decodes (p : PossibleAnswer) : Decodes decoder p.toJson p := by
  refine decodes_record (fun _ _ => rfl) rfl (by simp) fun r h => ?_
  have hid := h.field "id" (by simp) (decodes_idValue p.id)
  have hname := h.fieldOr "name" (by simp) "" (decodes_string p.name)
  have hformula := h.field "formula" (by simp) (decodes_string p.formula)
  have hquestion := h.field "question" (by simp) p.question.decodes
  simp [hid, hname, hformula, hquestion, h.build]

@[simp] theorem PossibleAnswer.storable_toJson (p : PossibleAnswer) : p.toJson.Storable := by
  simp [toJson]

theorem PossibleAnswer.nesting_toJson_le (p : PossibleAnswer) : p.toJson.nesting ≤ 2 :=
  Value.nesting_object_le.2 (by simp [p.question.nesting_toJson_le])

/-! ### Values -/

/-- A variable may have no identifier, and an identifier is not nothing. -/
theorem Variable.decodes (v : Variable) : Decodes decoder v.toJson v := by
  refine decodes_record (fun _ _ => rfl) rfl (by simp) fun r h => ?_
  have hid := h.fieldOr "id" (by simp) none
    (decodes_optional fun id (_ : id ∈ v.id) => ⟨decodes_idValue id, nofun⟩)
  have hname := h.field "name" (by simp) (decodes_string v.name)
  simp [hid, hname, h.build]

@[simp] theorem Variable.storable_toJson (v : Variable) : v.toJson.Storable := by
  simp [toJson]

theorem Variable.nesting_toJson_le (v : Variable) : v.toJson.nesting ≤ 1 := by
  have hid := nesting_ofOption_le (fun id => (nesting_idValue id).le) v.id
  exact Value.nesting_object_le.2 (by simpa using hid)

theorem VariableValue.decodes (v : VariableValue) : Decodes decoder v.toJson v := by
  refine decodes_record (fun _ _ => rfl) rfl (by simp) fun r h => ?_
  have hinput := h.field "variable" (by simp) v.input.decodes
  have hvalue := h.field "value" (by simp) (decodes_float v.value)
  simp [hinput, hvalue, h.build]

@[simp] theorem VariableValue.storable_toJson {v : VariableValue} :
    v.toJson.Storable ↔ v.value.isFinite = true := by
  simp [toJson]

theorem VariableValue.nesting_toJson_le (v : VariableValue) : v.toJson.nesting ≤ 2 :=
  Value.nesting_object_le.2 (by simp [v.input.nesting_toJson_le])

/-! ### Answers and sessions -/

theorem Answer.decodes (a : Answer) : Decodes decoder a.toJson a := by
  refine decodes_record (fun _ _ => rfl) rfl (by simp) fun r h => ?_
  have hpicked := h.field "possibleAnswer" (by simp) a.possibleAnswer.decodes
  have hvalues := h.fieldOr "variableValues" (by simp) []
    (decodes_list fun v (_ : v ∈ a.variableValues) => v.decodes)
  simp [hpicked, hvalues, h.build]

@[simp] theorem Answer.storable_toJson {a : Answer} :
    a.toJson.Storable ↔ ∀ v ∈ a.variableValues, v.value.isFinite = true := by
  simp [toJson]

theorem Answer.nesting_toJson_le (a : Answer) : a.toJson.nesting ≤ 4 := by
  have hpicked := a.possibleAnswer.nesting_toJson_le
  have hvalues := nesting_list_le VariableValue.nesting_toJson_le a.variableValues
  exact Value.nesting_object_le.2 (by simp; omega)

namespace Session

/-- Every value that a session gives to a variable is finite. -/
def Finite (session : Session) : Prop :=
  ∀ answer ∈ session.answers, ∀ v ∈ answer.variableValues, v.value.isFinite = true

/-- **A session** is decoded, from whatever node stands for it. -/
theorem decodes (s : Session) : Decodes decoder s.toJson s := by
  refine decodes_record (fun _ _ => rfl) rfl (by simp) fun r h => ?_
  have hid := h.field "id" (by simp) (decodes_idValue s.id)
  have hdate := h.field "dateTime" (by simp) (decodes_ofText s.dateTime.parse?_text)
  have hanswers := h.fieldOr "answers" (by simp) []
    (decodes_list fun a (_ : a ∈ s.answers) => a.decodes)
  have hkid := h.fieldOr "iskid" (by simp) false (decodes_bool s.isKid)
  have hcode := h.fieldOr "seminar_access_code" (by simp) none
    (decodes_optional fun code (_ : code ∈ s.seminarAccessCode) => ⟨decodes_string code, nofun⟩)
  simp [Timestamp.decoder, hid, hdate, hanswers, hkid, hcode, h.build]

@[simp] theorem storable_toJson {s : Session} : s.toJson.Storable ↔ s.Finite := by
  simp [toJson, Finite]

theorem nesting_toJson_le (s : Session) : s.toJson.nesting ≤ 6 := by
  have hanswers := nesting_list_le Answer.nesting_toJson_le s.answers
  have hcode := nesting_ofOption_le (fun code => (Value.nesting_string code).le) s.seminarAccessCode
  exact Value.nesting_object_le.2 (by simp; omega)

/-! ### Session files -/

/-- A list of sessions as the JSON of a file. -/
def manyToJson (sessions : List Session) : Value :=
  .object [("sessions", listToJson sessions)]

/-- **A list of sessions** is decoded, from whatever node stands for it. -/
theorem decodes_many (sessions : List Session) :
    Decodes manyDecoder (manyToJson sessions) sessions := by
  have hrecord : Decodes (fun origin node => Record.ofNode ["sessions"] origin node >>= fun r =>
      r.build (r.field "sessions" (Decoder.list decoder))) (manyToJson sessions) sessions := by
    refine decodes_record (fun _ _ => rfl) rfl (by simp) fun r h => ?_
    have hsessions := h.field "sessions" (by simp [listToJson])
      (decodes_list fun s (_ : s ∈ sessions) => s.decodes)
    rw [hsessions, h.build]
  -- The node is an object, and of objects the decoder is that of a record.
  intro origin node hnode
  obtain ⟨position, depth, last, nodes, -, rfl, -⟩ := Value.stands_object.1 hnode
  exact hrecord origin _ hnode

@[simp] theorem storable_manyToJson {sessions : List Session} :
    (manyToJson sessions).Storable ↔ ∀ s ∈ sessions, s.Finite := by
  simp [manyToJson, listToJson]

theorem nesting_manyToJson_le (sessions : List Session) : (manyToJson sessions).nesting ≤ 8 := by
  have hsessions := nesting_list_le nesting_toJson_le sessions
  exact Value.nesting_object_le.2 (by simpa [listToJson] using hsessions)

section Shapes

variable {origin : Origin} {node : Node}

/-- **A list is no session:** it has no identifier. -/
theorem decoder_ne_ok {sessions : List Session} (hnode : (manyToJson sessions).Stands node)
    (s : Session) : decoder origin node ≠ .ok s := by
  intro h
  -- The decoder asks for its fields in turn, the identifier first.
  obtain ⟨r, hr, h⟩ := bind_eq_ok_iff.1 h
  obtain ⟨_, code, hkid, -, rfl⟩ := applyFirst_eq_ok_iff.1 (Record.build_eq_ok h)
  obtain ⟨_, isKid, hlist, -, rfl⟩ := applyFirst_eq_ok_iff.1 hkid
  obtain ⟨_, answers, hdate, -, rfl⟩ := applyFirst_eq_ok_iff.1 hlist
  obtain ⟨_, dateTime, hfirst, -, rfl⟩ := applyFirst_eq_ok_iff.1 hdate
  obtain ⟨id, hid, rfl⟩ := map_eq_ok_iff.1 hfirst
  obtain ⟨part, hpart, -⟩ := Record.exists_of_field hid
  -- An object of many sessions has no such member.
  have hmember := Record.mem_keys_of_ofNode hnode hr hpart
  simp at hmember

/-- **A session is no list:** no member of it is named for one. -/
theorem manyDecoder_ne_ok {s : Session} (hnode : s.toJson.Stands node) (sessions : List Session) :
    manyDecoder origin node ≠ .ok sessions := by
  intro h
  obtain ⟨position, depth, last, nodes, -, rfl, -⟩ := Value.stands_object.1 hnode
  obtain ⟨r, hr, h⟩ := bind_eq_ok_iff.1 h
  obtain ⟨part, hpart, -⟩ := Record.exists_of_field (Record.build_eq_ok h)
  have hmember := Record.mem_keys_of_ofNode hnode hr hpart
  simp at hmember

end Shapes

/-! ### Session texts -/

/-- **A text is read as a list of sessions:** it is the text of a file that holds them, its value is
taken for a list, and it could not be taken for a single session. -/
structure ReadAsMany (text : String) (sessions : List Session) : Prop where
  parse : Session.parse text .json = .ok sessions
  many : manyDecoder .buffered (Document.parse text).node = .ok sessions
  notOne : ∀ s, decoder .buffered (Document.parse text).node ≠ .ok s

/-- **A text is read as one session:** it is the text of a file that holds it, its value is taken
for a session, and it could not be taken for a list. -/
structure ReadAsOne (text : String) (s : Session) : Prop where
  parse : Session.parse text .json = .ok [s]
  one : decoder .buffered (Document.parse text).node = .ok s
  notMany : ∀ sessions, manyDecoder .buffered (Document.parse text).node ≠ .ok sessions

theorem fileDecoder_of_many {node : Node} {v : Value} {sessions : List Session}
    (hvalue : node.toValue = .ok v) (hmany : manyDecoder .buffered node = .ok sessions)
    (origin : Origin) : fileDecoder origin node = .ok sessions := by
  simp [fileDecoder, hvalue, hmany, bind, Except.bind, pure, Except.pure]

theorem fileDecoder_of_one {node : Node} {v : Value} {s : Session} (hvalue : node.toValue = .ok v)
    (hmany : ∀ sessions, manyDecoder .buffered node ≠ .ok sessions)
    (hone : decoder .buffered node = .ok s) (origin : Origin) :
    fileDecoder origin node = .ok [s] := by
  obtain ⟨fault, hfault⟩ := exists_eq_error hmany
  simp [fileDecoder, hvalue, hfault, hone, bind, Except.bind, pure, Except.pure]

theorem parse_eq_ok {text : String} {node : Node} {sessions : List Session}
    (hparse : Document.parse text = ⟨node, .ok ()⟩)
    (hfile : fileDecoder .text node = .ok sessions) : parse text .json = .ok sessions := by
  have hread : readJson text = .ok sessions := by
    simp [readJson, decode, hparse, hfile, bind, Except.bind, pure, Except.pure]
  rw [parse, hread]
  rfl

variable {v : Value}

/-- The text of a list of sessions, with the members in any order. -/
theorem readAsMany_compact {sessions : List Session} (hfinite : ∀ s ∈ sessions, s.Finite)
    (hv : (manyToJson sessions).Reordered v) : ReadAsMany v.compact sessions := by
  obtain ⟨node, hparse, hstands, hvalue⟩ := hv.exists_parse_compact
    (storable_manyToJson.2 hfinite) ((nesting_manyToJson_le sessions).trans (by decide))
  have hmany := decodes_many sessions .buffered node hstands
  refine ⟨parse_eq_ok hparse (fileDecoder_of_many hvalue hmany .text), ?_, ?_⟩
  · rwa [hparse]
  · rw [hparse]
    exact decoder_ne_ok hstands

/-- The text of one session, with the members in any order. -/
theorem readAsOne_compact {s : Session} (hfinite : s.Finite) (hv : s.toJson.Reordered v) :
    ReadAsOne v.compact s := by
  obtain ⟨node, hparse, hstands, hvalue⟩ := hv.exists_parse_compact (storable_toJson.2 hfinite)
    (s.nesting_toJson_le.trans (by decide))
  have hone := s.decodes .buffered node hstands
  have hmany : ∀ sessions, manyDecoder .buffered node ≠ .ok sessions := manyDecoder_ne_ok hstands
  refine ⟨parse_eq_ok hparse (fileDecoder_of_one hvalue hmany hone .text), ?_, ?_⟩
  · rwa [hparse]
  · rwa [hparse]

/-- **Session texts are read back.** The compact text of a file with a list of sessions is read as
the list, that of a single session as the session, and neither could be read as the other. The
members of the objects may come in any order. -/
theorem parse_compact :
    (∀ (sessions : List Session) (v : Value), (∀ s ∈ sessions, s.Finite) →
      (manyToJson sessions).Reordered v → ReadAsMany v.compact sessions) ∧
    ∀ (s : Session) (v : Value), s.Finite → s.toJson.Reordered v → ReadAsOne v.compact s := by
  constructor
  · intro sessions v hfinite hv
    exact readAsMany_compact hfinite hv
  · intro s v hfinite hv
    exact readAsOne_compact hfinite hv

/-- A session in a leap second, with a negative zero, a name with escapes, and variables with and
without an identifier; and one with nothing in it. Of the first there is also the text that has its
keys in order. -/
theorem parse_compact_leapSecond :
    let s : Session := {
      id := -9223372036854775808
      dateTime := ⟨⟨2016, 12, 31, by decide, by decide, by decide⟩, 23, 59, 60, 120000000,
        by decide, by decide, by decide, by decide⟩
      answers := [⟨⟨2, "", "a + b", ⟨1, "\"ä\"\n"⟩⟩, [⟨⟨some 7, "a"⟩, -0.0⟩, ⟨⟨none, "b"⟩, 0.1⟩]⟩]
      isKid := true
      seminarAccessCode := some "" }
    let t : Session := {
      id := 1
      dateTime := ⟨⟨0, 2, 29, by decide, by decide, by decide⟩, 0, 0, 0, 0,
        by decide, by decide, by decide, by decide⟩
      answers := []
      isKid := false
      seminarAccessCode := none }
    (∀ session ∈ [s, t], session.Finite) ∧ ReadAsMany (manyToJson [s, t]).compact [s, t] ∧
      ReadAsOne s.toJson.sorted.compact s := by
  intro s t
  have hs : s.Finite := by
    simp only [Finite, s, List.forall_mem_singleton, List.forall_mem_cons]
    exact ⟨by decide +kernel, by decide +kernel⟩
  have hfinite : ∀ session ∈ [s, t], session.Finite :=
    List.forall_mem_cons.2 ⟨hs, List.forall_mem_singleton.2 fun _ h => nomatch h⟩
  have hsorted := Value.reordered_sorted (storable_toJson.2 hs)
  exact ⟨hfinite, parse_compact.1 [s, t] _ hfinite (.refl _), parse_compact.2 s _ hs hsorted⟩

end Session

end Scoresheet
