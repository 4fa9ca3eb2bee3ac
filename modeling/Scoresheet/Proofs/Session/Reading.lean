import Scoresheet.Proofs.Decimal.RoundTrip
import Scoresheet.Proofs.Json.Numbers
import Scoresheet.Proofs.Session.Codec
import Scoresheet.Proofs.Session.Validation
import Scoresheet.Session.Loading

/-!
# The values that sessions are read with

The validation does not look at the values of an answer. A value that is no number can be written in
one of the two formats of sessions only, so that it depends on the format whether an answer about
which nothing was found can fail for one of its values.

* `Session.finite_of_readJson` — the values of a JSON text are finite.
* `Answer.Sound.evaluate_binding_iff` — a sound answer fails for a value exactly if its formula
  reads a value that is not finite.
* `Session.evaluate_binding_of_no_warning` — what the validation misses about bindings.
-/

namespace Scoresheet

open Json (Record applyFirst_eq_ok_iff)

/-! ### What is decoded from finite nodes -/

section Decoders

variable {origin : Json.Origin} {node : Json.Node}

theorem VariableValue.isFinite_of_decoder (hnode : node.Finite) {v : VariableValue}
    (h : decoder origin node = .ok v) : v.value.isFinite = true := by
  obtain ⟨r, hr, h⟩ := bind_eq_ok_iff.1 h
  obtain ⟨_, value, hinput, hvalue, rfl⟩ := applyFirst_eq_ok_iff.1 (Record.build_eq_ok h)
  obtain ⟨input, -, rfl⟩ := map_eq_ok_iff.1 hinput
  obtain ⟨part, hpart, hfloat⟩ := Record.exists_of_field hvalue
  exact (hnode.of_mem_parts (Record.mem_parts_of_ofNode hr hpart)).number hfloat

theorem Answer.isFinite_of_decoder (hnode : node.Finite) {answer : Answer}
    (h : decoder origin node = .ok answer) :
    ∀ v ∈ answer.variableValues, v.value.isFinite = true := by
  obtain ⟨r, hr, h⟩ := bind_eq_ok_iff.1 h
  obtain ⟨_, values, hpicked, hvalues, rfl⟩ := applyFirst_eq_ok_iff.1 (Record.build_eq_ok h)
  obtain ⟨picked, -, rfl⟩ := map_eq_ok_iff.1 hpicked
  intro v hv
  -- The values may be left out, and otherwise stand at a node of the document.
  obtain rfl | ⟨list, hlist, hdecode⟩ := Record.exists_of_fieldOr hvalues
  · cases hv
  · have hfinite := hnode.of_mem_parts (Record.mem_parts_of_ofNode hr hlist)
    obtain ⟨part, hpart, hv⟩ := Json.Decoder.exists_of_mem_list hdecode hv
    exact VariableValue.isFinite_of_decoder (hfinite.of_mem_parts hpart) hv

namespace Session

theorem finite_of_decoder (hnode : node.Finite) {session : Session}
    (h : decoder origin node = .ok session) : session.Finite := by
  obtain ⟨r, hr, h⟩ := bind_eq_ok_iff.1 h
  -- The fields, from the last to the first.
  obtain ⟨_, code, hkid, -, rfl⟩ := applyFirst_eq_ok_iff.1 (Record.build_eq_ok h)
  obtain ⟨_, isKid, hlist, -, rfl⟩ := applyFirst_eq_ok_iff.1 hkid
  obtain ⟨_, answers, hdate, hanswers, rfl⟩ := applyFirst_eq_ok_iff.1 hlist
  obtain ⟨_, dateTime, hid, -, rfl⟩ := applyFirst_eq_ok_iff.1 hdate
  obtain ⟨id, -, rfl⟩ := map_eq_ok_iff.1 hid
  intro answer hanswer
  obtain rfl | ⟨list, hlist, hdecode⟩ := Record.exists_of_fieldOr hanswers
  · cases hanswer
  · have hfinite := hnode.of_mem_parts (Record.mem_parts_of_ofNode hr hlist)
    obtain ⟨part, hpart, hanswer⟩ := Json.Decoder.exists_of_mem_list hdecode hanswer
    exact Answer.isFinite_of_decoder (hfinite.of_mem_parts hpart) hanswer

theorem finite_of_manyDecoder (hnode : node.Finite) {sessions : List Session}
    (h : manyDecoder origin node = .ok sessions) : ∀ session ∈ sessions, session.Finite := by
  unfold manyDecoder at h
  split at h
  · obtain ⟨r, hr, h⟩ := bind_eq_ok_iff.1 h
    obtain ⟨list, hlist, hdecode⟩ := Record.exists_of_field (Record.build_eq_ok h)
    have hfinite := hnode.of_mem_parts (Record.mem_parts_of_ofNode hr hlist)
    intro session hsession
    obtain ⟨part, hpart, hsession⟩ := Json.Decoder.exists_of_mem_list hdecode hsession
    exact finite_of_decoder (hfinite.of_mem_parts hpart) hsession
  · cases h

theorem finite_of_fileDecoder (hnode : node.Finite) {sessions : List Session}
    (h : fileDecoder origin node = .ok sessions) : ∀ session ∈ sessions, session.Finite := by
  obtain ⟨-, -, h⟩ := bind_eq_ok_iff.1 h
  -- The two shapes are tried in turn, many sessions first.
  split at h
  · rename_i many hmany
    obtain rfl := Except.ok.inj h
    exact finite_of_manyDecoder hnode hmany
  · split at h
    · rename_i session hone
      obtain rfl := Except.ok.inj h
      exact List.forall_mem_singleton.2 (finite_of_decoder hnode hone)
    · cases h

/-- **The sessions of a JSON text** have finite values only. -/
theorem finite_of_readJson {text : String} {sessions : List Session}
    (h : readJson text = .ok sessions) : ∀ session ∈ sessions, session.Finite := by
  obtain ⟨sessions', hsessions, h⟩ := bind_eq_ok_iff.1 h
  obtain ⟨-, -, h⟩ := bind_eq_ok_iff.1 h
  obtain rfl := Except.ok.inj h
  exact finite_of_fileDecoder (Json.Document.finite_parse text) hsessions

end Session

end Decoders

/-! ### Answers that fail for a value -/

namespace Answer

variable {answer : Answer} {tokens out : List Formula.Token}

/-- What a sound answer fails for, if it is a binding, is a value that is not finite. -/
theorem Sound.exists_not_finite (h : answer.Sound tokens out) {e : Formula.Error}
    (herror : answer.evaluate = .error e) (hkind : e.kind = .binding) :
    ∃ v ∈ answer.variableValues, .identifier v.input.name ∈ tokens ∧ v.value.isFinite = false := by
  obtain harithmetic | ⟨v, hv, hmem, hbound⟩ := h.evaluate_eq_error herror
  · -- No fault of the arithmetic is of this kind.
    cases harithmetic <;> cases hkind
  -- The value that is not bound is one whose identifier the formula has.
  · refine ⟨v, hv, hmem, ?_⟩
    rw [Formula.boundValue_plain] at hbound
    split at hbound
    · cases hbound
    · rename_i hfinite
      exact Bool.eq_false_iff.2 hfinite

/-- A value that is not finite makes a sound answer fail, if the formula reads it. -/
theorem Sound.exists_binding_error (h : answer.Sound tokens out) {v : VariableValue}
    (hv : v ∈ answer.variableValues) (hmem : .identifier v.input.name ∈ tokens)
    (hfinite : v.value.isFinite = false) :
    ∃ e, answer.evaluate = .error e ∧ e.kind = .binding := by
  obtain ⟨bindings, hbindings⟩ := h.exists_bindings
  rw [h.evaluate_eq hbindings]
  have htext := (find?_of_bindings hbindings).2 ⟨v, hv, rfl, rfl⟩
  -- The substitution does not get past the name, though it may stop at another before it.
  cases hsubstitute : Formula.substitute bindings tokens with
  | ok tokens' =>
    obtain ⟨value, hvalue⟩ := Formula.boundValue_of_substitute hsubstitute hmem htext
    rw [Formula.boundValue_plain, hfinite] at hvalue
    cases hvalue
  | error e =>
    obtain ⟨name, text, -, -, hbound⟩ := Formula.exists_of_substitute_eq_error hsubstitute
    refine ⟨e, rfl, ?_⟩
    rw [Formula.boundValue_eq_error hbound]
    rfl

/-- **A sound answer fails for a value** exactly if its formula reads a value that is not finite. -/
theorem Sound.evaluate_binding_iff (h : answer.Sound tokens out) :
    (∃ e, answer.evaluate = .error e ∧ e.kind = .binding) ↔
      ∃ v ∈ answer.variableValues, .identifier v.input.name ∈ tokens ∧
        v.value.isFinite = false :=
  ⟨fun ⟨_, herror, hkind⟩ => h.exists_not_finite herror hkind,
    fun ⟨_, hv, hmem, hfinite⟩ => h.exists_binding_error hv hmem hfinite⟩

end Answer

/-! ### Sessions as they are read -/

namespace Session

/-- A TOML text of one session, whose answer gives an infinite value to the variable in its
formula. -/
def infiniteValue : String :=
  "id = 1\ndateTime = \"2024-03-03T12:00:00Z\"\n[[answers]]\npossibleAnswer.id = 1\n" ++
  "possibleAnswer.formula = \"a + 1\"\npossibleAnswer.question.id = 1\n" ++
  "possibleAnswer.question.name = \"q\"\n[[answers.variableValues]]\nvariable.name = \"a\"\n" ++
  "value = inf\n"

/-- The text is read, nothing is found, and the answer fails for its value. -/
theorem parse_infiniteValue :
    ∃ session answer, parse infiniteValue .toml = .ok [session] ∧ session.warnings = [] ∧
      session.answers = [answer] ∧ ∃ e, answer.evaluate = .error e ∧ e.kind = .binding := by
  -- The whole run is evaluated at once, to what it says of its one answer.
  have hrun : (parse infiniteValue .toml).toOption.map
      (fun sessions => sessions.map fun session => (session.warnings,
        session.answers.map fun answer => (Formula.fault? answer.evaluate).map Formula.Error.kind))
      = some [([], [some .binding])] := by decide +kernel
  obtain ⟨sessions, hparse, hrun⟩ := Option.map_eq_some_iff.1 hrun
  obtain ⟨session, rfl, hsession⟩ := List.map_eq_singleton_iff.1 hrun
  obtain ⟨hwarnings, hanswers⟩ := Prod.mk.inj hsession
  obtain ⟨answer, hanswer, hfault⟩ := List.map_eq_singleton_iff.1 hanswers
  obtain ⟨e, herror, hkind⟩ := Option.map_eq_some_iff.1 hfault
  exact ⟨session, answer, toOption_eq_some_iff.1 hparse, hwarnings, hanswer, e,
    Formula.fault?_eq_some_iff.1 herror, hkind⟩

/-- **The validation misses a value that is not finite.** An answer about which it finds nothing can
fail for a binding. -/
theorem not_forall_kind_ne_binding :
    ¬ ∀ text format sessions, parse text format = .ok sessions → ∀ session ∈ sessions,
      ∀ i answer, session.answers[i]? = some answer →
        (∀ warning ∈ session.warnings, warning.answerIndex ≠ some i) →
          ∀ e, answer.evaluate = .error e → e.kind ≠ .binding := by
  intro h
  obtain ⟨session, answer, hparse, hwarnings, hanswers, e, herror, hkind⟩ := parse_infiniteValue
  refine h infiniteValue .toml [session] hparse session List.mem_cons_self 0 answer ?_ ?_ e herror
    hkind
  · rw [hanswers]
    rfl
  · simp [hwarnings]

/-- **The one binding that the validation misses** is that of a value that is not finite, to a name
that the formula reads, and only TOML has a way to write one. -/
theorem evaluate_binding_of_no_warning {text : String} {format : SessionFormat}
    {sessions : List Session} (hparse : parse text format = .ok sessions) {session : Session}
    (hsession : session ∈ sessions) {i : Nat} {answer : Answer}
    (hanswer : session.answers[i]? = some answer)
    (hclean : ∀ warning ∈ session.warnings, warning.answerIndex ≠ some i) :
    (∃ e, answer.evaluate = .error e ∧ e.kind = .binding) ↔
      format = .toml ∧ ∃ names, Formula.freeVariables answer.formula = .ok names ∧
        ∃ v ∈ answer.variableValues, v.input.name ∈ names ∧ v.value.isFinite = false := by
  obtain ⟨tokens, out, hsound⟩ := Answer.problems_eq_nil_iff.1 (problems_eq_nil hanswer hclean)
  rw [hsound.evaluate_binding_iff]
  have hfree := Formula.freeVariables_eq_ok_iff.2
    ⟨tokens, out, hsound.tokenize_eq, hsound.toPostfix_eq, rfl⟩
  have hread : ∀ name, name ∈ Formula.firstOccurrences (tokens.filterMap Formula.Token.name?) ↔
      .identifier name ∈ tokens := fun name => by
    rw [Formula.mem_firstOccurrences, Formula.mem_filterMap_name?]
  constructor
  · rintro ⟨v, hv, hmem, hinfinite⟩
    refine ⟨?_, _, hfree, v, hv, (hread _).2 hmem, hinfinite⟩
    cases format with
    | toml => rfl
    | json =>
      -- What has been read as JSON has no such value.
      have hfinite := finite_of_readJson (mapError_eq_ok_iff.1 hparse) session hsession answer
        (List.mem_of_getElem? hanswer) v hv
      rw [hinfinite] at hfinite
      cases hfinite
  · rintro ⟨-, names, hnames, v, hv, hname, hinfinite⟩
    obtain rfl := Except.ok.inj (hfree.symm.trans hnames)
    exact ⟨v, hv, (hread _).1 hname, hinfinite⟩

/-- The answer of the text fails for its infinite value, the name of which its formula reads. -/
theorem evaluate_binding_of_no_warning_infinite :
    ∃ session answer, parse infiniteValue .toml = .ok [session] ∧ session.warnings = [] ∧
      session.answers = [answer] ∧ (∃ e, answer.evaluate = .error e ∧ e.kind = .binding) ∧
      ∃ names, Formula.freeVariables answer.formula = .ok names ∧
        ∃ v ∈ answer.variableValues, v.input.name ∈ names ∧ v.value.isFinite = false := by
  obtain ⟨session, answer, hparse, hwarnings, hanswers, hfails⟩ := parse_infiniteValue
  have hanswer : session.answers[0]? = some answer := by
    rw [hanswers]
    rfl
  have hiff := evaluate_binding_of_no_warning hparse List.mem_cons_self hanswer
    (by simp [hwarnings])
  exact ⟨session, answer, hparse, hwarnings, hanswers, hfails, (hiff.1 hfails).2⟩

end Session

end Scoresheet
