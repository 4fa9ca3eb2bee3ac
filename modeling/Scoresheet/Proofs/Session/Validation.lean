import Mathlib.Data.List.TakeWhile
import Scoresheet.Proofs.Formula.FreeVariables
import Scoresheet.Proofs.Formula.Lexemes
import Scoresheet.Proofs.Scoring.Policies
import Scoresheet.Proofs.Session.Bindings

/-!
# What the validation says about the scoring

The validation reads the formula of an answer as it stands; the scoring puts the values in first,
converts what comes out and runs it. What the validation finds nothing about can only fail in the
values or in the arithmetic, and what it finds something about does fail.

* `Answer.Sound` — what an answer has if the validation finds nothing about it.
* `Answer.problems_eq_nil_iff` — the validation finds nothing about the sound answers, and only
  about them.
* `Answer.sound_of_evaluate` — an answer with a value is sound.
* `Answer.Sound.evaluate_eq_error` — what a sound answer can fail for.
* `Session.exists_of_warning` — a finding about an answer is one about its formula or its names.

Soundness speaks of the tokens before the values are put in. The names that are left once they are
in, and the names that are called, are known from it, and these are what the machine meets.
-/

namespace Scoresheet

/-! ### Formulas without a sign in them -/

namespace Text

/-- A text of which nothing is left after the blanks are cut off has only blanks. -/
theorem isBlank_of_trim_eq_nil {text : List Char} (h : trim text = []) :
    ∀ c ∈ text, isBlank c := by
  intro c hc
  unfold trim trimStart at h
  rw [List.reverse_eq_nil_iff, List.dropWhile_eq_nil_iff] at h
  -- A character of the text stands in the blank front that is dropped or in the rest.
  have hsplit : text.takeWhile isBlank ++ text.dropWhile isBlank = text :=
    List.takeWhile_append_dropWhile
  rw [← hsplit, List.mem_append] at hc
  obtain hfront | hrest := hc
  · exact List.mem_takeWhile_imp hfront
  · exact h c (List.mem_reverse.2 hrest)

end Text

namespace Formula

/-- A formula of blanks has no tokens. -/
theorem tokenize_of_trim_eq_nil {formula : String} (h : Text.trim formula.toList = []) :
    tokenize formula = .ok [] := by
  unfold tokenize spans
  rw [← List.append_nil formula.toList, spansFrom_blanks (Text.isBlank_of_trim_eq_nil h), spansFrom]
  rfl

end Formula

/-! ### Sound answers -/

namespace Answer

variable {answer : Answer} {tokens out : List Formula.Token}

/-- The formula of an answer is cut into the tokens and these are converted, every name in it has a
value, every function in it exists, and no variable is given twice. -/
structure Sound (answer : Answer) (tokens out : List Formula.Token) : Prop where
  names_nodup : answer.variableNames.Nodup
  tokenize_eq : Formula.tokenize answer.formula = .ok tokens
  toPostfix_eq : Formula.toPostfix tokens = .ok out
  given : ∀ name, .identifier name ∈ tokens → name ∈ answer.variableNames
  known : ∀ name declared, .function name declared ∈ tokens →
    ∃ f, Formula.Builtin.ofName? name = some f

theorem unknownFunctions_eq_nil_iff :
    unknownFunctions tokens = [] ↔
      ∀ name declared, .function name declared ∈ tokens →
        ∃ f, Formula.Builtin.ofName? name = some f := by
  unfold unknownFunctions
  rw [List.filterMap_eq_nil_iff]
  constructor
  · intro h name declared hmem
    have hknown := h _ hmem
    cases hf : Formula.Builtin.ofName? name with
    | some f => exact ⟨f, rfl⟩
    | none => simp [hf] at hknown
  · intro h token hmem
    -- Other tokens call nothing.
    cases token with
    | function name declared =>
      obtain ⟨f, hf⟩ := h name declared hmem
      simp [hf]
    | number | identifier | operator | leftParen | rightParen | comma => rfl

theorem formulaProblems_eq_nil_iff :
    answer.formulaProblems = [] ↔
      ∃ tokens out, Formula.tokenize answer.formula = .ok tokens ∧
        Formula.toPostfix tokens = .ok out ∧
        (∀ name, .identifier name ∈ tokens → name ∈ answer.variableNames) ∧
        ∀ name declared, .function name declared ∈ tokens →
          ∃ f, Formula.Builtin.ofName? name = some f := by
  unfold formulaProblems
  -- A formula without free variables does not parse, and that is the problem.
  cases hfree : Formula.freeVariables answer.formula with
  | error cause =>
    refine iff_of_false (List.cons_ne_nil _ _) ?_
    rintro ⟨tokens, out, htokens, hout, -⟩
    have hok := Formula.freeVariables_eq_ok_iff.2 ⟨tokens, out, htokens, hout, rfl⟩
    rw [hfree] at hok
    cases hok
  | ok names =>
    obtain ⟨tokens, out, htokens, hout, rfl⟩ := Formula.freeVariables_eq_ok_iff.1 hfree
    -- A name is missing if it is free and no value is given for it.
    have hgiven :
        ((Formula.firstOccurrences (tokens.filterMap Formula.Token.name?)).filter
            fun name => !answer.variableNames.contains name) = [] ↔
          ∀ name, .identifier name ∈ tokens → name ∈ answer.variableNames := by
      rw [List.filter_eq_nil_iff]
      simp [Formula.mem_filterMap_name?, -List.mem_filterMap]
    simp only [htokens, List.append_eq_nil_iff, List.map_eq_nil_iff, hgiven,
      unknownFunctions_eq_nil_iff]
    constructor
    · rintro ⟨hgiven, hknown⟩
      exact ⟨tokens, out, rfl, hout, hgiven, hknown⟩
    · rintro ⟨tokens', -, htokens', -, hgiven, hknown⟩
      obtain rfl := Except.ok.inj htokens'
      exact ⟨hgiven, hknown⟩

/-- **The validation finds nothing about the sound answers,** and only about them. -/
theorem problems_eq_nil_iff : answer.problems = [] ↔ ∃ tokens out, answer.Sound tokens out := by
  unfold problems
  by_cases hblank : Text.trim answer.formula.toList = []
  · rw [if_pos hblank]
    refine iff_of_false (List.cons_ne_nil _ _) ?_
    rintro ⟨tokens, out, h⟩
    -- A formula of blanks has no tokens, and no tokens are not converted.
    obtain rfl := Except.ok.inj (h.tokenize_eq.symm.trans (Formula.tokenize_of_trim_eq_nil hblank))
    cases h.toPostfix_eq
  · rw [if_neg hblank, List.append_eq_nil_iff, List.map_eq_nil_iff, repetitions_eq_nil_iff,
      formulaProblems_eq_nil_iff]
    constructor
    · rintro ⟨⟨hnodup, -⟩, tokens, out, htokens, hout, hgiven, hknown⟩
      exact ⟨tokens, out, hnodup, htokens, hout, hgiven, hknown⟩
    · rintro ⟨tokens, out, hnodup, htokens, hout, hgiven, hknown⟩
      exact ⟨⟨hnodup, fun _ _ => List.not_mem_nil⟩, tokens, out, htokens, hout, hgiven, hknown⟩

/-- **An answer with a value is sound.** -/
theorem sound_of_evaluate {value : Float} (h : answer.evaluate = .ok value) :
    ∃ tokens out, answer.Sound tokens out := by
  -- All stages succeed, and each of them says something of the formula.
  obtain ⟨bindings, hbindings, h⟩ := bind_eq_ok_iff.1 h
  obtain ⟨tokens, htokens, h⟩ := bind_eq_ok_iff.1 h
  obtain ⟨tokens', hsubstitute, h⟩ := bind_eq_ok_iff.1 h
  obtain ⟨out', hout', hvalue⟩ := bind_eq_ok_iff.1 h
  obtain ⟨hnames, hcalls⟩ := Formula.names_of_evaluatePostfix
    (Formula.neg_notMem_of_substitute htokens hsubstitute) hout' hvalue
  -- The formula itself is converted, for its converted image has only numbers in place of names.
  obtain ⟨e, e', -, hfault⟩ | ⟨out, _, hout, -, -⟩ := (Formula.toPostfix_alike hsubstitute).elim
  · rw [hfault] at hout'
    cases hout'
  refine ⟨tokens, out, (bindings_eq_ok_iff.1 hbindings).1, htokens, hout, ?_, ?_⟩
  -- A name that is left unbound would be left in the output.
  · intro name hmem
    rw [← isSome_find?_of_bindings hbindings, Option.isSome_iff_ne_none]
    exact fun hnone => hnames name
      ((Formula.identifier_mem_substitute_iff hsubstitute).2 ⟨hmem, hnone⟩)
  · intro name declared hmem
    exact hcalls name declared
      ((Formula.mem_substitute_iff hsubstitute (by simp) (by simp)).2 hmem)

/-- What comes of the tokens of a sound answer once its values are put in is the listing of a tree
that reads no more names and calls builtins only. -/
theorem Sound.exists_closed (h : answer.Sound tokens out) {bindings : Formula.Bindings}
    (hbindings : answer.bindings = .ok bindings) {tokens' : List Formula.Token}
    (hsubstitute : Formula.substitute bindings tokens = .ok tokens') :
    ∃ tree : Formula.Expr, Formula.toPostfix tokens' = .ok tree.postorder ∧ tree.Closed := by
  -- The substitution does not disturb the conversion.
  obtain ⟨e, -, hfault, -⟩ | ⟨_, out', -, hout', -⟩ := (Formula.toPostfix_alike hsubstitute).elim
  · rw [h.toPostfix_eq] at hfault
    cases hfault
  -- Every name is given and so replaced by a number.
  have hnames : ∀ name, .identifier name ∉ tokens' := by
    intro name hmem
    obtain ⟨hmem, hnone⟩ := (Formula.identifier_mem_substitute_iff hsubstitute).1 hmem
    have hsome := (isSome_find?_of_bindings hbindings).2 (h.given name hmem)
    rw [hnone] at hsome
    cases hsome
  have hcalls : ∀ name declared, .function name declared ∈ tokens' →
      ∃ f, Formula.Builtin.ofName? name = some f := fun name declared hmem =>
    h.known name declared ((Formula.mem_substitute_iff hsubstitute (by simp) (by simp)).1 hmem)
  obtain ⟨tree, rfl, hclosed⟩ := Formula.exists_closed_of_toPostfix
    (Formula.neg_notMem_of_substitute h.tokenize_eq hsubstitute) hnames hcalls hout'
  exact ⟨tree, hout', hclosed⟩

theorem Sound.exists_bindings (h : answer.Sound tokens out) :
    ∃ bindings, answer.bindings = .ok bindings :=
  ⟨_, bindings_eq_ok_iff.2 ⟨h.names_nodup, rfl⟩⟩

/-- The evaluation of a sound answer starts with its values put in. -/
theorem Sound.evaluate_eq (h : answer.Sound tokens out) {bindings : Formula.Bindings}
    (hbindings : answer.bindings = .ok bindings) :
    answer.evaluate = (do
      let substituted ← Formula.substitute bindings tokens
      let postfixed ← Formula.toPostfix substituted
      Formula.evaluatePostfix postfixed) := by
  unfold evaluate Formula.evaluate
  rw [hbindings, h.tokenize_eq]
  rfl

/-- **What a sound answer can fail for:** the value of a variable that its formula reads, or the
arithmetic. -/
theorem Sound.evaluate_eq_error (h : answer.Sound tokens out) {e : Formula.Error}
    (herror : answer.evaluate = .error e) :
    e.IsArithmetic ∨ ∃ v ∈ answer.variableValues, .identifier v.input.name ∈ tokens ∧
      Formula.boundValue v.input.name (Decimal.plain v.value) = .error e := by
  obtain ⟨bindings, hbindings⟩ := h.exists_bindings
  rw [h.evaluate_eq hbindings] at herror
  -- What fails is a value that is no number, or the arithmetic.
  obtain hsubstitute | ⟨tokens', hsubstitute, herror⟩ := bind_eq_error_iff.1 herror
  · obtain ⟨name, text, hmem, htext, hvalue⟩ := Formula.exists_of_substitute_eq_error hsubstitute
    obtain ⟨v, hv, rfl, rfl⟩ := (find?_of_bindings hbindings).1 htext
    exact .inr ⟨v, hv, hmem, hvalue⟩
  · obtain ⟨tree, hout', hclosed⟩ := h.exists_closed hbindings hsubstitute
    -- The conversion has been shown to succeed, so that it is the machine that fails.
    obtain hfault | ⟨postfixed, hpostfixed, herror⟩ := bind_eq_error_iff.1 herror
    · rw [hout'] at hfault
      cases hfault
    · obtain rfl := Except.ok.inj (hout'.symm.trans hpostfixed)
      rw [Formula.evaluatePostfix_postorder] at herror
      exact .inl (hclosed.isArithmetic_of_evaluate herror)

end Answer

/-! ### The findings about a session -/

namespace Session

variable {session : Session} {i : Nat}

/-- **A finding about an answer** is one of the findings about the answer in its place. -/
theorem mem_warnings_iff {warning : Warning} (hindex : warning.answerIndex = some i) :
    warning ∈ session.warnings ↔
      warning.sessionId = session.id ∧
        ∃ answer, session.answers[i]? = some answer ∧ warning.problem ∈ answer.problems := by
  obtain ⟨id, index, problem⟩ := warning
  obtain rfl : index = some i := hindex
  -- The general warning of a session has no index.
  have hgeneral : ∀ general : Bool,
      (⟨id, some i, problem⟩ : Warning) ∉
        (if general then [⟨session.id, none, .noAnswers⟩] else []) := by
    intro general
    cases general <;> simp
  unfold warnings
  simp only [List.mem_append, hgeneral, false_or, List.mem_flatMap, Prod.exists,
    List.mem_zipIdx_iff_getElem?, List.mem_map, Warning.mk.injEq, Option.some.injEq]
  constructor
  · rintro ⟨answer, index, hanswer, problem, hproblem, rfl, rfl, rfl⟩
    exact ⟨rfl, answer, hanswer, hproblem⟩
  · rintro ⟨rfl, answer, hanswer, hproblem⟩
    exact ⟨answer, i, hanswer, problem, hproblem, rfl, rfl, rfl⟩

/-- There is nothing about an answer that no finding about the session concerns. -/
theorem problems_eq_nil {answer : Answer} (hanswer : session.answers[i]? = some answer)
    (hclean : ∀ warning ∈ session.warnings, warning.answerIndex ≠ some i) :
    answer.problems = [] := by
  rw [List.eq_nil_iff_forall_not_mem]
  intro problem hproblem
  exact hclean ⟨session.id, some i, problem⟩
    ((mem_warnings_iff rfl).2 ⟨rfl, answer, hanswer, hproblem⟩) rfl

/-- An answer of the given formula, with values for the variables `a` and `b`. -/
def sampleAnswer (formula : String) (a b : Float) : Answer where
  possibleAnswer := ⟨1, "first", formula, ⟨1, "question"⟩⟩
  variableValues := [⟨⟨none, "a"⟩, a⟩, ⟨⟨none, "b"⟩, b⟩]

/-- A session of one answer. -/
def ofAnswer (answer : Answer) : Session where
  id := 1
  dateTime := ⟨⟨2023, 5, 17, by decide, by decide, by decide⟩, 12, 45, 50, 250, by decide,
    by decide, by decide, by decide⟩
  answers := [answer]
  isKid := false
  seminarAccessCode := none

/-- **The validation misses nothing in the structure of an answer.** An answer that no finding
concerns has a value, or fails for the arithmetic or for a value bound to a name that its formula
reads. -/
theorem evaluate_of_no_warning {answer : Answer} (hanswer : session.answers[i]? = some answer)
    (hclean : ∀ warning ∈ session.warnings, warning.answerIndex ≠ some i) :
    (∃ value, answer.evaluate = .ok value) ∨
      ∃ e, answer.evaluate = .error e ∧
        (e = .divisionByZero ∨ (∃ origin, e = .nonFinite origin) ∨
          ∃ name text, e = .invalidBinding name text) := by
  cases hvalue : answer.evaluate with
  | ok value => exact .inl ⟨value, rfl⟩
  -- The answer has no problem, and what is left is what no check can see.
  | error e =>
    obtain ⟨tokens, out, hsound⟩ := Answer.problems_eq_nil_iff.1 (problems_eq_nil hanswer hclean)
    refine .inr ⟨e, rfl, ?_⟩
    obtain harithmetic | ⟨v, -, -, hbound⟩ := hsound.evaluate_eq_error hvalue
    · cases harithmetic with
      | divisionByZero => exact .inl rfl
      | nonFinite origin => exact .inr (.inl ⟨origin, rfl⟩)
    · exact .inr (.inr ⟨_, _, Formula.boundValue_eq_error hbound⟩)

/-- A quotient without findings fails if its divisor is given as zero. -/
theorem evaluate_of_no_warning_quotient :
    (ofAnswer (sampleAnswer "a / b" 1 0)).warnings = [] ∧
      (sampleAnswer "a / b" 1 0).evaluate = .error .divisionByZero := by
  -- The warnings and the fault are computed, and the theorem ties them together.
  have hclean : (ofAnswer (sampleAnswer "a / b" 1 0)).warnings = [] := by decide +kernel
  have hfault : Formula.fault? (sampleAnswer "a / b" 1 0).evaluate = some .divisionByZero := by
    decide +kernel
  have hanswer : (ofAnswer (sampleAnswer "a / b" 1 0)).answers[0]?
      = some (sampleAnswer "a / b" 1 0) := rfl
  refine ⟨hclean, ?_⟩
  obtain ⟨value, hvalue⟩ | ⟨e, herror, -⟩ := evaluate_of_no_warning hanswer (by simp [hclean])
  · rw [hvalue] at hfault
    cases hfault
  · rw [herror] at hfault
    rw [herror, Option.some.inj hfault]

/-- **The validation raises no false alarm about an answer.** An answer that a finding concerns has
no value. Its session is not scored where failures abort; where they are recorded, its entry is a
failed one and there is no total. -/
theorem evaluate_of_warning {warning : Warning} (hwarning : warning ∈ session.warnings)
    (hindex : warning.answerIndex = some i) :
    ∃ answer e, session.answers[i]? = some answer ∧ answer.evaluate = .error e ∧
      ∀ aggregation,
        (∃ error, score ⟨.abort, aggregation⟩ session = .error error) ∧
        ∃ breakdown, score ⟨.record, aggregation⟩ session = .ok breakdown ∧
          breakdown.total = none ∧
          ∃ entry, breakdown.entries[i]? = some entry ∧
            entry.outcome = .failed e.kind e.message := by
  obtain ⟨-, answer, hanswer, hproblem⟩ := (mem_warnings_iff hindex).1 hwarning
  cases hvalue : answer.evaluate with
  -- An answer with a value has no problem.
  | ok value =>
    have hnone := Answer.problems_eq_nil_iff.2 (Answer.sound_of_evaluate hvalue)
    rw [hnone] at hproblem
    cases hproblem
  | error e =>
    refine ⟨answer, e, hanswer, hvalue, fun aggregation => ?_⟩
    -- Aborting fails, and the recorded breakdown has the failure at this place.
    obtain ⟨habort, htotal⟩ :=
      score_of_failure (List.mem_of_getElem? hanswer) hvalue aggregation
    refine ⟨habort, recorded aggregation session, score_record aggregation session, htotal,
      answer.entry, ?_, ?_⟩
    · show (session.answers.map Answer.entry)[i]? = some answer.entry
      rw [List.getElem?_map, hanswer]
      rfl
    · unfold Answer.entry
      rw [hvalue]
      rfl

/-- A name without a value and a function that does not exist, and what becomes of the session. -/
theorem evaluate_of_warning_call :
    (ofAnswer (sampleAnswer "mean(a, c)" 1 2)).warnings
        = [⟨1, some 0, .missingValue "c"⟩, ⟨1, some 0, .unknownFunction "mean"⟩] ∧
      (∃ error, score ⟨.abort, .mean⟩ (ofAnswer (sampleAnswer "mean(a, c)" 1 2)) = .error error) ∧
      ∃ breakdown,
        score ⟨.record, .mean⟩ (ofAnswer (sampleAnswer "mean(a, c)" 1 2)) = .ok breakdown ∧
          breakdown.total = none := by
  have hwarnings : (ofAnswer (sampleAnswer "mean(a, c)" 1 2)).warnings
      = [⟨1, some 0, .missingValue "c"⟩, ⟨1, some 0, .unknownFunction "mean"⟩] := by decide +kernel
  have hwarning : ⟨1, some 0, .missingValue "c"⟩
      ∈ (ofAnswer (sampleAnswer "mean(a, c)" 1 2)).warnings := by
    rw [hwarnings]
    exact List.mem_cons_self
  obtain ⟨_, _, -, -, hscore⟩ := evaluate_of_warning hwarning rfl
  obtain ⟨habort, breakdown, hrecord, htotal, -⟩ := hscore .mean
  exact ⟨hwarnings, habort, breakdown, hrecord, htotal⟩

end Session

end Scoresheet
