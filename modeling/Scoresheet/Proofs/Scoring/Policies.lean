import Mathlib.Data.List.Forall2
import Scoresheet.Scoring.Calculator

/-!
# The two failure policies

Where failures are recorded every session has a breakdown, and that breakdown says what becomes of
the session where the first failure aborts: the same breakdown comes out, or an error that can be
read off it.

* `Entry.TellsOf` — an entry has the key, question and formula of an answer, and what the answer
  came to.
* `Answer.failure?` — the failure of an answer, with the answer's key.
* `entriesOrAbort_eq` — the aborting pass over the answers, told by the first failure among them.
* `find?_entry` — the first failed entry of a breakdown is the entry of the first failing answer.
* `Breakdown.overflowed_eq_false` — a breakdown with a failed entry has not overflowed.
* `score_of_failure` — what one failing answer does to the score of its session.

The aborting pass stops in two places, at an answer and after the total; that no failed entry leaves
an aggregate keeps the two apart.
-/

namespace Scoresheet

/-- Whether the answer of the entry failed. -/
def Entry.hasFailed (entry : Entry) : Bool :=
  entry.outcome.value?.isNone

/-- **An entry tells of an answer:** it has the answer's key, question and formula, and its outcome
is what the evaluation of the answer came to, a value or the class and wording of an error. -/
structure Entry.TellsOf (entry : Entry) (answer : Answer) : Prop where
  key_eq : entry.key = answer.key
  question_eq : entry.question = answer.possibleAnswer.question.name
  formula_eq : entry.formula = answer.formula
  scored_iff : ∀ value, entry.outcome = .scored value ↔ answer.evaluate = .ok value
  failed_iff : ∀ kind message, entry.outcome = .failed kind message ↔
    ∃ cause, answer.evaluate = .error cause ∧ cause.kind = kind ∧ cause.message = message

theorem Answer.tellsOf_entry (answer : Answer) : answer.entry.TellsOf answer where
  key_eq := rfl
  question_eq := rfl
  formula_eq := rfl
  scored_iff value := by
    unfold entry
    cases answer.evaluate <;> simp [Outcome.ofResult]
  failed_iff kind message := by
    unfold entry
    cases answer.evaluate <;> simp [Outcome.ofResult]

/-- The entries of answers tell of them, one by one. -/
theorem forall₂_tellsOf (answers : List Answer) :
    List.Forall₂ Entry.TellsOf (answers.map Answer.entry) answers :=
  List.forall₂_map_left_iff.2 (List.forall₂_same.2 fun answer _ => answer.tellsOf_entry)

/-- The key of an answer and the error of its formula, if it fails. -/
def Answer.failure? (answer : Answer) : Option (AnswerKey × Formula.Error) :=
  match answer.evaluate with
  | .ok _ => none
  | .error cause => some (answer.key, cause)

theorem Answer.hasFailed_entry (answer : Answer) :
    answer.entry.hasFailed = answer.failure?.isSome := by
  unfold entry Entry.hasFailed failure?
  cases answer.evaluate <;> rfl

theorem Answer.failure?_eq_some_iff {answer : Answer} {key : AnswerKey} {cause : Formula.Error} :
    answer.failure? = some (key, cause) ↔ answer.key = key ∧ answer.evaluate = .error cause := by
  unfold failure?
  cases answer.evaluate <;> simp

theorem Answer.failure?_eq_none_iff {answer : Answer} :
    answer.failure? = none ↔ ∃ value, answer.evaluate = .ok value := by
  unfold failure?
  cases answer.evaluate <;> simp

/-- The entry of a failing answer has the answer's key, and the class and wording of the error. -/
theorem Answer.entry_of_failure? {answer : Answer} {key : AnswerKey} {cause : Formula.Error}
    (h : answer.failure? = some (key, cause)) :
    answer.entry.key = key ∧ answer.entry.outcome = .failed cause.kind cause.message := by
  obtain ⟨hkey, hvalue⟩ := failure?_eq_some_iff.1 h
  exact ⟨hkey, (answer.tellsOf_entry.failed_iff _ _).2 ⟨cause, hvalue, rfl, rfl⟩⟩

/-! ### The first failure -/

/-- **The aborting pass over the answers** is told by the first failure among them. -/
theorem entriesOrAbort_eq (answers : List Answer) :
    entriesOrAbort answers
      = match answers.findSome? Answer.failure? with
        | some (key, cause) => .error (.answer key cause)
        | none => .ok (answers.map Answer.entry) := by
  -- By induction on the answers up to the first that fails.
  induction answers with
  | nil => rfl
  | cons answer rest ih =>
    rw [entriesOrAbort, List.findSome?_cons]
    cases hfailure : answer.failure? with
    | some failure =>
      obtain ⟨key, cause⟩ := failure
      obtain ⟨hkey, hvalue⟩ := Answer.failure?_eq_some_iff.1 hfailure
      rw [hvalue, hkey]
    | none =>
      -- The answer has a value, and the pass goes on behind it.
      obtain ⟨value, hvalue⟩ := Answer.failure?_eq_none_iff.1 hfailure
      rw [hvalue, ih]
      dsimp only
      cases rest.findSome? Answer.failure? with
      | some failure => rfl
      | none => rfl

/-- The first failed entry is that of the first failing answer. -/
theorem find?_entry {answers : List Answer} {key : AnswerKey} {cause : Formula.Error}
    (h : answers.findSome? Answer.failure? = some (key, cause)) :
    ∃ entry, (answers.map Answer.entry).find? Entry.hasFailed = some entry ∧
      entry.key = key ∧ entry.outcome = .failed cause.kind cause.message := by
  -- By induction on the answers: an entry has failed if and only if its answer has.
  induction answers with
  | nil => cases h
  | cons answer rest ih =>
    rw [List.findSome?_cons] at h
    rw [List.map_cons, List.find?_cons, answer.hasFailed_entry]
    cases hfailure : answer.failure? with
    | some failure =>
      rw [hfailure] at h
      obtain rfl := Option.some.inj h
      exact ⟨answer.entry, rfl, Answer.entry_of_failure? hfailure⟩
    | none =>
      rw [hfailure] at h
      exact ih h

/-- An answer fails just in case there is a failed entry. -/
theorem failedCount_entries_eq_zero {answers : List Answer} :
    failedCount (answers.map Answer.entry) = 0 ↔ answers.findSome? Answer.failure? = none := by
  have hcount : failedCount (answers.map Answer.entry)
      = (answers.map Answer.entry).countP Entry.hasFailed := rfl
  rw [hcount, List.countP_eq_zero, List.findSome?_eq_none_iff, List.forall_mem_map]
  refine forall₂_congr fun answer _ => ?_
  rw [answer.hasFailed_entry]
  simp

/-- A failed entry leaves no aggregate that could overflow. -/
theorem Breakdown.overflowed_eq_false {id : Int64} {respondent : Respondent}
    {aggregation : Aggregation} {entries : List Entry} (h : failedCount entries ≠ 0) :
    (fold id respondent aggregation entries).overflowed = false := by
  unfold fold
  simp [h]

/-! ### The policies side by side -/

/-- The breakdown of a session whose failures are recorded. -/
def recorded (aggregation : Aggregation) (session : Session) : Breakdown :=
  .fold session.id session.respondent aggregation (session.answers.map Answer.entry)

theorem score_record (aggregation : Aggregation) (session : Session) :
    score ⟨.record, aggregation⟩ session = .ok (recorded aggregation session) := rfl

/-- **Aborting, told by the recorded breakdown:** the first failure, then the overflow, then the
breakdown itself. -/
theorem score_abort (aggregation : Aggregation) (session : Session) :
    score ⟨.abort, aggregation⟩ session
      = match session.answers.findSome? Answer.failure? with
        | some (key, cause) => .error (.answer key cause)
        | none =>
          if (recorded aggregation session).overflowed then
            .error (.total session.id (.nonFinite aggregation.name))
          else .ok (recorded aggregation session) := by
  unfold score
  rw [entriesOrAbort_eq]
  -- The first answer that fails decides, and without one the total may still overflow.
  cases session.answers.findSome? Answer.failure? with
  | some failure => rfl
  | none =>
    change (if (recorded aggregation session).overflowed then _ else _ : Except _ _) = _
    cases (recorded aggregation session).overflowed <;> rfl

theorem failed_recorded (aggregation : Aggregation) (session : Session) :
    (recorded aggregation session).failed = failedCount (session.answers.map Answer.entry) := rfl

/-- **One failing answer** leaves no score where failures abort, and no total where they are
recorded. -/
theorem score_of_failure {session : Session} {answer : Answer} {cause : Formula.Error}
    (hmem : answer ∈ session.answers) (hcause : answer.evaluate = .error cause)
    (aggregation : Aggregation) :
    (∃ error, score ⟨.abort, aggregation⟩ session = .error error) ∧
      (recorded aggregation session).total = none := by
  have hfailure : answer.failure? = some (answer.key, cause) :=
    Answer.failure?_eq_some_iff.2 ⟨rfl, hcause⟩
  -- If this answer is not the first to fail, then another one before it is.
  have hfirst : session.answers.findSome? Answer.failure? ≠ none := by
    intro hnone
    have hanswer := List.findSome?_eq_none_iff.1 hnone answer hmem
    rw [hfailure] at hanswer
    cases hanswer
  constructor
  · obtain ⟨⟨key, first⟩, hsome⟩ := Option.ne_none_iff_exists'.1 hfirst
    rw [score_abort, hsome]
    exact ⟨.answer key first, rfl⟩
  -- An entry has failed, so that there is no aggregate.
  · have hfailed : failedCount (session.answers.map Answer.entry) ≠ 0 :=
      mt failedCount_entries_eq_zero.1 hfirst
    unfold recorded Breakdown.fold
    simp [hfailed]

/-- Under either policy a session has no other breakdown than the recorded one. -/
theorem eq_recorded_of_score {settings : ScoringSettings} {session : Session}
    {breakdown : Breakdown} (h : score settings session = .ok breakdown) :
    breakdown = recorded settings.aggregation session := by
  obtain ⟨policy, aggregation⟩ := settings
  cases policy with
  | record => exact (Except.ok.inj h).symm
  -- Where aborting gives a breakdown, nothing has failed and nothing has overflowed.
  | abort =>
    rw [score_abort] at h
    split at h
    · cases h
    · split at h
      · cases h
      · exact (Except.ok.inj h).symm

/-- **What aborting makes of a session can be read off its recorded breakdown.** The breakdown has
one entry for each answer, in order, which tells of that answer and depends on no other. Aborting
fails at an answer if the breakdown has a failed entry, and then for the first of these; it fails at
the total if the breakdown has overflowed; and otherwise it gives the breakdown. -/
theorem score_abort_iff_record (aggregation : Aggregation) (session : Session) :
    ∃ breakdown, score ⟨.record, aggregation⟩ session = .ok breakdown ∧
      breakdown.entries = session.answers.map Answer.entry ∧
      List.Forall₂ Entry.TellsOf breakdown.entries session.answers ∧
      breakdown.entries.length = session.answers.length ∧
      (∀ (aggregation' : Aggregation) (session' : Session) (breakdown' : Breakdown) (i : Nat),
        score ⟨.record, aggregation'⟩ session' = .ok breakdown' →
          session'.answers[i]? = session.answers[i]? →
            breakdown'.entries[i]? = breakdown.entries[i]?) ∧
      ((∃ key cause, score ⟨.abort, aggregation⟩ session = .error (.answer key cause)) ↔
        0 < breakdown.failed) ∧
      (∀ key cause, score ⟨.abort, aggregation⟩ session = .error (.answer key cause) →
        ∃ entry, breakdown.entries.find? Entry.hasFailed = some entry ∧
          entry.key = key ∧ entry.outcome = .failed cause.kind cause.message) ∧
      (score ⟨.abort, aggregation⟩ session
          = .error (.total session.id (.nonFinite aggregation.name)) ↔
        breakdown.overflowed = true) ∧
      (breakdown.failed = 0 → breakdown.overflowed = false →
        score ⟨.abort, aggregation⟩ session = .ok breakdown) := by
  refine ⟨recorded aggregation session, score_record aggregation session, rfl,
    forall₂_tellsOf session.answers, List.length_map .., ?_, ?_⟩
  · intro aggregation' session' breakdown' i hscore hanswers
    obtain rfl := Except.ok.inj hscore
    show (session'.answers.map Answer.entry)[i]? = (session.answers.map Answer.entry)[i]?
    rw [List.getElem?_map, List.getElem?_map, hanswers]
  · rw [score_abort]
    cases hfirst : session.answers.findSome? Answer.failure? with
    | some failure =>
      -- An answer fails, so the total is never looked at and could not have overflowed.
      obtain ⟨key, cause⟩ := failure
      have hfailed : (recorded aggregation session).failed ≠ 0 := by
        intro hzero
        rw [failed_recorded, failedCount_entries_eq_zero, hfirst] at hzero
        cases hzero
      have hoverflowed : (recorded aggregation session).overflowed = false :=
        Breakdown.overflowed_eq_false hfailed
      refine ⟨⟨fun _ => Nat.pos_of_ne_zero hfailed, fun _ => ⟨key, cause, rfl⟩⟩, ?_, ?_, ?_⟩
      · intro key' cause' herror
        obtain ⟨rfl, rfl⟩ : key = key' ∧ cause = cause' := by simpa using herror
        exact find?_entry hfirst
      · simp [hoverflowed]
      · exact fun hzero => absurd hzero hfailed
    | none =>
      -- No answer fails, and the two policies can only differ at the total.
      have hfailed : (recorded aggregation session).failed = 0 := by
        rw [failed_recorded, failedCount_entries_eq_zero, hfirst]
      cases hoverflowed : (recorded aggregation session).overflowed with
      | true => simp [hfailed]
      | false => simp [hfailed]

end Scoresheet
