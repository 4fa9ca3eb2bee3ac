import Scoresheet.Command.Scoring
import Scoresheet.Proofs.Settings.Loading

/-!
# What hinders a scoring run

A run is hindered by any of six things: settings that cannot be loaded, no session to be scored at
once, no key where the report is to be signed, a format that is not known, sessions that cannot be
loaded, and no sessions. Each is told as a property of what is asked for and of the world, without
the order in which they are looked at. If there is a hindrance a run finds one, and if there is none
it finds a job; in either case nothing has changed.

* `Hindrance` — the reasons not to score.
* `Job.PreparedFor` — the job that is asked for.
* `Job.prepare_run` — preparing changes nothing.
* `Job.preparedFor_of_prepared`, `Job.hindrance_of_prepared` — what it comes to.
-/

namespace Scoresheet

/-- The settings that are loaded in a world, or why there are none. -/
def World.settings (world : World) (path? : Option Path) : Except Settings.LoadError Settings :=
  ((Settings.load path? : ExceptT Settings.LoadError (StateM World) Settings) world).1

/-- The sessions that are loaded in a world, or why there are none. -/
def World.sessions (world : World) (path : Path) : Except Session.LoadError (List Session) :=
  Session.ofFound path (world.files.look path)

/-- The words of a list with commas, and perhaps blanks, between them. -/
def listedWords (request : String) : List String :=
  (Text.fields ',' request.toList).map fun field => String.ofList (Text.trim field)

/-- **A reason not to score.** -/
inductive Hindrance (o : ScoreOptions) (world : World) : Failure → Prop
  /-- The settings cannot be read, or are invalid. A key whose references do not come to an end
  counts as invalid; a machine that looks for their end never gets to score either. -/
  | settings {error : Settings.LoadError} :
    world.settings o.settings = .error error → Hindrance o world (.settings error)
  /-- No session is to be scored at once. -/
  | parallelism : o.parallelism = some 0 → Hindrance o world .noParallelism
  /-- The report is to be signed, but the settings name no key that can be used. -/
  | key {s : Settings} {error : Signing.Error} :
    world.settings o.settings = .ok s → o.sign = true →
      Signing.Key.ofSetting s.signingKey = .error error → Hindrance o world (.signing error)
  /-- A format is not known, wherever in the list. -/
  | format {word : String} :
    o.format ≠ "all" → word ∈ listedWords o.format → word ≠ "json" → word ≠ "html" →
      Hindrance o world (.unknownFormat word)
  /-- The sessions cannot be loaded. -/
  | sessions {error : Session.LoadError} :
    world.sessions o.sessions = .error error → Hindrance o world (.sessions error)
  /-- There are no sessions. -/
  | noSessions : world.sessions o.sessions = .ok [] → Hindrance o world (.noSessions o.sessions)

/-! ### Formats -/

namespace ReportFormat

/-- The word that denotes a format. -/
def word : ReportFormat → String
  | json => "json"
  | html => "html"

theorem ofName?_eq_some_iff {name : String} {format : ReportFormat} :
    ofName? name = some format ↔ name = format.word := by
  constructor
  · intro h
    -- The two words are the only ones that name a format.
    unfold ofName? at h
    split at h
    · cases h; rfl
    · cases h; rfl
    · cases h
  · rintro rfl
    cases format <;> rfl

theorem ofName_eq_ok_iff {name : String} {format : ReportFormat} :
    ofName name = .ok format ↔ name = format.word := by
  rw [← ofName?_eq_some_iff, ofName]
  cases ofName? name <;> simp

theorem ofName_eq_error {name : String} {failure : Failure} (h : ofName name = .error failure) :
    failure = .unknownFormat name ∧ ∀ format : ReportFormat, name ≠ format.word := by
  -- A word that a format has would not be refused.
  have unknown : ∀ format : ReportFormat, name ≠ format.word := by
    intro format known
    rw [ofName_eq_ok_iff.2 known] at h
    cases h
  refine ⟨?_, unknown⟩
  unfold ofName at h
  split at h
  next => cases h
  next => exact (Except.error.inj h).symm

/-- Whether a list of formats asks for one. -/
def AskedBy (request : String) (format : ReportFormat) : Prop :=
  request = "all" ∨ format.word ∈ listedWords request

/-- A list other than the word for all formats is read word by word. -/
theorem ofRequest_of_ne {request : String} (h : request ≠ "all") :
    ofRequest request = (listedWords request).mapM ofName := by
  rw [ofRequest, if_neg h, listedWords, List.mapM_map]
  rfl

theorem listedWords_ne_nil (request : String) : listedWords request ≠ [] :=
  fun h => Text.fields_ne_nil ',' request.toList (List.map_eq_nil_iff.1 h)

theorem word_injective : Function.Injective word := by
  intro format format' same
  cases format <;> cases format' <;> first | rfl | exact absurd same (by decide)

/-- **The formats of a list** are those that it asks for. -/
theorem ofRequest_eq_ok {request : String} {formats : List ReportFormat}
    (h : ofRequest request = .ok formats) :
    (∀ format, format ∈ formats ↔ AskedBy request format) ∧ formats ≠ [] ∧
      (request ≠ "all" → ∀ word ∈ listedWords request, word = "json" ∨ word = "html") := by
  by_cases all : request = "all"
  · subst all
    obtain rfl : [json, html] = formats := Except.ok.inj h
    refine ⟨fun format => ?_, nofun, fun other => absurd rfl other⟩
    -- Both formats are asked for.
    cases format <;> simp [AskedBy]
  · rw [ofRequest_of_ne all, mapM_eq_ok_iff] at h
    have read : ∀ format ∈ formats, format.word ∈ listedWords request :=
      forall_mem_of_forall₂ h fun word mem format known => ofName_eq_ok_iff.1 known ▸ mem
    -- Every word that is listed is the word of a format, and the formats are all that is listed.
    have known : ∀ word ∈ listedWords request, ∃ format ∈ formats, word = format.word :=
      forall_mem_of_forall₂ h.flip fun format mem word known =>
        ⟨format, mem, ofName_eq_ok_iff.1 known⟩
    refine ⟨fun format => ⟨fun mem => .inr (read format mem), ?_⟩, ?_, fun _ word mem => ?_⟩
    · rintro (isAll | mem)
      · exact absurd isAll all
      · obtain ⟨format', mem', same⟩ := known _ mem
        exact word_injective same ▸ mem'
    -- A list of words has at least one.
    · obtain ⟨word, mem⟩ := List.exists_mem_of_ne_nil _ (listedWords_ne_nil request)
      obtain ⟨format, mem', -⟩ := known word mem
      exact List.ne_nil_of_mem mem'
    · obtain ⟨format, -, rfl⟩ := known word mem
      cases format
      · exact .inl rfl
      · exact .inr rfl

/-- A list is refused for a word that denotes no format. -/
theorem ofRequest_eq_error {request : String} {failure : Failure}
    (h : ofRequest request = .error failure) :
    request ≠ "all" ∧ ∃ word ∈ listedWords request, failure = .unknownFormat word ∧
      word ≠ "json" ∧ word ≠ "html" := by
  have other : request ≠ "all" := by
    rintro rfl
    cases h
  rw [ofRequest_of_ne other] at h
  obtain ⟨word, mem, refused⟩ := exists_of_mapM_eq_error h
  obtain ⟨said, unknown⟩ := ofName_eq_error refused
  exact ⟨other, word, mem, said, unknown json, unknown html⟩

end ReportFormat

/-! ### Preparing -/

/-- What preparing comes to in a world. -/
def World.prepared (world : World) (o : ScoreOptions) : Except Failure Job := do
  let loaded ← (world.settings o.settings).mapError Failure.settings
  let settings ← Job.override o loaded
  let key ← Job.key? o settings
  let formats ← ReportFormat.ofRequest o.format
  let sessions ← (world.sessions o.sessions).mapError Failure.sessions
  if sessions.isEmpty then throw (.noSessions o.sessions)
  return { scoring := settings.scoring, sessions, output := settings.outputDirectory, formats, key }

namespace Job

/-- **Preparing changes nothing,** whatever comes of it. -/
theorem prepare_run (o : ScoreOptions) (world : World) :
    (prepare o : ExceptT Failure (StateM World) Job) world = (world.prepared o, world) := by
  -- Loading the settings and the sessions only looks at the world.
  have load : (ExceptT.adapt Failure.settings (Settings.load o.settings) :
      ExceptT Failure (StateM World) Settings) world =
        ((world.settings o.settings).mapError Failure.settings, world) := by
    rw [run_adapt, (Settings.looks_load world o.settings).eq]
    rfl
  have look : (ExceptT.adapt Failure.sessions (Session.load o.sessions) :
      ExceptT Failure (StateM World) (List Session)) world =
        ((world.sessions o.sessions).mapError Failure.sessions, world) := by
    have found : (Session.load o.sessions : ExceptT Session.LoadError (StateM World) _) world =
        (world.sessions o.sessions, world) := run_ofExcept _ world
    rw [run_adapt, found]
  -- The stages one after the other, none of which changes the world.
  refine run_bind_eq load fun loaded => ?_
  refine run_bind_eq (run_ofExcept _ world) fun settings => ?_
  refine run_bind_eq (run_ofExcept _ world) fun key => ?_
  refine run_bind_eq (run_ofExcept _ world) fun formats => ?_
  refine run_bind_eq look fun sessions => ?_
  split <;> rfl

/-- **The job that is asked for,** with the settings of the world. -/
structure PreparedFor (o : ScoreOptions) (world : World) (s : Settings) (job : Job) : Prop where
  loaded : world.settings o.settings = .ok s
  output : job.output = o.output.getD s.outputDirectory
  failurePolicy : job.scoring.failurePolicy = o.failurePolicy.getD s.scoring.failurePolicy
  aggregation : job.scoring.aggregation = o.aggregation.getD s.scoring.aggregation
  signed : o.sign = true →
    ∃ key, Signing.Key.ofSetting s.signingKey = .ok key ∧ job.key = some key
  unsigned : o.sign = false → job.key = none
  formats : ∀ format, format ∈ job.formats ↔ ReportFormat.AskedBy o.format format
  someFormat : job.formats ≠ []
  sessions : world.sessions o.sessions = .ok job.sessions
  someSession : job.sessions ≠ []

variable {o : ScoreOptions} {world : World}

/-- The settings that a run has, with what is asked for in their place. -/
theorem of_override {s settings : Settings} (h : override o s = .ok settings) :
    o.parallelism ≠ some 0 ∧ settings.outputDirectory = o.output.getD s.outputDirectory ∧
      settings.scoring.failurePolicy = o.failurePolicy.getD s.scoring.failurePolicy ∧
      settings.scoring.aggregation = o.aggregation.getD s.scoring.aggregation ∧
      settings.signingKey = s.signingKey := by
  unfold override at h
  split at h
  next => cases h
  next some => cases h; exact ⟨some, rfl, rfl, rfl, rfl⟩

/-- A report is signed if that is asked for, with the key of the settings. -/
theorem key?_eq_ok_iff {s : Settings} {key? : Option Signing.Key} :
    Job.key? o s = .ok key? ↔
      (o.sign = true → ∃ key, Signing.Key.ofSetting s.signingKey = .ok key ∧ key? = some key) ∧
        (o.sign = false → key? = none) := by
  rw [Job.key?]
  -- The key is needed for signing only.
  cases o.sign with
  | true =>
    rw [if_pos rfl, Command.signingKey, map_eq_ok_iff]
    simp only [mapError_eq_ok_iff, forall_const, reduceCtorEq, false_implies, and_true]
    exact exists_congr fun key => and_congr_right fun _ => eq_comm
  | false => simp [eq_comm]

/-- A report that is to be signed is not, if the settings name no key that can be used. -/
theorem of_key?_eq_error {s : Settings} {failure : Failure} (h : Job.key? o s = .error failure) :
    o.sign = true ∧ ∃ e, Signing.Key.ofSetting s.signingKey = .error e ∧ .signing e = failure := by
  unfold Job.key? at h
  split at h
  next sign =>
    rw [map_eq_error_iff] at h
    exact ⟨sign, mapError_eq_error_iff.1 h⟩
  next => cases h

/-- **What is prepared is the job that is asked for,** and nothing hinders it. -/
theorem preparedFor_of_prepared {job : Job} (h : world.prepared o = .ok job) :
    (∃ s, job.PreparedFor o world s) ∧ ∀ failure, ¬ Hindrance o world failure := by
  -- All stages have succeeded, and each of them excludes its own hindrances.
  obtain ⟨s, loaded, h⟩ := bind_eq_ok_iff.1 h
  obtain ⟨settings, overridden, h⟩ := bind_eq_ok_iff.1 h
  obtain ⟨key, found, h⟩ := bind_eq_ok_iff.1 h
  obtain ⟨formats, listed, h⟩ := bind_eq_ok_iff.1 h
  obtain ⟨sessions, read, h⟩ := bind_eq_ok_iff.1 h
  obtain ⟨someSession, h⟩ := of_unless_throw h
  cases h
  rw [mapError_eq_ok_iff] at loaded read
  rw [key?_eq_ok_iff] at found
  obtain ⟨atLeastOne, output, failurePolicy, aggregation, sameKey⟩ := of_override overridden
  obtain ⟨asked, someFormat, known⟩ := ReportFormat.ofRequest_eq_ok listed
  rw [sameKey] at found
  refine ⟨⟨s, loaded, output, failurePolicy, aggregation, found.1, found.2, asked, someFormat, read,
    fun none => someSession (by simpa using none)⟩, ?_⟩
  rintro failure hindrance
  -- Each hindrance is the failure of a stage that has succeeded.
  cases hindrance with
  | settings failed => cases loaded.symm.trans failed
  | parallelism none => exact atLeastOne none
  | key loaded' sign unusable =>
    cases loaded.symm.trans loaded'
    obtain ⟨key, usable, -⟩ := found.1 sign
    cases usable.symm.trans unusable
  | format some mem notJson notHtml => exact (known some _ mem).elim notJson notHtml
  | sessions failed => cases read.symm.trans failed
  | noSessions none =>
    cases read.symm.trans none
    exact someSession rfl

/-- **If nothing is prepared there is a hindrance,** and it is told. -/
theorem hindrance_of_prepared {failure : Failure} (h : world.prepared o = .error failure) :
    Hindrance o world failure := by
  -- Stage by stage: what fails first is the hindrance that is told.
  obtain failed | ⟨s, loaded, h⟩ := bind_eq_error_iff.1 h
  · obtain ⟨e, cause, rfl⟩ := mapError_eq_error_iff.1 failed
    exact .settings cause
  rw [mapError_eq_ok_iff] at loaded
  obtain refused | ⟨settings, overridden, h⟩ := bind_eq_error_iff.1 h
  · unfold override at refused
    split at refused
    next none => cases refused; exact .parallelism none
    next => cases refused
  obtain unsigned | ⟨key, -, h⟩ := bind_eq_error_iff.1 h
  · obtain ⟨sign, e, unusable, rfl⟩ := of_key?_eq_error unsigned
    exact .key loaded sign ((of_override overridden).2.2.2.2 ▸ unusable)
  obtain unknown | ⟨formats, -, h⟩ := bind_eq_error_iff.1 h
  · obtain ⟨some, word, mem, rfl, notJson, notHtml⟩ := ReportFormat.ofRequest_eq_error unknown
    exact .format some mem notJson notHtml
  obtain failed | ⟨sessions, read, h⟩ := bind_eq_error_iff.1 h
  · obtain ⟨e, cause, rfl⟩ := mapError_eq_error_iff.1 failed
    exact .sessions cause
  rw [mapError_eq_ok_iff] at read
  cases sessions with
  | nil => cases h; exact .noSessions read
  | cons => cases h

end Job

end Scoresheet
