import Scoresheet.Command.Run
import Scoresheet.Proofs.Command.Preparing
import Scoresheet.Proofs.Timestamp

/-!
# What a scoring run writes

A run that is hindered leaves everything as it was. One that is not hindered writes the files that
are asked for, one for each format and one if the report is to be signed, under the time of the run
into the output directory, and no other file. Between the two there is only one way to fail: the
output directory is not made, or a file not written.

* `ReportFile` — the files that a run may write.
* `Job.writeAll_run` — files written one after the other.
* `Job.perform_run` — a job done.
* `Job.ReportsWritten`, `OutputFault` — the two ways in which a run ends that is not hindered.
* `Command.score_writes_asked` — what a run leaves behind.

Files are told by their content and their place in the file system before the run and after it. That
the places differ is not assumed: the names of the files differ in their endings.
-/

namespace Scoresheet

open FileSystem (WrittenInTurn WroteAll)

/-! ### The files of a run -/

/-- A file that a run may write. -/
inductive ReportFile where
  | json
  | html
  | signed
deriving DecidableEq

namespace ReportFile

/-- What the names of files end with. -/
def ending : ReportFile → String
  | json => ".json"
  | html => ".html"
  | signed => ".signed.json"

/-- The name of a file, with the time in it. -/
def name (now : Timestamp) (file : ReportFile) : String :=
  "report-" ++ Job.stamp now ++ file.ending

/-- Whether a file is asked for: by the list of formats, or by asking for a signature. -/
def AskedBy (o : ScoreOptions) : ReportFile → Prop
  | json => ReportFormat.AskedBy o.format .json
  | html => ReportFormat.AskedBy o.format .html
  | signed => o.sign = true

/-- The file of a format. -/
def ofFormat : ReportFormat → ReportFile
  | .json => json
  | .html => html

/-- Formats have files of their own. -/
theorem ofFormat_injective : Function.Injective ofFormat := by
  intro format format' same
  cases format <;> cases format' <;> first | rfl | cases same

/-- The names of the files differ in their endings. -/
theorem name_injective (now : Timestamp) : Function.Injective (name now) := by
  intro file file' same
  have endings : file.ending = file'.ending := by
    simpa [name, ← String.toList_inj] using same
  cases file <;> cases file' <;> first | rfl | exact absurd endings (by decide)

/-- A time in a name holds no slash. -/
theorem slash_notMem_stamp (now : Timestamp) : '/' ∉ (Job.stamp now).toList := by
  have number (width n : ℕ) : '/' ∉ Timestamp.padded width n := fun mem =>
    absurd (Timestamp.isDigit_of_mem_padded width n mem) (by decide)
  have year : '/' ∉ Timestamp.yearText now.date.year := by
    unfold Timestamp.yearText
    split
    · exact number 4 _
    · split <;> simp [number]
  simp [Job.stamp, Timestamp.dateChars, year, number]

/-- The name of a file is a single step of a path. -/
theorem isStep (now : Timestamp) (file : ReportFile) : Path.IsStep (file.name now) := by
  have ending : '/' ∉ file.ending.toList := by
    cases file <;> simp [ReportFile.ending]
  exact ⟨by simp [name], by simp [name, slash_notMem_stamp, ending]⟩

end ReportFile

namespace Job

/-- The report of a job that is done in a world. -/
def reportIn (job : Job) (world : World) : Report :=
  (Batch.run job.scoring job.sessions).report job.scoring world.nextId world.now 0

/-- What a file of a report holds. There is a signed one if there is a key. -/
def contentOf? (job : Job) (report : Report) : ReportFile → Option String
  | .json => some report.toJson.pretty
  | .html => some report.html
  | .signed => job.key.map fun key => (Signing.sign key report.toJson).toJson.pretty

/-- The bytes of a file of a report. -/
def bytesOf (job : Job) (report : Report) (file : ReportFile) : ByteArray :=
  ((job.contentOf? report file).getD "").toUTF8

/-- The files of a report, in the order in which they are written. -/
def files (job : Job) : List ReportFile :=
  job.formats.map .ofFormat ++ (job.key.map fun _ => .signed).toList

/-- What is written is a file of a report. -/
structure ArtifactOf (job : Job) (report : Report) (now : Timestamp) (file : ReportFile)
    (a : Artifact) : Prop where
  path : a.path = job.output.join ⟨file.name now⟩
  content : job.contentOf? report file = some a.content

/-- What is written are the files of the report. -/
theorem forall₂_artifacts (job : Job) (report : Report) (now : Timestamp) :
    List.Forall₂ (job.ArtifactOf report now) job.files (job.artifacts report now) := by
  -- The files are those of the formats and, if there is a key, the signed one.
  refine List.rel_append ?_ ?_
  · rw [List.forall₂_map_left_iff, List.forall₂_map_right_iff, List.forall₂_same]
    intro format _
    cases format <;>
      constructor <;>
        simp only [artifact, reportPath, contentOf?, ReportFile.ofFormat, ReportFile.name,
          ReportFile.ending]
  · cases found : job.key with
    | none => exact .nil
    | some key =>
      refine .cons ⟨?_, ?_⟩ .nil <;>
        simp only [signedArtifact, reportPath, contentOf?, ReportFile.name, ReportFile.ending,
          found, Option.map_some]

/-! ### Writing -/

section Writing

variable {job : Job} {report : Report} {now : Timestamp} {files : List ReportFile}
  {fs fs' : FileSystem} {failure? : Option Failure}

/-- **How writing comes out:** all files are written, or one cannot be, after those before it. -/
inductive Writes (job : Job) (report : Report) (now : Timestamp) (fs : FileSystem)
    (files : List ReportFile) : Option Failure → FileSystem → Prop
  | all {fs' : FileSystem} :
    WrittenInTurn job.output (ReportFile.name now) (job.bytesOf report) fs files fs' →
      Writes job report now fs files none fs'
  | upTo {done rest : List ReportFile} {file : ReportFile} {fs' : FileSystem} {fault : FileFault}
    (description : String) :
    files = done ++ file :: rest →
      WrittenInTurn job.output (ReportFile.name now) (job.bytesOf report) fs done fs' →
      fs'.write (job.output.join ⟨file.name now⟩) (job.bytesOf report file) = .error fault →
      Writes job report now fs files
        (some (.notWritten description (job.output.join ⟨file.name now⟩) fault)) fs'

/-- A file written comes before the others. -/
theorem Writes.cons {file : ReportFile} {first : FileSystem}
    (wrote : fs.write (job.output.join ⟨file.name now⟩) (job.bytesOf report file) = .ok first)
    (h : Writes job report now first files failure? fs') :
    Writes job report now fs (file :: files) failure? fs' := by
  cases h with
  | all written => exact .all (.cons wrote written)
  | upTo description split written fault =>
    subst split
    exact .upTo description (List.cons_append ..).symm (.cons wrote written) fault

/-- **Files are written one after the other** until one cannot be. -/
theorem writeAll_run {artifacts : List Artifact}
    (h : List.Forall₂ (job.ArtifactOf report now) files artifacts) (world : World) :
    ∃ told failure? fs,
      (writeAll artifacts : ExceptT Failure (StateM World) _) world =
        (.ok (told, failure?), { world with files := fs }) ∧
      Writes job report now world.files files failure? fs := by
  -- By induction on the artifacts, up to the first that cannot be written.
  induction h generalizing world with
  | nil => exact ⟨[], none, world.files, rfl, .all .nil⟩
  | @cons file a files artifacts isFile _ ih =>
    -- What is written to the file is the artifact's content.
    have bytes : job.bytesOf report file = a.content.toUTF8 := by
      rw [bytesOf, isFile.content, Option.getD_some]
    rw [writeAll]
    cases wrote : world.files.write a.path a.content.toUTF8 with
    | error fault =>
      refine ⟨[], some (.notWritten a.description a.path fault), world.files, ?_, ?_⟩
      · refine (run_lift_bind (World.write a.path a.content.toUTF8) _ world).trans ?_
        rw [World.write, wrote]
        rfl
      · rw [isFile.path] at wrote ⊢
        rw [← bytes] at wrote
        have isFirst : file :: files = [] ++ file :: files := rfl
        exact .upTo a.description isFirst .nil wrote
    -- The file is written, and the others are written into what it leaves.
    | ok first =>
      obtain ⟨told, failure?, fs, run, writes⟩ := ih { world with files := first }
      refine ⟨(a.label ++ a.path.text) :: told, failure?, fs, ?_, ?_⟩
      · refine (run_lift_bind (World.write a.path a.content.toUTF8) _ world).trans ?_
        rw [World.write, wrote]
        refine (run_bind _ _ _).trans ?_
        rw [run]
        rfl
      · rw [isFile.path, ← bytes] at wrote
        exact .cons wrote writes

/-- A file that has changed is one of those that were to be written, however far writing came. -/
theorem Writes.exists_of_changed (h : Writes job report now fs files failure? fs')
    {other : List String} (changed : fs'.file? other ≠ fs.file? other) :
    ∃ place, fs'.walk (fs'.start job.output) job.output.steps = .ok place ∧
      ∃ file ∈ files, other = place ++ [file.name now] := by
  have isStep := ReportFile.isStep now
  have distinct := ReportFile.name_injective now
  -- Where writing stops, the files before the failing one are written.
  cases h with
  | all written => exact written.exists_of_changed isStep distinct changed
  | upTo _ split written _ =>
    obtain ⟨place, walked, file, mem, same⟩ :=
      written.exists_of_changed isStep distinct changed
    exact ⟨place, walked, file, split ▸ List.mem_append_left _ mem, same⟩

end Writing

/-! ### A job done -/

/-- The output directory made in a world, with those that lead to it. -/
def madeIn (job : Job) (world : World) : Except FileFault Unit × World :=
  (Host.makeDirectories job.output : StateM World (Except FileFault Unit)) world

/-- Making the output directory changes no file. -/
theorem keepsFiles_madeIn (job : Job) (world : World) : world.KeepsFiles (job.madeIn world).2 :=
  Host.keepsFiles_makeDirectories job.output world

/-- What is told of a job before its files are written. -/
def toldIn (job : Job) (world : World) : Transcript where
  output := summaryLines (job.reportIn world)
  messages :=
    let outcome := Batch.run job.scoring job.sessions
    job.opening ++ outcome.progress.map progressLine ++ closing outcome 0

/-- Once the sessions are scored the output directory is made and the files are written. -/
theorem perform_eq (job : Job) (world : World) :
    (job.perform : ExceptT Failure (StateM World) Transcript) world =
      (do
        match ← Host.makeDirectories job.output with
        | .error fault => return (job.toldIn world).fail (.directoryNotMade job.output fault)
        | .ok () =>
          let now ← Host.now
          let (told, failure?) ← writeAll (job.artifacts (job.reportIn world) now)
          let t := { job.toldIn world with messages := (job.toldIn world).messages ++ told }
          return failure?.elim t t.fail : ExceptT Failure (StateM World) Transcript) world := by
  refine (run_lift_bind Host.milliseconds _ world).trans ?_
  refine (run_lift_bind Host.freshId _ world).trans ?_
  refine (run_lift_bind Host.now _ world).trans ?_
  refine (run_lift_bind Host.milliseconds _ world).trans ?_
  -- The clock stands still.
  rfl

/-- **A job fails or is done.** It fails if the output directory is not made or a file not written,
and only after its sessions have been scored. -/
theorem perform_run (job : Job) (world : World) :
    (∃ (t : Transcript) (fault : FileFault) (after : World),
        job.madeIn world = (.error fault, after) ∧
        (job.perform : ExceptT Failure (StateM World) Transcript) world =
          (.ok (t.fail (.directoryNotMade job.output fault)), after)) ∨
      ∃ (t : Transcript) (made : World) (failure? : Option Failure) (fs : FileSystem),
        t.exitCode = 0 ∧ job.madeIn world = (.ok (), made) ∧
        Writes job (job.reportIn world) world.now made.files job.files failure? fs ∧
        (job.perform : ExceptT Failure (StateM World) Transcript) world =
          (.ok (failure?.elim t t.fail), { made with files := fs }) := by
  have run := job.perform_eq world
  rw [Host.makeDirectories_lift, run_lift_bind] at run
  have kept : world.KeepsFiles (job.madeIn world).2 := job.keepsFiles_madeIn world
  cases result : job.madeIn world with
  | mk r made =>
    rw [madeIn] at result
    rw [result] at run
    rw [madeIn, result] at kept
    cases r with
    | error fault => exact .inl ⟨job.toldIn world, fault, made, rfl, run⟩
    | ok =>
      obtain ⟨told, failure?, fs, wrote, writes⟩ :=
        writeAll_run (job.forall₂_artifacts (job.reportIn world) made.now) made
      refine .inr ⟨{ job.toldIn world with messages := (job.toldIn world).messages ++ told }, made,
        failure?, fs, rfl, rfl, kept.now ▸ writes, ?_⟩
      -- The time is taken, and then the files are written.
      refine run.trans ((run_lift_bind Host.now _ made).trans ?_)
      refine (run_bind (writeAll (job.artifacts (job.reportIn world) made.now)) _ made).trans ?_
      rw [wrote]
      rfl

/-! ### What was written -/

variable {o : ScoreOptions} {world after : World} {s : Settings} {job : Job}

/-- A job has the file of a format if it has the format. -/
theorem ofFormat_mem_files_iff (job : Job) (format : ReportFormat) :
    ReportFile.ofFormat format ∈ job.files ↔ format ∈ job.formats := by
  rw [files, List.mem_append, List.mem_map_of_injective ReportFile.ofFormat_injective]
  refine or_iff_left ?_
  cases format <;> cases job.key <;> simp [ReportFile.ofFormat]

/-- A job has a signed file if it has a key. -/
theorem signed_mem_files_iff (job : Job) : .signed ∈ job.files ↔ job.key.isSome := by
  have unsigned : ∀ format, ReportFile.ofFormat format ≠ .signed := by
    rintro (_ | _) <;> exact nofun
  cases key : job.key <;> simp [files, key, unsigned]

/-- The files of a job are those that are asked for. -/
theorem PreparedFor.mem_files_iff (h : job.PreparedFor o world s) (file : ReportFile) :
    file ∈ job.files ↔ file.AskedBy o := by
  cases file with
  | json => exact (job.ofFormat_mem_files_iff .json).trans (h.formats .json)
  | html => exact (job.ofFormat_mem_files_iff .html).trans (h.formats .html)
  | signed =>
    rw [signed_mem_files_iff, ReportFile.AskedBy]
    -- The signed report is written where a key was found, which is where signing is asked for.
    cases sign : o.sign with
    | true =>
      obtain ⟨key, -, hasKey⟩ := h.signed sign
      simp [hasKey]
    | false => simp [h.unsigned sign]

/-- A file that is asked for has a content. -/
theorem PreparedFor.exists_content (h : job.PreparedFor o world s) (report : Report)
    {file : ReportFile} (asked : file.AskedBy o) :
    ∃ content, job.contentOf? report file = some content ∧
      job.bytesOf report file = content.toUTF8 := by
  obtain ⟨content, found⟩ : ∃ content, job.contentOf? report file = some content := by
    -- Only the signed report needs more than the report itself.
    cases file with
    | json => exact ⟨_, rfl⟩
    | html => exact ⟨_, rfl⟩
    | signed =>
      obtain ⟨key, -, hasKey⟩ := h.signed asked
      exact ⟨_, by rw [contentOf?, hasKey]; rfl⟩
  exact ⟨content, found, by rw [bytesOf, found, Option.getD_some]⟩

/-- **The files that are asked for were written,** to the output directory and under the time of the
run, and no others. -/
structure ReportsWritten (o : ScoreOptions) (world : World) (job : Job) (place : List String)
    (after : World) : Prop where
  directory : after.files.walk (after.files.start job.output) job.output.steps = .ok place
  asked : ∀ file : ReportFile, file.AskedBy o →
    ∃ content, job.contentOf? (job.reportIn world) file = some content ∧
      after.files.file? (place ++ [file.name world.now]) = some content.toUTF8
  unasked : ∀ file : ReportFile, ¬ file.AskedBy o →
    after.files.file? (place ++ [file.name world.now]) =
      world.files.file? (place ++ [file.name world.now])
  others : ∀ other, (∀ file : ReportFile, other ≠ place ++ [file.name world.now]) →
    after.files.file? other = world.files.file? other

end Job

/-- **The output failed:** the output directory was not made, or a file that is asked for not
written. -/
inductive OutputFault (o : ScoreOptions) (world : World) : Transcript → World → Prop
  | directory {s : Settings} {job : Job} {t : Transcript} {fault : FileFault} {after : World} :
    job.PreparedFor o world s → job.madeIn world = (.error fault, after) →
      OutputFault o world (t.fail (.directoryNotMade job.output fault)) after
  | file {s : Settings} {job : Job} {t : Transcript} {file : ReportFile} {content : String}
    {description : String} {fault : FileFault} {after : World} :
    job.PreparedFor o world s → file.AskedBy o →
      job.contentOf? (job.reportIn world) file = some content →
      after.files.write (job.output.join ⟨file.name world.now⟩) content.toUTF8 = .error fault →
      OutputFault o world
        (t.fail (.notWritten description (job.output.join ⟨file.name world.now⟩) fault)) after

namespace Job

/-- What is written in full is what is asked for. -/
theorem reportsWritten_of_writes {made : World} {fs : FileSystem} (h : job.PreparedFor o world s)
    (kept : world.KeepsFiles made)
    (writes : Writes job (job.reportIn world) world.now made.files job.files none fs) :
    ∃ place, job.ReportsWritten o world place { made with files := fs } := by
  cases writes with
  -- All was written, so that every file asked for is there under its own name.
  | all written =>
    have some : job.files ≠ [] := by
      obtain ⟨format, mem⟩ := List.exists_mem_of_ne_nil _ h.someFormat
      exact List.ne_nil_of_mem ((job.ofFormat_mem_files_iff format).2 mem)
    have isStep := ReportFile.isStep world.now
    -- The files have names that differ, so that none is written over another.
    have distinct := ReportFile.name_injective world.now
    obtain ⟨place, walked⟩ := written.exists_walk isStep some
    have wrote : WroteAll (ReportFile.name world.now) (job.bytesOf (job.reportIn world)) made.files
        place job.files fs := written.wroteAll isStep distinct walked
    refine ⟨place, wrote.grows.walk_start walked, ?asked, ?unasked, ?others⟩
    case asked =>
      intro file asked
      obtain ⟨content, found, bytes⟩ := h.exists_content (job.reportIn world) asked
      exact ⟨content, found, bytes ▸ wrote.files file ((h.mem_files_iff file).2 asked)⟩
    case unasked =>
      intro file unasked
      refine (wrote.others _ fun file' mem same => unasked ?_).trans (kept.files _)
      have sameName : file.name world.now = file'.name world.now := by simpa using same
      exact distinct sameName ▸ (h.mem_files_iff file').1 mem
    case others =>
      intro other elsewhere
      exact (wrote.others other fun file _ => elsewhere file).trans (kept.files other)

/-- What is not written in full has a fault that is told. -/
theorem outputFault_of_writes {made : World} {fs : FileSystem} {failure : Failure}
    (h : job.PreparedFor o world s) (t : Transcript)
    (writes : Writes job (job.reportIn world) world.now made.files job.files (some failure) fs) :
    OutputFault o world (t.fail failure) { made with files := fs } := by
  cases writes with
  | @upTo done rest file _ fault description split _ failed =>
    have asked : file.AskedBy o := (h.mem_files_iff file).1 (by simp [split])
    obtain ⟨content, found, bytes⟩ := h.exists_content (job.reportIn world) asked
    exact .file h asked found (bytes ▸ failed)

end Job

namespace Command

/-- Where nothing is prepared nothing is done. -/
theorem scoring_of_error {failure : Failure} (h : world.prepared o = .error failure) :
    (scoring o : ExceptT Failure (StateM World) Transcript) world = (.error failure, world) := by
  refine (run_bind (Job.prepare o) Job.perform world).trans ?_
  rw [Job.prepare_run, h]

/-- What is prepared is done. -/
theorem scoring_of_ok (h : world.prepared o = .ok job) :
    (scoring o : ExceptT Failure (StateM World) Transcript) world =
      (job.perform : ExceptT Failure (StateM World) Transcript) world := by
  refine (run_bind (Job.prepare o) Job.perform world).trans ?_
  rw [Job.prepare_run, h]

/-- A run tells what comes of scoring. -/
theorem run_score {r : Except Failure Transcript}
    (h : (scoring o : ExceptT Failure (StateM World) Transcript) world = (r, after)) :
    (run (.score o) : StateM World Transcript) world = (.ofResult r, after) :=
  congrArg (Prod.map Transcript.ofResult id) h

/-- **A run writes what is asked for, or nothing.** If there is a reason not to score, be it the
settings, the number of sessions scored at once, the key, a format anywhere in the list or the
sessions, the run fails for such a reason and leaves the world as it was. A run that fails has
failed in this way, or its output did. After one that succeeds the files that are asked for are in
the output directory with the contents of the report, while every other file, those of the report
that are not asked for among them, is as it was. And whichever way a run ends, a file that has
changed is one that is asked for. -/
theorem score_writes_asked (o : ScoreOptions) (world : World) :
    let result := (run (.score o) : StateM World Transcript) world
    ((∃ failure, Hindrance o world failure) →
      ∃ failure, Hindrance o world failure ∧ result = (({} : Transcript).fail failure, world)) ∧
    (result.1.exitCode ≠ 0 →
      (∃ failure, Hindrance o world failure ∧ result = (({} : Transcript).fail failure, world)) ∨
        OutputFault o world result.1 result.2) ∧
    (result.1.exitCode = 0 →
      ∃ (s : Settings) (job : Job) (place : List String), job.PreparedFor o world s ∧
        job.ReportsWritten o world place result.2) ∧
    (∀ other, result.2.files.file? other ≠ world.files.file? other →
      ∃ (s : Settings) (job : Job) (place : List String) (file : ReportFile),
        job.PreparedFor o world s ∧
        result.2.files.walk (result.2.files.start job.output) job.output.steps = .ok place ∧
        file.AskedBy o ∧ other = place ++ [file.name world.now]) := by
  intro result
  cases prepared : world.prepared o with
  | error failure =>
    have hindrance : Hindrance o world failure := Job.hindrance_of_prepared prepared
    have refused : result = (({} : Transcript).fail failure, world) :=
      run_score (scoring_of_error prepared)
    refine ⟨fun _ => ⟨failure, hindrance, refused⟩, fun _ => .inl ⟨failure, hindrance, refused⟩, ?_⟩
    rw [refused]
    exact ⟨nofun, fun other changed => absurd rfl changed⟩
  | ok job =>
    obtain ⟨⟨s, isPrepared⟩, unhindered⟩ := Job.preparedFor_of_prepared prepared
    refine ⟨fun ⟨failure, hindrance⟩ => absurd hindrance (unhindered failure), ?_⟩
    have kept : world.KeepsFiles (job.madeIn world).2 := job.keepsFiles_madeIn world
    obtain ⟨t, fault, after, notMade, run⟩ | ⟨t, made, failure?, fs, exit, isMade, writes, run⟩ :=
      job.perform_run world
    · have told : result = (t.fail (.directoryNotMade job.output fault), after) :=
        run_score ((scoring_of_ok prepared).trans run)
      rw [notMade] at kept
      rw [told]
      exact ⟨fun _ => .inr (.directory isPrepared notMade), nofun, fun other changed =>
        absurd (kept.files other) changed⟩
    · have told : result = (failure?.elim t t.fail, { made with files := fs }) :=
        run_score ((scoring_of_ok prepared).trans run)
      rw [isMade] at kept
      rw [told]
      refine ⟨?fails, ?succeeds, ?changes⟩
      case fails =>
        cases failure? with
        | some failure => exact fun _ => .inr (Job.outputFault_of_writes isPrepared t writes)
        | none => exact fun fails => absurd exit fails
      case succeeds =>
        cases failure? with
        | some failure => exact nofun
        | none =>
          intro _
          obtain ⟨place, written⟩ := Job.reportsWritten_of_writes isPrepared kept writes
          exact ⟨s, job, place, isPrepared, written⟩
      case changes =>
        intro other changed
        -- Making the directory changed no file, so that it was a write.
        rw [← kept.files other] at changed
        obtain ⟨place, walked, file, mem, same⟩ := writes.exists_of_changed changed
        exact ⟨s, job, place, file, isPrepared, walked, (isPrepared.mem_files_iff file).1 mem, same⟩

/-- One session without answers: its report is written twice under one name, as asked for. -/
example :
    let world : World := {
      files := ⟨.directory [("one.json", .file ("\x7b\"id\": 1, \"dateTime\": "
        ++ "\"2024-03-01T10:00:00Z\", \"iskid\": false, \"answers\": []\x7d").toUTF8)], []⟩
      environment := []
      now := .epoch
      nextId := .nil }
    let o : ScoreOptions := {
      sessions := ⟨"one.json"⟩
      output := some ⟨"out/"⟩
      format := "json , json"
      sign := false
      failurePolicy := none
      aggregation := none
      parallelism := none
      settings := none }
    let result := (run (.score o) : StateM World Transcript) world
    result.1.exitCode = 0 ∧ result.2.files.root.files.map Prod.fst =
      [["one.json"], ["out", "report-1970-01-01T000000.json"]] := by
  decide +kernel

end Command

end Scoresheet
