import Scoresheet.Proofs.Basic
import Scoresheet.Proofs.Text.Bytes
import Scoresheet.Session.Directory

/-!
# Directories of sessions

A directory is listed in whatever order the system likes, and files that are no session files lie
among the others. What a directory yields is told here without the sorting: its entries are put in
the order of their names, byte by byte, each yields its own sessions, and these follow one another.

* `SessionFormat.Names` — a name has the extension of a format; `Path.nameExtension?_eq_some_iff`
  tells the extensions of names.
* `FileTree.Holds`, `FileTree.Idle` — a file holds sessions, or it is passed over, for one of three
  reasons.
* `FileTree.DirectoryYields`, `FileTree.EntryYields` — what the entries of a directory yield, and
  what one of them does.
* `FileTree.WellNamed` — no directory has two entries of one name.
* `FileTree.Alike` — directories that differ in the order of their entries and in idle files only,
  at any depth.
* `Session.ofDirectory_yields` — the sessions of a directory are what it yields, they are there
  whatever the files hold, and they are the same in all directories alike.

`inNameOrder` sorts what the entries yield and not the entries, so its laws are about lists of named
parts: such a list may be permuted, and parts with nothing in them may be left out.
-/

namespace Scoresheet

/-! ### Names -/

/-- What follows the last dot of a name is its extension, if something stands before that dot. -/
theorem Path.nameExtension?_append {stem ext : String} (hstem : stem ≠ "")
    (hext : '.' ∉ ext.toList) : Path.nameExtension? (stem ++ "." ++ ext) = some ext := by
  -- The name is searched from its end, where the run without a dot is the extension.
  have hrev : (stem ++ "." ++ ext).toList.reverse
      = ext.toList.reverse ++ '.' :: stem.toList.reverse := by simp
  have hrun : ∀ c ∈ ext.toList.reverse, decide (c ≠ '.') = true := by
    intro c hc
    rw [List.mem_reverse] at hc
    simpa using ne_of_mem_of_not_mem hc hext
  have hstop : ∀ c ∈ ('.' :: stem.toList.reverse).head?, decide (c ≠ '.') = false := by simp
  unfold Path.nameExtension?
  rw [hrev, takeWhile_append_of_stop hrun hstop, dropWhile_append_of_stop hrun hstop]
  simp [hstem]

theorem Path.exists_stem_of_nameExtension? {name ext : String}
    (h : Path.nameExtension? name = some ext) :
    '.' ∉ ext.toList ∧ ∃ stem, stem ≠ "" ∧ name = stem ++ "." ++ ext := by
  dsimp only [Path.nameExtension?] at h
  split at h
  · cases h
  next hbefore =>
  obtain rfl := Option.some.inj h
  set after := name.toList.reverse.takeWhile (· ≠ '.') with hafter
  obtain ⟨c, before, hrest⟩ : ∃ c before,
      name.toList.reverse.dropWhile (· ≠ '.') = c :: before := by
    refine List.exists_cons_of_ne_nil fun hnil => hbefore ?_
    rw [hnil, List.drop_nil]
  rw [hrest, List.drop_one, List.tail_cons] at hbefore
  -- What stopped the search is a dot.
  have hdot : c = '.' := by
    have hstop := List.head?_dropWhile_not (· ≠ '.') name.toList.reverse
    rw [hrest] at hstop
    simpa using hstop
  have hname : name.toList.reverse = after ++ '.' :: before := by
    rw [← hdot, ← hrest, hafter, List.takeWhile_append_dropWhile]
  -- The extension has no dot left, and the rest of the name is not empty.
  refine ⟨fun hmem => ?_, String.ofList before.reverse, ?_, ?_⟩
  · rw [String.toList_ofList, List.mem_reverse] at hmem
    simpa using List.all_eq_true.1 List.all_takeWhile _ hmem
  · simpa [← String.toList_inj] using hbefore
  · rw [← String.toList_inj, ← List.reverse_inj, hname]
    simp

/-- **The extensions of names:** what follows the last dot, if something stands before it. -/
theorem Path.nameExtension?_eq_some_iff {name ext : String} :
    Path.nameExtension? name = some ext ↔
      '.' ∉ ext.toList ∧ ∃ stem, stem ≠ "" ∧ name = stem ++ "." ++ ext := by
  constructor
  · exact exists_stem_of_nameExtension?
  · rintro ⟨hext, stem, hstem, rfl⟩
    exact nameExtension?_append hstem hext

namespace SessionFormat

/-- The extension of the files in a format. -/
def extension : SessionFormat → String
  | json => "json"
  | toml => "toml"

/-- A name has the extension of a format, and something before it. -/
def Names (format : SessionFormat) (name : String) : Prop :=
  ∃ stem, stem ≠ "" ∧ name = stem ++ "." ++ format.extension

theorem ofExtension?_eq_some_iff {ext : String} {format : SessionFormat} :
    ofExtension? ext = some format ↔ ext = format.extension := by
  unfold ofExtension?
  split <;> cases format <;> simp_all [extension]

theorem ofName?_eq_some_iff {name : String} {format : SessionFormat} :
    ofName? name = some format ↔ format.Names name := by
  have hdot : '.' ∉ format.extension.toList := by cases format <;> decide
  simp only [ofName?, Option.bind_eq_some_iff, ofExtension?_eq_some_iff,
    exists_eq_right, Path.nameExtension?_eq_some_iff]
  exact and_iff_right hdot

end SessionFormat

/-! ### Named parts in order -/

section Order

variable {α : Type} {parts parts' : List (String × List α)}

theorem inNameOrder_eq_of_perm (h : parts.Perm parts') (hnames : (parts.map Prod.fst).Nodup) :
    inNameOrder parts = inNameOrder parts' :=
  congrArg (List.flatMap Prod.snd) (mergeSort_key_eq_of_perm Prod.fst h hnames)

/-- Parts that are in order already follow one another as they stand. -/
theorem inNameOrder_eq_flatten {ordered : List (String × List α)} (h : ordered.Perm parts)
    (hnames : (parts.map Prod.fst).Nodup) (hordered : ordered.Pairwise fun a b => a.1 ≤ b.1) :
    inNameOrder parts = (ordered.map Prod.snd).flatten := by
  rw [inNameOrder, ← eq_mergeSort_key_of_perm Prod.fst h hnames hordered,
    List.flatMap_def]

/-- Parts with nothing in them may be left out. -/
theorem inNameOrder_filter (hnames : (parts.map Prod.fst).Nodup) :
    inNameOrder (parts.filter (·.2 ≠ [])) = inNameOrder parts := by
  set sorted := parts.mergeSort fun a b => a.1 ≤ b.1 with hsorted
  -- Leaving out what is empty does not disturb the order.
  have hperm : (sorted.filter (·.2 ≠ [])).Perm (parts.filter (·.2 ≠ [])) :=
    (List.mergeSort_perm parts _).filter _
  have hnames' : ((parts.filter (·.2 ≠ [])).map Prod.fst).Nodup :=
    hnames.sublist (List.filter_sublist.map _)
  have hpairwise : (sorted.filter (·.2 ≠ [])).Pairwise fun a b => a.1 ≤ b.1 :=
    (pairwise_mergeSort_key Prod.fst parts).filter _
  calc inNameOrder (parts.filter (·.2 ≠ []))
      = ((sorted.filter (·.2 ≠ [])).map Prod.snd).flatten :=
        inNameOrder_eq_flatten hperm hnames' hpairwise
    _ = ((sorted.map Prod.snd).filter (· ≠ [])).flatten := by rw [List.filter_map]; rfl
    _ = (sorted.map Prod.snd).flatten := List.flatten_filter_ne_nil
    _ = inNameOrder parts := by rw [inNameOrder, hsorted, List.flatMap_def]

end Order

namespace FileTree

/-! ### Files -/

/-- **A file holds sessions:** its name has the extension of a format, and its bytes are a text that
is read as the sessions in that format. -/
def Holds (name : String) (content : ByteArray) (sessions : List Session) : Prop :=
  ∃ format text, SessionFormat.Names format name ∧ content = text.toUTF8 ∧
    Session.parse text format = .ok sessions

/-- **A file is passed over:** its name has another extension or none, its bytes are no text, or the
text is not in the format that the name says. -/
inductive Idle (name : String) (content : ByteArray) : Prop where
  | otherName (h : ∀ format, ¬ SessionFormat.Names format name)
  | notText (h : ∀ text, content ≠ String.toUTF8 text)
  | unparsable {format : SessionFormat} {text : String} {fault : ReadFault}
      (hname : format.Names name) (htext : content = text.toUTF8)
      (hparse : Session.parse text format = .error fault)

variable {name : String} {content : ByteArray} {sessions : List Session}

theorem Holds.fileSessions_eq (h : Holds name content sessions) :
    fileSessions name content = sessions := by
  obtain ⟨format, text, hname, htext, hparse⟩ := h
  simp [fileSessions, SessionFormat.ofName?_eq_some_iff.2 hname, fromUTF8?_eq_some_iff.2 htext,
    hparse, Except.toOption]

theorem Idle.fileSessions_eq (h : Idle name content) : fileSessions name content = [] := by
  -- By the reason why the file is idle, one for each thing that is asked of it.
  cases h with
  | otherName h =>
    have hformat : SessionFormat.ofName? name = none := by
      rw [Option.eq_none_iff_forall_ne_some]
      exact fun format hformat => h format (SessionFormat.ofName?_eq_some_iff.1 hformat)
    simp [fileSessions, hformat]
  | notText h =>
    have htext : String.fromUTF8? content = none := by
      rw [Option.eq_none_iff_forall_ne_some]
      exact fun text htext => h text (fromUTF8?_eq_some_iff.1 htext)
    simp [fileSessions, htext]
  | unparsable hname htext hparse =>
    simp [fileSessions, SessionFormat.ofName?_eq_some_iff.2 hname, fromUTF8?_eq_some_iff.2 htext,
      hparse, Except.toOption]

/-- Every file holds sessions or is passed over. -/
theorem holds_or_idle (name : String) (content : ByteArray) :
    (∃ sessions, Holds name content sessions) ∨ Idle name content := by
  -- A file is idle for the first of its name, its encoding and its text that does not serve.
  by_cases hname : ∃ format, SessionFormat.Names format name
  · obtain ⟨format, hname⟩ := hname
    by_cases htext : ∃ text, content = String.toUTF8 text
    · obtain ⟨text, htext⟩ := htext
      cases hparse : Session.parse text format with
      | ok sessions => exact .inl ⟨sessions, format, text, hname, htext, hparse⟩
      | error fault => exact .inr (.unparsable hname htext hparse)
    · exact .inr (.notText fun text h => htext ⟨text, h⟩)
  · exact .inr (.otherName fun format h => hname ⟨format, h⟩)

/-! ### Entries -/

mutual

/-- **What an entry of a directory yields:** a file the sessions that it holds, and none if it is
passed over; a directory what it yields itself, whatever its name. -/
inductive EntryYields : String × FileTree → List Session → Prop where
  | file {name : String} {content : ByteArray} {sessions : List Session}
      (h : Holds name content sessions) : EntryYields (name, .file content) sessions
  | idle {name : String} {content : ByteArray} (h : Idle name content) :
      EntryYields (name, .file content) []
  | directory {name : String} {entries : List (String × FileTree)} {sessions : List Session}
      (h : DirectoryYields entries sessions) : EntryYields (name, .directory entries) sessions

/-- **What a directory yields:** in the order of their names, byte by byte, the entries yield parts
that follow one another. -/
inductive DirectoryYields : List (String × FileTree) → List Session → Prop where
  | inOrder {entries ordered : List (String × FileTree)} {parts : List (List Session)}
      (hperm : ordered.Perm entries)
      (hordered : ordered.Pairwise fun a b => a.1.toUTF8.toList < b.1.toUTF8.toList)
      (hparts : List.Forall₂ EntryYields ordered parts) : DirectoryYields entries parts.flatten

end

/-- No directory has two entries of one name. -/
inductive WellNamed : List (String × FileTree) → Prop where
  | intro {entries : List (String × FileTree)} (hnames : (entries.map Prod.fst).Nodup)
      (hinner : ∀ name inner, (name, .directory inner) ∈ entries → WellNamed inner) :
      WellNamed entries

/-- **Directories that differ in the order of their entries and in idle files only.** An idle file
on one side need not be on the other, or may have another content there, and the directories in them
may differ in the same ways. -/
inductive Alike : List (String × FileTree) → List (String × FileTree) → Prop where
  | nil : Alike [] []
  | file {name : String} {content : ByteArray} {rest rest' : List (String × FileTree)}
      (h : Alike rest rest') :
      Alike ((name, .file content) :: rest) ((name, .file content) :: rest')
  | directory {name : String} {inner inner' rest rest' : List (String × FileTree)}
      (hinner : Alike inner inner') (h : Alike rest rest') :
      Alike ((name, .directory inner) :: rest) ((name, .directory inner') :: rest')
  | idleLeft {name : String} {content : ByteArray} {rest rest' : List (String × FileTree)}
      (hidle : Idle name content) (h : Alike rest rest') :
      Alike ((name, .file content) :: rest) rest'
  | idleRight {name : String} {content : ByteArray} {rest rest' : List (String × FileTree)}
      (hidle : Idle name content) (h : Alike rest rest') :
      Alike rest ((name, .file content) :: rest')
  | listed {entries entries' other other' : List (String × FileTree)} (hperm : entries.Perm other)
      (hperm' : entries'.Perm other') (h : Alike other other') : Alike entries entries'

/-! ### What the entries yield -/

variable {entries entries' other rest rest' : List (String × FileTree)}

/-- The sessions of an entry. -/
def ofEntry : String × FileTree → List Session
  | (name, file content) => fileSessions name content
  | (_, directory entries) => (directory entries).sessions

theorem entrySessions_eq_map (entries : List (String × FileTree)) :
    entrySessions entries = entries.map fun entry => (entry.1, ofEntry entry) := by
  induction entries with
  | nil => simp [entrySessions]
  | cons entry rest ih =>
    obtain ⟨name, tree⟩ := entry
    cases tree <;> simp [entrySessions, ofEntry, sessions, ih]

theorem keys_entrySessions (entries : List (String × FileTree)) :
    (entrySessions entries).map Prod.fst = entries.map Prod.fst := by
  simp [entrySessions_eq_map, Function.comp_def]

theorem WellNamed.names (h : WellNamed entries) : (entries.map Prod.fst).Nodup := by
  cases h with
  | intro hnames _ => exact hnames

theorem WellNamed.parts (h : WellNamed entries) :
    ((entrySessions entries).map Prod.fst).Nodup := by
  rw [keys_entrySessions]
  exact h.names

theorem WellNamed.inner {inner : List (String × FileTree)} (h : WellNamed entries)
    (hmem : (name, .directory inner) ∈ entries) : WellNamed inner := by
  cases h with
  | intro _ hinner => exact hinner name inner hmem

theorem WellNamed.tail {entry : String × FileTree} (h : WellNamed (entry :: rest)) :
    WellNamed rest :=
  .intro (List.nodup_cons.1 h.names).2 fun _ _ hmem => h.inner (List.mem_cons_of_mem _ hmem)

theorem WellNamed.nil : WellNamed [] :=
  .intro List.nodup_nil fun _ _ hmem => nomatch hmem

theorem WellNamed.cons {tree : FileTree}
    (htree : ∀ inner, tree = .directory inner → WellNamed inner) (h : WellNamed rest)
    (hnew : name ∉ rest.map Prod.fst) : WellNamed ((name, tree) :: rest) := by
  refine .intro (List.nodup_cons.2 ⟨hnew, h.names⟩) fun name' inner hmem => ?_
  rcases List.mem_cons.1 hmem with heq | hrest
  · exact htree inner (Prod.mk.inj heq).2.symm
  · exact h.inner hrest

theorem WellNamed.perm (h : WellNamed entries) (hperm : entries.Perm other) : WellNamed other :=
  .intro ((hperm.map Prod.fst).nodup_iff.1 h.names) fun _ _ hmem => h.inner (hperm.mem_iff.2 hmem)

theorem entryYields_file_iff {part : List Session} :
    EntryYields (name, .file content) part ↔ part = fileSessions name content := by
  constructor
  · rintro (h | h)
    · exact h.fileSessions_eq.symm
    · exact h.fileSessions_eq.symm
  · rintro rfl
    rcases holds_or_idle name content with ⟨sessions, h⟩ | h
    · rw [h.fileSessions_eq]
      exact .file h
    · rw [h.fileSessions_eq]
      exact .idle h

/-- The sessions of a directory, by its entries put in order. -/
theorem sessions_eq_flatten {ordered : List (String × FileTree)} (hperm : ordered.Perm entries)
    (hnames : (entries.map Prod.fst).Nodup)
    (hordered : ordered.Pairwise fun a b => a.1 ≤ b.1) :
    (directory entries).sessions = (ordered.map ofEntry).flatten := by
  rw [sessions, entrySessions_eq_map,
    inNameOrder_eq_flatten (hperm.map fun entry => (entry.1, ofEntry entry))
      (by simpa [Function.comp_def] using hnames) (by simpa [List.pairwise_map] using hordered),
    List.map_map]
  rfl

/-- One step down: what the directories in a directory yield settles what it yields itself. -/
theorem directoryYields_iff_of_entries {found : List Session}
    (hnames : (entries.map Prod.fst).Nodup)
    (hentries : ∀ entry ∈ entries, ∀ part, EntryYields entry part ↔ part = ofEntry entry) :
    DirectoryYields entries found ↔ found = (directory entries).sessions := by
  constructor
  · intro h
    obtain @⟨_, ordered, parts, hperm, hordered, hparts⟩ := h
    have hle : ordered.Pairwise fun a b => a.1 ≤ b.1 :=
      hordered.imp fun hlt => le_of_lt (toList_toUTF8_lt_iff.1 hlt)
    have hof : List.Forall₂ (fun entry part => ofEntry entry = part) ordered parts :=
      forall₂_imp_of_mem hparts fun entry hentry part h =>
        ((hentries entry (hperm.mem_iff.1 hentry) part).1 h).symm
    have hmap : ordered.map ofEntry = parts := by
      rwa [← List.forall₂_map_left_iff (f := ofEntry) (R := Eq), List.forall₂_eq_eq_eq] at hof
    rw [sessions_eq_flatten hperm hnames hle, hmap]
  · rintro rfl
    set sorted := entries.mergeSort fun a b => a.1 ≤ b.1 with hsorted
    have hperm : sorted.Perm entries := List.mergeSort_perm _ _
    have hle : sorted.Pairwise fun a b => a.1 ≤ b.1 := pairwise_mergeSort_key Prod.fst _
    have hne : sorted.Pairwise fun a b => a.1 ≠ b.1 :=
      List.pairwise_map.1 ((hperm.map Prod.fst).nodup_iff.2 hnames)
    rw [sessions_eq_flatten hperm hnames hle]
    -- Sorting puts no name before itself, but no name comes twice.
    refine .inOrder hperm ?_ ?_
    · refine hle.imp₂ (fun a b hle hne => ?_) hne
      exact toList_toUTF8_lt_iff.2 (lt_of_le_of_ne hle hne)
    · rw [List.forall₂_map_right_iff, List.forall₂_same]
      exact fun entry hentry => (hentries entry (hperm.mem_iff.1 hentry) _).2 rfl

/-- A directory yields its sessions and nothing else. -/
theorem directoryYields_iff (h : WellNamed entries)
    {found : List Session} :
    DirectoryYields entries found ↔ found = (directory entries).sessions := by
  induction h generalizing found with
  | intro hnames hinner ih =>
    -- The induction goes down into the directories that the entries are.
    refine directoryYields_iff_of_entries hnames fun entry hentry part => ?_
    obtain ⟨name, content | inner⟩ := entry
    · exact entryYields_file_iff
    · constructor
      · intro hpart
        cases hpart with
        | directory h => exact (ih name inner hentry).1 h
      · intro h
        exact .directory ((ih name inner hentry).2 h)

/-! ### Directories alike -/

/-- The entries that yield something, with what they yield. -/
def yielding (entries : List (String × FileTree)) : List (String × List Session) :=
  (entrySessions entries).filter (·.2 ≠ [])

theorem yielding_cons (entry : String × FileTree) (rest : List (String × FileTree)) :
    yielding (entry :: rest)
      = if ofEntry entry = [] then yielding rest
        else (entry.1, ofEntry entry) :: yielding rest := by
  simp [yielding, entrySessions_eq_map, List.filter_cons]

theorem yielding_cons_idle (h : Idle name content) (rest : List (String × FileTree)) :
    yielding ((name, .file content) :: rest) = yielding rest :=
  (yielding_cons _ _).trans (if_pos h.fileSessions_eq)

theorem yielding_perm (h : entries.Perm other) :
    (yielding entries).Perm (yielding other) := by
  simp only [yielding, entrySessions_eq_map]
  exact (h.map _).filter _

theorem yielding_cons_perm {entry entry' : String × FileTree} (hname : entry.1 = entry'.1)
    (hof : ofEntry entry = ofEntry entry') (h : (yielding rest).Perm (yielding rest')) :
    (yielding (entry :: rest)).Perm (yielding (entry' :: rest')) := by
  rw [yielding_cons, yielding_cons, hof, hname]
  split
  · exact h
  · exact h.cons _

/-- Directories in which the same entries yield something have the same sessions. -/
theorem sessions_eq_of_yielding (hw : WellNamed entries) (hw' : WellNamed entries')
    (h : (yielding entries).Perm (yielding entries')) :
    (directory entries).sessions = (directory entries').sessions := by
  have hnames := hw.parts
  have hnames' := hw'.parts
  rw [sessions, sessions, ← inNameOrder_filter hnames, ← inNameOrder_filter hnames']
  exact inNameOrder_eq_of_perm h (hnames.sublist (List.filter_sublist.map _))

/-- In directories alike the same entries yield something. -/
theorem Alike.perm_yielding (h : Alike entries entries') (hw : WellNamed entries)
    (hw' : WellNamed entries') : (yielding entries).Perm (yielding entries') := by
  -- By induction on the likeness, one case for each change of a listing.
  induction h with
  | nil => exact .refl _
  | file _ ih => exact yielding_cons_perm rfl rfl (ih hw.tail hw'.tail)
  -- Both directories yield the same sessions by the hypothesis, so that the entry stands for as
  -- much.
  | directory _ _ ihinner ih =>
    have hin := hw.inner List.mem_cons_self
    have hin' := hw'.inner List.mem_cons_self
    have hof := sessions_eq_of_yielding hin hin' (ihinner hin hin')
    exact yielding_cons_perm rfl hof (ih hw.tail hw'.tail)
  | idleLeft hidle _ ih =>
    rw [yielding_cons_idle hidle]
    exact ih hw.tail hw'
  | idleRight hidle _ ih =>
    rw [yielding_cons_idle hidle]
    exact ih hw hw'.tail
  | listed hperm hperm' _ ih =>
    exact (yielding_perm hperm).trans
      ((ih (hw.perm hperm) (hw'.perm hperm')).trans (yielding_perm hperm').symm)

end FileTree

/-! ### The sessions of a directory -/

open FileTree

/-- **The sessions of a directory** are there whatever its files hold. They are what the directory
yields and nothing else: in the order of the names, the sessions of its session files and those of
its directories. And they are the same in all directories that differ from it in the order of their
entries and in idle files only. -/
theorem Session.ofDirectory_yields {entries : List (String × FileTree)} (h : WellNamed entries)
    (path : Path) :
    ∃ sessions,
      ofDirectory path (.ok (.directory entries)) = .ok sessions ∧
      (∀ found, DirectoryYields entries found ↔ found = sessions) ∧
      ∀ entries', WellNamed entries' → Alike entries entries' → ∀ path',
        ofDirectory path' (.ok (.directory entries')) = .ok sessions := by
  refine ⟨(directory entries).sessions, rfl, fun found => directoryYields_iff h, ?_⟩
  intro entries' h' halike path'
  have hsame := sessions_eq_of_yielding h h' (halike.perm_yielding h h')
  rw [ofDirectory, hsame]

/-- The bytes of a session file. -/
def sessionFile (id : String) : ByteArray :=
  ("\x7b\"id\":" ++ id ++ ",\"dateTime\":\"2024-03-03T12:00:00Z\",\"answers\":[]\x7d").toUTF8

/-- A session file and one that breaks off. -/
def brokenEntries : List (String × FileTree) :=
  [("s.json", .file (sessionFile "2")), ("a.json", .file "[".toUTF8)]

/-- A directory named like a file, among files. -/
def mixedEntries : List (String × FileTree) :=
  [("notes.md", .file (sessionFile "3")), ("c.json", .file (sessionFile "1")),
    ("b.json", .directory brokenEntries)]

/-- The same sessions with nothing else, listed the other way. -/
def clearedEntries : List (String × FileTree) :=
  [("b.json", .directory [("s.json", .file (sessionFile "2"))]),
    ("c.json", .file (sessionFile "1"))]

theorem idle_notes (content : ByteArray) : Idle "notes.md" content := by
  refine .otherName fun format hname => ?_
  have hnone : SessionFormat.ofName? "notes.md" = none := by decide
  rw [SessionFormat.ofName?_eq_some_iff.2 hname] at hnone
  exact nomatch hnone

theorem idle_broken : Idle "a.json" "[".toUTF8 := by
  have hfault : (Session.parse "[" .json).isOk = false := by decide +kernel
  cases hparse : Session.parse "[" .json with
  | ok sessions => simp [hparse, Except.isOk, Except.toBool] at hfault
  | error fault => exact .unparsable ⟨"a", by decide, by decide⟩ rfl hparse

theorem ids_brokenEntries : (directory brokenEntries).sessions.map Session.id = [2] := by
  rw [sessions_eq_flatten (List.reverse_perm _) (by decide) (by decide)]
  decide +kernel

theorem ids_mixedEntries : (directory mixedEntries).sessions.map Session.id = [2, 1] := by
  have hfirst : (fileSessions "c.json" (sessionFile "1")).map Session.id = [1] := by
    decide +kernel
  rw [sessions_eq_flatten (List.reverse_perm _) (by decide) (by decide)]
  simp [mixedEntries, ofEntry, ids_brokenEntries, hfirst, (idle_notes _).fileSessions_eq]

theorem Session.ofDirectory_yields_mixed :
    WellNamed mixedEntries ∧ WellNamed clearedEntries ∧ Alike mixedEntries clearedEntries ∧
      ∃ sessions,
        ofDirectory ⟨"sessions"⟩ (.ok (.directory mixedEntries)) = .ok sessions ∧
        DirectoryYields mixedEntries sessions ∧
        ofDirectory ⟨"sessions"⟩ (.ok (.directory clearedEntries)) = .ok sessions ∧
        sessions.map Session.id = [2, 1] := by
  have hbroken : WellNamed brokenEntries := .cons nofun (.cons nofun .nil (by decide)) (by decide)
  have hmixed : WellNamed mixedEntries := by
    refine .cons nofun (.cons nofun (.cons ?_ .nil (by decide)) (by decide)) (by decide)
    rintro _ ⟨⟩
    exact hbroken
  have hcleared : WellNamed clearedEntries := by
    refine .cons ?_ (.cons nofun .nil (by decide)) (by decide)
    rintro _ ⟨⟩
    exact .cons nofun .nil (by decide)
  -- The entries are listed in another order, and the idle ones are left out.
  have halike : Alike mixedEntries clearedEntries :=
    .listed (.refl _) (.swap _ _ _) (.idleLeft (idle_notes _)
      (.file (.directory (.file (.idleLeft idle_broken .nil)) .nil)))
  obtain ⟨sessions, hof, hyields, hsame⟩ := ofDirectory_yields hmixed ⟨"sessions"⟩
  refine ⟨hmixed, hcleared, halike, sessions, hof, (hyields sessions).2 rfl,
    hsame _ hcleared halike _, ?_⟩
  rw [← Except.ok.inj hof]
  exact ids_mixedEntries

end Scoresheet
