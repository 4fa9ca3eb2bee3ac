import Scoresheet.Files.System
import Scoresheet.Proofs.Files.Path
import Scoresheet.Proofs.Files.Tree

/-!
# What writing changes

A file that is written has its content where its path leads, and every other file stays; a
directory that is made changes no file. In both cases paths lead where they led before.

* `FileSystem.file?` — the content of the file in a place.
* `FileSystem.Grows` — a file system that has the directories and names of another.
* `FileSystem.walk_of_grows` — the steps that lead somewhere still lead there.
* `FileSystem.Written`, `FileSystem.written_of_write` — a file written.
* `FileSystem.WrittenInTurn.wroteAll` — files of one directory written one after the other.
* `FileSystem.file?_of_makeDirectory` — a directory made.
-/

namespace Scoresheet.FileSystem

open FileTree (directory)

variable {fs fs' : FileSystem} {path : Path} {content : ByteArray} {place steps : List String}
  {found : List String} {name : String} {entries : List (String × FileTree)}

/-- The content of the file in a place. -/
def file? (fs : FileSystem) (place : List String) : Option ByteArray :=
  fs.root.file? place

/-! ### Paths lead where they led -/

/-- A file system has the directories of another, with all the names that are in them, and the same
directory is the working directory. -/
structure Grows (fs fs' : FileSystem) : Prop where
  keeps : fs.root.Keeps fs'.root
  workingDirectory : fs'.workingDirectory = fs.workingDirectory

theorem Grows.refl (fs : FileSystem) : fs.Grows fs :=
  ⟨.refl _, rfl⟩

theorem Grows.trans {first second third : FileSystem} (h : first.Grows second)
    (h' : second.Grows third) : first.Grows third :=
  ⟨h.keeps.trans h'.keeps, h'.workingDirectory.trans h.workingDirectory⟩

theorem Grows.start (h : fs.Grows fs') (path : Path) : fs'.start path = fs.start path := by
  rw [FileSystem.start, FileSystem.start, h.workingDirectory]

/-- **The steps that lead somewhere still lead there.** -/
theorem walk_of_grows (h : fs.Grows fs') (walked : fs.walk place steps = .ok found) :
    fs'.walk place steps = .ok found := by
  -- By induction on the steps: each is taken by the branch that took it before, since the directory
  -- that it starts from is still there and has the name still.
  induction steps generalizing place with
  | nil => exact walked
  | cons step steps ih =>
    rw [walk] at walked
    split at walked
    next entries here =>
      obtain ⟨entries', here', names⟩ := h.keeps place entries here
      simp only [walk, here']
      split at walked
      next stays => rw [if_pos stays]; exact ih walked
      next moves =>
        rw [if_neg moves]
        split at walked
        next back => rw [if_pos back]; exact ih walked
        next onward =>
          rw [if_neg onward]
          split at walked
          next => cases walked
          next fits =>
            rw [if_neg fits]
            split at walked
            next isName => rw [if_pos (names step isName)]; exact ih walked
            next => cases walked
    next => cases walked
    next => cases walked

/-- **A path that led to a directory still leads there.** -/
theorem Grows.walk_start (h : fs.Grows fs')
    (walked : fs.walk (fs.start path) steps = .ok place) :
    fs'.walk (fs'.start path) steps = .ok place := by
  rw [h.start]
  exact walk_of_grows h walked

/-! ### One entry of a directory -/

/-- The directory that all steps but the last lead to is there. -/
theorem of_parentOf (h : fs.parentOf path = .ok (place, entries, name)) :
    fs.walk (fs.start path) path.steps.dropLast = .ok place ∧
      fs.root.at? place = some (directory entries) ∧ name = path.steps.getLast?.getD "." := by
  obtain ⟨-, -, h⟩ := bind_eq_ok_iff.1 h
  obtain ⟨reached, walked, h⟩ := bind_eq_ok_iff.1 h
  -- The last step is a name, or the path is one without steps.
  split at h
  next entries' name' here last =>
    cases h
    exact ⟨walked, here, by rw [last, Option.getD_some]⟩
  next entries' here last =>
    cases h
    exact ⟨walked, here, by rw [last, Option.getD_none]⟩
  next => cases h
  next => cases h

/-- A file system that has changed under a name of a directory has the other files as they were. -/
theorem file?_put (here : fs.root.at? place = some (directory entries)) {new : FileTree}
    {other : List String} (elsewhere : ¬ place ++ [name] <+: other) :
    (fs.put (place ++ [name]) new).file? other = fs.file? other :=
  FileTree.file?_put here elsewhere

/-- A file system that has changed where there was no directory has all directories. -/
theorem grows_put (here : fs.root.at? place = some (directory entries)) {new : FileTree}
    (noDirectory : ∀ inner, entries.lookup name ≠ some (directory inner)) :
    fs.Grows (fs.put (place ++ [name]) new) := by
  refine ⟨FileTree.keeps_put fun inner => ?_, rfl⟩
  rw [FileTree.at?_append, here, Option.bind_some, FileTree.at?_cons]
  simpa [FileTree.entries] using noDirectory inner

/-- What is below a name of a directory is below its entry. -/
theorem file?_under (here : fs.root.at? place = some (directory entries)) (below : List String) :
    fs.file? (place ++ [name] ++ below) =
      (entries.lookup name).bind fun child => child.file? below := by
  rw [file?, FileTree.file?, List.append_assoc, FileTree.at?_append, here, Option.bind_some]
  exact FileTree.file?_cons (directory entries) name below

/-- What is below the place of something put is below what was put. -/
theorem file?_put_append (fs : FileSystem) (new : FileTree) (place below : List String) :
    (fs.put place new).file? (place ++ below) = new.file? below :=
  congrArg (Option.bind · FileTree.content?) (FileTree.at?_put_append fs.root new place below)

/-! ### A file written -/

/-- **A file was written in a place,** and nothing else happened to files. -/
structure Written (fs : FileSystem) (place : List String) (content : ByteArray)
    (fs' : FileSystem) : Prop where
  grows : fs.Grows fs'
  file : fs'.file? place = some content
  others : ∀ other, other ≠ place → fs'.file? other = fs.file? other

/-- A file put under a name of a directory is written there. -/
theorem written_put (here : fs.root.at? place = some (directory entries))
    (noDirectory : ∀ inner, entries.lookup name ≠ some (directory inner)) (content : ByteArray) :
    fs.Written (place ++ [name]) content (fs.put (place ++ [name]) (.file content)) := by
  refine ⟨grows_put here noDirectory, ?file, ?others⟩
  case file =>
    have put := file?_put_append fs (.file content) (place ++ [name]) []
    rwa [List.append_nil] at put
  case others =>
    intro other differs
    by_cases within : place ++ [name] <+: other
    · obtain ⟨below, rfl⟩ := within
      -- Below a file there is none, and the place held a file or nothing.
      rw [file?_put_append, file?_under here]
      cases below with
      | nil => exact absurd (List.append_nil _) differs
      | cons step below =>
        cases looked : entries.lookup name with
        | none => rfl
        | some child =>
          cases child with
          | file content => rfl
          | directory inner => exact absurd looked (noDirectory inner)
    · exact file?_put here within

/-- **A write puts the file where the path leads:** under its last step in the directory that the
steps before it lead to. -/
theorem written_of_write (h : fs.write path content = .ok fs') :
    ∃ place name, fs.walk (fs.start path) path.steps.dropLast = .ok place ∧
      path.steps.getLast? = some name ∧ fs.Written (place ++ [name]) content fs' := by
  obtain ⟨⟨place, entries, name⟩, parent, h⟩ := bind_eq_ok_iff.1 h
  obtain ⟨walked, here, last⟩ := of_parentOf parent
  obtain ⟨onward, h⟩ := of_unless_throw h
  obtain ⟨-, h⟩ := of_unless_throw h
  have noTurn : ¬ isTurn name = true := fun turn => onward (by rw [turn, Bool.true_or])
  -- A path without steps would have led to the place itself, and that is a turn.
  have isLast : path.steps.getLast? = some name := by
    cases steps : path.steps.getLast? with
    | some step => rw [last, steps, Option.getD_some]
    | none => exact absurd (by rw [last, steps]; rfl) noTurn
  split at h
  next => cases h
  next noDirectory =>
    cases h
    exact ⟨place, name, walked, isLast, written_put here noDirectory content⟩

/-- A path continued by a name is where the name is in the directory of the path. -/
theorem written_of_write_join {output : Path} (isStep : Path.IsStep name)
    (h : fs.write (output.join ⟨name⟩) content = .ok fs') :
    ∃ place, fs.walk (fs.start output) output.steps = .ok place ∧
      fs.Written (place ++ [name]) content fs' := by
  have sameStart : fs.start (output.join ⟨name⟩) = fs.start output := by
    rw [start, start, Path.isAbsolute_join isStep]
  -- The path that is written ends in the name, so the walk before it is that of the output.
  obtain ⟨place, last, walked, isLast, written⟩ := written_of_write h
  rw [Path.steps_join isStep, List.dropLast_concat, sameStart] at walked
  rw [Path.steps_join isStep, List.getLast?_concat] at isLast
  cases isLast
  exact ⟨place, walked, written⟩

/-! ### Files written one after the other -/

section InTurn

variable {κ : Type} {output : Path} {nameOf : κ → String} {contentOf : κ → ByteArray}
  {ks : List κ}

/-- Files of one directory are written one after the other. -/
inductive WrittenInTurn (output : Path) (nameOf : κ → String) (contentOf : κ → ByteArray) :
    FileSystem → List κ → FileSystem → Prop
  | nil {fs : FileSystem} : WrittenInTurn output nameOf contentOf fs [] fs
  | cons {fs first fs' : FileSystem} {k : κ} {ks : List κ} :
    fs.write (output.join ⟨nameOf k⟩) (contentOf k) = .ok first →
      WrittenInTurn output nameOf contentOf first ks fs' →
      WrittenInTurn output nameOf contentOf fs (k :: ks) fs'

/-- **Files were written in a directory,** and nothing else happened to files. -/
structure WroteAll (nameOf : κ → String) (contentOf : κ → ByteArray) (fs : FileSystem)
    (place : List String) (ks : List κ) (fs' : FileSystem) : Prop where
  grows : fs.Grows fs'
  files : ∀ k ∈ ks, fs'.file? (place ++ [nameOf k]) = some (contentOf k)
  others : ∀ other, (∀ k ∈ ks, other ≠ place ++ [nameOf k]) → fs'.file? other = fs.file? other

/-- **What is written one after the other is all there in the end,** in the directory that the path
led to at the start, if the names differ. -/
theorem WrittenInTurn.wroteAll (isStep : ∀ k, Path.IsStep (nameOf k))
    (distinct : Function.Injective nameOf) (h : WrittenInTurn output nameOf contentOf fs ks fs')
    (walked : fs.walk (fs.start output) output.steps = .ok place) :
    WroteAll nameOf contentOf fs place ks fs' := by
  -- By induction on the files: those still to be written keep the one that was written just now.
  induction h with
  | nil => exact ⟨.refl _, nofun, fun _ _ => rfl⟩
  | @cons fs first fs' k ks wrote _ ih =>
    obtain ⟨place', walked', written⟩ := written_of_write_join (isStep k) wrote
    obtain rfl : place = place' := Except.ok.inj (walked.symm.trans walked')
    have rest : WroteAll nameOf contentOf first place ks fs' :=
      ih (written.grows.walk_start walked)
    refine ⟨written.grows.trans rest.grows, ?files, ?others⟩
    case files =>
      refine List.forall_mem_cons.2 ⟨?_, rest.files⟩
      by_cases again : k ∈ ks
      · exact rest.files k again
      · -- No later file has its name.
        rw [rest.others, written.file]
        intro k' mem same
        have sameName : nameOf k = nameOf k' := by simpa using same
        exact again (distinct sameName ▸ mem)
    case others =>
      intro other elsewhere
      obtain ⟨notFirst, notLater⟩ := List.forall_mem_cons.1 elsewhere
      rw [rest.others other notLater, written.others other notFirst]

/-- If a file was written, the path led to a directory. -/
theorem WrittenInTurn.exists_walk (isStep : ∀ k, Path.IsStep (nameOf k))
    (h : WrittenInTurn output nameOf contentOf fs ks fs') (some : ks ≠ []) :
    ∃ place, fs.walk (fs.start output) output.steps = .ok place := by
  cases h with
  | nil => exact absurd rfl some
  | @cons _ _ _ k ks wrote _ =>
    obtain ⟨place, walked, -⟩ := written_of_write_join (isStep k) wrote
    exact ⟨place, walked⟩

/-- **A file that has changed is one of those that were written.** -/
theorem WrittenInTurn.exists_of_changed (isStep : ∀ k, Path.IsStep (nameOf k))
    (distinct : Function.Injective nameOf) (h : WrittenInTurn output nameOf contentOf fs ks fs')
    {other : List String} (changed : fs'.file? other ≠ fs.file? other) :
    ∃ place, fs'.walk (fs'.start output) output.steps = .ok place ∧
      ∃ k ∈ ks, other = place ++ [nameOf k] := by
  -- If nothing was asked for, nothing would have changed.
  have some : ks ≠ [] := by
    rintro rfl
    cases h
    exact changed rfl
  obtain ⟨place, walked⟩ := h.exists_walk isStep some
  have wrote : WroteAll nameOf contentOf fs place ks fs' := h.wroteAll isStep distinct walked
  refine ⟨place, wrote.grows.walk_start walked, ?_⟩
  -- A file that none of the names stands for is as it was.
  by_contra elsewhere
  refine changed (wrote.others other fun k mem same => ?_)
  exact elsewhere ⟨k, mem, same⟩

end InTurn

/-! ### A directory made -/

/-- **A directory that is made changes no file.** -/
theorem file?_of_makeDirectory (h : fs.makeDirectory path = .ok fs') (other : List String) :
    fs'.file? other = fs.file? other := by
  obtain ⟨⟨place, entries, name⟩, parent, h⟩ := bind_eq_ok_iff.1 h
  obtain ⟨-, here, -⟩ := of_parentOf parent
  obtain ⟨-, h⟩ := of_unless_throw h
  obtain ⟨-, h⟩ := of_unless_throw h
  obtain ⟨free, h⟩ := of_unless_throw h
  cases h
  by_cases within : place ++ [name] <+: other
  · obtain ⟨below, rfl⟩ := within
    -- The new directory is empty, and before it there was nothing.
    have nothing : entries.lookup name = none := Option.not_isSome_iff_eq_none.1 free
    rw [file?_put_append, file?_under here, nothing]
    cases below <;> rfl
  · exact file?_put here within

end Scoresheet.FileSystem
