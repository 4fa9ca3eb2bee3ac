import Scoresheet.Files.Tree
import Scoresheet.Proofs.Basic

/-!
# Trees with something in its place

What the names on the way down lead to after something was put into a tree, and what they lead to
still.

* `FileTree.at?_append`, `FileTree.lookup_putEntry` — the way down, and one directory of it.
* `FileTree.at?_put_append` — what was put is found where it was put.
* `FileTree.file?_put` — the files elsewhere stay, if something is put under a name of a directory.
* `FileTree.Keeps`, `FileTree.keeps_put` — directories and the names in them stay, if what is put
  takes the place of no directory.
-/

namespace Scoresheet.FileTree

variable {tree new : FileTree} {entries : List (String × FileTree)} {name : String}
  {names place : List String}

/-- The content of a file. -/
def content? : FileTree → Option ByteArray
  | file content => some content
  | directory _ => none

/-- The content of the file that the names on the way down lead to. -/
def file? (tree : FileTree) (place : List String) : Option ByteArray :=
  (tree.at? place).bind content?

/-! ### The way down -/

@[simp] theorem at?_nil (tree : FileTree) : tree.at? [] = some tree := by
  cases tree <;> rfl

theorem at?_cons (tree : FileTree) (name : String) (names : List String) :
    tree.at? (name :: names) = (tree.entries.lookup name).bind fun child => child.at? names := by
  cases tree <;> rfl

/-- The way down may be broken anywhere. -/
theorem at?_append (tree : FileTree) (names more : List String) :
    tree.at? (names ++ more) = (tree.at? names).bind fun found => found.at? more := by
  induction names generalizing tree with
  | nil => simp
  | cons name names ih =>
    rw [List.cons_append, at?_cons, at?_cons, Option.bind_assoc]
    congr 1
    funext child
    exact ih child

theorem file?_cons (tree : FileTree) (name : String) (names : List String) :
    tree.file? (name :: names) =
      (tree.entries.lookup name).bind fun child => child.file? names := by
  rw [file?, at?_cons, Option.bind_assoc]
  rfl

/-- A tree with an entry is no file. -/
theorem content?_of_lookup {child : FileTree} (h : tree.entries.lookup name = some child) :
    tree.content? = none := by
  cases tree with
  | file content => simp [FileTree.entries] at h
  | directory entries => rfl

/-! ### What was put -/

/-- The entry that was put into a directory is under its name, and the others are as before. -/
theorem lookup_putEntry (name other : String) (tree : FileTree)
    (entries : List (String × FileTree)) :
    (putEntry name tree entries).lookup other =
      if other = name then some tree else entries.lookup other := by
  -- By induction on the entries, up to the one with the name.
  induction entries with
  | nil => exact lookup_cons_eq_ite ..
  | cons entry entries ih =>
    obtain ⟨key, child⟩ := entry
    rw [putEntry]
    split
    next same =>
      rw [lookup_cons_eq_ite, lookup_cons_eq_ite, show key = name from same]
      split <;> rfl
    -- The entry goes further back, and is looked for behind this one.
    next differs =>
      rw [lookup_cons_eq_ite, lookup_cons_eq_ite, ih]
      by_cases h : other = key
      · rw [if_pos h, if_pos h, if_neg (h ▸ differs)]
      · rw [if_neg h, if_neg h]

theorem at?_put_cons (tree new : FileTree) (name : String) (names : List String) (other : String)
    (more : List String) :
    (tree.put new (name :: names)).at? (other :: more) =
      if other = name then
        (((tree.entries.lookup name).getD (directory [])).put new names).at? more
      else tree.at? (other :: more) := by
  rw [put, at?_cons, at?_cons, FileTree.entries, lookup_putEntry]
  split <;> rfl

/-- **What was put is found where it was put.** -/
theorem at?_put_append (tree new : FileTree) (names more : List String) :
    (tree.put new names).at? (names ++ more) = new.at? more := by
  induction names generalizing tree with
  | nil => rfl
  | cons name names ih => rw [List.cons_append, at?_put_cons, if_pos rfl, ih]

/-- **The files elsewhere stay,** if something is put under a name of a directory. -/
theorem file?_put {other : List String} (found : tree.at? place = some (directory entries))
    (elsewhere : ¬ place ++ [name] <+: other) :
    (tree.put new (place ++ [name])).file? other = tree.file? other := by
  -- By induction on the way down to the directory, along which the other way branches off or ends.
  induction place generalizing tree other with
  | nil =>
    obtain rfl : tree = directory entries := by simpa using found
    cases other with
    | nil => rfl
    | cons step steps =>
      have differs : step ≠ name := by
        rintro rfl
        exact elsewhere (List.prefix_append [step] steps)
      rw [file?, file?, List.nil_append, at?_put_cons, if_neg differs]
  | cons first place ih =>
    rw [at?_cons] at found
    obtain ⟨child, looked, inner⟩ := Option.bind_eq_some_iff.1 found
    cases other with
    | nil =>
      -- The tree itself has an entry, and so it is no file before or after.
      rw [file?, file?, at?_nil, at?_nil, Option.bind_some, Option.bind_some,
        content?_of_lookup looked]
      rfl
    | cons step steps =>
      rw [file?, List.cons_append, at?_put_cons, file?]
      by_cases same : step = first
      · subst same
        have inElsewhere : ¬ place ++ [name] <+: steps := fun h =>
          elsewhere (List.cons_prefix_cons.2 ⟨rfl, h⟩)
        rw [if_pos rfl, at?_cons, looked, Option.getD_some, Option.bind_some]
        exact ih inner inElsewhere
      · rw [if_neg same]

/-! ### What is kept -/

/-- A tree has the directories of another, with all the names that are in them. -/
def Keeps (tree tree' : FileTree) : Prop :=
  ∀ place entries, tree.at? place = some (directory entries) →
    ∃ entries', tree'.at? place = some (directory entries') ∧
      ∀ name, (entries.lookup name).isSome → (entries'.lookup name).isSome

theorem Keeps.refl (tree : FileTree) : tree.Keeps tree :=
  fun _ entries found => ⟨entries, found, fun _ => id⟩

theorem Keeps.trans {first second third : FileTree} (h : first.Keeps second)
    (h' : second.Keeps third) : first.Keeps third := by
  intro place entries found
  obtain ⟨entries', found', names⟩ := h place entries found
  obtain ⟨entries'', found'', names'⟩ := h' place entries' found'
  exact ⟨entries'', found'', fun name isName => names' name (names name isName)⟩

/-- **Directories stay,** and the names in them, if what is put takes the place of none. -/
theorem keeps_put (h : ∀ entries, tree.at? names ≠ some (directory entries)) :
    tree.Keeps (tree.put new names) := by
  induction names generalizing tree with
  | nil =>
    -- The tree itself is a file.
    intro place entries found
    cases tree with
    | directory entries' => exact absurd (at?_nil _) (h entries')
    | file content =>
      cases place with
      | nil => simp at found
      | cons step steps => simp [at?_cons, FileTree.entries] at found
  | cons first names ih =>
    intro place entries found
    cases place with
    | nil =>
      obtain rfl : tree = directory entries := by simpa using found
      refine ⟨_, at?_nil _, fun name isName => ?_⟩
      rw [lookup_putEntry]
      split
      · rfl
      · exact isName
    | cons step steps =>
      rw [at?_put_cons]
      by_cases same : step = first
      · subst same
        rw [at?_cons] at found
        obtain ⟨child, looked, inner⟩ := Option.bind_eq_some_iff.1 found
        have childKept : ∀ entries, child.at? names ≠ some (directory entries) := fun entries => by
          simpa [at?_cons, looked] using h entries
        rw [if_pos rfl, looked, Option.getD_some]
        exact ih childKept steps entries inner
      · rw [if_neg same]
        exact Keeps.refl tree _ entries found

end Scoresheet.FileTree
