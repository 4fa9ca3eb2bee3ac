import Mathlib.Data.List.Basic
import Scoresheet.Settings.Reference

/-!
# Replacing references

The references of a text give place to the values of variables, and what results is searched again.
Since values may hold references themselves, the text may grow for a while, and the replacements
need not end.

A value is *tidy* if dollars are in it only where they open a reference or where some character
follows them that opens none. References are then never torn: with every replacement, the first of
the names that the text refers to gives place to the names of its value, and the others stay
(`MadeOf.replace`). The texts that values are put into may have stray dollars. One of them may open
a reference with what comes to stand behind it, but it is then used up, and no value brings in a new
one.

* `eq_of_nextReference?` — the first reference cuts its text in three.
* `references` — the names that a text refers to.
* `Expands` — what becomes of a text, if the replacements come to an end.
* `MadeOf`, `Tidy` — texts by their references and stray dollars.
* `ends_iff_acc` — the replacements in a tidy text end exactly if none of its references starts an
  endless chain.
* `forall_ends_iff_wellFounded` — they end in every text exactly if there are no endless chains.
-/

namespace Scoresheet.Settings

/-! ### The first reference of a text -/

/-- A character that does not open a reference stays in front of the first one. -/
theorem nextReference?_cons {c : Char} {text : List Char}
    (h : c ≠ '$' ∨ text.head? ≠ some '\x7b') :
    nextReference? (c :: text)
      = (nextReference? text).map fun next => (c :: next.1, next.2) := by
  -- The first reference is cut where the text after the character has it cut.
  have hcut : cutAtOpening (c :: text)
      = (cutAtOpening text).map fun cut => (c :: cut.1, cut.2) := by
    rw [cutAtOpening]
    rintro inside rfl rfl
    simp at h
  unfold nextReference?
  rw [hcut]
  cases cutAtOpening text with
  | none => rfl
  | some cut =>
    simp only [Option.map_some, Option.bind_eq_bind, Option.bind_some]
    split <;> rfl

/-- A reference that a text begins with is its first one. -/
theorem nextReference?_opening {name : List Char} (h : '\x7d' ∉ name) (text : List Char) :
    nextReference? ('$' :: '\x7b' :: (name ++ '\x7d' :: text))
      = some ([], String.ofList name, text) := by
  -- The name runs to the first closing brace, and holds none.
  have hname : ∀ c ∈ name, decide (c ≠ '\x7d') = true := fun c hc =>
    decide_eq_true fun heq => h (heq ▸ hc)
  unfold nextReference?
  simp only [cutAtOpening, Option.bind_eq_bind, Option.bind_some]
  rw [List.dropWhile_append_of_pos hname, List.takeWhile_append_of_pos hname]
  simp

/-- **The first reference** cuts its text in three. -/
theorem eq_of_nextReference? {text before after : List Char} {name : String}
    (h : nextReference? text = some (before, name, after)) :
    text = before ++ '$' :: '\x7b' :: (name.toList ++ '\x7d' :: after) := by
  induction text generalizing before with
  | nil => cases h
  | cons c text ih =>
    by_cases hopening : c ≠ '$' ∨ text.head? ≠ some '\x7b'
    · rw [nextReference?_cons hopening, Option.map_eq_some_iff] at h
      obtain ⟨⟨before', name', after'⟩, hnext, heq⟩ := h
      cases heq
      rw [ih hnext, List.cons_append]
    · -- The text begins with a reference, so that nothing stands before the first one.
      rw [not_or, not_not, not_not] at hopening
      obtain ⟨rfl, hhead⟩ := hopening
      obtain ⟨inside, rfl⟩ := List.head?_eq_some_iff.1 hhead
      unfold nextReference? at h
      simp only [cutAtOpening, Option.bind_eq_bind, Option.bind_some] at h
      split at h
      · cases h
        rename_i c hdrop
        obtain rfl : c = '\x7d' := by
          -- What stops the search for the closing brace is a closing brace.
          have hnot := List.head?_dropWhile_not (fun c => decide (c ≠ '\x7d')) inside
          rw [hdrop] at hnot
          simpa using hnot
        have hinside :
            inside.takeWhile (fun c => decide (c ≠ '\x7d')) ++ '\x7d' :: after = inside := by
          rw [← hdrop, List.takeWhile_append_dropWhile]
        rw [List.nil_append, String.toList_ofList, hinside]
      · cases h

theorem length_lt_of_nextReference? {text before after : List Char} {name : String}
    (h : nextReference? text = some (before, name, after)) : after.length < text.length := by
  rw [eq_of_nextReference? h]
  simp only [List.length_append, List.length_cons]
  omega

/-- **The names that a text refers to,** in the order in which they come. -/
def references (text : List Char) : List String :=
  match _next : nextReference? text with
  | none => []
  | some (_, name, after) => name :: references after
termination_by text.length
decreasing_by exact length_lt_of_nextReference? _next

theorem references_of_none {text : List Char} (h : nextReference? text = none) :
    references text = [] := by
  rw [references]
  split <;> simp_all

theorem references_of_some {text before after : List Char} {name : String}
    (h : nextReference? text = some (before, name, after)) :
    references text = name :: references after := by
  rw [references]
  split <;> simp_all

/-! ### Replacing references until none is left -/

/-- **What becomes of a text** whose references give place to values, one after the other, until
none is left. -/
inductive Expands (value : String → List Char) : List Char → List Char → Prop
  | done {text : List Char} : nextReference? text = none → Expands value text text
  | replaced {text before after result : List Char} {name : String} :
      nextReference? text = some (before, name, after) →
      Expands value (before ++ value name ++ after) result → Expands value text result

/-- Nothing is left to replace in what becomes of a text. -/
theorem Expands.nextReference?_eq_none {value : String → List Char} {text result : List Char}
    (h : Expands value text result) : nextReference? result = none := by
  induction h with
  | done h => exact h
  | replaced _ _ ih => exact ih

/-- The replacements come to an end. -/
def Ends (value : String → List Char) (text : List Char) : Prop :=
  ∃ result, Expands value text result

theorem Ends.replaced {value : String → List Char} {text before after : List Char} {name : String}
    (h : nextReference? text = some (before, name, after))
    (hends : Ends value (before ++ value name ++ after)) : Ends value text :=
  let ⟨result, hresult⟩ := hends
  ⟨result, .replaced h hresult⟩

/-- The name `b` is referred to by the value of `a`. -/
def Refers (value : String → List Char) (b a : String) : Prop :=
  b ∈ references (value a)

/-! ### Texts without torn references -/

/-- **What a text is made of:** references, characters that may have dollars before them, and stray
dollars, which may open a reference together with what follows. The names are those of the
references. -/
inductive MadeOf : (strays : ℕ) → List Char → (names : List String) → Prop
  | nil : MadeOf 0 [] []
  | literal {n : ℕ} {text : List Char} {names : List String} (dollars : ℕ) {c : Char} :
      c ≠ '$' → (dollars = 0 ∨ c ≠ '\x7b') → MadeOf n text names →
      MadeOf n (List.replicate dollars '$' ++ c :: text) names
  | reference {n : ℕ} {text : List Char} {names : List String} (name : List Char) :
      '\x7d' ∉ name → MadeOf n text names →
      MadeOf n ('$' :: '\x7b' :: (name ++ '\x7d' :: text)) (String.ofList name :: names)
  | stray {n : ℕ} {text : List Char} {names : List String} :
      MadeOf n text names → MadeOf (n + 1) ('$' :: text) names

/-- **A text without stray dollars.** It can be put into another text without making a reference of
what stands on both sides of a cut. -/
def Tidy (text : List Char) : Prop :=
  ∃ names, MadeOf 0 text names

namespace MadeOf

variable {m n : ℕ} {text : List Char} {names : List String}

/-- Every text is made so, if need be of stray dollars. -/
theorem exists_strays (text : List Char) : ∃ n, MadeOf n text [] := by
  induction text with
  | nil => exact ⟨0, .nil⟩
  | cons c text ih =>
    obtain ⟨n, h⟩ := ih
    by_cases hc : c = '$'
    · exact ⟨n + 1, hc ▸ .stray h⟩
    · exact ⟨n, .literal 0 hc (.inl rfl) h⟩

theorem append {text' : List Char} {names' : List String} (h : MadeOf m text names)
    (h' : MadeOf n text' names') : MadeOf (m + n) (text ++ text') (names ++ names') := by
  induction h with
  | nil => simpa using h'
  -- Each case adds its piece in front of the two lists together.
  | literal dollars hc hbrace _ ih =>
    rw [List.append_assoc, List.cons_append]
    exact .literal dollars hc hbrace ih
  | reference _ hname _ ih =>
    rw [List.cons_append, List.cons_append, List.append_assoc, List.cons_append, List.cons_append]
    exact .reference _ hname ih
  | stray _ ih =>
    rw [Nat.succ_add]
    exact .stray ih

/-- A character with dollars before it stays in front of the first reference. -/
theorem nextReference?_literal {c : Char} (hc : c ≠ '$') {dollars : ℕ}
    (hbrace : dollars = 0 ∨ c ≠ '\x7b') (text : List Char) :
    nextReference? (List.replicate dollars '$' ++ c :: text)
      = (nextReference? text).map fun next =>
          (List.replicate dollars '$' ++ c :: next.1, next.2) := by
  induction dollars with
  | zero => exact nextReference?_cons (.inl hc)
  -- The dollars before the character open nothing, for the next of them is no brace.
  | succ dollars ih =>
    have hhead : (List.replicate dollars '$' ++ c :: text).head? ≠ some '\x7b' := by
      cases dollars with
      | zero => simpa using hbrace
      | succ => simp [List.replicate_succ]
    rw [List.replicate_succ, List.cons_append, nextReference?_cons (.inr hhead),
      ih (.inr (hbrace.resolve_left (Nat.succ_ne_zero _))), Option.map_map]
    rfl

/-- **The names of a tidy text** are those that it refers to. -/
theorem references_eq (h : MadeOf 0 text names) : references text = names := by
  generalize hn : 0 = n at h
  induction h with
  | nil => exact references_of_none rfl
  -- A piece of literal text moves the first reference without changing the name.
  | @literal _ text _ dollars c hc hbrace _ ih =>
    rw [← ih hn]
    have hliteral := nextReference?_literal hc hbrace text
    cases hnext : nextReference? text with
    | none => rw [references_of_none hnext, references_of_none (by rw [hliteral, hnext]; rfl)]
    | some next =>
      obtain ⟨before, name, after⟩ := next
      rw [references_of_some hnext, references_of_some (by rw [hliteral, hnext]; rfl)]
  | reference _ hname _ ih => rw [references_of_some (nextReference?_opening hname _), ih hn]
  | stray => cases hn

/-- What follows the first closing brace, which never tears a reference. -/
theorem after_brace {c : Char} {after : List Char} (h : MadeOf n text names)
    (hdrop : text.dropWhile (· ≠ '\x7d') = c :: after) :
    ∃ n' ≤ n, ∃ names', MadeOf n' after names' := by
  induction h with
  | nil => cases hdrop
  -- The dollars are passed over, and the character may be the closing brace itself.
  | @literal n text names dollars d _ _ htext ih =>
    have hdollars : ∀ x ∈ List.replicate dollars '$', decide (x ≠ '\x7d') = true := by
      intro x hx
      rw [List.eq_of_mem_replicate hx]
      rfl
    rw [List.dropWhile_append_of_pos hdollars] at hdrop
    by_cases hd : d = '\x7d'
    · subst hd
      simp only [ne_eq, decide_not, decide_true, Bool.not_true, Bool.false_eq_true,
        not_false_eq_true, List.dropWhile_cons_of_neg, List.cons.injEq] at hdrop
      exact ⟨n, Nat.le_refl n, names, hdrop.2 ▸ htext⟩
    · rw [List.dropWhile_cons_of_pos (by simpa using hd)] at hdrop
      exact ih hdrop
  -- The name holds no closing brace, so the first one is the one that ends the reference.
  | @reference n text names name hname htext _ =>
    have hpos : ∀ x ∈ '$' :: '\x7b' :: name, decide (x ≠ '\x7d') = true := by
      intro x hx
      refine decide_eq_true fun heq => ?_
      subst heq
      simp [hname] at hx
    rw [← List.cons_append, ← List.cons_append, List.dropWhile_append_of_pos hpos] at hdrop
    simp only [ne_eq, decide_not, decide_true, Bool.not_true, Bool.false_eq_true,
      not_false_eq_true, List.dropWhile_cons_of_neg, List.cons.injEq] at hdrop
    exact ⟨n, Nat.le_refl n, names, hdrop.2 ▸ htext⟩
  -- The stray dollar is passed over, and counts one less than before.
  | @stray n text names _ ih =>
    rw [List.dropWhile_cons_of_pos (by decide)] at hdrop
    obtain ⟨n', hle, hafter⟩ := ih hdrop
    exact ⟨n', Nat.le_succ_of_le hle, hafter⟩

/-- **One replacement** takes the first name away and puts those of its value in its place, unless
it takes away a stray dollar. -/
theorem replace {before after v : List Char} {name : String} {valueNames : List String}
    (h : MadeOf n text names) (hnext : nextReference? text = some (before, name, after))
    (hvalue : MadeOf 0 v valueNames) :
    (∃ rest, names = name :: rest ∧ MadeOf n (before ++ v ++ after) (valueNames ++ rest)) ∨
      ∃ n' < n, ∃ names', MadeOf n' (before ++ v ++ after) names' := by
  induction h generalizing before with
  | nil => cases hnext
  -- The first reference lies behind the literal text.
  | literal dollars hc hbrace _ ih =>
    rw [nextReference?_literal hc hbrace, Option.map_eq_some_iff] at hnext
    obtain ⟨⟨before', name', after'⟩, hnext', heq⟩ := hnext
    cases heq
    simp only [List.append_assoc, List.cons_append] at ih ⊢
    obtain ⟨rest, rfl, hmade⟩ | ⟨n', hlt, names', hmade⟩ := ih hnext'
    · exact .inl ⟨rest, rfl, .literal dollars hc hbrace hmade⟩
    · exact .inr ⟨n', hlt, names', .literal dollars hc hbrace hmade⟩
  -- The reference in front is the first, and its name is the head of the names.
  | reference _ hname htext _ =>
    rw [nextReference?_opening hname] at hnext
    cases hnext
    have hmade := hvalue.append htext
    rw [Nat.zero_add] at hmade
    exact .inl ⟨_, rfl, hmade⟩
  | @stray n text names htext ih =>
    by_cases hopening : text.head? = some '\x7b'
    · -- The dollar opens a reference, which ends at the first closing brace.
      obtain ⟨inside, rfl⟩ := List.head?_eq_some_iff.1 hopening
      unfold nextReference? at hnext
      simp only [cutAtOpening, Option.bind_eq_bind, Option.bind_some] at hnext
      split at hnext
      · cases hnext
        rename_i c hdrop
        obtain ⟨n', hle, names', hafter⟩ :=
          htext.after_brace ((List.dropWhile_cons_of_pos (by decide)).trans hdrop)
        have hmade := hvalue.append hafter
        rw [Nat.zero_add] at hmade
        exact .inr ⟨n', Nat.lt_succ_of_le hle, _, hmade⟩
      · cases hnext
    -- The dollar opens nothing, and the first reference lies behind it.
    · rw [nextReference?_cons (.inr hopening), Option.map_eq_some_iff] at hnext
      obtain ⟨⟨before', name', after'⟩, hnext', heq⟩ := hnext
      cases heq
      simp only [List.cons_append]
      obtain ⟨rest, rfl, hmade⟩ | ⟨n', hlt, names', hmade⟩ := ih hnext'
      · exact .inl ⟨rest, rfl, .stray hmade⟩
      · exact .inr ⟨n' + 1, Nat.succ_lt_succ hlt, names', .stray hmade⟩

end MadeOf

/-! ### When the replacements end -/

section Ends

variable {value : String → List Char} (htidy : ∀ name, Tidy (value name))

include htidy

/-- **Replacements end** if no name starts an endless chain of references, once they do for texts
with fewer stray dollars. -/
theorem MadeOf.ends {n : ℕ} {text : List Char} {names : List String} (h : MadeOf n text names)
    (hnames : ∀ name ∈ names, Acc (Refers value) name)
    (hfewer : ∀ n' < n, ∀ text names, MadeOf n' text names → Ends value text) :
    Ends value text := by
  -- The names before the others are replaced first, with all that their values bring in.
  have hcons (name : String) (hacc : Acc (Refers value) name) :
      ∀ rest, (∀ text, MadeOf n text rest → Ends value text) →
        ∀ text, MadeOf n text (name :: rest) → Ends value text := by
    induction hacc with
    | intro name _ ih =>
      intro rest hrest text htext
      cases hnext : nextReference? text with
      | none => exact ⟨text, .done hnext⟩
      | some next =>
        obtain ⟨before, name', after⟩ := next
        obtain ⟨valueNames, hvalue⟩ := htidy name'
        refine .replaced hnext ?_
        obtain ⟨rest', heq, hmade⟩ | ⟨n', hlt, names', hmade⟩ := htext.replace hnext hvalue
        · obtain ⟨rfl, rfl⟩ := List.cons.inj heq
          have hprefix (first : List String) (hfirst : ∀ b ∈ first, Refers value b name) :
              ∀ text, MadeOf n text (first ++ rest) → Ends value text := by
            induction first with
            | nil => exact hrest
            | cons b first ihfirst =>
              rw [List.forall_mem_cons] at hfirst
              exact ih b hfirst.1 (first ++ rest) (ihfirst hfirst.2)
          refine hprefix valueNames (fun b hb => ?_) _ hmade
          rw [Refers, hvalue.references_eq]
          exact hb
        · exact hfewer n' hlt _ _ hmade
  induction names generalizing text with
  | nil =>
    cases hnext : nextReference? text with
    | none => exact ⟨text, .done hnext⟩
    | some next =>
      obtain ⟨before, name, after⟩ := next
      obtain ⟨valueNames, hvalue⟩ := htidy name
      obtain ⟨_, heq, _⟩ | ⟨n', hlt, names', hmade⟩ := h.replace hnext hvalue
      · cases heq
      · exact .replaced hnext (hfewer n' hlt _ _ hmade)
  | cons name rest ih =>
    rw [List.forall_mem_cons] at hnames
    exact hcons name hnames.1 rest (fun text htext => ih htext hnames.2) text h

/-- A name whose replacement ends starts no endless chain of references. -/
theorem Expands.acc {text result : List Char} (h : Expands value text result) {names : List String}
    (htext : MadeOf 0 text names) : ∀ name ∈ names, Acc (Refers value) name := by
  induction h generalizing names with
  -- A text without references has no names.
  | done hnone =>
    rw [← htext.references_eq, references_of_none hnone]
    exact fun _ hmem => absurd hmem List.not_mem_nil
  -- A text without strays is replaced at the head of its names, and the value adds its own.
  | @replaced text before after result name hnext _ ih =>
    obtain ⟨valueNames, hvalue⟩ := htidy name
    obtain ⟨rest, rfl, hmade⟩ | ⟨_, hlt, _⟩ := htext.replace hnext hvalue
    · rw [List.forall_mem_cons]
      have hall := List.forall_mem_append.1 (ih hmade)
      refine ⟨.intro name fun b hb => hall.1 b ?_, hall.2⟩
      rwa [Refers, hvalue.references_eq] at hb
    · exact absurd hlt (Nat.not_lt_zero _)

/-- **Replacements in a tidy text** end exactly if none of its references starts an endless chain.
-/
theorem ends_iff_acc {text : List Char} (h : Tidy text) :
    Ends value text ↔ ∀ name ∈ references text, Acc (Refers value) name := by
  obtain ⟨names, htext⟩ := h
  rw [htext.references_eq]
  constructor
  -- Expanding the text meets every name, and then every name of its value.
  · rintro ⟨result, hresult⟩
    exact hresult.acc htidy htext
  · intro hnames
    exact htext.ends htidy hnames fun _ hlt => absurd hlt (Nat.not_lt_zero _)

/-- **Replacements end in every text** exactly if there are no endless chains of references. -/
theorem forall_ends_iff_wellFounded :
    (∀ text, Ends value text) ↔ WellFounded (Refers value) := by
  constructor
  -- The value of a name is itself a text that the rounds end on.
  · intro hends
    refine ⟨fun name => .intro name fun b hb => ?_⟩
    exact (ends_iff_acc htidy (htidy name)).1 (hends _) b hb
  · intro hwf text
    -- By strong induction on the strays of the text, for a replacement may use some up.
    obtain ⟨n, htext⟩ := MadeOf.exists_strays text
    generalize ([] : List String) = names at htext
    induction n using Nat.strongRecOn generalizing text names with
    | ind n ih =>
      exact htext.ends htidy (fun name _ => hwf.apply name) fun n' hlt text names h =>
        ih n' hlt text names h

end Ends

end Scoresheet.Settings
