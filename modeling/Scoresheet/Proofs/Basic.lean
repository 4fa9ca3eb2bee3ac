import Mathlib.Data.List.Forall2
import Mathlib.Data.List.Nodup

/-!
# Chains of computations and look-ups

What the parts of this development share about computations that may fail and about lists of pairs.

* `bind_eq_ok_iff`, `bind_eq_error_iff`, `map_eq_ok_iff`, `exists_eq_error` — how a chain of
  computations comes out.
* `mapM_eq_ok_iff`, `exists_of_mapM_eq_error` — how a computation for each element of a list does.
* `mem_of_lookup_eq_some`, `lookup_cons_eq_ite`, `lookup_eq_some_of_mem` — what is looked up is in
  the list, at its head or behind it, and what is in a list without repeated keys is found.
* `forall₂_imp_of_mem`, `forall₂_and_right`, `forall_mem_of_forall₂`, `forall₂_trans`,
  `eq_of_forall₂`, `exists_forall₂_of_append_cons` — related lists: in another way, with what is
  known of the second, the second by itself, through a third, two with one, and one split at an
  element.
* `pairwise_mergeSort_key`, `eq_mergeSort_key_of_perm`, `mergeSort_key_eq_of_perm` — a list sorted
  by a key is in order, and it is the only one in order if no two elements have the same key.
* `takeWhile_append_of_stop`, `dropWhile_append_of_stop` — a run of a class is split off where what
  follows it is not of the class.
-/

namespace Scoresheet

variable {ε α β : Type} {x : Except ε α} {f : α → Except ε β}

/-- A chain of two computations succeeds if both do. -/
theorem bind_eq_ok_iff {b : β} : x >>= f = .ok b ↔ ∃ a, x = .ok a ∧ f a = .ok b := by
  cases x <;> simp [bind, Except.bind]

/-- What fails in a chain of two computations is the first or the second. -/
theorem bind_eq_error_iff {e : ε} :
    x >>= f = .error e ↔ x = .error e ∨ ∃ a, x = .ok a ∧ f a = .error e := by
  cases x <;> simp [bind, Except.bind]

/-- A chain of computations that checks a condition first succeeds if it does not apply and the rest
succeeds. -/
theorem of_unless_throw {c : Prop} [Decidable c] {e : ε} {rest : Except ε β} {b : β}
    (h : (if c then (throw e : Except ε α) >>= f else rest) = .ok b) : ¬ c ∧ rest = .ok b := by
  split at h
  next => cases h
  next not => exact ⟨not, h⟩

@[simp] theorem map_ok (g : α → β) (a : α) : (Except.ok a : Except ε α).map g = .ok (g a) := rfl

theorem map_eq_ok_iff {g : α → β} {b : β} : x.map g = .ok b ↔ ∃ a, x = .ok a ∧ g a = b := by
  cases x <;> simp [Except.map]

theorem map_eq_error_iff {g : α → β} {e : ε} : x.map g = .error e ↔ x = .error e := by
  cases x <;> simp [Except.map]

theorem mapError_eq_ok_iff {ε' : Type} {g : ε → ε'} {a : α} : x.mapError g = .ok a ↔ x = .ok a := by
  cases x <;> simp [Except.mapError]

theorem mapError_eq_error_iff {ε' : Type} {g : ε → ε'} {e' : ε'} :
    x.mapError g = .error e' ↔ ∃ e, x = .error e ∧ g e = e' := by
  cases x <;> simp [Except.mapError]

theorem toOption_eq_some_iff {a : α} : x.toOption = some a ↔ x = .ok a := by
  cases x <;> simp [Except.toOption]

/-- What does not succeed fails. -/
theorem exists_eq_error (h : ∀ a, x ≠ .ok a) : ∃ e, x = .error e := by
  cases x with
  | error e => exact ⟨e, rfl⟩
  | ok a => exact absurd rfl (h a)

/-- A computation for each element of a list succeeds if it does for every one. -/
theorem mapM_eq_ok_iff {as : List α} {bs : List β} :
    as.mapM f = .ok bs ↔ List.Forall₂ (fun a b => f a = .ok b) as bs := by
  -- By induction on the list, of which each element has its result.
  induction as generalizing bs with
  | nil =>
    rw [List.mapM_nil, List.forall₂_nil_left_iff]
    exact ⟨fun h => (Except.ok.inj h).symm, fun h => by rw [h]; rfl⟩
  | cons a as ih =>
    rw [List.mapM_cons, List.forall₂_cons_left_iff, bind_eq_ok_iff]
    constructor
    · rintro ⟨b, hfirst, h⟩
      obtain ⟨bs', hrest, h⟩ := bind_eq_ok_iff.1 h
      exact ⟨b, bs', hfirst, ih.1 hrest, (Except.ok.inj h).symm⟩
    · rintro ⟨b, bs', hfirst, hrest, rfl⟩
      exact ⟨b, hfirst, bind_eq_ok_iff.2 ⟨bs', ih.2 hrest, rfl⟩⟩

/-- If it fails, it does for one of them. -/
theorem exists_of_mapM_eq_error {as : List α} {e : ε} (h : as.mapM f = .error e) :
    ∃ a ∈ as, f a = .error e := by
  -- The first element fails, or one of the others does.
  induction as with
  | nil => cases h
  | cons a as ih =>
    rw [List.mapM_cons, bind_eq_error_iff] at h
    obtain hfirst | ⟨b, -, h⟩ := h
    · exact ⟨a, List.mem_cons_self, hfirst⟩
    · obtain hrest | ⟨bs, -, h⟩ := bind_eq_error_iff.1 h
      · obtain ⟨a', hmem, hfound⟩ := ih hrest
        exact ⟨a', List.mem_cons_of_mem _ hmem, hfound⟩
      · cases h

theorem mem_of_lookup_eq_some [BEq α] [LawfulBEq α] {a : α} {b : β} {entries : List (α × β)}
    (h : entries.lookup a = some b) : (a, b) ∈ entries := by
  obtain ⟨before, after, rfl, -⟩ := List.lookup_eq_some_iff.1 h
  exact List.mem_append_right before List.mem_cons_self

theorem lookup_eq_none_iff_not_mem [BEq α] [LawfulBEq α] {a : α} {entries : List (α × β)} :
    entries.lookup a = none ↔ a ∉ entries.map Prod.fst := by
  rw [List.lookup_eq_none_iff, List.mem_map]
  constructor
  · rintro h ⟨entry, hentry, rfl⟩
    simpa using h entry hentry
  · intro h entry hentry
    rw [bne_iff_ne]
    rintro rfl
    exact h ⟨entry, hentry, rfl⟩

/-- What is looked up is under the first key, or behind it. -/
theorem lookup_cons_eq_ite [BEq α] [LawfulBEq α] [DecidableEq α] (a key : α) (b : β)
    (rest : List (α × β)) :
    ((key, b) :: rest).lookup a = if a = key then some b else rest.lookup a := by
  rw [List.lookup_cons]
  by_cases h : a = key
  · simp [h]
  · simp [h, beq_eq_false_iff_ne.2 h]

/-- What is under a key is found, if nothing else is under it. -/
theorem lookup_eq_some_of_mem [BEq α] [LawfulBEq α] {a : α} {b : β} {entries : List (α × β)}
    (hnodup : (entries.map Prod.fst).Nodup) (hmem : (a, b) ∈ entries) :
    entries.lookup a = some b := by
  obtain ⟨b', hfound⟩ : ∃ b', entries.lookup a = some b' := by
    rw [← Option.ne_none_iff_exists', ne_eq, lookup_eq_none_iff_not_mem, not_not]
    exact List.mem_map.2 ⟨_, hmem, rfl⟩
  have hentry : (a, b') = (a, b) :=
    List.inj_on_of_nodup_map hnodup (mem_of_lookup_eq_some hfound) hmem rfl
  rw [hfound, (Prod.mk.inj hentry).2]

/-- Related lists are related in another way, if that holds of the elements of the first. -/
theorem forall₂_imp_of_mem {R S : α → β → Prop} {as : List α} {bs : List β}
    (h : List.Forall₂ R as bs) (himp : ∀ a ∈ as, ∀ b, R a b → S a b) : List.Forall₂ S as bs :=
  ((List.forall₂_and_left _ _).2 ⟨himp, h⟩).imp fun _ b h => h.1 b h.2

/-- What is known of all elements of the second list may be put into the relation. -/
theorem forall₂_and_right {R : α → β → Prop} {P : β → Prop} {as : List α} {bs : List β}
    (h : List.Forall₂ R as bs) (hP : ∀ b ∈ bs, P b) :
    List.Forall₂ (fun a b => R a b ∧ P b) as bs :=
  (forall₂_imp_of_mem h.flip fun b hb _ hab => ⟨hab, hP b hb⟩).flip

/-- What is related to the elements of a list has a property, if what is related to any of them has
it. -/
theorem forall_mem_of_forall₂ {R : α → β → Prop} {P : β → Prop} {as : List α} {bs : List β}
    (h : List.Forall₂ R as bs) (hP : ∀ a ∈ as, ∀ b, R a b → P b) : ∀ b ∈ bs, P b := by
  induction h with
  | nil => exact fun _ hb => nomatch hb
  | cons hhead _ ih =>
    obtain ⟨hfirst, hrest⟩ := List.forall_mem_cons.1 hP
    exact List.forall_mem_cons.2 ⟨hfirst _ hhead, ih hrest⟩

/-- Lists that are related through a third one are related, if their elements are. -/
theorem forall₂_trans {γ : Type} {R : α → β → Prop} {S : β → γ → Prop} {T : α → γ → Prop}
    {as : List α} {bs : List β} {cs : List γ} (h : List.Forall₂ R as bs)
    (h' : List.Forall₂ S bs cs) (htrans : ∀ a ∈ as, ∀ b c, R a b → S b c → T a c) :
    List.Forall₂ T as cs := by
  induction h generalizing cs with
  | nil =>
    cases h'
    exact .nil
  | cons hhead _ ih =>
    obtain ⟨hfirst, hrest⟩ := List.forall_mem_cons.1 htrans
    cases h' with
    | cons hhead' htail' => exact .cons (hfirst _ _ hhead hhead') (ih htail' hrest)

/-- Lists that are related to one list are the same, if their elements are. -/
theorem eq_of_forall₂ {R S : α → β → Prop} {as as' : List α} {bs : List β}
    (h : List.Forall₂ R as bs) (h' : List.Forall₂ S as' bs)
    (heq : ∀ a ∈ as, ∀ a' b, R a b → S a' b → a = a') : as = as' := by
  have hall : List.Forall₂ Eq as as' :=
    forall₂_trans h h'.flip fun a ha b a' hab ha'b => heq a ha a' b hab ha'b
  rwa [List.forall₂_eq_eq_eq] at hall

/-- What is related to a list with an element picked out has a counterpart of the element. -/
theorem exists_forall₂_of_append_cons {R : α → β → Prop} {before after : List α} {a : α}
    {bs : List β} (h : List.Forall₂ R (before ++ a :: after) bs) :
    ∃ first b second, bs = first ++ b :: second ∧ List.Forall₂ R before first ∧ R a b ∧
      List.Forall₂ R after second := by
  induction before generalizing bs with
  | nil =>
    obtain ⟨b, second, hab, hafter, rfl⟩ := List.forall₂_cons_left_iff.1 h
    exact ⟨[], b, second, rfl, .nil, hab, hafter⟩
  | cons a' before ih =>
    obtain ⟨b', rest, hab', hrest, rfl⟩ := List.forall₂_cons_left_iff.1 h
    obtain ⟨first, b, second, rfl, hbefore, hab, hafter⟩ := ih hrest
    exact ⟨b' :: first, b, second, rfl, .cons hab' hbefore, hab, hafter⟩

section Sorting

variable {κ : Type} [LE κ] [DecidableLE κ] [Std.IsLinearOrder κ] (key : α → κ)

theorem pairwise_mergeSort_key (l : List α) :
    (l.mergeSort fun a b => key a ≤ key b).Pairwise fun a b => key a ≤ key b := by
  have htrans : ∀ a b c : α, decide (key a ≤ key b) = true → decide (key b ≤ key c) = true →
      decide (key a ≤ key c) = true := by
    intro a b c hab hbc
    simp only [decide_eq_true_eq] at hab hbc ⊢
    exact Std.le_trans hab hbc
  have htotal : ∀ a b : α, (decide (key a ≤ key b) || decide (key b ≤ key a)) = true := by
    -- The order of the keys is total, so that the sort is by it.
    intro a b
    simpa using Std.le_total (a := key a) (b := key b)
  simpa using List.pairwise_mergeSort htrans htotal l

/-- A list in order of the keys is what sorting makes of its elements in any order, if no two of
them have the same key. -/
theorem eq_mergeSort_key_of_perm {l sorted : List α} (h : sorted.Perm l)
    (hkeys : (l.map key).Nodup) (hsorted : sorted.Pairwise fun a b => key a ≤ key b) :
    sorted = l.mergeSort fun a b => key a ≤ key b := by
  refine List.Perm.eq_of_pairwise ?_ hsorted (pairwise_mergeSort_key key l)
    (h.trans (List.mergeSort_perm l _).symm)
  intro a b ha hb hab hba
  -- Two elements that neither precedes have one key, and that makes them one element.
  exact List.inj_on_of_nodup_map hkeys (h.mem_iff.1 ha) (List.mem_mergeSort.1 hb)
    (Std.le_antisymm hab hba)

/-- Sorting forgets the order, if no two elements have the same key. -/
theorem mergeSort_key_eq_of_perm {l l' : List α} (h : l.Perm l') (hkeys : (l.map key).Nodup) :
    (l.mergeSort fun a b => key a ≤ key b) = l'.mergeSort fun a b => key a ≤ key b :=
  eq_mergeSort_key_of_perm key ((List.mergeSort_perm l _).trans h)
    ((h.map key).nodup_iff.1 hkeys) (pairwise_mergeSort_key key l)

end Sorting

section Runs

variable {p : α → Bool} {run rest : List α} (hrun : ∀ a ∈ run, p a = true)
  (hrest : ∀ a ∈ rest.head?, p a = false)

include hrun hrest

theorem takeWhile_append_of_stop : (run ++ rest).takeWhile p = run := by
  have hstop : rest.takeWhile p = [] := by
    cases rest with
    | nil => rfl
    | cons a rest => simp [hrest a rfl]
  rw [List.takeWhile_append_of_pos hrun, hstop, List.append_nil]

theorem dropWhile_append_of_stop : (run ++ rest).dropWhile p = rest := by
  rw [List.dropWhile_append_of_pos hrun]
  cases rest with
  | nil => rfl
  | cons a rest => simp [hrest a rfl]

end Runs

end Scoresheet
