import Mathlib.Algebra.Ring.Nat
import Mathlib.Data.List.Nodup
import Mathlib.Data.List.Perm.Basic
import Scoresheet.Index

/-!
# Indexes and their entries

An index is told by its entries, in whatever order they are given, and by the values that are found
in it.

* `Index.perm_alterEntries` — a key that is new comes to the other entries.
* `Index.ofList_eq_of_perm` — the index of an index's entries in any order is the index.
* `Index.sum_alterEntries`, `Index.sum_foldl` — what a change, and a pass of changes, does to the
  sum over all values.
* `Index.find?_eq_some_iff` — the values that are found are those of the entries.
* `Index.find?_alter_self`, `Index.find?_alter_of_ne` — a change is seen at its key only.
* `Index.find?_foldl_alter` — changes at different keys are seen each at its key.
* `Index.pairwise_keys`, `Index.mem_keys_iff` — the keys ascend, and are those that have values.
* `Index.find?_foldl_insert`, `Index.find?_foldl_insertNew` — of entries with one key the last
  counts, and a value for keys that have none is found under those only.
* `Index.find?_foldl`, `Index.mem_keys_foldl`, `Index.map_foldl_change` — what a pass over a list
  leaves under one key.
* `Index.ext_find?` — an index is told by what is found in it.
-/

namespace Scoresheet.Index

variable {κ ν : Type} [Ord κ] [Std.TransOrd κ] [Std.LawfulEqOrd κ]

omit [Std.TransOrd κ] in
/-- **A new key** comes to the other entries. -/
theorem perm_alterEntries {key : κ} (change : Option ν → ν) {entries : List (κ × ν)}
    (h : key ∉ entries.map Prod.fst) :
    (alterEntries key change entries).Perm ((key, change none) :: entries) := by
  -- By induction on the entries. The key is new, so that no entry has it.
  induction entries with
  | nil => exact .refl _
  | cons head rest ih =>
    obtain ⟨k, v⟩ := head
    rw [List.map_cons, List.mem_cons, not_or] at h
    unfold alterEntries
    split
    · exact .refl _
    · exact absurd (Std.LawfulEqCmp.eq_of_compare ‹_›) h.1
    · exact ((ih h.2).cons _).trans (.swap ..)

/-- Entries with different new keys, put into an index one after the other. -/
theorem perm_foldl_insert {entries : List (κ × ν)} (index : Index κ ν)
    (h : (index.entries.map Prod.fst ++ entries.map Prod.fst).Nodup) :
    (entries.foldl (fun index entry => index.insert entry.1 entry.2) index).entries.Perm
      (index.entries ++ entries) := by
  -- By induction on the entries still to be inserted, none of which has a key that is there.
  induction entries generalizing index with
  | nil => simp
  | cons entry rest ih =>
    obtain ⟨key, value⟩ := entry
    rw [List.map_cons, List.perm_middle.nodup_iff] at h
    obtain ⟨hnew, hrest⟩ := List.nodup_cons.1 h
    have hperm : (index.insert key value).entries.Perm ((key, value) :: index.entries) :=
      perm_alterEntries _ fun hkey => hnew (List.mem_append_left _ hkey)
    have hnodup : ((index.insert key value).entries.map Prod.fst ++ rest.map Prod.fst).Nodup :=
      (((hperm.map Prod.fst).append_right _).nodup_iff).2 h
    exact (ih _ hnodup).trans ((hperm.append_right rest).trans List.perm_middle.symm)

omit [Std.LawfulEqOrd κ] in
/-- The keys of an index differ. -/
theorem nodup_keys (index : Index κ ν) : (index.entries.map Prod.fst).Nodup := by
  rw [List.Nodup, List.pairwise_map]
  refine index.ascending.imp fun {a b} hlt heq => ?_
  rw [heq] at hlt
  exact absurd hlt (Std.OrientedCmp.not_lt_of_lt hlt)

/-- **The index of an index's entries,** in any order, is the index. -/
theorem ofList_eq_of_perm {index : Index κ ν} {entries : List (κ × ν)}
    (h : entries.Perm index.entries) : ofList entries = index := by
  have hnodup : (entries.map Prod.fst).Nodup := (h.map _).nodup_iff.2 index.nodup_keys
  have hperm : (ofList entries).entries.Perm index.entries :=
    (perm_foldl_insert empty hnodup).trans h
  refine ext (hperm.eq_of_pairwise (fun a b _ _ hab hba => ?_) (ofList entries).ascending
    index.ascending)
  exact absurd hba (Std.OrientedCmp.not_lt_of_lt hab)

omit [Std.TransOrd κ] [Std.LawfulEqOrd κ] in
/-- **A change that adds** to the measure of a value adds as much to the sum over all values. -/
theorem sum_alterEntries {key : κ} {change : Option ν → ν} {measure : ν → ℕ} {amount : ℕ}
    (h : ∀ old, measure (change old) = old.elim 0 measure + amount) (entries : List (κ × ν)) :
    ((alterEntries key change entries).map fun e => measure e.2).sum
      = (entries.map fun e => measure e.2).sum + amount := by
  -- By induction on the entries: one of them is changed, or one is new.
  induction entries with
  | nil => simp [alterEntries, h]
  | cons head rest ih =>
    obtain ⟨k, v⟩ := head
    unfold alterEntries
    split
    · simp only [List.map_cons, List.sum_cons, h, Option.elim_none]
      omega
    · simp only [List.map_cons, List.sum_cons, h, Option.elim_some]
      omega
    · simp only [List.map_cons, List.sum_cons, ih]
      omega

omit [Std.TransOrd κ] [Std.LawfulEqOrd κ] in
/-- **A pass over a list** in which some elements add one to the sum over all values leaves their
number. -/
theorem sum_foldl {α : Type} {step : Index κ ν → α → Index κ ν} {measure : ν → ℕ} {p : α → Bool}
    (h : ∀ index a, ((step index a).entries.map fun e => measure e.2).sum
      = (index.entries.map fun e => measure e.2).sum + if p a then 1 else 0) (l : List α) :
    ((l.foldl step ∅).entries.map fun e => measure e.2).sum = l.countP p := by
  -- The fold may start from any index.
  have hpass (index : Index κ ν) : ((l.foldl step index).entries.map fun e => measure e.2).sum
      = (index.entries.map fun e => measure e.2).sum + l.countP p := by
    induction l generalizing index with
    | nil => rfl
    | cons a rest ih =>
      rw [List.foldl_cons, ih, h, List.countP_cons]
      omega
  rw [hpass]
  exact Nat.zero_add _

/-! ### Values found -/

section Find

omit [Std.TransOrd κ] [Std.LawfulEqOrd κ] in
theorem find?_empty (key : κ) : (∅ : Index κ ν).find? key = none := rfl

omit [Std.TransOrd κ] in
/-- What is found under a key is an entry. -/
theorem mem_entries_of_find? {index : Index κ ν} {key : κ} {value : ν}
    (h : index.find? key = some value) : (key, value) ∈ index.entries := by
  obtain ⟨⟨k, v⟩, hfind, rfl⟩ := Option.map_eq_some_iff.1 h
  have hkey : compare k key = .eq := by simpa using List.find?_some hfind
  obtain rfl := Std.LawfulEqCmp.eq_of_compare hkey
  exact List.mem_of_find?_eq_some hfind

/-- **The values that are found** are those of the entries. -/
theorem find?_eq_some_iff {index : Index κ ν} {key : κ} {value : ν} :
    index.find? key = some value ↔ (key, value) ∈ index.entries := by
  refine ⟨mem_entries_of_find?, fun hmem => ?_⟩
  cases hfind : index.find? key with
  | none =>
    have hnone := List.find?_eq_none.1 (Option.map_eq_none_iff.1 hfind) _ hmem
    simp at hnone
  | some other =>
    have hother := mem_entries_of_find? hfind
    obtain ⟨-, rfl⟩ := Prod.mk.inj
      (List.inj_on_of_nodup_map index.nodup_keys hother hmem rfl)
    rfl

omit [Std.TransOrd κ] in
theorem find?_alterEntries_of_ne {key k : κ} (h : k ≠ key) (change : Option ν → ν)
    (entries : List (κ × ν)) :
    (alterEntries key change entries).find? (fun e => compare e.1 k == .eq)
      = entries.find? fun e => compare e.1 k == .eq := by
  have hkey : (compare key k == .eq) = false := by
    rw [beq_eq_false_iff_ne]
    exact fun heq => h (Std.LawfulEqCmp.eq_of_compare heq).symm
  -- By induction on the entries. Whatever the change does, it does to an entry that is not looked
  -- for.
  induction entries with
  | nil => simp [alterEntries, hkey]
  | cons head rest ih =>
    obtain ⟨k', v⟩ := head
    unfold alterEntries
    split
    · rw [List.find?_cons, hkey]
    · obtain rfl := Std.LawfulEqCmp.eq_of_compare ‹compare key k' = .eq›
      rw [List.find?_cons, List.find?_cons, hkey]
    · rw [List.find?_cons, List.find?_cons, ih]

/-- **A change** leaves the values of other keys. -/
theorem find?_alter_of_ne {key k : κ} (h : k ≠ key) (index : Index κ ν) (change : Option ν → ν) :
    (index.alter key change).find? k = index.find? k :=
  congrArg (Option.map Prod.snd) (find?_alterEntries_of_ne h change index.entries)

theorem find?_alterEntries_self (key : κ) (change : Option ν → ν) {entries : List (κ × ν)}
    (h : Ascending entries) :
    (alterEntries key change entries).find? (fun e => compare e.1 key == .eq)
      = some (key, change ((entries.find? fun e => compare e.1 key == .eq).map Prod.snd)) := by
  -- By induction on the entries, which ascend, so that the key is found where it would be put.
  induction entries with
  | nil => simp [alterEntries]
  | cons head rest ih =>
    obtain ⟨k, v⟩ := head
    obtain ⟨hhead, hrest⟩ := List.pairwise_cons.1 h
    unfold alterEntries
    split
    · -- The key comes before all others, so that it had no value.
      have hlt : compare key k = .lt := ‹_›
      have hnone : ((k, v) :: rest).find? (fun e => compare e.1 key == .eq) = none := by
        refine List.find?_eq_none.2 fun e he heq => ?_
        have hkey := Std.LawfulEqCmp.eq_of_compare (beq_iff_eq.1 heq)
        obtain rfl | he := List.mem_cons.1 he
        · exact Std.OrientedCmp.not_lt_of_lt hlt (hkey ▸ hlt)
        · have hlt' : compare key e.1 = .lt := Std.TransCmp.lt_trans hlt (hhead e he)
          exact Std.OrientedCmp.not_lt_of_lt hlt' (hkey ▸ hlt')
      rw [hnone, List.find?_cons]
      simp
    -- The key is here.
    · obtain rfl := Std.LawfulEqCmp.eq_of_compare ‹compare key k = .eq›
      simp
    -- The key comes later, and so this entry is not the one that is looked for.
    · have hne : (compare k key == .eq) = false := by
        rw [beq_eq_false_iff_ne, Std.OrientedCmp.gt_iff_lt.1 ‹compare key k = .gt›]
        decide
      rw [List.find?_cons, List.find?_cons, hne]
      exact ih hrest

/-- **A change** is made to the value of its key. -/
theorem find?_alter_self (key : κ) (index : Index κ ν) (change : Option ν → ν) :
    (index.alter key change).find? key = some (change (index.find? key)) :=
  congrArg (Option.map Prod.snd) (find?_alterEntries_self key change index.ascending)

/-- **Changes at different keys** are seen each at its key. Some may be left out by their values. -/
theorem find?_foldl_alter {α : Type} (p : α → Bool) (change : α → Option ν → ν)
    {entries : List (κ × α)} (hkeys : (entries.map Prod.fst).Nodup) (index : Index κ ν) (k : κ) :
    (entries.foldl (fun index e => if p e.2 then index.alter e.1 (change e.2) else index)
      index).find? k
      = (((entries.find? fun e => compare e.1 k == .eq).map Prod.snd).filter p).elim
        (index.find? k) fun a => some (change a (index.find? k)) := by
  -- By induction on the entries; keys do not repeat, so that one of them changes the value at the
  -- key.
  induction entries generalizing index with
  | nil => rfl
  | cons head rest ih =>
    obtain ⟨key, a⟩ := head
    obtain ⟨hnew, hrest⟩ := List.nodup_cons.1 hkeys
    rw [List.foldl_cons, ih hrest, List.find?_cons]
    by_cases hkey : key = k
    · -- The key does not come again, so that no later change is seen at it.
      subst hkey
      have hnone : rest.find? (fun e => compare e.1 key == .eq) = none := by
        refine List.find?_eq_none.2 fun e he heq => hnew ?_
        exact List.mem_map.2 ⟨e, he, Std.LawfulEqCmp.eq_of_compare (beq_iff_eq.1 heq)⟩
      simp only [hnone, Std.ReflCmp.compare_self, beq_self_eq_true, Option.map_some,
        Option.map_none, Option.filter_none, Option.filter_some]
      cases hp : p a <;> simp [find?_alter_self]
    -- An entry with another key does not change what is looked for.
    · have hne : (compare key k == .eq) = false := by
        rw [beq_eq_false_iff_ne]
        exact fun heq => hkey (Std.LawfulEqCmp.eq_of_compare heq)
      have hfind : (if p a then index.alter key (change a) else index).find? k
          = index.find? k := by
        split
        · exact find?_alter_of_ne (Ne.symm hkey) index _
        · rfl
      simp only [hne, hfind]

omit [Std.TransOrd κ] [Std.LawfulEqOrd κ] in
/-- The keys of an index ascend. -/
theorem pairwise_keys (index : Index κ ν) : index.keys.Pairwise fun a b => compare a b = .lt :=
  List.pairwise_map.2 index.ascending

/-- The keys are those that a value is found under. -/
theorem mem_keys_iff {index : Index κ ν} {key : κ} :
    key ∈ index.keys ↔ (index.find? key).isSome = true := by
  rw [Option.isSome_iff_exists, keys, List.mem_map]
  constructor
  · rintro ⟨⟨k, value⟩, hmem, rfl⟩
    exact ⟨value, find?_eq_some_iff.2 hmem⟩
  · rintro ⟨value, hfind⟩
    exact ⟨(key, value), find?_eq_some_iff.1 hfind, rfl⟩

/-- **Of entries with one key** the last counts, and all of them before what there was. -/
theorem find?_foldl_insert [DecidableEq κ] (entries : List (κ × ν)) (index : Index κ ν) (key : κ) :
    (entries.foldl (fun index entry => index.insert entry.1 entry.2) index).find? key
      = ((entries.filter fun e => e.1 = key).getLast?.map Prod.snd).or (index.find? key) := by
  -- By induction on the entries: a later value with the key takes the place of an earlier one.
  induction entries generalizing index with
  | nil => rfl
  | cons head rest ih =>
    obtain ⟨k, v⟩ := head
    rw [List.foldl_cons, ih]
    by_cases hkey : k = key
    · subst hkey
      have hfind : (index.insert k v).find? k = some v := find?_alter_self k index _
      rw [hfind, List.filter_cons_of_pos (by simp), List.getLast?_cons]
      cases (rest.filter fun e => e.1 = k).getLast? <;> rfl
    · have hfind : (index.insert k v).find? key = index.find? key :=
        find?_alter_of_ne (Ne.symm hkey) index _
      rw [hfind, List.filter_cons_of_neg (by simpa using hkey)]

/-- **A value for keys that have none** is found under those only. -/
theorem find?_foldl_insertNew [DecidableEq κ] (keys : List κ) (value : ν) (index : Index κ ν)
    (key : κ) :
    (keys.foldl (fun index k => index.insertNew k value) index).find? key
      = (index.find? key).or (if key ∈ keys then some value else none) := by
  -- By induction on the keys: only the first value under a key stays.
  induction keys generalizing index with
  | nil => rw [List.foldl_nil, if_neg List.not_mem_nil, Option.or_none]
  | cons k rest ih =>
    rw [List.foldl_cons, ih]
    by_cases hkey : key = k
    · subst hkey
      have hfind : (index.insertNew key value).find? key = some ((index.find? key).getD value) :=
        find?_alter_self key index _
      rw [hfind, if_pos List.mem_cons_self]
      cases index.find? key <;> rfl
    · have hfind : (index.insertNew k value).find? key = index.find? key :=
        find?_alter_of_ne hkey index _
      rw [hfind]
      simp [hkey]

/-! ### A pass over a list, seen at one key -/

omit [Std.TransOrd κ] [Std.LawfulEqOrd κ] in
/-- **What a pass leaves under a key** is made by those of its steps that concern the key. -/
theorem find?_foldl {α β : Type} {step : Index κ ν → β → Index κ ν} {key : κ}
    {pick : β → Option α} {change : α → Option ν → ν}
    (h : ∀ index b, (step index b).find? key
      = (pick b).elim (index.find? key) fun a => some (change a (index.find? key)))
    (list : List β) (index : Index κ ν) :
    (list.foldl step index).find? key
      = (list.filterMap pick).foldl (fun old a => some (change a old)) (index.find? key) := by
  induction list generalizing index with
  | nil => rfl
  | cons b rest ih =>
    rw [List.foldl_cons, ih, h]
    cases hpick : pick b <;> simp [hpick]

/-- **A measure that every change adds to** comes to the sum of what they add, if there are any. -/
theorem map_foldl_change {α : Type} {change : α → Option ν → ν} {measure : ν → ℕ} {amount : α → ℕ}
    (h : ∀ a old, measure (change a old) = old.elim 0 measure + amount a) (list : List α) :
    (list.foldl (fun old a => some (change a old)) none).map measure
      = if list = [] then none else some (list.map amount).sum := by
  -- Once there is a value, every element adds its amount to it.
  have hsome (list : List α) (value : ν) :
      (list.foldl (fun old a => some (change a old)) (some value)).map measure
        = some (measure value + (list.map amount).sum) := by
    induction list generalizing value with
    | nil => rfl
    | cons a rest ih =>
      rw [List.foldl_cons, ih, h, List.map_cons, List.sum_cons, Nat.add_assoc]
      rfl
  cases list with
  | nil => rfl
  | cons a rest =>
    rw [List.foldl_cons, hsome, h, if_neg (List.cons_ne_nil a rest), Option.elim_none, Nat.zero_add]
    rfl

/-- The keys that a pass leaves are those that some of its steps concern. -/
theorem mem_keys_foldl {α β : Type} {step : Index κ ν → β → Index κ ν} {key : κ}
    {pick : β → Option α} {change : α → Option ν → ν}
    (h : ∀ index b, (step index b).find? key
      = (pick b).elim (index.find? key) fun a => some (change a (index.find? key)))
    (list : List β) :
    key ∈ (list.foldl step ∅).keys ↔ ∃ b ∈ list, (pick b).isSome = true := by
  have hpicked : key ∈ (list.foldl step ∅).keys ↔ list.filterMap pick ≠ [] := by
    rw [mem_keys_iff, find?_foldl h, find?_empty]
    -- What the last element leaves is a value, whatever was there before.
    obtain hnil | ⟨before, last, hlast⟩ := (list.filterMap pick).eq_nil_or_concat
    · simp [hnil]
    · simp [hlast]
  rw [hpicked]
  simp [List.filterMap_eq_nil_iff, Option.isSome_iff_ne_none]

omit [Std.TransOrd κ] [Std.LawfulEqOrd κ] in
theorem keys_mapValues {μ : Type} (f : ν → μ) (index : Index κ ν) :
    (index.mapValues f).keys = index.keys :=
  List.map_map

omit [Std.TransOrd κ] [Std.LawfulEqOrd κ] in
/-- Values passed through a function are found as they were. -/
theorem find?_mapValues {μ : Type} (f : ν → μ) (index : Index κ ν) (key : κ) :
    (index.mapValues f).find? key = (index.find? key).map f := by
  unfold find? mapValues
  rw [List.find?_map, Option.map_map, Option.map_map]
  rfl

/-- **An index is told by what is found in it.** -/
theorem ext_find? {index index' : Index κ ν} (h : ∀ key, index.find? key = index'.find? key) :
    index = index' := by
  have hnodup (index : Index κ ν) : index.entries.Nodup := index.nodup_keys.of_map
  have hperm : index.entries.Perm index'.entries := by
    rw [List.perm_ext_iff_of_nodup (hnodup index) (hnodup index')]
    rintro ⟨key, value⟩
    rw [← find?_eq_some_iff, ← find?_eq_some_iff, h]
  rw [← ofList_eq_of_perm hperm, ofList_eq_of_perm (.refl _)]

end Find

end Scoresheet.Index
