/-!
# Indexes

An index assigns values to keys and lists its entries in ascending key order, each key once. Since
the order is part of the type, two indexes with the same entries are equal.

* `Index.alter` — a key's value changed, or given to it for the first time.
* `Index.ofList` — the index of a list of entries, where a later entry counts before an earlier one.
* `Index.find?` — the value of a key.
-/

namespace Scoresheet

variable {κ ν : Type}

/-- Whether the keys of a list of entries ascend. -/
def Ascending [Ord κ] (entries : List (κ × ν)) : Prop :=
  entries.Pairwise fun a b => compare a.1 b.1 = .lt

/-- Values by key, in ascending key order. -/
structure Index (κ ν : Type) [Ord κ] where
  entries : List (κ × ν)
  ascending : Ascending entries

namespace Index

variable [Ord κ]

/-- The index without entries. -/
def empty : Index κ ν := ⟨[], List.Pairwise.nil⟩

instance : EmptyCollection (Index κ ν) := ⟨empty⟩

instance : Inhabited (Index κ ν) := ⟨empty⟩

instance [BEq κ] [BEq ν] : BEq (Index κ ν) := ⟨fun a b => a.entries == b.entries⟩

@[ext] theorem ext {a b : Index κ ν} (h : a.entries = b.entries) : a = b := by
  cases a; cases b; cases h; rfl

/-- The entries with the value of a key changed, or put in its place for the first time. -/
def alterEntries (key : κ) (change : Option ν → ν) : List (κ × ν) → List (κ × ν)
  | [] => [(key, change none)]
  | (k, v) :: rest =>
    match compare key k with
    | .lt => (key, change none) :: (k, v) :: rest
    | .eq => (k, change (some v)) :: rest
    | .gt => (k, v) :: alterEntries key change rest

/-- The keys after a change are the key and those before. -/
theorem mem_alterEntries_key {key : κ} {change : Option ν → ν} {entries : List (κ × ν)} {e : κ × ν}
    (h : e ∈ alterEntries key change entries) : e.1 = key ∨ ∃ e' ∈ entries, e'.1 = e.1 := by
  induction entries with
  | nil =>
    simp only [alterEntries, List.mem_singleton] at h
    exact .inl (by rw [h])
  | cons head rest ih =>
    obtain ⟨k, v⟩ := head
    unfold alterEntries at h
    split at h
    · rcases List.mem_cons.1 h with h | h
      · exact .inl (by rw [h])
      · exact .inr ⟨e, h, rfl⟩
    · rcases List.mem_cons.1 h with h | h
      · exact .inr ⟨(k, v), List.mem_cons_self .., by rw [h]⟩
      · exact .inr ⟨e, List.mem_cons_of_mem _ h, rfl⟩
    · rcases List.mem_cons.1 h with h | h
      · exact .inr ⟨(k, v), List.mem_cons_self .., by rw [h]⟩
      · rcases ih h with h | ⟨e', he', hk⟩
        · exact .inl h
        · exact .inr ⟨e', List.mem_cons_of_mem _ he', hk⟩

/-- A change keeps the keys ascending. -/
theorem ascending_alterEntries [Std.TransOrd κ] [Std.LawfulEqOrd κ] (key : κ)
    (change : Option ν → ν) {entries : List (κ × ν)} (h : Ascending entries) :
    Ascending (alterEntries key change entries) := by
  induction entries with
  | nil => exact List.pairwise_singleton ..
  | cons head rest ih =>
    obtain ⟨k, v⟩ := head
    have hrest : Ascending rest := (List.pairwise_cons.1 h).2
    have hhead := (List.pairwise_cons.1 h).1
    unfold alterEntries
    split
    · rename_i hlt
      refine List.pairwise_cons.2 ⟨?_, h⟩
      intro e he
      rcases List.mem_cons.1 he with he | he
      · rw [he]; exact hlt
      · exact Std.TransCmp.lt_trans hlt (hhead e he)
    · exact List.pairwise_cons.2 ⟨hhead, hrest⟩
    · rename_i hgt
      refine List.pairwise_cons.2 ⟨?_, ih hrest⟩
      intro e he
      rcases mem_alterEntries_key he with hk | ⟨e', he', hk⟩
      · rw [hk]; exact Std.OrientedCmp.gt_iff_lt.1 hgt
      · rw [← hk]; exact hhead e' he'

variable [Std.TransOrd κ] [Std.LawfulEqOrd κ]

/-- **The value of a key changed,** or given to it for the first time. -/
def alter (index : Index κ ν) (key : κ) (change : Option ν → ν) : Index κ ν :=
  ⟨alterEntries key change index.entries, ascending_alterEntries key change index.ascending⟩

/-- A value put under a key, in place of the key's value if it has one. -/
def insert (index : Index κ ν) (key : κ) (value : ν) : Index κ ν :=
  index.alter key fun _ => value

/-- A value put under a key that has none. -/
def insertNew (index : Index κ ν) (key : κ) (value : ν) : Index κ ν :=
  index.alter key fun old => old.getD value

/-- The index of a list of entries, where a later entry counts before an earlier one. -/
def ofList (entries : List (κ × ν)) : Index κ ν :=
  entries.foldl (fun index entry => index.insert entry.1 entry.2) empty

omit [Std.TransOrd κ] [Std.LawfulEqOrd κ] in
/-- The value of a key. -/
def find? (index : Index κ ν) (key : κ) : Option ν :=
  (index.entries.find? fun entry => compare entry.1 key == .eq).map Prod.snd

omit [Std.TransOrd κ] [Std.LawfulEqOrd κ] in
/-- The keys in ascending order. -/
def keys (index : Index κ ν) : List κ :=
  index.entries.map Prod.fst

omit [Std.TransOrd κ] [Std.LawfulEqOrd κ] in
/-- The index with every value passed through a function. -/
def mapValues {μ : Type} (f : ν → μ) (index : Index κ ν) : Index κ μ :=
  ⟨index.entries.map fun entry => (entry.1, f entry.2), by
    rw [Ascending, List.pairwise_map]; exact index.ascending⟩

end Index

end Scoresheet
