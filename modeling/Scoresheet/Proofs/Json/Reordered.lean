import Scoresheet.Proofs.Json.RoundTrip
import Scoresheet.Proofs.Json.Sorted

/-!
# Values that differ in the order of members

Two texts of one value may list the members of an object in different orders. The values that are
read from them differ in that order and in nothing else, and sorting makes them the same.

* `valuesOf` — the values that the members of an object give to a key, in their order.
* `Value.Reordered` — values that differ in the order of members only.
* `Value.reordered_sorted`, `Value.sorted_eq_iff` — sorting reorders, and what is the same in key
  order has only been reordered.
* `Value.Reordered.storable`, `Value.Reordered.nesting_le`, `Value.Reordered.stands` — what such
  values have in common.

An object may give a key more than one value, the last of which counts. So it is not enough that the
members are the same in some order: the values of each key must come in the same order.
-/

namespace Scoresheet.Json

/-! ### The values of a key -/

/-- The values that members give to a key, in their order. -/
def valuesOf (key : String) (members : List (String × Value)) : List Value :=
  members.filterMap fun member => if member.1 = key then some member.2 else none

theorem mem_valuesOf {key : String} {members : List (String × Value)} {v : Value} :
    v ∈ valuesOf key members ↔ (key, v) ∈ members := by
  simp only [valuesOf, List.mem_filterMap, Option.ite_none_right_eq_some, Option.some.injEq]
  constructor
  · rintro ⟨⟨_, _⟩, hmember, rfl, rfl⟩
    exact hmember
  · exact fun h => ⟨_, h, rfl, rfl⟩

/-- A key has as many values as members. -/
theorem length_valuesOf (key : String) (members : List (String × Value)) :
    (valuesOf key members).length = (members.map Prod.fst).count key := by
  induction members with
  | nil => rfl
  | cons member rest ih =>
    rw [List.map_cons, List.count_cons, ← ih, valuesOf, List.filterMap_cons]
    split_ifs <;> simp_all [valuesOf]

/-- **The keys differ** if none has two values. -/
theorem nodup_keys_iff {members : List (String × Value)} :
    (members.map Prod.fst).Nodup ↔ ∀ key, (valuesOf key members).length ≤ 1 := by
  simp only [List.nodup_iff_count_le_one, length_valuesOf]

/-- Members whose values have been changed, in any order, give to a key the changed value. -/
theorem valuesOf_eq_of_perm {f : Value → Value} {members members' : List (String × Value)}
    (hdistinct : (members.map Prod.fst).Nodup)
    (hperm : members'.Perm (members.map fun m => (m.1, f m.2))) (key : String) :
    valuesOf key members' = (valuesOf key members).map f := by
  have hvalues : (valuesOf key members').Perm ((valuesOf key members).map f) := by
    have hmap : valuesOf key (members.map fun m => (m.1, f m.2))
        = (valuesOf key members).map f := by
      rw [valuesOf, valuesOf, List.filterMap_map, List.map_filterMap]
      refine List.filterMap_congr fun m _ => ?_
      by_cases h : m.1 = key <;> simp [h]
    exact hmap ▸ hperm.filterMap _
  -- There is one value at most.
  have hle := nodup_keys_iff.1 hdistinct key
  cases hvalues' : valuesOf key members with
  | nil => simpa [hvalues'] using hvalues
  | cons v rest =>
    have hrest : rest = [] := by simpa [hvalues'] using hle
    simpa [hvalues', hrest] using hvalues

/-- What is found among members that a member was put into. -/
theorem lookup_insertMember (name key : String) (v : Value) (members : List (String × Value)) :
    (insertMember key v members).lookup name
      = if name = key then some v else members.lookup name := by
  -- By induction on the members, up to the place where the new one goes.
  induction members with
  | nil => exact lookup_cons_eq_ite name key v []
  | cons head rest ih =>
    obtain ⟨key', v'⟩ := head
    unfold insertMember
    split
    · exact lookup_cons_eq_ite ..
    · split
      · -- The member takes the place of the one with its key.
        have heq : key = key' := ‹_›
        subst heq
        rw [lookup_cons_eq_ite, lookup_cons_eq_ite]
        split <;> rfl
      -- The new member goes further back, and the one in front has another key.
      · have hne : key ≠ key' := ‹_›
        rw [lookup_cons_eq_ite, lookup_cons_eq_ite, ih]
        by_cases hname : name = key
        · subst hname
          rw [if_neg hne, if_pos rfl, if_pos rfl]
        · rw [if_neg hname, if_neg hname]

/-- **The last value of a key** is the one that the sorted members give to it. -/
theorem lookup_sortedMembers (name : String) (before members : List (String × Value)) :
    (sortedMembers before members).lookup name
      = ((valuesOf name members).map Value.sorted).getLast?.or (before.lookup name) := by
  -- By induction on the members: what is inserted later counts, and what was there counts last.
  induction members generalizing before with
  | nil => rfl
  | cons member rest ih =>
    obtain ⟨key, v⟩ := member
    rw [sortedMembers, ih, lookup_insertMember]
    by_cases hname : name = key
    · have hvalues : valuesOf name ((key, v) :: rest) = v :: valuesOf name rest :=
        List.filterMap_cons_some (if_pos hname.symm)
      rw [hvalues, List.map_cons, List.getLast?_cons, if_pos hname]
      cases ((valuesOf name rest).map Value.sorted).getLast? <;> rfl
    · have hvalues : valuesOf name ((key, v) :: rest) = valuesOf name rest :=
        List.filterMap_cons_none (if_neg (Ne.symm hname))
      rw [hvalues, if_neg hname]

/-- Members in ascending order are told by what is found under each key. -/
theorem eq_of_lookup_eq {members members' : List (String × Value)}
    (h : members.Pairwise fun a b => a.1 < b.1) (h' : members'.Pairwise fun a b => a.1 < b.1)
    (hlookup : ∀ name, members.lookup name = members'.lookup name) : members = members' := by
  have hnodup := nodup_keys_of_ascending h
  have hnodup' := nodup_keys_of_ascending h'
  -- A member is found under its key, and keys do not repeat.
  have hmem : ∀ member, member ∈ members ↔ member ∈ members' := by
    rintro ⟨key, v⟩
    constructor
    · intro hmember
      exact mem_of_lookup_eq_some (hlookup key ▸ lookup_eq_some_of_mem hnodup hmember)
    · intro hmember
      exact mem_of_lookup_eq_some (hlookup key ▸ lookup_eq_some_of_mem hnodup' hmember)
  -- The same members in ascending order are the same list.
  have hperm := (List.perm_ext_iff_of_nodup (.of_map _ hnodup) (.of_map _ hnodup')).2 hmem
  exact hperm.eq_of_pairwise (fun a b _ _ hab hba => absurd hba (String.lt_asymm hab)) h h'

namespace Value

/-! ### Reordering -/

/-- **Values that differ in the order of members only:** in objects every key has the same values,
in the same order. -/
inductive Reordered : Value → Value → Prop
  | null : Reordered .null .null
  | bool (b : Bool) : Reordered (.bool b) (.bool b)
  | int (n : ℤ) : Reordered (.int n) (.int n)
  | float (x : Float) : Reordered (.float x) (.float x)
  | string (s : String) : Reordered (.string s) (.string s)
  | array {items items' : List Value} (h : List.Forall₂ Reordered items items') :
    Reordered (.array items) (.array items')
  | object {members members' : List (String × Value)}
    (h : ∀ key, List.Forall₂ Reordered (valuesOf key members) (valuesOf key members')) :
    Reordered (.object members) (.object members')

theorem Reordered.refl (v : Value) : v.Reordered v := by
  induction v using Value.induction with
  | null => exact .null
  | bool b => exact .bool b
  | int n => exact .int n
  | float x => exact .float x
  | string s => exact .string s
  | array items ih => exact .array (List.forall₂_same.2 ih)
  | object members ih =>
    exact .object fun key => List.forall₂_same.2 fun v hv => ih (key, v) (mem_valuesOf.1 hv)

theorem Reordered.symm {v w : Value} (h : v.Reordered w) : w.Reordered v := by
  -- By induction on the value: the parts are exchanged one by one.
  induction v using Value.induction generalizing w with
  | null | bool | int | float | string =>
    cases h
    exact .refl _
  | array items ih =>
    cases h with
    | array h => exact .array (forall₂_imp_of_mem h fun v hv w => ih v hv).flip
  | object members ih =>
    cases h with
    | object h =>
      exact .object fun key =>
        (forall₂_imp_of_mem (h key) fun v hv w => ih (key, v) (mem_valuesOf.1 hv)).flip

theorem Reordered.trans {u v w : Value} (h : u.Reordered v) (h' : v.Reordered w) :
    u.Reordered w := by
  -- By induction on the first value, through the parts of the second.
  induction u using Value.induction generalizing v w with
  | null | bool | int | float | string =>
    cases h
    exact h'
  | array items ih =>
    cases h with
    | array h =>
      cases h' with
      | array h' => exact .array (forall₂_trans h h' fun u hu v w => ih u hu)
  | object members ih =>
    cases h with
    | object h =>
      cases h' with
      | object h' =>
        exact .object fun key =>
          forall₂_trans (h key) (h' key) fun u hu v w => ih (key, u) (mem_valuesOf.1 hu)

/-- **Sorting only reorders** a value whose keys differ. -/
theorem reordered_sorted {v : Value} (h : v.Storable) : v.Reordered v.sorted := by
  -- By induction on the value; the sorted members are those that were there, in another order.
  induction v using Value.induction with
  | null => exact .null
  | bool b => exact .bool b
  | int n => exact .int n
  | float x => exact .float x
  | string s => exact .string s
  | array items ih =>
    rw [sorted, sortedItems_eq_map]
    exact .array (List.forall₂_map_right_iff.2
      (List.forall₂_same.2 fun v hv => ih v hv (storable_array.1 h v hv)))
  | object members ih =>
    obtain ⟨hdistinct, hvalues⟩ := storable_object.1 h
    have hperm : (sortedMembers [] members).Perm (members.map fun m => (m.1, m.2.sorted)) :=
      perm_sortedMembers hdistinct
    refine .object fun key => ?_
    -- Under each key there is what was there, and that is reordered by itself.
    rw [valuesOf_eq_of_perm hdistinct hperm, List.forall₂_map_right_iff]
    exact List.forall₂_same.2 fun v hv =>
      ih (key, v) (mem_valuesOf.1 hv) (hvalues (key, v) (mem_valuesOf.1 hv))

/-- Values that are pairwise the same in key order. -/
theorem map_sorted_eq {vs ws : List Value} (h : List.Forall₂ Reordered vs ws)
    (hsorted : ∀ v ∈ vs, ∀ w, v.Reordered w → v.sorted = w.sorted) :
    vs.map sorted = ws.map sorted := by
  have hall : List.Forall₂ (fun v w => v.sorted = w.sorted) vs ws := forall₂_imp_of_mem h hsorted
  rwa [← List.forall₂_map_right_iff, ← List.forall₂_map_left_iff, List.forall₂_eq_eq_eq] at hall

/-- **Values that differ in the order of members only** are the same in key order. -/
theorem Reordered.sorted_eq {v w : Value} (h : v.Reordered w) : v.sorted = w.sorted := by
  induction v using Value.induction generalizing w with
  | null | bool | int | float | string =>
    cases h
    rfl
  | array items ih =>
    cases h with
    | array h =>
      rw [sorted, sorted, sortedItems_eq_map, sortedItems_eq_map,
        map_sorted_eq h fun v hv w => ih v hv]
  | object members ih =>
    cases h with
    | @object _ members' h =>
      -- Both are told by the last value of each key.
      have hmembers : sortedMembers [] members = sortedMembers [] members' := by
        refine eq_of_lookup_eq (ascending_sortedMembers .nil) (ascending_sortedMembers .nil)
          fun name => ?_
        rw [lookup_sortedMembers, lookup_sortedMembers, map_sorted_eq (h name) fun v hv w =>
          ih (name, v) (mem_valuesOf.1 hv)]
      rw [sorted, sorted, hmembers]

/-- **Values that can be stored are the same in key order** exactly if they differ in the order of
members only. -/
theorem sorted_eq_iff {v w : Value} (hv : v.Storable) (hw : w.Storable) :
    v.sorted = w.sorted ↔ v.Reordered w := by
  constructor
  · intro h
    have hsorted : w.Reordered v.sorted := h ▸ reordered_sorted hw
    exact (reordered_sorted hv).trans hsorted.symm
  · exact Reordered.sorted_eq

/-- Whether a value can be stored does not depend on the order of members. -/
theorem Reordered.storable {v w : Value} (h : v.Reordered w) (hv : v.Storable) : w.Storable := by
  -- By induction on the value, of which the other one has the same keys and parts that are
  -- reordered.
  induction v using Value.induction generalizing w with
  | null | bool | int | float | string =>
    cases h
    exact hv
  | array items ih =>
    cases h with
    | array h =>
      exact storable_array.2 (forall_mem_of_forall₂ h fun v hmem w hw =>
        ih v hmem hw (storable_array.1 hv v hmem))
  | object members ih =>
    obtain ⟨hdistinct, hvalues⟩ := storable_object.1 hv
    cases h with
    | object h =>
      -- There is one value to a key in both, or in neither.
      refine storable_object.2 ⟨nodup_keys_iff.2 fun key => ?_, fun member hmember => ?_⟩
      · rw [← (h key).length_eq]
        exact nodup_keys_iff.1 hdistinct key
      · refine forall_mem_of_forall₂ (h member.1) (fun v hmem w hw => ?_) member.2
          (mem_valuesOf.2 hmember)
        exact ih _ (mem_valuesOf.1 hmem) hw (hvalues _ (mem_valuesOf.1 hmem))

/-- How deep a value nests does not depend on the order of members. -/
theorem Reordered.nesting_le {v w : Value} (h : v.Reordered w) {n : ℕ} (hv : v.nesting ≤ n) :
    w.nesting ≤ n := by
  -- By induction on the value; a part has one level less.
  induction v using Value.induction generalizing w n with
  | null | bool | int | float | string =>
    cases h
    exact hv
  | array items ih =>
    obtain ⟨n, rfl⟩ := Nat.exists_eq_succ_of_ne_zero (Nat.ne_zero_of_lt hv)
    cases h with
    | array h =>
      exact nesting_array_le.2 (forall_mem_of_forall₂ h fun v hmem w hw =>
        ih v hmem hw (nesting_array_le.1 hv v hmem))
  | object members ih =>
    obtain ⟨n, rfl⟩ := Nat.exists_eq_succ_of_ne_zero (Nat.ne_zero_of_lt hv)
    cases h with
    | object h =>
      refine nesting_object_le.2 fun member hmember => ?_
      refine forall_mem_of_forall₂ (P := fun w => w.nesting ≤ n) (h member.1)
        (fun v hmem w hw => ?_) member.2 (mem_valuesOf.2 hmember)
      exact ih _ (mem_valuesOf.1 hmem) hw (nesting_object_le.1 hv _ (mem_valuesOf.1 hmem))

/-- **What stands for a value** stands for it with its members in any other order. -/
theorem Reordered.stands {v w : Value} (h : v.Reordered w) (hv : v.Storable) {node : Node}
    (hnode : w.Stands node) : v.Stands node := by
  have hsorted : w.sorted.Stands node := hnode.to_sorted (h.storable hv)
  rw [← h.sorted_eq] at hsorted
  exact hsorted.of_sorted hv

/-- **The text of a value with its members in some order** is read as a node of the value. -/
theorem Reordered.exists_parse_compact {v w : Value} (h : v.Reordered w) (hv : v.Storable)
    (hdepth : v.nesting ≤ depthLimit) :
    ∃ node, Document.parse w.compact = ⟨node, .ok ()⟩ ∧ v.Stands node ∧ node.toValue = .ok w := by
  obtain ⟨node, hparse, hnode⟩ :=
    Document.exists_parse_of_written (h.storable hv) (written_compact w)
  have hdepth' : 0 + w.nesting ≤ depthLimit := by
    rw [zero_add]
    exact h.nesting_le hdepth
  exact ⟨node, hparse, h.stands hv hnode.stands, hnode.value hdepth'⟩

end Value

end Scoresheet.Json
