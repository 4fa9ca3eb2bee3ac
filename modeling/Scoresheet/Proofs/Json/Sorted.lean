import Scoresheet.Proofs.Json.Standing

/-!
# Values in key order

A value whose objects have their members in ascending key order has one text only, whatever order
the members had before. Sorting changes neither what can be stored nor how deep it nests, and what
stands for the sorted value stands for the value.

* `Value.InOrder` — the values whose objects are in ascending key order.
* `Value.inOrder_sorted`, `Value.sorted_of_inOrder` — sorting makes such a value and keeps it.
* `Value.storable_sorted`, `Value.nesting_sorted_le` — what sorting keeps.
* `Value.Stands.of_sorted`, `Value.Stands.to_sorted` — a node of the sorted value is a node of the
  value, and the other way round.

Where two members of an object have one key, sorting drops one of them. So what stands for the
sorted value stands for the value only if the keys of every object differ, as those of a value that
can be stored do.
-/

namespace Scoresheet.Json

/-! ### One member -/

theorem mem_insertMember {key : String} {v : Value} {members : List (String × Value)}
    {member : String × Value} (h : member ∈ insertMember key v members) :
    member = (key, v) ∨ member ∈ members := by
  -- By induction on the members, along the branches of the insertion.
  induction members with
  | nil => exact .inl (List.mem_singleton.1 h)
  | cons head rest ih =>
    obtain ⟨key', v'⟩ := head
    unfold insertMember at h
    split at h
    · exact List.mem_cons.1 h
    · split at h
      · exact (List.mem_cons.1 h).imp_right (List.mem_cons_of_mem _)
      · obtain h | h := List.mem_cons.1 h
        · exact .inr (h ▸ List.mem_cons_self)
        · exact (ih h).imp_right (List.mem_cons_of_mem _)

/-- **A member with a new key** comes to the other members. -/
theorem perm_insertMember {key : String} (v : Value) {members : List (String × Value)}
    (h : key ∉ members.map Prod.fst) :
    (insertMember key v members).Perm ((key, v) :: members) := by
  -- By induction on the members. The key is new, so that no member is replaced.
  induction members with
  | nil => exact .refl _
  | cons head rest ih =>
    obtain ⟨key', v'⟩ := head
    rw [List.map_cons, List.mem_cons, not_or] at h
    unfold insertMember
    split
    · exact .refl _
    · rw [if_neg h.1]
      exact ((ih h.2).cons _).trans (.swap ..)

/-- A member that is put among members leaves their keys ascending. -/
theorem ascending_insertMember (key : String) (v : Value) {members : List (String × Value)}
    (h : members.Pairwise fun a b => a.1 < b.1) :
    (insertMember key v members).Pairwise fun a b => a.1 < b.1 := by
  -- By induction on the members: the new one goes in front, takes the place of one, or goes further
  -- back.
  induction members with
  | nil => exact List.pairwise_singleton ..
  | cons head rest ih =>
    obtain ⟨key', v'⟩ := head
    obtain ⟨hhead, hrest⟩ := List.pairwise_cons.1 h
    unfold insertMember
    split
    · have hlt : key < key' := ‹_›
      refine List.pairwise_cons.2 ⟨fun member hmember => ?_, h⟩
      obtain rfl | hmember := List.mem_cons.1 hmember
      · exact hlt
      · exact String.lt_trans hlt (hhead member hmember)
    -- It is not in front of this one, and so it is this one's place or a later one.
    · have hnot : ¬ key < key' := ‹_›
      split
      · have heq : key = key' := ‹_›
        exact List.pairwise_cons.2 ⟨heq ▸ hhead, hrest⟩
      · have hne : key ≠ key' := ‹_›
        have hlt : key' < key := Std.lt_of_le_of_ne (Std.not_lt.1 hnot) hne.symm
        refine List.pairwise_cons.2 ⟨fun member hmember => ?_, ih hrest⟩
        obtain rfl | hmember := mem_insertMember hmember
        · exact hlt
        · exact hhead member hmember

/-- A member whose key is the greatest comes last. -/
theorem insertMember_of_forall_lt {key : String} (v : Value) {members : List (String × Value)}
    (h : ∀ member ∈ members, member.1 < key) :
    insertMember key v members = members ++ [(key, v)] := by
  induction members with
  | nil => rfl
  | cons head rest ih =>
    obtain ⟨hhead, hrest⟩ := List.forall_mem_cons.1 h
    have hne : key ≠ head.1 := fun heq => String.lt_irrefl key (heq ▸ hhead)
    rw [insertMember, if_neg (String.lt_asymm hhead), if_neg hne, ih hrest, List.cons_append]

/-! ### All members -/

/-- Keys that ascend differ. -/
theorem nodup_keys_of_ascending {members : List (String × Value)}
    (h : members.Pairwise fun a b => a.1 < b.1) : (members.map Prod.fst).Nodup := by
  rw [List.Nodup, List.pairwise_map]
  refine h.imp fun {a b} hlt heq => ?_
  exact String.lt_irrefl _ (heq ▸ hlt)

theorem sortedItems_eq_map (items : List Value) : sortedItems items = items.map Value.sorted := by
  induction items with
  | nil => rfl
  | cons v rest ih => rw [sortedItems, ih, List.map_cons]

theorem ascending_sortedMembers {before members : List (String × Value)}
    (h : before.Pairwise fun a b => a.1 < b.1) :
    (sortedMembers before members).Pairwise fun a b => a.1 < b.1 := by
  induction members generalizing before with
  | nil => exact h
  | cons member rest ih => exact ih (ascending_insertMember _ _ h)

/-- What is among the sorted members was a member, and its value is sorted. -/
theorem mem_sortedMembers {before members : List (String × Value)} {member : String × Value}
    (h : member ∈ sortedMembers before members) :
    member ∈ before ∨ ∃ m ∈ members, member = (m.1, m.2.sorted) := by
  -- By induction on the members that are still to be inserted.
  induction members generalizing before with
  | nil => exact .inl h
  | cons head rest ih =>
    obtain h | ⟨m, hm, rfl⟩ := ih h
    · obtain rfl | h := mem_insertMember h
      · exact .inr ⟨head, List.mem_cons_self, rfl⟩
      · exact .inl h
    · exact .inr ⟨m, List.mem_cons_of_mem _ hm, rfl⟩

/-- **The sorted members** are the members in some order, with their values sorted, if no two have
one key. -/
theorem perm_sortedMembers {before members : List (String × Value)}
    (h : (before.map Prod.fst ++ members.map Prod.fst).Nodup) :
    (sortedMembers before members).Perm (before ++ members.map fun m => (m.1, m.2.sorted)) := by
  -- By induction on the members still to be inserted, with those before them already in order.
  induction members generalizing before with
  | nil => simp [sortedMembers]
  | cons member rest ih =>
    rw [List.map_cons, List.perm_middle.nodup_iff] at h
    obtain ⟨hnew, hrest⟩ := List.nodup_cons.1 h
    -- The key is none of those that are there.
    have hperm : (insertMember member.1 member.2.sorted before).Perm
        ((member.1, member.2.sorted) :: before) :=
      perm_insertMember _ fun hkey => hnew (List.mem_append_left _ hkey)
    have hnodup : ((insertMember member.1 member.2.sorted before).map Prod.fst
        ++ rest.map Prod.fst).Nodup :=
      (((hperm.map Prod.fst).append_right _).nodup_iff).2 h
    exact (ih hnodup).trans ((hperm.append_right _).trans List.perm_middle.symm)

/-- Members that are sorted already stay as they are. -/
theorem sortedMembers_of_ascending {before members : List (String × Value)}
    (hascending : (before ++ members).Pairwise fun a b => a.1 < b.1)
    (hsorted : ∀ member ∈ members, member.2.sorted = member.2) :
    sortedMembers before members = before ++ members := by
  -- By induction on the members: each goes behind all that are there.
  induction members generalizing before with
  | nil => simp [sortedMembers]
  | cons member rest ih =>
    obtain ⟨hhead, hrest⟩ := List.forall_mem_cons.1 hsorted
    have hlast : ∀ m ∈ before, m.1 < member.1 := fun m hm =>
      (List.pairwise_append.1 hascending).2.2 m hm member List.mem_cons_self
    rw [List.append_cons] at hascending
    rw [sortedMembers, hhead, insertMember_of_forall_lt _ hlast, ih hascending hrest,
      List.append_assoc, List.singleton_append]

namespace Value

/-! ### Values -/

/-- **The values whose objects are in ascending key order,** each key once. -/
inductive InOrder : Value → Prop
  | null : InOrder .null
  | bool (b : Bool) : InOrder (.bool b)
  | int (n : ℤ) : InOrder (.int n)
  | float (x : Float) : InOrder (.float x)
  | string (s : String) : InOrder (.string s)
  | array {items : List Value} (h : ∀ v ∈ items, v.InOrder) : InOrder (.array items)
  | object {members : List (String × Value)} (keys : members.Pairwise fun a b => a.1 < b.1)
    (values : ∀ member ∈ members, member.2.InOrder) : InOrder (.object members)

/-- **Sorting** puts every object in key order. -/
theorem inOrder_sorted (v : Value) : v.sorted.InOrder := by
  -- By induction on the value. The members ascend by the way in which they are sorted.
  induction v using Value.induction with
  | null => exact .null
  | bool b => exact .bool b
  | int n => exact .int n
  | float x => exact .float x
  | string s => exact .string s
  | array items ih =>
    rw [sorted, sortedItems_eq_map]
    exact .array (List.forall_mem_map.2 ih)
  | object members ih =>
    refine .object (ascending_sortedMembers .nil) fun member hmember => ?_
    obtain h | ⟨m, hm, rfl⟩ := mem_sortedMembers hmember
    · cases h
    · exact ih m hm

/-- **What is in key order** stays as it is. -/
theorem sorted_of_inOrder {v : Value} (h : v.InOrder) : v.sorted = v := by
  -- By induction on the value, whose parts are in order already.
  induction v using Value.induction with
  | null | bool | int | float | string => rfl
  | array items ih =>
    cases h with
    | array h =>
      rw [sorted, sortedItems_eq_map, List.map_congr_left fun v hv => ih v hv (h v hv),
        List.map_id']
  | object members ih =>
    cases h with
    | object keys values =>
      have hmembers : sortedMembers [] members = [] ++ members :=
        sortedMembers_of_ascending keys fun m hm => ih m hm (values m hm)
      rw [sorted, hmembers, List.nil_append]

/-- Sorting twice is sorting once. -/
@[simp] theorem sorted_sorted (v : Value) : v.sorted.sorted = v.sorted :=
  sorted_of_inOrder v.inOrder_sorted

/-- Sorting nests nothing deeper. -/
theorem nesting_sorted_le (v : Value) : v.sorted.nesting ≤ v.nesting := by
  -- By induction on the value: no part of the sorted value is new.
  induction v using Value.induction with
  | null | bool | int | float | string => exact le_refl _
  | array items ih =>
    have hitems := itemsNesting_le.1 (le_refl (itemsNesting items))
    rw [sorted, sortedItems_eq_map]
    exact nesting_array_le.2 (List.forall_mem_map.2 fun v hv => (ih v hv).trans (hitems v hv))
  | object members ih =>
    have hmembers := membersNesting_le.1 (le_refl (membersNesting members))
    refine nesting_object_le.2 fun member hmember => ?_
    obtain h | ⟨m, hm, rfl⟩ := mem_sortedMembers hmember
    · cases h
    · exact (ih m hm).trans (hmembers m hm)

/-- **A value that can be stored** can be stored sorted. -/
theorem storable_sorted {v : Value} (h : v.Storable) : v.sorted.Storable := by
  -- By induction on the value: a sorted member is the sorted form of one that was there.
  induction v using Value.induction with
  | null | bool | int | float | string => exact h
  | array items ih =>
    rw [sorted, sortedItems_eq_map, storable_array, List.forall_mem_map]
    exact fun v hv => ih v hv (storable_array.1 h v hv)
  | object members ih =>
    obtain ⟨_, hvalues⟩ := storable_object.1 h
    rw [sorted, storable_object]
    refine ⟨nodup_keys_of_ascending (ascending_sortedMembers .nil), fun member hmember => ?_⟩
    · obtain h | ⟨m, hm, rfl⟩ := mem_sortedMembers hmember
      · cases h
      · exact ih m hm (hvalues m hm)

/-- **A node of the sorted value** stands for the value. -/
theorem Stands.of_sorted {v : Value} (hv : v.Storable) {node : Node} (h : v.sorted.Stands node) :
    v.Stands node := by
  induction v using Value.induction generalizing node with
  | null | bool | int | float | string => exact h
  | array items ih =>
    have hitems := storable_array.1 hv
    rw [sorted, sortedItems_eq_map] at h
    cases h with
    | array position depth last values =>
      have hall := forall₂_imp_of_mem (List.forall₂_map_left_iff.1 values) fun v hv _ =>
        ih v hv (hitems v hv)
      exact .array position depth last hall
  | object members ih =>
    obtain ⟨hdistinct, hvalues⟩ := storable_object.1 hv
    obtain ⟨position, depth, last, nodes, members', rfl, hperm, hnodes⟩ := stands_object.1 h
    -- The members of the node are the sorted ones, and these the members in some order.
    have hperm' : members'.Perm (members.map fun m => (m.1, m.2.sorted)) :=
      hperm.trans (perm_sortedMembers hdistinct)
    obtain ⟨members'', rfl, horder⟩ :=
      (congrFun₂ (List.eq_map_comp_perm _) members' members).mpr hperm'
    have hall := forall₂_imp_of_mem (List.forall₂_map_left_iff.1 hnodes) fun m hm _ h =>
      And.intro h.1 (ih m (horder.mem_iff.1 hm) (hvalues m (horder.mem_iff.1 hm)) h.2)
    exact stands_object.2 ⟨position, depth, last, nodes, members'', rfl, horder, hall⟩

/-- **A node of the value** stands for the sorted value. -/
theorem Stands.to_sorted {v : Value} (hv : v.Storable) {node : Node} (h : v.Stands node) :
    v.sorted.Stands node := by
  -- By induction on the value. The order of the members is not held against a node.
  induction v using Value.induction generalizing node with
  | null | bool | int | float | string => exact h
  | array items ih =>
    have hitems := storable_array.1 hv
    rw [sorted, sortedItems_eq_map]
    cases h with
    | array position depth last values =>
      exact .array position depth last (List.forall₂_map_left_iff.2
        (forall₂_imp_of_mem values fun v hv _ => ih v hv (hitems v hv)))
  | object members ih =>
    obtain ⟨hdistinct, hvalues⟩ := storable_object.1 hv
    obtain ⟨position, depth, last, nodes, members', rfl, hperm, hnodes⟩ := stands_object.1 h
    have hsorted : (sortedMembers [] members).Perm (members.map fun m => (m.1, m.2.sorted)) :=
      perm_sortedMembers hdistinct
    have hall := forall₂_imp_of_mem hnodes fun m hm _ h =>
      And.intro h.1 (ih m (hperm.mem_iff.1 hm) (hvalues m (hperm.mem_iff.1 hm)) h.2)
    exact stands_object.2 ⟨position, depth, last, nodes, _, rfl, (hperm.map _).trans hsorted.symm,
      List.forall₂_map_left_iff.2 hall⟩

end Value

end Scoresheet.Json
