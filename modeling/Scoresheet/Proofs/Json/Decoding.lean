import Scoresheet.Json.Decoder
import Scoresheet.Proofs.Basic

/-!
# What has been decoded

A value that a decoder gives is made of values that other decoders give of the parts of the node, so
that what is known of a node's parts is known of the value.

* `Node.parts` — the items of an array and the values of an object's members.
* `applyFirst_eq_ok_iff`, `Record.build_eq_ok` — a record is decoded if its fields are.
* `Record.exists_of_field`, `Record.exists_of_fieldOr` — a field is decoded from a part.
* `Decoder.exists_of_mem_list` — an element of a list is decoded from a part.
-/

namespace Scoresheet.Json

/-- The nodes that an array or an object holds. -/
def Node.parts : Node → List Node
  | .array _ _ items _ => items
  | .object _ _ members _ => members.map Prod.snd
  | _ => []

/-! ### Records -/

/-- A function and its argument are decoded together exactly if each is decoded. -/
theorem applyFirst_eq_ok_iff {α β : Type} {f : Except Fault (α → β)} {a : Except Fault α} {b : β} :
    applyFirst f a = .ok b ↔ ∃ g x, f = .ok g ∧ a = .ok x ∧ g x = b := by
  unfold applyFirst
  cases f <;> cases a <;> simp

namespace Record

variable {names : List String} {origin : Origin} {node : Node} {r : Record}

/-- What the fields make is the record's, exactly if the record has no fault. -/
theorem build_eq_ok_iff {α : Type} {value : Except Fault α} {a : α} :
    r.build value = .ok a ↔ r.fault? = none ∧ value = .ok a := by
  unfold build
  split <;> simp_all

theorem build_eq_ok {α : Type} {value : Except Fault α} {a : α} (h : r.build value = .ok a) :
    value = .ok a :=
  (build_eq_ok_iff.1 h).2

/-- The fields that members give are the values of members with their names. -/
theorem mem_fields_ofMembers {members : List (Key × Node)} {field : String × Node}
    (h : field ∈ (ofMembers names r members).fields) :
    field ∈ r.fields ∨ ∃ member ∈ members, member.1.text = .ok field.1 ∧ member.2 = field.2 := by
  -- By induction on the members. The record is closed once it has a fault, so that no field comes
  -- after that.
  induction members generalizing r with
  | nil => exact .inl h
  | cons member rest ih =>
    obtain ⟨key, node⟩ := member
    unfold ofMembers at h
    split at h
    · exact .inl h
    · rename_i text htext
      split at h
      · -- A field of the record, unless it was given before.
        split at h
        · exact .inl h
        · obtain hbefore | ⟨member, hmember, hnode⟩ := ih h
          · obtain hfield | hfield := List.mem_append.1 hbefore
            · exact .inl hfield
            · rw [List.mem_singleton.1 hfield]
              exact .inr ⟨_, List.mem_cons_self, htext, rfl⟩
          · exact .inr ⟨member, List.mem_cons_of_mem _ hmember, hnode⟩
      -- A member that is no field is passed over.
      · split at h
        · exact (ih h).imp_right fun ⟨member, hmember, hnode⟩ =>
            ⟨member, List.mem_cons_of_mem _ hmember, hnode⟩
        · exact .inl h

/-- **The fields of a record** are parts of its node. -/
theorem mem_parts_of_ofNode (h : ofNode names origin node = .ok r) {field : String × Node}
    (hfield : field ∈ r.fields) : field.2 ∈ node.parts := by
  unfold ofNode at h
  split at h
  -- The nodes of an array are the fields by their place, and those of an object by their name.
  · obtain rfl := Except.ok.inj h
    exact (List.of_mem_zip hfield).2
  · obtain rfl := Except.ok.inj h
    obtain hnone | ⟨member, hmember, -, hnode⟩ := mem_fields_ofMembers hfield
    · cases hnone
    · rw [← hnode]
      exact List.mem_map_of_mem hmember
  · cases h

/-- A field that must be there is decoded from one of the fields. -/
theorem exists_of_field {α : Type} {name : String} {decoder : Decoder α} {a : α}
    (h : r.field name decoder = .ok a) : ∃ node, (name, node) ∈ r.fields ∧
      decoder r.origin node = .ok a := by
  unfold field at h
  split at h
  · rename_i node hlookup
    exact ⟨node, mem_of_lookup_eq_some hlookup, h⟩
  · cases h

/-- A field with a value of its own has that value or is decoded from one of the fields. -/
theorem exists_of_fieldOr {α : Type} {name : String} {value : α} {decoder : Decoder α} {a : α}
    (h : r.fieldOr name value decoder = .ok a) :
    a = value ∨ ∃ node, (name, node) ∈ r.fields ∧ decoder r.origin node = .ok a := by
  unfold fieldOr at h
  split at h
  · rename_i node hlookup
    exact .inr ⟨node, mem_of_lookup_eq_some hlookup, h⟩
  · exact .inl (Except.ok.inj h).symm

end Record

/-! ### Lists -/

namespace Decoder

variable {α : Type} {decoder : Decoder α} {origin : Origin} {a : α}

theorem exists_of_mem_items {nodes : List Node} {values : List α}
    (h : items decoder origin nodes = .ok values) (ha : a ∈ values) :
    ∃ node ∈ nodes, decoder origin node = .ok a := by
  -- By induction on the items, all of which are decoded.
  induction nodes generalizing values with
  | nil =>
    obtain rfl := Except.ok.inj h
    cases ha
  | cons node rest ih =>
    obtain ⟨first, hfirst, h⟩ := bind_eq_ok_iff.1 h
    obtain ⟨others, hothers, h⟩ := bind_eq_ok_iff.1 h
    obtain rfl := Except.ok.inj h
    obtain rfl | ha := List.mem_cons.1 ha
    · exact ⟨node, List.mem_cons_self, hfirst⟩
    · obtain ⟨node', hmem, hnode'⟩ := ih hothers ha
      exact ⟨node', List.mem_cons_of_mem _ hmem, hnode'⟩

/-- **The elements of a list** are decoded from parts of its node. -/
theorem exists_of_mem_list {node : Node} {values : List α}
    (h : list decoder origin node = .ok values) (ha : a ∈ values) :
    ∃ part ∈ node.parts, decoder origin part = .ok a := by
  unfold list at h
  split at h
  · rename_i nodes close
    obtain ⟨values', hitems, h⟩ := bind_eq_ok_iff.1 h
    obtain ⟨-, -, h⟩ := bind_eq_ok_iff.1 h
    obtain rfl := Except.ok.inj h
    exact exists_of_mem_items hitems ha
  · cases h

end Decoder

end Scoresheet.Json
