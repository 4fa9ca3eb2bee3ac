import Scoresheet.Json.Decoder
import Scoresheet.Proofs.Basic
import Scoresheet.Proofs.Json.Strings

/-!
# Nodes that stand for values

A value is read from a text or handed over as it is; either way its decoder sees a node. Positions,
depths and the order of members differ from one node to the next, and no decoder of a value minds
them. So it is said once what the nodes of a value have in common.

* `Value.induction` — induction on a value, for the items and the members at once.
* `Value.Storable` — the values that have a JSON text of their own.
* `Value.nesting` — how deep a value nests.
* `Value.Stands` — the nodes that stand for a value, in whatever order their members come.
* `Value.stands_toNode`, `Value.toValue_toNode` — the node of a value stands for it and is read
  whole as the value.

The order of members is left open on purpose: what is signed has its members in key order, and is
decoded as what it was before.
-/

namespace Scoresheet.Json

namespace Value

/-! ### Values -/

/-- **Induction on a value.** What is to be shown of an array may be taken of its items, and of an
object of the values of its members. -/
@[elab_as_elim]
theorem induction {motive : Value → Prop} (null : motive .null) (bool : ∀ b, motive (.bool b))
    (int : ∀ n, motive (.int n)) (float : ∀ x, motive (.float x))
    (string : ∀ s, motive (.string s))
    (array : ∀ items, (∀ v ∈ items, motive v) → motive (.array items))
    (object : ∀ members, (∀ member ∈ members, motive member.2) → motive (.object members))
    (v : Value) : motive v :=
  -- By the recursor, with the property asked of every item and every member.
  @Value.rec motive (fun items => ∀ v ∈ items, motive v)
    (fun members => ∀ member ∈ members, motive member.2) (fun member => motive member.2)
    null bool int float string array object
    (fun _ h => nomatch h) (fun _ _ hhead htail => List.forall_mem_cons.2 ⟨hhead, htail⟩)
    (fun _ h => nomatch h) (fun _ _ hhead htail => List.forall_mem_cons.2 ⟨hhead, htail⟩)
    (fun _ _ h => h) v

/-- **The values that have a JSON text of their own:** integers have 64 bits, with a sign or
without, floats are finite, and the keys of an object differ. -/
inductive Storable : Value → Prop
  | null : Storable .null
  | bool (b : Bool) : Storable (.bool b)
  | int {n : ℤ} (low : -2 ^ 63 ≤ n) (high : n < 2 ^ 64) : Storable (.int n)
  | float {x : Float} (finite : x.isFinite = true) : Storable (.float x)
  | string (s : String) : Storable (.string s)
  | array {items : List Value} (h : ∀ v ∈ items, v.Storable) : Storable (.array items)
  | object {members : List (String × Value)} (distinct : (members.map Prod.fst).Nodup)
    (values : ∀ member ∈ members, member.2.Storable) : Storable (.object members)

@[simp] theorem storable_array {items : List Value} :
    (array items).Storable ↔ ∀ v ∈ items, v.Storable :=
  ⟨fun | .array h => h, .array⟩

@[simp] theorem storable_object {members : List (String × Value)} :
    (object members).Storable
      ↔ (members.map Prod.fst).Nodup ∧ ∀ member ∈ members, member.2.Storable :=
  ⟨fun | .object distinct values => ⟨distinct, values⟩, fun h => .object h.1 h.2⟩

@[simp] theorem storable_int {n : ℤ} : (int n).Storable ↔ -2 ^ 63 ≤ n ∧ n < 2 ^ 64 :=
  ⟨fun | .int low high => ⟨low, high⟩, fun h => .int h.1 h.2⟩

@[simp] theorem storable_float {x : Float} : (float x).Storable ↔ x.isFinite = true :=
  ⟨fun | .float h => h, .float⟩

@[simp] theorem storable_string (s : String) : (string s).Storable := .string s

@[simp] theorem storable_bool (b : Bool) : (bool b).Storable := .bool b

@[simp] theorem storable_null : null.Storable := .null

mutual

/-- How many arrays and objects stand in one another in a value, at most. -/
def nesting : Value → ℕ
  | .array items => itemsNesting items + 1
  | .object members => membersNesting members + 1
  | _ => 0

/-- How deep the items of an array nest. -/
def itemsNesting : List Value → ℕ
  | [] => 0
  | v :: rest => max v.nesting (itemsNesting rest)

/-- How deep the members of an object nest. -/
def membersNesting : List (String × Value) → ℕ
  | [] => 0
  | (_, v) :: rest => max v.nesting (membersNesting rest)

end

@[simp] theorem nesting_bool (b : Bool) : (bool b).nesting = 0 := rfl

@[simp] theorem nesting_int (n : ℤ) : (int n).nesting = 0 := rfl

@[simp] theorem nesting_float (x : Float) : (float x).nesting = 0 := rfl

@[simp] theorem nesting_string (s : String) : (string s).nesting = 0 := rfl

theorem itemsNesting_le {items : List Value} {n : ℕ} :
    itemsNesting items ≤ n ↔ ∀ v ∈ items, v.nesting ≤ n := by
  induction items with
  | nil => simp [itemsNesting]
  | cons v rest ih => simp [itemsNesting, ih]

theorem membersNesting_le {members : List (String × Value)} {n : ℕ} :
    membersNesting members ≤ n ↔ ∀ member ∈ members, member.2.nesting ≤ n := by
  induction members with
  | nil => simp [membersNesting]
  | cons member rest ih => simp [membersNesting, ih]

/-- **An array nests one deeper** than its items. -/
theorem nesting_array_le {items : List Value} {n : ℕ} :
    (array items).nesting ≤ n + 1 ↔ ∀ v ∈ items, v.nesting ≤ n := by
  rw [nesting, Nat.add_le_add_iff_right, itemsNesting_le]

/-- **An object nests one deeper** than the values of its members. -/
theorem nesting_object_le {members : List (String × Value)} {n : ℕ} :
    (object members).nesting ≤ n + 1 ↔ ∀ member ∈ members, member.2.nesting ≤ n := by
  rw [nesting, Nat.add_le_add_iff_right, membersNesting_le]

/-! ### Nodes -/

/-- **The nodes that stand for a value.** A member's key spells its name, and the members may come
in any order. -/
inductive Stands : Value → Node → Prop
  | null (position : ℕ) : Stands .null (.null position)
  | bool (position : ℕ) (b : Bool) : Stands (.bool b) (.bool position b)
  | int (position : ℕ) (n : ℤ) : Stands (.int n) (.int position n)
  | float (position : ℕ) (x : Float) : Stands (.float x) (.float position x)
  | string (position : ℕ) (s : String) : Stands (.string s) (.string position s)
  | array {items : List Value} {nodes : List Node} (position depth last : ℕ)
    (values : List.Forall₂ Stands items nodes) :
    Stands (.array items) (.array position depth nodes (.closed last))
  | object {members members' : List (String × Value)} {nodes : List (Key × Node)}
    (position depth last : ℕ) (order : members'.Perm members)
    (keys : List.Forall₂ (fun member node => node.1.Spells member.1) members' nodes)
    (values : List.Forall₂ (fun member node => Stands member.2 node.2) members' nodes) :
    Stands (.object members) (.object position depth nodes (.closed last))

/-- **The nodes of an object** have its members in some order. -/
theorem stands_object {members : List (String × Value)} {node : Node} :
    (object members).Stands node ↔ ∃ position depth last nodes members',
      node = .object position depth nodes (.closed last) ∧ members'.Perm members ∧
        List.Forall₂ (fun member node => node.1.Spells member.1 ∧ member.2.Stands node.2)
          members' nodes := by
  constructor
  · intro h
    cases h with
    | object position depth last order keys values =>
      exact ⟨position, depth, last, _, _, rfl, order,
        List.Forall₂.mp (fun _ _ => And.intro) keys values⟩
  · rintro ⟨position, depth, last, nodes, members', rfl, order, h⟩
    exact .object position depth last order (h.imp fun _ _ => And.left)
      (h.imp fun _ _ => And.right)

/-- A scalar is read whole as what it stands for. -/
theorem Stands.toValue_of_nesting {v : Value} {node : Node} (h : v.Stands node)
    (hv : v.nesting = 0) : node.toValue = .ok v := by
  cases h with
  | null | bool | int | float | string => rfl
  | array | object => exact absurd hv (Nat.succ_ne_zero _)

end Value

/-! ### Nodes read whole -/

theorem itemValues_eq_ok_iff {items : List Value} {nodes : List Node} :
    itemValues nodes = .ok items
      ↔ List.Forall₂ (fun v node => node.toValue = .ok v) items nodes := by
  constructor
  · intro h
    -- By induction on the nodes, of which each has a value.
    induction nodes generalizing items with
    | nil =>
      obtain rfl := Except.ok.inj h
      exact .nil
    | cons node rest ih =>
      obtain ⟨v, hv, h⟩ := bind_eq_ok_iff.1 h
      obtain ⟨others, hothers, h⟩ := bind_eq_ok_iff.1 h
      obtain rfl := Except.ok.inj h
      exact .cons hv (ih hothers)
  · intro h
    -- Conversely by induction on the items.
    induction h with
    | nil => rfl
    | cons hhead _ ih => simp [itemValues, hhead, ih, bind, Except.bind, pure, Except.pure]

theorem memberValues_eq_ok_iff {members : List (String × Value)} {nodes : List (Key × Node)} :
    memberValues nodes = .ok members ↔ List.Forall₂
      (fun member node => node.1.text = .ok member.1 ∧ node.2.toValue = .ok member.2)
      members nodes := by
  constructor
  · intro h
    -- By induction on the nodes, of which each has a name and a value.
    induction nodes generalizing members with
    | nil =>
      obtain rfl := Except.ok.inj h
      exact .nil
    | cons node rest ih =>
      obtain ⟨text, htext, h⟩ := bind_eq_ok_iff.1 h
      obtain ⟨v, hv, h⟩ := bind_eq_ok_iff.1 h
      obtain ⟨others, hothers, h⟩ := bind_eq_ok_iff.1 h
      obtain rfl := Except.ok.inj h
      exact .cons ⟨htext, hv⟩ (ih hothers)
  · intro h
    induction h with
    | nil => rfl
    | cons hhead _ ih =>
      simp [memberValues, hhead.1, hhead.2, ih, bind, Except.bind, pure, Except.pure]

section Whole

variable {position depth last : ℕ}

/-- **An array is read whole** if its items are and it does not stand too deep. -/
theorem toValue_array {items : List Value} {nodes : List Node} (hdepth : depth ≤ depthLimit)
    (h : List.Forall₂ (fun v node => node.toValue = .ok v) items nodes) :
    (Node.array position depth nodes (.closed last)).toValue = .ok (.array items) := by
  rw [Node.toValue, if_neg (by omega), itemValues_eq_ok_iff.2 h]
  rfl

/-- **An object is read whole** if its members are and it does not stand too deep. -/
theorem toValue_object {members : List (String × Value)} {nodes : List (Key × Node)}
    (hdepth : depth ≤ depthLimit)
    (keys : List.Forall₂ (fun member node => node.1.text = .ok member.1) members nodes)
    (values : List.Forall₂ (fun member node => node.2.toValue = .ok member.2) members nodes) :
    (Node.object position depth nodes (.closed last)).toValue = .ok (.object members) := by
  have hmembers := memberValues_eq_ok_iff.2
    (List.Forall₂.mp (fun _ _ hkey hvalue => And.intro hkey hvalue) keys values)
  rw [Node.toValue, if_neg (by omega), hmembers]
  rfl

end Whole

/-- What is read whole of an array is an array of what is read of its items. -/
theorem eq_array_of_toValue {position depth : ℕ} {nodes : List Node} {close : Close} {v : Value}
    (h : (Node.array position depth nodes close).toValue = .ok v) :
    ∃ items, v = .array items ∧ depth ≤ depthLimit ∧ itemValues nodes = .ok items := by
  rw [Node.toValue] at h
  split at h
  · cases h
  · obtain ⟨items, hitems, h⟩ := bind_eq_ok_iff.1 h
    obtain ⟨-, -, h⟩ := bind_eq_ok_iff.1 h
    exact ⟨items, (Except.ok.inj h).symm, not_lt.1 ‹_›, hitems⟩

/-- What is read whole of an object is an object of what is read of its members. -/
theorem eq_object_of_toValue {position depth : ℕ} {nodes : List (Key × Node)} {close : Close}
    {v : Value} (h : (Node.object position depth nodes close).toValue = .ok v) :
    ∃ members, v = .object members ∧ depth ≤ depthLimit ∧ memberValues nodes = .ok members := by
  rw [Node.toValue] at h
  split at h
  · cases h
  · obtain ⟨members, hmembers, h⟩ := bind_eq_ok_iff.1 h
    obtain ⟨-, -, h⟩ := bind_eq_ok_iff.1 h
    exact ⟨members, (Except.ok.inj h).symm, not_lt.1 ‹_›, hmembers⟩

/-! ### The node of a value -/

theorem forall₂_itemNodes {R : Value → Node → Prop} {items : List Value}
    (h : ∀ v ∈ items, ∀ position, R v (nodeFrom position v).1) (position : ℕ) :
    List.Forall₂ R items (itemNodes position items).1 := by
  induction items generalizing position with
  | nil => exact .nil
  | cons v rest ih =>
    obtain ⟨hhead, htail⟩ := List.forall_mem_cons.1 h
    exact .cons (hhead position) (ih htail _)

theorem forall₂_memberNodes {R : String × Value → Key × Node → Prop}
    {members : List (String × Value)}
    (h : ∀ member ∈ members, ∀ position,
      R member (.ofText position member.1, (nodeFrom (position + 1) member.2).1)) (position : ℕ) :
    List.Forall₂ R members (memberNodes position members).1 := by
  induction members generalizing position with
  | nil => exact .nil
  | cons member rest ih =>
    obtain ⟨hhead, htail⟩ := List.forall_mem_cons.1 h
    exact .cons (hhead position) (ih htail _)

theorem forall₂_spells_memberNodes (members : List (String × Value)) (position : ℕ) :
    List.Forall₂ (fun member node => node.1.Spells member.1) members
      (memberNodes position members).1 :=
  forall₂_memberNodes (fun member _ position => Key.spells_ofText position member.1) position

theorem stands_nodeFrom {v : Value} (h : v.Storable) (position : ℕ) :
    v.Stands (nodeFrom position v).1 := by
  -- By induction on the value: its parts are laid out one behind the other.
  induction v using Value.induction generalizing position with
  | null => exact .null position
  | bool b => exact .bool position b
  | int n => exact .int position n
  | float x =>
    rw [nodeFrom, if_pos (Value.storable_float.1 h)]
    exact .float position x
  | string s => exact .string position s
  | array items ih =>
    have hitems := Value.storable_array.1 h
    exact .array position 0 _ (forall₂_itemNodes (fun v hv => ih v hv (hitems v hv)) _)
  | object members ih =>
    have hmembers := (Value.storable_object.1 h).2
    exact .object position 0 _ (.refl _) (forall₂_spells_memberNodes members _)
      (forall₂_memberNodes (fun member hmember position =>
        ih member hmember (hmembers member hmember) (position + 1)) _)

theorem toValue_nodeFrom {v : Value} (h : v.Storable) (position : ℕ) :
    (nodeFrom position v).1.toValue = .ok v := by
  -- By induction on the value, within the limit since the nodes are not nested in the text.
  induction v using Value.induction generalizing position with
  | null | bool | int | string => rfl
  | float x =>
    rw [nodeFrom, if_pos (Value.storable_float.1 h)]
    rfl
  | array items ih =>
    have hitems := Value.storable_array.1 h
    exact toValue_array (Nat.zero_le _)
      (forall₂_itemNodes (fun v hv => ih v hv (hitems v hv)) _)
  | object members ih =>
    have hmembers := (Value.storable_object.1 h).2
    exact toValue_object (Nat.zero_le _)
      ((forall₂_spells_memberNodes members _).imp fun _ _ h => h.text)
      (forall₂_memberNodes (fun member hmember position =>
        ih member hmember (hmembers member hmember) (position + 1)) _)

/-- **The node of a value** stands for it. -/
theorem Value.stands_toNode {v : Value} (h : v.Storable) : v.Stands v.toNode :=
  stands_nodeFrom h 0

/-- **The node of a value** is read whole as the value. -/
theorem Value.toValue_toNode {v : Value} (h : v.Storable) : v.toNode.toValue = .ok v :=
  toValue_nodeFrom h 0

end Scoresheet.Json
