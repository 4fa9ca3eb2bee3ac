import Scoresheet.Proofs.Json.Standing
import Scoresheet.Proofs.Json.Texts

/-!
# Values are read from their texts

From each of a value's texts the reader makes a node that stands for the value, with the members of
every object in the order in which they are written. It needs no more than two steps for each
character, which is the fuel that it is given.

* `Value.Shows`, `Value.Shows.unique` — the nodes that show a value, and no other.
* `ReadBy`, `ReadBy.toValue_eq_ok_iff` — the nodes that are read for a value, at a depth: they are
  read whole as it, and only if it does not nest too deep.
* `Value.Spelled.reads`, `Value.Written.reads` — a text of a value is read as a node of it, wherever
  it stands, in whatever way its lexemes are written.
* `Value.Spelled.unique` — no two values have a text in common.
* `Document.exists_parse_of_reads`, `decode_of_written` — a whole text is read and decoded.

How deep a value may nest matters to those who read it whole, not to the reader of the text, which
counts the depth on the way. What is known of a key depends on how it is written: every key is read
as its name, but only one that is written here is read as an integer too.
-/

namespace Scoresheet.Json

/-! ### Lexemes -/

/-- The next character is no blank, if there is one. -/
def StartsLexeme (text : List Char) : Prop :=
  ∀ c ∈ text.head?, Cursor.isSpace c = false

theorem startsLexeme_cons {c : Char} {text : List Char} :
    StartsLexeme (c :: text) ↔ Cursor.isSpace c = false := by
  simp [StartsLexeme]

/-- **Blanks are skipped,** and nothing else is. -/
theorem Cursor.rest_skipSpace {c : Cursor} {gap text : List Char} (hgap : Blanks gap)
    (htext : StartsLexeme text) (h : c.rest = gap ++ text) : c.skipSpace.rest = text := by
  unfold skipSpace
  rw [h, List.dropWhile_append_of_pos hgap]
  cases text with
  | nil => rfl
  | cons c text => simp [startsLexeme_cons.1 htext]

/-- Neither a blank nor a comma nor a bracket goes on with a number. -/
theorem endsNumber_of_isSpace {c : Char} (h : Cursor.isSpace c = true) (rest : List Char) :
    EndsNumber (c :: rest) := by
  have hc : ((c = ' ' ∨ c = '\n') ∨ c = '\t') ∨ c = '\r' := by
    simpa [Cursor.isSpace] using h
  rw [endsNumber_cons]
  obtain ((rfl | rfl) | rfl) | rfl := hc <;> decide

theorem endsNumber_append_cons {gap : List Char} (hgap : Blanks gap) {c : Char} {rest : List Char}
    (hc : EndsNumber (c :: rest)) : EndsNumber (gap ++ c :: rest) := by
  cases gap with
  | nil => exact hc
  | cons d gap => exact endsNumber_of_isSpace (hgap d List.mem_cons_self) _

theorem Separates.endsNumber {sep : List Char} (h : Separates false sep) (rest : List Char) :
    EndsNumber (sep ++ rest) := by
  cases h with
  | later hbefore hgap =>
    rw [List.append_assoc]
    exact endsNumber_append_cons hbefore (endsNumber_cons.2 (by decide))

/-- Behind an item there is a comma or the bracket. -/
theorem ItemsWritten.endsNumber {R : Value → List Char → Prop} {items : List Value}
    {text : List Char} (h : ItemsWritten R false items text) (rest : List Char) :
    EndsNumber (text ++ rest) := by
  cases h with
  | nil _ hgap =>
    rw [List.append_assoc]
    exact endsNumber_append_cons hgap (endsNumber_cons.2 (by decide))
  | cons hsep _ _ =>
    simp only [List.append_assoc]
    exact hsep.endsNumber _

/-- Behind a member there is a comma or the brace. -/
theorem MembersWritten.endsNumber {K : String → List Char → Prop} {R : Value → List Char → Prop}
    {members : List (String × Value)} {text : List Char}
    (h : MembersWritten K R false members text) (rest : List Char) :
    EndsNumber (text ++ rest) := by
  -- Behind a value stands a comma or the closing brace, maybe after blanks.
  cases h with
  | nil _ hgap =>
    rw [List.append_assoc]
    exact endsNumber_append_cons hgap (endsNumber_cons.2 (by decide))
  | cons hsep _ _ _ _ _ =>
    simp only [List.append_assoc]
    exact hsep.endsNumber _

/-- What a value starts with: neither a blank nor a closing bracket. -/
def StartsValue (text : List Char) : Prop :=
  ∃ c rest, text = c :: rest ∧ Cursor.isSpace c = false ∧ c ≠ ']'

theorem StartsValue.append {text : List Char} (h : StartsValue text) (rest : List Char) :
    StartsValue (text ++ rest) := by
  obtain ⟨c, tail, rfl, hspace, hbracket⟩ := h
  exact ⟨c, tail ++ rest, rfl, hspace, hbracket⟩

theorem StartsValue.startsLexeme {text : List Char} (h : StartsValue text) :
    StartsLexeme text := by
  obtain ⟨c, tail, rfl, hspace, -⟩ := h
  exact startsLexeme_cons.2 hspace

theorem StartsValue.length_pos {text : List Char} (h : StartsValue text) : 0 < text.length := by
  obtain ⟨c, tail, rfl, -⟩ := h
  exact Nat.succ_pos _

/-! ### Reading -/

/-- The depth of an array or an object. Nothing else has a depth. -/
def Node.HasDepth (depth : ℕ) : Node → Prop
  | .array _ d _ _ | .object _ d _ _ => d = depth
  | _ => True

/-- **The nodes that show a value:** they stand for it with its members in their order, and what
they hold is one deeper than they are. How a key is read is left open. -/
inductive Value.Shows (K : Key → String → Prop) : Value → Node → Prop
  | scalar {v : Value} {node : Node} (h : v.Stands node) (hv : v.nesting = 0) : Shows K v node
  | array {items : List Value} {nodes : List Node} (position depth last : ℕ)
    (values : List.Forall₂ (Shows K) items nodes)
    (deeper : ∀ node ∈ nodes, node.HasDepth (depth + 1)) :
    Shows K (.array items) (.array position depth nodes (.closed last))
  | object {members : List (String × Value)} {nodes : List (Key × Node)}
    (position depth last : ℕ)
    (keys : List.Forall₂ (fun member node => K node.1 member.1) members nodes)
    (values : List.Forall₂ (fun member node => Shows K member.2 node.2) members nodes)
    (deeper : ∀ node ∈ nodes, node.2.HasDepth (depth + 1)) :
    Shows K (.object members) (.object position depth nodes (.closed last))

/-- A scalar has no depth. -/
theorem Value.Stands.hasDepth {v : Value} {node : Node} (h : v.Stands node) (hv : v.nesting = 0)
    (depth : ℕ) : node.HasDepth depth := by
  cases h with
  | null | bool | int | float | string => exact trivial
  | array | object => exact absurd hv (Nat.succ_ne_zero _)

/-- **What shows a value** stands for it, if its keys spell the names of its members. -/
theorem Value.Shows.stands {v : Value} {node : Node} (h : v.Shows Key.Spells node) :
    v.Stands node := by
  -- By induction on the value. What is shown stands as it is, with the members in their order.
  induction v using Value.induction generalizing node with
  | null | bool | int | float | string =>
    cases h with
    | scalar h _ => exact h
  | array items ih =>
    cases h with
    | scalar h _ => exact h
    | array position depth last values _ =>
      exact .array position depth last (forall₂_imp_of_mem values fun v hv _ => ih v hv)
  | object members ih =>
    cases h with
    | scalar h _ => exact h
    | object position depth last keys values _ =>
      exact .object position depth last (.refl _) keys
        (forall₂_imp_of_mem values fun member hmember _ => ih member hmember)

section Shows

variable {K : Key → String → Prop}

/-- Members that have the nodes of one object are the same if their values are. -/
theorem eq_of_members (hK : ∀ key name, K key name → key.text = .ok name)
    {R S : Value → Node → Prop} {members members' : List (String × Value)}
    {nodes : List (Key × Node)}
    (keys : List.Forall₂ (fun member node => K node.1 member.1) members nodes)
    (values : List.Forall₂ (fun member node => R member.2 node.2) members nodes)
    (h' : List.Forall₂ (fun member node => node.1.text = .ok member.1 ∧ S member.2 node.2)
      members' nodes)
    (heq : ∀ member ∈ members, ∀ w node, R member.2 node → S w node → member.2 = w) :
    members = members' := by
  -- The keys are told by their texts, and the values by the hypothesis.
  have h := List.Forall₂.mp (fun _ _ => And.intro) keys values
  refine eq_of_forall₂ h h' fun member hmember member' node h h' => Prod.ext ?_ ?_
  · exact Except.ok.inj ((hK _ _ h.1).symm.trans h'.1)
  · exact heq member hmember _ _ h.2 h'.2

/-- **A node shows one value.** -/
theorem Value.Shows.unique (hK : ∀ key name, K key name → key.text = .ok name) {v w : Value}
    {node : Node} (h : v.Shows K node) (h' : w.Shows K node) : v = w := by
  -- By induction on the value: the node tells the constructor, and for the parts there is one node
  -- each.
  induction v using Value.induction generalizing w node with
  | null | bool | int | float | string =>
    cases h with
    | scalar h _ =>
      cases h
      cases h' with
      | scalar h' _ =>
        cases h'
        rfl
  | array items ih =>
    cases h with
    -- A scalar does not nest, and an array does.
    | scalar _ hv => exact absurd hv (Nat.succ_ne_zero _)
    | array position depth last values _ =>
      cases h' with
      | scalar h' hw =>
        cases h'
        exact absurd hw (Nat.succ_ne_zero _)
      | array _ _ _ values' _ =>
        rw [eq_of_forall₂ values values' fun v hv w node => ih v hv]
  | object members ih =>
    cases h with
    -- Nor is an object a scalar.
    | scalar _ hv => exact absurd hv (Nat.succ_ne_zero _)
    | object position depth last keys values _ =>
      cases h' with
      | scalar h' hw =>
        cases h'
        exact absurd hw (Nat.succ_ne_zero _)
      | object _ _ _ keys' values' _ =>
        have hmembers := List.Forall₂.mp (fun _ _ => And.intro)
          (keys'.imp fun _ _ => hK _ _) values'
        rw [eq_of_members hK keys values hmembers fun member hmember w node => ih member hmember]

/-- **What is read whole** of a node is the value that it shows. -/
theorem Value.Shows.eq_of_toValue (hK : ∀ key name, K key name → key.text = .ok name) {v w : Value}
    {node : Node} (h : v.Shows K node) (h' : node.toValue = .ok w) : v = w := by
  -- By induction on the value, since the decoded value has its parts from the same nodes.
  induction v using Value.induction generalizing w node with
  | null | bool | int | float | string =>
    cases h with
    | scalar h hv => exact Except.ok.inj ((h.toValue_of_nesting hv).symm.trans h')
  | array items ih =>
    cases h with
    | scalar _ hv => exact absurd hv (Nat.succ_ne_zero _)
    | array position depth last values _ =>
      obtain ⟨items', rfl, -, hitems⟩ := eq_array_of_toValue h'
      rw [eq_of_forall₂ values (itemValues_eq_ok_iff.1 hitems) fun v hv w node => ih v hv]
  | object members ih =>
    cases h with
    | scalar _ hv => exact absurd hv (Nat.succ_ne_zero _)
    | object position depth last keys values _ =>
      obtain ⟨members', rfl, -, hmembers⟩ := eq_object_of_toValue h'
      rw [eq_of_members hK keys values (memberValues_eq_ok_iff.1 hmembers)
        fun member hmember w node => ih member hmember]

theorem passItems_eq_ok {nodes : List Node} (h : ∀ node ∈ nodes, node.pass = .ok ()) :
    passItems nodes = .ok () := by
  induction nodes with
  | nil => rfl
  | cons node rest ih =>
    obtain ⟨hhead, htail⟩ := List.forall_mem_cons.1 h
    rw [passItems, hhead]
    exact ih htail

theorem passMembers_eq_ok {nodes : List (Key × Node)} (h : ∀ node ∈ nodes, node.2.pass = .ok ()) :
    passMembers nodes = .ok () := by
  induction nodes with
  | nil => rfl
  | cons node rest ih =>
    obtain ⟨hhead, htail⟩ := List.forall_mem_cons.1 h
    rw [passMembers, hhead]
    exact ih htail

/-- **What shows a value is passed over** without a fault, however deep it nests. -/
theorem Value.Shows.pass {v : Value} {node : Node} (h : v.Shows K node) : node.pass = .ok () := by
  -- Nothing that stands for a value has a fault.
  induction v using Value.induction generalizing node with
  | null | bool | int | float | string =>
    cases h with
    | scalar h _ =>
      cases h
      rfl
  | array items ih =>
    cases h with
    | scalar _ hv => exact absurd hv (Nat.succ_ne_zero _)
    | array position depth last values _ =>
      have hitems := forall_mem_of_forall₂ values fun v hv _ => ih v hv
      rw [Node.pass, passItems_eq_ok hitems]
      rfl
  | object members ih =>
    cases h with
    | scalar _ hv => exact absurd hv (Nat.succ_ne_zero _)
    | object position depth last keys values _ =>
      have hmembers := forall_mem_of_forall₂ (P := fun node => node.2.pass = .ok ()) values
        fun member hmember _ => ih member hmember
      rw [Node.pass, passMembers_eq_ok hmembers]
      rfl

end Shows

/-- **The nodes that are read for a value** in what stands at a depth: they show the value, one
deeper. -/
structure ReadBy (K : Key → String → Prop) (depth : ℕ) (v : Value) (node : Node) : Prop where
  shows : v.Shows K node
  hasDepth : node.HasDepth (depth + 1)

namespace ReadBy

variable {K : Key → String → Prop} {depth : ℕ} {v : Value} {node : Node}

/-- What stands for a scalar is read for it at every depth. -/
theorem of_stands (h : v.Stands node) (hv : v.nesting = 0) : ReadBy K depth v node :=
  ⟨.scalar h hv, h.hasDepth hv _⟩

/-- **The node of an array** is one deeper than what holds it, and so are its items. -/
theorem array (position last : ℕ) {items : List Value} {nodes : List Node}
    (h : List.Forall₂ (ReadBy K (depth + 1)) items nodes) :
    ReadBy K depth (.array items) (.array position (depth + 1) nodes (.closed last)) where
  shows := .array position _ last (h.imp fun _ _ h => h.shows)
    (forall_mem_of_forall₂ h fun _ _ _ h => h.hasDepth)
  hasDepth := rfl

/-- **The node of an object** is one deeper than what holds it, and so are the values of its
members, which come in the order of the text. -/
theorem object (position last : ℕ) {members : List (String × Value)} {nodes : List (Key × Node)}
    (keys : List.Forall₂ (fun member node => K node.1 member.1) members nodes)
    (values : List.Forall₂ (fun member node => ReadBy K (depth + 1) member.2 node.2)
      members nodes) :
    ReadBy K depth (.object members) (.object position (depth + 1) nodes (.closed last)) where
  shows := .object position _ last keys (values.imp fun _ _ h => h.shows)
    (forall_mem_of_forall₂ (P := fun node : Key × Node => node.2.HasDepth (depth + 1 + 1)) values
      fun _ _ _ h => h.hasDepth)
  hasDepth := rfl

/-- What is read for an array. -/
theorem exists_of_array {items : List Value} (h : ReadBy K depth (.array items) node) :
    ∃ position last nodes, node = .array position (depth + 1) nodes (.closed last) ∧
      List.Forall₂ (ReadBy K (depth + 1)) items nodes := by
  obtain ⟨hshows, hdepth⟩ := h
  cases hshows with
  | scalar _ hv => exact absurd hv (Nat.succ_ne_zero _)
  | array position d last values deeper =>
    obtain rfl : d = depth + 1 := hdepth
    refine ⟨position, last, _, rfl, ?_⟩
    exact (forall₂_and_right values deeper).imp fun _ _ h => ⟨h.1, h.2⟩

/-- What is read for an object. -/
theorem exists_of_object {members : List (String × Value)}
    (h : ReadBy K depth (.object members) node) :
    ∃ position last nodes, node = .object position (depth + 1) nodes (.closed last) ∧
      List.Forall₂ (fun member node => K node.1 member.1) members nodes ∧
      List.Forall₂ (fun member node => ReadBy K (depth + 1) member.2 node.2) members nodes := by
  obtain ⟨hshows, hdepth⟩ := h
  cases hshows with
  -- A scalar has no members.
  | scalar _ hv => exact absurd hv (Nat.succ_ne_zero _)
  | object position d last keys values deeper =>
    obtain rfl : d = depth + 1 := hdepth
    refine ⟨position, last, _, rfl, keys, ?_⟩
    exact (forall₂_and_right values deeper).imp fun _ _ h => ⟨h.1, h.2⟩

/-- **What is read for a value is read whole as it,** if it does not nest too deep there. -/
theorem value (hK : ∀ key name, K key name → key.text = .ok name) (h : ReadBy K depth v node)
    (hdepth : depth + v.nesting ≤ depthLimit) : node.toValue = .ok v := by
  induction v using Value.induction generalizing depth node with
  | null | bool | int | float | string =>
    cases h.shows with
    | scalar h hv => exact h.toValue_of_nesting hv
  | array items ih =>
    -- An item that nests less deep than the array has room one level further down.
    rw [Value.nesting] at hdepth
    have hnesting := Value.itemsNesting_le.1 (le_refl (Value.itemsNesting items))
    obtain ⟨position, last, nodes, rfl, values⟩ := h.exists_of_array
    exact toValue_array (by omega) (forall₂_imp_of_mem values fun v hv _ h =>
      ih v hv h (by have := hnesting v hv; omega))
  | object members ih =>
    rw [Value.nesting] at hdepth
    have hnesting := Value.membersNesting_le.1 (le_refl (Value.membersNesting members))
    obtain ⟨position, last, nodes, rfl, keys, values⟩ := h.exists_of_object
    exact toValue_object (by omega) (keys.imp fun _ _ => hK _ _)
      (forall₂_imp_of_mem values fun member hmember _ h =>
        ih member hmember h (by have := hnesting member hmember; omega))

/-- What is read whole does not nest too deep. -/
theorem nesting_le (h : ReadBy K depth v node) (hdepth : depth ≤ depthLimit)
    (hvalue : node.toValue = .ok v) : depth + v.nesting ≤ depthLimit := by
  induction v using Value.induction generalizing depth node with
  | null | bool | int | float | string => exact hdepth
  | array items ih =>
    obtain ⟨position, last, nodes, rfl, values⟩ := h.exists_of_array
    obtain ⟨items', heq, hlt, hitems⟩ := eq_array_of_toValue hvalue
    obtain rfl := Value.array.inj heq
    -- The array is within the limit, and so is each item, one further down.
    have hboth := List.Forall₂.mp (fun _ _ => And.intro) values (itemValues_eq_ok_iff.1 hitems)
    have hnesting : ∀ v ∈ items, v.nesting ≤ depthLimit - (depth + 1) :=
      forall_mem_of_forall₂ (forall₂_imp_of_mem hboth fun v hv _ h => ih v hv h.1 hlt h.2).flip
        fun _ _ _ h => by omega
    have hle := Value.itemsNesting_le.2 hnesting
    rw [Value.nesting]
    omega
  | object members ih =>
    obtain ⟨position, last, nodes, rfl, keys, values⟩ := h.exists_of_object
    obtain ⟨members', heq, hlt, hmembers⟩ := eq_object_of_toValue hvalue
    obtain rfl := Value.object.inj heq
    have hboth := List.Forall₂.mp (fun _ _ h h' => And.intro h h'.2) values
      (memberValues_eq_ok_iff.1 hmembers)
    have hnesting : ∀ member ∈ members, member.2.nesting ≤ depthLimit - (depth + 1) :=
      forall_mem_of_forall₂
        (forall₂_imp_of_mem hboth fun member hmember _ h => ih member hmember h.1 hlt h.2).flip
        fun _ _ _ h => by omega
    have hle := Value.membersNesting_le.2 hnesting
    rw [Value.nesting]
    omega

/-- **A node is read whole** exactly as the value that it was read for, and only if that does not
nest too deep. -/
theorem toValue_eq_ok_iff (hK : ∀ key name, K key name → key.text = .ok name) {w : Value}
    (h : ReadBy K depth v node) (hdepth : depth ≤ depthLimit) :
    node.toValue = .ok w ↔ v = w ∧ depth + v.nesting ≤ depthLimit := by
  constructor
  · intro hvalue
    obtain rfl := h.shows.eq_of_toValue hK hvalue
    exact ⟨rfl, h.nesting_le hdepth hvalue⟩
  · rintro ⟨rfl, hnesting⟩
    exact h.value hK hnesting

end ReadBy

/-- The nodes that are read for a value whose lexemes are those that are written here. -/
abbrev ReadAs : ℕ → Value → Node → Prop :=
  ReadBy Key.Spells

theorem ReadAs.stands {depth : ℕ} {v : Value} {node : Node} (h : ReadAs depth v node) :
    v.Stands node :=
  h.shows.stands

theorem ReadAs.value {depth : ℕ} {v : Value} {node : Node} (h : ReadAs depth v node)
    (hdepth : depth + v.nesting ≤ depthLimit) : node.toValue = .ok v :=
  ReadBy.value (fun _ _ h => h.text) h hdepth

/-- **A text is read as a value** wherever it stands, to its end. -/
structure Reads (K : Key → String → Prop) (v : Value) (text : List Char) : Prop where
  starts : StartsValue text
  parse : ∀ {depth fuel : ℕ} {c : Cursor} {gap rest : List Char}, Blanks gap → EndsNumber rest →
    2 * text.length ≤ fuel → c.rest = gap ++ text ++ rest →
      ∃ node next, parseValue depth fuel c = (node, .ok next) ∧ next.rest = rest ∧
        ReadBy K depth v node

/-- **A text is read as a key** wherever it stands, to its end. -/
structure KeyReads (K : Key → String → Prop) (key : String) (text : List Char) : Prop where
  starts : ∃ tail, text = '"' :: tail
  parse : ∀ {c : Cursor} {rest : List Char}, c.rest = text ++ rest →
    ∃ next, (parseString (c.advance 1)).next = .ok next ∧ next.rest = rest ∧
      K (Key.ofScanned c (parseString (c.advance 1))) key

variable {K : Key → String → Prop}

section Items

variable {depth fuel : ℕ} {c : Cursor} {first : Bool}

theorem parseItems_close {gap rest : List Char} (hgap : Blanks gap)
    (hc : c.rest = gap ++ ']' :: rest) :
    ∃ last next, parseItems depth first (fuel + 1) c = ([], .closed last, .ok next) ∧
      next.rest = rest := by
  have hskip := Cursor.rest_skipSpace hgap (startsLexeme_cons.2 rfl) hc
  refine ⟨c.skipSpace.position, c.skipSpace.advance 1, ?_, ?_⟩
  · unfold parseItems
    simp only [hskip]
  · simp [Cursor.advance, hskip]

/-- An item is read behind what separates it from the one before. -/
theorem parseItems_item {sep text : List Char} (hsep : Separates first sep)
    (htext : StartsValue text) (hc : c.rest = sep ++ text) :
    ∃ (c' : Cursor) (gap : List Char), Blanks gap ∧ c'.rest = gap ++ text ∧
      ∀ {node after nodes close next}, parseValue depth fuel c' = (node, .ok after) →
        parseItems depth false fuel after = (nodes, close, next) →
        parseItems depth first (fuel + 1) c = (node :: nodes, close, next) := by
  -- The first item has no comma before it, and only blanks are skipped.
  cases hsep with
  | first hgap =>
    obtain ⟨d, tail, rfl, hspace, hbracket⟩ := htext
    have hskip := Cursor.rest_skipSpace hgap (startsLexeme_cons.2 hspace) hc
    refine ⟨c.skipSpace, [], blanks_nil, hskip, fun hnode hnodes => ?_⟩
    conv_lhs => unfold parseItems
    simp [hskip, hnode, hnodes]
  -- A later item stands behind a comma, and the blanks behind that are left to the value's own
  -- reader.
  | @later before gap hbefore hgap =>
    rw [List.append_assoc] at hc
    have hskip := Cursor.rest_skipSpace hbefore (startsLexeme_cons.2 rfl) hc
    refine ⟨c.skipSpace.advance 1, gap, hgap, by simp [Cursor.advance, hskip],
      fun hnode hnodes => ?_⟩
    conv_lhs => unfold parseItems
    simp [hskip, hnode, hnodes]

end Items

/-- **The items of an array** are read up to its bracket. -/
theorem parseItems_of_written {items : List Value} {first : Bool} {text : List Char}
    (h : ItemsWritten (Reads K) first items text) {depth fuel : ℕ} {c : Cursor} {rest : List Char}
    (hfuel : 2 * text.length < fuel) (hc : c.rest = text ++ rest) :
    ∃ nodes last next, parseItems depth first fuel c = (nodes, .closed last, .ok next) ∧
      next.rest = rest ∧ List.Forall₂ (ReadBy K depth) items nodes := by
  -- By induction on the items: one unit of fuel is spent on each, and none of their texts is empty.
  induction h generalizing fuel c with
  | nil first hgap =>
    obtain ⟨fuel, rfl⟩ := Nat.exists_eq_succ_of_ne_zero hfuel.ne_bot
    rw [List.append_assoc] at hc
    obtain ⟨last, next, hread, hnext⟩ := parseItems_close hgap hc
    exact ⟨[], last, next, hread, hnext, .nil⟩
  | @cons first sep text tail v items hsep hv hrest ih =>
    obtain ⟨fuel, rfl⟩ := Nat.exists_eq_succ_of_ne_zero hfuel.ne_bot
    have hpos := hv.starts.length_pos
    rw [List.length_append, List.length_append] at hfuel
    rw [List.append_assoc, List.append_assoc] at hc
    -- The separator is read, then the item, then the items behind it.
    obtain ⟨c', gap, hgap, hc', hstep⟩ := parseItems_item hsep (hv.starts.append _) hc
    rw [← List.append_assoc] at hc'
    have htext : 2 * text.length ≤ fuel := by omega
    have htail : 2 * tail.length < fuel := by omega
    obtain ⟨node, after, hnode, hafter, hreadAs⟩ :=
      hv.parse hgap (hrest.endsNumber rest) htext hc'
    obtain ⟨nodes, last, next, hnodes, hnext, hreadsAs⟩ := ih htail hafter
    exact ⟨node :: nodes, last, next, hstep hnode hnodes, hnext, .cons hreadAs hreadsAs⟩

section Members

variable {depth fuel : ℕ} {c : Cursor} {first : Bool}

theorem parseMembers_close {gap rest : List Char} (hgap : Blanks gap)
    (hc : c.rest = gap ++ '\x7d' :: rest) :
    ∃ last next, parseMembers depth first (fuel + 1) c = ([], .closed last, .ok next) ∧
      next.rest = rest := by
  have hskip := Cursor.rest_skipSpace hgap (startsLexeme_cons.2 rfl) hc
  refine ⟨c.skipSpace.position, c.skipSpace.advance 1, ?_, ?_⟩
  · unfold parseMembers
    simp only [hskip]
  · simp [Cursor.advance, hskip]

/-- A member is read behind what separates it from the one before: its key, a colon, its value. -/
theorem parseMembers_member {key : String} {sep name gap text : List Char}
    (hsep : Separates first sep) (hname : KeyReads K key name) (hgap : Blanks gap)
    (hc : c.rest = sep ++ name ++ gap ++ ':' :: text) :
    ∃ (k : Key) (c' : Cursor), K k key ∧ c'.rest = text ∧
      ∀ {node after nodes close next}, parseValue depth fuel c' = (node, .ok after) →
        parseMembers depth false fuel after = (nodes, close, next) →
        parseMembers depth first (fuel + 1) c = ((k, node) :: nodes, close, next) := by
  simp only [List.append_assoc] at hc
  obtain ⟨tail, rfl⟩ := hname.starts
  -- The name is read behind its separator, then the colon.
  cases hsep with
  | first hgap₀ =>
    have hskip := Cursor.rest_skipSpace hgap₀ (startsLexeme_cons.2 rfl) hc
    obtain ⟨colon, hnext, hcolon, hkey⟩ := hname.parse hskip
    have hskip' := Cursor.rest_skipSpace hgap (startsLexeme_cons.2 rfl) hcolon
    refine ⟨_, colon.skipSpace.advance 1, hkey, by simp [Cursor.advance, hskip'],
      fun hnode hnodes => ?_⟩
    conv_lhs => unfold parseMembers
    simp [hskip, hnext, hskip', hnode, hnodes]
  | @later before gap₀ hbefore hgap₀ =>
    rw [List.append_assoc] at hc
    have hcomma := Cursor.rest_skipSpace hbefore (startsLexeme_cons.2 rfl) hc
    have hrest : (c.skipSpace.advance 1).rest = gap₀ ++ ('"' :: tail ++ (gap ++ ':' :: text)) := by
      simp [Cursor.advance, hcomma]
    have hskip := Cursor.rest_skipSpace hgap₀ (startsLexeme_cons.2 rfl) hrest
    obtain ⟨colon, hnext, hcolon, hkey⟩ := hname.parse hskip
    have hskip' := Cursor.rest_skipSpace hgap (startsLexeme_cons.2 rfl) hcolon
    refine ⟨_, colon.skipSpace.advance 1, hkey, by simp [Cursor.advance, hskip'],
      fun hnode hnodes => ?_⟩
    conv_lhs => unfold parseMembers
    simp [hcomma, hskip, hnext, hskip', hnode, hnodes]

end Members

/-- **The members of an object** are read up to its brace. -/
theorem parseMembers_of_written {members : List (String × Value)} {first : Bool} {text : List Char}
    (h : MembersWritten (KeyReads K) (Reads K) first members text) {depth fuel : ℕ} {c : Cursor}
    {rest : List Char} (hfuel : 2 * text.length < fuel) (hc : c.rest = text ++ rest) :
    ∃ nodes last next, parseMembers depth first fuel c = (nodes, .closed last, .ok next) ∧
      next.rest = rest ∧ List.Forall₂ (fun member node => K node.1 member.1) members nodes ∧
      List.Forall₂ (fun member node => ReadBy K depth member.2 node.2) members nodes := by
  induction h generalizing fuel c with
  | nil first hgap =>
    obtain ⟨fuel, rfl⟩ := Nat.exists_eq_succ_of_ne_zero hfuel.ne_bot
    rw [List.append_assoc] at hc
    obtain ⟨last, next, hread, hnext⟩ := parseMembers_close hgap hc
    exact ⟨[], last, next, hread, hnext, .nil, .nil⟩
  | @cons key first sep name gap gap' text tail v members hsep hname hgap hgap' hv hrest ih =>
    obtain ⟨fuel, rfl⟩ := Nat.exists_eq_succ_of_ne_zero hfuel.ne_bot
    -- The text of a value is not empty, so that the fuel for the other members is less.
    have hpos := hv.starts.length_pos
    have hlength : text.length + tail.length
        ≤ (sep ++ name ++ gap ++ ':' :: gap' ++ text ++ tail).length := by
      simp only [List.length_append]
      omega
    have hc₁ : c.rest = sep ++ name ++ gap ++ ':' :: (gap' ++ text ++ (tail ++ rest)) := by
      rw [hc]
      simp
    obtain ⟨k, c', hkey, hc', hstep⟩ := parseMembers_member hsep hname hgap hc₁
    have htext : 2 * text.length ≤ fuel := by omega
    have htail : 2 * tail.length < fuel := by omega
    obtain ⟨node, after, hnode, hafter, hreadAs⟩ :=
      hv.parse hgap' (hrest.endsNumber rest) htext hc'
    obtain ⟨nodes, last, next, hnodes, hnext, hkeys, hreadsAs⟩ := ih htail hafter
    exact ⟨(k, node) :: nodes, last, next, hstep hnode hnodes, hnext, .cons hkey hkeys,
      .cons hreadAs hreadsAs⟩

/-! ### Scalars -/

/-- What is read behind blanks of a value that is one lexeme. -/
theorem reads_of_lexeme {v : Value} {text : List Char} (hstarts : StartsValue text)
    (hparse : ∀ (depth fuel : ℕ) (c : Cursor) (rest : List Char), EndsNumber rest →
      c.skipSpace.rest = text ++ rest → ∃ node next,
        parseValue depth (fuel + 1) c = (node, .ok next) ∧ next.rest = rest ∧
          v.Stands node ∧ v.nesting = 0) : Reads K v text := by
  refine ⟨hstarts, fun {depth fuel c gap rest} hgap hrest hfuel hc => ?_⟩
  have hpos := hstarts.length_pos
  -- There is fuel for one call, and the gap in front is skipped by it.
  obtain ⟨fuel, rfl⟩ := Nat.exists_eq_succ_of_ne_zero (by omega : fuel ≠ 0)
  rw [List.append_assoc] at hc
  have hskip := Cursor.rest_skipSpace hgap (hstarts.append rest).startsLexeme hc
  obtain ⟨node, next, hread, hnext, hstands, hnesting⟩ := hparse depth fuel c rest hrest hskip
  exact ⟨node, next, hread, hnext, .of_stands hstands hnesting⟩

theorem reads_null : Reads K .null ['n', 'u', 'l', 'l'] := by
  refine reads_of_lexeme ⟨'n', _, rfl, rfl, by decide⟩ fun depth fuel c rest _ hskip => ?_
  refine ⟨.null c.skipSpace.position, ⟨c.skipSpace.position + 4, rest⟩, ?_, rfl, .null _, rfl⟩
  unfold parseValue
  simp [hskip, parseWord, Cursor.advance]

theorem reads_bool (b : Bool) : Reads K (.bool b) (boolText b) := by
  -- Both words are read to their last letter.
  cases b with
  | true =>
    refine reads_of_lexeme ⟨'t', _, rfl, rfl, by decide⟩ fun depth fuel c rest _ hskip => ?_
    refine ⟨.bool c.skipSpace.position true, ⟨c.skipSpace.position + 4, rest⟩, ?_, rfl,
      .bool _ _, rfl⟩
    unfold parseValue
    simp [hskip, boolText, parseWord, Cursor.advance]
  | false =>
    refine reads_of_lexeme ⟨'f', _, rfl, rfl, by decide⟩ fun depth fuel c rest _ hskip => ?_
    refine ⟨.bool c.skipSpace.position false, ⟨c.skipSpace.position + 5, rest⟩, ?_, rfl,
      .bool _ _, rfl⟩
    unfold parseValue
    simp [hskip, boolText, parseWord, Cursor.advance]

theorem reads_string {s : String} {text : List Char} (h : StringWritten s text) :
    Reads K (.string s) text := by
  obtain ⟨tail, rfl, hread⟩ := h.exists_parseString
  refine reads_of_lexeme ⟨'"', _, rfl, rfl, by decide⟩ fun depth fuel c rest _ hskip => ?_
  refine ⟨.string c.skipSpace.position s, ⟨c.skipSpace.position + 1 + tail.length, rest⟩, ?_, rfl,
    .string _ _, rfl⟩
  have hadvance : c.skipSpace.advance 1 = ⟨c.skipSpace.position + 1, tail ++ rest⟩ := by
    simp [Cursor.advance, hskip]
  unfold parseValue
  simp [hskip, hadvance, hread, stringNode]

/-- A number is looked for where nothing else starts. -/
theorem parseValue_number {c : Cursor} {text : List Char} (htext : StartsNumber text)
    (hskip : c.skipSpace.rest = text) (depth fuel : ℕ) :
    parseValue depth (fuel + 1) c
      = (parseNumber? c.skipSpace).getD (failed c.skipSpace.unexpected) := by
  obtain ⟨d, tail, rfl, hd⟩ := htext
  -- A number starts with a digit or a minus, and the other branches with other characters.
  have hne : ∀ e, e ≠ '-' → e.isDigit = false → d ≠ e := by
    rintro e hminus hdigit rfl
    obtain rfl | hd := hd
    · exact hminus rfl
    · rw [hd] at hdigit
      cases hdigit
  unfold parseValue
  simp only [hskip]
  -- The branches for strings, arrays, objects and the three words.
  split
  · exact absurd (List.cons.inj ‹_›).1 (hne _ (by decide) rfl)
  · exact absurd (List.cons.inj ‹_›).1 (hne _ (by decide) rfl)
  · exact absurd (List.cons.inj ‹_›).1 (hne _ (by decide) rfl)
  · exact absurd (List.cons.inj ‹_›).1 (hne _ (by decide) rfl)
  · exact absurd (List.cons.inj ‹_›).1 (hne _ (by decide) rfl)
  · exact absurd (List.cons.inj ‹_›).1 (hne _ (by decide) rfl)
  · rfl

theorem StartsNumber.startsValue {text : List Char} (h : StartsNumber text) : StartsValue text := by
  obtain ⟨c, rest, rfl, hc⟩ := h
  obtain rfl | hdigit := hc
  · exact ⟨'-', rest, rfl, rfl, by decide⟩
  · have hspace : Cursor.isSpace c = false := by
      by_contra hspace
      have hends := endsNumber_of_isSpace (Bool.not_eq_false _ ▸ hspace) rest
      rw [(endsNumber_cons.1 hends).1] at hdigit
      cases hdigit
    exact ⟨c, rest, rfl, hspace, Decimal.ne_of_isDigit hdigit rfl⟩

/-- A numeral that denotes a value does so wherever it stands. -/
theorem Numeral.stands_node {n : Numeral} {negative : Bool} {v : Value}
    (h : (n.node negative 0).toValue = .ok v) (position : ℕ) :
    v.Stands (n.node negative position) ∧ v.nesting = 0 := by
  unfold node numberNode at h ⊢
  dsimp only at h ⊢
  split_ifs at h ⊢
  all_goals cases h
  all_goals exact ⟨by constructor, rfl⟩

theorem reads_number {v : Value} {text : List Char} (h : NumberWritten v text) :
    Reads K v text := by
  obtain ⟨negative, n, hn, rfl, hvalue⟩ := h
  have hstarts := hn.startsNumber negative
  refine reads_of_lexeme hstarts.startsValue fun depth fuel c rest hrest hskip => ?_
  refine ⟨n.node negative c.skipSpace.position,
    ⟨c.skipSpace.position + (signChars negative ++ n.chars).length, rest⟩, ?_, rfl,
    Numeral.stands_node hvalue _⟩
  -- The numeral stands right behind the gap.
  have hcursor : c.skipSpace = ⟨c.skipSpace.position, signChars negative ++ n.chars ++ rest⟩ := by
    rw [← hskip]
  rw [parseValue_number (hstarts.append rest) hskip, hcursor, parseNumber?_numeral hn hrest]
  rfl

theorem ScalarWritten.reads {v : Value} {text : List Char} (h : ScalarWritten v text) :
    Reads K v text := by
  cases h with
  | null => exact reads_null
  | bool b => exact reads_bool b
  | number h => exact reads_number h
  | string h => exact reads_string h

/-! ### Values -/

/-- An array is read if its items are. -/
theorem reads_array {items : List Value} {text : List Char}
    (h : ItemsWritten (Reads K) true items text) : Reads K (.array items) ('[' :: text) := by
  refine ⟨⟨'[', text, rfl, rfl, by decide⟩, fun {depth fuel c gap rest} hgap _ hfuel hc => ?_⟩
  rw [List.length_cons] at hfuel
  -- The fuel is twice the length of the text, so that one unit is there for the bracket.
  obtain ⟨fuel, rfl⟩ := Nat.exists_eq_succ_of_ne_zero (by omega : fuel ≠ 0)
  rw [List.append_assoc] at hc
  have hskip := Cursor.rest_skipSpace hgap (startsLexeme_cons.2 rfl) hc
  have hbody : (c.skipSpace.advance 1).rest = text ++ rest := by
    simp [Cursor.advance, hskip]
  have hfuel' : 2 * text.length < fuel := by omega
  obtain ⟨nodes, last, next, hread, hnext, hnodes⟩ :
      ∃ nodes last next, parseItems (depth + 1) true fuel (c.skipSpace.advance 1)
        = (nodes, .closed last, .ok next) ∧ next.rest = rest ∧
          List.Forall₂ (ReadBy K (depth + 1)) items nodes := parseItems_of_written h hfuel' hbody
  refine ⟨_, next, ?_, hnext, .array c.skipSpace.position last hnodes⟩
  unfold parseValue
  simp [hskip, hread]

/-- An object is read if the values of its members are. -/
theorem reads_object {members : List (String × Value)} {text : List Char}
    (h : MembersWritten (KeyReads K) (Reads K) true members text) :
    Reads K (.object members) ('\x7b' :: text) := by
  refine ⟨⟨'\x7b', text, rfl, rfl, by decide⟩, fun {depth fuel c gap rest} hgap _ hfuel hc => ?_⟩
  rw [List.length_cons] at hfuel
  -- The fuel is twice the length of the text, so that one unit is there for the brace.
  obtain ⟨fuel, rfl⟩ := Nat.exists_eq_succ_of_ne_zero (by omega : fuel ≠ 0)
  rw [List.append_assoc] at hc
  have hskip := Cursor.rest_skipSpace hgap (startsLexeme_cons.2 rfl) hc
  have hbody : (c.skipSpace.advance 1).rest = text ++ rest := by
    simp [Cursor.advance, hskip]
  have hfuel' : 2 * text.length < fuel := by omega
  obtain ⟨nodes, last, next, hread, hnext, hkeys, hnodes⟩ :
      ∃ nodes last next, parseMembers (depth + 1) true fuel (c.skipSpace.advance 1)
        = (nodes, .closed last, .ok next) ∧ next.rest = rest ∧
          List.Forall₂ (fun member node => K node.1 member.1) members nodes ∧
          List.Forall₂ (fun member node => ReadBy K (depth + 1) member.2 node.2) members nodes :=
    parseMembers_of_written h hfuel' hbody
  refine ⟨_, next, ?_, hnext, .object c.skipSpace.position last hkeys hnodes⟩
  unfold parseValue
  simp [hskip, hread]

/-- **A layout is read as its value,** if its lexemes are read as the scalars and the keys. -/
theorem Value.LaidOut.reads {v : Value} {text : List Char}
    (h : v.LaidOut (Reads K) (KeyReads K) text) : Reads K v text := by
  -- By induction on the value, whose parts are read by the hypothesis.
  induction v using Value.induction generalizing text with
  | null | bool | int | float | string =>
    cases h with
    | scalar h => exact h
  | array items ih =>
    cases h with
    | scalar h => exact h
    | array h => exact reads_array (h.mono fun v hmem _ => ih v hmem)
  | object members ih =>
    cases h with
    | scalar h => exact h
    | object h => exact reads_object (h.mono (fun _ _ => id) fun member hmem _ => ih member hmem)

/-- The keys that are written here are read as keys that spell them. -/
theorem KeyText.reads {key : String} {text : List Char} (h : KeyText key text) :
    KeyReads Key.Spells key text := by
  obtain rfl := h
  refine ⟨⟨_, stringText_eq key⟩, fun {c rest} hc => ?_⟩
  obtain ⟨position, chars⟩ := c
  subst hc
  refine ⟨⟨position + 1 + (stringTail key).length, rest⟩, ?_, rfl,
    Key.spells_ofScanned key position rest⟩
  -- Behind the quote the key is scanned as any other string.
  have hadvance : (⟨position, stringText key ++ rest⟩ : Cursor).advance 1
      = ⟨position + 1, stringTail key ++ rest⟩ := rfl
  rw [hadvance, parseString_stringTail]

/-- All keys are read as their texts. -/
theorem StringWritten.keyReads {key : String} {text : List Char} (h : StringWritten key text) :
    KeyReads Key.Names key text := by
  obtain ⟨tail, rfl, hread⟩ := h.exists_parseString
  refine ⟨⟨tail, rfl⟩, fun {c rest} hc => ?_⟩
  obtain ⟨position, chars⟩ := c
  subst hc
  have hadvance : (⟨position, '"' :: tail ++ rest⟩ : Cursor).advance 1
      = ⟨position + 1, tail ++ rest⟩ := rfl
  rw [hadvance, hread]
  exact ⟨_, rfl, rfl, by simp [Key.Names, Key.ofScanned, Except.map]⟩

/-- **A text of a value is read as the value,** however its lexemes are written. -/
theorem Value.Spelled.reads {v : Value} {text : List Char} (h : v.Spelled text) :
    Reads Key.Names v text :=
  LaidOut.reads (h.mono (fun _ _ h => h.reads) fun _ _ h => h.keyReads)

/-- **A text of a value is read as the value,** and keys that are written here spell their names. -/
theorem Value.Written.reads {v : Value} {text : List Char} (h : v.Written text)
    (hv : v.Storable) : Reads Key.Spells v text :=
  LaidOut.reads ((h.of_storable hv).mono (fun _ _ h => h.reads) fun _ _ h => h.reads)

/-- **A text that is read as a value** is read to its end, and nothing is wrong with it. -/
theorem Document.exists_parse_of_reads {v : Value} {text : String}
    (h : Reads K v text.toList) :
    ∃ node, Document.parse text = ⟨node, .ok ()⟩ ∧ ReadBy K 0 v node := by
  have hends : EndsNumber [] := fun _ h => nomatch h
  obtain ⟨node, next, hread, hnext, hnode⟩ :
      ∃ node next, parseValue 0 (2 * text.toList.length + 2) ⟨0, text.toList⟩ = (node, .ok next) ∧
        next.rest = [] ∧ ReadBy K 0 v node :=
    h.parse blanks_nil hends (by omega) (List.append_nil _).symm
  -- Behind the value there is nothing, and so nothing but blanks.
  have hstarts : StartsLexeme [] := fun _ h => nomatch h
  have hskip := Cursor.rest_skipSpace blanks_nil hstarts hnext
  refine ⟨node, ?_, hnode⟩
  unfold Document.parse
  simp only [hread, hskip, if_true]

/-- **A text tells its value:** no two values have a text in common. -/
theorem Value.Spelled.unique {v w : Value} {text : String} (h : v.Spelled text.toList)
    (h' : w.Spelled text.toList) : v = w := by
  obtain ⟨node, hparse, hnode⟩ := Document.exists_parse_of_reads h.reads
  obtain ⟨node', hparse', hnode'⟩ := Document.exists_parse_of_reads h'.reads
  obtain ⟨rfl, -⟩ := Document.mk.inj (hparse.symm.trans hparse')
  exact hnode.shows.unique (fun _ _ => id) hnode'.shows

/-- **A text of a value** is read to its end, and nothing is wrong with it. -/
theorem Document.exists_parse_of_written {v : Value} (hv : v.Storable) {text : String}
    (h : v.Written text.toList) :
    ∃ node, Document.parse text = ⟨node, .ok ()⟩ ∧ ReadAs 0 v node :=
  exists_parse_of_reads (h.reads hv)

/-- What is read to its end is decoded as its node. -/
theorem decode_eq_of_parse {α : Type} {decoder : Decoder α} {text : String} {node : Node}
    (h : Document.parse text = ⟨node, .ok ()⟩) : decode decoder text = decoder .text node := by
  unfold decode
  rw [h]
  show (decoder .text node >>= fun a => Except.ok () >>= fun _ => Except.ok a) = _
  cases decoder .text node <;> rfl

/-- **What decodes every node of a value decodes every text of it.** -/
theorem decode_of_written {α : Type} {decoder : Decoder α} {v : Value} (hv : v.Storable) {a : α}
    (hdecoder : ∀ node, ReadAs 0 v node → decoder .text node = .ok a) {text : String}
    (h : v.Written text.toList) : decode decoder text = .ok a := by
  obtain ⟨node, hparse, hnode⟩ := Document.exists_parse_of_written hv h
  rw [decode_eq_of_parse hparse, hdecoder node hnode]

end Scoresheet.Json
