import Scoresheet.Proofs.Json.Decoding
import Scoresheet.Proofs.Json.Standing

/-!
# What decoders make of the nodes of a value

A decoder undoes the encoding of a domain value if it makes that value of every node that stands for
what it was encoded as. For the decoders of scalars this is a matter of their definition; lists,
tables and records of fields inherit it from their parts.

* `Decodes` — a decoder makes a domain value of every node of a JSON value.
* `decodes_list`, `decodes_optional`, `exists_table` — lists, values that may be missing, tables.
* `Record.Holds` — the fields of a record are those of an object.
* `decodes_record` — a record is decoded from what its fields hold.

Members may come in any order and a field is found by its name, so that the names must differ; of a
table the entries are found in the order of its members.
-/

namespace Scoresheet.Json

variable {α κ : Type} {decoder : Decoder α}

/-- **A decoder makes a domain value of every node of a JSON value,** wherever the node comes from.
-/
def Decodes (decoder : Decoder α) (v : Value) (a : α) : Prop :=
  ∀ origin node, v.Stands node → decoder origin node = .ok a

/-! ### Scalars -/

theorem decodes_string (s : String) : Decodes Decoder.string (.string s) s := by
  rintro origin _ ⟨⟩
  rfl

theorem decodes_bool (b : Bool) : Decodes Decoder.bool (.bool b) b := by
  rintro origin _ ⟨⟩
  rfl

theorem decodes_float (x : Float) : Decodes Decoder.float (.float x) x := by
  rintro origin _ ⟨⟩
  rfl

theorem decodes_intWithin {least greatest n : ℤ} (hleast : least ≤ n) (hgreatest : n ≤ greatest) :
    Decodes (Decoder.intWithin least greatest) (.int n) n := by
  rintro origin _ ⟨⟩
  exact if_pos ⟨hleast, hgreatest⟩

theorem decodes_identifier (id : Int64) : Decodes Decoder.identifier (.int id.toInt) id := by
  intro origin node h
  have hread := decodes_intWithin id.le_toInt (Int.le_sub_one_of_lt id.toInt_lt) origin node h
  unfold Decoder.identifier
  rw [show (9223372036854775807 : ℤ) = 2 ^ 63 - 1 from rfl,
    show (-9223372036854775808 : ℤ) = -2 ^ 63 from rfl, hread]
  simp [Except.map]

theorem decodes_count {n : ℕ} (h : n < 2 ^ 64) : Decodes Decoder.count (.int n) n := by
  intro origin node hnode
  have hread := decodes_intWithin (Int.natCast_nonneg n)
    (by omega : (n : ℤ) ≤ 18446744073709551615) origin node hnode
  unfold Decoder.count
  rw [hread]
  simp [Except.map]

/-- A text that denotes a domain value. -/
theorem decodes_ofText {parse : String → Option α} {s : String} {a : α} (h : parse s = some a) :
    Decodes (Decoder.ofText parse) (.string s) a := by
  rintro origin _ ⟨⟩
  simp only [Decoder.ofText, h]

/-- A word of a set. -/
theorem decodes_word {parse : String → Option α} {s : String} {a : α} (h : parse s = some a) :
    Decodes (Decoder.word parse) (.string s) a := by
  rintro origin _ ⟨⟩
  simp only [Decoder.word, h]

/-! ### Values that may be missing, lists -/

/-- A node that stands for something else than nothing is not null. -/
theorem Decoder.optional_of_stands {v : Value} (hv : v ≠ .null) {node : Node} (h : v.Stands node)
    (origin : Origin) : optional decoder origin node = (decoder origin node).map some := by
  cases h with
  | null => exact absurd rfl hv
  | _ => rfl

/-- **A value that may be missing.** What is there must not be written as nothing. -/
theorem decodes_optional {encode : α → Value} {o : Option α}
    (h : ∀ a ∈ o, Decodes decoder (encode a) a ∧ encode a ≠ .null) :
    Decodes (Decoder.optional decoder) (.ofOption encode o) o := by
  intro origin node hnode
  cases o with
  | none =>
    cases hnode
    rfl
  | some a =>
    -- A value that is not null is read by the decoder itself.
    obtain ⟨hdecodes, hnull⟩ := h a rfl
    rw [Decoder.optional_of_stands hnull hnode, hdecodes origin node hnode]
    rfl

theorem items_eq_ok {encode : α → Value} {as : List α} {nodes : List Node}
    (hnodes : List.Forall₂ (fun a node => (encode a).Stands node) as nodes)
    (h : ∀ a ∈ as, Decodes decoder (encode a) a) (origin : Origin) :
    Decoder.items decoder origin nodes = .ok as := by
  induction hnodes with
  | nil => rfl
  | cons hhead _ ih =>
    obtain ⟨hdecodes, hrest⟩ := List.forall_mem_cons.1 h
    simp [Decoder.items, hdecodes origin _ hhead, ih hrest, bind, Except.bind, pure, Except.pure]

/-- **A list** is decoded if its items are. -/
theorem decodes_list {encode : α → Value} {as : List α}
    (h : ∀ a ∈ as, Decodes decoder (encode a) a) :
    Decodes (Decoder.list decoder) (.array (as.map encode)) as := by
  rintro origin _ (_ | _ | _ | _ | _ | ⟨position, depth, last, hnodes⟩)
  rw [List.forall₂_map_left_iff] at hnodes
  simp only [Decoder.list, items_eq_ok hnodes h]
  rfl

/-! ### Tables -/

theorem members_eq_ok {key : Key → Except Fault κ} {name : κ → String} {encode : α → Value}
    {entries : List (κ × α)} {nodes : List (Key × Node)}
    (hnodes : List.Forall₂ (fun e node => node.1.Spells (name e.1) ∧ (encode e.2).Stands node.2)
      entries nodes)
    (hkey : ∀ (k : κ) (k' : Key), k'.Spells (name k) → key k' = .ok k)
    (h : ∀ e ∈ entries, Decodes decoder (encode e.2) e.2) (origin : Origin) :
    Decoder.members key decoder origin nodes = .ok entries := by
  -- By induction on the members, of which each is decoded by its own key and node.
  induction hnodes with
  | nil => rfl
  | cons hhead _ ih =>
    obtain ⟨hdecodes, hrest⟩ := List.forall_mem_cons.1 h
    simp [Decoder.members, hkey _ _ hhead.1, hdecodes origin _ hhead.2, ih hrest, bind,
      Except.bind, pure, Except.pure]

/-- Keys that are read back have different names. -/
theorem injective_of_spells {key : Key → Except Fault κ} {name : κ → String}
    (hkey : ∀ (k : κ) (k' : Key), k'.Spells (name k) → key k' = .ok k) :
    Function.Injective name := by
  intro a b h
  have ha := hkey a _ (Key.spells_ofText 0 (name a))
  have hb := hkey b _ (Key.spells_ofText 0 (name b))
  rw [← h, ha] at hb
  exact Except.ok.inj hb

/-- **The entries of a table** are found, in the order of its members. -/
theorem exists_table {key : Key → Except Fault κ} {name : κ → String} {encode : α → Value}
    {entries : List (κ × α)} (hkey : ∀ (k : κ) (k' : Key), k'.Spells (name k) → key k' = .ok k)
    (h : ∀ e ∈ entries, Decodes decoder (encode e.2) e.2) {node : Node}
    (hnode : (Value.object (entries.map fun e => (name e.1, encode e.2))).Stands node)
    (origin : Origin) :
    ∃ entries' : List (κ × α), entries'.Perm entries ∧
      Decoder.table key decoder origin node = .ok entries' := by
  obtain ⟨position, depth, last, nodes, members, rfl, hperm, hnodes⟩ := Value.stands_object.1 hnode
  -- The members in their order are those of the entries in some order.
  obtain ⟨entries', rfl, hperm'⟩ :=
    (congrFun₂ (List.eq_map_comp_perm _) members entries).mpr hperm
  refine ⟨entries', hperm', ?_⟩
  rw [List.forall₂_map_left_iff] at hnodes
  have hentries := members_eq_ok hnodes hkey (fun e he => h e (hperm'.mem_iff.1 he)) origin
  simp only [Decoder.table, hentries]
  rfl

/-! ### Records -/

/-- **The fields of a record are those of an object,** and the record has no fault. How the values
of the members and the nodes of the fields are related is left open. -/
structure Record.Holds (R : Value → Node → Prop) (r : Record) (members : List (String × Value)) :
    Prop where
  fault : r.fault? = none
  named : r.positional = false
  lookup : ∀ {name : String} {v : Value}, (name, v) ∈ members →
    ∃ node, r.fields.lookup name = some node ∧ R v node

namespace Record

variable {R : Value → Node → Prop} {names : List String} {members : List (String × Value)}
  {nodes : List (Key × Node)}

/-- The names of members and the nodes of their values, as far as the names are those of fields. -/
def fieldNodes (names : List String) (members : List (String × Value))
    (nodes : List (Key × Node)) : List (String × Node) :=
  (List.zipWith (fun m n => (m.1, n.2)) members nodes).filter (·.1 ∈ names)

/-- **The fields among the members** become those of the record, in their order, if they are
different ones and all else can be passed over. -/
theorem ofMembers_eq
    (hkeys : List.Forall₂ (fun member node => node.1.text = .ok member.1 ∧
      (member.1 ∈ names ∨ node.2.pass = .ok ())) members nodes) {r : Record}
    (hdistinct : (r.fields.map Prod.fst ++ (members.map Prod.fst).filter (· ∈ names)).Nodup) :
    ofMembers names r nodes = { r with fields := r.fields ++ fieldNodes names members nodes } := by
  induction hkeys generalizing r with
  | nil => simp [ofMembers, fieldNodes]
  | @cons member node members nodes hkey _ ih =>
    obtain ⟨key, node⟩ := node
    obtain ⟨htext, hpass⟩ : key.text = .ok member.1 ∧ (member.1 ∈ names ∨ node.pass = .ok ()) :=
      hkey
    by_cases hname : member.1 ∈ names
    · rw [List.map_cons, List.filter_cons_of_pos (by simpa using hname)] at hdistinct
      -- The name is none of those before it, so that the member is no second one.
      have hnew : r.fields.lookup member.1 = none := by
        rw [lookup_eq_none_iff_not_mem]
        intro hmem
        exact (List.nodup_append.1 hdistinct).2.2 _ hmem _ List.mem_cons_self rfl
      have hdistinct' : ((r.fields ++ [(member.1, node)]).map Prod.fst
          ++ (members.map Prod.fst).filter (· ∈ names)).Nodup := by
        simpa using hdistinct
      have hread := @ih { r with fields := r.fields ++ [(member.1, node)] } hdistinct'
      unfold ofMembers
      simp [htext, hname, hnew, hread, fieldNodes]
    · -- Any other member is passed over.
      rw [List.map_cons, List.filter_cons_of_neg (by simpa using hname)] at hdistinct
      have hread := ih hdistinct
      unfold ofMembers
      simp [htext, hname, hpass.resolve_left hname, hread, fieldNodes]

/-- A record without a fault was given no field twice. -/
theorem nodup_of_ofMembers
    (hkeys : List.Forall₂ (fun member node => node.1.text = .ok member.1) members nodes)
    {r : Record} (hr : (r.fields.map Prod.fst).Nodup)
    (hfault : (ofMembers names r nodes).fault? = none) :
    (r.fields.map Prod.fst ++ (members.map Prod.fst).filter (· ∈ names)).Nodup := by
  induction hkeys generalizing r with
  | nil => simpa using hr
  | @cons member node members nodes hkey _ ih =>
    obtain ⟨key, node⟩ := node
    have htext : key.text = .ok member.1 := hkey
    -- A fault stays, whatever comes after it.
    have hwith : ∀ fault, (r.withFault fault).fault? ≠ none := fun fault => by simp [withFault]
    unfold ofMembers at hfault
    simp only [htext, List.contains_eq_mem, decide_eq_true_eq] at hfault
    split_ifs at hfault with hname hold
    · exact absurd hfault (hwith _)
    · rw [List.map_cons, List.filter_cons_of_pos (by simpa using hname)]
      have hnew : member.1 ∉ r.fields.map Prod.fst := by
        rwa [← lookup_eq_none_iff_not_mem, ← Option.not_isSome_iff_eq_none]
      have hr' : ((r.fields ++ [(member.1, node)]).map Prod.fst).Nodup := by
        rw [List.map_append, List.map_singleton, ← List.concat_eq_append]
        exact hr.concat hnew
      simpa using ih hr' hfault
    · rw [List.map_cons, List.filter_cons_of_neg (by simpa using hname)]
      split at hfault
      · exact ih hr hfault
      · exact absurd hfault (hwith _)

/-- The names of the fields among members. -/
theorem keys_fieldNodes {S : String × Value → Key × Node → Prop}
    (h : List.Forall₂ S members nodes) :
    (fieldNodes names members nodes).map Prod.fst = (members.map Prod.fst).filter (· ∈ names) := by
  have hkeys : (List.zipWith (fun m n => (m.1, n.2)) members nodes).map Prod.fst
      = members.map Prod.fst := by
    induction h with
    | nil => rfl
    | cons _ _ ih => rw [List.zipWith_cons_cons, List.map_cons, ih, List.map_cons]
  rw [← hkeys, fieldNodes, List.filter_map]
  rfl

/-- A field is found by its name among the members. -/
theorem lookup_fieldNodes
    (hvalues : List.Forall₂ (fun member node => R member.2 node.2) members nodes)
    (hdistinct : ((members.map Prod.fst).filter (· ∈ names)).Nodup) {name : String} {v : Value}
    (h : (name, v) ∈ members) (hname : name ∈ names) :
    ∃ node, (fieldNodes names members nodes).lookup name = some node ∧ R v node := by
  rw [← keys_fieldNodes hvalues] at hdistinct
  -- The member is cut out of the list, and its node stands at the same place among the nodes.
  obtain ⟨before, after, rfl⟩ := List.append_of_mem h
  obtain ⟨first, node, second, rfl, hbefore, hnode, -⟩ := exists_forall₂_of_append_cons hvalues
  refine ⟨node.2, lookup_eq_some_of_mem hdistinct (List.mem_filter.2 ⟨?_, by simpa using hname⟩),
    hnode⟩
  rw [List.zipWith_append hbefore.length_eq]
  exact List.mem_append_right _ List.mem_cons_self

/-- **The record of an object** holds those of its members that are fields, if these differ. -/
theorem exists_holds {fields : List (String × Value)}
    (hfields : ∀ field ∈ fields, field ∈ members ∧ field.1 ∈ names)
    (hdistinct : ((members.map Prod.fst).filter (· ∈ names)).Nodup)
    (hkeys : List.Forall₂ (fun member node => node.1.text = .ok member.1 ∧
      (member.1 ∈ names ∨ node.2.pass = .ok ())) members nodes)
    (hvalues : List.Forall₂ (fun member node => R member.2 node.2) members nodes)
    (position depth : ℕ) {close : Close} (hclose : close.fault? = none) (origin : Origin) :
    ∃ r, ofNode names origin (.object position depth nodes close) = .ok r ∧ r.Holds R fields := by
  -- The members that are fields are put down in their order, and the others are passed over.
  have hread : ofMembers names ⟨origin, [], none, close.position, false⟩ nodes
      = ⟨origin, fieldNodes names members nodes, none, close.position, false⟩ :=
    ofMembers_eq hkeys hdistinct
  refine ⟨⟨origin, fieldNodes names members nodes, none, close.position, false⟩, ?_, rfl, rfl,
    fun hfield => ?_⟩
  · simp only [ofNode, hclose, hread]
    rfl
  -- The node of a field is the one whose member has its name.
  · obtain ⟨hmember, hname⟩ := hfields _ hfield
    exact lookup_fieldNodes hvalues hdistinct hmember hname

/-- **The fields of a record** have the names of the object's members. -/
theorem mem_keys_of_ofNode {node : Node} {origin : Origin} {r : Record} {field : String × Node}
    (hnode : (Value.object members).Stands node) (hr : ofNode names origin node = .ok r)
    (hfield : field ∈ r.fields) : field.1 ∈ members.map Prod.fst := by
  obtain ⟨position, depth, last, nodes, members', rfl, hperm, hnodes⟩ :=
    Value.stands_object.1 hnode
  obtain rfl := Except.ok.inj hr
  obtain hnone | ⟨node, hmem, htext, -⟩ := mem_fields_ofMembers hfield
  · cases hnone
  · -- The member has a name of its own, which the key spells.
    have hnames := forall_mem_of_forall₂ (P := fun node => ∀ name, node.1.text = .ok name →
      name ∈ members.map Prod.fst) hnodes fun member hmember node h name hname => by
        obtain rfl := Except.ok.inj (h.1.text.symm.trans hname)
        exact List.mem_map_of_mem (hperm.mem_iff.1 hmember)
    exact hnames node hmem field.1 htext

variable {r : Record} {name : String} {v : Value} {a : α}

theorem Holds.field (h : r.Holds R members) (name : String) (hmember : (name, v) ∈ members)
    (hdecodes : ∀ origin node, R v node → decoder origin node = .ok a) :
    r.field name decoder = .ok a := by
  obtain ⟨node, hlookup, hnode⟩ := h.lookup hmember
  unfold Record.field
  simp only [hlookup, hdecodes r.origin node hnode]

theorem Holds.fieldOr (h : r.Holds R members) (name : String) (hmember : (name, v) ∈ members)
    (value : α) (hdecodes : ∀ origin node, R v node → decoder origin node = .ok a) :
    r.fieldOr name value decoder = .ok a := by
  obtain ⟨node, hlookup, hnode⟩ := h.lookup hmember
  unfold Record.fieldOr
  simp only [hlookup, hdecodes r.origin node hnode]

theorem Holds.fieldOptional {o : Option α} (h : r.Holds R members) (name : String)
    (hmember : (name, v) ∈ members)
    (hdecodes : ∀ origin node, R v node → Decoder.optional decoder origin node = .ok o) :
    r.fieldOptional name decoder = .ok o := by
  unfold Record.fieldOptional
  rw [h.named, if_neg Bool.false_ne_true]
  exact h.fieldOr name hmember none hdecodes

theorem Holds.build (h : r.Holds R members) (value : Except Fault α) : r.build value = value := by
  unfold Record.build
  rw [h.fault]

end Record

@[simp] theorem applyFirst_ok {β : Type} (f : α → β) (a : α) :
    applyFirst (.ok f) (.ok a) = .ok (f a) := rfl

/-- **A record is decoded from what its fields hold.** The fields may be taken to come from
elsewhere than the record. -/
theorem decodes_record {names : List String} {source : Origin → Origin}
    {make : Record → Except Fault α}
    (hdecoder : ∀ origin node,
      decoder origin node = Record.ofNode names (source origin) node >>= make)
    {members : List (String × Value)} (hnames : members.map Prod.fst = names)
    (hdistinct : (members.map Prod.fst).Nodup) {a : α}
    (hmake : ∀ r : Record, r.Holds Value.Stands members → make r = .ok a) :
    Decodes decoder (.object members) a := by
  intro origin node hnode
  subst hnames
  -- The members may come in any order, and what stands for each is decoded.
  obtain ⟨position, depth, last, nodes, members', rfl, hperm, hnodes⟩ :=
    Value.stands_object.1 hnode
  have hclose : (Close.closed last).fault? = none := rfl
  have hfields : ∀ field ∈ members, field ∈ members' ∧ field.1 ∈ members.map Prod.fst :=
    fun field hfield => ⟨hperm.mem_iff.2 hfield, List.mem_map_of_mem hfield⟩
  -- Every member is a field, so that there is nothing to pass over.
  have hkeys : List.Forall₂ (fun member node => node.1.text = .ok member.1 ∧
      (member.1 ∈ members.map Prod.fst ∨ node.2.pass = .ok ())) members' nodes :=
    forall₂_imp_of_mem hnodes fun member hmember node h =>
      ⟨h.1.text, .inl (List.mem_map_of_mem (hperm.mem_iff.1 hmember))⟩
  obtain ⟨r, hread, hholds⟩ := Record.exists_holds hfields
    (((hperm.map _).nodup_iff.2 hdistinct).filter _) hkeys (hnodes.imp fun _ _ => And.right)
    position depth hclose (source origin)
  rw [hdecoder, hread]
  exact hmake r hholds

end Scoresheet.Json
