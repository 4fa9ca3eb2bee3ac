import Scoresheet.Proofs.Json.Decoding
import Scoresheet.Proofs.Json.Laws
import Scoresheet.Proofs.Json.Reordered

/-!
# What the fields of a record are

A record is decoded from an object if each of its fields is given once, whatever else the object
holds and in whatever order. So what becomes of a record is said by the values that the members of
the object give to the names of its fields, and no node is looked at any more.

* `Record.fault?_eq_none_iff` — a record has no fault if no field is given twice.
* `Record.field_eq_ok_iff` — a field is decoded if its name has one value, and that is decoded.
-/

namespace Scoresheet.Json

/-! ### Names with one value -/

/-- The names of fields among members differ if none of them has two values. -/
theorem nodup_filter_iff {names : List String} {members : List (String × Value)} :
    ((members.map Prod.fst).filter (· ∈ names)).Nodup
      ↔ ∀ name ∈ names, (valuesOf name members).length ≤ 1 := by
  rw [List.nodup_iff_count_le_one]
  simp only [length_valuesOf]
  constructor
  · intro h name hname
    have hcount := h name
    rwa [List.count_filter (by simpa using hname)] at hcount
  · intro h name
    -- A name that is no field does not count.
    by_cases hname : name ∈ names
    · rw [List.count_filter (by simpa using hname)]
      exact h name hname
    · have hnot : name ∉ (members.map Prod.fst).filter (· ∈ names) := by simp [hname]
      rw [List.count_eq_zero_of_not_mem hnot]
      exact Nat.zero_le 1

/-- A member is the only one with its key if there are no two. -/
theorem valuesOf_eq_singleton_iff {key : String} {v : Value} {members : List (String × Value)}
    (h : (valuesOf key members).length ≤ 1) : valuesOf key members = [v] ↔ (key, v) ∈ members := by
  rw [← mem_valuesOf]
  constructor
  · intro hvalues
    rw [hvalues]
    exact List.mem_singleton_self v
  · intro hmem
    -- There is one value with the name at most, and the given one is among them.
    cases hvalues : valuesOf key members with
    | nil => simp [hvalues] at hmem
    | cons w rest =>
      have hrest : rest = [] := by simpa [hvalues] using h
      rw [hvalues, hrest, List.mem_singleton] at hmem
      rw [hrest, hmem]

namespace Record

variable {names : List String} {origin : Origin} {members : List (String × Value)}
  {nodes : List (Key × Node)} {position depth last : ℕ} {r : Record}

/-- The record of an object, where no field is given twice and all else can be passed over. -/
theorem eq_of_ofNode
    (hkeys : List.Forall₂ (fun member node => node.1.text = .ok member.1 ∧ node.2.pass = .ok ())
      members nodes)
    (hr : ofNode names origin (.object position depth nodes (.closed last)) = .ok r)
    (hdistinct : ∀ name ∈ names, (valuesOf name members).length ≤ 1) :
    r = ⟨origin, fieldNodes names members nodes, none, last, false⟩ := by
  -- Every name that is asked for occurs once at most, so no field is set twice.
  have hread : ofMembers names ⟨origin, [], none, last, false⟩ nodes
      = ⟨origin, fieldNodes names members nodes, none, last, false⟩ :=
    ofMembers_eq (hkeys.imp fun _ _ h => ⟨h.1, .inr h.2⟩) (nodup_filter_iff.2 hdistinct)
  obtain rfl := Except.ok.inj hr
  simp only [Close.position, hread]
  rfl

/-- **A record has no fault** exactly if no field is given twice, where all else can be passed
over. -/
theorem fault?_eq_none_iff
    (hkeys : List.Forall₂ (fun member node => node.1.text = .ok member.1 ∧ node.2.pass = .ok ())
      members nodes)
    (hr : ofNode names origin (.object position depth nodes (.closed last)) = .ok r) :
    r.fault? = none ↔ ∀ name ∈ names, (valuesOf name members).length ≤ 1 := by
  constructor
  -- A name that came twice would be a fault.
  · intro hfault
    obtain rfl := Except.ok.inj hr
    have hdistinct := nodup_of_ofMembers (r := ⟨origin, [], none, last, false⟩)
      (hkeys.imp fun _ _ h => h.1) List.nodup_nil (Option.or_eq_none_iff.1 hfault).1
    exact nodup_filter_iff.1 hdistinct
  -- Without repetitions the record is read to its end.
  · intro hdistinct
    rw [eq_of_ofNode hkeys hr hdistinct]

/-- **A field is decoded** exactly if its name has one value, and one that is decoded, where no
field is given twice. -/
theorem field_eq_ok_iff {R : Value → Node → Prop}
    (hkeys : List.Forall₂ (fun member node => node.1.text = .ok member.1 ∧ node.2.pass = .ok ())
      members nodes)
    (hvalues : List.Forall₂ (fun member node => R member.2 node.2) members nodes)
    (hr : ofNode names origin (.object position depth nodes (.closed last)) = .ok r)
    (hdistinct : ∀ name ∈ names, (valuesOf name members).length ≤ 1) {name : String}
    (hname : name ∈ names) {α : Type} {decoder : Decoder α} {a : α} {P : Value → Prop}
    (hdecoder : ∀ v node, R v node → (decoder origin node = .ok a ↔ P v)) :
    r.field name decoder = .ok a ↔ ∃ v, valuesOf name members = [v] ∧ P v := by
  obtain rfl := eq_of_ofNode hkeys hr hdistinct
  simp only [valuesOf_eq_singleton_iff (hdistinct name hname)]
  unfold field
  by_cases hmem : name ∈ members.map Prod.fst
  · obtain ⟨⟨_, v⟩, hmember, rfl⟩ := List.mem_map.1 hmem
    obtain ⟨node, hlookup, hnode⟩ :=
      lookup_fieldNodes hvalues (nodup_filter_iff.2 hdistinct) hmember hname
    simp only [hlookup, hdecoder v node hnode]
    -- There is no other member with the name.
    have hvalue := (valuesOf_eq_singleton_iff (hdistinct _ hname)).2 hmember
    constructor
    · exact fun hv => ⟨v, hmember, hv⟩
    · rintro ⟨w, hw, hP⟩
      have hvalue' := (valuesOf_eq_singleton_iff (hdistinct _ hname)).2 hw
      obtain rfl := List.singleton_inj.1 (hvalue.symm.trans hvalue')
      exact hP
  · -- The field is missing.
    have hlookup : (fieldNodes names members nodes).lookup name = none := by
      rw [lookup_eq_none_iff_not_mem, keys_fieldNodes hvalues]
      exact fun h => hmem (List.mem_filter.1 h).1
    simp only [hlookup]
    constructor
    · intro h
      cases h
    · rintro ⟨v, hv, -⟩
      exact absurd (List.mem_map_of_mem hv) hmem

end Record

end Scoresheet.Json
