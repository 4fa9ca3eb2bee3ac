import Scoresheet.Proofs.Decimal.Integers
import Scoresheet.Proofs.Json.Decoding

/-!
# The numbers of a JSON text

A JSON text has no word for an infinity, and a number too great for a float has no value. The other
format of sessions has such words, so that this is what tells the two apart.

* `Node.Finite` — every number in a node stands for a finite float.
* `ReadsFinite.succ` — what one step of the reader makes of finite nodes is finite.
* `Document.finite_parse` — every number in a text that has been read is finite.
-/

namespace Scoresheet.Json

/-- Every number in a node stands for a finite float. -/
inductive Node.Finite : Node → Prop
  | intro {node : Node}
    (number : ∀ {origin x}, Decoder.float origin node = .ok x → x.isFinite = true)
    (parts : ∀ part ∈ node.parts, part.Finite) : node.Finite

namespace Node.Finite

theorem number {node : Node} (h : node.Finite) {origin : Origin} {x : Float}
    (hx : Decoder.float origin node = .ok x) : x.isFinite = true := by
  cases h with
  | intro number parts => exact number hx

theorem of_mem_parts {node part : Node} (h : node.Finite) (hpart : part ∈ node.parts) :
    part.Finite := by
  cases h with
  | intro number parts => exact parts part hpart

/-- A node without parts that stands for no number. -/
theorem leaf {node : Node} (hnumber : ∀ origin x, Decoder.float origin node ≠ .ok x)
    (hparts : node.parts = []) : node.Finite :=
  .intro (fun h => absurd h (hnumber _ _)) (by simp [hparts])

@[simp] theorem null (position : Nat) : (Node.null position).Finite :=
  leaf (fun _ _ h => nomatch h) rfl

@[simp] theorem bool (position : Nat) (b : Bool) : (Node.bool position b).Finite :=
  leaf (fun _ _ h => nomatch h) rfl

@[simp] theorem string (position : Nat) (s : String) : (Node.string position s).Finite :=
  leaf (fun _ _ h => nomatch h) rfl

@[simp] theorem unreadable (fault : Fault) : (Node.unreadable fault).Finite :=
  leaf (fun _ _ h => nomatch h) rfl

@[simp] theorem broken (wanted passed word : Fault) : (Node.broken wanted passed word).Finite :=
  leaf (fun _ _ h => nomatch h) rfl

theorem int {position : Nat} {n : Int} (h : n.natAbs ≤ 2 ^ 64) : (Node.int position n).Finite := by
  have hlog : n.natAbs.log2 ≤ 1022 := by
    rw [Nat.log2_eq_log_two]
    calc Nat.log 2 n.natAbs ≤ Nat.log 2 (2 ^ 64) := Nat.log_mono_right h
      _ = 64 := Nat.log_pow (by norm_num) 64
      _ ≤ 1022 := by norm_num
  refine .intro (fun hx => ?_) (fun _ hpart => nomatch hpart)
  rw [← Except.ok.inj hx]
  exact Decimal.isFinite_ofInt hlog

theorem float {position : Nat} {x : Float} (h : x.isFinite = true) :
    (Node.float position x).Finite :=
  .intro (fun hx => by rw [← Except.ok.inj hx]; exact h) (fun _ hpart => nomatch hpart)

theorem array {position depth : Nat} {items : List Node} {close : Close}
    (h : ∀ item ∈ items, item.Finite) : (Node.array position depth items close).Finite :=
  .intro (fun hx => nomatch hx) h

theorem object {position depth : Nat} {members : List (Key × Node)} {close : Close}
    (h : ∀ member ∈ members, member.2.Finite) :
    (Node.object position depth members close).Finite := by
  refine .intro (fun hx => nomatch hx) fun part hpart => ?_
  obtain ⟨member, hmember, rfl⟩ := List.mem_map.1 hpart
  exact h member hmember

end Node.Finite

/-! ### Scalars -/

/-- **A number of a text** is an integer of 64 bits or a finite float, or has no value. -/
theorem finite_numberNode (position : Nat) (negative integral : Bool) (digits : Nat)
    (exponent : Int) : (numberNode position negative integral digits exponent).Finite := by
  unfold numberNode
  split
  -- An integer without a sign, one with a sign, and a float; only an integer within 64 bits is kept
  -- as one.
  · rename_i hsmall
    rw [Bool.and_eq_true, decide_eq_true_iff, Nat.pow_eq] at hsmall
    exact .int hsmall.2.le
  · split
    · rename_i hsmall
      rw [Bool.and_eq_true, decide_eq_true_iff, Nat.pow_eq] at hsmall
      refine .int ?_
      rw [Int.natAbs_neg, Int.natAbs_natCast]
      exact hsmall.2.trans (Nat.pow_le_pow_right (by norm_num) (by norm_num))
    · dsimp only
      -- The float is looked at before it is kept, and its sign makes no difference.
      split
      · rename_i hfinite
        refine .float ?_
        split
        · exact Decimal.isFinite_neg hfinite
        · exact hfinite
      · exact .unreadable _

@[simp] theorem finite_failedFrom (start : Nat) (wanted passed : Fault) :
    (failedFrom start wanted passed).1.Finite := .broken _ _ _

@[simp] theorem finite_lacksDigit (start : Nat) (c : Cursor) : (lacksDigit start c).1.Finite :=
  .broken _ _ _

theorem finite_parseNumber (position : Nat) (negative : Bool) (c : Cursor) :
    (parseNumber position negative c).1.Finite := by
  unfold parseNumber
  dsimp only
  split
  · exact finite_lacksDigit _ _
  split
  · exact finite_failedFrom _ _ _
  split
  · rename_i parsed hparsed
    -- Only a point without digits after it stops the reader here.
    split at hparsed
    · split at hparsed
      · rw [← Except.error.inj hparsed]
        exact finite_lacksDigit _ _
      · cases hparsed
    · cases hparsed
  · split
    · split
      · split
        · exact finite_lacksDigit _ _
        · exact finite_numberNode _ _ false _ _
      · exact finite_numberNode _ _ _ _ _
    · exact finite_numberNode _ _ _ _ _

theorem finite_of_parseNumber? {c : Cursor} {parsed : Parsed} (h : parseNumber? c = some parsed) :
    parsed.1.Finite := by
  unfold parseNumber? at h
  split at h
  · rw [← Option.some.inj h]
    exact finite_parseNumber _ _ _
  · split at h
    · rw [← Option.some.inj h]
      exact finite_parseNumber _ _ _
    · cases h
  · cases h

theorem finite_parseWord {node : Node} (h : node.Finite) (letters : List Char) (c : Cursor) :
    (parseWord node letters c).1.Finite := by
  induction letters generalizing c with
  | nil => exact h
  | cons letter letters ih =>
    unfold parseWord
    split
    · split
      · exact ih _
      · simp
    · simp

theorem finite_stringNode (position : Nat) (scanned : Scanned) :
    (stringNode position scanned).1.Finite := by
  unfold stringNode
  split <;> simp [failed]

/-! ### Arrays and objects -/

theorem finite_lastMember (key : Key) (fault : Fault) :
    ∀ member ∈ (lastMember key fault).1, member.2.Finite :=
  List.forall_mem_singleton.2 (.broken _ _ _)

/-- What is read with a given fuel is finite: the values, the items of arrays and the members of
objects. -/
structure ReadsFinite (fuel : Nat) : Prop where
  value : ∀ depth c, (parseValue depth fuel c).1.Finite
  items : ∀ depth first c, ∀ item ∈ (parseItems depth first fuel c).1, item.Finite
  members : ∀ depth first c, ∀ member ∈ (parseMembers depth first fuel c).1, member.2.Finite

theorem readsFinite_zero : ReadsFinite 0 where
  value depth c := by
    rw [parseValue]
    exact .broken _ _ _
  items depth first c := by
    rw [parseItems]
    exact fun _ hitem => nomatch hitem
  members depth first c := by
    rw [parseMembers]
    exact fun _ hmember => nomatch hmember

namespace ReadsFinite

variable {fuel : Nat}

theorem value_succ (h : ReadsFinite fuel) (depth : Nat) (c : Cursor) :
    (parseValue depth (fuel + 1) c).1.Finite := by
  rw [parseValue]
  dsimp only
  -- By the character in front: a word, a string, a list of parts, or a number.
  split
  · exact finite_parseWord (.null _) _ _
  · exact finite_parseWord (.bool _ _) _ _
  · exact finite_parseWord (.bool _ _) _ _
  · exact finite_stringNode _ _
  · exact .array (h.items _ _ _)
  · exact .object (h.members _ _ _)
  · cases hnumber : parseNumber? c.skipSpace with
    | some parsed => exact finite_of_parseNumber? hnumber
    | none => exact .broken _ _ _

theorem items_succ (h : ReadsFinite fuel) (depth : Nat) (first : Bool) (c : Cursor) :
    ∀ item ∈ (parseItems depth first (fuel + 1) c).1, item.Finite := by
  rw [parseItems]
  dsimp only
  split
  · exact fun _ hitem => nomatch hitem
  · exact fun _ hitem => nomatch hitem
  -- Another item stands here, or something in its place that ends the reading.
  · split
    · have hnode := h.value depth (if first then c.skipSpace else c.skipSpace.advance 1)
      -- The reading ends with this item, or goes on behind it.
      split
      · rename_i hread
        rw [hread] at hnode
        exact List.forall_mem_singleton.2 hnode
      · rename_i hread
        rw [hread] at hnode
        exact List.forall_mem_cons.2 ⟨hnode, h.items _ _ _⟩
    · exact fun _ hitem => nomatch hitem

theorem members_succ (h : ReadsFinite fuel) (depth : Nat) (first : Bool) (c : Cursor) :
    ∀ member ∈ (parseMembers depth first (fuel + 1) c).1, member.2.Finite := by
  rw [parseMembers]
  dsimp only
  split
  · exact fun _ hmember => nomatch hmember
  · exact fun _ hmember => nomatch hmember
  · split
    -- A name is due, then a colon, then the value.
    · split
      · -- What goes wrong before the value leaves a broken member behind.
        split
        · exact finite_lastMember _ _
        · rename_i colon _
          split
          · have hnode := h.value depth (colon.skipSpace.advance 1)
            split
            · rename_i hread
              rw [hread] at hnode
              exact List.forall_mem_singleton.2 hnode
            · rename_i hread
              rw [hread] at hnode
              exact List.forall_mem_cons.2 ⟨hnode, h.members _ _ _⟩
          · exact finite_lastMember _ _
      · exact finite_lastMember _ _
    · exact fun _ hmember => nomatch hmember

/-- **One step of the reader.** If what is read with less fuel is finite, so is what is made of it.
-/
theorem succ (h : ReadsFinite fuel) : ReadsFinite (fuel + 1) where
  value := h.value_succ
  items := h.items_succ
  members := h.members_succ

end ReadsFinite

theorem readsFinite (fuel : Nat) : ReadsFinite fuel := by
  induction fuel with
  | zero => exact readsFinite_zero
  | succ fuel ih => exact ih.succ

/-- **Every number in a text that has been read** stands for a finite float. -/
theorem Document.finite_parse (text : String) : (Document.parse text).node.Finite := by
  have hnode := (readsFinite (2 * text.toList.length + 2)).value 0 ⟨0, text.toList⟩
  unfold Document.parse
  dsimp only
  split
  · rename_i hread
    rwa [hread] at hnode
  · rename_i hread
    rwa [hread] at hnode

end Scoresheet.Json
