import Scoresheet.Proofs.Formula.Names
import Scoresheet.Proofs.Formula.Substitution

/-!
# The free variables of a formula

The names that a formula reads are all that its value depends on in the bindings, and it has no
value unless every one of them is bound to a number.

* `freeVariables_eq_ok_iff` — when the names of a formula are known, and which they are.
* `pairwise_idxOf_firstOccurrences` — the names come in the order in which they are met first.
* `substitute_congr` — bindings that agree on the names of a sequence replace them alike.
* `exists_number_of_evaluate` — a formula with a value has a number for each of its names.
* `evaluate_reads_freeVariables` — what a formula reads of the bindings, and all that it reads.

That no name is passed over rests on the converter, which drops none, and on the machine, which
stops at each that is left (`names_of_evaluatePostfix`).
-/

namespace Scoresheet.Formula

/-! ### First occurrences -/

section FirstOccurrences

variable {α : Type} [DecidableEq α] {a : α} {list : List α}

@[simp] theorem mem_firstOccurrences : a ∈ firstOccurrences list ↔ a ∈ list := by
  induction list with
  | nil => rfl
  | cons b rest ih =>
    rw [firstOccurrences, List.mem_cons, List.mem_cons, List.mem_filter, ih]
    by_cases heq : a = b <;> simp [heq]

theorem nodup_firstOccurrences (list : List α) : (firstOccurrences list).Nodup := by
  induction list with
  | nil => exact List.nodup_nil
  | cons b rest ih =>
    rw [firstOccurrences, List.nodup_cons]
    exact ⟨by simp, ih.filter _⟩

end FirstOccurrences

/-- **The names of a sequence** come in the order in which they are met first. -/
theorem pairwise_idxOf_firstOccurrences (tokens : List Token) :
    (firstOccurrences (tokens.filterMap Token.name?)).Pairwise fun a b =>
      tokens.idxOf (.identifier a) < tokens.idxOf (.identifier b) := by
  induction tokens with
  | nil => exact List.Pairwise.nil
  | cons token rest ih =>
    -- A name that does not stand in front is met one place later than in the rest.
    have hlater : ∀ {a b : String}, token ≠ .identifier a → token ≠ .identifier b →
        rest.idxOf (.identifier a) < rest.idxOf (.identifier b) →
          (token :: rest).idxOf (.identifier a) < (token :: rest).idxOf (.identifier b) := by
      intro a b ha hb hlt
      rw [List.idxOf_cons_ne rest ha, List.idxOf_cons_ne rest hb]
      exact Nat.succ_lt_succ hlt
    cases token with
    | identifier name =>
      have hne : ∀ {a : String}, a ≠ name → Token.identifier name ≠ .identifier a :=
        fun ha heq => ha (Token.identifier.inj heq).symm
      rw [List.filterMap_cons_some (rfl : Token.name? (.identifier name) = some name),
        firstOccurrences, List.pairwise_cons]
      constructor
      · intro b hb
        have hb' : b ≠ name := by simpa using (List.mem_filter.1 hb).2
        rw [List.idxOf_cons_self, List.idxOf_cons_ne rest (hne hb')]
        exact Nat.succ_pos _
      · refine List.Pairwise.imp_of_mem (fun {a b} ha hb hlt => ?_) (ih.filter _)
        have ha' : a ≠ name := by simpa using (List.mem_filter.1 ha).2
        have hb' : b ≠ name := by simpa using (List.mem_filter.1 hb).2
        exact hlater (hne ha') (hne hb') hlt
    | number | operator | function | leftParen | rightParen | comma =>
      rw [List.filterMap_cons_none rfl]
      exact ih.imp (hlater Token.noConfusion Token.noConfusion)

/-- **The names of a formula are known** if it is cut into tokens and these are converted. -/
theorem freeVariables_eq_ok_iff {formula : String} {names : List String} :
    freeVariables formula = .ok names ↔
      ∃ tokens out, tokenize formula = .ok tokens ∧ toPostfix tokens = .ok out ∧
        firstOccurrences (tokens.filterMap Token.name?) = names := by
  unfold freeVariables
  constructor
  · intro h
    obtain ⟨tokens, htokens, h⟩ := bind_eq_ok_iff.1 h
    obtain ⟨out, hout, h⟩ := bind_eq_ok_iff.1 h
    exact ⟨tokens, out, htokens, hout, Except.ok.inj h⟩
  · rintro ⟨tokens, out, htokens, hout, rfl⟩
    exact bind_eq_ok_iff.2 ⟨tokens, htokens, bind_eq_ok_iff.2 ⟨out, hout, rfl⟩⟩

/-! ### What a formula reads of the bindings -/

/-- Bindings that agree on a name replace it alike. -/
theorem bind_congr {bindings bindings' : Bindings} {token : Token}
    (h : ∀ name, token = .identifier name → bindings.find? name = bindings'.find? name) :
    token.bind bindings = token.bind bindings' := by
  by_cases hname : ∃ name, token = .identifier name
  · obtain ⟨name, rfl⟩ := hname
    rw [bind_identifier, bind_identifier, h name rfl]
  · rw [bind_of_ne_identifier bindings (not_exists.1 hname),
      bind_of_ne_identifier bindings' (not_exists.1 hname)]

/-- **Bindings that agree on the names of a sequence** replace them alike, or fail alike. -/
theorem substitute_congr {bindings bindings' : Bindings} {tokens : List Token}
    (h : ∀ name, .identifier name ∈ tokens → bindings.find? name = bindings'.find? name) :
    substitute bindings tokens = substitute bindings' tokens := by
  unfold substitute
  induction tokens with
  | nil => rfl
  | cons token rest ih =>
    -- A token only looks its own name up.
    have hfirst : token.bind bindings = token.bind bindings' :=
      bind_congr fun name heq => h name (heq ▸ List.mem_cons_self)
    have hrest := ih fun name hmem => h name (List.mem_cons_of_mem token hmem)
    rw [List.mapM_cons, List.mapM_cons, hfirst, hrest]

/-- A bound value is the finite number that its text denotes. -/
theorem boundValue_eq_ok_iff {name text : String} {value : Float} :
    boundValue name text = .ok value ↔
      Decimal.ofText? (Text.trim text.toList) = some value ∧ value.isFinite = true := by
  unfold boundValue
  cases Decimal.ofText? (Text.trim text.toList) with
  | none => simp
  -- The text is a number, which has to be finite.
  | some x =>
    dsimp only
    split
    · rename_i hfinite
      simp only [Except.ok.injEq, Option.some.injEq]
      exact ⟨fun heq => ⟨heq, heq ▸ hfinite⟩, fun h => h.1⟩
    · rename_i hinfinite
      refine iff_of_false (fun h => nomatch h) fun ⟨heq, hfinite⟩ => hinfinite ?_
      rwa [Option.some.inj heq]

/-- **A formula with a value** has a number for each of its names. -/
theorem exists_number_of_evaluate {formula : String} {bindings : Bindings} {tokens : List Token}
    {value : Float} (htokens : tokenize formula = .ok tokens)
    (h : evaluate formula bindings = .ok value) {name : String}
    (hmem : .identifier name ∈ tokens) :
    ∃ text x, bindings.find? name = some text ∧
      Decimal.ofText? (Text.trim text.toList) = some x ∧ x.isFinite = true := by
  obtain ⟨tokens₁, htokens₁, h⟩ := bind_eq_ok_iff.1 h
  obtain rfl := Except.ok.inj (htokens.symm.trans htokens₁)
  obtain ⟨tokens', hsubstitute, h⟩ := bind_eq_ok_iff.1 h
  obtain ⟨out, hout, hvalue⟩ := bind_eq_ok_iff.1 h
  -- A name that is left after the substitution would stop the machine.
  have hnames := (names_of_evaluatePostfix
    (neg_notMem_of_substitute htokens hsubstitute) hout hvalue).1
  cases htext : bindings.find? name with
  | none => exact absurd ((identifier_mem_substitute_iff hsubstitute).2 ⟨hmem, htext⟩) (hnames name)
  | some text =>
    obtain ⟨x, hx⟩ := boundValue_of_substitute hsubstitute hmem htext
    obtain ⟨hread, hfinite⟩ := boundValue_eq_ok_iff.1 hx
    exact ⟨text, x, rfl, hread, hfinite⟩

/-- **What a formula reads.** Its free variables are the names in it, each once, in the order in
which they are met first. Bindings that agree on them give the same value or the same error, and
where there is a value each of them is bound to the text of a finite number. -/
theorem evaluate_reads_freeVariables {formula : String} {names : List String}
    (h : freeVariables formula = .ok names) :
    (∃ tokens, tokenize formula = .ok tokens ∧ names.Nodup ∧
      (∀ name, name ∈ names ↔ .identifier name ∈ tokens) ∧
      names.Pairwise fun a b =>
        tokens.idxOf (.identifier a) < tokens.idxOf (.identifier b)) ∧
    (∀ bindings bindings' : Bindings,
      (∀ name ∈ names, bindings.find? name = bindings'.find? name) →
        evaluate formula bindings = evaluate formula bindings') ∧
    ∀ (bindings : Bindings) (value : Float), evaluate formula bindings = .ok value →
      ∀ name ∈ names, ∃ text x, bindings.find? name = some text ∧
        Decimal.ofText? (Text.trim text.toList) = some x ∧ x.isFinite = true := by
  obtain ⟨tokens, out, htokens, -, rfl⟩ := freeVariables_eq_ok_iff.1 h
  -- The names that are listed are those that stand in the formula.
  have hread : ∀ name, name ∈ firstOccurrences (tokens.filterMap Token.name?) ↔
      .identifier name ∈ tokens := fun name => by
    rw [mem_firstOccurrences, mem_filterMap_name?]
  refine ⟨⟨tokens, htokens, nodup_firstOccurrences _, hread,
    pairwise_idxOf_firstOccurrences tokens⟩, ?_, ?_⟩
  -- The substitution is the only stage that sees the bindings, and it asks for these names alone.
  · intro bindings bindings' hagree
    have hsubstitute : substitute bindings tokens = substitute bindings' tokens :=
      substitute_congr fun name hmem => hagree name ((hread name).2 hmem)
    unfold evaluate
    rw [htokens]
    simp only [bind, Except.bind, hsubstitute]
  -- A formula with a value has none of its names left over.
  · intro bindings value hvalue name hname
    exact exists_number_of_evaluate htokens hvalue ((hread name).1 hname)

/-- A product reads two of three bound names, and cannot do without the second. -/
theorem evaluate_reads_freeVariables_product :
    freeVariables "b * (a - max(b, 2))" = .ok ["b", "a"] ∧
      evaluate "b * (a - max(b, 2))" ⟨[("a", " 5 "), ("b", "-1.5"), ("c", "x")]⟩
        = evaluate "b * (a - max(b, 2))" ⟨[("b", "-1.5"), ("a", " 5 ")]⟩ ∧
      ∀ value, evaluate "b * (a - max(b, 2))" ⟨[("b", "3")]⟩ ≠ .ok value := by
  have hfree : freeVariables "b * (a - max(b, 2))" = .ok ["b", "a"] := by decide +kernel
  -- The formula is read once, and both the agreement and the missing value follow.
  obtain ⟨-, hagree, hbound⟩ := evaluate_reads_freeVariables hfree
  refine ⟨hfree, hagree _ _ (by decide), fun value hvalue => ?_⟩
  obtain ⟨text, x, htext, -⟩ := hbound _ value hvalue "a" (by decide)
  have hnone : Bindings.find? ⟨[("b", "3")]⟩ "a" = none := by decide
  rw [hnone] at htext
  cases htext

end Scoresheet.Formula
