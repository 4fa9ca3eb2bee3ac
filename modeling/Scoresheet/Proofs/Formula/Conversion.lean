import Scoresheet.Formula.Postfix
import Scoresheet.Proofs.Formula.Grammar

/-!
# The converter and the grammar

The converter accepts just the token sequences that derive from the grammar, and it writes the
listing of the tree of the derivation.

* `Holds` — the innermost frame is not written for an operator inside a phrase of a category.
* `Settles` — what stands behind a phrase of a category makes every operator inside it be written.
* `writesTree` — at a phrase the converter writes the listing of its tree.
* `readsPhrase` — where the converter succeeds with an operand due, it stands at a phrase.

Both directions are about a phrase with tokens behind it and frames below it. The converter decides
on an operator by comparing it with the frames, the grammar by the category; `Holds` and `Settles`
are what the two have in common.
-/

namespace Scoresheet.Formula

-- At a token the state of the reading decides the step: its equations are always a simplification.
attribute [local simp] operandDue operatorDue

/-! ### Operators and frames -/

theorem BinaryOperator.precedence_operator (op : BinaryOperator) :
    op.operator.precedence = op.level.rank := by
  cases op <;> rfl

/-- Operators between operands group to the left, so that only the binding counts. -/
theorem BinaryOperator.popsBefore_operator (earlier : Operator) (later : BinaryOperator) :
    earlier.popsBefore later.operator = true ↔ later.level.rank ≤ earlier.precedence := by
  cases earlier <;> cases later <;> decide

/-- No operator in a phrase of the category makes the innermost frame be written. -/
def Holds (c : Category) (frames : List Frame) : Prop :=
  ∀ (op : Operator) (frames' : List Frame), frames = .operator op :: frames' →
    ∀ later : BinaryOperator, c.rank ≤ later.level.rank → op.precedence < later.level.rank

/-- What stands behind makes the operator be written, if it waits. -/
def Yields (op : Operator) (rest : List Token) : Prop :=
  ∀ (later : Operator) (rest' : List Token), rest = .operator later :: rest' →
    op.popsBefore later = true

/-- What stands behind makes every operator of a phrase of the category be written. -/
def Settles (c : Category) (rest : List Token) : Prop :=
  ∀ op : Operator, c.rank ≤ op.precedence → Yields op rest

theorem Holds.operand {level : Level} {frames : List Frame} (h : Holds (.chain level) frames) :
    Holds level.operand frames := by
  intro op frames' hframes later hlater
  refine h op frames' hframes later (Nat.le_trans ?_ hlater)
  rw [Level.rank_operand]
  exact Nat.le_succ _

/-- An operator waits while its right operand is read. -/
theorem Holds.of_level {level : Level} {op : BinaryOperator} (h : op.level = level)
    (frames : List Frame) : Holds level.operand (.operator op.operator :: frames) := by
  intro o frames' hframes later hlater
  obtain ⟨rfl, rfl⟩ : op.operator = o ∧ frames = frames' := by simpa using hframes
  rw [Level.rank_operand] at hlater
  rw [op.precedence_operator, h]
  exact hlater

/-- A sign waits while its operand is read, and it does so in any factor: a factor that is not in
parentheses has no operators between operands. -/
theorem Holds.factor (frames : List Frame) : Holds .factor frames := by
  intro op frames' hframes later hlater
  change 3 ≤ later.level.rank at hlater
  cases later <;> exact absurd hlater (by decide)

/-- A frame that is no operator is not written before its group ends. -/
theorem Holds.of_ne {c : Category} {frame : Frame} (h : ∀ op, frame ≠ .operator op)
    (frames : List Frame) : Holds c (frame :: frames) :=
  fun op _ hframes => absurd (List.cons.inj hframes).1 (h op)

theorem Holds.nil {c : Category} : Holds c [] :=
  fun _ _ hframes => absurd hframes.symm (List.cons_ne_nil _ _)

theorem Settles.operand {level : Level} {rest : List Token} (h : Settles (.chain level) rest) :
    Settles level.operand rest := by
  intro op hop
  refine h op (Nat.le_trans ?_ hop)
  rw [Level.rank_operand]
  exact Nat.le_succ _

/-- An operator of a level settles what is before it, since it groups to the left. -/
theorem Settles.of_level {level : Level} {op : BinaryOperator} (h : op.level = level)
    (rest : List Token) : Settles (.chain level) (.operator op.operator :: rest) := by
  intro earlier hearlier later rest' hrest
  obtain ⟨rfl, rfl⟩ : op.operator = later ∧ rest = rest' := by simpa using hrest
  rw [BinaryOperator.popsBefore_operator, h]
  exact hearlier

theorem Settles.of_ne {c : Category} {token : Token} (h : ∀ o, token ≠ .operator o)
    (rest : List Token) : Settles c (token :: rest) :=
  fun _ _ later _ hrest => absurd (List.cons.inj hrest).1 (h later)

theorem Settles.nil {c : Category} : Settles c [] :=
  fun _ _ _ _ hrest => absurd hrest.symm (List.cons_ne_nil _ _)

/-- Behind an argument there is a comma or a closing parenthesis. -/
theorem Settles.furtherTokens {c : Category} (others : List (Phrase (.chain .sum)))
    (rest : List Token) : Settles c (Phrase.furtherTokens others ++ .rightParen :: rest) := by
  cases others with
  | nil => exact Settles.of_ne (by simp) _
  | cons a others => exact Settles.of_ne (by simp) _

/-- **An operator that yields is written,** whatever stands behind: another operator, the end of a
group or of an argument, or the end of the formula. -/
theorem operatorDue_of_yields {op : Operator} {rest : List Token} (h : Yields op rest)
    (output : List Token) (frames : List Frame) :
    operatorDue ⟨output, .operator op :: frames⟩ rest
      = operatorDue ⟨.operator op :: output, frames⟩ rest := by
  -- What follows either pops the operator, or stops the converter before it looks at the frames.
  match rest with
  | [] => simp only [operatorDue, finish]
  | .rightParen :: rest => simp only [operatorDue, closeGroup]
  | .comma :: rest => simp only [operatorDue, nextArgument]
  | .operator later :: rest => simp only [operatorDue, yieldTo, h later rest rfl, if_true]
  | .number _ :: _ | .identifier _ :: _ | .function _ _ :: _ | .leftParen :: _ =>
    simp only [operatorDue]

/-- An operator in a phrase writes no frame from before the phrase. -/
theorem yieldTo_of_holds {c : Category} {frames : List Frame} (h : Holds c frames)
    {later : BinaryOperator} (hlater : c.rank ≤ later.level.rank) (output : List Token) :
    yieldTo later.operator output frames = ⟨output, frames⟩ := by
  unfold yieldTo
  -- Only an operator on top could be popped, and it binds less tightly than the later one.
  split
  · rename_i op frames'
    have hop : ¬ op.popsBefore later.operator = true := by
      rw [BinaryOperator.popsBefore_operator]
      exact Nat.not_le_of_lt (h op frames' rfl later hlater)
    rw [if_neg hop]
  · rfl

/-- A call is closed if the number of its arguments fits. -/
theorem closeCall_eq_ok_iff {name : String} {declared passed : Nat} {token : Token} :
    closeCall name declared passed = .ok token
      ↔ CallFits name declared passed ∧ .function name passed = token := by
  unfold closeCall requiredArguments? CallFits
  -- A builtin has an arity of its own; of another name the declared number counts, if it is not
  -- zero.
  cases hname : Builtin.ofName? name with
  | some f =>
    by_cases hcount : f.arity = passed
    · simp [hcount]
    · simp [hcount, Ne.symm hcount]
  | none =>
    by_cases hdeclared : declared = 0
    · simp [hdeclared]
    · by_cases hcount : declared = passed
      · subst hcount
        simp [hdeclared]
      · simp [hdeclared, hcount, Ne.symm hcount]

/-! ### At a phrase -/

theorem operandDue_call {name : String} {declared : Nat} {first : Token}
    (h : first ≠ .rightParen) (rest : List Token) (output : List Token) (frames : List Frame) :
    operandDue ⟨output, frames⟩ (.function name declared :: .leftParen :: first :: rest)
      = operandDue ⟨output, .call name declared 1 :: frames⟩ (first :: rest) := by
  cases first with
  | rightParen => exact absurd rfl h
  | number | identifier | operator | function | leftParen | comma =>
    simp only [operandDue, Conversion.push]

/-- The converter at a phrase: it writes the listing of the tree, and then an operator is due. -/
def WritesTree {c : Category} (d : Phrase c) : Prop :=
  d.Fits → ∀ (output : List Token) (frames : List Frame) (rest : List Token),
    Holds c frames → Settles c rest →
      operandDue ⟨output, frames⟩ (d.tokens ++ rest)
        = operatorDue ⟨d.tree.postorder.reverse ++ output, frames⟩ rest

/-- The converter behind an argument: it writes the listings of the further arguments, and then the
call, which counts the arguments before them as well. -/
theorem operatorDue_furtherTokens {name : String} {declared passed : Nat}
    {arguments : List (Phrase (.chain .sum))} (harguments : ∀ a ∈ arguments, WritesTree a)
    (hfit : ∀ a ∈ arguments, a.Fits) (hcall : CallFits name declared (passed + arguments.length))
    (output : List Token) (frames : List Frame) (rest : List Token) :
    operatorDue ⟨output, .call name declared passed :: frames⟩
        (Phrase.furtherTokens arguments ++ .rightParen :: rest)
      = operatorDue
          ⟨.function name (passed + arguments.length)
            :: ((arguments.map Phrase.tree).flatMap Expr.postorder).reverse ++ output, frames⟩
          rest := by
  -- By induction on the arguments that are still to come. The frame counts one argument more with
  -- every comma, and it is closed where none is left.
  induction arguments generalizing output passed with
  | nil =>
    have hclose := closeCall_eq_ok_iff.2 ⟨hcall, rfl⟩
    -- The parenthesis closes the call, whose count is then that of all its arguments.
    simp only [Phrase.furtherTokens, List.nil_append, operatorDue, closeGroup]
    rw [List.length_nil, Nat.add_zero] at hclose
    rw [hclose]
    rfl
  | cons a others ih =>
    obtain ⟨ha, hothers⟩ := List.forall_mem_cons.1 harguments
    obtain ⟨hfita, hfitothers⟩ := List.forall_mem_cons.1 hfit
    have hcount : passed + 1 + others.length = passed + (a :: others).length := by
      rw [List.length_cons]
      omega
    rw [← hcount] at hcall
    -- The comma, then the argument, and then those behind it by induction.
    calc operatorDue ⟨output, .call name declared passed :: frames⟩
          (Phrase.furtherTokens (a :: others) ++ .rightParen :: rest)
        = operandDue ⟨output, .call name declared (passed + 1) :: frames⟩
            (a.tokens ++ (Phrase.furtherTokens others ++ .rightParen :: rest)) := by
          rw [← List.append_assoc]
          rfl
      _ = operatorDue ⟨a.tree.postorder.reverse ++ output,
              .call name declared (passed + 1) :: frames⟩
            (Phrase.furtherTokens others ++ .rightParen :: rest) :=
          ha hfita _ _ _ (Holds.of_ne (by simp) _) (Settles.furtherTokens others rest)
      _ = _ := by
          rw [ih hothers hfitothers hcall, hcount]
          simp

theorem WritesTree.extend {level : Level} {left : Phrase (.chain level)} {op : BinaryOperator}
    {right : Phrase level.operand} (here : op.level = level) (hleft : WritesTree left)
    (hright : WritesTree right) : WritesTree (.extend left op right here) := by
  rintro ⟨hfitleft, hfitright⟩ output frames rest hframes hrest
  have hyields : Yields op.operator rest := by
    refine hrest op.operator ?_
    rw [op.precedence_operator, here]
    exact Nat.le_refl _
  -- The left operand is written at the operator, which then waits for the right operand and is
  -- written where that one ends.
  calc operandDue ⟨output, frames⟩ ((Phrase.extend left op right here).tokens ++ rest)
      = operandDue ⟨output, frames⟩
          (left.tokens ++ .operator op.operator :: (right.tokens ++ rest)) := by
        rw [Phrase.tokens, List.append_assoc, List.cons_append]
    _ = operatorDue ⟨left.tree.postorder.reverse ++ output, frames⟩
          (.operator op.operator :: (right.tokens ++ rest)) :=
        hleft hfitleft output frames _ hframes (Settles.of_level here _)
    _ = operandDue ⟨left.tree.postorder.reverse ++ output, .operator op.operator :: frames⟩
          (right.tokens ++ rest) := by
        rw [operatorDue, yieldTo_of_holds hframes (by rw [here]; exact Nat.le_refl _)]
        rfl
    _ = operatorDue
          ⟨right.tree.postorder.reverse ++ (left.tree.postorder.reverse ++ output),
            .operator op.operator :: frames⟩ rest :=
        hright hfitright _ _ rest (Holds.of_level here frames) hrest.operand
    _ = operatorDue ⟨(Phrase.extend left op right here).tree.postorder.reverse ++ output, frames⟩
          rest := by
        rw [operatorDue_of_yields hyields]
        simp [Phrase.tree]

theorem WritesTree.negation {operand : Phrase .factor} (h : WritesTree operand) :
    WritesTree (.negation operand) := by
  intro hfit output frames rest hframes hrest
  -- A minus binds tightest, so that whatever follows the factor lets its sign be written.
  have hyields : Yields .neg rest := hrest .neg (Nat.le_refl _)
  -- The sign waits in a frame while its operand is written, and is written behind it.
  calc operandDue ⟨output, frames⟩ ((Phrase.negation operand).tokens ++ rest)
      = operandDue ⟨output, .operator .neg :: frames⟩ (operand.tokens ++ rest) := by
        rw [Phrase.tokens, List.cons_append, operandDue]
        rfl
    _ = operatorDue ⟨operand.tree.postorder.reverse ++ output, .operator .neg :: frames⟩ rest :=
        h hfit _ _ rest (Holds.factor _) hrest
    _ = operatorDue ⟨(Phrase.negation operand).tree.postorder.reverse ++ output, frames⟩ rest := by
        rw [operatorDue_of_yields hyields]
        simp [Phrase.tree]

theorem WritesTree.group {content : Phrase (.chain .sum)} (h : WritesTree content) :
    WritesTree (.group content) := by
  intro hfit output frames rest hframes hrest
  -- The parenthesis shuts off the operators in front of it until its content is written.
  calc operandDue ⟨output, frames⟩ ((Phrase.group content).tokens ++ rest)
      = operandDue ⟨output, .parenthesis :: frames⟩ (content.tokens ++ .rightParen :: rest) := by
        rw [Phrase.tokens, List.cons_append, List.append_assoc, operandDue]
        rfl
    _ = operatorDue ⟨content.tree.postorder.reverse ++ output, .parenthesis :: frames⟩
          (.rightParen :: rest) :=
        h hfit _ _ _ (Holds.of_ne (by simp) _) (Settles.of_ne (by simp) _)
    _ = operatorDue ⟨(Phrase.group content).tree.postorder.reverse ++ output, frames⟩ rest := by
        rw [operatorDue]
        rfl

theorem WritesTree.call {name : String} {declared : Nat} {arguments : List (Phrase (.chain .sum))}
    (h : ∀ a ∈ arguments, WritesTree a) : WritesTree (.call name declared arguments) := by
  rintro ⟨hcall, hfit⟩ output frames rest hframes hrest
  have hclose := closeCall_eq_ok_iff.2 ⟨hcall, rfl⟩
  rw [Phrase.allFit_iff] at hfit
  rw [Phrase.tree_call, Expr.postorder_call, List.length_map]
  cases arguments with
  | nil =>
    -- A call without arguments is closed at once, and no frame is put up for it.
    rw [List.length_nil] at hclose ⊢
    show operandDue _ (.function name declared :: .leftParen :: .rightParen :: rest) = _
    rw [operandDue, hclose]
    rfl
  | cons a others =>
    obtain ⟨ha, hothers⟩ := List.forall_mem_cons.1 h
    obtain ⟨hfita, hfitothers⟩ := List.forall_mem_cons.1 hfit
    have hcount : 1 + others.length = (a :: others).length := by
      rw [List.length_cons, Nat.add_comm]
    rw [← hcount] at hcall
    obtain ⟨first, more, hfirst, hne⟩ := a.exists_tokens_eq_cons
    calc operandDue ⟨output, frames⟩ ((Phrase.call name declared (a :: others)).tokens ++ rest)
        = operandDue ⟨output, frames⟩ (.function name declared :: .leftParen
            :: (a.tokens ++ (Phrase.furtherTokens others ++ .rightParen :: rest))) := by
          simp [Phrase.tokens, Phrase.argumentTokens]
      _ = operandDue ⟨output, .call name declared 1 :: frames⟩
            (a.tokens ++ (Phrase.furtherTokens others ++ .rightParen :: rest)) := by
          rw [hfirst, List.cons_append, operandDue_call hne]
      _ = operatorDue ⟨a.tree.postorder.reverse ++ output, .call name declared 1 :: frames⟩
            (Phrase.furtherTokens others ++ .rightParen :: rest) :=
          ha hfita _ _ _ (Holds.of_ne (by simp) _) (Settles.furtherTokens others rest)
      _ = _ := by
          rw [operatorDue_furtherTokens hothers hfitothers hcall, hcount]
          simp

/-- **At a phrase the converter writes the listing of its tree.** -/
theorem writesTree {c : Category} (d : Phrase c) : WritesTree d := by
  -- By induction on the derivation: one lemma for each rule of the grammar.
  induction d with
  | single level only ih =>
    exact fun hfit output frames rest hframes hrest =>
      ih hfit output frames rest hframes.operand hrest.operand
  | extend level left op right here ihl ihr => exact WritesTree.extend here ihl ihr
  | number value => exact fun _ _ _ _ _ _ => rfl
  | identifier name => exact fun _ _ _ _ _ _ => rfl
  | negation operand ih => exact ih.negation
  | group content ih => exact ih.group
  | call name declared arguments ih => exact WritesTree.call ih

/-! ### Where the converter succeeds -/

/-- Behind an operand an operator stands between operands, if no unary minus is among the tokens. -/
theorem exists_operator_of_cons {o : Operator} {rest : List Token}
    (hneg : .operator .neg ∉ Token.operator o :: rest) :
    ∃ op : BinaryOperator, op.operator = o := by
  refine BinaryOperator.exists_operator_eq ?_
  rintro rfl
  exact hneg List.mem_cons_self

/-- An operator that binds as tightly as those that go on with a phrase, or less, does not come
before it. -/
theorem Ends.yields {c : Category} {rest : List Token} (h : Ends c rest)
    (hneg : .operator .neg ∉ rest) {op : Operator} (hop : c.rank ≤ op.precedence + 1) :
    Yields op rest := by
  rintro later rest' rfl
  obtain ⟨later, rfl⟩ := exists_operator_of_cons hneg
  rw [BinaryOperator.popsBefore_operator]
  exact Nat.le_of_lt_succ (Nat.lt_of_lt_of_le (h later rest' rfl) hop)

/-- What does not go on with a phrase settles it. -/
theorem Ends.settles {c : Category} {rest : List Token} (h : Ends c rest)
    (hneg : .operator .neg ∉ rest) : Settles c rest :=
  fun _ hop => h.yields hneg (Nat.le_succ_of_le hop)

/-- Where the converter succeeds with an operand due, it stands at a phrase of the category. -/
def ReadsPhrase (c : Category) (tokens : List Token) : Prop :=
  ∀ (output : List Token) (frames : List Frame) (out : List Token), Holds c frames →
    operandDue ⟨output, frames⟩ tokens = .ok out →
      ∃ (d : Phrase c) (rest : List Token), d.Fits ∧ tokens = d.tokens ++ rest ∧ Ends c rest

/-- The same of all sequences of fewer tokens, among them those that stand inside parentheses. -/
def ReadsShorter (c : Category) (bound : Nat) : Prop :=
  ∀ tokens : List Token, tokens.length < bound → .operator .neg ∉ tokens → ReadsPhrase c tokens

/-- Behind the phrase at which it stands, the converter succeeds with an operator due. -/
theorem ReadsPhrase.exists_rest {c : Category} {tokens : List Token} (h : ReadsPhrase c tokens)
    (hneg : .operator .neg ∉ tokens) {output : List Token} {frames : List Frame}
    {out : List Token} (hframes : Holds c frames)
    (hout : operandDue ⟨output, frames⟩ tokens = .ok out) :
    ∃ (d : Phrase c) (rest : List Token), d.Fits ∧ tokens = d.tokens ++ rest ∧ Ends c rest ∧
      rest.length < tokens.length ∧ .operator .neg ∉ rest ∧
        operatorDue ⟨d.tree.postorder.reverse ++ output, frames⟩ rest = .ok out := by
  obtain ⟨d, rest, hfit, rfl, hends⟩ := h output frames out hframes hout
  have hrest : .operator .neg ∉ rest := fun hmem => hneg (List.mem_append_right _ hmem)
  -- A phrase has a token at least, which is why the rest is shorter.
  obtain ⟨first, more, hfirst, -⟩ := d.exists_tokens_eq_cons
  refine ⟨d, rest, hfit, rfl, hends, ?_, hrest, ?_⟩
  · rw [hfirst, List.length_append, List.length_cons]
    omega
  -- The phrase is read as it is written, and what comes out of the rest is what came out of all.
  · rw [← writesTree d hfit output frames rest hframes (hends.settles hrest)]
    exact hout

/-- A chain is gone on with as long as operators of its level stand behind it. -/
theorem exists_grows {level : Level} {bound : Nat} (hshort : ReadsShorter level.operand bound)
    {frames : List Frame} (hframes : Holds (.chain level) frames) (left : Phrase (.chain level))
    (hfit : left.Fits) {rest : List Token} (hlength : rest.length ≤ bound)
    (hneg : .operator .neg ∉ rest) (hends : Ends level.operand rest) {output out : List Token}
    (hout : operatorDue ⟨output, frames⟩ rest = .ok out) :
    ∃ (d : Phrase (.chain level)) (rest' : List Token),
      d.Fits ∧ left.Grows rest d rest' ∧ Ends (.chain level) rest' := by
  by_cases hlevel : ∃ (op : BinaryOperator) (rest₁ : List Token),
      rest = .operator op.operator :: rest₁ ∧ op.level = level
  · obtain ⟨op, rest₁, hrest, here⟩ := hlevel
    have hlength₁ : rest.length = rest₁.length + 1 := by rw [hrest, List.length_cons]
    rw [hrest] at hneg hout
    have hneg₁ : .operator .neg ∉ rest₁ := List.not_mem_of_not_mem_cons hneg
    rw [operatorDue, yieldTo_of_holds hframes (by rw [here]; exact Nat.le_refl _)] at hout
    obtain ⟨right, rest₂, hright, hrest₁, hends₂, hlength₂, hneg₂, hout₂⟩ :=
      (hshort rest₁ (by omega) hneg₁).exists_rest hneg₁ (Holds.of_level here frames) hout
    -- What ends the right operand does not bind tighter than the operator before it, which is
    -- therefore written, and the frames are again those below the chain.
    have hrank : level.operand.rank = op.operator.precedence + 1 := by
      rw [Level.rank_operand, op.precedence_operator, here]
    have hyields : Yields op.operator rest₂ := hends₂.yields hneg₂ (Nat.le_of_eq hrank)
    rw [operatorDue_of_yields hyields] at hout₂
    obtain ⟨d, rest', hd, hgrows, hends'⟩ :=
      exists_grows hshort hframes (.extend left op right here) ⟨hfit, hright⟩ (by omega) hneg₂
        hends₂ hout₂
    rw [hrest, hrest₁]
    exact ⟨d, rest', hd, .step hgrows, hends'⟩
  · refine ⟨left, rest, hfit, .refl _ _, hends.of_operand fun op rest₁ hrest here => ?_⟩
    exact hlevel ⟨op, rest₁, hrest, here⟩
termination_by rest.length

theorem ReadsPhrase.chain {level : Level} {tokens : List Token}
    (hneg : .operator .neg ∉ tokens) (hshort : ReadsShorter level.operand tokens.length)
    (h : ReadsPhrase level.operand tokens) : ReadsPhrase (.chain level) tokens := by
  intro output frames out hframes hout
  obtain ⟨only, rest, hfit, rfl, hends, hlength, hneg', hout'⟩ :=
    h.exists_rest hneg hframes.operand hout
  obtain ⟨d, rest', hd, hgrows, hends'⟩ :=
    exists_grows hshort hframes (.single only) hfit (Nat.le_of_lt hlength) hneg' hends hout'
  exact ⟨d, rest', hd, hgrows.tokens_append, hends'⟩

/-- Behind a sum in which the converter does not fail there is a comma, a closing parenthesis or
nothing. -/
theorem eq_nil_or_of_ends {rest : List Token} (hends : Ends (.chain .sum) rest)
    (hneg : .operator .neg ∉ rest) {state : Conversion} {out : List Token}
    (hout : operatorDue state rest = .ok out) :
    rest = [] ∨ ∃ rest', rest = .rightParen :: rest' ∨ rest = .comma :: rest' := by
  match rest with
  | [] => exact .inl rfl
  | .rightParen :: rest' => exact .inr ⟨rest', .inl rfl⟩
  | .comma :: rest' => exact .inr ⟨rest', .inr rfl⟩
  | .operator o :: rest' =>
    obtain ⟨op, rfl⟩ := exists_operator_of_cons hneg
    -- No operator between operands is left over by a sum.
    have hrank := hends op rest' rfl
    exact absurd hrank (by cases op <;> decide)
  | .number _ :: _ | .identifier _ :: _ | .function _ _ :: _ | .leftParen :: _ =>
    simp [operatorDue] at hout

/-- Where the converter succeeds behind an argument, the call goes on to its closing parenthesis,
and the number of its arguments fits. -/
theorem exists_furtherTokens {bound : Nat} (hshort : ReadsShorter (.chain .sum) bound)
    {name : String} {declared passed : Nat} {frames : List Frame} {rest : List Token}
    (hlength : rest.length ≤ bound) (hneg : .operator .neg ∉ rest) (hends : Ends (.chain .sum) rest)
    {output out : List Token}
    (hout : operatorDue ⟨output, .call name declared passed :: frames⟩ rest = .ok out) :
    ∃ (others : List (Phrase (.chain .sum))) (rest' : List Token),
      Phrase.AllFit others ∧ rest = Phrase.furtherTokens others ++ .rightParen :: rest' ∧
        CallFits name declared (passed + others.length) := by
  obtain rfl | ⟨rest₁, hrest | hrest⟩ := eq_nil_or_of_ends hends hneg hout
  · -- The formula does not end inside a call.
    simp [operatorDue, finish] at hout
  -- The parenthesis closes the call here, if the count is right.
  · refine ⟨[], rest₁, trivial, hrest, ?_⟩
    rw [hrest, operatorDue, closeGroup] at hout
    cases hclose : closeCall name declared passed with
    | ok token => exact (closeCall_eq_ok_iff.1 hclose).1
    | error fault =>
      rw [hclose] at hout
      cases hout
  -- A comma asks for one more argument, and the rest behind that argument is shorter.
  · have hlength₁ : rest.length = rest₁.length + 1 := by rw [hrest, List.length_cons]
    rw [hrest] at hneg hout
    have hneg₁ : .operator .neg ∉ rest₁ := List.not_mem_of_not_mem_cons hneg
    -- The count of the frame has gone up by one, and one argument less is to come.
    rw [operatorDue, nextArgument] at hout
    obtain ⟨a, rest₂, hfit, hrest₁, hends₂, hlength₂, hneg₂, hout₂⟩ :=
      (hshort rest₁ (by omega) hneg₁).exists_rest hneg₁ (Holds.of_ne (by simp) _) hout
    obtain ⟨others, rest', hothers, hrest₂, hcall⟩ :=
      exists_furtherTokens hshort (by omega) hneg₂ hends₂ hout₂
    refine ⟨a :: others, rest', ⟨hfit, hothers⟩, ?_, ?_⟩
    · rw [hrest, hrest₁, hrest₂, Phrase.furtherTokens, List.cons_append, List.append_assoc]
    · rw [List.length_cons]
      rw [Nat.add_right_comm] at hcall
      exact hcall
termination_by rest.length

/-- Where the converter succeeds behind the name of a function, a call begins. -/
theorem ReadsPhrase.call {name : String} {declared : Nat} {tokens : List Token}
    (hneg : .operator .neg ∉ tokens) (hshort : ReadsShorter (.chain .sum) (tokens.length + 1)) :
    ReadsPhrase .factor (.function name declared :: tokens) := by
  intro output frames out hframes hout
  -- A name of a function is called, and the parenthesis behind it opens the call.
  match tokens with
  | .leftParen :: first :: rest =>
    by_cases hfirst : first = .rightParen
    -- A call without arguments.
    · rw [hfirst, operandDue] at hout
      cases hclose : closeCall name declared 0 with
      | ok token =>
        have hcall := (closeCall_eq_ok_iff.1 hclose).1
        refine ⟨.call name declared [], rest, ⟨hcall, trivial⟩, ?_, Ends.factor rest⟩
        rw [hfirst]
        rfl
      | error fault =>
        rw [hclose] at hout
        cases hout
    · -- An argument is due, which the converter counts before it has read it.
      rw [operandDue_call hfirst] at hout
      have hneg₁ : .operator .neg ∉ first :: rest := List.not_mem_of_not_mem_cons hneg
      obtain ⟨a, rest₁, hfit, hrest, hends, hlength, hneg₂, hout'⟩ :=
        (hshort (first :: rest) (by simp) hneg₁).exists_rest hneg₁ (Holds.of_ne (by simp) _) hout
      rw [List.length_cons] at hlength
      obtain ⟨others, rest', hothers, hrest₁, hcall⟩ :=
        exists_furtherTokens hshort (by rw [List.length_cons, List.length_cons]; omega) hneg₂
          hends hout'
      rw [Nat.add_comm] at hcall
      refine ⟨.call name declared (a :: others), rest', ⟨hcall, hfit, hothers⟩, ?_,
        Ends.factor rest'⟩
      rw [hrest, hrest₁]
      simp [Phrase.tokens, Phrase.argumentTokens]
  -- Behind the parenthesis the sequence must not end.
  | [.leftParen] => simp [operandDue] at hout
  -- Without a parenthesis there is no call.
  | [] | .number _ :: _ | .identifier _ :: _ | .operator _ :: _ | .function _ _ :: _
  | .rightParen :: _ | .comma :: _ => simp [operandDue] at hout

theorem ReadsPhrase.group {tokens : List Token} (hneg : .operator .neg ∉ tokens)
    (h : ReadsPhrase (.chain .sum) tokens) : ReadsPhrase .factor (.leftParen :: tokens) := by
  intro output frames out hframes hout
  -- After the parenthesis a chain is read, and only a closing parenthesis ends the group.
  rw [operandDue] at hout
  obtain ⟨content, rest, hfit, htokens, hends, -, hneg', hout'⟩ :=
    h.exists_rest hneg (Holds.of_ne (by simp) _) hout
  obtain rfl | ⟨rest', rfl | rfl⟩ := eq_nil_or_of_ends hends hneg' hout'
  · simp [operatorDue, finish] at hout'
  · refine ⟨.group content, rest', hfit, ?_, Ends.factor rest'⟩
    rw [htokens, Phrase.tokens, List.cons_append, List.append_assoc]
    rfl
  · simp [operatorDue, nextArgument] at hout'

theorem ReadsPhrase.negation {tokens : List Token} (h : ReadsPhrase .factor tokens) :
    ReadsPhrase .factor (.operator .sub :: tokens) := by
  intro output frames out hframes hout
  rw [operandDue] at hout
  obtain ⟨operand, rest, hfit, htokens, hends⟩ := h _ _ out (Holds.factor _) hout
  refine ⟨.negation operand, rest, hfit, ?_, hends⟩
  rw [htokens, Phrase.tokens, List.cons_append]

theorem ReadsPhrase.factor {tokens : List Token} (hneg : .operator .neg ∉ tokens)
    (hshort : ∀ c, ReadsShorter c tokens.length) : ReadsPhrase .factor tokens := by
  -- By the first token: numbers, names, calls, groups and signed factors start an operand, and
  -- nothing else does.
  match tokens with
  | .number value :: rest =>
    exact fun _ _ _ _ _ => ⟨.number value, rest, trivial, rfl, Ends.factor rest⟩
  | .identifier name :: rest =>
    exact fun _ _ _ _ _ => ⟨.identifier name, rest, trivial, rfl, Ends.factor rest⟩
  | .function name declared :: rest =>
    have hneg' : .operator .neg ∉ rest := List.not_mem_of_not_mem_cons hneg
    exact ReadsPhrase.call hneg' (hshort _)
  | .leftParen :: rest =>
    have hneg' : .operator .neg ∉ rest := List.not_mem_of_not_mem_cons hneg
    exact ReadsPhrase.group hneg' (hshort _ rest (Nat.lt_succ_self _) hneg')
  -- A minus where an operand is due is the sign of the factor behind it.
  | .operator .sub :: rest =>
    have hneg' : .operator .neg ∉ rest := List.not_mem_of_not_mem_cons hneg
    exact ReadsPhrase.negation (hshort _ rest (Nat.lt_succ_self _) hneg')
  -- The sign itself is not among the tokens of a formula.
  | .operator .neg :: rest => exact absurd List.mem_cons_self hneg
  | [] | .rightParen :: _ | .comma :: _ | .operator .add :: _ | .operator .mul :: _
  | .operator .div :: _ =>
    intro output frames out hframes hout
    simp [operandDue] at hout

/-- **Where the converter succeeds with an operand due, it stands at a phrase,** of any category
that its frames allow. -/
theorem readsPhrase {tokens : List Token} (hneg : .operator .neg ∉ tokens) (c : Category) :
    ReadsPhrase c tokens := by
  -- The induction is on the number of tokens. What is due behind the first token has fewer, and a
  -- sum and a product begin with what the category below them begins with.
  have hshort : ∀ c, ReadsShorter c tokens.length :=
    fun c tokens' hlength hneg' => readsPhrase hneg' c
  have hfactor : ReadsPhrase .factor tokens := ReadsPhrase.factor hneg hshort
  have hproduct : ReadsPhrase (.chain .product) tokens :=
    ReadsPhrase.chain hneg (hshort _) hfactor
  match c with
  | .factor => exact hfactor
  | .chain .product => exact hproduct
  | .chain .sum => exact ReadsPhrase.chain hneg (hshort _) hproduct
termination_by tokens.length

/-! ### Whole formulas -/

/-- The converter's result is that of the reading from the start. -/
theorem toPostfix_eq_ok_iff_operandDue {tokens out : List Token} :
    toPostfix tokens = .ok out ↔ operandDue {} tokens = .ok out := by
  unfold toPostfix
  cases tokens with
  -- Of no tokens both are a fault, if not the same one.
  | nil => simp [operandDue]
  | cons first rest =>
    rw [List.isEmpty_cons, if_neg Bool.false_ne_true]
    cases operandDue {} (first :: rest) with
    | ok out' =>
      show Except.ok out' = Except.ok out ↔ Except.ok out' = Except.ok out
      rw [Except.ok.injEq, Except.ok.injEq]
    | error fault =>
      change Except.error (Error.grammar fault) = Except.ok out ↔ _
      simp

/-- A sequence that is not converted has a grammar fault. -/
theorem toPostfix_error {tokens : List Token} {e : Error} (h : toPostfix tokens = .error e) :
    ∃ fault, e = .grammar fault := by
  -- The converter fails on an empty list at once, or on the way with the fault of the grammar.
  unfold toPostfix at h
  split at h
  · exact ⟨_, (Except.error.inj h).symm⟩
  · cases hread : operandDue {} tokens with
    | ok out =>
      rw [hread] at h
      cases h
    | error fault =>
      rw [hread] at h
      exact ⟨fault, (Except.error.inj h).symm⟩

/-- A derivation is converted to the listing of its tree. -/
theorem toPostfix_of_derivation {tokens : List Token} (d : Derivation tokens) :
    toPostfix tokens = .ok d.phrase.tree.postorder := by
  rw [toPostfix_eq_ok_iff_operandDue]
  calc operandDue {} tokens
      = operandDue ⟨[], []⟩ (d.phrase.tokens ++ []) := by rw [d.derives, List.append_nil]
    _ = operatorDue ⟨d.phrase.tree.postorder.reverse ++ [], []⟩ [] :=
        writesTree d.phrase d.fits [] [] [] Holds.nil Settles.nil
    _ = .ok d.phrase.tree.postorder := by
        rw [operatorDue, finish, List.append_nil, List.reverse_reverse]

/-- What is converted has a derivation. -/
theorem exists_derivation_of_toPostfix {tokens out : List Token}
    (hneg : .operator .neg ∉ tokens) (h : toPostfix tokens = .ok out) :
    Nonempty (Derivation tokens) := by
  rw [toPostfix_eq_ok_iff_operandDue] at h
  obtain ⟨d, rest, hfit, htokens, hends, -, hneg', hout⟩ :=
    (readsPhrase hneg (.chain .sum)).exists_rest hneg Holds.nil h
  obtain rfl | ⟨rest', rfl | rfl⟩ := eq_nil_or_of_ends hends hneg' hout
  · exact ⟨⟨d, hfit, by rw [htokens, List.append_nil]⟩⟩
  · simp [operatorDue, closeGroup] at hout
  · simp [operatorDue, nextArgument] at hout

/-- **The converter accepts the grammar.** A token sequence without a unary minus has at most one
derivation; it is converted just in case it has one, to the listing of the tree; and it is otherwise
refused for a grammar fault. -/
theorem toPostfix_iff_derivation {tokens : List Token} (hneg : .operator .neg ∉ tokens) :
    Subsingleton (Derivation tokens) ∧
      (∀ out, toPostfix tokens = .ok out ↔
        ∃ d : Derivation tokens, d.phrase.tree.postorder = out) ∧
      (¬ Nonempty (Derivation tokens) → ∃ fault, toPostfix tokens = .error (.grammar fault)) := by
  -- The derivation is unique because the grammar is not ambiguous; what is left is to give one for
  -- every output, and an output for it.
  refine ⟨inferInstance, fun out => ⟨fun h => ?_, ?_⟩, fun hempty => ?_⟩
  · obtain ⟨d⟩ := exists_derivation_of_toPostfix hneg h
    -- The derivation was found from some run of the converter, and this run gives its tree.
    rw [toPostfix_of_derivation d] at h
    exact ⟨d, Except.ok.inj h⟩
  · rintro ⟨d, rfl⟩
    exact toPostfix_of_derivation d
  · cases h : toPostfix tokens with
    | ok out => exact absurd (exists_derivation_of_toPostfix hneg h) hempty
    | error e =>
      obtain ⟨fault, rfl⟩ := toPostfix_error h
      exact ⟨fault, rfl⟩

/-- A formula with all that the grammar has: `-max(a, 2) * (b - a)`. -/
def signedCall : Derivation
    [.operator .sub, .function "max" 2, .leftParen, .identifier "a", .comma, .number 2, .rightParen,
      .operator .mul, .leftParen, .identifier "b", .operator .sub, .identifier "a",
      .rightParen] where
  phrase :=
    .single (.extend
      (.single (.negation (.call "max" 2
        [.single (.single (.identifier "a")), .single (.single (.number 2))])))
      .mul
      (.group (.extend (.single (.single (.identifier "b"))) .sub (.single (.identifier "a")) rfl))
      rfl)
  fits := by
    have hmax : CallFits "max" 2 2 := by
      refine ⟨fun f hf => ?_, fun _ _ => rfl⟩
      obtain rfl := Option.some.inj ((Builtin.ofName?_name .max).symm.trans hf)
      rfl
    exact ⟨⟨hmax, trivial, trivial, trivial⟩, trivial, trivial⟩
  derives := rfl

theorem toPostfix_signedCall :
    toPostfix
        [.operator .sub, .function "max" 2, .leftParen, .identifier "a", .comma, .number 2,
          .rightParen, .operator .mul, .leftParen, .identifier "b", .operator .sub,
          .identifier "a", .rightParen]
      = .ok [.identifier "a", .number 2, .function "max" 2, .operator .neg, .identifier "b",
          .identifier "a", .operator .sub, .operator .mul] := by
  have hneg : .operator .neg ∉
      [.operator .sub, .function "max" 2, .leftParen, .identifier "a", .comma, .number 2,
        .rightParen, .operator .mul, .leftParen, .identifier "b", .operator .sub,
        .identifier "a", Token.rightParen] := by
    simp
  exact ((toPostfix_iff_derivation hneg).2.1 _).2 ⟨signedCall, rfl⟩

end Scoresheet.Formula
