import Scoresheet.Proofs.Formula.Names
import Scoresheet.Proofs.Formula.Substitution

/-!
# Signs behind operands

Where an operator is due, the converter takes any operator for one between two operands, the unary
minus too, which the stack machine then gives one operand only. Every unary minus directly behind an
operand therefore leaves a number on the machine's stack. Formulas have no unary minus among their
tokens, but a token sequence that is made by hand may have one.

* `straySigns` — how many such signs a token sequence has.
* `Lists` — the output lists so many trees.
* `Awaits` — the operands that the frames wait with.
* `Balanced` — the output lists the operands that the frames wait with, and so many more.
* `lists_of_run`, `lists_of_toPostfix` — what a run of the converter has written.
* `evaluatePostfix_of_straySigns` — when that is a postfix sequence, and what the machine says of
  it.
* `evaluate_ne_stack` — no formula gets as far as a malformed sequence.

The invariant of a run is `Balanced`. Each step keeps the number of operands that are there beside
those that the frames wait with, but for an operand that is read, which is one more until an
operator takes it, and for a stray sign, which does not take the operand before it.
-/

namespace Scoresheet.Formula

/-! ### Stray signs -/

/-- Whether an operand ends with a token. -/
def Token.endsOperand : Token → Bool
  | .number _ | .identifier _ | .rightParen => true
  | .operator _ | .function _ _ | .leftParen | .comma => false

/-- **The number of unary minus signs directly behind an operand,** where it is said whether there
is one in front of the sequence. -/
def straySigns : (behind : Bool) → List Token → ℕ
  | _, [] => 0
  | true, .operator .neg :: rest => straySigns false rest + 1
  | _, token :: rest => straySigns token.endsOperand rest

/-- Only a unary minus is a stray sign. -/
theorem straySigns_cons {token : Token} (h : token ≠ .operator .neg) (behind : Bool)
    (rest : List Token) :
    straySigns behind (token :: rest) = straySigns token.endsOperand rest := by
  rw [straySigns]
  exact fun _ => h

theorem straySigns_operator (op : Operator) (rest : List Token) :
    straySigns true (.operator op :: rest)
      = straySigns false rest + if op = .neg then 1 else 0 := by
  cases op <;> rfl

/-- Sequences without unary minus have no stray signs. -/
theorem straySigns_eq_zero {tokens : List Token} (h : .operator .neg ∉ tokens) (behind : Bool) :
    straySigns behind tokens = 0 := by
  induction tokens generalizing behind with
  | nil => rfl
  | cons token rest ih =>
    rw [List.mem_cons, not_or] at h
    rw [straySigns_cons (Ne.symm h.1), ih h.2]

/-! ### What the output lists -/

/-- **The output lists so many trees,** the latest token first, and the calls in it fit. -/
structure Lists (output : List Token) (count : ℕ) : Prop where
  trees : ∃ trees : List Expr, Expr.listing trees = output.reverse ∧ trees.length = count
  fits : ∀ token ∈ output, token.CountFits

namespace Lists

variable {output : List Token} {count : ℕ}

theorem nil : Lists [] 0 :=
  ⟨⟨[], rfl, rfl⟩, fun _ h => absurd h List.not_mem_nil⟩

/-- A token that is a tree by itself is one more. -/
theorem operand (h : Lists output count) {e : Expr} {token : Token} (he : e.postorder = [token])
    (hfits : token.CountFits) : Lists (token :: output) (count + 1) := by
  obtain ⟨⟨trees, hlisting, rfl⟩, hfits'⟩ := h
  refine ⟨⟨e :: trees, ?_, rfl⟩, List.forall_mem_cons.2 ⟨hfits, hfits'⟩⟩
  rw [Expr.listing_cons, hlisting, List.reverse_cons, he]

/-- A unary minus takes the last tree. -/
theorem negation (h : Lists output (count + 1)) :
    Lists (.operator .neg :: output) (count + 1) := by
  obtain ⟨⟨trees, hlisting, hlength⟩, hfits⟩ := h
  obtain ⟨operand, trees, rfl⟩ := List.exists_cons_of_length_eq_add_one hlength
  refine ⟨⟨.negation operand :: trees, ?_, hlength⟩, List.forall_mem_cons.2 ⟨trivial, hfits⟩⟩
  rw [List.reverse_cons, ← hlisting]
  simp

/-- Any other operator takes the last two. -/
theorem binary (h : Lists output (count + 2)) (op : BinaryOperator) :
    Lists (.operator op.operator :: output) (count + 1) := by
  obtain ⟨⟨trees, hlisting, hlength⟩, hfits⟩ := h
  obtain ⟨right, trees, rfl⟩ := List.exists_cons_of_length_eq_add_one hlength
  rw [List.length_cons, Nat.add_right_cancel_iff] at hlength
  obtain ⟨left, trees, rfl⟩ := List.exists_cons_of_length_eq_add_one hlength
  refine ⟨⟨.binary op left right :: trees, ?_, hlength⟩, List.forall_mem_cons.2 ⟨trivial, hfits⟩⟩
  rw [List.reverse_cons, ← hlisting]
  simp

/-- A call takes as many of the last trees as it has arguments. -/
theorem call {passed : ℕ} (h : Lists output (passed + count)) {name : String} {declared : ℕ}
    {token : Token} (hclose : closeCall name declared passed = .ok token) :
    Lists (token :: output) (count + 1) := by
  -- The trees on top are the arguments, in reverse, and the call takes their place.
  obtain ⟨⟨trees, hlisting, hlength⟩, hfits⟩ := h
  obtain ⟨hcall, rfl⟩ := closeCall_eq_ok_iff.1 hclose
  -- There are as many trees as arguments at least.
  have hpassed : (trees.take passed).length = passed := by
    rw [List.length_take]
    omega
  refine ⟨⟨.call name (trees.take passed).reverse :: trees.drop passed, ?_, ?_⟩,
    List.forall_mem_cons.2 ⟨fun f hf => hcall.1 f hf, hfits⟩⟩
  · rw [Expr.listing_cons, Expr.postorder_call, ← List.append_assoc, ← Expr.listing_append,
      List.take_append_drop, hlisting, List.length_reverse, hpassed, List.reverse_cons]
  · rw [List.length_cons, List.length_drop]
    omega

end Lists

/-! ### What the frames wait with -/

/-- **The operands that frames wait with,** not counting the one that is due or has just been read:
the left operand of an operator, and the arguments of a call before the present one. -/
inductive Awaits : List Frame → ℕ → Prop where
  | nil : Awaits [] 0
  | negation {frames : List Frame} {waiting : ℕ} (h : Awaits frames waiting) :
    Awaits (.operator .neg :: frames) waiting
  | binary {frames : List Frame} {waiting : ℕ} (op : BinaryOperator) (h : Awaits frames waiting) :
    Awaits (.operator op.operator :: frames) (waiting + 1)
  | parenthesis {frames : List Frame} {waiting : ℕ} (h : Awaits frames waiting) :
    Awaits (.parenthesis :: frames) waiting
  | call {frames : List Frame} {waiting : ℕ} (name : String) (declared passed : ℕ)
    (h : Awaits frames waiting) :
    Awaits (.call name declared (passed + 1) :: frames) (passed + waiting)

/-- **The output lists the operands that the frames wait with,** and so many more. -/
def Balanced (state : Conversion) (more : ℕ) : Prop :=
  ∃ waiting, Awaits state.frames waiting ∧ Lists state.output (waiting + more)

section Steps

variable {output : List Token} {frames : List Frame} {more : ℕ} {state : Conversion}

theorem Balanced.start : Balanced {} 0 :=
  ⟨0, .nil, .nil⟩

theorem Balanced.operand (h : Balanced state more) {e : Expr} {token : Token}
    (he : e.postorder = [token]) (hfits : token.CountFits) :
    Balanced (state.emit token) (more + 1) := by
  obtain ⟨waiting, hframes, houtput⟩ := h
  exact ⟨waiting, hframes, houtput.operand he hfits⟩

/-- A sign waits with no operand. -/
theorem Balanced.sign (h : Balanced state more) :
    Balanced (state.push (.operator .neg)) more := by
  obtain ⟨waiting, hframes, houtput⟩ := h
  exact ⟨waiting, hframes.negation, houtput⟩

theorem Balanced.parenthesis (h : Balanced state more) :
    Balanced (state.push .parenthesis) more := by
  obtain ⟨waiting, hframes, houtput⟩ := h
  exact ⟨waiting, hframes.parenthesis, houtput⟩

theorem Balanced.call (h : Balanced state more) (name : String) (declared : ℕ) :
    Balanced (state.push (.call name declared 1)) more := by
  obtain ⟨waiting, hframes, houtput⟩ := h
  refine ⟨0 + waiting, hframes.call name declared 0, ?_⟩
  rwa [Nat.zero_add]

/-- Any other operator waits with the operand before it. -/
theorem Balanced.binary (h : Balanced state (more + 1)) (op : BinaryOperator) :
    Balanced (state.push (.operator op.operator)) more := by
  obtain ⟨waiting, hframes, houtput⟩ := h
  refine ⟨waiting + 1, hframes.binary op, ?_⟩
  rwa [Nat.add_right_comm]

/-- **An operator behind an operand** waits with that operand, unless it is a sign: then the operand
is one too many. -/
theorem Balanced.operator (h : Balanced state (more + 1)) (op : Operator) :
    Balanced (state.push (.operator op)) (more + if op = .neg then 1 else 0) := by
  by_cases hneg : op = .neg
  · subst hneg
    exact h.sign
  · obtain ⟨op, rfl⟩ := BinaryOperator.exists_operator_eq hneg
    rw [if_neg hneg]
    exact h.binary op

/-- **An operator that is written** takes its operands, and is one itself. -/
theorem Balanced.write {op : Operator} (h : Balanced ⟨output, .operator op :: frames⟩ (more + 1)) :
    Balanced ⟨.operator op :: output, frames⟩ (more + 1) := by
  obtain ⟨waiting, hframes, houtput⟩ := h
  cases hframes with
  | negation hrest => exact ⟨waiting, hrest, houtput.negation⟩
  | @binary _ waiting op hrest =>
    have hcount : waiting + 1 + (more + 1) = waiting + more + 2 := by omega
    rw [hcount] at houtput
    exact ⟨waiting, hrest, houtput.binary op⟩

theorem Balanced.closeGroup (h : Balanced ⟨output, frames⟩ (more + 1))
    (hclose : Formula.closeGroup output frames = .ok state) : Balanced state (more + 1) := by
  -- By induction on the frames: those of operators are written until one that opened is found.
  induction frames generalizing output with
  | nil => cases hclose
  | cons frame frames ih =>
    cases frame with
    | operator op => exact ih h.write hclose
    | parenthesis =>
      obtain rfl := Except.ok.inj hclose
      obtain ⟨waiting, hframes, houtput⟩ := h
      cases hframes with
      | parenthesis hrest => exact ⟨waiting, hrest, houtput⟩
    | call name declared passed =>
      obtain ⟨waiting, hframes, houtput⟩ := h
      obtain ⟨token, htoken, rfl⟩ := map_eq_ok_iff.1 hclose
      cases hframes with
      | @call _ waiting _ _ passed hrest =>
        have hcount : passed + waiting + (more + 1) = passed + 1 + (waiting + more) := by omega
        rw [hcount] at houtput
        exact ⟨waiting, hrest, houtput.call htoken⟩

/-- The argument before a comma is one that its call waits with. -/
theorem Balanced.nextArgument (h : Balanced ⟨output, frames⟩ (more + 1))
    (hnext : Formula.nextArgument output frames = .ok state) : Balanced state more := by
  -- By induction on the frames: those of operators are written and leave the count as it is, until
  -- a call is found that counts one argument more.
  induction frames generalizing output with
  | nil => cases hnext
  | cons frame frames ih =>
    cases frame with
    | operator op => exact ih h.write hnext
    -- A comma within a group is a fault.
    | parenthesis => cases hnext
    | call name declared passed =>
      obtain rfl := Except.ok.inj hnext
      obtain ⟨waiting, hframes, houtput⟩ := h
      cases hframes with
      | @call _ waiting _ _ passed hrest =>
        refine ⟨passed + 1 + waiting, hrest.call name declared (passed + 1), ?_⟩
        have hcount : passed + waiting + (more + 1) = passed + 1 + waiting + more := by omega
        rwa [hcount] at houtput

theorem Balanced.yieldTo (h : Balanced ⟨output, frames⟩ (more + 1)) (later : Operator) :
    Balanced (Formula.yieldTo later output frames) (more + 1) := by
  induction frames generalizing output with
  | nil => exact h
  | cons frame frames ih =>
    cases frame with
    -- An operator that is popped is written, and its output stays balanced.
    | operator op =>
      rw [Formula.yieldTo]
      split
      · exact ih h.write
      · exact h
    | parenthesis | call => exact h

/-- At the end no frame is left that waits with an operand. -/
theorem Balanced.lists_finish (h : Balanced ⟨output, frames⟩ (more + 1)) {out : List Token}
    (hfinish : finish output frames = .ok out) : Lists out.reverse (more + 1) := by
  induction frames generalizing output with
  | nil =>
    obtain rfl := Except.ok.inj hfinish
    -- With no frame left, nothing waits behind the output.
    obtain ⟨waiting, hframes, houtput⟩ := h
    cases hframes with
    | nil => rwa [List.reverse_reverse, ← Nat.zero_add (more + 1)]
  | cons frame frames ih =>
    cases frame with
    | operator op => exact ih h.write hfinish
    | parenthesis | call => cases hfinish

end Steps

/-! ### Whole runs -/

/-- Where an operand is due, a run that succeeds lists one tree more than the frames wait for, and
one more for every stray sign. -/
def ListsFromOperand (state : Conversion) (tokens : List Token) : Prop :=
  ∀ more out, Balanced state more → operandDue state tokens = .ok out →
    Lists out.reverse (more + straySigns false tokens + 1)

/-- The same where an operator is due, the operand before it being one of the trees. -/
def ListsFromOperator (state : Conversion) (tokens : List Token) : Prop :=
  ∀ more out, Balanced state (more + 1) → operatorDue state tokens = .ok out →
    Lists out.reverse (more + straySigns true tokens + 1)

/-- **What a run has written,** from either state of the reading on. -/
theorem lists_of_run :
    (∀ state tokens, ListsFromOperand state tokens) ∧
      ∀ state tokens, ListsFromOperator state tokens := by
  apply operandDue.mutual_induct
  -- An operand is due.
  case case2 =>
    intro state value rest ih more out hstate h
    exact ih more out (hstate.operand (Expr.postorder_number value) trivial) h
  case case3 =>
    intro state name rest ih more out hstate h
    exact ih more out (hstate.operand (Expr.postorder_identifier name) trivial) h
  case case4 =>
    intro state name declared rest token hclose ih more out hstate h
    rw [operandDue, hclose] at h
    obtain ⟨hcall, rfl⟩ := closeCall_eq_ok_iff.1 hclose
    exact ih more out (hstate.operand (Expr.postorder_call name []) fun f hf => hcall.1 f hf) h
  case case6 =>
    intro state name declared rest hne ih more out hstate h
    rw [operandDue] at h
    · exact ih more out (hstate.call name declared) h
    · exact hne
  case case8 =>
    intro state rest ih more out hstate h
    exact ih more out hstate.parenthesis h
  case case11 =>
    intro state rest ih more out hstate h
    exact ih more out hstate.sign h
  case case12 =>
    intro state rest ih more out hstate h
    exact ih more out hstate.sign h
  -- An operator is due.
  case case14 =>
    intro state more out hstate h
    exact hstate.lists_finish h
  case case15 =>
    intro state rest next hclose ih more out hstate h
    rw [operatorDue, hclose] at h
    exact ih more out (hstate.closeGroup hclose) h
  case case17 =>
    intro state rest next hnext ih more out hstate h
    rw [operatorDue, hnext] at h
    exact ih more out (hstate.nextArgument hnext) h
  case case19 =>
    -- The operators before it that bind first are written, so that what is left is its own operand.
    intro state op rest ih more out hstate h
    have hlists := ih _ out ((hstate.yieldTo op).operator op) h
    rwa [Nat.add_assoc more, Nat.add_comm _ (straySigns false rest), ← straySigns_operator]
      at hlists
  -- Any other token is a fault, as is a group or a call that cannot be closed.
  all_goals
    intros
    intro more out _ h
    simp_all [operandDue, operatorDue]

/-! ### What the machine makes of it -/

/-- **The machine on several trees** computes them all, unless one of them fails, and is left with
their values. -/
theorem evaluatePostfix_listing {trees : List Expr} (h : 2 ≤ trees.length) :
    evaluatePostfix (Expr.listing trees) = (Expr.evaluateAll trees.reverse).bind fun _ =>
      .error (.stack (.leftover trees.length)) := by
  unfold evaluatePostfix
  rw [runFrom_listing]
  -- The values of all trees are left, and there is more than one.
  cases hvalues : Expr.evaluateAll trees.reverse with
  | error e => rfl
  | ok values =>
    have hlength : values.reverse.length = trees.length := by
      rw [List.length_reverse, Expr.length_of_evaluateAll hvalues, List.length_reverse]
    rw [map_ok, Except.bind, ← hlength]
    -- One value would be the result, but there are two trees at least.
    match values.reverse, hlength with
    | [], hlength | [_], hlength => rw [← hlength] at h; simp at h
    | _ :: _ :: _, _ => rfl

/-- What a listing whose calls fit fails for is no fault of the listing. -/
theorem Error.Due.ne_stack {tokens : List Token} {e : Error} (h : e.Due tokens)
    (fault : StackFault) : e ≠ .stack fault := by
  rintro rfl
  cases h with
  | arithmetic h => cases h

section Output

variable {tokens out : List Token}

/-- **The output of the converter** lists one tree, and one more for every stray sign. -/
theorem lists_of_toPostfix (h : toPostfix tokens = .ok out) :
    Lists out.reverse (straySigns false tokens + 1) := by
  unfold toPostfix at h
  split at h
  · cases h
  · have hlists := lists_of_run.1 {} tokens 0 out .start (mapError_eq_ok_iff.1 h)
    rwa [Nat.zero_add] at hlists

/-- The output is a postfix sequence if there are no stray signs. -/
theorem exists_postorder_iff (h : toPostfix tokens = .ok out) :
    (∃ e : Expr, e.postorder = out) ↔ straySigns false tokens = 0 := by
  obtain ⟨⟨trees, hlisting, hlength⟩, -⟩ := lists_of_toPostfix h
  rw [List.reverse_reverse] at hlisting
  -- The output lists as many trees as there are stray signs and one more.
  have hsingle (e : Expr) : Expr.listing [e] = e.postorder := by simp
  constructor
  · rintro ⟨e, he⟩
    obtain rfl := Expr.listing_injective (hlisting.trans (he.symm.trans (hsingle e).symm))
    simpa using hlength.symm
  · intro hnone
    rw [hnone, List.length_eq_one_iff] at hlength
    obtain ⟨e, rfl⟩ := hlength
    exact ⟨e, (hsingle e).symm.trans hlisting⟩

theorem countFits_of_toPostfix (h : toPostfix tokens = .ok out) :
    ∀ token ∈ out, token.CountFits :=
  fun token hmem => (lists_of_toPostfix h).fits token (List.mem_reverse.2 hmem)

/-- The machine does not fail on a postfix sequence as such. -/
theorem evaluatePostfix_ne_stack (h : toPostfix tokens = .ok out)
    (hnone : straySigns false tokens = 0) (fault : StackFault) :
    evaluatePostfix out ≠ .error (.stack fault) := by
  obtain ⟨e, rfl⟩ := (exists_postorder_iff h).2 hnone
  rw [evaluatePostfix_postorder]
  exact fun herror => (Expr.due_of_evaluate (countFits_of_toPostfix h) herror).ne_stack fault rfl

/-- With a stray sign the machine always fails, if for nothing else then for the numbers left. -/
theorem exists_evaluatePostfix_eq_error (h : toPostfix tokens = .ok out)
    (hstray : straySigns false tokens ≠ 0) :
    ∃ e, evaluatePostfix out = .error e ∧
      ∀ fault, e = .stack fault → fault = .leftover (straySigns false tokens + 1) := by
  obtain ⟨⟨trees, hlisting, hlength⟩, hfits⟩ := lists_of_toPostfix h
  rw [List.reverse_reverse] at hlisting
  subst hlisting
  rw [evaluatePostfix_listing (by omega), hlength]
  -- All trees have values, which are then left over; or one of them fails, and not for lack of
  -- operands.
  cases hvalues : Expr.evaluateAll trees.reverse with
  | ok values => exact ⟨_, rfl, fun fault heq => (Error.stack.inj heq).symm⟩
  | error e =>
    obtain ⟨tree, htree, herror⟩ := Expr.exists_of_evaluateAll_eq_error hvalues
    have hsub : tree.postorder ⊆ Expr.listing trees := fun token htoken =>
      List.mem_flatMap.2 ⟨tree, htree, htoken⟩
    have hdue := Expr.due_of_evaluate
      (fun token htoken => hfits token (List.mem_reverse.2 (hsub htoken))) herror
    exact ⟨e, rfl, fun fault heq => absurd heq (hdue.ne_stack fault)⟩

/-- **What the converter accepts** becomes a postfix sequence exactly if no unary minus stands
directly behind an operand, and then the machine never finds the sequence malformed. If some do, the
machine never computes a value, and what it may find fault with is the number of values left: one
more than there should be for every such sign. -/
theorem evaluatePostfix_of_straySigns (h : toPostfix tokens = .ok out) :
    ((∃ e : Expr, e.postorder = out) ↔ straySigns false tokens = 0) ∧
    (straySigns false tokens = 0 → ∀ fault, evaluatePostfix out ≠ .error (.stack fault)) ∧
    (straySigns false tokens ≠ 0 → ∃ e, evaluatePostfix out = .error e ∧
      ∀ fault, e = .stack fault → fault = .leftover (straySigns false tokens + 1)) :=
  ⟨exists_postorder_iff h, evaluatePostfix_ne_stack h, exists_evaluatePostfix_eq_error h⟩

end Output

/-- **Not all that the converter accepts** is well-formed then: a unary minus behind an operand is
taken for an operator between two. -/
theorem not_forall_evaluatePostfix_ne_stack :
    ¬ ∀ tokens out, toPostfix tokens = .ok out →
      ∀ fault, evaluatePostfix out ≠ .error (.stack fault) := by
  intro h
  exact h [.number 1, .operator .neg, .number 2] [.number 1, .number 2, .operator .neg]
    (by decide +kernel) (.leftover 2) (by decide +kernel)

/-- A sign in front of an operand, and one behind it. -/
theorem evaluatePostfix_of_straySigns_behind :
    (∀ fault, evaluatePostfix [.number 1, .operator .neg, .number 2, .operator .add]
      ≠ .error (.stack fault)) ∧
    ∃ e, evaluatePostfix [.number 1, .number 2, .operator .neg] = .error e ∧
      ∀ fault, e = .stack fault → fault = .leftover 2 := by
  have hfront : toPostfix [.operator .neg, .number 1, .operator .add, .number 2]
      = .ok [.number 1, .operator .neg, .number 2, .operator .add] := by
    decide +kernel
  have hbehind : toPostfix [.number 1, .operator .neg, .number 2]
      = .ok [.number 1, .number 2, .operator .neg] := by
    decide +kernel
  exact ⟨(evaluatePostfix_of_straySigns hfront).2.1 rfl,
    (evaluatePostfix_of_straySigns hbehind).2.2 (by decide)⟩

/-! ### Formulas -/

/-- **No formula gets as far as a malformed sequence:** the tokens of formulas have no unary minus
among them, and no binding puts one there. -/
theorem evaluate_ne_stack (formula : String) (bindings : Bindings) (fault : StackFault) :
    evaluate formula bindings ≠ .error (.stack fault) := by
  -- Stage by stage: none but the last has such faults.
  intro h
  unfold evaluate at h
  obtain htokens | ⟨tokens, htokens, h⟩ := bind_eq_error_iff.1 h
  · obtain ⟨p, found, -, hstop⟩ := spans_eq_error_iff.1 (map_eq_error_iff.1 htokens)
    cases hstop
  · obtain hsubstitute | ⟨tokens', hsubstitute, h⟩ := bind_eq_error_iff.1 h
    · obtain ⟨name, text, -, -, hbound⟩ := exists_of_substitute_eq_error hsubstitute
      cases boundValue_eq_error hbound
    · obtain hconvert | ⟨out, hconvert, h⟩ := bind_eq_error_iff.1 h
      · unfold toPostfix at hconvert
        split at hconvert
        · cases hconvert
        · cases hrun : operandDue {} tokens' <;> rw [hrun] at hconvert <;> cases hconvert
      -- The last stage would need a stray sign, and a formula has no minus of that kind.
      · have hneg := neg_notMem_of_substitute htokens hsubstitute
        exact evaluatePostfix_ne_stack hconvert (straySigns_eq_zero hneg false) fault h

end Scoresheet.Formula
