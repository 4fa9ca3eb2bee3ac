import Mathlib.Data.List.Perm.Basic
import Scoresheet.Formula.Evaluation
import Scoresheet.Proofs.Formula.Conversion
import Scoresheet.Proofs.Formula.TreeEvaluation

/-!
# The names of a formula

A formula has a value only if every name in it has a meaning, wherever in the formula it stands: the
converter drops no name, and the machine passes over none.

* `names_toPostfix`, `calls_toPostfix` — the names that are read and the names that are called are
  the same before and after the conversion.
* `Expr.Closed` — a tree without variables, all of whose calls are of builtins that fit.
* `Expr.closed_of_evaluate` — only closed trees have a value.
* `Expr.due_of_evaluate` — a tree whose calls fit fails for no other reason than arithmetic or a
  name without a meaning.
* `Expr.Closed.isArithmetic_of_evaluate` — a closed tree fails for no other reason than a division
  by zero or a number that is not finite.
-/

namespace Scoresheet.Formula

/-! ### Names before and after the conversion -/

/-- The name that a token calls as a function. -/
def Token.called? : Token → Option String
  | .function name _ => some name
  | _ => none

namespace Phrase

variable {β : Type} {f : Token → Option β}

private theorem filterMap_furtherTokens (hcomma : f .comma = none)
    (arguments : List (Phrase (.chain .sum))) :
    (furtherTokens arguments).filterMap f = arguments.flatMap fun a => a.tokens.filterMap f := by
  induction arguments with
  | nil => rfl
  | cons a rest ih =>
    rw [furtherTokens, List.filterMap_cons_none hcomma, List.filterMap_append, ih,
      List.flatMap_cons]

/-- What is picked out of the tokens of arguments comes from the arguments, if the comma is not
picked. -/
theorem filterMap_argumentTokens (hcomma : f .comma = none)
    (arguments : List (Phrase (.chain .sum))) :
    (argumentTokens arguments).filterMap f = arguments.flatMap fun a => a.tokens.filterMap f := by
  cases arguments with
  | nil => rfl
  | cons a rest =>
    rw [argumentTokens, List.filterMap_append, filterMap_furtherTokens hcomma, List.flatMap_cons]

/-- **The listing of a tree reads the names of the phrase,** in the same order. -/
theorem filterMap_name?_postorder {c : Category} (d : Phrase c) :
    d.tree.postorder.filterMap Token.name? = d.tokens.filterMap Token.name? := by
  -- By induction on the phrase. Operators, signs and parentheses have no names, so that only the
  -- order of the operands counts, and it is the same in the tree.
  induction d with
  | single level only ih => exact ih
  | extend level left op right here ihl ihr =>
    simp [tree, tokens, List.filterMap_cons, ihl, ihr, Token.name?]
  | number value => rfl
  | identifier name => rfl
  | negation operand ih => simp [tree, tokens, List.filterMap_cons, ih, Token.name?]
  | group content ih => simp [tree, tokens, List.filterMap_cons, ih, Token.name?]
  | call name declared arguments ih =>
    have harguments : (arguments.map tree).flatMap (fun e => e.postorder.filterMap Token.name?)
        = arguments.flatMap fun a => a.tokens.filterMap Token.name? := by
      rw [List.flatMap_map]
      exact List.flatMap_congr ih
    simp [tree_call, tokens, Token.name?, List.filterMap_cons, List.filterMap_flatMap, harguments,
      filterMap_argumentTokens (f := Token.name?) rfl arguments]

/-- **The listing of a tree calls the names of the phrase,** each as often. -/
theorem filterMap_called?_postorder {c : Category} (d : Phrase c) :
    (d.tree.postorder.filterMap Token.called?).Perm (d.tokens.filterMap Token.called?) := by
  induction d with
  | single level only ih => exact ih
  | extend level left op right here ihl ihr =>
    simpa [tree, tokens, List.filterMap_cons, Token.called?] using ihl.append ihr
  | number value => rfl
  | identifier name => rfl
  | negation operand ih => simpa [tree, tokens, List.filterMap_cons, Token.called?] using ih
  | group content ih => simpa [tree, tokens, List.filterMap_cons, Token.called?] using ih
  | call name declared arguments ih =>
    have harguments :
        ((arguments.map tree).flatMap fun e => e.postorder.filterMap Token.called?).Perm
          (arguments.flatMap fun a => a.tokens.filterMap Token.called?) := by
      rw [List.flatMap_map]
      exact List.Perm.flatMap_left arguments ih
    -- The call comes after its arguments in the listing, and before them in the phrase.
    have hcall := (List.perm_append_singleton name _).trans (harguments.cons name)
    simpa [tree_call, tokens, Token.called?, List.filterMap_cons, List.filterMap_flatMap,
      filterMap_argumentTokens (f := Token.called?) rfl arguments] using hcall

end Phrase

section Conversion

variable {tokens out : List Token}

theorem names_toPostfix (hneg : .operator .neg ∉ tokens) (h : toPostfix tokens = .ok out) :
    out.filterMap Token.name? = tokens.filterMap Token.name? := by
  obtain ⟨d⟩ := exists_derivation_of_toPostfix hneg h
  obtain rfl := Except.ok.inj ((toPostfix_of_derivation d).symm.trans h)
  rw [d.phrase.filterMap_name?_postorder, d.derives]

theorem calls_toPostfix (hneg : .operator .neg ∉ tokens) (h : toPostfix tokens = .ok out) :
    (out.filterMap Token.called?).Perm (tokens.filterMap Token.called?) := by
  obtain ⟨d⟩ := exists_derivation_of_toPostfix hneg h
  obtain rfl := Except.ok.inj ((toPostfix_of_derivation d).symm.trans h)
  have hcalls := d.phrase.filterMap_called?_postorder
  rwa [d.derives] at hcalls

end Conversion

/-! ### Names and values -/

theorem mem_filterMap_name? {tokens : List Token} {name : String} :
    name ∈ tokens.filterMap Token.name? ↔ .identifier name ∈ tokens := by
  rw [List.mem_filterMap]
  constructor
  · rintro ⟨token, htoken, hname⟩
    cases token with
    | identifier other =>
      obtain rfl := Option.some.inj hname
      exact htoken
    | number | operator | function | leftParen | rightParen | comma => cases hname
  · exact fun h => ⟨_, h, rfl⟩

theorem mem_filterMap_called? {tokens : List Token} {name : String} :
    name ∈ tokens.filterMap Token.called? ↔ ∃ declared, .function name declared ∈ tokens := by
  rw [List.mem_filterMap]
  constructor
  · rintro ⟨token, htoken, hname⟩
    cases token with
    | function other declared =>
      obtain rfl := Option.some.inj hname
      exact ⟨declared, htoken⟩
    | number | identifier | operator | leftParen | rightParen | comma => cases hname
  · rintro ⟨declared, h⟩
    exact ⟨_, h, rfl⟩

namespace Expr

theorem identifier_mem_postorder {e : Expr} {name : String} :
    .identifier name ∈ e.postorder ↔ identifier name ∈ e.subtrees := by
  unfold postorder
  rw [List.mem_map]
  constructor
  · rintro ⟨s, hs, hroot⟩
    cases s with
    | identifier other =>
      obtain rfl := Token.identifier.inj hroot
      exact hs
    | number | negation | binary | call => cases hroot
  · exact fun h => ⟨_, h, rfl⟩

theorem function_mem_postorder {e : Expr} {name : String} {count : ℕ} :
    .function name count ∈ e.postorder ↔
      ∃ arguments, call name arguments ∈ e.subtrees ∧ arguments.length = count := by
  unfold postorder
  rw [List.mem_map]
  -- Only a call has a token of a function at its root.
  constructor
  · rintro ⟨s, hs, hroot⟩
    cases s with
    | call other arguments =>
      obtain ⟨rfl, hcount⟩ := Token.function.inj hroot
      exact ⟨arguments, hs, hcount⟩
    | number | identifier | negation | binary => cases hroot
  · rintro ⟨arguments, hmem, rfl⟩
    exact ⟨_, hmem, rfl⟩

/-- A tree reads no name, and every call in it is one of a builtin with as many arguments as the
builtin takes. -/
structure Closed (e : Expr) : Prop where
  names : ∀ name, .identifier name ∉ e.postorder
  calls : e.CallsBuiltins

/-- **Only closed trees have a value.** -/
theorem closed_of_evaluate {e : Expr} {value : Float} (h : e.evaluate = .ok value) :
    e.Closed := by
  -- A name in the listing is a subtree without a value, and a call in it is one that the machine
  -- has taken.
  constructor
  -- Of the values of all subtrees none is a fault, for the first fault would be that of the tree.
  · intro name hmem
    have hfault : e.subtrees.findSome? (fun s => fault? s.evaluate) = none := by
      rw [e.findSome?_fault?, h]
      rfl
    rw [identifier_mem_postorder] at hmem
    exact absurd (List.findSome?_eq_none_iff.1 hfault _ hmem) (by simp [evaluate, fault?])
  · rw [← evaluatePostfix_postorder] at h
    obtain ⟨e', hread, hcalls, -⟩ := exists_ofPostorder?_of_evaluatePostfix h
    obtain rfl := postorder_injective (ofPostorder?_eq_some_iff.1 hread)
    exact hcalls

end Expr

/-- The failures of arithmetic itself. -/
inductive Error.IsArithmetic : Error → Prop where
  | divisionByZero : IsArithmetic .divisionByZero
  | nonFinite (origin : String) : IsArithmetic (.nonFinite origin)

theorem finite_eq_error {origin : String} {value : Float} {e : Error}
    (h : finite origin value = .error e) : e = .nonFinite origin := by
  unfold finite at h
  split at h
  · cases h
  · exact (Except.error.inj h).symm

/-- A builtin with as many arguments as it takes gives a number, if a finite one. -/
theorem isArithmetic_of_callValue {name : String} {f : Builtin} {values : List Float} {e : Error}
    (hname : Builtin.ofName? name = some f) (hcount : values.length = f.arity)
    (h : callValue name values = .error e) : e.IsArithmetic := by
  obtain ⟨value, hvalue⟩ : ∃ value, f.operation.valueAt? values = some value :=
    Option.isSome_iff_exists.1 ((f.operation.isSome_valueAt?_iff values).2 hcount)
  unfold callValue at h
  simp only [hname, hvalue] at h
  rw [finite_eq_error h]
  exact .nonFinite name

theorem BinaryOperator.isArithmetic_of_apply {op : BinaryOperator} {a b : Float} {e : Error}
    (h : op.apply a b = .error e) : e.IsArithmetic := by
  cases op with
  | add | sub | mul => cases h
  | div =>
    unfold apply at h
    dsimp only at h
    split at h
    · obtain rfl := Except.error.inj h
      exact .divisionByZero
    · cases h

/-- **What a listing fails for** whose calls fit: arithmetic, or a name in it without a meaning. -/
inductive Error.Due (tokens : List Token) : Error → Prop where
  | arithmetic {e : Error} (h : e.IsArithmetic) : Due tokens e
  | identifier {name : String} (h : .identifier name ∈ tokens) : Due tokens (.unknownSymbol name)
  | function {name : String} {count : ℕ} (h : .function name count ∈ tokens)
    (hname : Builtin.ofName? name = none) : Due tokens (.unknownSymbol name)

theorem Error.Due.mono {tokens tokens' : List Token} {e : Error} (h : e.Due tokens)
    (hsub : tokens ⊆ tokens') : e.Due tokens' := by
  cases h with
  | arithmetic h => exact .arithmetic h
  | identifier h => exact .identifier (hsub h)
  | function h hname => exact .function (hsub h) hname

/-- A call in a listing counts as many arguments as its builtin takes. -/
def Token.CountFits : Token → Prop
  | .function name count => ∀ f, Builtin.ofName? name = some f → count = f.arity
  | _ => True

namespace Expr

/-- **A tree whose calls fit** fails for arithmetic or for a name. -/
theorem due_of_evaluate {e : Expr} (hfits : ∀ token ∈ e.postorder, token.CountFits) {err : Error}
    (h : e.evaluate = .error err) : err.Due e.postorder := by
  -- By induction on the tree: a subtree that fails has tokens among those of the tree, and what
  -- fails at the root itself fails for its own token or its value.
  induction e generalizing err with
  | number value =>
    -- A literal has its value, which may only be too large.
    rw [finite_eq_error h]
    exact .arithmetic (.nonFinite "literal")
  | identifier name =>
    -- A name is left over.
    obtain rfl := Except.error.inj h
    exact .identifier (by simp)
  | negation operand ih =>
    -- Either the operand fails, or the value of the sign is not finite.
    rw [evaluate] at h
    rw [postorder_negation] at hfits ⊢
    obtain hoperand | ⟨a, -, h⟩ := bind_eq_error_iff.1 h
    · exact (ih (List.forall_mem_append.1 hfits).1 hoperand).mono (List.subset_append_left _ _)
    · rw [finite_eq_error h]
      exact .arithmetic (.nonFinite "neg")
  | binary op left right ihl ihr =>
    -- The operands in turn, then the operator, and at last the check of its value.
    rw [evaluate] at h
    rw [postorder_binary, List.append_assoc] at hfits ⊢
    obtain ⟨hfitsl, hfitsr⟩ := List.forall_mem_append.1 hfits
    obtain hleft | ⟨a, -, h⟩ := bind_eq_error_iff.1 h
    · exact (ihl hfitsl hleft).mono (List.subset_append_left _ _)
    · obtain hright | ⟨b, -, h⟩ := bind_eq_error_iff.1 h
      · exact (ihr (List.forall_mem_append.1 hfitsr).1 hright).mono
          (List.subset_append_of_subset_right _ (List.subset_append_left _ _))
      · obtain happly | ⟨value, -, h⟩ := bind_eq_error_iff.1 h
        · exact .arithmetic (BinaryOperator.isArithmetic_of_apply happly)
        · rw [finite_eq_error h]
          exact .arithmetic (.nonFinite op.operator.symbol)
  | call name arguments ih =>
    -- An argument fails, or the call itself does.
    rw [evaluate] at h
    rw [postorder_call] at hfits ⊢
    obtain ⟨hfitsa, hcall⟩ := List.forall_mem_append.1 hfits
    obtain harguments | ⟨values, hvalues, h⟩ := bind_eq_error_iff.1 h
    · obtain ⟨a, ha, herror⟩ := exists_of_evaluateAll_eq_error harguments
      have hsub : a.postorder ⊆ arguments.flatMap postorder := fun token htoken =>
        List.mem_flatMap.2 ⟨a, ha, htoken⟩
      exact (ih a ha (fun token htoken => hfitsa token (hsub htoken)) herror).mono
        (List.subset_append_of_subset_left _ hsub)
    -- The arguments have values, as many as the token counts.
    · cases hname : Builtin.ofName? name with
      | none =>
        unfold callValue at h
        rw [hname] at h
        obtain rfl := Except.error.inj h
        exact .function (List.mem_append_right _ (List.mem_singleton_self _)) hname
      | some f =>
        have hcount : arguments.length = f.arity := hcall _ (List.mem_singleton_self _) f hname
        -- With as many arguments as its arity a builtin only has faults of arithmetic.
        exact .arithmetic
          (isArithmetic_of_callValue hname ((length_of_evaluateAll hvalues).trans hcount) h)

/-- **A closed tree fails for arithmetic only.** -/
theorem Closed.isArithmetic_of_evaluate {e : Expr} (hclosed : e.Closed) {err : Error}
    (h : e.evaluate = .error err) : err.IsArithmetic := by
  -- The names in the listing are those of builtins, with as many arguments as each takes.
  have hcalled {name : String} {count : ℕ} (hmem : .function name count ∈ e.postorder) :
      ∃ f, Builtin.ofName? name = some f ∧ count = f.arity := by
    obtain ⟨arguments, hcall, rfl⟩ := function_mem_postorder.1 hmem
    exact hclosed.calls name arguments hcall
  have hfits : ∀ token ∈ e.postorder, token.CountFits := by
    intro token hmem
    cases token with
    | function name count =>
      intro f hf
      obtain ⟨f', hf', hcount⟩ := hcalled hmem
      obtain rfl := Option.some.inj (hf.symm.trans hf')
      exact hcount
    | number | identifier | operator | leftParen | rightParen | comma => trivial
  -- Of what may be due to a token only arithmetic is left.
  cases due_of_evaluate hfits h with
  | arithmetic h => exact h
  | identifier hmem => exact absurd hmem (hclosed.names _)
  | function hmem hname =>
    obtain ⟨f, hf, -⟩ := hcalled hmem
    cases hname.symm.trans hf

end Expr

/-! ### Formulas whose names all have a meaning -/

/-- Every call in the tree of a phrase fits, if every call in the phrase does. -/
theorem Phrase.exists_callFits {c : Category} {d : Phrase c} (hfits : d.Fits) {name : String}
    {arguments : List Expr} (hmem : .call name arguments ∈ d.tree.subtrees) :
    ∃ declared, CallFits name declared arguments.length := by
  -- By induction on the phrase: a call in its tree is a call among its parts, and that one fits.
  induction d with
  | single level only ih => exact ih hfits hmem
  | extend level left op right here ihl ihr =>
    obtain ⟨hleft, hright⟩ := hfits
    simp only [tree, Expr.subtrees, List.mem_append, List.mem_singleton, reduceCtorEq,
      or_false] at hmem
    exact hmem.elim (ihl hleft) (ihr hright)
  | number value => simp [tree, Expr.subtrees] at hmem
  | identifier other => simp [tree, Expr.subtrees] at hmem
  | negation operand ih =>
    simp only [tree, Expr.subtrees, List.mem_append, List.mem_singleton, reduceCtorEq,
      or_false] at hmem
    exact ih hfits hmem
  -- A group leaves no node in the tree.
  | group content ih => exact ih hfits hmem
  | call other declared arguments' ih =>
    obtain ⟨hcall, hall⟩ := hfits
    rw [tree_call, Expr.subtrees_call, List.mem_append, List.mem_flatMap,
      List.mem_singleton] at hmem
    -- It is a call within an argument, or the call itself.
    rcases hmem with ⟨e, he, hmem⟩ | hmem
    · obtain ⟨a, ha, rfl⟩ := List.mem_map.1 he
      exact ih a ha (allFit_iff.1 hall a ha) hmem
    · obtain ⟨rfl, rfl⟩ := Expr.call.inj hmem
      rw [List.length_map]
      exact ⟨declared, hcall⟩

section Conversion

variable {tokens out : List Token}

/-- **A formula that reads no name and calls builtins only** is converted to the listing of a closed
tree, if it is converted. -/
theorem exists_closed_of_toPostfix (hneg : .operator .neg ∉ tokens)
    (hnames : ∀ name, .identifier name ∉ tokens)
    (hcalls : ∀ name declared, .function name declared ∈ tokens →
      ∃ f, Builtin.ofName? name = some f)
    (h : toPostfix tokens = .ok out) : ∃ e : Expr, e.postorder = out ∧ e.Closed := by
  -- The output is the listing of the tree of the derivation, which has the names and calls of the
  -- tokens.
  obtain ⟨d⟩ := exists_derivation_of_toPostfix hneg h
  obtain rfl := Except.ok.inj ((toPostfix_of_derivation d).symm.trans h)
  refine ⟨d.phrase.tree, rfl, ?_, ?_⟩
  · intro name hmem
    rw [← mem_filterMap_name?, names_toPostfix hneg h, mem_filterMap_name?] at hmem
    exact hnames name hmem
  · intro name arguments hmem
    have hroot := Expr.function_mem_postorder.2 ⟨arguments, hmem, rfl⟩
    have hcalled := mem_filterMap_called?.2 ⟨_, hroot⟩
    rw [(calls_toPostfix hneg h).mem_iff, mem_filterMap_called?] at hcalled
    obtain ⟨declared, hmem'⟩ := hcalled
    obtain ⟨f, hf⟩ := hcalls name declared hmem'
    -- The number of arguments fits a declared one, and by its name that is the arity.
    obtain ⟨declared', hfits⟩ := Phrase.exists_callFits d.fits hmem
    exact ⟨f, hf, hfits.1 f hf⟩

/-- **A formula with a value** reads no name, and calls builtins only. -/
theorem names_of_evaluatePostfix (hneg : .operator .neg ∉ tokens) (h : toPostfix tokens = .ok out)
    {value : Float} (hvalue : evaluatePostfix out = .ok value) :
    (∀ name, .identifier name ∉ tokens) ∧
      ∀ name declared, .function name declared ∈ tokens → ∃ f, Builtin.ofName? name = some f := by
  obtain ⟨d⟩ := exists_derivation_of_toPostfix hneg h
  obtain rfl := Except.ok.inj ((toPostfix_of_derivation d).symm.trans h)
  -- The machine evaluates the tree, and a tree with a value is closed.
  rw [evaluatePostfix_postorder] at hvalue
  have hclosed := Expr.closed_of_evaluate hvalue
  constructor
  · intro name hmem
    rw [← mem_filterMap_name?, ← names_toPostfix hneg h, mem_filterMap_name?] at hmem
    exact hclosed.names name hmem
  · intro name declared hmem
    have hcalled := mem_filterMap_called?.2 ⟨declared, hmem⟩
    rw [← (calls_toPostfix hneg h).mem_iff, mem_filterMap_called?] at hcalled
    obtain ⟨count, hroot⟩ := hcalled
    obtain ⟨arguments, hcall, -⟩ := Expr.function_mem_postorder.1 hroot
    obtain ⟨f, hf, -⟩ := hclosed.calls name arguments hcall
    exact ⟨f, hf⟩

end Conversion

end Scoresheet.Formula
