import Mathlib.Data.List.Forall2
import Scoresheet.Formula.Binding
import Scoresheet.Proofs.Formula.Conversion
import Scoresheet.Proofs.Formula.Coverage
import Scoresheet.Proofs.Formula.TreeEvaluation

/-!
# Substitution and conversion

The converter looks at no operand: it writes numbers and names as they come. Whether names are
replaced by numbers before the conversion or after it therefore makes no difference.

* `substitute_eq_ok_iff` — a substitution that succeeds, told token by token.
* `exists_of_substitute_eq_error` — a substitution that fails, told by the text it fails for.
* `mem_substitute_iff`, `identifier_mem_substitute_iff` — what a substitution leaves as it is.
* `Alike` — two computations that both fail, or both succeed with related results.
* `RunsAlike`, `runsAlike` — the converter on a sequence and on its substitution.
* `toPostfix_substitute` — what is converted after the substitution is the substitution of what is
  converted before it.

The converter is run on both sequences side by side. Its frames hold no operands and so are the same
in both runs; what is written differs by the substitution. Only the wording of a fault may name a
number in the one run and a name in the other.
-/

namespace Scoresheet.Formula

/-! ### Token by token -/

/-- The second token stands for the first under the bindings. -/
def StandsFor (bindings : Bindings) (token token' : Token) : Prop :=
  token.bind bindings = .ok token'

/-- **A substitution that succeeds,** told token by token. -/
theorem substitute_eq_ok_iff {bindings : Bindings} {tokens tokens' : List Token} :
    substitute bindings tokens = .ok tokens' ↔
      List.Forall₂ (StandsFor bindings) tokens tokens' :=
  mapM_eq_ok_iff

/-- A token other than a name stands for itself. -/
theorem bind_of_ne_identifier (bindings : Bindings) {token : Token}
    (h : ∀ name, token ≠ .identifier name) : token.bind bindings = .ok token := by
  cases token with
  | identifier name => exact absurd rfl (h name)
  | number | operator | function | leftParen | rightParen | comma => rfl

theorem bind_identifier (bindings : Bindings) (name : String) :
    (Token.identifier name).bind bindings
      = match bindings.find? name with
        | some text => (boundValue name text).map Token.number
        | none => .ok (.identifier name) := rfl

/-- Only a bound name gives way to another token, and that is a number. -/
theorem StandsFor.eq_or_number {bindings : Bindings} {token token' : Token}
    (h : StandsFor bindings token token') :
    token' = token ∧ (∀ name, token = .identifier name → bindings.find? name = none) ∨
      ∃ name text value, token = .identifier name ∧ bindings.find? name = some text ∧
        boundValue name text = .ok value ∧ token' = .number value := by
  -- Only a name is replaced.
  by_cases hname : ∃ name, token = .identifier name
  · obtain ⟨name, rfl⟩ := hname
    unfold StandsFor at h
    rw [bind_identifier] at h
    -- The name is bound or stays as it is.
    cases htext : bindings.find? name with
    | none =>
      rw [htext] at h
      refine .inl ⟨(Except.ok.inj h).symm, fun other hother => ?_⟩
      obtain rfl := Token.identifier.inj hother
      exact htext
    | some text =>
      simp only [htext] at h
      cases hvalue : boundValue name text with
      | error e =>
        rw [hvalue] at h
        cases h
      | ok value =>
        rw [hvalue] at h
        exact .inr ⟨name, text, value, rfl, htext, hvalue, (Except.ok.inj h).symm⟩
  · have hself := bind_of_ne_identifier bindings (not_exists.1 hname)
    exact .inl ⟨(Except.ok.inj (hself.symm.trans h)).symm,
      fun name heq => absurd ⟨name, heq⟩ hname⟩

/-- What stands for a token that is no operand is that token. -/
theorem StandsFor.eq_iff {bindings : Bindings} {token token' : Token}
    (h : StandsFor bindings token token') {other : Token} (hname : ∀ name, other ≠ .identifier name)
    (hnumber : ∀ value, other ≠ .number value) : token' = other ↔ token = other := by
  obtain ⟨rfl, -⟩ | ⟨name, -, value, rfl, -, -, rfl⟩ := h.eq_or_number
  · exact Iff.rfl
  · exact iff_of_false (hnumber value).symm (hname name).symm

/-! ### When a substitution fails -/

theorem boundValue_eq_error {name text : String} {e : Error} (h : boundValue name text = .error e) :
    e = .invalidBinding name text := by
  unfold boundValue at h
  split at h
  · split at h
    · cases h
    · exact (Except.error.inj h).symm
  · exact (Except.error.inj h).symm

/-- What a token fails for is a text bound to it that denotes no finite number. -/
theorem bind_eq_error_iff_boundValue {bindings : Bindings} {token : Token} {e : Error} :
    token.bind bindings = .error e ↔
      ∃ name text, token = .identifier name ∧ bindings.find? name = some text ∧
        boundValue name text = .error e := by
  -- Only an identifier is looked up, and only a bound one can be refused.
  by_cases hname : ∃ name, token = .identifier name
  · obtain ⟨name, rfl⟩ := hname
    rw [bind_identifier]
    cases htext : bindings.find? name with
    | none => simp [htext]
    | some text => cases hvalue : boundValue name text <;> simp [Except.map, htext, hvalue]
  · rw [bind_of_ne_identifier bindings (not_exists.1 hname)]
    exact iff_of_false (fun h => nomatch h) fun ⟨name, _, heq, _⟩ => hname ⟨name, heq⟩

/-- **A substitution fails** for a name that stands in the sequence, and for the text bound to it.
-/
theorem exists_of_substitute_eq_error {bindings : Bindings} {tokens : List Token} {e : Error}
    (h : substitute bindings tokens = .error e) :
    ∃ name text, .identifier name ∈ tokens ∧ bindings.find? name = some text ∧
      boundValue name text = .error e := by
  obtain ⟨token, mem, failed⟩ := exists_of_mapM_eq_error h
  obtain ⟨name, text, rfl, htext, hvalue⟩ := bind_eq_error_iff_boundValue.1 failed
  exact ⟨name, text, mem, htext, hvalue⟩

/-! ### What a substitution leaves -/

section Members

variable {bindings : Bindings} {tokens tokens' : List Token}

/-- A substitution that succeeds finds a finite number in every text that is bound to a name of the
sequence. -/
theorem boundValue_of_substitute (h : substitute bindings tokens = .ok tokens') {name text : String}
    (hmem : .identifier name ∈ tokens) (htext : bindings.find? name = some text) :
    ∃ value, boundValue name text = .ok value := by
  rw [substitute_eq_ok_iff] at h
  -- By induction on the tokens, of which each stands for the one that it was.
  induction h with
  | nil => cases hmem
  | cons hfirst _ ih =>
    obtain heq | hrest := List.mem_cons.1 hmem
    · subst heq
      -- The name is bound, so that it was replaced, and that was possible.
      obtain ⟨-, hunbound⟩ | ⟨other, text', value, heq, htext', hvalue, -⟩ := hfirst.eq_or_number
      · exact absurd (htext.symm.trans (hunbound name rfl)) (Option.some_ne_none text)
      · obtain rfl := Token.identifier.inj heq
        obtain rfl := Option.some.inj (htext.symm.trans htext')
        exact ⟨value, hvalue⟩
    · exact ih hrest

/-- Tokens that are no operands are the same before and after the substitution. -/
theorem mem_substitute_iff (h : substitute bindings tokens = .ok tokens') {token : Token}
    (hname : ∀ name, token ≠ .identifier name) (hnumber : ∀ value, token ≠ .number value) :
    token ∈ tokens' ↔ token ∈ tokens := by
  rw [substitute_eq_ok_iff] at h
  induction h with
  | nil => exact Iff.rfl
  | cons hfirst _ ih =>
    rw [List.mem_cons, List.mem_cons, ih, eq_comm, hfirst.eq_iff hname hnumber, eq_comm]

/-- The names that are left after the substitution are those without a binding. -/
theorem identifier_mem_substitute_iff (h : substitute bindings tokens = .ok tokens')
    {name : String} :
    .identifier name ∈ tokens' ↔ .identifier name ∈ tokens ∧ bindings.find? name = none := by
  rw [substitute_eq_ok_iff] at h
  induction h with
  | nil => simp
  | @cons token token' rest rest' hfirst _ ih =>
    -- A name is still there if it was there and is not bound.
    have hhead : token' = .identifier name ↔
        token = .identifier name ∧ bindings.find? name = none := by
      obtain ⟨rfl, hunbound⟩ | ⟨other, text, value, rfl, htext, -, rfl⟩ := hfirst.eq_or_number
      · exact ⟨fun htoken => ⟨htoken, hunbound name htoken⟩, fun htoken => htoken.1⟩
      · refine iff_of_false Token.noConfusion fun ⟨heq, hunbound⟩ => ?_
        obtain rfl := Token.identifier.inj heq
        rw [htext] at hunbound
        cases hunbound
    rw [List.mem_cons, List.mem_cons, ih, eq_comm, hhead, @eq_comm _ token]
    tauto

/-- No substitution of a formula's tokens has the negation that only conversion writes. -/
theorem neg_notMem_of_substitute {formula : String} (htokens : tokenize formula = .ok tokens)
    (h : substitute bindings tokens = .ok tokens') : .operator .neg ∉ tokens' :=
  mt (mem_substitute_iff h (by simp) (by simp)).1 (neg_notMem_of_tokenize htokens)

end Members

/-! ### Two runs of the converter -/

/-- Both computations fail, or both succeed with related results. -/
def Alike {ε α β : Type} (R : α → β → Prop) : Except ε α → Except ε β → Prop
  | .ok a, .ok b => R a b
  | .error _, .error _ => True
  | _, _ => False

theorem Alike.elim {ε α β : Type} {R : α → β → Prop} {x : Except ε α} {y : Except ε β}
    (h : Alike R x y) :
    (∃ e e', x = .error e ∧ y = .error e') ∨ ∃ a b, x = .ok a ∧ y = .ok b ∧ R a b :=
  match x, y, h with
  | .error e, .error e', _ => .inl ⟨e, e', rfl, rfl⟩
  | .ok a, .ok b, h => .inr ⟨a, b, rfl, rfl, h⟩

/-- The frames of both conversions are the same, and what the second has written stands for what the
first has. -/
structure SameFrames (bindings : Bindings) (state state' : Conversion) : Prop where
  output : List.Forall₂ (StandsFor bindings) state.output state'.output
  frames : state'.frames = state.frames

section Frames

variable {bindings : Bindings}

theorem StandsFor.refl_operator (op : Operator) :
    StandsFor bindings (.operator op) (.operator op) := rfl

theorem StandsFor.refl_function (name : String) (arity : Nat) :
    StandsFor bindings (.function name arity) (.function name arity) := rfl

theorem SameFrames.emit {state state' : Conversion} (h : SameFrames bindings state state')
    {token token' : Token} (htoken : StandsFor bindings token token') :
    SameFrames bindings (state.emit token) (state'.emit token') :=
  ⟨.cons htoken h.output, h.frames⟩

theorem SameFrames.push {state state' : Conversion} (h : SameFrames bindings state state')
    (frame : Frame) : SameFrames bindings (state.push frame) (state'.push frame) :=
  ⟨h.output, congrArg (frame :: ·) h.frames⟩

theorem closeGroup_alike {output output' : List Token}
    (h : List.Forall₂ (StandsFor bindings) output output') (frames : List Frame) :
    Alike (SameFrames bindings) (closeGroup output frames) (closeGroup output' frames) := by
  induction frames generalizing output output' with
  | nil => trivial
  | cons frame frames ih =>
    cases frame with
    | operator op => exact ih (.cons (StandsFor.refl_operator op) h)
    | parenthesis => exact ⟨h, rfl⟩
    | call name declared passed =>
      unfold closeGroup
      cases hclose : closeCall name declared passed with
      | ok token =>
        -- The call counts its arguments and does not look at them.
        obtain ⟨-, rfl⟩ := closeCall_eq_ok_iff.1 hclose
        exact ⟨.cons (StandsFor.refl_function name passed) h, rfl⟩
      | error fault => trivial

theorem nextArgument_alike {output output' : List Token}
    (h : List.Forall₂ (StandsFor bindings) output output') (frames : List Frame) :
    Alike (SameFrames bindings) (nextArgument output frames) (nextArgument output' frames) := by
  induction frames generalizing output output' with
  | nil => trivial
  | cons frame frames ih =>
    cases frame with
    | operator op => exact ih (.cons (StandsFor.refl_operator op) h)
    | parenthesis => trivial
    | call name declared passed => exact ⟨h, rfl⟩

theorem yieldTo_sameFrames {output output' : List Token}
    (h : List.Forall₂ (StandsFor bindings) output output') (later : Operator)
    (frames : List Frame) :
    SameFrames bindings (yieldTo later output frames) (yieldTo later output' frames) := by
  -- By induction on the frames, which are the same: what they write are operators, and these stand
  -- for themselves.
  induction frames generalizing output output' with
  | nil => exact ⟨h, rfl⟩
  | cons frame frames ih =>
    cases frame with
    | operator op =>
      unfold yieldTo
      -- The operator is written if it binds first, and otherwise stays where it is.
      split
      · exact ih (.cons (StandsFor.refl_operator op) h)
      · exact ⟨h, rfl⟩
    | parenthesis => exact ⟨h, rfl⟩
    | call name declared passed => exact ⟨h, rfl⟩

theorem finish_alike {output output' : List Token}
    (h : List.Forall₂ (StandsFor bindings) output output') (frames : List Frame) :
    Alike (List.Forall₂ (StandsFor bindings)) (finish output frames) (finish output' frames) := by
  induction frames generalizing output output' with
  | nil => exact List.rel_reverse h
  | cons frame frames ih =>
    cases frame with
    | operator op => exact ih (.cons (StandsFor.refl_operator op) h)
    | parenthesis => trivial
    | call name declared passed => trivial

end Frames

/-- The runs agree on a sequence and its substitution, in either state of the reading. -/
structure RunsAlike (bindings : Bindings) (tokens tokens' : List Token) : Prop where
  operandDue : ∀ {state state' : Conversion}, SameFrames bindings state state' →
    Alike (List.Forall₂ (StandsFor bindings)) (operandDue state tokens) (operandDue state' tokens')
  operatorDue : ∀ {state state' : Conversion}, SameFrames bindings state state' →
    Alike (List.Forall₂ (StandsFor bindings)) (operatorDue state tokens)
      (operatorDue state' tokens')

section Runs

variable {bindings : Bindings} {rest rest' : List Token}

theorem RunsAlike.nil : RunsAlike bindings [] [] where
  operandDue _ := trivial
  operatorDue {state state'} h := by
    rw [Formula.operatorDue, Formula.operatorDue, h.frames]
    exact finish_alike h.output state.frames

theorem RunsAlike.operator (h : RunsAlike bindings rest rest') (op : Operator) :
    RunsAlike bindings (.operator op :: rest) (.operator op :: rest') where
  operandDue hstate := by
    cases op with
    | sub | neg => exact h.operandDue (hstate.push (.operator .neg))
    | add | mul | div => trivial
  operatorDue {state state'} hstate := by
    rw [Formula.operatorDue, Formula.operatorDue, hstate.frames]
    exact h.operandDue ((yieldTo_sameFrames hstate.output op state.frames).push (.operator op))

theorem RunsAlike.leftParen (h : RunsAlike bindings rest rest') :
    RunsAlike bindings (.leftParen :: rest) (.leftParen :: rest') where
  operandDue hstate := h.operandDue (hstate.push .parenthesis)
  operatorDue _ := trivial

theorem RunsAlike.rightParen (h : RunsAlike bindings rest rest') :
    RunsAlike bindings (.rightParen :: rest) (.rightParen :: rest') where
  operandDue _ := trivial
  operatorDue {state state'} hstate := by
    rw [Formula.operatorDue, Formula.operatorDue, hstate.frames]
    -- The frames are the same on both sides, so the groups close alike.
    obtain ⟨fault, fault', hfirst, hsecond⟩ | ⟨next, next', hfirst, hsecond, hnext⟩ :=
      (closeGroup_alike hstate.output state.frames).elim
    · rw [hfirst, hsecond]
      trivial
    · rw [hfirst, hsecond]
      exact h.operatorDue hnext

theorem RunsAlike.comma (h : RunsAlike bindings rest rest') :
    RunsAlike bindings (.comma :: rest) (.comma :: rest') where
  operandDue _ := trivial
  operatorDue {state state'} hstate := by
    rw [Formula.operatorDue, Formula.operatorDue, hstate.frames]
    -- The frames are the same on both sides, so the arguments end alike.
    obtain ⟨fault, fault', hfirst, hsecond⟩ | ⟨next, next', hfirst, hsecond, hnext⟩ :=
      (nextArgument_alike hstate.output state.frames).elim
    · rw [hfirst, hsecond]
      trivial
    · rw [hfirst, hsecond]
      exact h.operandDue hnext

/-- A name and the number that stands for it are read alike, each as an operand. -/
theorem RunsAlike.identifier (h : RunsAlike bindings rest rest') {name : String} {token' : Token}
    (htoken : StandsFor bindings (.identifier name) token') :
    RunsAlike bindings (.identifier name :: rest) (token' :: rest') := by
  obtain ⟨rfl, -⟩ | ⟨-, -, value, -, -, -, rfl⟩ := htoken.eq_or_number
  · exact ⟨fun hstate => h.operatorDue (hstate.emit htoken), fun _ => trivial⟩
  · exact ⟨fun hstate => h.operatorDue (hstate.emit htoken), fun _ => trivial⟩

theorem RunsAlike.number (h : RunsAlike bindings rest rest') (value : Float) :
    RunsAlike bindings (.number value :: rest) (.number value :: rest') where
  operandDue hstate := h.operatorDue (hstate.emit rfl)
  operatorDue _ := trivial

/-- The name of a function needs its parenthesis. -/
theorem operandDue_function_of_ne {name : String} {declared : Nat} {tokens : List Token}
    (h : tokens.head? ≠ some .leftParen) (state : Conversion) :
    operandDue state (.function name declared :: tokens) = .error (.missingParenthesis name) := by
  match tokens, h with
  | .leftParen :: _, h => exact absurd rfl h
  | [], _ | .rightParen :: _, _ | .comma :: _, _ | .number _ :: _, _ | .identifier _ :: _, _
  | .operator _ :: _, _ | .function _ _ :: _, _ => simp [operandDue]

/-- Behind the parenthesis of a call that is not closed at once an argument is due. -/
theorem operandDue_call_of_ne {name : String} {declared : Nat} {tokens : List Token}
    (h : tokens.head? ≠ some .rightParen) (state : Conversion) :
    operandDue state (.function name declared :: .leftParen :: tokens)
      = operandDue (state.push (.call name declared 1)) tokens := by
  match tokens, h with
  | [], _ => simp [operandDue]
  | first :: rest, h =>
    have hfirst : first ≠ .rightParen := fun heq => h (congrArg some heq)
    exact operandDue_call hfirst rest state.output state.frames

/-- Whether a parenthesis stands next is the same before and after the substitution. -/
theorem head?_eq_iff (h : List.Forall₂ (StandsFor bindings) rest rest') {token : Token}
    (hname : ∀ name, token ≠ .identifier name) (hnumber : ∀ value, token ≠ .number value) :
    rest'.head? = some token ↔ rest.head? = some token := by
  cases h with
  | nil => exact Iff.rfl
  | cons hfirst _ =>
    rw [List.head?_cons, List.head?_cons, Option.some.injEq, Option.some.injEq]
    exact hfirst.eq_iff hname hnumber

/-- **The converter looks one token past the name of a function,** and past its parenthesis one
more. What it looks for there is no operand. -/
theorem RunsAlike.function (h : List.Forall₂ (StandsFor bindings) rest rest')
    (hshort : ∀ {tokens tokens' : List Token}, tokens.length ≤ rest.length →
      List.Forall₂ (StandsFor bindings) tokens tokens' → RunsAlike bindings tokens tokens')
    (name : String) (declared : Nat) :
    RunsAlike bindings (.function name declared :: rest) (.function name declared :: rest') where
  operatorDue _ := trivial
  operandDue {state state'} hstate := by
    -- A call needs its parenthesis, which stands for itself and so is there in both sequences or in
    -- neither.
    by_cases hopen : rest.head? = some .leftParen
    · have hopen' := (head?_eq_iff h (by simp) (by simp)).2 hopen
      obtain ⟨rest₁, rfl⟩ := List.head?_eq_some_iff.1 hopen
      obtain ⟨rest₁', rfl⟩ := List.head?_eq_some_iff.1 hopen'
      have h₁ : List.Forall₂ (StandsFor bindings) rest₁ rest₁' := (List.forall₂_cons.1 h).2
      -- It is closed at once, with no arguments.
      by_cases hclose : rest₁.head? = some .rightParen
      · have hclose' := (head?_eq_iff h₁ (by simp) (by simp)).2 hclose
        obtain ⟨rest₂, rfl⟩ := List.head?_eq_some_iff.1 hclose
        obtain ⟨rest₂', rfl⟩ := List.head?_eq_some_iff.1 hclose'
        have h₂ : List.Forall₂ (StandsFor bindings) rest₂ rest₂' := (List.forall₂_cons.1 h₁).2
        rw [Formula.operandDue, Formula.operandDue]
        -- Whether the call is accepted is a matter of its name and the count.
        cases hcall : closeCall name declared 0 with
        | ok token =>
          obtain ⟨-, rfl⟩ := closeCall_eq_ok_iff.1 hcall
          exact (hshort (by simp; omega) h₂).operatorDue (hstate.emit rfl)
        | error fault => trivial
      -- An argument is due, and the frame counts it.
      · have hclose' := mt (head?_eq_iff h₁ (by simp) (by simp)).1 hclose
        rw [operandDue_call_of_ne hclose, operandDue_call_of_ne hclose']
        exact (hshort (by simp) h₁).operandDue (hstate.push (.call name declared 1))
    -- A name that is not called is a fault in both.
    · have hopen' := mt (head?_eq_iff h (by simp) (by simp)).1 hopen
      rw [operandDue_function_of_ne hopen, operandDue_function_of_ne hopen']
      trivial

/-- **The converter on a sequence and on its substitution:** both runs fail, or both succeed and
what the second writes stands for what the first does. -/
theorem runsAlike {tokens tokens' : List Token}
    (h : List.Forall₂ (StandsFor bindings) tokens tokens') : RunsAlike bindings tokens tokens' := by
  -- By induction on the length of the sequence, since a call reads up to two tokens more before it
  -- is in the next state.
  match tokens, tokens', h with
  | [], [], _ => exact RunsAlike.nil
  | token :: rest, token' :: rest', .cons htoken hrest =>
    have hshort : ∀ {shorter shorter' : List Token}, shorter.length ≤ rest.length →
        List.Forall₂ (StandsFor bindings) shorter shorter' →
          RunsAlike bindings shorter shorter' :=
      fun hlength hshorter => runsAlike hshorter
    have hruns : RunsAlike bindings rest rest' := hshort (Nat.le_refl _) hrest
    -- A name may be replaced by a number, and both are operands; every other token stands for
    -- itself.
    by_cases hname : ∃ name, token = .identifier name
    · obtain ⟨name, rfl⟩ := hname
      exact hruns.identifier htoken
    · obtain rfl := Except.ok.inj
        ((bind_of_ne_identifier bindings (not_exists.1 hname)).symm.trans htoken)
      cases token with
      | identifier name => exact absurd ⟨name, rfl⟩ hname
      | number value => exact hruns.number value
      | operator op => exact hruns.operator op
      | function name declared => exact RunsAlike.function hrest hshort name declared
      | leftParen => exact hruns.leftParen
      | rightParen => exact hruns.rightParen
      | comma => exact hruns.comma
termination_by tokens.length
decreasing_by simp only [List.length_cons]; omega

end Runs

/-- The converter on a substitution either fails, as it does on the sequence itself, or gives the
substitution of what it gives on the sequence. -/
theorem toPostfix_alike {bindings : Bindings} {tokens tokens' : List Token}
    (h : substitute bindings tokens = .ok tokens') :
    Alike (List.Forall₂ (StandsFor bindings)) (toPostfix tokens) (toPostfix tokens') := by
  rw [substitute_eq_ok_iff] at h
  cases h with
  | nil => trivial
  | cons htoken hrest =>
    have hstart : SameFrames bindings {} {} := ⟨.nil, rfl⟩
    have hruns := (runsAlike (.cons htoken hrest)).operandDue hstart
    unfold toPostfix
    -- Both runs fail, or both end with sequences of which one stands for the other.
    obtain ⟨fault, fault', hfirst, hsecond⟩ | ⟨out, out', hfirst, hsecond, hout⟩ := hruns.elim
    · simp only [List.isEmpty_cons, Bool.false_eq_true, if_false, hfirst, hsecond]
      trivial
    · simp only [List.isEmpty_cons, Bool.false_eq_true, if_false, hfirst, hsecond]
      exact hout

/-- **Substitution commutes with conversion.** A sequence is converted after the substitution just
in case it is converted before it, and then the one result is the substitution of the other. A
number put in the place of a name, negative or not, is therefore grouped as the name is. -/
theorem toPostfix_substitute {bindings : Bindings} {tokens tokens' : List Token}
    (h : substitute bindings tokens = .ok tokens') :
    ((∃ out', toPostfix tokens' = .ok out') ↔ ∃ out, toPostfix tokens = .ok out) ∧
      ∀ out, toPostfix tokens = .ok out → toPostfix tokens' = substitute bindings out := by
  -- The two runs fail together or end in outputs that differ by the substitution.
  obtain ⟨e, e', hfirst, hsecond⟩ | ⟨out, out', hfirst, hsecond, hout⟩ := (toPostfix_alike h).elim
  · rw [hfirst, hsecond]
    simp
  · rw [← substitute_eq_ok_iff] at hout
    refine ⟨⟨fun _ => ⟨out, hfirst⟩, fun _ => ⟨out', hsecond⟩⟩, fun found hfound => ?_⟩
    obtain rfl := Except.ok.inj (hfirst.symm.trans hfound)
    rw [hsecond, hout]

/-- A negative number in the place of `a` in `-a * (b - a)` is negated, and is subtracted, as the
name is; the name `b` stays. -/
theorem toPostfix_substitute_negative :
    substitute ⟨[("a", "-4.5")]⟩
        [.operator .sub, .identifier "a", .operator .mul, .leftParen, .identifier "b",
          .operator .sub, .identifier "a", .rightParen]
      = .ok [.operator .sub, .number (-4.5), .operator .mul, .leftParen, .identifier "b",
          .operator .sub, .number (-4.5), .rightParen] ∧
    toPostfix
        [.operator .sub, .number (-4.5), .operator .mul, .leftParen, .identifier "b",
          .operator .sub, .number (-4.5), .rightParen]
      = .ok [.number (-4.5), .operator .neg, .identifier "b", .number (-4.5), .operator .sub,
          .operator .mul] := by
  have hsubstitute : substitute ⟨[("a", "-4.5")]⟩
      [.operator .sub, .identifier "a", .operator .mul, .leftParen, .identifier "b",
        .operator .sub, .identifier "a", .rightParen]
      = .ok [.operator .sub, .number (-4.5), .operator .mul, .leftParen, .identifier "b",
          .operator .sub, .number (-4.5), .rightParen] := rfl
  have hconvert : toPostfix
      [.operator .sub, .identifier "a", .operator .mul, .leftParen, .identifier "b",
        .operator .sub, .identifier "a", .rightParen]
      = .ok [.identifier "a", .operator .neg, .identifier "b", .identifier "a", .operator .sub,
          .operator .mul] := by cbv
  have hcommutes := (toPostfix_substitute hsubstitute).2 _ hconvert
  exact ⟨hsubstitute, hcommutes.trans rfl⟩

end Scoresheet.Formula
