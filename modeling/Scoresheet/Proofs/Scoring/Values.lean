import Scoresheet.Proofs.Decimal.RoundTrip
import Scoresheet.Proofs.Session.Bindings
import Scoresheet.Scoring.Calculator

/-!
# The values of an answer in its formula

The values of an answer reach its formula as texts, in the order in which they were given. Neither
shows in what the formula comes to: a value counts as the float that it is, and where no variable is
given twice the order does not count at all.

* `Formula.Token.withValue`, `Formula.Token.unusable?` — a value in place of a name, and one that
  cannot be used.
* `Formula.evaluateWith` — the value of a formula with values in place of names.
* `Formula.substitute_eq`, `Formula.evaluate_eq` — the texts of values in these terms.
* `Answer.evaluate_in_values` — what an answer comes to, in terms of its values.
-/

namespace Scoresheet

/-! ### Formulas with values -/

namespace Formula

section Values

variable (valueOf? : String → Option Float)

/-- A token, or the value that is given for it. -/
def Token.withValue : Token → Token
  | .identifier name => (valueOf? name).elim (.identifier name) .number
  | token => token

/-- A name and the value given for it, if the value is not finite and so cannot be used. -/
def Token.unusable? : Token → Option (String × Float)
  | .identifier name =>
    ((valueOf? name).filter fun value => !value.isFinite).map fun value => (name, value)
  | _ => none

/-- **The value of a formula with values in place of names.** The first name with a value that
cannot be used ends it before the tokens are put into postfix order. -/
def evaluateWith (formula : String) : Except Error Float := do
  let tokens ← tokenize formula
  match tokens.findSome? (Token.unusable? valueOf?) with
  | some (name, value) => .error (.invalidBinding name (Decimal.plain value))
  | none => toPostfix (tokens.map (Token.withValue valueOf?)) >>= evaluatePostfix

variable {valueOf?} {bindings : Bindings}
  (h : ∀ name, bindings.find? name = (valueOf? name).map Decimal.plain)

include h

/-- A name that is bound to the text of a value stands for the value. -/
theorem bind_eq (token : Token) : token.bind bindings =
    match token.unusable? valueOf? with
    | some (name, value) => .error (.invalidBinding name (Decimal.plain value))
    | none => .ok (token.withValue valueOf?) := by
  -- Only a name is replaced, if it has a value, and that value has to be finite.
  cases token with
  | identifier name =>
    rw [Token.bind, h, Token.unusable?, Token.withValue]
    cases valueOf? name with
    | none => rfl
    | some value =>
      simp only [Option.map_some, boundValue_plain, Option.filter_some, Option.elim_some]
      cases value.isFinite <;> rfl
  | number | operator | function | leftParen | rightParen | comma => rfl

/-- **Names that are bound to the texts of values** give way to the values, unless one of these
cannot be used. -/
theorem substitute_eq (tokens : List Token) : substitute bindings tokens =
    match tokens.findSome? (Token.unusable? valueOf?) with
    | some (name, value) => .error (.invalidBinding name (Decimal.plain value))
    | none => .ok (tokens.map (Token.withValue valueOf?)) := by
  unfold substitute
  induction tokens with
  | nil => rfl
  | cons token rest ih =>
    rw [List.mapM_cons, bind_eq h, ih, List.findSome?_cons]
    -- The first token that cannot be bound ends the substitution, and the others are bound.
    cases token.unusable? valueOf? with
    | some unusable => rfl
    | none => cases rest.findSome? (Token.unusable? valueOf?) <;> rfl

/-- **What a formula comes to** with names bound to the texts of values. -/
theorem evaluate_eq (formula : String) :
    evaluate formula bindings = evaluateWith valueOf? formula := by
  unfold evaluate evaluateWith
  cases tokenize formula with
  | error e => rfl
  | ok tokens =>
    simp only [bind, Except.bind, substitute_eq h]
    cases tokens.findSome? (Token.unusable? valueOf?) <;> rfl

end Values

end Formula

/-! ### What an answer comes to -/

namespace Answer

variable {answer : Answer}

theorem evaluate_of_nodup (h : answer.variableNames.Nodup) :
    answer.evaluate = Formula.evaluateWith answer.valueOf? answer.formula := by
  have hbindings := bindings_eq_ok_iff.2 ⟨h, rfl⟩
  rw [evaluate, hbindings]
  exact Formula.evaluate_eq (find?_bindings hbindings) answer.formula

/-- An answer fails for the first value whose variable is given already. -/
theorem evaluate_of_repeated (h : ¬ answer.variableNames.Nodup) :
    ∃ before v after, answer.variableValues = before ++ v :: after ∧
      (before.map fun v => v.input.name).Nodup ∧ v.input.name ∈ before.map (fun v => v.input.name) ∧
      answer.evaluate = .error (.duplicateBinding v.input.name) := by
  obtain ⟨e, he⟩ := exists_eq_error fun bindings hbindings => h (bindings_eq_ok_iff.1 hbindings).1
  obtain ⟨before, v, after, bindings, hsplit, hbefore, hbound, rfl⟩ :=
    exists_of_bindingsFrom_eq_error he
  -- The names before the repeated one are distinct, and it is bound among them.
  obtain ⟨hnodup, -, rfl⟩ := bindingsFrom_eq_ok_iff.1 hbefore
  refine ⟨before, v, after, hsplit, hnodup, ?_, ?_⟩
  · simpa [Formula.Bindings.isSome_find?_iff, VariableValue.entry] using hbound
  · rw [evaluate, he]
    rfl

/-- **What an answer comes to.** If it gives a variable twice, it fails for the first value whose
variable is given already, whatever its formula is. If it does not, it comes to what its formula
does with every name that a variable has replaced by the variable's value; the first such name whose
value is not finite is what it fails for if the formula has tokens at all. The order of the values
then makes no difference. -/
theorem evaluate_in_values (answer : Answer) :
    (¬ answer.variableNames.Nodup → ∃ before v after,
      answer.variableValues = before ++ v :: after ∧
      (before.map fun v => v.input.name).Nodup ∧ v.input.name ∈ before.map (fun v => v.input.name) ∧
      answer.evaluate = .error (.duplicateBinding v.input.name)) ∧
    (answer.variableNames.Nodup →
      answer.evaluate = Formula.evaluateWith answer.valueOf? answer.formula ∧
      ∀ values : List VariableValue, values.Perm answer.variableValues →
        { answer with variableValues := values }.evaluate = answer.evaluate) := by
  refine ⟨evaluate_of_repeated, fun h => ⟨evaluate_of_nodup h, fun values hperm => ?_⟩⟩
  -- The rearranged answer gives no variable twice either.
  have hother : { answer with variableValues := values }.variableNames.Nodup :=
    ((hperm.map _).nodup_iff).2 h
  rw [evaluate_of_nodup h, evaluate_of_nodup hother,
    @valueOf?_perm answer { answer with variableValues := values } h hperm]
  rfl

/-- An answer with a formula and values for its variables. -/
def ofValues (formula : String) (values : List (String × Float)) : Answer :=
  ⟨⟨1, "", formula, ⟨1, ""⟩⟩, values.map fun v => ⟨⟨none, v.1⟩, v.2⟩⟩

/-- Two values in either order, and a variable that is given twice, with a formula that is none. -/
theorem evaluate_in_values_swapped :
    (ofValues "a - b" [("a", 7), ("b", 2)]).evaluate = .ok 5 ∧
    (ofValues "a - b" [("b", 2), ("a", 7)]).evaluate = .ok 5 ∧
    (ofValues "1 +" [("a", 7), ("a", 7)]).evaluate = .error (.duplicateBinding "a") := by
  obtain ⟨-, hdistinct⟩ := evaluate_in_values (ofValues "a - b" [("a", 7), ("b", 2)])
  obtain ⟨hvalue, horder⟩ := hdistinct (by decide)
  have hfive : Formula.evaluateWith (ofValues "a - b" [("a", 7), ("b", 2)]).valueOf? "a - b"
      = .ok 5 := by
    decide +kernel
  obtain ⟨hrepeated, -⟩ := evaluate_in_values (ofValues "1 +" [("a", 7), ("a", 7)])
  obtain ⟨before, v, after, hsplit, -, -, herror⟩ := hrepeated (by decide)
  have hv : v ∈ (ofValues "1 +" [("a", 7), ("a", 7)]).variableValues :=
    hsplit ▸ List.mem_append_right before List.mem_cons_self
  obtain rfl : v = ⟨⟨none, "a"⟩, 7⟩ := by simpa [ofValues] using hv
  exact ⟨hvalue.trans hfive, (horder _ (.swap _ _ _)).trans (hvalue.trans hfive), herror⟩

end Answer

end Scoresheet
