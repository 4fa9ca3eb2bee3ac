import Scoresheet.Proofs.Formula.Rendering
import Scoresheet.Proofs.Formula.Substitution

/-!
# How the tokens of a formula stand

What can be relied on where the tokens of a formula are taken further: what each token is by itself,
and what stands behind a name. These are all the rules that there are, so that every token sequence
that keeps them is the one of some formula.

* `NamePattern` — the names of formulas, letter by letter.
* `WellPlaced` — the rules.
* `scanned_iff`, `wellPlaced_iff_scanned` — they are those of the sequences that the scanner gives.
* `Unopened` — a function's name without the parenthesis that it needs.
* `unopened_of_run` — the converter reports a missing parenthesis only where there is one.
* `tokenize_wellPlaced` — the tokens of a formula are well placed, and with names replaced by
  numbers they still have all parentheses of their calls.

Whether a name is called is decided by what follows it in the text, before any token is found there.
The scanner's own invariant says that the token found next bears that out; here it is read off the
finished sequence, place by place.
-/

namespace Scoresheet.Formula

/-! ### Names and numbers -/

/-- **The names of formulas:** a letter of the English alphabet or a low line, and then letters,
digits and low lines. -/
def NamePattern (name : String) : Prop :=
  ∃ first rest, name.toList = first :: rest ∧
    ('A' ≤ first ∧ first ≤ 'Z' ∨ 'a' ≤ first ∧ first ≤ 'z' ∨ first = '_') ∧
    ∀ c ∈ rest, 'A' ≤ c ∧ c ≤ 'Z' ∨ 'a' ≤ c ∧ c ≤ 'z' ∨ '0' ≤ c ∧ c ≤ '9' ∨ c = '_'

theorem isNameStart_iff {c : Char} :
    isNameStart c = true ↔ 'A' ≤ c ∧ c ≤ 'Z' ∨ 'a' ≤ c ∧ c ≤ 'z' ∨ c = '_' := by
  simp only [isNameStart, Char.isAlpha, Char.isUpper, Char.isLower, Bool.or_eq_true,
    Bool.and_eq_true, decide_eq_true_eq, beq_iff_eq, or_assoc]
  rfl

theorem isNamePart_iff {c : Char} : isNamePart c = true ↔
    'A' ≤ c ∧ c ≤ 'Z' ∨ 'a' ≤ c ∧ c ≤ 'z' ∨ '0' ≤ c ∧ c ≤ '9' ∨ c = '_' := by
  simp only [isNamePart, Char.isAlphanum, Char.isAlpha, Char.isUpper, Char.isLower, Char.isDigit,
    Bool.or_eq_true, Bool.and_eq_true, decide_eq_true_eq, beq_iff_eq, or_assoc]
  rfl

theorem isName_iff {name : String} : IsName name.toList ↔ NamePattern name := by
  simp only [IsName, NamePattern, isNameStart_iff, isNamePart_iff]

/-! ### The rules -/

/-- **The rules that the tokens of a formula keep.** -/
structure WellPlaced (tokens : List Token) : Prop where
  /-- A minus sign is that of subtraction. -/
  no_negation : .operator .neg ∉ tokens
  numbers : ∀ value, .number value ∈ tokens →
    value.isFinite = true ∧ (0.0 : Float) ≤ value ∧ Decimal.isNegative value = false
  /-- A function has its parenthesis behind it. Its arity is zero if there is no such builtin. -/
  functions : ∀ i name arity, tokens[i]? = some (.function name arity) →
    tokens[i + 1]? = some .leftParen ∧ arity = (Builtin.ofName? name).elim 0 Builtin.arity
  identifiers : ∀ i name, tokens[i]? = some (.identifier name) →
    tokens[i + 1]? ≠ some .leftParen
  names : ∀ name, (.identifier name ∈ tokens ∨ ∃ arity, .function name arity ∈ tokens) →
    NamePattern name

theorem scanned_cons_iff {token : Token} {rest : List Token} :
    Scanned (token :: rest) ↔ token.Scannable ∧ token.Allows rest.head? ∧ Scanned rest := by
  constructor
  · rintro (_ | ⟨htoken, hnext, hrest⟩)
    exact ⟨htoken, hnext, hrest⟩
  · rintro ⟨htoken, hnext, hrest⟩
    exact .cons htoken hnext hrest

/-- **The sequences that the scanner gives,** place by place. -/
theorem scanned_iff {tokens : List Token} : Scanned tokens ↔
    (∀ token ∈ tokens, token.Scannable) ∧
      ∀ i (token : Token), tokens[i]? = some token → token.Allows tokens[i + 1]? := by
  -- By induction on the sequence: what is said of places is said of the first place and of those in
  -- the rest.
  induction tokens with
  | nil => exact iff_of_true .nil (by simp)
  | cons first rest ih =>
    rw [scanned_cons_iff, ih, List.forall_mem_cons, List.head?_eq_getElem?]
    constructor
    · rintro ⟨hfirst, hnext, hall, hplaces⟩
      refine ⟨⟨hfirst, hall⟩, fun i token htoken => ?_⟩
      cases i with
      | zero =>
        obtain rfl := Option.some.inj htoken
        exact hnext
      | succ i => exact hplaces i token htoken
    · rintro ⟨⟨hfirst, hall⟩, hplaces⟩
      exact ⟨hfirst, hplaces 0 first rfl, hall, fun i token htoken => hplaces (i + 1) token htoken⟩

/-- **The rules are all that there are.** -/
theorem wellPlaced_iff_scanned {tokens : List Token} : WellPlaced tokens ↔ Scanned tokens := by
  rw [scanned_iff]
  constructor
  · intro h
    refine ⟨fun token hmem => ?_, fun i token htoken => ?_⟩
    -- What is said of all tokens, by their kind.
    · cases token with
      | number value =>
        obtain ⟨hfinite, -, hsign⟩ := h.numbers value hmem
        exact ⟨hfinite, hsign⟩
      | identifier name => exact isName_iff.2 (h.names name (.inl hmem))
      | function name arity =>
        obtain ⟨i, hi⟩ := List.mem_iff_getElem?.1 hmem
        exact ⟨isName_iff.2 (h.names name (.inr ⟨arity, hmem⟩)), (h.functions i name arity hi).2⟩
      | operator op => exact fun hneg => h.no_negation (hneg ▸ hmem)
      | leftParen | rightParen | comma => trivial
    -- What is said of a token and the next one: only a name minds it.
    · cases token with
      | identifier name => exact h.identifiers i name htoken
      | function name arity => exact (h.functions i name arity htoken).1
      | number | operator | leftParen | rightParen | comma => trivial
  · rintro ⟨hall, hplaces⟩
    -- The clauses one by one, each from the kind of token that it is about.
    refine ⟨fun hneg => hall _ hneg rfl, fun value hvalue => ?_, fun i name arity htoken => ?_,
      fun i name htoken => hplaces i _ htoken, ?_⟩
    · obtain ⟨hfinite, hsign⟩ := hall _ hvalue
      exact ⟨hfinite, Decimal.zero_le_of_isNegative hfinite hsign, hsign⟩
    · exact ⟨hplaces i _ htoken, (hall _ (List.mem_of_getElem? htoken)).2⟩
    · rintro name (hname | ⟨arity, hname⟩)
      · exact isName_iff.1 (hall _ hname)
      · exact isName_iff.1 (hall _ hname).1

/-! ### Missing parentheses -/

/-- The name of a function stands in a sequence without a parenthesis behind it. -/
def Unopened (name : String) (tokens : List Token) : Prop :=
  ∃ i declared, tokens[i]? = some (.function name declared) ∧ tokens[i + 1]? ≠ some .leftParen

theorem Unopened.cons {name : String} {tokens : List Token} (h : Unopened name tokens)
    (token : Token) : Unopened name (token :: tokens) := by
  obtain ⟨i, declared, hname, hnext⟩ := h
  exact ⟨i + 1, declared, hname, hnext⟩

section Faults

variable {function name : String} {declared passed : ℕ} {output : List Token} {frames : List Frame}

/-- What is wrong with a finished call is the number of its arguments. -/
theorem closeCall_ne_missingParenthesis :
    closeCall name declared passed ≠ .error (.missingParenthesis function) := by
  unfold closeCall
  split
  · split <;> nofun
  · nofun

theorem closeGroup_ne_missingParenthesis :
    closeGroup output frames ≠ .error (.missingParenthesis function) := by
  induction frames generalizing output with
  | nil => nofun
  | cons frame frames ih =>
    cases frame with
    -- Closing pops operators, stops at a parenthesis, or closes a call, which asks for its
    -- arguments only.
    | operator op => exact ih
    | parenthesis => nofun
    | call name declared passed =>
      intro h
      exact closeCall_ne_missingParenthesis (map_eq_error_iff.1 h)

theorem nextArgument_ne_missingParenthesis :
    nextArgument output frames ≠ .error (.missingParenthesis function) := by
  induction frames generalizing output with
  | nil => nofun
  | cons frame frames ih =>
    cases frame with
    | operator op => exact ih
    | parenthesis | call => nofun

theorem finish_ne_missingParenthesis :
    finish output frames ≠ .error (.missingParenthesis function) := by
  induction frames generalizing output with
  | nil => nofun
  | cons frame frames ih =>
    cases frame with
    | operator op => exact ih
    | parenthesis | call => nofun

end Faults

/-- **A missing parenthesis is reported only where there is one,** from either state of the reading
on. -/
theorem unopened_of_run (name : String) :
    (∀ state tokens, operandDue state tokens = .error (.missingParenthesis name) →
      Unopened name tokens) ∧
    ∀ state tokens, operatorDue state tokens = .error (.missingParenthesis name) →
      Unopened name tokens := by
  apply operandDue.mutual_induct
  -- An operand is due.
  case case2 => exact fun state value rest ih h => (ih h).cons _
  case case3 => exact fun state name rest ih h => (ih h).cons _
  case case4 =>
    intro state name declared rest token hclose ih h
    rw [operandDue, hclose] at h
    exact (((ih h).cons _).cons _).cons _
  case case5 =>
    intro state name declared rest fault hclose h
    rw [operandDue, hclose] at h
    obtain rfl := Except.error.inj h
    exact absurd hclose closeCall_ne_missingParenthesis
  case case6 =>
    intro state name declared rest hne ih h
    rw [operandDue] at h
    · exact ((ih h).cons _).cons _
    · exact hne
  case case7 =>
    -- Here is the parenthesis missing.
    intro state function declared tail _ hne h
    have hnext : tail.head? ≠ some .leftParen := by
      intro hopen
      obtain ⟨rest, hrest⟩ := List.head?_eq_some_iff.1 hopen
      exact hne rest hrest
    rw [operandDue_function_of_ne hnext] at h
    obtain rfl := GrammarFault.missingParenthesis.inj (Except.error.inj h)
    rw [List.head?_eq_getElem?] at hnext
    exact ⟨0, declared, rfl, hnext⟩
  case case8 => exact fun state rest ih h => (ih h).cons _
  case case11 => exact fun state rest ih h => (ih h).cons _
  case case12 => exact fun state rest ih h => (ih h).cons _
  -- An operator is due.
  case case14 => exact fun state h => absurd h finish_ne_missingParenthesis
  case case15 =>
    intro state rest next hclose ih h
    rw [operatorDue, hclose] at h
    exact (ih h).cons _
  case case16 =>
    intro state rest fault hclose h
    rw [operatorDue, hclose] at h
    obtain rfl := Except.error.inj h
    exact absurd hclose closeGroup_ne_missingParenthesis
  case case17 =>
    intro state rest next hnext ih h
    rw [operatorDue, hnext] at h
    exact (ih h).cons _
  case case18 =>
    intro state rest fault hnext h
    rw [operatorDue, hnext] at h
    obtain rfl := Except.error.inj h
    exact absurd hnext nextArgument_ne_missingParenthesis
  case case19 => exact fun state op rest ih h => (ih h).cons _
  -- Any other token is a fault of another kind.
  all_goals
    intros
    simp_all [operandDue, operatorDue]

/-- The converter as a whole reports a missing parenthesis only where there is one. -/
theorem unopened_of_toPostfix {name : String} {tokens : List Token}
    (h : toPostfix tokens = .error (.grammar (.missingParenthesis name))) :
    Unopened name tokens := by
  unfold toPostfix at h
  -- Of no tokens the fault is another one.
  split at h
  · cases h
  · cases hrun : operandDue {} tokens with
    | ok out =>
      rw [hrun] at h
      cases h
    | error fault =>
      rw [hrun] at h
      obtain rfl := Error.grammar.inj (Except.error.inj h)
      exact (unopened_of_run name).1 _ _ hrun

/-- Replacing names by numbers takes no parenthesis away. -/
theorem Unopened.of_substitute {bindings : Bindings} {name : String} {tokens bound : List Token}
    (h : substitute bindings tokens = .ok bound) (hunopened : Unopened name bound) :
    Unopened name tokens := by
  obtain ⟨i, declared, hname, hnext⟩ := hunopened
  rw [substitute_eq_ok_iff] at h
  -- Substitution changes identifiers into numbers, and keeps every other token in its place.
  have hplace (j : ℕ) {token : Token} (hidentifier : ∀ name, token ≠ .identifier name)
      (hnumber : ∀ value, token ≠ .number value) :
      bound[j]? = some token ↔ tokens[j]? = some token := by
    rw [← List.head?_drop, ← List.head?_drop]
    exact head?_eq_iff (List.forall₂_drop j h) hidentifier hnumber
  exact ⟨i, declared, (hplace i (by simp) (by simp)).1 hname,
    mt (hplace (i + 1) (by simp) (by simp)).2 hnext⟩

/-! ### The tokens of a formula -/

/-- **The tokens of a formula are well placed,** and every sequence that is well placed is that of a
formula. With names replaced by numbers, whatever they are bound to, it is never refused for the
name of a function without its parenthesis. -/
theorem tokenize_wellPlaced (tokens : List Token) :
    ((∃ formula, tokenize formula = .ok tokens) ↔ WellPlaced tokens) ∧
    ∀ formula bindings bound, tokenize formula = .ok tokens →
      substitute bindings tokens = .ok bound →
      ∀ function, toPostfix bound ≠ .error (.grammar (.missingParenthesis function)) := by
  have hformulas : (∃ formula, tokenize formula = .ok tokens) ↔ WellPlaced tokens :=
    exists_tokenize_iff.trans wellPlaced_iff_scanned.symm
  refine ⟨hformulas, fun formula bindings bound htokens hbound function hfault => ?_⟩
  have hplaced : WellPlaced tokens := hformulas.1 ⟨formula, htokens⟩
  obtain ⟨i, declared, hname, hnext⟩ := (unopened_of_toPostfix hfault).of_substitute hbound
  exact hnext (hplaced.functions i function declared hname).1

/-- A formula with a builtin and a name that no builtin has, both called, the latter with blanks of
two kinds before its parenthesis, and a negative number bound to one of two names. -/
theorem tokenize_wellPlaced_called :
    let tokens : List Token := [.function "max" 2, .leftParen, .identifier "_a1", .comma,
      .function "f" 0, .leftParen, .number 0.5, .rightParen, .rightParen, .operator .sub,
      .identifier "max"]
    let bound : List Token := [.function "max" 2, .leftParen, .number (-3), .comma,
      .function "f" 0, .leftParen, .number 0.5, .rightParen, .rightParen, .operator .sub,
      .identifier "max"]
    tokenize "max(_a1, f \u2003(.5)) - max" = .ok tokens ∧ WellPlaced tokens ∧
      substitute ⟨[("_a1", "-3"), ("f", "1")]⟩ tokens = .ok bound ∧
      ∀ function, toPostfix bound ≠ .error (.grammar (.missingParenthesis function)) := by
  intro tokens bound
  have htokens : tokenize "max(_a1, f \u2003(.5)) - max" = .ok tokens := by decide +kernel
  have hbound : substitute ⟨[("_a1", "-3"), ("f", "1")]⟩ tokens = .ok bound := by decide +kernel
  obtain ⟨hformulas, hfaults⟩ := tokenize_wellPlaced tokens
  exact ⟨htokens, hformulas.1 ⟨_, htokens⟩, hbound, hfaults _ _ bound htokens hbound⟩

end Scoresheet.Formula
