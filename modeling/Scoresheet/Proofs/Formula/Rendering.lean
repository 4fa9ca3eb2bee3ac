import Scoresheet.Proofs.Decimal.Signs
import Scoresheet.Proofs.Formula.Concatenation

/-!
# Tokens written out and read again

The tokens of a formula, written with a blank between neighbours, are the tokens of what is written.
That is not so of every token sequence: `1` and `neg` come back as a number and a name, and a
negative number comes back as two tokens. Which sequences formulas have is therefore said first.

* `Token.Scannable`, `Token.Allows`, `Scanned` — the token sequences of formulas.
* `scanned_of_tokensFrom` — the scanner gives no others.
* `numeral_plain` — a finite float without a sign is written as a numeral.
* `Token.Scannable.spells` — what is written for a token denotes it, given what is written behind.
* `exists_tokenize_iff` — a token sequence is one of a formula exactly if it is `Scanned`.
* `tokenize_render` — the tokens of a formula come back when they are written out.
-/

namespace Scoresheet.Formula

/-! ### The tokens of formulas -/

/-- **A token that formulas have,** as far as it can be told by itself. -/
def Token.Scannable : Token → Prop
  | .number value => value.isFinite = true ∧ Decimal.isNegative value = false
  | .identifier name => IsName name.toList
  | .function name arity => IsName name.toList ∧ arity = declaredArity name
  | .operator op => op ≠ .neg
  | .leftParen | .rightParen | .comma => True

/-- What may stand behind a token: an opening parenthesis behind a name that is called, and not
behind one that is not. -/
def Token.Allows (next : Option Token) : Token → Prop
  | .function _ _ => next = some .leftParen
  | .identifier _ => next ≠ some .leftParen
  | _ => True

/-- **A token sequence that formulas have.** -/
inductive Scanned : List Token → Prop where
  | nil : Scanned []
  | cons {token : Token} {rest : List Token} (htoken : token.Scannable)
    (hnext : token.Allows rest.head?) (hrest : Scanned rest) : Scanned (token :: rest)

section Scanned

variable {text following : List Char} {value : Float} {token : Token} {position : ℕ}
  {tokens rest : List Token}

/-- A numeral denotes a float without a sign. -/
theorem Numeral.isNegative (h : Numeral text value) : Decimal.isNegative value = false := by
  cases h with
  | whole => exact Decimal.isNegative_nearest _ _
  | pointed => exact Decimal.isNegative_nearest _ _

theorem Spells.scannable (h : Spells text following token) : token.Scannable := by
  cases h with
  | number h hfinite => exact ⟨hfinite, h.isNegative⟩
  | identifier h => rwa [Token.Scannable, String.toList_ofList]
  | function h => exact ⟨by rwa [String.toList_ofList], rfl⟩
  | sign h => cases h <;> simp [Token.Scannable]

/-- The token of a lexeme allows the token that is found next. -/
theorem Spells.allows (h : Spells text following token)
    (hrest : tokensFrom position following = .ok rest) : token.Allows rest.head? := by
  have hparen := (head?_of_tokensFrom hrest).2
  cases h with
  | number => trivial
  | identifier _ hnext => exact mt hparen.1 hnext
  | function _ hnext => exact hparen.2 hnext
  | sign h => cases h <;> trivial

/-- **The scanner gives no other sequences.** -/
theorem scanned_of_tokensFrom (h : tokensFrom position text = .ok tokens) : Scanned tokens := by
  -- By induction on the scan: each lexeme brings a token that may stand in front of what follows.
  induction position, text using scan_induction generalizing tokens with
  | nil position =>
    obtain rfl := Except.ok.inj (tokensFrom_nil.symm.trans h)
    exact .nil
  | blank position c rest hblank ih => exact ih (tokensFrom_blank hblank ▸ h)
  | fault position c rest e hblank he =>
    rw [tokensFrom_of_error hblank he] at h
    cases h
  -- The lexeme spells its token, and the scan of the rest says what the token is followed by.
  | lexeme position c rest found hblank hfound ih =>
    rw [tokensFrom_of_lexeme hblank hfound] at h
    obtain ⟨behind, hbehind, rfl⟩ := map_eq_ok_iff.1 h
    obtain ⟨text, following, hsplit, hlength, hspells, -⟩ := lexeme_eq_ok_iff.1 hfound
    rw [drop_more_eq hsplit hlength] at hbehind ih
    exact .cons hspells.scannable (hspells.allows hbehind) (ih hbehind)

end Scanned

/-! ### What is written for a token -/

section Written

variable {text following : List Char} {value : Float} {token : Token} {position : ℕ}
  {rest : List Token}

/-- Digits in positional form are a numeral, wherever the point stands. -/
theorem exists_numeral_positionalText (d : Decimal.Digits) :
    ∃ value, Numeral (Decimal.positionalText false d) value := by
  have hne := Decimal.digitChars_ne_nil d.digits
  have hdigits := Decimal.isDigit_of_mem_digitChars (n := d.digits)
  unfold Decimal.positionalText
  dsimp only
  generalize Decimal.digitChars d.digits = ds at hne hdigits
  split
  · -- The point would stand behind the digits, and is left out.
    rw [if_neg Bool.false_ne_true, List.append_nil]
    exact ⟨_, .whole (List.forall_mem_append.2 ⟨hdigits, Decimal.isDigit_of_mem_zeros⟩)
      (List.append_ne_nil_of_left_ne_nil hne _)⟩
  · split
    · -- The point stands among the digits.
      rename_i hpoint
      have htake : ds.take ((ds.length : ℤ) + d.exponent).toNat ≠ [] := by
        rw [ne_eq, List.take_eq_nil_iff, not_or]
        exact ⟨by omega, hne⟩
      exact ⟨_, .pointed (fun c hc => hdigits c (List.mem_of_mem_take hc))
        (fun c hc => hdigits c (List.mem_of_mem_drop hc)) (.inl htake)⟩
    · -- The point stands in front of them, with a zero before it.
      exact ⟨_, @Numeral.pointed ['0'] _ (Decimal.isDigit_of_mem_zeros (n := 1))
        (List.forall_mem_append.2 ⟨Decimal.isDigit_of_mem_zeros, hdigits⟩)
        (.inl (List.cons_ne_nil _ _))⟩

/-- **A finite float without a sign is written as a numeral,** which denotes it. -/
theorem numeral_plain (hfinite : value.isFinite = true)
    (hsign : Decimal.isNegative value = false) : Numeral (Decimal.plain value).toList value := by
  have hread := Decimal.ofText?_plain hfinite
  have htext := Decimal.toList_plain_of_isFinite hfinite
  rw [hsign, if_neg Bool.false_ne_true] at htext
  rw [htext] at hread ⊢
  obtain ⟨other, h⟩ := exists_numeral_positionalText
    ((Decimal.Magnitude.ofFloat value).shortest .away)
  -- What the numeral denotes is what it is read as, and that is the float.
  obtain rfl := Option.some.inj (h.ofText?.symm.trans hread)
  exact h

/-- **What is written for a token denotes it,** if a token that it allows is found behind. -/
theorem Token.Scannable.spells (h : token.Scannable) (hnext : token.Allows rest.head?)
    (hrest : tokensFrom position following = .ok rest) :
    Spells token.text.toList following token := by
  have hparen := (head?_of_tokensFrom hrest).2
  -- One case for each kind of token; a name is told apart by the parenthesis that follows or does
  -- not.
  cases token with
  | number value => exact .number (numeral_plain h.1 h.2) h.1
  | identifier name =>
    have hspells := Spells.identifier h (mt hparen.2 hnext)
    rwa [String.ofList_toList] at hspells
  | function name arity =>
    obtain ⟨hname, rfl⟩ := h
    have hspells := Spells.function hname (hparen.1 hnext)
    rwa [String.ofList_toList] at hspells
  | operator op =>
    cases op with
    | add => exact .sign .add
    | sub => exact .sign .sub
    | mul => exact .sign .mul
    | div => exact .sign .div
    -- A unary minus is never scanned.
    | neg => exact absurd rfl h
  | leftParen => exact .sign .leftParen
  | rightParen => exact .sign .rightParen
  | comma => exact .sign .comma

/-- A token that is written in front of a blank is found there. -/
theorem tokensFrom_text_append (h : token.Scannable) (hnext : token.Allows rest.head?)
    (hblank : ∀ c ∈ following.head?, Text.isBlank c = true)
    (hrest : ∀ position, tokensFrom position following = .ok rest) (position : ℕ) :
    tokensFrom position (token.text.toList ++ following) = .ok (token :: rest) := by
  have hspells := h.spells hnext (hrest 0)
  have hmax : Maximal token.text.toList following token :=
    (maximal_nil token.text.toList token).append hblank
  rw [tokensFrom_of_spells hspells hmax, hrest, map_ok]

end Written

/-! ### Token sequences written out -/

theorem toList_render_cons_cons (token next : Token) (rest : List Token) :
    (render (token :: next :: rest)).toList =
      token.text.toList ++ ' ' :: (render (next :: rest)).toList := by
  simp [render]

/-- **The tokens that are written out are found again.** -/
theorem tokensFrom_render {tokens : List Token} (h : Scanned tokens) (position : ℕ) :
    tokensFrom position (render tokens).toList = .ok tokens := by
  -- The induction is on the sequence from its end on: whether a name is called is told by what is
  -- found behind it.
  induction h generalizing position with
  | nil => exact tokensFrom_nil
  | @cons token rest htoken hnext _ ih =>
    cases rest with
    | nil =>
      have hwritten : (render [token]).toList = token.text.toList ++ [] := by simp [render]
      rw [hwritten]
      exact tokensFrom_text_append htoken hnext (by simp)
        (fun _ => tokensFrom_nil) position
    | cons next rest =>
      rw [toList_render_cons_cons]
      refine tokensFrom_text_append htoken hnext (fun c hc => ?_) (fun position => ?_) position
      · obtain rfl := Option.some.inj hc
        rfl
      · rw [tokensFrom_blank rfl, ih]

/-- **The token sequences of formulas.** -/
theorem exists_tokenize_iff {tokens : List Token} :
    (∃ formula, tokenize formula = .ok tokens) ↔ Scanned tokens := by
  constructor
  · rintro ⟨formula, h⟩
    exact @scanned_of_tokensFrom formula.toList 0 tokens h
  · exact fun h => ⟨render tokens, tokensFrom_render h 0⟩

/-- **The tokens of a formula come back** when they are written out with a blank between neighbours:
the same numbers, the same names, and the same of them called, with the same arities. -/
theorem tokenize_render {formula : String} {tokens : List Token}
    (h : tokenize formula = .ok tokens) : tokenize (render tokens) = .ok tokens :=
  tokensFrom_render (exists_tokenize_iff.1 ⟨formula, h⟩) 0

/-- Two numbers next to each other, a builtin that is called and a name that no builtin has. -/
theorem tokenize_render_called :
    let tokens : List Token := [.number 1.5, .number 0.25, .operator .sub, .function "max" 2,
      .leftParen, .identifier "x_1", .comma, .function "f" 0, .leftParen, .rightParen, .rightParen]
    tokenize "1.5.25-max(x_1, f  ())" = .ok tokens ∧ tokenize (render tokens) = .ok tokens := by
  have h : tokenize "1.5.25-max(x_1, f  ())" = .ok [.number 1.5, .number 0.25, .operator .sub,
      .function "max" 2, .leftParen, .identifier "x_1", .comma, .function "f" 0, .leftParen,
      .rightParen, .rightParen] := by
    decide +kernel
  exact ⟨h, tokenize_render h⟩

end Scoresheet.Formula
