import Scoresheet.Proofs.Basic
import Scoresheet.Proofs.Formula.Lexemes

/-!
# Formulas side by side

Two texts with blanks between them are cut into the tokens of the first and those of the second, for
no lexeme goes on across a blank. What a name is can still be decided behind the blanks: one at the
end of the first text is called if the second starts with an opening parenthesis.

* `joined` — two token sequences in a row, with a name at the seam called.
* `Error.Shifted` — the same fault, further to the right.
* `tokensFrom_shift` — where a text starts matters to the positions in its faults only.
* `lexeme_append`, `tokensFrom_append` — what a text gives in front of a blank: one lexeme, and all
  of them.
* `tokenize_append` — the tokens of two formulas with blanks between them.
-/

namespace Scoresheet.Formula

/-! ### Tokens at a position -/

/-- The tokens of a text whose first character has the given position. -/
def tokensFrom (position : ℕ) (text : List Char) : Except Error (List Token) :=
  (spansFrom position text).map (·.map Span.token)

section Steps

variable {position : ℕ} {c : Char} {rest : List Char}

@[simp] theorem tokensFrom_nil : tokensFrom position [] = .ok [] := by
  rw [tokensFrom, spansFrom]
  rfl

theorem tokensFrom_blank (hblank : Text.isBlank c = true) :
    tokensFrom position (c :: rest) = tokensFrom (position + 1) rest := by
  rw [tokensFrom, spansFrom_blank hblank, tokensFrom]

theorem tokensFrom_of_error {e : Error} (hblank : Text.isBlank c = false)
    (h : lexeme position c rest = .error e) : tokensFrom position (c :: rest) = .error e := by
  rw [tokensFrom, spansFrom_of_error hblank h]
  rfl

theorem tokensFrom_of_lexeme {found : Lexeme} (hblank : Text.isBlank c = false)
    (h : lexeme position c rest = .ok found) : tokensFrom position (c :: rest) =
      (tokensFrom (position + 1 + found.more) (rest.drop found.more)).map (found.token :: ·) := by
  rw [tokensFrom, spansFrom_of_lexeme hblank h, tokensFrom]
  cases spansFrom (position + 1 + found.more) (rest.drop found.more) <;> rfl

end Steps

/-- **What the tokens of a text start with:** there are none if there are blanks only, and the first
is an opening parenthesis if the first character other than a blank is one. -/
theorem head?_of_tokensFrom {position : ℕ} {text : List Char} {tokens : List Token}
    (h : tokensFrom position text = .ok tokens) :
    (tokens = [] ↔ Text.trimStart text = []) ∧
    (tokens.head? = some .leftParen ↔ (Text.trimStart text).head? = some '(') := by
  -- By induction on the scan: blanks are skipped on both sides, and the first lexeme decides.
  induction position, text using scan_induction with
  | nil position =>
    obtain rfl := Except.ok.inj (tokensFrom_nil.symm.trans h)
    simp [Text.trimStart]
  | blank position c rest hblank ih =>
    rw [tokensFrom_blank hblank] at h
    simpa only [Text.trimStart, List.dropWhile_cons_of_pos hblank] using ih h
  | fault position c rest e hblank he =>
    rw [tokensFrom_of_error hblank he] at h
    cases h
  | lexeme position c rest found hblank hfound _ =>
    rw [tokensFrom_of_lexeme hblank hfound] at h
    obtain ⟨behind, -, rfl⟩ := map_eq_ok_iff.1 h
    have htrim : Text.trimStart (c :: rest) = c :: rest :=
      List.dropWhile_cons_of_neg (Bool.eq_false_iff.1 hblank)
    rw [htrim, List.head?_cons, List.head?_cons, Option.some_inj, Option.some_inj]
    -- The text is not empty, and neither are its tokens; an opening parenthesis is spelled in one
    -- way.
    refine ⟨by simp, fun htoken => ?_, fun hc => ?_⟩
    -- A token of punctuation has its sign for a spelling.
    · obtain ⟨text, following, hsplit, -, hspells, -⟩ := lexeme_eq_ok_iff.1 hfound
      rw [htoken] at hspells
      cases hspells with
      | sign hsign =>
        cases hsign
        exact (List.cons.inj hsplit).1
    -- And the sign is a lexeme by itself, whatever follows.
    · subst hc
      rw [lexeme_of_sign .leftParen] at hfound
      exact (congrArg Lexeme.token (Except.ok.inj hfound)).symm

/-! ### Faults further to the right -/

/-- **The same fault,** so many characters further to the right. -/
inductive Error.Shifted (offset : ℕ) : Error → Error → Prop where
  | lexical (c : Char) (p : ℕ) : Error.Shifted offset (.lexical c p) (.lexical c (offset + p))
  | literal (p : ℕ) : Error.Shifted offset (.nonFinite ("literal at position " ++ toString p))
    (.nonFinite ("literal at position " ++ toString (offset + p)))

section Shift

variable {position : ℕ} {c : Char} {rest : List Char} {e : Error}

/-- A lexeme is the same at any position. -/
theorem lexeme_shift {found : Lexeme} (h : lexeme position c rest = .ok found) (position' : ℕ) :
    lexeme position' c rest = .ok found :=
  lexeme_eq_ok_iff.2 (lexeme_eq_ok_iff.1 h)

theorem lexeme_error_shift (h : lexeme position c rest = .error e) (offset : ℕ) :
    ∃ e', e.Shifted offset e' ∧ lexeme (offset + position) c rest = .error e' := by
  obtain ⟨rfl, hnone⟩ | ⟨rfl, huge⟩ := lexeme_eq_error_iff.1 h
  · exact ⟨_, .lexical c position, lexeme_eq_error_iff.2 (.inl ⟨rfl, hnone⟩)⟩
  · exact ⟨_, .literal position, lexeme_eq_error_iff.2 (.inr ⟨rfl, huge⟩)⟩

end Shift

/-- **Where a text starts** does not matter to its tokens, and a fault in it moves along. -/
theorem tokensFrom_shift (offset position : ℕ) (text : List Char) :
    (∃ tokens, tokensFrom position text = .ok tokens ∧
      tokensFrom (offset + position) text = .ok tokens) ∨
    ∃ e e', e.Shifted offset e' ∧ tokensFrom position text = .error e ∧
      tokensFrom (offset + position) text = .error e' := by
  -- By induction on the scan. A position is only ever added to, so that it shows in faults alone.
  induction position, text using scan_induction with
  | nil position => exact .inl ⟨[], tokensFrom_nil, tokensFrom_nil⟩
  | blank position c rest hblank ih =>
    rw [tokensFrom_blank hblank, tokensFrom_blank hblank, Nat.add_assoc]
    exact ih
  | fault position c rest e hblank he =>
    obtain ⟨e', hshifted, he'⟩ := lexeme_error_shift he offset
    exact .inr ⟨e, e', hshifted, tokensFrom_of_error hblank he, tokensFrom_of_error hblank he'⟩
  | lexeme position c rest found hblank hfound ih =>
    -- The text behind the lexeme starts as far behind the offset as before.
    have hbehind : offset + position + 1 + found.more = offset + (position + 1 + found.more) := by
      omega
    rw [tokensFrom_of_lexeme hblank hfound, tokensFrom_of_lexeme hblank (lexeme_shift hfound _),
      hbehind]
    obtain ⟨tokens, hhere, hthere⟩ | ⟨e, e', hshifted, hhere, hthere⟩ := ih
    · exact .inl ⟨found.token :: tokens, by rw [hhere, map_ok], by rw [hthere, map_ok]⟩
    · exact .inr ⟨e, e', hshifted, map_eq_error_iff.2 hhere, map_eq_error_iff.2 hthere⟩

/-! ### Tokens in a row -/

/-- **Two token sequences in a row.** A name at the end of the first is called if the second starts
with an opening parenthesis. -/
def joined (before behind : List Token) : List Token :=
  match before.getLast?, behind.head? with
  | some (.identifier name), some .leftParen =>
    before.dropLast ++ .function name (declaredArity name) :: behind
  | _, _ => before ++ behind

section Joined

variable {before behind : List Token} {token : Token}

@[simp] theorem joined_nil (behind : List Token) : joined [] behind = behind := rfl

/-- What is not next to the seam does not change. -/
theorem joined_cons (hne : before ≠ []) (token : Token) (behind : List Token) :
    joined (token :: before) behind = token :: joined before behind := by
  obtain ⟨next, before, rfl⟩ := List.exists_cons_of_ne_nil hne
  unfold joined
  rw [List.getLast?_cons_cons, List.dropLast_cons_cons]
  split <;> rfl

theorem joined_cons_of_ne_identifier (h : ∀ name, token ≠ .identifier name)
    (before behind : List Token) :
    joined (token :: before) behind = token :: joined before behind := by
  cases before with
  | cons next before => exact joined_cons (List.cons_ne_nil next before) token behind
  | nil =>
    unfold joined
    split
    · next hlast _ => exact absurd (Option.some.inj hlast) (h _)
    · rfl

theorem joined_identifier (name : String) (behind : List Token) :
    joined [.identifier name] behind =
      (if behind.head? = some .leftParen then .function name (declaredArity name)
        else .identifier name) :: behind := by
  split
  · next hhead => simp only [joined, hhead, List.getLast?_singleton, List.dropLast_singleton,
      List.nil_append]
  · next hhead =>
    unfold joined
    split
    · next hparen => exact absurd hparen hhead
    · rfl

end Joined

/-! ### A text in front of a blank -/

section Append

variable {text following tail : List Char} {token : Token} {position : ℕ} {c : Char}
  {rest : List Char}

/-- What is left behind a lexeme. -/
theorem drop_more_eq {more : ℕ} (hsplit : c :: rest = text ++ following)
    (hlength : text.length = more + 1) : rest.drop more = following := by
  have hdrop := congrArg (List.drop (more + 1)) hsplit
  rwa [List.drop_succ_cons, ← hlength, List.drop_left] at hdrop

/-- **A lexeme that cannot be made longer** gives its token, and what follows it the tokens
behind. -/
theorem tokensFrom_of_spells (hspells : Spells text following token)
    (hmax : Maximal text following token) : tokensFrom position (text ++ following) =
      (tokensFrom (position + text.length) following).map (token :: ·) := by
  have hlexeme := hspells.isLexeme
  obtain ⟨c, more, rfl⟩ := List.exists_cons_of_ne_nil hlexeme.ne_nil
  have hfound : lexeme position c (more ++ following) = .ok ⟨token, more.length⟩ :=
    lexeme_eq_ok_iff.2 ⟨c :: more, following, rfl, rfl, hspells, hmax⟩
  rw [List.cons_append,
    tokensFrom_of_lexeme (hlexeme.isBlank_eq_false List.mem_cons_self) hfound, List.drop_left,
    List.length_cons, Nat.add_assoc, Nat.add_comm 1]

/-- Nothing continues a lexeme at the end of a text. -/
theorem maximal_nil (text : List Char) (token : Token) : Maximal text [] token := by
  cases token with
  | number | identifier | function => exact fun _ h => nomatch h
  | operator | leftParen | rightParen | comma => trivial

theorem Lexeme.more_le {found : Lexeme} (h : lexeme position c rest = .ok found) :
    found.more ≤ rest.length := by
  obtain ⟨text, following, hsplit, hlength, -⟩ := lexeme_eq_ok_iff.1 h
  have hall := congrArg List.length hsplit
  rw [List.length_cons, List.length_append] at hall
  omega

/-- The token of a name depends on the first token behind it. -/
theorem joined_nameToken {name : String} {before behind : List Token} {p q : ℕ}
    (hbefore : tokensFrom p following = .ok before) (hbehind : tokensFrom q tail = .ok behind) :
    joined (nameToken name following :: before) behind =
      nameToken name (following ++ tail) :: joined before behind := by
  -- What stands first in a text behind its blanks is known from the tokens of the text.
  have hempty := (head?_of_tokensFrom hbefore).1
  have hparen := (head?_of_tokensFrom hbehind).2
  have htrim : Text.trimStart (following ++ tail) =
      if (Text.trimStart following).isEmpty then Text.trimStart tail
      else Text.trimStart following ++ tail := List.dropWhile_append
  by_cases hnil : before = []
  · -- Only blanks are left of the first text, and the second decides.
    have hblanks := hempty.1 hnil
    rw [hblanks] at htrim
    have hname : nameToken name following = .identifier name := by
      rw [nameToken_eq, hblanks]
      rfl
    rw [hnil, hname, joined_identifier, nameToken_eq, htrim, joined_nil]
    simp only [hparen, List.isEmpty_nil, if_true]
  -- There is a character of the first text left, and it decides as before.
  · obtain ⟨next, rest, hrest⟩ := List.exists_cons_of_ne_nil (mt hempty.2 hnil)
    rw [hrest] at htrim
    rw [joined_cons hnil, nameToken_eq, nameToken_eq, hrest, htrim]
    rfl

variable (htail : ∀ c ∈ tail.head?, Text.isBlank c = true)

include htail

/-- What follows a lexeme still follows it, or else a blank does. -/
theorem head?_append_blank (h : c ∈ (following ++ tail).head?) :
    c ∈ following.head? ∨ Text.isBlank c = true := by
  cases following with
  | nil => exact .inr (htail c h)
  | cons d following => exact .inl h

/-- A blank behind a text continues no lexeme in it. -/
theorem Maximal.append (h : Maximal text following token) :
    Maximal text (following ++ tail) token := by
  -- Neither a digit nor a part of a name is blank, so that a blank in front ends both.
  have hdigit : ∀ c, Text.isBlank c = true → c.isDigit = false := fun c hc =>
    Bool.eq_false_iff.2 fun hdigit => by simp [Text.isBlank_of_isDigit hdigit] at hc
  have hname : ∀ c, Text.isBlank c = true → isNamePart c = false := fun c hc =>
    Bool.eq_false_iff.2 fun hname => by simp [isBlank_of_isNamePart hname] at hc
  cases token with
  | number value =>
    intro c hc
    obtain hc | hblank := head?_append_blank htail hc
    · exact h c hc
    · refine ⟨hdigit c hblank, ?_⟩
      -- Nor is a point a blank.
      rintro rfl
      cases hblank
  | identifier name =>
    intro c hc
    exact (head?_append_blank htail hc).elim (h c) (hname c)
  | function name arity =>
    intro c hc
    exact (head?_append_blank htail hc).elim (h c) (hname c)
  -- The other tokens are whole whatever follows them.
  | operator | leftParen | rightParen | comma => trivial

/-- A lexeme at the head of a text with a blank behind is in the text. -/
theorem IsLexeme.exists_append {lexeme following : List Char} (h : IsLexeme lexeme)
    (hsplit : text ++ tail = lexeme ++ following) : ∃ more, text = lexeme ++ more := by
  obtain ⟨beyond, rfl, hbeyond⟩ | ⟨more, hmore, -⟩ := List.append_eq_append_iff.1 hsplit
  · cases beyond with
    | nil => exact ⟨[], by rw [List.append_nil, List.append_nil]⟩
    | cons c beyond =>
      have hblank := htail c (by rw [hbeyond]; rfl)
      rw [h.isBlank_eq_false (List.mem_append_right text List.mem_cons_self)] at hblank
      cases hblank
  · exact ⟨more, hmore⟩

/-- What is wrong at the head of a text is wrong in front of a blank. -/
theorem lexeme_append_error {e : Error} (h : lexeme position c rest = .error e) :
    lexeme position c (rest ++ tail) = .error e := by
  obtain ⟨rfl, hnone⟩ | ⟨rfl, numeral, following, value, hsplit, hnumeral, hmax, hinfinite⟩ :=
    lexeme_eq_error_iff.1 h
  · refine lexeme_eq_error_iff.2 (.inl ⟨rfl, fun text following hsplit hlexeme => ?_⟩)
    obtain ⟨more, hmore⟩ := hlexeme.exists_append htail ((List.cons_append ..).trans hsplit)
    exact hnone text more hmore hlexeme
  · refine lexeme_eq_error_iff.2 (.inr ⟨rfl, numeral, following ++ tail, value, ?_, hnumeral,
      hmax.append htail, hinfinite⟩)
    rw [← List.cons_append, hsplit, List.append_assoc]

/-- **A lexeme in front of a blank** is the same text. Its token is another one only if it is a name
at the seam. -/
theorem lexeme_append {found : Lexeme} (h : lexeme position c rest = .ok found) :
    ∃ token, lexeme position c (rest ++ tail) = .ok ⟨token, found.more⟩ ∧
      ∀ p q before behind, tokensFrom p (rest.drop found.more) = .ok before →
        tokensFrom q tail = .ok behind →
        joined (found.token :: before) behind = token :: joined before behind := by
  obtain ⟨text, following, hsplit, hlength, hspells, hmax⟩ := lexeme_eq_ok_iff.1 h
  have hwhole : c :: (rest ++ tail) = text ++ (following ++ tail) := by
    rw [← List.cons_append, hsplit, List.append_assoc]
  rw [drop_more_eq hsplit hlength]
  -- A name is taken for a call or a variable by what follows it; all else has one spelling.
  obtain ⟨hname, htoken⟩ | ⟨hfixed, hne⟩ := hspells.name_or_fixed
  · rw [htoken] at hmax ⊢
    -- The blank in front ends the name where it ended before.
    have hstop := maximal_nameToken_iff.1 (hmax.append htail)
    exact ⟨nameToken (String.ofList text) (following ++ tail),
      lexeme_eq_ok_iff.2 ⟨text, following ++ tail, hwhole, hlength, hname.spells _,
        maximal_nameToken_iff.2 hstop⟩,
      fun p q before behind hbefore hbehind => joined_nameToken hbefore hbehind⟩
  · exact ⟨found.token, lexeme_eq_ok_iff.2 ⟨text, following ++ tail, hwhole, hlength, hfixed _,
      hmax.append htail⟩, fun p q before behind _ _ => joined_cons_of_ne_identifier hne _ _⟩

/-- **A text in front of a blank** is cut as it is by itself, and then what follows is. -/
theorem tokensFrom_append (position : ℕ) (text : List Char) :
    tokensFrom position (text ++ tail) = do
      let before ← tokensFrom position text
      let behind ← tokensFrom (position + text.length) tail
      return joined before behind := by
  -- By induction on the scan of the first text, whose look-ahead does not get past the blank in
  -- front of the second.
  induction position, text using scan_induction with
  | nil position =>
    rw [tokensFrom_nil, List.nil_append]
    exact (bind_pure _).symm
  | blank position c rest hblank ih =>
    rw [List.cons_append, tokensFrom_blank hblank, tokensFrom_blank hblank, ih, List.length_cons,
      Nat.add_assoc, Nat.add_comm 1]
  | fault position c rest e hblank he =>
    rw [List.cons_append, tokensFrom_of_error hblank he,
      tokensFrom_of_error hblank (lexeme_append_error htail he)]
    rfl
  -- Where the lexeme of the joined text differs, it is a name that a parenthesis now follows.
  | lexeme position c rest found hblank hfound ih =>
    obtain ⟨token, htoken, hjoined⟩ := lexeme_append htail hfound
    have hmore := Lexeme.more_le hfound
    have hlength : position + 1 + found.more + (rest.drop found.more).length =
        position + (c :: rest).length := by
      rw [List.length_drop, List.length_cons]
      omega
    rw [List.cons_append, tokensFrom_of_lexeme hblank htoken, tokensFrom_of_lexeme hblank hfound,
      List.drop_append_of_le_length hmore, ih, hlength]
    -- A fault of the first text comes first, whatever the second one has.
    cases hbefore : tokensFrom (position + 1 + found.more) (rest.drop found.more) with
    | error e => rfl
    | ok before =>
      cases hbehind : tokensFrom (position + (c :: rest).length) tail with
      | error e => rfl
      | ok behind => exact congrArg Except.ok (hjoined _ _ before behind hbefore hbehind).symm

end Append

/-! ### Two formulas -/

section Formulas

variable {a w b : String} (hw : w ≠ "") (hblank : ∀ c ∈ w.toList, Text.isBlank c = true)

include hw hblank

/-- The first formula is cut first, and the second where it stands. -/
theorem tokenize_append_eq : tokenize (a ++ w ++ b) = do
    let before ← tokenize a
    let behind ← tokensFrom (a.length + w.length) b.toList
    return joined before behind := by
  -- The separator is a blank at least, and the second text follows it.
  have hhead : ∀ c ∈ (w.toList ++ b.toList).head?, Text.isBlank c = true := by
    intro c hc
    obtain ⟨d, rest, hd⟩ := List.exists_cons_of_ne_nil (mt String.toList_eq_nil_iff.1 hw)
    rw [hd, List.cons_append, List.head?_cons, Option.mem_some_iff] at hc
    exact hblank c (by rw [hd, hc]; exact List.mem_cons_self)
  -- The blanks themselves give no tokens and only shift the second text.
  have hmoved : tokensFrom (0 + a.toList.length) (w.toList ++ b.toList) =
      tokensFrom (a.length + w.length) b.toList := by
    rw [tokensFrom, spansFrom_blanks hblank, Nat.zero_add, String.length_toList,
      String.length_toList, tokensFrom]
  change tokensFrom 0 (a ++ w ++ b).toList = do
    let before ← tokensFrom 0 a.toList
    let behind ← tokensFrom (a.length + w.length) b.toList
    return joined before behind
  rw [String.toList_append, String.toList_append, List.append_assoc, tokensFrom_append hhead,
    hmoved]

/-- **Two formulas with blanks between them.** A fault in the first is a fault of the whole. The
tokens are those of both, one behind the other, but that a name is called if it is the last token of
the first formula and an opening parenthesis the first of the second. A fault in the second is the
same one in the whole, as many characters further to the right as stand before it. -/
theorem tokenize_append :
    (∀ e, tokenize a = .error e → tokenize (a ++ w ++ b) = .error e) ∧
    (∀ ta tb, tokenize a = .ok ta → tokenize b = .ok tb →
      tokenize (a ++ w ++ b) = .ok (joined ta tb)) ∧
    ∀ ta e, tokenize a = .ok ta → tokenize b = .error e →
      ∃ e', e.Shifted (a.length + w.length) e' ∧ tokenize (a ++ w ++ b) = .error e' := by
  rw [tokenize_append_eq hw hblank]
  -- The second text is scanned behind the first and the separator, and by itself from zero.
  have hshift := tokensFrom_shift (a.length + w.length) 0 b.toList
  rw [Nat.add_zero] at hshift
  refine ⟨fun e ha => ?_, fun ta tb ha hb => ?_, fun ta e ha hb => ?_⟩
  · rw [ha]
    rfl
  -- Both texts have tokens, and those of the second do not depend on its position.
  · obtain ⟨tokens, hhere, hthere⟩ | ⟨e, e', -, hhere, -⟩ := hshift
    · obtain rfl := Except.ok.inj (hb.symm.trans hhere)
      rw [ha, hthere]
      rfl
    · cases hb.symm.trans hhere
  -- The first text has tokens, and the fault of the second is reported further on.
  · obtain ⟨tokens, hhere, -⟩ | ⟨e₀, e', hshifted, hhere, hthere⟩ := hshift
    · cases hb.symm.trans hhere
    · obtain rfl := Except.error.inj (hb.symm.trans hhere)
      rw [ha, hthere]
      exact ⟨e', hshifted, rfl⟩

end Formulas

/-- A name that is called across a tab, and a point that goes wrong in the second formula. -/
theorem tokenize_append_called :
    tokenize ("max" ++ " \t" ++ "(x, y)") = .ok [.function "max" 2, .leftParen, .identifier "x",
      .comma, .identifier "y", .rightParen] ∧
    ∃ e, Error.Shifted 5 (.lexical '.' 1) e ∧ tokenize ("max" ++ " \t" ++ "x.") = .error e := by
  have hblank : ∀ c ∈ " \t".toList, Text.isBlank c = true := List.all_eq_true.1 rfl
  constructor
  · exact (tokenize_append (a := "max") (b := "(x, y)") (by decide) hblank).2.1
      [.identifier "max"] [.leftParen, .identifier "x", .comma, .identifier "y", .rightParen]
      (by decide +kernel) (by decide +kernel)
  · exact (tokenize_append (a := "max") (b := "x.") (by decide) hblank).2.2
      [.identifier "max"] (.lexical '.' 1) (by decide +kernel) (by decide +kernel)

end Scoresheet.Formula
