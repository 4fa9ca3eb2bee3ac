import Scoresheet.Formula.Lexeme
import Scoresheet.Proofs.Decimal.RoundTrip

/-!
# What texts denote

A numeral, a name or a sign denotes a token, and which texts are any of these is said here without
the scanner. At the head of a text the scanner finds the one lexeme that cannot be made longer, and
nothing exactly where no lexeme starts.

* `Numeral`, `IsName`, `Sign` — the three kinds of lexemes.
* `IsLexeme` — the texts that are one of them.
* `Spells` — the token that a lexeme denotes, given what follows it.
* `Maximal` — a lexeme that what follows it does not continue.
* `numberRun_eq`, `exists_numeral` — the run of a number is the numeral that cannot be made longer.
* `lexeme_eq_ok_iff`, `lexeme_eq_error_iff` — what is found at the head of a text.
* `scan_induction` — induction along the scanner, one lexeme or blank at a time.

A name is called if the next character other than a blank is an opening parenthesis, so that its
token depends on what follows; a numeral and a sign denote the same token anywhere.
-/

namespace Scoresheet.Formula

/-! ### Classes of characters -/

theorem toNat_of_isNamePart {c : Char} (h : isNamePart c = true) :
    48 ≤ c.toNat ∧ c.toNat ≤ 122 := by
  simp only [isNamePart, Char.isAlphanum, Char.isAlpha, Char.isUpper, Char.isLower, Char.isDigit,
    Bool.or_eq_true, Bool.and_eq_true, decide_eq_true_eq, beq_iff_eq, ge_iff_le,
    UInt32.le_iff_toNat_le] at h
  rcases h with ((⟨hlow, hhigh⟩ | ⟨hlow, hhigh⟩) | ⟨hlow, hhigh⟩) | rfl
  · exact ⟨le_trans (by decide) hlow, le_trans hhigh (by decide)⟩
  · exact ⟨le_trans (by decide) hlow, le_trans hhigh (by decide)⟩
  · exact ⟨le_trans (by decide) hlow, le_trans hhigh (by decide)⟩
  · decide

theorem isBlank_of_isNamePart {c : Char} (h : isNamePart c = true) : Text.isBlank c = false :=
  Text.isBlank_eq_false_of_le (toNat_of_isNamePart h).1 (toNat_of_isNamePart h).2

theorem isNamePart_of_isNameStart {c : Char} (h : isNameStart c = true) :
    isNamePart c = true := by
  simp only [isNameStart, isNamePart, Char.isAlphanum, Bool.or_eq_true] at h ⊢
  tauto

/-- No name starts with a digit. -/
theorem isDigit_of_isNameStart {c : Char} (h : isNameStart c = true) : c.isDigit = false := by
  rw [← Bool.not_eq_true, Char.isDigit_iff_toNat]
  rintro ⟨-, hhigh⟩
  change c.toNat ≤ 57 at hhigh
  simp only [isNameStart, Char.isAlpha, Char.isUpper, Char.isLower, Bool.or_eq_true,
    Bool.and_eq_true, decide_eq_true_eq, beq_iff_eq, ge_iff_le, UInt32.le_iff_toNat_le] at h
  -- A letter or the underscore lies above the digits.
  rcases h with (⟨hlow, -⟩ | ⟨hlow, -⟩) | rfl
  · have : 65 ≤ c.toNat := hlow
    omega
  · have : 97 ≤ c.toNat := hlow
    omega
  · exact absurd hhigh (by decide)

/-! ### The three kinds of lexemes -/

/-- **A numeral** and the float that it denotes: digits, with at most one point before, behind or
among them. -/
inductive Numeral : List Char → Float → Prop where
  | whole {digits : List Char} (hdigits : ∀ c ∈ digits, c.isDigit = true) (hne : digits ≠ []) :
    Numeral digits (Decimal.nearest (Decimal.digitsValue digits) 0)
  | pointed {whole fraction : List Char} (hwhole : ∀ c ∈ whole, c.isDigit = true)
    (hfraction : ∀ c ∈ fraction, c.isDigit = true) (hne : whole ≠ [] ∨ fraction ≠ []) :
    Numeral (whole ++ '.' :: fraction)
      (Decimal.nearest (Decimal.digitsValue (whole ++ fraction)) (-fraction.length))

/-- **A name:** a letter or a low line, and then letters, digits and low lines. -/
def IsName (text : List Char) : Prop :=
  ∃ first rest, text = first :: rest ∧ isNameStart first = true ∧
    ∀ c ∈ rest, isNamePart c = true

/-- **A sign** and the token that it denotes. -/
inductive Sign : Char → Token → Prop where
  | leftParen : Sign '(' .leftParen
  | rightParen : Sign ')' .rightParen
  | comma : Sign ',' .comma
  | add : Sign '+' (.operator .add)
  | sub : Sign '-' (.operator .sub)
  | mul : Sign '*' (.operator .mul)
  | div : Sign '/' (.operator .div)

/-- A text that is one lexeme. -/
inductive IsLexeme : List Char → Prop where
  | numeral {text : List Char} {value : Float} (h : Numeral text value) : IsLexeme text
  | name {text : List Char} (h : IsName text) : IsLexeme text
  | sign {c : Char} {token : Token} (h : Sign c token) : IsLexeme [c]

/-- The arity that a call in a formula declares: that of the builtin, or none. -/
def declaredArity (name : String) : ℕ :=
  (Builtin.ofName? name).elim 0 Builtin.arity

/-- **The token that a lexeme denotes,** given what follows it. Of numerals, only those of finite
numbers denote one. -/
inductive Spells : (text following : List Char) → Token → Prop where
  | number {text following : List Char} {value : Float} (h : Numeral text value)
    (hfinite : value.isFinite = true) : Spells text following (.number value)
  | identifier {text following : List Char} (h : IsName text)
    (hnext : (Text.trimStart following).head? ≠ some '(') :
    Spells text following (.identifier (String.ofList text))
  | function {text following : List Char} (h : IsName text)
    (hnext : (Text.trimStart following).head? = some '(') :
    Spells text following (.function (String.ofList text) (declaredArity (String.ofList text)))
  | sign {c : Char} {following : List Char} {token : Token} (h : Sign c token) :
    Spells [c] following token

/-- **A lexeme that what follows it does not continue:** no digit follows a numeral, nor a point
unless there is one in it already, and nothing that names go on with follows a name. -/
def Maximal (text following : List Char) : Token → Prop
  | .number _ => ∀ c ∈ following.head?, c.isDigit = false ∧ (c = '.' → '.' ∈ text)
  | .identifier _ | .function _ _ => ∀ c ∈ following.head?, isNamePart c = false
  | _ => True

variable {text following : List Char} {value : Float} {token : Token} {c : Char}

theorem Spells.isLexeme (h : Spells text following token) : IsLexeme text := by
  cases h with
  | number h => exact .numeral h
  | identifier h => exact .name h
  | function h => exact .name h
  | sign h => exact .sign h

/-- No text denotes the unary minus. -/
theorem Spells.ne_neg (h : Spells text following token) : token ≠ .operator .neg := by
  rintro rfl
  cases h with
  | sign h => cases h

/-! ### Numerals -/

theorem Numeral.mem (h : Numeral text value) (hc : c ∈ text) : c.isDigit = true ∨ c = '.' := by
  cases h with
  | whole hdigits => exact .inl (hdigits c hc)
  | pointed hwhole hfraction =>
    obtain hc | hc := List.mem_append.1 hc
    · exact .inl (hwhole c hc)
    · obtain rfl | hc := List.mem_cons.1 hc
      · exact .inr rfl
      · exact .inl (hfraction c hc)

theorem Numeral.ne_nil (h : Numeral text value) : text ≠ [] := by
  cases h with
  | whole _ hne => exact hne
  | pointed => simp

theorem IsLexeme.ne_nil (h : IsLexeme text) : text ≠ [] := by
  cases h with
  | numeral h => exact h.ne_nil
  | name h =>
    obtain ⟨first, rest, rfl, -⟩ := h
    exact List.cons_ne_nil first rest
  | sign => exact List.cons_ne_nil _ _

/-- No lexeme has a blank in it. -/
theorem IsLexeme.isBlank_eq_false (h : IsLexeme text) (hc : c ∈ text) : Text.isBlank c = false := by
  -- By the kind of the lexeme.
  cases h with
  | numeral h =>
    obtain hdigit | rfl := h.mem hc
    · exact Text.isBlank_of_isDigit hdigit
    · rfl
  | name h =>
    obtain ⟨first, rest, rfl, hfirst, hrest⟩ := h
    obtain rfl | hc := List.mem_cons.1 hc
    · exact isBlank_of_isNamePart (isNamePart_of_isNameStart hfirst)
    · exact isBlank_of_isNamePart (hrest c hc)
  | sign h =>
    obtain rfl := List.mem_singleton.1 hc
    cases h <;> rfl

/-- A text that starts with a point is no word, and has no sign. -/
theorem ofText?_point (rest : List Char) :
    Decimal.ofText? ('.' :: rest) = Decimal.magnitude? ('.' :: rest) := by
  have hword : Decimal.word? ('.' :: rest) = none := rfl
  simp [Decimal.ofText?, Decimal.spanSign, hword]

theorem ofText?_digit (hc : c.isDigit = true) (rest : List Char) :
    Decimal.ofText? (c :: rest) = Decimal.magnitude? (c :: rest) := by
  simp [Decimal.ofText?, Decimal.spanSign_of_isDigit hc, Decimal.word?_of_isDigit hc]

/-- **A numeral is read** as the float that it denotes. -/
theorem Numeral.ofText? (h : Numeral text value) : Decimal.ofText? text = some value := by
  have hmagnitude : Decimal.magnitude? text = some value := by
    cases h with
    | whole hdigits hne => exact Decimal.magnitude?_digits hne hdigits
    | pointed hwhole hfraction hne => exact Decimal.magnitude?_point hne hwhole hfraction
  obtain ⟨c, rest, rfl⟩ := List.exists_cons_of_ne_nil h.ne_nil
  obtain hc | rfl := h.mem List.mem_cons_self
  · rw [ofText?_digit hc, hmagnitude]
  · rw [ofText?_point, hmagnitude]

/-- A number starts at a digit, or at a point before a digit. -/
theorem startsNumber_cons_iff (c : Char) (rest : List Char) :
    startsNumber (c :: rest) = true ↔
      c.isDigit = true ∨ (c = '.' ∧ ∃ d ∈ rest.head?, d.isDigit = true) := by
  -- A point needs a digit behind it, and whatever else starts a number is a digit itself.
  by_cases hpoint : c = '.'
  · subst hpoint
    cases rest with
    | nil => simp [startsNumber]
    | cons d rest => simp [startsNumber]
  -- Without the point only the last pattern is left.
  · have hdigit : startsNumber (c :: rest) = c.isDigit := by
      unfold startsNumber
      split
      · exact absurd (List.cons.inj ‹_›).1 hpoint
      · rename_i heq
        rw [(List.cons.inj heq).1]
      · rename_i heq
        cases heq
    simp [hdigit, hpoint]

/-- Where a numeral stands, a number starts. -/
theorem Numeral.startsNumber (h : Numeral text value) (following : List Char) :
    startsNumber (text ++ following) = true := by
  cases h with
  | whole hdigits hne =>
    obtain ⟨c, rest, rfl⟩ := List.exists_cons_of_ne_nil hne
    exact (startsNumber_cons_iff _ _).2 (.inl (hdigits c List.mem_cons_self))
  | @pointed whole fraction hwhole hfraction hne =>
    -- The digit is in front of the point, or right behind it.
    cases whole with
    | cons c rest => exact (startsNumber_cons_iff _ _).2 (.inl (hwhole c List.mem_cons_self))
    | nil =>
      obtain ⟨d, rest, rfl⟩ := List.exists_cons_of_ne_nil (hne.resolve_left (not_not.2 rfl))
      exact (startsNumber_cons_iff _ _).2 (.inr ⟨rfl, d, rfl, hfraction d List.mem_cons_self⟩)

/-! ### The run of a number -/

theorem numberRun_digits {digits : List Char} (h : ∀ c ∈ digits, c.isDigit = true)
    (pointSeen : Bool) (following : List Char) :
    numberRun pointSeen (digits ++ following) = digits ++ numberRun pointSeen following := by
  induction digits with
  | nil => rfl
  | cons c rest ih =>
    obtain ⟨hc, hrest⟩ := List.forall_mem_cons.1 h
    rw [List.cons_append, numberRun, if_pos hc, ih hrest, List.cons_append]

/-- The run ends before what is no digit, and no point if it has none yet. -/
theorem numberRun_eq_nil {pointSeen : Bool} (h : ∀ c ∈ following.head?,
    c.isDigit = false ∧ (c = '.' → pointSeen = true)) : numberRun pointSeen following = [] := by
  cases following with
  | nil => rfl
  | cons c rest =>
    obtain ⟨hdigit, hpoint⟩ := h c rfl
    have hseen : ¬ (c = '.' ∧ pointSeen = false) := fun ⟨hc, hunseen⟩ => by
      rw [hpoint hc] at hunseen
      cases hunseen
    rw [numberRun, if_neg (Bool.eq_false_iff.1 hdigit), if_neg hseen]

theorem numberRun_point (rest : List Char) :
    numberRun false ('.' :: rest) = '.' :: numberRun true rest := by
  rw [numberRun, if_neg (by decide), if_pos ⟨rfl, rfl⟩]

/-- **The run of a number** is the numeral at the head of the text, if it is maximal. -/
theorem numberRun_eq (h : Numeral text value) (hmax : Maximal text following (.number value)) :
    numberRun false (text ++ following) = text := by
  cases h with
  | @whole digits hdigits hne =>
    have hstop : numberRun false following = [] := numberRun_eq_nil fun c hc =>
      ⟨(hmax c hc).1, fun hpoint => by
        -- A point would have to be one of the digits.
        have hdigit := hdigits '.' ((hmax c hc).2 hpoint)
        cases hdigit⟩
    rw [numberRun_digits hdigits, hstop, List.append_nil]
  | @pointed whole fraction hwhole hfraction hne =>
    have hstop : numberRun true following = [] := numberRun_eq_nil fun c hc =>
      ⟨(hmax c hc).1, fun _ => rfl⟩
    rw [List.append_assoc, numberRun_digits hwhole, List.cons_append, numberRun_point,
      numberRun_digits hfraction, hstop, List.append_nil]

/-- A text is its leading digits and a rest that does not start with one. -/
theorem exists_digits (text : List Char) : ∃ digits rest, text = digits ++ rest ∧
    (∀ c ∈ digits, c.isDigit = true) ∧ ∀ c ∈ rest.head?, c.isDigit = false := by
  refine ⟨text.takeWhile Char.isDigit, text.dropWhile Char.isDigit,
    List.takeWhile_append_dropWhile.symm, fun c hc => List.mem_takeWhile_imp hc, fun c hc => ?_⟩
  have hhead := List.head?_dropWhile_not Char.isDigit text
  rw [hc] at hhead
  exact hhead

/-- **Where a number starts,** its run is a maximal numeral. -/
theorem exists_numeral (h : startsNumber text = true) :
    ∃ following value, text = numberRun false text ++ following ∧
      Numeral (numberRun false text) value ∧
      Maximal (numberRun false text) following (.number value) := by
  obtain ⟨whole, rest, rfl, hwhole, hrest⟩ := exists_digits text
  rw [numberRun_digits hwhole]
  by_cases hpoint : rest.head? = some '.'
  · obtain ⟨behind, rfl⟩ : ∃ behind, rest = '.' :: behind := List.head?_eq_some_iff.1 hpoint
    obtain ⟨fraction, following, rfl, hfraction, hfollowing⟩ := exists_digits behind
    have hstop : numberRun true following = [] := numberRun_eq_nil fun c hc =>
      ⟨hfollowing c hc, fun _ => rfl⟩
    rw [numberRun_point, numberRun_digits hfraction, hstop, List.append_nil]
    -- A point without digits on both sides starts no number.
    have hne : whole ≠ [] ∨ fraction ≠ [] := by
      by_contra hnone
      obtain ⟨rfl, rfl⟩ : whole = [] ∧ fraction = [] := by simpa using hnone
      obtain hdigit | ⟨-, d, hd, hdigit⟩ := (startsNumber_cons_iff _ _).1 h
      · cases hdigit
      · rw [hfollowing d hd] at hdigit
        cases hdigit
    exact ⟨following, _, by simp, .pointed hwhole hfraction hne, fun c hc =>
      ⟨hfollowing c hc, fun _ => by simp⟩⟩
  · have hstop : numberRun false rest = [] := numberRun_eq_nil fun c hc =>
      ⟨hrest c hc, fun heq => absurd (heq ▸ hc) hpoint⟩
    rw [hstop, List.append_nil]
    have hne : whole ≠ [] := by
      rintro rfl
      cases rest with
      | nil => cases h
      | cons c behind =>
        obtain hdigit | ⟨rfl, -⟩ := (startsNumber_cons_iff _ _).1 h
        · rw [hrest c rfl] at hdigit
          cases hdigit
        · exact hpoint rfl
    exact ⟨rest, _, rfl, .whole hwhole hne, fun c hc =>
      ⟨hrest c hc, fun heq => absurd (heq ▸ hc) hpoint⟩⟩

/-! ### What is found at the head of a text -/

theorem sign_iff : Sign c token ↔ signToken? c = some token := by
  constructor
  -- One case for each sign.
  · intro h
    cases h <;> rfl
  · intro h
    unfold signToken? at h
    -- One case for each character, and one for an operator's.
    split at h
    · obtain rfl := Option.some.inj h
      exact .leftParen
    · obtain rfl := Option.some.inj h
      exact .rightParen
    · obtain rfl := Option.some.inj h
      exact .comma
    · obtain ⟨op, hop, rfl⟩ := Option.map_eq_some_iff.1 h
      unfold Operator.ofChar? at hop
      split at hop
      · obtain rfl := Option.some.inj hop
        exact .add
      · obtain rfl := Option.some.inj hop
        exact .sub
      · obtain rfl := Option.some.inj hop
        exact .mul
      · obtain rfl := Option.some.inj hop
        exact .div
      · cases hop

/-- Where a name starts, no number does. -/
theorem startsNumber_of_isNameStart (h : isNameStart c = true) (rest : List Char) :
    startsNumber (c :: rest) = false := by
  rw [← Bool.not_eq_true, startsNumber_cons_iff, isDigit_of_isNameStart h]
  rintro (hdigit | ⟨rfl, -⟩)
  · cases hdigit
  · cases h

/-- Where a sign stands, neither a number nor a name starts. -/
theorem Sign.starts (h : Sign c token) (rest : List Char) :
    startsNumber (c :: rest) = false ∧ isNameStart c = false := by
  cases h <;> exact ⟨rfl, rfl⟩

theorem nameToken_eq (name : String) (following : List Char) :
    nameToken name following = if (Text.trimStart following).head? = some '('
      then .function name (declaredArity name) else .identifier name := by
  unfold nameToken
  split
  · next heq => rw [heq, List.head?_cons, if_pos rfl, declaredArity]
  · next hne =>
    refine (if_neg fun hhead => ?_).symm
    obtain ⟨rest, hrest⟩ := List.head?_eq_some_iff.1 hhead
    exact hne rest hrest

theorem IsName.spells (h : IsName text) (following : List Char) :
    Spells text following (nameToken (String.ofList text) following) := by
  rw [nameToken_eq]
  split
  · next hnext => exact .function h hnext
  · next hnext => exact .identifier h hnext

/-- The token of a lexeme depends on what follows it only if it is a name. -/
theorem Spells.name_or_fixed (h : Spells text following token) :
    (IsName text ∧ token = nameToken (String.ofList text) following) ∨
    ((∀ following, Spells text following token) ∧ ∀ name, token ≠ .identifier name) := by
  cases h with
  | number h hfinite => exact .inr ⟨fun _ => .number h hfinite, fun _ => Token.noConfusion⟩
  | identifier h hnext => exact .inl ⟨h, by rw [nameToken_eq, if_neg hnext]⟩
  | function h hnext => exact .inl ⟨h, by rw [nameToken_eq, if_pos hnext]⟩
  -- A sign is no name.
  | sign h =>
    refine .inr ⟨fun _ => .sign h, fun name hname => ?_⟩
    subst hname
    cases h

/-- A name is maximal whether or not it is called. -/
theorem maximal_nameToken_iff {name : String} {behind : List Char} :
    Maximal text following (nameToken name behind) ↔
      ∀ c ∈ following.head?, isNamePart c = false := by
  rw [nameToken_eq]
  split
  · exact Iff.rfl
  · exact Iff.rfl

section Head

variable {position : ℕ} {first : Char} {rest : List Char}

theorem lexeme_of_numeral (hsplit : first :: rest = text ++ following) (h : Numeral text value)
    (hmax : Maximal text following (.number value)) : lexeme position first rest =
      if value.isFinite then .ok ⟨.number value, text.length - 1⟩
      else .error (.nonFinite ("literal at position " ++ toString position)) := by
  have hstarts : startsNumber (first :: rest) = true := hsplit ▸ h.startsNumber following
  have hrun : numberRun false (first :: rest) = text := hsplit ▸ numberRun_eq h hmax
  rw [lexeme, if_pos hstarts, numberLexeme]
  simp only [hrun, h.ofText?]

theorem lexeme_of_name (hsplit : first :: rest = text ++ following) (h : IsName text)
    (hstop : ∀ c ∈ following.head?, isNamePart c = false) : lexeme position first rest =
      .ok ⟨nameToken (String.ofList text) following, text.length - 1⟩ := by
  obtain ⟨first', tail, rfl, hstart, htail⟩ := h
  rw [List.cons_append, List.cons.injEq] at hsplit
  obtain ⟨rfl, rfl⟩ := hsplit
  have hstarts : ¬ startsNumber (first :: (tail ++ following)) = true :=
    Bool.not_eq_true _ ▸ startsNumber_of_isNameStart hstart _
  rw [lexeme, if_neg hstarts, if_pos hstart]
  simp only [takeWhile_append_of_stop htail hstop, dropWhile_append_of_stop htail hstop,
    List.length_cons, Nat.add_sub_cancel]

theorem lexeme_of_sign (h : Sign first token) : lexeme position first rest = .ok ⟨token, 0⟩ := by
  obtain ⟨hnumber, hname⟩ := h.starts rest
  rw [lexeme, if_neg (Bool.eq_false_iff.1 hnumber), if_neg (Bool.eq_false_iff.1 hname),
    sign_iff.1 h]

/-- What can stand at the head of a text: a maximal numeral, a maximal name, a sign, or nothing that
is a lexeme. -/
theorem exists_lexeme (first : Char) (rest : List Char) :
    (∃ text following value, first :: rest = text ++ following ∧ Numeral text value ∧
      Maximal text following (.number value)) ∨
    (∃ text following, first :: rest = text ++ following ∧ IsName text ∧
      ∀ c ∈ following.head?, isNamePart c = false) ∨
    (∃ token, Sign first token) ∨
    ((∀ text following, first :: rest = text ++ following → ¬ IsLexeme text) ∧
      ∀ position, lexeme position first rest = .error (.lexical first position)) := by
  -- The kinds exclude one another by their first characters, and the scanner asks for them in this
  -- order.
  cases hnumber : startsNumber (first :: rest) with
  | true =>
    obtain ⟨following, value, hsplit, h, hmax⟩ := exists_numeral hnumber
    exact .inl ⟨_, following, value, hsplit, h, hmax⟩
  | false =>
    cases hname : isNameStart first with
    -- The name is all that may stand in one, and what is behind it begins with something else.
    | true =>
      refine .inr (.inl ⟨first :: rest.takeWhile isNamePart, rest.dropWhile isNamePart, ?_,
        ⟨first, _, rfl, hname, fun c hc => List.mem_takeWhile_imp hc⟩, fun c hc => ?_⟩)
      · rw [List.cons_append, List.takeWhile_append_dropWhile]
      · have hhead := List.head?_dropWhile_not isNamePart rest
        rw [hc] at hhead
        exact hhead
    | false =>
      cases hsign : signToken? first with
      | some token => exact .inr (.inr (.inl ⟨token, sign_iff.2 hsign⟩))
      | none =>
        -- Nothing starts here: each kind of lexeme would have been found by its first character.
        refine .inr (.inr (.inr ⟨fun text following hsplit h => ?_, fun position => ?_⟩))
        · cases h with
          | numeral h =>
            have hstarts := h.startsNumber following
            rw [← hsplit, hnumber] at hstarts
            cases hstarts
          | name h =>
            obtain ⟨first', tail, rfl, hstart, -⟩ := h
            obtain ⟨rfl, -⟩ := List.cons.inj hsplit
            rw [hname] at hstart
            cases hstart
          | sign h =>
            obtain ⟨rfl, -⟩ := List.cons.inj hsplit
            rw [sign_iff, hsign] at h
            cases h
        · rw [lexeme, if_neg (Bool.eq_false_iff.1 hnumber), if_neg (Bool.eq_false_iff.1 hname),
            hsign]

/-- **What is found at the head of a text** is the lexeme there that cannot be made longer, with the
token that it denotes. -/
theorem lexeme_eq_ok_iff {found : Lexeme} : lexeme position first rest = .ok found ↔
    ∃ text following, first :: rest = text ++ following ∧ text.length = found.more + 1 ∧
      Spells text following found.token ∧ Maximal text following found.token := by
  constructor
  · intro h
    -- Whichever lexeme starts here, the scanner returns it, and a numeral only if it is finite.
    obtain ⟨text, following, value, hsplit, hnumeral, hmax⟩ |
      ⟨text, following, hsplit, hname, hstop⟩ | ⟨token, hsign⟩ | ⟨-, hnone⟩ :=
        exists_lexeme first rest
    · rw [lexeme_of_numeral hsplit hnumeral hmax] at h
      split at h
      · next hfinite =>
        obtain rfl := Except.ok.inj h
        have hlength := List.length_pos_of_ne_nil hnumeral.ne_nil
        exact ⟨text, following, hsplit, by simp only; omega, .number hnumeral hfinite, hmax⟩
      · cases h
    · rw [lexeme_of_name hsplit hname hstop] at h
      obtain rfl := Except.ok.inj h
      have hlength : 0 < text.length := by
        obtain ⟨first', tail, rfl, -⟩ := hname
        exact Nat.succ_pos _
      exact ⟨text, following, hsplit, by simp only; omega, hname.spells following,
        maximal_nameToken_iff.2 hstop⟩
    · rw [lexeme_of_sign hsign] at h
      obtain rfl := Except.ok.inj h
      refine ⟨[first], rest, rfl, rfl, .sign hsign, ?_⟩
      cases hsign <;> trivial
    · rw [hnone] at h
      cases h
  -- Conversely the kind of the lexeme tells which branch the scanner takes.
  · rintro ⟨text, following, hsplit, hlength, hspells, hmax⟩
    obtain ⟨token, more⟩ := found
    -- The count leaves out the first character.
    have hmore : text.length - 1 = more := by
      rw [hlength, Nat.add_sub_cancel]
    subst hmore
    dsimp only at hspells hmax
    cases hspells with
    | number h hfinite => rw [lexeme_of_numeral hsplit h hmax, if_pos hfinite]
    | identifier h hnext => rw [lexeme_of_name hsplit h hmax, nameToken_eq, if_neg hnext]
    | function h hnext => rw [lexeme_of_name hsplit h hmax, nameToken_eq, if_pos hnext]
    | sign h =>
      obtain ⟨rfl, -⟩ := List.cons.inj hsplit
      exact lexeme_of_sign h

/-- **What is wrong at the head of a text:** no lexeme starts there, or the numeral that cannot be
made longer denotes no finite number. -/
theorem lexeme_eq_error_iff {e : Error} : lexeme position first rest = .error e ↔
    (e = .lexical first position ∧
      ∀ text following, first :: rest = text ++ following → ¬ IsLexeme text) ∨
    (e = .nonFinite ("literal at position " ++ toString position) ∧
      ∃ text following value, first :: rest = text ++ following ∧ Numeral text value ∧
        Maximal text following (.number value) ∧ value.isFinite = false) := by
  constructor
  · intro h
    obtain ⟨text, following, value, hsplit, hnumeral, hmax⟩ |
      ⟨text, following, hsplit, hname, hstop⟩ | ⟨token, hsign⟩ | ⟨hnothing, hnone⟩ :=
        exists_lexeme first rest
    -- A numeral stops the scanner where it is too large, and no other lexeme does.
    · rw [lexeme_of_numeral hsplit hnumeral hmax] at h
      split at h
      · cases h
      · next hinfinite =>
        exact .inr ⟨(Except.error.inj h).symm, text, following, value, hsplit, hnumeral, hmax,
          Bool.eq_false_iff.2 hinfinite⟩
    · rw [lexeme_of_name hsplit hname hstop] at h
      cases h
    · rw [lexeme_of_sign hsign] at h
      cases h
    · rw [hnone] at h
      exact .inl ⟨(Except.error.inj h).symm, hnothing⟩
  -- Nothing can start here, or what starts here is too large.
  · rintro (⟨rfl, hnothing⟩ | ⟨rfl, text, following, value, hsplit, hnumeral, hmax, hinfinite⟩)
    · obtain ⟨text, following, value, hsplit, hnumeral, -⟩ | ⟨text, following, hsplit, hname, -⟩ |
        ⟨token, hsign⟩ | ⟨-, hnone⟩ := exists_lexeme first rest
      · exact absurd (.numeral hnumeral) (hnothing _ _ hsplit)
      · exact absurd (.name hname) (hnothing _ _ hsplit)
      · exact absurd (.sign hsign) (hnothing [first] rest rfl)
      · exact hnone position
    · rw [lexeme_of_numeral hsplit hnumeral hmax, if_neg (Bool.eq_false_iff.1 hinfinite)]

end Head

/-! ### One step of the scanner -/

section Step

variable {position : ℕ} {rest : List Char}

theorem spansFrom_blank (hblank : Text.isBlank c = true) :
    spansFrom position (c :: rest) = spansFrom (position + 1) rest := by
  rw [spansFrom, if_pos hblank]

theorem spansFrom_of_error {e : Error} (hblank : Text.isBlank c = false)
    (h : lexeme position c rest = .error e) : spansFrom position (c :: rest) = .error e := by
  rw [spansFrom, if_neg (Bool.eq_false_iff.1 hblank), h]

theorem spansFrom_of_lexeme {found : Lexeme} (hblank : Text.isBlank c = false)
    (h : lexeme position c rest = .ok found) : spansFrom position (c :: rest) =
      (spansFrom (position + 1 + found.more) (rest.drop found.more)).map
        (⟨position, found.more + 1, found.token⟩ :: ·) := by
  rw [spansFrom, if_neg (Bool.eq_false_iff.1 hblank), h]
  dsimp only
  cases spansFrom (position + 1 + found.more) (rest.drop found.more) <;> rfl

/-- Blanks in front of a text only move it. -/
theorem spansFrom_blanks {blanks : List Char} (h : ∀ c ∈ blanks, Text.isBlank c = true)
    (position : ℕ) (text : List Char) :
    spansFrom position (blanks ++ text) = spansFrom (position + blanks.length) text := by
  induction blanks generalizing position with
  | nil => rfl
  | cons c blanks ih =>
    obtain ⟨hc, hblanks⟩ := List.forall_mem_cons.1 h
    rw [List.cons_append, spansFrom_blank hc, ih hblanks, List.length_cons, Nat.add_assoc,
      Nat.add_comm 1]

/-- **Induction along the scanner,** step by step. -/
@[elab_as_elim]
theorem scan_induction {motive : ℕ → List Char → Prop} (position : ℕ) (text : List Char)
    (nil : ∀ position, motive position [])
    (blank : ∀ position c rest, Text.isBlank c = true → motive (position + 1) rest →
      motive position (c :: rest))
    (fault : ∀ position c rest e, Text.isBlank c = false → lexeme position c rest = .error e →
      motive position (c :: rest))
    (lexeme : ∀ position c rest found, Text.isBlank c = false →
      lexeme position c rest = .ok found →
      motive (position + 1 + found.more) (rest.drop found.more) → motive position (c :: rest)) :
    motive position text := by
  -- The last two cases differ in what the rest of the text comes to, which the motive does not ask.
  induction position, text using spansFrom.induct with
  | case1 position => exact nil position
  | case2 position c rest hblank ih => exact blank position c rest hblank ih
  | case3 position c rest hblank e he =>
    exact fault position c rest e (Bool.eq_false_iff.2 hblank) he
  | case4 position c rest hblank found hfound _ _ ih =>
    exact lexeme position c rest found (Bool.eq_false_iff.2 hblank) hfound ih
  | case5 position c rest hblank found hfound _ _ ih =>
    exact lexeme position c rest found (Bool.eq_false_iff.2 hblank) hfound ih

end Step

end Scoresheet.Formula
