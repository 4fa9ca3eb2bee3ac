import Scoresheet.Proofs.Basic
import Scoresheet.Proofs.Formula.Lexemes

/-!
# Nothing of a formula is lost

The tokens of a formula stand for all of it. Each of them has a span of the formula to itself, whose
text denotes it and could not be longer, and between the spans there are blanks only. A formula that
has no tokens is covered in the same way up to the character where it goes wrong, and there no
lexeme starts, or a numeral stands that denotes no finite number.

* `Covers` — spans cover a part of a text.
* `StopsAt` — what is wrong at a position where no token can be found.
* `lexeme_eq_span_iff` — what is found at the start of a span.
* `spansFrom_of_covers` — spans that cover a part of a text are found there.
* `exists_covers` — what is found covers the text, up to its end or to a fault.
* `spans_eq_ok_iff`, `spans_eq_error_iff`, `tokenize_iff_covers` — both outcomes, told by what is
  covered.

The spans that cover a text are not said to be found by the scanner, and yet no others can be: a
blank is in no lexeme, and no lexeme can be cut short.
-/

namespace Scoresheet.Formula

/-! ### Spans that cover a text -/

namespace Span

/-- The position behind a span. -/
def stop (s : Span) : ℕ := s.start + s.length

/-- The part of a text that a span is. -/
def textIn (s : Span) (text : List Char) : List Char := (text.drop s.start).take s.length

end Span

/-- **Spans cover a part of a text:** they follow one another in it, whatever is outside them is
blank, and each has the token that its text denotes, which could not be longer. -/
structure Covers (text : List Char) (start stop : ℕ) (spans : List Span) : Prop where
  increasing : spans.Pairwise fun s t => s.stop ≤ t.start
  within : ∀ s ∈ spans, start ≤ s.start ∧ 0 < s.length ∧ s.stop ≤ stop
  blank_outside : ∀ i, start ≤ i → i < stop → (∀ s ∈ spans, i < s.start ∨ s.stop ≤ i) →
    ∀ c ∈ text[i]?, Text.isBlank c = true
  spells : ∀ s ∈ spans, Spells (s.textIn text) (text.drop s.stop) s.token
  maximal : ∀ s ∈ spans, Maximal (s.textIn text) (text.drop s.stop) s.token

/-- **What is wrong at a position** where no token can be found. -/
inductive StopsAt (text : List Char) (p : ℕ) : Error → Prop where
  | stray {c : Char} (hc : text[p]? = some c) (hblank : Text.isBlank c = false)
    (hnone : ∀ lexeme following, text.drop p = lexeme ++ following → ¬ IsLexeme lexeme) :
    StopsAt text p (.lexical c p)
  | huge {numeral following : List Char} {value : Float}
    (hsplit : text.drop p = numeral ++ following) (hnumeral : Numeral numeral value)
    (hmax : Maximal numeral following (.number value)) (hinfinite : value.isFinite = false) :
    StopsAt text p (.nonFinite ("literal at position " ++ toString p))

variable {text : List Char} {start stop p : ℕ} {spans : List Span} {c : Char}

theorem drop_eq_cons (hc : text[p]? = some c) : text.drop p = c :: text.drop (p + 1) := by
  obtain ⟨hlt, rfl⟩ := List.getElem?_eq_some_iff.1 hc
  exact List.drop_eq_getElem_cons hlt

namespace Covers

theorem nil (text : List Char) (stop : ℕ) : Covers text stop stop [] where
  increasing := .nil
  within _ h := nomatch h
  blank_outside _ hstart hstop := absurd hstop (Nat.not_lt.2 hstart)
  spells _ h := nomatch h
  maximal _ h := nomatch h

/-- Nothing of a text is covered by no span. -/
theorem eq_nil (h : Covers text stop stop spans) : spans = [] := by
  refine List.eq_nil_iff_forall_not_mem.2 fun s hs => ?_
  obtain ⟨hstart, hlength, hstop⟩ := h.within s hs
  unfold Span.stop at hstop
  omega

/-- One more blank in front. -/
theorem blank (hc : text[start]? = some c) (hblank : Text.isBlank c = true)
    (h : Covers text (start + 1) stop spans) : Covers text start stop spans where
  increasing := h.increasing
  within s hs := ⟨Nat.le_of_succ_le (h.within s hs).1, (h.within s hs).2⟩
  blank_outside i hstart hstop houtside d hd := by
    -- The character at the start is blank, and behind it the spans are as before.
    obtain rfl | hlt := Nat.eq_or_lt_of_le hstart
    · rw [hc, Option.mem_some_iff] at hd
      exact hd ▸ hblank
    · exact h.blank_outside i hlt hstop houtside d hd
  spells := h.spells
  maximal := h.maximal

/-- One more span in front. -/
theorem cons {s : Span} (hstart : s.start = start) (hlength : 0 < s.length) (hstop : s.stop ≤ stop)
    (hspells : Spells (s.textIn text) (text.drop s.stop) s.token)
    (hmax : Maximal (s.textIn text) (text.drop s.stop) s.token)
    (h : Covers text s.stop stop spans) : Covers text start stop (s :: spans) where
  increasing := List.pairwise_cons.2 ⟨fun t ht => (h.within t ht).1, h.increasing⟩
  within := by
    refine List.forall_mem_cons.2 ⟨⟨hstart.ge, hlength, hstop⟩, fun t ht => ?_⟩
    -- The later spans start where the first one ends or behind that.
    obtain ⟨hs, hlen, hle⟩ := h.within t ht
    unfold Span.stop at hs
    exact ⟨by omega, hlen, hle⟩
  blank_outside i hi hi' houtside := by
    -- A place behind the first span is outside of it.
    obtain ⟨hs, hrest⟩ := List.forall_mem_cons.1 houtside
    exact h.blank_outside i (hs.resolve_left (by omega)) hi' hrest
  spells := List.forall_mem_cons.2 ⟨hspells, h.spells⟩
  maximal := List.forall_mem_cons.2 ⟨hmax, h.maximal⟩

/-- **The first character of what is covered** is a blank, or the first of a span. -/
theorem blank_or_cons (h : Covers text start stop spans) (hlt : start < stop)
    (hc : text[start]? = some c) :
    (Text.isBlank c = true ∧ Covers text (start + 1) stop spans) ∨
    (Text.isBlank c = false ∧ ∃ s rest, spans = s :: rest ∧ s.start = start ∧
      Covers text s.stop stop rest) := by
  -- Either a span starts right here, or none does and the character is blank.
  by_cases hfirst : ∃ s rest, spans = s :: rest ∧ s.start = start
  · obtain ⟨s, rest, rfl, rfl⟩ := hfirst
    obtain ⟨hs, hrest⟩ := List.pairwise_cons.1 h.increasing
    obtain ⟨-, hlength, -⟩ := h.within s List.mem_cons_self
    -- The character belongs to the span, and no lexeme has a blank in it.
    have hmem : c ∈ s.textIn text := by
      rw [Span.textIn, drop_eq_cons hc]
      obtain ⟨n, hn⟩ := Nat.exists_eq_succ_of_ne_zero hlength.ne'
      rw [hn, List.take_succ_cons]
      exact List.mem_cons_self
    refine .inr ⟨(h.spells s List.mem_cons_self).isLexeme.isBlank_eq_false hmem, s, rest, rfl, rfl,
      hrest, fun t ht => ⟨hs t ht, (h.within t (List.mem_cons_of_mem s ht)).2⟩,
      fun i hi hi' houtside => ?_, fun t ht => h.spells t (List.mem_cons_of_mem s ht),
      fun t ht => h.maximal t (List.mem_cons_of_mem s ht)⟩
    -- What is left uncovered behind the first span is left uncovered by all of them.
    refine h.blank_outside i ?_ hi' (List.forall_mem_cons.2 ⟨.inr hi, houtside⟩)
    unfold Span.stop at hi
    omega
  · -- All spans start behind the first character.
    have hbehind : ∀ s ∈ spans, start < s.start := by
      cases spans with
      | nil => exact fun _ hs => nomatch hs
      | cons s rest =>
        have hs : start < s.start := lt_of_le_of_ne (h.within s List.mem_cons_self).1 fun heq =>
          hfirst ⟨s, rest, rfl, heq.symm⟩
        refine List.forall_mem_cons.2 ⟨hs, fun t ht => ?_⟩
        have hle := (List.pairwise_cons.1 h.increasing).1 t ht
        unfold Span.stop at hle
        omega
    exact .inl ⟨h.blank_outside start le_rfl hlt (fun s hs => .inl (hbehind s hs)) c hc,
      h.increasing, fun s hs => ⟨hbehind s hs, (h.within s hs).2⟩,
      fun i hi => h.blank_outside i (Nat.le_of_succ_le hi), h.spells, h.maximal⟩

end Covers

/-! ### What the scanner finds -/

theorem Span.textIn_append (s : Span) (text : List Char) :
    s.textIn text ++ text.drop s.stop = text.drop s.start := by
  rw [textIn, stop, ← List.drop_drop, List.take_append_drop]

theorem Span.length_textIn {s : Span} (h : s.stop ≤ text.length) :
    (s.textIn text).length = s.length := by
  unfold stop at h
  rw [textIn, List.length_take, List.length_drop]
  omega

/-- **What is found at the start of a span** is its token, if its text is a lexeme that denotes it
and could not be longer. -/
theorem lexeme_eq_span_iff {s : Span} (hc : text[s.start]? = some c) (hlength : 0 < s.length) :
    lexeme s.start c (text.drop (s.start + 1)) = .ok ⟨s.token, s.length - 1⟩ ↔
      s.stop ≤ text.length ∧ Spells (s.textIn text) (text.drop s.stop) s.token ∧
        Maximal (s.textIn text) (text.drop s.stop) s.token := by
  have hmore : s.length - 1 + 1 = s.length := Nat.sub_add_cancel hlength
  rw [lexeme_eq_ok_iff, ← drop_eq_cons hc, hmore]
  constructor
  -- The lexeme and what follows it are cut out of the text by the span.
  · rintro ⟨lexeme, following, hsplit, hlexeme, hspells, hmax⟩
    have htext : s.textIn text = lexeme := by
      rw [Span.textIn, hsplit, ← hlexeme, List.take_left]
    have hfollowing : text.drop s.stop = following := by
      rw [Span.stop, ← List.drop_drop, hsplit, ← hlexeme, List.drop_left]
    have hstop : s.stop ≤ text.length := by
      have hall := congrArg List.length hsplit
      rw [List.length_drop, List.length_append] at hall
      unfold Span.stop
      omega
    rw [htext, hfollowing]
    exact ⟨hstop, hspells, hmax⟩
  · rintro ⟨hstop, hspells, hmax⟩
    exact ⟨_, _, (s.textIn_append text).symm, Span.length_textIn hstop, hspells, hmax⟩

/-- **Spans that cover a part of a text** are found there. -/
theorem spansFrom_of_covers (h : Covers text start stop spans) (hle : start ≤ stop)
    (hstop : stop ≤ text.length) : spansFrom start (text.drop start) =
      (spansFrom stop (text.drop stop)).map (spans ++ ·) := by
  -- By induction on the length of the range. Its first character is skipped or starts the first
  -- span, and either way the rest is a shorter range.
  induction hn : stop - start using Nat.strong_induction_on generalizing start spans with
  | _ n ih =>
    obtain rfl | hlt := Nat.eq_or_lt_of_le hle
    · rw [h.eq_nil]
      cases spansFrom start (text.drop start) <;> rfl
    obtain ⟨c, hc⟩ : ∃ c, text[start]? = some c :=
      ⟨_, List.getElem?_eq_getElem (hlt.trans_le hstop)⟩
    rw [drop_eq_cons hc]
    obtain ⟨hblank, hrest⟩ | ⟨hblank, s, rest, rfl, rfl, hrest⟩ := h.blank_or_cons hlt hc
    · rw [spansFrom_blank hblank]
      exact ih _ (by omega) hrest hlt rfl
    · obtain ⟨-, hlength, hend⟩ := h.within s List.mem_cons_self
      have hmore : s.length - 1 + 1 = s.length := Nat.sub_add_cancel hlength
      -- The span is maximal, which is what the scanner asks for.
      have hfound := (lexeme_eq_span_iff hc hlength).2 ⟨hend.trans hstop,
        h.spells s List.mem_cons_self, h.maximal s List.mem_cons_self⟩
      have hbehind : s.start + 1 + (s.length - 1) = s.stop := by
        unfold Span.stop
        omega
      have hspan : (⟨s.start, s.length - 1 + 1, s.token⟩ : Span) = s := by rw [hmore]
      rw [spansFrom_of_lexeme hblank hfound, List.drop_drop, hbehind, hspan,
        ih _ (by omega) hrest hend rfl]
      cases spansFrom stop (text.drop stop) <;> rfl

/-- **A text is covered** up to its end or to a fault. -/
theorem exists_covers (h : start ≤ text.length) : ∃ stop spans, start ≤ stop ∧
    stop ≤ text.length ∧ Covers text start stop spans ∧
      (stop = text.length ∨ ∃ e, StopsAt text stop e) := by
  -- The scanner goes as far as it can, and what it has found by then covers the text up to there.
  induction hn : text.length - start using Nat.strong_induction_on generalizing start with
  | _ n ih =>
    obtain rfl | hlt := Nat.eq_or_lt_of_le h
    · exact ⟨_, [], le_rfl, le_rfl, .nil text _, .inl rfl⟩
    obtain ⟨c, hc⟩ : ∃ c, text[start]? = some c := ⟨_, List.getElem?_eq_getElem hlt⟩
    have hdrop := drop_eq_cons hc
    cases hblank : Text.isBlank c with
    | true =>
      obtain ⟨stop, spans, hle, hstop, hcovers, hend⟩ := ih _ (by omega) hlt rfl
      exact ⟨stop, spans, Nat.le_of_succ_le hle, hstop, hcovers.blank hc hblank, hend⟩
    | false =>
      cases hlexeme : lexeme start c (text.drop (start + 1)) with
      -- The scanner stops at a character that starts nothing, or at a numeral that is too large.
      | error e =>
        refine ⟨start, [], le_rfl, h, .nil text start, .inr ⟨e, ?_⟩⟩
        obtain ⟨rfl, hnone⟩ | ⟨rfl, numeral, following, value, hsplit, hnumeral, hmax, hinfinite⟩ :=
          lexeme_eq_error_iff.1 hlexeme
        · exact .stray hc hblank (hdrop ▸ hnone)
        · exact .huge (hdrop.trans hsplit) hnumeral hmax hinfinite
      | ok found =>
        -- The lexeme that was found is written as a span.
        obtain ⟨s, rfl, hlength, hfound⟩ : ∃ s : Span, s.start = start ∧ 0 < s.length ∧
            found = ⟨s.token, s.length - 1⟩ :=
          ⟨⟨start, found.more + 1, found.token⟩, rfl, Nat.succ_pos _, rfl⟩
        rw [hfound] at hlexeme
        obtain ⟨hend, hspells, hmax⟩ := (lexeme_eq_span_iff hc hlength).1 hlexeme
        have hbehind : s.start < s.stop := by
          unfold Span.stop
          omega
        obtain ⟨stop, spans, hle, hstop, hcovers, hfault⟩ := ih _ (by omega) hend rfl
        exact ⟨stop, s :: spans, hbehind.le.trans hle, hstop,
          hcovers.cons rfl hlength hle hspells hmax, hfault⟩

/-- A fault is inside the text. -/
theorem StopsAt.lt_length {e : Error} (h : StopsAt text p e) : p < text.length := by
  cases h with
  | stray hc => exact (List.getElem?_eq_some_iff.1 hc).1
  | huge hsplit hnumeral =>
    have hlength := congrArg List.length hsplit
    rw [List.length_drop, List.length_append] at hlength
    have hpos := List.length_pos_of_ne_nil hnumeral.ne_nil
    omega

/-- A stray character is the one at its position, and no lexeme starts there. -/
theorem StopsAt.of_lexical {q : ℕ} (h : StopsAt text q (.lexical c p)) : q = p ∧
    text[p]? = some c ∧
      ∀ lexeme following, text.drop p = lexeme ++ following → ¬ IsLexeme lexeme := by
  cases h with
  | stray hc _ hnone => exact ⟨rfl, hc, hnone⟩

/-- A fault stops the scanner. -/
theorem StopsAt.spansFrom_eq {e : Error} (h : StopsAt text p e) :
    spansFrom p (text.drop p) = .error e := by
  -- Both reasons to stop are faults of the scanner, and neither is at a blank.
  cases h with
  | stray hc hblank hnone =>
    rw [drop_eq_cons hc] at hnone ⊢
    exact spansFrom_of_error hblank (lexeme_eq_error_iff.2 (.inl ⟨rfl, hnone⟩))
  | huge hsplit hnumeral hmax hinfinite =>
    obtain ⟨c, rest, rfl⟩ := List.exists_cons_of_ne_nil hnumeral.ne_nil
    have hblank : Text.isBlank c = false :=
      (IsLexeme.numeral hnumeral).isBlank_eq_false List.mem_cons_self
    rw [hsplit, List.cons_append]
    exact spansFrom_of_error hblank
      (lexeme_eq_error_iff.2 (.inr ⟨rfl, _, _, _, rfl, hnumeral, hmax, hinfinite⟩))

/-! ### The outcomes, told by what is covered -/

/-- The scanner covers a formula with spans, or up to a fault. -/
theorem spans_cases (formula : String) :
    (∃ found, Formula.spans formula = .ok found ∧
      Covers formula.toList 0 formula.length found) ∨
    ∃ e p found, Formula.spans formula = .error e ∧ Covers formula.toList 0 p found ∧
      StopsAt formula.toList p e := by
  -- How far the spans reach is settled first; what the scanner says of it follows.
  obtain ⟨stop, found, -, hstop, hcovers, hend⟩ := exists_covers (Nat.zero_le formula.toList.length)
  have hscan := spansFrom_of_covers hcovers (Nat.zero_le stop) hstop
  rw [List.drop_zero] at hscan
  -- The spans reach the end, or they reach a place where the scan stops.
  obtain rfl | ⟨e, hfault⟩ := hend
  · rw [List.drop_length, spansFrom, map_ok, List.append_nil] at hscan
    rw [String.length_toList] at hcovers
    exact .inl ⟨found, hscan, hcovers⟩
  · rw [hfault.spansFrom_eq] at hscan
    exact .inr ⟨e, stop, found, hscan, hcovers, hfault⟩

/-- **The spans of a formula** are those that cover it. -/
theorem spans_eq_ok_iff {formula : String} :
    Formula.spans formula = .ok spans ↔ Covers formula.toList 0 formula.length spans := by
  constructor
  · intro h
    -- A scan that succeeds covers, and one that stops cannot succeed.
    obtain ⟨found, hfound, hcovers⟩ | ⟨e, p, found, he, -⟩ := spans_cases formula
    · obtain rfl := Except.ok.inj (h.symm.trans hfound)
      exact hcovers
    · cases h.symm.trans he
  -- Two coverings from the same start agree, so the scan follows the given one.
  · intro h
    rw [← String.length_toList] at h
    have hscan := spansFrom_of_covers h (Nat.zero_le _) le_rfl
    rwa [List.drop_zero, List.drop_length, spansFrom, map_ok, List.append_nil] at hscan

/-- **A formula without tokens** is covered up to a fault. -/
theorem spans_eq_error_iff {formula : String} {e : Error} : Formula.spans formula = .error e ↔
    ∃ p found, Covers formula.toList 0 p found ∧ StopsAt formula.toList p e := by
  constructor
  · intro h
    obtain ⟨found, hfound, -⟩ | ⟨e', p, found, he, hcovers, hfault⟩ := spans_cases formula
    · cases h.symm.trans hfound
    · obtain rfl := Except.error.inj (h.symm.trans he)
      exact ⟨p, found, hcovers, hfault⟩
  · rintro ⟨p, found, hcovers, hfault⟩
    have hscan := spansFrom_of_covers hcovers (Nat.zero_le p) hfault.lt_length.le
    rwa [List.drop_zero, hfault.spansFrom_eq] at hscan

/-- **The tokens of a text have no unary minus among them.** -/
theorem neg_notMem_of_tokenize {formula : String} {tokens : List Token}
    (h : tokenize formula = .ok tokens) : .operator .neg ∉ tokens := by
  obtain ⟨spans, hspans, rfl⟩ := map_eq_ok_iff.1 h
  intro hmem
  obtain ⟨s, hs, htoken⟩ := List.mem_map.1 hmem
  exact ((spans_eq_ok_iff.1 hspans).spells s hs).ne_neg htoken

/-- At a stray point there is no digit behind it. -/
theorem StopsAt.not_digit_behind (h : StopsAt text p (.lexical '.' p)) :
    ∀ d ∈ text[p + 1]?, d.isDigit = false := by
  cases h with
  | stray hc _ hnone =>
    -- A digit behind the point would make a numeral start there.
    intro d hd
    by_contra hdigit
    have hpointed : Numeral ([] ++ '.' :: [d]) _ :=
      .pointed (by simp) (by simpa using hdigit) (by simp)
    refine hnone ['.', d] (text.drop (p + 2)) ?_ (.numeral hpointed)
    rw [drop_eq_cons hc, drop_eq_cons hd]
    rfl

/-- **Nothing of a formula is lost.** Its tokens are those of the spans that cover it, and there are
no others; if it has none, it is covered up to where it goes wrong. A stray character is the one at
its position, no lexeme starts there, and a stray point has no digit behind it. A run that starts as
a number always denotes one. -/
theorem tokenize_iff_covers (formula : String) :
    (∀ tokens, tokenize formula = .ok tokens ↔
      ∃ spans, Covers formula.toList 0 formula.length spans ∧ spans.map Span.token = tokens) ∧
    (∀ e, tokenize formula = .error e ↔
      ∃ p spans, Covers formula.toList 0 p spans ∧ StopsAt formula.toList p e) ∧
    (∀ c p, tokenize formula = .error (.lexical c p) →
      formula.toList[p]? = some c ∧
      (∀ text following, formula.toList.drop p = text ++ following → ¬ IsLexeme text) ∧
      (c = '.' → ∀ d ∈ formula.toList[p + 1]?, d.isDigit = false) ∧
      ∃ spans, Covers formula.toList 0 p spans) ∧
    ∀ rest, startsNumber rest = true →
      ∃ value, Decimal.ofText? (numberRun false rest) = some value := by
  -- A fault of the tokens is one of the scan.
  have herror : ∀ e, tokenize formula = .error e ↔
      ∃ p spans, Covers formula.toList 0 p spans ∧ StopsAt formula.toList p e := fun e => by
    rw [tokenize, map_eq_error_iff, spans_eq_error_iff]
  refine ⟨fun tokens => ?_, herror, fun c p h => ?_, fun rest h => ?_⟩
  · rw [tokenize, map_eq_ok_iff]
    simp only [spans_eq_ok_iff]
  -- A lexical fault names the character that it is at.
  · obtain ⟨q, spans, hcovers, hfault⟩ := (herror _).1 h
    obtain ⟨rfl, hc, hnone⟩ := hfault.of_lexical
    exact ⟨hc, hnone, fun hpoint => (hpoint ▸ hfault).not_digit_behind, spans, hcovers⟩
  · obtain ⟨following, value, -, hnumeral, -⟩ := exists_numeral h
    exact ⟨value, hnumeral.ofText?⟩

end Scoresheet.Formula
