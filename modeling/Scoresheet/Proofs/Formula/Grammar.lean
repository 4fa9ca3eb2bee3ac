import Scoresheet.Formula.Builtin
import Scoresheet.Proofs.Formula.Expr

/-!
# The grammar of formulas

A formula is a sum `E` of products `T` of factors `F`:

* `E ::= T | E ('+'|'-') T`
* `T ::= F | T ('*'|'/') F`
* `F ::= '-' F | Number | Identifier | '(' E ')' | Function '(' [E {',' E}] ')'`

The first two rules are one rule at two levels, and `Phrase` has one pair of constructors for them:
a chain of one operand, and a chain that an operator of the same level goes on with. A phrase is a
derivation, with the parentheses that its tree leaves out.

* `Phrase`, `Phrase.tokens`, `Phrase.tree` — the derivations, what they derive, and their trees.
* `Derivation` — the derivations of a given token sequence in which the calls fit their functions.
* `Phrase.eq_of_tokens_append` — the grammar is not ambiguous.

Not being ambiguous is proved for phrases with tokens behind them, since that is how a phrase stands
inside another one. A chain grows to the left, so comparing two chains operator by operator has to
start from the shorter one: `Grows` says how the longer one comes from it.
-/

namespace Scoresheet.Formula

/-- The two levels of operators between operands. -/
inductive Level where
  | sum
  | product
deriving Repr, DecidableEq

/-- The level of an operator between two operands. -/
def BinaryOperator.level : BinaryOperator → Level
  | add | sub => .sum
  | mul | div => .product

/-- The categories of phrases: the sums `E`, the products `T` and the factors `F`. -/
inductive Category where
  | chain (level : Level)
  | factor
deriving Repr, DecidableEq

/-- The category of the operands of a level: sums are of products, and products of factors. -/
def Level.operand : Level → Category
  | sum => .chain .product
  | product => .factor

/-- A derivation in the grammar. -/
inductive Phrase : Category → Type where
  | single {level : Level} (only : Phrase level.operand) : Phrase (.chain level)
  | extend {level : Level} (left : Phrase (.chain level)) (op : BinaryOperator)
      (right : Phrase level.operand) (here : op.level = level) : Phrase (.chain level)
  | number (value : Float) : Phrase .factor
  | identifier (name : String) : Phrase .factor
  | negation (operand : Phrase .factor) : Phrase .factor
  | group (content : Phrase (.chain .sum)) : Phrase .factor
  | call (name : String) (declared : Nat) (arguments : List (Phrase (.chain .sum))) : Phrase .factor

/-- What a call asks of the number of its arguments: a builtin has its arity, and for another name
the token's arity counts, unless it is zero. -/
def CallFits (name : String) (declared count : Nat) : Prop :=
  (∀ f, Builtin.ofName? name = some f → count = f.arity) ∧
    (Builtin.ofName? name = none → declared ≠ 0 → count = declared)

namespace Phrase

/-- Induction over a derivation, where a call may use the claim for each of its arguments. -/
@[elab_as_elim, induction_eliminator]
theorem induction {motive : ∀ c, Phrase c → Prop}
    (single : ∀ (level : Level) (only : Phrase level.operand), motive _ only →
      motive _ (.single only))
    (extend : ∀ (level : Level) (left : Phrase (.chain level)) (op : BinaryOperator)
      (right : Phrase level.operand) (here : op.level = level), motive _ left → motive _ right →
      motive _ (.extend left op right here))
    (number : ∀ value, motive _ (.number value))
    (identifier : ∀ name, motive _ (.identifier name))
    (negation : ∀ operand, motive _ operand → motive _ (.negation operand))
    (group : ∀ content, motive _ content → motive _ (.group content))
    (call : ∀ name declared arguments, (∀ a ∈ arguments, motive _ a) →
      motive _ (.call name declared arguments))
    {c : Category} (d : Phrase c) : motive c d :=
  -- The recursor's second motive is for the arguments of a call, which are a list of phrases.
  @Phrase.rec motive (fun arguments => ∀ a ∈ arguments, motive _ a) (@fun level => single level)
    (@fun level => extend level) number identifier negation group call
    (fun _ h => absurd h List.not_mem_nil)
    (fun _ _ hhead htail => List.forall_mem_cons.2 ⟨hhead, htail⟩) c d

mutual

/-- **The tokens that are derived.** The minus sign before a factor is the token of subtraction. -/
def tokens : {c : Category} → Phrase c → List Token
  | _, single only => only.tokens
  | _, extend left op right _ => left.tokens ++ .operator op.operator :: right.tokens
  | _, number value => [.number value]
  | _, identifier name => [.identifier name]
  | _, negation operand => .operator .sub :: operand.tokens
  | _, group content => .leftParen :: (content.tokens ++ [.rightParen])
  | _, call name declared arguments =>
    .function name declared :: .leftParen :: (argumentTokens arguments ++ [.rightParen])

/-- The tokens of arguments, with a comma between neighbours. -/
def argumentTokens : List (Phrase (.chain .sum)) → List Token
  | [] => []
  | a :: rest => a.tokens ++ furtherTokens rest

/-- The tokens of further arguments, with a comma before each. -/
def furtherTokens : List (Phrase (.chain .sum)) → List Token
  | [] => []
  | a :: rest => .comma :: (a.tokens ++ furtherTokens rest)

end

mutual

/-- **The syntax tree.** -/
def tree : {c : Category} → Phrase c → Expr
  | _, single only => only.tree
  | _, extend left op right _ => .binary op left.tree right.tree
  | _, number value => .number value
  | _, identifier name => .identifier name
  | _, negation operand => .negation operand.tree
  | _, group content => content.tree
  | _, call name _ arguments => .call name (trees arguments)

/-- The syntax trees of arguments. -/
def trees : List (Phrase (.chain .sum)) → List Expr
  | [] => []
  | a :: rest => a.tree :: trees rest

end

mutual

/-- Every call in the phrase fits. -/
def Fits : {c : Category} → Phrase c → Prop
  | _, single only => only.Fits
  | _, extend left _ right _ => left.Fits ∧ right.Fits
  | _, number _ => True
  | _, identifier _ => True
  | _, negation operand => operand.Fits
  | _, group content => content.Fits
  | _, call name declared arguments => CallFits name declared arguments.length ∧ AllFit arguments

/-- Every call in the arguments fits. -/
def AllFit : List (Phrase (.chain .sum)) → Prop
  | [] => True
  | a :: rest => a.Fits ∧ AllFit rest

end

end Phrase

/-- **A derivation of a token sequence** as a formula in which every call fits. -/
structure Derivation (tokens : List Token) where
  phrase : Phrase (.chain .sum)
  fits : phrase.Fits
  derives : phrase.tokens = tokens

namespace Phrase

theorem trees_eq_map (arguments : List (Phrase (.chain .sum))) :
    trees arguments = arguments.map tree := by
  induction arguments with
  | nil => rfl
  | cons a rest ih => rw [trees, ih, List.map_cons]

theorem allFit_iff {arguments : List (Phrase (.chain .sum))} :
    AllFit arguments ↔ ∀ a ∈ arguments, a.Fits := by
  induction arguments with
  | nil => simp [AllFit]
  | cons a rest ih => rw [AllFit, ih, List.forall_mem_cons]

theorem tree_call (name : String) (declared : Nat) (arguments : List (Phrase (.chain .sum))) :
    (call name declared arguments).tree = .call name (arguments.map tree) := by
  rw [tree, trees_eq_map]

/-- A phrase starts with a token, and not with a closing parenthesis. -/
theorem exists_tokens_eq_cons {c : Category} (d : Phrase c) :
    ∃ first rest, d.tokens = first :: rest ∧ first ≠ .rightParen := by
  induction d with
  | single level only ih => exact ih
  -- A chain begins as its left part does.
  | extend level left op right here ihl ihr =>
    obtain ⟨first, rest, htokens, hfirst⟩ := ihl
    exact ⟨first, _, by rw [tokens, htokens, List.cons_append], hfirst⟩
  | number value => exact ⟨_, _, rfl, by simp⟩
  | identifier name => exact ⟨_, _, rfl, by simp⟩
  | negation operand ih => exact ⟨_, _, rfl, by simp⟩
  | group content ih => exact ⟨_, _, rfl, by simp⟩
  | call name declared arguments ih => exact ⟨_, _, rfl, by simp⟩

end Phrase

/-! ### What may stand behind a phrase -/

/-- How tightly the operators of a level bind. -/
def Level.rank : Level → Nat
  | sum => 1
  | product => 2

theorem Level.rank_injective : Function.Injective Level.rank := by
  intro level level' h
  cases level <;> cases level' <;> first | rfl | exact absurd h (by decide)

/-- How tightly the operators that a phrase of the category ends before must bind not to go on with
it. -/
def Category.rank : Category → Nat
  | chain level => level.rank
  | factor => 3

@[simp] theorem Level.rank_operand (level : Level) : level.operand.rank = level.rank + 1 := by
  cases level <;> rfl

/-- No operator behind a phrase of the category goes on with it. -/
def Ends (c : Category) (rest : List Token) : Prop :=
  ∀ (op : BinaryOperator) (rest' : List Token), rest = .operator op.operator :: rest' →
    op.level.rank < c.rank

theorem Ends.mono {c c' : Category} {rest : List Token} (h : Ends c rest) (hc : c.rank ≤ c'.rank) :
    Ends c' rest :=
  fun op rest' hrest => Nat.lt_of_lt_of_le (h op rest' hrest) hc

theorem Ends.operand {level : Level} {rest : List Token} (h : Ends (.chain level) rest) :
    Ends level.operand rest := by
  refine h.mono ?_
  rw [Level.rank_operand]
  exact Nat.le_succ _

/-- What ends an operand of a level ends a chain, except for an operator of the level. -/
theorem Ends.of_operand {level : Level} {rest : List Token} (h : Ends level.operand rest)
    (hlevel : ∀ (op : BinaryOperator) (rest' : List Token),
      rest = .operator op.operator :: rest' → op.level ≠ level) : Ends (.chain level) rest := by
  intro op rest' hrest
  have hrank : op.level.rank < level.rank + 1 := by
    rw [← Level.rank_operand]
    exact h op rest' hrest
  have hne : op.level.rank ≠ level.rank :=
    fun heq => hlevel op rest' hrest (Level.rank_injective heq)
  exact Nat.lt_of_le_of_ne (Nat.le_of_lt_succ hrank) hne

/-- An operator of a level is behind an operand of the level, and does not go on with it. -/
theorem Ends.of_level {level : Level} {op : BinaryOperator} (h : op.level = level)
    (rest : List Token) : Ends level.operand (.operator op.operator :: rest) := by
  intro op' rest' hrest
  simp only [List.cons.injEq, Token.operator.injEq] at hrest
  rw [← BinaryOperator.operator_injective hrest.1, h, Level.rank_operand]
  exact Nat.lt_succ_self _

/-- Nothing goes on with a phrase where the next token is no operator. -/
theorem Ends.of_ne {c : Category} {token : Token} (h : ∀ o, token ≠ .operator o)
    (rest : List Token) : Ends c (token :: rest) :=
  fun op _ hrest => absurd (List.cons.inj hrest).1 (h op.operator)

theorem Ends.factor (rest : List Token) : Ends .factor rest :=
  fun op _ _ => by cases op <;> decide

theorem Ends.nil {c : Category} : Ends c [] :=
  fun _ _ hrest => absurd hrest.symm (List.cons_ne_nil _ _)

/-! ### No ambiguity -/

/-- What a phrase is begun with: a chain is begun with an operand, and a factor is all at once. -/
def Category.start : Category → Category
  | chain level => level.operand
  | factor => factor

theorem Ends.start {c : Category} {rest : List Token} (h : Ends c rest) : Ends c.start rest := by
  cases c with
  | chain level => exact h.operand
  | factor => exact h

namespace Phrase

/-- A phrase before some tokens grows to a phrase before fewer tokens: operators of its level are
taken from the tokens, each with the operand behind it. A factor does not grow. -/
inductive Grows : {c : Category} → Phrase c → List Token → Phrase c → List Token → Prop where
  | refl {c : Category} (d : Phrase c) (rest : List Token) : Grows d rest d rest
  | step {level : Level} {left : Phrase (.chain level)} {op : BinaryOperator}
      {right : Phrase level.operand} {here : op.level = level} {rest : List Token}
      {d : Phrase (.chain level)} {rest' : List Token}
      (later : Grows (.extend left op right here) rest d rest') :
      Grows left (.operator op.operator :: (right.tokens ++ rest)) d rest'

namespace Grows

theorem trans {c : Category} {d d' d'' : Phrase c} {rest rest' rest'' : List Token}
    (h : Grows d rest d' rest') (h' : Grows d' rest' d'' rest'') : Grows d rest d'' rest'' := by
  induction h with
  | refl d rest => exact h'
  | step later ih => exact .step (ih h')

/-- What grows has the same tokens, what stands behind it included. -/
theorem tokens_append {c : Category} {d d' : Phrase c} {rest rest' : List Token}
    (h : Grows d rest d' rest') : d.tokens ++ rest = d'.tokens ++ rest' := by
  induction h with
  | refl d rest => rfl
  | step later ih => rw [← ih, tokens, List.append_assoc, List.cons_append]

/-- A phrase grows over an operator of its level only, and such an operator ends what a phrase of
the category is begun with. -/
theorem ends {c : Category} {d d' : Phrase c} {rest rest' : List Token}
    (h : Grows d rest d' rest') (hrest' : Ends c.start rest') : Ends c.start rest := by
  cases h with
  | refl => exact hrest'
  | @step level left op right here => exact Ends.of_level here _

/-- A phrase that the next token does not go on with does not grow. -/
theorem eq_of_ends {c : Category} {d d' : Phrase c} {rest rest' : List Token}
    (h : Grows d rest d' rest') (hrest : Ends c rest) : d = d' ∧ rest = rest' := by
  cases h with
  | refl => exact ⟨rfl, rfl⟩
  | @step level left op right here =>
    have hrank : op.level.rank < level.rank := hrest op _ rfl
    rw [here] at hrank
    exact absurd hrank (Nat.lt_irrefl _)

/-- A chain grows from its first operand. -/
theorem exists_single {level : Level} (d : Phrase (.chain level)) (rest : List Token) :
    ∃ (only : Phrase level.operand) (rest₁ : List Token),
      d.tokens ++ rest = only.tokens ++ rest₁ ∧ Grows (.single only) rest₁ d rest := by
  match d with
  | .single only => exact ⟨only, rest, rfl, .refl _ _⟩
  | .extend left op right here =>
    obtain ⟨only, rest₁, htokens, hgrows⟩ :=
      exists_single left (.operator op.operator :: (right.tokens ++ rest))
    refine ⟨only, rest₁, ?_, hgrows.trans (.step (.refl (.extend left op right here) rest))⟩
    rw [← htokens, tokens, List.append_assoc, List.cons_append]

end Grows

/-- The phrase can be told from what stands behind it, given that nothing there goes on with it. -/
def Distinct {c : Category} (d : Phrase c) : Prop :=
  ∀ (d' : Phrase c) (rest rest' : List Token), Ends c rest → Ends c rest' →
    d.tokens ++ rest = d'.tokens ++ rest' → d = d' ∧ rest = rest'

private theorem eq_of_furtherTokens_append {arguments : List (Phrase (.chain .sum))}
    (h : ∀ a ∈ arguments, a.Distinct) {arguments' : List (Phrase (.chain .sum))}
    {rest rest' : List Token}
    (htokens : furtherTokens arguments ++ .rightParen :: rest
      = furtherTokens arguments' ++ .rightParen :: rest') :
    arguments = arguments' ∧ rest = rest' := by
  -- Behind an argument there is a comma or a closing parenthesis.
  have hends : ∀ (others : List (Phrase (.chain .sum))) (rest : List Token),
      Ends (.chain .sum) (furtherTokens others ++ .rightParen :: rest) := by
    intro others rest
    cases others with
    | nil => exact Ends.of_ne (by simp) _
    | cons a others => exact Ends.of_ne (by simp) _
  induction arguments generalizing arguments' with
  | nil =>
    cases arguments' with
    | nil => exact ⟨rfl, (List.cons.inj htokens).2⟩
    | cons a' others' => simp [furtherTokens] at htokens
  | cons a others ih =>
    cases arguments' with
    | nil => simp [furtherTokens] at htokens
    | cons a' others' =>
      obtain ⟨ha, hothers⟩ := List.forall_mem_cons.1 h
      simp only [furtherTokens, List.cons_append, List.append_assoc, List.cons.injEq,
        true_and] at htokens
      obtain ⟨rfl, hfurther⟩ := ha a' _ _ (hends others rest) (hends others' rest') htokens
      obtain ⟨rfl, hrest⟩ := ih hothers hfurther
      exact ⟨rfl, hrest⟩

private theorem eq_of_argumentTokens_append {arguments : List (Phrase (.chain .sum))}
    (h : ∀ a ∈ arguments, a.Distinct) {arguments' : List (Phrase (.chain .sum))}
    {rest rest' : List Token}
    (htokens : argumentTokens arguments ++ .rightParen :: rest
      = argumentTokens arguments' ++ .rightParen :: rest') :
    arguments = arguments' ∧ rest = rest' := by
  -- With a comma in front the first argument is like the others.
  have hfurther : ∀ (a : Phrase (.chain .sum)) (others : List (Phrase (.chain .sum))) (rest),
      furtherTokens (a :: others) ++ .rightParen :: rest
        = .comma :: (argumentTokens (a :: others) ++ .rightParen :: rest) := fun _ _ _ => rfl
  -- An argument does not start with the closing parenthesis.
  have hnil : ∀ (a : Phrase (.chain .sum)) (others : List (Phrase (.chain .sum))) (rest rest'),
      argumentTokens (a :: others) ++ .rightParen :: rest ≠ .rightParen :: rest' := by
    intro a others rest rest' heq
    obtain ⟨first, more, htokens, hfirst⟩ := a.exists_tokens_eq_cons
    rw [argumentTokens, htokens] at heq
    exact hfirst (List.cons.inj heq).1
  cases arguments with
  | nil =>
    cases arguments' with
    | nil => exact ⟨rfl, (List.cons.inj htokens).2⟩
    | cons a' others' => exact absurd htokens.symm (hnil a' others' rest' rest)
  | cons a others =>
    cases arguments' with
    | nil => exact absurd htokens (hnil a others rest rest')
    | cons a' others' =>
      refine eq_of_furtherTokens_append h ?_
      rw [hfurther, hfurther, htokens]

/-- The phrase grows to every phrase with the same tokens, what stands behind them included. What
stands behind the phrase itself need only end an operand, so that it may be the beginning of a
longer chain. -/
def Reaches {c : Category} (d : Phrase c) : Prop :=
  ∀ (d' : Phrase c) (rest rest' : List Token), Ends c.start rest → Ends c rest' →
    d.tokens ++ rest = d'.tokens ++ rest' → Grows d rest d' rest'

theorem Reaches.distinct {c : Category} {d : Phrase c} (h : d.Reaches) : d.Distinct :=
  fun d' rest rest' hrest hrest' htokens =>
    (h d' rest rest' hrest.start hrest' htokens).eq_of_ends hrest

theorem Reaches.single {level : Level} {only : Phrase level.operand} (h : only.Reaches) :
    (Phrase.single only).Reaches := by
  intro d' rest rest' hrest hrest' htokens
  -- Both chains have the same first operand, and the other one grows from it.
  obtain ⟨only', rest₁, htokens', hgrows⟩ := Grows.exists_single d' rest'
  rw [htokens'] at htokens
  obtain ⟨rfl, rfl⟩ := h.distinct only' _ _ hrest (hgrows.ends hrest'.start) htokens
  exact hgrows

theorem Reaches.extend {level : Level} {left : Phrase (.chain level)} {op : BinaryOperator}
    {right : Phrase level.operand} (here : op.level = level) (hleft : left.Reaches)
    (hright : right.Reaches) : (Phrase.extend left op right here).Reaches := by
  intro d' rest rest' hrest hrest' htokens
  rw [tokens, List.append_assoc, List.cons_append] at htokens
  have hgrows := hleft d' _ rest' (Ends.of_level here _) hrest' htokens
  generalize hbehind : Token.operator op.operator :: (right.tokens ++ rest) = behind at hgrows
  cases hgrows with
  | refl =>
    -- The other chain would end before an operator that goes on with it.
    have hrank := hrest' op _ hbehind.symm
    rw [here] at hrank
    exact absurd hrank (Nat.lt_irrefl _)
  | @step _ _ op' right' here' rest₁ _ _ later =>
    -- The other chain takes the operator as well, and then the operand behind it is the same.
    obtain ⟨hop, hright'⟩ := List.cons.inj hbehind
    obtain rfl := BinaryOperator.operator_injective (Token.operator.inj hop)
    obtain ⟨rfl, rfl⟩ := hright.distinct right' _ _ hrest (later.ends hrest'.start) hright'
    exact later

theorem Reaches.factor {d : Phrase .factor} (h : d.Distinct) : d.Reaches := by
  intro d' rest rest' hrest hrest' htokens
  obtain ⟨rfl, rfl⟩ := h d' rest rest' hrest hrest' htokens
  exact .refl _ _

theorem Distinct.negation {operand : Phrase .factor} (h : operand.Distinct) :
    (Phrase.negation operand).Distinct := by
  intro d' rest rest' hrest hrest' htokens
  cases d' with
  | negation operand' =>
    obtain ⟨rfl, hrests⟩ := h operand' _ _ hrest hrest' (List.cons.inj htokens).2
    exact ⟨rfl, hrests⟩
  | number | identifier | group | call => simp [tokens] at htokens

theorem Distinct.group {content : Phrase (.chain .sum)} (h : content.Distinct) :
    (Phrase.group content).Distinct := by
  intro d' rest rest' hrest hrest' htokens
  cases d' with
  | group content' =>
    simp only [tokens, List.cons_append, List.append_assoc, List.nil_append, List.cons.injEq,
      true_and] at htokens
    obtain ⟨rfl, hrests⟩ := h content' _ _ (Ends.of_ne (by simp) _) (Ends.of_ne (by simp) _) htokens
    exact ⟨rfl, (List.cons.inj hrests).2⟩
  | number | identifier | negation | call => simp [tokens] at htokens

theorem Distinct.call {name : String} {declared : Nat} {arguments : List (Phrase (.chain .sum))}
    (h : ∀ a ∈ arguments, a.Distinct) : (Phrase.call name declared arguments).Distinct := by
  intro d' rest rest' hrest hrest' htokens
  cases d' with
  | call name' declared' arguments' =>
    simp only [tokens, List.cons_append, List.append_assoc, List.nil_append, List.cons.injEq,
      Token.function.injEq, true_and] at htokens
    obtain ⟨⟨rfl, rfl⟩, htokens⟩ := htokens
    obtain ⟨rfl, hrests⟩ := eq_of_argumentTokens_append h htokens
    exact ⟨rfl, hrests⟩
  -- No other factor begins with a function.
  | number | identifier | negation | group => simp [tokens] at htokens

/-- Every phrase grows to every longer one with the same tokens. -/
theorem reaches {c : Category} (d : Phrase c) : d.Reaches := by
  induction d with
  | single level only ih => exact ih.single
  -- A chain may go on behind the phrase, so that what is reached is a prefix of the other chain.
  | extend level left op right here ihl ihr => exact ihl.extend here ihr
  | number value =>
    -- From here on the first token tells the constructor of the other phrase.
    refine Reaches.factor fun d' rest rest' hrest hrest' htokens => ?_
    cases d' with
    | number value' =>
      obtain ⟨hvalue, hrests⟩ := List.cons.inj htokens
      exact ⟨congrArg _ (Token.number.inj hvalue), hrests⟩
    | identifier | negation | group | call => simp [tokens] at htokens
  | identifier name =>
    refine Reaches.factor fun d' rest rest' hrest hrest' htokens => ?_
    cases d' with
    | identifier name' =>
      obtain ⟨hname, hrests⟩ := List.cons.inj htokens
      exact ⟨congrArg _ (Token.identifier.inj hname), hrests⟩
    | number | negation | group | call => simp [tokens] at htokens
  -- The operand starts behind the sign and the content behind the parenthesis in both phrases.
  | negation operand ih => exact Reaches.factor ih.distinct.negation
  | group content ih => exact Reaches.factor ih.distinct.group
  | call name declared arguments ih =>
    exact Reaches.factor (Distinct.call fun a ha => (ih a ha).distinct)

/-- **The grammar is not ambiguous,** also with tokens behind a phrase that do not go on with
it. -/
theorem eq_of_tokens_append {c : Category} (d : Phrase c) : d.Distinct :=
  d.reaches.distinct

end Phrase

/-- A token sequence has at most one derivation. -/
instance (tokens : List Token) : Subsingleton (Derivation tokens) where
  allEq := by
    intro ⟨phrase, fits, derives⟩ ⟨phrase', fits', derives'⟩
    have heq : phrase.tokens ++ [] = phrase'.tokens ++ [] := by rw [derives, derives']
    obtain ⟨rfl, -⟩ := phrase.eq_of_tokens_append phrase' [] [] Ends.nil Ends.nil heq
    rfl

end Scoresheet.Formula
