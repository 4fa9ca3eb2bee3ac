import Scoresheet.Proofs.Json.Standing

/-!
# The texts of a value

A value has many texts. They differ in the blanks between their lexemes and in how numbers, strings
and keys are written, and whatever is said of all texts holds of the compact one and of the indented
one, which are the two that are ever written here.

* `Value.LaidOut` — the texts of a value, by the texts of scalars and of keys.
* `Value.Written` — those whose lexemes are the ones that are written here.
* `Value.Spelled` — all texts that may be read.
* `Value.WrittenAs` — the texts of one value are texts of another.
* `Value.written_compact`, `Value.written_pretty` — the two texts that are ever written.

The members of an object come in the order in which the value has them. That another order may stand
for the same is no matter of texts, but of values (`Value.Reordered`).
-/

namespace Scoresheet.Json

/-! ### Texts -/

/-- The blanks that may stand between lexemes. -/
def Blanks (gap : List Char) : Prop :=
  ∀ c ∈ gap, Cursor.isSpace c = true

/-- What stands before an item or a member: blanks, and among them a comma before each but the
first. -/
inductive Separates : Bool → List Char → Prop
  | first {gap : List Char} (hgap : Blanks gap) : Separates true gap
  | later {before gap : List Char} (hbefore : Blanks before) (hgap : Blanks gap) :
    Separates false (before ++ ',' :: gap)

/-- The texts of the items of an array up to its bracket, by the texts of values. -/
inductive ItemsWritten (R : Value → List Char → Prop) : Bool → List Value → List Char → Prop
  | nil (first : Bool) {gap : List Char} (hgap : Blanks gap) :
    ItemsWritten R first [] (gap ++ [']'])
  | cons {first : Bool} {sep text tail : List Char} {v : Value} {rest : List Value}
    (hsep : Separates first sep) (hv : R v text) (hrest : ItemsWritten R false rest tail) :
    ItemsWritten R first (v :: rest) (sep ++ text ++ tail)

/-- The texts of the members of an object up to its brace, by the texts of keys and of values. -/
inductive MembersWritten (K : String → List Char → Prop) (R : Value → List Char → Prop) :
    Bool → List (String × Value) → List Char → Prop
  | nil (first : Bool) {gap : List Char} (hgap : Blanks gap) :
    MembersWritten K R first [] (gap ++ ['\x7d'])
  | cons {key : String} {first : Bool} {sep name gap gap' text tail : List Char} {v : Value}
    {rest : List (String × Value)} (hsep : Separates first sep) (hkey : K key name)
    (hgap : Blanks gap) (hgap' : Blanks gap') (hv : R v text)
    (hrest : MembersWritten K R false rest tail) :
    MembersWritten K R first ((key, v) :: rest) (sep ++ name ++ gap ++ ':' :: gap' ++ text ++ tail)

/-- **The texts of a value,** with blanks between the lexemes, by the texts of scalars and of
keys. -/
inductive Value.LaidOut (S : Value → List Char → Prop) (K : String → List Char → Prop) :
    Value → List Char → Prop
  | scalar {v : Value} {text : List Char} (h : S v text) : LaidOut S K v text
  | array {items : List Value} {text : List Char} (h : ItemsWritten (LaidOut S K) true items text) :
    LaidOut S K (.array items) ('[' :: text)
  | object {members : List (String × Value)} {text : List Char}
    (h : MembersWritten K (LaidOut S K) true members text) :
    LaidOut S K (.object members) ('{' :: text)

/-- The texts of scalars that are written here. -/
inductive ScalarText : Value → List Char → Prop
  | null : ScalarText .null ['n', 'u', 'l', 'l']
  | bool (b : Bool) : ScalarText (.bool b) (boolText b)
  | int (n : ℤ) : ScalarText (.int n) (intText n)
  | float (x : Float) : ScalarText (.float x) (floatText x)
  | string (s : String) : ScalarText (.string s) (stringText s)

/-- The text of a key that is written here. -/
def KeyText (key : String) (text : List Char) : Prop :=
  text = stringText key

/-- **The texts of a value** whose lexemes are those that are written here. -/
def Value.Written : Value → List Char → Prop :=
  LaidOut ScalarText KeyText

/-- **The texts of a number:** the numerals that denote it, with a minus sign or without. -/
def NumberWritten (v : Value) (text : List Char) : Prop :=
  ∃ (negative : Bool) (n : Numeral), n.WellFormed ∧
    text = signChars negative ++ n.chars ∧ (n.node negative 0).toValue = .ok v

/-- **The texts of scalars** that may be read. -/
inductive ScalarWritten : Value → List Char → Prop
  | null : ScalarWritten .null ['n', 'u', 'l', 'l']
  | bool (b : Bool) : ScalarWritten (.bool b) (boolText b)
  | number {v : Value} {text : List Char} (h : NumberWritten v text) : ScalarWritten v text
  | string {s : String} {text : List Char} (h : StringWritten s text) :
    ScalarWritten (.string s) text

/-- **All texts of a value:** numbers, strings and keys may be written in any way, and blanks may
stand between lexemes. -/
def Value.Spelled : Value → List Char → Prop :=
  LaidOut ScalarWritten StringWritten

theorem blanks_nil : Blanks [] := fun _ h => nomatch h

theorem blanks_newLine (level : ℕ) : Blanks (newLine level) := by
  intro c hc
  obtain rfl | hc := List.mem_cons.1 hc
  · rfl
  · rw [List.eq_of_mem_replicate hc]
    rfl

/-- The texts of items are those of others, if each item's are. -/
theorem ItemsWritten.rel {R S : Value → List Char → Prop} {first : Bool} {items items' : List Value}
    {text : List Char} (h : ItemsWritten R first items text)
    (hRS : List.Forall₂ (fun v w => ∀ text, R v text → S w text) items items') :
    ItemsWritten S first items' text := by
  induction h generalizing items' with
  | nil first hgap =>
    cases hRS
    exact .nil first hgap
  | cons hsep hv _ ih =>
    cases hRS with
    | cons hhead htail => exact .cons hsep (hhead _ hv) (ih htail)

theorem ItemsWritten.mono {R S : Value → List Char → Prop} {first : Bool} {items : List Value}
    {text : List Char} (h : ItemsWritten R first items text)
    (hRS : ∀ v ∈ items, ∀ text, R v text → S v text) : ItemsWritten S first items text :=
  h.rel (List.forall₂_same.2 hRS)

/-- The same of members, whose keys stay. -/
theorem MembersWritten.rel {K L : String → List Char → Prop} {R S : Value → List Char → Prop}
    {first : Bool} {members members' : List (String × Value)} {text : List Char}
    (h : MembersWritten K R first members text) (hKL : ∀ key name, K key name → L key name)
    (hRS : List.Forall₂ (fun m n => m.1 = n.1 ∧ ∀ text, R m.2 text → S n.2 text) members members') :
    MembersWritten L S first members' text := by
  -- By induction on the text: the members on the other side have the same names, one by one.
  induction h generalizing members' with
  | nil first hgap =>
    cases hRS
    exact .nil first hgap
  | cons hsep hkey hgap hgap' hv _ ih =>
    cases hRS with
    | @cons _ member _ _ hhead htail =>
      obtain ⟨key, w⟩ := member
      obtain ⟨rfl, hvalue⟩ := hhead
      exact .cons hsep (hKL _ _ hkey) hgap hgap' (hvalue _ hv) (ih htail)

theorem MembersWritten.mono {K L : String → List Char → Prop} {R S : Value → List Char → Prop}
    {first : Bool} {members : List (String × Value)} {text : List Char}
    (h : MembersWritten K R first members text) (hKL : ∀ key name, K key name → L key name)
    (hRS : ∀ member ∈ members, ∀ text, R member.2 text → S member.2 text) :
    MembersWritten L S first members text :=
  h.rel hKL (List.forall₂_same.2 fun member hmember => ⟨rfl, hRS member hmember⟩)

theorem Value.LaidOut.mono {S S' : Value → List Char → Prop} {K K' : String → List Char → Prop}
    {v : Value} {text : List Char} (h : v.LaidOut S K text) (hS : ∀ v text, S v text → S' v text)
    (hK : ∀ key name, K key name → K' key name) : v.LaidOut S' K' text := by
  -- By induction on the value; at a scalar the two relations meet.
  induction v using Value.induction generalizing text with
  | null | bool | int | float | string =>
    cases h with
    | scalar h => exact .scalar (hS _ _ h)
  | array items ih =>
    cases h with
    | scalar h => exact .scalar (hS _ _ h)
    | array h => exact .array (h.mono fun v hmem _ => ih v hmem)
  | object members ih =>
    cases h with
    | scalar h => exact .scalar (hS _ _ h)
    | object h => exact .object (h.mono hK fun member hmem _ => ih member hmem)

/-- A scalar that can be stored is written as one of its texts. -/
theorem ScalarText.written {v : Value} {text : List Char} (h : ScalarText v text)
    (hv : v.Storable) : ScalarWritten v text := by
  -- By the kind of the scalar: integers have 64 bits and floats are finite, which is what the
  -- numerals are for.
  cases h with
  | null => exact .null
  | bool b => exact .bool b
  | int n =>
    obtain ⟨hlow, hhigh⟩ := Value.storable_int.1 hv
    obtain ⟨negative, m, hm, hchars, hnode⟩ := exists_numeral_intText hlow hhigh
    exact .number ⟨negative, m, hm, hchars, by rw [hnode]; rfl⟩
  | float x =>
    obtain ⟨negative, n, hn, hchars, hnode⟩ := exists_numeral_floatText (Value.storable_float.1 hv)
    exact .number ⟨negative, n, hn, hchars, by rw [hnode]; rfl⟩
  | string s => exact .string (stringWritten_stringText s)

/-- Of a value that can be stored the scalars are written as one of their texts. -/
theorem Value.Written.of_storable {v : Value} {text : List Char} (h : v.Written text)
    (hv : v.Storable) : v.LaidOut ScalarWritten KeyText text := by
  -- By induction on the value, whose parts can be stored as well.
  induction v using Value.induction generalizing text with
  | null | bool | int | float | string =>
    cases h with
    | scalar h => exact .scalar (h.written hv)
  | array items ih =>
    cases h with
    | scalar h => cases h
    | array h =>
      exact .array (h.mono fun v hmem text htext =>
        ih v hmem htext (Value.storable_array.1 hv v hmem))
  | object members ih =>
    cases h with
    | scalar h => cases h
    | object h =>
      exact .object (h.mono (fun _ _ => id) fun member hmem text htext =>
        ih member hmem htext ((Value.storable_object.1 hv).2 member hmem))

/-- **What is written here** is one of all texts. -/
theorem Value.Written.spelled {v : Value} {text : List Char} (h : v.Written text)
    (hv : v.Storable) : v.Spelled text := by
  refine (h.of_storable hv).mono (fun _ _ => id) ?_
  rintro key _ rfl
  exact stringWritten_stringText key

/-! ### Values that are written as others -/

/-- **A value is written as another,** if all its texts are texts of that one. A float that is not
finite is written as `null`, so that a text need not tell the value. -/
def Value.WrittenAs (v w : Value) : Prop :=
  ∀ text, v.Written text → w.Written text

namespace Value.WrittenAs

theorem refl (v : Value) : v.WrittenAs v := fun _ h => h

theorem null_of_not_isFinite {x : Float} (h : x.isFinite = false) :
    (Value.float x).WrittenAs .null := by
  intro text htext
  cases htext with
  | scalar hscalar =>
    cases hscalar with
    | float =>
      rw [floatText, h]
      exact .scalar .null

theorem array {items items' : List Value} (h : List.Forall₂ WrittenAs items items') :
    (Value.array items).WrittenAs (.array items') := by
  intro text htext
  cases htext with
  | scalar hscalar => cases hscalar
  | array hitems => exact .array (hitems.rel h)

theorem object {members members' : List (String × Value)}
    (h : List.Forall₂ (fun m n => m.1 = n.1 ∧ m.2.WrittenAs n.2) members members') :
    (Value.object members).WrittenAs (.object members') := by
  intro text htext
  cases htext with
  | scalar hscalar => cases hscalar
  | object hmembers => exact .object (hmembers.rel (fun _ _ => id) h)

end Value.WrittenAs

/-! ### The two texts that are written -/

/-- A comma before each item but the first, and blanks. -/
theorem separates_of_blanks (first : Bool) {gap : List Char} (h : Blanks gap) :
    Separates first ((if first then [] else [',']) ++ gap) := by
  cases first with
  | true => exact .first h
  | false => exact .later blanks_nil h

theorem itemsWritten_pretty {R : Value → List Char → Prop} {items : List Value} {level : ℕ}
    (h : ∀ v ∈ items, R v (prettyChars (level + 1) v)) (first : Bool) :
    ItemsWritten R first items (prettyItems level first items) := by
  induction items generalizing first with
  | nil =>
    cases first with
    | true => exact .nil true blanks_nil
    | false => exact .nil false (blanks_newLine level)
  | cons v rest ih =>
    -- Every item but the first has a comma in front, and each stands on a line of its own.
    obtain ⟨hhead, htail⟩ := List.forall_mem_cons.1 h
    exact .cons (separates_of_blanks first (blanks_newLine _)) hhead (ih htail false)

theorem membersWritten_pretty {R : Value → List Char → Prop} {members : List (String × Value)}
    {level : ℕ} (h : ∀ member ∈ members, R member.2 (prettyChars (level + 1) member.2))
    (first : Bool) :
    MembersWritten KeyText R first members (prettyMembers level first members) := by
  -- By induction on the members. Every one of them stands on a line of its own.
  induction members generalizing first with
  | nil =>
    cases first with
    | true => exact .nil true blanks_nil
    | false => exact .nil false (blanks_newLine level)
  | cons member rest ih =>
    obtain ⟨key, v⟩ := member
    obtain ⟨hhead, htail⟩ := List.forall_mem_cons.1 h
    -- The line is blank in front of the name, and there is one space behind the colon.
    have hblank : Blanks [' '] := List.forall_mem_singleton.2 rfl
    have hkey : KeyText key (stringText key) := rfl
    have hwritten := MembersWritten.cons (separates_of_blanks first (blanks_newLine (level + 1)))
      hkey blanks_nil hblank hhead (ih htail false)
    simpa [prettyMembers] using hwritten

theorem written_prettyChars (v : Value) (level : ℕ) : v.Written (prettyChars level v) := by
  induction v using Value.induction generalizing level with
  | null => exact .scalar .null
  | bool b => exact .scalar (.bool b)
  | int n => exact .scalar (.int n)
  | float x => exact .scalar (.float x)
  | string s => exact .scalar (.string s)
  | array items ih => exact .array (itemsWritten_pretty (fun v hv => ih v hv (level + 1)) true)
  | object members ih =>
    exact .object (membersWritten_pretty (fun member hmember => ih member hmember (level + 1)) true)

theorem itemsWritten_compact {R : Value → List Char → Prop} {items : List Value}
    (h : ∀ v ∈ items, R v (compactChars v)) (first : Bool) :
    ItemsWritten R first items (compactItems first items) := by
  induction items generalizing first with
  | nil => exact .nil first blanks_nil
  | cons v rest ih =>
    obtain ⟨hhead, htail⟩ := List.forall_mem_cons.1 h
    have hwritten := ItemsWritten.cons (separates_of_blanks first blanks_nil) hhead (ih htail false)
    rwa [List.append_nil] at hwritten

theorem membersWritten_compact {R : Value → List Char → Prop} {members : List (String × Value)}
    (h : ∀ member ∈ members, R member.2 (compactChars member.2)) (first : Bool) :
    MembersWritten KeyText R first members (compactMembers first members) := by
  induction members generalizing first with
  | nil => exact .nil first blanks_nil
  | cons member rest ih =>
    obtain ⟨key, v⟩ := member
    obtain ⟨hhead, htail⟩ := List.forall_mem_cons.1 h
    have hkey : KeyText key (stringText key) := rfl
    -- Without blanks around it, a compact member stands where a written one may.
    have hwritten := MembersWritten.cons (separates_of_blanks first blanks_nil) hkey blanks_nil
      blanks_nil hhead (ih htail false)
    simpa [compactMembers] using hwritten

theorem written_compactChars (v : Value) : v.Written (compactChars v) := by
  induction v using Value.induction with
  | null => exact .scalar .null
  | bool b => exact .scalar (.bool b)
  | int n => exact .scalar (.int n)
  | float x => exact .scalar (.float x)
  | string s => exact .scalar (.string s)
  | array items ih => exact .array (itemsWritten_compact ih true)
  | object members ih => exact .object (membersWritten_compact ih true)

/-- **The indented text** is one of a value's texts. -/
theorem Value.written_pretty (v : Value) : v.Written v.pretty.toList := by
  rw [pretty, String.toList_ofList]
  exact written_prettyChars v 0

/-- **The text without blanks** is one of a value's texts. -/
theorem Value.written_compact (v : Value) : v.Written v.compact.toList := by
  rw [compact, String.toList_ofList]
  exact written_compactChars v

end Scoresheet.Json
