import Scoresheet.Text.Emoji
import Scoresheet.Text.Width

/-!
# Columns of a text

How many columns a text takes in a terminal. Characters that are shown as one sign together take the
columns of that sign: letters that some scripts write as one, and emoji that combine. A text is gone
through from its end, since what stands behind a character says what it is a part of.

* `Behind` — what stands behind a character, as far as it matters.
* `step` — the columns that a character adds in front of the rest.
* `displayWidth` — the columns of a text.
-/

namespace Scoresheet.Text

/-- Letters that make one sign with another letter if a joiner stands between the two. -/
inductive JoiningLetter where
  | lamed
  | ya
  | tifinagh
  | orkhonI
deriving DecidableEq, Repr

/-- The rest of a sign whose beginning is still to come. -/
inductive Ending where
  /-- No sign, or one that is complete. -/
  | nothing
  /-- A line feed, which makes one line end with a carriage return. -/
  | lineFeed
  /-- An Arabic alef, which a lam in front of it takes in. -/
  | alef
  /-- A letter that joins another, and whether the joiner has come. -/
  | letter (letter : JoiningLetter) (joined : Bool)
  /-- A joined ya with the vowel in front of it. -/
  | vowelAndYa
  /-- A Tifinagh consonant with a visible joiner in front of it. -/
  | visiblyJoined
  /-- The second part of a Lisu tone. -/
  | lisuTone
  /-- A Khmer letter, which a coeng sign puts below another. -/
  | belowCoeng
  /-- The vowel e of Kirat Rai, alone or doubled. -/
  | kiratRaiE
  | kiratRaiAi
  /-- A picture, which may be joined to another. -/
  | picture
  /-- A tone of skin. -/
  | tone
  /-- The second letter of a flag, and a whole flag. -/
  | flagLetter
  | flag
  /-- A picture with a joiner in front of it. -/
  | joinedPicture
  /-- A keycap that is joined to a picture. -/
  | joinedKeycap
  /-- An odd number of letters of flags that are joined to a picture: the first one, or a later one,
  which counts for a flag of its own until another comes. -/
  | joinedLetter
  | joinedOdd
  /-- An even number of letters of flags that are joined to a picture. -/
  | joinedEven
  /-- The tags at the end of a flag that is joined to a picture: so many letters. -/
  | tagLetters (count : Nat)
  /-- The same with digits in front: so many. -/
  | tagDigits (count : Nat)
deriving DecidableEq, Repr

/-- A look that is asked for behind the character that is to have it. -/
inductive Selector where
  | text
  | picture
  /-- The width of two columns, for a quotation mark. -/
  | wide
deriving DecidableEq, Repr

/-- What stands behind a character, as far as it bears on the columns of the character. -/
structure Behind where
  ending : Ending := .nothing
  selector? : Option Selector := none
deriving DecidableEq, Repr

/-! ### Characters with a part in a sign -/

/-- The joiner that has no width. -/
def joiner : Char := Char.ofNat 0x200D

/-- The look that a variation selector asks for. -/
def Selector.ofChar? (c : Char) : Option Selector :=
  if c.toNat = 0xFE0E then some .text
  else if c.toNat = 0xFE0F then some .picture
  else if c.toNat = 0xFE01 then some .wide
  else none

/-- Quotation marks that may be as wide as an ideograph. -/
def isQuotationMark (c : Char) : Bool :=
  c = '‘' || c = '’' || c = '“' || c = '”'

/-- Whether a picture takes one column where text is asked for. Framed ideographs stay wide. -/
def hasNarrowLook (c : Char) : Bool :=
  isPicture c && hasBothLooks c && !(0x1F200 ≤ c.toNat && c.toNat ≤ 0x1F2FF)

/-- The property `Joining_Group` with the value `Alef`. -/
def alefRanges : List (Nat × Nat) :=
  [(0x622, 0x623), (0x625, 0x625), (0x627, 0x627), (0x671, 0x673), (0x675, 0x675), (0x773, 0x774),
   (0x870, 0x882)]

/-- The property `Joining_Group` with the value `Lam`. -/
def lamRanges : List (Nat × Nat) :=
  [(0x644, 0x644), (0x6B5, 0x6B8), (0x76A, 0x76A), (0x8A6, 0x8A6), (0x8C7, 0x8C7)]

/-- Format characters without a width that part Arabic letters. -/
def partingRanges : List (Nat × Nat) :=
  [(0x605, 0x605), (0x890, 0x891), (0x8E2, 0x8E2), (0x180E, 0x180E), (0x200C, 0x200D),
   (0x2066, 0x2069)]

/-- Whether a character without a width may stand between Arabic letters that are joined. -/
def isTransparent (c : Char) : Bool :=
  (isMark c || isFormat c) && charWidth c == 0 && !inRanges partingRanges c.toNat

/-- Khmer letters that are written below another letter after a coeng sign. -/
def coengRanges : List (Nat × Nat) :=
  [(0x1780, 0x1782), (0x1784, 0x1787), (0x1789, 0x178C), (0x178E, 0x1793), (0x1795, 0x1798),
   (0x179B, 0x179D), (0x17A0, 0x17A0), (0x17A2, 0x17A2), (0x17A7, 0x17A7), (0x17AB, 0x17AC),
   (0x17AF, 0x17AF)]

/-- Whether a character is a consonant of Tifinagh. -/
def isTifinagh (c : Char) : Bool :=
  0x2D31 ≤ c.toNat && c.toNat ≤ 0x2D65 || c.toNat = 0x2D6F

/-- Marks that are shown as nothing and part no letters of a sign. -/
def passedOverRanges : List (Nat × Nat) :=
  [(0x34F, 0x34F), (0x17B4, 0x17B5), (0x180B, 0x180D), (0x180F, 0x180F), (0x200D, 0x200D),
   (0xFE00, 0xFE0F), (0xE0100, 0xE01EF)]

/-- Whether a character is a tag for a letter. -/
def isTagLetter (c : Char) : Bool :=
  0xE0061 ≤ c.toNat && c.toNat ≤ 0xE007A

/-- Whether a character is a tag for a digit. -/
def isTagDigit (c : Char) : Bool :=
  0xE0030 ≤ c.toNat && c.toNat ≤ 0xE0039

/-! ### One step -/

namespace Ending

/-- The sign that a character ends. -/
def ofChar (c : Char) : Ending :=
  let code := c.toNat
  if c = '\n' then lineFeed
  else if inRanges alefRanges code then alef
  else if code = 0x5DC then letter .lamed false
  else if code = 0x1A10 then letter .ya false
  else if isTifinagh c then letter .tifinagh false
  else if code = 0x10C03 then letter .orkhonI false
  else if code = 0xA4FC || code = 0xA4FD then lisuTone
  else if inRanges coengRanges code then belowCoeng
  else if code = 0x16D67 then kiratRaiE
  else if code = 0x16D68 then kiratRaiAi
  else if isTone c then tone
  else if isFlagLetter c then flagLetter
  else if isPicture c then picture
  else nothing

/-- Whether the letters of a sign may have marks between them that are shown as nothing. -/
def passesOver : Ending → Bool
  | letter .. | vowelAndYa | visiblyJoined | lisuTone | belowCoeng => true
  | _ => false

/-- The same end of a sign with a joiner in front of it. -/
def join : Ending → Ending
  | letter l _ => letter l true
  | e => e

/-- Whether the sign is made of letters, which are joined across a look that is asked for. -/
def joinsLetters (e : Ending) : Bool :=
  e = alef || e.passesOver

/-- Whether the sign is a picture that is joined to the one in front. -/
def joinsPicture (e : Ending) : Bool :=
  e = joinedPicture || e = joinedKeycap

/-- Whether the sign goes on in front of a look that is asked for. -/
def spans (e : Ending) : Selector → Bool
  | .picture => e.joinsLetters || e.joinsPicture
  | .text | .wide => e.joinsLetters

/-- A character that goes on with the sign: the columns that it adds, and the sign from there on. A
sign that shrinks when it is completed adds a negative number. -/
def continued? (c : Char) : Ending → Option (Int × Ending)
  | alef =>
    if inRanges lamRanges c.toNat then some (0, nothing)
    else if isTransparent c then some (0, alef)
    else none
  | letter .lamed true => if c.toNat = 0x5D0 then some (0, nothing) else none
  | letter .ya true => if c.toNat = 0x1A17 then some (0, vowelAndYa) else none
  | vowelAndYa => if c.toNat = 0x1A15 then some (0, nothing) else none
  | letter .tifinagh joined =>
    if c.toNat = 0x2D7F then some (1, visiblyJoined)
    else if joined && isTifinagh c then some (0, nothing)
    else none
  | visiblyJoined => if isTifinagh c then some (-1, nothing) else none
  | letter .orkhonI true => if c.toNat = 0x10C32 then some (0, nothing) else none
  | lisuTone => if 0xA4F8 ≤ c.toNat ∧ c.toNat ≤ 0xA4FB then some (0, nothing) else none
  | belowCoeng => if c.toNat = 0x17D2 then some (-1, nothing) else none
  | kiratRaiE =>
    if c.toNat = 0x16D63 || c.toNat = 0x16D69 then some (0, nothing)
    else if c.toNat = 0x16D67 then some (0, kiratRaiAi)
    else if c.toNat = 0x16D68 then some (1, kiratRaiE)
    else none
  | kiratRaiAi => if c.toNat = 0x16D63 then some (0, nothing) else none
  | picture => if c = joiner then some (0, joinedPicture) else none
  | tone =>
    if takesTone c then some (0, picture)
    else if c = joiner then some (0, joinedPicture)
    else none
  | flagLetter => if isFlagLetter c then some (1, flag) else none
  | flag =>
    if isFlagLetter c then some (1, flag)
    else if c = joiner then some (0, joinedPicture)
    else none
  | joinedPicture =>
    if c.toNat = 0x20E3 then some (0, joinedKeycap)
    else if isFlagLetter c then some (1, joinedLetter)
    else if isTone c then some (0, tone)
    else if c.toNat = 0xE007F then some (0, tagLetters 0)
    else if isPicture c then some (0, picture)
    else none
  | joinedLetter => if isFlagLetter c then some (-1, joinedEven) else none
  | joinedOdd =>
    if isFlagLetter c then some (-1, joinedEven)
    else if c = joiner then some (0, joinedPicture)
    else none
  | joinedEven =>
    if isFlagLetter c then some (3, joinedOdd)
    else if c = joiner then some (0, joinedPicture)
    else none
  | tagLetters count =>
    if isTagLetter c && count < 6 then some (0, tagLetters (count + 1))
    else if isTagDigit c && count < 5 then some (0, tagDigits 1)
    else if c = '🏴' && 3 ≤ count then some (0, picture)
    else none
  | tagDigits count =>
    if isTagDigit c && count < 3 then some (0, tagDigits (count + 1))
    else if c = '🏴' && count = 3 then some (0, picture)
    else none
  | _ => none

end Ending

namespace Behind

/-- The sign that a character without the look asked for may go on with. -/
def unselected (b : Behind) : Ending :=
  match b.selector? with
  | none => b.ending
  | some _ => if b.ending.joinsLetters then b.ending else .nothing

/-- A look asked for in front of what stands behind. One asked for before does not count. -/
def select (b : Behind) (selector : Selector) : Behind :=
  let ending := b.unselected
  ⟨if ending.spans selector then ending else .nothing, some selector⟩

end Behind

/-- A character in front of the end of a sign, no look being asked for. -/
def joinStep (c : Char) (ending : Ending) : Int × Behind :=
  if ending.passesOver && c = joiner then (0, ⟨ending.join, none⟩)
  else if ending.passesOver && inRanges passedOverRanges c.toNat then (0, ⟨ending, none⟩)
  else match ending.continued? c with
    | some (width, ending) => (width, ⟨ending, none⟩)
    | none => (charWidth c, ⟨.ofChar c, none⟩)

/-- **The columns that a character adds in front of the rest,** and what the next one has behind
it. -/
def step (c : Char) (b : Behind) : Int × Behind :=
  if b.selector? = some .picture && hasBothLooks c then
    (if b.ending.joinsPicture then 0 else 2, ⟨.picture, none⟩)
  else if c.toNat ≤ 0xA0 then
    if c = '\r' && b = ⟨.lineFeed, none⟩ then (0, {}) else (1, ⟨.ofChar c, none⟩)
  else
    match Selector.ofChar? c with
    | some selector => (0, b.select selector)
    | none =>
      if b.selector? = some .text && hasNarrowLook c then (1, {})
      else if b.selector? = some .wide && isQuotationMark c then (2, {})
      else joinStep c b.unselected

/-- **The columns of a text.** -/
def displayWidth (s : String) : Nat :=
  (s.toList.foldr (fun c (width, behind) =>
    let (more, behind) := step c behind
    (width + more, behind)) ((0 : Int), ({} : Behind))).1.toNat

end Scoresheet.Text
