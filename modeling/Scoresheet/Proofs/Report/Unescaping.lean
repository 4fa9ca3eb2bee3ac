import Scoresheet.Proofs.Basic
import Scoresheet.Proofs.Report.Escaping
import Scoresheet.Report.Page

/-!
# Escaped text read back

A reader of a page puts the characters back for which entities stand. What is written of a text is
then the text again, whatever the text holds: entities of its own, too, whose ampersands are written
as entities like all others. So the JSON at the foot of the report page is the report's.

* `Html.unescape` — a text with the characters in place of their entities.
* `Html.EscapedAs` — what a text in a page must be: a map of its characters, free of markup, with no
  ampersand but those of entities, and readable.
* `Html.escapedAs_escape` — what is written of a text is that.
* `Html.lastCode?`, `Page.lastCode?_html` — what a page shows in its last block of code, and that
  this is the JSON of the report.
* `Html.escape_read_back` — every text is read back as it was, and so is the JSON of every report.

The reader knows the five entities by heart. It is not told which texts the writer puts in, nor in
which order; an entity that was misspelt on either side would be one that is not read back.
-/

namespace Scoresheet

namespace Html

/-! ### Writing and reading one entity -/

/-- The entities. -/
def entityTexts : List String :=
  ["&amp;", "&lt;", "&gt;", "&quot;", "&#x27;"]

/-- What stands for a character in a page. -/
def standIn : Char → List Char
  | '&' => "&amp;".toList
  | '<' => "&lt;".toList
  | '>' => "&gt;".toList
  | '"' => "&quot;".toList
  | '\'' => "&#x27;".toList
  | c => [c]

/-- The characters of a text with those in place for which entities stand. An ampersand that starts
no entity stays. -/
def unescapeChars : List Char → List Char
  | '&' :: 'a' :: 'm' :: 'p' :: ';' :: rest => '&' :: unescapeChars rest
  | '&' :: 'l' :: 't' :: ';' :: rest => '<' :: unescapeChars rest
  | '&' :: 'g' :: 't' :: ';' :: rest => '>' :: unescapeChars rest
  | '&' :: 'q' :: 'u' :: 'o' :: 't' :: ';' :: rest => '"' :: unescapeChars rest
  | '&' :: '#' :: 'x' :: '2' :: '7' :: ';' :: rest => '\'' :: unescapeChars rest
  | c :: rest => c :: unescapeChars rest
  | [] => []

/-- **A text with the characters in place of their entities.** -/
def unescape (text : String) : String :=
  String.ofList (unescapeChars text.toList)

/-- A character that starts no entity is read as it is. -/
theorem unescapeChars_cons {c : Char} (plain : c ≠ '&') (rest : List Char) :
    unescapeChars (c :: rest) = c :: unescapeChars rest := by
  rw [unescapeChars.eq_def]
  split <;> simp_all

/-- What stands for a character is read as the character, whatever follows. -/
theorem unescapeChars_standIn (c : Char) (rest : List Char) :
    unescapeChars (standIn c ++ rest) = c :: unescapeChars rest := by
  unfold standIn
  split
  -- The five characters with an entity, in the order of the definition.
  · rfl
  · rfl
  · rfl
  · rfl
  · rfl
  · rename_i plain _ _ _ _
    exact unescapeChars_cons plain rest

/-- The writer's table holds what stands for each character. -/
theorem escapeChar_eq_standIn (c : Char) : escapeChar c = standIn c := by
  unfold standIn
  split
  · rfl
  · rfl
  · rfl
  · rfl
  · rfl
  · rename_i amp lt gt quot apos
    -- A character other than the five is not in the list of entities.
    have unlisted : entities.lookup c = none := by
      rw [lookup_eq_none_iff_not_mem]
      simpa [entities] using ⟨amp, lt, gt, quot, apos⟩
    rw [escapeChar, unlisted, Option.getD_none]

/-! ### The whole text -/

/-- **A text as it must be written in a page.** -/
structure EscapedAs (text written : String) : Prop where
  /-- Each character is written by itself, so that nothing is escaped twice. -/
  mapped : written.toList = text.toList.flatMap standIn
  /-- Nothing opens or closes a tag or an attribute's value. -/
  harmless : ∀ c ∈ ['<', '>', '"', '\''], c ∉ written.toList
  /-- Every ampersand starts an entity. -/
  ampersand : ∀ before after, written.toList = before ++ '&' :: after →
    ∃ entity ∈ entityTexts, entity.toList <+: '&' :: after
  /-- The text is read back. -/
  read : unescape written = text

/-- Of what stands for a character, nothing behind its start is an ampersand. -/
theorem ampersand_notMem_tail_standIn (c : Char) : '&' ∉ (standIn c).tail := by
  unfold standIn
  split <;> simp

/-- What stands for a character is an entity if it starts with an ampersand. -/
theorem exists_entity_of_standIn {c : Char} {rest : List Char} (starts : standIn c = '&' :: rest) :
    ∃ entity ∈ entityTexts, entity.toList = standIn c := by
  unfold standIn at starts ⊢
  split at starts
  · exact ⟨"&amp;", by simp [entityTexts], rfl⟩
  · exact ⟨"&lt;", by simp [entityTexts], rfl⟩
  · exact ⟨"&gt;", by simp [entityTexts], rfl⟩
  · exact ⟨"&quot;", by simp [entityTexts], rfl⟩
  · exact ⟨"&#x27;", by simp [entityTexts], rfl⟩
  · -- The ampersand itself has an entity.
    rename_i amp _ _ _ _
    exact absurd (List.cons.inj starts).1 amp

/-- Every ampersand that is written for a text starts an entity, of one of its characters. -/
theorem exists_entity_of_flatMap_standIn (text before after : List Char)
    (h : text.flatMap standIn = before ++ '&' :: after) :
    ∃ entity ∈ entityTexts, entity.toList <+: '&' :: after := by
  induction text generalizing before with
  | nil => simp at h
  | cons c rest ih =>
    rw [List.flatMap_cons, List.append_eq_append_iff] at h
    obtain ⟨between, -, later⟩ | ⟨within, split, tail⟩ := h
    · -- The ampersand is written for a later character.
      exact ih between later
    · cases within with
      | nil => exact ih [] tail.symm
      | cons d within =>
        obtain ⟨rfl, rfl⟩ := List.cons.inj tail
        -- It is written for this one, and then it is what is written first.
        have first : before = [] := by
          cases before with
          | nil => rfl
          | cons e before =>
            have behind : '&' ∈ (standIn c).tail := by simp [split]
            exact absurd behind (ampersand_notMem_tail_standIn c)
        subst first
        obtain ⟨entity, mem, same⟩ := exists_entity_of_standIn split
        refine ⟨entity, mem, rest.flatMap standIn, ?_⟩
        rw [same, split]
        rfl

/-- The map of the characters is undone, one character after the other. -/
theorem unescapeChars_flatMap_standIn (text : List Char) :
    unescapeChars (text.flatMap standIn) = text := by
  induction text with
  | nil => rfl
  | cons c rest ih => rw [List.flatMap_cons, unescapeChars_standIn, ih]

/-- **What is written of a text** is a map of its characters, free of markup and readable. -/
theorem escapedAs_escape (text : String) : EscapedAs text (escape text) := by
  -- The text is escaped character by character.
  have mapped : (escape text).toList = text.toList.flatMap standIn := by
    rw [escape, String.toList_ofList, escapeChars_eq_flatMap]
    exact List.flatMap_congr fun c _ => escapeChar_eq_standIn c
  refine ⟨mapped, ?harmless, ?ampersand, ?read⟩
  case harmless =>
    intro c dangerous mem
    have none : markupOf (escape text) = [] := markupOf_escape text
    have marked : isMarkup c = true := by simpa [isMarkup, or_assoc] using dangerous
    exact List.filter_eq_nil_iff.1 none c mem marked
  case ampersand =>
    intro before after split
    exact exists_entity_of_flatMap_standIn text.toList before after (mapped ▸ split)
  case read =>
    rw [unescape, mapped, unescapeChars_flatMap_standIn, String.ofList_toList]

/-! ### The last block of code -/

/-- The markup that starts a block of code. -/
def codeTags : List Char :=
  "<pre><code>".toList

/-- The characters that a page shows in its last block of code, up to the tag that follows. -/
def lastCodeChars? : List Char → Option (List Char)
  | [] => none
  | c :: rest =>
    (lastCodeChars? rest).or
      (if codeTags <+: c :: rest then
        some (((c :: rest).drop codeTags.length).takeWhile (· ≠ '<'))
      else none)

/-- **What a page shows in its last block of code,** as it is written. -/
def lastCode? (page : String) : Option String :=
  (lastCodeChars? page.toList).map String.ofList

/-- What stands before a block of code does not matter. -/
theorem lastCodeChars?_append {page shown : List Char} (h : lastCodeChars? page = some shown)
    (before : List Char) : lastCodeChars? (before ++ page) = some shown := by
  induction before with
  | nil => exact h
  | cons c before ih => rw [List.cons_append, lastCodeChars?, ih, Option.some_or]

/-- No block of code starts at a character that opens no tag. -/
theorem lastCodeChars?_cons {c : Char} (plain : c ≠ '<') (rest : List Char) :
    lastCodeChars? (c :: rest) = lastCodeChars? rest := by
  have elsewhere : ¬ codeTags <+: c :: rest := by
    rintro ⟨_, same⟩
    exact plain (List.cons.inj same).1.symm
  rw [lastCodeChars?, if_neg elsewhere, Option.or_none]

/-- No block of code starts in a text without tags. -/
theorem lastCodeChars?_plain {text : List Char} (plain : '<' ∉ text) (rest : List Char) :
    lastCodeChars? (text ++ rest) = lastCodeChars? rest := by
  induction text with
  | nil => rfl
  | cons c text ih =>
    obtain ⟨opens, later⟩ := not_or.1 (mt List.mem_cons.2 plain)
    rw [List.cons_append, lastCodeChars?_cons (Ne.symm opens), ih later]

/-- No block of code starts at a tag whose name starts with another letter. -/
theorem lastCodeChars?_tag {c : Char} {tag : List Char} (named : tag.head? = some c)
    (other : c ≠ 'p') (plain : '<' ∉ tag) (rest : List Char) :
    lastCodeChars? ('<' :: (tag ++ rest)) = lastCodeChars? rest := by
  obtain ⟨name, rfl⟩ := List.head?_eq_some_iff.1 named
  have elsewhere : ¬ codeTags <+: '<' :: (c :: name ++ rest) := by
    rintro ⟨_, same⟩
    exact other (List.cons.inj (List.cons.inj same).2).1.symm
  rw [lastCodeChars?, if_neg elsewhere, Option.or_none, lastCodeChars?_plain plain]

/-- Tags, each with the text that follows it. -/
def tagged (tags : List String) : List Char :=
  tags.flatMap fun tag => '<' :: tag.toList

/-- No block of code starts in tags with other names and texts without tags. -/
theorem lastCodeChars?_tagged {tags : List String}
    (other : ∀ tag ∈ tags, '<' ∉ tag.toList ∧ ∃ c, tag.toList.head? = some c ∧ c ≠ 'p') :
    lastCodeChars? (tagged tags) = none := by
  induction tags with
  | nil => rfl
  | cons tag tags ih =>
    -- No other tag opens the code, so it is passed over.
    obtain ⟨⟨plain, c, named, differs⟩, later⟩ := List.forall_mem_cons.1 other
    calc lastCodeChars? ('<' :: (tag.toList ++ tagged tags))
      _ = lastCodeChars? (tagged tags) := lastCodeChars?_tag named differs plain _
      _ = none := ih later

/-- A block of code with no other behind it is the last. -/
theorem lastCodeChars?_code {text rest : List Char} (plain : '<' ∉ text)
    (last : lastCodeChars? ('<' :: rest) = none) :
    lastCodeChars? (codeTags ++ (text ++ '<' :: rest)) = some text := by
  set behind := text ++ '<' :: rest
  have shown : ((codeTags ++ behind).drop codeTags.length).takeWhile (· ≠ '<') = text := by
    rw [List.drop_left]
    refine takeWhile_append_of_stop ?_ (by simp)
    intro c mem
    simpa using ne_of_mem_of_not_mem mem plain
  have later : lastCodeChars? ("pre>".toList ++ '<' :: ("code>".toList ++ behind)) = none :=
    calc lastCodeChars? ("pre>".toList ++ '<' :: ("code>".toList ++ behind))
      _ = lastCodeChars? ('<' :: ("code>".toList ++ behind)) := lastCodeChars?_plain (by simp) _
      -- The second tag of the markup itself starts no block.
      _ = lastCodeChars? behind := lastCodeChars?_tag rfl (by decide) (by simp) behind
      _ = lastCodeChars? ('<' :: rest) := lastCodeChars?_plain plain _
      _ = none := last
  have tags : codeTags ++ behind = '<' :: ("pre>".toList ++ '<' :: ("code>".toList ++ behind)) :=
    rfl
  have starts : codeTags <+: codeTags ++ behind := List.prefix_append ..
  rw [tags] at starts shown
  rw [tags, lastCodeChars?, later, Option.none_or, if_pos starts, shown]

end Html

/-! ### The report page -/

open Html

namespace Page

/-- The tags behind the JSON of a report. -/
def footTags : List String :=
  ["/code>", "/pre>\n", "/details>\n", "/section>\n",
    "script>\n\n" ++ String.join (script.map (· ++ "\n")), "/script>\n", "/body>\n", "/html>"]

/-- The script opens no tag. -/
theorem script_plain : ∀ line ∈ script, '<' ∉ line.toList := by
  simp [script]

/-- Behind the JSON of a report no block of code starts. -/
theorem lastCodeChars?_foot : lastCodeChars? (tagged footTags) = none := by
  apply lastCodeChars?_tagged
  simpa [footTags, String.toList_join] using script_plain

/-- The page of a report ends with its JSON in a block of code, and the foot. -/
theorem exists_toList_html (report : Report) :
    ∃ before, report.html.toList =
      before ++ (codeTags ++ ((escape report.toJson.pretty).toList ++ tagged footTags)) := by
  refine ⟨(Piece.renderAll (head report ++ dashboard report.statistics ++ results report)).toList
    ++ "<section class=\"raw-data\">\n<details>\n<summary>Raw JSON Data</summary>\n".toList, ?_⟩
  simp only [Report.html, pieces, rawData, block, Piece.renderAll, Piece.render, List.map_append,
    List.map_cons, List.map_nil, String.toList_join, List.flatMap_append, List.flatMap_cons,
    List.flatMap_nil, footTags, tagged, String.toList_append, List.append_assoc, List.append_nil]
  -- What is left differs in where the constant texts are cut.
  rfl

/-- **The last block of code on the page of a report shows its JSON,** escaped. -/
theorem lastCode?_html (report : Report) :
    lastCode? report.html = some (escape report.toJson.pretty) := by
  -- The escaped report holds no angle bracket, so that the code ends where its tag does.
  have plain : '<' ∉ (escape report.toJson.pretty).toList :=
    (escapedAs_escape report.toJson.pretty).harmless '<' List.mem_cons_self
  obtain ⟨before, page⟩ := exists_toList_html report
  have code : lastCodeChars?
      (codeTags ++ ((escape report.toJson.pretty).toList ++ tagged footTags)) =
        some (escape report.toJson.pretty).toList :=
    lastCodeChars?_code plain lastCodeChars?_foot
  rw [lastCode?, page, lastCodeChars?_append code before, Option.map_some, String.ofList_toList]

end Page

/-- **Escaped text is read back as it was.** Five replacements throughout a text are one map of its
characters; what they leave holds no markup, and every ampersand in it starts an entity; and the
characters in place of the entities give the text again. So the JSON at the foot of the page of a
report is read as the report's, to the character. -/
theorem Html.escape_read_back :
    (∀ text, EscapedAs text (escape text)) ∧
      ∀ report : Report, (lastCode? report.html).map unescape = some report.toJson.pretty := by
  refine ⟨escapedAs_escape, fun report => ?_⟩
  calc (lastCode? report.html).map unescape
    _ = some (unescape (escape report.toJson.pretty)) := by
      rw [Page.lastCode?_html, Option.map_some]
    _ = some report.toJson.pretty := congrArg some (escapedAs_escape report.toJson.pretty).read

/-- A text that looks like an entity is not one when it is written. -/
example : escape "&lt;" = "&amp;lt;" ∧ unescape "&amp;lt;" = "&lt;" := by decide +kernel

end Scoresheet
