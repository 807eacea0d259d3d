import Parley.Proofs.Script.Reading
import Parley.Proofs.Script.Statement

/-!
# The items of a written graph

Every line of a written graph reads as the item it was written for. A code block is the one part
of a graph whose lines make a single item.
-/

namespace Parley

open Text (trim allBlank joinWith Trimmed breakOn?)
open Script (Plain Word Prose)
open Item (gather formOf)

/-! ### Headers, flags and choices -/

theorem readAs_blank : ReadAs [[]] [.blank] :=
  .line ⟨Script.plain_nil, by simp [Text.trim, Text.trimStart, Text.trimEnd]⟩ rfl

/-- A line that begins with a sign and ends in a trimmed text is kept whole. -/
theorem readAs_framed {c : Char} (middle : List Char) {last : List Char} {item : Item}
    (hc : Text.isBlank c = false ∧ c ≠ '/') (hplain : Plain (c :: (middle ++ last)))
    (hne : last ≠ []) (htrim : Trimmed last)
    (hform : formOf Place.nowhere (c :: (middle ++ last)) = .item item) :
    ReadAs [c :: (middle ++ last)] [item] := by
  have hwhole : trim (c :: (middle ++ last)) = c :: (middle ++ last) :=
    Text.trim_eq_self (Trimmed.framed hc.1 middle hne htrim)
  refine .line ⟨hplain, ?_⟩ ?_
  · rw [hwhole, List.cons_prefix_cons]
    intro hslash
    exact hc.2 hslash.1.symm
  · rw [hwhole, hform]

namespace Choice

/-- What stands behind the star. -/
def body (c : Choice) : List Char :=
  ' ' :: (c.text.toList ++ ' ' :: '-' :: '>' :: ' ' :: c.key.toList)

/-- The item a choice is read to. -/
def item (c : Choice) : Item :=
  .choice c.body

/-- A choice that can be written is read back whole. -/
theorem readAs {c : Choice} (h : c.Writable) : ReadAs [c.line] [c.item] := by
  have hplain : Plain c.line := by
    simp [line, h.text.plain, h.key.plain]
  have hline : c.line = '*' :: ((' ' :: (c.text.toList ++ [' ', '-', '>', ' '])) ++
      c.key.toList) := by simp [line]
  rw [hline] at hplain ⊢
  apply readAs_framed _ (by decide) hplain h.key.ne_nil h.key.trimmed
  simp [formOf, item, body]

end Choice

namespace Dialogue

/-- A header is read to the name behind its mark. -/
theorem readAs_header {d : Dialogue} (h : Word d.name) :
    ReadAs [d.headerLine] [.header d.name.toList] := by
  have hplain : Plain d.headerLine := by
    simp [headerLine, h.plain]
  have hkey : trim (' ' :: d.name.toList) = d.name.toList := by
    rw [Text.trim_space_cons, Text.trim_eq_self h.trimmed]
  apply readAs_framed [' '] (by decide) hplain h.ne_nil h.trimmed
  change Item.Form.item (.header (trim (' ' :: d.name.toList))) = _
  rw [hkey]

/-- The item of a line of flags, none where there are no flags to write. -/
def flagItems (f : Flags) : List Item :=
  if f.names.isEmpty then []
  else [.flags (joinWith [','] (f.names.map String.toList) ++ ['\x7d'])]

theorem readAs_flags (f : Flags) : ReadAs (flagLines f) (flagItems f) := by
  obtain ⟨oneShot, random⟩ := f
  cases oneShot <;> cases random
  · exact .nil
  · exact .line ⟨by decide, by decide⟩ rfl
  · exact .line ⟨by decide, by decide⟩ rfl
  · exact .line ⟨by decide, by decide⟩ rfl

end Dialogue

/-! ### Elements -/

namespace Element

/-- A tag is read up to the first `]:`, and what follows it is the first line of the text. -/
theorem readAs_tag {name first : List Char} (hname : Plain name) (htag : ¬ [']', ':'] <:+: name)
    (hfirst : Plain first) (htrim : Trimmed first) :
    ReadAs ['[' :: (name ++ ']' :: ':' :: ' ' :: first)] [.speaker name first] := by
  have hplain : Plain ('[' :: (name ++ ']' :: ':' :: ' ' :: first)) := by
    simp [hname, hfirst]
  have hform : ∀ rest, trim rest = first →
      formOf Place.nowhere ('[' :: (name ++ ']' :: ':' :: rest)) = .item (.speaker name first) := by
    intro rest hrest
    simp only [formOf, Text.breakOn?_pair (by decide) htag, hrest]
  cases first with
  | nil =>
      -- Trimming takes the blank behind the tag away, so the line is not kept whole.
      have hwhole : trim ('[' :: (name ++ [']', ':', ' '])) = '[' :: (name ++ [']', ':']) := by
        rw [show '[' :: (name ++ [']', ':', ' ']) = '[' :: (name ++ [']', ':']) ++ [' '] by simp,
          Text.trim_append_space]
        exact Text.trim_eq_self (Trimmed.framed (by decide) name (by decide) (by decide))
      refine .line ⟨hplain, ?_⟩ ?_
      · rw [hwhole, List.cons_prefix_cons]
        intro hslash
        exact absurd hslash.1 (by decide)
      · rw [hwhole]
        exact hform [] rfl
  | cons c cs =>
      have hline : '[' :: (name ++ ']' :: ':' :: ' ' :: c :: cs) =
          '[' :: ((name ++ [']', ':', ' ']) ++ c :: cs) := by simp
      have hread := hform (' ' :: c :: cs) (by rw [Text.trim_space_cons, Text.trim_eq_self htrim])
      rw [hline] at hplain hread ⊢
      exact readAs_framed _ (by decide) hplain (List.cons_ne_nil c cs) htrim hread

/-- Prose is text and nothing else, wherever it stands. -/
theorem formOf_prose {line : List Char} (hne : line ≠ []) (h : Prose line) (place : Place) :
    formOf place line = .item (.text line) := by
  unfold formOf
  split
  · exact absurd rfl hne
  · exact absurd (List.prefix_append ['#'] _) h.not_header
  · exact absurd (List.prefix_append ['\x7b'] _) h.not_brace
  · exact absurd (List.prefix_append ['=', '>'] _) h.not_redirect
  · exact absurd (List.prefix_append ['=', '>'] _) h.not_redirect
  · exact absurd (List.prefix_append ['*'] _) h.not_choice
  · next rest =>
      have htag := h.not_speaker (List.prefix_append ['['] rest)
      rw [Text.breakOn?_eq_none fun hi => htag (List.infix_cons hi)]
  · rfl

theorem readAs_text {line : List Char} (hplain : Plain line) (htrim : Trimmed line)
    (hne : line ≠ []) (h : Prose line) : ReadAs [line] [.text line] := by
  have hwhole : trim line = line := Text.trim_eq_self htrim
  refine .line ⟨hplain, ?_⟩ ?_
  · rw [hwhole]
    exact h.not_comment
  · rw [hwhole]
    exact formOf_prose hne h _

variable {reg : Registry} {e : Element}

theorem plain_of_mem_textLines (h : e.Tellable reg) {line : List Char} (hl : line ∈ e.textLines) :
    Plain line :=
  ⟨Text.notMem_of_mem_splitOn hl, fun hi => h.uncommented (hi.trans (Text.infix_of_mem_splitOn hl))⟩

theorem restLines_of_text_eq_nil (htext : e.text = "") : e.firstLine = [] ∧ e.restLines = [] := by
  simp [firstLine, restLines, textLines, htext, Text.splitOn]

theorem trimmed_firstLine (h : e.Tellable reg) : Trimmed e.firstLine := by
  by_cases htext : e.text = ""
  · rw [(restLines_of_text_eq_nil htext).1]
    exact Text.trimmed_nil
  · exact (h.lines htext e.firstLine (by simp [textLines_eq])).2

/-- Only an element without text has a blank line. -/
theorem readAs_textLine (h : e.Tellable reg) {line : List Char} (hl : line ∈ e.textLines)
    (hblank : allBlank line = false ∨ line ∈ e.restLines) (hprose : Prose line) :
    ReadAs [line] [.text line] := by
  have htext : e.text ≠ "" := by
    intro htext
    obtain ⟨hfirst, hrest⟩ := restLines_of_text_eq_nil htext
    rw [textLines_eq, hfirst, hrest, List.mem_singleton] at hl
    simp [hl, hrest, allBlank] at hblank
  obtain ⟨hvisible, htrim⟩ := h.lines htext line hl
  have hne : line ≠ [] := by
    rintro rfl
    simp [allBlank] at hvisible
  exact readAs_text (plain_of_mem_textLines h hl) htrim hne hprose

/-- The item of the first line, which a tag stands in front of where it has to. -/
def openingItem (speaking : Bool) (e : Element) : Item :=
  match e.speaker with
  | some s => .speaker s.name.toList e.firstLine
  | none => if speaking || allBlank e.firstLine then .speaker [] e.firstLine else .text e.firstLine

/-- The first line of an element is read to a tag or to text, as the speaker in force has it. -/
theorem readAs_opening (h : e.Tellable reg) {speaking : Bool} (hopen : e.Opens reg speaking) :
    ReadAs [e.openingLine speaking] [e.openingItem speaking] := by
  have hmem : e.firstLine ∈ e.textLines := by simp [textLines_eq]
  have hplain := plain_of_mem_textLines h hmem
  have htrim := trimmed_firstLine h
  unfold openingLine openingItem tag
  cases hspeaker : e.speaker with
  | some s =>
      have hs := h.speaker s hspeaker
      simpa using readAs_tag hs.plain hs.tagged hplain htrim
  | none =>
      by_cases htag : (speaking || allBlank e.firstLine) = true
      · simp only [htag, if_true]
        exact readAs_tag Script.plain_nil (by decide) hplain htrim
      · have hprose := hopen hspeaker
        rw [if_neg htag] at hprose
        simp only [htag]
        rw [Bool.not_eq_true, Bool.or_eq_false_iff] at htag
        exact readAs_textLine h hmem (.inl htag.2) hprose

/-- The items of an element: its first line, the others, its choices, and a blank to close it. -/
def items (speaking : Bool) (e : Element) : List Item :=
  e.openingItem speaking :: e.restLines.map Item.text ++ e.choices.map Choice.item ++ [.blank]

/-- An element is read back whole where its first line opens it. -/
theorem readAs (h : e.Tellable reg) {speaking : Bool} (hopen : e.Opens reg speaking) :
    ReadAs (e.writtenLines speaking) (e.items speaking) := by
  have hrest : ReadAs e.restLines (e.restLines.map Item.text) := by
    have hmap : ReadAs (e.restLines.map id) (e.restLines.map Item.text) := .map fun line hl =>
      readAs_textLine h (by simp [textLines_eq, hl]) (.inr hl) (h.rest line hl)
    rwa [List.map_id] at hmap
  have hchoices : ReadAs (e.choices.map Choice.line) (e.choices.map Choice.item) :=
    .map fun c hc => Choice.readAs (h.choices c hc)
  exact ((readAs_opening h hopen).cons hrest).append hchoices |>.append readAs_blank

end Element

/-! ### Conditions in front of an arrow -/

namespace Script

/-- A condition that can stand between braces. -/
@[mk_iff]
structure IsCondition (condition : List Char) : Prop where
  trimmed : Trimmed condition
  plain : Plain condition
  unbraced : '\x7d' ∉ condition

instance (condition : List Char) : Decidable (IsCondition condition) :=
  decidable_of_iff' _ (isCondition_iff condition)

end Script

open Script (IsCondition)

namespace Item

theorem guardText_append (condition rest : List Char) :
    guardText (some condition) ++ rest = '\x7b' :: (condition ++ '\x7d' :: rest) := by
  simp [guardText]

/-- A condition between braces ends at the first brace that closes. -/
theorem conditionOf_braced {condition : List Char} (h : IsCondition condition)
    (rest : List Char) : conditionOf (condition ++ '\x7d' :: rest) = condition := by
  have hall : ∀ c ∈ condition, (c != '\x7d') = true := by
    intro c hc
    rw [bne_iff_ne]
    rintro rfl
    exact h.unbraced hc
  rw [conditionOf, List.takeWhile_append_of_pos hall, List.takeWhile_cons_of_neg (by decide),
    List.append_nil, Text.trim_eq_self h.trimmed]

variable {condition : Option (List Char)}

/-- A block with a condition opens like one without. -/
theorem formOf_guarded (h : ∀ c ∈ condition, IsCondition c) (place : Place) (rest : List Char) :
    formOf place (guardText condition ++ '=' :: '>' :: '\x7b' :: rest) =
      codeForm place (condition.getD []) rest := by
  cases condition with
  | none => rfl
  | some condition =>
      have hcondition := h condition rfl
      have hbreak := Text.breakOn?_at_first hcondition.unbraced ['=', '>', '\x7b'] rest
      rw [List.cons_append, List.cons_append, List.cons_append, List.cons_append,
        List.nil_append] at hbreak
      rw [guardText_append, formOf, braceForm, hbreak, conditionOf_braced hcondition]
      rfl

/-- A line that ends in a semicolon does not close a block. -/
theorem ended_ne_close (text : List Char) : text ++ [';'] ≠ ['\x7d'] := by
  intro heq
  have hsplit : text ++ [';'] = [] ++ ['\x7d'] := heq
  exact absurd (List.append_inj_right' hsplit rfl) (by decide)

/-- What stands in front of an arrow leaves the line trimmed and free of comments. -/
theorem guarded (h : ∀ c ∈ condition, IsCondition c) {last : List Char} (hne : last ≠ [])
    (htrim : Trimmed last) (hplain : Plain last) :
    Comment.Absent (guardText condition ++ '=' :: '>' :: last) ∧
      trim (guardText condition ++ '=' :: '>' :: last) =
        guardText condition ++ '=' :: '>' :: last := by
  obtain ⟨c, middle, hc, hline, hwhole⟩ : ∃ c middle, (Text.isBlank c = false ∧ c ≠ '/') ∧
      guardText condition ++ '=' :: '>' :: last = c :: (middle ++ last) ∧
      Plain (c :: (middle ++ last)) := by
    cases condition with
    | none => exact ⟨'=', ['>'], by decide, rfl, by simp [hplain]⟩
    | some condition =>
        refine ⟨'\x7b', condition ++ ['\x7d', '=', '>'], by decide, by simp [guardText], ?_⟩
        simp [(h condition rfl).plain, hplain]
  have hkept : trim (c :: (middle ++ last)) = c :: (middle ++ last) :=
    Text.trim_eq_self (Trimmed.framed hc.1 middle hne htrim)
  rw [hline]
  refine ⟨⟨hwhole, ?_⟩, hkept⟩
  rw [hkept, List.cons_prefix_cons]
  intro hslash
  exact hc.2 hslash.1.symm

end Item

/-! ### Exits -/

theorem Statement.trim_line {s : Statement} (h : s.Writable) : trim s.line = s.write ++ [';'] := by
  obtain ⟨c, middle, last, hwrite, hc, -, -⟩ := write_shape h.wellFormed
  have hwhole : Trimmed (c :: ((middle ++ last) ++ [';'])) :=
    Trimmed.framed (Lexer.isBlank_of_isNameChar hc) _ (by decide) (by decide)
  simp only [line, Text.trim_space_cons, hwrite, List.cons_append]
  exact Text.trim_eq_self hwhole

theorem Statement.absent_line {s : Statement} (h : s.Writable) : Comment.Absent s.line := by
  constructor
  · simp [line, write_plain h]
  · obtain ⟨c, middle, last, hwrite, hc, -, -⟩ := write_shape h.wellFormed
    rw [trim_line h, hwrite, List.cons_append, List.cons_prefix_cons]
    rintro ⟨rfl, -⟩
    exact absurd hc (by decide)

namespace Exit

/-- The item an exit is read to. -/
def item (e : Exit) : Item :=
  match e.target with
  | .key key => .redirect e.condition.toList key.toList
  | .code statements =>
      .code e.condition.toList (statements.map fun s => Line.bare (s.write ++ [';']))

variable {e : Exit}

theorem guard?_of_writable (h : e.Writable) :
    e.guard? = if e.condition.toList = [] then none else some e.condition.toList := by
  simp [guard?, Text.trim_eq_self h.trimmed]

/-- Nothing of the condition is lost where it is written. -/
theorem guard?_getD (h : e.Writable) : e.guard?.getD [] = e.condition.toList := by
  rw [guard?_of_writable h]
  split
  · next hempty => exact hempty.symm
  · rfl

theorem eq_of_mem_guard? (h : e.Writable) {c : List Char} (hc : c ∈ e.guard?) :
    c = e.condition.toList ∧ c ≠ [] := by
  rw [guard?_of_writable h, Option.mem_def] at hc
  split at hc
  · exact absurd hc (by simp)
  · next hne =>
      obtain rfl := Option.some.inj hc
      exact ⟨rfl, hne⟩

theorem isCondition_of_mem_guard? (h : e.Writable) : ∀ c ∈ e.guard?, IsCondition c := by
  intro c hc
  rw [(eq_of_mem_guard? h hc).1]
  exact ⟨h.trimmed, h.plain, h.unbraced⟩

theorem guarded (h : e.Writable) {last : List Char} (hne : last ≠ []) (htrim : Trimmed last)
    (hplain : Plain last) :
    Comment.Absent (Item.guardText e.guard? ++ '=' :: '>' :: last) ∧
      trim (Item.guardText e.guard? ++ '=' :: '>' :: last) =
        Item.guardText e.guard? ++ '=' :: '>' :: last :=
  Item.guarded (isCondition_of_mem_guard? h) hne htrim hplain

/-- A key must not look like the opening brace of a code block. -/
theorem formOf_redirect (h : e.Writable) {key : String} (hkey : Word key)
    (hbrace : ¬ ['\x7b'] <+: key.toList)
    (hblock : e.condition ≠ "" → ¬ ['\x7d', '=', '>', '\x7b'] <:+: key.toList) (place : Place) :
    formOf place (Item.guardText e.guard? ++ '=' :: '>' :: key.toList) =
      .item (.redirect e.condition.toList key.toList) := by
  have htrim : trim key.toList = key.toList := Text.trim_eq_self hkey.trimmed
  cases hguard : e.guard? with
  | none =>
      have hempty : e.condition.toList = [] := by rw [← guard?_getD h, hguard, Option.getD_none]
      rw [hempty, Item.guardText, List.nil_append, formOf, htrim]
      intro rest hrest
      exact hbrace ⟨rest, hrest.symm⟩
  | some c =>
      have hmem : c ∈ e.guard? := hguard
      obtain ⟨rfl, hne⟩ := eq_of_mem_guard? h hmem
      have hopen : ¬ ['\x7d', '=', '>', '\x7b'] <:+: '\x7d' :: '=' :: '>' :: key.toList := by
        have hkeyless := hblock fun hempty => hne (by rw [hempty]; rfl)
        rw [List.infix_cons_iff, List.infix_cons_iff, List.infix_cons_iff]
        simp [List.cons_prefix_cons, hbrace, hkeyless]
      have hcode := Text.breakOn?_skip h.unbraced ['=', '>', '\x7b']
        ('\x7d' :: '=' :: '>' :: key.toList)
      have harrow := Text.breakOn?_at_first h.unbraced ['=', '>'] key.toList
      rw [Text.breakOn?_eq_none hopen, Option.map_none] at hcode
      rw [List.cons_append, List.cons_append, List.cons_append, List.nil_append] at harrow
      rw [Item.guardText_append, formOf, Item.braceForm, hcode, harrow,
        Item.conditionOf_braced (isCondition_of_mem_guard? h _ hmem)]
      change Item.Form.item (.redirect e.condition.toList (trim key.toList)) = _
      rw [htrim]

/-- The first line of a block opens it with the condition in front. -/
theorem formOf_opening (h : e.Writable) (place : Place) :
    formOf place (Item.guardText e.guard? ++ ['=', '>', '\x7b']) =
      .opensCode e.condition.toList [] := by
  rw [Item.formOf_guarded (isCondition_of_mem_guard? h), guard?_getD h]
  rfl

/-- An exit to a key is read back as such. -/
theorem readAs_redirect (h : e.Writable) {key : String} (htarget : e.target = .key key) :
    ReadAs [Item.guardText e.guard? ++ '=' :: '>' :: key.toList]
      [.redirect e.condition.toList key.toList] := by
  have hkey := h.target
  rw [htarget] at hkey
  obtain ⟨hword, hbrace, hblock⟩ := hkey
  obtain ⟨habsent, hwhole⟩ := guarded h hword.ne_nil hword.trimmed hword.plain
  refine .line habsent ?_
  rw [hwhole]
  exact formOf_redirect h hword hbrace hblock _

/-- An exit with code is read back with its statements, one on each line. -/
theorem readAs_code (h : e.Writable) {statements : List Statement}
    (hs : ∀ s ∈ statements, s.Writable) :
    ReadAs
      ((Item.guardText e.guard? ++ ['=', '>', '\x7b']) ::
        statements.map Statement.line ++ [['\x7d']])
      [.code e.condition.toList (statements.map fun s => Line.bare (s.write ++ [';']))] := by
  have hopen : Comment.Absent (Item.guardText e.guard? ++ ['=', '>', '\x7b']) ∧ _ :=
    guarded h (List.cons_ne_nil '\x7b' []) (by decide) (by decide)
  have hbody : (statements.map Statement.line).map (fun line => Line.bare (trim line)) =
      statements.map fun s => Line.bare (s.write ++ [';']) := by
    rw [List.map_map]
    exact List.map_congr_left fun s hmem => by
      rw [Function.comp_apply, Statement.trim_line (hs s hmem)]
  rw [← hbody]
  refine ReadAs.code hopen.1 (by rw [hopen.2]; exact formOf_opening h _) ?_
  refine List.forall_mem_map.mpr fun s hmem => ⟨Statement.absent_line (hs s hmem), ?_⟩
  rw [Statement.trim_line (hs s hmem)]
  exact Item.ended_ne_close s.write

/-- An exit that can be written is read back whole. -/
theorem readAs (h : e.Writable) : ReadAs e.writtenLines [e.item] := by
  unfold writtenLines item
  cases htarget : e.target with
  | key key => exact readAs_redirect h htarget
  | code statements =>
      have hstatements := h.target
      rw [htarget] at hstatements
      exact readAs_code h hstatements

end Exit

/-! ### Dialogues -/

namespace Dialogue

/-- The items of elements one behind the other, where each is written as the speaker in force has
it. -/
def elementItems : (speaking : Bool) → List Element → List Item
  | _, [] => []
  | speaking, e :: es => e.items speaking ++ elementItems e.speaker.isSome es

theorem readAs_elements {reg : Registry} {es : List Element} (h : ∀ e ∈ es, e.Tellable reg)
    {speaking : Bool} (hopen : Element.OpensFrom reg speaking es) :
    ReadAs (elementLines speaking es) (elementItems speaking es) := by
  induction es generalizing speaking with
  | nil => exact .nil
  | cons e es ih =>
      exact (Element.readAs (h e List.mem_cons_self) hopen.1).append
        (ih (fun f hf => h f (List.mem_cons_of_mem _ hf)) hopen.2)

/-- The items between a header and the next one. -/
def items (d : Dialogue) : List Item :=
  flagItems d.flags ++ elementItems false d.elements ++ d.exits.map Exit.item ++ [.blank]

/-- A dialogue that can be told is read back whole, the blank line behind it included. -/
theorem readAs {reg : Registry} {d : Dialogue} (h : d.Tellable reg) :
    ReadAs (d.writtenLines ++ [[]]) (.header d.name.toList :: d.items) := by
  have hexits : ReadAs (d.exits.flatMap Exit.writtenLines) (d.exits.map Exit.item) := by
    rw [List.map_eq_flatMap]
    exact .flatMap fun e he => Exit.readAs (h.exits e he)
  have hall := ((((readAs_header h.name).append (readAs_flags d.flags)).append
    (readAs_elements h.elements h.openings)).append hexits).append readAs_blank
  simpa only [writtenLines, items, List.cons_append, List.nil_append] using hall

end Dialogue

end Parley
