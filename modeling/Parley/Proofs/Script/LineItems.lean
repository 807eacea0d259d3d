import Parley.Proofs.Script.Accepted
import Parley.Proofs.Script.Reading
import Parley.Proofs.Script.Sections

/-!
# What lines are read to

Whatever a line holds, the item it is read to is made of parts of it: keys and conditions are
trimmed and stay on the line, and what is read as text begins like nothing else.
-/

namespace Parley

open Text (Trimmed trim breakOn? dropLast?)

/-! ### Parts of a line -/

namespace Script

/-- A trimmed part of a line. It may be empty. -/
structure Fragment (cs : List Char) : Prop where
  trimmed : Trimmed cs
  single : '\n' ∉ cs

/-- What is left of a line when it is trimmed is still a part of that line. -/
theorem fragment_trim {cs : List Char} (h : '\n' ∉ cs) : Fragment (trim cs) :=
  ⟨Text.trimmed_trim cs, Text.notMem_trim h⟩

/-- A part of a line with something in it. -/
structure Phrase (cs : List Char) : Prop extends Fragment cs where
  ne_nil : cs ≠ []

/-- A condition, which ends where its braces do. It may be empty. -/
structure Clause (cs : List Char) : Prop extends Fragment cs where
  unbraced : '\x7d' ∉ cs

theorem clause_nil : Clause [] :=
  ⟨⟨Text.trimmed_nil, List.not_mem_nil⟩, List.not_mem_nil⟩

end Script

open Script (Fragment Phrase Clause Prose)

/-! ### Lines -/

/-- A line as the comments leave it. -/
structure Line.Cleared (line : Line) : Prop where
  fragment : Fragment line.text
  not_comment : ¬ ['/', '/'] <+: line.text

theorem Line.notMem_of_mem_number (start stop : Nat) {texts : List (List Char)}
    (h : ∀ text ∈ texts, '\n' ∉ text) : ∀ line ∈ number start stop texts, '\n' ∉ line.text := by
  induction texts generalizing start stop with
  | nil => exact List.forall_mem_nil _
  | cons text texts ih =>
      obtain ⟨htext, htexts⟩ := List.forall_mem_cons.mp h
      exact List.forall_mem_cons.mpr ⟨htext, ih _ _ htexts⟩

theorem Line.notMem_of_mem_ofSource (source : List Char) :
    ∀ line ∈ ofSource source, '\n' ∉ line.text :=
  notMem_of_mem_number 1 0 fun _ ht => Text.notMem_of_mem_splitOn ht

namespace Comment

theorem fragment_of_text? {inside : Bool} {cs text : List Char} (h : '\n' ∉ cs)
    (htext : (cut inside (trim cs)).text? = some text) : Fragment text := by
  simp only [Remains.text?] at htext
  split at htext
  · contradiction
  · rw [← Option.some.inj htext]
    apply Script.fragment_trim
    intro hmem
    exact h ((Text.trim_isInfix cs).subset (kept_subset inside _ hmem))

/-- What is left when comments are taken out lies on its line. -/
theorem cleared_of_mem_clear (inside : Bool) {lines : List Line}
    (h : ∀ line ∈ lines, '\n' ∉ line.text) : ∀ line ∈ (clear inside lines).1, line.Cleared := by
  induction lines generalizing inside with
  | nil => exact List.forall_mem_nil _
  | cons first lines ih =>
      obtain ⟨hfirst, hlines⟩ := List.forall_mem_cons.mp h
      have hrest := ih (cut inside (trim first.text)).inside hlines
      simp only [clear]
      split
      · exact hrest
      · next text htext =>
          split
          · exact hrest
          · next hcomment =>
              rw [isLineComment_iff] at hcomment
              exact List.forall_mem_cons.mpr ⟨⟨fragment_of_text? hfirst htext, hcomment⟩, hrest⟩

end Comment

/-! ### Items -/

namespace Item

/-- A block of code as far as it was read. -/
structure BlockRead (condition : List Char) (body : List Line) : Prop where
  clause : Clause condition
  single : ∀ line ∈ body, '\n' ∉ line.text

/-- What the parts of an item are, whatever line they were read from. -/
def Read : Item → Prop
  | .header key => Fragment key
  | .speaker name rest => '\n' ∉ name ∧ Fragment rest
  | .redirect condition key => Clause condition ∧ Fragment key ∧
      (condition ≠ [] → ¬ ['\x7d', '=', '>', '\x7b'] <:+: key)
  | .code condition body => BlockRead condition body
  | .choice body => '\n' ∉ body
  | .text content => Phrase content ∧ Prose content
  | .blank | .flags _ | .openCode _ => True

/-- The same of what a single line is read to. -/
def Form.Read : Form → Prop
  | .item i => i.Read
  | .opensCode condition first => BlockRead condition first

theorem conditionOf_read {afterBrace : List Char} (h : '\n' ∉ afterBrace) :
    Clause (conditionOf afterBrace) := by
  have hsubset : afterBrace.takeWhile (fun c => c != '\x7d') ⊆ afterBrace :=
    (List.takeWhile_prefix _).subset
  refine ⟨Script.fragment_trim fun hmem => h (hsubset hmem), Text.notMem_trim fun hmem => ?_⟩
  have hall := List.all_eq_true.mp List.all_takeWhile _ hmem
  exact absurd hall (by decide)

theorem codeForm_read (place : Place) {condition rest : List Char}
    (hcondition : Clause condition) (h : '\n' ∉ rest) :
    (codeForm place condition rest).Read := by
  have hrest : '\n' ∉ trim rest := Text.notMem_trim h
  rw [codeForm]
  split
  · next body hbody =>
      rw [Text.eq_append_of_dropLast? hbody] at hrest
      refine ⟨hcondition, List.forall_mem_singleton.mpr ?_⟩
      exact fun hmem => hrest (List.mem_append_left _ hmem)
  · refine ⟨hcondition, ?_⟩
    split
    · exact List.forall_mem_nil _
    · exact List.forall_mem_singleton.mpr hrest

/-- Whatever a line that begins with a brace is read to, its parts lie on the line. -/
theorem braceForm_read (place : Place) {afterBrace : List Char} (h : '\n' ∉ afterBrace) :
    (braceForm place afterBrace).Read := by
  have hcondition := conditionOf_read h
  have hafter : ∀ {mark before after}, breakOn? mark afterBrace = some (before, after) →
      after <:+: afterBrace := by
    intro mark before after hbreak
    rw [Text.eq_append_of_breakOn? hbreak, ← List.append_assoc]
    exact (List.suffix_append _ after).isInfix
  rw [braceForm]
  split
  · next before rest hbreak =>
      exact codeForm_read place hcondition fun hmem => h ((hafter hbreak).subset hmem)
  · next hnone =>
      split
      · next before key hbreak =>
          refine ⟨hcondition, ?_, fun _ hblock => ?_⟩
          · exact Script.fragment_trim fun hmem => h ((hafter hbreak).subset hmem)
          · apply Text.not_infix_of_breakOn?_eq_none hnone
            exact hblock.trans ((Text.trim_isInfix key).trans (hafter hbreak))
      · trivial

/-- What is put into braces is no part of an element. -/
theorem isShown_of_codeForm {place : Place} {condition rest : List Char} {item : Item}
    (h : codeForm place condition rest = .item item) : item.isShown = false := by
  rw [codeForm] at h
  split at h
  · cases h
    rfl
  · cases h

/-- No line that begins with a brace is part of an element. -/
theorem isShown_of_braceForm {place : Place} {afterBrace : List Char} {item : Item}
    (h : braceForm place afterBrace = .item item) : item.isShown = false := by
  rw [braceForm] at h
  split at h
  · exact isShown_of_codeForm h
  · split at h <;> cases h <;> rfl

/-- A line that is read as text begins like nothing else. -/
theorem prose_of_formOf {place : Place} {line content : List Char}
    (hcomment : ¬ ['/', '/'] <+: line) (h : formOf place line = .item (.text content)) :
    content = line ∧ Prose line := by
  have hcode : ∀ condition rest, codeForm place condition rest ≠ .item (.text content) :=
    fun condition rest h => by cases isShown_of_codeForm h
  have hbrace : ∀ rest, braceForm place rest ≠ .item (.text content) :=
    fun rest h => by cases isShown_of_braceForm h
  constructor
  · unfold formOf at h
    split at h <;> try split at h
    all_goals simp_all
  · constructor
    · rintro ⟨rest, rfl⟩
      simp [formOf] at h
    · rintro ⟨rest, rfl⟩
      exact hbrace rest h
    · rintro ⟨rest, rfl⟩
      cases rest with
      | nil => simp [formOf] at h
      | cons c rest =>
          by_cases hc : c = '\x7b'
          · rw [hc] at h
            exact hcode [] rest h
          · simp [formOf, hc] at h
    · rintro ⟨rest, rfl⟩
      simp [formOf] at h
    · exact hcomment
    · rintro ⟨rest, rfl⟩ htag
      have hrest : [']', ':'] <:+: rest := by
        rw [List.singleton_append, Text.pair_infix_cons (by decide)] at htag
        exact htag
      cases hbreak : breakOn? [']', ':'] rest with
      | some parts => simp [formOf, hbreak] at h
      | none => exact Text.not_infix_of_breakOn?_eq_none hbreak hrest

/-- Whatever a line is read to, its parts lie on the line. -/
theorem formOf_read (place : Place) {line : Line} (h : line.Cleared) :
    (formOf place line.text).Read := by
  obtain ⟨origin, text⟩ := line
  have hfragment : Fragment text := h.fragment
  have htext : text ≠ [] → formOf place text = .item (.text text) → (Item.text text).Read :=
    fun hne hform => ⟨⟨hfragment, hne⟩, (prose_of_formOf h.not_comment hform).2⟩
  have hsingle : ∀ {rest}, rest <:+ text → '\n' ∉ rest := fun hrest hmem =>
    hfragment.single (hrest.subset hmem)
  change (formOf place text).Read
  unfold formOf
  split
  · trivial
  · exact Script.fragment_trim (hsingle (List.suffix_cons _ _))
  · exact braceForm_read place (hsingle (List.suffix_cons _ _))
  · exact codeForm_read place Script.clause_nil (hsingle ⟨['=', '>', '\x7b'], rfl⟩)
  · refine ⟨Script.clause_nil, ?_, fun hne => absurd rfl hne⟩
    exact Script.fragment_trim (hsingle ⟨['=', '>'], rfl⟩)
  · exact hsingle (List.suffix_cons _ _)
  · next rest =>
      split
      · next name after hbreak =>
          have hrest : '\n' ∉ rest := hsingle (List.suffix_cons _ _)
          have hparts := Text.eq_append_of_breakOn? hbreak
          constructor
          · exact fun hmem => hrest (hparts ▸ List.mem_append_left _ hmem)
          · apply Script.fragment_trim
            exact fun hmem =>
              hrest (hparts ▸ List.mem_append_right _ (List.mem_append_right _ hmem))
      · next hbreak => exact htext (List.cons_ne_nil _ _) (by simp [formOf, hbreak])
  · next hne _ _ _ _ _ _ =>
      refine htext hne ?_
      rw [formOf] <;> assumption

/-- A block that is still open may take one more line. -/
theorem BlockRead.push {condition : List Char} {body : List Line} (h : BlockRead condition body)
    {line : Line} (hline : line.Cleared) : BlockRead condition (body ++ [line]) :=
  ⟨h.clause, List.forall_mem_append.mpr
    ⟨h.single, List.forall_mem_singleton.mpr hline.fragment.single⟩⟩

/-- All items of a source have their parts from single lines, blocks in the making included. -/
theorem read_of_mem_gather (pending : Option Pending) {lines : List Line}
    (hp : ∀ p ∈ pending, BlockRead p.condition p.body) (h : ∀ line ∈ lines, line.Cleared) :
    ∀ i ∈ gather pending lines, i.item.Read := by
  -- By induction on the lines: whatever block is open, what it holds so far was read.
  induction lines generalizing pending with
  | nil =>
      cases pending with
      | none => exact List.forall_mem_nil _
      | some p => exact List.forall_mem_singleton.mpr trivial
  | cons line lines ih =>
      obtain ⟨hline, hlines⟩ := List.forall_mem_cons.mp h
      have hnone : ∀ p ∈ (none : Option Pending), BlockRead p.condition p.body := fun p hmem =>
        absurd hmem (Option.not_mem_none p)
      cases pending with
      | none =>
          have hform := formOf_read line.place hline
          rw [gather]
          cases hread : formOf line.place line.text with
          | item found =>
              rw [hread] at hform
              exact List.forall_mem_cons.mpr ⟨hform, ih none hnone hlines⟩
          | opensCode condition first =>
              rw [hread] at hform
              refine ih _ (fun p hmem => ?_) hlines
              rw [← Option.mem_some.mp hmem]
              exact hform
      | some p =>
          rw [gather]
          split
          · exact List.forall_mem_cons.mpr ⟨hp p rfl, ih none hnone hlines⟩
          · refine ih _ (fun q hmem => ?_) hlines
            rw [← Option.mem_some.mp hmem]
            exact (hp p rfl).push hline

end Item

end Parley
