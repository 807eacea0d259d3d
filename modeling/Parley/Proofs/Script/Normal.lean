import Parley.Proofs.Script.RoundTrip
import Parley.Proofs.Script.WellFormed

/-!
# Normalising a script

Reading a script and writing it again leaves its graph as it is, unless the graph holds something
that only a source can say: the opening of a comment, left in a text when another comment was cut
out of it; a key that begins with a brace; a speaker whom the speaker's own name does not lead back
to; or a first line that looks like markup, from behind an empty tag that the writer leaves out.
-/

namespace Parley

open Script (Word Phrase)

/-! ### What a written graph can say -/

/-- The texts of an element as they are written. -/
def Element.strings (e : Element) : List String :=
  e.text :: e.choices.flatMap fun c => [c.text, c.key]

namespace Target

/-- The texts of a target as they are written. -/
def strings : Target → List String
  | .key word => [word]
  | .code statements => statements.flatMap Statement.args

/-- The key a target names. -/
def key? : Target → Option String
  | .key word => some word
  | .code _ => none

end Target

/-- The texts of an exit as they are written. -/
def Exit.strings (e : Exit) : List String :=
  e.condition :: e.target.strings

namespace Dialogue

/-- All texts of a dialogue that a comment could open in. -/
def strings (d : Dialogue) : List String :=
  d.name :: d.elements.flatMap Element.strings ++ d.exits.flatMap Exit.strings

/-- Nothing in the dialogue changes its meaning in the written form. -/
@[mk_iff]
structure Legible (reg : Registry) (d : Dialogue) : Prop where
  uncommented : ∀ s ∈ d.strings, ¬ ['/', '*'] <:+: s.toList
  speakers : ∀ e ∈ d.elements, ∀ s ∈ e.speaker, s.Writable reg
  openings : Element.OpensFrom reg false d.elements
  keys : ∀ e ∈ d.exits, ∀ key ∈ e.target.key?, ¬ ['\x7b'] <+: key.toList

instance (reg : Registry) (d : Dialogue) : Decidable (d.Legible reg) :=
  decidable_of_iff' _ (legible_iff reg d)

end Dialogue

/-! ### Well-formed and legible graphs -/

/-- A phrase that opens no comment can be written as it is. -/
theorem Script.Phrase.word {s : String} (h : Phrase s.toList)
    (huncommented : ¬ ['/', '*'] <:+: s.toList) : Word s :=
  ⟨h.ne_nil, h.trimmed, h.single, huncommented⟩

theorem Choice.WellFormed.writable {c : Choice} (h : c.WellFormed)
    (huncommented : ∀ s ∈ [c.text, c.key], ¬ ['/', '*'] <:+: s.toList) : c.Writable :=
  ⟨h.text.word (huncommented c.text (by simp)), h.key.word (huncommented c.key (by simp)),
    h.arrowless⟩

/-- An exit that was read can be written, unless a text opens a comment or a key opens a block. -/
theorem Exit.WellFormed.writable {e : Exit} (h : e.WellFormed)
    (huncommented : ∀ s ∈ e.strings, ¬ ['/', '*'] <:+: s.toList)
    (hkey : ∀ key ∈ e.target.key?, ¬ ['\x7b'] <+: key.toList) : e.Writable := by
  obtain ⟨condition, target⟩ := e
  have hcondition := huncommented condition List.mem_cons_self
  have htarget := h.target
  refine ⟨h.condition.trimmed, ⟨h.condition.single, hcondition⟩, h.condition.unbraced, ?_⟩
  have hrest : ∀ s ∈ target.strings, ¬ ['/', '*'] <:+: s.toList := fun s hs =>
    huncommented s (List.mem_cons_of_mem condition hs)
  cases target with
  | key word =>
      exact ⟨htarget.1.word (hrest word List.mem_cons_self), hkey word rfl, htarget.2⟩
  | code statements =>
      intro s hs
      apply (htarget s hs).writable
      intro arg harg
      exact hrest arg (List.mem_flatMap.mpr ⟨s, hs, harg⟩)

namespace Dialogue

variable {reg : Registry} {d : Dialogue}

theorem WellFormed.tellable_of_mem_elements (h : d.WellFormed) (hlegible : d.Legible reg)
    {e : Element} (he : e ∈ d.elements) : e.Tellable reg := by
  have hform := h.elements e he
  have hstrings : ∀ s ∈ e.strings, ¬ ['/', '*'] <:+: s.toList := by
    intro s hs
    apply hlegible.uncommented
    exact List.mem_append_left _
      (List.mem_cons_of_mem _ (List.mem_flatMap.mpr ⟨e, he, hs⟩))
  constructor
  · exact hlegible.speakers e he
  · exact hstrings e.text List.mem_cons_self
  · intro htext line hline
    have hphrase := hform.lines htext line hline
    exact ⟨Text.allBlank_of_trimmed hphrase.trimmed hphrase.ne_nil, hphrase.trimmed⟩
  · exact hform.rest
  · intro c hc
    apply (hform.choices c hc).writable
    intro s hs
    exact hstrings s (List.mem_cons_of_mem _ (List.mem_flatMap.mpr ⟨c, hc, hs⟩))

/-- A dialogue that was read and is legible can be told. -/
theorem WellFormed.tellable (h : d.WellFormed) (hlegible : d.Legible reg) : d.Tellable reg := by
  constructor
  · exact h.name.word (hlegible.uncommented d.name List.mem_cons_self)
  · intro e he
    exact h.tellable_of_mem_elements hlegible he
  · exact hlegible.openings
  · intro e he
    apply (h.exits e he).writable
    · intro s hs
      apply hlegible.uncommented
      exact List.mem_append_right _ (List.mem_flatMap.mpr ⟨e, he, hs⟩)
    · exact hlegible.keys e he

end Dialogue

/-! ### Reading what was written -/

namespace Script

variable {reg : Registry}

/-- A script that was read and is written again reads back as the same dialogues, and from then
on its text stays the same. -/
theorem normalised_reads_back {source : String} {script : Script}
    (hparse : parse reg source = .ok script)
    (hlegible : ∀ d ∈ script.dialogues, d.Legible reg) :
    ∃ again, parse reg (write script.dialogues) = .ok again ∧
      again.dialogues = script.dialogues ∧ write again.dialogues = write script.dialogues := by
  have hform := wellFormed_of_parse hparse
  obtain ⟨again, hagain, hdialogues, -⟩ := read_of_tellable hform.distinct fun d hd =>
    (hform.dialogues d hd).tellable (hlegible d hd)
  exact ⟨again, hagain, hdialogues, congrArg write hdialogues⟩

/-- A comment, a choice without blanks, a line like a header behind a tag, and code on one line. -/
def loose : String :=
  "# gate\n[ann]: # Halt! /* loudly */\nWho goes there?\n* A friend->gate\n" ++
    "\x7bcoins\x7d=>\x7bx=2;\x7d"

theorem loose_reads_back :
    ∃ script, parse Registry.implicitly loose = .ok script ∧
      (∀ d ∈ script.dialogues, d.Legible Registry.implicitly) ∧
      ∃ again, parse Registry.implicitly (write script.dialogues) = .ok again ∧
        again.dialogues = script.dialogues ∧ write again.dialogues = write script.dialogues :=
  have ⟨script, hparse, hlegible⟩ : ∃ script, parse Registry.implicitly loose = .ok script ∧
      ∀ d ∈ script.dialogues, d.Legible Registry.implicitly := ⟨_, rfl, by decide⟩
  ⟨script, hparse, hlegible, normalised_reads_back hparse hlegible⟩

/-- Behind an empty tag a line is text whatever it begins like. Written without the tag, this one
begins a dialogue. -/
theorem markup_behind_empty_tag :
    ∃ script again, parse Registry.implicitly "# a\n[]: # note\n" = .ok script ∧
      write script.dialogues = "# a\n# note\n\n" ∧
      parse Registry.implicitly (write script.dialogues) = .ok again ∧
      again.dialogues ≠ script.dialogues :=
  ⟨_, _, rfl, rfl, rfl, by decide⟩

end Script

end Parley
