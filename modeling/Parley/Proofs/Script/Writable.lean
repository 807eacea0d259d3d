import Parley.Proofs.Script.Nesting
import Parley.Proofs.Text.Blank
import Parley.Proofs.Text.Split
import Parley.Speaker.Registry
import Parley.Script.Statement

/-!
# Graphs that a script can hold

A script has no escapes. A graph can be written only if none of its texts would be read as
something else at the place where it stands. The conditions here are those, one structure for
each part of a graph.
-/

namespace Parley

open Text (Trimmed allBlank splitOn)

namespace Script

/-- Stays on its line and opens no block comment. -/
def Plain (cs : List Char) : Prop :=
  '\n' ∉ cs ∧ ¬ ['/', '*'] <:+: cs

instance (cs : List Char) : Decidable (Plain cs) :=
  inferInstanceAs (Decidable (_ ∧ _))

@[simp]
theorem plain_nil : Plain [] := by
  simp [Plain]

@[simp]
theorem plain_cons_iff {c : Char} (hc : c ≠ '/' ∧ c ≠ '\n') (cs : List Char) :
    Plain (c :: cs) ↔ Plain cs := by
  unfold Plain
  rw [Text.pair_infix_cons hc.1, List.mem_cons]
  simp [Ne.symm hc.2]

@[simp]
theorem plain_append_cons_iff {c : Char} (hc : c ≠ '/' ∧ c ≠ '*' ∧ c ≠ '\n')
    (as bs : List Char) : Plain (as ++ c :: bs) ↔ Plain as ∧ Plain bs := by
  unfold Plain
  rw [Text.pair_infix_append_cons hc.1 hc.2.1, List.mem_append, List.mem_cons]
  simp only [Ne.symm hc.2.2, false_or, not_or]
  exact and_and_and_comm

/-- Between two plain texts there is a blank or another character that joins nothing. -/
theorem plain_joinWith {c d : Char} (hc : c ≠ '/' ∧ c ≠ '*' ∧ c ≠ '\n')
    (hd : d ≠ '/' ∧ d ≠ '\n') {pieces : List (List Char)} (h : ∀ piece ∈ pieces, Plain piece) :
    Plain (Text.joinWith [c, d] pieces) := by
  unfold Text.joinWith
  induction pieces with
  | nil => exact plain_nil
  | cons first rest ih =>
      have hfirst := h first List.mem_cons_self
      have hrest := ih fun piece hp => h piece (List.mem_cons_of_mem _ hp)
      cases rest with
      | nil => rwa [List.intercalate_singleton]
      | cons second rest =>
          rw [List.intercalate_cons_cons, List.append_assoc, List.cons_append,
            plain_append_cons_iff hc]
          exact ⟨hfirst, (plain_cons_iff hd _).mpr hrest⟩

/-- A text that can stand on a line as it is, with something in it. -/
@[mk_iff]
structure Word (word : String) : Prop where
  ne_nil : word.toList ≠ []
  trimmed : Trimmed word.toList
  plain : Plain word.toList

instance (word : String) : Decidable (Word word) :=
  decidable_of_iff' _ (word_iff word)

/-- A line that begins like nothing but text. -/
@[mk_iff]
structure Prose (line : List Char) : Prop where
  not_header : ¬ ['#'] <+: line
  not_brace : ¬ ['\x7b'] <+: line
  not_redirect : ¬ ['=', '>'] <+: line
  not_choice : ¬ ['*'] <+: line
  not_comment : ¬ ['/', '/'] <+: line
  not_speaker : ['['] <+: line → ¬ [']', ':'] <:+: line

instance (line : List Char) : Decidable (Prose line) :=
  decidable_of_iff' _ (prose_iff line)

end Script

open Script (Plain Word Prose)

/-- Written as `* text -> key`. -/
@[mk_iff]
structure Choice.Writable (c : Choice) : Prop where
  text : Word c.text
  key : Word c.key
  arrowless : ¬ ['-', '>'] <:+: c.text.toList

instance (c : Choice) : Decidable c.Writable :=
  decidable_of_iff' _ (Choice.writable_iff c)

/-- The speaker is found again under the name in the tag. -/
@[mk_iff]
structure Speaker.Writable (reg : Registry) (s : Speaker) : Prop where
  resolved : reg.resolve s.name = some s
  tagged : ¬ [']', ':'] <:+: s.name.toList
  plain : Plain s.name.toList

instance (reg : Registry) (s : Speaker) : Decidable (s.Writable reg) :=
  decidable_of_iff' _ (Speaker.writable_iff reg s)

namespace Element

/-- The lines of the text. -/
def textLines (e : Element) : List (List Char) :=
  splitOn '\n' e.text.toList

/-- The line that a tag may stand in front of. -/
def firstLine (e : Element) : List Char :=
  e.textLines.head?.getD []

/-- The lines below the first one. -/
def restLines (e : Element) : List (List Char) :=
  e.textLines.tail

theorem textLines_eq (e : Element) : e.textLines = e.firstLine :: e.restLines := by
  unfold firstLine restLines
  cases hlines : e.textLines with
  | nil => exact absurd hlines (Text.splitOn_ne_nil '\n' _)
  | cons first rest => rfl

/-- The first line needs no care where a tag with a speaker stands in front of it. -/
@[mk_iff]
structure Writable (reg : Registry) (e : Element) : Prop where
  speaker : ∀ s ∈ e.speaker, s.Writable reg
  uncommented : ¬ ['/', '*'] <:+: e.text.toList
  lines : e.text ≠ "" → ∀ line ∈ e.textLines, allBlank line = false ∧ Trimmed line
  first : e.speaker = none → Prose e.firstLine
  rest : ∀ line ∈ e.restLines, Prose line
  choices : ∀ c ∈ e.choices, c.Writable

instance (reg : Registry) (e : Element) : Decidable (e.Writable reg) :=
  decidable_of_iff' _ (writable_iff reg e)

/-- All that `Writable` asks, except of how the element opens. -/
structure Tellable (reg : Registry) (e : Element) : Prop where
  speaker : ∀ s ∈ e.speaker, s.Writable reg
  uncommented : ¬ ['/', '*'] <:+: e.text.toList
  lines : e.text ≠ "" → ∀ line ∈ e.textLines, allBlank line = false ∧ Trimmed line
  rest : ∀ line ∈ e.restLines, Prose line
  choices : ∀ c ∈ e.choices, c.Writable

/-- Without a speaker the first line stands behind an empty tag or alone, as the writer has it,
and the tag has to lead to no speaker or the line to look like text. -/
def Opens (reg : Registry) (speaking : Bool) (e : Element) : Prop :=
  e.speaker = none →
    if speaking || allBlank e.firstLine then reg.resolve "" = none else Prose e.firstLine

instance (reg : Registry) (speaking : Bool) (e : Element) : Decidable (e.Opens reg speaking) :=
  inferInstanceAs (Decidable (e.speaker = none →
    if speaking || allBlank e.firstLine then reg.resolve "" = none else Prose e.firstLine))

/-- Every element of a list opens as it should behind the one before it. -/
def OpensFrom (reg : Registry) : (speaking : Bool) → List Element → Prop
  | _, [] => True
  | speaking, e :: es => e.Opens reg speaking ∧ OpensFrom reg e.speaker.isSome es

instance decidableOpensFrom (reg : Registry) :
    (speaking : Bool) → (es : List Element) → Decidable (OpensFrom reg speaking es)
  | _, [] => isTrue trivial
  | speaking, e :: es =>
      let _ := decidableOpensFrom reg e.speaker.isSome es
      inferInstanceAs (Decidable (e.Opens reg speaking ∧ OpensFrom reg e.speaker.isSome es))

variable {reg : Registry}

theorem Writable.tellable {e : Element} (h : e.Writable reg) : e.Tellable reg :=
  ⟨h.speaker, h.uncommented, h.lines, h.rest, h.choices⟩

/-- A writable element opens after any other, if the empty tag leads to no speaker. -/
theorem Writable.opens {e : Element} (hname : reg.resolve "" = none) (h : e.Writable reg)
    (speaking : Bool) : e.Opens reg speaking := by
  intro hspeaker
  split
  · exact hname
  · exact h.first hspeaker

theorem opensFrom_of_writable {es : List Element} (hname : reg.resolve "" = none)
    (h : ∀ e ∈ es, e.Writable reg) (speaking : Bool) : OpensFrom reg speaking es := by
  induction es generalizing speaking with
  | nil => trivial
  | cons e es ih =>
      constructor
      · exact (h e List.mem_cons_self).opens hname speaking
      · exact ih (fun f hf => h f (List.mem_cons_of_mem e hf)) _

end Element

namespace Statement

/-- The right side of an assignment ends at the semicolon behind it. -/
@[mk_iff]
structure IsValue (value : String) : Prop where
  word : Word value
  piece : Nesting.IsPiece ';' value.toList

instance (value : String) : Decidable (IsValue value) :=
  decidable_of_iff' _ (isValue_iff value)

/-- An equals sign would make the call an assignment. -/
@[mk_iff]
structure IsArgument (arg : String) : Prop where
  word : Word arg
  unequal : '=' ∉ arg.toList
  balanced : balanced arg.toList = true
  whole : splitTopLevel ',' arg.toList = [arg.toList]

instance (arg : String) : Decidable (IsArgument arg) :=
  decidable_of_iff' _ (isArgument_iff arg)

/-- Written as `name = value` or as `name(args)`, on a line of its own. -/
inductive Writable : Statement → Prop where
  | empty {name : String} : Lexer.isName name.toList = true → Writable ⟨.assignment, name, []⟩
  | assign {name value : String} : Lexer.isName name.toList = true → IsValue value →
      Writable (.assign name value)
  | call {name : String} {args : List String} : Lexer.isName name.toList = true →
      (∀ arg ∈ args, IsArgument arg) → Writable (.call name args)

instance : (s : Statement) → Decidable s.Writable
  | ⟨.assignment, name, []⟩ =>
      decidable_of_iff (Lexer.isName name.toList = true)
        ⟨.empty, fun h => by cases h; assumption⟩
  | ⟨.assignment, name, [value]⟩ =>
      decidable_of_iff (Lexer.isName name.toList = true ∧ IsValue value)
        ⟨fun h => .assign h.1 h.2, fun h => by cases h; exact ⟨‹_›, ‹_›⟩⟩
  | ⟨.assignment, _, _ :: _ :: _⟩ => isFalse fun h => by cases h
  | ⟨.call, name, args⟩ =>
      decidable_of_iff (Lexer.isName name.toList = true ∧ ∀ arg ∈ args, IsArgument arg)
        ⟨fun h => .call h.1 h.2, fun h => by cases h; exact ⟨‹_›, ‹_›⟩⟩

end Statement

/-- Behind a condition, a key that holds `}=>{` would open a code block. -/
def Target.Writable (conditional : Prop) : Target → Prop
  | .key word => Word word ∧ ¬ ['\x7b'] <+: word.toList ∧
      (conditional → ¬ ['\x7d', '=', '>', '\x7b'] <:+: word.toList)
  | .code statements => ∀ s ∈ statements, s.Writable

instance (conditional : Prop) [Decidable conditional] :
    (t : Target) → Decidable (t.Writable conditional)
  | .key word => inferInstanceAs (Decidable (Word word ∧ ¬ ['\x7b'] <+: word.toList ∧
      (conditional → ¬ ['\x7d', '=', '>', '\x7b'] <:+: word.toList)))
  | .code statements => inferInstanceAs (Decidable (∀ s ∈ statements, s.Writable))

/-- Written as `{condition}=> target`, without the braces where there is no condition. -/
@[mk_iff]
structure Exit.Writable (e : Exit) : Prop where
  trimmed : Trimmed e.condition.toList
  plain : Plain e.condition.toList
  unbraced : '\x7d' ∉ e.condition.toList
  target : e.target.Writable (e.condition ≠ "")

instance (e : Exit) : Decidable e.Writable :=
  decidable_of_iff' _ (Exit.writable_iff e)

/-- Written under `# name`. -/
@[mk_iff]
structure Dialogue.Writable (reg : Registry) (d : Dialogue) : Prop where
  name : Word d.name
  elements : ∀ e ∈ d.elements, e.Writable reg
  exits : ∀ e ∈ d.exits, e.Writable

instance (reg : Registry) (d : Dialogue) : Decidable (d.Writable reg) :=
  decidable_of_iff' _ (Dialogue.writable_iff reg d)

/-- What the written form of a dialogue can tell. -/
structure Dialogue.Tellable (reg : Registry) (d : Dialogue) : Prop where
  name : Word d.name
  elements : ∀ e ∈ d.elements, e.Tellable reg
  openings : Element.OpensFrom reg false d.elements
  exits : ∀ e ∈ d.exits, e.Writable

theorem Dialogue.Writable.tellable {reg : Registry} {d : Dialogue} (hname : reg.resolve "" = none)
    (h : d.Writable reg) : d.Tellable reg where
  name := h.name
  elements := fun e he => (h.elements e he).tellable
  openings := Element.opensFrom_of_writable hname h.elements false
  exits := h.exits

/-- The dialogues can be told apart by their names. -/
@[mk_iff]
structure Script.Writable (reg : Registry) (ds : List Dialogue) : Prop where
  distinct : (ds.map Dialogue.name).Nodup
  dialogues : ∀ d ∈ ds, d.Writable reg

instance (reg : Registry) (ds : List Dialogue) : Decidable (Script.Writable reg ds) :=
  decidable_of_iff' _ (Script.writable_iff reg ds)

end Parley
