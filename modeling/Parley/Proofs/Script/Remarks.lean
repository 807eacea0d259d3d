import Parley.Proofs.Script.Appending
import Parley.Proofs.Script.Reading

/-!
# Comments on lines of their own

Lines that hold nothing but comment may stand anywhere in a script where no comment is open. The
reader makes the same of the other lines, only that what is said of those behind them is said of
where they then stand.

## Implementation notes

The reader trims a line before it cuts the comments out, so a block comment is not cut from its
text but from the trimmed pieces of it. `shorn_cut_trim` puts the trimming aside: it changes
neither what a line leaves nor whether a comment is open behind it.
-/

namespace Parley

open Text (trim trimEnd trimStart isBlank splitOn joinWith byteLength)

namespace Comment

/-! ### Blanks around comments -/

/-- A blank is in no mark. -/
theorem ne_of_isBlank {b : Char} (hb : isBlank b = true) : b ≠ '/' ∧ b ≠ '*' := by
  constructor <;> (rintro rfl; exact absurd hb (by decide))

theorem not_mark_blank {b : Char} (hb : isBlank b = true) (inside : Bool) (cs : List Char) :
    ¬ mark inside <+: b :: cs := by
  obtain ⟨hslash, hstar⟩ := ne_of_isBlank hb
  cases inside <;> simp [mark, List.cons_prefix_cons, hslash.symm, hstar.symm]

/-- What a line leaves, without the blanks at its ends. -/
def Remains.shorn (r : Remains) : Remains :=
  { r with kept := trim r.kept }

/-- Whether a line is dropped does not depend on the blanks at its ends. -/
theorem text?_shorn (r : Remains) : r.shorn.text? = r.text? := by
  simp [Remains.shorn, Remains.text?, Text.trim_trim]

theorem shorn_cut_cons {b : Char} (hb : isBlank b = true) (inside : Bool) (cs : List Char) :
    (cut inside (b :: cs)).shorn = (cut inside cs).shorn := by
  rw [cut_cons (not_mark_blank hb inside cs)]
  cases inside with
  | true => exact congrArg Remains.shorn (with_met_cut_true cs)
  | false => simp [Remains.shorn, Text.trim_blank_cons hb]

theorem shorn_cut_concat {b : Char} (hb : isBlank b = true) (inside : Bool) (cs : List Char) :
    (cut inside (cs ++ [b])).shorn = (cut inside cs).shorn := by
  have hfirst : ∀ d ∈ [b].head?, d ≠ '/' ∧ d ≠ '*' := by
    rintro d ⟨⟩
    exact ne_of_isBlank hb
  rw [cut_append hfirst, cut_cons (not_mark_blank hb _ [])]
  cases hlast : (cut inside cs).inside with
  | false => simp [Remains.shorn, cut, hlast, Text.trim_append_blank _ hb]
  | true => simp [Remains.shorn, cut, hlast, met_of_inside hlast]

/-- It makes no difference whether a line is trimmed before its comments are cut out. -/
theorem shorn_cut_trim (inside : Bool) (cs : List Char) :
    (cut inside (trim cs)).shorn = (cut inside cs).shorn := by
  have hspaced := Text.spaced_trim cs
  generalize trim cs = text at hspaced ⊢
  induction hspaced with
  | refl => rfl
  | front hb _ ih => rw [shorn_cut_cons hb, ih]
  | back hb _ ih => rw [shorn_cut_concat hb, ih]

/-! ### What a comment loses -/

/-- A comment that nothing closes loses the whole text. -/
theorem cut_unclosed {body : List Char} (h : ¬ ['*', '/'] <:+: body) :
    cut true body = ⟨[], true, true⟩ :=
  @cut_unmarked true body h

/-- A comment loses the text up to the first mark that closes it. -/
theorem cut_closed {body : List Char} (h : ¬ ['*', '/'] <:+: body) (after : List Char) :
    cut true (body ++ '*' :: '/' :: after) = { cut false after with met := true } :=
  @cut_marked true body h after

/-- A mark behind blanks opens a comment. -/
theorem shorn_cut_opened {lead : List Char} (h : ∀ c ∈ lead, isBlank c = true)
    (after : List Char) :
    (cut false (lead ++ '/' :: '*' :: after)).shorn = (cut true after).shorn := by
  induction lead with
  | nil => rw [List.nil_append, cut, with_met_cut_true]
  | cons b lead ih =>
      obtain ⟨hb, hlead⟩ := List.forall_mem_cons.mp h
      rw [List.cons_append, shorn_cut_cons hb, ih hlead]

/-- Nothing but blanks behind a comment are lost with it. -/
theorem shorn_cut_last {body trail : List Char} (hbody : ¬ ['*', '/'] <:+: body)
    (htrail : ∀ c ∈ trail, isBlank c = true) :
    (cut true (body ++ '*' :: '/' :: trail)).shorn = ⟨[], true, false⟩ := by
  have hplain : ¬ ['/', '*'] <:+: trail := by
    intro hi
    exact absurd (htrail '/' (hi.subset List.mem_cons_self)) (by decide)
  have hblank : trim trail = [] := (Text.trim_eq_nil_iff trail).mpr (List.all_eq_true.mpr htrail)
  rw [cut_closed hbody, cut_eq_self hplain, Remains.shorn, hblank]

/-! ### Lines of nothing but comment -/

/-- The text of lines that hold nothing but comment: one line that begins with `//` and opens no
block comment, or as many lines as one block comment stands on. -/
inductive Remark : List Char → Prop where
  | line {text : List Char} (single : '\n' ∉ text) (marked : ['/', '/'] <+: trimStart text)
      (unopened : ¬ ['/', '*'] <:+: text) : Remark text
  | block {lead body trail : List Char} (hlead : ∀ c ∈ lead, isBlank c = true ∧ c ≠ '\n')
      (unclosed : ¬ ['*', '/'] <:+: body)
      (htrail : ∀ c ∈ trail, isBlank c = true ∧ c ≠ '\n') :
      Remark (lead ++ '/' :: '*' :: (body ++ '*' :: '/' :: trail))

/-- Lines that leave nothing, between a place inside or outside a comment and another. -/
def Vanish (inside : Bool) (texts : List (List Char)) (last : Bool) : Prop :=
  ∀ line start, clear inside (Line.number line start texts) = ([], last)

theorem vanish_nil (inside : Bool) : Vanish inside [] inside :=
  fun _ _ => rfl

/-- A line of nothing but comment vanishes in front of others that do. -/
theorem Vanish.cons {inside next last : Bool} {text : List Char} {texts : List (List Char)}
    (htext : (cut inside text).shorn = ⟨[], true, next⟩) (h : Vanish next texts last) :
    Vanish inside (text :: texts) last := by
  intro line start
  have hshorn : (cut inside (trim text)).shorn = ⟨[], true, next⟩ := by
    rw [shorn_cut_trim, htext]
  have hnone : (cut inside (trim text)).text? = none := by
    rw [← text?_shorn, hshorn]
    rfl
  have hinside : (cut inside (trim text)).inside = next := congrArg Remains.inside hshorn
  simp only [Line.number, clear, hnone, hinside]
  exact h _ _

/-- A line comment vanishes. -/
theorem vanish_line {text : List Char} (marked : ['/', '/'] <+: trimStart text)
    (unopened : ¬ ['/', '*'] <:+: text) : Vanish false [text] false := by
  intro line start
  have hcut : cut false (trim text) = ⟨trim text, false, false⟩ :=
    cut_eq_self fun hi => unopened (hi.trans (Text.trim_isInfix text))
  have hcomment : isLineComment (trim text) = true := by
    obtain ⟨rest, hrest⟩ := marked
    have hslash : isBlank '/' = false := by decide
    rw [isLineComment_iff, trim, ← hrest, List.cons_append, List.cons_append,
      Text.trimEnd_cons hslash, Text.trimEnd_cons hslash]
    exact ⟨_, rfl⟩
  simp only [Line.number, clear, hcut, Remains.text?, Text.trim_trim, Bool.false_and,
    Bool.false_eq_true, if_false, hcomment, if_true]

theorem unclosed_parts {first rest : List Char} (h : ¬ ['*', '/'] <:+: first ++ '\n' :: rest) :
    ¬ ['*', '/'] <:+: first ∧ ¬ ['*', '/'] <:+: rest := by
  rw [Text.pair_infix_append_cons (by decide) (by decide), not_or] at h
  exact h

theorem notMem_closing {body trail : List Char} (hbody : '\n' ∉ body)
    (htrail : ∀ c ∈ trail, isBlank c = true ∧ c ≠ '\n') :
    '\n' ∉ body ++ '*' :: '/' :: trail := by
  have hbreak : '\n' ∉ trail := fun h => (htrail _ h).2 rfl
  simp [hbody, hbreak]

theorem notMem_opening {lead first : List Char} (hlead : ∀ c ∈ lead, isBlank c = true ∧ c ≠ '\n')
    (hfirst : '\n' ∉ first) : '\n' ∉ lead ++ '/' :: '*' :: first := by
  have hbreak : '\n' ∉ lead := fun h => (hlead _ h).2 rfl
  simp [hfirst, hbreak]

/-- The lines from inside a block comment to its end. The recursion is on the text of the
comment, one line at a time. -/
theorem vanish_rest {body trail : List Char} (hbody : ¬ ['*', '/'] <:+: body)
    (htrail : ∀ c ∈ trail, isBlank c = true ∧ c ≠ '\n') :
    Vanish true (splitOn '\n' (body ++ '*' :: '/' :: trail)) false := by
  by_cases hbreak : '\n' ∈ body
  · obtain ⟨first, rest, rfl, hfirst⟩ := List.eq_append_cons_of_mem hbreak
    obtain ⟨hunclosed, hrest⟩ := unclosed_parts hbody
    rw [List.append_assoc, List.cons_append, Text.splitOn_append, Text.splitOn_of_notMem hfirst]
    refine Vanish.cons ?_ (vanish_rest hrest htrail)
    rw [cut_unclosed hunclosed]
    rfl
  · rw [Text.splitOn_of_notMem (notMem_closing hbreak htrail)]
    exact Vanish.cons (shorn_cut_last hbody fun c hc => (htrail c hc).1) (vanish_nil false)
termination_by body.length
decreasing_by
  simp_all only [List.length_append, List.length_cons]
  omega

/-- A remark vanishes, however many lines it has. -/
theorem vanish_of_remark {text : List Char} (h : Remark text) :
    Vanish false (splitOn '\n' text) false := by
  cases h with
  | line single marked unopened =>
      rw [Text.splitOn_of_notMem single]
      exact vanish_line marked unopened
  | @block lead body trail hlead unclosed htrail =>
      have hblank : ∀ c ∈ lead, isBlank c = true := fun c hc => (hlead c hc).1
      by_cases hbreak : '\n' ∈ body
      · obtain ⟨first, rest, rfl, hfirst⟩ := List.eq_append_cons_of_mem hbreak
        obtain ⟨hunclosed, hrest⟩ := unclosed_parts unclosed
        have htext : lead ++ '/' :: '*' :: (first ++ '\n' :: rest ++ '*' :: '/' :: trail) =
            lead ++ '/' :: '*' :: first ++ '\n' :: (rest ++ '*' :: '/' :: trail) := by simp
        rw [htext, Text.splitOn_append, Text.splitOn_of_notMem (notMem_opening hlead hfirst)]
        refine Vanish.cons ?_ (vanish_rest hrest htrail)
        rw [shorn_cut_opened hblank, cut_unclosed hunclosed]
        rfl
      · rw [Text.splitOn_of_notMem (notMem_opening hlead (notMem_closing hbreak htrail))]
        refine Vanish.cons ?_ (vanish_nil false)
        rw [shorn_cut_opened hblank, shorn_cut_last unclosed fun c hc => (htrail c hc).1]

end Comment

/-! ### Lines put in between -/

/-- Where a place comes to stand when the lines of a text are put in behind the first lines. -/
def Place.behind (count : Nat) (text : List Char) (p : Place) : Place :=
  if p.line ≤ count then p else p.below text

/-- The number of a line when a text is put in behind the first lines. -/
def Place.lineBehind (count : Nat) (text : List Char) (line : Nat) : Nat :=
  if line ≤ count then line else line + (text.count '\n' + 1)

theorem Place.line_behind (count : Nat) (text : List Char) (p : Place) :
    (p.behind count text).line = lineBehind count text p.line := by
  simp only [behind, lineBehind]
  split <;> rfl

namespace Line

theorem take_number (line start : Nat) (texts : List (List Char)) (count : Nat) :
    (number line start texts).take count = number line start (texts.take count) := by
  induction texts generalizing line start count with
  | nil => simp [number]
  | cons text texts ih =>
      cases count with
      | zero => rfl
      | succ count => simp only [number, List.take_succ_cons, ih]

theorem drop_number (line start : Nat) (texts : List (List Char)) (count : Nat) :
    (number line start texts).drop count =
      number (line + (texts.take count).length)
        (start + ((texts.take count).map fun text => byteLength text + 1).sum)
        (texts.drop count) := by
  induction texts generalizing line start count with
  | nil => simp [number]
  | cons text texts ih =>
      cases count with
      | zero => rfl
      | succ count =>
          simp only [number, List.drop_succ_cons, ih, List.take_succ_cons, List.length_cons,
            List.map_cons, List.sum_cons, Nat.add_assoc, Nat.add_comm 1]

theorem line_of_mem_number {line start : Nat} {texts : List (List Char)} {l : Line}
    (h : l ∈ number line start texts) :
    line ≤ l.place.line ∧ l.place.line < line + texts.length := by
  induction texts generalizing line start with
  | nil => simp [number] at h
  | cons text texts ih =>
      rw [number, List.mem_cons] at h
      rcases h with rfl | hrest
      · simp
      · have hbounds := ih hrest
        rw [List.length_cons]
        omega

end Line

namespace Script

/-- A source with the lines of a text put in behind its first lines. -/
def insertLines (count : Nat) (text source : String) : String :=
  String.ofList <| joinWith ['\n'] <|
    (splitOn '\n' source.toList).take count ++ splitOn '\n' text.toList ++
      (splitOn '\n' source.toList).drop count

variable (count : Nat) (text source : String)

/-- The lines of the text stand between those of the source. -/
theorem splitOn_insertLines :
    splitOn '\n' (insertLines count text source).toList =
      (splitOn '\n' source.toList).take count ++ splitOn '\n' text.toList ++
        (splitOn '\n' source.toList).drop count := by
  rw [insertLines, String.toList_ofList, Text.splitOn_joinWith]
  · simp [Text.splitOn_ne_nil]
  · simp only [List.forall_mem_append]
    exact ⟨⟨fun _ h => Text.notMem_of_mem_splitOn (List.mem_of_mem_take h),
      fun _ h => Text.notMem_of_mem_splitOn h⟩,
      fun _ h => Text.notMem_of_mem_splitOn (List.mem_of_mem_drop h)⟩

theorem byteLength_insertLines :
    byteLength (insertLines count text source).toList =
      byteLength source.toList + (byteLength text.toList + 1) := by
  have hbytes (cs : List Char) :
      ((splitOn '\n' cs).map fun piece => byteLength piece + 1).sum = byteLength cs + 1 :=
    Text.sum_byteLength_splitOn '\n' cs
  have hall := hbytes (insertLines count text source).toList
  have hsource := hbytes source.toList
  rw [← List.take_append_drop count (splitOn '\n' source.toList), List.map_append,
    List.sum_append] at hsource
  rw [splitOn_insertLines, List.map_append, List.map_append, List.sum_append, List.sum_append,
    hbytes text.toList] at hall
  omega

/-- Lines up to the one the text is put behind stay where they are. -/
theorem take_move (texts : List (List Char)) (count : Nat) (text : List Char) :
    ((Line.number 1 0 texts).map (Line.move (Place.behind count text))).take count =
      Line.number 1 0 (texts.take count) := by
  rw [← List.map_take, Line.take_number]
  refine (List.map_congr_left fun l hl => ?_).trans (List.map_id _)
  have hline : l.place.line ≤ count := by
    have hbounds := Line.line_of_mem_number hl
    have hlength := List.length_take_le count texts
    omega
  simp [Line.move, Place.behind, hline]

/-- The lines behind it make room for the lines of the text. -/
theorem drop_move (texts : List (List Char)) (count : Nat) (text : List Char) :
    ((Line.number 1 0 texts).map (Line.move (Place.behind count text))).drop count =
      Line.number (1 + (texts.take count).length + (text.count '\n' + 1))
        (((texts.take count).map fun text => byteLength text + 1).sum + (byteLength text + 1))
        (texts.drop count) := by
  rw [← List.map_drop, Line.drop_number, Nat.zero_add, Line.number_below]
  refine List.map_congr_left fun l hl => ?_
  have hline : ¬ l.place.line ≤ count := by
    obtain ⟨hfrom, hto⟩ := Line.line_of_mem_number hl
    rw [List.length_take, List.length_drop] at *
    omega
  simp [Line.move, Place.behind, hline]

/-- The lines of the source, moved, with the lines of the text between them. -/
theorem ofSource_insertLines :
    ∃ line start, Line.ofSource (insertLines count text source).toList =
      ((Line.ofSource source.toList).map (Line.move (Place.behind count text.toList))).take count ++
        Line.number line start (splitOn '\n' text.toList) ++
        ((Line.ofSource source.toList).map
          (Line.move (Place.behind count text.toList))).drop count := by
  have hbytes : ((splitOn '\n' text.toList).map fun piece => byteLength piece + 1).sum =
      byteLength text.toList + 1 := Text.sum_byteLength_splitOn '\n' text.toList
  refine ⟨1 + ((splitOn '\n' source.toList).take count).length,
    (((splitOn '\n' source.toList).take count).map fun piece => byteLength piece + 1).sum, ?_⟩
  simp only [Line.ofSource]
  rw [take_move, drop_move, splitOn_insertLines, Line.number_append, Line.number_append,
    List.length_append, List.map_append, List.sum_append, hbytes, Text.length_splitOn,
    Nat.zero_add, Nat.zero_add, Nat.add_assoc 1]

/-! ### Reading with comments put in -/

/-- Whether a comment is open behind the first lines of a source. -/
def inComment (count : Nat) (source : String) : Bool :=
  (Comment.clear false ((Line.ofSource source.toList).take count)).2

/-- A remark put in outside of comments leaves the same lines, at the places they then have. -/
theorem clear_insertLines {count : Nat} {text source : String}
    (hopen : inComment count source = false) (htext : Comment.Remark text.toList) :
    Comment.clear false (Line.ofSource (insertLines count text source).toList) =
      Comment.clear false
        ((Line.ofSource source.toList).map (Line.move (Place.behind count text.toList))) := by
  obtain ⟨line, start, hlines⟩ := ofSource_insertLines count text source
  have hfirst : (Comment.clear false (((Line.ofSource source.toList).map
      (Line.move (Place.behind count text.toList))).take count)).2 = false := by
    rw [← List.map_take, Comment.clear_move]
    exact hopen
  have hvanish := Comment.vanish_of_remark htext line start
  conv_rhs => rw [← List.take_append_drop count (List.map _ _), Comment.clear_append, hfirst]
  rw [hlines, List.append_assoc, Comment.clear_append, hfirst, Comment.clear_append, hvanish]
  rfl

theorem length_insertLines (count : Nat) (text source : String) :
    (Line.ofSource (insertLines count text source).toList).length =
      (Line.ofSource source.toList).length + (text.toList.count '\n' + 1) := by
  simp only [Line.ofSource, Line.length_number]
  rw [splitOn_insertLines, List.length_append, List.length_append, List.length_take,
    List.length_drop, Text.length_splitOn '\n' text.toList]
  omega

/-- Where no comment is open behind the first lines, one that is open at the end is opened behind
them, and so reported there. -/
theorem endDiagnostics_insertLines {count : Nat} {source : String}
    (hopen : inComment count source = false) (text : String) :
    endDiagnostics (Comment.clear false (Line.ofSource source.toList)).2
        (insertLines count text source).toList =
      (endDiagnostics (Comment.clear false (Line.ofSource source.toList)).2 source.toList).map
        (Diagnostic.move (Place.behind count text.toList)) := by
  cases hend : (Comment.clear false (Line.ofSource source.toList)).2 with
  | false => rfl
  | true =>
      have hbehind : ¬ (Line.ofSource source.toList).length ≤ count := by
        intro hle
        rw [inComment, List.take_of_length_le hle, hend] at hopen
        contradiction
      simp only [endDiagnostics, if_true, List.map_cons, List.map_nil, Diagnostic.move,
        Place.behind, hbehind, if_false, Place.below, length_insertLines, byteLength_insertLines]

/-- With a remark put in, the source is divided as before. -/
theorem partsOf_insertLines {count : Nat} {text source : String}
    (hopen : inComment count source = false) (htext : Comment.Remark text.toList) :
    partsOf (Line.ofSource (insertLines count text source).toList) =
      ((partsOf (Line.ofSource source.toList)).1.map
          (Located.move (Place.behind count text.toList)),
        (partsOf (Line.ofSource source.toList)).2.map
          (Section.move (Place.behind count text.toList))) := by
  rw [← partsOf_move, partsOf, partsOf, clear_insertLines hopen htext]

/-- With a remark put in, the same is read, and reported where it then stands. -/
theorem reading_insertLines (reg : Registry) {count : Nat} {text source : String}
    (hopen : inComment count source = false) (htext : Comment.Remark text.toList) :
    reading reg (insertLines count text source) =
      { dialogues := (reading reg source).dialogues
        diagnostics := (reading reg source).diagnostics.map
          (Diagnostic.move (Place.behind count text.toList)) } := by
  have hdialogues : Section.dialogue reg ∘ Section.move (Place.behind count text.toList) =
      Section.dialogue reg := funext fun s => Section.dialogue_move _ reg s
  simp only [reading, partsOf_insertLines hopen htext, clear_insertLines hopen htext,
    Comment.clear_move, endDiagnostics_insertLines hopen, Section.diagnosticsFrom_move,
    List.map_map, hdialogues, List.flatMap_map, Section.diagnostics_move, List.map_append,
    List.map_flatMap]

/-- A source that is accepted, and in it a place between two lines, before the first or behind the
last, where no comment is open. Lines of nothing but comment are put in there: the source is read to
the same dialogues and the same reports, each at the place where its line then stands. -/
theorem parse_insertLines {reg : Registry} {source text : String} {count : Nat} {script : Script}
    (hparse : parse reg source = .ok script) (hopen : inComment count source = false)
    (htext : Comment.Remark text.toList) :
    parse reg (insertLines count text source) = .ok
      { dialogues := script.dialogues
        diagnostics :=
          script.diagnostics.map (Diagnostic.move (Place.behind count text.toList)) } := by
  obtain ⟨rfl, horphan, hrepeated⟩ := eq_of_parse hparse
  have hline := Place.line_behind count text.toList
  rw [← reading_insertLines reg hopen htext]
  apply parse_eq_ok
  · rw [partsOf_insertLines hopen htext]
    exact (Section.orphan?_move hline none _).trans (by rw [horphan]; rfl)
  · rw [partsOf_insertLines hopen htext, Section.repeated?_move hline, hrepeated]
    rfl

/-! An element, its choices and a code block, and what may stand in the middle of each. -/

def quietSource : String :=
  "# a\n[Ann]: One\nTwo\n* Yes -> a\n* No -> a\n=>\x7b\nx = 1;\ny = ;\n\x7d\n/* and so on"

def note : String :=
  "  // * Maybe -> b"

def aside : String :=
  "/* a\n\n# b **/ "

theorem remark_note : Comment.Remark note.toList :=
  .line (by decide +kernel) (by decide +kernel) (by decide +kernel)

theorem remark_aside : Comment.Remark aside.toList :=
  @Comment.Remark.block [] " a\n\n# b *".toList [' '] (List.forall_mem_nil _)
    (by decide +kernel) (List.forall_mem_singleton.mpr (by decide))

/-- Two remarks, each in the middle of an element, between choices and inside a block. -/
theorem parse_insertLines_quietSource :
    ∃ script, parse Registry.implicitly quietSource = .ok script ∧
      (∀ count ∈ [2, 4, 7], inComment count quietSource = false ∧
        ∀ text ∈ [note, aside], Comment.Remark text.toList ∧
          parse Registry.implicitly (insertLines count text quietSource) = .ok
            { dialogues := script.dialogues
              diagnostics := script.diagnostics.map
                (Diagnostic.move (Place.behind count text.toList)) }) ∧
      (script.diagnostics.map fun d => (d.place.behind 7 aside.toList).line) = [11, 13] := by
  have hparse : parse Registry.implicitly quietSource =
      .ok (reading Registry.implicitly quietSource) := rfl
  refine ⟨_, hparse, fun count hcount => ?_, by decide +kernel⟩
  have hopen : ∀ count ∈ [2, 4, 7], inComment count quietSource = false := by decide +kernel
  refine ⟨hopen count hcount, fun text htext => ?_⟩
  have hremark : Comment.Remark text.toList := by
    simp only [List.mem_cons, List.not_mem_nil, or_false] at htext
    rcases htext with rfl | rfl
    · exact remark_note
    · exact remark_aside
  exact ⟨hremark, parse_insertLines hparse (hopen count hcount) hremark⟩

end Script

end Parley
