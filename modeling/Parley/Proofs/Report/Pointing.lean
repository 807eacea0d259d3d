import Parley.Proofs.Script.Places
import Parley.Proofs.Text.Blank
import Parley.Report.Basic

/-!
# Where reports point

A script counts the bytes in front of a line, and a report takes them for characters; a script ends
its lines at line feeds, and a report at other characters too. As long as the two count alike, up to
the end of the line that a diagnostic is about, the report shows just that line, with its number
and all of it marked. What stands below does not matter.

## Implementation notes

Whether the two count alike is told by going along a text as the report does, which takes a carriage
return and a line feed for one end. A line feed behind a carriage return is what a script ends its
line at, so the carriage return stays part of the line there, and is marked with it.
-/

namespace Parley

open Text (byteLength splitOn trimEnd)

/-! ### Bytes and characters -/

/-- Where every character is one byte, bytes count as characters. -/
theorem Text.byteLength_eq_length {cs : List Char} (h : ∀ c ∈ cs, c.utf8Size = 1) :
    byteLength cs = cs.length := by
  induction cs with
  | nil => rfl
  | cons c cs ih =>
      obtain ⟨hc, hcs⟩ := List.forall_mem_cons.mp h
      rw [byteLength_cons, hc, ih hcs, List.length_cons, Nat.add_comm]

theorem Text.length_le_byteLength (cs : List Char) : cs.length ≤ byteLength cs := by
  induction cs with
  | nil => exact Nat.le_refl _
  | cons c cs ih =>
      have hc := c.utf8Size_pos
      rw [byteLength_cons, List.length_cons]
      omega

namespace Report

/-! ### Counting alike -/

/-- Every character is one byte, and only line feeds end lines, with or without a carriage return in
front. -/
def countsAlike : List Char → Bool
  | [] => true
  | '\r' :: '\n' :: cs => countsAlike cs
  | c :: cs => c.utf8Size == 1 && (c == '\n' || !isLineEnd c) && countsAlike cs

theorem utf8Size_of_countsAlike {cs : List Char} (h : countsAlike cs = true) :
    ∀ c ∈ cs, c.utf8Size = 1 := by
  fun_induction countsAlike cs with
  | case1 => exact List.forall_mem_nil _
  | case2 cs ih =>
      exact List.forall_mem_cons.mpr ⟨rfl, List.forall_mem_cons.mpr ⟨rfl, ih h⟩⟩
  | case3 c cs _ ih =>
      simp only [Bool.and_eq_true, beq_iff_eq] at h
      exact List.forall_mem_cons.mpr ⟨h.1.1, ih h.2⟩

/-- A text that ends in a line feed counts alike apart from what stands below it. -/
theorem countsAlike_append {above : List Char} (hend : ∀ c ∈ above.getLast?, c = '\n')
    (line : List Char) :
    countsAlike (above ++ line) = (countsAlike above && countsAlike line) := by
  fun_induction countsAlike above with
  | case1 => rfl
  | case2 cs ih =>
      refine ih ?_
      cases cs with
      | nil => simp
      | cons d cs => simpa using hend
  | case3 c cs hreturn ih =>
      have hcs : ∀ d ∈ cs.getLast?, d = '\n' := by
        cases cs with
        | nil => simp
        | cons d cs => simpa using hend
      rw [List.cons_append, countsAlike, ih hcs]
      · simp only [Bool.and_assoc]
      · rintro rest rfl hfeed
        cases cs with
        | nil => cases hend _ rfl
        | cons d cs => exact hreturn cs rfl (by rw [(List.cons.inj hfeed).1])

/-! ### Lines of a report -/

theorem lines_feed (cs : List Char) : lines ('\n' :: cs) = ['\n'] :: lines cs := by
  rw [lines]
  · rfl
  · simp

theorem lines_inner {c : Char} (hc : isLineEnd c = false) {cs line : List Char}
    {rest : List (List Char)} (hlines : lines cs = line :: rest) :
    lines (c :: cs) = (c :: line) :: rest := by
  rw [lines]
  · simp only [hc, Bool.false_eq_true, if_false, hlines]
  · rintro _ rfl _
    cases hc

theorem lines_last {c : Char} (hc : isLineEnd c = false) : lines [c] = [[c]] := by
  simp [lines, hc]

theorem lines_ne_nil {cs : List Char} (h : cs ≠ []) : lines cs ≠ [] := by
  intro hnil
  have hflat := flatten_lines cs
  rw [hnil] at hflat
  exact h hflat.symm

/-- A line that ends in a line feed, or that nothing stands behind, is the first line. -/
theorem lines_append {line rest : List Char} (hne : line ≠ []) (halike : countsAlike line = true)
    (hfeed : '\n' ∉ line.dropLast) (hend : rest = [] ∨ line.getLast? = some '\n') :
    lines (line ++ rest) = line :: lines rest := by
  fun_induction countsAlike line with
  | case1 => exact absurd rfl hne
  | case2 cs ih =>
      obtain rfl : cs = [] := by
        by_contra hcs
        simp [List.dropLast_cons_of_ne_nil, hcs] at hfeed
      rfl
  | case3 c cs _ ih =>
      simp only [Bool.and_eq_true, Bool.or_eq_true, beq_iff_eq, Bool.not_eq_true'] at halike
      obtain ⟨⟨-, hc⟩, halike⟩ := halike
      cases cs with
      | nil =>
          obtain rfl | hc := hc
          · exact lines_feed rest
          · obtain rfl : rest = [] := hend.resolve_right (by rintro ⟨⟩; cases hc)
            exact lines_last hc
      | cons d cs =>
          rw [List.dropLast_cons_of_ne_nil (List.cons_ne_nil d cs), List.mem_cons, not_or] at hfeed
          have hinner : isLineEnd c = false := hc.resolve_left (Ne.symm hfeed.1)
          exact lines_inner hinner (ih (List.cons_ne_nil d cs) halike hfeed.2 (by simpa using hend))

/-- Behind a line feed the lines are those of the rest, and above it there are as many as line
feeds. -/
theorem lines_above {above : List Char} (halike : countsAlike above = true)
    (hend : ∀ c ∈ above.getLast?, c = '\n') (rest : List Char) :
    lines (above ++ rest) = lines above ++ lines rest ∧
      (lines above).length = above.count '\n' := by
  fun_induction countsAlike above with
  | case1 => exact ⟨rfl, rfl⟩
  | case2 cs ih =>
      have hcs : ∀ c ∈ cs.getLast?, c = '\n' := by
        cases cs with
        | nil => simp
        | cons d cs => simpa using hend
      obtain ⟨hlines, hcount⟩ := ih halike hcs
      constructor
      · exact congrArg (['\r', '\n'] :: ·) hlines
      · rw [lines, List.length_cons, hcount, List.count_cons_of_ne (by decide),
          List.count_cons_self]
  | case3 c cs _ ih =>
      simp only [Bool.and_eq_true, Bool.or_eq_true, beq_iff_eq, Bool.not_eq_true'] at halike
      obtain ⟨⟨-, hc⟩, halike⟩ := halike
      have hcs : ∀ d ∈ cs.getLast?, d = '\n' := by
        cases cs with
        | nil => simp
        | cons d cs => simpa using hend
      obtain ⟨hlines, hcount⟩ := ih halike hcs
      by_cases hfeed : c = '\n'
      · subst hfeed
        constructor
        · rw [List.cons_append, lines_feed, lines_feed, hlines, List.cons_append]
        · rw [lines_feed, List.length_cons, hcount, List.count_cons_self]
      · -- the line goes on, since only a line feed can stand last
        have hinner := hc.resolve_left hfeed
        have hne : cs ≠ [] := by
          rintro rfl
          exact hfeed (hend c rfl)
        obtain ⟨line, more, hmore⟩ := List.exists_cons_of_ne_nil (lines_ne_nil hne)
        rw [hmore] at hlines hcount
        constructor
        · rw [List.cons_append, lines_inner hinner hlines, lines_inner hinner hmore]
          rfl
        · rw [lines_inner hinner hmore, List.count_cons_of_ne hfeed, ← hcount]
          rfl

/-! ### Spots -/

/-- Lines above are walked past, whatever they hold. -/
theorem spotFrom_append (line offset : Nat) (texts : List (List Char)) {rest : List (List Char)}
    (hrest : rest ≠ []) :
    spotFrom line (texts.flatten.length + offset) (texts ++ rest) =
      spotFrom (line + texts.length) offset rest := by
  induction texts generalizing line with
  | nil => simp
  | cons text texts ih =>
      have hne : texts ++ rest ≠ [] := List.append_ne_nil_of_right_ne_nil texts hrest
      have hbehind : ¬ text.length + (texts.flatten.length + offset) < text.length := by omega
      have hoffset : (text :: texts).flatten.length + offset =
          text.length + (texts.flatten.length + offset) := by
        rw [List.flatten_cons, List.length_append, Nat.add_assoc]
      rw [hoffset, List.cons_append, spotFrom, if_neg hbehind, Nat.add_sub_cancel_left, ih,
        List.length_cons, Nat.add_assoc, Nat.add_comm 1]
      exact hne

theorem spotFrom_zero (line : Nat) {text : List Char} (hne : text ≠ []) (rest : List (List Char)) :
    spotFrom line 0 (text :: rest) = some ⟨line, 0, text⟩ := by
  have hpos : 0 < text.length := List.length_pos_iff.mpr hne
  cases rest <;> simp [spotFrom, hpos]

/-- The excerpt that shows a whole line, all of it under the span. -/
theorem excerpt?_line {before text after : List Char} (hne : text ≠ []) (hfeed : '\n' ∉ text)
    (hbefore : ∀ c ∈ before.getLast?, c = '\n') (hafter : ∀ c ∈ after.head?, c = '\n')
    (halike : countsAlike (before ++ (text ++ after.take 1)) = true) :
    excerpt? (before ++ text ++ after) ⟨before.length, before.length + text.length⟩ =
      some ⟨⟨before.count '\n', 0, text ++ after.take 1⟩, text.length⟩ := by
  rw [countsAlike_append hbefore, Bool.and_eq_true] at halike
  have hsource : before ++ text ++ after = before ++ ((text ++ after.take 1) ++ after.drop 1) := by
    rw [List.append_assoc, List.append_assoc, List.take_append_drop]
  have hline : text ++ after.take 1 ≠ [] := List.append_ne_nil_of_left_ne_nil hne _
  have hlast : after.drop 1 = [] ∨ (text ++ after.take 1).getLast? = some '\n' := by
    cases after with
    | nil => exact .inl rfl
    | cons c after => exact .inr (by simpa using hafter c rfl)
  have hinner : '\n' ∉ (text ++ after.take 1).dropLast := by
    cases after with
    | nil => simpa using fun hmem => hfeed (List.mem_of_mem_dropLast hmem)
    | cons c after => simpa using hfeed
  obtain ⟨habove, hcount⟩ := lines_above halike.1 hbefore ((text ++ after.take 1) ++ after.drop 1)
  have hspot : spot? (before ++ text ++ after) before.length =
      some ⟨before.count '\n', 0, text ++ after.take 1⟩ := by
    have hwalk := spotFrom_append 0 0 (lines before)
      (List.cons_ne_nil (text ++ after.take 1) (lines (after.drop 1)))
    rw [flatten_lines, Nat.add_zero, Nat.zero_add, hcount, spotFrom_zero _ hline] at hwalk
    rw [spot?, hsource, habove, lines_append hline halike.2 hinner hlast, hwalk]
  obtain ⟨spot, hstop⟩ : ∃ spot, spot? (before ++ text ++ after)
      (max before.length (before.length + text.length - 1)) = some spot := by
    rw [← Option.isSome_iff_exists, spot?_isSome_iff]
    simp only [List.length_append]
    omega
  simp only [excerpt?, hspot, hstop, Option.bind_eq_bind, Option.bind_some, Nat.zero_add,
    Nat.add_sub_cancel_left]

/-! ### Lines of a source -/

/-- What counts alike up to behind the end of a line has as many characters as bytes there. -/
theorem take_of_countsAlike {before text after : List Char}
    (halike : countsAlike ((before ++ text ++ after).take
      (byteLength before + byteLength text + 1)) = true) :
    byteLength before = before.length ∧ byteLength text = text.length ∧
      countsAlike (before ++ (text ++ after.take 1)) = true := by
  have hone := utf8Size_of_countsAlike halike
  have hlength := Text.length_le_byteLength (before ++ text)
  rw [Text.byteLength_append] at hlength
  -- a character is at least one byte, so the line ends within what counts alike
  have hfront : before ++ text <+: (before ++ text ++ after).take
      (byteLength before + byteLength text + 1) :=
    List.prefix_take_iff.mpr ⟨List.prefix_append _ _, Nat.le_succ_of_le hlength⟩
  have hbefore : byteLength before = before.length :=
    Text.byteLength_eq_length fun c hc => hone c (hfront.subset (List.mem_append_left text hc))
  have htext : byteLength text = text.length :=
    Text.byteLength_eq_length fun c hc => hone c (hfront.subset (List.mem_append_right before hc))
  refine ⟨hbefore, htext, ?_⟩
  rwa [hbefore, htext, ← List.length_append, List.take_length_add_append,
    List.append_assoc] at halike

/-- A stretch between line feeds is the line with as many line feeds in front of it. -/
theorem getElem?_splitOn {before text after : List Char} (hfeed : '\n' ∉ text)
    (hbefore : ∀ c ∈ before.getLast?, c = '\n') (hafter : ∀ c ∈ after.head?, c = '\n') :
    (splitOn '\n' (before ++ text ++ after))[before.count '\n']? = some text := by
  have hfirst : (splitOn '\n' (text ++ after))[0]? = some text := by
    cases after with
    | nil => rw [List.append_nil, Text.splitOn_of_notMem hfeed]; rfl
    | cons c after =>
        obtain rfl := hafter c rfl
        rw [Text.splitOn_append, Text.splitOn_of_notMem hfeed]
        rfl
  obtain rfl | ⟨above, c, rfl⟩ := before.eq_nil_or_concat'
  · exact hfirst
  · obtain rfl : c = '\n' := hbefore c (by simp)
    have hcount : (above ++ ['\n']).count '\n' = (splitOn '\n' above).length := by
      rw [List.count_append, Text.length_splitOn]
      rfl
    rw [hcount, List.append_assoc, List.append_assoc, List.singleton_append, Text.splitOn_append,
      List.getElem?_append_right (Nat.le_refl _), Nat.sub_self]
    exact hfirst

theorem trimEnd_append_feed (text : List Char) {after : List Char}
    (hafter : ∀ c ∈ after.head?, c = '\n') : trimEnd (text ++ after.take 1) = trimEnd text := by
  cases after with
  | nil => rw [List.take_nil, List.append_nil]
  | cons c after =>
      obtain rfl := hafter c rfl
      exact Text.trimEnd_append_blank text (by decide)

/-! ### Reports of scripts -/

/-- A report on the start of a line is headed by the file, the line and the first column. -/
theorem header_of_first (r : Report) {e : Excerpt} (hcolumn : e.spot.column = 0) :
    r.header e = blanks ((lineNumber e).length + 2) ++ paintEach .frame ['╭', '─', '['] ++
      ' ' :: r.file.toList ++ ':' :: lineNumber e ++ ':' :: ['1'] ++
      ' ' :: paintEach .frame [']'] := by
  have hone : number 1 = ['1'] := by decide
  rw [header, hcolumn, Nat.zero_add, hone]

/-- A report that stays on its line shows this one line of the source. -/
theorem textLines_of_stays {r : Report} {e : Excerpt} (hshown : r.excerpt = some e)
    (hstays : e.staysOnLine = true) :
    r.textLines =
      [r.title, r.header e, rule e, r.sourceLine e, r.underline e, r.labelLine e, footer e] := by
  rw [textLines, hshown, Option.map_some, Option.getD_some, excerptLines, bodyLines, if_pos hstays]
  rfl

/-- Only a comment that is never closed has an empty span on no line. -/
theorem isLineOf_of_span {reg : Registry} {source : String} {script : Script}
    (h : Script.parse reg source = .ok script) {d : Diagnostic} (hd : d ∈ script.diagnostics)
    (hspan : d.place.span.start < d.place.span.stop) : d.place.IsLineOf source.toList := by
  rw [Script.diagnostics_of_parse h] at hd
  obtain hitems | hend := List.mem_append.mp hd
  · obtain ⟨line, hmem, heq⟩ := List.mem_map.mp ((Script.along_items reg source).mem d hitems)
    rw [← heq]
    exact Place.isLineOf_of_mem_ofSource _ line hmem
  · rw [Script.mem_endDiagnostics hend] at hspan
    exact absurd hspan (Nat.lt_irrefl _)

/-- The report of a diagnostic that stands on a line shows that line: the heading names the file,
the line's number and its first column, the line is reproduced without the blanks at its end, and
all of it is under the span. For this, bytes have to be characters and line feeds the only line ends
up to the end of the line. -/
theorem points_at_line {reg : Registry} {source : String} {script : Script}
    (h : Script.parse reg source = .ok script) (file : String) {d : Diagnostic}
    (hd : d ∈ script.diagnostics) (hspan : d.place.span.start < d.place.span.stop)
    (halike : countsAlike (source.toList.take (d.place.span.stop + 1)) = true) :
    let r := ofDiagnostic file source.toList d
    r.text <:+: ofDiagnostics file source.toList script.diagnostics ∧
    ∃ text e, (splitOn '\n' source.toList)[d.place.line - 1]? = some text ∧
      r.textLines =
        [r.title,
          blanks ((number d.place.line).length + 2) ++ paintEach .frame ['╭', '─', '['] ++
            ' ' :: file.toList ++ ':' :: number d.place.line ++ ':' :: ['1'] ++
            ' ' :: paintEach .frame [']'],
          rule e, r.sourceLine e, r.underline e, r.labelLine e, footer e] ∧
      lineNumber e = number d.place.line ∧ e.line = trimEnd text ∧
      ∀ column, e.marks column = true ↔ column < text.length := by
  intro r
  constructor
  · obtain ⟨above, below, hmem⟩ := List.append_of_mem hd
    refine ⟨ofDiagnostics file source.toList above, ofDiagnostics file source.toList below, ?_⟩
    simp only [ofDiagnostics, hmem, List.flatMap_append, List.flatMap_cons, List.append_assoc, r]
  · obtain ⟨before, text, after, hsource, hfeed, hbefore, hafter, hplace⟩ :=
      isLineOf_of_span h hd hspan
    rw [hplace, hsource] at halike
    obtain ⟨hbytes, htext, halike⟩ := take_of_countsAlike halike
    have hne : text ≠ [] := by
      rintro rfl
      simp [hplace] at hspan
    have hexcerpt := excerpt?_line hne hfeed hbefore hafter halike
    rw [← hsource, ← hbytes, ← htext] at hexcerpt
    set e : Excerpt := ⟨⟨before.count '\n', 0, text ++ after.take 1⟩, byteLength text⟩
    have hshown : r.excerpt = some e :=
      (congrArg (excerpt? source.toList ∘ Place.span) hplace).trans hexcerpt
    have hstays : e.staysOnLine = true := by simp [Excerpt.staysOnLine, e, htext]
    have hnumber : lineNumber e = number d.place.line := by
      rw [hplace, lineNumber]
    refine ⟨text, e, ?_, ?_, hnumber, trimEnd_append_feed text hafter, fun column => ?_⟩
    · rw [hplace, hsource]
      exact getElem?_splitOn hfeed hbefore hafter
    · rw [textLines_of_stays hshown hstays, header_of_first r rfl, hnumber]
      rfl
    · simp [Excerpt.marks, Excerpt.start, e, htext]

/-- A line between a tab and a carriage return, and characters of several bytes below it only. -/
def tabbed : String :=
  "# a\r\n\t* x \r\n[Bob]: hé\n"

/-- A tab in front of the offending text is shown as blanks, on the same line. -/
theorem tabbed_points_at_line :
    ∃ script d, Script.parse Registry.implicitly tabbed = .ok script ∧ d ∈ script.diagnostics ∧
      d.place = ⟨2, ⟨5, 11⟩⟩ ∧
      (ofDiagnostic "a.dlg" tabbed.toList d).text <:+:
        ofDiagnostics "a.dlg" tabbed.toList script.diagnostics ∧
      ∃ text e, (splitOn '\n' tabbed.toList)[1]? = some text ∧ lineNumber e = ['2'] ∧
        e.line = trimEnd text ∧ ∀ column, e.marks column = true ↔ column < text.length := by
  obtain ⟨script, hparse⟩ : ∃ script, Script.parse Registry.implicitly tabbed = .ok script :=
    ⟨_, rfl⟩
  have hd : (⟨⟨2, ⟨5, 11⟩⟩, .choiceWithoutArrow⟩ : Diagnostic) ∈ script.diagnostics := by
    cases hparse
    exact List.mem_singleton.mpr rfl
  obtain ⟨hpart, text, e, htext, -, hnumber, hline, hmarks⟩ :=
    points_at_line hparse "a.dlg" hd (by decide) (by decide +kernel)
  exact ⟨script, _, hparse, hd, rfl, hpart, text, e, htext, hnumber, hline, hmarks⟩

/-- The characters of the first line take four bytes more than a report counts. -/
def accented : String :=
  "# éééé\n* x\n[Bob]: hello\n"

/-- The diagnostic is about the second line, the report shows the third. -/
theorem accented_points_below :
    ∃ script d e, Script.parse Registry.implicitly accented = .ok script ∧
      d ∈ script.diagnostics ∧ d.place = ⟨2, ⟨11, 14⟩⟩ ∧
      (ofDiagnostic "a.dlg" accented.toList d).excerpt = some e ∧ lineNumber e = ['3'] ∧
      e.line = "[Bob]: hello".toList := by
  obtain ⟨script, hparse⟩ : ∃ script, Script.parse Registry.implicitly accented = .ok script :=
    ⟨_, rfl⟩
  refine ⟨script, ⟨⟨2, ⟨11, 14⟩⟩, .choiceWithoutArrow⟩,
    ⟨⟨2, 0, "[Bob]: hello\n".toList⟩, 3⟩, hparse, ?_, rfl, ?_, by decide, by decide +kernel⟩
  · cases hparse
    exact List.mem_singleton.mpr rfl
  · decide +kernel

end Report

end Parley
