import Parley.Proofs.Script.LineItems
import Parley.Proofs.Script.Remarks

/-!
# Comments in one pass

The reader trims a line, cuts the comments out of it and remembers whether one is still open. Over
all lines this comes to one pass over the source, in which every comment is lost but for its line
ends.

## Implementation notes

The pass goes from mark to mark, and so does the search on a single line; `cut` goes from character
to character. They are compared a character at a time: a line end neither completes a mark nor
begins one, so that the pass may be stopped in front of any of them (`scan_append`).
-/

namespace Parley.Comment

open Text (trim splitOn joinWith breakOn? allBlank)

/-! ### The pass over a source -/

/-- What is behind a mark is shorter than the text by the mark at least. -/
theorem length_after {inside : Bool} {cs before after : List Char}
    (h : breakOn? (mark inside) cs = some (before, after)) : after.length + 2 ≤ cs.length := by
  rw [Text.eq_append_of_breakOn? h, List.length_append, List.length_append, length_mark]
  omega

/-- What is kept of a text without marks in it: inside a comment its line ends only. -/
def keep : (inside : Bool) → List Char → List Char
  | false, cs => cs
  | true, cs => cs.filter (· == '\n')

/-- What is kept of a text is kept part by part. -/
theorem keep_append (inside : Bool) (cs ds : List Char) :
    keep inside (cs ++ ds) = keep inside cs ++ keep inside ds := by
  cases inside with
  | false => rfl
  | true => exact List.filter_append cs ds

/-- What a pass keeps of a text, and whether it ends inside a comment. -/
structure Pass where
  kept : List Char
  inside : Bool
deriving DecidableEq, Repr

/-- The pass over a text that begins inside a comment or not. A comment reaches from a mark that
opens one, met outside of comments, to the first mark behind it that closes one. -/
def scan (inside : Bool) (cs : List Char) : Pass :=
  match _h : breakOn? (mark inside) cs with
  | none => ⟨keep inside cs, inside⟩
  | some (before, after) =>
      let rest := scan (!inside) after
      { rest with kept := keep inside before ++ rest.kept }
termination_by cs.length
decreasing_by
  have hshorter := length_after ‹_›
  omega

variable {inside : Bool} {cs before after line rest : List Char}

/-- Without a mark, all of the text is kept or none of it. -/
theorem scan_of_none (h : breakOn? (mark inside) cs = none) :
    scan inside cs = ⟨keep inside cs, inside⟩ := by
  rw [scan]
  split
  · rfl
  · next hsome => cases h.symm.trans hsome

/-- The pass goes up to the first mark, and on behind it the other way round. -/
theorem scan_of_some (h : breakOn? (mark inside) cs = some (before, after)) :
    scan inside cs =
      { scan (!inside) after with kept := keep inside before ++ (scan (!inside) after).kept } := by
  rw [scan]
  split
  · next hnone => cases h.symm.trans hnone
  · next hsome =>
      cases h.symm.trans hsome
      rfl

theorem scan_nil (inside : Bool) : scan inside [] = ⟨[], inside⟩ := by
  cases inside <;> exact scan_of_none rfl

theorem scan_mark (inside : Bool) (cs : List Char) :
    scan inside (mark inside ++ cs) = scan (!inside) cs := by
  rw [scan_of_some (Text.breakOn?_append (mark_ne_nil inside) cs)]
  cases inside <;> rfl

theorem scan_cons {c : Char} (h : ¬ mark inside <+: c :: cs) :
    scan inside (c :: cs) =
      { scan inside cs with kept := keep inside [c] ++ (scan inside cs).kept } := by
  have hbreak := Text.breakOn?_cons h
  cases hrest : breakOn? (mark inside) cs with
  | none =>
      rw [hrest, Option.map_none] at hbreak
      rw [scan_of_none hbreak, scan_of_none hrest, ← keep_append]
      rfl
  | some p =>
      obtain ⟨before, after⟩ := p
      rw [hrest, Option.map_some] at hbreak
      rw [scan_of_some hbreak, scan_of_some hrest, ← List.append_assoc, ← keep_append]
      rfl

/-- A line end is kept, inside of comments and outside. -/
theorem scan_feed (inside : Bool) (cs : List Char) :
    scan inside ('\n' :: cs) =
      { scan inside cs with kept := '\n' :: (scan inside cs).kept } := by
  rw [scan_cons]
  · cases inside <;> rfl
  · cases inside <;> simp [mark]

/-- In front of a line end, and at the end of a text, the pass is where the cut is. -/
theorem scan_append (hline : '\n' ∉ line) (hrest : ∀ c ∈ rest.head?, c = '\n') :
    scan inside (line ++ rest) =
      { scan (cut inside line).inside rest with
        kept := (cut inside line).kept ++ (scan (cut inside line).inside rest).kept } := by
  have hbegins : ∀ d ∈ rest.head?, d ≠ '/' ∧ d ≠ '*' := by
    intro d hd
    rw [hrest d hd]
    decide
  induction inside, line using cut_induction with
  | nil inside => simp [cut]
  | mark inside cs ih =>
      have hcs : '\n' ∉ cs := fun hmem => hline (List.mem_append_right _ hmem)
      rw [List.append_assoc, scan_mark, cut_mark, ih hcs]
  | cons inside c cs h ih =>
      obtain ⟨hc, hcs⟩ := List.ne_and_not_mem_of_not_mem_cons hline
      have hkeep : keep inside [c] = if inside then [] else [c] := by
        cases inside with
        | false => rfl
        | true => simp [keep, Ne.symm hc]
      rw [List.cons_append, scan_cons (not_mark_append hbegins h), cut_cons h, ih hcs, hkeep,
        List.append_assoc]

/-- On a single line the pass is the cut of that line. -/
theorem scan_line (hline : '\n' ∉ line) :
    scan inside line = ⟨(cut inside line).kept, (cut inside line).inside⟩ := by
  have happend : scan inside (line ++ []) = _ := scan_append hline (by simp)
  simpa [scan_nil] using happend

/-! ### Line by line -/

/-- What the reader leaves of each line, carrying over whether a comment is open. -/
def cutAll : (inside : Bool) → List (List Char) → List Remains
  | _, [] => []
  | inside, line :: lines =>
      let remains := cut inside (trim line)
      remains :: cutAll remains.inside lines

theorem cutAll_cons (inside : Bool) (line : List Char) (lines : List (List Char)) :
    cutAll inside (line :: lines) =
      cut inside (trim line) :: cutAll (cut inside (trim line)).inside lines :=
  rfl

/-- Whether a comment is open behind some lines. -/
def insideAfter (inside : Bool) (lines : List (List Char)) : Bool :=
  lines.foldl (fun inside line => (cut inside (trim line)).inside) inside

/-- Trimming a line opens and closes no comment. -/
theorem inside_cut_trim (inside : Bool) (line : List Char) :
    (cut inside (trim line)).inside = (cut inside line).inside := by
  have hshorn := congrArg Remains.inside (shorn_cut_trim inside line)
  exact hshorn

theorem met_cut_trim (inside : Bool) (line : List Char) :
    (cut inside (trim line)).met = (cut inside line).met := by
  have hshorn := congrArg Remains.met (shorn_cut_trim inside line)
  exact hshorn

/-- Trimming a line first leaves the same when what is kept is trimmed. -/
theorem trim_kept_cut_trim (inside : Bool) (line : List Char) :
    trim (cut inside (trim line)).kept = trim (cut inside line).kept := by
  have hshorn := congrArg Remains.kept (shorn_cut_trim inside line)
  exact hshorn

theorem splitOn_kept (hline : '\n' ∉ line) :
    splitOn '\n' (cut inside line).kept = [(cut inside line).kept] :=
  Text.splitOn_of_notMem fun hmem => hline (kept_subset inside line hmem)

/-- The lines of the pass are what the reader leaves of the lines, but for blanks at the ends. -/
theorem scan_joinWith {lines : List (List Char)} (hne : lines ≠ [])
    (hlines : ∀ line ∈ lines, '\n' ∉ line) (inside : Bool) :
    (splitOn '\n' (scan inside (joinWith ['\n'] lines)).kept).map trim =
        (cutAll inside lines).map (fun r => trim r.kept) ∧
      (scan inside (joinWith ['\n'] lines)).inside = insideAfter inside lines := by
  -- By induction on the lines: each leaves the pass inside a comment exactly where it leaves the
  -- reader there.
  induction lines generalizing inside with
  | nil => exact absurd rfl hne
  | cons line lines ih =>
      obtain ⟨hline, hrest⟩ := List.forall_mem_cons.mp hlines
      cases lines with
      | nil =>
          have hjoined : joinWith ['\n'] [line] = line := by simp [joinWith]
          rw [hjoined, scan_line hline]
          simp [splitOn_kept hline, cutAll, insideAfter, trim_kept_cut_trim, inside_cut_trim]
      | cons next lines =>
          have hjoined : joinWith ['\n'] (line :: next :: lines) =
              line ++ '\n' :: joinWith ['\n'] (next :: lines) := by
            simp [joinWith, List.intercalate_cons_cons]
          obtain ⟨hkept, hinside⟩ := ih (List.cons_ne_nil _ _) hrest (cut inside line).inside
          rw [hjoined, scan_append hline (by simp), scan_feed]
          constructor
          · rw [Text.splitOn_append, splitOn_kept hline, List.singleton_append, List.map_cons,
              hkept, cutAll_cons inside, List.map_cons, trim_kept_cut_trim, inside_cut_trim]
          · rw [insideAfter, List.foldl_cons, inside_cut_trim]
            exact hinside

/-- Each line is cut as the lines above leave off. -/
theorem getElem?_cutAll {lines : List (List Char)} {i : Nat} (h : lines[i]? = some line) :
    (cutAll inside lines)[i]? = some (cut (insideAfter inside (lines.take i)) (trim line)) := by
  induction lines generalizing inside i with
  | nil => cases h
  | cons first lines ih =>
      cases i with
      | zero =>
          cases h
          rfl
      | succ i => exact ih h

/-- A line as the reader goes on with it, if it does. -/
def Remains.line? (r : Remains) (line : Line) : Option Line :=
  match r.text? with
  | none => none
  | some text => if isLineComment text then none else some { line with text }

/-- The reader goes on with what is left of the lines. -/
theorem clear_eq (inside : Bool) (lines : List Line) :
    clear inside lines =
      (((cutAll inside (lines.map Line.text)).zip lines).filterMap fun p => p.1.line? p.2,
        insideAfter inside (lines.map Line.text)) := by
  induction lines generalizing inside with
  | nil => rfl
  | cons line lines ih =>
      rw [List.map_cons, cutAll_cons, List.zip_cons_cons, List.filterMap_cons, clear, ih]
      simp only [insideAfter, List.foldl_cons, Remains.line?]
      cases (cut inside (trim line.text)).text? with
      | none => rfl
      | some text =>
          cases hcomment : isLineComment text <;> simp [hcomment]

/-! ### Lines of nothing but comment -/

/-- A line is dropped where it met a comment and nothing but blanks is kept. -/
theorem text?_eq_none_iff {r : Remains} :
    r.text? = none ↔ r.met = true ∧ allBlank r.kept = true := by
  simp [Remains.text?, ← Text.trim_eq_nil_iff]

theorem eq_trim_of_text? {r : Remains} {text : List Char} (h : r.text? = some text) :
    text = trim r.kept := by
  rw [Remains.text?] at h
  split at h
  · cases h
  · exact (Option.some.inj h).symm

/-! ### The search on a line -/

/-- A search on a line: what is kept so far, whether a comment was met, whether the rest begins
inside one, and the rest of the line. -/
structure Search where
  kept : List Char
  met : Bool
  inside : Bool
  rest : List Char
deriving DecidableEq, Repr

namespace Search

/-- The search before its first turn. -/
def start (inside : Bool) (line : List Char) : Search :=
  ⟨[], false, inside, line⟩

/-- One turn of the search: it goes behind the next mark, if there is one. -/
def next? (s : Search) : Option Search :=
  (breakOn? (mark s.inside) s.rest).map fun (before, after) =>
    { kept := s.kept ++ if s.inside then [] else before
      met := s.met || s.inside
      inside := !s.inside
      rest := after }

/-- What the line leaves where no further mark is found. -/
def remains (s : Search) : Remains :=
  { kept := s.kept ++ if s.inside then [] else s.rest
    met := s.met || s.inside
    inside := s.inside }

/-- What the line will leave, if the rest is cut. -/
def outcome (s : Search) : Remains :=
  { kept := s.kept ++ (cut s.inside s.rest).kept
    met := s.met || (cut s.inside s.rest).met
    inside := (cut s.inside s.rest).inside }

/-- The turns of a search, and the search that is left where it ends. -/
inductive Loop : Search → (turns : Nat) → Search → Prop
  | halt {s : Search} (h : s.next? = none) : Loop s 0 s
  | turn {s t last : Search} {turns : Nat} (h : s.next? = some t) (tail : Loop t turns last) :
      Loop s (turns + 1) last

variable {s t : Search}

/-- A turn shortens the rest by a mark, and what the line will leave stays. -/
theorem next?_spec (h : s.next? = some t) :
    t.rest.length + 2 ≤ s.rest.length ∧ t.outcome = s.outcome := by
  obtain ⟨kept, met, inside, rest⟩ := s
  rw [next?, Option.map_eq_some_iff] at h
  obtain ⟨⟨before, after⟩, hbreak, rfl⟩ := h
  refine ⟨length_after hbreak, ?_⟩
  have hbefore := Text.not_infix_of_breakOn? (mark_ne_nil inside) hbreak
  have hrest := Text.eq_append_of_breakOn? hbreak
  dsimp only at hrest
  subst hrest
  cases inside <;> simp [outcome, cut_marked hbefore, met_cut_true]

/-- Without a further mark the rest is kept or lost as a whole. -/
theorem remains_of_next? (h : s.next? = none) : s.remains = s.outcome := by
  obtain ⟨kept, met, inside, rest⟩ := s
  have hrest := Text.not_infix_of_breakOn?_eq_none (Option.map_eq_none_iff.mp h)
  simp only [remains, outcome, cut_unmarked hrest]

/-- Every search ends, after a turn for two characters at the most. -/
theorem exists_loop (s : Search) :
    ∃ turns last, Loop s turns last ∧ 2 * turns ≤ s.rest.length ∧ last.remains = s.outcome := by
  cases hnext : s.next? with
  | none => exact ⟨0, s, .halt hnext, Nat.zero_le _, remains_of_next? hnext⟩
  | some t =>
      obtain ⟨hshorter, houtcome⟩ := next?_spec hnext
      obtain ⟨turns, last, hloop, hturns, hremains⟩ := exists_loop t
      exact ⟨turns + 1, last, .turn hnext hloop, by omega, hremains.trans houtcome⟩
termination_by s.rest.length

end Search

/-! ### Comments in one pass -/

theorem map_text_number (line start : Nat) (texts : List (List Char)) :
    (Line.number line start texts).map Line.text = texts := by
  induction texts generalizing line start with
  | nil => rfl
  | cons text texts ih => rw [Line.number, List.map_cons, ih]

/-- One pass over the source leaves the same lines as a cut of each. -/
theorem scan_splitOn (source : List Char) :
    (splitOn '\n' (scan false source).kept).map trim =
        (cutAll false (splitOn '\n' source)).map (fun r => trim r.kept) ∧
      (scan false source).inside = insideAfter false (splitOn '\n' source) := by
  have hjoined := scan_joinWith (Text.splitOn_ne_nil '\n' source)
    (fun _ h => Text.notMem_of_mem_splitOn h) false
  rwa [Text.joinWith_splitOn] at hjoined

/-- The pass over the lines in front of a line ends where the line begins. -/
theorem inside_scan_take {lines : List (List Char)} (h : ∀ line ∈ lines, '\n' ∉ line) (i : Nat) :
    (scan false (joinWith ['\n'] (lines.take i))).inside = insideAfter false (lines.take i) := by
  cases htake : lines.take i with
  | nil => exact congrArg Pass.inside (scan_nil false)
  | cons first rest =>
      have hpieces : ∀ line ∈ first :: rest, '\n' ∉ line := fun line hline =>
        h line (List.mem_of_mem_take (htake ▸ hline))
      exact (scan_joinWith (List.cons_ne_nil _ _) hpieces false).2

/-- The comments of a source are cut out line by line as in one pass over the source. The lines of
the pass are what the lines leave, but for blanks at the ends, and the reader goes on with these
lines, trimmed; it ends inside a comment exactly when the pass does. A line is dropped exactly when
the pass comes to it inside a comment, or opens one on it, and only blanks are left of the line.
The search on a line ends, after a turn for two characters at the most, and leaves what is
cut. -/
theorem comments_in_one_pass (source : List Char) :
    (splitOn '\n' (scan false source).kept).map trim =
        (cutAll false (splitOn '\n' source)).map (fun r => trim r.kept) ∧
      clear false (Line.ofSource source) =
        (((cutAll false (splitOn '\n' source)).zip (Line.ofSource source)).filterMap
          fun p => p.1.line? p.2, (scan false source).inside) ∧
      (∀ i line r, (splitOn '\n' source)[i]? = some line →
        (cutAll false (splitOn '\n' source))[i]? = some r →
        (r.text? = none ↔
          ((scan false (joinWith ['\n'] ((splitOn '\n' source).take i))).inside = true ∨
            mark false <:+: line) ∧ allBlank r.kept = true) ∧
        ∀ text, r.text? = some text → text = trim r.kept) ∧
      ∀ inside line, ∃ turns last, Search.Loop (.start inside line) turns last ∧
        2 * turns ≤ line.length ∧ last.remains = cut inside line := by
  obtain ⟨hkept, hinside⟩ := scan_splitOn source
  refine ⟨hkept, ?_, fun i line r hline hr => ?_, fun inside line => ?_⟩
  · rw [clear_eq, Line.ofSource, map_text_number, hinside]
  · obtain rfl := Option.some.inj ((getElem?_cutAll hline).symm.trans hr)
    refine ⟨?_, fun text htext => eq_trim_of_text? htext⟩
    rw [inside_scan_take (fun _ h => Text.notMem_of_mem_splitOn h), text?_eq_none_iff,
      met_cut_trim, met_cut_iff]
  · simpa [Search.start, Search.outcome] using Search.exists_loop (.start inside line)

/-! A comment over two lines, and on the second of them a mark whose star does not close again. -/

def adjacent : List Char :=
  "a/*b\nc*/ /*/\n*/d /* e */\n".toList

theorem comments_in_one_pass_adjacent :
    (splitOn '\n' (scan false adjacent).kept).map trim = [['a'], [], ['d'], []] ∧
      (scan false adjacent).inside = false ∧
      (cutAll false (splitOn '\n' adjacent))[1]? = some ⟨[' '], true, true⟩ ∧
      Remains.text? ⟨[' '], true, true⟩ = none := by
  obtain ⟨hkept, hclear, hdropped, -⟩ := comments_in_one_pass adjacent
  have hinside : (clear false (Line.ofSource adjacent)).2 = false := by decide +kernel
  have hremains : (cutAll false (splitOn '\n' adjacent))[1]? = some ⟨[' '], true, true⟩ := by
    decide +kernel
  have hopens : mark false <:+: "c*/ /*/".toList := by decide +kernel
  refine ⟨hkept.trans (by decide +kernel), ?_, hremains, ?_⟩
  · rwa [hclear] at hinside
  · exact (hdropped 1 _ _ rfl hremains).1.mpr ⟨.inr hopens, by decide⟩

end Parley.Comment
