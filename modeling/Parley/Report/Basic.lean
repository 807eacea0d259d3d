import Parley.Report.Spot
import Parley.Script.Diagnostic
import Parley.Text.Columns

/-!
# Reports

A report shows a diagnostic together with the source line it is about, the span underlined and
the label below it.

## Implementation notes

Spans count bytes and a report counts characters, yet it takes a span's offsets as they are. In a
source of ASCII text the two agree.
-/

namespace Parley

namespace Report

/-- The part of a source that a report shows. -/
structure Excerpt where
  spot : Spot
  /-- The column behind the span. -/
  stop : Nat
deriving DecidableEq, Repr

/-- There is no excerpt for a span whose last character lies behind the source. -/
def excerpt? (source : List Char) (span : Text.Span) : Option Excerpt := do
  let spot ← spot? source span.start
  let _ ← spot? source (max span.start (span.stop - 1))
  some ⟨spot, spot.column + (span.stop - span.start)⟩

namespace Excerpt

/-- The line as it is shown, without the blanks at its end. -/
def line (e : Excerpt) : List Char :=
  Text.trimEnd e.spot.text

/-- The column that the span begins at. -/
def start (e : Excerpt) : Nat :=
  e.spot.column

/-- Where the label hangs. -/
def middle (e : Excerpt) : Nat :=
  (e.start + e.stop) / 2

/-- Whether a column belongs to the span. -/
def marks (e : Excerpt) (column : Nat) : Bool :=
  e.start ≤ column && column < e.stop

/-- Whether the span stays on its line. Only then the line is shown. -/
def staysOnLine (e : Excerpt) : Bool :=
  e.stop ≤ e.spot.text.length

/-- A tab reaches to the next multiple of four. -/
def columnsOf (column : Nat) (c : Char) : Nat :=
  if c = '\t' then 4 - column % 4
  else if Text.isBlank c then 1
  else Text.columns .fifteen c

/-- The columns below a character of the line. Behind its end every character has one. -/
def width (e : Excerpt) (column : Nat) : Nat :=
  match e.line[column]? with
  | some c => columnsOf column c
  | none => 1

end Excerpt

/-! ### Colours -/

/-- What the parts of a report are painted in. How grave a problem is decides its colour. -/
inductive Ink where
  | problem (s : Severity)
  | frame
  | margin
  | source
deriving DecidableEq

def Ink.code : Ink → List Char
  | .problem .warning => ['3', '3']
  | .problem .error => ['3', '1']
  | .frame => ['3', '8', ';', '5', ';', '2', '4', '6']
  | .margin => ['3', '8', ';', '5', ';', '2', '4', '0']
  | .source => ['3', '8', ';', '5', ';', '2', '4', '9']

/-- A text between the sequences that switch its colour on and everything off. -/
def Ink.paint (ink : Ink) (cs : List Char) : List Char :=
  ['\x1b', '['] ++ ink.code ++ ['m'] ++ cs ++ ['\x1b', '[', '0', 'm']

def blanks (n : Nat) : List Char :=
  List.replicate n ' '

/-- Each glyph is painted on its own. -/
def paintEach (ink : Ink) (cs : List Char) : List Char :=
  cs.flatMap fun c => ink.paint [c]

/-- A glyph with tails behind it that fill `width` columns. -/
def stretch (width : Nat) (head tail : List Char) : List Char :=
  match width with
  | 0 => []
  | n + 1 => head ++ (List.replicate n tail).flatten

end Report

/-- A diagnostic as it is shown to the author of a script. -/
structure Report where
  file : String
  severity : Severity
  message : String
  label : String
  excerpt : Option Report.Excerpt

namespace Report

/-- A report is labelled with what became of the construct, or else with the message once more. -/
def ofDiagnostic (file : String) (source : List Char) (d : Diagnostic) : Report where
  file
  severity := d.severity
  message := d.message
  label := d.problem.label.getD d.message
  excerpt := excerpt? source d.place.span

def ink (r : Report) : Ink :=
  .problem r.severity

/-- How grave it is, and the message. -/
def title (r : Report) : List Char :=
  let word := match r.severity with | .error => "Error:" | .warning => "Warning:"
  r.ink.paint word.toList ++ ' ' :: r.message.toList

/-! ### The lines of an excerpt -/

def number (n : Nat) : List Char :=
  (toString n).toList

/-- The line's number, counted from one. -/
def lineNumber (e : Excerpt) : List Char :=
  number (e.spot.line + 1)

/-- The file with the line and the column, both counted from one, in the corner of the frame. -/
def header (r : Report) (e : Excerpt) : List Char :=
  blanks ((lineNumber e).length + 2) ++ paintEach .frame ['╭', '─', '['] ++
    ' ' :: r.file.toList ++ ':' :: lineNumber e ++ ':' :: number (e.spot.column + 1) ++
    ' ' :: paintEach .frame [']']

/-- The frame between the header and the line. -/
def rule (e : Excerpt) : List Char :=
  blanks ((lineNumber e).length + 2) ++ paintEach .frame ['│']

/-- Blanks are shown as plain blanks, a tab as the columns it fills. -/
def paintChar (r : Report) (e : Excerpt) (column : Nat) (c : Char) : List Char :=
  let ink := if e.marks column then r.ink else .source
  if Text.isBlank c then paintEach ink (blanks (Excerpt.columnsOf column c)) else ink.paint [c]

/-- The rest of the line, from a column on. -/
def paintFrom (r : Report) (e : Excerpt) (column : Nat) : List Char → List Char
  | [] => []
  | c :: cs => r.paintChar e column c ++ r.paintFrom e (column + 1) cs

def sourceLine (r : Report) (e : Excerpt) : List Char :=
  ' ' :: Ink.frame.paint (lineNumber e ++ [' ', '│']) ++ ' ' :: r.paintFrom e 0 e.line

/-- A line of the report that shows none of the source. -/
def marginLine (e : Excerpt) (content : List Char) : List Char :=
  ' ' :: Ink.margin.paint (blanks (lineNumber e).length ++ [' ', '│']) ++ ' ' :: content

/-- The columns that the two lines below the source line have: two more than lead to the end of
the span. -/
def belowColumns (e : Excerpt) : List Nat :=
  List.range (e.stop + 2)

/-- The span underlined, with a branch for the label; an empty span has the branch only. -/
def underline (r : Report) (e : Excerpt) : List Char :=
  marginLine e <| (belowColumns e).flatMap fun column =>
    let glyphs (head tail : Char) :=
      stretch (e.width column) (r.ink.paint [head]) (r.ink.paint [tail])
    if column = e.middle then
      if e.marks column then glyphs '┬' '─' else glyphs '│' ' '
    else if e.marks column then glyphs '─' '─'
    else blanks (e.width column)

/-- The label, at the end of a branch that hangs below the middle of the span. -/
def labelLine (r : Report) (e : Excerpt) : List Char :=
  let lead := (belowColumns e).flatMap fun column =>
    let glyphs (head : Char) :=
      stretch (e.width column) (r.ink.paint [head]) (r.ink.paint ['─'])
    if column < e.middle then blanks (e.width column)
    else if column = e.middle then glyphs '╰'
    else glyphs '─'
  marginLine e (lead ++ ' ' :: r.label.toList)

def footer (e : Excerpt) : List Char :=
  Ink.frame.paint (List.replicate ((lineNumber e).length + 2) '─' ++ ['╯'])

/-- The line with the span underlined, or an empty one for a span that leaves its line. -/
def bodyLines (r : Report) (e : Excerpt) : List (List Char) :=
  if e.staysOnLine then [r.sourceLine e, r.underline e, r.labelLine e] else [marginLine e []]

def excerptLines (r : Report) (e : Excerpt) : List (List Char) :=
  [r.header e, rule e] ++ r.bodyLines e ++ [footer e]

def textLines (r : Report) : List (List Char) :=
  r.title :: (r.excerpt.map r.excerptLines).getD []

/-- All lines of a report. Each ends in a line feed, the last one too. -/
def text (r : Report) : List Char :=
  r.textLines.flatMap fun line => line ++ ['\n']

/-- The reports of all diagnostics of a source, one after another. -/
def ofDiagnostics (file : String) (source : List Char) (ds : List Diagnostic) : List Char :=
  ds.flatMap fun d => (ofDiagnostic file source d).text

end Report

end Parley
