import Parley.Text.Blank

/-!
# Spots

Where a character stands in a source, as a report shows it: the line, and the place within the
line. A report knows more line ends than a script does.
-/

namespace Parley.Report

/-- The characters that a line can end in. -/
def isLineEnd (c : Char) : Bool :=
  c ∈ ['\n', '\x0B', '\x0C', '\r', '\u0085', '\u2028', '\u2029']

/-- The lines, each with its end. A carriage return and a line feed are one end together. -/
def lines : List Char → List (List Char)
  | [] => []
  | '\r' :: '\n' :: cs => ['\r', '\n'] :: lines cs
  | c :: cs =>
      if isLineEnd c then [c] :: lines cs
      else
        match lines cs with
        | [] => [[c]]
        | line :: rest => (c :: line) :: rest

theorem flatten_lines (cs : List Char) : (lines cs).flatten = cs := by
  fun_induction lines cs with
  | case1 => rfl
  | case2 cs ih => simp [ih]
  | case3 c cs _ _ ih => simp [ih]
  | case4 c cs _ _ h ih => simpa [h] using ih
  | case5 c cs _ _ line rest h ih => simpa [h] using ih

/-- A place in a source together with the line it is on. -/
structure Spot where
  /-- Counted from zero. -/
  line : Nat
  /-- How many characters of the line stand before the spot. -/
  column : Nat
  /-- The line with its end. -/
  text : List Char
deriving DecidableEq, Repr

/-- The spot `offset` characters into lines that are counted from `line` on. The end of the last
line belongs to it; there is nothing behind. -/
def spotFrom (line offset : Nat) : List (List Char) → Option Spot
  | [] => if offset = 0 then some ⟨line, 0, []⟩ else none
  | [text] => if offset ≤ text.length then some ⟨line, offset, text⟩ else none
  | text :: rest =>
      if offset < text.length then some ⟨line, offset, text⟩
      else spotFrom (line + 1) (offset - text.length) rest

/-- The spot of a character of the source, or of its end. -/
def spot? (source : List Char) (offset : Nat) : Option Spot :=
  spotFrom 0 offset (lines source)

theorem spotFrom_isSome_iff (line offset : Nat) (texts : List (List Char)) :
    (spotFrom line offset texts).isSome ↔ offset ≤ texts.flatten.length := by
  fun_induction spotFrom line offset texts <;> simp_all <;> omega

theorem spot?_isSome_iff (source : List Char) (offset : Nat) :
    (spot? source offset).isSome ↔ offset ≤ source.length := by
  rw [spot?, spotFrom_isSome_iff, flatten_lines]

end Parley.Report
