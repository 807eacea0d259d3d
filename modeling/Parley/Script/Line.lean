import Parley.Text.Blank
import Parley.Text.Span
import Parley.Text.Split

/-!
# Lines of a script

A script is read line by line. Every line knows its number, counted from one, and the bytes it
stands on, without its line feed.
-/

namespace Parley

open Text (Span byteLength)

/-- Where in a source something stands: the number of its line and the bytes of it. -/
structure Place where
  line : Nat
  span : Span
deriving DecidableEq, Repr

/-- A line of a source, or what is left of one, with the place of the whole line. -/
structure Line where
  place : Place
  text : List Char
deriving DecidableEq, Repr

namespace Line

/-- Numbers lines on from `line`, where the first begins at byte `start`. The line feed between two
lines is one byte. -/
def number (line start : Nat) : List (List Char) → List Line
  | [] => []
  | text :: texts =>
      let stop := start + byteLength text
      ⟨⟨line, ⟨start, stop⟩⟩, text⟩ :: number (line + 1) (stop + 1) texts

/-- The lines of a source. A line feed at the very end opens one more, which is empty. -/
def ofSource (source : List Char) : List Line :=
  number 1 0 (Text.splitOn '\n' source)

end Line

end Parley
