import Parley.Script.Line

/-!
# Comments

A block comment reaches from `/*` to the next `*/` after it, over line ends as well. A line of
which comments leave nothing disappears, so that it is not taken for a blank line. A line that
then begins with `//` disappears too.
-/

namespace Parley.Comment

/-- What a line leaves when its comments are cut out. -/
structure Remains where
  kept : List Char
  /-- Whether any part of the line stood in a comment. -/
  met : Bool
  /-- Whether the line ends inside a comment. -/
  inside : Bool
deriving DecidableEq, Repr

/-- Cuts the comments out of a line that begins inside a comment or not. -/
def cut : (inside : Bool) → List Char → Remains
  | inside, [] => ⟨[], inside, inside⟩
  | false, '/' :: '*' :: cs => { cut true cs with met := true }
  | false, c :: cs =>
      let remains := cut false cs
      { remains with kept := c :: remains.kept }
  | true, '*' :: '/' :: cs => { cut false cs with met := true }
  | true, _ :: cs => { cut true cs with met := true }

/-- The text of a line without its comments, unless nothing but comment stood on it. -/
def Remains.text? (r : Remains) : Option (List Char) :=
  let text := Text.trim r.kept
  if r.met && text.isEmpty then none else some text

/-- Whether a line is commented out as a whole, once block comments are cut from it. -/
def isLineComment : List Char → Bool
  | '/' :: '/' :: _ => true
  | _ => false

/-- The lines that comments leave, trimmed, and whether the last one ends inside a comment. -/
def clear : (inside : Bool) → List Line → List Line × Bool
  | inside, [] => ([], inside)
  | inside, line :: lines =>
      let remains := cut inside (Text.trim line.text)
      let (rest, last) := clear remains.inside lines
      match remains.text? with
      | none => (rest, last)
      | some text =>
          if isLineComment text then (rest, last) else ({ line with text } :: rest, last)

end Parley.Comment
