/-!
# Nesting of quotes and parentheses

Inline code is split at commas and semicolons that stand outside quotes and parentheses. A
single scan tracks both; inside a quote only the same quote counts.

## Implementation notes

The depth is an integer without bounds. A counter of 32 bits keeps the same depth as long as fewer
than `2 ^ 31` parentheses are open at once, or closed too often.
-/

namespace Parley

/-- What is open at a place in a line of code. -/
structure Nesting where
  /-- Open parentheses less closed ones. -/
  depth : Int := 0
  /-- The quote that is open, if any. -/
  quote : Option Char := none
deriving DecidableEq, Repr

namespace Nesting

/-- Neither inside a quote nor inside parentheses. -/
def isTop (n : Nesting) : Bool :=
  n.depth == 0 && n.quote.isNone

/-- What is open behind one more character. Parentheses inside a quote are text. -/
def advance (n : Nesting) (c : Char) : Nesting :=
  match n.quote with
  | some q => if c = q then { n with quote := none } else n
  | none =>
      if c = '"' ∨ c = '\x27' then { n with quote := some c }
      else if c = '(' then { n with depth := n.depth + 1 }
      else if c = ')' then { n with depth := n.depth - 1 }
      else n

/-- What is open behind a text. -/
def after (n : Nesting) (cs : List Char) : Nesting :=
  cs.foldl advance n

theorem after_append (n : Nesting) (as bs : List Char) :
    n.after (as ++ bs) = (n.after as).after bs := by
  simp [after]

/-- The pieces between the separators at top level. There is always at least one. -/
def split (sep : Char) (n : Nesting) : List Char → List (List Char)
  | [] => [[]]
  | c :: cs =>
      if c = sep ∧ n.isTop = true then [] :: split sep n cs
      else
        match split sep (n.advance c) cs with
        | [] => [[c]]
        | piece :: pieces => (c :: piece) :: pieces

/-- No parenthesis closes before it opens, and in the end all is closed. -/
def balancedFrom (n : Nesting) : List Char → Bool
  | [] => n.isTop
  | c :: cs => decide (0 ≤ (n.advance c).depth) && balancedFrom (n.advance c) cs

end Nesting

/-- The pieces of a text between the separators outside of quotes and parentheses. -/
def splitTopLevel (sep : Char) (cs : List Char) : List (List Char) :=
  Nesting.split sep {} cs

/-- Whether the parentheses of a text match and its quotes are closed. -/
def balanced (cs : List Char) : Bool :=
  Nesting.balancedFrom {} cs

end Parley
