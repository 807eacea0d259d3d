import Parley.Text.Lowercase
import Parley.Text.WidthTable

/-!
# Terminal columns of a character

How many columns of a terminal a character takes on its own. Editions of the character database
differ in this, so the edition is named.
-/

namespace Parley.Text

/-- The editions of the character database that are in use. -/
inductive Edition where
  | fifteen
  | seventeen
deriving DecidableEq, Repr

/-- Whether a character takes no column. The tables are those of the later edition, with what was
different before. -/
def isWeightless (c : Char) : Edition → Bool
  | .seventeen => inRanges weightlessRanges c
  | .fifteen =>
      inRanges formerWeightlessRanges c ||
        inRanges weightlessRanges c && !inRanges laterWeightlessRanges c

def isWide (c : Char) : Edition → Bool
  | .seventeen => inRanges wideRanges c
  | .fifteen =>
      inRanges formerWideRanges c || inRanges wideRanges c && !inRanges laterWideRanges c

/-- The Khmer sign for "and so on" is a word of its own and the only character with three
columns. -/
def columns (e : Edition) (c : Char) : Nat :=
  if isWeightless c e then 0
  else if isWide c e then 2
  else if c = '\u17D8' then 3
  else 1

end Parley.Text
