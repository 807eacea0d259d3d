import Parley.Text.Blank

/-!
# Speakers
-/

namespace Parley

/-- Someone who says the lines of a dialogue. The colour is a hint for displays. -/
structure Speaker where
  name : String
  aliases : List String := []
  color : Option String := none
deriving DecidableEq, Repr, Inhabited

namespace Speaker

/-- Equality up to the case of ASCII letters. -/
def sameLetters (a b : String) : Bool :=
  a.toList.map Char.toLower == b.toList.map Char.toLower

/-- Whether a name, blanks around it aside, is the speaker's own or one of the aliases. -/
def answersTo (s : Speaker) (name : String) : Bool :=
  let query := String.ofList (Text.trim name.toList)
  (s.name :: s.aliases).any fun own => sameLetters own query

end Speaker

end Parley
