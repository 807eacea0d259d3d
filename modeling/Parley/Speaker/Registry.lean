import Parley.Speaker.Basic
import Parley.Text.Lowercase
import Std.Data.TreeMap

/-!
# Speaker registry

Speakers are found by name or alias, without regard to letter case or to blanks around the name.
The first speaker that claims a name keeps it. An implicit registry makes up a speaker for every
name that nobody claimed.
-/

namespace Parley

/-- The speakers of a game in the order in which they were registered, and the names they are found
by. -/
structure Registry where
  speakers : List Speaker := []
  /-- For every claimed name in its folded form, the place of the speaker in the list. -/
  index : Std.TreeMap String Nat := {}
  implicit : Bool := false

namespace Registry

/-- The form in which names are compared. -/
def fold (name : String) : String :=
  String.ofList (Text.lowercase (Text.trim name.toList))

/-- Without a list of speakers every name is one. -/
def implicitly : Registry := { implicit := true }

/-- Adds a speaker. It claims its name and its aliases as far as nobody has claimed them before. -/
def register (r : Registry) (s : Speaker) : Registry :=
  let slot := r.speakers.length
  { r with
    speakers := r.speakers ++ [s]
    index := (s.name :: s.aliases).foldl (fun index name => index.insertIfNew (fold name) slot)
      r.index }

/-- The registry of a list of speakers. -/
def ofSpeakers (implicit : Bool) (speakers : List Speaker) : Registry :=
  speakers.foldl register { implicit }

/-- The speaker that a name stands for. A blank name stands for nobody unless it is claimed. -/
def resolve (r : Registry) (name : String) : Option Speaker :=
  let key := fold name
  match r.index[key]? with
  | some slot => r.speakers[slot]?
  | none =>
      if r.implicit && !key.isEmpty then
        some { name := String.ofList (Text.trim name.toList) }
      else none

end Registry

end Parley
