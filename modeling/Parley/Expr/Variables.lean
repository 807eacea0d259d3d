import Parley.Expr.Value
import Std.Data.TreeMap

/-!
# Variables

The variables of a script map names to values. An expression sees them only through a lookup.
-/

namespace Parley

/-- What an expression sees of the variables around it. -/
abbrev Environment := String → Option Value

/-- The variables that are set, with their values. -/
structure Variables where
  entries : Std.TreeMap String Value := {}

namespace Variables

def lookup (vars : Variables) : Environment :=
  fun name => vars.entries[name]?

/-- Sets a variable, over the value it may have had. -/
def set (vars : Variables) (name : String) (v : Value) : Variables :=
  ⟨vars.entries.insert name v⟩

def erase (vars : Variables) (name : String) : Variables :=
  ⟨vars.entries.erase name⟩

/-- The variables of a list. Where a name comes twice the later value counts. -/
def ofList (entries : List (String × Value)) : Variables :=
  entries.foldl (fun vars (name, v) => vars.set name v) {}

/-- The variables in the order of their names. -/
def toList (vars : Variables) : List (String × Value) :=
  vars.entries.toList

def size (vars : Variables) : Nat :=
  vars.entries.size

def isEmpty (vars : Variables) : Bool :=
  vars.entries.isEmpty

theorem lookup_set (vars : Variables) (name other : String) (v : Value) :
    (vars.set name v).lookup other = if name = other then some v else vars.lookup other := by
  simp [lookup, set, Std.TreeMap.getElem?_insert]

end Variables

end Parley
