/-!
# TOML trees

A document is a table of entries. Headers and dotted keys open tables on the way to what they
name; which of them may be opened again follows from how they came to be.
-/

namespace Parley.Toml

/-- A value, or a table with how it was opened. -/
inductive Node where
  | text (s : String)
  /-- A number, truth value or date; nothing here looks into it. -/
  | scalar
  | list (items : List Node)
  | inlineTable (entries : List (String × Node))
  /-- An implicit table has no header of its own, a dotted one was opened by a dotted key. -/
  | table (implicit dotted : Bool) (entries : List (String × Node))
  /-- The tables of a repeated `[[header]]`. -/
  | tables (items : List (List (String × Node)))

/-- The entries of a table, in the order in which their keys first came. -/
abbrev Entries := List (String × Node)

namespace Entries

def replace (key : String) (node : Node) : Entries → Entries
  | [] => []
  | (k, n) :: rest => if k = key then (k, node) :: rest else (k, n) :: replace key node rest

/-- Puts a node under a key, at the end when the key is new. -/
def put (key : String) (node : Node) (es : Entries) : Entries :=
  if (es.lookup key).isSome then es.replace key node else es ++ [(key, node)]

end Entries

/-- Changes the table a path leads to. Tables on the way are opened where there are none. A
dotted key may not pass through a table that has a header; a repeated header is entered at its
latest table. `edit` is told whether a dotted key opened the table. -/
def editAt (dotted : Bool) (edit : Bool → Entries → Option Entries) :
    List String → Bool → Entries → Option Entries
  | [], opened, es => edit opened es
  | key :: path, _, es =>
      match es.lookup key with
      | none =>
          (editAt dotted edit path dotted []).map fun sub =>
            es.put key (.table true dotted sub)
      | some (.table implicit opened sub) =>
          if dotted && !implicit then none
          else
            (editAt dotted edit path opened sub).map fun sub =>
              es.put key (.table implicit opened sub)
      | some (.tables items) =>
          match items.getLast? with
          | none => none
          | some latest =>
              (editAt dotted edit path false latest).map fun latest =>
                es.put key (.tables (items.dropLast ++ [latest]))
      | some _ => none

/-- A key with a value; the key may be dotted. -/
structure Assignment where
  path : List String
  key : String
  value : Node

/-- Adds an assignment to a table. The table it goes to must come from dotted keys exactly when
there are dots in the key, and must not have the key yet. -/
def Assignment.addTo (a : Assignment) (es : Entries) : Option Entries :=
  editAt true
    (fun opened es =>
      if opened == a.path.isEmpty || (es.lookup a.key).isSome then none
      else some (es.put a.key a.value))
    a.path false es

/-- Adds assignments one by one. One that may not be added refuses them all. -/
def addAll (assignments : List Assignment) (es : Entries) : Option Entries :=
  assignments.foldlM (fun es a => a.addTo es) es

/-- A header with the assignments under it. -/
structure Block where
  /-- Whether the header is doubled and so repeatable. -/
  repeated : Bool
  path : List String
  key : String
  assignments : List Assignment

/-- Adds a block to a document. A plain header may only name a table that exists just because
something below it was named before. -/
def Block.addTo (b : Block) (root : Entries) : Option Entries :=
  editAt false
    (fun _ es =>
      match b.repeated, es.lookup b.key with
      | false, none => (addAll b.assignments []).map fun t => es.put b.key (.table false false t)
      | false, some (.table true false t) =>
          (addAll b.assignments t).map fun t => es.put b.key (.table false false t)
      | true, none => (addAll b.assignments []).map fun t => es.put b.key (.tables [t])
      | true, some (.tables items) =>
          (addAll b.assignments []).map fun t => es.put b.key (.tables (items ++ [t]))
      | _, some _ => none)
    b.path false root

end Parley.Toml
