/-!
# Cutting a text

A text is cut at every occurrence of a character, or at the first occurrence of a mark. Both
cuts lose the separator and nothing else.
-/

namespace Parley.Text

/-- The pieces between the occurrences of `sep`; there is one more of them than occurrences. -/
def splitOn (sep : Char) : List Char → List (List Char)
  | [] => [[]]
  | c :: cs =>
      if c = sep then [] :: splitOn sep cs
      else
        match splitOn sep cs with
        | [] => [[c]]
        | piece :: pieces => (c :: piece) :: pieces

theorem splitOn_ne_nil (sep : Char) (cs : List Char) : splitOn sep cs ≠ [] := by
  cases cs with
  | nil => simp [splitOn]
  | cons c cs => unfold splitOn; split <;> (try split) <;> simp

/-- The text after `mark`, if it begins so. -/
def dropMark? : List Char → List Char → Option (List Char)
  | [], cs => some cs
  | _ :: _, [] => none
  | m :: mark, c :: cs => if m = c then dropMark? mark cs else none

theorem dropMark?_eq_some_iff {mark cs rest : List Char} :
    dropMark? mark cs = some rest ↔ cs = mark ++ rest := by
  induction mark generalizing cs with
  | nil => simp [dropMark?]
  | cons m mark ih =>
      cases cs with
      | nil => simp [dropMark?]
      | cons c cs =>
          by_cases h : m = c
          · simp [dropMark?, h, ih]
          · simp [dropMark?, h, Ne.symm h]

/-- The text before the first occurrence of `mark` and the text after it. -/
def breakOn? (mark : List Char) : List Char → Option (List Char × List Char)
  | [] => if mark.isEmpty then some ([], []) else none
  | c :: cs =>
      match dropMark? mark (c :: cs) with
      | some rest => some ([], rest)
      | none => (breakOn? mark cs).map fun (before, after) => (c :: before, after)

/-- The text without `mark` at its end, if it ends so. -/
def dropLast? (mark : Char) (cs : List Char) : Option (List Char) :=
  if cs.getLast? = some mark then some cs.dropLast else none

/-- The pieces one behind another, with the separator between any two. -/
def joinWith (sep : List Char) (pieces : List (List Char)) : List Char :=
  sep.intercalate pieces

/-- The lines of a text: each ends at a line feed, a carriage return before it belongs to the
line end, and a final line feed opens no further line. -/
def lines (cs : List Char) : List (List Char) :=
  let pieces := splitOn '\n' cs
  let ended := pieces.dropLast.map fun piece => (dropLast? '\r' piece).getD piece
  match pieces.getLast? with
  | some (c :: rest) => ended ++ [c :: rest]
  | _ => ended

end Parley.Text
