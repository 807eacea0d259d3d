import Parley.Expr.Token
import Parley.Text.Span

/-!
# Lexing

A source is cut into gaps, tokens and stray text. At every place the longest token wins, and a
keyword wins over a name of the same length. A character that begins no token is stray on its
own; a quote that is not closed on its line is stray together with the rest of that line.

The cuts come in source order with their spans, so that tokens, stray text and gaps together
tile the source.
-/

namespace Parley

open Text (Span Spanned byteLength)

/-- A piece of a source that is not a gap. -/
inductive Lexeme where
  | token (t : Token)
  | stray (text : String)
deriving DecidableEq

namespace Lexer

def isGap (c : Char) : Bool :=
  c == ' ' || c == '\t' || c == '\r' || c == '\n'

def isNameStart (c : Char) : Bool :=
  c.isAlpha || c == '_'

def isNameChar (c : Char) : Bool :=
  c.isAlphanum || c == '_' || c == '.'

/-- A name of the expression language. -/
def isName : List Char → Bool
  | [] => false
  | c :: cs => isNameStart c && cs.all isNameChar

/-- A lexeme at the head of a text, the characters it takes and those it leaves. -/
structure Cut where
  lexeme : Lexeme
  taken : List Char
  rest : List Char

/-- A word is a name unless it is one of the five keywords. -/
def wordToken (word : List Char) : Token :=
  match word with
  | ['o', 'r'] => .operator .or
  | ['a', 'n', 'd'] => .operator .and
  | ['n', 'o', 't'] => .not
  | ['t', 'r', 'u', 'e'] => .bool true
  | ['f', 'a', 'l', 's', 'e'] => .bool false
  | _ => .name (String.ofList word)

/-- The longest word that begins with the character. -/
def cutWord (c : Char) (cs : List Char) : Cut :=
  let word := c :: cs.takeWhile isNameChar
  ⟨.token (wordToken word), word, cs.dropWhile isNameChar⟩

/-- The number nearest to the digits. -/
def numberToken (digits : List Char) : Token :=
  .number ((Decimal.read? digits).getD 0)

/-- A point followed by at least one digit, with all its digits, and what is left. -/
def splitFraction : List Char → List Char × List Char
  | '.' :: d :: rest =>
      if d.isDigit then ('.' :: d :: rest.takeWhile Char.isDigit, rest.dropWhile Char.isDigit)
      else ([], '.' :: d :: rest)
  | cs => ([], cs)

/-- The longest run of digits, with a fraction if there is one. A number has no sign and no
exponent. -/
def cutNumber (c : Char) (cs : List Char) : Cut :=
  let (fraction, rest) := splitFraction (cs.dropWhile Char.isDigit)
  let digits := c :: cs.takeWhile Char.isDigit ++ fraction
  ⟨.token (numberToken digits), digits, rest⟩

def endsQuote (quote : Char) (c : Char) : Bool :=
  c == quote || c == '\n'

/-- A text up to the next quote of its kind. Nothing in it is escaped, and it ends on its line. -/
def cutQuote (quote : Char) (cs : List Char) : Cut :=
  let body := cs.takeWhile fun c => !endsQuote quote c
  match cs.dropWhile fun c => !endsQuote quote c with
  | [] => ⟨.stray (String.ofList (quote :: body)), quote :: body, []⟩
  | c :: rest =>
      if c = quote then
        ⟨.token (.string (String.ofList body)), quote :: body ++ [c], rest⟩
      else ⟨.stray (String.ofList (quote :: body)), quote :: body, c :: rest⟩

def pairToken? (c d : Char) : Option Token :=
  match c, d with
  | '|', '|' => some (.operator .or)
  | '&', '&' => some (.operator .and)
  | '=', '=' => some (.operator .equal)
  | '!', '=' => some (.operator .notEqual)
  | '<', '=' => some (.operator .lessEqual)
  | '>', '=' => some (.operator .greaterEqual)
  | _, _ => none

def charToken? (c : Char) : Option Token :=
  match c with
  | '(' => some .openParen
  | ')' => some .closeParen
  | '!' => some .not
  | '<' => some (.operator .less)
  | '>' => some (.operator .greater)
  | '+' => some (.operator .add)
  | '-' => some (.operator .sub)
  | '*' => some (.operator .mul)
  | '/' => some (.operator .div)
  | '%' => some (.operator .rem)
  | _ => none

def cutChar (c : Char) (cs : List Char) : Cut :=
  match charToken? c with
  | some t => ⟨.token t, [c], cs⟩
  | none => ⟨.stray (String.ofList [c]), [c], cs⟩

def cutSymbol (c : Char) : List Char → Cut
  | [] => cutChar c []
  | d :: rest =>
      match pairToken? c d with
      | some t => ⟨.token t, [c, d], rest⟩
      | none => cutChar c (d :: rest)

/-- The lexeme that begins with the character, which tells its kind. -/
def cut (c : Char) (cs : List Char) : Cut :=
  if isNameStart c then cutWord c cs
  else if c.isDigit then cutNumber c cs
  else if c = '"' ∨ c = '\x27' then cutQuote c cs
  else cutSymbol c cs

theorem cutWord_taken_append_rest (c : Char) (cs : List Char) :
    (cutWord c cs).taken ++ (cutWord c cs).rest = c :: cs := by
  simp [cutWord]

theorem splitFraction_append (cs : List Char) :
    (splitFraction cs).1 ++ (splitFraction cs).2 = cs := by
  unfold splitFraction
  split
  · split <;> simp
  · rfl

theorem cutNumber_taken_append_rest (c : Char) (cs : List Char) :
    (cutNumber c cs).taken ++ (cutNumber c cs).rest = c :: cs := by
  simp only [cutNumber, List.append_assoc, List.cons_append, splitFraction_append,
    List.takeWhile_append_dropWhile]

theorem cutQuote_taken_append_rest (q : Char) (cs : List Char) :
    (cutQuote q cs).taken ++ (cutQuote q cs).rest = q :: cs := by
  have whole := List.takeWhile_append_dropWhile (p := fun c => !endsQuote q c) (l := cs)
  unfold cutQuote
  split
  · next h => rw [h] at whole; simpa using whole
  · next c rest h =>
      rw [h] at whole
      split <;> simpa using whole

theorem cutSymbol_taken_append_rest (c : Char) (cs : List Char) :
    (cutSymbol c cs).taken ++ (cutSymbol c cs).rest = c :: cs := by
  have single : ∀ ds, (cutChar c ds).taken ++ (cutChar c ds).rest = c :: ds := by
    intro ds; unfold cutChar; split <;> rfl
  cases cs with
  | nil => exact single []
  | cons d rest =>
      simp only [cutSymbol]
      split
      · rfl
      · exact single _

/-- A cut loses and invents no character. -/
theorem cut_taken_append_rest (c : Char) (cs : List Char) :
    (cut c cs).taken ++ (cut c cs).rest = c :: cs := by
  unfold cut
  split
  · exact cutWord_taken_append_rest c cs
  · split
    · exact cutNumber_taken_append_rest c cs
    · split
      · exact cutQuote_taken_append_rest c cs
      · exact cutSymbol_taken_append_rest c cs

theorem cut_taken_ne_nil (c : Char) (cs : List Char) : (cut c cs).taken ≠ [] := by
  have single : ∀ ds, (cutChar c ds).taken ≠ [] := by
    intro ds; unfold cutChar; split <;> simp
  unfold cut cutWord cutNumber cutQuote
  split
  · simp
  · split
    · simp
    · split
      · split
        · simp
        · split <;> simp
      · cases cs with
        | nil => exact single []
        | cons d rest =>
            simp only [cutSymbol]
            split
            · simp
            · exact single _

theorem length_cut_rest_lt (c : Char) (cs : List Char) :
    (cut c cs).rest.length < (c :: cs).length := by
  have h := congrArg List.length (cut_taken_append_rest c cs)
  have hpos := List.length_pos_iff.mpr (cut_taken_ne_nil c cs)
  simp only [List.length_append] at h
  omega

/-- The lexemes of a text that begins at byte `pos`. -/
def lexemesFrom (pos : Nat) (cs : List Char) : List (Spanned Lexeme) :=
  match cs with
  | [] => []
  | c :: cs =>
      if isGap c then lexemesFrom (pos + c.utf8Size) cs
      else
        let cut := cut c cs
        let stop := pos + byteLength cut.taken
        ⟨⟨pos, stop⟩, cut.lexeme⟩ :: lexemesFrom stop cut.rest
termination_by cs.length
decreasing_by
  · simp
  · exact length_cut_rest_lt c cs

/-- All of a source that is not a gap, in order. -/
def lexemes (source : String) : List (Spanned Lexeme) :=
  lexemesFrom 0 source.toList

def tokens (lexemes : List (Spanned Lexeme)) : List (Spanned Token) :=
  lexemes.filterMap fun l =>
    match l.item with
    | .token t => some ⟨l.span, t⟩
    | .stray _ => none

def strays (lexemes : List (Spanned Lexeme)) : List (Spanned String) :=
  lexemes.filterMap fun l =>
    match l.item with
    | .token _ => none
    | .stray text => some ⟨l.span, text⟩

end Lexer

end Parley
