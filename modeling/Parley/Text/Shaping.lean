import Parley.Text.Columns
import Parley.Text.ShapeTable

/-!
# Shaping

How many columns a text takes when it is shown. Some characters join: the parts of an emoji
sequence take the columns of one picture, the letters of a ligature those of one letter, and a
selector changes the form of the character before it.

## Implementation notes

A text is read from its end, because what stands behind a character decides whether it joins.
What has been read so far matters only by its beginning, which is a value of `Shaping.Behind`.
-/

namespace Parley.Text

namespace Shaping

/-- The later letter of a ligature, alone or with what stands between it and the earlier one. -/
inductive Letter where
  | lamed
  | ya
  | yaWithVowel
  | tifinagh
  | tifinaghWithJoiner
  | toneLetter
  | orkhonI
  | khmer
deriving DecidableEq, Repr

/-- What the text behind a place begins with, as far as a character in front can join it. -/
inductive Kind where
  | plain
  | lineFeed
  | picture
  | skinTone
  /-- A regional indicator, with no other behind it when it is `alone`. -/
  | flagLetter (alone : Bool)
  /-- A joiner and a picture. -/
  | joinedPicture
  /-- What may end a picture that the joiner ties to the next: a keycap, regional indicators, or
  the tags of a flag. -/
  | joinedKeycap
  | joinedFlagLetter
  | joinedFlagLetters (odd : Bool)
  | joinedTagLetters (count : Nat)
  | joinedTagDigits (count : Nat)
  | alef
  | vowelE
  | vowelAi
  /-- A letter of a ligature; `joined` when a joiner stands before it. -/
  | letter (l : Letter) (joined : Bool)
deriving DecidableEq, Repr

/-- Invisible characters that ask for a form of the character before them: as a picture, as
text, or in two columns. -/
inductive Selector where
  | picture
  | text
  | wide
deriving DecidableEq, Repr

def Selector.ofChar? (c : Char) : Option Selector :=
  if c = '\uFE0F' then some .picture
  else if c = '\uFE0E' then some .text
  else if c = '\uFE01' then some .wide
  else none

/-- All that matters of the text behind a place. -/
structure Behind where
  kind : Kind := .plain
  /-- The selectors that stand in front of it. -/
  selectors : List Selector := []
deriving DecidableEq, Repr

/-! ### Classes of characters -/

def joiner : Char := '\u200D'

def isAmong (ranges : List (Nat × Nat)) (n : Nat) : Bool :=
  ranges.any fun (lo, hi) => lo ≤ n && n ≤ hi

/-- Regional indicators, which make the flag of a country in pairs. -/
def isFlagLetter (n : Nat) : Bool :=
  isAmong [(0x1F1E6, 0x1F1FF)] n

def isSkinTone (n : Nat) : Bool :=
  isAmong [(0x1F3FB, 0x1F3FF)] n

/-- Tags that spell the flag of a region behind a black flag. -/
def isTagLetter (n : Nat) : Bool :=
  isAmong [(0xE0061, 0xE007A)] n

def isTagDigit (n : Nat) : Bool :=
  isAmong [(0xE0030, 0xE0039)] n

def isAlef (n : Nat) : Bool :=
  isAmong [(0x622, 0x623), (0x625, 0x625), (0x627, 0x627), (0x671, 0x673), (0x675, 0x675),
    (0x773, 0x774), (0x870, 0x882)] n

def isLam (n : Nat) : Bool :=
  isAmong [(0x644, 0x644), (0x6B5, 0x6B8), (0x76A, 0x76A), (0x8A6, 0x8A6), (0x8C7, 0x8C7)] n

def isTifinagh (n : Nat) : Bool :=
  isAmong [(0x2D31, 0x2D65), (0x2D6F, 0x2D6F)] n

/-- Khmer letters that a sign before them puts below the line. -/
def isKhmer (n : Nat) : Bool :=
  isAmong [(0x1780, 0x1782), (0x1784, 0x1787), (0x1789, 0x178C), (0x178E, 0x1793),
    (0x1795, 0x1798), (0x179B, 0x179D), (0x17A0, 0x17A0), (0x17A2, 0x17A2), (0x17A7, 0x17A7),
    (0x17AB, 0x17AC), (0x17AF, 0x17AF)] n

/-- Invisible marks that do not part the letters of a ligature. -/
def isTransparent (n : Nat) : Bool :=
  isAmong [(0x34F, 0x34F), (0x17B4, 0x17B5), (0x180B, 0x180D), (0x180F, 0x180F),
    (0x200D, 0x200D), (0xFE00, 0xFE0F), (0xE0100, 0xE01EF)] n

/-- Marks on a letter, which leave a lam and its alef together. -/
def isMark (c : Char) : Bool :=
  isWeightless c .seventeen && !inRanges partingRanges c

/-- Whether a character is shown as a picture of two columns. -/
def isPicture (c : Char) : Bool :=
  inRanges pictureRanges c

/-- Whether a character has a form as text of one column besides its picture. -/
def hasTextForm (c : Char) : Bool :=
  isPicture c && inRanges selectableRanges c && !isAmong [(0x1F200, 0x1F2FF)] c.toNat

/-- Quotation marks, which have a form of two columns. -/
def hasWideForm (c : Char) : Bool :=
  c ∈ ['\u2018', '\u2019', '\u201C', '\u201D']

/-- What a text begins with that begins with the character. -/
def kindOf (c : Char) : Kind :=
  let n := c.toNat
  if isPicture c then .picture
  else if isSkinTone n then .skinTone
  else if isFlagLetter n then .flagLetter true
  else if isAlef n then .alef
  else if isTifinagh n then .letter .tifinagh false
  else if isKhmer n then .letter .khmer false
  else if n = 0x5DC then .letter .lamed false
  else if n = 0x1A10 then .letter .ya false
  else if n = 0xA4FC ∨ n = 0xA4FD then .letter .toneLetter false
  else if n = 0x10C03 then .letter .orkhonI false
  else if n = 0x16D67 then .vowelE
  else if n = 0x16D68 then .vowelAi
  else .plain

/-! ### Joining -/

/-- A character that joins an emoji sequence, with the columns it adds. Regional indicators are
read in pairs, so a column is taken back where the pairs turn out to lie otherwise. -/
def joinPicture? (c : Char) : Kind → Option (Int × Kind)
  | .picture => if c = joiner then some (0, .joinedPicture) else none
  | .skinTone =>
      if inRanges skinRanges c then some (0, .picture)
      else if c = joiner then some (0, .joinedPicture)
      else none
  | .flagLetter alone =>
      if isFlagLetter c.toNat then some (1, .flagLetter false)
      else if c = joiner ∧ !alone then some (0, .joinedPicture)
      else none
  | .joinedPicture =>
      if c.toNat = 0x20E3 then some (0, .joinedKeycap)
      else if isFlagLetter c.toNat then some (1, .joinedFlagLetter)
      else if isSkinTone c.toNat then some (0, .skinTone)
      else if c.toNat = 0xE007F then some (0, .joinedTagLetters 0)
      else if isPicture c then some (0, .picture)
      else none
  | .joinedFlagLetter =>
      if isFlagLetter c.toNat then some (-1, .joinedFlagLetters false) else none
  | .joinedFlagLetters odd =>
      if isFlagLetter c.toNat then some (if odd then -1 else 3, .joinedFlagLetters !odd)
      else if c = joiner then some (0, .joinedPicture)
      else none
  | .joinedTagLetters count =>
      if isTagLetter c.toNat ∧ count < 6 then some (0, .joinedTagLetters (count + 1))
      else if isTagDigit c.toNat ∧ count < 5 then some (0, .joinedTagDigits 1)
      else if c.toNat = 0x1F3F4 ∧ 3 ≤ count then some (0, .picture)
      else none
  | .joinedTagDigits count =>
      if isTagDigit c.toNat ∧ count < 3 then some (0, .joinedTagDigits (count + 1))
      else if c.toNat = 0x1F3F4 ∧ count = 3 then some (0, .picture)
      else none
  | _ => none

/-- An earlier letter that joins the later one of a ligature. Some ligatures need the joiner. -/
def joinLetter? (n : Nat) : Letter → (joined : Bool) → Option (Int × Kind)
  | .lamed, true => if n = 0x5D0 then some (0, .plain) else none
  | .ya, true => if n = 0x1A17 then some (0, .letter .yaWithVowel true) else none
  | .yaWithVowel, _ => if n = 0x1A15 then some (0, .plain) else none
  | .tifinagh, joined =>
      if n = 0x2D7F then some (1, .letter .tifinaghWithJoiner true)
      else if joined && isTifinagh n then some (0, .plain)
      else none
  | .tifinaghWithJoiner, _ => if isTifinagh n then some (-1, .plain) else none
  | .toneLetter, _ => if isAmong [(0xA4F8, 0xA4FB)] n then some (0, .plain) else none
  | .orkhonI, true => if n = 0x10C32 then some (0, .plain) else none
  | .khmer, _ => if n = 0x17D2 then some (-1, .plain) else none
  | _, _ => none

/-- A character that joins what stands behind it, with the columns it adds to it. -/
def join? (c : Char) : Kind → Option (Int × Kind)
  | .alef =>
      if isLam c.toNat then some (0, .plain)
      else if isMark c then some (0, .alef)
      else none
  | .vowelE =>
      if c.toNat = 0x16D63 ∨ c.toNat = 0x16D69 then some (0, .plain)
      else if c.toNat = 0x16D67 then some (0, .vowelAi)
      else if c.toNat = 0x16D68 then some (1, .vowelE)
      else none
  | .vowelAi => if c.toNat = 0x16D63 then some (0, .plain) else none
  | .letter l joined => joinLetter? c.toNat l joined
  | kind => joinPicture? c kind

/-! ### Reading from the end -/

def isLetter : Kind → Bool
  | .alef | .letter .. => true
  | _ => false

/-- Whether a picture in front becomes part of the one behind. -/
def isJoinedPicture : Kind → Bool
  | .joinedPicture | .joinedKeycap => true
  | _ => false

/-- Puts a selector in front. What is behind stays in reach if it is the letter of a ligature. -/
def Behind.select (b : Behind) (s : Selector) : Behind :=
  if isLetter b.kind then { b with selectors := s :: b.selectors }
  else if s = .picture ∧ isJoinedPicture b.kind then { b with selectors := [s] }
  else { selectors := [s] }

/-- Takes away a selector that has had its effect, or none. -/
def Behind.drop (b : Behind) (s : Selector) : Behind :=
  { b with selectors := b.selectors.filter (· ≠ s) }

/-- A character that joins nothing. -/
def alone (c : Char) : Int × Behind :=
  (columns .seventeen c, { kind := kindOf c })

/-- A control character takes a column, except that a carriage return in front of a line feed goes
with it. -/
def control (c : Char) (b : Behind) : Int × Behind :=
  if c = '\n' then (1, { kind := .lineFeed })
  else if c = '\r' ∧ b = { kind := .lineFeed } then (0, {})
  else (1, {})

/-- A character that no selector speaks to. -/
def settle (c : Char) (b : Behind) : Int × Behind :=
  match b.kind with
  | .letter l joined =>
      if c = joiner then (0, { b with kind := .letter l true })
      else if isTransparent c.toNat then (0, b)
      else if b.selectors ≠ [] then alone c
      else
        match joinLetter? c.toNat l joined with
        | some (added, kind) => (added, { kind })
        | none => alone c
  | kind =>
      if b.selectors ≠ [] then alone c
      else
        match join? c kind with
        | some (added, kind) => (added, { kind })
        | none => alone c

/-- A character behind which no selector asks for a picture. -/
def read (c : Char) (b : Behind) : Int × Behind :=
  if c ≤ '\u00A0' then control c b
  else
    match Selector.ofChar? c with
    | some s => (0, b.select s)
    | none =>
        if .text ∈ b.selectors then
          if hasTextForm c then (1, {}) else settle c (b.drop .text)
        else if .wide ∈ b.selectors then
          if hasWideForm c then (2, {}) else settle c (b.drop .wide)
        else settle c b

/-- The columns a character adds to the text behind it, and what that text begins with then. -/
def step (c : Char) (b : Behind) : Int × Behind :=
  if .picture ∈ b.selectors then
    if inRanges selectableRanges c then
      (if isJoinedPicture b.kind then 0 else 2, { kind := .picture })
    else read c (if isLetter b.kind then b.drop .picture else {})
  else read c b

/-- The columns of a text, with what it begins with. -/
def shape : List Char → Int × Behind
  | [] => (0, {})
  | c :: cs =>
      let (total, behind) := shape cs
      let (added, behind) := step c behind
      (total + added, behind)

end Shaping

/-- The columns that a text takes when it is shown. -/
def textColumns (cs : List Char) : Nat :=
  (Shaping.shape cs).1.toNat

end Parley.Text
