import Parley.Decimal.Read
import Parley.Text.Split

/-!
# TOML scalars

Numbers, truth values and dates are words: runs of characters that no blank, comma or bracket
interrupts. A word is checked against the forms TOML knows.
-/

namespace Parley.Toml

open Binary (twoPow)
open Text (splitOn breakOn? dropMark?)

def allDigits (cs : List Char) : Bool :=
  !cs.isEmpty && cs.all Char.isDigit

/-- Digits in which single underscores may stand between two of them. -/
def groupedBy (isDigit : Char → Bool) (cs : List Char) : Bool :=
  (splitOn '_' cs).all fun piece => !piece.isEmpty && piece.all isDigit

def ungroup (cs : List Char) : List Char :=
  cs.filter (· != '_')

/-- Decimal digits without a zero in front. -/
def isWhole (cs : List Char) : Bool :=
  groupedBy Char.isDigit cs && (cs.length == 1 || cs.head? != some '0')

def dropSign : List Char → List Char
  | '+' :: cs => cs
  | '-' :: cs => cs
  | cs => cs

/-- A whole number with a sign or without, within 64 bits. -/
def isDecimalInteger (cs : List Char) : Bool :=
  let digits := dropSign cs
  let size := Decimal.natOfDigits (ungroup digits)
  let limit := if cs.head? = some '-' then twoPow 63 else twoPow 63 - 1
  isWhole digits && size ≤ limit

/-- The value of a digit in bases up to sixteen. What is no digit has a value too large for any of
them. -/
def digitValue (c : Char) : Nat :=
  if c.isDigit then c.toNat - 0x30
  else if 'a' ≤ c ∧ c ≤ 'f' then c.toNat - 0x61 + 10
  else if 'A' ≤ c ∧ c ≤ 'F' then c.toNat - 0x41 + 10
  else 16

def natInBase (base : Nat) (digits : List Char) : Nat :=
  digits.foldl (fun n c => base * n + digitValue c) 0

/-- A whole number in base sixteen, eight or two, told by what stands behind the zero. It has no
sign. -/
def isBasedInteger (cs : List Char) : Bool :=
  let ofBase (base : Nat) (digits : List Char) :=
    groupedBy (fun c => digitValue c < base) digits &&
      natInBase base (ungroup digits) < twoPow 63
  match cs with
  | '0' :: 'x' :: digits => ofBase 16 digits
  | '0' :: 'o' :: digits => ofBase 8 digits
  | '0' :: 'b' :: digits => ofBase 2 digits
  | _ => false

def isExponent (cs : List Char) : Bool :=
  groupedBy Char.isDigit (dropSign cs)

/-- What may follow the whole part of a float: a fraction, an exponent, or both. -/
def isFloatTail (cs : List Char) : Bool :=
  match cs with
  | '.' :: rest =>
      let fraction := rest.takeWhile fun c => c.isDigit || c == '_'
      groupedBy Char.isDigit fraction &&
        match rest.dropWhile fun c => c.isDigit || c == '_' with
        | [] => true
        | c :: digits => (c == 'e' || c == 'E') && isExponent digits
  | c :: digits => (c == 'e' || c == 'E') && isExponent digits
  | [] => false

/-- A float too large to be told from infinity is refused when it is positive. -/
def isFloat (cs : List Char) : Bool :=
  let body := dropSign cs
  if body = ['i', 'n', 'f'] ∨ body = ['n', 'a', 'n'] then true
  else
    isWhole (body.takeWhile fun c => c.isDigit || c == '_') &&
      isFloatTail (body.dropWhile fun c => c.isDigit || c == '_') &&
      Decimal.read? (ungroup cs) != some (1.0 / 0.0)

/-! ### Dates and times -/

/-- A field of just so many digits, within bounds. -/
def isField (digits low high : Nat) (cs : List Char) : Bool :=
  cs.length == digits && allDigits cs && low ≤ Decimal.natOfDigits cs &&
    Decimal.natOfDigits cs ≤ high

def daysIn (year month : Nat) : Nat :=
  if month = 2 then
    if year % 4 = 0 ∧ (year % 100 ≠ 0 ∨ year % 400 = 0) then 29 else 28
  else if month = 4 ∨ month = 6 ∨ month = 9 ∨ month = 11 then 30
  else 31

def isDate (cs : List Char) : Bool :=
  match splitOn '-' cs with
  | [year, month, day] =>
      isField 4 0 9999 year && isField 2 1 12 month &&
        isField 2 1 (daysIn (Decimal.natOfDigits year) (Decimal.natOfDigits month)) day
  | _ => false

/-- A second may be sixty, and may have a fraction. -/
def isSecond (cs : List Char) : Bool :=
  match splitOn '.' cs with
  | [second] => isField 2 0 60 second
  | [second, fraction] => isField 2 0 60 second && allDigits fraction
  | _ => false

def isTime (cs : List Char) : Bool :=
  match splitOn ':' cs with
  | [hour, minute, second] => isField 2 0 23 hour && isField 2 0 59 minute && isSecond second
  | _ => false

def isClock (cs : List Char) : Bool :=
  match splitOn ':' cs with
  | [hour, minute] => isField 2 0 23 hour && isField 2 0 59 minute
  | _ => false

/-- A time with an optional offset behind it. -/
def isOffsetTime (cs : List Char) : Bool :=
  if cs.getLast? = some 'Z' ∨ cs.getLast? = some 'z' then isTime cs.dropLast
  else
    let time := cs.takeWhile fun c => c != '+' && c != '-'
    match cs.dropWhile fun c => c != '+' && c != '-' with
    | [] => isTime time
    | _ :: offset => isTime time && isClock offset

/-- A date alone, or with a time behind it. -/
def isDateTime (cs : List Char) : Bool :=
  isDate (cs.take 10) &&
    match cs.drop 10 with
    | [] => true
    | c :: time => (c == 'T' || c == 't' || c == ' ') && isOffsetTime time

/-- All words that are values. -/
def isScalar (cs : List Char) : Bool :=
  cs = ['t', 'r', 'u', 'e'] || cs = ['f', 'a', 'l', 's', 'e'] || isDecimalInteger cs ||
    isBasedInteger cs || isFloat cs || isDateTime cs || isTime cs

def isWordChar (c : Char) : Bool :=
  c.isAlphanum || c == '+' || c == '-' || c == '_' || c == '.' || c == ':'

/-- The word at the head of a text and the rest. A date takes in a time that one blank sets apart
from it. -/
def takeWord (cs : List Char) : List Char × List Char :=
  let word := cs.takeWhile isWordChar
  match cs.dropWhile isWordChar with
  | ' ' :: d :: rest =>
      if isDate word && d.isDigit then
        (word ++ ' ' :: (d :: rest).takeWhile isWordChar, (d :: rest).dropWhile isWordChar)
      else (word, ' ' :: d :: rest)
  | rest => (word, rest)

end Parley.Toml
