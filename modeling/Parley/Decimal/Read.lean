import Parley.Binary.Power

/-!
# Reading a number

A number is an optional sign followed by `inf`, `infinity` or `nan` in any case, or by digits
with at most one point and an optional exponent. At least one digit stands before the exponent,
and one in it.
-/

namespace Parley.Decimal

/-- What a numeral denotes before it is rounded: `digits * 10 ^ exponent` with a sign. -/
inductive Numeral where
  | nan
  | infinite (negative : Bool)
  | finite (negative : Bool) (digits : Nat) (exponent : Int)
deriving DecidableEq, Repr

/-- The number that digits stand for, in tens. -/
def natOfDigits (digits : List Char) : Nat :=
  digits.foldl (fun n c => 10 * n + (c.toNat - '0'.toNat)) 0

/-- The sign in front of a numeral, if any, and the rest. -/
def takeSign : List Char → Bool × List Char
  | '+' :: cs => (false, cs)
  | '-' :: cs => (true, cs)
  | cs => (false, cs)

/-- The exponent part: nothing, or `e`, a sign and digits up to the end. -/
def exponent? : List Char → Option Int
  | [] => some 0
  | c :: cs =>
      if c = 'e' ∨ c = 'E' then
        let (negative, digits) := takeSign cs
        if digits.isEmpty || !digits.all Char.isDigit then none
        else
          let size : Int := natOfDigits digits
          some (if negative then -size else size)
      else none

/-- Digits with at most one point between, before or behind them, and an exponent. -/
def finite? (negative : Bool) (cs : List Char) : Option Numeral :=
  let whole := cs.takeWhile Char.isDigit
  let afterWhole := cs.dropWhile Char.isDigit
  let (fraction, tail) :=
    match afterWhole with
    | '.' :: rest => (rest.takeWhile Char.isDigit, rest.dropWhile Char.isDigit)
    | rest => ([], rest)
  if whole.isEmpty && fraction.isEmpty then none
  else
    (exponent? tail).map fun e =>
      .finite negative (natOfDigits (whole ++ fraction)) (e - fraction.length)

/-- A numeral that takes up all of the text. -/
def numeral? (cs : List Char) : Option Numeral :=
  let (negative, rest) := takeSign cs
  let word := rest.map Char.toLower
  if word = ['n', 'a', 'n'] then some .nan
  else if word = ['i', 'n', 'f'] ∨ word = ['i', 'n', 'f', 'i', 'n', 'i', 't', 'y'] then
    some (.infinite negative)
  else finite? negative rest

/-- Rounds a finite numeral with `round`. Beyond `10 ^ 400` and below `10 ^ (-400)` the size no
longer matters, and the power of ten is not computed. -/
def roundWith {α : Type} (round : Nat → Bool → Nat → α) (huge tiny : α) (digits : Nat)
    (exponent : Int) : α :=
  let places : Int := (Nat.toDigits 10 digits).length
  if digits = 0 then tiny
  else if 400 < exponent + places then huge
  else if exponent + places < -400 then tiny
  else if 0 ≤ exponent then round digits false exponent.toNat
  else round digits true (-exponent).toNat

/-- The double-precision number nearest to the numeral. -/
def Numeral.toFloat : Numeral → Float
  | .nan => 0.0 / 0.0
  | .infinite negative => if negative then -(1.0 / 0.0) else 1.0 / 0.0
  | .finite negative digits exponent =>
      let size := roundWith Float.ofScientific (1.0 / 0.0) 0.0 digits exponent
      if negative then -size else size

def Numeral.toSingle : Numeral → Float32
  | .nan => 0.0 / 0.0
  | .infinite negative => if negative then -(1.0 / 0.0) else 1.0 / 0.0
  | .finite negative digits exponent =>
      let size := roundWith Float32.ofScientific (1.0 / 0.0) 0.0 digits exponent
      if negative then -size else size

/-- The number that a text reads as, blanks not allowed. -/
def read? (cs : List Char) : Option Float :=
  (numeral? cs).map Numeral.toFloat

def readSingle? (cs : List Char) : Option Float32 :=
  (numeral? cs).map Numeral.toSingle

/-- A natural number below `2 ^ 64`, with a plus sign in front or without. -/
def natural? (cs : List Char) : Option Nat :=
  let digits :=
    match cs with
    | '+' :: rest => rest
    | _ => cs
  if digits.isEmpty || !digits.all Char.isDigit then none
  else if natOfDigits digits < Binary.twoPow 64 then some (natOfDigits digits)
  else none

end Parley.Decimal
