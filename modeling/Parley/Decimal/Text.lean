import Parley.Decimal.Shortest

/-!
# Written form of a number

A number is written with the fewest digits that read back as the same number. The digits stand
in their places: there is never an exponent, and a whole number has no point.
-/

namespace Parley.Decimal

open Parley.Binary (Format Shape)

/-- The digits of `n * 10 ^ k` in their places. -/
def positional (n : Nat) (k : Int) : List Char :=
  let digits := Nat.toDigits 10 n
  if 0 ≤ k then digits ++ List.replicate k.toNat '0'
  else
    let places := (-k).toNat
    if places < digits.length then
      digits.take (digits.length - places) ++ '.' :: digits.drop (digits.length - places)
    else '0' :: '.' :: List.replicate (places - digits.length) '0' ++ digits

def signed (negative : Bool) (cs : List Char) : List Char :=
  if negative then '-' :: cs else cs

/-- The three numbers without digits have a word each; zero keeps its sign. -/
def textOfShape (f : Format) : Shape → List Char
  | .nan => ['N', 'a', 'N']
  | .infinite negative => signed negative ['i', 'n', 'f']
  | .finite negative mantissa exponent =>
      signed negative <|
        if mantissa = 0 then ['0']
        else
          let (n, k) := shortest f mantissa exponent
          positional n k

/-- The text of a double-precision number. -/
def text (x : Float) : String :=
  String.ofList (textOfShape Format.double (Format.double.decode x.toBits.toNat))

def textOfSingle (x : Float32) : String :=
  String.ofList (textOfShape Format.single (Format.single.decode x.toBits.toNat))

end Parley.Decimal
