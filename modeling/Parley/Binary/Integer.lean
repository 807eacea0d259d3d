import Parley.Binary.Format

/-!
# Floats against whole numbers

The part of a float before the point, and the remainder of a division whose quotient is whole.
Both are exact.
-/

namespace Parley.Binary

/-- The whole part, toward zero. -/
def Shape.truncate? : Shape → Option Int
  | .finite negative mantissa exponent =>
      let size : Nat :=
        if 0 ≤ exponent then mantissa * twoPow exponent.toNat
        else mantissa / twoPow (-exponent).toNat
      some (if negative then -(size : Int) else size)
  | _ => none

/-- The 64-bit integer nearest to the whole part of a float. What is not a number counts as
zero. -/
def toInt64 (x : Float) : Int64 :=
  match shape x with
  | .nan => 0
  | .infinite negative => if negative then Int64.minValue else Int64.maxValue
  | s =>
      let whole := s.truncate?.getD 0
      if whole < Int64.minValue.toInt then Int64.minValue
      else if Int64.maxValue.toInt < whole then Int64.maxValue
      else Int64.ofInt whole

/-- What is left of `x` after taking away `y` a whole number of times, with the sign of `x`. -/
def remainder (x y : Float) : Float :=
  match shape x, shape y with
  | .finite negative m e, .finite _ n g =>
      if n = 0 then 0.0 / 0.0
      else
        let low := min e g
        let left := m * twoPow (e - low).toNat % (n * twoPow (g - low).toNat)
        ofFinite negative left low
  | .finite _ _ _, .infinite _ => x
  | _, _ => 0.0 / 0.0

end Parley.Binary
