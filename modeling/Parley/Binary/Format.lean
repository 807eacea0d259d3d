import Parley.Binary.Power

/-!
# Binary floating point

A float is read through its bits as a sign, a whole mantissa and a power of two, so that what is
computed from it is exact integer arithmetic.
-/

namespace Parley.Binary

/-- How many bits hold the fraction and how many the exponent. -/
structure Format where
  fractionBits : Nat
  exponentBits : Nat

namespace Format

/-- The 64-bit format. -/
def double : Format := ⟨52, 11⟩

def single : Format := ⟨23, 8⟩

/-- The exponent of the numbers nearest to zero, whose mantissas are whole. -/
def minExponent (f : Format) : Int :=
  2 - twoPow (f.exponentBits - 1) - f.fractionBits

end Format

/-- A float taken apart. A finite one is `mantissa * 2 ^ exponent`. -/
inductive Shape where
  | nan
  | infinite (negative : Bool)
  | finite (negative : Bool) (mantissa : Nat) (exponent : Int)
deriving DecidableEq, Repr

/-- The bits are sign, exponent field and fraction, from the highest down. -/
def Format.decode (f : Format) (bits : Nat) : Shape :=
  let fraction := bits % twoPow f.fractionBits
  let field := bits / twoPow f.fractionBits % twoPow f.exponentBits
  let negative := bits / twoPow (f.fractionBits + f.exponentBits) % 2 == 1
  if field = twoPow f.exponentBits - 1 then
    if fraction = 0 then .infinite negative else .nan
  else if field = 0 then .finite negative fraction f.minExponent
  else .finite negative (twoPow f.fractionBits + fraction) (f.minExponent + (field - 1))

/-- The bits of a finite number of the format. The mantissa is moved up as far as the format has
room, which makes the bits of a number unique. -/
def Format.encode (f : Format) (negative : Bool) (mantissa : Nat) (exponent : Int) : Nat :=
  let sign := if negative then twoPow (f.fractionBits + f.exponentBits) else 0
  let room := (exponent - f.minExponent).toNat
  let shift := min (f.fractionBits - mantissa.log2) room
  let moved := mantissa * twoPow shift
  if moved < twoPow f.fractionBits then sign + moved
  else sign + (room - shift) * twoPow f.fractionBits + moved

/-- A double-precision number taken apart. -/
def shape (x : Float) : Shape :=
  Format.double.decode x.toBits.toNat

/-- The number `mantissa * 2 ^ exponent` with a sign, which has to be one of the format. -/
def ofFinite (negative : Bool) (mantissa : Nat) (exponent : Int) : Float :=
  Float.ofBits (Format.double.encode negative mantissa exponent).toUInt64

end Parley.Binary
