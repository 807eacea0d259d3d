import Parley.Binary.Format

/-!
# Shortest decimal digits

Among the decimals that round to a given float, the one with the fewest digits, and of those the
nearest. The decimals are taken grid by grid: the grid of step `10 ^ k` holds the multiples of
`10 ^ k`, and the coarsest grid with a point that rounds to the float wins.
-/

namespace Parley.Decimal

open Parley.Binary (Format twoPow)

def tenPow (n : Nat) : Nat :=
  Nat.pow 10 n

/-- A fraction `num / den` with the two ends of the interval of reals that round to it, over the
same denominator. -/
structure Target where
  num : Nat
  low : Nat
  high : Nat
  den : Nat
  /-- Whether the ends themselves round to the float. -/
  closed : Bool

/-- The interval reaches half way to either neighbour. Below a power of two the neighbours are
twice as near. The ends round to the even mantissa. -/
def Target.ofFinite (f : Format) (mantissa : Nat) (exponent : Int) : Target :=
  let narrow := mantissa = twoPow f.fractionBits ∧ f.minExponent < exponent
  let up := twoPow exponent.toNat
  { num := 4 * mantissa * up
    low := (4 * mantissa - if narrow then 1 else 2) * up
    high := (4 * mantissa + 2) * up
    den := 4 * twoPow (-exponent).toNat
    closed := mantissa % 2 == 0 }

/-- The same target in units of `10 ^ k`. -/
def Target.scale (t : Target) (k : Int) : Target :=
  if 0 ≤ k then { t with den := t.den * tenPow k.toNat }
  else
    let up := tenPow (-k).toNat
    { t with num := t.num * up, low := t.low * up, high := t.high * up }

/-- Whether a whole number rounds to the float. -/
def Target.admits (t : Target) (n : Nat) : Bool :=
  let at_ := n * t.den
  if t.closed then t.low ≤ at_ && at_ ≤ t.high else t.low < at_ && at_ < t.high

/-- The whole number nearest to the target among its two neighbours that round to it; of two
equally near the upper one. -/
def Target.whole? (t : Target) : Option Nat :=
  let below := t.num / t.den
  match t.admits below, t.admits (below + 1) with
  | true, true => if 2 * (t.num % t.den) < t.den then some below else some (below + 1)
  | true, false => some below
  | false, true => some (below + 1)
  | false, false => none

/-- Tries the grids from step `10 ^ k` on, each ten times finer than the last. -/
def Target.shortest (t : Target) : (tries : Nat) → (k : Int) → Nat × Int
  | 0, k => ((t.scale k).num / (t.scale k).den, k)
  | tries + 1, k =>
      match (t.scale k).whole? with
      | some n => (n, k)
      | none => t.shortest tries (k - 1)

/-- A power of ten that is no less than `mantissa * 2 ^ exponent`, and at most a few times ten
above it. -/
def coarsest (mantissa : Nat) (exponent : Int) : Int :=
  (mantissa.log2 + 1 + exponent) * 30103 / 100000 + 2

/-- The shortest decimal `n * 10 ^ k` of a positive finite float. Twenty-five grids reach below
the float's own precision. -/
def shortest (f : Format) (mantissa : Nat) (exponent : Int) : Nat × Int :=
  (Target.ofFinite f mantissa exponent).shortest 25 (coarsest mantissa exponent)

end Parley.Decimal
