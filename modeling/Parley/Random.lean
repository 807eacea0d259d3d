import Parley.Binary.Power

/-!
# Random picks

A stream of 32-bit words made by the ChaCha block function with twelve rounds, keyed by a 64-bit
seed. The stream is a function of its key and a position, so the same seed always gives the same
picks.
-/

namespace Parley.Random

open Binary (twoPow)

/-- The state of the block function, and what it gives: sixteen words. -/
abbrev Block := Vector UInt32 16

def rotateLeft (x k : UInt32) : UInt32 :=
  (x <<< k) ||| (x >>> (32 - k))

def rotateRight (x k : UInt32) : UInt32 :=
  if k = 0 then x else (x >>> k) ||| (x <<< (32 - k))

/-- Adds word `b` to word `a`, then turns word `d` by it. -/
def mix (s : Block) (a b d : Fin 16) (k : UInt32) : Block :=
  let sum := s[a] + s[b]
  (s.set a sum).set d (rotateLeft (s[d] ^^^ sum) k)

def quarterRound (s : Block) (a b c d : Fin 16) : Block :=
  let s := mix s a b d 16
  let s := mix s c d b 12
  let s := mix s a b d 8
  mix s c d b 7

/-- A round over the columns of the block and one over its diagonals. -/
def doubleRound (s : Block) : Block :=
  let s := quarterRound s 0 4 8 12
  let s := quarterRound s 1 5 9 13
  let s := quarterRound s 2 6 10 14
  let s := quarterRound s 3 7 11 15
  let s := quarterRound s 0 5 10 15
  let s := quarterRound s 1 6 11 12
  let s := quarterRound s 2 7 8 13
  quarterRound s 3 4 9 14

/-- The words that a stream is keyed by. -/
abbrev Key := Vector UInt32 8

/-- The state before the rounds: four constants, the key, the position in two words, and two words
left zero. -/
def initial (key : Key) (counter : UInt64) : Block :=
  #v[0x61707865, 0x3320646e, 0x79622d32, 0x6b206574,
    key[0], key[1], key[2], key[3], key[4], key[5], key[6], key[7],
    counter.toUInt32, (counter >>> 32).toUInt32, 0, 0]

/-- Sixteen words of the stream: the state after twelve rounds, added to the state before. -/
def block (key : Key) (counter : UInt64) : Block :=
  let start := initial key counter
  let mixed := Nat.repeat doubleRound 6 start
  Vector.zipWith (· + ·) start mixed

/-- One step of the generator that spreads a seed over the words of a key. -/
def spread (state : UInt64) : UInt64 :=
  state * 6364136223846793005 + 11634580027462260723

/-- The word that the generator gives at a state: its higher bits, turned by the highest. -/
def spreadWord (state : UInt64) : UInt32 :=
  rotateRight (((state >>> 18) ^^^ state) >>> 27).toUInt32 (state >>> 59).toUInt32

def keyOfSeed (seed : UInt64) : Key :=
  Vector.ofFn fun i => spreadWord (Nat.repeat spread (i.val + 1) seed)

/-- A stream and how far it has been read. -/
structure Stream where
  key : Key
  /-- How many words have been drawn. -/
  used : Nat := 0

namespace Stream

def ofSeed (seed : UInt64) : Stream :=
  { key := keyOfSeed seed }

/-- The next word. -/
def draw (s : Stream) : UInt32 × Stream :=
  ((block s.key (s.used / 16).toUInt64).get ⟨s.used % 16, Nat.mod_lt _ (by decide)⟩,
    { s with used := s.used + 1 })

/-- A pick below `n`, by scaling a word. Where the fraction lost could carry, a second word
decides. -/
def pick (s : Stream) (n : Nat) : Nat × Stream :=
  let (word, s) := s.draw
  let scaled := word.toNat * n
  let high := scaled / twoPow 32
  let low := scaled % twoPow 32
  if low ≤ twoPow 32 - n then (high, s)
  else
    let (more, s) := s.draw
    let carry := more.toNat * n / twoPow 32
    (if low + carry < twoPow 32 then high else high + 1, s)

/-- A scaled word stays below the bound, even where the fraction of a second word carries. -/
theorem scaled_lt {n word carry : Nat} (hword : word < twoPow 32) (hcarry : carry < n) :
    (word * n + carry) / twoPow 32 < n := by
  have hscaled : (word + 1) * n ≤ twoPow 32 * n := Nat.mul_le_mul_right n hword
  rw [Nat.succ_mul] at hscaled
  rw [Nat.div_lt_iff_lt_mul (Binary.twoPow_pos 32), Nat.mul_comm n]
  omega

/-- A pick stays below its bound, so it is always the place of an element. -/
theorem pick_lt (s : Stream) {n : Nat} (hn : 0 < n) : (s.pick n).1 < n := by
  have hbelow : ∀ word : UInt32, word.toNat * n / twoPow 32 < n :=
    fun word => scaled_lt word.toNat_lt hn
  simp only [pick]
  split
  · exact hbelow _
  · split
    · exact hbelow _
    · next hcarry =>
        have hsum := scaled_lt s.draw.1.toNat_lt (hbelow s.draw.2.draw.1)
        have hparts := Nat.div_add_mod (s.draw.1.toNat * n) (twoPow 32)
        have hle : s.draw.1.toNat * n / twoPow 32 + 1 ≤
            (s.draw.1.toNat * n + s.draw.2.draw.1.toNat * n / twoPow 32) / twoPow 32 := by
          rw [Nat.le_div_iff_mul_le (Binary.twoPow_pos 32)]
          rw [Nat.mul_comm, Nat.mul_succ]
          omega
        omega

end Stream

end Parley.Random
