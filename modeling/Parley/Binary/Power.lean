/-!
# Powers of two
-/

namespace Parley.Binary

def twoPow (n : Nat) : Nat :=
  Nat.pow 2 n

theorem twoPow_succ (n : Nat) : twoPow (n + 1) = 2 * twoPow n := by
  rw [twoPow, Nat.mul_comm]
  rfl

theorem twoPow_pos (n : Nat) : 0 < twoPow n := by
  induction n with
  | zero => decide
  | succ n ih => rw [twoPow_succ]; omega

end Parley.Binary
