import Mathlib.Algebra.Order.Ring.Int
import Mathlib.Data.Nat.Log

/-!
# Integers as single-precision numbers

`roundSingle n` is what becomes of an integer that is converted to IEEE single
precision: 24 significant bits, to nearest, ties to even. An integer below 2^24
in absolute value is kept.

Nothing here mentions the game server.
-/

namespace Sky548

/-- A natural number in steps of `2 ^ drop`, to nearest, ties to even. -/
def roundNearestEven (n drop : Nat) : Nat :=
  let q := n / 2 ^ drop
  let r := n % 2 ^ drop
  if 2 ^ drop < 2 * r ∨ (2 ^ drop = 2 * r ∧ q % 2 = 1) then (q + 1) * 2 ^ drop
  else q * 2 ^ drop

@[simp] theorem roundNearestEven_zero (n : Nat) : roundNearestEven n 0 = n := by
  simp [roundNearestEven, Nat.mod_one]

/-- The bits that do not fit into the 24 of a single. -/
def singleDrop (n : Nat) : Nat := Nat.log2 n + 1 - 24

def roundSingle (n : Int) : Int := n.sign * roundNearestEven n.natAbs (singleDrop n.natAbs)

theorem roundSingle_of_small {n : Int} (small : n.natAbs < 2 ^ 24) : roundSingle n = n := by
  have noDrop : singleDrop n.natAbs = 0 := by
    unfold singleDrop
    rcases Nat.eq_zero_or_pos n.natAbs with zero | positive
    · rw [zero]
      rfl
    · have := (Nat.log2_lt positive.ne').mpr small
      omega
  unfold roundSingle
  rw [noDrop, roundNearestEven_zero]
  exact Int.sign_mul_natAbs n

end Sky548
