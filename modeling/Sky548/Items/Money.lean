import Mathlib.Algebra.Order.Ring.Int

/-!
# Money

What a player owns is a `uint64` of copper, what is added to it or taken from it an `int64`
(`ModifyMoney`). Adding may fail, taking never does: it stops at nothing.
-/

namespace Sky548

def maxMoneyAmount : UInt64 := 9999999999

def toInt32 (n : ℤ) : ℤ := n.bmod (2 ^ 32)

def toInt64 (n : ℤ) : ℤ := n.bmod (2 ^ 64)

def hasEnoughMoney (money amount : UInt64) : Bool := amount ≤ money

/-- `ModifyMoney`; `none` when the player cannot take that much. -/
def modifyMoney (money : UInt64) (amount : ℤ) : Option UInt64 :=
  if amount = 0 then some money
  else if amount < 0 then
    some (if money > UInt64.ofInt (-amount) then money + UInt64.ofInt amount else 0)
  else if money < UInt64.ofInt (maxMoneyAmount.toNat - amount) then
    some (money + UInt64.ofInt amount)
  else none

theorem maxMoneyAmount_toNat : maxMoneyAmount.toNat = 9999999999 := rfl

theorem toInt32_bounds (n : ℤ) : -2 ^ 31 ≤ toInt32 n ∧ toInt32 n < 2 ^ 31 := by
  rw [toInt32, Int.bmod_def]
  split
  · omega
  · omega

theorem toInt32_le {n : ℤ} (positive : 0 ≤ n) : toInt32 n ≤ n := by
  rw [toInt32, Int.bmod_def]
  split
  · omega
  · omega

theorem toInt32_of_bounds {n : ℤ} (low : -2 ^ 31 ≤ n) (high : n < 2 ^ 31) : toInt32 n = n := by
  rw [toInt32, Int.bmod_def]
  split
  · omega
  · omega

theorem toInt64_of_bounds {n : ℤ} (low : -2 ^ 63 ≤ n) (high : n < 2 ^ 63) : toInt64 n = n := by
  rw [toInt64, Int.bmod_def]
  split
  · omega
  · omega

theorem toInt64_eq {n : ℕ} (small : n ≤ maxMoneyAmount.toNat) : toInt64 n = n := by
  rw [maxMoneyAmount_toNat] at small
  exact toInt64_of_bounds (by omega) (by omega)

theorem toNat_ofInt {n : ℤ} (positive : 0 ≤ n) (small : n < 2 ^ 64) :
    ((UInt64.ofInt n).toNat : ℤ) = n := by
  rw [UInt64.ofInt, UInt64.toNat_ofNat']
  omega

theorem modifyMoney_add (money : UInt64) {amount : ℕ} (small : amount ≤ maxMoneyAmount.toNat) :
    (modifyMoney money (toInt64 amount)).map UInt64.toNat =
      if amount = 0 ∨ money.toNat + amount < maxMoneyAmount.toNat then some (money.toNat + amount)
      else none := by
  rw [toInt64_eq small, modifyMoney]
  rw [maxMoneyAmount_toNat] at small ⊢
  by_cases zero : amount = 0
  · rw [if_pos (by omega), if_pos (Or.inl zero), zero]
    rfl
  rw [if_neg (by omega), if_neg (by omega)]
  have rest := toNat_ofInt (n := (9999999999 : ℕ) - amount) (by omega) (by omega)
  have added := toNat_ofInt (n := amount) (by omega) (by omega)
  by_cases room : money.toNat + amount < 9999999999
  · rw [if_pos (by rw [UInt64.lt_iff_toNat_lt]; omega), if_pos (Or.inr room), Option.map_some,
      UInt64.toNat_add]
    congr 1
    omega
  · rw [if_neg (by rw [UInt64.lt_iff_toNat_lt]; omega), if_neg (by omega)]
    rfl

variable {money : UInt64}

theorem modifyMoney_neg {amount : ℕ} (small : amount ≤ 2 ^ 63) (enough : amount ≤ money.toNat):
    (modifyMoney money (-(amount : ℤ))).map UInt64.toNat = some (money.toNat - amount) := by
  rw [modifyMoney]
  by_cases zero : amount = 0
  · rw [if_pos (by omega), zero]
    rfl
  rw [if_neg (by omega), if_pos (by omega), Option.map_some]
  congr 1
  have taken := toNat_ofInt (n := -(-(amount : ℤ))) (by omega) (by omega)
  have wrapped : ((UInt64.ofInt (-(amount : ℤ))).toNat : ℤ) = 2 ^ 64 - amount := by
    rw [UInt64.ofInt, UInt64.toNat_ofNat']
    omega
  have bound := money.toNat_lt
  split
  · rw [UInt64.toNat_add]
    omega
  rename_i notMore
  rw [gt_iff_lt, UInt64.lt_iff_toNat_lt] at notMore
  have whole : money.toNat = amount := by omega
  rw [whole, Nat.sub_self]
  rfl

theorem modifyMoney_sub {amount : ℕ} (small : amount ≤ maxMoneyAmount.toNat)
    (enough : amount ≤ money.toNat) :
    (modifyMoney money (-toInt64 amount)).map UInt64.toNat = some (money.toNat - amount) := by
  rw [toInt64_eq small]
  rw [maxMoneyAmount_toNat] at small
  exact modifyMoney_neg (by omega) enough

theorem modifyMoney_of_neg {amount : ℤ} (negative : amount < 0) (small : -2 ^ 63 ≤ amount):
    (modifyMoney money amount).map UInt64.toNat = some (money.toNat - amount.natAbs) := by
  rcases Nat.le_total amount.natAbs money.toNat with enough | poor
  · have same : amount = -(amount.natAbs : ℤ) := by omega
    have taken : (modifyMoney money (-(amount.natAbs : ℤ))).map UInt64.toNat =
        some (money.toNat - amount.natAbs) := modifyMoney_neg (by omega) enough
    rw [← same] at taken
    exact taken
  · have all : ¬ money > UInt64.ofInt (-amount) := by
      have gone := toNat_ofInt (n := -amount) (by omega) (by omega)
      rw [gt_iff_lt, UInt64.lt_iff_toNat_lt]
      omega
    rw [modifyMoney, if_neg (by omega), if_pos negative, if_neg all, Option.map_some]
    congr 1
    exact (Nat.sub_eq_zero_of_le poor).symm

theorem le_modifyMoney {money' : UInt64} {amount : ℤ} (positive : 0 ≤ amount)
    (small : amount < 2 ^ 32) (added : modifyMoney money amount = some money') :
    money.toNat ≤ money'.toNat := by
  rw [modifyMoney] at added
  split at added
  · exact Nat.le_of_eq (congrArg UInt64.toNat (Option.some.inj added))
  rw [if_neg (by omega)] at added
  split at added
  · rename_i room
    rw [UInt64.lt_iff_toNat_lt] at room
    rw [← Option.some.inj added, UInt64.toNat_add]
    have sum := toNat_ofInt (n := amount) positive (by omega)
    have rest := toNat_ofInt (n := maxMoneyAmount.toNat - amount)
      (by rw [maxMoneyAmount_toNat]; omega) (by rw [maxMoneyAmount_toNat]; omega)
    rw [maxMoneyAmount_toNat] at rest room
    omega
  · cases added

theorem modifyMoney_rich {amount : ℤ}
    (rich : money.toNat ≤ maxMoneyAmount.toNat) (low : -2 ^ 32 ≤ amount) (high : amount < 2 ^ 32) :
    ((modifyMoney money amount).getD money).toNat ≤ maxMoneyAmount.toNat := by
  rcases Int.lt_or_le amount 0 with negative | positive
  · obtain ⟨left, result, left_toNat⟩ := Option.map_eq_some_iff.mp
      (modifyMoney_of_neg negative (by omega))
    rw [result, Option.getD_some, left_toNat]
    omega
  · rw [modifyMoney, maxMoneyAmount_toNat] at *
    split
    · exact rich
    rw [if_neg (by omega)]
    split
    · rename_i room
      rw [UInt64.lt_iff_toNat_lt] at room
      have sum := toNat_ofInt (n := amount) positive (by omega)
      have rest := toNat_ofInt (n := (9999999999 : ℕ) - amount) (by omega) (by omega)
      rw [Option.getD_some, UInt64.toNat_add]
      omega
    · exact rich

theorem le_pays_int32 (owned : UInt64) (price : ℕ) :
    owned.toNat ≤ ((modifyMoney owned (toInt32 (-toInt32 price))).getD owned).toNat + price ∧
      (2 ^ 31 < price →
        owned.toNat < ((modifyMoney owned (toInt32 (-toInt32 price))).getD owned).toNat + price) := by
  have outer := toInt32_bounds (-toInt32 price)
  have exactly : price ≤ 2 ^ 31 → toInt32 (-toInt32 price) = -(price : ℤ) := by
    intro small
    rw [toInt32, toInt32, Int.bmod_def, Int.bmod_def]
    split <;> split <;> omega
  generalize toInt32 (-toInt32 price) = amount at outer exactly ⊢
  rcases Int.lt_or_le amount 0 with negative | positive
  · have taken : (modifyMoney owned amount).map UInt64.toNat =
        some (owned.toNat - amount.natAbs) := modifyMoney_of_neg negative (by omega)
    obtain ⟨left, result, left_toNat⟩ := Option.map_eq_some_iff.mp taken
    rw [result, Option.getD_some, left_toNat]
    omega
  · have more : owned.toNat ≤ ((modifyMoney owned amount).getD owned).toNat := by
      cases added : modifyMoney owned amount with
      | none => exact Nat.le_refl _
      | some owned' => exact le_modifyMoney positive (by omega) added
    omega

theorem pays_int32_iff {owned : UInt64} {price : ℕ} (enough : price ≤ owned.toNat) :
    ((modifyMoney owned (toInt32 (-toInt32 price))).getD owned).toNat + price = owned.toNat ↔
      price ≤ 2 ^ 31 := by
  refine ⟨fun paid => ?_, fun small => ?_⟩
  · have bound := (le_pays_int32 owned price).2
    omega
  have exactly : toInt32 (-toInt32 price) = -(price : ℤ) := by
    rw [toInt32, toInt32, Int.bmod_def, Int.bmod_def]
    split <;> split <;> omega
  rw [exactly]
  have taken := modifyMoney_neg (by omega) enough
  obtain ⟨left, result, left_toNat⟩ := Option.map_eq_some_iff.mp taken
  rw [result, Option.getD_some, left_toNat]
  omega

end Sky548
