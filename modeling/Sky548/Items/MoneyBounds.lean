import Sky548.Items.Money

/-!
# The bounds of a purse

`ModifyMoney` and `HasEnoughMoney` over their whole ranges. Taking is exact and stops at nothing.
Adding asks whether the money is less than `MAX_MONEY_AMOUNT - amount`, in 64 bits without a sign.
-/

namespace Sky548

/-- A call of `ModifyMoney`: what it returns, and the money that it leaves. -/
def modifyMoneyCall (money : UInt64) (amount : Int64) : Bool × UInt64 :=
  match modifyMoney money amount.toInt with
  | some money' => (true, money')
  | none => (false, money)

/-- **A purse within its bounds**: what a call leaves is not too much, and it is the sum when the
call says so, else what it was. A check of a cost is exact, and so is what is taken after it. -/
structure WithinBounds (money : UInt64) (amount : Int64) (cost : UInt64) : Prop where
  bounded : (modifyMoneyCall money amount).2 ≤ maxMoneyAmount
  added : (modifyMoneyCall money amount).1 = true → 0 ≤ (money.toNat : ℤ) + amount.toInt →
    ((modifyMoneyCall money amount).2.toNat : ℤ) = money.toNat + amount.toInt
  unchanged : (modifyMoneyCall money amount).1 = false → (modifyMoneyCall money amount).2 = money
  enough : hasEnoughMoney money cost = true ↔ cost.toNat ≤ money.toNat
  charged : hasEnoughMoney money cost = true →
    (modifyMoneyCall money (-cost).toInt64).1 = true ∧
      (modifyMoneyCall money (-cost).toInt64).2.toNat = money.toNat - cost.toNat

theorem int64_bounds (amount : Int64) : -2 ^ 63 ≤ amount.toInt ∧ amount.toInt < 2 ^ 63 :=
  ⟨amount.le_toInt, amount.toInt_lt⟩

theorem hasEnoughMoney_iff {money cost : UInt64} :
    hasEnoughMoney money cost = true ↔ cost.toNat ≤ money.toNat := by
  rw [hasEnoughMoney, decide_eq_true_iff, UInt64.le_iff_toNat_le]

theorem toInt_neg {cost : UInt64} (small : cost.toNat < 2 ^ 63) :
    (-cost).toInt64.toInt = -(cost.toNat : ℤ) := by
  have bits : (-cost).toNat = (2 ^ 64 - cost.toNat) % 2 ^ 64 := UInt64.toNat_neg cost
  have signed : (-cost).toInt64.toInt = ((-cost).toNat : ℤ).bmod (2 ^ 64) :=
    BitVec.toInt_eq_toNat_bmod _
  rw [signed, bits, Int.bmod_def]
  split
  · omega
  · omega

theorem modifyMoneyCall_neg (money : UInt64) {amount : Int64} (negative : amount.toInt < 0) :
    (modifyMoneyCall money amount).1 = true ∧
      (modifyMoneyCall money amount).2.toNat = money.toNat - amount.toInt.natAbs := by
  have taken : (modifyMoney money amount.toInt).map UInt64.toNat =
      some (money.toNat - amount.toInt.natAbs) :=
    modifyMoney_of_neg negative (int64_bounds amount).1
  obtain ⟨money', result, isRest⟩ := Option.map_eq_some_iff.mp taken
  rw [modifyMoneyCall, result]
  exact ⟨rfl, isRest⟩

theorem modifyMoneyCall_add {money : UInt64} {amount : Int64} (positive : 0 ≤ amount.toInt)
    (small : amount.toInt ≤ maxMoneyAmount.toNat) :
    modifyMoneyCall money amount = (false, money) ∨
      (modifyMoneyCall money amount).1 = true ∧
        ((modifyMoneyCall money amount).2.toNat : ℤ) = money.toNat + amount.toInt ∧
        (amount.toInt = 0 ∨ money.toNat + amount.toInt < maxMoneyAmount.toNat) := by
  obtain ⟨n, isNat⟩ := Int.eq_ofNat_of_zero_le positive
  have small : n ≤ maxMoneyAmount.toNat := by omega
  have sum := modifyMoney_add money small
  rw [toInt64_eq small] at sum
  unfold modifyMoneyCall
  rw [isNat]
  split at sum
  · rename_i room
    obtain ⟨money', result, isSum⟩ := Option.map_eq_some_iff.mp sum
    rw [result]
    exact Or.inr ⟨rfl, by dsimp only; omega, by omega⟩
  · have result : modifyMoney money n = none := Option.map_eq_none_iff.mp sum
    rw [result]
    exact Or.inl rfl

theorem modifyMoneyCall_rich {money : UInt64} {amount : Int64} (owned : money ≤ maxMoneyAmount)
    (large : maxMoneyAmount.toNat < amount.toInt) :
    maxMoneyAmount < (modifyMoneyCall money amount).2 := by
  have high := (int64_bounds amount).2
  have owned : money.toNat ≤ maxMoneyAmount.toNat := UInt64.le_iff_toNat_le.mp owned
  rw [maxMoneyAmount_toNat] at large owned
  have wrapped : ((UInt64.ofInt ((9999999999 : ℕ) - amount.toInt)).toNat : ℤ) =
      2 ^ 64 + 9999999999 - amount.toInt := by
    rw [UInt64.ofInt, UInt64.toNat_ofNat']
    omega
  have sum := toNat_ofInt (n := amount.toInt) (by omega) (by omega)
  have room : money < UInt64.ofInt ((9999999999 : ℕ) - amount.toInt) := by
    rw [UInt64.lt_iff_toNat_lt]
    omega
  rw [modifyMoneyCall, modifyMoney, if_neg (by omega), if_neg (by omega), maxMoneyAmount_toNat,
    if_pos room, UInt64.lt_iff_toNat_lt, maxMoneyAmount_toNat, UInt64.toNat_add]
  omega

/-- **A purse stays within its bounds exactly when** no more than `MAX_MONEY_AMOUNT` is added to
it. -/
theorem withinBounds_iff (money : UInt64) (owned : money ≤ maxMoneyAmount) (amount : Int64)
    (cost : UInt64) :
    WithinBounds money amount cost ↔ amount.toInt ≤ maxMoneyAmount.toNat := by
  have owned' : money.toNat ≤ maxMoneyAmount.toNat := UInt64.le_iff_toNat_le.mp owned
  constructor
  · intro within
    by_contra tooMuch
    have rich := modifyMoneyCall_rich owned (Int.not_le.mp tooMuch)
    exact absurd within.bounded (UInt64.not_le.mpr rich)
  · intro small
    have charged : hasEnoughMoney money cost = true →
        (modifyMoneyCall money (-cost).toInt64).1 = true ∧
          (modifyMoneyCall money (-cost).toInt64).2.toNat = money.toNat - cost.toNat := by
      intro enough
      have affordable := hasEnoughMoney_iff.mp enough
      have isCost : (-cost).toInt64.toInt = -(cost.toNat : ℤ) := toInt_neg (by
        rw [maxMoneyAmount_toNat] at owned'
        omega)
      rcases Nat.eq_zero_or_pos cost.toNat with nothing | something
      · have isZero : (-cost).toInt64.toInt = 0 := by omega
        have same : modifyMoneyCall money (-cost).toInt64 = (true, money) := by
          rw [modifyMoneyCall, isZero]
          rfl
        rw [same, nothing]
        exact ⟨rfl, rfl⟩
      · have taken := @modifyMoneyCall_neg money (-cost).toInt64 (by omega)
        rw [isCost, Int.natAbs_neg, Int.natAbs_natCast] at taken
        exact taken
    rcases Int.lt_or_le amount.toInt 0 with negative | positive
    · obtain ⟨isTrue, isRest⟩ := modifyMoneyCall_neg money negative
      refine ⟨?_, fun _ enough => ?_, fun isFalse => ?_, hasEnoughMoney_iff, charged⟩
      · rw [UInt64.le_iff_toNat_le, isRest]
        omega
      · rw [isRest]
        omega
      · rw [isTrue] at isFalse
        cases isFalse
    · rcases @modifyMoneyCall_add money amount positive small with refused | ⟨isTrue, isSum, room⟩
      · refine ⟨?_, fun isTrue => ?_, fun _ => ?_, hasEnoughMoney_iff, charged⟩
        · rw [refused]
          exact owned
        · rw [refused] at isTrue
          cases isTrue
        · rw [refused]
      · refine ⟨?_, fun _ _ => isSum, fun isFalse => ?_, hasEnoughMoney_iff, charged⟩
        · rw [UInt64.le_iff_toNat_le]
          omega
        · rw [isTrue] at isFalse
          cases isFalse

/-- Seven copper more, and three to pay. -/
theorem withinBounds_coppers : WithinBounds 5 7 3 :=
  (withinBounds_iff 5 (by decide) 7 3).mpr (by decide)

/-- **A copper more than anybody may own** is added to an empty purse. -/
theorem not_withinBounds_rich :
    modifyMoneyCall 0 10000000000 = (true, 10000000000) ∧ ¬ WithinBounds 0 10000000000 0 := by
  have rich : modifyMoneyCall 0 10000000000 = (true, 10000000000) := by decide
  refine ⟨rich, fun within => ?_⟩
  have bounded := within.bounded
  rw [rich] at bounded
  exact absurd bounded (by decide)

end Sky548
