import Sky548.Currencies.Calls

/-!
# ModifyCurrency without multipliers

`ModifyCurrency` as the vendors call it: with `ignoreMultipliers`, so that the amount is what is
given. A spend takes what there is of the amount, and a gain is added in full where the caps and the
counters have room for it (`total_spend`, `total_gain_iff`), as long as the player is within the caps.
-/

namespace Sky548

namespace Purse

open CurrencyTypesEntry

/-- `ModifyCurrency` of one currency with `ignoreMultipliers`, up to the branch for meta
currencies. -/
def modifyOwnAsIs (p : Purse) (rules : CurrencyRules) (currency : CurrencyTypesEntry) (count : ℤ) :
    Purse × Option ℤ :=
  let old := p.counts currency.id
  let weekCap := p.getCurrencyWeekCap rules currency
  let count := limitCount weekCap count
  let new := currency.newCounts weekCap old count
  let totalCount := UInt32.ofInt new.totalCount
  if totalCount ≠ old.totalCount then
    (p.store currency.id
      { state := if old.state ≠ .new then .changed else old.state
        totalCount := totalCount
        weekCount := UInt32.ofInt new.weekCount
        seasonCount := new.seasonCount },
      some count)
  else (p.store currency.id old, none)

/-- `ModifyCurrency` with `ignoreMultipliers`; the call for conquest points has it not. -/
def modifyCurrencyAsIs (p : Purse) (rules : CurrencyRules) (id : UInt32) (count : ℤ) : Option Purse :=
  if count = 0 then some p
  else match rules.lookupEntry id with
  | none => none
  | some currency =>
    match p.modifyOwnAsIs rules currency count with
    | (after, none) => some after
    | (after, some forwarded) =>
      if currency.category = currencyCategoryMetaConquest then
        let raised := after.raiseConquestCap (p.getCurrencyWeekCap rules currency)
        if forwarded = 0 then some raised
        else some (raised.modifyOwn rules rules.conquestPoints forwarded).1
      else some after

def hasCurrency (p : Purse) (id count : UInt32) : Bool :=
  (p.currencyStorage id).any fun cur => cur.totalCount ≥ count

def total (p : Purse) (id : UInt32) : Nat := (p.counts id).totalCount.toNat

end Purse

namespace CurrencyTypesEntry

/-- The counts are within the caps, and both are values of `int32`. -/
structure Orderly (currency : CurrencyTypesEntry) (weekCap : UInt32) (old : PlayerCurrency) :
    Prop where
  smallTotal : currency.totalCap.toNat < 2 ^ 31
  smallWeek : weekCap.toNat < 2 ^ 31
  stored : old.Stored
  inWeek : weekCap ≠ 0 → old.weekCount ≤ weekCap
  inTotal : currency.totalCap ≠ 0 → old.totalCount ≤ currency.totalCap

/-- The counters and the caps have room for an amount. -/
structure RoomFor (currency : CurrencyTypesEntry) (weekCap : UInt32) (old : PlayerCurrency)
    (amount : Nat) : Prop where
  counter : old.totalCount.toNat + amount < 2 ^ 31
  week : weekCap ≠ 0 → amount ≤ weekCap.toNat ∧
    (old.weekCount.toNat + amount ≤ weekCap.toNat ∨ 2 ^ 31 ≤ old.weekCount.toNat + amount)
  total : currency.totalCap ≠ 0 → old.totalCount.toNat + amount ≤ currency.totalCap.toNat

variable {currency : CurrencyTypesEntry} {weekCap : UInt32} {old : PlayerCurrency}

theorem toInt32_over {n : ℤ} (low : 2 ^ 31 ≤ n) (high : n < 2 ^ 32) : toInt32 n = n - 2 ^ 32 := by
  unfold toInt32
  rw [Int.bmod_def]
  omega

theorem written_spend_orderly (orderly : currency.Orderly weekCap old) {amount : Nat}
    (small : amount ≤ 2 ^ 31) :
    (currency.written weekCap old (limitCount weekCap (-amount))).totalCount.toNat =
        old.totalCount.toNat - amount ∧
      (currency.written weekCap old (limitCount weekCap (-amount))).weekCount = old.weekCount := by
  have total := orderly.stored.total
  have week := orderly.stored.week
  have limited : limitCount weekCap (-amount) = -amount := by
    rw [limitCount_eq orderly.smallWeek]
    split <;> omega
  have noGain : ¬ (0 : ℤ) < -amount := by omega
  have summed : sums old (-amount) =
      { totalCount := old.totalCount.toNat - amount
        weekCount := old.weekCount.toNat
        seasonCount := old.seasonCount } := by
    unfold sums
    rw [if_neg noGain, if_neg noGain, toInt32_toNat total, toInt32_toNat week,
      toInt32_of_bounds (by omega) (by omega)]
    rfl
  have inWeek : limitWeek weekCap old (sums old (-amount)) = sums old (-amount) := by
    rw [summed, limitWeek, toInt32_toNat orderly.smallWeek, if_neg]
    rintro ⟨capped, above⟩
    have below := UInt32.le_iff_toNat_le.mp (orderly.inWeek capped)
    dsimp only at above
    omega
  have inTotal : currency.limitTotal weekCap (sums old (-amount)) = sums old (-amount) := by
    rw [summed, limitTotal, toInt32_toNat orderly.smallTotal, if_neg]
    rintro ⟨capped, above⟩
    have below := UInt32.le_iff_toNat_le.mp (orderly.inTotal capped)
    dsimp only at above
    omega
  have counts : currency.newCounts weekCap old (-amount) =
      ⟨(old.totalCount.toNat - amount : ℕ), old.weekCount.toNat, old.seasonCount⟩ := by
    unfold newCounts
    rw [inWeek, inTotal, summed]
    dsimp only
    congr 1
    omega
  rw [limited]
  obtain ⟨isTotal, isWeek⟩ := written_eq (by omega) week counts
  refine ⟨isTotal, UInt32.toNat_inj.mp ?_⟩
  rw [isWeek, ite_self]

theorem total_written (currency : CurrencyTypesEntry) (weekCap : UInt32) (old : PlayerCurrency)
    (count : ℤ) : ((currency.written weekCap old count).totalCount.toNat : ℤ) =
      (currency.newCounts weekCap old count).totalCount := by
  have high := (newCounts_lt currency weekCap old count).1
  have low : 0 ≤ (currency.newCounts weekCap old count).totalCount := Int.le_max_left _ _
  have exactly := toNat_ofInt low (by omega)
  unfold written
  dsimp only
  split
  · exact exactly
  · rename_i same
    rw [← not_not.mp same]
    exact exactly

theorem toInt32_sum {total amount : Nat} (one : total < 2 ^ 31) (other : amount < 2 ^ 31) :
    toInt32 (total + amount) = total + amount ∧ total + amount < 2 ^ 31 ∨
      toInt32 (total + amount) < 0 ∧ 2 ^ 31 ≤ total + amount := by
  rcases Nat.lt_or_ge (total + amount) (2 ^ 31) with small | large
  · exact Or.inl ⟨toInt32_of_bounds (by omega) (by omega), small⟩
  · rw [toInt32_over (by omega) (by omega)]
    exact Or.inr ⟨by omega, large⟩

theorem limitWeek_orderly (orderly : currency.Orderly weekCap old) {amount : Nat}
    (some : 0 < amount) (small : amount < 2 ^ 31) :
    (limitWeek weekCap old (sums old (limitCount weekCap amount))).totalCount ≤
        old.totalCount.toNat + amount ∧
      ((limitWeek weekCap old (sums old (limitCount weekCap amount))).totalCount =
          old.totalCount.toNat + amount ↔
        old.totalCount.toNat + amount < 2 ^ 31 ∧ (weekCap ≠ 0 → amount ≤ weekCap.toNat ∧
          (old.weekCount.toNat + amount ≤ weekCap.toNat ∨
            2 ^ 31 ≤ old.weekCount.toNat + amount))) := by
  have total := orderly.stored.total
  have week := orderly.stored.week
  have cap := orderly.smallWeek
  have inWeek := fun capped => UInt32.le_iff_toNat_le.mp (orderly.inWeek capped)
  rw [limitCount_eq cap]
  by_cases capped : weekCap = 0
  · have noCap : weekCap.toNat = 0 := UInt32.toNat_inj.mpr capped
    have positive : (0 : ℤ) < amount := Int.natCast_pos.mpr some
    rw [noCap, if_neg (not_not_intro rfl), sums, if_pos positive, if_pos positive,
      toInt32_toNat total, limitWeek, if_neg fun both => both.1 capped]
    dsimp only
    rcases toInt32_sum total small with ⟨sum, fits⟩ | ⟨negative, full⟩
    · rw [sum]
      exact ⟨Int.le_refl _, fun _ => ⟨fits, fun isCap => absurd capped isCap⟩, fun _ => rfl⟩
    · exact ⟨by omega, fun same => by omega, fun room => by omega⟩
  · have isCap := toNat_ne_zero.mp capped
    have within := inWeek capped
    obtain ⟨limited, isLimited⟩ : ∃ limited : Nat, limited = min amount weekCap.toNat := ⟨_, rfl⟩
    have cast : min (amount : ℤ) weekCap.toNat = limited := by omega
    have positive : (0 : ℤ) < limited := by omega
    rw [if_pos isCap, cast, sums, if_pos positive, if_pos positive, toInt32_toNat total,
      toInt32_toNat week, limitWeek, toInt32_toNat cap]
    dsimp only
    have sums := @toInt32_sum _ limited total (by omega)
    have weeks := @toInt32_sum _ limited week (by omega)
    split
    · rename_i exceeds
      have sum : (old.totalCount + (weekCap - old.weekCount)).toNat =
          old.totalCount.toNat + (weekCap.toNat - old.weekCount.toNat) := by
        rw [UInt32.toNat_add, UInt32.toNat_sub_of_le _ _ (orderly.inWeek capped)]
        omega
      dsimp only
      rw [sum, Int.natCast_add]
      have above := exceeds.2
      have much : weekCap.toNat - old.weekCount.toNat < amount ∧
          weekCap.toNat < old.weekCount.toNat + amount ∧ old.weekCount.toNat + limited < 2 ^ 31 := by
        omega
      clear sums weeks above exceeds sum
      obtain ⟨rest, isRest⟩ : ∃ rest, rest = weekCap.toNat - old.weekCount.toNat := ⟨_, rfl⟩
      rw [← isRest] at much ⊢
      have most : toInt32 (old.totalCount.toNat + rest) ≤ old.totalCount.toNat + rest := by
        rcases @toInt32_sum _ rest total (by omega) with ⟨isSum, -⟩ | ⟨negative, -⟩ <;> omega
      refine ⟨by omega, fun same => ?_, fun room => ?_⟩
      · omega
      · have room := room.2 capped
        omega
    · rename_i below
      have fits : ¬ (weekCap.toNat : ℤ) < toInt32 (old.weekCount.toNat + limited) :=
        fun above => below ⟨capped, above⟩
      dsimp only
      refine ⟨by omega, fun same => ⟨by omega, fun _ => by omega⟩, fun room => ?_⟩
      have room' := room.2 capped
      omega

theorem written_gain_orderly (orderly : currency.Orderly weekCap old) {amount : Nat}
    (some : 0 < amount) (small : amount < 2 ^ 31) :
    (currency.written weekCap old (limitCount weekCap amount)).totalCount.toNat ≤
        old.totalCount.toNat + amount ∧
      ((currency.written weekCap old (limitCount weekCap amount)).totalCount.toNat =
          old.totalCount.toNat + amount ↔ currency.RoomFor weekCap old amount) := by
  have total := orderly.stored.total
  have inTotal := fun capped => UInt32.le_iff_toNat_le.mp (orderly.inTotal capped)
  obtain ⟨most, all⟩ := limitWeek_orderly orderly some small
  have isTotal := total_written currency weekCap old (limitCount weekCap amount)
  have high := (newCounts_lt currency weekCap old (limitCount weekCap amount)).1
  rw [newCounts, limitTotal, toInt32_toNat orderly.smallTotal] at isTotal high
  dsimp only at isTotal high
  have room : currency.RoomFor weekCap old amount ↔
      (limitWeek weekCap old (sums old (limitCount weekCap amount))).totalCount =
          old.totalCount.toNat + amount ∧
        (currency.totalCap ≠ 0 → old.totalCount.toNat + amount ≤ currency.totalCap.toNat) :=
    ⟨fun room => ⟨all.mpr ⟨room.counter, room.week⟩, room.total⟩,
      fun both => ⟨(all.mp both.1).1, (all.mp both.1).2, both.2⟩⟩
  rw [room]
  generalize limitWeek weekCap old (sums old (limitCount weekCap amount)) = new at *
  by_cases exceeds : currency.totalCap ≠ 0 ∧ (currency.totalCap.toNat : ℤ) < new.totalCount
  · rw [if_pos exceeds] at isTotal high
    dsimp only at isTotal high
    have within := inTotal exceeds.1
    have above := exceeds.2
    refine ⟨by omega, fun same => ?_, fun both => ?_⟩
    · omega
    · have fits := both.2 exceeds.1
      omega
  · rw [if_neg exceeds] at isTotal high
    refine ⟨by omega, fun same => ⟨by omega, fun capped => ?_⟩, fun both => ?_⟩
    · have below : ¬ (currency.totalCap.toNat : ℤ) < new.totalCount := fun above =>
        exceeds ⟨capped, above⟩
      omega
    · omega

end CurrencyTypesEntry

namespace Purse

open CurrencyTypesEntry

variable {p p' : Purse} {rules : CurrencyRules} {id : UInt32} {currency : CurrencyTypesEntry}
  {amount : Nat}

/-- It is no meta currency, and the player is within its caps. -/
structure InOrder (p : Purse) (rules : CurrencyRules) (id : UInt32) : Prop where
  plain : ∀ currency, rules.lookupEntry id = some currency →
    currency.category ≠ currencyCategoryMetaConquest
  orderly : ∀ currency, rules.lookupEntry id = some currency →
    currency.Orderly (p.getCurrencyWeekCap rules currency) (p.counts id)

theorem modifyOwnAsIs_eq (p : Purse) (rules : CurrencyRules) (currency : CurrencyTypesEntry)
    (count : ℤ) : (p.modifyOwnAsIs rules currency count).1 =
      p.store currency.id (currency.written (p.getCurrencyWeekCap rules currency)
        (p.counts currency.id) (limitCount (p.getCurrencyWeekCap rules currency) count)) := by
  unfold modifyOwnAsIs written
  dsimp only
  split
  · rfl
  · rfl

theorem modifyCurrencyAsIs_eq (isType : rules.lookupEntry id = some currency)
    (plain : currency.category ≠ currencyCategoryMetaConquest) {count : ℤ} (nonzero : count ≠ 0) :
    p.modifyCurrencyAsIs rules id count =
      some (p.store id (currency.written (p.getCurrencyWeekCap rules currency) (p.counts id)
        (limitCount (p.getCurrencyWeekCap rules currency) count))) := by
  have own := modifyOwnAsIs_eq p rules currency count
  rw [rules.id_of_lookup id currency isType] at own
  rw [modifyCurrencyAsIs, if_neg nonzero, isType, ← own]
  dsimp only
  cases called : p.modifyOwnAsIs rules currency count with
  | mk after forwarded =>
    cases forwarded with
    | none => rfl
    | some amount => exact if_neg plain

/-- So much of a currency is spent, or what there is of it. -/
structure Spent (p p' : Purse) (id : UInt32) (amount : Nat) : Prop where
  total : p'.total id = p.total id - amount
  week : (p'.counts id).weekCount = (p.counts id).weekCount
  others : ∀ other, other ≠ id → p'.currencyStorage other = p.currencyStorage other
  known : (p.currencyStorage id).isSome = true → (p'.currencyStorage id).isSome = true
  cap : p'.conquestTotalWeekCap = p.conquestTotalWeekCap

theorem counts_congr {other : UInt32}
    (same : p'.currencyStorage other = p.currencyStorage other) : p'.counts other = p.counts other :=
  congrArg (Option.getD · newCurrency) same

theorem getCurrencyWeekCap_congr (cap : p'.conquestTotalWeekCap = p.conquestTotalWeekCap)
    (rules : CurrencyRules) (currency : CurrencyTypesEntry) :
    p'.getCurrencyWeekCap rules currency = p.getCurrencyWeekCap rules currency := by
  rw [getCurrencyWeekCap, getCurrencyWeekCap, cap]

theorem spent_zero : Spent p p id 0 := ⟨rfl, rfl, fun _ _ => rfl, fun known => known, rfl⟩

theorem Spent.inOrder (spent : Spent p p' id amount) {other : UInt32}
    (inOrder : p.InOrder rules other) : p'.InOrder rules other where
  plain := inOrder.plain
  orderly := by
    intro currency isType
    have orderly := inOrder.orderly currency isType
    rw [getCurrencyWeekCap_congr spent.cap]
    by_cases isIt : other = id
    · have less : (p'.counts other).totalCount.toNat ≤ (p.counts other).totalCount.toNat := by
        have total := spent.total
        rw [isIt]
        exact Nat.le_trans (Nat.le_of_eq total) (Nat.sub_le _ _)
      have week : (p'.counts other).weekCount = (p.counts other).weekCount := isIt ▸ spent.week
      refine ⟨orderly.smallTotal, orderly.smallWeek, ⟨?_, ?_⟩, ?_, ?_⟩
      · exact Nat.lt_of_le_of_lt less orderly.stored.total
      · rw [week]
        exact orderly.stored.week
      · rw [week]
        exact orderly.inWeek
      · exact fun capped => UInt32.le_trans (UInt32.le_iff_toNat_le.mpr less) (orderly.inTotal capped)
    · rw [counts_congr (spent.others other isIt)]
      exact orderly

theorem currencyStorage_store (p : Purse) (id : UInt32) (cur : PlayerCurrency) {other : UInt32}
    (isOther : other ≠ id) : (p.store id cur).currencyStorage other = p.currencyStorage other :=
  Function.update_of_ne isOther _ _

theorem currencyStorage_storeAt (p : Purse) (id : UInt32) (cur : PlayerCurrency) :
    (p.store id cur).currencyStorage id = some cur :=
  Function.update_self _ _ _

theorem counts_storeAt (p : Purse) (id : UInt32) (cur : PlayerCurrency) :
    (p.store id cur).counts id = cur := by
  rw [counts_store, if_pos rfl]

section

variable (isType : rules.lookupEntry id = some currency)

include isType

theorem spend (inOrder : p.InOrder rules id) (small : amount ≤ 2 ^ 31) :
    ∃ p', p.modifyCurrencyAsIs rules id (-amount) = some p' ∧ Spent p p' id amount := by
  rcases Nat.eq_zero_or_pos amount with rfl | some
  · exact ⟨p, if_pos rfl, spent_zero⟩
  have written := written_spend_orderly (inOrder.orderly currency isType) small
  refine ⟨_, modifyCurrencyAsIs_eq isType (inOrder.plain currency isType) (by omega),
    ?_, ?_, ?_, ?_, rfl⟩
  · rw [total, counts_storeAt]
    exact written.1
  · rw [counts_storeAt]
    exact written.2
  · exact fun other isOther => currencyStorage_store p id _ isOther
  · intro known
    rw [currencyStorage_storeAt]
    rfl

theorem modifyCurrencyAsIs_of_total (inOrder : p.InOrder rules id) {count : ℤ} {p' : Purse}
    (called : p.modifyCurrencyAsIs rules id count = some p') (known : (p.currencyStorage id).isSome)
    (same : p'.total id = p.total id) : p' = p := by
  by_cases zero : count = 0
  · rw [zero, modifyCurrencyAsIs, if_pos rfl] at called
    exact (Option.some.inj called).symm
  rw [modifyCurrencyAsIs_eq isType (inOrder.plain currency isType) zero] at called
  have isIt := Option.some.inj called
  rw [← isIt, total, total, counts_storeAt, UInt32.toNat_inj] at same
  obtain ⟨cur, isCur⟩ := Option.isSome_iff_exists.mp known
  have counts : p.counts id = cur := by
    rw [Purse.counts, isCur]
    rfl
  rw [written] at same isIt
  split at same
  · rename_i differs
    exact absurd same differs
  · rename_i stays
    rw [if_neg stays, counts] at isIt
    rw [← isIt, store, Function.update_eq_self_iff.mpr isCur.symm]

theorem gain (inOrder : p.InOrder rules id) (some : 0 < amount) (small : amount < 2 ^ 31) :
    ∃ p', p.modifyCurrencyAsIs rules id amount = Option.some p' ∧
      p'.total id ≤ p.total id + amount ∧
      (p'.total id = p.total id + amount ↔
        currency.RoomFor (p.getCurrencyWeekCap rules currency) (p.counts id) amount) ∧
      (∀ other, other ≠ id → p'.currencyStorage other = p.currencyStorage other) ∧
      p'.conquestTotalWeekCap = p.conquestTotalWeekCap := by
  have written := written_gain_orderly (inOrder.orderly currency isType) some small
  refine ⟨_, modifyCurrencyAsIs_eq isType (inOrder.plain currency isType) (by omega), ?_, ?_, ?_, rfl⟩
  · rw [total, counts_storeAt]
    exact written.1
  · rw [total, counts_storeAt]
    exact written.2
  · exact fun other isOther => currencyStorage_store p id _ isOther

theorem modifyCurrencyAsIs_others (plain : currency.category ≠ currencyCategoryMetaConquest) (count : ℤ) :
    ∃ p', p.modifyCurrencyAsIs rules id count = some p' ∧
      ∀ other, other ≠ id → p'.currencyStorage other = p.currencyStorage other := by
  by_cases zero : count = 0
  · rw [zero]
    exact ⟨p, if_pos rfl, fun _ _ => rfl⟩
  · exact ⟨_, modifyCurrencyAsIs_eq isType plain zero,
      fun other isOther => currencyStorage_store p id _ isOther⟩

end

end Purse

end Sky548
