import Sky548.Currencies.Model

/-!
# The caps of one currency

What `ModifyCurrency` should do to the counts of a currency (`ExactCounts`), and
when it does: a gain is lost or found again where the total cap cuts it, for the
week count is then overwritten with the week cap, and where a cap has come down
below what the player has, for the clamps then take it away from him, from a
spend as well as from a gain.
-/

namespace Sky548

/-- Counts that a signed sum can be made of. -/
structure PlayerCurrency.Stored (old : PlayerCurrency) : Prop where
  total : old.totalCount.toNat < 2 ^ 31
  week : old.weekCount.toNat < 2 ^ 31

namespace CurrencyTypesEntry

/-- What fits of an amount under a cap, which is none if it is zero. -/
def room (cap used amount : ℕ) : ℕ := if cap = 0 then amount else min amount (cap - used)

def granted (currency : CurrencyTypesEntry) (weekCap : UInt32) (old : PlayerCurrency)
    (amount : ℕ) : ℕ :=
  min (room currency.totalCap.toNat old.totalCount.toNat amount)
    (room weekCap.toNat old.weekCount.toNat amount)

/-- The counts after `ModifyCurrency` with an amount that is limited already. -/
def written (currency : CurrencyTypesEntry) (weekCap : UInt32) (old : PlayerCurrency)
    (count : ℤ) : PlayerCurrency :=
  let new := currency.newCounts weekCap old count
  if UInt32.ofInt new.totalCount ≠ old.totalCount then
    { state := if old.state ≠ .new then .changed else old.state
      totalCount := UInt32.ofInt new.totalCount
      weekCount := UInt32.ofInt new.weekCount
      seasonCount := new.seasonCount }
  else old

/-- The sums of `ModifyCurrency`, as whole numbers, are values of their types. -/
structure NoWrap (weekCap : UInt32) (old : PlayerCurrency) (count : ℤ) : Prop where
  total : -2 ^ 31 ≤ old.totalCount.toNat + count ∧ old.totalCount.toNat + count < 2 ^ 31
  week : 0 < count → old.weekCount.toNat + count < 2 ^ 31
  season : 0 < count → old.seasonCount.toNat + count < 2 ^ 32
  difference : weekCap ≠ 0 →
    weekCap.toNat < old.weekCount.toNat + (if 0 < count then count else 0) →
      old.weekCount ≤ weekCap

/-- What `ModifyCurrency` should do to one currency. -/
structure ExactCounts (currency : CurrencyTypesEntry) (weekCap : UInt32) (old : PlayerCurrency)
    (count : ℤ) (new : PlayerCurrency) : Prop where
  gain : 0 < count →
    new.totalCount.toNat =
        old.totalCount.toNat + currency.granted weekCap old count.toNat ∧
      new.weekCount.toNat = old.weekCount.toNat + currency.granted weekCap old count.toNat
  spend : count < 0 → -count ≤ old.totalCount.toNat →
    (new.totalCount.toNat : ℤ) = old.totalCount.toNat + count ∧ new.weekCount = old.weekCount
  noWrap : NoWrap weekCap old (limitCount weekCap count)

/-- The caps and the amount are values of `int32`, and the amount survives its
conversion to a single. -/
structure Fits (currency : CurrencyTypesEntry) (weekCap : UInt32) (count : ℤ) : Prop where
  totalCap : currency.totalCap.toNat < 2 ^ 31
  weekCap : weekCap.toNat < 2 ^ 31
  low : -2 ^ 31 ≤ count
  high : count < 2 ^ 31
  single : roundSingle count = count

/-- The player is below his week cap; a gain fits and is not cut by the total cap, unless nothing is
left of it or what is left fills the week too; a spend ends below the total cap. -/
structure Clear (currency : CurrencyTypesEntry) (weekCap : UInt32) (old : PlayerCurrency)
    (count : ℤ) : Prop where
  inWeek : weekCap ≠ 0 → old.weekCount ≤ weekCap
  gainSums : 0 < count →
    old.totalCount.toNat + limitCount weekCap count < 2 ^ 31 ∧
      old.weekCount.toNat + limitCount weekCap count < 2 ^ 31 ∧
      old.seasonCount.toNat + limitCount weekCap count < 2 ^ 32
  gainCap : 0 < count → currency.totalCap ≠ 0 → old.totalCount ≤ currency.totalCap ∧
    (old.totalCount = currency.totalCap ∨
      old.totalCount.toNat + room weekCap.toNat old.weekCount.toNat count.toNat ≤
        currency.totalCap.toNat ∨
      old.weekCount.toNat + (currency.totalCap.toNat - old.totalCount.toNat) = weekCap.toNat)
  spendCap : count < 0 → -count ≤ old.totalCount.toNat → currency.totalCap ≠ 0 →
    old.totalCount.toNat + count ≤ currency.totalCap.toNat

variable {currency : CurrencyTypesEntry} {weekCap : UInt32} {old : PlayerCurrency} {count : ℤ}

theorem toInt32_toNat {n : UInt32} (small : n.toNat < 2 ^ 31) : toInt32 n.toNat = n.toNat :=
  toInt32_of_bounds (by omega) (by omega)

theorem toNat_ne_zero {n : UInt32} : n ≠ 0 ↔ n.toNat ≠ 0 :=
  not_congr UInt32.toNat_inj.symm

theorem toNat_ofInt {n : ℤ} (low : 0 ≤ n) (high : n < 2 ^ 32) :
    ((UInt32.ofInt n).toNat : ℤ) = n := by
  unfold UInt32.ofInt
  rw [UInt32.toNat_ofNat_of_lt']
  · omega
  · change (n % (2 ^ 32 : ℤ)).toNat < 2 ^ 32
    omega

theorem limitCount_eq (small : weekCap.toNat < 2 ^ 31) (count : ℤ) :
    limitCount weekCap count = if weekCap.toNat ≠ 0 then min count weekCap.toNat else count := by
  unfold limitCount
  rw [toInt32_toNat small]
  simp only [toNat_ne_zero]
  split
  · rename_i exceeds
    rw [if_pos exceeds.1]
    omega
  rename_i within
  split
  · omega
  · rfl

theorem limitWeek_gain (fits : Fits currency weekCap count) (stored : old.Stored)
    (positive : 0 < count) (noWrap : NoWrap weekCap old (limitCount weekCap count)) :
    limitWeek weekCap old (sums old (limitCount weekCap count)) =
      { totalCount := old.totalCount.toNat +
          room weekCap.toNat old.weekCount.toNat count.toNat
        weekCount := old.weekCount.toNat + room weekCap.toNat old.weekCount.toNat count.toNat
        seasonCount := old.seasonCount + UInt32.ofInt (limitCount weekCap count) } := by
  have total := stored.total
  have week := stored.week
  have limited := limitCount_eq fits.weekCap count
  have isGain : 0 < limitCount weekCap count := by
    rw [limited]
    split <;> omega
  have ⟨totalLow, totalHigh⟩ := noWrap.total
  have weekHigh := noWrap.week isGain
  have difference := noWrap.difference
  rw [if_pos isGain] at difference
  generalize limitCount weekCap count = c at *
  unfold sums limitWeek room
  rw [if_pos isGain, if_pos isGain, toInt32_toNat total, toInt32_toNat week,
    toInt32_of_bounds totalLow totalHigh, toInt32_of_bounds (by omega) weekHigh,
    toInt32_toNat fits.weekCap]
  dsimp only
  split
  · rename_i exceeds
    obtain ⟨capped, above⟩ := exceeds
    have inWeek := UInt32.le_iff_toNat_le.mp (difference capped above)
    have isCap := toNat_ne_zero.mp capped
    rw [if_pos isCap] at limited
    have sum : (old.totalCount + (weekCap - old.weekCount)).toNat =
        old.totalCount.toNat + (weekCap.toNat - old.weekCount.toNat) := by
      rw [UInt32.toNat_add, UInt32.toNat_sub_of_le _ _ (difference capped above)]
      omega
    rw [sum, toInt32_of_bounds (by omega) (by omega), if_neg isCap]
    congr 1 <;> omega
  · rename_i within
    rw [not_and_or, not_ne_iff] at within
    split
    · rename_i noCap
      rw [if_neg (not_ne_iff.mpr noCap)] at limited
      congr 1 <;> omega
    rename_i isCap
    rw [if_pos isCap] at limited
    have capped : weekCap ≠ 0 := toNat_ne_zero.mpr isCap
    have below : ¬ (weekCap.toNat : ℤ) < old.weekCount.toNat + c := by
      rcases within with noCap | below
      · exact absurd noCap capped
      · exact below
    congr 1 <;> omega

theorem limitWeek_spend (fits : Fits currency weekCap count) (stored : old.Stored)
    (negative : count < 0) (inWeek : weekCap ≠ 0 → old.weekCount ≤ weekCap) :
    limitWeek weekCap old (sums old (limitCount weekCap count)) =
      { totalCount := old.totalCount.toNat + count
        weekCount := old.weekCount.toNat
        seasonCount := old.seasonCount } := by
  have total := stored.total
  have low := fits.low
  have limited : limitCount weekCap count = count := by
    rw [limitCount_eq fits.weekCap]
    split <;> omega
  have noGain : ¬ 0 < count := by omega
  have summed : sums old count =
      { totalCount := old.totalCount.toNat + count
        weekCount := old.weekCount.toNat
        seasonCount := old.seasonCount } := by
    unfold sums
    rw [if_neg noGain, if_neg noGain, toInt32_toNat total, toInt32_toNat stored.week,
      toInt32_of_bounds (by omega) (by omega)]
  rw [limited, summed]
  unfold limitWeek
  rw [toInt32_toNat fits.weekCap, if_neg]
  intro ⟨capped, above⟩
  have := UInt32.le_iff_toNat_le.mp (inWeek capped)
  dsimp only at above
  omega

theorem limitTotal_eq (fits : Fits currency weekCap count) (new : NewCounts) :
    currency.limitTotal weekCap new =
      if currency.totalCap.toNat ≠ 0 ∧ (currency.totalCap.toNat : ℤ) < new.totalCount then
        { new with
          totalCount := currency.totalCap.toNat
          weekCount := weekCap.toNat }
      else new := by
  unfold limitTotal
  rw [toInt32_toNat fits.totalCap, toInt32_toNat fits.weekCap]
  simp only [toNat_ne_zero]

theorem written_eq {total week : ℕ} {season : UInt32} (totalSmall : total < 2 ^ 31)
    (weekSmall : week < 2 ^ 31)
    (counts : currency.newCounts weekCap old count = ⟨total, week, season⟩) :
    (currency.written weekCap old count).totalCount.toNat = total ∧
      (currency.written weekCap old count).weekCount.toNat =
        if total = old.totalCount.toNat then old.weekCount.toNat else week := by
  have totalNat : ((UInt32.ofInt (total : ℤ)).toNat : ℤ) = total :=
    toNat_ofInt (by omega) (by omega)
  have weekNat : ((UInt32.ofInt (week : ℤ)).toNat : ℤ) = week :=
    toNat_ofInt (by omega) (by omega)
  unfold written
  rw [counts]
  rcases eq_or_ne (UInt32.ofInt (total : ℤ)) old.totalCount with same | changed
  · have equal : total = old.totalCount.toNat := by
      have := congrArg UInt32.toNat same
      omega
    rw [if_neg (not_ne_iff.mpr same), if_pos equal]
    exact ⟨equal.symm, rfl⟩
  · have differs : (UInt32.ofInt (total : ℤ)).toNat ≠ old.totalCount.toNat := fun same =>
      changed (UInt32.toNat_inj.mp same)
    rw [if_pos changed, if_neg (show ¬ total = old.totalCount.toNat by omega)]
    dsimp only
    exact ⟨by omega, by omega⟩

theorem granted_le (currency : CurrencyTypesEntry) (weekCap : UInt32) (old : PlayerCurrency)
    (amount : ℕ) : currency.granted weekCap old amount ≤ amount := by
  unfold granted room
  split <;> split <;> omega

/-- The total cap cuts what the week cap leaves of a gain. -/
def cuts (currency : CurrencyTypesEntry) (weekCap : UInt32) (old : PlayerCurrency)
    (amount : ℕ) : Bool :=
  currency.totalCap.toNat ≠ 0 &&
    currency.totalCap.toNat < old.totalCount.toNat + room weekCap.toNat old.weekCount.toNat amount

theorem cuts_iff {amount : ℕ} : currency.cuts weekCap old amount ↔
    currency.totalCap.toNat ≠ 0 ∧ currency.totalCap.toNat <
      old.totalCount.toNat + room weekCap.toNat old.weekCount.toNat amount := by
  simp [cuts]

def gainedTotal (currency : CurrencyTypesEntry) (weekCap : UInt32) (old : PlayerCurrency)
    (amount : ℕ) : ℕ :=
  if currency.cuts weekCap old amount then currency.totalCap.toNat
  else old.totalCount.toNat + room weekCap.toNat old.weekCount.toNat amount

/-- The week count: where the total cap cuts the gain, it becomes the week cap. -/
def gainedWeek (currency : CurrencyTypesEntry) (weekCap : UInt32) (old : PlayerCurrency)
    (amount : ℕ) : ℕ :=
  if currency.cuts weekCap old amount then weekCap.toNat
  else old.weekCount.toNat + room weekCap.toNat old.weekCount.toNat amount

section

variable (fits : Fits currency weekCap count)

include fits

theorem room_le_limitCount (positive : 0 < count)
    (used : ℕ) : (room weekCap.toNat used count.toNat : ℤ) ≤ limitCount weekCap count := by
  rw [limitCount_eq fits.weekCap]
  unfold room
  rcases Nat.eq_zero_or_pos weekCap.toNat with none | capped
  · rw [if_pos none, if_neg (by omega)]
    omega
  · rw [if_neg (by omega), if_pos (by omega)]
    omega

theorem limitCount_pos (positive : 0 < count) :
    0 < limitCount weekCap count := by
  rw [limitCount_eq fits.weekCap]
  split <;> omega

theorem written_gain (stored : old.Stored)
    (positive : 0 < count) (noWrap : NoWrap weekCap old (limitCount weekCap count)) :
    (currency.written weekCap old (limitCount weekCap count)).totalCount.toNat =
        currency.gainedTotal weekCap old count.toNat ∧
      (currency.written weekCap old (limitCount weekCap count)).weekCount.toNat =
        if currency.gainedTotal weekCap old count.toNat = old.totalCount.toNat then
          old.weekCount.toNat
        else currency.gainedWeek weekCap old count.toNat := by
  have totalHigh := noWrap.total.2
  have weekHigh := noWrap.week (limitCount_pos fits positive)
  have within := room_le_limitCount fits positive old.weekCount.toNat
  have capSmall := fits.totalCap
  have weekSmall := fits.weekCap
  have counts : currency.newCounts weekCap old (limitCount weekCap count) =
      { totalCount := currency.gainedTotal weekCap old count.toNat
        weekCount := currency.gainedWeek weekCap old count.toNat
        seasonCount := old.seasonCount + UInt32.ofInt (limitCount weekCap count) } := by
    unfold newCounts gainedTotal gainedWeek
    rw [limitWeek_gain fits stored positive noWrap, limitTotal_eq fits]
    cases isCut : currency.cuts weekCap old count.toNat with
    | true =>
      have above := cuts_iff.mp isCut
      rw [if_pos ⟨above.1, by dsimp only; omega⟩, if_pos rfl, if_pos rfl]
      dsimp only
      rw [max_eq_right (by omega), max_eq_right (by omega)]
    | false =>
      rw [if_neg, if_neg Bool.false_ne_true, if_neg Bool.false_ne_true]
      · dsimp only
        rw [max_eq_right (by omega), max_eq_right (by omega)]
        push_cast
        rfl
      · intro ⟨capped, above⟩
        dsimp only at above
        rw [cuts_iff.mpr ⟨capped, by omega⟩] at isCut
        cases isCut
  refine written_eq ?_ ?_ counts
  · unfold gainedTotal
    split <;> omega
  · unfold gainedWeek
    split <;> omega

theorem gain_iff (stored : old.Stored) (positive : 0 < count) :
    currency.ExactCounts weekCap old count
        (currency.written weekCap old (limitCount weekCap count)) ↔
      currency.Clear weekCap old count := by
  have isGain := limitCount_pos fits positive
  have noSpend : ¬ count < 0 := by omega
  have limited := limitCount_eq fits.weekCap count
  constructor
  · intro exact
    have noWrap := exact.noWrap
    have inWeek : weekCap ≠ 0 → old.weekCount ≤ weekCap := by
      intro capped
      by_contra above
      rw [UInt32.le_iff_toNat_le] at above
      apply above
      exact UInt32.le_iff_toNat_le.mp (noWrap.difference capped (by rw [if_pos isGain]; omega))
    refine ⟨inWeek, fun _ => ⟨noWrap.total.2, noWrap.week isGain, noWrap.season isGain⟩,
      fun _ capped => ?_, fun negative => absurd negative noSpend⟩
    obtain ⟨total, week⟩ := written_gain fits stored positive noWrap
    obtain ⟨gainTotal, gainWeek⟩ := exact.gain positive
    have capped := toNat_ne_zero.mp capped
    have isGranted : currency.granted weekCap old count.toNat =
        min (min count.toNat (currency.totalCap.toNat - old.totalCount.toNat))
          (room weekCap.toNat old.weekCount.toNat count.toNat) := by
      unfold granted
      rw [room, if_neg capped]
    rw [total, isGranted, gainedTotal] at gainTotal
    rw [week, isGranted, gainedTotal, gainedWeek] at gainWeek
    rw [UInt32.le_iff_toNat_le, ← UInt32.toNat_inj]
    cases isCut : currency.cuts weekCap old count.toNat with
    | true =>
      have above := (cuts_iff.mp isCut).2
      rw [isCut, if_pos rfl] at gainTotal
      rw [isCut, if_pos rfl, if_pos rfl] at gainWeek
      split at gainWeek <;> omega
    | false =>
      have below : ¬ currency.totalCap.toNat <
          old.totalCount.toNat + room weekCap.toNat old.weekCount.toNat count.toNat := by
        intro above
        rw [cuts_iff.mpr ⟨capped, above⟩] at isCut
        cases isCut
      omega
  · intro clear
    obtain ⟨totalSum, weekSum, seasonSum⟩ := clear.gainSums positive
    have noWrap : NoWrap weekCap old (limitCount weekCap count) :=
      ⟨⟨by omega, totalSum⟩, fun _ => weekSum, fun _ => seasonSum,
        fun capped _ => clear.inWeek capped⟩
    refine ⟨fun _ => ?_, fun negative => absurd negative noSpend, noWrap⟩
    obtain ⟨total, week⟩ := written_gain fits stored positive noWrap
    rw [total, week]
    have uncut := clear.gainCap positive
    rw [toNat_ne_zero, UInt32.le_iff_toNat_le, ← UInt32.toNat_inj] at uncut
    have atMost : room weekCap.toNat old.weekCount.toNat count.toNat ≤ count.toNat := by
      unfold room
      split <;> omega
    unfold gainedTotal gainedWeek
    cases isCut : currency.cuts weekCap old count.toNat with
    | true =>
      obtain ⟨capped, above⟩ := cuts_iff.mp isCut
      have uncut := uncut capped
      have isGranted : currency.granted weekCap old count.toNat =
          currency.totalCap.toNat - old.totalCount.toNat := by
        unfold granted
        rw [room, if_neg capped]
        omega
      rw [if_pos rfl, if_pos rfl, isGranted]
      split <;> omega
    | false =>
      have isGranted : currency.granted weekCap old count.toNat =
          room weekCap.toNat old.weekCount.toNat count.toNat := by
        unfold granted
        rw [room]
        split
        · omega
        rename_i capped
        have below : ¬ currency.totalCap.toNat <
            old.totalCount.toNat + room weekCap.toNat old.weekCount.toNat count.toNat := by
          intro above
          rw [cuts_iff.mpr ⟨capped, above⟩] at isCut
          cases isCut
        omega
      rw [if_neg Bool.false_ne_true, if_neg Bool.false_ne_true, isGranted]
      split <;> omega

theorem granted_of_total (stored : old.Stored)
    (positive : 0 < count) (noWrap : NoWrap weekCap old (limitCount weekCap count)) {x : ℕ}
    (total : (currency.written weekCap old (limitCount weekCap count)).totalCount.toNat =
      old.totalCount.toNat + x) : currency.granted weekCap old count.toNat = x := by
  rw [(written_gain fits stored positive noWrap).1, gainedTotal] at total
  have atMost : room weekCap.toNat old.weekCount.toNat count.toNat ≤ count.toNat := by
    unfold room
    split <;> omega
  unfold granted
  rw [room]
  cases isCut : currency.cuts weekCap old count.toNat with
  | true =>
    obtain ⟨capped, above⟩ := cuts_iff.mp isCut
    rw [isCut, if_pos rfl] at total
    rw [if_neg capped]
    omega
  | false =>
    rw [isCut, if_neg Bool.false_ne_true] at total
    split
    · omega
    rename_i capped
    have below : ¬ currency.totalCap.toNat <
        old.totalCount.toNat + room weekCap.toNat old.weekCount.toNat count.toNat := by
      intro above
      rw [cuts_iff.mpr ⟨capped, above⟩] at isCut
      cases isCut
    omega

theorem gain_as_iff (stored : old.Stored) (positive : 0 < count) (x : ℕ) :
    ((currency.written weekCap old (limitCount weekCap count)).totalCount.toNat =
          old.totalCount.toNat + x ∧
        (currency.written weekCap old (limitCount weekCap count)).weekCount.toNat =
          old.weekCount.toNat + x ∧
        NoWrap weekCap old (limitCount weekCap count)) ↔
      currency.Clear weekCap old count ∧ currency.granted weekCap old count.toNat = x := by
  constructor
  · intro ⟨total, week, noWrap⟩
    have isGranted := granted_of_total fits stored positive noWrap total
    refine ⟨(gain_iff fits stored positive).mp ⟨fun _ => ?_, fun negative => ?_, noWrap⟩, isGranted⟩
    · rw [isGranted]
      exact ⟨total, week⟩
    · omega
  · intro ⟨clear, isGranted⟩
    have exact := (gain_iff fits stored positive).mpr clear
    obtain ⟨total, week⟩ := exact.gain positive
    rw [isGranted] at total week
    exact ⟨total, week, exact.noWrap⟩

theorem limitCount_of_neg (negative : count < 0) :
    limitCount weekCap count = count := by
  rw [limitCount_eq fits.weekCap]
  split <;> omega

theorem noWrap_spend_iff (stored : old.Stored) (negative : count < 0) :
    NoWrap weekCap old (limitCount weekCap count) ↔
      (weekCap ≠ 0 → old.weekCount ≤ weekCap) := by
  have total := stored.total
  have low := fits.low
  rw [limitCount_of_neg fits negative]
  constructor
  · intro noWrap capped
    by_contra above
    rw [UInt32.le_iff_toNat_le] at above
    exact above (UInt32.le_iff_toNat_le.mp
      (noWrap.difference capped (by rw [if_neg (by omega)]; omega)))
  · intro inWeek
    exact ⟨by omega, by omega, by omega, fun capped _ => inWeek capped⟩

theorem written_spend (stored : old.Stored)
    (negative : count < 0) (inWeek : weekCap ≠ 0 → old.weekCount ≤ weekCap) :
    let above := currency.totalCap.toNat ≠ 0 ∧
      (currency.totalCap.toNat : ℤ) < old.totalCount.toNat + count
    (¬ above → ((currency.written weekCap old (limitCount weekCap count)).totalCount.toNat : ℤ) =
        max 0 (old.totalCount.toNat + count) ∧
      (currency.written weekCap old (limitCount weekCap count)).weekCount = old.weekCount) ∧
    (above → (currency.written weekCap old (limitCount weekCap count)).totalCount =
        currency.totalCap) := by
  have total := stored.total
  have week := stored.week
  have capSmall := fits.totalCap
  have weekSmall := fits.weekCap
  have limits := limitWeek_spend fits stored negative inWeek
  constructor
  · intro below
    have counts : currency.newCounts weekCap old (limitCount weekCap count) =
        { totalCount := (old.totalCount.toNat + count).toNat
          weekCount := old.weekCount.toNat
          seasonCount := old.seasonCount } := by
      unfold newCounts
      rw [limits, limitTotal_eq fits, if_neg below]
      dsimp only
      congr 1
      omega
    obtain ⟨isTotal, isWeek⟩ := written_eq (by omega) week counts
    refine ⟨by rw [isTotal]; omega, ?_⟩
    rw [← UInt32.toNat_inj, isWeek]
    split <;> rfl
  · intro above
    have counts : currency.newCounts weekCap old (limitCount weekCap count) =
        { totalCount := currency.totalCap.toNat
          weekCount := weekCap.toNat
          seasonCount := old.seasonCount } := by
      unfold newCounts
      rw [limits, limitTotal_eq fits, if_pos above]
      dsimp only
      rw [max_eq_right (by omega), max_eq_right (by omega)]
    obtain ⟨isTotal, -⟩ := written_eq capSmall weekSmall counts
    exact UInt32.toNat_inj.mp isTotal

theorem spend_iff (stored : old.Stored) (negative : count < 0) :
    currency.ExactCounts weekCap old count
        (currency.written weekCap old (limitCount weekCap count)) ↔
      currency.Clear weekCap old count := by
  have noGain : ¬ 0 < count := by omega
  constructor
  · intro exact
    have inWeek := (noWrap_spend_iff fits stored negative).mp exact.noWrap
    refine ⟨inWeek, fun positive => absurd positive noGain, fun positive => absurd positive noGain,
      fun _ enough capped => ?_⟩
    by_contra above
    have cut := (written_spend fits stored negative inWeek).2 ⟨toNat_ne_zero.mp capped, by omega⟩
    have total := (exact.spend negative enough).1
    rw [cut] at total
    omega
  · intro clear
    have noWrap := (noWrap_spend_iff fits stored negative).mpr clear.inWeek
    refine ⟨fun positive => absurd positive noGain, fun _ enough => ?_, noWrap⟩
    obtain ⟨total, week⟩ := (written_spend fits stored negative clear.inWeek).1 (by
      intro ⟨capped, above⟩
      have := clear.spendCap negative enough (toNat_ne_zero.mpr capped)
      omega)
    exact ⟨by omega, week⟩

theorem exactCounts_iff (stored : old.Stored) (nonzero : count ≠ 0) :
    currency.ExactCounts weekCap old count
        (currency.written weekCap old (limitCount weekCap count)) ↔
      currency.Clear weekCap old count := by
  rcases lt_or_gt_of_ne nonzero with negative | positive
  · exact spend_iff fits stored negative
  · exact gain_iff fits stored positive

end

theorem newCounts_lt (currency : CurrencyTypesEntry) (weekCap : UInt32) (old : PlayerCurrency)
    (count : ℤ) :
    (currency.newCounts weekCap old count).totalCount < 2 ^ 31 ∧
      (currency.newCounts weekCap old count).weekCount < 2 ^ 31 := by
  have high := fun n => (toInt32_bounds n).2
  have sumsHigh : (sums old count).totalCount < 2 ^ 31 ∧ (sums old count).weekCount < 2 ^ 31 := by
    unfold sums
    dsimp only
    refine ⟨high _, ?_⟩
    split
    · exact high _
    · exact high _
  have weekHigh : (limitWeek weekCap old (sums old count)).totalCount < 2 ^ 31 ∧
      (limitWeek weekCap old (sums old count)).weekCount < 2 ^ 31 := by
    unfold limitWeek
    split
    · dsimp only
      exact ⟨high _, high _⟩
    · exact sumsHigh
  have totalHigh : (currency.limitTotal weekCap (limitWeek weekCap old (sums old count))).totalCount <
        2 ^ 31 ∧
      (currency.limitTotal weekCap (limitWeek weekCap old (sums old count))).weekCount < 2 ^ 31 := by
    unfold limitTotal
    split
    · dsimp only
      exact ⟨high _, high _⟩
    · exact weekHigh
  unfold newCounts
  dsimp only
  omega

theorem stored_written (stored : old.Stored) (count : ℤ) :
    (currency.written weekCap old count).Stored := by
  obtain ⟨totalHigh, weekHigh⟩ := newCounts_lt currency weekCap old count
  have counts : currency.newCounts weekCap old count =
      ⟨((currency.newCounts weekCap old count).totalCount.toNat : ℕ),
        ((currency.newCounts weekCap old count).weekCount.toNat : ℕ),
        (currency.newCounts weekCap old count).seasonCount⟩ := by
    have total : 0 ≤ (currency.newCounts weekCap old count).totalCount := le_max_left _ _
    have week : 0 ≤ (currency.newCounts weekCap old count).weekCount := le_max_left _ _
    rw [Int.toNat_of_nonneg total, Int.toNat_of_nonneg week]
  obtain ⟨writtenTotal, writtenWeek⟩ := written_eq (by omega) (by omega) counts
  have := stored.week
  refine ⟨by omega, ?_⟩
  rw [writtenWeek]
  split <;> omega

end CurrencyTypesEntry

end Sky548
