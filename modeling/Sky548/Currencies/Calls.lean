import Sky548.Currencies.Caps
import Sky548.Machine

/-!
# Calls of ModifyCurrency

Sequences of `ModifyCurrency` calls, each under its own caps. A call for a meta currency is handed
on to the conquest points with the amount that the week cap has limited, not with the amount by
which the meta currency has grown.
-/

namespace Sky548

structure CurrencyCall where
  rules : CurrencyRules
  id : UInt32
  currency : CurrencyTypesEntry
  count : ℤ
  isType : rules.lookupEntry id = some currency

namespace Purse

open CurrencyTypesEntry

variable {p : Purse} {rules : CurrencyRules} {currency : CurrencyTypesEntry} {count : ℤ}

theorem counts_store (p : Purse) (id other : UInt32) (cur : PlayerCurrency) :
    (p.store id cur).counts other = if other = id then cur else p.counts other := by
  unfold counts store
  dsimp only
  rw [Function.update_apply]
  split <;> rfl

@[simp] theorem raiseConquestCap_counts (p : Purse) (weekCap : UInt32) (id : UInt32) :
    (p.raiseConquestCap weekCap).counts id = p.counts id := rfl

theorem modifyOwn_eq
    (fits : CurrencyTypesEntry.Fits currency (p.getCurrencyWeekCap rules currency) count) :
    p.modifyOwn rules currency count =
      (p.store currency.id (currency.written (p.getCurrencyWeekCap rules currency)
          (p.counts currency.id) (limitCount (p.getCurrencyWeekCap rules currency) count)),
        if (currency.written (p.getCurrencyWeekCap rules currency) (p.counts currency.id)
            (limitCount (p.getCurrencyWeekCap rules currency) count)).totalCount ≠
              (p.counts currency.id).totalCount then
          some (limitCount (p.getCurrencyWeekCap rules currency) count)
        else none) := by
  have amount : toInt32 (roundSingle count) = count := by
    rw [fits.single]
    exact toInt32_of_bounds fits.low fits.high
  unfold modifyOwn written
  rw [amount]
  dsimp only
  split
  · rfl
  · rw [if_neg fun same => same rfl]

/-- The counts of a purse can be summed. -/
def Stored (p : Purse) : Prop := ∀ id, (p.counts id).Stored

theorem Stored.store (stored : p.Stored) (id : UInt32) {cur : PlayerCurrency}
    (curStored : cur.Stored) : (p.store id cur).Stored := by
  intro other
  rw [counts_store]
  split
  · exact curStored
  · exact stored other

theorem Stored.modifyOwn (stored : p.Stored)
    (fits : CurrencyTypesEntry.Fits currency (p.getCurrencyWeekCap rules currency) count) :
    (p.modifyOwn rules currency count).1.Stored := by
  rw [modifyOwn_eq fits]
  exact stored.store _ (stored_written (stored currency.id) _)

def weekCapOf (p : Purse) (call : CurrencyCall) : UInt32 :=
  p.getCurrencyWeekCap call.rules call.currency

def conquestWeekCapOf (p : Purse) (call : CurrencyCall) : UInt32 :=
  (p.raiseConquestCap (p.weekCapOf call)).getCurrencyWeekCap call.rules call.rules.conquestPoints

/-- The amount that a call gives to its own currency, as it should. -/
def grantOf (p : Purse) (call : CurrencyCall) : ℕ :=
  call.currency.granted (p.weekCapOf call) (p.counts call.id) call.count.toNat

def isMeta (call : CurrencyCall) : Prop :=
  call.currency.category = currencyCategoryMetaConquest

instance (call : CurrencyCall) : Decidable (isMeta call) :=
  inferInstanceAs (Decidable (_ = _))

/-- The amount that a call hands on to the conquest points. -/
def handsOn (p : Purse) (call : CurrencyCall) : Option ℤ :=
  if isMeta call then (p.modifyOwn call.rules call.currency call.count).2 else none

/-- A failed assertion ends the run of the server. -/
def step (p : Purse) (call : CurrencyCall) : Purse :=
  (p.modifyCurrency call.rules call.id call.count).getD p

/-- What a call should do: to its own currency, and through a meta currency to
the conquest points. -/
structure ExactCall (p : Purse) (call : CurrencyCall) : Prop where
  succeeds : p.modifyCurrency call.rules call.id call.count ≠ none
  own : call.count ≠ 0 → call.currency.ExactCounts (p.weekCapOf call) (p.counts call.id)
    call.count ((step p call).counts call.id)
  conquest : isMeta call → 0 < call.count →
    ((step p call).counts currencyTypeConquestPoints).totalCount.toNat =
        (p.counts currencyTypeConquestPoints).totalCount.toNat +
          call.rules.conquestPoints.granted (p.conquestWeekCapOf call)
            (p.counts currencyTypeConquestPoints) (p.grantOf call) ∧
      ((step p call).counts currencyTypeConquestPoints).weekCount.toNat =
        (p.counts currencyTypeConquestPoints).weekCount.toNat +
          call.rules.conquestPoints.granted (p.conquestWeekCapOf call)
            (p.counts currencyTypeConquestPoints) (p.grantOf call)
  conquestSums : call.count ≠ 0 → ∀ amount ∈ p.handsOn call,
    NoWrap (p.conquestWeekCapOf call) (p.counts currencyTypeConquestPoints)
      (limitCount (p.conquestWeekCapOf call) amount)

/-- The caps and amounts are values of `int32`, and the amounts survive their
conversions. -/
structure FitsCall (p : Purse) (call : CurrencyCall) : Prop where
  own : CurrencyTypesEntry.Fits call.currency (p.weekCapOf call) call.count
  conquest : isMeta call →
    CurrencyTypesEntry.Fits call.rules.conquestPoints (p.conquestWeekCapOf call)
      (limitCount (p.weekCapOf call) call.count)

/-- The call is clear for its own currency; what a meta currency hands on is clear for the conquest
points, and fits under their caps no further than the meta currency has grown. -/
structure ClearCall (p : Purse) (call : CurrencyCall) : Prop where
  own : call.count ≠ 0 → call.currency.Clear (p.weekCapOf call) (p.counts call.id) call.count
  gain : isMeta call → 0 < call.count → 0 < p.grantOf call →
    call.rules.conquestPoints.Clear (p.conquestWeekCapOf call)
        (p.counts currencyTypeConquestPoints) (limitCount (p.weekCapOf call) call.count) ∧
      call.rules.conquestPoints.granted (p.conquestWeekCapOf call)
          (p.counts currencyTypeConquestPoints)
          (limitCount (p.weekCapOf call) call.count).toNat =
        call.rules.conquestPoints.granted (p.conquestWeekCapOf call)
          (p.counts currencyTypeConquestPoints) (p.grantOf call)
  spend : isMeta call → call.count < 0 → 0 < (p.counts call.id).totalCount.toNat →
    p.conquestWeekCapOf call ≠ 0 →
      (p.counts currencyTypeConquestPoints).weekCount ≤ p.conquestWeekCapOf call

variable {call : CurrencyCall}

theorem id_of_isType (call : CurrencyCall) : call.currency.id = call.id :=
  call.rules.id_of_lookup call.id call.currency call.isType

theorem conquestPoints_id (rules : CurrencyRules) :
    rules.conquestPoints.id = currencyTypeConquestPoints :=
  rules.id_of_lookup _ _ rules.lookup_conquestPoints

theorem id_ne_conquestPoints (ofMeta : isMeta call) : call.id ≠ currencyTypeConquestPoints := by
  intro same
  have found := call.isType
  rw [same, call.rules.lookup_conquestPoints] at found
  have isConquest : call.rules.conquestPoints = call.currency := Option.some.inj found
  apply call.rules.conquestPoints_plain
  rw [isConquest]
  exact ofMeta

def writtenOf (p : Purse) (call : CurrencyCall) : PlayerCurrency :=
  call.currency.written (p.weekCapOf call) (p.counts call.id)
    (limitCount (p.weekCapOf call) call.count)

theorem handsOn_eq (fits : FitsCall p call) : p.handsOn call =
      if isMeta call ∧ (p.writtenOf call).totalCount ≠ (p.counts call.id).totalCount then
        some (limitCount (p.weekCapOf call) call.count)
      else none := by
  have own := modifyOwn_eq fits.own
  rw [id_of_isType] at own
  unfold handsOn
  rw [own]
  by_cases ofMeta : isMeta call
  · simp only [ofMeta, if_true, true_and]
    rfl
  · simp only [ofMeta, if_false, false_and]

theorem limitCount_ne_zero {weekCap : UInt32} (fits : CurrencyTypesEntry.Fits currency weekCap count)
    (nonzero : count ≠ 0) : limitCount weekCap count ≠ 0 := by
  rcases lt_or_gt_of_ne nonzero with negative | positive
  · rw [limitCount_of_neg fits negative]
    exact nonzero
  · exact (limitCount_pos fits positive).ne'

/-- The new counts of the conquest points, where a call hands on an amount. -/
def conquestWritten (p : Purse) (call : CurrencyCall) (amount : ℤ) : PlayerCurrency :=
  call.rules.conquestPoints.written (p.conquestWeekCapOf call)
    (p.counts currencyTypeConquestPoints) (limitCount (p.conquestWeekCapOf call) amount)

theorem modifyCurrency_eq (fits : FitsCall p call) (nonzero : call.count ≠ 0) :
    ∃ after, p.modifyCurrency call.rules call.id call.count = some after ∧
      after.counts call.id = p.writtenOf call ∧
      (isMeta call → after.counts currencyTypeConquestPoints =
        match p.handsOn call with
          | none => p.counts currencyTypeConquestPoints
          | some amount => p.conquestWritten call amount) ∧
      (p.Stored → after.Stored) := by
  have own : p.modifyOwn call.rules call.currency call.count = (p.store call.id (p.writtenOf call),
        if (p.writtenOf call).totalCount ≠ (p.counts call.id).totalCount then
          some (limitCount (p.weekCapOf call) call.count)
        else none) := by
    have eq := modifyOwn_eq fits.own
    rw [id_of_isType] at eq
    exact eq
  have stays : p.Stored → (p.store call.id (p.writtenOf call)).Stored := fun stored =>
    stored.store _ (stored_written (stored call.id) _)
  have written : (p.store call.id (p.writtenOf call)).counts call.id = p.writtenOf call := by
    rw [counts_store, if_pos rfl]
  have others : isMeta call → (p.store call.id (p.writtenOf call)).counts
      currencyTypeConquestPoints = p.counts currencyTypeConquestPoints := by
    intro isMeta
    rw [counts_store, if_neg (id_ne_conquestPoints isMeta).symm]
  rw [handsOn_eq fits]
  unfold modifyCurrency
  rw [if_neg nonzero, call.isType]
  dsimp only
  rw [own]
  rcases eq_or_ne (p.writtenOf call).totalCount (p.counts call.id).totalCount with same | changed
  · rw [if_neg (not_ne_iff.mpr same), if_neg fun both => both.2 same]
    exact ⟨_, rfl, written, others, stays⟩
  rw [if_pos changed]
  dsimp only
  by_cases ofMeta : isMeta call
  · -- the amount is handed on to the conquest points, under the raised cap
    have notZero := limitCount_ne_zero fits.own nonzero
    have category : call.currency.category = currencyCategoryMetaConquest := ofMeta
    rw [if_pos category, if_neg notZero, if_pos ⟨ofMeta, changed⟩]
    have handed : ((p.store call.id (p.writtenOf call)).raiseConquestCap
          (p.getCurrencyWeekCap call.rules call.currency)).modifyOwn call.rules
            call.rules.conquestPoints (limitCount (p.weekCapOf call) call.count) = _ :=
      modifyOwn_eq (fits.conquest ofMeta)
    rw [conquestPoints_id, raiseConquestCap_counts, others ofMeta] at handed
    refine ⟨_, rfl, ?_, fun _ => ?_, fun stored => ?_⟩
    · rw [handed, counts_store, if_neg (id_ne_conquestPoints ofMeta), raiseConquestCap_counts]
      exact written
    · rw [handed, counts_store, if_pos rfl]
      rfl
    · exact Stored.modifyOwn (stays stored) (fits.conquest ofMeta)
  · have category : ¬ call.currency.category = currencyCategoryMetaConquest := ofMeta
    rw [if_neg category, if_neg fun both => ofMeta both.1]
    exact ⟨_, rfl, written, fun isMeta => absurd isMeta ofMeta, stays⟩

theorem step_counts (fits : FitsCall p call) (nonzero : call.count ≠ 0) :
    p.modifyCurrency call.rules call.id call.count ≠ none ∧
      (step p call).counts call.id = p.writtenOf call ∧
      (isMeta call → (step p call).counts currencyTypeConquestPoints =
        match p.handsOn call with
          | none => p.counts currencyTypeConquestPoints
          | some amount => p.conquestWritten call amount) := by
  obtain ⟨after, done, own, conquest, -⟩ := modifyCurrency_eq fits nonzero
  unfold step
  rw [done]
  exact ⟨Option.some_ne_none after, own, conquest⟩

theorem granted_zero (currency : CurrencyTypesEntry) (weekCap : UInt32) (old : PlayerCurrency) :
    currency.granted weekCap old 0 = 0 :=
  Nat.le_zero.mp (granted_le currency weekCap old 0)

theorem conquest_gain_iff (stored : p.Stored) (fits : FitsCall p call) (ofMeta : isMeta call)
    (positive : 0 < call.count) (total : (p.writtenOf call).totalCount.toNat =
      (p.counts call.id).totalCount.toNat + p.grantOf call) :
    ((((step p call).counts currencyTypeConquestPoints).totalCount.toNat =
            (p.counts currencyTypeConquestPoints).totalCount.toNat +
              call.rules.conquestPoints.granted (p.conquestWeekCapOf call)
                (p.counts currencyTypeConquestPoints) (p.grantOf call) ∧
          ((step p call).counts currencyTypeConquestPoints).weekCount.toNat =
            (p.counts currencyTypeConquestPoints).weekCount.toNat +
              call.rules.conquestPoints.granted (p.conquestWeekCapOf call)
                (p.counts currencyTypeConquestPoints) (p.grantOf call)) ∧
        ∀ amount ∈ p.handsOn call,
          NoWrap (p.conquestWeekCapOf call) (p.counts currencyTypeConquestPoints)
            (limitCount (p.conquestWeekCapOf call) amount)) ↔
      (0 < p.grantOf call → call.rules.conquestPoints.Clear (p.conquestWeekCapOf call)
            (p.counts currencyTypeConquestPoints) (limitCount (p.weekCapOf call) call.count) ∧
          call.rules.conquestPoints.granted (p.conquestWeekCapOf call)
              (p.counts currencyTypeConquestPoints)
              (limitCount (p.weekCapOf call) call.count).toNat =
            call.rules.conquestPoints.granted (p.conquestWeekCapOf call)
              (p.counts currencyTypeConquestPoints) (p.grantOf call)) := by
  have handed := handsOn_eq fits
  have conquest := (step_counts fits positive.ne').2.2 ofMeta
  rcases Nat.eq_zero_or_pos (p.grantOf call) with nothing | something
  · -- the meta currency has not grown, and nothing is handed on
    have same : (p.writtenOf call).totalCount = (p.counts call.id).totalCount := by
      rw [← UInt32.toNat_inj, total, nothing, Nat.add_zero]
    rw [if_neg fun both => both.2 same] at handed
    rw [handed] at conquest
    rw [conquest, handed, nothing, granted_zero]
    exact iff_of_true ⟨⟨rfl, rfl⟩, fun _ impossible => nomatch impossible⟩
      fun impossible => absurd impossible (Nat.lt_irrefl 0)
  · have changed : (p.writtenOf call).totalCount ≠ (p.counts call.id).totalCount := by
      intro same
      rw [same] at total
      omega
    rw [if_pos ⟨ofMeta, changed⟩] at handed
    rw [handed] at conquest
    have inner := gain_as_iff (fits.conquest ofMeta) (stored currencyTypeConquestPoints)
      (limitCount_pos fits.own positive)
      (call.rules.conquestPoints.granted (p.conquestWeekCapOf call)
        (p.counts currencyTypeConquestPoints) (p.grantOf call))
    rw [conquest, handed]
    constructor
    · intro ⟨⟨isTotal, isWeek⟩, sums⟩ _
      exact inner.mp ⟨isTotal, isWeek, sums _ rfl⟩
    intro clear
    obtain ⟨isTotal, isWeek, sums⟩ := inner.mpr (clear something)
    refine ⟨⟨isTotal, isWeek⟩, fun amount isAmount => ?_⟩
    cases isAmount
    exact sums

theorem conquest_spend_iff (stored : p.Stored) (fits : FitsCall p call) (ofMeta : isMeta call)
    (negative : call.count < 0)
    (clear : call.currency.Clear (p.weekCapOf call) (p.counts call.id) call.count) :
    (∀ amount ∈ p.handsOn call,
        NoWrap (p.conquestWeekCapOf call) (p.counts currencyTypeConquestPoints)
          (limitCount (p.conquestWeekCapOf call) amount)) ↔
      (0 < (p.counts call.id).totalCount.toNat → p.conquestWeekCapOf call ≠ 0 →
        (p.counts currencyTypeConquestPoints).weekCount ≤ p.conquestWeekCapOf call) := by
  have limited := limitCount_of_neg fits.own negative
  have below : ¬ (call.currency.totalCap.toNat ≠ 0 ∧
      (call.currency.totalCap.toNat : ℤ) < (p.counts call.id).totalCount.toNat + call.count) := by
    intro ⟨capped, above⟩
    have := clear.spendCap negative (by omega) (toNat_ne_zero.mpr capped)
    omega
  have total := ((written_spend fits.own (stored call.id) negative clear.inWeek).1 below).1
  have handed := handsOn_eq fits
  have inner := noWrap_spend_iff (fits.conquest ofMeta) (stored currencyTypeConquestPoints)
    (by rw [limited]; exact negative)
  rcases Nat.eq_zero_or_pos (p.counts call.id).totalCount.toNat with empty | some
  · have same : (p.writtenOf call).totalCount = (p.counts call.id).totalCount := by
      rw [← UInt32.toNat_inj]
      unfold writtenOf
      omega
    rw [if_neg fun both => both.2 same] at handed
    rw [handed, empty]
    exact iff_of_true (fun _ impossible => nomatch impossible)
      fun impossible => absurd impossible (Nat.lt_irrefl 0)
  · have changed : (p.writtenOf call).totalCount ≠ (p.counts call.id).totalCount := by
      intro same
      have same := congrArg UInt32.toNat same
      unfold writtenOf at same
      omega
    rw [if_pos ⟨ofMeta, changed⟩] at handed
    rw [handed]
    constructor
    · intro sums _
      exact inner.mp (sums _ rfl)
    · intro inWeek amount isAmount
      cases isAmount
      exact inner.mpr (inWeek some)

theorem exactCall_iff (stored : p.Stored) (fits : FitsCall p call) :
    ExactCall p call ↔ ClearCall p call := by
  rcases eq_or_ne call.count 0 with zero | nonzero
  · have noGain : ¬ 0 < call.count := by omega
    have noSpend : ¬ call.count < 0 := by omega
    refine iff_of_true ⟨?_, fun nonzero => absurd zero nonzero, fun _ gain => absurd gain noGain,
      fun nonzero => absurd zero nonzero⟩ ⟨fun nonzero => absurd zero nonzero,
        fun _ gain => absurd gain noGain, fun _ spend => absurd spend noSpend⟩
    unfold modifyCurrency
    rw [if_pos zero]
    exact Option.some_ne_none p
  · obtain ⟨succeeds, own, -⟩ := step_counts fits nonzero
    have ownIff := exactCounts_iff fits.own (stored call.id) nonzero
    constructor
    · intro exact
      have exactOwn := exact.own nonzero
      rw [own] at exactOwn
      have clear := ownIff.mp exactOwn
      refine ⟨fun _ => clear, fun ofMeta positive => ?_, fun ofMeta negative => ?_⟩
      · have total := (exactOwn.gain positive).1
        exact (conquest_gain_iff stored fits ofMeta positive total).mp
          ⟨exact.conquest ofMeta positive, exact.conquestSums nonzero⟩
      · exact (conquest_spend_iff stored fits ofMeta negative clear).mp (exact.conquestSums nonzero)
    · intro clear
      have clearOwn := clear.own nonzero
      have exactOwn := ownIff.mpr clearOwn
      have gain : isMeta call → 0 < call.count → _ := fun ofMeta positive =>
        (conquest_gain_iff stored fits ofMeta positive (exactOwn.gain positive).1).mpr
          (clear.gain ofMeta positive)
      refine ⟨succeeds, fun _ => own ▸ exactOwn, fun ofMeta positive => (gain ofMeta positive).1,
        fun _ amount isAmount => ?_⟩
      have ofMeta : isMeta call := by
        by_contra plain
        unfold handsOn at isAmount
        rw [if_neg plain] at isAmount
        cases isAmount
      rcases lt_or_gt_of_ne nonzero with negative | positive
      · exact (conquest_spend_iff stored fits ofMeta negative clearOwn).mpr
          (clear.spend ofMeta negative) amount isAmount
      · exact (gain ofMeta positive).2 amount isAmount

theorem Stored.step (stored : p.Stored) (fits : FitsCall p call) : (step p call).Stored := by
  unfold Purse.step
  rcases eq_or_ne call.count 0 with zero | nonzero
  · unfold modifyCurrency
    rw [if_pos zero]
    exact stored
  · obtain ⟨after, done, -, -, keeps⟩ := modifyCurrency_eq fits nonzero
    rw [done]
    exact keeps stored

/-- **In every run whose numbers fit, every call is exact exactly when every call
is clear.** -/
theorem exact_iff_clear (stored : p.Stored) {calls : List CurrencyCall}
    (fits : Machine.EachStep step FitsCall p calls) :
    Machine.EachStep step ExactCall p calls ↔ Machine.EachStep step ClearCall p calls :=
  Machine.eachStep_congr stored (fun _ _ stored fits => stored.step fits)
    (fun _ _ stored fits => exactCall_iff stored fits) fits

namespace CappedToken

def conquestPoints : CurrencyTypesEntry := ⟨currencyTypeConquestPoints, 0, 0, 0⟩

def arena : CurrencyTypesEntry :=
  ⟨currencyTypeConquestMetaArena, currencyCategoryMetaConquest, 0, 0⟩

/-- A token of which a player may have a thousand, as many a week as he likes. -/
def token : CurrencyTypesEntry := ⟨61, 0, 1000, 0⟩

def lookupEntry (id : UInt32) : Option CurrencyTypesEntry :=
  if id = conquestPoints.id then some conquestPoints
  else if id = arena.id then some arena
  else if id = token.id then some token
  else none

def threeRows : CurrencyRules where
  lookupEntry := lookupEntry
  maxHonorPoints := 0
  maxJusticePoints := 0
  conquestPoints := conquestPoints
  lookup_conquestPoints := by decide
  conquestPoints_plain := by decide
  id_of_lookup id entry found := by
    unfold lookupEntry at found
    split at found
    · rename_i same
      cases found
      exact same.symm
    split at found
    · rename_i same
      cases found
      exact same.symm
    split at found
    · rename_i same
      cases found
      exact same.symm
    · cases found

def tokens (count : ℤ) : CurrencyCall := ⟨threeRows, 61, token, count, by decide⟩

def arenaWin : CurrencyCall :=
  ⟨threeRows, currencyTypeConquestMetaArena, arena, 18000, by decide⟩

def empty : Purse := ⟨fun _ => none, 0⟩

theorem stored_empty : empty.Stored := fun _ => ⟨Nat.two_pow_pos 31, Nat.two_pow_pos 31⟩

end CappedToken

theorem exact_arenaWin :
    Machine.EachStep step ExactCall CappedToken.empty [CappedToken.arenaWin] := by
  have fits : Machine.EachStep step FitsCall CappedToken.empty [CappedToken.arenaWin] :=
    ⟨⟨⟨by decide, by decide, by decide, by decide, roundSingle_of_small (by decide)⟩,
      fun _ => ⟨by decide, by decide, by decide, by decide, roundSingle_of_small (by decide)⟩⟩,
      True.intro⟩
  exact (exact_iff_clear CappedToken.stored_empty fits).mpr
    ⟨⟨fun _ => ⟨by decide, by decide, by decide, by decide⟩,
      fun _ _ _ => ⟨⟨by decide, by decide, by decide, by decide⟩, by decide⟩, by decide⟩,
      True.intro⟩

/-- Of 900 tokens and then 200 the second gain is cut by the cap of 1000: the
week count, which should be 1000 too, is lost. -/
theorem not_exact_of_totalCap : ¬ Machine.EachStep step ExactCall CappedToken.empty
      [CappedToken.tokens 900, CappedToken.tokens 200] := by
  intro exact
  have week := ((exact.2.1.own (by decide)).gain (by decide)).2
  revert week
  decide +kernel

end Purse

end Sky548
