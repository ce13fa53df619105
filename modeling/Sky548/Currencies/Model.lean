import Sky548.Items.Money
import Sky548.Single

/-!
# Currencies

`_currencyStorage` and `_ConquestCurrencytotalWeekCap` of a player, and
`Player::ModifyCurrency` with the limits applied and without gain auras.

The counts are `uint32`, the sums of `ModifyCurrency` `int32`; both are written
out. Even without auras the amount goes through `count *= 1.0f`, a conversion to
a single-precision number and back.
-/

namespace Sky548

inductive PlayerCurrencyState
  | unchanged
  | changed
  | new
  | removed
  deriving DecidableEq, Repr

structure PlayerCurrency where
  state : PlayerCurrencyState
  totalCount : UInt32
  weekCount : UInt32
  seasonCount : UInt32
  deriving DecidableEq, Repr

structure CurrencyTypesEntry where
  id : UInt32
  category : UInt32
  totalCap : UInt32
  weekCap : UInt32
  deriving DecidableEq, Repr

def currencyTypeConquestPoints : UInt32 := 390

def currencyTypeHonorPoints : UInt32 := 392

def currencyTypeJusticePoints : UInt32 := 395

def currencyTypeConquestMetaArena : UInt32 := 483

def currencyTypeConquestMetaRBG : UInt32 := 484

def currencyCategoryMetaConquest : UInt32 := 89

def currencyPrecision : UInt32 := 100

def conquestRatingOfZero : UInt32 := 1350

/-- `BgConquestRatingCalculator(0)`: `uint32(1350 * 1.222f + 0.5f)` -/
def bgConquestRatingOfZero : UInt32 := 1650

/-- The rows of `CurrencyTypes.dbc` and two settings. Conquest points have a row
and are no meta currency. -/
structure CurrencyRules where
  lookupEntry : UInt32 → Option CurrencyTypesEntry
  maxHonorPoints : UInt32
  maxJusticePoints : UInt32
  conquestPoints : CurrencyTypesEntry
  lookup_conquestPoints : lookupEntry currencyTypeConquestPoints = some conquestPoints
  conquestPoints_plain : conquestPoints.category ≠ currencyCategoryMetaConquest
  id_of_lookup : ∀ id entry, lookupEntry id = some entry → entry.id = id

structure Purse where
  currencyStorage : UInt32 → Option PlayerCurrency
  conquestTotalWeekCap : UInt32

namespace Purse

/-- What `ModifyCurrency` enters for a currency that the player does not know. -/
def newCurrency : PlayerCurrency := ⟨.new, 0, 0, 0⟩

/-- The counts of a currency, zero if there is no entry. -/
def counts (p : Purse) (id : UInt32) : PlayerCurrency :=
  (p.currencyStorage id).getD newCurrency

def store (p : Purse) (id : UInt32) (cur : PlayerCurrency) : Purse :=
  { p with currencyStorage := Function.update p.currencyStorage id (some cur) }

def getCurrencyWeekCap (p : Purse) (rules : CurrencyRules) (currency : CurrencyTypesEntry) :
    UInt32 :=
  if currency.id = currencyTypeConquestPoints then
    if p.conquestTotalWeekCap < 165000 then 165000 else p.conquestTotalWeekCap
  else if currency.id = currencyTypeConquestMetaArena then
    let arenaCap := conquestRatingOfZero * currencyPrecision
    if arenaCap < 1350 then 1350 else arenaCap
  else if currency.id = currencyTypeConquestMetaRBG then
    let bgCap := bgConquestRatingOfZero * currencyPrecision
    if bgCap < 1650 then 1650 else bgCap
  else if currency.id = currencyTypeHonorPoints then
    if rules.maxHonorPoints > 0 then rules.maxHonorPoints else currency.weekCap
  else if currency.id = currencyTypeJusticePoints then
    if rules.maxJusticePoints > 0 then rules.maxJusticePoints else currency.weekCap
  else currency.weekCap

end Purse

namespace CurrencyTypesEntry

/-- `count can't be more then weekCap if used` -/
def limitCount (weekCap : UInt32) (count : ℤ) : ℤ :=
  if weekCap ≠ 0 ∧ toInt32 weekCap.toNat < count then toInt32 weekCap.toNat else count

/-- The new counts of `ModifyCurrency`, as it computes them one after another. -/
structure NewCounts where
  totalCount : ℤ
  weekCount : ℤ
  seasonCount : UInt32

def sums (old : PlayerCurrency) (count : ℤ) : NewCounts where
  totalCount := toInt32 (toInt32 old.totalCount.toNat + count)
  weekCount :=
    if 0 < count then toInt32 (toInt32 old.weekCount.toNat + count)
    else toInt32 old.weekCount.toNat
  seasonCount := if 0 < count then old.seasonCount + UInt32.ofInt count else old.seasonCount

/-- The week cap overwrites both counts; the difference is one of `uint32`. -/
def limitWeek (weekCap : UInt32) (old : PlayerCurrency) (new : NewCounts) : NewCounts :=
  if weekCap ≠ 0 ∧ toInt32 weekCap.toNat < new.weekCount then
    { new with
      weekCount := toInt32 weekCap.toNat
      totalCount := toInt32 (old.totalCount + (weekCap - old.weekCount)).toNat }
  else new

/-- The total cap overwrites the total, and the week count with the week cap. -/
def limitTotal (currency : CurrencyTypesEntry) (weekCap : UInt32) (new : NewCounts) : NewCounts :=
  if currency.totalCap ≠ 0 ∧ toInt32 currency.totalCap.toNat < new.totalCount then
    { new with
      totalCount := toInt32 currency.totalCap.toNat
      weekCount := toInt32 weekCap.toNat }
  else new

/-- The counts that are written, unless the total is what it was. -/
def newCounts (currency : CurrencyTypesEntry) (weekCap : UInt32) (old : PlayerCurrency)
    (count : ℤ) : NewCounts :=
  let new := currency.limitTotal weekCap (limitWeek weekCap old (sums old count))
  { new with weekCount := max 0 new.weekCount, totalCount := max 0 new.totalCount }

end CurrencyTypesEntry

namespace Purse

open CurrencyTypesEntry

/-- `ModifyCurrency` of one currency up to the branch for meta currencies, with
the limited amount if the total has changed. -/
def modifyOwn (p : Purse) (rules : CurrencyRules) (currency : CurrencyTypesEntry) (count : ℤ) :
    Purse × Option ℤ :=
  let count := toInt32 (roundSingle count)
  let old := p.counts currency.id
  let weekCap := p.getCurrencyWeekCap rules currency
  let count := limitCount weekCap count
  let new := currency.newCounts weekCap old count
  let totalCount := UInt32.ofInt new.totalCount
  if totalCount ≠ old.totalCount then
    (p.store currency.id
      { state := if old.state ≠ .new then .changed else old.state
        totalCount := totalCount
        weekCount := UInt32.ofInt new.weekCount
        seasonCount := new.seasonCount },
      some count)
  else (p.store currency.id old, none)

def raiseConquestCap (p : Purse) (weekCap : UInt32) : Purse :=
  { p with
    conquestTotalWeekCap :=
      if weekCap > p.conquestTotalWeekCap then weekCap else p.conquestTotalWeekCap }

/-- `ModifyCurrency`; a missing row fails its assertion. The call for conquest
points goes no further, as they are no meta currency. -/
def modifyCurrency (p : Purse) (rules : CurrencyRules) (id : UInt32) (count : ℤ) : Option Purse :=
  if count = 0 then some p
  else match rules.lookupEntry id with
  | none => none
  | some currency =>
    match p.modifyOwn rules currency count with
    | (after, none) => some after
    | (after, some forwarded) =>
      if currency.category = currencyCategoryMetaConquest then
        let raised := after.raiseConquestCap (p.getCurrencyWeekCap rules currency)
        if forwarded = 0 then some raised
        else some (raised.modifyOwn rules rules.conquestPoints forwarded).1
      else some after

end Purse

end Sky548
