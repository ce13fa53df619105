import Sky548.Currencies.Direct
import Sky548.Items.Destroying

/-!
# Vendors

What a vendor sells for, and `Player::BuyCurrencyFromVendorSlot`: its checks, the currencies that it
charges while it still checks, and what it gives and takes at the end.
-/

namespace Sky548

structure ItemExtendedCostEntry where
  requiredArenaSlot : UInt32
  requiredItem : Fin 5 → UInt32
  requiredItemCount : Fin 5 → UInt32
  requiredPersonalArenaRating : UInt32
  requiredCurrency : Fin 5 → UInt32
  requiredCurrencyCount : Fin 5 → UInt32
  requiredFactionId : UInt32
  requiredFactionStanding : UInt32
  requirementFlags : UInt32
  requiredGuildLevel : UInt32
  requiredAchievement : UInt32

def itemVendorTypeItem : UInt8 := 1
def itemVendorTypeCurrency : UInt8 := 2

structure VendorItem where
  item : UInt32
  maxcount : UInt32
  incrtime : UInt32
  extendedCost : UInt32
  type : UInt8

/-- The tables that are looked into: `highPrecision` is a flag of a currency. -/
structure VendorRules where
  rules : ItemRules
  currencies : CurrencyRules
  highPrecision : UInt32 → Bool
  extendedCost : UInt32 → Option ItemExtendedCostEntry

/-- What is asked of the player who buys. -/
structure Customer where
  player : UInt64
  isAlive : Bool
  maxPersonalArenaRating : UInt32 → UInt32
  reputationRank : UInt32 → UInt32
  guildId : UInt32
  guildLevel : UInt32
  hasAchieved : UInt32 → Bool
  now : Circumstances

/-- What he has. -/
structure Possessions where
  items : ItemWorld
  purse : Purse
  money : UInt64

namespace ItemExtendedCostEntry

/-- `ITEM_EXT_COST_CURRENCY_REQ_IS_SEASON_EARNED_1 << i` -/
def isSeasonEarned (iece : ItemExtendedCostEntry) (i : Fin 5) : Bool :=
  iece.requirementFlags &&& (0x02 <<< UInt32.ofNat i) ≠ 0

def charge (iece : ItemExtendedCostEntry) (i : Fin 5) : ℤ :=
  toInt32 (-toInt32 (iece.requiredCurrencyCount i).toNat)

/-- `-int32(RequiredCurrencyCount[i]) * stacks`, where `stacks` is unsigned, as an `int32` -/
def chargeOf (iece : ItemExtendedCostEntry) (times : UInt32) (i : Fin 5) : ℤ :=
  toInt32 ((0 - iece.requiredCurrencyCount i) * times).toNat

/-- The requirements that both ways of buying check last. -/
def admits (iece : ItemExtendedCostEntry) (c : Customer) : Bool :=
  if c.maxPersonalArenaRating iece.requiredArenaSlot < iece.requiredPersonalArenaRating then false
  else if iece.requiredFactionId ≠ 0 ∧
      c.reputationRank iece.requiredFactionId < iece.requiredFactionStanding then false
  else if iece.requirementFlags &&& 0x01 ≠ 0 ∧ c.guildId = 0 then false
  else if iece.requiredGuildLevel ≠ 0 ∧ iece.requiredGuildLevel < c.guildLevel then false
  else if iece.requiredAchievement ≠ 0 ∧ !c.hasAchieved iece.requiredAchievement then false
  else true

end ItemExtendedCostEntry

namespace VendorRules

variable (V : VendorRules) (c : Customer)

def precision (id : UInt32) : UInt32 := if V.highPrecision id then 100 else 1

def hasRequiredItems (iece : ItemExtendedCostEntry) (times : UInt32) (w : ItemWorld) : Bool :=
  (List.finRange 5).all fun i => iece.requiredItem i = 0 ||
    V.rules.hasItemCount w c.player (iece.requiredItem i) (iece.requiredItemCount i * times) false

def destroyRequiredItems (iece : ItemExtendedCostEntry) (times : UInt32) (w : ItemWorld) :
    ItemWorld :=
  (List.finRange 5).foldl (fun w i =>
    if iece.requiredItem i ≠ 0 then
      V.rules.destroyItemCount w c.player c.now (iece.requiredItem i)
        (iece.requiredItemCount i * times) false
    else w) w

/-- A required currency is known, is not one earned in a season, and there is enough of it. -/
def hasRequiredCurrency (iece : ItemExtendedCostEntry) (times : UInt32) (i : Fin 5) (p : Purse) :
    Bool :=
  if (V.currencies.lookupEntry (iece.requiredCurrency i)).isNone then false
  else if iece.isSeasonEarned i then false
  else p.hasCurrency (iece.requiredCurrency i) (iece.requiredCurrencyCount i * times)

/-- One turn of the loop over the required currencies in `BuyCurrencyFromVendorSlot`: one that passes
is charged once before the next is looked at. -/
def chargeOne (iece : ItemExtendedCostEntry) (times : UInt32) (i : Fin 5) (p : Purse) :
    Option (Bool × Purse) :=
  if iece.requiredCurrency i = 0 then some (true, p)
  else if !V.hasRequiredCurrency iece times i p then some (false, p)
  else
    (p.modifyCurrencyAsIs V.currencies (iece.requiredCurrency i) (iece.charge i)).map fun p => (true, p)

/-- The whole loop: whether all passed, and what is left. -/
def chargeRequired (iece : ItemExtendedCostEntry) (times : UInt32) :
    List (Fin 5) → Purse → Option (Bool × Purse)
  | [], p => some (true, p)
  | i :: rest, p => (V.chargeOne iece times i p).bind fun turn =>
    if turn.1 then chargeRequired iece times rest turn.2 else some turn

/-- One turn of the loop over them at the end. -/
def chargeOneAgain (iece : ItemExtendedCostEntry) (times : UInt32) (p : Purse) (i : Fin 5) :
    Option Purse :=
  if iece.requiredCurrency i = 0 then some p
  else if iece.isSeasonEarned i then some p
  else p.modifyCurrencyAsIs V.currencies (iece.requiredCurrency i) (iece.chargeOf times i)

def chargeAgain (iece : ItemExtendedCostEntry) (times : UInt32) (p : Purse) : Option Purse :=
  (List.finRange 5).foldlM (V.chargeOneAgain iece times) p

/-- What is bought: the vendor's item, how many times of it, and its price. -/
structure Offer where
  crItem : VendorItem
  times : UInt32
  iece : ItemExtendedCostEntry

/-- The checks of `BuyCurrencyFromVendorSlot` up to the required currencies: no result where it
divides by zero, no offer where it refuses. `vendor` is what the creature sells to the player. -/
def currencyOffer (vendor : Option (List VendorItem)) (vendorSlot currency count : UInt32)
    (s : Possessions) : Option (Option Offer) :=
  let count := if count < 1 then 1 else count
  if !c.isAlive then some none
  else
    match V.currencies.lookupEntry currency with
    | none => some none
    | some _ =>
      match vendor with
      | none => some none
      | some vItems =>
        match vItems[vendorSlot.toNat]? with
        | none => some none
        | some crItem =>
          if crItem.item ≠ currency ∨ crItem.type ≠ itemVendorTypeCurrency then some none
          else if crItem.maxcount = 0 then none
          else if count % crItem.maxcount ≠ 0 then some none
          else if crItem.extendedCost = 0 then some none
          else
            match V.extendedCost crItem.extendedCost with
            | none => some none
            | some iece =>
              let stacks' := count / crItem.maxcount
              if !V.hasRequiredItems c iece stacks' s.items then some none
              else some (some ⟨crItem, stacks', iece⟩)

/-- The rest of it: the required currencies, the last checks, and what is given and taken. -/
def buyOffer (currency : UInt32) (o : Offer) (s : Possessions) : Option (Bool × Possessions) :=
  (V.chargeRequired o.iece o.times (List.finRange 5) s.purse).bind fun charged =>
    if !charged.1 || !o.iece.admits c then some (false, { s with purse := charged.2 })
    else
      (charged.2.modifyCurrencyAsIs V.currencies currency
        (toInt32 (o.crItem.maxcount * V.precision currency).toNat)).bind fun purse =>
          (V.chargeAgain o.iece o.times purse).map fun purse =>
            (true, { s with
              items := V.destroyRequiredItems c o.iece o.times s.items
              purse := purse })

/-- **`BuyCurrencyFromVendorSlot`**; there is no result where it divides by zero or an assertion
fails. -/
def buyCurrencyFromVendorSlot (vendor : Option (List VendorItem))
    (vendorSlot currency count : UInt32) (s : Possessions) : Option (Bool × Possessions) :=
  match V.currencyOffer c vendor vendorSlot currency count s with
  | none => none
  | some none => some (false, s)
  | some (some o) => V.buyOffer c currency o s

end VendorRules

end Sky548
