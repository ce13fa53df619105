import Sky548.Guild.Roster
import Sky548.Items.Money
import Sky548.Items.Planning

/-!
# The guild bank

`SwapItems`, `SwapItemsWithInventory` and `HandleMemberWithdrawMoney`. A move goes between two
`MoveItemData`, each a slot of a bank tab or a position of the player: what lies at the one is
checked against rights and limits, planned for at the other (`CanStore`), taken away and stored
there.

The bank settings of a rank and what a member has withdrawn since the daily reset stand beside the
ranks and members of `Guild`.
-/

namespace Sky548

def guildBankMaxSlots : Nat := 98
def guildBankMaxTabs : UInt8 := 8
def guildBankRightViewTab : UInt8 := 0x01
def guildBankRightPutItem : UInt8 := 0x02
def guildBankRightDepositItem : UInt8 := guildBankRightViewTab ||| guildBankRightPutItem
def guildWithdrawMoneyUnlimited : Int := 0xFFFFFFFF
def guildWithdrawSlotUnlimited : Int := -1
def grRightWithdrawRepair : UInt32 := 0x00040000
def grRightWithdrawGold : UInt32 := 0x00080000
def gold : Int := 10000

structure GuildBankRightsAndSlots where
  rights : UInt8
  slots : UInt32

structure RankBank where
  bankMoneyPerDay : UInt32
  bankTabRightsAndSlots : UInt8 → GuildBankRightsAndSlots

namespace RankBank

variable (rankInfo : RankBank)

def getBankMoneyPerDay : Int := toInt32 rankInfo.bankMoneyPerDay.toNat

def getBankTabRights (tabId : UInt8) : UInt8 :=
  if tabId < guildBankMaxTabs then (rankInfo.bankTabRightsAndSlots tabId).rights else 0

def getBankTabSlotsPerDay (tabId : UInt8) : Int :=
  if tabId < guildBankMaxTabs then toInt32 (rankInfo.bankTabRightsAndSlots tabId).slots.toNat else 0

end RankBank

/-- What a member has withdrawn since the daily reset: items from each tab, and money. -/
structure BankWithdraw where
  items : UInt8 → Int
  money : UInt64

def BankWithdraw.resetValues : BankWithdraw := ⟨fun _ => 0, 0⟩

structure GuildBank where
  guild : Guild
  purchasedTabs : UInt8
  bankMoney : UInt64
  rankBank : UInt8 → RankBank
  withdrawn : UInt32 → BankWithdraw

namespace GuildBank

variable (b : GuildBank)

def getRankBank (rankId : UInt8) : Option RankBank :=
  (b.guild.ranks.getRankInfo rankId).map fun _ => b.rankBank rankId

def getRankBankMoneyPerDay (rankId : UInt8) : Int :=
  if rankId = grGuildmaster then toInt32 guildWithdrawMoneyUnlimited
  else
    match b.getRankBank rankId with
    | some rankInfo => rankInfo.getBankMoneyPerDay
    | none => 0

def getRankBankTabSlotsPerDay (rankId tabId : UInt8) : Int :=
  if tabId < b.purchasedTabs then
    match b.getRankBank rankId with
    | some rankInfo => rankInfo.getBankTabSlotsPerDay tabId
    | none => 0
  else 0

def getRankBankTabRights (rankId tabId : UInt8) : UInt8 :=
  match b.getRankBank rankId with
  | some rankInfo => rankInfo.getBankTabRights tabId
  | none => 0

def getBankWithdrawValue (m : Member) (tabId : UInt8) : Int :=
  if m.isRank grGuildmaster then guildWithdrawSlotUnlimited
  else (b.withdrawn m.lowGuid).items tabId

def getBankWithdrawMoney (m : Member) : Int :=
  if m.isRank grGuildmaster then guildWithdrawMoneyUnlimited
  else toInt64 (b.withdrawn m.lowGuid).money.toNat

def getMemberRemainingSlots (m : Member) (tabId : UInt8) : Int :=
  if m.rankId = grGuildmaster then guildWithdrawSlotUnlimited
  else if b.getRankBankTabRights m.rankId tabId &&& guildBankRightViewTab ≠ 0 then
    let remaining := toInt32 (b.getRankBankTabSlotsPerDay m.rankId tabId -
      b.getBankWithdrawValue m tabId)
    if remaining > 0 then remaining else 0
  else 0

/-- `_GetMemberRemainingMoney`; the product is an `int32`. -/
def getMemberRemainingMoney (m : Member) : Int :=
  if m.rankId = grGuildmaster then guildWithdrawMoneyUnlimited
  else if b.guild.ranks.getRankRights m.rankId &&& (grRightWithdrawRepair ||| grRightWithdrawGold) ≠ 0
  then
    let remaining := toInt64 (toInt32 (b.getRankBankMoneyPerDay m.rankId * gold) -
      b.getBankWithdrawMoney m)
    if remaining > 0 then remaining else 0
  else 0

def updateBankWithdrawValue (key : UInt32) (tabId : UInt8) : GuildBank :=
  { b with
    withdrawn := Function.update b.withdrawn key
      { b.withdrawn key with
        items := Function.update (b.withdrawn key).items tabId
          (toInt32 ((b.withdrawn key).items tabId + 1)) } }

def updateBankWithdrawMoney (key : UInt32) (amount : UInt64) : GuildBank :=
  { b with
    withdrawn := Function.update b.withdrawn key
      { b.withdrawn key with money := (b.withdrawn key).money + amount } }

def updateMemberWithdrawSlots (player : UInt64) (tabId : UInt8) : GuildBank :=
  match b.guild.getMember player with
  | some m =>
    if m.rankId ≠ grGuildmaster ∧
        b.getBankWithdrawValue m tabId < b.getRankBankTabSlotsPerDay m.rankId tabId then
      b.updateBankWithdrawValue m.lowGuid tabId
    else b
  | none => b

def takeBankMoney (amount : UInt64) : GuildBank :=
  if b.bankMoney < amount then b else { b with bankMoney := b.bankMoney - amount }

def memberHasTabRights (player : UInt64) (tabId rights : UInt8) : Bool :=
  match b.guild.getMember player with
  | some m =>
    if m.isRank grGuildmaster || b.guild.leaderGuid = player then true
    else b.getRankBankTabRights m.rankId tabId &&& rights = rights
  | none => false

end GuildBank

/-- The checks at which `HandleMemberWithdrawMoney` returns. -/
inductive WithdrawRefusal
  | bankMoney
  | noMember
  | remaining
  | tooMuchGold
  deriving DecidableEq

/-- **`HandleMemberWithdrawMoney`** of a player who owns `money`, with what he owns then; repairs are
not paid out to him. -/
def GuildBank.handleMemberWithdrawMoney (b : GuildBank) (player money amount : UInt64)
    (repair : Bool) : Except WithdrawRefusal (GuildBank × UInt64) :=
  let amount := min amount maxMoneyAmount
  if b.bankMoney < amount then .error .bankMoney
  else
    match b.guild.getMember player with
    | none => .error .noMember
    | some member =>
      if UInt64.ofInt (b.getMemberRemainingMoney member) < amount then .error .remaining
      else
        match if repair then some money else modifyMoney money (toInt64 amount.toNat) with
        | none => .error .tooMuchGold
        | some money =>
          .ok ((b.updateBankWithdrawMoney member.lowGuid amount).takeBankMoney amount, money)

/-- One side of a move: `BankMoveItemData` or `PlayerMoveItemData`. -/
inductive MoveItemData
  | bank (container slotId : UInt8)
  | player (container slotId : UInt8)
  deriving DecidableEq

structure BankWorld where
  items : ItemWorld
  bank : GuildBank

namespace MoveItemData

def isBank : MoveItemData → Bool
  | .bank _ _ => true
  | .player _ _ => false

def container : MoveItemData → UInt8
  | .bank container _ => container
  | .player container _ => container

/-- Where the data is about, for a player. -/
def place (player : UInt64) : MoveItemData → Place
  | .bank container slotId => .bank container slotId
  | .player container slotId => .inventory player container slotId

end MoveItemData

/-- What `_MoveItems` does: nothing, or `_DoItemsMove` from source to destination, or in both
directions. -/
inductive MoveResult
  | rejected
  | moved
  | swapped
  deriving DecidableEq

namespace BankWorld

variable (R : ItemRules) (now : Circumstances) (player : UInt64) (w : BankWorld)

def getItem (tabId slotId : UInt8) : Option Item :=
  if tabId < w.bank.purchasedTabs && slotId.toNat < guildBankMaxSlots then
    w.items.shelf.get? (.bank tabId slotId)
  else none

def initItem : MoveItemData → Option Item
  | .bank container slotId => w.getItem container slotId
  | .player container slotId =>
    (R.getItemByPos w.items player container slotId).filter fun item =>
      !R.isNotEmptyBag w.items item && R.canBeTraded w.items now item false false

/-- `CheckItem`: the amount to split off, which is 0 for the whole stack. -/
def checkItem (item : Item) (splitedAmount : Nat) : Option Nat :=
  if splitedAmount > item.count then none
  else if splitedAmount = item.count then some 0
  else some splitedAmount

def hasStoreRights (data pOther : MoveItemData) : Bool :=
  match data with
  | .player _ _ => true
  | .bank container _ =>
    if pOther.isBank && pOther.container = container then true
    else w.bank.memberHasTabRights player container guildBankRightDepositItem

def hasWithdrawRights (data pOther : MoveItemData) : Bool :=
  match data with
  | .player _ _ => true
  | .bank container _ =>
    if pOther.isBank && pOther.container = container then true
    else
      match w.bank.guild.getMember player with
      | some member => w.bank.getMemberRemainingSlots member container ≠ 0
      | none => false

/-- `CloneItem`, which makes an item of its own but puts it nowhere. -/
def cloneItem (item : Item) (count : Nat) : Option (Item × BankWorld) :=
  if count = 0 then none
  else some
    ({ guid := w.items.nextGuid
       entry := item.entry
       count := min count (R.maxStack item.entry)
       attrs := ItemRules.cloneAttrs 0 item.attrs },
     { w with items := { w.items with nextGuid := w.items.nextGuid + 1 } })

/-- What `CanStore` of a tab sees in a slot: not the item itself, which will have left it. -/
def seen (item : Item) (container slotId : UInt8) : Option Item :=
  (w.getItem container slotId).filter fun pItemDest => pItemDest.guid ≠ item.guid

/-- What `CanStore` of a tab sees at a place. -/
def seenAt (item : Item) : Place → Option Item
  | .bank container slotId => w.seen item container slotId
  | .inventory _ _ _ => none

def joins (entry : UInt32) (pItemDest : Item) : Bool :=
  pItemDest.entry = entry && decide (pItemDest.count < R.maxStack entry)

def reserveSpace (container slotId : UInt8) (pItem : Item) (pItemDest : Option Item)
    (r : Reserving Place) : Option (Reserving Place) :=
  match pItemDest with
  | some pItemDest =>
    if joins R pItem.entry pItemDest then
      some (r.reserve (.bank container slotId) (R.maxStack pItem.entry - pItemDest.count))
    else none
  | none => some (r.reserve (.bank container slotId) (R.maxStack pItem.entry))

def canStoreItemInTab (container skipSlotId : UInt8) (pItem : Item) (merge : Bool)
    (r : Reserving Place) : Reserving Place :=
  r.scan (w.seenAt pItem) (R.maxStack pItem.entry) (joins R pItem.entry) merge
    (((List.range guildBankMaxSlots).map fun slotId =>
      Place.bank container (UInt8.ofNat slotId)).filter (· ≠ .bank container skipSlotId))

/-- `CanStore` of a tab once a slot that was asked for has been reserved. -/
def canStoreInTab (container slotId : UInt8) (pItem : Item) (r : Reserving Place) :
    InventoryResult × ItemPosCountVec :=
  if r.count = 0 then (.ok, r.dest)
  else
    let merged := if R.maxStack pItem.entry > 1 then w.canStoreItemInTab R container slotId pItem true r
      else r
    if merged.count = 0 then (.ok, merged.dest)
    else
      let placed := w.canStoreItemInTab R container slotId pItem false merged
      if placed.count = 0 then (.ok, placed.dest) else (.bankFull, placed.dest)

def canStore (data : MoveItemData) (pItem : Item) (swap : Bool) :
    InventoryResult × ItemPosCountVec :=
  match data with
  | .player container slotId => R.canStoreItem w.items player container slotId [] pItem swap
  | .bank container slotId =>
    if pItem.attrs.soulBound then (.dropBoundItem, [])
    else if container ≥ w.bank.purchasedTabs then (.wrongBagType, [])
    else if slotId ≠ nullSlot then
      let pItemDest := if swap then none else w.seen pItem container slotId
      match reserveSpace R container slotId pItem pItemDest ⟨[], pItem.count⟩ with
      | none => (.cantStack, [])
      | some r => w.canStoreInTab R container slotId pItem r
    else w.canStoreInTab R container slotId pItem ⟨[], pItem.count⟩

def removeItem (data pOther : MoveItemData) (pItem : Item) (splitedAmount : Nat) : BankWorld :=
  let items :=
    if splitedAmount ≠ 0 then
      w.items.put (data.place player) { pItem with count := pItem.count - splitedAmount }
    else
      match data with
      | .bank _ _ => w.items.take (data.place player)
      | .player container slotId => R.moveItemFromInventory w.items player container slotId
  { items := items
    bank :=
      if data.isBank && (!pOther.isBank || pOther.container ≠ data.container) then
        w.bank.updateMemberWithdrawSlots player data.container
      else w.bank }

def storeItem (data : MoveItemData) (vec : ItemPosCountVec) (pItem : Item) : BankWorld :=
  match data with
  | .bank container _ =>
    if container < w.bank.purchasedTabs then { w with items := R.storeItem w.items vec pItem }
    else w
  | .player _ _ => { w with items := R.storeItem w.items vec pItem }

/-- `_DoItemsMove` of an item, which is what lies at the source (`pItem`) or a copy of a part of
it; `none` when it cannot be stored. -/
def doItemsMove (pSrc pDest : MoveItemData) (pItem pSrcItem : Item) (pDestItem : Option Item)
    (splitedAmount : Nat) : Option BankWorld :=
  match w.canStore R player pDest pSrcItem pDestItem.isSome with
  | (.ok, destVec) =>
    match pDestItem with
    | none => some ((w.removeItem R player pSrc pDest pItem splitedAmount).storeItem R pDest
        destVec pSrcItem)
    | some pDestItem =>
      match w.canStore R player pSrc pDestItem true with
      | (.ok, srcVec) =>
        let removed := (w.removeItem R player pSrc pDest pItem splitedAmount).removeItem R
          player pDest pSrc pDestItem 0
        some ((removed.storeItem R pDest destVec pSrcItem).storeItem R pSrc srcVec pDestItem)
      | _ => none
  | _ => none

def moveItems (pSrc pDest : MoveItemData) (splitedAmount : Nat) : MoveResult × BankWorld :=
  match w.initItem R now player pSrc with
  | none => (.rejected, w)
  | some pItem =>
    match checkItem pItem splitedAmount with
    | none => (.rejected, w)
    | some splitedAmount =>
      if !w.hasStoreRights player pDest pSrc then (.rejected, w)
      else if !w.hasWithdrawRights player pSrc pDest then (.rejected, w)
      else if splitedAmount ≠ 0 then
        match w.cloneItem R pItem splitedAmount with
        | none => (.rejected, w)
        | some (pClonedItem, w) =>
          match w.doItemsMove R player pSrc pDest pItem pClonedItem none splitedAmount with
          | none => (.rejected, w)
          | some w => (.moved, w)
      else
        match w.doItemsMove R player pSrc pDest pItem pItem none 0 with
        | some w => (.moved, w)
        | none =>
          match w.initItem R now player pDest with
          | none => (.rejected, w)
          | some pDestItem =>
            if !w.hasStoreRights player pSrc pDest then (.rejected, w)
            else if !w.hasWithdrawRights player pDest pSrc then (.rejected, w)
            else
              match w.doItemsMove R player pSrc pDest pItem pItem (some pDestItem) 0 with
              | none => (.rejected, w)
              | some w => (.swapped, w)

def swapItems (tabId slotId destTabId destSlotId : UInt8) (splitedAmount : UInt32) :
    MoveResult × BankWorld :=
  if tabId ≥ w.bank.purchasedTabs ∨ slotId.toNat ≥ guildBankMaxSlots ∨
      destTabId ≥ w.bank.purchasedTabs ∨ destSlotId.toNat ≥ guildBankMaxSlots then (.rejected, w)
  else if tabId = destTabId ∧ slotId = destSlotId then (.rejected, w)
  else w.moveItems R now player (.bank tabId slotId) (.bank destTabId destSlotId)
    splitedAmount.toNat

def swapItemsWithInventory (toChar : Bool) (tabId slotId playerBag playerSlotId : UInt8)
    (splitedAmount : UInt32) : MoveResult × BankWorld :=
  if slotId.toNat ≥ guildBankMaxSlots ∧ slotId ≠ nullSlot ∨ tabId ≥ w.bank.purchasedTabs then
    (.rejected, w)
  else if toChar then
    w.moveItems R now player (.bank tabId slotId) (.player playerBag playerSlotId)
      splitedAmount.toNat
  else
    w.moveItems R now player (.player playerBag playerSlotId) (.bank tabId slotId)
      splitedAmount.toNat

end BankWorld

end Sky548
