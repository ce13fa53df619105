import Sky548.Items.Money
import Sky548.Items.Planning

/-!
# Trades

`TradeData`, the packets that change it and `HandleAcceptTradeOpcode`. An offer is a list of item
GUIDs and an amount of gold; the items are looked up by their GUIDs whenever they are needed. When
both sides have accepted, the items are tested against both inventories at once, taken away and
stored row by row (`moveItems`), and the gold changes hands.

The two sides are players of different GUIDs; `me` is the one whose packet is handled.
-/

namespace Sky548

def tradeSlotCount : Nat := 7
def tradeSlotTradedCount : Nat := 6
def tradeSlotNontraded : Nat := 6

inductive Side
  | first
  | second
  deriving DecidableEq

namespace Side

def other : Side → Side
  | .first => .second
  | .second => .first

@[simp] theorem other_other (s : Side) : s.other.other = s := by
  cases s with
  | first => rfl
  | second => rfl

theorem other_ne (s : Side) : s.other ≠ s := by
  cases s with
  | first => exact nofun
  | second => exact nofun

theorem eq_or_eq_other (s me : Side) : s = me ∨ s = me.other := by
  cases s with
  | first =>
    cases me with
    | first => exact Or.inl rfl
    | second => exact Or.inr rfl
  | second =>
    cases me with
    | first => exact Or.inr rfl
    | second => exact Or.inl rfl

end Side

/-- The players on the two sides. -/
structure Traders where
  guid : Side → UInt64
  /-- `HandleInitiateTradeOpcode` lets nobody trade with himself. -/
  distinct : guid .first ≠ guid .second

theorem Traders.guid_other_ne (T : Traders) (s : Side) : T.guid s.other ≠ T.guid s := by
  cases s with
  | first => exact Ne.symm T.distinct
  | second => exact T.distinct

/-- What one side offers, and whether it has accepted. -/
structure TradeData where
  accepted : Bool
  money : UInt64
  items : Fin tradeSlotCount → Nat

/-- The offers of both sides. -/
abbrev TradeDatas := Side → TradeData

namespace TradeDatas

variable (t : TradeDatas) (s : Side)

def setAccepted (state : Bool) : TradeDatas :=
  Function.update t s { t s with accepted := state }

/-- `SetAccepted(false)` of both sides -/
def unaccept : TradeDatas := fun s => { t s with accepted := false }

def hasItem (itemGuid : Nat) : Bool := decide (∃ slot, (t s).items slot = itemGuid)

def setItem (slot : Fin tradeSlotCount) (itemGuid : Nat) : TradeDatas :=
  if (t s).items slot = itemGuid then t
  else unaccept (Function.update t s
    { t s with items := Function.update (t s).items slot itemGuid })

/-- `SetMoney` of a player who owns `owned` -/
def setMoney (owned money : UInt64) : TradeDatas :=
  if (t s).money = money then t
  else if !hasEnoughMoney owned money then t
  else unaccept (Function.update t s { t s with money := money })

end TradeDatas

/-- The items of the world, what the two players own and, while they trade, what they offer. -/
structure Trade where
  items : ItemWorld
  money : Side → UInt64
  data : Option TradeDatas

/-- What both sides offer in one row of the trade window. -/
abbrev TradeRow := Side → Option (Place × Item)

inductive AcceptResult
  | ignored
  | rejected
  | waiting
  | completed
  deriving DecidableEq

inductive TradePacket
  | setTradeGold (gold : UInt64)
  | setTradeItem (tradeSlot slot bag : UInt8)
  | clearTradeItem (tradeSlot : UInt8)
  | acceptTrade
  | unacceptTrade

def setInTrade (b : Bool) (item : Item) : Item :=
  { item with attrs := { item.attrs with inTrade := b } }

namespace Trade

variable (R : ItemRules) (T : Traders) (now : Circumstances) (w : ItemWorld) (me : Side)

def getItem (data : TradeDatas) (s : Side) (slot : Fin tradeSlotCount) : Option (Place × Item) :=
  if (data s).items slot = 0 then none else R.getItemByGuid w (T.guid s) ((data s).items slot)

def rows (data : TradeDatas) : List TradeRow :=
  (List.finRange tradeSlotTradedCount).map fun i s =>
    getItem R T w data s (i.castLE (by decide))

/-- The items of one side, in the order of the rows. -/
def offered (rows : List TradeRow) (s : Side) : List (Place × Item) := rows.filterMap fun row => row s

/-- What is offered in a row, by the one who accepts and by the other. -/
def rowItems (row : TradeRow) : List (Place × Item) := (row me).toList ++ (row me.other).toList

def flagRow (b : Bool) (w : ItemWorld) (row : TradeRow) : ItemWorld :=
  (rowItems me row).foldl (fun w x => w.put x.1 (setInTrade b x.2)) w

def removeItem (w : ItemWorld) : Place → ItemWorld
  | .inventory player bag slot => R.moveItemFromInventory w player bag slot
  | .bank _ _ => w

/-- `MoveItemFromInventory` of everything offered in a row -/
def removeRow (w : ItemWorld) (row : TradeRow) : ItemWorld :=
  (rowItems me row).foldl (fun w x => removeItem R w x.1) w

/-- `CanStoreItem(NULL_BAG, NULL_SLOT, dest, item, false)` of a side, of nothing or of an item. -/
def canStore (s : Side) (dest : ItemPosCountVec) (item : Option Item) :
    InventoryResult × ItemPosCountVec :=
  match item with
  | some item => R.canStoreItem w (T.guid s) nullBag nullSlot dest item false
  | none => (.ok, dest)

def storeBy (w : ItemWorld) (dest : ItemPosCountVec) : Option Item → ItemWorld
  | some item => R.storeItem w dest item
  | none => w

/-- Give an item back to the side that offered it, by a vector that may not be empty. -/
def giveBack (w : ItemWorld) (s : Side) (dest : ItemPosCountVec) (item : Option Item) : ItemWorld :=
  match canStore R T w s dest item with
  | (.ok, dest) => storeBy R w dest item
  | _ => w

/-- One turn of the loop of `moveItems`. -/
def moveRow (w : ItemWorld) (row : Side → Option Item) : ItemWorld :=
  let (traderCanTrade, traderDst) := canStore R T w me.other [] (row me)
  let (playerCanTrade, playerDst) := canStore R T w me [] (row me.other)
  if traderCanTrade = .ok ∧ playerCanTrade = .ok then
    storeBy R (storeBy R w traderDst (row me)) playerDst (row me.other)
  else giveBack R T (giveBack R T w me playerDst (row me)) me.other traderDst (row me.other)

def moveItems (w : ItemWorld) (rows : List (Side → Option Item)) : ItemWorld :=
  rows.foldl (moveRow R T me) w

/-- No offered item may have become one that cannot be traded. -/
def canBeTraded (rows : List TradeRow) : Bool :=
  ((offered rows me).all fun x => R.canBeTraded w now x.2 false true &&
    !R.isBindedNotWith x.2 (T.guid me.other)) &&
  (offered rows me.other).all fun x => R.canBeTraded w now x.2 false true

/-- What a side owns once it has given and got some gold. -/
def payMoney (money given got : UInt64) : UInt64 :=
  let rest := (modifyMoney money (-toInt64 given.toNat)).getD money
  (modifyMoney rest (toInt64 got.toNat)).getD rest

/-- The items of a row as they are once the in-trade flags are cleared. -/
def cleared (row : TradeRow) : Side → Option Item := fun s =>
  (row s).map fun x => setInTrade false x.2

variable (tr : Trade)

/-- The checks that `HandleAcceptTradeOpcode` makes whether or not the other side has accepted, with
what the offers are then; `none` when all are passed. -/
def refuse (data : TradeDatas) : Option TradeDatas :=
  if !hasEnoughMoney (tr.money me) (data me).money then some (data.setAccepted me false)
  else if !hasEnoughMoney (tr.money me.other) (data me.other).money then
    some (data.setAccepted me.other false)
  else if tr.money me ≥ maxMoneyAmount - (data me.other).money then
    some (data.setAccepted me false)
  else if tr.money me.other ≥ maxMoneyAmount - (data me).money then
    some (data.setAccepted me.other false)
  else if !canBeTraded R T now tr.items me (rows R T tr.items data) then some data
  else none

def flagged (data : TradeDatas) : ItemWorld := (rows R T tr.items data).foldl (flagRow me true) tr.items

def unflagged (data : TradeDatas) : ItemWorld :=
  (rows R T tr.items data).foldl (flagRow me false) (flagged R T me tr data)

/-- What a side is offered fits into its inventory (`CanStoreItems`). -/
def canCompleteTrade (data : TradeDatas) (s : Side) : Bool :=
  R.canStoreItems (flagged R T me tr data) (T.guid s)
    ((offered (rows R T tr.items data) s.other).map Prod.snd) = .ok

def removed (data : TradeDatas) : ItemWorld :=
  (rows R T tr.items data).foldl (removeRow R me) (unflagged R T me tr data)

def handleAcceptTrade : AcceptResult × Trade :=
  match tr.data with
  | none => (.ignored, tr)
  | some data =>
    let data := data.setAccepted me true
    match refuse R T now me tr data with
    | some data => (.rejected, { tr with data := some data })
    | none =>
      if !(data me.other).accepted then (.waiting, { tr with data := some data })
      else if !canCompleteTrade R T me tr data me || !canCompleteTrade R T me tr data me.other then
        (.rejected, { tr with items := unflagged R T me tr data, data := some data.unaccept })
      else
        (.completed,
          { items := moveItems R T me (removed R T me tr data)
              ((rows R T tr.items data).map cleared)
            money := fun s => payMoney (tr.money s) (data s).money (data s.other).money
            data := none })

def handleSetTradeItem (tradeSlot slot bag : UInt8) : Trade :=
  match tr.data with
  | none => tr
  | some data =>
    if valid : tradeSlot.toNat < tradeSlotCount then
      match R.getItemByPos tr.items (T.guid me) bag slot with
      | none => tr
      | some item =>
        if tradeSlot.toNat ≠ tradeSlotNontraded && !R.canBeTraded tr.items now item false true then
          tr
        else if data.hasItem me item.guid then tr
        else { tr with data := some (data.setItem me ⟨tradeSlot.toNat, valid⟩ item.guid) }
    else tr

/-- A packet of a side, while the inventories stay as they are. -/
def handle : TradePacket → Trade
  | .setTradeGold gold =>
    { tr with data := tr.data.map fun data => data.setMoney me (tr.money me) gold }
  | .setTradeItem tradeSlot slot bag => handleSetTradeItem R T now me tr tradeSlot slot bag
  | .clearTradeItem tradeSlot =>
    if valid : tradeSlot.toNat < tradeSlotCount then
      { tr with data := tr.data.map fun data => data.setItem me ⟨tradeSlot.toNat, valid⟩ 0 }
    else tr
  | .acceptTrade => (handleAcceptTrade R T now me tr).2
  | .unacceptTrade => { tr with data := tr.data.map fun data => data.setAccepted me false }

end Trade

end Sky548
