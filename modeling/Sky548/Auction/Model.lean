import Mathlib.Data.Finset.Basic
import Sky548.Items.Inventory
import Sky548.Items.Money
import Sky548.ObjectGuid

/-!
# Auctions

An auction house, the handlers that put an item into it, bid for it and take it back, and what
becomes of an auction whose time is over. Prices are 64 bits wide in the packets and 32 bits wide in
an `AuctionEntry`.

Players are named by the low part of their GUID, and no player is 0. What the mails carry is all that
is kept of them here.
-/

namespace Sky548

structure AuctionEntry where
  Id : UInt32
  itemGUIDLow : Nat
  itemEntry : UInt32
  itemCount : Nat
  owner : UInt32
  startbid : UInt32
  bid : UInt32
  buyout : UInt32
  expire_time : Nat
  bidder : UInt32
  deposit : UInt32
  deriving DecidableEq

inductive MailAuctionAnswers
  | outbidded
  | won
  | successful
  | expired
  | cancelledToBidder
  | canceled
  | salePending
  deriving DecidableEq

structure AuctionMail where
  receiver : UInt32
  answer : MailAuctionAnswers
  money : UInt32
  item : Option Item
  deriving DecidableEq

abbrev ItemMap := KeyedList Item Stack.guid

/-- What does not change: the items and characters there are, and how the house computes its cut and
five percent of a bid, in floating point. -/
structure AuctionRealm where
  rules : ItemRules
  players : Finset UInt32
  zero_not_mem : 0 ∉ players
  account : UInt32 → UInt32
  account_ne_zero : ∀ p ∈ players, account p ≠ 0
  auctionCut : UInt32 → UInt32
  fivePercent : UInt32 → UInt32

/-- What is asked at some moment beside the auctions: the time, who is online, the auctioneer, the
owner and the state of items, how long an auction lasts and its deposit. -/
structure AuctionCircumstances where
  time : Nat
  online : UInt32 → Bool
  auctioneer : Bool
  owner : Circumstances
  perishable : Item → Bool
  auctionTime : UInt32 → Nat
  auctionDeposit : UInt32 → Item → Nat → UInt32

structure AuctionWorld where
  items : ItemWorld
  money : UInt32 → UInt64
  auctions : KeyedList AuctionEntry AuctionEntry.Id
  mAitems : ItemMap
  auctionId : UInt32
  mails : List AuctionMail

structure SellItemPacket where
  buyout : UInt64
  bid : UInt64
  etime : UInt32
  items : List (Nat × UInt32)

/-- An item that is listed, and how many of it; it is named by its GUID and lies where it is found. -/
structure Listed where
  place : Place
  item : Item
  count : UInt32

def maxAuctionItems : Nat := 32

/-- In seconds -/
def minAuctionTime : UInt32 := 12 * 60 * 60

def AuctionRealm.auctionOutBid (L : AuctionRealm) (bid : UInt32) : UInt32 :=
  if L.fivePercent bid = 0 then 1 else L.fivePercent bid

namespace AuctionWorld

variable (L : AuctionRealm) (w : AuctionWorld) (p : UInt32) (now : AuctionCircumstances)

/-- `ModifyMoney`, whatever it gives. -/
def payMoney (amount : ℤ) : AuctionWorld :=
  { w with money := Function.update w.money p ((modifyMoney (w.money p) amount).getD (w.money p)) }

def sendTo (receiver : UInt32) (answer : MailAuctionAnswers) (money : UInt32) (item : Option Item) :
    AuctionWorld :=
  if now.online receiver || L.account receiver ≠ 0 then
    { w with mails := ⟨receiver, answer, money, item⟩ :: w.mails }
  else w

/-- The items that a packet names, or `none` if one of them cannot be sold. -/
def listItems (items : List (Nat × UInt32)) : Option (List Listed) :=
  items.mapM fun x =>
    match L.rules.getItemByGuid w.items (playerGuid p) x.1 with
    | none => none
    | some (place, item) =>
      if (w.mAitems.find? item.guid).isSome || !L.rules.canBeTraded w.items now.owner item false false ||
          L.rules.isNotEmptyBag w.items item || now.perishable item || item.count < x.2.toNat then
        none
      else some ⟨place, item, x.2⟩

def finalCount (listing : List Listed) : Nat := (listing.map fun x => x.count.toNat).sum

/-- The checks of `HandleAuctionSellItem` up to the deposit: the items, when they all pass. -/
def checkSellItem (packet : SellItemPacket) : Option (List Listed) :=
  let etime := packet.etime * 60
  if packet.bid = 0 ∨ packet.etime = 0 then none
  else if packet.bid > maxMoneyAmount ∨ packet.buyout > maxMoneyAmount then none
  else if packet.items.length > maxAuctionItems then none
  else if packet.items.any fun x => x.1 = 0 || x.2 = 0 || x.2 > 1000 then none
  else if !now.auctioneer then none
  else if etime ≠ minAuctionTime ∧ etime ≠ 2 * minAuctionTime ∧ etime ≠ 4 * minAuctionTime then none
  else
    match w.listItems L p now packet.items with
    | none => none
    | some listing =>
      if finalCount listing = 0 then none
      else if listing.any fun x => L.rules.maxStack x.item.entry < finalCount listing then none
      else some listing

/-- The auction of an item; prices are cut to 32 bits. -/
def newAuction (packet : SellItemPacket) (item : Item) (deposit : UInt32) : AuctionEntry where
  Id := w.auctionId
  itemGUIDLow := item.guid
  itemEntry := item.entry
  itemCount := item.count
  owner := p
  startbid := packet.bid.toUInt32
  bid := 0
  buyout := packet.buyout.toUInt32
  expire_time := now.time + now.auctionTime (packet.etime * 60)
  bidder := 0
  deposit := deposit

def addAuction (item : Item) (auction : AuctionEntry) : AuctionWorld :=
  { w with
    mAitems := w.mAitems.insert item
    auctions := w.auctions.insert auction
    auctionId := w.auctionId + 1 }

/-- `CloneItem` for a player; the count of a clone is not zero. -/
def cloneItem (item : Item) (count : Nat) : Item where
  guid := w.items.nextGuid
  entry := item.entry
  count := min count (L.rules.maxStack item.entry)
  attrs := ItemRules.cloneAttrs (playerGuid p) item.attrs

/-- A listed item leaves the inventory, or some of it does. -/
def sellListed (items : ItemWorld) (x : Listed) : ItemWorld :=
  match x.place, items.shelf.get? x.place with
  | .inventory owner bag slot, some item2 =>
    if item2.count = x.count.toNat then
      L.rules.moveItemFromInventory items owner bag slot
    else
      items.put x.place { item2 with count := (item2.count + 2 ^ 32 - x.count.toNat) % 2 ^ 32 }
  -- it has left the inventory already
  | _, _ => items

def handleAuctionSellItem (packet : SellItemPacket) : Option AuctionWorld :=
  match w.checkSellItem L p now packet with
  | none => none
  | some [] => none
  | some (x :: rest) =>
    let deposit := now.auctionDeposit (packet.etime * 60) x.item (finalCount (x :: rest))
    if !hasEnoughMoney (w.money p) deposit.toUInt64 then none
    else
      let sold :=
        if rest = [] ∧ x.item.count = x.count.toNat then
          { w.addAuction x.item (w.newAuction p now packet x.item deposit) with
            items := sellListed L w.items x }
        else
          let newItem := w.cloneItem L p x.item (finalCount (x :: rest))
          { w.addAuction newItem (w.newAuction p now packet newItem deposit) with
            items := { (x :: rest).foldl (sellListed L) w.items with
              nextGuid := w.items.nextGuid + 1 } }
      some (sold.payMoney p (toInt32 (-toInt32 deposit.toNat)))

/-- **`SendAuctionSuccessfulMail`**: the profit is computed in 32 bits. -/
def sendSuccessful (auction : AuctionEntry) : AuctionWorld :=
  w.sendTo L now auction.owner .successful
    (auction.bid + auction.deposit - L.auctionCut auction.bid) none

def sendWon (auction : AuctionEntry) : AuctionWorld :=
  match w.mAitems.find? auction.itemGUIDLow with
  | none => w
  | some item => w.sendTo L now auction.bidder .won 0 (some item)

def sendExpired (auction : AuctionEntry) : AuctionWorld :=
  match w.mAitems.find? auction.itemGUIDLow with
  | none => w
  | some item => w.sendTo L now auction.owner .expired 0 (some item)

def removeAuction (auction : AuctionEntry) : AuctionWorld :=
  { w with
    mAitems := w.mAitems.erase auction.itemGUIDLow
    auctions := w.auctions.erase auction.Id }

def placeBid (auction : AuctionEntry) (price : UInt64) : AuctionWorld :=
  let w :=
    if auction.bidder > 0 then
      if auction.bidder = p then
        w.payMoney p (-toInt64 (price - auction.bid.toUInt64).toNat)
      else (w.sendTo L now auction.bidder .outbidded auction.bid none).payMoney p
        (-toInt64 price.toNat)
    else w.payMoney p (-toInt64 price.toNat)
  { w with auctions := w.auctions.insert { auction with bidder := p, bid := price.toUInt32 } }

def buyout (auction : AuctionEntry) : AuctionWorld :=
  let w :=
    if p = auction.bidder then
      w.payMoney p (-toInt64 (auction.buyout - auction.bid).toNat)
    else
      let w := w.payMoney p (-toInt64 auction.buyout.toNat)
      if auction.bidder > 0 then w.sendTo L now auction.bidder .outbidded auction.bid none else w
  let auction := { auction with bidder := p, bid := auction.buyout }
  let w := w.sendTo L now auction.owner .salePending 0 none
  let w := (w.sendSuccessful L now auction).sendWon L now auction
  w.removeAuction auction

def isBid (auction : AuctionEntry) (price : UInt64) : Bool :=
  price < auction.buyout.toUInt64 || auction.buyout = 0

/-- The checks of `HandleAuctionPlaceBid`: the auction, when they all pass. -/
def checkPlaceBid (auctionId : UInt32) (price : UInt64) : Option AuctionEntry :=
  if auctionId = 0 ∨ price = 0 then none
  else if !now.auctioneer then none
  else
    match w.auctions.find? auctionId with
    | none => none
    | some auction =>
      if auction.owner = p then none
      else if price ≤ auction.bid.toUInt64 ∨ price < auction.startbid.toUInt64 then none
      else if isBid auction price ∧
          price < (auction.bid + L.auctionOutBid auction.bid).toUInt64 then none
      else if !hasEnoughMoney (w.money p) price then none
      else some auction

def handleAuctionPlaceBid (auctionId : UInt32) (price : UInt64) : Option AuctionWorld :=
  match w.checkPlaceBid L p now auctionId price with
  | none => none
  | some auction =>
    some (if isBid auction price then w.placeBid L p now auction price else w.buyout L p now auction)

/-- The checks of `HandleAuctionRemoveItem`: the auction and its item, when they all pass. -/
def checkRemoveItem (auctionId : UInt32) : Option (AuctionEntry × Item) :=
  if !now.auctioneer then none
  else
    match w.auctions.find? auctionId with
    | none => none
    | some auction =>
      if auction.owner ≠ p then none
      else
        match w.mAitems.find? auction.itemGUIDLow with
        | none => none
        | some pItem =>
          if auction.bidder > 0 ∧
              !hasEnoughMoney (w.money p) (L.auctionCut auction.bid).toUInt64 then none
          else some (auction, pItem)

def handleAuctionRemoveItem (auctionId : UInt32) : Option AuctionWorld :=
  match w.checkRemoveItem L p now auctionId with
  | none => none
  | some (auction, pItem) =>
    let w :=
      if auction.bidder > 0 then
        (w.sendTo L now auction.bidder .cancelledToBidder auction.bid none).payMoney p
          (-toInt64 (L.auctionCut auction.bid).toNat)
      else w
    let w := { w with mails := ⟨p, .canceled, 0, some pItem⟩ :: w.mails }
    some (w.removeAuction auction)

/-- **`Update`** of one auction whose time is over. -/
def expire (auctionId : UInt32) : Option AuctionWorld :=
  match w.auctions.find? auctionId with
  | none => none
  | some auction =>
    if auction.expire_time > now.time + 60 then none
    else
      let w :=
        if auction.bidder = 0 then w.sendExpired L now auction
        else (w.sendSuccessful L now auction).sendWon L now auction
      some (w.removeAuction auction)

end AuctionWorld

end Sky548
