import Mathlib.Data.Finset.Basic
import Sky548.Items.Money
import Sky548.KeyedList
import Sky548.ObjectGuid

/-!
# The black market

`BlackMarketMgr` and the handler of a bid. An auction belongs to nobody: it is made from a template
when there are too few, takes bids, and is deleted when its time is over. Mail goes to bidders that
are online. What a mail carries is the entry and the count of the item created for it.
-/

namespace Sky548

structure BMAuctionTemplate where
  id : UInt32
  itemEntry : UInt32
  itemCount : UInt32
  duration : UInt32
  startBid : UInt32
  chance : UInt32
  deriving DecidableEq

structure BMAuctionEntry where
  id : UInt32
  templateId : UInt32
  startTime : UInt32
  bid : UInt32
  bidder : UInt32
  bm_template : BMAuctionTemplate
  deriving DecidableEq

inductive BMMailAuctionAnswers
  | outbidded
  | won
  deriving DecidableEq

structure BMMail where
  receiver : UInt32
  answer : BMMailAuctionAnswers
  auctionId : UInt32
  money : UInt32
  item : Option (UInt32 × Nat)
  deriving DecidableEq

/-- What does not change: the players, the auction templates, how many auctions there may be, and
the largest stack of the items that exist. -/
structure BMRealm where
  players : Finset UInt32
  zero_not_mem : 0 ∉ players
  templates : KeyedList BMAuctionTemplate BMAuctionTemplate.id
  maxAuctions : UInt32
  maxStack : UInt32 → Option Nat

structure BMWorld where
  money : UInt32 → UInt64
  online : UInt32 → Bool
  auctions : KeyedList BMAuctionEntry BMAuctionEntry.id
  mails : List BMMail

/-- What is drawn for a new auction. A `pick` that is the length of the list of templates is one too
far: `beyond` is what lies there. -/
structure Draw where
  rand : UInt32
  pick : Nat
  beyond : UInt32
  delay : Nat

def BMAuctionEntry.isExpired (auction : BMAuctionEntry) (time : Nat) : Bool :=
  (auction.startTime + auction.bm_template.duration).toNat < time

namespace BMWorld

variable (L : BMRealm) (w : BMWorld)

def sendAuctionOutbidded (auction : BMAuctionEntry) : BMWorld :=
  if w.online auction.bidder then
    { w with mails := ⟨auction.bidder, .outbidded, auction.id, auction.bid, none⟩ :: w.mails }
  else w

/-- **`UpdateAuction`**: the price is cut to 32 bits. -/
def updateAuction (auction : BMAuctionEntry) (newPrice : UInt64) (newBidder : UInt32) : BMWorld :=
  let w := if auction.bidder ≠ 0 then w.sendAuctionOutbidded auction else w
  { w with
    auctions := w.auctions.insert { auction with bid := newPrice.toUInt32, bidder := newBidder } }

/-- The checks of `HandleBlackMarketBidOpcode`: the auction, when they all pass. -/
def checkBid (p : UInt32) (creature : Bool) (id : UInt32) (price : UInt64) :
    Option BMAuctionEntry :=
  if price = 0 then none
  else if !creature then none
  else
    match w.auctions.find? id with
    | none => none
    | some auction =>
      if auction.bidder = p then none
      else if auction.bid.toUInt64 ≥ price ∧ price ≠ auction.bm_template.startBid.toUInt64 then
        none
      else some auction

/-- **`HandleBlackMarketBidOpcode`** -/
def handleBid (p : UInt32) (creature : Bool) (id : UInt32) (price : UInt64) : Option BMWorld :=
  match w.checkBid p creature id price with
  | none => none
  | some auction => some (w.updateAuction auction price p)

/-- `CreateItem`: the entry and the count; `none` is no item. -/
def createItem (entry count : UInt32) : Option (UInt32 × Nat) :=
  if count < 1 then none
  else (L.maxStack entry).map fun most => (entry, min count.toNat most)

/-- **`SendAuctionWon`**; without an item there is no mail. -/
def sendAuctionWon (auction : BMAuctionEntry) : BMWorld :=
  if w.online auction.bidder then
    match createItem L auction.bm_template.itemEntry auction.bm_template.itemCount with
    | none => w
    | some pItem =>
      { w with mails := ⟨auction.bidder, .won, auction.id, 0, some pItem⟩ :: w.mails }
  else w

def updateOne (time : Nat) (w : BMWorld) (auction : BMAuctionEntry) : BMWorld :=
  if auction.isExpired time then
    let w := if auction.bidder ≠ 0 then w.sendAuctionWon L auction else w
    { w with auctions := w.auctions.erase auction.id }
  else w

/-- `GetNewAuctionId`: of so many numbers one is free. -/
def getNewAuctionId : Option UInt32 :=
  ((List.range (w.auctions.size + 1)).map fun n => UInt32.ofNat (n + 1)).find? fun id =>
    (w.auctions.find? id).isNone

def createAuction (time : Nat) (w : BMWorld) (draw : Draw) : BMWorld :=
  let chosen := (L.templates.toList.filter fun template => template.chance ≥ draw.rand).map
    BMAuctionTemplate.id
  let templateList := chosen.filter fun id =>
    !(w.auctions.toList.any fun auction => auction.templateId = id)
  if templateList = [] then w
  else
    match L.templates.find? (templateList.getD draw.pick draw.beyond), w.getNewAuctionId with
    | some selTemplate, some newId =>
      { w with
        auctions := w.auctions.insert
          { id := newId
            templateId := selTemplate.id
            startTime := UInt32.ofNat (time + 120 + draw.delay - 60 / 2)
            bid := selTemplate.startBid
            bidder := 0
            bm_template := selTemplate } }
    | _, _ => w

def update (time : Nat) (draws : Nat → Draw) : BMWorld :=
  let w := w.auctions.toList.foldl (updateOne L time) w
  let add := toInt32 (L.maxAuctions.toNat - w.auctions.size)
  (List.range add.toNat).foldl (fun w n => createAuction L time w (draws n)) w

end BMWorld

end Sky548
