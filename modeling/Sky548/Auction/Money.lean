import Sky548.Auction.Selling
import Sky548.Machine

/-!
# The money of auctions

What the bidder of an auction has paid for it is what the auction has as its bid, goes back to him
when he is outbid or the auction is cancelled, and goes to the owner with the deposit and without the
cut when it is sold. `eachStep_settles_iff`: all this holds exactly as long as a bid that is no
buyout fits into the 32 bits of an `AuctionEntry`, and the profit of a sale into an `uint32`.
-/

namespace Sky548

open KeyedList

open Function (update update_of_ne update_self)

namespace AuctionMoney

/-! ## The law -/

/-- The auctions, and what their bidders have paid for them, by their id. -/
structure Books where
  world : AuctionWorld
  paid : UInt32 → ℤ

inductive Event
  | sell (p : UInt32) (now : AuctionCircumstances) (packet : SellItemPacket)
  | placeBid (p : UInt32) (now : AuctionCircumstances) (auctionId : UInt32) (price : UInt64)
  | removeItem (p : UInt32) (now : AuctionCircumstances) (auctionId : UInt32)
  | expire (now : AuctionCircumstances) (auctionId : UInt32)

/-- `GenerateAuctionID` has given its last number and stopped the server. -/
def stopped (w : AuctionWorld) : Bool := w.auctionId > 0xFFFFFFFE

variable (L : AuctionRealm)

/-- What happens; `none` when a request is refused or nobody is there to make it. -/
def handle (w : AuctionWorld) (e : Event) : Option AuctionWorld :=
  if stopped w then none
  else
    match e with
    | .sell p now packet => if p ∈ L.players then w.handleAuctionSellItem L p now packet else none
    | .placeBid p now auctionId price =>
      if p ∈ L.players then w.handleAuctionPlaceBid L p now auctionId price else none
    | .removeItem p now auctionId =>
      if p ∈ L.players then w.handleAuctionRemoveItem L p now auctionId else none
    | .expire now auctionId => w.expire L now auctionId

/-- What a player has lost. -/
def charged (w w' : AuctionWorld) (p : UInt32) : ℤ := (w.money p).toNat - (w'.money p).toNat

/-- What the bidder of an auction has paid already, if he is that player. -/
def paidBy (books : Books) (auctionId p : UInt32) : ℤ :=
  match books.world.auctions.find? auctionId with
  | none => 0
  | some auction => if auction.bidder = p then books.paid auctionId else 0

/-- What is paid for the auctions once a request is accepted. -/
def paidAfter (books : Books) (w' : AuctionWorld) : Event → UInt32 → ℤ
  | .sell _ _ _ => update books.paid books.world.auctionId 0
  | .placeBid p _ auctionId _ =>
    update books.paid auctionId (paidBy books auctionId p + charged books.world w' p)
  | _ => books.paid

def step (books : Books) (e : Event) : Books :=
  match handle L books.world e with
  | none => books
  | some world => { world := world, paid := paidAfter books world e }

def mailed (w : AuctionWorld) (answer : MailAuctionAnswers) (receiver : UInt32) : Nat :=
  (w.mails.map fun m => if m.answer = answer ∧ m.receiver = receiver then m.money.toNat else 0).sum

def cost (auction : AuctionEntry) (price : UInt64) : Nat :=
  if AuctionWorld.isBid auction price then price.toNat else auction.buyout.toNat

/-- What the owner gets for an auction that is sold. -/
def profit (auction : AuctionEntry) (price : UInt32) : ℤ :=
  price.toNat + auction.deposit.toNat - (L.auctionCut price).toNat

/-- What has to be mailed for an auction: to the bidder what he has paid when he is outbid or the
auction cancelled, to the owner the profit when it is sold. -/
def dueFor (paid : ℤ) (auction : AuctionEntry) : Event → MailAuctionAnswers → UInt32 → ℤ
  | .placeBid p _ _ price, answer, receiver =>
    if answer = .outbidded ∧ receiver = auction.bidder ∧ auction.bidder ≠ 0 ∧
        auction.bidder ≠ p then paid
    else if answer = .successful ∧ receiver = auction.owner ∧
        ¬ AuctionWorld.isBid auction price = true then profit L auction auction.buyout
    else 0
  | .removeItem _ _ _, answer, receiver =>
    if answer = .cancelledToBidder ∧ receiver = auction.bidder ∧ auction.bidder ≠ 0 then paid
    else 0
  | .expire _ _, answer, receiver =>
    if answer = .successful ∧ receiver = auction.owner ∧ auction.bidder ≠ 0 then
      paid + auction.deposit.toNat - (L.auctionCut auction.bid).toNat
    else 0
  | .sell _ _ _, _, _ => 0

def Event.auction (w : AuctionWorld) : Event → Option AuctionEntry
  | .sell _ _ _ => none
  | .placeBid _ _ auctionId _ | .removeItem _ _ auctionId | .expire _ auctionId =>
    w.auctions.find? auctionId

def due (books : Books) (e : Event) (answer : MailAuctionAnswers) (receiver : UInt32) : ℤ :=
  match e.auction books.world with
  | none => 0
  | some auction => dueFor L (books.paid auction.Id) auction e answer receiver

/-- **What an accepted request does to the money.** -/
structure LawfulTo (books : Books) (e : Event) (w' : AuctionWorld) : Prop where
  escrow : ∀ auction ∈ w'.auctions, (auction.bid.toNat : ℤ) = paidAfter books w' e auction.Id
  mails : ∀ answer receiver, (mailed w' answer receiver : ℤ) = mailed books.world answer receiver +
      due L books e answer receiver
  bids : ∀ p now auctionId price, e = .placeBid p now auctionId price →
    ∃ auction, books.world.auctions.find? auctionId = some auction ∧
      auction.bid.toNat < price.toNat ∧
      cost auction price ≤ (books.world.money p).toNat ∧
      paidAfter books w' e auctionId = cost auction price

/-- A request that is refused leaves everything as it is. -/
def Lawful (books : Books) (e : Event) : Prop :=
  ∀ w', handle L books.world e = some w' → LawfulTo L books e w'

/-- The profit of a sale is a `uint32`. -/
def Fits (auction : AuctionEntry) (price : UInt32) : Prop :=
  0 ≤ profit L auction price ∧ profit L auction price < 2 ^ 32

/-- A bid that is no buyout fits into 32 bits, and so does the profit of a sale. -/
def Meets (books : Books) (e : Event) : Prop :=
  let w := books.world
  stopped w = false → match e with
  | .sell _ _ _ => True
  | .placeBid p now auctionId price => p ∈ L.players → ∀ auction,
      w.checkPlaceBid L p now auctionId price = some auction →
      if AuctionWorld.isBid auction price then price.toNat < 2 ^ 32
      else Fits L auction auction.buyout
  | .removeItem _ _ _ => True
  | .expire now auctionId => ∀ auction, w.auctions.find? auctionId = some auction →
      auction.expire_time ≤ now.time + 60 → auction.bidder ≠ 0 → Fits L auction auction.bid

variable {L} {w : AuctionWorld} {p receiver : UInt32} {now : AuctionCircumstances}
  {answer : MailAuctionAnswers} {money : UInt32} {item : Option Item}

theorem sendTo_of_mem (member : receiver ∈ L.players) : w.sendTo L now receiver answer money item =
      { w with mails := ⟨receiver, answer, money, item⟩ :: w.mails } := by
  refine if_pos ?_
  rw [decide_eq_true (L.account_ne_zero receiver member), Bool.or_true]

theorem mailed_cons (m : AuctionMail) (who : UInt32) (kind : MailAuctionAnswers) :
    mailed { w with mails := m :: w.mails } kind who =
      (if m.answer = kind ∧ m.receiver = who then m.money.toNat else 0) + mailed w kind who := by
  rw [mailed, List.map_cons, List.sum_cons]
  rfl

structure Alike (w w' : AuctionWorld) : Prop where
  money : w'.money = w.money
  auctions : w'.auctions = w.auctions
  next : w'.auctionId = w.auctionId

theorem Alike.refl (w : AuctionWorld) : Alike w w := ⟨rfl, rfl, rfl⟩

theorem Alike.trans {w' w'' : AuctionWorld} (first : Alike w w') (second : Alike w' w'') :
    Alike w w'' :=
  ⟨second.money.trans first.money, second.auctions.trans first.auctions,
    second.next.trans first.next⟩

theorem alike_sendTo (w : AuctionWorld) : Alike w (w.sendTo L now receiver answer money item) := by
  rw [AuctionWorld.sendTo]
  split
  · exact ⟨rfl, rfl, rfl⟩
  · exact .refl w

theorem alike_sendExpired (L : AuctionRealm) (now : AuctionCircumstances) (w : AuctionWorld)
    (auction : AuctionEntry) :
    Alike w (w.sendExpired L now auction) := by
  rw [AuctionWorld.sendExpired]
  split
  · exact .refl w
  · exact alike_sendTo w

theorem alike_sendWon (L : AuctionRealm) (now : AuctionCircumstances) (w : AuctionWorld)
    (auction : AuctionEntry) :
    Alike w (w.sendWon L now auction) := by
  rw [AuctionWorld.sendWon]
  split
  · exact .refl w
  · exact alike_sendTo w

theorem alike_sendSuccessful (L : AuctionRealm) (now : AuctionCircumstances) (w : AuctionWorld)
    (auction : AuctionEntry) :
    Alike w (w.sendSuccessful L now auction) := alike_sendTo w

theorem mailed_sendTo_zero (who : UInt32) (kind : MailAuctionAnswers) :
    mailed (w.sendTo L now receiver answer 0 item) kind who = mailed w kind who := by
  rw [AuctionWorld.sendTo]
  split
  · rw [mailed_cons]
    split
    · exact Nat.zero_add _
    · exact Nat.zero_add _
  · rfl

theorem charged_payMoney {amount : ℕ} (rich : (w.money p).toNat ≤ maxMoneyAmount.toNat)
    (enough : amount ≤ (w.money p).toNat) :
    charged w (w.payMoney p (-toInt64 amount)) p = amount := by
  obtain ⟨left, result, left_toNat⟩ :=
    Option.map_eq_some_iff.mp (modifyMoney_sub (by omega) enough)
  rw [charged, AuctionWorld.payMoney, result]
  dsimp only
  rw [update_self, Option.getD_some, left_toNat]
  omega

theorem rich_payMoney {amount : ℕ} (rich : ∀ q, (w.money q).toNat ≤ maxMoneyAmount.toNat)
    (enough : amount ≤ (w.money p).toNat) (q : UInt32) :
    ((w.payMoney p (-toInt64 amount)).money q).toNat ≤ maxMoneyAmount.toNat := by
  obtain ⟨left, result, left_toNat⟩ := Option.map_eq_some_iff.mp
    (modifyMoney_sub (Nat.le_trans enough (rich p)) enough)
  rw [AuctionWorld.payMoney, result]
  dsimp only
  by_cases own : q = p
  · have bound := rich p
    rw [own, update_self, Option.getD_some, left_toNat]
    omega
  · rw [update_of_ne own]
    exact rich q

/-- What holds of an auction: it belongs to a player, as its bid does, which is below the buyout and
is what was paid. -/
structure Sane (L : AuctionRealm) (paid : UInt32 → ℤ) (auction : AuctionEntry) : Prop where
  owner : auction.owner ∈ L.players
  bidder : auction.bidder ≠ 0 → auction.bidder ∈ L.players
  below : auction.bidder ≠ 0 → auction.buyout ≠ 0 → auction.bid.toNat < auction.buyout.toNat
  paid : (auction.bid.toNat : ℤ) = paid auction.Id

structure Kept (L : AuctionRealm) (w : AuctionWorld) (paid : UInt32 → ℤ) : Prop where
  rich : ∀ q, (w.money q).toNat ≤ maxMoneyAmount.toNat
  fresh : ∀ auction ∈ w.auctions, auction.Id.toNat < w.auctionId.toNat
  sane : ∀ auction ∈ w.auctions, Sane L paid auction

variable {books : Books} {e : Event} {w' : AuctionWorld} {paid : UInt32 → ℤ}
  {auction : AuctionEntry} {auctionId : UInt32} {price : UInt64}

theorem Kept.find? (kept : Kept L w paid) (found : w.auctions.find? auctionId = some auction) :
    auction ∈ w.auctions ∧ auction.Id = auctionId ∧ Sane L paid auction := by
  obtain ⟨member, same⟩ := find?_eq_some_iff.mp found
  exact ⟨member, same, kept.sane auction member⟩

theorem Kept.erase (kept : Kept L w paid) (auctionId : UInt32) {paid' : UInt32 → ℤ}
    (rich : ∀ q, (w'.money q).toNat ≤ maxMoneyAmount.toNat)
    (auctions : w'.auctions = w.auctions.erase auctionId) (next : w'.auctionId = w.auctionId)
    (others : ∀ id, id ≠ auctionId → paid' id = paid id) : Kept L w' paid' := by
  refine ⟨rich, fun auction member => ?_, fun auction member => ?_⟩
  · rw [auctions, mem_erase] at member
    rw [next]
    exact kept.fresh auction member.1
  rw [auctions, mem_erase] at member
  have sane := kept.sane auction member.1
  refine ⟨sane.owner, sane.bidder, sane.below, ?_⟩
  rw [others _ member.2]
  exact sane.paid

theorem Kept.removeAuction (kept : Kept L w paid) (alike : Alike w w') (auction : AuctionEntry) :
    Kept L (w'.removeAuction auction) paid := by
  have money : (w'.removeAuction auction).money = w.money := alike.money
  refine kept.erase auction.Id (fun q => ?_) ?_ alike.next fun _ _ => rfl
  · rw [money]
    exact kept.rich q
  · rw [AuctionWorld.removeAuction, alike.auctions]

/-- The rule of a request: it is lawful exactly when its amounts fit, and then the invariant is
kept. -/
structure Ruled (L : AuctionRealm) (books : Books) (e : Event) : Prop where
  lawful_iff : Lawful L books e ↔ Meets L books e
  keeps : Meets L books e → Kept L (step L books e).world (step L books e).paid

theorem Kept.ruled_of_refused (kept : Kept L books.world books.paid)
    (refused : handle L books.world e = none) (meets : Meets L books e) : Ruled L books e := by
  refine ⟨iff_of_true (fun w' accepted => ?_) meets, fun _ => ?_⟩
  · rw [refused] at accepted
    cases accepted
  · rw [step, refused]
    exact kept

theorem ruled_of_accepted (accepted : handle L books.world e = some w')
    (lawful : LawfulTo L books e w' ↔ Meets L books e)
    (keeps : Meets L books e → Kept L w' (paidAfter books w' e)) : Ruled L books e := by
  refine ⟨?_, fun meets => ?_⟩
  · rw [← lawful]
    refine ⟨fun all => all w' accepted, fun now w'' again => ?_⟩
    rw [accepted] at again
    rw [← Option.some.inj again]
    exact now
  · rw [step, accepted]
    exact keeps meets

theorem Kept.ruled_of_request (kept : Kept L books.world books.paid) {result : Option AuctionWorld}
    (handled : stopped books.world = false → handle L books.world e = result)
    (refused : stopped books.world = false → result = none → Meets L books e)
    (accepted : ∀ w', stopped books.world = false → result = some w' →
      handle L books.world e = some w' → Ruled L books e) :
    Ruled L books e := by
  cases running : stopped books.world with
  | true =>
    refine kept.ruled_of_refused (if_pos running) fun halted => ?_
    rw [running] at halted
    cases halted
  | false =>
    cases given : result with
    | none => exact kept.ruled_of_refused ((handled running).trans given) (refused running given)
    | some w' => exact accepted w' running given ((handled running).trans given)

/-- What selling does to the books: an auction without a bid, and no mail. -/
structure Opened (w : AuctionWorld) (p : UInt32) (w' : AuctionWorld) : Prop where
  auctions : ∃ auction, w'.auctions = w.auctions.insert auction ∧ auction.Id = w.auctionId ∧
    auction.owner = p ∧ auction.bidder = 0 ∧ auction.bid = 0
  next : w'.auctionId = w.auctionId + 1
  mails : w'.mails = w.mails
  money : ∃ amount, w'.money = update w.money p
    ((modifyMoney (w.money p) (toInt32 amount)).getD (w.money p))

theorem opened_of_sell {packet : SellItemPacket}
    (sold : w.handleAuctionSellItem L p now packet = some w') : Opened w p w' := by
  unfold AuctionWorld.handleAuctionSellItem at sold
  split at sold
  · cases sold
  · cases sold
  dsimp only at sold
  split at sold
  · cases sold
  rw [← Option.some.inj sold]
  split
  · exact ⟨⟨_, rfl, rfl, rfl, rfl, rfl⟩, rfl, rfl, ⟨_, rfl⟩⟩
  · exact ⟨⟨_, rfl, rfl, rfl, rfl, rfl⟩, rfl, rfl, ⟨_, rfl⟩⟩

theorem Opened.kept (opened : Opened w p w') (kept : Kept L w paid) (running : stopped w = false)
    (member : p ∈ L.players) : Kept L w' (update paid w.auctionId 0) := by
  obtain ⟨auction, auctions, id, owner, bidder, bid⟩ := opened.auctions
  obtain ⟨amount, money⟩ := opened.money
  have more : w'.auctionId.toNat = w.auctionId.toNat + 1 := by
    have small : ¬ w.auctionId > 0xFFFFFFFE := of_decide_eq_false running
    rw [gt_iff_lt, UInt32.lt_iff_toNat_lt] at small
    have last : (0xFFFFFFFE : UInt32).toNat = 0xFFFFFFFE := rfl
    have one : (1 : UInt32).toNat = 1 := rfl
    rw [opened.next, UInt32.toNat_add]
    omega
  refine ⟨fun q => ?_, fun other isIn => ?_, fun other isIn => ?_⟩
  · rw [money]
    by_cases own : q = p
    · obtain ⟨low, high⟩ := toInt32_bounds amount
      rw [own, update_self]
      exact modifyMoney_rich (kept.rich p) (by omega) (by omega)
    · rw [update_of_ne own]
      exact kept.rich q
  · rw [auctions, mem_insert] at isIn
    rcases isIn with rfl | ⟨old, -⟩
    · rw [id]
      omega
    · have before := kept.fresh other old
      omega
  · rw [auctions, mem_insert] at isIn
    rcases isIn with rfl | ⟨old, -⟩
    · refine ⟨owner ▸ member, fun some => absurd bidder some, fun some => absurd bidder some, ?_⟩
      rw [bid, id, update_self]
      rfl
    have sane := kept.sane other old
    refine ⟨sane.owner, sane.bidder, sane.below, ?_⟩
    rw [update_of_ne fun same => ?_]
    · exact sane.paid
    · have before := kept.fresh other old
      rw [same] at before
      omega

theorem Kept.ruled_sell (kept : Kept L books.world books.paid) (p : UInt32)
    (now : AuctionCircumstances) (packet : SellItemPacket) : Ruled L books (.sell p now packet) := by
  refine kept.ruled_of_request (fun running => if_neg (by rw [running]; exact Bool.false_ne_true))
    (fun _ _ _ => True.intro) fun w' running result handled => ?_
  dsimp only at result
  by_cases member : p ∈ L.players
  · rw [if_pos member] at result
    have opened := opened_of_sell result
    have after := opened.kept kept running member
    refine ruled_of_accepted handled (iff_of_true ⟨fun auction isIn => ?_, fun kind who => ?_,
      fun p' now' auctionId price same => ?_⟩ fun _ => True.intro) fun _ => after
    · exact (after.sane auction isIn).paid
    · rw [mailed, opened.mails]
      exact (Int.add_zero _).symm
    · cases same
  · rw [if_neg member] at result
    cases result

theorem mailed_sendExpired (auction : AuctionEntry) (kind : MailAuctionAnswers) (who : UInt32) :
    mailed (w.sendExpired L now auction) kind who = mailed w kind who := by
  rw [AuctionWorld.sendExpired]
  split
  · rfl
  · exact mailed_sendTo_zero who kind

theorem mailed_sendWon (auction : AuctionEntry) (kind : MailAuctionAnswers) (who : UInt32) :
    mailed (w.sendWon L now auction) kind who = mailed w kind who := by
  rw [AuctionWorld.sendWon]
  split
  · rfl
  · exact mailed_sendTo_zero who kind

theorem mailed_sendSuccessful (member : auction.owner ∈ L.players)
    (kind : MailAuctionAnswers) (who : UInt32) :
    mailed (w.sendSuccessful L now auction) kind who =
      (if kind = .successful ∧ who = auction.owner then
        (profit L auction auction.bid % 2 ^ 32).toNat else 0) + mailed w kind who := by
  rw [AuctionWorld.sendSuccessful, sendTo_of_mem member, mailed_cons]
  congr 1
  by_cases here : kind = .successful ∧ who = auction.owner
  · rw [if_pos here, if_pos ⟨here.1.symm, here.2.symm⟩, profit, UInt32.toNat_sub, UInt32.toNat_add]
    have cut := (L.auctionCut auction.bid).toNat_lt
    omega
  · rw [if_neg here, if_neg fun same => here ⟨same.1.symm, same.2.symm⟩]

theorem profit_mailed_iff (owner : UInt32) (amount : ℤ) :
    (∀ kind who, (((if kind = MailAuctionAnswers.successful ∧ who = owner then
        (amount % 2 ^ 32).toNat else 0 : ℕ)) : ℤ) =
      if kind = .successful ∧ who = owner then amount else 0) ↔ 0 ≤ amount ∧ amount < 2 ^ 32 := by
  refine ⟨fun all => ?_, fun small kind who => ?_⟩
  · have own := all .successful owner
    rw [if_pos ⟨rfl, rfl⟩, if_pos ⟨rfl, rfl⟩] at own
    omega
  · split
    · omega
    · rfl

theorem expire_cases (isOver : w.expire L now auctionId = some w') :
    ∃ auction, w.auctions.find? auctionId = some auction ∧ auction.expire_time ≤ now.time + 60 ∧
      w' = (if auction.bidder = 0 then w.sendExpired L now auction
        else (w.sendSuccessful L now auction).sendWon L now auction).removeAuction auction := by
  unfold AuctionWorld.expire at isOver
  split at isOver
  · cases isOver
  rename_i auction found
  split at isOver
  · cases isOver
  · rename_i notLater
    exact ⟨auction, found, Nat.not_lt.mp notLater, (Option.some.inj isOver).symm⟩

theorem expire_accepted (found : w.auctions.find? auctionId = some auction)
    (late : auction.expire_time ≤ now.time + 60) : w.expire L now auctionId ≠ none := by
  rw [AuctionWorld.expire, found]
  dsimp only
  rw [if_neg (Nat.not_lt.mpr late)]
  exact Option.some_ne_none _

theorem Kept.ruled_expire (kept : Kept L books.world books.paid) (now : AuctionCircumstances)
    (auctionId : UInt32) : Ruled L books (.expire now auctionId) := by
  refine kept.ruled_of_request (fun running => if_neg (by rw [running]; exact Bool.false_ne_true))
    (fun _ refused _ auction found late => absurd refused (expire_accepted found late))
    fun w' running result handled => ?_
  obtain ⟨auction, found, late, rfl⟩ := expire_cases result
  obtain ⟨member, id, sane⟩ := kept.find? found
  have about : (Event.expire now auctionId).auction books.world = some auction := found
  have dueTo : ∀ kind who, due L books (.expire now auctionId) kind who =
      if kind = .successful ∧ who = auction.owner ∧ auction.bidder ≠ 0 then
        profit L auction auction.bid else 0 := by
    intro kind who
    rw [due, about, profit, sane.paid]
    rfl
  by_cases nobody : auction.bidder = 0
  · rw [if_pos nobody] at handled
    have after := kept.removeAuction (alike_sendExpired L now _ auction) auction
    refine ruled_of_accepted handled (iff_of_true ⟨fun other isIn => (after.sane other isIn).paid,
      fun kind who => ?_, fun p' now' auctionId' price same => ?_⟩
      fun _ auction' found' _ some => ?_) fun _ => after
    · rw [dueTo, if_neg fun sold => sold.2.2 nobody, Int.add_zero]
      exact congrArg Nat.cast (mailed_sendExpired auction kind who)
    · cases same
    · obtain rfl := Option.some.inj (found'.symm.trans found)
      exact absurd nobody some
  · rw [if_neg nobody] at handled
    have after := kept.removeAuction ((alike_sendSuccessful L now _ auction).trans
      (alike_sendWon L now _ auction)) auction
    have mails : ∀ kind who, mailed (((books.world.sendSuccessful L now auction).sendWon L now
        auction).removeAuction auction) kind who = _ := fun kind who =>
      (mailed_sendWon auction kind who).trans (mailed_sendSuccessful sane.owner kind who)
    simp only [and_iff_left nobody] at dueTo
    have small_iff := profit_mailed_iff auction.owner (profit L auction auction.bid)
    refine ruled_of_accepted handled ⟨fun lawful _ auction' found' _ _ => ?_, fun meets =>
      ⟨fun other isIn => (after.sane other isIn).paid, fun kind who => ?_,
        fun p' now' auctionId' price same => ?_⟩⟩ fun _ => after
    · obtain rfl := Option.some.inj (found'.symm.trans found)
      refine small_iff.mp fun kind who => ?_
      have mailed_ := lawful.mails kind who
      rw [mails, dueTo] at mailed_
      omega
    · have fits := small_iff.mpr (meets running auction found late nobody) kind who
      rw [mails, dueTo, ← fits]
      omega
    · cases same

theorem pos_iff_ne_zero {who : UInt32} : who > 0 ↔ who ≠ 0 := by
  rw [gt_iff_lt, UInt32.lt_iff_toNat_lt, ne_eq, ← UInt32.toNat_inj]
  exact Nat.pos_iff_ne_zero

/-- What a cancelled auction leaves before its item goes back. -/
def refund (L : AuctionRealm) (w : AuctionWorld) (p : UInt32) (now : AuctionCircumstances)
    (auction : AuctionEntry) : AuctionWorld :=
  if auction.bidder = 0 then w
  else (w.sendTo L now auction.bidder .cancelledToBidder auction.bid none).payMoney p
    (-toInt64 (L.auctionCut auction.bid).toNat)

theorem removeItem_cases (cancelled : w.handleAuctionRemoveItem L p now auctionId = some w') :
    ∃ auction pItem, w.auctions.find? auctionId = some auction ∧
      (auction.bidder ≠ 0 → (L.auctionCut auction.bid).toNat ≤ (w.money p).toNat) ∧
      w' = ({ refund L w p now auction with
        mails := ⟨p, .canceled, 0, some pItem⟩ ::
          (refund L w p now auction).mails } : AuctionWorld).removeAuction auction := by
  unfold AuctionWorld.handleAuctionRemoveItem AuctionWorld.checkRemoveItem at cancelled
  split at cancelled
  · cases cancelled
  rename_i auction pItem checked
  split at checked
  · cases checked
  split at checked
  · cases checked
  rename_i auction' found
  split at checked
  · cases checked
  split at checked
  · cases checked
  split at checked
  · cases checked
  rename_i it _ enough
  obtain ⟨rfl, rfl⟩ := Prod.mk.inj (Option.some.inj checked)
  refine ⟨auction', it, found, fun somebody => ?_, ?_⟩
  · rw [not_and, Bool.not_eq_true', Bool.not_eq_false, hasEnoughMoney, decide_eq_true_eq,
      UInt64.le_iff_toNat_le, UInt32.toNat_toUInt64] at enough
    exact enough (pos_iff_ne_zero.mpr somebody)
  · rw [← Option.some.inj cancelled, refund]
    by_cases nobody : auction'.bidder = 0
    · rw [if_pos nobody, if_neg fun some => pos_iff_ne_zero.mp some nobody]
    · rw [if_neg nobody, if_pos (pos_iff_ne_zero.mpr nobody)]

theorem refund_mails (known : auction.bidder ≠ 0 → auction.bidder ∈ L.players)
    (kind : MailAuctionAnswers) (who : UInt32) :
    mailed (refund L w p now auction) kind who =
      (if kind = .cancelledToBidder ∧ who = auction.bidder ∧ auction.bidder ≠ 0 then
        auction.bid.toNat else 0) + mailed w kind who := by
  rw [refund]
  by_cases nobody : auction.bidder = 0
  · rw [if_pos nobody, if_neg fun back => back.2.2 nobody, Nat.zero_add]
  rw [if_neg nobody]
  change mailed (w.sendTo L now auction.bidder .cancelledToBidder auction.bid none) kind who = _
  rw [sendTo_of_mem (known nobody), mailed_cons]
  congr 1
  simp only [and_iff_left nobody, eq_comm]

theorem refund_rich (rich : ∀ q, (w.money q).toNat ≤ maxMoneyAmount.toNat)
    (enough : auction.bidder ≠ 0 → (L.auctionCut auction.bid).toNat ≤ (w.money p).toNat)
    (q : UInt32) : ((refund L w p now auction).money q).toNat ≤ maxMoneyAmount.toNat := by
  rw [refund]
  by_cases nobody : auction.bidder = 0
  · rw [if_pos nobody]
    exact rich q
  rw [if_neg nobody]
  have same : (w.sendTo L now auction.bidder .cancelledToBidder auction.bid none).money = w.money :=
    (alike_sendTo w).money
  refine rich_payMoney (fun q => ?_) ?_ q
  · rw [same]
    exact rich q
  · rw [same]
    exact enough nobody

theorem refund_auctions (L : AuctionRealm) (w : AuctionWorld) (p : UInt32)
    (now : AuctionCircumstances) (auction : AuctionEntry) :
    (refund L w p now auction).auctions = w.auctions ∧
      (refund L w p now auction).auctionId = w.auctionId := by
  rw [refund]
  split
  · exact ⟨rfl, rfl⟩
  · have alike : Alike w (w.sendTo L now auction.bidder .cancelledToBidder auction.bid none) :=
      alike_sendTo w
    exact ⟨alike.auctions, alike.next⟩

theorem Kept.ruled_removeItem (kept : Kept L books.world books.paid) (p : UInt32)
    (now : AuctionCircumstances) (auctionId : UInt32) :
    Ruled L books (.removeItem p now auctionId) := by
  refine kept.ruled_of_request (fun running => if_neg (by rw [running]; exact Bool.false_ne_true))
    (fun _ _ _ => True.intro) fun w' running result handled => ?_
  dsimp only at result
  by_cases member : p ∈ L.players
  · rw [if_pos member] at result
    obtain ⟨auction, pItem, found, enough, back⟩ := removeItem_cases result
    obtain ⟨isIn, id, sane⟩ := kept.find? found
    obtain ⟨auctions, next⟩ :=
      refund_auctions L books.world p now auction
    have about : (Event.removeItem p now auctionId).auction books.world = some auction := found
    have after : Kept L w' books.paid := by
      rw [back]
      refine kept.erase auction.Id (fun q => ?_) ?_ next fun _ _ => rfl
      · exact refund_rich kept.rich enough q
      · rw [AuctionWorld.removeAuction, auctions]
    refine ruled_of_accepted handled (iff_of_true ⟨fun other isIn =>
      (after.sane other isIn).paid, fun kind who => ?_, fun p' now' auctionId' price same => ?_⟩
      fun _ => True.intro) fun _ => after
    · have mails : mailed w' kind who = _ :=
        (congrArg (fun w => mailed w kind who) back).trans (mailed_cons _ who kind)
      rw [mails, refund_mails sane.bidder, due, about]
      dsimp only [dueFor]
      rw [← sane.paid]
      rw [show (0 : UInt32).toNat = 0 from rfl, ite_self, Nat.zero_add]
      split
      · omega
      · omega
    · cases same
  · rw [if_neg member] at result
    cases result

/-! ## Bidding -/

/-- What a bidder pays, when the auction is to cost him that much altogether. -/
def share (p : UInt32) (auction : AuctionEntry) (total : Nat) : Nat :=
  if auction.bidder = p then total - auction.bid.toNat else total

/-- He pays it, and the one before him gets back what the auction has as its bid. -/
def pay (L : AuctionRealm) (w : AuctionWorld) (p : UInt32) (now : AuctionCircumstances)
    (auction : AuctionEntry) (total : Nat) : AuctionWorld :=
  (if auction.bidder ≠ 0 ∧ auction.bidder ≠ p then
    w.sendTo L now auction.bidder .outbidded auction.bid none else w).payMoney p
      (-toInt64 (share p auction total))

theorem placeBid_eq (somebody : p ≠ 0) (above : auction.bid.toNat < price.toNat) :
    w.placeBid L p now auction price = { pay L w p now auction price.toNat with
        auctions := w.auctions.insert { auction with bidder := p, bid := price.toUInt32 } } := by
  have rest : (price - auction.bid.toUInt64).toNat = price.toNat - auction.bid.toNat := by
    have least : auction.bid.toUInt64 ≤ price := by
      rw [UInt64.le_iff_toNat_le, UInt32.toNat_toUInt64]
      omega
    rw [UInt64.toNat_sub_of_le _ _ least, UInt32.toNat_toUInt64]
  unfold AuctionWorld.placeBid
  rw [pay, share, rest]
  by_cases nobody : auction.bidder = 0
  · have other : auction.bidder ≠ p := fun own => somebody (own.symm.trans nobody)
    rw [if_neg fun some => pos_iff_ne_zero.mp some nobody, if_neg fun outbid => outbid.1 nobody,
      if_neg other]
    rfl
  · rw [if_pos (pos_iff_ne_zero.mpr nobody)]
    by_cases own : auction.bidder = p
    · rw [if_pos own, if_neg fun outbid => outbid.2 own, if_pos own]
      rfl
    rw [if_neg own, if_pos ⟨nobody, own⟩, if_neg own]
    exact congrArg (fun auctions => ({ (w.sendTo L now auction.bidder .outbidded auction.bid
      none).payMoney p (-toInt64 price.toNat) with
        auctions := KeyedList.insert auctions
          { auction with bidder := p, bid := price.toUInt32 } } : AuctionWorld))
      (alike_sendTo w).auctions

theorem payMoney_sendTo (amount : ℤ) :
    (w.payMoney p amount).sendTo L now receiver answer money item =
      (w.sendTo L now receiver answer money item).payMoney p amount := by
  rw [AuctionWorld.sendTo, AuctionWorld.sendTo]
  split
  · rfl
  · rfl

def sale (L : AuctionRealm) (w : AuctionWorld) (now : AuctionCircumstances) (sold : AuctionEntry) :
    AuctionWorld :=
  ((w.sendTo L now sold.owner .salePending 0 none).sendSuccessful L now sold).sendWon L now sold

theorem alike_sale (L : AuctionRealm) (now : AuctionCircumstances) (w : AuctionWorld)
    (sold : AuctionEntry) : Alike w (sale L w now sold) :=
  ((alike_sendTo w).trans (alike_sendSuccessful L now _ sold)).trans (alike_sendWon L now _ sold)

theorem mailed_sale (w : AuctionWorld) (now : AuctionCircumstances) {sold : AuctionEntry}
    (member : sold.owner ∈ L.players) (kind : MailAuctionAnswers) (who : UInt32) :
    mailed (sale L w now sold) kind who = (if kind = .successful ∧ who = sold.owner then
        (profit L sold sold.bid % 2 ^ 32).toNat else 0) + mailed w kind who := by
  rw [sale, mailed_sendWon, mailed_sendSuccessful member, mailed_sendTo_zero]

theorem buyout_eq (above : auction.bidder = p → auction.bid.toNat < auction.buyout.toNat) :
    w.buyout L p now auction = (sale L (pay L w p now auction auction.buyout.toNat) now
        { auction with bidder := p, bid := auction.buyout }).removeAuction auction := by
  unfold AuctionWorld.buyout
  rw [pay, share]
  by_cases own : auction.bidder = p
  · have rest : (auction.buyout - auction.bid).toNat =
        auction.buyout.toNat - auction.bid.toNat := by
      refine UInt32.toNat_sub_of_le _ _ ?_
      rw [UInt32.le_iff_toNat_le]
      exact Nat.le_of_lt (above own)
    rw [if_pos own.symm, if_neg fun outbid => outbid.2 own, if_pos own, rest]
    rfl
  · rw [if_neg (Ne.symm own), if_neg own]
    by_cases nobody : auction.bidder = 0
    · rw [if_neg fun some => pos_iff_ne_zero.mp some nobody, if_neg fun outbid => outbid.1 nobody]
      rfl
    · rw [if_pos (pos_iff_ne_zero.mpr nobody), if_pos ⟨nobody, own⟩, payMoney_sendTo]
      rfl

theorem pay_auctions (L : AuctionRealm) (w : AuctionWorld) (p : UInt32)
    (now : AuctionCircumstances) (auction : AuctionEntry) (total : Nat) :
    (pay L w p now auction total).auctions = w.auctions ∧
      (pay L w p now auction total).auctionId = w.auctionId := by
  rw [pay]
  split
  · have alike : Alike w (w.sendTo L now auction.bidder .outbidded auction.bid none) :=
      alike_sendTo w
    exact ⟨alike.auctions, alike.next⟩
  · exact ⟨rfl, rfl⟩

theorem pay_mails (w : AuctionWorld) (p : UInt32) (now : AuctionCircumstances)
    (known : auction.bidder ≠ 0 → auction.bidder ∈ L.players)
    (total : Nat) (kind : MailAuctionAnswers) (who : UInt32) :
    mailed (pay L w p now auction total) kind who =
      (if kind = .outbidded ∧ who = auction.bidder ∧ auction.bidder ≠ 0 ∧ auction.bidder ≠ p then
        auction.bid.toNat else 0) + mailed w kind who := by
  rw [pay]
  by_cases outbid : auction.bidder ≠ 0 ∧ auction.bidder ≠ p
  · rw [if_pos outbid]
    change mailed (w.sendTo L now auction.bidder .outbidded auction.bid none) kind who = _
    rw [sendTo_of_mem (known outbid.1), mailed_cons]
    congr 1
    simp only [and_iff_left outbid, eq_comm]
  · rw [if_neg outbid, if_neg fun back => outbid back.2.2, Nat.zero_add]
    rfl

theorem pay_money (L : AuctionRealm) (now : AuctionCircumstances) (auction : AuctionEntry)
    {total : Nat} (rich : ∀ q, (w.money q).toNat ≤ maxMoneyAmount.toNat) (enough : total ≤ (w.money p).toNat) :
    (∀ q, ((pay L w p now auction total).money q).toNat ≤ maxMoneyAmount.toNat) ∧
      charged w (pay L w p now auction total) p = share p auction total := by
  have most : share p auction total ≤ (w.money p).toNat := by
    rw [share]
    split
    · omega
    · exact enough
  have paid : ∀ w₀ : AuctionWorld, w₀.money = w.money →
      (∀ q, ((w₀.payMoney p (-toInt64 (share p auction total))).money q).toNat ≤
        maxMoneyAmount.toNat) ∧
      charged w (w₀.payMoney p (-toInt64 (share p auction total))) p = share p auction total := by
    intro w₀ same
    rw [← same] at rich most
    refine ⟨rich_payMoney rich most, ?_⟩
    rw [charged, ← same]
    exact charged_payMoney (rich p) most
  rw [pay]
  split
  · exact paid _ (alike_sendTo w).money
  · exact paid w rfl

theorem checked_of_checkPlaceBid
    (checked : w.checkPlaceBid L p now auctionId price = some auction) :
    w.auctions.find? auctionId = some auction ∧ auction.bid.toNat < price.toNat ∧
      price.toNat ≤ (w.money p).toNat := by
  unfold AuctionWorld.checkPlaceBid at checked
  split at checked
  · cases checked
  split at checked
  · cases checked
  split at checked
  · cases checked
  rename_i auction' found
  split at checked
  · cases checked
  split at checked
  · cases checked
  rename_i above
  split at checked
  · cases checked
  split at checked
  · cases checked
  rename_i enough
  obtain rfl := Option.some.inj checked
  rw [not_or, UInt64.le_iff_toNat_le, UInt32.toNat_toUInt64] at above
  rw [Bool.not_eq_true', Bool.not_eq_false, hasEnoughMoney, decide_eq_true_eq,
    UInt64.le_iff_toNat_le] at enough
  exact ⟨found, Nat.not_le.mp above.1, enough⟩

theorem placeBid_accepted (checked : w.checkPlaceBid L p now auctionId price = some auction) :
    w.handleAuctionPlaceBid L p now auctionId price ≠ none := by
  rw [AuctionWorld.handleAuctionPlaceBid, checked]
  exact Option.some_ne_none _

theorem cost_le : cost auction price ≤ price.toNat := by
  rw [cost]
  split
  · exact Nat.le_refl _
  rename_i noBid
  rw [AuctionWorld.isBid, Bool.or_eq_true, not_or, decide_eq_true_eq, UInt64.lt_iff_toNat_lt,
    UInt32.toNat_toUInt64] at noBid
  exact Nat.not_lt.mp noBid.1

theorem Kept.paidBy_add_share (kept : Kept L books.world books.paid)
    (found : books.world.auctions.find? auctionId = some auction)
    {total : Nat} (above : auction.bidder = p → auction.bid.toNat ≤ total) :
    paidBy books auctionId p + share p auction total = total := by
  obtain ⟨-, id, sane⟩ := kept.find? found
  have paid := sane.paid
  rw [id] at paid
  rw [paidBy, found, share]
  dsimp only
  split
  · rename_i own
    have least := above own
    omega
  · omega

section

variable (kept : Kept L books.world books.paid)

include kept

theorem Kept.due_placeBid (found : books.world.auctions.find? auctionId = some auction) (kind : MailAuctionAnswers)
    (who : UInt32) :
    due L books (.placeBid p now auctionId price) kind who =
      if kind = .outbidded ∧ who = auction.bidder ∧ auction.bidder ≠ 0 ∧ auction.bidder ≠ p then
        (auction.bid.toNat : ℤ)
      else if kind = .successful ∧ who = auction.owner ∧ ¬ AuctionWorld.isBid auction price = true then
        profit L auction auction.buyout
      else 0 := by
  have about : (Event.placeBid p now auctionId price).auction books.world = some auction := found
  obtain ⟨-, -, sane⟩ := kept.find? found
  rw [due, about, sane.paid]
  rfl

theorem Kept.ruled_bid (running : stopped books.world = false) (member : p ∈ L.players)
    (checked : books.world.checkPlaceBid L p now auctionId price = some auction)
    (isBid : AuctionWorld.isBid auction price = true)
    (handled : handle L books.world (.placeBid p now auctionId price) =
      some (books.world.placeBid L p now auction price)) :
    Ruled L books (.placeBid p now auctionId price) := by
  obtain ⟨found, above, enough⟩ := checked_of_checkPlaceBid checked
  obtain ⟨isIn, id, sane⟩ := kept.find? found
  obtain ⟨auctions, next⟩ :=
    pay_auctions L books.world p now auction price.toNat
  obtain ⟨rich, share_⟩ := pay_money L now auction kept.rich enough
  have mails := pay_mails books.world p now sane.bidder price.toNat
  have total := kept.paidBy_add_share (p := p) found fun _ => Nat.le_of_lt above
  have somebody : p ≠ 0 := fun none => L.zero_not_mem (none ▸ member)
  rw [placeBid_eq somebody above] at handled
  have paidNow : paidAfter books { pay L books.world p now auction price.toNat with
      auctions := books.world.auctions.insert
        { auction with bidder := p, bid := price.toUInt32 } }
      (.placeBid p now auctionId price) = update books.paid auctionId price.toNat := by
    change update books.paid auctionId (paidBy books auctionId p +
      charged books.world (pay L books.world p now auction price.toNat) p) = _
    rw [share_, total]
  have after : price.toNat < 2 ^ 32 → Kept L { pay L books.world p now auction price.toNat with
      auctions := books.world.auctions.insert
        { auction with bidder := p, bid := price.toUInt32 } }
      (update books.paid auctionId price.toNat) := by
    intro small
    refine ⟨rich, fun other isThere => ?_, fun other isThere => ?_⟩
    · rw [next]
      rcases mem_insert.mp isThere with rfl | ⟨old, -⟩
      · exact kept.fresh auction isIn
      · exact kept.fresh other old
    · rcases mem_insert.mp isThere with rfl | ⟨old, apart⟩
      · have bid : price.toUInt32.toNat = price.toNat := by
          rw [UInt64.toNat_toUInt32, Nat.mod_eq_of_lt small]
        refine ⟨sane.owner, fun _ => member, fun _ sells => ?_, ?_⟩
        · rw [AuctionWorld.isBid, Bool.or_eq_true, decide_eq_true_eq, decide_eq_true_eq,
            UInt64.lt_iff_toNat_lt, UInt32.toNat_toUInt64] at isBid
          rw [bid]
          exact isBid.resolve_right sells
        · rw [bid, id, update_self]
      · have sane' := kept.sane other old
        refine ⟨sane'.owner, sane'.bidder, sane'.below, ?_⟩
        rw [update_of_ne fun same => apart (same.trans id.symm)]
        exact sane'.paid
  have cost_eq : cost auction price = price.toNat := if_pos isBid
  have meets_iff : Meets L books (.placeBid p now auctionId price) ↔ price.toNat < 2 ^ 32 := by
    refine ⟨fun meets => ?_, fun small _ _ auction' checked' => ?_⟩
    · have small := meets running member auction checked
      rw [if_pos isBid] at small
      exact small
    · obtain rfl := Option.some.inj (checked'.symm.trans checked)
      rw [if_pos isBid]
      exact small
  refine ruled_of_accepted handled ⟨fun lawful => meets_iff.mpr ?_, fun meets =>
    ⟨fun other isThere => ?_, fun kind who => ?_, fun p' now' auctionId' price' same => ?_⟩⟩
    fun meets => paidNow ▸ after (meets_iff.mp meets)
  · have escrow := lawful.escrow _ (mem_insert.mpr (Or.inl rfl))
    rw [paidNow] at escrow
    rw [id, update_self, UInt64.toNat_toUInt32] at escrow
    omega
  · rw [paidNow]
    exact ((after (meets_iff.mp meets)).sane other isThere).paid
  · rw [kept.due_placeBid found]
    change (mailed (pay L books.world p now auction price.toNat) kind who : ℤ) = _
    rw [mails]
    split
    · omega
    · rw [if_neg fun sold => sold.2.2 isBid]
      omega
  · cases same
    refine ⟨auction, found, above, ?_, ?_⟩
    · rw [cost_eq]
      exact enough
    · rw [paidNow, update_self, cost_eq]

theorem Kept.ruled_buyout (running : stopped books.world = false) (member : p ∈ L.players)
    (checked : books.world.checkPlaceBid L p now auctionId price = some auction)
    (noBid : ¬ AuctionWorld.isBid auction price = true)
    (handled : handle L books.world (.placeBid p now auctionId price) =
      some (books.world.buyout L p now auction)) :
    Ruled L books (.placeBid p now auctionId price) := by
  obtain ⟨found, above, enough⟩ := checked_of_checkPlaceBid checked
  obtain ⟨isIn, id, sane⟩ := kept.find? found
  have cost_eq : cost auction price = auction.buyout.toNat := if_neg noBid
  have cheaper : auction.buyout.toNat ≤ price.toNat := cost_eq ▸ cost_le
  have somebody : p ≠ 0 := fun none => L.zero_not_mem (none ▸ member)
  have below : auction.bidder = p → auction.bid.toNat < auction.buyout.toNat := by
    intro own
    refine sane.below (own ▸ somebody) fun none => noBid ?_
    rw [AuctionWorld.isBid, none, decide_eq_true rfl, Bool.or_true]
  obtain ⟨auctions, next⟩ :=
    pay_auctions L books.world p now auction auction.buyout.toNat
  obtain ⟨rich, share_⟩ := pay_money L now auction kept.rich (Nat.le_trans cheaper enough)
  have mails := pay_mails books.world p now sane.bidder auction.buyout.toNat
  have total := kept.paidBy_add_share found fun own => Nat.le_of_lt (below own)
  rw [buyout_eq below] at handled
  have alike := alike_sale L now (pay L books.world p now auction auction.buyout.toNat)
    { auction with bidder := p, bid := auction.buyout }
  have owner : ({ auction with bidder := p, bid := auction.buyout } : AuctionEntry).owner ∈
      L.players := sane.owner
  have sent := mailed_sale (pay L books.world p now auction auction.buyout.toNat) now owner
  generalize sale L (pay L books.world p now auction auction.buyout.toNat) now
    { auction with bidder := p, bid := auction.buyout } = w' at handled alike sent
  have paidNow : paidAfter books (w'.removeAuction auction) (.placeBid p now auctionId price) =
      update books.paid auctionId auction.buyout.toNat := by
    change update books.paid auctionId (paidBy books auctionId p +
      ((books.world.money p).toNat - (w'.money p).toNat)) = _
    rw [alike.money]
    change update books.paid auctionId (paidBy books auctionId p + charged books.world _ p) = _
    rw [share_, total]
  have after : Kept L (w'.removeAuction auction)
      (update books.paid auctionId auction.buyout.toNat) := by
    refine kept.erase auctionId (fun q => ?_) ?_ (alike.next.trans next) fun other apart =>
      update_of_ne apart _ _
    · change (w'.money q).toNat ≤ _
      rw [alike.money]
      exact rich q
    · rw [AuctionWorld.removeAuction, alike.auctions, auctions, id]
  have mailed_iff : (∀ kind who, (mailed (w'.removeAuction auction) kind who : ℤ) =
      mailed books.world kind who + due L books (.placeBid p now auctionId price) kind who) ↔
        Fits L auction auction.buyout := by
    rw [Fits, ← profit_mailed_iff auction.owner]
    refine forall_congr' fun kind => forall_congr' fun who => ?_
    rw [kept.due_placeBid found]
    change (mailed w' kind who : ℤ) = _ ↔ _
    rw [sent, mails]
    simp only [and_iff_left noBid]
    change ((((if kind = .successful ∧ who = auction.owner then
      (profit L auction auction.buyout % 2 ^ 32).toNat else 0) + _ : ℕ)) : ℤ) = _ ↔ _
    by_cases back : kind = .outbidded ∧ who = auction.bidder ∧ auction.bidder ≠ 0 ∧
        auction.bidder ≠ p
    · have other : ¬ (kind = .successful ∧ who = auction.owner) := by
        rintro ⟨sold, -⟩
        rw [back.1] at sold
        cases sold
      rw [if_pos back, if_pos back, if_neg other, if_neg other]
      omega
    · rw [if_neg back, if_neg back]
      omega
  have meets_iff : Meets L books (.placeBid p now auctionId price) ↔
      Fits L auction auction.buyout := by
    refine ⟨fun meets => ?_, fun fits _ _ auction' checked' => ?_⟩
    · have fits := meets running member auction checked
      rw [if_neg noBid] at fits
      exact fits
    · obtain rfl := Option.some.inj (checked'.symm.trans checked)
      rw [if_neg noBid]
      exact fits
  rw [← mailed_iff] at meets_iff
  refine ruled_of_accepted handled ⟨fun lawful => meets_iff.mpr lawful.mails, fun meets =>
    ⟨fun other isThere => ?_, meets_iff.mp meets, fun p' now' auctionId' price' same => ?_⟩⟩
    fun _ => paidNow ▸ after
  · rw [paidNow]
    exact (after.sane other isThere).paid
  cases same
  refine ⟨auction, found, above, ?_, ?_⟩
  · rw [cost_eq]
    exact Nat.le_trans cheaper enough
  · rw [paidNow, update_self, cost_eq]

theorem Kept.ruled_placeBid (p : UInt32)
    (now : AuctionCircumstances) (auctionId : UInt32) (price : UInt64) :
    Ruled L books (.placeBid p now auctionId price) := by
  refine kept.ruled_of_request (fun running => if_neg (by rw [running]; exact Bool.false_ne_true))
    (fun _ refused _ member auction checked => ?_) fun w' running result handled => ?_
  · dsimp only at refused
    rw [if_pos member] at refused
    exact absurd refused (placeBid_accepted checked)
  dsimp only at result
  by_cases member : p ∈ L.players
  · rw [if_pos member, AuctionWorld.handleAuctionPlaceBid] at result
    cases checked : books.world.checkPlaceBid L p now auctionId price with
    | none =>
      rw [checked] at result
      cases result
    | some auction =>
      rw [checked] at result
      dsimp only at result
      rw [← result] at handled
      by_cases isBid : AuctionWorld.isBid auction price = true
      · rw [if_pos isBid] at handled
        exact kept.ruled_bid running member checked isBid handled
      · rw [if_neg isBid] at handled
        exact kept.ruled_buyout running member checked isBid handled
  · rw [if_neg member] at result
    cases result

theorem Kept.ruled (e : Event) : Ruled L books e := by
  cases e with
  | sell p now packet => exact kept.ruled_sell p now packet
  | placeBid p now auctionId price => exact kept.ruled_placeBid p now auctionId price
  | removeItem p now auctionId => exact kept.ruled_removeItem p now auctionId
  | expire now auctionId => exact kept.ruled_expire now auctionId

end

/-- The players before the first auction, none of them too rich. -/
structure Start where
  items : ItemWorld
  money : UInt32 → UInt64
  rich : ∀ p, money p ≤ maxMoneyAmount
  auctionId : UInt32

def Start.opened (start : Start) : Books where
  world :=
    { items := start.items
      money := start.money
      auctions := .empty
      mAitems := .empty
      auctionId := start.auctionId
      mails := [] }
  paid := fun _ => 0

theorem Start.kept (start : Start) (L : AuctionRealm) :
    Kept L start.opened.world start.opened.paid := by
  refine ⟨fun q => UInt64.le_iff_toNat_le.mp (start.rich q), fun auction member => ?_,
    fun auction member => ?_⟩
  · cases member
  · cases member

/-- **Auctions conserve money** exactly as long as the bids and the profits fit into 32 bits. -/
theorem eachStep_settles_iff (L : AuctionRealm) (start : Start) (events : List Event) :
    Machine.EachStep (step L) (Lawful L) start.opened events ↔
      Machine.EachStep (step L) (Meets L) start.opened events :=
  Machine.eachStep_iff (I := fun books => Kept L books.world books.paid) (start.kept L)
    (fun _ e kept meets => (kept.ruled e).keeps meets) fun _ e kept => (kept.ruled e).lawful_iff

/-- Character 7 has something to sell, and character 8 almost a million gold. -/
def millionaire : Start where
  items := Auction.twoGoods.items
  money := fun p => if p = 8 then 9999999999 else 100
  rich := fun p => by
    split
    · decide
    · decide
  auctionId := 1

/-- His auction asks for no buyout. -/
def offered : Event := .sell 7 Auction.midday (Auction.listingOf [(10, 10)])

/-- She bids sixty more than what 32 bits hold. -/
def overbid : Event := .placeBid 8 Auction.midday 1 4294967356

/-- The auction has a bid of sixty. -/
theorem not_lawful_of_wide_bid :
    ¬ Machine.EachStep (step Auction.fairHouse) (Lawful Auction.fairHouse) millionaire.opened
      [offered, overbid] := by
  rintro ⟨-, lawful, -⟩
  have wrong : (handle Auction.fairHouse (step Auction.fairHouse millionaire.opened offered).world
      overbid).any (fun w' => w'.auctions.toList.any fun auction => (auction.bid.toNat : ℤ) ≠
        paidAfter (step Auction.fairHouse millionaire.opened offered) w' overbid auction.Id) =
          true := by decide
  cases handled : handle Auction.fairHouse
      (step Auction.fairHouse millionaire.opened offered).world overbid with
  | none =>
    rw [handled] at wrong
    cases wrong
  | some w' =>
    rw [handled, Option.any_some, List.any_eq_true] at wrong
    obtain ⟨auction, member, differs⟩ := wrong
    exact of_decide_eq_true differs ((lawful w' handled).escrow auction member)

end AuctionMoney

end Sky548
