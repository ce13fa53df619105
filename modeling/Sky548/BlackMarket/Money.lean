import Sky548.BlackMarket.Model
import Sky548.Ledger
import Sky548.Machine

/-!
# The money of the black market

A bid takes nothing from the bidder, and mail goes to bidders that are online only. So money and
items are conserved exactly as long as no bid is accepted and every auction that ends with a bidder
finds him online and his item in existence: `eachStep_honest_iff`.
-/

namespace Sky548

open List

namespace BlackMarket

/-- The black market, and what the bidders of the auctions have paid for them, by their id. -/
structure Books where
  world : BMWorld
  paid : UInt32 → ℤ

inductive Event
  | bid (p : UInt32) (creature : Bool) (id : UInt32) (price : UInt64)
  | update (time : Nat) (draws : Nat → Draw)
  | login (p : UInt32)
  | logout (p : UInt32)

variable (L : BMRealm)

/-- What happens; `none` when a request is refused or nobody is there to make it. -/
def handle (w : BMWorld) : Event → Option BMWorld
  | .bid p creature id price => if w.online p then w.handleBid p creature id price else none
  | .update time draws => some (w.update L time draws)
  | .login p =>
    if p ∈ L.players then some { w with online := Function.update w.online p true } else none
  | .logout p => some { w with online := Function.update w.online p false }

/-- What is paid for the auctions once a request is accepted. -/
def paidAfter (books : Books) (w' : BMWorld) : Event → UInt32 → ℤ
  | .bid p _ id _ =>
    Function.update books.paid id ((books.world.money p).toNat - (w'.money p).toNat)
  | _ => books.paid

def step (books : Books) (e : Event) : Books :=
  match handle L books.world e with
  | none => books
  | some world => { world := world, paid := paidAfter books world e }

def mailed (mails : List BMMail) (receiver : UInt32) : Nat :=
  (mails.map fun m => if m.receiver = receiver then m.money.toNat else 0).sum

def heldFor (auction : BMAuctionEntry) : Nat :=
  if auction.bidder = 0 then 0 else auction.bid.toNat

def wealth (w : BMWorld) : Nat :=
  Ledger.total L.players (fun p => (w.money p).toNat + mailed w.mails p) +
    KeyedList.sumBy heldFor w.auctions

def finished (w : BMWorld) : Event → Nat
  | .update time _ =>
    (w.auctions.toList.map fun auction =>
      if auction.isExpired time then heldFor auction else 0).sum
  | _ => 0

/-- **What an accepted request or a tick does.** -/
structure LawfulTo (books : Books) (e : Event) (w' : BMWorld) : Prop where
  conserved : wealth L w' + finished books.world e = wealth L books.world
  bids : ∀ p creature id price, e = .bid p creature id price →
    ∃ auction, books.world.auctions.find? id = some auction ∧
      (auction.bid.toNat < price.toNat ∨
        auction.bidder = 0 ∧ price.toNat = auction.bm_template.startBid.toNat) ∧
      price.toNat ≤ (books.world.money p).toNat ∧
      (w'.money p).toNat + price.toNat = (books.world.money p).toNat ∧
      (auction.bidder ≠ 0 → (mailed w'.mails auction.bidder : ℤ) =
        mailed books.world.mails auction.bidder + books.paid id)
  delivered : ∀ time draws, e = .update time draws →
    ∃ added, w'.mails = added ++ books.world.mails ∧
      ∀ auction ∈ books.world.auctions, auction.isExpired time = true → auction.bidder ≠ 0 →
        ∃ m ∈ added, m.receiver = auction.bidder ∧ m.auctionId = auction.id ∧
          m.item = some (auction.bm_template.itemEntry, auction.bm_template.itemCount.toNat)

/-- A request that is refused leaves everything as it is. -/
def Lawful (books : Books) (e : Event) : Prop :=
  ∀ w', handle L books.world e = some w' → LawfulTo L books e w'

/-- The bidder is online, and his item exists and can be in one stack. -/
def Deliverable (w : BMWorld) (auction : BMAuctionEntry) : Prop :=
  w.online auction.bidder = true ∧ 1 ≤ auction.bm_template.itemCount.toNat ∧
    ∃ most, L.maxStack auction.bm_template.itemEntry = some most ∧
      auction.bm_template.itemCount.toNat ≤ most

/-- No bid is accepted, and what is won can be delivered. -/
def Meets (books : Books) : Event → Prop
  | .bid p creature id price =>
    books.world.online p = true → books.world.checkBid p creature id price = none
  | .update time _ => ∀ auction ∈ books.world.auctions, auction.isExpired time = true →
      auction.bidder ≠ 0 → Deliverable L books.world auction
  | .login _ => True
  | .logout _ => True

variable {L} {w : BMWorld} {time : Nat} {auction : BMAuctionEntry}

def wonMail (L : BMRealm) (online : UInt32 → Bool) (time : Nat) (auction : BMAuctionEntry) :
    Option BMMail :=
  if auction.isExpired time = true ∧ auction.bidder ≠ 0 ∧ online auction.bidder = true then
    (BMWorld.createItem L auction.bm_template.itemEntry auction.bm_template.itemCount).map
      fun pItem => ⟨auction.bidder, .won, auction.id, 0, some pItem⟩
  else none

theorem updateOne_eq (w : BMWorld) (auction : BMAuctionEntry) :
    BMWorld.updateOne L time w auction =
      { w with
        auctions := if auction.isExpired time then w.auctions.erase auction.id else w.auctions
        mails := (wonMail L w.online time auction).toList ++ w.mails } := by
  rw [BMWorld.updateOne, wonMail]
  by_cases expired : auction.isExpired time = true
  · rw [if_pos expired, if_pos expired]
    by_cases nobody : auction.bidder = 0
    · rw [if_neg (not_not.mpr nobody), if_neg fun won => won.2.1 nobody]
      rfl
    rw [if_pos nobody, BMWorld.sendAuctionWon]
    by_cases online : w.online auction.bidder = true
    · rw [if_pos online, if_pos ⟨expired, nobody, online⟩]
      cases BMWorld.createItem L auction.bm_template.itemEntry auction.bm_template.itemCount with
      | none => rfl
      | some pItem => rfl
    · rw [if_neg online, if_neg fun won => online won.2.2]
      rfl
  · rw [if_neg expired, if_neg expired, if_neg fun won => expired won.1]
    rfl

theorem foldl_updateOne (L : BMRealm) (time : Nat) (auctions : List BMAuctionEntry) (w : BMWorld) :
    (auctions.foldl (BMWorld.updateOne L time) w).money = w.money ∧
      (auctions.foldl (BMWorld.updateOne L time) w).mails =
        (auctions.filterMap (wonMail L w.online time)).reverse ++ w.mails := by
  induction auctions generalizing w with
  | nil => exact ⟨rfl, rfl⟩
  | cons auction rest ih =>
    obtain ⟨money, mails⟩ := ih (BMWorld.updateOne L time w auction)
    rw [updateOne_eq] at money mails
    rw [foldl_cons, updateOne_eq, money, mails]
    refine ⟨rfl, ?_⟩
    cases won : wonMail L w.online time auction with
    | none =>
      rw [filterMap_cons_none won]
      rfl
    | some m =>
      rw [filterMap_cons_some won, reverse_cons, append_assoc]
      rfl

theorem held_foldl_updateOne (L : BMRealm) (time : Nat) {auctions : List BMAuctionEntry} {w : BMWorld}
    (apart : (auctions.map BMAuctionEntry.id).Nodup)
    (there : ∀ auction ∈ auctions, w.auctions.find? auction.id = some auction) :
    KeyedList.sumBy heldFor (auctions.foldl (BMWorld.updateOne L time) w).auctions +
        (auctions.map fun auction => if auction.isExpired time then heldFor auction else 0).sum =
      KeyedList.sumBy heldFor w.auctions := by
  induction auctions generalizing w with
  | nil => rfl
  | cons auction rest ih =>
    rw [map_cons, nodup_cons] at apart
    have found := there auction mem_cons_self
    have others : ∀ other ∈ rest,
        (BMWorld.updateOne L time w auction).auctions.find? other.id = some other := by
      intro other member
      rw [updateOne_eq]
      split
      · rw [KeyedList.find?_erase, if_neg fun same => ?_]
        · exact there other (mem_cons_of_mem _ member)
        · exact apart.1 (same ▸ List.mem_map_of_mem member)
      · exact there other (mem_cons_of_mem _ member)
    have later := ih apart.2 others
    have erased := KeyedList.sumBy_erase heldFor w.auctions auction.id
    rw [found, Option.elim_some] at erased
    rw [foldl_cons, map_cons, sum_cons]
    have now : KeyedList.sumBy heldFor (BMWorld.updateOne L time w auction).auctions +
        (if auction.isExpired time then heldFor auction else 0) =
          KeyedList.sumBy heldFor w.auctions := by
      rw [updateOne_eq]
      split
      · exact erased
      · rfl
    omega

theorem createAuction_same (L : BMRealm) (time : Nat) (w : BMWorld) (draw : Draw) :
    (BMWorld.createAuction L time w draw).money = w.money ∧
      (BMWorld.createAuction L time w draw).mails = w.mails ∧
      KeyedList.sumBy heldFor (BMWorld.createAuction L time w draw).auctions =
        KeyedList.sumBy heldFor w.auctions := by
  rw [BMWorld.createAuction]
  split
  · exact ⟨rfl, rfl, rfl⟩
  split
  · rename_i selTemplate newId _ isFree
    refine ⟨rfl, rfl, ?_⟩
    rw [BMWorld.getNewAuctionId] at isFree
    have absent := find?_some isFree
    have free : w.auctions.find? newId = none := Option.isNone_iff_eq_none.mp absent
    have inserted := KeyedList.sumBy_insert heldFor w.auctions
      { id := newId
        templateId := selTemplate.id
        startTime := UInt32.ofNat (time + 120 + draw.delay - 60 / 2)
        bid := selTemplate.startBid
        bidder := 0
        bm_template := selTemplate }
    rw [free] at inserted
    exact inserted
  · exact ⟨rfl, rfl, rfl⟩

theorem foldl_createAuction_same (L : BMRealm) (time : Nat) (draws : Nat → Draw) (turns : List Nat) (w : BMWorld) :
    (turns.foldl (fun w n => BMWorld.createAuction L time w (draws n)) w).money = w.money ∧
      (turns.foldl (fun w n => BMWorld.createAuction L time w (draws n)) w).mails = w.mails ∧
      KeyedList.sumBy heldFor
          (turns.foldl (fun w n => BMWorld.createAuction L time w (draws n)) w).auctions =
        KeyedList.sumBy heldFor w.auctions := by
  induction turns generalizing w with
  | nil => exact ⟨rfl, rfl, rfl⟩
  | cons n rest ih =>
    obtain ⟨money, mails, held⟩ := ih (BMWorld.createAuction L time w (draws n))
    obtain ⟨money', mails', held'⟩ := createAuction_same L time w (draws n)
    exact ⟨money.trans money', mails.trans mails', held.trans held'⟩

/-- **What a tick does**: it sends the mails of what is won, and what was held for it is gone. -/
theorem update_spec (L : BMRealm) (time : Nat) (draws : Nat → Draw) (w : BMWorld) :
    (w.update L time draws).money = w.money ∧
      (w.update L time draws).mails =
        (w.auctions.toList.filterMap (wonMail L w.online time)).reverse ++ w.mails ∧
      KeyedList.sumBy heldFor (w.update L time draws).auctions + finished w (.update time draws) =
        KeyedList.sumBy heldFor w.auctions := by
  obtain ⟨money, mails⟩ := foldl_updateOne L time w.auctions.toList w
  have held := held_foldl_updateOne L time w.auctions.nodup
    fun auction member => KeyedList.find?_of_mem member
  rw [BMWorld.update]
  obtain ⟨money', mails', held'⟩ := foldl_createAuction_same L time draws
    (List.range (toInt32 (L.maxAuctions.toNat -
      (w.auctions.toList.foldl (BMWorld.updateOne L time) w).auctions.size)).toNat)
    (w.auctions.toList.foldl (BMWorld.updateOne L time) w)
  refine ⟨money'.trans money, mails'.trans mails, ?_⟩
  rw [finished, ← held]
  exact congrArg (· + _) held'

theorem money_wonMail {online : UInt32 → Bool} {m : BMMail}
    (won : wonMail L online time auction = some m) : m.money = 0 := by
  rw [wonMail] at won
  split at won
  · obtain ⟨pItem, -, rfl⟩ := Option.map_eq_some_iff.mp won
    rfl
  · cases won

theorem mailed_append {added mails : List BMMail} (free : ∀ m ∈ added, m.money = 0)
    (receiver : UInt32) : mailed (added ++ mails) receiver = mailed mails receiver := by
  rw [mailed, map_append, sum_append, mailed]
  rw [List.sum_eq_zero_iff_forall_eq_nat.mpr fun n member => ?_, Nat.zero_add]
  obtain ⟨m, isIn, rfl⟩ := List.mem_map.mp member
  split
  · rw [free m isIn]
    rfl
  · rfl

theorem wealth_update (L : BMRealm) (time : Nat) (draws : Nat → Draw) (w : BMWorld) :
    wealth L (w.update L time draws) + finished w (.update time draws) = wealth L w := by
  obtain ⟨money, mails, held⟩ := update_spec L time draws w
  have same : Ledger.total L.players (fun p => ((w.update L time draws).money p).toNat +
      mailed (w.update L time draws).mails p) =
        Ledger.total L.players fun p => (w.money p).toNat + mailed w.mails p := by
    refine Ledger.total_congr fun p _ => ?_
    rw [money, mails, mailed_append fun m member => ?_]
    obtain ⟨auction, -, won⟩ := List.mem_filterMap.mp (List.mem_reverse.mp member)
    exact money_wonMail won
  rw [wealth, wealth, same, ← held, Nat.add_assoc]

theorem createItem_eq_iff {entry count : UInt32} :
    BMWorld.createItem L entry count = some (entry, count.toNat) ↔
      1 ≤ count.toNat ∧ ∃ most, L.maxStack entry = some most ∧ count.toNat ≤ most := by
  have one : (1 : UInt32).toNat = 1 := rfl
  rw [BMWorld.createItem]
  split
  · rename_i none
    rw [UInt32.lt_iff_toNat_lt] at none
    refine iff_of_false (Option.some_ne_none _).symm fun positive => ?_
    omega
  · rename_i some
    rw [UInt32.lt_iff_toNat_lt] at some
    rw [and_iff_right (by omega), Option.map_eq_some_iff]
    refine exists_congr fun most => and_congr_right fun _ => ?_
    rw [Prod.mk.injEq, and_iff_right rfl]
    omega

theorem delivers_iff {online : UInt32 → Bool} (expired : auction.isExpired time = true)
    (somebody : auction.bidder ≠ 0) :
    (∃ m, wonMail L online time auction = some m ∧
      m.item = some (auction.bm_template.itemEntry, auction.bm_template.itemCount.toNat)) ↔
      Deliverable L { w with online := online } auction := by
  rw [Deliverable, ← createItem_eq_iff, wonMail]
  by_cases there : online auction.bidder = true
  · rw [if_pos ⟨expired, somebody, there⟩, and_iff_right there]
    refine ⟨fun ⟨m, won, item⟩ => ?_, fun created => ?_⟩
    · obtain ⟨pItem, created, rfl⟩ := Option.map_eq_some_iff.mp won
      rw [created]
      exact item
    · rw [created]
      exact ⟨_, rfl, rfl⟩
  · rw [if_neg fun won => there won.2.2]
    refine iff_of_false (fun ⟨m, won, _⟩ => ?_) fun deliverable => there deliverable.1
    cases won

variable {books : Books}

theorem lawful_bid_iff (L : BMRealm) (books : Books) (p : UInt32) (creature : Bool) (id : UInt32)
    (price : UInt64) :
    Lawful L books (.bid p creature id price) ↔ Meets L books (.bid p creature id price) := by
  refine ⟨fun lawful online => ?_, fun refused w' accepted => ?_⟩
  · rcases checked : books.world.checkBid p creature id price with _ | auction
    · rfl
    have accepted : handle L books.world (.bid p creature id price) =
        some (books.world.updateAuction auction price p) := by
      rw [handle, if_pos online, BMWorld.handleBid, checked]
    obtain ⟨-, -, -, -, paid, -⟩ := (lawful _ accepted).bids p creature id price rfl
    have free : (books.world.updateAuction auction price p).money = books.world.money := by
      rw [BMWorld.updateAuction]
      split
      · rw [BMWorld.sendAuctionOutbidded]
        split
        · rfl
        · rfl
      · rfl
    have some : price ≠ 0 := by
      intro zero
      rw [BMWorld.checkBid, if_pos zero] at checked
      cases checked
    rw [free] at paid
    exact absurd (UInt64.toNat_inj.mp (show price.toNat = (0 : UInt64).toNat by
      change price.toNat = 0
      omega)) some
  · rw [handle] at accepted
    split at accepted
    · rename_i online
      rw [BMWorld.handleBid, refused online] at accepted
      cases accepted
    · cases accepted

theorem lawful_update_iff (L : BMRealm) (books : Books) (time : Nat) (draws : Nat → Draw) :
    Lawful L books (.update time draws) ↔ Meets L books (.update time draws) := by
  obtain ⟨money, mails, -⟩ := update_spec L time draws books.world
  refine ⟨fun lawful auction member expired somebody => ?_, fun meets w' ticked => ?_⟩
  · obtain ⟨added, sent, all⟩ := (lawful _ rfl).delivered time draws rfl
    obtain ⟨m, isIn, -, id, item⟩ := all auction member expired somebody
    rw [append_cancel_right (sent.symm.trans mails), mem_reverse] at isIn
    obtain ⟨other, isThere, won⟩ := List.mem_filterMap.mp isIn
    have same : other.id = m.auctionId := by
      have won' := won
      rw [wonMail] at won'
      split at won'
      · obtain ⟨pItem, -, rfl⟩ := Option.map_eq_some_iff.mp won'
        rfl
      · cases won'
    rw [KeyedList.eq_of_key_eq (m := books.world.auctions) isThere member (same.trans id)] at won
    exact (delivers_iff (w := books.world) expired somebody).mp ⟨m, won, item⟩
  · rw [← Option.some.inj ticked]
    refine ⟨wealth_update L time draws books.world, fun p creature id price same => ?_,
      fun time' draws' same => ?_⟩
    · cases same
    cases same
    refine ⟨_, mails, fun auction member expired somebody => ?_⟩
    obtain ⟨m, won, item⟩ := (delivers_iff (w := books.world) expired somebody).mpr
      (meets auction member expired somebody)
    refine ⟨m, List.mem_reverse.mpr (List.mem_filterMap.mpr ⟨auction, member, won⟩), ?_⟩
    rw [wonMail] at won
    split at won
    · obtain ⟨pItem, -, rfl⟩ := Option.map_eq_some_iff.mp won
      exact ⟨rfl, rfl, item⟩
    · cases won

theorem lawful_of_online {w' : BMWorld} {e : Event} (same : w'.money = books.world.money)
    (mails : w'.mails = books.world.mails) (auctions : w'.auctions = books.world.auctions)
    (noBid : ∀ p creature id price, e ≠ .bid p creature id price)
    (noTick : ∀ time draws, e ≠ .update time draws) : LawfulTo L books e w' := by
  refine ⟨?_, fun p creature id price isIt => absurd isIt (noBid p creature id price),
    fun time draws isIt => absurd isIt (noTick time draws)⟩
  have free : finished books.world e = 0 := by
    cases e with
    | update time draws => exact absurd rfl (noTick time draws)
    | bid p creature id price => rfl
    | login p => rfl
    | logout p => rfl
  rw [free, wealth, wealth, same, mails, auctions, Nat.add_zero]

theorem lawful_iff (L : BMRealm) (books : Books) (e : Event) :
    Lawful L books e ↔ Meets L books e := by
  cases e with
  | bid p creature id price => exact lawful_bid_iff L books p creature id price
  | update time draws => exact lawful_update_iff L books time draws
  | login p =>
    refine iff_of_true (fun w' accepted => ?_) True.intro
    rw [handle] at accepted
    split at accepted
    · rw [← Option.some.inj accepted]
      refine lawful_of_online rfl rfl rfl (fun _ _ _ _ same => ?_) fun _ _ same => ?_
      · cases same
      · cases same
    · cases accepted
  | logout p =>
    refine iff_of_true (fun w' accepted => ?_) True.intro
    rw [← Option.some.inj accepted]
    refine lawful_of_online rfl rfl rfl (fun _ _ _ _ same => ?_) fun _ _ same => ?_
    · cases same
    · cases same

/-- **The black market conserves money and items** exactly as long as nobody bids and what is won
can be delivered. -/
theorem eachStep_honest_iff (L : BMRealm) (start : Books) (events : List Event) :
    Machine.EachStep (step L) (Lawful L) start events ↔
      Machine.EachStep (step L) (Meets L) start events :=
  Machine.eachStep_iff (I := fun _ => True) True.intro (fun _ _ _ _ => True.intro)
    fun books e _ => lawful_iff L books e

def oneTemplate : BMAuctionTemplate := ⟨1, 100, 1, 3600, 10, 100⟩

def smallMarket : BMRealm where
  players := {7}
  zero_not_mem := by decide
  templates := ⟨[oneTemplate], by decide⟩
  maxAuctions := 1
  maxStack := fun _ => some 1

/-- Character 7 is there, and owns nothing. -/
def pennilessBidder : Books where
  world :=
    { money := fun _ => 0
      online := fun p => p = 7
      auctions := ⟨[⟨1, 1, 0, 10, 0, oneTemplate⟩], by decide⟩
      mails := [] }
  paid := fun _ => 0

/-- He bids a thousand. -/
theorem not_lawful_of_free_bid :
    ¬ Machine.EachStep (step smallMarket) (Lawful smallMarket) pennilessBidder
      [.bid 7 true 1 1000] := by
  rintro ⟨lawful, -⟩
  obtain ⟨-, -, -, poor, -⟩ := (lawful _ rfl).bids 7 true 1 1000 rfl
  exact absurd poor (by decide)

end BlackMarket

end Sky548
