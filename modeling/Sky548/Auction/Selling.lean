import Sky548.Auction.Model
import Sky548.Items.Finding

/-!
# Selling items

Several stacks become one auction: a clone of the first gets what is asked of all of them, and each
of them loses what is asked of it. Nobody compares their entries or sees that a stack is asked twice,
and `sell_lawful_iff` says that items are conserved exactly when the entries are one and no stack is
asked for more than it has.
-/

namespace Sky548

open List Option

namespace Auction

open ItemRules

def asked (e : UInt32) (x : Listed) : Nat := if x.item.entry = e then x.count.toNat else 0

def claims (xs : List Listed) (e : UInt32) : Nat := (xs.map (asked e)).sum

/-- What is asked of an entry at one place. -/
def claimsAt (xs : List Listed) (k : Place) (e : UInt32) : Nat :=
  (xs.map fun x => if x.place = k then asked e x else 0).sum

def stackOf (e : UInt32) (there : Option Item) : Nat :=
  there.elim 0 fun item => if item.entry = e then item.count else 0

theorem claims_eq_finalCount_iff {xs : List Listed} (some : ∀ x ∈ xs, 1 ≤ x.count.toNat)
    (e : UInt32) : claims xs e ≤ AuctionWorld.finalCount xs ∧
      (claims xs e = AuctionWorld.finalCount xs ↔ ∀ x ∈ xs, x.item.entry = e) := by
  induction xs with
  | nil => exact ⟨Nat.le_refl _, iff_of_true rfl fun x member => by cases member⟩
  | cons x rest ih =>
    obtain ⟨below, equal⟩ := ih fun y member => some y (mem_cons_of_mem x member)
    have positive := some x mem_cons_self
    rw [claims] at below equal
    rw [claims, AuctionWorld.finalCount, map_cons, sum_cons, map_cons,
      sum_cons, forall_mem_cons, ← equal, asked]
    rw [AuctionWorld.finalCount] at below ⊢
    split
    · rename_i same
      rw [and_iff_right same]
      omega
    · rename_i other
      rw [and_iff_left_of_imp fun same => absurd same other]
      refine ⟨by omega, iff_of_false (by omega) other⟩

variable {e : UInt32}

theorem claims_eq_zero {xs : List Listed} (some : ∀ x ∈ xs, 1 ≤ x.count.toNat) {e' : UInt32}
    (all : claims xs e = AuctionWorld.finalCount xs) (other : e ≠ e') : claims xs e' = 0 := by
  have entries := (claims_eq_finalCount_iff some e).2.mp all
  refine List.sum_eq_zero_iff_forall_eq_nat.mpr fun n member => ?_
  obtain ⟨x, isIn, rfl⟩ := List.mem_map.mp member
  exact if_neg fun same => other ((entries x isIn).symm.trans same)

/-! ## The loop -/

/-- A listed item as the checks leave it: it was found where it lies, is no bag in use, and
something is asked of it. -/
structure Sellable (R : ItemRules) (w : ItemWorld) (player : UInt64) (x : Listed) : Prop where
  found : ∃ bag slot, x.place = .inventory player bag slot ∧
    R.getItemByPos w player bag slot = some x.item ∧
    ¬ (isBagPos bag slot = true ∧ R.isBag x.item = true)
  lies : w.shelf.get? x.place = some x.item
  asked : 1 ≤ x.count.toNat

/-- What the loop leaves as it is: the bags, and of each stack its entry. -/
structure Loop (R : ItemRules) (player : UInt64) (w items : ItemWorld) : Prop where
  bags : ∀ bag, R.getBagByPos items player bag = R.getBagByPos w player bag
  entries : ∀ k item, items.shelf.get? k = some item →
    item.count < 2 ^ 32 ∧ ∃ item₀, w.shelf.get? k = some item₀ ∧ item.entry = item₀.entry

variable {L : AuctionRealm} {w items : ItemWorld} {player : UInt64} {x : Listed}

/-- The stack at a place after one turn. -/
def remains (x : Listed) (item : Item) : Option Item :=
  if item.count = x.count.toNat then none
  else some { item with count := (item.count + 2 ^ 32 - x.count.toNat) % 2 ^ 32 }

theorem sellListed_of_absent (absent : items.shelf.get? x.place = none) :
    AuctionWorld.sellListed L items x = items := by
  unfold AuctionWorld.sellListed
  split
  · rename_i present
    rw [absent] at present
    cases present
  · rfl

variable {item : Item}

theorem Loop.sellListed_eq (loop : Loop L.rules player w items)
    (sellable : Sellable L.rules w player x) (present : items.shelf.get? x.place = some item) :
    AuctionWorld.sellListed L items x = match remains x item with
      | none => items.take x.place
      | some left => items.put x.place left := by
  obtain ⟨bag, slot, place, found, -⟩ := sellable.found
  have there := getItemByPos_of_bags found (loop.bags bag)
  rw [← place, present] at there
  unfold AuctionWorld.sellListed
  rw [present, place]
  dsimp only
  rw [remains]
  by_cases whole : item.count = x.count.toNat
  · rw [if_pos whole, if_pos whole, moveItemFromInventory, there]
  · rw [if_neg whole, if_neg whole]

theorem Loop.get?_sellListed (loop : Loop L.rules player w items)
    (sellable : Sellable L.rules w player x)
    (present : items.shelf.get? x.place = some item) (k : Place) :
    (AuctionWorld.sellListed L items x).shelf.get? k =
      if k = x.place then remains x item else items.shelf.get? k := by
  rw [loop.sellListed_eq sellable present]
  cases remains x item with
  | none => exact Shelf.get?_take _ _ _
  | some left => exact Shelf.get?_put _ _ _ _

theorem heldBy_of_sellable (sellable : Sellable L.rules w player x) :
    x.place.heldBy player = true := by
  obtain ⟨bag, slot, place, -⟩ := sellable.found
  rw [place]
  exact decide_eq_true rfl

theorem held_eq_stackOf (sellable : Sellable L.rules w player x) (e : UInt32) (there : Option Item) :
    Shelf.held (Place.heldBy player) e x.place there = stackOf e there := by
  cases there with
  | none => rfl
  | some item =>
    rw [Shelf.held, stackOf, elim_some, elim_some, heldBy_of_sellable sellable]
    simp

theorem Loop.amount_sellListed (loop : Loop L.rules player w items)
    (sellable : Sellable L.rules w player x)
    (present : items.shelf.get? x.place = some item) (e : UInt32) :
    Shelf.amount (Place.heldBy player) e (AuctionWorld.sellListed L items x).shelf +
        stackOf e (some item) =
      Shelf.amount (Place.heldBy player) e items.shelf + stackOf e (remains x item) := by
  rw [loop.sellListed_eq sellable present, ← held_eq_stackOf sellable, ← held_eq_stackOf sellable,
    ← present]
  cases remains x item with
  | none => exact Shelf.amount_take _ _ _ _
  | some left => exact Shelf.amount_put _ _ _ _ _

theorem entry_of_remains {left : Item} (still : remains x item = some left) :
    left.entry = item.entry ∧ left.count < 2 ^ 32 := by
  rw [remains] at still
  split at still
  · cases still
  · rw [← Option.some.inj still]
    exact ⟨rfl, Nat.mod_lt _ (by decide)⟩

theorem Loop.sellListed (loop : Loop L.rules player w items)
    (sellable : Sellable L.rules w player x) :
    Loop L.rules player w (AuctionWorld.sellListed L items x) := by
  cases present : items.shelf.get? x.place with
  | none =>
    rw [sellListed_of_absent present]
    exact loop
  | some item =>
    obtain ⟨-, item₀, lies₀, sameEntry⟩ := loop.entries _ _ present
    obtain rfl := Option.some.inj (lies₀.symm.trans sellable.lies)
    refine ⟨fun bag => ?_, fun k left found => ?_⟩
    · rw [← loop.bags bag]
      refine getBagByPos_of_same fun isSlot => ?_
      rw [loop.get?_sellListed sellable present]
      split
      · rename_i here
        obtain ⟨bag', slot, place, -, notBag⟩ := sellable.found
        rw [place] at here
        obtain ⟨-, rfl, rfl⟩ := Place.inventory.inj here
        rw [place] at present
        have noBag : ∀ left : Item, left.entry = x.item.entry → L.rules.isBag left = false := by
          intro left same
          rw [isBagPos, decide_eq_true rfl, Bool.true_and] at notBag
          have bagless : L.rules.isBag x.item = false := by
            simpa [isSlot] using notBag
          rw [ItemRules.isBag, same]
          exact bagless
        rw [present, filter_some, noBag item sameEntry]
        cases still : remains x item with
        | none => rfl
        | some left =>
          rw [filter_some, noBag left ((entry_of_remains still).1.trans sameEntry),
            if_neg Bool.false_ne_true, if_neg Bool.false_ne_true]
      · rfl
    · rw [loop.get?_sellListed sellable present] at found
      split at found
      · rename_i here
        obtain ⟨same, small⟩ := entry_of_remains found
        refine ⟨small, x.item, ?_, same.trans sameEntry⟩
        rw [here]
        exact sellable.lies
      · exact loop.entries k left found

theorem stackOf_of_other (other : item.entry ≠ e) : stackOf e (some item) = 0 := if_neg other

theorem stackOf_resized (same : item.entry = e) (count : Nat) :
    stackOf e (some { item with count := count }) = count := if_pos same

theorem stackOf_of_entry (same : item.entry = e) : stackOf e (some item) = item.count := if_pos same

theorem Loop.turn (loop : Loop L.rules player w items) (sellable : Sellable L.rules w player x)
    (e : UInt32) :
    Shelf.amount (Place.heldBy player) e (AuctionWorld.sellListed L items x).shelf +
        stackOf e (items.shelf.get? x.place) =
      Shelf.amount (Place.heldBy player) e items.shelf +
        stackOf e ((AuctionWorld.sellListed L items x).shelf.get? x.place) ∧
    (∀ k, x.place ≠ k → (AuctionWorld.sellListed L items x).shelf.get? k = items.shelf.get? k) ∧
    (stackOf e ((AuctionWorld.sellListed L items x).shelf.get? x.place) + asked e x =
        stackOf e (items.shelf.get? x.place) ∨
      stackOf e (items.shelf.get? x.place) < asked e x ∧
        stackOf e (items.shelf.get? x.place) <
          stackOf e ((AuctionWorld.sellListed L items x).shelf.get? x.place) + asked e x) := by
  have positive := sellable.asked
  cases present : items.shelf.get? x.place with
  | none =>
    rw [sellListed_of_absent present, present]
    refine ⟨rfl, fun _ _ => rfl, ?_⟩
    rw [show stackOf e none = 0 from rfl, asked]
    split
    · right
      omega
    · left
      rfl
  | some item =>
    have there := loop.get?_sellListed sellable present
    rw [there x.place, if_pos rfl]
    refine ⟨loop.amount_sellListed sellable present e,
      fun k other => (there k).trans (if_neg (Ne.symm other)), ?_⟩
    obtain ⟨small, item₀, lies₀, sameEntry⟩ := loop.entries _ _ present
    obtain rfl := Option.some.inj (lies₀.symm.trans sellable.lies)
    have below := x.count.toNat_lt
    rw [asked]
    by_cases isEntry : x.item.entry = e
    · have entry := sameEntry.trans isEntry
      rw [if_pos isEntry, stackOf_of_entry entry, remains]
      split
      · rename_i whole
        left
        rw [whole]
        exact Nat.zero_add _
      · rw [stackOf_resized entry]
        omega
    · -- nothing is asked of the entry, and the stack has none of it
      have entry : item.entry ≠ e := fun same => isEntry (sameEntry.symm.trans same)
      left
      rw [if_neg isEntry, stackOf_of_other entry, remains]
      split
      · rfl
      · exact stackOf_of_other entry

/-- **The loop loses no more than is asked, and exactly that when no stack is asked for more than
it has.** -/
theorem Loop.foldl_sellListed {xs : List Listed} (loop : Loop L.rules player w items)
    (sellable : ∀ x ∈ xs, Sellable L.rules w player x) (e : UInt32) :
    Shelf.amount (Place.heldBy player) e items.shelf ≤
        Shelf.amount (Place.heldBy player) e (xs.foldl (AuctionWorld.sellListed L) items).shelf +
          claims xs e ∧
      (Shelf.amount (Place.heldBy player) e (xs.foldl (AuctionWorld.sellListed L) items).shelf +
          claims xs e = Shelf.amount (Place.heldBy player) e items.shelf ↔
        ∀ k, claimsAt xs k e ≤ stackOf e (items.shelf.get? k)) := by
  induction xs generalizing items with
  | nil => exact ⟨Nat.le_refl _, iff_of_true rfl fun k => Nat.zero_le _⟩
  | cons x rest ih =>
    have first := sellable x mem_cons_self
    obtain ⟨amount, others, turn⟩ := loop.turn first e
    obtain ⟨below, exact_iff⟩ := ih (loop.sellListed first)
      fun y member => sellable y (mem_cons_of_mem x member)
    have all : claims (x :: rest) e = asked e x + claims rest e := by
      rw [claims, map_cons, sum_cons, claims]
    have at_ : ∀ k, claimsAt (x :: rest) k e =
        (if x.place = k then asked e x else 0) + claimsAt rest k e := by
      intro k
      rw [claimsAt, map_cons, sum_cons, claimsAt]
    rw [foldl_cons, all]
    rcases turn with took | ⟨short, wrong⟩
    · refine ⟨by omega, ?_⟩
      have same : Shelf.amount (Place.heldBy player) e
              (rest.foldl (AuctionWorld.sellListed L) (AuctionWorld.sellListed L items x)).shelf +
            (asked e x + claims rest e) = Shelf.amount (Place.heldBy player) e items.shelf ↔
          Shelf.amount (Place.heldBy player) e
              (rest.foldl (AuctionWorld.sellListed L) (AuctionWorld.sellListed L items x)).shelf +
            claims rest e =
              Shelf.amount (Place.heldBy player) e (AuctionWorld.sellListed L items x).shelf := by
        omega
      rw [same, exact_iff]
      refine forall_congr' fun k => ?_
      rw [at_]
      by_cases here : x.place = k
      · rw [if_pos here, ← here]
        omega
      · rw [if_neg here, others k here, Nat.zero_add]
    · refine ⟨by omega, iff_of_false (by omega) fun enough => ?_⟩
      have here := enough x.place
      rw [at_, if_pos rfl] at here
      omega

theorem forall₂_of_mapM {α β : Type*} {f : α → Option β} {xs : List α} {ys : List β}
    (all : xs.mapM f = some ys) : List.Forall₂ (fun x y => f x = some y) xs ys := by
  induction xs generalizing ys with
  | nil =>
    obtain rfl := Option.some.inj all
    exact List.Forall₂.nil
  | cons x rest ih =>
    rw [mapM_cons] at all
    obtain ⟨y, first, all⟩ := Option.bind_eq_some_iff.mp all
    obtain ⟨ys, others, all⟩ := Option.bind_eq_some_iff.mp all
    obtain rfl := Option.some.inj all
    exact List.Forall₂.cons first (ih others)

theorem exists_left_of_forall₂ {α β : Type*} {S : α → β → Prop} {xs : List α} {ys : List β}
    (all : List.Forall₂ S xs ys) {y : β} (member : y ∈ ys) : ∃ x ∈ xs, S x y := by
  induction all with
  | nil => cases member
  | @cons x z _ _ first _ ih =>
    rcases List.mem_cons.mp member with rfl | later
    · exact ⟨x, mem_cons_self, first⟩
    · obtain ⟨x', member', related⟩ := ih later
      exact ⟨x', mem_cons_of_mem x member', related⟩

theorem exists_right_of_forall₂ {α β : Type*} {S : α → β → Prop} {xs : List α} {ys : List β}
    (all : List.Forall₂ S xs ys) {x : α} (member : x ∈ xs) : ∃ y ∈ ys, S x y :=
  exists_left_of_forall₂ (S := flip S) all.flip member

def listedCount (items : List (Nat × UInt32)) (guid : Nat) : Nat :=
  ((items.filter fun x => x.1 = guid).map fun x => x.2.toNat).sum

/-- A listed item is one of the packet, and passed the checks. -/
structure Lists (L : AuctionRealm) (w : AuctionWorld) (p : UInt32) (now : AuctionCircumstances)
    (x : Nat × UInt32) (y : Listed) : Prop where
  found : L.rules.getItemByGuid w.items (playerGuid p) x.1 = some (y.place, y.item)
  count : y.count = x.2
  absent : w.mAitems.find? y.item.guid = none
  canBeTraded : L.rules.canBeTraded w.items now.owner y.item false false = true
  enough : x.2.toNat ≤ y.item.count

variable {w : AuctionWorld} {p : UInt32} {now : AuctionCircumstances}

variable {listing : List Listed}

theorem lists_of_listItems {items : List (Nat × UInt32)}
    (listed : w.listItems L p now items = some listing) :
    List.Forall₂ (Lists L w p now) items listing := by
  refine (forall₂_of_mapM listed).imp fun x y passed => ?_
  split at passed
  · cases passed
  rename_i place item found
  split at passed
  · cases passed
  rename_i passes
  obtain rfl := Option.some.inj passed
  simp only [Bool.or_eq_true, decide_eq_true_eq, not_or, Bool.not_eq_true',
    Bool.not_eq_false, isSome_iff_ne_none, ne_eq, not_not, Nat.not_lt] at passes
  obtain ⟨⟨⟨⟨absent, can⟩, -⟩, -⟩, enough⟩ := passes
  exact ⟨found, rfl, absent, can, enough⟩

theorem claimsAt_eq_listedCount {items : List (Nat × UInt32)}
    (lists : List.Forall₂ (Lists L w p now) items listing) {guid : Nat} {place : Place}
    (found : L.rules.getItemByGuid w.items (playerGuid p) guid = some (place, item)) :
    claimsAt listing place item.entry = listedCount items guid := by
  induction lists with
  | nil => rfl
  | @cons x y xs ys first others ih =>
    rw [claimsAt, map_cons, sum_cons]
    rw [claimsAt] at ih
    rw [ih, listedCount, listedCount]
    by_cases same : x.1 = guid
    · have it := first.found
      rw [same, found] at it
      obtain ⟨here, isItem⟩ := Prod.mk.inj (Option.some.inj it)
      rw [filter_cons_of_pos (by simpa using same), map_cons, sum_cons,
        if_pos here.symm, asked, if_pos (by rw [isItem]), first.count]
    · have other : y.place ≠ place := by
        intro here
        obtain ⟨-, lies, isGuid⟩ := getItemByGuid_spec found
        obtain ⟨-, lies', isGuid'⟩ := getItemByGuid_spec first.found
        rw [here, lies] at lies'
        rw [← isGuid', ← Option.some.inj lies'] at same
        exact same isGuid
      rw [filter_cons_of_neg (by simpa using same), if_neg other, Nat.zero_add]

/-! ## Selling -/

/-- The checks pass, up to the deposit: a request that does not pass is refused and changes
nothing. -/
def Accepts (L : AuctionRealm) (w : AuctionWorld) (p : UInt32) (now : AuctionCircumstances)
    (packet : SellItemPacket) : Prop :=
  ∃ x rest, w.checkSellItem L p now packet = some (x :: rest) ∧
    hasEnoughMoney (w.money p) (now.auctionDeposit (packet.etime * 60) x.item
      (AuctionWorld.finalCount (x :: rest))).toUInt64 = true

/-- The items that a packet lists are of one entry, and of none it lists more than there is. -/
def Matching (L : AuctionRealm) (w : AuctionWorld) (p : UInt32) (packet : SellItemPacket) : Prop :=
  ∀ x ∈ packet.items, ∀ place item,
    L.rules.getItemByGuid w.items (playerGuid p) x.1 = some (place, item) →
    listedCount packet.items x.1 ≤ item.count ∧
    ∀ y ∈ packet.items, ∀ place' item',
      L.rules.getItemByGuid w.items (playerGuid p) y.1 = some (place', item') →
      item'.entry = item.entry

/-- What a player and the auction house have of an entry. -/
def stock (w : AuctionWorld) (p : UInt32) (e : UInt32) : Nat :=
  Shelf.amount (Place.heldBy (playerGuid p)) e w.items.shelf +
    KeyedList.sumBy (fun item => stackOf e (some item)) w.mAitems

/-- One auction is created, of an item with the entry and the count of what was taken, and no entry
has become more or less. -/
structure Sold (w : AuctionWorld) (p : UInt32) (w' : AuctionWorld) : Prop where
  one : ∃ auction item, w.auctions.find? auction.Id = none ∧
    w'.auctions = w.auctions.insert auction ∧
    w'.mAitems.find? auction.itemGUIDLow = some item ∧
    item.entry = auction.itemEntry ∧ item.count = auction.itemCount ∧
    (∀ e, Shelf.amount (Place.heldBy (playerGuid p)) e w'.items.shelf + stackOf e (some item) =
      Shelf.amount (Place.heldBy (playerGuid p)) e w.items.shelf)
  same : ∀ e, stock w' p e = stock w p e

/-- No object lies at two places, and the GUIDs and auction ids to come are not used yet. -/
structure WellKept (L : AuctionRealm) (w : AuctionWorld) : Prop where
  tidy : w.items.Tidy L.rules.maxStack
  old : ∀ item ∈ w.mAitems, item.guid < w.items.nextGuid
  fresh : ∀ auction ∈ w.auctions, auction.Id ≠ w.auctionId

structure Executed (L : AuctionRealm) (w : AuctionWorld) (p : UInt32) (x : Listed)
    (rest : List Listed) (w' : AuctionWorld) : Prop where
  sold : ∃ auction item, auction.Id = w.auctionId ∧ w'.auctions = w.auctions.insert auction ∧
    w.mAitems.find? item.guid = none ∧ w'.mAitems = w.mAitems.insert item ∧
    auction.itemGUIDLow = item.guid ∧ item.entry = auction.itemEntry ∧
    item.count = auction.itemCount ∧ item.entry = x.item.entry ∧
    item.count = AuctionWorld.finalCount (x :: rest)
  shelf : w'.items.shelf = ((x :: rest).foldl (AuctionWorld.sellListed L) w.items).shelf

variable {packet : SellItemPacket}

variable {rest : List Listed} {w' : AuctionWorld}

theorem executed_of_checks (kept : WellKept L w) {x : Listed}
    (absent : w.mAitems.find? x.item.guid = none)
    (fits : AuctionWorld.finalCount (x :: rest) ≤ L.rules.maxStack x.item.entry)
    (checked : w.checkSellItem L p now packet = some (x :: rest))
    (done : w.handleAuctionSellItem L p now packet = some w') : Executed L w p x rest w' := by
  unfold AuctionWorld.handleAuctionSellItem at done
  rw [checked] at done
  dsimp only at done
  split at done
  · cases done
  rw [← Option.some.inj done]
  split
  · rename_i whole
    obtain ⟨rfl, whole⟩ := whole
    refine ⟨⟨_, x.item, rfl, rfl, absent, rfl, rfl, rfl, rfl, rfl, ?_⟩, rfl⟩
    rw [whole, AuctionWorld.finalCount, map_cons, sum_cons]
    rfl
  · refine ⟨⟨_, _, rfl, rfl, ?_, rfl, rfl, rfl, rfl, rfl, Nat.min_eq_left fits⟩, rfl⟩
    refine KeyedList.find?_eq_none_iff.mpr fun item member same => ?_
    exact Nat.lt_irrefl _ (same ▸ kept.old item member)

/-- What the checks leave: the items of the packet, each of which has room for them all. -/
structure Checked (L : AuctionRealm) (w : AuctionWorld) (p : UInt32) (now : AuctionCircumstances)
    (packet : SellItemPacket) (listing : List Listed) : Prop where
  lists : List.Forall₂ (Lists L w p now) packet.items listing
  positive : ∀ x ∈ packet.items, 1 ≤ x.2.toNat
  fits : ∀ y ∈ listing, AuctionWorld.finalCount listing ≤ L.rules.maxStack y.item.entry

theorem checked_of_checkSellItem (passed : w.checkSellItem L p now packet = some listing) :
    Checked L w p now packet listing := by
  unfold AuctionWorld.checkSellItem at passed
  dsimp only at passed
  split at passed
  · cases passed
  split at passed
  · cases passed
  split at passed
  · cases passed
  split at passed
  · cases passed
  rename_i counts
  split at passed
  · cases passed
  split at passed
  · cases passed
  split at passed
  · cases passed
  rename_i found listed
  split at passed
  · cases passed
  split at passed
  · cases passed
  rename_i fits
  obtain rfl := Option.some.inj passed
  refine ⟨lists_of_listItems listed, fun x member => ?_, fun y member => ?_⟩
  · rw [List.any_eq_true] at counts
    refine Nat.one_le_iff_ne_zero.mpr fun zero => counts ⟨x, member, ?_⟩
    have isZero : x.2 = 0 := UInt32.toNat_inj.mp zero
    rw [isZero]
    simp
  · rw [List.any_eq_true] at fits
    refine Nat.not_lt.mp fun less => fits ⟨y, member, decide_eq_true less⟩

theorem Checked.sellable (checked : Checked L w p now packet listing)
    (tidy : w.items.Tidy L.rules.maxStack) {y : Listed} (member : y ∈ listing) :
    Sellable L.rules w.items (playerGuid p) y := by
  obtain ⟨x, listed, it⟩ := exists_left_of_forall₂ checked.lists member
  obtain ⟨reaches, lies, -⟩ := getItemByGuid_spec it.found
  obtain ⟨bag, slot, place, reads⟩ := reaches.reads
  refine ⟨⟨bag, slot, place, reads.trans lies, ?_⟩, lies, ?_⟩
  · rw [place] at lies
    exact not_bag_of_canBeTraded tidy lies it.canBeTraded
  · rw [it.count]
    exact checked.positive x listed

theorem WellKept.loop (kept : WellKept L w) (player : UInt64) :
    Loop L.rules player w.items w.items := by
  refine ⟨fun _ => rfl, fun k item found => ⟨?_, item, found, rfl⟩⟩
  have below := (kept.tidy.sized k item found).2
  have small := (L.rules.getItemTemplate item.entry).getMaxStackSize_lt
  rw [ItemRules.maxStack] at below
  omega

theorem Checked.matching_iff {x : Listed} (checked : Checked L w p now packet (x :: rest)) :
    Matching L w p packet ↔ claims (x :: rest) x.item.entry = AuctionWorld.finalCount (x :: rest) ∧
      ∀ e k, claimsAt (x :: rest) k e ≤ stackOf e (w.items.shelf.get? k) := by
  have positive : ∀ y ∈ x :: rest, 1 ≤ y.count.toNat := by
    intro y member
    obtain ⟨z, listed, it⟩ := exists_left_of_forall₂ checked.lists member
    rw [it.count]
    exact checked.positive z listed
  rw [(claims_eq_finalCount_iff positive x.item.entry).2]
  refine ⟨fun matching => ⟨fun y member => ?_, fun e k => ?_⟩,
    fun ⟨sameEntry, enough⟩ z listed place item found => ⟨?_, fun z' listed' place' item' found' => ?_⟩⟩
  · obtain ⟨z, listed, it⟩ := exists_left_of_forall₂ checked.lists mem_cons_self
    obtain ⟨z', listed', it'⟩ := exists_left_of_forall₂ checked.lists member
    exact (matching z listed x.place x.item it.found).2 z' listed' y.place y.item it'.found
  · by_cases none : ∃ y ∈ x :: rest, y.place = k ∧ y.item.entry = e
    · obtain ⟨y, member, rfl, rfl⟩ := none
      obtain ⟨z, listed, it⟩ := exists_left_of_forall₂ checked.lists member
      rw [claimsAt_eq_listedCount checked.lists it.found, (getItemByGuid_spec it.found).2.1,
        stackOf_of_entry rfl]
      exact (matching z listed y.place y.item it.found).1
    · refine Nat.le_trans (Nat.le_of_eq ?_) (Nat.zero_le _)
      refine List.sum_eq_zero_iff_forall_eq_nat.mpr fun n member => ?_
      obtain ⟨y, isIn, rfl⟩ := List.mem_map.mp member
      split
      · rename_i here
        exact if_neg fun same => none ⟨y, isIn, here, same⟩
      · rfl
  · have below := enough item.entry place
    rw [claimsAt_eq_listedCount checked.lists found, (getItemByGuid_spec found).2.1,
      stackOf_of_entry rfl] at below
    exact below
  · have entryOf : ∀ z ∈ packet.items, ∀ place item,
        L.rules.getItemByGuid w.items (playerGuid p) z.1 = some (place, item) →
        item.entry = x.item.entry := by
      intro z listed place item found
      obtain ⟨y, member, it⟩ := exists_right_of_forall₂ checked.lists listed
      obtain ⟨-, rfl⟩ := Prod.mk.inj (Option.some.inj (found.symm.trans it.found))
      exact sameEntry y member
    rw [entryOf z' listed' place' item' found', entryOf z listed place item found]

theorem Executed.amounts {x : Listed}
    (executed : Executed L w p x rest w') (checked : Checked L w p now packet (x :: rest))
    (kept : WellKept L w) (e : UInt32) :
    stock w' p e + Shelf.amount (Place.heldBy (playerGuid p)) e w.items.shelf =
        stock w p e + (Shelf.amount (Place.heldBy (playerGuid p)) e w'.items.shelf +
          if x.item.entry = e then AuctionWorld.finalCount (x :: rest) else 0) ∧
      Shelf.amount (Place.heldBy (playerGuid p)) e w.items.shelf ≤
        Shelf.amount (Place.heldBy (playerGuid p)) e w'.items.shelf + claims (x :: rest) e ∧
      (Shelf.amount (Place.heldBy (playerGuid p)) e w'.items.shelf + claims (x :: rest) e =
          Shelf.amount (Place.heldBy (playerGuid p)) e w.items.shelf ↔
        ∀ k, claimsAt (x :: rest) k e ≤ stackOf e (w.items.shelf.get? k)) := by
  obtain ⟨auction, item, -, -, absent, mAitems, -, -, -, entry, count⟩ := executed.sold
  have inserted := KeyedList.sumBy_insert (fun item => stackOf e (some item)) w.mAitems item
  rw [absent, elim_none, ← mAitems] at inserted
  have loop := (kept.loop (playerGuid p)).foldl_sellListed
    (fun y member => checked.sellable kept.tidy member) e
  rw [← executed.shelf] at loop
  refine ⟨?_, loop⟩
  have sold : stackOf e (some item) =
      if x.item.entry = e then AuctionWorld.finalCount (x :: rest) else 0 := by
    rw [stackOf, elim_some, entry, count]
  rw [stock, stock, ← sold]
  omega

theorem Executed.sold_iff {x : Listed}
    (executed : Executed L w p x rest w') (checked : Checked L w p now packet (x :: rest))
    (kept : WellKept L w) : Sold w p w' ↔ Matching L w p packet := by
  have positive : ∀ y ∈ x :: rest, 1 ≤ y.count.toNat :=
    fun y member => (checked.sellable kept.tidy member).asked
  rw [checked.matching_iff]
  refine ⟨fun sold => ?_, fun ⟨all, enough⟩ => ?_⟩
  · -- the auction gets all that is asked, so all of it must be of its entry
    obtain ⟨stocks, below, -⟩ := executed.amounts checked kept x.item.entry
    rw [if_pos rfl, sold.same] at stocks
    have most := (claims_eq_finalCount_iff positive x.item.entry).1
    have all : claims (x :: rest) x.item.entry = AuctionWorld.finalCount (x :: rest) := by omega
    refine ⟨all, fun e => (executed.amounts checked kept e).2.2.mp ?_⟩
    obtain ⟨stocks, below, -⟩ := executed.amounts checked kept e
    rw [sold.same] at stocks
    split at stocks
    · rename_i same
      rw [← same] at stocks ⊢
      omega
    · rename_i other
      have most := claims_eq_zero positive all other
      omega
  · have exactly_ : ∀ e, Shelf.amount (Place.heldBy (playerGuid p)) e w'.items.shelf +
        (if x.item.entry = e then AuctionWorld.finalCount (x :: rest) else 0) =
          Shelf.amount (Place.heldBy (playerGuid p)) e w.items.shelf := by
      intro e
      have taken := (executed.amounts checked kept e).2.2.mpr (enough e)
      split
      · rename_i same
        rw [← all, same]
        exact taken
      · rename_i other
        rw [claims_eq_zero positive all other] at taken
        exact taken
    obtain ⟨auction, item, id, auctions, absent, mAitems, low, entry, count, entry₀, count₀⟩ :=
      executed.sold
    refine ⟨⟨auction, item, ?_, auctions, ?_, entry, count, fun e => ?_⟩, fun e => ?_⟩
    · refine KeyedList.find?_eq_none_iff.mpr fun other member => ?_
      rw [id]
      exact kept.fresh other member
    · rw [mAitems, KeyedList.find?_insert, if_pos low]
    · rw [stackOf, elim_some, entry₀, count₀]
      exact exactly_ e
    · have stocks := (executed.amounts checked kept e).1
      have taken := exactly_ e
      omega

/-- **A request conserves the items exactly when it is refused or the listed items match.** -/
theorem sell_lawful_iff (L : AuctionRealm) (w : AuctionWorld) (p : UInt32)
    (now : AuctionCircumstances) (packet : SellItemPacket) (kept : WellKept L w) :
    (∀ w', w.handleAuctionSellItem L p now packet = some w' → Sold w p w') ↔
      (Accepts L w p now packet → Matching L w p packet) := by
  have specified : ∀ {x : Listed} {rest : List Listed} {w' : AuctionWorld},
      w.checkSellItem L p now packet = some (x :: rest) →
      w.handleAuctionSellItem L p now packet = some w' →
      (Sold w p w' ↔ Matching L w p packet) := by
    intro x rest w' passed done
    have checked := checked_of_checkSellItem passed
    obtain ⟨z, -, it⟩ := exists_left_of_forall₂ checked.lists mem_cons_self
    exact (executed_of_checks kept it.absent (checked.fits x mem_cons_self) passed
      done).sold_iff checked kept
  refine ⟨fun lawful ⟨x, rest, passed, enough⟩ => ?_, fun matching w' done => ?_⟩
  · cases done : w.handleAuctionSellItem L p now packet with
    | none =>
      unfold AuctionWorld.handleAuctionSellItem at done
      rw [passed] at done
      dsimp only at done
      rw [enough, if_neg (by decide)] at done
      cases done
    | some w' => exact (specified passed done).mp (lawful w' done)
  · have done' := done
    unfold AuctionWorld.handleAuctionSellItem at done'
    split at done'
    · cases done'
    · cases done'
    · rename_i x rest passed
      dsimp only at done'
      split at done'
      · cases done'
      · rename_i enough
        refine (specified passed done).mpr (matching ⟨x, rest, passed, ?_⟩)
        simpa using enough

def stackIn (guid : Nat) (entry : UInt32) (count : Nat) : Item where
  guid := guid
  entry := entry
  count := count
  attrs :=
    { owner := 7, soulBound := false, bopTradeable := false, allowedGUIDs := []
      lootGenerated := false, boundByEnchant := false, gems := [], inTrade := false }

def fairHouse : AuctionRealm where
  rules := .tradeGoods 0
  players := {7, 8}
  zero_not_mem := by decide
  account := fun _ => 1
  account_ne_zero := fun _ _ => by decide
  auctionCut := fun bid => bid / 20
  fivePercent := fun bid => bid / 20

def midday : AuctionCircumstances where
  time := 0
  online := fun _ => true
  auctioneer := true
  owner := ⟨fun _ _ _ => true, fun _ => 0⟩
  perishable := fun _ => false
  auctionTime := UInt32.toNat
  auctionDeposit := fun _ _ _ => 10

/-- Ten and five of the one, and three of the other. -/
def twoGoods : AuctionWorld where
  items :=
    { shelf :=
        { toList := [⟨.inventory 7 255 23, stackIn 10 1 10⟩, ⟨.inventory 7 255 24, stackIn 11 1 5⟩,
            ⟨.inventory 7 255 25, stackIn 12 2 3⟩]
          nodup := by decide }
      nextGuid := 20 }
  money := fun _ => 100
  auctions := .empty
  mAitems := .empty
  auctionId := 1
  mails := []

def listingOf (items : List (Nat × UInt32)) : SellItemPacket := ⟨0, 50, 720, items⟩

theorem wellKept_twoGoods : WellKept fairHouse twoGoods := by
  have lies : ∀ k t, twoGoods.items.shelf.get? k = some t →
      (⟨k, t⟩ : Placed Place UInt32 ItemAttrs) ∈ twoGoods.items.shelf.toList := fun k t found =>
    Shelf.get?_eq_some_iff.mp found
  refine ⟨⟨fun k j t u foundT foundU same => ?_, fun k t found => ?_, fun k t found => ?_⟩,
    fun item member => ?_, fun auction member => ?_⟩
  · have apart : ∀ x ∈ twoGoods.items.shelf.toList, ∀ y ∈ twoGoods.items.shelf.toList,
        x.stack.guid = y.stack.guid → x.place = y.place := by decide
    exact apart _ (lies k t foundT) _ (lies j u foundU) same
  · have sized : ∀ x ∈ twoGoods.items.shelf.toList, 1 ≤ x.stack.count ∧ x.stack.count ≤ 20 := by
      decide
    exact sized _ (lies k t found)
  · have old : ∀ x ∈ twoGoods.items.shelf.toList, x.stack.guid < 20 := by decide
    exact old _ (lies k t found)
  · cases member
  · cases member

/-- A whole stack and a part of another of the same. -/
theorem sell_lawful_of_one_entry : WellKept fairHouse twoGoods ∧
      ∀ w', twoGoods.handleAuctionSellItem fairHouse 7 midday (listingOf [(10, 10), (11, 3)]) =
        some w' → Sold twoGoods 7 w' := by
  refine ⟨wellKept_twoGoods,
    (sell_lawful_iff fairHouse twoGoods 7 midday _ wellKept_twoGoods).mpr fun _ => ?_⟩
  have first : fairHouse.rules.getItemByGuid twoGoods.items (playerGuid 7) 10 =
      some (.inventory 7 255 23, stackIn 10 1 10) := by decide
  have second : fairHouse.rules.getItemByGuid twoGoods.items (playerGuid 7) 11 =
      some (.inventory 7 255 24, stackIn 11 1 5) := by decide
  have entries : ∀ y ∈ (listingOf [(10, 10), (11, 3)]).items, ∀ place' item',
      fairHouse.rules.getItemByGuid twoGoods.items (playerGuid 7) y.1 = some (place', item') →
      item'.entry = 1 := by
    refine List.forall_mem_cons.mpr ⟨fun place' item' found => ?_,
      List.forall_mem_singleton.mpr fun place' item' found => ?_⟩
    · obtain ⟨-, rfl⟩ := Prod.mk.inj (Option.some.inj (first.symm.trans found))
      rfl
    · obtain ⟨-, rfl⟩ := Prod.mk.inj (Option.some.inj (second.symm.trans found))
      rfl
  refine List.forall_mem_cons.mpr ⟨fun place item found => ?_,
    List.forall_mem_singleton.mpr fun place item found => ?_⟩
  · obtain ⟨-, rfl⟩ := Prod.mk.inj (Option.some.inj (first.symm.trans found))
    exact ⟨by decide, entries⟩
  · obtain ⟨-, rfl⟩ := Prod.mk.inj (Option.some.inj (second.symm.trans found))
    exact ⟨by decide, entries⟩

/-- Three of the other become three of the one. -/
theorem not_sold_of_two_entries :
    ¬ ∀ w', twoGoods.handleAuctionSellItem fairHouse 7 midday (listingOf [(10, 2), (12, 3)]) =
      some w' → Sold twoGoods 7 w' := by
  intro lawful
  have changed : (twoGoods.handleAuctionSellItem fairHouse 7 midday
      (listingOf [(10, 2), (12, 3)])).any fun w' => stock w' 7 2 ≠ stock twoGoods 7 2 := by decide
  cases done : twoGoods.handleAuctionSellItem fairHouse 7 midday (listingOf [(10, 2), (12, 3)]) with
  | none =>
    rw [done] at changed
    cases changed
  | some w' =>
    rw [done, any_some, decide_eq_true_eq] at changed
    exact changed ((lawful w' done).same 2)

end Auction

end Sky548
