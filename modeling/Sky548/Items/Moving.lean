import Sky548.Rearranging
import Sky548.Items.Equipment

/-!
# Moving items in an inventory

`SwapItem` and `SplitItem`, and the packets that lead to them. What is in a bag is at places named by
the slot of the bag; where a bag goes from one bag slot to another, these places are renamed.
-/

namespace Sky548

def bagsTrade (player : UInt64) (a b : UInt8) : Place → Place
  | .bank tabId slotId => .bank tabId slotId
  | .inventory owner bag slot =>
    if owner = player then .inventory owner (Equiv.swap a b bag) slot else .inventory owner bag slot

theorem bagsTrade_involutive (player : UInt64) (a b : UInt8) :
    Function.Involutive (bagsTrade player a b) := by
  intro k
  cases k with
  | bank tabId slotId => rfl
  | inventory owner bag slot =>
    by_cases own : owner = player
    · rw [bagsTrade, if_pos own, bagsTrade, if_pos own, Equiv.swap_apply_self]
    · rw [bagsTrade, if_neg own, bagsTrade, if_neg own]

def bagsTradePerm (player : UInt64) (a b : UInt8) : Equiv.Perm Place :=
  (bagsTrade_involutive player a b).toPerm

/-- The packets that move items. -/
inductive ItemRequest
  | splitItem (src dst : ItemPos) (count : UInt32)
  | swapInvItem (srcSlot dstSlot : UInt8)
  | autoEquipItemSlot (itemguid : Nat) (dstslot : UInt8)
  | swapItem (src dst : ItemPos)

namespace ItemRules

variable (R : ItemRules) (now : Wearer) (player : UInt64)

def putAt (w : ItemWorld) (pos : ItemPos) (dest : ItemPosCountVec) (item : Item) : ItemWorld :=
  if pos.isInventory || pos.isBank then R.storeItem w dest item
  else if pos.isEquipment then R.equipItem w dest item
  else w

def bagsGoAlong (w : ItemWorld) (src dst : ItemPos) : ItemWorld :=
  if src.isBagPos && dst.isBagPos then w.rename (bagsTradePerm player src.slot dst.slot) else w

/-- Whether an item can go to a position, and by which plan. -/
def canPutAt (s : Belongings) (pos : ItemPos) (item : Item) (swap : Bool) :
    InventoryResult × ItemPosCountVec × Belongings :=
  if pos.isInventory then
    let (msg, dest) := R.canStoreItem s.items player pos.bag pos.slot [] item swap
    (msg, dest, s)
  else if pos.isBank then
    let (msg, dest) := R.canBankItem s.items player now pos.bag pos.slot [] item swap
    (msg, dest, s)
  else if pos.isEquipment then
    let (msg, eslot, s) := R.canEquipItem player now s pos.slot item swap
    (msg, [(.inventory player inventorySlotBag0 eslot, item.count)], s)
  else (.ok, [], s)

/-- Whether an item can take the place of another one, which must come off there. -/
def canSwapTo (s : Belongings) (pos : ItemPos) (item : Item) :
    InventoryResult × ItemPosCountVec × Belongings :=
  match R.canPutAt now player s pos item true with
  | (.ok, dest, s) =>
    let worn : Bool := !pos.isInventory && !pos.isBank && pos.isEquipment
    match dest with
    | [(.inventory _ bag slot, _)] =>
      (if worn then R.canUnequipItem s.items player now ⟨bag, slot⟩ true else .ok, dest, s)
    | _ => (.ok, dest, s)
  | refused => refused

def refusesSwap (w : ItemWorld) (src dst : ItemPos) (pSrcItem : Item) (pDstItem : Option Item) :
    Option InventoryResult :=
  let emptyBag (item : Item) : Bool := R.isBag item && !R.isNotEmptyBag w item
  let unequipSrc := R.canUnequipItem w player now src
    (!src.isBagPos || dst.isBagPos || pDstItem.any emptyBag)
  let unequipDst := R.canUnequipItem w player now dst
    (!dst.isBagPos || src.isBagPos || emptyBag pSrcItem)
  if !now.alive then some .playerDead
  else if pSrcItem.attrs.lootGenerated then some .clientLockedOut
  else if (src.isEquipment || src.isBagPos) && unequipSrc ≠ .ok then some unequipSrc
  else if src.isBagPos && src.slot = dst.bag then some .bagInBag
  else if dst.isBagPos && src.bag = dst.slot then some .cantSwap
  else if pDstItem.any fun item => item.attrs.lootGenerated then some .clientLockedOut
  else if pDstItem.isSome && (dst.isEquipment || dst.isBagPos) && unequipDst ≠ .ok then
    some unequipDst
  else none

/-- The off-hand item may have to go once something else was put on. -/
def afterwards (s : Belongings) (dst : ItemPos) : Belongings :=
  if dst.isEquipment then R.autoUnequipOffhandIfNeed player now s false else s

def moveToEmpty (s : Belongings) (src dst : ItemPos) (pSrcItem : Item) :
    Option InventoryResult × Belongings :=
  if dst.isInventory || dst.isBank || dst.isEquipment then
    match R.canPutAt now player s dst pSrcItem false with
    | (.ok, dest, s) =>
      let items := R.putAt (R.removeItem s.items player src) dst dest pSrcItem
      (none, R.afterwards now player
        { s with items := bagsGoAlong player items src dst } dst)
    | (msg, _, s) => (some msg, s)
  else (none, s)

def setCount (w : ItemWorld) (item : Item) (count : Nat) : ItemWorld :=
  match placeOf w item.guid with
  | some k => w.put k { item with count := count }
  | none => w

/-- `SwapItem` onto a stack to join or to fill: what comes of it, or how things are if it cannot
be done. -/
def joinOrFill (s : Belongings) (src dst : ItemPos) (pSrcItem pDstItem : Item) :
    Option Belongings × Belongings :=
  if R.isBag pSrcItem || R.isBag pDstItem then (none, s)
  else if dst.isInventory || dst.isBank || dst.isEquipment then
    match R.canPutAt now player s dst pSrcItem false with
    | (.ok, dest, s) =>
      if pSrcItem.count + pDstItem.count ≤ R.maxStack pSrcItem.entry then
        let items := R.putAt (R.removeItem s.items player src) dst dest pSrcItem
        (some (R.afterwards now player { s with items := items } dst), s)
      else
        let items := setCount s.items pSrcItem
          (pSrcItem.count + pDstItem.count - R.maxStack pSrcItem.entry)
        (some { s with items := setCount items pDstItem (R.maxStack pSrcItem.entry) }, s)
    | (_, _, s) => (none, s)
  else (some s, s)

/-- What is in the bag in a slot, from the first place of the bag to its last. -/
def bagContents (w : ItemWorld) (bag : UInt8) : List (Place × Item) :=
  (R.bagPlaces w player bag).filterMap fun k => (w.shelf.get? k).map fun item => (k, item)

/-- An empty bag that lies loose takes over what is in a bag, without gaps: once the bags have
changed places, it is in the bag slot. -/
def takeOver (w : ItemWorld) (bag : UInt8) (contents : List (Place × Item)) : ItemWorld :=
  ((contents.zipIdx).foldl (fun w x =>
    (w.take x.1.1).put (.inventory player bag (UInt8.ofNat x.2)) x.1.2) w)

/-- The swap of two bags one of which is empty and lies loose -/
def exchangeContents (w : ItemWorld) (src dst : ItemPos) (pSrcItem pDstItem : Item) :
    Except InventoryResult ItemWorld :=
  let emptyInto (emptyBag : Item) (full : ItemPos) : Except InventoryResult ItemWorld :=
    let contents := if full.isBagPos then R.bagContents player w full.slot else []
    let emptyProto := R.getItemTemplate emptyBag.entry
    if contents.any fun x => !itemCanGoIntoBag (R.getItemTemplate x.2.entry) emptyProto then
      .error .bagInBag
    else if contents.length > R.getBagSize emptyBag then .error .cantSwap
    else .ok (takeOver player w full.slot contents)
  if !R.isBag pSrcItem || !R.isBag pDstItem then .ok w
  else if !R.isNotEmptyBag w pSrcItem && !src.isBagPos then emptyInto pSrcItem dst
  else if !R.isNotEmptyBag w pDstItem && !dst.isBagPos then emptyInto pDstItem src
  else .ok w

def realSwap (s : Belongings) (src dst : ItemPos) (pSrcItem pDstItem : Item) :
    Option InventoryResult × Belongings :=
  match R.canSwapTo now player s dst pSrcItem with
  | (.ok, sDest, s) =>
    match R.canSwapTo now player s src pDstItem with
    | (.ok, sDest2, s) =>
      match R.exchangeContents player s.items src dst pSrcItem pDstItem with
      | .error msg => (some msg, s)
      | .ok items =>
        let items := R.removeItem (R.removeItem items player dst) player src
        let items := R.putAt (R.putAt items dst sDest pSrcItem) src sDest2 pDstItem
        (none, R.autoUnequipOffhandIfNeed player now
          { s with items := bagsGoAlong player items src dst } false)
    | (msg, _, s) => (some msg, s)
  | (msg, _, s) => (some msg, s)

/-- **`SwapItem`**: the error that is reported, if any, and how things are then. -/
def swapItem (s : Belongings) (src dst : ItemPos) : Option InventoryResult × Belongings :=
  match R.itemAtPos s.items player src with
  | none => (none, s)
  | some pSrcItem =>
    let pDstItem := R.itemAtPos s.items player dst
    match R.refusesSwap now player s.items src dst pSrcItem pDstItem with
    | some msg => (some msg, s)
    | none =>
      match pDstItem with
      | none => R.moveToEmpty now player s src dst pSrcItem
      | some pDstItem =>
        match R.joinOrFill now player s src dst pSrcItem pDstItem with
        | (some s, _) => (none, s)
        | (none, s) => R.realSwap now player s src dst pSrcItem pDstItem

def splitItem (s : Belongings) (src dst : ItemPos) (count : Nat) :
    Option InventoryResult × Belongings :=
  match R.itemAtPos s.items player src with
  | none => (some .itemNotFound, s)
  | some pSrcItem =>
    if pSrcItem.attrs.lootGenerated then (some .splitFailed, s)
    else if pSrcItem.count = count then (some .splitFailed, s)
    else if pSrcItem.count < count then (some .tooFewToSplit, s)
    else if now.offers pSrcItem.guid then (none, s)
    else
      match R.handling.clone s.items.nextGuid (src.place player) pSrcItem count with
      | none => (some .itemNotFound, s)
      | some pNewItem =>
        let made := { s.items with nextGuid := s.items.nextGuid + 1 }
        if dst.isInventory || dst.isBank || dst.isEquipment then
          let fewer := setCount made pSrcItem (pSrcItem.count - count)
          match R.canPutAt now player { s with items := fewer } dst pNewItem false with
          | (.ok, dest, s) =>
            (none, R.afterwards now player
              { s with items := R.putAt s.items dst dest pNewItem } dst)
          | (msg, _, s) =>
            (some msg, { s with items := setCount s.items pSrcItem pSrcItem.count })
        else (none, { s with items := made })

/-- What `SwapItem` is called for, once the positions have been checked. -/
def handleSwap (s : Belongings) (src dst : ItemPos) : Option InventoryResult × Belongings :=
  if src = dst then (none, s)
  else if !R.isValidPos s.items player src true then (some .itemNotFound, s)
  else if !R.isValidPos s.items player dst true then (some .wrongSlot, s)
  else R.swapItem now player s src dst

/-- **The packets that move items.** -/
def handle (s : Belongings) : ItemRequest → Option InventoryResult × Belongings
  | .splitItem src dst count =>
    if src = dst then (none, s)
    else if count = 0 then (none, s)
    else if !R.isValidPos s.items player src true then (some .itemNotFound, s)
    else if !R.isValidPos s.items player dst false then (some .wrongSlot, s)
    else R.splitItem now player s src dst count.toNat
  | .swapInvItem srcSlot dstSlot =>
    R.handleSwap now player s ⟨inventorySlotBag0, srcSlot⟩ ⟨inventorySlotBag0, dstSlot⟩
  | .autoEquipItemSlot itemguid dstslot =>
    let dst : ItemPos := ⟨inventorySlotBag0, dstslot⟩
    if !dst.isEquipment then (none, s)
    else
      match R.getItemByGuid s.items player itemguid with
      | some (.inventory _ bag slot, _) =>
        if (⟨bag, slot⟩ : ItemPos) = dst then (none, s)
        else R.swapItem now player s ⟨bag, slot⟩ dst
      | _ => (none, s)
  | .swapItem src dst => R.handleSwap now player s src dst

end ItemRules

end Sky548
