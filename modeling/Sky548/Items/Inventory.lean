import Sky548.Stacks

/-!
# Items and inventories

`Item` and the part of `Player` that finds, plans for and stores items. Every item that lies
somewhere, in a guild bank or with a player, is on one shelf, by its place; the item templates and
the few facts about players that the code asks for are an `ItemRules`.

`StoreItem` is the storing of the library with the player's way of binding and owning.
-/

namespace Sky548

def nullBag : UInt8 := 0
def nullSlot : UInt8 := 255
def inventorySlotBag0 : UInt8 := 255
def equipmentSlotStart : Nat := 0
def equipmentSlotEnd : Nat := 19
def inventorySlotBagStart : Nat := 19
def inventorySlotBagEnd : Nat := 23
def inventorySlotItemStart : Nat := 23
def inventorySlotItemEnd : Nat := 39
def bankSlotItemStart : Nat := 39
def bankSlotItemEnd : Nat := 67
def bankSlotBagStart : Nat := 67
def bankSlotBagEnd : Nat := 74
def buybackSlotStart : Nat := 74
def buybackSlotEnd : Nat := 86
def playerSlotEnd : Nat := 86
def maxBagSize : Nat := 36

/-- The results that the functions below give. -/
inductive InventoryResult
  | ok
  | bagInBag
  | wrongBagType
  | itemMaxCount
  | cantStack
  | notEquippable
  | dropBoundItem
  | destroyNonemptyBag
  | notOwner
  | invFull
  | bankFull
  | lootGone
  | itemMaxLimitCategoryCountExceeded
  | itemNotFound
  | cantSwap
  | wrongSlot
  | noBankSlot
  | playerDead
  | clientLockedOut
  | genericStunned
  | notInCombat
  | notDuringArenaMatch
  | noSlotAvailable
  | onlyOneAmmo
  | onlyOneQuiver
  | twoHandSkillNotFound
  | twoHandedEquipped
  | splitFailed
  | tooFewToSplit
  deriving DecidableEq

def itemClassContainer : UInt32 := 1
def itemClassQuiver : UInt32 := 11
def itemSubclassContainer : UInt32 := 0

def invtypeBag : UInt32 := 18

inductive ItemBondingType
  | noBind
  | whenPickedUp
  | whenEquiped
  | whenUse
  | questItem
  | questItem1
  deriving DecidableEq

/-- The part of `ItemTemplate` that storing and planning read. -/
structure ItemProto where
  class' : UInt32
  subClass : UInt32
  inventoryType : UInt32
  bindToAccount : Bool
  maxCount : Int
  stackable : Int
  containerSlots : Nat
  bonding : ItemBondingType
  bagFamily : UInt32
  gemProperties : UInt32
  socketColor : UInt32
  itemLimitCategory : UInt32
  /-- an `int32` -/
  stackable_lt : stackable < 2 ^ 31
  /-- `Bag::Create` makes no larger bag. -/
  slots_le : containerSlots ≤ maxBagSize

namespace ItemProto

def getMaxStackSize (proto : ItemProto) : Nat :=
  if proto.stackable = 2147483647 ∨ proto.stackable ≤ 0 then 0x7FFFFFFF - 1
  else proto.stackable.toNat

theorem one_le_getMaxStackSize (proto : ItemProto) : 1 ≤ proto.getMaxStackSize := by
  rw [getMaxStackSize]
  split
  · decide
  · omega

theorem getMaxStackSize_lt (proto : ItemProto) : proto.getMaxStackSize < 2 ^ 31 := by
  have small := proto.stackable_lt
  rw [getMaxStackSize]
  split
  · decide
  · omega

/-- The family of items that a bag of a class and subclass is for: `none` for every item,
an empty mask for no item. -/
def bagFamilyOf (pBagProto : ItemProto) : Option UInt32 :=
  if pBagProto.class' = itemClassContainer then
    match pBagProto.subClass.toNat with
    | 0 => none
    | 1 => some 0x00000004
    | 2 => some 0x00000020
    | 3 => some 0x00000040
    | 4 => some 0x00000080
    | 5 => some 0x00000200
    | 6 => some 0x00000400
    | 7 => some 0x00000008
    | 8 => some 0x00000010
    | 9 => some 0x00008000
    | 10 => some 0x00010000
    | _ => some 0
  else if pBagProto.class' = itemClassQuiver then
    match pBagProto.subClass.toNat with
    | 2 => some 0x00000001
    | 3 => some 0x00000002
    | _ => some 0
  else some 0

end ItemProto

def itemCanGoIntoBag (pProto pBagProto : ItemProto) : Bool :=
  match pBagProto.bagFamilyOf with
  | none => true
  | some mask => pProto.bagFamily &&& mask ≠ 0

/-- An entry of `ItemLimitCategory.dbc`; `have'` is `ITEM_LIMIT_CATEGORY_MODE_HAVE`. -/
structure ItemLimitCategoryEntry where
  maxCount : UInt32
  have' : Bool

/-- What an item carries beside its GUID, its entry and its count. -/
structure ItemAttrs where
  owner : UInt64
  soulBound : Bool
  bopTradeable : Bool
  allowedGUIDs : List UInt64
  lootGenerated : Bool
  boundByEnchant : Bool
  gems : List UInt32
  inTrade : Bool
  deriving DecidableEq

abbrev Item := Stack UInt32 ItemAttrs

/-- Where an item lies: in a slot of a guild bank tab, or with a player. -/
inductive Place
  | bank (tabId slotId : UInt8)
  | inventory (player : UInt64) (bag slot : UInt8)
  deriving DecidableEq

/-- The items that lie somewhere, and the next item GUID. -/
abbrev ItemWorld := Store Place UInt32 ItemAttrs

abbrev ItemPosCountVec := List (Place × Nat)

/-- The item templates and the limit categories. -/
structure ItemRules where
  getItemTemplate : UInt32 → ItemProto
  limitCategory : UInt32 → Option ItemLimitCategoryEntry
  /-- Every item there is has one. -/
  hasTemplate : UInt32 → Bool := fun _ => true

/-- What is asked at some moment of the player who owns an item: whether he could unequip what is
at a position, and the GUID he loots. -/
structure Circumstances where
  canUnequipItem : UInt64 → UInt8 → UInt8 → Bool
  getLootGUID : UInt64 → Nat

def isBagSlot (slot : UInt8) : Bool :=
  inventorySlotBagStart ≤ slot.toNat && slot.toNat < inventorySlotBagEnd ||
    bankSlotBagStart ≤ slot.toNat && slot.toNat < bankSlotBagEnd

def isBagPos (bag slot : UInt8) : Bool := bag = inventorySlotBag0 && isBagSlot slot

def isInventoryPos (bag slot : UInt8) : Bool :=
  bag = inventorySlotBag0 && slot = nullSlot || bag = inventorySlotBag0 &&
      (inventorySlotItemStart ≤ slot.toNat && slot.toNat < inventorySlotItemEnd) ||
    inventorySlotBagStart ≤ bag.toNat && bag.toNat < inventorySlotBagEnd

namespace ItemRules

variable (R : ItemRules)

def maxStack (entry : UInt32) : Nat := (R.getItemTemplate entry).getMaxStackSize

def isBag (item : Item) : Bool :=
  (R.getItemTemplate item.entry).inventoryType = invtypeBag

def getBagSize (item : Item) : Nat := (R.getItemTemplate item.entry).containerSlots

def isBoundAccountWide (item : Item) : Bool := (R.getItemTemplate item.entry).bindToAccount

def isBindedNotWith (item : Item) (player : UInt64) : Bool :=
  if !item.attrs.soulBound then false
  else if item.attrs.owner = player then false
  else if item.attrs.bopTradeable && item.attrs.allowedGUIDs.contains player then false
  else if R.isBoundAccountWide item then false
  else true

def canBeMergedPartlyWith (item : Item) (entry : UInt32) : InventoryResult :=
  if item.attrs.lootGenerated then .lootGone
  else if item.entry ≠ entry then .cantStack
  else if item.count ≥ R.maxStack entry then .cantStack
  else .ok

/-- `SetBinding` where an item of that entry comes to lie. -/
def binds (entry : UInt32) (bag slot : UInt8) : Bool :=
  match (R.getItemTemplate entry).bonding with
  | .whenPickedUp | .questItem => true
  | .whenEquiped => isBagPos bag slot
  | _ => false

/-- `CreateItem` for a player or for none, with what `CloneItem` copies. -/
def cloneAttrs (owner : UInt64) (attrs : ItemAttrs) : ItemAttrs where
  owner := owner
  soulBound := attrs.soulBound
  bopTradeable := false
  allowedGUIDs := []
  lootGenerated := false
  boundByEnchant := false
  gems := []
  inTrade := false

/-- The attributes of the items that `_StoreItem` of a player and of a guild bank tab touch. -/
def handling : Handling Place UInt32 ItemAttrs where
  maxStack := R.maxStack
  cloned
    | .bank _ _, attrs => cloneAttrs 0 attrs
    | .inventory player _ _, attrs => cloneAttrs player attrs
  placed
    | .bank _ _, _, attrs => { attrs with owner := 0 }
    | .inventory player bag slot, entry, attrs =>
      { attrs with owner := player, soulBound := attrs.soulBound || R.binds entry bag slot }
  joined
    | .bank _ _, _, attrs => attrs
    | .inventory _ bag slot, entry, attrs =>
      { attrs with soulBound := attrs.soulBound || R.binds entry bag slot }

theorem one_le_maxStack (entry : UInt32) : 1 ≤ R.maxStack entry :=
  (R.getItemTemplate entry).one_le_getMaxStackSize

variable (w : ItemWorld) (player : UInt64)

def getBagByPos (bag : UInt8) : Option Item :=
  if isBagSlot bag then
    (w.shelf.get? (.inventory player inventorySlotBag0 bag)).filter R.isBag
  else none

def getItemByPos (bag slot : UInt8) : Option Item :=
  if bag = inventorySlotBag0 && slot.toNat < bankSlotBagEnd then
    w.shelf.get? (.inventory player bag slot)
  else
    match R.getBagByPos w player bag with
    | some pBag =>
      if slot.toNat < R.getBagSize pBag then w.shelf.get? (.inventory player bag slot) else none
    | none => none

def slotPlaces (first last : Nat) : List Place :=
  (List.range' first (last - first)).map fun slot =>
    .inventory player inventorySlotBag0 (UInt8.ofNat slot)

def bagPlaces (bag : UInt8) : List Place :=
  match R.getBagByPos w player bag with
  | some pBag => (List.range (R.getBagSize pBag)).map fun slot =>
    .inventory player bag (UInt8.ofNat slot)
  | none => []

def inventoryBags : List UInt8 := [19, 20, 21, 22]
def bankBags : List UInt8 := [67, 68, 69, 70, 71, 72, 73]

/-- `GetItemByGuid`: equipment, bags, backpack and bank, then the contents of the bags. -/
def getItemByGuid (guid : Nat) : Option (Place × Item) :=
  (slotPlaces player equipmentSlotStart inventorySlotItemEnd ++
    slotPlaces player bankSlotItemStart bankSlotBagEnd ++
    inventoryBags.flatMap (R.bagPlaces w player) ++
    bankBags.flatMap (R.bagPlaces w player)).findSome? fun k =>
      ((w.shelf.get? k).filter fun item => item.guid = guid).map fun item => (k, item)

def placeOf (guid : Nat) : Option Place :=
  (w.shelf.toList.find? fun x => x.stack.guid = guid).map Placed.place

/-- `IsNotEmptyBag`: only a bag in a bag slot has contents. -/
def isNotEmptyBag (item : Item) : Bool :=
  R.isBag item &&
    match placeOf w item.guid with
    | some (.inventory player bag slot) =>
      isBagPos bag slot && (R.bagPlaces w player slot).any fun k => (w.shelf.get? k).isSome
    | _ => false

def canBeTraded (now : Circumstances) (item : Item) (mail trade : Bool) : Bool :=
  if item.attrs.lootGenerated then false
  else if (!mail || !R.isBoundAccountWide item) &&
      (item.attrs.soulBound && (!item.attrs.bopTradeable || !trade)) then false
  else
    match placeOf w item.guid with
    | some (.inventory _ bag slot) =>
      if R.isBag item && (isBagPos bag slot || R.isNotEmptyBag w item) then false
      else if item.attrs.owner ≠ 0 && !now.canUnequipItem item.attrs.owner bag slot then false
      else if item.attrs.owner ≠ 0 && now.getLootGUID item.attrs.owner = item.guid then false
      else !item.attrs.boundByEnchant
    | _ => !item.attrs.boundByEnchant

def getGemCountWithID (item : Item) (gem : UInt32) : Nat := item.attrs.gems.count gem

/-- What the items at some places count, but for one item; 32 bits wide. -/
def countAt (places : List Place) (skipItem : Item) (counts : Item → Nat) : Nat :=
  (places.map fun k => match w.shelf.get? k with
    | some item => if item.guid = skipItem.guid then 0 else counts item
    | none => 0).sum % 2 ^ 32

def getItemCount (item : Item) : Nat :=
  let places := slotPlaces player equipmentSlotStart bankSlotBagEnd ++
    inventoryBags.flatMap (R.bagPlaces w player) ++ bankBags.flatMap (R.bagPlaces w player)
  let socketed := slotPlaces player equipmentSlotStart bankSlotItemEnd ++
    inventoryBags.flatMap (R.bagPlaces w player) ++ bankBags.flatMap (R.bagPlaces w player)
  let same := countAt w places item fun i => if i.entry = item.entry then i.count else 0
  if (R.getItemTemplate item.entry).gemProperties ≠ 0 then
    (same + countAt w socketed item fun i =>
      if (R.getItemTemplate i.entry).socketColor ≠ 0 then getGemCountWithID i item.entry
      else 0) % 2 ^ 32
  else same

def getItemCountWithLimitCategory (limitCategory : UInt32) (skipItem : Item) : Nat :=
  countAt w (slotPlaces player equipmentSlotStart bankSlotBagEnd ++
      inventoryBags.flatMap (R.bagPlaces w player) ++ bankBags.flatMap (R.bagPlaces w player))
    skipItem fun i =>
      if (R.getItemTemplate i.entry).itemLimitCategory = limitCategory then i.count else 0

def canTakeMoreSimilarItems (item : Item) (count : Nat) : InventoryResult × Nat :=
  let pProto := R.getItemTemplate item.entry
  let tooMany (curcount maxCount : Nat) : Nat := (count + curcount + 2 ^ 32 - maxCount) % 2 ^ 32
  if item.attrs.lootGenerated then (.lootGone, 0)
  else if pProto.maxCount ≤ 0 ∧ pProto.itemLimitCategory = 0 ∨ pProto.maxCount = 2147483647 then
    (.ok, 0)
  else
    let curcount := R.getItemCount w player item
    if pProto.maxCount > 0 ∧ (curcount + count) % 2 ^ 32 > pProto.maxCount.toNat then
      (.itemMaxCount, tooMany curcount pProto.maxCount.toNat)
    else if pProto.itemLimitCategory ≠ 0 then
      match R.limitCategory pProto.itemLimitCategory with
      | none => (.notEquippable, count)
      | some limitEntry =>
        let curcount := R.getItemCountWithLimitCategory w player pProto.itemLimitCategory item
        if limitEntry.have' && decide ((curcount + count) % 2 ^ 32 > limitEntry.maxCount.toNat) then
          (.itemMaxLimitCategoryCountExceeded, tooMany curcount limitEntry.maxCount.toNat)
        else (.ok, 0)
    else (.ok, 0)

/-- What a plan sees at a position: the item there, but nothing where the item itself lies, for
the slot will be empty. -/
def seen (item : Item) (bag slot : UInt8) : Option Item :=
  (R.getItemByPos w player bag slot).filter fun there => there.guid ≠ item.guid

/-- What a plan for a player sees at a place. -/
def seenAt (item : Item) : Place → Option Item
  | .inventory _ bag slot => R.seen w player item bag slot
  | .bank _ _ => none

/-- One part of a search: an error, or the plan so far. -/
abbrev Pass := Reserving Place → Except InventoryResult (Reserving Place)

/-- Places to join or to fill, for one search. -/
def search (item : Item) (merge : Bool) (places : List Place) (r : Reserving Place) :
    Reserving Place :=
  r.scan (R.seenAt w player item) (R.maxStack item.entry)
    (fun there => R.canBeMergedPartlyWith there item.entry = .ok) merge places

def canStoreItemInSpecificSlot (bag slot : UInt8) (swap : Bool) (item : Item) : Pass := fun r =>
  let place := Place.inventory player bag slot
  if R.isNotEmptyBag w item && !isBagPos bag slot then .error .destroyNonemptyBag
  else
    match if swap then none else R.seen w player item bag slot with
    | none =>
      if bag = inventorySlotBag0 then
        if buybackSlotStart ≤ slot.toNat ∧ slot.toNat < buybackSlotEnd ∨
            slot.toNat ≥ playerSlotEnd then .error .wrongBagType
        else .ok (r.reserve place (R.maxStack item.entry))
      else
        match R.getBagByPos w player bag with
        | none => .error .wrongBagType
        | some pBag =>
          if slot.toNat ≥ R.getBagSize pBag then .error .wrongBagType
          else if !itemCanGoIntoBag (R.getItemTemplate item.entry)
              (R.getItemTemplate pBag.entry) then .error .wrongBagType
          else .ok (r.reserve place (R.maxStack item.entry))
    | some pItem2 =>
      match R.canBeMergedPartlyWith pItem2 item.entry with
      | .ok => .ok (r.reserve place (R.maxStack item.entry - pItem2.count))
      | error => .error error

def canStoreItemInBag (bag : UInt8) (merge nonSpecialized : Bool) (item : Item)
    (skipBag skipSlot : UInt8) : Pass := fun r =>
  if bag = skipBag then .error .wrongBagType
  else
    match R.getBagByPos w player bag with
    | none => .error .wrongBagType
    | some pBag =>
      let pBagProto := R.getItemTemplate pBag.entry
      if pBag.guid = item.guid then .error .wrongBagType
      else if R.isNotEmptyBag w item then .error .destroyNonemptyBag
      else if nonSpecialized ≠ (pBagProto.class' = itemClassContainer ∧
          pBagProto.subClass = itemSubclassContainer) then .error .wrongBagType
      else if !itemCanGoIntoBag (R.getItemTemplate item.entry) pBagProto then .error .wrongBagType
      else .ok (R.search w player item merge
        ((R.bagPlaces w player bag).filter (· ≠ .inventory player bag skipSlot)) r)

def canStoreItemInInventorySlots (merge : Bool) (item : Item) (skipBag skipSlot : UInt8) : Pass :=
  fun r =>
    if R.isNotEmptyBag w item then .error .destroyNonemptyBag
    else .ok (R.search w player item merge
      ((slotPlaces player inventorySlotItemStart inventorySlotItemEnd).filter
        (· ≠ .inventory player skipBag skipSlot)) r)

/-- A bag that will not do is passed over. -/
def lenient (pass : Pass) : Pass := fun r =>
  match pass r with
  | .ok r => .ok r
  | .error _ => .ok r

/-- The parts of a search one after the other, until everything is placed. -/
def tryPasses (noSimilarCount : Nat) : List Pass → Reserving Place →
    InventoryResult × ItemPosCountVec
  | [], r => (.invFull, r.dest)
  | pass :: rest, r =>
    match pass r with
    | .error error => (error, r.dest)
    | .ok r =>
      if r.count = 0 then
        (if noSimilarCount = 0 then .ok else .itemMaxCount, r.dest)
      else tryPasses noSimilarCount rest r

/-- The search in a bag that the caller names, specialized or not. -/
def inNamedBag (bag slot : UInt8) (merge : Bool) (item : Item) : Pass := fun r =>
  match R.canStoreItemInBag w player bag merge false item nullBag slot r with
  | .ok r => .ok r
  | .error _ => R.canStoreItemInBag w player bag merge true item nullBag slot r

/-- The order in which `CanStoreItem` searches. -/
def passes (bag slot : UInt8) (swap : Bool) (item : Item) : List Pass :=
  let pProto := R.getItemTemplate item.entry
  let stacked := pProto.stackable ≠ 1
  let special := pProto.bagFamily ≠ 0
  let slots (merge : Bool) : Pass := R.canStoreItemInInventorySlots w player merge item bag slot
  let bags (merge nonSpecialized : Bool) : List Pass := inventoryBags.map fun i =>
    lenient (R.canStoreItemInBag w player i merge nonSpecialized item bag slot)
  let named (merge : Bool) : Pass :=
    if bag = inventorySlotBag0 then slots merge else R.inNamedBag w player bag slot merge item
  (if bag ≠ nullBag ∧ slot ≠ nullSlot then
    [R.canStoreItemInSpecificSlot w player bag slot swap item] else []) ++
  (if bag ≠ nullBag then (if stacked then [named true] else []) ++ [named false] else []) ++
  (if stacked then [slots true] ++ (if special then bags true false else []) ++ bags true true
    else []) ++
  (if special then bags false false else []) ++
  [fun r => if R.isNotEmptyBag w item then .error .bagInBag else .ok r] ++
  [slots false] ++ bags false true

/-- **`CanStoreItem`**: whether an item can be stored with a player, and `dest` with the plan for
it added; both also when it cannot. -/
def canStoreItem (bag slot : UInt8) (dest : ItemPosCountVec) (item : Item) (swap : Bool) :
    InventoryResult × ItemPosCountVec :=
  if item.attrs.lootGenerated then (.lootGone, dest)
  else if R.isBindedNotWith item player then (.notOwner, dest)
  else
    let (res, noSimilarCount) := R.canTakeMoreSimilarItems w player item item.count
    if res ≠ .ok ∧ item.count = noSimilarCount then (res, dest)
    else
      tryPasses noSimilarCount (R.passes w player bag slot swap item)
        { dest := dest, count := (item.count + 2 ^ 32 - noSimilarCount) % 2 ^ 32 }

/-- The space table of `CanStoreItems`: how much is taken at the places of the backpack and the
bags. -/
abbrev SpaceTable := Place → Nat

def itemAt : Place → Option Item
  | .inventory _ bag slot => R.getItemByPos w player bag slot
  | .bank _ _ => none

/-- The table at first; an item in trade takes no space. -/
def spaceTable : SpaceTable := fun k =>
  match R.itemAt w player k with
  | some pItem2 => if pItem2.attrs.inTrade then 0 else pItem2.count
  | none => 0

/-- The places in those bags that are for an item, in general or only for its family. -/
def placesInBags (which : ItemProto → Bool) : List Place :=
  inventoryBags.flatMap fun bag =>
    match R.getBagByPos w player bag with
    | some pBag =>
      if which (R.getItemTemplate pBag.entry) then R.bagPlaces w player bag else []
    | none => []

def isPlainBag (pBagProto : ItemProto) : Bool :=
  pBagProto.class' = itemClassContainer && pBagProto.subClass = itemSubclassContainer

def canStoreOneOfItems (pItem : Item) (table : SpaceTable) : Except InventoryResult SpaceTable :=
  let pProto := R.getItemTemplate pItem.entry
  let backpack := slotPlaces player inventorySlotItemStart inventorySlotItemEnd
  let merges (k : Place) : Bool :=
    match R.itemAt w player k with
    | some pItem2 => decide (R.canBeMergedPartlyWith pItem2 pItem.entry = .ok ∧
        table k + pItem.count ≤ R.maxStack pItem.entry)
    | none => false
  let free (k : Place) : Bool := table k = 0
  if pItem.attrs.lootGenerated then .error .lootGone
  else if R.isBindedNotWith pItem player then .error .notOwner
  else if (R.canTakeMoreSimilarItems w player pItem pItem.count).1 ≠ .ok then
    .error (R.canTakeMoreSimilarItems w player pItem pItem.count).1
  else
    match if pProto.stackable ≠ 1 then
        (backpack ++ R.placesInBags w player (itemCanGoIntoBag pProto)).find? merges
      else none with
    | some k => .ok (Function.update table k (table k + pItem.count))
    | none =>
      let special := if pProto.bagFamily ≠ 0 then
          R.placesInBags w player fun pBagProto =>
            !isPlainBag pBagProto && itemCanGoIntoBag pProto pBagProto
        else []
      match (special ++ backpack ++ R.placesInBags w player isPlainBag).find? free with
      | some k => .ok (Function.update table k 1)
      | none => .error .invFull

def canStoreItems (pItems : List Item) : InventoryResult :=
  match pItems.foldlM (fun table pItem => R.canStoreOneOfItems w player pItem table)
      (R.spaceTable w player) with
  | .ok _ => .ok
  | .error res => res

def moveItemFromInventory (bag slot : UInt8) : ItemWorld :=
  match R.getItemByPos w player bag slot with
  | some _ => w.take (.inventory player bag slot)
  | none => w

def storeItem (dest : ItemPosCountVec) (item : Item) : ItemWorld :=
  R.handling.storeItem w item dest

theorem noSlots_le : 0 ≤ maxBagSize := Nat.zero_le maxBagSize

/-- Trade goods of one kind, in stacks of 20, of which a player may own `maxCount`. -/
def tradeGoods (maxCount : Int) : ItemRules where
  getItemTemplate := fun _ =>
    { class' := 7, subClass := 0, inventoryType := 0, bindToAccount := false, maxCount := maxCount
      stackable := 20, containerSlots := 0, bonding := .noBind, bagFamily := 0, gemProperties := 0
      socketColor := 0, itemLimitCategory := 0, stackable_lt := by decide, slots_le := noSlots_le }
  limitCategory := fun _ => none

end ItemRules

end Sky548
