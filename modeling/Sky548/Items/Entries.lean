import Sky548.Items.Planning

/-!
# Storing so many of an entry

`CanStoreItem` as it is asked for a count of an entry, for an item that is to be moved or for none:
then a new item is to be made. Beside the plan it tells how many have no space. Asked for all of an
item, it is the `canStoreItem` of the inventory (`canStoreEntry_item`).
-/

namespace Sky548

namespace ItemRules

variable (R : ItemRules) (w : ItemWorld) (player : UInt64)

/-- What the items at some places count, but for one item if there is one; 32 bits wide. -/
def countBut (places : List Place) (skipItem : Option Item) (counts : Item → Nat) : Nat :=
  (places.map fun k => match w.shelf.get? k with
    | some item => if skipItem.any fun skip => item.guid = skip.guid then 0 else counts item
    | none => 0).sum % 2 ^ 32

def getItemCountOf (item : UInt32) (skipItem : Option Item) : Nat :=
  let places := slotPlaces player equipmentSlotStart bankSlotBagEnd ++
    inventoryBags.flatMap (R.bagPlaces w player) ++ bankBags.flatMap (R.bagPlaces w player)
  let socketed := slotPlaces player equipmentSlotStart bankSlotItemEnd ++
    inventoryBags.flatMap (R.bagPlaces w player) ++ bankBags.flatMap (R.bagPlaces w player)
  let same := countBut w places skipItem fun i => if i.entry = item then i.count else 0
  if skipItem.any fun skip => (R.getItemTemplate skip.entry).gemProperties ≠ 0 then
    (same + countBut w socketed skipItem fun i =>
      if (R.getItemTemplate i.entry).socketColor ≠ 0 then getGemCountWithID i item
      else 0) % 2 ^ 32
  else same

def getItemCountOfCategory (limitCategory : UInt32) (skipItem : Option Item) : Nat :=
  countBut w (slotPlaces player equipmentSlotStart bankSlotBagEnd ++
      inventoryBags.flatMap (R.bagPlaces w player) ++ bankBags.flatMap (R.bagPlaces w player))
    skipItem fun i =>
      if (R.getItemTemplate i.entry).itemLimitCategory = limitCategory then i.count else 0

/-- `CanTakeMoreSimilarItems`, with the count that it reports as too many. -/
def canTakeMoreOf (entry : UInt32) (count : Nat) (pItem : Option Item) : InventoryResult × Nat :=
  let pProto := R.getItemTemplate entry
  let tooMany (curcount maxCount : Nat) : Nat := (count + curcount + 2 ^ 32 - maxCount) % 2 ^ 32
  if pItem.any fun item => item.attrs.lootGenerated then (.lootGone, 0)
  else if pProto.maxCount ≤ 0 ∧ pProto.itemLimitCategory = 0 ∨ pProto.maxCount = 2147483647 then
    (.ok, 0)
  else
    let curcount := R.getItemCountOf w player entry pItem
    if pProto.maxCount > 0 ∧ (curcount + count) % 2 ^ 32 > pProto.maxCount.toNat then
      (.itemMaxCount, tooMany curcount pProto.maxCount.toNat)
    else if pProto.itemLimitCategory ≠ 0 then
      match R.limitCategory pProto.itemLimitCategory with
      | none => (.notEquippable, count)
      | some limitEntry =>
        let curcount := R.getItemCountOfCategory w player pProto.itemLimitCategory pItem
        if limitEntry.have' && decide ((curcount + count) % 2 ^ 32 > limitEntry.maxCount.toNat) then
          (.itemMaxLimitCategoryCountExceeded, tooMany curcount limitEntry.maxCount.toNat)
        else (.ok, 0)
    else (.ok, 0)

variable (entry : UInt32) (pSrcItem : Option Item)

def seenBut (bag slot : UInt8) : Option Item :=
  (R.getItemByPos w player bag slot).filter fun there =>
    pSrcItem.all fun item => there.guid ≠ item.guid

/-- What a plan for a player sees at a place. -/
def seenButAt : Place → Option Item
  | .inventory _ bag slot => R.seenBut w player pSrcItem bag slot
  | .bank _ _ => none

def isFullBag : Bool := pSrcItem.any fun item => R.isNotEmptyBag w item

/-- Places to join or to fill, for one search. -/
def searchEntry (merge : Bool) (places : List Place) (r : Reserving Place) : Reserving Place :=
  r.scan (R.seenButAt w player pSrcItem) (R.maxStack entry)
    (fun there => R.canBeMergedPartlyWith there entry = .ok) merge places

def canStoreEntryInSpecificSlot (bag slot : UInt8) (swap : Bool) : Pass := fun r =>
  let place := Place.inventory player bag slot
  if R.isFullBag w pSrcItem && !isBagPos bag slot then .error .destroyNonemptyBag
  else
    match if swap then none else R.seenBut w player pSrcItem bag slot with
    | none =>
      if bag = inventorySlotBag0 then
        if buybackSlotStart ≤ slot.toNat ∧ slot.toNat < buybackSlotEnd ∨
            slot.toNat ≥ playerSlotEnd then .error .wrongBagType
        else .ok (r.reserve place (R.maxStack entry))
      else
        match R.getBagByPos w player bag with
        | none => .error .wrongBagType
        | some pBag =>
          if slot.toNat ≥ R.getBagSize pBag then .error .wrongBagType
          else if !itemCanGoIntoBag (R.getItemTemplate entry) (R.getItemTemplate pBag.entry) then
            .error .wrongBagType
          else .ok (r.reserve place (R.maxStack entry))
    | some pItem2 =>
      match R.canBeMergedPartlyWith pItem2 entry with
      | .ok => .ok (r.reserve place (R.maxStack entry - pItem2.count))
      | error => .error error

def canStoreEntryInBag (bag : UInt8) (merge nonSpecialized : Bool) (skipBag skipSlot : UInt8) :
    Pass := fun r =>
  if bag = skipBag then .error .wrongBagType
  else
    match R.getBagByPos w player bag with
    | none => .error .wrongBagType
    | some pBag =>
      let pBagProto := R.getItemTemplate pBag.entry
      if pSrcItem.any fun item => pBag.guid = item.guid then .error .wrongBagType
      else if R.isFullBag w pSrcItem then .error .destroyNonemptyBag
      else if nonSpecialized ≠ (pBagProto.class' = itemClassContainer ∧
          pBagProto.subClass = itemSubclassContainer) then .error .wrongBagType
      else if !itemCanGoIntoBag (R.getItemTemplate entry) pBagProto then .error .wrongBagType
      else .ok (R.searchEntry w player entry pSrcItem merge
        ((R.bagPlaces w player bag).filter (· ≠ .inventory player bag skipSlot)) r)

def canStoreEntryInInventorySlots (merge : Bool) (skipBag skipSlot : UInt8) : Pass := fun r =>
  if R.isFullBag w pSrcItem then .error .destroyNonemptyBag
  else .ok (R.searchEntry w player entry pSrcItem merge
    ((slotPlaces player inventorySlotItemStart inventorySlotItemEnd).filter
      (· ≠ .inventory player skipBag skipSlot)) r)

/-- The search in a bag that the caller names, specialized or not. -/
def entryInNamedBag (bag slot : UInt8) (merge : Bool) : Pass := fun r =>
  match R.canStoreEntryInBag w player entry pSrcItem bag merge false nullBag slot r with
  | .ok r => .ok r
  | .error _ => R.canStoreEntryInBag w player entry pSrcItem bag merge true nullBag slot r

/-- The order in which `CanStoreItem` searches. -/
def entryPasses (bag slot : UInt8) (swap : Bool) : List Pass :=
  let pProto := R.getItemTemplate entry
  let stacked := pProto.stackable ≠ 1
  let special := pProto.bagFamily ≠ 0
  let slots (merge : Bool) : Pass :=
    R.canStoreEntryInInventorySlots w player entry pSrcItem merge bag slot
  let bags (merge nonSpecialized : Bool) : List Pass := inventoryBags.map fun i =>
    lenient (R.canStoreEntryInBag w player entry pSrcItem i merge nonSpecialized bag slot)
  let named (merge : Bool) : Pass :=
    if bag = inventorySlotBag0 then slots merge
    else R.entryInNamedBag w player entry pSrcItem bag slot merge
  (if bag ≠ nullBag ∧ slot ≠ nullSlot then
    [R.canStoreEntryInSpecificSlot w player entry pSrcItem bag slot swap] else []) ++
  (if bag ≠ nullBag then (if stacked then [named true] else []) ++ [named false] else []) ++
  (if stacked then [slots true] ++ (if special then bags true false else []) ++ bags true true
    else []) ++
  (if special then bags false false else []) ++
  [fun r => if R.isFullBag w pSrcItem then .error .bagInBag else .ok r] ++
  [slots false] ++ bags false true

/-- The parts of a search one after the other, until everything is placed; last comes what is
written to `no_space_count`. -/
def placeEntry (noSimilarCount : Nat) : List Pass → Reserving Place →
    InventoryResult × ItemPosCountVec × Option Nat
  | [], r => (.invFull, r.dest, some ((r.count + noSimilarCount) % 2 ^ 32))
  | pass :: rest, r =>
    match pass r with
    -- the one return that writes nothing
    | .error .bagInBag => (.bagInBag, r.dest, none)
    | .error error => (error, r.dest, some ((r.count + noSimilarCount) % 2 ^ 32))
    | .ok r =>
      if r.count = 0 then
        if noSimilarCount = 0 then (.ok, r.dest, none)
        else (.itemMaxCount, r.dest, some ((r.count + noSimilarCount) % 2 ^ 32))
      else placeEntry noSimilarCount rest r

/-- **`CanStoreItem`** for so many of an entry. -/
def canStoreEntry (bag slot : UInt8) (dest : ItemPosCountVec) (count : UInt32) (swap : Bool) :
    InventoryResult × ItemPosCountVec × Option Nat :=
  if !R.hasTemplate entry then
    (if swap then .cantSwap else .itemNotFound, dest, some count.toNat)
  else if pSrcItem.any fun item => item.attrs.lootGenerated then (.lootGone, dest, some count.toNat)
  else if pSrcItem.any fun item => R.isBindedNotWith item player then
    (.notOwner, dest, some count.toNat)
  else
    let (res, noSimilarCount) := R.canTakeMoreOf w player entry count.toNat pSrcItem
    if res ≠ .ok ∧ count.toNat = noSimilarCount then (res, dest, some noSimilarCount)
    else
      placeEntry noSimilarCount (R.entryPasses w player entry pSrcItem bag slot swap)
        { dest := dest, count := (count.toNat + 2 ^ 32 - noSimilarCount) % 2 ^ 32 }

variable {R w player}

theorem countBut_item (places : List Place) (item : Item) (counts : Item → Nat) :
    countBut w places (some item) counts = countAt w places item counts := by
  simp only [countBut, countAt, Option.any_some, decide_eq_true_eq]
  all_goals rfl

theorem canTakeMoreOf_item (item : Item) (count : Nat) :
    R.canTakeMoreOf w player item.entry count (some item) =
      R.canTakeMoreSimilarItems w player item count := by
  have counts : R.getItemCountOf w player item.entry (some item) = R.getItemCount w player item := by
    simp only [getItemCountOf, getItemCount, countBut_item, Option.any_some, decide_eq_true_eq]
  have category : ∀ limitCategory, R.getItemCountOfCategory w player limitCategory (some item) =
      R.getItemCountWithLimitCategory w player limitCategory item := fun limitCategory =>
    countBut_item _ item _
  simp only [canTakeMoreOf, canTakeMoreSimilarItems, counts, category, Option.any_some]
  all_goals rfl

theorem searchEntry_item (item : Item) : R.searchEntry w player item.entry (some item) =
    R.search w player item := rfl

theorem canStoreEntryInBag_item (item : Item) (bag : UInt8) (merge nonSpecialized : Bool)
    (skipBag skipSlot : UInt8) :
    R.canStoreEntryInBag w player item.entry (some item) bag merge nonSpecialized skipBag skipSlot =
      R.canStoreItemInBag w player bag merge nonSpecialized item skipBag skipSlot := by
  funext r
  simp only [canStoreEntryInBag, canStoreItemInBag, isFullBag, searchEntry_item, Option.any_some,
    decide_eq_true_eq]
  rfl

theorem entryPasses_item (item : Item) (bag slot : UInt8) (swap : Bool) :
    R.entryPasses w player item.entry (some item) bag slot swap =
      R.passes w player bag slot swap item := by
  have named : ∀ merge, R.entryInNamedBag w player item.entry (some item) bag slot merge =
      R.inNamedBag w player bag slot merge item := by
    intro merge
    funext r
    simp only [entryInNamedBag, inNamedBag, canStoreEntryInBag_item]
    all_goals rfl
  simp only [entryPasses, passes, named, canStoreEntryInBag_item]
  all_goals rfl

theorem placeEntry_eq (noSimilarCount : Nat) (passes : List Pass) (r : Reserving Place) :
    ((placeEntry noSimilarCount passes r).1, (placeEntry noSimilarCount passes r).2.1) =
      tryPasses noSimilarCount passes r := by
  induction passes generalizing r with
  | nil => rfl
  | cons pass rest ih =>
    rw [placeEntry, tryPasses]
    split
    · rename_i failed
      rw [failed]
    · rename_i error _ failed
      rw [failed]
    · rename_i r' passed
      rw [passed]
      dsimp only
      split
      · split
        · rfl
        · rfl
      · exact ih r'

/-- Asked for all of an item, it is the `canStoreItem` of the inventory. -/
theorem canStoreEntry_item {item : Item} {count : UInt32} (known : R.hasTemplate item.entry = true)
    (all : count.toNat = item.count) (bag slot : UInt8) (dest : ItemPosCountVec) (swap : Bool) :
    ((R.canStoreEntry w player item.entry (some item) bag slot dest count swap).1,
      (R.canStoreEntry w player item.entry (some item) bag slot dest count swap).2.1) =
      R.canStoreItem w player bag slot dest item swap := by
  simp only [canStoreEntry, canStoreItem, known, all, canTakeMoreOf_item, entryPasses_item,
    Option.any_some, Bool.not_true, Bool.false_eq_true, if_false]
  split
  · rfl
  split
  · rfl
  · split
    · rfl
    · exact placeEntry_eq _ _ _

end ItemRules

end Sky548
