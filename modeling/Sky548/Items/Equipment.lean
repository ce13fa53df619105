import Sky548.Items.Finding

/-!
# Bank, equipment and the checks of moves

The positions that packets name, `CanBankItem`, `FindEquipSlot`, `CanEquipItem`, `CanUnequipItem` and
`AutoUnequipOffhandIfNeed`. What these ask of the player beside the inventory is a `Wearer`.

`FindEquipSlot` is called by checks, but for some weapons it unequips the off-hand item at once; so
these checks give back the belongings of the player with their answer.
-/

namespace Sky548

def equipmentSlotFinger1 : UInt8 := 10
def equipmentSlotFinger2 : UInt8 := 11
def equipmentSlotTrinket1 : UInt8 := 12
def equipmentSlotTrinket2 : UInt8 := 13
def equipmentSlotMainhand : UInt8 := 15
def equipmentSlotOffhand : UInt8 := 16

structure ItemPos where
  bag : UInt8
  slot : UInt8
  deriving DecidableEq

namespace ItemPos

def place (player : UInt64) (pos : ItemPos) : Place := .inventory player pos.bag pos.slot

def isInventory (pos : ItemPos) : Bool := isInventoryPos pos.bag pos.slot

def isBagPos (pos : ItemPos) : Bool := Sky548.isBagPos pos.bag pos.slot

def isEquipment (pos : ItemPos) : Bool :=
  pos.bag = inventorySlotBag0 && decide (pos.slot.toNat < equipmentSlotEnd) ||
    pos.bag = inventorySlotBag0 &&
      (inventorySlotBagStart ≤ pos.slot.toNat && pos.slot.toNat < inventorySlotBagEnd)

def isBank (pos : ItemPos) : Bool :=
  pos.bag = inventorySlotBag0 &&
      (bankSlotItemStart ≤ pos.slot.toNat && pos.slot.toNat < bankSlotItemEnd) ||
    pos.bag = inventorySlotBag0 &&
      (bankSlotBagStart ≤ pos.slot.toNat && pos.slot.toNat < bankSlotBagEnd) ||
    bankSlotBagStart ≤ pos.bag.toNat && pos.bag.toNat < bankSlotBagEnd

end ItemPos

def itemClassWeapon : UInt32 := 2
def itemClassProjectile : UInt32 := 6
def itemSubclassWeaponPolearm : UInt32 := 6
def itemSubclassWeaponStaff : UInt32 := 10
def itemSubclassAmmoPouch : UInt32 := 3

def invtypeWeapon : UInt32 := 13
def invtypeShield : UInt32 := 14
def invtype2HWeapon : UInt32 := 17
def invtypeWeaponOffhand : UInt32 := 22
def invtypeHoldable : UInt32 := 23
def invtypeRelic : UInt32 := 28

namespace ItemProto

variable (proto : ItemProto)

def isCurrencyToken : Bool := proto.bagFamily &&& 0x00002000 ≠ 0

def canChangeEquipStateInCombat : Bool :=
  proto.inventoryType = invtypeRelic || proto.inventoryType = invtypeShield ||
    proto.inventoryType = invtypeHoldable || proto.class' = itemClassWeapon ||
    proto.class' = itemClassProjectile

/-- Its subclass is that of polearms or staves, whatever its class. -/
def isLong : Bool :=
  proto.subClass = itemSubclassWeaponPolearm || proto.subClass = itemSubclassWeaponStaff

end ItemProto

/-- What is asked of a player at some moment, beside his inventory. -/
structure Wearer where
  alive : Bool
  stunned : Bool
  inCombat : Bool
  /-- in an arena in progress -/
  inArena : Bool
  /-- `m_weaponChangeTimer` has not run out. -/
  weaponChange : Bool
  /-- `IsNonMeleeSpellCasted` -/
  casting : Bool
  disarmed : Bool
  canDualWield : Bool
  canTitanGrip : Bool
  /-- of a class that wears relics -/
  wearsRelics : Bool
  getBankBagSlotCount : Nat
  /-- The level is not above that of the item's scaling distribution. -/
  scales : UInt32 → Bool
  canUseItem : Item → InventoryResult
  canEquipUniqueItem : ItemWorld → Item → UInt8 → InventoryResult
  /-- of an item in the trade window -/
  offers : Nat → Bool

/-- All the items there are, and what was mailed to the player for want of space. -/
structure Belongings where
  items : ItemWorld
  mailed : List Item

namespace ItemRules

variable (R : ItemRules) (w : ItemWorld) (player : UInt64)

def isValidPos (pos : ItemPos) (explicitPos : Bool) : Bool :=
  if pos.bag = nullBag && !explicitPos then true
  else if pos.bag = inventorySlotBag0 then
    pos.slot = nullSlot && !explicitPos || decide (pos.slot.toNat < bankSlotBagEnd)
  else
    match R.getBagByPos w player pos.bag with
    | some pBag =>
      pos.slot = nullSlot && !explicitPos || decide (pos.slot.toNat < R.getBagSize pBag)
    | none => false

def itemAtPos (pos : ItemPos) : Option Item := R.getItemByPos w player pos.bag pos.slot

/-- `RemoveItem`: what is at the position is taken out of storage. -/
def removeItem (pos : ItemPos) : ItemWorld :=
  match R.itemAtPos w player pos with
  | some _ => w.take (pos.place player)
  | none => w

variable (now : Wearer)

def canStoreItemInSlots (slotBegin slotEnd : Nat) (merge : Bool) (item : Item)
    (skipBag skipSlot : UInt8) : Pass := fun r =>
  if R.isNotEmptyBag w item then .error .destroyNonemptyBag
  else .ok (R.search w player item merge
    ((slotPlaces player slotBegin slotEnd).filter (· ≠ .inventory player skipBag skipSlot)) r)

/-- The order in which `CanBankItem` searches, and its last word. -/
def bankPasses (bag slot : UInt8) (swap : Bool) (item : Item) : List Pass :=
  let pProto := R.getItemTemplate item.entry
  let stacked := pProto.stackable ≠ 1
  let special := pProto.bagFamily ≠ 0
  let slots (merge : Bool) : Pass :=
    R.canStoreItemInSlots w player bankSlotItemStart bankSlotItemEnd merge item bag slot
  let bags (merge nonSpecialized : Bool) : List Pass := bankBags.map fun i =>
    lenient (R.canStoreItemInBag w player i merge nonSpecialized item bag slot)
  let named (merge : Bool) : Pass :=
    if bag = inventorySlotBag0 then slots merge else R.inNamedBag w player bag slot merge item
  (if bag ≠ nullBag ∧ slot ≠ nullSlot then
    [R.canStoreItemInSpecificSlot w player bag slot swap item] else []) ++
  (if bag ≠ nullBag then
    [fun r => if R.isNotEmptyBag w item then .error .bagInBag else .ok r] ++
      (if stacked then [named true] else []) ++ [named false] else []) ++
  (if stacked then [slots true] ++ (if special then bags true false else []) ++ bags true true
    else []) ++
  (if special then bags false false else []) ++
  [slots false] ++ bags false true ++ [fun _ => .error .bankFull]

/-- What `CanBankItem` checks before it searches. -/
def refusesBank (bag slot : UInt8) (item : Item) : Option InventoryResult :=
  if item.attrs.lootGenerated then some .lootGone
  else if R.isBindedNotWith item player then some .notOwner
  else if (R.getItemTemplate item.entry).isCurrencyToken then some .cantSwap
  else if (R.canTakeMoreSimilarItems w player item item.count).1 ≠ .ok then
    some (R.canTakeMoreSimilarItems w player item item.count).1
  else if bag ≠ nullBag ∧ slot ≠ nullSlot ∧
      bankSlotBagStart ≤ slot.toNat ∧ slot.toNat < bankSlotBagEnd then
    if !R.isBag item then some .wrongSlot
    else if slot.toNat - bankSlotBagStart ≥ now.getBankBagSlotCount then some .noBankSlot
    else if now.canUseItem item ≠ .ok then some (now.canUseItem item)
    else none
  else none

def canBankItem (bag slot : UInt8) (dest : ItemPosCountVec) (item : Item) (swap : Bool) :
    InventoryResult × ItemPosCountVec :=
  match R.refusesBank w player now bag slot item with
  | some error => (error, dest)
  | none => tryPasses 0 (R.bankPasses w player bag slot swap item) ⟨dest, item.count⟩

def isTwoHandUsed : Bool :=
  !now.canTitanGrip &&
    (R.getItemByPos w player inventorySlotBag0 equipmentSlotMainhand).any fun mainItem =>
      (R.getItemTemplate mainItem.entry).inventoryType = invtype2HWeapon

/-- `AutoUnequipOffhandIfNeed`: the off-hand item goes to the inventory or, for want of space, is
mailed. -/
def autoUnequipOffhandIfNeed (s : Belongings) (force : Bool) : Belongings :=
  let offhand : ItemPos := ⟨inventorySlotBag0, equipmentSlotOffhand⟩
  match R.itemAtPos s.items player offhand with
  | none => s
  | some offItem =>
    let type := (R.getItemTemplate offItem.entry).inventoryType
    if !(force || !now.canDualWield && (type = invtypeWeaponOffhand || type = invtypeWeapon)) &&
        (now.canTitanGrip || type ≠ invtype2HWeapon && !R.isTwoHandUsed s.items player now) then s
    else
      match R.canStoreItem s.items player nullBag nullSlot [] offItem false with
      | (.ok, offDest) =>
        { s with items := R.storeItem (R.removeItem s.items player offhand) offDest offItem }
      | _ =>
        { items := R.removeItem s.items player offhand, mailed := s.mailed ++ [offItem] }

/-- `FindEquipSlot` unequips the off-hand item first for such weapons. -/
def forcesOffhand (proto : ItemProto) : Bool :=
  ((R.getItemByPos w player inventorySlotBag0 equipmentSlotMainhand).any fun mhWeapon =>
    (R.getItemTemplate mhWeapon.entry).isLong) ||
  ((R.getItemByPos w player inventorySlotBag0 equipmentSlotOffhand).isSome && proto.isLong)

/-- The slots in which an item can be worn, and what `FindEquipSlot` did while it collected
them. -/
def equipSlots (s : Belongings) (proto : ItemProto) : List UInt8 × Belongings :=
  let forced := R.forcesOffhand s.items player proto
  let cleared := if forced then R.autoUnequipOffhandIfNeed player now s true else s
  match proto.inventoryType.toNat with
  | 1 => ([0], s)
  | 2 => ([1], s)
  | 3 => ([2], s)
  | 4 => ([3], s)
  | 5 => ([4], s)
  | 20 => ([4], s)
  | 6 => ([5], s)
  | 7 => ([6], s)
  | 8 => ([7], s)
  | 9 => ([8], s)
  | 10 => ([9], s)
  | 11 => ([equipmentSlotFinger1, equipmentSlotFinger2], s)
  | 12 => ([equipmentSlotTrinket1, equipmentSlotTrinket2], s)
  | 16 => ([14], s)
  | 13 => (equipmentSlotMainhand :: if now.canDualWield then [equipmentSlotOffhand] else [], s)
  | 14 => ([equipmentSlotOffhand], s)
  -- ranged, thrown and such as are shot with the right hand
  | 15 => ([equipmentSlotMainhand], cleared)
  | 25 => ([equipmentSlotMainhand], cleared)
  | 26 => ([equipmentSlotMainhand], cleared)
  | 17 =>
    (equipmentSlotMainhand ::
      if !forced && now.canDualWield && now.canTitanGrip && !proto.isLong then
        [equipmentSlotOffhand] else [], cleared)
  | 19 => ([18], s)
  | 21 => ([equipmentSlotMainhand], s)
  | 22 => ([equipmentSlotOffhand], s)
  | 23 => ([equipmentSlotOffhand], s)
  | 18 => ([19, 20, 21, 22], s)
  | 28 => if now.wearsRelics then ([equipmentSlotMainhand], cleared) else ([], s)
  | _ => ([], s)

def findEquipSlot (s : Belongings) (proto : ItemProto) (slot : UInt8) (swap : Bool) :
    Option UInt8 × Belongings :=
  let (slots, s) := R.equipSlots player now s proto
  let empty (slot : UInt8) : Bool :=
    (R.getItemByPos s.items player inventorySlotBag0 slot).isNone
  if slot ≠ nullSlot then
    (if (swap || empty slot) && slots.contains slot then some slot else none, s)
  else
    match slots.find? fun i => empty i &&
        (i ≠ equipmentSlotOffhand || !R.isTwoHandUsed s.items player now) with
    | some i => (some i, s)
    | none => (if swap then slots.head? else none, s)

def canUnequipItem (pos : ItemPos) (swap : Bool) : InventoryResult :=
  if !pos.isEquipment && !pos.isBagPos then .ok
  else
    match R.itemAtPos w player pos with
    | none => .ok
    | some pItem =>
      let pProto := R.getItemTemplate pItem.entry
      if pItem.attrs.lootGenerated then .lootGone
      else if !pProto.canChangeEquipStateInCombat && now.inCombat then .notInCombat
      else if !pProto.canChangeEquipStateInCombat && now.inArena then .notDuringArenaMatch
      else if now.disarmed then .clientLockedOut
      else if !swap && R.isNotEmptyBag w pItem then .destroyNonemptyBag
      else .ok

/-- What `CanEquipItem` checks before it finds the slot. -/
def refusesEquip (item : Item) : Option InventoryResult :=
  let pProto := R.getItemTemplate item.entry
  let res := (R.canTakeMoreSimilarItems w player item item.count).1
  if item.attrs.lootGenerated then some .lootGone
  else if R.isBindedNotWith item player then some .notOwner
  else if res ≠ .ok then some res
  else if now.stunned then some .genericStunned
  else if !pProto.canChangeEquipStateInCombat && now.inCombat then some .notInCombat
  else if !pProto.canChangeEquipStateInCombat && now.inArena then some .notDuringArenaMatch
  else if now.inCombat && (pProto.class' = itemClassWeapon || pProto.inventoryType = invtypeRelic) &&
      now.weaponChange then some .clientLockedOut
  else if now.casting then some .clientLockedOut
  else if !now.scales item.entry then some .notEquippable
  else none

/-- The slot that the check for unique items passes over in a swap. -/
def ignoredSlot (eslot : UInt8) (item : Item) : UInt8 :=
  let other : UInt8 :=
    if eslot = equipmentSlotMainhand then equipmentSlotOffhand
    else if eslot = equipmentSlotOffhand then equipmentSlotMainhand
    else if eslot = equipmentSlotFinger1 then equipmentSlotFinger2
    else if eslot = equipmentSlotFinger2 then equipmentSlotFinger1
    else if eslot = equipmentSlotTrinket1 then equipmentSlotTrinket2
    else if eslot = equipmentSlotTrinket2 then equipmentSlotTrinket1
    else nullSlot
  if other ≠ nullSlot ∧
      (R.getItemByPos w player inventorySlotBag0 other).any fun there => there.guid = item.guid then
    other
  else eslot

/-- Whether the item is too many of those of which few may be worn. -/
def equipUnique (eslot : UInt8) (item : Item) (swap : Bool) : InventoryResult :=
  now.canEquipUniqueItem w item (if swap then R.ignoredSlot w player eslot item else nullSlot)

/-- A quiver is refused when another one is in a bag slot. -/
def otherQuiver (eslot : UInt8) (item : Item) (swap : Bool) : Option InventoryResult :=
  if (R.getItemTemplate item.entry).class' ≠ itemClassQuiver then none
  else
    ([19, 20, 21, 22] : List UInt8).findSome? fun i =>
      (R.getItemByPos w player inventorySlotBag0 i).bind fun pBag =>
        let pBagProto := R.getItemTemplate pBag.entry
        if pBag.guid ≠ item.guid ∧ pBagProto.class' = (R.getItemTemplate item.entry).class' ∧
            (swap = false ∨ i ≠ eslot) then
          some (if pBagProto.subClass = itemSubclassAmmoPouch then .onlyOneAmmo else .onlyOneQuiver)
        else none

/-- The off-hand item could not go to the inventory. -/
def offhandStuck : Bool :=
  let offhand : ItemPos := ⟨inventorySlotBag0, equipmentSlotOffhand⟩
  (R.itemAtPos w player offhand).any fun offItem =>
    R.canUnequipItem w player now offhand false ≠ .ok ||
      (R.canStoreItem w player nullBag nullSlot [] offItem false).1 ≠ .ok

/-- What `CanEquipItem` checks of an item for the off hand. -/
def refusesOffhand (eslot : UInt8) (item : Item) : Option InventoryResult :=
  let pProto := R.getItemTemplate item.entry
  let type := pProto.inventoryType
  if eslot ≠ equipmentSlotOffhand then none
  else if type = invtypeWeapon ∧ pProto.subClass = itemSubclassWeaponPolearm then
    some .twoHandSkillNotFound
  else if (type = invtypeWeapon ∨ type = invtypeWeaponOffhand) ∧ now.canDualWield = false then
    some .twoHandSkillNotFound
  else if type = invtype2HWeapon ∧ (now.canDualWield = false ∨ now.canTitanGrip = false) then
    some .twoHandSkillNotFound
  else if R.isTwoHandUsed w player now then some .twoHandedEquipped
  else none

/-- What `CanEquipItem` checks of a weapon for both hands. -/
def refusesTwoHand (eslot : UInt8) (item : Item) (swap : Bool) : Option InventoryResult :=
  if (R.getItemTemplate item.entry).inventoryType ≠ invtype2HWeapon then none
  else if eslot = equipmentSlotOffhand ∧ now.canTitanGrip = false then some .notEquippable
  else if eslot ≠ equipmentSlotOffhand ∧ eslot ≠ equipmentSlotMainhand then some .notEquippable
  else if !now.canTitanGrip && R.offhandStuck w player now then
    some (if swap then .cantSwap else .invFull)
  else none

/-- What `CanEquipItem` checks once it has the slot. -/
def refusesSlot (eslot : UInt8) (item : Item) (swap : Bool) : Option InventoryResult :=
  if now.canUseItem item ≠ .ok then some (now.canUseItem item)
  else if !swap && (R.getItemByPos w player inventorySlotBag0 eslot).isSome then
    some .noSlotAvailable
  else if R.equipUnique w player now eslot item swap ≠ .ok then
    some (R.equipUnique w player now eslot item swap)
  else
    match R.otherQuiver w player eslot item swap with
    | some error => some error
    | none =>
      match R.refusesOffhand w player now eslot item with
      | some error => some error
      | none => R.refusesTwoHand w player now eslot item swap

/-- **`CanEquipItem`**, with the slot and the belongings as they are then. -/
def canEquipItem (s : Belongings) (slot : UInt8) (item : Item) (swap : Bool) :
    InventoryResult × UInt8 × Belongings :=
  match R.refusesEquip s.items player now item with
  | some error => (error, 0, s)
  | none =>
    match R.findEquipSlot player now s (R.getItemTemplate item.entry) slot swap with
    | (none, s) => (.notEquippable, 0, s)
    | (some eslot, s) =>
      match R.refusesSlot s.items player now eslot item swap with
      | some error => (error, 0, s)
      | none => (.ok, eslot, s)

/-- `EquipItem` and `VisualizeItem` put an item on, or add it to the stack that is worn. -/
def equipping : Handling Place UInt32 ItemAttrs where
  maxStack := R.maxStack
  cloned := fun _ attrs => attrs
  placed
    | .bank _ _, _, attrs => attrs
    | .inventory player _ _, entry, attrs =>
      { attrs with
        owner := player
        soulBound := attrs.soulBound || decide ((R.getItemTemplate entry).bonding = .whenEquiped ∨
            (R.getItemTemplate entry).bonding = .whenPickedUp ∨
            (R.getItemTemplate entry).bonding = .questItem) }
  joined := fun _ _ attrs => attrs

def equipItem (dest : ItemPosCountVec) (item : Item) : ItemWorld :=
  R.equipping.storeItem w item dest

end ItemRules

end Sky548
