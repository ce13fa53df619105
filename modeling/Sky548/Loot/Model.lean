import Sky548.ObjectGuid

/-!
# Loot

`LootItem`, `QuestItem` and `Loot` (`LootMgr.h`), the slot lookup
`Loot::LootItemInSlot`, and the two ways in which a packet takes an item out:
`Player::StoreLootItem` and `WorldSession::HandleLootMasterGiveOpcode`. What the
bags say (`CanStoreNewItem`) and which players an item is for
(`AllowedForPlayer`) comes from outside.

A taken item is a `Delivery`. `StoreNewItem` creates nothing for a count of 0,
so an entry whose count a master looter has zeroed is delivered no more,
whatever the flags say.
-/

namespace Sky548

structure LootItem where
  itemid : UInt32
  conditions : List UInt32
  allowedGUIDs : List UInt32
  count : UInt8
  isLooted : Bool
  isBlocked : Bool
  freeforall : Bool
  isUnderthreshold : Bool
  isCounted : Bool
  needsQuest : Bool
  followLootRules : Bool
  deriving DecidableEq, Repr

structure ItemTemplate where
  maxStackSize : UInt32
  partyLoot : Bool
  followLootRules : Bool
  quality : UInt32
  disenchantID : UInt32
  requiredDisenchantSkill : UInt32
  needRollDisabled : Bool
  isCurrencyToken : Bool
  deriving DecidableEq, Repr

/-- `sObjectMgr->GetItemTemplate` -/
abbrev ItemStore := UInt32 → Option ItemTemplate

/-- What a player's quests, skills, team and conditions say of an item id, its
conditions and whether it is a quest drop. -/
abbrev LootFilter := UInt32 → List UInt32 → Bool → Bool

def LootItem.allowedForPlayer (item : LootItem) (player : LootFilter) : Bool :=
  player item.itemid item.conditions item.needsQuest

/-- `QuestItem`: a player's own record of an entry, by its position. -/
structure QuestItem where
  index : UInt8
  isLooted : Bool
  deriving DecidableEq, Repr

/-- `QuestItemMap`, keyed by the low part of the player's GUID. No empty list is stored, so a player
without one has an empty one. -/
abbrev QuestItemMap := UInt32 → List QuestItem

structure Loot where
  items : List LootItem
  questItems : List LootItem
  gold : UInt32
  unlootedCount : UInt8
  playerQuestItems : QuestItemMap
  playerFFAItems : QuestItemMap
  playerNonQuestNonFFAConditionalItems : QuestItemMap

/-- Where an entry lies: in `items` or in `quest_items`. -/
inductive LootPlace
  | item (i : Nat)
  | questItem (i : Nat)
  deriving DecidableEq, Repr

/-- Which of its out-parameters `LootItemInSlot` has set, with the position of
the record in the player's list. -/
inductive LootRecord
  | none
  | qitem (pos : Nat)
  | ffaitem (pos : Nat)
  | conditem (pos : Nat)
  deriving DecidableEq, Repr

def LootRecord.isQuest : LootRecord → Bool
  | .qitem _ => true
  | _ => false

structure SlotItem where
  place : LootPlace
  item : LootItem
  record : LootRecord
  deriving DecidableEq, Repr

/-- An entry that went into a player's inventory, as it was until then: its count
and its allowed looters go with the item. -/
structure Delivery where
  place : LootPlace
  player : UInt64
  itemid : UInt32
  entry : LootItem
  deriving DecidableEq, Repr

/-- An entry of `items` that one person is supposed to loot. -/
def LootPlace.isShared (item : LootItem) : LootPlace → Bool
  | .item _ => !item.freeforall
  | .questItem _ => false

def Delivery.isShared (d : Delivery) : Bool := d.place.isShared d.entry

namespace QuestItemMap

/-- The first record of an entry in a player's list. -/
def recordOf (m : QuestItemMap) (player : UInt32) (index : Nat) : Option (Nat × QuestItem) :=
  ((m player).findIdx? fun q => q.index.toNat = index).bind fun pos =>
    (m player)[pos]?.map fun q => (pos, q)

/-- Set `is_looted` on the record at a position of a player's list. -/
def markLooted (m : QuestItemMap) (player : UInt32) (pos : Nat) : QuestItemMap := fun p =>
  if p = player then (m p).modify pos fun q => { q with isLooted := true } else m p

def set (m : QuestItemMap) (player : UInt32) (list : List QuestItem) : QuestItemMap := fun p =>
  if p = player then list else m p

end QuestItemMap

namespace Loot

def empty : Loot where
  items := []
  questItems := []
  gold := 0
  unlootedCount := 0
  playerQuestItems _ := []
  playerFFAItems _ := []
  playerNonQuestNonFFAConditionalItems _ := []

def isLooted (l : Loot) : Bool := l.gold = 0 && l.unlootedCount = 0

def itemAt (l : Loot) : LootPlace → Option LootItem
  | .item i => l.items[i]?
  | .questItem i => l.questItems[i]?

def modifyAt (l : Loot) (place : LootPlace) (f : LootItem → LootItem) : Loot :=
  match place with
  | .item i => { l with items := l.items.modify i f }
  | .questItem i => { l with questItems := l.questItems.modify i f }

/-- The entry that a slot number of the whole list means: first the items, then
the quest items. -/
def slotPlace (l : Loot) (slot : Nat) : LootPlace :=
  if slot ≥ l.items.length then .questItem (slot - l.items.length) else .item slot

def lootItemInSlot (l : Loot) (lootSlot : Nat) (player : UInt32) : Option SlotItem :=
  if lootSlot ≥ l.items.length then
    let questSlot := lootSlot - l.items.length
    match (l.playerQuestItems player)[questSlot]? with
    | none => none
    | some qitem =>
      match l.questItems[qitem.index.toNat]? with
      | none => none
      | some item =>
        if qitem.isLooted then none
        else some ⟨.questItem qitem.index.toNat, item, .qitem questSlot⟩
  else match l.items[lootSlot]? with
    | none => none
    | some item =>
      if item.freeforall then
        match l.playerFFAItems.recordOf player lootSlot with
        | some (pos, ffaitem) =>
          if ffaitem.isLooted then none else some ⟨.item lootSlot, item, .ffaitem pos⟩
        | none => if item.isLooted then none else some ⟨.item lootSlot, item, .none⟩
      else if item.conditions ≠ [] then
        match l.playerNonQuestNonFFAConditionalItems.recordOf player lootSlot with
        -- the player's own record overrides the entry's flag
        | some (pos, conditem) =>
          if conditem.isLooted then none else some ⟨.item lootSlot, item, .conditem pos⟩
        | none => if item.isLooted then none else some ⟨.item lootSlot, item, .none⟩
      else if item.isLooted then none
      else some ⟨.item lootSlot, item, .none⟩

/-- Mark the player's own record of an entry, if `LootItemInSlot` found one. -/
def markRecord (l : Loot) (player : UInt32) : LootRecord → Loot
  | .none => l
  | .qitem pos => { l with playerQuestItems := l.playerQuestItems.markLooted player pos }
  | .ffaitem pos => { l with playerFFAItems := l.playerFFAItems.markLooted player pos }
  | .conditem pos =>
    { l with
      playerNonQuestNonFFAConditionalItems :=
        l.playerNonQuestNonFFAConditionalItems.markLooted player pos }

def decUnlooted (l : Loot) : Loot := { l with unlootedCount := l.unlootedCount - 1 }

/-- What the store gives a player from an entry: nothing when its count is 0. -/
def delivery (place : LootPlace) (item : LootItem) (itemid : UInt32) (player : UInt64) :
    Option Delivery :=
  if item.count = 0 then none else some ⟨place, player, itemid, item⟩

/-- The loot after a player has stored what `LootItemInSlot` found for him: only an
entry that one person is supposed to loot is marked itself. -/
def storeFound (l : Loot) (player : UInt32) (found : SlotItem) : Loot :=
  let l' := l.markRecord player found.record
  let l' := if found.item.freeforall then l'
    else l'.modifyAt found.place fun item => { item with isLooted := true }
  l'.decUnlooted

/-- `Player::StoreLootItem`; `canStore` is what `CanStoreNewItem` says of an
item for this player. -/
def storeLootItem (l : Loot) (player : UInt64) (lootSlot : UInt8) (canStore : LootItem → Bool) :
    Loot × Option Delivery :=
  match l.lootItemInSlot lootSlot.toNat (guidLoPart player) with
  | none => (l, none)
  | some found =>
    -- quest items use the blocked flag for other purposes
    if !found.record.isQuest && found.item.isBlocked then (l, none)
    else if !canStore found.item then (l, none)
    else
      (l.storeFound (guidLoPart player) found,
        delivery found.place found.item found.item.itemid player)

/-- `item.count = 0; item.is_looted = true; --unlootedCount` -/
def takeGiven (l : Loot) (place : LootPlace) : Loot :=
  (l.modifyAt place fun item => { item with count := 0, isLooted := true }).decUnlooted

/-- The part of `HandleLootMasterGiveOpcode` after the checks of the sender, the
target and the loot: the entry is given away whatever its flags are. -/
def lootMasterGive (l : Loot) (target : UInt64) (slotid : UInt8)
    (canStore : LootItem → Bool) (filter : LootFilter) : Loot × Option Delivery :=
  let place := l.slotPlace slotid.toNat
  match l.itemAt place with
  | none => (l, none)
  | some item =>
    if !canStore item || (item.followLootRules && !item.allowedForPlayer filter) then (l, none)
    else
      (l.takeGiven place, delivery place item item.itemid target)

end Loot

end Sky548
