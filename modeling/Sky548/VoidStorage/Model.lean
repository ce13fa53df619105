import Mathlib.Data.Fintype.Basic
import Sky548.Items.Destroying
import Sky548.Items.MoneyBounds
import Sky548.Ledger
import Sky548.Machine

/-!
# The void storage

`HandleVoidStorageTransfer`. A deposit makes a record of an item, of its entry, its creator and its
random property, and destroys the item; a withdrawal makes a new item of a record. The records lie in
80 slots.

The fields of an item that matter only here are kept beside the items, by their GUIDs.
-/

namespace Sky548

/-- The fields of an `Item` that a record is made of beside its entry. -/
structure ItemFields where
  creator : UInt64
  randomPropertyId : Int32
  suffixFactor : UInt32
  deriving DecidableEq

structure VoidStorageItem where
  itemId : UInt64
  itemEntry : UInt32
  creatorGuid : UInt32
  itemRandomPropertyId : UInt32
  itemSuffixFactor : UInt32
  itemUpgrade : UInt32
  deriving DecidableEq

/-- `VOID_STORAGE_MAX_SLOT` -/
abbrev VoidSlot := Fin 80

def voidStorageStoreItem : Nat := 25 * 10000

def voidStorageMaxDeposit : Nat := 9
def voidStorageMaxWithdraw : Nat := 9

/-- The stores of random properties and random suffixes, by the number that an item has of either,
and `GenerateEnchSuffixFactor`. -/
structure RandomProperties where
  has : Int32 → Bool
  generateEnchSuffixFactor : UInt32 → UInt32

/-- What a transfer is about: the items, the records and the money of a player, and the last number
given to a record. -/
structure Vault where
  world : ItemWorld
  fields : Nat → ItemFields
  voidStorageItems : VoidSlot → Option VoidStorageItem
  money : UInt64
  voidItemId : UInt64

/-- An item that is deposited: as it was, and its record in its slot. -/
structure Deposit where
  item : Item
  fields : ItemFields
  record : VoidStorageItem
  slot : Option VoidSlot

/-- The record has the entry, the creator and the random property of the item. -/
def Deposit.Same (d : Deposit) : Prop :=
  d.record.itemEntry = d.item.entry ∧ d.record.creatorGuid.toUInt64 = d.fields.creator ∧
    d.record.itemRandomPropertyId.toInt32 = d.fields.randomPropertyId

structure Withdrawal where
  record : VoidStorageItem
  item : Item
  fields : ItemFields

/-- The item has the entry, the creator and the random property of the record. -/
def Withdrawal.Same (x : Withdrawal) : Prop :=
  x.item.entry = x.record.itemEntry ∧ x.fields.creator = x.record.creatorGuid.toUInt64 ∧
    x.fields.randomPropertyId = x.record.itemRandomPropertyId.toInt32

/-- A transfer on its way; `stopped` if it has returned. -/
structure Transfer where
  vault : Vault
  deposits : List Deposit
  withdrawals : List Withdrawal
  stopped : Bool

namespace Vault

variable (R : ItemRules) (P : RandomProperties) (player : UInt64)

def nextFreeSlot (slots : VoidSlot → Option VoidStorageItem) : Option VoidSlot :=
  (List.finRange 80).find? fun i => (slots i).isNone

def numOfFreeSlots (slots : VoidSlot → Option VoidStorageItem) : Nat :=
  (List.finRange 80).countP fun i => (slots i).isNone

def addVoidStorageItem (slots : VoidSlot → Option VoidStorageItem) (record : VoidStorageItem) :
    VoidSlot → Option VoidStorageItem :=
  match nextFreeSlot slots with
  | some slot => Function.update slots slot (some record)
  | none => slots

def getVoidStorageItem (slots : VoidSlot → Option VoidStorageItem) (id : UInt64) :
    Option (VoidSlot × VoidStorageItem) :=
  (List.finRange 80).findSome? fun i =>
    ((slots i).filter fun record => record.itemId = id).map fun record => (i, record)

def freeBagSlots (w : ItemWorld) : Nat :=
  (ItemRules.inventoryBags.flatMap (R.bagPlaces w player) ++
    ItemRules.slotPlaces player inventorySlotItemStart inventorySlotItemEnd).countP fun k =>
      (w.shelf.get? k).isNone

/-- One deposit: the record is made, then the item is destroyed. -/
def deposit (t : Transfer) (guid : Nat) : Transfer :=
  match R.getItemByGuid t.vault.world player guid with
  | none => t
  | some (k, item) =>
    let fields := t.vault.fields item.guid
    let record : VoidStorageItem :=
      { itemId := t.vault.voidItemId + 1
        itemEntry := item.entry
        creatorGuid := fields.creator.toUInt32
        itemRandomPropertyId := fields.randomPropertyId.toUInt32
        itemSuffixFactor := fields.suffixFactor
        itemUpgrade := 0 }
    { t with
      vault :=
        { t.vault with
          world :=
            match k with
            | .inventory _ bag slot => R.destroyItem t.vault.world player bag slot
            | .bank _ _ => t.vault.world
          voidStorageItems := addVoidStorageItem t.vault.voidStorageItems record
          voidItemId := t.vault.voidItemId + 1 }
      deposits := t.deposits ++ [⟨item, fields, record, nextFreeSlot t.vault.voidStorageItems⟩] }

def newFields (entry : UInt32) (randomPropertyId : Int32) : ItemFields :=
  if randomPropertyId ≠ 0 ∧ P.has randomPropertyId = true then
    { creator := 0
      randomPropertyId := randomPropertyId
      suffixFactor := if randomPropertyId < 0 then P.generateEnchSuffixFactor entry else 0 }
  else ⟨0, 0, 0⟩

/-- `StoreNewItem` of a record, and what is set of the item that it gives back: the one at the last
place of the plan. -/
def restore (v : Vault) (record : VoidStorageItem) (dest : ItemPosCountVec) :
    Vault × Option (Item × ItemFields) :=
  let world := R.storeNewItem v.world player record.itemEntry dest
  let fields := Function.update v.fields v.world.nextGuid
    (newFields P record.itemEntry record.itemRandomPropertyId.toInt32)
  match dest.getLast? with
  | none => (v, none)
  | some (k, _) =>
    match world.shelf.get? k with
    | none => (v, none)
    | some item =>
      let bound := { item with attrs := { item.attrs with soulBound := true } }
      let set := { fields item.guid with creator := record.creatorGuid.toUInt64 }
      ({ v with world := world.put k bound, fields := Function.update fields item.guid set },
        some (bound, set))

def withdraw (t : Transfer) (id : UInt64) : Transfer :=
  if t.stopped then t
  else
    match getVoidStorageItem t.vault.voidStorageItems id with
    | none => t
    | some (slot, record) =>
      let answer := R.canStoreEntry t.vault.world player record.itemEntry none nullBag nullSlot [] 1
        false
      if answer.1 ≠ .ok then { t with stopped := true }
      else
        let made := restore R P player t.vault record answer.2.1
        { t with
          vault :=
            { made.1 with
              voidStorageItems := Function.update made.1.voidStorageItems slot none }
          withdrawals := t.withdrawals ++ made.2.toList.map fun x => ⟨record, x.1, x.2⟩ }

def charge (t : Transfer) : Transfer :=
  let cost := Int64.ofInt (-(t.deposits.length * voidStorageStoreItem : Nat))
  { t with vault := { t.vault with money := (modifyMoneyCall t.vault.money cost).2 } }

/-- The request is let through; `admitted` if the player has the void storage and the vaultkeeper is
near. -/
def admits (admitted : Bool) (v : Vault) (itemGuids : List Nat) (itemIds : List UInt64) : Bool :=
  admitted && itemGuids.length ≤ voidStorageMaxDeposit && itemIds.length ≤ voidStorageMaxWithdraw &&
    itemGuids.length ≤ numOfFreeSlots v.voidStorageItems &&
    itemIds.length ≤ freeBagSlots R player v.world &&
    hasEnoughMoney v.money (UInt64.ofNat (itemGuids.length * voidStorageStoreItem))

def begin' (v : Vault) : Transfer := ⟨v, [], [], false⟩

def handleVoidStorageTransfer (admitted : Bool) (v : Vault) (itemGuids : List Nat)
    (itemIds : List UInt64) : Transfer :=
  if admits R player admitted v itemGuids itemIds then
    Machine.run (withdraw R P player)
      (charge (Machine.run (deposit R player) v.begin' itemGuids)) itemIds
  else v.begin'

def stored (entry : UInt32) (record : Option VoidStorageItem) : Nat :=
  if record.any (fun r => r.itemEntry = entry) then 1 else 0

/-- How many pieces of an entry the player has, in the inventory, with what is in its bags, and in the
void storage. -/
def units (v : Vault) (entry : UInt32) : Nat :=
  Shelf.amount (Place.heldBy player) entry v.world.shelf +
    Ledger.total (Finset.univ : Finset VoidSlot) fun i => stored entry (v.voidStorageItems i)

/-- **A transfer conserves what the player has**: all pieces of every entry with what they are, the
records not asked for, and the money but for the fee. -/
structure Conserves (v : Vault) (t : Transfer) : Prop where
  units : ∀ entry, t.vault.units player entry = v.units player entry
  deposited : ∀ d ∈ t.deposits, d.Same
  withdrawn : ∀ x ∈ t.withdrawals, x.Same
  fee : t.vault.money.toNat + t.deposits.length * voidStorageStoreItem = v.money.toNat
  /-- a slot is not overwritten, but emptied when its record is withdrawn -/
  kept : ∀ i record, v.voidStorageItems i = some record → t.vault.voidStorageItems i = some record ∨
      t.vault.voidStorageItems i = none ∧ ∃ x ∈ t.withdrawals, x.record = record
  /-- a new record lies in a slot that was free, until it is withdrawn -/
  placed : ∀ d ∈ t.deposits, ∃ i, d.slot = some i ∧ v.voidStorageItems i = none ∧
    (t.vault.voidStorageItems i = some d.record ∨
      t.vault.voidStorageItems i = none ∧ ∃ x ∈ t.withdrawals, x.record = d.record)
  /-- only what is stored is withdrawn -/
  known : ∀ x ∈ t.withdrawals, (∃ i, v.voidStorageItems i = some x.record) ∨
    ∃ d ∈ t.deposits, d.record = x.record

/-- What is deposited in a turn is one piece, nothing is in it, and its creator fits the record. -/
def DepositsPiece (t : Transfer) (guid : Nat) : Prop :=
  ∀ k item, R.getItemByGuid t.vault.world player guid = some (k, item) →
    item.count = 1 ∧ R.isNotEmptyBag t.vault.world item = false ∧
      (t.vault.fields item.guid).creator.toNat < 2 ^ 32

/-- What is withdrawn in a turn goes into an empty slot, and its random property is known if it has
one, or to a stack with the same random property. -/
def WithdrawsAlike (t : Transfer) (id : UInt64) : Prop :=
  t.stopped = false → ∀ slot record, getVoidStorageItem t.vault.voidStorageItems id =
    some (slot, record) → ∀ k n noSpaceCount,
    R.canStoreEntry t.vault.world player record.itemEntry none nullBag nullSlot [] 1 false =
      (.ok, [(k, n)], noSpaceCount) →
    match t.vault.world.shelf.get? k with
    | none => record.itemRandomPropertyId.toInt32 = 0 ∨
        P.has record.itemRandomPropertyId.toInt32 = true
    | some there => (t.vault.fields there.guid).randomPropertyId =
        record.itemRandomPropertyId.toInt32

end Vault

end Sky548
