import Mathlib.Algebra.BigOperators.Fin
import Sky548.VoidStorage.Model

/-!
# Transfers conserve

A deposit loses what its record has no place for: all pieces of a stack but one, what is in a bag, and
the high half of the creator's GUID. A withdrawal adds one piece, to a stack if there is one, whose
random property stays what it is. So a transfer conserves what the player has exactly if no turn of its
two loops does such a thing.
-/

namespace Sky548

open List ItemRules
open Function (update update_of_ne update_self)

namespace Vault

variable {R : ItemRules} {P : RandomProperties} {player : UInt64} {w w' : ItemWorld} {k : Place}
  {item : Item}

/-- Nothing is added anywhere, and nothing is changed outside a bag. -/
structure Emptied (R : ItemRules) (player : UInt64) (slot : UInt8) (w w' : ItemWorld) : Prop where
  fewer : ∀ e, Shelf.amount (Place.heldBy player) e w'.shelf ≤
    Shelf.amount (Place.heldBy player) e w.shelf
  outside : ∀ k, (∀ s, k ≠ .inventory player slot s) → w'.shelf.get? k = w.shelf.get? k
  nextGuid : w'.nextGuid = w.nextGuid
  tidy : w.Tidy R.maxStack → w'.Tidy R.maxStack

theorem Emptied.refl (slot : UInt8) (w : ItemWorld) : Emptied R player slot w w :=
  ⟨fun _ => Nat.le_refl _, fun _ _ => rfl, rfl, fun tidy => tidy⟩

variable {slot : UInt8}

theorem Emptied.trans {w'' : ItemWorld} (first : Emptied R player slot w w')
    (later : Emptied R player slot w' w'') : Emptied R player slot w w'' where
  fewer := fun e => Nat.le_trans (later.fewer e) (first.fewer e)
  outside := fun k apart => (later.outside k apart).trans (first.outside k apart)
  nextGuid := later.nextGuid.trans first.nextGuid
  tidy := fun tidy => later.tidy (first.tidy tidy)

theorem emptied_take (slot s : UInt8) (w : ItemWorld) :
    Emptied R player slot w (w.take (.inventory player slot s)) where
  fewer := by
    intro e
    have split := Shelf.amount_take (Place.heldBy player) e w.shelf (.inventory player slot s)
    change Shelf.amount _ e (w.shelf.take _) ≤ _
    omega
  outside := by
    intro k apart
    rw [Store.take, Shelf.get?_take, if_neg (apart s)]
  nextGuid := rfl
  tidy := fun tidy => tidy.take _

theorem emptied_move (slot s : UInt8) (w : ItemWorld) :
    Emptied R player slot w (R.moveItemFromInventory w player slot s) := by
  unfold ItemRules.moveItemFromInventory
  split
  · exact emptied_take slot s w
  · exact Emptied.refl slot w

theorem emptied_foldl (slot : UInt8) (slots : List Nat) : ∀ w : ItemWorld,
    Emptied R player slot w (slots.foldl (fun w i =>
      R.moveItemFromInventory w player slot (UInt8.ofNat i)) w) := by
  induction slots with
  | nil => exact fun w => Emptied.refl slot w
  | cons i rest ih => exact fun w => (emptied_move slot (UInt8.ofNat i) w).trans (ih _)

theorem emptied_destroyContents (slot : UInt8) (w : ItemWorld) :
    Emptied R player slot w (R.destroyContents w player slot) :=
  emptied_foldl slot _ w

theorem Emptied.getBagByPos (emptied : Emptied R player slot w w')
    (isSlot : isBagSlot slot = true) (bag : UInt8) :
    R.getBagByPos w' player bag = R.getBagByPos w player bag := by
  unfold ItemRules.getBagByPos
  rw [emptied.outside]
  intro s same
  exact isBagSlot_ne isSlot (Place.inventory.inj same).2.1.symm

theorem lost_foldl {pBag u : Item} {j : Nat} (sizes : 1 ≤ u.count)
    (small : j < R.getBagSize pBag) (slots : List Nat) : ∀ w : ItemWorld,
    R.getBagByPos w player slot = some pBag →
    w.shelf.get? (.inventory player slot (UInt8.ofNat j)) = some u →
    (∀ i ∈ slots, i < 256) → j < 256 → j ∈ slots →
    Shelf.amount (Place.heldBy player) u.entry (slots.foldl (fun w i =>
        R.moveItemFromInventory w player slot (UInt8.ofNat i)) w).shelf <
      Shelf.amount (Place.heldBy player) u.entry w.shelf := by
  induction slots with
  | nil => exact fun w _ _ _ _ member => absurd member not_mem_nil
  | cons i rest ih =>
    intro w isBag there inByte small' member
    have isSlot := isBagSlot_of_getBagByPos isBag
    rw [foldl_cons]
    by_cases here : i = j
    · subst here
      have index : (UInt8.ofNat i).toNat = i := by
        rw [UInt8.toNat_ofNat', Nat.mod_eq_of_lt small']
      obtain ⟨bag', slot', place, reads⟩ :=
        (reaches_bag isBag (by rw [index]; exact small)).reads
      obtain ⟨-, rfl, rfl⟩ := Place.inventory.inj place
      have taken : R.moveItemFromInventory w player slot (UInt8.ofNat i) =
          w.take (.inventory player slot (UInt8.ofNat i)) := by
        unfold ItemRules.moveItemFromInventory
        rw [reads, there]
      have split := Shelf.amount_take (Place.heldBy player) u.entry w.shelf
        (.inventory player slot (UInt8.ofNat i))
      rw [there] at split
      have held : Shelf.held (Place.heldBy player) u.entry
          (.inventory player slot (UInt8.ofNat i)) (some u) = u.count :=
        if_pos ⟨decide_eq_true rfl, rfl⟩
      have later := (@emptied_foldl R player slot rest
        (w.take (.inventory player slot (UInt8.ofNat i)))).fewer u.entry
      rw [taken]
      refine Nat.lt_of_le_of_lt later ?_
      change Shelf.amount (Place.heldBy player) u.entry (w.shelf.take _) < _
      omega
    · have moved := @emptied_move R player slot (UInt8.ofNat i) w
      have apart : UInt8.ofNat j ≠ UInt8.ofNat i := by
        intro same
        have values := congrArg UInt8.toNat same
        rw [UInt8.toNat_ofNat', UInt8.toNat_ofNat', Nat.mod_eq_of_lt small',
          Nat.mod_eq_of_lt (inByte i mem_cons_self)] at values
        exact here values.symm
      have still : (R.moveItemFromInventory w player slot (UInt8.ofNat i)).shelf.get?
          (.inventory player slot (UInt8.ofNat j)) = some u := by
        unfold ItemRules.moveItemFromInventory
        split
        · rw [Store.take, Shelf.get?_take, if_neg, there]
          exact fun same => apart (Place.inventory.inj same).2.2
        · exact there
      have less := ih _ ((moved.getBagByPos isSlot slot).trans isBag) still
        (fun n inRest => inByte n (mem_cons_of_mem _ inRest)) small'
        ((List.mem_cons.mp member).resolve_left fun same => here same.symm)
      exact Nat.lt_of_lt_of_le less (moved.fewer u.entry)

theorem lost_destroyContents {pBag : Item} (tidy : w.Tidy R.maxStack)
    (isBag : R.getBagByPos w player slot = some pBag)
    (inside : (R.bagPlaces w player slot).any (fun k => (w.shelf.get? k).isSome) = true) :
    ∃ e, Shelf.amount (Place.heldBy player) e (R.destroyContents w player slot).shelf <
      Shelf.amount (Place.heldBy player) e w.shelf := by
  obtain ⟨k, member, isSome⟩ := List.any_eq_true.mp inside
  obtain ⟨u, there⟩ := Option.isSome_iff_exists.mp isSome
  rw [ItemRules.bagPlaces, isBag] at member
  obtain ⟨j, inRange, rfl⟩ := List.mem_map.mp member
  have small := List.mem_range.mp inRange
  have bagSize : R.getBagSize pBag ≤ 36 := (R.getItemTemplate pBag.entry).slots_le
  refine ⟨u.entry, lost_foldl (tidy.sized _ u there).1 small _ w isBag there ?_ (by omega) ?_⟩
  · intro i inLoop
    exact Nat.lt_trans (List.mem_range.mp inLoop) (by decide)
  · exact List.mem_range.mpr (Nat.lt_of_lt_of_le small bagSize)

structure Destroys (R : ItemRules) (player : UInt64) (item : Item) (w w' : ItemWorld) : Prop where
  fewer : ∀ e, Shelf.amount (Place.heldBy player) e w'.shelf +
    (if item.entry = e then item.count else 0) ≤ Shelf.amount (Place.heldBy player) e w.shelf
  whole : R.isNotEmptyBag w item = false → ∀ e, Shelf.amount (Place.heldBy player) e w'.shelf +
    (if item.entry = e then item.count else 0) = Shelf.amount (Place.heldBy player) e w.shelf
  lost : R.isNotEmptyBag w item = true → ∃ e, Shelf.amount (Place.heldBy player) e w'.shelf +
    (if item.entry = e then item.count else 0) < Shelf.amount (Place.heldBy player) e w.shelf
  tidy : w'.Tidy R.maxStack

theorem held_own (there : w.shelf.get? k = some item) (held : k.heldBy player = true) (e : UInt32) :
    Shelf.amount (Place.heldBy player) e (w.take k).shelf +
        (if item.entry = e then item.count else 0) =
      Shelf.amount (Place.heldBy player) e w.shelf := by
  have split := Shelf.amount_take (Place.heldBy player) e w.shelf k
  rw [there, Store.held_inside e held] at split
  exact split

theorem destroys (tidy : w.Tidy R.maxStack) {bag : UInt8}
    (reads : R.getItemByPos w player bag slot = some item)
    (there : w.shelf.get? (.inventory player bag slot) = some item) :
    Destroys R player item w (R.destroyItem w player bag slot) := by
  have held : Place.heldBy player (.inventory player bag slot) = true := decide_eq_true rfl
  unfold ItemRules.destroyItem
  rw [reads]
  dsimp only
  cases notEmpty : R.isNotEmptyBag w item with
  | false =>
    rw [if_neg Bool.false_ne_true]
    have rest := held_own there held
    refine ⟨fun e => Nat.le_of_eq (rest e), fun _ => rest, fun isTrue => ?_, tidy.take _⟩
    rw [notEmpty] at isTrue
    cases isTrue
  | true =>
    rw [if_pos rfl]
    have emptied := @emptied_destroyContents R player slot w
    -- the bag is in a bag slot, outside of itself
    have isBagThere := notEmpty
    rw [ItemRules.isNotEmptyBag, Bool.and_eq_true, placeOf_eq tidy there] at isBagThere
    obtain ⟨isBag, inSlot⟩ := isBagThere
    rw [Bool.and_eq_true, Sky548.isBagPos, Bool.and_eq_true] at inSlot
    obtain ⟨⟨own, isSlot⟩, inside⟩ := inSlot
    have isOwn : bag = inventorySlotBag0 := of_decide_eq_true own
    have isBagAt : R.getBagByPos w player slot = some item :=
      getBagByPos_eq_some.mpr ⟨isSlot, isBag, isOwn ▸ there⟩
    have still : (R.destroyContents w player slot).shelf.get? (.inventory player bag slot) =
        some item := by
      rw [emptied.outside, there]
      intro s same
      have isIt := (Place.inventory.inj same).2.1
      exact isBagSlot_ne isSlot (isIt.symm.trans isOwn)
    have rest := held_own still held
    refine ⟨fun e => ?_, fun isFalse => ?_, fun _ => ?_, (emptied.tidy tidy).take _⟩
    · rw [rest]
      exact emptied.fewer e
    · rw [notEmpty] at isFalse
      cases isFalse
    · obtain ⟨e, less⟩ := lost_destroyContents tidy isBagAt inside
      refine ⟨e, ?_⟩
      rw [rest]
      exact less

section Slots

variable {slots : VoidSlot → Option VoidStorageItem} {slot : VoidSlot} {record : VoidStorageItem}

def storedIn (slots : VoidSlot → Option VoidStorageItem) (entry : UInt32) : Nat :=
  Ledger.total (Finset.univ : Finset VoidSlot) fun i => stored entry (slots i)

theorem stored_some (entry : UInt32) (record : VoidStorageItem) :
    stored entry (some record) = if record.itemEntry = entry then 1 else 0 := by
  unfold stored
  rw [Option.any_some]
  simp only [decide_eq_true_eq]

theorem storedIn_update (slots : VoidSlot → Option VoidStorageItem) (slot : VoidSlot)
    (x : Option VoidStorageItem) (entry : UInt32) :
    storedIn (update slots slot x) entry + stored entry (slots slot) =
      storedIn slots entry + stored entry x := by
  have change' := @Ledger.total_change VoidSlot Finset.univ (fun i => stored entry (slots i))
    (fun i => stored entry (update slots slot x i)) slot (Finset.mem_univ slot)
    fun i apart => by rw [update_of_ne apart]
  rw [update_self] at change'
  exact change'

theorem countP_eq_sum {α : Type*} (p : α → Bool) (l : List α) :
    l.countP p = (l.map fun a => if p a then 1 else 0).sum := by
  induction l with
  | nil => rfl
  | cons a rest ih =>
    rw [countP_cons, ih, map_cons, sum_cons, Nat.add_comm]

theorem numOfFreeSlots_eq (slots : VoidSlot → Option VoidStorageItem) : numOfFreeSlots slots =
    Ledger.total (Finset.univ : Finset VoidSlot) fun i => if (slots i).isNone then 1 else 0 := by
  unfold numOfFreeSlots Ledger.total
  rw [countP_eq_sum, Fin.sum_univ_def]

theorem numOfFreeSlots_update (free : slots slot = none) (record : VoidStorageItem) :
    numOfFreeSlots (update slots slot (some record)) + 1 = numOfFreeSlots slots := by
  have change' := @Ledger.total_change VoidSlot Finset.univ
    (fun i => if (slots i).isNone then 1 else 0)
    (fun i => if (update slots slot (some record) i).isNone then 1 else 0) slot
    (Finset.mem_univ slot) fun i apart => by rw [update_of_ne apart]
  have one : (if (none : Option VoidStorageItem).isNone = true then 1 else 0) = 1 := rfl
  have zero : (if (some record).isNone = true then 1 else 0) = 0 := rfl
  rw [update_self, free, one, zero] at change'
  rw [numOfFreeSlots_eq, numOfFreeSlots_eq]
  omega

theorem nextFreeSlot_free (next : nextFreeSlot slots = some slot) : slots slot = none :=
  Option.isNone_iff_eq_none.mp
    (@find?_some _ (fun i => (slots i).isNone) slot (List.finRange 80) next)

theorem nextFreeSlot_of_pos (some : 0 < numOfFreeSlots slots) :
    ∃ slot, nextFreeSlot slots = .some slot := by
  obtain ⟨slot, member, isFree⟩ := List.countP_pos_iff.mp some
  cases next : nextFreeSlot slots with
  | none => exact absurd isFree (List.find?_eq_none.mp next slot member)
  | some slot => exact ⟨slot, rfl⟩

theorem getVoidStorageItem_spec {id : UInt64}
    (found : getVoidStorageItem slots id = some (slot, record)) : slots slot = some record := by
  obtain ⟨i, -, isIt⟩ := exists_of_findSome?_eq_some found
  obtain ⟨r, filtered, same⟩ := Option.map_eq_some_iff.mp isIt
  obtain ⟨rfl, rfl⟩ := Prod.mk.inj same
  exact (Option.filter_eq_some_iff.mp filtered).1

end Slots

/-! ## Deposits -/

section Deposits

variable {t : Transfer} {guid : Nat}

theorem deposit_of_none (notFound : R.getItemByGuid t.vault.world player guid = none) :
    deposit R player t guid = t := by
  unfold deposit
  rw [notFound]

/-- **A deposit**: the item goes, and its record is put into a free slot. -/
structure Deposited (R : ItemRules) (player : UInt64) (t : Transfer) (item : Item)
    (t' : Transfer) : Prop where
  destroyed : Destroys R player item t.vault.world t'.vault.world
  recorded : ∃ slot record, t.vault.voidStorageItems slot = none ∧
    t'.vault.voidStorageItems = update t.vault.voidStorageItems slot (some record) ∧
    t'.deposits = t.deposits ++ [⟨item, t.vault.fields item.guid, record, some slot⟩] ∧
    record.itemEntry = item.entry ∧
    record.creatorGuid = (t.vault.fields item.guid).creator.toUInt32 ∧
    record.itemRandomPropertyId = (t.vault.fields item.guid).randomPropertyId.toUInt32
  fields : t'.vault.fields = t.vault.fields
  money : t'.vault.money = t.vault.money
  withdrawals : t'.withdrawals = t.withdrawals
  stopped : t'.stopped = t.stopped

theorem deposit_of_some (found : R.getItemByGuid t.vault.world player guid = some (k, item))
    (tidy : t.vault.world.Tidy R.maxStack) (room : 0 < numOfFreeSlots t.vault.voidStorageItems) :
    Deposited R player t item (deposit R player t guid) := by
  obtain ⟨reaches, there, -⟩ := getItemByGuid_spec found
  obtain ⟨bag, slot, rfl, reads⟩ := reaches.reads
  obtain ⟨free, next⟩ := nextFreeSlot_of_pos room
  unfold deposit
  rw [found]
  refine ⟨destroys tidy (reads.trans there) there, ?_, rfl, rfl, rfl, rfl⟩
  refine ⟨free, ⟨t.vault.voidItemId + 1, item.entry, (t.vault.fields item.guid).creator.toUInt32,
    (t.vault.fields item.guid).randomPropertyId.toUInt32, (t.vault.fields item.guid).suffixFactor, 0⟩,
    nextFreeSlot_free next, ?_, ?_, rfl, rfl, rfl⟩
  · unfold addVoidStorageItem
    rw [next]
  · rw [next]

theorem units_eq (v : Vault) (entry : UInt32) : v.units player entry =
    Shelf.amount (Place.heldBy player) entry v.world.shelf + storedIn v.voidStorageItems entry := rfl

variable {t' : Transfer}

theorem Deposited.stored (deposited : Deposited R player t item t') (e : UInt32) :
    storedIn t'.vault.voidStorageItems e =
      storedIn t.vault.voidStorageItems e + if item.entry = e then 1 else 0 := by
  obtain ⟨slot, record, free, slots, -, entry, -, -⟩ := deposited.recorded
  have updated := storedIn_update t.vault.voidStorageItems slot (some record) e
  rw [free, ← slots] at updated
  have zero : Vault.stored e none = 0 := rfl
  rw [stored_some, entry, zero, Nat.add_zero] at updated
  exact updated

theorem Deposited.units_le (deposited : Deposited R player t item t') (sized : 1 ≤ item.count)
    (e : UInt32) : t'.vault.units player e ≤ t.vault.units player e := by
  have fewer := deposited.destroyed.fewer e
  rw [units_eq, units_eq, deposited.stored]
  split at fewer
  · rename_i same
    rw [if_pos same]
    omega
  · rename_i other
    rw [if_neg other]
    omega

theorem Deposited.units_iff (deposited : Deposited R player t item t') (sized : 1 ≤ item.count) :
    (∀ e, t'.vault.units player e = t.vault.units player e) ↔
      item.count = 1 ∧ R.isNotEmptyBag t.vault.world item = false := by
  constructor
  · intro same
    have empty : R.isNotEmptyBag t.vault.world item = false := by
      rcases notEmpty : R.isNotEmptyBag t.vault.world item with _ | _
      · rfl
      obtain ⟨e, less⟩ := deposited.destroyed.lost notEmpty
      have units := same e
      rw [units_eq, units_eq, deposited.stored] at units
      split at less
      · rename_i isEntry
        rw [if_pos isEntry] at units
        omega
      · rename_i other
        rw [if_neg other] at units
        omega
    have units := same item.entry
    have whole := deposited.destroyed.whole empty item.entry
    rw [units_eq, units_eq, deposited.stored, if_pos rfl] at units
    rw [if_pos rfl] at whole
    exact ⟨by omega, empty⟩
  · intro single e
    have whole := deposited.destroyed.whole single.2 e
    rw [units_eq, units_eq, deposited.stored]
    rw [single.1] at whole
    omega

theorem creator_fits_iff (creator : UInt64) :
    creator.toUInt32.toUInt64 = creator ↔ creator.toNat < 2 ^ 32 := by
  rw [← UInt64.toNat_inj, UInt32.toNat_toUInt64, UInt64.toNat_toUInt32]
  constructor
  · intro same
    rw [← same]
    exact Nat.mod_lt _ (by decide)
  · exact Nat.mod_eq_of_lt

/-- What the deposits have made of the player's things so far. -/
structure Laid (R : ItemRules) (v : Vault) (t : Transfer) : Prop where
  tidy : t.vault.world.Tidy R.maxStack
  money : t.vault.money = v.money
  withdrawals : t.withdrawals = []
  stopped : t.stopped = false
  kept : ∀ i record, v.voidStorageItems i = some record → t.vault.voidStorageItems i = some record
  placed : ∀ d ∈ t.deposits, ∃ i, d.slot = some i ∧ v.voidStorageItems i = none ∧
    t.vault.voidStorageItems i = some d.record
  origin : ∀ i record, t.vault.voidStorageItems i = some record →
    v.voidStorageItems i = some record ∨ ∃ d ∈ t.deposits, d.record = record

theorem laid_begin {v : Vault} (tidy : v.world.Tidy R.maxStack) : Laid R v v.begin' where
  tidy := tidy
  money := rfl
  withdrawals := rfl
  stopped := rfl
  kept := fun _ _ there => there
  placed := fun _ member => absurd member not_mem_nil
  origin := fun _ _ there => Or.inl there

theorem Laid.deposited {v : Vault} (laid : Laid R v t) (deposited : Deposited R player t item t') :
    Laid R v t' := by
  obtain ⟨slot, record, free, slots, deposits, -⟩ := deposited.recorded
  have wasFree : v.voidStorageItems slot = none := by
    rcases was : v.voidStorageItems slot with _ | r
    · rfl
    have still := laid.kept slot r was
    rw [free] at still
    cases still
  refine ⟨deposited.destroyed.tidy, deposited.money.trans laid.money,
    deposited.withdrawals.trans laid.withdrawals, deposited.stopped.trans laid.stopped, ?_, ?_, ?_⟩
  · intro i r there
    have apart : i ≠ slot := by
      rintro rfl
      rw [wasFree] at there
      cases there
    rw [slots, update_of_ne apart]
    exact laid.kept i r there
  · intro d member
    rw [deposits] at member
    rcases List.mem_append.mp member with before | isNew
    · obtain ⟨i, isSlot, wasFree', there⟩ := laid.placed d before
      have apart : i ≠ slot := by
        rintro rfl
        rw [free] at there
        cases there
      refine ⟨i, isSlot, wasFree', ?_⟩
      rw [slots, update_of_ne apart]
      exact there
    · rw [List.mem_singleton.mp isNew]
      exact ⟨slot, rfl, wasFree, by rw [slots, update_self]⟩
  · intro i r there
    rw [deposits]
    rw [slots] at there
    by_cases isSlot : i = slot
    · subst isSlot
      rw [update_self] at there
      cases there
      exact Or.inr ⟨_, mem_append_right _ (List.mem_singleton.mpr rfl), rfl⟩
    · rw [update_of_ne isSlot] at there
      rcases laid.origin i r there with was | ⟨d, member, same⟩
      · exact Or.inl was
      · exact Or.inr ⟨d, mem_append_left _ member, same⟩

/-- **The loop of the deposits** loses nothing, and its records are what the items were, exactly if
each of its turns deposits one piece. -/
theorem deposits_run {v : Vault} (guids : List Nat) : ∀ {t : Transfer}, Laid R v t →
    guids.length ≤ numOfFreeSlots t.vault.voidStorageItems →
    Laid R v (Machine.run (deposit R player) t guids) ∧
    (Machine.run (deposit R player) t guids).deposits.length ≤ t.deposits.length + guids.length ∧
    (∀ e, (Machine.run (deposit R player) t guids).vault.units player e ≤ t.vault.units player e) ∧
    ((∀ e, (Machine.run (deposit R player) t guids).vault.units player e = t.vault.units player e) ∧
        (∀ d ∈ (Machine.run (deposit R player) t guids).deposits, d.Same) ↔
      (∀ d ∈ t.deposits, d.Same) ∧
        Machine.EachStep (deposit R player) (DepositsPiece R player) t guids) := by
  induction guids with
  | nil =>
    intro t laid _
    refine ⟨laid, Nat.le_refl _, fun e => Nat.le_refl _, ?_⟩
    exact ⟨fun both => ⟨both.2, True.intro⟩, fun both => ⟨fun _ => rfl, both.1⟩⟩
  | cons guid rest ih =>
    intro t laid room
    rw [length_cons] at room
    rw [Machine.run_cons, Machine.eachStep_cons]
    cases found : R.getItemByGuid t.vault.world player guid with
    | none =>
      have same := deposit_of_none found
      have trivial' : DepositsPiece R player t guid := by
        intro k item isIt
        rw [found] at isIt
        cases isIt
      rw [same]
      obtain ⟨laid', few, fewer, exact'⟩ := ih laid (by omega)
      refine ⟨laid', by rw [length_cons]; omega, fewer, exact'.trans ?_⟩
      exact and_congr_right fun _ => ⟨fun later => ⟨trivial', later⟩, fun both => both.2⟩
    | some x =>
      obtain ⟨k, item⟩ := x
      have there := (getItemByGuid_spec found).2.1
      have sized := (laid.tidy.sized k item there).1
      have deposited := deposit_of_some found laid.tidy (by omega)
      obtain ⟨slot, record, free, slots, deposits, entry, creator, property⟩ :=
        deposited.recorded
      have taken := numOfFreeSlots_update free record
      rw [← slots] at taken
      obtain ⟨laid', few, fewer, exact'⟩ := ih (laid.deposited deposited) (by omega)
      have less := deposited.units_le sized
      refine ⟨laid', ?_, fun e => Nat.le_trans (fewer e) (less e), ?_⟩
      · rw [deposits, length_append, length_singleton] at few
        rw [length_cons]
        omega
      -- the total is kept if it is kept in this turn and later
      have chain : (∀ e, (Machine.run (deposit R player) (deposit R player t guid) rest).vault.units
          player e = t.vault.units player e) ↔
          (∀ e, (deposit R player t guid).vault.units player e = t.vault.units player e) ∧
          ∀ e, (Machine.run (deposit R player) (deposit R player t guid) rest).vault.units
            player e = (deposit R player t guid).vault.units player e := by
        constructor
        · intro all
          refine ⟨fun e => ?_, fun e => ?_⟩
          · have := all e
            have := less e
            have := fewer e
            omega
          · have := all e
            have := less e
            have := fewer e
            omega
        · intro both e
          rw [both.2, both.1]
      have same : (⟨item, t.vault.fields item.guid, record, some slot⟩ : Deposit).Same ↔
          (t.vault.fields item.guid).creator.toNat < 2 ^ 32 := by
        rw [← creator_fits_iff]
        unfold Deposit.Same
        rw [entry, creator, property]
        exact ⟨fun all => all.2.1, fun fits => ⟨rfl, fits, rfl⟩⟩
      have before : (∀ d ∈ (deposit R player t guid).deposits, d.Same) ↔
          (∀ d ∈ t.deposits, d.Same) ∧ (t.vault.fields item.guid).creator.toNat < 2 ^ 32 := by
        rw [deposits, ← same]
        simp only [forall_mem_append, forall_mem_singleton]
      have piece : DepositsPiece R player t guid ↔ (item.count = 1 ∧
          R.isNotEmptyBag t.vault.world item = false) ∧
          (t.vault.fields item.guid).creator.toNat < 2 ^ 32 := by
        constructor
        · intro all
          obtain ⟨single, empty, fits⟩ := all k item found
          exact ⟨⟨single, empty⟩, fits⟩
        · intro parts k' item' isIt
          rw [found] at isIt
          cases isIt
          exact ⟨parts.1.1, parts.1.2, parts.2⟩
      rw [chain, and_assoc, exact', before, deposited.units_iff sized, piece]
      constructor
      · intro all
        exact ⟨all.2.1.1, ⟨all.1, all.2.1.2⟩, all.2.2⟩
      · intro all
        exact ⟨all.2.1.1, ⟨all.1, all.2.1.2⟩, all.2.2⟩

end Deposits

/-! ## Withdrawals -/

section Withdrawals

theorem eq_singleton_of_sum {κ : Type*} {dest : List (κ × Nat)} (positive : ∀ pc ∈ dest, 1 ≤ pc.2)
    (total : (dest.map Prod.snd).sum = 1) : ∃ k, dest = [(k, 1)] := by
  cases dest with
  | nil => cases total
  | cons pc rest =>
    have first := positive pc mem_cons_self
    rw [map_cons, sum_cons] at total
    cases rest with
    | nil =>
      obtain ⟨k, n⟩ := pc
      rw [map_nil, sum_nil, Nat.add_zero] at total
      exact ⟨k, by rw [← total]⟩
    | cons next others =>
      have second := positive next (mem_cons_of_mem _ mem_cons_self)
      rw [map_cons, sum_cons] at total
      omega

theorem canStoreEntry_one {entry : UInt32} {dest : ItemPosCountVec} {noSpaceCount : Option Nat}
    (isOk : R.canStoreEntry w player entry none nullBag nullSlot [] 1 false =
      (.ok, dest, noSpaceCount)) :
    ∃ k, dest = [(k, 1)] ∧ k.heldBy player = true ∧
      ∀ u, w.shelf.get? k = some u → u.entry = entry ∧ u.count + 1 ≤ R.maxStack entry := by
  obtain ⟨roomy, reaches, total⟩ := @ItemRules.canStoreEntry_ok R w player entry nullBag nullSlot 1 0
    noSpaceCount dest 0 (by decide) isOk
  have positive : ∀ pc ∈ dest, 1 ≤ pc.2 := fun pc member => (roomy.room pc member).1
  obtain ⟨k, isOne⟩ := eq_singleton_of_sum positive total
  have member : (k, 1) ∈ dest := by
    rw [isOne]
    exact List.mem_singleton.mpr rfl
  refine ⟨k, isOne, heldBy_of_reaches (reaches (k, 1) member), fun u there => ?_⟩
  have fits := (room_newItem.mp (roomy.room (k, 1) member)).2
  rw [there] at fits
  exact fits

theorem newFields_iff (entry : UInt32) (randomPropertyId : Int32) :
    (newFields P entry randomPropertyId).randomPropertyId = randomPropertyId ↔
      randomPropertyId = 0 ∨ P.has randomPropertyId = true := by
  unfold newFields
  by_cases known : randomPropertyId ≠ 0 ∧ P.has randomPropertyId = true
  · rw [if_pos known]
    exact ⟨fun _ => Or.inr known.2, fun _ => rfl⟩
  rw [if_neg known]
  constructor
  · intro same
    exact Or.inl same.symm
  intro either
  rcases either with zero | has
  · exact zero.symm
  · by_contra other
    exact known ⟨fun zero => other zero.symm, has⟩

/-- What a new piece of a record's entry comes to at a place. -/
structure Restored (R : ItemRules) (P : RandomProperties) (player : UInt64) (v : Vault)
    (record : VoidStorageItem) (k : Place) (v' : Vault) (item : Item) (fields : ItemFields) :
    Prop where
  tidy : v'.world.Tidy R.maxStack
  amount : ∀ e, Shelf.amount (Place.heldBy player) e v'.world.shelf =
    Shelf.amount (Place.heldBy player) e v.world.shelf + if record.itemEntry = e then 1 else 0
  slots : v'.voidStorageItems = v.voidStorageItems
  money : v'.money = v.money
  entry : item.entry = record.itemEntry
  creator : fields.creator = record.creatorGuid.toUInt64
  property : fields.randomPropertyId =
    (v.world.shelf.get? k).elim
      (newFields P record.itemEntry record.itemRandomPropertyId.toInt32).randomPropertyId
      fun there => (v.fields there.guid).randomPropertyId

theorem restored {v : Vault} {record : VoidStorageItem} (tidy : v.world.Tidy R.maxStack)
    (held : k.heldBy player = true) (room : ∀ u, v.world.shelf.get? k = some u →
      u.entry = record.itemEntry ∧ u.count + 1 ≤ R.maxStack record.itemEntry) :
    ∃ v' item fields, restore R P player v record [(k, 1)] = (v', some (item, fields)) ∧
      Restored R P player v record k v' item fields := by
  have single : min 1 (R.maxStack record.itemEntry) = 1 :=
    Nat.min_eq_left (R.one_le_maxStack record.itemEntry)
  let next : ItemWorld := { v.world with nextGuid := v.world.nextGuid + 1 }
  let piece := ItemRules.newItem v.world.nextGuid player record.itemEntry 1
  have tidy' : next.Tidy R.handling.maxStack := tidy.later (Nat.le_succ _)
  have absent : ¬ next.Has piece.guid := by
    rintro ⟨j, t, found, same⟩
    exact Nat.ne_of_lt (tidy.old j t found) same
  have fits : R.handling.Room next.shelf.get? piece k 1 := by
    refine ⟨Nat.le_refl _, ?_⟩
    cases there : next.shelf.get? k with
    | none => exact R.one_le_maxStack record.itemEntry
    | some u => exact room u there
  obtain ⟨u, stored⟩ := Handling.stored_storeOne false tidy' (Nat.lt_succ_self _) fits
  have tidied := stored.tidy tidy' absent fits
  have made : R.storeNewItem v.world player record.itemEntry [(k, 1)] =
      R.handling.storeOne false next piece k 1 := by
    rw [ItemRules.storeNewItem]
    change R.storeItem next [(k, 1)] (ItemRules.newItem v.world.nextGuid player record.itemEntry
      (min 1 (R.maxStack record.itemEntry))) = _
    rw [single]
    rfl
  have isThere : (R.handling.storeOne false next piece k 1).shelf.get? k = some u := by
    rw [stored.shelf, Shelf.get?_put, if_pos rfl]
  -- the one that lies there has kept its number
  have number : u.guid = (v.world.shelf.get? k).elim v.world.nextGuid Stack.guid := by
    have shelf := isThere
    rw [Handling.storeOne] at shelf
    cases there : next.shelf.get? k with
    | none =>
      rw [there] at shelf
      rw [if_neg Bool.false_ne_true, Store.put, Shelf.get?_put, if_pos rfl] at shelf
      cases shelf
      rfl
    | some t =>
      rw [there] at shelf
      dsimp only at shelf
      rw [Store.put, Shelf.get?_put, if_pos rfl] at shelf
      cases shelf
      rfl
  unfold restore
  rw [made]
  dsimp only [List.getLast?_singleton, Option.bind_some]
  rw [isThere]
  refine ⟨_, _, _, rfl, ?_, ?_, rfl, rfl, stored.entry, rfl, ?_⟩
  · exact tidied.put (tidied.sized k u isThere) stored.old fun j t found same =>
      tidied.apart j k t u found isThere same
  · intro e
    have first := Shelf.amount_put (Place.heldBy player) e next.shelf k u
    rw [← stored.shelf] at first
    have second := Shelf.amount_put (Place.heldBy player) e
      (R.handling.storeOne false next piece k 1).shelf k
      { u with attrs := { u.attrs with soulBound := true } }
    rw [isThere, Store.held_inside e held, Store.held_inside e held] at second
    dsimp only at second
    rw [Store.held_inside e held, stored.counted, stored.entry] at first
    have before : Shelf.held (Place.heldBy player) e k (next.shelf.get? k) =
        if record.itemEntry = e then (next.shelf.get? k).elim 0 Stack.count else 0 := by
      cases there : next.shelf.get? k with
      | none => exact (ite_self 0).symm
      | some t => rw [Store.held_inside e held, (room t there).1]; rfl
    rw [before] at first
    change Shelf.amount _ e (Store.shelf (R.handling.storeOne false next piece k 1)) +
      (if record.itemEntry = e then (next.shelf.get? k).elim 0 Stack.count else 0) =
      Shelf.amount _ e v.world.shelf +
      (if record.itemEntry = e then (next.shelf.get? k).elim 0 Stack.count + 1 else 0) at first
    change Shelf.amount _ e (Shelf.put (Store.shelf (R.handling.storeOne false next piece k 1)) k
      { u with attrs := { u.attrs with soulBound := true } }) = _
    generalize Shelf.amount (Place.heldBy player) e
      (Shelf.put (Store.shelf (R.handling.storeOne false next piece k 1)) k
      { u with attrs := { u.attrs with soulBound := true } }) = after at second ⊢
    by_cases same : record.itemEntry = e
    · rw [if_pos same, if_pos same] at first
      rw [if_pos same]
      omega
    · rw [if_neg same, if_neg same] at first
      rw [if_neg same]
      omega
  · change (update v.fields v.world.nextGuid (newFields P record.itemEntry
      record.itemRandomPropertyId.toInt32) u.guid).randomPropertyId = _
    rw [number]
    cases there : v.world.shelf.get? k with
    | none =>
      change (update v.fields v.world.nextGuid _ v.world.nextGuid).randomPropertyId = _
      rw [update_self]
      rfl
    | some t =>
      change (update v.fields v.world.nextGuid _ t.guid).randomPropertyId = _
      rw [update_of_ne (Nat.ne_of_lt (tidy.old k t there))]
      rfl

/-- What withdrawals do: pieces go from the slots to the inventory, and nothing else changes. -/
structure Unloads (R : ItemRules) (player : UInt64) (t t' : Transfer) : Prop where
  tidy : t'.vault.world.Tidy R.maxStack
  units : ∀ e, t'.vault.units player e = t.vault.units player e
  money : t'.vault.money = t.vault.money
  deposits : t'.deposits = t.deposits
  withdrawals : ∀ x ∈ t.withdrawals, x ∈ t'.withdrawals
  slots : ∀ i, t'.vault.voidStorageItems i = t.vault.voidStorageItems i ∨
    t'.vault.voidStorageItems i = none ∧
      ∃ record, t.vault.voidStorageItems i = some record ∧ ∃ x ∈ t'.withdrawals, x.record = record
  origin : ∀ x ∈ t'.withdrawals, x ∈ t.withdrawals ∨
    ∃ i, t.vault.voidStorageItems i = some x.record

variable {t t' : Transfer} {id : UInt64}

theorem Unloads.refl (tidy : t.vault.world.Tidy R.maxStack) : Unloads R player t t :=
  ⟨tidy, fun _ => rfl, rfl, rfl, fun _ member => member, fun _ => Or.inl rfl, fun _ => Or.inl⟩

theorem Unloads.trans {t'' : Transfer} (first : Unloads R player t t')
    (later : Unloads R player t' t'') : Unloads R player t t'' where
  tidy := later.tidy
  units := fun e => (later.units e).trans (first.units e)
  money := later.money.trans first.money
  deposits := later.deposits.trans first.deposits
  withdrawals := fun x member => later.withdrawals x (first.withdrawals x member)
  slots := by
    intro i
    rcases later.slots i with still | ⟨empty, record, was, taken⟩
    · rcases first.slots i with same | ⟨empty, record, was, x, member, isIt⟩
      · exact Or.inl (still.trans same)
      · exact Or.inr ⟨still.trans empty, record, was, x, later.withdrawals x member, isIt⟩
    · rcases first.slots i with same | ⟨gone, -⟩
      · exact Or.inr ⟨empty, record, same.symm.trans was, taken⟩
      · rw [gone] at was
        cases was
  origin := by
    intro x member
    rcases later.origin x member with before | ⟨i, was⟩
    · exact first.origin x before
    · rcases first.slots i with same | ⟨gone, -⟩
      · exact Or.inr ⟨i, same.symm.trans was⟩
      · rw [gone] at was
        cases was

/-- **A withdrawal** makes one piece of the record it takes, and the piece is what the record says
exactly if it is withdrawn alike. -/
theorem withdraw_spec (tidy : t.vault.world.Tidy R.maxStack) (id : UInt64) :
    Unloads R player t (withdraw R P player t id) ∧
      ((∀ x ∈ (withdraw R P player t id).withdrawals, x.Same) ↔
        (∀ x ∈ t.withdrawals, x.Same) ∧ WithdrawsAlike R P player t id) := by
  unfold withdraw
  by_cases stopped : t.stopped = true
  · rw [if_pos stopped]
    refine ⟨Unloads.refl tidy, fun all => ⟨all, fun goes => ?_⟩, fun both => both.1⟩
    rw [stopped] at goes
    cases goes
  rw [if_neg stopped]
  have goes : t.stopped = false := Bool.eq_false_iff.mpr stopped
  cases found : getVoidStorageItem t.vault.voidStorageItems id with
  | none =>
    refine ⟨Unloads.refl tidy, fun all => ⟨all, fun _ slot record isIt => ?_⟩, fun both => both.1⟩
    rw [found] at isIt
    cases isIt
  | some x =>
    obtain ⟨slot, record⟩ := x
    have there := getVoidStorageItem_spec found
    dsimp only
    generalize answer : R.canStoreEntry t.vault.world player record.itemEntry none nullBag nullSlot
      [] 1 false = plan
    obtain ⟨msg, dest, noSpaceCount⟩ := plan
    by_cases refused : msg ≠ .ok
    · rw [if_pos refused]
      refine ⟨⟨tidy, fun _ => rfl, rfl, rfl, fun _ member => member, fun _ => Or.inl rfl,
        fun _ => Or.inl⟩, fun all => ⟨all, ?_⟩, fun both => both.1⟩
      intro _ slot' record' isIt k n noSpaceCount' isOk
      rw [found] at isIt
      cases isIt
      rw [answer] at isOk
      exact absurd (Prod.mk.inj isOk).1 refused
    · rw [if_neg refused]
      obtain rfl : msg = .ok := not_not.mp refused
      obtain ⟨k, rfl, held, room⟩ := canStoreEntry_one answer
      obtain ⟨v', item, fields, made, restored⟩ := @restored R P player k _ record tidy held room
      rw [made]
      dsimp only [Option.toList]
      refine ⟨⟨restored.tidy, ?_, restored.money, rfl,
        fun x member => mem_append_left _ member, ?_, ?_⟩, ?_⟩
      · intro e
        have updated := storedIn_update t.vault.voidStorageItems slot none e
        have nothing : stored e none = 0 := rfl
        rw [there, stored_some, nothing] at updated
        rw [units_eq, units_eq, restored.slots]
        dsimp only
        rw [restored.amount]
        omega
      · intro i
        rw [restored.slots]
        dsimp only
        by_cases isSlot : i = slot
        · subst isSlot
          rw [update_self]
          exact Or.inr ⟨rfl, record, there, _, mem_append_right _ mem_cons_self, rfl⟩
        · rw [update_of_ne isSlot]
          exact Or.inl rfl
      · intro x member
        rcases List.mem_append.mp member with before | isNew
        · exact Or.inl before
        · rw [map_singleton, mem_singleton] at isNew
          rw [isNew]
          exact Or.inr ⟨slot, there⟩
      · have same : (⟨record, item, fields⟩ : Withdrawal).Same ↔
            fields.randomPropertyId = record.itemRandomPropertyId.toInt32 :=
          ⟨fun all => all.2.2, fun alike => ⟨restored.entry, restored.creator, alike⟩⟩
        have alike : WithdrawsAlike R P player t id ↔
            fields.randomPropertyId = record.itemRandomPropertyId.toInt32 := by
          rw [restored.property]
          constructor
          · intro all
            have here := all goes slot record found k 1 noSpaceCount answer
            cases lies : t.vault.world.shelf.get? k with
            | none =>
              rw [lies] at here
              exact (newFields_iff _ _).mpr here
            | some u =>
              rw [lies] at here
              exact here
          · intro alike _ slot' record' isIt k' n noSpaceCount' isOk
            rw [found] at isIt
            cases isIt
            rw [answer] at isOk
            cases isOk
            cases lies : t.vault.world.shelf.get? k with
            | none =>
              rw [lies] at alike
              exact (newFields_iff _ _).mp alike
            | some u =>
              rw [lies] at alike
              exact alike
        rw [alike, ← same]
        simp only [map_singleton, forall_mem_append, forall_mem_singleton]

/-- **The loop of the withdrawals** loses nothing, and makes what the records say exactly if each of
its turns withdraws alike. -/
theorem withdrawals_run (ids : List UInt64) : ∀ {t : Transfer}, t.vault.world.Tidy R.maxStack →
    Unloads R player t (Machine.run (withdraw R P player) t ids) ∧
      ((∀ x ∈ (Machine.run (withdraw R P player) t ids).withdrawals, x.Same) ↔
        (∀ x ∈ t.withdrawals, x.Same) ∧
          Machine.EachStep (withdraw R P player) (WithdrawsAlike R P player) t ids) := by
  induction ids with
  | nil => exact fun tidy => ⟨Unloads.refl tidy, fun all => ⟨all, True.intro⟩, fun both => both.1⟩
  | cons id rest ih =>
    intro t tidy
    obtain ⟨unloads, now⟩ := @withdraw_spec R P player t tidy id
    obtain ⟨later, exact'⟩ := ih unloads.tidy
    rw [Machine.run_cons, Machine.eachStep_cons]
    refine ⟨unloads.trans later, ?_⟩
    rw [exact', now, and_assoc]

end Withdrawals

section Transfers

variable {v : Vault} {t : Transfer}

def withMoney (t : Transfer) (money : UInt64) : Transfer :=
  { t with vault := { t.vault with money := money } }

theorem money_withMoney (t : Transfer) (money : UInt64) : (withMoney t money).vault.money = money :=
  rfl

-- to look at a transfer after the fee without computing the fee
theorem charge_eq (t : Transfer) : charge t = withMoney t (modifyMoneyCall t.vault.money
    (Int64.ofInt (-(t.deposits.length * voidStorageStoreItem : Nat)))).2 := rfl

theorem money_charge (t : Transfer) {n : Nat} (few : t.deposits.length ≤ n) (nine : n ≤ 9)
    (enough : hasEnoughMoney t.vault.money (UInt64.ofNat (n * voidStorageStoreItem)) = true) :
    (charge t).vault.money.toNat + t.deposits.length * voidStorageStoreItem =
      t.vault.money.toNat := by
  have affordable := hasEnoughMoney_iff.mp enough
  rw [UInt64.toNat_ofNat', voidStorageStoreItem, Nat.mod_eq_of_lt (by omega)] at affordable
  have cost : (Int64.ofInt (-(t.deposits.length * voidStorageStoreItem : Nat))).toInt =
      -(t.deposits.length * voidStorageStoreItem : Nat) := by
    have size : Int64.size = 2 ^ 64 := rfl
    rw [voidStorageStoreItem, Int64.toInt_ofInt, size, Int.bmod_eq_of_le (by omega) (by omega)]
  rw [charge_eq, money_withMoney]
  unfold voidStorageStoreItem at cost ⊢
  by_cases some : 0 < t.deposits.length
  · have paid := (modifyMoneyCall_neg t.vault.money (by rw [cost]; omega)).2
    rw [paid, cost]
    omega
  have none' : t.deposits.length = 0 := by omega
  rw [none'] at cost ⊢
  have large : maxMoneyAmount.toNat = 9999999999 := by decide
  rcases @modifyMoneyCall_add t.vault.money _ (by rw [cost]; omega) (by rw [cost]; omega)
    with refused | ⟨-, sum, -⟩
  · rw [refused]
    dsimp only
    omega
  · rw [cost] at sum
    omega

theorem conserves_run (money : UInt64) {pieces : Prop} (laid : Laid R v t)
    (fee : money.toNat + t.deposits.length * voidStorageStoreItem = t.vault.money.toNat)
    (deposits : (∀ e, t.vault.units player e = v.units player e) ∧ (∀ d ∈ t.deposits, d.Same) ↔
      pieces) (itemIds : List UInt64) :
    Conserves player v (Machine.run (withdraw R P player) (withMoney t money) itemIds) ↔
      pieces ∧ Machine.EachStep (withdraw R P player) (WithdrawsAlike R P player)
        (withMoney t money) itemIds := by
  obtain ⟨unloads, withdrawals⟩ :=
    @withdrawals_run R P player itemIds (withMoney t money) laid.tidy
  generalize Machine.run (withdraw R P player) (withMoney t money) itemIds = t'
    at unloads withdrawals
  have units : ∀ e, t'.vault.units player e = t.vault.units player e := unloads.units
  have sameDeposits : t'.deposits = t.deposits := unloads.deposits
  have paid : t'.vault.money = money := unloads.money
  have noWithdrawal : ∀ x ∈ (withMoney t money).withdrawals, x.Same := by
    change ∀ x ∈ t.withdrawals, x.Same
    rw [laid.withdrawals]
    exact fun _ member => absurd member not_mem_nil
  constructor
  · intro conserves
    have all := conserves.units
    have same := conserves.deposited
    rw [sameDeposits] at same
    exact ⟨deposits.mp ⟨fun e => (units e).symm.trans (all e), same⟩,
      (withdrawals.mp conserves.withdrawn).2⟩
  · rintro ⟨made, alike⟩
    obtain ⟨all, same⟩ := deposits.mpr made
    refine ⟨fun e => (units e).trans (all e), sameDeposits ▸ same,
      withdrawals.mpr ⟨noWithdrawal, alike⟩, ?_, ?_, ?_, ?_⟩
    · rw [paid, sameDeposits, fee, laid.money]
    · intro i record there
      have still := laid.kept i record there
      rcases unloads.slots i with same | ⟨gone, record', was, taken⟩
      · exact Or.inl (same.trans still)
      · cases still.symm.trans was
        exact Or.inr ⟨gone, taken⟩
    · intro d member
      rw [sameDeposits] at member
      obtain ⟨i, isSlot, wasFree, there⟩ := laid.placed d member
      refine ⟨i, isSlot, wasFree, ?_⟩
      rcases unloads.slots i with same | ⟨gone, record', was, taken⟩
      · exact Or.inl (same.trans there)
      · cases there.symm.trans was
        exact Or.inr ⟨gone, taken⟩
    · intro x member
      rcases unloads.origin x member with before | ⟨i, was⟩
      · have nothing : t.withdrawals = [] := laid.withdrawals
        change x ∈ t.withdrawals at before
        rw [nothing] at before
        exact absurd before not_mem_nil
      · rcases laid.origin i x.record was with own | fresh
        · exact Or.inl ⟨i, own⟩
        · rw [sameDeposits]
          exact Or.inr fresh

/-- **A transfer conserves what the player has exactly if each deposit is of one piece and each
withdrawal makes what its record says.** -/
theorem conserves_iff (tidy : v.world.Tidy R.maxStack) (admitted : Bool) (itemGuids : List Nat)
    (itemIds : List UInt64) :
    Conserves player v (handleVoidStorageTransfer R P player admitted v itemGuids itemIds) ↔
      (admits R player admitted v itemGuids itemIds = true →
        Machine.EachStep (deposit R player) (DepositsPiece R player) v.begin' itemGuids ∧
        Machine.EachStep (withdraw R P player) (WithdrawsAlike R P player)
          (charge (Machine.run (deposit R player) v.begin' itemGuids)) itemIds) := by
  unfold handleVoidStorageTransfer
  by_cases admits' : admits R player admitted v itemGuids itemIds = true
  swap
  · rw [if_neg admits']
    have none' : v.begin'.deposits = [] := rfl
    have money : v.begin'.vault.money = v.money := rfl
    refine ⟨fun _ isTrue => absurd isTrue admits', fun _ => ?_⟩
    exact ⟨fun _ => rfl, fun _ member => absurd member not_mem_nil,
      fun _ member => absurd member not_mem_nil, by rw [none', money, length_nil, Nat.zero_mul]; rfl,
      fun _ _ there => Or.inl there, fun _ member => absurd member not_mem_nil,
      fun _ member => absurd member not_mem_nil⟩
  rw [if_pos admits']
  have checks := admits'
  unfold admits at checks
  simp only [Bool.and_eq_true, decide_eq_true_eq] at checks
  obtain ⟨⟨⟨⟨⟨-, few⟩, -⟩, room⟩, -⟩, enough⟩ := checks
  obtain ⟨laid, length, -, deposits⟩ := @deposits_run R player v itemGuids v.begin'
    (laid_begin tidy) room
  have began : v.begin'.deposits.length + itemGuids.length = itemGuids.length := Nat.zero_add _
  rw [began] at length
  have fee := money_charge _ length few (laid.money ▸ enough)
  generalize Machine.run (deposit R player) v.begin' itemGuids = t at laid length deposits fee
  have noDeposit : ∀ d ∈ v.begin'.deposits, d.Same := fun _ member => absurd member not_mem_nil
  rw [and_iff_right noDeposit] at deposits
  rw [charge_eq, money_withMoney] at fee
  rw [charge_eq, conserves_run _ laid fee deposits]
  exact ⟨fun both _ => both, fun both => both admits'⟩

/-- Void storage that is empty, a stack of trade goods in the backpack, and the money for nine
deposits. -/
def stackedVault (count : Nat) : Vault where
  world :=
    { shelf :=
        { toList := [⟨.inventory 1 255 23, ItemRules.newItem 10 1 1 count⟩]
          nodup := nodup_singleton _ }
      nextGuid := 20 }
  fields := fun _ => ⟨1, 0, 0⟩
  voidStorageItems := fun _ => none
  money := 2250000
  voidItemId := 0

def noProperties : RandomProperties := ⟨fun _ => false, id⟩

theorem conserves_single : Conserves 1 (stackedVault 1)
    (handleVoidStorageTransfer (.tradeGoods 0) noProperties 1 true (stackedVault 1) [10] []) := by
  have found : (ItemRules.tradeGoods 0).getItemByGuid (stackedVault 1).world 1 10 =
      some (.inventory 1 255 23, ItemRules.newItem 10 1 1 1) := by decide +kernel
  refine (conserves_iff (Store.tidy_of_forall (by decide) (by decide)) true [10] []).mpr fun _ =>
    ⟨⟨fun k item isIt => ?_, True.intro⟩, True.intro⟩
  have same := Option.some.inj (isIt.symm.trans found)
  obtain ⟨-, rfl⟩ := Prod.mk.inj same
  exact ⟨rfl, by decide +kernel, by decide⟩

/-- **Of a stack of two, one piece is left.** -/
theorem not_conserves_pair : ¬ Conserves 1 (stackedVault 2)
    (handleVoidStorageTransfer (.tradeGoods 0) noProperties 1 true (stackedVault 2) [10] []) := by
  intro conserves
  have before : (stackedVault 2).units 1 1 = 2 := by decide +kernel
  have after : (handleVoidStorageTransfer (.tradeGoods 0) noProperties 1 true (stackedVault 2) [10]
      []).vault.units 1 1 = 1 := by decide +kernel
  have same := conserves.units 1
  rw [before, after] at same
  cases same

end Transfers

end Vault

end Sky548
