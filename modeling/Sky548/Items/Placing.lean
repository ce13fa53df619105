import Sky548.Items.Moving

/-!
# What the checks of a move promise

A position that a packet names exactly and that `CanStoreItem` or `CanBankItem` accepts takes all
that has room there (`SpecificFirst`); one that `CanEquipItem` accepts is the slot that was asked
for, and nothing happens meanwhile, as long as `FindEquipSlot` leaves the off hand alone
(`canPutAt_spec`).
-/

namespace Sky548

open List

namespace ItemPos

variable {pos : ItemPos}

/-- A position that is named exactly. -/
def Exact (pos : ItemPos) : Prop := pos.bag ≠ nullBag ∧ pos.slot ≠ nullSlot

/-- A position of some kind. -/
def Kind (pos : ItemPos) : Prop := (pos.isInventory || pos.isBank || pos.isEquipment) = true

theorem bag_of_isEquipment (worn : pos.isEquipment = true) :
    pos.bag = inventorySlotBag0 ∧ pos.slot.toNat < inventorySlotBagEnd := by
  rw [isEquipment, Bool.or_eq_true, Bool.and_eq_true, Bool.and_eq_true, Bool.and_eq_true,
    decide_eq_true_eq, decide_eq_true_eq, decide_eq_true_eq] at worn
  rcases worn with ⟨own, small⟩ | ⟨own, -, small⟩
  · exact ⟨own, Nat.lt_trans small (by decide)⟩
  · exact ⟨own, of_decide_eq_true small⟩

theorem ne_nullSlot_of_isEquipment (worn : pos.isEquipment = true) : pos.slot ≠ nullSlot := by
  intro isNull
  have small := (bag_of_isEquipment worn).2
  rw [isNull] at small
  exact absurd small (by decide)

end ItemPos

namespace ItemRules

variable {R : ItemRules} {w : ItemWorld} {player : UInt64} {item : Item} {now : Wearer}

theorem keeps_canStoreItemInSlots {slotBegin slotEnd : Nat} (small : slotEnd ≤ bankSlotBagEnd)
    {skipBag skipSlot : UInt8} {merge : Bool} :
    Keeps R w player item
      (R.canStoreItemInSlots w player slotBegin slotEnd merge item skipBag skipSlot) :=
  keeps_ofEmpty (by decide) fun _ sound => sound.search merge fun _ member =>
    reaches_slotPlaces small (mem_of_mem_filter member)

theorem keeps_bankPasses :
    ∀ pass ∈ R.bankPasses w player bag slot false item, Keeps R w player item pass := by
  intro pass member
  have slots : ∀ merge, Keeps R w player item
      (R.canStoreItemInSlots w player bankSlotItemStart bankSlotItemEnd merge item bag slot) :=
    fun merge => keeps_canStoreItemInSlots (by decide)
  have named : ∀ merge, Keeps R w player item (if bag = inventorySlotBag0 then
      R.canStoreItemInSlots w player bankSlotItemStart bankSlotItemEnd merge item bag slot
      else R.inNamedBag w player bag slot merge item) := by
    intro merge
    split
    · exact slots merge
    · exact keeps_inNamedBag
  simp only [bankPasses, mem_append, mem_ite_nil_right, mem_singleton] at member
  rcases member with (((((specific | inNamed) | stacked) | special) | free) | inBags) | last
  · obtain ⟨-, rfl⟩ := specific
    exact keeps_canStoreItemInSpecificSlot
  · obtain ⟨-, (rfl | ⟨-, rfl⟩) | rfl⟩ := inNamed
    · exact keeps_ofEmpty (by decide) fun _ => id
    · exact named true
    · exact named false
  · obtain ⟨-, (rfl | ⟨-, inBags⟩) | inBags⟩ := stacked
    · exact slots true
    · exact keeps_bags inBags
    · exact keeps_bags inBags
  · exact keeps_bags special.2
  · subst free
    exact slots false
  · exact keeps_bags inBags
  · subst last
    exact keeps_of_gives fun _ => gives_error (by decide)

variable {dest : ItemPosCountVec} {swap : Bool}

theorem tryPasses_of_canBankItem {dest' : ItemPosCountVec}
    (can : R.canBankItem w player now bag slot dest item swap = (.ok, dest')) :
    tryPasses 0 (R.bankPasses w player bag slot swap item) ⟨dest, item.count⟩ = (.ok, dest') := by
  rw [canBankItem] at can
  split at can
  · rename_i error refused
    obtain ⟨rfl, -⟩ := Prod.mk.inj can
    unfold refusesBank at refused
    split at refused
    · cases refused
    split at refused
    · cases refused
    split at refused
    · cases refused
    split at refused
    · rename_i notOk
      exact absurd (Option.some.inj refused) notOk
    split at refused
    · split at refused
      · cases refused
      split at refused
      · cases refused
      split at refused
      · rename_i notOk
        exact absurd (Option.some.inj refused) notOk
      · cases refused
    · cases refused
  · exact can

theorem fits_canBankItem (sized : 1 ≤ item.count ∧ item.count ≤ R.maxStack item.entry)
    (can : R.canBankItem w player now bag slot [] item false = (.ok, dest)) :
    R.handling.Fits (R.seenAt w player item) item dest ∧
      ∀ pc ∈ dest, Reaches R w player pc.1 :=
  fits_tryPasses keeps_bankPasses Reserving.sound_nil (Nat.pos_iff_ne_zero.mp sized.1)
    (tryPasses_of_canBankItem can)

/-- What a search says of an exact position that comes first: how much room there is, and that all
of the item goes there if it has room. -/
structure SpecificFirst (R : ItemRules) (w : ItemWorld) (player : UInt64) (item : Item)
    (pos : ItemPos) (swap : Bool) (dest : ItemPosCountVec) : Prop where
  bag : R.isNotEmptyBag w item = true → pos.isBagPos = true
  free : swap = true ∨ R.seen w player item pos.bag pos.slot = none →
    item.count ≤ R.maxStack item.entry → dest = [(pos.place player, item.count)]
  joins : swap = false → ∀ u, R.seen w player item pos.bag pos.slot = some u →
    u.entry = item.entry ∧ u.count < R.maxStack item.entry ∧
      (item.count + u.count ≤ R.maxStack item.entry → dest = [(pos.place player, item.count)])

theorem canStoreItemInSpecificSlot_ok {r r' : Reserving Place}
    (passed : R.canStoreItemInSpecificSlot w player bag slot swap item r = .ok r') :
    (R.isNotEmptyBag w item = true → isBagPos bag slot = true) ∧
      ((swap = true ∨ R.seen w player item bag slot = none) ∧
          r' = r.reserve (.inventory player bag slot) (R.maxStack item.entry) ∨
        swap = false ∧ ∃ u, R.seen w player item bag slot = some u ∧
          u.entry = item.entry ∧ u.count < R.maxStack item.entry ∧
          r' = r.reserve (.inventory player bag slot) (R.maxStack item.entry - u.count)) := by
  rw [canStoreItemInSpecificSlot] at passed
  split at passed
  · cases passed
  rename_i notFull
  have bagPos : R.isNotEmptyBag w item = true → isBagPos bag slot = true := by
    intro full
    rw [full, Bool.true_and, Bool.not_eq_true', Bool.not_eq_false] at notFull
    exact notFull
  refine ⟨bagPos, ?_⟩
  cases there : (if swap = true then none else R.seen w player item bag slot) with
  | none =>
    left
    refine ⟨?_, ?_⟩
    · by_cases swaps : swap = true
      · exact Or.inl swaps
      · rw [if_neg swaps] at there
        exact Or.inr there
    · rw [there] at passed
      dsimp only at passed
      split at passed
      · split at passed
        · cases passed
        · exact (Except.ok.inj passed).symm
      split at passed
      · cases passed
      split at passed
      · cases passed
      · split at passed
        · cases passed
        · exact (Except.ok.inj passed).symm
  | some u =>
    right
    have seen : swap = false ∧ R.seen w player item bag slot = some u := by
      cases swap with
      | true => cases there
      | false => exact ⟨rfl, there⟩
    refine ⟨seen.1, u, seen.2, ?_⟩
    rw [there] at passed
    dsimp only at passed
    cases may : R.canBeMergedPartlyWith u item.entry with
    | ok =>
      rw [may] at passed
      obtain ⟨same, below⟩ := of_canBeMergedPartlyWith may
      exact ⟨same, below, (Except.ok.inj passed).symm⟩
    | _ =>
      rw [may] at passed
      cases passed

variable {pos : ItemPos}

theorem specificFirst_of_tryPasses {rest : List Pass}
    (found : tryPasses 0 (R.canStoreItemInSpecificSlot w player pos.bag pos.slot swap item :: rest)
      ⟨[], item.count⟩ = (.ok, dest)) : SpecificFirst R w player item pos swap dest := by
  rw [tryPasses] at found
  cases passed : R.canStoreItemInSpecificSlot w player pos.bag pos.slot swap item
      ⟨[], item.count⟩ with
  | error error =>
    rw [passed] at found
    obtain ⟨rfl, -⟩ := Prod.mk.inj found
    exact absurd passed (fails_canStoreItemInSpecificSlot _)
  | ok r =>
    rw [passed] at found
    obtain ⟨bag, room⟩ := canStoreItemInSpecificSlot_ok passed
    have whole : ∀ space, item.count ≤ space →
        r = Reserving.reserve ⟨[], item.count⟩ (pos.place player) space →
        dest = [(pos.place player, item.count)] := by
      intro space fits isR
      have unnamed : pos.place player ∉ ([] : ItemPosCountVec).map Prod.fst := not_mem_nil
      rw [isR, Reserving.reserve_of_new unnamed] at found
      dsimp only at found
      rw [Nat.min_eq_right fits, Nat.sub_self, if_pos rfl, if_pos rfl, nil_append] at found
      exact (Prod.mk.inj found).2.symm
    refine ⟨bag, fun isFree small => ?_, fun notSwap u seen => ?_⟩
    · rcases room with ⟨-, isR⟩ | ⟨notSwap, u, seen, -⟩
      · exact whole _ small isR
      rcases isFree with swaps | none
      · rw [notSwap] at swaps
        cases swaps
      · rw [none] at seen
        cases seen
    · rcases room with ⟨isFree, -⟩ | ⟨-, u', seen', entry, below, isR⟩
      · rcases isFree with swaps | none
        · rw [notSwap] at swaps
          cases swaps
        · rw [none] at seen
          cases seen
      · obtain rfl := Option.some.inj (seen.symm.trans seen')
        exact ⟨entry, below, fun fits => whole _ (by omega) isR⟩

theorem specificFirst_of_canStoreItem
    (definite : pos.Exact) (small : item.count ≤ R.maxStack item.entry)
    (can : R.canStoreItem w player pos.bag pos.slot [] item swap = (.ok, dest)) :
    SpecificFirst R w player item pos swap dest := by
  have first : ∀ swap, R.passes w player pos.bag pos.slot swap item =
      R.canStoreItemInSpecificSlot w player pos.bag pos.slot swap item ::
        (R.passes w player pos.bag pos.slot false item).tail := by
    intro swap
    have both : pos.bag ≠ nullBag ∧ pos.slot ≠ nullSlot := definite
    rw [passes, passes, if_pos both, if_pos both]
    rfl
  have fails : ∀ pass ∈ R.passes w player pos.bag pos.slot swap item, ∀ r, pass r ≠ .error .ok := by
    intro pass member
    rw [first] at member
    rcases List.mem_cons.mp member with rfl | later
    · exact fails_canStoreItemInSpecificSlot
    · exact (keeps_passes pass (mem_of_mem_tail later)).fails
  have found := tryPasses_of_canStoreItem small fails can
  rw [first] at found
  exact specificFirst_of_tryPasses found

theorem specificFirst_of_canBankItem (definite : pos.Exact)
    (can : R.canBankItem w player now pos.bag pos.slot [] item swap = (.ok, dest)) :
    SpecificFirst R w player item pos swap dest := by
  have first : R.bankPasses w player pos.bag pos.slot swap item =
      R.canStoreItemInSpecificSlot w player pos.bag pos.slot swap item ::
        (R.bankPasses w player pos.bag pos.slot swap item).tail := by
    have both : pos.bag ≠ nullBag ∧ pos.slot ≠ nullSlot := definite
    rw [bankPasses, if_pos both]
    rfl
  have found := tryPasses_of_canBankItem can
  rw [first] at found
  exact specificFirst_of_tryPasses found

/-- Finding a slot for an item of that entry unequips the off-hand item. -/
def Forces (R : ItemRules) (now : Wearer) (w : ItemWorld) (player : UInt64) (entry : UInt32) :
    Prop :=
  (R.getItemByPos w player inventorySlotBag0 equipmentSlotOffhand).isSome ∧
    R.forcesOffhand w player (R.getItemTemplate entry) ∧
    ((R.getItemTemplate entry).inventoryType.toNat ∈ [15, 17, 25, 26] ∨
      (R.getItemTemplate entry).inventoryType.toNat = 28 ∧ now.wearsRelics)

variable {s : Belongings}

theorem autoUnequipOffhandIfNeed_of_none {force : Bool}
    (none : R.getItemByPos s.items player inventorySlotBag0 equipmentSlotOffhand = none) :
    R.autoUnequipOffhandIfNeed player now s force = s := by
  rw [autoUnequipOffhandIfNeed, itemAtPos, none]

theorem equipSlots_snd {entry : UInt32} (free : ¬ Forces R now s.items player entry) :
    (R.equipSlots player now s (R.getItemTemplate entry)).2 = s := by
  have cleared : (R.getItemTemplate entry).inventoryType.toNat ∈ [15, 17, 25, 26] ∨
      (R.getItemTemplate entry).inventoryType.toNat = 28 ∧ now.wearsRelics →
      (if R.forcesOffhand s.items player (R.getItemTemplate entry) then
        R.autoUnequipOffhandIfNeed player now s true else s) = s := by
    intro type
    split
    · rename_i forced
      refine autoUnequipOffhandIfNeed_of_none ?_
      rcases offhand : R.getItemByPos s.items player inventorySlotBag0 equipmentSlotOffhand with _ | offItem
      · rfl
      refine absurd ⟨?_, forced, type⟩ free
      rw [offhand]
      rfl
    · rfl
  unfold equipSlots
  -- most kinds of items only name their slots
  split
  all_goals first
    | rfl
    | (rename_i type
       exact cleared (Or.inl (by rw [type]; decide)))
    | skip
  rename_i type
  split
  · rename_i wears
    exact cleared (Or.inr ⟨type, wears⟩)
  · rfl

theorem slots_of_isBag (isBag : R.isBag item = true) :
    (R.equipSlots player now s (R.getItemTemplate item.entry)).1 = [19, 20, 21, 22] := by
  have type : (R.getItemTemplate item.entry).inventoryType = invtypeBag := of_decide_eq_true isBag
  unfold equipSlots
  rw [type]
  rfl

variable {s' : Belongings} {eslot : UInt8}

theorem findEquipSlot_some {proto : ItemProto} (definite : slot ≠ nullSlot)
    (found : R.findEquipSlot player now s proto slot swap = (some eslot, s')) :
    s' = (R.equipSlots player now s proto).2 ∧ eslot = slot ∧
      slot ∈ (R.equipSlots player now s proto).1 ∧
      (swap = false → R.getItemByPos s'.items player inventorySlotBag0 slot = none) := by
  rw [findEquipSlot] at found
  dsimp only at found
  rw [if_pos definite] at found
  obtain ⟨isSlot, rfl⟩ := Prod.mk.inj found
  split at isSlot
  · rename_i may
    obtain ⟨empty, named⟩ := Bool.and_eq_true _ _ ▸ may
    refine ⟨rfl, (Option.some.inj isSlot).symm, List.contains_iff_mem.mp named, fun notSwap => ?_⟩
    rw [notSwap, Bool.false_or] at empty
    exact Option.isNone_iff_eq_none.mp empty
  · cases isSlot

theorem refusesEquip_ne_ok : R.refusesEquip w player now item ≠ some .ok := by
  intro refused
  rw [refusesEquip] at refused
  split at refused
  · cases refused
  split at refused
  · cases refused
  split at refused
  · rename_i notOk
    exact notOk (Option.some.inj refused)
  iterate 6
    split at refused
    · cases refused
  cases refused

theorem otherQuiver_ne_ok : R.otherQuiver w player eslot item swap ≠ some .ok := by
  intro refused
  rw [otherQuiver] at refused
  split at refused
  · cases refused
  obtain ⟨i, -, found⟩ := exists_of_findSome?_eq_some refused
  obtain ⟨pBag, -, isOk⟩ := Option.bind_eq_some_iff.mp found
  dsimp only at isOk
  split at isOk
  · split at isOk
    · cases isOk
    · cases isOk
  · cases isOk

theorem refusesOffhand_ne_ok : R.refusesOffhand w player now eslot item ≠ some .ok := by
  intro refused
  rw [refusesOffhand] at refused
  iterate 5
    split at refused
    · cases refused
  cases refused

theorem refusesTwoHand_ne_ok : R.refusesTwoHand w player now eslot item swap ≠ some .ok := by
  intro refused
  rw [refusesTwoHand] at refused
  iterate 3
    split at refused
    · cases refused
  split at refused
  · split at refused
    · cases refused
    · cases refused
  · cases refused

theorem refusesSlot_ne_ok : R.refusesSlot w player now eslot item swap ≠ some .ok := by
  intro refused
  rw [refusesSlot] at refused
  split at refused
  · rename_i notOk
    exact notOk (Option.some.inj refused)
  split at refused
  · cases refused
  split at refused
  · rename_i notOk
    exact notOk (Option.some.inj refused)
  split at refused
  · rename_i error quiver
    rw [refused] at quiver
    exact otherQuiver_ne_ok quiver
  split at refused
  · rename_i error offhand
    rw [refused] at offhand
    exact refusesOffhand_ne_ok offhand
  · exact refusesTwoHand_ne_ok refused

theorem canEquipItem_ok
    (definite : slot ≠ nullSlot) (free : ¬ Forces R now s.items player item.entry)
    (can : R.canEquipItem player now s slot item swap = (.ok, eslot, s')) :
    s' = s ∧ eslot = slot ∧ (R.isBag item = true → isBagSlot slot = true) ∧
      (swap = false → R.getItemByPos s.items player inventorySlotBag0 slot = none) ∧
      R.refusesSlot s.items player now slot item swap = none := by
  rw [canEquipItem] at can
  split at can
  · rename_i error refused
    obtain ⟨rfl, -⟩ := Prod.mk.inj can
    exact absurd refused refusesEquip_ne_ok
  split at can
  · cases can
  rename_i eslot' s₁ found
  obtain ⟨rfl, rfl, named, empty⟩ := findEquipSlot_some definite found
  rw [equipSlots_snd free] at can empty
  split at can
  · rename_i error refused
    obtain ⟨rfl, -⟩ := Prod.mk.inj can
    exact absurd refused refusesSlot_ne_ok
  rename_i accepted
  obtain ⟨-, rest⟩ := Prod.mk.inj can
  obtain ⟨rfl, rfl⟩ := Prod.mk.inj rest
  refine ⟨rfl, rfl, fun isBag => ?_, empty, accepted⟩
  rw [slots_of_isBag isBag] at named
  have bags : ([19, 20, 21, 22] : List UInt8).all isBagSlot = true := by decide
  exact List.all_eq_true.mp bags _ named

/-- What `CanEquipItem` asks of an item for the off hand. -/
def FitsOffhand (R : ItemRules) (now : Wearer) (w : ItemWorld) (player : UInt64) (item : Item) :
    Prop :=
  let type := (R.getItemTemplate item.entry).inventoryType
  (type = invtypeWeapon ∨ type = invtypeWeaponOffhand → now.canDualWield = true) ∧
    (type = invtype2HWeapon → now.canTitanGrip = true) ∧ R.isTwoHandUsed w player now = false

theorem fitsOffhand_of_refusesSlot
    (accepted : R.refusesSlot w player now equipmentSlotOffhand item swap = none) :
    FitsOffhand R now w player item := by
  have offhand : R.refusesOffhand w player now equipmentSlotOffhand item = none := by
    rw [refusesSlot] at accepted
    split at accepted
    · cases accepted
    split at accepted
    · cases accepted
    split at accepted
    · cases accepted
    split at accepted
    · cases accepted
    split at accepted
    · cases accepted
    rename_i offhand
    exact offhand
  rw [refusesOffhand, if_neg (not_not_intro rfl)] at offhand
  split at offhand
  · cases offhand
  split at offhand
  · cases offhand
  rename_i weapon
  split at offhand
  · cases offhand
  rename_i twoHand
  split at offhand
  · cases offhand
  rename_i notUsed
  refine ⟨fun type => ?_, fun type => ?_, Bool.eq_false_iff.mpr notUsed⟩
  · by_contra cannot
    exact weapon ⟨type, Bool.eq_false_iff.mpr cannot⟩
  · by_contra cannot
    exact twoHand ⟨type, Or.inr (Bool.eq_false_iff.mpr cannot)⟩

theorem autoUnequipOffhandIfNeed_of_fits
    (there : R.getItemByPos s.items player inventorySlotBag0 equipmentSlotOffhand = some item)
    (fits : FitsOffhand R now s.items player item) :
    R.autoUnequipOffhandIfNeed player now s false = s := by
  obtain ⟨weapon, twoHand, notUsed⟩ := fits
  rw [autoUnequipOffhandIfNeed, itemAtPos, there]
  refine if_pos ?_
  rw [notUsed]
  simp only [Bool.false_or, Bool.not_false, Bool.and_true, Bool.and_eq_true, Bool.not_eq_true',
    Bool.and_eq_false_iff, Bool.not_eq_false', Bool.or_eq_true, Bool.or_eq_false_iff,
    decide_eq_true_eq, decide_eq_false_iff_not]
  constructor
  · by_cases type : (R.getItemTemplate item.entry).inventoryType = invtypeWeapon ∨
        (R.getItemTemplate item.entry).inventoryType = invtypeWeaponOffhand
    · exact Or.inl (weapon type)
    · exact Or.inr ⟨fun off => type (Or.inr off), fun main => type (Or.inl main)⟩
  · by_cases type : (R.getItemTemplate item.entry).inventoryType = invtype2HWeapon
    · exact Or.inl (twoHand type)
    · exact Or.inr type

def handlingAt (R : ItemRules) (pos : ItemPos) : Handling Place UInt32 ItemAttrs :=
  if pos.isInventory || pos.isBank then R.handling else R.equipping

theorem maxStack_handlingAt (R : ItemRules) (pos : ItemPos) :
    (R.handlingAt pos).maxStack = R.maxStack := by
  rw [handlingAt]
  split
  · rfl
  · rfl

theorem putAt_eq (kind : pos.Kind) (dest : ItemPosCountVec) :
    R.putAt w pos dest item = (R.handlingAt pos).storeItem w item dest := by
  rw [putAt, handlingAt]
  split
  · rfl
  rename_i notStored
  have some := kind
  rw [ItemPos.Kind, Bool.or_eq_true] at some
  have worn : pos.isEquipment = true := some.resolve_left notStored
  rw [if_pos worn]
  rfl

theorem canPutAt_exact (definite : pos.Exact) (kind : pos.Kind)
    (free : pos.isEquipment = true → ¬ Forces R now s.items player item.entry)
    (small : item.count ≤ R.maxStack item.entry)
    (can : R.canPutAt now player s pos item swap = (.ok, dest, s')) :
    s' = s ∧ SpecificFirst R s.items player item pos swap dest := by
  rw [canPutAt] at can
  split at can
  · obtain ⟨accepted, rest⟩ := Prod.mk.inj can
    obtain ⟨rfl, rfl⟩ := Prod.mk.inj rest
    exact ⟨rfl, specificFirst_of_canStoreItem definite small (Prod.ext accepted rfl)⟩
  split at can
  · obtain ⟨accepted, rest⟩ := Prod.mk.inj can
    obtain ⟨rfl, rfl⟩ := Prod.mk.inj rest
    exact ⟨rfl, specificFirst_of_canBankItem definite (Prod.ext accepted rfl)⟩
  split at can
  · rename_i worn
    cases equip : R.canEquipItem player now s pos.slot item swap with
    | mk msg rest =>
    obtain ⟨eslot, s₁⟩ := rest
    rw [equip] at can
    obtain ⟨rfl, rest⟩ := Prod.mk.inj can
    obtain ⟨rfl, rfl⟩ := Prod.mk.inj rest
    obtain ⟨own, -⟩ := ItemPos.bag_of_isEquipment worn
    obtain ⟨same, isSlot, bag, empty, -⟩ := canEquipItem_ok
      (ItemPos.ne_nullSlot_of_isEquipment worn) (free worn) equip
    have place : Place.inventory player inventorySlotBag0 eslot = pos.place player := by
      rw [isSlot, ← own]
      rfl
    refine ⟨same, fun full => ?_, fun _ _ => ?_, fun notSwap u seen => ?_⟩
    · have isBag : R.isBag item = true := (Bool.and_eq_true _ _ ▸ full).1
      rw [ItemPos.isBagPos, Sky548.isBagPos, bag isBag, decide_eq_true own]
      rfl
    · rw [place]
    · have there := (Option.filter_eq_some_iff.mp seen).1
      rw [own, empty notSwap] at there
      cases there
  · rename_i notInventory notBank notWorn
    have some := kind
    rw [ItemPos.Kind, Bool.or_eq_true, Bool.or_eq_true] at some
    rcases some with (inventory | bank) | worn
    · exact absurd inventory notInventory
    · exact absurd bank notBank
    · exact absurd worn notWorn

theorem findEquipSlot_snd {proto : ItemProto} :
    (R.findEquipSlot player now s proto slot swap).2 = (R.equipSlots player now s proto).2 := by
  rw [findEquipSlot]
  dsimp only
  split
  · rfl
  · split
    · rfl
    · rfl

theorem canEquipItem_snd (free : ¬ Forces R now s.items player item.entry) :
    (R.canEquipItem player now s slot item swap).2.2 = s := by
  have same : (R.findEquipSlot player now s (R.getItemTemplate item.entry) slot swap).2 =
      (R.equipSlots player now s (R.getItemTemplate item.entry)).2 := findEquipSlot_snd
  rw [equipSlots_snd free] at same
  rw [canEquipItem]
  split
  · rfl
  split
  · rename_i found
    rw [found] at same
    exact same
  rename_i found
  rw [found] at same
  split
  · exact same
  · exact same

theorem canPutAt_snd (free : pos.isEquipment = true → ¬ Forces R now s.items player item.entry) :
    (R.canPutAt now player s pos item swap).2.2 = s := by
  rw [canPutAt]
  split
  · rfl
  split
  · rfl
  split
  · rename_i worn
    exact canEquipItem_snd (free worn)
  · rfl

theorem canSwapTo_snd (free : pos.isEquipment = true → ¬ Forces R now s.items player item.entry) :
    (R.canSwapTo now player s pos item).2.2 = s := by
  have same : (R.canPutAt now player s pos item true).2.2 = s := canPutAt_snd free
  rw [canSwapTo]
  split
  · rename_i dest s₁ can
    rw [can] at same
    split
    · exact same
    · exact same
  · exact same

theorem canPutAt_of_canSwapTo (can : R.canSwapTo now player s pos item = (.ok, dest, s')) :
    R.canPutAt now player s pos item true = (.ok, dest, s') := by
  rw [canSwapTo] at can
  split at can
  · rename_i dest₁ s₁ put
    rw [put]
    split at can
    · exact Prod.ext rfl (Prod.mk.inj can).2
    · exact can
  · rename_i refused
    exact can

theorem fitsOffhand_of_canPutAt (free : ¬ Forces R now s.items player item.entry)
    (can : R.canPutAt now player s ⟨inventorySlotBag0, equipmentSlotOffhand⟩ item swap =
      (.ok, dest, s')) : FitsOffhand R now s.items player item := by
  have inventory : (⟨inventorySlotBag0, equipmentSlotOffhand⟩ : ItemPos).isInventory = false := by
    decide
  have bank : (⟨inventorySlotBag0, equipmentSlotOffhand⟩ : ItemPos).isBank = false := by decide
  have worn : (⟨inventorySlotBag0, equipmentSlotOffhand⟩ : ItemPos).isEquipment = true := by decide
  rw [canPutAt, inventory, bank, worn, if_neg Bool.false_ne_true, if_neg Bool.false_ne_true,
    if_pos rfl] at can
  cases equip : R.canEquipItem player now s equipmentSlotOffhand item swap with
  | mk msg rest =>
  obtain ⟨eslot, s₁⟩ := rest
  rw [equip] at can
  obtain ⟨rfl, -⟩ := Prod.mk.inj can
  exact fitsOffhand_of_refusesSlot (canEquipItem_ok (by decide) free equip).2.2.2.2

theorem canPutAt_fits (kind : pos.Kind)
    (free : pos.isEquipment = true → ¬ Forces R now s.items player item.entry)
    (sized : 1 ≤ item.count ∧ item.count ≤ R.maxStack item.entry)
    (can : R.canPutAt now player s pos item false = (.ok, dest, s')) :
    s' = s ∧ R.handling.Fits (R.seenAt s.items player item) item dest ∧
      ∀ pc ∈ dest, Reaches R s.items player pc.1 := by
  rw [canPutAt] at can
  split at can
  · obtain ⟨accepted, rest⟩ := Prod.mk.inj can
    obtain ⟨rfl, rfl⟩ := Prod.mk.inj rest
    exact ⟨rfl, fits_canStoreItem sized (Prod.ext accepted rfl)⟩
  split at can
  · obtain ⟨accepted, rest⟩ := Prod.mk.inj can
    obtain ⟨rfl, rfl⟩ := Prod.mk.inj rest
    exact ⟨rfl, fits_canBankItem sized (Prod.ext accepted rfl)⟩
  split at can
  · rename_i worn
    cases equip : R.canEquipItem player now s pos.slot item false with
    | mk msg rest =>
    obtain ⟨eslot, s₁⟩ := rest
    rw [equip] at can
    obtain ⟨rfl, rest⟩ := Prod.mk.inj can
    obtain ⟨rfl, rfl⟩ := Prod.mk.inj rest
    obtain ⟨-, small⟩ := ItemPos.bag_of_isEquipment worn
    obtain ⟨same, isSlot, -, empty, -⟩ := canEquipItem_ok
      (ItemPos.ne_nullSlot_of_isEquipment worn) (free worn) equip
    rw [isSlot]
    have view : R.seenAt s.items player item (.inventory player inventorySlotBag0 pos.slot) =
        none := by
      change (R.getItemByPos s.items player inventorySlotBag0 pos.slot).filter _ = none
      rw [empty rfl]
      rfl
    refine ⟨same, Handling.fits_single sized view, fun pc member => ?_⟩
    rw [List.mem_singleton.mp member]
    exact reaches_own (Nat.lt_trans small (by decide))
  · rename_i notInventory notBank notWorn
    have some := kind
    rw [ItemPos.Kind, Bool.or_eq_true, Bool.or_eq_true] at some
    rcases some with (inventory | bank) | worn
    · exact absurd inventory notInventory
    · exact absurd bank notBank
    · exact absurd worn notWorn

end ItemRules

end Sky548
