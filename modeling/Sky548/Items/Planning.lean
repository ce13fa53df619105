import Sky548.Items.Inventory

/-!
# What `CanStoreItem` promises

`fits_canStoreItem`: when `CanStoreItem` accepts an item, the plan it leaves in an empty `dest` is
one for all of the item, on distinct places of that player with room for what goes there, as seen
with the item itself taken away. When it is asked with `swap` for a definite slot, the plan is that
slot alone (`canStoreItem_swap`).
-/

namespace Sky548

open List

def Place.heldBy (player : UInt64) : Place → Bool
  | .bank _ _ => false
  | .inventory owner _ _ => owner = player

namespace ItemRules

variable {R : ItemRules} {w : ItemWorld} {player : UInt64} {item : Item}

/-- The place of one of the player's own slots, or in a bag that he has in a bag slot. -/
def Reaches (R : ItemRules) (w : ItemWorld) (player : UInt64) (k : Place) : Prop :=
  ∃ bag slot, k = .inventory player bag slot ∧
    (bag = inventorySlotBag0 ∧ slot.toNat < bankSlotBagEnd ∨
      ∃ pBag, R.getBagByPos w player bag = some pBag ∧ slot.toNat < R.getBagSize pBag)

variable {k : Place}

theorem Reaches.reads (reaches : Reaches R w player k) :
    ∃ bag slot, k = .inventory player bag slot ∧
      R.getItemByPos w player bag slot = w.shelf.get? k := by
  obtain ⟨bag, slot, rfl, own | ⟨pBag, isBag, small⟩⟩ := reaches
  · refine ⟨bag, slot, rfl, if_pos ?_⟩
    rw [decide_eq_true own.1, decide_eq_true own.2]
    rfl
  · refine ⟨bag, slot, rfl, ?_⟩
    rw [getItemByPos]
    split
    · rfl
    · rw [isBag]
      exact if_pos small

variable {slot : UInt8}

theorem reaches_own (small : slot.toNat < bankSlotBagEnd) :
    Reaches R w player (.inventory player inventorySlotBag0 slot) :=
  ⟨_, _, rfl, Or.inl ⟨rfl, small⟩⟩

variable {bag : UInt8}

theorem reaches_bag {pBag : Item} (isBag : R.getBagByPos w player bag = some pBag)
    (small : slot.toNat < R.getBagSize pBag) :
    Reaches R w player (.inventory player bag slot) :=
  ⟨_, _, rfl, Or.inr ⟨pBag, isBag, small⟩⟩

theorem reaches_slotPlaces {first last : Nat} (small : last ≤ bankSlotBagEnd)
    (member : k ∈ slotPlaces player first last) : Reaches R w player k := by
  obtain ⟨slot, inRange, rfl⟩ := List.mem_map.mp member
  obtain ⟨above, below⟩ := List.mem_range'_1.mp inRange
  refine reaches_own ?_
  rw [UInt8.toNat_ofNat']
  have byte : slot < bankSlotBagEnd := by omega
  exact Nat.lt_of_le_of_lt (Nat.mod_le _ _) byte

theorem reaches_bagPlaces (member : k ∈ R.bagPlaces w player bag) : Reaches R w player k := by
  rw [bagPlaces] at member
  cases isBag : R.getBagByPos w player bag with
  | none =>
    rw [isBag] at member
    cases member
  | some pBag =>
    rw [isBag] at member
    obtain ⟨slot, inRange, rfl⟩ := List.mem_map.mp member
    refine reaches_bag isBag ?_
    rw [UInt8.toNat_ofNat']
    exact Nat.lt_of_le_of_lt (Nat.mod_le _ _) (List.mem_range.mp inRange)

theorem reaches_of_getItemByPos {there : Item}
    (found : R.getItemByPos w player bag slot = some there) :
    Reaches R w player (.inventory player bag slot) := by
  rw [getItemByPos] at found
  split at found
  · rename_i own
    obtain ⟨isOwn, small⟩ := Bool.and_eq_true _ _ ▸ own
    exact ⟨bag, slot, rfl, Or.inl ⟨of_decide_eq_true isOwn, of_decide_eq_true small⟩⟩
  cases isBag : R.getBagByPos w player bag with
  | none =>
    rw [isBag] at found
    cases found
  | some pBag =>
    rw [isBag] at found
    dsimp only at found
    split at found
    · rename_i small
      exact reaches_bag isBag small
    · cases found

theorem of_canBeMergedPartlyWith {there : Item} {entry : UInt32}
    (may : R.canBeMergedPartlyWith there entry = .ok) :
    there.entry = entry ∧ there.count < R.maxStack entry := by
  rw [canBeMergedPartlyWith] at may
  split at may
  · cases may
  split at may
  · cases may
  rename_i same
  split at may
  · cases may
  · rename_i room
    exact ⟨of_not_not same, Nat.lt_of_not_le room⟩

/-- A plan for an item on places of the player. -/
abbrev Sound (R : ItemRules) (w : ItemWorld) (player : UInt64) (item : Item)
    (r : Reserving Place) : Prop :=
  r.Sound R.handling (R.seenAt w player item) (Reaches R w player) item

/-- A part of the search that keeps plans sound, and says why when it fails. -/
structure Keeps (R : ItemRules) (w : ItemWorld) (player : UInt64) (item : Item)
    (pass : Pass) : Prop where
  sound : ∀ r r', Sound R w player item r → r.count ≠ 0 → pass r = .ok r' → Sound R w player item r'
  fails : ∀ r, pass r ≠ .error .ok

variable {r : Reserving Place}

theorem Sound.search (sound : Sound R w player item r) (merge : Bool)
    {places : List Place} (reaches : ∀ k ∈ places, Reaches R w player k) :
    Sound R w player item (R.search w player item merge places r) :=
  sound.scan reaches (R.one_le_maxStack item.entry) fun _ may =>
    of_canBeMergedPartlyWith (of_decide_eq_true may)

theorem fails_canStoreItemInSpecificSlot {swap : Bool} (r : Reserving Place) :
    R.canStoreItemInSpecificSlot w player bag slot swap item r ≠ .error .ok := by
  intro failed
  rw [canStoreItemInSpecificSlot] at failed
  split at failed
  · cases failed
  split at failed
  · split at failed
    · split at failed
      · cases failed
      · cases failed
    split at failed
    · cases failed
    split at failed
    · cases failed
    · split at failed
      · cases failed
      · cases failed
  · split at failed
    · cases failed
    · rename_i error other
      exact other (Except.error.inj failed)

theorem keeps_canStoreItemInSpecificSlot :
    Keeps R w player item (R.canStoreItemInSpecificSlot w player bag slot false item) := by
  refine ⟨?_, fails_canStoreItemInSpecificSlot⟩
  intro r r' sound left passed
  have one := R.one_le_maxStack item.entry
  rw [canStoreItemInSpecificSlot] at passed
  split at passed
  · cases passed
  rw [if_neg Bool.false_ne_true] at passed
  cases there : R.seen w player item bag slot with
  | none =>
    have room : R.handling.Room (R.seenAt w player item) item (.inventory player bag slot)
        (R.maxStack item.entry) := by
      refine ⟨one, ?_⟩
      have view : R.seenAt w player item (.inventory player bag slot) = none := there
      rw [view]
      exact Nat.le_refl _
    rw [there] at passed
    dsimp only at passed
    split at passed
    · rename_i backpack
      split at passed
      · cases passed
      rename_i small
      cases passed
      subst backpack
      refine sound.reserve left (reaches_own ?_) room
      rw [bankSlotBagEnd]
      rw [buybackSlotStart, buybackSlotEnd, playerSlotEnd] at small
      omega
    · cases isBag : R.getBagByPos w player bag with
      | none =>
        rw [isBag] at passed
        cases passed
      | some pBag =>
        rw [isBag] at passed
        dsimp only at passed
        split at passed
        · cases passed
        rename_i small
        split at passed
        · cases passed
        · cases passed
          exact sound.reserve left (reaches_bag isBag (Nat.lt_of_not_le small)) room
  | some pItem2 =>
    rw [there] at passed
    dsimp only at passed
    cases may : R.canBeMergedPartlyWith pItem2 item.entry with
    | ok =>
      rw [may] at passed
      cases passed
      obtain ⟨entry, below⟩ := of_canBeMergedPartlyWith may
      have found : R.getItemByPos w player bag slot = some pItem2 :=
        (Option.filter_eq_some_iff.mp there).1
      refine sound.reserve left (reaches_of_getItemByPos found) ⟨Nat.sub_pos_of_lt below, ?_⟩
      have view : R.seenAt w player item (.inventory player bag slot) = some pItem2 := there
      rw [view]
      exact ⟨entry, Nat.le_of_eq (Nat.add_sub_cancel' (Nat.le_of_lt below))⟩
    | _ =>
      rw [may] at passed
      cases passed

variable {skipBag skipSlot : UInt8} {merge : Bool}

/-- What a part of the search makes of a plan: a plan again, or a reason. -/
def Gives (R : ItemRules) (w : ItemWorld) (player : UInt64) (item : Item) (r : Reserving Place)
    (result : Except InventoryResult (Reserving Place)) : Prop :=
  result ≠ .error .ok ∧
    ∀ r', result = .ok r' → Sound R w player item r → r.count ≠ 0 → Sound R w player item r'

theorem gives_error {error : InventoryResult} (named : error ≠ .ok) :
    Gives R w player item r (.error error) :=
  ⟨fun same => named (Except.error.inj same), nofun⟩

theorem gives_ok {r' : Reserving Place}
    (keeps : Sound R w player item r → Sound R w player item r') :
    Gives R w player item r (.ok r') := by
  refine ⟨nofun, fun r'' same sound _ => ?_⟩
  cases same
  exact keeps sound

theorem keeps_of_gives {pass : Pass} (gives : ∀ r, Gives R w player item r (pass r)) :
    Keeps R w player item pass :=
  ⟨fun r r' sound left passed => (gives r).2 r' passed sound left, fun r => (gives r).1⟩

theorem Keeps.gives {pass : Pass} (keeps : Keeps R w player item pass) (r : Reserving Place) :
    Gives R w player item r (pass r) :=
  ⟨keeps.fails r, fun r' passed sound left => keeps.sound r r' sound left passed⟩

theorem keeps_canStoreItemInBag {nonSpecialized : Bool} : Keeps R w player item
      (R.canStoreItemInBag w player bag merge nonSpecialized item skipBag skipSlot) := by
  refine keeps_of_gives fun r => ?_
  rw [canStoreItemInBag]
  split
  · exact gives_error (by decide)
  cases isBag : R.getBagByPos w player bag with
  | none => exact gives_error (by decide)
  | some pBag =>
    dsimp only
    split
    · exact gives_error (by decide)
    split
    · exact gives_error (by decide)
    split
    · exact gives_error (by decide)
    split
    · exact gives_error (by decide)
    · exact gives_ok fun sound => sound.search merge fun k member =>
        reaches_bagPlaces (mem_of_mem_filter member)

theorem keeps_ofEmpty {full : Bool} {error : InventoryResult} (named : error ≠ .ok)
    {f : Reserving Place → Reserving Place}
    (keeps : ∀ r, Sound R w player item r → Sound R w player item (f r)) :
    Keeps R w player item fun r => if full then .error error else .ok (f r) := by
  refine keeps_of_gives fun r => ?_
  split
  · exact gives_error named
  · exact gives_ok (keeps r)

theorem keeps_canStoreItemInInventorySlots : Keeps R w player item
      (R.canStoreItemInInventorySlots w player merge item skipBag skipSlot) :=
  keeps_ofEmpty (by decide) fun _ sound => sound.search merge fun _ member =>
    reaches_slotPlaces (by decide) (mem_of_mem_filter member)

theorem Keeps.lenient {pass : Pass} (keeps : Keeps R w player item pass) :
    Keeps R w player item (lenient pass) := by
  refine keeps_of_gives fun r => ?_
  have given := keeps.gives r
  rw [ItemRules.lenient]
  cases inner : pass r with
  | ok r₁ =>
    rw [inner] at given
    exact given
  | error _ => exact gives_ok id

theorem keeps_inNamedBag : Keeps R w player item (R.inNamedBag w player bag slot merge item) := by
  refine keeps_of_gives fun r => ?_
  have given := (@keeps_canStoreItemInBag R w player item bag nullBag slot merge false).gives r
  rw [inNamedBag]
  cases inner : R.canStoreItemInBag w player bag merge false item nullBag slot r with
  | ok r₁ =>
    rw [inner] at given
    exact given
  | error _ => exact keeps_canStoreItemInBag.gives r

theorem keeps_bags {places : List UInt8} {merge nonSpecialized : Bool} {pass : Pass}
    (member : pass ∈ places.map fun i =>
      lenient (R.canStoreItemInBag w player i merge nonSpecialized item bag slot)) :
    Keeps R w player item pass := by
  obtain ⟨i, -, rfl⟩ := List.mem_map.mp member
  exact keeps_canStoreItemInBag.lenient

theorem keeps_passes :
    ∀ pass ∈ R.passes w player bag slot false item, Keeps R w player item pass := by
  intro pass member
  have named : ∀ merge, Keeps R w player item (if bag = inventorySlotBag0 then
      R.canStoreItemInInventorySlots w player merge item bag slot
      else R.inNamedBag w player bag slot merge item) := by
    intro merge
    split
    · exact keeps_canStoreItemInInventorySlots
    · exact keeps_inNamedBag
  simp only [passes, mem_append, mem_ite_nil_right, mem_singleton] at member
  rcases member with (((((specific | inNamed) | stacked) | special) | notEmpty) | free) | last
  · obtain ⟨-, rfl⟩ := specific
    exact keeps_canStoreItemInSpecificSlot
  · obtain ⟨-, ⟨-, rfl⟩ | rfl⟩ := inNamed
    · exact named true
    · exact named false
  · obtain ⟨-, (rfl | ⟨-, inBags⟩) | inBags⟩ := stacked
    · exact keeps_canStoreItemInInventorySlots
    · exact keeps_bags inBags
    · exact keeps_bags inBags
  · exact keeps_bags special.2
  · subst notEmpty
    exact keeps_ofEmpty (by decide) fun _ => id
  · subst free
    exact keeps_canStoreItemInInventorySlots
  · exact keeps_bags last

variable {dest : ItemPosCountVec}

theorem fits_tryPasses {noSimilarCount : Nat} {passes : List Pass}
    (keeps : ∀ pass ∈ passes, Keeps R w player item pass)
    (sound : Sound R w player item r) (left : r.count ≠ 0)
    (found : tryPasses noSimilarCount passes r = (.ok, dest)) :
    R.handling.Fits (R.seenAt w player item) item dest ∧
      ∀ pc ∈ dest, Reaches R w player pc.1 := by
  induction passes generalizing r with
  | nil => cases found
  | cons pass rest ih =>
    rw [tryPasses] at found
    cases passed : pass r with
    | error _ =>
      rw [passed] at found
      obtain ⟨rfl, -⟩ := Prod.mk.inj found
      exact absurd passed ((keeps pass mem_cons_self).fails r)
    | ok r' =>
      rw [passed] at found
      dsimp only at found
      have sound' := (keeps pass mem_cons_self).sound r r' sound left passed
      split at found
      · rename_i placed
        obtain ⟨-, rfl⟩ := Prod.mk.inj found
        exact ⟨sound'.fits placed, sound'.within⟩
      · rename_i left'
        exact ih (fun p member => keeps p (mem_cons_of_mem _ member)) sound' left' found

theorem noSimilarCount_eq_zero {noSimilarCount : Nat} {passes : List Pass}
    (fails : ∀ pass ∈ passes, ∀ r, pass r ≠ .error .ok)
    (found : tryPasses noSimilarCount passes r = (.ok, dest)) : noSimilarCount = 0 := by
  induction passes generalizing r with
  | nil => cases found
  | cons pass rest ih =>
    rw [tryPasses] at found
    cases passed : pass r with
    | error _ =>
      rw [passed] at found
      obtain ⟨rfl, -⟩ := Prod.mk.inj found
      exact absurd passed (fails pass mem_cons_self r)
    | ok r' =>
      rw [passed] at found
      dsimp only at found
      split at found
      · have result := (Prod.mk.inj found).1
        by_contra similar
        rw [if_neg similar] at result
        cases result
      · exact ih (fun p member => fails p (mem_cons_of_mem _ member)) found

/-- `CanStoreItem` accepts a stack only when it could place all of it. -/
theorem tryPasses_of_canStoreItem {dest' : ItemPosCountVec} {swap : Bool}
    (small : item.count ≤ R.maxStack item.entry)
    (fails : ∀ pass ∈ R.passes w player bag slot swap item, ∀ r, pass r ≠ .error .ok)
    (can : R.canStoreItem w player bag slot dest item swap = (.ok, dest')) :
    tryPasses 0 (R.passes w player bag slot swap item) ⟨dest, item.count⟩ = (.ok, dest') := by
  rw [canStoreItem] at can
  split at can
  · cases can
  split at can
  · cases can
  dsimp only at can
  split at can
  · rename_i similar
    exact absurd (Prod.mk.inj can).1 similar.1
  have none := noSimilarCount_eq_zero fails can
  have below := (R.getItemTemplate item.entry).getMaxStackSize_lt
  have same : (item.count + 2 ^ 32 - 0) % 2 ^ 32 = item.count := by
    rw [Nat.sub_zero, Nat.add_mod_right]
    rw [maxStack] at small
    exact Nat.mod_eq_of_lt (by omega)
  rw [none, same] at can
  exact can

theorem fits_canStoreItem (sized : 1 ≤ item.count ∧ item.count ≤ R.maxStack item.entry)
    (can : R.canStoreItem w player bag slot [] item false = (.ok, dest)) :
    R.handling.Fits (R.seenAt w player item) item dest ∧
      ∀ pc ∈ dest, Reaches R w player pc.1 :=
  fits_tryPasses keeps_passes Reserving.sound_nil (Nat.pos_iff_ne_zero.mp sized.1)
    (tryPasses_of_canStoreItem sized.2 (fun pass member => (keeps_passes pass member).fails) can)

theorem canStoreItemInSpecificSlot_swap
    (passed : R.canStoreItemInSpecificSlot w player bag slot true item ⟨[], item.count⟩ = .ok r) :
    r = Reserving.reserve ⟨[], item.count⟩ (.inventory player bag slot)
      (R.maxStack item.entry) := by
  rw [canStoreItemInSpecificSlot] at passed
  split at passed
  · cases passed
  rw [if_pos rfl] at passed
  dsimp only at passed
  split at passed
  · split at passed
    · cases passed
    · exact (Except.ok.inj passed).symm
  split at passed
  · cases passed
  split at passed
  · cases passed
  · split at passed
    · cases passed
    · exact (Except.ok.inj passed).symm

theorem canStoreItem_swap (named : bag ≠ nullBag)
    (definite : slot ≠ nullSlot) (small : item.count ≤ R.maxStack item.entry)
    (can : R.canStoreItem w player bag slot [] item true = (.ok, dest)) :
    dest = [(.inventory player bag slot, item.count)] := by
  obtain ⟨rest, first⟩ : ∃ rest, ∀ swap, R.passes w player bag slot swap item =
      R.canStoreItemInSpecificSlot w player bag slot swap item :: rest := by
    have both : bag ≠ nullBag ∧ slot ≠ nullSlot := ⟨named, definite⟩
    refine ⟨(R.passes w player bag slot false item).tail, fun swap => ?_⟩
    rw [passes, passes, if_pos both, if_pos both]
    rfl
  have fails : ∀ pass ∈ R.passes w player bag slot true item, ∀ r, pass r ≠ .error .ok := by
    intro pass member
    rw [first] at member
    rcases List.mem_cons.mp member with rfl | later
    · exact fails_canStoreItemInSpecificSlot
    · have inPasses : pass ∈ R.passes w player bag slot false item := by
        rw [first]
        exact mem_cons_of_mem _ later
      exact (keeps_passes pass inPasses).fails
  have found := tryPasses_of_canStoreItem small fails can
  rw [first, tryPasses] at found
  cases passed : R.canStoreItemInSpecificSlot w player bag slot true item ⟨[], item.count⟩ with
  | error error =>
    rw [passed] at found
    obtain ⟨rfl, -⟩ := Prod.mk.inj found
    exact absurd passed (fails_canStoreItemInSpecificSlot _)
  | ok r =>
    have whole : r = ⟨[(.inventory player bag slot, item.count)], 0⟩ := by
      have unnamed : Place.inventory player bag slot ∉ ([] : ItemPosCountVec).map Prod.fst :=
        not_mem_nil
      rw [canStoreItemInSpecificSlot_swap passed, Reserving.reserve, if_neg unnamed]
      rw [Nat.min_eq_right small, Nat.sub_self, nil_append]
    rw [passed, whole] at found
    exact (Prod.mk.inj found).2.symm

theorem heldBy_of_reaches (reaches : Reaches R w player k) : k.heldBy player = true := by
  obtain ⟨bag, slot, place, -⟩ := reaches
  rw [place]
  exact decide_eq_true rfl

theorem fits_of_without {w' : ItemWorld}
    (without : w.Without w' item.guid) (fits : R.handling.Fits (R.seenAt w player item) item dest)
    (reaches : ∀ pc ∈ dest, Reaches R w player pc.1) :
    R.handling.Fits w'.shelf.get? item dest := by
  refine fits.congr fun pc member => ?_
  obtain ⟨bag, slot, place, reads⟩ := (reaches pc member).reads
  rw [place] at reads ⊢
  change (R.getItemByPos w player bag slot).filter _ = _
  rw [reads, without]

theorem fits_canStoreItem_of_without {w' : ItemWorld}
    (sized : 1 ≤ item.count ∧ item.count ≤ R.maxStack item.entry) (without : w.Without w' item.guid)
    (can : R.canStoreItem w player bag slot [] item false = (.ok, dest)) :
    R.handling.Fits w'.shelf.get? item dest ∧ ∀ pc ∈ dest, pc.1.heldBy player = true := by
  obtain ⟨fits, reaches⟩ := fits_canStoreItem sized can
  exact ⟨fits_of_without without fits reaches, fun pc member => heldBy_of_reaches (reaches pc member)⟩

theorem definite_of_getItemByPos (found : R.getItemByPos w player bag slot = some item) :
    bag ≠ nullBag ∧ slot ≠ nullSlot := by
  rw [getItemByPos] at found
  split at found
  · rename_i own
    obtain ⟨isOwn, small⟩ := Bool.and_eq_true _ _ ▸ own
    constructor
    · rw [of_decide_eq_true isOwn]
      decide
    · rintro rfl
      exact absurd small (by decide)
  · cases isBag : R.getBagByPos w player bag with
    | none =>
      rw [isBag] at found
      cases found
    | some pBag =>
      rw [isBag] at found
      dsimp only at found
      constructor
      · rintro rfl
        cases isBag
      rintro rfl
      have few : ¬ nullSlot.toNat < R.getBagSize pBag :=
        Nat.not_lt.mpr (Nat.le_trans (R.getItemTemplate pBag.entry).slots_le (by decide))
      rw [if_neg few] at found
      cases found

theorem getItemByPos_congr {w' : ItemWorld}
    (same : ∀ bag slot, w'.shelf.get? (.inventory player bag slot) =
      w.shelf.get? (.inventory player bag slot)) :
    R.getItemByPos w' player bag slot = R.getItemByPos w player bag slot := by
  simp only [getItemByPos, getBagByPos, same]

end ItemRules

end Sky548
