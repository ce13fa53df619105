import Sky548.Items.Entries

/-!
# Every unit is accounted for

Whatever `CanStoreItem` answers for so many of an entry, its plan is on distinct places with room
for what goes there, and what is planned and what has no space are together what was asked for,
with one exception: who owns more than the limit already is found too many of what was asked for,
the count wraps around, and the search fills all the room there is (`canStoreEntry_accounts_iff`).
-/

namespace Sky548

open List

namespace ItemRules

section Law

variable (R : ItemRules) (w : ItemWorld) (player : UInt64) (entry : UInt32)
  (pSrcItem : Option Item) (bag slot : UInt8) (count : UInt32) (swap : Bool)

def newItem (guid : Nat) (player : UInt64) (entry : UInt32) (count : Nat) : Item where
  guid := guid
  entry := entry
  count := count
  attrs :=
    { owner := player, soulBound := false, bopTradeable := false, allowedGUIDs := []
      lootGenerated := false, boundByEnchant := false, gems := [], inTrade := false }

/-- `StoreNewItem`; no item is made that counts nothing. -/
def storeNewItem (dest : ItemPosCountVec) : ItemWorld :=
  let count := (dest.map Prod.snd).sum % 2 ^ 32
  if count < 1 then w
  else
    R.storeItem { w with nextGuid := w.nextGuid + 1 } dest
      (newItem w.nextGuid player entry (min count (R.maxStack entry)))

/-- What lies at a place, but for the item that is to be moved and, with `swap`, for what it is
swapped with. -/
def liesAt (k : Place) : Option Item :=
  if swap = true ∧ k = .inventory player bag slot then none
  else (w.shelf.get? k).filter fun there => pSrcItem.all fun item => there.guid ≠ item.guid

def roomAt (k : Place) : Nat :=
  match liesAt w player pSrcItem bag slot swap k with
  | none => R.maxStack entry
  | some u => if u.entry = entry then R.maxStack entry - u.count else 0

/-- **What an answer of `CanStoreItem` accounts for.** -/
structure Accounts (answer : InventoryResult × ItemPosCountVec × Option Nat) : Prop where
  distinct : (answer.2.1.map Prod.fst).Nodup
  reached : ∀ pc ∈ answer.2.1, Reaches R w player pc.1
  room : ∀ pc ∈ answer.2.1, 1 ≤ pc.2 ∧ pc.2 ≤ R.roomAt w player entry pSrcItem bag slot swap pc.1
  accepted : answer.1 = .ok → (answer.2.1.map Prod.snd).sum = count.toNat
  short : answer.1 = .itemMaxCount ∨ answer.1 = .invFull →
    ∃ noSpaceCount, answer.2.2 = some noSpaceCount ∧
      (answer.2.1.map Prod.snd).sum + noSpaceCount = count.toNat ∧
      (pSrcItem = none → swap = false → w.Tidy R.maxStack → Shelf.amount (Place.heldBy player) entry
            (R.storeNewItem w player entry answer.2.1).shelf + noSpaceCount =
          Shelf.amount (Place.heldBy player) entry w.shelf + count.toNat)

/-- The room that a search finds which nothing is enough for, and the error that ends it. -/
def searchRoom : List Pass → Reserving Place → Option InventoryResult × Nat
  | [], r => (none, r.placed)
  | pass :: rest, r =>
    match pass r with
    | .error error => (some error, r.placed)
    | .ok r => if r.count = 0 then (none, r.placed) else searchRoom rest r

/-- The room where the entry could go. -/
def roomFor : Option InventoryResult × Nat :=
  searchRoom (R.entryPasses w player entry pSrcItem bag slot swap) ⟨[], 2 ^ 32⟩

/-- The item that is to be moved may be. -/
def Movable : Prop :=
  R.hasTemplate entry = true ∧ ∀ item ∈ pSrcItem,
    item.attrs.lootGenerated = false ∧ R.isBindedNotWith item player = false

/-- More are too many than are asked for: so many are owned already. -/
def Overfull : Prop := count.toNat < (R.canTakeMoreOf w player entry count.toNat pSrcItem).2

/-- There is no more room than is asked for; or the search is refused before it finds as much as the
wrapped count. -/
def Cramped : Prop :=
  match R.roomFor w player entry pSrcItem bag slot swap with
  | (none, room) => room ≤ count.toNat
  | (some _, room) =>
    room + (R.canTakeMoreOf w player entry count.toNat pSrcItem).2 < count.toNat + 2 ^ 32

end Law

/-! ## The parts of the search -/

variable {R : ItemRules} {w : ItemWorld} {player : UInt64} {entry : UInt32}
  {pSrcItem : Option Item} {bag slot : UInt8} {count : UInt32} {swap : Bool}

/-- What is offered is in reach and has room. -/
def Offers (R : ItemRules) (w : ItemWorld) (player : UInt64) (entry : UInt32)
    (pSrcItem : Option Item) (bag slot : UInt8) (swap : Bool) (offers : List (Place × Nat)) : Prop :=
  ∀ x ∈ offers, Reaches R w player x.1 ∧
    R.handling.Room (liesAt w player pSrcItem bag slot swap) (newItem 0 player entry 0) x.1 x.2

/-- A part of the search that always fails, or always makes the same offers. -/
inductive Steady (R : ItemRules) (w : ItemWorld) (player : UInt64) (entry : UInt32)
    (pSrcItem : Option Item) (bag slot : UInt8) (swap : Bool) (pass : Pass) : Prop
  | fails (error : InventoryResult)
      (proper : error ≠ .ok ∧ error ≠ .itemMaxCount ∧ error ≠ .invFull)
      (always : ∀ r, pass r = .error error)
  | offers (offers : List (Place × Nat))
      (roomy : Offers R w player entry pSrcItem bag slot swap offers)
      (always : ∀ r, r.count ≠ 0 → pass r = .ok (r.fill offers))

variable {pass : Pass}

theorem Steady.wrongBagType (always : ∀ r, pass r = .error .wrongBagType) :
    Steady R w player entry pSrcItem bag slot swap pass :=
  .fails .wrongBagType (by decide) always

theorem Steady.destroyNonemptyBag (always : ∀ r, pass r = .error .destroyNonemptyBag) :
    Steady R w player entry pSrcItem bag slot swap pass :=
  .fails .destroyNonemptyBag (by decide) always

theorem liesAt_of_reaches (pSrcItem : Option Item) (swap : Bool) {k : Place} (reaches : Reaches R w player k)
    (other : k ≠ .inventory player bag slot) :
    liesAt w player pSrcItem bag slot swap k = R.seenButAt w player pSrcItem k := by
  obtain ⟨bag', slot', place, reads⟩ := reaches.reads
  rw [liesAt, if_neg fun isIt => other isIt.2, ← reads, place]
  rfl

theorem offers_search (merge : Bool) {places : List Place}
    (reaches : ∀ k ∈ places, Reaches R w player k ∧ k ≠ .inventory player bag slot) :
    Offers R w player entry pSrcItem bag slot swap
      (places.filterMap (Reserving.offer (R.seenButAt w player pSrcItem) (R.maxStack entry)
        (fun there => R.canBeMergedPartlyWith there entry = .ok) merge)) := by
  intro x member
  obtain ⟨k, isIn, offered⟩ := List.mem_filterMap.mp member
  obtain ⟨reach, other⟩ := reaches k isIn
  have view := liesAt_of_reaches pSrcItem swap reach other
  rw [Reserving.offer] at offered
  split at offered
  · rename_i u there
    split at offered
    · rename_i joins
      obtain ⟨-, may⟩ := Bool.and_eq_true _ _ ▸ joins
      obtain ⟨entry, below⟩ := of_canBeMergedPartlyWith (of_decide_eq_true may)
      rw [← Option.some.inj offered]
      refine ⟨reach, Nat.sub_pos_of_lt below, ?_⟩
      rw [view, there]
      exact ⟨entry, Nat.le_of_eq (Nat.add_sub_cancel' (Nat.le_of_lt below))⟩
    · cases offered
  · rename_i there
    split at offered
    · cases offered
    rw [← Option.some.inj offered]
    refine ⟨reach, R.one_le_maxStack entry, ?_⟩
    rw [view, there]
    exact Nat.le_refl _

theorem steady_search (merge : Bool) {places : List Place}
    (reaches : ∀ k ∈ places, Reaches R w player k ∧ k ≠ .inventory player bag slot) :
    Steady R w player entry pSrcItem bag slot swap fun r =>
      .ok (R.searchEntry w player entry pSrcItem merge places r) :=
  .offers _ (offers_search merge reaches) fun r _ =>
    congrArg Except.ok (Reserving.scan_eq_fill _ _ _ merge places r)

theorem steady_reserve {space : Nat} (reach : Reaches R w player (.inventory player bag slot))
    (room : R.handling.Room (liesAt w player pSrcItem bag slot swap) (newItem 0 player entry 0)
      (.inventory player bag slot) space)
    (always : ∀ r, pass r = .ok (r.reserve (.inventory player bag slot) space)) :
    Steady R w player entry pSrcItem bag slot swap pass := by
  refine .offers [(.inventory player bag slot, space)] (fun x member => ?_) fun r left => ?_
  · rw [List.mem_singleton.mp member]
    exact ⟨reach, room⟩
  · rw [always, Reserving.fill, foldl_cons, foldl_nil, if_neg left]

theorem liesAt_specific (reach : Reaches R w player (.inventory player bag slot)) :
    liesAt w player pSrcItem bag slot swap (.inventory player bag slot) =
      if swap = true then none else R.seenBut w player pSrcItem bag slot := by
  obtain ⟨bag', slot', place, reads⟩ := reach.reads
  obtain ⟨-, rfl, rfl⟩ := Place.inventory.inj place
  by_cases swapped : swap = true
  · rw [liesAt, if_pos ⟨swapped, rfl⟩, if_pos swapped]
  · rw [liesAt, if_neg fun isIt => swapped isIt.1, if_neg swapped, seenBut, reads]

theorem steady_canStoreEntryInSpecificSlot : Steady R w player entry pSrcItem bag slot swap
      (R.canStoreEntryInSpecificSlot w player entry pSrcItem bag slot swap) := by
  by_cases full : (R.isFullBag w pSrcItem && !isBagPos bag slot) = true
  · exact .destroyNonemptyBag fun r => if_pos full
  cases there : (if swap = true then none else R.seenBut w player pSrcItem bag slot) with
  | none =>
    have room : Reaches R w player (.inventory player bag slot) →
        R.handling.Room (liesAt w player pSrcItem bag slot swap) (newItem 0 player entry 0)
          (.inventory player bag slot) (R.maxStack entry) := by
      intro reach
      refine ⟨R.one_le_maxStack entry, ?_⟩
      rw [liesAt_specific reach, there]
      exact Nat.le_refl _
    by_cases own : bag = inventorySlotBag0
    · by_cases beyond : buybackSlotStart ≤ slot.toNat ∧ slot.toNat < buybackSlotEnd ∨
          slot.toNat ≥ playerSlotEnd
      · refine .wrongBagType fun r => ?_
        rw [canStoreEntryInSpecificSlot, if_neg full, there]
        rw [if_pos own, if_pos beyond]
      have reach : Reaches R w player (.inventory player bag slot) := by
        subst own
        refine reaches_own ?_
        rw [bankSlotBagEnd]
        rw [buybackSlotStart, buybackSlotEnd, playerSlotEnd] at beyond
        omega
      refine steady_reserve reach (room reach) fun r => ?_
      rw [canStoreEntryInSpecificSlot, if_neg full, there]
      rw [if_pos own, if_neg beyond]
    · cases isBag : R.getBagByPos w player bag with
      | none =>
        refine .wrongBagType fun r => ?_
        rw [canStoreEntryInSpecificSlot, if_neg full, there]
        rw [if_neg own, isBag]
      | some pBag =>
        by_cases beyond : slot.toNat ≥ R.getBagSize pBag
        · refine .wrongBagType fun r => ?_
          rw [canStoreEntryInSpecificSlot, if_neg full, there]
          rw [if_neg own, isBag]
          exact if_pos beyond
        · by_cases fits : (!itemCanGoIntoBag (R.getItemTemplate entry)
              (R.getItemTemplate pBag.entry)) = true
          · refine .wrongBagType fun r => ?_
            rw [canStoreEntryInSpecificSlot, if_neg full, there]
            rw [if_neg own, isBag]
            dsimp only
            rw [if_neg beyond, if_pos fits]
          · have reach := reaches_bag isBag (Nat.lt_of_not_le beyond)
            refine steady_reserve reach (room reach) fun r => ?_
            rw [canStoreEntryInSpecificSlot, if_neg full, there]
            rw [if_neg own, isBag]
            dsimp only
            rw [if_neg beyond, if_neg fits]
  | some pItem2 =>
    have seen : swap ≠ true ∧ R.seenBut w player pSrcItem bag slot = some pItem2 := by
      split at there
      · cases there
      · rename_i notSwap
        exact ⟨notSwap, there⟩
    cases may : R.canBeMergedPartlyWith pItem2 entry with
    | ok =>
      obtain ⟨same, below⟩ := of_canBeMergedPartlyWith may
      have reach : Reaches R w player (.inventory player bag slot) :=
        reaches_of_getItemByPos (Option.filter_eq_some_iff.mp seen.2).1
      have room : R.handling.Room (liesAt w player pSrcItem bag slot swap)
          (newItem 0 player entry 0) (.inventory player bag slot)
          (R.maxStack entry - pItem2.count) := by
        refine ⟨Nat.sub_pos_of_lt below, ?_⟩
        rw [liesAt_specific reach, there]
        exact ⟨same, Nat.le_of_eq (Nat.add_sub_cancel' (Nat.le_of_lt below))⟩
      refine steady_reserve reach room fun r => ?_
      rw [canStoreEntryInSpecificSlot, if_neg full, there]
      dsimp only
      rw [may]
    | lootGone =>
      refine .fails .lootGone (by decide) fun r => ?_
      rw [canStoreEntryInSpecificSlot, if_neg full, there]
      dsimp only
      rw [may]
    | cantStack =>
      refine .fails .cantStack (by decide) fun r => ?_
      rw [canStoreEntryInSpecificSlot, if_neg full, there]
      dsimp only
      rw [may]
    | _ =>
      rw [canBeMergedPartlyWith] at may
      split at may
      · cases may
      split at may
      · cases may
      · split at may
        · cases may
        · cases may

theorem steady_canStoreEntryInBag {i skipBag : UInt8} {merge nonSpecialized : Bool} :
    Steady R w player entry pSrcItem bag slot swap
      (R.canStoreEntryInBag w player entry pSrcItem i merge nonSpecialized skipBag slot) := by
  by_cases skipped : i = skipBag
  · exact .wrongBagType fun r => if_pos skipped
  cases isBag : R.getBagByPos w player i with
  | none =>
    refine .wrongBagType fun r => ?_
    rw [canStoreEntryInBag, if_neg skipped, isBag]
  | some pBag =>
    by_cases itself : (pSrcItem.any fun item => pBag.guid = item.guid) = true
    · refine .wrongBagType fun r => ?_
      rw [canStoreEntryInBag, if_neg skipped, isBag]
      exact if_pos itself
    by_cases full : R.isFullBag w pSrcItem = true
    · refine .destroyNonemptyBag fun r => ?_
      rw [canStoreEntryInBag, if_neg skipped, isBag]
      dsimp only
      rw [if_neg itself, if_pos full]
    by_cases other : (nonSpecialized = true) ≠
        ((R.getItemTemplate pBag.entry).class' = itemClassContainer ∧
          (R.getItemTemplate pBag.entry).subClass = itemSubclassContainer)
    · refine .wrongBagType fun r => ?_
      rw [canStoreEntryInBag, if_neg skipped, isBag]
      dsimp only
      rw [if_neg itself, if_neg full, if_pos other]
    by_cases fits : (!itemCanGoIntoBag (R.getItemTemplate entry)
        (R.getItemTemplate pBag.entry)) = true
    · refine .wrongBagType fun r => ?_
      rw [canStoreEntryInBag, if_neg skipped, isBag]
      dsimp only
      rw [if_neg itself, if_neg full, if_neg other, if_pos fits]
    have same : R.canStoreEntryInBag w player entry pSrcItem i merge nonSpecialized skipBag slot =
        fun r => .ok (R.searchEntry w player entry pSrcItem merge
          ((R.bagPlaces w player i).filter (· ≠ .inventory player i slot)) r) := by
      funext r
      rw [canStoreEntryInBag, if_neg skipped, isBag]
      dsimp only
      rw [if_neg itself, if_neg full, if_neg other, if_neg fits]
    rw [same]
    refine steady_search merge fun k member => ?_
    obtain ⟨inBag, notSkipped⟩ := List.mem_filter.mp member
    refine ⟨reaches_bagPlaces inBag, fun isIt => ?_⟩
    rw [bagPlaces, isBag] at inBag
    obtain ⟨j, -, place⟩ := List.mem_map.mp inBag
    rw [isIt] at place
    obtain ⟨-, rfl, -⟩ := Place.inventory.inj place
    exact of_decide_eq_true notSkipped isIt

theorem steady_canStoreEntryInInventorySlots {merge : Bool} :
    Steady R w player entry pSrcItem bag slot swap
      (R.canStoreEntryInInventorySlots w player entry pSrcItem merge bag slot) := by
  by_cases full : R.isFullBag w pSrcItem = true
  · exact .destroyNonemptyBag fun r => if_pos full
  have same : R.canStoreEntryInInventorySlots w player entry pSrcItem merge bag slot =
      fun r => .ok (R.searchEntry w player entry pSrcItem merge
        ((slotPlaces player inventorySlotItemStart inventorySlotItemEnd).filter
          (· ≠ .inventory player bag slot)) r) := by
    funext r
    exact if_neg full
  rw [same]
  refine steady_search merge fun k member => ?_
  obtain ⟨own, notSkipped⟩ := List.mem_filter.mp member
  exact ⟨reaches_slotPlaces (by decide) own, of_decide_eq_true notSkipped⟩

theorem Steady.lenient (steady : Steady R w player entry pSrcItem bag slot swap pass) :
    Steady R w player entry pSrcItem bag slot swap (lenient pass) := by
  cases steady with
  | fails error proper always =>
    refine .offers [] (fun x member => ?_) fun r _ => ?_
    · cases member
    · rw [ItemRules.lenient, always]
      rfl
  | offers offers roomy always =>
    refine .offers offers roomy fun r left => ?_
    rw [ItemRules.lenient, always r left]

theorem steady_entryInNamedBag {merge : Bool} : Steady R w player entry pSrcItem bag slot swap
      (R.entryInNamedBag w player entry pSrcItem bag slot merge) := by
  have first : Steady R w player entry pSrcItem bag slot swap
      (R.canStoreEntryInBag w player entry pSrcItem bag merge false nullBag slot) :=
    steady_canStoreEntryInBag
  have second : Steady R w player entry pSrcItem bag slot swap
      (R.canStoreEntryInBag w player entry pSrcItem bag merge true nullBag slot) :=
    steady_canStoreEntryInBag
  cases first with
  | fails error proper always =>
    have same : R.entryInNamedBag w player entry pSrcItem bag slot merge =
        R.canStoreEntryInBag w player entry pSrcItem bag merge true nullBag slot := by
      funext r
      rw [entryInNamedBag, always]
    rw [same]
    exact second
  | offers offers roomy always =>
    refine .offers offers roomy fun r left => ?_
    rw [entryInNamedBag, always r left]

theorem steady_entryPasses : ∀ pass ∈ R.entryPasses w player entry pSrcItem bag slot swap,
    Steady R w player entry pSrcItem bag slot swap pass := by
  intro pass member
  have bags : ∀ merge nonSpecialized, pass ∈ (inventoryBags.map fun i =>
      lenient (R.canStoreEntryInBag w player entry pSrcItem i merge nonSpecialized bag slot)) →
      Steady R w player entry pSrcItem bag slot swap pass := by
    intro merge nonSpecialized member
    obtain ⟨i, -, rfl⟩ := List.mem_map.mp member
    exact steady_canStoreEntryInBag.lenient
  have named : ∀ merge, Steady R w player entry pSrcItem bag slot swap
      (if bag = inventorySlotBag0 then
        R.canStoreEntryInInventorySlots w player entry pSrcItem merge bag slot
      else R.entryInNamedBag w player entry pSrcItem bag slot merge) := by
    intro merge
    split
    · exact steady_canStoreEntryInInventorySlots
    · exact steady_entryInNamedBag
  simp only [entryPasses, mem_append, mem_ite_nil_right, mem_singleton] at member
  rcases member with (((((specific | inNamed) | stacked) | special) | notEmpty) | free) | last
  · obtain ⟨-, rfl⟩ := specific
    exact steady_canStoreEntryInSpecificSlot
  · obtain ⟨-, ⟨-, rfl⟩ | rfl⟩ := inNamed
    · exact named true
    · exact named false
  · obtain ⟨-, (rfl | ⟨-, inBags⟩) | inBags⟩ := stacked
    · exact steady_canStoreEntryInInventorySlots
    · exact bags true false inBags
    · exact bags true true inBags
  · exact bags false false special.2
  · subst notEmpty
    by_cases full : R.isFullBag w pSrcItem = true
    · exact .fails .bagInBag (by decide) fun r => if_pos full
    · refine .offers [] (fun x isIn => ?_) fun r _ => if_neg full
      cases isIn
  · subst free
    exact steady_canStoreEntryInInventorySlots
  · exact bags false true last

theorem placed_le_searchRoom {passes : List Pass}
    (steady : ∀ pass ∈ passes, Steady R w player entry pSrcItem bag slot swap pass)
    {r : Reserving Place} (left : r.count ≠ 0) : r.placed ≤ (searchRoom passes r).2 := by
  induction passes generalizing r with
  | nil => exact Nat.le_refl _
  | cons pass rest ih =>
    have later := fun q member => steady q (mem_cons_of_mem _ member)
    rw [searchRoom]
    cases steady pass mem_cons_self with
    | fails error _ always =>
      exact Nat.le_of_eq (by rw [always])
    | offers offers _ always =>
      rw [always r left]
      have grows := Reserving.placed_le_fill offers r
      dsimp only
      split
      · exact grows
      · rename_i still
        exact Nat.le_trans grows (ih later still)

/-- What a search for so many may end with, where another one found all the room there is. -/
inductive Ends (noSimilarCount sought : Nat) (found : Option InventoryResult × Nat)
    (answer : InventoryResult × ItemPosCountVec × Option Nat) : Prop
  | all (enough : sought ≤ found.2) (total : (answer.2.1.map Prod.snd).sum = sought)
      (code : answer.1 = if noSimilarCount = 0 then .ok else .itemMaxCount)
      (rest : noSimilarCount ≠ 0 → answer.2.2 = some (noSimilarCount % 2 ^ 32))
  | refused (error : InventoryResult)
      (proper : error ≠ .ok ∧ error ≠ .itemMaxCount ∧ error ≠ .invFull)
      (isIt : found.1 = some error) (short : found.2 < sought) (code : answer.1 = error)
  | full (isIt : found.1 = none) (short : found.2 < sought)
      (total : (answer.2.1.map Prod.snd).sum = found.2) (code : answer.1 = .invFull)
      (rest : answer.2.2 = some ((sought - found.2 + noSimilarCount) % 2 ^ 32))

/-- The plan of an answer is on places in reach that have room. -/
def Within (R : ItemRules) (w : ItemWorld) (player : UInt64) (entry : UInt32)
    (pSrcItem : Option Item) (bag slot : UInt8) (swap : Bool) (sought : Nat) (r : Reserving Place) :
    Prop :=
  r.Sound R.handling (liesAt w player pSrcItem bag slot swap) (Reaches R w player)
    (newItem 0 player entry sought)

variable {sought : Nat}

theorem ends_placeEntry {noSimilarCount more : Nat} {passes : List Pass}
    (steady : ∀ pass ∈ passes, Steady R w player entry pSrcItem bag slot swap pass)
    {r wide : Reserving Place} (same : wide.dest = r.dest) (asked : wide.count = r.count + more)
    (left : r.count ≠ 0) (within : Within R w player entry pSrcItem bag slot swap sought r) :
    (∃ count, Within R w player entry pSrcItem bag slot swap sought
        ⟨(placeEntry noSimilarCount passes r).2.1, count⟩) ∧
      Ends noSimilarCount sought (searchRoom passes wide) (placeEntry noSimilarCount passes r) := by
  have samePlaced : wide.placed = r.placed := by
    rw [Reserving.placed, Reserving.placed, same]
  have total : r.placed + r.count = sought := within.total
  induction passes generalizing r wide with
  | nil =>
    refine ⟨⟨r.count, within⟩, .full rfl ?_ samePlaced.symm rfl ?_⟩
    · rw [searchRoom]
      omega
    · rw [placeEntry, searchRoom]
      rw [samePlaced, ← total, Nat.add_sub_cancel_left]
  | cons pass rest ih =>
    have later := fun q member => steady q (mem_cons_of_mem _ member)
    cases steady pass mem_cons_self with
    | fails error proper always =>
      have short : wide.placed < sought := by omega
      have found : searchRoom (pass :: rest) wide = (some error, wide.placed) := by
        rw [searchRoom, always]
      have answer : ∃ noSpaceCount, placeEntry noSimilarCount (pass :: rest) r =
          (error, r.dest, noSpaceCount) := by
        unfold placeEntry
        rw [always]
        split
        · rename_i bagInBag
          cases bagInBag
          exact ⟨_, rfl⟩
        · rename_i other
          cases other
          exact ⟨_, rfl⟩
        · rename_i passed
          cases passed
      obtain ⟨noSpaceCount, answer⟩ := answer
      rw [found, answer]
      exact ⟨⟨r.count, within⟩, .refused error proper rfl short rfl⟩
    | offers offers roomy always =>
      have leftWide : wide.count ≠ 0 := by omega
      have within' : Within R w player entry pSrcItem bag slot swap sought (r.fill offers) :=
        Reserving.Sound.fill within (fun x member => (roomy x member).1)
          fun x member => (roomy x member).2
      have total' : (r.fill offers).placed + (r.fill offers).count = sought := within'.total
      have grows := Reserving.fill_more offers same asked
      rw [placeEntry, always r left, searchRoom, always wide leftWide]
      dsimp only
      by_cases all : (r.fill offers).count = 0
      · have enough : sought ≤ (wide.fill offers).placed := by
          rcases grows with ⟨sameDest, -⟩ | ⟨-, enough⟩
          · have samePlaced' : (wide.fill offers).placed = (r.fill offers).placed := by
              rw [Reserving.placed, Reserving.placed, sameDest]
            omega
          · omega
        have found : sought ≤ (if (wide.fill offers).count = 0 then
            (none, (wide.fill offers).placed)
            else searchRoom rest (wide.fill offers)).2 := by
          split
          · exact enough
          · rename_i still
            exact Nat.le_trans enough (placed_le_searchRoom later still)
        have planned : ((r.fill offers).dest.map Prod.snd).sum = sought := by
          rw [all] at total'
          exact total'
        rw [if_pos all, all, Nat.zero_add]
        split
        · rename_i none
          exact ⟨⟨_, within'⟩, .all found planned (if_pos none).symm fun some => absurd none some⟩
        · rename_i some
          exact ⟨⟨_, within'⟩, .all found planned (if_neg some).symm fun _ => rfl⟩
      · rcases grows with ⟨sameDest, moreLeft⟩ | ⟨none, -⟩
        · rw [if_neg all, if_neg (by omega)]
          refine ih later sameDest moreLeft all within' ?_ total'
          rw [Reserving.placed, Reserving.placed, sameDest]
        · exact absurd none all

/-! ## The answer -/

theorem canTakeMoreOf_lt (count : UInt32) :
    (R.canTakeMoreOf w player entry count.toNat pSrcItem).2 < 2 ^ 32 := by
  have modulo : ∀ n, n % 2 ^ 32 < 2 ^ 32 := fun n => Nat.mod_lt n (by decide)
  rw [canTakeMoreOf]
  split
  · decide
  split
  · decide
  dsimp only
  split
  · exact modulo _
  split
  · split
    · exact count.toNat_lt
    · split
      · exact modulo _
      · decide
  · decide

theorem canTakeMoreOf_ok {count : Nat}
    (may : (R.canTakeMoreOf w player entry count pSrcItem).1 = .ok) :
    (R.canTakeMoreOf w player entry count pSrcItem).2 = 0 := by
  rw [canTakeMoreOf] at may ⊢
  split
  · rfl
  rename_i notGone
  rw [if_neg notGone] at may
  split
  · rfl
  rename_i limited
  rw [if_neg limited] at may
  dsimp only at may ⊢
  split
  · rename_i tooMuch
    rw [if_pos tooMuch] at may
    cases may
  rename_i under
  rw [if_neg under] at may
  split
  · rename_i category
    rw [if_pos category] at may
    split
    · rename_i unknown
      rw [unknown] at may
      cases may
    rename_i known
    rw [known] at may
    dsimp only at may
    split
    · rename_i tooMuch
      rw [if_pos tooMuch] at may
      cases may
    · rfl
  · rfl

variable {error : InventoryResult} {noSpaceCount : Option Nat}

theorem accounts_nil (refused : error ≠ .ok)
    (all : error = .itemMaxCount ∨ error = .invFull → noSpaceCount = some count.toNat) :
    Accounts R w player entry pSrcItem bag slot count swap (error, [], noSpaceCount) where
  distinct := nodup_nil
  reached := fun _ member => nomatch member
  room := fun _ member => nomatch member
  accepted := fun accepted => absurd accepted refused
  short := by
    intro isIt
    refine ⟨count.toNat, all isIt, Nat.zero_add _, fun _ _ _ => ?_⟩
    rw [storeNewItem]
    rfl

theorem le_roomAt {space : Nat} {k : Place}
    (room : R.handling.Room (liesAt w player pSrcItem bag slot swap) (newItem 0 player entry sought)
      k space) : space ≤ R.roomAt w player entry pSrcItem bag slot swap k := by
  have fits := room.2
  rw [roomAt]
  cases there : liesAt w player pSrcItem bag slot swap k with
  | none =>
    rw [there] at fits
    exact fits
  | some u =>
    rw [there] at fits
    obtain ⟨same, below⟩ := fits
    change u.entry = entry at same
    change u.count + space ≤ R.maxStack entry at below
    dsimp only
    rw [if_pos same]
    omega

variable {dest : ItemPosCountVec}

theorem storeNewItem_roomy {guid : Nat} (tidy : w.Tidy R.maxStack)
    (roomy : R.handling.Roomy w.shelf.get? (newItem guid player entry sought) dest)
    (held : ∀ pc ∈ dest, Place.heldBy player pc.1 = true)
    (small : (dest.map Prod.snd).sum < 2 ^ 32) :
    
    (R.storeNewItem w player entry dest).Tidy R.maxStack ∧
      ∀ e, Shelf.amount (Place.heldBy player) e (R.storeNewItem w player entry dest).shelf =
        Shelf.amount (Place.heldBy player) e w.shelf +
          if entry = e then (dest.map Prod.snd).sum else 0 := by
  rw [storeNewItem, Nat.mod_eq_of_lt small]
  split
  · rename_i nothing
    refine ⟨tidy, fun e => ?_⟩
    split
    · omega
    · rfl
  · have roomy' : R.handling.Roomy w.shelf.get?
        (newItem w.nextGuid player entry (min (dest.map Prod.snd).sum (R.maxStack entry))) dest :=
      ⟨roomy.distinct, roomy.room⟩
    have absent : ¬ ({ w with nextGuid := w.nextGuid + 1 } : ItemWorld).Has w.nextGuid := by
      rintro ⟨k, t, found, same⟩
      exact Nat.ne_of_lt (tidy.old k t found) same
    have tidy' : Store.Tidy R.handling.maxStack ({ w with nextGuid := w.nextGuid + 1 } : ItemWorld) :=
      tidy.later (Nat.le_succ _)
    refine ⟨Handling.tidy_storeItem tidy' absent (Nat.lt_succ_self _) roomy', fun e => ?_⟩
    refine (Handling.amount_storeItem tidy' absent (Nat.lt_succ_self _) roomy'
      (Place.heldBy player) e).trans ?_
    congr 1
    by_cases same : entry = e
    · rw [if_pos same]
      congr 1
      refine map_congr_left fun pc member => if_pos ⟨held pc member, same⟩
    rw [if_neg same]
    refine List.sum_eq_zero_iff_forall_eq_nat.mpr fun n member => ?_
    obtain ⟨pc, -, rfl⟩ := List.mem_map.mp member
    exact if_neg fun both => same both.2

theorem room_newItem {view : Place → Option Item} {guid count : Nat} {k : Place} :
    R.handling.Room view (newItem guid player entry sought) k count ↔ 1 ≤ count ∧
      (view k).elim (count ≤ R.maxStack entry)
        fun u => u.entry = entry ∧ u.count + count ≤ R.maxStack entry := by
  rw [Handling.Room]
  cases view k with
  | none => exact Iff.rfl
  | some u => exact Iff.rfl

theorem liesAt_none (k : Place) : liesAt w player none bag slot false k = w.shelf.get? k := by
  rw [liesAt, if_neg fun isIt => Bool.false_ne_true isIt.1]
  cases w.shelf.get? k with
  | none => rfl
  | some _ => rfl

theorem amount_storeNewItem (tidy : w.Tidy R.maxStack)
    (distinct : (dest.map Prod.fst).Nodup) (reached : ∀ pc ∈ dest, Reaches R w player pc.1)
    (room : ∀ pc ∈ dest, 1 ≤ pc.2 ∧ pc.2 ≤ R.roomAt w player entry none bag slot false pc.1)
    (small : (dest.map Prod.snd).sum < 2 ^ 32) :
    Shelf.amount (Place.heldBy player) entry (R.storeNewItem w player entry dest).shelf =
      Shelf.amount (Place.heldBy player) entry w.shelf + (dest.map Prod.snd).sum := by
  have roomy : R.handling.Roomy w.shelf.get? (newItem 0 player entry 1) dest := by
    refine ⟨distinct, fun pc member => ⟨(room pc member).1, ?_⟩⟩
    have fits := (room pc member).2
    rw [roomAt, liesAt_none] at fits
    cases there : w.shelf.get? pc.1 with
    | none =>
      rw [there] at fits
      exact fits
    | some u =>
      rw [there] at fits
      dsimp only at fits
      have positive := (room pc member).1
      split at fits
      · rename_i same
        refine ⟨same, ?_⟩
        change u.count + pc.2 ≤ R.maxStack entry
        omega
      · omega
  have added := (storeNewItem_roomy tidy roomy (fun pc member => heldBy_of_reaches (reached pc member))
    small).2 entry
  rw [if_pos rfl] at added
  exact added

theorem accounts_of_within
    (within : ∃ left, Within R w player entry pSrcItem bag slot swap sought ⟨dest, left⟩)
    (accepted : error = .ok → (dest.map Prod.snd).sum = count.toNat)
    (short : error = .itemMaxCount ∨ error = .invFull → ∃ rest, noSpaceCount = some rest ∧
      (dest.map Prod.snd).sum + rest = count.toNat) :
    Accounts R w player entry pSrcItem bag slot count swap (error, dest, noSpaceCount) := by
  obtain ⟨left, within⟩ := within
  have room : ∀ pc ∈ dest, 1 ≤ pc.2 ∧ pc.2 ≤ R.roomAt w player entry pSrcItem bag slot swap pc.1 :=
    fun pc member => ⟨(within.room pc member).1, le_roomAt (within.room pc member)⟩
  refine ⟨within.distinct, within.within, room, accepted, fun isIt => ?_⟩
  obtain ⟨rest, told, sum⟩ := short isIt
  refine ⟨rest, told, sum, fun none notSwap tidy => ?_⟩
  subst none
  subst notSwap
  have small : (dest.map Prod.snd).sum < 2 ^ 32 :=
    Nat.lt_of_le_of_lt (sum ▸ Nat.le_add_right _ rest) count.toNat_lt
  rw [amount_storeNewItem tidy within.distinct within.within room small, Nat.add_assoc]
  exact congrArg _ sum

theorem movable_iff : Movable R player entry pSrcItem ↔ R.hasTemplate entry = true ∧
    ¬ (pSrcItem.any fun item => item.attrs.lootGenerated) = true ∧
    ¬ (pSrcItem.any fun item => R.isBindedNotWith item player) = true := by
  rw [Movable]
  cases pSrcItem with
  | none => simp
  | some item => simp

theorem ends_roomFor (noSimilarCount sought : Nat) (some : sought ≠ 0) (fewer : sought < 2 ^ 32) :
    (∃ left, Within R w player entry pSrcItem bag slot swap sought
        ⟨(placeEntry noSimilarCount (R.entryPasses w player entry pSrcItem bag slot swap)
          ⟨[], sought⟩).2.1, left⟩) ∧
      Ends noSimilarCount sought (R.roomFor w player entry pSrcItem bag slot swap)
        (placeEntry noSimilarCount (R.entryPasses w player entry pSrcItem bag slot swap)
          ⟨[], sought⟩) := by
  have more : 2 ^ 32 = sought + (2 ^ 32 - sought) := (Nat.add_sub_cancel' (Nat.le_of_lt fewer)).symm
  exact ends_placeEntry steady_entryPasses rfl more some Reserving.sound_nil

theorem accounts_iff_of_ends {noSimilarCount : Nat} {found : Option InventoryResult × Nat}
    (within : ∃ left, Within R w player entry pSrcItem bag slot swap sought ⟨dest, left⟩)
    (ends : Ends noSimilarCount sought found (error, dest, noSpaceCount))
    (small : noSimilarCount < 2 ^ 32)
    (isIt : noSimilarCount < count.toNat ∧ sought = count.toNat - noSimilarCount ∨
      count.toNat < noSimilarCount ∧ sought = count.toNat + 2 ^ 32 - noSimilarCount) :
    Accounts R w player entry pSrcItem bag slot count swap (error, dest, noSpaceCount) ↔
      (count.toNat < noSimilarCount → match found with
        | (none, room) => room ≤ count.toNat
        | (some _, room) => room + noSimilarCount < count.toNat + 2 ^ 32) := by
  have below := count.toNat_lt
  cases ends with
  | all enough total code rest =>
    dsimp only at total code rest
    rcases isIt with ⟨less, isIt⟩ | ⟨tooMuch, isIt⟩
    · -- what is too many is left out
      refine iff_of_true (accounts_of_within within (fun accepted => ?_) fun short => ?_)
        fun tooMuch => absurd less (Nat.lt_asymm tooMuch)
      · have none : noSimilarCount = 0 := by
          by_contra some
          rw [if_neg some, accepted] at code
          cases code
        omega
      · have some : noSimilarCount ≠ 0 := by
          intro none
          rw [if_pos none] at code
          rw [code] at short
          rcases short with short | short
          · cases short
          · cases short
        exact ⟨_, rest some, by omega⟩
    · -- the count wraps around, and there is room for all of it
      have some : noSimilarCount ≠ 0 := by omega
      refine iff_of_false (fun accounts => ?_) fun cramped => ?_
      · obtain ⟨noSpace, told, sum, -⟩ :=
          accounts.short (Or.inl (code.trans (if_neg some)))
        dsimp only at told sum
        rw [rest some, Nat.mod_eq_of_lt small] at told
        have same := Option.some.inj told
        omega
      · have cramped := cramped tooMuch
        obtain ⟨code', room⟩ := found
        cases code' with
        | none =>
          omega
        | some error =>
          omega
  | refused error proper refusal short code =>
    subst code
    refine iff_of_true (accounts_of_within within (fun accepted => absurd accepted proper.1)
      fun isShort => ?_) fun tooMuch => ?_
    · rcases isShort with isMax | isFull
      · exact absurd isMax proper.2.1
      · exact absurd isFull proper.2.2
    · obtain ⟨code', room⟩ := found
      dsimp only at refusal short
      rw [refusal]
      omega
  | full all short total code rest =>
    dsimp only at total code rest
    subst code
    obtain ⟨code', room⟩ := found
    dsimp only at all short total rest
    rw [all]
    rcases isIt with ⟨less, isIt⟩ | ⟨tooMuch, isIt⟩
    · refine iff_of_true (accounts_of_within within (fun accepted => nomatch accepted)
        fun _ => ⟨_, rest, ?_⟩) fun tooMuch => absurd less (Nat.lt_asymm tooMuch)
      omega
    constructor
    · intro accounts _
      obtain ⟨noSpace, -, sum, -⟩ := accounts.short (Or.inr rfl)
      dsimp only at sum
      omega
    · intro cramped
      have cramped := cramped tooMuch
      refine accounts_of_within within (fun accepted => nomatch accepted) fun _ => ⟨_, rest, ?_⟩
      omega

theorem canStoreEntry_ok {guid : Nat} (positive : count ≠ 0)
    (isOk : R.canStoreEntry w player entry none bag slot [] count false = (.ok, dest, noSpaceCount)) :
    
    R.handling.Roomy w.shelf.get? (newItem guid player entry sought) dest ∧
      (∀ pc ∈ dest, Reaches R w player pc.1) ∧ (dest.map Prod.snd).sum = count.toNat := by
  have none' : ((none : Option Item).any fun item => item.attrs.lootGenerated) = false := rfl
  have none'' : ((none : Option Item).any fun item => R.isBindedNotWith item player) = false := rfl
  have nothing : (R.canTakeMoreOf w player entry count.toNat none).1 = .ok →
      (R.canTakeMoreOf w player entry count.toNat none).2 = 0 := canTakeMoreOf_ok
  have small : (R.canTakeMoreOf w player entry count.toNat none).2 < 2 ^ 32 :=
    canTakeMoreOf_lt count
  unfold canStoreEntry at isOk
  by_cases unknown : (!R.hasTemplate entry) = true
  · rw [if_pos unknown] at isOk
    cases isOk
  rw [if_neg unknown, none', none'', if_neg Bool.false_ne_true, if_neg Bool.false_ne_true] at isOk
  generalize R.canTakeMoreOf w player entry count.toNat none = limit at nothing small isOk
  obtain ⟨res, noSimilarCount⟩ := limit
  dsimp only at nothing small isOk
  by_cases all : res ≠ .ok ∧ count.toNat = noSimilarCount
  · rw [if_pos all] at isOk
    exact absurd (Prod.mk.inj isOk).1 all.1
  rw [if_neg all] at isOk
  have differ : count.toNat ≠ noSimilarCount := by
    intro same
    by_cases may : res = .ok
    · exact positive (UInt32.toNat_inj.mp (same.trans (nothing may)))
    · exact all ⟨may, same⟩
  have below := count.toNat_lt
  obtain ⟨⟨left, within⟩, ends⟩ := @ends_roomFor R w player entry none bag slot false noSimilarCount
    ((count.toNat + 2 ^ 32 - noSimilarCount) % 2 ^ 32) (by omega) (by omega)
  rw [isOk] at within ends
  generalize isSought : (count.toNat + 2 ^ 32 - noSimilarCount) % 2 ^ 32 = n at within ends
  cases ends with
  | refused error proper isIt short code => exact absurd code.symm proper.1
  | full isIt short total code rest => cases code
  | all enough total code rest =>
    have isZero : noSimilarCount = 0 := by
      by_contra isSome
      rw [if_neg isSome] at code
      cases code
    dsimp only at total
    refine ⟨⟨within.distinct, fun pc member => ?_⟩, within.within, by omega⟩
    have view : liesAt w player none bag slot false = w.shelf.get? := funext liesAt_none
    exact room_newItem.mpr (room_newItem.mp (view ▸ within.room pc member))

/-- **`CanStoreItem` accounts for every unit unless more are too many than are asked for** and that
much room is found. -/
theorem canStoreEntry_accounts_iff (R : ItemRules) (w : ItemWorld) (player : UInt64)
    (entry : UInt32) (pSrcItem : Option Item) (bag slot : UInt8) (count : UInt32) (swap : Bool)
    (positive : count ≠ 0) :
    Accounts R w player entry pSrcItem bag slot count swap
        (R.canStoreEntry w player entry pSrcItem bag slot [] count swap) ↔
      (Movable R player entry pSrcItem → Overfull R w player entry pSrcItem count →
        Cramped R w player entry pSrcItem bag slot count swap) := by
  by_cases movable : Movable R player entry pSrcItem
  · obtain ⟨known, notGone, notBound⟩ := movable_iff.mp movable
    have nothing : (R.canTakeMoreOf w player entry count.toNat pSrcItem).1 = .ok →
        (R.canTakeMoreOf w player entry count.toNat pSrcItem).2 = 0 := canTakeMoreOf_ok
    have small : (R.canTakeMoreOf w player entry count.toNat pSrcItem).2 < 2 ^ 32 :=
      canTakeMoreOf_lt count
    rw [imp_iff_right movable, canStoreEntry, known, Bool.not_true, if_neg Bool.false_ne_true,
      if_neg notGone, if_neg notBound, Overfull, Cramped]
    generalize R.canTakeMoreOf w player entry count.toNat pSrcItem = limit at nothing small
    obtain ⟨res, noSimilarCount⟩ := limit
    dsimp only at nothing small ⊢
    by_cases all : res ≠ .ok ∧ count.toNat = noSimilarCount
    · -- all of them are too many
      rw [if_pos all]
      exact iff_of_true (accounts_nil all.1 fun _ => congrArg some all.2.symm)
        fun tooMuch => absurd all.2 (Nat.ne_of_lt tooMuch)
    · have differ : count.toNat ≠ noSimilarCount := by
        intro same
        by_cases may : res = .ok
        · exact positive (UInt32.toNat_inj.mp (same.trans (nothing may)))
        · exact all ⟨may, same⟩
      have below := count.toNat_lt
      obtain ⟨within, ends⟩ := ends_roomFor (R := R) (w := w) noSimilarCount
        ((count.toNat + 2 ^ 32 - noSimilarCount) % 2 ^ 32) (by omega) (by omega)
      rw [if_neg all]
      exact accounts_iff_of_ends within ends small (by omega)
  · refine iff_of_true ?_ fun may => absurd may movable
    rw [canStoreEntry]
    split
    · refine accounts_nil ?_ fun _ => rfl
      split
      · decide
      · decide
    · rename_i known
      split
      · exact accounts_nil (by decide) fun _ => rfl
      rename_i notGone
      split
      · exact accounts_nil (by decide) fun _ => rfl
      rename_i notBound
      have isKnown : R.hasTemplate entry = true := by
        cases has : R.hasTemplate entry with
        | false =>
          rw [has] at known
          exact absurd rfl known
        | true => rfl
      exact absurd (movable_iff.mpr ⟨isKnown, notGone, notBound⟩) movable

def threeOwned : ItemWorld where
  shelf := { toList := [⟨.inventory 1 255 23, newItem 10 1 1 3⟩], nodup := by decide }
  nextGuid := 20

theorem canStoreEntry_accounts_without_limit :
    Accounts (.tradeGoods 0) threeOwned 1 1 none nullBag nullSlot 30 false
      ((ItemRules.tradeGoods 0).canStoreEntry threeOwned 1 1 none nullBag nullSlot [] 30 false) := by
  refine (canStoreEntry_accounts_iff (.tradeGoods 0) threeOwned 1 1 none nullBag nullSlot 30 false
    (by decide)).mpr fun _ tooMuch => ?_
  have none : ((ItemRules.tradeGoods 0).canTakeMoreOf threeOwned 1 1 30 none).2 = 0 := by decide
  exact absurd tooMuch (by rw [Overfull]; exact none ▸ Nat.not_lt_zero _)

/-- Who owns three of what one may own one of, and is to get one, gets all that there is room
for. -/
theorem not_accounts_of_overfull :
    ¬ Accounts (.tradeGoods 1) threeOwned 1 1 none nullBag nullSlot 1 false
      ((ItemRules.tradeGoods 1).canStoreEntry threeOwned 1 1 none nullBag nullSlot [] 1 false) := by
  intro accounts
  have full : ((ItemRules.tradeGoods 1).canStoreEntry threeOwned 1 1 none nullBag nullSlot [] 1
      false).1 = .invFull := by decide +kernel
  have planned : (((ItemRules.tradeGoods 1).canStoreEntry threeOwned 1 1 none nullBag nullSlot [] 1
      false).2.1.map Prod.snd).sum = 317 := by decide +kernel
  obtain ⟨noSpaceCount, -, sum, -⟩ := accounts.short (Or.inr full)
  rw [planned] at sum
  change 317 + noSpaceCount = 1 at sum
  omega

end ItemRules

end Sky548
