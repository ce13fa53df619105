import Sky548.Items.Planning

/-!
# Finding items, and taking them away

What `GetItemByGuid` and `GetItemByPos` find, and that what lies elsewhere is still found once items
are taken away that are no bags in use.
-/

namespace Sky548

namespace ItemRules

variable {R : ItemRules} {w w' : ItemWorld} {player : UInt64} {item : Item} {k : Place}

theorem getItemByGuid_spec {guid : Nat} (found : R.getItemByGuid w player guid = some (k, item)) :
    Reaches R w player k ∧ w.shelf.get? k = some item ∧ item.guid = guid := by
  rw [getItemByGuid] at found
  obtain ⟨j, member, isIt⟩ := List.exists_of_findSome?_eq_some found
  obtain ⟨there, filtered, same⟩ := Option.map_eq_some_iff.mp isIt
  obtain ⟨rfl, rfl⟩ := Prod.mk.inj same
  obtain ⟨lies, isGuid⟩ := Option.filter_eq_some_iff.mp filtered
  refine ⟨?_, lies, of_decide_eq_true isGuid⟩
  rw [List.mem_append, List.mem_append, List.mem_append] at member
  rcases member with ((own | bank) | bags) | bags
  · exact reaches_slotPlaces (by decide) own
  · exact reaches_slotPlaces (by decide) bank
  · obtain ⟨bag, -, inBag⟩ := List.mem_flatMap.mp bags
    exact reaches_bagPlaces inBag
  · obtain ⟨bag, -, inBag⟩ := List.mem_flatMap.mp bags
    exact reaches_bagPlaces inBag

theorem placeOf_eq {maxStack : UInt32 → Nat} (tidy : w.Tidy maxStack)
    (found : w.shelf.get? k = some item) : placeOf w item.guid = some k := by
  rw [placeOf]
  cases first : w.shelf.toList.find? (fun x => x.stack.guid = item.guid) with
  | none =>
    have none := List.find?_eq_none.mp first ⟨k, item⟩ (Shelf.get?_eq_some_iff.mp found)
    exact absurd (decide_eq_true rfl) none
  | some x =>
    obtain ⟨j, there⟩ := x
    have hit := List.find?_some first
    have same : there.guid = item.guid := of_decide_eq_true hit
    have lies := Shelf.get?_eq_some_iff.mpr (List.mem_of_find?_eq_some first)
    rw [Option.map_some]
    exact congrArg some (tidy.apart j k there item lies found same)

theorem not_bag_of_canBeTraded {now : Circumstances} {maxStack : UInt32 → Nat} {bag slot : UInt8}
    (tidy : w.Tidy maxStack) (found : w.shelf.get? (.inventory player bag slot) = some item)
    {mail trade : Bool} (can : R.canBeTraded w now item mail trade = true) :
    ¬ (isBagPos bag slot = true ∧ R.isBag item = true) := by
  rintro ⟨bagPos, isBag⟩
  rw [canBeTraded] at can
  split at can
  · cases can
  split at can
  · cases can
  rw [placeOf_eq tidy found] at can
  dsimp only at can
  rw [if_pos (by rw [isBag, bagPos]; rfl)] at can
  cases can

theorem getBagByPos_congr {bag : UInt8} {places : List Place}
    (noBag : ∀ bag item, Place.inventory player inventorySlotBag0 bag ∈ places →
      w.shelf.get? (.inventory player inventorySlotBag0 bag) = some item →
      ¬ (isBagPos inventorySlotBag0 bag = true ∧ R.isBag item = true)) :
    R.getBagByPos (w.takeAll places) player bag = R.getBagByPos w player bag := by
  rw [getBagByPos, getBagByPos]
  split
  · rename_i isSlot
    rw [Store.get?_takeAll]
    split
    · rename_i member
      rcases there : w.shelf.get? (.inventory player inventorySlotBag0 bag) with _ | item
      · rfl
      have notBag : R.isBag item = false := by
        have neither := noBag bag item member there
        rw [isBagPos, isSlot, decide_eq_true rfl] at neither
        simpa using neither
      rw [Option.filter_some, if_neg (by rw [notBag]; exact Bool.false_ne_true)]
      rfl
    · rfl
  · rfl

theorem getItemByPos_takeAll {bag slot : UInt8} {places : List Place}
    (noBag : ∀ bag item, Place.inventory player inventorySlotBag0 bag ∈ places →
      w.shelf.get? (.inventory player inventorySlotBag0 bag) = some item →
      ¬ (isBagPos inventorySlotBag0 bag = true ∧ R.isBag item = true))
    (other : Place.inventory player bag slot ∉ places) :
    R.getItemByPos (w.takeAll places) player bag slot = R.getItemByPos w player bag slot := by
  rw [getItemByPos, getItemByPos, getBagByPos_congr noBag, Store.get?_takeAll, if_neg other]

theorem getBagByPos_of_same {bag : UInt8} (same : isBagSlot bag = true →
      (w'.shelf.get? (.inventory player inventorySlotBag0 bag)).filter R.isBag =
        (w.shelf.get? (.inventory player inventorySlotBag0 bag)).filter R.isBag) :
    R.getBagByPos w' player bag = R.getBagByPos w player bag := by
  rw [getBagByPos, getBagByPos]
  split
  · rename_i isSlot
    exact same isSlot
  · rfl

theorem getItemByPos_of_bags {bag slot : UInt8}
    (found : R.getItemByPos w player bag slot = some item)
    (bags : R.getBagByPos w' player bag = R.getBagByPos w player bag) :
    R.getItemByPos w' player bag slot = w'.shelf.get? (.inventory player bag slot) := by
  rw [getItemByPos] at found ⊢
  rw [bags]
  split
  · rfl
  rename_i notOwn
  rw [if_neg notOwn] at found
  cases isBag : R.getBagByPos w player bag with
  | none =>
    rw [isBag] at found
    cases found
  | some pBag =>
    rw [isBag] at found
    dsimp only at found ⊢
    split at found
    · rename_i small
      rw [if_pos small]
    · cases found

end ItemRules

end Sky548
