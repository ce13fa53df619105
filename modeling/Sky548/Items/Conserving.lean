import Sky548.Items.Placing

/-!
# Well-formed inventories, and what a move may do to one

An inventory is well formed when its shelf is tidy and everything in it lies in one of the player's
slots or in a bag that is there. A relocation keeps it so (`WellFormed.relocated`), and so does
storing by a plan (`stowed_storeItem`). What a move may do at most is `Lawful`.
-/

namespace Sky548

open Equiv

namespace ItemRules

/-- The place is one of the player's slots or in a bag of his; of others' places nothing is said. -/
def Lodged (R : ItemRules) (w : ItemWorld) (player : UInt64) : Place → Prop
  | .bank _ _ => True
  | .inventory owner bag slot => owner = player →
      bag = inventorySlotBag0 ∧ slot.toNat < playerSlotEnd ∨
        ∃ pBag, R.getBagByPos w player bag = some pBag ∧ slot.toNat < R.getBagSize pBag

/-- **A well-formed inventory**: no object in two slots, no stack empty or too large, and what lies in
a bag lies in a bag that is there. -/
structure WellFormed (R : ItemRules) (w : ItemWorld) (player : UInt64) : Prop where
  tidy : w.Tidy R.maxStack
  lodged : ∀ k t, w.shelf.get? k = some t → Lodged R w player k

variable {R : ItemRules} {w w' : ItemWorld} {player : UInt64} {src dst pos : ItemPos} {item : Item}

variable {bag : UInt8} {pBag : Item}

theorem isBagSlot_of_getBagByPos (isBag : R.getBagByPos w player bag = some pBag) :
    isBagSlot bag = true := by
  rw [getBagByPos] at isBag
  split at isBag
  · rename_i isSlot
    exact isSlot
  · cases isBag

theorem getBagByPos_eq_some :
    R.getBagByPos w player bag = some pBag ↔ isBagSlot bag = true ∧ R.isBag pBag = true ∧
      w.shelf.get? (.inventory player inventorySlotBag0 bag) = some pBag := by
  constructor
  · intro isBag
    have isSlot := isBagSlot_of_getBagByPos isBag
    rw [getBagByPos, if_pos isSlot] at isBag
    obtain ⟨there, bag⟩ := Option.filter_eq_some_iff.mp isBag
    exact ⟨isSlot, bag, there⟩
  · intro parts
    obtain ⟨isSlot, bag, there⟩ := parts
    rw [getBagByPos, if_pos isSlot, there, Option.filter_some, if_pos bag]

theorem isBagSlot_ne (isSlot : isBagSlot bag = true) : bag ≠ inventorySlotBag0 := by
  rintro rfl
  exact absurd isSlot (by decide)

theorem reaches_of_itemAtPos (found : R.itemAtPos w player pos = some item) :
    Reaches R w player (pos.place player) ∧ w.shelf.get? (pos.place player) = some item := by
  have reaches : Reaches R w player (pos.place player) := reaches_of_getItemByPos found
  obtain ⟨bag, slot, place, reads⟩ := reaches.reads
  obtain ⟨-, rfl, rfl⟩ := Place.inventory.inj place
  exact ⟨reaches, reads.symm.trans found⟩

section

variable (reaches : Reaches R w player (pos.place player))

include reaches

theorem Reaches.cases : pos.bag = inventorySlotBag0 ∧ pos.slot.toNat < bankSlotBagEnd ∨
      ∃ pBag, R.getBagByPos w player pos.bag = some pBag ∧ pos.slot.toNat < R.getBagSize pBag := by
  obtain ⟨bag, slot, place, which⟩ := reaches
  obtain ⟨-, rfl, rfl⟩ := Place.inventory.inj place
  exact which

theorem Reaches.itemAtPos_eq : R.itemAtPos w player pos = w.shelf.get? (pos.place player) := by
  obtain ⟨bag, slot, place, reads⟩ := reaches.reads
  obtain ⟨-, rfl, rfl⟩ := Place.inventory.inj place
  exact reads

theorem Reaches.exact : pos.Exact := by
  rcases reaches.cases with ⟨own, small⟩ | ⟨pBag, isBag, small⟩
  · refine ⟨fun isNull => ?_, fun isNull => ?_⟩
    · rw [isNull] at own
      cases own
    · rw [isNull] at small
      exact absurd small (by decide)
  · refine ⟨fun isNull => ?_, fun isNull => ?_⟩
    · rw [isNull] at isBag
      exact absurd (isBagSlot_of_getBagByPos isBag) (by decide)
    · rw [isNull] at small
      exact absurd small (Nat.not_lt.mpr
        (Nat.le_trans (R.getItemTemplate pBag.entry).slots_le (by decide)))

theorem Reaches.kind : pos.Kind := by
  rw [ItemPos.Kind, ItemPos.isInventory, ItemPos.isBank, ItemPos.isEquipment, isInventoryPos]
  simp only [Bool.or_eq_true, Bool.and_eq_true, decide_eq_true_eq]
  rcases reaches.cases with ⟨own, small⟩ | ⟨pBag, isBag, -⟩
  · have small : pos.slot.toNat < 74 := small
    have range : pos.slot.toNat < 19 ∨ (19 ≤ pos.slot.toNat ∧ pos.slot.toNat < 23) ∨
        (23 ≤ pos.slot.toNat ∧ pos.slot.toNat < 39) ∨
        (39 ≤ pos.slot.toNat ∧ pos.slot.toNat < 67) ∨
        (67 ≤ pos.slot.toNat ∧ pos.slot.toNat < 74) := by omega
    rcases range with worn | bag | own' | bank | bankBag
    · exact Or.inr (Or.inl ⟨own, worn⟩)
    · exact Or.inr (Or.inr ⟨own, bag⟩)
    · exact Or.inl (Or.inl (Or.inl (Or.inr ⟨own, own'⟩)))
    · exact Or.inl (Or.inr (Or.inl (Or.inl ⟨own, bank⟩)))
    · exact Or.inl (Or.inr (Or.inl (Or.inr ⟨own, bankBag⟩)))
  · have isSlot := isBagSlot_of_getBagByPos isBag
    simp only [isBagSlot, Bool.or_eq_true, Bool.and_eq_true, decide_eq_true_eq] at isSlot
    rcases isSlot with bag | bankBag
    · exact Or.inl (Or.inl (Or.inr bag))
    · exact Or.inl (Or.inr (Or.inr bankBag))

end

variable {k : Place}

theorem Reaches.lodged (reaches : Reaches R w player k) : Lodged R w player k := by
  obtain ⟨bag, slot, rfl, ⟨own, small⟩ | inBag⟩ := reaches
  · exact fun _ => Or.inl ⟨own, Nat.lt_trans small (by decide)⟩
  · exact fun _ => Or.inr inBag

theorem isNotEmptyBag_of_get? {slot : UInt8} (tidy : w.Tidy R.maxStack)
    (isBag : R.getBagByPos w player bag = some pBag) (small : slot.toNat < R.getBagSize pBag)
    (lies : w.shelf.get? (.inventory player bag slot) = some item) :
    R.isNotEmptyBag w pBag = true := by
  obtain ⟨isSlot, bagItem, there⟩ := getBagByPos_eq_some.mp isBag
  have member : Place.inventory player bag slot ∈ R.bagPlaces w player bag := by
    rw [bagPlaces, isBag]
    refine List.mem_map.mpr ⟨slot.toNat, List.mem_range.mpr small, ?_⟩
    rw [UInt8.ofNat_toNat]
  rw [isNotEmptyBag, bagItem, placeOf_eq tidy there, Bool.true_and]
  dsimp only
  rw [Sky548.isBagPos, isSlot, Bool.and_true, decide_eq_true rfl, Bool.true_and]
  refine List.any_eq_true.mpr ⟨_, member, ?_⟩
  rw [lies]
  rfl

/-! ## Where things go -/

/-- Two positions trade what is there; bags in bag slots take along what is in them. -/
def relocation (player : UInt64) (src dst : ItemPos) : Equiv.Perm Place :=
  if src.isBagPos && dst.isBagPos then
    (bagsTradePerm player src.slot dst.slot).symm.trans
      (Equiv.swap (src.place player) (dst.place player))
  else Equiv.swap (src.place player) (dst.place player)

theorem bagsTradePerm_symm_apply (player : UInt64) (a b : UInt8) (k : Place) :
    (bagsTradePerm player a b).symm k = bagsTrade player a b k := rfl

theorem heldBy_swap (k : Place) :
    (Equiv.swap (src.place player) (dst.place player) k).heldBy player = k.heldBy player := by
  by_cases atSrc : k = src.place player
  · rw [atSrc, swap_apply_left]
    rfl
  by_cases atDst : k = dst.place player
  · rw [atDst, swap_apply_right]
    rfl
  · rw [swap_apply_of_ne_of_ne atSrc atDst]

theorem heldBy_bagsTrade (a b : UInt8) (k : Place) :
    (bagsTrade player a b k).heldBy player = k.heldBy player := by
  cases k with
  | bank tabId slotId => rfl
  | inventory owner bag slot =>
    rw [bagsTrade]
    split
    · rfl
    · rfl

theorem heldBy_relocation (k : Place) :
    (relocation player src dst k).heldBy player = k.heldBy player := by
  rw [relocation]
  split
  · rw [trans_apply, heldBy_swap, bagsTradePerm_symm_apply, heldBy_bagsTrade]
  · exact heldBy_swap k

theorem getBagByPos_of_rearranged {π : Equiv.Perm Place} {bag' : UInt8}
    (arranged : w.Rearranged π w') (isBag : R.getBagByPos w player bag = some pBag)
    (isSlot : isBagSlot bag' = true)
    (goes : π (.inventory player inventorySlotBag0 bag') = .inventory player inventorySlotBag0 bag) :
    ∃ pBag', R.getBagByPos w' player bag' = some pBag' ∧ pBag'.entry = pBag.entry := by
  obtain ⟨-, bagItem, there⟩ := getBagByPos_eq_some.mp isBag
  obtain ⟨u, lies, core⟩ := arranged.has there
  rw [← goes, symm_apply_apply] at lies
  have entry : u.entry = pBag.entry := (Stack.of_core_eq core).2.1
  refine ⟨u, getBagByPos_eq_some.mpr ⟨isSlot, ?_, lies⟩, entry⟩
  rw [ItemRules.isBag, entry]
  exact bagItem

theorem getBagSize_congr {u t : Item} (same : u.entry = t.entry) :
    R.getBagSize u = R.getBagSize t := by
  rw [getBagSize, getBagSize, same]

theorem lodged_of_bags {a b : UInt8} (slotA : isBagSlot a = true) (slotB : isBagSlot b = true)
    (lodged : ∀ k t, w.shelf.get? k = some t → Lodged R w player k)
    (arranged : w.Rearranged ((bagsTradePerm player a b).symm.trans
      (Equiv.swap (.inventory player inventorySlotBag0 a) (.inventory player inventorySlotBag0 b)))
      w') :
    ∀ k t, w'.shelf.get? k = some t → Lodged R w' player k := by
  have notA := isBagSlot_ne slotA
  have notB := isBagSlot_ne slotB
  have small : ∀ {x : UInt8}, isBagSlot x = true → x.toNat < playerSlotEnd := by
    intro x isSlot
    simp only [isBagSlot, Bool.or_eq_true, Bool.and_eq_true, decide_eq_true_eq] at isSlot
    rcases isSlot with ⟨-, below⟩ | ⟨-, below⟩
    · exact Nat.lt_trans below (by decide)
    · exact Nat.lt_trans below (by decide)
  -- the own slots trade as the bags do
  have own : ∀ x, ((bagsTradePerm player a b).symm.trans (Equiv.swap
      (Place.inventory player inventorySlotBag0 a) (.inventory player inventorySlotBag0 b)))
      (.inventory player inventorySlotBag0 x) =
        .inventory player inventorySlotBag0 (Equiv.swap a b x) := by
    intro x
    rw [trans_apply, bagsTradePerm_symm_apply, bagsTrade, if_pos rfl,
      swap_apply_of_ne_of_ne notA.symm notB.symm]
    by_cases isA : x = a
    · rw [isA, swap_apply_left, swap_apply_left]
    by_cases isB : x = b
    · rw [isB, swap_apply_right, swap_apply_right]
    rw [swap_apply_of_ne_of_ne isA isB, swap_apply_of_ne_of_ne]
    · intro same
      exact isA (Place.inventory.inj same).2.2
    · intro same
      exact isB (Place.inventory.inj same).2.2
  intro k t found
  cases k with
  | bank tabId slotId => trivial
  | inventory owner bag slot =>
    intro isOwn
    subst isOwn
    obtain ⟨u, lies, -⟩ := arranged.get? found
    by_cases isOwnSlot : bag = inventorySlotBag0
    · left
      refine ⟨isOwnSlot, ?_⟩
      rw [isOwnSlot, own] at lies
      by_cases isA : slot = a
      · rw [isA]
        exact small slotA
      by_cases isB : slot = b
      · rw [isB]
        exact small slotB
      rw [swap_apply_of_ne_of_ne isA isB] at lies
      rcases lodged _ u lies rfl with ⟨-, below⟩ | ⟨pBag, isBag, -⟩
      · exact below
      · exact absurd (isBagSlot_of_getBagByPos isBag) (by decide)
    · right
      have notOwn : Equiv.swap a b bag ≠ inventorySlotBag0 := by
        intro same
        rw [← swap_apply_of_ne_of_ne notA.symm notB.symm] at same
        exact isOwnSlot ((Equiv.swap a b).injective same)
      have goes : ((bagsTradePerm owner a b).symm.trans (Equiv.swap
          (Place.inventory owner inventorySlotBag0 a) (.inventory owner inventorySlotBag0 b)))
          (.inventory owner bag slot) = .inventory owner (Equiv.swap a b bag) slot := by
        rw [trans_apply, bagsTradePerm_symm_apply, bagsTrade, if_pos rfl, swap_apply_of_ne_of_ne]
        · intro same
          exact notOwn (Place.inventory.inj same).2.1
        · intro same
          exact notOwn (Place.inventory.inj same).2.1
      rw [goes] at lies
      rcases lodged _ u lies rfl with ⟨isOwn, -⟩ | ⟨pBag, isBag, below⟩
      · exact absurd isOwn notOwn
      have isSlot : isBagSlot bag = true := by
        have isSlot' := isBagSlot_of_getBagByPos isBag
        by_cases isA : bag = a
        · rw [isA]
          exact slotA
        by_cases isB : bag = b
        · rw [isB]
          exact slotB
        · rwa [swap_apply_of_ne_of_ne isA isB] at isSlot'
      obtain ⟨pBag', isBag', entry⟩ := getBagByPos_of_rearranged arranged isBag isSlot (own bag)
      exact ⟨pBag', isBag', getBagSize_congr (R := R) entry ▸ below⟩

theorem lodged_of_swap (wf : WellFormed R w player)
    (reachesSrc : Reaches R w player (src.place player))
    (reachesDst : Reaches R w player (dst.place player))
    (notOut : ¬ (src.isBagPos = true ∧ src.slot = dst.bag))
    (notIn : ¬ (dst.isBagPos = true ∧ src.bag = dst.slot))
    (emptySrc : src.isBagPos = true → ∀ t, w.shelf.get? (src.place player) = some t →
      R.isNotEmptyBag w t = false)
    (emptyDst : dst.isBagPos = true → ∀ t, w.shelf.get? (dst.place player) = some t →
      R.isNotEmptyBag w t = false)
    (arranged : w.Rearranged (Equiv.swap (src.place player) (dst.place player)) w') :
    ∀ k t, w'.shelf.get? k = some t → Lodged R w' player k := by
  -- the bags around the two positions stay
  have around : ∀ {x pBag}, R.getBagByPos w player x = some pBag →
      Place.inventory player inventorySlotBag0 x ≠ src.place player →
      Place.inventory player inventorySlotBag0 x ≠ dst.place player →
      ∃ pBag', R.getBagByPos w' player x = some pBag' ∧ pBag'.entry = pBag.entry := by
    intro x pBag isBag notSrc notDst
    exact getBagByPos_of_rearranged arranged isBag (isBagSlot_of_getBagByPos isBag)
      (swap_apply_of_ne_of_ne notSrc notDst)
  have isBagPos_of : ∀ {pos : ItemPos} {x : UInt8}, isBagSlot x = true →
      Place.inventory player inventorySlotBag0 x = pos.place player →
      pos.isBagPos = true ∧ pos.slot = x := by
    intro pos x isSlot same
    obtain ⟨-, bag, slot⟩ := Place.inventory.inj same
    refine ⟨?_, slot.symm⟩
    rw [ItemPos.isBagPos, Sky548.isBagPos, ← bag, ← slot, isSlot]
    rfl
  have lodgedAt : ∀ {pos : ItemPos}, Reaches R w player (pos.place player) →
      (∀ x, isBagSlot x = true → x = pos.bag →
        Place.inventory player inventorySlotBag0 x ≠ src.place player ∧
          Place.inventory player inventorySlotBag0 x ≠ dst.place player) →
      Lodged R w' player (pos.place player) := by
    intro pos reaches apart _
    rcases reaches.cases with ⟨own, small⟩ | ⟨pBag, isBag, small⟩
    · exact Or.inl ⟨own, Nat.lt_trans small (by decide)⟩
    · obtain ⟨notSrc, notDst⟩ := apart pos.bag (isBagSlot_of_getBagByPos isBag) rfl
      obtain ⟨pBag', isBag', entry⟩ := around isBag notSrc notDst
      exact Or.inr ⟨pBag', isBag', getBagSize_congr (R := R) entry ▸ small⟩
  intro k t found
  by_cases atSrc : k = src.place player
  · rw [atSrc]
    refine lodgedAt reachesSrc fun x isSlot isBag => ⟨fun same => ?_, fun same => ?_⟩
    · have bag := (Place.inventory.inj same).2.1
      exact isBagSlot_ne isSlot (isBag.trans bag.symm)
    · obtain ⟨isBagPos, isX⟩ := isBagPos_of isSlot same
      exact notIn ⟨isBagPos, (isX.trans isBag).symm⟩
  by_cases atDst : k = dst.place player
  · rw [atDst]
    refine lodgedAt reachesDst fun x isSlot isBag => ⟨fun same => ?_, fun same => ?_⟩
    · obtain ⟨isBagPos, isX⟩ := isBagPos_of isSlot same
      exact notOut ⟨isBagPos, isX.trans isBag⟩
    · have bag := (Place.inventory.inj same).2.1
      exact isBagSlot_ne isSlot (isBag.trans bag.symm)
  obtain ⟨u, lies, -⟩ := arranged.get? found
  rw [swap_apply_of_ne_of_ne atSrc atDst] at lies
  cases k with
  | bank tabId slotId => trivial
  | inventory owner bag slot =>
    intro isOwn
    subst isOwn
    rcases wf.lodged _ u lies rfl with own | ⟨pBag, isBag, small⟩
    · exact Or.inl own
    have full := isNotEmptyBag_of_get? wf.tidy isBag small lies
    have isSlot := isBagSlot_of_getBagByPos isBag
    obtain ⟨-, -, there⟩ := getBagByPos_eq_some.mp isBag
    have notSrc : Place.inventory owner inventorySlotBag0 bag ≠ src.place owner := by
      intro same
      rw [same] at there
      rw [emptySrc (isBagPos_of isSlot same).1 pBag there] at full
      cases full
    have notDst : Place.inventory owner inventorySlotBag0 bag ≠ dst.place owner := by
      intro same
      rw [same] at there
      rw [emptyDst (isBagPos_of isSlot same).1 pBag there] at full
      cases full
    obtain ⟨pBag', isBag', entry⟩ := around isBag notSrc notDst
    exact Or.inr ⟨pBag', isBag', getBagSize_congr (R := R) entry ▸ small⟩

/-- **A relocation keeps an inventory well formed** when bags with contents only go from bag slot to
bag slot and no bag goes into itself. -/
theorem WellFormed.relocated (wf : WellFormed R w player)
    (reachesSrc : Reaches R w player (src.place player))
    (reachesDst : Reaches R w player (dst.place player))
    (notOut : ¬ (src.isBagPos = true ∧ src.slot = dst.bag))
    (notIn : ¬ (dst.isBagPos = true ∧ src.bag = dst.slot))
    (fullSrc : ∀ t, w.shelf.get? (src.place player) = some t → R.isNotEmptyBag w t = true →
      dst.isBagPos = true)
    (fullDst : ∀ t, w.shelf.get? (dst.place player) = some t → R.isNotEmptyBag w t = true →
      src.isBagPos = true)
    (arranged : w.Rearranged (relocation player src dst) w') : WellFormed R w' player where
  tidy := arranged.tidy wf.tidy
  lodged := by
    rw [relocation] at arranged
    by_cases both : (src.isBagPos && dst.isBagPos) = true
    · rw [if_pos both] at arranged
      obtain ⟨bagSrc, bagDst⟩ := Bool.and_eq_true _ _ ▸ both
      obtain ⟨ownSrc, slotSrc⟩ := Bool.and_eq_true _ _ ▸ bagSrc
      obtain ⟨ownDst, slotDst⟩ := Bool.and_eq_true _ _ ▸ bagDst
      have placeSrc : src.place player = .inventory player inventorySlotBag0 src.slot := by
        rw [ItemPos.place, of_decide_eq_true ownSrc]
      have placeDst : dst.place player = .inventory player inventorySlotBag0 dst.slot := by
        rw [ItemPos.place, of_decide_eq_true ownDst]
      rw [placeSrc, placeDst] at arranged
      exact lodged_of_bags slotSrc slotDst wf.lodged arranged
    · rw [if_neg both] at arranged
      rw [Bool.and_eq_true, not_and_or] at both
      refine lodged_of_swap wf reachesSrc reachesDst notOut notIn (fun bagSrc t there => ?_)
        (fun bagDst t there => ?_) arranged
      · refine Bool.eq_false_iff.mpr fun full => ?_
        exact both.elim (fun not => not bagSrc) fun not => not (fullSrc t there full)
      · refine Bool.eq_false_iff.mpr fun full => ?_
        exact both.elim (fun not => not (fullDst t there full)) fun not => not bagDst

theorem lodged_of_places (bags : ∀ x pBag, R.getBagByPos w player x = some pBag →
      ∃ pBag', R.getBagByPos w' player x = some pBag' ∧ pBag'.entry = pBag.entry)
    (places : ∀ k t, w'.shelf.get? k = some t → Lodged R w player k) :
    ∀ k t, w'.shelf.get? k = some t → Lodged R w' player k := by
  intro k t found
  cases k with
  | bank tabId slotId => trivial
  | inventory owner bag slot =>
    intro isOwn
    rcases places _ t found isOwn with own | ⟨pBag, isBag, small⟩
    · exact Or.inl own
    · obtain ⟨pBag', isBag', entry⟩ := bags bag pBag isBag
      exact Or.inr ⟨pBag', isBag', getBagSize_congr (R := R) entry ▸ small⟩

theorem getBagByPos_of_stays (stays : w.Stays w') {x : UInt8}
    (isBag : R.getBagByPos w player x = some pBag) :
    ∃ pBag', R.getBagByPos w' player x = some pBag' ∧ pBag'.entry = pBag.entry := by
  obtain ⟨isSlot, bagItem, there⟩ := getBagByPos_eq_some.mp isBag
  obtain ⟨u, there', -, entry⟩ := stays _ pBag there
  refine ⟨u, getBagByPos_eq_some.mpr ⟨isSlot, ?_, there'⟩, entry⟩
  rw [ItemRules.isBag, entry]
  exact bagItem

theorem getBagByPos_take (noBag : ∀ bag t, k = .inventory player inventorySlotBag0 bag →
      w.shelf.get? k = some t → ¬ (isBagSlot bag = true ∧ R.isBag t = true)) {x : UInt8} (isBag : R.getBagByPos w player x = some pBag) :
    R.getBagByPos (w.take k) player x = some pBag := by
  obtain ⟨isSlot, bagItem, there⟩ := getBagByPos_eq_some.mp isBag
  refine getBagByPos_eq_some.mpr ⟨isSlot, bagItem, ?_⟩
  rw [Store.take, Shelf.get?_take, if_neg, there]
  intro same
  exact noBag x pBag same.symm (same ▸ there) ⟨isSlot, bagItem⟩

/-- **An item that is taken away and stored again by a plan**: nothing is lost, the inventory stays
well formed, and everything else is where it was. -/
structure Stowed (R : ItemRules) (player : UInt64) (w w' : ItemWorld) (k : Place) : Prop where
  conserves : w.Conserves R.maxStack (Place.heldBy player) w'
  wellFormed : WellFormed R w' player
  stays : (w.take k).Stays w'

theorem stowed_storeItem {h : Handling Place UInt32 ItemAttrs}
    {dest : ItemPosCountVec} (same : h.maxStack = R.maxStack) (wf : WellFormed R w player)
    (found : w.shelf.get? k = some item) (held : k.heldBy player = true)
    (noBag : ∀ bag t, k = .inventory player inventorySlotBag0 bag →
      w.shelf.get? k = some t → ¬ (isBagSlot bag = true ∧ R.isBag t = true))
    (fits : h.Fits (w.take k).shelf.get? item dest)
    (reaches : ∀ pc ∈ dest, Reaches R w player pc.1) :
    
    Stowed R player w (h.storeItem (w.take k) item dest) k := by
  have tidy : w.Tidy h.maxStack := same ▸ wf.tidy
  have heldDest : ∀ pc ∈ dest, pc.1.heldBy player = true :=
    fun pc member => heldBy_of_reaches (reaches pc member)
  have conserves := tidy.move found fits held heldDest
  have stays : (w.take k).Stays (h.storeItem (w.take k) item dest) :=
    Store.stays_storeItem (tidy.take k) (tidy.not_has_take found) (tidy.old k item found)
      fits.toRoomy
  rw [same] at conserves
  refine ⟨conserves, ⟨conserves.tidy, lodged_of_places (w := w) (fun x pBag isBag => ?_)
    fun j t there => ?_⟩, stays⟩
  · exact getBagByPos_of_stays stays (getBagByPos_take noBag isBag)
  by_cases planned : j ∈ dest.map Prod.fst
  · obtain ⟨pc, member, rfl⟩ := List.mem_map.mp planned
    exact (reaches pc member).lodged
  · rw [Handling.get?_storeItem (tidy.take k) (tidy.not_has_take found) (tidy.old k item found)
      fits.toRoomy planned] at there
    exact wf.lodged j t (Store.get?_of_take there).2

def offhandPlace (player : UInt64) : Place :=
  .inventory player inventorySlotBag0 equipmentSlotOffhand

theorem noBag_offhand : ∀ bag t, offhandPlace player =
    .inventory player inventorySlotBag0 bag → w.shelf.get? (offhandPlace player) = some t →
    ¬ (isBagSlot bag = true ∧ R.isBag t = true) := by
  intro bag t place _ isBag
  obtain ⟨-, -, rfl⟩ := Place.inventory.inj place
  exact absurd isBag.1 (by decide)

theorem heldBy_inventory (player : UInt64) (bag slot : UInt8) :
    (Place.inventory player bag slot).heldBy player = true := decide_eq_true rfl

theorem heldBy_offhand (player : UInt64) : (offhandPlace player).heldBy player = true :=
  heldBy_inventory _ _ _

/-- What comes of unequipping the off hand: nothing, or the item is stowed away, or it is mailed. -/
inductive Unequipped (R : ItemRules) (player : UInt64) (s : Belongings) : Belongings → Prop
  | left : Unequipped R player s s
  | stowed (items : ItemWorld) (stowed : Stowed R player s.items items (offhandPlace player)) :
      Unequipped R player s { s with items := items }
  | mailed (offItem : Item) (found : s.items.shelf.get? (offhandPlace player) = some offItem) :
      Unequipped R player s
        { items := s.items.take (offhandPlace player), mailed := s.mailed ++ [offItem] }

theorem unequipped_autoUnequipOffhandIfNeed (now : Wearer) {s : Belongings} (force : Bool)
    (wf : WellFormed R s.items player) :
    Unequipped R player s (R.autoUnequipOffhandIfNeed player now s force) := by
  rw [autoUnequipOffhandIfNeed]
  split
  · exact .left
  rename_i offItem found
  obtain ⟨-, there⟩ := reaches_of_itemAtPos found
  have removed : R.removeItem s.items player ⟨inventorySlotBag0, equipmentSlotOffhand⟩ =
      s.items.take (offhandPlace player) := by
    rw [removeItem, found]
    rfl
  dsimp only
  split
  · exact .left
  rw [removed]
  split
  · rename_i offDest can
    have sized := wf.tidy.sized _ offItem there
    refine .stowed _ (stowed_storeItem rfl wf there (heldBy_inventory _ _ _) noBag_offhand ?_ ?_)
    · exact (fits_canStoreItem_of_without sized (wf.tidy.without_take there) can).1
    · exact (fits_canStoreItem sized can).2
  · exact .mailed offItem there

def Lies (w : ItemWorld) (k : Place) (guid : Nat) : Prop :=
  ∃ t, w.shelf.get? k = some t ∧ t.guid = guid

/-- **A lawful outcome**: the inventory is well formed; every entry counts what it did, with an item
that was mailed; what was in a bag, but for what `joined` another stack whole, lies in exactly one
slot; and an error leaves all as it was. -/
structure Lawful (R : ItemRules) (player : UInt64) (s : Belongings) (joined : Place → Prop)
    (outcome : Option InventoryResult × Belongings) : Prop where
  wellFormed : WellFormed R outcome.2.items player
  frame : ∀ k, k.heldBy player = false → outcome.2.items.shelf.get? k = s.items.shelf.get? k
  amount : ∃ sent, outcome.2.mailed = s.mailed ++ sent ∧ sent.length ≤ 1 ∧
    (∀ item ∈ sent, ¬ outcome.2.items.Has item.guid) ∧
    ∀ e, Shelf.amount (Place.heldBy player) e outcome.2.items.shelf +
        (sent.map fun item => if item.entry = e then item.count else 0).sum =
      Shelf.amount (Place.heldBy player) e s.items.shelf
  bags : ∀ bag slot t, bag ≠ inventorySlotBag0 →
    s.items.shelf.get? (.inventory player bag slot) = some t →
    ¬ joined (.inventory player bag slot) →
    ∃ k, (k.heldBy player = true ∧ Lies outcome.2.items k t.guid) ∧
      ∀ j, Lies outcome.2.items j t.guid → j = k
  refused : outcome.1 ≠ none →
    outcome.2.mailed = s.mailed ∧ ∀ k, outcome.2.items.shelf.get? k = s.items.shelf.get? k

/-- A move that has succeeded, before the off hand is looked at; what came from a bag to the off hand
stays there. -/
structure Settled (R : ItemRules) (now : Wearer) (player : UInt64) (s : Belongings)
    (joined : Place → Prop) (s' : Belongings) : Prop where
  mailed : s'.mailed = s.mailed
  wellFormed : WellFormed R s'.items player
  conserves : s.items.Conserves R.maxStack (Place.heldBy player) s'.items
  bags : ∀ bag slot t, bag ≠ inventorySlotBag0 →
    s.items.shelf.get? (.inventory player bag slot) = some t →
    ¬ joined (.inventory player bag slot) →
    ∃ k, k.heldBy player = true ∧ Lies s'.items k t.guid ∧
      (k = offhandPlace player → R.autoUnequipOffhandIfNeed player now s' false = s')

variable {now : Wearer} {s s' : Belongings} {joined : Place → Prop}

theorem lies_unique (wf : WellFormed R w player) {guid : Nat} (lies : Lies w k guid) :
    ∀ j, Lies w j guid → j = k := by
  intro j liesJ
  obtain ⟨t, there, isGuid⟩ := lies
  obtain ⟨u, there', isGuid'⟩ := liesJ
  exact wf.tidy.apart j k u t there' there (isGuid'.trans isGuid.symm)

theorem Settled.lawful (settled : Settled R now player s joined s') :
    Lawful R player s joined (none, s') where
  wellFormed := settled.wellFormed
  frame := settled.conserves.frame
  amount := by
    refine ⟨[], ?_, Nat.zero_le _, fun item member => ?_, settled.conserves.amount⟩
    · rw [List.append_nil]
      exact settled.mailed
    · cases member
  bags := by
    intro bag slot t notOwn found notJoined
    obtain ⟨k, held, lies, -⟩ := settled.bags bag slot t notOwn found notJoined
    exact ⟨k, ⟨held, lies⟩, lies_unique settled.wellFormed lies⟩
  refused := fun refused => absurd rfl refused

theorem Stowed.settled (settled : Settled R now player s joined s') {items : ItemWorld}
    (stowed : Stowed R player s'.items items (offhandPlace player))
    (isIt : R.autoUnequipOffhandIfNeed player now s' false = { s' with items := items }) :
    Lawful R player s joined (none, { s' with items := items }) where
  wellFormed := stowed.wellFormed
  frame := fun k outside =>
    (stowed.conserves.frame k outside).trans (settled.conserves.frame k outside)
  amount := by
    refine ⟨[], ?_, Nat.zero_le _, fun item member => ?_, fun e => ?_⟩
    · rw [List.append_nil]
      exact settled.mailed
    · cases member
    · exact (stowed.conserves.amount e).trans (settled.conserves.amount e)
  bags := by
    intro bag slot t notOwn found notJoined
    obtain ⟨k, held, ⟨u, there, isGuid⟩, fits⟩ := settled.bags bag slot t notOwn found notJoined
    have lies : Lies items k t.guid := by
      by_cases off : k = offhandPlace player
      · have same : items = s'.items := congrArg Belongings.items (isIt.symm.trans (fits off))
        rw [same]
        exact ⟨u, there, isGuid⟩
      have kept : (s'.items.take (offhandPlace player)).shelf.get? k = some u := by
        rw [Store.take, Shelf.get?_take, if_neg off]
        exact there
      obtain ⟨v, there', guid, -⟩ := stowed.stays k u kept
      exact ⟨v, there', guid.trans isGuid⟩
    exact ⟨k, ⟨held, lies⟩, lies_unique stowed.wellFormed lies⟩
  refused := fun refused => absurd rfl refused

theorem WellFormed.take_offhand (wf : WellFormed R w player) :
    WellFormed R (w.take (offhandPlace player)) player where
  tidy := wf.tidy.take _
  lodged := lodged_of_places (w := w)
    (fun _ pBag isBag => ⟨pBag, getBagByPos_take noBag_offhand isBag, rfl⟩)
    fun k t there => wf.lodged k t (Store.get?_of_take there).2

theorem Settled.mails (settled : Settled R now player s joined s') {offItem : Item}
    (found : s'.items.shelf.get? (offhandPlace player) = some offItem)
    (isIt : R.autoUnequipOffhandIfNeed player now s' false =
      { items := s'.items.take (offhandPlace player), mailed := s'.mailed ++ [offItem] }) :
    Lawful R player s joined
      (none, { items := s'.items.take (offhandPlace player), mailed := s'.mailed ++ [offItem] }) where
  wellFormed := settled.wellFormed.take_offhand
  frame := fun k outside =>
    (Store.get?_take_outside (heldBy_inventory _ _ _) outside).trans (settled.conserves.frame k outside)
  amount := by
    refine ⟨[offItem], ?_, Nat.le_refl _, fun item member => ?_, fun e => ?_⟩
    · rw [settled.mailed]
    · rw [List.mem_singleton.mp member]
      exact settled.wellFormed.tidy.not_has_take found
    · have taken := Shelf.amount_take (Place.heldBy player) e s'.items.shelf (offhandPlace player)
      rw [found, Store.held_inside e (heldBy_offhand player)] at taken
      rw [List.map_singleton, List.sum_singleton]
      exact taken.trans (settled.conserves.amount e)
  bags := by
    intro bag slot t notOwn foundT notJoined
    obtain ⟨k, held, ⟨u, there, isGuid⟩, fits⟩ := settled.bags bag slot t notOwn foundT notJoined
    have lies : Lies (s'.items.take (offhandPlace player)) k t.guid := by
      by_cases off : k = offhandPlace player
      · have same : s'.items.take (offhandPlace player) = s'.items :=
          congrArg Belongings.items (isIt.symm.trans (fits off))
        rw [same]
        exact ⟨u, there, isGuid⟩
      · refine ⟨u, ?_, isGuid⟩
        rw [Store.take, Shelf.get?_take, if_neg off]
        exact there
    exact ⟨k, ⟨held, lies⟩, lies_unique settled.wellFormed.take_offhand lies⟩
  refused := fun refused => absurd rfl refused

theorem Settled.unequip (settled : Settled R now player s joined s') :
    Lawful R player s joined (none, R.autoUnequipOffhandIfNeed player now s' false) := by
  have unequipped := unequipped_autoUnequipOffhandIfNeed now false settled.wellFormed
  generalize isIt : R.autoUnequipOffhandIfNeed player now s' false = s'' at unequipped
  cases unequipped with
  | left => exact settled.lawful
  | stowed items stowed => exact stowed.settled settled isIt
  | mailed offItem found => exact settled.mails found isIt

theorem Settled.afterwards (settled : Settled R now player s joined s') (dst : ItemPos) :
    Lawful R player s joined (none, R.afterwards now player s' dst) := by
  rw [ItemRules.afterwards]
  split
  · exact settled.unequip
  · exact settled.lawful

theorem lawful_of_same (wf : WellFormed R s'.items player) (mailed : s'.mailed = s.mailed)
    (same : ∀ k, s'.items.shelf.get? k = s.items.shelf.get? k) (error : Option InventoryResult) :
    Lawful R player s joined (error, s') where
  wellFormed := wf
  frame := fun k _ => same k
  amount := by
    refine ⟨[], mailed.trans (List.append_nil _).symm, Nat.zero_le _, fun item member => ?_,
      fun e => Shelf.amount_congr _ e same⟩
    cases member
  bags := by
    intro bag slot t _ found _
    have there : s'.items.shelf.get? (.inventory player bag slot) = some t := (same _).trans found
    exact ⟨_, ⟨heldBy_inventory _ _ _, t, there, rfl⟩, lies_unique wf ⟨t, there, rfl⟩⟩
  refused := fun _ => ⟨mailed, same⟩

theorem WellFormed.lawful (wf : WellFormed R s.items player) (error : Option InventoryResult) :
    Lawful R player s joined (error, s) :=
  lawful_of_same wf rfl (fun _ => rfl) error

end ItemRules

end Sky548
