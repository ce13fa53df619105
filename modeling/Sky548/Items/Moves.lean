import Sky548.Items.Accounting
import Sky548.Items.Conserving

/-!
# Moves conserve items

Whatever a packet asks to move or to split, the inventory is well formed afterwards, with every
bag's contents in the bag; every entry counts the same, but for an off-hand item that finds no place
and is mailed; and what reports an error has moved nothing (`handle_lawful`). What is left open is
what happens when `FindEquipSlot`, of which only an answer was wanted, unequips the off-hand item.
-/

namespace Sky548

open Store Shelf

namespace ItemRules

variable {R : ItemRules} {now : Wearer} {w w' : ItemWorld} {player : UInt64}
  {src dst pos : ItemPos} {item : Item} {s s' : Belongings} {joined : Place → Prop}

variable {slot : UInt8}

theorem getItemByPos_own (small : slot.toNat < bankSlotBagEnd) :
    R.getItemByPos w player inventorySlotBag0 slot =
      w.shelf.get? (.inventory player inventorySlotBag0 slot) := by
  rw [getItemByPos, if_pos]
  rw [decide_eq_true rfl, decide_eq_true small]
  rfl

theorem any_getItemByPos_congr (small : slot.toNat < bankSlotBagEnd)
    (same : (w'.shelf.get? (.inventory player inventorySlotBag0 slot)).map Stack.entry =
      (w.shelf.get? (.inventory player inventorySlotBag0 slot)).map Stack.entry) (P : UInt32 → Bool) :
    
    ((R.getItemByPos w' player inventorySlotBag0 slot).any fun item => P item.entry) =
      (R.getItemByPos w player inventorySlotBag0 slot).any fun item => P item.entry := by
  have entries : ∀ o : Option Item, (o.any fun item => P item.entry) = (o.map Stack.entry).any P := by
    intro o
    cases o with
    | none => rfl
    | some item => rfl
  rw [getItemByPos_own small, getItemByPos_own small, entries, entries, same]

theorem isTwoHandUsed_congr
    (same : (w'.shelf.get? (.inventory player inventorySlotBag0 equipmentSlotMainhand)).map
        Stack.entry =
      (w.shelf.get? (.inventory player inventorySlotBag0 equipmentSlotMainhand)).map Stack.entry) :
    R.isTwoHandUsed w' player now = R.isTwoHandUsed w player now := by
  rw [isTwoHandUsed, isTwoHandUsed]
  refine congrArg (!now.canTitanGrip && ·) ?_
  exact any_getItemByPos_congr (by decide) same
    fun entry => decide ((R.getItemTemplate entry).inventoryType = invtype2HWeapon)

theorem forces_congr {entry : UInt32}
    (same : ∀ slot, (w'.shelf.get? (.inventory player inventorySlotBag0 slot)).map Stack.entry =
      (w.shelf.get? (.inventory player inventorySlotBag0 slot)).map Stack.entry)
    (forces : Forces R now w' player entry) : Forces R now w player entry := by
  obtain ⟨offhand, forced, type⟩ := forces
  have isSome : ∀ w : ItemWorld,
      (R.getItemByPos w player inventorySlotBag0 equipmentSlotOffhand).isSome =
        (R.getItemByPos w player inventorySlotBag0 equipmentSlotOffhand).any fun _ => true := by
    intro w
    cases R.getItemByPos w player inventorySlotBag0 equipmentSlotOffhand with
    | none => rfl
    | some item => rfl
  have sameOff : (R.getItemByPos w' player inventorySlotBag0 equipmentSlotOffhand).isSome =
      (R.getItemByPos w player inventorySlotBag0 equipmentSlotOffhand).isSome := by
    rw [isSome, isSome]
    exact any_getItemByPos_congr (by decide) (same _) fun _ => true
  have sameMain := any_getItemByPos_congr (R := R) (by decide) (same equipmentSlotMainhand)
    fun entry => (R.getItemTemplate entry).isLong
  refine ⟨sameOff ▸ offhand, ?_, type⟩
  rw [forcesOffhand] at forced ⊢
  rw [← sameOff, ← sameMain]
  exact forced

theorem autoUnequipOffhandIfNeed_of_rearranged {π : Equiv.Perm Place}
    (arranged : s.items.Rearranged π s'.items)
    (main : π (.inventory player inventorySlotBag0 equipmentSlotMainhand) =
      .inventory player inventorySlotBag0 equipmentSlotMainhand)
    (off : ∀ t, s.items.shelf.get? (π (offhandPlace player)) = some t →
      FitsOffhand R now s.items player t) :
    R.autoUnequipOffhandIfNeed player now s' false = s' := by
  rcases there : R.getItemByPos s'.items player inventorySlotBag0 equipmentSlotOffhand with _ | t
  · exact autoUnequipOffhandIfNeed_of_none there
  have lies := there
  rw [getItemByPos_own (by decide)] at lies
  obtain ⟨u, lay, core⟩ := arranged.get? lies
  have entry : u.entry = t.entry := (Stack.of_core_eq core).2.1
  have fits := off u lay
  rw [FitsOffhand, entry] at fits
  obtain ⟨weapon, twoHand, notUsed⟩ := fits
  refine autoUnequipOffhandIfNeed_of_fits there ⟨weapon, twoHand, ?_⟩
  rw [← notUsed]
  refine isTwoHandUsed_congr ?_
  have same := arranged.shelf (.inventory player inventorySlotBag0 equipmentSlotMainhand)
  rw [main] at same
  have entries : ∀ o : Option Item, o.map Stack.entry = (o.map Stack.core).map fun c => c.2.1 := by
    intro o
    rw [Option.map_map]
    rfl
  rw [entries, same, ← entries]

theorem rearranged_bagsGoAlong
    (arranged : w.Rearranged (Equiv.swap (src.place player) (dst.place player)) w') :
    w.Rearranged (relocation player src dst) (bagsGoAlong player w' src dst) := by
  rw [relocation, bagsGoAlong]
  split
  · exact arranged.trans (rearranged_rename _ _)
  · exact arranged

theorem get?_bagsGoAlong {k : Place} (outside : k.heldBy player = false) :
    (bagsGoAlong player w src dst).shelf.get? k = w.shelf.get? k := by
  rw [bagsGoAlong]
  split
  · rw [Store.rename, get?_rename, bagsTradePerm_symm_apply]
    cases k with
    | bank tabId slotId => rfl
    | inventory owner bag slot =>
      rw [bagsTrade, if_neg (of_decide_eq_false outside)]
  · rfl

theorem relocation_own (notSrc : Place.inventory player inventorySlotBag0 slot ≠ src.place player)
    (notDst : Place.inventory player inventorySlotBag0 slot ≠ dst.place player) :
    relocation player src dst (.inventory player inventorySlotBag0 slot) =
      .inventory player inventorySlotBag0 slot := by
  rw [relocation]
  split
  · rename_i both
    obtain ⟨bagSrc, bagDst⟩ := Bool.and_eq_true _ _ ▸ both
    have ofSrc : inventorySlotBag0 ≠ src.slot := by
      intro same
      have isSlot := (Bool.and_eq_true _ _ ▸ bagSrc).2
      rw [← same] at isSlot
      exact absurd isSlot (by decide)
    have ofDst : inventorySlotBag0 ≠ dst.slot := by
      intro same
      have isSlot := (Bool.and_eq_true _ _ ▸ bagDst).2
      rw [← same] at isSlot
      exact absurd isSlot (by decide)
    rw [Equiv.trans_apply, bagsTradePerm_symm_apply, bagsTrade, if_pos rfl,
      Equiv.swap_apply_of_ne_of_ne ofSrc ofDst, Equiv.swap_apply_of_ne_of_ne notSrc notDst]
  · exact Equiv.swap_apply_of_ne_of_ne notSrc notDst

theorem autoUnequipOffhandIfNeed_of_relocated {bag : UInt8} (notOwn : bag ≠ inventorySlotBag0)
    (arranged : s.items.Rearranged (relocation player src dst) s'.items)
    (fitsSrc : src.place player = offhandPlace player → ∀ t,
      s.items.shelf.get? (dst.place player) = some t → FitsOffhand R now s.items player t)
    (fitsDst : dst.place player = offhandPlace player → ∀ t,
      s.items.shelf.get? (src.place player) = some t → FitsOffhand R now s.items player t)
    (goes : relocation player src dst (offhandPlace player) = .inventory player bag slot) :
    R.autoUnequipOffhandIfNeed player now s' false = s' := by
  have isSwap : src.place player = offhandPlace player ∨ dst.place player = offhandPlace player →
      relocation player src dst = Equiv.swap (src.place player) (dst.place player) := by
    intro isOff
    rw [relocation, if_neg]
    intro both
    have notBag : ∀ pos : ItemPos, pos.isBagPos = true → pos.place player ≠ offhandPlace player := by
      intro pos isBag same
      have slot := (Place.inventory.inj same).2.2
      have isSlot := (Bool.and_eq_true _ _ ▸ isBag).2
      rw [slot] at isSlot
      exact absurd isSlot (by decide)
    obtain ⟨bagSrc, bagDst⟩ := Bool.and_eq_true _ _ ▸ both
    rcases isOff with isSrc | isDst
    · exact notBag src bagSrc isSrc
    · exact notBag dst bagDst isDst
  -- a position in a bag is no hand
  have notMain : ∀ {pos : ItemPos}, pos.place player = .inventory player bag slot →
      Place.inventory player inventorySlotBag0 equipmentSlotMainhand ≠ pos.place player := by
    intro pos inBag same
    exact notOwn (Place.inventory.inj (same.trans inBag)).2.1.symm
  have handsApart : ∀ {pos : ItemPos}, pos.place player = offhandPlace player →
      Place.inventory player inventorySlotBag0 equipmentSlotMainhand ≠ pos.place player := by
    intro pos isOff same
    exact absurd (Place.inventory.inj (same.trans isOff)).2.2 (by decide)
  by_cases isSrc : src.place player = offhandPlace player
  · have toDst := goes
    rw [isSwap (Or.inl isSrc), ← isSrc, Equiv.swap_apply_left] at toDst
    refine autoUnequipOffhandIfNeed_of_rearranged arranged
      (relocation_own (handsApart isSrc) (notMain toDst)) fun t found => ?_
    rw [goes, ← toDst] at found
    exact fitsSrc isSrc t found
  · by_cases isDst : dst.place player = offhandPlace player
    · have toSrc := goes
      rw [isSwap (Or.inr isDst), ← isDst, Equiv.swap_apply_right] at toSrc
      refine autoUnequipOffhandIfNeed_of_rearranged arranged
        (relocation_own (notMain toSrc) (handsApart isDst)) fun t found => ?_
      rw [goes, ← toSrc] at found
      exact fitsDst isDst t found
    · rw [offhandPlace, relocation_own (fun same => isSrc same.symm) fun same => isDst same.symm]
        at goes
      exact absurd (Place.inventory.inj goes).2.1.symm notOwn

theorem settled_relocated (wf : WellFormed R s.items player)
    (reachesSrc : Reaches R s.items player (src.place player))
    (reachesDst : Reaches R s.items player (dst.place player))
    (notOut : ¬ (src.isBagPos = true ∧ src.slot = dst.bag))
    (notIn : ¬ (dst.isBagPos = true ∧ src.bag = dst.slot))
    (fullSrc : ∀ t, s.items.shelf.get? (src.place player) = some t →
      R.isNotEmptyBag s.items t = true → dst.isBagPos = true)
    (fullDst : ∀ t, s.items.shelf.get? (dst.place player) = some t →
      R.isNotEmptyBag s.items t = true → src.isBagPos = true)
    (fitsSrc : src.place player = offhandPlace player → ∀ t,
      s.items.shelf.get? (dst.place player) = some t → FitsOffhand R now s.items player t)
    (fitsDst : dst.place player = offhandPlace player → ∀ t,
      s.items.shelf.get? (src.place player) = some t → FitsOffhand R now s.items player t)
    (exchanged : s.items.Rearranged (Equiv.swap (src.place player) (dst.place player)) w')
    (frame : ∀ k, k.heldBy player = false → w'.shelf.get? k = s.items.shelf.get? k) :
    Settled R now player s joined { s with items := bagsGoAlong player w' src dst } where
  mailed := rfl
  wellFormed := wf.relocated reachesSrc reachesDst notOut notIn fullSrc fullDst
    (rearranged_bagsGoAlong exchanged)
  conserves := (rearranged_bagsGoAlong exchanged).conserves wf.tidy heldBy_relocation
    fun k outside => (get?_bagsGoAlong outside).trans (frame k outside)
  bags := by
    intro bag slot t notOwn found _
    have arranged := rearranged_bagsGoAlong exchanged
    obtain ⟨u, there, core⟩ := arranged.has found
    have goes : relocation player src dst
        ((relocation player src dst).symm (.inventory player bag slot)) =
          .inventory player bag slot := Equiv.apply_symm_apply _ _
    refine ⟨_, ?_, ⟨u, there, (Stack.of_core_eq core).1⟩, fun isOff => ?_⟩
    · have held := congrArg (Place.heldBy player) goes
      rw [heldBy_relocation] at held
      exact held.trans (heldBy_inventory _ _ _)
    · rw [isOff] at goes
      exact autoUnequipOffhandIfNeed_of_relocated notOwn arranged fitsSrc fitsDst goes

/-- Checking whether an item that lies at `source` can be put on at `target` does not unequip the
off-hand item. -/
def Unforcing (R : ItemRules) (now : Wearer) (w : ItemWorld) (player : UInt64)
    (target source : ItemPos) : Prop :=
  target.isEquipment = true → ∀ item, R.itemAtPos w player source = some item →
    ¬ Forces R now w player item.entry

theorem of_refusesSwap {pDstItem : Option Item}
    (accepted : R.refusesSwap now player w src dst item pDstItem = none) :
    ¬ (src.isBagPos = true ∧ src.slot = dst.bag) ∧ ¬ (dst.isBagPos = true ∧ src.bag = dst.slot) := by
  rw [refusesSwap] at accepted
  split at accepted
  · cases accepted
  split at accepted
  · cases accepted
  split at accepted
  · cases accepted
  split at accepted
  · cases accepted
  rename_i notOut
  split at accepted
  · cases accepted
  rename_i notIn
  refine ⟨fun both => notOut ?_, fun both => notIn ?_⟩
  · rw [both.1, decide_eq_true both.2]
    rfl
  · rw [both.1, decide_eq_true both.2]
    rfl

theorem eq_offhand (isOff : pos.place player = offhandPlace player) :
    pos = ⟨inventorySlotBag0, equipmentSlotOffhand⟩ := by
  obtain ⟨-, bag, slot⟩ := Place.inventory.inj isOff
  cases pos
  exact congrArg₂ ItemPos.mk bag slot

theorem fitsOffhand_of_canPutAt_place {swap : Bool} {dest : ItemPosCountVec}
    (isOff : pos.place player = offhandPlace player)
    (free : pos.isEquipment = true → ¬ Forces R now s.items player item.entry)
    (can : R.canPutAt now player s pos item swap = (.ok, dest, s')) :
    FitsOffhand R now s.items player item := by
  obtain rfl := eq_offhand isOff
  exact fitsOffhand_of_canPutAt (free (by decide)) can

theorem removeItem_of_itemAtPos (found : R.itemAtPos w player pos = some item) :
    R.removeItem w player pos = w.take (pos.place player) := by
  rw [removeItem, found]

theorem heldBy_place (pos : ItemPos) : (pos.place player).heldBy player = true :=
  heldBy_inventory _ _ _

theorem place_ne (apart : src ≠ dst) : src.place player ≠ dst.place player := by
  intro same
  obtain ⟨-, bag, slot⟩ := Place.inventory.inj same
  apply apart
  cases src
  cases dst
  exact congrArg₂ ItemPos.mk bag slot

theorem itemAtPos_take (notIn : ¬ (dst.isBagPos = true ∧ src.bag = dst.slot)) (apart : src ≠ dst)
    (found : R.itemAtPos w player src = some item) :
    R.itemAtPos (w.take (dst.place player)) player src = some item := by
  obtain ⟨-, there⟩ := reaches_of_itemAtPos found
  have bags : R.getBagByPos (w.take (dst.place player)) player src.bag =
      R.getBagByPos w player src.bag := by
    refine getBagByPos_of_same fun isSlot => ?_
    rw [Store.take, get?_take, if_neg]
    intro same
    obtain ⟨-, own, slot⟩ := Place.inventory.inj same
    refine notIn ⟨?_, slot⟩
    rw [ItemPos.isBagPos, Sky548.isBagPos, ← own, ← slot, isSlot]
    rfl
  rw [itemAtPos, getItemByPos_of_bags found bags, Store.take, get?_take]
  exact (if_neg (place_ne apart)).trans there

theorem bagContents_eq_nil (wf : WellFormed R w player) (isBagPos : pos.isBagPos = true)
    (there : w.shelf.get? (pos.place player) = some item) (isBag : R.isBag item = true)
    (empty : R.isNotEmptyBag w item = false) : R.bagContents player w pos.slot = [] := by
  rw [isNotEmptyBag, isBag, placeOf_eq wf.tidy there, Bool.true_and] at empty
  change (pos.isBagPos && (R.bagPlaces w player pos.slot).any _) = false at empty
  rw [isBagPos, Bool.true_and, List.any_eq_false] at empty
  rw [bagContents, List.filterMap_eq_nil_iff]
  intro k member
  have nothing := empty k member
  rw [Bool.not_eq_true, Option.isSome_eq_false_iff, Option.isNone_iff_eq_none] at nothing
  rw [nothing]
  rfl

theorem exchangeContents_eq {pDstItem : Item} (wf : WellFormed R w player)
    (there : w.shelf.get? (src.place player) = some item)
    (thereDst : w.shelf.get? (dst.place player) = some pDstItem)
    (fullSrc : R.isNotEmptyBag w item = true → dst.isBagPos = true)
    (fullDst : R.isNotEmptyBag w pDstItem = true → src.isBagPos = true) :
    R.exchangeContents player w src dst item pDstItem = .ok w := by
  have nothing : ∀ {pos : ItemPos} {bag : Item}, w.shelf.get? (pos.place player) = some bag →
      R.isBag bag = true → R.isNotEmptyBag w bag = false →
      (if pos.isBagPos then R.bagContents player w pos.slot else []) = [] := by
    intro pos bag lies isBag empty
    split
    · rename_i isBagPos
      exact bagContents_eq_nil wf isBagPos lies isBag empty
    · rfl
  rw [exchangeContents]
  dsimp only
  split
  · rfl
  rename_i bags
  rw [Bool.or_eq_true, not_or, Bool.not_eq_true', Bool.not_eq_true', Bool.not_eq_false,
    Bool.not_eq_false] at bags
  split
  · rename_i loose
    rw [Bool.and_eq_true, Bool.not_eq_true', Bool.not_eq_true'] at loose
    have empty : R.isNotEmptyBag w pDstItem = false := by
      refine Bool.eq_false_iff.mpr fun full => ?_
      rw [fullDst full] at loose
      cases loose.2
    rw [nothing thereDst bags.2 empty]
    rfl
  split
  · rename_i loose
    rw [Bool.and_eq_true, Bool.not_eq_true', Bool.not_eq_true'] at loose
    have empty : R.isNotEmptyBag w item = false := by
      refine Bool.eq_false_iff.mpr fun full => ?_
      rw [fullSrc full] at loose
      cases loose.2
    rw [nothing there bags.1 empty]
    rfl
  · rfl

/-! ## Counts -/

theorem wellFormed_of_stays (tidy : w'.Tidy R.maxStack)
    (stays : w.Stays w') (places : ∀ k t, w'.shelf.get? k = some t → Lodged R w player k) :
    WellFormed R w' player where
  tidy := tidy
  lodged := lodged_of_places (fun _ _ isBag => getBagByPos_of_stays stays isBag) places

theorem settled_of_stays (mailed : s'.mailed = s.mailed) (wf : WellFormed R s'.items player)
    (conserves : s.items.Conserves R.maxStack (Place.heldBy player) s'.items)
    (stays : s.items.Stays s'.items) : Settled R now player s joined s' where
  mailed := mailed
  wellFormed := wf
  conserves := conserves
  bags := by
    intro bag slot t notOwn found _
    obtain ⟨u, there, guid, -⟩ := stays _ t found
    refine ⟨_, heldBy_inventory player bag slot, ⟨u, there, guid⟩, fun isOff => ?_⟩
    exact absurd (Place.inventory.inj isOff).2.1 notOwn

section Move

variable (wf : WellFormed R s.items player)
  (reachesDst : Reaches R s.items player (dst.place player)) (apart : src ≠ dst)
  (found : R.itemAtPos s.items player src = some item)
  (forced : Unforcing R now s.items player dst src)

include wf reachesDst apart found forced

theorem moveToEmpty_lawful (notOut : ¬ (src.isBagPos = true ∧ src.slot = dst.bag))
    (notIn : ¬ (dst.isBagPos = true ∧ src.bag = dst.slot))
    (empty : R.itemAtPos s.items player dst = none) :
    Lawful R player s joined (R.moveToEmpty now player s src dst item) := by
  obtain ⟨reachesSrc, there⟩ := reaches_of_itemAtPos found
  have emptyDst := empty
  rw [reachesDst.itemAtPos_eq] at emptyDst
  have free : dst.isEquipment = true → ¬ Forces R now s.items player item.entry :=
    fun worn => forced worn item found
  rw [moveToEmpty]
  split
  · split
    · rename_i dest s₁ can
      have fits := fun isOff => fitsOffhand_of_canPutAt_place isOff free can
      obtain ⟨rfl, specific⟩ := canPutAt_exact reachesDst.exact reachesDst.kind free
        (wf.tidy.sized _ item there).2 can
      have unseen : R.seen s₁.items player item dst.bag dst.slot = none := by
        change (R.itemAtPos s₁.items player dst).filter _ = none
        rw [empty]
        rfl
      rw [specific.free (Or.inr unseen) (wf.tidy.sized _ item there).2,
        removeItem_of_itemAtPos found, putAt_eq reachesDst.kind]
      have arranged := rearranged_move (h := R.handlingAt dst) there emptyDst (place_ne apart)
      refine (settled_relocated wf reachesSrc reachesDst notOut notIn (fun t lies full => ?_)
        (fun t lies => ?_) (fun _ t lies => ?_) (fun isOff t lies => ?_) arranged
        fun k outside => ?_).afterwards dst
      · obtain rfl := Option.some.inj (there.symm.trans lies)
        exact specific.bag full
      · rw [emptyDst] at lies
        cases lies
      · rw [emptyDst] at lies
        cases lies
      · obtain rfl := Option.some.inj (there.symm.trans lies)
        exact fits isOff
      · have emptied : (s₁.items.take (src.place player)).shelf.get? (dst.place player) = none := by
          rw [Store.take, get?_take, if_neg (place_ne apart).symm]
          exact emptyDst
        rw [get?_storeItem_single emptied,
          if_neg (ne_of_outside (heldBy_place dst) outside),
          get?_take_outside (heldBy_place src) outside]
    · rename_i msg dest s₁ refused can
      have same : (R.canPutAt now player s dst item false).2.2 = s := canPutAt_snd free
      rw [can] at same
      obtain rfl : s₁ = s := same
      exact wf.lawful _
  · exact wf.lawful _

variable {pDstItem : Item}

theorem realSwap_lawful (notOut : ¬ (src.isBagPos = true ∧ src.slot = dst.bag))
    (notIn : ¬ (dst.isBagPos = true ∧ src.bag = dst.slot))
    (foundDst : R.itemAtPos s.items player dst = some pDstItem)
    (forcedBack : Unforcing R now s.items player src dst) :
    Lawful R player s joined (R.realSwap now player s src dst item pDstItem) := by
  obtain ⟨reachesSrc, there⟩ := reaches_of_itemAtPos found
  obtain ⟨-, thereDst⟩ := reaches_of_itemAtPos foundDst
  have free : dst.isEquipment = true → ¬ Forces R now s.items player item.entry :=
    fun worn => forced worn item found
  have freeBack : src.isEquipment = true → ¬ Forces R now s.items player pDstItem.entry :=
    fun worn => forcedBack worn pDstItem foundDst
  have sized := wf.tidy.sized _ item there
  have sizedDst := wf.tidy.sized _ pDstItem thereDst
  rw [realSwap]
  split
  · rename_i sDest s₁ canSwap
    have can := canPutAt_of_canSwapTo canSwap
    have fits := fun isOff => fitsOffhand_of_canPutAt_place isOff free can
    obtain ⟨rfl, specific⟩ := canPutAt_exact reachesDst.exact reachesDst.kind free sized.2 can
    split
    · rename_i sDest2 s₂ canSwapBack
      have canBack := canPutAt_of_canSwapTo canSwapBack
      have fitsBack := fun isOff => fitsOffhand_of_canPutAt_place isOff freeBack canBack
      obtain ⟨rfl, specificBack⟩ := canPutAt_exact reachesSrc.exact reachesSrc.kind freeBack
        sizedDst.2 canBack
      rw [exchangeContents_eq wf there thereDst specific.bag specificBack.bag]
      dsimp only
      rw [specific.free (Or.inl rfl) sized.2, specificBack.free (Or.inl rfl) sizedDst.2,
        removeItem_of_itemAtPos foundDst,
        removeItem_of_itemAtPos (itemAtPos_take notIn apart found), putAt_eq reachesDst.kind,
        putAt_eq reachesSrc.kind]
      have arranged : s₂.items.Rearranged (Equiv.swap (src.place player) (dst.place player))
          ((R.handlingAt src).storeItem ((R.handlingAt dst).storeItem
            ((s₂.items.take (dst.place player)).take (src.place player)) item
              [(dst.place player, item.count)]) pDstItem [(src.place player, pDstItem.count)]) :=
        rearranged_exchange there thereDst (place_ne apart)
      refine (settled_relocated wf reachesSrc reachesDst notOut notIn (fun t lies full => ?_)
        (fun t lies full => ?_) (fun isOff t lies => ?_) (fun isOff t lies => ?_) arranged
        fun k outside => ?_).unequip
      · obtain rfl := Option.some.inj (there.symm.trans lies)
        exact specific.bag full
      · obtain rfl := Option.some.inj (thereDst.symm.trans lies)
        exact specificBack.bag full
      · obtain rfl := Option.some.inj (thereDst.symm.trans lies)
        exact fitsBack isOff
      · obtain rfl := Option.some.inj (there.symm.trans lies)
        exact fits isOff
      · rw [get?_exchange (place_ne apart),
          if_neg (ne_of_outside (heldBy_place src) outside),
          if_neg (ne_of_outside (heldBy_place dst) outside)]
    · rename_i msg dest s₂ refused canSwapBack
      have same : (R.canSwapTo now player s₁ src pDstItem).2.2 = s₁ := canSwapTo_snd freeBack
      rw [canSwapBack] at same
      obtain rfl : s₂ = s₁ := same
      exact wf.lawful _
  · rename_i msg dest s₁ refused canSwap
    have same : (R.canSwapTo now player s dst item).2.2 = s := canSwapTo_snd free
    rw [canSwap] at same
    obtain rfl : s₁ = s := same
    exact wf.lawful _

omit reachesDst apart forced in
theorem setCount_eq (count : Nat) :
    setCount s.items item count = s.items.put (src.place player) { item with count := count } := by
  obtain ⟨-, there⟩ := reaches_of_itemAtPos found
  rw [setCount, placeOf_eq wf.tidy there]

omit wf reachesDst apart found in
theorem joinOrFill_none (found : R.itemAtPos s.items player src = some item)
    (isIt : R.joinOrFill now player s src dst item pDstItem = (none, s')) : s' = s := by
  rw [joinOrFill] at isIt
  split at isIt
  · exact (Prod.mk.inj isIt).2.symm
  split at isIt
  · split at isIt
    · split at isIt
      · cases (Prod.mk.inj isIt).1
      · cases (Prod.mk.inj isIt).1
    rename_i msg dest s₁ refused can
    have same : (R.canPutAt now player s dst item false).2.2 = s :=
      canPutAt_snd fun worn => forced worn item found
    rw [can] at same
    exact (Prod.mk.inj isIt).2.symm.trans same
  · cases (Prod.mk.inj isIt).1

omit forced in
theorem settled_joined {h : Handling Place UInt32 ItemAttrs} (same : h.maxStack = R.maxStack)
    (foundDst : R.itemAtPos s.items player dst = some pDstItem)
    (noBag : ¬ R.isBag item = true) (entry : pDstItem.entry = item.entry)
    (fits : item.count + pDstItem.count ≤ R.maxStack item.entry)
    (joins : joined (src.place player)) :
    
    Settled R now player s joined { s with
      items := h.storeItem (s.items.take (src.place player)) item [(dst.place player, item.count)] } := by
  obtain ⟨-, there⟩ := reaches_of_itemAtPos found
  obtain ⟨-, thereDst⟩ := reaches_of_itemAtPos foundDst
  have emptied : (s.items.take (src.place player)).shelf.get? (dst.place player) = some pDstItem := by
    rw [Store.take, get?_take, if_neg (place_ne apart).symm]
    exact thereDst
  have room : pDstItem.count + item.count ≤ h.maxStack item.entry := by
    rw [same]
    omega
  have stowed : Stowed R player s.items
      (h.storeItem (s.items.take (src.place player)) item [(dst.place player, item.count)])
      (src.place player) := by
    refine stowed_storeItem same wf there (heldBy_place src) (fun bag t _ lies isBag => ?_)
      (Handling.fits_join (wf.tidy.sized _ item there).1 emptied entry room) fun pc member => ?_
    · obtain rfl := Option.some.inj (there.symm.trans lies)
      exact noBag isBag.2
    · rw [List.mem_singleton.mp member]
      exact reachesDst
  refine ⟨rfl, stowed.wellFormed, stowed.conserves, fun bag slot t notOwn lies notJoined => ?_⟩
  have elsewhere : Place.inventory player bag slot ≠ src.place player := by
    intro isSrc
    rw [isSrc] at notJoined
    exact notJoined joins
  have kept : (s.items.take (src.place player)).shelf.get? (.inventory player bag slot) =
      some t := by
    rw [Store.take, get?_take, if_neg elsewhere]
    exact lies
  obtain ⟨u, lies', guid, -⟩ := stowed.stays _ t kept
  refine ⟨_, heldBy_inventory player bag slot, ⟨u, lies', guid⟩, fun isOff => ?_⟩
  exact absurd (Place.inventory.inj isOff).2.1 notOwn

omit forced in
theorem settled_filled (foundDst : R.itemAtPos s.items player dst = some pDstItem)
    (entry : pDstItem.entry = item.entry)
    (beyond : R.maxStack item.entry < item.count + pDstItem.count) :
    Settled R now player s joined { s with
      items := setCount (setCount s.items item
        (item.count + pDstItem.count - R.maxStack item.entry)) pDstItem (R.maxStack item.entry) } := by
  obtain ⟨reachesSrc, there⟩ := reaches_of_itemAtPos found
  obtain ⟨-, thereDst⟩ := reaches_of_itemAtPos foundDst
  have sized := wf.tidy.sized _ item there
  have sizedDst := wf.tidy.sized _ pDstItem thereDst
  rw [entry] at sizedDst
  have fewer : (s.items.put (src.place player) { item with
      count := item.count + pDstItem.count - R.maxStack item.entry }).Tidy R.maxStack :=
    wf.tidy.recount there ⟨Nat.sub_pos_of_lt beyond, by omega⟩
  have lies : (s.items.put (src.place player) { item with
      count := item.count + pDstItem.count - R.maxStack item.entry }).shelf.get? (dst.place player) =
      some pDstItem := by
    rw [Store.put, get?_put, if_neg (place_ne apart).symm]
    exact thereDst
  rw [setCount_eq wf found _, setCount, placeOf_eq fewer lies]
  have conserves := wf.tidy.level there thereDst (place_ne apart) entry beyond (heldBy_place src)
    (heldBy_place dst)
  have stays := (stays_recount (item.count + pDstItem.count - R.maxStack item.entry) there).trans
    (stays_recount (R.maxStack item.entry) lies)
  refine settled_of_stays rfl (wellFormed_of_stays conserves.tidy stays fun k t lay => ?_) conserves stays
  rcases get?_of_put lay with ⟨rfl, -⟩ | ⟨-, lay⟩
  · exact reachesDst.lodged
  rcases get?_of_put lay with ⟨rfl, -⟩ | ⟨-, lay⟩
  · exact reachesSrc.lodged
  · exact wf.lodged k t lay

theorem joinOrFill_lawful {s₂ : Belongings}
    (foundDst : R.itemAtPos s.items player dst = some pDstItem)
    (joins : pDstItem.entry = item.entry → item.count + pDstItem.count ≤ R.maxStack item.entry →
      joined (src.place player))
    (isIt : R.joinOrFill now player s src dst item pDstItem = (some s', s₂)) :
    Lawful R player s joined (none, s') := by
  obtain ⟨-, there⟩ := reaches_of_itemAtPos found
  obtain ⟨-, thereDst⟩ := reaches_of_itemAtPos foundDst
  have free : dst.isEquipment = true → ¬ Forces R now s.items player item.entry :=
    fun worn => forced worn item found
  rw [joinOrFill] at isIt
  split at isIt
  · cases (Prod.mk.inj isIt).1
  rename_i noBags
  rw [Bool.or_eq_true, not_or] at noBags
  split at isIt
  · split at isIt
    · rename_i dest s₁ can
      obtain ⟨rfl, specific⟩ := canPutAt_exact reachesDst.exact reachesDst.kind free
        (wf.tidy.sized _ item there).2 can
      have seen : R.seen s₁.items player item dst.bag dst.slot = some pDstItem := by
        change (R.itemAtPos s₁.items player dst).filter _ = some pDstItem
        rw [foundDst, Option.filter_some, if_pos]
        refine decide_eq_true fun same => apart ?_
        have places := wf.tidy.apart _ _ item pDstItem there thereDst same.symm
        by_contra other
        exact place_ne other places
      obtain ⟨entry, -, whole⟩ := specific.joins rfl pDstItem seen
      split at isIt
      · rename_i fits
        obtain rfl := Option.some.inj (Prod.mk.inj isIt).1
        rw [whole fits, removeItem_of_itemAtPos found, putAt_eq reachesDst.kind]
        exact (settled_joined wf reachesDst apart found (maxStack_handlingAt R dst) foundDst
          noBags.1 entry fits (joins entry fits)).afterwards dst
      · rename_i beyond
        obtain rfl := Option.some.inj (Prod.mk.inj isIt).1
        have settled : Settled R now player s₁ joined _ := settled_filled wf reachesDst apart found
          foundDst entry (Nat.lt_of_not_le beyond)
        exact settled.lawful
    · cases (Prod.mk.inj isIt).1
  · obtain rfl := Option.some.inj (Prod.mk.inj isIt).1
    exact wf.lawful _

theorem swapItem_lawful (forcedBack : Unforcing R now s.items player src dst)
    (joins : ∀ pDstItem, R.itemAtPos s.items player dst = some pDstItem →
      pDstItem.entry = item.entry → item.count + pDstItem.count ≤ R.maxStack item.entry →
      joined (src.place player)) :
    Lawful R player s joined (R.swapItem now player s src dst) := by
  rw [swapItem, found]
  dsimp only
  split
  · exact wf.lawful _
  rename_i accepted
  obtain ⟨notOut, notIn⟩ := of_refusesSwap accepted
  split
  · rename_i empty
    exact moveToEmpty_lawful wf reachesDst apart found forced notOut notIn empty
  rename_i pDstItem foundDst
  split
  · rename_i s₁ s₂ isIt
    exact joinOrFill_lawful wf reachesDst apart found forced foundDst (joins pDstItem foundDst) isIt
  · rename_i s₁ isIt
    obtain rfl := joinOrFill_none forced found isIt
    exact realSwap_lawful wf reachesDst apart found forced notOut notIn foundDst forcedBack

end Move

/-- The items once a number has been given to one that is not there yet. -/
def numbered (w : ItemWorld) : ItemWorld := { w with nextGuid := w.nextGuid + 1 }

theorem wellFormed_numbered (wf : WellFormed R w player) : WellFormed R (numbered w) player where
  tidy := wf.tidy.later (Nat.le_succ _)
  lodged := wf.lodged

/-- A copy of a part of a stack. -/
structure Part (w : ItemWorld) (item pNewItem : Item) : Prop where
  guid : pNewItem.guid = w.nextGuid
  entry : pNewItem.entry = item.entry
  positive : 1 ≤ pNewItem.count
  part : pNewItem.count < item.count

theorem part_of_clone {pNewItem : Item} {k : Place} {count : Nat}
    (sized : item.count ≤ R.maxStack item.entry) (part : count < item.count)
    (cloned : R.handling.clone w.nextGuid k item count = some pNewItem) :
    Part w item pNewItem ∧ pNewItem.count = count := by
  rw [Handling.clone] at cloned
  split at cloned
  · cases cloned
  rename_i some
  obtain rfl := Option.some.inj cloned
  have whole : min count (R.handling.maxStack item.entry) = count :=
    Nat.min_eq_left (Nat.le_trans (Nat.le_of_lt part) sized)
  refine ⟨⟨rfl, rfl, ?_, ?_⟩, whole⟩
  · dsimp only
    omega
  · dsimp only
    omega

section Split

variable {pNewItem : Item} {fewer : ItemWorld} (wf : WellFormed R s.items player)
  (found : R.itemAtPos s.items player src = some item) (part : Part s.items item pNewItem)
  (isFewer : fewer = (numbered s.items).put (src.place player)
    { item with count := item.count - pNewItem.count })

include wf found part isFewer

omit wf part in
theorem stays_fewer : s.items.Stays fewer := by
  obtain ⟨-, there⟩ := reaches_of_itemAtPos found
  rw [isFewer]
  exact stays_recount (w := numbered s.items) _ there

theorem wellFormed_fewer : WellFormed R fewer player := by
  obtain ⟨reachesSrc, there⟩ := reaches_of_itemAtPos found
  have sized := wf.tidy.sized _ item there
  obtain ⟨-, -, positive, few⟩ := part
  rw [isFewer]
  refine wellFormed_of_stays (w := numbered s.items)
    ((wellFormed_numbered wf).tidy.recount there ⟨by omega, by omega⟩)
    (stays_recount _ there) fun k t lay => ?_
  rcases get?_of_put lay with ⟨rfl, -⟩ | ⟨-, lay⟩
  · exact reachesSrc.lodged
  · exact wf.lodged k t lay

theorem absent_fewer : ¬ fewer.Has pNewItem.guid := by
  obtain ⟨-, there⟩ := reaches_of_itemAtPos found
  intro has
  rw [isFewer] at has
  obtain ⟨k, t, lies, sameGuid⟩ := has.of_recount there
  have old := wf.tidy.old k t lies
  rw [sameGuid, part.guid] at old
  exact Nat.lt_irrefl _ old

theorem settled_split {h : Handling Place UInt32 ItemAttrs} {dest : ItemPosCountVec}
    (same : h.maxStack = R.maxStack)
    (fits : R.handling.Fits (R.seenAt fewer player pNewItem) pNewItem dest)
    (reaches : ∀ pc ∈ dest, Reaches R fewer player pc.1) :
    Settled R now player s joined { s with items := h.storeItem fewer pNewItem dest } := by
  obtain ⟨-, there⟩ := reaches_of_itemAtPos found
  have absent := absent_fewer wf found part isFewer
  have wfFewer := wellFormed_fewer wf found part isFewer
  have tidy : fewer.Tidy h.maxStack := same ▸ wfFewer.tidy
  have known : pNewItem.guid < fewer.nextGuid := by
    rw [isFewer, part.guid]
    exact Nat.lt_succ_self _
  have fits' : h.Fits fewer.shelf.get? pNewItem dest :=
    (fits_of_without (without_self absent) fits reaches).of_maxStack same
  have inside : ∀ pc ∈ dest, pc.1.heldBy player = true :=
    fun pc member => heldBy_of_reaches (reaches pc member)
  have conserves : s.items.Conserves R.maxStack (Place.heldBy player)
      (h.storeItem fewer pNewItem dest) := by
    have tidyNumbered : (numbered s.items).Tidy h.maxStack := same ▸ (wellFormed_numbered wf).tidy
    have absent' : ¬ (numbered s.items).Has pNewItem.guid := by
      intro has
      obtain ⟨k, t, lies, sameGuid⟩ := has
      have old := wf.tidy.old k t lies
      rw [sameGuid, part.guid] at old
      exact Nat.lt_irrefl _ old
    rw [isFewer] at known fits' ⊢
    have split := tidyNumbered.splitOff there absent' known part.entry part.part fits'
      (heldBy_place src) inside
    rw [same] at split
    exact ⟨split.amount, split.tidy, split.frame⟩
  have stored : fewer.Stays (h.storeItem fewer pNewItem dest) :=
    stays_storeItem tidy absent known fits'.toRoomy
  refine settled_of_stays rfl (wellFormed_of_stays conserves.tidy stored fun k t lay => ?_) conserves
    ((stays_fewer found isFewer).trans stored)
  by_cases planned : k ∈ dest.map Prod.fst
  · obtain ⟨pc, member, rfl⟩ := List.mem_map.mp planned
    exact (reaches pc member).lodged
  · rw [Handling.get?_storeItem tidy absent known fits'.toRoomy planned] at lay
    exact wfFewer.lodged k t lay

theorem lawful_unsplit (error : Option InventoryResult) :
    Lawful R player s joined (error, { s with items := setCount fewer item item.count }) := by
  obtain ⟨reachesSrc, there⟩ := reaches_of_itemAtPos found
  have wfFewer := wellFormed_fewer wf found part isFewer
  have lies : fewer.shelf.get? (src.place player) =
      some { item with count := item.count - pNewItem.count } := by
    rw [isFewer, Store.put, get?_put, if_pos rfl]
  have place := placeOf_eq wfFewer.tidy lies
  have tidy := wfFewer.tidy.recount lies (wf.tidy.sized _ item there)
  have stays := stays_recount item.count lies
  have isIt : setCount fewer item item.count = fewer.put (src.place player) item := by
    have isPlace : placeOf fewer item.guid = some (src.place player) := place
    simp only [setCount, isPlace]
  rw [isIt]
  refine lawful_of_same ?_ ?_ (fun k => ?_) error
  · refine wellFormed_of_stays tidy stays fun k t lay => ?_
    rcases get?_of_put lay with ⟨rfl, -⟩ | ⟨-, lay⟩
    · exact wfFewer.lodged _ _ lies
    · exact wfFewer.lodged k t lay
  · rfl
  · rw [isFewer, Store.put, get?_put, Store.put, get?_put]
    by_cases here : k = src.place player
    · rw [if_pos here, here, there]
    · rw [if_neg here, if_neg here]
      rfl

end Split

theorem splitItem_lawful (wf : WellFormed R s.items player)
    (forced : Unforcing R now s.items player dst src) (count : Nat) :
    Lawful R player s joined (R.splitItem now player s src dst count) := by
  rw [splitItem]
  split
  · exact wf.lawful _
  rename_i pSrcItem found
  obtain ⟨-, there⟩ := reaches_of_itemAtPos found
  split
  · exact wf.lawful _
  split
  · exact wf.lawful _
  rename_i notWhole
  split
  · exact wf.lawful _
  rename_i enough
  split
  · exact wf.lawful _
  split
  · exact wf.lawful _
  rename_i pNewItem cloned
  have few : count < pSrcItem.count := by omega
  obtain ⟨part, rfl⟩ := part_of_clone (wf.tidy.sized _ pSrcItem there).2 few cloned
  dsimp only
  generalize isIt : setCount (numbered s.items) pSrcItem (pSrcItem.count - pNewItem.count) = fewer
  have isFewer : fewer = (numbered s.items).put (src.place player)
      { pSrcItem with count := pSrcItem.count - pNewItem.count } := by
    rw [← isIt]
    exact setCount_eq (s := { s with items := numbered s.items }) (wellFormed_numbered wf) found _
  change setCount { s.items with nextGuid := s.items.nextGuid + 1 } pSrcItem _ = fewer at isIt
  rw [isIt]
  split
  · rename_i kind
    have free : dst.isEquipment = true → ¬ Forces R now fewer player pNewItem.entry := by
      intro worn forces
      rw [part.entry] at forces
      refine forced worn pSrcItem found (forces_congr (fun slot => ?_) forces)
      rw [isFewer, Store.put, get?_put]
      split
      · rename_i here
        rw [here]
        rw [there]
        rfl
      · rfl
    split
    · rename_i dest s₁ can
      have sized : 1 ≤ pNewItem.count ∧ pNewItem.count ≤ R.maxStack pNewItem.entry := by
        have below := (wf.tidy.sized _ pSrcItem there).2
        rw [part.entry]
        exact ⟨part.positive, Nat.le_trans (Nat.le_of_lt few) below⟩
      obtain ⟨rfl, fits, reaches⟩ := canPutAt_fits kind free sized can
      rw [putAt_eq kind]
      exact (settled_split wf found part isFewer (maxStack_handlingAt R dst) fits reaches).afterwards
        dst
    · rename_i msg dest s₁ refused can
      have same : (R.canPutAt now player { s with items := fewer } dst pNewItem false).2.2 =
          { s with items := fewer } := canPutAt_snd free
      rw [can] at same
      obtain rfl : s₁ = { s with items := fewer } := same
      exact lawful_unsplit wf found part isFewer _
  · refine lawful_of_same ?_ ?_ (fun _ => ?_) none
    · exact wellFormed_numbered wf
    · rfl
    · rfl

/-- The positions that a request wants to swap. -/
def swapped (R : ItemRules) (w : ItemWorld) (player : UInt64) : ItemRequest → Option (ItemPos × ItemPos)
  | .splitItem _ _ _ => none
  | .swapInvItem srcSlot dstSlot =>
    some (⟨inventorySlotBag0, srcSlot⟩, ⟨inventorySlotBag0, dstSlot⟩)
  | .autoEquipItemSlot itemguid dstslot =>
    match R.getItemByGuid w player itemguid with
    | some (.inventory _ bag slot, _) => some (⟨bag, slot⟩, ⟨inventorySlotBag0, dstslot⟩)
    | _ => none
  | .swapItem src dst => some (src, dst)

/-- A request whose checks do not unequip the off-hand item. -/
def Unforced (R : ItemRules) (now : Wearer) (w : ItemWorld) (player : UInt64)
    (request : ItemRequest) : Prop :=
  (∀ src dst count, request = .splitItem src dst count → Unforcing R now w player dst src) ∧
    ∀ src dst, swapped R w player request = some (src, dst) →
      Unforcing R now w player dst src ∧ Unforcing R now w player src dst

/-- A request that moves all of a stack onto one of its kind with room for it may join the two. -/
def Joins (R : ItemRules) (w : ItemWorld) (player : UInt64) (request : ItemRequest) (k : Place) :
    Prop :=
  ∃ src dst pSrcItem pDstItem, swapped R w player request = some (src, dst) ∧
    k = src.place player ∧ R.itemAtPos w player src = some pSrcItem ∧
    R.itemAtPos w player dst = some pDstItem ∧ pDstItem.entry = pSrcItem.entry ∧
    pSrcItem.count + pDstItem.count ≤ R.maxStack pSrcItem.entry

theorem reaches_of_isValidPos (valid : R.isValidPos w player pos true = true) :
    Reaches R w player (pos.place player) := by
  rw [isValidPos, Bool.not_true, Bool.and_false, if_neg Bool.false_ne_true] at valid
  split at valid
  · rename_i own
    rw [Bool.and_false, Bool.false_or] at valid
    rw [ItemPos.place, own]
    exact reaches_own (of_decide_eq_true valid)
  · cases isBag : R.getBagByPos w player pos.bag with
    | none =>
      rw [isBag] at valid
      cases valid
    | some pBag =>
      rw [isBag] at valid
      dsimp only at valid
      rw [Bool.and_false, Bool.false_or] at valid
      exact reaches_bag isBag (of_decide_eq_true valid)

theorem reaches_of_isEquipment (worn : pos.isEquipment = true) :
    Reaches R w player (pos.place player) := by
  obtain ⟨own, small⟩ := ItemPos.bag_of_isEquipment worn
  rw [ItemPos.place, own]
  exact reaches_own (Nat.lt_trans small (by decide))

section Packets

variable {request : ItemRequest} (wf : WellFormed R s.items player)
  (unforced : Unforced R now s.items player request)
  (isSwap : swapped R s.items player request = some (src, dst))

include wf unforced isSwap

theorem swapItem_of_request (apart : src ≠ dst)
    (reachesDst : Reaches R s.items player (dst.place player)) :
    Lawful R player s (Joins R s.items player request) (R.swapItem now player s src dst) := by
  obtain ⟨forced, forcedBack⟩ := unforced.2 src dst isSwap
  cases found : R.itemAtPos s.items player src with
  | none =>
    rw [swapItem, found]
    exact wf.lawful _
  | some pSrcItem =>
    refine swapItem_lawful wf reachesDst apart found forced forcedBack ?_
    intro pDstItem foundDst entry fits
    exact ⟨src, dst, pSrcItem, pDstItem, isSwap, rfl, found, foundDst, entry, fits⟩

theorem handleSwap_lawful :
    Lawful R player s (Joins R s.items player request) (R.handleSwap now player s src dst) := by
  rw [handleSwap]
  split
  · exact wf.lawful _
  rename_i apart
  split
  · exact wf.lawful _
  split
  · exact wf.lawful _
  rename_i valid
  rw [Bool.not_eq_true', Bool.not_eq_false] at valid
  exact swapItem_of_request wf unforced isSwap apart (reaches_of_isValidPos valid)

end Packets

/-- **Moves conserve items**, whatever is asked for, as long as no check unequips the off hand. -/
theorem handle_lawful (R : ItemRules) (now : Wearer) (player : UInt64) (s : Belongings)
    (request : ItemRequest) (wf : WellFormed R s.items player)
    (unforced : Unforced R now s.items player request) :
    Lawful R player s (Joins R s.items player request) (R.handle now player s request) := by
  cases request with
  | splitItem src dst count =>
    rw [handle]
    split
    · exact wf.lawful _
    split
    · exact wf.lawful _
    split
    · exact wf.lawful _
    split
    · exact wf.lawful _
    exact splitItem_lawful wf (unforced.1 src dst count rfl) count.toNat
  | swapInvItem srcSlot dstSlot => exact handleSwap_lawful wf unforced rfl
  | autoEquipItemSlot itemguid dstslot =>
    rw [handle]
    split
    · exact wf.lawful _
    rename_i worn
    rw [Bool.not_eq_true', Bool.not_eq_false] at worn
    split
    · rename_i owner bag slot item found
      split
      · exact wf.lawful _
      rename_i apart
      refine swapItem_of_request wf unforced ?_ apart (reaches_of_isEquipment worn)
      rw [swapped, found]
    · exact wf.lawful _
  | swapItem src dst => exact handleSwap_lawful wf unforced rfl

def ownSlot (player : UInt64) : Place → Bool
  | .inventory owner bag slot =>
    owner = player && bag = inventorySlotBag0 && decide (slot.toNat < playerSlotEnd)
  | .bank _ _ => false

theorem wellFormed_of_own (guids : (w.shelf.toList.map fun x => x.stack.guid).Nodup)
    (all : ∀ x ∈ w.shelf.toList, ownSlot player x.place = true ∧ 1 ≤ x.stack.count ∧
      x.stack.count ≤ R.maxStack x.stack.entry ∧ x.stack.guid < w.nextGuid) :
    WellFormed R w player := by
  have listed : ∀ {k t}, w.shelf.get? k = some t → ⟨k, t⟩ ∈ w.shelf.toList :=
    fun found => get?_eq_some_iff.mp found
  refine ⟨⟨fun k j t u found foundU same => ?_, fun k t found => ?_, fun k t found => ?_⟩,
    fun k t found => ?_⟩
  · have one := List.inj_on_of_nodup_map guids (listed found) (listed foundU) same
    exact (Placed.mk.inj one).1
  · obtain ⟨-, positive, small, -⟩ := all _ (listed found)
    exact ⟨positive, small⟩
  · exact (all _ (listed found)).2.2.2
  · have own := (all _ (listed found)).1
    cases k with
    | bank tabId slotId => trivial
    | inventory owner bag slot =>
      intro _
      simp only [ownSlot, Bool.and_eq_true, decide_eq_true_eq] at own
      exact Or.inl ⟨own.1.2, own.2⟩

/-- One may own any number of anything, in stacks of one; entry 22 is for the off hand. -/
def offhandWeapons : ItemRules where
  getItemTemplate := fun entry =>
    { class' := 2, subClass := 0, inventoryType := if entry = 22 then invtypeWeaponOffhand else 0
      bindToAccount := false, maxCount := 0, stackable := 1, containerSlots := 0
      bonding := .noBind, bagFamily := 0, gemProperties := 0, socketColor := 0
      itemLimitCategory := 0, stackable_lt := by decide, slots_le := noSlots_le }
  limitCategory := fun _ => none

/-- A player who can do nothing special and is hindered by nothing. -/
def idle : Wearer where
  alive := true
  stunned := false
  inCombat := false
  inArena := false
  weaponChange := false
  casting := false
  disarmed := false
  canDualWield := false
  canTitanGrip := false
  wearsRelics := false
  getBankBagSlotCount := 0
  scales := fun _ => true
  canUseItem := fun _ => .ok
  canEquipUniqueItem := fun _ _ _ => .ok
  offers := fun _ => false

/-- A backpack with so many items in it, and an off-hand weapon. -/
def packOf (slots : Nat) (nodup : ((⟨.inventory 1 255 16, newItem 40 1 22 1⟩ ::
      (List.range slots).map fun i => (⟨.inventory 1 255 (UInt8.ofNat (23 + i)),
        newItem (50 + i) 1 1 1⟩ : Placed Place UInt32 ItemAttrs)).map Placed.place).Nodup) :
    Belongings where
  items :=
    { shelf := ⟨_, nodup⟩
      nextGuid := 90 }
  mailed := []

/-- With a place left in the backpack, the off-hand weapon goes there. -/
theorem handle_lawful_with_space : Lawful offhandWeapons 1 (packOf 2 (by decide))
      (Joins offhandWeapons (packOf 2 (by decide)).items 1 (.swapInvItem 23 24))
      (offhandWeapons.handle idle 1 (packOf 2 (by decide)) (.swapInvItem 23 24)) := by
  refine handle_lawful offhandWeapons idle 1 _ _ (wellFormed_of_own (by decide) (by decide)) ?_
  refine ⟨fun src dst count isSplit => ?_, fun src dst isSwap => ?_⟩
  · cases isSplit
  · obtain ⟨rfl, rfl⟩ := Prod.mk.inj (Option.some.inj isSwap)
    refine ⟨fun worn => ?_, fun worn => ?_⟩
    · exact absurd worn (by decide)
    · exact absurd worn (by decide)

/-- Where none is left it is mailed, though all that was asked for was to swap two others. -/
theorem not_amount_of_full_pack : ∃ s : Belongings, WellFormed offhandWeapons s.items 1 ∧
      (offhandWeapons.handle idle 1 s (.swapInvItem 23 24)).1 = none ∧
      Shelf.amount (Place.heldBy 1) 22 s.items.shelf = 1 ∧
      Shelf.amount (Place.heldBy 1) 22
        (offhandWeapons.handle idle 1 s (.swapInvItem 23 24)).2.items.shelf = 0 := by
  refine ⟨packOf 16 (by decide), wellFormed_of_own (by decide) (by decide), ?_, ?_, ?_⟩
  · decide +kernel
  · decide +kernel
  · decide +kernel

end ItemRules

end Sky548
