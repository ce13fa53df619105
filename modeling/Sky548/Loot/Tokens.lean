import Sky548.Loot.AutoStore

/-!
# Tokens that are gone before they are stored

The loop of `AutoStoreLoot` finds something in a slot exactly when nothing has been taken from it
since the loot was rolled. The filling takes free for all tokens, and a slot it has taken from stays
empty.
-/

namespace Sky548

open List QuestItemMap

open Machine

/-! ## Slots stay empty -/

namespace QuestItemMap

variable {m : QuestItemMap} {player : UInt32}

theorem recordOf_markLooted (pos index : Nat) : (m.markLooted player pos).recordOf player index =
      (m.recordOf player index).map fun found =>
        (found.1, if pos = found.1 then { found.2 with isLooted := true } else found.2) := by
  have samePlace : ∀ ql : List QuestItem, (ql.findIdx? fun q => q.index.toNat = index) =
      (ql.map fun q => q.index.toNat).findIdx? fun i => i = index := by
    intro ql
    rw [findIdx?_map]
    rfl
  unfold recordOf
  rw [markLooted_apply, if_pos rfl, samePlace, Indexed.map_index_modify, ← samePlace]
  cases (m player).findIdx? fun q => q.index.toNat = index with
  | none => rfl
  | some place =>
    simp only [Option.bind_some, getElem?_modify]
    cases (m player)[place]? <;> rfl

end QuestItemMap

namespace Loot

variable {l : Loot} {player : UInt32} {found : SlotItem}

/-- A record in a later map was there before, and is looted if it was. -/
structure RecordsStay (m m' : QuestItemMap) (player : UInt32) : Prop where
  placed : ∀ (j : Nat) (q' : QuestItem), (m' player)[j]? = some q' → ∃ q : QuestItem,
    (m player)[j]? = some q ∧ q.index = q'.index ∧ (q'.isLooted = false → q.isLooted = false)
  named : ∀ (i pos : Nat) (q' : QuestItem), m'.recordOf player i = some (pos, q') →
    ∃ q : QuestItem, m.recordOf player i = some (pos, q) ∧
      (q'.isLooted = false → q.isLooted = false)
  unnamed : ∀ i : Nat, m'.recordOf player i = none → m.recordOf player i = none

theorem RecordsStay.refl (m : QuestItemMap) (player : UInt32) : RecordsStay m m player :=
  ⟨fun _ q there => ⟨q, there, rfl, id⟩, fun _ _ q there => ⟨q, there, id⟩, fun _ absent => absent⟩

theorem recordsStay_markLooted (m : QuestItemMap) (player : UInt32) (pos : Nat) :
    RecordsStay m (m.markLooted player pos) player := by
  refine ⟨fun j q' there => ?_, fun i place q' there => ?_, fun i absent => ?_⟩
  · rw [markLooted_apply, if_pos rfl, getElem?_modify] at there
    obtain ⟨q, before, isMarked⟩ := Option.map_eq_some_iff.mp there
    refine ⟨q, before, ?_, ?_⟩
    · split at isMarked <;> rw [← isMarked]
    split at isMarked
    · intro unlooted
      rw [← isMarked] at unlooted
      cases unlooted
    · exact fun unlooted => isMarked ▸ unlooted
  · rw [recordOf_markLooted] at there
    obtain ⟨⟨place', q⟩, before, isFound⟩ := Option.map_eq_some_iff.mp there
    have samePlace : place' = place := congrArg Prod.fst isFound
    have isMarked : (if pos = place' then { q with isLooted := true } else q) = q' :=
      congrArg Prod.snd isFound
    refine ⟨q, samePlace ▸ before, fun unlooted => ?_⟩
    split at isMarked
    · rw [← isMarked] at unlooted
      cases unlooted
    · exact isMarked ▸ unlooted
  · rw [recordOf_markLooted] at absent
    exact Option.map_eq_none_iff.mp absent

theorem lootItemInSlot_storeFound {i : Nat} (gone : l.lootItemInSlot i player = none) :
    (l.storeFound player found).lootItemInSlot i player = none := by
  have follows := follows_lootEntry l found
  have marked : ∀ l' : Loot,
      RecordsStay l'.playerQuestItems (l'.markRecord player found.record).playerQuestItems player ∧
      RecordsStay l'.playerFFAItems (l'.markRecord player found.record).playerFFAItems player ∧
      RecordsStay l'.playerNonQuestNonFFAConditionalItems
        (l'.markRecord player found.record).playerNonQuestNonFFAConditionalItems player ∧
      (l'.markRecord player found.record).items = l'.items ∧
      (l'.markRecord player found.record).questItems = l'.questItems := by
    intro l'
    cases found.record with
    | none => exact ⟨.refl _ _, .refl _ _, .refl _ _, rfl, rfl⟩
    | qitem pos => exact ⟨recordsStay_markLooted _ _ pos, .refl _ _, .refl _ _, rfl, rfl⟩
    | ffaitem pos => exact ⟨.refl _ _, recordsStay_markLooted _ _ pos, .refl _ _, rfl, rfl⟩
    | conditem pos => exact ⟨.refl _ _, .refl _ _, recordsStay_markLooted _ _ pos, rfl, rfl⟩
  obtain ⟨quest, ffa, conditional, items, questItems⟩ := marked (l.lootEntry found)
  rw [follows.quest] at quest
  rw [follows.ffa] at ffa
  rw [follows.conditional] at conditional
  have itemBefore : ∀ {item'}, ((l.lootEntry found).markRecord player found.record).items[i]? =
      some item' → ∃ item, l.items[i]? = some item ∧ LootItem.Follows item item' := by
    intro item' there
    rw [items] at there
    exact follows.entry' (.item i) there
  rw [storeFound_eq]
  cases still : (((l.lootEntry found).markRecord player found.record).decUnlooted).lootItemInSlot i
      player with
  | none => rfl
  | some found' =>
    have before : ∃ found₀, l.Finds player i found₀ := by
      cases finds_of_lootItemInSlot still with
      | questItem beyond record entry unlooted =>
        have beyond : (((l.lootEntry found).markRecord player found.record).items).length ≤ i :=
          beyond
        have record : (((l.lootEntry found).markRecord player found.record).playerQuestItems
          player)[i - ((l.lootEntry found).markRecord player found.record).items.length]? = _ :=
          record
        rw [items, follows.items] at beyond record
        obtain ⟨q, there, sameIndex, wasUnlooted⟩ := quest.placed _ _ record
        have entry : ((l.lootEntry found).markRecord player found.record).questItems[_]? = _ :=
          entry
        rw [questItems, ← sameIndex] at entry
        obtain ⟨item, entry', -⟩ := follows.entry' (.questItem _) entry
        exact ⟨_, .questItem beyond there entry' (wasUnlooted unlooted)⟩
      | ffaitem entry isFFA record unlooted =>
        obtain ⟨item, entry', same⟩ := itemBefore entry
        obtain ⟨q, there, wasUnlooted⟩ := ffa.named _ _ _ record
        exact ⟨_, .ffaitem entry' (same.freeforall ▸ isFFA) there (wasUnlooted unlooted)⟩
      | conditem entry shared isConditional record unlooted =>
        obtain ⟨item, entry', same⟩ := itemBefore entry
        obtain ⟨q, there, wasUnlooted⟩ := conditional.named _ _ _ record
        exact ⟨_, .conditem entry' (same.freeforall ▸ shared) (same.conditions ▸ isConditional)
          there (wasUnlooted unlooted)⟩
      | none entry unlooted noFFA noConditional =>
        rename_i item'
        obtain ⟨item, entry', same⟩ := itemBefore entry
        have wasUnlooted : item.isLooted = false := by
          cases looted : item.isLooted with
          | false => rfl
          | true =>
            rw [same.looted looted] at unlooted
            cases unlooted
        exact ⟨_, .none entry' wasUnlooted
          (fun isFFA => ffa.unnamed i (noFFA (same.freeforall.trans isFFA)))
          fun shared isConditional => conditional.unnamed i
            (noConditional (same.freeforall.trans shared) (same.conditions ▸ isConditional))⟩
    obtain ⟨found₀, finds⟩ := before
    rw [finds.lootItemInSlot] at gone
    cases gone

theorem lootItemInSlot_stored {i : Nat} (finds : l.Finds player i found)
    (recorded : found.record.isQuest = true ∨ ∃ pos, found.record = .ffaitem pos) :
    (l.storeFound player found).lootItemInSlot i player = none := by
  have follows := follows_lootEntry l found
  rw [storeFound_eq]
  cases finds with
  | questItem beyond record entry unlooted =>
    rename_i q item
    have beyond' : i ≥ (l.lootEntry ⟨.questItem q.index.toNat, item,
        .qitem (i - l.items.length)⟩).items.length := by
      rw [follows.items]
      exact beyond
    have isMarked : ((l.playerQuestItems.markLooted player (i - l.items.length)) player)[i -
        l.items.length]? = some { q with isLooted := true } := by
      rw [markLooted_apply, if_pos rfl, getElem?_modify, record]
      simp
    change (if i ≥ (l.lootEntry _).items.length then _ else _) = none
    rw [if_pos beyond']
    dsimp only [decUnlooted, markRecord]
    rw [follows.quest, follows.items, isMarked]
    dsimp only
    split <;> rfl
  | ffaitem entry isFFA record unlooted =>
    rename_i pos q item
    have here : ¬ i ≥ (l.lootEntry ⟨.item i, item, .ffaitem pos⟩).items.length := by
      rw [follows.items]
      exact Nat.not_le.mpr (List.getElem?_eq_some_iff.mp entry).1
    have same : l.lootEntry ⟨.item i, item, .ffaitem pos⟩ = l := if_pos isFFA
    change (if i ≥ (l.lootEntry _).items.length then _ else _) = none
    rw [if_neg here]
    dsimp only [decUnlooted, markRecord]
    rw [same, entry]
    dsimp only
    rw [if_pos isFFA, recordOf_markLooted, record]
    simp
  | conditem entry shared conditional record unlooted =>
    rcases recorded with isQuest | ⟨pos, isRecord⟩
    · cases isQuest
    · cases isRecord
  | none entry unlooted noFFA noConditional =>
    rcases recorded with isQuest | ⟨pos, isRecord⟩
    · cases isQuest
    · cases isRecord

section Filled

variable {drawn : Loot} {rules : Option LootRules} {p : FillPlayer}

theorem FilledFor.maxSlot (filled : FilledFor rules p drawn l) :
    l.getMaxSlotInLootFor p.low = drawn.items.length + (drawn.questShare rules p).length := by
  rw [getMaxSlotInLootFor, filled.quest, length_map, filled.same.length_items]

theorem Untouched.maxSlot_le (untouched : drawn.Untouched) :
    drawn.items.length + (drawn.questShare rules p).length ≤ maxNrLootItems := by
  have room := untouched.items_le
  have share := length_take_le (maxNrLootItems - drawn.items.length)
    ((List.range drawn.questItems.length).filter fun i => drawn.questItems[i]?.any (isFor rules p))
  rw [questShare]
  omega

theorem mem_questShare {e : Nat} (member : e ∈ drawn.questShare rules p) :
    ∃ item, drawn.questItems[e]? = some item ∧ e < drawn.questItems.length := by
  have inRange := List.mem_range.mp (List.mem_filter.mp (mem_of_mem_take member)).1
  exact ⟨_, getElem?_eq_getElem inRange, inRange⟩

theorem FilledFor.finds_item (filled : FilledFor rules p drawn l) (untouched : drawn.Untouched)
    {i : Nat} {item : LootItem} (there : drawn.items[i]? = some item) :
    ∃ found, l.Finds p.low i found ∧ found.item.asItem = item.asItem ∧
      found.item.isBlocked = false ∧ (item.freeforall = true →
        item.allowedForPlayer p.filter = true → ∃ pos, found.record = .ffaitem pos) := by
  obtain ⟨unlooted, unblocked⟩ := untouched.items item (mem_of_getElem? there)
  have same := filled.same.item i
  rw [there] at same
  obtain ⟨item', there', isSame⟩ := Option.map_eq_some_iff.mp same
  have kind : item'.freeforall = item.freeforall := (congrArg LootItem.freeforall isSame :)
  have conditions : item'.conditions = item.conditions := (congrArg LootItem.conditions isSame :)
  have unlooted' : item'.isLooted = false := (congrArg LootItem.isLooted isSame :).trans unlooted
  have unblocked' : item'.isBlocked = false := (congrArg LootItem.isBlocked isSame :).trans unblocked
  cases isFFA : item'.freeforall with
  | true =>
    cases record : l.playerFFAItems.recordOf p.low i with
    | none =>
      refine ⟨_, .none there' unlooted' (fun _ => record) fun shared => ?_, isSame, unblocked',
        fun _ allowed => ?_⟩
      · rw [isFFA] at shared
        cases shared
      have small : i < 256 := by
        have inRange := (List.getElem?_eq_some_iff.mp there).1
        have atMost : drawn.items.length ≤ 16 := untouched.items_le
        omega
      have hisShare : i ∈ drawn.ffaShare p := by
        refine List.mem_filter.mpr ⟨List.mem_range.mpr (List.getElem?_eq_some_iff.mp there).1, ?_⟩
        simp [there, unlooted, allowed, ← kind, isFFA]
      have hasRecord : newRecord i ∈ l.playerFFAItems p.low := by
        rw [filled.ffa]
        exact List.mem_map_of_mem hisShare
      exact absurd (newRecord_index small) (recordOf_eq_none record _ hasRecord)
    | some found =>
      obtain ⟨pos, q⟩ := found
      have member := mem_of_getElem? (recordOf_eq_some record).1
      rw [filled.ffa] at member
      obtain ⟨j, -, rfl⟩ := List.mem_map.mp member
      exact ⟨_, .ffaitem there' isFFA record rfl, isSame, unblocked', fun _ _ => ⟨pos, rfl⟩⟩
  | false =>
    have notFFA : item.freeforall = true → item.allowedForPlayer p.filter = true →
        ∃ pos, (LootRecord.none : LootRecord) = .ffaitem pos := by
      intro isFFA'
      rw [← kind, isFFA] at isFFA'
      cases isFFA'
    cases record : l.playerNonQuestNonFFAConditionalItems.recordOf p.low i with
    | none =>
      refine ⟨_, .none there' unlooted' (fun isFFA' => ?_) fun _ _ => record, isSame, unblocked',
        notFFA⟩
      rw [isFFA] at isFFA'
      cases isFFA'
    | some found =>
      obtain ⟨pos, q⟩ := found
      have isUnlooted := filled.conditional q (mem_of_getElem? (recordOf_eq_some record).1)
      by_cases isConditional : item'.conditions = []
      · refine ⟨_, .none there' unlooted' (fun isFFA' => ?_) fun _ notEmpty =>
          absurd isConditional notEmpty, isSame, unblocked', notFFA⟩
        rw [isFFA] at isFFA'
        cases isFFA'
      · refine ⟨_, .conditem there' isFFA isConditional record isUnlooted, isSame, unblocked',
          fun isFFA' => ?_⟩
        rw [← kind, isFFA] at isFFA'
        cases isFFA'

theorem FilledFor.finds_questItem (filled : FilledFor rules p drawn l) (untouched : drawn.Untouched)
    {j e : Nat} {item : LootItem} (share : (drawn.questShare rules p)[j]? = some e)
    (there : drawn.questItems[e]? = some item) :
    ∃ found, l.Finds p.low (drawn.items.length + j) found ∧ found.item.asQuest = item.asQuest ∧
      found.record.isQuest = true := by
  have small : e < 256 := by
    have inRange := (List.getElem?_eq_some_iff.mp there).1
    have atMost : drawn.questItems.length ≤ 32 := untouched.questItems_le
    omega
  have same := filled.same.questItem e
  rw [there] at same
  obtain ⟨item', there', isSame⟩ := Option.map_eq_some_iff.mp same
  have index := newRecord_index small
  have beyond : l.items.length ≤ drawn.items.length + j := by
    rw [filled.same.length_items]
    exact Nat.le_add_right _ _
  have record : (l.playerQuestItems p.low)[drawn.items.length + j - l.items.length]? =
      some (newRecord e) := by
    rw [filled.same.length_items, Nat.add_sub_cancel_left, filled.quest, getElem?_map, share]
    rfl
  rw [← index] at there'
  exact ⟨_, .questItem beyond record there' rfl, isSame, rfl⟩

end Filled

end Loot

/-! ## What the filling takes -/

namespace AutoLooter

variable {σ : Type*} (p : AutoLooter σ) (store : ItemStore) (drawn : Loot) (bags : σ)

/-- The filling gives the player a token of `items` that his bags have room for. -/
def TakesItem (i : Nat) : Prop :=
  ∃ item, drawn.items[i]? = some item ∧ p.isToken store bags item = true ∧
    p.canStoreNewItem bags item.itemid item.count = true

/-- The same of quest entries: tested is the entry at a position, stored the one that the player's
record at that position names. -/
def TakesQuestItem (j : Nat) : Prop :=
  ∃ item e other, drawn.questItems[j]? = some item ∧ p.isToken store bags item = true ∧
    (drawn.questShare p.group (p.asFilled bags))[j]? = some e ∧
    drawn.questItems[e]? = some other ∧
    p.canStoreNewItem bags other.itemid other.count = true

def Takes (i : Nat) : Prop :=
  p.TakesItem store drawn bags i ∨
    ∃ j, i = drawn.items.length + j ∧ p.TakesQuestItem store drawn bags j

variable {p store drawn bags}

theorem storeLootItem_keeps {l : Loot} {bags : σ} {slot : UInt8} {i : Nat} :
    (l.lootItemInSlot i p.low = none →
      (p.storeLootItem l bags slot).1.lootItemInSlot i p.low = none) ∧
    (p.storeLootItem l bags slot).1.getMaxSlotInLootFor p.low = l.getMaxSlotInLootFor p.low := by
  unfold storeLootItem
  split
  · exact ⟨id, rfl⟩
  · rename_i found isStorable
    rw [Loot.storeLootItem_eq, isStorable]
    exact ⟨Loot.lootItemInSlot_storeFound, Loot.storeFound_maxSlot l _ _ found⟩

theorem storeCurrency_keeps {state : Loot × σ} {i k : Nat} :
    (state.1.lootItemInSlot k p.low = none →
      (p.storeCurrency store state i).1.lootItemInSlot k p.low = none) ∧
    (p.storeCurrency store state i).1.getMaxSlotInLootFor p.low =
      state.1.getMaxSlotInLootFor p.low := by
  unfold storeCurrency
  split
  · exact ⟨id, rfl⟩
  · split
    · exact storeLootItem_keeps
    · exact ⟨id, rfl⟩

theorem storable_eq {l : Loot} {i : Nat} {found : SlotItem} (small : i < 256)
    (finds : l.Finds p.low i found)
    (free : found.record.isQuest = true ∨ found.item.isBlocked = false) :
    l.storable p.guid (UInt8.ofNat i) (p.asFilled bags).canStore =
      if p.canStoreNewItem bags found.item.itemid found.item.count then some found else none := by
  have slot : (UInt8.ofNat i).toNat = i := by
    rw [UInt8.toNat_ofNat']
    exact Nat.mod_eq_of_lt small
  have isFree : (found.record.isQuest || !found.item.isBlocked) = true := by
    rcases free with isQuest | unblocked
    · rw [isQuest]
      rfl
    · rw [unblocked, Bool.not_false, Bool.or_true]
  have inSlot : l.lootItemInSlot i (guidLoPart p.guid) = some found := finds.lootItemInSlot
  unfold Loot.storable
  rw [slot, inSlot, Option.filter_some, isFree, Bool.true_and]
  rfl

theorem storeCurrency_spec (untouched : drawn.Untouched) {i : Nat}
    (inRange : i < (drawn.fillRecords p.group (p.asFilled bags)).getMaxSlotInLootFor p.low) :
    (¬ p.Takes store drawn bags i →
      p.storeCurrency store (drawn.fillRecords p.group (p.asFilled bags), bags) i =
        (drawn.fillRecords p.group (p.asFilled bags), bags)) ∧
    (p.Takes store drawn bags i →
      (p.storeCurrency store (drawn.fillRecords p.group (p.asFilled bags), bags)
        i).1.lootItemInSlot i p.low = none) ∧
    ((drawn.fillRecords p.group (p.asFilled bags)).lootItemInSlot i p.low).isSome = true := by
  have filled : Loot.FilledFor p.group (p.asFilled bags) drawn
      (drawn.fillRecords p.group (p.asFilled bags)) := untouched.fillRecords
  generalize drawn.fillRecords p.group (p.asFilled bags) = l at filled inRange ⊢
  have maxSlot := filled.maxSlot
  change l.getMaxSlotInLootFor p.low = _ at maxSlot
  rw [maxSlot] at inRange
  have small : i < 256 := by
    have atMost : drawn.items.length +
        (drawn.questShare p.group (p.asFilled bags)).length ≤ 16 := untouched.maxSlot_le
    omega
  have stores : ∀ {found : SlotItem}, l.Finds p.low i found →
      (found.record.isQuest = true ∨ found.item.isBlocked = false) →
      p.storeLootItem l bags (UInt8.ofNat i) =
        if p.canStoreNewItem bags found.item.itemid found.item.count then
          (l.storeFound p.low found, p.storeNewItem bags found.item) else (l, bags) := by
    intro found finds free
    unfold storeLootItem
    rw [Loot.storeLootItem_eq, storable_eq small finds free]
    cases p.canStoreNewItem bags found.item.itemid found.item.count with
    | true => rfl
    | false => rfl
  rcases Nat.lt_or_ge i drawn.items.length with inItems | beyond
  · obtain ⟨item, there⟩ : ∃ item, drawn.items[i]? = some item :=
      ⟨_, getElem?_eq_getElem inItems⟩
    obtain ⟨found, finds, isSame, unblocked, recorded⟩ := filled.finds_item untouched there
    have finds : l.Finds p.low i found := finds
    have takes_iff : p.Takes store drawn bags i ↔ p.isToken store bags item = true ∧
        p.canStoreNewItem bags found.item.itemid found.item.count = true := by
      have itemid : found.item.itemid = item.itemid := (congrArg LootItem.itemid isSame :)
      have count : found.item.count = item.count := (congrArg LootItem.count isSame :)
      rw [itemid, count]
      constructor
      · rintro (⟨item', there', isToken, room⟩ | ⟨j, isBeyond, -⟩)
        · cases there.symm.trans there'
          exact ⟨isToken, room⟩
        · omega
      · exact fun ⟨isToken, room⟩ => Or.inl ⟨item, there, isToken, room⟩
    have same := filled.same.item i
    rw [there] at same
    obtain ⟨item', there', isSame'⟩ := Option.map_eq_some_iff.mp same
    have isCurrency : l.currencyItem i = some item' := by
      unfold Loot.currencyItem
      rw [filled.same.length_items, if_pos inItems, there']
    have sameTest : p.isToken store bags item' = p.isToken store bags item :=
      (congrArg (p.isToken store bags) isSame' :)
    unfold storeCurrency
    rw [isCurrency, takes_iff]
    dsimp only
    rw [sameTest, stores finds (Or.inr unblocked)]
    refine ⟨fun notTaken => ?_, fun ⟨isToken, room⟩ => ?_, ?_⟩
    · split
      · rename_i isToken
        rw [if_neg fun room => notTaken ⟨isToken, room⟩]
      · rfl
    · rw [if_pos isToken, if_pos room]
      have tests := isToken
      simp only [AutoLooter.isToken, Bool.and_eq_true] at tests
      exact Loot.lootItemInSlot_stored finds (Or.inr (recorded tests.1.1.2 tests.1.2))
    · rw [finds.lootItemInSlot]
      rfl
  · obtain ⟨j, rfl⟩ := Nat.exists_eq_add_of_le beyond
    obtain ⟨e, share⟩ : ∃ e, (drawn.questShare p.group (p.asFilled bags))[j]? = some e :=
      ⟨_, getElem?_eq_getElem (by omega)⟩
    obtain ⟨other, isOther, -⟩ := Loot.mem_questShare (mem_of_getElem? share)
    obtain ⟨found, finds, isSame, isQuest⟩ := filled.finds_questItem untouched share isOther
    have finds : l.Finds p.low (drawn.items.length + j) found := finds
    have isCurrency : l.currencyItem (drawn.items.length + j) = l.questItems[j]? := by
      unfold Loot.currencyItem
      rw [filled.same.length_items, if_neg (by omega), Nat.add_sub_cancel_left]
    have itemid : found.item.itemid = other.itemid := (congrArg LootItem.itemid isSame :)
    have count : found.item.count = other.count := (congrArg LootItem.count isSame :)
    have takes_iff : p.Takes store drawn bags (drawn.items.length + j) ↔
        ∃ item, drawn.questItems[j]? = some item ∧ p.isToken store bags item = true ∧
          p.canStoreNewItem bags found.item.itemid found.item.count = true := by
      rw [itemid, count]
      constructor
      · rintro (⟨item, there, -⟩ | ⟨j', sameSlot, item, e', other', there, isToken, share', isOther', room⟩)
        · exact absurd (List.getElem?_eq_some_iff.mp there).1 (by omega)
        · obtain rfl : j' = j := by omega
          cases share.symm.trans share'
          cases isOther.symm.trans isOther'
          exact ⟨item, there, isToken, room⟩
      · exact fun ⟨item, there, isToken, room⟩ =>
          Or.inr ⟨j, rfl, item, e, other, there, isToken, share, isOther, room⟩
    have same := filled.same.questItem j
    unfold storeCurrency
    rw [isCurrency, takes_iff]
    refine ⟨fun notTaken => ?_, fun ⟨item, there, isToken, room⟩ => ?_, ?_⟩
    · rcases there' : l.questItems[j]? with _ | item'
      · rfl
      rw [there'] at same
      obtain ⟨item, there, isSame'⟩ := Option.map_eq_some_iff.mp same.symm
      have sameTest : p.isToken store bags item = p.isToken store bags item' :=
        (congrArg (p.isToken store bags) isSame' :)
      dsimp only
      rw [← sameTest, stores finds (Or.inl isQuest)]
      split
      · rename_i isToken
        rw [if_neg fun room => notTaken ⟨item, there, isToken, room⟩]
      · rfl
    · rw [there] at same
      obtain ⟨item', there', isSame'⟩ := Option.map_eq_some_iff.mp same
      have sameTest : p.isToken store bags item' = p.isToken store bags item :=
        (congrArg (p.isToken store bags) isSame' :)
      rw [there']
      dsimp only
      rw [sameTest, if_pos isToken, stores finds (Or.inl isQuest), if_pos room]
      exact Loot.lootItemInSlot_stored finds (Or.inl isQuest)
    · rw [finds.lootItemInSlot]
      rfl

structure TokenTurn (p : AutoLooter σ) (store : ItemStore) (drawn : Loot) (bags : σ) (i : Nat)
    (state : Loot × σ) : Prop where
  maxSlot : state.1.getMaxSlotInLootFor p.low =
    (drawn.fillRecords p.group (p.asFilled bags)).getMaxSlotInLootFor p.low
  taken : ∀ k < i, p.Takes store drawn bags k → ∃ k, k < state.1.getMaxSlotInLootFor p.low ∧
    state.1.lootItemInSlot k p.low = none
  untaken : (∀ k < i, ¬ p.Takes store drawn bags k) →
    state = (drawn.fillRecords p.group (p.asFilled bags), bags)

theorem TokenTurn.turn (untouched : drawn.Untouched) {i : Nat} {state : Loot × σ}
    (inRange : i < (drawn.fillRecords p.group (p.asFilled bags)).getMaxSlotInLootFor p.low)
    (turn : TokenTurn p store drawn bags i state) :
    TokenTurn p store drawn bags (i + 1) (p.storeCurrency store state i) := by
  have sameSlots : (p.storeCurrency store state i).1.getMaxSlotInLootFor p.low =
      state.1.getMaxSlotInLootFor p.low := (storeCurrency_keeps (k := 0)).2
  obtain ⟨idle, takes, -⟩ := @storeCurrency_spec _ p store drawn bags untouched i inRange
  have stays : (∃ k, k < state.1.getMaxSlotInLootFor p.low ∧
      state.1.lootItemInSlot k p.low = none) →
      ∃ k, k < (p.storeCurrency store state i).1.getMaxSlotInLootFor p.low ∧
        (p.storeCurrency store state i).1.lootItemInSlot k p.low = none := by
    rintro ⟨k, below, gone⟩
    exact ⟨k, sameSlots ▸ below, storeCurrency_keeps.1 gone⟩
  refine ⟨sameSlots.trans turn.maxSlot, fun k below isTaken => ?_, fun untaken => ?_⟩
  · by_cases before : ∃ k < i, p.Takes store drawn bags k
    · obtain ⟨k', below', isTaken'⟩ := before
      exact stays (turn.taken k' below' isTaken')
    have nothing : ∀ k < i, ¬ p.Takes store drawn bags k :=
      fun k below isTaken => before ⟨k, below, isTaken⟩
    have isNow : k = i := by
      rcases Nat.lt_succ_iff_lt_or_eq.mp below with earlier | now
      · exact absurd isTaken (nothing k earlier)
      · exact now
    subst isNow
    refine ⟨k, ?_, ?_⟩
    · rw [sameSlots, turn.maxSlot]
      exact inRange
    · rw [turn.untaken nothing]
      exact takes isTaken
  · rw [turn.untaken fun k below => untaken k (Nat.lt_succ_of_lt below)]
    exact idle (untaken i (Nat.lt_succ_self i))

theorem autoStoreSlots_isSome (l : Loot) (bags : σ) (n : Nat) :
    ((List.range n).foldl (p.autoStoreSlot l) (some bags)).isSome = true ↔
      ∀ i < n, (l.lootItemInSlot i p.low).isSome = true := by
  induction n with
  | zero => simp
  | succ n ih =>
    have one : ∀ b : Option σ, (p.autoStoreSlot l b n).isSome = true ↔
        b.isSome = true ∧ (l.lootItemInSlot n p.low).isSome = true := by
      intro b
      unfold autoStoreSlot
      cases b <;> simp
    rw [range_succ, foldl_append, foldl_cons, foldl_nil, one, ih]
    constructor
    · rintro ⟨before, now⟩ i below
      rcases Nat.lt_succ_iff_lt_or_eq.mp below with earlier | rfl
      · exact before i earlier
      · exact now
    · exact fun all => ⟨fun i below => all i (Nat.lt_succ_of_lt below), all n (Nat.lt_succ_self n)⟩

theorem slots_iff (untouched : drawn.Untouched) :
    (∀ i < (p.fillNotNormalLootFor store drawn bags).1.getMaxSlotInLootFor p.low,
      ((p.fillNotNormalLootFor store drawn bags).1.lootItemInSlot i p.low).isSome = true) ↔
      ∀ i, ¬ p.Takes store drawn bags i := by
  have filled : Loot.FilledFor p.group (p.asFilled bags) drawn
      (drawn.fillRecords p.group (p.asFilled bags)) := untouched.fillRecords
  have maxSlot : (drawn.fillRecords p.group (p.asFilled bags)).getMaxSlotInLootFor p.low =
    drawn.items.length + (drawn.questShare p.group (p.asFilled bags)).length := filled.maxSlot
  have loop : TokenTurn p store drawn bags
      ((drawn.fillRecords p.group (p.asFilled bags)).getMaxSlotInLootFor p.low)
      (p.fillNotNormalLootFor store drawn bags) := by
    refine run_range (P := TokenTurn p store drawn bags) ⟨rfl, fun k below => ?_, fun _ => rfl⟩ _
      fun i state inRange turn => turn.turn untouched inRange
    exact absurd below (Nat.not_lt_zero k)
  have inRange : ∀ i, p.Takes store drawn bags i →
      i < (drawn.fillRecords p.group (p.asFilled bags)).getMaxSlotInLootFor p.low := by
    rw [maxSlot]
    rintro i (⟨item, there, -⟩ | ⟨j, rfl, item, e, other, there, isToken, share, -⟩)
    · exact Nat.lt_add_right _ (List.getElem?_eq_some_iff.mp there).1
    · exact Nat.add_lt_add_left (List.getElem?_eq_some_iff.mp share).1 _
  constructor
  · intro all i isTaken
    obtain ⟨k, below, gone⟩ := loop.taken i (inRange i isTaken) isTaken
    have there := all k below
    rw [gone] at there
    cases there
  · intro nothing i below
    rw [loop.maxSlot] at below
    rw [loop.untaken fun k _ => nothing k]
    exact (@storeCurrency_spec _ p store drawn bags untouched i below).2.2
/-- `AutoStoreLoot` never uses an item that is not there: there is one in every slot after the
filling, and its loop comes to its end. -/
def NeverNull (p : AutoLooter σ) (store : ItemStore) (drawn : Loot) (bags : σ) : Prop :=
  (∀ i < (p.fillNotNormalLootFor store drawn bags).1.getMaxSlotInLootFor p.low,
      ((p.fillNotNormalLootFor store drawn bags).1.lootItemInSlot i p.low).isSome = true) ∧
    (p.autoStoreLoot store drawn bags).isSome = true

theorem untouched_drawnLoot {r : LootRolls} {templates : LootTemplateMap} {rate : Bool} {depth : Nat}
    {lootId : UInt32} (isDrawn : r.drawnLoot templates rate depth lootId = some drawn) :
    drawn.Untouched := by
  unfold LootRolls.drawnLoot at isDrawn
  split at isDrawn
  · cases isDrawn
    exact Loot.untouched_empty
  · obtain ⟨s, processed, rfl⟩ := Option.map_eq_some_iff.mp isDrawn
    exact r.process_keeps (fun l d count untouched => untouched.addItem r.store d count) depth _ _ _ s
      processed Loot.untouched_empty

/-- **`AutoStoreLoot` never uses a missing item exactly when the filling takes no token**: none is
free for all, for the player, and where his bags have room for what he gets from that slot. -/
theorem neverNull_iff (p : AutoLooter σ) (r : LootRolls) (templates : LootTemplateMap) (rate : Bool)
    (depth : Nat) (lootId : UInt32) (bags : σ) {drawn : Loot}
    (isDrawn : r.drawnLoot templates rate depth lootId = some drawn) :
    p.NeverNull r.store drawn bags ↔ ∀ i, ¬ p.Takes r.store drawn bags i := by
  have untouched := untouched_drawnLoot isDrawn
  rw [NeverNull, autoStoreLoot, autoStoreSlots_isSome, and_self]
  exact slots_iff untouched

/-- A currency token that is for everybody in a party. -/
def badge : ItemTemplate where
  maxStackSize := 20
  partyLoot := true
  followLootRules := false
  quality := 1
  disenchantID := 0
  requiredDisenchantSkill := 0
  needRollDisabled := false
  isCurrencyToken := true

def certainDrop (proto : ItemTemplate) : LootRolls where
  store id := if id = 1 then some proto else none
  rateReferenced := 1
  rateReferencedAmount := 1
  rateQuality _ := 1
  references _ := none
  draws _ := .lowest

def oneRow : LootTemplateMap := fun id =>
  if id = 1 then some ⟨[.ofRow 1 100 1 0 1 1], []⟩ else none

def roomy : AutoLooter Unit where
  guid := 5
  group := none
  filter _ _ _ _ := true
  canStoreNewItem _ _ _ := true
  storeNewItem _ _ := ()
  autoStore _ _ := ()

/-- With a drop that is no token every slot has its item. -/
theorem neverNull_noToken :
    (certainDrop { badge with isCurrencyToken := false }).drawnLoot oneRow true 1 1 =
        some { Loot.empty with items := [Loot.newItem badge ⟨1, [], false⟩ 1] } ∧
      roomy.NeverNull (certainDrop { badge with isCurrencyToken := false }).store
        { Loot.empty with items := [Loot.newItem badge ⟨1, [], false⟩ 1] } () := by
  refine ⟨rfl, (neverNull_iff roomy _ oneRow true 1 1 () rfl).mpr fun i => ?_⟩
  rintro (⟨item, there, isToken, -⟩ | ⟨j, -, item, e, other, there, -⟩)
  · have isDrop : item = Loot.newItem badge ⟨1, [], false⟩ 1 :=
      List.mem_singleton.mp (mem_of_getElem? there)
    rw [isDrop] at isToken
    cases isToken
  · cases there

/-- **A token is gone when the loop comes to its slot.** -/
theorem null_token : (certainDrop badge).drawnLoot oneRow true 1 1 =
        some { Loot.empty with items := [Loot.newItem badge ⟨1, [], false⟩ 1] } ∧
      roomy.autoStoreLoot (certainDrop badge).store
        { Loot.empty with items := [Loot.newItem badge ⟨1, [], false⟩ 1] } () = none ∧
      ¬ roomy.NeverNull (certainDrop badge).store
        { Loot.empty with items := [Loot.newItem badge ⟨1, [], false⟩ 1] } () := by
  have isNull : roomy.autoStoreLoot (certainDrop badge).store
      { Loot.empty with items := [Loot.newItem badge ⟨1, [], false⟩ 1] } () = none := rfl
  refine ⟨rfl, isNull, fun never => ?_⟩
  have there := never.2
  rw [isNull] at there
  cases there

end AutoLooter

end Sky548
