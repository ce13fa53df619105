import Sky548.Loot.Filling
import Sky548.Loot.Template

/-!
# Loot that is stored at once

`Player::AutoStoreLoot`: a loot is filled for one player, who then stores slot after slot of it. The
filling itself hands out tokens already. What is left of a slot after that is what the loop finds
there, and it does not ask whether there is anything.
-/

namespace Sky548

open List

open Machine

namespace LootRolls

variable (r : LootRolls) {rate : Bool} {lootMode : UInt16} {P : Loot → Prop}

section Keeps

variable (keep : ∀ (l : Loot) (drawn : LootStoreItem) (count : UInt32), P l →
  P (l.addItem r.store drawn count))

include keep

theorem addItem_keeps (item : LootStoreEntry) {s : LootFilling} (holds : P s.loot) :
    P (r.addItem item s).loot :=
  keep s.loot item.toLootStoreItem _ holds

theorem processGroup_keeps (g : LootTemplate.LootGroup) {s : LootFilling} (holds : P s.loot) :
    P (r.processGroup g lootMode s).loot := by
  have same : (r.rollGroup g lootMode s).2.loot = s.loot := by
    unfold rollGroup
    dsimp only
    split
    · split <;> rfl
    · split
      · split <;> rfl
      · split <;> rfl
  unfold processGroup
  cases rolled : r.rollGroup g lootMode s with
  | mk item s' =>
    rw [rolled] at same
    cases item with
    | none => exact same ▸ holds
    | some item => exact r.addItem_keeps keep item (same ▸ holds)

theorem processEntry_keeps {process : LootTemplate → UInt8 → LootFilling → Option LootFilling}
    (referred : ∀ t groupId s s', process t groupId s = some s' → P s.loot → P s'.loot)
    (item : LootStoreEntry) {s s' : LootFilling}
    (processed : r.processEntry process rate lootMode item s = some s') (holds : P s.loot) :
    P s'.loot := by
  have same : (r.roll item rate s).2.loot = s.loot := by
    unfold roll
    split <;> rfl
  have often : ∀ (t : LootTemplate) (n : Nat) (s s' : LootFilling),
      repeatProcess (process t item.group) n s = some s' → P s.loot → P s'.loot := by
    intro t n
    induction n with
    | zero =>
      intro s s' done holds
      cases done
      exact holds
    | succ n ih =>
      intro s s' done holds
      obtain ⟨s₁, first, rest⟩ := Option.bind_eq_some_iff.mp done
      exact ih s₁ s' rest (referred t item.group s s₁ first holds)
  unfold processEntry at processed
  split at processed
  · cases processed
    exact holds
  cases rolled : r.roll item rate s with
  | mk hit s₁ =>
    rw [rolled] at same processed
    have holds₁ : P s₁.loot := same ▸ holds
    dsimp only at processed
    split at processed
    · cases processed
      exact holds₁
    split at processed
    · split at processed
      · cases processed
        exact holds₁
      · exact often _ _ _ _ processed holds₁
    · cases processed
      exact r.addItem_keeps keep item holds₁

theorem process_keeps (depth : Nat) : ∀ (t : LootTemplate) (groupId : UInt8) (s s' : LootFilling),
    r.process rate lootMode depth t groupId s = some s' → P s.loot → P s'.loot := by
  induction depth with
  | zero =>
    intro t groupId s s' processed
    cases processed
  | succ depth ih =>
    intro t groupId s s' processed holds
    rw [process] at processed
    split at processed
    · split at processed
      · cases processed
        exact holds
      · cases processed
        exact r.processGroup_keeps keep _ holds
    · obtain ⟨s₁, entries, groups⟩ := Option.bind_eq_some_iff.mp processed
      have each : ∀ (l : List LootStoreEntry) (s s₁ : LootFilling),
          processEntries (r.processEntry (r.process rate lootMode depth) rate lootMode) l s =
            some s₁ → P s.loot → P s₁.loot := by
        intro l
        induction l with
        | nil =>
          intro s s₁ done holds
          cases done
          exact holds
        | cons item rest ihRest =>
          intro s s₁ done holds
          obtain ⟨s₂, first, others⟩ := Option.bind_eq_some_iff.mp done
          exact ihRest s₂ s₁ others (r.processEntry_keeps keep ih item first holds)
      cases groups
      refine run_list (P := fun _ _ s => P s.loot)
        (fun s g => g.elim s fun g => r.processGroup g lootMode s) ?_ t.groups [] s₁
        (each _ _ _ entries holds)
      intro _ g _ s holds
      cases g with
      | none => exact holds
      | some g => exact r.processGroup_keeps keep g holds

end Keeps

def lootModeDefault : UInt16 := 1

/-- `FillLoot` until its template is processed, in a new `Loot`; without a template nothing is. -/
def drawnLoot (templates : LootTemplateMap) (rate : Bool) (depth : Nat) (lootId : UInt32) :
    Option Loot :=
  match templates lootId with
  | none => some .empty
  | some tab => (r.process rate lootModeDefault depth tab 0 ⟨.empty, 1, 0⟩).map LootFilling.loot

end LootRolls

/-- A player whose bags are in a state `σ`: which items are for him, what `CanStoreNewItem` says,
and what `StoreNewItem` and the loop of `AutoStoreLoot` make of the bags. -/
structure AutoLooter (σ : Type*) where
  guid : UInt64
  group : Option LootRules
  filter : σ → LootFilter
  canStoreNewItem : σ → UInt32 → UInt8 → Bool
  storeNewItem : σ → LootItem → σ
  autoStore : σ → LootItem → σ

namespace AutoLooter

variable {σ : Type*} (p : AutoLooter σ)

def low : UInt32 := guidLoPart p.guid

/-- The player as the fill functions see him. -/
def asFilled (bags : σ) : FillPlayer where
  guid := p.guid
  presentAtLooting := true
  filter := p.filter bags
  canStore item := p.canStoreNewItem bags item.itemid item.count

def storeLootItem (l : Loot) (bags : σ) (lootSlot : UInt8) : Loot × σ :=
  match l.storable p.guid lootSlot (p.asFilled bags).canStore with
  | none => (l, bags)
  | some found =>
    ((l.storeLootItem p.guid lootSlot (p.asFilled bags).canStore).1, p.storeNewItem bags found.item)

/-- The test of the currency loop of `FillNotNormalLootFor`. -/
def isToken (store : ItemStore) (bags : σ) (item : LootItem) : Bool :=
  !item.isLooted && item.freeforall && item.allowedForPlayer (p.filter bags) &&
    (store item.itemid).any (·.isCurrencyToken)

def storeCurrency (store : ItemStore) (state : Loot × σ) (i : Nat) : Loot × σ :=
  match state.1.currencyItem i with
  | none => state
  | some item =>
    if p.isToken store state.2 item then p.storeLootItem state.1 state.2 (UInt8.ofNat i)
    else state

def fillNotNormalLootFor (store : ItemStore) (l : Loot) (bags : σ) : Loot × σ :=
  let l := l.fillRecords p.group (p.asFilled bags)
  (List.range (l.getMaxSlotInLootFor p.low)).foldl (p.storeCurrency store) (l, bags)

/-- A turn of the loop of `AutoStoreLoot`, which uses what `LootItemInSlot` returns: without an item
there is no next turn. -/
def autoStoreSlot (l : Loot) (bags : Option σ) (i : Nat) : Option σ :=
  bags.bind fun bags => (l.lootItemInSlot i p.low).map fun found => p.autoStore bags found.item

/-- **`AutoStoreLoot`** once the loot is rolled. -/
def autoStoreLoot (store : ItemStore) (drawn : Loot) (bags : σ) : Option σ :=
  let filled := p.fillNotNormalLootFor store drawn bags
  (List.range (filled.1.getMaxSlotInLootFor p.low)).foldl (p.autoStoreSlot filled.1) (some filled.2)

end AutoLooter

/-! ## What the fills leave -/

/-- An entry of `items` without what the fills change of it. -/
def LootItem.asItem (item : LootItem) : LootItem :=
  { item with allowedGUIDs := [], isCounted := false }

/-- The same for a quest entry. -/
def LootItem.asQuest (item : LootItem) : LootItem := { item with isBlocked := false }

theorem map_modify_eq {α β : Type*} {f : α → α} {g : α → β} (same : ∀ a, g (f a) = g a) (l : List α)
    (i : Nat) : (l.modify i f).map g = l.map g := by
  apply ext_getElem?
  intro j
  rw [getElem?_map, getElem?_map, getElem?_modify]
  rcases l[j]? with _ | a
  · rfl
  by_cases here : i = j
  · simp [here, same]
  · simp [here]

namespace Loot

variable {l l' : Loot} {rules : Option LootRules} {p : FillPlayer}

structure SameDrops (l l' : Loot) : Prop where
  items : l'.items.map LootItem.asItem = l.items.map LootItem.asItem
  questItems : l'.questItems.map LootItem.asQuest = l.questItems.map LootItem.asQuest

theorem SameDrops.refl (l : Loot) : l.SameDrops l := ⟨rfl, rfl⟩

theorem SameDrops.trans {l'' : Loot} (first : l.SameDrops l') (second : l'.SameDrops l'') :
    l.SameDrops l'' :=
  ⟨second.items.trans first.items, second.questItems.trans first.questItems⟩

theorem SameDrops.length_items (same : l.SameDrops l') : l'.items.length = l.items.length := by
  have lengths := congrArg List.length same.items
  rw [length_map, length_map] at lengths
  exact lengths

theorem SameDrops.item (same : l.SameDrops l') (i : Nat) :
    l'.items[i]?.map LootItem.asItem = l.items[i]?.map LootItem.asItem := by
  rw [← getElem?_map, ← getElem?_map, same.items]

theorem SameDrops.questItem (same : l.SameDrops l') (i : Nat) :
    l'.questItems[i]?.map LootItem.asQuest = l.questItems[i]?.map LootItem.asQuest := by
  rw [← getElem?_map, ← getElem?_map, same.questItems]

theorem sameDrops_modify_item {f : LootItem → LootItem}
    (keeps : ∀ item, (f item).asItem = item.asItem) (l : Loot) (i : Nat) :
    l.SameDrops (l.modifyAt (.item i) f) :=
  ⟨map_modify_eq keeps l.items i, rfl⟩

theorem sameDrops_modify_questItem {f : LootItem → LootItem}
    (keeps : ∀ item, (f item).asQuest = item.asQuest) (l : Loot) (i : Nat) :
    l.SameDrops (l.modifyAt (.questItem i) f) :=
  ⟨rfl, map_modify_eq keeps l.questItems i⟩

theorem sameDrops_countQuest (i : Nat) (item : LootItem) :
    l.SameDrops (l.countQuest rules i item) := by
  have counted : l.SameDrops (if item.freeforall || !item.isBlocked then l.incUnlooted else l) := by
    split
    · exact ⟨rfl, rfl⟩
    · exact SameDrops.refl l
  unfold countQuest
  dsimp only
  split
  · exact counted
  · refine counted.trans (sameDrops_modify_questItem ?_ _ i)
    exact fun _ => rfl

theorem sameDrops_conditional (i : Nat) (item : LootItem) :
    l.SameDrops ((l.allowLooter p i).countConditional i item) ∧ l.SameDrops (l.allowLooter p i) := by
  have allowed : l.SameDrops (l.allowLooter p i) := by
    unfold allowLooter
    split
    · refine sameDrops_modify_item ?_ l i
      exact fun _ => rfl
    · exact SameDrops.refl l
  refine ⟨?_, allowed⟩
  unfold countConditional
  split
  · exact allowed
  · have counted : (l.allowLooter p i).SameDrops (l.allowLooter p i).incUnlooted := ⟨rfl, rfl⟩
    refine (allowed.trans counted).trans (sameDrops_modify_item ?_ _ i)
    exact fun _ => rfl

/-- The quest entries that a player gets records of: those for him, as far as there is room. -/
def questShare (rules : Option LootRules) (p : FillPlayer) (l : Loot) : List Nat :=
  ((List.range l.questItems.length).filter fun i => l.questItems[i]?.any (isFor rules p)).take
    (maxNrLootItems - l.items.length)

/-- The free for all entries that a player gets records of. -/
def ffaShare (p : FillPlayer) (l : Loot) : List Nat :=
  (List.range l.items.length).filter fun i => l.items[i]?.any fun item =>
    !item.isLooted && item.freeforall && item.allowedForPlayer p.filter

theorem SameDrops.any_isFor (same : l.SameDrops l') (i : Nat) :
    l'.questItems[i]?.any (isFor rules p) = l.questItems[i]?.any (isFor rules p) := by
  have general : ∀ item : Option LootItem,
      (item.map LootItem.asQuest).any (isFor rules p) = item.any (isFor rules p) := by
    intro item
    cases item <;> rfl
  rw [← general, same.questItem, general]

structure QuestShareTurn (rules : Option LootRules) (p : FillPlayer) (l : Loot) (i : Nat)
    (s : Loot × List QuestItem) : Prop where
  same : l.SameDrops s.1
  records : s.2 = (((List.range i).filter fun i => l.questItems[i]?.any (isFor rules p)).take
    (maxNrLootItems - l.items.length)).map newRecord
  quest : s.1.playerQuestItems = l.playerQuestItems
  ffa : s.1.playerFFAItems = l.playerFFAItems
  conditional : s.1.playerNonQuestNonFFAConditionalItems = l.playerNonQuestNonFFAConditionalItems

theorem QuestShareTurn.turn {i : Nat} {s : Loot × List QuestItem} (room : l.items.length ≤ maxNrLootItems)
    (turn : QuestShareTurn rules p l i s) :
    QuestShareTurn rules p l (i + 1) (fillQuestTurn rules p s i) := by
  have length_le := congrArg List.length turn.records
  rw [length_map, length_take] at length_le
  have more : (((List.range (i + 1)).filter fun i => l.questItems[i]?.any (isFor rules p)).take
      (maxNrLootItems - l.items.length)) =
      ((List.range i).filter fun i => l.questItems[i]?.any (isFor rules p)).take
          (maxNrLootItems - l.items.length) ++
        (if l.questItems[i]?.any (isFor rules p) then [i] else []).take
          (maxNrLootItems - l.items.length - ((List.range i).filter fun i =>
            l.questItems[i]?.any (isFor rules p)).length) := by
    rw [range_succ, filter_append, take_append]
    congr 2
    cases isFor : l.questItems[i]?.any (Loot.isFor rules p) <;> simp [isFor]
  have unchanged : s.2 = (((List.range (i + 1)).filter fun i =>
      l.questItems[i]?.any (isFor rules p)).take (maxNrLootItems - l.items.length)).map newRecord →
      QuestShareTurn rules p l (i + 1) s :=
    fun records => ⟨turn.same, records, turn.quest, turn.ffa, turn.conditional⟩
  unfold fillQuestTurn
  split
  · rename_i full
    apply unchanged
    rw [turn.same.length_items] at full
    have none : maxNrLootItems - l.items.length - ((List.range i).filter fun i =>
        l.questItems[i]?.any (isFor rules p)).length = 0 := by
      omega
    rw [more, none, List.take_zero, append_nil]
    exact turn.records
  · rename_i notFull
    rw [turn.same.length_items] at notFull
    split
    · rename_i absent
      apply unchanged
      have absent' := turn.same.questItem i
      rw [absent] at absent'
      have isNone : l.questItems[i]? = none := Option.map_eq_none_iff.mp absent'.symm
      rw [more, isNone]
      simpa using turn.records
    · rename_i item there
      have wanted : l.questItems[i]?.any (isFor rules p) = isFor rules p item := by
        rw [← turn.same.any_isFor i, there]
        rfl
      split
      · rename_i isForP
        rw [wanted, if_pos isForP] at more
        obtain ⟨k, isMore⟩ : ∃ k, maxNrLootItems - l.items.length - ((List.range i).filter fun i =>
            l.questItems[i]?.any (isFor rules p)).length = k + 1 :=
          Nat.exists_eq_succ_of_ne_zero (by omega)
        have reflags := reflags_countQuest s.1 rules i item
        refine ⟨turn.same.trans (sameDrops_countQuest i item), ?_, reflags.quest.trans turn.quest,
          reflags.ffa.trans turn.ffa, reflags.conditional.trans turn.conditional⟩
        rw [more, isMore, map_append, ← turn.records,
          take_of_length_le (by simp : [i].length ≤ k + 1)]
        rfl
      · rename_i notForP
        apply unchanged
        rw [wanted, if_neg notForP, take_nil, append_nil] at more
        rw [more]
        exact turn.records

theorem fillQuestLoot_spec (room : l.items.length ≤ maxNrLootItems)
    (noRecords : l.playerQuestItems p.low = []) :
    l.SameDrops (l.fillQuestLoot rules p) ∧
      (l.fillQuestLoot rules p).playerQuestItems p.low = (l.questShare rules p).map newRecord ∧
      (l.fillQuestLoot rules p).playerFFAItems = l.playerFFAItems ∧
      (l.fillQuestLoot rules p).playerNonQuestNonFFAConditionalItems =
        l.playerNonQuestNonFFAConditionalItems := by
  unfold fillQuestLoot
  split
  · rename_i full
    refine ⟨SameDrops.refl l, ?_, rfl, rfl⟩
    rw [noRecords, questShare, full, Nat.sub_self, List.take_zero]
    rfl
  · have loop : QuestShareTurn rules p l l.questItems.length
        ((List.range l.questItems.length).foldl (fillQuestTurn rules p) (l, [])) := by
      refine run_range (P := QuestShareTurn rules p l) ⟨SameDrops.refl l, ?_, rfl, rfl, rfl⟩
        l.questItems.length fun i s _ turn => turn.turn room
      simp
    generalize (List.range l.questItems.length).foldl (fillQuestTurn rules p) (l, []) = s at loop
    dsimp only
    split
    · rename_i isEmpty
      refine ⟨loop.same, ?_, loop.ffa, loop.conditional⟩
      rw [loop.quest, noRecords, ← isEmpty]
      exact loop.records
    · exact ⟨⟨loop.same.items, loop.same.questItems⟩, (if_pos rfl).trans loop.records, loop.ffa,
        loop.conditional⟩

/-- What a turn of the free for all fill keeps. -/
structure FFAShareTurn (p : FillPlayer) (l : Loot) (i : Nat) (s : Loot × List QuestItem) : Prop where
  records : s.2 = ((List.range i).filter fun i => l.items[i]?.any fun item =>
    !item.isLooted && item.freeforall && item.allowedForPlayer p.filter).map newRecord
  counted : s.1 = { l with unlootedCount := s.1.unlootedCount }

theorem FFAShareTurn.turn {i : Nat} {s : Loot × List QuestItem} (turn : FFAShareTurn p l i s) :
    FFAShareTurn p l (i + 1) (fillFFATurn p s i) := by
  have sameItems : s.1.items = l.items := by
    rw [turn.counted]
  have more := filter_append (p := fun i => l.items[i]?.any fun item =>
    !item.isLooted && item.freeforall && item.allowedForPlayer p.filter) (List.range i) [i]
  rw [← range_succ] at more
  unfold fillFFATurn
  rw [sameItems]
  cases there : l.items[i]? with
  | none =>
    refine ⟨?_, turn.counted⟩
    rw [more, filter_cons_of_neg (by simp [there]), filter_nil, append_nil]
    exact turn.records
  | some item =>
    dsimp only
    split
    · rename_i isHis
      refine ⟨?_, ?_⟩
      · rw [more, filter_cons_of_pos (by simpa [there] using isHis), filter_nil,
          map_append, ← turn.records]
        rfl
      · rw [turn.counted]
        rfl
    · rename_i notHis
      refine ⟨?_, turn.counted⟩
      rw [more, filter_cons_of_neg (by simpa [there] using notHis), filter_nil, append_nil]
      exact turn.records

theorem fillFFALoot_spec (noRecords : l.playerFFAItems p.low = []) : l.SameDrops (l.fillFFALoot p) ∧
      (l.fillFFALoot p).playerFFAItems p.low = (l.ffaShare p).map newRecord ∧
      (l.fillFFALoot p).playerQuestItems = l.playerQuestItems ∧
      (l.fillFFALoot p).playerNonQuestNonFFAConditionalItems =
        l.playerNonQuestNonFFAConditionalItems := by
  have loop : FFAShareTurn p l l.items.length
      ((List.range l.items.length).foldl (fillFFATurn p) (l, [])) :=
    run_range (P := FFAShareTurn p l) ⟨rfl, rfl⟩ l.items.length fun i s _ turn => turn.turn
  unfold fillFFALoot
  generalize (List.range l.items.length).foldl (fillFFATurn p) (l, []) = s at loop
  obtain ⟨l', ql⟩ := s
  have counted : l' = { l with unlootedCount := l'.unlootedCount } := loop.counted
  dsimp only
  split
  · rename_i isEmpty
    rw [counted]
    refine ⟨⟨rfl, rfl⟩, ?_, rfl, rfl⟩
    rw [noRecords, ← isEmpty]
    exact loop.records
  · rw [counted]
    exact ⟨⟨rfl, rfl⟩, (if_pos rfl).trans loop.records, rfl, rfl⟩

structure ConditionalShareTurn (l : Loot) (s : Loot × List QuestItem) : Prop where
  same : l.SameDrops s.1
  unlooted : ∀ q ∈ s.2, q.isLooted = false
  quest : s.1.playerQuestItems = l.playerQuestItems
  ffa : s.1.playerFFAItems = l.playerFFAItems
  conditional : s.1.playerNonQuestNonFFAConditionalItems = l.playerNonQuestNonFFAConditionalItems

theorem ConditionalShareTurn.turn {i : Nat} {s : Loot × List QuestItem}
    (turn : ConditionalShareTurn l s) : ConditionalShareTurn l (fillConditionalTurn rules p s i) := by
  unfold fillConditionalTurn
  split
  · exact turn
  rename_i item _
  split
  · have allowed := reflags_allowLooter s.1 p i
    have counted := entries_countConditional (s.1.allowLooter p i) i item
    have same := sameDrops_conditional (l := s.1) (p := p) i item
    split
    · exact ⟨turn.same.trans same.2, turn.unlooted, allowed.quest.trans turn.quest,
        allowed.ffa.trans turn.ffa, allowed.conditional.trans turn.conditional⟩
    refine ⟨turn.same.trans same.1, fun q member => ?_,
      (counted.quest.trans allowed.quest).trans turn.quest,
      (counted.ffa.trans allowed.ffa).trans turn.ffa,
      (counted.conditional.trans allowed.conditional).trans turn.conditional⟩
    rcases List.mem_append.mp member with old | isNew
    · exact turn.unlooted q old
    · rw [List.mem_singleton.mp isNew]
  · exact turn

theorem fillConditional_spec (noRecords : l.playerNonQuestNonFFAConditionalItems p.low = []) :
    l.SameDrops (l.fillNonQuestNonFFAConditionalLoot rules p) ∧
      (l.fillNonQuestNonFFAConditionalLoot rules p).playerQuestItems = l.playerQuestItems ∧
      (l.fillNonQuestNonFFAConditionalLoot rules p).playerFFAItems = l.playerFFAItems ∧
      ∀ q ∈ (l.fillNonQuestNonFFAConditionalLoot rules p).playerNonQuestNonFFAConditionalItems p.low,
        q.isLooted = false := by
  have loop : ConditionalShareTurn l
      ((List.range l.items.length).foldl (fillConditionalTurn rules p) (l, [])) := by
    refine run_range (P := fun _ s => ConditionalShareTurn l s)
      ⟨SameDrops.refl l, fun q member => ?_, rfl, rfl, rfl⟩ l.items.length
      fun i s _ turn => turn.turn
    cases member
  unfold fillNonQuestNonFFAConditionalLoot
  generalize (List.range l.items.length).foldl (fillConditionalTurn rules p) (l, []) = s at loop
  dsimp only
  split
  · refine ⟨loop.same, loop.quest, loop.ffa, fun q member => ?_⟩
    rw [loop.conditional, noRecords] at member
    cases member
  refine ⟨⟨loop.same.items, loop.same.questItems⟩, loop.quest, loop.ffa, fun q member => ?_⟩
  have listed : (s.1.setConditional p.low s.2).playerNonQuestNonFFAConditionalItems p.low = s.2 :=
    if_pos rfl
  rw [listed] at member
  exact loop.unlooted q member

/-- A loot that nobody has touched. -/
structure Untouched (l : Loot) : Prop where
  items_le : l.items.length ≤ maxNrLootItems
  questItems_le : l.questItems.length ≤ maxNrQuestItems
  quest : l.playerQuestItems = fun _ => []
  ffa : l.playerFFAItems = fun _ => []
  conditional : l.playerNonQuestNonFFAConditionalItems = fun _ => []
  items : ∀ item ∈ l.items, item.isLooted = false ∧ item.isBlocked = false
  questItems : ∀ item ∈ l.questItems, item.isLooted = false

theorem untouched_empty : Loot.empty.Untouched := by
  refine ⟨Nat.zero_le _, Nat.zero_le _, rfl, rfl, rfl, fun item member => ?_, fun item member => ?_⟩
  · cases member
  · cases member

theorem Untouched.addStacks (proto : ItemTemplate) (d : LootStoreItem) (n : Nat) :
    ∀ {count : UInt32} {l : Loot}, Untouched l → Untouched (Loot.addStacks proto d n count l) := by
  induction n with
  | zero => exact fun untouched => untouched
  | succ n ih =>
    intro count l untouched
    rw [Loot.addStacks]
    cases quest : d.needsQuest with
    | true =>
      simp only [Bool.not_true, Bool.false_and, if_true, Bool.false_eq_true, if_false]
      split
      · exact untouched
      rename_i room
      refine ih ⟨untouched.items_le, ?_, untouched.quest, untouched.ffa,
        untouched.conditional, untouched.items, fun item member => ?_⟩
      · rw [length_append, length_singleton]
        omega
      · rcases List.mem_append.mp member with old | isNew
        · exact untouched.questItems item old
        · rw [List.mem_singleton.mp isNew]
          rfl
    | false =>
      simp only [Bool.not_false, Bool.true_and, Bool.false_eq_true, if_false]
      split
      · exact untouched
      rename_i room
      have pushed : Untouched { l with items := l.items ++
          [newItem proto d (min count proto.maxStackSize).toUInt8] } := by
        refine ⟨?_, untouched.questItems_le, untouched.quest, untouched.ffa,
          untouched.conditional, fun item member => ?_, untouched.questItems⟩
        · rw [length_append, length_singleton]
          omega
        · rcases List.mem_append.mp member with old | isNew
          · exact untouched.items item old
          · rw [List.mem_singleton.mp isNew]
            exact ⟨rfl, rfl⟩
      apply ih
      split
      · exact ⟨pushed.items_le, pushed.questItems_le, pushed.quest, pushed.ffa,
          pushed.conditional, pushed.items, pushed.questItems⟩
      · exact pushed

theorem Untouched.addItem (untouched : Untouched l) (store : ItemStore) (d : LootStoreItem)
    (count : UInt32) : Untouched (l.addItem store d count) := by
  unfold Loot.addItem
  split
  · exact untouched
  · exact untouched.addStacks _ _ _

/-- What a player finds in a loot that was filled for him alone. -/
structure FilledFor (rules : Option LootRules) (p : FillPlayer) (drawn l : Loot) : Prop where
  same : drawn.SameDrops l
  quest : l.playerQuestItems p.low = (drawn.questShare rules p).map newRecord
  ffa : l.playerFFAItems p.low = (drawn.ffaShare p).map newRecord
  conditional : ∀ q ∈ l.playerNonQuestNonFFAConditionalItems p.low, q.isLooted = false

theorem SameDrops.ffaShare (same : l.SameDrops l') : l'.ffaShare p = l.ffaShare p := by
  have general : ∀ item : Option LootItem, ((item.map LootItem.asItem).any fun item =>
      !item.isLooted && item.freeforall && item.allowedForPlayer p.filter) =
      item.any fun item => !item.isLooted && item.freeforall && item.allowedForPlayer p.filter := by
    intro item
    cases item <;> rfl
  unfold Loot.ffaShare
  rw [same.length_items]
  congr 1
  funext i
  rw [← general, same.item, general]

theorem Untouched.fillRecords (untouched : l.Untouched) :
    FilledFor rules p l (l.fillRecords rules p) := by
  have noQuest : l.playerQuestItems p.low = [] := by
    rw [untouched.quest]
  obtain ⟨sameQuest, quest, questFFA, questConditional⟩ :=
    @fillQuestLoot_spec l rules p untouched.items_le noQuest
  have noFFA : (l.fillQuestLoot rules p).playerFFAItems p.low = [] := by
    rw [questFFA, untouched.ffa]
  obtain ⟨sameFFA, ffa, ffaQuest, ffaConditional⟩ := fillFFALoot_spec noFFA
  have noConditional : ((l.fillQuestLoot rules p).fillFFALoot
      p).playerNonQuestNonFFAConditionalItems p.low = [] := by
    rw [ffaConditional, questConditional, untouched.conditional]
  obtain ⟨sameConditional, conditionalQuest, conditionalFFA, conditional⟩ :=
    @fillConditional_spec _ rules p noConditional
  unfold Loot.fillRecords
  rw [if_pos noQuest]
  dsimp only
  rw [if_pos noFFA, if_pos noConditional]
  refine ⟨(sameQuest.trans sameFFA).trans sameConditional, ?_, ?_, conditional⟩
  · rw [conditionalQuest, ffaQuest]
    exact quest
  · rw [conditionalFFA, ffa, sameQuest.ffaShare]

end Loot

end Sky548
