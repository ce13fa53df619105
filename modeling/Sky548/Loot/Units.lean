import Mathlib.Data.Finset.Card
import Sky548.Loot.Shape

/-!
# What is left in a loot

`unlootedCount` is meant to be a number of things: a shared entry that nobody has
looted is one of them, and an entry that is free for all is one for each player
with a record of it. Here these units are a finite set, and taking an entry out of
a loot removes one unit from it.
-/

namespace Sky548

open List

/-- A unit of a loot: a shared entry, or one player's share of an entry that is
free for all. -/
inductive LootUnit
  | item (i : Nat)
  | questItem (i : Nat)
  | ffaItem (player : UInt32) (i : Nat)
  | ffaQuestItem (player : UInt32) (i : Nat)
  deriving DecidableEq, Repr

/-- The unit of an entry that one person is supposed to loot. -/
def LootPlace.unit : LootPlace → LootUnit
  | .item i => .item i
  | .questItem i => .questItem i

/-- The unit that a player takes with what `LootItemInSlot` has found for him: none
where the entry is free for all and he has no record of it. -/
def SlotItem.unit (found : SlotItem) (player : UInt32) : Option LootUnit :=
  if found.item.freeforall then
    match found.place, found.record with
    | .item i, .ffaitem _ => some (.ffaItem player i)
    | .questItem i, .qitem _ => some (.ffaQuestItem player i)
    | _, _ => none
  else some found.place.unit

namespace QuestItemMap

def Records (m : QuestItemMap) (player : UInt32) (i : Nat) : Prop :=
  ∃ q ∈ m player, q.index.toNat = i

/-- The player has a record of the entry that is not looted. -/
def Awaits (m : QuestItemMap) (player : UInt32) (i : Nat) : Prop :=
  ∃ q ∈ m player, q.index.toNat = i ∧ q.isLooted = false

instance (m : QuestItemMap) (player : UInt32) (i : Nat) : Decidable (m.Records player i) :=
  inferInstanceAs (Decidable (∃ q ∈ m player, _))

instance (m : QuestItemMap) (player : UInt32) (i : Nat) : Decidable (m.Awaits player i) :=
  inferInstanceAs (Decidable (∃ q ∈ m player, _))

variable {m : QuestItemMap} {player : UInt32}

theorem Awaits.records {i : Nat} (awaits : m.Awaits player i) : m.Records player i := by
  obtain ⟨q, member, index, -⟩ := awaits
  exact ⟨q, member, index⟩

theorem records_markLooted {p : UInt32} {pos i : Nat} :
    (m.markLooted player pos).Records p i ↔ m.Records p i := by
  unfold Records
  rw [markLooted_apply]
  split
  · have sameIndices := Indexed.map_index_modify (m p) pos
    have both : ∀ ql : List QuestItem, (∃ q ∈ ql, q.index.toNat = i) ↔
        i ∈ ql.map fun q => q.index.toNat := fun ql => List.mem_map.symm
    rw [both, both, sameIndices]
  · exact Iff.rfl

theorem awaits_markLooted {p : UInt32} {pos i j : Nat}
    {P : Nat → Prop} (indexed : Indexed (m player) P) {q : QuestItem}
    (atPos : (m player)[pos]? = some q) (index : q.index.toNat = i) :
    (m.markLooted player pos).Awaits p j ↔ m.Awaits p j ∧ ¬ (p = player ∧ j = i) := by
  unfold Awaits
  rw [markLooted_apply]
  by_cases same : p = player
  · rw [if_pos same, same]
    constructor
    · intro ⟨d, member, isJ, unlooted⟩
      obtain ⟨k, atK⟩ := getElem?_of_mem member
      rw [getElem?_modify] at atK
      obtain ⟨old, atK', isMarked⟩ := Option.map_eq_some_iff.mp atK
      by_cases isPos : pos = k
      · rw [if_pos isPos] at isMarked
        rw [← isMarked] at unlooted
        cases unlooted
      rw [if_neg isPos] at isMarked
      have isOld : old = d := isMarked
      rw [isOld] at atK'
      refine ⟨⟨d, mem_of_getElem? atK', isJ, unlooted⟩, fun ⟨_, isI⟩ => isPos ?_⟩
      exact indexed.pos_unique atPos atK' (index.trans (isI.symm.trans isJ.symm))
    · intro ⟨⟨d, member, isJ, unlooted⟩, other⟩
      obtain ⟨k, atK⟩ := getElem?_of_mem member
      have notPos : pos ≠ k := by
        intro isPos
        rw [← isPos, atPos] at atK
        cases atK
        exact other ⟨rfl, isJ.symm.trans index⟩
      refine ⟨d, mem_of_getElem? (i := k) ?_, isJ, unlooted⟩
      rw [getElem?_modify, atK]
      simp [notPos]
  · rw [if_neg same]
    exact ⟨fun awaits => ⟨awaits, fun h => same h.1⟩, And.left⟩

end QuestItemMap

namespace Loot

variable {l l' : Loot} {players : List UInt32}

/-- A unit is still there: a shared entry is not looted and has been counted, a
share of a player is not looted. -/
def Open (l : Loot) (players : List UInt32) : LootUnit → Prop
  | .item i => ∃ item ∈ l.items[i]?, item.freeforall = false ∧ item.isLooted = false ∧
      (item.conditions = [] ∨ item.isCounted = true)
  | .questItem i =>
    (∃ item ∈ l.questItems[i]?, item.freeforall = false ∧ item.isLooted = false) ∧
      ∃ p ∈ players, l.playerQuestItems.Records p i
  | .ffaItem p i => l.playerFFAItems.Awaits p i
  | .ffaQuestItem p i =>
    l.playerQuestItems.Awaits p i ∧ ∃ item ∈ l.questItems[i]?, item.freeforall = true

instance (l : Loot) (players : List UInt32) : ∀ u, Decidable (l.Open players u)
  | .item i => inferInstanceAs (Decidable (∃ item ∈ l.items[i]?, _))
  | .questItem i =>
    have : Decidable (∃ p ∈ players, l.playerQuestItems.Records p i) :=
      List.decidableBEx _ players
    inferInstanceAs (Decidable ((∃ item ∈ l.questItems[i]?, _) ∧ ∃ p ∈ players, _))
  | .ffaItem _ _ => inferInstanceAs (Decidable (l.playerFFAItems.Awaits _ _))
  | .ffaQuestItem _ i =>
    inferInstanceAs (Decidable (_ ∧ ∃ item ∈ l.questItems[i]?, item.freeforall = true))

def candidates (l : Loot) (players : List UInt32) : List LootUnit :=
  (List.range l.items.length).map .item ++ (List.range l.questItems.length).map .questItem ++
    players.flatMap fun p => (List.range l.items.length).map (.ffaItem p) ++
      (List.range l.questItems.length).map (.ffaQuestItem p)

def openUnits (l : Loot) (players : List UInt32) : Finset LootUnit :=
  (l.candidates players).toFinset.filter (l.Open players)

structure Owned (l : Loot) (players : List UInt32) : Prop where
  quest : ∀ p ∉ players, l.playerQuestItems p = []
  ffa : ∀ p ∉ players, l.playerFFAItems p = []
  conditional : ∀ p ∉ players, l.playerNonQuestNonFFAConditionalItems p = []

variable {u : LootUnit}

theorem mem_candidates_of_open (shaped : l.Shaped) (owned : l.Owned players)
    (isOpen : l.Open players u) : u ∈ l.candidates players := by
  unfold candidates
  rw [mem_append, mem_append]
  cases u with
  | item i =>
    obtain ⟨item, there, -⟩ := isOpen
    have inRange := (List.getElem?_eq_some_iff.mp there).1
    exact Or.inl (Or.inl (List.mem_map_of_mem (List.mem_range.mpr inRange)))
  | questItem i =>
    obtain ⟨⟨item, there, -⟩, -⟩ := isOpen
    have inRange := (List.getElem?_eq_some_iff.mp there).1
    exact Or.inl (Or.inr (List.mem_map_of_mem (List.mem_range.mpr inRange)))
  | ffaItem p i =>
    obtain ⟨q, member, rfl, -⟩ := isOpen
    obtain ⟨item, there, -⟩ := (shaped.ffa p).valid q member
    have inRange := (List.getElem?_eq_some_iff.mp there).1
    have isPlayer : p ∈ players := by
      by_contra stranger
      rw [owned.ffa p stranger] at member
      cases member
    exact Or.inr (List.mem_flatMap.mpr ⟨p, isPlayer, mem_append_left _
      (List.mem_map_of_mem (List.mem_range.mpr inRange))⟩)
  | ffaQuestItem p i =>
    obtain ⟨⟨q, member, rfl, -⟩, -⟩ := isOpen
    obtain ⟨item, there⟩ := (shaped.quest p).valid q member
    have inRange := (List.getElem?_eq_some_iff.mp there).1
    have isPlayer : p ∈ players := by
      by_contra stranger
      rw [owned.quest p stranger] at member
      cases member
    exact Or.inr (List.mem_flatMap.mpr ⟨p, isPlayer, mem_append_right _
      (List.mem_map_of_mem (List.mem_range.mpr inRange))⟩)

theorem mem_openUnits (shaped : l.Shaped) (owned : l.Owned players) :
    u ∈ l.openUnits players ↔ l.Open players u := by
  rw [openUnits, Finset.mem_filter, List.mem_toFinset]
  exact ⟨And.right, fun isOpen => ⟨mem_candidates_of_open shaped owned isOpen, isOpen⟩⟩

/-- A loot whose records are its players' own. -/
structure Kept (l : Loot) (players : List UInt32) : Prop where
  shaped : l.Shaped
  owned : l.Owned players

variable (kept : l.Kept players) (kept' : l'.Kept players)

include kept kept'

theorem card_openUnits_eq (same : ∀ u, l'.Open players u ↔ l.Open players u) :
    (l'.openUnits players).card = (l.openUnits players).card := by
  congr 1
  ext u
  rw [mem_openUnits kept'.shaped kept'.owned, mem_openUnits kept.shaped kept.owned]
  exact same u

theorem card_openUnits_take
    (others : ∀ v, l'.Open players v ↔ l.Open players v ∧ v ≠ u) (isOpen : l.Open players u) :
    (l'.openUnits players).card + 1 = (l.openUnits players).card := by
  have erased : l'.openUnits players = (l.openUnits players).erase u := by
    ext v
    rw [Finset.mem_erase, mem_openUnits kept'.shaped kept'.owned,
      mem_openUnits kept.shaped kept.owned, others v]
    exact and_comm
  rw [erased]
  exact Finset.card_erase_add_one ((mem_openUnits kept.shaped kept.owned).mpr isOpen)

theorem card_openUnits_add
    (others : ∀ v, l'.Open players v ↔ l.Open players v ∨ v = u) (isNew : ¬ l.Open players u) :
    (l'.openUnits players).card = (l.openUnits players).card + 1 := by
  have inserted : l'.openUnits players = insert u (l.openUnits players) := by
    ext v
    rw [Finset.mem_insert, mem_openUnits kept'.shaped kept'.owned,
      mem_openUnits kept.shaped kept.owned, others v]
    exact or_comm
  rw [inserted]
  exact Finset.card_insert_of_notMem fun member =>
    isNew ((mem_openUnits kept.shaped kept.owned).mp member)

omit kept kept'

/-! ## What an operation does to the units -/

theorem Kept.of_follows (kept : l.Kept players) (follows : l.Follows l') : l'.Kept players := by
  refine ⟨kept.shaped.of_follows follows, ?_, ?_, ?_⟩
  · rw [follows.quest]
    exact kept.owned.quest
  · rw [follows.ffa]
    exact kept.owned.ffa
  · rw [follows.conditional]
    exact kept.owned.conditional

variable {player : UInt32} {found : SlotItem}

theorem Kept.storeFound (kept : l.Kept players) {lootSlot : Nat}
    (finds : l.Finds player lootSlot found) :
    (l.storeFound player found).Kept players := by
  have marked : ∀ (m : QuestItemMap) (pos : Nat), (∀ p ∉ players, m p = []) →
      ∀ p ∉ players, (m.markLooted player pos) p = [] := by
    intro m pos noList p stranger
    rw [QuestItemMap.markLooted_apply, noList p stranger]
    split <;> simp
  have owned := (kept.of_follows (follows_lootEntry l found)).owned
  refine ⟨kept.shaped.storeFound finds, ?_⟩
  rw [storeFound_eq]
  cases found.record with
  | none => exact ⟨owned.quest, owned.ffa, owned.conditional⟩
  | qitem pos => exact ⟨marked _ pos owned.quest, owned.ffa, owned.conditional⟩
  | ffaitem pos => exact ⟨owned.quest, marked _ pos owned.ffa, owned.conditional⟩
  | conditem pos => exact ⟨owned.quest, owned.ffa, marked _ pos owned.conditional⟩

theorem Reflags.open_iff (reflags : l.Reflags l') (u : LootUnit) :
    l'.Open players u ↔ l.Open players u := by
  have kinds : ∀ {item item' : LootItem}, item.Reflags item' →
      item'.freeforall = item.freeforall ∧ item'.conditions = item.conditions := fun same =>
    ⟨same.follows.freeforall, same.follows.conditions⟩
  cases u with
  | item i =>
    constructor
    · intro ⟨item', there', shared, unlooted, counted⟩
      obtain ⟨item, there, same⟩ := reflags.entry' (.item i) there'
      obtain ⟨ffa, conditions⟩ := kinds same
      exact ⟨item, there, ffa ▸ shared, same.isLooted ▸ unlooted,
        conditions ▸ same.isCounted ▸ counted⟩
    · intro ⟨item, there, shared, unlooted, counted⟩
      obtain ⟨item', there', same⟩ := reflags.entry (.item i) item there
      obtain ⟨ffa, conditions⟩ := kinds same
      exact ⟨item', there', ffa.trans shared, same.isLooted.trans unlooted,
        by rwa [conditions, same.isCounted]⟩
  | questItem i =>
    change (_ ∧ ∃ p ∈ players, l'.playerQuestItems.Records p i) ↔ _
    rw [reflags.quest]
    refine and_congr_left fun _ => ⟨?_, ?_⟩
    · intro ⟨item', there', shared, unlooted⟩
      obtain ⟨item, there, same⟩ := reflags.entry' (.questItem i) there'
      exact ⟨item, there, (kinds same).1 ▸ shared, same.isLooted ▸ unlooted⟩
    · intro ⟨item, there, shared, unlooted⟩
      obtain ⟨item', there', same⟩ := reflags.entry (.questItem i) item there
      exact ⟨item', there', (kinds same).1.trans shared, same.isLooted.trans unlooted⟩
  | ffaItem p i =>
    change l'.playerFFAItems.Awaits p i ↔ _
    rw [reflags.ffa]
    exact Iff.rfl
  | ffaQuestItem p i =>
    change (l'.playerQuestItems.Awaits p i ∧ _) ↔ _
    rw [reflags.quest]
    refine and_congr_right fun _ => ⟨?_, ?_⟩
    · intro ⟨item', there', ffa⟩
      obtain ⟨item, there, same⟩ := reflags.entry' (.questItem i) there'
      exact ⟨item, there, (kinds same).1 ▸ ffa⟩
    · intro ⟨item, there, ffa⟩
      obtain ⟨item', there', same⟩ := reflags.entry (.questItem i) item there
      exact ⟨item', there', (kinds same).1.trans ffa⟩

theorem open_modifyAt_iff (l : Loot) (place : LootPlace) {f : LootItem → LootItem}
    (kind : ∀ item, (f item).kind = item.kind) (looted : ∀ item, (f item).isLooted = true)
    (u : LootUnit) :
    (l.modifyAt place f).Open players u ↔ l.Open players u ∧ u ≠ place.unit := by
  have quest : (l.modifyAt place f).playerQuestItems = l.playerQuestItems := by
    cases place <;> rfl
  have ffa : (l.modifyAt place f).playerFFAItems = l.playerFFAItems := by cases place <;> rfl
  have sameKind : ∀ item : LootItem, (f item).freeforall = item.freeforall := by
    intro item
    have same : (f item).kind.freeforall = item.kind.freeforall := by rw [kind]
    exact same
  have notUnlooted : ∀ {o : Option LootItem}, ∀ item ∈ o.map f, ¬ item.isLooted = false := by
    intro o item there unlooted
    obtain ⟨old, -, rfl⟩ := Option.map_eq_some_iff.mp there
    rw [looted] at unlooted
    cases unlooted
  cases u with
  | item i =>
    change (∃ item ∈ (l.modifyAt place f).itemAt (.item i), _) ↔ _
    rw [itemAt_modifyAt]
    by_cases same : LootPlace.item i = place
    · subst same
      rw [if_pos rfl]
      refine ⟨fun ⟨item, there, _, unlooted, _⟩ => ?_, fun ⟨_, other⟩ => absurd rfl other⟩
      exact absurd unlooted (notUnlooted item there)
    · rw [if_neg same]
      refine ⟨fun isOpen => ⟨isOpen, fun h => same ?_⟩, And.left⟩
      cases place with
      | item j => cases h; rfl
      | questItem j => cases h
  | questItem i =>
    change ((∃ item ∈ (l.modifyAt place f).itemAt (.questItem i), _) ∧
      ∃ p ∈ players, (l.modifyAt place f).playerQuestItems.Records p i) ↔ _
    rw [itemAt_modifyAt, quest]
    by_cases same : LootPlace.questItem i = place
    · subst same
      rw [if_pos rfl]
      refine ⟨fun ⟨⟨item, there, _, unlooted⟩, _⟩ => ?_, fun ⟨_, other⟩ => absurd rfl other⟩
      exact absurd unlooted (notUnlooted item there)
    · rw [if_neg same]
      refine ⟨fun isOpen => ⟨isOpen, fun h => same ?_⟩, And.left⟩
      cases place with
      | item j => cases h
      | questItem j => cases h; rfl
  | ffaItem p i =>
    change (l.modifyAt place f).playerFFAItems.Awaits p i ↔ _
    rw [ffa]
    exact ⟨fun awaits => ⟨awaits, by cases place <;> exact nofun⟩, And.left⟩
  | ffaQuestItem p i =>
    have entries : (∃ item ∈ (l.modifyAt place f).itemAt (.questItem i),
        item.freeforall = true) ↔ ∃ item ∈ l.itemAt (.questItem i), item.freeforall = true := by
      rw [itemAt_modifyAt]
      by_cases same : LootPlace.questItem i = place
      · rw [if_pos same]
        constructor
        · intro ⟨item, there, isFFA⟩
          obtain ⟨old, there', rfl⟩ := Option.map_eq_some_iff.mp there
          exact ⟨old, there', sameKind old ▸ isFFA⟩
        · intro ⟨item, there, isFFA⟩
          exact ⟨f item, Option.map_eq_some_iff.mpr ⟨item, there, rfl⟩, (sameKind item).trans isFFA⟩
      · rw [if_neg same]
    change ((l.modifyAt place f).playerQuestItems.Awaits p i ∧
      ∃ item ∈ (l.modifyAt place f).itemAt (.questItem i), item.freeforall = true) ↔ _
    rw [quest, entries]
    exact ⟨fun isOpen => ⟨isOpen, by cases place <;> exact nofun⟩, And.left⟩

theorem open_takeGiven_iff (l : Loot) (place : LootPlace) (u : LootUnit) :
    (l.takeGiven place).Open players u ↔ l.Open players u ∧ u ≠ place.unit := by
  have sameUnits : (l.takeGiven place).Open players u ↔
      (l.modifyAt place fun item => { item with count := 0, isLooted := true }).Open players u := by
    cases u <;> exact Iff.rfl
  rw [sameUnits]
  refine open_modifyAt_iff l place ?_ ?_ u
  · exact fun _ => rfl
  · exact fun _ => rfl

theorem open_takeRolled_iff (l : Loot) (place : LootPlace) (u : LootUnit) :
    (Roll.takeRolled l place).Open players u ↔ l.Open players u ∧ u ≠ place.unit := by
  have sameUnits : (Roll.takeRolled l place).Open players u ↔
      (l.modifyAt place fun item => { item with isLooted := true }).Open players u := by
    cases u <;> exact Iff.rfl
  rw [sameUnits]
  refine open_modifyAt_iff l place ?_ ?_ u
  · exact fun _ => rfl
  · exact fun _ => rfl

theorem open_lootEntry_iff (shared : found.item.freeforall = false) (u : LootUnit) :
    (l.lootEntry found).Open players u ↔ l.Open players u ∧ u ≠ found.place.unit := by
  unfold lootEntry
  rw [if_neg (by rw [shared]; decide)]
  refine open_modifyAt_iff l found.place ?_ ?_ u
  · exact fun _ => rfl
  · exact fun _ => rfl

theorem open_markFFA_iff (shaped : l.Shaped) {pos : Nat} {q : QuestItem}
    (atPos : (l.playerFFAItems player)[pos]? = some q) (u : LootUnit) :
    (l.markRecord player (.ffaitem pos)).Open players u ↔
      l.Open players u ∧ u ≠ .ffaItem player q.index.toNat := by
  cases u with
  | ffaItem p j =>
    refine (QuestItemMap.awaits_markLooted (shaped.ffa player) atPos rfl).trans ?_
    exact and_congr_right fun _ => not_congr
      ⟨fun ⟨isP, isJ⟩ => by rw [isP, isJ], fun same => by cases same; exact ⟨rfl, rfl⟩⟩
  | _ => exact ⟨fun isOpen => ⟨isOpen, nofun⟩, And.left⟩

theorem open_markQuest_iff (shaped : l.Shaped) {pos : Nat} {q : QuestItem}
    (atPos : (l.playerQuestItems player)[pos]? = some q) (u : LootUnit) :
    (l.markRecord player (.qitem pos)).Open players u ↔
      l.Open players u ∧ u ≠ .ffaQuestItem player q.index.toNat := by
  cases u with
  | ffaQuestItem p j =>
    have awaits := QuestItemMap.awaits_markLooted (p := p) (j := j) (shaped.quest player) atPos rfl
    change ((l.playerQuestItems.markLooted player pos).Awaits p j ∧ _) ↔ (_ ∧ _) ∧ _
    rw [awaits]
    constructor
    · intro ⟨⟨awaiting, other⟩, ffa⟩
      exact ⟨⟨awaiting, ffa⟩, fun same => by cases same; exact other ⟨rfl, rfl⟩⟩
    · intro ⟨⟨awaiting, ffa⟩, other⟩
      exact ⟨⟨awaiting, fun ⟨isP, isJ⟩ => other (by rw [isP, isJ])⟩, ffa⟩
  | questItem j =>
    change (_ ∧ ∃ p ∈ players, (l.playerQuestItems.markLooted player pos).Records p j) ↔ _
    simp only [QuestItemMap.records_markLooted]
    exact ⟨fun isOpen => ⟨isOpen, nofun⟩, And.left⟩
  | _ => exact ⟨fun isOpen => ⟨isOpen, nofun⟩, And.left⟩

theorem open_storeFound_iff (shaped : l.Shaped) {lootSlot : Nat}
    (finds : l.Finds player lootSlot found) {taken : LootUnit}
    (isUnit : found.unit player = some taken) (u : LootUnit) :
    (l.storeFound player found).Open players u ↔ l.Open players u ∧ u ≠ taken := by
  have ofShared : found.item.freeforall = false → taken = found.place.unit := by
    intro shared
    unfold SlotItem.unit at isUnit
    rw [shared, if_neg (by decide)] at isUnit
    cases isUnit
    rfl
  have entryAlone : found.item.freeforall = true → l.lootEntry found = l := fun ffa =>
    if_pos ffa
  have shaped' := shaped.of_follows (follows_lootEntry l found)
  have follows := follows_lootEntry l found
  rw [storeFound_eq]
  change ((l.lootEntry found).markRecord player found.record).Open players u ↔ _
  cases finds with
  | questItem beyond record entry unlooted =>
    rename_i q item
    have atPos : ((l.lootEntry ⟨.questItem q.index.toNat, item,
        .qitem (lootSlot - l.items.length)⟩).playerQuestItems player)[
          lootSlot - l.items.length]? = some q := by
      rw [follows.quest]
      exact record
    refine (open_markQuest_iff shaped' atPos u).trans ?_
    cases kind : item.freeforall with
    | true =>
      have isTaken : taken = .ffaQuestItem player q.index.toNat := by
        unfold SlotItem.unit at isUnit
        rw [if_pos kind] at isUnit
        cases isUnit
        rfl
      rw [entryAlone kind, isTaken]
    | false =>
      rw [open_lootEntry_iff kind, ofShared kind]
      constructor
      · exact And.left
      intro ⟨isOpen, other⟩
      refine ⟨⟨isOpen, other⟩, fun isShare => ?_⟩
      -- the share of a shared entry is never open
      subst isShare
      obtain ⟨_, item', there, ffa⟩ := isOpen
      cases there.symm.trans entry
      rw [kind] at ffa
      cases ffa
  | ffaitem entry ffa record unlooted =>
    rename_i pos q item
    obtain ⟨atPos, index⟩ := QuestItemMap.recordOf_eq_some record
    have isTaken : taken = .ffaItem player lootSlot := by
      unfold SlotItem.unit at isUnit
      rw [if_pos ffa] at isUnit
      cases isUnit
      rfl
    rw [entryAlone ffa, isTaken, ← index]
    exact open_markFFA_iff shaped atPos u
  | conditem entry shared conditional record unlooted =>
    rw [ofShared shared]
    have sameUnits : ∀ l : Loot, ∀ pos, (l.markRecord player (.conditem pos)).Open players u ↔
        l.Open players u := by
      intro l pos
      cases u <;> exact Iff.rfl
    exact (sameUnits _ _).trans (open_lootEntry_iff shared u)
  | none entry unlooted noFFA noConditional =>
    rename_i item
    cases kind : item.freeforall with
    | true =>
      unfold SlotItem.unit at isUnit
      rw [if_pos kind] at isUnit
      cases isUnit
    | false =>
      rw [ofShared kind]
      exact open_lootEntry_iff kind u

end Loot

end Sky548
