import Sky548.Loot.Delivery

/-!
# The exhaustion counter

`unlootedCount` is right when it is the number of open units of the loot: then it is 0 exactly when
no player of the filling finds anything that is his to take. The fill functions and the three ways
out keep it right only under conditions that none of them checks.
-/

namespace Sky548

open List

open Machine

namespace QuestItemMap

theorem recordOf_of_getElem {m : QuestItemMap} {player : UInt32} {P : Nat → Prop}
    (indexed : Indexed (m player) P) {pos : Nat} {q : QuestItem}
    (atPos : (m player)[pos]? = some q) :
    m.recordOf player q.index.toNat = some (pos, q) := by
  rcases isRecord : m.recordOf player q.index.toNat with _ | record
  · exact absurd rfl (recordOf_eq_none isRecord q (mem_of_getElem? atPos))
  obtain ⟨pos', q'⟩ := record
  obtain ⟨atPos', index⟩ := recordOf_eq_some isRecord
  have samePos := indexed.pos_unique atPos' atPos index
  rw [samePos, atPos] at atPos'
  rw [samePos, Option.some.inj atPos']

end QuestItemMap

/-- The same entry, whatever happened to it, counted or not as before. -/
structure LootItem.Stays (item item' : LootItem) : Prop where
  kind : item'.kind = item.kind
  isCounted : item'.isCounted = item.isCounted

namespace LootItem

variable {item item' : LootItem}

theorem Reflags.stays (reflags : item.Reflags item') : item.Stays item' :=
  ⟨reflags.kind, reflags.isCounted⟩

theorem Stays.freeforall (stays : item.Stays item') : item'.freeforall = item.freeforall := by
  have same : item'.kind.freeforall = item.kind.freeforall := by rw [stays.kind]
  exact same

theorem Stays.conditions (stays : item.Stays item') : item'.conditions = item.conditions := by
  have same : item'.kind.conditions = item.kind.conditions := by rw [stays.kind]
  exact same

end LootItem

namespace Loot

variable {l l' : Loot} {players : List UInt32}

/-- `LootItemInSlot` still returns the slot for the player, and nobody has looted
an entry there that is one person's. -/
def LeftFor (l : Loot) (player : UInt32) (slot : Nat) : Prop :=
  ∃ found ∈ l.lootItemInSlot slot player, found.item.freeforall = true ∨ found.item.isLooted = false

/-- Every entry that somebody may take was counted for him. -/
structure Recorded (l : Loot) (players : List UInt32) : Prop where
  ffa : ∀ p ∈ players, ∀ (i : Nat) item, l.items[i]? = some item → item.freeforall = true →
    l.playerFFAItems.Records p i
  conditional : ∀ (i : Nat) item, l.items[i]? = some item → item.freeforall = false →
    item.conditions ≠ [] → item.isCounted = true

/-- The counter is the number of open units. -/
structure Counted (l : Loot) (players : List UInt32) : Prop where
  kept : l.Kept players
  recorded : l.Recorded players
  counter : l.unlootedCount.toNat = (l.openUnits players).card

theorem Counted.open_of_leftFor (counted : l.Counted players) {p : UInt32} (isPlayer : p ∈ players)
    {slot : Nat} (left : l.LeftFor p slot) : ∃ u, l.Open players u := by
  obtain ⟨found, isFound, unused⟩ := left
  cases finds_of_lootItemInSlot isFound with
  | questItem beyond record entry unlooted =>
    rename_i q item
    have member := mem_of_getElem? record
    cases kind : item.freeforall with
    | true =>
      exact ⟨.ffaQuestItem p q.index.toNat, ⟨q, member, rfl, unlooted⟩, item, entry, kind⟩
    | false =>
      have there : item.isLooted = false := by simpa [kind] using unused
      exact ⟨.questItem q.index.toNat, ⟨item, entry, kind, there⟩, p, isPlayer, q, member, rfl⟩
  | ffaitem entry ffa record unlooted =>
    rename_i pos q item
    obtain ⟨atPos, index⟩ := QuestItemMap.recordOf_eq_some record
    exact ⟨.ffaItem p slot, q, mem_of_getElem? atPos, index, unlooted⟩
  | conditem entry shared conditional record unlooted =>
    rename_i pos q item
    have there : item.isLooted = false := by simpa [shared] using unused
    exact ⟨.item slot, item, entry, shared, there,
      Or.inr (counted.recorded.conditional slot item entry shared conditional)⟩
  | none entry unlooted noFFA noConditional =>
    rename_i item
    cases kind : item.freeforall with
    | true =>
      obtain ⟨q, member, index⟩ := counted.recorded.ffa p isPlayer slot item entry kind
      exact absurd index (QuestItemMap.recordOf_eq_none (noFFA kind) q member)
    | false =>
      refine ⟨.item slot, item, entry, kind, unlooted, ?_⟩
      by_cases plain : item.conditions = []
      · exact Or.inl plain
      · exact Or.inr (counted.recorded.conditional slot item entry kind plain)

theorem Kept.leftFor_of_open (kept : l.Kept players) (somebody : players ≠ []) {u : LootUnit}
    (isOpen : l.Open players u) : ∃ p ∈ players, ∃ slot, l.LeftFor p slot := by
  have shaped := kept.shaped
  cases u with
  | item i =>
    obtain ⟨item, there, shared, unlooted, -⟩ := isOpen
    obtain ⟨p, isPlayer⟩ := exists_mem_of_ne_nil players somebody
    by_cases plain : item.conditions = []
    · have finds : l.Finds p i ⟨.item i, item, .none⟩ :=
        .none there unlooted (fun ffa => by rw [shared] at ffa; cases ffa)
          fun _ conditional => absurd plain conditional
      exact ⟨p, isPlayer, i, _, finds.lootItemInSlot, Or.inr unlooted⟩
    · cases isRecord : l.playerNonQuestNonFFAConditionalItems.recordOf p i with
      | none =>
        have finds : l.Finds p i ⟨.item i, item, .none⟩ :=
          .none there unlooted (fun ffa => by rw [shared] at ffa; cases ffa) fun _ _ => isRecord
        exact ⟨p, isPlayer, i, _, finds.lootItemInSlot, Or.inr unlooted⟩
      | some record =>
        obtain ⟨pos, q⟩ := record
        obtain ⟨atPos, index⟩ := QuestItemMap.recordOf_eq_some isRecord
        have notLooted : q.isLooted = false := by
          rw [← Bool.not_eq_true]
          intro looted
          have entryLooted := shaped.conditionalLooted p q (mem_of_getElem? atPos) looted
            item (index ▸ there)
          rw [unlooted] at entryLooted
          cases entryLooted
        have finds : l.Finds p i ⟨.item i, item, .conditem pos⟩ :=
          .conditem there shared plain isRecord notLooted
        exact ⟨p, isPlayer, i, _, finds.lootItemInSlot, Or.inr unlooted⟩
  | questItem i =>
    obtain ⟨⟨item, there, shared, unlooted⟩, p, isPlayer, q, member, index⟩ := isOpen
    obtain ⟨pos, atPos⟩ := getElem?_of_mem member
    have notLooted : q.isLooted = false := by
      rw [← Bool.not_eq_true]
      intro looted
      have entryLooted := shaped.questLooted p q member looted item (index ▸ there) shared
      rw [unlooted] at entryLooted
      cases entryLooted
    have record : (l.playerQuestItems p)[l.items.length + pos - l.items.length]? = some q := by
      rw [Nat.add_sub_cancel_left]
      exact atPos
    have finds := Finds.questItem (Nat.le_add_right _ _) record (index ▸ there) notLooted
    exact ⟨p, isPlayer, _, _, finds.lootItemInSlot, Or.inr unlooted⟩
  | ffaItem p i =>
    obtain ⟨q, member, index, notLooted⟩ := isOpen
    obtain ⟨pos, atPos⟩ := getElem?_of_mem member
    obtain ⟨item, there, ffa⟩ := (shaped.ffa p).valid q member
    have isPlayer : p ∈ players := by
      by_contra stranger
      rw [kept.owned.ffa p stranger] at member
      cases member
    have finds := Finds.ffaitem there ffa
      (QuestItemMap.recordOf_of_getElem (shaped.ffa p) atPos) notLooted
    exact ⟨p, isPlayer, _, _, finds.lootItemInSlot, Or.inl ffa⟩
  | ffaQuestItem p i =>
    obtain ⟨⟨q, member, index, notLooted⟩, item, there, ffa⟩ := isOpen
    obtain ⟨pos, atPos⟩ := getElem?_of_mem member
    have isPlayer : p ∈ players := by
      by_contra stranger
      rw [kept.owned.quest p stranger] at member
      cases member
    have record : (l.playerQuestItems p)[l.items.length + pos - l.items.length]? = some q := by
      rw [Nat.add_sub_cancel_left]
      exact atPos
    have finds := Finds.questItem (Nat.le_add_right _ _) record (index ▸ there) notLooted
    exact ⟨p, isPlayer, _, _, finds.lootItemInSlot, Or.inl ffa⟩

theorem Counted.isLooted_iff (counted : l.Counted players) (somebody : players ≠ []) :
    l.isLooted = true ↔ l.gold = 0 ∧ ∀ p ∈ players, ∀ slot, ¬ l.LeftFor p slot := by
  have zero : l.unlootedCount = 0 ↔ ∀ u, ¬ l.Open players u := by
    rw [← UInt8.toNat_inj, counted.counter]
    change (l.openUnits players).card = 0 ↔ _
    rw [Finset.card_eq_zero, Finset.eq_empty_iff_forall_notMem]
    exact forall_congr' fun u =>
      not_congr (mem_openUnits counted.kept.shaped counted.kept.owned)
  have nothing : (∀ u, ¬ l.Open players u) ↔ ∀ p ∈ players, ∀ slot, ¬ l.LeftFor p slot := by
    constructor
    · intro closed p isPlayer slot left
      obtain ⟨u, isOpen⟩ := counted.open_of_leftFor isPlayer left
      exact closed u isOpen
    · intro gone u isOpen
      obtain ⟨p, isPlayer, slot, left⟩ := counted.kept.leftFor_of_open somebody isOpen
      exact gone p isPlayer slot left
  unfold isLooted
  rw [Bool.and_eq_true, decide_eq_true_iff, decide_eq_true_iff, zero, nothing]

theorem Recorded.of_entries (recorded : l.Recorded players)
    (entries : l.Entries LootItem.Stays l') : l'.Recorded players := by
  refine ⟨fun p isPlayer i item' there' ffa => ?_, fun i item' there' shared conditional => ?_⟩
  · obtain ⟨item, there, same⟩ := entries.entry' (.item i) there'
    rw [entries.ffa]
    exact recorded.ffa p isPlayer i item there (same.freeforall ▸ ffa)
  · obtain ⟨item, there, same⟩ := entries.entry' (.item i) there'
    rw [same.isCounted]
    exact recorded.conditional i item there (same.freeforall ▸ shared)
      (same.conditions ▸ conditional)

theorem Recorded.markRecord (recorded : l.Recorded players) (player : UInt32)
    (record : LootRecord) : (l.markRecord player record).Recorded players := by
  have sameItems : (l.markRecord player record).items = l.items := by cases record <;> rfl
  have sameRecords : ∀ p i, l.playerFFAItems.Records p i →
      (l.markRecord player record).playerFFAItems.Records p i := by
    intro p i isRecord
    cases record with
    | ffaitem pos => exact QuestItemMap.records_markLooted.mpr isRecord
    | none => exact isRecord
    | qitem pos => exact isRecord
    | conditem pos => exact isRecord
  refine ⟨fun p isPlayer i item there ffa => ?_, fun i item there => ?_⟩
  · rw [sameItems] at there
    exact sameRecords p i (recorded.ffa p isPlayer i item there ffa)
  · rw [sameItems] at there
    exact recorded.conditional i item there

theorem Counted.take (counted : l.Counted players) (kept' : l'.Kept players)
    (recorded' : l'.Recorded players) {u : LootUnit} (isOpen : l.Open players u)
    (others : ∀ v, l'.Open players v ↔ l.Open players v ∧ v ≠ u)
    (down : l'.unlootedCount = l.unlootedCount - 1) :
    l'.Counted players ∧ l'.unlootedCount ≤ l.unlootedCount := by
  have less := card_openUnits_take counted.kept kept' others isOpen
  have positive : (1 : UInt8) ≤ l.unlootedCount := by
    rw [UInt8.le_iff_toNat_le, counted.counter, ← less]
    exact Nat.le_add_left 1 _
  have isLess : l'.unlootedCount.toNat = l.unlootedCount.toNat - 1 := by
    rw [down, UInt8.toNat_sub_of_le _ _ positive]
    rfl
  refine ⟨⟨kept', recorded', ?_⟩, ?_⟩
  · rw [isLess, counted.counter, ← less, Nat.add_sub_cancel]
  · rw [UInt8.le_iff_toNat_le, isLess]
    exact Nat.sub_le _ _

theorem Counted.of_reflags (counted : l.Counted players) (reflags : l.Reflags l')
    (same : l'.unlootedCount = l.unlootedCount) : l'.Counted players := by
  have kept' := counted.kept.of_follows reflags.follows
  refine ⟨kept', counted.recorded.of_entries (reflags.mono fun _ _ => LootItem.Reflags.stays), ?_⟩
  rw [same, counted.counter]
  exact (card_openUnits_eq counted.kept kept' fun u => reflags.open_iff u).symm

theorem stays_modifyAt (l : Loot) (place : LootPlace) {f : LootItem → LootItem}
    (keeps : ∀ item : LootItem, item.Stays (f item)) :
    l.Entries LootItem.Stays (l.modifyAt place f) :=
  entries_modifyAt (fun _ => ⟨rfl, rfl⟩) l place keeps

theorem unlootedCount_modifyAt (l : Loot) (place : LootPlace) (f : LootItem → LootItem) :
    (l.modifyAt place f).unlootedCount = l.unlootedCount := by
  cases place <;> rfl

theorem Counted.storeFound (counted : l.Counted players) {player : UInt32} {lootSlot : Nat}
    {found : SlotItem} (finds : l.Finds player lootSlot found) {u : LootUnit}
    (isUnit : found.unit player = some u) (isOpen : l.Open players u) :
    (l.storeFound player found).Counted players ∧
      (l.storeFound player found).unlootedCount ≤ l.unlootedCount := by
  have marked : l.Entries LootItem.Stays (l.lootEntry found) := by
    unfold lootEntry
    split
    · exact Entries.refl (fun _ => ⟨rfl, rfl⟩) l
    · exact stays_modifyAt l found.place fun _ => ⟨rfl, rfl⟩
  have recorded := (counted.recorded.of_entries marked).markRecord player found.record
  have recorded' : (l.storeFound player found).Recorded players := by
    rw [storeFound_eq]
    exact ⟨recorded.ffa, recorded.conditional⟩
  refine counted.take (counted.kept.storeFound finds) recorded' isOpen
    (open_storeFound_iff counted.kept.shaped finds isUnit) ?_
  rw [storeFound_eq]
  change ((l.lootEntry found).markRecord player found.record).unlootedCount - 1 = _
  have sameCount : ((l.lootEntry found).markRecord player found.record).unlootedCount =
      l.unlootedCount := by
    unfold lootEntry
    split
    · cases found.record <;> rfl
    · rw [← unlootedCount_modifyAt l found.place fun item => { item with isLooted := true }]
      cases found.record <;> rfl
  rw [sameCount]

theorem Counted.takeGiven (counted : l.Counted players) {place : LootPlace}
    (isOpen : l.Open players place.unit) :
    (l.takeGiven place).Counted players ∧
      (l.takeGiven place).unlootedCount ≤ l.unlootedCount := by
  have recorded := counted.recorded.of_entries
    (stays_modifyAt l place (f := fun item => { item with count := 0, isLooted := true })
      fun _ => ⟨rfl, rfl⟩)
  refine counted.take (counted.kept.of_follows (follows_takeGiven l place))
    ⟨recorded.ffa, recorded.conditional⟩ isOpen (open_takeGiven_iff l place) ?_
  exact congrArg (· - 1) (unlootedCount_modifyAt l place _)

theorem Counted.takeRolled (counted : l.Counted players) {place : LootPlace}
    (isOpen : l.Open players place.unit) :
    (Roll.takeRolled l place).Counted players ∧
      (Roll.takeRolled l place).unlootedCount ≤ l.unlootedCount := by
  have recorded := counted.recorded.of_entries
    (stays_modifyAt l place (f := fun item => { item with isLooted := true })
      fun _ => ⟨rfl, rfl⟩)
  refine counted.take (counted.kept.of_follows (follows_takeRolled l place))
    ⟨recorded.ffa, recorded.conditional⟩ isOpen (open_takeRolled_iff l place) ?_
  exact congrArg (· - 1) (unlootedCount_modifyAt l place _)

theorem counted_empty (players : List UInt32) : Loot.empty.Counted players := by
  have kept : Loot.empty.Kept players :=
    ⟨shaped_empty, fun _ _ => rfl, fun _ _ => rfl, fun _ _ => rfl⟩
  refine ⟨kept, ⟨fun p _ i item there => ?_, fun i item there => ?_⟩, ?_⟩
  · cases there
  · cases there
  · have closed : ∀ u, ¬ Loot.empty.Open players u := by
      intro u isOpen
      cases u with
      | item i =>
        obtain ⟨item, there, -⟩ := isOpen
        cases there
      | questItem i =>
        obtain ⟨⟨item, there, -⟩, -⟩ := isOpen
        cases there
      | ffaItem p i =>
        obtain ⟨q, member, -⟩ := isOpen
        cases member
      | ffaQuestItem p i =>
        obtain ⟨⟨q, member, -⟩, -⟩ := isOpen
        cases member
    change 0 = _
    rw [eq_comm, Finset.card_eq_zero, Finset.eq_empty_iff_forall_notMem]
    exact fun u member => closed u ((mem_openUnits kept.shaped kept.owned).mp member)

end Loot

/-- What a filling must meet for its counter: all may take what is free for all, somebody wants each
conditional entry, no shared quest entry is counted twice, and the units fit a `uint8`. -/
structure Filling.Countable (f : Filling) (store : ItemStore) : Prop where
  ffa : ∀ item ∈ (f.drawn store).items, item.freeforall = true →
    ∀ p ∈ f.players, item.allowedForPlayer p.filter = true
  conditional : ∀ item ∈ (f.drawn store).items, item.freeforall = false →
    item.conditions ≠ [] → ∃ p ∈ f.players, Loot.wants f.rules p item = true
  oneRecipient : (f.drawn store).OneRecipient f.rules f.players
  fits : ((f.fillLoot store).1.openUnits (f.players.map FillPlayer.low)).card ≤ 255

instance (f : Filling) (store : ItemStore) : Decidable (f.Countable store) :=
  decidable_of_iff ((∀ item ∈ (f.drawn store).items, item.freeforall = true →
        ∀ p ∈ f.players, item.allowedForPlayer p.filter = true) ∧
      (∀ item ∈ (f.drawn store).items, item.freeforall = false →
        item.conditions ≠ [] → ∃ p ∈ f.players, Loot.wants f.rules p item = true) ∧
      (f.drawn store).OneRecipient f.rules f.players ∧
      ((f.fillLoot store).1.openUnits (f.players.map FillPlayer.low)).card ≤ 255)
    ⟨fun all => ⟨all.1, all.2.1, all.2.2.1, all.2.2.2⟩,
      fun all => ⟨all.ffa, all.conditional, all.oneRecipient, all.fits⟩⟩

theorem Filling.Countable.counted {f : Filling} {store : ItemStore} (countable : f.Countable store) :
    (f.fillLoot store).1.Counted (f.players.map FillPlayer.low) := by
  have filled := (f.filled_fillLoot store).1
  have drawnItem : ∀ {i : Nat} {item : LootItem}, (f.fillLoot store).1.items[i]? = some item →
      ∃ item' ∈ (f.drawn store).items, item.kind = item'.kind := by
    intro i item there
    obtain ⟨item', there', same⟩ := filled.kinds (.item i) item there
    exact ⟨item', mem_of_getElem? there', same⟩
  have stays : ∀ {item item' : LootItem}, item.kind = item'.kind →
      item'.freeforall = item.freeforall ∧ item'.conditions = item.conditions := by
    intro item item' same
    have follows : LootItem.Follows item' { item with isLooted := item'.isLooted } :=
      ⟨same, id⟩
    exact ⟨follows.freeforall.symm, follows.conditions.symm⟩
  refine ⟨filled.kept, ⟨fun low isLow i item there ffa => ?_,
    fun i item there shared conditional => ?_⟩, ?_⟩
  · obtain ⟨p, isPlayer, rfl⟩ := List.mem_map.mp isLow
    obtain ⟨item', drawn, same⟩ := drawnItem there
    refine filled.ffa p isPlayer i item there ffa ?_
    rw [Loot.allowed_of_kind same]
    exact countable.ffa item' drawn ((stays same).1.trans ffa) p isPlayer
  · obtain ⟨item', drawn, same⟩ := drawnItem there
    obtain ⟨p, isPlayer, wanted⟩ := countable.conditional item' drawn
      ((stays same).1.trans shared) ((stays same).2 ▸ conditional)
    refine filled.conditional p isPlayer i item there shared conditional ?_
    rw [Loot.wants_of_kind same]
    exact wanted
  · rw [filled.counter countable.oneRecipient, UInt8.toNat_ofNat']
    exact Nat.mod_eq_of_lt (Nat.lt_succ_of_le countable.fits)

/-- **The guard of the counter**: every entry that leaves a loot is an open unit. -/
def counterGuard (store : ItemStore) : LootGuard where
  filled f := f.Countable store
  stored players l player lootSlot canStore :=
    (l.storable player lootSlot canStore).all fun found =>
      (found.unit (guidLoPart player)).any fun u => l.Open players u
  given players l slotid canStore filter :=
    (l.givable slotid canStore filter).all fun _ =>
      l.Open players (l.slotPlace slotid.toNat).unit
  counted players r l c := !r.takes c || l.Open players (r.place l).unit

namespace LootWorld

/-- A loot counts as looted exactly when its gold is gone and nothing is left for
any player it was filled for. -/
def RightlyEmpty (w : LootWorld) : Prop :=
  ∀ id, ∀ l ∈ w.loots id, l.isLooted = true ↔
    l.gold = 0 ∧ ∀ p ∈ w.filledFor id, ∀ slot, ¬ l.LeftFor p slot

/-- The event counts no loot's counter up, so it does not wrap it below 0. -/
def CountsDown (store : ItemStore) (w : LootWorld) (e : Event) : Prop :=
  ∀ id, ∀ l ∈ w.loots id, ∀ l' ∈ (step store w e).loots id, l'.unlootedCount ≤ l.unlootedCount

/-- The counter is right, there are players, and the counter is not above a bound. -/
def CountedTo (bound : Option UInt8) (players : List UInt32) (l : Loot) (_ : List Delivery) :
    Prop :=
  l.Counted players ∧ players ≠ [] ∧ ∀ b ∈ bound, l.unlootedCount ≤ b

theorem CountedTo.lower {bound : Option UInt8} {players : List UInt32} {l l' : Loot}
    {ds ds' : List Delivery} (counted : CountedTo bound players l ds)
    (lower : l'.Counted players ∧ l'.unlootedCount ≤ l.unlootedCount) :
    CountedTo bound players l' ds' :=
  ⟨lower.1, counted.2.1, fun b isBound => UInt8.le_trans lower.2 (counted.2.2 b isBound)⟩

theorem countedRule (store : ItemStore) (bound : Option UInt8) (players : List UInt32) :
    LootRule store (counterGuard store) players (CountedTo bound players) where
  stored l ds player lootSlot canStore counted guarded := by
    rw [Loot.storeLootItem_eq]
    unfold counterGuard at guarded
    dsimp only at guarded
    rcases isStorable : l.storable player lootSlot canStore with _ | found
    · exact counted.lower ⟨counted.1, UInt8.le_refl _⟩
    rw [isStorable, Option.all_some, Option.any_eq_true] at guarded
    obtain ⟨u, isUnit, isOpen⟩ := guarded
    exact counted.lower (counted.1.storeFound (Loot.storable_eq_some isStorable) isUnit
      (of_decide_eq_true isOpen))
  given l ds target slotid canStore filter counted guarded := by
    rw [Loot.lootMasterGive_eq]
    unfold counterGuard at guarded
    dsimp only at guarded
    cases isGivable : l.givable slotid canStore filter with
    | none => exact counted.lower ⟨counted.1, UInt8.le_refl _⟩
    | some item =>
      rw [isGivable, Option.all_some] at guarded
      exact counted.lower (counted.1.takeGiven (of_decide_eq_true guarded))
  counted r l ds c counted guarded := by
    unfold counterGuard at guarded
    dsimp only at guarded
    rcases Roll.count_cases r l c with ⟨takes, isTaken, -⟩ | ⟨-, -, unchanged | unblocked⟩
    · rw [takes] at guarded
      rw [isTaken]
      exact counted.lower (counted.1.takeRolled (of_decide_eq_true guarded))
    · rw [unchanged]
      exact counted.lower ⟨counted.1, UInt8.le_refl _⟩
    · rw [unblocked]
      have sameCount := Loot.unlootedCount_modifyAt l (r.place l)
        fun item => { item with isBlocked := false }
      exact counted.lower ⟨counted.1.of_reflags (Loot.reflags_unblock l (r.place l)) sameCount,
        UInt8.le_of_eq sameCount⟩
  started group newItemGUID id needBeforeGreed l ds counted :=
    counted.lower ⟨counted.1.of_reflags
      (Loot.reflags_startRolls group store newItemGUID id needBeforeGreed l) rfl, UInt8.le_refl _⟩
  cleared l ds counted :=
    counted.lower ⟨Loot.counted_empty players, UInt8.le_iff_toNat_le.mpr (Nat.zero_le _)⟩

variable {store : ItemStore} {w : LootWorld} {e : Event}

theorem EachLoot.countedTo_step {bound : LootId → Option UInt8}
    (each : EachLoot (fun id => CountedTo (bound id)) w) (meets : (counterGuard store).Meets w e)
    (new : ∀ id, w.loots id = none → bound id = none) :
    EachLoot (fun id => CountedTo (bound id)) (LootWorld.step store w e) := by
  refine each.step (fun id players => countedRule store (bound id) players) meets ?_
  intro id filling _ isNone countable
  refine ⟨(of_decide_eq_true countable).counted, ?_, fun b isBound => ?_⟩
  · rw [ne_eq, map_eq_nil_iff]
    exact filling.players_ne_nil
  · rw [new id isNone] at isBound
    cases isBound

theorem rightlyEmpty_of_countedTo (each : EachLoot (fun _ => CountedTo none) w) :
    w.RightlyEmpty := by
  intro id l isLoot
  have counted := each id
  rw [Option.mem_def.mp isLoot] at counted
  exact counted.1.isLooted_iff counted.2.1

theorem countsDown_of_countedTo (each : EachLoot (fun _ => CountedTo none) w)
    (meets : (counterGuard store).Meets w e) : CountsDown store w e := by
  have bounded : EachLoot (fun id => CountedTo ((w.loots id).map Loot.unlootedCount)) w := by
    intro id
    have counted := each id
    cases isLoot : w.loots id with
    | none =>
      rw [isLoot] at counted
      exact counted
    | some l =>
      rw [isLoot] at counted
      refine ⟨counted.1, counted.2.1, fun b isBound => ?_⟩
      rw [isLoot] at isBound
      cases isBound
      exact UInt8.le_refl _
  have later := bounded.countedTo_step meets fun id isNone => by
    rw [isNone]
    rfl
  intro id l isLoot l' isLoot'
  have counted := later id
  rw [Option.mem_def.mp isLoot'] at counted
  refine counted.2.2 l.unlootedCount ?_
  rw [Option.mem_def.mp isLoot]
  rfl

/-- **The counter never wraps and tells when a loot is empty** in every run in which
only open units are taken. -/
theorem throughout_rightlyEmpty_of_openUnits (store : ItemStore) (looterGuid : UInt64)
    (events : List Event)
    (guarded : EachStep (step store) (counterGuard store).Meets (start looterGuid) events) :
    Throughout (step store) RightlyEmpty (start looterGuid) events ∧
      EachStep (step store) (CountsDown store) (start looterGuid) events := by
  have keep : ∀ w e, EachLoot (fun _ => CountedTo none) w → (counterGuard store).Meets w e →
      EachLoot (fun _ => CountedTo none) (step store w e) := fun w e each meets =>
    each.countedTo_step meets fun _ _ => rfl
  refine ⟨?_, ?_⟩
  · exact (Throughout.of_eachStep (eachLoot_start looterGuid) keep guarded).mono
      fun _ => rightlyEmpty_of_countedTo
  · exact EachStep.of_eachStep (eachLoot_start looterGuid) keep
      (fun _ _ each meets => countsDown_of_countedTo each meets) guarded

/-- Player 1 stores the one conditional entry of a loot. -/
theorem rightlyEmpty_of_storing_conditional_once :
    Throughout (step SecondVote.store) RightlyEmpty (start 0) (ConditionalTwice.events.take 2) ∧
      EachStep (step SecondVote.store) (CountsDown SecondVote.store) (start 0)
        (ConditionalTwice.events.take 2) :=
  throughout_rightlyEmpty_of_openUnits SecondVote.store 0 (ConditionalTwice.events.take 2)
    (by decide)

namespace QuestTwice

/-- A quest entry that both players of a free for all group need. -/
def filling : Filling :=
  { ConditionalTwice.filling with drops := [(⟨50, [], true⟩, 1)] }

def events : List Event :=
  [.fill 0 filling, .storeLootItem 0 1 0 fun _ => true, .storeLootItem 0 2 0 fun _ => true]

end QuestTwice

/-- The entry was counted once and is stored twice: the counter wraps. -/
theorem not_countsDown_of_quest_twice :
    ¬ (Throughout (step SecondVote.store) RightlyEmpty (start 0) QuestTwice.events ∧
      EachStep (step SecondVote.store) (CountsDown SecondVote.store) (start 0)
        QuestTwice.events) := by
  intro ⟨_, _, _, second, _⟩
  have notMore := second 0 _ rfl _ rfl
  revert notMore
  decide

end LootWorld

end Sky548
