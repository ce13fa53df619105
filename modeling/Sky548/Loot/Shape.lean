import Sky548.Loot.Steps

/-!
# The shape of a loot

What holds of every loot whatever is done to it: its lists keep to the client's limits, the records
of a player name each entry at most once and only entries of their kind, and an entry that is not
free for all is looted when somebody's record of it is.
-/

namespace Sky548

open List QuestItemMap

namespace LootItem

/-- The part of an entry that never changes once it is drawn. -/
def kind (item : LootItem) : LootItem :=
  { item with
    allowedGUIDs := []
    count := 0
    isLooted := false
    isBlocked := false
    isUnderthreshold := false
    isCounted := false }

/-- The same entry later: a looted one stays looted. -/
structure Follows (item item' : LootItem) : Prop where
  kind : item'.kind = item.kind
  looted : item.isLooted → item'.isLooted

/-- The same entry but for the two flags that a roll start and a threshold set,
its count and its allowed looters. -/
structure Reflags (item item' : LootItem) : Prop where
  kind : item'.kind = item.kind
  isLooted : item'.isLooted = item.isLooted
  isCounted : item'.isCounted = item.isCounted

/-- The same entry, which may have been counted since. -/
structure Counts (item item' : LootItem) : Prop where
  kind : item'.kind = item.kind
  isLooted : item'.isLooted = item.isLooted
  counted : item.isCounted → item'.isCounted

variable {item item' : LootItem}

theorem Counts.refl (item : LootItem) : item.Counts item := ⟨rfl, rfl, id⟩

variable {item'' : LootItem}

theorem Counts.trans (first : item.Counts item') (second : item'.Counts item''): item.Counts item'' :=
  ⟨second.kind.trans first.kind, second.isLooted.trans first.isLooted,
    second.counted ∘ first.counted⟩

theorem Reflags.refl (item : LootItem) : item.Reflags item := ⟨rfl, rfl, rfl⟩

theorem Reflags.trans (first : item.Reflags item') (second : item'.Reflags item''): item.Reflags item'' :=
  ⟨second.kind.trans first.kind, second.isLooted.trans first.isLooted,
    second.isCounted.trans first.isCounted⟩

theorem Reflags.follows (reflags : item.Reflags item') : item.Follows item' :=
  ⟨reflags.kind, fun looted => reflags.isLooted.trans looted⟩

theorem Follows.refl (item : LootItem) : item.Follows item := ⟨rfl, id⟩

theorem Follows.trans (first : item.Follows item') (second : item'.Follows item''): item.Follows item'' :=
  ⟨second.kind.trans first.kind, second.looted ∘ first.looted⟩

theorem Follows.freeforall (follows : item.Follows item') : item'.freeforall = item.freeforall := by
  have same : item'.kind.freeforall = item.kind.freeforall := by rw [follows.kind]
  exact same

theorem Follows.conditions (follows : item.Follows item') : item'.conditions = item.conditions := by
  have same : item'.kind.conditions = item.kind.conditions := by rw [follows.kind]
  exact same

end LootItem

namespace QuestItemMap

variable {m : QuestItemMap}

theorem set_apply (player p : UInt32) (ql : List QuestItem) :
    m.set player ql p = if p = player then ql else m p := rfl

theorem set_self (m : QuestItemMap) (player : UInt32) : m.set player (m player) = m := by
  funext p
  rw [set_apply]
  split
  · rename_i same
    rw [same]
  · rfl

theorem markLooted_apply (player p : UInt32) (pos : Nat) : m.markLooted player pos p =
      if p = player then (m p).modify pos fun q => { q with isLooted := true } else m p := rfl

theorem recordOf_eq_some {player : UInt32} {index pos : Nat} {q : QuestItem}
    (isRecord : m.recordOf player index = some (pos, q)) :
    (m player)[pos]? = some q ∧ q.index.toNat = index := by
  obtain ⟨pos', found, isAt⟩ := Option.bind_eq_some_iff.mp isRecord
  obtain ⟨q', atPos, same⟩ := Option.map_eq_some_iff.mp isAt
  cases same
  obtain ⟨inRange, named, -⟩ := List.findIdx?_eq_some_iff_getElem.mp found
  have record := atPos
  rw [getElem?_eq_getElem inRange] at record
  cases record
  exact ⟨atPos, of_decide_eq_true named⟩

theorem recordOf_eq_none {player : UInt32} {index : Nat}
    (noRecord : m.recordOf player index = none) : ∀ q ∈ m player, q.index.toNat ≠ index := by
  unfold recordOf at noRecord
  cases found : (m player).findIdx? fun q => q.index.toNat = index with
  | none =>
    intro q member
    simpa using List.findIdx?_eq_none_iff.mp found q member
  | some pos =>
    obtain ⟨inRange, -, -⟩ := List.findIdx?_eq_some_iff_getElem.mp found
    rw [found] at noRecord
    simp [getElem?_eq_getElem inRange] at noRecord

end QuestItemMap

/-- Records of distinct entries, all with a property. -/
structure Indexed (ql : List QuestItem) (P : Nat → Prop) : Prop where
  nodup : (ql.map fun q => q.index.toNat).Nodup
  valid : ∀ q ∈ ql, P q.index.toNat

namespace Indexed

variable {ql : List QuestItem} {P : Nat → Prop}

theorem nil (P : Nat → Prop) : Indexed [] P :=
  ⟨nodup_nil, fun q member => by cases member⟩

theorem mono {Q : Nat → Prop} (indexed : Indexed ql P) (imp : ∀ i, P i → Q i) : Indexed ql Q :=
  ⟨indexed.nodup, fun q member => imp _ (indexed.valid q member)⟩

theorem map_index_modify (ql : List QuestItem) (pos : Nat) :
    (ql.modify pos fun q => { q with isLooted := true }).map (fun q => q.index.toNat) =
      ql.map fun q => q.index.toNat := by
  apply ext_getElem?
  intro i
  rw [getElem?_map, getElem?_map, getElem?_modify]
  rcases ql[i]? with _ | q
  · rfl
  by_cases same : pos = i
  · simp [same]
  · simp [same]

theorem markLooted (indexed : Indexed ql P) (pos : Nat) :
    Indexed (ql.modify pos fun q => { q with isLooted := true }) P := by
  have sameIndices := map_index_modify ql pos
  refine ⟨sameIndices ▸ indexed.nodup, fun q member => ?_⟩
  have named : q.index.toNat ∈ ql.map fun q => q.index.toNat :=
    sameIndices ▸ List.mem_map_of_mem member
  obtain ⟨old, inOld, sameIndex⟩ := List.mem_map.mp named
  exact sameIndex ▸ indexed.valid old inOld

theorem push (indexed : Indexed ql P) {q : QuestItem} (valid : P q.index.toNat)
    (new : ∀ d ∈ ql, d.index.toNat ≠ q.index.toNat) : Indexed (ql ++ [q]) P := by
  refine ⟨?_, fun d member => ?_⟩
  · rw [map_append, nodup_append]
    refine ⟨indexed.nodup, nodup_singleton _, fun i inOld j isNew => ?_⟩
    obtain ⟨d, member, rfl⟩ := List.mem_map.mp inOld
    rw [List.mem_singleton.mp isNew]
    exact new d member
  · rcases List.mem_append.mp member with old | isNew
    · exact indexed.valid d old
    · rw [List.mem_singleton.mp isNew]
      exact valid

theorem pos_unique (indexed : Indexed ql P) {i j : Nat} {q d : QuestItem}
    (atI : ql[i]? = some q) (atJ : ql[j]? = some d) (same : q.index.toNat = d.index.toNat) :
    i = j := by
  have inI : i < (ql.map fun q => q.index.toNat).length := by
    rw [length_map]
    exact (List.getElem?_eq_some_iff.mp atI).1
  refine (getElem?_inj inI indexed.nodup).mp ?_
  rw [getElem?_map, getElem?_map, atI, atJ]
  exact congrArg some same

end Indexed

namespace Loot

variable {l l' : Loot}

theorem itemAt_modifyAt (l : Loot) (place p : LootPlace) (f : LootItem → LootItem) :
    (l.modifyAt place f).itemAt p = if p = place then (l.itemAt p).map f else l.itemAt p := by
  cases place with
  | item i =>
    cases p with
    | item j =>
      change (l.items.modify i f)[j]? = _
      rw [getElem?_modify]
      by_cases same : i = j
      · simp [same, itemAt]
      · have other : j ≠ i := fun h => same h.symm
        simp [same, other, itemAt]
    | questItem j => rfl
  | questItem i =>
    cases p with
    | item j => rfl
    | questItem j =>
      change (l.questItems.modify i f)[j]? = _
      rw [getElem?_modify]
      by_cases same : i = j
      · simp [same, itemAt]
      · have other : j ≠ i := fun h => same h.symm
        simp [same, other, itemAt]

theorem itemAt_markRecord (l : Loot) (player : UInt32) (record : LootRecord) (p : LootPlace) :
    (l.markRecord player record).itemAt p = l.itemAt p := by
  cases record <;> rfl

/-- The same loot with the same records, whose entries are related to their former
selves. -/
structure Entries (R : LootItem → LootItem → Prop) (l l' : Loot) : Prop where
  entry : ∀ place item, l.itemAt place = some item →
    ∃ item', l'.itemAt place = some item' ∧ R item item'
  items : l'.items.length = l.items.length
  questItems : l'.questItems.length = l.questItems.length
  quest : l'.playerQuestItems = l.playerQuestItems
  ffa : l'.playerFFAItems = l.playerFFAItems
  conditional : l'.playerNonQuestNonFFAConditionalItems = l.playerNonQuestNonFFAConditionalItems

/-- The same loot later. -/
abbrev Follows : Loot → Loot → Prop := Entries LootItem.Follows

/-- The same loot with other flags. -/
abbrev Reflags : Loot → Loot → Prop := Entries LootItem.Reflags

section Entries

variable {R : LootItem → LootItem → Prop}

theorem Entries.refl (same : ∀ item, R item item) (l : Loot) : l.Entries R l :=
  ⟨fun _ item there => ⟨item, there, same item⟩, rfl, rfl, rfl, rfl, rfl⟩

theorem Entries.trans {S T : LootItem → LootItem → Prop} {l'' : Loot}
    (first : Entries R l l') (second : Entries S l' l'')
    (compose : ∀ item item' item'', R item item' → S item' item'' → T item item'') :
    Entries T l l'' := by
  refine ⟨fun place item there => ?_, second.items.trans first.items,
    second.questItems.trans first.questItems, second.quest.trans first.quest,
    second.ffa.trans first.ffa, second.conditional.trans first.conditional⟩
  obtain ⟨item', there', related⟩ := first.entry place item there
  obtain ⟨item'', there'', related'⟩ := second.entry place item' there'
  exact ⟨item'', there'', compose item item' item'' related related'⟩

theorem Entries.mono {S : LootItem → LootItem → Prop} (entries : Entries R l l')
    (imp : ∀ item item', R item item' → S item item') : Entries S l l' :=
  entries.trans (Entries.refl (fun item : LootItem => (rfl : item = item)) l')
    fun item item' _ related same => same ▸ imp item item' related

theorem Entries.entry' (entries : Entries R l l') (place : LootPlace) {item' : LootItem}
    (there' : l'.itemAt place = some item') :
    ∃ item, l.itemAt place = some item ∧ R item item' := by
  have there : ∃ item, l.itemAt place = some item := by
    cases place with
    | item i =>
      have inRange : i < l'.items.length := (List.getElem?_eq_some_iff.mp there').1
      rw [entries.items] at inRange
      exact ⟨_, getElem?_eq_getElem inRange⟩
    | questItem i =>
      have inRange : i < l'.questItems.length := (List.getElem?_eq_some_iff.mp there').1
      rw [entries.questItems] at inRange
      exact ⟨_, getElem?_eq_getElem inRange⟩
  obtain ⟨item, there⟩ := there
  obtain ⟨item'', there'', related⟩ := entries.entry place item there
  rw [there'] at there''
  cases there''
  exact ⟨item, there, related⟩

theorem entries_modifyAt (same : ∀ item, R item item) (l : Loot) (place : LootPlace)
    {f : LootItem → LootItem} (keeps : ∀ item, R item (f item)) :
    l.Entries R (l.modifyAt place f) := by
  refine ⟨fun p item there => ?_, ?_, ?_, ?_, ?_, ?_⟩
  · rw [itemAt_modifyAt, there]
    split
    · exact ⟨f item, rfl, keeps item⟩
    · exact ⟨item, rfl, same item⟩
  · cases place with
    | item i => exact length_modify f l.items i
    | questItem i => rfl
  · cases place with
    | item i => rfl
    | questItem i => exact length_modify f l.questItems i
  · cases place <;> rfl
  · cases place <;> rfl
  · cases place <;> rfl

end Entries

theorem Follows.refl (l : Loot) : l.Follows l := Entries.refl LootItem.Follows.refl l

theorem Follows.trans {l'' : Loot} (first : l.Follows l') (second : l'.Follows l'') :
    l.Follows l'' :=
  Entries.trans first second fun _ _ _ => LootItem.Follows.trans

theorem Reflags.follows (reflags : l.Reflags l') : l.Follows l' :=
  Entries.mono reflags fun _ _ => LootItem.Reflags.follows

theorem follows_modifyAt (l : Loot) (place : LootPlace) {f : LootItem → LootItem}
    (keeps : ∀ item : LootItem, item.Follows (f item)) : l.Follows (l.modifyAt place f) :=
  entries_modifyAt LootItem.Follows.refl l place keeps

theorem follows_decUnlooted (l : Loot) : l.Follows l.decUnlooted :=
  ⟨fun _ item there => ⟨item, there, LootItem.Follows.refl item⟩, rfl, rfl, rfl, rfl, rfl⟩

theorem follows_takeGiven (l : Loot) (place : LootPlace) : l.Follows (l.takeGiven place) := by
  refine Follows.trans ?_ (follows_decUnlooted _)
  exact follows_modifyAt l place fun _ => ⟨rfl, fun _ => rfl⟩

theorem follows_takeRolled (l : Loot) (place : LootPlace) :
    l.Follows (Roll.takeRolled l place) := by
  refine Follows.trans ?_ (follows_decUnlooted _)
  exact follows_modifyAt l place fun _ => ⟨rfl, fun _ => rfl⟩

theorem reflags_unblock (l : Loot) (place : LootPlace) : l.Reflags (Roll.unblock l place) :=
  entries_modifyAt LootItem.Reflags.refl l place fun _ => ⟨rfl, rfl, rfl⟩

theorem follows_count (r : Roll) (l : Loot) (c : Roll.Chance) : l.Follows (r.count l c).loot := by
  rcases Roll.count_cases r l c with ⟨-, isTaken, -⟩ | ⟨-, -, unchanged | unblocked⟩
  · rw [isTaken]
    exact follows_takeRolled l (r.place l)
  · rw [unchanged]
    exact Follows.refl l
  · rw [unblocked]
    exact (reflags_unblock l (r.place l)).follows

theorem follows_lootMasterGive (l : Loot) (target : UInt64) (slotid : UInt8)
    (canStore : LootItem → Bool) (filter : LootFilter) :
    l.Follows (l.lootMasterGive target slotid canStore filter).1 := by
  rw [lootMasterGive_eq]
  split
  · exact Follows.refl l
  · exact follows_takeGiven l _

theorem reflags_startRolls (group : LootGroup) (store : ItemStore)
    (newItemGUID : UInt8 → UInt64) (id : LootId) (needBeforeGreed : Bool) (l : Loot) :
    l.Reflags (group.startRolls store newItemGUID id needBeforeGreed l).1 := by
  have itemTurn : ∀ slot (item : LootItem), item.Reflags
      (group.startItemRoll store newItemGUID id needBeforeGreed slot item).1 := by
    intro slot item
    unfold LootGroup.startItemRoll
    split
    · exact LootItem.Reflags.refl item
    split
    · exact LootItem.Reflags.refl item
    split
    · dsimp only
      split
      · exact ⟨rfl, rfl, rfl⟩
      · exact LootItem.Reflags.refl item
    · exact ⟨rfl, rfl, rfl⟩
  have questTurn : ∀ slot (item : LootItem), item.Reflags
      (group.startQuestRoll store newItemGUID id slot item).1 := by
    intro slot item
    unfold LootGroup.startQuestRoll
    split
    · exact LootItem.Reflags.refl item
    split
    · exact LootItem.Reflags.refl item
    dsimp only
    split
    · exact ⟨rfl, rfl, rfl⟩
    · exact LootItem.Reflags.refl item
  refine ⟨fun place item there => ?_, ?_, ?_, rfl, rfl, rfl⟩
  · cases place with
    | item i =>
      have there : l.items[i]? = some item := there
      exact ⟨_, by simp [LootGroup.startRolls, itemAt, there], itemTurn i item⟩
    | questItem i =>
      have there : l.questItems[i]? = some item := there
      exact ⟨_, by simp [LootGroup.startRolls, itemAt, there], questTurn (l.items.length + i) item⟩
  · simp [LootGroup.startRolls]
  · simp [LootGroup.startRolls]

structure Shaped (l : Loot) : Prop where
  items_le : l.items.length ≤ maxNrLootItems
  questItems_le : l.questItems.length ≤ maxNrQuestItems
  room : ∀ p, l.items.length + (l.playerQuestItems p).length ≤ maxNrLootItems
  quest : ∀ p, Indexed (l.playerQuestItems p) fun i =>
    ∃ item, l.questItems[i]? = some item
  ffa : ∀ p, Indexed (l.playerFFAItems p) fun i =>
    ∃ item, l.items[i]? = some item ∧ item.freeforall = true
  conditional : ∀ p, Indexed (l.playerNonQuestNonFFAConditionalItems p) fun i =>
    ∃ item, l.items[i]? = some item ∧ item.freeforall = false ∧ item.conditions ≠ []
  questLooted : ∀ p, ∀ q ∈ l.playerQuestItems p, q.isLooted → ∀ item,
    l.questItems[q.index.toNat]? = some item → item.freeforall = false → item.isLooted
  conditionalLooted : ∀ p, ∀ q ∈ l.playerNonQuestNonFFAConditionalItems p, q.isLooted →
    ∀ item, l.items[q.index.toNat]? = some item → item.isLooted

theorem shaped_empty : Shaped .empty := by
  refine ⟨Nat.zero_le _, Nat.zero_le _, fun p => Nat.zero_le _, fun p => Indexed.nil _,
    fun p => Indexed.nil _, fun p => Indexed.nil _, fun p q member => ?_, fun p q member => ?_⟩
  · cases member
  · cases member

theorem Shaped.of_follows (shaped : l.Shaped) (follows : l.Follows l') : l'.Shaped := by
  have entryItem : ∀ {i item}, l.items[i]? = some item →
      ∃ item', l'.items[i]? = some item' ∧ LootItem.Follows item item' := fun there =>
    follows.entry (.item _) _ there
  have entryItem' : ∀ {i item'}, l'.items[i]? = some item' →
      ∃ item, l.items[i]? = some item ∧ LootItem.Follows item item' := fun there =>
    follows.entry' (.item _) there
  refine ⟨follows.items ▸ shaped.items_le, follows.questItems ▸ shaped.questItems_le,
    fun p => ?_, fun p => ?_, fun p => ?_, fun p => ?_, fun p q member isLooted item' there' => ?_,
    fun p q member isLooted item' there' => ?_⟩
  · rw [follows.items, follows.quest]
    exact shaped.room p
  · rw [follows.quest]
    refine (shaped.quest p).mono fun i valid => ?_
    obtain ⟨item, there⟩ := valid
    obtain ⟨item', there', -⟩ := follows.entry (.questItem i) item there
    exact ⟨item', there'⟩
  · rw [follows.ffa]
    refine (shaped.ffa p).mono fun i valid => ?_
    obtain ⟨item, there, isFFA⟩ := valid
    obtain ⟨item', there', same⟩ := entryItem there
    exact ⟨item', there', same.freeforall.trans isFFA⟩
  · rw [follows.conditional]
    refine (shaped.conditional p).mono fun i valid => ?_
    obtain ⟨item, there, shared, conditions⟩ := valid
    obtain ⟨item', there', same⟩ := entryItem there
    exact ⟨item', there', same.freeforall.trans shared, same.conditions ▸ conditions⟩
  · intro shared
    rw [follows.quest] at member
    obtain ⟨item, there, same⟩ := follows.entry' (.questItem _) there'
    exact same.looted (shaped.questLooted p q member isLooted item there (same.freeforall ▸ shared))
  · rw [follows.conditional] at member
    obtain ⟨item, there, same⟩ := entryItem' there'
    exact same.looted (shaped.conditionalLooted p q member isLooted item there)

theorem mem_modify_looted {ql : List QuestItem} {pos : Nat} {q : QuestItem}
    (member : q ∈ ql.modify pos fun q => { q with isLooted := true }) (looted : q.isLooted) :
    (∃ d ∈ ql, d.index = q.index ∧ d.isLooted) ∨ ∃ d, ql[pos]? = some d ∧ d.index = q.index := by
  obtain ⟨i, atI⟩ := getElem?_of_mem member
  rw [getElem?_modify] at atI
  obtain ⟨d, atI', isMarked⟩ := Option.map_eq_some_iff.mp atI
  by_cases same : pos = i
  · rw [if_pos same] at isMarked
    exact Or.inr ⟨d, same ▸ atI', by rw [← isMarked]⟩
  · rw [if_neg same] at isMarked
    have isSame : d = q := isMarked
    exact Or.inl ⟨d, mem_of_getElem? atI', by rw [isSame], isSame ▸ looted⟩

/-- What an entry must be for a record of it to be marked. -/
def Markable (l : Loot) (player : UInt32) : LootRecord → Prop
  | .none | .ffaitem _ => True
  | .qitem pos => ∀ q, (l.playerQuestItems player)[pos]? = some q →
      ∀ item, l.questItems[q.index.toNat]? = some item → item.freeforall = false → item.isLooted
  | .conditem pos => ∀ q,
      (l.playerNonQuestNonFFAConditionalItems player)[pos]? = some q →
      ∀ item, l.items[q.index.toNat]? = some item → item.isLooted

variable {player : UInt32}

theorem Shaped.markRecord (shaped : l.Shaped) {record : LootRecord}
    (markable : l.Markable player record) : (l.markRecord player record).Shaped := by
  cases record with
  | none => exact shaped
  | ffaitem pos =>
    refine ⟨shaped.items_le, shaped.questItems_le, shaped.room, shaped.quest, fun p => ?_,
      shaped.conditional, shaped.questLooted, shaped.conditionalLooted⟩
    change Indexed ((l.playerFFAItems.markLooted player pos) p) _
    rw [markLooted_apply]
    split
    · exact (shaped.ffa p).markLooted pos
    · exact shaped.ffa p
  | qitem pos =>
    refine ⟨shaped.items_le, shaped.questItems_le, fun p => ?_, fun p => ?_, shaped.ffa,
      shaped.conditional, fun p q member isLooted item there shared => ?_,
      shaped.conditionalLooted⟩
    · change _ + ((l.playerQuestItems.markLooted player pos) p).length ≤ _
      rw [markLooted_apply]
      split
      · rw [length_modify]
        exact shaped.room p
      · exact shaped.room p
    · change Indexed ((l.playerQuestItems.markLooted player pos) p) _
      rw [markLooted_apply]
      split
      · exact (shaped.quest p).markLooted pos
      · exact shaped.quest p
    · change q ∈ (l.playerQuestItems.markLooted player pos) p at member
      rw [markLooted_apply] at member
      split at member
      · rename_i same
        subst same
        rcases mem_modify_looted member isLooted with ⟨d, old, sameIndex, looted⟩ | ⟨d, atPos, sameIndex⟩
        · exact shaped.questLooted p d old looted item (sameIndex ▸ there) shared
        · exact markable d atPos item (sameIndex ▸ there) shared
      · exact shaped.questLooted p q member isLooted item there shared
  | conditem pos =>
    refine ⟨shaped.items_le, shaped.questItems_le, shaped.room, shaped.quest, shaped.ffa,
      fun p => ?_, shaped.questLooted, fun p q member isLooted item there => ?_⟩
    · change Indexed ((l.playerNonQuestNonFFAConditionalItems.markLooted player pos) p) _
      rw [markLooted_apply]
      split
      · exact (shaped.conditional p).markLooted pos
      · exact shaped.conditional p
    · change q ∈ (l.playerNonQuestNonFFAConditionalItems.markLooted player pos) p at member
      rw [markLooted_apply] at member
      split at member
      · rename_i same
        subst same
        rcases mem_modify_looted member isLooted with ⟨d, old, sameIndex, looted⟩ | ⟨d, atPos, sameIndex⟩
        · exact shaped.conditionalLooted p d old looted item (sameIndex ▸ there)
        · exact markable d atPos item (sameIndex ▸ there)
      · exact shaped.conditionalLooted p q member isLooted item there

/-- The flag that `StoreLootItem` sets on the entry itself. -/
def lootEntry (l : Loot) (found : SlotItem) : Loot :=
  if found.item.freeforall then l
  else l.modifyAt found.place fun item => { item with isLooted := true }

theorem follows_lootEntry (l : Loot) (found : SlotItem) : l.Follows (l.lootEntry found) := by
  unfold lootEntry
  split
  · exact Follows.refl l
  · exact follows_modifyAt l found.place fun _ => ⟨rfl, fun _ => rfl⟩

theorem storeFound_eq (l : Loot) (player : UInt32) (found : SlotItem) : l.storeFound player found =
      ((l.lootEntry found).markRecord player found.record).decUnlooted := by
  unfold storeFound lootEntry
  split
  · rfl
  · obtain ⟨place, item, record⟩ := found
    cases place <;> cases record <;> rfl

theorem Finds.markable {lootSlot : Nat} {found : SlotItem} (finds : l.Finds player lootSlot found):
    (l.lootEntry found).Markable player found.record := by
  have marked : ∀ item, (l.lootEntry found).itemAt found.place = some item →
      found.item.freeforall = false → item.isLooted := by
    intro item there shared
    unfold lootEntry at there
    rw [if_neg (by rw [shared]; decide), itemAt_modifyAt, if_pos rfl] at there
    obtain ⟨old, -, rfl⟩ := Option.map_eq_some_iff.mp there
    rfl
  have follows := follows_lootEntry l found
  cases finds with
  | questItem beyond record entry unlooted =>
    intro q atPos item there shared
    rw [follows.quest] at atPos
    cases atPos.symm.trans record
    obtain ⟨old, there', same⟩ := follows.entry' (.questItem _) there
    cases there'.symm.trans entry
    exact marked item there (same.freeforall ▸ shared)
  | ffaitem entry ffa record unlooted => exact True.intro
  | conditem entry shared conditional record unlooted =>
    intro q atPos item there
    rw [follows.conditional] at atPos
    obtain ⟨sameRecord, index⟩ := recordOf_eq_some record
    cases atPos.symm.trans sameRecord
    rw [index] at there
    exact marked item there shared
  | none entry unlooted noFFA noConditional => exact True.intro

theorem Shaped.storeFound (shaped : l.Shaped) {lootSlot : Nat}
    {found : SlotItem} (finds : l.Finds player lootSlot found) :
    (l.storeFound player found).Shaped := by
  rw [storeFound_eq]
  have marked := (shaped.of_follows (follows_lootEntry l found)).markRecord
    finds.markable
  exact marked.of_follows (follows_decUnlooted _)

end Loot

end Sky548
