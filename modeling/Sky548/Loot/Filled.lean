import Sky548.Loot.Units

/-!
# Records and the counter

What a filling has done so far, as an invariant, and the three ways in which it
gives a player one more record. Each adds to the counter exactly when it opens a
unit, as long as nobody is given a record of a shared quest entry under group loot
or round robin that somebody else has already.
-/

namespace Sky548

open List QuestItemMap

namespace Loot

variable {l l' : Loot} {players : List UInt32}

/-- The record that a turn adds. -/
def newRecord (i : Nat) : QuestItem := ⟨UInt8.ofNat i, false⟩

theorem newRecord_index {i : Nat} (small : i < 256) : (newRecord i).index.toNat = i := by
  change (UInt8.ofNat i).toNat = i
  rw [UInt8.toNat_ofNat']
  exact Nat.mod_eq_of_lt small

end Loot

namespace QuestItemMap

variable {m : QuestItemMap}

variable {p : UInt32} {ql : List QuestItem}

theorem set_rule {P : UInt32 → List QuestItem → Prop}
    (others : ∀ d, P d (m d)) (mine : P p ql) (d : UInt32) : P d (m.set p ql d) := by
  rw [set_apply]
  split
  · rename_i same
    exact same ▸ mine
  · exact others d

variable {d : UInt32}

theorem mem_set {q : QuestItem} (member : q ∈ m.set p ql d) : q ∈ m d ∨ q ∈ ql :=
  set_rule (P := fun d list => q ∈ list → q ∈ m d ∨ q ∈ ql) (fun _ => Or.inl) Or.inr d member

theorem set_set (m : QuestItemMap) (player : UInt32) (old new : List QuestItem) :
    (m.set player old).set player new = m.set player new := by
  funext p
  rw [set_apply, set_apply, set_apply]
  split <;> rfl

theorem exists_push {P : QuestItem → Prop} {i : Nat} (list : m p = ql) :
    (∃ q ∈ m.set p (ql ++ [Loot.newRecord i]) d, P q) ↔
      (∃ q ∈ m d, P q) ∨ (d = p ∧ P (Loot.newRecord i)) := by
  rw [set_apply]
  by_cases same : d = p
  · rw [if_pos same, same, list]
    constructor
    · intro ⟨q, member, isP⟩
      rcases List.mem_append.mp member with old | new
      · exact Or.inl ⟨q, old, isP⟩
      · rw [List.mem_singleton.mp new] at isP
        exact Or.inr ⟨rfl, isP⟩
    · intro either
      rcases either with ⟨q, old, isP⟩ | ⟨-, isP⟩
      · exact ⟨q, mem_append_left _ old, isP⟩
      · exact ⟨Loot.newRecord i, mem_append_right _ (mem_singleton_self _), isP⟩
  · rw [if_neg same]
    exact ⟨Or.inl, fun either => either.elim id fun h => absurd h.1 same⟩

theorem records_push {i j : Nat} (small : i < 256) (list : m p = ql) :
    (m.set p (ql ++ [Loot.newRecord i])).Records d j ↔ m.Records d j ∨ (d = p ∧ j = i) := by
  refine (exists_push list).trans ?_
  refine or_congr_right (and_congr_right fun _ => ?_)
  rw [Loot.newRecord_index small, eq_comm]

theorem awaits_push {i j : Nat} (small : i < 256) (list : m p = ql) :
    (m.set p (ql ++ [Loot.newRecord i])).Awaits d j ↔ m.Awaits d j ∨ (d = p ∧ j = i) := by
  refine (exists_push list).trans ?_
  refine or_congr_right (and_congr_right fun _ => (and_iff_left rfl).trans ?_)
  rw [Loot.newRecord_index small, eq_comm]

end QuestItemMap

namespace Loot

variable {drawn l l' : Loot} {rules : Option LootRules} {players : List FillPlayer}

variable {ql : List QuestItem}

theorem Shaped.setFFA (shaped : l.Shaped) {p : UInt32}
    (indexed : Indexed ql fun i => ∃ item, l.items[i]? = some item ∧ item.freeforall = true) :
    (l.setFFA p ql).Shaped :=
  ⟨shaped.items_le, shaped.questItems_le, shaped.room, shaped.quest,
    set_rule (P := fun _ list => Indexed list _) shaped.ffa indexed,
    shaped.conditional, shaped.questLooted,
    shaped.conditionalLooted⟩

theorem Shaped.setConditional (shaped : l.Shaped) {p : UInt32} (indexed : Indexed ql fun i =>
      ∃ item, l.items[i]? = some item ∧ item.freeforall = false ∧ item.conditions ≠ [])
    (unlooted : ∀ q ∈ ql, q.isLooted = false) : (l.setConditional p ql).Shaped := by
  refine ⟨shaped.items_le, shaped.questItems_le, shaped.room, shaped.quest, shaped.ffa,
    set_rule (P := fun _ list => Indexed list _) shaped.conditional indexed,
    shaped.questLooted, fun d q member isLooted => ?_⟩
  rcases mem_set member with old | isNew
  · exact shaped.conditionalLooted d q old isLooted
  · rw [unlooted q isNew] at isLooted
    cases isLooted

theorem Shaped.setQuest (shaped : l.Shaped) {p : UInt32}
    (indexed : Indexed ql fun i => ∃ item, l.questItems[i]? = some item)
    (unlooted : ∀ q ∈ ql, q.isLooted = false) (room : l.items.length + ql.length ≤ maxNrLootItems) :
    (l.setQuest p ql).Shaped := by
  refine ⟨shaped.items_le, shaped.questItems_le,
    set_rule (P := fun _ list => _ + list.length ≤ _) shaped.room room,
    set_rule (P := fun _ list => Indexed list _) shaped.quest indexed, shaped.ffa,
    shaped.conditional, fun d q member isLooted => ?_, shaped.conditionalLooted⟩
  rcases mem_set member with old | isNew
  · exact shaped.questLooted d q old isLooted
  · rw [unlooted q isNew] at isLooted
    cases isLooted

/-- Under group loot and round robin no shared quest entry is for two players. -/
def OneRecipient (drawn : Loot) (rules : Option LootRules) (players : List FillPlayer) : Prop :=
  LootRules.countsPerPlayer rules = true → ∀ item ∈ drawn.questItems, item.freeforall = false →
    (players.filter fun p => wants rules p item).length ≤ 1

instance (drawn : Loot) (rules : Option LootRules) (players : List FillPlayer) :
    Decidable (drawn.OneRecipient rules players) :=
  inferInstanceAs (Decidable (_ → ∀ item ∈ drawn.questItems, _ → _))

/-- A loot drawn as `drawn` and filled in part: the players of `ffaDone` and
`conditionalDone` have their records of these kinds. -/
structure Filled (drawn : Loot) (rules : Option LootRules)
    (players ffaDone conditionalDone : List FillPlayer) (l : Loot) : Prop where
  kept : l.Kept (players.map FillPlayer.low)
  kinds : ∀ place item, l.itemAt place = some item →
    ∃ item', drawn.itemAt place = some item' ∧ item.kind = item'.kind
  items : l.items.length = drawn.items.length
  fresh : ∀ (i : Nat) item, l.items[i]? = some item → item.isLooted = false
  blocked : ∀ i item, l.questItems[i]? = some item → (item.isBlocked = true ↔
    LootRules.countsPerPlayer rules = false ∧ ∃ p ∈ players, l.playerQuestItems.Records p.low i)
  wanted : ∀ p ∈ players, ∀ i, l.playerQuestItems.Records p.low i →
    ∀ item, l.questItems[i]? = some item → wants rules p item = true
  ffa : ∀ p ∈ ffaDone, ∀ (i : Nat) item, l.items[i]? = some item → item.freeforall = true →
    item.allowedForPlayer p.filter = true → l.playerFFAItems.Records p.low i
  conditional : ∀ p ∈ conditionalDone, ∀ (i : Nat) item, l.items[i]? = some item →
    item.freeforall = false → item.conditions ≠ [] → wants rules p item = true →
    item.isCounted = true
  counter : drawn.OneRecipient rules players →
    l.unlootedCount = UInt8.ofNat (l.openUnits (players.map FillPlayer.low)).card

variable {item : LootItem}

theorem wants_of_kind {p : FillPlayer} {item' : LootItem} (same : item.kind = item'.kind) :
    wants rules p item = wants rules p item' := by
  have general : ∀ item : LootItem, wants rules p item.kind = wants rules p item := fun _ => rfl
  rw [← general item, same, general item']

theorem allowed_of_kind {p : LootFilter} {item' : LootItem} (same : item.kind = item'.kind) :
    item.allowedForPlayer p = item'.allowedForPlayer p := by
  have general : ∀ item : LootItem, item.kind.allowedForPlayer p = item.allowedForPlayer p :=
    fun _ => rfl
  rw [← general item, same, general item']

theorem OneRecipient.unique (one : drawn.OneRecipient rules players)
    (perPlayer : LootRules.countsPerPlayer rules = true)
    (member : item ∈ drawn.questItems) (shared : item.freeforall = false) {p d : FillPlayer}
    (isPlayer : p ∈ players) (isPlayer' : d ∈ players) (wantsP : wants rules p item = true)
    (wantsD : wants rules d item = true) : p = d := by
  have inP : p ∈ players.filter fun p => wants rules p item := List.mem_filter.mpr ⟨isPlayer, wantsP⟩
  have inD : d ∈ players.filter fun p => wants rules p item := List.mem_filter.mpr ⟨isPlayer', wantsD⟩
  have atMost := one perPlayer item member shared
  cases list : players.filter fun p => wants rules p item with
  | nil =>
    rw [list] at inP
    cases inP
  | cons first rest =>
    rw [list] at inP inD atMost
    have noRest : rest = [] := eq_nil_of_length_eq_zero (by
      rw [length_cons] at atMost
      omega)
    rw [noRest] at inP inD
    exact (List.mem_singleton.mp inP).trans (List.mem_singleton.mp inD).symm

section Turns

variable {ffaDone conditionalDone : List FillPlayer} {p : FillPlayer} {ql : List QuestItem}
  {i : Nat} {item : LootItem}

/-! ## Quest records -/

theorem reflags_incUnlooted (l : Loot) : l.Reflags l.incUnlooted :=
  ⟨fun _ item there => ⟨item, there, LootItem.Reflags.refl item⟩, rfl, rfl, rfl, rfl, rfl⟩

theorem reflags_countQuest (l : Loot) (rules : Option LootRules) (i : Nat) (item : LootItem) :
    l.Reflags (l.countQuest rules i item) := by
  have counted := reflags_incUnlooted
  have blocked : ∀ l : Loot, l.Reflags
      (l.modifyAt (.questItem i) fun item => { item with isBlocked := true }) := fun l =>
    entries_modifyAt LootItem.Reflags.refl l _ fun _ => ⟨rfl, rfl, rfl⟩
  have compose : ∀ {a b c : Loot}, a.Reflags b → b.Reflags c → a.Reflags c := fun ab bc =>
    Entries.trans ab bc fun _ _ _ => LootItem.Reflags.trans
  unfold countQuest
  dsimp only
  split
  · split
    · exact counted l
    · exact Entries.refl LootItem.Reflags.refl l
  · split
    · exact compose (counted l) (blocked _)
    · exact blocked l

theorem countQuest_questItems (l : Loot) (rules : Option LootRules) (i : Nat) (item : LootItem) :
    (l.countQuest rules i item).questItems =
      if LootRules.countsPerPlayer rules then l.questItems
      else l.questItems.modify i fun item => { item with isBlocked := true } := by
  unfold countQuest
  split
  · split <;> rfl
  · split <;> rfl

theorem countQuest_unlootedCount (l : Loot) (rules : Option LootRules) (i : Nat) (item : LootItem) :
    (l.countQuest rules i item).unlootedCount =
      if item.freeforall || !item.isBlocked then l.unlootedCount + 1 else l.unlootedCount := by
  unfold countQuest
  split
  · split <;> rfl
  · split <;> rfl

theorem open_pushQuest_iff {lows : List UInt32} {p : UInt32} (isPlayer : p ∈ lows)
    (small : i < 256) (list : l.playerQuestItems p = ql) (there : l.questItems[i]? = some item)
    (unlooted : item.isLooted = false) (u : LootUnit) :
    (l.setQuest p (ql ++ [newRecord i])).Open lows u ↔
      l.Open lows u ∨ u = if item.freeforall then .ffaQuestItem p i else .questItem i := by
  have entry : ∀ {item'}, item' ∈ l.questItems[i]? → item' = item := fun there' =>
    Option.some.inj (Eq.symm there' ▸ there : some _ = some item)
  cases u with
  | item j =>
    refine ⟨Or.inl, fun either => either.elim id fun same => ?_⟩
    split at same <;> cases same
  | ffaItem d j =>
    refine ⟨Or.inl, fun either => either.elim id fun same => ?_⟩
    split at same <;> cases same
  | questItem j =>
    change (_ ∧ ∃ d ∈ lows, (l.playerQuestItems.set p (ql ++ [newRecord i])).Records d j) ↔ _
    simp only [records_push small list]
    constructor
    · intro ⟨isShared, d, member, recorded⟩
      rcases recorded with old | ⟨-, rfl⟩
      · exact Or.inl ⟨isShared, d, member, old⟩
      · obtain ⟨item', there', shared, -⟩ := isShared
        rw [entry there'] at shared
        rw [shared]
        exact Or.inr rfl
    · intro either
      rcases either with ⟨isShared, d, member, old⟩ | same
      · exact ⟨isShared, d, member, Or.inl old⟩
      cases shared : item.freeforall with
      | true =>
        rw [shared] at same
        cases same
      | false =>
        rw [shared] at same
        cases same
        exact ⟨⟨item, there, shared, unlooted⟩, p, isPlayer, Or.inr ⟨rfl, rfl⟩⟩
  | ffaQuestItem d j =>
    change ((l.playerQuestItems.set p (ql ++ [newRecord i])).Awaits d j ∧ _) ↔ _
    rw [awaits_push small list]
    constructor
    · intro ⟨awaiting, isFFA⟩
      rcases awaiting with old | ⟨rfl, rfl⟩
      · exact Or.inl ⟨old, isFFA⟩
      · obtain ⟨item', there', ffa⟩ := isFFA
        rw [entry there'] at ffa
        rw [ffa]
        exact Or.inr rfl
    · intro either
      rcases either with ⟨old, isFFA⟩ | same
      · exact ⟨Or.inl old, isFFA⟩
      cases ffa : item.freeforall with
      | true =>
        rw [ffa] at same
        cases same
        exact ⟨Or.inr ⟨rfl, rfl⟩, item, there, ffa⟩
      | false =>
        rw [ffa] at same
        cases same

section

variable (filled : Filled drawn rules players ffaDone conditionalDone l)

include filled

theorem Filled.not_open_quest (one : drawn.OneRecipient rules players) (isPlayer : p ∈ players)
    (there : l.questItems[i]? = some item) (unlooted : item.isLooted = false)
    (wants : wants rules p item = true) (noRecord : ¬ l.playerQuestItems.Records p.low i) :
    (item.freeforall || !item.isBlocked) = true ↔ ¬ l.Open (players.map FillPlayer.low)
        (if item.freeforall then .ffaQuestItem p.low i else .questItem i) := by
  cases shared : item.freeforall with
  | true =>
    refine ⟨fun _ isOpen => noRecord isOpen.1.records, fun _ => rfl⟩
  | false =>
    have recorded : (∃ d ∈ players.map FillPlayer.low, l.playerQuestItems.Records d i) ↔
        ∃ d ∈ players, l.playerQuestItems.Records d.low i := by
      simp only [List.mem_map, exists_exists_and_eq_and]
    simp only [Bool.false_or, Bool.false_eq_true, if_false]
    have isBlocked := filled.blocked i item there
    constructor
    · intro unblocked isOpen
      obtain ⟨d, isPlayer', old⟩ := recorded.mp isOpen.2
      cases perPlayer : LootRules.countsPerPlayer rules with
      | false =>
        rw [isBlocked.mpr ⟨perPlayer, d, isPlayer', old⟩] at unblocked
        cases unblocked
      | true =>
        -- somebody else has the record, and wants the entry as well
        obtain ⟨item', there', same⟩ := filled.kinds (.questItem i) item there
        have shared' : item'.freeforall = false := by
          have : item.kind.freeforall = item'.kind.freeforall := by rw [same]
          exact this.symm.trans shared
        have samePlayer := one.unique perPlayer (mem_of_getElem? there') shared'
          isPlayer isPlayer' (wants_of_kind same ▸ wants)
          (wants_of_kind same ▸ filled.wanted d isPlayer' i old item there)
        exact noRecord (samePlayer ▸ old)
    · intro notOpen
      cases blocked : item.isBlocked with
      | false => rfl
      | true =>
        obtain ⟨-, d, isPlayer', old⟩ := isBlocked.mp blocked
        exact absurd ⟨⟨item, there, shared, unlooted⟩, recorded.mpr ⟨d, isPlayer', old⟩⟩ notOpen

theorem Filled.counter_push (one : drawn.OneRecipient rules players) (kept : l'.Kept (players.map FillPlayer.low))
    {new : LootUnit} (opens : ∀ u, l'.Open (players.map FillPlayer.low) u ↔
      l.Open (players.map FillPlayer.low) u ∨ u = new) {counts : Bool}
    (isNew : counts = true ↔ ¬ l.Open (players.map FillPlayer.low) new)
    (count : l'.unlootedCount = if counts then l.unlootedCount + 1 else l.unlootedCount) :
    l'.unlootedCount = UInt8.ofNat (l'.openUnits (players.map FillPlayer.low)).card := by
  rw [count]
  split
  · rename_i counted
    rw [filled.counter one, card_openUnits_add filled.kept kept opens (isNew.mp counted)]
    exact (UInt8.ofNat_add _ 1).symm
  rename_i notCounted
  have already := not_not.mp fun notOpen => notCounted (isNew.mpr notOpen)
  rw [filled.counter one, card_openUnits_eq filled.kept kept]
  intro u
  rw [opens u]
  exact ⟨fun either => either.elim id fun same => same ▸ already, Or.inl⟩

theorem Filled.pushQuest (nodup : (players.map FillPlayer.low).Nodup) (isPlayer : p ∈ players) (list : l.playerQuestItems p.low = ql)
    (there : l.questItems[i]? = some item) (isFor : isFor rules p item = true)
    (room : l.items.length + ql.length < maxNrLootItems)
    (new : ∀ q ∈ ql, q.index.toNat ≠ i) (freshList : ∀ q ∈ ql, q.isLooted = false) :
    Filled drawn rules players ffaDone conditionalDone
      ((l.countQuest rules i item).setQuest p.low (ql ++ [newRecord i])) := by
  obtain ⟨isUnlooted, wants⟩ := Bool.and_eq_true_iff.mp isFor
  have unlooted : item.isLooted = false := by simpa using isUnlooted
  have small : i < 256 := by
    have inRange := (List.getElem?_eq_some_iff.mp there).1
    have := filled.kept.shaped.questItems_le
    change l.questItems.length ≤ 32 at this
    omega
  have index := newRecord_index small
  have reflags := reflags_countQuest l rules i item
  have keptW := filled.kept.of_follows reflags.follows
  have listW : (l.countQuest rules i item).playerQuestItems p.low = ql := by
    rw [reflags.quest]
    exact list
  obtain ⟨itemW, thereW, sameW⟩ := reflags.entry (.questItem i) item there
  have isLow : p.low ∈ players.map FillPlayer.low := List.mem_map_of_mem isPlayer
  have noRecord : ¬ l.playerQuestItems.Records p.low i := fun ⟨q, member, isI⟩ =>
    new q (list ▸ member) isI
  have records : ∀ {d j}, ((l.countQuest rules i item).setQuest p.low
      (ql ++ [newRecord i])).playerQuestItems.Records d j ↔
        l.playerQuestItems.Records d j ∨ (d = p.low ∧ j = i) := by
    intro d j
    refine (records_push small listW).trans ?_
    rw [reflags.quest]
  have shaped : ((l.countQuest rules i item).setQuest p.low (ql ++ [newRecord i])).Shaped := by
    refine keptW.shaped.setQuest ?_ (fun q member => ?_) ?_
    · refine (listW ▸ keptW.shaped.quest p.low).push ?_ fun q member => ?_
      · rw [index]
        exact ⟨itemW, thereW⟩
      · rw [index]
        exact new q member
    · rcases List.mem_append.mp member with old | isNew
      · exact freshList q old
      · rw [List.mem_singleton.mp isNew]
        rfl
    · rw [reflags.items, length_append, length_singleton]
      omega
  have owned : ((l.countQuest rules i item).setQuest p.low (ql ++ [newRecord i])).Owned
      (players.map FillPlayer.low) := by
    exact ⟨set_rule (P := fun d list => d ∉ _ → list = []) keptW.owned.quest
      fun stranger => absurd isLow stranger, keptW.owned.ffa, keptW.owned.conditional⟩
  refine ⟨⟨shaped, owned⟩, fun place item' there' => ?_, reflags.items.trans filled.items,
    fun j item' there' => ?_, fun j item' there' => ?_, fun d isPlayer' j recorded item' there' => ?_,
    fun d done j item' there' isFFA allowed => ?_,
    fun d done j item' there' shared conditions wantsD => ?_, fun one => ?_⟩
  · obtain ⟨old, thereOld, same⟩ := reflags.entry' place there'
    obtain ⟨item'', there'', kind⟩ := filled.kinds place old thereOld
    exact ⟨item'', there'', same.kind.trans kind⟩
  · obtain ⟨old, thereOld, same⟩ := reflags.entry' (.item j) there'
    exact same.isLooted.trans (filled.fresh j old thereOld)
  · change (l.countQuest rules i item).questItems[j]? = some item' at there'
    rw [countQuest_questItems] at there'
    simp only [records]
    cases perPlayer : LootRules.countsPerPlayer rules with
    | true =>
      rw [perPlayer, if_pos rfl] at there'
      rw [filled.blocked j item' there', perPlayer]
      simp
    | false =>
      rw [perPlayer, if_neg (by decide), getElem?_modify] at there'
      obtain ⟨old, thereOld, isNew⟩ := Option.map_eq_some_iff.mp there'
      have wasBlocked := filled.blocked j old thereOld
      by_cases same : i = j
      · rw [if_pos same] at isNew
        rw [← isNew]
        exact ⟨fun _ => ⟨rfl, p, isPlayer, Or.inr ⟨rfl, same.symm⟩⟩, fun _ => rfl⟩
      rw [if_neg same] at isNew
      have isOld : old = item' := isNew
      rw [← isOld, wasBlocked, perPlayer]
      refine and_congr_right fun _ => ⟨fun ⟨d, member, recorded⟩ => ⟨d, member, Or.inl recorded⟩,
        fun ⟨d, member, either⟩ => ⟨d, member, ?_⟩⟩
      exact either.elim id fun isNew => absurd isNew.2.symm same
  · obtain ⟨old, thereOld, same⟩ := reflags.entry' (.questItem j) there'
    rw [wants_of_kind same.kind]
    rcases records.mp recorded with before | ⟨isP, rfl⟩
    · exact filled.wanted d isPlayer' j before old thereOld
    · cases thereOld.symm.trans there
      rw [inj_on_of_nodup_map nodup isPlayer' isPlayer isP]
      exact wants
  · obtain ⟨old, thereOld, same⟩ := reflags.entry' (.item j) there'
    have recorded := filled.ffa d done j old thereOld (same.follows.freeforall ▸ isFFA)
      (allowed_of_kind same.kind ▸ allowed)
    rw [← reflags.ffa] at recorded
    exact recorded
  · obtain ⟨old, thereOld, same⟩ := reflags.entry' (.item j) there'
    exact same.isCounted.trans (filled.conditional d done j old thereOld
      (same.follows.freeforall ▸ shared) (same.follows.conditions ▸ conditions)
      (wants_of_kind same.kind ▸ wantsD))
  · have isNew := filled.not_open_quest one isPlayer there unlooted wants noRecord
    have opens : ∀ u, ((l.countQuest rules i item).setQuest p.low (ql ++ [newRecord i])).Open
        (players.map FillPlayer.low) u ↔ l.Open (players.map FillPlayer.low) u ∨
          u = if item.freeforall then .ffaQuestItem p.low i else .questItem i := by
      intro u
      rw [← sameW.follows.freeforall, open_pushQuest_iff isLow small listW thereW
        (sameW.isLooted.trans unlooted), Reflags.open_iff reflags]
    exact filled.counter_push one ⟨shaped, owned⟩ opens isNew
      (countQuest_unlootedCount l rules i item)

end

theorem open_pushFFA_iff (lows : List UInt32) {p : UInt32} (small : i < 256)
    (list : l.playerFFAItems p = ql) (u : LootUnit) :
    (l.setFFA p (ql ++ [newRecord i])).Open lows u ↔ l.Open lows u ∨ u = .ffaItem p i := by
  cases u with
  | ffaItem d j =>
    refine (awaits_push small list).trans (or_congr_right ?_)
    exact ⟨fun ⟨isP, isI⟩ => by rw [isP, isI], fun same => by cases same; exact ⟨rfl, rfl⟩⟩
  | _ => exact ⟨Or.inl, fun either => either.elim id fun same => by cases same⟩

theorem Filled.pushFFA (filled : Filled drawn rules players ffaDone conditionalDone l)
    (isPlayer : p ∈ players) (list : l.playerFFAItems p.low = ql)
    (there : l.items[i]? = some item) (ffa : item.freeforall = true)
    (new : ∀ q ∈ ql, q.index.toNat ≠ i) :
    Filled drawn rules players ffaDone conditionalDone
      (l.incUnlooted.setFFA p.low (ql ++ [newRecord i])) := by
  have small : i < 256 := by
    have inRange := (List.getElem?_eq_some_iff.mp there).1
    have := filled.kept.shaped.items_le
    change l.items.length ≤ 16 at this
    omega
  have index := newRecord_index small
  have isLow : p.low ∈ players.map FillPlayer.low := List.mem_map_of_mem isPlayer
  have counted := filled.kept.of_follows (reflags_incUnlooted l).follows
  have shaped : (l.incUnlooted.setFFA p.low (ql ++ [newRecord i])).Shaped := by
    refine counted.shaped.setFFA ?_
    refine (list ▸ filled.kept.shaped.ffa p.low).push ?_ fun q member => ?_
    · rw [index]
      exact ⟨item, there, ffa⟩
    · rw [index]
      exact new q member
  have owned : (l.incUnlooted.setFFA p.low (ql ++ [newRecord i])).Owned
      (players.map FillPlayer.low) := by
    exact ⟨counted.owned.quest, set_rule (P := fun d list => d ∉ _ → list = [])
      counted.owned.ffa fun stranger => absurd isLow stranger, counted.owned.conditional⟩
  refine ⟨⟨shaped, owned⟩, filled.kinds, filled.items, filled.fresh, filled.blocked, filled.wanted,
    fun d done j item' there' isFFA allowed => ?_, filled.conditional, fun one => ?_⟩
  · exact (records_push small list).mpr (Or.inl (filled.ffa d done j item' there' isFFA allowed))
  have isNew : ¬ l.Open (players.map FillPlayer.low) (.ffaItem p.low i) := by
    intro isOpen
    obtain ⟨q, member, isI⟩ := QuestItemMap.Awaits.records isOpen
    exact new q (list ▸ member) isI
  have opens := open_pushFFA_iff (l := l.incUnlooted) (players.map FillPlayer.low) small list
  exact filled.counter_push one ⟨shaped, owned⟩
    (fun u => (opens u).trans (or_congr_left (Reflags.open_iff (reflags_incUnlooted l) u)))
    (iff_of_true rfl isNew) rfl

theorem Filled.of_reflags (filled : Filled drawn rules players ffaDone conditionalDone l)
    (reflags : l.Reflags l') (sameQuest : l'.questItems = l.questItems)
    (sameCount : l'.unlootedCount = l.unlootedCount) :
    Filled drawn rules players ffaDone conditionalDone l' := by
  have kept := filled.kept.of_follows reflags.follows
  refine ⟨kept, fun place item' there' => ?_, reflags.items.trans filled.items,
    fun j item' there' => ?_, ?_, ?_, fun d done j item' there' isFFA allowed => ?_,
    fun d done j item' there' shared conditions wantsD => ?_, fun one => ?_⟩
  · obtain ⟨old, thereOld, same⟩ := reflags.entry' place there'
    obtain ⟨item'', there'', kind⟩ := filled.kinds place old thereOld
    exact ⟨item'', there'', same.kind.trans kind⟩
  · obtain ⟨old, thereOld, same⟩ := reflags.entry' (.item j) there'
    exact same.isLooted.trans (filled.fresh j old thereOld)
  · rw [sameQuest, reflags.quest]
    exact filled.blocked
  · rw [sameQuest, reflags.quest]
    exact filled.wanted
  · obtain ⟨old, thereOld, same⟩ := reflags.entry' (.item j) there'
    rw [reflags.ffa]
    exact filled.ffa d done j old thereOld (same.follows.freeforall ▸ isFFA)
      (allowed_of_kind same.kind ▸ allowed)
  · obtain ⟨old, thereOld, same⟩ := reflags.entry' (.item j) there'
    exact same.isCounted.trans (filled.conditional d done j old thereOld
      (same.follows.freeforall ▸ shared) (same.follows.conditions ▸ conditions)
      (wants_of_kind same.kind ▸ wantsD))
  · rw [sameCount, filled.counter one,
      card_openUnits_eq filled.kept kept (Reflags.open_iff reflags)]

theorem reflags_allowLooter (l : Loot) (p : FillPlayer) (i : Nat) :
    l.Reflags (l.allowLooter p i) := by
  unfold allowLooter
  split
  · exact entries_modifyAt LootItem.Reflags.refl l _ fun _ => ⟨rfl, rfl, rfl⟩
  · exact Entries.refl LootItem.Reflags.refl l

theorem entries_countConditional (l : Loot) (i : Nat) (item : LootItem) :
    Entries LootItem.Counts l (l.countConditional i item) := by
  unfold countConditional
  split
  · exact Entries.refl LootItem.Counts.refl l
  have counted : Entries LootItem.Counts l l.incUnlooted :=
    (reflags_incUnlooted l).mono fun _ _ same =>
      ⟨same.kind, same.isLooted, fun counted => same.isCounted.trans counted⟩
  exact counted.trans (entries_modifyAt LootItem.Counts.refl l.incUnlooted _
    fun _ => ⟨rfl, rfl, fun _ => rfl⟩) fun _ _ _ => LootItem.Counts.trans

theorem items_countConditional (there : l.items[i]? = some item) :
    ∃ item', (l.countConditional i item).items[i]? = some item' ∧ item'.isCounted = true := by
  unfold countConditional
  split
  · rename_i counted
    exact ⟨item, there, counted⟩
  refine ⟨{ item with isCounted := true }, ?_, rfl⟩
  change (l.items.modify i _)[i]? = _
  rw [getElem?_modify_eq, there]
  rfl

theorem open_countConditional_iff {lows : List UInt32} (there : l.items[i]? = some item)
    (shared : item.freeforall = false) (unlooted : item.isLooted = false) (u : LootUnit) :
    (l.countConditional i item).Open lows u ↔ l.Open lows u ∨ u = .item i := by
  unfold countConditional
  split
  · rename_i counted
    exact ⟨Or.inl, fun either => either.elim id fun same =>
      same ▸ ⟨item, there, shared, unlooted, Or.inr counted⟩⟩
  cases u with
  | item j =>
    change (∃ item ∈ (l.items.modify i _)[j]?, _) ↔ _
    rw [getElem?_modify]
    by_cases same : i = j
    · subst same
      rw [there]
      exact ⟨fun _ => Or.inr rfl, fun _ => ⟨{ item with isCounted := true }, by simp, shared,
        unlooted, Or.inr rfl⟩⟩
    · simp only [if_neg same]
      constructor
      · intro ⟨item', there', isOpen⟩
        obtain ⟨old, thereOld, isSame⟩ := Option.map_eq_some_iff.mp there'
        have isOld : old = item' := isSame
        exact Or.inl ⟨old, thereOld, isOld ▸ isOpen⟩
      · intro either
        rcases either with ⟨item', there', isOpen⟩ | isI
        · exact ⟨item', Option.map_eq_some_iff.mpr ⟨item', there', rfl⟩, isOpen⟩
        · cases isI
          exact absurd rfl same
  | _ => exact ⟨Or.inl, fun either => either.elim id fun same => by cases same⟩

theorem unlootedCount_countConditional (l : Loot) (i : Nat) (item : LootItem) :
    (l.countConditional i item).unlootedCount =
      if !item.isCounted then l.unlootedCount + 1 else l.unlootedCount := by
  unfold countConditional
  cases item.isCounted <;> rfl

theorem questItems_countConditional (l : Loot) (i : Nat) (item : LootItem) :
    (l.countConditional i item).questItems = l.questItems := by
  unfold countConditional
  split <;> rfl

theorem Filled.pushConditional
    (filled : Filled drawn rules players ffaDone conditionalDone l) (isPlayer : p ∈ players)
    (list : l.playerNonQuestNonFFAConditionalItems p.low = ql)
    (there : l.items[i]? = some item) (shared : item.freeforall = false)
    (conditions : item.conditions ≠ []) (new : ∀ q ∈ ql, q.index.toNat ≠ i)
    (freshList : ∀ q ∈ ql, q.isLooted = false) :
    Filled drawn rules players ffaDone conditionalDone
      ((l.countConditional i item).setConditional p.low (ql ++ [newRecord i])) := by
  have unlooted := filled.fresh i item there
  have small : i < 256 := by
    have inRange := (List.getElem?_eq_some_iff.mp there).1
    have := filled.kept.shaped.items_le
    change l.items.length ≤ 16 at this
    omega
  have index := newRecord_index small
  have isLow : p.low ∈ players.map FillPlayer.low := List.mem_map_of_mem isPlayer
  have entries := entries_countConditional l i item
  have follows : l.Follows (l.countConditional i item) := Entries.mono entries fun _ _ same =>
    ⟨same.kind, fun looted => same.isLooted.trans looted⟩
  have kept := filled.kept.of_follows follows
  obtain ⟨itemW, thereW, sameW⟩ := entries.entry (.item i) item there
  have shaped : ((l.countConditional i item).setConditional p.low (ql ++ [newRecord i])).Shaped := by
    have listW : (l.countConditional i item).playerNonQuestNonFFAConditionalItems p.low = ql := by
      rw [entries.conditional]
      exact list
    refine kept.shaped.setConditional ?_ fun q member => ?_
    · refine (listW ▸ kept.shaped.conditional p.low).push ?_ fun q member => ?_
      · rw [index]
        obtain ⟨item', there', same⟩ := follows.entry (.item i) item there
        exact ⟨item', there', same.freeforall.trans shared, same.conditions ▸ conditions⟩
      · rw [index]
        exact new q member
    · rcases List.mem_append.mp member with old | isNew
      · exact freshList q old
      · rw [List.mem_singleton.mp isNew]
        rfl
  have owned : ((l.countConditional i item).setConditional p.low (ql ++ [newRecord i])).Owned
      (players.map FillPlayer.low) := by
    exact ⟨kept.owned.quest, kept.owned.ffa,
      set_rule (P := fun d list => d ∉ _ → list = []) kept.owned.conditional
        fun stranger => absurd isLow stranger⟩
  refine ⟨⟨shaped, owned⟩, fun place item' there' => ?_, entries.items.trans filled.items,
    fun j item' there' => ?_, ?_, ?_, fun d done j item' there' isFFA allowed => ?_,
    fun d done j item' there' shared conditions wantsD => ?_, fun one => ?_⟩
  · obtain ⟨old, thereOld, same⟩ := entries.entry' place there'
    obtain ⟨item'', there'', kind⟩ := filled.kinds place old thereOld
    exact ⟨item'', there'', same.kind.trans kind⟩
  · obtain ⟨old, thereOld, same⟩ := entries.entry' (.item j) there'
    exact same.isLooted.trans (filled.fresh j old thereOld)
  · change ∀ j item', (l.countConditional i item).questItems[j]? = some item' → (_ ↔ _ ∧
      ∃ d ∈ players, (l.countConditional i item).playerQuestItems.Records d.low j)
    rw [questItems_countConditional, entries.quest]
    exact filled.blocked
  · change ∀ d ∈ players, ∀ j, (l.countConditional i item).playerQuestItems.Records d.low j →
      ∀ item', (l.countConditional i item).questItems[j]? = some item' → _
    rw [questItems_countConditional, entries.quest]
    exact filled.wanted
  · obtain ⟨old, thereOld, same⟩ := follows.entry' (.item j) there'
    change (l.countConditional i item).playerFFAItems.Records d.low j
    rw [entries.ffa]
    exact filled.ffa d done j old thereOld (same.freeforall ▸ isFFA)
      (allowed_of_kind same.kind ▸ allowed)
  · obtain ⟨old, thereOld, same⟩ := entries.entry' (.item j) there'
    have follows : old.Follows item' := ⟨same.kind, fun looted => same.isLooted.trans looted⟩
    exact same.counted (filled.conditional d done j old thereOld (follows.freeforall ▸ shared)
      (follows.conditions ▸ conditions) (wants_of_kind same.kind ▸ wantsD))
  · have opens : ∀ u, ((l.countConditional i item).setConditional p.low
        (ql ++ [newRecord i])).Open (players.map FillPlayer.low) u ↔
          l.Open (players.map FillPlayer.low) u ∨ u = .item i := by
      intro u
      have sameUnits : ((l.countConditional i item).setConditional p.low
          (ql ++ [newRecord i])).Open (players.map FillPlayer.low) u ↔
            (l.countConditional i item).Open (players.map FillPlayer.low) u := by
        cases u <;> exact Iff.rfl
      exact sameUnits.trans (open_countConditional_iff there shared unlooted u)
    refine filled.counter_push one ⟨shaped, owned⟩ opens ?_ (unlootedCount_countConditional l i item)
    rw [Bool.not_eq_true']
    constructor
    · rintro notCounted ⟨item', there', -, -, counted⟩
      cases there'.symm.trans there
      rcases counted with noConditions | isCounted
      · exact conditions noConditions
      · rw [notCounted] at isCounted
        cases isCounted
    · intro notOpen
      rw [Bool.eq_false_iff]
      exact fun counted => notOpen ⟨item, there, shared, unlooted, Or.inr counted⟩

end Turns

end Loot

end Sky548
