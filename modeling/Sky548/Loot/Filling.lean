import Sky548.Loot.Filled

/-!
# What a filling leaves

The three record fills and the currency loop, followed turn by turn with the list
that a player has been given so far already set in the map, and `FillLoot` around
them.
-/

namespace Sky548

open List

open Machine

namespace Loot

variable {drawn l l' : Loot} {rules : Option LootRules} {players : List FillPlayer}
  {ffaDone conditionalDone : List FillPlayer} {p : FillPlayer} {ql : List QuestItem}
  {i : Nat} {item : LootItem}

theorem setQuest_self (l : Loot) (player : UInt32) :
    l.setQuest player (l.playerQuestItems player) = l := by
  unfold setQuest
  rw [QuestItemMap.set_self]

theorem setQuest_countQuest_setQuest (l : Loot) (player : UInt32) (old new : List QuestItem) :
    ((l.setQuest player old).countQuest rules i item).setQuest player new =
      (l.countQuest rules i item).setQuest player new := by
  have commutes : (l.setQuest player old).countQuest rules i item =
      (l.countQuest rules i item).setQuest player old := by
    unfold countQuest
    split
    · split <;> rfl
    · split <;> rfl
  rw [commutes]
  unfold setQuest
  rw [QuestItemMap.set_set]

/-- What a turn of the quest fill keeps: with the list so far the loot is filled, and the list has
unlooted records of unlooted entries before the turn's. -/
structure QuestTurn (drawn : Loot) (rules : Option LootRules)
    (players ffaDone conditionalDone : List FillPlayer) (p : FillPlayer) (l : Loot) (i : Nat)
    (s : Loot × List QuestItem) : Prop where
  filled : Filled drawn rules players ffaDone conditionalDone (s.1.setQuest p.low s.2)
  below : ∀ q ∈ s.2, q.index.toNat < i
  unlooted : ∀ q ∈ s.2, q.isLooted = false
  fresh : ∀ q ∈ s.2, ∀ item, s.1.questItems[q.index.toNat]? = some item → item.isLooted = false
  reflags : l.Reflags s.1

theorem QuestTurn.turn {s : Loot × List QuestItem}
    (turn : QuestTurn drawn rules players ffaDone conditionalDone p l i s)
    (nodup : (players.map FillPlayer.low).Nodup) (isPlayer : p ∈ players) :
    QuestTurn drawn rules players ffaDone conditionalDone p l (i + 1)
      (fillQuestTurn rules p s i) := by
  have skipped : QuestTurn drawn rules players ffaDone conditionalDone p l (i + 1) s :=
    ⟨turn.filled, fun q member => Nat.lt_succ_of_lt (turn.below q member), turn.unlooted,
      turn.fresh, turn.reflags⟩
  unfold fillQuestTurn
  split
  · exact skipped
  rename_i notFull
  split
  · exact skipped
  rename_i item there
  split
  · rename_i isForP
    have shaped := turn.filled.kept.shaped
    have inRange := (List.getElem?_eq_some_iff.mp there).1
    have atMost : s.1.questItems.length ≤ 32 := shaped.questItems_le
    have index : (newRecord i).index.toNat = i := newRecord_index (by omega)
    have listed : (s.1.setQuest p.low s.2).playerQuestItems p.low = s.2 := if_pos rfl
    have room : s.1.items.length + s.2.length ≤ maxNrLootItems := by
      have := shaped.room p.low
      rw [listed] at this
      exact this
    have unlooted : item.isLooted = false := by
      simpa using (Bool.and_eq_true_iff.mp isForP).1
    have reflags := reflags_countQuest s.1 rules i item
    have pushed := turn.filled.pushQuest nodup isPlayer listed there isForP
      (Nat.lt_of_le_of_ne room notFull)
      (fun q member => Nat.ne_of_lt (turn.below q member)) turn.unlooted
    rw [setQuest_countQuest_setQuest] at pushed
    refine ⟨pushed, fun q member => ?_, fun q member => ?_, fun q member item' there' => ?_,
      Entries.trans turn.reflags reflags fun _ _ _ => LootItem.Reflags.trans⟩
    · rcases List.mem_append.mp member with old | isNew
      · exact Nat.lt_succ_of_lt (turn.below q old)
      · rw [List.mem_singleton.mp isNew]
        exact index.trans_lt (Nat.lt_succ_self i)
    · rcases List.mem_append.mp member with old | isNew
      · exact turn.unlooted q old
      · rw [List.mem_singleton.mp isNew]
    · obtain ⟨before, thereBefore, same⟩ := reflags.entry' (.questItem _) there'
      rw [same.isLooted]
      rcases List.mem_append.mp member with old | isNew
      · exact turn.fresh q old before thereBefore
      · have isRecord : q = newRecord i := List.mem_singleton.mp isNew
        rw [isRecord, index] at thereBefore
        cases thereBefore.symm.trans there
        exact unlooted
  · exact skipped

/-- The records of a player are of unlooted quest entries. -/
def FreshRecords (l : Loot) (p : FillPlayer) : Prop :=
  ∀ q ∈ l.playerQuestItems p.low, ∀ item, l.questItems[q.index.toNat]? = some item →
    item.isLooted = false

theorem Filled.fillQuestLoot (filled : Filled drawn rules players ffaDone conditionalDone l)
    (nodup : (players.map FillPlayer.low).Nodup) (isPlayer : p ∈ players)
    (noList : l.playerQuestItems p.low = []) :
    Filled drawn rules players ffaDone conditionalDone (l.fillQuestLoot rules p) ∧
      (l.fillQuestLoot rules p).FreshRecords p ∧
      (∀ d, d ≠ p.low → (l.fillQuestLoot rules p).playerQuestItems d = l.playerQuestItems d) ∧
      (l.fillQuestLoot rules p).playerFFAItems = l.playerFFAItems ∧
      (l.fillQuestLoot rules p).playerNonQuestNonFFAConditionalItems =
        l.playerNonQuestNonFFAConditionalItems := by
  have nothing : l.FreshRecords p := by
    intro q member
    rw [noList] at member
    cases member
  unfold Loot.fillQuestLoot
  split
  · exact ⟨filled, nothing, fun _ _ => rfl, rfl, rfl⟩
  have loop : QuestTurn drawn rules players ffaDone conditionalDone p l l.questItems.length
      ((List.range l.questItems.length).foldl (fillQuestTurn rules p) (l, [])) := by
    refine run_range (P := QuestTurn drawn rules players ffaDone conditionalDone p l) ?_
      l.questItems.length fun i s _ turn => turn.turn nodup isPlayer
    have alone : l.setQuest p.low [] = l := by
      rw [← noList]
      exact setQuest_self l p.low
    refine ⟨alone.symm ▸ filled, fun q member => ?_, fun q member => ?_, fun q member => ?_,
      Entries.refl LootItem.Reflags.refl l⟩
    · cases member
    · cases member
    · cases member
  generalize (List.range l.questItems.length).foldl (fillQuestTurn rules p) (l, []) = s at loop
  dsimp only
  split
  · rename_i isEmpty
    have sameList : s.1.playerQuestItems p.low = [] := by
      rw [loop.reflags.quest]
      exact noList
    have alone : s.1.setQuest p.low s.2 = s.1 := by
      rw [isEmpty, ← sameList]
      exact setQuest_self s.1 p.low
    refine ⟨alone ▸ loop.filled, fun q member => ?_, fun d _ => by rw [loop.reflags.quest],
      loop.reflags.ffa, loop.reflags.conditional⟩
    rw [sameList] at member
    cases member
  · refine ⟨loop.filled, fun q member item there => ?_, fun d other => ?_, loop.reflags.ffa,
      loop.reflags.conditional⟩
    · have inList : q ∈ s.2 := by
        have listed : (s.1.setQuest p.low s.2).playerQuestItems p.low = s.2 := if_pos rfl
        exact listed ▸ member
      exact loop.fresh q inList item there
    · change s.1.playerQuestItems.set p.low s.2 d = _
      rw [QuestItemMap.set_apply, if_neg other, loop.reflags.quest]

/-- What a turn of the free for all fill keeps; `complete` has the records given. -/
structure FFATurn (drawn : Loot) (rules : Option LootRules)
    (players ffaDone conditionalDone : List FillPlayer) (p : FillPlayer) (l : Loot) (i : Nat)
    (s : Loot × List QuestItem) : Prop where
  filled : Filled drawn rules players ffaDone conditionalDone (s.1.setFFA p.low s.2)
  below : ∀ q ∈ s.2, q.index.toNat < i
  complete : ∀ j < i, ∀ item, s.1.items[j]? = some item → item.freeforall = true →
    item.allowedForPlayer p.filter = true → ∃ q ∈ s.2, q.index.toNat = j
  counted : s.1 = { l with unlootedCount := s.1.unlootedCount }

theorem setFFA_self (l : Loot) (player : UInt32) :
    l.setFFA player (l.playerFFAItems player) = l := by
  unfold setFFA
  rw [QuestItemMap.set_self]

theorem FFATurn.turn {s : Loot × List QuestItem}
    (turn : FFATurn drawn rules players ffaDone conditionalDone p l i s) (isPlayer : p ∈ players) :
    FFATurn drawn rules players ffaDone conditionalDone p l (i + 1) (fillFFATurn p s i) := by
  have skipped : (∀ item, s.1.items[i]? = some item → item.freeforall = true →
      item.allowedForPlayer p.filter = true → False) →
      FFATurn drawn rules players ffaDone conditionalDone p l (i + 1) s := by
    intro notForP
    refine ⟨turn.filled, fun q member => Nat.lt_succ_of_lt (turn.below q member),
      fun j before item there ffa allowed => ?_, turn.counted⟩
    rcases Nat.lt_succ_iff_lt_or_eq.mp before with earlier | rfl
    · exact turn.complete j earlier item there ffa allowed
    · exact absurd allowed fun allowed => notForP item there ffa allowed
  unfold fillFFATurn
  split
  · rename_i isNone
    exact skipped fun item there => by rw [isNone] at there; cases there
  rename_i item there
  have unlooted : item.isLooted = false := turn.filled.fresh i item there
  split
  · rename_i isForP
    obtain ⟨⟨-, ffa⟩, -⟩ : (item.isLooted = false ∧ item.freeforall = true) ∧
        item.allowedForPlayer p.filter = true := by
      simpa using isForP
    have listed : (s.1.setFFA p.low s.2).playerFFAItems p.low = s.2 := if_pos rfl
    have inRange := (List.getElem?_eq_some_iff.mp there).1
    have atMost : s.1.items.length ≤ 16 := turn.filled.kept.shaped.items_le
    have index : (newRecord i).index.toNat = i := newRecord_index (by omega)
    have pushed := turn.filled.pushFFA isPlayer listed there ffa
      fun q member => Nat.ne_of_lt (turn.below q member)
    have once : (s.1.setFFA p.low s.2).incUnlooted.setFFA p.low (s.2 ++ [newRecord i]) =
        s.1.incUnlooted.setFFA p.low (s.2 ++ [newRecord i]) := by
      unfold setFFA incUnlooted
      rw [QuestItemMap.set_set]
    rw [once] at pushed
    refine ⟨pushed, fun q member => ?_, fun j before item' there' isFFA allowed => ?_, ?_⟩
    · rcases List.mem_append.mp member with old | isNew
      · exact Nat.lt_succ_of_lt (turn.below q old)
      · rw [List.mem_singleton.mp isNew]
        exact index.trans_lt (Nat.lt_succ_self i)
    · rcases Nat.lt_succ_iff_lt_or_eq.mp before with earlier | rfl
      · obtain ⟨q, member, isJ⟩ := turn.complete j earlier item' there' isFFA allowed
        exact ⟨q, mem_append_left _ member, isJ⟩
      · exact ⟨newRecord j, mem_append_right _ (mem_singleton_self _), index⟩
    · rw [turn.counted]
      rfl
  · rename_i notForP
    refine skipped fun item' there' ffa allowed => notForP ?_
    cases there'.symm.trans there
    simp [unlooted, ffa, allowed]

theorem Filled.fillFFALoot (filled : Filled drawn rules players ffaDone conditionalDone l)
    (isPlayer : p ∈ players) (noList : l.playerFFAItems p.low = []) :
    Filled drawn rules players (ffaDone ++ [p]) conditionalDone (l.fillFFALoot p) ∧
      (l.fillFFALoot p).questItems = l.questItems ∧
      (l.fillFFALoot p).playerQuestItems = l.playerQuestItems ∧
      (∀ d, d ≠ p.low → (l.fillFFALoot p).playerFFAItems d = l.playerFFAItems d) ∧
      (l.fillFFALoot p).playerNonQuestNonFFAConditionalItems =
        l.playerNonQuestNonFFAConditionalItems := by
  have loop : FFATurn drawn rules players ffaDone conditionalDone p l l.items.length
      ((List.range l.items.length).foldl (fillFFATurn p) (l, [])) := by
    refine run_range (P := FFATurn drawn rules players ffaDone conditionalDone p l) ?_
      l.items.length fun i s _ turn => turn.turn isPlayer
    have alone : l.setFFA p.low [] = l := by
      rw [← noList]
      exact setFFA_self l p.low
    refine ⟨alone.symm ▸ filled, fun q member => ?_, fun j before => ?_, rfl⟩
    · cases member
    · exact absurd before (Nat.not_lt_zero j)
  unfold Loot.fillFFALoot
  generalize (List.range l.items.length).foldl (fillFFATurn p) (l, []) = s at loop
  have sameItems : s.1.items = l.items := by rw [loop.counted]
  have sameQuest : s.1.playerQuestItems = l.playerQuestItems := by rw [loop.counted]
  have sameQuestItems : s.1.questItems = l.questItems := by rw [loop.counted]
  have sameFFA : s.1.playerFFAItems = l.playerFFAItems := by rw [loop.counted]
  have sameConditional : s.1.playerNonQuestNonFFAConditionalItems =
      l.playerNonQuestNonFFAConditionalItems := by rw [loop.counted]
  have done : Filled drawn rules players (ffaDone ++ [p]) conditionalDone
      (s.1.setFFA p.low s.2) := by
    refine { loop.filled with ffa := fun d isDone j item there isFFA allowed => ?_ }
    rcases List.mem_append.mp isDone with before | isP
    · exact loop.filled.ffa d before j item there isFFA allowed
    rw [List.mem_singleton.mp isP] at allowed ⊢
    have inRange : j < l.items.length := sameItems ▸ (List.getElem?_eq_some_iff.mp there).1
    obtain ⟨q, member, isJ⟩ := loop.complete j inRange item there isFFA allowed
    have listed : (s.1.setFFA p.low s.2).playerFFAItems p.low = s.2 := if_pos rfl
    exact ⟨q, listed.symm ▸ member, isJ⟩
  dsimp only
  split
  · rename_i isEmpty
    have alone : s.1.setFFA p.low s.2 = s.1 := by
      rw [isEmpty, ← noList, ← sameFFA]
      exact setFFA_self s.1 p.low
    exact ⟨alone ▸ done, sameQuestItems, sameQuest, fun d _ => by rw [sameFFA], sameConditional⟩
  · refine ⟨done, sameQuestItems, sameQuest, fun d other => ?_, sameConditional⟩
    change s.1.playerFFAItems.set p.low s.2 d = _
    rw [QuestItemMap.set_apply, if_neg other, sameFFA]

theorem countConditional_congr (l : Loot) (i : Nat) {item item' : LootItem}
    (same : item'.isCounted = item.isCounted) :
    l.countConditional i item' = l.countConditional i item := by
  unfold countConditional
  rw [same]

theorem setConditional_self (l : Loot) (player : UInt32) :
    l.setConditional player (l.playerNonQuestNonFFAConditionalItems player) = l := by
  unfold setConditional
  rw [QuestItemMap.set_self]

/-- What a turn of the conditional fill keeps; `complete` has the entries counted. -/
structure ConditionalTurn (drawn : Loot) (rules : Option LootRules)
    (players ffaDone conditionalDone : List FillPlayer) (p : FillPlayer) (l : Loot) (i : Nat)
    (s : Loot × List QuestItem) : Prop where
  filled : Filled drawn rules players ffaDone conditionalDone (s.1.setConditional p.low s.2)
  below : ∀ q ∈ s.2, q.index.toNat < i
  unlooted : ∀ q ∈ s.2, q.isLooted = false
  complete : ∀ j < i, ∀ item, s.1.items[j]? = some item → item.freeforall = false →
    item.conditions ≠ [] → wants rules p item = true → item.isCounted = true
  entries : Entries LootItem.Counts l s.1
  questItems : s.1.questItems = l.questItems

theorem ConditionalTurn.turn {s : Loot × List QuestItem}
    (turn : ConditionalTurn drawn rules players ffaDone conditionalDone p l i s)
    (isPlayer : p ∈ players) :
    ConditionalTurn drawn rules players ffaDone conditionalDone p l (i + 1)
      (fillConditionalTurn rules p s i) := by
  have skipped : (∀ item, s.1.items[i]? = some item → item.freeforall = false →
      wants rules p item = true → False) →
      ConditionalTurn drawn rules players ffaDone conditionalDone p l (i + 1) s := by
    intro notForP
    refine ⟨turn.filled, fun q member => Nat.lt_succ_of_lt (turn.below q member), turn.unlooted,
      fun j before item there shared conditions wantsP => ?_, turn.entries, turn.questItems⟩
    rcases Nat.lt_succ_iff_lt_or_eq.mp before with earlier | rfl
    · exact turn.complete j earlier item there shared conditions wantsP
    · exact absurd wantsP fun wantsP => notForP item there shared wantsP
  unfold fillConditionalTurn
  split
  · rename_i isNone
    exact skipped fun item there => by rw [isNone] at there; cases there
  rename_i item there
  have unlooted : item.isLooted = false := turn.filled.fresh i item there
  split
  · rename_i isForP
    have shared : item.freeforall = false := by
      simpa using (Bool.and_eq_true_iff.mp isForP).1
    -- the looter's name goes on the entry, whether it has conditions or not
    have reflags := reflags_allowLooter s.1 p i
    have sameQuest : (s.1.allowLooter p i).questItems = s.1.questItems := by
      unfold allowLooter
      split <;> rfl
    have named : Filled drawn rules players ffaDone conditionalDone
        ((s.1.allowLooter p i).setConditional p.low s.2) := by
      have commutes : (s.1.setConditional p.low s.2).allowLooter p i =
          (s.1.allowLooter p i).setConditional p.low s.2 := by
        unfold allowLooter
        split <;> rfl
      rw [← commutes]
      refine turn.filled.of_reflags (reflags_allowLooter _ p i) ?_ ?_
      · rw [commutes]
        exact sameQuest
      · unfold allowLooter
        split <;> rfl
    have entriesX : Entries LootItem.Counts l (s.1.allowLooter p i) :=
      Entries.trans turn.entries reflags fun _ _ _ counts same =>
        ⟨same.kind.trans counts.kind, same.isLooted.trans counts.isLooted,
          fun counted => same.isCounted.trans (counts.counted counted)⟩
    have before : ∀ j < i, ∀ item', (s.1.allowLooter p i).items[j]? = some item' →
        item'.freeforall = false → item'.conditions ≠ [] → wants rules p item' = true →
        item'.isCounted = true := by
      intro j earlier item' there' shared' conditions' wantsP
      obtain ⟨old, thereOld, same⟩ := reflags.entry' (.item j) there'
      exact same.isCounted.trans (turn.complete j earlier old thereOld
        (same.follows.freeforall ▸ shared') (same.follows.conditions ▸ conditions')
        (wants_of_kind same.kind ▸ wantsP))
    obtain ⟨itemX, thereX, sameX⟩ := reflags.entry (.item i) item there
    have thereX : (s.1.allowLooter p i).items[i]? = some itemX := thereX
    split
    · rename_i noConditions
      refine ⟨named, fun q member => Nat.lt_succ_of_lt (turn.below q member), turn.unlooted,
        fun j earlier item' there' shared' conditions' wantsP => ?_, entriesX,
        sameQuest.trans turn.questItems⟩
      rcases Nat.lt_succ_iff_lt_or_eq.mp earlier with isBefore | rfl
      · exact before j isBefore item' there' shared' conditions' wantsP
      · cases there'.symm.trans thereX
        exact absurd (sameX.follows.conditions.trans noConditions) conditions'
    · rename_i conditions
      have inRange := (List.getElem?_eq_some_iff.mp thereX).1
      have atMost : (s.1.allowLooter p i).items.length ≤ 16 := named.kept.shaped.items_le
      have index : (newRecord i).index.toNat = i := newRecord_index (by omega)
      have listed : ((s.1.allowLooter p i).setConditional p.low
          s.2).playerNonQuestNonFFAConditionalItems p.low = s.2 := if_pos rfl
      have pushed := named.pushConditional isPlayer listed thereX
        (sameX.follows.freeforall.trans shared)
        (by rw [sameX.follows.conditions]; exact conditions)
        (fun q member => Nat.ne_of_lt (turn.below q member)) turn.unlooted
      have once : (((s.1.allowLooter p i).setConditional p.low s.2).countConditional i
          itemX).setConditional p.low (s.2 ++ [newRecord i]) =
            ((s.1.allowLooter p i).countConditional i item).setConditional p.low
              (s.2 ++ [newRecord i]) := by
        rw [countConditional_congr _ i sameX.isCounted]
        have commutes : ((s.1.allowLooter p i).setConditional p.low s.2).countConditional i item =
            ((s.1.allowLooter p i).countConditional i item).setConditional p.low s.2 := by
          unfold countConditional
          split <;> rfl
        rw [commutes]
        unfold setConditional
        rw [QuestItemMap.set_set]
      rw [once] at pushed
      have entriesY := entries_countConditional (s.1.allowLooter p i) i item
      refine ⟨pushed, fun q member => ?_, fun q member => ?_,
        fun j earlier item' there' shared' conditions' wantsP => ?_,
        Entries.trans entriesX entriesY fun _ _ _ => LootItem.Counts.trans,
        (questItems_countConditional _ i item).trans (sameQuest.trans turn.questItems)⟩
      · rcases List.mem_append.mp member with old | isNew
        · exact Nat.lt_succ_of_lt (turn.below q old)
        · rw [List.mem_singleton.mp isNew]
          exact index.trans_lt (Nat.lt_succ_self i)
      · rcases List.mem_append.mp member with old | isNew
        · exact turn.unlooted q old
        · rw [List.mem_singleton.mp isNew]
      · rcases Nat.lt_succ_iff_lt_or_eq.mp earlier with isBefore | rfl
        · obtain ⟨old, thereOld, same⟩ := entriesY.entry' (.item j) there'
          have follows : old.Follows item' :=
            ⟨same.kind, fun looted => same.isLooted.trans looted⟩
          exact same.counted (before j isBefore old thereOld (follows.freeforall ▸ shared')
            (follows.conditions ▸ conditions') (wants_of_kind same.kind ▸ wantsP))
        · obtain ⟨item'', there'', counted⟩ := items_countConditional thereX
          rw [countConditional_congr _ j sameX.isCounted] at there''
          cases there''.symm.trans there'
          exact counted
  · rename_i notForP
    refine skipped fun item' there' shared wantsP => notForP ?_
    cases there'.symm.trans there
    simp [isFor, unlooted, shared, wantsP]

theorem Filled.fillConditional (filled : Filled drawn rules players ffaDone conditionalDone l)
    (isPlayer : p ∈ players) (noList : l.playerNonQuestNonFFAConditionalItems p.low = []) :
    Filled drawn rules players ffaDone (conditionalDone ++ [p])
        (l.fillNonQuestNonFFAConditionalLoot rules p) ∧
      (l.fillNonQuestNonFFAConditionalLoot rules p).questItems = l.questItems ∧
      (l.fillNonQuestNonFFAConditionalLoot rules p).playerQuestItems = l.playerQuestItems ∧
      (l.fillNonQuestNonFFAConditionalLoot rules p).playerFFAItems = l.playerFFAItems ∧
      ∀ d, d ≠ p.low →
        (l.fillNonQuestNonFFAConditionalLoot rules p).playerNonQuestNonFFAConditionalItems d =
          l.playerNonQuestNonFFAConditionalItems d := by
  have loop : ConditionalTurn drawn rules players ffaDone conditionalDone p l l.items.length
      ((List.range l.items.length).foldl (fillConditionalTurn rules p) (l, [])) := by
    refine run_range (P := ConditionalTurn drawn rules players ffaDone conditionalDone p l) ?_
      l.items.length fun i s _ turn => turn.turn isPlayer
    have alone : l.setConditional p.low [] = l := by
      rw [← noList]
      exact setConditional_self l p.low
    refine ⟨alone.symm ▸ filled, fun q member => ?_, fun q member => ?_, fun j before => ?_,
      Entries.refl LootItem.Counts.refl l, rfl⟩
    · cases member
    · cases member
    · exact absurd before (Nat.not_lt_zero j)
  unfold fillNonQuestNonFFAConditionalLoot
  generalize (List.range l.items.length).foldl (fillConditionalTurn rules p) (l, []) = s at loop
  have done : Filled drawn rules players ffaDone (conditionalDone ++ [p])
      (s.1.setConditional p.low s.2) := by
    refine { loop.filled with
      conditional := fun d isDone j item there shared conditions wantsD => ?_ }
    rcases List.mem_append.mp isDone with before | isP
    · exact loop.filled.conditional d before j item there shared conditions wantsD
    · rw [List.mem_singleton.mp isP] at wantsD
      have inRange := (List.getElem?_eq_some_iff.mp there).1
      have inRange : j < l.items.length := loop.entries.items ▸ inRange
      exact loop.complete j inRange item there shared conditions wantsD
  dsimp only
  split
  · rename_i isEmpty
    have alone : s.1.setConditional p.low s.2 = s.1 := by
      rw [isEmpty, ← noList, ← loop.entries.conditional]
      exact setConditional_self s.1 p.low
    exact ⟨alone ▸ done, loop.questItems, loop.entries.quest, loop.entries.ffa,
      fun d _ => by rw [loop.entries.conditional]⟩
  · refine ⟨done, loop.questItems, loop.entries.quest, loop.entries.ffa, fun d other => ?_⟩
    change s.1.playerNonQuestNonFFAConditionalItems.set p.low s.2 d = _
    rw [QuestItemMap.set_apply, if_neg other, loop.entries.conditional]

structure NoRecords (l : Loot) (player : UInt32) : Prop where
  quest : l.playerQuestItems player = []
  ffa : l.playerFFAItems player = []
  conditional : l.playerNonQuestNonFFAConditionalItems player = []

theorem Filled.fillRecords (filled : Filled drawn rules players ffaDone conditionalDone l)
    (nodup : (players.map FillPlayer.low).Nodup) (isPlayer : p ∈ players)
    (noRecords : l.NoRecords p.low) :
    Filled drawn rules players (ffaDone ++ [p]) (conditionalDone ++ [p]) (l.fillRecords rules p) ∧
      (l.fillRecords rules p).FreshRecords p ∧
      ∀ d, d ≠ p.low → l.NoRecords d → (l.fillRecords rules p).NoRecords d := by
  obtain ⟨quest, fresh, questOthers, questFFA, questConditional⟩ :=
    filled.fillQuestLoot nodup isPlayer noRecords.quest
  have noFFA : (l.fillQuestLoot rules p).playerFFAItems p.low = [] := by
    rw [questFFA]
    exact noRecords.ffa
  obtain ⟨ffa, ffaQuestItems, ffaQuest, ffaOthers, ffaConditional⟩ := quest.fillFFALoot isPlayer noFFA
  have noConditional : ((l.fillQuestLoot rules p).fillFFALoot
      p).playerNonQuestNonFFAConditionalItems p.low = [] := by
    rw [ffaConditional, questConditional]
    exact noRecords.conditional
  obtain ⟨conditional, questItems, conditionalQuest, conditionalFFA, conditionalOthers⟩ :=
    ffa.fillConditional isPlayer noConditional
  unfold Loot.fillRecords
  rw [if_pos noRecords.quest]
  dsimp only
  rw [if_pos noFFA, if_pos noConditional]
  refine ⟨conditional, fun q member item there => ?_, fun d other none => ⟨?_, ?_, ?_⟩⟩
  · rw [conditionalQuest, ffaQuest] at member
    rw [questItems, ffaQuestItems] at there
    exact fresh q member item there
  · rw [conditionalQuest, ffaQuest, questOthers d other]
    exact none.quest
  · rw [conditionalFFA, ffaOthers d other, questFFA]
    exact none.ffa
  · rw [conditionalOthers d other, ffaConditional, questConditional]
    exact none.conditional

/-! ## Currency -/

theorem records_markRecord (l : Loot) (player d : UInt32) (record : LootRecord) (j : Nat) :
    ((l.markRecord player record).playerQuestItems.Records d j ↔ l.playerQuestItems.Records d j) ∧
      ((l.markRecord player record).playerFFAItems.Records d j ↔ l.playerFFAItems.Records d j) := by
  cases record with
  | none => exact ⟨Iff.rfl, Iff.rfl⟩
  | qitem pos => exact ⟨QuestItemMap.records_markLooted, Iff.rfl⟩
  | ffaitem pos => exact ⟨Iff.rfl, QuestItemMap.records_markLooted⟩
  | conditem pos => exact ⟨Iff.rfl, Iff.rfl⟩

theorem Filled.storeFound (filled : Filled drawn rules players ffaDone conditionalDone l)
    {player : UInt32} {found : SlotItem} (finds : l.Finds player i found) {taken : LootUnit}
    (isUnit : found.unit player = some taken) (isOpen : l.Open (players.map FillPlayer.low) taken)
    (notShared : found.place.isShared found.item = false) :
    Filled drawn rules players ffaDone conditionalDone (l.storeFound player found) := by
  have entries : Entries (fun item item' => item'.kind = item.kind ∧
      item'.isBlocked = item.isBlocked ∧ item'.isCounted = item.isCounted) l
        (l.lootEntry found) := by
    unfold lootEntry
    split
    · exact Entries.refl (fun _ => ⟨rfl, rfl, rfl⟩) l
    · exact entries_modifyAt (fun _ => ⟨rfl, rfl, rfl⟩) l _ fun _ => ⟨rfl, rfl, rfl⟩
  have sameItems : (l.lootEntry found).items = l.items := by
    unfold lootEntry
    split
    · rfl
    rename_i shared
    cases place : found.place with
    | item j =>
      rw [place] at notShared
      simp [LootPlace.isShared, shared] at notShared
    | questItem j => rfl
  have sameEntry : ∀ place, (l.storeFound player found).itemAt place =
      (l.lootEntry found).itemAt place := by
    intro place
    rw [storeFound_eq]
    exact itemAt_markRecord _ player found.record place
  have records : ∀ d j, ((l.storeFound player found).playerQuestItems.Records d j ↔
        l.playerQuestItems.Records d j) ∧
      ((l.storeFound player found).playerFFAItems.Records d j ↔ l.playerFFAItems.Records d j) := by
    intro d j
    rw [storeFound_eq]
    have marked := records_markRecord (l.lootEntry found) player d found.record j
    rw [entries.quest, entries.ffa] at marked
    exact marked
  have itemsAfter : (l.storeFound player found).items = l.items := by
    rw [storeFound_eq, ← sameItems]
    cases found.record <;> rfl
  have kept := filled.kept.storeFound finds
  refine ⟨kept, fun place item' there' => ?_, itemsAfter ▸ filled.items, itemsAfter ▸ filled.fresh,
    fun j item' there' => ?_, fun d isPlayer j recorded item' there' => ?_,
    fun d done j item' there' isFFA allowed => ?_, itemsAfter ▸ filled.conditional, fun one => ?_⟩
  · rw [sameEntry] at there'
    obtain ⟨old, thereOld, same, -⟩ := entries.entry' place there'
    obtain ⟨item'', there'', kind⟩ := filled.kinds place old thereOld
    exact ⟨item'', there'', same.trans kind⟩
  · have thereAt : (l.lootEntry found).itemAt (.questItem j) = some item' :=
      (sameEntry (.questItem j)).symm.trans there'
    obtain ⟨old, thereOld, -, isBlocked, -⟩ := entries.entry' (.questItem j) thereAt
    simp only [fun d => (records d j).1, isBlocked]
    exact filled.blocked j old thereOld
  · have thereAt : (l.lootEntry found).itemAt (.questItem j) = some item' :=
      (sameEntry (.questItem j)).symm.trans there'
    obtain ⟨old, thereOld, kind, -⟩ := entries.entry' (.questItem j) thereAt
    rw [wants_of_kind kind]
    exact filled.wanted d isPlayer j ((records d.low j).1.mp recorded) old thereOld
  · rw [itemsAfter] at there'
    exact (records d.low j).2.mpr (filled.ffa d done j item' there' isFFA allowed)
  · have less := card_openUnits_take filled.kept kept
      (open_storeFound_iff filled.kept.shaped finds isUnit) isOpen
    have count : (l.storeFound player found).unlootedCount = l.unlootedCount - 1 := by
      rw [storeFound_eq]
      unfold lootEntry decUnlooted
      cases found.record <;> split <;> cases found.place <;> rfl
    rw [count, filled.counter one, ← less, UInt8.ofNat_add]
    exact UInt8.add_sub_cancel _ 1

/-- What a player has looted himself, and nobody else for him: his record of a
looted shared quest entry is looted. -/
def OwnLooted (l : Loot) (p : FillPlayer) : Prop :=
  ∀ q ∈ l.playerQuestItems p.low, ∀ item, l.questItems[q.index.toNat]? = some item →
    item.freeforall = false → item.isLooted = true → q.isLooted = true

theorem OwnLooted.storeFound (own : l.OwnLooted p) (shaped : l.Shaped) {found : SlotItem}
    (finds : l.Finds p.low i found) (notShared : found.place.isShared found.item = false) :
    (l.storeFound p.low found).OwnLooted p := by
  intro q member item' there' shared' looted'
  rw [storeFound_eq] at member there'
  have untouched : found.item.freeforall = true → l.lootEntry found = l := fun ffa => if_pos ffa
  cases finds with
  | questItem beyond record entry unlooted =>
    rename_i q₀ item₀
    change q ∈ (l.lootEntry _).playerQuestItems.markLooted p.low (i - l.items.length) p.low
      at member
    rw [QuestItemMap.markLooted_apply, if_pos rfl, (follows_lootEntry l _).quest] at member
    obtain ⟨k, atK⟩ := getElem?_of_mem member
    rw [getElem?_modify] at atK
    obtain ⟨old, atOld, isMarked⟩ := Option.map_eq_some_iff.mp atK
    by_cases same : i - l.items.length = k
    · rw [if_pos same] at isMarked
      rw [← isMarked]
    rw [if_neg same] at isMarked
    have isOld : old = q := isMarked
    rw [isOld] at atOld
    -- another entry, which has not been touched
    have otherEntry : q.index.toNat ≠ q₀.index.toNat := fun sameIndex =>
      same ((shaped.quest p.low).pos_unique record atOld sameIndex.symm)
    have there : l.questItems[q.index.toNat]? = some item' := by
      have thereAt : (l.lootEntry ⟨.questItem q₀.index.toNat, item₀,
          .qitem (i - l.items.length)⟩).itemAt (.questItem q.index.toNat) = some item' := there'
      unfold lootEntry at thereAt
      split at thereAt
      · exact thereAt
      · rw [itemAt_modifyAt, if_neg fun h => otherEntry (LootPlace.questItem.inj h)] at thereAt
        exact thereAt
    exact own q (mem_of_getElem? atOld) item' there shared' looted'
  | ffaitem entry ffa record unlooted =>
    rw [untouched ffa] at member there'
    exact own q member item' there' shared' looted'
  | conditem entry shared conditional record unlooted =>
    simp [LootPlace.isShared, shared] at notShared
  | none entry unlooted noFFA noConditional =>
    rw [untouched (by simpa [LootPlace.isShared] using notShared)] at member there'
    exact own q member item' there' shared' looted'

theorem storeFound_others {found : SlotItem} {d : UInt32} (other : d ≠ p.low)
    (noRecords : l.NoRecords d) : (l.storeFound p.low found).NoRecords d := by
  have follows := follows_lootEntry l found
  rw [storeFound_eq]
  have unmarked : ∀ (m : QuestItemMap) pos, m d = [] → m.markLooted p.low pos d = [] := by
    intro m pos isNil
    rw [QuestItemMap.markLooted_apply, if_neg other]
    exact isNil
  have quest : (l.lootEntry found).playerQuestItems d = [] := by
    rw [follows.quest]
    exact noRecords.quest
  have ffa : (l.lootEntry found).playerFFAItems d = [] := by
    rw [follows.ffa]
    exact noRecords.ffa
  have conditional : (l.lootEntry found).playerNonQuestNonFFAConditionalItems d = [] := by
    rw [follows.conditional]
    exact noRecords.conditional
  cases found.record with
  | none => exact ⟨quest, ffa, conditional⟩
  | qitem pos => exact ⟨unmarked _ pos quest, ffa, conditional⟩
  | ffaitem pos => exact ⟨quest, unmarked _ pos ffa, conditional⟩
  | conditem pos => exact ⟨quest, ffa, unmarked _ pos conditional⟩

theorem storeFound_maxSlot (l : Loot) (player d : UInt32) (found : SlotItem) :
    (l.storeFound player found).getMaxSlotInLootFor d = l.getMaxSlotInLootFor d := by
  have follows := follows_lootEntry l found
  have sameMax : (l.lootEntry found).getMaxSlotInLootFor d = l.getMaxSlotInLootFor d := by
    unfold getMaxSlotInLootFor
    rw [follows.items, follows.quest]
  rw [storeFound_eq, ← sameMax]
  cases found.record with
  | qitem pos =>
    change _ + ((l.lootEntry found).playerQuestItems.markLooted player pos d).length = _ + _
    rw [QuestItemMap.markLooted_apply]
    split
    · rw [length_modify]
      rfl
    · rfl
  | _ => rfl

/-- What the currency loop of a player keeps. -/
structure CurrencyTurn (drawn : Loot) (rules : Option LootRules)
    (players ffaDone conditionalDone : List FillPlayer) (p : FillPlayer) (l : Loot)
    (s : Loot × List Delivery) : Prop where
  filled : Filled drawn rules players ffaDone conditionalDone s.1
  own : s.1.OwnLooted p
  maxSlot : s.1.getMaxSlotInLootFor p.low = l.getMaxSlotInLootFor p.low
  others : ∀ d, d ≠ p.low → l.NoRecords d → s.1.NoRecords d
  unshared : ∀ d ∈ s.2, d.isShared = false

theorem CurrencyTurn.turn {s : Loot × List Delivery}
    (turn : CurrencyTurn drawn rules players ffaDone conditionalDone p l s)
    (isPlayer : p ∈ players) (isDone : p ∈ ffaDone) {store : ItemStore}
    (inRange : i < l.getMaxSlotInLootFor p.low) :
    CurrencyTurn drawn rules players ffaDone conditionalDone p l (storeCurrency store p s i) := by
  unfold storeCurrency
  split
  · exact turn
  rename_i item isItem
  dsimp only
  split
  · rename_i isToken
    obtain ⟨⟨⟨-, ffa⟩, allowed⟩, -⟩ : ((item.isLooted = false ∧ item.freeforall = true) ∧
        item.allowedForPlayer p.filter = true) ∧ _ = true := by
      simpa using isToken
    have shaped := turn.filled.kept.shaped
    have slot : (UInt8.ofNat i).toNat = i := by
      have room := shaped.room p.low
      have bound := turn.maxSlot
      unfold getMaxSlotInLootFor at bound inRange
      change _ ≤ 16 at room
      rw [UInt8.toNat_ofNat']
      omega
    rw [storeLootItem_eq]
    split
    · refine ⟨turn.filled, turn.own, turn.maxSlot, turn.others, fun d member => ?_⟩
      have member : d ∈ s.2 ++ [] := member
      rw [append_nil] at member
      exact turn.unshared d member
    · rename_i found isStorable
      have finds := storable_eq_some isStorable
      rw [slot] at finds
      have sameItem : ∀ {item'}, s.1.items[i]? = some item' → item' = item := by
        intro item' there'
        unfold currencyItem at isItem
        rw [if_pos (List.getElem?_eq_some_iff.mp there').1] at isItem
        exact Option.some.inj (there'.symm.trans isItem)
      have isLow : p.low ∈ players.map FillPlayer.low := List.mem_map_of_mem isPlayer
      have takes : ∃ taken, found.unit p.low = some taken ∧
          s.1.Open (players.map FillPlayer.low) taken ∧
          found.place.isShared found.item = false := by
        cases finds with
        | questItem beyond record entry unlooted =>
          rename_i q item'
          have member := mem_of_getElem? record
          cases kind : item'.freeforall with
          | true =>
            exact ⟨.ffaQuestItem p.low q.index.toNat, if_pos kind,
              ⟨⟨q, member, rfl, unlooted⟩, item', entry, kind⟩, rfl⟩
          | false =>
            refine ⟨.questItem q.index.toNat, if_neg (by rw [kind]; decide),
              ⟨⟨item', entry, kind, ?_⟩, p.low, isLow, q, member, rfl⟩, rfl⟩
            cases looted : item'.isLooted with
            | false => rfl
            | true =>
              rw [turn.own q member item' entry kind looted] at unlooted
              cases unlooted
        | ffaitem entry kind record unlooted =>
          rename_i pos q item'
          obtain ⟨atPos, index⟩ := QuestItemMap.recordOf_eq_some record
          exact ⟨.ffaItem p.low i, if_pos kind, ⟨q, mem_of_getElem? atPos, index, unlooted⟩, by
              simp [LootPlace.isShared, kind]⟩
        | conditem entry shared conditional record unlooted =>
          rw [sameItem entry, ffa] at shared
          cases shared
        | none entry unlooted noFFA noConditional =>
          rename_i item'
          have isSame := sameItem entry
          subst isSame
          obtain ⟨q, member, index⟩ := turn.filled.ffa p isDone i item' entry ffa allowed
          exact absurd index (QuestItemMap.recordOf_eq_none (noFFA ffa) q member)
      obtain ⟨taken, isUnit, isOpen, notShared⟩ := takes
      refine ⟨turn.filled.storeFound finds isUnit isOpen notShared,
        turn.own.storeFound shaped finds notShared,
        (storeFound_maxSlot s.1 p.low p.low found).trans turn.maxSlot,
        fun d other noRecords => storeFound_others other (turn.others d other noRecords),
        fun d member => ?_⟩
      rcases List.mem_append.mp member with old | new
      · exact turn.unshared d old
      unfold delivery at new
      split at new
      · cases new
      · rw [List.mem_singleton.mp new]
        exact notShared
  · exact turn

/-- What a filling keeps from player to player. -/
structure FillTurn (drawn : Loot) (rules : Option LootRules) (players : List FillPlayer)
    (done rest : List FillPlayer) (s : Loot × List Delivery) : Prop where
  split : players = done ++ rest
  filled : Filled drawn rules players done done s.1
  noRecords : ∀ p ∈ rest, s.1.NoRecords p.low
  unshared : ∀ d ∈ s.2, d.isShared = false

theorem FillTurn.turn {done rest : List FillPlayer} {s : Loot × List Delivery}
    (turn : FillTurn drawn rules players done (p :: rest) s)
    (nodup : (players.map FillPlayer.low).Nodup) (store : ItemStore) :
    FillTurn drawn rules players (done ++ [p]) rest (fillNotNormalLootFor store rules s p) := by
  have isPlayer : p ∈ players := by
    rw [turn.split]
    exact mem_append_right _ mem_cons_self
  have apart : ∀ d ∈ rest, d.low ≠ p.low := by
    intro d member same
    rw [turn.split, map_append] at nodup
    obtain ⟨-, nodupRest, -⟩ := List.nodup_append.mp nodup
    obtain ⟨absent, -⟩ := List.nodup_cons.mp nodupRest
    exact absent (List.mem_map.mpr ⟨d, member, same⟩)
  obtain ⟨filled, fresh, others⟩ :=
    turn.filled.fillRecords nodup isPlayer (turn.noRecords p mem_cons_self)
  have split : players = (done ++ [p]) ++ rest := by
    rw [append_assoc]
    exact turn.split
  have noRecords : ∀ d ∈ rest, (s.1.fillRecords rules p).NoRecords d.low := fun d member =>
    others d.low (apart d member) (turn.noRecords d (mem_cons_of_mem _ member))
  unfold fillNotNormalLootFor
  split
  · exact ⟨split, filled, noRecords, turn.unshared⟩
  have loop : CurrencyTurn drawn rules players (done ++ [p]) (done ++ [p]) p
      (s.1.fillRecords rules p)
      ((List.range ((s.1.fillRecords rules p).getMaxSlotInLootFor p.low)).foldl
        (storeCurrency store p) (s.1.fillRecords rules p, s.2)) := by
    refine run_range (P := fun _ => CurrencyTurn drawn rules players (done ++ [p])
      (done ++ [p]) p (s.1.fillRecords rules p)) ?_ _ fun i s below turn =>
        turn.turn isPlayer (mem_append_right _ (mem_singleton_self p)) below
    refine ⟨filled, fun q member item there _ looted => ?_, rfl, fun _ _ none => none,
      turn.unshared⟩
    rw [fresh q member item there] at looted
    cases looted
  exact ⟨split, loop.filled, fun d member =>
    loop.others d.low (apart d member) (noRecords d member), loop.unshared⟩

/-! ## Drawn items -/

/-- A loot for which nobody has records. -/
structure Drawn (l : Loot) : Prop where
  items_le : l.items.length ≤ maxNrLootItems
  questItems_le : l.questItems.length ≤ maxNrQuestItems
  quest : l.playerQuestItems = fun _ => []
  ffa : l.playerFFAItems = fun _ => []
  conditional : l.playerNonQuestNonFFAConditionalItems = fun _ => []
  fresh : ∀ item ∈ l.items, item.isLooted = false ∧ item.isCounted = false
  unblocked : ∀ item ∈ l.questItems, item.isBlocked = false
  counter : ∀ lows, l.unlootedCount = UInt8.ofNat (l.openUnits lows).card

theorem Drawn.kept {lows : List UInt32} (items_le : l.items.length ≤ maxNrLootItems)
    (questItems_le : l.questItems.length ≤ maxNrQuestItems)
    (quest : l.playerQuestItems = fun _ => []) (ffa : l.playerFFAItems = fun _ => [])
    (conditional : l.playerNonQuestNonFFAConditionalItems = fun _ => []) : l.Kept lows := by
  refine ⟨⟨items_le, questItems_le, fun p => ?_, fun p => ?_, fun p => ?_, fun p => ?_,
    fun p q member => ?_, fun p q member => ?_⟩, fun p _ => ?_, fun p _ => ?_, fun p _ => ?_⟩
  · rw [quest]
    exact items_le
  · rw [quest]
    exact Indexed.nil _
  · rw [ffa]
    exact Indexed.nil _
  · rw [conditional]
    exact Indexed.nil _
  · rw [quest] at member
    cases member
  · rw [conditional] at member
    cases member
  · rw [quest]
  · rw [ffa]
  · rw [conditional]

theorem drawn_empty (gold : UInt32) : Drawn { Loot.empty with gold := gold } := by
  refine ⟨Nat.zero_le _, Nat.zero_le _, rfl, rfl, rfl, fun item member => ?_,
    fun item member => ?_, fun lows => ?_⟩
  · cases member
  · cases member
  · have kept : Kept { Loot.empty with gold := gold } lows :=
      Drawn.kept (Nat.zero_le _) (Nat.zero_le _) rfl rfl rfl
    have none : openUnits { Loot.empty with gold := gold } lows = ∅ := by
      refine Finset.eq_empty_of_forall_notMem fun u member => ?_
      have isOpen := (mem_openUnits kept.shaped kept.owned).mp member
      cases u with
      | item i => obtain ⟨item, there, -⟩ := isOpen; cases there
      | questItem i => obtain ⟨⟨item, there, -⟩, -⟩ := isOpen; cases there
      | ffaItem p i => obtain ⟨q, member, -⟩ := isOpen; cases member
      | ffaQuestItem p i => obtain ⟨⟨q, member, -⟩, -⟩ := isOpen; cases member
    rw [none]
    rfl

theorem Drawn.pushItem (drawn : Drawn l) {item : LootItem}
    (room : l.items.length < maxNrLootItems) (unlooted : item.isLooted = false)
    (uncounted : item.isCounted = false) {counts : Bool}
    (plain : counts = true ↔ item.conditions = [] ∧ item.freeforall = false) :
    Drawn (if counts then ({ l with items := l.items ++ [item] } : Loot).incUnlooted
      else { l with items := l.items ++ [item] }) := by
  have longer : (l.items ++ [item]).length ≤ maxNrLootItems := by
    rw [length_append, length_singleton]
    exact room
  have fresh : ∀ d ∈ l.items ++ [item], d.isLooted = false ∧ d.isCounted = false := by
    intro d member
    rcases List.mem_append.mp member with old | isNew
    · exact drawn.fresh d old
    · rw [List.mem_singleton.mp isNew]
      exact ⟨unlooted, uncounted⟩
  have kept : ∀ lows, l.Kept lows := fun lows =>
    Drawn.kept drawn.items_le drawn.questItems_le drawn.quest drawn.ffa drawn.conditional
  have kept' : ∀ lows, Kept { l with items := l.items ++ [item] } lows := fun lows =>
    Drawn.kept longer drawn.questItems_le drawn.quest drawn.ffa drawn.conditional
  have others : ∀ lows u, u ≠ .item l.items.length →
      (Open { l with items := l.items ++ [item] } lows u ↔ l.Open lows u) := by
    intro lows u other
    cases u with
    | item j =>
      change (∃ d ∈ (l.items ++ [item])[j]?, _) ↔ _
      by_cases before : j < l.items.length
      · rw [getElem?_append_left before]
        exact Iff.rfl
      have beyond : l.items.length < j :=
        Nat.lt_of_le_of_ne (Nat.not_lt.mp before) fun same => other (by rw [same])
      have absent : (l.items ++ [item])[j]? = none := by
        rw [List.getElem?_eq_none_iff, length_append, length_singleton]
        exact beyond
      have absent' : l.items[j]? = none :=
        List.getElem?_eq_none_iff.mpr (Nat.le_of_lt beyond)
      rw [absent]
      change _ ↔ ∃ d ∈ l.items[j]?, _
      rw [absent']
    | _ => exact Iff.rfl
  have atEnd : (l.items ++ [item])[l.items.length]? = some item := by simp
  have closed : ∀ lows, ¬ l.Open lows (.item l.items.length) := by
    intro lows ⟨d, there, _⟩
    have absent : l.items[l.items.length]? = none :=
      List.getElem?_eq_none_iff.mpr (Nat.le_refl _)
    rw [absent] at there
    cases there
  have opens : ∀ lows, (Open { l with items := l.items ++ [item] } lows (.item l.items.length) ↔
      counts = true) := by
    intro lows
    rw [plain]
    constructor
    · intro ⟨d, there, shared, _, isCounted⟩
      cases (Eq.symm there).trans atEnd
      rw [uncounted] at isCounted
      exact ⟨isCounted.elim id fun impossible => (by cases impossible), shared⟩
    · intro ⟨noConditions, shared⟩
      exact ⟨item, atEnd, shared, unlooted, Or.inl noConditions⟩
  cases counts with
  | true =>
    refine ⟨longer, drawn.questItems_le, drawn.quest, drawn.ffa, drawn.conditional, fresh,
      drawn.unblocked, fun lows => ?_⟩
    have more := card_openUnits_add (kept lows)
      ((kept' lows).of_follows (reflags_incUnlooted _).follows) (u := .item l.items.length)
      (fun u => ?_) (closed lows)
    · rw [if_pos rfl, more, drawn.counter lows]
      exact (UInt8.ofNat_add _ 1).symm
    · rw [Reflags.open_iff (reflags_incUnlooted _) u]
      by_cases isNew : u = .item l.items.length
      · rw [isNew]
        exact ⟨fun _ => Or.inr rfl, fun _ => (opens lows).mpr rfl⟩
      · rw [others lows u isNew]
        exact ⟨Or.inl, fun either => either.elim id fun same => absurd same isNew⟩
  | false =>
    refine ⟨longer, drawn.questItems_le, drawn.quest, drawn.ffa, drawn.conditional, fresh,
      drawn.unblocked, fun lows => ?_⟩
    have same := card_openUnits_eq (kept lows) (kept' lows) fun u => by
      by_cases isNew : u = .item l.items.length
      · rw [isNew]
        exact ⟨fun isOpen => absurd ((opens lows).mp isOpen) (by decide), fun isOpen =>
          absurd isOpen (closed lows)⟩
      · exact others lows u isNew
    rw [drawn.counter lows]
    exact congrArg UInt8.ofNat same.symm

theorem Drawn.pushQuestItem (drawn : Drawn l) {item : LootItem}
    (room : l.questItems.length < maxNrQuestItems) (unblocked : item.isBlocked = false) :
    Drawn { l with questItems := l.questItems ++ [item] } := by
  have longer : (l.questItems ++ [item]).length ≤ maxNrQuestItems := by
    rw [length_append, length_singleton]
    exact room
  refine ⟨drawn.items_le, longer, drawn.quest, drawn.ffa, drawn.conditional, drawn.fresh,
    fun d member => ?_, fun lows => ?_⟩
  · rcases List.mem_append.mp member with old | isNew
    · exact drawn.unblocked d old
    · rw [List.mem_singleton.mp isNew]
      exact unblocked
  · have kept : l.Kept lows :=
      Drawn.kept drawn.items_le drawn.questItems_le drawn.quest drawn.ffa drawn.conditional
    have kept' : Kept { l with questItems := l.questItems ++ [item] } lows :=
      Drawn.kept drawn.items_le longer drawn.quest drawn.ffa drawn.conditional
    have noRecord : ∀ p j, ¬ l.playerQuestItems.Records p j := by
      intro p j ⟨q, member, _⟩
      rw [drawn.quest] at member
      cases member
    have same := card_openUnits_eq kept kept' fun u => by
      cases u with
      | questItem j =>
        exact ⟨fun ⟨_, p, _, recorded⟩ => absurd recorded (noRecord p j),
          fun ⟨_, p, _, recorded⟩ => absurd recorded (noRecord p j)⟩
      | ffaQuestItem p j =>
        exact ⟨fun ⟨awaiting, _⟩ => absurd awaiting.records (noRecord p j),
          fun ⟨awaiting, _⟩ => absurd awaiting.records (noRecord p j)⟩
      | _ => exact Iff.rfl
    exact (drawn.counter lows).trans (congrArg UInt8.ofNat same.symm)

theorem Drawn.addStacks (proto : ItemTemplate) (d : LootStoreItem) (n : Nat) :
    ∀ {count : UInt32} {l : Loot}, Drawn l → Drawn (addStacks proto d n count l) := by
  induction n with
  | zero => exact fun drawn => drawn
  | succ n ih =>
    intro count l drawn
    unfold Loot.addStacks
    cases quest : d.needsQuest with
    | true =>
      simp only [Bool.not_true, Bool.false_and, if_true, Bool.false_eq_true, if_false]
      split
      · exact drawn
      · rename_i room
        exact ih (drawn.pushQuestItem (Nat.not_le.mp room) rfl)
    | false =>
      simp only [Bool.not_false, Bool.true_and, Bool.false_eq_true, if_false]
      split
      · exact drawn
      · rename_i room
        exact ih (drawn.pushItem (Nat.not_le.mp room) rfl rfl (by simp [newItem]))

theorem Drawn.addItem (drawn : Drawn l) (store : ItemStore) (d : LootStoreItem)
    (count : UInt32) : Drawn (l.addItem store d count) := by
  unfold Loot.addItem
  split
  · exact drawn
  · exact drawn.addStacks _ _ _

end Loot

namespace Filling

variable (f : Filling) (store : ItemStore)

theorem drawn_drawn : Loot.Drawn (f.drawn store) := by
  exact run_list (P := fun _ _ l => Loot.Drawn l) _
    (fun _ drop _ l drawn => drawn.addItem store drop.1 drop.2) f.drops [] _
    (Loot.drawn_empty f.gold)

theorem nodup_players : (f.players.map FillPlayer.low).Nodup := by
  unfold players
  split
  · rename_i g _
    split
    · exact nodup_singleton _
    · exact g.nodup
  · exact nodup_singleton _

theorem players_ne_nil : f.players ≠ [] := by
  unfold players
  split
  · rename_i g isGroup
    split
    · exact cons_ne_nil _ _
    intro isNil
    have ownerIn := f.ownerIn g isGroup
    rw [isNil] at ownerIn
    cases ownerIn
  · exact cons_ne_nil _ _

theorem reflags_markThreshold (l : Loot) : l.Reflags (f.markThreshold store l) := by
  unfold markThreshold
  split
  · exact Loot.Entries.refl LootItem.Reflags.refl l
  split
  · exact Loot.Entries.refl LootItem.Reflags.refl l
  refine ⟨fun place item there => ?_, length_map _, rfl, rfl, rfl, rfl⟩
  cases place with
  | item i =>
    refine ⟨_, List.getElem?_map.trans (congrArg _ there), ?_⟩
    dsimp only
    split
    · exact ⟨rfl, rfl, rfl⟩
    · exact LootItem.Reflags.refl item
  | questItem i => exact ⟨item, there, LootItem.Reflags.refl item⟩

theorem markThreshold_rest (l : Loot) : (f.markThreshold store l).questItems = l.questItems ∧
      (f.markThreshold store l).unlootedCount = l.unlootedCount := by
  unfold markThreshold
  split
  · exact ⟨rfl, rfl⟩
  · split
    · exact ⟨rfl, rfl⟩
    · exact ⟨rfl, rfl⟩

/-- **After a filling** every player has his records, the counter is the number of open units if no
shared quest entry is counted twice, and only free for all and quest entries are given out. -/
theorem filled_fillLoot :
    Loot.Filled (f.drawn store) f.rules f.players f.players f.players (f.fillLoot store).1 ∧
      ∀ d ∈ (f.fillLoot store).2, d.isShared = false := by
  have drawn := f.drawn_drawn store
  have start : Loot.FillTurn (f.drawn store) f.rules f.players [] f.players
      (f.drawn store, []) := by
    refine ⟨rfl, ⟨Loot.Drawn.kept drawn.items_le drawn.questItems_le drawn.quest drawn.ffa
      drawn.conditional, fun place item there => ⟨item, there, rfl⟩, rfl,
      fun i item there => (drawn.fresh item (mem_of_getElem? there)).1,
      fun i item there => ?_, fun p _ i recorded => ?_, fun p done => ?_, fun p done => ?_,
      fun _ => drawn.counter _⟩, fun p _ => ⟨?_, ?_, ?_⟩, fun d member => ?_⟩
    · rw [drawn.unblocked item (mem_of_getElem? there)]
      refine ⟨fun impossible => (by cases impossible), fun ⟨_, p, _, q, member, _⟩ => ?_⟩
      rw [drawn.quest] at member
      cases member
    · obtain ⟨q, member, -⟩ := recorded
      rw [drawn.quest] at member
      cases member
    · cases done
    · cases done
    · rw [drawn.quest]
    · rw [drawn.ffa]
    · rw [drawn.conditional]
    · cases member
  have loop := run_list (P := Loot.FillTurn (f.drawn store) f.rules f.players)
    (Loot.fillNotNormalLootFor store f.rules)
    (fun done p rest s turn => turn.turn f.nodup_players store) f.players [] _ start
  rw [nil_append] at loop
  have sameRest := f.markThreshold_rest store
  exact ⟨loop.filled.of_reflags (f.reflags_markThreshold store _) (sameRest _).1 (sameRest _).2,
    loop.unshared⟩

end Filling

end Sky548
