import Sky548.Loot.World

/-!
# What an event does to a loot

Each of the three ways out of a loot first decides whether it takes an entry, and then marks it. The
deciding parts are predicates of the state before: `storable`, `givable` and `Roll.takes`.
-/

namespace Sky548

namespace Loot

variable {l : Loot}

/-- What `StoreLootItem` takes: the entry in the slot, unless a roll blocks it or
the bags have no room. -/
def storable (l : Loot) (player : UInt64) (lootSlot : UInt8) (canStore : LootItem → Bool) :
    Option SlotItem :=
  (l.lootItemInSlot lootSlot.toNat (guidLoPart player)).filter fun found =>
    (found.record.isQuest || !found.item.isBlocked) && canStore found.item

theorem storeLootItem_eq (player : UInt64) (lootSlot : UInt8) (canStore : LootItem → Bool) :
    l.storeLootItem player lootSlot canStore =
      match l.storable player lootSlot canStore with
      | none => (l, none)
      | some found =>
        (l.storeFound (guidLoPart player) found,
          delivery found.place found.item found.item.itemid player) := by
  unfold storeLootItem storable
  rcases l.lootItemInSlot lootSlot.toNat (guidLoPart player) with _ | found
  · rfl
  simp only [Option.filter_some]
  cases found.record.isQuest <;> cases found.item.isBlocked <;>
    cases canStore found.item <;> rfl

/-- What a master looter gives away: the entry of any slot, to a target with room
for it. -/
def givable (l : Loot) (slotid : UInt8) (canStore : LootItem → Bool) (filter : LootFilter) :
    Option LootItem :=
  (l.itemAt (l.slotPlace slotid.toNat)).filter fun item =>
    canStore item && (!item.followLootRules || item.allowedForPlayer filter)

theorem lootMasterGive_eq (target : UInt64) (slotid : UInt8) (canStore : LootItem → Bool)
    (filter : LootFilter) :
    l.lootMasterGive target slotid canStore filter =
      match l.givable slotid canStore filter with
      | none => (l, none)
      | some item =>
        (l.takeGiven (l.slotPlace slotid.toNat),
          delivery (l.slotPlace slotid.toNat) item item.itemid target) := by
  unfold lootMasterGive givable
  dsimp only
  rcases l.itemAt (l.slotPlace slotid.toNat) with _ | item
  · rfl
  simp only [Option.filter_some]
  cases canStore item <;> cases item.followLootRules <;>
    cases item.allowedForPlayer filter <;> rfl

theorem givable_eq_some {slotid : UInt8} {canStore : LootItem → Bool} {filter : LootFilter}
    {item : LootItem} (isGivable : l.givable slotid canStore filter = some item) :
    l.itemAt (l.slotPlace slotid.toNat) = some item :=
  (Option.filter_eq_some_iff.mp isGivable).1

/-- What `LootItemInSlot` returns for a slot: an own record that is not looted, or
an entry that is not looted and of which the player has no record. -/
inductive Finds (l : Loot) (player : UInt32) (lootSlot : Nat) : SlotItem → Prop
  | questItem {q : QuestItem} {item : LootItem} (beyond : l.items.length ≤ lootSlot)
      (record : (l.playerQuestItems player)[lootSlot - l.items.length]? = some q)
      (entry : l.questItems[q.index.toNat]? = some item) (unlooted : q.isLooted = false) :
      Finds l player lootSlot ⟨.questItem q.index.toNat, item, .qitem (lootSlot - l.items.length)⟩
  | ffaitem {pos : Nat} {q : QuestItem} {item : LootItem}
      (entry : l.items[lootSlot]? = some item) (ffa : item.freeforall = true)
      (record : l.playerFFAItems.recordOf player lootSlot = some (pos, q))
      (unlooted : q.isLooted = false) :
      Finds l player lootSlot ⟨.item lootSlot, item, .ffaitem pos⟩
  | conditem {pos : Nat} {q : QuestItem} {item : LootItem}
      (entry : l.items[lootSlot]? = some item) (shared : item.freeforall = false)
      (conditional : item.conditions ≠ [])
      (record : l.playerNonQuestNonFFAConditionalItems.recordOf player lootSlot = some (pos, q))
      (unlooted : q.isLooted = false) :
      Finds l player lootSlot ⟨.item lootSlot, item, .conditem pos⟩
  | none {item : LootItem} (entry : l.items[lootSlot]? = some item)
      (unlooted : item.isLooted = false)
      (noFFA : item.freeforall = true → l.playerFFAItems.recordOf player lootSlot = .none)
      (noConditional : item.freeforall = false → item.conditions ≠ [] →
        l.playerNonQuestNonFFAConditionalItems.recordOf player lootSlot = .none) :
      Finds l player lootSlot ⟨.item lootSlot, item, .none⟩

variable {player : UInt32} {found : SlotItem}

theorem finds_of_lootItemInSlot {lootSlot : Nat}
    (isFound : l.lootItemInSlot lootSlot player = some found) : l.Finds player lootSlot found := by
  unfold lootItemInSlot at isFound
  by_cases beyond : lootSlot ≥ l.items.length
  · rw [if_pos beyond] at isFound
    rcases record : (l.playerQuestItems player)[lootSlot - l.items.length]? with _ | q
    · simp [record] at isFound
    rcases entry : l.questItems[q.index.toNat]? with _ | item
    · simp [record, entry] at isFound
    cases unlooted : q.isLooted with
    | true => simp [record, entry, unlooted] at isFound
    | false =>
      simp [record, entry, unlooted] at isFound
      exact isFound ▸ .questItem beyond record entry unlooted
  · rw [if_neg beyond] at isFound
    rcases entry : l.items[lootSlot]? with _ | item
    · simp [entry] at isFound
    cases kind : item.freeforall with
    | true =>
      cases record : l.playerFFAItems.recordOf player lootSlot with
      | none =>
        simp [entry, kind, record] at isFound
        exact isFound.2 ▸ .none entry isFound.1 (fun _ => record)
          fun shared => by simp [kind] at shared
      | some found' =>
        obtain ⟨pos, q⟩ := found'
        simp [entry, kind, record] at isFound
        exact isFound.2 ▸ .ffaitem entry kind record isFound.1
    | false =>
      by_cases conditional : item.conditions ≠ []
      · cases record : l.playerNonQuestNonFFAConditionalItems.recordOf player lootSlot with
        | none =>
          simp [entry, kind, conditional, record] at isFound
          exact isFound.2 ▸ .none entry isFound.1
            (fun ffa => by simp [kind] at ffa) fun _ _ => record
        | some found' =>
          obtain ⟨pos, q⟩ := found'
          simp [entry, kind, conditional, record] at isFound
          exact isFound.2 ▸ .conditem entry kind conditional record isFound.1
      · simp [entry, kind, conditional] at isFound
        exact isFound.2 ▸ .none entry isFound.1
          (fun ffa => by simp [kind] at ffa) fun _ isConditional =>
            absurd isConditional conditional

theorem storable_eq_some {player : UInt64} {lootSlot : UInt8} {canStore : LootItem → Bool}
    (isStorable : l.storable player lootSlot canStore = some found) :
    l.Finds (guidLoPart player) lootSlot.toNat found :=
  finds_of_lootItemInSlot (Option.filter_eq_some_iff.mp isStorable).1

theorem Finds.lootItemInSlot {lootSlot : Nat} (finds : l.Finds player lootSlot found) :
    l.lootItemInSlot lootSlot player = some found := by
  unfold Loot.lootItemInSlot
  have inItems : ∀ {item}, l.items[lootSlot]? = some item → ¬ lootSlot ≥ l.items.length :=
    fun entry => Nat.not_le.mpr (List.getElem?_eq_some_iff.mp entry).1
  cases finds with
  | questItem beyond record entry unlooted =>
    rw [if_pos beyond]
    simp [record, entry, unlooted]
  | ffaitem entry ffa record unlooted =>
    rw [if_neg (inItems entry)]
    simp [entry, ffa, record, unlooted]
  | conditem entry shared conditional record unlooted =>
    rw [if_neg (inItems entry)]
    simp [entry, shared, conditional, record, unlooted]
  | none entry unlooted noFFA noConditional =>
    rw [if_neg (inItems entry)]
    rename_i item
    cases kind : item.freeforall with
    | true => simp [entry, kind, noFFA kind, unlooted]
    | false =>
      by_cases conditional : item.conditions = []
      · simp [entry, kind, conditional, unlooted]
      · simp [entry, kind, conditional, noConditional kind conditional, unlooted]

theorem Finds.itemAt {lootSlot : Nat} (finds : l.Finds player lootSlot found) :
    l.itemAt found.place = some found.item := by
  cases finds with
  | questItem beyond record entry unlooted => exact entry
  | ffaitem entry ffa record unlooted => exact entry
  | conditem entry shared conditional record unlooted => exact entry
  | none entry unlooted noFFA noConditional => exact entry

end Loot

namespace Roll

/-- The branch of `CountTheRoll` that takes the entry out of the loot: the winner
is online and, unless it is disenchanted, has room for it. -/
def takes (r : Roll) (c : Chance) : Bool :=
  match r.playerVote.toList with
  | [] => false
  | first :: _ =>
    if r.totalNeed > 0 then
      let best := r.search c isNeed first.1
      c.isOnline best.maxguid && c.canStore best.maxguid
    else if r.totalGreed > 0 then
      let best := r.search c isGreedy first.1
      c.isOnline best.maxguid &&
        (best.rollvote = .disenchant || best.rollvote = .greed && c.canStore best.maxguid)
    else false

theorem count_cases (r : Roll) (l : Loot) (c : Chance) :
    (r.takes c ∧ (r.count l c).loot = takeRolled l (r.place l) ∧
      ((r.count l c).delivered = none ∨ ∃ item guid, l.itemAt (r.place l) = some item ∧
        (r.count l c).delivered = Loot.delivery (r.place l) item r.itemid guid)) ∨
    (r.takes c = false ∧ (r.count l c).delivered = none ∧
      ((r.count l c).loot = l ∨ (r.count l c).loot = unblock l (r.place l))) := by
  have award : ∀ best : Best, (c.isOnline best.maxguid && c.canStore best.maxguid) = true ∧
        (r.awardItem l c best).loot = takeRolled l (r.place l) ∧
        ((r.awardItem l c best).delivered = none ∨ ∃ item guid, l.itemAt (r.place l) = some item ∧
            (r.awardItem l c best).delivered = Loot.delivery (r.place l) item r.itemid guid) ∨
      (c.isOnline best.maxguid && c.canStore best.maxguid) = false ∧
        (r.awardItem l c best).delivered = none ∧
        ((r.awardItem l c best).loot = l ∨
          (r.awardItem l c best).loot = unblock l (r.place l)) := by
    intro best
    unfold awardItem
    rcases c.isOnline best.maxguid with _ | _
    · exact Or.inr ⟨rfl, rfl, Or.inl rfl⟩
    rcases c.canStore best.maxguid with _ | _
    · exact Or.inr ⟨rfl, rfl, Or.inr rfl⟩
    refine Or.inl ⟨rfl, rfl, ?_⟩
    cases there : l.itemAt (r.place l) with
    | none => exact Or.inl rfl
    | some item => exact Or.inr ⟨item, best.maxguid, rfl, rfl⟩
  unfold count takes
  cases r.playerVote.toList with
  | nil =>
    by_cases need : r.totalNeed > 0
    · simp [need]
    · by_cases greed : r.totalGreed > 0
      · simp [need, greed]
      · simp [need, greed]
  | cons first rest =>
    by_cases need : r.totalNeed > 0
    · simp only [if_pos need]
      exact award _
    by_cases greed : r.totalGreed > 0
    · simp only [if_neg need, if_pos greed]
      cases vote : (r.search c isGreedy first.1).rollvote with
      | greed => simpa using award (r.search c isGreedy first.1)
      | disenchant =>
        cases online : c.isOnline (r.search c isGreedy first.1).maxguid with
        | false =>
          refine Or.inr ⟨by simp, ?_, Or.inl ?_⟩
          · simp [awardDisenchant, online]
          · simp [awardDisenchant, online]
        | true =>
          refine Or.inl ⟨by simp, ?_, Or.inl ?_⟩
          · simp [awardDisenchant, online]
          · simp [awardDisenchant, online]
      | _ =>
        refine Or.inr ⟨?_, rfl, Or.inl rfl⟩
        cases c.isOnline (r.search c isGreedy first.1).maxguid <;> rfl
    · simp [need, greed]

end Roll

/-- Conditions on what is about to happen to a loot: its filling, a slot that is stored from, a slot
that is given away, a roll that is counted. -/
structure LootGuard where
  filled : Filling → Bool
  stored : List UInt32 → Loot → UInt64 → UInt8 → (LootItem → Bool) → Bool
  given : List UInt32 → Loot → UInt8 → (LootItem → Bool) → LootFilter → Bool
  counted : List UInt32 → Roll → Loot → Roll.Chance → Bool

namespace LootGuard

def CountMeets (g : LootGuard) (w : LootWorld) (roll : Roll) (c : Roll.Chance) : Prop :=
  ∀ id ∈ roll.loot, ∀ l ∈ w.loots id, g.counted (w.filledFor id) roll l c

/-- The guard of the rolls that `EndRoll` counts, one after the other. -/
def EndMeets (g : LootGuard) (id : LootId) (c : Nat → Roll.Chance) : Nat → LootWorld → Prop
  | 0, _ => True
  | n + 1, w =>
    ∀ i ∈ w.rolls.findIdx? fun r => r.loot = some id,
      (∀ roll ∈ w.rolls[i]?, g.CountMeets w roll (c n)) ∧
        EndMeets g id c n (w.countTheRoll i true (c n))

def Meets (g : LootGuard) (w : LootWorld) : LootWorld.Event → Prop
  | .fill id filling => w.loots id = none → g.filled filling
  | .storeLootItem id player lootSlot canStore =>
    ∀ l ∈ w.loots id, g.stored (w.filledFor id) l player lootSlot canStore
  | .lootMasterGive id player _ slotid canStore filter =>
    player = w.looterGuid → ∀ l ∈ w.loots id, g.given (w.filledFor id) l slotid canStore filter
  | .lootRoll player itemGUID rollType chance =>
    ∀ found ∈ w.votedRoll player itemGUID, (found.2.castVote player rollType).allVoted →
      g.CountMeets w (found.2.castVote player rollType) chance
  | .endRoll id chance => g.EndMeets id chance w.rolls.length w
  | _ => True

instance (g : LootGuard) (w : LootWorld) (roll : Roll) (c : Roll.Chance) :
    Decidable (g.CountMeets w roll c) :=
  inferInstanceAs (Decidable (∀ id ∈ roll.loot, ∀ l ∈ w.loots id, _))

instance decidableEndMeets (g : LootGuard) (id : LootId) (c : Nat → Roll.Chance) :
    ∀ (n : Nat) (w : LootWorld), Decidable (g.EndMeets id c n w)
  | 0, _ => isTrue True.intro
  | n + 1, w =>
    have _ := fun i => decidableEndMeets g id c n (w.countTheRoll i true (c n))
    inferInstanceAs (Decidable (∀ i ∈ w.rolls.findIdx? fun r => r.loot = some id,
      (∀ roll ∈ w.rolls[i]?, g.CountMeets w roll (c n)) ∧
        g.EndMeets id c n (w.countTheRoll i true (c n))))

instance (g : LootGuard) (w : LootWorld) : ∀ e, Decidable (g.Meets w e)
  | .fill id _ =>
    have : Decidable (w.loots id = none) := decidable_of_iff _ Option.isNone_iff_eq_none
    inferInstanceAs (Decidable (w.loots id = none → _))
  | .storeLootItem id .. => inferInstanceAs (Decidable (∀ l ∈ w.loots id, _))
  | .lootMasterGive id .. => inferInstanceAs (Decidable (_ → ∀ l ∈ w.loots id, _))
  | .lootRoll player itemGUID .. =>
    inferInstanceAs (Decidable (∀ found ∈ w.votedRoll player itemGUID, _ → _))
  | .endRoll .. => inferInstanceAs (Decidable (g.EndMeets _ _ _ w))
  | .groupLoot .. | .needBeforeGreed .. | .removeMember _ | .clear _ | .setLooterGuid _ =>
    isTrue True.intro

end LootGuard

namespace LootWorld

def deliveriesOf (w : LootWorld) (id : LootId) : List Delivery :=
  w.delivered.filterMap fun d => if d.1 = id then some d.2 else none

/-- Every loot, with what was delivered from it, has its property; from a loot that
does not exist nothing was delivered. -/
def EachLoot (J : LootId → List UInt32 → Loot → List Delivery → Prop) (w : LootWorld) : Prop :=
  ∀ id, match w.loots id with
    | none => w.deliveriesOf id = []
    | some l => J id (w.filledFor id) l (w.deliveriesOf id)

/-- `I` is kept by everything that can happen under the guard to a loot that was
filled for some players. -/
structure LootRule (store : ItemStore) (g : LootGuard) (players : List UInt32)
    (I : Loot → List Delivery → Prop) : Prop where
  stored : ∀ l ds player lootSlot canStore, I l ds →
    g.stored players l player lootSlot canStore → I (l.storeLootItem player lootSlot canStore).1
      (ds ++ (l.storeLootItem player lootSlot canStore).2.toList)
  given : ∀ l ds target slotid canStore filter, I l ds →
    g.given players l slotid canStore filter → I (l.lootMasterGive target slotid canStore filter).1
      (ds ++ (l.lootMasterGive target slotid canStore filter).2.toList)
  counted : ∀ (r : Roll) l ds c, I l ds → g.counted players r l c →
    I (r.count l c).loot (ds ++ (r.count l c).delivered.toList)
  started : ∀ (group : LootGroup) newItemGUID id needBeforeGreed l ds, I l ds →
    I (group.startRolls store newItemGUID id needBeforeGreed l).1 ds
  cleared : ∀ l ds, I l ds → I .empty ds

section Rule

variable {store : ItemStore} {g : LootGuard}
  {J : LootId → List UInt32 → Loot → List Delivery → Prop} {w : LootWorld}

theorem deliveriesOf_update (id i : LootId) (l : Loot) (ds : List Delivery) :
    (w.update id l ds).deliveriesOf i = w.deliveriesOf i ++ if id = i then ds else [] := by
  change (w.delivered ++ ds.map fun d => (id, d)).filterMap _ = _
  rw [List.filterMap_append, List.filterMap_map]
  congr 1
  by_cases same : id = i
  · simp [same]
  · simp [same]

variable {id : LootId}

theorem EachLoot.update (each : EachLoot J w) {l l' : Loot} {ds : List Delivery}
    (isLoot : w.loots id = some l)
    (keeps : ∀ old, J id (w.filledFor id) l old → J id (w.filledFor id) l' (old ++ ds)) :
    EachLoot J (w.update id l' ds) := by
  intro i
  rw [deliveriesOf_update]
  by_cases same : id = i
  · subst same
    have before := each id
    rw [isLoot] at before
    have after : (w.update id l' ds).loots id = some l' := if_pos rfl
    rw [after, if_pos rfl]
    exact keeps _ before
  · have unchanged : (w.update id l' ds).loots i = w.loots i := if_neg fun h => same h.symm
    rw [unchanged, if_neg same, List.append_nil]
    exact each i

theorem EachLoot.setLoot (each : EachLoot J w) {l l' : Loot} (isLoot : w.loots id = some l)
    (keeps : ∀ old, J id (w.filledFor id) l old → J id (w.filledFor id) l' old) :
    EachLoot J (w.setLoot id l') := by
  have sameLog : w.setLoot id l' = w.update id l' [] := by simp [LootWorld.update, LootWorld.setLoot]
  rw [sameLog]
  exact each.update isLoot fun old holds => by
    rw [List.append_nil]
    exact keeps old holds

theorem EachLoot.onLoot (each : EachLoot J w) {call : Loot → Loot × Option Delivery}
    (keeps : ∀ l, w.loots id = some l → ∀ old, J id (w.filledFor id) l old →
      J id (w.filledFor id) (call l).1 (old ++ (call l).2.toList)) :
    EachLoot J (w.onLoot id call) := by
  unfold LootWorld.onLoot
  split
  · exact each
  · rename_i l isLoot
    exact each.update isLoot (keeps l isLoot)

section

variable (rule : ∀ id players, LootRule store g players (J id players))

include rule

theorem EachLoot.countTheRoll (each : EachLoot J w) {i : Nat} {byTimer : Bool} {c : Roll.Chance}
    (meets : ∀ roll ∈ w.rolls[i]?, g.CountMeets w roll c) :
    EachLoot J (w.countTheRoll i byTimer c) := by
  unfold LootWorld.countTheRoll
  split
  · exact each
  rename_i roll atI
  dsimp only
  split
  · exact each
  rename_i id link
  split
  · exact each
  rename_i l isLoot
  have guarded := meets roll atI id link l isLoot
  have erased : EachLoot J { w with rolls := w.rolls.eraseIdx i } := each
  exact erased.update isLoot fun old holds =>
    (rule id (w.filledFor id)).counted roll l old c holds guarded

theorem EachLoot.endRolls {c : Nat → Roll.Chance} (n : Nat) :
    ∀ {w : LootWorld}, EachLoot J w → g.EndMeets id c n w → EachLoot J (w.endRolls id c n) := by
  induction n with
  | zero => exact fun each _ => each
  | succ n ih =>
    intro w each meets
    unfold LootWorld.endRolls
    split
    · exact each
    · rename_i i first
      obtain ⟨now, later⟩ := meets i first
      exact ih (each.countTheRoll rule now) later

theorem EachLoot.startRolls (each : EachLoot J w) {group : LootGroup} {newItemGUID : UInt8 → UInt64}
    {needBeforeGreed : Bool} :
    EachLoot J (w.startRolls id (group.startRolls store newItemGUID id needBeforeGreed)) := by
  unfold LootWorld.startRolls
  split
  · exact each
  · rename_i l isLoot
    exact each.setLoot isLoot fun old holds =>
      (rule id (w.filledFor id)).started group newItemGUID id needBeforeGreed l old holds

/-- **One event keeps the property of each loot** when it meets the guard and a
loot that it fills starts with the property. -/
theorem EachLoot.step (each : EachLoot J w) {e : Event} (meets : g.Meets w e)
    (filled : ∀ id filling, e = .fill id filling → w.loots id = none → g.filled filling →
      J id (filling.players.map FillPlayer.low) (filling.fillLoot store).1
        (filling.fillLoot store).2) : EachLoot J (step store w e) := by
  cases e with
  | fill id filling =>
    simp only [LootWorld.step]
    split
    · exact each
    rename_i isNone
    intro i
    by_cases same : id = i
    · subst same
      have nothing := each id
      rw [isNone] at nothing
      have starts := filled id filling rfl isNone (meets isNone)
      have log : (w.update id (filling.fillLoot store).1
          (filling.fillLoot store).2).deliveriesOf id = (filling.fillLoot store).2 := by
        rw [deliveriesOf_update, nothing, if_pos rfl, List.nil_append]
      change match (if id = id then some (filling.fillLoot store).1 else w.loots id) with
        | none => _
        | some l => J id (if id = id then filling.players.map FillPlayer.low else _) l
            ((w.update id (filling.fillLoot store).1 (filling.fillLoot store).2).deliveriesOf id)
      rw [if_pos rfl, if_pos rfl, log]
      exact starts
    · have log : (w.update id (filling.fillLoot store).1
          (filling.fillLoot store).2).deliveriesOf i = w.deliveriesOf i := by
        rw [deliveriesOf_update, if_neg same, List.append_nil]
      have other : ¬ i = id := fun h => same h.symm
      change match (if i = id then some (filling.fillLoot store).1 else w.loots i) with
        | none => (w.update id (filling.fillLoot store).1
            (filling.fillLoot store).2).deliveriesOf i = []
        | some l => J i (if i = id then filling.players.map FillPlayer.low else _) l
            ((w.update id (filling.fillLoot store).1 (filling.fillLoot store).2).deliveriesOf i)
      rw [if_neg other, if_neg other, log]
      exact each i
  | storeLootItem id player lootSlot canStore =>
    exact each.onLoot fun l isLoot old holds =>
      (rule id (w.filledFor id)).stored l old player lootSlot canStore holds (meets l isLoot)
  | lootMasterGive id player target slotid canStore filter =>
    simp only [LootWorld.step]
    split
    · exact each
    rename_i isLooter
    have guarded := meets (not_not.mp isLooter)
    exact each.onLoot fun l isLoot old holds =>
      (rule id (w.filledFor id)).given l old target slotid canStore filter holds (guarded l isLoot)
  | groupLoot id group newItemGUID => exact each.startRolls rule
  | needBeforeGreed id group newItemGUID => exact each.startRolls rule
  | lootRoll player itemGUID rollType chance =>
    change EachLoot J (w.countRollVote player itemGUID rollType chance)
    unfold countRollVote
    split
    · exact each
    rename_i i roll found
    have inRange : i < w.rolls.length :=
      (List.getElem?_eq_some_iff.mp (votedRoll_eq_some found).1).1
    have guarded := meets (i, roll) found
    split
    · rename_i isOver
      have written : EachLoot J
          { w with rolls := w.rolls.set i (roll.castVote player rollType) } := each
      refine written.countTheRoll rule fun roll' atI => ?_
      have isCast : roll' = roll.castVote player rollType := by
        simpa [List.getElem?_set_self inRange] using Eq.symm atI
      subst isCast
      exact guarded isOver
    · exact each
  | removeMember guid => exact each
  | endRoll id chance => exact each.endRolls rule _ meets
  | clear id =>
    simp only [LootWorld.step, LootWorld.clear]
    split
    · exact each
    · rename_i l isLoot
      exact each.setLoot isLoot fun old holds =>
        (rule id (w.filledFor id)).cleared l old holds
  | setLooterGuid guid => exact each

end

theorem eachLoot_start (looterGuid : UInt64) : EachLoot J (start looterGuid) := fun _ => rfl

end Rule

end LootWorld

end Sky548
