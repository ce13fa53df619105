import Sky548.Loot.Filling
import Sky548.Loot.Tally

/-!
# Loot is delivered once

An entry of `items` that one person is supposed to loot leaves the loot at most
once, as long as none of the three ways out takes one that is looted already. None
of them makes sure of it by itself: `LootItemInSlot` lets a player's own record of a
conditional entry override the flag of the entry, and neither
`HandleLootMasterGiveOpcode` nor `CountTheRoll` reads the flag.
-/

namespace Sky548

open List Option

open Machine

namespace Roll

/-- The winner of the roll receives the entry itself: he is online and has room for
it, and did not ask to disenchant. -/
def awards (r : Roll) (c : Chance) : Bool :=
  match r.playerVote.toList with
  | [] => false
  | first :: _ =>
    if r.totalNeed > 0 then
      let best := r.search c isNeed first.1
      c.isOnline best.maxguid && c.canStore best.maxguid
    else if r.totalGreed > 0 then
      let best := r.search c isGreedy first.1
      best.rollvote = .greed && c.isOnline best.maxguid && c.canStore best.maxguid
    else false

theorem delivered_count (r : Roll) (l : Loot) (c : Chance) :
    (r.awards c = false ∧ (r.count l c).delivered = none) ∨
      (r.awards c = true ∧ ∃ guid, (r.count l c).delivered = (l.itemAt (r.place l)).bind fun item =>
          Loot.delivery (r.place l) item r.itemid guid) := by
  have award : ∀ best : Best, ((c.isOnline best.maxguid && c.canStore best.maxguid) = false ∧
        (r.awardItem l c best).delivered = none) ∨
      ((c.isOnline best.maxguid && c.canStore best.maxguid) = true ∧
        ∃ guid, (r.awardItem l c best).delivered = (l.itemAt (r.place l)).bind fun item =>
          Loot.delivery (r.place l) item r.itemid guid) := by
    intro best
    unfold awardItem
    rcases c.isOnline best.maxguid with _ | _
    · exact Or.inl ⟨rfl, rfl⟩
    cases c.canStore best.maxguid with
    | false => exact Or.inl ⟨rfl, rfl⟩
    | true => exact Or.inr ⟨rfl, best.maxguid, rfl⟩
  unfold count awards
  cases r.playerVote.toList with
  | nil =>
    by_cases need : r.totalNeed > 0
    · simp [need]
    · by_cases greed : r.totalGreed > 0
      · simp [need, greed]
      · simp [need, greed]
  | cons first rest =>
    by_cases need : r.totalNeed > 0
    · simp only [if_pos need]
      exact award _
    by_cases greed : r.totalGreed > 0
    · simp only [if_neg need, if_pos greed]
      cases vote : (r.search c isGreedy first.1).rollvote with
      | greed => simpa using award (r.search c isGreedy first.1)
      | disenchant =>
        refine Or.inl ⟨by simp, ?_⟩
        dsimp only
        unfold awardDisenchant
        split <;> rfl
      | _ => exact Or.inl ⟨by simp, rfl⟩
    · simp [need, greed]

end Roll

/-- Taking the entry out of this place does no harm: it is nobody's alone, or it is
still there, or its count is gone. -/
def LootPlace.fresh (place : LootPlace) (item : LootItem) : Bool :=
  !place.isShared item || !item.isLooted || item.count = 0

theorem LootPlace.freeforall_of_isShared {place : LootPlace} {item : LootItem}
    (shared : place.isShared item) : item.freeforall = false := by
  cases place with
  | item i => simpa [LootPlace.isShared] using shared
  | questItem i => cases shared

/-- **The guard of delivery**: no way out takes an entry that is looted. -/
def onceGuard : LootGuard where
  filled _ := true
  stored _ l player lootSlot canStore :=
    (l.storable player lootSlot canStore).all fun found => found.place.fresh found.item
  given _ l slotid canStore filter :=
    (l.givable slotid canStore filter).all (l.slotPlace slotid.toNat).fresh
  counted _ r l c := !r.awards c || (l.itemAt (r.place l)).all (r.place l).fresh

/-- What was delivered of shared entries was not looted before, and comes from
places that are all different. -/
structure Once (ds : List Delivery) : Prop where
  unlooted : ∀ d ∈ ds, d.isShared → d.entry.isLooted = false
  nodup : ((ds.filter Delivery.isShared).map Delivery.place).Nodup

instance (ds : List Delivery) : Decidable (Once ds) :=
  decidable_of_iff ((∀ d ∈ ds, d.isShared → d.entry.isLooted = false) ∧
    ((ds.filter Delivery.isShared).map Delivery.place).Nodup)
    ⟨fun both => ⟨both.1, both.2⟩, fun once => ⟨once.unlooted, once.nodup⟩⟩

structure DeliveredFrom (l : Loot) (ds : List Delivery) : Prop where
  once : Once ds
  gone : ∀ d ∈ ds, d.isShared → ∀ item, l.itemAt d.place = some item → item.isLooted

namespace DeliveredFrom

variable {l l' : Loot} {ds : List Delivery}

theorem of_follows (delivered : DeliveredFrom l ds) (follows : l.Follows l') :
    DeliveredFrom l' ds := by
  refine ⟨delivered.once, fun d member shared item' there' => ?_⟩
  obtain ⟨item, there, same⟩ := follows.entry' d.place there'
  exact same.looted (delivered.gone d member shared item there)

theorem of_none_shared (noneShared : ∀ d ∈ ds, d.isShared = false) : DeliveredFrom l ds := by
  have never : ∀ d ∈ ds, ¬ d.isShared := by
    intro d member shared
    rw [noneShared d member] at shared
    cases shared
  refine ⟨⟨fun d member shared => absurd shared (never d member), ?_⟩,
    fun d member shared => absurd shared (never d member)⟩
  rw [List.filter_eq_nil_iff.mpr never]
  exact nodup_nil

theorem push (delivered : DeliveredFrom l ds) {place : LootPlace} {item : LootItem}
    {itemid : UInt32} {player : UInt64} (there : l.itemAt place = some item)
    (fresh : place.fresh item) (marked : DeliveredFrom l' ds)
    (taken : place.isShared item → ∀ item', l'.itemAt place = some item' → item'.isLooted) :
    DeliveredFrom l' (ds ++ (Loot.delivery place item itemid player).toList) := by
  unfold Loot.delivery
  split
  · rw [toList_none, append_nil]
    exact marked
  rename_i counted
  rw [toList_some]
  cases shared : place.isShared item with
  | false =>
    have notShared : ¬ Delivery.isShared ⟨place, player, itemid, item⟩ := by
      change ¬ place.isShared item
      rw [shared]
      decide
    refine ⟨⟨fun d member isShared => ?_, ?_⟩, fun d member isShared => ?_⟩
    · rcases List.mem_append.mp member with old | new
      · exact marked.once.unlooted d old isShared
      · rw [List.mem_singleton.mp new] at isShared
        exact absurd isShared notShared
    · rw [filter_append, filter_cons_of_neg notShared, filter_nil, append_nil]
      exact marked.once.nodup
    · rcases List.mem_append.mp member with old | new
      · exact marked.gone d old isShared
      · rw [List.mem_singleton.mp new] at isShared
        exact absurd isShared notShared
  | true =>
    have isShared : Delivery.isShared ⟨place, player, itemid, item⟩ := shared
    have unlooted : item.isLooted = false := by
      unfold LootPlace.fresh at fresh
      simpa [shared, counted] using fresh
    -- what was delivered before is looted, so it lies elsewhere
    have elsewhere : ∀ d ∈ ds, d.isShared → d.place ≠ place := by
      intro d member isShared same
      have looted := delivered.gone d member isShared item (same ▸ there)
      rw [unlooted] at looted
      cases looted
    refine ⟨⟨fun d member sharedToo => ?_, ?_⟩, fun d member sharedToo => ?_⟩
    · rcases List.mem_append.mp member with old | new
      · exact marked.once.unlooted d old sharedToo
      · rw [List.mem_singleton.mp new]
        exact unlooted
    · rw [filter_append, filter_cons_of_pos isShared, filter_nil, map_append, nodup_append]
      refine ⟨marked.once.nodup, nodup_singleton _, fun p inOld q isNew => ?_⟩
      obtain ⟨d, member, rfl⟩ := List.mem_map.mp inOld
      obtain ⟨member, sharedToo⟩ := List.mem_filter.mp member
      rw [List.mem_singleton.mp isNew]
      exact elsewhere d member sharedToo
    · rcases List.mem_append.mp member with old | new
      · exact marked.gone d old sharedToo
      · rw [List.mem_singleton.mp new]
        exact taken shared

end DeliveredFrom

namespace Loot

variable {l : Loot}

theorem itemAt_storeFound_looted {player : UInt32} {found : SlotItem} {item : LootItem}
    (shared : found.item.freeforall = false)
    (there : (l.storeFound player found).itemAt found.place = some item) : item.isLooted := by
  rw [storeFound_eq] at there
  change ((l.lootEntry found).markRecord player found.record).itemAt found.place = _ at there
  unfold lootEntry at there
  rw [itemAt_markRecord, if_neg (by rw [shared]; decide), itemAt_modifyAt, if_pos rfl] at there
  obtain ⟨old, -, rfl⟩ := Option.map_eq_some_iff.mp there
  rfl

theorem itemAt_storeFound (l : Loot) (player : UInt32) (found : SlotItem) (place : LootPlace) :
    (l.storeFound player found).itemAt place = (l.lootEntry found).itemAt place := by
  rw [storeFound_eq]
  exact itemAt_markRecord (l.lootEntry found) player found.record place

end Loot

namespace DeliveredFrom

variable {l : Loot} {ds : List Delivery}

theorem stored (delivered : DeliveredFrom l ds) {player : UInt64}
    {lootSlot : UInt8} {canStore : LootItem → Bool}
    (fresh : (l.storable player lootSlot canStore).all fun found => found.place.fresh found.item) :
    DeliveredFrom (l.storeLootItem player lootSlot canStore).1
      (ds ++ (l.storeLootItem player lootSlot canStore).2.toList) := by
  rw [Loot.storeLootItem_eq]
  cases isStorable : l.storable player lootSlot canStore with
  | none =>
    rw [toList_none, append_nil]
    exact delivered
  | some found =>
    have finds := Loot.storable_eq_some isStorable
    rw [isStorable] at fresh
    have marked : DeliveredFrom (l.storeFound (guidLoPart player) found) ds := by
      refine ⟨delivered.once, fun d member shared item there => ?_⟩
      rw [Loot.itemAt_storeFound] at there
      exact (delivered.of_follows (Loot.follows_lootEntry l found)).gone d member shared item there
    refine delivered.push finds.itemAt fresh marked fun shared item' there' => ?_
    exact Loot.itemAt_storeFound_looted (LootPlace.freeforall_of_isShared shared) there'

theorem given (delivered : DeliveredFrom l ds) {target : UInt64} {slotid : UInt8}
    {canStore : LootItem → Bool} {filter : LootFilter}
    (fresh : (l.givable slotid canStore filter).all (l.slotPlace slotid.toNat).fresh) :
    DeliveredFrom (l.lootMasterGive target slotid canStore filter).1
      (ds ++ (l.lootMasterGive target slotid canStore filter).2.toList) := by
  have marked := delivered.of_follows (Loot.follows_lootMasterGive l target slotid canStore filter)
  rw [Loot.lootMasterGive_eq] at marked ⊢
  cases isGivable : l.givable slotid canStore filter with
  | none =>
    rw [toList_none, append_nil]
    exact delivered
  | some item =>
    rw [isGivable] at fresh marked
    refine delivered.push (Loot.givable_eq_some isGivable) fresh marked fun _ item' there' => ?_
    change (l.modifyAt _ _).itemAt _ = _ at there'
    rw [Loot.itemAt_modifyAt, if_pos rfl] at there'
    obtain ⟨old, -, rfl⟩ := Option.map_eq_some_iff.mp there'
    rfl

theorem counted (delivered : DeliveredFrom l ds) {r : Roll} {c : Roll.Chance}
    (fresh : !r.awards c || (l.itemAt (r.place l)).all (r.place l).fresh) :
    DeliveredFrom (r.count l c).loot (ds ++ (r.count l c).delivered.toList) := by
  have marked := delivered.of_follows (Loot.follows_count r l c)
  rcases r.delivered_count l c with ⟨-, nothing⟩ | ⟨awards, guid, isDelivered⟩
  · rw [nothing, toList_none, append_nil]
    exact marked
  cases there : l.itemAt (r.place l) with
  | none =>
    rw [isDelivered, there, bind_none, toList_none, append_nil]
    exact marked
  | some item =>
    rw [awards, there] at fresh
    rcases Roll.count_cases r l c with ⟨-, isTaken, -⟩ | ⟨-, nothing, -⟩
    · rw [isDelivered, there, bind_some]
      refine delivered.push there fresh marked fun _ item' there' => ?_
      rw [isTaken] at there'
      change (l.modifyAt _ _).itemAt _ = _ at there'
      rw [Loot.itemAt_modifyAt, if_pos rfl] at there'
      obtain ⟨old, -, rfl⟩ := Option.map_eq_some_iff.mp there'
      rfl
    · rw [nothing, toList_none, append_nil]
      exact marked

end DeliveredFrom

namespace LootWorld

/-- Every shared entry of a loot is delivered once at most, and not after it was
looted. -/
def DeliversOnce (w : LootWorld) : Prop := ∀ id, Once (w.deliveriesOf id)

theorem deliveredRule (store : ItemStore) (players : List UInt32) :
    LootRule store onceGuard players DeliveredFrom where
  stored _ _ _ _ _ delivered fresh := delivered.stored fresh
  given _ _ _ _ _ _ delivered fresh := delivered.given fresh
  counted _ _ _ _ delivered fresh := delivered.counted fresh
  started group newItemGUID id needBeforeGreed l _ delivered :=
    delivered.of_follows
      (Loot.reflags_startRolls group store newItemGUID id needBeforeGreed l).follows
  cleared _ _ delivered := by
    refine ⟨delivered.once, fun d member shared item there => ?_⟩
    have nothing : ∀ place, Loot.empty.itemAt place = none := fun place => by cases place <;> rfl
    rw [nothing] at there
    cases there

theorem deliversOnce_of_eachLoot {w : LootWorld}
    (each : EachLoot (fun _ _ => DeliveredFrom) w) : w.DeliversOnce := by
  intro id
  have holds := each id
  split at holds
  · rw [holds]
    exact ⟨fun d member => (by cases member), nodup_nil⟩
  · exact holds.once

/-- A shared entry was delivered after it was looted. -/
def Spoilt (ds : List Delivery) : Prop := ∃ d ∈ ds, d.isShared ∧ d.entry.isLooted

theorem Spoilt.not_deliversOnce {w : LootWorld} {id : LootId} (spoilt : Spoilt (w.deliveriesOf id)) :
    ¬ w.DeliversOnce := by
  intro once
  obtain ⟨d, member, shared, looted⟩ := spoilt
  rw [(once id).unlooted d member shared] at looted
  cases looted

theorem Spoilt.mono {ds ds' : List Delivery} (spoilt : Spoilt ds) (sub : ds ⊆ ds') :
    Spoilt ds' := by
  obtain ⟨d, member, looted⟩ := spoilt
  exact ⟨d, sub member, looted⟩

theorem spoilt_delivery {place : LootPlace} {item : LootItem} (stale : ¬ place.fresh item)
    (itemid : UInt32) (player : UInt64) :
    Spoilt (Loot.delivery place item itemid player).toList := by
  unfold LootPlace.fresh at stale
  rw [Bool.or_eq_true, Bool.or_eq_true, not_or, not_or] at stale
  obtain ⟨⟨shared, looted⟩, counted⟩ := stale
  unfold Loot.delivery
  rw [if_neg (by simpa using counted)]
  refine ⟨_, mem_singleton_self _, ?_, by simpa using looted⟩
  change place.isShared item
  simpa using shared

variable {w : LootWorld}

theorem spoilt_update {id : LootId} {l : Loot} {ds : List Delivery} (spoilt : Spoilt ds) :
    Spoilt ((w.update id l ds).deliveriesOf id) := by
  rw [deliveriesOf_update, if_pos rfl]
  exact spoilt.mono (subset_append_right _ _)

theorem spoilt_onLoot {id : LootId} {l : Loot} {call : Loot → Loot × Option Delivery}
    (isLoot : w.loots id = some l) (spoilt : Spoilt (call l).2.toList) :
    Spoilt ((w.onLoot id call).deliveriesOf id) := by
  unfold onLoot
  rw [isLoot]
  exact spoilt_update spoilt

theorem spoilt_countTheRoll {i : Nat} {roll : Roll} {c : Roll.Chance}
    (atI : w.rolls[i]? = some roll) (unmet : ¬ onceGuard.CountMeets w roll c) (byTimer : Bool) :
    ∃ id, Spoilt ((w.countTheRoll i byTimer c).deliveriesOf id) := by
  unfold LootGuard.CountMeets at unmet
  push Not at unmet
  obtain ⟨id, link, l, isLoot, stale⟩ := unmet
  have stale : ¬ (!roll.awards c || (l.itemAt (roll.place l)).all (roll.place l).fresh) := stale
  rw [Bool.or_eq_true, not_or] at stale
  obtain ⟨awards, stale⟩ := stale
  unfold countTheRoll
  rw [atI]
  dsimp only
  rw [Option.mem_def.mp link]
  dsimp only
  rw [Option.mem_def.mp isLoot]
  refine ⟨id, spoilt_update (w := { w with rolls := w.rolls.eraseIdx i })
    (l := (roll.count l c).loot) ?_⟩
  rcases roll.delivered_count l c with ⟨notAwarded, -⟩ | ⟨-, guid, isDelivered⟩
  · rw [notAwarded] at awards
    exact absurd rfl awards
  cases there : l.itemAt (roll.place l) with
  | none =>
    rw [there] at stale
    exact absurd rfl stale
  | some item =>
    rw [isDelivered, there]
    rw [there] at stale
    exact spoilt_delivery stale roll.itemid guid

theorem deliveriesOf_countTheRoll_subset (w : LootWorld) (i : Nat) (byTimer : Bool)
    (c : Roll.Chance) (id : LootId) :
    w.deliveriesOf id ⊆ (w.countTheRoll i byTimer c).deliveriesOf id := by
  unfold countTheRoll
  split
  · exact List.Subset.refl _
  dsimp only
  split
  · exact List.Subset.refl _
  split
  · exact List.Subset.refl _
  rename_i roll _ _ k _ _ l _
  change _ ⊆ LootWorld.deliveriesOf (LootWorld.update
    { w with rolls := w.rolls.eraseIdx i } k (roll.count l c).loot
    (roll.count l c).delivered.toList) id
  rw [deliveriesOf_update]
  exact subset_append_left _ _

theorem deliveriesOf_endRolls_subset (id : LootId) (c : Nat → Roll.Chance) (n : Nat) :
    ∀ (w : LootWorld) (i : LootId), w.deliveriesOf i ⊆ (w.endRolls id c n).deliveriesOf i := by
  induction n with
  | zero => exact fun w i => List.Subset.refl _
  | succ n ih =>
    intro w i
    unfold endRolls
    split
    · exact List.Subset.refl _
    · exact List.Subset.trans (deliveriesOf_countTheRoll_subset w _ true (c n) i) (ih _ i)

theorem spoilt_endRolls {id : LootId} {c : Nat → Roll.Chance} (n : Nat) :
    ∀ {w : LootWorld}, ¬ onceGuard.EndMeets id c n w →
      ∃ i, Spoilt ((w.endRolls id c n).deliveriesOf i) := by
  induction n with
  | zero => exact fun unmet => absurd True.intro unmet
  | succ n ih =>
    intro w unmet
    unfold LootGuard.EndMeets at unmet
    push Not at unmet
    obtain ⟨i, first, unmet⟩ := unmet
    unfold endRolls
    rw [Option.mem_def.mp first]
    by_cases now : ∀ roll ∈ w.rolls[i]?, onceGuard.CountMeets w roll (c n)
    · exact ih (unmet now)
    push Not at now
    obtain ⟨roll, atI, unmet⟩ := now
    obtain ⟨k, spoilt⟩ := spoilt_countTheRoll atI unmet true
    exact ⟨k, spoilt.mono (deliveriesOf_endRolls_subset id c n _ k)⟩

theorem not_deliversOnce_of_unmet {store : ItemStore} {e : Event}
    (unmet : ¬ onceGuard.Meets w e) : ¬ (step store w e).DeliversOnce := by
  cases e with
  | fill id filling => exact absurd (fun _ => rfl) unmet
  | storeLootItem id player lootSlot canStore =>
    simp only [LootGuard.Meets, not_forall] at unmet
    obtain ⟨l, isLoot, stale⟩ := unmet
    refine (spoilt_onLoot isLoot ?_).not_deliversOnce
    rw [Loot.storeLootItem_eq]
    unfold onceGuard at stale
    dsimp only at stale
    cases isStorable : l.storable player lootSlot canStore with
    | none =>
      rw [isStorable] at stale
      exact absurd rfl stale
    | some found =>
      rw [isStorable] at stale
      exact spoilt_delivery stale _ _
  | lootMasterGive id player target slotid canStore filter =>
    simp only [LootGuard.Meets, not_forall] at unmet
    obtain ⟨isLooter, l, isLoot, stale⟩ := unmet
    simp only [step, isLooter, ne_eq, not_true_eq_false, if_false]
    refine (spoilt_onLoot isLoot ?_).not_deliversOnce
    rw [Loot.lootMasterGive_eq]
    unfold onceGuard at stale
    dsimp only at stale
    cases isGivable : l.givable slotid canStore filter with
    | none =>
      rw [isGivable] at stale
      exact absurd rfl stale
    | some item =>
      rw [isGivable] at stale
      exact spoilt_delivery stale _ _
  | lootRoll player itemGUID rollType chance =>
    simp only [LootGuard.Meets, not_forall] at unmet
    obtain ⟨⟨i, roll⟩, found, isOver, unmet⟩ := unmet
    have inRange : i < w.rolls.length :=
      (List.getElem?_eq_some_iff.mp (votedRoll_eq_some found).1).1
    change ¬ (w.countRollVote player itemGUID rollType chance).DeliversOnce
    unfold countRollVote
    rw [Option.mem_def.mp found]
    dsimp only at isOver ⊢
    rw [if_pos isOver]
    obtain ⟨id, spoilt⟩ := spoilt_countTheRoll
      (w := { w with rolls := w.rolls.set i (roll.castVote player rollType) })
      (getElem?_set_self inRange) unmet false
    exact spoilt.not_deliversOnce
  | endRoll id chance =>
    obtain ⟨k, spoilt⟩ := spoilt_endRolls _ unmet
    exact spoilt.not_deliversOnce
  | _ => exact absurd True.intro unmet

/-- **Every shared entry is delivered once at most throughout a run exactly when nothing takes out a
looted one**: the entry's own flag is read in one case of three. -/
theorem throughout_deliversOnce_iff_fresh (store : ItemStore) (looterGuid : UInt64)
    (events : List Event) :
    Throughout (step store) DeliversOnce (start looterGuid) events ↔
      EachStep (step store) onceGuard.Meets (start looterGuid) events :=
  throughout_iff_eachStep (I := EachLoot fun _ _ => DeliveredFrom) (eachLoot_start looterGuid)
    (fun _ => deliversOnce_of_eachLoot)
    (fun _ _ each meets => each.step (fun _ => deliveredRule store) meets
      fun _ filling _ _ _ => .of_none_shared (filling.filled_fillLoot store).2)
    fun _ _ _ unmet => not_deliversOnce_of_unmet unmet

namespace ConditionalTwice

theorem ownerIn : SecondVote.filling.owner.low ∈
    [SecondVote.player 1, SecondVote.player 2].map FillPlayer.low := by
  simp [SecondVote.filling, FillPlayer.low, SecondVote.player]

/-- A sword that both players of a free for all group may loot under a condition. -/
def filling : Filling :=
  { SecondVote.filling with
    drops := [(⟨50, [7], false⟩, 1)]
    group := some ⟨⟨.freeForAll, 0, 2⟩, [SecondVote.player 1, SecondVote.player 2],
      SecondVote.nodup_players⟩
    ownerIn := fun _ isGroup => Option.some.inj isGroup ▸ ownerIn }

def events : List Event :=
  [.fill 0 filling, .storeLootItem 0 1 0 fun _ => true, .storeLootItem 0 2 0 fun _ => true]

end ConditionalTwice

/-- The own record of player 2 hides from him that player 1 has looted the entry. -/
theorem not_deliversOnce_of_conditional_twice :
    ¬ Throughout (step SecondVote.store) DeliversOnce (start 0) ConditionalTwice.events := by
  intro holds
  have once := holds.last 0
  revert once
  decide

end LootWorld

end Sky548
