import Sky548.Loot.Fill
import Sky548.Loot.Roll
import Sky548.Machine

/-!
# A group and its loot

The state machine behind the loot claims: the loots a group comes upon, the
group's open rolls (`RollId`) and its master looter, with every request and timer
that takes an item out of a loot or moves a roll on. Three fields are no state of
the server: `filledFor` has the players a loot was filled for, `delivered` what
has gone into inventories, and `counts` how each counted roll stood when it was
counted.
-/

namespace Sky548

open List

structure RollCount where
  roll : Roll
  chance : Roll.Chance
  byTimer : Bool
  outcome : Roll.Outcome

structure LootWorld where
  loots : LootId → Option Loot
  rolls : List Roll
  looterGuid : UInt64
  filledFor : LootId → List UInt32
  delivered : List (LootId × Delivery)
  counts : List RollCount

namespace LootWorld

def start (looterGuid : UInt64) : LootWorld where
  loots _ := none
  rolls := []
  looterGuid := looterGuid
  filledFor _ := []
  delivered := []
  counts := []

def setLoot (w : LootWorld) (id : LootId) (l : Loot) : LootWorld :=
  { w with loots := fun i => if i = id then some l else w.loots i }

/-- Write back a loot that a call has changed, with what was delivered. -/
def update (w : LootWorld) (id : LootId) (l : Loot) (delivered : List Delivery) : LootWorld :=
  { w.setLoot id l with delivered := w.delivered ++ delivered.map fun d => (id, d) }

def onLoot (w : LootWorld) (id : LootId) (call : Loot → Loot × Option Delivery) : LootWorld :=
  match w.loots id with
  | none => w
  | some l => w.update id (call l).1 (call l).2.toList

def countTheRoll (w : LootWorld) (i : Nat) (byTimer : Bool) (c : Roll.Chance) : LootWorld :=
  match w.rolls[i]? with
  | none => w
  | some roll =>
    let w := { w with rolls := w.rolls.eraseIdx i }
    match roll.loot with
    | none => w
    | some id =>
      match w.loots id with
      | none => w
      | some l =>
        let ending := roll.count l c
        { w.update id ending.loot ending.delivered.toList with
          counts := w.counts ++ [⟨roll, c, byTimer, ending.outcome⟩] }

/-- `GetRoll`: the first valid roll for an item GUID. -/
def getRoll (w : LootWorld) (itemGUID : UInt64) : Option Nat :=
  w.rolls.findIdx? fun r => r.itemGUID = itemGUID && r.isValid

/-- The check of `CountRollVote` that the roll's loot has items. -/
def lootHasItems (w : LootWorld) (r : Roll) : Bool :=
  match r.loot.bind w.loots with
  | none => true
  | some l => l.items ≠ []

/-- The roll that a vote is for: found, with the voter listed, on a loot with
items. -/
def votedRoll (w : LootWorld) (playerGUID itemGUID : UInt64) : Option (Nat × Roll) :=
  match w.getRoll itemGUID with
  | none => none
  | some i =>
    match w.rolls[i]? with
    | none => none
    | some roll =>
      if (roll.playerVote.find? playerGUID).isNone then none
      else if !w.lootHasItems roll then none
      else some (i, roll)

def countRollVote (w : LootWorld) (playerGUID itemGUID : UInt64) (choice : UInt8)
    (c : Roll.Chance) : LootWorld :=
  match w.votedRoll playerGUID itemGUID with
  | none => w
  | some (i, roll) =>
    let w := { w with rolls := w.rolls.set i (roll.castVote playerGUID choice) }
    if (roll.castVote playerGUID choice).allVoted then w.countTheRoll i false c else w

/-- The loop of `EndRoll`, which starts over after each roll it ends; `n` bounds
the turns. -/
def endRolls (id : LootId) (c : Nat → Roll.Chance) : Nat → LootWorld → LootWorld
  | 0, w => w
  | n + 1, w =>
    match w.rolls.findIdx? fun r => r.loot = some id with
    | none => w
    | some i => endRolls id c n (w.countTheRoll i true (c n))

def endRoll (w : LootWorld) (id : LootId) (c : Nat → Roll.Chance) : LootWorld :=
  endRolls id c w.rolls.length w

/-- A roll start on a loot: the loot with its blocked entries, the new rolls
behind the open ones. -/
def startRolls (w : LootWorld) (id : LootId) (start : Loot → Loot × List Roll) : LootWorld :=
  match w.loots id with
  | none => w
  | some l => { w.setLoot id (start l).1 with rolls := w.rolls ++ (start l).2 }

/-- The end of a loot: it is empty, and its rolls lose their link to it. -/
def clear (w : LootWorld) (id : LootId) : LootWorld :=
  match w.loots id with
  | none => w
  | some _ =>
    { w.setLoot id .empty with
      rolls := w.rolls.map fun r => if r.loot = some id then { r with loot := none } else r }

/-- What can happen to a group and its loots. -/
inductive Event
  | fill (id : LootId) (filling : Filling)
  | storeLootItem (id : LootId) (player : UInt64) (lootSlot : UInt8)
      (canStore : LootItem → Bool)
  | lootMasterGive (id : LootId) (player target : UInt64) (slotid : UInt8)
      (canStore : LootItem → Bool) (filter : LootFilter)
  | groupLoot (id : LootId) (group : LootGroup) (newItemGUID : UInt8 → UInt64)
  | needBeforeGreed (id : LootId) (group : LootGroup) (newItemGUID : UInt8 → UInt64)
  | lootRoll (player itemGUID : UInt64) (rollType : UInt8) (chance : Roll.Chance)
  | removeMember (guid : UInt64)
  | endRoll (id : LootId) (chance : Nat → Roll.Chance)
  | clear (id : LootId)
  | setLooterGuid (guid : UInt64)

def step (store : ItemStore) (w : LootWorld) : Event → LootWorld
  | .fill id filling =>
    match w.loots id with
    | some _ => w
    | none =>
      let filled := filling.fillLoot store
      { w.update id filled.1 filled.2 with
        filledFor := fun i =>
          if i = id then filling.players.map FillPlayer.low else w.filledFor i }
  | .storeLootItem id player lootSlot canStore =>
    w.onLoot id fun l => l.storeLootItem player lootSlot canStore
  | .lootMasterGive id player target slotid canStore filter =>
    if player ≠ w.looterGuid then w
    else w.onLoot id fun l => l.lootMasterGive target slotid canStore filter
  | .groupLoot id group newItemGUID =>
    w.startRolls id (group.groupLoot store newItemGUID id)
  | .needBeforeGreed id group newItemGUID =>
    w.startRolls id (group.needBeforeGreed store newItemGUID id)
  | .lootRoll player itemGUID rollType chance => w.countRollVote player itemGUID rollType chance
  | .removeMember guid => { w with rolls := w.rolls.map (·.removeVoter guid) }
  | .endRoll id chance => w.endRoll id chance
  | .clear id => w.clear id
  | .setLooterGuid guid => { w with looterGuid := guid }

theorem setLoot_loots (w : LootWorld) (id : LootId) (l : Loot) (i : LootId) :
    (w.setLoot id l).loots i = if i = id then some l else w.loots i := rfl

theorem setLoot_isSome {w : LootWorld} {id i : LootId} {l : Loot}
    (there : (w.loots i).isSome) : ((w.setLoot id l).loots i).isSome := by
  rw [setLoot_loots]
  split
  · rfl
  · exact there

theorem votedRoll_eq_some {w : LootWorld} {playerGUID itemGUID : UInt64} {i : Nat} {roll : Roll}
    (found : w.votedRoll playerGUID itemGUID = some (i, roll)) :
    w.rolls[i]? = some roll ∧ roll.isValid ∧ ∃ vote, roll.playerVote.find? playerGUID = some vote := by
  unfold votedRoll at found
  split at found
  · cases found
  rename_i j first
  split at found
  · cases found
  rename_i r atJ
  split at found
  · cases found
  rename_i listed
  split at found
  · cases found
  cases found
  refine ⟨atJ, ?_, ?_⟩
  · obtain ⟨inRange, valid, -⟩ := List.findIdx?_eq_some_iff_getElem.mp first
    rw [getElem?_eq_getElem inRange] at atJ
    cases atJ
    simpa using And.right (by simpa using valid)
  · cases vote : roll.playerVote.find? playerGUID with
    | none => simp [vote] at listed
    | some v => exact ⟨v, rfl⟩

/-! ## Invariants of rolls

Most facts about rolls have one shape: a property of the open rolls that starts,
votes and departures keep, and what follows from it for a roll that is counted. -/

/-- `P` holds of every roll and `Q` of every counted roll, where `Vote` is what
is known of a vote. -/
structure RollRule (P : Roll → Prop) (Q : RollCount → Prop) (Vote : Roll → UInt64 → UInt8 → Prop) :
    Prop where
  started : ∀ (group : LootGroup) store newItemGUID id needBeforeGreed l,
    ∀ r ∈ (group.startRolls store newItemGUID id needBeforeGreed l).2, P r
  removed : ∀ r guid, P r → P (r.removeVoter guid)
  cut : ∀ r, P r → P { r with loot := none }
  voted : ∀ r player choice vote, P r → r.playerVote.find? player = some vote →
    Vote r player choice → P (r.castVote player choice)
  countedVote : ∀ r l c, P r → r.allVoted → Q ⟨r, c, false, (r.count l c).outcome⟩
  countedTimer : ∀ r l c, P r → Q ⟨r, c, true, (r.count l c).outcome⟩

/-- The rolls and the counted rolls of a world have their properties, and every
link of a roll leads to a loot. -/
structure RollsInv (P : Roll → Prop) (Q : RollCount → Prop) (w : LootWorld) : Prop where
  rolls : ∀ r ∈ w.rolls, P r
  links : ∀ r ∈ w.rolls, ∀ id, r.loot = some id → (w.loots id).isSome
  counts : ∀ c ∈ w.counts, Q c

def VoteMeets (Vote : Roll → UInt64 → UInt8 → Prop) (w : LootWorld) : Event → Prop
  | .lootRoll player itemGUID rollType _ =>
    ∀ found ∈ w.votedRoll player itemGUID, Vote found.2 player rollType
  | _ => True

instance (Vote : Roll → UInt64 → UInt8 → Prop) [∀ r player choice, Decidable (Vote r player choice)]
    (w : LootWorld) : ∀ e, Decidable (VoteMeets Vote w e)
  | .lootRoll player itemGUID rollType _ =>
    inferInstanceAs (Decidable (∀ found ∈ w.votedRoll player itemGUID, Vote found.2 player rollType))
  | .fill .. | .storeLootItem .. | .lootMasterGive .. | .groupLoot .. | .needBeforeGreed ..
  | .removeMember _ | .endRoll .. | .clear _ | .setLooterGuid _ => isTrue True.intro

section RollRule

variable {P : Roll → Prop} {Q : RollCount → Prop} {Vote : Roll → UInt64 → UInt8 → Prop}
  {w : LootWorld}

theorem RollsInv.update (inv : RollsInv P Q w) (id : LootId) (l : Loot) (ds : List Delivery) :
    RollsInv P Q (w.update id l ds) :=
  ⟨inv.rolls, fun r member i link => setLoot_isSome (inv.links r member i link), inv.counts⟩

theorem RollsInv.onLoot (inv : RollsInv P Q w) (id : LootId)
    (call : Loot → Loot × Option Delivery) : RollsInv P Q (w.onLoot id call) := by
  unfold LootWorld.onLoot
  split
  · exact inv
  · exact inv.update id _ _

theorem RollsInv.countTheRoll (inv : RollsInv P Q w) {i : Nat} {byTimer : Bool} {c : Roll.Chance}
    (counted : ∀ roll l, w.rolls[i]? = some roll → P roll →
      Q ⟨roll, c, byTimer, (roll.count l c).outcome⟩) :
    RollsInv P Q (w.countTheRoll i byTimer c) := by
  have erased : ∀ r ∈ w.rolls.eraseIdx i, r ∈ w.rolls := fun r member =>
    (eraseIdx_sublist w.rolls i).mem member
  have dropped : RollsInv P Q { w with rolls := w.rolls.eraseIdx i } :=
    ⟨fun r member => inv.rolls r (erased r member),
      fun r member => inv.links r (erased r member), inv.counts⟩
  unfold LootWorld.countTheRoll
  split
  · exact inv
  rename_i roll found
  dsimp only
  split
  · exact dropped
  split
  · exact dropped
  rename_i id _ _ l _
  have after := dropped.update id (roll.count l c).loot (roll.count l c).delivered.toList
  refine ⟨after.rolls, after.links, fun c' member => ?_⟩
  rcases List.mem_append.mp member with old | new
  · exact inv.counts c' old
  · rw [List.mem_singleton.mp new]
    exact counted roll l found (inv.rolls roll (mem_of_getElem? found))

theorem RollsInv.endRolls (rule : RollRule P Q Vote) {id : LootId} {c : Nat → Roll.Chance}
    (n : Nat) : ∀ {w : LootWorld}, RollsInv P Q w → RollsInv P Q (w.endRolls id c n) := by
  induction n with
  | zero => exact fun inv => inv
  | succ n ih =>
    intro w inv
    unfold LootWorld.endRolls
    split
    · exact inv
    · exact ih (inv.countTheRoll fun roll l _ holds => rule.countedTimer roll l (c n) holds)

theorem RollsInv.setRoll (inv : RollsInv P Q w) {i : Nat} {roll roll' : Roll}
    (found : w.rolls[i]? = some roll) (holds : P roll') (sameLoot : roll'.loot = roll.loot) :
    RollsInv P Q { w with rolls := w.rolls.set i roll' } := by
  refine ⟨fun r member => ?_, fun r member id link => ?_, inv.counts⟩
  · rcases mem_or_eq_of_mem_set member with old | rfl
    · exact inv.rolls r old
    · exact holds
  · rcases mem_or_eq_of_mem_set member with old | rfl
    · exact inv.links r old id link
    · exact inv.links roll (mem_of_getElem? found) id (sameLoot ▸ link)

theorem castVote_loot (r : Roll) (player : UInt64) (choice : UInt8) :
    (r.castVote player choice).loot = r.loot := by
  unfold Roll.castVote
  split
  · rfl
  · rename_i vote _
    cases vote <;> rfl

theorem RollsInv.countRollVote (rule : RollRule P Q Vote) (inv : RollsInv P Q w)
    {player itemGUID : UInt64} {choice : UInt8} {c : Roll.Chance}
    (meets : ∀ found ∈ w.votedRoll player itemGUID, Vote found.2 player choice) :
    RollsInv P Q (w.countRollVote player itemGUID choice c) := by
  unfold LootWorld.countRollVote
  split
  · exact inv
  rename_i i roll found
  obtain ⟨atI, -, vote, listed⟩ := votedRoll_eq_some found
  have holds := rule.voted roll player choice vote (inv.rolls roll (mem_of_getElem? atI))
    listed (meets (i, roll) found)
  have written := inv.setRoll atI holds (castVote_loot roll player choice)
  split
  · rename_i isOver
    refine written.countTheRoll fun roll' l atI' holds' => ?_
    have inRange : i < w.rolls.length := (List.getElem?_eq_some_iff.mp atI).1
    have isCast : roll' = roll.castVote player choice := by
      simpa [getElem?_set_self inRange] using atI'.symm
    subst isCast
    exact rule.countedVote _ l c holds' isOver
  · exact written

theorem RollsInv.startRolls (rule : RollRule P Q Vote) (inv : RollsInv P Q w) {id : LootId}
    {group : LootGroup} {store : ItemStore} {newItemGUID : UInt8 → UInt64}
    {needBeforeGreed : Bool} :
    RollsInv P Q (w.startRolls id (group.startRolls store newItemGUID id needBeforeGreed)) := by
  unfold LootWorld.startRolls
  split
  · exact inv
  rename_i l _
  have own : ∀ r ∈ (group.startRolls store newItemGUID id needBeforeGreed l).2,
      r.loot = some id := by
    intro r member
    obtain ⟨_, _, _, _, _, rfl, -⟩ := LootGroup.mem_startRolls member
    rfl
  refine ⟨fun r member => ?_, fun r member i link => ?_, inv.counts⟩
  · rcases List.mem_append.mp member with old | new
    · exact inv.rolls r old
    · exact rule.started group store newItemGUID id needBeforeGreed l r new
  rcases List.mem_append.mp member with old | new
  · exact setLoot_isSome (inv.links r old i link)
  · rw [own r new] at link
    cases link
    rw [setLoot_loots, if_pos rfl]
    rfl

theorem RollsInv.step (rule : RollRule P Q Vote) (inv : RollsInv P Q w) {store : ItemStore}
    {e : Event} (meets : VoteMeets Vote w e) : RollsInv P Q (step store w e) := by
  cases e with
  | fill id filling =>
    simp only [LootWorld.step]
    split
    · exact inv
    · have filled := inv.update id (filling.fillLoot store).1 (filling.fillLoot store).2
      exact ⟨filled.rolls, filled.links, filled.counts⟩
  | storeLootItem id player lootSlot canStore => exact inv.onLoot id _
  | lootMasterGive id player target slotid canStore filter =>
    simp only [LootWorld.step]
    split
    · exact inv
    · exact inv.onLoot id _
  | groupLoot id group newItemGUID => exact inv.startRolls rule
  | needBeforeGreed id group newItemGUID => exact inv.startRolls rule
  | lootRoll player itemGUID rollType chance => exact inv.countRollVote rule meets
  | removeMember guid =>
    have sameLoot : ∀ r : Roll, (r.removeVoter guid).loot = r.loot := by
      intro r
      unfold Roll.removeVoter
      split <;> rfl
    refine ⟨fun r member => ?_, fun r member id link => ?_, inv.counts⟩
    · obtain ⟨old, oldMember, rfl⟩ := List.mem_map.mp member
      exact rule.removed old guid (inv.rolls old oldMember)
    · obtain ⟨old, oldMember, rfl⟩ := List.mem_map.mp member
      exact inv.links old oldMember id (sameLoot old ▸ link)
  | endRoll id chance => exact inv.endRolls rule _
  | clear id =>
    simp only [LootWorld.step, LootWorld.clear]
    split
    · exact inv
    refine ⟨fun r member => ?_, fun r member i link => ?_, inv.counts⟩
    · obtain ⟨old, oldMember, rfl⟩ := List.mem_map.mp member
      split
      · exact rule.cut old (inv.rolls old oldMember)
      · exact inv.rolls old oldMember
    · obtain ⟨old, oldMember, rfl⟩ := List.mem_map.mp member
      split at link
      · cases link
      · exact setLoot_isSome (inv.links old oldMember i link)
  | setLooterGuid guid => exact ⟨inv.rolls, inv.links, inv.counts⟩

theorem rollsInv_start (looterGuid : UInt64) : RollsInv P Q (start looterGuid) := by
  refine ⟨fun r member => ?_, fun r member => ?_, fun c member => ?_⟩
  · cases member
  · cases member
  · cases member

end RollRule

end LootWorld

end Sky548
