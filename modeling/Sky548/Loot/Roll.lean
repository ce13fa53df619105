import Sky548.Groups.Group
import Sky548.Loot.Model
import Sky548.OrdMap

/-!
# Loot rolls

`Roll` (`Group.h`), how `Group::GroupLoot` and `Group::NeedBeforeGreed` start
one, how `Group::CountRollVote` and `Group::RemoveMember` keep its tallies, and
how `Group::CountTheRoll` ends it.

`playerVote` is ordered by GUID; the tallies are `uint8` counters beside it. The
random numbers, who is online and what the winner's bags say come from outside.
-/

namespace Sky548

inductive RollVote
  | pass
  | need
  | greed
  | disenchant
  | notEmitedYet
  | notValid
  deriving DecidableEq, Repr

def rollFlagTypeNeed : UInt8 := 0x02

def rollFlagTypeDisenchant : UInt8 := 0x08

def rollAllTypeNoDisenchant : UInt8 := 0x07

/-- A loot object from one filling to its removal; refilled, it is another one. -/
abbrev LootId := Nat

/-- `Roll`; `loot` is the link to its loot, which is cut when the loot goes. -/
structure Roll where
  itemGUID : UInt64
  itemid : UInt32
  playerVote : OrdMap UInt64 RollVote
  totalPlayersRolling : UInt8
  totalNeed : UInt8
  totalGreed : UInt8
  totalPass : UInt8
  itemSlot : UInt8
  rollVoteMask : UInt8
  loot : Option LootId
  deriving DecidableEq

namespace Roll

def isValid (r : Roll) : Bool := r.loot.isSome

def voteOfType (choice : UInt8) : Option RollVote :=
  if choice = 0 then some .pass
  else if choice = 1 then some .need
  else if choice = 2 then some .greed
  else if choice = 3 then some .disenchant
  else none

/-- The tally that a vote adds to. -/
def bump (r : Roll) : RollVote → Roll
  | .pass => { r with totalPass := r.totalPass + 1 }
  | .need => { r with totalNeed := r.totalNeed + 1 }
  | .greed | .disenchant => { r with totalGreed := r.totalGreed + 1 }
  | .notEmitedYet | .notValid => r

/-- The switch of `CountRollVote` for a listed player: the tally goes up and the
vote is overwritten, whatever it was. -/
def castVote (r : Roll) (playerGUID : UInt64) (choice : UInt8) : Roll :=
  match voteOfType choice with
  | none => r
  | some vote => { r.bump vote with playerVote := r.playerVote.insert playerGUID vote }

/-- The test after the switch; the sums are of ints. -/
def allVoted (r : Roll) : Bool :=
  r.totalPass.toNat + r.totalNeed.toNat + r.totalGreed.toNat ≥ r.totalPlayersRolling.toNat

/-- The loop body of `RemoveMember` for one roll. The `CountRollVote` call that
follows finds no vote of the player any more and returns. -/
def removeVoter (r : Roll) (guid : UInt64) : Roll :=
  match r.playerVote.find? guid with
  | none => r
  | some vote =>
    { r with
      totalGreed := if vote = .greed ∨ vote = .disenchant then r.totalGreed - 1 else r.totalGreed
      totalNeed := if vote = .need then r.totalNeed - 1 else r.totalNeed
      totalPass := if vote = .pass then r.totalPass - 1 else r.totalPass
      totalPlayersRolling :=
        if vote ≠ .notValid then r.totalPlayersRolling - 1 else r.totalPlayersRolling
      playerVote := r.playerVote.erase guid }

/-- What `CountTheRoll` gets from outside: `urand(1, 100)` for each voter, whom
`FindPlayer` finds with a session, and whose `CanStoreNewItem` succeeds. -/
structure Chance where
  urand : UInt64 → Fin 100
  isOnline : UInt64 → Bool
  canStore : UInt64 → Bool

/-- The number of a voter, from 1 to 100. -/
def Chance.randomN (c : Chance) (guid : UInt64) : UInt8 := UInt8.ofNat ((c.urand guid).val + 1)

/-- `maxguid`, `maxresul` and `rollvote` of the search loops. -/
structure Best where
  maxguid : UInt64
  maxresul : UInt8
  rollvote : RollVote
  deriving DecidableEq, Repr

/-- One turn of the search: voters who did not ask are skipped, and a tie stays
with the earlier one. -/
def better (c : Chance) (asks : RollVote → Bool) (best : Best) (e : UInt64 × RollVote) : Best :=
  if !asks e.2 then best
  else if best.maxresul < c.randomN e.1 then ⟨e.1, c.randomN e.1, e.2⟩
  else best

/-- The search loop; its start is the first entry of the map with the number 0. -/
def search (r : Roll) (c : Chance) (asks : RollVote → Bool) (first : UInt64) : Best :=
  r.playerVote.toList.foldl (better c asks) ⟨first, 0, .notValid⟩

def isNeed : RollVote → Bool
  | .need => true
  | _ => false

def isGreedy : RollVote → Bool
  | .greed | .disenchant => true
  | _ => false

/-- How a roll ended. A winner receives the entry unless he is offline or has no
room for it. -/
inductive Outcome
  | allPassed
  | noVoters
  | won (guid : UInt64) (number : UInt8) (received : Bool)
  deriving DecidableEq, Repr

/-- What is left after a roll: the loot, how the roll ended, what was delivered. -/
structure Ending where
  loot : Loot
  outcome : Outcome
  delivered : Option Delivery

def place (r : Roll) (l : Loot) : LootPlace := l.slotPlace r.itemSlot.toNat

/-- `item->is_looted = true; --unlootedCount` -/
def takeRolled (l : Loot) (place : LootPlace) : Loot :=
  (l.modifyAt place fun item => { item with isLooted := true }).decUnlooted

def unblock (l : Loot) (place : LootPlace) : Loot :=
  l.modifyAt place fun item => { item with isBlocked := false }

/-- The award of the entry itself, to the winner of a need or a greed roll. -/
def awardItem (r : Roll) (l : Loot) (c : Chance) (best : Best) : Ending :=
  if !c.isOnline best.maxguid then ⟨l, .won best.maxguid best.maxresul false, none⟩
  else if c.canStore best.maxguid then
    ⟨takeRolled l (r.place l), .won best.maxguid best.maxresul true,
      (l.itemAt (r.place l)).bind fun item =>
        Loot.delivery (r.place l) item r.itemid best.maxguid⟩
  else ⟨unblock l (r.place l), .won best.maxguid best.maxresul false, none⟩

def awardDisenchant (r : Roll) (l : Loot) (c : Chance) (best : Best) : Ending :=
  if !c.isOnline best.maxguid then ⟨l, .won best.maxguid best.maxresul false, none⟩
  else ⟨takeRolled l (r.place l), .won best.maxguid best.maxresul true, none⟩

def count (r : Roll) (l : Loot) (c : Chance) : Ending :=
  if r.totalNeed > 0 then
    match r.playerVote.toList with
    | [] => ⟨l, .noVoters, none⟩
    | first :: _ => r.awardItem l c (r.search c isNeed first.1)
  else if r.totalGreed > 0 then
    match r.playerVote.toList with
    | [] => ⟨l, .noVoters, none⟩
    | first :: _ =>
      let best := r.search c isGreedy first.1
      match best.rollvote with
      | .greed => r.awardItem l c best
      | .disenchant => r.awardDisenchant l c best
      | _ => ⟨l, .won best.maxguid best.maxresul false, none⟩
  else ⟨unblock l (r.place l), .allPassed, none⟩

end Roll

/-- A group member with a session, as the roll starts see him. -/
structure GroupLooter where
  guid : UInt64
  isNear : Bool
  passOnGroupLoot : Bool
  filter : LootFilter

structure LootGroup where
  members : List GroupLooter
  lootThreshold : UInt32
  maxEnchantingLevel : UInt32
  nodup : (members.map GroupLooter.guid).Nodup
  size_le : members.length ≤ maxRaidSize

namespace LootGroup

/-- The members who roll for an entry. -/
def rollers (g : LootGroup) (item : LootItem) : List GroupLooter :=
  g.members.filter fun m => item.allowedForPlayer m.filter && m.isNear

/-- The loop body over the members: one more player rolls, a passing one with
his vote cast. -/
def enroll (autoPass : Bool) (r : Roll) (m : GroupLooter) : Roll :=
  let r := { r with totalPlayersRolling := r.totalPlayersRolling + 1 }
  if autoPass && m.passOnGroupLoot then
    { r with playerVote := r.playerVote.insert m.guid .pass, totalPass := r.totalPass + 1 }
  else { r with playerVote := r.playerVote.insert m.guid .notEmitedYet }

/-- `Roll(newitemGUID, *i)` and the loop over the members. -/
def newRoll (g : LootGroup) (autoPass : Bool) (itemGUID : UInt64) (item : LootItem) : Roll :=
  (g.rollers item).foldl (enroll autoPass)
    { itemGUID := itemGUID
      itemid := item.itemid
      playerVote := .empty
      totalPlayersRolling := 0
      totalNeed := 0
      totalGreed := 0
      totalPass := 0
      itemSlot := 0
      rollVoteMask := rollAllTypeNoDisenchant
      loot := none }

theorem newRoll_rollVoteMask (g : LootGroup) (autoPass : Bool) (itemGUID : UInt64)
    (item : LootItem) :
    (g.newRoll autoPass itemGUID item).rollVoteMask = rollAllTypeNoDisenchant := by
  refine List.foldlRecOn (motive := fun r : Roll => r.rollVoteMask = _) _ _ rfl fun r same m _ => ?_
  unfold enroll
  split <;> exact same

def rollMask (g : LootGroup) (needBeforeGreed : Bool) (proto : ItemTemplate) : UInt8 :=
  let mask :=
    if proto.disenchantID ≠ 0 ∧ g.maxEnchantingLevel ≥ proto.requiredDisenchantSkill then
      rollAllTypeNoDisenchant ||| rollFlagTypeDisenchant
    else rollAllTypeNoDisenchant
  if needBeforeGreed && proto.needRollDisabled then mask &&& ~~~ rollFlagTypeNeed else mask

/-- The loop body over `items`: the entry afterwards, and the roll started for
it. `GroupLoot` and `NeedBeforeGreed` differ in the vote mask. -/
def startItemRoll (g : LootGroup) (store : ItemStore) (newItemGUID : UInt8 → UInt64)
    (id : LootId) (needBeforeGreed : Bool) (itemSlot : Nat) (item : LootItem) :
    LootItem × Option Roll :=
  if item.freeforall then (item, none)
  else match store item.itemid with
    -- `NeedBeforeGreed` does not look for this, and needs not: `AddItem` does
    | none => (item, none)
    | some proto =>
      if proto.quality ≥ g.lootThreshold then
        let slot := UInt8.ofNat itemSlot
        let r := g.newRoll true (newItemGUID slot) item
        if r.totalPlayersRolling > 0 then
          ({ item with isBlocked := true },
            some { r with
              loot := some id
              itemSlot := slot
              rollVoteMask := g.rollMask needBeforeGreed proto })
        else (item, none)
      else ({ item with isUnderthreshold := true }, none)

/-- The loop body over `quest_items`: only entries that follow the loot rules,
and nobody passes in advance. -/
def startQuestRoll (g : LootGroup) (store : ItemStore) (newItemGUID : UInt8 → UInt64)
    (id : LootId) (itemSlot : Nat) (item : LootItem) : LootItem × Option Roll :=
  if !item.followLootRules then (item, none)
  else match store item.itemid with
    | none => (item, none)
    | some _ =>
      let slot := UInt8.ofNat itemSlot
      let r := g.newRoll false (newItemGUID slot) item
      if r.totalPlayersRolling > 0 then
        ({ item with isBlocked := true },
          some { r with loot := some id, itemSlot := slot })
      else (item, none)

/-- The two loops of a roll start, each over entries that the other turns leave
alone. -/
def startRolls (g : LootGroup) (store : ItemStore) (newItemGUID : UInt8 → UInt64)
    (id : LootId) (needBeforeGreed : Bool) (l : Loot) : Loot × List Roll :=
  let items := l.items.mapIdx (g.startItemRoll store newItemGUID id needBeforeGreed)
  let questItems := l.questItems.mapIdx fun i =>
    g.startQuestRoll store newItemGUID id (l.items.length + i)
  ({ l with items := items.map Prod.fst, questItems := questItems.map Prod.fst },
    items.filterMap Prod.snd ++ questItems.filterMap Prod.snd)

theorem mem_startRolls {g : LootGroup} {store : ItemStore} {newItemGUID : UInt8 → UInt64}
    {id : LootId} {needBeforeGreed : Bool} {l : Loot} {r : Roll}
    (member : r ∈ (g.startRolls store newItemGUID id needBeforeGreed l).2) :
    ∃ autoPass itemGUID item slot mask,
      r = { g.newRoll autoPass itemGUID item with
        loot := some id, itemSlot := slot, rollVoteMask := mask } ∧
      (mask = rollAllTypeNoDisenchant ∨ ∃ proto, mask = g.rollMask needBeforeGreed proto) := by
  rcases List.mem_append.mp member with ofItems | ofQuest
  · obtain ⟨e, isTurn, isRoll⟩ := List.mem_filterMap.mp ofItems
    obtain ⟨i, inRange, rfl⟩ := List.mem_mapIdx.mp isTurn
    unfold startItemRoll at isRoll
    split at isRoll
    · cases isRoll
    split at isRoll
    · cases isRoll
    rename_i proto _
    split at isRoll
    · dsimp only at isRoll
      split at isRoll
      · cases isRoll
        exact ⟨true, _, _, _, _, rfl, Or.inr ⟨proto, rfl⟩⟩
      · cases isRoll
    · cases isRoll
  · obtain ⟨e, isTurn, isRoll⟩ := List.mem_filterMap.mp ofQuest
    obtain ⟨i, inRange, rfl⟩ := List.mem_mapIdx.mp isTurn
    unfold startQuestRoll at isRoll
    split at isRoll
    · cases isRoll
    split at isRoll
    · cases isRoll
    dsimp only at isRoll
    split at isRoll
    · cases isRoll
      exact ⟨false, _, _, _, _, rfl, Or.inl (newRoll_rollVoteMask g false _ _)⟩
    · cases isRoll

def groupLoot (g : LootGroup) (store : ItemStore) (newItemGUID : UInt8 → UInt64) (id : LootId)
    (l : Loot) : Loot × List Roll :=
  g.startRolls store newItemGUID id false l

def needBeforeGreed (g : LootGroup) (store : ItemStore) (newItemGUID : UInt8 → UInt64)
    (id : LootId) (l : Loot) : Loot × List Roll :=
  g.startRolls store newItemGUID id true l

end LootGroup

end Sky548
