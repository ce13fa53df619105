import Sky548.KeyedList
import Sky548.Multimap

/-!
# The queue for battlegrounds

Groups in the queue are objects: `groups` holds those there are, by their address. What the code
leaves undefined is noted (`misused`): a group that is not there, an iterator that is used with
another list or moved past its end, the last of an empty list.

The selection pools are emptied before each use, so they are not kept. Which groups are selected for
a battleground that runs is left open.
-/

namespace Sky548

inductive Team
  | alliance
  | horde
  | neutral
  deriving DecidableEq

/-- Which of the four lists of a bracket: the index is made up of these two. -/
structure QueueGroupType where
  normal : Bool
  horde : Bool
  deriving DecidableEq

abbrev BG_QUEUE_PREMADE_ALLIANCE : QueueGroupType := ⟨false, false⟩
abbrev BG_QUEUE_PREMADE_HORDE : QueueGroupType := ⟨false, true⟩
abbrev BG_QUEUE_NORMAL_ALLIANCE : QueueGroupType := ⟨true, false⟩
abbrev BG_QUEUE_NORMAL_HORDE : QueueGroupType := ⟨true, true⟩

abbrev BattlegroundBracketId := Fin 17

def INVITE_ACCEPT_WAIT_TIME : Nat := 90000

structure GroupQueueInfo where
  players : List Nat
  team : Team
  leaderGUID : Nat
  isRated : Bool
  joinTime : Nat
  removeInviteTime : Nat
  isInvitedToBGInstanceGUID : Nat
  teamMatchmakerRating : Nat
  deriving DecidableEq

structure PlayerQueueInfo where
  guid : Nat
  groupInfo : Nat
  deriving DecidableEq

structure SelectionPool where
  selectedGroups : List Nat
  playerCount : Nat

structure BattlegroundQueue where
  groups : Nat → Option GroupQueueInfo
  next : Nat
  queuedPlayers : KeyedList PlayerQueueInfo PlayerQueueInfo.guid
  queuedGroups : BattlegroundBracketId → QueueGroupType → List Nat
  misused : Bool

def SelectionPool.init : SelectionPool := ⟨[], 0⟩

namespace BattlegroundQueue

variable (q : BattlegroundQueue)

def initial : BattlegroundQueue where
  groups := fun _ => none
  next := 0
  queuedPlayers := KeyedList.empty
  queuedGroups := fun _ _ => []
  misused := false

/-- Whether something is true of the group at an address -/
def is (p : GroupQueueInfo → Bool) (ginfo : Nat) : Bool := (q.groups ginfo).any p

def isInvited (ginfo : Nat) : Bool := q.is (fun group => group.isInvitedToBGInstanceGUID ≠ 0) ginfo

def size (ginfo : Nat) : Nat := (q.groups ginfo).elim 0 fun group => group.players.length

def setList (bracketId : BattlegroundBracketId) (index : QueueGroupType) (list : List Nat) :
    BattlegroundQueue :=
  { q with
    queuedGroups := fun b i =>
      if b = bracketId ∧ i = index then list else q.queuedGroups b i }

def put (ginfo : Nat) (group : GroupQueueInfo) : BattlegroundQueue :=
  { q with groups := Function.update q.groups ginfo (some group) }

def playerMap (members : List Nat) : List Nat :=
  members.foldl (fun players guid => if guid ∈ players then players else insertBy id guid players) []

/-- `AddGroup`, with the members besides the leader that join with him -/
def addGroup (bracketId : BattlegroundBracketId) (leader : Nat) (team : Team) (others : List Nat)
    (isRated isPremade : Bool) (joinTime matchmakerRating : Nat) : BattlegroundQueue :=
  let members := leader :: others
  let ginfo := q.next
  let index : QueueGroupType := ⟨!isRated && !isPremade, team = .horde⟩
  let q : BattlegroundQueue := { q with
    groups := Function.update q.groups ginfo
      (some ⟨playerMap members, team, leader, isRated, joinTime, 0, 0, matchmakerRating⟩)
    next := q.next + 1
    queuedPlayers := members.foldl (fun players guid => players.insert ⟨guid, ginfo⟩) q.queuedPlayers }
  q.setList bracketId index (q.queuedGroups bracketId index ++ [ginfo])

/-- The search for a group in the lists of a team, from the highest bracket down -/
def locate (ginfo : Nat) (team : Team) : Option (BattlegroundBracketId × QueueGroupType) :=
  (List.finRange 17).reverse.findSome? fun bracketId =>
    ([⟨false, team = .horde⟩, ⟨true, team = .horde⟩].filter fun index =>
      ginfo ∈ q.queuedGroups bracketId index).getLast?.map fun index => (bracketId, index)

/-- `RemovePlayer`, which for a rated team goes on with the next player, for as many turns as there
are players. -/
def removePlayers : Nat → BattlegroundQueue → Nat → BattlegroundQueue
  | 0, q, _ => q
  | turns + 1, q, guid =>
    match q.queuedPlayers.find? guid with
    | none => q
    | some info =>
      match q.groups info.groupInfo with
      | none => { q with misused := true }
      | some group =>
        match q.locate info.groupInfo group.team with
        | none => q
        | some (bracketId, index) =>
          let group := { group with players := group.players.erase guid }
          let q := { q.put info.groupInfo group with
            queuedPlayers := q.queuedPlayers.erase guid }
          match group.players with
          | [] =>
            { q.setList bracketId index ((q.queuedGroups bracketId index).erase info.groupInfo) with
              groups := Function.update q.groups info.groupInfo none }
          | player :: _ =>
            if group.isInvitedToBGInstanceGUID = 0 ∧ group.isRated then
              removePlayers turns q player
            else q

def removePlayer (guid : Nat) : BattlegroundQueue := removePlayers q.queuedPlayers.size q guid

def isPlayerInvited (guid bgInstanceGuid removeTime : Nat) : Bool :=
  (q.queuedPlayers.find? guid).any fun info =>
    q.is (fun group => group.isInvitedToBGInstanceGUID = bgInstanceGuid &&
      group.removeInviteTime = removeTime) info.groupInfo

def inviteGroupToBG (ginfo bg : Nat) (side : Team) (now : Nat) : BattlegroundQueue :=
  match q.groups ginfo with
  | none => { q with misused := true }
  | some group =>
    let group := { group with team := side }
    if group.isInvitedToBGInstanceGUID = 0 then
      q.put ginfo { group with
        isInvitedToBGInstanceGUID := bg
        removeInviteTime := (now + INVITE_ACCEPT_WAIT_TIME) % 2 ^ 32 }
    else q.put ginfo group

def inviteSelected (bg now : Nat) (ginfo : Nat) : BattlegroundQueue :=
  match q.groups ginfo with
  | none => { q with misused := true }
  | some group => q.inviteGroupToBG ginfo bg group.team now

def inviteAll (bg now : Nat) (selected : List Nat) : BattlegroundQueue :=
  selected.foldl (fun q ginfo => q.inviteSelected bg now ginfo) q

/-- `SelectionPool::AddGroup`, with whether to go on -/
def select (pool : SelectionPool) (ginfo desiredCount : Nat) : SelectionPool × Bool :=
  if !q.isInvited ginfo ∧ desiredCount ≥ pool.playerCount + q.size ginfo then
    (⟨pool.selectedGroups ++ [ginfo], pool.playerCount + q.size ginfo⟩, true)
  else (pool, pool.playerCount < desiredCount)

/-- Groups that are not invited are selected as long as there is room. -/
def selectFrom (desiredCount : Nat) (pool : SelectionPool) : List Nat → SelectionPool
  | [] => pool
  | ginfo :: rest =>
    if q.isInvited ginfo then selectFrom desiredCount pool rest
    else
      match q.select pool ginfo desiredCount with
      | (pool, true) => selectFrom desiredCount pool rest
      | (pool, false) => pool

/-- Groups that are not invited are selected until there are enough players: the pool, and the list from
the group where that was. -/
def selectUntil (minPlayers maxPlayers : Nat) (pool : SelectionPool) :
    List Nat → SelectionPool × List Nat
  | [] => (pool, [])
  | ginfo :: rest =>
    if q.isInvited ginfo then selectUntil minPlayers maxPlayers pool rest
    else
      let pool := (q.select pool ginfo maxPlayers).1
      if pool.playerCount ≥ minPlayers then (pool, ginfo :: rest)
      else selectUntil minPlayers maxPlayers pool rest

/-- A group goes to the front of another list of the bracket. -/
def moveToFront (bracketId : BattlegroundBracketId) (source target : QueueGroupType) (ginfo : Nat) :
    BattlegroundQueue :=
  let q := q.setList bracketId target (ginfo :: q.queuedGroups bracketId target)
  q.setList bracketId source ((q.queuedGroups bracketId source).erase ginfo)

/-- A premade group that has waited too long, or has become too small, goes to the normal queue. -/
def movePremade (bracketId : BattlegroundBracketId) (minPlayers timeBefore : Nat) (horde : Bool) :
    BattlegroundQueue :=
  match q.queuedGroups bracketId ⟨false, horde⟩ with
  | [] => q
  | ginfo :: _ =>
    if q.is (fun group => group.isInvitedToBGInstanceGUID = 0 &&
        (group.joinTime < timeBefore || group.players.length < minPlayers)) ginfo then
      q.moveToFront bracketId ⟨false, horde⟩ ⟨true, horde⟩ ginfo
    else q

/-- `CheckPremadeMatch`: the pools, if it is possible -/
def checkPremadeMatch (bracketId : BattlegroundBracketId) (minPlayers maxPlayers timeBefore : Nat) :
    BattlegroundQueue × Option (SelectionPool × SelectionPool) :=
  let alliance := (q.queuedGroups bracketId BG_QUEUE_PREMADE_ALLIANCE).find? fun g => !q.isInvited g
  let horde := (q.queuedGroups bracketId BG_QUEUE_PREMADE_HORDE).find? fun g => !q.isInvited g
  match alliance, horde with
  | some ali, some horde =>
    let a := (q.select .init ali maxPlayers).1
    let h := (q.select .init horde maxPlayers).1
    let most := min a.playerCount h.playerCount
    (q, some (q.selectFrom most a (q.queuedGroups bracketId BG_QUEUE_NORMAL_ALLIANCE),
      q.selectFrom most h (q.queuedGroups bracketId BG_QUEUE_NORMAL_HORDE)))
  | _, _ =>
    ((q.movePremade bracketId minPlayers timeBefore false).movePremade bracketId minPlayers
      timeBefore true, none)

/-- `CheckNormalMatch`: the pools, and whether there are enough players in them. The iterator that goes on
is at a group unless no player is needed. -/
def checkNormalMatch (bracketId : BattlegroundBracketId) (minPlayers maxPlayers invitationType : Nat)
    (isTesting : Bool) : BattlegroundQueue × (SelectionPool × SelectionPool) × Bool :=
  let (a, aliRest) := q.selectUntil minPlayers maxPlayers .init
    (q.queuedGroups bracketId BG_QUEUE_NORMAL_ALLIANCE)
  let (h, hordeRest) := q.selectUntil minPlayers maxPlayers .init
    (q.queuedGroups bracketId BG_QUEUE_NORMAL_HORDE)
  if invitationType ≠ 0 ∧ h.playerCount ≥ minPlayers ∧ a.playerCount ≥ minPlayers then
    let (rest, a, h) :=
      if h.playerCount < a.playerCount then
        (hordeRest, a, q.selectFrom a.playerCount h hordeRest.tail)
      else (aliRest, q.selectFrom h.playerCount a aliRest.tail, h)
    let q : BattlegroundQueue := { q with misused := q.misused || rest.isEmpty }
    if h.playerCount > a.playerCount + 2 ∨ a.playerCount > h.playerCount + 2 then (q, (a, h), false)
    else (q, (a, h), true)
  else
    (q, (a, h), isTesting && (a.playerCount ≠ 0 || h.playerCount ≠ 0) ||
      a.playerCount ≥ minPlayers && h.playerCount ≥ minPlayers)

/-- A selected group goes to the other team, and its old entry, somewhere behind `last`, is erased. -/
def changeSides (bracketId : BattlegroundBracketId) (horde : Bool) (last : Nat) (ginfo : Nat) :
    BattlegroundQueue :=
  match q.groups ginfo with
  | none => { q with misused := true }
  | some group =>
    let q := q.put ginfo { group with team := if horde then .alliance else .horde }
    let q := q.setList bracketId ⟨true, !horde⟩ (ginfo :: q.queuedGroups bracketId ⟨true, !horde⟩)
    let list := q.queuedGroups bracketId ⟨true, horde⟩
    q.setList bracketId ⟨true, horde⟩ (list.takeWhile (· ≠ last) ++
        match list.dropWhile (· ≠ last) with
        | [] => []
        | ginfo' :: rest => ginfo' :: rest.erase ginfo)

def checkSkirmishForSameFaction (bracketId : BattlegroundBracketId) (minPlayers : Nat)
    (pools : SelectionPool × SelectionPool) :
    BattlegroundQueue × (SelectionPool × SelectionPool) × Bool :=
  let (a, h) := pools
  if a.playerCount < minPlayers ∧ h.playerCount < minPlayers then (q, pools, false)
  else
    let horde := decide (h.playerCount = minPlayers)
    let ownPool := if horde then h else a
    match ownPool.selectedGroups.getLast? with
    | none => ({ q with misused := true }, pools, false)
    | some last =>
      match (q.queuedGroups bracketId ⟨true, horde⟩).dropWhile (· ≠ last) with
      | [] => (q, if horde then (.init, h) else (a, .init), false)
      | _ :: rest =>
        let otherPool := q.selectFrom minPlayers .init rest
        let pools := if horde then (otherPool, h) else (a, otherPool)
        if otherPool.playerCount ≠ minPlayers then (q, pools, false)
        else
          (otherPool.selectedGroups.foldl
            (fun q ginfo => q.changeSides bracketId horde last ginfo) q, pools, true)

def matchesRating (minRating maxRating discardTime : Nat) (group : GroupQueueInfo) : Bool :=
  group.isInvitedToBGInstanceGUID = 0 &&
    ((group.teamMatchmakerRating ≥ minRating && group.teamMatchmakerRating ≤ maxRating) ||
      group.joinTime < discardTime)

def secondTeam (p : GroupQueueInfo → Bool) (list : List Nat) (first : Nat) : Option Nat :=
  (list.dropWhile (· ≠ first)).find? fun ginfo =>
    q.is (fun group => p group &&
      q.is (fun leading => leading.leaderGUID ≠ group.leaderGUID) first) ginfo

/-- The two teams that play, with the list that each is in -/
def ratedTeams (bracketId : BattlegroundBracketId) (p : GroupQueueInfo → Bool) :
    Option ((Nat × QueueGroupType) × (Nat × QueueGroupType)) :=
  let alliance := q.queuedGroups bracketId BG_QUEUE_PREMADE_ALLIANCE
  let horde := q.queuedGroups bracketId BG_QUEUE_PREMADE_HORDE
  match alliance.find? (q.is p), horde.find? (q.is p) with
  | some first, some second =>
    some ((first, BG_QUEUE_PREMADE_ALLIANCE), (second, BG_QUEUE_PREMADE_HORDE))
  | some first, none =>
    (q.secondTeam p alliance first).map fun second =>
      ((first, BG_QUEUE_PREMADE_ALLIANCE), (second, BG_QUEUE_PREMADE_ALLIANCE))
  | none, some first =>
    (q.secondTeam p horde first).map fun second =>
      ((first, BG_QUEUE_PREMADE_HORDE), (second, BG_QUEUE_PREMADE_HORDE))
  | none, none => none

/-- A team of a rated match goes to the list of its side, out of the other one: the iterator must be one
of that. -/
def moveRated (bracketId : BattlegroundBracketId) (side : Team) (ginfo : Nat) (list : QueueGroupType) :
    BattlegroundQueue :=
  let target : QueueGroupType := ⟨false, side = .horde⟩
  let source : QueueGroupType := ⟨false, side ≠ .horde⟩
  if q.is (fun group => group.team ≠ side) ginfo then
    if list = source then q.moveToFront bracketId source target ginfo
    else { q with misused := true }
  else q

/-- The rating that is looked for, when none is given: that of the team that has waited longest -/
def longestWaiting (bracketId : BattlegroundBracketId) : Option Nat :=
  let front1 := (q.queuedGroups bracketId BG_QUEUE_PREMADE_ALLIANCE).head?.bind q.groups
  let front2 := (q.queuedGroups bracketId BG_QUEUE_PREMADE_HORDE).head?.bind q.groups
  match front1, front2 with
  | some group1, some group2 =>
    some (if group1.joinTime < group2.joinTime then group1.teamMatchmakerRating
      else group2.teamMatchmakerRating)
  | some group1, none => some group1.teamMatchmakerRating
  | none, some group2 => some group2.teamMatchmakerRating
  | none, none => none

/-- What an update is called with, and what it finds: battlegrounds with the groups selected for
them, the template and the configuration. -/
structure Update where
  bracketId : BattlegroundBracketId
  now : Nat
  fills : List (Nat × List Nat)
  hasTemplate : Bool
  isArena : Bool
  ratedType : Nat
  isRated : Bool
  arenaRating : Nat
  minPlayersPerTeam : Nat
  maxPlayersPerTeam : Nat
  isTesting : Bool
  isArenaTesting : Bool
  invitationType : Nat
  premadeWait : Nat
  maxRatingDifference : Nat
  ratingDiscardTimer : Nat
  premadeBattleground : Option Nat
  newBattleground : Option Nat

namespace Update

variable (u : Update)

def minPlayers : Nat :=
  if u.isArena then if u.isArenaTesting then 1 else u.ratedType
  else if u.isTesting then 1 else u.minPlayersPerTeam

def maxPlayers : Nat := if u.isArena then u.ratedType else u.maxPlayersPerTeam

/-- The difference of two times, as a `uint32` -/
def before (time : Nat) : Nat := (u.now + 2 ^ 32 - time) % 2 ^ 32

end Update

/-- The rated branch of `BattlegroundQueueUpdate` -/
def updateRated (u : Update) : BattlegroundQueue :=
  match if u.arenaRating ≠ 0 then some u.arenaRating else q.longestWaiting u.bracketId with
  | none => q
  | some arenaRating =>
    let minRating := arenaRating - u.maxRatingDifference
    let maxRating := (arenaRating + u.maxRatingDifference) % 2 ^ 32
    match q.ratedTeams u.bracketId
        (matchesRating minRating maxRating (u.before u.ratingDiscardTimer)), u.newBattleground with
    | some ((aTeam, aList), (hTeam, hList)), some arena =>
      let q := (q.moveRated u.bracketId .alliance aTeam aList).moveRated u.bracketId .horde hTeam hList
      (q.inviteGroupToBG aTeam arena .alliance u.now).inviteGroupToBG hTeam arena .horde u.now
    | _, _ => q

def updateNormal (u : Update) : BattlegroundQueue :=
  let (q, pools, isNormal) := q.checkNormalMatch u.bracketId u.minPlayers u.maxPlayers
    u.invitationType u.isTesting
  let (q, pools, isMatch) :=
    if isNormal then (q, pools, true)
    else if u.isArena then q.checkSkirmishForSameFaction u.bracketId u.minPlayers pools
    else (q, pools, false)
  match isMatch, u.newBattleground with
  | true, some bg => q.inviteAll bg u.now (pools.1.selectedGroups ++ pools.2.selectedGroups)
  | _, _ => q

def updateBranch (u : Update) : BattlegroundQueue :=
  if !u.isRated then q.updateNormal u
  else if u.isArena then q.updateRated u
  else q

/-- Groups that `FillPlayersToBG` has selected, out of the normal queues, are invited. -/
def fill (bracketId : BattlegroundBracketId) (now : Nat) (bg : Nat) (selected : List Nat) :
    BattlegroundQueue :=
  q.inviteAll bg now (selected.filter fun ginfo =>
    ginfo ∈ q.queuedGroups bracketId BG_QUEUE_NORMAL_ALLIANCE ++
      q.queuedGroups bracketId BG_QUEUE_NORMAL_HORDE)

def battlegroundQueueUpdate (u : Update) : BattlegroundQueue :=
  if [BG_QUEUE_PREMADE_ALLIANCE, BG_QUEUE_PREMADE_HORDE, BG_QUEUE_NORMAL_ALLIANCE,
      BG_QUEUE_NORMAL_HORDE].all fun index => (q.queuedGroups u.bracketId index).isEmpty then q
  else
    let q := u.fills.foldl (fun q running => q.fill u.bracketId u.now running.1 running.2) q
    if !u.hasTemplate then q
    else if u.isArena then q.updateBranch u
    else
      match q.checkPremadeMatch u.bracketId u.minPlayers u.maxPlayers (u.before u.premadeWait),
          u.premadeBattleground with
      | (q, none), _ => q.updateBranch u
      | (q, some _), none => q
      | (q, some (a, h)), some bg =>
        (q.inviteAll bg u.now (a.selectedGroups ++ h.selectedGroups)).updateBranch u

inductive Input
  | addGroup (bracketId : BattlegroundBracketId) (leader : Nat) (team : Team) (others : List Nat)
      (isRated isPremade : Bool) (joinTime matchmakerRating : Nat)
  | removePlayer (guid : Nat)
  | inviteGroupToBG (ginfo bg now : Nat)
  | update (u : Update)
  | inviteEvent
  | removeEvent (guid bgInstanceGuid removeTime : Nat)

/-- **One step**. Groups that are invited are in the queue. -/
def step : Input → BattlegroundQueue
  | .addGroup bracketId leader team others isRated isPremade joinTime matchmakerRating =>
    q.addGroup bracketId leader team others isRated isPremade joinTime matchmakerRating
  | .removePlayer guid => q.removePlayer guid
  | .inviteGroupToBG ginfo bg now =>
    if (q.groups ginfo).isSome then q.inviteSelected bg now ginfo else q
  | .update u => q.battlegroundQueueUpdate u
  | .inviteEvent => q
  | .removeEvent guid bgInstanceGuid removeTime =>
    if q.isPlayerInvited guid bgInstanceGuid removeTime then q.removePlayer guid else q

end BattlegroundQueue

end Sky548
