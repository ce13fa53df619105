import Mathlib.Data.List.Infix
import Sky548.Groups.Group
import Sky548.Lfg.Roles

/-!
# The dungeon finder queue

`LFGQueue` (`LFGQueue.cpp`) with the proposals that its search creates in `LFGMgr`: queue data by
GUID of a player or a group, two lists of queued GUIDs, and a cache of compatibilities under the
texts of GUID sets. What a search asks the manager for (states, ignore lists, random numbers, the
time) comes in an `LfgEnv`.
-/

namespace Sky548

def lfgTimeProposal : Nat := 45

inductive LfgState
  | none
  | rolecheck
  | queued
  | proposal
  | boot
  | dungeon
  | finishedDungeon
  | raidbrowser
  deriving DecidableEq, Repr

inductive LfgCompatibility
  | pending
  | wrongGroupSize
  | tooMuchPlayers
  | multipleLfgGroups
  | hasIgnores
  | noRoles
  | noDungeons
  | withLessPlayers
  | badStates
  | isMatch
  deriving DecidableEq, Repr

/-- `compatibles < LFG_COMPATIBLES_WITH_LESS_PLAYERS` -/
def LfgCompatibility.isIncompatible : LfgCompatibility → Bool
  | .withLessPlayers | .badStates | .isMatch => false
  | _ => true

inductive LfgAnswer
  | pending
  | deny
  | agree
  deriving DecidableEq, Repr

inductive LfgProposalState
  | initiating
  | failed
  | success
  deriving DecidableEq, Repr

abbrev LfgDungeonSet := OrdMap UInt32 Unit

/-- `LfgQueueData`, as `JoinLfg` and the role check leave it: there is a dungeon, a group that joins
has five members at most, and the roles of a full one fit. -/
structure LfgQueueData where
  dungeons : LfgDungeonSet
  roles : LfgRolesMap
  dungeons_ne : dungeons.keys ≠ []
  roles_le : roles.size ≤ maxGroupSize
  roles_full : roles.size = maxGroupSize → roles.checkGroupRoles.1 = true

theorem oneDungeon_ne : (OrdMap.empty.insert 1 () : LfgDungeonSet).keys ≠ [] := by decide

structure LfgProposalPlayer where
  role : UInt8
  accept : LfgAnswer
  group : UInt64
  deriving DecidableEq, Repr

structure LfgProposal where
  id : UInt32
  dungeonId : UInt32
  state : LfgProposalState
  group : UInt64
  leader : UInt64
  cancelTime : Nat
  isNew : Bool
  queues : List UInt64
  players : OrdMap UInt64 LfgProposalPlayer

/-- What the manager says while a queue is searched. -/
structure LfgEnv where
  state : UInt64 → LfgState
  oldState : UInt64 → LfgState
  /-- the ignore list of a player that `FindPlayer` finds -/
  ignored : UInt64 → Option (List UInt32)
  /-- random numbers for the proposal of an id -/
  urand : UInt32 → UInt64 → Nat
  now : Nat

namespace LfgEnv

def isLfgGroup (env : LfgEnv) (guid : UInt64) : Bool :=
  guid ≠ 0 && isGroupGuid guid && env.oldState guid ≠ .none

attribute [local instance] lawfulBEqUInt32 in
def hasIgnore (env : LfgEnv) (guid1 guid2 : UInt64) : Bool :=
  match env.ignored guid1, env.ignored guid2 with
  | some list1, some list2 => guidLoPart guid2 ∈ list1 || guidLoPart guid1 ∈ list2
  | _, _ => false

theorem hasIgnore_comm (env : LfgEnv) (guid1 guid2 : UInt64) :
    env.hasIgnore guid1 guid2 = env.hasIgnore guid2 guid1 := by
  unfold hasIgnore
  rcases env.ignored guid1 with _ | list1
  · cases env.ignored guid2 <;> rfl
  cases env.ignored guid2 with
  | none => rfl
  | some list2 => exact Bool.or_comm _ _

def allQueued (env : LfgEnv) (check : List UInt64) : Bool :=
  check ≠ [] && check.all fun guid => env.state guid = .queued

end LfgEnv

def guidText (guid : UInt64) : List Char := Nat.toDigits 10 guid.toNat

def guidSet (check : List UInt64) : OrdMap UInt64 Unit :=
  check.foldl (fun guids guid => guids.insert guid ()) .empty

def concatenateGuids (check : List UInt64) : List Char :=
  List.intercalate ['|'] ((guidSet check).keys.map guidText)

/-- `LFGQueue`. A key that is not in `CompatibleMapStore` counts as pending. -/
structure LFGQueue where
  queueDataStore : OrdMap UInt64 LfgQueueData
  compatibleMapStore : List Char → LfgCompatibility
  currentQueueStore : List UInt64
  newToQueueStore : List UInt64

namespace LFGQueue

def empty : LFGQueue where
  queueDataStore := .empty
  compatibleMapStore _ := .pending
  currentQueueStore := []
  newToQueueStore := []

def setCompatibles (q : LFGQueue) (key : List Char) (compatibles : LfgCompatibility) : LFGQueue :=
  { q with compatibleMapStore := fun k => if k = key then compatibles else q.compatibleMapStore k }

def getCompatibles (q : LFGQueue) (key : List Char) : LfgCompatibility :=
  q.compatibleMapStore key

/-- `RemoveFromCompatibles`: every key goes in which the text of the GUID is found. -/
def removeFromCompatibles (q : LFGQueue) (guid : UInt64) : LFGQueue :=
  { q with
    compatibleMapStore := fun k =>
      if guidText guid <:+: k then .pending else q.compatibleMapStore k }

def removeAll (list : List UInt64) (guid : UInt64) : List UInt64 := list.filter (· ≠ guid)

def removeFromNewQueue (q : LFGQueue) (guid : UInt64) : LFGQueue :=
  { q with newToQueueStore := removeAll q.newToQueueStore guid }

def removeFromCurrentQueue (q : LFGQueue) (guid : UInt64) : LFGQueue :=
  { q with currentQueueStore := removeAll q.currentQueueStore guid }

def addToCurrentQueue (q : LFGQueue) (guid : UInt64) : LFGQueue :=
  { q with currentQueueStore := q.currentQueueStore ++ [guid] }

def addToNewQueue (q : LFGQueue) (guid : UInt64) : LFGQueue :=
  { q with newToQueueStore := q.newToQueueStore ++ [guid] }

def addToQueue (q : LFGQueue) (guid : UInt64) : LFGQueue :=
  match q.queueDataStore.find? guid with
  | none => q
  | some _ => q.addToNewQueue guid

def removeFromQueue (q : LFGQueue) (guid : UInt64) : LFGQueue :=
  let q' := ((q.removeFromNewQueue guid).removeFromCurrentQueue guid).removeFromCompatibles guid
  { q' with queueDataStore := q.queueDataStore.erase guid }

def addQueueData (q : LFGQueue) (guid : UInt64) (data : LfgQueueData) : LFGQueue :=
  { q with queueDataStore := q.queueDataStore.insert guid data }.addToQueue guid

def rolesOf (q : LFGQueue) (guid : UInt64) : LfgRolesMap :=
  ((q.queueDataStore.find? guid).map LfgQueueData.roles).getD .empty

def dungeonsOf (q : LFGQueue) (guid : UInt64) : LfgDungeonSet :=
  ((q.queueDataStore.find? guid).map LfgQueueData.dungeons).getD .empty

/-- `numPlayers`, `numLfgGroups`, `proposal.group` and `proposalGroups`. -/
structure Census where
  numPlayers : UInt8
  numLfgGroups : UInt8
  group : UInt64
  groups : OrdMap UInt64 UInt64

def Census.start : Census := ⟨0, 0, 0, .empty⟩

/-- The loop body that counts the players and LFG groups of a GUID. -/
def Census.add (env : LfgEnv) (c : Census) (guid : UInt64) (data : LfgQueueData) : Census where
  numPlayers := c.numPlayers + UInt8.ofNat data.roles.size
  numLfgGroups := if env.isLfgGroup guid then c.numLfgGroups + 1 else c.numLfgGroups
  group := if env.isLfgGroup guid && c.numLfgGroups = 0 then guid else c.group
  groups := data.roles.keys.foldl
    (fun groups player => groups.insert player (if isGroupGuid guid then guid else 0)) c.groups

/-- The loop that counts; it fails with a GUID that has no queue data, and ends
early with a second LFG group or a sixth player. -/
def census (q : LFGQueue) (env : LfgEnv) : List UInt64 → Census → Except UInt64 Census
  | [], c => .ok c
  | guid :: rest, c =>
    if c.numLfgGroups < 2 && c.numPlayers.toNat ≤ maxGroupSize then
      match q.queueDataStore.find? guid with
      | none => .error guid
      | some data => census q env rest (c.add env guid data)
    else .ok c

/-- The loop body that puts a player beside those that do not ignore him. -/
def joinRole (env : LfgEnv) (roles : LfgRolesMap) (e : UInt64 × UInt8) : LfgRolesMap :=
  if roles.toList.any fun d => e.1 ≠ d.1 && env.hasIgnore e.1 d.1 then roles
  else roles.insert e.1 e.2

/-- `proposalRoles` after the loops over the GUIDs and their players. -/
def joinRoles (q : LFGQueue) (env : LfgEnv) (check : List UInt64) : LfgRolesMap :=
  check.foldl (fun roles guid => (q.rolesOf guid).toList.foldl (joinRole env) roles) .empty

attribute [local instance] lawfulBEqUInt32 in
/-- `proposalDungeons` after the intersections. -/
def joinDungeons (q : LFGQueue) : List UInt64 → LfgDungeonSet
  | [] => .empty
  | first :: rest =>
    rest.foldl (fun dungeons guid =>
      dungeons.filterKeys fun dungeon => dungeon ∈ (q.dungeonsOf guid).keys) (q.dungeonsOf first)

/-- What the checks of `CheckCompatibility` come to, after those of its size and of
all but its first GUID. -/
inductive Verdict
  | notQueued (guid : UInt64)
  | result (compatibles : LfgCompatibility)
  | group (census : Census) (roles : LfgRolesMap) (dungeons : LfgDungeonSet)

/-- Roles and dungeons of several GUIDs, or the test they fail. -/
def agree (q : LFGQueue) (env : LfgEnv) (check : List UInt64) (c : Census) :
    Except LfgCompatibility (LfgRolesMap × LfgDungeonSet) :=
  let roles := q.joinRoles env check
  if c.numPlayers - UInt8.ofNat roles.size ≠ 0 then .error .hasIgnores
  else if !roles.checkGroupRoles.1 then .error .noRoles
  else if (q.joinDungeons check).keys = [] then .error .noDungeons
  else .ok (roles.checkGroupRoles.2, q.joinDungeons check)

/-- Roles and dungeons. A single group has passed the tests of both when it joined. -/
def settle (q : LFGQueue) (env : LfgEnv) (check : List UInt64) (c : Census) :
    Except LfgCompatibility (LfgRolesMap × LfgDungeonSet) :=
  match check with
  | [gguid] => .ok ((q.rolesOf gguid).checkGroupRoles.2, q.dungeonsOf gguid)
  | _ => q.agree env check c

/-- The checks of `CheckCompatibility` in their order. -/
def assess (q : LFGQueue) (env : LfgEnv) (check : List UInt64) : Verdict :=
  match q.census env check .start with
  | .error guid => .notQueued guid
  | .ok c =>
    if check.length = 1 && c.numPlayers.toNat ≠ maxGroupSize then .result .withLessPlayers
    else if c.numLfgGroups > 1 then .result .multipleLfgGroups
    else if c.numPlayers.toNat > maxGroupSize then .result .tooMuchPlayers
    else match q.settle env check c with
      | .error compatibles => .result compatibles
      | .ok (roles, dungeons) =>
        if c.numPlayers.toNat ≠ maxGroupSize then .result .withLessPlayers
        else .group c roles dungeons

end LFGQueue

/-- `ProposalsStore` and `m_lfgProposalId`. A stored proposal is open: what is
decided is erased with the decision. `created` has the ids that were given out. -/
structure LfgProposals where
  lfgProposalId : UInt32
  proposalsStore : OrdMap UInt32 LfgProposal
  created : List UInt32
  initiating : ∀ e ∈ proposalsStore, e.2.state = .initiating

namespace LfgProposals

def empty : LfgProposals where
  lfgProposalId := 0
  proposalsStore := .empty
  created := []
  initiating _ member := absurd member OrdMap.not_mem_empty

def set (p : LfgProposals) (id : UInt32) (proposal : LfgProposal)
    (isOpen : proposal.state = .initiating) : LfgProposals :=
  { p with
    proposalsStore := p.proposalsStore.insert id proposal
    initiating := fun _ member => by
      rcases OrdMap.mem_insert.mp member with rfl | ⟨old, -⟩
      · exact isOpen
      · exact p.initiating _ old }

def addProposal (p : LfgProposals) (proposal : LfgProposal)
    (isOpen : proposal.state = .initiating) : LfgProposals :=
  let id := p.lfgProposalId + 1
  { p.set id { proposal with id := id } isOpen with
    lfgProposalId := id
    created := p.created ++ [id] }

def erase (p : LfgProposals) (id : UInt32) : LfgProposals :=
  { p with
    proposalsStore := p.proposalsStore.erase id
    initiating := fun e member => p.initiating e (OrdMap.mem_erase.mp member).1 }

end LfgProposals

namespace LfgProposal

def pickLeader (urand : UInt64 → Nat) (s : UInt64 × Bool) (e : UInt64 × UInt8) : UInt64 × Bool :=
  let toss := urand e.1 % 2 = 1
  if e.2 &&& playerRoleLeader ≠ 0 then
    (if !s.2 || s.1 = 0 || toss then e.1 else s.1, true)
  else (if !s.2 && (s.1 = 0 || toss) then e.1 else s.1, s.2)

/-- The new proposal of `CheckCompatibility`. -/
def ofGroup (env : LfgEnv) (id : UInt32) (check : List UInt64) (c : LFGQueue.Census)
    (roles : LfgRolesMap) (dungeons : LfgDungeonSet) : LfgProposal :=
  let gguid := check.headD 0
  let isNew := c.numLfgGroups ≠ 1 || env.oldState gguid ≠ .dungeon
  { id := 0
    dungeonId := dungeons.keys.getD (env.urand id 0 % dungeons.size) 0
    state := .initiating
    group := c.group
    leader := (roles.toList.foldl (pickLeader (env.urand id)) (0, false)).1
    cancelTime := env.now + lfgTimeProposal
    isNew := isNew
    queues := check
    players := roles.mapVal fun player role =>
      let group := (c.groups.find? player).getD 0
      { role := role
        accept := if !isNew && group ≠ 0 && group = c.group then .agree else .pending
        group := group } }

end LfgProposal

structure LfgSearch where
  queue : LFGQueue
  proposals : LfgProposals

namespace LfgSearch

def setCompatibles (s : LfgSearch) (check : List UInt64) (compatibles : LfgCompatibility) :
    LfgSearch :=
  { s with queue := s.queue.setCompatibles (concatenateGuids check) compatibles }

/-- "Create a new proposal": its GUIDs leave the lists and keep their queue data. -/
def createProposal (env : LfgEnv) (check : List UInt64) (c : LFGQueue.Census)
    (roles : LfgRolesMap) (dungeons : LfgDungeonSet) (s : LfgSearch) : LfgSearch where
  queue := check.foldl
    (fun q guid => (q.removeFromNewQueue guid).removeFromCurrentQueue guid) s.queue
  proposals := s.proposals.addProposal
    (.ofGroup env (s.proposals.lfgProposalId + 1) check c roles dungeons) rfl

/-- `CheckCompatibility` after the checks of its size and of all but its first
GUID. -/
def conclude (env : LfgEnv) (check : List UInt64) (s : LfgSearch) : LfgSearch × LfgCompatibility :=
  match s.queue.assess env check with
  | .notQueued guid => ({ s with queue := s.queue.removeFromQueue guid }, .pending)
  | .result compatibles => (s.setCompatibles check compatibles, compatibles)
  | .group c roles dungeons =>
    if !env.allQueued check then (s.setCompatibles check .badStates, .badStates)
    else
      ((s.createProposal env check c roles dungeons).setCompatibles check .isMatch, .isMatch)

/-- `CheckCompatibility`. The check of all but the new GUID may create a proposal
itself. -/
def checkCompatibility (env : LfgEnv) : List UInt64 → LfgSearch → LfgSearch × LfgCompatibility
  | [], s => (s, .wrongGroupSize)
  | front :: rest, s =>
    if rest.length + 1 > maxGroupSize then (s, .wrongGroupSize)
    else if rest.length + 1 > 2 then
      let child := checkCompatibility env rest s
      if child.2.isIncompatible then (child.1.setCompatibles (front :: rest) child.2, child.2)
      else child.1.conclude env (front :: rest)
    else s.conclude env (front :: rest)

/-- The beginning of `FindNewGroups`: the cached compatibility, computed if there is
none, and "changed from bad states to match" if everybody is queued by now. -/
def compatibility (env : LfgEnv) (check : List UInt64) (s : LfgSearch) :
    LfgSearch × LfgCompatibility :=
  let cached := s.queue.getCompatibles (concatenateGuids check)
  let known := if cached = .pending then s.checkCompatibility env check else (s, cached)
  if known.2 = .badStates && env.allQueued check then (known.1.setCompatibles check .isMatch, .isMatch)
  else known

/-- The loop of `FindNewGroups` over `all`, for a `check` that has less players than
a group. -/
def matchQueued (env : LfgEnv) : (check all : List UInt64) → LfgSearch →
    LfgSearch × LfgCompatibility
  | _, [], s => (s, .withLessPlayers)
  | check, next :: all, s =>
    let sub := s.compatibility env (check ++ [next])
    if sub.2 = .isMatch then sub
    -- the nested loop takes what is left of `all`, and this one ends with it
    else if sub.2 = .withLessPlayers then matchQueued env (check ++ [next]) all sub.1
    else matchQueued env check all sub.1

def findNewGroups (env : LfgEnv) (check all : List UInt64) (s : LfgSearch) :
    LfgSearch × LfgCompatibility :=
  let known := s.compatibility env check
  if known.2 = .withLessPlayers then known.1.matchQueued env check all else known

/-- The loop body of `FindGroups`, for the first GUID of the new queue. -/
def findGroup (env : LfgEnv) (frontguid : UInt64) (s : LfgSearch) : LfgSearch × LfgCompatibility :=
  let s := { s with queue := s.queue.removeFromNewQueue frontguid }
  let found := s.findNewGroups env [frontguid] s.queue.currentQueueStore
  if found.2 = .isMatch then found
  else ({ found.1 with queue := found.1.queue.addToCurrentQueue frontguid }, found.2)

/-- The loop of `FindGroups`, with the number of matches; `n` bounds the turns. -/
def findGroupsLoop (env : LfgEnv) : Nat → LfgSearch × UInt8 → LfgSearch × UInt8
  | 0, s => s
  | n + 1, s =>
    match s.1.queue.newToQueueStore with
    | [] => s
    | frontguid :: _ =>
      let found := s.1.findGroup env frontguid
      findGroupsLoop env n (found.1, if found.2 = .isMatch then s.2 + 1 else s.2)

def findGroups (env : LfgEnv) (s : LfgSearch) : LfgSearch × UInt8 :=
  findGroupsLoop env s.queue.newToQueueStore.length (s, 0)

end LfgSearch

end Sky548
