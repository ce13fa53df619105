import Sky548.Groups.Group

/-!
# Players and their groups

The group references of the players (`Player::m_group`, `m_originalGroup`, `m_groupInvite`), the
groups they point to, and the handlers of `GroupHandler.cpp` that change them.

A `GroupId` stands for a `Group*` and is never given out twice. To use one whose group is deleted is
undefined behaviour, as is a failed assertion; the functions return no world then.
-/

namespace Sky548

abbrev GroupId := Nat

structure GroupRefs where
  group : Option GroupId
  originalGroup : Option GroupId
  groupInvite : Option GroupId
  deriving DecidableEq, Repr

structure Parties where
  online : List UInt64
  refs : UInt64 → GroupRefs
  groups : GroupId → Option Group
  next : GroupId

namespace Parties

/-- `ObjectAccessor::FindPlayer` -/
def isOnline (w : Parties) (guid : UInt64) : Bool := guid ∈ w.online

def setRefs (w : Parties) (guid : UInt64) (refs : GroupRefs) : Parties :=
  { w with refs := Function.update w.refs guid refs }

def setGroup (w : Parties) (gid : GroupId) (g : Group) : Parties :=
  { w with groups := Function.update w.groups gid (some g) }

def deleteGroup (w : Parties) (gid : GroupId) : Parties :=
  { w with groups := Function.update w.groups gid none }

def setGroupInvite (w : Parties) (guid : UInt64) (invite : Option GroupId) : Parties :=
  w.setRefs guid { w.refs guid with groupInvite := invite }

/-- The group that counts for invitations: the original one of a player who is
in the raid of a battleground. -/
def partyOf (w : Parties) (battle : Group → Bool) (guid : UInt64) : Option (Option GroupId) :=
  match (w.refs guid).group with
  | none => some none
  | some gid => do
      let g ← w.groups gid
      if battle g then some (w.refs guid).originalGroup else some (some gid)

def withoutInvite (w : Parties) (gid : GroupId) (g : Group) (guid : UInt64) : Parties :=
  (w.setGroup gid { g with invitees := g.invitees.filter (· ≠ guid) }).setGroupInvite guid none

def removeInvite (w : Parties) (gid : GroupId) (guid : UInt64) : Option Parties := do
  let g ← w.groups gid
  some (w.withoutInvite gid g guid)

def removeAllInvites (w : Parties) (gid : GroupId) : Option Parties := do
  let g ← w.groups gid
  some ((g.invitees.foldl (fun w guid => w.setGroupInvite guid none) w).setGroup gid
    { g with invitees := [] })

/-- `AddInvite`; `false` when the player has an invitation or a group. -/
def addInvite (w : Parties) (gid : GroupId) (guid : UInt64) : Option (Parties × Bool) :=
  if (w.refs guid).groupInvite.isSome then some (w, false)
  else do
    let group ← w.partyOf (fun g => g.isBGGroup || g.isBFGroup) guid
    if group.isSome then some (w, false)
    else
      let w ← w.removeInvite gid guid
      let g ← w.groups gid
      some ((w.setGroup gid { g with invitees := guid :: g.invitees }).setGroupInvite guid
        (some gid), true)

def addLeaderInvite (w : Parties) (gid : GroupId) (guid : UInt64) : Option (Parties × Bool) := do
  let (w, invited) ← w.addInvite gid guid
  if invited then
    let g ← w.groups gid
    some (w.setGroup gid { g with leaderGuid := guid }, true)
  else some (w, false)

def linkMember (w : Parties) (gid : GroupId) (g : Group) (guid : UInt64) : Parties :=
  let refs := w.refs guid
  w.setRefs guid <|
    if refs.group.isSome then
      if g.isBGGroup || g.isBFGroup then
        { refs with originalGroup := refs.group, group := some gid }
      else { refs with originalGroup := some gid }
    else { refs with group := some gid }

def addMember (w : Parties) (gid : GroupId) (guid : UInt64) : Option (Parties × Bool) := do
  let g ← w.groups gid
  match g.addMember guid with
  | (_, false) => some (w, false)
  | (g, true) => some (((w.setGroup gid g).setGroupInvite guid none).linkMember gid g guid, true)

/-- `Create`: that the leader fits in is asserted. -/
def create (w : Parties) (gid : GroupId) (leader : UInt64) : Option Parties := do
  let g ← w.groups gid
  let (w, added) ← (w.setGroup gid (g.start leader)).addMember gid leader
  if added then some w else none

/-- Which reference of the player a removal or a disband unlinks. -/
def unlinkMember (w : Parties) (gid : GroupId) (g : Group) (guid : UInt64) : Parties :=
  let refs := w.refs guid
  w.setRefs guid <|
    if g.isBGGroup || g.isBFGroup then
      { refs with group := refs.originalGroup, originalGroup := none }
    else if refs.originalGroup = some gid then { refs with originalGroup := none }
    else { refs with group := none }

/-- `DelinkMember`: the reference of that player in the group's reference manager. -/
def delinkMember (w : Parties) (gid : GroupId) (guid : UInt64) : Parties :=
  let refs := w.refs guid
  w.setRefs guid <|
    if refs.group = some gid then { refs with group := none }
    else if refs.originalGroup = some gid then { refs with originalGroup := none }
    else refs

/-- The references between a leaving player and the group are cut. -/
def releaseMember (w : Parties) (gid : GroupId) (g : Group) (guid : UInt64) : Parties :=
  let w := if w.isOnline guid then w.unlinkMember gid g guid else w
  if g.isBGGroup || g.isBFGroup then w else w.delinkMember gid guid

/-- `m_memberMgr.getSize()` -/
def linked (w : Parties) (gid : GroupId) : Nat :=
  w.online.countP (fun guid => (w.refs guid).group = some gid) +
    w.online.countP fun guid => (w.refs guid).originalGroup = some gid

def disband (w : Parties) (gid : GroupId) : Option Parties := do
  let g ← w.groups gid
  let w := g.memberSlots.foldl (fun w slot =>
    if w.isOnline slot.guid then w.unlinkMember gid g slot.guid else w) w
  let w ← (w.setGroup gid { g with memberSlots := [] }).removeAllInvites gid
  some (w.deleteGroup gid)

def removeMember (w : Parties) (gid : GroupId) (guid : UInt64) (kick leaderAway : Bool) :
    Option Parties := do
  let g ← w.groups gid
  if g.isLFGGroup && kick then some w
  else if g.disbandsAt < g.getMembersCount then
    let w := w.releaseMember gid g guid
    let g := g.without w.isOnline guid
    let w := w.setGroup gid g
    if g.disbandsAfter ⟨w.isOnline, w.linked gid, leaderAway⟩ then w.disband gid else some w
  else w.disband gid

def uninviteFromGroup (w : Parties) (guid : UInt64) : Option Parties :=
  match (w.refs guid).groupInvite with
  | none => some w
  | some gid => do
      let w ← w.removeInvite gid guid
      let g ← w.groups gid
      if g.getMembersCount ≤ 1 then
        if g.isCreated then w.disband gid
        else
          let w ← w.removeAllInvites gid
          some (w.deleteGroup gid)
      else some w

/-- `HandleGroupInviteOpcode` with the named player, who may be offline; `allowed`
are its tests of game masters, factions, instances and ignore lists. -/
def handleGroupInvite (w : Parties) (inviter guid : UInt64) (allowed : Bool) : Option Parties :=
  if !w.isOnline guid || !allowed then some w
  else do
    let group ← w.partyOf Group.isBGGroup inviter
    let group2 ← w.partyOf Group.isBGGroup guid
    if group2.isSome || (w.refs guid).groupInvite.isSome then some w
    else
      match group with
      | some gid =>
        let g ← w.groups gid
        if !g.isLeader inviter && !g.isAssistant inviter then some w
        else if g.isFull then some w
        else
          let (w, _) ← w.addInvite gid guid
          some w
      | none =>
        let gid := w.next
        let w := { w.setGroup gid (Group.new false false) with next := w.next + 1 }
        let (w, leads) ← w.addLeaderInvite gid inviter
        if leads then
          let (w, invited) ← w.addInvite gid guid
          if invited then some w else some (w.deleteGroup gid)
        else some (w.deleteGroup gid)

/-- A group that gets its first members, the leader in the lead. -/
def formGroup (w : Parties) (gid : GroupId) (leader : UInt64) : Option Parties := do
  let w ← w.removeInvite gid leader
  w.create gid leader

def handleGroupInviteResponse (w : Parties) (guid : UInt64) (accept : Bool) : Option Parties :=
  match (w.refs guid).groupInvite with
  | none => some w
  | some gid =>
    if accept then do
      let w ← w.removeInvite gid guid
      let g ← w.groups gid
      if g.leaderGuid = guid then some w
      else if g.isFull then some w
      else if g.isCreated then
        let (w, _) ← w.addMember gid guid
        some w
      else if w.isOnline g.leaderGuid then
        let w ← w.formGroup gid g.leaderGuid
        let (w, _) ← w.addMember gid guid
        some w
      else w.removeAllInvites gid
    else do
      let _ ← w.groups gid
      w.uninviteFromGroup guid

/-- `CanUninviteFromGroup` of a player in the group; `vote` is its answer for a
dungeon group. -/
def canUninvite (g : Group) (guid : UInt64) (vote : Bool) : Bool :=
  if g.isLFGGroup then vote else g.isLeader guid || g.isAssistant guid

def handleGroupUninviteGuid (w : Parties) (kicker guid : UInt64) (vote leaderAway : Bool) :
    Option Parties :=
  if guid = kicker then some w
  else
    match (w.refs kicker).group with
    | none => some w
    | some gid => do
        let g ← w.groups gid
        if !canUninvite g kicker vote then some w
        else if g.isLeader guid then some w
        else if g.isMember guid then w.removeMember gid guid true leaderAway
        else if guid ∈ g.invitees then w.uninviteFromGroup guid
        else some w

def handleGroupSetLeader (w : Parties) (leader guid : UInt64) : Option Parties :=
  match (w.refs leader).group with
  | none => some w
  | some gid => do
      let g ← w.groups gid
      if w.isOnline guid && g.isLeader leader && (w.refs guid).group = some gid then
        some (w.setGroup gid (g.changeLeader w.isOnline guid))
      else some w

/-- `HandleGroupDisbandOpcode`: the player leaves. -/
def handleGroupDisband (w : Parties) (guid : UInt64) (leaderAway : Bool) : Option Parties :=
  match (w.refs guid).group with
  | none => some w
  | some gid => w.removeMember gid guid false leaderAway

def handleGroupRaidConvert (w : Parties) (guid : UInt64) (toRaid : Bool) : Option Parties :=
  match (w.refs guid).group with
  | none => some w
  | some gid => do
      let g ← w.groups gid
      if !g.isLeader guid || g.getMembersCount < 2 then some w
      else some (w.setGroup gid (if toRaid then g.convertToRaid else g.convertToGroup))

def handleGroupAssistantLeader (w : Parties) (guid target : UInt64) (apply : Bool) :
    Option Parties :=
  match (w.refs guid).group with
  | none => some w
  | some gid => do
      let g ← w.groups gid
      if g.isLeader guid then some (w.setGroup gid (g.setGroupMemberFlag target apply .assistant))
      else some w

def disbandGroupOf (w : Parties) (guid : UInt64) : Option Parties :=
  match (w.refs guid).group with
  | none => some w
  | some gid => w.disband gid

/-- A packet, or the command that disbands a player's group. -/
inductive Event
  | invite (inviter guid : UInt64) (allowed : Bool)
  | respond (guid : UInt64) (accept : Bool)
  | kick (kicker guid : UInt64) (vote leaderAway : Bool)
  | leave (guid : UInt64) (leaderAway : Bool)
  | setLeader (leader guid : UInt64)
  | raidConvert (guid : UInt64) (toRaid : Bool)
  | assistant (guid target : UInt64) (apply : Bool)
  | disband (guid : UInt64)

def Event.sender : Event → UInt64
  | .invite inviter _ _ => inviter
  | .respond guid _ => guid
  | .kick kicker _ _ _ => kicker
  | .leave guid _ => guid
  | .setLeader leader _ => leader
  | .raidConvert guid _ => guid
  | .assistant guid _ _ => guid
  | .disband guid => guid

def handle (w : Parties) : Event → Option Parties
  | .invite inviter guid allowed => w.handleGroupInvite inviter guid allowed
  | .respond guid accept => w.handleGroupInviteResponse guid accept
  | .kick kicker guid vote leaderAway => w.handleGroupUninviteGuid kicker guid vote leaderAway
  | .leave guid leaderAway => w.handleGroupDisband guid leaderAway
  | .setLeader leader guid => w.handleGroupSetLeader leader guid
  | .raidConvert guid toRaid => w.handleGroupRaidConvert guid toRaid
  | .assistant guid target apply => w.handleGroupAssistantLeader guid target apply
  | .disband guid => w.disbandGroupOf guid

/-- Only online players send packets; after undefined behaviour nothing is known. -/
def step (w : Option Parties) (event : Event) : Option Parties :=
  w.bind fun w => if w.isOnline event.sender then w.handle event else some w

/-- Everybody online, nobody in a group. -/
def start (online : List UInt64) : Parties where
  online := online
  refs := fun _ => ⟨none, none, none⟩
  groups := fun _ => none
  next := 0

end Parties

end Sky548
