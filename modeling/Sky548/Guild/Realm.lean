import Sky548.Guild.Handlers
import Sky548.Machine

/-!
# Guilds and the players online

The guild store, the players in the object accessor and the requests that write
a player's guild id or a guild's member map: invite, accept, decline, leave,
kick and disband (`GuildHandler.cpp`, `Guild.cpp`). `ObjectAccessor::FindPlayer`
finds a player by his whole GUID and only while he is in the world; a member map
is searched by the low part of a GUID.
-/

namespace Sky548

/-- The part of `Player` that the guild handlers read and write. -/
structure OnlinePlayer where
  lowGuid : UInt32
  name : String
  team : UInt32
  isInWorld : Bool
  autoDeclineGuild : Bool
  ignores : List UInt32
  guildId : UInt32
  guildIdInvited : UInt32
  lastGuildInviterGUID : UInt64
  deriving DecidableEq, Repr

namespace OnlinePlayer

def guid (p : OnlinePlayer) : UInt64 := playerGuid p.lowGuid

def setInGuild (p : OnlinePlayer) (guildId : UInt32) : OnlinePlayer :=
  { p with guildId := guildId }

def setGuildIdInvited (p : OnlinePlayer) (guildId : UInt32) : OnlinePlayer :=
  { p with guildIdInvited := guildId }

def setInvited (p : OnlinePlayer) (guildId : UInt32) (inviter : UInt64) : OnlinePlayer :=
  { p with guildIdInvited := guildId, lastGuildInviterGUID := inviter }

def setInWorld (p : OnlinePlayer) (isInWorld : Bool) : OnlinePlayer :=
  { p with isInWorld := isInWorld }

@[simp] theorem setGuildIdInvited_lowGuid (p : OnlinePlayer) (id : UInt32) :
    (p.setGuildIdInvited id).lowGuid = p.lowGuid := rfl

@[simp] theorem setInvited_lowGuid (p : OnlinePlayer) (id : UInt32) (inviter : UInt64) :
    (p.setInvited id inviter).lowGuid = p.lowGuid := rfl

@[simp] theorem setInWorld_lowGuid (p : OnlinePlayer) (isInWorld : Bool) :
    (p.setInWorld isInWorld).lowGuid = p.lowGuid := rfl

@[simp] theorem setInGuild_lowGuid (p : OnlinePlayer) (id : UInt32) :
    (p.setInGuild id).lowGuid = p.lowGuid := rfl

@[simp] theorem setInGuild_guildId (p : OnlinePlayer) (id : UInt32) :
    (p.setInGuild id).guildId = id := rfl

end OnlinePlayer

/-- The guild store, the players online and what the handlers read besides. -/
structure Realm where
  players : KeyedList OnlinePlayer OnlinePlayer.lowGuid
  guilds : KeyedList Guild fun g => g.id.val
  allowTwoSideInteractionGuild : Bool
  teamByGUID : UInt64 → UInt32
  guildUndeletableLevel : UInt32

namespace Realm

def findPlayer (r : Realm) (guid : UInt64) : Option OnlinePlayer :=
  r.players.toList.find? fun p => p.guid = guid ∧ p.isInWorld

/-- `FindPlayerByName`, which compares without regard to case. -/
def findPlayerByName (r : Realm) (name : String) : Option OnlinePlayer :=
  r.players.toList.find? fun p => p.isInWorld ∧ p.name.toLower = name.toLower

def getGuildById (r : Realm) (guildId : UInt32) : Option Guild := r.guilds.find? guildId

def getGuild (r : Realm) (p : OnlinePlayer) : Option Guild :=
  if p.guildId = 0 then none else r.getGuildById p.guildId

/-- A change of every player that `sel` selects. -/
def updatePlayers (r : Realm) (sel : OnlinePlayer → Bool) (f : OnlinePlayer → OnlinePlayer)
    (keeps : ∀ p, (f p).lowGuid = p.lowGuid) : Realm :=
  { r with
    players := r.players.update (fun p => if sel p then f p else p) (fun p => by
        split
        · exact keeps p
        · rfl) }

/-- `SetInGuild` on the player that `FindPlayer` finds, if any. -/
def setInGuild (r : Realm) (guid : UInt64) (guildId : UInt32) : Realm :=
  r.updatePlayers (fun p => p.guid = guid ∧ p.isInWorld) (·.setInGuild guildId)
    fun p => p.setInGuild_lowGuid guildId

def putGuild (r : Realm) (g : Guild) : Realm := { r with guilds := r.guilds.insert g }

/-- `Disband`: `DeleteMember` for every member, then `RemoveGuild`. -/
def disband (r : Realm) (g : Guild) : Realm :=
  { r.updatePlayers (fun p => p.isInWorld ∧ ∃ m ∈ g.members, m.guid = p.guid)
      (·.setInGuild 0) (fun p => p.setInGuild_lowGuid 0) with
    guilds := r.guilds.erase g.id }

def deleteMember (r : Realm) (g : Guild) (guid : UInt64) : Realm :=
  match g.deleteMember guid with
  | none => r.disband g
  | some g' => (r.putGuild g').setInGuild guid 0

/-- What `HandleInviteMember` asks before the invitation is made. -/
def inviteError (r : Realm) (g : Guild) (player : OnlinePlayer) (name : String)
    (invited : OnlinePlayer) : Option CommandResult :=
  if !r.allowTwoSideInteractionGuild ∧ invited.team ≠ player.team then
    sendCommandResult .invite .notAllied name
  else if invited.guildId ≠ 0 then sendCommandResult .invite .alreadyInGuildS name
  else if invited.guildIdInvited ≠ 0 then
    sendCommandResult .invite .alreadyInvitedToGuildS name
  else if !g.hasRankRight player.guid grRightInvite then
    sendCommandResult .invite .permissions
  else none

def handleInviteMember (r : Realm) (g : Guild) (player : OnlinePlayer) (name : String) :
    Realm × Option CommandResult :=
  match r.findPlayerByName name with
  | none => (r, sendCommandResult .invite .playerNotFoundS name)
  | some invited =>
    if player.lowGuid ∈ invited.ignores then (r, none)
    else match r.inviteError g player name invited with
      | some result => (r, some result)
      | none =>
        let result := sendCommandResult .invite .commandSuccess name
        if invited.autoDeclineGuild then (r, result)
        else
          (r.updatePlayers (fun p => p.lowGuid = invited.lowGuid)
            (·.setInvited g.id player.guid) (fun p => p.setInvited_lowGuid _ _), result)

/-- `AddMember` for a player that `FindPlayer` finds. -/
def addMember (r : Realm) (g : Guild) (player : OnlinePlayer) (now : UInt64) : Realm :=
  if player.guildId ≠ 0 then r
  else
    ((r.putGuild (g.addMember player.guid player.name now)).setInGuild player.guid g.id).updatePlayers
      (fun p => p.guid = player.guid) (·.setGuildIdInvited 0)
      fun p => p.setGuildIdInvited_lowGuid 0

def handleAcceptMember (r : Realm) (g : Guild) (player : OnlinePlayer) (now : UInt64) : Realm :=
  if !r.allowTwoSideInteractionGuild ∧ player.team ≠ r.teamByGUID g.leaderGuid then r
  else r.addMember g player now

def handleGuildAcceptOpcode (r : Realm) (player : OnlinePlayer) (now : UInt64) : Realm :=
  if player.guildId ≠ 0 then r
  else match r.getGuildById player.guildIdInvited with
    | none => r
    | some g => r.handleAcceptMember g player now

/-- `WorldSession::HandleGuildDeclineOpcode`: both ids are cleared whatever
they were. -/
def handleGuildDeclineOpcode (r : Realm) (player : OnlinePlayer) : Realm :=
  (r.updatePlayers (fun p => p.lowGuid = player.lowGuid) (·.setGuildIdInvited 0)
    fun p => p.setGuildIdInvited_lowGuid 0).updatePlayers
      (fun p => p.lowGuid = player.lowGuid) (·.setInGuild 0) fun p => p.setInGuild_lowGuid 0

def handleLeaveMember (r : Realm) (g : Guild) (player : OnlinePlayer) :
    Realm × Option CommandResult :=
  if g.isLeader player.guid then
    if g.members.size > 1 then (r, sendCommandResult .quit .leaderLeave)
    else if g.level.toUInt32 ≥ r.guildUndeletableLevel then
      (r, sendCommandResult .quit .undeletableDueToLevel)
    else (r.disband g, none)
  else (r.deleteMember g player.guid, none)

def handleRemoveMember (r : Realm) (g : Guild) (player : OnlinePlayer) (guid : UInt64) :
    Realm × Option CommandResult :=
  if g.mayRemoveMember player.guid guid then (r.deleteMember g guid, none)
  else (r, (g.handleRemoveMember player.guid guid).2)

def handleDisband (r : Realm) (g : Guild) (player : OnlinePlayer) : Realm :=
  if g.isLeader player.guid then r.disband g else r

/-- A guild packet of an online player, or one leaving or entering the world. The invited name is
the one `normalizePlayerName` leaves. -/
inductive Event
  | invite (player : UInt32) (invitedName : String)
  | accept (player : UInt32) (now : UInt64)
  | decline (player : UInt32)
  | leave (player : UInt32)
  | kick (player : UInt32) (guid : UInt64)
  | disband (player : UInt32)
  | worldport (player : UInt32) (isInWorld : Bool)

/-- The player a packet comes from; the session drops packets of a player who
is not in the world. -/
def sender (r : Realm) (low : UInt32) : Option OnlinePlayer := r.findPlayer (playerGuid low)

def toGuild (r : Realm) (player : UInt32) (answer : Guild → OnlinePlayer → Realm) : Realm :=
  match r.sender player with
  | none => r
  | some p =>
    match r.getGuild p with
    | none => r
    | some g => answer g p

def step (r : Realm) : Event → Realm
  | .invite player invitedName =>
    r.toGuild player fun g p => (r.handleInviteMember g p invitedName).1
  | .accept player now =>
    match r.sender player with
    | none => r
    | some p => r.handleGuildAcceptOpcode p now
  | .decline player =>
    match r.sender player with
    | none => r
    | some p => r.handleGuildDeclineOpcode p
  | .leave player => r.toGuild player fun g p => (r.handleLeaveMember g p).1
  | .kick player guid => r.toGuild player fun g p => (r.handleRemoveMember g p guid).1
  | .disband player => r.toGuild player fun g p => r.handleDisband g p
  | .worldport player isInWorld =>
    r.updatePlayers (fun p => p.lowGuid = player) (·.setInWorld isInWorld)
      fun p => p.setInWorld_lowGuid isInWorld

end Realm

end Sky548
