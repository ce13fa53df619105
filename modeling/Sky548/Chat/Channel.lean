import Sky548.OrdMap
import Sky548.ObjectGuid
import Mathlib.Data.Finset.Basic

/-!
# Chat channels

`Channel` (`Channel.h`, `Channel.cpp`): its members, its owner, its password and its bans, with what
joining, leaving, kicking and the moderators' commands make of them. The channel is a custom one
(`IsConstant()` is false), so it is no dungeon finder channel either.

`m_channels` of the players is kept beside the channel, as the number of times the channel stands in
it.
-/

namespace Sky548

def memberFlagOwner : UInt8 := 0x01

def memberFlagModerator : UInt8 := 0x02

def memberFlagMuted : UInt8 := 0x08

structure Channel.PlayerInfo where
  player : UInt64
  flags : UInt8
  deriving DecidableEq, Repr

structure Channel where
  ownership : Bool
  ownerGUID : UInt64
  password : List Char
  playersStore : OrdMap UInt64 Channel.PlayerInfo
  bannedStore : Finset UInt64

/-- A `Player`, as a channel sees him: `changeNotModerator` and `twoSide` are the
permissions `CHANGE_CHANNEL_NOT_MODERATOR` and `TWO_SIDE_INTERACTION_CHANNEL`. -/
structure ChannelPlayer where
  guid : UInt64
  name : List Char
  team : UInt32
  changeNotModerator : Bool
  twoSide : Bool
  guid_ne_zero : guid ≠ 0

/-- What a refused request is answered with. -/
inductive ChannelNotice
  | playerAlreadyMember
  | banned
  | wrongPassword
  | notMember
  | notModerator
  | notOwner
  | playerNotFound (name : List Char)
  deriving DecidableEq, Repr

/-- `ObjectAccessor::FindPlayerByName`, over the players in the world. -/
def findPlayerByName (online : List ChannelPlayer) (name : List Char) : Option ChannelPlayer :=
  online.find? fun player => name.map Char.toLower = player.name.map Char.toLower

namespace Channel

namespace PlayerInfo

/-- What `operator[]` enters for a missing key. -/
def fresh : PlayerInfo := ⟨0, 0⟩

def hasFlag (p : PlayerInfo) (flag : UInt8) : Bool := p.flags &&& flag ≠ 0

def changeFlag (p : PlayerInfo) (flag : UInt8) (state : Bool) : PlayerInfo :=
  { p with flags := if state then p.flags ||| flag else p.flags &&& ~~~flag }

def isOwner (p : PlayerInfo) : Bool := p.hasFlag memberFlagOwner

def isModerator (p : PlayerInfo) : Bool := p.hasFlag memberFlagModerator

def isMuted (p : PlayerInfo) : Bool := p.hasFlag memberFlagMuted

def setOwner (p : PlayerInfo) (state : Bool) : PlayerInfo := p.changeFlag memberFlagOwner state

def setModerator (p : PlayerInfo) (state : Bool) : PlayerInfo :=
  p.changeFlag memberFlagModerator state

def setMuted (p : PlayerInfo) (state : Bool) : PlayerInfo := p.changeFlag memberFlagMuted state

section

variable (p : PlayerInfo)

include p

theorem hasFlag_changeFlag_self {flag : UInt8} (isFlag : flag ≠ 0)
    (state : Bool) : (p.changeFlag flag state).hasFlag flag = state := by
  cases state with
  | true =>
    have whole : (p.flags ||| flag) &&& flag = flag := by
      rw [← UInt8.toBitVec_inj]
      apply BitVec.eq_of_getLsbD_eq
      intro i _
      simp only [UInt8.toBitVec_and, UInt8.toBitVec_or, BitVec.getLsbD_and, BitVec.getLsbD_or]
      cases flag.toBitVec.getLsbD i <;> simp
    simp [changeFlag, hasFlag, whole, isFlag]
  | false =>
    have none : (p.flags &&& ~~~flag) &&& flag = 0 := by
      rw [← UInt8.toBitVec_inj]
      apply BitVec.eq_of_getLsbD_eq
      intro i _
      simp
    simp [changeFlag, hasFlag, none]

theorem hasFlag_changeFlag_of_apart {flag other : UInt8}
    (apart : other &&& flag = 0) (state : Bool) :
    (p.changeFlag flag state).hasFlag other = p.hasFlag other := by
  have bits : ∀ i : Nat, (other.toBitVec.getLsbD i && flag.toBitVec.getLsbD i) = false := by
    intro i
    rw [← BitVec.getLsbD_and, ← UInt8.toBitVec_and, apart]
    simp
  have same : (p.changeFlag flag state).flags &&& other = p.flags &&& other := by
    rw [← UInt8.toBitVec_inj]
    apply BitVec.eq_of_getLsbD_eq
    intro i inRange
    have bit := bits i
    cases state <;> simp [changeFlag, inRange] <;> grind
  simp [hasFlag, same]

section

variable (state : Bool)

include state

@[simp] theorem isOwner_setOwner :
    (p.setOwner state).isOwner = state := hasFlag_changeFlag_self p (by decide) state

@[simp] theorem isModerator_setModerator :
    (p.setModerator state).isModerator = state := hasFlag_changeFlag_self p (by decide) state

@[simp] theorem isOwner_setModerator :
    (p.setModerator state).isOwner = p.isOwner := hasFlag_changeFlag_of_apart p (by decide) state

@[simp] theorem isOwner_setMuted :
    (p.setMuted state).isOwner = p.isOwner := hasFlag_changeFlag_of_apart p (by decide) state

@[simp] theorem isModerator_setOwner :
    (p.setOwner state).isModerator = p.isModerator :=
  hasFlag_changeFlag_of_apart p (by decide) state

@[simp] theorem isModerator_setMuted :
    (p.setMuted state).isModerator = p.isModerator :=
  hasFlag_changeFlag_of_apart p (by decide) state

@[simp] theorem player_setModerator :
    (p.setModerator state).player = p.player := rfl

@[simp] theorem player_setMuted :
    (p.setMuted state).player = p.player := rfl

end

end

end PlayerInfo

def isOn (c : Channel) (who : UInt64) : Bool := (c.playersStore.find? who).isSome

def isBanned (c : Channel) (guid : UInt64) : Bool := guid ∈ c.bannedStore

def info (c : Channel) (guid : UInt64) : PlayerInfo :=
  (c.playersStore.find? guid).getD .fresh

def modify (c : Channel) (guid : UInt64) (f : PlayerInfo → PlayerInfo) : Channel :=
  { c with playersStore := c.playersStore.modify .fresh guid f }

def isEmpty (c : Channel) : Bool := c.playersStore.toList.isEmpty

/-- The owner flag is taken from the member who has it, if he is still there. -/
def withoutOwnerFlag (c : Channel) : Channel :=
  if c.ownerGUID ≠ 0 ∧ c.isOn c.ownerGUID then c.modify c.ownerGUID (·.setOwner false) else c

def setOwner (c : Channel) (guid : UInt64) : Channel :=
  let c := { c.withoutOwnerFlag with ownerGUID := guid }
  if guid ≠ 0 then (c.modify guid (·.setModerator true)).modify guid (·.setOwner true) else c

/-- `SetModerator(guid, set)`; without a change nothing is sent. -/
def setModerator (c : Channel) (guid : UInt64) (set : Bool) : Channel :=
  if (c.info guid).isModerator ≠ set then c.modify guid (·.setModerator set) else c

def setMute (c : Channel) (guid : UInt64) (set : Bool) : Channel :=
  if (c.info guid).isMuted ≠ set then c.modify guid (·.setMuted set) else c

/-- The changes of a join: the member, and the owner if there is none yet. -/
def enter (c : Channel) (guid : UInt64) : Channel :=
  let c := { c with playersStore := c.playersStore.insert guid ⟨guid, 0⟩ }
  if c.ownerGUID = 0 ∧ c.ownership then (c.setOwner guid).modify guid (·.setModerator true) else c

/-- `playersStore.begin()->second.player`, and what is made of him. -/
def handToFirst (c : Channel) : Channel :=
  match c.playersStore.toList with
  | [] => c
  | first :: _ => (c.modify first.2.player (·.setModerator true)).setOwner first.2.player

def drop (c : Channel) (guid : UInt64) : Channel :=
  { c with playersStore := c.playersStore.erase guid }

def leave (c : Channel) (guid : UInt64) : Channel :=
  let changeowner := (c.info guid).isOwner
  let c := c.drop guid
  if changeowner && c.ownership && !c.isEmpty then c.handToFirst else c

/-- The changes of a kick or a ban that is carried out: who kicks the owner
becomes the owner. -/
def expel (c : Channel) (good victim : UInt64) (ban : Bool) : Channel :=
  let changeowner := c.ownerGUID = victim
  let c := if ban then { c with bannedStore := insert victim c.bannedStore } else c
  let c := c.drop victim
  if changeowner ∧ c.ownership ∧ !c.isEmpty then
    (c.modify good (·.setModerator true)).setOwner good
  else c

end Channel

/-- The channel, and how often it stands in the `m_channels` of each player. -/
structure ChannelWorld where
  channel : Channel
  joined : UInt64 → Nat

namespace ChannelWorld

/-- A custom channel with ownership, as constructed: its password and bans may
have been loaded. -/
def start (password : List Char) (banned : Finset UInt64) : ChannelWorld where
  channel := ⟨true, 0, password, .empty, banned⟩
  joined _ := 0

def setChannel (w : ChannelWorld) (c : Channel) : ChannelWorld := { w with channel := c }

def joinedChannel (w : ChannelWorld) (guid : UInt64) : ChannelWorld :=
  { w with joined := fun g => if g = guid then w.joined g + 1 else w.joined g }

def leftChannel (w : ChannelWorld) (guid : UInt64) : ChannelWorld :=
  { w with joined := fun g => if g = guid then 0 else w.joined g }

def joinChannel (w : ChannelWorld) (player : ChannelPlayer) (pass : List Char) :
    Except ChannelNotice ChannelWorld :=
  if w.channel.isOn player.guid then .error .playerAlreadyMember
  else if w.channel.isBanned player.guid then .error .banned
  else if w.channel.password ≠ [] ∧ pass ≠ w.channel.password then .error .wrongPassword
  else .ok ((w.joinedChannel player.guid).setChannel (w.channel.enter player.guid))

/-- `LeaveChannel`; without `send` the caller looks after the player's list. -/
def leaveChannel (w : ChannelWorld) (player : ChannelPlayer) (send : Bool) :
    Except ChannelNotice ChannelWorld :=
  if !w.channel.isOn player.guid then .error .notMember
  else
    let w := if send then w.leftChannel player.guid else w
    .ok (w.setChannel (w.channel.leave player.guid))

def cleanupChannel (w : ChannelWorld) (player : ChannelPlayer) :
    Except ChannelNotice ChannelWorld :=
  if w.joined player.guid = 0 then .ok w
  else
    { w with
      joined := fun g => if g = player.guid then w.joined g - 1 else w.joined g
    }.leaveChannel player false

def asModerator (w : ChannelWorld) (player : ChannelPlayer)
    (command : Except ChannelNotice ChannelWorld) : Except ChannelNotice ChannelWorld :=
  if !w.channel.isOn player.guid then .error .notMember
  else if !(w.channel.info player.guid).isModerator && !player.changeNotModerator then
    .error .notModerator
  else command

def kickOrBan (w : ChannelWorld) (online : List ChannelPlayer) (player : ChannelPlayer)
    (badname : List Char) (ban : Bool) : Except ChannelNotice ChannelWorld :=
  w.asModerator player <|
    match findPlayerByName online badname with
    | none => .error (.playerNotFound badname)
    | some bad =>
      if !w.channel.isOn bad.guid then .error (.playerNotFound badname)
      else if !player.changeNotModerator ∧ w.channel.ownerGUID = bad.guid ∧
          player.guid ≠ w.channel.ownerGUID then .error .notOwner
      else .ok ((w.leftChannel bad.guid).setChannel (w.channel.expel player.guid bad.guid ban))

def unBan (w : ChannelWorld) (online : List ChannelPlayer) (player : ChannelPlayer)
    (badname : List Char) : Except ChannelNotice ChannelWorld :=
  w.asModerator player <|
    match findPlayerByName online badname with
    | none => .error (.playerNotFound badname)
    | some bad =>
      if !w.channel.isBanned bad.guid then .error (.playerNotFound badname)
      else .ok (w.setChannel
        { w.channel with bannedStore := w.channel.bannedStore.erase bad.guid })

def password (w : ChannelWorld) (player : ChannelPlayer) (pass : List Char) :
    Except ChannelNotice ChannelWorld :=
  w.asModerator player <| .ok (w.setChannel { w.channel with password := pass })

/-- The member a command names: on the channel, and of the other team only
where both may talk to it. -/
def namedMember (w : ChannelWorld) (online : List ChannelPlayer) (player : ChannelPlayer)
    (name : List Char) : Option ChannelPlayer :=
  match findPlayerByName online name with
  | none => none
  | some newp =>
    if !w.channel.isOn newp.guid ∨
        (player.team ≠ newp.team ∧ (!player.twoSide ∨ !newp.twoSide)) then none
    else some newp

def setMode (w : ChannelWorld) (online : List ChannelPlayer) (player : ChannelPlayer)
    (p2n : List Char) (mod set : Bool) : Except ChannelNotice ChannelWorld :=
  w.asModerator player <|
    if player.guid = w.channel.ownerGUID ∧ p2n = player.name ∧ mod then .ok w
    else match w.namedMember online player p2n with
    | none => .error (.playerNotFound p2n)
    | some newp =>
      if w.channel.ownerGUID = newp.guid ∧ w.channel.ownerGUID ≠ player.guid then
        .error .notOwner
      else if mod then .ok (w.setChannel (w.channel.setModerator newp.guid set))
      else .ok (w.setChannel (w.channel.setMute newp.guid set))

def setOwner (w : ChannelWorld) (online : List ChannelPlayer) (player : ChannelPlayer)
    (newname : List Char) : Except ChannelNotice ChannelWorld :=
  if !w.channel.isOn player.guid then .error .notMember
  else if !player.changeNotModerator ∧ player.guid ≠ w.channel.ownerGUID then .error .notOwner
  else match w.namedMember online player newname with
  | none => .error (.playerNotFound newname)
  | some newp => .ok (w.setChannel
      ((w.channel.modify newp.guid (·.setModerator true)).setOwner newp.guid))

end ChannelWorld

end Sky548
