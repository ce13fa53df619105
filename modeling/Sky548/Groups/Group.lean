import Mathlib.Data.List.Basic

/-!
# Groups of players

`Group` (`Group.h`, `Group.cpp`) as far as its members go: the member slots and their subgroups, the
invited players, the leader, the type, and the counters `m_subGroupsCounts` that a raid keeps of its
subgroups.

What an operation asks of the world around the group is a parameter. A disbanded group is deleted,
so an operation that may disband returns no group then.
-/

namespace Sky548

open List

def maxGroupSize : Nat := 5

def maxRaidSize : Nat := 40

def maxRaidSubgroups : Nat := maxRaidSize / maxGroupSize

def groupTypeNormal : UInt8 := 0x00

def groupTypeBG : UInt8 := 0x01

def groupTypeRaid : UInt8 := 0x02

def groupTypeBGRaid : UInt8 := groupTypeBG ||| groupTypeRaid

def groupTypeUnk1 : UInt8 := 0x04

def groupTypeLFG : UInt8 := 0x08

inductive GroupMemberFlag
  | assistant
  | mainTank
  | mainAssist
  deriving DecidableEq, Repr

def GroupMemberFlag.mask : GroupMemberFlag → UInt8
  | .assistant => 0x01
  | .mainTank => 0x02
  | .mainAssist => 0x04

structure MemberSlot where
  guid : UInt64
  group : Nat
  flags : UInt8
  deriving DecidableEq, Repr

abbrev SubGroupCounts := Fin maxRaidSubgroups → UInt8

structure Group where
  memberSlots : List MemberSlot
  invitees : List UInt64
  leaderGuid : UInt64
  groupType : UInt8
  bgGroup : Bool
  bfGroup : Bool
  subGroupsCounts : Option SubGroupCounts

/-- What `RemoveMember` asks of the world: the size of `m_memberMgr` once the
member is gone, and whether the leader of a dungeon group is away from it. -/
structure Surroundings where
  online : UInt64 → Bool
  linked : Nat
  leaderAway : Bool

namespace MemberSlot

def update (guid : UInt64) (f : MemberSlot → MemberSlot) : List MemberSlot → List MemberSlot
  | [] => []
  | slot :: rest => if slot.guid = guid then f slot :: rest else slot :: update guid f rest

def toggleFlag (slot : MemberSlot) (flag : GroupMemberFlag) (apply : Bool) : MemberSlot :=
  { slot with flags := if apply then slot.flags ||| flag.mask else slot.flags &&& ~~~flag.mask }

theorem find?_split {guid : UInt64} {slot : MemberSlot} {slots : List MemberSlot}
    (found : slots.find? (·.guid = guid) = some slot) :
    ∃ before after, slots = before ++ slot :: after ∧ slot.guid = guid ∧
      (∀ other ∈ before, other.guid ≠ guid) ∧
      (∀ f, update guid f slots = before ++ f slot :: after) ∧
      slots.eraseP (·.guid = guid) = before ++ after := by
  induction slots with
  | nil => cases found
  | cons head rest ih =>
    by_cases first : head.guid = guid
    · rw [find?_cons_of_pos (by simpa using first)] at found
      cases found
      refine ⟨[], rest, rfl, first, by simp, fun f => ?_, ?_⟩
      · rw [update, if_pos first, nil_append]
      · rw [eraseP_cons_of_pos (by simpa using first), nil_append]
    · rw [find?_cons_of_neg (by simpa using first)] at found
      obtain ⟨before, after, split, same, none, updated, erased⟩ := ih found
      refine ⟨head :: before, after, ?_, same, ?_, fun f => ?_, ?_⟩
      · rw [split, cons_append]
      · rintro other member
        rcases List.mem_cons.mp member with rfl | later
        · exact first
        · exact none other later
      · rw [update, if_neg first, updated, cons_append]
      · rw [eraseP_cons_of_neg (by simpa using first), erased, cons_append]

theorem map_update {α : Type} {guid : UInt64} {f : MemberSlot → MemberSlot} {part : MemberSlot → α}
    (same : ∀ slot, part (f slot) = part slot) (slots : List MemberSlot) :
    (update guid f slots).map part = slots.map part := by
  induction slots with
  | nil => rfl
  | cons head rest ih =>
    rw [update]
    split
    · rw [map_cons, map_cons, same]
    · rw [map_cons, map_cons, ih]

@[simp] theorem toggleFlag_group (slot : MemberSlot) (flag : GroupMemberFlag) (apply : Bool) :
    (slot.toggleFlag flag apply).group = slot.group := rfl

@[simp] theorem toggleFlag_guid (slot : MemberSlot) (flag : GroupMemberFlag) (apply : Bool) :
    (slot.toggleFlag flag apply).guid = slot.guid := rfl

end MemberSlot

namespace SubGroupCounts

def modify (counts : SubGroupCounts) (subgroup : Nat) (f : UInt8 → UInt8) : SubGroupCounts :=
  fun i => if (i : Nat) = subgroup then f (counts i) else counts i

def firstFree? (counts : SubGroupCounts) : Option Nat :=
  ((List.finRange maxRaidSubgroups).find? fun i => (counts i).toNat < maxGroupSize).map Fin.val

end SubGroupCounts

namespace Group

/-- A group before `Create`: `SetBattlegroundGroup` or `SetBattlefieldGroup` may have run. -/
def new (bgGroup bfGroup : Bool) : Group where
  memberSlots := []
  invitees := []
  leaderGuid := 0
  groupType := groupTypeNormal
  bgGroup := bgGroup
  bfGroup := bfGroup
  subGroupsCounts := none

def isLFGGroup (g : Group) : Bool := g.groupType &&& groupTypeLFG ≠ 0

def isRaidGroup (g : Group) : Bool := g.groupType &&& groupTypeRaid ≠ 0

def isBGGroup (g : Group) : Bool := g.bgGroup

def isBFGroup (g : Group) : Bool := g.bfGroup

def getMembersCount (g : Group) : Nat := g.memberSlots.length

def isCreated (g : Group) : Bool := 0 < g.getMembersCount

def isFull (g : Group) : Bool :=
  if g.isRaidGroup then maxRaidSize ≤ g.memberSlots.length
  else maxGroupSize ≤ g.memberSlots.length

def getMemberSlot (g : Group) (guid : UInt64) : Option MemberSlot :=
  g.memberSlots.find? (·.guid = guid)

def isMember (g : Group) (guid : UInt64) : Bool := (g.getMemberSlot guid).isSome

def isLeader (g : Group) (guid : UInt64) : Bool := g.leaderGuid = guid

def isAssistant (g : Group) (guid : UInt64) : Bool :=
  match g.getMemberSlot guid with
  | none => false
  | some slot => slot.flags &&& GroupMemberFlag.mask .assistant ≠ 0

def getMemberGroup (g : Group) (guid : UInt64) : Nat :=
  match g.getMemberSlot guid with
  | none => maxRaidSubgroups + 1
  | some slot => slot.group

def hasFreeSlotSubGroup (g : Group) (subgroup : Fin maxRaidSubgroups) : Bool :=
  match g.subGroupsCounts with
  | none => false
  | some counts => (counts subgroup).toNat < maxGroupSize

def initRaidSubGroupsCounter (g : Group) : Group :=
  { g with
    subGroupsCounts := some
      (g.memberSlots.foldl (fun counts slot => counts.modify slot.group (· + 1)) fun _ => 0) }

def subGroupCounterIncrease (g : Group) (subgroup : Nat) : Group :=
  { g with subGroupsCounts := g.subGroupsCounts.map fun counts => counts.modify subgroup (· + 1) }

def subGroupCounterDecrease (g : Group) (subgroup : Nat) : Group :=
  { g with subGroupsCounts := g.subGroupsCounts.map fun counts => counts.modify subgroup (· - 1) }

/-- The subgroup that `AddMember` puts the next member in. -/
def nextSubGroup? (g : Group) : Option Nat :=
  match g.subGroupsCounts with
  | none => some 0
  | some counts => counts.firstFree?

def pushSlot (g : Group) (guid : UInt64) (subGroup : Nat) : Group :=
  let member : MemberSlot := ⟨guid, subGroup, 0⟩
  { g with memberSlots := g.memberSlots ++ [member] }.subGroupCounterIncrease subGroup

/-- `AddMember`; `false` when a raid has no free place. -/
def addMember (g : Group) (guid : UInt64) : Group × Bool :=
  match g.nextSubGroup? with
  | none => (g, false)
  | some subGroup => (g.pushSlot guid subGroup, true)

/-- A group of a battleground or battlefield is a raid from its creation. -/
def createdType (g : Group) : UInt8 :=
  if g.isBGGroup || g.isBFGroup then groupTypeBGRaid else g.groupType

/-- `Create` up to its `AddMember`. -/
def start (g : Group) (leader : UInt64) : Group :=
  let g := { g with leaderGuid := leader, groupType := g.createdType }
  if g.isRaidGroup then g.initRaidSubGroupsCounter else g

def create (g : Group) (leader : UInt64) : Group × Bool := (g.start leader).addMember leader

/-- `ChangeLeader`: not to an offline player. -/
def changeLeader (g : Group) (online : UInt64 → Bool) (newLeaderGuid : UInt64) : Group :=
  match g.getMemberSlot newLeaderGuid with
  | none => g
  | some slot =>
    if online slot.guid then
      { g with
        leaderGuid := slot.guid
        memberSlots := MemberSlot.update newLeaderGuid (·.toggleFlag .assistant false)
          g.memberSlots }
    else g

/-- The first slot of a player goes, and the counter of its subgroup goes down. -/
def dropSlot (g : Group) (guid : UInt64) (subGroup : Nat) : Group :=
  let g := g.subGroupCounterDecrease subGroup
  { g with memberSlots := g.memberSlots.eraseP (·.guid = guid) }

/-- `RemoveMember`, `Update subgroups` -/
def eraseSlot (g : Group) (guid : UInt64) : Group :=
  match g.getMemberSlot guid with
  | none => g
  | some slot => g.dropSlot guid slot.group

def pickLeader (g : Group) (online : UInt64 → Bool) (guid : UInt64) : Group :=
  if g.leaderGuid = guid then
    match g.memberSlots.find? (fun slot => online slot.guid) with
    | none => g
    | some slot => g.changeLeader online slot.guid
  else g

/-- A group that a removal leaves with at most this many members is disbanded. -/
def disbandsAt (g : Group) : Nat := if g.isBGGroup || g.isLFGGroup || g.isBFGroup then 1 else 2

/-- The group once a member has left, with a new leader when it was the leader. -/
def without (g : Group) (online : UInt64 → Bool) (guid : UInt64) : Group :=
  (g.eraseSlot guid).pickLeader online guid

/-- What a removal leaves behind may be too small to go on. -/
def disbandsAfter (g : Group) (around : Surroundings) : Bool :=
  g.isLFGGroup && g.getMembersCount = 1 && around.leaderAway ||
    around.linked < (if g.isLFGGroup || g.isBGGroup then 1 else 2)

/-- `RemoveMember`; a dungeon group only votes on a kick. -/
def removeMember (g : Group) (guid : UInt64) (kick : Bool) (around : Surroundings) :
    Option Group :=
  if g.isLFGGroup && kick then some g
  else if g.disbandsAt < g.getMembersCount then
    let g := g.without around.online guid
    if g.disbandsAfter around then none else some g
  else none

def convertToLFG (g : Group) : Group :=
  { g with groupType := g.groupType ||| groupTypeLFG ||| groupTypeUnk1 }

def convertToRaid (g : Group) : Group :=
  { g with groupType := g.groupType ||| groupTypeRaid }.initRaidSubGroupsCounter

def convertToGroup (g : Group) : Group :=
  if 5 < g.memberSlots.length then g
  else { g with groupType := groupTypeNormal, subGroupsCounts := none }

/-- The member's slot and both counters follow a move. -/
def moveSlot (g : Group) (guid : UInt64) (prevSubGroup group : Nat) : Group :=
  let g := { g with memberSlots := MemberSlot.update guid ({ · with group }) g.memberSlots }
  (g.subGroupCounterIncrease group).subGroupCounterDecrease prevSubGroup

def changeMembersGroup (g : Group) (guid : UInt64) (group : Nat) : Group :=
  if !g.isRaidGroup then g
  else if !g.isMember guid then g
  else
    let prevSubGroup := g.getMemberGroup guid
    if prevSubGroup = group then g
    else g.moveSlot guid prevSubGroup group

def handleGroupChangeSubGroup (g : Group) (sender guid : UInt64) (groupNr : UInt8) : Group :=
  if inRange : groupNr.toNat < maxRaidSubgroups then
    if !g.isLeader sender && !g.isAssistant sender then g
    else if !g.hasFreeSlotSubGroup ⟨groupNr.toNat, inRange⟩ then g
    else g.changeMembersGroup guid groupNr.toNat
  else g

/-- `SetGroupMemberFlag`: main tank and main assist are unique. -/
def setGroupMemberFlag (g : Group) (guid : UInt64) (apply : Bool) (flag : GroupMemberFlag) :
    Group :=
  if !g.isRaidGroup then g
  else if !g.isMember guid then g
  else
    let slots := match flag with
      | .assistant => g.memberSlots
      | .mainTank | .mainAssist => g.memberSlots.map (·.toggleFlag flag false)
    { g with memberSlots := MemberSlot.update guid (·.toggleFlag flag apply) slots }

end Group

end Sky548
