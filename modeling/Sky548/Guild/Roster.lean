import Sky548.KeyedList
import Sky548.ObjectGuid

/-!
# The guild's member map and rank table

`Guild::Member`, `Guild::RankInfo` and `Guild` (`Guild.h`, `Guild.cpp`), with
the operations below the client handlers: rank lookups and rights, adding and
deleting a member, changing a rank, moving the leadership.

A rank id is a position in the rank table; 0 is the guild master and a larger
id is a lower rank. The table holds between `GUILD_RANKS_MIN_COUNT` and
`GUILD_RANKS_MAX_COUNT` ranks, which `RankTable` carries; the member map is
keyed by the low part of the member's GUID.
-/

namespace Sky548

open List KeyedList

def grGuildmaster : UInt8 := 0

def grMember : UInt8 := 3

def guildRankNone : UInt8 := 0xFF

def guildRanksMinCount : Nat := 2

def guildRanksMaxCount : Nat := 10

def grRightEmpty : UInt32 := 0x00000040

def grRightGchatListen : UInt32 := grRightEmpty ||| 0x00000001

def grRightGchatSpeak : UInt32 := grRightEmpty ||| 0x00000002

def grRightInvite : UInt32 := grRightEmpty ||| 0x00000010

def grRightRemove : UInt32 := grRightEmpty ||| 0x00000020

def grRightPromote : UInt32 := grRightEmpty ||| 0x00000080

def grRightDemote : UInt32 := grRightEmpty ||| 0x00000100

def grRightAll : UInt32 := 0x00DDFFBF

/-- `Guild::RankInfo`, as the rank handlers use it. -/
structure RankInfo where
  rankId : UInt8
  name : String
  rights : UInt32
  deriving DecidableEq, Repr

namespace RankInfo

/-- `SetRights`: the guild master's rank keeps every right. -/
def setRights (r : RankInfo) (rights : UInt32) : RankInfo :=
  { r with rights := if r.rankId = grGuildmaster then grRightAll else rights }

def setName (r : RankInfo) (name : String) : RankInfo := { r with name := name }

def setId (r : RankInfo) (id : UInt8) : RankInfo := { r with rankId := id }

end RankInfo

/-- The localised titles of the default ranks (`LANG_GUILD_MASTER` and so on). -/
structure RankTitles where
  guildMaster : String
  officer : String
  veteran : String
  member : String
  initiate : String

/-- `m_ranks`: two to ten ranks, the position being the rank id. -/
structure RankTable where
  toList : List RankInfo
  minCount : guildRanksMinCount ≤ toList.length
  maxCount : toList.length ≤ guildRanksMaxCount

namespace RankTable

instance : DecidableEq RankTable := fun t u =>
  decidable_of_iff (t.toList = u.toList) (by
    cases t
    cases u
    simp)

def size (t : RankTable) : UInt8 := UInt8.ofNat t.toList.length

def lowestRankId (t : RankTable) : UInt8 := UInt8.ofNat (t.toList.length - 1)

def getRankInfo (t : RankTable) (rankId : UInt8) : Option RankInfo :=
  if rankId < t.size then t.toList[rankId.toNat]? else none

/-- `_GetRankRights`: a rank id outside the table has no rights at all. -/
def getRankRights (t : RankTable) (rankId : UInt8) : UInt32 :=
  match t.getRankInfo rankId with
  | some rankInfo => rankInfo.rights
  | none => 0

theorem length_le (t : RankTable) : t.toList.length ≤ 10 := t.maxCount

theorem two_le_length (t : RankTable) : 2 ≤ t.toList.length := t.minCount

@[simp] theorem size_toNat (t : RankTable) : t.size.toNat = t.toList.length := by
  have := t.length_le
  rw [size, UInt8.toNat_ofNat', Nat.mod_eq_of_lt (by omega)]

@[simp] theorem lowestRankId_toNat (t : RankTable) :
    t.lowestRankId.toNat = t.toList.length - 1 := by
  have := t.length_le
  rw [lowestRankId, UInt8.toNat_ofNat', Nat.mod_eq_of_lt (by omega)]

theorem lowestRankId_ne_zero (t : RankTable) : t.lowestRankId ≠ 0 := by
  intro zero
  have eq := t.lowestRankId_toNat
  have := t.two_le_length
  rw [zero] at eq
  simp at eq
  omega

theorem lowestRankId_lt_size (t : RankTable) : t.lowestRankId < t.size := by
  have := t.two_le_length
  rw [UInt8.lt_iff_toNat_lt, lowestRankId_toNat, size_toNat]
  omega

theorem getRankInfo_isSome_iff {t : RankTable} {rankId : UInt8} :
    (t.getRankInfo rankId).isSome ↔ rankId < t.size := by
  unfold getRankInfo
  split
  · rename_i lt
    have inRange : rankId.toNat < t.toList.length := by
      rwa [UInt8.lt_iff_toNat_lt, size_toNat] at lt
    simp [inRange, lt]
  · rename_i outside
    simp [outside]

def createRank (t : RankTable) (name : String) (rights : UInt32) : RankTable :=
  if room : t.toList.length < guildRanksMaxCount then
    { toList := t.toList ++ [⟨t.size, name, rights⟩]
      minCount := by
        rw [length_append]
        exact Nat.le_trans t.minCount (Nat.le_add_right _ _)
      maxCount := by
        rw [length_append]
        exact room }
  else t

/-- The table after `m_ranks.erase(begin + rankId)` and the renumbering loop,
when more than the minimum of ranks is there. -/
def removeRank (t : RankTable) (rankId : UInt8) : RankTable :=
  if room : guildRanksMinCount < t.toList.length then
    { toList := (t.toList.eraseIdx rankId.toNat).map fun r =>
        if r.rankId > rankId then r.setId (r.rankId - 1) else r
      minCount := by
        rw [length_map, length_eraseIdx]
        have := t.minCount
        split <;> omega
      maxCount := by
        rw [length_map, length_eraseIdx]
        have := t.maxCount
        split <;> omega }
  else t

/-- `std::swap(m_ranks[i], m_ranks[j])`, then each entry takes its position's id. -/
def swapRanks (t : RankTable) (i j : UInt8) : RankTable :=
  match t.toList[i.toNat]?, t.toList[j.toNat]? with
  | some a, some b =>
    { toList := (t.toList.set i.toNat (b.setId i)).set j.toNat (a.setId j)
      minCount := by simpa using t.minCount
      maxCount := by simpa using t.maxCount }
  | _, _ => t

/-- The last entry with an id, as the search loop of `HandleUpdateRank` leaves it. -/
def lastIdxOfId (t : RankTable) (id : UInt32) : Option Nat :=
  (t.toList.zipIdx.foldl (fun found entry =>
    if entry.1.rankId.toUInt32 = id then some entry.2 else found) none)

/-- Exchange names and rights of two entries, leaving the rest in place. -/
def exchangeNameAndRights (t : RankTable) (i j : Nat) : RankTable :=
  match t.toList[i]?, t.toList[j]? with
  | some rankInfo1, some rankInfo2 =>
    let tmp := rankInfo2
    let rankInfo2 := (rankInfo2.setName rankInfo1.name).setRights rankInfo1.rights
    let rankInfo1 := (rankInfo1.setName tmp.name).setRights tmp.rights
    { toList := (t.toList.set j rankInfo2).set i rankInfo1
      minCount := by simpa using t.minCount
      maxCount := by simpa using t.maxCount }
  | _, _ => t

def createDefaultGuildRanks (titles : RankTitles) : RankTable where
  toList :=
    [⟨0, titles.guildMaster, grRightAll⟩, ⟨1, titles.officer, grRightAll⟩,
      ⟨2, titles.veteran, grRightGchatListen ||| grRightGchatSpeak⟩,
      ⟨3, titles.member, grRightGchatListen ||| grRightGchatSpeak⟩,
      ⟨4, titles.initiate, grRightGchatListen ||| grRightGchatSpeak⟩]
  minCount := by simp [guildRanksMinCount]
  maxCount := by simp [guildRanksMaxCount]

end RankTable

/-- `Guild::Member`: the fields the rank and membership handlers read. -/
structure Member where
  guid : UInt64
  name : String
  rankId : UInt8
  logoutTime : UInt64
  deriving DecidableEq, Repr

namespace Member

/-- The key of `m_members`. -/
def lowGuid (m : Member) : UInt32 := guidLoPart m.guid

def isRank (m : Member) (rankId : UInt8) : Bool := m.rankId == rankId

/-- `IsRankNotLower`: the member's rank is `rankId` or a better one. -/
def isRankNotLower (m : Member) (rankId : UInt8) : Bool := m.rankId ≤ rankId

def isSamePlayer (m : Member) (guid : UInt64) : Bool := m.guid == guid

def changeRank (m : Member) (newRank : UInt8) : Member := { m with rankId := newRank }

@[simp] theorem changeRank_lowGuid (m : Member) (newRank : UInt8) :
    (m.changeRank newRank).lowGuid = m.lowGuid := rfl

@[simp] theorem changeRank_guid (m : Member) (newRank : UInt8) :
    (m.changeRank newRank).guid = m.guid := rfl

@[simp] theorem changeRank_rankId (m : Member) (newRank : UInt8) :
    (m.changeRank newRank).rankId = newRank := rfl

end Member

abbrev Members := KeyedList Member Member.lowGuid

/-- What `GuildMgr::GenerateGuildId` gives out; 0 is a player's "no guild". -/
abbrev GuildId := { id : UInt32 // id ≠ 0 }

theorem guildId_one : (1 : UInt32) ≠ 0 := by decide

/-- `Guild`: the fields the rank and membership handlers read. -/
structure Guild where
  id : GuildId
  leaderGuid : UInt64
  level : UInt8
  ranks : RankTable
  members : Members
  deriving DecidableEq

namespace Guild

/-- `GetMember(guid)`: by the low part alone. -/
def getMember (g : Guild) (guid : UInt64) : Option Member :=
  g.members.find? (guidLoPart guid)

/-- `GetMember(name)`: the first member of that name in iteration order. -/
def getMemberByName (g : Guild) (name : String) : Option Member :=
  g.members.toList.find? fun m => m.name = name

def isMember (g : Guild) (guid : UInt64) : Bool := (g.getMember guid).isSome

/-- `Member::ChangeRank` on the member stored under `key`. -/
def changeRankOf (g : Guild) (key : UInt32) (newRank : UInt8) : Guild :=
  { g with
    members := g.members.update (fun m => if m.lowGuid = key then m.changeRank newRank else m)
      (fun m => by split <;> simp) }

/-- A loop over `m_members` that gives each member the rank `f` computes from
the rank it has. -/
def mapRanks (g : Guild) (f : UInt8 → UInt8) : Guild :=
  { g with
    members := g.members.update (fun m => m.changeRank (f m.rankId))
      (fun m => m.changeRank_lowGuid _) }

def hasRankRight (g : Guild) (player : UInt64) (right : UInt32) : Bool :=
  match g.getMember player with
  | some member => (g.ranks.getRankRights member.rankId &&& right) ≠ grRightEmpty
  | none => false

/-- `_IsLeader`: by the leader GUID or by rank. -/
def isLeader (g : Guild) (player : UInt64) : Bool :=
  if player = g.leaderGuid then true
  else match g.getMember player with
    | some member => member.isRank grGuildmaster
    | none => false

def setLeaderGUID (g : Guild) (leader : Member) : Guild :=
  { g with leaderGuid := leader.guid }.changeRankOf leader.lowGuid grGuildmaster

/-- The member map part of `AddMember`: the new entry, at the lowest rank when
no rank was passed. -/
def addMember (g : Guild) (guid : UInt64) (name : String) (now : UInt64)
    (rankId : UInt8 := guildRankNone) : Guild :=
  let rankId := if rankId = guildRankNone then g.ranks.lowestRankId else rankId
  { g with members := g.members.insert ⟨guid, name, rankId, now⟩ }

/-- One turn of the search loop of `DeleteMember`. -/
def betterLeader (lowguid : UInt32) (newLeader : Option Member) (m : Member) : Option Member :=
  if m.lowGuid = lowguid then newLeader
  else match newLeader with
    | none => some m
    | some best => if best.rankId > m.rankId then some m else some best

/-- The search loop of `DeleteMember`: the first member of the best rank among
those stored under another key. -/
def newLeader? (g : Guild) (lowguid : UInt32) : Option Member :=
  g.members.toList.foldl (betterLeader lowguid) none

def eraseMember (g : Guild) (lowguid : UInt32) : Guild :=
  { g with members := g.members.erase lowguid }

/-- The guild's part of `DeleteMember`; `none` when the guild disbands because
its leader was the last member. -/
def deleteMember (g : Guild) (guid : UInt64) (isDisbanding : Bool := false) : Option Guild :=
  if g.leaderGuid = guid ∧ isDisbanding = false then
    match g.newLeader? (guidLoPart guid) with
    | none => none
    | some newLeader => some ((g.setLeaderGUID newLeader).eraseMember (guidLoPart guid))
  else some (g.eraseMember (guidLoPart guid))

variable {g : Guild}

variable {guid : UInt64} {m : Member}

theorem getMember_eq_some_iff :
    g.getMember guid = some m ↔ m ∈ g.members ∧ m.lowGuid = guidLoPart guid :=
  find?_eq_some_iff

theorem getMember_of_mem (member : m ∈ g.members) : g.getMember m.guid = some m :=
  find?_of_mem member

theorem getMemberByName_mem {name : String} (found : g.getMemberByName name = some m) :
    m ∈ g.members :=
  mem_of_find?_eq_some found

variable {key : UInt32} {newRank : UInt8}

theorem mem_changeRankOf : m ∈ (g.changeRankOf key newRank).members ↔ ∃ old ∈ g.members,
        m = if old.lowGuid = key then old.changeRank newRank else old := by
  simp only [changeRankOf, mem_update]
  exact exists_congr fun _ => and_congr_right fun _ => eq_comm

theorem mem_mapRanks {f : UInt8 → UInt8} :
    m ∈ (g.mapRanks f).members ↔ ∃ old ∈ g.members, m = old.changeRank (f old.rankId) := by
  simp only [mapRanks, mem_update]
  exact exists_congr fun _ => and_congr_right fun _ => eq_comm

theorem mem_eraseMember : m ∈ (g.eraseMember key).members ↔ m ∈ g.members ∧ m.lowGuid ≠ key :=
  mem_erase

@[simp] theorem changeRankOf_leaderGuid :
    (g.changeRankOf key newRank).leaderGuid = g.leaderGuid := rfl

variable {leader : Member}

@[simp] theorem setLeaderGUID_leaderGuid :
    (g.setLeaderGUID leader).leaderGuid = leader.guid := rfl

@[simp] theorem eraseMember_leaderGuid :
    (g.eraseMember key).leaderGuid = g.leaderGuid := rfl

theorem mem_setLeaderGUID : m ∈ (g.setLeaderGUID leader).members ↔ ∃ old ∈ g.members,
        m = if old.lowGuid = leader.lowGuid then old.changeRank grGuildmaster else old :=
  mem_changeRankOf

variable {lowguid : UInt32}

theorem mem_of_betterLeader {start : Option Member} {l : List Member}
    (found : l.foldl (betterLeader lowguid) start = some m) :
    start = some m ∨ (m ∈ l ∧ m.lowGuid ≠ lowguid) := by
  induction l generalizing start with
  | nil => exact Or.inl found
  | cons head rest ih =>
    rcases ih found with now | ⟨member, other⟩
    · unfold betterLeader at now
      split at now
      · exact Or.inl now
      rename_i other
      cases start with
      | none =>
        cases now
        exact Or.inr ⟨mem_cons_self, other⟩
      | some best =>
        dsimp only at now
        split at now
        · cases now
          exact Or.inr ⟨mem_cons_self, other⟩
        · exact Or.inl now
    · exact Or.inr ⟨mem_cons_of_mem _ member, other⟩

theorem newLeader?_mem (found : g.newLeader? lowguid = some m) :
    m ∈ g.members ∧ m.lowGuid ≠ lowguid := by
  rcases mem_of_betterLeader found with impossible | inner
  · cases impossible
  · exact inner

theorem isSome_foldl_betterLeader {start : Option Member} {l : List Member}
    (found : start.isSome ∨ ∃ m ∈ l, m.lowGuid ≠ lowguid) :
    (l.foldl (betterLeader lowguid) start).isSome := by
  induction l generalizing start with
  | nil =>
    rcases found with found | ⟨m, impossible, -⟩
    · exact found
    · cases impossible
  | cons head rest ih =>
    refine ih ?_
    unfold betterLeader
    by_cases skipped : head.lowGuid = lowguid
    · rw [if_pos skipped]
      rcases found with found | ⟨m, member, other⟩
      · exact Or.inl found
      · rcases List.mem_cons.mp member with rfl | member
        · exact absurd skipped other
        · exact Or.inr ⟨m, member, other⟩
    · rw [if_neg skipped]
      refine Or.inl ?_
      cases start with
      | none => rfl
      | some best =>
        dsimp only
        split <;> rfl

theorem newLeader?_isSome (member : m ∈ g.members) (other : m.lowGuid ≠ lowguid) :
    (g.newLeader? lowguid).isSome :=
  isSome_foldl_betterLeader (Or.inr ⟨m, member, other⟩)

/-- Every member of `g'` is one of `g`, up to rank and stored data. -/
def MembersFrom (g' g : Guild) : Prop :=
  ∀ m' ∈ g'.members, ∃ m ∈ g.members, m.guid = m'.guid

theorem MembersFrom.refl (g : Guild) : g.MembersFrom g :=
  fun m member => ⟨m, member, rfl⟩

theorem MembersFrom.trans {g₁ g₂ g₃ : Guild} (h₁ : g₁.MembersFrom g₂) (h₂ : g₂.MembersFrom g₃) :
    g₁.MembersFrom g₃ := by
  intro m member
  obtain ⟨mid, midMember, same⟩ := h₁ m member
  obtain ⟨old, oldMember, same'⟩ := h₂ mid midMember
  exact ⟨old, oldMember, same'.trans same⟩

theorem membersFrom_changeRankOf : (g.changeRankOf key newRank).MembersFrom g := by
  intro m member
  obtain ⟨old, oldMember, rfl⟩ := mem_changeRankOf.mp member
  refine ⟨old, oldMember, ?_⟩
  split <;> rfl

theorem membersFrom_mapRanks {f : UInt8 → UInt8} : (g.mapRanks f).MembersFrom g := by
  intro m member
  obtain ⟨old, oldMember, rfl⟩ := mem_mapRanks.mp member
  exact ⟨old, oldMember, rfl⟩

theorem membersFrom_setLeaderGUID : (g.setLeaderGUID leader).MembersFrom g := by
  intro m member
  obtain ⟨old, oldMember, rfl⟩ := mem_setLeaderGUID.mp member
  refine ⟨old, oldMember, ?_⟩
  split <;> rfl

theorem membersFrom_eraseMember : (g.eraseMember key).MembersFrom g :=
  fun m member => ⟨m, (mem_eraseMember.mp member).1, rfl⟩

variable {g' : Guild}

theorem membersFrom_deleteMember (deleted : g.deleteMember guid = some g') : g'.MembersFrom g := by
  unfold deleteMember at deleted
  split at deleted
  · split at deleted
    · cases deleted
    · cases deleted
      exact membersFrom_eraseMember.trans membersFrom_setLeaderGUID
  · cases deleted
    exact membersFrom_eraseMember

/-- All members are stored under a player's GUID. -/
def PlayersOnly (g : Guild) : Prop := ∀ m ∈ g.members, IsPlayerGuid m.guid

theorem PlayersOnly.of_membersFrom (players : g.PlayersOnly) (old : g'.MembersFrom g) :
    g'.PlayersOnly := by
  intro m member
  obtain ⟨was, wasMember, same⟩ := old m member
  rw [← same]
  exact players was wasMember

theorem exists_mem_deleteMember_iff {low : UInt32} (deleted : g.deleteMember guid = some g') :
    (∃ m ∈ g'.members, m.lowGuid = low) ↔
      (∃ m ∈ g.members, m.lowGuid = low) ∧ low ≠ guidLoPart guid := by
  unfold deleteMember at deleted
  constructor
  · rintro ⟨m, member, key⟩
    obtain ⟨old, oldMember, same⟩ := membersFrom_deleteMember deleted m member
    refine ⟨⟨old, oldMember, ?_⟩, ?_⟩
    · rw [← key, Member.lowGuid, Member.lowGuid, same]
    rw [← key]
    split at deleted
    · split at deleted
      · cases deleted
      · cases deleted
        exact (mem_eraseMember.mp member).2
    · cases deleted
      exact (mem_eraseMember.mp member).2
  · rintro ⟨⟨m, member, rfl⟩, other⟩
    split at deleted
    · split at deleted
      · cases deleted
      rename_i newLeader _
      cases deleted
      refine ⟨_, mem_eraseMember.mpr ⟨mem_setLeaderGUID.mpr ⟨m, member, rfl⟩, ?_⟩, ?_⟩
      · split
        · exact other
        · exact other
      · split <;> rfl
    · cases deleted
      exact ⟨m, mem_eraseMember.mpr ⟨member, other⟩, rfl⟩

theorem exists_deleteMember (member : m ∈ g.members) (other : m.lowGuid ≠ guidLoPart guid) :
    ∃ g', g.deleteMember guid = some g' := by
  unfold deleteMember
  split
  · obtain ⟨newLeader, found⟩ := Option.isSome_iff_exists.mp (newLeader?_isSome member other)
    rw [found]
    exact ⟨_, rfl⟩
  · exact ⟨_, rfl⟩

theorem deleteMember_id (deleted : g.deleteMember guid = some g') : g'.id = g.id := by
  unfold deleteMember at deleted
  split at deleted
  · split at deleted
    · cases deleted
    · cases deleted
      rfl
  · cases deleted
    rfl

theorem exists_mem_addMember_iff {now : UInt64} {name : String} {low : UInt32} :
    (∃ m ∈ (g.addMember guid name now).members, m.lowGuid = low) ↔
      low = guidLoPart guid ∨ ∃ m ∈ g.members, m.lowGuid = low := by
  constructor
  · rintro ⟨m, member, rfl⟩
    rcases mem_insert.mp member with rfl | ⟨old, -⟩
    · exact Or.inl rfl
    · exact Or.inr ⟨m, old, rfl⟩
  · intro either
    by_cases same : low = guidLoPart guid
    · exact ⟨_, mem_insert.mpr (Or.inl rfl), same.symm⟩
    · rcases either with now | ⟨m, member, rfl⟩
      · exact absurd now same
      · exact ⟨m, mem_insert.mpr (Or.inr ⟨member, same⟩), rfl⟩

end Guild

end Sky548
