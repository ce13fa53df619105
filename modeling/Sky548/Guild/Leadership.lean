import Sky548.Guild.Handlers
import Sky548.Machine

/-!
# Guild leadership

A guild is well led when its leader GUID names a member of rank 0 and no other member has rank 0.
-/

namespace Sky548

open KeyedList

namespace Guild

structure WellLed (g : Guild) : Prop where
  leader : ∃ m ∈ g.members, m.guid = g.leaderGuid ∧ m.rankId = grGuildmaster
  sole : ∀ m ∈ g.members, m.rankId = grGuildmaster → m.guid = g.leaderGuid

instance (g : Guild) : Decidable g.WellLed :=
  decidable_of_iff ((∃ m ∈ g.members, m.guid = g.leaderGuid ∧ m.rankId = grGuildmaster) ∧
      ∀ m ∈ g.members, m.rankId = grGuildmaster → m.guid = g.leaderGuid)
    ⟨fun h => ⟨h.1, h.2⟩, fun h => ⟨h.leader, h.sole⟩⟩

variable {g : Guild}

variable {m : Member}

theorem eq_of_guid_eq {n : Member} (hm : m ∈ g.members) (hn : n ∈ g.members)
    (same : m.guid = n.guid) : m = n :=
  eq_of_key_eq hm hn (by rw [Member.lowGuid, Member.lowGuid, same])

theorem WellLed.rank_eq_zero_iff (led : g.WellLed) (member : m ∈ g.members) :
    m.rankId = grGuildmaster ↔ m.guid = g.leaderGuid := by
  refine ⟨led.sole m member, fun isLeader => ?_⟩
  obtain ⟨leader, leaderMember, leaderGuid, leaderRank⟩ := led.leader
  have same := eq_of_guid_eq member leaderMember (by rw [isLeader, leaderGuid])
  rw [same, leaderRank]

theorem wellLed_mapRanks_iff (led : g.WellLed) {f : UInt8 → UInt8} : (g.mapRanks f).WellLed ↔
      f grGuildmaster = grGuildmaster ∧
        ∀ m ∈ g.members, f m.rankId = grGuildmaster → m.rankId = grGuildmaster := by
  constructor
  · intro kept
    refine ⟨?_, fun m member moved => ?_⟩
    · obtain ⟨new, newMember, newGuid, newRank⟩ := kept.leader
      obtain ⟨old, member, rfl⟩ := mem_mapRanks.mp newMember
      have oldRank := (led.rank_eq_zero_iff member).mpr newGuid
      have moved : f old.rankId = grGuildmaster := newRank
      rwa [oldRank] at moved
    · have guid := kept.sole _ (mem_mapRanks.mpr ⟨m, member, rfl⟩) moved
      exact (led.rank_eq_zero_iff member).mpr guid
  · rintro ⟨fixed, apart⟩
    obtain ⟨leader, member, guid, rank⟩ := led.leader
    refine ⟨⟨_, mem_mapRanks.mpr ⟨leader, member, rfl⟩, guid, ?_⟩, ?_⟩
    · rw [Member.changeRank_rankId, rank, fixed]
    · intro new newMember newRank
      obtain ⟨old, oldMember, rfl⟩ := mem_mapRanks.mp newMember
      exact led.sole old oldMember (apart old oldMember newRank)

theorem wellLed_changeRankOf_iff (led : g.WellLed) (member : m ∈ g.members) {newRank : UInt8} :
    (g.changeRankOf m.lowGuid newRank).WellLed ↔
      (newRank = grGuildmaster ↔ m.guid = g.leaderGuid) := by
  have changed : m.changeRank newRank ∈ (g.changeRankOf m.lowGuid newRank).members :=
    mem_changeRankOf.mpr ⟨m, member, by simp⟩
  constructor
  · intro kept
    exact kept.rank_eq_zero_iff changed
  intro only
  refine ⟨?_, fun new newMember newRank => ?_⟩
  · obtain ⟨leader, leaderMember, guid, rank⟩ := led.leader
    refine ⟨_, mem_changeRankOf.mpr ⟨leader, leaderMember, rfl⟩, ?_⟩
    split
    · rename_i key
      have same := eq_of_key_eq leaderMember member key
      subst same
      exact ⟨guid, only.mpr guid⟩
    · exact ⟨guid, rank⟩
  · obtain ⟨old, oldMember, rfl⟩ := mem_changeRankOf.mp newMember
    by_cases key : old.lowGuid = m.lowGuid
    · have same := eq_of_key_eq oldMember member key
      subst same
      rw [if_pos rfl] at newRank ⊢
      exact only.mp newRank
    · rw [if_neg key] at newRank ⊢
      exact led.sole old oldMember newRank

theorem wellLed_throne_iff (led : g.WellLed) {old new : Member} (oldMember : old ∈ g.members)
    (newMember : new ∈ g.members) (oldGuid : old.guid = g.leaderGuid) :
    (g.throne old new).WellLed ↔ old ≠ new := by
  have lowest := g.ranks.lowestRankId_ne_zero
  constructor
  · rintro kept rfl
    obtain ⟨leader, leaderMember, leaderGuid, leaderRank⟩ := kept.leader
    obtain ⟨mid, midMember, rfl⟩ := mem_changeRankOf.mp leaderMember
    obtain ⟨was, wasMember, rfl⟩ := mem_setLeaderGUID.mp midMember
    by_cases key : was.lowGuid = old.lowGuid
    · simp [key, grGuildmaster] at leaderRank
      exact lowest leaderRank
    apply key
    rw [throne, changeRankOf_leaderGuid, setLeaderGUID_leaderGuid] at leaderGuid
    simp only [key, if_false] at leaderGuid
    rw [Member.lowGuid, Member.lowGuid, leaderGuid]
  · intro moved
    have apart : new.lowGuid ≠ old.lowGuid := fun key =>
      moved (eq_of_key_eq newMember oldMember key).symm
    refine ⟨⟨new.changeRank grGuildmaster, ?_, rfl, rfl⟩, fun m member rank => ?_⟩
    · refine mem_changeRankOf.mpr ⟨new.changeRank grGuildmaster,
        mem_setLeaderGUID.mpr ⟨new, newMember, by simp⟩, ?_⟩
      rw [Member.changeRank_lowGuid, if_neg apart]
    obtain ⟨mid, midMember, rfl⟩ := mem_changeRankOf.mp member
    obtain ⟨was, wasMember, rfl⟩ := mem_setLeaderGUID.mp midMember
    rw [throne, changeRankOf_leaderGuid, setLeaderGUID_leaderGuid]
    by_cases isNew : was.lowGuid = new.lowGuid
    · have same := eq_of_key_eq wasMember newMember isNew
      subst same
      simp [apart]
    simp only [isNew, if_false] at rank ⊢
    by_cases isOld : was.lowGuid = old.lowGuid
    · simp [isOld, grGuildmaster] at rank
      exact absurd rank lowest
    rw [if_neg isOld] at rank
    have guid := led.sole was wasMember rank
    have same := eq_of_guid_eq wasMember oldMember (by rw [guid, oldGuid])
    exact absurd (by rw [same]) isOld

theorem WellLed.eraseMember (led : g.WellLed) {key : UInt32}
    (other : key ≠ guidLoPart g.leaderGuid) : (g.eraseMember key).WellLed := by
  obtain ⟨leader, member, guid, rank⟩ := led.leader
  refine ⟨⟨leader, mem_eraseMember.mpr ⟨member, ?_⟩, guid, rank⟩, fun m kept => ?_⟩
  · rw [Member.lowGuid, guid]
    exact other.symm
  · exact led.sole m (mem_eraseMember.mp kept).1

variable {guid : UInt64}

theorem WellLed.deleteMember (led : g.WellLed) {g' : Guild}
    (real : guidLoPart guid = guidLoPart g.leaderGuid → guid = g.leaderGuid)
    (deleted : g.deleteMember guid = some g') : g'.WellLed := by
  unfold Guild.deleteMember at deleted
  by_cases isLeader : g.leaderGuid = guid
  · subst isLeader
    simp only [true_and, if_true] at deleted
    rcases next : g.newLeader? (guidLoPart g.leaderGuid) with _ | newLeader
    · simp [next] at deleted
    simp only [next, Option.some.injEq] at deleted
    subst deleted
    obtain ⟨newMember, apart⟩ := newLeader?_mem next
    refine ⟨⟨newLeader.changeRank grGuildmaster, mem_eraseMember.mpr ⟨?_, apart⟩, rfl, rfl⟩,
      fun m member rank => ?_⟩
    · exact mem_setLeaderGUID.mpr ⟨newLeader, newMember, by simp⟩
    obtain ⟨kept, notOld⟩ := mem_eraseMember.mp member
    obtain ⟨was, wasMember, rfl⟩ := mem_setLeaderGUID.mp kept
    rw [eraseMember_leaderGuid, setLeaderGUID_leaderGuid]
    by_cases isNew : was.lowGuid = newLeader.lowGuid
    · rw [if_pos isNew, Member.changeRank_guid, eq_of_key_eq wasMember newMember isNew]
    rw [if_neg isNew] at rank notOld
    have guid := led.sole was wasMember rank
    rw [Member.lowGuid, guid] at notOld
    exact absurd rfl notOld
  · simp only [isLeader, false_and, if_false, Option.some.injEq] at deleted
    subst deleted
    exact led.eraseMember fun key => isLeader (real key).symm

theorem WellLed.addMember (led : g.WellLed) {now : UInt64} {name : String}
    (new : g.getMember guid = none) : (g.addMember guid name now).WellLed := by
  have absent : ∀ m ∈ g.members, m.lowGuid ≠ guidLoPart guid :=
    find?_eq_none_iff.mp new
  obtain ⟨leader, member, isLeader, rank⟩ := led.leader
  refine ⟨⟨leader, ?_, isLeader, rank⟩, fun m added rank => ?_⟩
  · exact mem_insert.mpr (Or.inr ⟨member, absent leader member⟩)
  · rcases mem_insert.mp added with rfl | ⟨old, -⟩
    · exact absurd rank g.ranks.lowestRankId_ne_zero
    · exact led.sole m old rank

/-! ## The handlers -/

theorem WellLed.getMember_leaderGuid (led : g.WellLed) :
    ∃ leader, g.getMember g.leaderGuid = some leader ∧ leader.guid = g.leaderGuid ∧
      leader.rankId = grGuildmaster := by
  obtain ⟨leader, member, guid, rank⟩ := led.leader
  refine ⟨leader, ?_, guid, rank⟩
  rw [← guid]
  exact getMember_of_mem member

variable {player : UInt64}

theorem WellLed.guid_of_isLeader (led : g.WellLed)
    (leads : g.isLeader player) (found : g.getMember player = some m) :
    m.guid = g.leaderGuid := by
  unfold isLeader at leads
  by_cases same : player = g.leaderGuid
  · subst same
    obtain ⟨leader, isLeader, guid, -⟩ := led.getMember_leaderGuid
    rw [isLeader] at found
    cases found
    exact guid
  · rw [if_neg same, found] at leads
    exact led.sole m (getMember_eq_some_iff.mp found).1 (by simpa [Member.isRank] using leads)

theorem wellLed_handleSetNewGuildMaster_iff (led : g.WellLed) {name : String} :
    (g.handleSetNewGuildMaster player name).1.WellLed ↔
      (g.isLeader player → ∀ m, g.getMember player = some m → g.getMemberByName name ≠ some m) := by
  rcases handleSetNewGuildMaster_cases g player name with
    ⟨unchanged, refused⟩ | ⟨old, new, leads, foundOld, foundNew, changed⟩
  · rw [unchanged]
    exact ⟨fun _ leads m found => refused leads m m found, fun _ => led⟩
  rw [changed, wellLed_throne_iff led (getMember_eq_some_iff.mp foundOld).1
    (getMemberByName_mem foundNew) (led.guid_of_isLeader leads foundOld)]
  constructor
  · rintro moved - m found named
    rw [foundOld] at found
    cases found
    rw [foundNew] at named
    cases named
    exact moved rfl
  · rintro notSelf rfl
    exact notSelf leads old foundOld foundNew

theorem wellLed_handleReplaceGuildMaster_iff (led : g.WellLed) {now : UInt64} :
    (g.handleReplaceGuildMaster player now).1.WellLed ↔
      ∀ m, g.getMember player = some m → m.guid = g.leaderGuid →
        m.logoutTime > now - replaceMasterAbsence := by
  obtain ⟨leader, foundLeader, leaderGuid, leaderRank⟩ := led.getMember_leaderGuid
  have leaderMember := (getMember_eq_some_iff.mp foundLeader).1
  rcases handleReplaceGuildMaster_cases g player now with
    ⟨unchanged, refused⟩ | ⟨new, old, foundNew, -, foundOld, absent, changed⟩
  · rw [unchanged]
    refine ⟨fun _ m found isLeader => ?_, fun _ => led⟩
    have same := eq_of_guid_eq (getMember_eq_some_iff.mp found).1 leaderMember
      (by rw [isLeader, leaderGuid])
    subst same
    exact refused m m found (by rw [leaderRank]; decide) foundLeader
  · rw [foundLeader] at foundOld
    cases foundOld
    have newMember := (getMember_eq_some_iff.mp foundNew).1
    rw [changed, wellLed_throne_iff led leaderMember newMember leaderGuid]
    constructor
    · intro moved m found isLeader
      rw [foundNew] at found
      cases found
      exact absurd (eq_of_guid_eq leaderMember newMember (by rw [isLeader, leaderGuid])) moved
    · rintro present rfl
      exact absent (present leader foundNew leaderGuid)

theorem hasRankRight_of_rank_255 {memberMe : Member} {right : UInt32}
    (found : g.getMember player = some memberMe) (rank : memberMe.rankId = 255) :
    g.hasRankRight player right := by
  have outside : g.ranks.getRankInfo memberMe.rankId = none := by
    have := g.ranks.length_le
    rw [← Option.not_isSome_iff_eq_none, RankTable.getRankInfo_isSome_iff, rank,
      UInt8.lt_iff_toNat_lt, RankTable.size_toNat]
    simp
    omega
  simp [hasRankRight, found, RankTable.getRankRights, outside, grRightEmpty]

theorem wellLed_handleUpdateMemberRank_iff (led : g.WellLed) {demote : Bool} :
    (g.handleUpdateMemberRank player guid demote).1.WellLed ↔
      (demote = false → ∀ memberMe member, g.getMember player = some memberMe →
        g.getMember guid = some member → memberMe.rankId = 255 → member.rankId ≠ 1) := by
  rcases handleUpdateMemberRank_cases g player guid demote with
    ⟨unchanged, refused⟩ | ⟨memberMe, member, foundMe, found, ⟨_, other, ranks⟩, changed⟩
  · rw [unchanged]
    refine ⟨fun _ promotes memberMe member foundMe found top one => ?_, fun _ => led⟩
    subst promotes
    refine refused memberMe member foundMe found
      ⟨hasRankRight_of_rank_255 foundMe top, fun same => ?_, ?_⟩
    · have isMe : member.guid = player := by simpa [Member.isSamePlayer] using same
      have foundAgain := getMember_of_mem (getMember_eq_some_iff.mp found).1
      rw [isMe, foundMe] at foundAgain
      cases foundAgain
      rw [top] at one
      exact absurd one (by decide)
    · simp [Member.isRankNotLower, top, one]
  · have member' := (getMember_eq_some_iff.mp found).1
    rw [changed, wellLed_changeRankOf_iff led member', ← led.rank_eq_zero_iff member']
    cases demote with
    | true =>
      obtain ⟨lower, notLowest⟩ := ranks
      refine ⟨fun _ promotes => (nomatch promotes), fun _ => ?_⟩
      simp only [Member.isRankNotLower, decide_eq_true_eq, grGuildmaster, if_true] at lower ⊢
      grind
    | false =>
      have higher : ¬ member.isRankNotLower (memberMe.rankId + 1) := ranks
      simp only [Member.isRankNotLower, decide_eq_true_eq, grGuildmaster, Bool.false_eq_true,
        if_false, forall_const] at higher ⊢
      constructor
      · intro same me m foundMe' found' top one
        rw [foundMe] at foundMe'
        rw [found] at found'
        cases foundMe'
        cases found'
        rw [one] at same
        exact absurd (same.mp (by decide)) (by decide)
      · intro notTop
        have := notTop memberMe member foundMe found
        grind

theorem wellLed_handleSetMemberRank_iff (led : g.WellLed) {rank : UInt32} :
    (g.handleSetMemberRank player guid rank).1.WellLed ↔
      ∀ member, g.getMember guid = some member → g.MaySetRank player member rank →
        (rank.toUInt8 = grGuildmaster ↔ member.guid = g.leaderGuid) := by
  rcases handleSetMemberRank_cases g player guid rank with ⟨unchanged, refused⟩ | ⟨member, found, may, changed⟩
  · rw [unchanged]
    exact ⟨fun _ m found may => absurd may (refused m found), fun _ => led⟩
  rw [changed, wellLed_changeRankOf_iff led (getMember_eq_some_iff.mp found).1]
  constructor
  · intro only m found' _
    rw [found] at found'
    cases found'
    exact only
  · intro all
    exact all member found may

theorem wellLed_withRanks_iff {ranks : RankTable} : { g with ranks := ranks }.WellLed ↔ g.WellLed :=
  ⟨fun ⟨leader, sole⟩ => ⟨leader, sole⟩, fun ⟨leader, sole⟩ => ⟨leader, sole⟩⟩

theorem wellLed_handleRemoveRank_iff (led : g.WellLed) {rankId : UInt8} :
    (g.handleRemoveRank player rankId).WellLed ↔
      (g.mayRemoveRank player rankId → rankId = grGuildmaster → ∀ m ∈ g.members, m.rankId ≠ 1) := by
  unfold handleRemoveRank
  rcases may : g.mayRemoveRank player rankId with _ | _
  · exact ⟨fun _ refused => (nomatch refused), fun _ => by simpa using led⟩
  rw [if_pos rfl, wellLed_mapRanks_iff (wellLed_withRanks_iff.mpr led)]
  simp only [rankAfterRemoval, grGuildmaster, forall_const]
  constructor
  · rintro ⟨-, apart⟩ rfl m member one
    have := apart m member (by rw [one]; decide)
    rw [one] at this
    exact absurd this (by decide)
  · intro noFirst
    refine ⟨by grind, fun m member moved => ?_⟩
    have := fun zero => noFirst zero m member
    grind

theorem wellLed_handleSwitchRank_iff (led : g.WellLed) {rankId : UInt8} {up : Bool} :
    (g.handleSwitchRank rankId up).WellLed ↔
      ∀ otherRankId, g.switchPartner rankId up = some otherRankId →
        rankId ≠ grGuildmaster ∧ otherRankId ≠ grGuildmaster := by
  unfold handleSwitchRank
  rcases partner : g.switchPartner rankId up with _ | otherRankId
  · exact ⟨fun _ other found => (nomatch found), fun _ => led⟩
  have apart : rankId ≠ otherRankId := by
    unfold switchPartner at partner
    grind
  rw [wellLed_mapRanks_iff (wellLed_withRanks_iff.mpr led)]
  simp only [rankAfterSwitch, grGuildmaster, Option.some.injEq, forall_eq']
  constructor
  · rintro ⟨fixed, -⟩
    grind
  · rintro ⟨notFirst, notOther⟩
    exact ⟨by grind, fun m member moved => by grind⟩

theorem WellLed.handleMemberLogout (led : g.WellLed) {now : UInt64} :
    (g.handleMemberLogout player now).WellLed := by
  obtain ⟨leader, member, guid, rank⟩ := led.leader
  refine ⟨⟨_, mem_handleMemberLogout.mpr ⟨leader, member, rfl⟩, ?_⟩, fun m stored => ?_⟩
  · split
    · exact ⟨guid, rank⟩
    · exact ⟨guid, rank⟩
  · obtain ⟨old, oldMember, rfl⟩ := mem_handleMemberLogout.mp stored
    split
    · exact led.sole old oldMember
    · exact led.sole old oldMember

/-- What a request must not ask for, if the guild is to stay well led:

* the master naming himself as the new master;
* the master claiming his own leadership back after ninety days;
* a member of rank 255 promoting one of rank 1;
* an accepted rank assignment that gives rank 0 to another member, or
  something else than rank 0 to the leader;
* removing rank 0 while a member has rank 1;
* exchanging rank 0 with its neighbour. -/
def KeepsLeader (g : Guild) (player : UInt64) : Request → Prop
  | .setNewGuildMaster name =>
    g.isLeader player → ∀ m, g.getMember player = some m → g.getMemberByName name ≠ some m
  | .replaceGuildMaster now =>
    ∀ m, g.getMember player = some m → m.guid = g.leaderGuid →
      m.logoutTime > now - replaceMasterAbsence
  | .updateMemberRank guid demote =>
    demote = false → ∀ memberMe member, g.getMember player = some memberMe →
      g.getMember guid = some member → memberMe.rankId = 255 → member.rankId ≠ 1
  | .setMemberRank guid rank =>
    ∀ member, g.getMember guid = some member → g.MaySetRank player member rank →
      (rank.toUInt8 = grGuildmaster ↔ member.guid = g.leaderGuid)
  | .removeRank rankId =>
    g.mayRemoveRank player rankId.toUInt8 → rankId.toUInt8 = grGuildmaster →
      ∀ m ∈ g.members, m.rankId ≠ 1
  | .switchRank rankId up =>
    player = g.leaderGuid → ∀ otherRankId, g.switchPartner rankId.toUInt8 up = some otherRankId →
        rankId.toUInt8 ≠ grGuildmaster ∧ otherRankId ≠ grGuildmaster
  | .memberLogout _ | .addNewRank _ | .updateRank _ _ | .leave _ | .kick _ => True

theorem WellLed.handleRemoveMember (led : g.WellLed) {g' : Guild}
    (kicked : (g.handleRemoveMember player guid).1 = some g') : g'.WellLed := by
  rw [handleRemoveMember_eq] at kicked
  by_cases may : g.mayRemoveMember player guid = true
  · rw [if_pos may] at kicked
    refine led.deleteMember (fun leaderKey => ?_) kicked
    -- the leader has rank 0, and rank 0 is not removed
    obtain ⟨leader, foundLeader, -, rank⟩ := led.getMember_leaderGuid
    have found : g.getMember guid = some leader := by
      rw [getMember, leaderKey]
      exact foundLeader
    unfold mayRemoveMember at may
    cases me : g.getMember player with
    | none => simp [found, me] at may
    | some memberMe => simp [found, me, Member.isRank, rank] at may
  · rw [if_neg may] at kicked
    cases kicked
    exact led

theorem wellLed_handle_iff (led : g.WellLed) (players : g.PlayersOnly)
    (isPlayer : IsPlayerGuid player) (r : Request) :
    (∀ g', g.handle player r = some g' → g'.WellLed) ↔ g.KeepsLeader player r := by
  cases r with
  | setNewGuildMaster name =>
    simp only [handle, Option.some.injEq, forall_eq']
    exact wellLed_handleSetNewGuildMaster_iff led
  | replaceGuildMaster now =>
    simp only [handle, Option.some.injEq, forall_eq']
    exact wellLed_handleReplaceGuildMaster_iff led
  | memberLogout now =>
    simp only [handle, Option.some.injEq, forall_eq']
    exact iff_of_true led.handleMemberLogout True.intro
  | updateMemberRank guid demote =>
    simp only [handle, Option.some.injEq, forall_eq']
    exact wellLed_handleUpdateMemberRank_iff led
  | setMemberRank guid rank =>
    simp only [handle, Option.some.injEq, forall_eq']
    exact wellLed_handleSetMemberRank_iff led
  | addNewRank name =>
    simp only [handle, Option.some.injEq, forall_eq']
    obtain ⟨ranks, same⟩ := handleAddNewRank_eq g player name
    rw [same]
    exact iff_of_true (wellLed_withRanks_iff.mpr led) True.intro
  | updateRank guildID rankId =>
    simp only [handle, Option.some.injEq, forall_eq']
    obtain ⟨ranks, same⟩ := handleUpdateRank_eq g player guildID rankId
    rw [same]
    exact iff_of_true (wellLed_withRanks_iff.mpr led) True.intro
  | removeRank rankId =>
    simp only [handle, Option.some.injEq, forall_eq']
    exact wellLed_handleRemoveRank_iff led
  | switchRank rankId up =>
    simp only [handle, Option.some.injEq, forall_eq', handleGuildSwitchRankOpcode]
    by_cases leads : player = g.leaderGuid
    · simp only [leads, ne_eq, not_true_eq_false, if_false, KeepsLeader, forall_const]
      exact wellLed_handleSwitchRank_iff led
    · simp only [leads, ne_eq, not_false_eq_true, if_true]
      exact iff_of_true led fun same => absurd same leads
  | leave undeletableLevel =>
    refine iff_of_true (fun g' left => ?_) True.intro
    simp only [handle] at left
    rcases handleLeaveMember_cases g player undeletableLevel with
      same | ⟨-, gone⟩ | ⟨notLeader, deleted⟩
    · rw [same] at left
      cases left
      exact led
    · rw [gone] at left
      cases left
    · rw [deleted] at left
      obtain ⟨leader, member, guid, -⟩ := led.leader
      refine led.deleteMember (fun key => ?_) left
      exact isPlayer.eq_of_lo (guid ▸ players leader member) key
  | kick guid =>
    exact iff_of_true (fun g' kicked => led.handleRemoveMember kicked) True.intro

end Guild

/-! ## Runs -/

namespace Leadership

/-- One guild, and for every character the guild id that `AddMember` reads: the
player's own field, or the row of an offline character. -/
structure State where
  guild : Option Guild
  guildIdOf : UInt32 → UInt32

/-- An event in the life of a guild. `rehash` is any change of the member map's
iteration order, `otherGuild` what happens to a character elsewhere. -/
inductive Event
  | addMember (low : UInt32) (name : String) (now : UInt64) (known : Bool)
  | deleteMember (low : UInt32)
  | request (player : UInt32) (r : Guild.Request)
  | rehash (order : List Member)
  | otherGuild (low : UInt32) (id : UInt32)

/-- The characters that leave the member map lose their guild id. -/
def State.settle (s : State) (g : Guild) (g' : Option Guild) : State where
  guild := g'
  guildIdOf low :=
    if g.isMember (playerGuid low) ∧ ¬ g'.any (·.isMember (playerGuid low)) then 0
    else s.guildIdOf low

/-- `AddMember`: a character with a guild id is refused, and so is an offline
one whose row does not pass `CheckStats`. -/
def State.addMember (s : State) (g : Guild) (low : UInt32) (name : String) (now : UInt64)
    (known : Bool) (rankId : UInt8 := guildRankNone) : Option State :=
  if s.guildIdOf low ≠ 0 ∨ !known then none
  else some
    { guild := g.addMember (playerGuid low) name now rankId
      guildIdOf := fun l => if l = low then g.id else s.guildIdOf l }

/-- `GetPlayer()->GetGuild()` leads a request to the guild of the player. -/
def State.answer (s : State) (g : Guild) (player : UInt32) (r : Guild.Request) : Option Guild :=
  if s.guildIdOf player = g.id then g.handle (playerGuid player) r else some g

def step (s : State) (e : Event) : State :=
  match s.guild with
  | none => s
  | some g =>
    match e with
    | .addMember low name now known => (s.addMember g low name now known).getD s
    | .deleteMember low => s.settle g (g.deleteMember (playerGuid low))
    | .request player r => s.settle g (s.answer g player r)
    | .rehash order =>
      if perm : order.Perm g.members.toList then
        { s with guild := some { g with members := g.members.permute order perm } }
      else s
    | .otherGuild low id =>
      if g.isMember (playerGuid low) then s
      else { s with guildIdOf := fun l => if l = low then id else s.guildIdOf l }

/-- `Guild::Create`: without ranks other than the default ones and without
members other than the leader; no guild comes about when `AddMember` refuses. -/
def create (s : State) (id : GuildId) (leader : UInt32) (name : String) (titles : RankTitles)
    (now : UInt64) : State :=
  let g : Guild :=
    { id := id
      leaderGuid := playerGuid leader
      level := 1
      ranks := RankTable.createDefaultGuildRanks titles
      members := .empty }
  (s.addMember g leader name now true grGuildmaster).getD { s with guild := none }

def WellLed (s : State) : Prop := ∀ g, s.guild = some g → g.WellLed

instance : DecidablePred WellLed := fun s =>
  match current : s.guild with
  | none => isTrue (by simp [WellLed, current])
  | some g => decidable_of_iff g.WellLed (by simp [WellLed, current])

/-- Every event but a request keeps the leadership; a request must meet
`Guild.KeepsLeader` in its sender's guild. -/
def KeepsLeader (s : State) : Event → Prop
  | .request player r =>
    ∀ g, s.guild = some g → s.guildIdOf player = g.id → g.KeepsLeader (playerGuid player) r
  | _ => True

/-- Besides being well led, the guild knows its members by their players' GUIDs
and `AddMember` finds each of them in a guild. -/
structure Inv (s : State) : Prop where
  led : WellLed s
  players : ∀ g, s.guild = some g → g.PlayersOnly
  enrolled : ∀ g, s.guild = some g → ∀ m ∈ g.members, s.guildIdOf m.lowGuid ≠ 0

variable {g : Guild}

theorem isMember_of_mem (players : g.PlayersOnly) {m : Member} (member : m ∈ g.members) :
    g.isMember (playerGuid m.lowGuid) := by
  have real : playerGuid m.lowGuid = m.guid := players m member
  rw [Guild.isMember, real, Guild.getMember_of_mem member]
  rfl

variable {s : State}

theorem Inv.settle (inv : Inv s) (current : s.guild = some g)
    {g' : Option Guild} (led : ∀ h, g' = some h → h.WellLed)
    (old : ∀ h, g' = some h → h.MembersFrom g) : Inv (s.settle g g') := by
  have players : ∀ h, g' = some h → h.PlayersOnly := fun h found =>
    (inv.players g current).of_membersFrom (old h found)
  refine ⟨led, players, fun h found m member => ?_⟩
  have still : g'.any (·.isMember (playerGuid m.lowGuid)) := by
    rw [show g' = some h from found]
    exact isMember_of_mem (players h found) member
  obtain ⟨was, wasMember, same⟩ := old h found m member
  have key : was.lowGuid = m.lowGuid := by rw [Member.lowGuid, Member.lowGuid, same]
  simp only [State.settle, still, not_true_eq_false, and_false, if_false]
  rw [← key]
  exact inv.enrolled g current was wasMember

theorem Inv.addMember {s' : State} (inv : Inv s) (current : s.guild = some g)
    {low : UInt32} {name : String} {now : UInt64} {known : Bool}
    (added : s.addMember g low name now known = some s') : Inv s' := by
  unfold State.addMember at added
  split at added
  · cases added
  rename_i free
  cases added
  have noGuild : s.guildIdOf low = 0 := by
    by_contra inGuild
    exact free (Or.inl inGuild)
  have absent : g.getMember (playerGuid low) = none := by
    refine find?_eq_none_iff.mpr fun m member key => ?_
    rw [guidLoPart_playerGuid] at key
    exact inv.enrolled g current m member (key ▸ noGuild)
  refine ⟨?_, ?_, ?_⟩
  · rintro _ ⟨⟩
    exact (inv.led g current).addMember absent
  · rintro _ ⟨⟩ m member
    rcases mem_insert.mp member with rfl | ⟨old, -⟩
    · exact isPlayerGuid_playerGuid low
    · exact inv.players g current m old
  · rintro _ ⟨⟩ m member
    dsimp only
    rcases mem_insert.mp member with rfl | ⟨old, -⟩
    · rw [Member.lowGuid, guidLoPart_playerGuid, if_pos rfl]
      exact g.id.property
    · split
      · exact g.id.property
      · exact inv.enrolled g current m old

theorem Inv.deleteMember (inv : Inv s) (current : s.guild = some g) {low : UInt32} :
    Inv (s.settle g (g.deleteMember (playerGuid low))) := by
  have led := inv.led g current
  refine inv.settle current (fun h deleted => led.deleteMember (fun key => ?_) deleted)
    (fun h deleted => Guild.membersFrom_deleteMember deleted)
  obtain ⟨leader, member, guid, -⟩ := led.leader
  exact (isPlayerGuid_playerGuid low).eq_of_lo (guid ▸ inv.players g current leader member) key

theorem Inv.rehash (inv : Inv s) (current : s.guild = some g)
    {order : List Member} (perm : order.Perm g.members.toList) :
    Inv { s with guild := some { g with members := g.members.permute order perm } } := by
  have mem : ∀ m, m ∈ g.members.permute order perm ↔ m ∈ g.members := fun m =>
    mem_permute
  obtain ⟨leader, member, guid, rank⟩ := (inv.led g current).leader
  refine ⟨?_, ?_, ?_⟩
  · rintro _ ⟨⟩
    exact ⟨⟨leader, (mem leader).mpr member, guid, rank⟩, fun m permuted =>
      (inv.led g current).sole m ((mem m).mp permuted)⟩
  · rintro _ ⟨⟩ m permuted
    exact inv.players g current m ((mem m).mp permuted)
  · rintro _ ⟨⟩ m permuted
    exact inv.enrolled g current m ((mem m).mp permuted)

theorem Inv.otherGuild (inv : Inv s) (current : s.guild = some g)
    {low id : UInt32} (outside : ¬ g.isMember (playerGuid low)) :
    Inv { guild := some g, guildIdOf := fun l => if l = low then id else s.guildIdOf l } := by
  refine ⟨?_, ?_, ?_⟩
  · rintro _ ⟨⟩
    exact inv.led g current
  · rintro _ ⟨⟩
    exact inv.players g current
  · rintro _ ⟨⟩ m member
    dsimp only
    split
    · rename_i key
      rw [← key] at outside
      exact absurd (isMember_of_mem (inv.players g current) member) outside
    · exact inv.enrolled g current m member

theorem Inv.answer_iff (inv : Inv s) (current : s.guild = some g)
    {player : UInt32} {r : Guild.Request} :
    (∀ h, s.answer g player r = some h → h.WellLed) ↔ KeepsLeader s (.request player r) := by
  have led := inv.led g current
  have only := Guild.wellLed_handle_iff led (inv.players g current)
    (isPlayerGuid_playerGuid player) r
  unfold State.answer
  by_cases own : s.guildIdOf player = g.id
  · rw [if_pos own, only]
    constructor
    · intro keeps h found _
      rw [current] at found
      cases found
      exact keeps
    · intro keeps
      exact keeps g current own
  · rw [if_neg own]
    refine iff_of_true (fun h same => ?_) (fun h found same => ?_)
    · cases same
      exact led
    · rw [current] at found
      cases found
      exact absurd same own

theorem membersFrom_answer {h : Guild} {player : UInt32} {r : Guild.Request}
    (answered : s.answer g player r = some h) : h.MembersFrom g := by
  unfold State.answer at answered
  split at answered
  · exact Guild.membersFrom_handle answered
  · cases answered
    exact .refl g

theorem Inv.step {e : Event} (inv : Inv s) (keeps : KeepsLeader s e) : Inv (step s e) := by
  unfold Leadership.step
  rcases current : s.guild with _ | g
  · exact inv
  cases e with
  | addMember low name now known =>
    dsimp only
    cases added : s.addMember g low name now known with
    | none => exact inv
    | some s' => exact inv.addMember current added
  | deleteMember low => exact inv.deleteMember current
  | request player r =>
    exact inv.settle current ((inv.answer_iff current).mpr keeps)
      fun h answered => membersFrom_answer answered
  | rehash order =>
    dsimp only
    split
    · exact inv.rehash current _
    · exact inv
  | otherGuild low id =>
    dsimp only
    split
    · exact inv
    · rename_i outside
      exact inv.otherGuild current outside

theorem not_wellLed_step {e : Event} (inv : Inv s) (breaks : ¬ KeepsLeader s e) :
    ¬ WellLed (step s e) := by
  cases e with
  | request player r =>
    intro led
    apply breaks
    cases current : s.guild with
    | none =>
      intro g found
      rw [current] at found
      cases found
    | some g =>
      refine (inv.answer_iff current).mp fun h answered => led h ?_
      simp only [step, current]
      exact answered
  | addMember _ _ _ _ => exact absurd True.intro breaks
  | deleteMember _ => exact absurd True.intro breaks
  | rehash _ => exact absurd True.intro breaks
  | otherGuild _ _ => exact absurd True.intro breaks

theorem inv_create (s : State) (id : GuildId) (leader : UInt32) (name : String)
    (titles : RankTitles) (now : UInt64) : Inv (create s id leader name titles now) := by
  unfold create State.addMember
  split
  · refine ⟨?_, ?_, ?_⟩
    · rintro _ ⟨⟩
    · rintro _ ⟨⟩
    · rintro _ ⟨⟩
  · have only : ∀ (m l : Member), m ∈ (KeyedList.empty : Members).insert l → m = l := by
      intro m l member
      rcases mem_insert.mp member with same | ⟨impossible, -⟩
      · exact same
      · exact absurd impossible not_mem_empty
    refine ⟨?_, ?_, ?_⟩
    · rintro _ ⟨⟩
      refine ⟨⟨_, mem_insert.mpr (Or.inl rfl), rfl, rfl⟩, fun m member _ => ?_⟩
      rw [only m _ member]
      rfl
    · rintro _ ⟨⟩ m member
      rw [only m _ member]
      exact isPlayerGuid_playerGuid leader
    · rintro _ ⟨⟩ m member
      rw [only m _ member]
      simpa [Member.lowGuid] using id.property

/-- **A guild stays well led exactly as long as every request keeps its leader.** From its creation
on, the leader GUID names the one member of rank 0 in every state reached if and only if no request
of the run is one that `Guild.KeepsLeader` excludes. -/
theorem throughout_wellLed_iff_keepsLeader (s : State) (id : GuildId) (leader : UInt32)
    (name : String) (titles : RankTitles) (now : UInt64) (events : List Event) :
    Machine.Throughout step WellLed (create s id leader name titles now) events ↔
      Machine.EachStep step KeepsLeader (create s id leader name titles now) events :=
  Machine.throughout_iff_eachStep (inv_create s id leader name titles now)
    (fun _ inv => inv.led) (fun _ _ inv keeps => inv.step keeps)
    (fun _ _ inv breaks => not_wellLed_step inv breaks)

/-- A founder who names himself as the new master is left at the lowest rank,
as leader of a guild without a member of rank 0. -/
theorem not_wellLed_of_throning_oneself : ¬ Machine.Throughout step WellLed
      (create ⟨none, fun _ => 0⟩ ⟨1, by decide⟩ 7 "Arthas"
        ⟨"Guild Master", "Officer", "Veteran", "Member", "Initiate"⟩ 0)
      [.request 7 (.setNewGuildMaster "Arthas")] := by
  decide

end Leadership

end Sky548
