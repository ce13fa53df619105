import Sky548.Guild.Handlers
import Sky548.Machine

/-!
# Authority over ranks

The three requests by which one member sets another's rank: promote and demote
(`HandleUpdateMemberRank`) and assign (`HandleSetMemberRank`). A rank change is authorised when the
target was below the actor and ends below the actor, at an existing rank.
-/

namespace Sky548.Authority

/-- The three rank requests of `GuildHandler.cpp`; the rank of an assignment
arrives as 32 bits. -/
inductive RankRequest
  | promote (guid : UInt64)
  | demote (guid : UInt64)
  | assignMemberRank (guid : UInt64) (rank : UInt32)

namespace RankRequest

def target : RankRequest → UInt64
  | promote guid | demote guid | assignMemberRank guid _ => guid

def newRank (r : RankRequest) (member : Member) : UInt8 :=
  match r with
  | promote _ => member.rankId - 1
  | demote _ => member.rankId + 1
  | assignMemberRank _ rank => rank.toUInt8

/-- The checks of the handler that answers the request. -/
def Accepted (g : Guild) (player : UInt64) (memberMe member : Member) : RankRequest → Prop
  | promote _ => g.MayUpdateRank player memberMe member false
  | demote _ => g.MayUpdateRank player memberMe member true
  | assignMemberRank _ rank => g.MaySetRank player member rank

end RankRequest

def step (g : Guild) (q : UInt64 × RankRequest) : Guild :=
  match q.2 with
  | .promote guid => (g.handleUpdateMemberRank q.1 guid false).1
  | .demote guid => (g.handleUpdateMemberRank q.1 guid true).1
  | .assignMemberRank guid rank => (g.handleSetMemberRank q.1 guid rank).1

variable {g : Guild} {player : UInt64} {r : RankRequest}

theorem step_cases (g : Guild) (player : UInt64) (r : RankRequest) : (step g (player, r) = g ∧
      ∀ memberMe member, g.getMember player = some memberMe →
        g.getMember r.target = some member → ¬ r.Accepted g player memberMe member) ∨
    ∃ memberMe member, g.getMember player = some memberMe ∧
      g.getMember r.target = some member ∧ r.Accepted g player memberMe member ∧
      step g (player, r) = g.changeRankOf member.lowGuid (r.newRank member) := by
  cases r with
  | promote guid => exact Guild.handleUpdateMemberRank_cases g player guid false
  | demote guid => exact Guild.handleUpdateMemberRank_cases g player guid true
  | assignMemberRank guid rank =>
    rcases Guild.handleSetMemberRank_cases g player guid rank with
      ⟨same, refused⟩ | ⟨member, found, may, changed⟩
    · exact Or.inl ⟨same, fun _ member _ found => refused member found⟩
    · obtain ⟨memberMe, foundMe⟩ := Guild.exists_member_of_hasRankRight may.1
      exact Or.inr ⟨memberMe, member, foundMe, found, may, changed⟩

/-- What the rank change of a member means for an actor of rank `a`. -/
def Below (g : Guild) (a : UInt8) (before after : UInt8) : Prop :=
  a < before ∧ a < after ∧ after < g.ranks.size

/-- The request of an actor who is not the guild master changes ranks only below
the actor. -/
def Safe (g : Guild) (q : UInt64 × RankRequest) : Prop :=
  g.isLeader q.1 = false → ∀ memberMe, g.getMember q.1 = some memberMe →
    ∀ m ∈ g.members, ∀ m' ∈ (step g q).members, m'.guid = m.guid →
      m'.rankId ≠ m.rankId → Below g memberMe.rankId m.rankId m'.rankId

/-- What an accepted request of an actor who is not the guild master must meet
besides the checks of its handler:

* a promotion: the actor's rank is not 255, whose successor wraps to 0, and the
  target's rank is at most the table's size;
* an assignment that changes the rank: the target is below the actor, and so is
  the narrowed rank, which exists. -/
def Authorised (g : Guild) (q : UInt64 × RankRequest) : Prop :=
  g.isLeader q.1 = false → ∀ memberMe member, g.getMember q.1 = some memberMe →
    g.getMember q.2.target = some member → q.2.Accepted g q.1 memberMe member →
    match q.2 with
    | .promote _ => memberMe.rankId ≠ 255 ∧ member.rankId ≤ g.ranks.size
    | .demote _ => True
    | .assignMemberRank _ rank =>
      rank.toUInt8 = member.rankId ∨
        (memberMe.rankId < member.rankId ∧ memberMe.rankId < rank.toUInt8 ∧
          rank.toUInt8 < g.ranks.size)

theorem safe_iff_target : Safe g (player, r) ↔
      (g.isLeader player = false → ∀ memberMe member, g.getMember player = some memberMe →
        g.getMember r.target = some member → r.Accepted g player memberMe member →
        r.newRank member = member.rankId ∨
          Below g memberMe.rankId member.rankId (r.newRank member)) := by
  constructor
  · intro safe notLeader memberMe member foundMe found accepted
    rcases step_cases g player r with ⟨-, refused⟩ | ⟨me, m, foundMe', found', -, changed⟩
    · exact absurd accepted (refused memberMe member foundMe found)
    rw [foundMe] at foundMe'
    rw [found] at found'
    cases foundMe'
    cases found'
    have stored := (Guild.getMember_eq_some_iff.mp found).1
    have after : member.changeRank (r.newRank member) ∈ (step g (player, r)).members := by
      rw [changed]
      exact Guild.mem_changeRankOf.mpr ⟨member, stored, by simp⟩
    by_cases same : r.newRank member = member.rankId
    · exact Or.inl same
    · exact Or.inr (safe notLeader memberMe foundMe member stored _ after rfl same)
  · intro targets notLeader memberMe foundMe m member m' member' same moved
    rcases step_cases g player r with ⟨unchanged, -⟩ | ⟨me, t, foundMe', found, accepted, changed⟩
    · rw [unchanged] at member'
      rw [KeyedList.eq_of_key_eq member' member
        (by rw [Member.lowGuid, Member.lowGuid, same])] at moved
      exact absurd rfl moved
    · rw [foundMe] at foundMe'
      cases foundMe'
      rw [changed] at member'
      obtain ⟨old, oldMember, rfl⟩ := Guild.mem_changeRankOf.mp member'
      have isOld : old = m := by
        refine KeyedList.eq_of_key_eq oldMember member ?_
        rw [Member.lowGuid, Member.lowGuid, ← same]
        split <;> rfl
      subst isOld
      split at moved
      · rename_i key
        have isTarget := KeyedList.eq_of_key_eq oldMember
          (Guild.getMember_eq_some_iff.mp found).1 key
        subst isTarget
        rw [if_pos rfl]
        rcases targets notLeader memberMe old foundMe found accepted with unmoved | below
        · exact absurd unmoved moved
        · exact below
      · exact absurd rfl moved

theorem below_of_demote {memberMe member : Member}
    (accepted : g.MayUpdateRank player memberMe member true) :
    Below g memberMe.rankId member.rankId (member.rankId + 1) := by
  obtain ⟨-, -, lower, notLowest⟩ := accepted
  have lowest := g.ranks.lowestRankId_lt_size
  simp only [Member.isRankNotLower, decide_eq_true_eq] at lower
  unfold Below
  grind

theorem below_of_promote_iff {memberMe member : Member}
    (accepted : g.MayUpdateRank player memberMe member false) :
    (member.rankId - 1 = member.rankId ∨
        Below g memberMe.rankId member.rankId (member.rankId - 1)) ↔
      memberMe.rankId ≠ 255 ∧ member.rankId ≤ g.ranks.size := by
  have higher : ¬ member.isRankNotLower (memberMe.rankId + 1) := accepted.2.2
  simp only [Member.isRankNotLower, decide_eq_true_eq] at higher
  constructor
  · rintro (same | ⟨below, -, inTable⟩)
    · grind
    · exact ⟨by grind, by grind⟩
  · rintro ⟨notTop, inTable⟩
    exact Or.inr ⟨by grind, by grind, by grind⟩

theorem safe_iff_authorised (g : Guild) (q : UInt64 × RankRequest) : Safe g q ↔ Authorised g q := by
  obtain ⟨player, r⟩ := q
  rw [safe_iff_target, Authorised]
  refine forall_congr' fun notLeader => forall_congr' fun memberMe => forall_congr' fun member =>
    forall_congr' fun foundMe => forall_congr' fun found => forall_congr' fun accepted => ?_
  cases r with
  | promote guid => exact below_of_promote_iff accepted
  | demote guid => exact iff_of_true (Or.inr (below_of_demote accepted)) True.intro
  | assignMemberRank guid rank => exact Iff.rfl

/-- A guild of a master, an officer and an initiate, with the default ranks. -/
def trio : Guild where
  id := ⟨1, guildId_one⟩
  leaderGuid := playerGuid 1
  level := 1
  ranks := RankTable.createDefaultGuildRanks
    ⟨"Guild Master", "Officer", "Veteran", "Member", "Initiate"⟩
  members := ⟨[⟨playerGuid 1, "Arthas", 0, 0⟩, ⟨playerGuid 2, "Jaina", 1, 0⟩,
    ⟨playerGuid 3, "Thrall", 4, 0⟩], by decide⟩

/-- The officer makes the initiate a guild master. -/
theorem not_safe_of_assigning_rank_zero :
    ¬ Safe trio (playerGuid 2, .assignMemberRank (playerGuid 3) 0) := by
  intro safe
  have below := safe (by decide) ⟨playerGuid 2, "Jaina", 1, 0⟩ (by decide)
    ⟨playerGuid 3, "Thrall", 4, 0⟩ (by decide) ⟨playerGuid 3, "Thrall", 0, 0⟩ (by decide) rfl
    (by decide)
  exact absurd below.2.1 (by decide)

/-- Since `start`, only ranks below `b` have changed, and they stayed below. -/
def Unescalated (b : UInt8) (start now : Guild) : Prop :=
  now.leaderGuid = start.leaderGuid ∧
    ∀ m' ∈ now.members, ∃ m ∈ start.members, m.guid = m'.guid ∧
      (m'.rankId = m.rankId ∨ (b < m.rankId ∧ b < m'.rankId))

/-- The actor is not the guild master, and his rank is not above `b`. -/
def ActorBelow (b : UInt8) (g : Guild) (player : UInt64) : Prop :=
  player ≠ g.leaderGuid ∧ ∀ memberMe, g.getMember player = some memberMe →
    memberMe.rankId ≠ grGuildmaster ∧ b ≤ memberMe.rankId

theorem isLeader_of_actorBelow {b : UInt8} (actor : ActorBelow b g player) :
    g.isLeader player = false := by
  unfold Guild.isLeader
  rw [if_neg actor.1]
  cases found : g.getMember player with
  | none => rfl
  | some memberMe => simpa [Member.isRank] using (actor.2 memberMe found).1

theorem ActorBelow.of_unescalated {b : UInt8} {start now : Guild}
    (actor : ActorBelow b start player) (kept : Unescalated b start now) :
    ActorBelow b now player := by
  refine ⟨by rw [kept.1]; exact actor.1, fun memberMe found => ?_⟩
  obtain ⟨member, key⟩ := Guild.getMember_eq_some_iff.mp found
  obtain ⟨old, oldMember, same, ranks⟩ := kept.2 memberMe member
  have foundOld : start.getMember player = some old := by
    refine Guild.getMember_eq_some_iff.mpr ⟨oldMember, ?_⟩
    rw [← key, Member.lowGuid, Member.lowGuid, same]
  obtain ⟨notMaster, notAbove⟩ := actor.2 old foundOld
  simp only [grGuildmaster] at notMaster ⊢
  rcases ranks with unchanged | ⟨-, below⟩
  · rw [unchanged]
    exact ⟨notMaster, notAbove⟩
  · exact ⟨by grind, by grind⟩

theorem Unescalated.refl (b : UInt8) (g : Guild) : Unescalated b g g :=
  ⟨rfl, fun m member => ⟨m, member, rfl, Or.inl rfl⟩⟩

theorem Unescalated.step {b : UInt8} {start now : Guild} (kept : Unescalated b start now)
    (actor : ActorBelow b start player) (safe : Safe now (player, r)) :
    Unescalated b start (step now (player, r)) := by
  have actorNow := actor.of_unescalated kept
  rcases step_cases now player r with
    ⟨unchanged, -⟩ | ⟨memberMe, target, foundMe, -, -, changed⟩
  · rw [unchanged]
    exact kept
  refine ⟨by rw [changed]; exact kept.1, fun m' member' => ?_⟩
  have notAbove := (actorNow.2 memberMe foundMe).2
  obtain ⟨mid, midMember, eq⟩ := Guild.mem_changeRankOf.mp (changed ▸ member')
  have sameGuid : m'.guid = mid.guid := by
    rw [eq]
    split <;> rfl
  obtain ⟨old, oldMember, same, ranks⟩ := kept.2 mid midMember
  refine ⟨old, oldMember, same.trans sameGuid.symm, ?_⟩
  by_cases moved : m'.rankId = mid.rankId
  · rw [moved]
    exact ranks
  obtain ⟨wasBelow, isBelow, -⟩ := safe (isLeader_of_actorBelow actorNow) memberMe foundMe
    mid midMember m' member' sameGuid moved
  refine Or.inr ⟨?_, by grind⟩
  rcases ranks with unchanged | ⟨below, -⟩
  · rw [← unchanged]
    grind
  · exact below

/-- **No escalation, exactly where the requests are authorised.** Every change is below its actor if
and only if every request is authorised; and then, with no actor the guild master or above the rank
`b` at first, nobody reaches `b` or better, and nobody at `b` or above is touched. -/
theorem eachStep_safe_iff_authorised (g : Guild) (requests : List (UInt64 × RankRequest)) :
    (Machine.EachStep step Safe g requests ↔ Machine.EachStep step Authorised g requests) ∧
      (Machine.EachStep step Authorised g requests → ∀ b, (∀ q ∈ requests, ActorBelow b g q.1) →
          Machine.Throughout step (Unescalated b g) g requests) := by
  refine ⟨⟨fun safe => safe.mono fun s q => (safe_iff_authorised s q).mp,
    fun authorised => authorised.mono fun s q => (safe_iff_authorised s q).mpr⟩,
    fun authorised b actors => ?_⟩
  have kept : ∀ now, Unescalated b g now → Machine.EachStep step Authorised now requests →
      Machine.Throughout step (Unescalated b g) now requests := by
    clear authorised
    induction requests with
    | nil => exact fun now kept _ => kept
    | cons q rest ih =>
      intro now kept authorised
      refine ⟨kept, ih (fun q member => actors q (List.mem_cons_of_mem _ member)) _ ?_
        authorised.2⟩
      exact kept.step (actors q List.mem_cons_self) ((safe_iff_authorised now q).mpr authorised.1)
  exact kept g (.refl b g) authorised

end Sky548.Authority
