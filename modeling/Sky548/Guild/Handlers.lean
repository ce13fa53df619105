import Sky548.Guild.Roster

/-!
# The guild's client handlers

The handlers of `Guild.cpp` that change ranks, leadership or the member map. A handler takes the
GUID of the session's player and what the packet carries, and gives the guild after the call with
the command result it sends, if any.
-/

namespace Sky548

inductive GuildCommandType
  | invite
  | quit
  | promote
  | demote
  | remove
  | changeLeader
  deriving DecidableEq, Repr

inductive GuildCommandError
  | commandSuccess
  | alreadyInGuildS
  | alreadyInvitedToGuildS
  | nameInvalid
  | leaderLeave
  | permissions
  | playerNotFoundS
  | notAllied
  | rankTooHighS
  | rankTooLowS
  | undeletableDueToLevel
  deriving DecidableEq, Repr

structure CommandResult where
  type : GuildCommandType
  errCode : GuildCommandError
  param : String
  deriving DecidableEq, Repr

def sendCommandResult (type : GuildCommandType) (errCode : GuildCommandError)
    (param : String := "") : Option CommandResult :=
  some ⟨type, errCode, param⟩

namespace Guild

/-- The leadership moves to `newGuildMaster` and the old master drops to the
lowest rank, in this order. -/
def throne (g : Guild) (oldGuildMaster newGuildMaster : Member) : Guild :=
  (g.setLeaderGUID newGuildMaster).changeRankOf oldGuildMaster.lowGuid g.ranks.lowestRankId

def handleSetNewGuildMaster (g : Guild) (player : UInt64) (name : String) :
    Guild × Option CommandResult :=
  if !g.isLeader player then (g, sendCommandResult .changeLeader .permissions)
  else match g.getMember player, g.getMemberByName name with
    | some oldGuildMaster, some newGuildMaster =>
      (g.throne oldGuildMaster newGuildMaster, none)
    | _, _ => (g, none)

/-- `DAY * 90` -/
def replaceMasterAbsence : UInt64 := 86400 * 90

/-- `HandleReplaceGuildMaster`; `now` is `time(NULL)`. -/
def handleReplaceGuildMaster (g : Guild) (player : UInt64) (now : UInt64) :
    Guild × Option CommandResult :=
  match g.getMember player with
  | none => (g, none)
  | some newGuildMaster =>
    if newGuildMaster.rankId > grMember then
      (g, sendCommandResult .changeLeader .permissions)
    else match g.getMember g.leaderGuid with
      | none => (g, none)
      | some oldGuildMaster =>
        if oldGuildMaster.logoutTime > now - replaceMasterAbsence then
          (g, sendCommandResult .changeLeader .permissions)
        else (g.throne oldGuildMaster newGuildMaster, none)

def handleMemberLogout (g : Guild) (player : UInt64) (now : UInt64) : Guild :=
  { g with
    members := g.members.update
      (fun m => if m.lowGuid = guidLoPart player then { m with logoutTime := now } else m)
      (fun m => by split <;> rfl) }

/-- `SendGuildRanksUpdate`: the member takes the rank, narrowed to eight bits,
without any check. -/
def sendGuildRanksUpdate (g : Guild) (targetGuid : UInt64) (rank : UInt32) : Guild :=
  g.changeRankOf (guidLoPart targetGuid) rank.toUInt8

def handleUpdateMemberRank (g : Guild) (player guid : UInt64) (demote : Bool) :
    Guild × Option CommandResult :=
  let type : GuildCommandType := if demote then .demote else .promote
  if !g.hasRankRight player (if demote then grRightDemote else grRightPromote) then
    (g, sendCommandResult type .permissions)
  else match g.getMember guid, g.getMember player with
    | some member, some memberMe =>
      let rankId := memberMe.rankId
      if member.isSamePlayer player then (g, sendCommandResult type .permissions)
      else if demote then
        if member.isRankNotLower rankId then
          (g, sendCommandResult type .rankTooHighS member.name)
        else if member.rankId ≥ g.ranks.lowestRankId then
          (g, sendCommandResult type .rankTooLowS member.name)
        else (g.sendGuildRanksUpdate member.guid (member.rankId.toUInt32 + 1), none)
      -- `rankId + 1` is an int, narrowed again by the parameter of the call
      else if member.isRankNotLower (rankId + 1) then
        (g, sendCommandResult type .rankTooHighS member.name)
      else (g.sendGuildRanksUpdate member.guid (member.rankId.toUInt32 - 1), none)
    | _, _ => (g, none)

/-- The right `HandleSetMemberRank` asks for: demoting when the requested rank
is the larger id, promoting otherwise. -/
def assignRight (member : Member) (rank : UInt32) : UInt32 :=
  if rank > member.rankId.toUInt32 then grRightDemote else grRightPromote

/-- `HandleSetMemberRank`; the setter is the session's player. -/
def handleSetMemberRank (g : Guild) (player targetGuid : UInt64) (rank : UInt32) :
    Guild × Option CommandResult :=
  match g.getMember targetGuid with
  | none => (g, none)
  | some member =>
    let type : GuildCommandType :=
      if rank > member.rankId.toUInt32 then .demote else .promote
    if !g.hasRankRight player (assignRight member rank) then
      (g, sendCommandResult type .permissions)
    else if member.isSamePlayer player then (g, sendCommandResult type .nameInvalid)
    else (g.sendGuildRanksUpdate targetGuid rank, none)

def handleAddNewRank (g : Guild) (player : UInt64) (name : String) : Guild :=
  if g.ranks.size.toNat ≥ guildRanksMaxCount then g
  else if g.isLeader player then
    { g with ranks := g.ranks.createRank name (grRightGchatListen ||| grRightGchatSpeak) }
  else g

/-- `HandleUpdateRank`; `guildID` is a rank id, and `rankId` says which of its
neighbours to exchange it with. -/
def handleUpdateRank (g : Guild) (player : UInt64) (guildID : UInt32) (rankId : Bool) :
    Guild × Option CommandResult :=
  if !g.isLeader player then (g, sendCommandResult .invite .permissions)
  else
    let guildId := if rankId then guildID - 1 else guildID + 1
    match g.ranks.lastIdxOfId guildID, g.ranks.lastIdxOfId guildId with
    | some rankInfo1, some rankInfo2 =>
      ({ g with ranks := g.ranks.exchangeNameAndRights rankInfo1 rankInfo2 }, none)
    | _, _ => (g, none)

def mayRemoveRank (g : Guild) (player : UInt64) (rankId : UInt8) : Bool :=
  g.ranks.size.toNat > guildRanksMinCount && rankId < g.ranks.size && g.isLeader player

def rankAfterRemoval (rankId rank : UInt8) : UInt8 :=
  if rank > rankId then rank - 1 else rank

def handleRemoveRank (g : Guild) (player : UInt64) (rankId : UInt8) : Guild :=
  if g.mayRemoveRank player rankId then
    { g with ranks := g.ranks.removeRank rankId }.mapRanks (rankAfterRemoval rankId)
  else g

/-- The rank of a member after two rank ids are exchanged. -/
def rankAfterSwitch (rankId otherRankId rank : UInt8) : UInt8 :=
  if rank = rankId then otherRankId else if rank = otherRankId then rankId else rank

/-- The neighbour that `HandleSwitchRank` exchanges a rank with, if it goes on. -/
def switchPartner (g : Guild) (rankId : UInt8) (up : Bool) : Option UInt8 :=
  if rankId ≥ g.ranks.size then none
  else if (rankId = grGuildmaster ∧ up) ∨ (rankId = g.ranks.lowestRankId ∧ !up) then none
  else some (if up then rankId - 1 else rankId + 1)

def handleSwitchRank (g : Guild) (rankId : UInt8) (up : Bool) : Guild :=
  match g.switchPartner rankId up with
  | none => g
  | some otherRankId =>
    { g with ranks := g.ranks.swapRanks rankId otherRankId }.mapRanks
      (rankAfterSwitch rankId otherRankId)

/-- `WorldSession::HandleGuildSwitchRankOpcode`, which alone checks the caller. -/
def handleGuildSwitchRankOpcode (g : Guild) (player : UInt64) (rankId : UInt32) (up : Bool) :
    Guild × Option CommandResult :=
  if player ≠ g.leaderGuid then (g, sendCommandResult .invite .permissions)
  else (g.handleSwitchRank rankId.toUInt8 up, none)

/-- `HandleLeaveMember`; `none` when the guild disbands. -/
def handleLeaveMember (g : Guild) (player : UInt64) (undeletableLevel : UInt32) :
    Option Guild × Option CommandResult :=
  if g.isLeader player then
    if g.members.size > 1 then (some g, sendCommandResult .quit .leaderLeave)
    else if g.level.toUInt32 ≥ undeletableLevel then
      (some g, sendCommandResult .quit .undeletableDueToLevel)
    else (none, none)
  else (g.deleteMember player, none)

/-- What `HandleRemoveMember` checks of the caller and the target. -/
def mayRemoveMember (g : Guild) (player guid : UInt64) : Bool :=
  g.hasRankRight player grRightRemove &&
    match g.getMember guid, g.getMember player with
    | some member, some memberMe =>
      !member.isRank grGuildmaster && !member.isRankNotLower memberMe.rankId
    | _, _ => false

def handleRemoveMember (g : Guild) (player guid : UInt64) : Option Guild × Option CommandResult :=
  if !g.hasRankRight player grRightRemove then
    (some g, sendCommandResult .remove .permissions)
  else match g.getMember guid with
    | none => (some g, none)
    | some member =>
      if member.isRank grGuildmaster then (some g, sendCommandResult .remove .leaderLeave)
      else match g.getMember player with
        | none => (some g, sendCommandResult .remove .rankTooHighS member.name)
        | some memberMe =>
          if member.isRankNotLower memberMe.rankId then
            (some g, sendCommandResult .remove .rankTooHighS member.name)
          else (g.deleteMember guid, none)

/-- `HandleDisband`; `none` when the guild is gone. -/
def handleDisband (g : Guild) (player : UInt64) : Option Guild :=
  if g.isLeader player then none else some g

/-- What `HandleUpdateMemberRank` asks of the caller and the target. -/
def MayUpdateRank (g : Guild) (player : UInt64) (memberMe member : Member) (demote : Bool) :
    Prop :=
  g.hasRankRight player (if demote then grRightDemote else grRightPromote) ∧
    ¬ member.isSamePlayer player ∧
    if demote then ¬ member.isRankNotLower memberMe.rankId ∧ member.rankId < g.ranks.lowestRankId
    else ¬ member.isRankNotLower (memberMe.rankId + 1)

/-- What `HandleSetMemberRank` asks of the caller and the target. -/
def MaySetRank (g : Guild) (player : UInt64) (member : Member) (rank : UInt32) : Prop :=
  g.hasRankRight player (assignRight member rank) ∧ ¬ member.isSamePlayer player

instance (g : Guild) (player : UInt64) (memberMe member : Member) (demote : Bool) :
    Decidable (g.MayUpdateRank player memberMe member demote) := by
  unfold MayUpdateRank
  infer_instance

instance (g : Guild) (player : UInt64) (member : Member) (rank : UInt32) :
    Decidable (g.MaySetRank player member rank) := by
  unfold MaySetRank
  infer_instance

variable (g : Guild) (player guid : UInt64)

variable {g player} in
theorem exists_member_of_hasRankRight {right : UInt32} (allowed : g.hasRankRight player right) :
    ∃ memberMe, g.getMember player = some memberMe := by
  unfold hasRankRight at allowed
  cases found : g.getMember player with
  | none => simp [found] at allowed
  | some memberMe => exact ⟨memberMe, rfl⟩

theorem handleSetNewGuildMaster_cases (name : String) :
    ((g.handleSetNewGuildMaster player name).1 = g ∧
      (g.isLeader player → ∀ oldGuildMaster newGuildMaster,
        g.getMember player = some oldGuildMaster →
        g.getMemberByName name ≠ some newGuildMaster)) ∨
    ∃ oldGuildMaster newGuildMaster, g.isLeader player ∧
      g.getMember player = some oldGuildMaster ∧
      g.getMemberByName name = some newGuildMaster ∧
      (g.handleSetNewGuildMaster player name).1 = g.throne oldGuildMaster newGuildMaster := by
  unfold handleSetNewGuildMaster
  rcases leader : g.isLeader player with _ | _
  · exact Or.inl ⟨by simp, by simp⟩
  rcases old : g.getMember player with _ | oldGuildMaster
  · exact Or.inl ⟨by simp, by simp⟩
  cases new : g.getMemberByName name with
  | none => exact Or.inl ⟨by simp, by simp⟩
  | some newGuildMaster =>
    exact Or.inr ⟨oldGuildMaster, newGuildMaster, rfl, rfl, rfl, by simp⟩

theorem handleReplaceGuildMaster_cases (now : UInt64) :
    ((g.handleReplaceGuildMaster player now).1 = g ∧
      ∀ newGuildMaster oldGuildMaster, g.getMember player = some newGuildMaster →
        newGuildMaster.rankId ≤ grMember →
        g.getMember g.leaderGuid = some oldGuildMaster →
        oldGuildMaster.logoutTime > now - replaceMasterAbsence) ∨
    ∃ newGuildMaster oldGuildMaster, g.getMember player = some newGuildMaster ∧
      newGuildMaster.rankId ≤ grMember ∧
      g.getMember g.leaderGuid = some oldGuildMaster ∧
      ¬ oldGuildMaster.logoutTime > now - replaceMasterAbsence ∧
      (g.handleReplaceGuildMaster player now).1 = g.throne oldGuildMaster newGuildMaster := by
  unfold handleReplaceGuildMaster
  rcases new : g.getMember player with _ | newGuildMaster
  · exact Or.inl ⟨rfl, by simp⟩
  by_cases low : newGuildMaster.rankId > grMember
  · refine Or.inl ⟨by simp [low], fun _ _ found notLow => ?_⟩
    cases found
    exact absurd low (UInt8.not_lt.mpr notLow)
  rcases old : g.getMember g.leaderGuid with _ | oldGuildMaster
  · exact Or.inl ⟨by simp [low], by simp⟩
  by_cases present : oldGuildMaster.logoutTime > now - replaceMasterAbsence
  · refine Or.inl ⟨by simp [low, present], fun _ _ _ _ found => ?_⟩
    cases found
    exact present
  · exact Or.inr ⟨newGuildMaster, oldGuildMaster, rfl, UInt8.not_lt.mp low, rfl, present,
      by simp [low, present]⟩

theorem handleUpdateMemberRank_cases (demote : Bool) :
    ((g.handleUpdateMemberRank player guid demote).1 = g ∧
      ∀ memberMe member, g.getMember player = some memberMe → g.getMember guid = some member →
        ¬ g.MayUpdateRank player memberMe member demote) ∨
    ∃ memberMe member, g.getMember player = some memberMe ∧ g.getMember guid = some member ∧
      g.MayUpdateRank player memberMe member demote ∧
      (g.handleUpdateMemberRank player guid demote).1 = g.changeRankOf member.lowGuid
          (if demote then member.rankId + 1 else member.rankId - 1) := by
  unfold handleUpdateMemberRank
  cases me : g.getMember player with
  | none =>
    refine Or.inl ⟨?_, by simp⟩
    have denied : ∀ right, g.hasRankRight player right = false := by
      intro right
      simp [hasRankRight, me]
    simp [denied]
  | some memberMe =>
    cases target : g.getMember guid with
    | none =>
      refine Or.inl ⟨?_, by simp⟩
      cases demote <;> grind
    | some member =>
      by_cases may : g.MayUpdateRank player memberMe member demote
      · refine Or.inr ⟨memberMe, member, rfl, rfl, may, ?_⟩
        obtain ⟨allowed, other, ranks⟩ := may
        cases demote with
        | true =>
          obtain ⟨lower, notLowest⟩ := ranks
          have allowed : g.hasRankRight player grRightDemote = true := allowed
          simp [allowed, other, lower, UInt8.not_le.mpr notLowest, sendGuildRanksUpdate,
            Member.lowGuid]
        | false =>
          have allowed : g.hasRankRight player grRightPromote = true := allowed
          have higher : ¬ member.isRankNotLower (memberMe.rankId + 1) := ranks
          simp [allowed, other, higher, sendGuildRanksUpdate, Member.lowGuid]
      · refine Or.inl ⟨?_, fun _ _ foundMe found => ?_⟩
        · by_contra changed
          apply may
          unfold MayUpdateRank
          cases demote <;> grind
        · cases foundMe
          cases found
          exact may

theorem handleSetMemberRank_cases (rank : UInt32) :
    ((g.handleSetMemberRank player guid rank).1 = g ∧
      ∀ member, g.getMember guid = some member → ¬ g.MaySetRank player member rank) ∨
    ∃ member, g.getMember guid = some member ∧ g.MaySetRank player member rank ∧
      (g.handleSetMemberRank player guid rank).1 = g.changeRankOf member.lowGuid rank.toUInt8 := by
  unfold handleSetMemberRank
  rcases target : g.getMember guid with _ | member
  · exact Or.inl ⟨rfl, by simp⟩
  by_cases may : g.MaySetRank player member rank
  · refine Or.inr ⟨member, rfl, may, ?_⟩
    obtain ⟨allowed, other⟩ := may
    simp [allowed, other, sendGuildRanksUpdate, (getMember_eq_some_iff.mp target).2]
  refine Or.inl ⟨?_, fun _ found => ?_⟩
  · by_contra changed
    apply may
    unfold MaySetRank
    grind
  · cases found
    exact may

theorem handleLeaveMember_cases (undeletableLevel : UInt32) :
    (g.handleLeaveMember player undeletableLevel).1 = some g ∨
      (g.isLeader player ∧ (g.handleLeaveMember player undeletableLevel).1 = none) ∨
      (¬ g.isLeader player ∧
        (g.handleLeaveMember player undeletableLevel).1 = g.deleteMember player) := by
  unfold handleLeaveMember
  cases leads : g.isLeader player with
  | true =>
    rw [if_pos rfl]
    split
    · exact Or.inl rfl
    · split
      · exact Or.inl rfl
      · exact Or.inr (Or.inl ⟨rfl, rfl⟩)
  | false => exact Or.inr (Or.inr ⟨by simp, rfl⟩)

theorem handleRemoveMember_eq : (g.handleRemoveMember player guid).1 =
      if g.mayRemoveMember player guid then g.deleteMember guid else some g := by
  unfold handleRemoveMember mayRemoveMember
  rcases allowed : g.hasRankRight player grRightRemove with _ | _
  · simp
  rcases target : g.getMember guid with _ | member
  · simp
  cases me : g.getMember player with
  | none =>
    simp only [Bool.not_true, Bool.false_eq_true, if_false, Bool.and_false]
    split <;> rfl
  | some memberMe =>
    cases master : member.isRank grGuildmaster with
    | true => simp [master]
    | false =>
      cases lower : member.isRankNotLower memberMe.rankId with
      | true => simp [master, lower]
      | false => simp [master, lower]

/-- What a member can ask of his guild, with what the packet carries; a rank id
arrives as 32 bits wherever the packet holds one. -/
inductive Request
  | setNewGuildMaster (name : String)
  | replaceGuildMaster (now : UInt64)
  | memberLogout (now : UInt64)
  | updateMemberRank (guid : UInt64) (demote : Bool)
  | setMemberRank (guid : UInt64) (rank : UInt32)
  | addNewRank (name : String)
  | updateRank (guildID : UInt32) (rankId : Bool)
  | removeRank (rankId : UInt32)
  | switchRank (rankId : UInt32) (up : Bool)
  | leave (undeletableLevel : UInt32)
  | kick (guid : UInt64)

/-- The guild after a request; `none` when it disbanded. -/
def handle (g : Guild) (player : UInt64) : Request → Option Guild
  | .setNewGuildMaster name => (g.handleSetNewGuildMaster player name).1
  | .replaceGuildMaster now => (g.handleReplaceGuildMaster player now).1
  | .memberLogout now => g.handleMemberLogout player now
  | .updateMemberRank guid demote => (g.handleUpdateMemberRank player guid demote).1
  | .setMemberRank guid rank => (g.handleSetMemberRank player guid rank).1
  | .addNewRank name => g.handleAddNewRank player name
  | .updateRank guildID rankId => (g.handleUpdateRank player guildID rankId).1
  | .removeRank rankId => g.handleRemoveRank player rankId.toUInt8
  | .switchRank rankId up => (g.handleGuildSwitchRankOpcode player rankId up).1
  | .leave undeletableLevel => (g.handleLeaveMember player undeletableLevel).1
  | .kick guid => (g.handleRemoveMember player guid).1

theorem handleAddNewRank_eq (name : String) :
    ∃ ranks, g.handleAddNewRank player name = { g with ranks := ranks } := by
  unfold handleAddNewRank
  split
  · exact ⟨g.ranks, rfl⟩
  · split
    · exact ⟨_, rfl⟩
    · exact ⟨g.ranks, rfl⟩

theorem handleUpdateRank_eq (guildID : UInt32) (rankId : Bool) :
    ∃ ranks, (g.handleUpdateRank player guildID rankId).1 = { g with ranks := ranks } := by
  unfold handleUpdateRank
  split
  · exact ⟨g.ranks, rfl⟩
  dsimp only
  split
  · exact ⟨_, rfl⟩
  · exact ⟨g.ranks, rfl⟩

variable {g player guid}

theorem mem_handleMemberLogout {now : UInt64} {m : Member} :
    m ∈ (g.handleMemberLogout player now).members ↔ ∃ old ∈ g.members,
        m = if old.lowGuid = guidLoPart player then { old with logoutTime := now } else old := by
  simp only [handleMemberLogout, KeyedList.mem_update]
  exact exists_congr fun _ => and_congr_right fun _ => eq_comm

theorem membersFrom_withRanks {ranks : RankTable} : { g with ranks := ranks }.MembersFrom g :=
  fun m member => ⟨m, member, rfl⟩

theorem membersFrom_throne {old new : Member} : (g.throne old new).MembersFrom g :=
  membersFrom_changeRankOf.trans membersFrom_setLeaderGUID

theorem membersFrom_handle {r : Request} {g' : Guild} (handled : g.handle player r = some g') :
    g'.MembersFrom g := by
  cases r with
  | setNewGuildMaster name =>
    cases handled
    rcases handleSetNewGuildMaster_cases g player name with
      ⟨same, -⟩ | ⟨old, new, -, -, -, moved⟩
    · rw [same]
      exact .refl g
    · rw [moved]
      exact membersFrom_throne
  | replaceGuildMaster now =>
    cases handled
    rcases handleReplaceGuildMaster_cases g player now with
      ⟨same, -⟩ | ⟨old, new, -, -, -, -, moved⟩
    · rw [same]
      exact .refl g
    · rw [moved]
      exact membersFrom_throne
  | memberLogout now =>
    cases handled
    intro m member
    obtain ⟨old, oldMember, rfl⟩ := mem_handleMemberLogout.mp member
    refine ⟨old, oldMember, ?_⟩
    split <;> rfl
  | updateMemberRank guid demote =>
    cases handled
    rcases handleUpdateMemberRank_cases g player guid demote with ⟨same, -⟩ | ⟨_, _, -, -, -, changed⟩
    · rw [same]
      exact .refl g
    · rw [changed]
      exact membersFrom_changeRankOf
  | setMemberRank guid rank =>
    cases handled
    rcases handleSetMemberRank_cases g player guid rank with ⟨same, -⟩ | ⟨_, -, -, changed⟩
    · rw [same]
      exact .refl g
    · rw [changed]
      exact membersFrom_changeRankOf
  | addNewRank name =>
    cases handled
    obtain ⟨ranks, same⟩ := handleAddNewRank_eq g player name
    rw [same]
    exact membersFrom_withRanks
  | updateRank guildID rankId =>
    cases handled
    obtain ⟨ranks, same⟩ := handleUpdateRank_eq g player guildID rankId
    rw [same]
    exact membersFrom_withRanks
  | removeRank rankId =>
    cases handled
    unfold handleRemoveRank
    split
    · exact membersFrom_mapRanks.trans membersFrom_withRanks
    · exact .refl g
  | switchRank rankId up =>
    cases handled
    unfold handleGuildSwitchRankOpcode
    split
    · exact .refl g
    unfold handleSwitchRank
    split
    · exact .refl g
    · exact membersFrom_mapRanks.trans membersFrom_withRanks
  | leave undeletableLevel =>
    simp only [handle] at handled
    rcases handleLeaveMember_cases g player undeletableLevel with same | ⟨-, gone⟩ | ⟨-, deleted⟩
    · rw [same] at handled
      cases handled
      exact .refl g
    · rw [gone] at handled
      cases handled
    · rw [deleted] at handled
      exact membersFrom_deleteMember handled
  | kick guid =>
    simp only [handle, handleRemoveMember_eq] at handled
    split at handled
    · exact membersFrom_deleteMember handled
    · cases handled
      exact .refl g

end Guild

end Sky548
