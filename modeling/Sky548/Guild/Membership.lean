import Sky548.Guild.Realm

/-!
# Guild membership agreement

Who belongs to which guild is stored twice: in the member maps and in the guild id of each online
player. `Belongs` is the relation the member maps hold; the realm agrees when every online player's
guild id says the same and nobody belongs to two guilds.
-/

namespace Sky548

open KeyedList OnlinePlayer

namespace Realm

/-- The character `low` is in the member map of the guild `id`. -/
def Belongs (r : Realm) (low : UInt32) (id : UInt32) : Prop :=
  ∃ g ∈ r.guilds, g.id.val = id ∧ ∃ m ∈ g.members, m.lowGuid = low

/-- Guild ids and member maps say the same, and no one is in two guilds. -/
structure Agrees (r : Realm) : Prop where
  ids : ∀ p ∈ r.players, ∀ id : GuildId, p.guildId = id.val ↔ r.Belongs p.lowGuid id.val
  single : ∀ low id id', r.Belongs low id → r.Belongs low id' → id = id'

/-- The member maps are keyed by the low parts of player GUIDs. -/
structure Inv (r : Realm) : Prop where
  agrees : r.Agrees
  players : ∀ g ∈ r.guilds, g.PlayersOnly

variable {r : Realm}

variable {p : OnlinePlayer}

theorem mem_updatePlayers {sel : OnlinePlayer → Bool} {f : OnlinePlayer → OnlinePlayer}
    {keeps : ∀ p, (f p).lowGuid = p.lowGuid} :
    p ∈ (r.updatePlayers sel f keeps).players ↔
      ∃ old ∈ r.players, p = if sel old then f old else old := by
  simp only [updatePlayers, mem_update]
  exact exists_congr fun _ => and_congr_right fun _ => eq_comm

variable {guid : UInt64} {id : UInt32}

theorem mem_setInGuild : p ∈ (r.setInGuild guid id).players ↔ ∃ old ∈ r.players,
        p = if old.guid = guid ∧ old.isInWorld then old.setInGuild id else old := by
  simp only [setInGuild, mem_updatePlayers, decide_eq_true_eq]

variable {g : Guild} {low : UInt32}

theorem belongs_iff_of_mem (stored : g ∈ r.guilds) :
    r.Belongs low g.id ↔ ∃ m ∈ g.members, m.lowGuid = low := by
  constructor
  · rintro ⟨h, hStored, sameId, found⟩
    rw [eq_of_key_eq hStored stored sameId] at found
    exact found
  · intro found
    exact ⟨g, stored, rfl, found⟩

theorem belongs_putGuild : (r.putGuild g).Belongs low id ↔
      if id = g.id.val then ∃ m ∈ g.members, m.lowGuid = low else r.Belongs low id := by
  constructor
  · rintro ⟨h, stored, rfl, found⟩
    rcases mem_insert.mp stored with rfl | ⟨old, other⟩
    · rw [if_pos rfl]
      exact found
    · rw [if_neg other]
      exact ⟨h, old, rfl, found⟩
  · intro found
    split at found
    · rename_i same
      exact ⟨g, mem_insert.mpr (Or.inl rfl), same.symm, found⟩
    · rename_i other
      obtain ⟨h, stored, rfl, found⟩ := found
      exact ⟨h, mem_insert.mpr (Or.inr ⟨stored, other⟩), rfl, found⟩

theorem belongs_disband : (r.disband g).Belongs low id ↔ r.Belongs low id ∧ id ≠ g.id.val := by
  constructor
  · rintro ⟨h, stored, rfl, found⟩
    obtain ⟨old, other⟩ := mem_erase.mp stored
    exact ⟨⟨h, old, rfl, found⟩, other⟩
  · rintro ⟨⟨h, stored, rfl, found⟩, other⟩
    exact ⟨h, mem_erase.mpr ⟨stored, other⟩, rfl, found⟩

variable {g' : Guild}

theorem belongs_deleteMember (stored : g ∈ r.guilds) (deleted : g.deleteMember guid = some g') :
    (r.deleteMember g guid).Belongs low id ↔
      r.Belongs low id ∧ ¬ (low = guidLoPart guid ∧ id = g.id.val) := by
  have put : (r.deleteMember g guid).Belongs low id ↔ (r.putGuild g').Belongs low id := by
    unfold deleteMember
    rw [deleted]
    exact Iff.rfl
  rw [put, belongs_putGuild, Guild.deleteMember_id deleted,
    Guild.exists_mem_deleteMember_iff deleted]
  by_cases same : id = g.id.val
  · subst same
    rw [if_pos rfl, belongs_iff_of_mem stored]
    simp
  · simp [same]

theorem players_deleteMember (deleted : g.deleteMember guid = some g') :
    p ∈ (r.deleteMember g guid).players ↔ ∃ old ∈ r.players,
        p = if old.guid = guid ∧ old.isInWorld then old.setInGuild 0 else old := by
  unfold deleteMember
  rw [deleted]
  exact mem_setInGuild

theorem mem_disband : p ∈ (r.disband g).players ↔ ∃ old ∈ r.players,
        p = if old.isInWorld ∧ ∃ m ∈ g.members, m.guid = old.guid then old.setInGuild 0
          else old := by
  have both : p ∈ (r.disband g).players ↔
      p ∈ (r.updatePlayers (fun p => p.isInWorld ∧ ∃ m ∈ g.members, m.guid = p.guid)
        (·.setInGuild 0) fun p => p.setInGuild_lowGuid 0).players := Iff.rfl
  rw [both]
  simp only [mem_updatePlayers, decide_eq_true_eq]

theorem findPlayer_mem (found : r.findPlayer guid = some p) :
    p ∈ r.players ∧ p.guid = guid ∧ p.isInWorld := by
  refine ⟨List.mem_of_find?_eq_some found, ?_⟩
  simpa using List.find?_some found

theorem sender_mem (found : r.sender low = some p) :
    p ∈ r.players ∧ p.lowGuid = low ∧ p.isInWorld := by
  obtain ⟨online, guid, inWorld⟩ := findPlayer_mem found
  exact ⟨online, playerGuid_inj guid, inWorld⟩

theorem getGuildById_mem (found : r.getGuildById id = some g) : g ∈ r.guilds ∧ g.id.val = id :=
  find?_eq_some_iff.mp found

theorem getGuild_mem (found : r.getGuild p = some g) : g ∈ r.guilds ∧ g.id.val = p.guildId := by
  unfold getGuild at found
  split at found
  · cases found
  · exact getGuildById_mem found

theorem guid_eq_iff {q : OnlinePlayer} : p.guid = q.guid ↔ p.lowGuid = q.lowGuid :=
  ⟨playerGuid_inj, fun same => by rw [OnlinePlayer.guid, OnlinePlayer.guid, same]⟩

section

variable (inv : r.Inv)

include inv

theorem Inv.belongs_guid (stored : g ∈ r.guilds) :
    (∃ m ∈ g.members, m.guid = p.guid) ↔ ∃ m ∈ g.members, m.lowGuid = p.lowGuid := by
  constructor
  · rintro ⟨m, member, same⟩
    refine ⟨m, member, ?_⟩
    rw [Member.lowGuid, same, OnlinePlayer.guid, guidLoPart_playerGuid]
  · rintro ⟨m, member, same⟩
    refine ⟨m, member, ?_⟩
    rw [← inv.players g stored m member, OnlinePlayer.guid, ← same]
    rfl

theorem Inv.deleteMember_iff (stored : g ∈ r.guilds) (deleted : g.deleteMember guid = some g')
    (member : ∃ m ∈ g.members, m.lowGuid = guidLoPart guid) :
    (r.deleteMember g guid).Agrees ↔
      ∀ p ∈ r.players, p.lowGuid = guidLoPart guid → p.guid = guid ∧ p.isInWorld := by
  constructor
  · intro agrees p online low
    by_contra missed
    have still : p ∈ (r.deleteMember g guid).players :=
      (players_deleteMember deleted).mpr ⟨p, online, by rw [if_neg missed]⟩
    have was : p.guildId = g.id.val := by
      rw [inv.agrees.ids p online g.id, belongs_iff_of_mem stored, low]
      exact member
    have belongs := (agrees.ids p still g.id).mp was
    rw [belongs_deleteMember stored deleted] at belongs
    exact belongs.2 ⟨low, rfl⟩
  · intro found
    refine ⟨fun p online id => ?_, fun low id id' first second => ?_⟩
    · obtain ⟨old, oldOnline, rfl⟩ := (players_deleteMember deleted).mp online
      have before := inv.agrees.ids old oldOnline id
      rw [belongs_deleteMember stored deleted]
      by_cases isTarget : old.guid = guid ∧ old.isInWorld
      · have low : old.lowGuid = guidLoPart guid := by
          rw [← isTarget.1, OnlinePlayer.guid, guidLoPart_playerGuid]
        have inGuild : r.Belongs old.lowGuid g.id := by
          rw [belongs_iff_of_mem stored, low]
          exact member
        rw [if_pos isTarget, setInGuild_guildId, setInGuild_lowGuid]
        refine iff_of_false (fun zero => id.property zero.symm) ?_
        rintro ⟨belongs, other⟩
        exact other ⟨low, inv.agrees.single _ _ _ belongs inGuild⟩
      · rw [if_neg isTarget, before]
        have other : old.lowGuid ≠ guidLoPart guid := fun low =>
          isTarget (found old oldOnline low)
        simp [other]
    · rw [belongs_deleteMember stored deleted] at first second
      exact inv.agrees.single low id id' first.1 second.1

theorem Inv.disband_iff (stored : g ∈ r.guilds) :
    (r.disband g).Agrees ↔ ∀ p ∈ r.players, p.guildId = g.id.val → p.isInWorld := by
  constructor
  · intro agrees p online inGuild
    by_contra away
    have still : p ∈ (r.disband g).players :=
      mem_disband.mpr ⟨p, online, by rw [if_neg fun both => away both.1]⟩
    have belongs := (agrees.ids p still g.id).mp inGuild
    rw [belongs_disband] at belongs
    exact belongs.2 rfl
  · intro present
    refine ⟨fun p online id => ?_, fun low id id' first second => ?_⟩
    · obtain ⟨old, oldOnline, rfl⟩ := mem_disband.mp online
      have before := inv.agrees.ids old oldOnline id
      have inGuild := inv.agrees.ids old oldOnline g.id
      rw [belongs_iff_of_mem stored, ← inv.belongs_guid stored] at inGuild
      rw [belongs_disband]
      by_cases leaves : old.isInWorld ∧ ∃ m ∈ g.members, m.guid = old.guid
      · rw [if_pos leaves, setInGuild_guildId, setInGuild_lowGuid]
        refine iff_of_false (fun zero => id.property zero.symm) ?_
        rintro ⟨belongs, other⟩
        rw [← before, inGuild.mpr leaves.2] at belongs
        exact other belongs.symm
      · rw [if_neg leaves, before]
        have other : ¬ old.guildId = g.id.val := fun member =>
          leaves ⟨present old oldOnline member, inGuild.mp member⟩
        refine ⟨fun belongs => ⟨belongs, fun same => other ?_⟩, And.left⟩
        rw [before.mpr belongs, same]
    · rw [belongs_disband] at first second
      exact inv.agrees.single low id id' first.1 second.1

theorem Inv.decline_iff (online : p ∈ r.players) :
    (r.handleGuildDeclineOpcode p).Agrees ↔ p.guildId = 0 := by
  have after : ∀ q, q ∈ (r.handleGuildDeclineOpcode p).players ↔
      ∃ old ∈ r.players, q = if old.lowGuid = p.lowGuid
        then (old.setGuildIdInvited 0).setInGuild 0 else old := by
    intro q
    simp only [handleGuildDeclineOpcode, mem_updatePlayers, decide_eq_true_eq]
    constructor
    · rintro ⟨_, ⟨old, oldOnline, rfl⟩, rfl⟩
      refine ⟨old, oldOnline, ?_⟩
      by_cases same : old.lowGuid = p.lowGuid
      · simp [same]
      · simp [same]
    · rintro ⟨old, oldOnline, rfl⟩
      refine ⟨_, ⟨old, oldOnline, rfl⟩, ?_⟩
      by_cases same : old.lowGuid = p.lowGuid
      · simp [same]
      · simp [same]
  have guilds : ∀ low id, (r.handleGuildDeclineOpcode p).Belongs low id ↔ r.Belongs low id :=
    fun _ _ => Iff.rfl
  constructor
  · intro agrees
    by_contra inGuild
    -- the id the player had names a guild that still has him
    have belongs := (inv.agrees.ids p online ⟨p.guildId, inGuild⟩).mp rfl
    have declined := (after _).mpr ⟨p, online, (if_pos rfl).symm⟩
    have zero := (agrees.ids _ declined ⟨p.guildId, inGuild⟩).mpr belongs
    exact inGuild zero.symm
  · intro free
    refine ⟨fun q online' id => ?_, fun low id id' => inv.agrees.single low id id'⟩
    obtain ⟨old, oldOnline, rfl⟩ := (after q).mp online'
    rw [guilds]
    by_cases same : old.lowGuid = p.lowGuid
    · rw [if_pos same]
      have isP := eq_of_key_eq oldOnline online same
      subst isP
      have before := inv.agrees.ids old oldOnline id
      rw [free] at before
      exact before
    · rw [if_neg same]
      exact inv.agrees.ids old oldOnline id

theorem Inv.of_frame {r' : Realm} (guilds : r'.guilds = r.guilds)
    (players : ∀ p ∈ r'.players, ∃ old ∈ r.players,
      old.lowGuid = p.lowGuid ∧ old.guildId = p.guildId) : r'.Inv := by
  have belongs : ∀ low id, r'.Belongs low id ↔ r.Belongs low id := by
    intro low id
    rw [Belongs, guilds, Belongs]
  refine ⟨⟨fun p online id => ?_, fun low id id' first second => ?_⟩, ?_⟩
  · obtain ⟨old, oldOnline, low, guildId⟩ := players p online
    rw [belongs, ← low, ← guildId]
    exact inv.agrees.ids old oldOnline id
  · rw [belongs] at first second
    exact inv.agrees.single low id id' first second
  · rw [guilds]
    exact inv.players

theorem Inv.updatePlayers {sel : OnlinePlayer → Bool}
    {f : OnlinePlayer → OnlinePlayer} (keeps : ∀ p, (f p).lowGuid = p.lowGuid)
    (same : ∀ p, (f p).guildId = p.guildId) : (r.updatePlayers sel f keeps).Inv := by
  refine inv.of_frame rfl fun p online => ?_
  obtain ⟨old, oldOnline, rfl⟩ := mem_updatePlayers.mp online
  refine ⟨old, oldOnline, ?_⟩
  split
  · exact ⟨(keeps old).symm, (same old).symm⟩
  · exact ⟨rfl, rfl⟩

theorem Inv.handleInviteMember {name : String} : (r.handleInviteMember g p name).1.Inv := by
  unfold Realm.handleInviteMember
  split
  · exact inv
  split
  · exact inv
  split
  · exact inv
  · split
    · exact inv
    · exact inv.updatePlayers (fun p => p.setInvited_lowGuid _ _) fun _ => rfl

theorem Inv.addMember (stored : g ∈ r.guilds)
    (online : p ∈ r.players) (inWorld : p.isInWorld) (now : UInt64) :
    (r.addMember g p now).Inv := by
  unfold Realm.addMember
  by_cases free : p.guildId = 0
  · rw [if_neg (not_not.mpr free)]
    refine Inv.updatePlayers ?_ (fun p => p.setGuildIdInvited_lowGuid 0) fun _ => rfl
    have nowhere : ∀ id, ¬ r.Belongs p.lowGuid id := by
      rintro id ⟨h, hStored, rfl, found⟩
      have inGuild := (inv.agrees.ids p online h.id).mpr ⟨h, hStored, rfl, found⟩
      exact h.id.property (by rw [← inGuild, free])
    have belongs : ∀ low id, ((r.putGuild (g.addMember p.guid p.name now)).setInGuild p.guid
        g.id).Belongs low id ↔ (low = p.lowGuid ∧ id = g.id.val) ∨ r.Belongs low id := by
      intro low id
      have put : ((r.putGuild (g.addMember p.guid p.name now)).setInGuild p.guid
          g.id).Belongs low id ↔
          (r.putGuild (g.addMember p.guid p.name now)).Belongs low id := Iff.rfl
      rw [put, belongs_putGuild, Guild.exists_mem_addMember_iff, OnlinePlayer.guid,
        guidLoPart_playerGuid]
      by_cases same : id = g.id.val
      · subst same
        rw [if_pos (show g.id.val = (g.addMember (playerGuid p.lowGuid) p.name now).id.val from rfl),
          belongs_iff_of_mem stored]
        simp
      · rw [if_neg (show ¬ id = (g.addMember (playerGuid p.lowGuid) p.name now).id.val from same)]
        simp [same]
    refine ⟨⟨fun q online' id => ?_, fun low id id' first second => ?_⟩, ?_⟩
    · obtain ⟨old, oldOnline, rfl⟩ := mem_setInGuild.mp online'
      have before := inv.agrees.ids old oldOnline id
      rw [belongs]
      by_cases joins : old.guid = p.guid ∧ old.isInWorld
      · have isP := eq_of_key_eq oldOnline online (guid_eq_iff.mp joins.1)
        subst isP
        rw [if_pos joins, setInGuild_guildId, setInGuild_lowGuid]
        constructor
        · intro same
          exact Or.inl ⟨rfl, same.symm⟩
        · rintro (⟨-, same⟩ | elsewhere)
          · exact same.symm
          · exact absurd elsewhere (nowhere id)
      · rw [if_neg joins, before]
        have other : old.lowGuid ≠ p.lowGuid := fun low => by
          have isP := eq_of_key_eq oldOnline online low
          subst isP
          exact joins ⟨rfl, inWorld⟩
        simp [other]
    · rw [belongs] at first second
      rcases first with ⟨isP, same⟩ | first
      · rcases second with ⟨-, same'⟩ | second
        · rw [same, same']
        · exact absurd (isP ▸ second) (nowhere id')
      · rcases second with ⟨isP, -⟩ | second
        · exact absurd (isP ▸ first) (nowhere id)
        · exact inv.agrees.single low id id' first second
    · intro h hStored m member
      rcases mem_insert.mp hStored with rfl | ⟨old, -⟩
      · rcases mem_insert.mp member with rfl | ⟨wasMember, -⟩
        · exact isPlayerGuid_playerGuid p.lowGuid
        · exact inv.players g stored m wasMember
      · exact inv.players h old m member
  · rw [if_pos free]
    exact inv

theorem Inv.handleGuildAcceptOpcode (online : p ∈ r.players)
    (inWorld : p.isInWorld) (now : UInt64) : (r.handleGuildAcceptOpcode p now).Inv := by
  unfold Realm.handleGuildAcceptOpcode
  split
  · exact inv
  split
  · exact inv
  rename_i g found
  unfold handleAcceptMember
  split
  · exact inv
  · exact inv.addMember (getGuildById_mem found).1 online inWorld now

end

/-! ## Events -/

/-- What an event must meet, if guild ids and member maps are to stay in step:

* a decline comes from a player without a guild;
* an accepted kick of a player online carries his whole GUID and finds him in
  the world;
* an accepted disband finds all members online in the world. -/
def KeepsAgreement (r : Realm) : Event → Prop
  | .decline player => ∀ p, r.sender player = some p → p.guildId = 0
  | .kick player guid =>
    ∀ p g, r.sender player = some p → r.getGuild p = some g → g.mayRemoveMember p.guid guid →
      ∀ target ∈ r.players, target.lowGuid = guidLoPart guid → target.guid = guid ∧ target.isInWorld
  | .disband player =>
    ∀ p g, r.sender player = some p → r.getGuild p = some g → g.isLeader p.guid →
      ∀ member ∈ r.players, member.guildId = g.id.val → member.isInWorld
  | .invite _ _ | .accept _ _ | .leave _ | .worldport _ _ => True

theorem Inv.players_deleteMember (inv : r.Inv) (stored : g ∈ r.guilds)
    (deleted : g.deleteMember guid = some g') :
    ∀ h ∈ (r.deleteMember g guid).guilds, h.PlayersOnly := by
  unfold deleteMember
  rw [deleted]
  intro h hStored
  rcases mem_insert.mp hStored with rfl | ⟨old, -⟩
  · exact (inv.players g stored).of_membersFrom (Guild.membersFrom_deleteMember deleted)
  · exact inv.players h old

theorem Inv.players_disband (inv : r.Inv) : ∀ h ∈ (r.disband g).guilds, h.PlayersOnly :=
  fun h hStored => inv.players h (mem_erase.mp hStored).1

theorem Inv.sender_member (inv : r.Inv) (online : p ∈ r.players) (found : r.getGuild p = some g) :
    ∃ m ∈ g.members, m.lowGuid = p.lowGuid := by
  obtain ⟨stored, id⟩ := getGuild_mem found
  rw [← belongs_iff_of_mem stored]
  exact (inv.agrees.ids p online g.id).mp id.symm

/-- **Leaving keeps the agreement**, also for a leader who disbands his guild by
leaving it as the last member. -/
theorem Inv.handleLeaveMember (inv : r.Inv) (online : p ∈ r.players)
    (inWorld : p.isInWorld) (found : r.getGuild p = some g) :
    (r.handleLeaveMember g p).1.Inv := by
  obtain ⟨stored, id⟩ := getGuild_mem found
  obtain ⟨me, meMember, meKey⟩ := inv.sender_member online found
  unfold Realm.handleLeaveMember
  split
  · split
    · exact inv
    split
    · exact inv
    rename_i alone _
    refine ⟨(inv.disband_iff stored).mpr fun q qOnline qInGuild => ?_, inv.players_disband⟩
    obtain ⟨m, member, key⟩ := (belongs_iff_of_mem stored).mp
      ((inv.agrees.ids q qOnline g.id).mp qInGuild)
    -- the map holds one member, the one who leaves
    have same : m = me := by
      have short : g.members.toList.length ≤ 1 := not_lt.mp alone
      match eq : g.members.toList, short with
      | [], _ => exact absurd (mem_toList.mpr member) (by simp [eq])
      | [only], _ =>
        have first : m ∈ g.members.toList := member
        have second : me ∈ g.members.toList := meMember
        rw [eq] at first second
        rw [List.mem_singleton.mp first, List.mem_singleton.mp second]
    have isP := eq_of_key_eq qOnline online (by rw [← key, same, meKey])
    rw [isP]
    exact inWorld
  · rename_i notLeader
    have other : g.leaderGuid ≠ p.guid := by
      intro same
      apply notLeader
      simp [Guild.isLeader, same]
    have deleted : g.deleteMember p.guid = some (g.eraseMember (guidLoPart p.guid)) := by
      simp [Guild.deleteMember, other]
    refine ⟨(inv.deleteMember_iff stored deleted ⟨me, meMember, ?_⟩).mpr fun q qOnline low => ?_,
      inv.players_deleteMember stored deleted⟩
    · rw [meKey, OnlinePlayer.guid, guidLoPart_playerGuid]
    · rw [OnlinePlayer.guid, guidLoPart_playerGuid] at low
      have isP := eq_of_key_eq qOnline online low
      rw [isP]
      exact ⟨rfl, inWorld⟩

theorem exists_deleteMember_of_mayRemoveMember {player : UInt64}
    (may : g.mayRemoveMember player guid) :
    (∃ m ∈ g.members, m.lowGuid = guidLoPart guid) ∧ ∃ g', g.deleteMember guid = some g' := by
  unfold Guild.mayRemoveMember at may
  rcases target : g.getMember guid with _ | member
  · simp [target] at may
  rcases me : g.getMember player with _ | memberMe
  · simp [target, me] at may
  obtain ⟨stored, key⟩ := Guild.getMember_eq_some_iff.mp target
  obtain ⟨meStored, -⟩ := Guild.getMember_eq_some_iff.mp me
  refine ⟨⟨member, stored, key⟩, Guild.exists_deleteMember meStored fun meKey => ?_⟩
  have same := eq_of_key_eq meStored stored (by rw [meKey, key])
  subst same
  simp [target, me, Member.isRankNotLower] at may

theorem Inv.handleRemoveMember_iff (inv : r.Inv) (stored : g ∈ r.guilds) :
    (r.handleRemoveMember g p guid).1.Inv ↔ (g.mayRemoveMember p.guid guid → ∀ target ∈ r.players,
        target.lowGuid = guidLoPart guid → target.guid = guid ∧ target.isInWorld) := by
  unfold Realm.handleRemoveMember
  rcases may : g.mayRemoveMember p.guid guid with _ | _
  · exact iff_of_true (by simpa using inv) (by simp)
  obtain ⟨member, g', deleted⟩ := exists_deleteMember_of_mayRemoveMember may
  rw [if_pos rfl]
  constructor
  · intro after _
    exact (inv.deleteMember_iff stored deleted member).mp after.agrees
  · intro found
    exact ⟨(inv.deleteMember_iff stored deleted member).mpr (found rfl),
      inv.players_deleteMember stored deleted⟩

theorem Inv.handleDisband_iff (inv : r.Inv) (stored : g ∈ r.guilds) : (r.handleDisband g p).Inv ↔
      (g.isLeader p.guid → ∀ member ∈ r.players, member.guildId = g.id.val → member.isInWorld) := by
  unfold handleDisband
  rcases leads : g.isLeader p.guid with _ | _
  · exact iff_of_true (by simpa using inv) (by simp)
  rw [if_pos rfl]
  constructor
  · intro after _
    exact (inv.disband_iff stored).mp after.agrees
  · intro present
    exact ⟨(inv.disband_iff stored).mpr (present rfl), inv.players_disband⟩

theorem toGuild_iff (inv : r.Inv) {player : UInt32} {answer : Guild → OnlinePlayer → Realm} :
    (r.toGuild player answer).Inv ↔
      ∀ p g, r.sender player = some p → r.getGuild p = some g → (answer g p).Inv := by
  unfold toGuild
  rcases sent : r.sender player with _ | p
  · exact iff_of_true inv fun _ _ impossible => nomatch impossible
  cases found : r.getGuild p with
  | none =>
    simp only [found]
    refine iff_of_true inv fun q g isP inGuild => ?_
    cases isP
    rw [found] at inGuild
    cases inGuild
  | some g =>
    simp only [found]
    constructor
    · rintro after q h ⟨⟩ inGuild
      rw [found] at inGuild
      cases inGuild
      exact after
    · intro all
      exact all p g rfl found

theorem Inv.step_iff (inv : r.Inv) (e : Event) : (r.step e).Inv ↔ r.KeepsAgreement e := by
  cases e with
  | invite player invitedName =>
    refine iff_of_true ((toGuild_iff inv).mpr fun p g _ _ => inv.handleInviteMember) True.intro
  | accept player now =>
    refine iff_of_true ?_ True.intro
    simp only [step]
    cases sent : r.sender player with
    | none => exact inv
    | some p =>
      obtain ⟨online, -, inWorld⟩ := sender_mem sent
      exact inv.handleGuildAcceptOpcode online inWorld now
  | decline player =>
    simp only [step, KeepsAgreement]
    rcases sent : r.sender player with _ | p
    · exact iff_of_true inv fun p impossible => nomatch impossible
    obtain ⟨online, -, -⟩ := sender_mem sent
    simp only [Option.some.injEq, forall_eq']
    constructor
    · intro after
      exact (inv.decline_iff online).mp after.agrees
    · intro free
      exact ⟨(inv.decline_iff online).mpr free, inv.players⟩
  | leave player =>
    refine iff_of_true ((toGuild_iff inv).mpr fun p g sent found => ?_) True.intro
    obtain ⟨online, -, inWorld⟩ := sender_mem sent
    exact inv.handleLeaveMember online inWorld found
  | kick player guid =>
    refine (toGuild_iff inv).trans (forall_congr' fun p => forall_congr' fun g =>
      forall_congr' fun _ => forall_congr' fun found => ?_)
    exact inv.handleRemoveMember_iff (getGuild_mem found).1
  | disband player =>
    refine (toGuild_iff inv).trans (forall_congr' fun p => forall_congr' fun g =>
      forall_congr' fun _ => forall_congr' fun found => ?_)
    exact inv.handleDisband_iff (getGuild_mem found).1
  | worldport player isInWorld =>
    exact iff_of_true (inv.updatePlayers (fun p => p.setInWorld_lowGuid _) fun _ => rfl) True.intro

theorem Inv.players_step (inv : r.Inv) (e : Event) : ∀ h ∈ (r.step e).guilds, h.PlayersOnly := by
  cases e with
  | invite player name => exact ((inv.step_iff (.invite player name)).mpr True.intro).players
  | accept player now => exact ((inv.step_iff (.accept player now)).mpr True.intro).players
  | leave player => exact ((inv.step_iff (.leave player)).mpr True.intro).players
  | worldport player isInWorld =>
    exact ((inv.step_iff (.worldport player isInWorld)).mpr True.intro).players
  | decline player =>
    simp only [step]
    split
    · exact inv.players
    · exact inv.players
  | kick player guid =>
    simp only [step, toGuild]
    split
    · exact inv.players
    split
    · exact inv.players
    rename_i g found
    unfold handleRemoveMember
    split
    · rename_i may
      obtain ⟨-, g', deleted⟩ := exists_deleteMember_of_mayRemoveMember may
      exact inv.players_deleteMember (getGuild_mem found).1 deleted
    · exact inv.players
  | disband player =>
    simp only [step, toGuild]
    split
    · exact inv.players
    split
    · exact inv.players
    unfold handleDisband
    split
    · exact inv.players_disband
    · exact inv.players

/-- **Guild ids and member maps stay in step exactly as long as every event keeps them in step**,
from any realm in which they agree and for every interleaving of packets and map changes. -/
theorem throughout_agrees_iff_keepsAgreement (r : Realm) (inv : r.Inv) (events : List Event) :
    Machine.Throughout step Agrees r events ↔ Machine.EachStep step KeepsAgreement r events :=
  Machine.throughout_iff_eachStep inv (fun _ inv => inv.agrees)
    (fun _ e inv keeps => (inv.step_iff e).mpr keeps)
    fun _ e inv breaks agrees => breaks ((inv.step_iff e).mp ⟨agrees, inv.players_step e⟩)

def lone : Realm where
  players := ⟨[⟨7, "Arthas", 0, true, false, [], 1, 0, 0⟩], by decide⟩
  guilds := ⟨[{ id := ⟨1, guildId_one⟩
                leaderGuid := playerGuid 7
                level := 1
                ranks := RankTable.createDefaultGuildRanks
                  ⟨"Guild Master", "Officer", "Veteran", "Member", "Initiate"⟩
                members := ⟨[⟨playerGuid 7, "Arthas", 0, 0⟩], by decide⟩ }], by decide⟩
  allowTwoSideInteractionGuild := false
  teamByGUID := fun _ => 0
  guildUndeletableLevel := 25

theorem inv_lone : lone.Inv := by
  have belongs : ∀ low id, lone.Belongs low id ↔ low = 7 ∧ id = 1 := by
    intro low id
    constructor
    · rintro ⟨g, stored, rfl, m, member, rfl⟩
      cases List.mem_singleton.mp stored
      cases List.mem_singleton.mp member
      exact ⟨by decide, rfl⟩
    · rintro ⟨rfl, rfl⟩
      exact ⟨_, List.mem_singleton_self _, rfl, _, List.mem_singleton_self _, by decide⟩
  refine ⟨⟨fun p online id => ?_, fun low id id' first second => ?_⟩, ?_⟩
  · cases List.mem_singleton.mp online
    rw [belongs]
    constructor
    · intro same
      exact ⟨rfl, same.symm⟩
    · rintro ⟨-, same⟩
      exact same.symm
  · rw [((belongs low id).mp first).2, ((belongs low id').mp second).2]
  · intro g stored m member
    cases List.mem_singleton.mp stored
    cases List.mem_singleton.mp member
    decide

/-- A founder who sends a decline without an invitation has no guild id and is
still in the member map. -/
theorem not_agrees_of_idle_decline : ¬ Machine.Throughout step Agrees lone [.decline 7] := by
  rintro ⟨-, agrees⟩
  have online : (⟨7, "Arthas", 0, true, false, [], 0, 0, 0⟩ : OnlinePlayer) ∈
      (lone.step (.decline 7)).players := by
    decide
  have belongs : (lone.step (.decline 7)).Belongs 7 1 :=
    ⟨_, List.mem_singleton_self _, rfl, _, List.mem_singleton_self _, by decide⟩
  exact absurd ((agrees.ids _ online ⟨1, by decide⟩).mpr belongs) (by decide)

/-- Nothing goes wrong when the founder logs a decline after disbanding. -/
theorem agrees_lone_disband_decline :
    Machine.Throughout step Agrees lone [.disband 7, .decline 7] := by
  refine (throughout_agrees_iff_keepsAgreement lone inv_lone _).mpr ⟨?_, ?_, True.intro⟩
  · intro p g _ _ _ member online _
    cases List.mem_singleton.mp online
    rfl
  intro p sent
  have : (lone.step (.disband 7)).sender 7 = some ⟨7, "Arthas", 0, true, false, [], 0, 0, 0⟩ := by
    decide
  rw [this] at sent
  cases sent
  rfl

end Realm

end Sky548
