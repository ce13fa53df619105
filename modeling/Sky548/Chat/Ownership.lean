import Sky548.Chat.Members
import Sky548.Machine

/-!
# Who owns a channel

The owner of a channel is known twice, by `_ownerGUID` and by the flag of a member. `Consistent`
says that the two agree while there are members, that every entry stands under its own player's
GUID, who has the channel in his list and is not banned.

Three requests break it. An owner who kicks or bans himself leaves before he is made the owner
again, by an `operator[]` that enters him without his GUID. A channel whose last member has gone
keeps the GUID of its owner. And the check that an owner does not take the moderator flag from
himself compares names to the letter, while the name is looked up in lower case.
-/

namespace Sky548

/-- A player without the permission to command channels he does not moderate. -/
structure PlainPlayer extends ChannelPlayer where
  plain : changeNotModerator = false

namespace ChannelWorld

open Machine

/-- A call for a player; `online` are the players whom a name can stand for. -/
inductive Event
  | join (player : PlainPlayer) (pass : List Char)
  | leave (player : PlainPlayer)
  | cleanup (player : PlainPlayer)
  | kickOrBan (online : List ChannelPlayer) (player : PlainPlayer) (badname : List Char)
      (ban : Bool)
  | unBan (online : List ChannelPlayer) (player : PlainPlayer) (badname : List Char)
  | setOwner (online : List ChannelPlayer) (player : PlainPlayer) (newname : List Char)
  | setMode (online : List ChannelPlayer) (player : PlainPlayer) (p2n : List Char)
      (mod set : Bool)
  | password (player : PlainPlayer) (pass : List Char)

def Event.player : Event → PlainPlayer
  | .join player _ | .leave player | .cleanup player | .kickOrBan _ player _ _
  | .unBan _ player _ | .setOwner _ player _ | .setMode _ player _ _ _ | .password player _ => player

def perform (w : ChannelWorld) : Event → Except ChannelNotice ChannelWorld
  | .join player pass => w.joinChannel player.toChannelPlayer pass
  | .leave player => w.leaveChannel player.toChannelPlayer true
  | .cleanup player => w.cleanupChannel player.toChannelPlayer
  | .kickOrBan online player badname ban =>
    w.kickOrBan online player.toChannelPlayer badname ban
  | .unBan online player badname => w.unBan online player.toChannelPlayer badname
  | .setOwner online player newname => w.setOwner online player.toChannelPlayer newname
  | .setMode online player p2n mod set => w.setMode online player.toChannelPlayer p2n mod set
  | .password player pass => w.password player.toChannelPlayer pass

def step (w : ChannelWorld) (e : Event) : ChannelWorld :=
  match w.perform e with
  | .ok after => after
  | .error _ => w

/-- Owner, flags, keys, lists and bans agree. -/
structure Consistent (w : ChannelWorld) : Prop where
  owned : w.channel.Owned
  onlyOwner : ∀ who info, w.channel.playersStore.find? who = some info → info.isOwner →
    who = w.channel.ownerGUID
  keyed : ∀ who info, w.channel.playersStore.find? who = some info → info.player = who
  joined : ∀ who, 0 < w.joined who ↔ w.channel.isOn who
  noneBanned : ∀ who, w.channel.isBanned who → ¬ w.channel.isOn who

/-- A member who is not the owner leaves the owner's entry alone. -/
def SparesOwner (w : ChannelWorld) (e : Event) : Prop :=
  w.channel.isOn e.player.guid → e.player.guid ≠ w.channel.ownerGUID →
    (step w e).channel.playersStore.find? w.channel.ownerGUID =
      w.channel.playersStore.find? w.channel.ownerGUID

/-- Who is let in finds members, or a channel that never had an owner; an owner kicks or bans
himself only as the last member, and does not take the moderator flag from himself under another
spelling. -/
def Fair (w : ChannelWorld) : Event → Prop
  | .join player pass =>
    ¬ w.channel.isBanned player.guid → (w.channel.password = [] ∨ pass = w.channel.password) →
      w.channel.isEmpty → w.channel.ownerGUID = 0
  | .kickOrBan online player badname _ =>
    ∀ bad ∈ findPlayerByName online badname, bad.guid = player.guid →
      player.guid = w.channel.ownerGUID → (w.channel.drop player.guid).isEmpty
  | .setMode online player p2n mod set =>
    mod → set = false → w.channel.isOn player.guid → player.guid = w.channel.ownerGUID →
      ∀ newp ∈ w.namedMember online player.toChannelPlayer p2n, newp.guid = player.guid →
        p2n = player.name
  | .leave _ | .cleanup _ | .unBan .. | .setOwner .. | .password .. => True

structure Inv (w : ChannelWorld) : Prop where
  kept : w.channel.Kept
  owned : w.channel.Owned
  once : ∀ who, w.joined who = if w.channel.isOn who then 1 else 0

theorem Inv.consistent {w : ChannelWorld} (inv : w.Inv) : w.Consistent := by
  refine ⟨inv.owned, inv.kept.onlyOwner, inv.kept.keyed, fun who => ?_, fun who isBanned isThere => ?_⟩
  · rw [inv.once]
    cases w.channel.isOn who <;> simp
  · obtain ⟨info, found⟩ := Channel.isOn_iff.mp isThere
    exact inv.kept.noneBanned who info found isBanned

theorem inv_start (password : List Char) (banned : Finset UInt64) :
    (start password banned).Inv := by
  refine ⟨⟨rfl, ?_, ?_, ?_, ?_⟩, fun notEmpty => absurd rfl notEmpty, fun _ => rfl⟩
  all_goals
    intro who info found
    cases found

/-! ### One request -/

variable {w : ChannelWorld} {player : ChannelPlayer}

variable {after : ChannelWorld}

theorem asModerator_eq_ok {command : Except ChannelNotice ChannelWorld}
    (done : w.asModerator player command = .ok after) :
    w.channel.isOn player.guid ∧ command = .ok after := by
  unfold asModerator at done
  split at done
  · cases done
  rename_i isOn
  split at done
  · cases done
  · exact ⟨by simpa using isOn, done⟩

theorem namedMember_isOn {online : List ChannelPlayer} {name : List Char} {newp : ChannelPlayer}
    (named : w.namedMember online player name = some newp) : w.channel.isOn newp.guid := by
  unfold namedMember at named
  split at named
  · cases named
  split at named
  · cases named
  rename_i isMember
  cases named
  simp only [Bool.not_eq_true', not_or] at isMember
  simpa using isMember.1

theorem Inv.setChannel (inv : w.Inv) {c : Channel} (kept : c.Kept) (owned : c.Owned)
    (same : ∀ who, c.isOn who = w.channel.isOn who) : (w.setChannel c).Inv := by
  refine ⟨kept, owned, fun who => ?_⟩
  change w.joined who = if c.isOn who then 1 else 0
  rw [same, inv.once]

theorem Inv.without (inv : w.Inv) {c : Channel} {guid : UInt64} (kept : c.Kept)
    (owned : c.Owned) (gone : ∀ who, c.isOn who = (w.channel.isOn who && decide (who ≠ guid))) :
    ((w.leftChannel guid).setChannel c).Inv := by
  refine ⟨kept, owned, fun who => ?_⟩
  change (if who = guid then 0 else w.joined who) = if c.isOn who then 1 else 0
  rw [gone, inv.once]
  split
  · rename_i isGuid
    simp [isGuid]
  · rename_i other
    simp [other]

theorem Inv.joinChannel (inv : w.Inv) {pass : List Char}
    (done : w.joinChannel player pass = .ok after) (fair : ¬ w.channel.isBanned player.guid →
      (w.channel.password = [] ∨ pass = w.channel.password) →
        w.channel.isEmpty → w.channel.ownerGUID = 0) : after.Inv := by
  unfold ChannelWorld.joinChannel at done
  split at done
  · cases done
  rename_i new
  split at done
  · cases done
  rename_i allowed
  split at done
  · cases done
  rename_i right
  have letIn : w.channel.password = [] ∨ pass = w.channel.password := by
    by_contra neither
    rw [not_or] at neither
    exact right neither
  cases done
  obtain ⟨kept, owned, same⟩ := inv.kept.enter inv.owned player.guid_ne_zero allowed new
    (fair allowed letIn)
  refine ⟨kept, owned, fun who => ?_⟩
  change (if who = player.guid then w.joined who + 1 else w.joined who) =
    if (w.channel.enter player.guid).isOn who then 1 else 0
  rw [same, inv.once]
  split
  · rename_i isGuid
    simp [isGuid, new]
  · rename_i other
    simp [other]

theorem Inv.leaveChannel (inv : w.Inv) (done : w.leaveChannel player true = .ok after): after.Inv := by
  unfold ChannelWorld.leaveChannel at done
  split at done
  · cases done
  rename_i member
  cases done
  obtain ⟨kept, owned, gone⟩ := inv.kept.leave inv.owned (by simpa using member)
  exact inv.without kept owned gone

theorem Inv.cleanupChannel (inv : w.Inv) (done : w.cleanupChannel player = .ok after): after.Inv := by
  unfold ChannelWorld.cleanupChannel at done
  split at done
  · cases done
    exact inv
  rename_i listed
  have member : w.channel.isOn player.guid := by
    rw [inv.once] at listed
    by_contra absent
    simp [absent] at listed
  unfold ChannelWorld.leaveChannel at done
  rw [if_neg (by simpa using member), if_neg Bool.false_ne_true] at done
  cases done
  obtain ⟨kept, owned, gone⟩ := inv.kept.leave inv.owned member
  refine ⟨kept, owned, fun who => ?_⟩
  change (if who = player.guid then w.joined who - 1 else w.joined who) =
    if (w.channel.leave player.guid).isOn who then 1 else 0
  rw [gone, inv.once]
  split
  · rename_i isGuid
    simp [isGuid, member]
  · rename_i other
    simp [other]

variable {badname : List Char}

theorem kickOrBan_eq_ok {online : List ChannelPlayer} {ban : Bool} (plain : player.changeNotModerator = false)
    (done : w.kickOrBan online player badname ban = .ok after) :
    w.channel.isOn player.guid ∧ ∃ bad, findPlayerByName online badname = some bad ∧
      w.channel.isOn bad.guid ∧
      (w.channel.ownerGUID = bad.guid → player.guid = w.channel.ownerGUID) ∧
      after = (w.leftChannel bad.guid).setChannel (w.channel.expel player.guid bad.guid ban) := by
  obtain ⟨isOn, command⟩ := asModerator_eq_ok done
  refine ⟨isOn, ?_⟩
  split at command
  · cases command
  rename_i bad found
  split at command
  · cases command
  rename_i member
  split at command
  · cases command
  rename_i mayExpel
  cases command
  refine ⟨bad, found, by simpa using member, fun isOwner => ?_, rfl⟩
  by_contra other
  exact mayExpel ⟨by simp [plain], isOwner, other⟩

theorem Inv.kickOrBan (inv : w.Inv) {online : List ChannelPlayer}
    {ban : Bool} (plain : player.changeNotModerator = false)
    (done : w.kickOrBan online player badname ban = .ok after)
    (fair : ∀ bad ∈ findPlayerByName online badname, bad.guid = player.guid →
      player.guid = w.channel.ownerGUID → (w.channel.drop player.guid).isEmpty) : after.Inv := by
  obtain ⟨-, bad, found, -, byOwner, rfl⟩ := kickOrBan_eq_ok plain done
  have last : w.channel.ownerGUID = bad.guid → (w.channel.drop bad.guid).isEmpty := by
    intro isOwner
    have self := byOwner isOwner
    have same : bad.guid = player.guid := isOwner.symm.trans self.symm
    rw [same]
    exact fair bad found same self
  obtain ⟨kept, owned, gone⟩ := inv.kept.expel inv.owned last
  exact inv.without kept owned gone

theorem Inv.unBan (inv : w.Inv) {online : List ChannelPlayer} (done : w.unBan online player badname = .ok after) : after.Inv := by
  obtain ⟨-, command⟩ := asModerator_eq_ok done
  split at command
  · cases command
  split at command
  · cases command
  cases command
  refine inv.setChannel (inv.kept.ban fun who isBanned isThere => ?_) inv.owned fun _ => rfl
  obtain ⟨info, found⟩ := Channel.isOn_iff.mp isThere
  exact inv.kept.noneBanned who info found
    (by simpa [Channel.isBanned] using (Finset.mem_erase.mp isBanned).2)

theorem Inv.password (inv : w.Inv) {pass : List Char} (done : w.password player pass = .ok after): after.Inv := by
  obtain ⟨-, command⟩ := asModerator_eq_ok done
  cases command
  have kept : Channel.Kept { w.channel with password := pass } :=
    ⟨inv.kept.ownership, inv.kept.onlyOwner, inv.kept.keyed, inv.kept.nonzero, inv.kept.noneBanned⟩
  exact inv.setChannel kept inv.owned fun _ => rfl

theorem Inv.setOwner (inv : w.Inv) {online : List ChannelPlayer} {newname : List Char} (done : w.setOwner online player newname = .ok after) : after.Inv := by
  unfold ChannelWorld.setOwner at done
  split at done
  · cases done
  split at done
  · cases done
  split at done
  · cases done
  rename_i newp named
  cases done
  obtain ⟨kept, owned, same⟩ := inv.kept.promote (namedMember_isOn named)
  exact inv.setChannel kept owned same

theorem setMode_eq_ok {online : List ChannelPlayer} {p2n : List Char} {mod set : Bool} (done : w.setMode online player p2n mod set = .ok after) :
    w.channel.isOn player.guid ∧
      (after = w ∨ ∃ newp, w.namedMember online player p2n = some newp ∧
        (w.channel.ownerGUID = newp.guid → w.channel.ownerGUID = player.guid) ∧
        ¬ (player.guid = w.channel.ownerGUID ∧ p2n = player.name ∧ mod) ∧
        after = w.setChannel (if mod then w.channel.setModerator newp.guid set
            else w.channel.setMute newp.guid set)) := by
  obtain ⟨isOn, command⟩ := asModerator_eq_ok done
  refine ⟨isOn, ?_⟩
  split at command
  · cases command
    exact Or.inl rfl
  rename_i notOwn
  split at command
  · cases command
  rename_i newp named
  split at command
  · cases command
  rename_i mayChange
  refine Or.inr ⟨newp, named, fun isOwner => ?_, notOwn, ?_⟩
  · by_contra other
    exact mayChange ⟨isOwner, other⟩
  · split at command <;> cases command <;> simp [*]

theorem Inv.setMode (inv : w.Inv) {online : List ChannelPlayer} {p2n : List Char}
    {mod set : Bool} (done : w.setMode online player p2n mod set = .ok after)
    (fair : mod → set = false → w.channel.isOn player.guid → player.guid = w.channel.ownerGUID →
      ∀ newp ∈ w.namedMember online player p2n, newp.guid = player.guid → p2n = player.name) :
    after.Inv := by
  obtain ⟨isOn, rfl | ⟨newp, named, byOwner, notOwn, rfl⟩⟩ := setMode_eq_ok done
  · exact inv
  · have member := namedMember_isOn named
    cases mod with
    | false =>
      rw [if_neg Bool.false_ne_true]
      unfold Channel.setMute
      split
      · refine inv.setChannel ?_ ?_ fun who => Channel.isOn_modify member _
        · exact inv.kept.modify member (fun info => Channel.PlayerInfo.isOwner_setMuted info set)
            fun info => Channel.PlayerInfo.player_setMuted info set
        · refine inv.owned.modify member
            (fun info => Channel.PlayerInfo.isOwner_setMuted info set) fun _ info moderates => ?_
          rw [Channel.PlayerInfo.isModerator_setMuted]
          exact moderates
      · exact inv.setChannel inv.kept inv.owned fun _ => rfl
    | true =>
      rw [if_pos rfl]
      unfold Channel.setModerator
      split
      · refine inv.setChannel ?_ ?_ fun who => Channel.isOn_modify member _
        · exact inv.kept.modify member
            (fun info => Channel.PlayerInfo.isOwner_setModerator info set)
            fun info => Channel.PlayerInfo.player_setModerator info set
        refine inv.owned.modify member
          (fun info => Channel.PlayerInfo.isOwner_setModerator info set) fun isOwner info _ => ?_
        rw [Channel.PlayerInfo.isModerator_setModerator]
        cases set with
        | true => rfl
        | false =>
          -- the owner takes the flag from himself: only by another spelling of his name
          have self := byOwner isOwner.symm
          have spelled := fair rfl rfl isOn self.symm newp named (isOwner.trans self)
          exact absurd ⟨self.symm, spelled, rfl⟩ notOwn
      · exact inv.setChannel inv.kept inv.owned fun _ => rfl

theorem Inv.step (inv : w.Inv) {e : Event} (fair : Fair w e) : (step w e).Inv := by
  unfold ChannelWorld.step
  split
  · rename_i after done
    cases e with
    | join player pass => exact inv.joinChannel done fair
    | leave player => exact inv.leaveChannel done
    | cleanup player => exact inv.cleanupChannel done
    | kickOrBan online player badname ban => exact inv.kickOrBan player.plain done fair
    | unBan online player badname => exact inv.unBan done
    | setOwner online player newname => exact inv.setOwner done
    | setMode online player p2n mod set => exact inv.setMode done fair
    | password player pass => exact inv.password done
  · exact inv

theorem Inv.sparesOwner (inv : w.Inv) (e : Event) : SparesOwner w e := by
  intro member other
  unfold ChannelWorld.step
  split
  swap
  · rfl
  · rename_i after done
    have dropped : ∀ guid ≠ w.channel.ownerGUID,
        (w.channel.drop guid).playersStore.find? w.channel.ownerGUID =
          w.channel.playersStore.find? w.channel.ownerGUID := by
      intro guid apart
      rw [Channel.drop_find?, if_neg apart.symm]
    cases e with
    | join player pass =>
      have member : w.channel.isOn player.guid := member
      simp only [perform, ChannelWorld.joinChannel] at done
      rw [if_pos member] at done
      cases done
    | leave player =>
      have member : w.channel.isOn player.guid := member
      have other : player.guid ≠ w.channel.ownerGUID := other
      simp only [perform, ChannelWorld.leaveChannel] at done
      split at done
      · cases done
      cases done
      change (w.channel.leave player.guid).playersStore.find? _ = _
      rw [inv.kept.leave_of_ne_owner member other]
      exact dropped player.guid other
    | cleanup player =>
      have member : w.channel.isOn player.guid := member
      have other : player.guid ≠ w.channel.ownerGUID := other
      simp only [perform, ChannelWorld.cleanupChannel, ChannelWorld.leaveChannel] at done
      split at done
      · cases done
        rfl
      split at done
      · cases done
      cases done
      change (w.channel.leave player.guid).playersStore.find? _ = _
      rw [inv.kept.leave_of_ne_owner member other]
      exact dropped player.guid other
    | kickOrBan online player badname ban =>
      obtain ⟨-, bad, -, -, byOwner, rfl⟩ := kickOrBan_eq_ok player.plain done
      have spared : w.channel.ownerGUID ≠ bad.guid := fun isOwner => other (byOwner isOwner)
      change (w.channel.expel player.guid bad.guid ban).playersStore.find? _ = _
      rw [Channel.expel_of_ne_owner spared]
      exact dropped bad.guid spared.symm
    | unBan online player badname =>
      obtain ⟨-, command⟩ := asModerator_eq_ok done
      split at command
      · cases command
      · split at command <;> cases command
        rfl
    | setOwner online player newname =>
      simp only [perform, ChannelWorld.setOwner] at done
      split at done
      · cases done
      · rw [if_pos ⟨by simp [player.plain], other⟩] at done
        cases done
    | setMode online player p2n mod set =>
      obtain ⟨-, rfl | ⟨newp, -, byOwner, -, rfl⟩⟩ := setMode_eq_ok done
      · rfl
      · have spared : w.channel.ownerGUID ≠ newp.guid := fun isOwner =>
          other (byOwner isOwner).symm
        change (if mod then w.channel.setModerator newp.guid set
          else w.channel.setMute newp.guid set).playersStore.find? _ = _
        unfold Channel.setModerator Channel.setMute
        split
        all_goals
          split
          · rw [Channel.modify_find?, if_neg spared]
          · rfl
    | password player pass =>
      obtain ⟨-, command⟩ := asModerator_eq_ok done
      cases command
      rfl

theorem Inv.asModerator_owner (inv : w.Inv) (isOn : w.channel.isOn player.guid)
    (isOwner : player.guid = w.channel.ownerGUID) (command : Except ChannelNotice ChannelWorld) :
    w.asModerator player command = command := by
  obtain ⟨info, found, -, moderates⟩ := inv.owned.of_member isOn
  unfold asModerator
  rw [isOwner] at isOn ⊢
  rw [if_neg (by simp [isOn]), Channel.info_of_find? found, if_neg (by simp [moderates])]

theorem Inv.not_consistent (inv : w.Inv) {e : Event} (unfair : ¬ Fair w e) :
    ¬ (ChannelWorld.step w e).Consistent := by
  intro consistent
  cases e with
  | join player pass =>
    simp only [Fair, Classical.not_imp] at unfair
    obtain ⟨allowed, right, empty, hasOwner⟩ := unfair
    have none := Channel.isEmpty_iff.mp empty
    have absent : ¬ w.channel.isOn player.guid := by simp [Channel.isOn, none]
    have done : w.joinChannel player.toChannelPlayer pass =
        .ok ((w.joinedChannel player.guid).setChannel (w.channel.enter player.guid)) := by
      unfold ChannelWorld.joinChannel
      rw [if_neg absent, if_neg allowed, if_neg fun both => right.elim both.1 both.2]
    simp only [ChannelWorld.step, perform, done] at consistent
    -- the only entry is the new member's, who has no flags
    have entries : ∀ who, (w.channel.enter player.guid).playersStore.find? who =
        if who = player.guid then some ⟨player.guid, 0⟩ else Option.none := by
      intro who
      unfold Channel.enter
      rw [if_neg fun both => hasOwner both.1]
      exact (OrdMap.find?_insert _ _ _ _).trans (by rw [none])
    obtain ⟨info, found, owns, -⟩ := consistent.owned fun isEmpty => by
      have gone := Channel.isEmpty_iff.mp isEmpty player.guid
      exact absurd ((entries player.guid).symm.trans gone) (by simp)
    change (w.channel.enter player.guid).playersStore.find? _ = some info at found
    rw [entries] at found
    split at found
    · cases found
      exact absurd owns (by simp [Channel.PlayerInfo.isOwner, Channel.PlayerInfo.hasFlag])
    · cases found
  | kickOrBan online player badname ban =>
    simp only [Fair, not_forall] at unfair
    obtain ⟨bad, found, self, isOwner, others⟩ := unfair
    have nonzero : w.channel.ownerGUID ≠ 0 := isOwner ▸ player.guid_ne_zero
    have isOn : w.channel.isOn player.guid := by
      have notEmpty : ¬ w.channel.isEmpty := by
        intro empty
        apply others
        apply Channel.isEmpty_iff.mpr
        intro who
        rw [Channel.drop_find?, Channel.isEmpty_iff.mp empty who]
        split <;> rfl
      obtain ⟨info, there, -⟩ := inv.owned notEmpty
      exact Channel.isOn_iff.mpr ⟨info, isOwner ▸ there⟩
    have done : w.kickOrBan online player.toChannelPlayer badname ban =
        .ok ((w.leftChannel bad.guid).setChannel (w.channel.expel player.guid bad.guid ban)) := by
      unfold ChannelWorld.kickOrBan
      rw [inv.asModerator_owner isOn isOwner, show findPlayerByName online badname = some bad from found]
      dsimp only
      rw [self, if_neg (by simp [isOn]), if_neg fun all => all.2.2 isOwner]
    simp only [ChannelWorld.step, perform, done] at consistent
    rw [isOwner] at others
    obtain ⟨info, entered, zero⟩ :=
      Channel.expel_self ban inv.kept.ownership nonzero others
    have keyed := consistent.keyed w.channel.ownerGUID info (by
      rw [self, isOwner]
      exact entered)
    exact nonzero (keyed.symm.trans zero)
  | setMode online player p2n mod set =>
    simp only [Fair, not_forall] at unfair
    obtain ⟨isMod, unset, isOn, isOwner, newp, named, self, spelled⟩ := unfair
    subst isMod unset
    have done : w.setMode online player.toChannelPlayer p2n true false =
        .ok (w.setChannel (w.channel.setModerator newp.guid false)) := by
      unfold ChannelWorld.setMode
      rw [inv.asModerator_owner isOn isOwner, if_neg fun all => spelled all.2.1,
        show w.namedMember online player.toChannelPlayer p2n = some newp from named]
      dsimp only
      rw [if_neg fun both => both.2 isOwner.symm, if_pos rfl]
    simp only [ChannelWorld.step, perform, done] at consistent
    obtain ⟨info, found, -, moderates⟩ := inv.owned.of_member isOn
    have owner : newp.guid = w.channel.ownerGUID := self.trans isOwner
    have result : w.channel.setModerator newp.guid false =
        w.channel.modify newp.guid (·.setModerator false) := by
      unfold Channel.setModerator
      rw [owner, Channel.info_of_find? found, if_pos (by simp [moderates])]
    have isThere : (w.channel.modify newp.guid (·.setModerator false)).isOn newp.guid := by
      simp [Channel.isOn]
    obtain ⟨after, isAfter, -, still⟩ := Channel.Owned.of_member (result ▸ consistent.owned) isThere
    rw [Channel.modify_ownerGUID, Channel.modify_find?, if_pos owner.symm] at isAfter
    cases isAfter
    rw [Channel.PlayerInfo.isModerator_setModerator] at still
    cases still
  | _ => exact unfair True.intro

/-- **A channel is consistent throughout a run, and its owner spared by every
other member, exactly when every request is fair.** -/
theorem consistent_iff_fair (password : List Char) (banned : Finset UInt64) (events : List Event) :
    (Throughout step Consistent (start password banned) events ∧
        EachStep step SparesOwner (start password banned) events) ↔
      EachStep step Fair (start password banned) events := by
  have always : Throughout step Consistent (start password banned) events ↔
      EachStep step Fair (start password banned) events :=
    throughout_iff_eachStep (inv_start password banned) (fun _ inv => inv.consistent)
      (fun _ _ inv fair => inv.step fair) fun _ _ inv unfair => inv.not_consistent unfair
  rw [always]
  constructor
  · exact And.left
  · intro fair
    exact ⟨fair, EachStep.of_eachStep (inv_start password banned)
      (fun _ _ inv met => inv.step met) (fun _ e inv _ => inv.sparesOwner e) fair⟩

namespace SelfKick

def anna : PlainPlayer := ⟨⟨1, "Anna".toList, 0, false, false, by decide⟩, rfl⟩

def bert : PlainPlayer := ⟨⟨2, "Bert".toList, 0, false, false, by decide⟩, rfl⟩

def online : List ChannelPlayer := [anna.toChannelPlayer, bert.toChannelPlayer]

/-- Anna owns a channel, Bert joins it, and Anna kicks herself. -/
def events : List Event := [.join anna [], .join bert [], .kickOrBan online anna "Anna".toList false]

end SelfKick

theorem not_consistent_of_selfKick : ¬ (Throughout step Consistent (start [] ∅) SelfKick.events ∧
      EachStep step SparesOwner (start [] ∅) SelfKick.events) := by
  intro both
  have keyed := both.1.last.keyed 1
    ((((start [] ∅).channel.enter 1).enter 2).expel 1 1 false |>.info 1) (by decide)
  revert keyed
  decide

end ChannelWorld

end Sky548
