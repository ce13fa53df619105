import Sky548.Groups.Parties
import Sky548.Machine

/-!
# One party per player

Outside battlegrounds a player is in at most one group, and the group a player refers to is the one
that has a slot for the player. `Inv` is what the handlers keep of this.

The law breaks with a group that is not created yet, which still puts its leader in, whatever group
he has joined since. The other danger is an invitation to a group that is deleted already.
-/

namespace Sky548

open List Option

namespace Group

variable {g : Group}

def guids (g : Group) : List UInt64 := g.memberSlots.map (·.guid)

theorem guids_pushSlot (guid : UInt64) (subGroup : Nat) :
    (g.pushSlot guid subGroup).guids = g.guids ++ [guid] := by
  change List.map _ (_ ++ _) = _
  rw [map_append]
  rfl

theorem guids_start (leader : UInt64) : (g.start leader).guids = g.guids := by
  rw [start]
  split
  · rfl
  · rfl

theorem guids_changeLeader (online : UInt64 → Bool) (guid : UInt64) :
    (g.changeLeader online guid).guids = g.guids := by
  rw [changeLeader]
  rcases g.getMemberSlot guid with _ | slot
  · rfl
  dsimp only
  split
  · exact MemberSlot.map_update (fun slot => slot.toggleFlag_guid .assistant false) _
  · rfl

theorem guids_pickLeader (online : UInt64 → Bool) (guid : UInt64) :
    (g.pickLeader online guid).guids = g.guids := by
  rw [pickLeader]
  split
  · split
    · rfl
    · exact guids_changeLeader online _
  · rfl

theorem getMemberSlot_eq_none_iff {guid : UInt64} :
    g.getMemberSlot guid = none ↔ guid ∉ g.guids := by
  rw [getMemberSlot, find?_eq_none, guids, List.mem_map]
  constructor
  · rintro none ⟨slot, inSlots, same⟩
    exact none slot inSlots (by simpa using same)
  · intro absent slot inSlots same
    exact absent ⟨slot, inSlots, by simpa using same⟩

theorem isMember_iff {guid : UInt64} : g.isMember guid ↔ guid ∈ g.guids := by
  have none := @getMemberSlot_eq_none_iff g guid
  rw [isMember, isSome_iff_ne_none]
  exact ⟨fun found => Classical.not_not.mp fun absent => found (none.mpr absent),
    fun member absent => none.mp absent member⟩

theorem guids_eraseSlot (guid : UInt64) : (g.eraseSlot guid).guids = g.guids.erase guid := by
  rw [eraseSlot]
  rcases found : g.getMemberSlot guid with _ | slot
  · exact (erase_of_not_mem (getMemberSlot_eq_none_iff.mp found)).symm
  obtain ⟨before, after, split, same, others, -, erased⟩ := MemberSlot.find?_split found
  have absent : guid ∉ before.map (·.guid) := by
    intro member
    obtain ⟨other, early, isGuid⟩ := List.mem_map.mp member
    exact others other early isGuid
  change (g.memberSlots.eraseP _).map (·.guid) = _
  rw [erased, guids, split, map_append, map_append, map_cons,
    erase_append_right _ absent, same, erase_cons_head]

theorem guids_without (online : UInt64 → Bool) (guid : UInt64) :
    (g.without online guid).guids = g.guids.erase guid := by
  rw [without, guids_pickLeader, guids_eraseSlot]

theorem changeLeader_cases (online : UInt64 → Bool) (guid : UInt64) :
    g.changeLeader online guid = g ∨ ∃ leaderGuid memberSlots,
      g.changeLeader online guid = { g with leaderGuid, memberSlots } := by
  rw [changeLeader]
  rcases g.getMemberSlot guid with _ | slot
  · exact Or.inl rfl
  dsimp only
  split
  · exact Or.inr ⟨_, _, rfl⟩
  · exact Or.inl rfl

theorem battle_without (online : UInt64 → Bool) (guid : UInt64) :
    (g.without online guid).isBGGroup = g.isBGGroup ∧
      (g.without online guid).isBFGroup = g.isBFGroup := by
  have erased : (g.eraseSlot guid).isBGGroup = g.isBGGroup ∧
      (g.eraseSlot guid).isBFGroup = g.isBFGroup := by
    rw [eraseSlot]
    split
    · exact ⟨rfl, rfl⟩
    · exact ⟨rfl, rfl⟩
  rw [without, pickLeader]
  split
  · split
    · exact erased
    rename_i slot _
    rcases changeLeader_cases (g := g.eraseSlot guid) online slot.guid with
      same | ⟨leaderGuid, memberSlots, changed⟩
    · rw [same]
      exact erased
    · rw [changed]
      exact erased
  · exact erased

theorem guids_convertToRaid : g.convertToRaid.guids = g.guids := rfl

theorem convertToGroup_cases : g.convertToGroup = g ∨
    g.convertToGroup = { g with groupType := groupTypeNormal, subGroupsCounts := none } := by
  rw [convertToGroup]
  split
  · exact Or.inl rfl
  · exact Or.inr rfl

theorem setGroupMemberFlag_cases (guid : UInt64) (apply : Bool) (flag : GroupMemberFlag) :
    ∃ memberSlots, g.setGroupMemberFlag guid apply flag = { g with memberSlots } := by
  unfold setGroupMemberFlag
  split
  · exact ⟨_, rfl⟩
  · split
    · exact ⟨_, rfl⟩
    · exact ⟨_, rfl⟩

theorem guids_setGroupMemberFlag (guid : UInt64) (apply : Bool) (flag : GroupMemberFlag) :
    (g.setGroupMemberFlag guid apply flag).guids = g.guids := by
  unfold setGroupMemberFlag
  split
  · rfl
  split
  · rfl
  change List.map _ (MemberSlot.update _ _ _) = _
  rw [MemberSlot.map_update fun slot => slot.toggleFlag_guid flag apply]
  cases flag with
  | assistant => rfl
  | mainTank => rw [List.map_map]; rfl
  | mainAssist => rw [List.map_map]; rfl

theorem getMembersCount_eq : g.getMembersCount = g.guids.length := (length_map _).symm

theorem isCreated_iff : g.isCreated ↔ g.guids ≠ [] := by
  rw [isCreated, getMembersCount_eq, decide_eq_true_iff]
  exact length_pos_iff

/-- No group of a battleground or battlefield, and as it was made while nobody is in it. -/
structure Ordinary (g : Group) : Prop where
  bg : g.isBGGroup = false
  bf : g.isBFGroup = false
  party : g.guids = [] → g.groupType = groupTypeNormal ∧ g.subGroupsCounts = none

theorem ordinary_new : (new false false).Ordinary := ⟨rfl, rfl, fun _ => ⟨rfl, rfl⟩⟩

end Group

namespace Parties

variable {w : Parties} {gid : GroupId} {g : Group} {guid : UInt64}

/-- **One party.** A player refers to the group that has a slot for the player, and to
no second one. -/
structure OneParty (w : Parties) : Prop where
  single : ∀ p ∈ w.online, (w.refs p).group ≠ none → (w.refs p).originalGroup = none
  member : ∀ p ∈ w.online, ∀ gid,
    (w.refs p).group = some gid ↔ ∃ g, w.groups gid = some g ∧ p ∈ g.guids
  sole : ∀ p gid gid' g g', w.groups gid = some g → w.groups gid' = some g' →
    p ∈ g.guids → p ∈ g'.guids → gid = gid'

structure Inv (w : Parties) : Prop where
  fresh : ∀ gid, w.next ≤ gid → w.groups gid = none
  nodup : ∀ gid g, w.groups gid = some g → g.guids.Nodup
  online : ∀ gid g, w.groups gid = some g → ∀ p ∈ g.guids, p ∈ w.online
  ordinary : ∀ gid g, w.groups gid = some g → g.Ordinary
  member : ∀ p ∈ w.online, ∀ gid,
    (w.refs p).group = some gid ↔ ∃ g, w.groups gid = some g ∧ p ∈ g.guids
  single : ∀ p ∈ w.online, (w.refs p).originalGroup = none
  uninvited : ∀ p ∈ w.online, (w.refs p).group ≠ none → (w.refs p).groupInvite = none

theorem Inv.oneParty (inv : w.Inv) : w.OneParty where
  single := fun p online _ => inv.single p online
  member := inv.member
  sole := by
    intro p gid gid' g g' found found' inGroup inGroup'
    have online := inv.online gid g found p inGroup
    have first := (inv.member p online gid).mpr ⟨g, found, inGroup⟩
    have second := (inv.member p online gid').mpr ⟨g', found', inGroup'⟩
    rw [first] at second
    exact Option.some.inj second

theorem inv_start (online : List UInt64) : (start online).Inv where
  fresh := fun _ _ => rfl
  nodup := fun _ _ found => nomatch found
  online := fun _ _ found => nomatch found
  ordinary := fun _ _ found => nomatch found
  member := by
    intro p _ gid
    constructor
    · intro grouped
      cases grouped
    · rintro ⟨g, found, -⟩
      cases found
  single := fun _ _ => rfl
  uninvited := fun _ _ _ => rfl

theorem isOnline_iff : w.isOnline guid ↔ guid ∈ w.online := by
  rw [isOnline, decide_eq_true_iff]

@[simp] theorem setRefs_refs (refs : GroupRefs) (p : UInt64) :
    (w.setRefs guid refs).refs p = if p = guid then refs else w.refs p :=
  Function.update_apply ..

@[simp] theorem setRefs_groups (refs : GroupRefs) : (w.setRefs guid refs).groups = w.groups := rfl

@[simp] theorem setGroupInvite_refs (invite : Option GroupId) (p : UInt64) :
    (w.setGroupInvite guid invite).refs p =
      if p = guid then { w.refs guid with groupInvite := invite } else w.refs p :=
  Function.update_apply ..

@[simp] theorem setGroupInvite_groups (invite : Option GroupId) :
    (w.setGroupInvite guid invite).groups = w.groups := rfl

@[simp] theorem setGroup_groups (gid' : GroupId) :
    (w.setGroup gid g).groups gid' = if gid' = gid then some g else w.groups gid' :=
  Function.update_apply ..

@[simp] theorem setGroup_refs : (w.setGroup gid g).refs = w.refs := rfl

@[simp] theorem deleteGroup_groups (gid' : GroupId) :
    (w.deleteGroup gid).groups gid' = if gid' = gid then none else w.groups gid' :=
  Function.update_apply ..

theorem Inv.below (inv : w.Inv) (found : w.groups gid = some g) : gid < w.next := by
  by_contra above
  rw [inv.fresh gid (Nat.not_lt.mp above)] at found
  cases found

variable {w' : Parties}

theorem Inv.replaced (inv : w.Inv) {made : Option Group}
    (online : w'.online = w.online) (next : w.next ≤ w'.next)
    (groups : ∀ gid', w'.groups gid' = if gid' = gid then made else w.groups gid')
    (fits : ∀ h, made = some h → gid < w'.next ∧ h.guids.Nodup ∧
      (∀ p ∈ h.guids, p ∈ w.online) ∧ h.Ordinary)
    (here : ∀ p ∈ w.online, (w'.refs p).group = some gid ↔ ∃ h, made = some h ∧ p ∈ h.guids)
    (there : ∀ p ∈ w.online, ∀ gid', gid' ≠ gid →
      ((w'.refs p).group = some gid' ↔ (w.refs p).group = some gid'))
    (single : ∀ p ∈ w.online, (w'.refs p).originalGroup = none)
    (uninvited : ∀ p ∈ w.online, (w'.refs p).group ≠ none → (w'.refs p).groupInvite = none) :
    w'.Inv := by
  have origin : ∀ gid' h, w'.groups gid' = some h → made = some h ∨ w.groups gid' = some h := by
    intro gid' h found
    rw [groups] at found
    split at found
    · exact Or.inl found
    · exact Or.inr found
  constructor
  · intro gid' above
    rw [groups]
    split
    · rename_i same
      rw [same] at above
      cases isMade : made with
      | none => rfl
      | some h => exact absurd (fits h isMade).1 (Nat.not_lt.mpr above)
    · exact inv.fresh gid' (Nat.le_trans next above)
  · intro gid' h found
    rcases origin gid' h found with isMade | old
    · exact (fits h isMade).2.1
    · exact inv.nodup gid' h old
  · intro gid' h found
    rw [online]
    rcases origin gid' h found with isMade | old
    · exact (fits h isMade).2.2.1
    · exact inv.online gid' h old
  · intro gid' h found
    rcases origin gid' h found with isMade | old
    · exact (fits h isMade).2.2.2
    · exact inv.ordinary gid' h old
  · intro p isOnline gid'
    rw [online] at isOnline
    rw [groups]
    split
    · rename_i same
      rw [same]
      exact here p isOnline
    · rename_i other
      exact (there p isOnline gid' other).trans (inv.member p isOnline gid')
  · rw [online]
    exact single
  · rw [online]
    exact uninvited

variable {g' : Group}

theorem Inv.setGroup (inv : w.Inv) (found : w.groups gid = some g)
    (same : g'.guids = g.guids) (ordinary : g'.Ordinary) : (w.setGroup gid g').Inv := by
  refine inv.replaced rfl (Nat.le_refl _) setGroup_groups (fun h isMade => ?_)
    (fun p online => ?_) (fun _ _ _ _ => Iff.rfl) inv.single inv.uninvited
  · cases isMade
    rw [same]
    exact ⟨inv.below found, inv.nodup gid g found, inv.online gid g found, ordinary⟩
  · rw [setGroup_refs, inv.member p online gid, found]
    simp [same]

theorem Inv.setGroupInvite (inv : w.Inv) (guid : UInt64) {invite : Option GroupId}
    (allowed : invite = none ∨ (w.refs guid).group = none) :
    (w.setGroupInvite guid invite).Inv where
  fresh := inv.fresh
  nodup := inv.nodup
  online := inv.online
  ordinary := inv.ordinary
  member := by
    intro p online gid'
    rw [setGroupInvite_groups, ← inv.member p online gid', setGroupInvite_refs]
    split
    · rename_i here
      rw [here]
    · exact Iff.rfl
  single := by
    intro p online
    rw [setGroupInvite_refs]
    split
    · rename_i here
      subst here
      exact inv.single p online
    · exact inv.single p online
  uninvited := by
    intro p online grouped
    rw [setGroupInvite_refs] at grouped ⊢
    split
    · rename_i here
      subst here
      rw [if_pos rfl] at grouped
      exact allowed.resolve_right grouped
    · rename_i other
      rw [if_neg other] at grouped
      exact inv.uninvited p online grouped

theorem Inv.deleteEmpty (inv : w.Inv) (empty : ∀ g, w.groups gid = some g → g.guids = []) :
    (w.deleteGroup gid).Inv := by
  refine inv.replaced rfl (Nat.le_refl _) deleteGroup_groups (fun h isMade => by cases isMade)
    (fun p online => (inv.member p online gid).trans ?_) (fun _ _ _ _ => Iff.rfl) inv.single
    inv.uninvited
  constructor
  · rintro ⟨h, found, inGroup⟩
    rw [empty h found] at inGroup
    cases inGroup
  · rintro ⟨h, isMade, -⟩
    cases isMade

theorem removeInvite_eq (found : w.groups gid = some g) (guid : UInt64) :
    w.removeInvite gid guid = some (w.withoutInvite gid g guid) := by
  rw [removeInvite, found]
  rfl

theorem withoutInvite_groups (guid : UInt64) :
    (w.withoutInvite gid g guid).groups gid =
      some { g with invitees := g.invitees.filter (· ≠ guid) } := by
  rw [withoutInvite, setGroupInvite_groups, setGroup_groups, if_pos rfl]

theorem withoutInvite_group (guid p : UInt64) :
    ((w.withoutInvite gid g guid).refs p).group = (w.refs p).group := by
  rw [withoutInvite, setGroupInvite_refs]
  split
  · rename_i here
    rw [here]
    rfl
  · rfl

theorem Inv.setInvitees (inv : w.Inv) (found : w.groups gid = some g) (invitees : List UInt64) :
    (w.setGroup gid { g with invitees }).Inv :=
  have ordinary := inv.ordinary gid g found
  inv.setGroup found rfl ⟨ordinary.bg, ordinary.bf, ordinary.party⟩

theorem Inv.withoutInvite (inv : w.Inv) (found : w.groups gid = some g) (guid : UInt64) :
    (w.withoutInvite gid g guid).Inv :=
  (inv.setInvitees found _).setGroupInvite guid (Or.inl rfl)

theorem uninviteAll_spec (guids : List UInt64) (w : Parties) :
    ∃ w', guids.foldl (fun w guid => w.setGroupInvite guid none) w = w' ∧
      w'.online = w.online ∧ w'.next = w.next ∧ w'.groups = w.groups ∧
      ∀ p, w'.refs p = w.refs p ∨ w'.refs p = { w.refs p with groupInvite := none } := by
  refine ⟨_, rfl, foldlRecOn (motive := fun w' : Parties => w'.online = w.online ∧ w'.next = w.next ∧
      w'.groups = w.groups ∧
      ∀ p, w'.refs p = w.refs p ∨ w'.refs p = { w.refs p with groupInvite := none })
    guids _ ⟨rfl, rfl, rfl, fun _ => Or.inl rfl⟩ fun w' same guid _ => ?_⟩
  obtain ⟨online, next, groups, refs⟩ := same
  refine ⟨online, next, groups, fun p => ?_⟩
  rw [setGroupInvite_refs]
  split
  · rename_i here
    rw [← here]
    rcases refs p with same | gone
    · exact Or.inr (by rw [same])
    · exact Or.inr (by rw [gone])
  · exact refs p

theorem Inv.of_uninvited (inv : w.Inv) (online : w'.online = w.online)
    (next : w'.next = w.next) (groups : w'.groups = w.groups)
    (refs : ∀ p, w'.refs p = w.refs p ∨ w'.refs p = { w.refs p with groupInvite := none }) :
    w'.Inv where
  fresh := by
    rw [next, groups]
    exact inv.fresh
  nodup := by
    rw [groups]
    exact inv.nodup
  online := by
    rw [groups, online]
    exact inv.online
  ordinary := by
    rw [groups]
    exact inv.ordinary
  member := by
    intro p isOnline gid
    rw [groups, ← inv.member p (online ▸ isOnline) gid]
    rcases refs p with same | gone
    · rw [same]
    · rw [gone]
  single := by
    intro p isOnline
    rcases refs p with same | gone
    · rw [same]
      exact inv.single p (online ▸ isOnline)
    · rw [gone]
      exact inv.single p (online ▸ isOnline)
  uninvited := by
    intro p isOnline grouped
    rcases refs p with same | gone
    · rw [same] at grouped ⊢
      exact inv.uninvited p (online ▸ isOnline) grouped
    · rw [gone]

theorem Inv.removeAllInvites (inv : w.Inv) (found : w.groups gid = some g) :
    ∃ w', w.removeAllInvites gid = some w' ∧ w'.Inv ∧
      w'.groups gid = some { g with invitees := [] } := by
  obtain ⟨w', result, online, next, groups, refs⟩ := uninviteAll_spec g.invitees w
  have kept := inv.of_uninvited online next groups refs
  have found' : w'.groups gid = some g := by rw [groups, found]
  refine ⟨w'.setGroup gid { g with invitees := [] }, ?_, kept.setInvitees found' [], ?_⟩
  · rw [Parties.removeAllInvites, found]
    simp only [bind_eq_bind, bind_some, result]
  · rw [setGroup_groups, if_pos rfl]

variable {p : UInt64}

theorem Inv.partyOf (inv : w.Inv) (battle : Group → Bool) (online : p ∈ w.online)
    (never : ∀ gid g, w.groups gid = some g → battle g = false) :
    w.partyOf battle p = some (w.refs p).group := by
  rw [Parties.partyOf]
  cases grouped : (w.refs p).group with
  | none => rfl
  | some gid =>
    obtain ⟨g, found, -⟩ := (inv.member p online gid).mp grouped
    simp [found, never gid g found]

theorem Inv.addInvite (inv : w.Inv) (found : w.groups gid = some g) (online : p ∈ w.online) :
    ∃ w' invited, w.addInvite gid p = some (w', invited) ∧ w'.Inv ∧ w'.online = w.online ∧
      ∃ g', w'.groups gid = some g' ∧ g'.guids = g.guids ∧ g'.Ordinary := by
  have ordinary := inv.ordinary gid g found
  rw [Parties.addInvite]
  split
  · exact ⟨w, false, rfl, inv, rfl, g, found, rfl, ordinary⟩
  have party := inv.partyOf (fun g => g.isBGGroup || g.isBFGroup) online fun gid g found => by
    have ordinary := inv.ordinary gid g found
    rw [ordinary.bg, ordinary.bf]
    rfl
  rw [party]
  cases grouped : (w.refs p).group with
  | some other => exact ⟨w, false, rfl, inv, rfl, g, found, rfl, ordinary⟩
  | none =>
    have free : ((w.withoutInvite gid g p).refs p).group = none := by
      rw [withoutInvite_group]
      exact grouped
    rw [removeInvite_eq found]
    simp only [bind_eq_bind, bind_some, withoutInvite_groups, isSome_none,
      Bool.false_eq_true, if_false]
    refine ⟨_, true, rfl, ?_, rfl, { g with invitees := p :: g.invitees.filter (· ≠ p) }, ?_, rfl,
      ⟨ordinary.bg, ordinary.bf, ordinary.party⟩⟩
    · exact ((inv.withoutInvite found p).setInvitees (withoutInvite_groups p) _).setGroupInvite p
        (Or.inr free)
    · rw [setGroupInvite_groups, setGroup_groups, if_pos rfl]

theorem Inv.addLeaderInvite (inv : w.Inv) (found : w.groups gid = some g) (online : p ∈ w.online) :
    ∃ w' invited, w.addLeaderInvite gid p = some (w', invited) ∧ w'.Inv ∧ w'.online = w.online ∧
      ∃ g', w'.groups gid = some g' ∧ g'.guids = g.guids ∧ g'.Ordinary := by
  obtain ⟨w', invited, added, inv', online', g', found', members, ordinary⟩ :=
    inv.addInvite found online
  rw [Parties.addLeaderInvite, added]
  simp only [bind_eq_bind, bind_some, found']
  split
  · refine ⟨_, true, rfl, ?_, online', { g' with leaderGuid := p }, ?_, members,
      ⟨ordinary.bg, ordinary.bf, ordinary.party⟩⟩
    · exact inv'.setGroup found' rfl ⟨ordinary.bg, ordinary.bf, ordinary.party⟩
    · rw [setGroup_groups, if_pos rfl]
  · exact ⟨w', false, rfl, inv', online', g', found', members, ordinary⟩

theorem Inv.newGroup (inv : w.Inv) :
    ({ w.setGroup w.next (Group.new false false) with next := w.next + 1 } : Parties).Inv := by
  refine inv.replaced rfl (Nat.le_succ _) setGroup_groups (fun h isMade => ?_)
    (fun p online => (inv.member p online w.next).trans ?_) (fun _ _ _ _ => Iff.rfl) inv.single
    inv.uninvited
  · cases isMade
    exact ⟨Nat.lt_succ_self _, nodup_nil, fun _ inGroup => absurd inGroup not_mem_nil,
      Group.ordinary_new⟩
  rw [inv.fresh w.next (Nat.le_refl _)]
  constructor
  · rintro ⟨h, found, -⟩
    cases found
  · rintro ⟨h, isMade, inGroup⟩
    cases isMade
    cases inGroup

theorem Inv.linkMember (inv : w.Inv) (found : w.groups gid = some g)
    (members : g'.guids = g.guids ++ [p]) (ordinary : g'.Ordinary) (online : p ∈ w.online)
    (free : (w.refs p).group = none) :
    (((w.setGroup gid g').setGroupInvite p none).linkMember gid g' p).Inv := by
  have absent : p ∉ g.guids := by
    intro inGroup
    have := (inv.member p online gid).mpr ⟨g, found, inGroup⟩
    rw [free] at this
    cases this
  have refs : ∀ q, (((w.setGroup gid g').setGroupInvite p none).linkMember gid g' p).refs q =
      if q = p then ⟨some gid, (w.refs p).originalGroup, none⟩ else w.refs q := by
    intro q
    rw [Parties.linkMember, setRefs_refs]
    by_cases here : q = p
    · subst here
      simp [free]
    · simp [here]
  refine inv.replaced rfl (Nat.le_refl _) setGroup_groups (fun h isMade => ?_)
    (fun q online' => ?_) (fun q _ gid' other => ?_) (fun q online' => ?_)
    (fun q online' grouped => ?_)
  · cases isMade
    refine ⟨inv.below found, ?_, fun q inGroup => ?_, ordinary⟩
    · rw [members, nodup_append]
      refine ⟨inv.nodup gid g found, by simp, ?_⟩
      rintro q inGroup r isNew rfl
      exact absent (List.mem_singleton.mp isNew ▸ inGroup)
    · rw [members] at inGroup
      rcases List.mem_append.mp inGroup with old | new
      · exact inv.online gid g found q old
      · rw [List.mem_singleton.mp new]
        exact online
  · rw [refs]
    split
    · rename_i isNew
      simp [members, isNew]
    · rename_i isOld
      rw [inv.member q online' gid, found]
      simp [members, isOld]
  · rw [refs]
    split
    · rename_i isNew
      rw [isNew, free]
      simp [other.symm]
    · exact Iff.rfl
  · rw [refs]
    split
    · exact inv.single p online
    · exact inv.single q online'
  · rw [refs] at grouped ⊢
    split
    · rfl
    · rename_i other
      rw [if_neg other] at grouped
      exact inv.uninvited q online' grouped

theorem ordinary_pushSlot (ordinary : g.Ordinary) (guid : UInt64) (subGroup : Nat) :
    (g.pushSlot guid subGroup).Ordinary where
  bg := ordinary.bg
  bf := ordinary.bf
  party := by
    intro empty
    rw [Group.guids_pushSlot] at empty
    simp at empty

theorem addMember_spec (found : w.groups gid = some g) (p : UInt64) :
    w.addMember gid p = some (w, false) ∨
      ∃ subGroup, g.nextSubGroup? = some subGroup ∧
        w.addMember gid p = some (((w.setGroup gid (g.pushSlot p subGroup)).setGroupInvite p
          none).linkMember gid (g.pushSlot p subGroup) p, true) := by
  rw [addMember, found]
  simp only [bind_eq_bind, bind_some]
  rw [Group.addMember]
  cases next : g.nextSubGroup? with
  | none => exact Or.inl rfl
  | some subGroup => exact Or.inr ⟨subGroup, rfl, rfl⟩

theorem addMember_other (found : w.groups gid = some g) {q : UInt64} (other : q ≠ p) :
    ∃ w' added, w.addMember gid p = some (w', added) ∧ w'.refs q = w.refs q ∧
      w'.online = w.online := by
  rcases addMember_spec found p with full | ⟨subGroup, -, added⟩
  · exact ⟨w, false, full, rfl, rfl⟩
  · refine ⟨_, true, added, ?_, rfl⟩
    rw [Parties.linkMember, setRefs_refs, if_neg other, setGroupInvite_refs, if_neg other,
      setGroup_refs]

theorem Inv.addMember (inv : w.Inv) (found : w.groups gid = some g)
    (online : p ∈ w.online) (free : (w.refs p).group = none) :
    ∃ w' added, w.addMember gid p = some (w', added) ∧ w'.Inv := by
  rcases addMember_spec found p with full | ⟨subGroup, -, added⟩
  · exact ⟨w, false, full, inv⟩
  · exact ⟨_, true, added, inv.linkMember found (Group.guids_pushSlot p subGroup)
      (ordinary_pushSlot (inv.ordinary gid g found) p subGroup) online free⟩

theorem setGroup_setGroup (h : Group) : (w.setGroup gid h).setGroup gid g = w.setGroup gid g := by
  rw [Parties.setGroup, Parties.setGroup, Parties.setGroup]
  simp only [Function.update_idem]

theorem start_of_empty (ordinary : g.Ordinary) (empty : g.guids = []) (leader : UInt64) :
    g.start leader = { g with leaderGuid := leader } := by
  obtain ⟨normal, -⟩ := ordinary.party empty
  have type : g.createdType = g.groupType := by
    rw [Group.createdType, ordinary.bg, ordinary.bf]
    rfl
  rw [Group.start, type]
  refine if_neg ?_
  simp [Group.isRaidGroup, normal, groupTypeNormal]

theorem create_spec (found : w.groups gid = some g) (ordinary : g.Ordinary)
    (empty : g.guids = []) (leader : UInt64) :
    ∃ g', g'.guids = g.guids ++ [leader] ∧ g'.Ordinary ∧ w.create gid leader =
      some (((w.setGroup gid g').setGroupInvite leader none).linkMember gid g' leader) := by
  have started := start_of_empty ordinary empty leader
  have ordinary' : (g.start leader).Ordinary := by
    rw [started]
    exact ⟨ordinary.bg, ordinary.bf, ordinary.party⟩
  have next : (g.start leader).nextSubGroup? = some 0 := by
    rw [started, Group.nextSubGroup?, (ordinary.party empty).2]
  have found' : (w.setGroup gid (g.start leader)).groups gid = some (g.start leader) := by
    rw [setGroup_groups, if_pos rfl]
  refine ⟨(g.start leader).pushSlot leader 0, ?_, ordinary_pushSlot ordinary' leader 0, ?_⟩
  · rw [Group.guids_pushSlot, Group.guids_start]
  rw [create, found]
  simp only [bind_eq_bind, bind_some]
  rcases addMember_spec found' leader with full | ⟨subGroup, isNext, added⟩
  · rw [Parties.addMember, found'] at full
    simp [Group.addMember, next] at full
  · rw [next] at isNext
    cases isNext
    rw [added, setGroup_setGroup]
    rfl

theorem unlinkAll_spec (gid : GroupId) (ordinary : g.Ordinary) (slots : List MemberSlot) :
    ∀ w : Parties, (∀ p ∈ w.online, (w.refs p).originalGroup = none) →
      ∃ w', slots.foldl (fun w slot =>
          if w.isOnline slot.guid then w.unlinkMember gid g slot.guid else w) w = w' ∧
        w'.online = w.online ∧ w'.next = w.next ∧ w'.groups = w.groups ∧
        ∀ p ∈ w.online, w'.refs p =
          if p ∈ slots.map (·.guid) then { w.refs p with group := none } else w.refs p := by
  induction slots with
  | nil => exact fun w _ => ⟨w, rfl, rfl, rfl, rfl, fun p _ => by simp⟩
  | cons slot rest ih =>
    intro w single
    rw [foldl_cons]
    by_cases online : w.isOnline slot.guid
    · have here := single slot.guid (isOnline_iff.mp online)
      have refs : ∀ p, (w.unlinkMember gid g slot.guid).refs p =
          if p = slot.guid then { w.refs p with group := none } else w.refs p := by
        intro p
        rw [unlinkMember, setRefs_refs]
        by_cases same : p = slot.guid
        · subst same
          simp [ordinary.bg, ordinary.bf, here]
        · rw [if_neg same, if_neg same]
      obtain ⟨w', result, online', next', groups', refs'⟩ :=
        ih (w.unlinkMember gid g slot.guid) fun p member => by
          rw [refs]
          split
          · exact single p member
          · exact single p member
      rw [if_pos online]
      refine ⟨w', result, online', next', groups', fun p member => ?_⟩
      rw [refs' p member, refs, map_cons]
      by_cases same : p = slot.guid
      · simp [same]
      · simp [same]
    · rw [if_neg online]
      obtain ⟨w', result, online', next', groups', refs'⟩ := ih w single
      refine ⟨w', result, online', next', groups', fun p member => ?_⟩
      have apart : p ≠ slot.guid := by
        rintro rfl
        exact online (isOnline_iff.mpr member)
      rw [refs' p member, map_cons]
      simp [apart]

theorem Inv.dissolve (inv : w.Inv) (found : w.groups gid = some g)
    (online : w'.online = w.online) (next : w'.next = w.next)
    (groups : ∀ gid', w'.groups gid' = if gid' = gid then none else w.groups gid')
    (refs : ∀ p ∈ w.online, w'.refs p =
      if p ∈ g.guids then { w.refs p with group := none } else w.refs p) : w'.Inv := by
  refine inv.replaced online (Nat.le_of_eq next.symm) groups (fun h isMade => by cases isMade)
    (fun p isOnline => ?_) (fun p isOnline gid' other => ?_) (fun p isOnline => ?_)
    (fun p isOnline grouped => ?_)
  · have member := inv.member p isOnline gid
    rw [found] at member
    rw [refs p isOnline]
    split
    · simp
    · rename_i outside
      rw [member]
      simp [outside]
  · rw [refs p isOnline]
    split
    · rename_i inGroup
      rw [(inv.member p isOnline gid).mpr ⟨g, found, inGroup⟩]
      simp [other.symm]
    · exact Iff.rfl
  · rw [refs p isOnline]
    split
    · exact inv.single p isOnline
    · exact inv.single p isOnline
  · rw [refs p isOnline] at grouped ⊢
    split
    · rename_i inGroup
      rw [if_pos inGroup] at grouped
      exact absurd rfl grouped
    · rename_i outside
      rw [if_neg outside] at grouped
      exact inv.uninvited p isOnline grouped

theorem Inv.disband (inv : w.Inv) (found : w.groups gid = some g) :
    ∃ w', w.disband gid = some w' ∧ w'.Inv := by
  obtain ⟨w₁, unlinked, online₁, next₁, groups₁, refs₁⟩ :=
    unlinkAll_spec gid (inv.ordinary gid g found) g.memberSlots w inv.single
  obtain ⟨w₂, uninvited, online₂, next₂, groups₂, refs₂⟩ :=
    uninviteAll_spec g.invitees (w₁.setGroup gid { g with memberSlots := [] })
  have left : (w₁.deleteGroup gid).Inv := by
    refine inv.dissolve found online₁ next₁ (fun gid' => ?_) refs₁
    rw [deleteGroup_groups, groups₁]
  refine ⟨(w₂.setGroup gid { g with memberSlots := [], invitees := [] }).deleteGroup gid, ?_,
    left.of_uninvited online₂ next₂ ?_ refs₂⟩
  · rw [Parties.disband, found]
    simp only [bind_eq_bind, bind_some, unlinked]
    rw [Parties.removeAllInvites, setGroup_groups, if_pos rfl]
    simp only [bind_eq_bind, bind_some, uninvited]
  · funext gid'
    rw [deleteGroup_groups, deleteGroup_groups, setGroup_groups, groups₂, setGroup_groups]
    split
    · rfl
    · rfl

theorem Inv.unslot (inv : w.Inv) (found : w.groups gid = some g)
    (inGroup : p ∈ g.guids) (members : g'.guids = g.guids.erase p)
    (ordinary : g'.Ordinary) (online : w'.online = w.online) (next : w'.next = w.next)
    (groups : ∀ gid', w'.groups gid' = if gid' = gid then some g' else w.groups gid')
    (refs : ∀ q, w'.refs q = if q = p then { w.refs q with group := none } else w.refs q) :
    w'.Inv := by
  have nodup := inv.nodup gid g found
  have mem : ∀ q, q ∈ g'.guids ↔ q ≠ p ∧ q ∈ g.guids := by
    intro q
    rw [members, nodup.mem_erase_iff]
  refine inv.replaced online (Nat.le_of_eq next.symm) groups (fun h isMade => ?_)
    (fun q isOnline => ?_) (fun q isOnline gid' other => ?_) (fun q isOnline => ?_)
    (fun q isOnline grouped => ?_)
  · cases isMade
    refine ⟨next ▸ inv.below found, ?_, fun q inGroup' => ?_, ordinary⟩
    · rw [members]
      exact nodup.erase p
    · exact inv.online gid g found q ((mem q).mp inGroup').2
  · rw [refs]
    split
    · rename_i left
      simp [mem, left]
    · rename_i stays
      rw [inv.member q isOnline gid, found]
      simp [mem, stays]
  · rw [refs]
    split
    · rename_i left
      rw [left, (inv.member p (left ▸ isOnline) gid).mpr ⟨g, found, inGroup⟩]
      simp [other.symm]
    · exact Iff.rfl
  · rw [refs]
    split
    · exact inv.single q isOnline
    · exact inv.single q isOnline
  · rw [refs] at grouped ⊢
    split
    · rename_i left
      rw [if_pos left] at grouped
      exact absurd rfl grouped
    · rename_i other
      rw [if_neg other] at grouped
      exact inv.uninvited q isOnline grouped

theorem Inv.releaseMember (inv : w.Inv) (gid : GroupId) (ordinary : g.Ordinary)
    (online : p ∈ w.online) :
    ∃ w', w.releaseMember gid g p = w' ∧ w'.online = w.online ∧ w'.next = w.next ∧
      w'.groups = w.groups ∧
      ∀ q, w'.refs q = if q = p then { w.refs q with group := none } else w.refs q := by
  have single := inv.single p online
  rw [Parties.releaseMember, if_pos (isOnline_iff.mpr online), ordinary.bg, ordinary.bf]
  refine ⟨_, rfl, rfl, rfl, rfl, fun q => ?_⟩
  rw [Bool.or_self, if_neg Bool.false_ne_true, delinkMember, setRefs_refs]
  by_cases left : q = p
  · subst left
    simp [unlinkMember, ordinary.bg, ordinary.bf, single]
  · rw [if_neg left, if_neg left, unlinkMember, setRefs_refs, if_neg left]

theorem Inv.removeMember (inv : w.Inv) (found : w.groups gid = some g)
    (inGroup : p ∈ g.guids) (kick leaderAway : Bool) :
    ∃ w', w.removeMember gid p kick leaderAway = some w' ∧ w'.Inv := by
  have ordinary := inv.ordinary gid g found
  have online := inv.online gid g found p inGroup
  rw [Parties.removeMember, found]
  simp only [bind_eq_bind, bind_some]
  split
  · exact ⟨w, rfl, inv⟩
  split
  · rename_i large
    obtain ⟨w₁, released, online₁, next₁, groups₁, refs₁⟩ :=
      inv.releaseMember gid ordinary online
    rw [released]
    have members := Group.guids_without (g := g) w₁.isOnline p
    obtain ⟨bg, bf⟩ := Group.battle_without (g := g) w₁.isOnline p
    have ordinary₁ : (g.without w₁.isOnline p).Ordinary := by
      refine ⟨bg.trans ordinary.bg, bf.trans ordinary.bf, fun empty => ?_⟩
      have length := length_erase_of_mem inGroup
      rw [← members, empty, length_nil] at length
      rw [Group.getMembersCount_eq, Group.disbandsAt] at large
      split at large
      · omega
      · omega
    have left : (w₁.setGroup gid (g.without w₁.isOnline p)).Inv := by
      refine inv.unslot found inGroup members ordinary₁ online₁ next₁ (fun gid' => ?_) refs₁
      rw [setGroup_groups, groups₁]
    split
    · exact left.disband (by rw [setGroup_groups, if_pos rfl])
    · exact ⟨_, rfl, left⟩
  · exact inv.disband found

theorem Inv.uninviteFromGroup (inv : w.Inv)
    (valid : ∀ gid, (w.refs p).groupInvite = some gid → w.groups gid ≠ none) :
    ∃ w', w.uninviteFromGroup p = some w' ∧ w'.Inv := by
  rw [Parties.uninviteFromGroup]
  rcases invited : (w.refs p).groupInvite with _ | gid
  · exact ⟨w, rfl, inv⟩
  obtain ⟨g, found⟩ := Option.ne_none_iff_exists'.mp (valid gid invited)
  have kept := inv.withoutInvite found p
  dsimp only
  rw [removeInvite_eq found]
  simp only [bind_eq_bind, bind_some, withoutInvite_groups]
  split
  · split
    · exact kept.disband (withoutInvite_groups p)
    rename_i empty
    obtain ⟨w', removed, inv', found'⟩ := kept.removeAllInvites (withoutInvite_groups p)
    rw [removed]
    refine ⟨_, rfl, inv'.deleteEmpty fun h isGroup => ?_⟩
    rw [found'] at isGroup
    cases isGroup
    by_contra some
    exact empty (Group.isCreated_iff.mpr some)
  · exact ⟨_, rfl, kept⟩

theorem Inv.handleGroupInvite (inv : w.Inv) {inviter guid : UInt64} (online : inviter ∈ w.online)
    (allowed : Bool) : ∃ w', w.handleGroupInvite inviter guid allowed = some w' ∧ w'.Inv := by
  have notBG : ∀ gid g, w.groups gid = some g → g.isBGGroup = false :=
    fun gid g found => (inv.ordinary gid g found).bg
  rw [Parties.handleGroupInvite]
  split
  · exact ⟨w, rfl, inv⟩
  rename_i accepted
  have online' : guid ∈ w.online := by
    rw [← isOnline_iff]
    by_contra offline
    exact accepted (by simp [offline])
  rw [inv.partyOf Group.isBGGroup online notBG, inv.partyOf Group.isBGGroup online' notBG]
  simp only [bind_eq_bind, bind_some]
  split
  · exact ⟨w, rfl, inv⟩
  cases grouped : (w.refs inviter).group with
  | some gid =>
    obtain ⟨g, found, -⟩ := (inv.member inviter online gid).mp grouped
    simp only [found, bind_some]
    split
    · exact ⟨w, rfl, inv⟩
    split
    · exact ⟨w, rfl, inv⟩
    · obtain ⟨w', invited, added, inv', -⟩ := inv.addInvite found online'
      rw [added]
      exact ⟨w', rfl, inv'⟩
  | none =>
    have made := inv.newGroup
    have isNew : ({ w.setGroup w.next (Group.new false false) with next := w.next + 1 } :
        Parties).groups w.next = some (Group.new false false) := if_pos rfl
    obtain ⟨w₁, leads, invited₁, inv₁, online₁, g₁, found₁, members₁, -⟩ :=
      made.addLeaderInvite isNew online
    have empty₁ : ∀ h, w₁.groups w.next = some h → h.guids = [] := by
      intro h isGroup
      rw [found₁] at isGroup
      cases isGroup
      exact members₁
    simp only [invited₁, bind_some]
    split
    · obtain ⟨w₂, added, invited₂, inv₂, online₂, g₂, found₂, members₂, -⟩ :=
        inv₁.addInvite found₁ (online₁ ▸ online')
      simp only [invited₂, bind_some]
      split
      · exact ⟨w₂, rfl, inv₂⟩
      refine ⟨_, rfl, inv₂.deleteEmpty fun h isGroup => ?_⟩
      rw [found₂] at isGroup
      cases isGroup
      exact members₂.trans members₁
    · exact ⟨_, rfl, inv₁.deleteEmpty empty₁⟩

/-- The player's invitation, if there is one, is to a group that still exists. -/
def InvitedToGroup (w : Parties) (guid : UInt64) : Prop :=
  ∀ gid, (w.refs guid).groupInvite = some gid → w.groups gid ≠ none

/-- A player who accepts into a group yet to be created finds its leader in no group. -/
def LeaderFree (w : Parties) (guid : UInt64) : Prop :=
  ∀ gid g, (w.refs guid).groupInvite = some gid → w.groups gid = some g →
    g.leaderGuid ≠ guid → g.isCreated = false → w.isOnline g.leaderGuid →
    (w.refs g.leaderGuid).group = none

theorem Inv.formGroup (inv : w.Inv) (found : w.groups gid = some g) (uncreated : g.isCreated = false)
    {leader : UInt64} (online : leader ∈ w.online) :
    ∃ w', w.formGroup gid leader = some w' ∧ w'.online = w.online ∧
      (∀ q, q ≠ leader → w'.refs q = w.refs q) ∧ (∃ g', w'.groups gid = some g') ∧
      ((w.refs leader).group = none → w'.Inv) ∧
      ((w.refs leader).group ≠ none → (w'.refs leader).group = (w.refs leader).group ∧
        (w'.refs leader).originalGroup = some gid) := by
  have empty : g.guids = [] := by
    by_contra some
    rw [Group.isCreated_iff.mpr some] at uncreated
    cases uncreated
  have kept := inv.withoutInvite found leader
  have found' : (w.withoutInvite gid g leader).groups gid = _ := withoutInvite_groups leader
  have same : ((w.withoutInvite gid g leader).refs leader).group = (w.refs leader).group :=
    withoutInvite_group leader leader
  obtain ⟨g', members, ordinary, created⟩ :=
    create_spec found' (kept.ordinary gid _ found') empty leader
  refine ⟨(((w.withoutInvite gid g leader).setGroup gid g').setGroupInvite leader
    none).linkMember gid g' leader, ?_, rfl, fun q other => ?_, ⟨g', ?_⟩, fun free => ?_,
    fun grouped => ?_⟩
  · rw [Parties.formGroup, removeInvite_eq found]
    exact created
  · rw [Parties.linkMember, setRefs_refs, if_neg other, setGroupInvite_refs, if_neg other,
      setGroup_refs, Parties.withoutInvite, setGroupInvite_refs, if_neg other, setGroup_refs]
  · rw [Parties.linkMember, setRefs_groups, setGroupInvite_groups, setGroup_groups, if_pos rfl]
  · exact kept.linkMember found' members ordinary online (same.trans free)
  · rw [Parties.linkMember, setRefs_refs, if_pos rfl, setGroupInvite_refs, if_pos rfl,
      setGroup_refs]
    simp only [same, ordinary.bg, ordinary.bf, Bool.or_self, Bool.false_eq_true, if_false]
    rw [if_pos (Option.isSome_iff_ne_none.mpr grouped)]
    exact ⟨rfl, rfl⟩

theorem Inv.handleGroupInviteResponse (inv : w.Inv) (online : guid ∈ w.online) {accept : Bool}
    (valid : w.InvitedToGroup guid) (free : accept → w.LeaderFree guid) :
    ∃ w', w.handleGroupInviteResponse guid accept = some w' ∧ w'.Inv := by
  rw [Parties.handleGroupInviteResponse]
  rcases invited : (w.refs guid).groupInvite with _ | gid
  · exact ⟨w, rfl, inv⟩
  obtain ⟨g, found⟩ := Option.ne_none_iff_exists'.mp (valid gid invited)
  have kept := inv.withoutInvite found guid
  have alone : (w.refs guid).group = none := by
    by_contra grouped
    rw [inv.uninvited guid online grouped] at invited
    cases invited
  have alone' : ((w.withoutInvite gid g guid).refs guid).group = none := by
    rw [withoutInvite_group]
    exact alone
  dsimp only
  split
  · rename_i accepted
    rw [removeInvite_eq found]
    simp only [bind_eq_bind, bind_some, withoutInvite_groups]
    split
    · exact ⟨_, rfl, kept⟩
    rename_i notLeader
    split
    · exact ⟨_, rfl, kept⟩
    split
    · obtain ⟨w', added, joined, inv'⟩ :=
        kept.addMember (withoutInvite_groups guid) online alone'
      rw [joined]
      exact ⟨w', rfl, inv'⟩
    · rename_i uncreated
      split
      · rename_i leaderOnline
        have uncreated : g.isCreated = false := Bool.eq_false_iff.mpr uncreated
        have leaderFree := free accepted gid g invited found notLeader uncreated leaderOnline
        obtain ⟨w₁, formed, online₁, refs₁, ⟨g₁, found₁⟩, ifFree, -⟩ := kept.formGroup
          (withoutInvite_groups guid) uncreated (isOnline_iff.mp leaderOnline)
        have inv₁ := ifFree (by rw [withoutInvite_group]; exact leaderFree)
        have alone₁ : (w₁.refs guid).group = none := by
          rw [refs₁ guid (Ne.symm notLeader)]
          exact alone'
        obtain ⟨w₂, added, joined, inv₂⟩ := inv₁.addMember found₁ (online₁ ▸ online) alone₁
        simp only [formed, bind_some, joined]
        exact ⟨w₂, rfl, inv₂⟩
      · obtain ⟨w', removed, inv', -⟩ := kept.removeAllInvites (withoutInvite_groups guid)
        exact ⟨w', removed, inv'⟩
  · simp only [found, bind_eq_bind, bind_some]
    exact inv.uninviteFromGroup valid

/-- The packet would use the invitation of the player it kicks out. -/
def KicksInvited (w : Parties) (kicker guid : UInt64) (vote : Bool) : Prop :=
  guid ≠ kicker ∧ ∃ gid g, (w.refs kicker).group = some gid ∧ w.groups gid = some g ∧
    canUninvite g kicker vote ∧ ¬ g.isLeader guid ∧ ¬ g.isMember guid ∧ guid ∈ g.invitees

theorem Inv.handleGroupUninviteGuid (inv : w.Inv) {kicker : UInt64} (online : kicker ∈ w.online)
    {vote : Bool} (leaderAway : Bool)
    (valid : w.KicksInvited kicker guid vote → w.InvitedToGroup guid) :
    ∃ w', w.handleGroupUninviteGuid kicker guid vote leaderAway = some w' ∧ w'.Inv := by
  rw [Parties.handleGroupUninviteGuid]
  split
  · exact ⟨w, rfl, inv⟩
  rename_i other
  rcases grouped : (w.refs kicker).group with _ | gid
  · exact ⟨w, rfl, inv⟩
  obtain ⟨g, found, -⟩ := (inv.member kicker online gid).mp grouped
  simp only [found, bind_eq_bind, bind_some]
  split
  · exact ⟨w, rfl, inv⟩
  rename_i may
  split
  · exact ⟨w, rfl, inv⟩
  rename_i notLeader
  split
  · rename_i member
    exact inv.removeMember found (Group.isMember_iff.mp member) true leaderAway
  rename_i outside
  split
  · rename_i invited
    refine inv.uninviteFromGroup (valid ⟨other, gid, g, grouped, found, ?_, notLeader,
      outside, invited⟩)
    simpa using may
  · exact ⟨w, rfl, inv⟩

theorem Inv.setGroup_of_member (inv : w.Inv) (found : w.groups gid = some g)
    (inGroup : guid ∈ g.guids) (same : g'.guids = g.guids) (bg : g'.bgGroup = g.bgGroup)
    (bf : g'.bfGroup = g.bfGroup) : (w.setGroup gid g').Inv := by
  have ordinary := inv.ordinary gid g found
  refine inv.setGroup found same ⟨bg.trans ordinary.bg, bf.trans ordinary.bf, fun empty => ?_⟩
  rw [same] at empty
  rw [empty] at inGroup
  cases inGroup

theorem Inv.handleGroupSetLeader (inv : w.Inv) {leader : UInt64} (online : leader ∈ w.online)
    (guid : UInt64) : ∃ w', w.handleGroupSetLeader leader guid = some w' ∧ w'.Inv := by
  rw [Parties.handleGroupSetLeader]
  rcases grouped : (w.refs leader).group with _ | gid
  · exact ⟨w, rfl, inv⟩
  obtain ⟨g, found, inGroup⟩ := (inv.member leader online gid).mp grouped
  simp only [found, bind_eq_bind, bind_some]
  split
  · refine ⟨_, rfl, ?_⟩
    rcases Group.changeLeader_cases (g := g) w.isOnline guid with same | ⟨_, _, changed⟩
    · rw [same]
      exact inv.setGroup_of_member found inGroup rfl rfl rfl
    · have members := Group.guids_changeLeader (g := g) w.isOnline guid
      rw [changed] at members ⊢
      exact inv.setGroup_of_member found inGroup members rfl rfl
  · exact ⟨w, rfl, inv⟩

theorem Inv.handleGroupDisband (inv : w.Inv) (online : guid ∈ w.online) (leaderAway : Bool) :
    ∃ w', w.handleGroupDisband guid leaderAway = some w' ∧ w'.Inv := by
  rw [Parties.handleGroupDisband]
  cases grouped : (w.refs guid).group with
  | none => exact ⟨w, rfl, inv⟩
  | some gid =>
    obtain ⟨g, found, inGroup⟩ := (inv.member guid online gid).mp grouped
    exact inv.removeMember found inGroup false leaderAway

theorem Inv.disbandGroupOf (inv : w.Inv) (online : guid ∈ w.online) :
    ∃ w', w.disbandGroupOf guid = some w' ∧ w'.Inv := by
  rw [Parties.disbandGroupOf]
  cases grouped : (w.refs guid).group with
  | none => exact ⟨w, rfl, inv⟩
  | some gid =>
    obtain ⟨g, found, -⟩ := (inv.member guid online gid).mp grouped
    exact inv.disband found

theorem Inv.handleGroupRaidConvert (inv : w.Inv) (online : guid ∈ w.online) (toRaid : Bool) :
    ∃ w', w.handleGroupRaidConvert guid toRaid = some w' ∧ w'.Inv := by
  rw [Parties.handleGroupRaidConvert]
  rcases grouped : (w.refs guid).group with _ | gid
  · exact ⟨w, rfl, inv⟩
  obtain ⟨g, found, inGroup⟩ := (inv.member guid online gid).mp grouped
  simp only [found, bind_eq_bind, bind_some]
  split
  · exact ⟨w, rfl, inv⟩
  refine ⟨_, rfl, ?_⟩
  cases toRaid with
  | true => exact inv.setGroup_of_member found inGroup Group.guids_convertToRaid rfl rfl
  | false =>
    rcases Group.convertToGroup_cases (g := g) with same | converted
    · rw [same]
      exact inv.setGroup_of_member found inGroup rfl rfl rfl
    · rw [converted]
      exact inv.setGroup_of_member found inGroup rfl rfl rfl

theorem Inv.handleGroupAssistantLeader (inv : w.Inv) (online : guid ∈ w.online)
    (target : UInt64) (apply : Bool) :
    ∃ w', w.handleGroupAssistantLeader guid target apply = some w' ∧ w'.Inv := by
  rw [Parties.handleGroupAssistantLeader]
  rcases grouped : (w.refs guid).group with _ | gid
  · exact ⟨w, rfl, inv⟩
  obtain ⟨g, found, inGroup⟩ := (inv.member guid online gid).mp grouped
  simp only [found, bind_eq_bind, bind_some]
  split
  · refine ⟨_, rfl, ?_⟩
    have members := Group.guids_setGroupMemberFlag (g := g) target apply .assistant
    obtain ⟨_, changed⟩ := Group.setGroupMemberFlag_cases (g := g) target apply .assistant
    rw [changed] at members ⊢
    exact inv.setGroup_of_member found inGroup members rfl rfl
  · exact ⟨w, rfl, inv⟩

/-- A packet that keeps the law: it uses no invitation to a group that is gone, and forms
no group whose leader is in another one. -/
def Sound (w : Parties) : Event → Prop
  | .respond guid accept => w.InvitedToGroup guid ∧ (accept → w.LeaderFree guid)
  | .kick kicker guid vote _ => w.KicksInvited kicker guid vote → w.InvitedToGroup guid
  | _ => True

theorem Inv.handle (inv : w.Inv) {event : Event} (online : event.sender ∈ w.online)
    (sound : w.Sound event) : ∃ w', w.handle event = some w' ∧ w'.Inv := by
  cases event with
  | invite inviter guid allowed => exact inv.handleGroupInvite online allowed
  | respond guid accept => exact inv.handleGroupInviteResponse online sound.1 sound.2
  | kick kicker guid vote leaderAway => exact inv.handleGroupUninviteGuid online leaderAway sound
  | leave guid leaderAway => exact inv.handleGroupDisband online leaderAway
  | setLeader leader guid => exact inv.handleGroupSetLeader online guid
  | raidConvert guid toRaid => exact inv.handleGroupRaidConvert online toRaid
  | assistant guid target apply => exact inv.handleGroupAssistantLeader online target apply
  | disband guid => exact inv.disbandGroupOf online

/-- To use an invitation to a deleted group is undefined behaviour. -/
theorem handle_of_dangling {gid : GroupId} (invited : (w.refs guid).groupInvite = some gid)
    (gone : w.groups gid = none) (accept : Bool) :
    w.handleGroupInviteResponse guid accept = none ∧ w.uninviteFromGroup guid = none := by
  constructor
  · rw [handleGroupInviteResponse, invited]
    dsimp only
    split
    · rw [removeInvite, gone]
      rfl
    · rw [gone]
      rfl
  · rw [uninviteFromGroup, invited]
    dsimp only
    rw [removeInvite, gone]
    rfl

theorem Inv.not_oneParty_of_leader (inv : w.Inv) (found : w.groups gid = some g)
    (invited : (w.refs guid).groupInvite = some gid) (notLeader : g.leaderGuid ≠ guid)
    (uncreated : g.isCreated = false) (online : w.isOnline g.leaderGuid)
    (grouped : (w.refs g.leaderGuid).group ≠ none) :
    ∃ w', w.handleGroupInviteResponse guid true = some w' ∧ ¬ w'.OneParty := by
  have empty : g.guids = [] := by
    by_contra some
    rw [Group.isCreated_iff.mpr some] at uncreated
    cases uncreated
  have room : ¬ g.isFull = true := by
    have slots : g.memberSlots = [] := List.map_eq_nil_iff.mp empty
    rw [Group.isFull, slots]
    split
    · decide
    · decide
  have kept := inv.withoutInvite found guid
  have found₁ : (w.withoutInvite gid g guid).groups gid = _ := withoutInvite_groups guid
  have same : ((w.withoutInvite gid g guid).refs g.leaderGuid).group =
      (w.refs g.leaderGuid).group := withoutInvite_group guid g.leaderGuid
  obtain ⟨w₁, formed, online₁, -, ⟨g₁, found₂⟩, -, ifGrouped⟩ :=
    kept.formGroup found₁ uncreated (isOnline_iff.mp online)
  obtain ⟨sameGroup, second⟩ := ifGrouped (by rw [same]; exact grouped)
  obtain ⟨w₂, added, joined, leaderRefs, online₂⟩ := addMember_other found₂ notLeader
  refine ⟨w₂, ?_, fun law => ?_⟩
  · rw [Parties.handleGroupInviteResponse, invited]
    dsimp only
    rw [if_pos rfl, removeInvite_eq found]
    simp only [bind_eq_bind, bind_some, found₁]
    rw [if_neg notLeader, if_neg (by exact room), if_neg (by exact Bool.eq_false_iff.mp uncreated),
      if_pos (by exact online)]
    simp only [formed, joined, bind_some]
  · have none := law.single g.leaderGuid (by rw [online₂, online₁]; exact isOnline_iff.mp online)
      (by rw [leaderRefs, sameGroup, same]; exact grouped)
    rw [leaderRefs, second] at none
    cases none

/-- The law, as long as the behaviour is defined. -/
def Lawful (w : Option Parties) : Prop := ∃ w', w = some w' ∧ w'.OneParty

/-- Every packet handled is a sound one. -/
def Handled (w : Option Parties) (event : Event) : Prop :=
  ∀ w', w = some w' → w'.isOnline event.sender → w'.Sound event

theorem Inv.not_lawful (inv : w.Inv) {event : Event} (unsound : ¬ w.Sound event) :
    ¬ Lawful (w.handle event) := by
  rintro ⟨w', handled, law⟩
  cases event with
  | respond guid accept =>
    by_cases valid : w.InvitedToGroup guid
    · have leads : ¬ (accept → w.LeaderFree guid) := fun free => unsound ⟨valid, free⟩
      rw [Classical.not_imp] at leads
      obtain ⟨rfl, leads⟩ := leads
      simp only [LeaderFree, Classical.not_forall] at leads
      obtain ⟨gid, g, invited, found, notLeader, uncreated, online, grouped⟩ := leads
      obtain ⟨w'', accepted, broken⟩ :=
        inv.not_oneParty_of_leader found invited notLeader uncreated online grouped
      rw [Parties.handle, accepted] at handled
      cases handled
      exact broken law
    · simp only [InvitedToGroup, Classical.not_forall, not_not] at valid
      obtain ⟨gid, invited, gone⟩ := valid
      rw [Parties.handle, (handle_of_dangling invited gone accept).1] at handled
      cases handled
  | kick kicker guid vote leaderAway =>
    simp only [Sound, Classical.not_imp] at unsound
    obtain ⟨⟨other, gid, g, grouped, found, may, notLeader, outside, isInvited⟩, dangling⟩ :=
      unsound
    simp only [InvitedToGroup, Classical.not_forall, not_not] at dangling
    obtain ⟨gid', invited, gone⟩ := dangling
    rw [Parties.handle, Parties.handleGroupUninviteGuid, if_neg other, grouped] at handled
    simp only [found, bind_eq_bind, bind_some] at handled
    rw [if_neg (by simp [may]), if_neg notLeader, if_neg outside, if_pos isInvited,
      (handle_of_dangling invited gone true).2] at handled
    cases handled
  | _ => exact unsound True.intro

open Machine

/-- **One party per player.** Among any players online, from a state without groups on,
the law holds after every event exactly when every packet handled is a sound one. -/
theorem throughout_lawful_iff (online : List UInt64) (events : List Event) :
    Throughout step Lawful (some (start online)) events ↔
      EachStep step Handled (some (start online)) events := by
  refine throughout_iff_eachStep (I := fun w => ∃ w', w = some w' ∧ w'.Inv) ?_ ?_ ?_ ?_
  · exact ⟨_, rfl, inv_start online⟩
  · rintro _ ⟨w, rfl, inv⟩
    exact ⟨w, rfl, inv.oneParty⟩
  · rintro _ event ⟨w, rfl, inv⟩ handled
    change ∃ w', (if w.isOnline event.sender then w.handle event else some w) = some w' ∧ w'.Inv
    split
    · rename_i online
      exact inv.handle (isOnline_iff.mp online) (handled w rfl online)
    · exact ⟨w, rfl, inv⟩
  · rintro _ event ⟨w, rfl, inv⟩ unsound
    simp only [Handled, Classical.not_forall] at unsound
    obtain ⟨w', same, online, unsound⟩ := unsound
    cases same
    change ¬ Lawful (if w.isOnline event.sender then w.handle event else some w)
    rw [if_pos online]
    exact inv.not_lawful unsound

/-- Player 1 invites 2 and answers his own invitation, joins the group of 3, and then 2
accepts. -/
def inviterJoins : List Event :=
  [.invite 1 2 true, .respond 1 true, .invite 3 1 true, .respond 1 true, .respond 2 true]

theorem not_lawful_of_inviterJoins :
    ¬ Throughout step Lawful (some (start [1, 2, 3])) inviterJoins := by
  intro lawful
  obtain ⟨w, last, law⟩ := lawful.last
  have single : ∀ w', run step (some (start [1, 2, 3])) inviterJoins = some w' →
      (1 : UInt64) ∈ w'.online ∧ (w'.refs 1).group ≠ none ∧ (w'.refs 1).originalGroup ≠ none := by
    intro w' isLast
    cases isLast
    decide
  obtain ⟨online, grouped, second⟩ := single w last
  exact second (law.single 1 online grouped)

end Parties

end Sky548
