import Sky548.Chat.Channel

/-!
# Members and their flags

What each operation of a channel makes of its entries. `Kept` is what holds of
the entries whether or not an owner is left: nobody but `_ownerGUID` has the
owner flag, each entry stands under its own player's GUID, and none of the
players is banned. `Owned` says that `_ownerGUID` is a member with both flags.
-/

namespace Sky548

namespace Channel

open PlayerInfo

@[simp] theorem modify_find? (c : Channel) (guid who : UInt64) (f : PlayerInfo → PlayerInfo) :
    (c.modify guid f).playersStore.find? who =
      if who = guid then some (f (c.info guid)) else c.playersStore.find? who :=
  OrdMap.find?_modify c.playersStore .fresh guid who f

@[simp] theorem modify_ownerGUID (c : Channel) (guid : UInt64) (f : PlayerInfo → PlayerInfo) :
    (c.modify guid f).ownerGUID = c.ownerGUID := rfl

@[simp] theorem modify_bannedStore (c : Channel) (guid : UInt64) (f : PlayerInfo → PlayerInfo) :
    (c.modify guid f).bannedStore = c.bannedStore := rfl

@[simp] theorem modify_ownership (c : Channel) (guid : UInt64) (f : PlayerInfo → PlayerInfo) :
    (c.modify guid f).ownership = c.ownership := rfl

@[simp] theorem drop_find? (c : Channel) (guid who : UInt64) :
    (c.drop guid).playersStore.find? who =
      if who = guid then none else c.playersStore.find? who :=
  OrdMap.find?_erase c.playersStore guid who

variable {c : Channel} {guid who : UInt64} {info : PlayerInfo}

theorem info_of_find? (found : c.playersStore.find? guid = some info) : c.info guid = info := by
  unfold Channel.info
  rw [found]
  rfl

theorem isOn_iff : c.isOn who ↔ ∃ info, c.playersStore.find? who = some info :=
  Option.isSome_iff_exists

theorem isEmpty_iff : c.isEmpty ↔ ∀ who, c.playersStore.find? who = none := by
  unfold isEmpty
  rw [List.isEmpty_iff]
  constructor
  · intro nil who
    apply OrdMap.find?_eq_none_iff.mpr
    intro e member
    rw [← OrdMap.mem_toList, nil] at member
    cases member
  · intro none
    apply List.eq_nil_iff_forall_not_mem.mpr
    intro e member
    exact OrdMap.find?_eq_none_iff.mp (none e.1) e member rfl

theorem withoutOwnerFlag_find? (nonzero : c.ownerGUID ≠ 0) (who : UInt64) :
    c.withoutOwnerFlag.playersStore.find? who =
      if who = c.ownerGUID then (c.playersStore.find? who).map (·.setOwner false)
      else c.playersStore.find? who := by
  unfold withoutOwnerFlag
  cases found : c.playersStore.find? c.ownerGUID with
  | none =>
    rw [if_neg (by simp [isOn, found])]
    split
    · rename_i isOwner
      rw [isOwner, found]
      rfl
    · rfl
  | some info =>
    rw [if_pos (by simp [isOn, found, nonzero]), modify_find?, info_of_find? found]
    split
    · rename_i isOwner
      rw [isOwner, found]
      rfl
    · rfl

theorem withoutOwnerFlag_of_zero (zero : c.ownerGUID = 0) : c.withoutOwnerFlag = c := by
  unfold withoutOwnerFlag
  rw [if_neg fun both => both.1 zero]

@[simp] theorem withoutOwnerFlag_bannedStore (c : Channel) :
    c.withoutOwnerFlag.bannedStore = c.bannedStore := by
  unfold withoutOwnerFlag
  split <;> rfl

@[simp] theorem withoutOwnerFlag_ownership (c : Channel) :
    c.withoutOwnerFlag.ownership = c.ownership := by
  unfold withoutOwnerFlag
  split <;> rfl

theorem setOwner_find? (nonzero : guid ≠ 0) (who : UInt64) :
    (c.setOwner guid).playersStore.find? who =
      if who = guid then some (((c.withoutOwnerFlag.info guid).setModerator true).setOwner true)
      else c.withoutOwnerFlag.playersStore.find? who := by
  unfold Channel.setOwner
  rw [if_pos nonzero, modify_find?, modify_find?]
  split
  · rename_i isGuid
    unfold Channel.info
    rw [modify_find?, if_pos rfl]
    rfl
  · rfl

@[simp] theorem setOwner_ownerGUID (c : Channel) (guid : UInt64) :
    (c.setOwner guid).ownerGUID = guid := by
  unfold Channel.setOwner
  split <;> rfl

@[simp] theorem setOwner_bannedStore (c : Channel) (guid : UInt64) :
    (c.setOwner guid).bannedStore = c.bannedStore := by
  unfold Channel.setOwner
  split <;> simp

@[simp] theorem setOwner_ownership (c : Channel) (guid : UInt64) :
    (c.setOwner guid).ownership = c.ownership := by
  unfold Channel.setOwner
  split <;> simp

/-! ## What the operations keep -/

/-- The owner is a member with the flags of one, if there are members. -/
def Owned (c : Channel) : Prop :=
  ¬ c.isEmpty → ∃ info, c.playersStore.find? c.ownerGUID = some info ∧
    info.isOwner ∧ info.isModerator

/-- What holds of the entries also where no owner is left. -/
structure Kept (c : Channel) : Prop where
  ownership : c.ownership
  onlyOwner : ∀ who info, c.playersStore.find? who = some info → info.isOwner → who = c.ownerGUID
  keyed : ∀ who info, c.playersStore.find? who = some info → info.player = who
  nonzero : ∀ who info, c.playersStore.find? who = some info → who ≠ 0
  noneBanned : ∀ who info, c.playersStore.find? who = some info → ¬ c.isBanned who

theorem Owned.of_member (owned : c.Owned) (member : c.isOn who) :
    ∃ info, c.playersStore.find? c.ownerGUID = some info ∧ info.isOwner ∧ info.isModerator := by
  apply owned
  intro empty
  rw [isOn, isEmpty_iff.mp empty who] at member
  cases member

theorem Kept.modify (kept : c.Kept) (member : c.isOn guid) {f : PlayerInfo → PlayerInfo}
    (same : ∀ info, (f info).isOwner = info.isOwner) (player : ∀ info, (f info).player = info.player) :
    (c.modify guid f).Kept := by
  obtain ⟨old, found⟩ := isOn_iff.mp member
  refine ⟨kept.ownership, fun who info isInfo owns => ?_, fun who info isInfo => ?_,
    fun who info isInfo => ?_, fun who info isInfo => ?_⟩
  all_goals
    rw [modify_find?, info_of_find? found] at isInfo
    split at isInfo
  · rename_i isGuid
    cases isInfo
    rw [isGuid]
    exact kept.onlyOwner guid old found (by rwa [same] at owns)
  · exact kept.onlyOwner who info isInfo owns
  · rename_i isGuid
    cases isInfo
    rw [player, isGuid]
    exact kept.keyed guid old found
  · exact kept.keyed who info isInfo
  · rename_i isGuid
    rw [isGuid]
    exact kept.nonzero guid old found
  · exact kept.nonzero who info isInfo
  · rename_i isGuid
    rw [isGuid]
    exact kept.noneBanned guid old found
  · exact kept.noneBanned who info isInfo

theorem isOn_modify (member : c.isOn guid) (f : PlayerInfo → PlayerInfo) :
    (c.modify guid f).isOn who = c.isOn who := by
  unfold isOn
  rw [modify_find?]
  split
  · rename_i isGuid
    rw [isGuid]
    exact member.symm
  · rfl

theorem isOn_withoutOwnerFlag : c.withoutOwnerFlag.isOn who = c.isOn who := by
  unfold withoutOwnerFlag
  split
  · rename_i both
    exact isOn_modify both.2 _
  · rfl

theorem Kept.not_isOwner_withoutOwnerFlag (kept : c.Kept)
    (found : c.withoutOwnerFlag.playersStore.find? who = some info) : info.isOwner = false := by
  rcases eq_or_ne c.ownerGUID 0 with zero | nonzero
  · rw [withoutOwnerFlag_of_zero zero] at found
    apply Bool.eq_false_iff.mpr
    intro owns
    exact kept.nonzero who info found ((kept.onlyOwner who info found owns).trans zero)
  · rw [withoutOwnerFlag_find? nonzero] at found
    split at found
    · obtain ⟨old, -, rfl⟩ := Option.map_eq_some_iff.mp found
      exact isOwner_setOwner old false
    · rename_i notOwner
      apply Bool.eq_false_iff.mpr
      exact fun owns => notOwner (kept.onlyOwner who info found owns)

theorem exists_of_withoutOwnerFlag (found : c.withoutOwnerFlag.playersStore.find? who = some info) :
    ∃ old, c.playersStore.find? who = some old ∧ info.player = old.player := by
  rcases eq_or_ne c.ownerGUID 0 with zero | nonzero
  · rw [withoutOwnerFlag_of_zero zero] at found
    exact ⟨info, found, rfl⟩
  · rw [withoutOwnerFlag_find? nonzero] at found
    split at found
    · obtain ⟨old, isOld, rfl⟩ := Option.map_eq_some_iff.mp found
      exact ⟨old, isOld, rfl⟩
    · exact ⟨info, found, rfl⟩

theorem Kept.setOwner (kept : c.Kept) (member : c.isOn guid) :
    (c.setOwner guid).Kept ∧ (c.setOwner guid).Owned ∧
      ∀ who, (c.setOwner guid).isOn who = c.isOn who := by
  obtain ⟨old, found⟩ := isOn_iff.mp member
  have nonzero := kept.nonzero guid old found
  have there : c.withoutOwnerFlag.isOn guid := isOn_withoutOwnerFlag.trans member
  obtain ⟨now, isNow⟩ := isOn_iff.mp there
  have entries := fun who => setOwner_find? (c := c) nonzero who
  rw [info_of_find? isNow] at entries
  obtain ⟨before, isBefore, player⟩ := exists_of_withoutOwnerFlag isNow
  have own : ((now.setModerator true).setOwner true).player = guid :=
    player.trans (kept.keyed guid before isBefore)
  refine ⟨⟨by simpa using kept.ownership, fun who info isInfo owns => ?_, fun who info isInfo => ?_,
    fun who info isInfo => ?_, fun who info isInfo => ?_⟩, fun _ => ?_, fun who => ?_⟩
  · rw [entries] at isInfo
    rw [setOwner_ownerGUID]
    split at isInfo
    · assumption
    · rw [kept.not_isOwner_withoutOwnerFlag isInfo] at owns
      cases owns
  · rw [entries] at isInfo
    split at isInfo
    · rename_i isGuid
      cases isInfo
      rw [own, isGuid]
    · obtain ⟨was, isWas, same⟩ := exists_of_withoutOwnerFlag isInfo
      exact same.trans (kept.keyed who was isWas)
  · rw [entries] at isInfo
    split at isInfo
    · rename_i isGuid
      rw [isGuid]
      exact nonzero
    · obtain ⟨was, isWas, -⟩ := exists_of_withoutOwnerFlag isInfo
      exact kept.nonzero who was isWas
  · rw [entries] at isInfo
    unfold isBanned
    rw [setOwner_bannedStore]
    split at isInfo
    · rename_i isGuid
      rw [isGuid]
      exact kept.noneBanned guid old found
    · obtain ⟨was, isWas, -⟩ := exists_of_withoutOwnerFlag isInfo
      exact kept.noneBanned who was isWas
  · rw [setOwner_ownerGUID]
    refine ⟨_, (entries guid).trans (if_pos rfl), ?_, ?_⟩
    · exact isOwner_setOwner _ true
    · simp
  · unfold isOn
    rw [entries]
    split
    · rename_i isGuid
      rw [isGuid]
      exact member.symm
    · exact isOn_withoutOwnerFlag

theorem Kept.drop (kept : c.Kept) (guid : UInt64) : (c.drop guid).Kept := by
  have old : ∀ who info, (c.drop guid).playersStore.find? who = some info →
      c.playersStore.find? who = some info := by
    intro who info isInfo
    rw [drop_find?] at isInfo
    split at isInfo
    · cases isInfo
    · exact isInfo
  exact ⟨kept.ownership, fun who info isInfo => kept.onlyOwner who info (old who info isInfo),
    fun who info isInfo => kept.keyed who info (old who info isInfo),
    fun who info isInfo => kept.nonzero who info (old who info isInfo),
    fun who info isInfo => kept.noneBanned who info (old who info isInfo)⟩

theorem isOn_drop (c : Channel) (guid who : UInt64) :
    (c.drop guid).isOn who = (c.isOn who && decide (who ≠ guid)) := by
  unfold isOn
  rw [drop_find?]
  split
  · rename_i isGuid
    simp [isGuid]
  · rename_i other
    simp [other]

theorem Owned.drop (owned : c.Owned) (other : guid ≠ c.ownerGUID) : (c.drop guid).Owned := by
  intro notEmpty
  have there : ¬ c.isEmpty := by
    intro empty
    apply notEmpty
    apply isEmpty_iff.mpr
    intro who
    rw [drop_find?, isEmpty_iff.mp empty who]
    split <;> rfl
  obtain ⟨info, found, flags⟩ := owned there
  refine ⟨info, ?_, flags⟩
  change (c.drop guid).playersStore.find? c.ownerGUID = some info
  rw [drop_find?, if_neg other.symm]
  exact found

theorem Kept.promote (kept : c.Kept) (member : c.isOn guid) :
    let after := (c.modify guid (·.setModerator true)).setOwner guid
    after.Kept ∧ after.Owned ∧ ∀ who, after.isOn who = c.isOn who := by
  have moderated := kept.modify member (f := (·.setModerator true))
    (fun info => isOwner_setModerator info true) (fun info => player_setModerator info true)
  have there : (c.modify guid (·.setModerator true)).isOn guid :=
    (isOn_modify member _).trans member
  obtain ⟨keeps, owned, same⟩ := moderated.setOwner there
  exact ⟨keeps, owned, fun who => (same who).trans (isOn_modify member _)⟩

theorem Kept.handToFirst (kept : c.Kept) :
    c.handToFirst.Kept ∧ c.handToFirst.Owned ∧ ∀ who, c.handToFirst.isOn who = c.isOn who := by
  unfold Channel.handToFirst
  split
  · rename_i nil
    exact ⟨kept, fun notEmpty => absurd (by simp [isEmpty, nil]) notEmpty, fun _ => rfl⟩
  rename_i first rest entries
  have found : c.playersStore.find? first.1 = some first.2 := by
    rw [OrdMap.find?_eq_some_iff, ← OrdMap.mem_toList, entries]
    exact List.mem_cons_self
  have own := kept.keyed first.1 first.2 found
  rw [own]
  exact kept.promote (isOn_iff.mpr ⟨_, found⟩)

theorem Kept.leave_of_ne_owner (kept : c.Kept) (member : c.isOn guid)
    (other : guid ≠ c.ownerGUID) : c.leave guid = c.drop guid := by
  obtain ⟨info, found⟩ := isOn_iff.mp member
  have noOwner : info.isOwner = false := by
    apply Bool.eq_false_iff.mpr
    exact fun owns => other (kept.onlyOwner guid info found owns)
  unfold Channel.leave
  rw [info_of_find? found, noOwner]
  rfl

theorem Kept.leave (kept : c.Kept) (owned : c.Owned) (member : c.isOn guid) :
    (c.leave guid).Kept ∧ (c.leave guid).Owned ∧
      ∀ who, (c.leave guid).isOn who = (c.isOn who && decide (who ≠ guid)) := by
  rcases eq_or_ne guid c.ownerGUID with isOwner | other
  · obtain ⟨info, found, owns, -⟩ := owned.of_member member
    unfold Channel.leave
    rw [info_of_find? (isOwner ▸ found), owns]
    dsimp only
    split
    · obtain ⟨keeps, isOwned, same⟩ := (kept.drop guid).handToFirst
      exact ⟨keeps, isOwned, fun who => (same who).trans (isOn_drop c guid who)⟩
    rename_i noHeir
    have ownership : (c.drop guid).ownership = true := kept.ownership
    have empty : (c.drop guid).isEmpty := by simpa [ownership] using noHeir
    exact ⟨kept.drop guid, fun notEmpty => absurd empty notEmpty, isOn_drop c guid⟩
  · rw [kept.leave_of_ne_owner member other]
    exact ⟨kept.drop guid, owned.drop other, isOn_drop c guid⟩

theorem expel_of_ne_owner {victim : UInt64} (other : c.ownerGUID ≠ victim) (guid : UInt64)
    (ban : Bool) : (c.expel guid victim ban).playersStore = (c.drop victim).playersStore := by
  unfold Channel.expel
  cases ban <;> simp [other, Channel.drop]

/-- An owner who expels himself from others is entered again, without his GUID. -/
theorem expel_self (ban : Bool) (ownership : c.ownership) (nonzero : c.ownerGUID ≠ 0)
    (others : ¬ (c.drop c.ownerGUID).isEmpty) :
    ∃ info, (c.expel c.ownerGUID c.ownerGUID ban).playersStore.find? c.ownerGUID = some info ∧
      info.player = 0 := by
  let dropped : Channel :=
    (if ban then { c with bannedStore := insert c.ownerGUID c.bannedStore } else c).drop c.ownerGUID
  let again : Channel := dropped.modify c.ownerGUID (·.setModerator true)
  have gone : dropped.playersStore.find? c.ownerGUID = none := by
    have same : dropped.playersStore = (c.drop c.ownerGUID).playersStore := by
      simp only [dropped]
      cases ban <;> rfl
    rw [same, drop_find?, if_pos rfl]
  have owner : again.ownerGUID = c.ownerGUID := by
    simp only [again, dropped]
    cases ban <;> rfl
  have entered : again.playersStore.find? c.ownerGUID = some (PlayerInfo.fresh.setModerator true) := by
    simp only [again]
    rw [modify_find?, if_pos rfl]
    unfold Channel.info
    rw [gone]
    rfl
  have result : c.expel c.ownerGUID c.ownerGUID ban = again.setOwner c.ownerGUID := by
    have stays : ¬ dropped.isEmpty := by
      simp only [dropped]
      cases ban <;> exact others
    have owned : dropped.ownership := by
      simp only [dropped]
      cases ban <;> exact ownership
    exact if_pos ⟨rfl, owned, by simpa using stays⟩
  refine ⟨(((PlayerInfo.fresh.setModerator true).setOwner false).setModerator true).setOwner true,
    ?_, rfl⟩
  rw [result, setOwner_find? nonzero, if_pos rfl]
  unfold Channel.info
  rw [withoutOwnerFlag_find? (owner ▸ nonzero), if_pos owner.symm, entered]
  rfl

theorem Kept.ban (kept : c.Kept) {banned : Finset UInt64}
    (apart : ∀ who ∈ banned, ¬ c.isOn who) : Kept { c with bannedStore := banned } := by
  refine ⟨kept.ownership, kept.onlyOwner, kept.keyed, kept.nonzero, fun who info found isBanned => ?_⟩
  unfold Channel.isBanned at isBanned
  exact apart who (by simpa using isBanned) (isOn_iff.mpr ⟨info, found⟩)

theorem Kept.expel (kept : c.Kept) (owned : c.Owned) {victim : UInt64} {ban : Bool}
    (fair : c.ownerGUID = victim → (c.drop victim).isEmpty) :
    (c.expel guid victim ban).Kept ∧ (c.expel guid victim ban).Owned ∧
      ∀ who, (c.expel guid victim ban).isOn who = (c.isOn who && decide (who ≠ victim)) := by
  let banned : Finset UInt64 := if ban then insert victim c.bannedStore else c.bannedStore
  have listed : (if ban then { c with bannedStore := insert victim c.bannedStore } else c) =
      { c with bannedStore := banned } := by
    cases ban <;> rfl
  have dropped : Kept ({ c with bannedStore := banned }.drop victim) := by
    refine (kept.drop victim).ban fun who isBanned isThere => ?_
    rw [isOn_drop, Bool.and_eq_true, decide_eq_true_eq] at isThere
    obtain ⟨info, found⟩ := isOn_iff.mp isThere.1
    have old : who ∈ c.bannedStore := by
      simp only [banned] at isBanned
      split at isBanned
      · rcases Finset.mem_insert.mp isBanned with isVictim | old
        · exact absurd isVictim isThere.2
        · exact old
      · exact isBanned
    exact kept.noneBanned who info found (by simpa [Channel.isBanned] using old)
  unfold Channel.expel
  rw [listed]
  rcases eq_or_ne c.ownerGUID victim with isOwner | other
  · have empty : ({ c with bannedStore := banned }.drop victim).isEmpty := fair isOwner
    rw [if_neg fun all => by simp [empty] at all]
    exact ⟨dropped, fun notEmpty => absurd empty notEmpty, isOn_drop _ victim⟩
  · rw [if_neg fun all => other all.1]
    refine ⟨dropped, ?_, isOn_drop _ victim⟩
    have still : (c.drop victim).Owned := owned.drop other.symm
    exact still

theorem Owned.modify (owned : c.Owned) (member : c.isOn guid) {f : PlayerInfo → PlayerInfo}
    (owner : ∀ info, (f info).isOwner = info.isOwner)
    (moderator : guid = c.ownerGUID → ∀ info, info.isModerator → (f info).isModerator) :
    (c.modify guid f).Owned := by
  intro _
  obtain ⟨info, found, owns, moderates⟩ := owned.of_member member
  rw [modify_ownerGUID, modify_find?]
  split
  · rename_i isGuid
    rw [← isGuid, info_of_find? found]
    exact ⟨_, rfl, (owner info).trans owns, moderator isGuid.symm info moderates⟩
  · exact ⟨info, found, owns, moderates⟩

theorem Kept.enter (kept : c.Kept) (owned : c.Owned) (nonzero : guid ≠ 0)
    (allowed : ¬ c.isBanned guid) (new : ¬ c.isOn guid) (fair : c.isEmpty → c.ownerGUID = 0) :
    (c.enter guid).Kept ∧ (c.enter guid).Owned ∧
      ∀ who, (c.enter guid).isOn who = (c.isOn who || decide (who = guid)) := by
  let entered : Channel := { c with playersStore := c.playersStore.insert guid ⟨guid, 0⟩ }
  have entries : ∀ who, entered.playersStore.find? who =
      if who = guid then some ⟨guid, 0⟩ else c.playersStore.find? who :=
    fun who => OrdMap.find?_insert c.playersStore guid who _
  have there : entered.isOn guid := by simp [isOn, entries]
  have isThere : ∀ who, entered.isOn who = (c.isOn who || decide (who = guid)) := by
    intro who
    unfold isOn
    rw [entries]
    split
    · rename_i isGuid
      simp [isGuid]
    · rename_i other
      simp [other]
  have keeps : entered.Kept := by
    refine ⟨kept.ownership, fun who info isInfo owns => ?_, fun who info isInfo => ?_,
      fun who info isInfo => ?_, fun who info isInfo => ?_⟩
    all_goals
      rw [entries] at isInfo
      split at isInfo
    · cases isInfo
      exact absurd owns (by simp [isOwner, hasFlag])
    · exact kept.onlyOwner who info isInfo owns
    · rename_i isGuid
      cases isInfo
      exact isGuid.symm
    · exact kept.keyed who info isInfo
    · rename_i isGuid
      rw [isGuid]
      exact nonzero
    · exact kept.nonzero who info isInfo
    · rename_i isGuid
      rw [isGuid]
      exact allowed
    · exact kept.noneBanned who info isInfo
  change Kept (if entered.ownerGUID = 0 ∧ entered.ownership then
      (entered.setOwner guid).modify guid (·.setModerator true) else entered) ∧
    Owned (if entered.ownerGUID = 0 ∧ entered.ownership then
      (entered.setOwner guid).modify guid (·.setModerator true) else entered) ∧
    ∀ who, isOn (if entered.ownerGUID = 0 ∧ entered.ownership then
      (entered.setOwner guid).modify guid (·.setModerator true) else entered) who = _
  rcases eq_or_ne c.ownerGUID 0 with zero | hasOwner
  · rw [if_pos ⟨zero, kept.ownership⟩]
    obtain ⟨after, isOwned, same⟩ := keeps.setOwner there
    have member := (same guid).trans there
    refine ⟨after.modify member (fun info => isOwner_setModerator info true)
      (fun info => player_setModerator info true), ?_, fun who => ?_⟩
    · exact isOwned.modify member (fun info => isOwner_setModerator info true) fun _ info _ =>
        isModerator_setModerator info true
    · exact (isOn_modify member _).trans ((same who).trans (isThere who))
  · rw [if_neg fun both => hasOwner both.1]
    refine ⟨keeps, fun _ => ?_, isThere⟩
    obtain ⟨info, found, flags⟩ := owned fun empty => hasOwner (fair empty)
    refine ⟨info, ?_, flags⟩
    rw [entries, if_neg, found]
    intro isOwner
    exact new (isOn_iff.mpr ⟨info, isOwner ▸ found⟩)

end Channel

end Sky548
