import Sky548.Lfg.Queue

/-!
# Sound matches

What `CheckCompatibility` proposes: the players of the checked GUIDs, five of them and each once,
who do not ignore each other, with one of the roles that each has asked for and a dungeon that all
have chosen.
-/

namespace Sky548

open List OrdMap

namespace LFGQueue

variable {q : LFGQueue} {env : LfgEnv}

theorem census_ok (check : List UInt64) : ∀ {c c' : Census}, q.census env check c = .ok c' →
    c'.numPlayers.toNat ≤ maxGroupSize → c'.numLfgGroups.toNat ≤ 1 →
    c'.numPlayers.toNat =
      c.numPlayers.toNat + (check.map fun guid => OrdMap.size (q.rolesOf guid)).sum ∧
    c'.numLfgGroups.toNat = c.numLfgGroups.toNat + (check.filter env.isLfgGroup).length := by
  induction check with
  | nil =>
    intro c c' isOk _ _
    cases isOk
    exact ⟨rfl, rfl⟩
  | cons guid rest ih =>
    intro c c' isOk fewPlayers fewGroups
    unfold census at isOk
    split at isOk
    · rename_i within
      rw [Bool.and_eq_true, decide_eq_true_eq, decide_eq_true_eq] at within
      split at isOk
      · cases isOk
      rename_i data isData
      obtain ⟨players, groups⟩ := ih isOk fewPlayers fewGroups
      have isSize : OrdMap.size (q.rolesOf guid) = data.roles.size := by
        unfold rolesOf
        rw [isData]
        rfl
      have small : data.roles.size ≤ 5 := data.roles_le
      have wasFew : c.numPlayers.toNat ≤ 5 := within.2
      have up : (c.add env guid data).numPlayers.toNat = c.numPlayers.toNat + data.roles.size := by
        change (c.numPlayers + UInt8.ofNat data.roles.size).toNat = _
        rw [UInt8.toNat_add, UInt8.toNat_ofNat']
        omega
      have wasFewGroups : c.numLfgGroups.toNat < 2 := within.1
      refine ⟨?_, ?_⟩
      · rw [players, up, map_cons, sum_cons, isSize, Nat.add_assoc]
      rw [groups]
      change (if env.isLfgGroup guid then c.numLfgGroups + 1 else c.numLfgGroups).toNat + _ = _
      cases isLfg : env.isLfgGroup guid with
      | true =>
        rw [if_pos rfl, filter_cons_of_pos isLfg, length_cons, UInt8.toNat_add]
        change (c.numLfgGroups.toNat + 1) % 256 + _ = _
        omega
      | false =>
        rw [if_neg (by decide), filter_cons_of_neg (by rw [isLfg]; decide)]
    · rename_i outside
      cases isOk
      -- the loop has ended early, so the census is not within the limits
      refine absurd ?_ outside
      rw [Bool.and_eq_true, decide_eq_true_eq, decide_eq_true_eq]
      exact ⟨UInt8.lt_iff_toNat_lt.mpr (Nat.lt_succ_of_le fewGroups), fewPlayers⟩

def NoIgnores (env : LfgEnv) (players : List UInt64) : Prop :=
  ∀ a ∈ players, ∀ b ∈ players, a ≠ b → env.hasIgnore a b = false

theorem size_joinRole_le (env : LfgEnv) (roles : LfgRolesMap) (e : UInt64 × UInt8) :
    OrdMap.size (joinRole env roles e) ≤ roles.size + 1 := by
  unfold joinRole
  split
  · exact Nat.le_succ _
  cases found : roles.find? e.1 with
  | none => exact Nat.le_of_eq (size_insert_new found)
  | some old =>
    rw [size_insert_old found]
    exact Nat.le_succ _

variable {roles : LfgRolesMap}

theorem joinRole_of_size {e : UInt64 × UInt8}
    (larger : OrdMap.size (joinRole env roles e) = roles.size + 1) :
    (∀ d, d ∈ joinRole env roles e ↔ d = e ∨ d ∈ roles) ∧
      ∀ d ∈ roles, env.hasIgnore e.1 d.1 = false := by
  unfold joinRole at larger ⊢
  split at larger
  · exact absurd larger (Nat.ne_of_lt (Nat.lt_succ_self _))
  rename_i welcome
  cases found : roles.find? e.1 with
  | some old =>
    rw [size_insert_old found] at larger
    exact absurd larger (Nat.ne_of_lt (Nat.lt_succ_self _))
  | none =>
    have isNew := find?_eq_none_iff.mp found
    rw [if_neg welcome]
    refine ⟨fun d => ?_, fun d member => ?_⟩
    · refine mem_insert.trans (or_congr_right ?_)
      exact ⟨And.left, fun member => ⟨member, isNew d member⟩⟩
    rw [List.any_eq_true] at welcome
    rw [← Bool.not_eq_true]
    intro ignores
    refine welcome ⟨d, member, ?_⟩
    rw [Bool.and_eq_true, decide_eq_true_eq]
    exact ⟨fun same => isNew d member same.symm, ignores⟩

theorem size_foldl_joinRole_le (env : LfgEnv) (entries : List (UInt64 × UInt8)) :
    ∀ roles : LfgRolesMap,
    OrdMap.size (entries.foldl (joinRole env) roles) ≤ roles.size + entries.length := by
  induction entries with
  | nil => exact fun roles => Nat.le_refl _
  | cons e rest ih =>
    intro roles
    have later := ih (joinRole env roles e)
    have now := size_joinRole_le env roles e
    rw [foldl_cons, length_cons]
    omega

theorem foldl_joinRole_of_size (entries : List (UInt64 × UInt8)) : ∀ {roles : LfgRolesMap},
    OrdMap.size (entries.foldl (joinRole env) roles) = roles.size + entries.length →
    NoIgnores env roles.keys →
    (∀ d, d ∈ entries.foldl (joinRole env) roles ↔ d ∈ roles ∨ d ∈ entries) ∧
      NoIgnores env (OrdMap.keys (entries.foldl (joinRole env) roles)) := by
  induction entries with
  | nil =>
    intro roles _ friendly
    exact ⟨fun d => by simp, friendly⟩
  | cons e rest ih =>
    intro roles full friendly
    rw [foldl_cons, length_cons] at full
    have later := size_foldl_joinRole_le env rest (joinRole env roles e)
    have now := size_joinRole_le env roles e
    have larger : OrdMap.size (joinRole env roles e) = roles.size + 1 := by omega
    obtain ⟨entries, welcome⟩ := joinRole_of_size larger
    have stillFriendly : NoIgnores env (OrdMap.keys (joinRole env roles e)) := by
      intro a inA b inB apart
      obtain ⟨roleA, memberA⟩ := mem_keys_iff.mp inA
      obtain ⟨roleB, memberB⟩ := mem_keys_iff.mp inB
      rcases (entries _).mp memberA with isE | oldA
      · rcases (entries _).mp memberB with isE' | oldB
        · exact absurd (congrArg Prod.fst (isE.trans isE'.symm)) apart
        · rw [← congrArg Prod.fst isE] at welcome
          exact welcome _ oldB
      · rcases (entries _).mp memberB with isE | oldB
        · rw [env.hasIgnore_comm, ← welcome _ oldA, ← congrArg Prod.fst isE]
        · exact friendly a (mem_keys_iff.mpr ⟨roleA, oldA⟩) b (mem_keys_iff.mpr ⟨roleB, oldB⟩) apart
    obtain ⟨all, friends⟩ := ih (by omega) stillFriendly
    refine ⟨fun d => ?_, friends⟩
    rw [foldl_cons, all, entries, mem_cons, or_comm (a := d = e), or_assoc]

def entriesOf (q : LFGQueue) (check : List UInt64) : List (UInt64 × UInt8) :=
  check.flatMap fun guid => (q.rolesOf guid).toList

theorem joinRoles_eq (check : List UInt64) :
    q.joinRoles env check = (q.entriesOf check).foldl (joinRole env) .empty := by
  unfold joinRoles entriesOf
  rw [foldl_flatMap]

theorem length_entriesOf (check : List UInt64) :
    (q.entriesOf check).length = (check.map fun guid => OrdMap.size (q.rolesOf guid)).sum :=
  length_flatMap

variable {check : List UInt64}

theorem mem_joinDungeons {dungeon : UInt32} (member : dungeon ∈ (q.joinDungeons check).keys) :
    ∀ guid ∈ check, dungeon ∈ (q.dungeonsOf guid).keys := by
  have general : ∀ (rest : List UInt64) (dungeons : LfgDungeonSet),
      dungeon ∈ OrdMap.keys (rest.foldl (fun dungeons guid =>
        dungeons.filterKeys fun dungeon => dungeon ∈ (q.dungeonsOf guid).keys) dungeons) →
      dungeon ∈ dungeons.keys ∧ ∀ guid ∈ rest, dungeon ∈ (q.dungeonsOf guid).keys := by
    intro rest
    induction rest with
    | nil => exact fun dungeons member => ⟨member, fun guid inNil => by cases inNil⟩
    | cons guid rest ih =>
      intro dungeons member
      obtain ⟨inFirst, inRest⟩ := ih _ member
      obtain ⟨u, isEntry⟩ := mem_keys_iff.mp inFirst
      obtain ⟨inDungeons, inGuid⟩ := mem_filterKeys.mp isEntry
      refine ⟨mem_keys_iff.mpr ⟨u, inDungeons⟩, fun other inList => ?_⟩
      rcases List.mem_cons.mp inList with rfl | later
      · exact of_decide_eq_true inGuid
      · exact inRest other later
  cases check with
  | nil => exact fun guid inNil => by cases inNil
  | cons first rest =>
    obtain ⟨inFirst, inRest⟩ := general rest _ member
    intro guid inList
    rcases List.mem_cons.mp inList with rfl | later
    · exact inFirst
    · exact inRest guid later

/-- What the checks make sure of for a group. -/
structure Fits (q : LFGQueue) (env : LfgEnv) (check : List UInt64) (roles : LfgRolesMap)
    (dungeons : LfgDungeonSet) : Prop where
  players : ∀ player, player ∈ roles.keys ↔ ∃ guid ∈ check, player ∈ (q.rolesOf guid).keys
  five : roles.size = maxGroupSize
  ignores : 1 < check.length → NoIgnores env roles.keys
  asked : ∀ player role, (player, role) ∈ roles → LfgRolesMap.IsRole role ∧
    ∃ guid ∈ check, ∃ asked, (player, asked) ∈ q.rolesOf guid ∧ role &&& asked = role
  tank : roles.countVal (· = playerRoleTank) = 1
  healer : roles.countVal (· = playerRoleHealer) = 1
  damage : roles.countVal (· = playerRoleDamage) = 3
  lfgGroups : (check.filter env.isLfgGroup).length ≤ 1
  common : ∀ dungeon ∈ dungeons.keys, ∀ guid ∈ check, dungeon ∈ (q.dungeonsOf guid).keys
  dungeons_ne : dungeons.keys ≠ []

variable {dungeons : LfgDungeonSet}

theorem fits_of_assigned (queued : LfgRolesMap) (assigned : queued.Assigned roles)
    (entries : ∀ e, e ∈ queued ↔ ∃ guid ∈ check, e ∈ q.rolesOf guid)
    (five : queued.size = maxGroupSize) (ignores : 1 < check.length → NoIgnores env queued.keys)
    (lfgGroups : (check.filter env.isLfgGroup).length ≤ 1)
    (common : ∀ dungeon ∈ dungeons.keys, ∀ guid ∈ check, dungeon ∈ (q.dungeonsOf guid).keys)
    (dungeons_ne : dungeons.keys ≠ []) : q.Fits env check roles dungeons := by
  have sameSize : OrdMap.size roles = OrdMap.size queued := by
    have lengths := congrArg List.length assigned.keys
    unfold OrdMap.keys at lengths
    rw [length_map, length_map] at lengths
    exact lengths
  have isFive := sameSize.trans five
  obtain ⟨tank, healer, damage⟩ := assigned.exact isFive
  refine ⟨fun player => ?_, isFive, ?_, fun player role member => ?_, tank, healer, damage,
    lfgGroups, common, dungeons_ne⟩
  · rw [assigned.keys, mem_keys_iff]
    constructor
    · intro ⟨role, member⟩
      obtain ⟨guid, checked, isEntry⟩ := (entries _).mp member
      exact ⟨guid, checked, mem_keys_iff.mpr ⟨role, isEntry⟩⟩
    · intro ⟨guid, checked, isKey⟩
      obtain ⟨role, isEntry⟩ := mem_keys_iff.mp isKey
      exact ⟨role, (entries _).mpr ⟨guid, checked, isEntry⟩⟩
  · rw [assigned.keys]
    exact ignores
  · obtain ⟨isRole, asked, member, has⟩ := assigned.role player role member
    obtain ⟨guid, checked, isEntry⟩ := (entries _).mp member
    exact ⟨isRole, guid, checked, asked, isEntry, has⟩

variable {c : Census}

theorem Fits.of_agree (counted : q.census env check .start = .ok c)
    (five : c.numPlayers.toNat = maxGroupSize) (fewGroups : c.numLfgGroups.toNat ≤ 1)
    (agreed : q.agree env check c = .ok (roles, dungeons)) : q.Fits env check roles dungeons := by
  obtain ⟨players, groups⟩ := census_ok check counted (Nat.le_of_eq five) fewGroups
  unfold agree at agreed
  dsimp only at agreed
  split at agreed
  · cases agreed
  rename_i sameNumber
  split at agreed
  · cases agreed
  rename_i succeeds
  split at agreed
  · cases agreed
  rename_i common
  cases agreed
  -- the map has all players that were counted
  have total : (q.entriesOf check).length = 5 := by
    rw [length_entriesOf, ← Nat.zero_add (List.sum _)]
    exact players.symm.trans five
  have atMost := size_foldl_joinRole_le env (q.entriesOf check) .empty
  rw [← joinRoles_eq, total] at atMost
  have atMost : OrdMap.size (q.joinRoles env check) ≤ 5 := atMost
  have full : OrdMap.size (q.joinRoles env check) = 5 := by
    have number : c.numPlayers = UInt8.ofNat (OrdMap.size (q.joinRoles env check)) := by
      rw [← UInt8.sub_add_cancel c.numPlayers (UInt8.ofNat _), not_not.mp sameNumber,
        UInt8.zero_add]
    have number := congrArg UInt8.toNat number
    rw [UInt8.toNat_ofNat', five] at number
    change 5 = _ at number
    omega
  have everybody : OrdMap.size ((q.entriesOf check).foldl (joinRole env) .empty) =
      OrdMap.size (OrdMap.empty : LfgRolesMap) + (q.entriesOf check).length := by
    rw [← joinRoles_eq, full, total]
    rfl
  obtain ⟨entries, friends⟩ := foldl_joinRole_of_size _ everybody fun a inA => by cases inA
  rw [← joinRoles_eq] at friends
  have succeeds : (q.joinRoles env check).checkGroupRoles.1 = true := by simpa using succeeds
  refine fits_of_assigned (q.joinRoles env check)
    (LfgRolesMap.checkGroupRoles_assigned (full.trans_lt (by decide)) succeeds)
    (fun e => ?_) full (fun _ => friends) ?_ (fun dungeon => mem_joinDungeons) common
  · rw [joinRoles_eq, entries]
    unfold entriesOf
    rw [mem_flatMap]
    exact ⟨fun either => either.resolve_left not_mem_empty, Or.inr⟩
  · omega

theorem Fits.of_single {gguid : UInt64} (counted : q.census env [gguid] .start = .ok c)
    (five : c.numPlayers.toNat = maxGroupSize) (fewGroups : c.numLfgGroups.toNat ≤ 1) :
    q.Fits env [gguid] (q.rolesOf gguid).checkGroupRoles.2 (q.dungeonsOf gguid) := by
  obtain ⟨players, groups⟩ := census_ok [gguid] counted (Nat.le_of_eq five) fewGroups
  have full : OrdMap.size (q.rolesOf gguid) = 5 := by
    rw [five] at players
    exact (Nat.zero_add _).symm.trans players.symm
  cases isData : q.queueDataStore.find? gguid with
  | none =>
    unfold rolesOf at full
    rw [isData] at full
    cases full
  | some data =>
    have isRoles : q.rolesOf gguid = data.roles := by
      unfold rolesOf
      rw [isData]
      rfl
    have isDungeons : q.dungeonsOf gguid = data.dungeons := by
      unfold dungeonsOf
      rw [isData]
      rfl
    rw [isRoles] at full
    refine fits_of_assigned (q.rolesOf gguid) ?_ (fun e => ?_) (isRoles ▸ full)
      (fun several => absurd several (Nat.lt_irrefl 1)) ?_ (fun dungeon member guid isGuid => ?_)
      (isDungeons ▸ data.dungeons_ne)
    · rw [isRoles]
      exact LfgRolesMap.checkGroupRoles_assigned (full.trans_lt (by decide)) (data.roles_full full)
    · exact ⟨fun member => ⟨gguid, mem_singleton_self _, member⟩,
        fun ⟨guid, isGuid, member⟩ => List.mem_singleton.mp isGuid ▸ member⟩
    · exact length_filter_le _ _
    · rw [List.mem_singleton.mp isGuid]
      exact member

theorem settle_ne {compatibles : LfgCompatibility}
    (failed : q.settle env check c = .error compatibles) :
    compatibles ≠ .isMatch ∧ compatibles ≠ .badStates := by
  unfold settle at failed
  split at failed
  · cases failed
  unfold agree at failed
  dsimp only at failed
  split at failed
  · cases failed
    decide
  split at failed
  · cases failed
    decide
  split at failed
  · cases failed
    decide
  · cases failed

theorem assess_cases (q : LFGQueue) (env : LfgEnv) (check : List UInt64) :
    (∃ guid, q.census env check .start = .error guid ∧
      q.assess env check = .notQueued guid) ∨
    (∃ compatibles, (compatibles ≠ .isMatch ∧ compatibles ≠ .badStates) ∧
      q.assess env check = .result compatibles) ∨
    ∃ c roles dungeons, q.census env check .start = .ok c ∧
      c.numPlayers.toNat = maxGroupSize ∧ c.numLfgGroups.toNat ≤ 1 ∧
      q.settle env check c = .ok (roles, dungeons) ∧
      q.assess env check = .group c roles dungeons := by
  unfold assess
  rcases counted : q.census env check .start with guid | c
  · exact Or.inl ⟨guid, rfl, rfl⟩
  refine Or.inr ?_
  dsimp only
  split
  · exact Or.inl ⟨_, by decide, rfl⟩
  split
  · exact Or.inl ⟨_, by decide, rfl⟩
  rename_i fewGroups
  split
  · exact Or.inl ⟨_, by decide, rfl⟩
  split
  · rename_i compatibles failed
    exact Or.inl ⟨compatibles, settle_ne failed, rfl⟩
  rename_i roles dungeons settled
  split
  · exact Or.inl ⟨_, by decide, rfl⟩
  · rename_i five
    exact Or.inr ⟨c, roles, dungeons, rfl, not_not.mp five,
      UInt8.le_iff_toNat_le.mp (UInt8.not_lt.mp fewGroups), settled, rfl⟩

theorem fits_of_assess (isGroup : q.assess env check = .group c roles dungeons) :
    q.Fits env check roles dungeons := by
  rcases assess_cases q env check with ⟨guid, -, isOther⟩ | ⟨_, -, isOther⟩ |
    ⟨c', roles', dungeons', counted, five, fewGroups, settled, same⟩
  · rw [isOther] at isGroup
    cases isGroup
  · rw [isOther] at isGroup
    cases isGroup
  · rw [same] at isGroup
    cases isGroup
    unfold settle at settled
    split at settled
    · cases settled
      exact .of_single counted five fewGroups
    · exact .of_agree counted five fewGroups settled

end LFGQueue

/-- A proposal that is right for the queue data and the ignore lists of the moment. -/
structure LfgProposal.Sound (p : LfgProposal) (q : LFGQueue) (env : LfgEnv) : Prop where
  players : ∀ player, player ∈ p.players.keys ↔ ∃ guid ∈ p.queues, player ∈ (q.rolesOf guid).keys
  five : p.players.size = maxGroupSize
  ignores : 1 < p.queues.length → LFGQueue.NoIgnores env p.players.keys
  asked : ∀ player data, (player, data) ∈ p.players → LfgRolesMap.IsRole data.role ∧
    ∃ guid ∈ p.queues, ∃ asked, (player, asked) ∈ q.rolesOf guid ∧ data.role &&& asked = data.role
  tank : p.players.countVal (·.role = playerRoleTank) = 1
  healer : p.players.countVal (·.role = playerRoleHealer) = 1
  damage : p.players.countVal (·.role = playerRoleDamage) = 3
  lfgGroups : (p.queues.filter env.isLfgGroup).length ≤ 1
  dungeon : ∀ guid ∈ p.queues, p.dungeonId ∈ (q.dungeonsOf guid).keys

theorem LFGQueue.Fits.sound {q : LFGQueue} {env : LfgEnv} {check : List UInt64}
    {c : LFGQueue.Census} {roles : LfgRolesMap} {dungeons : LfgDungeonSet}
    (fits : q.Fits env check roles dungeons) (id : UInt32) :
    (LfgProposal.ofGroup env id check c roles dungeons).Sound q env := by
  have keys : OrdMap.keys (LfgProposal.ofGroup env id check c roles dungeons).players =
      roles.keys := keys_mapVal _ _
  have counts : ∀ bit, OrdMap.countVal (·.role = bit)
      (LfgProposal.ofGroup env id check c roles dungeons).players = roles.countVal (· = bit) := by
    intro bit
    change List.countP _ (List.map _ _) = _
    rw [countP_map]
    rfl
  have isMember : (LfgProposal.ofGroup env id check c roles dungeons).dungeonId ∈
      dungeons.keys := by
    have inRange : env.urand id 0 % dungeons.size < dungeons.keys.length := by
      have same : dungeons.keys.length = dungeons.size := length_map _
      rw [same]
      exact Nat.mod_lt _ (same ▸ length_pos_of_ne_nil fits.dungeons_ne)
    change dungeons.keys.getD _ 0 ∈ _
    rw [getD_eq_getElem?_getD, getElem?_eq_getElem inRange]
    exact getElem_mem inRange
  refine ⟨fun player => ?_, (size_mapVal _ _).trans fits.five, ?_,
    fun player data member => ?_, (counts _).trans fits.tank, (counts _).trans fits.healer,
    (counts _).trans fits.damage, fits.lfgGroups, fits.common _ isMember⟩
  · rw [keys]
    exact fits.players player
  · rw [keys]
    exact fits.ignores
  · obtain ⟨role, inRoles, rfl⟩ := mem_mapVal.mp member
    exact fits.asked player role inRoles

namespace LFGQueue

variable {q q' : LFGQueue} {env : LfgEnv}

def SameData (q q' : LFGQueue) : Prop :=
  ∀ guid, q'.queueDataStore.find? guid = q.queueDataStore.find? guid

theorem SameData.rolesOf (same : q.SameData q') : q'.rolesOf = q.rolesOf := by
  funext guid
  unfold LFGQueue.rolesOf
  rw [same]

theorem SameData.dungeonsOf (same : q.SameData q') : q'.dungeonsOf = q.dungeonsOf := by
  funext guid
  unfold LFGQueue.dungeonsOf
  rw [same]

theorem census_error {guid : UInt64} (check : List UInt64) :
    ∀ {c : Census}, q.census env check c = .error guid →
      guid ∈ check ∧ q.queueDataStore.find? guid = none := by
  induction check with
  | nil =>
    intro c isError
    cases isError
  | cons first rest ih =>
    intro c isError
    unfold census at isError
    split at isError
    · split at isError
      · rename_i absent
        cases isError
        exact ⟨mem_cons_self, absent⟩
      · obtain ⟨checked, absent⟩ := ih isError
        exact ⟨mem_cons_of_mem _ checked, absent⟩
    · cases isError

theorem census_of_assess {guid : UInt64} {check : List UInt64}
    (notQueued : q.assess env check = .notQueued guid) :
    guid ∈ check ∧ q.queueDataStore.find? guid = none := by
  rcases assess_cases q env check with ⟨guid', failed, same⟩ | ⟨_, -, isOther⟩ |
    ⟨_, _, _, -, -, -, -, isOther⟩
  · rw [same] at notQueued
    cases notQueued
    exact census_error check failed
  · rw [isOther] at notQueued
    cases notQueued
  · rw [isOther] at notQueued
    cases notQueued

theorem assess_ne {check : List UInt64} {compatibles : LfgCompatibility}
    (assessed : q.assess env check = .result compatibles) :
    compatibles ≠ .isMatch ∧ compatibles ≠ .badStates := by
  rcases assess_cases q env check with ⟨_, -, isOther⟩ | ⟨compatibles, other, same⟩ |
    ⟨_, _, _, -, -, -, -, isOther⟩
  · rw [isOther] at assessed
    cases assessed
  · rw [same] at assessed
    cases assessed
    exact other
  · rw [isOther] at assessed
    cases assessed

theorem sameData_removeFromQueue {guid : UInt64} (absent : q.queueDataStore.find? guid = none) :
    q.SameData (q.removeFromQueue guid) := by
  intro other
  cases isData : q.queueDataStore.find? other with
  | none =>
    rw [find?_eq_none_iff] at isData ⊢
    exact fun e member => isData e (mem_erase.mp member).1
  | some data =>
    rw [find?_eq_some_iff]
    refine mem_erase.mpr ⟨find?_eq_some_iff.mp isData, fun same => ?_⟩
    have same : other = guid := same
    rw [same, absent] at isData
    cases isData

end LFGQueue

theorem LfgProposal.Sound.of_sameData {p : LfgProposal} {q q' : LFGQueue} {env : LfgEnv}
    (sound : p.Sound q' env) (same : q.SameData q') : p.Sound q env := by
  refine ⟨?_, sound.five, sound.ignores, ?_, sound.tank, sound.healer, sound.damage,
    sound.lfgGroups, ?_⟩
  · rw [← same.rolesOf]
    exact sound.players
  · rw [← same.rolesOf]
    exact sound.asked
  · rw [← same.dungeonsOf]
    exact sound.dungeon

namespace LfgSearch

variable {env : LfgEnv} {s s' : LfgSearch}

/-- A later state of a search: the queue data are the same, and new proposals are
sound. -/
structure Later (env : LfgEnv) (s s' : LfgSearch) : Prop where
  data : s.queue.SameData s'.queue
  sound : ∀ e ∈ s'.proposals.proposalsStore, e ∈ s.proposals.proposalsStore ∨ e.2.Sound s.queue env

theorem Later.refl (env : LfgEnv) (s : LfgSearch) : Later env s s :=
  ⟨fun _ => rfl, fun _ => Or.inl⟩

theorem Later.trans {s'' : LfgSearch} (first : Later env s s') (second : Later env s' s'') :
    Later env s s'' := by
  refine ⟨fun guid => (second.data guid).trans (first.data guid), fun e member => ?_⟩
  rcases second.sound e member with old | new
  · exact first.sound e old
  · exact Or.inr (new.of_sameData first.data)

theorem later_setCompatibles (check : List UInt64) (compatibles : LfgCompatibility) :
    Later env s (s.setCompatibles check compatibles) :=
  ⟨fun _ => rfl, fun _ => Or.inl⟩

/-- The proposal that a match has created. -/
def Proposed (check : List UInt64) (env : LfgEnv) (q : LFGQueue) (s : LfgSearch) : Prop :=
  ∃ proposal, (s.proposals.lfgProposalId, proposal) ∈ s.proposals.proposalsStore ∧
    proposal.queues = check ∧ proposal.Sound q env

theorem sameData_createProposal (check : List UInt64) (c : LFGQueue.Census)
    (roles : LfgRolesMap) (dungeons : LfgDungeonSet) :
    s.queue.SameData (s.createProposal env check c roles dungeons).queue := by
  have same := List.foldlRecOn (motive := fun q : LFGQueue => q.queueDataStore = s.queue.queueDataStore) check
    (fun q guid => (q.removeFromNewQueue guid).removeFromCurrentQueue guid) rfl fun _ same _ _ => same
  exact fun guid => congrArg (fun store => OrdMap.find? store guid) same

theorem conclude_later (env : LfgEnv) (check : List UInt64) (s : LfgSearch) :
    Later env s (s.conclude env check).1 ∧
      ((s.conclude env check).2 = .isMatch → Proposed check env s.queue (s.conclude env check).1) := by
  unfold conclude
  split
  · rename_i guid notQueued
    refine ⟨⟨?_, fun _ => Or.inl⟩, fun impossible => by cases impossible⟩
    exact LFGQueue.sameData_removeFromQueue (LFGQueue.census_of_assess notQueued).2
  · rename_i compatibles assessed
    refine ⟨later_setCompatibles check compatibles, fun isMatch => ?_⟩
    exact absurd isMatch (LFGQueue.assess_ne assessed).1
  · rename_i c roles dungeons isGroup
    have sound := (LFGQueue.fits_of_assess isGroup).sound (c := c) (s.proposals.lfgProposalId + 1)
    split
    · exact ⟨later_setCompatibles check .badStates, fun impossible => by cases impossible⟩
    have sound' : LfgProposal.Sound
        { LfgProposal.ofGroup env (s.proposals.lfgProposalId + 1) check c roles dungeons with
          id := s.proposals.lfgProposalId + 1 } s.queue env :=
      ⟨sound.players, sound.five, sound.ignores, sound.asked, sound.tank, sound.healer,
        sound.damage, sound.lfgGroups, sound.dungeon⟩
    refine ⟨⟨sameData_createProposal check c roles dungeons, fun e member => ?_⟩,
      fun _ => ⟨_, mem_insert.mpr (Or.inl rfl), rfl, sound'⟩⟩
    rcases mem_insert.mp member with rfl | ⟨old, -⟩
    · exact Or.inr sound'
    · exact Or.inl old

theorem checkCompatibility_later (env : LfgEnv) (check : List UInt64) : ∀ s : LfgSearch,
    Later env s (s.checkCompatibility env check).1 ∧
      ((s.checkCompatibility env check).2 = .isMatch →
        Proposed check env s.queue (s.checkCompatibility env check).1) := by
  induction check with
  | nil => exact fun s => ⟨.refl env s, fun impossible => by cases impossible⟩
  | cons front rest ih =>
    intro s
    unfold checkCompatibility
    split
    · exact ⟨.refl env s, fun impossible => by cases impossible⟩
    split
    · have child := (ih s).1
      dsimp only
      split
      · rename_i incompatible
        refine ⟨child.trans (later_setCompatibles _ _), fun isMatch => ?_⟩
        have isMatch : (s.checkCompatibility env rest).2 = .isMatch := isMatch
        rw [isMatch] at incompatible
        cases incompatible
      · obtain ⟨later, proposed⟩ := conclude_later env (front :: rest)
          (s.checkCompatibility env rest).1
        refine ⟨child.trans later, fun isMatch => ?_⟩
        obtain ⟨proposal, member, queues, sound⟩ := proposed isMatch
        exact ⟨proposal, member, queues, sound.of_sameData child.data⟩
    · exact conclude_later env (front :: rest) s

/-- **Every proposal that a check creates is sound**, and a match has created one of
exactly the checked GUIDs. -/
theorem checkCompatibility_sound (env : LfgEnv) (check : List UInt64) (s : LfgSearch) :
    (∀ e ∈ (s.checkCompatibility env check).1.proposals.proposalsStore,
      e ∈ s.proposals.proposalsStore ∨ e.2.Sound s.queue env) ∧
    ((s.checkCompatibility env check).2 = .isMatch →
      Proposed check env s.queue (s.checkCompatibility env check).1) :=
  ⟨(checkCompatibility_later env check s).1.sound, (checkCompatibility_later env check s).2⟩

end LfgSearch

end Sky548
