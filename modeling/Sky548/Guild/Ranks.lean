import Mathlib.Data.List.Perm.Subperm
import Sky548.Guild.Handlers
import Sky548.Machine

/-!
# The rank table from load to the last request

Ranks are found by position and stored with an id; members store a rank id. `Ranked` says that the
two agree, that the guild master's rank has every right and that no member's rank id points past the
table.
-/

namespace Sky548

open List RankTable

def grOfficer : UInt8 := 1

namespace RankInfo

/-- `LoadFromDB`: the guild master's rank has every right, whatever is stored. -/
def loadFromDB (r : RankInfo) : RankInfo :=
  { r with rights := if r.rankId = grGuildmaster then r.rights ||| grRightAll else r.rights }

def hasAll (r : RankInfo) : Prop := r.rights &&& grRightAll = grRightAll

instance (r : RankInfo) : Decidable r.hasAll := inferInstanceAs (Decidable (_ = _))

end RankInfo

def RankTable.modifyRank (t : RankTable) (rankId : UInt8) (f : RankInfo → RankInfo) : RankTable where
  toList := t.toList.modify rankId.toNat f
  minCount := by
    rw [length_modify]
    exact t.minCount
  maxCount := by
    rw [length_modify]
    exact t.maxCount

structure LoadedRanks where
  rows : List RankInfo
  nodup : (rows.map RankInfo.rankId).Nodup

structure LoadedGuild where
  id : GuildId
  leaderGuid : UInt64
  level : UInt8
  ranks : LoadedRanks
  members : Members

namespace LoadedRanks

/-- `m_ranks` after `LoadRankFromDB` of every row. -/
def toList (l : LoadedRanks) : List RankInfo := l.rows.map RankInfo.loadFromDB

/-- `_GetRanksSize`, eight bits wide. -/
def size (l : LoadedRanks) : UInt8 := UInt8.ofNat l.toList.length

/-- What `Validate` asks of the loaded ranks: their number, and that each position holds
its own id. -/
def sound (l : LoadedRanks) : Bool :=
  guildRanksMinCount ≤ l.size.toNat && l.size.toNat ≤ guildRanksMaxCount &&
    (List.range l.size.toNat).all fun rankId =>
      (l.toList[rankId]?).any fun rankInfo => rankInfo.rankId.toNat = rankId

theorem length_le (l : LoadedRanks) : l.toList.length ≤ 256 := by
  have injective : Function.Injective (UInt8.toNat) := fun a b same => UInt8.toNat_inj.mp same
  have nodup := (nodup_map_iff injective).mpr l.nodup
  have subset : ((l.rows.map RankInfo.rankId).map UInt8.toNat) ⊆ List.range 256 := by
    intro v member
    obtain ⟨id, -, rfl⟩ := List.mem_map.mp member
    exact List.mem_range.mpr id.toNat_lt
  have bound := (subperm_of_subset nodup subset).length_le
  simpa [toList] using bound

theorem length_of_sound {l : LoadedRanks} (sound : l.sound) :
    guildRanksMinCount ≤ l.toList.length ∧ l.toList.length ≤ guildRanksMaxCount ∧
      l.size.toNat = l.toList.length := by
  have bound := l.length_le
  rw [LoadedRanks.sound, Bool.and_eq_true, Bool.and_eq_true, decide_eq_true_iff,
    decide_eq_true_iff] at sound
  obtain ⟨⟨few, many⟩, -⟩ := sound
  have wrap : l.size.toNat = l.toList.length % 256 := UInt8.toNat_ofNat'
  rw [wrap, guildRanksMinCount] at few
  rw [guildRanksMinCount]
  have small : l.toList.length < 256 := by
    rcases Nat.lt_or_ge l.toList.length 256 with lt | ge
    · exact lt
    · rw [Nat.le_antisymm bound ge] at few
      omega
  rw [wrap, Nat.mod_eq_of_lt small] at many ⊢
  exact ⟨by omega, many, rfl⟩

/-- `m_ranks` once `Validate` has checked them: as loaded, or the default ranks. -/
def validate (l : LoadedRanks) (titles : RankTitles) : RankTable :=
  if sound : l.sound then
    ⟨l.toList, (length_of_sound sound).1, (length_of_sound sound).2.1⟩
  else .createDefaultGuildRanks titles

end LoadedRanks

namespace Guild

variable {g : Guild}

/-- A member of a rank id past the number of ranks gets the lowest rank. -/
def repairedRank (ranks : RankTable) (rank : UInt8) : UInt8 :=
  if rank > ranks.size then ranks.lowestRankId else rank

/-- `Validate` up to the repair of the leadership. -/
def loaded (l : LoadedGuild) (titles : RankTitles) : Guild :=
  let ranks := l.ranks.validate titles
  let g : Guild :=
    { id := l.id
      leaderGuid := l.leaderGuid
      level := l.level
      ranks := ranks
      members := l.members }
  g.mapRanks (repairedRank ranks)

/-- Whoever has the guild master's rank beside the leader becomes an officer. -/
def soleGuildMaster (g : Guild) : Guild :=
  { g with
    members := g.members.update (fun m =>
        if m.rankId = grGuildmaster && !m.isSamePlayer g.leaderGuid then m.changeRank grOfficer
        else m)
      (fun m => by split <;> rfl) }

/-- The leadership part of `Validate`; `none` when the guild is disbanded. -/
def repairLeader (g : Guild) : Option Guild :=
  match g.getMember g.leaderGuid with
  | none =>
    match g.deleteMember g.leaderGuid with
    | none => none
    | some g => if g.members.size = 0 then none else some g
  | some leader => if !leader.isRank grGuildmaster then some (g.setLeaderGUID leader) else some g

/-- `Validate`; `allowMultiple` is the option `Guild.AllowMultipleGuildMaster`. -/
def validate (l : LoadedGuild) (titles : RankTitles) (allowMultiple : Bool) : Option Guild :=
  ((loaded l titles).repairLeader).map fun g => if allowMultiple then g else g.soleGuildMaster

def handleSetRankInfo (g : Guild) (player : UInt64) (rankId : UInt8) (name : String)
    (rights : UInt32) : Guild :=
  if !g.isLeader player then g
  else if rankId < g.ranks.size then
    { g with ranks := g.ranks.modifyRank rankId fun r => (r.setName name).setRights rights }
  else g

/-- `ChangeMemberRank`: only to a rank that exists. -/
def changeMemberRank (g : Guild) (guid : UInt64) (newRank : UInt8) : Guild :=
  if newRank ≤ g.ranks.lowestRankId then
    match g.getMember guid with
    | some _ => g.changeRankOf (guidLoPart guid) newRank
    | none => g
  else g

end Guild

/-- Positions hold their own ids and the first rank has every right. -/
structure RankTable.Sound (t : RankTable) : Prop where
  ids : ∀ (i : Nat) r, t.toList[i]? = some r → r.rankId.toNat = i
  master : ∀ r, t.toList[0]? = some r → r.hasAll

namespace RankTable

variable {t : RankTable}

theorem hasAll_grRightAll (r : RankInfo) : { r with rights := grRightAll }.hasAll := by
  change grRightAll &&& grRightAll = grRightAll
  decide

theorem hasAll_setRights {r : RankInfo} (master : r.rankId = grGuildmaster) (rights : UInt32) :
    (r.setRights rights).hasAll := by
  rw [RankInfo.setRights, if_pos master]
  exact hasAll_grRightAll r

theorem hasAll_loadFromDB {r : RankInfo} (master : r.rankId = grGuildmaster) :
    r.loadFromDB.hasAll := by
  rw [RankInfo.loadFromDB, if_pos master]
  change (r.rights ||| grRightAll) &&& grRightAll = grRightAll
  rw [← UInt32.toBitVec_inj]
  ext i small
  simp only [UInt32.toBitVec_and, UInt32.toBitVec_or, BitVec.getElem_and, BitVec.getElem_or]
  cases r.rights.toBitVec[i] <;> cases grRightAll.toBitVec[i] <;> rfl

theorem Sound.rankId_zero (sound : t.Sound) {r : RankInfo} (first : t.toList[0]? = some r) :
    r.rankId = grGuildmaster :=
  UInt8.toNat_inj.mp (sound.ids 0 r first)

theorem sound_createDefaultGuildRanks (titles : RankTitles) :
    (createDefaultGuildRanks titles).Sound where
  ids := by
    intro i r found
    rcases i with _ | _ | _ | _ | _ | i
    · cases found; rfl
    · cases found; rfl
    · cases found; rfl
    · cases found; rfl
    · cases found; rfl
    · simp [createDefaultGuildRanks] at found
  master := by
    intro r found
    cases found
    exact hasAll_grRightAll ⟨0, titles.guildMaster, grRightAll⟩

theorem Sound.createRank (sound : t.Sound) (name : String) (rights : UInt32) :
    (t.createRank name rights).Sound := by
  rw [RankTable.createRank]
  split
  · constructor
    · intro i r found
      rcases Nat.lt_trichotomy i t.toList.length with old | new | past
      · rw [getElem?_append_left old] at found
        exact sound.ids i r found
      · subst new
        rw [getElem?_append_right (Nat.le_refl _), Nat.sub_self] at found
        cases found
        exact t.size_toNat
      · have none : (t.toList ++ [(⟨t.size, name, rights⟩ : RankInfo)])[i]? = none := by
          rw [List.getElem?_eq_none_iff, length_append, length_singleton]
          exact past
        rw [none] at found
        cases found
    · intro r found
      rw [getElem?_append_left (Nat.lt_of_lt_of_le Nat.two_pos t.two_le_length)] at found
      exact sound.master r found
  · exact sound

theorem Sound.modifyRank (sound : t.Sound) (rankId : UInt8) (name : String) (rights : UInt32) :
    (t.modifyRank rankId fun r => (r.setName name).setRights rights).Sound := by
  have entry : ∀ (i : Nat) r, (t.modifyRank rankId fun r => (r.setName name).setRights rights).toList[i]? =
      some r → t.toList[i]? = some r ∨
        ∃ old : RankInfo, t.toList[i]? = some old ∧ r = (old.setName name).setRights rights := by
    intro i r found
    change (t.toList.modify _ _)[i]? = some r at found
    rw [getElem?_modify] at found
    rcases was : t.toList[i]? with _ | old
    · simp [was] at found
    rw [was] at found
    split at found
    · cases found
      exact Or.inr ⟨old, rfl, rfl⟩
    · cases found
      exact Or.inl rfl
  constructor
  · intro i r found
    rcases entry i r found with same | ⟨old, was, rfl⟩
    · exact sound.ids i r same
    · exact sound.ids i old was
  · intro r found
    rcases entry 0 r found with same | ⟨old, was, rfl⟩
    · exact sound.master r same
    · exact hasAll_setRights (sound.rankId_zero was) rights

variable {rankId : UInt8}

theorem size_of_lt (inRange : rankId < t.size) :
    rankId.toNat < t.toList.length := by
  rwa [UInt8.lt_iff_toNat_lt, size_toNat] at inRange

theorem getElem?_removeRank (sound : t.Sound)
    (room : guildRanksMinCount < t.toList.length) (i : Nat) :
    (t.removeRank rankId).toList[i]? =
      if i < rankId.toNat then t.toList[i]?
      else (t.toList[i + 1]?).map fun r => r.setId (r.rankId - 1) := by
  rw [removeRank, dif_pos room]
  rw [getElem?_map, getElem?_eraseIdx]
  split
  · rename_i before
    rcases found : t.toList[i]? with _ | r
    · rfl
    have id := sound.ids i r found
    rw [Option.map_some, if_neg]
    rw [gt_iff_lt, UInt8.lt_iff_toNat_lt, id]
    omega
  · rename_i behind
    rcases found : t.toList[i + 1]? with _ | r
    · rfl
    have id := sound.ids (i + 1) r found
    rw [Option.map_some, Option.map_some, if_pos]
    rw [gt_iff_lt, UInt8.lt_iff_toNat_lt, id]
    omega

theorem sound_removeRank_iff (sound : t.Sound) (room : guildRanksMinCount < t.toList.length):
    (t.removeRank rankId).Sound ↔
      (rankId = grGuildmaster → ∀ r, t.toList[1]? = some r → r.hasAll) := by
  constructor
  · rintro after rfl r found
    have first : (t.removeRank grGuildmaster).toList[0]? = _ := getElem?_removeRank sound room 0
    rw [if_neg (by decide), found, Option.map_some] at first
    have all := after.master _ first
    exact all
  · intro next
    constructor
    · intro i r found
      rw [getElem?_removeRank sound room] at found
      split at found
      · exact sound.ids i r found
      obtain ⟨old, was, rfl⟩ := Option.map_eq_some_iff.mp found
      have id := sound.ids (i + 1) old was
      have one : (1 : UInt8) ≤ old.rankId := by
        rw [UInt8.le_iff_toNat_le, id]
        exact Nat.le_add_left 1 i
      rw [RankInfo.setId, UInt8.toNat_sub_of_le _ _ one, id]
      rfl
    · intro r found
      rw [getElem?_removeRank sound room] at found
      split at found
      · exact sound.master r found
      rename_i first
      obtain ⟨old, was, rfl⟩ := Option.map_eq_some_iff.mp found
      have zero : rankId = grGuildmaster := by
        rw [← UInt8.toNat_inj]
        exact Nat.le_zero.mp (Nat.not_lt.mp first)
      exact next zero old was

theorem length_removeRank (room : guildRanksMinCount < t.toList.length) (inRange : rankId < t.size): (t.removeRank rankId).toList.length = t.toList.length - 1 := by
  rw [removeRank, dif_pos room]
  rw [length_map, length_eraseIdx, if_pos (size_of_lt inRange)]

theorem getElem?_set_set {l : List RankInfo} {i j : Nat} {a b : RankInfo} (inI : i < l.length)
    (inJ : j < l.length) (k : Nat) : ((l.set i a).set j b)[k]? =
      if j = k then some b else if i = k then some a else l[k]? := by
  rw [getElem?_set, getElem?_set, length_set]
  by_cases last : j = k
  · rw [if_pos last, if_pos last, if_pos (last ▸ inJ)]
  rw [if_neg last, if_neg last]
  by_cases here : i = k
  · rw [if_pos here, if_pos here, if_pos (here ▸ inI)]
  · rw [if_neg here, if_neg here]

theorem getElem?_swapRanks {i j : UInt8} {a b : RankInfo} (first : t.toList[i.toNat]? = some a)
    (second : t.toList[j.toNat]? = some b) (k : Nat) :
    (t.swapRanks i j).toList[k]? =
      if j.toNat = k then some (a.setId j) else if i.toNat = k then some (b.setId i)
      else t.toList[k]? := by
  rw [swapRanks, first, second]
  exact getElem?_set_set (List.getElem?_eq_some_iff.mp first).1 (List.getElem?_eq_some_iff.mp second).1 k

theorem length_swapRanks (i j : UInt8) : (t.swapRanks i j).toList.length = t.toList.length := by
  rw [swapRanks]
  split
  · rw [length_set, length_set]
  · rfl

theorem sound_swapRanks_iff (sound : t.Sound) {i j : UInt8} {a b : RankInfo}
    (first : t.toList[i.toNat]? = some a) (second : t.toList[j.toNat]? = some b) (apart : i ≠ j) :
    (t.swapRanks i j).Sound ↔ (i = grGuildmaster → b.hasAll) ∧ (j = grGuildmaster → a.hasAll) := by
  constructor
  · intro after
    refine ⟨?_, ?_⟩
    · rintro rfl
      refine after.master (b.setId grGuildmaster) ?_
      rw [getElem?_swapRanks first second, if_neg, if_pos (by rfl)]
      intro same
      exact apart (UInt8.toNat_inj.mp same.symm)
    · rintro rfl
      refine after.master (a.setId grGuildmaster) ?_
      rw [getElem?_swapRanks first second, if_pos (by rfl)]
  · rintro ⟨toFirst, toSecond⟩
    constructor
    · intro k r found
      rw [getElem?_swapRanks first second] at found
      split at found
      · rename_i here
        cases found
        exact here
      split at found
      · rename_i here
        cases found
        exact here
      · exact sound.ids k r found
    · intro r found
      rw [getElem?_swapRanks first second] at found
      split at found
      · rename_i here
        cases found
        exact toSecond (UInt8.toNat_inj.mp here)
      split at found
      · rename_i here
        cases found
        exact toFirst (UInt8.toNat_inj.mp here)
      · exact sound.master r found

theorem Sound.exchangeNameAndRights (sound : t.Sound) (i j : Nat) :
    (t.exchangeNameAndRights i j).Sound := by
  rw [RankTable.exchangeNameAndRights]
  rcases first : t.toList[i]? with _ | a
  · exact sound
  rcases second : t.toList[j]? with _ | b
  · exact sound
  have inFirst := (List.getElem?_eq_some_iff.mp first).1
  have inSecond := (List.getElem?_eq_some_iff.mp second).1
  have entry : ∀ (k : Nat) r, ((t.toList.set j ((b.setName a.name).setRights a.rights)).set i
        ((a.setName b.name).setRights b.rights))[k]? = some r →
      t.toList[k]? = some r ∨ ∃ old : RankInfo, ∃ name rights,
        t.toList[k]? = some old ∧ r = (old.setName name).setRights rights := by
    intro k r found
    rw [getElem?_set, getElem?_set, length_set] at found
    by_cases here : i = k
    · rw [if_pos here, if_pos (here ▸ inFirst)] at found
      cases found
      exact Or.inr ⟨a, _, _, here ▸ first, rfl⟩
    rw [if_neg here] at found
    by_cases there : j = k
    · rw [if_pos there, if_pos (there ▸ inSecond)] at found
      cases found
      exact Or.inr ⟨b, _, _, there ▸ second, rfl⟩
    · rw [if_neg there] at found
      exact Or.inl found
  constructor
  · intro k r found
    rcases entry k r found with same | ⟨old, name, rights, was, rfl⟩
    · exact sound.ids k r same
    · exact sound.ids k old was
  · intro r found
    rcases entry 0 r found with same | ⟨old, name, rights, was, rfl⟩
    · exact sound.master r same
    · exact hasAll_setRights (sound.rankId_zero was) rights

end RankTable

namespace Guild

variable {g g' : Guild}

/-- **The rank table is well formed.** -/
structure Ranked (g : Guild) : Prop where
  count : guildRanksMinCount ≤ g.ranks.toList.length ∧ g.ranks.toList.length ≤ guildRanksMaxCount
  table : g.ranks.Sound
  members : ∀ m ∈ g.members, m.rankId.toNat < g.ranks.toList.length

theorem ranked_of (table : g.ranks.Sound)
    (members : ∀ m ∈ g.members, m.rankId.toNat < g.ranks.toList.length) : g.Ranked :=
  ⟨⟨g.ranks.minCount, g.ranks.maxCount⟩, table, members⟩

theorem LoadedRanks.sound_validate (l : LoadedRanks) (titles : RankTitles) :
    (l.validate titles).Sound := by
  rw [LoadedRanks.validate]
  split
  · rename_i sound
    obtain ⟨-, -, size⟩ := LoadedRanks.length_of_sound sound
    have ids : ∀ (i : Nat) r, l.toList[i]? = some r → r.rankId.toNat = i := by
      intro i r found
      rw [LoadedRanks.sound, Bool.and_eq_true, List.all_eq_true] at sound
      have small := (List.getElem?_eq_some_iff.mp found).1
      have here := sound.2 i (by rw [mem_range, size]; exact small)
      rw [found] at here
      simpa using here
    constructor
    · exact ids
    · intro r found
      obtain ⟨row, -, rfl⟩ := List.mem_map.mp (mem_of_getElem? found)
      have zero : row.loadFromDB.rankId.toNat = 0 := ids 0 _ found
      exact hasAll_loadFromDB (UInt8.toNat_inj.mp zero)
  · exact sound_createDefaultGuildRanks titles

theorem rankId_loaded {l : LoadedGuild} {titles : RankTitles} {m : Member}
    (member : m ∈ (loaded l titles).members) :
    m.rankId.toNat ≤ (loaded l titles).ranks.toList.length := by
  obtain ⟨old, -, rfl⟩ := mem_mapRanks.mp member
  change (repairedRank _ _).toNat ≤ (l.ranks.validate titles).toList.length
  rw [repairedRank]
  split
  · rw [lowestRankId_toNat]
    exact Nat.sub_le _ _
  · rename_i within
    rw [gt_iff_lt, UInt8.lt_iff_toNat_lt, size_toNat] at within
    exact Nat.not_lt.mp within

/-- The member whom the leadership repair finds or makes the leader. -/
def Leads (g : Guild) (m : Member) : Prop :=
  g.getMember g.leaderGuid = some m ∨
    g.getMember g.leaderGuid = none ∧ g.newLeader? (guidLoPart g.leaderGuid) = some m

instance (g : Guild) (m : Member) : Decidable (g.Leads m) := inferInstanceAs (Decidable (_ ∨ _))

theorem repairLeader_spec (repaired : g.repairLeader = some g') :
    ∃ leader ∈ g.members, g.Leads leader ∧ g'.ranks = g.ranks ∧
      ∀ m', m' ∈ g'.members ↔ ∃ m ∈ g.members,
        m' = if m.lowGuid = leader.lowGuid then m.changeRank grGuildmaster else m := by
  rw [repairLeader] at repaired
  cases found : g.getMember g.leaderGuid with
  | none =>
    rw [found] at repaired
    have absent := KeyedList.find?_eq_none_iff.mp found
    rw [deleteMember, if_pos ⟨rfl, rfl⟩] at repaired
    cases next : g.newLeader? (guidLoPart g.leaderGuid) with
    | none =>
      rw [next] at repaired
      cases repaired
    | some leader =>
      rw [next] at repaired
      rw [Option.ite_none_left_eq_some] at repaired
      obtain ⟨-, same⟩ := repaired
      cases same
      refine ⟨leader, (newLeader?_mem next).1, Or.inr ⟨found, next⟩, rfl, fun m' => ?_⟩
      rw [mem_eraseMember, mem_setLeaderGUID]
      constructor
      · rintro ⟨kept, -⟩
        exact kept
      rintro ⟨m, member, rfl⟩
      refine ⟨⟨m, member, rfl⟩, ?_⟩
      split
      · exact absent m member
      · exact absent m member
  | some leader =>
    rw [found] at repaired
    dsimp only at repaired
    have member := (getMember_eq_some_iff.mp found).1
    refine ⟨leader, member, Or.inl found, ?_⟩
    split at repaired
    · cases repaired
      exact ⟨rfl, fun m' => mem_setLeaderGUID⟩
    rename_i master
    cases repaired
    have rank : leader.rankId = grGuildmaster := by simpa [Member.isRank] using master
    refine ⟨rfl, fun m' => ?_⟩
    constructor
    · intro isMember
      refine ⟨m', isMember, ?_⟩
      split
      · rename_i key
        have same := KeyedList.eq_of_key_eq isMember member key
        rw [same, ← rank]
        rfl
      · rfl
    · rintro ⟨m, isMember, rfl⟩
      split
      · rename_i key
        have same := KeyedList.eq_of_key_eq isMember member key
        rw [same, ← rank]
        exact member
      · exact isMember

theorem leads_unique {m n : Member} (hm : g.Leads m) (hn : g.Leads n) : m = n := by
  rcases hm with here | ⟨none, next⟩
  · rcases hn with here' | ⟨none, -⟩
    · rw [here] at here'
      exact Option.some.inj here'
    · rw [here] at none
      cases none
  · rcases hn with here' | ⟨-, next'⟩
    · rw [none] at here'
      cases here'
    · rw [next] at next'
      exact Option.some.inj next'

theorem members_soleGuildMaster_iff :
    (∀ m ∈ g.soleGuildMaster.members, m.rankId.toNat < g.ranks.toList.length) ↔
      ∀ m ∈ g.members, m.rankId.toNat < g.ranks.toList.length := by
  have two := g.ranks.two_le_length
  have mem : ∀ m', m' ∈ g.soleGuildMaster.members ↔ ∃ m ∈ g.members,
      (if m.rankId = grGuildmaster && !m.isSamePlayer g.leaderGuid then m.changeRank grOfficer
        else m) = m' := by
    intro m'
    rw [soleGuildMaster, KeyedList.mem_update]
  constructor
  · intro after m member
    have within := after _ ((mem _).mpr ⟨m, member, rfl⟩)
    split at within
    · rename_i master
      rw [Bool.and_eq_true, decide_eq_true_iff] at master
      rw [master.1]
      exact Nat.lt_of_lt_of_le Nat.two_pos two
    · exact within
  · intro before m' member
    obtain ⟨m, isMember, rfl⟩ := (mem m').mp member
    split
    · exact Nat.lt_of_lt_of_le Nat.one_lt_two two
    · exact before m isMember

/-- What `Validate` overlooks: a rank id that is exactly the number of ranks. Only the one
who leads the guild may have it, because he gets another. -/
def LoadsWell (l : LoadedGuild) (titles : RankTitles) : Prop :=
  ∀ m ∈ (loaded l titles).members, m.rankId = (loaded l titles).ranks.size →
    (loaded l titles).Leads m

theorem ranked_validate_iff {l : LoadedGuild} {titles : RankTitles} {allowMultiple : Bool}
    (validated : validate l titles allowMultiple = some g) : g.Ranked ↔ LoadsWell l titles := by
  obtain ⟨g', repaired, rfl⟩ := Option.map_eq_some_iff.mp validated
  obtain ⟨leader, isLeader, leads, ranks, mem⟩ := repairLeader_spec repaired
  have table : g'.ranks.Sound := by
    rw [ranks]
    exact LoadedRanks.sound_validate l.ranks titles
  have two := g'.ranks.two_le_length
  have reduce : (if allowMultiple then g' else g'.soleGuildMaster).Ranked ↔
      ∀ m ∈ g'.members, m.rankId.toNat < g'.ranks.toList.length := by
    split
    · exact ⟨fun ranked => ranked.members, ranked_of table⟩
    · rw [← members_soleGuildMaster_iff]
      exact ⟨fun ranked => ranked.members, ranked_of (g := g'.soleGuildMaster) table⟩
  rw [reduce]
  constructor
  · intro within m member past
    by_contra notLeader
    have other : m.lowGuid ≠ leader.lowGuid := by
      intro key
      exact notLeader (KeyedList.eq_of_key_eq member isLeader key ▸ leads)
    have bound := within m ((mem m).mpr ⟨m, member, by rw [if_neg other]⟩)
    rw [past, ranks, size_toNat] at bound
    exact absurd bound (Nat.lt_irrefl _)
  · intro well m' member
    obtain ⟨m, isMember, rfl⟩ := (mem m').mp member
    split
    · exact Nat.lt_of_lt_of_le Nat.two_pos two
    rename_i other
    refine Nat.lt_of_le_of_ne (ranks ▸ rankId_loaded isMember) fun past => other ?_
    have size : m.rankId = (loaded l titles).ranks.size := by
      rw [← UInt8.toNat_inj, size_toNat, past, ranks]
    rw [leads_unique (well m isMember size) leads]

theorem Ranked.lowestRankId_lt (_ : g.Ranked) :
    g.ranks.lowestRankId.toNat < g.ranks.toList.length := by
  rw [lowestRankId_toNat]
  have := g.ranks.two_le_length
  omega

section

variable (ranked : g.Ranked)

include ranked

theorem Ranked.changeRankOf (key : UInt32) {newRank : UInt8}
    (exists' : newRank.toNat < g.ranks.toList.length) : (g.changeRankOf key newRank).Ranked := by
  refine ranked_of ranked.table fun m member => ?_
  obtain ⟨old, oldMember, rfl⟩ := mem_changeRankOf.mp member
  split
  · exact exists'
  · exact ranked.members old oldMember

theorem Ranked.setLeaderGUID (leader : Member) : (g.setLeaderGUID leader).Ranked := by
  have first : grGuildmaster.toNat < g.ranks.toList.length :=
    Nat.lt_of_lt_of_le Nat.two_pos g.ranks.two_le_length
  exact Ranked.changeRankOf (g := { g with leaderGuid := leader.guid })
    (ranked_of ranked.table ranked.members) leader.lowGuid first

theorem Ranked.throne (old new : Member) : (g.throne old new).Ranked :=
  (ranked.setLeaderGUID new).changeRankOf old.lowGuid ranked.lowestRankId_lt

theorem Ranked.eraseMember (key : UInt32) : (g.eraseMember key).Ranked :=
  ranked_of ranked.table fun m member => ranked.members m (mem_eraseMember.mp member).1

theorem Ranked.deleteMember {guid : UInt64} {isDisbanding : Bool}
    (deleted : g.deleteMember guid isDisbanding = some g') : g'.Ranked := by
  unfold Guild.deleteMember at deleted
  split at deleted
  · split at deleted
    · cases deleted
    · cases deleted
      exact (ranked.setLeaderGUID _).eraseMember _
  · cases deleted
    exact ranked.eraseMember _

theorem Ranked.addMember (guid : UInt64) (name : String) (now : UInt64) :
    (g.addMember guid name now).Ranked := by
  refine ranked_of ranked.table fun m member => ?_
  rcases KeyedList.mem_insert.mp member with rfl | ⟨old, -⟩
  · exact ranked.lowestRankId_lt
  · exact ranked.members m old

theorem Ranked.changeMemberRank (guid : UInt64) (newRank : UInt8) :
    (g.changeMemberRank guid newRank).Ranked := by
  rw [Guild.changeMemberRank]
  split
  · rename_i low
    split
    · refine ranked.changeRankOf _ (Nat.lt_of_le_of_lt ?_ ranked.lowestRankId_lt)
      exact UInt8.le_iff_toNat_le.mp low
    · exact ranked
  · exact ranked

theorem Ranked.withRanks {ranks : RankTable} (table : ranks.Sound)
    (longer : g.ranks.toList.length ≤ ranks.toList.length) :
    { g with ranks := ranks }.Ranked :=
  ranked_of table fun m member => Nat.lt_of_lt_of_le (ranked.members m member) longer

/-! ## The rank table -/

theorem Ranked.handleAddNewRank (player : UInt64) (name : String) :
    (g.handleAddNewRank player name).Ranked := by
  rw [Guild.handleAddNewRank]
  split
  · exact ranked
  split
  · refine ranked.withRanks (ranked.table.createRank _ _) ?_
    rw [RankTable.createRank]
    split
    · exact (sublist_append_left _ _).length_le
    · exact Nat.le_refl _
  · exact ranked

theorem Ranked.handleUpdateRank (player : UInt64) (guildID : UInt32)
    (rankId : Bool) : (g.handleUpdateRank player guildID rankId).1.Ranked := by
  rw [Guild.handleUpdateRank]
  split
  · exact ranked
  dsimp only
  split
  · refine ranked.withRanks (ranked.table.exchangeNameAndRights _ _) ?_
    rw [RankTable.exchangeNameAndRights]
    split
    · rw [length_set, length_set]
    · exact Nat.le_refl _
  · exact ranked

theorem Ranked.handleSetRankInfo (player : UInt64) (rankId : UInt8)
    (name : String) (rights : UInt32) : (g.handleSetRankInfo player rankId name rights).Ranked := by
  rw [Guild.handleSetRankInfo]
  split
  · exact ranked
  split
  · refine ranked.withRanks (ranked.table.modifyRank rankId name rights) ?_
    rw [RankTable.modifyRank, length_modify]
  · exact ranked

end

/-- Every right of `GR_RIGHT_ALL` in the rank below the guild master's. -/
def SecondHasAll (g : Guild) : Prop := ∀ r, g.ranks.toList[1]? = some r → r.hasAll

variable {player : UInt64}

theorem ranked_handleRemoveRank_iff (ranked : g.Ranked) {rankId : UInt8} :
    (g.handleRemoveRank player rankId).Ranked ↔
      (g.mayRemoveRank player rankId → (rankId = grGuildmaster → g.SecondHasAll) ∧
        (rankId = g.ranks.lowestRankId → ∀ m ∈ g.members, m.rankId ≠ g.ranks.lowestRankId)) := by
  rw [handleRemoveRank]
  rcases may : g.mayRemoveRank player rankId with _ | _
  · exact iff_of_true ranked (by simp)
  rw [mayRemoveRank, Bool.and_eq_true, Bool.and_eq_true, decide_eq_true_iff, gt_iff_lt,
    size_toNat, decide_eq_true_iff] at may
  obtain ⟨⟨room, inRange⟩, -⟩ := may
  have length := length_removeRank room inRange
  have within := size_of_lt inRange
  have table : (g.ranks.removeRank rankId).Sound ↔ _ :=
    sound_removeRank_iff ranked.table room
  have mem : ∀ m', m' ∈ (Guild.mapRanks { g with ranks := g.ranks.removeRank rankId }
      (rankAfterRemoval rankId)).members ↔
      ∃ m ∈ g.members, m' = m.changeRank (rankAfterRemoval rankId m.rankId) :=
    fun m' => mem_mapRanks
  rw [if_pos rfl]
  constructor
  · intro after _
    refine ⟨table.mp after.table, ?_⟩
    rintro rfl m member lowest
    have bound := after.members _ ((mem _).mpr ⟨m, member, rfl⟩)
    change (rankAfterRemoval _ _).toNat < (g.ranks.removeRank _).toList.length at bound
    rw [lowest, rankAfterRemoval, if_neg (UInt8.lt_irrefl _), length, lowestRankId_toNat] at bound
    exact absurd bound (Nat.lt_irrefl _)
  · intro kept
    obtain ⟨master, lowest⟩ := kept rfl
    refine ranked_of (table.mpr master) fun m' member => ?_
    obtain ⟨m, isMember, rfl⟩ := (mem m').mp member
    change (rankAfterRemoval _ _).toNat < (g.ranks.removeRank _).toList.length
    have bound := ranked.members m isMember
    rw [length, rankAfterRemoval]
    split
    · rename_i lower
      rw [gt_iff_lt, UInt8.lt_iff_toNat_lt] at lower
      have one : (1 : UInt8) ≤ m.rankId := by
        rw [UInt8.le_iff_toNat_le]
        exact Nat.succ_le_of_lt (Nat.lt_of_le_of_lt (Nat.zero_le _) lower)
      rw [UInt8.toNat_sub_of_le _ _ one]
      change m.rankId.toNat - 1 < _
      omega
    · rename_i notLower
      rw [gt_iff_lt, UInt8.lt_iff_toNat_lt] at notLower
      by_cases last : rankId = g.ranks.lowestRankId
      · have other := lowest last m isMember
        rw [last, lowestRankId_toNat] at notLower
        have apart : m.rankId.toNat ≠ g.ranks.toList.length - 1 := by
          intro same
          apply other
          rw [← UInt8.toNat_inj, lowestRankId_toNat, same]
        omega
      · have apart : rankId.toNat ≠ g.ranks.toList.length - 1 := by
          intro same
          apply last
          rw [← UInt8.toNat_inj, lowestRankId_toNat, same]
        omega

theorem switchPartner_spec {rankId other : UInt8} {up : Bool}
    (partner : g.switchPartner rankId up = some other) :
    rankId.toNat < g.ranks.toList.length ∧ other.toNat < g.ranks.toList.length ∧
      (other.toNat + 1 = rankId.toNat ∨ rankId.toNat + 1 = other.toNat) := by
  have ten := g.ranks.length_le
  rw [switchPartner, Option.ite_none_left_eq_some, Option.ite_none_left_eq_some] at partner
  obtain ⟨inRange, notEnd, next⟩ := partner
  cases next
  have within := size_of_lt (UInt8.not_le.mp inRange)
  rw [not_or, not_and, not_and] at notEnd
  cases up with
  | true =>
    have positive : rankId ≠ 0 := fun zero => notEnd.1 zero rfl
    have one : (1 : UInt8) ≤ rankId := by
      rw [UInt8.le_iff_toNat_le]
      refine Nat.succ_le_of_lt (Nat.pos_of_ne_zero fun zero => positive ?_)
      exact UInt8.toNat_inj.mp zero
    have next := UInt8.toNat_sub_of_le _ _ one
    rw [UInt8.le_iff_toNat_le] at one
    change 1 ≤ rankId.toNat at one
    change (rankId - 1).toNat = rankId.toNat - 1 at next
    rw [if_pos rfl]
    omega
  | false =>
    have notLowest : rankId.toNat ≠ g.ranks.toList.length - 1 := by
      intro same
      refine notEnd.2 (UInt8.toNat_inj.mp ?_) rfl
      rw [lowestRankId_toNat, same]
    have next : (rankId + 1).toNat = rankId.toNat + 1 := by
      rw [UInt8.toNat_add]
      change (rankId.toNat + 1) % 256 = _
      omega
    rw [if_neg Bool.false_ne_true]
    omega

theorem ranked_handleSwitchRank_iff (ranked : g.Ranked) {rankId : UInt8} {up : Bool} :
    (g.handleSwitchRank rankId up).Ranked ↔ ∀ other, g.switchPartner rankId up = some other →
        rankId = grGuildmaster ∨ other = grGuildmaster → g.SecondHasAll := by
  rw [handleSwitchRank]
  cases partner : g.switchPartner rankId up with
  | none =>
    refine iff_of_true ranked ?_
    intro other found
    cases found
  | some other =>
    obtain ⟨inFirst, inSecond, neighbours⟩ := switchPartner_spec partner
    obtain ⟨a, first⟩ := List.getElem?_eq_some_iff.mpr ⟨inFirst, rfl⟩ |> fun h => (⟨_, h⟩ :
      ∃ a, g.ranks.toList[rankId.toNat]? = some a)
    obtain ⟨b, second⟩ := List.getElem?_eq_some_iff.mpr ⟨inSecond, rfl⟩ |> fun h => (⟨_, h⟩ :
      ∃ b, g.ranks.toList[other.toNat]? = some b)
    have apart : rankId ≠ other := by
      rintro rfl
      omega
    have table := sound_swapRanks_iff ranked.table first second apart
    have members : ∀ m' ∈ (Guild.mapRanks { g with ranks := g.ranks.swapRanks rankId other }
        (rankAfterSwitch rankId other)).members,
        m'.rankId.toNat < (g.ranks.swapRanks rankId other).toList.length := by
      intro m' member
      obtain ⟨m, isMember, rfl⟩ := mem_mapRanks.mp member
      rw [length_swapRanks, rankAfterSwitch]
      split
      · exact inSecond
      · split
        · exact inFirst
        · exact ranked.members m isMember
    have whole : (Guild.mapRanks { g with ranks := g.ranks.swapRanks rankId other }
        (rankAfterSwitch rankId other)).Ranked ↔ (g.ranks.swapRanks rankId other).Sound :=
      ⟨fun after => after.table, fun sound => ranked_of sound members⟩
    rw [whole, table]
    constructor
    · rintro ⟨toFirst, toSecond⟩ _ ⟨⟩ either r found
      rcases either with rfl | rfl
      · have one : other.toNat = 1 := by
          change other.toNat + 1 = 0 ∨ 0 + 1 = other.toNat at neighbours
          omega
        rw [one, found] at second
        cases second
        exact toFirst rfl
      · have one : rankId.toNat = 1 := by
          change 0 + 1 = rankId.toNat ∨ rankId.toNat + 1 = 0 at neighbours
          omega
        rw [one, found] at first
        cases first
        exact toSecond rfl
    · intro kept
      refine ⟨?_, ?_⟩
      · rintro rfl
        have one : other.toNat = 1 := by
          change other.toNat + 1 = 0 ∨ 0 + 1 = other.toNat at neighbours
          omega
        exact kept other rfl (Or.inl rfl) b (one ▸ second)
      · rintro rfl
        have one : rankId.toNat = 1 := by
          change 0 + 1 = rankId.toNat ∨ rankId.toNat + 1 = 0 at neighbours
          omega
        exact kept grGuildmaster rfl (Or.inr rfl) a (one ▸ first)

theorem ranked_handleSetMemberRank_iff (ranked : g.Ranked) {guid : UInt64} {rank : UInt32} :
    (g.handleSetMemberRank player guid rank).1.Ranked ↔
      ∀ member, g.getMember guid = some member → g.MaySetRank player member rank →
        rank.toUInt8 < g.ranks.size := by
  rcases handleSetMemberRank_cases g player guid rank with
    ⟨same, refused⟩ | ⟨member, found, may, changed⟩
  · rw [same]
    exact iff_of_true ranked fun member found may => absurd may (refused member found)
  rw [changed]
  constructor
  · intro after other found' may'
    have isMember := (getMember_eq_some_iff.mp found).1
    have bound := after.members _ (mem_changeRankOf.mpr ⟨member, isMember, rfl⟩)
    rw [if_pos rfl] at bound
    rw [UInt8.lt_iff_toNat_lt, size_toNat]
    exact bound
  · intro within
    have exists' := within member found may
    rw [UInt8.lt_iff_toNat_lt, size_toNat] at exists'
    exact ranked.changeRankOf _ exists'

/-- Promoting and demoting by one never leaves a well formed table. -/
theorem Ranked.handleUpdateMemberRank (ranked : g.Ranked) (player guid : UInt64) (demote : Bool) :
    (g.handleUpdateMemberRank player guid demote).1.Ranked := by
  have ten := g.ranks.length_le
  rcases handleUpdateMemberRank_cases g player guid demote with
    ⟨same, -⟩ | ⟨memberMe, member, -, found, ⟨-, -, ranks⟩, changed⟩
  · rw [same]
    exact ranked
  rw [changed]
  refine ranked.changeRankOf _ ?_
  have bound := ranked.members member (getMember_eq_some_iff.mp found).1
  cases demote with
  | true =>
    have notLowest := ranks.2
    rw [UInt8.lt_iff_toNat_lt, lowestRankId_toNat] at notLowest
    rw [if_pos rfl, UInt8.toNat_add]
    change (member.rankId.toNat + 1) % 256 < _
    omega
  | false =>
    have above : memberMe.rankId + 1 < member.rankId := by
      have notHigher : ¬ member.isRankNotLower (memberMe.rankId + 1) := ranks
      rw [Member.isRankNotLower, decide_eq_true_iff, UInt8.not_le] at notHigher
      exact notHigher
    rw [UInt8.lt_iff_toNat_lt] at above
    have one : (1 : UInt8) ≤ member.rankId := by
      rw [UInt8.le_iff_toNat_le]
      exact Nat.succ_le_of_lt (Nat.lt_of_le_of_lt (Nat.zero_le _) above)
    rw [if_neg Bool.false_ne_true, UInt8.toNat_sub_of_le _ _ one]
    omega

/-- A request that keeps the rank table well formed. -/
def KeepsRanks (g : Guild) (player : UInt64) : Request → Prop
  | .removeRank rankId =>
    g.mayRemoveRank player rankId.toUInt8 → (rankId.toUInt8 = grGuildmaster → g.SecondHasAll) ∧
      (rankId.toUInt8 = g.ranks.lowestRankId → ∀ m ∈ g.members, m.rankId ≠ g.ranks.lowestRankId)
  | .switchRank rankId up =>
    player = g.leaderGuid → ∀ other, g.switchPartner rankId.toUInt8 up = some other →
      rankId.toUInt8 = grGuildmaster ∨ other = grGuildmaster → g.SecondHasAll
  | .setMemberRank guid rank =>
    ∀ member, g.getMember guid = some member → g.MaySetRank player member rank →
      rank.toUInt8 < g.ranks.size
  | _ => True

theorem ranked_handle_iff (ranked : g.Ranked) {r : Request} :
    (∀ g', g.handle player r = some g' → g'.Ranked) ↔ g.KeepsRanks player r := by
  have one : ∀ {h : Guild}, (∀ g', some h = some g' → g'.Ranked) ↔ h.Ranked := by
    intro h
    exact ⟨fun all => all h rfl, fun isRanked g' same => Option.some.inj same ▸ isRanked⟩
  cases r with
  | setNewGuildMaster name =>
    rw [handle, one]
    refine iff_of_true ?_ True.intro
    rcases handleSetNewGuildMaster_cases g player name with
      ⟨same, -⟩ | ⟨old, new, -, -, -, changed⟩
    · rw [same]
      exact ranked
    · rw [changed]
      exact ranked.throne old new
  | replaceGuildMaster now =>
    rw [handle, one]
    refine iff_of_true ?_ True.intro
    rcases handleReplaceGuildMaster_cases g player now with
      ⟨same, -⟩ | ⟨new, old, -, -, -, -, changed⟩
    · rw [same]
      exact ranked
    · rw [changed]
      exact ranked.throne old new
  | memberLogout now =>
    rw [handle, one]
    refine iff_of_true (ranked_of ranked.table fun m member => ?_) True.intro
    obtain ⟨old, isMember, rfl⟩ := mem_handleMemberLogout.mp member
    split
    · exact ranked.members old isMember
    · exact ranked.members old isMember
  | updateMemberRank guid demote =>
    rw [handle, one]
    exact iff_of_true (ranked.handleUpdateMemberRank player guid demote) True.intro
  | setMemberRank guid rank =>
    rw [handle, one]
    exact ranked_handleSetMemberRank_iff ranked
  | addNewRank name =>
    rw [handle, one]
    exact iff_of_true (ranked.handleAddNewRank player name) True.intro
  | updateRank guildID rankId =>
    rw [handle, one]
    exact iff_of_true (ranked.handleUpdateRank player guildID rankId) True.intro
  | removeRank rankId =>
    rw [handle, one]
    exact ranked_handleRemoveRank_iff ranked
  | switchRank rankId up =>
    rw [handle, one, handleGuildSwitchRankOpcode]
    by_cases leads : player = g.leaderGuid
    · rw [if_neg (by simpa using leads), ranked_handleSwitchRank_iff ranked]
      exact ⟨fun kept _ => kept, fun kept => kept leads⟩
    · rw [if_pos leads]
      exact iff_of_true ranked fun isLeader => absurd isLeader leads
  | leave undeletableLevel =>
    refine iff_of_true (fun g' left => ?_) True.intro
    rw [handle] at left
    rcases handleLeaveMember_cases g player undeletableLevel with same | ⟨-, gone⟩ | ⟨-, deleted⟩
    · rw [same] at left
      cases left
      exact ranked
    · rw [gone] at left
      cases left
    · rw [deleted] at left
      exact ranked.deleteMember left
  | kick guid =>
    refine iff_of_true (fun g' kicked => ?_) True.intro
    rw [handle, handleRemoveMember_eq] at kicked
    split at kicked
    · exact ranked.deleteMember kicked
    · cases kicked
      exact ranked

end Guild

namespace Ranks

open Machine

/-- What happens to a guild once it is loaded. `rehash` is any change of the member map's
iteration order. -/
inductive Event
  | request (player : UInt64) (r : Guild.Request)
  | setRankInfo (player : UInt64) (rankId : UInt8) (name : String) (rights : UInt32)
  | addMember (guid : UInt64) (name : String) (now : UInt64)
  | deleteMember (guid : UInt64)
  | changeMemberRank (guid : UInt64) (newRank : UInt8)
  | rehash (order : List Member)

/-- One event; a disbanded guild is gone. -/
def step (guild : Option Guild) (event : Event) : Option Guild :=
  guild.bind fun g =>
    match event with
    | .request player r => g.handle player r
    | .setRankInfo player rankId name rights => some (g.handleSetRankInfo player rankId name rights)
    | .addMember guid name now => some (g.addMember guid name now)
    | .deleteMember guid => g.deleteMember guid
    | .changeMemberRank guid newRank => some (g.changeMemberRank guid newRank)
    | .rehash order =>
      if perm : order.Perm g.members.toList then
        some { g with members := g.members.permute order perm }
      else some g

/-- The rank table of the guild is well formed, as long as there is one. -/
def Ranked (guild : Option Guild) : Prop := ∀ g, guild = some g → g.Ranked

/-- Every request meets `Guild.KeepsRanks`; the other events need nothing. -/
def KeepsRanks (guild : Option Guild) : Event → Prop
  | .request player r => ∀ g, guild = some g → g.KeepsRanks player r
  | _ => True

theorem ranked_some {g : Guild} (ranked : g.Ranked) : Ranked (some g) := by
  rintro _ ⟨⟩
  exact ranked

theorem Ranked.step {guild : Option Guild} {event : Event} (ranked : Ranked guild)
    (keeps : KeepsRanks guild event) : Ranked (step guild event) := by
  cases guild with
  | none =>
    intro g found
    cases found
  | some g =>
    have ranked := ranked g rfl
    cases event with
    | request player r =>
      exact fun g' handled => (Guild.ranked_handle_iff ranked).mpr (keeps g rfl) g' handled
    | setRankInfo player rankId name rights =>
      exact ranked_some (ranked.handleSetRankInfo player rankId name rights)
    | addMember guid name now => exact ranked_some (ranked.addMember guid name now)
    | deleteMember guid => exact fun g' deleted => ranked.deleteMember deleted
    | changeMemberRank guid newRank => exact ranked_some (ranked.changeMemberRank guid newRank)
    | rehash order =>
      change Ranked (if perm : order.Perm g.members.toList then
        some { g with members := g.members.permute order perm } else some g)
      split
      · rename_i perm
        refine ranked_some (Guild.ranked_of ranked.table fun m member => ?_)
        exact ranked.members m (perm.mem_iff.mp member)
      · exact ranked_some ranked

theorem not_ranked_step {guild : Option Guild} {event : Event} (ranked : Ranked guild)
    (breaks : ¬ KeepsRanks guild event) : ¬ Ranked (step guild event) := by
  intro after
  apply breaks
  cases event with
  | request player r =>
    rintro g rfl
    exact (Guild.ranked_handle_iff (ranked g rfl)).mp after
  | _ => exact True.intro

/-- **The rank table.** From `Validate` on the rank table is well formed after every event exactly
when it was loaded well and every request keeps it. -/
theorem throughout_ranked_iff (l : LoadedGuild) (titles : RankTitles) (allowMultiple : Bool)
    (events : List Event) :
    Throughout step Ranked (Guild.validate l titles allowMultiple) events ↔
      ((Guild.validate l titles allowMultiple).isSome → Guild.LoadsWell l titles) ∧
        EachStep step KeepsRanks (Guild.validate l titles allowMultiple) events := by
  have loads : Ranked (Guild.validate l titles allowMultiple) ↔
      ((Guild.validate l titles allowMultiple).isSome → Guild.LoadsWell l titles) := by
    rcases validated : Guild.validate l titles allowMultiple with _ | g
    · exact iff_of_true (fun g found => nomatch found) (fun some => nomatch some)
    have exactly := Guild.ranked_validate_iff validated
    exact ⟨fun ranked _ => exactly.mp (ranked g rfl),
      fun well => ranked_some (exactly.mpr (well rfl))⟩
  have runs : Ranked (Guild.validate l titles allowMultiple) →
      (Throughout step Ranked (Guild.validate l titles allowMultiple) events ↔
        EachStep step KeepsRanks (Guild.validate l titles allowMultiple) events) := fun start =>
    throughout_iff_eachStep (I := Ranked) start (fun _ ranked => ranked)
      (fun _ _ ranked keeps => ranked.step keeps)
      fun _ _ ranked breaks => not_ranked_step ranked breaks
  constructor
  · intro holds
    exact ⟨loads.mp holds.head, (runs holds.head).mp holds⟩
  · rintro ⟨well, keeps⟩
    exact (runs (loads.mpr well)).mpr keeps

/-- Five ranks, a guild master and a member whose rank id is five. -/
def boundaryGuild : LoadedGuild where
  id := ⟨1, guildId_one⟩
  leaderGuid := 7
  level := 1
  ranks := ⟨[⟨0, "", grRightAll⟩, ⟨1, "", 67⟩, ⟨2, "", 67⟩, ⟨3, "", 67⟩, ⟨4, "", 67⟩], by decide⟩
  members := ⟨[⟨7, "Arthas", 0, 0⟩, ⟨8, "Jaina", 5, 0⟩], by decide⟩

/-- A rank id that equals the number of ranks is left as it was loaded. -/
theorem not_ranked_of_boundary_rank :
    ¬ Throughout step Ranked (Guild.validate boundaryGuild ⟨"", "", "", "", ""⟩ false) [] := by
  intro holds
  obtain ⟨g, validated⟩ : ∃ g, Guild.validate boundaryGuild ⟨"", "", "", "", ""⟩ false = some g :=
    Option.isSome_iff_exists.mp (by decide)
  have well := (Guild.ranked_validate_iff validated).mp (holds.head g validated)
  have leads := well ⟨8, "Jaina", 5, 0⟩ (by decide) (by decide)
  revert leads
  decide

end Ranks

end Sky548
