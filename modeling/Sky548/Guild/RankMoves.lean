import Sky548.Guild.Bank
import Sky548.Guild.Ranks

/-!
# Two ways to move a rank

`HandleSwitchRank` exchanges two whole `RankInfo` and sends their members along;
`HandleUpdateRank` exchanges names and rights, and leaves the bank settings and the
members where they are.
-/

namespace Sky548

open List

/-- All settings of a rank, with the rights and slots of every bank tab. -/
structure RankSettings where
  name : String
  rights : UInt32
  bankMoneyPerDay : UInt32
  bankTabs : Fin 8 → UInt8 × UInt32

/-- The name and the rights of one rank, the bank settings of another. -/
def RankSettings.renamed (bank named : RankSettings) : RankSettings :=
  { bank with name := named.name, rights := named.rights }

namespace RankSettings

/-- What only `HandleSwitchRank` exchanges. -/
def bank (s : RankSettings) : UInt32 × (Fin 8 → UInt8 × UInt32) := (s.bankMoneyPerDay, s.bankTabs)

def title (s : RankSettings) : String × UInt32 := (s.name, s.rights)

variable {s s' : RankSettings}

theorem renamed_eq_other : s.renamed s' = s' ↔ s.bank = s'.bank := by
  unfold renamed bank
  rw [RankSettings.mk.injEq, Prod.mk.injEq]
  simp only [true_and]

theorem renamed_eq_self : s.renamed s' = s ↔ s'.title = s.title := by
  unfold renamed title
  rw [RankSettings.mk.injEq, Prod.mk.injEq]
  simp only [and_true]

end RankSettings

def RankInfo.settings (r : RankInfo) (bank : RankBank) : RankSettings where
  name := r.name
  rights := r.rights
  bankMoneyPerDay := bank.bankMoneyPerDay
  bankTabs tab :=
    let tab := bank.bankTabRightsAndSlots (UInt8.ofNat tab)
    (tab.rights, tab.slots)

namespace GuildBank

def settings (b : GuildBank) (rankId : UInt8) : Option RankSettings :=
  (b.guild.ranks.getRankInfo rankId).map fun r => r.settings (b.rankBank rankId)

/-- `HandleUpdateRank`, which does not look at the bank settings. -/
def handleUpdateRank (b : GuildBank) (player : UInt64) (guildID : UInt32) (rankId : Bool) :
    GuildBank :=
  { b with guild := (b.guild.handleUpdateRank player guildID rankId).1 }

/-- `HandleSwitchRank`: the bank settings move with the rest of a `RankInfo`. -/
def handleSwitchRank (b : GuildBank) (rankId : UInt8) (up : Bool) : GuildBank :=
  { b with
    guild := b.guild.handleSwitchRank rankId up
    rankBank :=
      match b.guild.switchPartner rankId up with
      | none => b.rankBank
      | some otherRankId => fun id =>
        if id = rankId then b.rankBank otherRankId
        else if id = otherRankId then b.rankBank rankId
        else b.rankBank id }

/-- Every member is in a rank with the settings of the one it was in before. -/
def KeepsSettings (b after : GuildBank) : Prop :=
  ∀ m ∈ b.guild.members, ∃ m' ∈ after.guild.members, m'.lowGuid = m.lowGuid ∧
    after.settings m'.rankId = b.settings m.rankId

/-- **A rank and its neighbour are exchanged**: all settings of the two, no others, and the
members keep theirs. -/
structure Exchanges (b : GuildBank) (rankId otherRankId : UInt8) (after : GuildBank) : Prop where
  first : after.settings rankId = b.settings otherRankId
  second : after.settings otherRankId = b.settings rankId
  others : ∀ id, id ≠ rankId → id ≠ otherRankId → after.settings id = b.settings id
  members : KeepsSettings b after

/-- **The two ways agree** on a rank and its neighbour: they leave the same settings at
every rank id, and both exchange the two. -/
structure MovesAgree (b : GuildBank) (player : UInt64) (rankId otherRankId : UInt8) (up : Bool) :
    Prop where
  table : ∀ id, (b.handleUpdateRank player rankId.toUInt32 up).settings id =
    (b.handleSwitchRank rankId up).settings id
  update : b.Exchanges rankId otherRankId (b.handleUpdateRank player rankId.toUInt32 up)
  switch : b.Exchanges rankId otherRankId (b.handleSwitchRank rankId up)

/-- The two ranks have the same bank settings, and either nobody is in them or they have
the same name and rights. -/
def Interchangeable (b : GuildBank) (rankId otherRankId : UInt8) : Prop :=
  (b.settings rankId).map RankSettings.bank = (b.settings otherRankId).map RankSettings.bank ∧
    ((b.settings rankId).map RankSettings.title = (b.settings otherRankId).map RankSettings.title ∨
      ∀ m ∈ b.guild.members, m.rankId ≠ rankId ∧ m.rankId ≠ otherRankId)

end GuildBank

/-- Positions hold their own ids: what `Validate` checks, and every operation keeps. -/
def RankTable.Placed (t : RankTable) : Prop :=
  ∀ (i : Nat) r, t.toList[i]? = some r → r.rankId.toNat = i

namespace RankTable

variable {t : RankTable}

theorem getRankInfo_eq (rankId : UInt8) : t.getRankInfo rankId = t.toList[rankId.toNat]? := by
  unfold getRankInfo
  by_cases inRange : rankId < t.size
  · rw [if_pos inRange]
  have past : t.toList.length ≤ rankId.toNat := by
    rw [UInt8.lt_iff_toNat_lt, size_toNat] at inRange
    exact Nat.le_of_not_lt inRange
  rw [if_neg inRange, getElem?_eq_none past]

theorem foldl_lastIdx {id : UInt32} {k : Nat} (entries : List (RankInfo × Nat))
    (one : ∀ entry ∈ entries, entry.1.rankId.toUInt32 = id ↔ entry.2 = k) :
    ∀ found : Option Nat, (found = some k ∨ ∃ entry ∈ entries, entry.2 = k) →
      entries.foldl (fun found entry =>
        if entry.1.rankId.toUInt32 = id then some entry.2 else found) found = some k := by
  induction entries with
  | nil =>
    intro found here
    rcases here with same | ⟨entry, member, -⟩
    · exact same
    · cases member
  | cons entry rest ih =>
    intro found here
    have first := one entry mem_cons_self
    rw [foldl_cons]
    apply ih fun other member => one other (mem_cons_of_mem entry member)
    by_cases isIt : entry.2 = k
    · rw [if_pos (first.mpr isIt), isIt]
      exact Or.inl rfl
    rw [if_neg fun same => isIt (first.mp same)]
    rcases here with same | ⟨other, member, there⟩
    · exact Or.inl same
    · rcases List.mem_cons.mp member with rfl | inRest
      · exact absurd there isIt
      · exact Or.inr ⟨other, inRest, there⟩

theorem Placed.lastIdxOfId (placed : t.Placed) {rankId : UInt8}
    (inRange : rankId.toNat < t.toList.length) :
    t.lastIdxOfId rankId.toUInt32 = some rankId.toNat := by
  apply foldl_lastIdx
  · rintro ⟨r, i⟩ member
    have found := List.mem_zipIdx_iff_getElem?.mp member
    have id := placed i r found
    constructor
    · intro same
      have nats := congrArg UInt32.toNat same
      rw [UInt8.toNat_toUInt32, UInt8.toNat_toUInt32] at nats
      exact id.symm.trans nats
    · intro same
      have ids : r.rankId = rankId := UInt8.toNat_inj.mp (id.trans same)
      exact congrArg UInt8.toUInt32 ids
  · refine Or.inr ⟨(t.toList[rankId.toNat], rankId.toNat), ?_, rfl⟩
    exact List.mem_zipIdx_iff_getElem?.mpr (getElem?_eq_getElem inRange)

theorem getElem?_exchangeNameAndRights {i j : Nat} {a b : RankInfo}
    (first : t.toList[i]? = some a) (second : t.toList[j]? = some b) (k : Nat) :
    (t.exchangeNameAndRights i j).toList[k]? =
      if i = k then some ((a.setName b.name).setRights b.rights)
      else if j = k then some ((b.setName a.name).setRights a.rights)
      else t.toList[k]? := by
  rw [exchangeNameAndRights, first, second]
  exact getElem?_set_set (List.getElem?_eq_some_iff.mp second).1 (List.getElem?_eq_some_iff.mp first).1 k

end RankTable

namespace GuildBank

variable {b : GuildBank} {rankId otherRankId : UInt8} {up : Bool} {player : UInt64}

theorem settings_eq (id : UInt8) : b.settings id =
    (b.guild.ranks.toList[id.toNat]?).map fun r => r.settings (b.rankBank id) := by
  rw [settings, RankTable.getRankInfo_eq]

section

variable (partner : b.guild.switchPartner rankId up = some otherRankId)

include partner

theorem neighbours : rankId ≠ otherRankId ∧ ∃ r r', b.guild.ranks.toList[rankId.toNat]? = some r ∧
      b.guild.ranks.toList[otherRankId.toNat]? = some r' := by
  obtain ⟨inFirst, inSecond, side⟩ := Guild.switchPartner_spec partner
  refine ⟨?_, _, _, getElem?_eq_getElem inFirst, getElem?_eq_getElem inSecond⟩
  rintro rfl
  omega

theorem settings_handleSwitchRank (id : UInt8) : (b.handleSwitchRank rankId up).settings id =
      if id = rankId then b.settings otherRankId
      else if id = otherRankId then b.settings rankId else b.settings id := by
  obtain ⟨apart, r, r', first, second⟩ := neighbours partner
  have table : (b.handleSwitchRank rankId up).guild.ranks =
      b.guild.ranks.swapRanks rankId otherRankId := by
    change (b.guild.handleSwitchRank rankId up).ranks = _
    rw [Guild.handleSwitchRank, partner]
    rfl
  have bank : (b.handleSwitchRank rankId up).rankBank id =
      if id = rankId then b.rankBank otherRankId
      else if id = otherRankId then b.rankBank rankId else b.rankBank id := by
    unfold handleSwitchRank
    rw [partner]
  rw [settings_eq, table, bank, RankTable.getElem?_swapRanks first second]
  by_cases here : id = rankId
  · have other : ¬ otherRankId.toNat = id.toNat := by
      intro same
      exact apart (here.symm.trans (UInt8.toNat_inj.mp same).symm)
    rw [if_pos here, if_pos here, if_neg other, if_pos (congrArg UInt8.toNat here).symm,
      settings_eq, second]
    rfl
  · rw [if_neg here, if_neg here]
    by_cases there : id = otherRankId
    · rw [if_pos there, if_pos there, if_pos (congrArg UInt8.toNat there).symm, settings_eq, first]
      rfl
    have notSecond : ¬ otherRankId.toNat = id.toNat := fun same =>
      there (UInt8.toNat_inj.mp same).symm
    have notFirst : ¬ rankId.toNat = id.toNat := fun same =>
      here (UInt8.toNat_inj.mp same).symm
    rw [if_neg there, if_neg there, if_neg notSecond, if_neg notFirst, settings_eq]

theorem exchanges_handleSwitchRank :
    b.Exchanges rankId otherRankId (b.handleSwitchRank rankId up) := by
  have apart := (neighbours partner).1
  have after := settings_handleSwitchRank partner
  refine ⟨?_, ?_, ?_, ?_⟩
  · rw [after, if_pos rfl]
  · rw [after, if_neg apart.symm, if_pos rfl]
  · intro id notFirst notSecond
    rw [after, if_neg notFirst, if_neg notSecond]
  · intro m member
    have members : (b.handleSwitchRank rankId up).guild.members =
        (b.guild.mapRanks (Guild.rankAfterSwitch rankId otherRankId)).members := by
      change (b.guild.handleSwitchRank rankId up).members = _
      rw [Guild.handleSwitchRank, partner]
      rfl
    refine ⟨m.changeRank (Guild.rankAfterSwitch rankId otherRankId m.rankId), ?_, rfl, ?_⟩
    · rw [members]
      exact Guild.mem_mapRanks.mpr ⟨m, member, rfl⟩
    change (b.handleSwitchRank rankId up).settings (Guild.rankAfterSwitch _ _ m.rankId) = _
    rw [after, Guild.rankAfterSwitch]
    by_cases here : m.rankId = rankId
    · rw [if_pos here, if_neg apart.symm, if_pos rfl, here]
    rw [if_neg here]
    by_cases there : m.rankId = otherRankId
    · rw [if_pos there, if_pos rfl, there]
    · rw [if_neg there, if_neg here, if_neg there]

theorem toUInt32_switchPartner :
    (if up then rankId.toUInt32 - 1 else rankId.toUInt32 + 1) = otherRankId.toUInt32 := by
  obtain ⟨inFirst, inSecond, side⟩ := Guild.switchPartner_spec partner
  have ten := b.guild.ranks.length_le
  rw [Guild.switchPartner, Option.ite_none_left_eq_some, Option.ite_none_left_eq_some] at partner
  obtain ⟨-, -, next⟩ := partner
  apply UInt32.toNat_inj.mp
  cases up with
  | true =>
    rw [if_pos rfl] at next ⊢
    have next := congrArg UInt8.toNat (Option.some.inj next)
    rw [UInt8.toNat_sub] at next
    rw [UInt32.toNat_sub, UInt8.toNat_toUInt32, UInt8.toNat_toUInt32]
    change (256 - 1 + rankId.toNat) % 256 = _ at next
    change (4294967296 - 1 + rankId.toNat) % 4294967296 = _
    omega
  | false =>
    rw [if_neg Bool.false_ne_true] at next ⊢
    have next := congrArg UInt8.toNat (Option.some.inj next)
    rw [UInt8.toNat_add] at next
    rw [UInt32.toNat_add, UInt8.toNat_toUInt32, UInt8.toNat_toUInt32]
    change (rankId.toNat + 1) % 256 = _ at next
    change (rankId.toNat + 1) % 4294967296 = _
    omega

end

theorem ranks_handleUpdateRank (placed : b.guild.ranks.Placed)
    (leads : b.guild.isLeader player = true)
    (partner : b.guild.switchPartner rankId up = some otherRankId) :
    (b.handleUpdateRank player rankId.toUInt32 up).guild = { b.guild with
        ranks := b.guild.ranks.exchangeNameAndRights rankId.toNat otherRankId.toNat } := by
  obtain ⟨inFirst, inSecond, -⟩ := Guild.switchPartner_spec partner
  have first := placed.lastIdxOfId inFirst
  have second := placed.lastIdxOfId inSecond
  change (b.guild.handleUpdateRank player rankId.toUInt32 up).1 = _
  unfold Guild.handleUpdateRank
  rw [leads, toUInt32_switchPartner partner, first]
  dsimp only
  rw [second]
  rfl

theorem settings_handleUpdateRank (placed : b.guild.ranks.Placed)
    (leads : b.guild.isLeader player = true) (lower : rankId ≠ grGuildmaster)
    (lower' : otherRankId ≠ grGuildmaster)
    (partner : b.guild.switchPartner rankId up = some otherRankId) (id : UInt8) :
    ∃ s s', b.settings rankId = some s ∧ b.settings otherRankId = some s' ∧
      (b.handleUpdateRank player rankId.toUInt32 up).settings id =
        if id = rankId then some (s.renamed s') else if id = otherRankId then some (s'.renamed s)
        else b.settings id := by
  obtain ⟨apart, r, r', first, second⟩ := neighbours partner
  have ids : r.rankId ≠ grGuildmaster := by
    intro zero
    exact lower (UInt8.toNat_inj.mp ((placed _ r first).symm.trans (congrArg UInt8.toNat zero)))
  have ids' : r'.rankId ≠ grGuildmaster := by
    intro zero
    exact lower' (UInt8.toNat_inj.mp ((placed _ r' second).symm.trans (congrArg UInt8.toNat zero)))
  refine ⟨r.settings (b.rankBank rankId), r'.settings (b.rankBank otherRankId), ?_, ?_, ?_⟩
  · rw [settings_eq, first]
    rfl
  · rw [settings_eq, second]
    rfl
  · rw [settings_eq, settings_eq, ranks_handleUpdateRank placed leads partner]
    rw [RankTable.getElem?_exchangeNameAndRights first second]
    change Option.map (fun r : RankInfo => r.settings (b.rankBank id)) _ = _
    by_cases here : id = rankId
    · rw [if_pos here, if_pos (congrArg UInt8.toNat here).symm, RankInfo.setRights,
        if_neg (show ¬ (r.setName r'.name).rankId = grGuildmaster from ids), here]
      rfl
    have notFirst : ¬ rankId.toNat = id.toNat := fun same => here (UInt8.toNat_inj.mp same).symm
    rw [if_neg here, if_neg notFirst]
    by_cases there : id = otherRankId
    · rw [if_pos there, if_pos (congrArg UInt8.toNat there).symm, RankInfo.setRights,
        if_neg (show ¬ (r'.setName r.name).rankId = grGuildmaster from ids'), there]
      rfl
    · have notSecond : ¬ otherRankId.toNat = id.toNat := fun same =>
        there (UInt8.toNat_inj.mp same).symm
      rw [if_neg there, if_neg notSecond]

/-- **When the two ways agree**: when the ranks differ in nothing that `HandleUpdateRank`
leaves behind. -/
theorem movesAgree_iff (placed : b.guild.ranks.Placed) (leads : b.guild.isLeader player = true)
    (lower : rankId ≠ grGuildmaster) (lower' : otherRankId ≠ grGuildmaster)
    (partner : b.guild.switchPartner rankId up = some otherRankId) :
    b.MovesAgree player rankId otherRankId up ↔ b.Interchangeable rankId otherRankId := by
  have apart := (neighbours partner).1
  have after := settings_handleUpdateRank placed leads lower lower' partner
  obtain ⟨s, s', first, second, -⟩ := after 0
  have updated : ∀ id, (b.handleUpdateRank player rankId.toUInt32 up).settings id =
      if id = rankId then some (s.renamed s') else if id = otherRankId then some (s'.renamed s)
      else b.settings id := by
    intro id
    obtain ⟨t, t', first', second', settings⟩ := after id
    rw [first] at first'
    rw [second] at second'
    cases first'
    cases second'
    exact settings
  have members : (b.handleUpdateRank player rankId.toUInt32 up).guild.members = b.guild.members := by
    rw [ranks_handleUpdateRank placed leads partner]
  unfold Interchangeable
  rw [first, second, Option.map_some, Option.map_some, Option.map_some, Option.map_some,
    Option.some.injEq, Option.some.injEq]
  constructor
  · intro agree
    have exchanged := agree.update.first
    rw [updated, if_pos rfl, second, Option.some.injEq, RankSettings.renamed_eq_other] at exchanged
    refine ⟨exchanged, ?_⟩
    by_contra neither
    rw [not_or] at neither
    obtain ⟨titles, empty⟩ := neither
    apply empty
    intro m member
    obtain ⟨m', member', key, kept⟩ := agree.update.members m member
    rw [members] at member'
    have same := KeyedList.eq_of_key_eq member' member key
    subst same
    rw [updated] at kept
    constructor
    · intro here
      rw [if_pos here, here, first, Option.some.injEq, RankSettings.renamed_eq_self] at kept
      exact titles kept.symm
    · intro there
      rw [if_neg fun here => apart (here.symm.trans there), if_pos there, there, second,
        Option.some.injEq, RankSettings.renamed_eq_self] at kept
      exact titles kept
  · rintro ⟨banks, rest⟩
    have toSecond : s.renamed s' = s' := RankSettings.renamed_eq_other.mpr banks
    have toFirst : s'.renamed s = s := RankSettings.renamed_eq_other.mpr banks.symm
    have exchanges := exchanges_handleSwitchRank partner
    refine ⟨?_, ⟨?_, ?_, ?_, ?_⟩, exchanges⟩
    · intro id
      rw [updated, settings_handleSwitchRank partner, toSecond, toFirst, first, second]
    · rw [updated, if_pos rfl, toSecond, second]
    · rw [updated, if_neg apart.symm, if_pos rfl, toFirst, first]
    · intro id notFirst notSecond
      rw [updated, if_neg notFirst, if_neg notSecond]
    · intro m member
      refine ⟨m, members.symm ▸ member, rfl, ?_⟩
      rw [updated, toSecond, toFirst]
      rcases rest with titles | empty
      · have same : s = s' := by
          rw [← toSecond]
          exact (RankSettings.renamed_eq_self.mpr titles.symm).symm
        by_cases here : m.rankId = rankId
        · rw [if_pos here, here, first, same]
        rw [if_neg here]
        by_cases there : m.rankId = otherRankId
        · rw [if_pos there, there, second, same]
        · rw [if_neg there]
      · rw [if_neg (empty m member).1, if_neg (empty m member).2]

/-- Three ranks, of which the lowest may not withdraw any money, with a member in the
second. -/
def thrallsBank (moneyPerDay : UInt32) : GuildBank where
  guild :=
    { id := ⟨1, guildId_one⟩
      leaderGuid := 7
      level := 1
      ranks := ⟨[⟨0, "Warchief", grRightAll⟩, ⟨1, "Elder", grRightInvite⟩, ⟨2, "Peon", 0⟩],
        by decide, by decide⟩
      members := ⟨[⟨7, "Thrall", 0, 0⟩, ⟨8, "Drek", 1, 0⟩], by decide⟩ }
  purchasedTabs := 0
  bankMoney := 0
  rankBank := fun id => ⟨if id = 1 then moneyPerDay else 0, fun _ => ⟨0, 0⟩⟩
  withdrawn := fun _ => .resetValues

theorem placed_thrallsBank (moneyPerDay : UInt32) :
    (thrallsBank moneyPerDay).guild.ranks.Placed := by
  intro i r found
  rcases i with _ | _ | _ | i
  · cases found
    rfl
  · cases found
    rfl
  · cases found
    rfl
  · simp [thrallsBank] at found

theorem movesAgree_iff_thrallsBank :
    (thrallsBank 0).MovesAgree 7 1 2 false ↔ (thrallsBank 0).Interchangeable 1 2 :=
  movesAgree_iff (placed_thrallsBank 0) (by decide) (by decide) (by decide) (by decide)

/-- The elder's rank is moved down: the money it may withdraw stays where it was. -/
theorem not_movesAgree : (thrallsBank 50).guild.isLeader 7 = true ∧
      (thrallsBank 50).guild.switchPartner 1 false = some 2 ∧
      ¬ (thrallsBank 50).MovesAgree 7 1 2 false := by
  refine ⟨by decide, by decide, fun agree => ?_⟩
  have money := congrArg (Option.map RankSettings.bankMoneyPerDay) agree.update.first
  revert money
  decide

end GuildBank

end Sky548
