import Sky548.Loot.World

/-!
# Roll tallies

The four counters of a roll stand for counts over `playerVote`. A start and a
departure keep them; a vote keeps them exactly when it is the player's first,
because `CountRollVote` never takes the old vote out of its tally.
-/

namespace Sky548

open List OrdMap

namespace Roll

def isPass : RollVote → Bool
  | .pass => true
  | _ => false

/-- A vote has been cast, by the player or for him. -/
def isVoted : RollVote → Bool
  | .notEmitedYet | .notValid => false
  | _ => true

/-- The counters are the counts of the votes. -/
structure Tallied (r : Roll) : Prop where
  need : r.totalNeed.toNat = r.playerVote.countVal isNeed
  greed : r.totalGreed.toNat = r.playerVote.countVal isGreedy
  pass : r.totalPass.toNat = r.playerVote.countVal isPass
  rolling : r.totalPlayersRolling.toNat = r.playerVote.size

instance (r : Roll) : Decidable r.Tallied :=
  decidable_of_iff (r.totalNeed.toNat = r.playerVote.countVal isNeed ∧
      r.totalGreed.toNat = r.playerVote.countVal isGreedy ∧
      r.totalPass.toNat = r.playerVote.countVal isPass ∧
      r.totalPlayersRolling.toNat = r.playerVote.size)
    ⟨fun ⟨n, g, p, r⟩ => ⟨n, g, p, r⟩, fun ⟨n, g, p, r⟩ => ⟨n, g, p, r⟩⟩

/-- A tallied roll of at most a raid's players, each with a vote or none yet. -/
structure Sound (r : Roll) : Prop where
  tallied : r.Tallied
  size_le : r.playerVote.size ≤ maxRaidSize
  valid : ∀ e ∈ r.playerVote, e.2 ≠ .notValid

def EveryoneVoted (r : Roll) : Prop := ∀ e ∈ r.playerVote, e.2 ≠ .notEmitedYet

instance (r : Roll) : Decidable r.EveryoneVoted :=
  inferInstanceAs (Decidable (∀ e ∈ r.playerVote.toList, e.2 ≠ .notEmitedYet))

variable {r : Roll}

theorem countVal_voted (m : OrdMap UInt64 RollVote) :
    m.countVal isPass + m.countVal isNeed + m.countVal isGreedy = m.countVal isVoted := by
  have asked : m.countVal isNeed + m.countVal isGreedy =
      m.countVal fun v => isNeed v || isGreedy v :=
    countVal_add_countVal fun v => by cases v <;> decide
  have voted : (m.countVal isPass + m.countVal fun v => isNeed v || isGreedy v) =
      m.countVal isVoted :=
    countVal_add_countVal fun v => by cases v <;> decide
  omega

theorem Sound.everyoneVoted_iff (sound : r.Sound) :
    r.EveryoneVoted ↔ r.playerVote.countVal isVoted = r.playerVote.size := by
  rw [countVal_eq_size_iff]
  constructor
  · intro all e member
    have := all e member
    have := sound.valid e member
    cases vote : e.2 <;> simp_all [isVoted]
  · intro all e member vote
    have := all e member
    rw [vote] at this
    cases this

theorem Sound.allVoted_iff (sound : r.Sound) : r.allVoted ↔ r.EveryoneVoted := by
  have tallied := sound.tallied
  have parts := countVal_voted r.playerVote
  have le := countVal_le_size isVoted r.playerVote
  rw [sound.everyoneVoted_iff, allVoted, decide_eq_true_iff, tallied.need, tallied.greed,
    tallied.pass, tallied.rolling]
  omega

theorem toNat_add_one {n : UInt8} (small : n.toNat ≤ maxRaidSize) :
    (n + 1).toNat = n.toNat + 1 := by
  have : n.toNat ≤ 40 := small
  rw [UInt8.toNat_add]
  simp
  omega

theorem toNat_sub_one {n : UInt8} (positive : 0 < n.toNat) : (n - 1).toNat = n.toNat - 1 := by
  have := n.toNat_lt
  have one : (1 : UInt8).toNat = 1 := rfl
  rw [UInt8.toNat_sub, one]
  omega

theorem isVoted_of_voteOfType {choice : UInt8} {vote : RollVote}
    (isVote : voteOfType choice = some vote) : isVoted vote := by
  unfold voteOfType at isVote
  split at isVote
  · cases isVote; rfl
  split at isVote
  · cases isVote; rfl
  split at isVote
  · cases isVote; rfl
  · split at isVote
    · cases isVote; rfl
    · cases isVote

theorem bump_totalNeed (vote : RollVote) (small : r.totalNeed.toNat ≤ maxRaidSize) :
    (r.bump vote).totalNeed.toNat = r.totalNeed.toNat + if isNeed vote then 1 else 0 := by
  cases vote with
  | need => exact toNat_add_one small
  | _ => rfl

theorem bump_totalGreed (vote : RollVote) (small : r.totalGreed.toNat ≤ maxRaidSize) :
    (r.bump vote).totalGreed.toNat = r.totalGreed.toNat + if isGreedy vote then 1 else 0 := by
  cases vote with
  | greed => exact toNat_add_one small
  | disenchant => exact toNat_add_one small
  | _ => rfl

theorem bump_totalPass (vote : RollVote) (small : r.totalPass.toNat ≤ maxRaidSize) :
    (r.bump vote).totalPass.toNat = r.totalPass.toNat + if isPass vote then 1 else 0 := by
  cases vote with
  | pass => exact toNat_add_one small
  | _ => rfl

theorem bump_totalPlayersRolling (vote : RollVote) :
    (r.bump vote).totalPlayersRolling = r.totalPlayersRolling := by
  cases vote <;> rfl

theorem Sound.castVote (sound : r.Sound) {player : UInt64} {choice : UInt8}
    (first : r.playerVote.find? player = some .notEmitedYet) :
    (r.castVote player choice).Sound := by
  unfold Roll.castVote
  split
  · exact sound
  rename_i vote isVote
  have tallied := sound.tallied
  have small : ∀ p, r.playerVote.countVal p ≤ maxRaidSize := fun p =>
    Nat.le_trans (countVal_le_size p r.playerVote) sound.size_le
  have need := countVal_insert_old (p := isNeed) (v := vote) first
  have greed := countVal_insert_old (p := isGreedy) (v := vote) first
  have pass := countVal_insert_old (p := isPass) (v := vote) first
  have sameSize := size_insert_old (v := vote) first
  refine ⟨⟨?_, ?_, ?_, ?_⟩, ?_, fun e member => ?_⟩
  · exact (bump_totalNeed vote (tallied.need ▸ small isNeed)).trans (tallied.need ▸ need.symm)
  · exact (bump_totalGreed vote (tallied.greed ▸ small isGreedy)).trans (tallied.greed ▸ greed.symm)
  · exact (bump_totalPass vote (tallied.pass ▸ small isPass)).trans (tallied.pass ▸ pass.symm)
  · rw [bump_totalPlayersRolling, sameSize]
    exact tallied.rolling
  · rw [sameSize]
    exact sound.size_le
  · rcases mem_insert.mp member with rfl | ⟨old, -⟩
    · intro notValid
      have voted := isVoted_of_voteOfType isVote
      rw [show vote = .notValid from notValid] at voted
      cases voted
    · exact sound.valid e old

theorem Sound.not_tallied_castVote (sound : r.Sound) {player : UInt64} {choice : UInt8}
    {vote old : RollVote} (isVote : voteOfType choice = some vote)
    (listed : r.playerVote.find? player = some old) (again : old ≠ .notEmitedYet) :
    ¬ (r.castVote player choice).Tallied := by
  intro tallied
  have oldVoted : isVoted old := by
    have valid := sound.valid _ (find?_eq_some_iff.mp listed)
    cases old with
    | notEmitedYet => exact absurd rfl again
    | notValid => exact absurd rfl valid
    | _ => rfl
  have newVoted := isVoted_of_voteOfType isVote
  have before := sound.tallied
  have small : ∀ p, r.playerVote.countVal p ≤ maxRaidSize := fun p =>
    Nat.le_trans (countVal_le_size p r.playerVote) sound.size_le
  have need := bump_totalNeed vote (before.need ▸ small isNeed)
  have greed := bump_totalGreed vote (before.greed ▸ small isGreedy)
  have pass := bump_totalPass vote (before.pass ▸ small isPass)
  have one : (if isPass vote then 1 else 0) + (if isNeed vote then 1 else 0) +
      (if isGreedy vote then 1 else 0) = 1 := by
    cases vote <;> first | rfl | cases newVoted
  have sum := countVal_voted r.playerVote
  have sumAfter := countVal_voted (r.playerVote.insert player vote)
  have same := countVal_insert_old (p := isVoted) (v := vote) listed
  rw [if_pos oldVoted, if_pos newVoted] at same
  have unfolded : r.castVote player choice =
      { r.bump vote with playerVote := r.playerVote.insert player vote } := by
    unfold Roll.castVote
    rw [isVote]
  rw [unfolded] at tallied
  have needAfter : (r.bump vote).totalNeed.toNat =
    (r.playerVote.insert player vote).countVal isNeed := tallied.need
  have greedAfter : (r.bump vote).totalGreed.toNat =
    (r.playerVote.insert player vote).countVal isGreedy := tallied.greed
  have passAfter : (r.bump vote).totalPass.toNat =
    (r.playerVote.insert player vote).countVal isPass := tallied.pass
  have := before.need
  have := before.greed
  have := before.pass
  omega

theorem toNat_sub_vote {total : UInt8} {before after : Nat} (counted : Bool)
    (tally : total.toNat = before) (erased : after + (if counted then 1 else 0) = before) :
    (if counted then total - 1 else total).toNat = after := by
  rcases counted with _ | _
  · simpa using tally.trans erased.symm
  have erased : after + 1 = before := erased
  rw [if_pos rfl, toNat_sub_one (by omega)]
  omega

theorem Sound.removeVoter (sound : r.Sound) (guid : UInt64) : (r.removeVoter guid).Sound := by
  unfold Roll.removeVoter
  split
  · exact sound
  rename_i vote found
  have tallied := sound.tallied
  have valid := sound.valid _ (find?_eq_some_iff.mp found)
  have erased : ∀ p, (r.playerVote.erase guid).countVal p + (if p vote then 1 else 0) =
      r.playerVote.countVal p := fun p => countVal_erase found
  have shorter := size_erase found
  refine ⟨⟨?_, ?_, ?_, ?_⟩, ?_, fun e member => ?_⟩
  · have := toNat_sub_vote (isNeed vote) tallied.need (erased isNeed)
    cases vote <;> exact this
  · have := toNat_sub_vote (isGreedy vote) tallied.greed (erased isGreedy)
    cases vote <;> exact this
  · have := toNat_sub_vote (isPass vote) tallied.pass (erased isPass)
    cases vote <;> exact this
  · have := toNat_sub_vote true tallied.rolling shorter
    rw [if_pos valid]
    exact this
  · change (r.playerVote.erase guid).size ≤ _
    have := sound.size_le
    omega
  · exact sound.valid e (mem_erase.mp member).1

theorem Sound.relink (sound : r.Sound) (loot : Option LootId) (slot mask : UInt8) :
    Sound { r with loot := loot, itemSlot := slot, rollVoteMask := mask } :=
  ⟨⟨sound.tallied.need, sound.tallied.greed, sound.tallied.pass, sound.tallied.rolling⟩,
    sound.size_le, sound.valid⟩

theorem Sound.enroll (sound : r.Sound) {autoPass : Bool} {m : GroupLooter}
    (new : r.playerVote.find? m.guid = none) (room : r.playerVote.size < maxRaidSize) :
    (LootGroup.enroll autoPass r m).Sound := by
  have tallied := sound.tallied
  have small : ∀ p, r.playerVote.countVal p ≤ maxRaidSize := fun p =>
    Nat.le_trans (countVal_le_size p r.playerVote) sound.size_le
  have rolling := toNat_add_one (tallied.rolling ▸ sound.size_le)
  have longer := fun vote : RollVote => size_insert_new (v := vote) new
  have valid : ∀ vote : RollVote, vote ≠ .notValid →
      ∀ e ∈ r.playerVote.insert m.guid vote, e.2 ≠ .notValid := by
    intro vote isValid e member
    rcases mem_insert.mp member with rfl | ⟨old, -⟩
    · exact isValid
    · exact sound.valid e old
  unfold LootGroup.enroll
  split
  · have need := countVal_insert_new (p := isNeed) (v := RollVote.pass) new
    have greed := countVal_insert_new (p := isGreedy) (v := RollVote.pass) new
    have pass := countVal_insert_new (p := isPass) (v := RollVote.pass) new
    refine ⟨⟨tallied.need.trans need.symm, tallied.greed.trans greed.symm, ?_, ?_⟩, ?_,
      valid .pass (by decide)⟩
    · exact (toNat_add_one (tallied.pass ▸ small isPass)).trans (tallied.pass ▸ pass.symm)
    · exact rolling.trans (tallied.rolling ▸ (longer .pass).symm)
    · exact (longer .pass).trans_le room
  · have need := countVal_insert_new (p := isNeed) (v := RollVote.notEmitedYet) new
    have greed := countVal_insert_new (p := isGreedy) (v := RollVote.notEmitedYet) new
    have pass := countVal_insert_new (p := isPass) (v := RollVote.notEmitedYet) new
    refine ⟨⟨tallied.need.trans need.symm, tallied.greed.trans greed.symm,
      tallied.pass.trans pass.symm, ?_⟩, ?_, valid .notEmitedYet (by decide)⟩
    · exact rolling.trans (tallied.rolling ▸ (longer .notEmitedYet).symm)
    · exact (longer .notEmitedYet).trans_le room

theorem enroll_playerVote (autoPass : Bool) (m : GroupLooter) :
    ∃ vote, (LootGroup.enroll autoPass r m).playerVote = r.playerVote.insert m.guid vote ∧
      (vote = .pass ∨ vote = .notEmitedYet) := by
  unfold LootGroup.enroll
  split
  · exact ⟨_, rfl, Or.inl rfl⟩
  · exact ⟨_, rfl, Or.inr rfl⟩

theorem Sound.foldl_enroll {autoPass : Bool} (members : List GroupLooter) :
    ∀ {r : Roll}, r.Sound → (members.map GroupLooter.guid).Nodup →
      (∀ m ∈ members, r.playerVote.find? m.guid = none) →
      r.playerVote.size + members.length ≤ maxRaidSize →
      (members.foldl (LootGroup.enroll autoPass) r).Sound := by
  induction members with
  | nil => exact fun sound _ _ _ => sound
  | cons m rest ih =>
    intro r sound nodup new room
    obtain ⟨apart, nodupRest⟩ := List.nodup_cons.mp nodup
    rw [length_cons] at room
    have newHead := new m mem_cons_self
    obtain ⟨vote, votes, -⟩ := enroll_playerVote (r := r) autoPass m
    refine ih (sound.enroll newHead (by omega)) nodupRest (fun other member => ?_) ?_
    · rw [votes, find?_eq_none_iff]
      intro e isEntry same
      rcases mem_insert.mp isEntry with rfl | ⟨old, -⟩
      · exact apart (List.mem_map.mpr ⟨other, member, same.symm⟩)
      · have absent := new other (mem_cons_of_mem _ member)
        exact find?_eq_none_iff.mp absent e old same
    · rw [votes, size_insert_new newHead]
      omega

theorem sound_newRoll (g : LootGroup) (autoPass : Bool) (itemGUID : UInt64) (item : LootItem) :
    (g.newRoll autoPass itemGUID item).Sound := by
  have sublist : (g.rollers item).Sublist g.members := filter_sublist
  refine Sound.foldl_enroll _ ⟨⟨rfl, rfl, rfl, rfl⟩, Nat.zero_le _, fun e member => ?_⟩
    (g.nodup.sublist (sublist.map _)) (fun m _ => rfl) ?_
  · exact absurd member not_mem_empty
  · have := sublist.length_le
    have := g.size_le
    change 0 + _ ≤ _
    omega

end Roll

namespace LootWorld

open Machine

/-- The tallies of an open roll are right, and a roll was counted with right
tallies and either by the timer or with everybody's vote. -/
def RightlyTallied (w : LootWorld) : Prop :=
  (∀ r ∈ w.rolls, r.Tallied) ∧
    ∀ c ∈ w.counts, c.roll.Tallied ∧ (c.byTimer ∨ c.roll.EveryoneVoted)

instance (w : LootWorld) : Decidable w.RightlyTallied :=
  inferInstanceAs (Decidable (_ ∧ ∀ c ∈ w.counts, _ ∧ (_ ∨ _)))

/-- A vote with a known type is the first of its player in the roll. -/
def FirstVote (r : Roll) (player : UInt64) (choice : UInt8) : Prop :=
  Roll.voteOfType choice ≠ none → r.playerVote.find? player = some .notEmitedYet

instance (r : Roll) (player : UInt64) (choice : UInt8) : Decidable (FirstVote r player choice) :=
  inferInstanceAs (Decidable (_ → _))

theorem soundRule : RollRule Roll.Sound
    (fun c => c.roll.Tallied ∧ (c.byTimer ∨ c.roll.EveryoneVoted)) FirstVote where
  started group store newItemGUID id needBeforeGreed l r member := by
    obtain ⟨autoPass, guid, item, slot, mask, rfl, -⟩ := LootGroup.mem_startRolls member
    exact (Roll.sound_newRoll group autoPass guid item).relink (some id) slot mask
  removed r guid sound := sound.removeVoter guid
  cut r sound := sound.relink none r.itemSlot r.rollVoteMask
  voted r player choice vote sound _ first := by
    cases isVote : Roll.voteOfType choice with
    | none =>
      rw [show r.castVote player choice = r by unfold Roll.castVote; rw [isVote]]
      exact sound
    | some _ => exact sound.castVote (first (by rw [isVote]; exact Option.some_ne_none _))
  countedVote r l c sound isOver := ⟨sound.tallied, Or.inr (sound.allVoted_iff.mp isOver)⟩
  countedTimer r l c sound := ⟨sound.tallied, Or.inl rfl⟩

theorem counts_countTheRoll (w : LootWorld) {i : Nat} {roll : Roll} {id : LootId}
    (atI : w.rolls[i]? = some roll) (link : roll.loot = some id) (there : (w.loots id).isSome)
    (byTimer : Bool) (c : Roll.Chance) :
    ∃ outcome, ⟨roll, c, byTimer, outcome⟩ ∈ (w.countTheRoll i byTimer c).counts := by
  obtain ⟨l, isLoot⟩ := Option.isSome_iff_exists.mp there
  unfold countTheRoll
  rw [atI]
  dsimp only
  rw [link]
  dsimp only
  rw [isLoot]
  exact ⟨_, mem_append_right _ mem_cons_self⟩

theorem not_rightlyTallied_of_secondVote {w : LootWorld}
    (inv : RollsInv Roll.Sound (fun c => c.roll.Tallied ∧ (c.byTimer ∨ c.roll.EveryoneVoted)) w)
    {store : ItemStore} {e : Event} (second : ¬ VoteMeets FirstVote w e) :
    ¬ (step store w e).RightlyTallied := by
  cases e with
  | lootRoll player itemGUID rollType chance =>
    simp only [VoteMeets, FirstVote, not_forall] at second
    obtain ⟨⟨i, roll⟩, found, known, again⟩ := second
    obtain ⟨vote, isVote⟩ := Option.ne_none_iff_exists'.mp known
    obtain ⟨atI, valid, old, listed⟩ := votedRoll_eq_some found
    have member := mem_of_getElem? atI
    obtain ⟨id, link⟩ := Option.isSome_iff_exists.mp valid
    have notTallied := (inv.rolls roll member).not_tallied_castVote isVote listed
      fun isFirst => again (isFirst ▸ listed)
    have inRange : i < w.rolls.length := (List.getElem?_eq_some_iff.mp atI).1
    intro right
    change (w.countRollVote player itemGUID rollType chance).RightlyTallied at right
    unfold countRollVote at right
    rw [found] at right
    dsimp only at right
    split at right
    · -- the vote closes the roll: it is spoilt among the counted ones
      have isCast := getElem?_set_self (a := roll.castVote player rollType) inRange
      obtain ⟨outcome, counted⟩ := counts_countTheRoll
        { w with rolls := w.rolls.set i (roll.castVote player rollType) } isCast
        ((castVote_loot roll player rollType).trans link) (inv.links roll member id link)
        false chance
      exact notTallied (right.2 _ counted).1
    · exact notTallied (right.1 _ (mem_of_getElem? (getElem?_set_self inRange)))
  | _ => exact absurd True.intro second

/-- **The tallies of every roll are right throughout a run exactly when no player votes twice**:
`CountRollVote` does not look at what the player has voted before. -/
theorem throughout_rightlyTallied_iff_firstVotes (store : ItemStore) (looterGuid : UInt64)
    (events : List Event) :
    Throughout (step store) RightlyTallied (start looterGuid) events ↔
      EachStep (step store) (VoteMeets FirstVote) (start looterGuid) events :=
  throughout_iff_eachStep (rollsInv_start looterGuid)
    (fun _ inv => ⟨fun r member => (inv.rolls r member).tallied, inv.counts⟩)
    (fun _ _ inv first => inv.step soundRule first)
    fun _ _ inv second => not_rightlyTallied_of_secondVote inv second

namespace SecondVote

def store : ItemStore := fun itemid =>
  if itemid = 50 then
    some {
      maxStackSize := 1, partyLoot := false, followLootRules := false, quality := 4
      disenchantID := 0, requiredDisenchantSkill := 0, needRollDisabled := false
      isCurrencyToken := false }
  else none

def player (guid : UInt64) : FillPlayer where
  guid := guid
  presentAtLooting := true
  filter _ _ _ := true
  canStore _ := true

def looter (guid : UInt64) : GroupLooter where
  guid := guid
  isNear := true
  passOnGroupLoot := false
  filter _ _ _ := true

def group : LootGroup where
  members := [looter 1, looter 2]
  lootThreshold := 2
  maxEnchantingLevel := 0
  nodup := by decide
  size_le := by decide

theorem nodup_players : ([player 1, player 2].map FillPlayer.low).Nodup := by decide

def filling : Filling where
  drops := [(⟨50, [], false⟩, 1)]
  gold := 0
  owner := player 1
  group := some ⟨⟨.groupLoot, 0, 2⟩, [player 1, player 2], nodup_players⟩
  personal := false
  ownerIn := by simp [FillPlayer.low, player]

def chance : Roll.Chance where
  urand _ := 40
  isOnline _ := true
  canStore _ := true

/-- Player 1 sends his need twice, and the roll closes on player 2. -/
def events : List Event :=
  [.fill 0 filling, .groupLoot 0 group fun _ => 900, .lootRoll 1 900 1 chance,
    .lootRoll 1 900 1 chance]

end SecondVote

theorem not_rightlyTallied_of_needing_twice :
    ¬ Throughout (step SecondVote.store) RightlyTallied (start 0) SecondVote.events := by
  decide

end LootWorld

end Sky548
