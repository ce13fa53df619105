import Sky548.Loot.Tally

/-!
# Rolls and departures

`Group::RemoveMember` takes the votes of a member who leaves out of every open roll. After each it
calls `CountRollVote` for that member, to have the roll counted when his was the last vote missing;
but the vote is erased by then, and `CountRollVote` returns where it does not find one. A roll that
only waited for the leaving member stays open, with its tallies complete.
-/

namespace Sky548

open List OrdMap

def maxRollType : UInt8 := 4

namespace LootWorld

/-- The loop of `RemoveMember` over `RollId`, from position `i`; `fuel` bounds
its turns. The rolls it comes to are noted by their item GUIDs. -/
def removeVotes (guid : UInt64) (c : Nat → Roll.Chance) :
    Nat → Nat → LootWorld × List UInt64 → LootWorld × List UInt64
  | 0, _, s => s
  | fuel + 1, i, (w, visited) =>
    match w.rolls[i]? with
    | none => (w, visited)
    | some roll =>
      let visited := visited ++ [roll.itemGUID]
      match roll.playerVote.find? guid with
      | none => removeVotes guid c fuel (i + 1) (w, visited)
      | some _ =>
        let w := { w with rolls := w.rolls.set i (roll.removeVoter guid) }
        let w := w.countRollVote guid roll.itemGUID maxRollType (c i)
        removeVotes guid c fuel (i + 1) (w, visited)

end LootWorld

structure LootingGroup where
  group : Group
  world : LootWorld

namespace LootingGroup

/-- What `RemoveMember` leaves of a group that is not disbanded, with the rolls
its loop came to. -/
structure Removal where
  after : LootingGroup
  visited : List UInt64

/-- A dungeon group leaves a kick to the vote scripts. -/
def departs (s : LootingGroup) (kick : Bool) : Bool := !(s.group.isLFGGroup && kick)

def removeMember (s : LootingGroup) (guid : UInt64) (kick : Bool) (around : Surroundings)
    (c : Nat → Roll.Chance) : Option Removal :=
  if !s.departs kick then some ⟨s, []⟩
  else if s.group.disbandsAt < s.group.getMembersCount then
    let (w, visited) := LootWorld.removeVotes guid c s.world.rolls.length 0 (s.world, [])
    let g := s.group.without around.online guid
    if g.disbandsAfter around then none else some ⟨⟨g, w⟩, visited⟩
  else none

end LootingGroup

namespace Roll

/-- The sum that `CountRollVote` compares with the number of players. -/
def voted (r : Roll) : Nat := r.totalPass.toNat + r.totalNeed.toNat + r.totalGreed.toNat

/-- The tallies cover the votes; a player who votes again is in them twice, but
an open roll is counted before they outgrow a raid. -/
structure Covered (r : Roll) : Prop where
  need : r.playerVote.countVal isNeed ≤ r.totalNeed.toNat
  greed : r.playerVote.countVal isGreedy ≤ r.totalGreed.toNat
  pass : r.playerVote.countVal isPass ≤ r.totalPass.toNat
  rolling : r.totalPlayersRolling.toNat = r.playerVote.size
  voted_le : r.voted ≤ maxRaidSize
  size_le : r.playerVote.size ≤ maxRaidSize
  valid : ∀ e ∈ r.playerVote, e.2 ≠ .notValid

variable {r : Roll}

theorem Sound.covered (sound : r.Sound) : r.Covered := by
  have tallied := sound.tallied
  refine ⟨?_, ?_, ?_, tallied.rolling, ?_, sound.size_le, sound.valid⟩
  · exact Nat.le_of_eq tallied.need.symm
  · exact Nat.le_of_eq tallied.greed.symm
  · exact Nat.le_of_eq tallied.pass.symm
  · have parts := countVal_voted r.playerVote
    have small := countVal_le_size isVoted r.playerVote
    have := sound.size_le
    rw [voted, tallied.need, tallied.greed, tallied.pass]
    omega

theorem Covered.cut (covered : r.Covered) : Covered { r with loot := none } :=
  ⟨covered.need, covered.greed, covered.pass, covered.rolling, covered.voted_le,
    covered.size_le, covered.valid⟩

theorem Covered.castVote (covered : r.Covered) {player : UInt64} {choice : UInt8}
    {old : RollVote} (listed : r.playerVote.find? player = some old)
    (isOpen : ¬ (r.castVote player choice).allVoted) : (r.castVote player choice).Covered := by
  unfold Roll.castVote at isOpen ⊢
  split at isOpen
  · exact covered
  rename_i vote isVote
  have bound := covered.voted_le
  have needSmall : r.totalNeed.toNat ≤ maxRaidSize := by unfold voted at bound; omega
  have greedSmall : r.totalGreed.toNat ≤ maxRaidSize := by unfold voted at bound; omega
  have passSmall : r.totalPass.toNat ≤ maxRaidSize := by unfold voted at bound; omega
  have need := bump_totalNeed vote needSmall
  have greed := bump_totalGreed vote greedSmall
  have pass := bump_totalPass vote passSmall
  have counted := fun p => countVal_insert_old (p := p) (v := vote) listed
  have sameSize := size_insert_old (v := vote) listed
  have rolling : (r.bump vote).totalPlayersRolling.toNat = r.playerVote.size := by
    rw [bump_totalPlayersRolling]
    exact covered.rolling
  refine ⟨?_, ?_, ?_, rolling.trans sameSize.symm, ?_, ?_, fun e member => ?_⟩
  · have count := counted isNeed
    have before := covered.need
    change (r.playerVote.insert player vote).countVal isNeed ≤ (r.bump vote).totalNeed.toNat
    omega
  · have count := counted isGreedy
    have before := covered.greed
    change (r.playerVote.insert player vote).countVal isGreedy ≤ (r.bump vote).totalGreed.toNat
    omega
  · have count := counted isPass
    have before := covered.pass
    change (r.playerVote.insert player vote).countVal isPass ≤ (r.bump vote).totalPass.toNat
    omega
  · -- the roll is not counted, so its tallies are below the number of players
    simp only [allVoted, decide_eq_true_eq, not_le] at isOpen
    have := covered.size_le
    rw [rolling] at isOpen
    exact Nat.le_trans (Nat.le_of_lt isOpen) this
  · rw [sameSize]
    exact covered.size_le
  · rcases mem_insert.mp member with rfl | ⟨before, -⟩
    · intro notValid
      have isVoted := isVoted_of_voteOfType isVote
      rw [show vote = .notValid from notValid] at isVoted
      cases isVoted
    · exact covered.valid e before

def waitsFor (r : Roll) (guid : UInt64) : Bool := r.playerVote.find? guid = some .notEmitedYet

theorem toNat_sub_covered {total : UInt8} {before after : Nat} (counted : Bool)
    (covers : before ≤ total.toNat) (erased : after + (if counted then 1 else 0) = before) :
    (if counted then total - 1 else total).toNat + (if counted then 1 else 0) = total.toNat := by
  rcases counted with _ | _
  · rfl
  have erased : after + 1 = before := erased
  rw [if_pos rfl, if_pos rfl, toNat_sub_one (by omega)]
  omega

theorem Covered.removeVoter_tallies (covered : r.Covered) {guid : UInt64} {vote : RollVote}
    (found : r.playerVote.find? guid = some vote) :
    (r.removeVoter guid).totalNeed.toNat + (if isNeed vote then 1 else 0) = r.totalNeed.toNat ∧
      (r.removeVoter guid).totalGreed.toNat + (if isGreedy vote then 1 else 0) =
        r.totalGreed.toNat ∧
      (r.removeVoter guid).totalPass.toNat + (if isPass vote then 1 else 0) = r.totalPass.toNat ∧
      (r.removeVoter guid).totalPlayersRolling.toNat + 1 = r.totalPlayersRolling.toNat ∧
      (r.removeVoter guid).playerVote = r.playerVote.erase guid := by
  have valid := covered.valid _ (find?_eq_some_iff.mp found)
  have erased : ∀ p, (r.playerVote.erase guid).countVal p + (if p vote then 1 else 0) =
      r.playerVote.countVal p := fun p => countVal_erase found
  have shorter := size_erase found
  unfold Roll.removeVoter
  rw [found]
  dsimp only
  refine ⟨?_, ?_, ?_, ?_, rfl⟩
  · have := toNat_sub_covered (isNeed vote) covered.need (erased isNeed)
    cases vote <;> exact this
  · have := toNat_sub_covered (isGreedy vote) covered.greed (erased isGreedy)
    cases vote <;> exact this
  · have := toNat_sub_covered (isPass vote) covered.pass (erased isPass)
    cases vote <;> exact this
  · have := toNat_sub_covered true (Nat.le_of_eq covered.rolling.symm) shorter
    rw [if_pos valid]
    exact this

theorem removeVoter_of_none {guid : UInt64} (none : r.playerVote.find? guid = none) :
    r.removeVoter guid = r := by
  unfold Roll.removeVoter
  rw [none]

@[simp] theorem removeVoter_loot (r : Roll) (guid : UInt64) :
    (r.removeVoter guid).loot = r.loot := by
  unfold Roll.removeVoter
  split <;> rfl

@[simp] theorem removeVoter_itemGUID (r : Roll) (guid : UInt64) :
    (r.removeVoter guid).itemGUID = r.itemGUID := by
  unfold Roll.removeVoter
  split <;> rfl

theorem Covered.removeVoter (covered : r.Covered) (guid : UInt64) :
    (r.removeVoter guid).Covered := by
  cases found : r.playerVote.find? guid with
  | none =>
    rw [removeVoter_of_none found]
    exact covered
  | some vote =>
    obtain ⟨need, greed, pass, rolling, votes⟩ := covered.removeVoter_tallies found
    have erased : ∀ p, (r.playerVote.erase guid).countVal p + (if p vote then 1 else 0) =
        r.playerVote.countVal p := fun p => countVal_erase found
    have shorter := size_erase found
    have bound := covered.voted_le
    have size := covered.size_le
    refine ⟨?_, ?_, ?_, ?_, ?_, ?_, fun e member => ?_⟩
    · have count := erased isNeed
      have before := covered.need
      rw [votes]
      omega
    · have count := erased isGreedy
      have before := covered.greed
      rw [votes]
      omega
    · have count := erased isPass
      have before := covered.pass
      rw [votes]
      omega
    · have before := covered.rolling
      rw [votes]
      omega
    · unfold voted at bound ⊢
      omega
    · rw [votes]
      omega
    · rw [votes] at member
      exact covered.valid e (mem_erase.mp member).1

/-- **The tallies are complete after a departure exactly when they were before,
or lacked nothing but a vote of the leaving player.** -/
theorem Covered.allVoted_removeVoter (covered : r.Covered) (guid : UInt64) :
    (r.removeVoter guid).allVoted ↔
      r.totalPlayersRolling.toNat ≤ r.voted + if r.waitsFor guid then 1 else 0 := by
  unfold waitsFor
  cases found : r.playerVote.find? guid with
  | none =>
    rw [removeVoter_of_none found]
    simp [allVoted, voted]
  | some vote =>
    have valid := covered.valid _ (find?_eq_some_iff.mp found)
    obtain ⟨need, greed, pass, rolling, -⟩ := covered.removeVoter_tallies found
    unfold allVoted voted
    rw [decide_eq_true_eq]
    cases vote with
    | notValid => exact absurd rfl valid
    | notEmitedYet =>
      simp only [isNeed, isGreedy, isPass, Bool.false_eq_true, if_false] at need greed pass
      simp only [decide_true, if_true]
      omega
    | _ =>
      simp only [isNeed, isGreedy, isPass, Bool.false_eq_true, if_false, if_true]
        at need greed pass
      simp only [Option.some.injEq, reduceCtorEq, decide_false, Bool.false_eq_true, if_false]
      omega

end Roll

namespace LootWorld

open Machine

@[simp] theorem onLoot_rolls (w : LootWorld) (id : LootId)
    (call : Loot → Loot × Option Delivery) : (w.onLoot id call).rolls = w.rolls := by
  unfold onLoot
  split <;> rfl

theorem countTheRoll_rolls (w : LootWorld) {i : Nat} (inRange : i < w.rolls.length)
    (byTimer : Bool) (c : Roll.Chance) :
    (w.countTheRoll i byTimer c).rolls = w.rolls.eraseIdx i := by
  unfold countTheRoll
  rw [getElem?_eq_getElem inRange]
  dsimp only
  split
  · rfl
  · split <;> rfl

variable {w : LootWorld}

theorem mem_countTheRoll {i : Nat} {byTimer : Bool} {c : Roll.Chance} {r : Roll}
    (member : r ∈ (w.countTheRoll i byTimer c).rolls) : r ∈ w.rolls := by
  rcases Nat.lt_or_ge i w.rolls.length with inRange | beyond
  · rw [countTheRoll_rolls w inRange] at member
    exact (eraseIdx_sublist _ _).mem member
  · unfold countTheRoll at member
    rwa [getElem?_eq_none beyond] at member

theorem mem_endRolls {id : LootId} {c : Nat → Roll.Chance} {r : Roll} (n : Nat) :
    ∀ {w : LootWorld}, r ∈ (w.endRolls id c n).rolls → r ∈ w.rolls := by
  induction n with
  | zero => exact fun member => member
  | succ n ih =>
    intro w member
    unfold endRolls at member
    split at member
    · exact member
    · exact mem_countTheRoll (ih member)

theorem mem_rolls_step {store : ItemStore} {e : Event} {r : Roll}
    (member : r ∈ (step store w e).rolls) :
    r ∈ w.rolls ∨
    (∃ old ∈ w.rolls, ∃ guid, r = old.removeVoter guid) ∨
    (∃ old ∈ w.rolls, r = { old with loot := none }) ∨
    (∃ group : LootGroup, ∃ newItemGUID id needBeforeGreed l,
      r ∈ (group.startRolls store newItemGUID id needBeforeGreed l).2) ∨
    ∃ old ∈ w.rolls, ∃ player choice vote, old.playerVote.find? player = some vote ∧
      r = old.castVote player choice ∧ ¬ r.allVoted := by
  have start : ∀ {group : LootGroup} {newItemGUID : UInt8 → UInt64} {id : LootId}
      {needBeforeGreed : Bool},
      r ∈ (w.startRolls id (group.startRolls store newItemGUID id needBeforeGreed)).rolls →
        r ∈ w.rolls ∨ ∃ group : LootGroup, ∃ newItemGUID id needBeforeGreed l,
          r ∈ (group.startRolls store newItemGUID id needBeforeGreed l).2 := by
    intro group newItemGUID id needBeforeGreed member
    unfold LootWorld.startRolls at member
    split at member
    · exact Or.inl member
    · rcases List.mem_append.mp member with old | new
      · exact Or.inl old
      · exact Or.inr ⟨group, newItemGUID, id, needBeforeGreed, _, new⟩
  cases e with
  | fill id filling =>
    simp only [LootWorld.step] at member
    split at member <;> exact Or.inl member
  | storeLootItem id player lootSlot canStore =>
    simp only [LootWorld.step, onLoot_rolls] at member
    exact Or.inl member
  | lootMasterGive id player target slotid canStore filter =>
    simp only [LootWorld.step] at member
    split at member
    · exact Or.inl member
    · rw [onLoot_rolls] at member
      exact Or.inl member
  | groupLoot id group newItemGUID =>
    rcases start member with old | new
    · exact Or.inl old
    · exact Or.inr (Or.inr (Or.inr (Or.inl new)))
  | needBeforeGreed id group newItemGUID =>
    rcases start member with old | new
    · exact Or.inl old
    · exact Or.inr (Or.inr (Or.inr (Or.inl new)))
  | lootRoll player itemGUID rollType chance =>
    simp only [LootWorld.step, LootWorld.countRollVote] at member
    split at member
    · exact Or.inl member
    rename_i i roll found
    obtain ⟨atI, -, vote, listed⟩ := votedRoll_eq_some found
    have inRange := (List.getElem?_eq_some_iff.mp atI).1
    split at member
    · rw [countTheRoll_rolls _ (by simpa using inRange), eraseIdx_set_eq] at member
      exact Or.inl ((eraseIdx_sublist _ _).mem member)
    rename_i isOpen
    rcases mem_or_eq_of_mem_set member with old | rfl
    · exact Or.inl old
    · exact Or.inr (Or.inr (Or.inr (Or.inr ⟨roll, mem_of_getElem? atI, player,
        rollType, vote, listed, rfl, isOpen⟩)))
  | removeMember guid =>
    obtain ⟨old, isOld, rfl⟩ := List.mem_map.mp member
    exact Or.inr (Or.inl ⟨old, isOld, guid, rfl⟩)
  | endRoll id chance => exact Or.inl (mem_endRolls _ member)
  | clear id =>
    simp only [LootWorld.step, LootWorld.clear] at member
    split at member
    · exact Or.inl member
    obtain ⟨old, isOld, rfl⟩ := List.mem_map.mp member
    split
    · exact Or.inr (Or.inr (Or.inl ⟨old, isOld, rfl⟩))
    · exact Or.inl isOld
  | setLooterGuid guid => exact Or.inl member

/-- The tallies of every open roll cover its votes. -/
def RollsCovered (w : LootWorld) : Prop := ∀ r ∈ w.rolls, r.Covered

theorem RollsCovered.step (covered : w.RollsCovered) (store : ItemStore) (e : Event) :
    (step store w e).RollsCovered := by
  intro r member
  rcases mem_rolls_step member with old | removed | cut | new | voted
  · exact covered r old
  · obtain ⟨old, isOld, guid, rfl⟩ := removed
    exact (covered old isOld).removeVoter guid
  · obtain ⟨old, isOld, rfl⟩ := cut
    exact (covered old isOld).cut
  · obtain ⟨group, newItemGUID, id, needBeforeGreed, l, isNew⟩ := new
    obtain ⟨autoPass, guid, item, slot, mask, rfl, -⟩ := LootGroup.mem_startRolls isNew
    exact ((Roll.sound_newRoll group autoPass guid item).relink (some id) slot mask).covered
  · obtain ⟨old, isOld, player, choice, vote, listed, rfl, isOpen⟩ := voted
    exact (covered old isOld).castVote listed isOpen

theorem rollsCovered_run (store : ItemStore) (looterGuid : UInt64) (events : List Event) :
    (run (step store) (start looterGuid) events).RollsCovered := by
  have always : Throughout (step store) RollsCovered (start looterGuid) events :=
    Throughout.of_step (fun _ member => absurd member not_mem_nil)
      fun _ e covered => covered.step store e
  exact always.last

theorem countRollVote_erased (distinct : (w.rolls.map (·.itemGUID)).Nodup)
    {roll : Roll} (member : roll ∈ w.rolls) {guid : UInt64}
    (erased : roll.playerVote.find? guid = none) (choice : UInt8) (c : Roll.Chance) :
    w.countRollVote guid roll.itemGUID choice c = w := by
  have noVote : w.votedRoll guid roll.itemGUID = none := by
    unfold votedRoll
    split
    · rfl
    rename_i i first
    obtain ⟨inRange, isFirst, -⟩ := List.findIdx?_eq_some_iff_getElem.mp first
    have sameItem : w.rolls[i].itemGUID = roll.itemGUID := by
      simp only [Bool.and_eq_true, decide_eq_true_eq] at isFirst
      exact isFirst.1
    have isRoll : w.rolls[i] = roll :=
      inj_on_of_nodup_map distinct (getElem_mem inRange) member sameItem
    rw [getElem?_eq_getElem inRange, isRoll]
    simp [erased]
  unfold countRollVote
  rw [noVote]

theorem removeVoter_find? (r : Roll) (guid : UInt64) :
    (r.removeVoter guid).playerVote.find? guid = none := by
  rcases found : r.playerVote.find? guid with _ | vote
  · rwa [Roll.removeVoter_of_none found]
  unfold Roll.removeVoter
  rw [found]
  apply find?_eq_none_iff.mpr
  intro e member
  exact (mem_erase.mp member).2

/-- **The loop takes the player out of every roll, comes to each once, and
counts none.** -/
theorem removeVotes_eq (guid : UInt64) (c : Nat → Roll.Chance) (rest : List Roll) :
    ∀ {w : LootWorld} {done : List Roll} {visited : List UInt64} {fuel : Nat},
      w.rolls = done ++ rest → (w.rolls.map (·.itemGUID)).Nodup → rest.length ≤ fuel →
      removeVotes guid c fuel done.length (w, visited) =
        ({ w with rolls := done ++ rest.map (·.removeVoter guid) },
          visited ++ rest.map (·.itemGUID)) := by
  induction rest with
  | nil =>
    intro w done visited fuel rolls _ _
    rw [append_nil] at rolls
    cases fuel with
    | zero => simp [removeVotes, ← rolls]
    | succ fuel =>
      unfold removeVotes
      rw [getElem?_eq_none (Nat.le_of_eq (by rw [rolls]))]
      simp [← rolls]
  | cons roll rest ih =>
    intro w done visited fuel rolls distinct enough
    cases fuel with
    | zero => exact absurd enough (Nat.not_succ_le_zero _)
    | succ fuel =>
      -- one turn, whether the player is listed or not
      let turned : LootWorld := { w with rolls := (done ++ [roll.removeVoter guid]) ++ rest }
      have sameItems : turned.rolls.map (·.itemGUID) = w.rolls.map (·.itemGUID) := by
        simp [turned, rolls]
      have turn : removeVotes guid c (fuel + 1) done.length (w, visited) =
          removeVotes guid c fuel (done ++ [roll.removeVoter guid]).length
            (turned, visited ++ [roll.itemGUID]) := by
        have here : w.rolls[done.length]? = some roll := by simp [rolls]
        have written : w.rolls.set done.length (roll.removeVoter guid) = turned.rolls := by
          simp [turned, rolls]
        rw [removeVotes, here]
        cases found : roll.playerVote.find? guid with
        | none =>
          have same : turned = w := by
            simp only [turned, Roll.removeVoter_of_none found]
            rw [append_assoc, singleton_append, ← rolls]
          simp [found, same]
        | some vote =>
          have isThere : roll.removeVoter guid ∈ turned.rolls := by simp [turned]
          have uncounted := countRollVote_erased (sameItems ▸ distinct) isThere
            (removeVoter_find? roll guid) maxRollType (c done.length)
          rw [Roll.removeVoter_itemGUID] at uncounted
          simp only [found, written, length_append, length_singleton]
          rw [show { w with rolls := turned.rolls } = turned from rfl, uncounted]
      rw [turn, ih rfl (sameItems ▸ distinct) (Nat.le_of_succ_le_succ enough)]
      simp [turned]

end LootWorld

namespace Roll

variable {r : Roll}

theorem Covered.allVoted_of_everyone (covered : r.Covered) (everyone : r.EveryoneVoted) :
    r.allVoted := by
  have all : r.playerVote.countVal isVoted = r.playerVote.size := by
    rw [countVal_eq_size_iff]
    intro e member
    have := everyone e member
    have := covered.valid e member
    cases vote : e.2 <;> simp_all [isVoted]
  have parts := countVal_voted r.playerVote
  have need := covered.need
  have greed := covered.greed
  have pass := covered.pass
  have rolling := covered.rolling
  rw [allVoted, decide_eq_true_iff]
  omega

/-- Everybody else has voted. -/
def OthersVoted (r : Roll) (guid : UInt64) : Prop :=
  ∀ e ∈ r.playerVote, e.2 = .notEmitedYet → e.1 = guid

instance (r : Roll) (guid : UInt64) : Decidable (r.OthersVoted guid) :=
  inferInstanceAs (Decidable (∀ e ∈ r.playerVote.toList, e.2 = .notEmitedYet → e.1 = guid))

theorem everyoneVoted_removeVoter {guid : UInt64} (waits : r.waitsFor guid)
    (others : r.OthersVoted guid) : (r.removeVoter guid).EveryoneVoted := by
  intro e member missing
  have listed : r.playerVote.find? guid = some .notEmitedYet := by simpa [waitsFor] using waits
  have votes : (r.removeVoter guid).playerVote = r.playerVote.erase guid := by
    unfold Roll.removeVoter
    rw [listed]
  rw [votes] at member
  obtain ⟨old, apart⟩ := mem_erase.mp member
  exact apart (others e old missing)

end Roll

namespace LootingGroup

open Machine

/-- A valid roll, on a loot that still has items, that lacks nothing but the
vote of the member who departs. -/
def lacksOnly (s : LootingGroup) (guid : UInt64) (kick : Bool) (r : Roll) : Bool :=
  s.departs kick && r.isValid && s.world.lootHasItems r && r.waitsFor guid &&
    decide (r.OthersVoted guid)

/-- What the loop over the rolls is there for. -/
structure ClosesRolls (s : LootingGroup) (guid : UInt64) (kick : Bool) (removal : Removal) :
    Prop where
  noneLeft : ∀ r ∈ removal.after.world.rolls, r.isValid →
    removal.after.world.lootHasItems r → ¬ r.allVoted
  counted : removal.after.world.counts.map (·.roll) = s.world.counts.map (·.roll) ++
    (s.world.rolls.filter (s.lacksOnly guid kick)).map (·.removeVoter guid)
  stay : removal.after.world.rolls.map (·.itemGUID) =
    (s.world.rolls.filter (!s.lacksOnly guid kick ·)).map (·.itemGUID)
  visits : removal.visited = if s.departs kick then s.world.rolls.map (·.itemGUID) else []

/-- Every valid roll with items lacks a vote of somebody who stays: its tallies
are below the number of players, by two where the departing member's is missing. -/
def LacksOthers (s : LootingGroup) (guid : UInt64) (kick : Bool) : Prop :=
  ∀ r ∈ s.world.rolls, r.isValid → s.world.lootHasItems r →
    r.voted + (if s.departs kick && r.waitsFor guid then 1 else 0) < r.totalPlayersRolling.toNat

instance (s : LootingGroup) (guid : UInt64) (kick : Bool) : Decidable (s.LacksOthers guid kick) :=
  inferInstanceAs (Decidable (∀ r ∈ s.world.rolls, _))

variable {s : LootingGroup}

theorem removeMember_eq_some {guid : UInt64} {kick : Bool}
    {around : Surroundings} {c : Nat → Roll.Chance} {removal : Removal}
    (distinct : (s.world.rolls.map (·.itemGUID)).Nodup)
    (goesOn : s.removeMember guid kick around c = some removal) :
    removal.after.world = { s.world with
        rolls := s.world.rolls.map fun r => if s.departs kick then r.removeVoter guid else r } ∧
      removal.visited = if s.departs kick then s.world.rolls.map (·.itemGUID) else [] := by
  unfold removeMember at goesOn
  cases departs : s.departs kick with
  | false =>
    rw [departs] at goesOn
    cases goesOn
    simp
  | true =>
    have loop : LootWorld.removeVotes guid c s.world.rolls.length ([] : List Roll).length
        (s.world, []) = _ :=
      LootWorld.removeVotes_eq guid c s.world.rolls rfl distinct (Nat.le_refl _)
    rw [length_nil] at loop
    rw [departs, loop] at goesOn
    simp only [Bool.not_true, Bool.false_eq_true, if_false] at goesOn
    split at goesOn
    · split at goesOn
      · cases goesOn
      · cases goesOn
        simp
    · cases goesOn

theorem noneLeft_iff (covered : s.world.RollsCovered) {guid : UInt64}
    {kick : Bool} {world : LootWorld} (left : world = { s.world with
      rolls := s.world.rolls.map fun r => if s.departs kick then r.removeVoter guid else r }) :
    (∀ r ∈ world.rolls, r.isValid → world.lootHasItems r → ¬ r.allVoted) ↔
      s.LacksOthers guid kick := by
  subst left
  have complete : ∀ r ∈ s.world.rolls, (if s.departs kick then r.removeVoter guid else r).allVoted ↔
        r.totalPlayersRolling.toNat ≤
          r.voted + if s.departs kick && r.waitsFor guid then 1 else 0 := by
    intro r member
    cases s.departs kick with
    | true => exact (covered r member).allVoted_removeVoter guid
    | false => simp [Roll.allVoted, Roll.voted]
  have sameLoot : ∀ r : Roll, (if s.departs kick then r.removeVoter guid else r).loot = r.loot := by
    intro r
    split
    · exact Roll.removeVoter_loot r guid
    · rfl
  constructor
  · intro noneLeft r member valid items
    have isOpen := noneLeft _ (List.mem_map_of_mem member)
    unfold Roll.isValid LootWorld.lootHasItems at isOpen
    rw [sameLoot, complete r member] at isOpen
    exact Nat.lt_of_not_le (isOpen valid items)
  · intro lacks r member valid items isOver
    obtain ⟨old, isOld, rfl⟩ := List.mem_map.mp member
    unfold Roll.isValid at valid
    unfold LootWorld.lootHasItems at items
    rw [sameLoot] at valid items
    exact absurd ((complete old isOld).mp isOver) (Nat.not_le_of_lt (lacks old isOld valid items))

theorem not_lacksOnly (covered : s.world.RollsCovered) {guid : UInt64}
    {kick : Bool} (lacks : s.LacksOthers guid kick) {r : Roll} (member : r ∈ s.world.rolls) :
    s.lacksOnly guid kick r = false := by
  apply Bool.eq_false_iff.mpr
  intro isLast
  simp only [lacksOnly, Bool.and_eq_true, decide_eq_true_eq] at isLast
  obtain ⟨⟨⟨⟨departs, valid⟩, items⟩, waits⟩, others⟩ := isLast
  have isOver := ((covered r member).removeVoter guid).allVoted_of_everyone
    (Roll.everyoneVoted_removeVoter waits others)
  have enough := ((covered r member).allVoted_removeVoter guid).mp isOver
  have short := lacks r member valid items
  rw [departs, Bool.true_and] at short
  exact absurd enough (Nat.not_le_of_lt short)

/-- **A departure does what its loop is there for exactly when it finds nothing to close**: no valid
roll with items whose tallies are complete, before it or after. -/
theorem removeMember_closes_iff (store : ItemStore) (looterGuid : UInt64)
    (events : List LootWorld.Event) {s : LootingGroup}
    (reached : s.world = run (LootWorld.step store) (LootWorld.start looterGuid) events)
    (distinct : (s.world.rolls.map (·.itemGUID)).Nodup) {guid : UInt64} {kick : Bool}
    {around : Surroundings} {c : Nat → Roll.Chance} {removal : Removal}
    (goesOn : s.removeMember guid kick around c = some removal) :
    s.ClosesRolls guid kick removal ↔ s.LacksOthers guid kick := by
  have covered : s.world.RollsCovered := reached ▸ LootWorld.rollsCovered_run store looterGuid events
  obtain ⟨world, visited⟩ := removeMember_eq_some distinct goesOn
  constructor
  · intro closes
    exact (noneLeft_iff covered world).mp closes.noneLeft
  intro lacks
  have noneLast : ∀ r ∈ s.world.rolls, s.lacksOnly guid kick r = false := fun r member =>
    not_lacksOnly covered lacks member
  refine ⟨(noneLeft_iff covered world).mpr lacks, ?_, ?_, visited⟩
  · have none : s.world.rolls.filter (s.lacksOnly guid kick) = [] :=
      List.filter_eq_nil_iff.mpr fun r member => by simp [noneLast r member]
    rw [none, world]
    simp
  · have all : s.world.rolls.filter (!s.lacksOnly guid kick ·) = s.world.rolls :=
      List.filter_eq_self.mpr fun r member => by simp [noneLast r member]
    rw [all, world, List.map_map]
    apply map_congr_left
    intro r _
    simp only [Function.comp_apply]
    split
    · exact Roll.removeVoter_itemGUID r guid
    · rfl

namespace LastVoter

open LootWorld.SecondVote (store filling chance)

/-- Players 1, 2 and 3 in a party; 1 and 2 roll for a sword, and 1 has voted. -/
def party : Group :=
  let g := ((Group.new false false).create 1).1
  ((g.addMember 2).1.addMember 3).1

def events : List LootWorld.Event :=
  [.fill 0 filling, .groupLoot 0 LootWorld.SecondVote.group fun _ => 900, .lootRoll 1 900 1 chance]

def waiting : LootingGroup where
  group := party
  world := run (LootWorld.step store) (LootWorld.start 0) events

def around : Surroundings where
  online _ := true
  linked := 2
  leaderAway := false

end LastVoter

/-- Player 3, who does not roll, leaves: the roll goes on. -/
theorem closes_without_bystander : LastVoter.waiting.ClosesRolls 3 false
      ((LastVoter.waiting.removeMember 3 false LastVoter.around
        fun _ => LootWorld.SecondVote.chance).get (by decide)) :=
  (removeMember_closes_iff LootWorld.SecondVote.store 0 LastVoter.events rfl (by decide)
    (Option.some_get _).symm).mpr (by decide)

/-- Player 2, for whose vote the roll waits, leaves: it stays open. -/
theorem not_closes_without_lastVoter : ¬ LastVoter.waiting.ClosesRolls 2 false
      ((LastVoter.waiting.removeMember 2 false LastVoter.around
        fun _ => LootWorld.SecondVote.chance).get (by decide)) := by
  intro closes
  have one := congrArg List.length closes.counted
  revert one
  decide

end LootingGroup

end Sky548
