import Sky548.Loot.Tally

/-!
# Who wins a roll

`CountTheRoll` chooses by the counters whether it looks for a need or a greed
winner, and starts its search at the first entry of `playerVote`. The winner has
asked for the item as long as `totalNeed` counts the NEED entries: a player who
has needed must not vote again. The mask of a roll goes out to the clients, and
no vote is held against it.
-/

namespace Sky548

open OrdMap

def RollVote.flag : RollVote → UInt8
  | .pass => 0x01
  | .need => 0x02
  | .greed => 0x04
  | .disenchant => 0x08
  | .notEmitedYet | .notValid => 0

namespace Roll

def allows (r : Roll) (vote : RollVote) : Bool := r.rollVoteMask &&& vote.flag = vote.flag

/-- The votes that win a roll: a need if there is one, else a greed or a
disenchant. -/
def asked (r : Roll) : RollVote → Bool :=
  if r.playerVote.toList.any fun e => isNeed e.2 then isNeed else isGreedy

/-- The winner's recorded vote is among the asked ones and allowed, and his number
is maximal among the players who have asked. -/
def FairWin (r : Roll) (c : Chance) (guid : UInt64) (number : UInt8) : Prop :=
  (r.playerVote.find? guid).any (fun vote => r.asked vote && r.allows vote) ∧
    number = c.randomN guid ∧
    ∀ e ∈ r.playerVote.toList, r.asked e.2 → c.randomN e.1 ≤ number

instance (r : Roll) (c : Chance) (guid : UInt64) (number : UInt8) :
    Decidable (r.FairWin c guid number) :=
  inferInstanceAs (Decidable (_ ∧ _ ∧ ∀ e ∈ r.playerVote.toList, _))

variable {r : Roll}

section Search

theorem randomN_pos (c : Chance) (guid : UInt64) : 0 < c.randomN guid := by
  have small := (c.urand guid).isLt
  have value : (c.randomN guid).toNat = (c.urand guid).val + 1 := by
    rw [Chance.randomN, UInt8.toNat_ofNat']
    omega
  rw [UInt8.lt_iff_toNat_lt, value]
  exact Nat.succ_pos _

variable (c : Chance) (asks : RollVote → Bool)

theorem better_maxresul (best : Best) (e : UInt64 × RollVote) :
    best.maxresul ≤ (better c asks best e).maxresul ∧
      (asks e.2 → c.randomN e.1 ≤ (better c asks best e).maxresul) := by
  unfold better
  rcases asks e.2 with _ | _
  · exact ⟨UInt8.le_refl _, fun impossible => by cases impossible⟩
  simp only [Bool.not_true, Bool.false_eq_true, if_false]
  split
  · rename_i higher
    exact ⟨UInt8.le_of_lt higher, fun _ => UInt8.le_refl _⟩
  · rename_i notHigher
    exact ⟨UInt8.le_refl _, fun _ => UInt8.not_lt.mp notHigher⟩

theorem foldl_better (l : List (UInt64 × RollVote)) : ∀ best : Best,
    (l.foldl (better c asks) best = best ∨ ∃ e ∈ l, asks e.2 ∧
      l.foldl (better c asks) best = ⟨e.1, c.randomN e.1, e.2⟩) ∧
    best.maxresul ≤ (l.foldl (better c asks) best).maxresul ∧
    ∀ e ∈ l, asks e.2 → c.randomN e.1 ≤ (l.foldl (better c asks) best).maxresul := by
  induction l with
  | nil =>
    exact fun best => ⟨Or.inl rfl, UInt8.le_refl _, fun e member => by cases member⟩
  | cons head rest ih =>
    intro best
    obtain ⟨fromRest, above, maximal⟩ := ih (better c asks best head)
    obtain ⟨grows, covers⟩ := better_maxresul c asks best head
    rw [List.foldl_cons]
    refine ⟨?_, UInt8.le_trans grows above, fun e member asksE => ?_⟩
    · rcases fromRest with unchanged | ⟨e, member, asksE, isBest⟩
      · rw [unchanged]
        unfold better
        rcases asksHead : asks head.2 with _ | _
        · exact Or.inl rfl
        simp only [Bool.not_true, Bool.false_eq_true, if_false]
        split
        · exact Or.inr ⟨head, List.mem_cons_self, asksHead, rfl⟩
        · exact Or.inl rfl
      · exact Or.inr ⟨e, List.mem_cons_of_mem _ member, asksE, isBest⟩
    · rcases List.mem_cons.mp member with rfl | inRest
      · exact UInt8.le_trans (covers asksE) above
      · exact maximal e inRest asksE

variable {c asks}

theorem search_of_asking (first : UInt64) {e : UInt64 × RollVote} (member : e ∈ r.playerVote)
    (asksE : asks e.2) :
    ∃ d ∈ r.playerVote, asks d.2 ∧ r.search c asks first = ⟨d.1, c.randomN d.1, d.2⟩ ∧
      ∀ e ∈ r.playerVote, asks e.2 → c.randomN e.1 ≤ c.randomN d.1 := by
  obtain ⟨fromList, -, maximal⟩ :=
    foldl_better c asks r.playerVote.toList ⟨first, 0, .notValid⟩
  change (r.search c asks first = _ ∨ ∃ e ∈ r.playerVote, asks e.2 ∧ r.search c asks first = _)
    at fromList
  change ∀ e ∈ r.playerVote, asks e.2 → c.randomN e.1 ≤ (r.search c asks first).maxresul
    at maximal
  rcases fromList with unchanged | ⟨d, inVotes, asksD, isBest⟩
  · have atMost := maximal e member asksE
    rw [unchanged] at atMost
    exact absurd (randomN_pos c e.1) (UInt8.not_lt.mpr atMost)
  · rw [isBest] at maximal
    exact ⟨d, inVotes, asksD, isBest, maximal⟩

theorem search_of_rollvote {first : UInt64} (isVote : (r.search c asks first).rollvote ≠ .notValid) :
    ∃ e ∈ r.playerVote, asks e.2 := by
  obtain ⟨fromList, -, -⟩ :=
    foldl_better c asks r.playerVote.toList ⟨first, 0, .notValid⟩
  rcases fromList with unchanged | ⟨e, member, asksE, -⟩
  · exact absurd (congrArg Best.rollvote unchanged) isVote
  · exact ⟨e, member, asksE⟩

end Search

/-- The need counter is right, and nobody has cast a vote outside the mask. -/
structure NeedTallied (r : Roll) : Prop where
  need : r.totalNeed.toNat = r.playerVote.countVal isNeed
  size_le : r.playerVote.size ≤ maxRaidSize
  allowed : ∀ e ∈ r.playerVote, r.allows e.2

section

variable (tallied : r.NeedTallied)

include tallied

theorem NeedTallied.asked_eq : r.asked = if r.totalNeed > 0 then isNeed else isGreedy := by
  have positive : r.totalNeed > 0 ↔ (r.playerVote.toList.any fun e => isNeed e.2) = true := by
    rw [gt_iff_lt, UInt8.lt_iff_toNat_lt, tallied.need, List.any_eq_true]
    exact countVal_pos_iff
  unfold asked
  by_cases someNeed : r.totalNeed > 0
  · rw [if_pos someNeed, if_pos (positive.mp someNeed)]
  · rw [if_neg someNeed, if_neg fun any => someNeed (positive.mpr any)]

theorem NeedTallied.fairWin_search {c : Chance}
    {asks : RollVote → Bool} {first : UInt64} (isAsked : r.asked = asks)
    (asking : ∃ e ∈ r.playerVote, asks e.2) :
    r.FairWin c (r.search c asks first).maxguid (r.search c asks first).maxresul := by
  obtain ⟨e, member, asksE⟩ := asking
  obtain ⟨d, inVotes, asksD, isBest, maximal⟩ :=
    search_of_asking (c := c) first member asksE
  rw [isBest]
  refine ⟨?_, rfl, fun e member asksE => maximal e member (isAsked ▸ asksE)⟩
  have recorded : r.playerVote.find? d.1 = some d.2 := find?_eq_some_iff.mpr inVotes
  rw [recorded, isAsked]
  exact Bool.and_eq_true_iff.mpr ⟨asksD, tallied.allowed d inVotes⟩

theorem NeedTallied.fairWin_of_count {l : Loot} {c : Chance}
    {guid : UInt64} {number : UInt8} (won : (r.count l c).outcome = .won guid number true) :
    r.FairWin c guid number := by
  have isAsked := tallied.asked_eq
  have ofAward : ∀ best : Best, (r.awardItem l c best).outcome = .won guid number true →
      guid = best.maxguid ∧ number = best.maxresul := by
    intro best awarded
    unfold awardItem at awarded
    split at awarded
    · cases awarded
    split at awarded
    · cases awarded
      exact ⟨rfl, rfl⟩
    · cases awarded
  unfold count at won
  split at won
  · rename_i someNeed
    rw [if_pos someNeed] at isAsked
    split at won
    · cases won
    obtain ⟨rfl, rfl⟩ := ofAward _ won
    refine tallied.fairWin_search isAsked (countVal_pos_iff.mp ?_)
    rw [← tallied.need]
    exact UInt8.lt_iff_toNat_lt.mp someNeed
  · rename_i noNeed
    rw [if_neg noNeed] at isAsked
    split at won
    · split at won
      · cases won
      dsimp only at won
      split at won
      · rename_i isGreed
        obtain ⟨rfl, rfl⟩ := ofAward _ won
        exact tallied.fairWin_search isAsked (search_of_rollvote (by rw [isGreed]; decide))
      · rename_i isDisenchant
        unfold awardDisenchant at won
        split at won
        · cases won
        · cases won
          exact tallied.fairWin_search isAsked (search_of_rollvote (by rw [isDisenchant]; decide))
      · cases won
    · cases won

theorem NeedTallied.castVote {player : UInt64} {choice : UInt8}
    {old : RollVote} (listed : r.playerVote.find? player = some old) (notNeeded : old ≠ .need)
    (inMask : ∀ vote, voteOfType choice = some vote → r.allows vote) :
    (r.castVote player choice).NeedTallied := by
  unfold Roll.castVote
  split
  · exact tallied
  rename_i vote isVote
  have small := Nat.le_trans (countVal_le_size isNeed r.playerVote) tallied.size_le
  have need := countVal_insert_old (p := isNeed) (v := vote) listed
  have oldCount : (if isNeed old then 1 else 0) = 0 := by
    cases old with
    | need => exact absurd rfl notNeeded
    | _ => rfl
  have sameMask : (r.bump vote).rollVoteMask = r.rollVoteMask := by cases vote <;> rfl
  refine ⟨?_, ?_, fun e member => ?_⟩
  · have bumped := bump_totalNeed vote (tallied.need ▸ small)
    change (r.bump vote).totalNeed.toNat = (r.playerVote.insert player vote).countVal isNeed
    have := tallied.need
    omega
  · rw [size_insert_old listed]
    exact tallied.size_le
  · change decide ((r.bump vote).rollVoteMask &&& e.2.flag = e.2.flag) = true
    rw [sameMask]
    rcases mem_insert.mp member with rfl | ⟨inOld, -⟩
    · exact inMask vote isVote
    · exact tallied.allowed e inOld

theorem NeedTallied.removeVoter (guid : UInt64) : (r.removeVoter guid).NeedTallied := by
  unfold Roll.removeVoter
  split
  · exact tallied
  rename_i vote found
  refine ⟨?_, ?_, fun e member => tallied.allowed e (mem_erase.mp member).1⟩
  · have := toNat_sub_vote (isNeed vote) tallied.need (countVal_erase (p := isNeed) found)
    cases vote <;> exact this
  · change (r.playerVote.erase guid).size ≤ _
    have := size_erase found
    have := tallied.size_le
    omega

end

theorem playerVote_newRoll (g : LootGroup) (autoPass : Bool) (itemGUID : UInt64) (item : LootItem) :
    ∀ e ∈ (g.newRoll autoPass itemGUID item).playerVote, e.2 = .pass ∨ e.2 = .notEmitedYet := by
  refine List.foldlRecOn (motive := fun r : Roll => ∀ e ∈ r.playerVote, e.2 = .pass ∨ e.2 = .notEmitedYet) _ _
    (fun e member => absurd member not_mem_empty) fun r fresh m _ e member => ?_
  obtain ⟨vote, votes, isFresh⟩ := enroll_playerVote (r := r) autoPass m
  rw [votes] at member
  rcases mem_insert.mp member with rfl | ⟨old, -⟩
  · exact isFresh
  · exact fresh e old

theorem rollMask_pass (g : LootGroup) (needBeforeGreed : Bool) (proto : ItemTemplate) :
    g.rollMask needBeforeGreed proto &&& 0x01 = 0x01 := by
  unfold LootGroup.rollMask
  split <;> split <;> decide

end Roll

namespace LootWorld

open Machine

/-- A winner who receives the item, or what it disenchants to, has won fairly. -/
def FairCount (c : RollCount) : Prop :=
  match c.outcome with
  | .won guid number true => c.roll.FairWin c.chance guid number
  | _ => True

instance : ∀ c : RollCount, Decidable (FairCount c)
  | ⟨r, c, _, .won guid number true⟩ => inferInstanceAs (Decidable (r.FairWin c guid number))
  | ⟨_, _, _, .won _ _ false⟩ | ⟨_, _, _, .allPassed⟩ | ⟨_, _, _, .noVoters⟩ => isTrue True.intro

/-- Every roll counted so far was won fairly. -/
def FairlyWon (w : LootWorld) : Prop := ∀ c ∈ w.counts, FairCount c

instance (w : LootWorld) : Decidable w.FairlyWon :=
  inferInstanceAs (Decidable (∀ c ∈ w.counts, FairCount c))

/-- A vote with a known type is inside the mask, and its player has not needed
the item before. -/
def OpenVote (r : Roll) (player : UInt64) (choice : UInt8) : Prop :=
  ∀ vote ∈ Roll.voteOfType choice, r.allows vote ∧ r.playerVote.find? player ≠ some .need

instance (r : Roll) (player : UInt64) (choice : UInt8) : Decidable (OpenVote r player choice) :=
  inferInstanceAs (Decidable (∀ vote ∈ Roll.voteOfType choice, _))

theorem fairCount_of_needTallied {r : Roll} (tallied : r.NeedTallied) (l : Loot)
    (c : Roll.Chance) (byTimer : Bool) : FairCount ⟨r, c, byTimer, (r.count l c).outcome⟩ := by
  unfold FairCount
  split
  · rename_i guid number won
    exact tallied.fairWin_of_count won
  · exact True.intro

theorem needTalliedRule : RollRule Roll.NeedTallied FairCount OpenVote where
  started group store newItemGUID id needBeforeGreed l r member := by
    obtain ⟨autoPass, guid, item, slot, mask, rfl, isMask⟩ := LootGroup.mem_startRolls member
    have sound := Roll.sound_newRoll group autoPass guid item
    have passes : mask &&& 0x01 = 0x01 := by
      rcases isMask with rfl | ⟨proto, rfl⟩
      · rfl
      · exact Roll.rollMask_pass group needBeforeGreed proto
    refine ⟨sound.tallied.need, sound.size_le, fun e isEntry => decide_eq_true ?_⟩
    rcases Roll.playerVote_newRoll group autoPass guid item e isEntry with isPass | isFresh
    · rw [isPass]
      exact passes
    · rw [isFresh]
      exact UInt8.and_zero
  removed r guid tallied := tallied.removeVoter guid
  cut r tallied := ⟨tallied.need, tallied.size_le, tallied.allowed⟩
  voted r player choice old tallied listed openVote := by
    cases isVote : Roll.voteOfType choice with
    | none =>
      rw [show r.castVote player choice = r by unfold Roll.castVote; rw [isVote]]
      exact tallied
    | some vote =>
      have notNeeded := (openVote vote isVote).2
      exact tallied.castVote listed (fun needed => notNeeded (needed ▸ listed))
        fun vote isVote => (openVote vote isVote).1
  countedVote r l c tallied _ := fairCount_of_needTallied tallied l c false
  countedTimer r l c tallied := fairCount_of_needTallied tallied l c true

/-- **Rolls are won by players who have asked for the item**, in every run where
no vote is outside the mask of its roll and nobody who needs votes again. -/
theorem throughout_fairlyWon_of_openVotes (store : ItemStore) (looterGuid : UInt64)
    (events : List Event)
    (votes : EachStep (step store) (VoteMeets OpenVote) (start looterGuid) events) :
    Throughout (step store) FairlyWon (start looterGuid) events :=
  (Throughout.of_eachStep (rollsInv_start looterGuid)
    (fun _ _ inv openVote => inv.step needTalliedRule openVote) votes).mono
    fun _ inv => inv.counts

/-- Player 1 needs, player 2 is greedy. -/
theorem fairlyWon_of_needing_once : Throughout (step SecondVote.store) FairlyWon (start 0)
      [.fill 0 SecondVote.filling, .groupLoot 0 SecondVote.group fun _ => 900,
        .lootRoll 1 900 1 SecondVote.chance, .lootRoll 2 900 2 SecondVote.chance] :=
  throughout_fairlyWon_of_openVotes SecondVote.store 0 _ (by decide)

/-- Player 2 needs and then passes, and the item goes to player 1, who has not
voted at all. -/
theorem not_fairlyWon_of_passing_after_need :
    ¬ Throughout (step SecondVote.store) FairlyWon (start 0)
      [.fill 0 SecondVote.filling, .groupLoot 0 SecondVote.group fun _ => 900,
        .lootRoll 2 900 1 SecondVote.chance, .lootRoll 2 900 0 SecondVote.chance] := by
  decide

end LootWorld

end Sky548
