import Mathlib.Data.List.Perm.Subperm
import Sky548.FirstFit
import Sky548.Lfg.GuidTexts
import Sky548.Lfg.Match

/-!
# What the search finds

`FindNewGroups` goes on with each GUID that is compatible with those it has, and never gives one
back. So it finds a match exactly if there is one that passes over no compatible GUID
(`findNewGroups_iff`).

The compatibilities come from the cache or from a check that fills it. As long as what is cached is
right (`Correct`), the cache changes nothing.
-/

namespace Sky548

open List

namespace LFGQueue

variable {q q' : LFGQueue} {env : LfgEnv}

theorem census_of_sameData (same : q.SameData q') (check : List UInt64) :
    ∀ c : Census, q'.census env check c = q.census env check c := by
  induction check with
  | nil => exact fun _ => rfl
  | cons guid rest ih =>
    intro c
    unfold census
    rw [same guid]
    simp only [ih]

theorem assess_of_sameData (same : q.SameData q') (check : List UInt64) :
    q'.assess env check = q.assess env check := by
  have settles : ∀ c, q'.settle env check c = q.settle env check c := by
    intro c
    unfold settle agree joinRoles
    rw [same.rolesOf, same.dungeonsOf]
    have dungeons : ∀ l, q'.joinDungeons l = q.joinDungeons l := by
      intro l
      cases l with
      | nil => rfl
      | cons first rest =>
        unfold joinDungeons
        rw [same.dungeonsOf]
    simp only [dungeons]
  unfold assess
  rw [census_of_sameData same]
  simp only [settles]

end LFGQueue

/-- What a compatibility says of a choice, of GUIDs that are all queued -/
def LfgCompatibility.fill : LfgCompatibility → Fill
  | .isMatch | .badStates => .full
  | .withLessPlayers => .room
  | _ => .unfit

namespace LfgSearch

variable {env : LfgEnv} {s s₀ s' : LfgSearch} {base check : List UInt64}

def judge (s : LfgSearch) (env : LfgEnv) (check : List UInt64) : Fill :=
  (s.checkCompatibility env check).2.fill

/-- The queue data are those of the start, and what is cached for GUIDs of the queue is what a check would
say. -/
structure Correct (env : LfgEnv) (s₀ : LfgSearch) (base : List UInt64) (s : LfgSearch) : Prop where
  data : s₀.queue.SameData s.queue
  cached : ∀ check, check.Sublist base → check ≠ [] →
    s.queue.getCompatibles (concatenateGuids check) = .pending ∨
      (s.queue.getCompatibles (concatenateGuids check)).fill = s₀.judge env check

theorem conclude_result (same : s.queue.SameData s'.queue) :
    (s'.conclude env check).2 = (s.conclude env check).2 := by
  unfold conclude
  rw [LFGQueue.assess_of_sameData same]
  cases s.queue.assess env check with
  | notQueued guid => rfl
  | result compatibles => rfl
  | group c roles dungeons =>
    simp only
    split
    · rfl
    · rfl

theorem checkCompatibility_result (check : List UInt64) : ∀ {s s' : LfgSearch},
    s.queue.SameData s'.queue →
    (s'.checkCompatibility env check).2 = (s.checkCompatibility env check).2 := by
  induction check with
  | nil => exact fun _ => rfl
  | cons front rest ih =>
    intro s s' same
    unfold checkCompatibility
    split
    · rfl
    split
    · simp only [ih same]
      split
      · rfl
      apply conclude_result
      intro guid
      rw [(checkCompatibility_later env rest s').1.data guid, same guid,
        (checkCompatibility_later env rest s).1.data guid]
    · exact conclude_result same

theorem sublist_eq_of_mem {l l' : List UInt64} (nodup : base.Nodup) (isSublist : l.Sublist base)
    (isSublist' : l'.Sublist base) (same : ∀ guid, guid ∈ l ↔ guid ∈ l') : l = l' := by
  have perm := (perm_ext_iff_of_nodup (nodup.sublist isSublist) (nodup.sublist isSublist')).mpr same
  exact (Nodup.perm_iff_eq_of_sublist nodup isSublist isSublist').mp perm

section Correct

variable (nodup : base.Nodup) (queued : ∀ guid ∈ base, s₀.queue.queueDataStore.find? guid ≠ none)

include nodup in
theorem Correct.setCompatibles (correct : Correct env s₀ base s) (isSublist : check.Sublist base)
    (some : check ≠ []) {compatibles : LfgCompatibility} (right : compatibles.fill = s₀.judge env check) :
    Correct env s₀ base (s.setCompatibles check compatibles) := by
  refine ⟨correct.data, fun check' isSublist' some' => ?_⟩
  have stored : (s.setCompatibles check compatibles).queue.getCompatibles (concatenateGuids check') =
      if concatenateGuids check' = concatenateGuids check then compatibles
      else s.queue.getCompatibles (concatenateGuids check') := rfl
  rw [stored]
  split
  · rename_i sameKey
    obtain rfl := sublist_eq_of_mem nodup isSublist' isSublist (mem_of_concatenateGuids some' some sameKey)
    exact Or.inr right
  · exact correct.cached check' isSublist' some'

theorem Correct.result (correct : Correct env s₀ base s) (check : List UInt64) :
    (s.checkCompatibility env check).2.fill = s₀.judge env check := by
  rw [judge, checkCompatibility_result check correct.data]

theorem createProposal_cache (env : LfgEnv) (check : List UInt64) (c : LFGQueue.Census)
    (roles : LfgRolesMap) (dungeons : LfgDungeonSet) (s : LfgSearch) :
    (s.createProposal env check c roles dungeons).queue.compatibleMapStore =
      s.queue.compatibleMapStore :=
  List.foldlRecOn (motive := fun q : LFGQueue => q.compatibleMapStore = _) check _ rfl fun _ same _ _ => same

include nodup queued in
theorem Correct.conclude (correct : Correct env s₀ base s) (isSublist : check.Sublist base)
    (some : check ≠ []) (isResult : (s.conclude env check).2.fill = s₀.judge env check) :
    Correct env s₀ base (s.conclude env check).1 := by
  unfold LfgSearch.conclude at isResult ⊢
  split
  · rename_i guid notQueued
    obtain ⟨member, absent⟩ := LFGQueue.census_of_assess notQueued
    rw [correct.data guid] at absent
    exact absurd absent (queued guid (isSublist.subset member))
  · rename_i compatibles isVerdict
    rw [isVerdict] at isResult
    exact correct.setCompatibles nodup isSublist some isResult
  · rename_i c roles dungeons isVerdict
    rw [isVerdict] at isResult
    simp only at isResult
    split
    · rename_i notAll
      rw [if_pos notAll] at isResult
      exact correct.setCompatibles nodup isSublist some isResult
    rename_i all
    rw [if_neg all] at isResult
    have created : Correct env s₀ base (s.createProposal env check c roles dungeons) := by
      have createdData : s.queue.SameData (s.createProposal env check c roles dungeons).queue :=
        sameData_createProposal check c roles dungeons
      refine ⟨fun guid => ?_, fun check' isSublist' some' => ?_⟩
      · rw [createdData guid, correct.data guid]
      · have sameCache := createProposal_cache env check c roles dungeons s
        rw [LFGQueue.getCompatibles, sameCache]
        exact correct.cached check' isSublist' some'
    exact created.setCompatibles nodup isSublist some isResult

include nodup queued in
theorem Correct.checkCompatibility (check : List UInt64) : ∀ {s : LfgSearch}, Correct env s₀ base s →
    check.Sublist base → Correct env s₀ base (s.checkCompatibility env check).1 := by
  induction check with
  | nil => exact fun correct _ => correct
  | cons front rest ih =>
    intro s correct isSublist
    have isResult := correct.result (front :: rest)
    have some : front :: rest ≠ [] := cons_ne_nil _ _
    unfold LfgSearch.checkCompatibility at isResult ⊢
    split
    · exact correct
    rename_i notLarge
    rw [if_neg notLarge] at isResult
    split
    · rename_i many
      rw [if_pos many] at isResult
      have child := ih correct ((sublist_cons_self front rest).trans isSublist)
      simp only at isResult ⊢
      split
      · rename_i isUnfit
        rw [if_pos isUnfit] at isResult
        exact child.setCompatibles nodup isSublist some isResult
      · rename_i notUnfit
        rw [if_neg notUnfit] at isResult
        exact child.conclude nodup queued isSublist some isResult
    · rename_i few
      rw [if_neg few] at isResult
      exact correct.conclude nodup queued isSublist some isResult

variable (allQueued : ∀ guid ∈ base, env.state guid = .queued)

include nodup queued allQueued in
theorem Correct.compatibility (correct : Correct env s₀ base s) (isSublist : check.Sublist base)
    (some : check ≠ []) : Correct env s₀ base (s.compatibility env check).1 ∧
      (s.compatibility env check).2 ≠ .badStates ∧
      (s.compatibility env check).2.fill = s₀.judge env check := by
  have areQueued : env.allQueued check = true := by
    unfold LfgEnv.allQueued
    rw [Bool.and_eq_true_iff]
    refine ⟨decide_eq_true some, List.all_eq_true.mpr fun guid member => ?_⟩
    exact decide_eq_true (allQueued guid (isSublist.subset member))
  have known : ∀ found : LfgSearch × LfgCompatibility, Correct env s₀ base found.1 →
      found.2.fill = s₀.judge env check →
      let result := if found.2 = .badStates && env.allQueued check then
          (found.1.setCompatibles check .isMatch, LfgCompatibility.isMatch)
        else found
      Correct env s₀ base result.1 ∧ result.2 ≠ .badStates ∧ result.2.fill = s₀.judge env check := by
    intro found correct' right
    simp only [areQueued, Bool.and_true, decide_eq_true_eq]
    split
    · rename_i isBad
      rw [isBad] at right
      exact ⟨correct'.setCompatibles nodup isSublist some right, nofun, right⟩
    · rename_i notBad
      exact ⟨correct', notBad, right⟩
  unfold LfgSearch.compatibility
  simp only
  split
  · exact known _ (Correct.checkCompatibility nodup queued check correct isSublist) (correct.result check)
  · rename_i notPending
    exact known _ correct ((correct.cached check isSublist some).resolve_left notPending)

end Correct

theorem eq_isMatch_iff {compatibles : LfgCompatibility} (notBad : compatibles ≠ .badStates) :
    compatibles = .isMatch ↔ compatibles.fill = .full := by
  cases compatibles <;> simp_all [LfgCompatibility.fill]

theorem eq_withLessPlayers_iff {compatibles : LfgCompatibility} :
    compatibles = .withLessPlayers ↔ compatibles.fill = .room := by
  cases compatibles <;> simp [LfgCompatibility.fill]

section Search

variable (nodup : base.Nodup) (queued : ∀ guid ∈ base, s₀.queue.queueDataStore.find? guid ≠ none)
  (allQueued : ∀ guid ∈ base, env.state guid = .queued)

include nodup queued allQueued in
theorem matchQueued_iff (all : List UInt64) : ∀ {check : List UInt64} {s : LfgSearch},
    Correct env s₀ base s → (check ++ all).Sublist base →
    ((s.matchQueued env check all).2 = .isMatch ↔ fillUp (s₀.judge env) check all = true) := by
  induction all with
  | nil =>
    intro check s _ _
    exact ⟨nofun, nofun⟩
  | cons next rest ih =>
    intro check s correct isSublist
    have isNext : (check ++ [next]).Sublist base := by
      refine List.Sublist.trans ?_ isSublist
      exact (List.Sublist.refl check).append ((nil_sublist rest).cons_cons next)
    have taken : (check ++ [next] ++ rest).Sublist base := by
      rwa [append_assoc]
    have passed : (check ++ rest).Sublist base :=
      ((List.Sublist.refl check).append (sublist_cons_self next rest)).trans isSublist
    obtain ⟨correct', notBad, right⟩ := correct.compatibility nodup queued allQueued isNext
      (append_ne_nil_of_right_ne_nil _ (cons_ne_nil _ _))
    unfold matchQueued fillUp
    simp only
    rw [← right]
    split
    · rename_i isMatch
      rw [(eq_isMatch_iff notBad).mp isMatch]
      exact ⟨fun _ => rfl, fun _ => isMatch⟩
    rename_i notMatch
    split
    · rename_i isLess
      rw [eq_withLessPlayers_iff.mp isLess]
      exact ih correct' taken
    rename_i notLess
    have isUnfit : (s.compatibility env (check ++ [next])).2.fill = .unfit := by
      cases isFill : (s.compatibility env (check ++ [next])).2.fill with
      | full => exact absurd ((eq_isMatch_iff notBad).mpr isFill) notMatch
      | room => exact absurd (eq_withLessPlayers_iff.mpr isFill) notLess
      | unfit => rfl
    rw [isUnfit]
    exact ih correct' passed

end Search

/-- **The queue of a search**: distinct GUIDs that have queue data and are in the queued state, with a
right cache. -/
structure Ready (env : LfgEnv) (s : LfgSearch) (front : UInt64) : Prop where
  distinct : (front :: s.queue.currentQueueStore).Nodup
  data : ∀ guid ∈ front :: s.queue.currentQueueStore, s.queue.queueDataStore.find? guid ≠ none
  queued : ∀ guid ∈ front :: s.queue.currentQueueStore, env.state guid = .queued
  cache : ∀ check, check.Sublist (front :: s.queue.currentQueueStore) → check ≠ [] →
    s.queue.getCompatibles (concatenateGuids check) = .pending ∨
      (s.queue.getCompatibles (concatenateGuids check)).fill = s.judge env check

variable {front : UInt64}

theorem isMatch_findNewGroups_iff (ready : s.Ready env front) :
    (s.findNewGroups env [front] s.queue.currentQueueStore).2 = .isMatch ↔
      ∃ chosen, FirstFit (s.judge env) [front] s.queue.currentQueueStore chosen := by
  have correct : Correct env s (front :: s.queue.currentQueueStore) s := ⟨fun _ => rfl, ready.cache⟩
  have isFront : [front].Sublist (front :: s.queue.currentQueueStore) :=
    (nil_sublist _).cons_cons front
  obtain ⟨correct', notBad, right⟩ :=
    correct.compatibility ready.distinct ready.data ready.queued isFront (cons_ne_nil _ _)
  unfold findNewGroups
  simp only
  split
  · rename_i isLess
    have hasRoom : s.judge env [front] = .room := right.symm.trans (eq_withLessPlayers_iff.mp isLess)
    rw [matchQueued_iff ready.distinct ready.data ready.queued _ correct' (List.Sublist.refl _)]
    exact fillUp_iff _ (List.nodup_cons.mp ready.distinct).2 hasRoom
  · rename_i notLess
    rw [eq_isMatch_iff notBad, right]
    constructor
    · intro isFull
      refine ⟨[], nil_sublist _, by rwa [append_nil], fun part isPrefix isPart => ?_,
        fun _ _ _ _ _ later => ?_⟩
      · exact absurd (List.prefix_nil.mp isPrefix) isPart
      · obtain ⟨_, member, -⟩ := later
        cases member
    · rintro ⟨chosen, fits⟩
      rcases eq_or_ne chosen [] with rfl | some
      · exact fits.full
      · have hasRoom := fits.room [] nil_prefix (Ne.symm some)
        rw [append_nil, ← right] at hasRoom
        exact absurd (eq_withLessPlayers_iff.mpr hasRoom) notLess

/-- A sub-list of the queue is a full match with the new GUID. -/
def HasMatch (env : LfgEnv) (s : LfgSearch) (front : UInt64) : Prop :=
  ∃ chosen, chosen.Sublist s.queue.currentQueueStore ∧
    (s.checkCompatibility env (front :: chosen)).2 = .isMatch

/-- **A search is complete** exactly if a match, where there is one, is found without passing over a
compatible GUID. -/
theorem findNewGroups_complete_iff (ready : s.Ready env front) :
    (s.HasMatch env front → (s.findNewGroups env [front] s.queue.currentQueueStore).2 = .isMatch) ↔
      (s.HasMatch env front →
        ∃ chosen, FirstFit (s.judge env) [front] s.queue.currentQueueStore chosen) := by
  rw [isMatch_findNewGroups_iff ready]

/-- Everybody is queued, and nobody ignores anybody. -/
def calmEnv : LfgEnv where
  state _ := .queued
  oldState _ := .none
  ignored _ := none
  urand _ _ := 0
  now := 0

/-- A player for two dungeons, in the queue a player for the first of them and four for the second -/
def betweenTwo : LfgSearch where
  queue :=
    { queueDataStore := ((OrdMap.empty.insert 1
          ⟨(OrdMap.empty.insert 1 ()).insert 2 (), OrdMap.empty.insert 1 playerRoleDamage, by decide,
            by decide, by decide⟩).insert 2
          ⟨OrdMap.empty.insert 1 (), OrdMap.empty.insert 2 playerRoleDamage, oneDungeon_ne, by decide,
            by decide⟩).insert 3
          ⟨OrdMap.empty.insert 2 (), (((OrdMap.empty.insert 3 playerRoleTank).insert 4
            playerRoleHealer).insert 5 playerRoleDamage).insert 6 playerRoleDamage, by decide, by decide,
            by decide⟩
      compatibleMapStore := fun _ => .pending
      currentQueueStore := [2, 3]
      newToQueueStore := [] }
  proposals := .empty

theorem ready_betweenTwo : betweenTwo.Ready calmEnv 1 where
  distinct := by decide
  data guid member := by
    have all : (1 :: betweenTwo.queue.currentQueueStore).all (fun guid =>
        betweenTwo.queue.queueDataStore.find? guid ≠ none) = true := by decide
    exact of_decide_eq_true (List.all_eq_true.mp all guid member)
  queued _ _ := rfl
  cache _ _ _ := Or.inl rfl

theorem betweenTwo_complete_iff : betweenTwo.Ready calmEnv 1 ∧ ((betweenTwo.HasMatch calmEnv 1 →
        (betweenTwo.findNewGroups calmEnv [1] betweenTwo.queue.currentQueueStore).2 = .isMatch) ↔
      (betweenTwo.HasMatch calmEnv 1 → ∃ chosen,
        FirstFit (betweenTwo.judge calmEnv) [1] betweenTwo.queue.currentQueueStore chosen)) :=
  ⟨ready_betweenTwo, findNewGroups_complete_iff ready_betweenTwo⟩

set_option maxRecDepth 4000 in
/-- **The player for the first dungeon is taken**, and the four for the second are not tried without him. -/
theorem match_missed : ¬ ∀ (env : LfgEnv) (s : LfgSearch) (front : UInt64), s.Ready env front →
    s.HasMatch env front → (s.findNewGroups env [front] s.queue.currentQueueStore).2 = .isMatch := by
  intro always
  have hasMatch : betweenTwo.HasMatch calmEnv 1 := by
    refine ⟨[3], (List.Sublist.refl [3]).cons 2, ?_⟩
    decide
  have found := always calmEnv betweenTwo 1 ready_betweenTwo hasMatch
  revert found
  decide

end LfgSearch

end Sky548
