import Sky548.Quests.Agreement
import Sky548.Quests.Limits

/-!
# Rewards are given once

The parts of `RewardQuest` and of the packets pass on what `Limits` says, and so
does every run of sound events. What is not sound: a tracking quest that is
completed again by an item or by money while its own reward is given, because the
marks are set at the end; a tracking quest of the week, the month or the dungeon
finder that is confirmed although it is marked or in the log; and a quest with two
marks, of which `RewardQuest` sets the first only.
-/

namespace Sky548

open List
open Function (update_apply update_of_ne update_self)

/-- The mark that is set is the one that counts. -/
def Quest.MarkedOnce (q : Quest) : Prop :=
  q.isRepeatable → (q.isWeekly → ¬ q.isDaily ∧ ¬ q.isDFQuest) ∧
    (q.isMonthly → ¬ q.isWeekly ∧ ¬ q.isDaily ∧ ¬ q.isDFQuest)

namespace QuestPlayer

open Machine QuestLog

variable {t : QuestTemplates} {env : QuestContext} {q : Quest} {limit : RewardLimit} {id : UInt32}
  {log after later : QuestLog} {s s' : QuestPlayer} {n : Nat} {i : Fin maxQuestLogSize}
  {rest : List QuestCall}

theorem marks_of_same {log after : QuestLog} (rewarded : after.rewardedQuests = log.rewardedQuests)
    (df : after.dfQuests = log.dfQuests) (weekly : after.weeklyQuests = log.weeklyQuests)
    (monthly : after.monthlyQuests = log.monthlyQuests)
    (seasonal : after.seasonalQuests = log.seasonalQuests) (limit : RewardLimit) :
    after.marks limit = log.marks limit := by
  cases limit with
  | ever => exact rewarded
  | daily => exact df
  | weekly => exact weekly
  | monthly => exact monthly
  | seasonal event => exact congrFun seasonal event

theorem mem_marks_concludeReward {p : UInt32} (apart : p ≠ q.id) (log : QuestLog) :
    p ∈ (log.concludeReward t q).marks limit ↔ p ∈ log.marks limit := by
  have marked : p ∈ (log.markRewarded t q).marks limit ↔ p ∈ log.marks limit := by
    unfold markRewarded
    split_ifs
    · cases limit <;> simp [marks, apart]
    · rfl
    · cases limit <;> simp [marks, apart]
    · cases limit <;> simp [marks, apart]
    · cases limit with
      | seasonal event =>
        simp only [marks, update_apply]
        split
        · rename_i same
          simp [same, apart]
        · rfl
      | _ => rfl
    · rfl
  rw [← marked]
  cases limit with
  | ever => simp [concludeReward, marks, removeActiveQuest, apart]
  | _ => rfl

theorem marked_concludeReward (binds : limit.Binds q) (once : q.MarkedOnce) (log : QuestLog) :
    q.id ∈ (log.concludeReward t q).marks limit := by
  cases limit with
  | ever => simp [concludeReward, marks]
  | daily => simp [concludeReward, marks, removeActiveQuest, markRewarded, show q.isDFQuest from binds.2]
  | weekly =>
    obtain ⟨notDaily, notDF⟩ := (once binds.1).1 binds.2
    simp [concludeReward, marks, removeActiveQuest, markRewarded, notDaily, notDF,
      show q.isWeekly from binds.2]
  | monthly =>
    obtain ⟨notWeekly, notDaily, notDF⟩ := (once binds.1).2 binds.2
    simp [concludeReward, marks, removeActiveQuest, markRewarded, notDaily, notDF, notWeekly,
      show q.isMonthly from binds.2]
  | seasonal event => exact binds.elim

theorem marks_enterQuest (log : QuestLog) (q : Quest) (limit : RewardLimit) :
    (log.enterQuest q).marks limit = log.marks limit := by
  refine foldlRecOn (motive := fun now : QuestLog => now.marks limit = _) _ _
    (marks_of_same rfl rfl rfl rfl rfl limit) fun now same o _ => ?_
  split
  · unfold insertCounter
    split
    · exact same
    · exact (marks_of_same rfl rfl rfl rfl rfl limit).trans same
  · exact same

theorem marks_logQuest (env : QuestContext) (log : QuestLog) (q : Quest) (i : Fin maxQuestLogSize)
    (limit : RewardLimit) : (log.logQuest env q i).marks limit = log.marks limit := by
  have counters : (log.adjustQuestReqItemCount env q).marks limit = log.marks limit := by
    refine foldlRecOn (motive := fun now : QuestLog => now.marks limit = _) _ _ rfl fun now same o _ => ?_
    split
    · exact (marks_of_same rfl rfl rfl rfl rfl limit).trans same
    · exact same
  rw [← counters]
  unfold logQuest
  split
  · exact marks_of_same rfl rfl rfl rfl rfl limit
  · exact marks_of_same rfl rfl rfl rfl rfl limit

theorem passes_startLoop (s : QuestPlayer) (loop : LogLoop) : Passes t s (s.startLoop loop) := by
  refine Passes.of_calls (fun q => ?_) (fun q member => ?_) rfl (Eases.refl s.log)
  · simp [QuestPlayer.pending, QuestPlayer.begun, startLoop, QuestCall.rewards, QuestCall.begins]
  · simpa [startLoop] using member

theorem passes_turned {loop : LogLoop} {slots slots' : List (Fin maxQuestLogSize)}
    (calls : s.calls = .looping loop slots :: rest) :
    Passes t s { s with calls := .looping loop slots' :: rest } := by
  refine Passes.of_calls (fun q => ?_) (fun q member => ?_) rfl (Eases.refl s.log)
  · simp [QuestPlayer.pending, QuestPlayer.begun, calls, QuestCall.rewards, QuestCall.begins]
  · rw [calls]
    simpa using member

theorem passes_ended {loop : LogLoop} {slots : List (Fin maxQuestLogSize)}
    (calls : s.calls = .looping loop slots :: rest) : Passes t s { s with calls := rest } := by
  refine Passes.of_calls (fun q => ?_) (fun q member => ?_) rfl (Eases.refl s.log)
  · simp [QuestPlayer.pending, QuestPlayer.begun, calls, QuestCall.rewards, QuestCall.begins]
  · rw [calls]
    simpa using member

theorem passes_taken (calls : s.calls = .rewarding q .taking :: rest) : Passes t s { s with
      log := s.log.removeTimedQuest q.id
      calls := .rewarding q .storing :: rest } := by
  refine Passes.of_calls (fun id => ?_) (fun p member => ?_) rfl (eases_removeTimedQuest q.id)
  · simp [QuestPlayer.pending, QuestPlayer.begun, calls, countP_cons, QuestCall.rewards,
      QuestCall.begins]
  · rw [calls]
    simpa using member

theorem clearRewardedSlot_slot {j : Fin maxQuestLogSize} (used : id ≠ 0) (log : QuestLog)
    (p : UInt32) (held : ((log.clearRewardedSlot p).slots j).questId = id) :
    (log.slots j).questId = id := by
  unfold QuestLog.clearRewardedSlot at held
  cases found : log.findQuestSlot p with
  | none =>
    rw [changeSlotOf_of_none found] at held
    exact held
  | some i =>
    rw [changeSlotOf_of_find found] at held
    by_cases here : j = i
    · rw [here, changeSlot_same] at held
      exact absurd held.symm used
    · rwa [changeSlot_other _ here] at held

theorem clearRewardedSlot_gone (used : id ≠ 0)
    (once : ∀ i j, (log.slots i).questId = id → (log.slots j).questId = id → j = i) :
    ¬ (log.clearRewardedSlot id).InLog id := by
  rintro ⟨j, held⟩
  have before := clearRewardedSlot_slot used log id held
  unfold QuestLog.clearRewardedSlot at held
  rw [changeSlotOf_of_find (findQuestSlot_eq before fun i atI => once j i before atI),
    changeSlot_same] at held
  exact used held.symm

theorem clearRewardedSlot_keeps (log : QuestLog) (p : UInt32) :
    (log.clearRewardedSlot p).questStatus = log.questStatus ∧
      ∀ limit, (log.clearRewardedSlot p).marks limit = log.marks limit := by
  unfold QuestLog.clearRewardedSlot changeSlotOf
  split
  · exact ⟨rfl, fun _ => rfl⟩
  · exact ⟨rfl, fun limit => marks_of_same rfl rfl rfl rfl rfl limit⟩

theorem passes_stored (orderly : Orderly t s) (calls : s.calls = .rewarding q .storing :: rest) :
    Passes t s { s with
      log := s.log.clearRewardedSlot q.id
      calls := .rewarding q .paying :: rest } := by
  intro p limit n template binds guarded
  obtain ⟨status, marks⟩ := clearRewardedSlot_keeps s.log q.id
  have pending : QuestPlayer.pending { s with
      log := s.log.clearRewardedSlot q.id
      calls := .rewarding q .paying :: rest } p.id = s.pending p.id := by
    simp [QuestPlayer.pending, calls, countP_cons, QuestCall.rewards]
  have notAbandoning : ∀ id i, s.request ≠ .abandoning id i := by
    intro id i abandoning
    obtain ⟨entry, count, slots, is⟩ := orderly.abandons id i abandoning
      (.rewarding q .storing) (calls ▸ mem_cons_self ..)
    cases is
  refine guarded.of_same (by rw [marks]) pending ?_ fun _ repeated tracked => ?_
  · simp [QuestPlayer.begun, calls, QuestCall.begins]
  by_cases own : p.id = q.id
  · have gone : ¬ (s.log.clearRewardedSlot q.id).InLog p.id := by
      rw [own]
      rw [own] at tracked
      exact clearRewardedSlot_gone (own ▸ t.ne_zero template) tracked.once
    have under : s.pending p.id ≠ 0 := by
      simp [QuestPlayer.pending, calls, QuestCall.rewards, own]
    refine ⟨fun i j atI _ => absurd ⟨i, atI⟩ gone, ⟨fun held => absurd held gone, ?_⟩, ?_,
      fun _ _ _ => gone, fun i is => absurd is (notAbandoning _ i)⟩
    · intro present
      rw [marks]
      refine tracked.held.unmarked (Or.inr ?_)
      rcases present with held | entry
      · exact absurd held gone
      · rwa [status] at entry
    · intro p' i completes couldTake adding ids
      exact absurd (tracked.adds p' i completes couldTake adding ids).2.1 under
  · refine tracked.of_less (fun j => clearRewardedSlot_slot (t.ne_zero template) s.log q.id)
      (Or.inl (congrFun status p.id)) (by rw [marks]; exact fun is => is)
      (fun _ _ _ _ is _ => ⟨is, pending⟩) ?_ fun i is => absurd is (notAbandoning _ i)
    intro p' member ids
    rw [calls]
    rcases List.mem_cons.mp member with this | before
    · cases this
      exact absurd ids.symm own
    · exact mem_cons_of_mem _ before

theorem passes_concluded (orderly : Orderly t s) (calls : s.calls = .rewarding q .paying :: rest)
    (once : q.MarkedOnce) :
    Passes t s { s with
      log := s.log.concludeReward t q
      calls := rest } := by
  intro p limit n template binds guarded
  have notAbandoning : ∀ id i, s.request ≠ .abandoning id i := by
    intro id i abandoning
    obtain ⟨entry, count, slots, is⟩ := orderly.abandons id i abandoning
      (.rewarding q .paying) (calls ▸ mem_cons_self ..)
    cases is
  obtain ⟨slots', status', -⟩ := markRewarded_keeps t s.log q
  have slots : (s.log.concludeReward t q).slots = s.log.slots := slots'
  have noEntry : (s.log.concludeReward t q).questStatus q.id = none := update_self ..
  have before : ∀ call ∈ rest, call ∈ s.calls := fun call member => calls ▸ mem_cons_of_mem _ member
  have inLog : (s.log.concludeReward t q).InLog p.id ↔ s.log.InLog p.id :=
    exists_congr fun j => by rw [slots]
  have started : s.pending p.id = rest.countP (QuestCall.rewards p.id) + if q.id = p.id then 1 else 0 := by
    simp [QuestPlayer.pending, calls, countP_cons, QuestCall.rewards]
  have begun : s.begun p.id = rest.countP (QuestCall.begins p.id) := by
    simp [QuestPlayer.begun, calls, QuestCall.begins]
  by_cases own : q.id = p.id
  · cases Option.some.inj ((own ▸ orderly.rewards q .paying (calls ▸ mem_cons_self ..)).symm.trans
      template)
    rw [if_pos rfl] at started
    have ended : rest.countP (QuestCall.rewards q.id) = 0 := by
      have := guarded.single
      omega
    have marked : q.id ∈ (s.log.concludeReward t q).marks limit := marked_concludeReward binds once s.log
    have unmarked := guarded.unmarked (by omega)
    have count := guarded.count
    rw [if_neg unmarked] at count
    refine ⟨?_, fun under => absurd ended under, ?_, fun tracking repeated => ?_⟩
    · show rest.countP (QuestCall.rewards q.id) ≤ 1
      omega
    · show n + (rest.countP (QuestCall.begins q.id) - s.begun q.id) ≤
        _ + rest.countP (QuestCall.rewards q.id)
      rw [if_pos marked]
      omega
    · have tracked := guarded.tracked tracking repeated
      have gone : ¬ s.log.InLog q.id := tracked.paying q (calls ▸ mem_cons_self ..) rfl
      refine ⟨?_, ⟨fun held => absurd (inLog.mp held) gone, ?_⟩, ?_, ?_,
        fun i is => absurd is (notAbandoning _ i)⟩
      · rw [slots]
        exact tracked.once
      · rintro (held | ⟨d, entry⟩)
        · exact absurd (inLog.mp held) gone
        · rw [noEntry] at entry
          cases entry
      · intro p i completes couldTake adding ids
        have none := (tracked.adds p i completes couldTake adding ids).2.1
        omega
      · exact fun _ _ _ held => gone (inLog.mp held)
  · rw [if_neg own, Nat.add_zero] at started
    have status : (s.log.concludeReward t q).questStatus p.id = s.log.questStatus p.id :=
      (update_of_ne (Ne.symm own) _ _).trans (congrFun status' p.id)
    have marks : p.id ∈ (s.log.concludeReward t q).marks limit ↔ p.id ∈ s.log.marks limit :=
      mem_marks_concludeReward (Ne.symm own) s.log
    refine guarded.of_same marks started.symm begun.ge fun _ _ tracked => ?_
    refine tracked.of_less (fun j => ?_) (Or.inl status) marks.mp
      (fun _ _ _ _ is _ => ⟨is, started.symm⟩) (fun p' member _ => before _ member)
      fun i is => absurd is (notAbandoning _ i)
    rw [slots]
    exact fun held => held

theorem pending_of_idle (idle : s.Idle) (id : UInt32) : s.pending id = 0 := by
  simp [QuestPlayer.pending, idle.2]

theorem notAdding_of_idle (idle : s.Idle) (p : Quest) (i : Fin maxQuestLogSize)
    (completes couldTake : Bool) : s.request ≠ .adding p i completes couldTake := by
  rw [idle.1]
  exact nofun

theorem passes_addQuest (env : QuestContext) (idle : s.Idle)
    (template : t.getQuestTemplate q.id = some q)
    (free : ∀ limit : RewardLimit, limit.Binds q → limit ≠ .ever → q.hasFlag questFlagsTracking →
      Held s.log q.id limit → ¬ s.log.InLog q.id ∧ q.id ∉ s.log.marks limit)
    (completes : Bool) : Passes t s (s.addQuest t env q completes) := by
  unfold QuestPlayer.addQuest
  rcases found : s.log.findQuestSlot 0 with _ | i
  · exact Passes.refl s
  intro p limit n template' binds guarded
  obtain ⟨slots, -, status, -⟩ := enterQuest_spec s.log q
  have marks := marks_enterQuest s.log q limit
  have inLog : ∀ id, (s.log.enterQuest q).InLog id ↔ s.log.InLog id :=
    fun id => exists_congr fun j => by rw [slots]
  refine guarded.of_same (by rw [marks]) rfl le_rfl fun tracking repeated tracked => ?_
  by_cases own : q.id = p.id
  · rw [own] at template
    cases Option.some.inj (template.symm.trans template')
    obtain ⟨out, unmarked⟩ := free limit binds repeated tracking tracked.held
    have entry : ∃ d, (s.log.enterQuest q).questStatus q.id = some d ∧ d.status ≠ .none :=
      ⟨_, (congrFun status q.id).trans (update_self ..), nofun⟩
    refine ⟨?_, ⟨fun _ => entry, fun _ => by rwa [marks]⟩, ?_, ?_, fun i is => by cases is⟩
    · rw [slots]
      exact tracked.once
    · exact fun _ _ _ _ _ _ => ⟨(inLog q.id).not.mpr out, pending_of_idle idle q.id, entry⟩
    · exact fun _ _ _ => (inLog q.id).not.mpr out
  · refine tracked.of_less (fun j => ?_) (Or.inl ?_) (by rw [marks]; exact fun is => is) ?_
      (fun _ member _ => member) fun i is => by cases is
    · rw [slots]
      exact fun held => held
    · rw [status]
      exact update_of_ne (Ne.symm own) _ _
    · rintro p' i' completes' couldTake ⟨⟩ ids
      exact absurd ids own

theorem passes_added {completes couldTake : Bool} (env : QuestContext)
    (adding : s.request = .adding q i completes couldTake) :
    Passes t s { s with
      log := s.log.logQuest env q i
      request := .none } := by
  intro p limit n template binds guarded
  obtain ⟨⟨timer, slots⟩, time, status⟩ := logQuest_stores env q s.log i
  have marks := marks_logQuest env s.log q i limit
  refine guarded.of_same (by rw [marks]) rfl le_rfl fun _ _ tracked => ?_
  have there : ∀ j, j ≠ i → (s.log.logQuest env q i).slots j = s.log.slots j := by
    intro j other
    rw [slots, update_of_ne other]
  have here : ((s.log.logQuest env q i).slots i).questId = q.id := by
    rw [slots, update_self]
  by_cases own : q.id = p.id
  · obtain ⟨out, none, d, entry, taken⟩ := tracked.adds q i completes couldTake adding own
    have entryLater : (s.log.logQuest env q i).questStatus p.id = some { d with timer := time } := by
      rw [status, own, update_self, statusData_of_some entry]
    have only : ∀ j, ((s.log.logQuest env q i).slots j).questId = p.id → j = i := by
      intro j held
      by_contra other
      rw [there j other] at held
      exact out ⟨j, held⟩
    refine ⟨fun a b atA atB => (only b atB).trans (only a atA).symm,
      ⟨fun _ => ⟨_, entryLater, taken⟩, fun _ => ?_⟩, nofun, ?_, nofun⟩
    · rw [marks]
      exact tracked.held.unmarked (Or.inr ⟨d, entry⟩)
    intro p' member ids
    have under : s.pending p.id ≠ 0 := by
      refine (List.countP_pos_iff.mpr ⟨_, member, ?_⟩).ne'
      exact decide_eq_true ids
    exact absurd none under
  · refine tracked.of_less (fun j held => ?_) (Or.inl ?_) (by rw [marks]; exact fun is => is)
      (fun _ _ _ _ is => by cases is) (fun _ member _ => member) fun i is => by cases is
    · by_cases at' : j = i
      · rw [at', here] at held
        exact absurd held own
      · rwa [there j at'] at held
    · rw [status]
      exact update_of_ne (Ne.symm own) _ _

theorem passes_abandoned (abandoning : s.request = .abandoning id i)
    (slots : log.slots = s.log.slots) (status : log.questStatus = s.log.questStatus)
    (marks : ∀ limit, log.marks limit = s.log.marks limit) :
    Passes t s { s with
      log := (log.removeActiveQuest id).setQuestSlot i 0 0
      request := .none } := by
  intro p limit n template binds guarded
  have marks' : ((log.removeActiveQuest id).setQuestSlot i 0 0).marks limit = s.log.marks limit :=
    (marks_of_same rfl rfl rfl rfl rfl limit).trans (marks limit)
  have there : ∀ j, j ≠ i →
      ((log.removeActiveQuest id).setQuestSlot i 0 0).slots j = s.log.slots j :=
    fun j other => (changeSlot_other _ other).trans (congrFun slots j)
  have less : ∀ j, (((log.removeActiveQuest id).setQuestSlot i 0 0).slots j).questId = p.id →
      j ≠ i ∧ (s.log.slots j).questId = p.id := by
    intro j held
    have other : j ≠ i := by
      rintro rfl
      unfold setQuestSlot at held
      rw [changeSlot_same] at held
      exact t.ne_zero template held.symm
    rw [there j other] at held
    exact ⟨other, held⟩
  refine guarded.of_same (by rw [marks']) rfl le_rfl fun _ _ tracked => ?_
  by_cases own : p.id = id
  · have gone : ¬ ((log.removeActiveQuest id).setQuestSlot i 0 0).InLog p.id := by
      rintro ⟨j, held⟩
      obtain ⟨other, before⟩ := less j held
      exact other (tracked.once i j (tracked.abandons i (own ▸ abandoning)) before)
    have noEntry : ((log.removeActiveQuest id).setQuestSlot i 0 0).questStatus p.id = none := by
      rw [own]
      exact update_self ..
    refine ⟨fun a b atA _ => absurd ⟨a, atA⟩ gone, ⟨fun held => absurd held gone, ?_⟩, nofun,
      fun _ _ _ => gone, nofun⟩
    rintro (held | ⟨d, entry⟩)
    · exact absurd held gone
    · rw [noEntry] at entry
      cases entry
  · refine tracked.of_less (fun j held => (less j held).2) (Or.inl ?_)
      (by rw [marks']; exact fun is => is) (fun _ _ _ _ is => by cases is) (fun _ member _ => member)
      fun i is => by cases is
    exact (update_of_ne own _ _).trans (congrFun status p.id)

theorem passes_abandonQuest (env : QuestContext) (i : Fin maxQuestLogSize) : Passes t s (s.abandonQuest t env i) := by
  unfold QuestPlayer.abandonQuest
  dsimp only
  split
  · rename_i empty
    refine passes_of_eases ⟨fun j => ?_, fun limit => marks_of_same rfl rfl rfl rfl rfl limit,
      fun _ _ _ _ _ _ => Or.inl rfl⟩
    unfold setQuestSlot
    by_cases here : j = i
    · rw [here, changeSlot_same]
      exact empty.symm
    · rw [changeSlot_other _ here]
  · split
    · exact Passes.refl s
    intro p limit n template binds guarded
    refine guarded.of_same Iff.rfl rfl le_rfl fun _ _ tracked => ?_
    refine ⟨tracked.once, tracked.held, nofun, tracked.paying, ?_⟩
    intro j is
    injection is with ids at'
    exact at' ▸ ids

theorem passes_swapQuest (idle : s.Idle) (i j : Fin maxQuestLogSize) :
    Passes t s (s.swapQuest i j) := by
  unfold QuestPlayer.swapQuest
  split
  · exact Passes.refl s
  intro p limit n template binds guarded
  have marks : (s.log.swapQuestSlot i j).marks limit = s.log.marks limit :=
    marks_of_same rfl rfl rfl rfl rfl limit
  refine guarded.of_same (by rw [marks]) rfl le_rfl fun _ _ tracked => ?_
  have inLog : (s.log.swapQuestSlot i j).InLog p.id → s.log.InLog p.id := by
    rintro ⟨a, held⟩
    rw [swapQuestSlot_slots] at held
    exact ⟨_, held⟩
  refine ⟨?_, ⟨fun held => tracked.held.entered (inLog held), fun present => ?_⟩, ?_,
    fun p' member ids held => tracked.paying p' member ids (inLog held), ?_⟩
  · intro a b atA atB
    rw [swapQuestSlot_slots] at atA atB
    exact (Equiv.swap i j).injective (tracked.once _ _ atA atB)
  · rw [marks]
    exact tracked.held.unmarked (present.imp_left inLog)
  · exact fun p' a completes couldTake is => absurd is (notAdding_of_idle idle p' a completes couldTake)
  · exact fun a is => absurd is (notAbandoning_of_idle idle _ a)

theorem passes_completeIfCan_of_idle (s : QuestPlayer) (env : QuestContext) (idle : s.Idle)
    (questId : UInt32) : Passes t s (s.completeIfCan t env questId) :=
  passes_completeIfCan env (fun _ _ _ _ _ _ => pending_of_idle idle questId)
    (Or.inr (notAdding_of_idle idle))

theorem passes_chooseReward (env : QuestContext) (idle : s.Idle) (questId reward : UInt32) :
    Passes t s (s.chooseReward t env questId reward) := by
  unfold QuestPlayer.chooseReward
  rcases template : t.getQuestTemplate questId with _ | q
  · exact Passes.refl s
  have own : t.getQuestTemplate q.id = some q := (t.keyed template).symm ▸ template
  dsimp only
  split
  · exact Passes.refl s
  split
  · exact Passes.refl s
  split
  · rename_i can
    refine passes_rewardQuest ?_ (Or.inr (notAdding_of_idle idle)) own
    exact fun limit binds _ => ⟨pending_of_idle idle q.id, unmarked_of_canReward own binds can⟩
  · exact Passes.refl s

theorem passes_areaExplored (env : QuestContext) (idle : s.Idle) (questId : UInt32) :
    Passes t s (s.areaExplored t env questId) := by
  unfold QuestPlayer.areaExplored
  split
  · rename_i listed
    rw [Bool.and_eq_true] at listed
    obtain ⟨i, held⟩ := findQuestSlot_isSome.mp listed.2
    have explored : Eases t s.log (s.log.setStatusData questId
        { s.log.statusData questId with explored := true }) := by
      refine eases_setStatusData fun q limit _ _ _ own before => ?_
      subst own
      obtain ⟨d, entry, taken⟩ := before.entered ⟨i, held⟩
      rw [statusData_of_some entry]
      exact ⟨taken, before.unmarked (Or.inl ⟨i, held⟩)⟩
    have idle' : Idle ⟨s.log.setStatusData questId
        { s.log.statusData questId with explored := true }, s.request, s.calls⟩ := idle
    exact (passes_of_eases explored).trans (passes_completeIfCan_of_idle _ env idle' questId)
  · exact passes_completeIfCan_of_idle s env idle questId

theorem passes_resumeRequest (env : QuestContext) (calls : s.calls = []) :
    Passes t s (s.resumeRequest t env) := by
  unfold QuestPlayer.resumeRequest
  cases request : s.request with
  | none => exact Passes.refl s
  | adding q i completes couldTake =>
    dsimp only
    have added : Passes t s { s with
        log := s.log.logQuest env q i
        request := .none } := passes_added env request
    split
    · have idle : Idle ⟨s.log.logQuest env q i, .none, s.calls⟩ := ⟨rfl, calls⟩
      exact added.trans (passes_completeIfCan_of_idle _ env idle q.id)
    · exact added
  | abandoning questId i =>
    dsimp only
    split
    · refine passes_abandoned request (rfl : (s.log.removeTimedQuest questId).slots = s.log.slots) rfl ?_
      exact fun limit => marks_of_same rfl rfl rfl rfl rfl limit
    · exact passes_abandoned request rfl rfl fun _ => rfl

/-! ## The calls stay in order -/

section

variable (orderly : Orderly t s)

include orderly

theorem Orderly.of_less (rewards : ∀ q stage, .rewarding q stage ∈ s'.calls →
      (∃ stage', .rewarding q stage' ∈ s.calls) ∨ t.getQuestTemplate q.id = some q)
    (adds : ∀ q i completes couldTake, s'.request = .adding q i completes couldTake →
      s.request = .adding q i completes couldTake)
    (abandons : ∀ id i, s'.request = .abandoning id i → s.request = .abandoning id i ∧
      ∀ call ∈ s'.calls, call ∈ s.calls ∨
        ∃ entry count rest, call = .looping (.itemRemoved entry count) rest) : Orderly t s' := by
  refine ⟨fun q stage member => ?_, fun q i completes couldTake adding =>
    orderly.adds q i completes couldTake (adds q i completes couldTake adding), fun id i is call member => ?_⟩
  · rcases rewards q stage member with ⟨stage', before⟩ | template
    · exact orderly.rewards q stage' before
    · exact template
  · obtain ⟨before, calls⟩ := abandons id i is
    rcases calls call member with old | loop
    · exact orderly.abandons id i before call old
    · exact loop

theorem Orderly.of_same (request : s'.request = s.request)
    (calls : s'.calls = s.calls) : Orderly t s' := by
  constructor
  · rw [calls]
    exact orderly.rewards
  · rw [request]
    exact orderly.adds
  · rw [request, calls]
    exact orderly.abandons

theorem Orderly.rewardQuest (template : t.getQuestTemplate q.id = some q)
    (notAbandoning : ∀ id i, s.request ≠ .abandoning id i) : Orderly t (s.rewardQuest q) := by
  refine orderly.of_less (fun p stage member => ?_) (fun _ _ _ _ is => is)
    fun id i is => absurd is (notAbandoning id i)
  rcases List.mem_cons.mp member with this | before
  · cases this
    exact Or.inr template
  · exact Or.inl ⟨stage, before⟩

theorem Orderly.completeIfCan (env : QuestContext)
    (notAbandoning : ∀ id i, s.request ≠ .abandoning id i) (questId : UInt32) :
    Orderly t (s.completeIfCan t env questId) := by
  unfold QuestPlayer.completeIfCan
  split
  · have marked : Orderly t { s with log := s.log.markComplete t questId } := orderly.of_same rfl rfl
    unfold QuestPlayer.completeQuest
    rcases template : t.getQuestTemplate questId with _ | q
    · exact marked
    dsimp only
    split
    · exact marked.rewardQuest ((t.keyed template).symm ▸ template) notAbandoning
    · exact marked
  · exact orderly

theorem Orderly.afterTurn (env : QuestContext) (turn : QuestLog × Option Quest)
    (quiet : turn.2 = none ∨ ∀ id i, s.request ≠ .abandoning id i) :
    Orderly t (s.afterTurn t env turn) := by
  have counted : Orderly t { s with log := turn.1 } := orderly.of_same rfl rfl
  unfold QuestPlayer.afterTurn
  cases done : turn.2 with
  | none => exact counted
  | some q =>
    rw [done] at quiet
    exact counted.completeIfCan env (quiet.resolve_left nofun) q.id

theorem Orderly.addQuest (env : QuestContext)
    (template : t.getQuestTemplate q.id = some q) (completes : Bool) :
    Orderly t (s.addQuest t env q completes) := by
  unfold QuestPlayer.addQuest
  split
  · exact orderly
  · refine ⟨orderly.rewards, ?_, nofun⟩
    rintro p i completes couldTake ⟨⟩
    exact template

theorem Orderly.abandonQuest (env : QuestContext) (idle : s.Idle)
    (i : Fin maxQuestLogSize) : Orderly t (s.abandonQuest t env i) := by
  unfold QuestPlayer.abandonQuest
  dsimp only
  split
  · exact orderly.of_same rfl rfl
  split
  · exact orderly
  · refine ⟨orderly.rewards, nofun, fun id j _ call member => ?_⟩
    rw [show s.calls = [] from idle.2] at member
    cases member

theorem Orderly.notAbandoning {call : QuestCall} (calls : s.calls = call :: rest)
    (other : ∀ entry count rest, call ≠ .looping (.itemRemoved entry count) rest) (id : UInt32)
    (i : Fin maxQuestLogSize) : s.request ≠ .abandoning id i := by
  intro abandoning
  obtain ⟨entry, count, rest, is⟩ :=
    orderly.abandons id i abandoning call (calls ▸ mem_cons_self ..)
  exact other entry count rest is

theorem Orderly.answer (idle : s.Idle) (e : Event) : Orderly t (s.answer t e) := by
  have notAbandoning := notAbandoning_of_idle idle
  cases e with
  | accept env questId =>
    show Orderly t (s.acceptQuest t env questId)
    unfold QuestPlayer.acceptQuest
    split
    · exact orderly
    rename_i q template
    split
    · exact orderly
    · split
      · exact orderly
      · exact orderly.addQuest env ((t.keyed template).symm ▸ template) true
  | confirmAccept env questId =>
    show Orderly t (s.confirmAccept t env questId)
    unfold QuestPlayer.confirmAccept
    split
    · exact orderly
    rename_i q template
    split
    · exact orderly
    · split
      · exact orderly.addQuest env ((t.keyed template).symm ▸ template) false
      · exact orderly
  | requestReward env questId => exact orderly.completeIfCan env notAbandoning questId
  | chooseReward env questId reward =>
    show Orderly t (s.chooseReward t env questId reward)
    unfold QuestPlayer.chooseReward
    split
    · exact orderly
    rename_i q template
    split
    · exact orderly
    split
    · exact orderly
    · split
      · exact orderly.rewardQuest ((t.keyed template).symm ▸ template) notAbandoning
      · exact orderly
  | swap i j =>
    show Orderly t (s.swapQuest i j)
    unfold QuestPlayer.swapQuest
    split
    · exact orderly
    · exact orderly.of_same rfl rfl
  | abandon env i => exact orderly.abandonQuest env idle i
  | credit loop =>
    refine orderly.of_less (fun p stage member => Or.inl ⟨stage, ?_⟩) (fun _ _ _ _ is => is)
      fun id i is => absurd is (notAbandoning id i)
    simpa [QuestPlayer.answer, startLoop] using member
  | areaExplored env questId =>
    show Orderly t (s.areaExplored t env questId)
    apply Orderly.completeIfCan
    · exact orderly.of_same rfl rfl
    · exact notAbandoning
  | reset limit => exact orderly.of_same rfl rfl
  | itemAdded env entry count => exact orderly
  | itemRemoved entry count => exact orderly
  | moneyChanged count => exact orderly
  | resume env => exact orderly

theorem Orderly.resume (env : QuestContext) : Orderly t (s.resume t env) := by
  unfold QuestPlayer.resume
  split
  · rename_i q rest calls
    have notAbandoning := orderly.notAbandoning calls nofun
    refine orderly.of_less (fun p stage member => Or.inl ?_) (fun _ _ _ _ is => is)
      fun id i is => absurd is (notAbandoning id i)
    rw [calls]
    rcases List.mem_cons.mp member with this | before
    · cases this
      exact ⟨.taking, mem_cons_self ..⟩
    · exact ⟨stage, mem_cons_of_mem _ before⟩
  · rename_i q rest calls
    have notAbandoning := orderly.notAbandoning calls nofun
    refine orderly.of_less (fun p stage member => Or.inl ?_) (fun _ _ _ _ is => is)
      fun id i is => absurd is (notAbandoning id i)
    rw [calls]
    rcases List.mem_cons.mp member with this | before
    · cases this
      exact ⟨.storing, mem_cons_self ..⟩
    · exact ⟨stage, mem_cons_of_mem _ before⟩
  · rename_i q rest calls
    refine orderly.of_less (fun p stage member => Or.inl ⟨stage, calls ▸ mem_cons_of_mem _ member⟩)
      (fun _ _ _ _ is => is) fun id i is => ⟨is, fun call member => Or.inl ?_⟩
    exact calls ▸ mem_cons_of_mem _ member
  · rename_i loop rest calls
    refine orderly.of_less (fun p stage member => Or.inl ⟨stage, calls ▸ mem_cons_of_mem _ member⟩)
      (fun _ _ _ _ is => is) fun id i is => ⟨is, fun call member => Or.inl ?_⟩
    exact calls ▸ mem_cons_of_mem _ member
  · rename_i loop i slots rest calls
    have turned : Orderly t { s with calls := .looping loop slots :: rest } := by
      refine orderly.of_less (fun p stage member => Or.inl ⟨stage, ?_⟩) (fun _ _ _ _ is => is)
        fun id a is => ⟨is, fun call member => ?_⟩
      · rw [calls]
        simpa using member
      rcases List.mem_cons.mp member with this | before
      · obtain ⟨entry, count, later, is'⟩ := orderly.abandons id a is (.looping loop (i :: slots))
          (calls ▸ mem_cons_self ..)
        cases is'
        exact Or.inr ⟨entry, count, slots, this⟩
      · exact Or.inl (calls ▸ mem_cons_of_mem _ before)
    refine turned.afterTurn env _ ?_
    -- only the removal of items goes on while a quest is being abandoned
    cases loop with
    | itemRemoved entry count => exact Or.inl rfl
    | killedMonster entry => exact Or.inr (orderly.notAbandoning calls nofun)
    | killedPlayer => exact Or.inr (orderly.notAbandoning calls nofun)
    | satisfy objectId amount type => exact Or.inr (orderly.notAbandoning calls nofun)
    | money count => exact Or.inr (orderly.notAbandoning calls nofun)
  · unfold QuestPlayer.resumeRequest
    rename_i calls
    split
    · exact orderly
    · rename_i q i completes couldTake request
      have added : Orderly t { s with
          log := s.log.logQuest env q i
          request := .none } := ⟨orderly.rewards, nofun, nofun⟩
      split
      · exact added.completeIfCan env nofun q.id
      · exact added
    · exact ⟨orderly.rewards, nofun, nofun⟩

theorem Orderly.react (e : Event) : Orderly t (s.react t e) := by
  have answered : Orderly t (if s.isIdle then s.answer t e else s) := by
    split
    · rename_i idle
      exact orderly.answer (idle_of_isIdle idle) e
    · exact orderly
  cases e with
  | itemAdded env entry count =>
    show Orderly t (s.itemAdded t env entry count)
    unfold QuestPlayer.itemAdded
    split
    · rename_i stores
      refine orderly.afterTurn env _ (Or.inr fun id i => ?_)
      unfold storesItems at stores
      split at stores
      · rename_i calls
        exact orderly.notAbandoning calls (by intro _ _ _ same; cases same) id i
      · rename_i request
        rw [request]
        intro same
        cases same
      · rename_i request
        rw [request]
        intro same
        cases same
      · cases stores
    · exact orderly
  | itemRemoved entry count =>
    show Orderly t (s.itemRemoved entry count)
    unfold QuestPlayer.itemRemoved
    split
    · refine orderly.of_less (fun p stage member => Or.inl ⟨stage, ?_⟩) (fun _ _ _ _ is => is)
        fun id i is => ⟨is, fun call member => ?_⟩
      · simpa [startLoop] using member
      · rcases List.mem_cons.mp member with this | before
        · exact Or.inr ⟨entry, count, _, this⟩
        · exact Or.inl before
    · exact orderly
  | moneyChanged count =>
    show Orderly t (s.moneyChanged count)
    unfold QuestPlayer.moneyChanged
    split
    · rename_i moves
      refine orderly.of_less (fun p stage member => Or.inl ⟨stage, ?_⟩) (fun _ _ _ _ is => is)
        fun id i is => absurd is ?_
      · simpa [startLoop] using member
      show s.request ≠ _
      unfold movesMoney at moves
      split at moves
      · rename_i calls
        exact orderly.notAbandoning calls (by intro _ _ _ same; cases same) id i
      · rename_i calls
        exact orderly.notAbandoning calls (by intro _ _ _ same; cases same) id i
      · rename_i request
        rw [request]
        intro same
        cases same
      · cases moves
    · exact orderly
  | resume env => exact orderly.resume env
  | accept env questId => exact answered
  | confirmAccept env questId => exact answered
  | requestReward env questId => exact answered
  | chooseReward env questId reward => exact answered
  | swap i j => exact answered
  | abandon env i => exact answered
  | credit loop => exact answered
  | areaExplored env questId => exact answered
  | reset limit => exact answered

end

/-! ## Sound events -/

/-- A tracking quest with a limit is confirmed only when neither marked nor in the log, it is not
completed while under reward, and what ends is marked. -/
def SoundEvent (t : QuestTemplates) (s : QuestPlayer) : Event → Prop
  | .confirmAccept env questId => ∀ (q : Quest) (limit : RewardLimit), s.isIdle →
      t.getQuestTemplate questId = some q → q.hasFlag questFlagsPartyAccept →
        s.log.canAddQuest env q → q.hasFlag questFlagsTracking → limit.Binds q → limit ≠ .ever →
          ¬ s.log.InLog questId ∧ questId ∉ s.log.marks limit
  | .itemAdded env entry count => s.storesItems →
      Spares t env s (itemAddedLoop t entry count (List.finRange maxQuestLogSize) s.log)
  | .resume env => (∀ loop i slots rest, s.calls = .looping loop (i :: slots) :: rest →
      Spares t env s (loop.turn t env s.log i)) ∧
        ∀ q rest, s.calls = .rewarding q .paying :: rest → q.MarkedOnce
  | _ => True

theorem passes_answer (idle : s.Idle) (e : Event) (sound : s.SoundEvent t e)
    (other : ∀ limit, e ≠ .reset limit) : Passes t s (s.answer t e) := by
  cases e with
  | accept env questId =>
    show Passes t s (s.acceptQuest t env questId)
    unfold QuestPlayer.acceptQuest
    split
    · exact Passes.refl s
    rename_i q template
    have own : t.getQuestTemplate q.id = some q := (t.keyed template).symm ▸ template
    split
    · exact Passes.refl s
    rename_i can
    rw [Bool.not_eq_true, Bool.not_eq_false'] at can
    split
    · exact Passes.refl s
    refine passes_addQuest env idle own (fun limit binds repeated _ held => ?_) true
    refine ⟨fun inLog => ?_, unmarked_of_canTake binds repeated can⟩
    obtain ⟨d, entry, taken⟩ := held.entered inLog
    have cannot : s.log.canTakeQuest t env q = false :=
      canTakeQuest_of_entry (t.ne_zero own) entry taken
    rw [can] at cannot
    cases cannot
  | confirmAccept env questId =>
    show Passes t s (s.confirmAccept t env questId)
    unfold QuestPlayer.confirmAccept
    split
    · exact Passes.refl s
    rename_i q template
    have ids := t.keyed template
    subst ids
    split
    · exact Passes.refl s
    rename_i party
    rw [Bool.not_eq_true, Bool.not_eq_false'] at party
    split
    · rename_i room
      refine passes_addQuest env idle template (fun limit binds repeated tracking _ => ?_) false
      refine sound q limit ?_ template party room tracking binds repeated
      simp [isIdle, idle.1, idle.2]
    · exact Passes.refl s
  | requestReward env questId => exact passes_completeIfCan_of_idle s env idle questId
  | chooseReward env questId reward => exact passes_chooseReward env idle questId reward
  | swap i j => exact passes_swapQuest idle i j
  | abandon env i => exact passes_abandonQuest env i
  | credit loop => exact passes_startLoop s loop
  | areaExplored env questId => exact passes_areaExplored env idle questId
  | reset limit => exact absurd rfl (other limit)
  | itemAdded env entry count => exact Passes.refl s
  | itemRemoved entry count => exact Passes.refl s
  | moneyChanged count => exact Passes.refl s
  | resume env => exact Passes.refl s

theorem passes_resume (orderly : Orderly t s) (env : QuestContext)
    (sound : s.SoundEvent t (.resume env)) : Passes t s (s.resume t env) := by
  obtain ⟨spares, once⟩ := sound
  unfold QuestPlayer.resume
  split
  · rename_i calls
    exact passes_taken calls
  · rename_i calls
    exact passes_stored orderly calls
  · rename_i q rest calls
    exact passes_concluded orderly calls (once q rest calls)
  · rename_i calls
    exact passes_ended calls
  · rename_i loop i slots rest calls
    have same : ∀ id, QuestPlayer.pending ⟨s.log, s.request, .looping loop slots :: rest⟩ id =
        s.pending id := by
      intro id
      simp [QuestPlayer.pending, calls, QuestCall.rewards]
    refine (passes_turned calls).trans (passes_afterTurn env (turned_loop env loop s.log i) ?_)
    intro q limit done tracking binds can
    rw [same]
    exact spares loop i slots rest calls q limit done tracking binds can
  · rename_i calls
    exact passes_resumeRequest env calls

theorem passes_react (orderly : Orderly t s) (e : Event) (sound : s.SoundEvent t e)
    (other : ∀ limit, e ≠ .reset limit) : Passes t s (s.react t e) := by
  have answered : Passes t s (if s.isIdle then s.answer t e else s) := by
    split
    · rename_i idle
      exact passes_answer (idle_of_isIdle idle) e sound other
    · exact Passes.refl s
  cases e with
  | itemAdded env entry count =>
    show Passes t s (s.itemAdded t env entry count)
    unfold QuestPlayer.itemAdded
    split
    · rename_i stores
      exact passes_afterTurn env (turned_itemAddedLoop entry count _ s.log) (sound stores)
    · exact Passes.refl s
  | itemRemoved entry count =>
    show Passes t s (s.itemRemoved entry count)
    unfold QuestPlayer.itemRemoved
    split
    · exact passes_startLoop s _
    · exact Passes.refl s
  | moneyChanged count =>
    show Passes t s (s.moneyChanged count)
    unfold QuestPlayer.moneyChanged
    split
    · exact passes_startLoop s _
    · exact Passes.refl s
  | resume env => exact passes_resume orderly env sound
  | reset limit => exact absurd rfl (other limit)
  | accept env questId => exact answered
  | confirmAccept env questId => exact answered
  | requestReward env questId => exact answered
  | chooseReward env questId reward => exact answered
  | swap i j => exact answered
  | abandon env i => exact answered
  | credit loop => exact answered
  | areaExplored env questId => exact answered

theorem Guarded.reset (guarded : Guarded s q limit n) (idle : s.Idle) (binds : limit.Binds q)
    (cleared : RewardLimit) :
    Guarded { s with log := s.log.reset cleared } q limit
      (if cleared = limit ∧ limit ≠ .ever then 0 else n) := by
  have none := pending_of_idle idle q.id
  have same : (s.log.reset cleared).slots = s.log.slots ∧
      (s.log.reset cleared).questStatus = s.log.questStatus := by
    cases cleared <;> exact ⟨rfl, rfl⟩
  have kept : ¬ (cleared = limit ∧ limit ≠ .ever) →
      (s.log.reset cleared).marks limit = s.log.marks limit := by
    intro apart
    cases cleared <;> cases limit <;> first | rfl | exact absurd ⟨rfl, nofun⟩ apart | exact binds.elim
  have less : q.id ∈ (s.log.reset cleared).marks limit → q.id ∈ s.log.marks limit := by
    by_cases emptied : cleared = limit ∧ limit ≠ .ever
    · obtain ⟨rfl, repeated⟩ := emptied
      intro marked
      cases cleared with
      | ever => exact absurd rfl repeated
      | seasonal event => exact binds.elim
      | _ => exact absurd marked (Finset.notMem_empty _)
    · rw [kept emptied]
      exact fun is => is
  refine ⟨guarded.single, fun under => absurd none under, ?_, fun tracking repeated => ?_⟩
  · split
    · exact Nat.zero_le _
    · rename_i apart
      rw [kept apart]
      exact guarded.count
  · refine (guarded.tracked tracking repeated).of_less (fun j => ?_) (Or.inl (congrFun same.2 q.id)) less
      (fun _ _ _ _ is _ => ⟨is, rfl⟩) (fun _ member _ => member) fun i is => ⟨is, ?_⟩
    · rw [same.1]
      exact fun held => held
    · rw [same.1]
      exact fun held => held

theorem Guarded.atMostOnce (guarded : Guarded s q limit n) : n ≤ 1 := by
  have count := guarded.count
  have single := guarded.single
  by_cases none : s.pending q.id = 0
  · split at count <;> omega
  · rw [if_neg (guarded.unmarked none)] at count
    omega

end QuestPlayer

namespace RewardLedger

open Machine QuestPlayer QuestLog

variable {t : QuestTemplates} {l : RewardLedger} {e : Event}

structure Inv (t : QuestTemplates) (l : RewardLedger) : Prop where
  orderly : QuestPlayer.Orderly t l.player
  guarded : ∀ (q : Quest) (limit : RewardLimit), t.getQuestTemplate q.id = some q →
    limit.Binds q → Guarded l.player q limit (l.rewards limit q.id)
  within : ∀ limit id, l.rewards limit id ≤ l.rewards .ever id

theorem resets_ever (s : QuestPlayer) (e : Event) : resets s e .ever = false := by
  unfold resets
  split
  · simp
  · rfl

theorem Inv.keeps (inv : Inv t l) (sound : l.player.SoundEvent t e) : Inv t (step t l e) := by
  refine ⟨inv.orderly.react e, fun q limit template binds => ?_, fun limit id => ?_⟩
  · have guarded := inv.guarded q limit template binds
    by_cases reset : ∃ cleared, e = .reset cleared
    · obtain ⟨cleared, rfl⟩ := reset
      by_cases idle : l.player.isIdle
      · have after : l.player.react t (.reset cleared) =
            { l.player with log := l.player.log.reset cleared } := by
          simp [react, idle, answer]
        have turned := guarded.reset (idle_of_isIdle idle) binds cleared
        simp only [step, after, resets, idle]
        simpa [QuestPlayer.begun] using turned
      · have after : l.player.react t (.reset cleared) = l.player := by simp [react, idle]
        simp only [step, after, resets, idle]
        simpa using guarded
    · have passes := passes_react inv.orderly e sound fun limit is => reset ⟨limit, is⟩
      have none : resets l.player e limit = false := by
        unfold resets
        split
        · exact absurd ⟨_, rfl⟩ reset
        · rfl
      have passed := passes q limit _ template binds guarded
      simp only [step, none]
      simpa using passed
  · simp only [step, resets_ever]
    have before := inv.within limit id
    split <;> simp only [Bool.false_eq_true, if_false] <;> omega

theorem Inv.atMostOnce (inv : Inv t l) : AtMostOnce t l := by
  intro id q limit template allowed
  have ids := t.keyed template
  subst ids
  by_cases repeated : q.isRepeatable
  · -- a seasonal quest cannot be repeated
    have binds : limit.Binds q := by
      cases limit with
      | ever => exact absurd repeated allowed
      | daily => exact ⟨repeated, allowed⟩
      | weekly => exact ⟨repeated, allowed⟩
      | monthly => exact ⟨repeated, allowed⟩
      | seasonal event =>
        have seasonal := allowed.1
        simp [Quest.isSeasonal, repeated] at seasonal
    exact (inv.guarded q limit template binds).atMostOnce
  · exact (inv.within limit q.id).trans (inv.guarded q .ever template repeated).atMostOnce

/-- What the log of a player says of tracking quests: one slot, a status, no mark. -/
def Ready (t : QuestTemplates) (log : QuestLog) : Prop :=
  ∀ q : Quest, t.getQuestTemplate q.id = some q → q.hasFlag questFlagsTracking →
    (∀ i j, (log.slots i).questId = q.id → (log.slots j).questId = q.id → j = i) ∧
      ∀ limit : RewardLimit, limit.Binds q → limit ≠ .ever → Held log q.id limit

/-- A patrol of the week, rewarded as soon as it is done. -/
def patrol : Quest where
  id := 3
  method := 2
  zoneOrSort := 0
  limitTime := 0
  flags := questFlagsTracking ||| questFlagsPartyAccept ||| questFlagsWeekly
  specialFlags := questSpecialFlagsRepeatable
  objectives := []
  rewardChoiceItemId := []

def errand : Quest where
  id := 4
  method := 2
  zoneOrSort := 0
  limitTime := 0
  flags := questFlagsTracking
  specialFlags := 0
  objectives := [⟨9, .item, 60, 1⟩]
  rewardChoiceItemId := []

def patrols : QuestTemplates := onlyQuest patrol (by decide)

def errands : QuestTemplates := onlyQuest errand (by decide)

def monthlyPatrols : QuestTemplates :=
  onlyQuest { patrol with specialFlags := questSpecialFlagsRepeatable ||| questSpecialFlagsMonthly }
    (by decide)

def opened : RewardLedger := ⟨recruit, fun _ _ => 0⟩

theorem ready_empty (t : QuestTemplates) : Ready t QuestLog.empty := by
  intro q template _
  have out : ∀ i, (QuestLog.empty.slots i).questId ≠ q.id :=
    fun i held => t.ne_zero template held.symm
  refine ⟨fun i _ held => absurd held (out i), fun limit _ _ => ⟨?_, ?_⟩⟩
  · rintro ⟨i, held⟩
    exact absurd held (out i)
  · rintro (⟨i, held⟩ | ⟨d, entry⟩)
    · exact absurd held (out i)
    · cases entry

theorem markedOnce_patrol : patrol.MarkedOnce := by
  intro _
  exact ⟨fun _ => by decide, fun monthly => absurd monthly (by decide)⟩

end RewardLedger

end Sky548
