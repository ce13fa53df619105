import Sky548.Quests.Rewards

/-!
# What keeps a reward from a second run

For one quest and one limit: `Guarded` says that at most one reward of it is under way, that it is
not marked then, and that the rewards counted are the mark and the one under way. A tracking quest
is rewarded with being completed, without a look at the marks of the week, the month or the day;
there it takes `Tracked`: the quest stands in one slot, and is not marked as long as it is in the
log.
-/

namespace Sky548

/-- The limits that bind: the others of a quest that cannot be repeated follow. -/
def RewardLimit.Binds (q : Quest) : RewardLimit → Prop
  | .ever => ¬ q.isRepeatable
  | .daily => q.isRepeatable ∧ q.isDFQuest
  | .weekly => q.isRepeatable ∧ q.isWeekly
  | .monthly => q.isRepeatable ∧ q.isMonthly
  | .seasonal _ => False

namespace QuestPlayer

open QuestLog

variable {t : QuestTemplates} {env : QuestContext} {q : Quest} {limit : RewardLimit} {id : UInt32}
  {log after later : QuestLog}

theorem unmarked_of_satisfied (binds : limit.Binds q)
    (ever : ¬ q.isRepeatable → q.id ∉ log.rewardedQuests) (day : log.satisfyQuestDay q)
    (week : log.satisfyQuestWeek q) (month : log.satisfyQuestMonth q) : q.id ∉ log.marks limit := by
  cases limit with
  | ever => exact ever binds
  | daily =>
    have none : log.dfQuests = ∅ := by simpa [satisfyQuestDay, show q.isDFQuest from binds.2] using day
    show q.id ∉ log.dfQuests
    rw [none]
    exact Finset.notMem_empty _
  | weekly => simpa [satisfyQuestWeek, marks, show q.isWeekly from binds.2] using week
  | monthly => simpa [satisfyQuestMonth, marks, show q.isMonthly from binds.2] using month
  | seasonal event => exact binds.elim

theorem unmarked_of_canTake (binds : limit.Binds q) (repeated : limit ≠ .ever)
    (can : log.canTakeQuest t env q) : q.id ∉ log.marks limit := by
  simp only [canTakeQuest, Bool.and_eq_true] at can
  obtain ⟨⟨⟨⟨-, day⟩, week⟩, month⟩, -⟩ := can
  refine unmarked_of_satisfied binds (fun never => ?_) day week month
  cases limit with
  | ever => exact absurd rfl repeated
  | daily => exact absurd binds.1 never
  | weekly => exact absurd binds.1 never
  | monthly => exact absurd binds.1 never
  | seasonal event => exact binds.elim

theorem unmarked_of_canReward {reward : UInt32} (template : t.getQuestTemplate q.id = some q)
    (binds : limit.Binds q) (can : log.canRewardQuest t env q reward) : q.id ∉ log.marks limit := by
  simp only [canRewardQuest, Bool.and_eq_true] at can
  obtain ⟨⟨⟨⟨⟨⟨-, day⟩, week⟩, month⟩, -⟩, notRewarded⟩, -⟩ := can
  refine unmarked_of_satisfied binds (fun never => ?_) day week month
  simpa [getQuestRewardStatus, template, never] using notRewarded

/-! ## A tracking quest in the log -/

/-- Where the quest is in the log, it has a status and no mark. -/
structure Held (log : QuestLog) (id : UInt32) (limit : RewardLimit) : Prop where
  entered : log.InLog id → ∃ d, log.questStatus id = some d ∧ d.status ≠ .none
  unmarked : log.InLog id ∨ (∃ d, log.questStatus id = some d) → id ∉ log.marks limit

theorem unmarked_of_canComplete (template : t.getQuestTemplate q.id = some q) (binds : limit.Binds q)
    (held : limit ≠ .ever → Held log q.id limit) (can : log.canCompleteQuest t env q.id) :
    q.id ∉ log.marks limit := by
  simp only [canCompleteQuest, template] at can
  by_cases repeated : limit = .ever
  · subst repeated
    split at can
    · cases can
    · rename_i ok
      simpa [marks, show ¬ q.isRepeatable from binds] using ok
  · split at can
    · cases can
    split at can
    · rename_i auto
      rw [Bool.and_eq_true] at auto
      exact unmarked_of_canTake binds repeated auto.2
    split at can
    · cases can
    · rename_i d entry
      exact (held repeated).unmarked (Or.inr ⟨d, entry⟩)

/-- Ids and marks stay, and a tracking quest of the log gets no worse entry. -/
structure Eases (t : QuestTemplates) (log after : QuestLog) : Prop where
  ids : ∀ j, (after.slots j).questId = (log.slots j).questId
  marks : ∀ limit, after.marks limit = log.marks limit
  entry : ∀ q limit, t.getQuestTemplate q.id = some q → limit.Binds q → limit ≠ .ever →
    Held log q.id limit → after.questStatus q.id = log.questStatus q.id ∨
      ∃ d, after.questStatus q.id = some d ∧ d.status ≠ .none ∧ q.id ∉ log.marks limit

theorem Eases.inLog_iff (eases : Eases t log after) (id : UInt32) : after.InLog id ↔ log.InLog id :=
  exists_congr fun j => by rw [eases.ids]

theorem Held.eases (held : Held log q.id limit) (template : t.getQuestTemplate q.id = some q)
    (binds : limit.Binds q) (repeated : limit ≠ .ever) (eases : Eases t log after) :
    Held after q.id limit := by
  rcases eases.entry q limit template binds repeated held with same | ⟨d, entry, taken, unmarked⟩
  · constructor
    · intro inLog
      rw [same]
      exact held.entered ((eases.inLog_iff q.id).mp inLog)
    · intro present
      rw [eases.marks]
      refine held.unmarked (present.imp (eases.inLog_iff q.id).mp fun entry => ?_)
      rwa [same] at entry
  · constructor
    · exact fun _ => ⟨d, entry, taken⟩
    · intro _
      rwa [eases.marks]

theorem Eases.refl (log : QuestLog) : Eases t log log :=
  ⟨fun _ => rfl, fun _ => rfl, fun _ _ _ _ _ _ => Or.inl rfl⟩

theorem Eases.trans (first : Eases t log after) (second : Eases t after later) :
    Eases t log later := by
  refine ⟨fun j => (second.ids j).trans (first.ids j),
    fun limit => (second.marks limit).trans (first.marks limit), ?_⟩
  intro q limit template binds repeated held
  have between := held.eases template binds repeated first
  rcases second.entry q limit template binds repeated between with same | ⟨d, entry, taken, unmarked⟩
  · rw [same]
    exact first.entry q limit template binds repeated held
  · rw [first.marks] at unmarked
    exact Or.inr ⟨d, entry, taken, unmarked⟩

theorem eases_of_same (slots : after.slots = log.slots) (status : after.questStatus = log.questStatus)
    (marks : ∀ limit, after.marks limit = log.marks limit) : Eases t log after :=
  ⟨fun j => by rw [slots], marks, fun _ _ _ _ _ _ => Or.inl (by rw [status])⟩

theorem eases_setCounter (key count : UInt32) : Eases t log (log.setCounter key count) :=
  eases_of_same rfl rfl fun limit => by cases limit <;> rfl

theorem eases_removeTimedQuest (id : UInt32) : Eases t log (log.removeTimedQuest id) :=
  eases_of_same rfl rfl fun limit => by cases limit <;> rfl

theorem eases_setStatusData {d : QuestStatusData}
    (safe : ∀ q limit, t.getQuestTemplate q.id = some q → limit.Binds q → limit ≠ .ever →
      q.id = id → Held log q.id limit → d.status ≠ .none ∧ id ∉ log.marks limit) :
    Eases t log (log.setStatusData id d) := by
  refine ⟨fun _ => rfl, fun limit => by cases limit <;> rfl, ?_⟩
  intro q limit template binds repeated held
  by_cases own : q.id = id
  · obtain ⟨taken, unmarked⟩ := safe q limit template binds repeated own held
    rw [own]
    exact Or.inr ⟨d, setStatusData_same d, taken, unmarked⟩
  · exact Or.inl (setStatusData_other d own)

theorem eases_changeSlotOf (id : UInt32) {f : QuestSlot → QuestSlot}
    (keeps : ∀ slot, (f slot).questId = slot.questId) : Eases t log (log.changeSlotOf id f) := by
  unfold changeSlotOf
  rcases log.findQuestSlot id with _ | i
  · exact Eases.refl log
  refine ⟨fun j => ?_, fun limit => by cases limit <;> rfl, fun _ _ _ _ _ _ => Or.inl rfl⟩
  by_cases here : j = i
  · rw [here, changeSlot_same, keeps]
  · rw [changeSlot_other _ here]

theorem eases_setQuestStatus {status : QuestStatus} (taken : status ≠ .none)
    (safe : ∀ q limit, t.getQuestTemplate q.id = some q → limit.Binds q → limit ≠ .ever →
      q.id = id → Held log q.id limit → id ∉ log.marks limit) :
    Eases t log (log.setQuestStatus t id status) := by
  unfold setQuestStatus
  split
  · exact eases_setStatusData fun q limit template binds repeated own held =>
      ⟨taken, safe q limit template binds repeated own held⟩
  · exact Eases.refl log

theorem eases_touchStatus (inLog : log.InLog id) : Eases t log (log.touchStatus id) := by
  refine eases_setStatusData fun q limit _ _ _ own held => ?_
  subst own
  obtain ⟨d, entry, taken⟩ := held.entered inLog
  rw [statusData_of_some entry]
  exact ⟨taken, held.unmarked (Or.inl inLog)⟩

theorem eases_incompleteQuest (inLog : log.InLog id) : Eases t log (log.incompleteQuest t id) := by
  unfold QuestLog.incompleteQuest
  split
  · exact Eases.refl log
  have restated : Eases t log (log.setQuestStatus t id .incomplete) := by
    refine eases_setQuestStatus nofun fun q limit _ _ _ own held => ?_
    subst own
    exact held.unmarked (Or.inl inLog)
  exact restated.trans (eases_changeSlotOf id fun _ => rfl)

theorem eases_markComplete (can : log.canCompleteQuest t env id) :
    Eases t log (log.markComplete t id) := by
  unfold markComplete
  split
  · exact Eases.refl log
  have restated : Eases t log (log.setQuestStatus t id .complete) := by
    refine eases_setQuestStatus nofun fun q limit template binds repeated own held => ?_
    subst own
    exact unmarked_of_canComplete template binds (fun _ => held) can
  exact restated.trans (eases_changeSlotOf id fun _ => rfl)

/-- A tracking quest stands in one slot, and is marked only when it is in no store. -/
structure Tracked (s : QuestPlayer) (id : UInt32) (limit : RewardLimit) : Prop where
  once : ∀ i j, (s.log.slots i).questId = id → (s.log.slots j).questId = id → j = i
  held : Held s.log id limit
  adds : ∀ q i completes couldTake, s.request = .adding q i completes couldTake → q.id = id →
    ¬ s.log.InLog id ∧ s.pending id = 0 ∧ ∃ d, s.log.questStatus id = some d ∧ d.status ≠ .none
  paying : ∀ q, .rewarding q .paying ∈ s.calls → q.id = id → ¬ s.log.InLog id
  abandons : ∀ i, s.request = .abandoning id i → (s.log.slots i).questId = id

/-- **At most one reward of the quest is under way**, while it is not marked; what is
counted is the mark and the one under way. -/
structure Guarded (s : QuestPlayer) (q : Quest) (limit : RewardLimit) (n : Nat) : Prop where
  single : s.pending q.id ≤ 1
  unmarked : s.pending q.id ≠ 0 → q.id ∉ s.log.marks limit
  count : n ≤ (if q.id ∈ s.log.marks limit then 1 else 0) + s.pending q.id
  tracked : q.hasFlag questFlagsTracking → limit ≠ .ever → Tracked s q.id limit

/-- What the pending calls and the request look like, whatever the quests are. -/
structure Orderly (t : QuestTemplates) (s : QuestPlayer) : Prop where
  rewards : ∀ q stage, .rewarding q stage ∈ s.calls → t.getQuestTemplate q.id = some q
  adds : ∀ q i completes couldTake, s.request = .adding q i completes couldTake →
    t.getQuestTemplate q.id = some q
  abandons : ∀ id i, s.request = .abandoning id i →
    ∀ call ∈ s.calls, ∃ entry count rest, call = .looping (.itemRemoved entry count) rest

variable {s s' s'' : QuestPlayer} {n m : Nat}

theorem Guarded.mono (guarded : Guarded s q limit m) (le : n ≤ m) : Guarded s q limit n :=
  ⟨guarded.single, guarded.unmarked, le.trans guarded.count, guarded.tracked⟩

/-- The quests stay guarded, with the rewards that begin. -/
def Passes (t : QuestTemplates) (s after : QuestPlayer) : Prop :=
  ∀ q limit n, t.getQuestTemplate q.id = some q → limit.Binds q → Guarded s q limit n →
    Guarded after q limit (n + (after.begun q.id - s.begun q.id))

theorem Passes.trans (first : Passes t s s') (second : Passes t s' s'') : Passes t s s'' := by
  intro q limit n template binds guarded
  have passed := second q limit _ template binds (first q limit n template binds guarded)
  exact passed.mono (by omega)

theorem Tracked.of_less (tracked : Tracked s id limit)
    (slot : ∀ j, (s'.log.slots j).questId = id → (s.log.slots j).questId = id)
    (entry : s'.log.questStatus id = s.log.questStatus id ∨
      ∃ d, s'.log.questStatus id = some d ∧ d.status ≠ .none ∧ id ∉ s.log.marks limit)
    (marks : id ∈ s'.log.marks limit → id ∈ s.log.marks limit)
    (adding : ∀ q i completes couldTake, s'.request = .adding q i completes couldTake →
      q.id = id → s.request = .adding q i completes couldTake ∧ s'.pending id = s.pending id)
    (paying : ∀ q, .rewarding q .paying ∈ s'.calls → q.id = id → .rewarding q .paying ∈ s.calls)
    (abandoning : ∀ i, s'.request = .abandoning id i → s.request = .abandoning id i ∧
      ((s.log.slots i).questId = id → (s'.log.slots i).questId = id)) : Tracked s' id limit := by
  have inLog : s'.log.InLog id → s.log.InLog id := fun ⟨j, held⟩ => ⟨j, slot j held⟩
  refine ⟨fun i j atI atJ => tracked.once i j (slot i atI) (slot j atJ), ⟨?_, ?_⟩, ?_, ?_, ?_⟩
  · intro held
    rcases entry with same | ⟨d, is, taken, -⟩
    · rw [same]
      exact tracked.held.entered (inLog held)
    · exact ⟨d, is, taken⟩
  · intro present marked
    rcases entry with same | ⟨d, -, -, unmarked⟩
    · refine tracked.held.unmarked (present.imp inLog fun is => ?_) (marks marked)
      rwa [same] at is
    · exact unmarked (marks marked)
  · intro q i completes couldTake is own
    obtain ⟨before, pending⟩ := adding q i completes couldTake is own
    obtain ⟨out, none, d, is', taken⟩ := tracked.adds q i completes couldTake before own
    refine ⟨fun held => out (inLog held), pending.trans none, ?_⟩
    rcases entry with same | ⟨d', is'', taken', -⟩
    · exact ⟨d, same.trans is', taken⟩
    · exact ⟨d', is'', taken'⟩
  · exact fun q member own held => tracked.paying q (paying q member own) own (inLog held)
  · intro i is
    obtain ⟨before, stays⟩ := abandoning i is
    exact stays (tracked.abandons i before)

theorem Guarded.of_same (guarded : Guarded s q limit n)
    (marks : q.id ∈ s'.log.marks limit ↔ q.id ∈ s.log.marks limit)
    (pending : s'.pending q.id = s.pending q.id) (begun : s'.begun q.id ≤ s.begun q.id)
    (tracked : q.hasFlag questFlagsTracking → limit ≠ .ever → Tracked s q.id limit →
      Tracked s' q.id limit) : Guarded s' q limit (n + (s'.begun q.id - s.begun q.id)) := by
  refine ⟨pending.le.trans guarded.single, ?_, ?_, fun tracking repeated =>
    tracked tracking repeated (guarded.tracked tracking repeated)⟩
  · rw [pending, marks]
    exact guarded.unmarked
  · rw [pending, Nat.sub_eq_zero_of_le begun, Nat.add_zero]
    simpa only [marks] using guarded.count

theorem Passes.of_calls (calls : ∀ q, s'.pending q = s.pending q ∧ s'.begun q ≤ s.begun q)
    (paying : ∀ q, .rewarding q .paying ∈ s'.calls → .rewarding q .paying ∈ s.calls)
    (request : s'.request = s.request) (log : Eases t s.log s'.log) : Passes t s s' := by
  intro q limit n template binds guarded
  refine guarded.of_same (by rw [log.marks]) (calls q.id).1 (calls q.id).2 fun _ repeated tracked => ?_
  refine tracked.of_less (fun j => by rw [log.ids]; exact fun held => held)
    (log.entry q limit template binds repeated tracked.held) (by rw [log.marks]; exact fun is => is)
    ?_ (fun q' member _ => paying q' member) ?_
  · intro q' i completes couldTake is _
    exact ⟨request ▸ is, (calls q.id).1⟩
  · intro i is
    refine ⟨request ▸ is, ?_⟩
    rw [log.ids]
    exact fun held => held

theorem passes_of_eases (log : Eases t s.log after) : Passes t s { s with log := after } :=
  Passes.of_calls (fun _ => ⟨rfl, le_rfl⟩) (fun _ member => member) rfl log

theorem Passes.refl (s : QuestPlayer) : Passes t s s := passes_of_eases (Eases.refl s.log)

@[simp] theorem pending_rewardQuest (s : QuestPlayer) (q : Quest) (id : UInt32) :
    (s.rewardQuest q).pending id = s.pending id + if q.id = id then 1 else 0 := by
  simp [QuestPlayer.pending, QuestPlayer.rewardQuest, List.countP_cons, QuestCall.rewards]

@[simp] theorem begun_rewardQuest (s : QuestPlayer) (q : Quest) (id : UInt32) :
    (s.rewardQuest q).begun id = s.begun id + if q.id = id then 1 else 0 := by
  simp [QuestPlayer.begun, QuestPlayer.rewardQuest, List.countP_cons, QuestCall.begins]

theorem passes_rewardQuest (free : ∀ limit : RewardLimit, limit.Binds q → (limit ≠ .ever →
        q.hasFlag questFlagsTracking → Tracked s q.id limit) →
      s.pending q.id = 0 ∧ q.id ∉ s.log.marks limit)
    (notAdded : s.log.InLog q.id ∨ ∀ p i completes couldTake,
      s.request ≠ .adding p i completes couldTake)
    (template : t.getQuestTemplate q.id = some q) : Passes t s (s.rewardQuest q) := by
  intro p limit n template' binds guarded
  have paying : ∀ p, .rewarding p .paying ∈ (s.rewardQuest q).calls → .rewarding p .paying ∈ s.calls := by
    intro p member
    rcases List.mem_cons.mp member with this | before
    · cases this
    · exact before
  by_cases own : q.id = p.id
  · rw [own] at template
    cases Option.some.inj (template.symm.trans template')
    obtain ⟨none, unmarked⟩ := free limit binds fun repeated tracking =>
      guarded.tracked tracking repeated
    have count := guarded.count
    rw [if_neg unmarked, none] at count
    refine ⟨?_, fun _ => unmarked, ?_, fun tracking repeated => ?_⟩
    · rw [pending_rewardQuest, if_pos rfl, none]
    · rw [pending_rewardQuest, begun_rewardQuest, if_pos rfl, none]
      omega
    · have tracked := guarded.tracked tracking repeated
      refine tracked.of_less (fun _ held => held) (Or.inl rfl) (fun is => is) ?_
        (fun p member _ => paying p member) fun i is => ⟨is, fun held => held⟩
      intro p i completes couldTake is ids
      rcases notAdded with inLog | notAdding
      · exact absurd inLog (tracked.adds p i completes couldTake is ids).1
      · exact absurd is (notAdding p i completes couldTake)
  · have pending : (s.rewardQuest q).pending p.id = s.pending p.id := by
      rw [pending_rewardQuest, if_neg own, Nat.add_zero]
    refine guarded.of_same Iff.rfl pending ?_ fun _ _ tracked => ?_
    · rw [begun_rewardQuest, if_neg own, Nat.add_zero]
    · exact tracked.of_less (fun _ held => held) (Or.inl rfl) (fun is => is)
        (fun p i completes couldTake is _ => ⟨is, pending⟩) (fun p member _ => paying p member)
        fun i is => ⟨is, fun held => held⟩

theorem markComplete_entry (template : t.getQuestTemplate id = some q) (log : QuestLog) :
    ∃ d, (log.markComplete t id).questStatus id = some d := by
  rw [markComplete, if_neg (t.ne_zero template), setQuestStatus_of_template template]
  unfold changeSlotOf
  split
  · exact ⟨_, setStatusData_same _⟩
  · exact ⟨_, setStatusData_same _⟩

theorem passes_completeIfCan (env : QuestContext)
    (free : ∀ (q : Quest) (limit : RewardLimit), t.getQuestTemplate id = some q →
      q.hasFlag questFlagsTracking → limit.Binds q → s.log.canCompleteQuest t env id →
        s.pending id = 0) (notAdded : s.log.InLog id ∨ ∀ p i completes couldTake,
      s.request ≠ .adding p i completes couldTake) :
    Passes t s (s.completeIfCan t env id) := by
  unfold QuestPlayer.completeIfCan
  split
  · rename_i can
    have marked : Passes t s { s with log := s.log.markComplete t id } :=
      passes_of_eases (eases_markComplete can)
    unfold QuestPlayer.completeQuest
    rcases template : t.getQuestTemplate id with _ | q
    · exact marked
    dsimp only
    split
    · rename_i tracking
      have ids := t.keyed template
      subst ids
      have eases : Eases t s.log (s.log.markComplete t q.id) := eases_markComplete can
      refine marked.trans (passes_rewardQuest (s := { s with log := s.log.markComplete t q.id })
        ?_ (notAdded.imp_left (eases.inLog_iff q.id).mpr) template)
      · intro limit binds tracked
        refine ⟨free q limit template tracking binds can, ?_⟩
        by_cases repeated : limit = .ever
        · rw [eases.marks]
          exact unmarked_of_canComplete template binds (fun other => absurd repeated other) can
        · exact (tracked repeated tracking).held.unmarked
            (Or.inr (markComplete_entry template s.log))
    · exact marked
  · exact Passes.refl s

/-- A turn that eases the log, and completes a quest of the log at most. -/
structure Turned (t : QuestTemplates) (log : QuestLog) (turn : QuestLog × Option Quest) : Prop where
  eases : Eases t log turn.1
  done : ∀ q, turn.2 = some q → t.getQuestTemplate q.id = some q ∧ log.InLog q.id

/-- The quest that a turn completes is not under reward, if it is a tracking quest with a
limit. -/
def Spares (t : QuestTemplates) (env : QuestContext) (s : QuestPlayer)
    (turn : QuestLog × Option Quest) : Prop :=
  ∀ (q : Quest) (limit : RewardLimit), turn.2 = some q → q.hasFlag questFlagsTracking →
    limit.Binds q → turn.1.canCompleteQuest t env q.id → s.pending q.id = 0

theorem turned_of_eases (eases : Eases t log after) : Turned t log (after, none) :=
  ⟨eases, nofun⟩

theorem passes_afterTurn (env : QuestContext) {turn : QuestLog × Option Quest}
    (turned : Turned t s.log turn) (spares : Spares t env s turn) :
    Passes t s (s.afterTurn t env turn) := by
  unfold QuestPlayer.afterTurn
  rcases done : turn.2 with _ | q
  · exact passes_of_eases turned.eases
  obtain ⟨template, inLog⟩ := turned.done q done
  refine (passes_of_eases turned.eases).trans
    (passes_completeIfCan (s := { s with log := turn.1 }) env ?_ ?_)
  · intro p limit template' tracking binds can
    cases Option.some.inj (template.symm.trans template')
    exact spares q limit done tracking binds can
  · exact Or.inl ((turned.eases.inLog_iff q.id).mpr inLog)

theorem turned_creditFirst {meant : QuestObjective → Bool}
    {advance : QuestLog → QuestObjective → QuestLog}
    (counters : ∀ o, Eases t log (advance log o)) (template : t.getQuestTemplate q.id = some q)
    (inLog : log.InLog q.id) : Turned t log (log.creditFirst meant advance q) := by
  unfold creditFirst
  rcases q.objectives.find? meant with _ | o
  · exact turned_of_eases (Eases.refl log)
  refine ⟨counters o, ?_⟩
  rintro p ⟨⟩
  exact ⟨template, inLog⟩

theorem Turned.following {turn : QuestLog × Option Quest} (turned : Turned t after turn)
    (eases : Eases t log after) : Turned t log turn :=
  ⟨eases.trans turned.eases, fun q done => (turned.done q done).imp_right (eases.inLog_iff q.id).mp⟩

theorem turned_killedTurn (env : QuestContext) (type : QuestObjectiveType)
    (meant : QuestObjective → Bool) {advance : QuestLog → QuestObjective → QuestLog}
    (counters : ∀ log o, Eases t log (advance log o)) (log : QuestLog) (i : Fin maxQuestLogSize) :
    Turned t log (log.killedTurn t env type meant advance i) := by
  unfold killedTurn
  rcases template : t.getQuestTemplate (log.slots i).questId with _ | q
  · exact turned_of_eases (Eases.refl log)
  have ids := t.keyed template
  have inLog : log.InLog q.id := ⟨i, ids.symm⟩
  rw [← ids] at template
  have touched : Eases t log (log.touchStatus q.id) := eases_touchStatus inLog
  dsimp only
  split
  · exact turned_of_eases (Eases.refl log)
  · split
    · exact (turned_creditFirst (counters _) template ((touched.inLog_iff q.id).mpr inLog)).following touched
    · exact turned_of_eases touched

theorem turned_satisfyTurn (objectId amount : UInt32) (type : QuestObjectiveType) (log : QuestLog)
    (i : Fin maxQuestLogSize) : Turned t log (log.satisfyTurn t objectId amount type i) := by
  unfold satisfyTurn
  rcases template : t.getQuestTemplate (log.slots i).questId with _ | q
  · exact turned_of_eases (Eases.refl log)
  have ids := t.keyed template
  have inLog : log.InLog q.id := ⟨i, ids.symm⟩
  rw [← ids] at template
  have touched : Eases t log (log.touchStatus q.id) := eases_touchStatus inLog
  dsimp only
  split
  · exact turned_of_eases touched
  split
  · exact turned_of_eases touched
  · exact (turned_creditFirst (fun o => eases_setCounter o.id _) template
      ((touched.inLog_iff q.id).mpr inLog)).following touched

theorem turned_moneyTurn (count : UInt32) (log : QuestLog) (i : Fin maxQuestLogSize) :
    Turned t log (log.moneyTurn t count i) := by
  unfold QuestLog.moneyTurn
  rcases template : t.getQuestTemplate (log.slots i).questId with _ | q
  · exact turned_of_eases (Eases.refl log)
  have ids := t.keyed template
  have inLog : log.InLog q.id := ⟨i, ids.symm⟩
  rw [← ids] at template
  have touched : Eases t log (log.touchStatus q.id) := eases_touchStatus inLog
  have still := (touched.inLog_iff q.id).mpr inLog
  dsimp only
  split
  · exact turned_of_eases (Eases.refl log)
  split
  · exact turned_of_eases touched
  split
  · split
    · refine ⟨touched, ?_⟩
      rintro p ⟨⟩
      exact ⟨template, inLog⟩
    · exact turned_of_eases touched
  · split
    · exact turned_of_eases (touched.trans (eases_incompleteQuest still))
    · exact turned_of_eases touched
  · exact turned_of_eases touched

theorem eases_itemRemovedTurn (env : QuestContext) (entry count : UInt32) (log : QuestLog)
    (i : Fin maxQuestLogSize) : Eases t log (QuestLog.itemRemovedTurn t env entry count log i) := by
  unfold QuestLog.itemRemovedTurn
  dsimp only
  split
  · exact Eases.refl log
  have inLog : log.InLog (log.slots i).questId := ⟨i, rfl⟩
  have touched : Eases t log (log.touchStatus (log.slots i).questId) := eases_touchStatus inLog
  split
  · exact touched
  rename_i q template
  have ids := t.keyed template
  split
  · exact touched
  split
  · exact touched
  rename_i o _
  rcases removeItems_cases t env count
    (((log.touchStatus (log.slots i).questId).statusData (log.slots i).questId).status =
      .complete) (log.touchStatus (log.slots i).questId) q o with same | ⟨-, c, removed⟩
  · rw [same]
    exact touched
  · rw [removed]
    refine touched.trans ((eases_setCounter o.id c).trans (eases_incompleteQuest ?_))
    rw [ids]
    exact (touched.inLog_iff _).mpr inLog

theorem turned_itemAddedLoop (entry count : UInt32) (rest : List (Fin maxQuestLogSize)) :
    ∀ log : QuestLog, Turned t log (itemAddedLoop t entry count rest log) := by
  induction rest with
  | nil => exact fun log => turned_of_eases (Eases.refl log)
  | cons i rest ih =>
    intro log
    unfold itemAddedLoop
    dsimp only
    split
    · exact ih log
    have inLog : log.InLog (log.slots i).questId := ⟨i, rfl⟩
    have touched : Eases t log (log.touchStatus (log.slots i).questId) := eases_touchStatus inLog
    split
    · exact (ih _).following touched
    split
    · exact (ih _).following touched
    rename_i q template
    have ids := t.keyed template
    split
    · exact (ih _).following touched
    split
    · exact (ih _).following touched
    rename_i o _
    refine ⟨touched.trans ?_, ?_⟩
    · unfold advanceItem
      dsimp only
      split
      · exact eases_setCounter o.id _
      · exact Eases.refl _
    · rintro p ⟨⟩
      rw [ids]
      exact ⟨template, inLog⟩

theorem turned_loop (env : QuestContext) (loop : LogLoop) (log : QuestLog)
    (i : Fin maxQuestLogSize) : Turned t log (loop.turn t env log i) := by
  cases loop with
  | killedMonster entry =>
    refine turned_killedTurn env .npc (meantMonster entry) (fun log o => ?_) log i
    unfold advanceMonster
    split
    · exact eases_setCounter o.id _
    · exact Eases.refl log
  | killedPlayer =>
    refine turned_killedTurn env .player meantPlayer (fun log o => ?_) log i
    unfold advancePlayer
    split
    · exact eases_setCounter o.objectId _
    · exact Eases.refl log
  | satisfy objectId amount type => exact turned_satisfyTurn objectId amount type log i
  | money count => exact turned_moneyTurn count log i
  | itemRemoved entry count => exact turned_of_eases (eases_itemRemovedTurn env entry count log i)

end QuestPlayer

end Sky548
