import Sky548.Quests.Credit

/-!
# What one quest's turn does to the log

The loops that give credit treat one slot after the other, and a turn concerns
the quest in its slot alone. `Touches` says so of an operation, `Counted` is what
the counters of all quests in the log satisfy, given the credit each objective has
earned, and `Counted.of_touches` rebuilds it from the one quest concerned.
-/

namespace Sky548

def QuestObjectiveType.IsCredited (type : QuestObjectiveType) : Prop :=
  type = .npc ∨ type = .go ∨ type = .player

end Sky548

namespace Sky548.QuestLog

open Machine

variable {t : QuestTemplates} {env : QuestContext}

def InLog (log : QuestLog) (questId : UInt32) : Prop := ∃ i, (log.slots i).questId = questId

/-- The quest stands in the log with this entry in `m_QuestStatus`. -/
structure Stands (t : QuestTemplates) (log : QuestLog) (q : Quest) (d : QuestStatusData) : Prop where
  template : t.getQuestTemplate q.id = some q
  inLog : log.InLog q.id
  entry : log.questStatus q.id = some d

/-- Nothing but slot `i` and what is kept of the quest `q` differs. -/
structure Touches (log after : QuestLog) (i : Fin maxQuestLogSize) (q : Quest) : Prop where
  slots : ∀ j, j ≠ i → after.slots j = log.slots j
  status : ∀ id, id ≠ q.id → after.questStatus id = log.questStatus id
  rewarded : ∀ id, id ≠ q.id → (id ∈ after.rewardedQuests ↔ id ∈ log.rewardedQuests)
  counters : ∀ key, (∀ o ∈ q.objectives, o.id ≠ key) →
    after.getQuestObjectiveCounter key = log.getQuestObjectiveCounter key

section

variable {log after later : QuestLog} {i : Fin maxQuestLogSize} {q : Quest}

theorem Touches.refl : Touches log log i q :=
  ⟨fun _ _ => rfl, fun _ _ => rfl, fun _ _ => Iff.rfl, fun _ _ => rfl⟩

theorem Touches.trans (first : Touches log after i q) (second : Touches after later i q) :
    Touches log later i q where
  slots := fun j other => (second.slots j other).trans (first.slots j other)
  status := fun id other => (second.status id other).trans (first.status id other)
  rewarded := fun id other => (second.rewarded id other).trans (first.rewarded id other)
  counters := fun key apart => (second.counters key apart).trans (first.counters key apart)

theorem touches_setStatusData (d : QuestStatusData) :
    Touches log (log.setStatusData q.id d) i q where
  slots := fun _ _ => rfl
  status := fun _ other => setStatusData_other d other
  rewarded := fun _ _ => Iff.rfl
  counters := fun _ _ => rfl

theorem touches_changeSlot (f : QuestSlot → QuestSlot) : Touches log (log.changeSlot i f) i q where
  slots := fun _ other => changeSlot_other f other
  status := fun _ _ => rfl
  rewarded := fun _ _ => Iff.rfl
  counters := fun _ _ => rfl

theorem touches_removeTimedQuest (questId : UInt32) :
    Touches log (log.removeTimedQuest questId) i q :=
  ⟨fun _ _ => rfl, fun _ _ => rfl, fun _ _ => Iff.rfl, fun _ _ => rfl⟩

theorem markRewarded_getQuestObjectiveCounter (t : QuestTemplates) (log : QuestLog) (q : Quest)
    (key : UInt32) :
    (log.markRewarded t q).getQuestObjectiveCounter key = log.getQuestObjectiveCounter key := by
  unfold getQuestObjectiveCounter
  rw [(markRewarded_keeps t log q).2.2.1]

theorem changeSlotOf_touches (only : ∀ j, (log.slots j).questId = q.id → j = i)
    (f : QuestSlot → QuestSlot) : Touches log (log.changeSlotOf q.id f) i q := by
  cases found : log.findQuestSlot q.id with
  | none =>
    rw [changeSlotOf_of_none found]
    exact Touches.refl
  | some j =>
    rw [changeSlotOf_of_find found, only j (questId_of_findQuestSlot found)]
    exact touches_changeSlot f

end

section

variable {log : QuestLog} {i : Fin maxQuestLogSize} {q : Quest}

theorem concludeReward_touches : Touches log (log.concludeReward t q) i q := by
  obtain ⟨slots, status, -, rewarded, -⟩ := markRewarded_keeps t log q
  refine ⟨fun j _ => congrFun slots j, fun id other => ?_, fun id other => ?_, fun key _ => ?_⟩
  · show Function.update _ _ _ id = _
    rw [Function.update_of_ne other, status]
  · show id ∈ insert q.id _ ↔ _
    rw [Finset.mem_insert, or_iff_right other]
    exact iff_of_eq (congrArg (id ∈ ·) rewarded)
  · exact markRewarded_getQuestObjectiveCounter t _ q key

theorem finishReward_touches (only : ∀ j, (log.slots j).questId = q.id → j = i) :
    Touches log (log.finishReward t q) i q :=
  (changeSlotOf_touches only fun _ => ⟨0, false, false, 0⟩).trans concludeReward_touches

theorem finishReward_gone (held : (log.slots i).questId = q.id)
    (only : ∀ j, (log.slots j).questId = q.id → j = i) :
    ((log.finishReward t q).slots i).questId = 0 ∧
      (log.finishReward t q).questStatus q.id = none := by
  refine ⟨?_, Function.update_self _ _ _⟩
  show (((log.clearRewardedSlot q.id).markRewarded t q).slots i).questId = 0
  rw [(markRewarded_keeps t _ q).1, clearRewardedSlot,
    changeSlotOf_of_find (findQuestSlot_eq held only)]
  simp

theorem rewardQuest_touches (only : ∀ j, (log.slots j).questId = q.id → j = i) :
    Touches log (log.rewardQuest t q) i q :=
  (touches_removeTimedQuest q.id).trans (finishReward_touches only)

theorem rewardQuest_gone (held : (log.slots i).questId = q.id)
    (only : ∀ j, (log.slots j).questId = q.id → j = i) :
    ((log.rewardQuest t q).slots i).questId = 0 ∧
      (log.rewardQuest t q).questStatus q.id = none := by
  have held' : ((log.removeTimedQuest q.id).slots i).questId = q.id := held
  exact finishReward_gone held' only

variable {d : QuestStatusData}

theorem markComplete_eq (template : t.getQuestTemplate q.id = some q)
    (entry : log.questStatus q.id = some d) (held : (log.slots i).questId = q.id)
    (only : ∀ j, (log.slots j).questId = q.id → j = i) :
    log.markComplete t q.id =
      (log.setStatusData q.id { d with status := .complete }).changeSlot i fun s =>
        { s with complete := true } := by
  have found : (log.setStatusData q.id { d with status := .complete }).findQuestSlot q.id = some i :=
    findQuestSlot_eq held only
  rw [markComplete, if_neg (t.ne_zero template), setQuestStatus_of_template template,
    statusData_of_some entry, changeSlotOf_of_find found]

theorem completeQuest_spec (template : t.getQuestTemplate q.id = some q)
    (entry : log.questStatus q.id = some d) (held : (log.slots i).questId = q.id)
    (only : ∀ j, (log.slots j).questId = q.id → j = i) :
    Touches log (log.completeQuest t q.id) i q ∧
      ((((log.completeQuest t q.id).slots i).questId = 0 ∧
          (log.completeQuest t q.id).questStatus q.id = none) ∨
        (((log.completeQuest t q.id).slots i).questId = q.id ∧
          (log.completeQuest t q.id).questStatus q.id = some { d with status := .complete } ∧
          (log.completeQuest t q.id).rewardedQuests = log.rewardedQuests ∧
          (log.completeQuest t q.id).objectiveStatus = log.objectiveStatus)) := by
  have marked := markComplete_eq template entry held only
  have touched : Touches log (log.markComplete t q.id) i q := by
    rw [marked]
    exact (touches_setStatusData _).trans (touches_changeSlot _)
  have heldLater : ((log.markComplete t q.id).slots i).questId = q.id := by
    rw [marked, changeSlot_same]
    exact held
  have onlyLater : ∀ j, ((log.markComplete t q.id).slots j).questId = q.id → j = i := by
    intro j same
    by_contra other
    rw [touched.slots j other] at same
    exact other (only j same)
  simp only [completeQuest, template]
  split
  · exact ⟨touched.trans (rewardQuest_touches onlyLater),
      Or.inl (rewardQuest_gone heldLater onlyLater)⟩
  refine ⟨touched, Or.inr ⟨heldLater, ?_, ?_, ?_⟩⟩
  all_goals rw [marked]
  · exact setStatusData_same _
  · rfl
  · rfl

end

section

variable (log : QuestLog)

theorem changeSlotOf_objectiveStatus (id : UInt32) (f : QuestSlot → QuestSlot) :
    (log.changeSlotOf id f).objectiveStatus = log.objectiveStatus := by
  unfold changeSlotOf
  split <;> rfl

theorem finishReward_objectiveStatus (q : Quest) :
    (log.finishReward t q).objectiveStatus = log.objectiveStatus :=
  (markRewarded_keeps t _ q).2.2.1.trans (changeSlotOf_objectiveStatus log _ _)

theorem markComplete_objectiveStatus (id : UInt32) :
    (log.markComplete t id).objectiveStatus = log.objectiveStatus := by
  unfold markComplete
  split
  · rfl
  · rw [changeSlotOf_objectiveStatus]
    unfold setQuestStatus
    split <;> rfl

theorem completeIfCan_counters (id key : UInt32) :
    (log.completeIfCan t env id).getQuestObjectiveCounter key =
      log.getQuestObjectiveCounter key := by
  have same : (log.completeIfCan t env id).objectiveStatus = log.objectiveStatus := by
    unfold completeIfCan
    split
    · unfold completeQuest
      split
      · exact markComplete_objectiveStatus log id
      · split
        · exact (finishReward_objectiveStatus _ _).trans (markComplete_objectiveStatus log id)
        · exact markComplete_objectiveStatus log id
    · rfl
  unfold getQuestObjectiveCounter
  rw [same]

end

/-! ## What the counters stand for -/

/-- Nothing is missing, by the credit that each objective has earned. -/
structure Satisfied (earned : UInt32 → UInt32 → Nat) (q : Quest) (d : QuestStatusData) : Prop where
  explored : q.hasSpecialFlag questSpecialFlagsExplorationOrEvent → d.explored
  inTime : q.hasSpecialFlag questSpecialFlagsTimed → d.timer ≠ 0
  objectives : ∀ o ∈ q.objectives, o.amount.toNat ≤ earned q.id o.id

/-- The counters, and the status, of a quest in the log. -/
structure QuestOk (log : QuestLog) (earned : UInt32 → UInt32 → Nat) (q : Quest)
    (d : QuestStatusData) : Prop where
  status : d.status = .incomplete ∨ d.status = .complete
  free : q.isRepeatable ∨ q.id ∉ log.rewardedQuests
  counted : d.status = .incomplete → ∀ o ∈ q.objectives,
    (log.getQuestObjectiveCounter o.id).toNat = min o.amount.toNat (earned q.id o.id)
  finished : d.status = .complete ↔ Satisfied earned q d

/-- Every quest in the log stands there once, has counters of its own, and they say
what was earned. -/
structure Counted (t : QuestTemplates) (log : QuestLog) (earned : UInt32 → UInt32 → Nat) : Prop where
  once : ∀ i j, (log.slots i).questId ≠ 0 → (log.slots j).questId = (log.slots i).questId → j = i
  known : ∀ i, (log.slots i).questId ≠ 0 → ∃ q d,
    (log.slots i).questId = q.id ∧ Stands t log q d ∧ QuestOk log earned q d
  noEmpty : ∀ id d, log.questStatus id = some d → d.status ≠ .none
  apart : ∀ q q', t.getQuestTemplate q.id = some q → t.getQuestTemplate q'.id = some q' →
    log.InLog q.id → log.InLog q'.id →
    ∀ o ∈ q.objectives, ∀ o' ∈ q'.objectives, o.id = o'.id → q = q' ∧ o = o'

section

variable {log after : QuestLog} {earned earned' : UInt32 → UInt32 → Nat} {q : Quest}

variable {d : QuestStatusData}

theorem Satisfied.congr (same : ∀ o ∈ q.objectives, earned' q.id o.id = earned q.id o.id) :
    Satisfied earned' q d ↔ Satisfied earned q d := by
  constructor
  · rintro ⟨explored, inTime, objectives⟩
    exact ⟨explored, inTime, fun o member => same o member ▸ objectives o member⟩
  · rintro ⟨explored, inTime, objectives⟩
    exact ⟨explored, inTime, fun o member => (same o member).symm ▸ objectives o member⟩

theorem QuestOk.congr (ok : QuestOk log earned q d)
    (rewarded : q.id ∈ after.rewardedQuests ↔ q.id ∈ log.rewardedQuests)
    (counters : ∀ o ∈ q.objectives,
      after.getQuestObjectiveCounter o.id = log.getQuestObjectiveCounter o.id)
    (same : ∀ o ∈ q.objectives, earned' q.id o.id = earned q.id o.id) :
    QuestOk after earned' q d where
  status := ok.status
  free := ok.free.imp_right fun unrewarded => by rwa [rewarded]
  counted := fun incomplete o member => by
    rw [counters o member, same o member]
    exact ok.counted incomplete o member
  finished := ok.finished.trans (Satisfied.congr same).symm

theorem Stands.template_unique (stands : Stands t log q d) {p : Quest}
    (found : t.getQuestTemplate q.id = some p) : p = q :=
  Option.some.inj (found.symm.trans stands.template)

/-- **What holds of all quests is rebuilt from the one concerned.** The slot `i` is
the only one where the quest may stand. -/
theorem Counted.of_touches {i : Fin maxQuestLogSize} (counted : Counted t log earned)
    (touches : Touches log after i q) (template : t.getQuestTemplate q.id = some q)
    (only : ∀ j, (log.slots j).questId = q.id → j = i)
    (slot : (after.slots i).questId = 0 ∨ (after.slots i).questId = q.id ∨
      after.slots i = log.slots i ∧ (log.slots i).questId ≠ q.id)
    (entry : ∀ d, after.questStatus q.id = some d → d.status ≠ .none)
    (listed : (after.slots i).questId = q.id → ∃ d, after.questStatus q.id = some d ∧
      QuestOk after earned' q d) (others : ∀ id, id ≠ q.id → earned' id = earned id)
    (ownIds : ∀ o ∈ q.objectives, ∀ o' ∈ q.objectives, o.id = o'.id → o = o')
    (apart : ∀ q', t.getQuestTemplate q'.id = some q' → log.InLog q'.id → q'.id ≠ q.id →
      ∀ o ∈ q.objectives, ∀ o' ∈ q'.objectives, o.id ≠ o'.id) :
    Counted t after earned' := by
  -- a quest other than `q` stands in the log before and after, in the same slot
  have slotOf : ∀ j, (after.slots j).questId ≠ 0 → (after.slots j).questId ≠ q.id →
      after.slots j = log.slots j := by
    intro j used other
    by_cases same : j = i
    · subst same
      rcases slot with empty | own | ⟨unchanged, -⟩
      · exact absurd empty used
      · exact absurd own other
      · exact unchanged
    · exact touches.slots j same
  have onlyNow : ∀ j, (after.slots j).questId = q.id → j = i := by
    intro j own
    by_contra other
    rw [touches.slots j other] at own
    exact other (only j own)
  have inLog : ∀ q', t.getQuestTemplate q'.id = some q' → q'.id ≠ q.id → after.InLog q'.id →
      log.InLog q'.id := by
    rintro q' template' other ⟨j, held⟩
    have unchanged := slotOf j (held ▸ t.ne_zero template') (held ▸ other)
    exact ⟨j, by rw [← unchanged]; exact held⟩
  have same : ∀ q', t.getQuestTemplate q'.id = some q' → q'.id = q.id → q' = q := by
    intro q' template' ids
    rw [ids, template] at template'
    exact (Option.some.inj template').symm
  refine ⟨?_, ?_, ?_, ?_⟩
  · intro j k used twice
    by_cases own : (after.slots j).questId = q.id
    · rw [onlyNow j own, onlyNow k (twice.trans own)]
    have atJ := slotOf j used own
    have atK := slotOf k (twice ▸ used) (twice ▸ own)
    rw [atJ] at used twice
    rw [atK] at twice
    exact counted.once j k used twice
  · intro j used
    by_cases own : (after.slots j).questId = q.id
    · have here := onlyNow j own
      subst here
      obtain ⟨d, found, ok⟩ := listed own
      exact ⟨q, d, own, ⟨template, ⟨j, own⟩, found⟩, ok⟩
    · have unchanged := slotOf j used own
      rw [unchanged] at used own ⊢
      obtain ⟨q', d', held, stands, ok⟩ := counted.known j used
      have other : q'.id ≠ q.id := held ▸ own
      refine ⟨q', d', held, ⟨stands.template, ⟨j, by rw [unchanged]; exact held⟩, ?_⟩, ?_⟩
      · rw [touches.status _ other]
        exact stands.entry
      · refine ok.congr (touches.rewarded _ other) (fun o' member => ?_) fun o' _ => ?_
        · exact touches.counters _ fun o own => apart q' stands.template stands.inLog other o own o' member
        · rw [others _ other]
  · intro id d found
    by_cases own : id = q.id
    · subst own
      exact entry d found
    · rw [touches.status id own] at found
      exact counted.noEmpty id d found
  · intro q₁ q₂ template₁ template₂ in₁ in₂ o₁ member₁ o₂ member₂ ids
    by_cases own₁ : q₁.id = q.id
    · have isQ₁ := same q₁ template₁ own₁
      subst isQ₁
      by_cases own₂ : q₂.id = q₁.id
      · have isQ₂ := same q₂ template₂ own₂
        subst isQ₂
        exact ⟨rfl, ownIds o₁ member₁ o₂ member₂ ids⟩
      · exact absurd ids (apart q₂ template₂ (inLog q₂ template₂ own₂ in₂) own₂ o₁ member₁ o₂ member₂)
    · by_cases own₂ : q₂.id = q.id
      · have isQ₂ := same q₂ template₂ own₂
        subst isQ₂
        exact absurd ids.symm
          (apart q₁ template₁ (inLog q₁ template₁ own₁ in₁) own₁ o₂ member₂ o₁ member₁)
      · exact counted.apart q₁ q₂ template₁ template₂ (inLog q₁ template₁ own₁ in₁)
          (inLog q₂ template₂ own₂ in₂) o₁ member₁ o₂ member₂ ids

theorem Counted.of_outside {questId : UInt32} (counted : Counted t log earned)
    (out : ∀ j, (log.slots j).questId ≠ 0 → (log.slots j).questId ≠ questId)
    (slots : ∀ j, (after.slots j).questId = (log.slots j).questId)
    (status : ∀ id, id ≠ questId → after.questStatus id = log.questStatus id)
    (rewarded : ∀ id, id ≠ questId → (id ∈ after.rewardedQuests ↔ id ∈ log.rewardedQuests))
    (counters : ∀ key, after.getQuestObjectiveCounter key = log.getQuestObjectiveCounter key)
    (entry : ∀ d, after.questStatus questId = some d → d.status ≠ .none) :
    Counted t after earned := by
  have inLog : ∀ id, after.InLog id → log.InLog id := by
    rintro id ⟨j, held⟩
    exact ⟨j, (slots j).symm.trans held⟩
  refine ⟨?_, ?_, ?_, ?_⟩
  · intro i j used twice
    rw [slots] at used
    rw [slots, slots] at twice
    exact counted.once i j used twice
  · intro i used
    rw [slots] at used ⊢
    obtain ⟨q, d, held, stands, ok⟩ := counted.known i used
    have other : q.id ≠ questId := held ▸ out i used
    refine ⟨q, d, held, ⟨stands.template, ⟨i, (slots i).trans held⟩, ?_⟩, ?_⟩
    · rw [status _ other]
      exact stands.entry
    · exact ok.congr (rewarded _ other) (fun o _ => counters o.id) fun _ _ => rfl
  · intro id d found
    by_cases own : id = questId
    · subst own
      exact entry d found
    · rw [status id own] at found
      exact counted.noEmpty id d found
  · intro q q' template template' in₁ in₂
    exact counted.apart q q' template template' (inLog _ in₁) (inLog _ in₂)

end

section

variable {log : QuestLog} {earned : UInt32 → UInt32 → Nat} {i : Fin maxQuestLogSize} {q : Quest}
  {d : QuestStatusData}

theorem objectiveMet_iff {o : QuestObjective} (credited : o.type.IsCredited) :
    log.objectiveMet env o ↔ o.amount.toNat ≤ (log.getQuestObjectiveCounter o.id).toNat := by
  rcases credited with type | type | type <;>
    simp [objectiveMet, type, UInt32.le_iff_toNat_le]

theorem requirementsMet_iff (credited : ∀ o ∈ q.objectives, o.type.IsCredited)
    (counts : ∀ o ∈ q.objectives,
      (log.getQuestObjectiveCounter o.id).toNat = min o.amount.toNat (earned q.id o.id)) :
    log.requirementsMet env q d ↔ Satisfied earned q d := by
  have met : q.objectives.all (log.objectiveMet env) ↔
      ∀ o ∈ q.objectives, o.amount.toNat ≤ earned q.id o.id := by
    rw [List.all_eq_true]
    refine forall₂_congr fun o member => ?_
    rw [objectiveMet_iff (credited o member), counts o member]
    omega
  unfold requirementsMet
  rw [Bool.and_eq_true, Bool.and_eq_true, met]
  constructor
  · rintro ⟨⟨explored, inTime⟩, objectives⟩
    refine ⟨fun flag => ?_, fun flag => ?_, objectives⟩
    · simpa [flag] using explored
    · simpa [flag] using inTime
  · rintro ⟨explored, inTime, objectives⟩
    refine ⟨⟨?_, ?_⟩, objectives⟩
    · cases flag : q.hasSpecialFlag questSpecialFlagsExplorationOrEvent with
      | false => rfl
      | true => simpa using explored flag
    · cases flag : q.hasSpecialFlag questSpecialFlagsTimed with
      | false => rfl
      | true => simpa using inTime flag

theorem canTakeQuest_of_entry (known : q.id ≠ 0) (entry : log.questStatus q.id = some d)
    (taken : d.status ≠ .none) : log.canTakeQuest t env q = false := by
  have status : log.satisfyQuestStatus t q = false := by
    simp [satisfyQuestStatus, getQuestStatus, known, entry, taken]
  simp [canTakeQuest, status]

theorem canCompleteQuest_iff (env : QuestContext) (template : t.getQuestTemplate q.id = some q)
    (entry : log.questStatus q.id = some d) (incomplete : d.status = .incomplete)
    (free : q.isRepeatable ∨ q.id ∉ log.rewardedQuests) :
    log.canCompleteQuest t env q.id ↔ log.requirementsMet env q d := by
  have open' : (!q.isRepeatable && decide (q.id ∈ log.rewardedQuests)) = false := by
    rcases free with repeatable | unrewarded
    · simp [repeatable]
    · simp [unrewarded]
  have taken : log.canTakeQuest t env q = false :=
    canTakeQuest_of_entry (t.ne_zero template) entry (by rw [incomplete]; decide)
  simp [canCompleteQuest, template, open', taken, entry, incomplete]

theorem completeIfCan_spec (env : QuestContext) (template : t.getQuestTemplate q.id = some q)
    (entry : log.questStatus q.id = some d) (incomplete : d.status = .incomplete)
    (held : (log.slots i).questId = q.id) (only : ∀ j, (log.slots j).questId = q.id → j = i)
    (free : q.isRepeatable ∨ q.id ∉ log.rewardedQuests)
    (credited : ∀ o ∈ q.objectives, o.type.IsCredited) (counts : ∀ o ∈ q.objectives,
      (log.getQuestObjectiveCounter o.id).toNat = min o.amount.toNat (earned q.id o.id)) :
    Touches log (log.completeIfCan t env q.id) i q ∧
      ((Satisfied earned q d ∧ ((log.completeIfCan t env q.id).slots i).questId = 0 ∧
          (log.completeIfCan t env q.id).questStatus q.id = none) ∨
        (((log.completeIfCan t env q.id).slots i).questId = q.id ∧
          ∃ d', (log.completeIfCan t env q.id).questStatus q.id = some d' ∧
            QuestOk (log.completeIfCan t env q.id) earned q d' ∧
            (Satisfied earned q d ∨ d' = d))) := by
  have test := (canCompleteQuest_iff env template entry incomplete free).trans
    (requirementsMet_iff credited counts)
  unfold completeIfCan
  split
  · rename_i can
    have satisfied := test.mp can
    obtain ⟨touched, gone | ⟨stays, found, rewarded, -⟩⟩ :=
      completeQuest_spec template entry held only
    · exact ⟨touched, Or.inl ⟨satisfied, gone⟩⟩
    · refine ⟨touched, Or.inr ⟨stays, _, found, ⟨Or.inr rfl, ?_, ?_, ?_⟩, Or.inl satisfied⟩⟩
      · rwa [rewarded]
      · rintro ⟨⟩
      · exact iff_of_true rfl ⟨satisfied.explored, satisfied.inTime, satisfied.objectives⟩
  · rename_i cannot
    have unsatisfied : ¬ Satisfied earned q d := fun satisfied => cannot (test.mpr satisfied)
    refine ⟨Touches.refl, Or.inr ⟨held, d, entry, ⟨Or.inl incomplete, free, fun _ => counts, ?_⟩,
      Or.inr rfl⟩⟩
    rw [incomplete]
    exact iff_of_false (by decide) unsatisfied

end

/-- What a call credits: the quests and the objectives it is for, and how much each
of them is to be credited. -/
structure Credit where
  may : Quest → Bool
  meant : QuestObjective → Bool
  amount : Nat

/-- One objective has taken a credit, up to its amount; the other counters stay. -/
structure Advanced (log after : QuestLog) (o : QuestObjective) (amount : Nat) : Prop where
  slots : after.slots = log.slots
  status : after.questStatus = log.questStatus
  rewarded : after.rewardedQuests = log.rewardedQuests
  self : (after.getQuestObjectiveCounter o.id).toNat =
    min o.amount.toNat ((log.getQuestObjectiveCounter o.id).toNat + amount)
  others : ∀ key, key ≠ o.id → after.getQuestObjectiveCounter key = log.getQuestObjectiveCounter key

section

variable {log : QuestLog} {o : QuestObjective}

theorem advanced_setCounter {count : UInt32} {amount : Nat}
    (exact' : count.toNat = min o.amount.toNat ((log.getQuestObjectiveCounter o.id).toNat + amount)) :
    Advanced log (log.setCounter o.id count) o amount := by
  refine ⟨rfl, rfl, rfl, ?_, fun key other => ?_⟩
  · rw [getQuestObjectiveCounter_setCounter, if_pos rfl]
    exact exact'
  · rw [getQuestObjectiveCounter_setCounter, if_neg other]

theorem advanced_full {amount : Nat} (within : log.getQuestObjectiveCounter o.id ≤ o.amount)
    (full : o.amount ≤ log.getQuestObjectiveCounter o.id) : Advanced log log o amount := by
  refine ⟨rfl, rfl, rfl, ?_, fun _ _ => rfl⟩
  rw [UInt32.le_iff_toNat_le] at within full
  omega

theorem toNat_add_one_of_lt {count bound : UInt32} (below : count < bound) :
    (count + 1).toNat = min bound.toNat (count.toNat + 1) := by
  have fits := bound.toNat_lt
  rw [UInt32.lt_iff_toNat_lt] at below
  rw [UInt32.toNat_add, Nat.mod_eq_of_lt]
  · show count.toNat + 1 = _
    omega
  · show count.toNat + 1 < _
    omega

section

variable (within : log.getQuestObjectiveCounter o.id ≤ o.amount)

include within

theorem advanceMonster_advanced : Advanced log (advanceMonster log o) o 1 := by
  unfold advanceMonster
  split
  · rename_i below
    exact advanced_setCounter (toNat_add_one_of_lt below)
  · rename_i full
    exact advanced_full within (UInt32.not_lt.mp full)

theorem advancePlayer_advanced (own : o.objectId = o.id ∨ o.amount ≤ log.getQuestObjectiveCounter o.id) :
    Advanced log (advancePlayer log o) o 1 := by
  unfold advancePlayer
  split
  · rename_i below
    rcases own with own | full
    · rw [own]
      exact advanced_setCounter (toNat_add_one_of_lt below)
    · exact absurd below (UInt32.not_lt.mpr full)
  · rename_i full
    exact advanced_full within (UInt32.not_lt.mp full)

theorem advanceSatisfied_advanced {amount : UInt32} (fits : log.getQuestObjectiveCounter o.id = 0 ∨ amount = o.amount ∧
      2 ^ 32 ≤ (log.getQuestObjectiveCounter o.id).toNat + amount.toNat) :
    Advanced log (advanceSatisfied amount log o) o amount.toNat := by
  refine advanced_setCounter ?_
  generalize log.getQuestObjectiveCounter o.id = count at within fits ⊢
  rcases fits with rfl | ⟨rfl, wraps⟩
  · rw [UInt32.zero_add]
    split
    · rename_i more
      rw [UInt32.lt_iff_toNat_lt] at more
      rw [UInt32.sub_zero]
      omega
    · rename_i less
      rw [UInt32.not_lt, UInt32.le_iff_toNat_le] at less
      show _ = min _ (0 + amount.toNat)
      omega
  · have below := count.toNat_lt
    have bound := o.amount.toNat_lt
    rw [UInt32.le_iff_toNat_le] at within
    have sum : (count + o.amount).toNat = count.toNat + o.amount.toNat - 2 ^ 32 := by
      rw [UInt32.toNat_add]
      omega
    have notMore : ¬ o.amount < count + o.amount := by
      rw [UInt32.lt_iff_toNat_lt, sum]
      omega
    rw [if_neg notMore]
    omega

end

end

/-- The loop body that the credit functions share, where the quests in the log have
their entries. -/
def creditTurn (t : QuestTemplates) (env : QuestContext) (c : Credit)
    (advance : QuestLog → QuestObjective → QuestLog) (log : QuestLog) (i : Fin maxQuestLogSize) :
    QuestLog :=
  match t.getQuestTemplate (log.slots i).questId with
  | none => log
  | some q =>
    if (log.statusData q.id).status = .incomplete && c.may q then
      finishTurn t env (log.creditFirst c.meant advance q)
    else log

section

variable {log : QuestLog} {earned : UInt32 → UInt32 → Nat} {i : Fin maxQuestLogSize}

theorem Counted.slot_cases (counted : Counted t log earned) (i : Fin maxQuestLogSize) :
    t.getQuestTemplate (log.slots i).questId = none ∨
      ∃ q d, (log.slots i).questId = q.id ∧ Stands t log q d ∧ QuestOk log earned q d := by
  by_cases used : (log.slots i).questId = 0
  · left
    rw [used]
    exact t.noneZero
  · exact Or.inr (counted.known i used)

theorem touchStatus_of_entry {d : QuestStatusData} {questId : UInt32}
    (entry : log.questStatus questId = some d) : log.touchStatus questId = log := by
  unfold touchStatus
  rw [statusData_of_some entry, setStatusData, ← entry, Function.update_eq_self]

variable {type : QuestObjectiveType}

theorem find?_eq_none_of_countType {q : Quest}
    {meant : QuestObjective → Bool} (ofType : ∀ o, meant o → o.type = type)
    (noneOf : q.getQuestObjectiveCountType type = 0) : q.objectives.find? meant = none := by
  refine List.find?_eq_none.mpr fun o member isMeant => ?_
  have lacks := List.countP_eq_zero.mp noneOf o member
  exact lacks (decide_eq_true (ofType o isMeant))

theorem killedTurn_eq (counted : Counted t log earned)
    {meant : QuestObjective → Bool} (ofType : ∀ o, meant o → o.type = type)
    (advance : QuestLog → QuestObjective → QuestLog) (amount : Nat) :
    finishTurn t env (log.killedTurn t env type meant advance i) =
      creditTurn t env ⟨env.allowedInRaid, meant, amount⟩ advance log i := by
  unfold killedTurn creditTurn
  rcases counted.slot_cases i with missing | ⟨q, d, held, stands, -⟩
  · simp only [missing]
    rfl
  rw [held, stands.template]
  dsimp only
  rw [touchStatus_of_entry stands.entry]
  split
  · rename_i noneOf
    unfold creditFirst
    rw [find?_eq_none_of_countType ofType noneOf]
    split <;> rfl
  · split <;> rfl

theorem satisfyTurn_eq (counted : Counted t log earned) {objectId amount : UInt32} :
    finishTurn t env (log.satisfyTurn t objectId amount type i) =
      creditTurn t env ⟨fun _ => true, meantObject objectId type, amount.toNat⟩
        (advanceSatisfied amount) log i := by
  unfold satisfyTurn creditTurn
  rcases counted.slot_cases i with missing | ⟨q, d, held, stands, -⟩
  · simp only [missing]
    rfl
  rw [held, stands.template]
  dsimp only
  rw [touchStatus_of_entry stands.entry, Bool.and_true]
  by_cases incomplete : (log.statusData q.id).status = .incomplete
  · rw [if_neg (not_not_intro incomplete), if_pos (decide_eq_true incomplete)]
    split
    · rename_i noneOf
      have ofType : ∀ o, meantObject objectId type o → o.type = type := by
        intro o isMeant
        simp only [meantObject, Bool.and_eq_true, decide_eq_true_eq] at isMeant
        exact isMeant.1
      simp only [Bool.and_eq_true, decide_eq_true_eq] at noneOf
      unfold creditFirst
      rw [find?_eq_none_of_countType ofType noneOf.2]
    · rfl
  · rw [if_pos incomplete, if_neg (by simpa using incomplete)]
    rfl

end

end Sky548.QuestLog
