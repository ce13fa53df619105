import Sky548.Quests.Counting

/-!
# The credit loops

A credit goes through the slots of the log. `run_counted` says what a whole loop
does to counters and statuses, provided each quest it meets takes the credit
exactly; what that needs of a quest is `Takes`.
-/

namespace Sky548.QuestLog

open List

open Machine

variable {t : QuestTemplates} {env : QuestContext} {c : Credit}
  {advance : QuestLog → QuestObjective → QuestLog}

def isIncomplete (log : QuestLog) (questId : UInt32) : Bool :=
  (log.findQuestSlot questId).isSome &&
    (log.questStatus questId).any fun d => d.status = .incomplete

def given (t : QuestTemplates) (log : QuestLog) (c : Credit) (questId objectiveId : UInt32) : Nat :=
  match t.getQuestTemplate questId with
  | none => 0
  | some q =>
    match q.objectives.find? fun o => o.id = objectiveId with
    | none => 0
    | some o => if log.isIncomplete questId && c.may q && c.meant o then c.amount else 0

/-- A quest takes a credit as it is given: of the objectives that are meant, all but
the first are full, and the first is advanced by the amount. -/
structure Takes (log : QuestLog) (c : Credit) (advance : QuestLog → QuestObjective → QuestLog)
    (q : Quest) : Prop where
  rest : ∀ o ∈ q.objectives, c.meant o → q.objectives.find? c.meant = some o ∨ c.amount = 0 ∨
    o.amount ≤ log.getQuestObjectiveCounter o.id
  first : ∀ o, q.objectives.find? c.meant = some o → Advanced log (advance log o) o c.amount

section

variable {log : QuestLog} {earned : UInt32 → UInt32 → Nat} {i : Fin maxQuestLogSize} {q : Quest}
  {d : QuestStatusData}

theorem isIncomplete_iff (stands : Stands t log q d) :
    log.isIncomplete q.id ↔ d.status = .incomplete := by
  have isSome : (log.findQuestSlot q.id).isSome := findQuestSlot_isSome.mpr stands.inLog
  simp [isIncomplete, isSome, stands.entry]

section

variable (counted : Counted t log earned)

include counted

variable {o : QuestObjective}

theorem Counted.find?_id (stands : Stands t log q d) (member : o ∈ q.objectives) :
    (q.objectives.find? fun o' => o'.id = o.id) = some o := by
  cases found : q.objectives.find? fun o' => o'.id = o.id with
  | none => exact absurd (decide_eq_true rfl) (List.find?_eq_none.mp found o member)
  | some o' =>
    have ids : o'.id = o.id := by simpa using find?_some found
    have same := counted.apart q q stands.template stands.template stands.inLog stands.inLog
      o' (mem_of_find?_eq_some found) o member ids
    rw [same.2]

theorem Counted.given_eq (stands : Stands t log q d) (member : o ∈ q.objectives) :
    given t log c q.id o.id =
      if d.status = .incomplete ∧ c.may q ∧ c.meant o then c.amount else 0 := by
  unfold given
  rw [stands.template]
  dsimp only
  rw [counted.find?_id stands member]
  dsimp only
  have same : (log.isIncomplete q.id && c.may q && c.meant o) = true ↔
      d.status = .incomplete ∧ c.may q ∧ c.meant o := by
    rw [Bool.and_eq_true, Bool.and_eq_true, isIncomplete_iff stands, and_assoc]
  by_cases holds : d.status = .incomplete ∧ c.may q ∧ c.meant o
  · rw [if_pos (same.mpr holds), if_pos holds]
  · rw [if_neg fun is => holds (same.mp is), if_neg holds]

theorem Counted.only (template : t.getQuestTemplate q.id = some q)
    (held : (log.slots i).questId = q.id) (j : Fin maxQuestLogSize)
    (again : (log.slots j).questId = q.id) : j = i :=
  counted.once i j (held ▸ t.ne_zero template) (again.trans held.symm)

theorem Counted.of_touches_standing {after : QuestLog} {earned' : UInt32 → UInt32 → Nat} (stands : Stands t log q d)
    (held : (log.slots i).questId = q.id) (touches : Touches log after i q)
    (slot : (after.slots i).questId = 0 ∨ (after.slots i).questId = q.id)
    (entry : ∀ d, after.questStatus q.id = some d → d.status ≠ .none)
    (listed : (after.slots i).questId = q.id → ∃ d, after.questStatus q.id = some d ∧
      QuestOk after earned' q d)
    (others : ∀ id, id ≠ q.id → earned' id = earned id) : Counted t after earned' := by
  refine counted.of_touches touches stands.template (counted.only stands.template held)
    (slot.imp_right Or.inl) entry listed others ?_ ?_
  · intro o member o' member' ids
    exact (counted.apart q q stands.template stands.template stands.inLog stands.inLog
      o member o' member' ids).2
  · intro q' template' inLog' other o member o' member' ids
    have same := counted.apart q q' stands.template template' stands.inLog inLog'
      o member o' member' ids
    exact other (by rw [same.1])

theorem Counted.ok (stands : Stands t log q d) : QuestOk log earned q d := by
  obtain ⟨i, held⟩ := stands.inLog
  obtain ⟨q', d', held', stands', ok⟩ := counted.known i (held ▸ t.ne_zero stands.template)
  have ids : q.id = q'.id := held.symm.trans held'
  have same : q' = q := by
    have template := stands'.template
    rw [← ids] at template
    exact stands.template_unique template
  subst same
  have entries : d' = d := Option.some.inj (stands'.entry.symm.trans stands.entry)
  rwa [← entries]

theorem Counted.within (stands : Stands t log q d)
    (incomplete : d.status = .incomplete) (member : o ∈ q.objectives) :
    log.getQuestObjectiveCounter o.id ≤ o.amount := by
  rw [UInt32.le_iff_toNat_le, (counted.ok stands).counted incomplete o member]
  exact Nat.min_le_left _ _

end

def earnedBy (t : QuestTemplates) (log : QuestLog) (c : Credit) (earned : UInt32 → UInt32 → Nat)
    (questId id objectiveId : UInt32) : Nat :=
  earned id objectiveId + if id = questId then given t log c id objectiveId else 0

/-- What one turn does, to the quest in its slot and to no other. -/
structure TurnDone (t : QuestTemplates) (log after : QuestLog) (c : Credit)
    (earned : UInt32 → UInt32 → Nat) (i : Fin maxQuestLogSize) (q : Quest)
    (d : QuestStatusData) : Prop where
  counted : Counted t after (earnedBy t log c earned q.id)
  touches : Touches log after i q
  onlyGiven : ∀ key, after.getQuestObjectiveCounter key ≠ log.getQuestObjectiveCounter key →
    ∃ o ∈ q.objectives, o.id = key ∧ 0 < given t log c q.id o.id
  onlySatisfied : d.status = .incomplete →
    ((after.slots i).questId = q.id ∧ after.questStatus q.id = some d) ∨
      Satisfied (earnedBy t log c earned q.id) q d

theorem Counted.turnDone_refl (counted : Counted t log earned) (stands : Stands t log q d)
    (held : (log.slots i).questId = q.id)
    (nothing : ∀ o ∈ q.objectives, given t log c q.id o.id = 0) :
    TurnDone t log log c earned i q d := by
  have same : ∀ o ∈ q.objectives, earnedBy t log c earned q.id q.id o.id = earned q.id o.id := by
    intro o member
    simp [earnedBy, nothing o member]
  refine ⟨?_, Touches.refl, fun key changed => absurd rfl changed, fun _ => Or.inl ⟨held, stands.entry⟩⟩
  refine counted.of_touches_standing stands held Touches.refl (Or.inr held) (counted.noEmpty q.id)
    (fun _ => ⟨d, stands.entry, ?_⟩) ?_
  · exact (counted.ok stands).congr Iff.rfl (fun _ _ => rfl) same
  · intro id other
    funext objectiveId
    simp [earnedBy, other]

theorem creditTurn_done (env : QuestContext) (counted : Counted t log earned) (stands : Stands t log q d)
    (held : (log.slots i).questId = q.id) (credited : ∀ o ∈ q.objectives, o.type.IsCredited)
    (takes : d.status = .incomplete → c.may q → Takes log c advance q) :
    TurnDone t log (creditTurn t env c advance log i) c earned i q d := by
  unfold creditTurn
  rw [held, stands.template]
  dsimp only
  rw [statusData_of_some stands.entry]
  by_cases meets : d.status = .incomplete ∧ c.may q
  · obtain ⟨incomplete, may⟩ := meets
    rw [if_pos (by simp [incomplete, may])]
    obtain ⟨rest, first⟩ := takes incomplete may
    unfold creditFirst
    cases found : q.objectives.find? c.meant with
    | none =>
      dsimp only [finishTurn]
      refine counted.turnDone_refl stands held fun o member => ?_
      have notMeant : ¬ c.meant o := List.find?_eq_none.mp found o member
      simp [counted.given_eq stands member, notMeant]
    | some o =>
      dsimp only [finishTurn]
      have member := mem_of_find?_eq_some found
      have isMeant : c.meant o := find?_some found
      have advanced := first o found
      have ok := counted.ok stands
      have givenTo : ∀ o' ∈ q.objectives,
          given t log c q.id o'.id = if c.meant o' then c.amount else 0 := by
        intro o' member'
        simp [counted.given_eq stands member', incomplete, may]
      have counts : ∀ o' ∈ q.objectives, ((advance log o).getQuestObjectiveCounter o'.id).toNat =
            min o'.amount.toNat (earnedBy t log c earned q.id q.id o'.id) := by
        intro o' member'
        have before := ok.counted incomplete o' member'
        rw [earnedBy, if_pos rfl, givenTo o' member']
        by_cases same : o' = o
        · subst same
          rw [advanced.self, before, if_pos isMeant]
          omega
        have apart : o'.id ≠ o.id := fun ids => same
          (counted.apart q q stands.template stands.template stands.inLog stands.inLog
            o' member' o member ids).2
        rw [advanced.others _ apart, before]
        by_cases meant' : c.meant o'
        · rw [if_pos meant']
          rcases rest o' member' meant' with isFirst | zero | full
          · exact absurd (Option.some.inj (isFirst.symm.trans found)) same
          · rw [zero]
            rfl
          · rw [UInt32.le_iff_toNat_le, before] at full
            omega
        · rw [if_neg meant']
          rfl
      have touched : Touches log (advance log o) i q := by
        refine ⟨fun j _ => congrFun advanced.slots j, fun id _ => congrFun advanced.status id,
          fun id _ => by rw [advanced.rewarded], fun key apart => ?_⟩
        exact advanced.others key (apart o member).symm
      have heldLater : ((advance log o).slots i).questId = q.id := by
        rw [advanced.slots]
        exact held
      have onlyLater : ∀ j, ((advance log o).slots j).questId = q.id → j = i := by
        intro j
        rw [advanced.slots]
        exact counted.only stands.template held j
      have entryLater : (advance log o).questStatus q.id = some d := by
        rw [advanced.status]
        exact stands.entry
      have freeLater : q.isRepeatable ∨ q.id ∉ (advance log o).rewardedQuests := by
        rw [advanced.rewarded]
        exact ok.free
      obtain ⟨touchedLater, result⟩ := completeIfCan_spec env stands.template entryLater
        incomplete heldLater onlyLater freeLater credited counts
      refine ⟨?_, touched.trans touchedLater, ?_, ?_⟩
      · refine counted.of_touches_standing stands held (touched.trans touchedLater) ?_ ?_ ?_ ?_
        · exact result.imp (fun gone => gone.2.1) And.left
        · rcases result with ⟨-, -, gone⟩ | ⟨-, d', entry, ok', -⟩
          · intro d' entry
            rw [gone] at entry
            cases entry
          · intro d'' entry'
            rw [entry] at entry'
            cases entry'
            rcases ok'.status with status | status <;> rw [status] <;> decide
        · intro stays
          rcases result with ⟨-, gone, -⟩ | ⟨-, d', entry, ok', -⟩
          · rw [gone] at stays
            exact absurd stays.symm (t.ne_zero stands.template)
          · exact ⟨d', entry, ok'⟩
        · intro id other
          funext objectiveId
          simp [earnedBy, other]
      · intro key changed
        rw [completeIfCan_counters] at changed
        by_cases own : key = o.id
        · refine ⟨o, member, own.symm, ?_⟩
          rw [givenTo o member, if_pos isMeant]
          by_contra zero
          have none' : c.amount = 0 := Nat.eq_zero_of_not_pos zero
          refine changed ?_
          have self := advanced.self
          have within := counted.within stands incomplete member
          rw [UInt32.le_iff_toNat_le] at within
          rw [none'] at self
          rw [own]
          exact UInt32.toNat_inj.mp (by omega)
        · exact absurd (advanced.others key own) changed
      · intro _
        rcases result with ⟨satisfied, -⟩ | ⟨stays, d', entry, -, satisfied | same⟩
        · exact Or.inr satisfied
        · exact Or.inr satisfied
        · subst same
          exact Or.inl ⟨stays, entry⟩
  · rw [if_neg (by simpa using meets)]
    refine counted.turnDone_refl stands held fun o member => ?_
    rw [counted.given_eq stands member, if_neg]
    exact fun all => meets ⟨all.1, all.2.1⟩

end

section

variable {log : QuestLog} {earned : UInt32 → UInt32 → Nat}

/-- What has been earned when the slots of `done` have had their turn. -/
def earnedAt (t : QuestTemplates) (log : QuestLog) (c : Credit) (earned : UInt32 → UInt32 → Nat)
    (done : List (Fin maxQuestLogSize)) (id objectiveId : UInt32) : Nat :=
  earned id objectiveId +
    if done.any fun j => (log.slots j).questId = id then given t log c id objectiveId else 0

/-- Turns had and turns to come. -/
structure LoopAt (t : QuestTemplates) (log : QuestLog) (c : Credit)
    (earned : UInt32 → UInt32 → Nat) (done rest : List (Fin maxQuestLogSize))
    (now : QuestLog) : Prop where
  turns : done ++ rest = List.finRange maxQuestLogSize
  counted : Counted t now (earnedAt t log c earned done)
  later : ∀ j ∈ rest, now.slots j = log.slots j ∧ ∀ q d, (log.slots j).questId = q.id →
    Stands t log q d → now.questStatus q.id = some d ∧
      ∀ o ∈ q.objectives, now.getQuestObjectiveCounter o.id = log.getQuestObjectiveCounter o.id
  onlyGiven : ∀ key, now.getQuestObjectiveCounter key ≠ log.getQuestObjectiveCounter key →
    ∃ q, t.getQuestTemplate q.id = some q ∧ ∃ o ∈ q.objectives, o.id = key ∧
      0 < given t log c q.id o.id
  onlySatisfied : ∀ j ∈ done, ∀ q d, (log.slots j).questId = q.id → Stands t log q d →
    d.status = .incomplete → ((now.slots j).questId = q.id ∧ now.questStatus q.id = some d) ∨
      Satisfied (earnedAt t log c earned done) q d

theorem given_of_missing {id : UInt32} (missing : t.getQuestTemplate id = none) (key : UInt32) :
    given t log c id key = 0 := by
  simp [given, missing]

theorem earnedAt_append (done : List (Fin maxQuestLogSize)) (i : Fin maxQuestLogSize)
    {id : UInt32} (apart : (log.slots i).questId ≠ id ∨ t.getQuestTemplate id = none ∨
      ∃ j ∈ done, (log.slots j).questId = id) :
    earnedAt t log c earned (done ++ [i]) id = earnedAt t log c earned done id := by
  funext key
  unfold earnedAt
  rcases apart with other | missing | ⟨j, member, held⟩
  · simp [any_append, other]
  · simp [given_of_missing missing]
  · have had : done.any (fun j => decide ((log.slots j).questId = id)) = true :=
      List.any_eq_true.mpr ⟨j, member, decide_eq_true held⟩
    simp [any_append, had]

theorem LoopAt.pass {done rest : List (Fin maxQuestLogSize)} {i : Fin maxQuestLogSize}
    {now : QuestLog} (loop : LoopAt t log c earned done (i :: rest) now)
    (missing : t.getQuestTemplate (log.slots i).questId = none) :
    LoopAt t log c earned (done ++ [i]) rest (creditTurn t env c advance now i) := by
  have same : creditTurn t env c advance now i = now := by
    unfold creditTurn
    rw [(loop.later i (mem_cons_self ..)).1, missing]
  have earnedSame : earnedAt t log c earned (done ++ [i]) = earnedAt t log c earned done := by
    funext id
    by_cases own : (log.slots i).questId = id
    · exact earnedAt_append done i (Or.inr (Or.inl (own ▸ missing)))
    · exact earnedAt_append done i (Or.inl own)
  rw [same]
  refine ⟨by rw [← loop.turns, append_assoc]; rfl, earnedSame ▸ loop.counted,
    fun j member => loop.later j (mem_cons_of_mem _ member), loop.onlyGiven, ?_⟩
  intro j member q d held stands incomplete
  rw [earnedSame]
  rcases List.mem_append.mp member with before | here
  · exact loop.onlySatisfied j before q d held stands incomplete
  · rw [List.mem_singleton.mp here] at held
    rw [held, stands.template] at missing
    cases missing

theorem LoopAt.turn (counted : Counted t log earned)
    (credited : ∀ id q, t.getQuestTemplate id = some q → ∀ o ∈ q.objectives, o.type.IsCredited)
    (takes : ∀ q d, Stands t log q d → d.status = .incomplete → c.may q → ∀ now : QuestLog,
      (∀ o ∈ q.objectives, now.getQuestObjectiveCounter o.id = log.getQuestObjectiveCounter o.id) →
        Takes now c advance q)
    {done rest : List (Fin maxQuestLogSize)} {i : Fin maxQuestLogSize} {now : QuestLog}
    (loop : LoopAt t log c earned done (i :: rest) now) :
    LoopAt t log c earned (done ++ [i]) rest (creditTurn t env c advance now i) := by
  rcases counted.slot_cases i with missing | ⟨q, d, held, stands, -⟩
  · exact loop.pass missing
  obtain ⟨sameSlot, sameQuest⟩ := loop.later i (mem_cons_self ..)
  obtain ⟨sameEntry, sameCounters⟩ := sameQuest q d held stands
  have heldNow : (now.slots i).questId = q.id := by rw [sameSlot]; exact held
  have standsNow : Stands t now q d := ⟨stands.template, ⟨i, heldNow⟩, sameEntry⟩
  have turnsOnce : (done ++ i :: rest).Nodup := by
    rw [loop.turns]
    exact nodup_finRange _
  have notDone : ∀ j ∈ done, (log.slots j).questId ≠ q.id := by
    intro j member again
    rw [counted.only stands.template held j again] at member
    exact (disjoint_of_nodup_append turnsOnce) member (mem_cons_self ..)
  have notLater : ∀ j ∈ rest, j ≠ i := by
    rintro j member rfl
    exact (List.nodup_cons.mp (Nodup.of_append_right turnsOnce)).1 member
  have sameGiven : ∀ key, given t now c q.id key = given t log c q.id key := by
    intro key
    have same : now.isIncomplete q.id = log.isIncomplete q.id :=
      Bool.eq_iff_iff.mpr ((isIncomplete_iff standsNow).trans (isIncomplete_iff stands).symm)
    unfold given
    rw [same]
  have earnedNow : earnedBy t now c (earnedAt t log c earned done) q.id =
      earnedAt t log c earned (done ++ [i]) := by
    funext id key
    by_cases own : id = q.id
    · subst own
      have before : done.any (fun j => decide ((log.slots j).questId = q.id)) = false :=
        List.any_eq_false.mpr fun j member => by simpa using notDone j member
      simp [earnedBy, earnedAt, sameGiven, any_append, before, held]
    · rw [earnedAt_append done i (Or.inl (held ▸ Ne.symm own))]
      simp [earnedBy, own]
  obtain ⟨countedLater, touches, onlyGiven, onlySatisfied⟩ :=
    creditTurn_done env loop.counted standsNow heldNow (credited _ q stands.template)
      fun incomplete may => takes q d stands incomplete may now sameCounters
  rw [earnedNow] at countedLater onlySatisfied
  -- the quest of another slot has another id, and counters of its own
  have others : ∀ j q' d', j ≠ i → (log.slots j).questId = q'.id → Stands t log q' d' →
      q'.id ≠ q.id ∧ ∀ o' ∈ q'.objectives, ∀ o ∈ q.objectives, o.id ≠ o'.id := by
    intro j q' d' other held' stands'
    have apart : q'.id ≠ q.id := fun ids =>
      other (counted.only stands.template held j (held'.trans ids))
    refine ⟨apart, fun o' member' o member ids => apart ?_⟩
    rw [(counted.apart q q' stands.template stands'.template stands.inLog stands'.inLog
      o member o' member' ids).1]
  refine ⟨by rw [← loop.turns, append_assoc]; rfl, countedLater, ?_, ?_, ?_⟩
  · intro j member
    obtain ⟨slotSame, questSame⟩ := loop.later j (mem_cons_of_mem _ member)
    refine ⟨(touches.slots j (notLater j member)).trans slotSame, fun q' d' held' stands' => ?_⟩
    obtain ⟨apart, ids⟩ := others j q' d' (notLater j member) held' stands'
    obtain ⟨entry, counters⟩ := questSame q' d' held' stands'
    refine ⟨(touches.status _ apart).trans entry, fun o' member' => ?_⟩
    exact (touches.counters _ (ids o' member')).trans (counters o' member')
  · intro key changed
    by_cases here : (creditTurn t env c advance now i).getQuestObjectiveCounter key =
        now.getQuestObjectiveCounter key
    · exact loop.onlyGiven key (here ▸ changed)
    · obtain ⟨o, member, own, positive⟩ := onlyGiven key here
      rw [sameGiven] at positive
      exact ⟨q, stands.template, o, member, own, positive⟩
  · intro j member q' d' held' stands' incomplete
    rcases List.mem_append.mp member with before | here
    · have other : j ≠ i := by
        rintro rfl
        exact notDone j before held
      obtain ⟨apart, -⟩ := others j q' d' other held' stands'
      refine (loop.onlySatisfied j before q' d' held' stands' incomplete).imp (fun stays => ?_)
        fun satisfied => ?_
      · rw [touches.slots j other, touches.status _ apart]
        exact stays
      · refine (Satisfied.congr fun o' _ => ?_).mpr satisfied
        rw [earnedAt_append done i (Or.inl (held ▸ Ne.symm apart))]
    · rw [List.mem_singleton.mp here] at held' ⊢
      have same : q' = q := by
        have template := stands'.template
        rw [held'.symm.trans held] at template
        exact stands.template_unique template
      subst same
      have entries : d' = d := Option.some.inj (stands'.entry.symm.trans stands.entry)
      subst entries
      exact onlySatisfied incomplete

structure CallDone (t : QuestTemplates) (log after : QuestLog) (c : Credit)
    (earned : UInt32 → UInt32 → Nat) : Prop where
  counted : Counted t after fun id key => earned id key + given t log c id key
  onlyGiven : ∀ key, after.getQuestObjectiveCounter key ≠ log.getQuestObjectiveCounter key →
    ∃ q, t.getQuestTemplate q.id = some q ∧ ∃ o ∈ q.objectives, o.id = key ∧
      0 < given t log c q.id o.id
  onlySatisfied : ∀ q d, Stands t log q d → d.status = .incomplete → Stands t after q d ∨
    Satisfied (fun id key => earned id key + given t log c id key) q d

theorem given_of_not_inLog {id : UInt32} (out : ¬ log.InLog id) (key : UInt32) :
    given t log c id key = 0 := by
  have missing : (log.findQuestSlot id).isSome = false := by
    rw [← Bool.not_eq_true]
    exact fun found => out (findQuestSlot_isSome.mp found)
  unfold given
  split
  · rfl
  · split
    · rfl
    · simp [isIncomplete, missing]

theorem earnedAt_all (t : QuestTemplates) (log : QuestLog) (c : Credit)
    (earned : UInt32 → UInt32 → Nat) :
    earnedAt t log c earned (List.finRange maxQuestLogSize) =
      fun id key => earned id key + given t log c id key := by
  funext id key
  unfold earnedAt
  split
  · rfl
  rename_i out
  rw [given_of_not_inLog]
  rintro ⟨i, held⟩
  exact out (List.any_eq_true.mpr ⟨i, mem_finRange i, decide_eq_true held⟩)

theorem run_counted {turn : QuestLog → Fin maxQuestLogSize → QuestLog}
    (same : ∀ now earned' i, Counted t now earned' → turn now i = creditTurn t env c advance now i)
    (counted : Counted t log earned)
    (credited : ∀ id q, t.getQuestTemplate id = some q → ∀ o ∈ q.objectives, o.type.IsCredited)
    (takes : ∀ q d, Stands t log q d → d.status = .incomplete → c.may q → ∀ now : QuestLog,
      (∀ o ∈ q.objectives, now.getQuestObjectiveCounter o.id = log.getQuestObjectiveCounter o.id) →
        Takes now c advance q) :
    CallDone t log (run turn log (List.finRange maxQuestLogSize)) c earned := by
  have start : LoopAt t log c earned [] (List.finRange maxQuestLogSize) log := by
    refine ⟨rfl, ?_, fun j _ => ⟨rfl, fun q d _ stands => ⟨stands.entry, fun _ _ => rfl⟩⟩,
      fun key changed => absurd rfl changed, fun j member => absurd member not_mem_nil⟩
    exact counted
  have final := run_list turn (P := LoopAt t log c earned) (fun done i rest now loop => by
      rw [same now _ i loop.counted]
      exact loop.turn counted credited takes)
    (List.finRange maxQuestLogSize) [] log start
  rw [nil_append] at final
  obtain ⟨-, countedLater, -, onlyGiven, onlySatisfied⟩ := final
  rw [earnedAt_all] at countedLater onlySatisfied
  refine ⟨countedLater, onlyGiven, fun q d stands incomplete => ?_⟩
  obtain ⟨i, held⟩ := stands.inLog
  refine (onlySatisfied i (mem_finRange i) q d held stands incomplete).imp_left fun stays => ?_
  exact ⟨stands.template, ⟨i, stays.1⟩, stays.2⟩

end

end Sky548.QuestLog
