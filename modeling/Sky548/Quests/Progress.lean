import Sky548.Quests.Crediting

/-!
# Whether progress is what was earned

The credit that an objective has been given since its quest was last accepted is kept beside the
log. `Exact` says that the counters of the incomplete quests show it, up to what is asked for, and
that a quest is complete exactly when it is satisfied; `Proper` says of one event that it changes no
counter that it gives nothing to.

Neither is so in general. A counter outlives its quest, and who takes the quest again goes on from
there. `QuestObjectiveSatisfy` sets the counter to the amount instead of adding it.
`KilledPlayerCredit` writes under the id of the object. A second objective of one quest that a
credit is meant for gets nothing.
-/

namespace Sky548

open List
open Function (update update_of_ne update_self)

/-- A player's quest log, and the credit given to each objective of each quest since
the quest was last accepted. -/
structure Progress where
  log : QuestLog
  earned : UInt32 → UInt32 → Nat

namespace Progress

open Machine QuestLog

inductive Event
  | accept (env : QuestContext) (questId : UInt32)
  | confirmAccept (env : QuestContext) (questId : UInt32)
  | abandon (env : QuestContext) (i : Fin maxQuestLogSize)
  | reward (questId : UInt32)
  | killedMonster (env : QuestContext) (entry : UInt32)
  | killedPlayer (env : QuestContext)
  | satisfy (env : QuestContext) (objectId amount : UInt32) (type : QuestObjectiveType)

variable (t : QuestTemplates)

def perform (log : QuestLog) : Event → QuestLog
  | .accept env questId => log.acceptQuest t env questId
  | .confirmAccept env questId => log.confirmAccept t env questId
  | .abandon env i => log.abandonQuest t env i
  | .reward questId =>
    match t.getQuestTemplate questId with
    | none => log
    | some q => log.rewardQuest t q
  | .killedMonster env entry => log.killedMonsterCredit t env entry
  | .killedPlayer env => log.killedPlayerCredit t env
  | .satisfy env objectId amount type => log.questObjectiveSatisfy t env objectId amount type

/-- The credit that a call is there to give. -/
def Event.credit? : Event → Option Credit
  | .killedMonster env entry => some ⟨env.allowedInRaid, meantMonster entry, 1⟩
  | .killedPlayer env => some ⟨env.allowedInRaid, meantPlayer, 1⟩
  | .satisfy _ objectId amount type => some ⟨fun _ => true, meantObject objectId type, amount.toNat⟩
  | _ => none

def accepted (log : QuestLog) : Event → Option Quest
  | .accept env questId =>
    (t.getQuestTemplate questId).filter fun q => log.canTakeQuest t env q && log.canAddQuest env q
  | .confirmAccept env questId =>
    (t.getQuestTemplate questId).filter fun q =>
      q.hasFlag questFlagsPartyAccept && log.canAddQuest env q
  | _ => none

def earnedAfter (p : Progress) (e : Event) : UInt32 → UInt32 → Nat :=
  match e.credit? with
  | some c => fun questId objectiveId =>
    p.earned questId objectiveId + given t p.log c questId objectiveId
  | none =>
    match accepted t p.log e with
    | some q => update p.earned q.id fun _ => 0
    | none => p.earned

def step (p : Progress) (e : Event) : Progress := ⟨perform t p.log e, earnedAfter t p e⟩

/-- The counters show what was earned, and the statuses what is satisfied. -/
structure Exact (p : Progress) : Prop where
  counted : ∀ q d, Stands t p.log q d → d.status = .incomplete → ∀ o ∈ q.objectives,
    (p.log.getQuestObjectiveCounter o.id).toNat = min o.amount.toNat (p.earned q.id o.id)
  pending : ∀ q d, Stands t p.log q d → d.status = .incomplete → ¬ Satisfied p.earned q d
  complete : ∀ q d, Stands t p.log q d → d.status = .complete → Satisfied p.earned q d

/-- Counters change where credit is given, and quests are done with where they are
satisfied; a tracking quest is rewarded with that. -/
structure Proper (p : Progress) (e : Event) : Prop where
  onlyCredited : ∀ key, (step t p e).log.getQuestObjectiveCounter key ≠
      p.log.getQuestObjectiveCounter key → ∃ c, e.credit? = some c ∧
    ∃ q, t.getQuestTemplate q.id = some q ∧ ∃ o ∈ q.objectives, o.id = key ∧
      0 < given t p.log c q.id o.id
  onlySatisfied : ∀ q d, Stands t p.log q d → d.status = .incomplete → e.credit? ≠ none →
    Stands t (step t p e).log q d ∨ Satisfied (step t p e).earned q d

/-- The counters of a quest about to be taken are its own, and at zero. -/
structure Fresh (log : QuestLog) (q : Quest) : Prop where
  zero : ∀ o ∈ q.objectives, log.getQuestObjectiveCounter o.id = 0
  ownIds : ∀ o ∈ q.objectives, ∀ o' ∈ q.objectives, o.id = o'.id → o = o'
  apart : ∀ q', t.getQuestTemplate q'.id = some q' → log.InLog q'.id → q'.id ≠ q.id →
    ∀ o ∈ q.objectives, ∀ o' ∈ q'.objectives, o.id ≠ o'.id

def Asks (env : QuestContext) (q : Quest) : Prop :=
  q.hasSpecialFlag questSpecialFlagsExplorationOrEvent ∨
    (q.hasSpecialFlag questSpecialFlagsTimed ∧ limitTimeFor env q * 1000 = 0) ∨
      ∃ o ∈ q.objectives, o.amount ≠ 0

/-- Of the objectives that a credit is meant for, all but the first are full. -/
def OnlyFirst (log : QuestLog) (c : Credit) (q : Quest) : Prop :=
  ∀ o ∈ q.objectives, c.meant o → q.objectives.find? c.meant = some o ∨ c.amount = 0 ∨
    o.amount ≤ log.getQuestObjectiveCounter o.id

/-- The first objective that a credit is meant for counts it, from the value that its
counter has. -/
def Event.Counts (log : QuestLog) (o : QuestObjective) : Event → Prop
  | .killedPlayer _ => o.objectId = o.id ∨ o.amount ≤ log.getQuestObjectiveCounter o.id
  | .satisfy _ _ amount _ => log.getQuestObjectiveCounter o.id = 0 ∨ amount = o.amount ∧
      2 ^ 32 ≤ (log.getQuestObjectiveCounter o.id).toNat + amount.toNat
  | _ => True

/-- A quest is taken with fresh counters, and confirmed only by who could accept it and has
something to do; a credit meets quests that count it. -/
def Sound (p : Progress) (e : Event) : Prop :=
  (∀ q, accepted t p.log e = some q → Fresh t p.log q) ∧
  (∀ env questId q, e = .confirmAccept env questId → accepted t p.log e = some q →
    ¬ p.log.InLog q.id ∧ p.log.satisfyQuestStatus t q ∧ Asks env q) ∧
  ∀ c, e.credit? = some c → ∀ q d, Stands t p.log q d → d.status = .incomplete → c.may q →
    OnlyFirst p.log c q ∧ ∀ o, q.objectives.find? c.meant = some o → e.Counts p.log o

/-- A player without quests, whatever is left of earlier ones. -/
structure Idle (log : QuestLog) : Prop where
  slots : ∀ i, (log.slots i).questId = 0
  status : ∀ id, log.questStatus id = none

variable {t} {env : QuestContext} {log : QuestLog} {q : Quest} {i : Fin maxQuestLogSize}

theorem adjustQuestReqItemCount_eq (log : QuestLog)
    (credited : ∀ o ∈ q.objectives, o.type.IsCredited) :
    log.adjustQuestReqItemCount env q = log := by
  have loop : ∀ (objectives : List QuestObjective) (now : QuestLog),
      (∀ o ∈ objectives, o.type.IsCredited) →
      objectives.foldl (fun log o => if o.type = .item then
        log.setCounter o.id (min (env.itemCount o.objectId) o.amount) else log) now = now := by
    intro objectives
    induction objectives with
    | nil => exact fun _ _ => rfl
    | cons o rest ih =>
      intro now all
      have notItem : o.type ≠ .item := by
        rcases all o (mem_cons_self ..) with type | type | type <;> rw [type] <;> decide
      rw [foldl_cons, if_neg notItem]
      exact ih now fun o' member => all o' (mem_cons_of_mem _ member)
  exact loop q.objectives log credited

/-- What a timed quest has left, in milliseconds. -/
def timerFor (env : QuestContext) (q : Quest) : UInt32 :=
  if q.hasSpecialFlag questSpecialFlagsTimed then limitTimeFor env q * 1000 else 0

theorem logQuest_spec (env : QuestContext) (log : QuestLog) (i : Fin maxQuestLogSize)
    (credited : ∀ o ∈ q.objectives, o.type.IsCredited) :
    (∃ timer, (log.logQuest env q i).slots = update log.slots i ⟨q.id, false, false, timer⟩) ∧
      (log.logQuest env q i).questStatus = update log.questStatus q.id
        (some { log.statusData q.id with timer := timerFor env q }) ∧
      (log.logQuest env q i).rewardedQuests = log.rewardedQuests ∧
      (log.logQuest env q i).objectiveStatus = log.objectiveStatus := by
  unfold logQuest timerFor
  rw [adjustQuestReqItemCount_eq log credited]
  split
  · exact ⟨⟨_, rfl⟩, rfl, rfl, rfl⟩
  · exact ⟨⟨_, rfl⟩, rfl, rfl, rfl⟩

theorem taken_spec (env : QuestContext) (log : QuestLog) (i : Fin maxQuestLogSize)
    (credited : ∀ o ∈ q.objectives, o.type.IsCredited) :
    Touches log ((log.enterQuest q).logQuest env q i) i q ∧
      (((log.enterQuest q).logQuest env q i).slots i).questId = q.id ∧
      ((log.enterQuest q).logQuest env q i).questStatus q.id =
        some ⟨.incomplete, timerFor env q, false⟩ ∧
      ((log.enterQuest q).logQuest env q i).rewardedQuests = log.rewardedQuests ∧
      ∀ key, ((log.enterQuest q).logQuest env q i).getQuestObjectiveCounter key =
        log.getQuestObjectiveCounter key := by
  obtain ⟨slots, rewarded, status, counters⟩ := enterQuest_spec log q
  obtain ⟨⟨timer, slotsLater⟩, statusLater, rewardedLater, countersLater⟩ :=
    logQuest_spec env (log.enterQuest q) i credited
  have countersSame : ∀ key, ((log.enterQuest q).logQuest env q i).getQuestObjectiveCounter key =
      log.getQuestObjectiveCounter key := by
    intro key
    rw [← counters key, getQuestObjectiveCounter, countersLater]
    rfl
  have entered : (log.enterQuest q).statusData q.id = { log.statusData q.id with
        status := .incomplete
        explored := false } := by
    refine statusData_of_some ?_
    rw [status, update_self]
  refine ⟨⟨fun j other => ?_, fun id other => ?_, fun id _ => ?_, fun key _ => countersSame key⟩,
    ?_, ?_, rewardedLater.trans rewarded, countersSame⟩
  · rw [slotsLater, update_of_ne other, slots]
  · rw [statusLater, update_of_ne other, status, update_of_ne other]
  · rw [rewardedLater, rewarded]
  · rw [slotsLater, update_self]
  · rw [statusLater, update_self, entered]

/-! ## One event -/

variable {p : Progress}

theorem satisfyQuestStatus_iff {earned : UInt32 → UInt32 → Nat} (counted : Counted t log earned)
    (template : t.getQuestTemplate q.id = some q) (free : log.satisfyQuestStatus t q) :
    ¬ log.InLog q.id ∧ (q.isRepeatable ∨ q.id ∉ log.rewardedQuests) := by
  have status : log.getQuestStatus t q.id = .none := by simpa [satisfyQuestStatus] using free
  rw [getQuestStatus, if_neg (t.ne_zero template)] at status
  cases entry : log.questStatus q.id with
  | some d =>
    rw [entry] at status
    exact absurd status (counted.noEmpty q.id d entry)
  | none =>
    refine ⟨?_, ?_⟩
    · rintro ⟨i, held⟩
      obtain ⟨q', d, held', stands, -⟩ := counted.known i (held ▸ t.ne_zero template)
      have found := stands.entry
      rw [← held'.symm.trans held |>.symm] at found
      rw [entry] at found
      cases found
    · rw [entry, template] at status
      by_contra both
      rw [not_or, not_not] at both
      simp [both.1, both.2] at status

theorem counted_taken (env : QuestContext) {earned : UInt32 → UInt32 → Nat} (counted : Counted t log earned)
    (template : t.getQuestTemplate q.id = some q)
    (credited : ∀ o ∈ q.objectives, o.type.IsCredited) (fresh : Fresh t log q)
    (out : ¬ log.InLog q.id) (free : q.isRepeatable ∨ q.id ∉ log.rewardedQuests)
    (room : log.satisfyQuestLog) :
    Counted t ((log.addQuest env q).completeIfCan t env q.id) (update earned q.id fun _ => 0) ∧
      (Asks env q → Counted t (log.addQuest env q) (update earned q.id fun _ => 0)) ∧
      ∀ key, (log.addQuest env q).getQuestObjectiveCounter key =
        log.getQuestObjectiveCounter key := by
  obtain ⟨i, found⟩ := Option.isSome_iff_exists.mp room
  have added : log.addQuest env q = (log.enterQuest q).logQuest env q i := by
    simp only [addQuest, found]
  obtain ⟨touches, held, entry, rewarded, counters⟩ := taken_spec env log i credited
  rw [← added] at touches held entry rewarded counters
  have only : ∀ j, (log.slots j).questId = q.id → j = i := fun j held => absurd ⟨j, held⟩ out
  have onlyLater : ∀ j, ((log.addQuest env q).slots j).questId = q.id → j = i := by
    intro j again
    by_contra other
    rw [touches.slots j other] at again
    exact out ⟨j, again⟩
  have freeLater : q.isRepeatable ∨ q.id ∉ (log.addQuest env q).rewardedQuests := by
    rw [rewarded]
    exact free
  have counts : ∀ o ∈ q.objectives, ((log.addQuest env q).getQuestObjectiveCounter o.id).toNat =
      min o.amount.toNat (update earned q.id (fun _ => 0) q.id o.id) := by
    intro o member
    rw [counters, fresh.zero o member, update_self, Nat.min_zero]
    rfl
  have others : ∀ id, id ≠ q.id → update earned q.id (fun _ => 0) id = earned id :=
    fun id other => update_of_ne other _ _
  refine ⟨?_, fun asks => ?_, counters⟩
  · obtain ⟨touchesLater, result⟩ := completeIfCan_spec env template entry rfl held onlyLater
      freeLater credited counts
    refine counted.of_touches (touches.trans touchesLater) template only
      ((result.imp (fun gone => gone.2.1) fun stays => Or.inl stays.1)) ?_ ?_ others fresh.ownIds
      fresh.apart
    · intro d found
      rcases result with ⟨-, -, gone⟩ | ⟨-, d', entry', ok, -⟩
      · rw [gone] at found
        cases found
      · rw [entry'] at found
        cases found
        rcases ok.status with status | status <;> rw [status] <;> decide
    · intro stays
      rcases result with ⟨-, gone, -⟩ | ⟨-, d', entry', ok, -⟩
      · rw [gone] at stays
        exact absurd stays.symm (t.ne_zero template)
      · exact ⟨d', entry', ok⟩
  · refine counted.of_touches touches template only (Or.inr (Or.inl held)) ?_ ?_ others
      fresh.ownIds fresh.apart
    · intro d found
      rw [entry] at found
      cases found
      exact nofun
    · refine fun _ => ⟨_, entry, Or.inl rfl, freeLater, fun _ => counts, ?_⟩
      refine iff_of_false nofun fun satisfied => ?_
      rcases asks with explores | ⟨timed, expired⟩ | ⟨o, member, wants⟩
      · cases satisfied.explored explores
      · refine satisfied.inTime timed ?_
        rw [timerFor, if_pos timed]
        exact expired
      · have enough := satisfied.objectives o member
        rw [update_self] at enough
        exact wants (UInt32.toNat_inj.mp (Nat.le_zero.mp enough))

theorem counted_abandon {earned : UInt32 → UInt32 → Nat} (counted : Counted t log earned)
    (env : QuestContext) (i : Fin maxQuestLogSize) :
    Counted t (log.abandonQuest t env i) earned ∧
      ∀ key, (log.abandonQuest t env i).getQuestObjectiveCounter key =
        log.getQuestObjectiveCounter key := by
  have cleared : ∀ (now : QuestLog) q d, now.objectiveStatus = log.objectiveStatus →
      now.slots = log.slots → now.rewardedQuests = log.rewardedQuests →
      now.questStatus = update log.questStatus q.id none →
      (log.slots i).questId = q.id → Stands t log q d →
      Counted t (now.setQuestSlot i 0 0) earned := by
    intro now q d counters slots rewarded status held stands
    have touches : Touches log (now.setQuestSlot i 0 0) i q := by
      refine ⟨fun j other => ?_, fun id other => ?_, fun id _ => ?_, fun key _ => ?_⟩
      · exact (changeSlot_other _ other).trans (congrFun slots j)
      · exact (congrFun status id).trans (update_of_ne other _ _)
      · exact iff_of_eq (congrArg (id ∈ ·) rewarded)
      · exact congrArg (fun m : UInt32 → Option UInt32 => (m key).getD 0) counters
    have empty : ((now.setQuestSlot i 0 0).slots i).questId = 0 := by simp [setQuestSlot]
    refine counted.of_touches_standing stands held touches (Or.inl empty) ?_ ?_ fun _ _ => rfl
    · intro d' found
      have gone : (now.setQuestSlot i 0 0).questStatus q.id = none :=
        (congrFun status q.id).trans (update_self ..)
      rw [gone] at found
      cases found
    · intro stays
      rw [empty] at stays
      exact absurd stays.symm (t.ne_zero stands.template)
  rcases counted.slot_cases i with missing | ⟨q, d, held, stands, -⟩
  · unfold abandonQuest
    dsimp only
    split
    · rename_i unused
      refine ⟨?_, fun _ => rfl⟩
      refine counted.of_outside (fun j used => used) (fun j => ?_) (fun _ _ => rfl)
        (fun _ _ => Iff.rfl) (fun _ => rfl) (counted.noEmpty 0)
      by_cases here : j = i
      · subst here
        simp [setQuestSlot, unused]
      · rw [setQuestSlot, changeSlot_other _ here]
    · rename_i used
      obtain ⟨q, d, held, stands, -⟩ := counted.known i used
      rw [held, stands.template] at missing
      cases missing
  · unfold abandonQuest
    rw [held, if_neg (t.ne_zero stands.template), stands.template]
    dsimp only
    split
    · exact ⟨counted, fun _ => rfl⟩
    · split
      · exact ⟨cleared _ q d rfl rfl rfl rfl held stands, fun _ => rfl⟩
      · exact ⟨cleared _ q d rfl rfl rfl rfl held stands, fun _ => rfl⟩

theorem counted_reward {earned : UInt32 → UInt32 → Nat} (counted : Counted t log earned)
    (template : t.getQuestTemplate q.id = some q) :
    Counted t (log.rewardQuest t q) earned ∧
      ∀ key, (log.rewardQuest t q).getQuestObjectiveCounter key =
        log.getQuestObjectiveCounter key := by
  have counters : ∀ key, (log.rewardQuest t q).getQuestObjectiveCounter key =
      log.getQuestObjectiveCounter key := by
    intro key
    exact congrArg (fun m : UInt32 → Option UInt32 => (m key).getD 0)
      (finishReward_objectiveStatus (log.removeTimedQuest q.id) q)
  have noEntry : (log.rewardQuest t q).questStatus q.id = none := update_self ..
  refine ⟨?_, counters⟩
  by_cases inLog : log.InLog q.id
  · obtain ⟨i, held⟩ := inLog
    obtain ⟨q', d, held', stands, -⟩ := counted.known i (held ▸ t.ne_zero template)
    have same : q = q' := by
      rw [held'.symm.trans held |>.symm] at template
      exact stands.template_unique template
    subst same
    have only := counted.only template held
    have gone := rewardQuest_gone (t := t) held only
    refine counted.of_touches_standing stands held (rewardQuest_touches only) (Or.inl gone.1) ?_ ?_
      fun _ _ => rfl
    · intro d' found
      rw [noEntry] at found
      cases found
    · intro stays
      rw [gone.1] at stays
      exact absurd stays.symm (t.ne_zero template)
  · have out : ∀ j, (log.slots j).questId ≠ q.id := fun j held => inLog ⟨j, held⟩
    have missing : (log.removeTimedQuest q.id).findQuestSlot q.id = none := by
      rw [← Option.not_isSome_iff_eq_none, findQuestSlot_isSome]
      exact fun ⟨j, held⟩ => out j held
    refine counted.of_outside (fun j _ => out j) (fun j => ?_) (fun id other => ?_)
      (fun id other => ?_) counters fun d found => ?_
    · show ((((log.removeTimedQuest q.id).changeSlotOf q.id _).markRewarded t q).slots j).questId = _
      rw [(markRewarded_keeps t _ q).1, changeSlotOf_of_none missing]
      rfl
    · exact (rewardQuest_touches (t := t) (i := ⟨0, by decide⟩) fun j held =>
        absurd held (out j)).status id other
    · exact (rewardQuest_touches (t := t) (i := ⟨0, by decide⟩) fun j held =>
        absurd held (out j)).rewarded id other
    · rw [noEntry] at found
      cases found

variable {e : Event}

theorem earnedAfter_of_none (quiet : e.credit? = none) (untaken : accepted t p.log e = none) :
    earnedAfter t p e = p.earned := by
  simp [earnedAfter, quiet, untaken]

theorem earnedAfter_of_accepted (quiet : e.credit? = none) (taken : accepted t p.log e = some q) :
    earnedAfter t p e = update p.earned q.id fun _ => 0 := by
  simp [earnedAfter, quiet, taken]

theorem proper_of_quiet (quiet : e.credit? = none)
    (counters : ∀ key, (perform t p.log e).getQuestObjectiveCounter key =
      p.log.getQuestObjectiveCounter key) : Proper t p e where
  onlyCredited := fun key changed => absurd (counters key) changed
  onlySatisfied := fun _ _ _ _ credits => absurd quiet credits

theorem counted_same (counted : Counted t p.log p.earned) (quiet : e.credit? = none)
    (same : perform t p.log e = p.log) (untaken : accepted t p.log e = none) :
    Counted t (step t p e).log (step t p e).earned ∧ Proper t p e := by
  refine ⟨?_, proper_of_quiet quiet fun key => by rw [same]⟩
  show Counted t (perform t p.log e) (earnedAfter t p e)
  rw [same, earnedAfter_of_none quiet untaken]
  exact counted

theorem canAddQuest_room (can : log.canAddQuest env q) : log.satisfyQuestLog := by
  rw [canAddQuest, Bool.and_eq_true] at can
  exact can.1

theorem canTakeQuest_status (can : log.canTakeQuest t env q) : log.satisfyQuestStatus t q := by
  simp only [canTakeQuest, Bool.and_eq_true] at can
  exact can.1.1.1.1.1.2

def AsksForCredit (t : QuestTemplates) : Prop :=
  ∀ id q, t.getQuestTemplate id = some q → ∀ o ∈ q.objectives, o.type.IsCredited

theorem counted_accept (counted : Counted t p.log p.earned) (credited : AsksForCredit t)
    {questId : UInt32} (sound : Sound t p (.accept env questId)) :
    Counted t (step t p (.accept env questId)).log (step t p (.accept env questId)).earned ∧
      Proper t p (.accept env questId) := by
  cases found : t.getQuestTemplate questId with
  | none =>
    have refused : accepted t p.log (.accept env questId) = none := by simp [accepted, found]
    have same : perform t p.log (.accept env questId) = p.log := by
      simp [perform, acceptQuest, found]
    exact counted_same counted rfl same refused
  | some q =>
    have ids := t.keyed found
    subst ids
    by_cases can : p.log.canTakeQuest t env q ∧ p.log.canAddQuest env q
    · have taken : accepted t p.log (.accept env q.id) = some q := by
        simp [accepted, found, can.1, can.2, Option.filter]
      obtain ⟨out, free⟩ := satisfyQuestStatus_iff counted found (canTakeQuest_status can.1)
      obtain ⟨countedLater, -, counters⟩ := counted_taken env counted found (credited _ q found)
        (sound.1 q taken) out free (canAddQuest_room can.2)
      have done : perform t p.log (.accept env q.id) =
          (p.log.addQuest env q).completeIfCan t env q.id := by
        simp [perform, acceptQuest, found, can.1, can.2]
      refine ⟨?_, proper_of_quiet rfl fun key => ?_⟩
      · rw [← done, ← earnedAfter_of_accepted rfl taken] at countedLater
        exact countedLater
      · rw [done, completeIfCan_counters, counters]
    · have refused : accepted t p.log (.accept env q.id) = none := by
        rw [accepted, found, Option.filter_some, if_neg (by simpa using can)]
      have same : perform t p.log (.accept env q.id) = p.log := by
        simp only [perform, acceptQuest, found]
        split
        · rfl
        rename_i takes
        split
        · rfl
        · rename_i adds
          exact absurd ⟨by simpa using takes, by simpa using adds⟩ can
      exact counted_same counted rfl same refused

theorem counted_confirm (counted : Counted t p.log p.earned) (credited : AsksForCredit t)
    {questId : UInt32} (sound : Sound t p (.confirmAccept env questId)) :
    Counted t (step t p (.confirmAccept env questId)).log
        (step t p (.confirmAccept env questId)).earned ∧
      Proper t p (.confirmAccept env questId) := by
  cases found : t.getQuestTemplate questId with
  | none =>
    have refused : accepted t p.log (.confirmAccept env questId) = none := by
      simp [accepted, found]
    have same : perform t p.log (.confirmAccept env questId) = p.log := by
      simp [perform, confirmAccept, found]
    exact counted_same counted rfl same refused
  | some q =>
    have ids := t.keyed found
    subst ids
    by_cases can : q.hasFlag questFlagsPartyAccept ∧ p.log.canAddQuest env q
    · have taken : accepted t p.log (.confirmAccept env q.id) = some q := by
        simp [accepted, found, can.1, can.2, Option.filter]
      obtain ⟨out, status, asks⟩ := sound.2.1 env q.id q rfl taken
      obtain ⟨-, free⟩ := satisfyQuestStatus_iff counted found status
      obtain ⟨-, countedLater, counters⟩ := counted_taken env counted found (credited _ q found)
        (sound.1 q taken) out free (canAddQuest_room can.2)
      have done : perform t p.log (.confirmAccept env q.id) = p.log.addQuest env q := by
        simp [perform, confirmAccept, found, can.1, can.2]
      refine ⟨?_, proper_of_quiet rfl fun key => ?_⟩
      · have countedNow := countedLater asks
        rw [← done, ← earnedAfter_of_accepted rfl taken] at countedNow
        exact countedNow
      · rw [done, counters]
    · have refused : accepted t p.log (.confirmAccept env q.id) = none := by
        rw [accepted, found, Option.filter_some, if_neg (by simpa using can)]
      have same : perform t p.log (.confirmAccept env q.id) = p.log := by
        simp only [perform, confirmAccept, found]
        split
        · rfl
        rename_i flagged
        split
        · rename_i adds
          exact absurd ⟨by simpa using flagged, adds⟩ can
        · rfl
      exact counted_same counted rfl same refused

theorem counted_call {c : Credit} (credit : e.credit? = some c)
    (call : CallDone t p.log (perform t p.log e) c p.earned) :
    Counted t (step t p e).log (step t p e).earned ∧ Proper t p e := by
  have earned : earnedAfter t p e = fun id key => p.earned id key + given t p.log c id key := by
    simp only [earnedAfter, credit]
  refine ⟨?_, fun key changed => ⟨c, credit, call.onlyGiven key changed⟩, ?_⟩
  · show Counted t (perform t p.log e) (earnedAfter t p e)
    rw [earned]
    exact call.counted
  · intro q d stands incomplete _
    show Stands t (perform t p.log e) q d ∨ Satisfied (earnedAfter t p e) q d
    rw [earned]
    exact call.onlySatisfied q d stands incomplete

theorem takes_of_sound {c : Credit} {advance : QuestLog → QuestObjective → QuestLog}
    (counted : Counted t p.log p.earned) (credit : e.credit? = some c) (sound : Sound t p e)
    (exact' : ∀ (now : QuestLog) (o : QuestObjective), now.getQuestObjectiveCounter o.id ≤ o.amount →
      e.Counts now o → Advanced now (advance now o) o c.amount)
    (reads : ∀ (now : QuestLog) (o : QuestObjective),
      now.getQuestObjectiveCounter o.id = p.log.getQuestObjectiveCounter o.id →
        e.Counts p.log o → e.Counts now o)
    {d : QuestStatusData} (stands : Stands t p.log q d) (incomplete : d.status = .incomplete)
    (may : c.may q) (now : QuestLog) (same : ∀ o ∈ q.objectives,
      now.getQuestObjectiveCounter o.id = p.log.getQuestObjectiveCounter o.id) :
    Takes now c advance q := by
  obtain ⟨onlyFirst, counts⟩ := sound.2.2 c credit q d stands incomplete may
  refine ⟨fun o member meant => ?_, fun o found => ?_⟩
  · rw [same o member]
    exact onlyFirst o member meant
  have member := mem_of_find?_eq_some found
  have here := same o member
  refine exact' now o ?_ (reads now o here (counts o found))
  rw [here]
  exact counted.within stands incomplete member

theorem counted_step (counted : Counted t p.log p.earned) (credited : AsksForCredit t)
    (sound : Sound t p e) :
    Counted t (step t p e).log (step t p e).earned ∧ Proper t p e := by
  cases e with
  | accept env questId => exact counted_accept counted credited sound
  | confirmAccept env questId => exact counted_confirm counted credited sound
  | abandon env i =>
    obtain ⟨countedLater, counters⟩ := counted_abandon counted env i
    exact ⟨countedLater, proper_of_quiet rfl counters⟩
  | reward questId =>
    cases found : t.getQuestTemplate questId with
    | none =>
      have same : perform t p.log (.reward questId) = p.log := by simp [perform, found]
      exact counted_same counted rfl same rfl
    | some q =>
      have ids := t.keyed found
      subst ids
      have done : perform t p.log (.reward q.id) = p.log.rewardQuest t q := by
        simp [perform, found]
      obtain ⟨countedLater, counters⟩ := counted_reward counted found
      rw [← done] at countedLater counters
      exact ⟨countedLater, proper_of_quiet rfl counters⟩
  | killedMonster env entry =>
    have ofType : ∀ o, meantMonster entry o → o.type = .npc := by
      intro o meant
      simp only [meantMonster, Bool.and_eq_true, decide_eq_true_eq] at meant
      exact meant.1
    refine counted_call rfl (run_counted
      (fun now earned i countedNow => killedTurn_eq countedNow ofType advanceMonster 1) counted credited
      fun q d stands incomplete may now same => takes_of_sound counted rfl sound ?_ ?_ stands
        incomplete may now same)
    · exact fun now o within _ => advanceMonster_advanced within
    · exact fun _ _ _ _ => trivial
  | killedPlayer env =>
    have ofType : ∀ o, meantPlayer o → o.type = .player := by
      intro o meant
      simpa [meantPlayer] using meant
    refine counted_call rfl (run_counted
      (fun now earned i countedNow => killedTurn_eq countedNow ofType advancePlayer 1) counted credited
      fun q d stands incomplete may now same => takes_of_sound counted rfl sound ?_ ?_ stands
        incomplete may now same)
    · exact fun now o within own => advancePlayer_advanced within own
    · intro now o here own
      show _ ∨ _ ≤ now.getQuestObjectiveCounter o.id
      rw [here]
      exact own
  | satisfy env objectId amount type =>
    refine counted_call rfl (run_counted
      (fun now earned i countedNow => satisfyTurn_eq countedNow) counted credited
      fun q d stands incomplete may now same => takes_of_sound counted rfl sound ?_ ?_ stands
        incomplete may now same)
    · exact fun now o within fits => advanceSatisfied_advanced within fits
    · intro now o here fits
      show now.getQuestObjectiveCounter o.id = 0 ∨ _
      rw [here]
      exact fits

theorem exact_of_counted {log : QuestLog} {earned : UInt32 → UInt32 → Nat}
    (counted : Counted t log earned) : Exact t ⟨log, earned⟩ where
  counted := fun _ _ stands => (counted.ok stands).counted
  pending := fun q d stands incomplete satisfied => by
    have complete := (counted.ok stands).finished.mpr satisfied
    rw [incomplete] at complete
    cases complete
  complete := fun _ _ stands => (counted.ok stands).finished.mp

theorem counted_of_idle {earned : UInt32 → UInt32 → Nat} (idle : Idle log) :
    Counted t log earned where
  once := fun i _ used => absurd (idle.slots i) used
  known := fun i used => absurd (idle.slots i) used
  noEmpty := fun id d found => by
    rw [idle.status] at found
    cases found
  apart := fun q _ template _ inLog => by
    obtain ⟨i, held⟩ := inLog
    exact absurd (held.symm.trans (idle.slots i)) (t.ne_zero template)

/-- **Progress is what was earned**, and nothing else changes a counter, as long as
quests are taken with fresh counters and credit meets quests that count it. -/
theorem exact_of_sound (t : QuestTemplates) (credited : AsksForCredit t) (p : Progress)
    (idle : Idle p.log) (events : List Event) (sound : EachStep (step t) (Sound t) p events) :
    Throughout (step t) (Exact t) p events ∧ EachStep (step t) (Proper t) p events := by
  have start : Counted t p.log p.earned := counted_of_idle idle
  have keep : ∀ s e, Counted t s.log s.earned → Sound t s e →
      Counted t (step t s e).log (step t s e).earned :=
    fun s e counted sound => (counted_step counted credited sound).1
  constructor
  · have held : Throughout (step t) (fun s => Counted t s.log s.earned) p events :=
      Throughout.of_eachStep start keep sound
    exact Throughout.mono (fun s counted => exact_of_counted counted) held
  · exact EachStep.of_eachStep start keep
      (fun s e counted sound => (counted_step counted credited sound).2) sound

def permissive : QuestContext where
  eligible := fun _ _ => true
  visible := fun _ _ => true
  rewardable := fun _ _ => true
  storable := fun _ => true
  provided := fun _ => true
  itemCount := fun _ => 0
  returnable := fun _ => true
  allowedInRaid := fun _ => true
  sharedTime := none
  now := 0

/-- Two creatures are to be killed, and two players; the quest can be repeated. -/
def hunt : Quest where
  id := 1
  method := 2
  zoneOrSort := 0
  limitTime := 0
  flags := 0
  specialFlags := questSpecialFlagsRepeatable
  objectives := [⟨7, .npc, 50, 2⟩, ⟨8, .player, 0, 2⟩]
  rewardChoiceItemId := []

def onlyHunt : QuestTemplates where
  getQuestTemplate := fun id => if id = 1 then some hunt else none
  keyed := by
    intro id q found
    split at found
    · rename_i is
      cases found
      exact is.symm
    · cases found
  noneZero := rfl
  ignoreAutoAccept := false
  ignoreAutoComplete := false
  getEventIdForQuest := fun _ => 0

theorem onlyHunt_eq {id : UInt32} {q : Quest} (found : onlyHunt.getQuestTemplate id = some q) :
    q = hunt := by
  simp only [onlyHunt] at found
  split at found
  · exact (Option.some.inj found).symm
  · cases found

def newcomer : Progress := ⟨QuestLog.empty, fun _ _ => 0⟩

theorem idle_newcomer : Idle newcomer.log := ⟨fun _ => rfl, fun _ => rfl⟩

theorem asksForCredit_onlyHunt : AsksForCredit onlyHunt := by
  intro id q found o member
  rw [onlyHunt_eq found] at member
  simp only [hunt, mem_cons, not_mem_nil, or_false] at member
  rcases member with rfl | rfl
  · exact Or.inl rfl
  · exact Or.inr (Or.inr rfl)

/-- The hunter takes the quest and kills a creature. -/
theorem exact_of_first_kill : Throughout (step onlyHunt) (Exact onlyHunt) newcomer
        [.accept permissive 1, .killedMonster permissive 50] ∧
      EachStep (step onlyHunt) (Proper onlyHunt) newcomer
        [.accept permissive 1, .killedMonster permissive 50] := by
  refine exact_of_sound onlyHunt asksForCredit_onlyHunt newcomer idle_newcomer _ ⟨?_, ?_, trivial⟩
  · refine ⟨fun q taken => ?_, fun _ _ _ confirms => ?_, fun c credit => ?_⟩
    · have same : q = hunt := by
        simp only [accepted] at taken
        exact onlyHunt_eq (Option.filter_eq_some_iff.mp taken).1
      subst same
      refine ⟨by decide, by decide, fun q' template' _ other => ?_⟩
      rw [onlyHunt_eq template'] at other
      exact absurd rfl other
    · cases confirms
    · cases credit
  · refine ⟨fun q taken => ?_, fun _ _ _ confirms => ?_, fun c credit q d stands _ _ => ?_⟩
    · cases taken
    · cases confirms
    · cases credit
      have same := onlyHunt_eq stands.template
      subst same
      refine ⟨fun o member meant => ?_, fun o _ => trivial⟩
      simp only [hunt, mem_cons, not_mem_nil, or_false] at member
      rcases member with rfl | rfl
      · exact Or.inl rfl
      · cases meant

def firstSlot : Fin maxQuestLogSize := ⟨0, by decide⟩

theorem not_exact_of_counter {p : Progress} (held : (p.log.slots firstSlot).questId = 1)
    (entry : p.log.questStatus 1 = some ⟨.incomplete, 0, false⟩) (o : QuestObjective)
    (member : o ∈ hunt.objectives) (differs : (p.log.getQuestObjectiveCounter o.id).toNat ≠
      min o.amount.toNat (p.earned 1 o.id)) : ¬ Exact onlyHunt p := by
  intro exact'
  exact differs (exact'.counted hunt _ ⟨rfl, ⟨firstSlot, held⟩, entry⟩ rfl o member)

/-- **Progress is not what was earned** when an objective is satisfied one by one,
when the victim of a hunt is a player, or when the hunt is taken a second time. -/
theorem not_exact_of_hunting : (¬ Throughout (step onlyHunt) (Exact onlyHunt) newcomer
        [.accept permissive 1, .satisfy permissive 50 1 .npc, .satisfy permissive 50 1 .npc]) ∧
      (¬ Throughout (step onlyHunt) (Exact onlyHunt) newcomer
        [.accept permissive 1, .killedPlayer permissive]) ∧
      ¬ Throughout (step onlyHunt) (Exact onlyHunt) newcomer
        [.accept permissive 1, .killedMonster permissive 50, .abandon permissive firstSlot,
          .accept permissive 1] := by
  refine ⟨fun holds => ?_, fun holds => ?_, fun holds => ?_⟩
  · refine not_exact_of_counter ?_ ?_ ⟨7, .npc, 50, 2⟩ (by decide) ?_ (holds.last)
    · decide +kernel
    · decide +kernel
    · decide +kernel
  · refine not_exact_of_counter ?_ ?_ ⟨8, .player, 0, 2⟩ (by decide) ?_ (holds.last)
    · decide +kernel
    · decide +kernel
    · decide +kernel
  · refine not_exact_of_counter ?_ ?_ ⟨7, .npc, 50, 2⟩ (by decide) ?_ (holds.last)
    · decide +kernel
    · decide +kernel
    · decide +kernel

end Progress

end Sky548
