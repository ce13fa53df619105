import Sky548.Quests.Calls
import Sky548.Quests.Counting

/-!
# Whether the stores of the quest log agree

A quest is in the log in three places: a slot, the state bits of the slot, and `m_QuestStatus`.
`Consistent` says that they agree, and `Proper` that who enters the log could take the quest when it
was asked for.

The functions that change a status do not look at the one before. A quest that is completed, failed
or made incomplete without being in the log gets an entry without a slot; one that fails when
complete, or is completed or made incomplete when failed, keeps the old bit, and that happens when
items of a failed quest are taken away. And `HandleQuestConfirmAccept` asks for room in the log, but
not for `CanTakeQuest`.
-/

namespace Sky548

open List
open Function (update_of_ne update_self)

def QuestStatus.IsOpen (status : QuestStatus) : Prop :=
  status = .incomplete ∨ status = .complete ∨ status = .failed

namespace QuestLog

/-- The state bits of a slot show a status. -/
structure Shows (slot : QuestSlot) (status : QuestStatus) : Prop where
  complete : slot.complete ↔ status = .complete
  fail : slot.fail ↔ status = .failed

def HasOpen (log : QuestLog) (id : UInt32) : Prop :=
  ∃ d, log.questStatus id = some d ∧ d.status.IsOpen

/-- A quest has one slot, as long as its status is open, and the slot shows it. -/
structure Consistent (log : QuestLog) : Prop where
  once : ∀ i j, (log.slots i).questId ≠ 0 → (log.slots j).questId = (log.slots i).questId → j = i
  listed : ∀ id, id ≠ 0 → (log.InLog id ↔ log.HasOpen id)
  shown : ∀ i d, (log.slots i).questId ≠ 0 → log.questStatus (log.slots i).questId = some d →
    Shows (log.slots i) d.status

end QuestLog

namespace QuestPlayer

open Machine QuestLog

/-- The operations, and what comes in between them. -/
inductive Operation
  | accept (env : QuestContext) (questId : UInt32)
  | confirmAccept (env : QuestContext) (questId : UInt32)
  | swap (i j : Fin maxQuestLogSize)
  | abandon (env : QuestContext) (i : Fin maxQuestLogSize)
  | complete (questId : UInt32)
  | incomplete (questId : UInt32)
  | fail (questId : UInt32)
  | reward (questId : UInt32)
  | itemAdded (env : QuestContext) (entry count : UInt32)
  | itemRemoved (entry count : UInt32)
  | moneyChanged (count : UInt32)
  | resume (env : QuestContext)

variable (t : QuestTemplates)

/-- An operation that is taken up when nothing waits. -/
def serve (s : QuestPlayer) : Operation → QuestPlayer
  | .accept env questId => s.acceptQuest t env questId
  | .confirmAccept env questId => s.confirmAccept t env questId
  | .swap i j => s.swapQuest i j
  | .abandon env i => s.abandonQuest t env i
  | .complete questId => s.completeQuest t questId
  | .incomplete questId => { s with log := s.log.incompleteQuest t questId }
  | .fail questId => s.failQuest t questId
  | .reward questId =>
    match t.getQuestTemplate questId with
    | none => s
    | some q => s.rewardQuest q
  | _ => s

def step (s : QuestPlayer) (op : Operation) : QuestPlayer :=
  match op with
  | .itemAdded env entry count => s.itemAdded t env entry count
  | .itemRemoved entry count => s.itemRemoved entry count
  | .moneyChanged count => s.moneyChanged count
  | .resume env => s.resume t env
  | op => if s.isIdle then s.serve t op else s

def UnderReward (s : QuestPlayer) (id : UInt32) : Prop :=
  ∃ q stage, .rewarding q stage ∈ s.calls ∧ q.id = id

def Adds (s : QuestPlayer) (id : UInt32) : Prop :=
  ∃ q i completes couldTake, s.request = .adding q i completes couldTake ∧ q.id = id

/-- Who enters the log is being added, and `CanTakeQuest` held when it was asked for. -/
def Proper (s : QuestPlayer) (op : Operation) : Prop :=
  ∀ id, id ≠ 0 → ¬ s.log.InLog id → (step t s op).log.InLog id →
    ∃ q i completes, s.request = .adding q i completes true ∧ q.id = id

def HasStatus (s : QuestPlayer) (id : UInt32) (status : QuestStatus) : Prop :=
  ∃ d, s.log.questStatus id = some d ∧ d.status = status

/-- The slot that the loop of `ItemRemovedQuestCheck` is at does not hold a failed quest
that lacks the items. -/
def SparesFailed (s : QuestPlayer) : Prop :=
  ∀ entry count i rest later, s.calls = .looping (.itemRemoved entry count) (i :: rest) :: later →
    ∀ q, t.getQuestTemplate (s.log.slots i).questId = some q → s.HasStatus q.id .failed →
      ¬ s.UnderReward q.id → ∀ o, q.objectives.find? (meantItem entry) = some o →
        o.amount ≤ s.log.getQuestObjectiveCounter o.id

/-- Statuses change from what they can change from, and who confirms a quest can take it. A tracking
quest is rewarded with being completed, from any status. -/
def Sound (s : QuestPlayer) : Operation → Prop
  | .confirmAccept env questId => ∀ q, t.getQuestTemplate questId = some q →
      q.hasFlag questFlagsPartyAccept → s.log.canAddQuest env q → s.log.canTakeQuest t env q
  | .complete questId => ∀ q, t.getQuestTemplate questId = some q →
      q.hasFlag questFlagsTracking ∨ s.HasStatus questId .incomplete ∨ s.HasStatus questId .complete
  | .incomplete questId => ∀ q, t.getQuestTemplate questId = some q →
      s.HasStatus questId .incomplete ∨ s.HasStatus questId .complete
  | .fail questId => ∀ q, t.getQuestTemplate questId = some q →
      s.HasStatus questId .incomplete ∨ s.HasStatus questId .failed
  | .resume _ => s.SparesFailed t
  | _ => True

/-- What holds between any two parts of a call. A quest under reward may have lost its
slot or its status, and its slot shows what it showed. -/
structure Inv (s : QuestPlayer) : Prop where
  once : ∀ i j, (s.log.slots i).questId ≠ 0 →
    (s.log.slots j).questId = (s.log.slots i).questId → j = i
  known : ∀ i, (s.log.slots i).questId ≠ 0 → ∃ q, t.getQuestTemplate (s.log.slots i).questId = some q
  entered : ∀ i, (s.log.slots i).questId ≠ 0 → s.log.HasOpen (s.log.slots i).questId
  homed : ∀ id, id ≠ 0 → s.log.HasOpen id → s.log.InLog id ∨ s.Adds id ∨ s.UnderReward id
  shown : ∀ i d, (s.log.slots i).questId ≠ 0 → s.log.questStatus (s.log.slots i).questId = some d →
    ¬ s.UnderReward (s.log.slots i).questId → Shows (s.log.slots i) d.status
  rewards : ∀ q stage, .rewarding q stage ∈ s.calls →
    t.getQuestTemplate q.id = some q ∧ (stage = .paying → ¬ s.log.InLog q.id)
  adds : ∀ q i completes couldTake, s.request = .adding q i completes couldTake →
    t.getQuestTemplate q.id = some q ∧ (s.log.slots i).questId = 0 ∧ ¬ s.log.InLog q.id ∧
      s.HasStatus q.id .incomplete ∧ ¬ s.UnderReward q.id ∧ couldTake = true
  abandons : ∀ id i, s.request = .abandoning id i → id ≠ 0 ∧ (s.log.slots i).questId = id ∧
    ∀ call ∈ s.calls, ∃ entry count rest, call = .looping (.itemRemoved entry count) rest

variable {t} {s after : QuestPlayer}

theorem Inv.consistent (inv : Inv t s) (idle : s.Idle) : s.log.Consistent := by
  obtain ⟨request, calls⟩ := idle
  have notRewarded : ∀ id, ¬ s.UnderReward id := by
    rintro id ⟨q, stage, member, -⟩
    rw [calls] at member
    cases member
  refine ⟨inv.once, fun id used => ⟨?_, fun open' => ?_⟩, fun i d used entry =>
    inv.shown i d used entry (notRewarded _)⟩
  · rintro ⟨i, held⟩
    rw [← held]
    exact inv.entered i (held.symm ▸ used)
  rcases inv.homed id used open' with inLog | ⟨q, i, completes, couldTake, adding, -⟩ | rewarded
  · exact inLog
  · rw [request] at adding
    cases adding
  · exact absurd rewarded (notRewarded id)

def Known (t : QuestTemplates) (log : QuestLog) : Prop :=
  ∀ i, (log.slots i).questId ≠ 0 → ∃ q, t.getQuestTemplate (log.slots i).questId = some q

theorem inv_of_consistent (idle : s.Idle) (consistent : s.log.Consistent)
    (known : Known t s.log) : Inv t s := by
  obtain ⟨request, calls⟩ := idle
  refine ⟨consistent.once, known, fun i used => ?_,
    fun id used open' => Or.inl ((consistent.listed id used).mpr open'),
    fun i d used entry _ => consistent.shown i d used entry, ?_, ?_, ?_⟩
  · exact (consistent.listed _ used).mp ⟨i, rfl⟩
  · intro q stage member
    rw [calls] at member
    cases member
  · intro q i completes couldTake adding
    rw [request] at adding
    cases adding
  · intro id i abandoning
    rw [request] at abandoning
    cases abandoning

/-- A quest that gets a slot is being added. -/
def NoNew (s after : QuestPlayer) : Prop :=
  ∀ id, id ≠ 0 → after.log.InLog id → s.log.InLog id

theorem noNew_of_ids (ids : ∀ j, (after.log.slots j).questId = (s.log.slots j).questId) :
    NoNew s after := by
  rintro id - ⟨j, held⟩
  exact ⟨j, (ids j).symm.trans held⟩

/-- Calls that reward the same quests, as far as one can tell. -/
structure SameRewards (s after : QuestPlayer) : Prop where
  kept : ∀ q stage, .rewarding q stage ∈ s.calls → ∃ stage', .rewarding q stage' ∈ after.calls
  back : ∀ q stage, .rewarding q stage ∈ after.calls →
    ∃ stage', .rewarding q stage' ∈ s.calls ∧ (stage = .paying → stage' = .paying)

theorem SameRewards.refl (calls : after.calls = s.calls) : SameRewards s after where
  kept := fun _ stage member => ⟨stage, calls ▸ member⟩
  back := fun _ stage member => ⟨stage, calls ▸ member, fun is => is⟩

theorem SameRewards.underReward_iff (same : SameRewards s after) (id : UInt32) :
    after.UnderReward id ↔ s.UnderReward id := by
  constructor
  · rintro ⟨q, stage, member, ids⟩
    obtain ⟨stage', member', -⟩ := same.back q stage member
    exact ⟨q, stage', member', ids⟩
  · rintro ⟨q, stage, member, ids⟩
    obtain ⟨stage', member'⟩ := same.kept q stage member
    exact ⟨q, stage', member', ids⟩

theorem adds_iff_of_request (request : after.request = s.request) (id : UInt32) :
    after.Adds id ↔ s.Adds id := by
  unfold Adds
  rw [request]

variable {d : QuestStatusData}

/-- **Some quests change their status and state bits.** -/
theorem Inv.of_changed (changed : UInt32 → Prop) (inv : Inv t s) (request : after.request = s.request)
    (rewards : SameRewards s after)
    (removals : ∀ id i, s.request = .abandoning id i → ∀ call ∈ after.calls, call ∈ s.calls ∨
      ∃ entry count rest, call = .looping (.itemRemoved entry count) rest)
    (ids : ∀ j, (after.log.slots j).questId = (s.log.slots j).questId)
    (others : ∀ j, ¬ changed (s.log.slots j).questId → after.log.slots j = s.log.slots j)
    (status : ∀ id, ¬ changed id → after.log.questStatus id = s.log.questStatus id)
    (entry : ∀ id, changed id → ∃ d, after.log.questStatus id = some d ∧ d.status.IsOpen ∧
      (¬ s.UnderReward id → ∀ j, (s.log.slots j).questId = id → Shows (after.log.slots j) d.status))
    (home : ∀ id, changed id → s.log.InLog id ∨ s.UnderReward id)
    (notAdded : ∀ id, changed id → ¬ s.Adds id) : Inv t after := by
  have inLog : ∀ id, after.log.InLog id ↔ s.log.InLog id :=
    fun id => exists_congr fun j => by rw [ids]
  refine ⟨?_, ?_, ?_, ?_, ?_, ?_, ?_, ?_⟩
  · intro i j used twice
    rw [ids] at used
    rw [ids, ids] at twice
    exact inv.once i j used twice
  · intro i used
    rw [ids] at used ⊢
    exact inv.known i used
  · intro i used
    rw [ids] at used ⊢
    by_cases own : changed (s.log.slots i).questId
    · obtain ⟨d, isEntry, isOpen, -⟩ := entry _ own
      exact ⟨d, isEntry, isOpen⟩
    · unfold HasOpen
      rw [status _ own]
      exact inv.entered i used
  · intro other used open'
    rw [inLog, adds_iff_of_request request, rewards.underReward_iff]
    by_cases own : changed other
    · exact (home other own).imp_right Or.inr
    · refine inv.homed other used ?_
      unfold HasOpen at open'
      rwa [status _ own] at open'
  · intro i d' used entry' notRewarded
    rw [ids] at used entry' notRewarded
    rw [rewards.underReward_iff] at notRewarded
    by_cases own : changed (s.log.slots i).questId
    · obtain ⟨d, isEntry, -, shown⟩ := entry _ own
      rw [isEntry] at entry'
      cases entry'
      exact shown notRewarded i rfl
    · rw [status _ own] at entry'
      rw [others i own]
      exact inv.shown i d' used entry' notRewarded
  · intro q stage member
    obtain ⟨stage', member', paying⟩ := rewards.back q stage member
    obtain ⟨template, out⟩ := inv.rewards q stage' member'
    exact ⟨template, fun is => (inLog q.id).not.mpr (out (paying is))⟩
  · intro q i completes couldTake adding
    rw [request] at adding
    obtain ⟨template, free, out, ⟨d', entry', incomplete⟩, notRewarded, could⟩ :=
      inv.adds q i completes couldTake adding
    have other : ¬ changed q.id :=
      fun own => notAdded q.id own ⟨q, i, completes, couldTake, adding, rfl⟩
    refine ⟨template, (ids i).trans free, (inLog q.id).not.mpr out, ⟨d', ?_, incomplete⟩,
      (rewards.underReward_iff q.id).not.mpr notRewarded, could⟩
    rw [status _ other]
    exact entry'
  · intro id' i abandoning
    rw [request] at abandoning
    obtain ⟨used, held, loops⟩ := inv.abandons id' i abandoning
    refine ⟨used, (ids i).trans held, fun call member => ?_⟩
    rcases removals _ _ abandoning call member with before | loop
    · exact loops call before
    · exact loop

theorem Inv.of_same (inv : Inv t s) (request : after.request = s.request)
    (rewards : SameRewards s after)
    (removals : ∀ id i, s.request = .abandoning id i → ∀ call ∈ after.calls, call ∈ s.calls ∨
      ∃ entry count rest, call = .looping (.itemRemoved entry count) rest)
    (slots : after.log.slots = s.log.slots)
    (status : after.log.questStatus = s.log.questStatus) : Inv t after :=
  inv.of_changed (fun _ => False) request rewards removals (fun j => by rw [slots])
    (fun j _ => by rw [slots]) (fun id _ => by rw [status]) nofun nofun nofun

theorem Inv.rewardQuest {q : Quest} (inv : Inv t s) (template : t.getQuestTemplate q.id = some q)
    (notAdded : ¬ s.Adds q.id) (notAbandoning : ∀ id i, s.request ≠ .abandoning id i) :
    Inv t (s.rewardQuest q) := by
  have fewer : ∀ id, ¬ (s.rewardQuest q).UnderReward id → ¬ s.UnderReward id := by
    rintro id notLater ⟨q', stage, member, ids⟩
    exact notLater ⟨q', stage, mem_cons_of_mem _ member, ids⟩
  refine ⟨inv.once, inv.known, inv.entered, ?_, ?_, ?_, ?_, ?_⟩
  · intro id used open'
    refine (inv.homed id used open').imp_right (Or.imp_right ?_)
    rintro ⟨q', stage, member, ids⟩
    exact ⟨q', stage, mem_cons_of_mem _ member, ids⟩
  · exact fun i d used entry notLater => inv.shown i d used entry (fewer _ notLater)
  · intro q' stage member
    rcases List.mem_cons.mp member with this | before
    · cases this
      exact ⟨template, nofun⟩
    · exact inv.rewards q' stage before
  · intro q' i completes couldTake adding
    obtain ⟨template', free, out, incomplete, notRewarded, could⟩ :=
      inv.adds q' i completes couldTake adding
    refine ⟨template', free, out, incomplete, ?_, could⟩
    rintro ⟨q'', stage, member, ids⟩
    rcases List.mem_cons.mp member with this | before
    · cases this
      exact notAdded ⟨q', i, completes, couldTake, adding, ids.symm⟩
    · exact notRewarded ⟨q'', stage, before, ids⟩
  · exact fun id i abandoning => absurd abandoning (notAbandoning id i)

/-- A quest's status is set, and the slot that it has is changed with it. -/
structure Restated (log after : QuestLog) (id : UInt32) (status : QuestStatus)
    (f : QuestSlot → QuestSlot) : Prop where
  ids : ∀ j, (after.slots j).questId = (log.slots j).questId
  others : ∀ j, (log.slots j).questId ≠ id → after.slots j = log.slots j
  own : id ≠ 0 → ∀ j, (log.slots j).questId = id → after.slots j = f (log.slots j)
  entry : after.questStatus id = some { log.statusData id with status := status }
  same : ∀ other, other ≠ id → after.questStatus other = log.questStatus other

variable {log : QuestLog} {id : UInt32} {status : QuestStatus} {f : QuestSlot → QuestSlot} {q : Quest}

theorem restated_setQuestStatus (template : t.getQuestTemplate id = some q)
    (once : ∀ i j, (log.slots i).questId ≠ 0 → (log.slots j).questId = (log.slots i).questId → j = i)
    (keeps : ∀ slot, (f slot).questId = slot.questId) :
    Restated log ((log.setQuestStatus t id status).changeSlotOf id f) id status f := by
  rw [setQuestStatus_of_template template]
  cases found : (log.setStatusData id { log.statusData id with status := status }).findQuestSlot id with
  | none =>
    rw [changeSlotOf_of_none found]
    refine ⟨fun _ => rfl, fun _ _ => rfl, fun _ j held => ?_, setStatusData_same _,
      fun other apart => setStatusData_other _ apart⟩
    exact absurd held (findQuestSlot_eq_none found j)
  | some i =>
    rw [changeSlotOf_of_find found]
    have held := questId_of_findQuestSlot found
    refine ⟨fun j => ?_, fun j other => ?_, fun used j heldJ => ?_, setStatusData_same _,
      fun other apart => setStatusData_other _ apart⟩
    · by_cases here : j = i
      · rw [here, changeSlot_same]
        exact keeps _
      · rw [changeSlot_other _ here]
        rfl
    · rw [changeSlot_other]
      · rfl
      · rintro rfl
        exact other held
    · have here : j = i := by
        refine once i j ?_ (heldJ.trans held.symm)
        exact fun empty => used (held.symm.trans empty)
      rw [here, changeSlot_same]
      rfl

theorem markComplete_restated (template : t.getQuestTemplate id = some q)
    (once : ∀ i j, (log.slots i).questId ≠ 0 → (log.slots j).questId = (log.slots i).questId → j = i) :
    Restated log (log.markComplete t id) id .complete fun slot => { slot with complete := true } := by
  rw [markComplete, if_neg (t.ne_zero template)]
  exact restated_setQuestStatus template once fun _ => rfl

theorem incompleteQuest_restated (template : t.getQuestTemplate id = some q)
    (once : ∀ i j, (log.slots i).questId ≠ 0 → (log.slots j).questId = (log.slots i).questId → j = i) :
    Restated log (log.incompleteQuest t id) id .incomplete fun slot =>
      { slot with complete := false } := by
  rw [QuestLog.incompleteQuest, if_neg (t.ne_zero template)]
  exact restated_setQuestStatus template once fun _ => rfl

theorem Inv.restate (inv : Inv t s) (restated : Restated s.log log id status f)
    (template : t.getQuestTemplate id = some q) (isOpen : status.IsOpen)
    (home : s.log.InLog id ∨ s.UnderReward id) (notAdded : ¬ s.Adds id)
    (shown : ¬ s.UnderReward id → ∀ j, (s.log.slots j).questId = id → ∀ d,
      s.log.questStatus id = some d → Shows (s.log.slots j) d.status → Shows (f (s.log.slots j)) status) :
    Inv t { s with log := log } := by
  refine inv.of_changed (· = id) rfl (SameRewards.refl rfl) (fun _ _ _ _ member => Or.inl member)
    restated.ids restated.others restated.same ?_ (fun _ own => own ▸ home) (fun _ own => own ▸ notAdded)
  rintro _ rfl
  refine ⟨_, restated.entry, isOpen, fun notRewarded j held => ?_⟩
  have used : (s.log.slots j).questId ≠ 0 := held ▸ t.ne_zero template
  obtain ⟨d, entry, -⟩ := inv.entered j used
  rw [restated.own (t.ne_zero template) j held]
  rw [held] at entry
  exact shown notRewarded j held d entry (inv.shown j d used (held ▸ entry) (held ▸ notRewarded))

variable {slot : QuestSlot}

theorem shows_completed {status : QuestStatus} (shows' : Shows slot status)
    (before : status = .incomplete ∨ status = .complete) :
    Shows { slot with complete := true } .complete := by
  refine ⟨iff_of_true rfl rfl, shows'.fail.trans ?_⟩
  rcases before with rfl | rfl
  · exact ⟨nofun, nofun⟩
  · exact ⟨nofun, nofun⟩

theorem shows_uncompleted {status : QuestStatus} (shows' : Shows slot status)
    (before : status = .incomplete ∨ status = .complete) :
    Shows { slot with complete := false } .incomplete := by
  refine ⟨⟨nofun, nofun⟩, shows'.fail.trans ?_⟩
  rcases before with rfl | rfl
  · exact ⟨nofun, nofun⟩
  · exact ⟨nofun, nofun⟩

theorem shows_failed {status : QuestStatus} (shows' : Shows slot status)
    (before : status = .incomplete ∨ status = .failed) {timer : UInt32} :
    Shows ⟨slot.questId, slot.complete, true, timer⟩ .failed := by
  refine ⟨shows'.complete.trans ?_, iff_of_true rfl rfl⟩
  rcases before with rfl | rfl
  · exact ⟨nofun, nofun⟩
  · exact ⟨nofun, nofun⟩

theorem HasStatus.eq (has : s.HasStatus id status) (entry : s.log.questStatus id = some d) :
    d.status = status := by
  obtain ⟨d', entry', is⟩ := has
  rw [entry] at entry'
  cases entry'
  exact is

theorem Inv.home (inv : Inv t s) (used : id ≠ 0) (has : s.HasStatus id status)
    (isOpen : status.IsOpen) (notAdded : ¬ s.Adds id) : s.log.InLog id ∨ s.UnderReward id := by
  obtain ⟨d, entry, is⟩ := has
  rcases inv.homed id used ⟨d, entry, is ▸ isOpen⟩ with inLog | added | rewarded
  · exact Or.inl inLog
  · exact absurd added notAdded
  · exact Or.inr rewarded

theorem Inv.notAdded (inv : Inv t s) (inLog : s.log.InLog id) : ¬ s.Adds id := by
  rintro ⟨q, i, completes, couldTake, adding, rfl⟩
  exact (inv.adds q i completes couldTake adding).2.2.1 inLog

theorem Inv.completeQuest (inv : Inv t s) (template : t.getQuestTemplate id = some q)
    (notAdded : ¬ s.Adds id) (notAbandoning : ∀ id i, s.request ≠ .abandoning id i)
    (before : q.hasFlag questFlagsTracking ∨ s.HasStatus id .incomplete ∨
      s.HasStatus id .complete) : Inv t (s.completeQuest t id) := by
  have ids := t.keyed template
  subst ids
  have restated : Restated s.log (s.log.markComplete t q.id) q.id .complete _ :=
    markComplete_restated template inv.once
  simp only [QuestPlayer.completeQuest, template]
  by_cases tracking : q.hasFlag questFlagsTracking
  · rw [if_pos tracking]
    have begun := inv.rewardQuest template notAdded notAbandoning
    have under : (s.rewardQuest q).UnderReward q.id := ⟨q, .taking, mem_cons_self .., rfl⟩
    exact begun.restate restated template (Or.inr (Or.inl rfl)) (Or.inr under) notAdded
      fun notUnder => absurd under notUnder
  · rw [if_neg tracking]
    have before' := before.resolve_left tracking
    have home : s.log.InLog q.id ∨ s.UnderReward q.id := by
      rcases before' with incomplete | complete
      · exact inv.home (t.ne_zero template) incomplete (Or.inl rfl) notAdded
      · exact inv.home (t.ne_zero template) complete (Or.inr (Or.inl rfl)) notAdded
    refine inv.restate restated template (Or.inr (Or.inl rfl)) home notAdded ?_
    intro _ j _ d entry shows'
    exact shows_completed shows' (before'.imp (fun has => has.eq entry) fun has => has.eq entry)

theorem completeQuest_ids (template : t.getQuestTemplate id = some q)
    (once : ∀ i j, (s.log.slots i).questId ≠ 0 →
      (s.log.slots j).questId = (s.log.slots i).questId → j = i) (j : Fin maxQuestLogSize) :
    ((s.completeQuest t id).log.slots j).questId = (s.log.slots j).questId := by
  simp only [QuestPlayer.completeQuest, template]
  exact (markComplete_restated template once).ids j

theorem Inv.completeIfCan (inv : Inv t s) (env : QuestContext)
    (template : t.getQuestTemplate id = some q) (inLog : s.log.InLog id)
    (notAbandoning : ∀ id i, s.request ≠ .abandoning id i) (before : s.HasStatus id .incomplete) :
    Inv t (s.completeIfCan t env id) ∧ NoNew s (s.completeIfCan t env id) := by
  unfold QuestPlayer.completeIfCan
  split
  · exact ⟨inv.completeQuest template (inv.notAdded inLog) notAbandoning (Or.inr (Or.inl before)),
      noNew_of_ids (completeQuest_ids template inv.once)⟩
  · exact ⟨inv, noNew_of_ids fun _ => rfl⟩

theorem Inv.incompleteQuest (inv : Inv t s) (template : t.getQuestTemplate id = some q)
    (notAdded : ¬ s.Adds id) (home : s.log.InLog id ∨ s.UnderReward id)
    (before : ¬ s.UnderReward id → s.HasStatus id .incomplete ∨ s.HasStatus id .complete) :
    Inv t { s with log := s.log.incompleteQuest t id } := by
  refine inv.restate (incompleteQuest_restated template inv.once) template (Or.inl rfl) home notAdded ?_
  intro notRewarded j _ d entry shows'
  exact shows_uncompleted shows'
    ((before notRewarded).imp (fun has => has.eq entry) fun has => has.eq entry)

theorem Inv.failQuest (inv : Inv t s) (template : t.getQuestTemplate id = some q)
    (notAdded : ¬ s.Adds id) (before : s.HasStatus id .incomplete ∨ s.HasStatus id .failed) :
    Inv t (s.failQuest t id) ∧ NoNew s (s.failQuest t id) := by
  have restated : Restated s.log ((s.log.setQuestStatus t id .failed).changeSlotOf id fun slot =>
      { slot with
        fail := true
        timer := 1 }) id .failed _ := restated_setQuestStatus template inv.once fun _ => rfl
  have home : s.log.InLog id ∨ s.UnderReward id := by
    rcases before with incomplete | failed
    · exact inv.home (t.ne_zero template) incomplete (Or.inl rfl) notAdded
    · exact inv.home (t.ne_zero template) failed (Or.inr (Or.inr rfl)) notAdded
  have kept := inv.restate restated template (Or.inr (Or.inr rfl)) home notAdded fun _ j _ d entry
    shows' => shows_failed shows' (before.imp (fun has => has.eq entry) fun has => has.eq entry)
  simp only [QuestPlayer.failQuest, template]
  split
  · refine ⟨?_, noNew_of_ids restated.ids⟩
    -- the timer of the entry is reset, its status stays
    refine inv.of_changed (· = id) rfl (SameRewards.refl rfl) (fun _ _ _ _ member => Or.inl member)
      restated.ids restated.others (fun other apart => ?_) ?_ (fun _ own => own ▸ home)
      (fun _ own => own ▸ notAdded)
    · exact (setStatusData_other _ apart).trans (restated.same other apart)
    rintro _ rfl
    refine ⟨_, setStatusData_same _, ?_, fun notRewarded j held => ?_⟩
    · rw [statusData_of_some restated.entry]
      exact Or.inr (Or.inr rfl)
    have used : (s.log.slots j).questId ≠ 0 := held ▸ t.ne_zero template
    have shows' := kept.shown j _ (by rw [restated.ids]; exact used)
      (by rw [restated.ids, held]; exact restated.entry) (by rw [restated.ids, held]; exact notRewarded)
    rw [statusData_of_some restated.entry]
    exact shows'
  · exact ⟨kept, noNew_of_ids restated.ids⟩

/-- A turn that changes counters at most, and may complete a quest that is incomplete
and in the log. -/
structure Quiet (t : QuestTemplates) (log : QuestLog) (turn : QuestLog × Option Quest) : Prop where
  slots : turn.1.slots = log.slots
  status : turn.1.questStatus = log.questStatus
  done : ∀ q, turn.2 = some q → t.getQuestTemplate q.id = some q ∧ log.InLog q.id ∧
    ∃ d, log.questStatus q.id = some d ∧ d.status = .incomplete

theorem quiet_refl (log : QuestLog) : Quiet t log (log, none) :=
  ⟨rfl, rfl, nofun⟩

theorem touchStatus_of_hasOpen (open' : log.HasOpen id) : log.touchStatus id = log := by
  obtain ⟨d, entry, -⟩ := open'
  exact touchStatus_of_entry entry

theorem quiet_creditFirst {meant : QuestObjective → Bool}
    {advance : QuestLog → QuestObjective → QuestLog}
    (counters : ∀ log o, (advance log o).slots = log.slots ∧
      (advance log o).questStatus = log.questStatus)
    (template : t.getQuestTemplate q.id = some q) (inLog : log.InLog q.id)
    (incomplete : ∃ d, log.questStatus q.id = some d ∧ d.status = .incomplete) :
    Quiet t log (log.creditFirst meant advance q) := by
  unfold creditFirst
  rcases q.objectives.find? meant with _ | o
  · exact quiet_refl log
  refine ⟨(counters log o).1, (counters log o).2, ?_⟩
  rintro q' ⟨⟩
  exact ⟨template, inLog, incomplete⟩

theorem incomplete_of_statusData (entry : log.questStatus id = some d)
    (is : (log.statusData id).status = .incomplete) :
    ∃ d, log.questStatus id = some d ∧ d.status = .incomplete := by
  rw [statusData_of_some entry] at is
  exact ⟨d, entry, is⟩

theorem Inv.quiet_killedTurn (inv : Inv t s) (env : QuestContext) (type : QuestObjectiveType)
    (meant : QuestObjective → Bool) {advance : QuestLog → QuestObjective → QuestLog}
    (counters : ∀ log o, (advance log o).slots = log.slots ∧
      (advance log o).questStatus = log.questStatus) (i : Fin maxQuestLogSize) :
    Quiet t s.log (s.log.killedTurn t env type meant advance i) := by
  unfold killedTurn
  rcases template : t.getQuestTemplate (s.log.slots i).questId with _ | q
  · exact quiet_refl s.log
  dsimp only
  have held := t.keyed template
  have open' := inv.entered i (t.ne_zero template)
  rw [← held] at open' template
  rw [touchStatus_of_hasOpen open']
  obtain ⟨d, entry, -⟩ := open'
  split
  · exact quiet_refl s.log
  split
  · rename_i meets
    rw [Bool.and_eq_true, decide_eq_true_eq] at meets
    exact quiet_creditFirst counters template ⟨i, held.symm⟩
      (incomplete_of_statusData entry meets.1)
  · exact quiet_refl s.log

theorem Inv.quiet_satisfyTurn (inv : Inv t s) (objectId amount : UInt32)
    (type : QuestObjectiveType) (i : Fin maxQuestLogSize) :
    Quiet t s.log (s.log.satisfyTurn t objectId amount type i) := by
  unfold satisfyTurn
  rcases template : t.getQuestTemplate (s.log.slots i).questId with _ | q
  · exact quiet_refl s.log
  dsimp only
  have held := t.keyed template
  have open' := inv.entered i (t.ne_zero template)
  rw [← held] at open' template
  rw [touchStatus_of_hasOpen open']
  obtain ⟨d, entry, -⟩ := open'
  split
  · exact quiet_refl s.log
  rename_i meets
  split
  · exact quiet_refl s.log
  · exact quiet_creditFirst (fun log o => ⟨rfl, rfl⟩) template ⟨i, held.symm⟩
      (incomplete_of_statusData entry (not_not.mp meets))

theorem quiet_itemAddedLoop (entered : ∀ i, (log.slots i).questId ≠ 0 →
      log.HasOpen (log.slots i).questId) (entry count : UInt32) (rest : List (Fin maxQuestLogSize)) :
    Quiet t log (itemAddedLoop t entry count rest log) := by
  induction rest with
  | nil => exact quiet_refl log
  | cons i rest ih =>
    unfold itemAddedLoop
    dsimp only
    split
    · exact ih
    rename_i used
    have open' := entered i used
    rw [touchStatus_of_hasOpen open']
    obtain ⟨d, found, -⟩ := open'
    split
    · exact ih
    rename_i meets
    split
    · exact ih
    rename_i q template
    split
    · exact ih
    split
    · exact ih
    rename_i o _
    have held := t.keyed template
    rw [← held] at template found meets
    have counters : (advanceItem count log o).slots = log.slots ∧
        (advanceItem count log o).questStatus = log.questStatus := by
      unfold advanceItem
      dsimp only
      split <;> exact ⟨rfl, rfl⟩
    refine ⟨counters.1, counters.2, ?_⟩
    rintro q' ⟨⟩
    exact ⟨template, ⟨i, held.symm⟩, incomplete_of_statusData found (not_not.mp meets)⟩

theorem counters_advanceMonster (log : QuestLog) (o : QuestObjective) :
    (advanceMonster log o).slots = log.slots ∧
      (advanceMonster log o).questStatus = log.questStatus := by
  unfold advanceMonster
  split <;> exact ⟨rfl, rfl⟩

theorem counters_advancePlayer (log : QuestLog) (o : QuestObjective) :
    (advancePlayer log o).slots = log.slots ∧
      (advancePlayer log o).questStatus = log.questStatus := by
  unfold advancePlayer
  split <;> exact ⟨rfl, rfl⟩

theorem Inv.afterTurn (inv : Inv t s) (env : QuestContext) {turn : QuestLog × Option Quest}
    (quiet : Quiet t s.log turn) (notAbandoning : ∀ id i, s.request ≠ .abandoning id i) :
    Inv t (s.afterTurn t env turn) ∧ NoNew s (s.afterTurn t env turn) := by
  have counted : Inv t { s with log := turn.1 } :=
    inv.of_same rfl (SameRewards.refl rfl) (fun _ _ _ _ member => Or.inl member) quiet.slots
      quiet.status
  have sameIds : ∀ j, (turn.1.slots j).questId = (s.log.slots j).questId :=
    fun j => by rw [quiet.slots]
  unfold QuestPlayer.afterTurn
  rcases done : turn.2 with _ | q
  · exact ⟨counted, noNew_of_ids sameIds⟩
  obtain ⟨template, ⟨i, held⟩, d, entry, incomplete⟩ := quiet.done q done
  obtain ⟨kept, noNew⟩ := counted.completeIfCan env template ⟨i, (sameIds i).trans held⟩
    notAbandoning ⟨d, (congrFun quiet.status q.id).trans entry, incomplete⟩
  refine ⟨kept, fun id used inLog => ?_⟩
  obtain ⟨j, heldJ⟩ := noNew id used inLog
  exact ⟨j, (sameIds j).symm.trans heldJ⟩

theorem Inv.moneyTurn (inv : Inv t s) (env : QuestContext) (count : UInt32) (i : Fin maxQuestLogSize)
    (notAbandoning : ∀ id i, s.request ≠ .abandoning id i) :
    Inv t (s.afterTurn t env (s.log.moneyTurn t count i)) ∧
      NoNew s (s.afterTurn t env (s.log.moneyTurn t count i)) := by
  have still : Inv t (s.afterTurn t env (s.log, none)) ∧ NoNew s (s.afterTurn t env (s.log, none)) :=
    inv.afterTurn env (quiet_refl s.log) notAbandoning
  unfold QuestLog.moneyTurn
  rcases template : t.getQuestTemplate (s.log.slots i).questId with _ | q
  · exact still
  dsimp only
  have held := t.keyed template
  have open' := inv.entered i (t.ne_zero template)
  rw [← held] at open' template
  rw [touchStatus_of_hasOpen open']
  obtain ⟨d, entry, -⟩ := open'
  have inLog : s.log.InLog q.id := ⟨i, held.symm⟩
  split
  · exact still
  split
  · exact still
  rename_i o _
  cases is : (s.log.statusData q.id).status with
  | incomplete =>
    dsimp only
    split
    · refine inv.afterTurn env ⟨rfl, rfl, ?_⟩ notAbandoning
      rintro q' ⟨⟩
      exact ⟨template, inLog, incomplete_of_statusData entry is⟩
    · exact still
  | complete =>
    dsimp only
    split
    · rw [statusData_of_some entry] at is
      have has : s.HasStatus q.id .complete := ⟨d, entry, is⟩
      refine ⟨inv.incompleteQuest template (inv.notAdded inLog) (Or.inl inLog)
        fun _ => Or.inr has, noNew_of_ids ?_⟩
      exact (incompleteQuest_restated template inv.once).ids
    · exact still
  | none => exact still
  | failed => exact still
  | rewarded => exact still

theorem Inv.itemRemovedTurn (inv : Inv t s) (env : QuestContext) (entry count : UInt32)
    (i : Fin maxQuestLogSize)
    (spared : ∀ q, t.getQuestTemplate (s.log.slots i).questId = some q → s.HasStatus q.id .failed →
      ¬ s.UnderReward q.id → ∀ o, q.objectives.find? (meantItem entry) = some o →
        o.amount ≤ s.log.getQuestObjectiveCounter o.id) :
    Inv t { s with log := QuestLog.itemRemovedTurn t env entry count s.log i } ∧
      NoNew s { s with log := QuestLog.itemRemovedTurn t env entry count s.log i } := by
  have still : Inv t { s with log := s.log } ∧ NoNew s { s with log := s.log } :=
    ⟨inv, noNew_of_ids fun _ => rfl⟩
  unfold QuestLog.itemRemovedTurn
  dsimp only
  split
  · exact still
  rename_i used
  have open' := inv.entered i used
  rw [touchStatus_of_hasOpen open']
  obtain ⟨d, found, isOpen⟩ := open'
  split
  · exact still
  rename_i q template
  have held := t.keyed template
  split
  · exact still
  split
  · exact still
  rename_i o first
  rcases removeItems_cases t env count ((s.log.statusData (s.log.slots i).questId).status = .complete)
    s.log q o with same | ⟨lacks, c, removed⟩
  · rw [same]
    exact still
  rw [removed]
  rw [← held] at template found lacks
  have inLog : s.log.InLog q.id := ⟨i, held.symm⟩
  have counted : Inv t { s with log := s.log.setCounter o.id c } :=
    inv.of_same rfl (SameRewards.refl rfl) (fun _ _ _ _ member => Or.inl member) rfl rfl
  refine ⟨counted.incompleteQuest template (inv.notAdded inLog) (Or.inl inLog) ?_,
    noNew_of_ids ?_⟩
  · intro notRewarded
    rcases isOpen with incomplete | complete | failed
    · exact Or.inl ⟨d, found, incomplete⟩
    · exact Or.inr ⟨d, found, complete⟩
    · exfalso
      have enough := spared q (held ▸ template) ⟨d, found, failed⟩ notRewarded o first
      have below := lacks (by rw [statusData_of_some found, failed]; decide)
      exact absurd below (UInt32.not_lt.mpr enough)
  · exact fun j => (incompleteQuest_restated template counted.once).ids j

/-! ## The parts of a call -/

variable {rest : List QuestCall}

theorem Inv.notAbandoning_of_rewarding {stage : RewardStage} (inv : Inv t s)
    (calls : s.calls = .rewarding q stage :: rest) (id : UInt32) (i : Fin maxQuestLogSize) :
    s.request ≠ .abandoning id i := by
  intro abandoning
  obtain ⟨-, -, loops⟩ := inv.abandons id i abandoning
  obtain ⟨entry, count, later, is⟩ := loops (.rewarding q stage) (calls ▸ mem_cons_self ..)
  cases is

theorem underReward_iff_of_stage {stage stage' : RewardStage}
    (calls : s.calls = .rewarding q stage :: rest)
    (later : after.calls = .rewarding q stage' :: rest) (id : UInt32) :
    after.UnderReward id ↔ s.UnderReward id := by
  unfold UnderReward
  rw [calls, later]
  constructor
  · rintro ⟨q', stage, member, ids⟩
    rcases List.mem_cons.mp member with this | before
    · cases this
      exact ⟨q, _, mem_cons_self .., ids⟩
    · exact ⟨q', stage, mem_cons_of_mem _ before, ids⟩
  · rintro ⟨q', stage, member, ids⟩
    rcases List.mem_cons.mp member with this | before
    · cases this
      exact ⟨q, _, mem_cons_self .., ids⟩
    · exact ⟨q', stage, mem_cons_of_mem _ before, ids⟩

theorem Inv.clearRewardedSlot (inv : Inv t s) (calls : s.calls = .rewarding q .storing :: rest) :
    Inv t { s with
      log := s.log.clearRewardedSlot q.id
      calls := .rewarding q .paying :: rest } ∧
    NoNew s { s with
      log := s.log.clearRewardedSlot q.id
      calls := .rewarding q .paying :: rest } := by
  have member : QuestCall.rewarding q .storing ∈ s.calls := calls ▸ mem_cons_self ..
  obtain ⟨template, -⟩ := inv.rewards q .storing member
  have slot : ∀ j, ((s.log.clearRewardedSlot q.id).slots j).questId = 0 ∨
      (s.log.clearRewardedSlot q.id).slots j = s.log.slots j := by
    intro j
    unfold QuestLog.clearRewardedSlot
    cases found : s.log.findQuestSlot q.id with
    | none =>
      rw [changeSlotOf_of_none found]
      exact Or.inr rfl
    | some i =>
      rw [changeSlotOf_of_find found]
      by_cases here : j = i
      · rw [here, changeSlot_same]
        exact Or.inl rfl
      · exact Or.inr (changeSlot_other _ here)
  have gone : ¬ (s.log.clearRewardedSlot q.id).InLog q.id := by
    rintro ⟨j, held⟩
    unfold QuestLog.clearRewardedSlot at held
    cases found : s.log.findQuestSlot q.id with
    | none =>
      rw [changeSlotOf_of_none found] at held
      exact findQuestSlot_eq_none found j held
    | some i =>
      rw [changeSlotOf_of_find found] at held
      by_cases here : j = i
      · rw [here, changeSlot_same] at held
        exact t.ne_zero template held.symm
      · rw [changeSlot_other _ here] at held
        have inSlot := questId_of_findQuestSlot found
        exact here (inv.once i j (inSlot ▸ t.ne_zero template) (held.trans inSlot.symm))
  have status : (s.log.clearRewardedSlot q.id).questStatus = s.log.questStatus := by
    unfold QuestLog.clearRewardedSlot changeSlotOf
    split <;> rfl
  have used' : ∀ j, ((s.log.clearRewardedSlot q.id).slots j).questId ≠ 0 →
      (s.log.clearRewardedSlot q.id).slots j = s.log.slots j := fun j used => (slot j).resolve_left used
  have under : ∀ id, (⟨s.log.clearRewardedSlot q.id, s.request,
      .rewarding q .paying :: rest⟩ : QuestPlayer).UnderReward id ↔ s.UnderReward id :=
    underReward_iff_of_stage calls rfl
  have inLog : ∀ id, id ≠ 0 → (s.log.clearRewardedSlot q.id).InLog id → s.log.InLog id := by
    rintro id used ⟨j, held⟩
    rw [used' j (held ▸ used)] at held
    exact ⟨j, held⟩
  refine ⟨⟨?_, ?_, ?_, ?_, ?_, ?_, ?_, ?_⟩, inLog⟩
  · intro i j used twice
    have atJ := used' j (twice ▸ used)
    have atI := used' i used
    rw [atJ, atI] at twice
    rw [atI] at used
    exact inv.once i j used twice
  · intro i used
    have at' := used' i used
    rw [at'] at used ⊢
    exact inv.known i used
  · intro i used
    have at' := used' i used
    unfold HasOpen
    rw [at'] at used ⊢
    rw [status]
    exact inv.entered i used
  · intro id used open'
    rw [under]
    unfold HasOpen at open'
    rw [status] at open'
    rcases inv.homed id used open' with ⟨j, held⟩ | added | rewarded
    · by_cases own : id = q.id
      · exact Or.inr (Or.inr ⟨q, .storing, member, own.symm⟩)
      left
      refine ⟨j, ?_⟩
      unfold QuestLog.clearRewardedSlot
      cases found : s.log.findQuestSlot q.id with
      | none =>
        rw [changeSlotOf_of_none found]
        exact held
      | some i =>
        rw [changeSlotOf_of_find found, changeSlot_other]
        · exact held
        · rintro rfl
          exact own (held.symm.trans (questId_of_findQuestSlot found))
    · exact Or.inr (Or.inl added)
    · exact Or.inr (Or.inr rewarded)
  · intro i d used entry notRewarded
    have at' := used' i used
    rw [under] at notRewarded
    rw [at'] at used entry notRewarded ⊢
    rw [status] at entry
    exact inv.shown i d used entry notRewarded
  · intro q' stage later
    rcases List.mem_cons.mp later with this | before
    · cases this
      exact ⟨template, fun _ => gone⟩
    · have found : QuestCall.rewarding q' stage ∈ s.calls := calls ▸ mem_cons_of_mem _ before
      obtain ⟨template', out⟩ := inv.rewards q' stage found
      exact ⟨template', fun paying held => out paying (inLog _ (t.ne_zero template') held)⟩
  · intro q' i completes couldTake adding
    obtain ⟨template', free, out, ⟨d, entry, incomplete⟩, notRewarded, could⟩ :=
      inv.adds q' i completes couldTake adding
    refine ⟨template', ?_, fun held => out (inLog _ (t.ne_zero template') held),
      ⟨d, (congrFun status q'.id).trans entry, incomplete⟩, (under _).not.mpr notRewarded, could⟩
    rcases slot i with empty | same
    · exact empty
    · exact (congrArg QuestSlot.questId same).trans free
  · exact fun id i abandoning => absurd abandoning (inv.notAbandoning_of_rewarding calls id i)

theorem Inv.concludeReward (inv : Inv t s) (calls : s.calls = .rewarding q .paying :: rest) :
    Inv t { s with
      log := s.log.concludeReward t q
      calls := rest } ∧
    NoNew s { s with
      log := s.log.concludeReward t q
      calls := rest } := by
  have member : QuestCall.rewarding q .paying ∈ s.calls := calls ▸ mem_cons_self ..
  obtain ⟨template, out⟩ := inv.rewards q .paying member
  have gone := out rfl
  obtain ⟨slots', status', -⟩ := markRewarded_keeps t s.log q
  have slots : (s.log.concludeReward t q).slots = s.log.slots := slots'
  have noEntry : (s.log.concludeReward t q).questStatus q.id = none := update_self ..
  have status : ∀ id, id ≠ q.id →
      (s.log.concludeReward t q).questStatus id = s.log.questStatus id := by
    intro id other
    exact (update_of_ne other _ _).trans (congrFun status' id)
  have apart : ∀ i, (s.log.slots i).questId ≠ q.id := fun i held => gone ⟨i, held⟩
  have under : ∀ id, id ≠ q.id →
      ((∃ q' stage, QuestCall.rewarding q' stage ∈ rest ∧ q'.id = id) ↔ s.UnderReward id) := by
    intro id other
    unfold UnderReward
    rw [calls]
    constructor
    · rintro ⟨q', stage, before, ids⟩
      exact ⟨q', stage, mem_cons_of_mem _ before, ids⟩
    rintro ⟨q', stage, before, ids⟩
    rcases List.mem_cons.mp before with this | before
    · cases this
      exact absurd ids.symm other
    · exact ⟨q', stage, before, ids⟩
  have inLog : ∀ id, (s.log.concludeReward t q).InLog id ↔ s.log.InLog id :=
    fun id => exists_congr fun j => by rw [slots]
  refine ⟨⟨?_, ?_, ?_, ?_, ?_, ?_, ?_, ?_⟩, fun id _ held => (inLog id).mp held⟩
  · intro i j used twice
    rw [slots] at used twice
    exact inv.once i j used twice
  · intro i used
    rw [slots] at used ⊢
    exact inv.known i used
  · intro i used
    unfold HasOpen
    rw [slots] at used ⊢
    rw [status _ (apart i)]
    exact inv.entered i used
  · intro id used open'
    obtain ⟨d, entry, isOpen⟩ := open'
    have other : id ≠ q.id := by
      rintro rfl
      rw [noEntry] at entry
      cases entry
    rw [status id other] at entry
    rcases inv.homed id used ⟨d, entry, isOpen⟩ with held | added | rewarded
    · exact Or.inl ((inLog id).mpr held)
    · exact Or.inr (Or.inl added)
    · exact Or.inr (Or.inr ((under id other).mpr rewarded))
  · intro i d used entry notRewarded
    rw [slots] at used entry notRewarded ⊢
    rw [status _ (apart i)] at entry
    exact inv.shown i d used entry fun rewarded => notRewarded ((under _ (apart i)).mpr rewarded)
  · intro q' stage before
    have found : QuestCall.rewarding q' stage ∈ s.calls := calls ▸ mem_cons_of_mem _ before
    obtain ⟨template', out'⟩ := inv.rewards q' stage found
    exact ⟨template', fun paying => (inLog q'.id).not.mpr (out' paying)⟩
  · intro q' i completes couldTake adding
    obtain ⟨template', free, out', ⟨d, entry, incomplete⟩, notRewarded, could⟩ :=
      inv.adds q' i completes couldTake adding
    have other : q'.id ≠ q.id := fun ids => notRewarded ⟨q, .paying, member, ids.symm⟩
    refine ⟨template', by rw [slots]; exact free, (inLog q'.id).not.mpr out', ⟨d, ?_, incomplete⟩,
      fun rewarded => notRewarded ((under _ other).mp rewarded), could⟩
    exact (status _ other).trans entry
  · exact fun id i abandoning => absurd abandoning (inv.notAbandoning_of_rewarding calls id i)

theorem Inv.addQuest (inv : Inv t s) (env : QuestContext) (idle : s.Idle)
    (template : t.getQuestTemplate q.id = some q) (can : s.log.canTakeQuest t env q)
    (completes : Bool) :
    Inv t (s.addQuest t env q completes) ∧ NoNew s (s.addQuest t env q completes) := by
  obtain ⟨request, calls⟩ := idle
  unfold QuestPlayer.addQuest
  rcases found : s.log.findQuestSlot 0 with _ | i
  · exact ⟨inv, noNew_of_ids fun _ => rfl⟩
  obtain ⟨slots, -, status, -⟩ := enterQuest_spec s.log q
  have free : (s.log.slots i).questId = 0 := questId_of_findQuestSlot found
  have out : ¬ s.log.InLog q.id := by
    rintro ⟨j, held⟩
    obtain ⟨d, entry, isOpen⟩ := inv.entered j (held ▸ t.ne_zero template)
    rw [held] at entry
    have taken : d.status ≠ .none := by
      rcases isOpen with is | is | is <;> rw [is] <;> decide
    have cannot : s.log.canTakeQuest t env q = false :=
      canTakeQuest_of_entry (t.ne_zero template) entry taken
    rw [can] at cannot
    cases cannot
  have entry : (s.log.enterQuest q).questStatus q.id = some { s.log.statusData q.id with
        status := .incomplete
        explored := false } := by
    rw [status]
    exact update_self ..
  have others : ∀ id, id ≠ q.id → (s.log.enterQuest q).questStatus id = s.log.questStatus id := by
    intro id other
    rw [status]
    exact update_of_ne other _ _
  have noCalls : ∀ call, ¬ call ∈ s.calls := by
    rw [calls]
    exact fun call => not_mem_nil
  have inLog : ∀ id, (s.log.enterQuest q).InLog id ↔ s.log.InLog id :=
    fun id => exists_congr fun j => by rw [slots]
  refine ⟨⟨?_, ?_, ?_, ?_, ?_, ?_, ?_, ?_⟩, fun id _ held => (inLog id).mp held⟩
  · intro a b used twice
    rw [slots] at used twice
    exact inv.once a b used twice
  · intro a used
    rw [slots] at used ⊢
    exact inv.known a used
  · intro a used
    unfold HasOpen
    rw [slots] at used ⊢
    rw [others _ fun ids => out ⟨a, ids⟩]
    exact inv.entered a used
  · intro id used open'
    by_cases own : id = q.id
    · exact Or.inr (Or.inl ⟨q, i, completes, _, rfl, own.symm⟩)
    unfold HasOpen at open'
    rw [others id own] at open'
    rcases inv.homed id used open' with held | ⟨q', i', completes', could, adding, -⟩ |
      ⟨q', stage, member, -⟩
    · exact Or.inl ((inLog id).mpr held)
    · rw [request] at adding
      cases adding
    · exact absurd member (noCalls _)
  · intro a d used entry' notRewarded
    rw [slots] at used entry' notRewarded ⊢
    rw [others _ fun ids => out ⟨a, ids⟩] at entry'
    exact inv.shown a d used entry' notRewarded
  · exact fun q' stage member => absurd member (noCalls _)
  · rintro q' i' completes' could ⟨⟩
    refine ⟨template, by rw [slots]; exact free, (inLog q.id).not.mpr out, ⟨_, entry, rfl⟩, ?_, can⟩
    rintro ⟨q', stage, member, -⟩
    exact noCalls _ member
  · exact fun id i' abandoning => by cases abandoning

theorem Inv.added {completes couldTake : Bool} (inv : Inv t s) (env : QuestContext)
    {i : Fin maxQuestLogSize} (adding : s.request = .adding q i completes couldTake) :
    Inv t { s with
      log := s.log.logQuest env q i
      request := .none } := by
  obtain ⟨template, free, out, ⟨d, entry, incomplete⟩, notRewarded, -⟩ :=
    inv.adds q i completes couldTake adding
  obtain ⟨⟨timer, slots⟩, time, status⟩ := logQuest_stores env q s.log i
  rw [statusData_of_some entry] at status
  have here : (s.log.logQuest env q i).slots i = ⟨q.id, false, false, timer⟩ := by
    rw [slots, update_self]
  have there : ∀ j, j ≠ i → (s.log.logQuest env q i).slots j = s.log.slots j := by
    intro j other
    rw [slots, update_of_ne other]
  have entryLater : (s.log.logQuest env q i).questStatus q.id = some { d with timer := time } := by
    rw [status, update_self]
  have others : ∀ id, id ≠ q.id →
      (s.log.logQuest env q i).questStatus id = s.log.questStatus id := by
    intro id other
    rw [status, update_of_ne other]
  have apart : ∀ j, (s.log.slots j).questId ≠ q.id := fun j held => out ⟨j, held⟩
  refine ⟨?_, ?_, ?_, ?_, ?_, ?_, ?_, ?_⟩
  · intro a b used twice
    by_cases atA : a = i
    · by_cases atB : b = i
      · rw [atA, atB]
      · rw [atA, here, there b atB] at twice
        exact absurd twice (apart b)
    · rw [there a atA] at used twice
      by_cases atB : b = i
      · rw [atB, here] at twice
        exact absurd twice.symm (apart a)
      · rw [there b atB] at twice
        exact inv.once a b used twice
  · intro a used
    by_cases atA : a = i
    · rw [atA, here]
      exact ⟨q, template⟩
    · rw [there a atA] at used ⊢
      exact inv.known a used
  · intro a used
    by_cases atA : a = i
    · rw [atA, here]
      exact ⟨_, entryLater, Or.inl incomplete⟩
    rw [there a atA] at used ⊢
    unfold HasOpen
    rw [others _ (apart a)]
    exact inv.entered a used
  · intro id used open'
    by_cases own : id = q.id
    · left
      refine ⟨i, ?_⟩
      rw [here]
      exact own.symm
    · unfold HasOpen at open'
      rw [others id own] at open'
      rcases inv.homed id used open' with ⟨j, held⟩ | ⟨q', i', completes', could, adding', ids⟩ | rewarded
      · left
        refine ⟨j, ?_⟩
        rw [there]
        · exact held
        · rintro rfl
          exact used (held.symm.trans free)
      · rw [adding] at adding'
        cases adding'
        exact absurd ids.symm own
      · exact Or.inr (Or.inr rewarded)
  · intro a d' used entry' notUnder
    by_cases atA : a = i
    · rw [atA] at entry' ⊢
      rw [here] at entry' ⊢
      rw [entryLater] at entry'
      cases entry'
      rw [incomplete]
      exact ⟨⟨nofun, nofun⟩, ⟨nofun, nofun⟩⟩
    · rw [there a atA] at used entry' notUnder ⊢
      rw [others _ (apart a)] at entry'
      exact inv.shown a d' used entry' notUnder
  · intro q' stage member
    obtain ⟨template', out'⟩ := inv.rewards q' stage member
    refine ⟨template', fun paying => ?_⟩
    rintro ⟨j, held⟩
    by_cases atJ : j = i
    · rw [atJ, here] at held
      exact notRewarded ⟨q', stage, member, held.symm⟩
    · rw [there j atJ] at held
      exact out' paying ⟨j, held⟩
  · exact fun _ _ _ _ adding => by cases adding
  · exact fun _ _ abandoning => by cases abandoning

theorem Inv.abandoned {i : Fin maxQuestLogSize} (inv : Inv t s)
    (abandoning : s.request = .abandoning id i) (slots : log.slots = s.log.slots)
    (status : log.questStatus = s.log.questStatus) :
    Inv t { s with
      log := (log.removeActiveQuest id).setQuestSlot i 0 0
      request := .none } ∧
    NoNew s { s with
      log := (log.removeActiveQuest id).setQuestSlot i 0 0
      request := .none } := by
  obtain ⟨used, held, loops⟩ := inv.abandons id i abandoning
  have here : ((log.removeActiveQuest id).setQuestSlot i 0 0).slots i = ⟨0, false, false, 0⟩ := by
    simp [setQuestSlot]
  have there : ∀ j, j ≠ i →
      ((log.removeActiveQuest id).setQuestSlot i 0 0).slots j = s.log.slots j :=
    fun j other => (changeSlot_other _ other).trans (congrFun slots j)
  have noEntry : ((log.removeActiveQuest id).setQuestSlot i 0 0).questStatus id = none :=
    update_self ..
  have others : ∀ other, other ≠ id →
      ((log.removeActiveQuest id).setQuestSlot i 0 0).questStatus other = s.log.questStatus other :=
    fun other apart => (update_of_ne apart _ _).trans (congrFun status other)
  have notHere : ∀ a, (((log.removeActiveQuest id).setQuestSlot i 0 0).slots a).questId ≠ 0 →
      a ≠ i := by
    rintro a used' rfl
    rw [here] at used'
    exact used' rfl
  have apart : ∀ a, (s.log.slots a).questId ≠ 0 → a ≠ i → (s.log.slots a).questId ≠ id := by
    intro a used' other ids
    exact other (inv.once i a (held ▸ used) (ids.trans held.symm))
  have noRewards : ∀ q stage, QuestCall.rewarding q stage ∉ s.calls := by
    intro q stage member
    obtain ⟨entry, count, rest, is⟩ := loops _ member
    cases is
  have inLog : ∀ other, other ≠ 0 →
      ((log.removeActiveQuest id).setQuestSlot i 0 0).InLog other → s.log.InLog other := by
    rintro other used' ⟨j, held'⟩
    exact ⟨j, by rw [← there j (notHere j (held' ▸ used'))]; exact held'⟩
  refine ⟨⟨?_, ?_, ?_, ?_, ?_, ?_, ?_, ?_⟩, inLog⟩
  · intro a b used' twice
    have atA := there a (notHere a used')
    have atB := there b (notHere b (twice ▸ used'))
    rw [atA] at used' twice
    rw [atB] at twice
    exact inv.once a b used' twice
  · intro a used'
    have atA := there a (notHere a used')
    rw [atA] at used' ⊢
    exact inv.known a used'
  · intro a used'
    have other := notHere a used'
    have atA := there a other
    rw [atA] at used' ⊢
    unfold HasOpen
    rw [others _ (apart a used' other)]
    exact inv.entered a used'
  · intro other used' open'
    obtain ⟨d, entry, isOpen⟩ := open'
    have ids : other ≠ id := by
      rintro rfl
      rw [noEntry] at entry
      cases entry
    rw [others other ids] at entry
    rcases inv.homed other used' ⟨d, entry, isOpen⟩ with ⟨j, held'⟩ | ⟨q, i', c, k, adding, -⟩ |
      ⟨q, stage, member, -⟩
    · left
      refine ⟨j, ?_⟩
      rw [there]
      · exact held'
      · rintro rfl
        exact ids (held'.symm.trans held)
    · rw [abandoning] at adding
      cases adding
    · exact absurd member (noRewards q stage)
  · intro a d used' entry notUnder
    have other := notHere a used'
    have atA := there a other
    rw [atA] at used' entry notUnder ⊢
    rw [others _ (apart a used' other)] at entry
    exact inv.shown a d used' entry notUnder
  · exact fun q stage member => absurd member (noRewards q stage)
  · exact fun _ _ _ _ adding => by cases adding
  · exact fun _ _ abandoning => by cases abandoning

end QuestPlayer

end Sky548
