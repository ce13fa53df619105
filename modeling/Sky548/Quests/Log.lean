import Mathlib.Data.UInt

/-!
# The quest log of a player

The stores of `Player` for quests: the slots of the log that the client sees, `m_QuestStatus` with
the status of every quest taken, `m_questObjectiveStatus` with the counters of all objectives of all
quests, the set of rewarded quests and the marks of the weekly, monthly, seasonal and dungeon finder
quests.

What the tests of a quest read elsewhere (class, level, reputation, bags, other quests of a chain)
comes in with each call as `QuestContext`.
-/

namespace Sky548

open Function (update)

inductive QuestObjectiveType
  | npc | item | go | npcInteract | currency | spell | factionRep | factionRep2 | money | player
  | dummy | petBattleTamer | petBattleElite | petBattlePvp
  deriving DecidableEq

structure QuestObjective where
  id : UInt32
  type : QuestObjectiveType
  objectId : UInt32
  /-- `uint32(Amount)` -/
  amount : UInt32
  deriving DecidableEq

/-- Not every objective has a counter; some are checked elsewhere. -/
def QuestObjectiveType.isTracked : QuestObjectiveType → Bool
  | .currency | .spell | .factionRep | .factionRep2 | .money | .dummy => false
  | _ => true

def questFlagsPartyAccept : UInt32 := 0x2
def questFlagsSharable : UInt32 := 0x8
def questFlagsTracking : UInt32 := 0x400
def questFlagsDaily : UInt32 := 0x1000
def questFlagsWeekly : UInt32 := 0x8000
def questFlagsAutoComplete : UInt32 := 0x10000
def questFlagsAutoAccept : UInt32 := 0x80000
def questFlagsAutoSubmit : UInt32 := 0x100000

def questSpecialFlagsRepeatable : UInt32 := 0x1
def questSpecialFlagsExplorationOrEvent : UInt32 := 0x2
def questSpecialFlagsDfQuest : UInt32 := 0x8
def questSpecialFlagsMonthly : UInt32 := 0x10
def questSpecialFlagsTimed : UInt32 := 0x400

/-- A template. The objectives stand in the order of the set of pointers. -/
structure Quest where
  id : UInt32
  method : UInt32
  zoneOrSort : Int
  limitTime : UInt32
  flags : UInt32
  specialFlags : UInt32
  objectives : List QuestObjective
  rewardChoiceItemId : List UInt32

namespace Quest

variable (q : Quest)

def hasFlag (flag : UInt32) : Bool := q.flags &&& flag ≠ 0
def hasSpecialFlag (flag : UInt32) : Bool := q.specialFlags &&& flag ≠ 0

def isRepeatable : Bool := q.hasSpecialFlag questSpecialFlagsRepeatable
def isDaily : Bool := q.hasFlag questFlagsDaily
def isWeekly : Bool := q.hasFlag questFlagsWeekly
def isMonthly : Bool := q.hasSpecialFlag questSpecialFlagsMonthly
def isDFQuest : Bool := q.hasSpecialFlag questSpecialFlagsDfQuest

def seasonalSorts : List Int := [-22, -284, -366, -369, -370, -376, -374]

def isSeasonal : Bool := q.zoneOrSort ∈ seasonalSorts ∧ ¬ q.isRepeatable

def getQuestObjectiveCountType (type : QuestObjectiveType) : Nat :=
  q.objectives.countP fun o => o.type = type

end Quest

/-- The templates of the object manager, under their ids, and what the quest code
reads of the configuration and of the game events. -/
structure QuestTemplates where
  getQuestTemplate : UInt32 → Option Quest
  keyed : ∀ {id q}, getQuestTemplate id = some q → q.id = id
  noneZero : getQuestTemplate 0 = none
  ignoreAutoAccept : Bool
  ignoreAutoComplete : Bool
  getEventIdForQuest : Quest → UInt16

namespace QuestTemplates

variable (t : QuestTemplates) (q : Quest)

def isAutoAccept : Bool := !t.ignoreAutoAccept && q.hasFlag questFlagsAutoAccept

def isAutoComplete : Bool :=
  !t.ignoreAutoComplete && (q.method = 0 || q.hasFlag questFlagsAutoComplete)

theorem ne_zero {t : QuestTemplates} {id : UInt32} {q : Quest}
    (found : t.getQuestTemplate id = some q) : id ≠ 0 := by
  rintro rfl
  rw [t.noneZero] at found
  cases found

end QuestTemplates

inductive QuestStatus
  | none | complete | incomplete | failed | rewarded
  deriving DecidableEq

structure QuestStatusData where
  status : QuestStatus
  timer : UInt32
  explored : Bool
  deriving DecidableEq

/-- What `m_QuestStatus[questId]` enters for a quest it does not have. -/
def QuestStatusData.new : QuestStatusData := ⟨.none, 0, false⟩

/-- A slot of the log: the quest, the two bits of its state word, its deadline. -/
structure QuestSlot where
  questId : UInt32
  complete : Bool
  fail : Bool
  timer : UInt32
  deriving DecidableEq

def maxQuestLogSize : Nat := 25

structure QuestLog where
  slots : Fin maxQuestLogSize → QuestSlot
  questStatus : UInt32 → Option QuestStatusData
  objectiveStatus : UInt32 → Option UInt32
  rewardedQuests : Finset UInt32
  timedQuests : Finset UInt32
  dfQuests : Finset UInt32
  weeklyQuests : Finset UInt32
  monthlyQuests : Finset UInt32
  seasonalQuests : UInt16 → Finset UInt32

/-- What the quest code reads elsewhere during a call. -/
structure QuestContext where
  /-- The tests of `CanTakeQuest` on the player and on other quests. -/
  eligible : QuestLog → Quest → Bool
  /-- The tests of `CanSeeStartQuest` on the player and on other quests. -/
  visible : QuestLog → Quest → Bool
  /-- The player has what `RewardQuest` takes, and room for the reward chosen. -/
  rewardable : Quest → UInt32 → Bool
  /-- The source item of the quest can be stored, or the player has it. -/
  storable : Quest → Bool
  /-- The player has the spell, reputation or money of an objective. -/
  provided : QuestObjective → Bool
  /-- `GetItemCount` with the bank. -/
  itemCount : UInt32 → UInt32
  /-- The source item of the quest can be taken back. -/
  returnable : Quest → Bool
  /-- The player is in no raid group, or the quest is one for raids. -/
  allowedInRaid : Quest → Bool
  /-- The seconds left on the quest of the player who shares it. -/
  sharedTime : Option UInt32
  now : UInt32

namespace QuestLog

variable (log : QuestLog) (t : QuestTemplates) (env : QuestContext) (q : Quest)

def empty : QuestLog where
  slots := fun _ => ⟨0, false, false, 0⟩
  questStatus := fun _ => none
  objectiveStatus := fun _ => none
  rewardedQuests := ∅
  timedQuests := ∅
  dfQuests := ∅
  weeklyQuests := ∅
  monthlyQuests := ∅
  seasonalQuests := fun _ => ∅

def findQuestSlot (questId : UInt32) : Option (Fin maxQuestLogSize) :=
  (List.finRange maxQuestLogSize).find? fun i => (log.slots i).questId = questId

def changeSlot (i : Fin maxQuestLogSize) (f : QuestSlot → QuestSlot) : QuestLog :=
  { log with slots := update log.slots i (f (log.slots i)) }

def setQuestSlot (i : Fin maxQuestLogSize) (questId timer : UInt32) : QuestLog :=
  log.changeSlot i fun _ => ⟨questId, false, false, timer⟩

def changeSlotOf (questId : UInt32) (f : QuestSlot → QuestSlot) : QuestLog :=
  match log.findQuestSlot questId with
  | none => log
  | some i => log.changeSlot i f

def swapQuestSlot (i j : Fin maxQuestLogSize) : QuestLog :=
  { log with
    slots := update (update log.slots i (log.slots j)) j (log.slots i) }

def statusData (questId : UInt32) : QuestStatusData :=
  (log.questStatus questId).getD .new

def setStatusData (questId : UInt32) (d : QuestStatusData) : QuestLog :=
  { log with questStatus := update log.questStatus questId (some d) }

def getQuestStatus (questId : UInt32) : QuestStatus :=
  if questId = 0 then .none
  else
    match log.questStatus questId with
    | some d => d.status
    | none =>
      match t.getQuestTemplate questId with
      | some q =>
        if !q.isRepeatable && questId ∈ log.rewardedQuests then .rewarded else .none
      | none => .none

def setQuestStatus (questId : UInt32) (status : QuestStatus) : QuestLog :=
  match t.getQuestTemplate questId with
  | some _ => log.setStatusData questId { log.statusData questId with status := status }
  | none => log

def removeActiveQuest (questId : UInt32) : QuestLog :=
  { log with questStatus := update log.questStatus questId none }

def getQuestObjectiveCounter (objectiveId : UInt32) : UInt32 :=
  (log.objectiveStatus objectiveId).getD 0

def setCounter (objectiveId count : UInt32) : QuestLog :=
  { log with objectiveStatus := update log.objectiveStatus objectiveId (some count) }

/-- `m_questObjectiveStatus.insert`: a counter that is there stays. -/
def insertCounter (objectiveId : UInt32) : QuestLog :=
  match log.objectiveStatus objectiveId with
  | some _ => log
  | none => log.setCounter objectiveId 0

def satisfyQuestStatus : Bool := log.getQuestStatus t q.id = .none

def satisfyQuestTimed : Bool :=
  !(log.timedQuests ≠ ∅ && q.hasSpecialFlag questSpecialFlagsTimed)

/-- No slot is left for a daily quest: the search for one is commented out. -/
def satisfyQuestDay : Bool :=
  if !q.isDaily && !q.isDFQuest then true
  else if q.isDFQuest then log.dfQuests = ∅
  else false

def satisfyQuestWeek : Bool := !q.isWeekly || q.id ∉ log.weeklyQuests

def satisfyQuestMonth : Bool := !q.isMonthly || q.id ∉ log.monthlyQuests

def satisfyQuestSeasonal : Bool :=
  !q.isSeasonal || q.id ∉ log.seasonalQuests (t.getEventIdForQuest q)

def canTakeQuest : Bool :=
  env.eligible log q && log.satisfyQuestStatus t q && log.satisfyQuestTimed q &&
    log.satisfyQuestDay q && log.satisfyQuestWeek q && log.satisfyQuestMonth q &&
    log.satisfyQuestSeasonal t q

def satisfyQuestLog : Bool := (log.findQuestSlot 0).isSome

def canAddQuest : Bool := log.satisfyQuestLog && env.storable q

def objectiveMet (o : QuestObjective) : Bool :=
  match o.type with
  | .dummy => true
  | .spell | .factionRep | .factionRep2 | .money => env.provided o
  | _ => o.amount ≤ log.getQuestObjectiveCounter o.id

/-- What an incomplete quest lacks to be completed: nothing. -/
def requirementsMet (d : QuestStatusData) : Bool :=
  (!q.hasSpecialFlag questSpecialFlagsExplorationOrEvent || d.explored) &&
    (!q.hasSpecialFlag questSpecialFlagsTimed || d.timer ≠ 0) &&
    q.objectives.all (log.objectiveMet env)

def canCompleteQuest (questId : UInt32) : Bool :=
  match t.getQuestTemplate questId with
  | none => false
  | some q =>
    if !q.isRepeatable && questId ∈ log.rewardedQuests then false
    else if (t.isAutoComplete q || q.hasFlag questFlagsAutoComplete) && log.canTakeQuest t env q then
      true
    else
      match log.questStatus questId with
      | none => false
      | some d => d.status = .incomplete && log.requirementsMet env q d

def canSeeStartQuest : Bool :=
  env.visible log q && log.satisfyQuestDay q && log.satisfyQuestWeek q &&
    log.satisfyQuestMonth q && log.satisfyQuestSeasonal t q

def getQuestRewardStatus (questId : UInt32) : Bool :=
  match t.getQuestTemplate questId with
  | some q => !q.isRepeatable && questId ∈ log.rewardedQuests
  | none => false

def canRewardQuest (reward : UInt32) : Bool :=
  (q.isDFQuest || t.isAutoComplete q || q.hasFlag questFlagsAutoComplete ||
      log.getQuestStatus t q.id = .complete) &&
    log.satisfyQuestDay q && log.satisfyQuestWeek q && log.satisfyQuestMonth q &&
    log.satisfyQuestSeasonal t q && !log.getQuestRewardStatus t q.id && env.rewardable q reward

/-- `AddQuest` up to the source item: the status, and the counters that are missing. -/
def enterQuest : QuestLog :=
  q.objectives.foldl (fun log o => if o.type.isTracked then log.insertCounter o.id else log)
    (log.setStatusData q.id { log.statusData q.id with
      status := .incomplete
      explored := false })

def adjustQuestReqItemCount : QuestLog :=
  q.objectives.foldl (fun log o =>
    if o.type = .item then log.setCounter o.id (min (env.itemCount o.objectId) o.amount) else log) log

def limitTimeFor : UInt32 := env.sharedTime.getD q.limitTime

/-- `AddQuest` after the source item: item counters, timer and slot. -/
def logQuest (i : Fin maxQuestLogSize) : QuestLog :=
  let log := log.adjustQuestReqItemCount env q
  if q.hasSpecialFlag questSpecialFlagsTimed then
    ({ log with timedQuests := insert q.id log.timedQuests }.setStatusData q.id
      { log.statusData q.id with timer := limitTimeFor env q * 1000 }).setQuestSlot i q.id
        (env.now + limitTimeFor env q)
  else
    (log.setStatusData q.id { log.statusData q.id with timer := 0 }).setQuestSlot i q.id 0

def markComplete (questId : UInt32) : QuestLog :=
  if questId = 0 then log
  else (log.setQuestStatus t questId .complete).changeSlotOf questId fun s =>
    { s with complete := true }

def incompleteQuest (questId : UInt32) : QuestLog :=
  if questId = 0 then log
  else (log.setQuestStatus t questId .incomplete).changeSlotOf questId fun s =>
    { s with complete := false }

def removeTimedQuest (questId : UInt32) : QuestLog :=
  { log with timedQuests := log.timedQuests.erase questId }

/-- Which mark keeps the quest from being rewarded again before a reset. -/
def markRewarded : QuestLog :=
  if q.isDaily || q.isDFQuest then
    if q.isDFQuest then { log with dfQuests := insert q.id log.dfQuests } else log
  else if q.isWeekly then { log with weeklyQuests := insert q.id log.weeklyQuests }
  else if q.isMonthly then { log with monthlyQuests := insert q.id log.monthlyQuests }
  else if q.isSeasonal then
    { log with
      seasonalQuests := update log.seasonalQuests (t.getEventIdForQuest q)
        (insert q.id (log.seasonalQuests (t.getEventIdForQuest q))) }
  else log

/-- `RewardQuest` once the items are stored: the slot is cleared. -/
def clearRewardedSlot (questId : UInt32) : QuestLog :=
  log.changeSlotOf questId fun _ => ⟨0, false, false, 0⟩

/-- The end of `RewardQuest`: the marks are set, the status goes. -/
def concludeReward : QuestLog :=
  let log := (log.markRewarded t q).removeActiveQuest q.id
  { log with rewardedQuests := insert q.id log.rewardedQuests }

def finishReward : QuestLog := (log.clearRewardedSlot q.id).concludeReward t q

variable {log} {t} {env} {q} {i j : Fin maxQuestLogSize} {id : UInt32}

theorem findQuestSlot_isSome : (log.findQuestSlot id).isSome ↔ ∃ i, (log.slots i).questId = id := by
  simp [findQuestSlot]

theorem questId_of_findQuestSlot (found : log.findQuestSlot id = some i) :
    (log.slots i).questId = id := by
  simpa using List.find?_some found

theorem findQuestSlot_eq_none (missing : log.findQuestSlot id = none) (i : Fin maxQuestLogSize) :
    (log.slots i).questId ≠ id := by
  simpa using List.find?_eq_none.mp missing i (List.mem_finRange i)

theorem findQuestSlot_eq (held : (log.slots i).questId = id)
    (once : ∀ j, (log.slots j).questId = id → j = i) : log.findQuestSlot id = some i := by
  cases found : log.findQuestSlot id with
  | none => exact absurd held (findQuestSlot_eq_none found i)
  | some j => rw [once j (questId_of_findQuestSlot found)]

@[simp] theorem changeSlot_same (f : QuestSlot → QuestSlot) :
    (log.changeSlot i f).slots i = f (log.slots i) := by
  simp [changeSlot]

theorem changeSlot_other (f : QuestSlot → QuestSlot) (other : j ≠ i) :
    (log.changeSlot i f).slots j = log.slots j := by
  simp [changeSlot, Function.update_of_ne other]

theorem changeSlotOf_of_find (found : log.findQuestSlot id = some i) (f : QuestSlot → QuestSlot) :
    log.changeSlotOf id f = log.changeSlot i f := by
  simp [changeSlotOf, found]

theorem changeSlotOf_of_none (missing : log.findQuestSlot id = none)
    (f : QuestSlot → QuestSlot) : log.changeSlotOf id f = log := by
  simp [changeSlotOf, missing]

theorem setQuestStatus_of_template (found : t.getQuestTemplate id = some q) (status : QuestStatus) :
    log.setQuestStatus t id status =
      log.setStatusData id { log.statusData id with status := status } := by
  simp [setQuestStatus, found]

theorem markRewarded_keeps (t : QuestTemplates) (log : QuestLog) (q : Quest) :
    (log.markRewarded t q).slots = log.slots ∧
      (log.markRewarded t q).questStatus = log.questStatus ∧
      (log.markRewarded t q).objectiveStatus = log.objectiveStatus ∧
      (log.markRewarded t q).rewardedQuests = log.rewardedQuests ∧
      (log.markRewarded t q).timedQuests = log.timedQuests := by
  unfold markRewarded
  split
  · split <;> exact ⟨rfl, rfl, rfl, rfl, rfl⟩
  split
  · exact ⟨rfl, rfl, rfl, rfl, rfl⟩
  · split
    · exact ⟨rfl, rfl, rfl, rfl, rfl⟩
    · split <;> exact ⟨rfl, rfl, rfl, rfl, rfl⟩

@[simp] theorem setStatusData_same (d : QuestStatusData) :
    (log.setStatusData id d).questStatus id = some d := by
  simp [setStatusData]

theorem setStatusData_other (d : QuestStatusData) {other : UInt32} (apart : other ≠ id) :
    (log.setStatusData id d).questStatus other = log.questStatus other := by
  simp [setStatusData, Function.update_of_ne apart]

theorem statusData_of_some {d : QuestStatusData} (found : log.questStatus id = some d) :
    log.statusData id = d := by
  simp [statusData, found]

theorem getQuestObjectiveCounter_setCounter (objectiveId count key : UInt32) :
    (log.setCounter objectiveId count).getQuestObjectiveCounter key =
      if key = objectiveId then count else log.getQuestObjectiveCounter key := by
  unfold getQuestObjectiveCounter setCounter
  dsimp only
  rw [Function.update_apply]
  split <;> rfl

@[simp] theorem getQuestObjectiveCounter_insertCounter (objectiveId key : UInt32) :
    (log.insertCounter objectiveId).getQuestObjectiveCounter key =
      log.getQuestObjectiveCounter key := by
  unfold insertCounter
  split
  · rfl
  rename_i missing
  rw [getQuestObjectiveCounter_setCounter]
  split
  · rename_i same
    rw [same, getQuestObjectiveCounter, missing]
    rfl
  · rfl

theorem enterQuest_spec (log : QuestLog) (q : Quest) : (log.enterQuest q).slots = log.slots ∧
      (log.enterQuest q).rewardedQuests = log.rewardedQuests ∧
      (log.enterQuest q).questStatus = update log.questStatus q.id (some { log.statusData q.id with
          status := .incomplete
          explored := false }) ∧
      ∀ key, (log.enterQuest q).getQuestObjectiveCounter key = log.getQuestObjectiveCounter key := by
  refine List.foldlRecOn (motive := fun now : QuestLog => now.slots = log.slots ∧
      now.rewardedQuests = log.rewardedQuests ∧ now.questStatus = update log.questStatus q.id _ ∧
      ∀ key, now.getQuestObjectiveCounter key = log.getQuestObjectiveCounter key)
    q.objectives _ ⟨rfl, rfl, rfl, fun _ => rfl⟩ fun now same o _ => ?_
  split
  · have kept : (now.insertCounter o.id).slots = now.slots ∧
        (now.insertCounter o.id).rewardedQuests = now.rewardedQuests ∧
        (now.insertCounter o.id).questStatus = now.questStatus := by
      unfold insertCounter
      split <;> exact ⟨rfl, rfl, rfl⟩
    rw [kept.1, kept.2.1, kept.2.2]
    refine ⟨same.1, same.2.1, same.2.2.1, fun key => ?_⟩
    exact (getQuestObjectiveCounter_insertCounter o.id key).trans (same.2.2.2 key)
  · exact same

theorem adjustQuestReqItemCount_keeps (env : QuestContext) (q : Quest) (log : QuestLog) :
    (log.adjustQuestReqItemCount env q).slots = log.slots ∧
      (log.adjustQuestReqItemCount env q).questStatus = log.questStatus := by
  unfold adjustQuestReqItemCount
  induction q.objectives generalizing log with
  | nil => exact ⟨rfl, rfl⟩
  | cons o rest ih =>
    rw [List.foldl_cons]
    split
    · exact ih (log.setCounter o.id _)
    · exact ih log

theorem logQuest_stores (env : QuestContext) (q : Quest) (log : QuestLog)
    (i : Fin maxQuestLogSize) :
    (∃ timer, (log.logQuest env q i).slots = update log.slots i ⟨q.id, false, false, timer⟩) ∧
      ∃ timer, (log.logQuest env q i).questStatus = update log.questStatus q.id
        (some { log.statusData q.id with timer := timer }) := by
  obtain ⟨slots, status⟩ := adjustQuestReqItemCount_keeps env q log
  have data : (log.adjustQuestReqItemCount env q).statusData q.id = log.statusData q.id := by
    unfold statusData
    rw [status]
  unfold logQuest
  split
  · refine ⟨⟨_, congrArg (fun slots => update slots i _) slots⟩, limitTimeFor env q * 1000, ?_⟩
    exact congrArg₂ (fun m d => update m q.id
      (some { d with timer := limitTimeFor env q * 1000 })) status data
  · refine ⟨⟨_, congrArg (fun slots => update slots i _) slots⟩, 0, ?_⟩
    exact congrArg₂ (fun m d => update m q.id (some { d with timer := 0 })) status data

end QuestLog

end Sky548
