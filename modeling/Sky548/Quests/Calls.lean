import Sky548.ObjectGuid
import Sky548.Quests.Credit

/-!
# Quest code that calls itself

An item that a quest gives or takes, or its money, comes back to the quest code:
`ItemAddedQuestCheck`, `ItemRemovedQuestCheck` and `MoneyChanged` complete quests or make them
incomplete again, and completing a tracking quest rewards it on the spot. So the code is modelled
with its pending calls. `request` is the packet being served, as far as it waits for an item to be
stored or taken away; `calls` are the rewards and the loops over the log under way, innermost first.
-/

namespace Sky548

open QuestLog

namespace QuestLog

variable (t : QuestTemplates) (env : QuestContext) (log : QuestLog)

def meantItem (entry : UInt32) (o : QuestObjective) : Bool :=
  o.type = .item && o.objectId = entry

/-- What is added is cut to 16 bits. -/
def advanceItem (count : UInt32) (log : QuestLog) (o : QuestObjective) : QuestLog :=
  let currentCounter := log.getQuestObjectiveCounter o.id
  if currentCounter < o.amount then
    let addCount := if currentCounter + count ≤ o.amount then count else o.amount - currentCounter
    log.setCounter o.id (currentCounter + addCount.toUInt16.toUInt32)
  else log

def itemAddedLoop (entry count : UInt32) :
    List (Fin maxQuestLogSize) → QuestLog → QuestLog × Option Quest
  | [], log => (log, none)
  | i :: rest, log =>
    let questId := (log.slots i).questId
    if questId = 0 then itemAddedLoop entry count rest log
    else
      let log := log.touchStatus questId
      if (log.statusData questId).status ≠ .incomplete then itemAddedLoop entry count rest log
      else
        match t.getQuestTemplate questId with
        | none => itemAddedLoop entry count rest log
        | some q =>
          if q.getQuestObjectiveCountType .item = 0 then itemAddedLoop entry count rest log
          else
            match q.objectives.find? (meantItem entry) with
            | none => itemAddedLoop entry count rest log
            | some o => (advanceItem count log o, some q)

/-- The counter of an item, after `count` have gone. -/
def removeItems (count : UInt32) (complete : Bool) (log : QuestLog) (q : Quest)
    (o : QuestObjective) : QuestLog :=
  let currentCounter :=
    if complete then env.itemCount o.objectId else log.getQuestObjectiveCounter o.id
  if currentCounter < o.amount then
    -- with a counter below the amount the removed items are what is gone
    let remainingItems := count.toUInt16.toUInt32
    (log.setCounter o.id
      (if currentCounter ≤ remainingItems then 0 else currentCounter - remainingItems)).incompleteQuest
        t q.id
  else log

def itemRemovedTurn (entry count : UInt32) (log : QuestLog) (i : Fin maxQuestLogSize) :
    QuestLog :=
  let questId := (log.slots i).questId
  if questId = 0 then log
  else
    let log := log.touchStatus questId
    match t.getQuestTemplate questId with
    | none => log
    | some q =>
      if q.getQuestObjectiveCountType .item = 0 then log
      else
        match q.objectives.find? (meantItem entry) with
        | none => log
        | some o =>
          removeItems t env count ((log.statusData questId).status = .complete) log q o

/-- A slot's turn in `MoneyChanged`; a quest has one objective of money at most. -/
def moneyTurn (count : UInt32) (i : Fin maxQuestLogSize) : QuestLog × Option Quest :=
  match t.getQuestTemplate (log.slots i).questId with
  | none => (log, none)
  | some q =>
    if q.getQuestObjectiveCountType .money = 0 then (log, none)
    else
      let log := log.touchStatus q.id
      match q.objectives.find? fun o => o.type = .money with
      | none => (log, none)
      | some o =>
        match (log.statusData q.id).status with
        | .incomplete => if o.amount ≤ count then (log, some q) else (log, none)
        | .complete => if count < o.amount then (log.incompleteQuest t q.id, none) else (log, none)
        | _ => (log, none)

theorem removeItems_cases (t : QuestTemplates) (env : QuestContext) (count : UInt32)
    (complete : Bool) (log : QuestLog) (q : Quest) (o : QuestObjective) :
    removeItems t env count complete log q o = log ∨
      (complete = false → log.getQuestObjectiveCounter o.id < o.amount) ∧
        ∃ c, removeItems t env count complete log q o =
          (log.setCounter o.id c).incompleteQuest t q.id := by
  unfold removeItems
  by_cases lacks : (if complete then env.itemCount o.objectId
      else log.getQuestObjectiveCounter o.id) < o.amount
  · rw [if_pos lacks]
    refine Or.inr ⟨?_, _, rfl⟩
    rintro rfl
    exact lacks
  · rw [if_neg lacks]
    exact Or.inl rfl

end QuestLog

/-- How far `RewardQuest` is: it takes items and money, stores the reward, and pays. -/
inductive RewardStage
  | taking | storing | paying
  deriving DecidableEq

/-- The loops over the log in which quests are completed or made incomplete. -/
inductive LogLoop
  | killedMonster (entry : UInt32)
  | killedPlayer
  | satisfy (objectId amount : UInt32) (type : QuestObjectiveType)
  | money (count : UInt32)
  | itemRemoved (entry count : UInt32)

def LogLoop.turn (t : QuestTemplates) (env : QuestContext) (log : QuestLog)
    (i : Fin maxQuestLogSize) : LogLoop → QuestLog × Option Quest
  | .killedMonster entry => log.killedTurn t env .npc (meantMonster entry) advanceMonster i
  | .killedPlayer => log.killedTurn t env .player meantPlayer advancePlayer i
  | .satisfy objectId amount type => log.satisfyTurn t objectId amount type i
  | .money count => log.moneyTurn t count i
  | .itemRemoved entry count => (itemRemovedTurn t env entry count log i, none)

inductive QuestCall
  | rewarding (q : Quest) (stage : RewardStage)
  | looping (loop : LogLoop) (rest : List (Fin maxQuestLogSize))

/-- The packet being served: nothing waits, or `AddQuest` for its source item (with whether the
quest is completed at once, and whether `CanTakeQuest` held), or the abandoning of a quest for its
source item. -/
inductive QuestRequest
  | none
  | adding (q : Quest) (i : Fin maxQuestLogSize) (completes couldTake : Bool)
  | abandoning (questId : UInt32) (i : Fin maxQuestLogSize)

structure QuestPlayer where
  log : QuestLog
  request : QuestRequest
  calls : List QuestCall

namespace QuestPlayer

variable (t : QuestTemplates) (env : QuestContext) (s : QuestPlayer)

def Idle : Prop := s.request = .none ∧ s.calls = []

/-- `CompleteQuest`; a tracking quest is rewarded with it. -/
def completeQuest (questId : UInt32) : QuestPlayer :=
  match t.getQuestTemplate questId with
  | none => { s with log := s.log.markComplete t questId }
  | some q =>
    { s with
      log := s.log.markComplete t questId
      calls := if q.hasFlag questFlagsTracking then .rewarding q .taking :: s.calls else s.calls }

def completeIfCan (questId : UInt32) : QuestPlayer :=
  if s.log.canCompleteQuest t env questId then s.completeQuest t questId else s

/-- The log after a turn, and the quest to complete if it can be. -/
def afterTurn (turn : QuestLog × Option Quest) : QuestPlayer :=
  match turn.2 with
  | none => { s with log := turn.1 }
  | some q => { s with log := turn.1 }.completeIfCan t env q.id

def rewardQuest (q : Quest) : QuestPlayer :=
  { s with calls := .rewarding q .taking :: s.calls }

def startLoop (loop : LogLoop) : QuestPlayer :=
  { s with calls := .looping loop (List.finRange maxQuestLogSize) :: s.calls }

/-- `AddQuest` up to the source item. -/
def addQuest (q : Quest) (completes : Bool) : QuestPlayer :=
  match s.log.findQuestSlot 0 with
  | none => s
  | some i =>
    { s with
      log := s.log.enterQuest q
      request := .adding q i completes (s.log.canTakeQuest t env q) }

/-- What the packet does when the source item is stored or taken away. -/
def resumeRequest : QuestPlayer :=
  match s.request with
  | .none => s
  | .adding q i completes _ =>
    let s := { s with
      log := s.log.logQuest env q i
      request := .none }
    if completes then s.completeIfCan t env q.id else s
  | .abandoning questId i =>
    let timed :=
      (t.getQuestTemplate questId).any fun q => q.hasSpecialFlag questSpecialFlagsTimed
    let log := if timed then s.log.removeTimedQuest questId else s.log
    { s with
      log := (log.removeActiveQuest questId).setQuestSlot i 0 0
      request := .none }

def resume : QuestPlayer :=
  match s.calls with
  | .rewarding q .taking :: rest =>
    { s with
      log := s.log.removeTimedQuest q.id
      calls := .rewarding q .storing :: rest }
  | .rewarding q .storing :: rest =>
    { s with
      log := s.log.clearRewardedSlot q.id
      calls := .rewarding q .paying :: rest }
  | .rewarding q .paying :: rest =>
    { s with
      log := s.log.concludeReward t q
      calls := rest }
  | .looping _ [] :: rest => { s with calls := rest }
  | .looping loop (i :: slots) :: rest =>
    { s with calls := .looping loop slots :: rest }.afterTurn t env (loop.turn t env s.log i)
  | [] => s.resumeRequest t env

/-- Items are stored for a source item or a reward, and for anybody in between. -/
def storesItems : Bool :=
  match s.calls, s.request with
  | .rewarding _ .storing :: _, _ => true
  | [], .none => true
  | [], .adding .. => true
  | _, _ => false

def takesItems : Bool :=
  match s.calls, s.request with
  | .rewarding _ .taking :: _, _ => true
  | [], .none => true
  | [], .abandoning .. => true
  | _, _ => false

def movesMoney : Bool :=
  match s.calls, s.request with
  | .rewarding _ .taking :: _, _ => true
  | .rewarding _ .paying :: _, _ => true
  | [], .none => true
  | _, _ => false

def itemAdded (entry count : UInt32) : QuestPlayer :=
  if s.storesItems then
    s.afterTurn t env (itemAddedLoop t entry count (List.finRange maxQuestLogSize) s.log)
  else s

def itemRemoved (entry count : UInt32) : QuestPlayer :=
  if s.takesItems then s.startLoop (.itemRemoved entry count) else s

def moneyChanged (count : UInt32) : QuestPlayer :=
  if s.movesMoney then s.startLoop (.money count) else s

def isIdle : Bool :=
  match s.calls, s.request with
  | [], .none => true
  | _, _ => false

/-- `HandleQuestgiverAcceptQuestOpcode`; the quest that is taken automatically, when it
is pushed, asked for or follows another, goes through the same tests. -/
def acceptQuest (questId : UInt32) : QuestPlayer :=
  match t.getQuestTemplate questId with
  | none => s
  | some q =>
    if !s.log.canTakeQuest t env q then s
    else if !s.log.canAddQuest env q then s
    else s.addQuest t env q true

/-- `HandleQuestConfirmAccept`, for who was asked by a member of his raid. -/
def confirmAccept (questId : UInt32) : QuestPlayer :=
  match t.getQuestTemplate questId with
  | none => s
  | some q =>
    if !q.hasFlag questFlagsPartyAccept then s
    else if s.log.canAddQuest env q then s.addQuest t env q false else s

def swapQuest (i j : Fin maxQuestLogSize) : QuestPlayer :=
  if i = j then s else { s with log := s.log.swapQuestSlot i j }

/-- `HandleQuestLogRemoveQuest` -/
def abandonQuest (i : Fin maxQuestLogSize) : QuestPlayer :=
  let questId := (s.log.slots i).questId
  if questId = 0 then { s with log := s.log.setQuestSlot i 0 0 }
  else if (t.getQuestTemplate questId).any fun q => !env.returnable q then s
  else { s with request := .abandoning questId i }

def requestReward (questId : UInt32) : QuestPlayer := s.completeIfCan t env questId

attribute [local instance] lawfulBEqUInt32 in
/-- `HandleQuestgiverChooseRewardOpcode`, for who stands where the quest ends. -/
def chooseReward (questId reward : UInt32) : QuestPlayer :=
  match t.getQuestTemplate questId with
  | none => s
  | some q =>
    if reward ∉ q.rewardChoiceItemId then s
    else if (!s.log.canSeeStartQuest t env q && s.log.getQuestStatus t questId = .none) ||
        (s.log.getQuestStatus t questId ≠ .complete && !t.isAutoComplete q) then s
    else if s.log.canRewardQuest t env q reward then s.rewardQuest q else s

def areaExplored (questId : UInt32) : QuestPlayer :=
  let log :=
    if questId ≠ 0 && (s.log.findQuestSlot questId).isSome then
      s.log.setStatusData questId { s.log.statusData questId with explored := true }
    else s.log
  { s with log := log }.completeIfCan t env questId

/-- `FailQuest`; the items that go are taken away after it. -/
def failQuest (questId : UInt32) : QuestPlayer :=
  match t.getQuestTemplate questId with
  | none => s
  | some q =>
    let log := (s.log.setQuestStatus t questId .failed).changeSlotOf questId fun slot =>
      { slot with
        fail := true
        timer := 1 }
    if q.hasSpecialFlag questSpecialFlagsTimed then
      { s with
        log := (log.removeTimedQuest questId).setStatusData questId
          { log.statusData questId with timer := 0 } }
    else { s with log := log }

end QuestPlayer

end Sky548
