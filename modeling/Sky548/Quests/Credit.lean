import Sky548.Machine
import Sky548.Quests.Log

/-!
# Credit for quest objectives

Four functions of `Player` advance the counters of NPC, game object and player objectives; two of
them are the third, `QuestObjectiveSatisfy`, with an amount of one. Each goes through the slots of
the log and credits the first objective of an incomplete quest that is meant, and completes the
quest when nothing is missing.

Quests that ask for items or money are left to the item code.
-/

namespace Sky548.QuestLog

open Machine

variable (t : QuestTemplates) (env : QuestContext) (log : QuestLog)

def rewardQuest (q : Quest) : QuestLog := (log.removeTimedQuest q.id).finishReward t q

def completeQuest (questId : UInt32) : QuestLog :=
  match t.getQuestTemplate questId with
  | none => log.markComplete t questId
  | some q =>
    if q.hasFlag questFlagsTracking then (log.markComplete t questId).rewardQuest t q
    else log.markComplete t questId

def completeIfCan (questId : UInt32) : QuestLog :=
  if log.canCompleteQuest t env questId then log.completeQuest t questId else log

def addQuest (q : Quest) : QuestLog :=
  match log.findQuestSlot 0 with
  | none => log
  | some i => (log.enterQuest q).logQuest env q i

/-- What `HandleQuestgiverAcceptQuestOpcode` does for who asks a quest giver. -/
def acceptQuest (questId : UInt32) : QuestLog :=
  match t.getQuestTemplate questId with
  | none => log
  | some q =>
    if !log.canTakeQuest t env q then log
    else if !log.canAddQuest env q then log
    else (log.addQuest env q).completeIfCan t env questId

/-- `HandleQuestConfirmAccept`, for who was asked by a member of his raid. -/
def confirmAccept (questId : UInt32) : QuestLog :=
  match t.getQuestTemplate questId with
  | none => log
  | some q =>
    if !q.hasFlag questFlagsPartyAccept then log
    else if log.canAddQuest env q then log.addQuest env q else log

/-- `HandleQuestLogRemoveQuest` -/
def abandonQuest (i : Fin maxQuestLogSize) : QuestLog :=
  let questId := (log.slots i).questId
  if questId = 0 then log.setQuestSlot i 0 0
  else
    match t.getQuestTemplate questId with
    | none => (log.removeActiveQuest questId).setQuestSlot i 0 0
    | some q =>
      if !env.returnable q then log
      else if q.hasSpecialFlag questSpecialFlagsTimed then
        ((log.removeTimedQuest questId).removeActiveQuest questId).setQuestSlot i 0 0
      else (log.removeActiveQuest questId).setQuestSlot i 0 0

/-- `m_QuestStatus[questId]` on its own: a missing entry is made. -/
def touchStatus (questId : UInt32) : QuestLog := log.setStatusData questId (log.statusData questId)

/-- The loop over the objectives of one quest, to the first that is meant: the log with its counter
advanced, and the quest that may be complete now. -/
def creditFirst (meant : QuestObjective → Bool) (advance : QuestLog → QuestObjective → QuestLog)
    (q : Quest) : QuestLog × Option Quest :=
  match q.objectives.find? meant with
  | none => (log, none)
  | some o => (advance log o, some q)

def killedTurn (type : QuestObjectiveType) (meant : QuestObjective → Bool)
    (advance : QuestLog → QuestObjective → QuestLog) (i : Fin maxQuestLogSize) :
    QuestLog × Option Quest :=
  match t.getQuestTemplate (log.slots i).questId with
  | none => (log, none)
  | some q =>
    if q.getQuestObjectiveCountType type = 0 then (log, none)
    else
      let log := log.touchStatus q.id
      if (log.statusData q.id).status = .incomplete && env.allowedInRaid q then
        log.creditFirst meant advance q
      else (log, none)

/-- The end of a turn: what may be complete is completed. -/
def finishTurn (turn : QuestLog × Option Quest) : QuestLog :=
  match turn.2 with
  | none => turn.1
  | some q => turn.1.completeIfCan t env q.id

def meantMonster (entry : UInt32) (o : QuestObjective) : Bool :=
  o.type = .npc && o.objectId = entry

def advanceMonster (log : QuestLog) (o : QuestObjective) : QuestLog :=
  if log.getQuestObjectiveCounter o.id < o.amount then
    log.setCounter o.id (log.getQuestObjectiveCounter o.id + 1)
  else log

/-- `entry` is that of the creature, where the GUID leads to one. -/
def killedMonsterCredit (entry : UInt32) : QuestLog :=
  run (fun log i => finishTurn t env (log.killedTurn t env .npc (meantMonster entry) advanceMonster i))
    log (List.finRange maxQuestLogSize)

def meantPlayer (o : QuestObjective) : Bool := o.type = .player

/-- The counter is read under the objective's id and written under its object's. -/
def advancePlayer (log : QuestLog) (o : QuestObjective) : QuestLog :=
  if log.getQuestObjectiveCounter o.id < o.amount then
    log.setCounter o.objectId (log.getQuestObjectiveCounter o.id + 1)
  else log

def killedPlayerCredit : QuestLog :=
  run (fun log i => finishTurn t env (log.killedTurn t env .player meantPlayer advancePlayer i)) log
    (List.finRange maxQuestLogSize)

def meantObject (objectId : UInt32) (type : QuestObjectiveType) (o : QuestObjective) : Bool :=
  o.type = type && o.objectId = objectId

/-- What is to be added is what the counter is set to. -/
def advanceSatisfied (amount : UInt32) (log : QuestLog) (o : QuestObjective) : QuestLog :=
  let currentCounter := log.getQuestObjectiveCounter o.id
  log.setCounter o.id
    (if o.amount < currentCounter + amount then o.amount - currentCounter else amount)

def satisfyTurn (objectId amount : UInt32) (type : QuestObjectiveType)
    (i : Fin maxQuestLogSize) : QuestLog × Option Quest :=
  match t.getQuestTemplate (log.slots i).questId with
  | none => (log, none)
  | some q =>
    let log := log.touchStatus q.id
    if (log.statusData q.id).status ≠ .incomplete then (log, none)
    -- only a type other than 0 is looked up among the counts
    else if type ≠ .npc && q.getQuestObjectiveCountType type = 0 then (log, none)
    else log.creditFirst (meantObject objectId type) (advanceSatisfied amount) q

def questObjectiveSatisfy (objectId amount : UInt32) (type : QuestObjectiveType) : QuestLog :=
  run (fun log i => finishTurn t env (log.satisfyTurn t objectId amount type i)) log
    (List.finRange maxQuestLogSize)

def killCreditGO (entry : UInt32) : QuestLog := log.questObjectiveSatisfy t env entry 1 .go

def talkedToCreature (entry : UInt32) : QuestLog := log.questObjectiveSatisfy t env entry 1 .npc

end Sky548.QuestLog
