import Sky548.Quests.Calls
import Sky548.Quests.Counting

/-!
# How often a quest is rewarded

`RewardQuest` is reached from the reward handler and from the completion of tracking quests. What
keeps it from a second run are marks: the set of rewarded quests, for those that cannot be repeated,
and the sets of weekly, monthly and dungeon finder quests, which a reset empties.

A ledger records beside the player how often the reward of each quest began, ever and since each
reset.
-/

namespace Sky548

/-- What a quest may be rewarded once in: ever, or between two resets. -/
inductive RewardLimit
  | ever | daily | weekly | monthly
  | seasonal (event : UInt16)
  deriving DecidableEq

def RewardLimit.Of (t : QuestTemplates) (q : Quest) : RewardLimit → Prop
  | .ever => ¬ q.isRepeatable
  | .daily => q.isDFQuest
  | .weekly => q.isWeekly
  | .monthly => q.isMonthly
  | .seasonal event => q.isSeasonal ∧ t.getEventIdForQuest q = event

instance (t : QuestTemplates) (q : Quest) : ∀ limit : RewardLimit, Decidable (limit.Of t q)
  | .ever => inferInstanceAs (Decidable (¬ q.isRepeatable))
  | .daily => inferInstanceAs (Decidable (q.isDFQuest = true))
  | .weekly => inferInstanceAs (Decidable (q.isWeekly = true))
  | .monthly => inferInstanceAs (Decidable (q.isMonthly = true))
  | .seasonal event =>
    inferInstanceAs (Decidable (q.isSeasonal = true ∧ t.getEventIdForQuest q = event))

namespace QuestLog

def marks (log : QuestLog) : RewardLimit → Finset UInt32
  | .ever => log.rewardedQuests
  | .daily => log.dfQuests
  | .weekly => log.weeklyQuests
  | .monthly => log.monthlyQuests
  | .seasonal event => log.seasonalQuests event

/-- `ResetDailyQuestStatus` and its like; nobody resets the rewarded quests. -/
def reset (log : QuestLog) : RewardLimit → QuestLog
  | .ever => log
  | .daily => { log with dfQuests := ∅ }
  | .weekly => { log with weeklyQuests := ∅ }
  | .monthly => { log with monthlyQuests := ∅ }
  | .seasonal event => { log with seasonalQuests := Function.update log.seasonalQuests event ∅ }

end QuestLog

def QuestCall.rewards (id : UInt32) : QuestCall → Bool
  | .rewarding q _ => q.id = id
  | .looping .. => false

def QuestCall.begins (id : UInt32) : QuestCall → Bool
  | .rewarding q stage => q.id = id && stage = .taking
  | .looping .. => false

namespace QuestPlayer

open QuestLog

/-- The packets, the credits and the resets, and what comes in between. -/
inductive Event
  | accept (env : QuestContext) (questId : UInt32)
  | confirmAccept (env : QuestContext) (questId : UInt32)
  | requestReward (env : QuestContext) (questId : UInt32)
  | chooseReward (env : QuestContext) (questId reward : UInt32)
  | swap (i j : Fin maxQuestLogSize)
  | abandon (env : QuestContext) (i : Fin maxQuestLogSize)
  | credit (loop : LogLoop)
  | areaExplored (env : QuestContext) (questId : UInt32)
  | reset (limit : RewardLimit)
  | itemAdded (env : QuestContext) (entry count : UInt32)
  | itemRemoved (entry count : UInt32)
  | moneyChanged (count : UInt32)
  | resume (env : QuestContext)

variable (t : QuestTemplates)

/-- What is taken up when nothing waits. -/
def answer (s : QuestPlayer) : Event → QuestPlayer
  | .accept env questId => s.acceptQuest t env questId
  | .confirmAccept env questId => s.confirmAccept t env questId
  | .requestReward env questId => s.requestReward t env questId
  | .chooseReward env questId reward => s.chooseReward t env questId reward
  | .swap i j => s.swapQuest i j
  | .abandon env i => s.abandonQuest t env i
  | .credit loop => s.startLoop loop
  | .areaExplored env questId => s.areaExplored t env questId
  | .reset limit => { s with log := s.log.reset limit }
  | _ => s

def react (s : QuestPlayer) (e : Event) : QuestPlayer :=
  match e with
  | .itemAdded env entry count => s.itemAdded t env entry count
  | .itemRemoved entry count => s.itemRemoved entry count
  | .moneyChanged count => s.moneyChanged count
  | .resume env => s.resume t env
  | e => if s.isIdle then s.answer t e else s

def pending (s : QuestPlayer) (id : UInt32) : Nat := s.calls.countP (QuestCall.rewards id)

def begun (s : QuestPlayer) (id : UInt32) : Nat := s.calls.countP (QuestCall.begins id)

end QuestPlayer

/-- The player, and how often the reward of a quest has begun. -/
structure RewardLedger where
  player : QuestPlayer
  rewards : RewardLimit → UInt32 → Nat

namespace RewardLedger

open QuestPlayer

def resets (s : QuestPlayer) (e : Event) (limit : RewardLimit) : Bool :=
  match e with
  | .reset limit' => s.isIdle && limit' = limit && limit ≠ .ever
  | _ => false

def step (t : QuestTemplates) (l : RewardLedger) (e : Event) : RewardLedger where
  player := l.player.react t e
  rewards := fun limit id =>
    (if resets l.player e limit then 0 else l.rewards limit id) +
      ((l.player.react t e).begun id - l.player.begun id)

/-- No quest is rewarded more often than it may be. -/
def AtMostOnce (t : QuestTemplates) (l : RewardLedger) : Prop :=
  ∀ id q limit, t.getQuestTemplate id = some q → limit.Of t q → l.rewards limit id ≤ 1

end RewardLedger

end Sky548
