import Sky548.Quests.Consistency
import Sky548.Quests.Progress

/-!
# Operations on the quest log

What begins an operation and what goes on with it keeps the invariant of
`Consistency`; nobody gets a slot but the quest that is being added. So the stores
agree whenever nothing waits, in every run of sound operations.
-/

namespace Sky548.QuestPlayer

open List

open Machine QuestLog

variable {t : QuestTemplates} {s after : QuestPlayer} {log : QuestLog} {id : UInt32} {q : Quest}

theorem SameRewards.of_iff (same : ∀ q stage, QuestCall.rewarding q stage ∈ after.calls ↔
    QuestCall.rewarding q stage ∈ s.calls) : SameRewards s after where
  kept := fun q stage member => ⟨stage, (same q stage).mpr member⟩
  back := fun q stage member => ⟨stage, (same q stage).mp member, fun is => is⟩

theorem sameRewards_startLoop (s : QuestPlayer) (loop : LogLoop) :
    SameRewards s (s.startLoop loop) := by
  refine SameRewards.of_iff fun q stage => ?_
  simp [startLoop]

variable {slots : List (Fin maxQuestLogSize)} {rest : List QuestCall}

theorem sameRewards_of_ended {loop : LogLoop} (calls : s.calls = .looping loop slots :: rest)
    (later : after.calls = rest) : SameRewards s after := by
  refine SameRewards.of_iff fun q stage => ?_
  simp [calls, later]

theorem sameRewards_of_turned {loop : LogLoop} {slots' : List (Fin maxQuestLogSize)}
    (calls : s.calls = .looping loop slots :: rest)
    (later : after.calls = .looping loop slots' :: rest) : SameRewards s after := by
  refine SameRewards.of_iff fun q stage => ?_
  simp [calls, later]

theorem sameRewards_of_taken (calls : s.calls = .rewarding q .taking :: rest)
    (later : after.calls = .rewarding q .storing :: rest) : SameRewards s after where
  kept := by
    intro q' stage member
    rw [calls] at member
    rw [later]
    rcases List.mem_cons.mp member with this | before
    · cases this
      exact ⟨.storing, mem_cons_self ..⟩
    · exact ⟨stage, mem_cons_of_mem _ before⟩
  back := by
    intro q' stage member
    rw [later] at member
    rw [calls]
    rcases List.mem_cons.mp member with this | before
    · cases this
      exact ⟨.taking, mem_cons_self .., nofun⟩
    · exact ⟨stage, mem_cons_of_mem _ before, fun is => is⟩

theorem Inv.notAbandoning_of_call {call : QuestCall} (inv : Inv t s) (member : call ∈ s.calls)
    (other : ∀ entry count rest, call ≠ .looping (.itemRemoved entry count) rest) (id : UInt32)
    (i : Fin maxQuestLogSize) : s.request ≠ .abandoning id i := by
  intro abandoning
  obtain ⟨entry, count, rest, is⟩ := (inv.abandons id i abandoning).2.2 call member
  exact other entry count rest is

theorem idle_of_isIdle (idle : s.isIdle) : s.Idle := by
  unfold isIdle at idle
  split at idle
  · rename_i calls request
    exact ⟨request, calls⟩
  · cases idle

theorem notAdds_of_idle (idle : s.Idle) (id : UInt32) : ¬ s.Adds id := by
  rintro ⟨q, i, completes, couldTake, adding, -⟩
  rw [idle.1] at adding
  cases adding

theorem notAbandoning_of_idle (idle : s.Idle) (id : UInt32) (i : Fin maxQuestLogSize) :
    s.request ≠ .abandoning id i := by
  rw [idle.1]
  exact nofun

theorem swapQuestSlot_slots (log : QuestLog) (i j a : Fin maxQuestLogSize) :
    (log.swapQuestSlot i j).slots a = log.slots (Equiv.swap i j a) := by
  unfold swapQuestSlot
  dsimp only
  rw [Equiv.swap_apply_def, Function.update_apply, Function.update_apply]
  by_cases atJ : a = j
  · rw [if_pos atJ]
    split
    · rename_i atI
      rw [← atI, atJ]
    · rfl
  · rw [if_neg atJ, if_neg atJ]
    split <;> rfl

theorem Inv.swapQuest (inv : Inv t s) (idle : s.Idle) (i j : Fin maxQuestLogSize) :
    Inv t (s.swapQuest i j) ∧ NoNew s (s.swapQuest i j) := by
  unfold QuestPlayer.swapQuest
  split
  · exact ⟨inv, noNew_of_ids fun _ => rfl⟩
  have inLog : ∀ id, (s.log.swapQuestSlot i j).InLog id ↔ s.log.InLog id := by
    intro id
    constructor
    · rintro ⟨a, held⟩
      rw [swapQuestSlot_slots] at held
      exact ⟨_, held⟩
    · rintro ⟨a, held⟩
      refine ⟨Equiv.swap i j a, ?_⟩
      rw [swapQuestSlot_slots, Equiv.swap_apply_self]
      exact held
  have consistent := inv.consistent idle
  refine ⟨inv_of_consistent idle ⟨?_, ?_, ?_⟩ ?_, fun id _ => (inLog id).mp⟩
  · intro a b used twice
    rw [swapQuestSlot_slots] at used
    rw [swapQuestSlot_slots, swapQuestSlot_slots] at twice
    exact (Equiv.swap i j).injective (consistent.once _ _ used twice)
  · exact fun id used => (inLog id).trans (consistent.listed id used)
  · intro a d used entry
    rw [swapQuestSlot_slots] at used entry ⊢
    exact consistent.shown _ d used entry
  · intro a used
    rw [swapQuestSlot_slots] at used ⊢
    exact inv.known _ used

theorem Inv.abandonQuest (inv : Inv t s) (env : QuestContext) (idle : s.Idle)
    (i : Fin maxQuestLogSize) :
    Inv t (s.abandonQuest t env i) ∧ NoNew s (s.abandonQuest t env i) := by
  have same : NoNew s s := noNew_of_ids fun _ => rfl
  unfold QuestPlayer.abandonQuest
  dsimp only
  split
  · rename_i empty
    -- only the bits and the timer of an empty slot change
    have at' : ∀ a, ((s.log.setQuestSlot i 0 0).slots a).questId = (s.log.slots a).questId := by
      intro a
      unfold setQuestSlot
      by_cases here : a = i
      · rw [here, changeSlot_same]
        exact empty.symm
      · rw [changeSlot_other _ here]
    have there : ∀ a, (s.log.slots a).questId ≠ 0 →
        (s.log.setQuestSlot i 0 0).slots a = s.log.slots a := by
      rintro a used
      exact changeSlot_other _ fun here => used (here ▸ empty)
    have consistent := inv.consistent idle
    refine ⟨inv_of_consistent idle ⟨?_, ?_, ?_⟩ ?_, noNew_of_ids at'⟩
    · intro a b used twice
      rw [at'] at used
      rw [at', at'] at twice
      exact consistent.once a b used twice
    · intro id used
      exact (exists_congr fun a => by rw [at']).trans (consistent.listed id used)
    · intro a d used entry
      rw [at'] at used entry
      rw [there a used]
      exact consistent.shown a d used entry
    · intro a used
      rw [at'] at used ⊢
      exact inv.known a used
  · rename_i used
    split
    · exact ⟨inv, same⟩
    obtain ⟨request, calls⟩ := idle
    refine ⟨⟨inv.once, inv.known, inv.entered, ?_, inv.shown, inv.rewards, nofun, ?_⟩, same⟩
    · intro id used' open'
      rcases inv.homed id used' open' with inLog | added | rewarded
      · exact Or.inl inLog
      · exact absurd added (notAdds_of_idle ⟨request, calls⟩ id)
      · exact Or.inr (Or.inr rewarded)
    · rintro id j ⟨⟩
      refine ⟨used, rfl, fun call member => ?_⟩
      rw [show s.calls = [] from calls] at member
      cases member

theorem Inv.acceptQuest (inv : Inv t s) (env : QuestContext) (idle : s.Idle) (questId : UInt32) :
    Inv t (s.acceptQuest t env questId) ∧ NoNew s (s.acceptQuest t env questId) := by
  have still : Inv t s ∧ NoNew s s := ⟨inv, noNew_of_ids fun _ => rfl⟩
  unfold QuestPlayer.acceptQuest
  rcases template : t.getQuestTemplate questId with _ | q
  · exact still
  dsimp only
  split
  · exact still
  rename_i can
  split
  · exact still
  · rw [Bool.not_eq_true, Bool.not_eq_false'] at can
    exact inv.addQuest env idle ((t.keyed template).symm ▸ template) can true

theorem Inv.confirmAccept (inv : Inv t s) (env : QuestContext) (idle : s.Idle) (questId : UInt32)
    (can : ∀ q, t.getQuestTemplate questId = some q → q.hasFlag questFlagsPartyAccept →
      s.log.canAddQuest env q → s.log.canTakeQuest t env q) :
    Inv t (s.confirmAccept t env questId) ∧ NoNew s (s.confirmAccept t env questId) := by
  have still : Inv t s ∧ NoNew s s := ⟨inv, noNew_of_ids fun _ => rfl⟩
  unfold QuestPlayer.confirmAccept
  rcases template : t.getQuestTemplate questId with _ | q
  · exact still
  dsimp only
  split
  · exact still
  rename_i party
  rw [Bool.not_eq_true, Bool.not_eq_false'] at party
  split
  · rename_i room
    exact inv.addQuest env idle ((t.keyed template).symm ▸ template)
      (can q template party room) false
  · exact still

theorem Inv.completeQuest_noNew (inv : Inv t s) (template : t.getQuestTemplate id = some q) :
    NoNew s (s.completeQuest t id) :=
  noNew_of_ids (completeQuest_ids template inv.once)

theorem setQuestStatus_of_unknown (missing : t.getQuestTemplate id = none) (log : QuestLog)
    (status : QuestStatus) : log.setQuestStatus t id status = log := by
  simp [setQuestStatus, missing]

section

variable (inv : Inv t s)

include inv

theorem Inv.unchanged_of_unknown (missing : t.getQuestTemplate id = none)
    (used : id ≠ 0) (status : QuestStatus) (f : QuestSlot → QuestSlot) :
    (s.log.setQuestStatus t id status).changeSlotOf id f = s.log := by
  rw [setQuestStatus_of_unknown missing]
  rcases found : s.log.findQuestSlot id with _ | i
  · exact changeSlotOf_of_none found f
  have held := questId_of_findQuestSlot found
  obtain ⟨q, template⟩ := inv.known i (held.symm ▸ used)
  rw [held, missing] at template
  cases template

theorem Inv.markComplete_of_unknown (missing : t.getQuestTemplate id = none) :
    s.log.markComplete t id = s.log := by
  unfold markComplete
  split
  · rfl
  · rename_i used
    exact inv.unchanged_of_unknown missing used .complete _

theorem Inv.incompleteQuest_of_unknown (missing : t.getQuestTemplate id = none) :
    s.log.incompleteQuest t id = s.log := by
  unfold QuestLog.incompleteQuest
  split
  · rfl
  · rename_i used
    exact inv.unchanged_of_unknown missing used .incomplete _

theorem Inv.serve (op : Operation) (idle : s.Idle) (sound : s.Sound t op) :
    Inv t (s.serve t op) ∧ NoNew s (s.serve t op) := by
  have still : Inv t s ∧ NoNew s s := ⟨inv, noNew_of_ids fun _ => rfl⟩
  have notAdded := notAdds_of_idle idle
  have notAbandoning := notAbandoning_of_idle idle
  cases op with
  | accept env questId => exact inv.acceptQuest env idle questId
  | confirmAccept env questId => exact inv.confirmAccept env idle questId sound
  | swap i j => exact inv.swapQuest idle i j
  | abandon env i => exact inv.abandonQuest env idle i
  | complete questId =>
    show Inv t (s.completeQuest t questId) ∧ NoNew s (s.completeQuest t questId)
    cases template : t.getQuestTemplate questId with
    | none =>
      simp only [QuestPlayer.completeQuest, template, inv.markComplete_of_unknown template]
      exact still
    | some q =>
      exact ⟨inv.completeQuest template (notAdded questId) notAbandoning (sound q template),
        inv.completeQuest_noNew template⟩
  | incomplete questId =>
    show Inv t { s with log := s.log.incompleteQuest t questId } ∧
      NoNew s { s with log := s.log.incompleteQuest t questId }
    cases template : t.getQuestTemplate questId with
    | none =>
      rw [inv.incompleteQuest_of_unknown template]
      exact still
    | some q =>
      have before := sound q template
      have home : s.log.InLog questId ∨ s.UnderReward questId := by
        rcases before with incomplete | complete
        · exact inv.home (t.ne_zero template) incomplete (Or.inl rfl) (notAdded questId)
        · exact inv.home (t.ne_zero template) complete (Or.inr (Or.inl rfl)) (notAdded questId)
      exact ⟨inv.incompleteQuest template (notAdded questId) home fun _ => before,
        noNew_of_ids (incompleteQuest_restated template inv.once).ids⟩
  | fail questId =>
    show Inv t (s.failQuest t questId) ∧ NoNew s (s.failQuest t questId)
    cases template : t.getQuestTemplate questId with
    | none =>
      simp only [QuestPlayer.failQuest, template]
      exact still
    | some q => exact inv.failQuest template (notAdded questId) (sound q template)
  | reward questId =>
    unfold QuestPlayer.serve
    dsimp only
    cases template : t.getQuestTemplate questId with
    | none => exact still
    | some q =>
      exact ⟨inv.rewardQuest ((t.keyed template).symm ▸ template) (notAdded q.id) notAbandoning,
        noNew_of_ids fun _ => rfl⟩
  | itemAdded env entry count => exact still
  | itemRemoved entry count => exact still
  | moneyChanged count => exact still
  | resume env => exact still

theorem Inv.notAbandoning_of_stores (stores : s.storesItems) (id : UInt32)
    (i : Fin maxQuestLogSize) : s.request ≠ .abandoning id i := by
  unfold storesItems at stores
  split at stores
  · rename_i calls
    exact inv.notAbandoning_of_rewarding calls id i
  · rename_i request
    rw [request]
    exact nofun
  · rename_i request
    rw [request]
    exact nofun
  · cases stores

theorem Inv.notAbandoning_of_moves (moves : s.movesMoney) (id : UInt32)
    (i : Fin maxQuestLogSize) : s.request ≠ .abandoning id i := by
  unfold movesMoney at moves
  split at moves
  · rename_i calls
    exact inv.notAbandoning_of_rewarding calls id i
  · rename_i calls
    exact inv.notAbandoning_of_rewarding calls id i
  · rename_i request
    rw [request]
    exact nofun
  · cases moves

theorem Inv.itemAdded (env : QuestContext) (entry count : UInt32) :
    Inv t (s.itemAdded t env entry count) ∧ NoNew s (s.itemAdded t env entry count) := by
  unfold QuestPlayer.itemAdded
  split
  · rename_i stores
    exact inv.afterTurn env (quiet_itemAddedLoop inv.entered entry count _)
      (inv.notAbandoning_of_stores stores)
  · exact ⟨inv, noNew_of_ids fun _ => rfl⟩

theorem Inv.itemRemoved (entry count : UInt32) :
    Inv t (s.itemRemoved entry count) ∧ NoNew s (s.itemRemoved entry count) := by
  unfold QuestPlayer.itemRemoved
  split
  · refine ⟨inv.of_same rfl (sameRewards_startLoop s _) ?_ rfl rfl, noNew_of_ids fun _ => rfl⟩
    intro id i _ call member
    rcases List.mem_cons.mp member with this | before
    · exact Or.inr ⟨entry, count, _, this⟩
    · exact Or.inl before
  · exact ⟨inv, noNew_of_ids fun _ => rfl⟩

theorem Inv.moneyChanged (count : UInt32) :
    Inv t (s.moneyChanged count) ∧ NoNew s (s.moneyChanged count) := by
  unfold QuestPlayer.moneyChanged
  split
  · rename_i moves
    refine ⟨inv.of_same rfl (sameRewards_startLoop s _) ?_ rfl rfl, noNew_of_ids fun _ => rfl⟩
    exact fun id i abandoning => absurd abandoning (inv.notAbandoning_of_moves moves id i)
  · exact ⟨inv, noNew_of_ids fun _ => rfl⟩

end

/-- A quest that gets a slot is the one that is being added. -/
def OnlyAdds (s after : QuestPlayer) : Prop :=
  ∀ id, id ≠ 0 → after.log.InLog id → s.log.InLog id ∨ s.Adds id

theorem NoNew.onlyAdds (noNew : NoNew s after) : OnlyAdds s after :=
  fun id used held => Or.inl (noNew id used held)

theorem Inv.resumeRequest (inv : Inv t s) (env : QuestContext) :
    Inv t (s.resumeRequest t env) ∧ OnlyAdds s (s.resumeRequest t env) := by
  unfold QuestPlayer.resumeRequest
  cases request : s.request with
  | none => exact ⟨inv, (noNew_of_ids fun _ => rfl : NoNew s s).onlyAdds⟩
  | adding q i completes couldTake =>
    dsimp only
    have added := inv.added env request
    obtain ⟨template, -, out, ⟨d, entry, incomplete⟩, -⟩ := inv.adds q i completes couldTake request
    obtain ⟨⟨timer, slots⟩, time, status⟩ := logQuest_stores env q s.log i
    have held : ((s.log.logQuest env q i).slots i).questId = q.id := by
      rw [slots, Function.update_self]
    have only : ∀ id, (s.log.logQuest env q i).InLog id → s.log.InLog id ∨ s.Adds id := by
      rintro id ⟨j, heldJ⟩
      by_cases here : j = i
      · rw [here, held] at heldJ
        exact Or.inr ⟨q, i, completes, couldTake, request, heldJ⟩
      · rw [slots, Function.update_of_ne here] at heldJ
        exact Or.inl ⟨j, heldJ⟩
    split
    · obtain ⟨kept, noNew⟩ := added.completeIfCan env template ⟨i, held⟩ nofun
        ⟨_, (congrFun status q.id).trans (Function.update_self ..), by
          rw [statusData_of_some entry]
          exact incomplete⟩
      exact ⟨kept, fun id used inLog => only id (noNew id used inLog)⟩
    · exact ⟨added, fun id _ => only id⟩
  | abandoning questId i =>
    dsimp only
    split
    · obtain ⟨kept, noNew⟩ := inv.abandoned request
        (rfl : (s.log.removeTimedQuest questId).slots = s.log.slots) rfl
      exact ⟨kept, noNew.onlyAdds⟩
    · obtain ⟨kept, noNew⟩ := inv.abandoned request (rfl : s.log.slots = s.log.slots) rfl
      exact ⟨kept, noNew.onlyAdds⟩

theorem Inv.loopTurn (inv : Inv t s) (env : QuestContext) {loop : LogLoop} {i : Fin maxQuestLogSize}
    (calls : s.calls = .looping loop (i :: slots) :: rest) (spared : s.SparesFailed t) :
    Inv t ({ s with calls := .looping loop slots :: rest }.afterTurn t env
        (loop.turn t env s.log i)) ∧
      NoNew s ({ s with calls := .looping loop slots :: rest }.afterTurn t env
        (loop.turn t env s.log i)) := by
  have same : SameRewards s { s with calls := .looping loop slots :: rest } :=
    sameRewards_of_turned calls rfl
  have turned : Inv t { s with calls := .looping loop slots :: rest } := by
    refine inv.of_same rfl same ?_ rfl rfl
    intro id a abandoning call member
    rcases List.mem_cons.mp member with this | before
    · obtain ⟨entry, count, later, is⟩ := (inv.abandons id a abandoning).2.2
        (.looping loop (i :: slots)) (calls ▸ mem_cons_self ..)
      cases is
      exact Or.inr ⟨entry, count, slots, this⟩
    · exact Or.inl (calls ▸ mem_cons_of_mem _ before)
  have notAbandoning : (∀ entry count, loop ≠ .itemRemoved entry count) →
      ∀ id a, s.request ≠ .abandoning id a := by
    intro other id a
    refine inv.notAbandoning_of_call (calls ▸ mem_cons_self ..) ?_ id a
    rintro entry count later ⟨⟩
    exact other entry count rfl
  cases loop with
  | killedMonster entry =>
    exact turned.afterTurn env
      (turned.quiet_killedTurn env .npc (meantMonster entry) counters_advanceMonster i)
      (notAbandoning nofun)
  | killedPlayer =>
    exact turned.afterTurn env
      (turned.quiet_killedTurn env .player meantPlayer counters_advancePlayer i)
      (notAbandoning nofun)
  | satisfy objectId amount type =>
    exact turned.afterTurn env (turned.quiet_satisfyTurn objectId amount type i)
      (notAbandoning nofun)
  | money count => exact turned.moneyTurn env count i (notAbandoning nofun)
  | itemRemoved entry count =>
    refine turned.itemRemovedTurn env entry count i ?_
    intro q template failed notRewarded
    exact spared entry count i slots rest calls q template failed
      fun rewarded => notRewarded ((same.underReward_iff q.id).mpr rewarded)

theorem Inv.resume (inv : Inv t s) (env : QuestContext) (spared : s.SparesFailed t) :
    Inv t (s.resume t env) ∧ OnlyAdds s (s.resume t env) := by
  unfold QuestPlayer.resume
  split
  · rename_i q rest calls
    refine ⟨inv.of_same rfl (sameRewards_of_taken calls rfl) ?_ rfl rfl,
      (noNew_of_ids fun _ => rfl : NoNew s _).onlyAdds⟩
    exact fun id i abandoning => absurd abandoning (inv.notAbandoning_of_rewarding calls id i)
  · rename_i calls
    obtain ⟨kept, noNew⟩ := inv.clearRewardedSlot calls
    exact ⟨kept, noNew.onlyAdds⟩
  · rename_i calls
    obtain ⟨kept, noNew⟩ := inv.concludeReward calls
    exact ⟨kept, noNew.onlyAdds⟩
  · rename_i loop rest calls
    refine ⟨inv.of_same rfl (sameRewards_of_ended calls rfl) ?_ rfl rfl,
      (noNew_of_ids fun _ => rfl : NoNew s _).onlyAdds⟩
    exact fun id i _ call member => Or.inl (calls ▸ mem_cons_of_mem _ member)
  · rename_i calls
    obtain ⟨kept, noNew⟩ := inv.loopTurn env calls spared
    exact ⟨kept, noNew.onlyAdds⟩
  · exact inv.resumeRequest env

theorem Inv.stepped {op : Operation} (inv : Inv t s) (sound : s.Sound t op) :
    Inv t (step t s op) ∧ OnlyAdds s (step t s op) := by
  have served : Inv t (if s.isIdle then s.serve t op else s) ∧
      OnlyAdds s (if s.isIdle then s.serve t op else s) := by
    split
    · rename_i idle
      obtain ⟨kept, noNew⟩ := inv.serve op (idle_of_isIdle idle) sound
      exact ⟨kept, noNew.onlyAdds⟩
    · exact ⟨inv, (noNew_of_ids fun _ => rfl : NoNew s s).onlyAdds⟩
  cases op with
  | itemAdded env entry count =>
    obtain ⟨kept, noNew⟩ := inv.itemAdded env entry count
    exact ⟨kept, noNew.onlyAdds⟩
  | itemRemoved entry count =>
    obtain ⟨kept, noNew⟩ := inv.itemRemoved entry count
    exact ⟨kept, noNew.onlyAdds⟩
  | moneyChanged count =>
    obtain ⟨kept, noNew⟩ := inv.moneyChanged count
    exact ⟨kept, noNew.onlyAdds⟩
  | resume env => exact inv.resume env sound
  | accept env questId => exact served
  | confirmAccept env questId => exact served
  | swap i j => exact served
  | abandon env i => exact served
  | complete questId => exact served
  | incomplete questId => exact served
  | fail questId => exact served
  | reward questId => exact served

theorem Inv.proper {op : Operation} (inv : Inv t s) (only : OnlyAdds s (step t s op)) :
    s.Proper t op := by
  intro id used out held
  rcases only id used held with inLog | ⟨q, i, completes, couldTake, adding, ids⟩
  · exact absurd inLog out
  · obtain ⟨-, -, -, -, -, could⟩ := inv.adds q i completes couldTake adding
    rw [could] at adding
    exact ⟨q, i, completes, adding, ids⟩

/-- **The stores of the log agree** whenever nothing waits, and who enters the log could take the
quest, as long as statuses change from what they can change from. -/
theorem consistent_of_sound (t : QuestTemplates) (s : QuestPlayer) (idle : s.Idle)
    (consistent : s.log.Consistent) (known : Known t s.log) (ops : List Operation)
    (sound : EachStep (step t) (Sound t) s ops) :
    Throughout (step t) (fun s => s.Idle → s.log.Consistent) s ops ∧
      EachStep (step t) (Proper t) s ops := by
  have start : Inv t s := inv_of_consistent idle consistent known
  have keep : ∀ s op, Inv t s → s.Sound t op → Inv t (step t s op) :=
    fun s op inv sound => (inv.stepped sound).1
  refine ⟨(Throughout.of_eachStep start keep sound).mono fun s inv idle => inv.consistent idle, ?_⟩
  exact EachStep.of_eachStep start keep (fun s op inv sound => inv.proper (inv.stepped sound).2) sound

def onlyQuest (q : Quest) (used : q.id ≠ 0) : QuestTemplates where
  getQuestTemplate := fun id => if id = q.id then some q else none
  keyed := by
    intro id q' found
    split at found
    · rename_i is
      cases found
      exact is.symm
    · cases found
  noneZero := if_neg used.symm
  ignoreAutoAccept := false
  ignoreAutoComplete := false
  getEventIdForQuest := fun _ => 0

/-- A raid can be asked to help; somebody is to be killed, and two items are to be found. -/
def escort : Quest where
  id := 2
  method := 2
  zoneOrSort := 0
  limitTime := 0
  flags := questFlagsPartyAccept
  specialFlags := 0
  objectives := [⟨7, .npc, 50, 1⟩, ⟨9, .item, 60, 2⟩]
  rewardChoiceItemId := []

def escorts : QuestTemplates := onlyQuest escort (by decide)

def recruit : QuestPlayer := ⟨QuestLog.empty, .none, []⟩

theorem consistent_empty : QuestLog.empty.Consistent where
  once := fun _ _ used => absurd rfl used
  listed := by
    refine fun id used => ⟨?_, ?_⟩
    · rintro ⟨i, held⟩
      exact absurd held.symm used
    · rintro ⟨d, entry, -⟩
      cases entry
  shown := fun _ _ used => absurd rfl used

/-- The recruit takes the quest, fails it and abandons it. -/
theorem consistent_of_failed_escort :
    Throughout (step escorts) (fun s => s.Idle → s.log.Consistent) recruit
        [.accept Progress.permissive 2, .resume Progress.permissive, .fail 2,
          .abandon Progress.permissive Progress.firstSlot, .resume Progress.permissive] ∧
      EachStep (step escorts) (Proper escorts) recruit
        [.accept Progress.permissive 2, .resume Progress.permissive, .fail 2,
          .abandon Progress.permissive Progress.firstSlot, .resume Progress.permissive] := by
  refine consistent_of_sound escorts recruit ⟨rfl, rfl⟩ consistent_empty (fun _ used => absurd rfl used)
    _ ⟨trivial, ?_, ?_, trivial, ?_, trivial⟩
  · intro entry count i rest later calls
    cases calls
  · intro q template
    refine Or.inl ⟨⟨.incomplete, 0, false⟩, ?_, rfl⟩
    decide +kernel
  · intro entry count i rest later calls
    cases calls

theorem not_consistent_of_slots {s : QuestPlayer} (i j : Fin maxQuestLogSize) (idle : s.isIdle)
    (apart : j ≠ i) (held : (s.log.slots i).questId = 2) (again : (s.log.slots j).questId = 2) :
    ¬ (s.Idle → s.log.Consistent) := by
  intro consistent
  refine apart ((consistent (idle_of_isIdle idle)).once i j ?_ (again.trans held.symm))
  rw [held]
  decide

theorem not_consistent_of_bits {s : QuestPlayer} (i : Fin maxQuestLogSize) (slot : QuestSlot)
    (d : QuestStatusData) (idle : s.isIdle) (held : s.log.slots i = slot) (used : slot.questId ≠ 0)
    (entry : s.log.questStatus slot.questId = some d) (differs : ¬ Shows slot d.status) :
    ¬ (s.Idle → s.log.Consistent) := by
  intro consistent
  subst held
  exact differs ((consistent (idle_of_isIdle idle)).shown i d used entry)

/-- **The stores disagree** when an escort is confirmed twice, when a complete one fails, when items
of a failed one go, when one is completed that nobody has, or is rewarded and entered again. -/
theorem not_consistent_of_escort :
    (¬ Throughout (step escorts) (fun s => s.Idle → s.log.Consistent) recruit
        [.confirmAccept Progress.permissive 2, .resume Progress.permissive,
          .confirmAccept Progress.permissive 2, .resume Progress.permissive]) ∧
      (¬ Throughout (step escorts) (fun s => s.Idle → s.log.Consistent) recruit
        [.accept Progress.permissive 2, .resume Progress.permissive, .complete 2, .fail 2]) ∧
      (¬ Throughout (step escorts) (fun s => s.Idle → s.log.Consistent) recruit
        ([.accept Progress.permissive 2, .resume Progress.permissive, .fail 2, .itemRemoved 60 1] ++
          List.replicate 26 (.resume Progress.permissive))) ∧
      (¬ Throughout (step escorts) (fun s => s.Idle → s.log.Consistent) recruit [.complete 2]) ∧
      ¬ EachStep (step escorts) (Proper escorts) recruit
        [.confirmAccept Progress.permissive 2, .resume Progress.permissive, .reward 2,
          .resume Progress.permissive, .resume Progress.permissive, .resume Progress.permissive,
          .confirmAccept Progress.permissive 2, .resume Progress.permissive] := by
  refine ⟨fun holds => ?_, fun holds => ?_, fun holds => ?_, fun holds => ?_, fun holds => ?_⟩
  · refine not_consistent_of_slots Progress.firstSlot ⟨1, by decide⟩ ?_ ?_ ?_ ?_ holds.last
    · decide +kernel
    · decide
    · decide +kernel
    · decide +kernel
  · refine not_consistent_of_bits Progress.firstSlot ⟨2, true, true, 1⟩ ⟨.failed, 0, false⟩
      ?_ ?_ ?_ ?_ ?_ holds.last
    · decide +kernel
    · decide +kernel
    · decide
    · decide +kernel
    · exact fun shows' => absurd (shows'.complete.mp rfl) nofun
  · refine not_consistent_of_bits Progress.firstSlot ⟨2, false, true, 1⟩ ⟨.incomplete, 0, false⟩
      ?_ ?_ ?_ ?_ ?_ holds.last
    · decide +kernel
    · decide +kernel
    · decide
    · decide +kernel
    · exact fun shows' => absurd (shows'.fail.mp rfl) nofun
  · have consistent := holds.last ⟨rfl, rfl⟩
    have open' : HasOpen (run (step escorts) recruit [.complete 2]).log 2 :=
      ⟨⟨.complete, 0, false⟩, by decide +kernel, Or.inr (Or.inl rfl)⟩
    obtain ⟨i, held⟩ := (consistent.listed 2 (by decide)).mpr open'
    revert i
    decide +kernel
  · obtain ⟨-, -, -, -, -, -, -, proper, -⟩ := holds
    obtain ⟨q, i, completes, adding, -⟩ := proper 2 (by decide) (by
      rintro ⟨i, held⟩
      revert i
      decide +kernel) ⟨Progress.firstSlot, by decide +kernel⟩
    cases adding

end Sky548.QuestPlayer
