import Sky548.Lfg.Proposal

/-!
# Nobody is lost in the queue

Every GUID with queue data is in one place: one of the two lists of the queue or one open proposal.
`places` counts, and `Balanced` allows for the GUID that a turn of `FindGroups` has taken out of the
new queue and not yet put anywhere.

The search keeps the balance where it decides anew. A cached match, or cached bad states of a group
that is all queued by now, ends it as if a proposal had been created.
-/

namespace Sky548

open List LFGQueue OrdMap

namespace LFGQueue

variable {q : LFGQueue} {guid : UInt64}

def IsQueued (q : LFGQueue) (guid : UInt64) : Prop := (q.queueDataStore.find? guid).isSome = true

/-- How often a GUID is in the two lists. -/
def listed (q : LFGQueue) (guid : UInt64) : Nat :=
  q.newToQueueStore.count guid + q.currentQueueStore.count guid

theorem count_removeAll (list : List UInt64) (guid other : UInt64) :
    (removeAll list guid).count other = if other = guid then 0 else list.count other := by
  split
  · rename_i same
    subst same
    rw [count_eq_zero]
    intro member
    have := (List.mem_filter.mp member).2
    simp at this
  · rename_i apart
    exact count_filter (by simpa using apart)

theorem count_foldl_removeAll (out : List UInt64) : ∀ (list : List UInt64) (other : UInt64),
    (out.foldl removeAll list).count other = if other ∈ out then 0 else list.count other := by
  induction out with
  | nil => exact fun _ _ => (if_neg not_mem_nil).symm
  | cons guid rest ih =>
    intro list other
    rw [foldl_cons, ih, count_removeAll]
    by_cases inRest : other ∈ rest
    · rw [if_pos inRest, if_pos (mem_cons_of_mem _ inRest)]
    rw [if_neg inRest]
    refine if_congr ?_ rfl rfl
    rw [mem_cons]
    exact ⟨Or.inl, fun either => either.resolve_right inRest⟩

theorem listed_removeFromQueue (q : LFGQueue) (guid other : UInt64) :
    (q.removeFromQueue guid).listed other = if other = guid then 0 else q.listed other := by
  change (removeAll q.newToQueueStore guid).count other +
    (removeAll q.currentQueueStore guid).count other = _
  rw [count_removeAll, count_removeAll]
  split
  · rfl
  · rfl

theorem isQueued_removeFromQueue {other : UInt64} :
    (q.removeFromQueue guid).IsQueued other ↔ q.IsQueued other ∧ other ≠ guid := by
  unfold IsQueued
  rw [Option.isSome_iff_exists, Option.isSome_iff_exists]
  constructor
  · intro ⟨data, found⟩
    obtain ⟨member, apart⟩ := mem_erase.mp (find?_eq_some_iff.mp found)
    exact ⟨⟨data, find?_eq_some_iff.mpr member⟩, apart⟩
  · intro ⟨⟨data, found⟩, apart⟩
    have member := find?_eq_some_iff.mp found
    exact ⟨data, find?_eq_some_iff.mpr (mem_erase.mpr ⟨member, apart⟩)⟩

theorem isQueued_of_sameData {q' : LFGQueue} (same : q.SameData q') :
    q'.IsQueued guid ↔ q.IsQueued guid := by
  unfold IsQueued
  rw [same]

def ListedQueued (q : LFGQueue) : Prop := ∀ guid, 0 < q.listed guid → q.IsQueued guid

theorem ListedQueued.removeFromQueue (queued : q.ListedQueued) (guid : UInt64) :
    (q.removeFromQueue guid).ListedQueued := by
  intro other isListed
  rw [listed_removeFromQueue] at isListed
  split at isListed
  · omega
  · rename_i apart
    exact isQueued_removeFromQueue.mpr ⟨queued other isListed, apart⟩

theorem foldl_removeFromQueue (out : List UInt64) : ∀ q : LFGQueue,
    (∀ other, (out.foldl LFGQueue.removeFromQueue q).IsQueued other ↔
      q.IsQueued other ∧ other ∉ out) ∧
    (∀ other, other ∉ out → (out.foldl LFGQueue.removeFromQueue q).listed other = q.listed other) ∧
    (q.ListedQueued → (out.foldl LFGQueue.removeFromQueue q).ListedQueued) := by
  induction out with
  | nil =>
    intro q
    refine ⟨fun other => ?_, fun _ _ => rfl, id⟩
    exact ⟨fun queued => ⟨queued, not_mem_nil⟩, And.left⟩
  | cons guid rest ih =>
    intro q
    obtain ⟨queued, lists, all⟩ := ih (q.removeFromQueue guid)
    rw [foldl_cons]
    refine ⟨fun other => ?_, fun other apart => ?_, fun before => all (before.removeFromQueue guid)⟩
    · rw [queued, isQueued_removeFromQueue, mem_cons, not_or, and_assoc]
    · rw [mem_cons, not_or] at apart
      rw [lists other apart.2, listed_removeFromQueue, if_neg apart.1]

theorem listed_addToNewQueue (q : LFGQueue) (guid other : UInt64) :
    (q.addToNewQueue guid).listed other = q.listed other + if other = guid then 1 else 0 := by
  change (q.newToQueueStore ++ [guid]).count other + _ = _
  rw [count_append, count_singleton]
  rw [Nat.add_right_comm]
  refine congrArg (q.newToQueueStore.count other + q.currentQueueStore.count other + ·) ?_
  exact if_congr (by rw [beq_iff_eq, eq_comm]) rfl rfl

theorem listed_addToCurrentQueue (q : LFGQueue) (guid other : UInt64) :
    (q.addToCurrentQueue guid).listed other = q.listed other + if other = guid then 1 else 0 := by
  change _ + (q.currentQueueStore ++ [guid]).count other = _
  rw [count_append, count_singleton]
  rw [← Nat.add_assoc]
  refine congrArg (q.newToQueueStore.count other + q.currentQueueStore.count other + ·) ?_
  exact if_congr (by rw [beq_iff_eq, eq_comm]) rfl rfl

theorem foldl_addToQueue (queues : List UInt64) : ∀ q : LFGQueue,
    (∀ other, (queues.foldl LFGQueue.addToQueue q).IsQueued other ↔ q.IsQueued other) ∧
    (∀ other, q.IsQueued other →
      (queues.foldl LFGQueue.addToQueue q).listed other = q.listed other + queues.count other) ∧
    (q.ListedQueued → (queues.foldl LFGQueue.addToQueue q).ListedQueued) := by
  induction queues with
  | nil => exact fun q => ⟨fun _ => Iff.rfl, fun _ _ => rfl, id⟩
  | cons guid rest ih =>
    intro q
    obtain ⟨queued, lists, all⟩ := ih (q.addToQueue guid)
    rw [foldl_cons]
    cases isData : q.queueDataStore.find? guid with
    | none =>
      have same : q.addToQueue guid = q := by
        unfold addToQueue
        rw [isData]
      rw [same] at queued lists all ⊢
      refine ⟨queued, fun other isQueued => ?_, all⟩
      have apart : guid ≠ other := by
        intro isGuid
        unfold IsQueued at isQueued
        rw [← isGuid, isData] at isQueued
        cases isQueued
      rw [lists other isQueued, count_cons_of_ne apart]
    | some data =>
      have same : q.addToQueue guid = q.addToNewQueue guid := by
        unfold addToQueue
        rw [isData]
      rw [same] at queued lists all ⊢
      refine ⟨queued, fun other isQueued => ?_, fun before => all fun other isListed => ?_⟩
      · rw [lists other isQueued, listed_addToNewQueue, count_cons, Nat.add_assoc,
          Nat.add_comm (List.count other rest)]
        refine congrArg (q.listed other + ·) (congrArg (· + List.count other rest) ?_)
        exact if_congr (by rw [beq_iff_eq, eq_comm]) rfl rfl
      · rw [listed_addToNewQueue] at isListed
        split at isListed
        · rename_i isGuid
          subst isGuid
          change (q.queueDataStore.find? other).isSome = true
          rw [isData]
          rfl
        · exact before other isListed

end LFGQueue

namespace LfgSearch

variable {s : LfgSearch}

/-- How often a GUID is in the lists and the open proposals. -/
def places (s : LfgSearch) (guid : UInt64) : Nat :=
  s.queue.listed guid + s.proposals.proposalsStore.sumVal fun p => p.queues.count guid

/-- Every GUID with queue data is in one place, and the lists have no other GUIDs. -/
def Conserved (s : LfgSearch) : Prop :=
  (∀ guid, s.queue.IsQueued guid → s.places guid = 1) ∧ s.queue.ListedQueued

/-- The same, but for a GUID that is in no place at the moment. -/
structure Balanced (out : Option UInt64) (s : LfgSearch) : Prop where
  listed : s.queue.ListedQueued
  places : ∀ guid, s.queue.IsQueued guid → s.places guid = if out = some guid then 0 else 1

theorem balanced_none_iff : s.Balanced none ↔ s.Conserved := by
  constructor
  · intro balanced
    exact ⟨fun guid queued => by rw [balanced.places guid queued, if_neg (by simp)],
      balanced.listed⟩
  · intro conserved
    exact ⟨conserved.2, fun guid queued => by rw [conserved.1 guid queued, if_neg (by simp)]⟩

variable {out : Option UInt64}

theorem Balanced.removeFromQueue (balanced : s.Balanced out) (guid : UInt64) :
    Balanced out { s with queue := s.queue.removeFromQueue guid } := by
  refine ⟨balanced.listed.removeFromQueue guid, fun other queued => ?_⟩
  obtain ⟨wasQueued, apart⟩ := isQueued_removeFromQueue.mp queued
  have before := balanced.places other wasQueued
  unfold LfgSearch.places at before ⊢
  rw [listed_removeFromQueue, if_neg apart]
  exact before

variable {proposal : LfgProposal}

theorem sum_erase {id : UInt32}
    (found : s.proposals.proposalsStore.find? id = some proposal) (guid : UInt64) :
    ((s.proposals.erase id).proposalsStore.sumVal fun p => p.queues.count guid) +
        proposal.queues.count guid =
      s.proposals.proposalsStore.sumVal fun p => p.queues.count guid :=
  sumVal_erase found

section

variable (conserved : s.Conserved)

include conserved

theorem Conserved.removeProposal (failed : Bool) (id : UInt32) :
    (s.removeProposal failed id).Conserved := by
  unfold LfgSearch.removeProposal
  split
  · exact conserved
  rename_i proposal found
  dsimp only
  have sameQueues : (if failed = true then proposal.markUnanswered else proposal).queues =
      proposal.queues := by
    split
    · rfl
    · rfl
  rw [sameQueues]
  generalize isOut : OrdMap.keys
    ((if failed = true then proposal.markUnanswered else proposal).toRemove failed) = out
  obtain ⟨queued, lists, all⟩ := foldl_removeFromQueue out s.queue
  obtain ⟨queued', lists', all'⟩ := foldl_addToQueue
    (out.foldl LFGQueue.removeAll proposal.queues) (out.foldl LFGQueue.removeFromQueue s.queue)
  refine ⟨fun guid isQueued => ?_, all' (all conserved.2)⟩
  have stillQueued := (queued' guid).mp isQueued
  obtain ⟨wasQueued, notOut⟩ := (queued guid).mp stillQueued
  have before := conserved.1 guid wasQueued
  have isSum := sum_erase found guid
  unfold LfgSearch.places at before ⊢
  dsimp only
  rw [lists' guid stillQueued, lists guid notOut, count_foldl_removeAll, if_neg notOut]
  omega

theorem Conserved.completeProposal {id : UInt32}
    {stored : LfgProposal} (sameQueues : proposal.queues = stored.queues)
    (found : s.proposals.proposalsStore.find? id = some stored) :
    (s.completeProposal id proposal).Conserved := by
  obtain ⟨queued, lists, all⟩ := foldl_removeFromQueue proposal.queues s.queue
  refine ⟨fun guid isQueued => ?_, all conserved.2⟩
  obtain ⟨wasQueued, notOut⟩ := (queued guid).mp isQueued
  have before := conserved.1 guid wasQueued
  have isSum := sum_erase found guid
  rw [← sameQueues, List.count_eq_zero.mpr notOut, Nat.add_zero] at isSum
  unfold LfgSearch.places at before ⊢
  unfold LfgSearch.completeProposal
  rw [lists guid notOut, isSum]
  exact before

theorem Conserved.setAnswer {id : UInt32}
    (found : s.proposals.proposalsStore.find? id = some proposal)
    (isOpen : proposal.state = .initiating) (guid : UInt64) (player : LfgProposalPlayer)
    (accept : LfgAnswer) : (s.setAnswer id proposal isOpen guid player accept).Conserved := by
  refine ⟨fun other queued => ?_, conserved.2⟩
  have isSum : ((s.proposals.set id (proposal.answer guid player accept) isOpen).proposalsStore.sumVal
      fun p => p.queues.count other) + proposal.queues.count other = _ :=
    sumVal_insert_old found
  have before := conserved.1 other queued
  unfold LfgSearch.places at before ⊢
  change _ + ((s.proposals.set id (proposal.answer guid player accept) isOpen).proposalsStore.sumVal
      fun p => p.queues.count other) = 1
  have same : (proposal.answer guid player accept).queues = proposal.queues := rfl
  rw [same] at isSum
  change s.queue.listed other + _ = 1
  omega

theorem Conserved.updateProposal (id : UInt32) (guid : UInt64)
    (accept : Bool) : (s.updateProposal id guid accept).Conserved := by
  unfold LfgSearch.updateProposal
  split
  · exact conserved
  rename_i proposal found
  split
  · exact conserved
  rename_i player isPlayer
  dsimp only
  generalize (if accept = true then LfgAnswer.agree else LfgAnswer.deny) = answer
  have answered := conserved.setAnswer found (isOpen_of_find? found) guid player answer
  split
  · exact answered.removeProposal false id
  · split
    · exact answered
    · exact answered.completeProposal rfl (find?_eq_some_iff.mpr (mem_insert.mpr (Or.inl rfl)))

theorem Conserved.leaveProposal (pguid : UInt64) : (s.leaveProposal pguid).Conserved := by
  unfold LfgSearch.leaveProposal
  split
  · exact conserved
  · exact conserved.updateProposal _ pguid false

end

theorem Conserved.foldl_removeObsolete (now : Nat) (ids : List UInt32) {s : LfgSearch}
    (conserved : s.Conserved) : (ids.foldl (LfgSearch.removeObsolete now) s).Conserved := by
  refine foldlRecOn (motive := LfgSearch.Conserved) ids _ conserved fun s conserved id _ => ?_
  unfold LfgSearch.removeObsolete
  split
  · exact conserved
  · split
    · exact conserved.removeProposal true id
    · exact conserved

/-- The checks have found a full group. -/
def isGroup : LFGQueue.Verdict → Bool
  | .group _ _ _ => true
  | _ => false

def Free (s : LfgSearch) (guid : UInt64) : Prop :=
  ∀ e ∈ s.proposals.proposalsStore, guid ∉ e.2.queues

/-- What creating a proposal asks for: its GUIDs are in no other one, and its id is
not in use. -/
def ConcludeMeets (env : LfgEnv) (check : List UInt64) (s : LfgSearch) : Prop :=
  isGroup (s.queue.assess env check) = true → env.allQueued check = true →
    (∀ guid ∈ check, s.Free guid) ∧
      s.proposals.proposalsStore.find? (s.proposals.lfgProposalId + 1) = none

/-- The same for `CheckCompatibility` with its nested checks. -/
def CheckMeets (env : LfgEnv) : List UInt64 → LfgSearch → Prop
  | [], _ => True
  | front :: rest, s =>
    if rest.length + 1 > maxGroupSize then True
    else if rest.length + 1 > 2 then
      CheckMeets env rest s ∧
        ((s.checkCompatibility env rest).2.isIncompatible = false →
          ConcludeMeets env (front :: rest) (s.checkCompatibility env rest).1)
    else ConcludeMeets env (front :: rest) s

/-- The cache has no match, and no bad states for a group that is all queued. -/
def LookupMeets (env : LfgEnv) (check : List UInt64) (s : LfgSearch) : Prop :=
  s.queue.getCompatibles (concatenateGuids check) ≠ .isMatch ∧
    (s.queue.getCompatibles (concatenateGuids check) = .badStates → env.allQueued check = false) ∧
    (s.queue.getCompatibles (concatenateGuids check) = .pending → CheckMeets env check s)

/-- The same for every turn of the loop of `FindNewGroups`. -/
def MatchMeets (env : LfgEnv) : (check all : List UInt64) → LfgSearch → Prop
  | _, [], _ => True
  | check, next :: all, s =>
    let sub := s.compatibility env (check ++ [next])
    LookupMeets env (check ++ [next]) s ∧
      (sub.2 ≠ .isMatch →
        if sub.2 = .withLessPlayers then MatchMeets env (check ++ [next]) all sub.1
        else MatchMeets env check all sub.1)

/-- The same for a turn of `FindGroups`. -/
def GroupMeets (env : LfgEnv) (frontguid : UInt64) (s : LfgSearch) : Prop :=
  let s := { s with queue := s.queue.removeFromNewQueue frontguid }
  let known := s.compatibility env [frontguid]
  LookupMeets env [frontguid] s ∧
    (known.2 = .withLessPlayers → MatchMeets env [frontguid] s.queue.currentQueueStore known.1)

/-- The same for every turn of `FindGroups`. -/
def LoopMeets (env : LfgEnv) : Nat → LfgSearch × UInt8 → Prop
  | 0, _ => True
  | n + 1, s =>
    match s.1.queue.newToQueueStore with
    | [] => True
    | frontguid :: _ =>
      let found := s.1.findGroup env frontguid
      GroupMeets env frontguid s.1 ∧
        LoopMeets env n (found.1, if found.2 = .isMatch then s.2 + 1 else s.2)

/-- **The guard of a search**: it decides anew, and what it proposes is free. -/
def FindMeets (env : LfgEnv) (s : LfgSearch) : Prop :=
  LoopMeets env s.queue.newToQueueStore.length (s, 0)

section Decide

variable (env : LfgEnv) (s : LfgSearch)

instance (guid : UInt64) : Decidable (s.Free guid) :=
  inferInstanceAs (Decidable (∀ e ∈ s.proposals.proposalsStore.toList, guid ∉ e.2.queues))

instance (check : List UInt64) : Decidable (ConcludeMeets env check s) :=
  have : Decidable (∀ guid ∈ check, s.Free guid) := List.decidableBAll _ check
  inferInstanceAs (Decidable (_ = true → _ = true → (∀ guid ∈ check, s.Free guid) ∧ _ = none))

instance decidableCheckMeets : ∀ (check : List UInt64) (s : LfgSearch),
    Decidable (CheckMeets env check s)
  | [], _ => inferInstanceAs (Decidable True)
  | front :: rest, s =>
    have := decidableCheckMeets rest s
    inferInstanceAs (Decidable (
      if rest.length + 1 > maxGroupSize then True
      else if rest.length + 1 > 2 then
        CheckMeets env rest s ∧ (_ = false → ConcludeMeets env (front :: rest) _)
      else ConcludeMeets env (front :: rest) s))

instance (check : List UInt64) : Decidable (LookupMeets env check s) :=
  inferInstanceAs (Decidable (_ ≠ _ ∧ (_ → _ = false) ∧ (_ → CheckMeets env check s)))

instance decidableMatchMeets : ∀ (check all : List UInt64) (s : LfgSearch),
    Decidable (MatchMeets env check all s)
  | _, [], _ => inferInstanceAs (Decidable True)
  | check, next :: all, s =>
    have := decidableMatchMeets (check ++ [next]) all (s.compatibility env (check ++ [next])).1
    have := decidableMatchMeets check all (s.compatibility env (check ++ [next])).1
    inferInstanceAs (Decidable (LookupMeets env (check ++ [next]) s ∧
      ((s.compatibility env (check ++ [next])).2 ≠ .isMatch →
        if (s.compatibility env (check ++ [next])).2 = .withLessPlayers then
          MatchMeets env (check ++ [next]) all _
        else MatchMeets env check all _)))

instance (frontguid : UInt64) : Decidable (GroupMeets env frontguid s) :=
  inferInstanceAs (Decidable (LookupMeets env [frontguid] _ ∧
    (_ = _ → MatchMeets env [frontguid] _ _)))

instance decidableLoopMeets : ∀ (n : Nat) (s : LfgSearch × UInt8), Decidable (LoopMeets env n s)
  | 0, _ => inferInstanceAs (Decidable True)
  | n + 1, s =>
    match h : s.1.queue.newToQueueStore with
    | [] => .isTrue (by unfold LoopMeets; rw [h]; trivial)
    | frontguid :: _ =>
      have := decidableLoopMeets n ((s.1.findGroup env frontguid).1,
        if (s.1.findGroup env frontguid).2 = .isMatch then s.2 + 1 else s.2)
      decidable_of_iff (GroupMeets env frontguid s.1 ∧ LoopMeets env n _) (by
        conv => rhs; unfold LoopMeets
        rw [h])

instance : Decidable (FindMeets env s) := inferInstanceAs (Decidable (LoopMeets env _ _))

end Decide

/-! ## A search -/

variable {env : LfgEnv} {front : UInt64}

theorem listed_createProposal (check : List UInt64) : ∀ (q : LFGQueue) (other : UInt64),
    (check.foldl (fun q guid => (q.removeFromNewQueue guid).removeFromCurrentQueue guid) q).listed
      other = if other ∈ check then 0 else q.listed other := by
  induction check with
  | nil => exact fun _ _ => (if_neg not_mem_nil).symm
  | cons guid rest ih =>
    intro q other
    have one : ((q.removeFromNewQueue guid).removeFromCurrentQueue guid).listed other =
        if other = guid then 0 else q.listed other := by
      change (LFGQueue.removeAll q.newToQueueStore guid).count other +
        (LFGQueue.removeAll q.currentQueueStore guid).count other = _
      rw [count_removeAll, count_removeAll]
      split
      · rfl
      · rfl
    rw [foldl_cons, ih, one]
    by_cases inRest : other ∈ rest
    · rw [if_pos inRest, if_pos (mem_cons_of_mem _ inRest)]
    rw [if_neg inRest]
    refine if_congr ?_ rfl rfl
    rw [mem_cons]
    exact ⟨Or.inl, fun either => either.resolve_right inRest⟩

theorem sum_eq_zero_of_free {guid : UInt64} (free : s.Free guid) :
    (s.proposals.proposalsStore.sumVal fun p => p.queues.count guid) = 0 := by
  refine Nat.eq_zero_of_not_pos fun pos => ?_
  obtain ⟨e, member, isCount⟩ := sumVal_pos_iff.mp pos
  exact free e member (List.count_pos_iff.mp isCount)

/-- The GUID that is in no place, after a check that has put its GUIDs into a
proposal. -/
def stillOut (check : List UInt64) (out : Option UInt64) : Option UInt64 :=
  out.filter fun guid => guid ∉ check

variable {check : List UInt64}

theorem stillOut_of_notMem (apart : front ∉ check) : stillOut check (some front) = some front := by
  unfold stillOut
  rw [Option.filter_some, if_pos (decide_eq_true apart)]

theorem stillOut_of_mem (member : front ∈ check) : stillOut check (some front) = none := by
  unfold stillOut
  rw [Option.filter_some, if_neg (by simpa using member)]

theorem Balanced.createProposal (balanced : s.Balanced out) (env : LfgEnv) (distinct : check.Nodup)
    (free : ∀ guid ∈ check, s.Free guid)
    (isNew : s.proposals.proposalsStore.find? (s.proposals.lfgProposalId + 1) = none)
    (c : LFGQueue.Census) (roles : LfgRolesMap) (dungeons : LfgDungeonSet) :
    (s.createProposal env check c roles dungeons).Balanced (stillOut check out) := by
  have same : s.queue.SameData (s.createProposal env check c roles dungeons).queue :=
    sameData_createProposal check c roles dungeons
  have lists : ∀ guid, (s.createProposal env check c roles dungeons).queue.listed guid =
      if guid ∈ check then 0 else s.queue.listed guid :=
    listed_createProposal check s.queue
  have sums : ∀ guid, ((s.createProposal env check c roles dungeons).proposals.proposalsStore.sumVal
      fun p => p.queues.count guid) =
      (s.proposals.proposalsStore.sumVal fun p => p.queues.count guid) + check.count guid :=
    fun guid => sumVal_insert_new isNew
  refine ⟨fun guid isListed => ?_, fun guid queued => ?_⟩
  · rw [lists] at isListed
    split at isListed
    · omega
    · exact (isQueued_of_sameData same).mpr (balanced.listed guid isListed)
  · have before := balanced.places guid ((isQueued_of_sameData same).mp queued)
    unfold LfgSearch.places at before ⊢
    rw [lists, sums]
    unfold stillOut
    by_cases member : guid ∈ check
    · rw [if_pos member, sum_eq_zero_of_free (free guid member),
        count_eq_one_of_mem distinct member, if_neg]
      intro isOut
      have := (Option.filter_eq_some_iff.mp isOut).2
      simp [member] at this
    · rw [if_neg member, List.count_eq_zero.mpr member, Nat.add_zero, before]
      refine if_congr ?_ rfl rfl
      rw [Option.filter_eq_some_iff]
      exact ⟨fun isOut => ⟨isOut, by simpa using member⟩, And.left⟩

theorem Balanced.conclude (balanced : s.Balanced out)
    (distinct : check.Nodup) (queued : ∀ guid ∈ check, s.queue.IsQueued guid)
    (met : ConcludeMeets env check s) :
    ((s.conclude env check).1).Balanced
      (if (s.conclude env check).2 = .isMatch then stillOut check out else out) := by
  unfold LfgSearch.conclude
  split
  · rename_i guid notQueued
    obtain ⟨checked, absent⟩ := census_of_assess notQueued
    have isQueued := queued guid checked
    unfold LFGQueue.IsQueued at isQueued
    rw [absent] at isQueued
    cases isQueued
  · rename_i compatibles assessed
    rw [if_neg]
    · exact ⟨balanced.listed, balanced.places⟩
    · exact (assess_ne assessed).1
  · rename_i c roles dungeons found
    split
    · exact ⟨balanced.listed, balanced.places⟩
    rename_i all
    obtain ⟨free, isNew⟩ := met (by rw [found]; rfl) (by simpa using all)
    have created := balanced.createProposal env distinct free isNew c roles dungeons
    exact ⟨created.listed, created.places⟩

/-- What a check leaves: the GUID out of the queue is still out of it, unless the check
has matched it. -/
def Checked (check : List UInt64) (front : UInt64) (found : LfgSearch × LfgCompatibility) : Prop :=
  found.1.Balanced (if found.2 = .isMatch then stillOut check (some front) else some front)

theorem Balanced.checkRest (rest : List UInt64) : ∀ {s : LfgSearch}, s.Balanced (some front) →
    (front :: rest).Nodup → (∀ guid ∈ rest, s.queue.IsQueued guid) → CheckMeets env rest s →
    ((s.checkCompatibility env rest).1).Balanced (some front) := by
  induction rest with
  | nil => exact fun balanced _ _ _ => balanced
  | cons next rest ih =>
    intro s balanced distinct queued met
    have apart := (List.nodup_cons.mp distinct).1
    have distinctRest := (List.nodup_cons.mp distinct).2
    have keep : ∀ {s : LfgSearch}, s.Balanced (some front) →
        (∀ guid ∈ next :: rest, s.queue.IsQueued guid) → ConcludeMeets env (next :: rest) s →
        ((s.conclude env (next :: rest)).1).Balanced (some front) := by
      intro s balanced queued met
      have after := balanced.conclude distinctRest queued met
      rw [stillOut_of_notMem apart, ite_self] at after
      exact after
    unfold checkCompatibility
    unfold CheckMeets at met
    split
    · exact balanced
    rename_i notMany
    rw [if_neg notMany] at met
    split
    · rename_i many
      rw [if_pos many] at met
      have child := ih balanced (distinct.sublist ((sublist_cons_self next rest).cons_cons front))
        (fun guid member => queued guid (mem_cons_of_mem _ member)) met.1
      have data := (checkCompatibility_later env rest s).1.data
      dsimp only
      split
      · exact ⟨child.listed, child.places⟩
      · rename_i compatible
        exact keep child (fun guid member => (isQueued_of_sameData data).mpr (queued guid member))
          (met.2 (by simpa using compatible))
    · rename_i few
      rw [if_neg few] at met
      exact keep balanced queued met

theorem Balanced.checkCompatibility (balanced : s.Balanced (some front)) {rest : List UInt64}
    (distinct : (front :: rest).Nodup) (queued : ∀ guid ∈ front :: rest, s.queue.IsQueued guid)
    (met : CheckMeets env (front :: rest) s) :
    Checked (front :: rest) front (s.checkCompatibility env (front :: rest)) := by
  unfold CheckMeets at met
  unfold LfgSearch.checkCompatibility Checked
  split
  · exact balanced
  rename_i notMany
  rw [if_neg notMany] at met
  split
  · rename_i many
    rw [if_pos many] at met
    have child := balanced.checkRest rest distinct
      (fun guid member => queued guid (mem_cons_of_mem _ member)) met.1
    have data := (checkCompatibility_later env rest s).1.data
    dsimp only
    split
    · rename_i incompatible
      have noMatch : (s.checkCompatibility env rest).2 ≠ .isMatch := by
        intro isMatch
        rw [isMatch] at incompatible
        cases incompatible
      rw [if_neg noMatch]
      exact ⟨child.listed, child.places⟩
    · rename_i compatible
      exact child.conclude distinct
        (fun guid member => (isQueued_of_sameData data).mpr (queued guid member))
        (met.2 (by simpa using compatible))
  · rename_i few
    rw [if_neg few] at met
    exact balanced.conclude distinct queued met

theorem not_allQueued_of_conclude {s : LfgSearch} (isBad : (s.conclude env check).2 = .badStates) :
    env.allQueued check = false := by
  unfold LfgSearch.conclude at isBad
  split at isBad
  · cases isBad
  · rename_i compatibles assessed
    exact absurd isBad (assess_ne assessed).2
  · split at isBad
    · rename_i notAll
      simpa using notAll
    · cases isBad

theorem not_allQueued_of_checkCompatibility {s : LfgSearch}
    (isBad : (s.checkCompatibility env check).2 = .badStates) : env.allQueued check = false := by
  cases check with
  | nil => cases isBad
  | cons front rest =>
    unfold LfgSearch.checkCompatibility at isBad
    split at isBad
    · cases isBad
    split at isBad
    · dsimp only at isBad
      split at isBad
      · rename_i incompatible
        have isBad : (s.checkCompatibility env rest).2 = .badStates := isBad
        rw [isBad] at incompatible
        cases incompatible
      · exact not_allQueued_of_conclude isBad
    · exact not_allQueued_of_conclude isBad

theorem Balanced.compatibility (balanced : s.Balanced (some front)) (rest : List UInt64)
    (distinct : (front :: rest).Nodup) (queued : ∀ guid ∈ front :: rest, s.queue.IsQueued guid)
    (met : LookupMeets env (front :: rest) s) :
    Checked (front :: rest) front (s.compatibility env (front :: rest)) ∧
      s.queue.SameData (s.compatibility env (front :: rest)).1.queue := by
  obtain ⟨noMatch, noBad, fresh⟩ := met
  unfold LfgSearch.compatibility
  dsimp only
  by_cases isPending : s.queue.getCompatibles (concatenateGuids (front :: rest)) = .pending
  · rw [if_pos isPending]
    rw [if_neg]
    · exact ⟨balanced.checkCompatibility distinct queued (fresh isPending),
        (checkCompatibility_later env _ s).1.data⟩
    · intro isBad
      rw [Bool.and_eq_true, decide_eq_true_iff] at isBad
      rw [not_allQueued_of_checkCompatibility isBad.1] at isBad
      cases isBad.2
  · rw [if_neg isPending, if_neg]
    · refine ⟨?_, fun _ => rfl⟩
      unfold Checked
      rw [if_neg noMatch]
      exact balanced
    · intro isBad
      rw [Bool.and_eq_true, decide_eq_true_iff] at isBad
      rw [noBad isBad.1] at isBad
      cases isBad.2

/-- The result of a search for the GUID that is out of the queue. -/
def Searched (front : UInt64) (found : LfgSearch × LfgCompatibility) : Prop :=
  found.1.Balanced (if found.2 = .isMatch then none else some front)

theorem Checked.searched {rest : List UInt64} {found : LfgSearch × LfgCompatibility}
    (checked : Checked (front :: rest) front found) : Searched front found := by
  unfold Checked at checked
  rw [stillOut_of_mem mem_cons_self] at checked
  exact checked

theorem Balanced.matchQueued (all : List UInt64) : ∀ {s : LfgSearch} (rest : List UInt64),
    s.Balanced (some front) → (front :: (rest ++ all)).Nodup →
    (∀ guid ∈ front :: (rest ++ all), s.queue.IsQueued guid) →
    MatchMeets env (front :: rest) all s →
    Searched front (s.matchQueued env (front :: rest) all) ∧
      s.queue.SameData (s.matchQueued env (front :: rest) all).1.queue := by
  induction all with
  | nil => exact fun _ balanced _ _ _ => ⟨balanced, fun _ => rfl⟩
  | cons next all ih =>
    intro s rest balanced distinct queued met
    have onto : rest ++ next :: all = (rest ++ [next]) ++ all := by
      rw [append_assoc]
      rfl
    unfold MatchMeets at met
    obtain ⟨look, later⟩ := met
    have step := balanced.compatibility (rest ++ [next]) (distinct.sublist (Sublist.cons_cons _ (by
        rw [onto]
        exact sublist_append_left _ _)))
      (fun guid member => queued guid (by
        rw [onto]
        rcases List.mem_cons.mp member with isFront | inRest
        · exact isFront ▸ mem_cons_self
        · exact mem_cons_of_mem _ (mem_append_left _ inRest))) look
    obtain ⟨checked, data⟩ := step
    have out := checked.searched
    have stillQueued : ∀ guid ∈ front :: (rest ++ next :: all),
        (s.compatibility env ((front :: rest) ++ [next])).1.queue.IsQueued guid :=
      fun guid member => (isQueued_of_sameData data).mpr (queued guid member)
    unfold LfgSearch.matchQueued
    dsimp only
    split
    · exact ⟨out, data⟩
    rename_i noMatch
    have balancedSub :
        ((s.compatibility env ((front :: rest) ++ [next])).1).Balanced (some front) := by
      change Balanced (if (s.compatibility env ((front :: rest) ++ [next])).2 = .isMatch
        then none else some front) _ at out
      rw [if_neg noMatch] at out
      exact out
    have later := later noMatch
    split
    · rename_i less
      rw [if_pos less] at later
      obtain ⟨found, data'⟩ := ih (rest ++ [next]) balancedSub
        (onto ▸ distinct) (onto ▸ stillQueued) later
      exact ⟨found, fun guid => (data' guid).trans (data guid)⟩
    · rename_i notLess
      rw [if_neg notLess] at later
      have fewer : (front :: (rest ++ all)).Sublist (front :: (rest ++ next :: all)) :=
        ((sublist_cons_self next all).append_left rest).cons_cons front
      obtain ⟨found, data'⟩ := ih rest balancedSub (distinct.sublist fewer)
        (fun guid member => stillQueued guid (fewer.subset member)) later
      exact ⟨found, fun guid => (data' guid).trans (data guid)⟩

theorem listed_removeFromNewQueue (q : LFGQueue) (guid other : UInt64) :
    (q.removeFromNewQueue guid).listed other =
      if other = guid then q.currentQueueStore.count other else q.listed other := by
  change (LFGQueue.removeAll q.newToQueueStore guid).count other + _ = _
  rw [count_removeAll]
  split
  · exact Nat.zero_add _
  · rfl

theorem Balanced.takeOut (balanced : s.Balanced none) (isNew : front ∈ s.queue.newToQueueStore) :
    Balanced (some front) { s with queue := s.queue.removeFromNewQueue front } ∧
      front ∉ s.queue.currentQueueStore ∧ s.queue.currentQueueStore.Nodup ∧
      (∀ guid ∈ front :: s.queue.currentQueueStore, s.queue.IsQueued guid) := by
  have counted : 0 < s.queue.newToQueueStore.count front := List.count_pos_iff.mpr isNew
  have isQueued : ∀ guid ∈ front :: s.queue.currentQueueStore, s.queue.IsQueued guid := by
    intro guid member
    refine balanced.listed guid ?_
    unfold LFGQueue.listed
    rcases List.mem_cons.mp member with rfl | isCurrent
    · omega
    · have := List.count_pos_iff.mpr isCurrent
      omega
  have one : ∀ guid, s.queue.IsQueued guid → s.places guid = 1 := (balanced_none_iff.mp balanced).1
  have notCurrent : s.queue.currentQueueStore.count front = 0 := by
    have := one front (isQueued front mem_cons_self)
    unfold LfgSearch.places LFGQueue.listed at this
    omega
  refine ⟨⟨fun guid isListed => ?_, fun guid queued => ?_⟩, List.count_eq_zero.mp notCurrent,
    ?_, isQueued⟩
  · rw [listed_removeFromNewQueue] at isListed
    refine balanced.listed guid ?_
    split at isListed
    · unfold LFGQueue.listed
      omega
    · exact isListed
  · have now := one guid queued
    unfold LfgSearch.places at now ⊢
    dsimp only
    rw [listed_removeFromNewQueue]
    by_cases isFront : guid = front
    · subst isFront
      unfold LFGQueue.listed at now
      rw [if_pos rfl, if_pos rfl]
      omega
    · rw [if_neg isFront, if_neg (fun same => isFront (Option.some.inj same).symm)]
      exact now
  · rw [nodup_iff_count_le_one]
    intro guid
    by_cases isCurrent : guid ∈ s.queue.currentQueueStore
    · have := one guid (isQueued guid (mem_cons_of_mem _ isCurrent))
      unfold LfgSearch.places LFGQueue.listed at this
      omega
    · rw [List.count_eq_zero.mpr isCurrent]
      exact Nat.zero_le 1

theorem Balanced.putBack (balanced : s.Balanced (some front)) (queued : s.queue.IsQueued front) :
    Balanced none { s with queue := s.queue.addToCurrentQueue front } := by
  refine ⟨fun guid isListed => ?_, fun guid isQueued => ?_⟩
  · rw [listed_addToCurrentQueue] at isListed
    split at isListed
    · rename_i isFront
      exact isFront ▸ queued
    · exact balanced.listed guid isListed
  · have before := balanced.places guid isQueued
    unfold LfgSearch.places at before ⊢
    dsimp only
    rw [listed_addToCurrentQueue, if_neg (nofun : ¬ none = some guid)]
    by_cases isFront : guid = front
    · rw [if_pos (by rw [isFront])] at before
      rw [if_pos isFront]
      omega
    · rw [if_neg fun same => isFront (Option.some.inj same).symm] at before
      rw [if_neg isFront]
      omega

theorem Balanced.findGroup (balanced : s.Balanced none) (isNew : front ∈ s.queue.newToQueueStore)
    (met : GroupMeets env front s) : ((s.findGroup env front).1).Balanced none := by
  obtain ⟨out, apart, distinct, queued⟩ := balanced.takeOut isNew
  obtain ⟨look, more⟩ := met
  obtain ⟨checked, data⟩ := out.compatibility []
    (nodup_singleton front) (fun guid member => queued guid (by
      rw [List.mem_singleton.mp member]
      exact mem_cons_self)) look
  have searched : Searched front (findNewGroups env [front] s.queue.currentQueueStore
        { s with queue := s.queue.removeFromNewQueue front }) ∧
      s.queue.SameData (findNewGroups env [front] s.queue.currentQueueStore
        { s with queue := s.queue.removeFromNewQueue front }).1.queue := by
    unfold findNewGroups
    dsimp only
    split
    · rename_i less
      have balancedSub := checked.searched
      unfold Searched at balancedSub
      rw [less, if_neg (by simp)] at balancedSub
      obtain ⟨found, data'⟩ := balancedSub.matchQueued s.queue.currentQueueStore []
        (List.nodup_cons.mpr ⟨apart, distinct⟩)
        (fun guid member => (isQueued_of_sameData data).mpr (queued guid member))
        (more less)
      exact ⟨found, fun guid => (data' guid).trans (data guid)⟩
    · exact ⟨checked.searched, data⟩
  obtain ⟨found, sameData⟩ := searched
  unfold Searched at found
  unfold LfgSearch.findGroup
  dsimp only
  split
  · rename_i isMatch
    have isMatch : (findNewGroups env [front] s.queue.currentQueueStore
      { s with queue := s.queue.removeFromNewQueue front }).2 = .isMatch := isMatch
    rw [if_pos isMatch] at found
    exact found
  · rename_i noMatch
    have noMatch : (findNewGroups env [front] s.queue.currentQueueStore
      { s with queue := s.queue.removeFromNewQueue front }).2 ≠ .isMatch := noMatch
    rw [if_neg noMatch] at found
    exact found.putBack ((isQueued_of_sameData sameData).mpr (queued front mem_cons_self))

theorem Balanced.findGroupsLoop (n : Nat) : ∀ {s : LfgSearch × UInt8}, s.1.Balanced none →
    LoopMeets env n s → ((LfgSearch.findGroupsLoop env n s).1).Balanced none := by
  induction n with
  | zero => exact fun balanced _ => balanced
  | succ n ih =>
    intro s balanced met
    unfold LfgSearch.findGroupsLoop
    unfold LoopMeets at met
    split
    · exact balanced
    · rename_i front rest isNew
      rw [isNew] at met
      exact ih (balanced.findGroup (by rw [isNew]; exact mem_cons_self) met.1) met.2

theorem Conserved.findGroups (conserved : s.Conserved) (met : FindMeets env s) :
    ((s.findGroups env).1).Conserved :=
  balanced_none_iff.mp ((balanced_none_iff.mpr conserved).findGroupsLoop _ met)

/-- **What keeps everybody in the queue**: queue data are added for who has none and
is in no proposal, and every search meets its guard. -/
def Meets (s : LfgSearch) : LfgEvent → Prop
  | .addQueueData guid _ => s.queue.queueDataStore.find? guid = none ∧ s.Free guid
  | .findGroups env => FindMeets env s
  | .update env =>
    FindMeets env (s.proposals.proposalsStore.keys.foldl (removeObsolete env.now) s)
  | .removeFromQueue _ | .updateProposal _ _ _ | .leaveProposal _ => True

instance (s : LfgSearch) : ∀ event, Decidable (s.Meets event)
  | .addQueueData guid _ => inferInstanceAs (Decidable (_ = none ∧ s.Free guid))
  | .findGroups env => inferInstanceAs (Decidable (FindMeets env s))
  | .update env => inferInstanceAs (Decidable (FindMeets env _))
  | .removeFromQueue _ | .updateProposal _ _ _ | .leaveProposal _ => inferInstanceAs (Decidable True)

theorem Conserved.addQueueData (conserved : s.Conserved) {guid : UInt64}
    (isNew : s.queue.queueDataStore.find? guid = none) (free : s.Free guid) (data : LfgQueueData) :
    Conserved { s with queue := s.queue.addQueueData guid data } := by
  have stored : ∀ other, ({ s.queue with
      queueDataStore := s.queue.queueDataStore.insert guid data } : LFGQueue).IsQueued other ↔
        other = guid ∨ s.queue.IsQueued other := by
    intro other
    unfold LFGQueue.IsQueued
    rw [Option.isSome_iff_exists, Option.isSome_iff_exists]
    simp only [find?_eq_some_iff, mem_insert]
    constructor
    · rintro ⟨_, now | ⟨before, -⟩⟩
      · exact Or.inl (congrArg Prod.fst now)
      · exact Or.inr ⟨_, before⟩
    intro either
    by_cases same : other = guid
    · exact ⟨data, Or.inl (by rw [same])⟩
    · obtain ⟨old, before⟩ := either.resolve_left same
      exact ⟨old, Or.inr ⟨before, same⟩⟩
  have added : s.queue.addQueueData guid data = ({ s.queue with
      queueDataStore := s.queue.queueDataStore.insert guid data } : LFGQueue).addToNewQueue guid := by
    have found : (s.queue.queueDataStore.insert guid data).find? guid = some data :=
      find?_eq_some_iff.mpr (mem_insert.mpr (Or.inl rfl))
    unfold LFGQueue.addQueueData LFGQueue.addToQueue
    rw [found]
  have notQueued : ¬ s.queue.IsQueued guid := by
    unfold LFGQueue.IsQueued
    rw [isNew]
    exact Bool.false_ne_true
  have notListed : s.queue.listed guid = 0 :=
    Nat.eq_zero_of_not_pos fun isListed => notQueued (conserved.2 guid isListed)
  rw [added]
  refine ⟨fun other queued => ?_, fun other isListed => (stored other).mpr ?_⟩
  · unfold places
    rw [listed_addToNewQueue]
    change s.queue.listed other + _ + _ = 1
    by_cases same : other = guid
    · rw [if_pos same, same, notListed, sum_eq_zero_of_free free]
    · rw [if_neg same]
      exact conserved.1 other (((stored other).mp queued).resolve_left same)
  · rw [listed_addToNewQueue] at isListed
    split at isListed
    · exact Or.inl ‹_›
    · exact Or.inr (conserved.2 other isListed)

theorem Conserved.step (conserved : s.Conserved) {event : LfgEvent} (met : s.Meets event) :
    (LfgSearch.step s event).Conserved := by
  cases event with
  | addQueueData guid data => exact conserved.addQueueData met.1 met.2 data
  | removeFromQueue guid =>
    exact balanced_none_iff.mp ((balanced_none_iff.mpr conserved).removeFromQueue guid)
  | findGroups env => exact conserved.findGroups met
  | updateProposal id guid accept => exact conserved.updateProposal id guid accept
  | leaveProposal pguid => exact conserved.leaveProposal pguid
  | update env => exact (conserved.foldl_removeObsolete env.now _).findGroups met

theorem conserved_empty : LfgSearch.empty.Conserved := by
  refine ⟨fun guid queued => ?_, fun guid isListed => ?_⟩
  · cases queued
  · cases isListed

/-- **Nobody is lost in the queue** in a run whose steps meet the guard. -/
theorem throughout_conserved_of_meets {events : List LfgEvent}
    (met : Machine.EachStep LfgSearch.step Meets .empty events) :
    Machine.Throughout LfgSearch.step Conserved .empty events :=
  .of_eachStep conserved_empty (fun _ _ conserved met => conserved.step met) met

/-- One tank, one healer and three others. -/
def fullGroupRoles : LfgRolesMap :=
  [(1, playerRoleTank), (2, playerRoleHealer), (3, playerRoleDamage), (4, playerRoleDamage),
    (5, playerRoleDamage)].foldl (fun roles e => roles.insert e.1 e.2) .empty

def fullGroupData : LfgQueueData where
  dungeons := OrdMap.empty.insert 1 ()
  roles := fullGroupRoles
  dungeons_ne := oneDungeon_ne
  roles_le := by decide
  roles_full := by decide

def fullGroup : UInt64 := makeNewGuid 1 0 highGuidGroup

/-- The full group is in its dungeon and queued again. -/
def fullGroupEnv (now : Nat) : LfgEnv where
  state _ := .queued
  oldState guid := if guid = fullGroup then .dungeon else .none
  ignored _ := none
  urand _ _ := 0
  now := now

/-- The group queues, is found, and nobody answers until `now`. -/
def fullGroupRun (now : Nat) : List LfgEvent :=
  [.addQueueData fullGroup fullGroupData, .findGroups (fullGroupEnv 0), .update (fullGroupEnv now)]

set_option maxRecDepth 4000 in
theorem throughout_conserved_of_fullGroup :
    Machine.Throughout LfgSearch.step Conserved .empty (fullGroupRun lfgTimeProposal) :=
  throughout_conserved_of_meets (by decide)

set_option maxRecDepth 4000 in
/-- A group that takes up its dungeon again has accepted by itself: its proposal runs out with
nobody to remove, and the cached match ends the next search. -/
theorem not_conserved_of_timeout :
    ¬ Machine.Throughout LfgSearch.step Conserved .empty (fullGroupRun (lfgTimeProposal + 1)) := by
  intro throughout
  have lost : (Machine.run LfgSearch.step .empty (fullGroupRun (lfgTimeProposal + 1))).places
      fullGroup = 0 := by decide
  have queued : (Machine.run LfgSearch.step .empty
      (fullGroupRun (lfgTimeProposal + 1))).queue.IsQueued fullGroup := by
    unfold LFGQueue.IsQueued
    decide
  have one := throughout.last.1 fullGroup queued
  omega

end LfgSearch

end Sky548
