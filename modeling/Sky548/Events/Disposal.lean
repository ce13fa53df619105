import Sky548.Events.EventProcessor
import Sky548.Machine

/-!
# Every event is disposed of once

An event is in the queue until it is deleted, once, after its `Execute` returned true or its `Abort`
was called; it is not executed after that; and an `Update` takes the events in the order of their
times (`Sound`). A forced `KillAllEvents` aborts and deletes all there are. So it is in every run in
which nothing is added before its turn (`Forward`); in a forced `KillAllEvents` it would be cleared
away unaborted (`lost_behind`).

`running` is the event whose callback is called; it is not in the queue then, and not deleted yet.
-/

namespace Sky548

open List

theorem perm_insertEvent (q : Queued) (xs : List Queued) : (insertEvent q xs).Perm (q :: xs) :=
  perm_insertBy _ q xs

def InOrder (xs : List Queued) : Prop := SortedBy Queued.execTime xs

namespace Happening

def subject : Happening → Nat
  | .executed event _ => event
  | .aborted event => event
  | .deleted event => event

end Happening

/-- **A log in order**, the last first: an event is deleted once, right after it was finished or
aborted, and not executed once it was. -/
def Orderly : List Happening → Prop
  | [] => True
  | .executed event _ :: log => .aborted event ∉ log ∧ .deleted event ∉ log ∧ Orderly log
  | .aborted event :: log => .deleted event ∉ log ∧ Orderly log
  | .deleted event :: log => .deleted event ∉ log ∧
      (log.head? = some (.executed event true) ∨ log.head? = some (.aborted event)) ∧ Orderly log

namespace EventProcessor

variable {s s' : EventProcessor} {running : Option Nat} {event execTime : Nat}

/-- The events that are still in the queue: of those that a forced `KillAllEvents` has passed only
the pointers are. -/
def waiting (s : EventProcessor) : List Queued :=
  if s.mode = .killing true then s.events else s.queue

theorem queue_addEvent (sorted : InOrder s.queue)
    (behind : (∀ force, s.mode ≠ .killing force) → s.passed = []) :
    (s.addEvent event execTime).queue = insertEvent ⟨execTime, event⟩ s.queue := by
  have across : ∀ x ∈ s.passed, ∀ y ∈ s.events, x.execTime ≤ y.execTime := sorted.across
  have ordered : InOrder s.events := (List.pairwise_append.mp sorted).2.1
  rw [addEvent]
  split
  · rename_i isBehind
    refine (insertBy_append_left fun y member => ?_).symm
    rw [goesBehind] at isBehind
    split at isBehind
    · split at isBehind
      · rename_i nothing
        rw [nothing] at member
        cases member
      rename_i x rest ahead
      rw [ahead] at member ordered
      have first : execTime < x.execTime := of_decide_eq_true isBehind
      rcases List.mem_cons.mp member with rfl | inRest
      · exact first
      · exact Nat.lt_of_lt_of_le first ((List.pairwise_cons.mp ordered).1 y inRest)
    · cases isBehind
  · rename_i isAhead
    refine (insertBy_append_right fun x member => ?_).symm
    rw [Bool.not_eq_true, goesBehind] at isAhead
    split at isAhead
    · split at isAhead
      · cases isAhead
      rename_i y rest ahead
      have later : y.execTime ≤ execTime := Nat.le_of_not_lt (of_decide_eq_false isAhead)
      refine Nat.le_trans (across x member y ?_) later
      rw [ahead]
      exact mem_cons_self
    · rename_i notKilling
      rw [behind fun force isKilling => notKilling force isKilling] at member
      cases member

/-! ## What holds between two steps, and while a callback runs -/

/-- **The invariant**, with an event that is being run -/
structure Sound (running : Option Nat) (s : EventProcessor) : Prop where
  orderly : Orderly s.log
  logged : ∀ happening ∈ s.log, happening.subject < s.next
  known : ∀ q ∈ s.waiting, q.event < s.next
  once : (s.waiting.map Queued.event).Nodup
  kept : ∀ event, event < s.next →
    (event ∉ s.waiting.map Queued.event ↔ .deleted event ∈ s.log ∨ running = some event)
  isOpen : ∀ event, running = some event → event < s.next ∧ .deleted event ∉ s.log
  marked : ∀ event, .aborted event ∈ s.log → .deleted event ∉ s.log → s.toAbort event = true
  sorted : InOrder s.queue
  behind : (∀ force, s.mode ≠ .killing force) → s.passed = []
  ran : s.ran.Pairwise fun later earlier => earlier ≤ later
  ahead : s.mode = .updating → ∀ t ∈ s.ran, ∀ q ∈ s.events, t ≤ q.execTime
  forced : s.mode = .killing true → ∀ event, .deleted event ∈ s.log → .deleted event ∉ s.since →
    .aborted event ∈ s.log

theorem sound_initial : Sound none initial where
  orderly := True.intro
  logged := by simp [initial]
  known := by simp [initial, waiting, queue]
  once := nodup_nil
  kept := by simp [initial]
  isOpen := by simp
  marked := by simp [initial]
  sorted := List.Pairwise.nil
  behind := fun _ => rfl
  ran := List.Pairwise.nil
  ahead := by simp [initial]
  forced := by simp [initial]

/-- What a callback adds may go behind what has been passed only if that is looked at again. -/
def InTime (s : EventProcessor) (execTime : Nat) : Prop :=
  (s.mode = .killing true → s.goesBehind execTime = false) ∧
    (s.mode = .updating → ∀ t ∈ s.ran, t ≤ execTime)

theorem waiting_addEvent (sound : Sound running s) (inTime : InTime s execTime) :
    (s.addEvent event execTime).waiting.Perm (⟨execTime, event⟩ :: s.waiting) := by
  have mode : (s.addEvent event execTime).mode = s.mode := by
    rw [addEvent]
    split
    · rfl
    · rfl
  rw [waiting, waiting, mode]
  split
  · rename_i isForced
    rw [addEvent, inTime.1 isForced, if_neg Bool.false_ne_true]
    exact perm_insertEvent _ _
  · rw [queue_addEvent sound.sorted sound.behind]
    exact perm_insertEvent _ _

variable {q : Queued}

theorem mem_events_addEvent (member : q ∈ (s.addEvent event execTime).events) :
    q = ⟨execTime, event⟩ ∨ q ∈ s.events := by
  rw [addEvent] at member
  split at member
  · exact Or.inr member
  · exact List.mem_cons.mp ((perm_insertEvent _ _).mem_iff.mp member)

variable (s event execTime) in
theorem addEvent_frame : (s.addEvent event execTime).log = s.log ∧
    (s.addEvent event execTime).next = s.next ∧ (s.addEvent event execTime).mode = s.mode ∧
    (s.addEvent event execTime).toAbort = s.toAbort ∧ (s.addEvent event execTime).ran = s.ran ∧
    (s.addEvent event execTime).since = s.since ∧ (s.addEvent event execTime).time = s.time ∧
    (s.addEvent event execTime).killed = s.killed := by
  rw [addEvent]
  split
  · exact ⟨rfl, rfl, rfl, rfl, rfl, rfl, rfl, rfl⟩
  · exact ⟨rfl, rfl, rfl, rfl, rfl, rfl, rfl, rfl⟩

theorem Sound.joined {running' : Option Nat} (sound : Sound running s) (inTime : InTime s execTime)
    (isIt : s' = { s.addEvent event execTime with next := s'.next, toAbort := s'.toAbort })
    (later : s.next ≤ s'.next) (known : ∀ k, k < s'.next ↔ k < s.next ∨ k = event)
    (absent : event ∉ s.waiting.map Queued.event) (notDeleted : .deleted event ∉ s.log)
    (runs : ∀ k, running' = some k ↔ running = some k ∧ k ≠ event)
    (marks : ∀ k, k < s.next → s'.toAbort k = s.toAbort k) : Sound running' s' := by
  obtain ⟨log, -, mode, -, ran, since, -⟩ := addEvent_frame s event execTime
  have waits : s'.waiting.Perm (⟨execTime, event⟩ :: s.waiting) := by
    rw [isIt]
    exact waiting_addEvent sound inTime
  have queued : s'.queue = insertEvent ⟨execTime, event⟩ s.queue := by
    rw [isIt]
    exact queue_addEvent sound.sorted sound.behind
  have log' : s'.log = s.log := by
    rw [isIt]
    exact log
  have mode' : s'.mode = s.mode := by
    rw [isIt]
    exact mode
  have ran' : s'.ran = s.ran := by
    rw [isIt]
    exact ran
  have since' : s'.since = s.since := by
    rw [isIt]
    exact since
  have listed : ∀ k, k ∈ s'.waiting.map Queued.event ↔ k = event ∨ k ∈ s.waiting.map Queued.event := by
    intro k
    rw [(waits.map Queued.event).mem_iff, map_cons, mem_cons]
  constructor
  · rw [log']
    exact sound.orderly
  · rw [log']
    exact fun happening member => Nat.lt_of_lt_of_le (sound.logged happening member) later
  · intro q member
    rw [known]
    rcases List.mem_cons.mp (waits.mem_iff.mp member) with rfl | was
    · exact Or.inr rfl
    · exact Or.inl (sound.known q was)
  · rw [(waits.map Queued.event).nodup_iff, map_cons]
    exact List.nodup_cons.mpr ⟨absent, sound.once⟩
  · intro k isKnown
    rw [listed, log', runs]
    by_cases here : k = event
    · rw [here]
      simp [notDeleted]
    · rw [or_iff_right here, and_iff_left here]
      exact sound.kept k (((known k).mp isKnown).resolve_right here)
  · intro k isRunning
    obtain ⟨was, -⟩ := (runs k).mp isRunning
    obtain ⟨isKnown, still⟩ := sound.isOpen k was
    rw [log']
    exact ⟨Nat.lt_of_lt_of_le isKnown later, still⟩
  · intro k wasAborted still
    rw [log'] at wasAborted still
    rw [marks k (sound.logged _ wasAborted)]
    exact sound.marked k wasAborted still
  · rw [queued]
    exact sorted_insertBy sound.sorted
  · intro notKilling
    rw [mode'] at notKilling
    have notBehind : s.goesBehind execTime = false := by
      rw [goesBehind]
      split
      · rename_i force isKilling
        exact absurd isKilling (notKilling force)
      · rfl
    rw [isIt]
    rw [addEvent, notBehind, if_neg Bool.false_ne_true]
    exact sound.behind notKilling
  · rw [ran']
    exact sound.ran
  · intro isUpdating t member q inEvents
    rw [mode'] at isUpdating
    rw [ran'] at member
    rw [isIt] at inEvents
    rcases mem_events_addEvent inEvents with rfl | was
    · exact inTime.2 isUpdating t member
    · exact sound.ahead isUpdating t member q was
  · rw [mode', log', since']
    exact sound.forced

theorem Sound.addNew (sound : Sound running s) (inTime : InTime s execTime) :
    Sound running (s.addNew execTime) := by
  have isNew : s.next ∉ s.waiting.map Queued.event := by
    intro member
    obtain ⟨q, waits, same⟩ := List.mem_map.mp member
    have isKnown := sound.known q waits
    rw [same] at isKnown
    exact Nat.lt_irrefl _ isKnown
  have unlogged : Happening.deleted s.next ∉ s.log :=
    fun member => Nat.lt_irrefl _ (sound.logged _ member)
  refine sound.joined inTime rfl (Nat.le_succ _) (fun k => Nat.lt_succ_iff_lt_or_eq) isNew unlogged
    (fun k => ⟨fun isRunning => ⟨isRunning, fun same => ?_⟩, And.left⟩) fun k isKnown => ?_
  · have isKnown := (sound.isOpen k isRunning).1
    rw [same] at isKnown
    exact Nat.lt_irrefl _ isKnown
  · exact Function.update_of_ne (Nat.ne_of_lt isKnown) _ _

/-- What the events that are added leave -/
structure Grown (s s' : EventProcessor) : Prop where
  log : s'.log = s.log
  mode : s'.mode = s.mode
  killed : s'.killed = s.killed
  passed : ∀ q ∈ s.passed, q ∈ s'.passed
  inTime : ∀ t, InTime s t → InTime s' t

theorem grown_refl (s : EventProcessor) : Grown s s := ⟨rfl, rfl, rfl, fun _ => id, fun _ => id⟩

theorem Grown.trans {s'' : EventProcessor} (first : Grown s s') (second : Grown s' s'') :
    Grown s s'' where
  log := second.log.trans first.log
  mode := second.mode.trans first.mode
  killed := second.killed.trans first.killed
  passed := fun q member => second.passed q (first.passed q member)
  inTime := fun t inTime => second.inTime t (first.inTime t inTime)

theorem goesBehind_addEvent {t : Nat} (ahead : s.goesBehind execTime = false) :
    (s.addEvent event execTime).goesBehind t = s.goesBehind t := by
  rw [addEvent, ahead, if_neg Bool.false_ne_true]
  rw [goesBehind] at ahead
  split at ahead
  · rename_i force isKilling
    split at ahead
    · cases ahead
    rename_i x rest inQueue
    have stays : insertEvent ⟨execTime, event⟩ (x :: rest) =
        x :: insertEvent ⟨execTime, event⟩ rest :=
      if_pos (Nat.le_of_not_lt (of_decide_eq_false ahead))
    rw [goesBehind, goesBehind, isKilling, inQueue, stays]
  · rename_i notKilling
    have notBehind : ∀ s' : EventProcessor, s'.mode = s.mode → s'.goesBehind t = false := by
      intro s' same
      rw [goesBehind, same]
      split
      · rename_i force isKilling
        exact absurd isKilling (notKilling force)
      · rfl
    rw [notBehind s rfl]
    exact notBehind _ rfl

variable (event) in
theorem grown_addEvent (inTime : InTime s execTime) : Grown s (s.addEvent event execTime) := by
  obtain ⟨log, -, mode, -, ran, -, -, killed⟩ := addEvent_frame s event execTime
  refine ⟨log, mode, killed, fun q member => ?_, fun t inTime' => ⟨fun isForced => ?_, ?_⟩⟩
  · rw [addEvent]
    split
    · exact (perm_insertEvent _ _).mem_iff.mpr (mem_cons_of_mem _ member)
    · exact member
  · rw [mode] at isForced
    rw [goesBehind_addEvent (inTime.1 isForced)]
    exact inTime'.1 isForced
  · rw [mode, ran]
    exact inTime'.2

theorem grown_addNew (inTime : InTime s execTime) : Grown s (s.addNew execTime) := by
  obtain ⟨log, mode, killed, passed, later⟩ := grown_addEvent s.next inTime
  exact ⟨log, mode, killed, passed, later⟩

theorem Sound.addAll (execTimes : List Nat) : ∀ {s : EventProcessor}, Sound running s →
    (∀ t ∈ execTimes, InTime s t) →
    Sound running (s.addAll execTimes) ∧ Grown s (s.addAll execTimes) := by
  induction execTimes with
  | nil => exact fun sound _ => ⟨sound, grown_refl _⟩
  | cons t rest ih =>
    intro s sound inTime
    have now := inTime t mem_cons_self
    obtain ⟨later, grown⟩ := ih (sound.addNew now) fun u member =>
      (grown_addNew now).inTime u (inTime u (mem_cons_of_mem _ member))
    exact ⟨later, (grown_addNew now).trans grown⟩

theorem Sound.noted {happening : Happening} (sound : Sound running s)
    (isKnown : happening.subject < s.next) (orderly : Orderly (happening :: s.log))
    (living : ∀ event, happening ≠ .deleted event)
    (marks : ∀ event, happening = .aborted event → s.toAbort event = true) :
    Sound running (s.note happening) where
  orderly := orderly
  logged := by
    intro other member
    rcases List.mem_cons.mp member with rfl | was
    · exact isKnown
    · exact sound.logged other was
  known := sound.known
  once := sound.once
  kept := by
    intro event known
    have same : .deleted event ∈ happening :: s.log ↔ .deleted event ∈ s.log :=
      List.mem_cons.trans (or_iff_right fun same => living event same.symm)
    change _ ↔ .deleted event ∈ happening :: s.log ∨ _
    rw [same]
    exact sound.kept event known
  isOpen := by
    intro event isRunning
    obtain ⟨known, still⟩ := sound.isOpen event isRunning
    refine ⟨known, fun member => ?_⟩
    rcases List.mem_cons.mp member with same | was
    · exact living event same.symm
    · exact still was
  marked := by
    intro event wasAborted still
    have still' : Happening.deleted event ∉ s.log := fun was => still (mem_cons_of_mem _ was)
    rcases List.mem_cons.mp wasAborted with same | was
    · exact marks event same.symm
    · exact sound.marked event was still'
  sorted := sound.sorted
  behind := sound.behind
  ran := sound.ran
  ahead := sound.ahead
  forced := by
    intro isForced event wasDeleted notBefore
    rcases List.mem_cons.mp wasDeleted with same | was
    · exact absurd same.symm (living event)
    · exact mem_cons_of_mem _ (sound.forced isForced event was notBefore)

theorem Sound.disposed (sound : Sound (some event) s)
    (last : s.log.head? = some (.executed event true) ∨ s.log.head? = some (.aborted event))
    (forced : s.mode = .killing true → .aborted event ∈ s.log) :
    Sound none (s.note (.deleted event)) := by
  obtain ⟨isKnown, still⟩ := sound.isOpen event rfl
  constructor
  · exact ⟨still, last, sound.orderly⟩
  · intro other member
    rcases List.mem_cons.mp member with rfl | was
    · exact isKnown
    · exact sound.logged other was
  · exact sound.known
  · exact sound.once
  · intro other known
    have kept := sound.kept other known
    rw [note, mem_cons]
    constructor
    · intro absent
      rcases kept.mp absent with was | same
      · exact Or.inl (Or.inr was)
      · rw [Option.some.inj same]
        exact Or.inl (Or.inl rfl)
    · rintro ((same | was) | nothing)
      · rw [Happening.deleted.inj same] at kept ⊢
        exact kept.mpr (Or.inr rfl)
      · exact kept.mpr (Or.inl was)
      · cases nothing
  · intro other nothing
    cases nothing
  · intro other wasAborted still'
    rcases List.mem_cons.mp wasAborted with same | was
    · cases same
    · exact sound.marked other was fun member => still' (mem_cons_of_mem _ member)
  · exact sound.sorted
  · exact sound.behind
  · exact sound.ran
  · exact sound.ahead
  · intro isForced other wasDeleted notBefore
    rcases List.mem_cons.mp wasDeleted with same | was
    · rw [Happening.deleted.inj same]
      exact mem_cons_of_mem _ (forced isForced)
    · exact mem_cons_of_mem _ (sound.forced isForced other was notBefore)

/-- An input adds nothing before its turn. -/
def Forward (s : EventProcessor) : Input → Prop
  | .turn before readd after => s.mode = .updating → ∀ q rest, s.events = q :: rest →
      ∀ t ∈ before ++ readd.toList ++ after, q.execTime ≤ t
  | .walk added _ => s.mode = .killing true → ∀ q rest, s.events = q :: rest →
      ∀ t ∈ added, ∃ x ∈ rest.head?, x.execTime ≤ t
  | _ => True

theorem Sound.without (sound : Sound none s)
    (waits : s.waiting.Perm (q :: s'.waiting)) (log : s'.log = s.log) (next : s'.next = s.next) :
    (∀ x ∈ s'.waiting, x.event < s'.next) ∧ (s'.waiting.map Queued.event).Nodup ∧
      (∀ event, event < s'.next → (event ∉ s'.waiting.map Queued.event ↔
        .deleted event ∈ s'.log ∨ some q.event = some event)) ∧
      ∀ event, some q.event = some event → event < s'.next ∧ .deleted event ∉ s'.log := by
  have once := sound.once
  rw [(waits.map Queued.event).nodup_iff, map_cons] at once
  obtain ⟨absent, once⟩ := List.nodup_cons.mp once
  have isKnown : q.event < s.next := sound.known q (waits.mem_iff.mpr mem_cons_self)
  have listed : ∀ event, event ∈ s.waiting.map Queued.event ↔
      event = q.event ∨ event ∈ s'.waiting.map Queued.event := by
    intro event
    rw [(waits.map Queued.event).mem_iff, map_cons, mem_cons]
  rw [log, next]
  refine ⟨fun x member => ?_, once, fun event known => ?_, fun event same => ?_⟩
  · exact sound.known x (waits.mem_iff.mpr (mem_cons_of_mem _ member))
  · have kept := sound.kept event known
    rw [listed] at kept
    constructor
    · intro absent'
      by_cases same : q.event = event
      · exact Or.inr (congrArg some same)
      · refine Or.inl ((kept.mp fun member => ?_).resolve_right (Option.some_ne_none event ·.symm))
        exact member.elim (fun here => same here.symm) absent'
    · rintro (wasDeleted | same)
      · exact fun member => kept.mpr (Or.inl wasDeleted) (Or.inr member)
      · rw [← Option.some.inj same]
        exact absent
  · rw [← Option.some.inj same]
    refine ⟨isKnown, fun wasDeleted => ?_⟩
    exact (sound.kept q.event isKnown).mpr (Or.inl wasDeleted) ((listed _).mpr (Or.inl rfl))

variable {rest : List Queued}

theorem Sound.takenOut (sound : Sound none s)
    (isUpdating : s.mode = .updating) (inQueue : s.events = q :: rest) :
    Sound (some q.event) { s with events := rest, ran := q.execTime :: s.ran } := by
  have nothingPassed : s.passed = [] := by
    refine sound.behind fun force isKilling => ?_
    rw [isUpdating] at isKilling
    cases isKilling
  have notForced : s.mode ≠ .killing true := by
    rw [isUpdating]
    exact fun isKilling => nomatch isKilling
  have waits : s.waiting = q :: rest := by
    rw [waiting, if_neg notForced, queue, nothingPassed, inQueue]
    rfl
  have waits' : s.waiting.Perm
      (q :: ({ s with events := rest, ran := q.execTime :: s.ran } : EventProcessor).waiting) := by
    rw [waits, waiting, if_neg notForced, queue]
    rw [nothingPassed]
    exact List.Perm.refl _
  have sorted := sound.sorted
  rw [queue, nothingPassed, inQueue] at sorted
  obtain ⟨first, sorted⟩ := List.pairwise_cons.mp sorted
  obtain ⟨known, once, kept, isOpen⟩ := sound.without waits' rfl rfl
  refine ⟨sound.orderly, sound.logged, known, once, kept, isOpen, sound.marked, ?_, sound.behind,
    ?_, fun _ t member x inRest => ?_, sound.forced⟩
  · rw [nothingPassed]
    exact sorted
  · refine List.pairwise_cons.mpr ⟨fun t member => ?_, sound.ran⟩
    refine sound.ahead isUpdating t member q ?_
    rw [inQueue]
    exact mem_cons_self
  · rcases List.mem_cons.mp member with rfl | earlier
    · exact first x inRest
    · refine sound.ahead isUpdating t earlier x ?_
      rw [inQueue]
      exact mem_cons_of_mem _ inRest

theorem Sound.idled (sound : Sound none s) (isUpdating : s.mode = .updating) :
    Sound none { s with mode := .idle } := by
  have notForced : s.mode ≠ .killing true := by
    rw [isUpdating]
    exact fun isKilling => nomatch isKilling
  have nothingPassed : s.passed = [] := by
    refine sound.behind fun force isKilling => ?_
    rw [isUpdating] at isKilling
    cases isKilling
  have waits : ({ s with mode := .idle } : EventProcessor).waiting = s.waiting := by
    rw [waiting, waiting, if_neg notForced]
    rfl
  refine ⟨sound.orderly, sound.logged, ?_, ?_, ?_, sound.isOpen, sound.marked, sound.sorted,
    fun _ => nothingPassed, sound.ran, fun isUpdating' => ?_, fun isForced => ?_⟩
  · rw [waits]
    exact sound.known
  · rw [waits]
    exact sound.once
  · rw [waits]
    exact sound.kept
  · cases isUpdating'
  · cases isForced

theorem Sound.readded (sound : Sound (some event) s) (inTime : InTime s execTime) :
    Sound none (s.addEvent event execTime) := by
  obtain ⟨isKnown, still⟩ := sound.isOpen event rfl
  obtain ⟨-, next, -, toAbort, -⟩ := addEvent_frame s event execTime
  refine sound.joined inTime rfl (Nat.le_of_eq next.symm) (fun k => ?_)
    ((sound.kept event isKnown).mpr (Or.inr rfl)) still (fun k => ⟨fun nothing => ?_, fun both => ?_⟩)
    fun k _ => congrFun toAbort k
  · rw [next]
    exact ⟨Or.inl, fun either => either.elim id fun same => same ▸ isKnown⟩
  · cases nothing
  · exact absurd (Option.some.inj both.1).symm both.2

theorem Sound.execute {before after : List Nat} {readd : Option Nat} (sound : Sound (some event) s)
    (notMarked : s.toAbort event = false) (notForced : s.mode ≠ .killing true)
    (inTime : ∀ t ∈ before ++ readd.toList ++ after, InTime s t) :
    Sound none (s.execute event before readd after) ∧
      (s.execute event before readd after).killed = s.killed := by
  obtain ⟨isKnown, still⟩ := sound.isOpen event rfl
  have notAborted : Happening.aborted event ∉ s.log := by
    intro wasAborted
    rw [sound.marked event wasAborted still] at notMarked
    cases notMarked
  have noted : Sound (some event) (s.note (.executed event readd.isNone)) :=
    sound.noted isKnown ⟨notAborted, still, sound.orderly⟩ (fun _ same => nomatch same)
      fun _ same => nomatch same
  obtain ⟨soundBefore, grownBefore⟩ := noted.addAll before fun t member =>
    inTime t (mem_append_left _ (mem_append_left _ member))
  rw [EventProcessor.execute]
  cases readd with
  | none =>
    obtain ⟨soundAfter, grownAfter⟩ := soundBefore.addAll after fun t member =>
      grownBefore.inTime t (inTime t (mem_append_right _ member))
    refine ⟨soundAfter.disposed (Or.inl ?_) fun isForced => ?_, ?_⟩
    · rw [grownAfter.log, grownBefore.log]
      rfl
    · rw [grownAfter.mode, grownBefore.mode] at isForced
      exact absurd isForced notForced
    · exact grownAfter.killed.trans grownBefore.killed
  | some t =>
    have isInTime := grownBefore.inTime t (inTime t (mem_append_left _
      (mem_append_right _ mem_cons_self)))
    have grownAgain := grown_addEvent event isInTime
    obtain ⟨soundAfter, grownAfter⟩ := (soundBefore.readded isInTime).addAll after fun u member =>
      grownAgain.inTime u (grownBefore.inTime u (inTime u (mem_append_right _ member)))
    exact ⟨soundAfter, grownAfter.killed.trans (grownAgain.killed.trans grownBefore.killed)⟩

variable {added : List Nat}

theorem Sound.abort (sound : Sound running s) (isKnown : event < s.next)
    (still : .deleted event ∉ s.log) (marked : s.toAbort event = true)
    (inTime : ∀ t ∈ added, InTime s t) :
    Sound running (s.abort event added) ∧
      Grown (s.note (.aborted event)) (s.abort event added) := by
  have noted : Sound running (s.note (.aborted event)) := by
    refine sound.noted isKnown ⟨still, sound.orderly⟩ (fun _ same => nomatch same) fun k same => ?_
    rw [← Happening.aborted.inj same]
    exact marked
  exact noted.addAll added inTime

theorem Sound.turn {before after : List Nat} {readd : Option Nat} (sound : Sound none s)
    (isUpdating : s.mode = .updating) (forward : Forward s (.turn before readd after)) :
    Sound none (s.turn before readd after) ∧ (s.turn before readd after).killed = s.killed := by
  have notForced : s.mode ≠ .killing true := by
    rw [isUpdating]
    exact fun isKilling => nomatch isKilling
  rw [EventProcessor.turn]
  split
  · exact ⟨sound.idled isUpdating, rfl⟩
  rename_i q rest inQueue
  split
  · have taken := sound.takenOut isUpdating inQueue
    have inTime : ∀ t ∈ before ++ readd.toList ++ after,
        InTime { s with events := rest, ran := q.execTime :: s.ran } t := by
      intro t member
      have later := forward isUpdating q rest inQueue t member
      refine ⟨fun isForced => absurd isForced notForced, fun _ u ran => ?_⟩
      rcases List.mem_cons.mp ran with rfl | earlier
      · exact later
      · refine Nat.le_trans (sound.ahead isUpdating u earlier q ?_) later
        rw [inQueue]
        exact mem_cons_self
    dsimp only
    split
    · rename_i notMarked
      rw [Bool.not_eq_true'] at notMarked
      exact taken.execute notMarked notForced inTime
    rename_i marked
    rw [Bool.not_eq_true', Bool.not_eq_false] at marked
    obtain ⟨isKnown, still⟩ := taken.isOpen q.event rfl
    obtain ⟨soundAfter, grown⟩ := taken.abort isKnown still marked fun t member => inTime t (by
      rw [append_assoc]
      rcases List.mem_append.mp member with inBefore | inAfter
      · exact mem_append_left _ inBefore
      · exact mem_append_right _ (mem_append_right _ inAfter))
    refine ⟨soundAfter.disposed (Or.inr ?_) fun isForced => ?_, grown.killed⟩
    · rw [grown.log]
      rfl
    · rw [grown.mode] at isForced
      exact absurd isForced notForced
  · exact ⟨sound.idled isUpdating, rfl⟩

/-- The iterator goes on, and the event that it was at is marked. -/
def stepOver (s : EventProcessor) (q : Queued) (rest : List Queued) : EventProcessor :=
  { s with
    toAbort := Function.update s.toAbort q.event true
    passed := s.passed ++ [q]
    events := rest }

theorem queue_stepOver (inQueue : s.events = q :: rest) :
    (s.stepOver q rest).queue = s.queue := by
  rw [queue, queue, inQueue]
  change s.passed ++ [q] ++ rest = _
  rw [append_assoc]
  rfl

theorem marked_stepOver (sound : Sound running s)
    (event : Nat) (wasAborted : .aborted event ∈ s.log) (still : .deleted event ∉ s.log) :
    (s.stepOver q rest).toAbort event = true := by
  change Function.update s.toAbort q.event true event = true
  by_cases here : event = q.event
  · rw [here, Function.update_self]
  · rw [Function.update_of_ne here]
    exact sound.marked event wasAborted still

theorem Sound.steppedOver (sound : Sound none s)
    (isKilling : s.mode = .killing false) (inQueue : s.events = q :: rest) :
    Sound none (s.stepOver q rest) := by
  have same := queue_stepOver inQueue
  have notForced : s.mode ≠ .killing true := by
    rw [isKilling]
    exact fun isForced => nomatch isForced
  have waits : (s.stepOver q rest).waiting = s.waiting := by
    rw [waiting, waiting, same]
    change (if s.mode = .killing true then rest else s.queue) = _
    rw [if_neg notForced, if_neg notForced]
  refine ⟨sound.orderly, sound.logged, ?_, ?_, ?_, sound.isOpen, marked_stepOver sound, ?_,
    fun notKilling => ?_, sound.ran, fun isUpdating => ?_, sound.forced⟩
  · rw [waits]
    exact sound.known
  · rw [waits]
    exact sound.once
  · rw [waits]
    exact sound.kept
  · rw [same]
    exact sound.sorted
  · exact absurd isKilling (notKilling false)
  · change s.mode = _ at isUpdating
    rw [isKilling] at isUpdating
    cases isUpdating

theorem Sound.steppedOver_forced (sound : Sound none s)
    (isForced : s.mode = .killing true) (inQueue : s.events = q :: rest) :
    Sound (some q.event) (s.stepOver q rest) := by
  have same := queue_stepOver inQueue
  have waits : s.waiting = q :: (s.stepOver q rest).waiting := by
    have waits' : (s.stepOver q rest).waiting = rest := if_pos isForced
    rw [waits', waiting, if_pos isForced, inQueue]
  obtain ⟨known, once, kept, isOpen⟩ := sound.without (Perm.of_eq waits) rfl rfl
  refine ⟨sound.orderly, sound.logged, known, once, kept, isOpen, marked_stepOver sound, ?_,
    fun notKilling => ?_, sound.ran, fun isUpdating => ?_, sound.forced⟩
  · rw [same]
    exact sound.sorted
  · exact absurd isForced (notKilling true)
  · change s.mode = _ at isUpdating
    rw [isForced] at isUpdating
    cases isUpdating

theorem Sound.erased (sound : Sound none s) (isKilling : s.mode = .killing false)
    (hasPassed : q ∈ s.passed) : Sound (some q.event) { s with passed := s.passed.erase q } := by
  have notForced : s.mode ≠ .killing true := by
    rw [isKilling]
    exact fun isForced => nomatch isForced
  have waits : s.waiting.Perm
      (q :: ({ s with passed := s.passed.erase q } : EventProcessor).waiting) := by
    rw [waiting, waiting, if_neg notForced, if_neg notForced]
    exact (perm_cons_erase hasPassed).append_right s.events
  obtain ⟨known, once, kept, isOpen⟩ := sound.without waits rfl rfl
  refine ⟨sound.orderly, sound.logged, known, once, kept, isOpen, sound.marked, ?_,
    fun notKilling => ?_, sound.ran, sound.ahead, sound.forced⟩
  · have isSublist : (s.passed.erase q ++ s.events).Sublist s.queue :=
      (erase_sublist).append_right s.events
    exact sound.sorted.sublist isSublist
  · exact absurd isKilling (notKilling false)

theorem Sound.walk {force isDeletable : Bool} (sound : Sound none s)
    (isKilling : s.mode = .killing force) (forward : Forward s (.walk added isDeletable))
    (inQueue : s.events = q :: rest) :
    Sound none (s.walk force added isDeletable) ∧
      (s.walk force added isDeletable).killed = s.killed := by
  have marked : (s.stepOver q rest).toAbort q.event = true := Function.update_self _ _ _
  have isLast : q ∈ (s.stepOver q rest).passed := mem_append_right _ mem_cons_self
  have isWalk : s.walk force added isDeletable =
      if force || isDeletable then
        { ((s.stepOver q rest).abort q.event added).note (.deleted q.event) with
          passed :=
            if force then ((s.stepOver q rest).abort q.event added).passed
            else ((s.stepOver q rest).abort q.event added).passed.erase q }
      else (s.stepOver q rest).abort q.event added := by
    rw [EventProcessor.walk, inQueue]
    rfl
  rw [isWalk]
  cases force with
  | true =>
    have past := sound.steppedOver_forced isKilling inQueue
    obtain ⟨isKnown, still⟩ := past.isOpen q.event rfl
    obtain ⟨aborted, grown⟩ := past.abort isKnown still marked fun t member => by
      obtain ⟨x, first, inTime⟩ := forward isKilling q rest inQueue t member
      refine ⟨fun _ => ?_, fun isUpdating => ?_⟩
      · have ahead : (s.stepOver q rest).events.head? = some x := first
        rw [goesBehind]
        split
        · split
          · rename_i nothing
            rw [nothing] at ahead
            cases ahead
          rename_i y _ inRest
          rw [inRest] at ahead
          rw [Option.some.inj ahead]
          exact decide_eq_false (Nat.not_lt.mpr inTime)
        · rfl
      · change s.mode = _ at isUpdating
        rw [isKilling] at isUpdating
        cases isUpdating
    rw [Bool.true_or, if_pos rfl, if_pos rfl]
    refine ⟨aborted.disposed (Or.inr ?_) fun _ => ?_, grown.killed⟩
    · rw [grown.log]
      rfl
    · rw [grown.log]
      exact mem_cons_self
  | false =>
    have notForced : s.mode ≠ .killing true := by
      rw [isKilling]
      exact fun isForced => nomatch isForced
    have past := sound.steppedOver isKilling inQueue
    have waits : q ∈ s.waiting := by
      rw [waiting, if_neg notForced, queue, inQueue]
      exact mem_append_right _ mem_cons_self
    have isKnown : q.event < s.next := sound.known q waits
    have still : Happening.deleted q.event ∉ s.log := fun wasDeleted =>
      (sound.kept q.event isKnown).mpr (Or.inl wasDeleted) (List.mem_map_of_mem waits)
    obtain ⟨aborted, grown⟩ := past.abort isKnown still marked fun t (_ : t ∈ added) =>
      ⟨fun isForced => absurd isForced notForced, fun isUpdating => by
        change s.mode = _ at isUpdating
        rw [isKilling] at isUpdating
        cases isUpdating⟩
    rw [Bool.false_or]
    split
    · have isKilling' := grown.mode.trans isKilling
      have erased := aborted.erased isKilling' (grown.passed q isLast)
      refine ⟨erased.disposed (Or.inr ?_) fun isForced => ?_, grown.killed⟩
      · rw [grown.log]
        rfl
      · exact absurd (grown.mode.symm.trans isForced) notForced
    · exact ⟨aborted, grown.killed⟩

/-- A forced `KillAllEvents` leaves no event, and has aborted all that were there or came. -/
def Emptied (s : EventProcessor) : Prop :=
  s.queue = [] ∧ ∀ event, event < s.next →
    .deleted event ∈ s.log ∧ (.deleted event ∉ s.since → .aborted event ∈ s.log)

structure Disposed (s : EventProcessor) : Prop where
  orderly : Orderly s.log
  kept : ∀ event, event < s.next → (event ∈ s.waiting.map Queued.event ↔ .deleted event ∉ s.log)
  once : (s.waiting.map Queued.event).Nodup
  ran : s.ran.Pairwise fun later earlier => earlier ≤ later
  emptied : s.killed = true → s.Emptied

structure Steady (s : EventProcessor) : Prop where
  sound : Sound none s
  emptied : s.killed = true → s.Emptied
  resting : s.killed = true → s.mode = .idle

theorem Steady.disposed (steady : Steady s) : Disposed s where
  orderly := steady.sound.orderly
  kept := by
    intro event known
    have kept := steady.sound.kept event known
    rw [or_iff_left (Option.some_ne_none event ·.symm)] at kept
    exact (not_iff_comm.mp kept).symm
  once := steady.sound.once
  ran := steady.sound.ran
  emptied := steady.emptied

theorem Sound.steady (sound : Sound none s) (notKilled : s.killed = false) : Steady s := by
  refine ⟨sound, fun isKilled => ?_, fun isKilled => ?_⟩
  · rw [notKilled] at isKilled
    cases isKilled
  · rw [notKilled] at isKilled
    cases isKilled

theorem Sound.unkilled (sound : Sound none s) : Steady { s with killed := false } :=
  Sound.steady ⟨sound.orderly, sound.logged, sound.known, sound.once, sound.kept, sound.isOpen,
    sound.marked, sound.sorted, sound.behind, sound.ran, sound.ahead, sound.forced⟩ rfl

theorem Sound.killing {force : Bool} (sound : Sound none s) (isIdle : s.mode = .idle) :
    Sound none { s with aborting := true, mode := .killing force, since := s.log } := by
  have nothingPassed : s.passed = [] := by
    refine sound.behind fun force isKilling => ?_
    rw [isIdle] at isKilling
    cases isKilling
  have notForced : s.mode ≠ .killing true := by
    rw [isIdle]
    exact fun isForced => nomatch isForced
  have waits : ({ s with aborting := true, mode := .killing force, since := s.log } :
      EventProcessor).waiting = s.waiting := by
    rw [waiting, waiting, if_neg notForced, queue, queue, nothingPassed]
    exact ite_self _
  refine ⟨sound.orderly, sound.logged, ?_, ?_, ?_, sound.isOpen, sound.marked, sound.sorted,
    fun notKilling => absurd rfl (notKilling force), sound.ran, fun isUpdating => ?_,
    fun _ event wasDeleted notBefore => absurd wasDeleted notBefore⟩
  · rw [waits]
    exact sound.known
  · rw [waits]
    exact sound.once
  · rw [waits]
    exact sound.kept
  · cases isUpdating

theorem Sound.updating {pTime : Nat} (sound : Sound none s) (isIdle : s.mode = .idle) :
    Sound none { s with time := s.time + pTime, mode := .updating, ran := [] } := by
  have notForced : s.mode ≠ .killing true := by
    rw [isIdle]
    exact fun isForced => nomatch isForced
  have waits : ({ s with time := s.time + pTime, mode := .updating, ran := [] } :
      EventProcessor).waiting = s.waiting := by
    rw [waiting, waiting, if_neg notForced]
    rfl
  refine ⟨sound.orderly, sound.logged, ?_, ?_, ?_, sound.isOpen, sound.marked, sound.sorted,
    fun _ => ?_, List.Pairwise.nil, fun _ t nothing => ?_, fun isForced => ?_⟩
  · rw [waits]
    exact sound.known
  · rw [waits]
    exact sound.once
  · rw [waits]
    exact sound.kept
  · refine sound.behind fun force isKilling => ?_
    rw [isIdle] at isKilling
    cases isKilling
  · cases nothing
  · cases isForced

theorem Sound.walked {force isDeletable : Bool} (sound : Sound none s)
    (isKilling : s.mode = .killing force) (nothingAhead : s.events = [])
    (notKilled : s.killed = false) : Steady (s.walk force added isDeletable) := by
  have isWalk : s.walk force added isDeletable =
      if force then { s with passed := [], mode := .idle, killed := true }
      else { s with passed := [], events := s.passed, mode := .idle } := by
    rw [EventProcessor.walk, nothingAhead]
  rw [isWalk]
  cases force with
  | true =>
    have nothing : s.waiting = [] := by
      rw [waiting, if_pos isKilling]
      exact nothingAhead
    have empty : ({ s with passed := [], mode := .idle, killed := true } : EventProcessor).queue =
        [] := nothingAhead
    have empty' : ({ s with passed := [], mode := .idle, killed := true } :
        EventProcessor).waiting = s.waiting := nothing ▸ empty
    refine ⟨⟨sound.orderly, sound.logged, ?_, ?_, ?_, sound.isOpen, sound.marked, ?_,
      fun _ => rfl, sound.ran, fun isUpdating => ?_, fun isForced => ?_⟩,
      fun _ => ⟨empty, fun event known => ?_⟩, fun _ => rfl⟩
    · rw [if_pos rfl, empty']
      exact sound.known
    · rw [if_pos rfl, empty']
      exact sound.once
    · rw [if_pos rfl, empty']
      exact sound.kept
    · rw [if_pos rfl, empty]
      exact List.Pairwise.nil
    · cases isUpdating
    · cases isForced
    · have gone : event ∉ s.waiting.map Queued.event := by
        rw [nothing]
        exact not_mem_nil
      have wasDeleted : .deleted event ∈ s.log :=
        ((sound.kept event known).mp gone).resolve_right (Option.some_ne_none event ·.symm)
      exact ⟨wasDeleted, sound.forced isKilling event wasDeleted⟩
  | false =>
    have same : ({ s with passed := [], events := s.passed, mode := .idle } :
        EventProcessor).queue = s.queue := by
      rw [queue, queue, nothingAhead, append_nil]
      rfl
    have notForced : s.mode ≠ .killing true := by
      rw [isKilling]
      exact fun isForced => nomatch isForced
    have waits : ({ s with passed := [], events := s.passed, mode := .idle } :
        EventProcessor).waiting = s.waiting := by
      rw [waiting, waiting, if_neg notForced]
      exact same
    rw [if_neg Bool.false_ne_true]
    refine Sound.steady ⟨sound.orderly, sound.logged, ?_, ?_, ?_, sound.isOpen, sound.marked, ?_,
      fun _ => rfl, sound.ran, fun isUpdating => ?_, fun isForced => ?_⟩ notKilled
    · rw [waits]
      exact sound.known
    · rw [waits]
      exact sound.once
    · rw [waits]
      exact sound.kept
    · rw [same]
      exact sound.sorted
    · cases isUpdating
    · cases isForced

theorem Steady.notKilled (steady : Steady s) (isBusy : s.mode ≠ .idle) : s.killed = false := by
  cases isKilled : s.killed with
  | true => exact absurd (steady.resting isKilled) isBusy
  | false => rfl

theorem Steady.step {input : Input} (steady : Steady s) (forward : Forward s input) :
    Steady (s.step input) := by
  have sound := steady.sound
  cases input with
  | addEvent execTime =>
    rw [EventProcessor.step]
    split
    · rename_i isIdle
      refine (sound.addNew ⟨fun isForced => ?_, fun isUpdating => ?_⟩).unkilled
      · rw [isIdle] at isForced
        cases isForced
      · rw [isIdle] at isUpdating
        cases isUpdating
    · exact steady
  | setToAbort event =>
    rw [EventProcessor.step]
    split
    · refine ⟨⟨sound.orderly, sound.logged, sound.known, sound.once, sound.kept, sound.isOpen,
        fun other wasAborted still => ?_, sound.sorted, sound.behind, sound.ran, sound.ahead,
        sound.forced⟩, steady.emptied, steady.resting⟩
      change Function.update s.toAbort event true other = true
      by_cases here : other = event
      · rw [here, Function.update_self]
      · rw [Function.update_of_ne here]
        exact sound.marked other wasAborted still
    · exact steady
  | update pTime =>
    rw [EventProcessor.step]
    split
    · rename_i isIdle
      exact (sound.updating isIdle).unkilled
    · exact steady
  | turn before readd after =>
    rw [EventProcessor.step]
    split
    · rename_i isUpdating
      have notIdle : s.mode ≠ .idle := by
        rw [isUpdating]
        exact fun isIdle => nomatch isIdle
      obtain ⟨turned, killed⟩ := sound.turn isUpdating forward
      exact turned.steady (killed.trans (steady.notKilled notIdle))
    · exact steady
  | killAllEvents force =>
    rw [EventProcessor.step]
    split
    · rename_i isIdle
      exact (sound.killing isIdle).unkilled
    · exact steady
  | walk added isDeletable =>
    rw [EventProcessor.step]
    split
    · rename_i force isKilling
      have notIdle : s.mode ≠ .idle := by
        rw [isKilling]
        exact fun isIdle => nomatch isIdle
      have notKilled := steady.notKilled notIdle
      cases inQueue : s.events with
      | nil => exact sound.walked isKilling inQueue notKilled
      | cons q rest =>
        obtain ⟨walked, killed⟩ := sound.walk isKilling forward inQueue
        exact walked.steady (killed.trans notKilled)
    · exact steady

/-- **Every scheduled event is disposed of exactly once** in every run that adds nothing before its
turn. -/
theorem disposed_run {inputs : List Input}
    (forward : Machine.EachStep step Forward initial inputs) :
    Machine.Throughout step Disposed initial inputs := by
  have start : Steady initial := sound_initial.steady rfl
  exact (Machine.Throughout.of_eachStep start (fun _ _ steady met => steady.step met) forward).mono
    fun _ steady => steady.disposed

/-- While the first of two is aborted, a third comes to stand behind the second. -/
theorem disposed_run_of_three : Machine.Throughout step Disposed initial
    [.addEvent 10, .addEvent 20, .killAllEvents true, .walk [20] false, .walk [] false,
      .walk [] false, .walk [] false] :=
  disposed_run (by simp [step, initial, addNew, addEvent, goesBehind, insertEvent, insertBy, walk,
    abort, addAll, note, Forward])

/-- What the last one adds when it is aborted is neither aborted nor deleted. -/
theorem lost_behind : ¬ ∀ inputs, Machine.Throughout step Disposed initial inputs := by
  intro always
  have last := (always [.addEvent 10, .killAllEvents true, .walk [10] false, .walk [] false]).last
  have isKnown : 1 < (Machine.run step initial
      [.addEvent 10, .killAllEvents true, .walk [10] false, .walk [] false]).next := by decide
  have wasDeleted := ((last.emptied rfl).2 1 isKnown).1
  exact absurd wasDeleted (by decide)

end EventProcessor

end Sky548
