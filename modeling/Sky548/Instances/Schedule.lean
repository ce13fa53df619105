import Mathlib.Data.List.Nodup
import Mathlib.Data.List.Chain
import Sky548.Instances.ResetTimes
import Sky548.Machine

/-!
# Global resets follow their schedule

For each map difficulty with a reset time there is one event in the queue, and what has come up for
it so far goes through the warnings and the reset in turn (`Scheduled`), in a run that is `Careful`
and `InTime`.

The time that a warning announces is taken the wrong way round: it is right exactly for a warning
that comes up at the reset itself (`OnTime`).
-/

namespace Sky548

open List

def InstResetEvent.pair (event : InstResetEvent) : Nat × Nat := (event.mapid, event.difficulty)

def Periodic (c : ResetConfig) (d : MapDifficulty) : Prop := d ∈ c.difficulties ∧ d.resetTime ≠ 0

def MapDifficulty.event (d : MapDifficulty) (type : Nat) : InstResetEvent :=
  ⟨type, d.mapid, d.difficulty, 0⟩

/-- What comes up after each type -/
def nextType (type : Nat) : Nat := if type = 4 then 1 else type + 1

/-- What comes up after something else of the same map difficulty: the next type, for the reset time
that was stored then -/
def Firing.Follows (later earlier : Firing) : Prop :=
  later.type = nextType earlier.type ∧ later.resetTime = earlier.next

theorem Periodic.eq_of_pair {c : ResetConfig} {d d' : MapDifficulty} (isPeriodic : Periodic c d)
    (isPeriodic' : Periodic c d') (same : d.pair = d'.pair) : d = d' :=
  inj_on_of_nodup_map c.distinct isPeriodic.1 isPeriodic'.1 same

theorem Periodic.find?_eq {c : ResetConfig} {d : MapDifficulty} (isPeriodic : Periodic c d) :
    (c.difficulties.find? fun d' => d'.pair = d.pair) = some d := by
  cases lookup : c.difficulties.find? fun d' => d'.pair = d.pair with
  | none =>
    have absent := List.find?_eq_none.mp lookup d isPeriodic.1
    simp at absent
  | some d' =>
    have same : d'.pair = d.pair := by simpa using find?_some lookup
    rw [inj_on_of_nodup_map c.distinct (mem_of_find?_eq_some lookup) isPeriodic.1 same]

theorem DAY_le_period (d : MapDifficulty) : DAY ≤ d.period := by
  rw [MapDifficulty.period]
  split
  · exact Nat.le_refl _
  · rename_i notShort
    exact Nat.le_of_not_lt notShort

namespace ResetTimes

variable {c : ResetConfig} {s : ResetTimes} {d : MapDifficulty}

def isGlobalOf (pair : Nat × Nat) (q : Nat × InstResetEvent) : Bool :=
  decide (q.2.type ≠ 0) && decide (q.2.pair = pair)

variable (s) in
/-- The warnings and resets in the queue for all of a map difficulty -/
def globalEvents (pair : Nat × Nat) : List (Nat × InstResetEvent) :=
  s.resetTimeQueue.filter (isGlobalOf pair)

variable (s) in
/-- What has come up for a map difficulty, the last first -/
def firings (pair : Nat × Nat) : List Firing := s.fired.filter fun f => f.pair = pair

variable (s) in
/-- The event of a type comes up next for a map difficulty. -/
def upcoming (pair : Nat × Nat) (type : Nat) : Firing :=
  ⟨pair, type, s.resetTimeByMapDifficulty pair, s.resetTimeByMapDifficulty pair, none⟩

/-- **What is pending** for a map difficulty: one event, in its time, which follows all that has come up
before. -/
def Pending (s : ResetTimes) (d : MapDifficulty) (type : Nat) : Prop :=
  (1 ≤ type ∧ type ≤ 4) ∧
    s.globalEvents d.pair =
      [(s.resetTimeByMapDifficulty d.pair - resetTimeDelay type, d.event type)] ∧
    (s.upcoming d.pair type :: s.firings d.pair).IsChain Firing.Follows

/-- **The schedule**: an event is pending for each map difficulty, and with each reset, and only then,
the reset time has advanced by a period. -/
structure Scheduled (c : ResetConfig) (s : ResetTimes) : Prop where
  pending : ∀ d, Periodic c d → ∃ type, Pending s d type
  advanced : ∀ f ∈ s.fired, ∀ d, Periodic c d → d.pair = f.pair →
    f.next = if f.type = 4 then f.resetTime + d.period else f.resetTime

/-- The first of the events for a reset time that is still ahead -/
def FirstAhead (now t type : Nat) : Prop :=
  (∀ earlier, 1 ≤ earlier → earlier < type → ¬ now < t - resetTimeDelay earlier) ∧
    (type = 4 ∨ now < t - resetTimeDelay type)

/-- The hour is one of a day, the periods are days, the maps are such that have instances, and no
instance of these has a reset time of its own. -/
structure Careful (c : ResetConfig) (instances : List InstanceRow) : Prop where
  hour : c.diff + MINUTE < DAY
  days : ∀ d, Periodic c d → DAY ∣ d.period
  instanceable : ∀ d, Periodic c d → c.instanceable d.mapid = true
  noneOwn : ∀ row ∈ instances, row.resettime ≠ 0 → ∀ d, Periodic c d →
    (row.mapid, row.difficulty) ≠ d.pair

/-- The next reset time fits. -/
def InTime (c : ResetConfig) (s : ResetTimes) : Input → Prop
  | .update _ => True
  | .turn _ _ => ∀ q ∈ s.resetTimeQueue.head?, q.1 < s.now → q.2.type = 4 →
      ∀ d ∈ c.difficulties, d.pair = q.2.pair →
        s.resetTimeByMapDifficulty q.2.pair + d.period < 2 ^ 32

/-- A warning that is sent comes up at the reset itself. -/
def OnTime (s : ResetTimes) : Input → Prop
  | .update _ => True
  | .turn now loaded => ∀ q ∈ s.resetTimeQueue.head?, q.1 < s.now → q.2.type ≠ 0 → q.2.type ≠ 4 →
      loaded q.2.mapid > 0 → now = s.resetTimeByMapDifficulty q.2.pair

/-- **What a warning announces** is the time that is left until the reset. -/
def Announces (c : ResetConfig) (s : ResetTimes) (input : Input) : Prop :=
  match input with
  | .update _ => True
  | .turn now _ => ∀ f ∈ (step c s input).fired.head?, s.fired.length < (step c s input).fired.length →
      ∀ left ∈ f.announced, (left : Int) = (f.resetTime : Int) - now

instance : ∀ (s : ResetTimes) (input : Input), Decidable (InTime c s input)
  | _, .update _ => inferInstanceAs (Decidable True)
  | s, .turn _ _ => inferInstanceAs (Decidable (∀ q ∈ s.resetTimeQueue.head?, q.1 < s.now →
      q.2.type = 4 → ∀ d ∈ c.difficulties, d.pair = q.2.pair →
        s.resetTimeByMapDifficulty q.2.pair + d.period < 2 ^ 32))

instance : ∀ (s : ResetTimes) (input : Input), Decidable (Announces c s input)
  | _, .update _ => inferInstanceAs (Decidable True)
  | s, .turn now loaded => inferInstanceAs (Decidable (∀ f ∈ (s.turn c now loaded).fired.head?,
      s.fired.length < (s.turn c now loaded).fired.length →
        ∀ left ∈ f.announced, (left : Int) = (f.resetTime : Int) - now))

theorem isGlobalOf_iff {pair : Nat × Nat} {q : Nat × InstResetEvent} :
    isGlobalOf pair q = true ↔ q.2.type ≠ 0 ∧ q.2.pair = pair := by
  rw [isGlobalOf, Bool.and_eq_true, decide_eq_true_iff, decide_eq_true_iff]

theorem isGlobalOf_event {pair : Nat × Nat} {t type : Nat} (isGlobal : type ≠ 0) :
    isGlobalOf pair (t, d.event type) = true ↔ d.pair = pair :=
  isGlobalOf_iff.trans (and_iff_right isGlobal)

theorem nextType_bounds {type : Nat} (bounds : 1 ≤ type ∧ type ≤ 4) :
    1 ≤ nextType type ∧ nextType type ≤ 4 := by
  rw [nextType]
  split <;> omega

/-- What the loop keeps: besides the schedule, the events for all of a map are those of its
difficulties, and the reset times are of the hour. -/
structure Steady (c : ResetConfig) (s : ResetTimes) : Prop where
  scheduled : Scheduled c s
  owned : ∀ q ∈ s.resetTimeQueue, q.2.type ≠ 0 → ∃ d, Periodic c d ∧ d.pair = q.2.pair
  aligned : ∀ d, Periodic c d → s.resetTimeByMapDifficulty d.pair % DAY = c.diff

variable (s) in
/-- The event of a map difficulty, the first in the queue, has come up: the next one takes its place. -/
def advance (d : MapDifficulty) (type next : Nat) (announced : Option Nat)
    (rest : List (Nat × InstResetEvent)) : ResetTimes where
  resetTimeByMapDifficulty := Function.update s.resetTimeByMapDifficulty d.pair next
  resetTimeQueue := insertBy Prod.fst
    (next - resetTimeDelay (nextType type), d.event (nextType type)) rest
  now := s.now
  fired := ⟨d.pair, type, s.resetTimeByMapDifficulty d.pair, next, announced⟩ :: s.fired

def nextTime (d : MapDifficulty) (type t : Nat) : Nat := if type = 4 then t + d.period else t

theorem Steady.head_eq (steady : Steady c s) {q : Nat × InstResetEvent}
    {rest : List (Nat × InstResetEvent)} (queue : s.resetTimeQueue = q :: rest)
    (isGlobal : q.2.type ≠ 0) : ∃ d type, Periodic c d ∧ Pending s d type ∧
      q = (s.resetTimeByMapDifficulty d.pair - resetTimeDelay type, d.event type) ∧
      rest.filter (isGlobalOf d.pair) = [] := by
  obtain ⟨d, isPeriodic, same⟩ :=
    steady.owned q (by rw [queue]; exact mem_cons_self) isGlobal
  obtain ⟨type, pending⟩ := steady.scheduled.pending d isPeriodic
  have events := pending.2.1
  rw [globalEvents, queue, filter_cons_of_pos (isGlobalOf_iff.mpr ⟨isGlobal, same.symm⟩)]
    at events
  obtain ⟨isHead, noneElse⟩ := List.cons.inj events
  exact ⟨d, type, isPeriodic, pending, isHead, noneElse⟩

section Turn

variable {instances : List InstanceRow} {now : Nat} {loaded : Nat → Nat} {type t : Nat}
  {rest : List (Nat × InstResetEvent)}

theorem nextReset_eq (careful : Careful c instances)
    (aligned : t % DAY = c.diff) (fits : t + d.period < 2 ^ 32) :
    ((t + MINUTE) / DAY * DAY + d.period + c.diff) % 2 ^ 32 = t + d.period := by
  have sameDay : (t + MINUTE) / DAY = t / DAY := by
    have split := Nat.div_add_mod t DAY
    have hour := careful.hour
    rw [aligned] at split
    have splitLater : t + MINUTE = DAY * (t / DAY) + (c.diff + MINUTE) := by omega
    rw [splitLater, Nat.mul_add_div (by decide), Nat.div_eq_of_lt hour, Nat.add_zero]
  have split := Nat.div_add_mod' t DAY
  rw [sameDay, Nat.mod_eq_of_lt (by omega)]
  omega

theorem resetOrWarnAll_warning (careful : Careful c instances) (isPeriodic : Periodic c d)
    (isWarning : type ≠ 4) :
    s.resetOrWarnAll c now loaded (d.event type) t = { s with
        fired := ⟨d.pair, type, t, t,
          if loaded d.mapid > 0 then some (timeLeft now t) else none⟩ :: s.fired } := by
  unfold resetOrWarnAll
  simp only [MapDifficulty.event, careful.instanceable d isPeriodic, Bool.not_true,
    Bool.false_eq_true, if_false, MapDifficulty.pair]
  exact if_pos isWarning

theorem resetOrWarnAll_reset (careful : Careful c instances) (isPeriodic : Periodic c d)
    (aligned : t % DAY = c.diff) (fits : t + d.period < 2 ^ 32) :
    s.resetOrWarnAll c now loaded (d.event 4) t =
      { (s.setResetTimeFor d.pair (t + d.period)).scheduleReset (t + d.period - 3600) (d.event 1) with
        fired := ⟨d.pair, 4, t, t + d.period, none⟩ :: s.fired } := by
  have found := isPeriodic.find?_eq
  unfold resetOrWarnAll
  simp only [MapDifficulty.event, careful.instanceable d isPeriodic, Bool.not_true,
    Bool.false_eq_true, if_false, ne_eq, not_true_eq_false]
  split
  · rename_i lookup
    cases lookup.symm.trans found
  rename_i d' lookup
  obtain rfl := Option.some.inj (lookup.symm.trans found)
  rw [if_neg isPeriodic.2, nextReset_eq careful aligned fits]
  rfl

theorem notBefore_next (bounds : 1 ≤ type ∧ type ≤ 4) :
    t - resetTimeDelay type ≤ nextTime d type t - resetTimeDelay (nextType type) := by
  have later := DAY_le_period d
  have choice : type = 1 ∨ type = 2 ∨ type = 3 ∨ type = 4 := by omega
  simp only [DAY, HOUR, MINUTE] at later
  rcases choice with rfl | rfl | rfl | rfl <;>
    simp [nextTime, nextType, resetTimeDelay] <;> omega

theorem tail_insert {q q' : Nat × InstResetEvent} (notBefore : q.1 ≤ q'.1) :
    (insertBy Prod.fst q' (q :: rest)).tail = insertBy Prod.fst q' rest := by
  rw [insertBy_cons_of_le notBefore, tail_cons]

/-- **All that a turn does**: nothing, or an event of a single instance goes, or the event of a map
difficulty makes place for the next one. -/
theorem turn_cases (careful : Careful c instances) (steady : Steady c s)
    (inTime : InTime c s (.turn now loaded)) :
    ((∀ q ∈ s.resetTimeQueue.head?, s.now ≤ q.1) ∧ s.turn c now loaded = s) ∨
    (∃ q rest, s.resetTimeQueue = q :: rest ∧ q.2.type = 0 ∧
      s.turn c now loaded = { s with resetTimeQueue := rest }) ∨
    (∃ d type rest announced, Periodic c d ∧ Pending s d type ∧
      s.resetTimeByMapDifficulty d.pair - resetTimeDelay type < s.now ∧
      s.resetTimeQueue =
        (s.resetTimeByMapDifficulty d.pair - resetTimeDelay type, d.event type) :: rest ∧
      rest.filter (isGlobalOf d.pair) = [] ∧
      announced = (if type ≠ 4 ∧ loaded d.mapid > 0 then
        some (timeLeft now (s.resetTimeByMapDifficulty d.pair)) else none) ∧
      s.turn c now loaded = s.advance d type
        (nextTime d type (s.resetTimeByMapDifficulty d.pair)) announced rest) := by
  unfold turn
  cases queue : s.resetTimeQueue with
  | nil =>
    refine Or.inl ⟨fun q isHead => ?_, rfl⟩
    cases isHead
  | cons q rest =>
    obtain ⟨t, event⟩ := q
    by_cases early : t ≥ s.now
    · refine Or.inl ⟨fun q isHead => ?_, if_pos early⟩
      obtain rfl := Option.some.inj isHead
      exact early
    by_cases single : event.type = 0
    · simp only [if_neg early, if_pos single]
      exact Or.inr (Or.inl ⟨_, rest, rfl, single, rfl⟩)
    obtain ⟨d, type, isPeriodic, pending, isHead, noneElse⟩ := steady.head_eq queue single
    obtain ⟨rfl, rfl⟩ := Prod.mk.inj isHead
    refine Or.inr (Or.inr ⟨d, type, rest, _, isPeriodic, pending, Nat.lt_of_not_le early, rfl,
      noneElse, rfl, ?_⟩)
    have isPair : ((d.event type).mapid, (d.event type).difficulty) = d.pair := rfl
    simp only [if_neg early, if_neg single, isPair]
    have inPlace : ∀ event, (insertBy Prod.fst
        (nextTime d type (s.resetTimeByMapDifficulty d.pair) - resetTimeDelay (nextType type),
          d.event (nextType type))
        ((s.resetTimeByMapDifficulty d.pair - resetTimeDelay type, event) :: rest)).tail = _ :=
      fun event => tail_insert (notBefore_next pending.1)
    by_cases isReset : type = 4
    · subst isReset
      have fits : s.resetTimeByMapDifficulty d.pair + d.period < 2 ^ 32 := by
        refine inTime (_, d.event 4) ?_ (Nat.lt_of_not_le early) rfl d isPeriodic.1 rfl
        rw [queue]
        rfl
      rw [resetOrWarnAll_reset careful isPeriodic (steady.aligned d isPeriodic) fits,
        if_neg (by simp [MapDifficulty.event])]
      have resetInPlace : (insertBy Prod.fst
          (s.resetTimeByMapDifficulty d.pair + d.period - 3600, d.event 1)
          ((s.resetTimeByMapDifficulty d.pair - resetTimeDelay 4, d.event 4) :: rest)).tail = _ :=
        inPlace (d.event 4)
      simp only [scheduleReset, setResetTimeFor, queue]
      rw [resetInPlace]
      rfl
    · rw [resetOrWarnAll_warning careful isPeriodic isReset,
        if_pos (show (d.event type).type ≠ 4 from isReset)]
      have changed : ({ d.event type with
          type := (d.event type).type + 1 } : InstResetEvent) = d.event (nextType type) := by
        rw [nextType, if_neg isReset]
        rfl
      have sameDelay : resetTimeDelay ((d.event type).type + 1) =
          resetTimeDelay (nextType type) := by
        rw [nextType, if_neg isReset]
        rfl
      have sameTime : nextTime d type (s.resetTimeByMapDifficulty d.pair) =
          s.resetTimeByMapDifficulty d.pair := if_neg isReset
      rw [sameTime] at inPlace ⊢
      simp only [scheduleReset, changed, sameDelay]
      rw [inPlace, advance, Function.update_eq_self]
      simp only [isReset, ne_eq, not_false_eq_true, true_and]

end Turn

section Kept

variable {type : Nat} {announced : Option Nat} {rest : List (Nat × InstResetEvent)}

theorem time_advance_self {next : Nat} :
    (s.advance d type next announced rest).resetTimeByMapDifficulty d.pair = next :=
  Function.update_self _ _ _

theorem time_advance_of_ne {d' : MapDifficulty} {next : Nat} (other : d.pair ≠ d'.pair) :
    (s.advance d type next announced rest).resetTimeByMapDifficulty d'.pair =
      s.resetTimeByMapDifficulty d'.pair :=
  Function.update_of_ne (Ne.symm other) _ _

theorem steady_drop {q : Nat × InstResetEvent} (steady : Steady c s)
    (queue : s.resetTimeQueue = q :: rest) (single : q.2.type = 0) :
    Steady c { s with resetTimeQueue := rest } := by
  have sameEvents : ∀ pair, rest.filter (isGlobalOf pair) = s.globalEvents pair := by
    intro pair
    rw [globalEvents, queue, filter_cons_of_neg]
    rw [isGlobalOf_iff]
    exact fun isGlobal => isGlobal.1 single
  refine ⟨⟨?_, steady.scheduled.advanced⟩, ?_, steady.aligned⟩
  · intro d isPeriodic
    obtain ⟨type, bounds, events, follows⟩ := steady.scheduled.pending d isPeriodic
    exact ⟨type, bounds, (sameEvents d.pair).trans events, follows⟩
  · intro q' member
    apply steady.owned
    rw [queue]
    exact mem_cons_of_mem _ member

theorem pending_advance (pending : Pending s d type) (noneElse : rest.filter (isGlobalOf d.pair) = [])
    (next : Nat) : Pending (s.advance d type next announced rest) d (nextType type) := by
  obtain ⟨bounds, events, follows⟩ := pending
  have bounds' := nextType_bounds bounds
  have isGlobal : isGlobalOf d.pair
      (next - resetTimeDelay (nextType type), d.event (nextType type)) = true :=
    (isGlobalOf_event (Nat.ne_of_gt bounds'.1)).mpr rfl
  refine ⟨bounds', ?_, ?_⟩
  · rw [time_advance_self]
    exact filter_insertBy_of_none isGlobal noneElse
  have firings : (s.advance d type next announced rest).firings d.pair =
      ⟨d.pair, type, s.resetTimeByMapDifficulty d.pair, next, announced⟩ :: s.firings d.pair :=
    filter_cons_of_pos (decide_eq_true rfl)
  rw [firings, upcoming, time_advance_self]
  refine List.isChain_cons_cons.mpr ⟨⟨rfl, rfl⟩, ?_⟩
  -- what has come up stands where it was pending
  rw [isChain_cons] at follows ⊢
  exact follows

theorem pending_advance_of_ne {d' : MapDifficulty} {type' : Nat} (pending : Pending s d' type')
    (other : d.pair ≠ d'.pair) (next : Nat) (queue : s.resetTimeQueue =
      (s.resetTimeByMapDifficulty d.pair - resetTimeDelay type, d.event type) :: rest) :
    Pending (s.advance d type next announced rest) d' type' := by
  obtain ⟨bounds', events, follows⟩ := pending
  have firings : (s.advance d type next announced rest).firings d'.pair = s.firings d'.pair :=
    filter_cons_of_neg (by simpa using other)
  have isOther : ∀ t k, isGlobalOf d'.pair (t, d.event k) = false := by
    intro t k
    rw [← Bool.not_eq_true, isGlobalOf_iff]
    exact fun isGlobal => other isGlobal.2
  refine ⟨bounds', ?_, ?_⟩
  · rw [time_advance_of_ne other, ← events, globalEvents, globalEvents, queue,
      filter_cons_of_neg (by rw [isOther]; exact Bool.false_ne_true)]
    exact filter_insertBy_of_not (isOther _ _)
  · rw [firings, upcoming, time_advance_of_ne other]
    exact follows

theorem nextTime_aligned (days : DAY ∣ d.period) {t : Nat} : nextTime d type t % DAY = t % DAY := by
  rw [nextTime]
  split
  · rw [Nat.add_mod, Nat.mod_eq_zero_of_dvd days, Nat.add_zero, Nat.mod_mod]
  · rfl

theorem steady_advance {instances : List InstanceRow} (careful : Careful c instances)
    (steady : Steady c s) (isPeriodic : Periodic c d) (pending : Pending s d type)
    (queue : s.resetTimeQueue =
      (s.resetTimeByMapDifficulty d.pair - resetTimeDelay type, d.event type) :: rest)
    (noneElse : rest.filter (isGlobalOf d.pair) = []) :
    Steady c (s.advance d type (nextTime d type (s.resetTimeByMapDifficulty d.pair))
      announced rest) := by
  refine ⟨⟨?_, ?_⟩, ?_, ?_⟩
  · intro d' isPeriodic'
    rcases eq_or_ne d.pair d'.pair with same | other
    · obtain rfl := isPeriodic.eq_of_pair isPeriodic' same
      exact ⟨_, pending_advance pending noneElse _⟩
    · obtain ⟨type', pending'⟩ := steady.scheduled.pending d' isPeriodic'
      exact ⟨type', pending_advance_of_ne pending' other _ queue⟩
  · intro f member d' isPeriodic' same
    rcases List.mem_cons.mp member with rfl | earlier
    · obtain rfl := isPeriodic'.eq_of_pair isPeriodic same
      rfl
    · exact steady.scheduled.advanced f earlier d' isPeriodic' same
  · intro q member isGlobal
    rcases List.mem_cons.mp ((perm_insertBy _ _ _).mem_iff.mp member) with rfl | inRest
    · exact ⟨d, isPeriodic, rfl⟩
    · refine steady.owned q ?_ isGlobal
      rw [queue]
      exact mem_cons_of_mem _ inRest
  · intro d' isPeriodic'
    rcases eq_or_ne d.pair d'.pair with same | other
    · obtain rfl := isPeriodic.eq_of_pair isPeriodic' same
      rw [time_advance_self, nextTime_aligned (careful.days d isPeriodic)]
      exact steady.aligned d isPeriodic
    · rw [time_advance_of_ne other]
      exact steady.aligned d' isPeriodic'

theorem steady_step {instances : List InstanceRow} (careful : Careful c instances) (input : Input)
    (steady : Steady c s) (inTime : InTime c s input) : Steady c (step c s input) := by
  cases input with
  | update now => exact ⟨⟨steady.scheduled.pending, steady.scheduled.advanced⟩, steady.owned, steady.aligned⟩
  | turn now loaded =>
    rw [step]
    rcases turn_cases careful steady inTime with ⟨early, same⟩ | ⟨q, rest, queue, single, dropped⟩ |
      ⟨d, type, rest, announced, isPeriodic, pending, -, queue, noneElse, -, advanced⟩
    · rw [same]
      exact steady
    · rw [dropped]
      exact steady_drop steady queue single
    · rw [advanced]
      exact steady_advance careful steady isPeriodic pending queue noneElse

end Kept

theorem timeLeft_eq_iff {now t : Nat} : (timeLeft now t : Int) = (t : Int) - now ↔ now = t := by
  rw [timeLeft]
  split <;> omega

/-- A warning announces the time that is left exactly if there is none. -/
theorem announces_iff {instances : List InstanceRow} (careful : Careful c instances) {input : Input}
    (steady : Steady c s) (inTime : InTime c s input) : Announces c s input ↔ OnTime s input := by
  cases input with
  | update now => exact Iff.rfl
  | turn now loaded =>
    rw [Announces, step, OnTime]
    rcases turn_cases careful steady inTime with ⟨early, same⟩ | ⟨q, rest, queue, single, dropped⟩ |
      ⟨d, type, rest, announced, isPeriodic, pending, due, queue, noneElse, isAnnounced, advanced⟩
    · rw [same]
      refine iff_of_true (fun f _ longer => absurd longer (Nat.lt_irrefl _)) ?_
      intro q isHead due
      exact absurd due (Nat.not_lt.mpr (early q isHead))
    · rw [dropped]
      refine iff_of_true (fun f _ longer => absurd longer (Nat.lt_irrefl _)) ?_
      intro q' isHead _ isGlobal
      rw [queue] at isHead
      obtain rfl := Option.some.inj isHead
      exact absurd single isGlobal
    · rw [advanced, queue, isAnnounced]
      constructor
      · intro announces q isHead _ _ isWarning isLoaded
        obtain rfl := Option.some.inj isHead
        refine timeLeft_eq_iff.mp (announces _ rfl (Nat.lt_succ_self _) _ ?_)
        exact if_pos ⟨isWarning, isLoaded⟩
      · intro onTime f isFirst _ left isLeft
        obtain rfl := Option.some.inj isFirst
        rw [Option.mem_def, Option.ite_none_right_eq_some] at isLeft
        obtain ⟨⟨isWarning, isLoaded⟩, isTimeLeft⟩ := isLeft
        rw [← Option.some.inj isTimeLeft]
        exact timeLeft_eq_iff.mpr (onTime _ rfl due (Nat.ne_of_gt pending.1.1) isWarning isLoaded)

/-! ## Loading -/

section Load

variable {now : Nat}

theorem time_setResetTimeFor_self {pair : Nat × Nat} {t : Nat} :
    (s.setResetTimeFor pair t).resetTimeByMapDifficulty pair = t :=
  Function.update_self _ _ _

theorem time_setResetTimeFor_of_ne {pair pair' : Nat × Nat} {t : Nat} (other : pair' ≠ pair) :
    (s.setResetTimeFor pair t).resetTimeByMapDifficulty pair' = s.resetTimeByMapDifficulty pair' :=
  Function.update_of_ne other _ _

variable {instances : List InstanceRow}

theorem aligned_add (careful : Careful c instances) {days : Nat} (isDays : DAY ∣ days) :
    (days + c.diff) % DAY = c.diff := by
  obtain ⟨k, rfl⟩ := isDays
  rw [Nat.mul_add_mod]
  exact Nat.mod_eq_of_lt (Nat.lt_of_le_of_lt (Nat.le_add_right _ _) careful.hour)

variable (now) in
theorem nextResetTime_aligned (careful : Careful c instances)
    (isPeriodic : Periodic c d) {t : Nat} (aligned : t = 0 ∨ t % DAY = c.diff) :
    nextResetTime c now d t % DAY = c.diff := by
  have days := careful.days d isPeriodic
  have moved : ∀ today period, DAY ∣ today → DAY ∣ period → (today + period + c.diff) % DAY = c.diff :=
    fun today period isDay isPeriod => aligned_add careful (Nat.dvd_add isDay isPeriod)
  have initialized : (if t = 0 then now / DAY * DAY + d.period + c.diff else t) % DAY = c.diff := by
    split
    · exact moved _ _ (Nat.dvd_mul_left _ _) days
    · rename_i isStored
      exact aligned.resolve_left isStored
  simp only [nextResetTime]
  generalize (if t = 0 then now / DAY * DAY + d.period + c.diff else t) = t' at initialized
  split
  · exact moved _ _ (Nat.dvd_mul_left _ _) (Nat.dvd_mul_left_of_dvd days _)
  · exact initialized

variable (now) in
theorem firstType_bounds (t : Nat) : 1 ≤ firstType now t ∧ firstType now t ≤ 4 := by
  rw [firstType]
  split_ifs <;> decide

theorem firstAhead_firstType (t : Nat) : FirstAhead now t (firstType now t) := by
  rw [firstType]
  split_ifs with first second third
  · exact ⟨fun earlier positive before => absurd before (Nat.not_lt.mpr positive), Or.inr first⟩
  · refine ⟨fun earlier positive before => ?_, Or.inr second⟩
    obtain rfl : earlier = 1 := by omega
    exact first
  · refine ⟨fun earlier positive before => ?_, Or.inr third⟩
    have choice : earlier = 1 ∨ earlier = 2 := by omega
    rcases choice with rfl | rfl
    · exact first
    · exact second
  · refine ⟨fun earlier positive before => ?_, Or.inl rfl⟩
    have choice : earlier = 1 ∨ earlier = 2 ∨ earlier = 3 := by omega
    rcases choice with rfl | rfl | rfl
    · exact first
    · exact second
    · exact third

theorem mem_instanceTimes {respawns : List (Nat × Nat)} {row : InstanceRow}
    (member : row ∈ instanceTimes instances respawns) : ∃ row' ∈ instances, row'.resettime ≠ 0 ∧
      (row'.mapid, row'.difficulty) = (row.mapid, row.difficulty) := by
  have ofFilter : ∀ row' ∈ instances.filter (fun row => row.resettime ≠ 0),
      row' ∈ instances ∧ row'.resettime ≠ 0 := by
    intro row' isRow
    obtain ⟨inInstances, timed⟩ := List.mem_filter.mp isRow
    exact ⟨inInstances, of_decide_eq_true timed⟩
  rw [instanceTimes.eq_def] at member
  split at member
  · obtain ⟨inInstances, timed⟩ := ofFilter row member
    exact ⟨row, inInstances, timed, rfl⟩
  obtain ⟨row', isRow, rfl⟩ := List.mem_map.mp member
  obtain ⟨inInstances, timed⟩ := ofFilter row' isRow
  refine ⟨row', inInstances, timed, ?_⟩
  split <;> rfl

/-- What is loaded before the map difficulties: events of single instances, and the stored times, moved
to the hour -/
structure Stored (c : ResetConfig) (s : ResetTimes) : Prop where
  single : ∀ q ∈ s.resetTimeQueue, q.2.type = 0
  aligned : ∀ pair, s.resetTimeByMapDifficulty pair = 0 ∨ s.resetTimeByMapDifficulty pair % DAY = c.diff
  fired : s.fired = []

variable (now) in
theorem stored_scheduleInstances (stored : Stored c s) (rows : List InstanceRow) :
    Stored c (s.scheduleInstances now rows) := by
  rw [scheduleInstances]
  induction rows generalizing s with
  | nil => exact stored
  | cons row rest ih =>
    rw [foldl_cons]
    refine ih ?_
    split
    · refine ⟨fun q member => ?_, stored.aligned, stored.fired⟩
      rcases List.mem_cons.mp ((perm_insertBy _ _ _).mem_iff.mp member) with rfl | before
      · rfl
      · exact stored.single q before
    · exact stored

theorem stored_loadStored (careful : Careful c instances)
    (stored : Stored c s) (rows : List ResetRow) : Stored c (s.loadStored c rows) := by
  rw [loadStored]
  induction rows generalizing s with
  | nil => exact stored
  | cons row rest ih =>
    rw [foldl_cons]
    refine ih ?_
    split
    · refine ⟨stored.single, fun pair => ?_, stored.fired⟩
      rcases eq_or_ne pair (row.mapid, row.difficulty) with rfl | other
      · right
        rw [time_setResetTimeFor_self]
        exact aligned_add careful (Nat.dvd_mul_left _ _)
      · rw [time_setResetTimeFor_of_ne other]
        exact stored.aligned pair
    · exact stored

/-- What the loop over the map difficulties keeps: those it has gone through have their first event. -/
structure Loading (c : ResetConfig) (now : Nat) (done rest : List MapDifficulty) (s : ResetTimes) :
    Prop where
  all : done ++ rest = c.difficulties
  first : ∀ d ∈ done, d.resetTime ≠ 0 → s.globalEvents d.pair =
      [(s.resetTimeByMapDifficulty d.pair -
          resetTimeDelay (firstType now (s.resetTimeByMapDifficulty d.pair)),
        d.event (firstType now (s.resetTimeByMapDifficulty d.pair)))] ∧
    s.resetTimeByMapDifficulty d.pair % DAY = c.diff
  untouched : ∀ d ∈ rest, s.globalEvents d.pair = [] ∧
    (s.resetTimeByMapDifficulty d.pair = 0 ∨ s.resetTimeByMapDifficulty d.pair % DAY = c.diff)
  owned : ∀ q ∈ s.resetTimeQueue, q.2.type ≠ 0 → ∃ d ∈ done, d.resetTime ≠ 0 ∧ d.pair = q.2.pair
  fired : s.fired = []

theorem loading_of_stored (stored : Stored c s) : Loading c now [] c.difficulties s where
  all := rfl
  first d member := by cases member
  untouched d member := by
    refine ⟨List.filter_eq_nil_iff.mpr fun q inQueue isGlobal => ?_, stored.aligned _⟩
    exact (isGlobalOf_iff.mp isGlobal).1 (stored.single q inQueue)
  owned q member isGlobal := absurd (stored.single q member) isGlobal
  fired := stored.fired

theorem loadDifficulty_eq {rows : List InstanceRow} (isReset : d.resetTime ≠ 0)
    (noneOwn : ∀ row ∈ rows, (row.mapid, row.difficulty) ≠ d.pair) :
    s.loadDifficulty c now rows d =
      (s.setResetTimeFor d.pair (nextResetTime c now d (s.resetTimeByMapDifficulty d.pair))).scheduleReset
        (nextResetTime c now d (s.resetTimeByMapDifficulty d.pair) -
          resetTimeDelay (firstType now (nextResetTime c now d (s.resetTimeByMapDifficulty d.pair))))
        (d.event (firstType now (nextResetTime c now d (s.resetTimeByMapDifficulty d.pair)))) := by
  have noRows : (rows.filter fun row => (row.mapid, row.difficulty) = d.pair) = [] :=
    List.filter_eq_nil_iff.mpr fun row member isOwn => noneOwn row member (of_decide_eq_true isOwn)
  simp only [loadDifficulty, if_neg isReset, noRows, foldl_nil]
  rfl

theorem loading_loadDifficulty (careful : Careful c instances)
    {rows : List InstanceRow} (noneOwn : ∀ row ∈ rows, ∀ d, Periodic c d →
      (row.mapid, row.difficulty) ≠ d.pair) {done rest : List MapDifficulty}
    (loading : Loading c now done (d :: rest) s) :
    Loading c now (done ++ [d]) rest (s.loadDifficulty c now rows d) := by
  have all : done ++ [d] ++ rest = c.difficulties := by
    rw [append_assoc]
    exact loading.all
  have isDifficulty : d ∈ c.difficulties := by
    rw [← loading.all]
    exact mem_append_right _ mem_cons_self
  have apart : ∀ d', d' ∈ done ∨ d' ∈ rest → d.pair ≠ d'.pair := by
    intro d' member same
    have distinct := c.distinct
    rw [← loading.all, map_append, map_cons, nodup_middle, ← map_append]
      at distinct
    refine (List.nodup_cons.mp distinct).1 ?_
    rw [same]
    exact List.mem_map_of_mem (List.mem_append.mpr member)
  rcases eq_or_ne d.resetTime 0 with isNone | isReset
  · have same : s.loadDifficulty c now rows d = s := if_pos isNone
    rw [same]
    refine ⟨all, fun d' member isReset => ?_, fun d' member =>
      loading.untouched d' (mem_cons_of_mem _ member), ?_, loading.fired⟩
    · rcases List.mem_append.mp member with before | isNew
      · exact loading.first d' before isReset
      · rw [List.mem_singleton.mp isNew] at isReset
        exact absurd isNone isReset
    · intro q inQueue isGlobal
      obtain ⟨d', before, owns⟩ := loading.owned q inQueue isGlobal
      exact ⟨d', mem_append_left _ before, owns⟩
  · rw [loadDifficulty_eq isReset fun row member => noneOwn row member d ⟨isDifficulty, isReset⟩]
    obtain ⟨noneYet, aligned⟩ := loading.untouched d mem_cons_self
    have aligned' := nextResetTime_aligned now careful ⟨isDifficulty, isReset⟩ aligned
    generalize nextResetTime c now d (s.resetTimeByMapDifficulty d.pair) = t at aligned'
    have isGlobal := Nat.ne_of_gt (firstType_bounds now t).1
    have isOther : ∀ d', d' ∈ done ∨ d' ∈ rest →
        isGlobalOf d'.pair (t - resetTimeDelay (firstType now t), d.event (firstType now t)) = false := by
      intro d' member
      rw [← Bool.not_eq_true, isGlobalOf_iff]
      exact fun isOne => apart d' member isOne.2
    have sameEvents : ∀ d', d' ∈ done ∨ d' ∈ rest →
        ((s.setResetTimeFor d.pair t).scheduleReset (t - resetTimeDelay (firstType now t))
          (d.event (firstType now t))).globalEvents d'.pair = s.globalEvents d'.pair :=
      fun d' member => filter_insertBy_of_not (isOther d' member)
    have sameTime : ∀ d', d' ∈ done ∨ d' ∈ rest →
        ((s.setResetTimeFor d.pair t).scheduleReset (t - resetTimeDelay (firstType now t))
          (d.event (firstType now t))).resetTimeByMapDifficulty d'.pair =
          s.resetTimeByMapDifficulty d'.pair :=
      fun d' member => time_setResetTimeFor_of_ne (Ne.symm (apart d' member))
    refine ⟨all, fun d' member isReset' => ?_, fun d' member => ?_, ?_, loading.fired⟩
    · rcases List.mem_append.mp member with before | isNew
      · rw [sameEvents d' (Or.inl before), sameTime d' (Or.inl before)]
        exact loading.first d' before isReset'
      obtain rfl := List.mem_singleton.mp isNew
      have isTime : ((s.setResetTimeFor d'.pair t).scheduleReset
          (t - resetTimeDelay (firstType now t))
          (d'.event (firstType now t))).resetTimeByMapDifficulty d'.pair = t :=
        time_setResetTimeFor_self
      rw [isTime]
      exact ⟨filter_insertBy_of_none ((isGlobalOf_event isGlobal).mpr rfl) noneYet, aligned'⟩
    · rw [sameEvents d' (Or.inr member), sameTime d' (Or.inr member)]
      exact loading.untouched d' (mem_cons_of_mem _ member)
    · intro q inQueue isGlobal'
      rcases List.mem_cons.mp ((perm_insertBy _ _ _).mem_iff.mp inQueue) with rfl | before
      · exact ⟨d, mem_append_right _ mem_cons_self, isReset, rfl⟩
      · obtain ⟨d', isDone, owns⟩ := loading.owned q before isGlobal'
        exact ⟨d', mem_append_left _ isDone, owns⟩

variable (now) in
theorem loading_loadResetTimes (careful : Careful c instances)
    (respawns : List (Nat × Nat)) (stored : List ResetRow) :
    Loading c now c.difficulties [] (loadResetTimes c now instances respawns stored) := by
  have noneOwn : ∀ row ∈ instanceTimes instances respawns, ∀ d, Periodic c d →
      (row.mapid, row.difficulty) ≠ d.pair := by
    intro row member d isPeriodic
    obtain ⟨row', inInstances, timed, samePair⟩ := mem_instanceTimes member
    rw [← samePair]
    exact careful.noneOwn row' inInstances timed d isPeriodic
  have empty : Stored c ⟨fun _ => 0, [], now, []⟩ := by
    refine ⟨fun q member => ?_, fun _ => Or.inl rfl, rfl⟩
    cases member
  have isStored := stored_loadStored careful
    (stored_scheduleInstances now empty (instanceTimes instances respawns)) stored
  exact Machine.run_list (fun s d => s.loadDifficulty c now (instanceTimes instances respawns) d)
    (fun done d rest s => loading_loadDifficulty careful noneOwn) c.difficulties []
    _ (loading_of_stored isStored)

variable (now) in
theorem steady_loadResetTimes (careful : Careful c instances)
    (respawns : List (Nat × Nat)) (stored : List ResetRow) :
    Steady c (loadResetTimes c now instances respawns stored) ∧
      ∀ d, Periodic c d → ∃ type, Pending (loadResetTimes c now instances respawns stored) d type ∧
        FirstAhead now
          ((loadResetTimes c now instances respawns stored).resetTimeByMapDifficulty d.pair) type := by
  have loaded := loading_loadResetTimes now careful respawns stored
  generalize loadResetTimes c now instances respawns stored = s at loaded
  have first : ∀ d, Periodic c d → ∃ type, Pending s d type ∧
      FirstAhead now (s.resetTimeByMapDifficulty d.pair) type := by
    intro d isPeriodic
    obtain ⟨events, -⟩ := loaded.first d isPeriodic.1 isPeriodic.2
    refine ⟨_, ⟨firstType_bounds _ _, events, ?_⟩, firstAhead_firstType _⟩
    have noFirings : s.firings d.pair = [] := by
      rw [firings, loaded.fired]
      rfl
    rw [noFirings]
    exact isChain_singleton _
  refine ⟨⟨⟨fun d isPeriodic => ?_, fun f member => ?_⟩, fun q member isGlobal => ?_,
    fun d isPeriodic => (loaded.first d isPeriodic.1 isPeriodic.2).2⟩, first⟩
  · obtain ⟨type, pending, -⟩ := first d isPeriodic
    exact ⟨type, pending⟩
  · rw [loaded.fired] at member
    cases member
  · obtain ⟨d, isDone, isReset, same⟩ := loaded.owned q member isGlobal
    exact ⟨d, ⟨isDone, isReset⟩, same⟩

end Load

/-- **Global resets follow their schedule**: the first event loaded is the first still ahead, the
schedule holds throughout a run, and what is announced is right exactly for the warnings that come
up at the reset itself. -/
theorem scheduled_run {instances : List InstanceRow} (careful : Careful c instances) (now : Nat)
    (respawns : List (Nat × Nat)) (stored : List ResetRow) (inputs : List Input)
    (inTime : Machine.EachStep (step c) (InTime c)
      (loadResetTimes c now instances respawns stored) inputs) :
    (∀ d, Periodic c d → ∃ type, Pending (loadResetTimes c now instances respawns stored) d type ∧
      FirstAhead now
        ((loadResetTimes c now instances respawns stored).resetTimeByMapDifficulty d.pair) type) ∧
    Machine.Throughout (step c) (Scheduled c) (loadResetTimes c now instances respawns stored) inputs ∧
    (Machine.EachStep (step c) (Announces c) (loadResetTimes c now instances respawns stored) inputs ↔
      Machine.EachStep (step c) OnTime
        (loadResetTimes c now instances respawns stored) inputs) := by
  obtain ⟨steady, first⟩ := steady_loadResetTimes now careful respawns stored
  have keep : ∀ s input, Steady c s → InTime c s input → Steady c (step c s input) :=
    fun s input steady inTime => steady_step careful input steady inTime
  exact ⟨first, (Machine.Throughout.of_eachStep steady keep inTime).mono fun _ steady => steady.scheduled,
    Machine.eachStep_congr steady keep (fun s input => announces_iff careful) inTime⟩

def raids : ResetConfig where
  resetTimeHour := 4
  instanceable := fun _ => true
  difficulties := [⟨631, 0, 604800, 604800⟩]
  distinct := by decide

theorem careful_raids : Careful raids [] where
  hour := by decide
  days d isPeriodic := by
    rw [List.mem_singleton.mp isPeriodic.1]
    decide
  instanceable _ _ := rfl
  noneOwn row member := by cases member

/-- The first warning comes up in the second after an hour before the reset. -/
def firstWarning : List Input :=
  [.update (20007 * DAY + 3 * HOUR + 1), .turn (20007 * DAY + 3 * HOUR + 1) fun _ => 1]

theorem scheduled_run_of_raids :
    (∀ d, Periodic raids d → ∃ type, Pending (loadResetTimes raids (20000 * DAY) [] [] []) d type ∧
      FirstAhead (20000 * DAY)
        ((loadResetTimes raids (20000 * DAY) [] [] []).resetTimeByMapDifficulty d.pair) type) ∧
    Machine.Throughout (step raids) (Scheduled raids) (loadResetTimes raids (20000 * DAY) [] [] [])
      firstWarning ∧
    (Machine.EachStep (step raids) (Announces raids) (loadResetTimes raids (20000 * DAY) [] [] [])
        firstWarning ↔
      Machine.EachStep (step raids) OnTime (loadResetTimes raids (20000 * DAY) [] [] [])
        firstWarning) := by
  have inTime : Machine.EachStep (step raids) (InTime raids)
      (loadResetTimes raids (20000 * DAY) [] [] []) firstWarning := by decide +kernel
  exact scheduled_run careful_raids (20000 * DAY) [] [] firstWarning inTime

/-- It announces no time, with nearly an hour left. -/
theorem first_warning_wrong : ¬ ∀ (c : ResetConfig) (instances : List InstanceRow) (now : Nat)
    (respawns : List (Nat × Nat)) (stored : List ResetRow) (inputs : List Input),
    (∀ d, Periodic c d → ∃ type, Pending (loadResetTimes c now instances respawns stored) d type ∧
      FirstAhead now
        ((loadResetTimes c now instances respawns stored).resetTimeByMapDifficulty d.pair) type) ∧
    Machine.Throughout (step c) (Scheduled c) (loadResetTimes c now instances respawns stored) inputs ∧
    Machine.EachStep (step c) (Announces c) (loadResetTimes c now instances respawns stored) inputs := by
  intro always
  have announces := (always raids [] (20000 * DAY) [] [] firstWarning).2.2
  revert announces
  decide +kernel

end ResetTimes

end Sky548
