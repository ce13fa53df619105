import Sky548.GameEvents.Delays

/-!
# The windows of game events

`NextCheck` counts the start of an event as a second of its first window, which
`CheckOneGameEvent` does not. An update on that second leaves the event inactive and asks
to be called again after the window. When no update falls on it, each window and each gap
of two seconds or more has its update.
-/

namespace Sky548

namespace GameEventData

variable {d : GameEventData} {now : Int}

/-- A normal event, or an id without one. -/
structure Periodic (d : GameEventData) : Prop where
  normal : d.state = .normal
  fits : d.finish < d.start ∨ 0 < d.occurence.toNat ∧ d.occurence.toNat * 60 < 2 ^ 32 ∧
    d.length.toNat * 60 < 2 ^ 32

def InWindow (d : GameEventData) (now : Int) : Prop :=
  d.start < now ∧ now < d.finish ∧ (now - d.start) % (d.occurence.toNat * 60) < d.length.toNat * 60

instance (d : GameEventData) (now : Int) : Decidable (d.InWindow now) :=
  inferInstanceAs (Decidable (_ ∧ _ ∧ _))

/-- Nothing changes at a time that is to come, until the delay has passed. -/
def Early (d : GameEventData) (now : Int) (delay : Nat) : Prop :=
  ∀ change > now, (d.InWindow (change - 1) ↔ ¬ d.InWindow change) → (delay : Int) ≤ change - now

theorem emod_add {start period now more : Int} (pos : 0 < period) (here : 0 ≤ more)
    (within : (now - start) % period + more < period) :
    (now + more - start) % period = (now - start) % period + more := by
  have low := Int.emod_nonneg (now - start) pos.ne'
  rw [show now + more - start = (now - start) % period + more + period * ((now - start) / period) by
    have := Int.emod_add_mul_ediv (now - start) period
    omega]
  rw [Int.add_mul_emod_self_left]
  exact Int.emod_eq_of_lt (by omega) within

theorem ofInt_toNat_le {n : Int} (pos : 0 ≤ n) : ((UInt32.ofInt n).toNat : Int) ≤ n := by
  rw [UInt32.ofInt, UInt32.toNat_ofNat']
  omega

theorem Periodic.nextCheck_le (periodic : d.Periodic) (apart : now ≠ d.start) :
    ∃ delay, d.nextCheck now = some delay ∧ d.Early now delay.toNat := by
  unfold GameEventData.nextCheck
  rw [periodic.normal]
  simp only [reduceCtorEq, or_self, false_and, if_false]
  split
  · refine ⟨_, rfl, fun change later changes => ?_⟩
    unfold InWindow at changes
    omega
  split
  · refine ⟨_, rfl, fun change later changes => ?_⟩
    have below := ofInt_toNat_le (n := d.start - now) (by omega)
    unfold InWindow at changes
    omega
  obtain ⟨occurs, fits, short⟩ := periodic.fits.resolve_left (by omega)
  have pos : (0 : Int) < d.occurence.toNat * 60 := by omega
  have low := Int.emod_nonneg (now - d.start) pos.ne'
  have high := Int.emod_lt_of_pos (now - d.start) pos
  rw [passed_eq occurs fits (by omega)]
  refine ⟨_, rfl, fun change later changes => ?_⟩
  dsimp only
  -- until the delay has passed the event stays as it is
  have still : ∀ more : Int, 0 ≤ more → more < d.turn ((now - d.start) % (d.occurence.toNat * 60)) -
        (now - d.start) % (d.occurence.toNat * 60) →
      ((now + more - d.start) % (d.occurence.toNat * 60) < d.length.toNat * 60 ↔
        (now - d.start) % (d.occurence.toNat * 60) < d.length.toNat * 60) := by
    intro more here below
    have under := Int.emod_lt_of_pos (now + more - d.start) pos
    unfold turn at below
    by_cases inTurn : (now - d.start) % (d.occurence.toNat * 60) + more < d.occurence.toNat * 60
    · rw [emod_add pos here inTurn]
      split at below <;> omega
    · split at below <;> omega
  have left : 0 ≤ d.turn ((now - d.start) % (d.occurence.toNat * 60)) -
      (now - d.start) % (d.occurence.toNat * 60) := by
    unfold turn
    split <;> omega
  rw [turn_toNat fits short]
  generalize d.turn ((now - d.start) % (d.occurence.toNat * 60)) -
    (now - d.start) % (d.occurence.toNat * 60) = delay at still left ⊢
  have below := ofInt_toNat_le left
  by_contra more
  have both : change - now < delay ∧ change < d.finish := by
    split at more
    · have clipped := ofInt_toNat_le (n := d.finish - now) (by omega)
      omega
    · omega
  have here := still (change - now) (by omega) both.1
  have before := still (change - 1 - now) (by omega) (by omega)
  rw [show now + (change - now) = change by omega] at here
  rw [show now + (change - 1 - now) = change - 1 by omega] at before
  unfold InWindow at changes
  rw [here, before] at changes
  omega

end GameEventData

namespace GameEventMgr

variable {m : GameEventMgr} {now : Int} {entry : Nat} {met : Nat → Bool}

def IsEvent (m : GameEventMgr) (entry : Nat) : Prop := 0 < entry ∧ entry < m.size

def Normal (m : GameEventMgr) : Prop := ∀ entry, m.IsEvent entry → (m.mGameEvent entry).Periodic

theorem checkOneGameEvent_periodic (periodic : (m.mGameEvent entry).Periodic) :
    m.checkOneGameEvent now entry = some (decide ((m.mGameEvent entry).InWindow now)) := by
  unfold checkOneGameEvent GameEventData.InWindow
  dsimp only
  rw [periodic.normal]
  dsimp only
  split
  · rename_i window
    obtain ⟨occurs, fits, short⟩ := periodic.fits.resolve_left (by omega)
    rw [GameEventData.passed_eq occurs fits window.1.le, GameEventData.minutes_toNat short]
    simp [window]
  · rename_i out
    exact congrArg some (decide_eq_false fun inWindow => out ⟨inWindow.1, inWindow.2.1⟩).symm

def Begins (m : GameEventMgr) (now : Int) (entry : Nat) : Prop :=
  entry ∉ m.activeEvents ∧ (m.mGameEvent entry).InWindow now

def Ends (m : GameEventMgr) (now : Int) (entry : Nat) : Prop :=
  entry ∈ m.activeEvents ∧ ¬ (m.mGameEvent entry).InWindow now

instance (m : GameEventMgr) (now : Int) : DecidablePred (m.Begins now) :=
  fun _ => inferInstanceAs (Decidable (_ ∧ _))

instance (m : GameEventMgr) (now : Int) : DecidablePred (m.Ends now) :=
  fun _ => inferInstanceAs (Decidable (_ ∧ _))

theorem updateOne_periodic (met : Nat → Bool) {s : Sweep} (periodic : (s.mgr.mGameEvent entry).Periodic)
    (apart : now ≠ (s.mgr.mGameEvent entry).start) :
    ∃ delay, updateOne now met s entry = some ⟨s.mgr, delay,
        s.activate ++ [entry].filter (s.mgr.Begins now), s.deactivate ++ [entry].filter (s.mgr.Ends now)⟩ ∧
      delay.toNat ≤ s.nextEventDelay.toNat ∧ (s.mgr.mGameEvent entry).Early now delay.toNat := by
  obtain ⟨delay, isDelay, early⟩ := periodic.nextCheck_le apart
  refine ⟨if delay < s.nextEventDelay then delay else s.nextEventDelay, ?_, ?_, fun change later changes => ?_⟩
  · unfold updateOne
    dsimp only
    rw [checkOneGameEvent_periodic periodic, periodic.normal]
    by_cases inWindow : (s.mgr.mGameEvent entry).InWindow now <;>
      by_cases active : entry ∈ s.mgr.activeEvents <;>
        simp [Sweep.activated, Sweep.deactivated, Sweep.delayed, Begins, Ends, inWindow, active, isDelay] <;>
          split <;> rfl
  · split
    · rename_i less
      exact (UInt32.lt_iff_toNat_lt.mp less).le
    · exact le_rfl
  · have before := early change later changes
    split
    · exact before
    · rename_i less
      rw [UInt32.lt_iff_toNat_lt] at less
      omega

theorem foldlM_updateOne (now : Int) (met : Nat → Bool) (entries : List Nat) : ∀ s : Sweep, (∀ entry ∈ entries,
      (s.mgr.mGameEvent entry).Periodic ∧ now ≠ (s.mgr.mGameEvent entry).start) →
    ∃ delay, entries.foldlM (updateOne now met) s = some ⟨s.mgr, delay,
        s.activate ++ entries.filter (s.mgr.Begins now), s.deactivate ++ entries.filter (s.mgr.Ends now)⟩ ∧
      delay.toNat ≤ s.nextEventDelay.toNat ∧
      ∀ entry ∈ entries, (s.mgr.mGameEvent entry).Early now delay.toNat := by
  induction entries with
  | nil => exact fun s _ => ⟨s.nextEventDelay, by simp, le_rfl, by simp⟩
  | cons entry rest ih =>
    intro s each
    obtain ⟨periodic, apart⟩ := each entry List.mem_cons_self
    obtain ⟨delay, turned, least, early⟩ := updateOne_periodic met periodic apart
    obtain ⟨delay', ran, least', others⟩ := ih ⟨s.mgr, delay, _, _⟩
      fun other member => each other (List.mem_cons_of_mem _ member)
    refine ⟨delay', ?_, least'.trans least, fun other member => ?_⟩
    · rw [List.foldlM_cons, turned]
      refine ran.trans ?_
      simp only [List.append_assoc, ← List.filter_append, List.singleton_append]
    · rcases List.mem_cons.mp member with rfl | inRest
      · exact fun change later changes => (Int.ofNat_le.mpr least').trans (early change later changes)
      · exact others other inRest

theorem foldl_startOne (delay : UInt32) (entries : List Nat)
    (isNormal : ∀ entry ∈ entries, (m.mGameEvent entry).state = .normal) :
    entries.foldl (startOne now met) (m, delay) =
      ({ m with activeEvents := m.activeEvents ∪ entries.toFinset }, delay) := by
  induction entries generalizing m with
  | nil => simp
  | cons entry rest ih =>
    have start : startOne now met (m, delay) entry =
        ({ m with activeEvents := insert entry m.activeEvents }, delay) := by
      simp [startOne, startEvent, GameEventData.isWorld, isNormal entry List.mem_cons_self]
    rw [List.foldl_cons, start, List.toFinset_cons, Finset.union_insert, ← Finset.insert_union]
    exact ih fun other member => isNormal other (List.mem_cons_of_mem _ member)

theorem foldl_stopEvent (entries : List Nat)
    (isNormal : ∀ entry ∈ entries, (m.mGameEvent entry).state = .normal) :
    entries.foldl (fun m entry => m.stopEvent now entry false) m =
      { m with activeEvents := m.activeEvents \ entries.toFinset } := by
  induction entries generalizing m with
  | nil => simp
  | cons entry rest ih =>
    have stop : m.stopEvent now entry false = { m with activeEvents := m.activeEvents.erase entry } := by
      simp [stopEvent, GameEventData.isWorld, isNormal entry List.mem_cons_self]
    rw [List.foldl_cons, stop, List.toFinset_cons, Finset.sdiff_insert, ← Finset.erase_sdiff_comm]
    exact ih fun other member => isNormal other (List.mem_cons_of_mem _ member)

/-- An update, and the time of the next one. -/
def tick (met : Nat → Bool) (r : GameEventMgr × Int) : GameEventMgr × Int :=
  match r.1.updateAll r.2 met with
  | some (m, delay) => (m, r.2 + delay)
  | none => r

theorem tick_spec (normal : m.Normal) (inside : ∀ entry ∈ m.activeEvents, m.IsEvent entry)
    (apart : ∀ entry, m.IsEvent entry → now ≠ (m.mGameEvent entry).start) :
    ∃ (active : Finset Nat) (delay : Nat),
      tick met (m, now) = ({ m with activeEvents := active }, now + (delay + 1 : Nat)) ∧
      (∀ entry, entry ∈ active ↔ m.IsEvent entry ∧ (m.mGameEvent entry).InWindow now) ∧
      ∀ entry, m.IsEvent entry → (m.mGameEvent entry).Early now delay := by
  have isEvent : ∀ entry, entry ∈ List.range' 1 (m.size - 1) ↔ m.IsEvent entry := by
    intro entry
    unfold IsEvent
    rw [List.mem_range'_1]
    omega
  generalize isEntries : List.range' 1 (m.size - 1) = entries at isEvent
  obtain ⟨delay, ran, -, early⟩ := foldlM_updateOne now met entries
    ⟨m, maxGeCheckDelay, [], []⟩ fun entry member =>
      ⟨normal entry ((isEvent entry).mp member), apart entry ((isEvent entry).mp member)⟩
  have isNormal : ∀ (p : Nat → Bool), ∀ entry ∈ entries.filter p, (m.mGameEvent entry).state = .normal :=
    fun p entry member => (normal entry ((isEvent entry).mp (List.mem_of_mem_filter member))).normal
  refine ⟨(m.activeEvents ∪ (entries.filter (m.Begins now)).toFinset) \ (entries.filter (m.Ends now)).toFinset,
    delay.toNat, ?_, fun entry => ?_, fun entry isIn => early entry ((isEvent entry).mpr isIn)⟩
  · unfold tick updateAll
    dsimp only
    rw [isEntries, ran, Option.map_some]
    dsimp only [List.nil_append]
    rw [foldl_startOne _ _ (isNormal _)]
    exact congrArg (Prod.mk · _) (foldl_stopEvent _ (isNormal _))
  · have isIn := inside entry
    simp only [Finset.mem_sdiff, Finset.mem_union, List.mem_toFinset, List.mem_filter, isEvent, Begins, Ends]
    grind

theorem le_tick (met : Nat → Bool) (r : GameEventMgr × Int) (n : Nat) : r.2 ≤ ((tick met)^[n] r).2 := by
  have once : ∀ r : GameEventMgr × Int, r.2 ≤ (tick met r).2 := by
    intro r
    unfold tick
    split
    · dsimp only
      omega
    · exact le_rfl
  induction n with
  | zero => exact le_rfl
  | succ n ih =>
    rw [Function.iterate_succ_apply']
    exact ih.trans (once _)

/-- The events are active as the updates find them, and each window and each gap of two
seconds or more has its update. -/
structure Seen (m : GameEventMgr) (first : Int) (met : Nat → Bool) : Prop where
  active : ∀ n entry, entry ∈ ((tick met)^[n + 1] (m, first)).1.activeEvents ↔
    m.IsEvent entry ∧ (m.mGameEvent entry).InWindow ((tick met)^[n] (m, first)).2
  updated : ∀ entry, m.IsEvent entry → ∀ a b, a < b → first ≤ b →
    (∀ now, a ≤ now → now ≤ b → ((m.mGameEvent entry).InWindow now ↔ (m.mGameEvent entry).InWindow b)) →
    ((m.mGameEvent entry).InWindow (a - 1) ↔ ¬ (m.mGameEvent entry).InWindow b) →
    ∃ n, a ≤ ((tick met)^[n] (m, first)).2 ∧ ((tick met)^[n] (m, first)).2 ≤ b

/-- **Events are never missed** when no update falls on the second of a start. -/
theorem seen_of_apart (m : GameEventMgr) (first : Int) (met : Nat → Bool) (normal : m.Normal)
    (idle : m.activeEvents = ∅) (apart : ∀ n entry, m.IsEvent entry →
      ((tick met)^[n] (m, first)).2 ≠ (m.mGameEvent entry).start) : Seen m first met := by
  have turn : ∀ n, ∃ (active : Finset Nat) (delay : Nat),
      (tick met)^[n + 1] (m, first) =
        ({ m with activeEvents := active }, ((tick met)^[n] (m, first)).2 + (delay + 1 : Nat)) ∧
      (∀ entry, entry ∈ active ↔
        m.IsEvent entry ∧ (m.mGameEvent entry).InWindow ((tick met)^[n] (m, first)).2) ∧
      ∀ entry, m.IsEvent entry → (m.mGameEvent entry).Early ((tick met)^[n] (m, first)).2 delay := by
    intro n
    induction n with
    | zero => exact tick_spec normal (by simp [idle]) (apart 0)
    | succ n ih =>
      obtain ⟨active, delay, ran, isActive, -⟩ := ih
      have next := apart (n + 1)
      rw [Function.iterate_succ_apply', ran]
      rw [ran] at next
      exact tick_spec (m := { m with activeEvents := active }) normal
        (fun entry member => ((isActive entry).mp member).1) next
  refine ⟨fun n entry => ?_, fun entry isIn a b less later same changes => ?_⟩
  · obtain ⟨active, delay, ran, isActive, -⟩ := turn n
    rw [ran]
    exact isActive entry
  -- the first update that is not before the change
  have grows : ∀ n : Nat, first + n ≤ ((tick met)^[n] (m, first)).2 := by
    intro n
    induction n with
    | zero => simp
    | succ n ih =>
      obtain ⟨active, delay, ran, -, -⟩ := turn n
      rw [ran]
      dsimp only
      omega
  have exists_ : ∃ n : Nat, a ≤ ((tick met)^[n] (m, first)).2 :=
    ⟨(a - first).toNat, by have := grows (a - first).toNat; omega⟩
  classical
  refine ⟨Nat.find exists_, Nat.find_spec exists_, ?_⟩
  cases isFirst : Nat.find exists_ with
  | zero => exact later
  | succ n =>
    have before : ¬ a ≤ ((tick met)^[n] (m, first)).2 := Nat.find_min exists_ (by omega)
    obtain ⟨active, delay, ran, -, early⟩ := turn n
    rw [ran]
    have soon := early entry isIn a (by omega) (by rwa [same a le_rfl less.le])
    dsimp only
    omega

theorem isEvent_hourly (isIn : (loadFromDB 2 [(1, hourly 1440)]).IsEvent entry) : entry = 1 := by
  unfold IsEvent at isIn
  have size : (loadFromDB 2 [(1, hourly 1440)]).size = 2 := rfl
  omega

theorem seen_of_hourly : Seen (loadFromDB 2 [(1, hourly 1440)]) 1500 fun _ => false := by
  refine seen_of_apart _ 1500 _ (fun entry isIn => ?_) rfl fun n entry isIn => ?_
  · rw [isEvent_hourly isIn]
    exact ⟨rfl, Or.inr (by decide)⟩
  · rw [isEvent_hourly isIn]
    have later := le_tick (fun _ => false) (loadFromDB 2 [(1, hourly 1440)], 1500) n
    have start : ((loadFromDB 2 [(1, hourly 1440)]).mGameEvent 1).start = 1000 := rfl
    omega

/-- **The first hour is missed** when the system starts on its second 0. -/
theorem not_seen_of_hourly : ¬ Seen (loadFromDB 2 [(1, hourly 1440)]) 1000 fun _ => false := by
  intro seen
  have isIn : ∀ now : Int, 1001 ≤ now → now ≤ 4599 →
      ((loadFromDB 2 [(1, hourly 1440)]).mGameEvent 1).InWindow now := by
    intro now low high
    show (1000 : Int) < now ∧ now < 2000000 ∧ (now - 1000) % 86400 < 3600
    omega
  have within : ((loadFromDB 2 [(1, hourly 1440)]).mGameEvent 1).InWindow 4599 := isIn 4599 (by omega) (by omega)
  obtain ⟨n, low, high⟩ := seen.updated 1 ⟨by decide, by decide⟩ 1001 4599 (by omega) (by omega)
    (fun now low high => iff_of_true (isIn now low high) within)
    (iff_of_false (by decide +kernel) fun out => out within)
  cases n with
  | zero => cases low
  | succ n =>
    have next : (tick (fun _ => false) (loadFromDB 2 [(1, hourly 1440)], 1000)).2 = 4601 := by decide +kernel
    have later := le_tick (fun _ => false) (tick (fun _ => false) (loadFromDB 2 [(1, hourly 1440)], 1000)) n
    rw [next] at later
    exact absurd (later.trans high) (by decide)

end GameEventMgr

end Sky548
