import Sky548.GameEvents.GameEventMgr
import Sky548.Machine

/-!
# The remainders and delays of the schedule

`LoadFromDB` looks at the length of an event, but not at its occurence, and what is
multiplied by `MINUTE` is multiplied in 32 bits. With rows that fit in, and a clock that
does, no remainder is by zero and no delay is cut, whatever commands come.
-/

namespace Sky548

open Function (update update_apply)

namespace GameEventData

variable {d : GameEventData} {now : Int}

/-- When the window or the gap ends that `passed` is in. -/
def turn (d : GameEventData) (passed : Int) : Int :=
  if passed < d.length.toNat * 60 then d.length.toNat * 60 else d.occurence.toNat * 60

def exactDelay (d : GameEventData) (now : Int) : Int :=
  if (d.state = .worldNextphase ∨ d.state = .worldFinished) ∧ d.nextstart ≥ now then
    d.nextstart - now
  else if d.state = .worldConditions then if d.length ≠ 0 then d.length.toNat * 60 else 86400
  else if now > d.finish then 86400
  else if d.start > now then d.start - now
  else
    let passed := (now - d.start) % (d.occurence.toNat * 60)
    let delay := d.turn passed - passed
    if d.finish < now + delay then d.finish - now else delay

/-- A row that fits in. -/
structure Sane (d : GameEventData) : Prop where
  occurs : 0 < d.occurence.toNat
  occurence : d.occurence.toNat * 60 < 2 ^ 32
  length : d.length.toNat * 60 < 2 ^ 32
  start : d.start < 2 ^ 32
  nextstart : d.nextstart < 2 ^ 32

/-- An id without a row. -/
structure Blank (d : GameEventData) : Prop where
  state : d.state = .normal
  length : d.length = 0
  never : d.finish < d.start
  start : d.start < 2 ^ 32

/-- What holds of every entry at a time. -/
def Fits (now : Int) (d : GameEventData) : Prop :=
  (d.Sane ∨ d.Blank) ∧ now + d.length.toNat * 60 < 2 ^ 32

theorem minutes_toNat {n : UInt32} (fits : n.toNat * 60 < 2 ^ 32) : (n * 60).toNat = n.toNat * 60 := by
  rw [UInt32.toNat_mul]
  exact Nat.mod_eq_of_lt fits

theorem toNat_ofInt {n : Int} (pos : 0 ≤ n) (small : n < 2 ^ 32) : ((UInt32.ofInt n).toNat : Int) = n := by
  rw [UInt32.ofInt, UInt32.toNat_ofNat']
  omega

theorem passed_eq (occurs : 0 < d.occurence.toNat) (fits : d.occurence.toNat * 60 < 2 ^ 32)
    (begun : d.start ≤ now) : d.passed now = some ((now - d.start) % (d.occurence.toNat * 60)) := by
  have product := minutes_toNat fits
  unfold passed
  rw [if_neg, product, Int.tmod_eq_emod_of_nonneg (by omega)]
  · rfl
  · intro zero
    rw [zero] at product
    change 0 = _ at product
    omega

theorem turn_toNat (occurence : d.occurence.toNat * 60 < 2 ^ 32) (length : d.length.toNat * 60 < 2 ^ 32)
    (passed : Int) : ((if passed < (d.length * 60).toNat then d.length * 60
      else d.occurence * 60).toNat : Int) = d.turn passed := by
  unfold turn
  rw [minutes_toNat length, Nat.cast_mul, Nat.cast_ofNat]
  split
  · rw [minutes_toNat length, Nat.cast_mul, Nat.cast_ofNat]
  · rw [minutes_toNat occurence, Nat.cast_mul, Nat.cast_ofNat]

theorem nextCheck_exact (fits : d.Sane ∨ d.Blank) (clock : 0 ≤ now) :
    ∃ delay, d.nextCheck now = some delay ∧ (delay.toNat : Int) = d.exactDelay now := by
  unfold nextCheck exactDelay
  rcases fits with sane | blank
  · have next := sane.nextstart
    have started := sane.start
    have length := minutes_toNat sane.length
    have occurs := sane.occurs
    have small := sane.occurence
    have short := sane.length
    split
    · exact ⟨_, rfl, toNat_ofInt (by omega) (by omega)⟩
    split
    · refine ⟨_, rfl, ?_⟩
      split
      · rw [length]
        rfl
      · rfl
    split
    · exact ⟨_, rfl, rfl⟩
    split
    · exact ⟨_, rfl, toNat_ofInt (by omega) (by omega)⟩
    rw [passed_eq occurs small (by omega)]
    refine ⟨_, rfl, ?_⟩
    have below : (now - d.start) % (d.occurence.toNat * 60) < d.occurence.toNat * 60 :=
      Int.emod_lt_of_pos _ (by omega)
    have above : 0 ≤ (now - d.start) % (d.occurence.toNat * 60) := Int.emod_nonneg _ (by omega)
    dsimp only
    rw [turn_toNat small short]
    have within : 0 < d.turn ((now - d.start) % (d.occurence.toNat * 60)) -
        (now - d.start) % (d.occurence.toNat * 60) ∧
        d.turn ((now - d.start) % (d.occurence.toNat * 60)) < 2 ^ 32 := by
      unfold turn
      split <;> omega
    rw [toNat_ofInt (n := _ - _) (by omega) (by omega)]
    split
    · exact toNat_ofInt (by omega) (by omega)
    · exact toNat_ofInt (by omega) (by omega)
  · have zero := blank.never
    have started := blank.start
    rw [blank.state]
    simp only [reduceCtorEq, or_self, false_and, if_false]
    split
    · exact ⟨_, rfl, rfl⟩
    · rw [if_pos (by omega), if_pos (by omega)]
      exact ⟨_, rfl, toNat_ofInt (by omega) (by omega)⟩

theorem Fits.sane (fits : d.Fits now) (isWorld : d.isWorld) : d.Sane := by
  refine fits.1.resolve_right fun blank => ?_
  simp [GameEventData.isWorld, blank.state] at isWorld

theorem Fits.entered (fits : d.Fits now) (isWorld : d.isWorld) (state : GameEventState) {next : Int}
    (small : next < 2 ^ 32) : Fits now { d with
      state := state
      nextstart := next } := by
  obtain ⟨occurs, occurence, length, start, -⟩ := fits.sane isWorld
  exact ⟨Or.inl ⟨occurs, occurence, length, start, small⟩, fits.2⟩

theorem Fits.enterNextphase (fits : d.Fits now) (isWorld : d.isWorld) : (d.enterNextphase now).Fits now := by
  have sane := fits.sane isWorld
  have room := fits.2
  refine fits.entered isWorld .worldNextphase ?_
  rw [minutes_toNat sane.length]
  split
  · omega
  · exact sane.nextstart

theorem Fits.restart (fits : d.Fits now) (valid : d.isValid) {start : Int} (past : start ≤ now) :
    (d.restart start).Fits now := by
  rcases fits with ⟨sane | blank, room⟩
  · refine ⟨Or.inl ⟨sane.occurs, sane.occurence, sane.length, ?_, sane.nextstart⟩, room⟩
    show start < 2 ^ 32
    omega
  · simp [isValid, blank.state, blank.length] at valid

end GameEventData

namespace GameEventMgr

open GameEventData Machine

variable {m : GameEventMgr} {now : Int} {entry : Nat}

def Fits (now : Int) (m : GameEventMgr) : Prop := ∀ entry, (m.mGameEvent entry).Fits now

theorem Fits.change (fits : m.Fits now) {d : GameEventData} (new : d.Fits now) :
    (m.change entry d).Fits now := by
  intro other
  show GameEventData.Fits now (update m.mGameEvent entry d other)
  rw [update_apply]
  split
  · exact new
  · exact fits other

theorem checkOneGameEvent_isSome (fits : (m.mGameEvent entry).Sane ∨ (m.mGameEvent entry).Blank) :
    (m.checkOneGameEvent now entry).isSome := by
  have scheduled : (if (m.mGameEvent entry).start < now ∧ now < (m.mGameEvent entry).finish then
      ((m.mGameEvent entry).passed now).map fun (passed : Int) =>
        decide (passed < ((m.mGameEvent entry).length * 60).toNat) else some false).isSome := by
    split
    · rename_i window
      rcases fits with sane | blank
      · rw [passed_eq sane.occurs sane.occurence window.1.le]
        rfl
      · have := blank.never
        omega
    · rfl
  unfold checkOneGameEvent
  dsimp only
  split <;> first | exact scheduled | rfl

theorem Fits.startEvent (fits : m.Fits now) {met overwrite : Bool}
    (valid : overwrite → (m.mGameEvent entry).isValid) :
    (m.startEvent now entry met overwrite).1.Fits now := by
  have started : Fits now { m with activeEvents := insert entry m.activeEvents } := fits
  unfold GameEventMgr.startEvent
  dsimp only
  split
  · split
    · rename_i overwrites
      exact started.change ((fits entry).restart (valid overwrites) le_rfl)
    · exact started
  rename_i isWorld
  rw [Bool.not_eq_true, Bool.not_eq_false'] at isWorld
  refine started.change ?_
  have opened : GameEventData.Fits now (if (m.mGameEvent entry).state = .worldInactive then
      { m.mGameEvent entry with state := .worldConditions } else m.mGameEvent entry) ∧
      (if (m.mGameEvent entry).state = .worldInactive then
        { m.mGameEvent entry with state := .worldConditions } else m.mGameEvent entry).isWorld := by
    split
    · exact ⟨(fits entry).entered isWorld .worldConditions ((fits entry).sane isWorld).nextstart, rfl⟩
    · exact ⟨fits entry, isWorld⟩
  split
  · exact opened.1.enterNextphase opened.2
  · exact opened.1

theorem Fits.stopEvent (fits : m.Fits now) {overwrite : Bool}
    (valid : overwrite → (m.mGameEvent entry).isValid) :
    (m.stopEvent now entry overwrite).Fits now := by
  have stopped : Fits now { m with activeEvents := m.activeEvents.erase entry } := fits
  unfold GameEventMgr.stopEvent
  dsimp only
  split
  · split
    · rename_i overwrites
      exact stopped.change ((fits entry).restart (valid overwrites) (by omega))
    · exact stopped
  · rename_i isWorld
    rw [Bool.not_eq_true, Bool.not_eq_false'] at isWorld
    split
    · exact stopped.change ((fits entry).entered isWorld .worldInactive (by decide))
    · exact stopped

theorem Sweep.activated_mgr (s : Sweep) (entry : Nat) : (s.activated entry).mgr = s.mgr := by
  unfold activated
  split <;> rfl

theorem Sweep.deactivated_mgr (s : Sweep) (entry : Nat) : (s.deactivated entry).mgr = s.mgr := by
  unfold deactivated
  split <;> rfl

theorem Sweep.delayed_mgr {s s' : Sweep} (delayed : s.delayed now entry = some s') : s'.mgr = s.mgr := by
  obtain ⟨calcDelay, -, rfl⟩ := Option.map_eq_some_iff.mp delayed
  split <;> rfl

theorem Fits.updateOne {s s' : Sweep} {met : Nat → Bool} (fits : s.mgr.Fits now)
    (updated : updateOne now met s entry = some s') : s'.mgr.Fits now := by
  unfold GameEventMgr.updateOne at updated
  dsimp only at updated
  split at updated
  · cases updated
  · rw [Sweep.delayed_mgr updated, Sweep.deactivated_mgr]
    exact fits
  split at updated
  · rename_i passed
    cases updated
    rw [Sweep.deactivated_mgr]
    exact fits.change ((fits entry).entered (by simp [isWorld, passed.1]) .worldFinished (by decide))
  have next : (if (s.mgr.mGameEvent entry).state = .worldConditions ∧ met entry then
      { s with mgr := s.mgr.change entry ((s.mgr.mGameEvent entry).enterNextphase now) }
        else s).mgr.Fits now := by
    split
    · rename_i conditions
      exact fits.change ((fits entry).enterNextphase (by simp [isWorld, conditions.1]))
    · exact fits
  rw [Sweep.delayed_mgr updated, Sweep.activated_mgr]
  exact next

theorem Fits.updateAll {met : Nat → Bool} {delay : Nat} {after : GameEventMgr} (fits : m.Fits now)
    (updated : m.updateAll now met = some (after, delay)) : after.Fits now := by
  have looped : ∀ (entries : List Nat) {s s' : Sweep}, s.mgr.Fits now →
      entries.foldlM (GameEventMgr.updateOne now met) s = some s' → s'.mgr.Fits now := by
    intro entries
    induction entries with
    | nil =>
      rintro s s' fits ⟨⟩
      exact fits
    | cons entry rest ih =>
      intro s s' fits ran
      rw [List.foldlM_cons] at ran
      obtain ⟨mid, first, later⟩ := Option.bind_eq_some_iff.mp ran
      exact ih (fits.updateOne first) later
  obtain ⟨s, ran, is⟩ := Option.map_eq_some_iff.mp updated
  cases is
  have started : (s.activate.foldl (startOne now met) (s.mgr, s.nextEventDelay)).1.Fits now :=
    List.foldlRecOn (motive := fun r : GameEventMgr × UInt32 => r.1.Fits now) _ _ (looped _ fits ran)
      fun _ fits entry _ => Fits.startEvent fits Bool.noConfusion
  exact List.foldlRecOn (motive := Fits now) _ _ started fun m fits entry _ => fits.stopEvent nofun

/-- What happens to the schedule, with the time. -/
inductive Act
  | startEvent (now : Int) (entry : Nat) (met overwrite : Bool)
  | stopEvent (now : Int) (entry : Nat) (overwrite : Bool)
  | update (now : Int) (met : Nat → Bool)

def Act.time : Act → Int
  | .startEvent now _ _ _ | .stopEvent now _ _ | .update now _ => now

def step (m : GameEventMgr) : Act → GameEventMgr
  | .startEvent now entry met overwrite => (m.startEvent now entry met overwrite).1
  | .stopEvent now entry overwrite => m.stopEvent now entry overwrite
  | .update now met => ((m.updateAll now met).map Prod.fst).getD m

/-- The clock fits in with the length of each event, and who overwrites the start of an
event has looked whether it is valid. -/
def Timely (m : GameEventMgr) (act : Act) : Prop :=
  (∀ entry, act.time + (m.mGameEvent entry).length.toNat * 60 < 2 ^ 32) ∧
    match act with
    | .startEvent _ entry _ overwrite | .stopEvent _ entry overwrite =>
      overwrite → (m.mGameEvent entry).isValid
    | .update .. => True

/-- The rows of `game_event` under their ids; 0 is reserved. -/
def loadFromDB (size : Nat) (rows : List (Nat × GameEventData)) : GameEventMgr :=
  rows.foldl (fun m row => if row.1 = 0 then m else m.change row.1 row.2)
    ⟨fun _ => .new, size, ∅⟩

/-- No check divides by zero, and each delay is what it is without bounds. -/
def Sound (m : GameEventMgr) : Prop :=
  ∀ (now : Int) (entry : Nat), 0 ≤ now → (m.checkOneGameEvent now entry).isSome ∧
    ∃ delay, (m.mGameEvent entry).nextCheck now = some delay ∧
      (delay.toNat : Int) = (m.mGameEvent entry).exactDelay now

/-- Each entry has a row that fits in, or none. -/
def Filled (m : GameEventMgr) : Prop :=
  ∀ entry, (m.mGameEvent entry).Sane ∨ (m.mGameEvent entry).Blank

theorem filled_loadFromDB (size : Nat) (rows : List (Nat × GameEventData))
    (sane : ∀ row ∈ rows, row.1 ≠ 0 → row.2.Sane) : (loadFromDB size rows).Filled := by
  have blank : GameEventData.new.Blank := ⟨rfl, rfl, by decide, by decide⟩
  refine List.foldlRecOn (motive := Filled) rows _ (fun _ => Or.inr blank)
    fun m each row member entry => ?_
  split
  · exact each entry
  rename_i used
  show (update m.mGameEvent row.1 row.2 entry).Sane ∨ (update m.mGameEvent row.1 row.2 entry).Blank
  rw [update_apply]
  split
  · exact Or.inl (sane row member used)
  · exact each entry

/-- **With rows that fit in the schedule is sound** in every run. -/
theorem sound_of_sane (size : Nat) (rows : List (Nat × GameEventData))
    (sane : ∀ row ∈ rows, row.1 ≠ 0 → row.2.Sane) (acts : List Act)
    (timely : EachStep step Timely (loadFromDB size rows) acts) :
    Throughout step Sound (loadFromDB size rows) acts := by
  refine (Throughout.of_eachStep (I := Filled) (filled_loadFromDB size rows sane)
    (fun m act each met => ?_) timely).mono fun m each now entry clock =>
      ⟨checkOneGameEvent_isSome (each entry), nextCheck_exact (each entry) clock⟩
  have fits : m.Fits act.time := fun entry => ⟨each entry, met.1 entry⟩
  cases act with
  | startEvent now entry conditions overwrite => exact fun other => (fits.startEvent met.2 other).1
  | stopEvent now entry overwrite => exact fun other => (fits.stopEvent met.2 other).1
  | update now conditions =>
    intro other
    have same : m.step (.update now conditions) = ((m.updateAll now conditions).map Prod.fst).getD m := rfl
    rw [same]
    cases updated : m.updateAll now conditions with
    | none => exact each other
    | some r => exact (fits.updateAll updated other).1

def hourly (occurence : UInt32) : GameEventData := ⟨1000, 2000000, 0, occurence, 60, .normal, []⟩

theorem sound_of_hourly : Throughout step Sound (loadFromDB 2 [(1, hourly 1440)])
    [.startEvent 1200 1 false true] := by
  refine sound_of_sane 2 _ (fun row member _ => ?_) _ ⟨⟨fun entry => ?_, fun _ => rfl⟩, trivial⟩
  · cases List.mem_singleton.mp member
    exact ⟨by decide, by decide, by decide, by decide, by decide⟩
  · show 1200 + ((update (fun _ => GameEventData.new) 1 (hourly 1440) entry).length.toNat : Int) * 60 < 2 ^ 32
    rw [update_apply]
    split <;> decide

/-- **A remainder by zero**, with no occurence, and with one that is a multiple of `2 ^ 30`. -/
theorem not_sound_of_hourly : ¬ Sound (loadFromDB 2 [(1, hourly 0)]) ∧
    ¬ Sound (loadFromDB 2 [(1, hourly 1073741824)]) := by
  refine ⟨fun sound => ?_, fun sound => ?_⟩
  · exact absurd (sound 1500 1 (by decide)).1 (by decide +kernel)
  · exact absurd (sound 1500 1 (by decide)).1 (by decide +kernel)

end GameEventMgr

end Sky548
