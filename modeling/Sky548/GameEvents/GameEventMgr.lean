import Mathlib.Data.UInt

/-!
# Game events

`GameEventMgr` with its schedule: the rows of `game_event`, what starts and stops an
event, and `Update`, which brings the active events up to date and says when it is to be
called again. Times are seconds. A remainder by zero has no value: the process ends
there. Whether the conditions of a world event are met comes in with each call.
-/

namespace Sky548

open Function (update)

inductive GameEventState
  | normal | worldInactive | worldConditions | worldNextphase | worldFinished | internal
  /-- A value of the column that the enumeration does not have. -/
  | unknown
  deriving DecidableEq

structure GameEventData where
  start : Int
  /-- `end` -/
  finish : Int
  nextstart : Int
  occurence : UInt32
  length : UInt32
  state : GameEventState
  prerequisiteEvents : List Nat

def maxGeCheckDelay : UInt32 := 86400

namespace GameEventData

variable (d : GameEventData) (now : Int)

/-- What the constructor sets. -/
def new : GameEventData := ⟨1, 0, 0, 0, 0, .normal, []⟩

def isValid : Bool := d.length > 0 || d.state ≠ .normal

def isWorld : Bool := d.state ≠ .normal && d.state ≠ .internal

/-- `(currenttime - start) % (occurence * MINUTE)` -/
def passed : Option Int :=
  if d.occurence * 60 = 0 then none
  else some ((now - d.start).tmod (d.occurence * 60).toNat)

def nextCheck : Option UInt32 :=
  if (d.state = .worldNextphase ∨ d.state = .worldFinished) ∧ d.nextstart ≥ now then
    some (UInt32.ofInt (d.nextstart - now))
  else if d.state = .worldConditions then
    some (if d.length ≠ 0 then d.length * 60 else maxGeCheckDelay)
  else if now > d.finish then some maxGeCheckDelay
  else if d.start > now then some (UInt32.ofInt (d.start - now))
  else
    (d.passed now).map fun (passed : Int) =>
      let delay := UInt32.ofInt
        ((if passed < (d.length * 60).toNat then d.length * 60 else d.occurence * 60).toNat - passed)
      if d.finish < now + delay.toNat then UInt32.ofInt (d.finish - now) else delay

/-- `CheckOneGameEventConditions`, when they are met. -/
def enterNextphase : GameEventData :=
  { d with
    state := .worldNextphase
    nextstart := if d.nextstart = 0 then now + (d.length * 60).toNat else d.nextstart }

/-- An overwriting command sets the start. -/
def restart (start : Int) : GameEventData :=
  { d with
    start := start
    finish := if d.finish ≤ start then start + d.length.toNat else d.finish }

end GameEventData

structure GameEventMgr where
  mGameEvent : Nat → GameEventData
  size : Nat
  activeEvents : Finset Nat

namespace GameEventMgr

variable (m : GameEventMgr) (now : Int) (entry : Nat)

def change (d : GameEventData) : GameEventMgr := { m with mGameEvent := update m.mGameEvent entry d }

def checkOneGameEvent : Option Bool :=
  let d := m.mGameEvent entry
  match d.state with
  | .normal | .unknown =>
    if d.start < now ∧ now < d.finish then
      (d.passed now).map fun (passed : Int) => passed < (d.length * 60).toNat
    else some false
  | .worldConditions | .worldNextphase => some true
  | .worldFinished | .internal => some false
  | .worldInactive =>
    some (!d.prerequisiteEvents.isEmpty && d.prerequisiteEvents.all fun other =>
      ((m.mGameEvent other).state = .worldNextphase || (m.mGameEvent other).state = .worldFinished) &&
        (m.mGameEvent other).nextstart ≤ now)

/-- `StartEvent`, and whether the conditions of the event are met. An overwriting call
asks for an `Update` then. -/
def startEvent (met overwrite : Bool) : GameEventMgr × Bool :=
  let d := m.mGameEvent entry
  let started := { m with activeEvents := insert entry m.activeEvents }
  if !d.isWorld then (if overwrite then started.change entry (d.restart now) else started, false)
  else
    let d := if d.state = .worldInactive then { d with state := .worldConditions } else d
    (started.change entry (if met then d.enterNextphase now else d), met)

def stopEvent (overwrite : Bool) : GameEventMgr :=
  let d := m.mGameEvent entry
  let stopped := { m with activeEvents := m.activeEvents.erase entry }
  if !d.isWorld then
    if overwrite then stopped.change entry (d.restart (now - (d.length * 60).toNat)) else stopped
  else if overwrite || d.state ≠ .worldFinished then
    stopped.change entry { d with
      nextstart := 0
      state := .worldInactive }
  else stopped

/-- The loop of `Update` over the events, with what it queues. -/
structure Sweep where
  mgr : GameEventMgr
  nextEventDelay : UInt32
  activate : List Nat
  deactivate : List Nat

def Sweep.activated (s : Sweep) (entry : Nat) : Sweep :=
  if entry ∈ s.mgr.activeEvents then s else { s with activate := s.activate ++ [entry] }

def Sweep.deactivated (s : Sweep) (entry : Nat) : Sweep :=
  if entry ∈ s.mgr.activeEvents then { s with deactivate := s.deactivate ++ [entry] } else s

def Sweep.delayed (s : Sweep) (now : Int) (entry : Nat) : Option Sweep :=
  ((s.mgr.mGameEvent entry).nextCheck now).map fun calcDelay =>
    if calcDelay < s.nextEventDelay then { s with nextEventDelay := calcDelay } else s

def updateOne (met : Nat → Bool) (s : Sweep) (entry : Nat) : Option Sweep :=
  let d := s.mgr.mGameEvent entry
  match s.mgr.checkOneGameEvent now entry with
  | none => none
  | some false => (s.deactivated entry).delayed now entry
  | some true =>
    if d.state = .worldNextphase ∧ d.nextstart ≤ now then
      some (({ s with mgr := s.mgr.change entry { d with
                        state := .worldFinished
                        nextstart := 0 } } : Sweep).deactivated entry)
    else
      let s := if d.state = .worldConditions ∧ met entry then
        { s with mgr := s.mgr.change entry (d.enterNextphase now) } else s
      (s.activated entry).delayed now entry

/-- An event is started, and the next update is at once if it is completed. -/
def startOne (met : Nat → Bool) (r : GameEventMgr × UInt32) (entry : Nat) : GameEventMgr × UInt32 :=
  let started := r.1.startEvent now entry (met entry) false
  (started.1, if started.2 then 0 else r.2)

/-- `Update`, with the seconds until the next one. -/
def updateAll (met : Nat → Bool) : Option (GameEventMgr × Nat) :=
  ((List.range' 1 (m.size - 1)).foldlM (updateOne now met) ⟨m, maxGeCheckDelay, [], []⟩).map fun s =>
    let r := s.activate.foldl (startOne now met) (s.mgr, s.nextEventDelay)
    (s.deactivate.foldl (fun m entry => m.stopEvent now entry false) r.1, r.2.toNat + 1)

end GameEventMgr

end Sky548
