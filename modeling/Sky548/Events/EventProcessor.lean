import Sky548.Multimap

/-!
# The event processor

A queue of events by time, as a `multimap`: of those of one time the first that came stands first.
Events are objects; what their `Execute` and `Abort` do, and whether they can be deleted, comes with
the input that calls them. A call of `Update` or `KillAllEvents` is a step that begins it and one for
each turn of its loop, since events are added in between.

While `KillAllEvents` walks through the queue, `passed` is what lies before its iterator, `events`
what lies ahead.
-/

namespace Sky548

structure Queued where
  execTime : Nat
  event : Nat
  deriving DecidableEq

/-- What has been done with an event. -/
inductive Happening
  | executed (event : Nat) (finished : Bool)
  | aborted (event : Nat)
  | deleted (event : Nat)
  deriving DecidableEq

inductive ProcessorMode
  | idle
  | updating
  | killing (force : Bool)
  deriving DecidableEq

/-- An event processor, and what it has done: `log` with all events, the last first, `ran` with the
times of those that the last `Update` took out. -/
structure EventProcessor where
  time : Nat
  events : List Queued
  aborting : Bool
  mode : ProcessorMode
  passed : List Queued
  toAbort : Nat → Bool
  next : Nat
  log : List Happening
  ran : List Nat
  /-- the log when `KillAllEvents` was called last -/
  since : List Happening
  /-- A forced `KillAllEvents` has just returned. -/
  killed : Bool

def insertEvent (q : Queued) (events : List Queued) : List Queued :=
  insertBy Queued.execTime q events

namespace EventProcessor

variable (s : EventProcessor)

def initial : EventProcessor where
  time := 0
  events := []
  aborting := false
  mode := .idle
  passed := []
  toAbort := fun _ => false
  next := 0
  log := []
  ran := []
  since := []
  killed := false

def queue : List Queued := s.passed ++ s.events

/-- An event for that time comes to lie before the iterator. -/
def goesBehind (execTime : Nat) : Bool :=
  match s.mode with
  | .killing _ =>
    match s.events with
    | [] => true
    | x :: _ => execTime < x.execTime
  | _ => false

def addEvent (event execTime : Nat) : EventProcessor :=
  if s.goesBehind execTime then { s with passed := insertEvent ⟨execTime, event⟩ s.passed }
  else { s with events := insertEvent ⟨execTime, event⟩ s.events }

def addNew (execTime : Nat) : EventProcessor :=
  let s' := s.addEvent s.next execTime
  { s' with
    next := s.next + 1
    toAbort := Function.update s.toAbort s.next false }

def addAll (execTimes : List Nat) : EventProcessor := execTimes.foldl addNew s

def note (happening : Happening) : EventProcessor := { s with log := happening :: s.log }

/-- `Execute` adds events, and for `readd` itself, or is finished, and the event is deleted. -/
def execute (event : Nat) (before : List Nat) (readd : Option Nat) (after : List Nat) :
    EventProcessor :=
  let s := (s.note (.executed event readd.isNone)).addAll before
  let s := readd.elim s (s.addEvent event)
  let s := s.addAll after
  if readd.isNone then s.note (.deleted event) else s

def abort (event : Nat) (added : List Nat) : EventProcessor := (s.note (.aborted event)).addAll added

def turn (before : List Nat) (readd : Option Nat) (after : List Nat) : EventProcessor :=
  match s.events with
  | [] => { s with mode := .idle }
  | q :: rest =>
    if q.execTime ≤ s.time then
      let s := { s with events := rest, ran := q.execTime :: s.ran }
      if !s.toAbort q.event then s.execute q.event before readd after
      else (s.abort q.event (before ++ after)).note (.deleted q.event)
    else { s with mode := .idle }

/-- One turn of the loop of `KillAllEvents`, or what comes after it -/
def walk (force : Bool) (added : List Nat) (isDeletable : Bool) : EventProcessor :=
  match s.events with
  | q :: rest =>
    let s := { s with
      toAbort := Function.update s.toAbort q.event true
      passed := s.passed ++ [q]
      events := rest }
    let s := s.abort q.event added
    if force || isDeletable then
      { s.note (.deleted q.event) with passed := if force then s.passed else s.passed.erase q }
    else s
  | [] =>
    if force then { s with passed := [], mode := .idle, killed := true }
    else { s with passed := [], events := s.passed, mode := .idle }

/-- What is called, and what the event does that is called in turn. -/
inductive Input
  | addEvent (execTime : Nat)
  | setToAbort (event : Nat)
  | update (pTime : Nat)
  | turn (before : List Nat) (readd : Option Nat) (after : List Nat)
  | killAllEvents (force : Bool)
  | walk (added : List Nat) (isDeletable : Bool)

def step : Input → EventProcessor
  | .addEvent execTime =>
    if s.mode = .idle then { s.addNew execTime with killed := false } else s
  | .setToAbort event =>
    if s.mode = .idle then { s with toAbort := Function.update s.toAbort event true } else s
  | .update pTime =>
    if s.mode = .idle then
      { s with time := s.time + pTime, mode := .updating, ran := [], killed := false }
    else s
  | .turn before readd after => if s.mode = .updating then s.turn before readd after else s
  | .killAllEvents force =>
    if s.mode = .idle then
      { s with aborting := true, mode := .killing force, since := s.log, killed := false }
    else s
  | .walk added isDeletable =>
    match s.mode with
    | .killing force => s.walk force added isDeletable
    | _ => s

end EventProcessor

end Sky548
