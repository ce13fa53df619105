import Sky548.Multimap

/-!
# Reset times of instances

The queue of warnings and resets, by time, and the reset times of map difficulties, as they are
loaded and as `Update` goes through them. `Update` is a step that begins it and one for each turn of
its loop.

`fired` is all that `Update` has done for a map difficulty, the last first.
-/

namespace Sky548

def MINUTE : Nat := 60
def HOUR : Nat := 60 * MINUTE
def DAY : Nat := 24 * HOUR

structure MapDifficulty where
  mapid : Nat
  difficulty : Nat
  resetTime : Nat
  scaled : Nat
  deriving DecidableEq

namespace MapDifficulty

variable (d : MapDifficulty)

def pair : Nat × Nat := (d.mapid, d.difficulty)

/-- The reset delay, which must be at least one day -/
def period : Nat := if d.scaled < DAY then DAY else d.scaled

end MapDifficulty

/-- What the server has loaded of maps, and the hour of the day at which instances are reset -/
structure ResetConfig where
  resetTimeHour : Nat
  instanceable : Nat → Bool
  difficulties : List MapDifficulty
  distinct : (difficulties.map MapDifficulty.pair).Nodup

def ResetConfig.diff (c : ResetConfig) : Nat := c.resetTimeHour * HOUR

/-- An event of the queue: the type 0 is for one instance, 4 for the reset of a map difficulty, and 1
to 3 are for the warnings before it. -/
structure InstResetEvent where
  type : Nat
  mapid : Nat
  difficulty : Nat
  instanceId : Nat
  deriving DecidableEq

def resetTimeDelay : Nat → Nat
  | 1 => 3600
  | 2 => 900
  | 3 => 300
  | _ => 60

structure InstanceRow where
  id : Nat
  mapid : Nat
  difficulty : Nat
  resettime : Nat

structure ResetRow where
  mapid : Nat
  difficulty : Nat
  resettime : Nat

/-- What was done when an event came up: the reset time stored then, the one stored next, and the
time that was announced, if it was. -/
structure Firing where
  pair : Nat × Nat
  type : Nat
  resetTime : Nat
  next : Nat
  announced : Option Nat

structure ResetTimes where
  resetTimeByMapDifficulty : Nat × Nat → Nat
  resetTimeQueue : List (Nat × InstResetEvent)
  now : Nat
  fired : List Firing

namespace ResetTimes

variable (c : ResetConfig) (s : ResetTimes)

def setResetTimeFor (pair : Nat × Nat) (t : Nat) : ResetTimes :=
  { s with resetTimeByMapDifficulty := Function.update s.resetTimeByMapDifficulty pair t }

def scheduleReset (time : Nat) (event : InstResetEvent) : ResetTimes :=
  { s with resetTimeQueue := insertBy Prod.fst (time, event) s.resetTimeQueue }

/-- The rows that have a reset time, the first respawn brought in: its loop asks the other result for
the next row, which has none left. -/
def instanceTimes (instances : List InstanceRow) (respawns : List (Nat × Nat)) : List InstanceRow :=
  let rows := instances.filter fun row => row.resettime ≠ 0
  match respawns with
  | [] => rows
  | (respawnTime, instanceId) :: _ =>
    rows.map fun row =>
      if row.id = instanceId then { row with resettime := (respawnTime + 2 * HOUR) % 2 ^ 32 }
      else row

def scheduleInstances (now : Nat) (rows : List InstanceRow) : ResetTimes :=
  rows.foldl (fun s row =>
    if row.resettime > now then
      s.scheduleReset row.resettime ⟨0, row.mapid, row.difficulty, row.id % 2 ^ 16⟩
    else s) s

def loadStored (rows : List ResetRow) : ResetTimes :=
  rows.foldl (fun s row =>
    if (row.mapid, row.difficulty) ∈ c.difficulties.map MapDifficulty.pair then
      s.setResetTimeFor (row.mapid, row.difficulty) (row.resettime / DAY * DAY + c.diff)
    else s) s

/-- The reset time of a map difficulty, when `t` was stored -/
def nextResetTime (now : Nat) (d : MapDifficulty) (t : Nat) : Nat :=
  let today := now / DAY * DAY
  let t := if t = 0 then today + d.period + c.diff else t
  if t < now then
    t / DAY * DAY + ((today - t / DAY * DAY) / d.period + 1) * d.period + c.diff
  else t

def firstType (now t : Nat) : Nat :=
  if t - resetTimeDelay 1 > now then 1
  else if t - resetTimeDelay 2 > now then 2
  else if t - resetTimeDelay 3 > now then 3
  else 4

/-- What is scheduled for a map difficulty: an event for all of it, and one for each instance that has
a reset time -/
def loadDifficulty (now : Nat) (rows : List InstanceRow) (d : MapDifficulty) : ResetTimes :=
  if d.resetTime = 0 then s
  else
    let t := nextResetTime c now d (s.resetTimeByMapDifficulty d.pair)
    let s := s.setResetTimeFor d.pair t
    let type := firstType now t
    let s := s.scheduleReset (t - resetTimeDelay type) ⟨type, d.mapid, d.difficulty, 0⟩
    (rows.filter fun row => (row.mapid, row.difficulty) = d.pair).foldl (fun s row =>
      s.scheduleReset (t - resetTimeDelay type) ⟨type, d.mapid, d.difficulty, row.id % 2 ^ 16⟩) s

def loadResetTimes (now : Nat) (instances : List InstanceRow) (respawns : List (Nat × Nat))
    (stored : List ResetRow) : ResetTimes :=
  let s : ResetTimes := ⟨fun _ => 0, [], now, []⟩
  let rows := instanceTimes instances respawns
  let s := s.scheduleInstances now rows
  let s := s.loadStored c stored
  c.difficulties.foldl (fun s d => s.loadDifficulty c now rows d) s

/-- The time that a warning announces -/
def timeLeft (now resetTime : Nat) : Nat :=
  if now ≤ resetTime then 0 else (now - resetTime) % 2 ^ 32

/-- `_ResetOrWarnAll`, for the event that has come up. `loaded` counts the dungeon maps there are. -/
def resetOrWarnAll (now : Nat) (loaded : Nat → Nat) (event : InstResetEvent) (resetTime : Nat) :
    ResetTimes :=
  let pair := (event.mapid, event.difficulty)
  if !c.instanceable event.mapid then s
  else if event.type ≠ 4 then
    { s with
      fired := ⟨pair, event.type, resetTime, resetTime,
        if loaded event.mapid > 0 then some (timeLeft now resetTime) else none⟩ :: s.fired }
  else
    match c.difficulties.find? fun d => d.pair = pair with
    | none => s
    | some d =>
      if d.resetTime = 0 then s
      else
        let nextReset := ((resetTime + MINUTE) / DAY * DAY + d.period + c.diff) % 2 ^ 32
        let s := s.setResetTimeFor pair nextReset
        let s := s.scheduleReset (nextReset - 3600) ⟨1, event.mapid, event.difficulty, 0⟩
        { s with fired := ⟨pair, event.type, resetTime, nextReset, none⟩ :: s.fired }

/-- One turn of the loop of `Update`. The event is changed where it stands, and what stands first is
erased in the end. -/
def turn (now : Nat) (loaded : Nat → Nat) : ResetTimes :=
  match s.resetTimeQueue with
  | [] => s
  | (t, event) :: rest =>
    if t ≥ s.now then s
    else if event.type = 0 then { s with resetTimeQueue := rest }
    else
      let resetTime := s.resetTimeByMapDifficulty (event.mapid, event.difficulty)
      let s := s.resetOrWarnAll c now loaded event resetTime
      if event.type ≠ 4 then
        let event := { event with type := event.type + 1 }
        let s := { s with resetTimeQueue := (t, event) :: rest }
        let s := s.scheduleReset (resetTime - resetTimeDelay event.type) event
        { s with resetTimeQueue := s.resetTimeQueue.tail }
      else { s with resetTimeQueue := s.resetTimeQueue.tail }

inductive Input
  | update (now : Nat)
  | turn (now : Nat) (loaded : Nat → Nat)

/-- **One step**: an `Update` begins, or goes on. -/
def step : Input → ResetTimes
  | .update now => { s with now := now }
  | .turn now loaded => s.turn c now loaded

end ResetTimes

end Sky548
