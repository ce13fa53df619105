import Sky548.KeyedList

/-!
# Instance saves and what is bound to them

A player or a group has a bind to one save for each map and difficulty, and a save lists the players
and groups that are bound to it. Saves are objects: `memory` holds those there are, by their address,
and a save that is accessed when it has been deleted, or is deleted while its lists are not empty, is
noted (`misused`). A loop that would not end is noted too (`hung`).

What is written to the database, sent and scheduled is left out.
-/

namespace Sky548

open Function (update)

/-- A player or a group -/
inductive Holder
  | player (guid : Nat)
  | group (guid : Nat)
  deriving DecidableEq

/-- `bound` is whether anything has been bound to it yet. -/
structure InstanceSave where
  instanceid : Nat
  mapid : Nat
  difficulty : Nat
  canReset : Bool
  toDelete : Bool
  playerList : List Nat
  groupList : List Nat
  bound : Bool

structure InstanceBind where
  mapid : Nat
  save : Nat
  perm : Bool
  deriving DecidableEq

/-- The map of a kind of difficulty -/
abbrev BoundInstances := KeyedList InstanceBind InstanceBind.mapid

/-- What the server has loaded of maps: whether there is one and it is a raid, and which difficulties it
has -/
structure MapStore where
  isRaid : Nat → Option Bool
  hasDifficulty : Nat → Nat → Bool

/-- `GetDownscaledMapDifficultyData` -/
def MapStore.downscaled (maps : MapStore) (mapid difficulty : Nat) : Nat :=
  if maps.hasDifficulty mapid difficulty then difficulty
  else
    let lower := if difficulty = 6 then 4 else if difficulty = 5 then 3 else 0
    if maps.hasDifficulty mapid lower then lower else 3

def MAX_DUNGEON_DIFFICULTY : Nat := 9
def MAX_RAID_DIFFICULTY : Nat := 10
def MAX_DIFFICULTY : Nat := 15

namespace InstanceSave

variable (save : InstanceSave)

def isEmpty : Bool := save.playerList.isEmpty && save.groupList.isEmpty

/-- How often a player or a group is listed -/
def count : Holder → Nat
  | .player guid => save.playerList.count guid
  | .group guid => save.groupList.count guid

def add : Holder → InstanceSave
  | .player guid => { save with
      playerList := save.playerList ++ [guid]
      bound := true }
  | .group guid => { save with
      groupList := save.groupList ++ [guid]
      bound := true }

def listRemove : Holder → InstanceSave
  | .player guid => { save with playerList := save.playerList.filter (· ≠ guid) }
  | .group guid => { save with groupList := save.groupList.filter (· ≠ guid) }

end InstanceSave

/-- The saves, and what is bound to them -/
structure InstanceSaves where
  memory : Nat → Option InstanceSave
  next : Nat
  instanceSaveById : Nat → Option Nat
  boundInstances : Holder → Nat → BoundInstances
  lockInstLists : Bool
  misused : Bool
  hung : Bool

namespace InstanceSaves

variable (maps : MapStore) (s : InstanceSaves)

def initial : InstanceSaves where
  memory := fun _ => none
  next := 0
  instanceSaveById := fun _ => none
  boundInstances := fun _ _ => KeyedList.empty
  lockInstLists := false
  misused := false
  hung := false

def access (save : Nat) (f : InstanceSave → InstanceSaves) : InstanceSaves :=
  match s.memory save with
  | none => { s with misused := true }
  | some object => f object

def put (save : Nat) (object : InstanceSave) : InstanceSaves :=
  { s with memory := update s.memory save (some object) }

/-- `delete`, which asserts that nothing is bound to the save -/
def delete (save : Nat) : InstanceSaves :=
  s.access save fun object =>
    { s with
      memory := update s.memory save none
      misused := s.misused || !object.isEmpty }

def setBinds (holder : Holder) (difficulty : Nat) (binds : BoundInstances) : InstanceSaves :=
  { s with
    boundInstances := fun h d =>
      if h = holder ∧ d = difficulty then binds else s.boundInstances h d }

def addInstanceSave (mapid instanceid difficulty : Nat) (canReset : Bool) : InstanceSaves :=
  match s.instanceSaveById instanceid with
  | some _ => s
  | none =>
    match maps.isRaid mapid with
    | none => s
    | some isRaid =>
      if instanceid = 0 then s
      else if difficulty ≥ if isRaid then MAX_RAID_DIFFICULTY else MAX_DUNGEON_DIFFICULTY then s
      else
        { s.put s.next ⟨instanceid, mapid % 2 ^ 16, difficulty, canReset, false, [], [], false⟩ with
          next := s.next + 1
          instanceSaveById := update s.instanceSaveById instanceid (some s.next) }

def removeInstanceSave (instanceid : Nat) : InstanceSaves :=
  match s.instanceSaveById instanceid with
  | none => s
  | some save =>
    s.access save fun object =>
      { s.put save { object with toDelete := true } with
        instanceSaveById := update s.instanceSaveById instanceid none }

def unloadIfEmpty (object : InstanceSave) : InstanceSaves :=
  if object.isEmpty && !s.lockInstLists then s.removeInstanceSave object.instanceid else s

/-- What `RemovePlayer` and `RemoveGroup` have in common -/
def remove (holder : Holder) (save : Nat) : InstanceSaves :=
  s.access save fun object =>
    let object := object.listRemove holder
    let s := (s.put save object).unloadIfEmpty object
    s.access save fun object => if object.toDelete then s.delete save else s

def removePlayer (guid save : Nat) : InstanceSaves := s.remove (.player guid) save

def removeGroup (guid save : Nat) : InstanceSaves := s.remove (.group guid) save

/-- What `UnbindInstance` of a player and of a group have in common -/
def unbind (holder : Holder) (mapid difficulty : Nat) : InstanceSaves :=
  match (s.boundInstances holder difficulty).find? mapid with
  | none => s
  | some bind =>
    let s := s.remove holder bind.save
    s.setBinds holder difficulty ((s.boundInstances holder difficulty).erase mapid)

def unbindPlayer (guid mapid difficulty : Nat) : InstanceSaves :=
  s.unbind (.player guid) mapid difficulty

def unbindGroup (guid mapid difficulty : Nat) : InstanceSaves :=
  s.unbind (.group guid) mapid difficulty

/-- The bind's save becomes this one: the lists follow. -/
def rebind (holder : Holder) (save : Nat) (old : Option InstanceBind) : InstanceSaves :=
  if old.map InstanceBind.save = some save then s
  else
    let s := old.elim s fun bind => s.remove holder bind.save
    s.access save fun object => s.put save (object.add holder)

/-- What `BindToInstance` of a player and of a group have in common -/
def bind (holder : Holder) (save : Nat) (permanent clearsReset : Bool) : InstanceSaves :=
  s.access save fun object =>
    let s := s.rebind holder save ((s.boundInstances holder object.difficulty).find? object.mapid)
    let s :=
      if clearsReset then s.access save fun object => s.put save { object with canReset := false }
      else s
    s.setBinds holder object.difficulty
      ((s.boundInstances holder object.difficulty).insert ⟨object.mapid, save, permanent⟩)

def bindPlayer (guid save : Nat) (permanent : Bool) : InstanceSaves :=
  s.bind (.player guid) save permanent permanent

/-- `Group::BindToInstance`, where `battle` is whether it is a battleground or battlefield group -/
def bindGroup (guid : Nat) (battle : Bool) (save : Nat) (permanent : Bool) : InstanceSaves :=
  if battle then s else s.bind (.group guid) save permanent false

inductive ResetMethod
  | all
  | changeDifficulty
  | disband
  deriving DecidableEq

/-- `ResetInstances` of a group unbinds it: `occupied` are the instances with players in them. -/
def resets (method : ResetMethod) (isRaid : Bool) (difficulty : Nat) (occupied : Nat → Bool)
    (bind : InstanceBind) : Bool :=
  match maps.isRaid bind.mapid, s.memory bind.save with
  | some entryIsRaid, some object =>
    let isSkipped := entryIsRaid ≠ isRaid ∨ (!object.canReset ∧ method ≠ .disband) ∨
      (method = .all ∧ (entryIsRaid ∨ difficulty = 2))
    let isEmpty := !occupied object.instanceid ∨ (method = .disband ∧ !object.canReset)
    !isSkipped && (isEmpty ∨ method = .disband ∨ method = .changeDifficulty)
  | _, _ => false

/-- A walk through the binds of a group, whose saves are read, to the first that is to be unbound: those
it passes over stay as they are. -/
def walk (guid : Nat) (method : ResetMethod) (isRaid : Bool) (difficulty : Nat) (occupied : Nat → Bool)
    (found : InstanceBind → InstanceSaves) : InstanceSaves :=
  let binds := s.boundInstances (.group guid) difficulty
  if binds.toList.all fun bind => (s.memory bind.save).isSome then
    (binds.toList.find? (s.resets maps method isRaid difficulty occupied)).elim s found
  else { s with misused := true }

/-- The loop of `Group::ResetInstances`, which begins anew after each bind that it erases -/
def resetLoop (guid : Nat) (method : ResetMethod) (isRaid : Bool) (difficulty : Nat)
    (occupied : Nat → Bool) : Nat → InstanceSaves → InstanceSaves
  | 0, s => s.walk maps guid method isRaid difficulty occupied fun _ => { s with hung := true }
  | turns + 1, s =>
    s.walk maps guid method isRaid difficulty occupied fun bind =>
      resetLoop guid method isRaid difficulty occupied turns ((s.setBinds (.group guid) difficulty
          ((s.boundInstances (.group guid) difficulty).erase bind.mapid)).removeGroup guid bind.save)

/-- `Group::ResetInstances`. No bind is erased twice. -/
def resetInstances (guid : Nat) (battle : Bool) (method : ResetMethod) (isRaid : Bool) (difficulty : Nat)
    (occupied : Nat → Bool) : InstanceSaves :=
  if battle then s
  else
    resetLoop maps guid method isRaid difficulty occupied
      (s.boundInstances (.group guid) difficulty).size s

def convertBind (player guid : Nat) (battle switchLeader : Bool) (difficulty : Nat)
    (bind : InstanceBind) : InstanceSaves :=
  s.access bind.save fun object =>
    let groupBind := (s.boundInstances (.group guid)
      (maps.downscaled bind.mapid object.difficulty)).find? bind.mapid
    let s :=
      if !switchLeader ∨ groupBind = none then s.bindGroup guid battle bind.save bind.perm else s
    if switchLeader ∧ !bind.perm then s.unbindPlayer player bind.mapid difficulty else s

def convertInstancesToGroup (player guid : Nat) (battle switchLeader : Bool) : InstanceSaves :=
  (List.range MAX_DIFFICULTY).foldl (fun s difficulty =>
    (s.boundInstances (.player player) difficulty).toList.foldl (fun s bind =>
      s.convertBind maps player guid battle switchLeader difficulty bind) s) s

/-- A loop of `_ResetSave`, for as many turns as are listed: a turn that takes nothing out of the list
would be taken for ever. -/
def unbindAll (holder : Nat → Holder) (list : InstanceSave → List Nat) (save : Nat) :
    Nat → InstanceSaves → InstanceSaves
  | 0, s =>
    s.access save fun object => if (list object).isEmpty then s else { s with hung := true }
  | turns + 1, s =>
    s.access save fun object =>
      match list object with
      | [] => s
      | guid :: _ =>
        unbindAll holder list save turns (s.unbind (holder guid) object.mapid object.difficulty)

def unbindPlayers (save : Nat) : InstanceSaves :=
  s.access save fun object =>
    unbindAll Holder.player InstanceSave.playerList save object.playerList.length s

def unbindGroups (save : Nat) : InstanceSaves :=
  s.access save fun object =>
    unbindAll Holder.group InstanceSave.groupList save object.groupList.length s

def resetSave (instanceid : Nat) : InstanceSaves :=
  match s.instanceSaveById instanceid with
  | none => s
  | some save =>
    let s := { s with lockInstLists := true }
    let s := ((s.unbindPlayers save).unbindGroups save).delete save
    { s with
      instanceSaveById := update s.instanceSaveById instanceid none
      lockInstLists := false }

/-- What is called: the save that something is bound to is the one that the manager has for an id. -/
inductive Input
  | addInstanceSave (mapid instanceid difficulty : Nat) (canReset : Bool)
  | bindPlayer (guid instanceid : Nat) (permanent : Bool)
  | unbindPlayer (guid mapid difficulty : Nat)
  | bindGroup (guid : Nat) (battle : Bool) (instanceid : Nat) (permanent : Bool)
  | unbindGroup (guid mapid difficulty : Nat)
  | resetInstances (guid : Nat) (battle : Bool) (method : ResetMethod) (isRaid : Bool)
      (difficulty : Nat) (occupied : Nat → Bool)
  | convertInstancesToGroup (player guid : Nat) (battle switchLeader : Bool)
  | resetSave (instanceid : Nat)

def step : Input → InstanceSaves
  | .addInstanceSave mapid instanceid difficulty canReset =>
    s.addInstanceSave maps mapid instanceid difficulty canReset
  | .bindPlayer guid instanceid permanent =>
    (s.instanceSaveById instanceid).elim s fun save => s.bindPlayer guid save permanent
  | .unbindPlayer guid mapid difficulty => s.unbindPlayer guid mapid difficulty
  | .bindGroup guid battle instanceid permanent =>
    (s.instanceSaveById instanceid).elim s fun save => s.bindGroup guid battle save permanent
  | .unbindGroup guid mapid difficulty => s.unbindGroup guid mapid difficulty
  | .resetInstances guid battle method isRaid difficulty occupied =>
    s.resetInstances maps guid battle method isRaid difficulty occupied
  | .convertInstancesToGroup player guid battle switchLeader =>
    s.convertInstancesToGroup maps player guid battle switchLeader
  | .resetSave instanceid => s.resetSave instanceid

end InstanceSaves

end Sky548
