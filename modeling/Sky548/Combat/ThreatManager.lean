import Mathlib.Data.List.Sort

/-!
# Threat

`ThreatManager`, the references of the units that its owner hates, and the events by which a
reference tells its manager that it has changed. References are objects on a heap.

What the units around are like at some moment is `Battlefield`. Threat is a `float`: what is added
and compared, and how, is left to `FloatOps`.
-/

namespace Sky548

/-- The arithmetic of threat. -/
structure FloatOps (F : Type) where
  zero : F
  add : F → F → F
  sub : F → F → F
  mul : F → F → F
  lt : F → F → Bool
  le : F → F → Bool
  eq : F → F → Bool
  /-- `1.1f` -/
  meleeRule : F
  /-- `1.3f` -/
  rangedRule : F
  calculatePct : F → Int → F

structure ThreatSpell (F : Type) where
  /-- `SPELL_ATTR1_NO_THREAT` -/
  noThreat : Bool
  pctMod : Option F
  energizes : Bool
  /-- `ApplySpellMod` of the player whose spells are modified, if there is one -/
  applySpellMod : F → F

/-- What is asked of a unit at some moment. -/
structure ThreatUnit (F : Type) where
  alive : Bool
  /-- a player who is a game master -/
  isGameMaster : Bool
  inMap : Bool
  inSamePhase : Bool
  inFlight : Bool
  isInAccessiblePlaceFor : Bool
  isWithinCombatRange : Bool
  /-- immune to the attacker's damage, or under an aura that damage would break -/
  secondChoice : Bool
  canBeAttacked : Bool
  isWithinMeleeRange : Bool
  getCharmerOrOwner : Option UInt64
  getRedirectThreatPercent : Int
  getRedirectThreatTarget : Option UInt64
  /-- by the mask of schools -/
  applyTotalThreatModifier : UInt32 → F → F

def spellSchoolMaskNormal : UInt32 := 1

structure Battlefield (F : Type) where
  owner : UInt64
  ownerAlive : Bool
  unit : UInt64 → ThreatUnit F
  /-- `ObjectAccessor::GetUnit` finds it. -/
  getUnit : UInt64 → Bool

structure HostileReference (F : Type) where
  iThreat : F
  iTempThreatModifier : F
  iUnitGuid : UInt64
  iOnline : Bool
  iAccessible : Bool
  /-- `isValid`: the target is there. -/
  isValid : Bool

structure ThreatContainer where
  iThreatList : List Nat
  iDirty : Bool

structure ThreatManager (F : Type) where
  reference : Nat → Option (HostileReference F)
  next : Nat
  iThreatContainer : ThreatContainer
  iThreatOfflineContainer : ThreatContainer
  iCurrentVictim : Option Nat

/-- What a reference tells its manager. -/
inductive ThreatRefStatusChange (F : Type)
  | threatChange (fValue : F)
  | onlineStatus
  | accessibleStatus
  | removeFromList

namespace ThreatContainer

def remove (c : ThreatContainer) (ref : Nat) : ThreatContainer :=
  { c with iThreatList := c.iThreatList.filter (· ≠ ref) }

def addReference (c : ThreatContainer) (ref : Nat) : ThreatContainer :=
  { c with iThreatList := c.iThreatList ++ [ref] }

end ThreatContainer

namespace ThreatManager

variable {F : Type} (ops : FloatOps F) (m : ThreatManager F)

def empty : ThreatManager F where
  reference := fun _ => none
  next := 0
  iThreatContainer := ⟨[], false⟩
  iThreatOfflineContainer := ⟨[], false⟩
  iCurrentVictim := none

def modify (ref : Nat) (f : HostileReference F → HostileReference F) : ThreatManager F :=
  { m with reference := Function.update m.reference ref ((m.reference ref).map f) }

def delete (ref : Nat) : ThreatManager F :=
  { m with reference := Function.update m.reference ref none }

def getThreat (ref : Nat) : F := (m.reference ref).elim ops.zero HostileReference.iThreat

def setDirty : ThreatManager F :=
  { m with iThreatContainer := { m.iThreatContainer with iDirty := true } }

/-- Whether a reference has more threat than the current victim, times a factor -/
def exceedsVictim (factor : F) (ref : Nat) : Bool :=
  m.iCurrentVictim.any fun victim =>
    ops.lt (ops.mul factor (m.getThreat ops victim)) (m.getThreat ops ref)

def processThreatEvent (ref : Nat) : ThreatRefStatusChange F → ThreatManager F
  | .threatChange fValue =>
    if (m.iCurrentVictim = some ref ∧ ops.lt fValue ops.zero) ∨
        (m.iCurrentVictim ≠ some ref ∧ ops.lt ops.zero fValue) then m.setDirty
    else m
  | .onlineStatus =>
    if (m.reference ref).any HostileReference.iOnline then
      let m := if m.exceedsVictim ops ops.meleeRule ref then m.setDirty else m
      { m with
        iThreatContainer := m.iThreatContainer.addReference ref
        iThreatOfflineContainer := m.iThreatOfflineContainer.remove ref }
    else
      let m := if m.iCurrentVictim = some ref then { m with iCurrentVictim := none }.setDirty else m
      { m with
        iThreatContainer := m.iThreatContainer.remove ref
        iThreatOfflineContainer := m.iThreatOfflineContainer.addReference ref }
  | .accessibleStatus => m
  | .removeFromList =>
    let m := if m.iCurrentVictim = some ref then { m with iCurrentVictim := none }.setDirty else m
    if (m.reference ref).any HostileReference.iOnline then
      { m with iThreatContainer := m.iThreatContainer.remove ref }
    else { m with iThreatOfflineContainer := m.iThreatOfflineContainer.remove ref }

def setAccessibleState (ref : Nat) (isAccessible : Bool) : ThreatManager F :=
  if (m.reference ref).any fun r => r.iAccessible ≠ isAccessible then
    (m.modify ref fun r => { r with iAccessible := isAccessible }).processThreatEvent ops ref
      .accessibleStatus
  else m

def setOnlineOfflineState (ref : Nat) (isOnline : Bool) : ThreatManager F :=
  if (m.reference ref).any fun r => r.iOnline ≠ isOnline then
    let m := m.modify ref fun r => { r with iOnline := isOnline }
    let m := if isOnline then m else m.setAccessibleState ops ref false
    m.processThreatEvent ops ref .onlineStatus
  else m

/-- `invalidate`: the target is no longer there. -/
def invalidate (ref : Nat) : ThreatManager F :=
  (m.setOnlineOfflineState ops ref false).modify ref fun r => { r with isValid := false }

def removeReference (ref : Nat) : ThreatManager F :=
  (((m.invalidate ops ref).processThreatEvent ops ref .removeFromList)).delete ref

variable (around : Battlefield F)

def updateOnlineStatus (ref : Nat) : ThreatManager F :=
  match m.reference ref with
  | none => m
  | some r =>
    let target := around.unit r.iUnitGuid
    let isValid := r.isValid || around.getUnit r.iUnitGuid
    let m := m.modify ref fun r => { r with isValid := isValid }
    let near : Bool := isValid && !target.isGameMaster && !target.inFlight && target.inMap &&
      target.inSamePhase
    let accessible := near && target.isInAccessiblePlaceFor
    let online := near && (target.isInAccessiblePlaceFor || target.isWithinCombatRange)
    (m.setAccessibleState ops ref accessible).setOnlineOfflineState ops ref online

def calcThreat (hated : UInt64) (threat : F) (schoolMask : UInt32)
    (threatSpell : Option (ThreatSpell F)) : F :=
  match threatSpell with
  | none => (around.unit hated).applyTotalThreatModifier schoolMask threat
  | some spell =>
    let threat := spell.pctMod.elim threat (ops.mul threat)
    if spell.energizes then threat
    else (around.unit hated).applyTotalThreatModifier schoolMask (spell.applySpellMod threat)

/-- `ThreatCalcHelper::isValidProcess` -/
def isValidProcess (hated : UInt64) (threatSpell : Option (ThreatSpell F)) : Bool :=
  let unit := around.unit hated
  hated ≠ around.owner && !unit.isGameMaster && unit.alive && around.ownerAlive && unit.inMap &&
    unit.inSamePhase && !threatSpell.any ThreatSpell.noThreat

def getReferenceByTarget (c : ThreatContainer) (victim : UInt64) : Option Nat :=
  c.iThreatList.find? fun ref => (m.reference ref).any fun r => r.iUnitGuid = victim

section Adding

-- `HostileReference::addThreat`, for what is done with it further on
variable (addToRef : ThreatManager F → Nat → F → Option (ThreatManager F))

def addThreatTo (victim : UInt64) (threat : F) : Option (ThreatManager F) :=
  match m.getReferenceByTarget m.iThreatContainer victim with
  | some ref => addToRef m ref threat
  | none =>
    match m.getReferenceByTarget m.iThreatOfflineContainer victim with
    | some ref => addToRef m ref threat
    | none =>
      let ref := m.next
      let hostileRef : HostileReference F :=
        { iThreat := ops.zero, iTempThreatModifier := ops.zero, iUnitGuid := victim
          iOnline := true, iAccessible := true, isValid := true }
      let m := { m with
        reference := Function.update m.reference ref (some hostileRef)
        next := ref + 1
        iThreatContainer := m.iThreatContainer.addReference ref }
      (addToRef m ref threat).map fun m =>
        if (around.unit victim).isGameMaster then m.setOnlineOfflineState ops ref false else m

/-- `doAddThreat`: a part may be redirected. -/
def doAddThreatBy (victim : UInt64) (threat : F) : Option (ThreatManager F) :=
  let unit := around.unit victim
  if ops.lt ops.zero threat && unit.getRedirectThreatPercent ≠ 0 then
    match unit.getRedirectThreatTarget with
    | some redirectTarget =>
      let redirectThreat := ops.calculatePct threat unit.getRedirectThreatPercent
      (m.addThreatTo ops around addToRef redirectTarget redirectThreat).bind fun m =>
        m.addThreatTo ops around addToRef victim (ops.sub threat redirectThreat)
    | none => m.addThreatTo ops around addToRef victim threat
  else m.addThreatTo ops around addToRef victim threat

def addThreatBy (victim : UInt64) (threat : F) (schoolMask : UInt32)
    (threatSpell : Option (ThreatSpell F)) : Option (ThreatManager F) :=
  if isValidProcess around victim threatSpell then
    m.doAddThreatBy ops around addToRef victim
      (calcThreat ops around victim threat schoolMask threatSpell)
  else some m

end Adding

/-- `HostileReference::addThreat`: the owner of a pet is hated with it, and his owner with him, at
most so many. -/
def addToRef : Nat → ThreatManager F → Nat → F → Option (ThreatManager F)
  | 0, _, _, _ => none
  | depth + 1, m, ref, modThreat =>
    let m := m.modify ref fun r => { r with iThreat := ops.add r.iThreat modThreat }
    let m := if (m.reference ref).any HostileReference.iOnline then m
      else m.updateOnlineStatus ops around ref
    let m := if ops.eq modThreat ops.zero then m
      else m.processThreatEvent ops ref (.threatChange modThreat)
    match m.reference ref with
    | none => some m
    | some r =>
      if r.isValid && ops.le ops.zero modThreat then
        match (around.unit r.iUnitGuid).getCharmerOrOwner with
        | some victimOwner =>
          if (around.unit victimOwner).alive then
            m.addThreatBy ops around (addToRef depth) victimOwner ops.zero
              spellSchoolMaskNormal none
          else some m
        | none => some m
      else some m

variable (depth : Nat)

def addThreat (victim : UInt64) (threat : F) (schoolMask : UInt32)
    (threatSpell : Option (ThreatSpell F)) : Option (ThreatManager F) :=
  m.addThreatBy ops around (addToRef ops around depth) victim threat schoolMask threatSpell

def doAddThreat (victim : UInt64) (threat : F) : Option (ThreatManager F) :=
  m.doAddThreatBy ops around (addToRef ops around depth) victim threat

def addThreatPercent (ref : Nat) (percent : Int) : Option (ThreatManager F) :=
  let threat := m.getThreat ops ref
  let changed := ops.add threat (ops.calculatePct threat percent)
  addToRef ops around depth m ref (ops.sub changed threat)

def modifyThreatPercent (victim : UInt64) (percent : Int) : Option (ThreatManager F) :=
  match m.getReferenceByTarget m.iThreatContainer victim with
  | some ref => m.addThreatPercent ops around depth ref percent
  | none => some m

def addTempThreat (ref : Nat) (threat : F) : Option (ThreatManager F) :=
  let m := m.modify ref fun r => { r with iTempThreatModifier := threat }
  if ops.eq threat ops.zero then some m else addToRef ops around depth m ref threat

def resetTempThreat (ref : Nat) : Option (ThreatManager F) :=
  match m.reference ref with
  | none => some m
  | some r =>
    if ops.eq r.iTempThreatModifier ops.zero then some m
    else
      (addToRef ops around depth m ref (ops.sub ops.zero r.iTempThreatModifier)).map fun m =>
        m.modify ref fun r => { r with iTempThreatModifier := ops.zero }

def tauntApply (taunter : UInt64) : Option (ThreatManager F) :=
  match m.iCurrentVictim, m.getReferenceByTarget m.iThreatContainer taunter with
  | some victim, some ref =>
    let unused := (m.reference ref).any fun r => ops.eq r.iTempThreatModifier ops.zero
    if ops.lt (m.getThreat ops ref) (m.getThreat ops victim) && unused then
      m.addTempThreat ops around depth ref (ops.sub (m.getThreat ops victim) (m.getThreat ops ref))
    else some m
  | _, _ => some m

def tauntFadeOut (taunter : UInt64) : Option (ThreatManager F) :=
  match m.getReferenceByTarget m.iThreatContainer taunter with
  | some ref => m.resetTempThreat ops around depth ref
  | none => some m

def clearReferences : ThreatManager F :=
  { m with
    reference := fun ref =>
      if ref ∈ m.iThreatContainer.iThreatList ∨ ref ∈ m.iThreatOfflineContainer.iThreatList then none
      else m.reference ref
    iThreatContainer := { m.iThreatContainer with iThreatList := [] }
    iThreatOfflineContainer := { m.iThreatOfflineContainer with iThreatList := [] }
    iCurrentVictim := none }

/-- `update`: the list is sorted by threat, the highest first. -/
def update : ThreatManager F :=
  let list := m.iThreatContainer.iThreatList
  let sorted := if m.iThreatContainer.iDirty && decide (1 < list.length) then
      list.insertionSort fun a b => ops.lt (m.getThreat ops a) (m.getThreat ops b) = false
    else list
  { m with iThreatContainer := ⟨sorted, false⟩ }

/-- What a walk through the list ends with: a victim, or the wish to start again, whether or not
there are only second choices. -/
inductive Selection
  | found (victim : Option Nat)
  | restart (currentVictim : Option Nat)

def target (ref : Nat) : Option (ThreatUnit F) :=
  (m.reference ref).map fun r => around.unit r.iUnitGuid

/-- Whether a reference is to be attacked rather than the current victim, or the current victim
rather than all that follow -/
def selects (currentVictim : Option Nat) (ref : Nat) : Option Nat :=
  match currentVictim with
  | none => some ref
  | some victim =>
    let threat := m.getThreat ops victim
    let exceeds (factor : F) : Bool := ops.lt (ops.mul factor threat) (m.getThreat ops ref)
    if victim = ref then some ref
    else if ops.le (m.getThreat ops ref) (ops.mul ops.meleeRule threat) then
      some (if (m.target around victim).any ThreatUnit.canBeAttacked then victim else ref)
    else if exceeds ops.rangedRule || exceeds ops.meleeRule &&
        (m.target around ref).any ThreatUnit.isWithinMeleeRange then some ref
    else none

/-- The loop of `selectNextVictim` -/
def select (noPriorityTargetFound : Bool) : Option Nat → List Nat → Selection
  | _, [] => .found none
  | currentVictim, ref :: rest =>
    if !noPriorityTargetFound && (m.target around ref).any ThreatUnit.secondChoice then
      if rest = [] then .restart currentVictim
      else select noPriorityTargetFound
        (if currentVictim = some ref then none else currentVictim) rest
    else if (m.target around ref).any ThreatUnit.canBeAttacked then
      match m.selects ops around currentVictim ref with
      | some victim => .found (some victim)
      | none => select noPriorityTargetFound currentVictim rest
    else select noPriorityTargetFound currentVictim rest

def selectNextVictim : Option Nat :=
  let list := m.iThreatContainer.iThreatList
  match m.select ops around false m.iCurrentVictim list with
  | .found victim => victim
  | .restart currentVictim =>
    match m.select ops around true currentVictim list with
    | .found victim => victim
    | .restart _ => none

def getHostilTarget : ThreatManager F :=
  let m := m.update ops
  { m with iCurrentVictim := m.selectNextVictim ops around }

/-- A taunt that makes the taunter the victim at once -/
def attackMe (caster : UInt64) : ThreatManager F :=
  match m.getReferenceByTarget m.iThreatContainer caster with
  | some forcedVictim => { m with iCurrentVictim := some forcedVictim }
  | none => m

/-- What happens to a threat manager: calls to it, and what its references are told by the units
they are of. -/
inductive Op (F : Type)
  | addThreat (victim : UInt64) (threat : F) (schoolMask : UInt32)
      (threatSpell : Option (ThreatSpell F))
  | doAddThreat (victim : UInt64) (threat : F)
  | modifyThreatPercent (victim : UInt64) (percent : Int)
  | tauntApply (taunter : UInt64)
  | tauntFadeOut (taunter : UInt64)
  | setOnlineOfflineState (ref : Nat) (isOnline : Bool)
  | updateOnlineStatus (ref : Nat)
  | addThreatPercent (ref : Nat) (percent : Int)
  | addTempThreat (ref : Nat) (threat : F)
  | resetTempThreat (ref : Nat)
  | invalidate (ref : Nat)
  | removeReference (ref : Nat)
  | clearReferences
  | getHostilTarget
  | attackMe (caster : UInt64)

/-- One operation among the units that are around then; `none` if owners are hated without end. -/
def perform (op : Op F) : Option (ThreatManager F) :=
  match op with
  | .addThreat victim threat schoolMask threatSpell =>
    m.addThreat ops around depth victim threat schoolMask threatSpell
  | .doAddThreat victim threat => m.doAddThreat ops around depth victim threat
  | .modifyThreatPercent victim percent => m.modifyThreatPercent ops around depth victim percent
  | .tauntApply taunter => m.tauntApply ops around depth taunter
  | .tauntFadeOut taunter => m.tauntFadeOut ops around depth taunter
  | .setOnlineOfflineState ref isOnline => some (m.setOnlineOfflineState ops ref isOnline)
  | .updateOnlineStatus ref => some (m.updateOnlineStatus ops around ref)
  | .addThreatPercent ref percent => m.addThreatPercent ops around depth ref percent
  | .addTempThreat ref threat => m.addTempThreat ops around depth ref threat
  | .resetTempThreat ref => m.resetTempThreat ops around depth ref
  | .invalidate ref => some (m.invalidate ops ref)
  | .removeReference ref => some (m.removeReference ops ref)
  | .clearReferences => some m.clearReferences
  | .getHostilTarget => some (m.getHostilTarget ops around)
  | .attackMe caster => some (m.attackMe caster)

end ThreatManager

end Sky548
