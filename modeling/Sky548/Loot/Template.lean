import Mathlib.Data.Rat.Floor
import Sky548.Loot.Fill

/-!
# Loot templates

`LootStoreItem`, `LootTemplate` and its groups, and `LootStore` (`LootMgr.h`, `LootMgr.cpp`):
how a store is loaded and checked, and how a template is processed. References go by depth:
a call that would go deeper than it is allowed to has no result.

Chances and rates are rational numbers here. Of the random numbers it is only said in what
range they are.
-/

namespace Sky548

structure LootStoreEntry extends LootStoreItem where
  chance : ℚ
  mincountOrRef : Int
  lootmode : UInt16
  group : UInt8
  maxcount : UInt8
  deriving DecidableEq

namespace LootStoreEntry

def ofRow (itemid : UInt32) (chanceOrQuestChance : ℚ) (lootmode : UInt16) (group : UInt8)
    (mincountOrRef : Int) (maxcount : UInt8) : LootStoreEntry where
  itemid := itemid
  conditions := []
  needsQuest := chanceOrQuestChance < 0
  chance := |chanceOrQuestChance|
  mincountOrRef := mincountOrRef
  lootmode := lootmode
  group := group
  maxcount := maxcount

variable (item : LootStoreEntry)

def isRef : Bool := item.mincountOrRef < 0

def refId : UInt32 := UInt32.ofNat (-item.mincountOrRef).toNat

def isValid (store : ItemStore) : Bool :=
  if item.mincountOrRef = 0 then false
  else if item.mincountOrRef > 0 then
    (store item.itemid).isSome && !(item.chance = 0 && item.group = 0) &&
      !(item.chance ≠ 0 && item.chance < 1 / 1000000) &&
      !((item.maxcount.toNat : Int) < item.mincountOrRef)
  else item.needsQuest || item.chance ≠ 0

end LootStoreEntry

namespace LootTemplate

structure LootGroup where
  explicitlyChanced : List LootStoreEntry
  equalChanced : List LootStoreEntry
  deriving DecidableEq

namespace LootGroup

def empty : LootGroup := ⟨[], []⟩

def addEntry (g : LootGroup) (item : LootStoreEntry) : LootGroup :=
  if item.chance ≠ 0 then { g with explicitlyChanced := g.explicitlyChanced ++ [item] }
  else { g with equalChanced := g.equalChanced ++ [item] }

/-- The entries of a group, in the order of every search. -/
def items (g : LootGroup) : List LootStoreEntry := g.explicitlyChanced ++ g.equalChanced

end LootGroup

end LootTemplate

/-- `LootTemplate`; a group may not be there. -/
structure LootTemplate where
  entries : List LootStoreEntry
  groups : List (Option LootTemplate.LootGroup)
  deriving DecidableEq

namespace LootTemplate

def empty : LootTemplate := ⟨[], []⟩

def addEntry (t : LootTemplate) (item : LootStoreEntry) : LootTemplate :=
  if item.group > 0 && item.mincountOrRef > 0 then
    let group := item.group.toNat
    let groups := t.groups ++ List.replicate (group - t.groups.length) none
    { t with groups := groups.modify (group - 1) fun g => some ((g.getD .empty).addEntry item) }
  else { t with entries := t.entries ++ [item] }

def getGroup (t : LootTemplate) (groupId : UInt8) : Option LootGroup :=
  (t.groups[groupId.toNat - 1]?).join

end LootTemplate

abbrev LootTemplateMap := UInt32 → Option LootTemplate

/-- A row of a loot table: the id of its template, and the store item it becomes. -/
structure LootRow where
  entry : UInt32
  item : LootStoreEntry

namespace LootStore

/-- The row goes into the template of its id, which is made if it is not there. -/
def addRow (templates : LootTemplateMap) (row : LootRow) : LootTemplateMap := fun id =>
  if id = row.entry then some (((templates id).getD .empty).addEntry row.item) else templates id

/-- `LoadLootTable`: rows that are not valid are skipped, and one whose group does not fit
into seven bits ends it. -/
def loadLootTable (store : ItemStore) : List LootRow → LootTemplateMap → LootTemplateMap
  | [], templates => templates
  | row :: rest, templates =>
    if row.item.group ≥ 128 then templates
    else if row.item.isValid store then loadLootTable store rest (addRow templates row)
    else loadLootTable store rest templates

/-- No row is skipped. -/
def TakesAll (store : ItemStore) (rows : List LootRow) : Prop :=
  ∀ row ∈ rows, row.item.group < 128 ∧ row.item.isValid store = true

instance (store : ItemStore) (rows : List LootRow) : Decidable (TakesAll store rows) :=
  inferInstanceAs (Decidable (∀ row ∈ rows, _))

end LootStore

namespace LootTemplate

namespace LootGroup

def rawTotalChance (g : LootGroup) : ℚ :=
  ((g.explicitlyChanced.filter fun item => !item.needsQuest).map (·.chance)).sum

/-- `Verify`: whether it finds nothing to report. -/
def verify (g : LootGroup) : Bool :=
  !(g.rawTotalChance > 101) && !(g.rawTotalChance ≥ 100 && g.equalChanced ≠ [])

/-- `CheckLootRefs`: whether it finds nothing to report. -/
def checkLootRefs (g : LootGroup) (templates references : LootTemplateMap) : Bool :=
  (g.explicitlyChanced.all fun item =>
    !item.isRef || (templates item.refId).isSome || (references item.refId).isSome) &&
  g.equalChanced.all fun item => !item.isRef || (references item.refId).isSome

end LootGroup

variable (t : LootTemplate)

/-- `Verify`: the groups, and no references. -/
def verify : Bool := t.groups.all fun g => g.all LootGroup.verify

/-- `CheckLootRefs`: the referenced templates are there. -/
def checkLootRefs (templates references : LootTemplateMap) : Bool :=
  (t.entries.all fun item =>
    !item.isRef || (templates item.refId).isSome || (references item.refId).isSome) &&
  t.groups.all fun g => g.all (LootGroup.checkLootRefs · templates references)

/-- The loop over the entries: the first drop ends it. -/
def anyEntry (drops : LootStoreEntry → Option Bool) : List LootStoreEntry → Option Bool
  | [] => some false
  | item :: rest => do
      if ← drops item then some true else anyEntry drops rest

/-- One turn of that loop, for a way to search a referenced template. -/
def entryDrop (templates : LootTemplateMap) (isDrop : LootStoreEntry → Bool)
    (search : LootTemplate → UInt8 → Option Bool) (item : LootStoreEntry) : Option Bool :=
  if item.isRef then
    match templates item.refId with
    | none => some false
    | some referenced => search referenced item.group
  else some (isDrop item)

/-- `HasQuestDrop` and `HasQuestDropForPlayer`, which differ in what a quest drop is. -/
def hasDrop (templates : LootTemplateMap) (isDrop : LootStoreEntry → Bool) :
    Nat → LootTemplate → UInt8 → Option Bool
  | 0, _, _ => none
  | depth + 1, t, groupId =>
    if groupId ≠ 0 then some ((t.getGroup groupId).any fun g => g.items.any isDrop)
    else do
      let found ← anyEntry (entryDrop templates isDrop (hasDrop templates isDrop depth)) t.entries
      if found then some true
      else some (t.groups.any fun g => g.any fun g => g.items.any isDrop)

def hasQuestDrop (templates : LootTemplateMap) (depth : Nat) (groupId : UInt8) : Option Bool :=
  hasDrop templates (·.needsQuest) depth t groupId

def hasQuestDropForPlayer (templates : LootTemplateMap) (hasQuestForItem : UInt32 → Bool)
    (depth : Nat) (groupId : UInt8) : Option Bool :=
  hasDrop templates (fun item => hasQuestForItem item.itemid) depth t groupId

end LootTemplate

/-- What one call of a random function gives: `rand_chance`, or a number to pick with. -/
structure LootDraw where
  chance : ℚ
  inRange : 0 ≤ chance ∧ chance < 100
  number : Nat

def LootDraw.lowest : LootDraw := ⟨0, by norm_num, 0⟩

/-- What a loot is rolled with: the items there are, the rates, the templates that are
referred to, and the random numbers. -/
structure LootRolls where
  store : ItemStore
  rateReferenced : ℚ
  rateReferencedAmount : ℚ
  rateQuality : UInt32 → ℚ
  references : LootTemplateMap
  draws : Nat → LootDraw

/-- A loot that is being filled, with the number of draws made. -/
structure LootFilling where
  loot : Loot
  maxDuplicates : UInt8
  drawn : Nat

namespace LootRolls

variable (r : LootRolls)

def factor (item : LootStoreEntry) (rate : Bool) : ℚ :=
  if !rate then 1
  else if item.isRef then r.rateReferenced
  else match r.store item.itemid with
    | none => 1
    | some proto => r.rateQuality proto.quality

def roll (item : LootStoreEntry) (rate : Bool) (s : LootFilling) : Bool × LootFilling :=
  if item.chance ≥ 100 then (true, s)
  else (item.chance * r.factor item rate > (r.draws s.drawn).chance,
    { s with drawn := s.drawn + 1 })

/-- `Loot::AddItem` with the count that `urand` gives. -/
def addItem (item : LootStoreEntry) (s : LootFilling) : LootFilling :=
  let min := item.mincountOrRef.toNat
  let count := min + (r.draws s.drawn).number % (item.maxcount.toNat - min + 1)
  { s with
    loot := s.loot.addItem r.store item.toLootStoreItem (UInt32.ofNat count)
    drawn := s.drawn + 1 }

def isInvalid (lootMode : UInt16) (s : LootFilling) (item : LootStoreEntry) : Bool :=
  item.lootmode &&& lootMode = 0 ||
    (s.maxDuplicates ≠ 0 &&
      (s.loot.items.countP fun other => other.itemid = item.itemid) ≥ s.maxDuplicates.toNat)

/-- The loop of `LootGroup::Roll` over the explicitly chanced entries. -/
def rollExplicit : List LootStoreEntry → ℚ → Option LootStoreEntry
  | [], _ => none
  | item :: rest, roll =>
    if item.chance ≥ 100 then some item
    else if roll - item.chance < 0 then some item
    else rollExplicit rest (roll - item.chance)

def rollGroup (g : LootTemplate.LootGroup) (lootMode : UInt16) (s : LootFilling) :
    Option LootStoreEntry × LootFilling :=
  let explicit := g.explicitlyChanced.filter fun item => !isInvalid lootMode s item
  let s' := if explicit = [] then s else { s with drawn := s.drawn + 1 }
  match rollExplicit explicit (r.draws s.drawn).chance with
  | some item => (some item, s')
  | none =>
    let equal := g.equalChanced.filter fun item => !isInvalid lootMode s item
    if equal = [] then (none, s')
    else (equal[(r.draws s'.drawn).number % equal.length]?, { s' with drawn := s'.drawn + 1 })

def processGroup (g : LootTemplate.LootGroup) (lootMode : UInt16) (s : LootFilling) : LootFilling :=
  match r.rollGroup g lootMode s with
  | (some item, s) => r.addItem item s
  | (none, s) => s

/-- How often a reference is processed: `uint32(float(maxcount) * rate)`. -/
def times (item : LootStoreEntry) : Nat := ⌊(item.maxcount.toNat : ℚ) * r.rateReferencedAmount⌋.toNat

/-- The body of a loop, `n` times. -/
def repeatProcess (f : LootFilling → Option LootFilling) : Nat → LootFilling → Option LootFilling
  | 0, s => some s
  | n + 1, s => (f s).bind (repeatProcess f n)

/-- The loop of `Process` over the entries that are not grouped. -/
def processEntries (f : LootStoreEntry → LootFilling → Option LootFilling) :
    List LootStoreEntry → LootFilling → Option LootFilling
  | [], s => some s
  | item :: rest, s => (f item s).bind (processEntries f rest)

/-- One turn of that loop, for a way to process a referenced template. -/
def processEntry (process : LootTemplate → UInt8 → LootFilling → Option LootFilling) (rate : Bool)
    (lootMode : UInt16) (item : LootStoreEntry) (s : LootFilling) : Option LootFilling :=
  if item.lootmode &&& lootMode = 0 then some s
  else
    let (rolled, s) := r.roll item rate s
    if !rolled then some s
    else if item.isRef then
      match r.references item.refId with
      | none => some s
      | some referenced => repeatProcess (process referenced item.group) (r.times item) s
    else some (r.addItem item s)

def process (rate : Bool) (lootMode : UInt16) :
    Nat → LootTemplate → UInt8 → LootFilling → Option LootFilling
  | 0, _, _, _ => none
  | depth + 1, t, groupId, s =>
    if groupId ≠ 0 then
      match t.getGroup groupId with
      | none => some s
      | some g => some (r.processGroup g lootMode s)
    else do
      let s ← processEntries (r.processEntry (process rate lootMode depth) rate lootMode)
        t.entries s
      some (t.groups.foldl (fun s g => g.elim s fun g => r.processGroup g lootMode s) s)

end LootRolls

end Sky548
