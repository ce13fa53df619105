import Sky548.Loot.Model

/-!
# Filling a loot

`Loot::AddItem`, the three fill functions that give each player own records, and
`Loot::FillLoot` around them. Which store items are drawn, and how many of each,
comes from `LootTemplate::Process` outside.
-/

namespace Sky548

def maxNrLootItems : Nat := 16

def maxNrQuestItems : Nat := 32

inductive LootMethod
  | freeForAll
  | roundRobin
  | masterLoot
  | groupLoot
  | needBeforeGreed
  deriving DecidableEq, Repr

structure LootStoreItem where
  itemid : UInt32
  conditions : List UInt32
  needsQuest : Bool
  deriving DecidableEq, Repr

/-- The group of a player, as the fill functions ask for it. -/
structure LootRules where
  lootMethod : LootMethod
  looterGuid : UInt64
  lootThreshold : UInt32
  deriving DecidableEq, Repr

structure FillPlayer where
  guid : UInt64
  presentAtLooting : Bool
  filter : LootFilter
  canStore : LootItem → Bool

namespace FillPlayer

def low (p : FillPlayer) : UInt32 := guidLoPart p.guid

end FillPlayer

namespace LootRules

/-- The exception for entries that follow the loot rules: under master loot for
the master looter, else for every group member. -/
def followRules (rules : Option LootRules) (p : FillPlayer) (item : LootItem) : Bool :=
  item.followLootRules &&
    match rules with
    | none => false
    | some g => g.lootMethod ≠ .masterLoot || g.looterGuid = p.guid

/-- The test of `FillQuestLoot` that leaves quest entries unblocked. -/
def countsPerPlayer (rules : Option LootRules) : Bool :=
  match rules with
  | none => false
  | some g => g.lootMethod = .groupLoot || g.lootMethod = .roundRobin

end LootRules

namespace Loot

def incUnlooted (l : Loot) : Loot := { l with unlootedCount := l.unlootedCount + 1 }

def newItem (proto : ItemTemplate) (drawn : LootStoreItem) (count : UInt8) : LootItem where
  itemid := drawn.itemid
  conditions := drawn.conditions
  allowedGUIDs := []
  count := count
  isLooted := false
  isBlocked := false
  freeforall := proto.partyLoot
  isUnderthreshold := false
  isCounted := false
  needsQuest := drawn.needsQuest
  followLootRules := proto.followLootRules

/-- The loop of `AddItem` over the stacks that are left. -/
def addStacks (proto : ItemTemplate) (drawn : LootStoreItem) : Nat → UInt32 → Loot → Loot
  | 0, _, l => l
  | piles + 1, count, l =>
    let full := if drawn.needsQuest then l.questItems.length ≥ maxNrQuestItems
      else l.items.length ≥ maxNrLootItems
    if full then l
    else
      let item := newItem proto drawn (min count proto.maxStackSize).toUInt8
      let l' := if drawn.needsQuest then { l with questItems := l.questItems ++ [item] }
        else { l with items := l.items ++ [item] }
      -- conditional and free for all items are counted by the fill functions
      let l' := if !drawn.needsQuest && drawn.conditions = [] && !proto.partyLoot then
          l'.incUnlooted
        else l'
      addStacks proto drawn piles (count - proto.maxStackSize) l'

/-- `AddItem`; `count` is `urand(mincount, maxcount)`. -/
def addItem (store : ItemStore) (l : Loot) (drawn : LootStoreItem) (count : UInt32) : Loot :=
  match store drawn.itemid with
  | none => l
  | some proto =>
    let piles := count / proto.maxStackSize + if count % proto.maxStackSize ≠ 0 then 1 else 0
    addStacks proto drawn piles.toNat count l

def setQuest (l : Loot) (player : UInt32) (ql : List QuestItem) : Loot :=
  { l with playerQuestItems := l.playerQuestItems.set player ql }

def setFFA (l : Loot) (player : UInt32) (ql : List QuestItem) : Loot :=
  { l with playerFFAItems := l.playerFFAItems.set player ql }

def setConditional (l : Loot) (player : UInt32) (ql : List QuestItem) : Loot :=
  { l with
    playerNonQuestNonFFAConditionalItems :=
      l.playerNonQuestNonFFAConditionalItems.set player ql }

/-- The loop body of `FillFFALoot`, on the loot and the list so far. -/
def fillFFATurn (p : FillPlayer) (s : Loot × List QuestItem) (i : Nat) :
    Loot × List QuestItem :=
  match s.1.items[i]? with
  | none => s
  | some item =>
    if !item.isLooted && item.freeforall && item.allowedForPlayer p.filter then
      (s.1.incUnlooted, s.2 ++ [⟨UInt8.ofNat i, false⟩])
    else s

def fillFFALoot (l : Loot) (p : FillPlayer) : Loot :=
  let s := (List.range l.items.length).foldl (fillFFATurn p) (l, [])
  if s.2 = [] then s.1 else s.1.setFFA p.low s.2

/-- The players for whom `FillQuestLoot` and `FillNonQuestNonFFAConditionalLoot`
record an entry. -/
def wants (rules : Option LootRules) (p : FillPlayer) (item : LootItem) : Bool :=
  item.allowedForPlayer p.filter || LootRules.followRules rules p item

def isFor (rules : Option LootRules) (p : FillPlayer) (item : LootItem) : Bool :=
  !item.isLooted && wants rules p item

/-- An entry is counted once if one looter only, looter-times if free for all; quest entries get
blocked when first in a player's list, but not under group loot and round robin. -/
def countQuest (l : Loot) (rules : Option LootRules) (i : Nat) (item : LootItem) : Loot :=
  let l' := if item.freeforall || !item.isBlocked then l.incUnlooted else l
  if LootRules.countsPerPlayer rules then l'
  else l'.modifyAt (.questItem i) fun item => { item with isBlocked := true }

/-- The loop body of `FillQuestLoot`. The loop ends with the record that reaches
the client's limit of items. -/
def fillQuestTurn (rules : Option LootRules) (p : FillPlayer) (s : Loot × List QuestItem)
    (i : Nat) : Loot × List QuestItem :=
  if s.1.items.length + s.2.length = maxNrLootItems then s
  else match s.1.questItems[i]? with
    | none => s
    | some item =>
      if isFor rules p item then
        (s.1.countQuest rules i item, s.2 ++ [⟨UInt8.ofNat i, false⟩])
      else s

def fillQuestLoot (l : Loot) (rules : Option LootRules) (p : FillPlayer) : Loot :=
  if l.items.length = maxNrLootItems then l
  else
    let s := (List.range l.questItems.length).foldl (fillQuestTurn rules p) (l, [])
    if s.2 = [] then s.1 else s.1.setQuest p.low s.2

attribute [local instance] lawfulBEqUInt32 in
def addAllowedLooter (item : LootItem) (p : FillPlayer) : LootItem :=
  { item with
    allowedGUIDs :=
      if p.low ∈ item.allowedGUIDs then item.allowedGUIDs else p.low :: item.allowedGUIDs }

def allowLooter (l : Loot) (p : FillPlayer) (i : Nat) : Loot :=
  if p.presentAtLooting then l.modifyAt (.item i) fun item => addAllowedLooter item p else l

/-- A conditional entry is counted with its first record. -/
def countConditional (l : Loot) (i : Nat) (item : LootItem) : Loot :=
  if item.isCounted then l
  else l.incUnlooted.modifyAt (.item i) fun item => { item with isCounted := true }

/-- The loop body of `FillNonQuestNonFFAConditionalLoot`. -/
def fillConditionalTurn (rules : Option LootRules) (p : FillPlayer)
    (s : Loot × List QuestItem) (i : Nat) : Loot × List QuestItem :=
  match s.1.items[i]? with
  | none => s
  | some item =>
    if !item.freeforall && isFor rules p item then
      let l := s.1.allowLooter p i
      if item.conditions = [] then (l, s.2)
      else (l.countConditional i item, s.2 ++ [⟨UInt8.ofNat i, false⟩])
    else s

def fillNonQuestNonFFAConditionalLoot (l : Loot) (rules : Option LootRules) (p : FillPlayer) :
    Loot :=
  let s := (List.range l.items.length).foldl (fillConditionalTurn rules p) (l, [])
  if s.2 = [] then s.1 else s.1.setConditional p.low s.2

def getMaxSlotInLootFor (l : Loot) (player : UInt32) : Nat :=
  l.items.length + (l.playerQuestItems player).length

/-- The entry that the currency loop looks at for a slot: beyond the items it is
the quest entry at that position, not the player's record there. -/
def currencyItem (l : Loot) (i : Nat) : Option LootItem :=
  if i < l.items.length then l.items[i]? else l.questItems[i - l.items.length]?

/-- The loop body over the slots: a currency token goes to the player at once. -/
def storeCurrency (store : ItemStore) (p : FillPlayer) (state : Loot × List Delivery) (i : Nat) :
    Loot × List Delivery :=
  match state.1.currencyItem i with
  | none => state
  | some item =>
    let isCurrencyToken := (store item.itemid).any (·.isCurrencyToken)
    if !item.isLooted && item.freeforall && item.allowedForPlayer p.filter && isCurrencyToken then
      let stored := state.1.storeLootItem p.guid (UInt8.ofNat i) p.canStore
      (stored.1, state.2 ++ stored.2.toList)
    else state

/-- The three record fills of `FillNotNormalLootFor`, each once for a player. -/
def fillRecords (l : Loot) (rules : Option LootRules) (p : FillPlayer) : Loot :=
  let l := if l.playerQuestItems p.low = [] then l.fillQuestLoot rules p else l
  let l := if l.playerFFAItems p.low = [] then l.fillFFALoot p else l
  if l.playerNonQuestNonFFAConditionalItems p.low = [] then
    l.fillNonQuestNonFFAConditionalLoot rules p
  else l

def fillNotNormalLootFor (store : ItemStore) (rules : Option LootRules)
    (state : Loot × List Delivery) (p : FillPlayer) : Loot × List Delivery :=
  let l := state.1.fillRecords rules p
  if !p.presentAtLooting then (l, state.2)
  else (List.range (l.getMaxSlotInLootFor p.low)).foldl (storeCurrency store p) (l, state.2)

end Loot

/-- The group of the loot's owner: its rules and its members, each once. -/
structure FillGroup where
  rules : LootRules
  members : List FillPlayer
  nodup : (members.map FillPlayer.low).Nodup

/-- What `FillLoot` is called with, and what the loot template draws. The owner
is a member of his group. -/
structure Filling where
  drops : List (LootStoreItem × UInt32)
  gold : UInt32
  owner : FillPlayer
  group : Option FillGroup
  personal : Bool
  ownerIn : ∀ g ∈ group, owner.low ∈ g.members.map FillPlayer.low

namespace Filling

/-- The players that get records: the group, or the owner alone, who counts as
present. -/
def players (f : Filling) : List FillPlayer :=
  let alone := [{ f.owner with presentAtLooting := true }]
  match f.group with
  | some g => if f.personal then alone else g.members
  | none => alone

def rules (f : Filling) : Option LootRules := f.group.map FillGroup.rules

/-- The loot once the template is processed, before anyone has records. -/
def drawn (f : Filling) (store : ItemStore) : Loot :=
  f.drops.foldl (fun l drop => l.addItem store drop.1 drop.2) { Loot.empty with gold := f.gold }

/-- The loop after the fills that marks entries below the group's threshold. -/
def markThreshold (f : Filling) (store : ItemStore) (l : Loot) : Loot :=
  match f.group with
  | none => l
  | some g =>
    if f.personal then l
    else
      { l with
        items := l.items.map fun item =>
          if (store item.itemid).any (·.quality < g.rules.lootThreshold) then
            { item with isUnderthreshold := true }
          else item }

def fillLoot (f : Filling) (store : ItemStore) : Loot × List Delivery :=
  let filled := f.players.foldl (Loot.fillNotNormalLootFor store f.rules) (f.drawn store, [])
  (f.markThreshold store filled.1, filled.2)

end Filling

end Sky548
