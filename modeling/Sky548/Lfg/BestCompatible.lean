import Mathlib.Data.Char
import Mathlib.Data.List.Lex
import Sky548.Lfg.GuidTexts
import Sky548.Lfg.Match

/-!
# The best compatible group of the queue

`LFGQueue` with what it keeps to tell players how their search stands: the cache of compatibilities with
its keys and roles, and for each queued GUID the text of the largest set it is known to be compatible with.
Both are searched for a GUID by its text. Everything else of the search is as in `LfgSearch` (`plain`).

What is told to the players, and the times they wait, are left out.
-/

namespace Sky548

open OrdMap

structure LfgCompatibilityData where
  compatibility : LfgCompatibility
  roles : LfgRolesMap

structure LfgBestData where
  data : LfgQueueData
  bestCompatible : List Char
  tanks : UInt8
  healers : UInt8
  dps : UInt8

structure LFGBestQueue where
  queueDataStore : OrdMap UInt64 LfgBestData
  compatibleMapStore : OrdMap (List Char) LfgCompatibilityData
  currentQueueStore : List UInt64
  newToQueueStore : List UInt64
  proposals : LfgProposals

def LfgBestData.new (data : LfgQueueData) : LfgBestData where
  data := data
  bestCompatible := []
  tanks := lfgTanksNeeded
  healers := lfgHealersNeeded
  dps := lfgDpsNeeded

/-- How many GUIDs a key names: the separators, and one -/
def keySize (key : List Char) : UInt8 := UInt8.ofNat (key.count '|') + 1

def LfgBestData.fillPlace (entry : LfgBestData) (role : UInt8) : LfgBestData :=
  if role &&& playerRoleTank ≠ 0 then { entry with tanks := entry.tanks - 1 }
  else if role &&& playerRoleHealer ≠ 0 then { entry with healers := entry.healers - 1 }
  else { entry with dps := entry.dps - 1 }

def LfgBestData.updateBestCompatible (entry : LfgBestData) (key : List Char) (roles : LfgRolesMap) :
    LfgBestData :=
  let storedSize : UInt8 := if entry.bestCompatible = [] then 0 else keySize entry.bestCompatible
  if keySize key ≤ storedSize then entry
  else
    roles.toList.foldl (fun entry e => entry.fillPlace e.2) { entry with
      bestCompatible := key
      tanks := lfgTanksNeeded
      healers := lfgHealersNeeded
      dps := lfgDpsNeeded }

/-- `FindBestCompatibleInQueue`: the text of the GUID is looked for in the keys. -/
def LfgBestData.findBestCompatible (store : OrdMap (List Char) LfgCompatibilityData) (guid : UInt64)
    (entry : LfgBestData) : LfgBestData :=
  store.toList.foldl (fun entry e =>
    if e.2.compatibility = .withLessPlayers ∧ guidText guid <:+: e.1 then
      entry.updateBestCompatible e.1 e.2.roles
    else entry) entry

namespace LFGBestQueue

variable (q : LFGBestQueue)

def empty : LFGBestQueue where
  queueDataStore := .empty
  compatibleMapStore := .empty
  currentQueueStore := []
  newToQueueStore := []
  proposals := .empty

/-- The queue without what is kept for telling -/
def plain : LfgSearch where
  queue :=
    { queueDataStore := q.queueDataStore.mapVal fun _ entry => entry.data
      compatibleMapStore := fun key =>
        ((q.compatibleMapStore.find? key).map LfgCompatibilityData.compatibility).getD .pending
      currentQueueStore := q.currentQueueStore
      newToQueueStore := q.newToQueueStore }
  proposals := q.proposals

/-- `SetCompatibles`: the roles that are stored stay. -/
def setCompatibles (check : List UInt64) (compatibles : LfgCompatibility) : LFGBestQueue :=
  let key := concatenateGuids check
  let roles := ((q.compatibleMapStore.find? key).map LfgCompatibilityData.roles).getD .empty
  { q with compatibleMapStore := q.compatibleMapStore.insert key ⟨compatibles, roles⟩ }

def removeFromLists (guid : UInt64) : LFGBestQueue :=
  { q with
    newToQueueStore := LFGQueue.removeAll q.newToQueueStore guid
    currentQueueStore := LFGQueue.removeAll q.currentQueueStore guid }

def removeFromCompatibles (guid : UInt64) : LFGBestQueue :=
  { q with compatibleMapStore := q.compatibleMapStore.filterKeys fun key => !decide (guidText guid <:+: key) }

def removeFromQueue (guid : UInt64) : LFGBestQueue :=
  let q := (q.removeFromLists guid).removeFromCompatibles guid
  { q with
    queueDataStore := (q.queueDataStore.mapVal fun other entry =>
      if other ≠ guid ∧ guidText guid <:+: entry.bestCompatible then
        { entry with bestCompatible := [] }.findBestCompatible q.compatibleMapStore other
      else entry).erase guid }

def addQueueData (guid : UInt64) (data : LfgQueueData) : LFGBestQueue :=
  { q with
    queueDataStore := q.queueDataStore.insert guid (.new data)
    newToQueueStore := q.newToQueueStore ++ [guid] }

def updateBestCompatible (check : List UInt64) (roles : LfgRolesMap) : LFGBestQueue :=
  { q with
    queueDataStore := check.foldl (fun store guid =>
      match store.find? guid with
      | none => store
      | some entry => store.insert guid (entry.updateBestCompatible (concatenateGuids check) roles))
      q.queueDataStore }

/-- `data.roles` of GUIDs that are compatible with less players -/
def compatibleRoles (env : LfgEnv) (check : List UInt64) : LfgRolesMap :=
  match check with
  | [guid] => (q.plain.queue.rolesOf guid).checkGroupRoles.2
  | _ => (q.plain.queue.joinRoles env check).checkGroupRoles.2

/-- GUIDs that are compatible with less players: their best set, and the cache -/
def storeCompatible (env : LfgEnv) (check : List UInt64) : LFGBestQueue :=
  let roles := q.compatibleRoles env check
  let q := q.updateBestCompatible check roles
  { q with compatibleMapStore :=
      q.compatibleMapStore.insert (concatenateGuids check) ⟨.withLessPlayers, roles⟩ }

def createProposal (env : LfgEnv) (check : List UInt64) (c : LFGQueue.Census) (roles : LfgRolesMap)
    (dungeons : LfgDungeonSet) : LFGBestQueue :=
  { check.foldl LFGBestQueue.removeFromLists q with
    proposals := q.proposals.addProposal
      (.ofGroup env (q.proposals.lfgProposalId + 1) check c roles dungeons) rfl }

/-- `CheckCompatibility` after the checks of its size and of all but its first GUID -/
def conclude (env : LfgEnv) (check : List UInt64) : LFGBestQueue × LfgCompatibility :=
  match q.plain.queue.assess env check with
  | .notQueued guid => (q.removeFromQueue guid, .pending)
  | .result .withLessPlayers => (q.storeCompatible env check, .withLessPlayers)
  | .result compatibles => (q.setCompatibles check compatibles, compatibles)
  | .group c roles dungeons =>
    if !env.allQueued check then (q.setCompatibles check .badStates, .badStates)
    else ((q.createProposal env check c roles dungeons).setCompatibles check .isMatch, .isMatch)

def checkCompatibility (env : LfgEnv) : List UInt64 → LFGBestQueue → LFGBestQueue × LfgCompatibility
  | [], q => (q, .wrongGroupSize)
  | front :: rest, q =>
    if rest.length + 1 > maxGroupSize then (q, .wrongGroupSize)
    else if rest.length + 1 > 2 then
      let child := checkCompatibility env rest q
      if child.2.isIncompatible then (child.1.setCompatibles (front :: rest) child.2, child.2)
      else child.1.conclude env (front :: rest)
    else q.conclude env (front :: rest)

/-- The beginning of `FindNewGroups` -/
def compatibility (env : LfgEnv) (check : List UInt64) : LFGBestQueue × LfgCompatibility :=
  let cached := q.plain.queue.getCompatibles (concatenateGuids check)
  let known := if cached = .pending then checkCompatibility env check q else (q, cached)
  if known.2 = .badStates && env.allQueued check then (known.1.setCompatibles check .isMatch, .isMatch)
  else known

/-- The loop of `FindNewGroups` -/
def matchQueued (env : LfgEnv) : (check all : List UInt64) → LFGBestQueue →
    LFGBestQueue × LfgCompatibility
  | _, [], q => (q, .withLessPlayers)
  | check, next :: all, q =>
    let sub := q.compatibility env (check ++ [next])
    if sub.2 = .isMatch then sub
    else if sub.2 = .withLessPlayers then matchQueued env (check ++ [next]) all sub.1
    else matchQueued env check all sub.1

def findNewGroups (env : LfgEnv) (check all : List UInt64) : LFGBestQueue × LfgCompatibility :=
  let known := q.compatibility env check
  if known.2 = .withLessPlayers then known.1.matchQueued env check all else known

def findGroup (env : LfgEnv) (frontguid : UInt64) : LFGBestQueue × LfgCompatibility :=
  let q := { q with newToQueueStore := LFGQueue.removeAll q.newToQueueStore frontguid }
  let found := q.findNewGroups env [frontguid] q.currentQueueStore
  if found.2 = .isMatch then found
  else ({ found.1 with currentQueueStore := found.1.currentQueueStore ++ [frontguid] }, found.2)

def findGroupsLoop (env : LfgEnv) : Nat → LFGBestQueue × UInt8 → LFGBestQueue × UInt8
  | 0, q => q
  | n + 1, q =>
    match q.1.newToQueueStore with
    | [] => q
    | frontguid :: _ =>
      let found := q.1.findGroup env frontguid
      findGroupsLoop env n (found.1, if found.2 = .isMatch then q.2 + 1 else q.2)

def findGroups (env : LfgEnv) : LFGBestQueue × UInt8 :=
  findGroupsLoop env q.newToQueueStore.length (q, 0)

def updateQueueTimers : LFGBestQueue :=
  { q with queueDataStore := q.queueDataStore.mapVal fun guid entry =>
      if entry.bestCompatible = [] then entry.findBestCompatible q.compatibleMapStore guid else entry }

inductive Input
  | addQueueData (guid : UInt64) (data : LfgQueueData)
  | findGroups (env : LfgEnv)
  | removeFromQueue (guid : UInt64)
  | updateQueueTimers

def step : Input → LFGBestQueue
  | .addQueueData guid data => q.addQueueData guid data
  | .findGroups env => (q.findGroups env).1
  | .removeFromQueue guid => q.removeFromQueue guid
  | .updateQueueTimers => q.updateQueueTimers

/-! ## The search is the same -/

variable {q} {env : LfgEnv}

theorem plain_insert (check : List UInt64) (data : LfgCompatibilityData) :
    { q with compatibleMapStore :=
        q.compatibleMapStore.insert (concatenateGuids check) data }.plain =
      q.plain.setCompatibles check data.compatibility := by
  have cache : (fun key => (((q.compatibleMapStore.insert (concatenateGuids check) data).find? key).map
      LfgCompatibilityData.compatibility).getD .pending) = fun key =>
        if key = concatenateGuids check then data.compatibility
        else ((q.compatibleMapStore.find? key).map LfgCompatibilityData.compatibility).getD .pending := by
    funext key
    rw [find?_insert]
    split
    · rfl
    · rfl
  unfold plain LfgSearch.setCompatibles LFGQueue.setCompatibles
  simp only [cache]

theorem plain_setCompatibles (check : List UInt64) (compatibles : LfgCompatibility) :
    (q.setCompatibles check compatibles).plain = q.plain.setCompatibles check compatibles :=
  plain_insert check _

theorem mapVal_insert_self {store : OrdMap UInt64 LfgBestData} {guid : UInt64} {entry entry' : LfgBestData}
    (found : store.find? guid = some entry) (same : entry'.data = entry.data) :
    (store.insert guid entry').mapVal (fun _ entry => entry.data) =
      store.mapVal fun _ entry => entry.data := by
  apply ext_mem
  rintro ⟨other, data⟩
  rw [mem_mapVal, mem_mapVal]
  simp only [mem_insert, Prod.mk.injEq]
  have member := find?_eq_some_iff.mp found
  constructor
  · rintro ⟨old, ⟨rfl, rfl⟩ | ⟨isOld, -⟩, rfl⟩
    · exact ⟨entry, member, same.symm⟩
    · exact ⟨old, isOld, rfl⟩
  rintro ⟨old, isOld, rfl⟩
  by_cases isGuid : other = guid
  · subst isGuid
    obtain rfl : old = entry := congrArg Prod.snd (eq_of_key_eq isOld member rfl)
    exact ⟨entry', Or.inl ⟨rfl, rfl⟩, same⟩
  · exact ⟨old, Or.inr ⟨isOld, isGuid⟩, rfl⟩

theorem filled_fillPlaces (l : List (UInt64 × UInt8)) (entry : LfgBestData) :
    (l.foldl (fun entry e => entry.fillPlace e.2) entry).data = entry.data ∧
      (l.foldl (fun entry e => entry.fillPlace e.2) entry).bestCompatible = entry.bestCompatible := by
  refine List.foldlRecOn (motive := fun filled : LfgBestData => filled.data = _ ∧ filled.bestCompatible = _)
    l _ ⟨rfl, rfl⟩ fun filled same e _ => ?_
  unfold LfgBestData.fillPlace
  split
  · exact same
  · split <;> exact same

theorem data_updateBestCompatible (entry : LfgBestData) (key : List Char) (roles : LfgRolesMap) :
    (entry.updateBestCompatible key roles).data = entry.data := by
  unfold LfgBestData.updateBestCompatible
  simp only
  generalize (if entry.bestCompatible = [] then 0 else keySize entry.bestCompatible) = storedSize
  split
  · rfl
  · exact (filled_fillPlaces _ _).1

theorem data_findBestCompatible (store : OrdMap (List Char) LfgCompatibilityData) (guid : UInt64)
    (entry : LfgBestData) : (entry.findBestCompatible store guid).data = entry.data := by
  refine List.foldlRecOn (motive := fun found : LfgBestData => found.data = entry.data) store.toList _ rfl
    fun found same e _ => ?_
  split
  · exact (data_updateBestCompatible found _ _).trans same
  · exact same

theorem plain_updateBestCompatible (check : List UInt64) (roles : LfgRolesMap) :
    (q.updateBestCompatible check roles).plain = q.plain := by
  have general : ∀ (l : List UInt64) (store : OrdMap UInt64 LfgBestData),
      (l.foldl (fun store guid =>
        match store.find? guid with
        | none => store
        | some entry => store.insert guid (entry.updateBestCompatible (concatenateGuids check) roles))
          store).mapVal (fun _ entry => entry.data) = store.mapVal fun _ entry => entry.data := by
    intro l
    induction l with
    | nil => exact fun _ => rfl
    | cons guid rest ih =>
      intro store
      rw [List.foldl_cons, ih]
      split
      · rfl
      · rename_i entry found
        exact mapVal_insert_self found (data_updateBestCompatible entry _ _)
  unfold plain updateBestCompatible
  simp only [general]

theorem plain_removeFromQueue (guid : UInt64) : (q.removeFromQueue guid).plain =
    { q.plain with queue := q.plain.queue.removeFromQueue guid } := by
  have data : (q.removeFromQueue guid).queueDataStore.mapVal (fun _ entry => entry.data) =
      (q.queueDataStore.mapVal fun _ entry => entry.data).erase guid := by
    apply ext_mem
    rintro ⟨other, data⟩
    rw [mem_mapVal, mem_erase, mem_mapVal]
    simp only [removeFromQueue, mem_erase, mem_mapVal]
    constructor
    · rintro ⟨_, ⟨⟨entry, member, rfl⟩, apart⟩, rfl⟩
      refine ⟨⟨entry, member, ?_⟩, apart⟩
      split
      · rw [data_findBestCompatible]
      · rfl
    · rintro ⟨⟨entry, member, rfl⟩, apart⟩
      refine ⟨_, ⟨⟨entry, member, rfl⟩, apart⟩, ?_⟩
      split
      · rw [data_findBestCompatible]
      · rfl
  have cache : (fun key => (((q.compatibleMapStore.filterKeys fun key =>
      !decide (guidText guid <:+: key)).find? key).map LfgCompatibilityData.compatibility).getD .pending) =
        (q.plain.queue.removeFromQueue guid).compatibleMapStore := by
    funext key
    rw [find?_filterKeys]
    by_cases found : guidText guid <:+: key
    · have gone : (q.plain.queue.removeFromQueue guid).compatibleMapStore key = .pending := if_pos found
      rw [gone, if_neg (by simpa using found)]
      rfl
    have kept : (q.plain.queue.removeFromQueue guid).compatibleMapStore key =
        q.plain.queue.getCompatibles key := if_neg found
    rw [kept, if_pos (by simpa using found)]
    rfl
  unfold plain
  rw [data]
  simp only [removeFromQueue, removeFromCompatibles, removeFromLists, cache]
  rfl

theorem plain_removeFromLists (check : List UInt64) : ∀ q : LFGBestQueue,
    (check.foldl LFGBestQueue.removeFromLists q).plain = { q.plain with
      queue := check.foldl (fun q guid => (q.removeFromNewQueue guid).removeFromCurrentQueue guid)
        q.plain.queue } := by
  induction check with
  | nil => exact fun _ => rfl
  | cons guid rest ih => exact fun q => ih _

theorem plain_createProposal (check : List UInt64) (c : LFGQueue.Census) (roles : LfgRolesMap)
    (dungeons : LfgDungeonSet) : (q.createProposal env check c roles dungeons).plain =
      q.plain.createProposal env check c roles dungeons := by
  have lists : (check.foldl LFGBestQueue.removeFromLists q).plain.queue =
      check.foldl (fun q guid => (q.removeFromNewQueue guid).removeFromCurrentQueue guid) q.plain.queue :=
    congrArg LfgSearch.queue (plain_removeFromLists check q)
  have isPlain : (q.createProposal env check c roles dungeons).plain =
      ⟨(check.foldl LFGBestQueue.removeFromLists q).plain.queue, q.proposals.addProposal
        (.ofGroup env (q.proposals.lfgProposalId + 1) check c roles dungeons) rfl⟩ := rfl
  rw [isPlain, lists]
  rfl

theorem plain_conclude (check : List UInt64) :
    ((q.conclude env check).1.plain, (q.conclude env check).2) = q.plain.conclude env check := by
  unfold conclude LfgSearch.conclude
  split
  · rename_i guid isVerdict
    simp only [isVerdict, plain_removeFromQueue]
  · rename_i isVerdict
    simp only [isVerdict]
    rw [storeCompatible, plain_insert, plain_updateBestCompatible]
  · rename_i compatibles _ isVerdict
    simp only [isVerdict, plain_setCompatibles]
  · rename_i c roles dungeons isVerdict
    simp only [isVerdict]
    split
    · rw [plain_setCompatibles]
    · rw [plain_setCompatibles, plain_createProposal]

theorem plain_checkCompatibility (check : List UInt64) : ∀ q : LFGBestQueue,
    ((checkCompatibility env check q).1.plain, (checkCompatibility env check q).2) =
      q.plain.checkCompatibility env check := by
  induction check with
  | nil => exact fun _ => rfl
  | cons front rest ih =>
    intro q
    unfold checkCompatibility LfgSearch.checkCompatibility
    split
    · rfl
    split
    · simp only [← ih q]
      split
      · rw [plain_setCompatibles]
      · exact plain_conclude _
    · exact plain_conclude _

theorem plain_compatibility (check : List UInt64) (q : LFGBestQueue) :
    ((q.compatibility env check).1.plain, (q.compatibility env check).2) =
      q.plain.compatibility env check := by
  have known : ∀ found : LFGBestQueue × LfgCompatibility,
      let result := if found.2 = .badStates && env.allQueued check then
          (found.1.setCompatibles check .isMatch, LfgCompatibility.isMatch)
        else found
      (result.1.plain, result.2) = if found.2 = .badStates && env.allQueued check then
          (found.1.plain.setCompatibles check .isMatch, LfgCompatibility.isMatch)
        else (found.1.plain, found.2) := by
    intro found
    simp only
    split
    · rw [plain_setCompatibles]
    · rfl
  unfold compatibility LfgSearch.compatibility
  simp only
  split
  · rw [← plain_checkCompatibility check q]
    exact known _
  · exact known _

theorem plain_matchQueued (all : List UInt64) : ∀ (check : List UInt64) (q : LFGBestQueue),
    ((q.matchQueued env check all).1.plain, (q.matchQueued env check all).2) =
      q.plain.matchQueued env check all := by
  induction all with
  | nil => exact fun _ _ => rfl
  | cons next rest ih =>
    intro check q
    unfold matchQueued LfgSearch.matchQueued
    simp only [← plain_compatibility (check ++ [next]) q]
    split
    · rfl
    · split
      · exact ih _ _
      · exact ih _ _

theorem plain_findNewGroups (check all : List UInt64) (q : LFGBestQueue) :
    ((q.findNewGroups env check all).1.plain, (q.findNewGroups env check all).2) =
      q.plain.findNewGroups env check all := by
  unfold findNewGroups LfgSearch.findNewGroups
  simp only [← plain_compatibility check q]
  split
  · exact plain_matchQueued _ _ _
  · rfl

theorem plain_findGroup (frontguid : UInt64) (q : LFGBestQueue) :
    ((q.findGroup env frontguid).1.plain, (q.findGroup env frontguid).2) =
      q.plain.findGroup env frontguid := by
  let q' : LFGBestQueue :=
    { q with newToQueueStore := LFGQueue.removeAll q.newToQueueStore frontguid }
  have found : _ = q'.plain.findNewGroups env [frontguid] q.currentQueueStore :=
    plain_findNewGroups [frontguid] q.currentQueueStore q'
  have isSearch : q.plain.findGroup env frontguid =
      if (q'.plain.findNewGroups env [frontguid] q.currentQueueStore).2 = .isMatch then
        q'.plain.findNewGroups env [frontguid] q.currentQueueStore
      else ({ (q'.plain.findNewGroups env [frontguid] q.currentQueueStore).1 with
          queue := (q'.plain.findNewGroups env [frontguid] q.currentQueueStore).1.queue.addToCurrentQueue
            frontguid },
        (q'.plain.findNewGroups env [frontguid] q.currentQueueStore).2) := rfl
  rw [isSearch, ← found]
  unfold findGroup
  simp only
  split
  · rfl
  · rfl

theorem plain_findGroupsLoop (n : Nat) : ∀ q : LFGBestQueue × UInt8,
    ((findGroupsLoop env n q).1.plain, (findGroupsLoop env n q).2) =
      LfgSearch.findGroupsLoop env n (q.1.plain, q.2) := by
  induction n with
  | zero => exact fun _ => rfl
  | succ n ih =>
    intro q
    have sameList : q.1.plain.queue.newToQueueStore = q.1.newToQueueStore := rfl
    unfold findGroupsLoop LfgSearch.findGroupsLoop
    simp only [sameList]
    cases q.1.newToQueueStore with
    | nil => rfl
    | cons frontguid rest =>
      simp only
      rw [ih, ← plain_findGroup frontguid q.1]

theorem plain_findGroups (q : LFGBestQueue) :
    ((q.findGroups env).1.plain, (q.findGroups env).2) = q.plain.findGroups env :=
  plain_findGroupsLoop _ (q, 0)

end LFGBestQueue

end Sky548
