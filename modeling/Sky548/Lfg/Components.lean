import Sky548.Lfg.BestCompatible
import Sky548.Machine

/-!
# Components of keys

Keys and best compatible sets are to speak of the GUIDs that are their components. The code looks for the
text of a GUID anywhere in a key, and so it finds 1 in a key about 12 as well. Where each text that is
looked for is found as a component only (`Sound`), the best set of a GUID names it and others that are
queued (`Right`), and a GUID that leaves takes its keys with it and no others (`RemovesKeys`).
-/

namespace Sky548

open List OrdMap

namespace LFGBestQueue

variable {q q' : LFGBestQueue} {guid : UInt64} {check : List UInt64} {env : LfgEnv}

def components (key : List Char) : List (List Char) := key.splitOn '|'

theorem components_concatenateGuids (some : check ≠ []) :
    components (concatenateGuids check) = wordsOf check :=
  splitOn_intercalate '|' (bar_not_mem_wordsOf check) (wordsOf_ne_nil some)

theorem infix_of_component {key : List Char} (isComponent : guidText guid ∈ components key) :
    guidText guid <:+: key := by
  have isKey : ['|'].intercalate (key.splitOn '|') = key := intercalate_splitOn '|'
  rw [← isKey, Words.infix_intercalate_iff (bar_not_mem_guidText guid) (guidText_ne_nil guid)]
  exact ⟨guidText guid, isComponent, infix_rfl⟩

def Present (q : LFGBestQueue) (guid : UInt64) : Prop := (q.queueDataStore.find? guid).isSome

/-- The components are GUIDs that have queue data. -/
def Named (q : LFGBestQueue) (key : List Char) : Prop :=
  ∀ word ∈ components key, ∃ guid, word = guidText guid ∧ q.Present guid

/-- **Best sets are right**: they name the GUID itself and others that are queued. -/
def Right (q : LFGBestQueue) : Prop :=
  ∀ e ∈ q.queueDataStore, e.2.bestCompatible ≠ [] →
    guidText e.1 ∈ components e.2.bestCompatible ∧ q.Named e.2.bestCompatible

structure Sane (q : LFGBestQueue) : Prop where
  right : Right q
  named : ∀ e ∈ q.compatibleMapStore, e.2.compatibility = .withLessPlayers → q.Named e.1
  listed : ∀ guid ∈ q.newToQueueStore ++ q.currentQueueStore, q.Present guid

theorem Named.mono {key : List Char} (named : q.Named key) (more : ∀ guid, q.Present guid → q'.Present guid) :
    q'.Named key := by
  intro word isComponent
  obtain ⟨guid, isWord, isPresent⟩ := named word isComponent
  exact ⟨guid, isWord, more guid isPresent⟩

theorem named_concatenateGuids (some : check ≠ []) (areThere : ∀ guid ∈ check, q.Present guid) :
    q.Named (concatenateGuids check) := by
  intro word isComponent
  rw [components_concatenateGuids some] at isComponent
  obtain ⟨guid, isKey, rfl⟩ := List.mem_map.mp isComponent
  exact ⟨guid, rfl, areThere guid (mem_guidSet.mp isKey)⟩

/-! ## The search -/

/-- A search keeps the queue sane, and the queue data where they are. -/
structure Kept (q q' : LFGBestQueue) : Prop where
  sane : Sane q'
  present : ∀ guid, q'.Present guid ↔ q.Present guid

theorem Kept.trans {q'' : LFGBestQueue} (first : Kept q q') (second : Kept q' q'') : Kept q q'' :=
  ⟨second.sane, fun guid => (second.present guid).trans (first.present guid)⟩

theorem kept_insert (sane : Sane q) (key : List Char) {data : LfgCompatibilityData}
    (notLess : data.compatibility = .withLessPlayers → q.Named key) :
    Kept q { q with compatibleMapStore := q.compatibleMapStore.insert key data } := by
  refine ⟨⟨sane.right, ?_, sane.listed⟩, fun _ => Iff.rfl⟩
  intro e member isLess
  rcases mem_insert.mp member with rfl | ⟨isOld, -⟩
  · exact notLess isLess
  · exact sane.named e isOld isLess

theorem kept_setCompatibles (sane : Sane q) (check : List UInt64) {compatibles : LfgCompatibility}
    (notLess : compatibles ≠ .withLessPlayers) : Kept q (q.setCompatibles check compatibles) :=
  kept_insert sane _ fun isLess => absurd isLess notLess

theorem bestCompatible_updateBestCompatible (entry : LfgBestData) (key : List Char) (roles : LfgRolesMap) :
    (entry.updateBestCompatible key roles).bestCompatible = entry.bestCompatible ∨
      (entry.updateBestCompatible key roles).bestCompatible = key := by
  unfold LfgBestData.updateBestCompatible
  simp only
  generalize (if entry.bestCompatible = [] then 0 else keySize entry.bestCompatible) = storedSize
  split
  · exact Or.inl rfl
  · exact Or.inr (filled_fillPlaces _ _).2

theorem bestCompatible_findBestCompatible (store : OrdMap (List Char) LfgCompatibilityData) (guid : UInt64)
    (entry : LfgBestData) :
    (entry.findBestCompatible store guid).bestCompatible = entry.bestCompatible ∨
      ∃ e ∈ store, e.2.compatibility = .withLessPlayers ∧ guidText guid <:+: e.1 ∧
        (entry.findBestCompatible store guid).bestCompatible = e.1 := by
  have general : ∀ (l : List (List Char × LfgCompatibilityData)) (entry : LfgBestData),
      let found := l.foldl (fun entry e =>
        if e.2.compatibility = .withLessPlayers ∧ guidText guid <:+: e.1 then
          entry.updateBestCompatible e.1 e.2.roles
        else entry) entry
      found.bestCompatible = entry.bestCompatible ∨
        ∃ e ∈ l, e.2.compatibility = .withLessPlayers ∧ guidText guid <:+: e.1 ∧
          found.bestCompatible = e.1 := by
    refine fun l entry => foldlRecOn (motive := fun found : LfgBestData => found.bestCompatible = _ ∨
      ∃ e ∈ l, e.2.compatibility = .withLessPlayers ∧ guidText guid <:+: e.1 ∧ found.bestCompatible = e.1) l _
      (Or.inl rfl) fun found earlier e member => ?_
    split
    · rename_i isFound
      rcases bestCompatible_updateBestCompatible found e.1 e.2.roles with old | new
      · rw [old]
        exact earlier
      · exact Or.inr ⟨e, member, isFound.1, isFound.2, new⟩
    · exact earlier
  exact general store.toList entry

theorem kept_updateBestCompatible (sane : Sane q) (some : check ≠ [])
    (areThere : ∀ guid ∈ check, q.Present guid) (roles : LfgRolesMap) :
    Kept q (q.updateBestCompatible check roles) := by
  obtain ⟨turn, isFold, absent, present⟩ : ∃ turn : OrdMap UInt64 LfgBestData → UInt64 →
      OrdMap UInt64 LfgBestData,
      (q.updateBestCompatible check roles).queueDataStore = check.foldl turn q.queueDataStore ∧
      (∀ store guid, store.find? guid = none → turn store guid = store) ∧
      ∀ store guid entry, store.find? guid = Option.some entry → turn store guid =
        store.insert guid (entry.updateBestCompatible (concatenateGuids check) roles) := by
    refine ⟨_, rfl, fun store guid none => ?_, fun store guid entry found => ?_⟩
    · simp only [none]
    · simp only [found]
  have general : ∀ (l : List UInt64), (∀ guid ∈ l, guid ∈ check) → ∀ store : OrdMap UInt64 LfgBestData,
      (∀ guid, ((l.foldl turn store).find? guid).isSome = (store.find? guid).isSome) ∧
      ∀ e ∈ l.foldl turn store, (∃ d ∈ store, d.1 = e.1 ∧ d.2.bestCompatible = e.2.bestCompatible) ∨
        (e.1 ∈ check ∧ e.2.bestCompatible = concatenateGuids check) := by
    intro l
    induction l with
    | nil => exact fun _ store => ⟨fun _ => rfl, fun e member => Or.inl ⟨e, member, rfl, rfl⟩⟩
    | cons guid rest ih =>
      intro inCheck store
      have later := ih (fun other member => inCheck other (mem_cons_of_mem guid member)) (turn store guid)
      rw [foldl_cons]
      cases found : store.find? guid with
      | none =>
        rw [absent store guid found] at later ⊢
        exact later
      | some entry =>
        rw [present store guid entry found] at later ⊢
        refine ⟨fun other => ?_, fun e member => ?_⟩
        · rw [later.1 other, find?_insert]
          split
          · rename_i isGuid
            rw [isGuid, found]
            rfl
          · rfl
        · rcases later.2 e member with ⟨d, inTurn, sameGuid, sameBest⟩ | isChecked
          · rcases mem_insert.mp inTurn with isNew | ⟨isOld, -⟩
            · rw [isNew] at sameGuid sameBest
              rcases bestCompatible_updateBestCompatible entry (concatenateGuids check) roles with
                old | new
              · left
                exact ⟨(guid, entry), find?_eq_some_iff.mp found, sameGuid, old.symm.trans sameBest⟩
              · right
                rw [← sameGuid, ← sameBest]
                exact ⟨inCheck guid mem_cons_self, new⟩
            · exact Or.inl ⟨d, isOld, sameGuid, sameBest⟩
          · exact Or.inr isChecked
  obtain ⟨stillThere, entries⟩ := general check (fun _ member => member) q.queueDataStore
  rw [← isFold] at entries stillThere
  have samePresent : ∀ guid, (q.updateBestCompatible check roles).Present guid ↔ q.Present guid := by
    intro guid
    rw [Present, Present]
    exact Eq.to_iff (congrArg (· = true) (stillThere guid))
  refine ⟨⟨?_, ?_, ?_⟩, samePresent⟩
  · intro e member hasBest
    rcases entries e member with ⟨d, isOld, sameGuid, sameBest⟩ | ⟨inCheck, isBest⟩
    · rw [← sameBest] at hasBest ⊢
      obtain ⟨isComponent, named⟩ := sane.right d isOld hasBest
      rw [← sameGuid]
      exact ⟨isComponent, named.mono fun guid => (samePresent guid).mpr⟩
    · rw [isBest, components_concatenateGuids some]
      exact ⟨mem_wordsOf.mpr inCheck,
        (named_concatenateGuids some areThere).mono fun guid => (samePresent guid).mpr⟩
  · intro e member isLess
    exact (sane.named e member isLess).mono fun guid => (samePresent guid).mpr
  · intro guid member
    exact (samePresent guid).mpr (sane.listed guid member)

theorem kept_storeCompatible (sane : Sane q) (some : check ≠ []) (areThere : ∀ guid ∈ check, q.Present guid) :
    Kept q (q.storeCompatible env check) := by
  have updated := kept_updateBestCompatible sane some areThere (q.compatibleRoles env check)
  refine updated.trans (kept_insert updated.sane _ fun _ => ?_)
  exact named_concatenateGuids some fun guid member => (updated.present guid).mpr (areThere guid member)

theorem kept_of_lists (sane : Sane q) (store : q'.queueDataStore = q.queueDataStore)
    (cache : q'.compatibleMapStore = q.compatibleMapStore)
    (lists : ∀ guid ∈ q'.newToQueueStore ++ q'.currentQueueStore, q.Present guid) : Kept q q' := by
  have present : ∀ guid, q'.Present guid ↔ q.Present guid := by
    intro guid
    rw [Present, Present, store]
  refine ⟨⟨?_, ?_, fun guid member => (present guid).mpr (lists guid member)⟩, present⟩
  · intro e member hasBest
    rw [store] at member
    obtain ⟨isComponent, named⟩ := sane.right e member hasBest
    exact ⟨isComponent, named.mono fun guid => (present guid).mpr⟩
  · intro e member isLess
    rw [cache] at member
    exact (sane.named e member isLess).mono fun guid => (present guid).mpr

theorem mem_removeFromLists (check : List UInt64) {q : LFGBestQueue} {guid : UInt64} :
    guid ∈ (check.foldl removeFromLists q).newToQueueStore ++
      (check.foldl removeFromLists q).currentQueueStore →
    guid ∈ q.newToQueueStore ++ q.currentQueueStore := by
  refine foldlRecOn (motive := fun r : LFGBestQueue => guid ∈ r.newToQueueStore ++ r.currentQueueStore → _)
    check _ id fun r within first _ member => within ?_
  rcases List.mem_append.mp member with inNew | inCurrent
  · exact mem_append_left _ (List.mem_filter.mp inNew).1
  · exact mem_append_right _ (List.mem_filter.mp inCurrent).1

theorem stores_removeFromLists (check : List UInt64) (q : LFGBestQueue) :
    (check.foldl removeFromLists q).queueDataStore = q.queueDataStore ∧
      (check.foldl removeFromLists q).compatibleMapStore = q.compatibleMapStore :=
  foldlRecOn (motive := fun r : LFGBestQueue => r.queueDataStore = _ ∧ r.compatibleMapStore = _)
    check _ ⟨rfl, rfl⟩ fun _ same _ _ => same

theorem kept_conclude (sane : Sane q) (some : check ≠ []) (areThere : ∀ guid ∈ check, q.Present guid) :
    Kept q (q.conclude env check).1 := by
  unfold conclude
  split
  · rename_i guid notQueued
    obtain ⟨member, absent⟩ := LFGQueue.census_of_assess notQueued
    have isThere := areThere guid member
    have isPlain : q.plain.queue.queueDataStore = q.queueDataStore.mapVal fun _ entry => entry.data := rfl
    rw [isPlain, find?_mapVal, Option.map_eq_none_iff] at absent
    rw [Present, absent] at isThere
    cases isThere
  · exact kept_storeCompatible sane some areThere
  · rename_i compatibles notLess isVerdict
    exact kept_setCompatibles sane check notLess
  · rename_i c roles dungeons isVerdict
    split
    · exact kept_setCompatibles sane check nofun
    have created : Kept q (q.createProposal env check c roles dungeons) := by
      obtain ⟨store, cache⟩ := stores_removeFromLists check q
      apply kept_of_lists sane
      · exact store
      · exact cache
      · exact fun guid member => sane.listed guid (mem_removeFromLists check member)
    exact created.trans (kept_setCompatibles created.sane check nofun)

theorem kept_checkCompatibility (check : List UInt64) : ∀ {q : LFGBestQueue}, Sane q →
    (∀ guid ∈ check, q.Present guid) → Kept q (checkCompatibility env check q).1 := by
  induction check with
  | nil => exact fun sane _ => ⟨sane, fun _ => Iff.rfl⟩
  | cons front rest ih =>
    intro q sane areThere
    unfold checkCompatibility
    split
    · exact ⟨sane, fun _ => Iff.rfl⟩
    split
    · have child := ih sane fun guid member => areThere guid (mem_cons_of_mem front member)
      simp only
      split
      · rename_i isUnfit
        refine child.trans (kept_setCompatibles child.sane _ fun isLess => ?_)
        rw [isLess] at isUnfit
        cases isUnfit
      · refine child.trans (kept_conclude child.sane (cons_ne_nil _ _) fun guid member => ?_)
        exact (child.present guid).mpr (areThere guid member)
    · exact kept_conclude sane (cons_ne_nil _ _) areThere

variable (env) in
theorem kept_compatibility (sane : Sane q) (areThere : ∀ guid ∈ check, q.Present guid) :
    Kept q (q.compatibility env check).1 := by
  have known : ∀ found : LFGBestQueue × LfgCompatibility, Kept q found.1 →
      Kept q (if found.2 = .badStates && env.allQueued check then
        (found.1.setCompatibles check .isMatch, LfgCompatibility.isMatch) else found).1 := by
    intro found kept
    split
    · exact kept.trans (kept_setCompatibles kept.sane check nofun)
    · exact kept
  unfold compatibility
  simp only
  split
  · exact known _ (kept_checkCompatibility check sane areThere)
  · exact known _ ⟨sane, fun _ => Iff.rfl⟩

theorem kept_matchQueued (all : List UInt64) : ∀ {check : List UInt64} {q : LFGBestQueue}, Sane q →
    (∀ guid ∈ check ++ all, q.Present guid) → Kept q (q.matchQueued env check all).1 := by
  induction all with
  | nil => exact fun sane _ => ⟨sane, fun _ => Iff.rfl⟩
  | cons next rest ih =>
    intro check q sane areThere
    have sub := kept_compatibility env sane fun guid (member : guid ∈ check ++ [next]) => by
      apply areThere
      rcases List.mem_append.mp member with inCheck | isNext
      · exact mem_append_left _ inCheck
      · rw [List.mem_singleton.mp isNext]
        exact mem_append_right _ mem_cons_self
    unfold matchQueued
    simp only
    split
    · exact sub
    split
    · refine sub.trans (ih sub.sane fun guid member => (sub.present guid).mpr (areThere guid ?_))
      rwa [append_assoc] at member
    refine sub.trans (ih sub.sane fun guid member => (sub.present guid).mpr (areThere guid ?_))
    rcases List.mem_append.mp member with inCheck | later
    · exact mem_append_left _ inCheck
    · exact mem_append_right _ (mem_cons_of_mem next later)

theorem kept_findGroup (sane : Sane q) {frontguid : UInt64} (isNew : frontguid ∈ q.newToQueueStore) :
    Kept q (q.findGroup env frontguid).1 := by
  have isThere := sane.listed frontguid (mem_append_left _ isNew)
  have taken : Kept q { q with newToQueueStore := LFGQueue.removeAll q.newToQueueStore frontguid } := by
    refine kept_of_lists sane rfl rfl fun guid member => ?_
    apply sane.listed
    rcases List.mem_append.mp member with inNew | inCurrent
    · exact mem_append_left _ (List.mem_filter.mp inNew).1
    · exact mem_append_right _ inCurrent
  have found : Kept q (findNewGroups
      { q with newToQueueStore := LFGQueue.removeAll q.newToQueueStore frontguid } env [frontguid]
        q.currentQueueStore).1 := by
    have known := kept_compatibility env taken.sane fun guid (member : guid ∈ [frontguid]) => by
      rw [List.mem_singleton.mp member]
      exact isThere
    unfold findNewGroups
    simp only
    split
    · refine taken.trans (known.trans (kept_matchQueued _ known.sane fun guid member => ?_))
      apply (known.present guid).mpr
      rcases List.mem_append.mp member with isFront | inCurrent
      · rw [List.mem_singleton.mp isFront]
        exact isThere
      · exact sane.listed guid (mem_append_right _ inCurrent)
    · exact taken.trans known
  unfold findGroup
  simp only
  split
  · exact found
  refine found.trans (kept_of_lists found.sane rfl rfl fun guid member => ?_)
  rcases List.mem_append.mp member with inNew | inCurrent
  · exact found.sane.listed guid (mem_append_left _ inNew)
  · rcases List.mem_append.mp inCurrent with old | isFront
    · exact found.sane.listed guid (mem_append_right _ old)
    · rw [List.mem_singleton.mp isFront]
      exact (found.present frontguid).mpr isThere

theorem sane_findGroupsLoop (n : Nat) : ∀ {q : LFGBestQueue × UInt8}, Sane q.1 →
    Sane (findGroupsLoop env n q).1 := by
  induction n with
  | zero => exact fun sane => sane
  | succ n ih =>
    intro q sane
    unfold findGroupsLoop
    split
    · exact sane
    rename_i frontguid rest isList
    apply ih
    apply (kept_findGroup sane _).sane
    rw [isList]
    exact mem_cons_self

/-- Where the text of the GUID is found in a key about less players, it is a component. -/
def Exact (store : OrdMap (List Char) LfgCompatibilityData) (guid : UInt64) : Prop :=
  ∀ e ∈ store.toList, e.2.compatibility = .withLessPlayers → guidText guid <:+: e.1 →
    guidText guid ∈ components e.1

/-- What a step has to meet: each text it looks for in a key is found as a component only. -/
def Sound (q : LFGBestQueue) : Input → Prop
  | .removeFromQueue guid =>
    (∀ e ∈ q.compatibleMapStore.toList, guidText guid <:+: e.1 → guidText guid ∈ components e.1) ∧
      ∀ e ∈ q.queueDataStore.toList, e.1 ≠ guid → guidText guid <:+: e.2.bestCompatible →
        Exact (q.removeFromQueue guid).compatibleMapStore e.1
  | .updateQueueTimers =>
    ∀ e ∈ q.queueDataStore.toList, e.2.bestCompatible = [] → Exact q.compatibleMapStore e.1
  | _ => True

/-- **Who leaves takes his keys with him**, and no others. -/
def RemovesKeys (q : LFGBestQueue) : Input → Prop
  | .removeFromQueue guid =>
    (∀ e ∈ (q.removeFromQueue guid).compatibleMapStore, guidText guid ∉ components e.1) ∧
      ∀ e ∈ q.compatibleMapStore, guidText guid ∉ components e.1 →
        e ∈ (q.removeFromQueue guid).compatibleMapStore
  | _ => True

instance (store : OrdMap (List Char) LfgCompatibilityData) (guid : UInt64) : Decidable (Exact store guid) :=
  inferInstanceAs (Decidable (∀ e ∈ store.toList, _ → _ → _))

instance (q : LFGBestQueue) : ∀ input, Decidable (Sound q input)
  | .removeFromQueue _ => inferInstanceAs (Decidable ((∀ e ∈ q.compatibleMapStore.toList, _ → _) ∧
      ∀ e ∈ q.queueDataStore.toList, _ → _ → _))
  | .updateQueueTimers => inferInstanceAs (Decidable (∀ e ∈ q.queueDataStore.toList, _ → _))
  | .addQueueData _ _ => isTrue trivial
  | .findGroups _ => isTrue trivial

theorem right_findBestCompatible {store : OrdMap (List Char) LfgCompatibilityData} {entry : LfgBestData}
    (exact : Exact store guid)
    (named : ∀ e ∈ store, e.2.compatibility = .withLessPlayers → q.Named e.1) (isEmpty : entry.bestCompatible = [])
    (hasBest : (entry.findBestCompatible store guid).bestCompatible ≠ []) :
    guidText guid ∈ components (entry.findBestCompatible store guid).bestCompatible ∧
      q.Named (entry.findBestCompatible store guid).bestCompatible := by
  rcases bestCompatible_findBestCompatible store guid entry with same | ⟨e, member, isLess, hit, isBest⟩
  · exact absurd (same.trans isEmpty) hasBest
  · rw [isBest]
    exact ⟨exact e member isLess hit, named e member isLess⟩

theorem mem_removeFromQueue_cache {e : List Char × LfgCompatibilityData} :
    e ∈ (q.removeFromQueue guid).compatibleMapStore ↔
      e ∈ q.compatibleMapStore ∧ ¬ guidText guid <:+: e.1 := by
  have isCache : (q.removeFromQueue guid).compatibleMapStore =
      q.compatibleMapStore.filterKeys fun key => !decide (guidText guid <:+: key) := rfl
  rw [isCache, mem_filterKeys]
  simp

theorem present_removeFromQueue {other : UInt64} :
    (q.removeFromQueue guid).Present other ↔ q.Present other ∧ other ≠ guid := by
  rw [Present, Present, Option.isSome_iff_exists, Option.isSome_iff_exists]
  simp only [find?_eq_some_iff, removeFromQueue, mem_erase, mem_mapVal]
  constructor
  · intro both
    obtain ⟨_, ⟨entry, member, -⟩, apart⟩ := both
    exact ⟨⟨entry, member⟩, apart⟩
  · intro both
    obtain ⟨⟨entry, member⟩, apart⟩ := both
    exact ⟨_, ⟨entry, member, rfl⟩, apart⟩

theorem Named.removeFromQueue {key : List Char} (named : q.Named key)
    (notNamed : guidText guid ∉ components key) : (q.removeFromQueue guid).Named key := by
  intro word isComponent
  obtain ⟨other, isWord, isThere⟩ := named word isComponent
  refine ⟨other, isWord, present_removeFromQueue.mpr ⟨isThere, fun same => notNamed ?_⟩⟩
  rw [← same, ← isWord]
  exact isComponent

theorem sane_removeFromQueue (sane : Sane q) (sound : Sound q (.removeFromQueue guid)) :
    Sane (q.removeFromQueue guid) := by
  have named : ∀ e ∈ (q.removeFromQueue guid).compatibleMapStore,
      e.2.compatibility = .withLessPlayers → (q.removeFromQueue guid).Named e.1 := by
    intro e member isLess
    obtain ⟨isOld, notFound⟩ := mem_removeFromQueue_cache.mp member
    exact (sane.named e isOld isLess).removeFromQueue fun isComponent =>
      notFound (infix_of_component isComponent)
  refine ⟨?_, named, ?_⟩
  · intro e member hasBest
    obtain ⟨inMap, apart⟩ := mem_erase.mp member
    obtain ⟨entry, isOld, isEntry⟩ := mem_mapVal.mp (show (e.1, e.2) ∈ _ from inMap)
    rw [← isEntry] at hasBest ⊢
    split at hasBest
    · rename_i isFound
      rw [if_pos isFound]
      exact right_findBestCompatible (sound.2 (e.1, entry) isOld isFound.1 isFound.2) named rfl hasBest
    rename_i notFound
    rw [if_neg notFound]
    obtain ⟨isComponent, namedOld⟩ := sane.right (e.1, entry) isOld hasBest
    exact ⟨isComponent, namedOld.removeFromQueue fun isPart =>
      notFound ⟨apart, infix_of_component isPart⟩⟩
  · intro other member
    rcases List.mem_append.mp member with inNew | inCurrent
    · obtain ⟨isOld, apart⟩ := List.mem_filter.mp inNew
      exact present_removeFromQueue.mpr
        ⟨sane.listed other (mem_append_left _ isOld), of_decide_eq_true apart⟩
    · obtain ⟨isOld, apart⟩ := List.mem_filter.mp inCurrent
      exact present_removeFromQueue.mpr
        ⟨sane.listed other (mem_append_right _ isOld), of_decide_eq_true apart⟩

theorem removesKeys_of_sound {input : Input} (sound : Sound q input) : RemovesKeys q input := by
  cases input with
  | removeFromQueue guid =>
    refine ⟨fun e member isComponent => ?_, fun e member notComponent => ?_⟩
    · exact (mem_removeFromQueue_cache.mp member).2 (infix_of_component isComponent)
    · exact mem_removeFromQueue_cache.mpr ⟨member, fun found => notComponent (sound.1 e member found)⟩
  | addQueueData guid data => trivial
  | findGroups env => trivial
  | updateQueueTimers => trivial

theorem sane_addQueueData (sane : Sane q) (data : LfgQueueData) : Sane (q.addQueueData guid data) := by
  have more : ∀ other, other = guid ∨ q.Present other → (q.addQueueData guid data).Present other := by
    intro other isThere
    have found : (q.addQueueData guid data).queueDataStore.find? other =
        if other = guid then some (.new data) else q.queueDataStore.find? other :=
      find?_insert _ _ _ _
    rw [Present, found]
    split
    · rfl
    · rename_i apart
      exact isThere.resolve_left apart
  refine ⟨?_, fun e member isLess => (sane.named e member isLess).mono fun other isThere =>
    more other (Or.inr isThere), ?_⟩
  · intro e member hasBest
    rcases mem_insert.mp member with isNew | ⟨isOld, -⟩
    · rw [isNew] at hasBest
      exact absurd rfl hasBest
    · obtain ⟨isComponent, named⟩ := sane.right e isOld hasBest
      exact ⟨isComponent, named.mono fun other isThere => more other (Or.inr isThere)⟩
  · intro other member
    rcases List.mem_append.mp member with inNew | inCurrent
    · rcases List.mem_append.mp inNew with old | isNew
      · exact more other (Or.inr (sane.listed other (mem_append_left _ old)))
      · exact more other (Or.inl (List.mem_singleton.mp isNew))
    · exact more other (Or.inr (sane.listed other (mem_append_right _ inCurrent)))

theorem sane_updateQueueTimers (sane : Sane q) (sound : Sound q .updateQueueTimers) :
    Sane q.updateQueueTimers := by
  have present : ∀ other, q.updateQueueTimers.Present other ↔ q.Present other := by
    intro other
    have found : q.updateQueueTimers.queueDataStore.find? other =
        (q.queueDataStore.find? other).map _ := find?_mapVal _ _ _
    rw [Present, Present, found, Option.isSome_map]
  have named : ∀ {key}, q.Named key → q.updateQueueTimers.Named key :=
    fun isNamed => isNamed.mono fun other => (present other).mpr
  refine ⟨?_, fun e member isLess => named (sane.named e member isLess),
    fun other member => (present other).mpr (sane.listed other member)⟩
  intro e member hasBest
  obtain ⟨entry, isOld, isEntry⟩ := mem_mapVal.mp (show (e.1, e.2) ∈ _ from member)
  rw [← isEntry] at hasBest ⊢
  split at hasBest
  · rename_i isEmpty
    rw [if_pos isEmpty]
    exact right_findBestCompatible (sound (e.1, entry) isOld isEmpty)
      (fun d inStore isLess => named (sane.named d inStore isLess)) isEmpty hasBest
  · rename_i notEmpty
    rw [if_neg notEmpty]
    obtain ⟨isComponent, namedOld⟩ := sane.right (e.1, entry) isOld hasBest
    exact ⟨isComponent, named namedOld⟩

theorem sane_step (sane : Sane q) {input : Input} (sound : Sound q input) : Sane (q.step input) := by
  cases input with
  | addQueueData guid data => exact sane_addQueueData sane data
  | findGroups env => exact sane_findGroupsLoop _ sane
  | removeFromQueue guid => exact sane_removeFromQueue sane sound
  | updateQueueTimers => exact sane_updateQueueTimers sane sound

theorem sane_empty : Sane empty := ⟨nofun, nofun, nofun⟩

/-- **Best sets and keys speak of the right GUIDs** throughout a run of sound steps. -/
theorem throughout_right (inputs : List Input) (sound : Machine.EachStep step Sound empty inputs) :
    Machine.Throughout step Right empty inputs ∧ Machine.EachStep step RemovesKeys empty inputs := by
  have sane : Machine.Throughout step Sane empty inputs :=
    Machine.Throughout.of_eachStep sane_empty (fun _ _ sane sound => sane_step sane sound) sound
  exact ⟨Machine.Throughout.mono (fun _ sane => sane.right) sane,
    Machine.EachStep.mono (fun _ _ sound => removesKeys_of_sound sound) sound⟩

def damageDealer (guid : UInt64) : LfgQueueData where
  dungeons := OrdMap.empty.insert 1 ()
  roles := OrdMap.empty.insert guid playerRoleDamage
  dungeons_ne := cons_ne_nil _ _
  roles_le := Nat.succ_le_succ (Nat.zero_le 4)
  roles_full := nofun

def allCalm : LfgEnv where
  state _ := .queued
  oldState _ := .none
  ignored _ := none
  urand _ _ := 0
  now := 0

/-- Two players, whose numbers are not part of one another, are found compatible, and one leaves. -/
def twoThatFit : List Input :=
  [.addQueueData 7 (damageDealer 7), .addQueueData 12 (damageDealer 12), .findGroups allCalm,
    .updateQueueTimers, .removeFromQueue 7, .updateQueueTimers]

set_option maxRecDepth 4000 in
theorem right_twoThatFit : Machine.EachStep step Sound empty twoThatFit ∧
    Machine.Throughout step Right empty twoThatFit ∧
      Machine.EachStep step RemovesKeys empty twoThatFit := by
  have sound : Machine.EachStep step Sound empty twoThatFit := by decide +kernel
  exact ⟨sound, throughout_right twoThatFit sound⟩

/-- Two players with the numbers 1 and 12 -/
def oneInTwelve : List Input :=
  [.addQueueData 12 (damageDealer 12), .addQueueData 1 (damageDealer 1), .findGroups allCalm]

set_option maxRecDepth 4000 in
/-- **1 leaves**, and the key of 12 goes as well. -/
theorem key_lost : ¬ ∀ inputs, Machine.Throughout step Right empty inputs ∧
    Machine.EachStep step RemovesKeys empty inputs := by
  intro always
  have removes := (always (oneInTwelve ++ [.removeFromQueue 1])).2
  have kept : RemovesKeys (Machine.run step empty oneInTwelve) (.removeFromQueue 1) := removes.2.2.2.1
  have hasKey : ((Machine.run step empty oneInTwelve).compatibleMapStore.toList.any fun e =>
      e.1 = ['1', '2'] && !decide (e.1 ∈
        ((Machine.run step empty oneInTwelve).removeFromQueue 1).compatibleMapStore.keys)) = true := by
    decide +kernel
  obtain ⟨e, member, both⟩ := List.any_eq_true.mp hasKey
  obtain ⟨isTwelve, isGone⟩ := Bool.and_eq_true_iff.mp both
  have isKey : e.1 = ['1', '2'] := of_decide_eq_true isTwelve
  have notComponent : guidText 1 ∉ components e.1 := by
    rw [isKey]
    decide
  have stays := kept.2 e member notComponent
  have inKeys : e.1 ∈ ((Machine.run step empty oneInTwelve).removeFromQueue 1).compatibleMapStore.keys :=
    mem_keys_iff.mpr ⟨e.2, stays⟩
  rw [decide_eq_true inKeys] at isGone
  cases isGone

end LFGBestQueue

end Sky548
