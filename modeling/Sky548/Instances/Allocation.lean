import Mathlib.Data.List.MinMax
import Sky548.Instances.MapManager
import Sky548.Machine

/-!
# Instance ids are handed out once

The next id is the least that is not in use, and the vector holds a bit for every id in use
(`Allocated`). The size that is computed for an id that is a multiple of 32 stops just short of it,
and for the last 32 of all ids it is 0 (`lt_sizeFor_iff`), so a run keeps within the vector as long
as it never needs such an id to fit (`safe_run`); the first row of that kind does not
(`row_outOfBounds`).
-/

namespace Sky548

open List
open Function (update update_of_ne update_self)

@[simp] theorem length_resizeBits (bits : List Bool) (size : Nat) :
    (resizeBits bits size).length = size := by
  rw [resizeBits, length_append, length_take, length_replicate]
  omega

theorem getD_resizeBits (bits : List Bool) (size i : Nat) :
    (resizeBits bits size).getD i false = if i < size then bits.getD i false else false := by
  rw [resizeBits, getD_eq_getElem?_getD, getD_eq_getElem?_getD, getElem?_append, length_take]
  split
  · rename_i inTaken
    rw [getElem?_take, if_pos (by omega), if_pos (by omega)]
  rename_i beyond
  rw [getElem?_replicate]
  split_ifs
  · rw [getElem?_eq_none (by omega)]
    rfl
  · rfl
  · rw [getElem?_eq_none (by omega)]
  · rfl

theorem getD_setBit (bits : List Bool) {i : Nat} (b : Bool) (inBounds : i < bits.length) :
    ∀ j, (bits.set i b).getD j false = update (fun j => bits.getD j false) i b j := by
  intro j
  rw [getD_eq_getElem?_getD]
  by_cases here : j = i
  · rw [here, update_self, getElem?_set_self inBounds]
    rfl
  · rw [update_of_ne here, getElem?_set_ne (Ne.symm here), getD_eq_getElem?_getD]

/-- An id that lies within the size that is computed for it -/
def FitsBits (id : Nat) : Prop := id % 32 ≠ 0 ∧ id < 0xFFFFFFE0

theorem lt_sizeFor {id : Nat} (fits : FitsBits id) : id < sizeFor id := by
  obtain ⟨notMultiple, below⟩ := fits
  rw [sizeFor, if_pos (Nat.pos_of_ne_zero notMultiple), Nat.mod_eq_of_lt (by omega)]
  omega

theorem sizeFor_lt (id : Nat) : sizeFor id < 2 ^ 32 := Nat.mod_lt _ (by decide)

theorem firstFree_spec {bits : List Bool} (room : Nat) : ∀ {i j : Nat},
    firstFree bits room i = some j →
    i ≤ j ∧ j < i + room ∧ bits.getD j false = false ∧ ∀ k, i ≤ k → k < j → bits.getD k false = true := by
  induction room with
  | zero =>
    intro i j found
    cases found
  | succ room ih =>
    intro i j found
    rw [firstFree] at found
    split at found
    · rename_i isFree
      rw [← Option.some.inj found]
      refine ⟨Nat.le_refl _, Nat.lt_add_of_pos_right (Nat.succ_pos _), ?_, fun k notBefore before =>
        absurd before (Nat.not_lt.mpr notBefore)⟩
      rw [Bool.or_eq_true, Bool.and_eq_true, Bool.not_eq_true'] at isFree
      rcases isFree with ⟨-, unmarked⟩ | beyond
      · exact unmarked
      · rw [getD_eq_getElem?_getD, getElem?_eq_none (of_decide_eq_true beyond)]
        rfl
    · rename_i notFree
      obtain ⟨later, within, unmarked, before⟩ := ih found
      refine ⟨by omega, by omega, unmarked, fun k notBefore below => ?_⟩
      rcases Nat.eq_or_lt_of_le notBefore with rfl | after
      · rw [Bool.or_eq_true, Bool.and_eq_true, Bool.not_eq_true', not_or] at notFree
        have inBounds : i < bits.length := by
          by_contra beyond
          exact notFree.2 (decide_eq_true (Nat.le_of_not_lt beyond))
        by_contra unmarked'
        exact notFree.1 ⟨decide_eq_true inBounds, eq_false_of_ne_true unmarked'⟩
      · exact before k after below

theorem firstFree_exists {bits : List Bool} (room : Nat) : ∀ {i k : Nat}, i ≤ k → k < i + room →
    bits.getD k false = false → ∃ j, firstFree bits room i = some j := by
  induction room with
  | zero =>
    intro i k notBefore below
    omega
  | succ room ih =>
    intro i k notBefore below unmarked
    rw [firstFree]
    split
    · exact ⟨i, rfl⟩
    rename_i notFree
    rcases Nat.eq_or_lt_of_le notBefore with rfl | after
    · rw [unmarked] at notFree
      rw [Bool.or_eq_true, Bool.and_eq_true, not_or] at notFree
      have inBounds : i < bits.length := by
        by_contra beyond
        exact notFree.2 (decide_eq_true (Nat.le_of_not_lt beyond))
      exact absurd ⟨decide_eq_true inBounds, rfl⟩ notFree.1
    · exact ih after (by omega) unmarked

namespace MapManager

variable {allocation : Allocation} {s : MapManager} {id : Nat}

/-- **What instance ids are for**: the vector is accessed within its size, no id is handed out
twice, and the next is the least unused positive one. -/
structure Safe (s : MapManager) : Prop where
  inBounds : s.outOfBounds = false
  unclashed : s.clashed = false
  positive : 0 < s.nextInstanceId
  unused : s.inUse s.nextInstanceId = false
  least : ∀ id, 0 < id → id < s.nextInstanceId → s.inUse id = true

structure Allocated (s : MapManager) : Prop where
  safe : Safe s
  marked : ∀ id, s.inUse id = s.instanceIds.getD id false
  bounded : s.size < 2 ^ 32
  empty : s.size = 0 → s.capacity = 0

theorem Allocated.lt_size (allocated : Allocated s) (isUsed : s.inUse id = true) : id < s.size := by
  by_contra beyond
  rw [allocated.marked, getD_eq_getElem?_getD, getElem?_eq_none (Nat.le_of_not_lt beyond)] at isUsed
  cases isUsed

theorem Allocated.next_le (allocated : Allocated s) :
    s.nextInstanceId ≤ s.size ∨ (s.size = 0 ∧ s.nextInstanceId = 1) := by
  rcases Nat.eq_zero_or_pos s.size with isEmpty | notEmpty
  · refine Or.inr ⟨isEmpty, ?_⟩
    by_contra notOne
    have isUsed := allocated.safe.least 1 Nat.one_pos (by
      have := allocated.safe.positive
      omega)
    have inVector := allocated.lt_size isUsed
    omega
  · refine Or.inl (Nat.le_of_not_lt fun beyond => ?_)
    have inVector := allocated.lt_size (allocated.safe.least s.size notEmpty beyond)
    exact Nat.lt_irrefl _ inVector

theorem size_initInstanceIds (ids : List Nat) :
    (initInstanceIds allocation ids).size = sizeFor (ids.foldr max 0) :=
  length_resizeBits _ _

theorem allocated_initInstanceIds (ids : List Nat) : Allocated (initInstanceIds allocation ids) where
  safe := ⟨rfl, rfl, Nat.one_pos, rfl, fun id positive below => by
    change id < 1 at below
    omega⟩
  marked := by
    intro id
    change false = (resizeBits [] _).getD id false
    rw [getD_resizeBits]
    split
    · rfl
    · rfl
  bounded := by
    rw [size_initInstanceIds]
    exact sizeFor_lt _
  empty := by
    intro isEmpty
    rw [size_initInstanceIds] at isEmpty
    exact if_pos (Nat.le_of_eq isEmpty)

theorem loadRow_eq (s : MapManager) (id : Nat) : s.loadRow id = { s with
      instanceIds := s.instanceIds.set id true
      nextInstanceId := if s.nextInstanceId = id then (id + 1) % 2 ^ 32 else s.nextInstanceId
      inUse := update s.inUse id true
      outOfBounds := s.outOfBounds || decide (s.size ≤ id) } := by
  rw [MapManager.loadRow]
  split
  · rfl
  · rfl

theorem size_loadRow (s : MapManager) (id : Nat) : (s.loadRow id).size = s.size := by
  rw [loadRow_eq]
  exact length_set

theorem Allocated.loadRow (allocated : Allocated s) (inVector : id < s.size)
    (ascending : ∀ k, s.inUse k = true → k < id) : Allocated (s.loadRow id) := by
  have noWrap : (id + 1) % 2 ^ 32 = id + 1 := by
    have := allocated.bounded
    exact Nat.mod_eq_of_lt (by omega)
  have inUse : (s.loadRow id).inUse = update s.inUse id true := by
    rw [loadRow_eq]
  have next : (s.loadRow id).nextInstanceId =
      if s.nextInstanceId = id then id + 1 else s.nextInstanceId := by
    rw [loadRow_eq, noWrap]
  refine ⟨⟨?_, ?_, ?_, ?_, fun k positive below => ?_⟩, fun k => ?_, ?_, fun isEmpty => ?_⟩
  · rw [loadRow_eq, allocated.safe.inBounds, decide_eq_false (Nat.not_le.mpr inVector)]
    rfl
  · rw [loadRow_eq]
    exact allocated.safe.unclashed
  · rw [next]
    split
    · exact Nat.succ_pos _
    · exact allocated.safe.positive
  · rw [next, inUse]
    split
    · rw [update_of_ne (Nat.succ_ne_self id)]
      by_contra isUsed
      have below := ascending (id + 1) (eq_true_of_ne_false isUsed)
      omega
    · rename_i notNext
      rw [update_of_ne notNext]
      exact allocated.safe.unused
  · rw [inUse]
    by_cases here : k = id
    · rw [here, update_self]
    rw [update_of_ne here]
    refine allocated.safe.least k positive ?_
    rw [next] at below
    split at below
    · rename_i isNext
      omega
    · exact below
  · rw [inUse, loadRow_eq]
    rw [getD_setBit _ _ inVector, ← funext allocated.marked]
  · rw [size_loadRow]
    exact allocated.bounded
  · rw [size_loadRow] at isEmpty
    omega

theorem Allocated.throughout_load (ids : List Nat) : ∀ {s : MapManager}, Allocated s →
    ids.Pairwise (· < ·) → (∀ id ∈ ids, id < s.size ∧ ∀ k, s.inUse k = true → k < id) →
    Machine.Throughout MapManager.loadRow Allocated s ids := by
  induction ids with
  | nil => exact fun allocated _ _ => allocated
  | cons id rest ih =>
    intro s allocated ascending all
    obtain ⟨first, ascending⟩ := List.pairwise_cons.mp ascending
    obtain ⟨inVector, above⟩ := all id mem_cons_self
    refine ⟨allocated, ih (allocated.loadRow inVector above) ascending fun k member => ?_⟩
    obtain ⟨within, aboveAll⟩ := all k (mem_cons_of_mem _ member)
    rw [size_loadRow, loadRow_eq]
    refine ⟨within, fun j isUsed => ?_⟩
    change update s.inUse id true j = true at isUsed
    by_cases here : j = id
    · rw [here]
      exact first k member
    · rw [update_of_ne here] at isUsed
      exact aboveAll j isUsed

/-- There is room for what is requested: a vector that is full can be extended, and an id is left
for the next. -/
def Room (s : MapManager) : Request → Prop
  | .generate =>
    (s.size ≤ s.nextInstanceId →
      if s.size < s.capacity then s.capacity < 2 ^ 32 else FitsBits s.nextInstanceId) ∧
    ∃ id, s.nextInstanceId < id ∧ id < 0xFFFFFFFF ∧ s.inUse id = false
  | .free instanceId => s.inUse instanceId = true → instanceId ≠ 0

theorem allocate_spec {t : MapManager} (bounded : t.size < 2 ^ 32)
    (close : id ≤ t.size ∨ (t.size = 0 ∧ id = 1)) (empty : t.size = 0 → t.capacity = 0)
    (room : t.size ≤ id → if t.size < t.capacity then t.capacity < 2 ^ 32 else FitsBits id) :
    ∃ bits capacity, t.allocate allocation id = { t with
        instanceIds := bits
        capacity := capacity } ∧
      id < bits.length ∧ bits.length < 2 ^ 32 ∧
      ∀ k, bits.getD k false = t.instanceIds.getD k false := by
  have resized : ∀ size, t.size ≤ size →
      ∀ k, (resizeBits t.instanceIds size).getD k false = t.instanceIds.getD k false := by
    intro size larger k
    rw [getD_resizeBits]
    split
    · rfl
    rename_i beyond
    have beyond' : t.instanceIds.length ≤ k := Nat.le_trans larger (Nat.le_of_not_lt beyond)
    rw [getD_eq_getElem?_getD, getElem?_eq_none beyond']
    rfl
  rw [allocate, Nat.mod_eq_of_lt bounded]
  split
  · rename_i isFull
    have room := room isFull
    split
    · rename_i larger
      rw [if_pos larger] at room
      refine ⟨_, _, rfl, ?_, ?_, resized _ (Nat.le_of_lt larger)⟩
      · rw [length_resizeBits]
        rcases close with atEnd | ⟨isEmpty, -⟩
        · exact Nat.lt_of_le_of_lt atEnd larger
        · rw [isEmpty, empty isEmpty] at larger
          cases larger
      · rw [length_resizeBits]
        exact room
    · rename_i notLarger
      rw [if_neg notLarger] at room
      have within := lt_sizeFor room
      refine ⟨_, _, rfl, ?_, ?_, resized _ (Nat.le_of_lt (Nat.lt_of_le_of_lt isFull within))⟩
      · rw [length_resizeBits]
        exact within
      · rw [length_resizeBits]
        exact sizeFor_lt id
  · rename_i notFull
    exact ⟨t.instanceIds, t.capacity, rfl, Nat.lt_of_not_le notFull, bounded, fun _ => rfl⟩

theorem Allocated.findNext (allocated : Allocated s)
    (left : ∃ id, s.nextInstanceId < id ∧ id < 0xFFFFFFFF ∧ s.inUse id = false) :
    s.nextInstanceId < s.findNext.nextInstanceId ∧ s.inUse s.findNext.nextInstanceId = false ∧
      ∀ k, s.nextInstanceId < k → k < s.findNext.nextInstanceId → s.inUse k = true := by
  obtain ⟨id, later, isId, unused⟩ := left
  have noWrap : (s.nextInstanceId + 1) % 2 ^ 32 = s.nextInstanceId + 1 :=
    Nat.mod_eq_of_lt (by omega)
  rw [allocated.marked] at unused
  obtain ⟨j, found⟩ := firstFree_exists (0xFFFFFFFF - (s.nextInstanceId + 1)) later (by omega) unused
  have next : s.findNext.nextInstanceId = j := by
    rw [MapManager.findNext, noWrap, found]
    rfl
  obtain ⟨after, -, unmarked, before⟩ := firstFree_spec _ found
  rw [next]
  refine ⟨after, ?_, fun k later' below => ?_⟩
  · rw [allocated.marked]
    exact unmarked
  · rw [allocated.marked]
    exact before k later' below

theorem Allocated.generate (allocated : Allocated s) (room : Room s .generate) :
    Allocated (s.generateInstanceId allocation).1 := by
  obtain ⟨space, left⟩ := room
  obtain ⟨later, unused, between⟩ := allocated.findNext left
  let t : MapManager :=
    { s.findNext with
      stopping := s.findNext.stopping || s.nextInstanceId == s.findNext.nextInstanceId }
  obtain ⟨bits, capacity, isAllocated, within, bounded, kept⟩ :
      ∃ bits capacity, t.allocate allocation s.nextInstanceId = { t with
        instanceIds := bits
        capacity := capacity } ∧ _ :=
    allocate_spec allocated.bounded allocated.next_le allocated.empty space
  have result : (s.generateInstanceId allocation).1 = { t with
        instanceIds := bits.set s.nextInstanceId true
        capacity := capacity
        outOfBounds := s.outOfBounds || decide (bits.length ≤ s.nextInstanceId)
        inUse := update s.inUse s.nextInstanceId true
        clashed := s.clashed || s.nextInstanceId == 0 || s.inUse s.nextInstanceId } := by
    rw [generateInstanceId]
    change ({ (t.allocate allocation s.nextInstanceId).mark s.nextInstanceId true with
      inUse := _
      clashed := _ } : MapManager) = _
    rw [isAllocated]
    rfl
  have notZero : (s.nextInstanceId == 0) = false :=
    beq_eq_false_iff_ne.mpr (Nat.ne_of_gt allocated.safe.positive)
  rw [result]
  refine ⟨⟨?_, ?_, Nat.lt_of_le_of_lt (Nat.zero_le _) later, ?_, fun k positive below => ?_⟩,
    fun k => ?_, ?_, fun isEmpty => ?_⟩
  · rw [allocated.safe.inBounds, decide_eq_false (Nat.not_le.mpr within)]
    rfl
  · rw [allocated.safe.unclashed, notZero, allocated.safe.unused]
    rfl
  · change update s.inUse s.nextInstanceId true s.findNext.nextInstanceId = false
    rw [update_of_ne (Nat.ne_of_gt later)]
    exact unused
  · change update s.inUse s.nextInstanceId true k = true
    rcases Nat.lt_trichotomy k s.nextInstanceId with earlier | rfl | after
    · rw [update_of_ne (Nat.ne_of_lt earlier)]
      exact allocated.safe.least k positive earlier
    · exact update_self _ _ _
    · rw [update_of_ne (Nat.ne_of_gt after)]
      exact between k after below
  · have same : (fun k => bits.getD k false) = s.inUse :=
      funext fun k => (kept k).trans (allocated.marked k).symm
    rw [getD_setBit _ _ within, same]
  · change (bits.set s.nextInstanceId true).length < 2 ^ 32
    rw [length_set]
    exact bounded
  · change (bits.set s.nextInstanceId true).length = 0 at isEmpty
    rw [length_set] at isEmpty
    omega

theorem Allocated.free (allocated : Allocated s) (isUsed : s.inUse id = true) (notZero : id ≠ 0) :
    Allocated (s.freeInstanceId id) := by
  have within := allocated.lt_size isUsed
  have result : s.freeInstanceId id = { s with
        instanceIds := s.instanceIds.set id false
        nextInstanceId := if id < s.nextInstanceId then id else s.nextInstanceId
        inUse := update s.inUse id false
        outOfBounds := s.outOfBounds || decide (s.size ≤ id) } := by
    rw [freeInstanceId]
    split
    · rfl
    · rfl
  rw [result]
  refine ⟨⟨?_, allocated.safe.unclashed, ?_, ?_, fun k positive below => ?_⟩, fun k => ?_, ?_,
    fun isEmpty => ?_⟩
  · rw [allocated.safe.inBounds, decide_eq_false (Nat.not_le.mpr within)]
    rfl
  · split
    · exact Nat.pos_of_ne_zero notZero
    · exact allocated.safe.positive
  · change update s.inUse id false (if id < s.nextInstanceId then id else s.nextInstanceId) = false
    split
    · exact update_self _ _ _
    by_cases here : s.nextInstanceId = id
    · rw [here]
      exact update_self _ _ _
    · rw [update_of_ne here]
      exact allocated.safe.unused
  · change k < if id < s.nextInstanceId then id else s.nextInstanceId at below
    change update s.inUse id false k = true
    split at below
    · rename_i lower
      rw [update_of_ne (Nat.ne_of_lt below)]
      exact allocated.safe.least k positive (Nat.lt_trans below lower)
    · rename_i notLower
      rw [update_of_ne (by omega)]
      exact allocated.safe.least k positive below
  · rw [getD_setBit _ _ within, ← funext allocated.marked]
  · change (s.instanceIds.set id false).length < 2 ^ 32
    rw [length_set]
    exact allocated.bounded
  · change (s.instanceIds.set id false).length = 0 at isEmpty
    rw [length_set] at isEmpty
    exact allocated.empty isEmpty

theorem Allocated.step {request : Request} (allocated : Allocated s) (room : Room s request) :
    Allocated (s.step allocation request) := by
  cases request with
  | generate => exact allocated.generate room
  | free instanceId =>
    rw [MapManager.step]
    split
    · rename_i isUsed
      exact allocated.free isUsed (room isUsed)
    · exact allocated

/-- **Instance ids are allocated safely** when the greatest id that is loaded fits, and there is room
for whatever is requested. -/
theorem safe_run {ids : List Nat} {requests : List Request} (ascending : ids.Pairwise (· < ·))
    (fits : ids = [] ∨ FitsBits (ids.foldr max 0)) (room : Machine.EachStep (step allocation) Room
      (Machine.run loadRow (initInstanceIds allocation ids) ids) requests) :
    Machine.Throughout loadRow Safe (initInstanceIds allocation ids) ids ∧
      Machine.Throughout (step allocation) Safe
        (Machine.run loadRow (initInstanceIds allocation ids) ids) requests := by
  have loaded : Machine.Throughout loadRow Allocated (initInstanceIds allocation ids) ids := by
    refine (allocated_initInstanceIds ids).throughout_load ids ascending fun id member => ?_
    rw [size_initInstanceIds]
    refine ⟨Nat.lt_of_le_of_lt (le_max_of_le' 0 member (Nat.le_refl id)) ?_, fun k isUsed => nomatch isUsed⟩
    rcases fits with rfl | fits
    · cases member
    · exact lt_sizeFor fits
  exact ⟨loaded.mono fun _ allocated => allocated.safe,
    (Machine.Throughout.of_eachStep loaded.last (fun _ _ allocated met => allocated.step met)
      room).mono fun _ allocated => allocated.safe⟩

/-- Memory is taken in words of 64 bits, for twice the size if that is more. -/
def inWords : Allocation where
  grow := fun size wanted => (size + max size (wanted - size) + 63) / 64 * 64
  enough := by omega

theorem safe_run_of_gap : Machine.Throughout loadRow Safe (initInstanceIds inWords [1, 3]) [1, 3] ∧
      Machine.Throughout (step inWords) Safe
        (Machine.run loadRow (initInstanceIds inWords [1, 3]) [1, 3]) [.generate, .free 1, .generate] :=
  safe_run (by decide) (Or.inr ⟨by decide, by decide⟩)
    ⟨⟨fun isFull => absurd isFull (by decide), 9, by decide⟩, fun _ => by decide,
      ⟨fun isFull => absurd isFull (by decide), 9, by decide⟩, True.intro⟩

/-- The vector is 32 long, and its element 32 is set. -/
theorem row_outOfBounds : ¬ ∀ (ids : List Nat) (requests : List Request), ids.Pairwise (· < ·) →
    Machine.Throughout loadRow Safe (initInstanceIds inWords ids) ids ∧
      Machine.Throughout (step inWords) Safe
        (Machine.run loadRow (initInstanceIds inWords ids) ids) requests := by
  intro always
  have accessed := (always [32] [] (by decide)).1.last.inBounds
  exact absurd accessed (by decide)

end MapManager

end Sky548
