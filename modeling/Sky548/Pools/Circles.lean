import Mathlib.Order.Interval.Finset.Nat
import Sky548.Loot.References

/-!
# Pools of pools

`LoadFromDB` of the relations between pools, with the check for circular references. The check goes up
from each pool to the mother that the search map has for it, which is that of the first row of the
child; the groups have all the rows. So a circle is sure to be found if it is one of first rows
(`circles_found`), and one that is not may stay (`circle_left`).
-/

namespace Sky548

open Relation

structure PoolObject where
  guid : Nat
  chance : ℚ

structure PoolGroup where
  poolId : Nat
  explicitlyChanced : List PoolObject
  equalChanced : List PoolObject

structure PoolPoolRow where
  childPoolId : Nat
  motherPoolId : Nat
  chance : ℚ

/-- The groups of pools, by mother, and the mothers that are looked up, by child -/
structure PoolMgr where
  poolPoolGroups : Nat → PoolGroup
  poolSearchMap : Nat → Option Nat

namespace PoolGroup

variable (g : PoolGroup)

def addEntry (poolitem : PoolObject) (maxentries : Nat) : PoolGroup :=
  if poolitem.chance ≠ 0 ∧ maxentries = 1 then
    { g with explicitlyChanced := g.explicitlyChanced ++ [poolitem] }
  else { g with equalChanced := g.equalChanced ++ [poolitem] }

def removeOneRelation (childPoolId : Nat) : PoolGroup :=
  { g with
    explicitlyChanced := g.explicitlyChanced.eraseP fun o => o.guid = childPoolId
    equalChanced := g.equalChanced.eraseP fun o => o.guid = childPoolId }

def Has (childPoolId : Nat) : Prop :=
  childPoolId ∈ g.explicitlyChanced.map PoolObject.guid ∨
    childPoolId ∈ g.equalChanced.map PoolObject.guid

/-- The pool is not more than once in either list of the group. -/
def Once (childPoolId : Nat) : Prop :=
  (g.explicitlyChanced.map PoolObject.guid).count childPoolId ≤ 1 ∧
    (g.equalChanced.map PoolObject.guid).count childPoolId ≤ 1

end PoolGroup

def PoolPoolRow.accepted (row : PoolPoolRow) (maxPoolId : Nat) : Bool :=
  row.motherPoolId ≤ maxPoolId && row.childPoolId ≤ maxPoolId &&
    row.motherPoolId ≠ row.childPoolId && !(row.chance < 0 || row.chance > 100)

namespace PoolMgr

variable (s : PoolMgr)

/-- A row that is accepted. The search map keeps what it has of the child. -/
def addRow (maxLimit : Nat → Nat) (row : PoolPoolRow) : PoolMgr where
  poolPoolGroups := Function.update s.poolPoolGroups row.motherPoolId
    (({ s.poolPoolGroups row.motherPoolId with poolId := row.motherPoolId } : PoolGroup).addEntry
      ⟨row.childPoolId, |row.chance|⟩ (maxLimit row.motherPoolId))
  poolSearchMap :=
    if s.poolSearchMap row.childPoolId = none then
      Function.update s.poolSearchMap row.childPoolId (some row.motherPoolId)
    else s.poolSearchMap

def loadRows (maxPoolId : Nat) (maxLimit : Nat → Nat) (rows : List PoolPoolRow) : PoolMgr :=
  (rows.filter fun row => row.accepted maxPoolId).foldl (fun s row => s.addRow maxLimit row)
    ⟨fun _ => ⟨0, [], []⟩, fun _ => none⟩

/-- The walk up from a pool, for so many pools at most: the relation that leads back to one of those
that it has come through, if there is one -/
def findCircle : Nat → Nat → List Nat → Option (Option (Nat × Nat))
  | 0, _, _ => none
  | left + 1, pool, checkedPools =>
    match s.poolSearchMap pool with
    | none => some none
    | some mother =>
      if mother ∈ pool :: checkedPools then some (some (pool, mother))
      else findCircle left mother (pool :: checkedPools)

/-- A relation is removed from the group of the mother, and from the search map. -/
def removeRelation (child mother : Nat) : PoolMgr where
  poolPoolGroups := Function.update s.poolPoolGroups mother
    ((s.poolPoolGroups mother).removeOneRelation child)
  poolSearchMap := Function.update s.poolSearchMap child none

/-- The check for circular references, from some of the pools; there is nothing if a walk does not
end. -/
def checkCircles (maxPoolId : Nat) : List Nat → PoolMgr → Option PoolMgr
  | [], s => some s
  | i :: rest, s =>
    match s.findCircle (maxPoolId + 1) i [] with
    | none => none
    | some none => checkCircles maxPoolId rest s
    | some (some (child, mother)) => checkCircles maxPoolId rest (s.removeRelation child mother)

def loadPoolPool (maxPoolId : Nat) (maxLimit : Nat → Nat) (rows : List PoolPoolRow) : Option PoolMgr :=
  checkCircles maxPoolId (List.range maxPoolId) (loadRows maxPoolId maxLimit rows)

/-- The relation that `SpawnPool` and `DespawnPool` follow -/
def ChildOf (child mother : Nat) : Prop := (s.poolPoolGroups mother).Has child

def Up (mother child : Nat) : Prop := s.poolSearchMap child = some mother

/-- **No circle is left**, so that what follows the relation ends for every pool, and no relation is
removed that is not on a circle. -/
structure Uncircled (loaded s : PoolMgr) : Prop where
  noCycle : ∀ pool, ¬ TransGen s.ChildOf pool pool
  ends : ∀ pool, Acc s.ChildOf pool
  removed : ∀ child mother, loaded.ChildOf child mother → ¬ s.ChildOf child mother →
    ReflTransGen loaded.ChildOf mother child

/-- The relations that are on a circle are those of first rows, and none of them is there twice. -/
def FirstRows (loaded : PoolMgr) : Prop :=
  ∀ child mother, loaded.ChildOf child mother → ReflTransGen loaded.ChildOf mother child →
    loaded.Up mother child ∧ (loaded.poolPoolGroups mother).Once child

/-- The ids are in range, no pool is its own mother, and what is looked up is in the groups. -/
structure Loaded (maxPoolId : Nat) (s : PoolMgr) : Prop where
  child : ∀ child mother, s.ChildOf child mother → child ≤ maxPoolId
  up : ∀ mother child, s.Up mother child →
    mother ≤ maxPoolId ∧ child ≤ maxPoolId ∧ mother ≠ child ∧ s.ChildOf child mother

variable {s} {maxPoolId : Nat}

theorem has_addEntry {g : PoolGroup} {o : PoolObject} {maxentries child : Nat} :
    (g.addEntry o maxentries).Has child ↔ g.Has child ∨ o.guid = child := by
  unfold PoolGroup.addEntry PoolGroup.Has
  split
  · simp only [List.map_append, List.mem_append, List.map_singleton, List.mem_singleton,
      eq_comm (a := child), or_right_comm]
  · simp only [List.map_append, List.mem_append, List.map_singleton, List.mem_singleton,
      eq_comm (a := child), or_assoc]

theorem childOf_addRow {maxLimit : Nat → Nat} {row : PoolPoolRow} {child mother : Nat} :
    (s.addRow maxLimit row).ChildOf child mother ↔
      s.ChildOf child mother ∨ row.childPoolId = child ∧ row.motherPoolId = mother := by
  unfold ChildOf addRow
  dsimp only
  by_cases same : mother = row.motherPoolId
  · subst same
    rw [Function.update_self, has_addEntry, and_iff_left rfl]
    exact Iff.rfl
  · rw [Function.update_of_ne same]
    exact ⟨Or.inl, fun either => either.resolve_right fun isRow => same isRow.2.symm⟩

theorem Loaded.addRow (loaded : Loaded maxPoolId s) (maxLimit : Nat → Nat) {row : PoolPoolRow}
    (accepted : row.accepted maxPoolId = true) : Loaded maxPoolId (s.addRow maxLimit row) := by
  have checks := accepted
  simp only [PoolPoolRow.accepted, Bool.and_eq_true, decide_eq_true_eq] at checks
  refine ⟨fun child mother isChild => ?_, fun mother child isUp => ?_⟩
  · rcases childOf_addRow.mp isChild with before | ⟨rfl, -⟩
    · exact loaded.child child mother before
    · exact checks.1.1.2
  have old : s.Up mother child ∨ row.childPoolId = child ∧ row.motherPoolId = mother := by
    rw [Up, PoolMgr.addRow] at isUp
    dsimp only at isUp
    split at isUp
    · rw [Function.update_apply] at isUp
      split at isUp
      · rename_i isChild
        exact Or.inr ⟨isChild.symm, Option.some.inj isUp⟩
      · exact Or.inl isUp
    · exact Or.inl isUp
  rcases old with before | ⟨rfl, rfl⟩
  · obtain ⟨motherSmall, childSmall, apart, isChild⟩ := loaded.up mother child before
    exact ⟨motherSmall, childSmall, apart, childOf_addRow.mpr (Or.inl isChild)⟩
  · exact ⟨checks.1.1.1, checks.1.1.2, checks.1.2, childOf_addRow.mpr (Or.inr ⟨rfl, rfl⟩)⟩

theorem loaded_loadRows (maxLimit : Nat → Nat) (rows : List PoolPoolRow) :
    Loaded maxPoolId (loadRows maxPoolId maxLimit rows) := by
  refine List.foldlRecOn (motive := Loaded maxPoolId) _ _ ⟨fun child mother isChild => ?_,
    fun mother child isUp => ?_⟩ fun s loaded row member =>
      loaded.addRow maxLimit (List.mem_filter.mp member).2
  · rcases isChild with member | member
    · cases member
    · cases member
  · cases isUp

theorem up_removeRelation {child mother m c : Nat} :
    (s.removeRelation child mother).Up m c ↔ c ≠ child ∧ s.Up m c := by
  unfold Up removeRelation
  dsimp only
  rw [Function.update_apply]
  split
  · rename_i isChild
    exact ⟨fun isUp => (by cases isUp), fun both => absurd isChild both.1⟩
  · rename_i apart
    exact ⟨fun isUp => ⟨apart, isUp⟩, fun both => both.2⟩

theorem findCircle_spec (loaded : Loaded maxPoolId s) (left : Nat) : ∀ (pool : Nat)
    (checkedPools : List Nat), (pool :: checkedPools).Nodup → (∀ p ∈ checkedPools, p ≤ maxPoolId) →
    pool ≤ maxPoolId → (∀ p ∈ checkedPools, ReflTransGen s.Up pool p) →
    left + checkedPools.length = maxPoolId + 1 →
    s.findCircle left pool checkedPools = some none ∧ Acc s.Up pool ∨
      ∃ child mother, s.findCircle left pool checkedPools = some (some (child, mother)) ∧
        s.Up mother child ∧ ReflTransGen s.Up child mother ∧
        Acc (s.removeRelation child mother).Up pool := by
  induction left with
  | zero =>
    intro pool checkedPools nodup small isSmall _ count
    have few : (pool :: checkedPools).length ≤ (List.range (maxPoolId + 1)).length :=
      (List.subperm_of_subset nodup fun p member => List.mem_range.mpr (Nat.lt_succ_of_le
        ((List.mem_cons.mp member).elim (fun e => e ▸ isSmall)
          fun inRest => small p inRest))).length_le
    rw [List.length_cons, List.length_range] at few
    omega
  | succ left ih =>
    intro pool checkedPools nodup small isSmall comes count
    rw [findCircle]
    cases found : s.poolSearchMap pool with
    | none =>
      refine Or.inl ⟨rfl, Acc.intro pool fun mother isUp => ?_⟩
      rw [Up, found] at isUp
      cases isUp
    | some mother =>
      have isUp : s.Up mother pool := found
      have comesTo : ∀ p ∈ pool :: checkedPools, ReflTransGen s.Up mother p := by
        intro p member
        rcases List.mem_cons.mp member with rfl | before
        · exact ReflTransGen.single isUp
        · exact ReflTransGen.head isUp (comes p before)
      dsimp only
      by_cases isIn : mother ∈ pool :: checkedPools
      · rw [if_pos isIn]
        refine Or.inr ⟨pool, mother, rfl, isUp, ?_, Acc.intro pool fun m isUp' => ?_⟩
        · rcases List.mem_cons.mp isIn with rfl | before
          · exact ReflTransGen.refl
          · exact comes mother before
        · exact absurd rfl (up_removeRelation.mp isUp').1
      · rw [if_neg isIn]
        obtain ⟨motherSmall, -⟩ := loaded.up mother pool isUp
        have later := ih mother (pool :: checkedPools) (List.nodup_cons.mpr ⟨isIn, nodup⟩)
          (fun p member => (List.mem_cons.mp member).elim (fun e => e ▸ isSmall) (small p))
          motherSmall comesTo (by rw [List.length_cons]; omega)
        rcases later with ⟨ends, acc⟩ | ⟨child, mother', circle, isUp', back, acc⟩
        · refine Or.inl ⟨ends, Acc.intro pool fun m isUp' => ?_⟩
          rw [Up, found] at isUp'
          exact Option.some.inj isUp' ▸ acc
        · refine Or.inr ⟨child, mother', circle, isUp', back, Acc.intro pool fun m isUp'' => ?_⟩
          have before := (up_removeRelation.mp isUp'').2
          rw [Up, found] at before
          exact Option.some.inj before ▸ acc

structure Checked (loaded : PoolMgr) (count : Nat) (s : PoolMgr) : Prop where
  up : ∀ mother child, s.Up mother child → loaded.Up mother child ∧ s.ChildOf child mother
  explicit : ∀ mother, (s.poolPoolGroups mother).explicitlyChanced.Sublist
    (loaded.poolPoolGroups mother).explicitlyChanced
  equal : ∀ mother, (s.poolPoolGroups mother).equalChanced.Sublist
    (loaded.poolPoolGroups mother).equalChanced
  removed : ∀ child mother, loaded.ChildOf child mother → ¬ s.ChildOf child mother →
    ReflTransGen loaded.ChildOf mother child
  gone : ∀ child mother, loaded.Up mother child → ¬ s.Up mother child →
    (loaded.poolPoolGroups mother).Once child → ¬ s.ChildOf child mother
  ends : ∀ i < count, Acc s.Up i

theorem has_mono {g g' : PoolGroup} (explicit : g.explicitlyChanced.Sublist g'.explicitlyChanced)
    (equal : g.equalChanced.Sublist g'.equalChanced) {child : Nat} (has : g.Has child) : g'.Has child :=
  has.imp (fun member => (explicit.map _).subset member) fun member => (equal.map _).subset member

theorem map_eraseP_guid (objects : List PoolObject) (child : Nat) :
    (objects.eraseP fun o => o.guid = child).map PoolObject.guid =
      (objects.map PoolObject.guid).erase child := by
  rw [List.erase_eq_eraseP, List.eraseP_map]
  congr 2
  funext o
  simp [eq_comm, beq_eq_decide]

theorem has_removeOneRelation {g : PoolGroup} {child c : Nat} (apart : c ≠ child) :
    (g.removeOneRelation child).Has c ↔ g.Has c := by
  unfold PoolGroup.Has PoolGroup.removeOneRelation
  rw [map_eraseP_guid, map_eraseP_guid, List.mem_erase_of_ne apart, List.mem_erase_of_ne apart]

theorem not_has_removeOneRelation {g : PoolGroup} {child : Nat} (once : g.Once child) :
    ¬ (g.removeOneRelation child).Has child := by
  unfold PoolGroup.Has PoolGroup.removeOneRelation
  rw [map_eraseP_guid, map_eraseP_guid, ← List.count_pos_iff, ← List.count_pos_iff,
    List.count_erase_self, List.count_erase_self]
  obtain ⟨explicit, equal⟩ := once
  omega

variable {loaded : PoolMgr} {count child mother : Nat}

theorem Checked.childOf (checked : Checked loaded count s) {c m : Nat} (isChild : s.ChildOf c m) :
    loaded.ChildOf c m :=
  has_mono (checked.explicit m) (checked.equal m) isChild

theorem childOf_removeRelation {c m : Nat} (apart : ¬ (c = child ∧ m = mother))
    (isChild : s.ChildOf c m) : (s.removeRelation child mother).ChildOf c m := by
  unfold ChildOf removeRelation
  dsimp only
  by_cases same : m = mother
  · subst same
    rw [Function.update_self]
    exact (has_removeOneRelation fun isIt => apart ⟨isIt, rfl⟩).mpr isChild
  · rw [Function.update_of_ne same]
    exact isChild

theorem Checked.removeRelation (checked : Checked loaded count s) (isUp : s.Up mother child)
    (back : ReflTransGen s.Up child mother) : Checked loaded count (s.removeRelation child mother) := by
  have smaller : ∀ m, ((s.removeRelation child mother).poolPoolGroups m).explicitlyChanced.Sublist
        (s.poolPoolGroups m).explicitlyChanced ∧
      ((s.removeRelation child mother).poolPoolGroups m).equalChanced.Sublist
        (s.poolPoolGroups m).equalChanced := by
    intro m
    unfold PoolMgr.removeRelation
    dsimp only
    by_cases same : m = mother
    · subst same
      rw [Function.update_self]
      exact ⟨List.eraseP_sublist, List.eraseP_sublist⟩
    · rw [Function.update_of_ne same]
      exact ⟨List.Sublist.refl _, List.Sublist.refl _⟩
  constructor
  · intro m c isUp'
    obtain ⟨apart, before⟩ := up_removeRelation.mp isUp'
    obtain ⟨first, isChild⟩ := checked.up m c before
    exact ⟨first, childOf_removeRelation (fun both => apart both.1) isChild⟩
  · exact fun m => (smaller m).1.trans (checked.explicit m)
  · exact fun m => (smaller m).2.trans (checked.equal m)
  · intro c m isChild isGone
    by_cases before : s.ChildOf c m
    · by_cases isIt : c = child ∧ m = mother
      · obtain ⟨rfl, rfl⟩ := isIt
        have back' : ReflTransGen (Function.swap loaded.ChildOf) c m :=
          ReflTransGen.mono (fun a b isUp => checked.childOf (checked.up a b isUp).2) c m back
        exact back'.swap
      · exact absurd (childOf_removeRelation isIt before) isGone
    · exact checked.removed c m isChild before
  · intro c m first isGone once isChild
    have before : s.ChildOf c m := has_mono (smaller m).1 (smaller m).2 isChild
    by_cases still : s.Up m c
    · obtain rfl : c = child := by
        by_contra apart
        exact isGone (up_removeRelation.mpr ⟨apart, still⟩)
      obtain rfl : m = mother := Option.some.inj (still.symm.trans isUp)
      have once' : (s.poolPoolGroups m).Once c :=
        ⟨(((checked.explicit m).map _).count_le _).trans once.1,
          (((checked.equal m).map _).count_le _).trans once.2⟩
      unfold ChildOf PoolMgr.removeRelation at isChild
      dsimp only at isChild
      rw [Function.update_self] at isChild
      exact not_has_removeOneRelation once' isChild
    · exact checked.gone c m first still once before
  · exact fun i below => Subrelation.accessible (fun isUp => (up_removeRelation.mp isUp).2)
      (checked.ends i below)

theorem Checked.isLoaded (checked : Checked loaded count s) (isLoaded : Loaded maxPoolId loaded) :
    Loaded maxPoolId s where
  child := fun c m isChild => isLoaded.child c m (checked.childOf isChild)
  up := by
    intro m c isUp
    obtain ⟨first, isChild⟩ := checked.up m c isUp
    obtain ⟨motherSmall, childSmall, apart, -⟩ := isLoaded.up m c first
    exact ⟨motherSmall, childSmall, apart, isChild⟩

theorem checkCircles_spec (isLoaded : Loaded maxPoolId loaded) (n : Nat) : ∀ (count : Nat)
    (s : PoolMgr), Checked loaded count s → count + n ≤ maxPoolId →
    ∃ s', checkCircles maxPoolId (List.range' count n) s = some s' ∧ Checked loaded (count + n) s' := by
  induction n with
  | zero => exact fun _ s checked _ => ⟨s, rfl, checked⟩
  | succ n ih =>
    intro count s checked few
    rw [List.range'_succ, checkCircles]
    have grown : ∀ {s' : PoolMgr}, Checked loaded count s' → Acc s'.Up count →
        Checked loaded (count + 1) s' := fun checked' acc => { checked' with
      ends := fun i below => (Nat.lt_succ_iff_lt_or_eq.mp below).elim (checked'.ends i)
        fun same => same ▸ acc }
    have next : count + (n + 1) = count + 1 + n := by omega
    rw [next]
    rcases findCircle_spec (checked.isLoaded isLoaded) (maxPoolId + 1) count []
      (List.nodup_singleton _) (fun _ member => absurd member List.not_mem_nil) (by omega)
      (fun _ member => absurd member List.not_mem_nil) rfl
      with ⟨ends, acc⟩ | ⟨child, mother, circle, isUp, back, acc⟩
    · rw [ends]
      exact ih _ s (grown checked acc) (by omega)
    · rw [circle]
      exact ih _ _ (grown (checked.removeRelation isUp back) acc) (by omega)

theorem cycle_of_steps {α : Type*} {r r' : α → α → Prop}
    (steps : ∀ a b, r a b → ReflTransGen r b a → r' a b) {a b : α} (path : TransGen r a b) :
    ReflTransGen r b a → TransGen r' a b := by
  induction path with
  | single step => exact fun back => TransGen.single (steps _ _ step back)
  | tail before step ih =>
    intro back
    exact (ih (ReflTransGen.head step back)).tail
      (steps _ _ step (back.trans before.to_reflTransGen))

/-- **Circles are found** if they are of first rows that are not repeated; and the check always ends,
and removes nothing that is not on a circle. -/
theorem circles_found (maxPoolId : Nat) (maxLimit : Nat → Nat) (rows : List PoolPoolRow)
    (firstRows : FirstRows (loadRows maxPoolId maxLimit rows)) :
    ∃ s, loadPoolPool maxPoolId maxLimit rows = some s ∧
      Uncircled (loadRows maxPoolId maxLimit rows) s := by
  have isLoaded : Loaded maxPoolId _ := loaded_loadRows maxLimit rows
  rw [loadPoolPool]
  generalize loadRows maxPoolId maxLimit rows = loaded at firstRows isLoaded ⊢
  obtain ⟨s, isEnd, checked⟩ := checkCircles_spec isLoaded maxPoolId 0 loaded
    ⟨fun m c isUp => ⟨isUp, (isLoaded.up m c isUp).2.2.2⟩, fun _ => List.Sublist.refl _,
      fun _ => List.Sublist.refl _, fun _ _ isChild isGone => absurd isChild isGone,
      fun _ _ isUp isGone => absurd isUp isGone, fun _ below => absurd below (Nat.not_lt_zero _)⟩
    (by omega)
  rw [Nat.zero_add] at checked
  have own := checked.isLoaded isLoaded
  have finite : (Set.Iic maxPoolId).Finite := Set.finite_Iic _
  have chain : ∀ pool, Acc s.Up pool := fun pool => Acc.intro pool fun mother isUp => by
    obtain ⟨small, -, -, -⟩ := own.up mother pool isUp
    rcases Nat.lt_or_eq_of_le small with below | rfl
    · exact checked.ends mother below
    · refine Acc.intro _ fun mother' isUp' => ?_
      obtain ⟨small', -, apart, -⟩ := own.up mother' _ isUp'
      exact checked.ends mother' (Nat.lt_of_le_of_ne small' apart)
  have noCycle : ∀ pool, ¬ TransGen s.ChildOf pool pool := by
    intro pool cycle
    have cycle' : TransGen (Function.swap s.Up) pool pool := by
      refine cycle_of_steps (fun c m isChild back => ?_) cycle ReflTransGen.refl
      obtain ⟨first, once⟩ := firstRows c m (checked.childOf isChild)
        (ReflTransGen.mono (fun _ _ => checked.childOf) m c back)
      by_contra isGone
      exact checked.gone c m first isGone once isChild
    exact (acc_iff_no_cycle finite fun isUp => (own.up _ _ isUp).1).mp (chain pool) pool cycle'.swap
      cycle'.swap
  refine ⟨s, ?_, noCycle, fun pool => ?_, checked.removed⟩
  · rw [List.range_eq_range']
    exact isEnd
  · exact (acc_iff_no_cycle finite fun isChild => own.child _ _ isChild).mpr fun b _ => noCycle b

def noPools : PoolMgr := ⟨fun _ => ⟨0, [], []⟩, fun _ => none⟩

/-- Two pools that are in each other -/
theorem circles_found_of_two : ∃ s, loadPoolPool 2 (fun _ => 1) [⟨1, 2, 0⟩, ⟨2, 1, 0⟩] = some s ∧
    Uncircled (loadRows 2 (fun _ => 1) [⟨1, 2, 0⟩, ⟨2, 1, 0⟩]) s := by
  refine circles_found 2 _ _ fun child mother isChild _ => ?_
  have rows : loadRows 2 (fun _ => 1) [⟨1, 2, 0⟩, ⟨2, 1, 0⟩] =
      (noPools.addRow (fun _ => 1) ⟨1, 2, 0⟩).addRow (fun _ => 1) ⟨2, 1, 0⟩ := rfl
  rw [rows, childOf_addRow, childOf_addRow] at isChild
  rcases isChild with (nothing | ⟨rfl, rfl⟩) | ⟨rfl, rfl⟩
  · rcases nothing with member | member
    · cases member
    · cases member
  · exact ⟨rfl, by decide, by decide⟩
  · exact ⟨rfl, by decide, by decide⟩

/-- The pool 1 is in the pools 2 and 3, and 3 is in 1: the search map has 2 for it only. -/
theorem circle_left : ¬ ∀ (maxPoolId : Nat) (maxLimit : Nat → Nat) (rows : List PoolPoolRow),
    ∃ s, loadPoolPool maxPoolId maxLimit rows = some s ∧
      Uncircled (loadRows maxPoolId maxLimit rows) s := by
  intro always
  obtain ⟨s, isEnd, uncircled⟩ := always 3 (fun _ => 1) [⟨1, 2, 0⟩, ⟨1, 3, 0⟩, ⟨3, 1, 0⟩]
  have same : loadPoolPool 3 (fun _ => 1) [⟨1, 2, 0⟩, ⟨1, 3, 0⟩, ⟨3, 1, 0⟩] =
      some (((noPools.addRow (fun _ => 1) ⟨1, 2, 0⟩).addRow (fun _ => 1) ⟨1, 3, 0⟩).addRow (fun _ => 1)
        ⟨3, 1, 0⟩) := rfl
  cases same.symm.trans isEnd
  refine uncircled.noCycle 1 (TransGen.tail (b := 3) (TransGen.single ?_) ?_)
  · exact childOf_addRow.mpr (Or.inl (childOf_addRow.mpr (Or.inr ⟨rfl, rfl⟩)))
  · exact childOf_addRow.mpr (Or.inr ⟨rfl, rfl⟩)

end PoolMgr

end Sky548
