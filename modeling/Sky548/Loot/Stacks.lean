import Sky548.Loot.Fill
import Sky548.Machine

/-!
# Stacks of a drop

`Loot::AddItem` divides a count into stacks: how many there are, how large each is and
what remains are computed apart, in 32 bits, and a stack is stored in 8. `stackCounts` is
the division in whole numbers; what `AddItem` appends is as much of it as there is room for.
-/

namespace Sky548

open List

/-- The sizes of `n` stacks of at most `size`, as long as `count` lasts. -/
def stackCounts (size : Nat) : Nat → Nat → List Nat
  | 0, _ => []
  | n + 1, count => min count size :: stackCounts size n (count - size)

/-- The number of stacks that a count takes: all but the last are full. -/
structure Divides (size n count : Nat) : Prop where
  most : count ≤ n * size
  least : ∀ k, n = k + 1 → k * size < count

namespace Divides

variable {size n count : Nat}

theorem of_div (pos : 0 < size) :
    Divides size (count / size + if count % size ≠ 0 then 1 else 0) count := by
  have whole := Nat.div_add_mod count size
  have rest := Nat.mod_lt count pos
  rw [Nat.mul_comm] at whole
  by_cases none : count % size = 0
  · rw [if_neg (not_not.mpr none), Nat.add_zero]
    refine ⟨by omega, fun k isNext => ?_⟩
    rw [isNext, Nat.succ_mul] at whole
    omega
  · rw [if_pos none]
    refine ⟨?_, fun k isNext => ?_⟩
    · rw [Nat.succ_mul]
      omega
    · have same : count / size = k := Nat.succ.inj isNext
      rw [same] at whole
      omega

theorem next (divides : Divides size (n + 2) count) :
    size < count ∧ Divides size (n + 1) (count - size) := by
  obtain ⟨most, least⟩ := divides
  have below := least (n + 1) rfl
  have most' := most
  rw [Nat.succ_mul] at below most'
  refine ⟨by omega, by omega, fun k isNext => ?_⟩
  have same : n = k := Nat.succ.inj isNext
  subst same
  omega

theorem length_stackCounts (n count : Nat) : (stackCounts size n count).length = n := by
  induction n generalizing count with
  | zero => rfl
  | succ n ih => rw [stackCounts, length_cons, ih]

theorem stackCounts_bounds (pos : 0 < size) : ∀ {n count : Nat}, Divides size n count →
    ∀ k ∈ stackCounts size n count, 1 ≤ k ∧ k ≤ size := by
  intro n
  induction n with
  | zero => exact fun _ k member => absurd member not_mem_nil
  | succ n ih =>
    intro count divides k member
    have some := divides.least n rfl
    rcases List.mem_cons.mp member with rfl | inRest
    · omega
    · cases n with
      | zero => exact absurd inRest not_mem_nil
      | succ n => exact ih divides.next.2 k inRest

theorem sum_stackCounts : ∀ {n count : Nat}, Divides size n count →
    (stackCounts size n count).sum = count := by
  intro n
  induction n with
  | zero =>
    intro count divides
    have most := divides.most
    rw [Nat.zero_mul] at most
    exact (Nat.eq_zero_of_le_zero most).symm
  | succ n ih =>
    intro count divides
    rw [stackCounts, sum_cons]
    cases n with
    | zero =>
      have most := divides.most
      rw [Nat.zero_add, Nat.one_mul] at most
      rw [stackCounts, sum_nil]
      omega
    | succ n =>
      obtain ⟨more, divides'⟩ := divides.next
      rw [ih divides']
      omega

end Divides

def getMaxStackSize (stackable : Int32) : UInt32 :=
  if stackable = 2147483647 ∨ stackable ≤ 0 then 0x7FFFFFFE else stackable.toUInt32

theorem getMaxStackSize_pos (stackable : Int32) : 0 < (getMaxStackSize stackable).toNat := by
  unfold getMaxStackSize
  by_cases unlimited : stackable = 2147483647 ∨ stackable ≤ 0
  · rw [if_pos unlimited]
    decide
  rw [if_neg unlimited]
  rw [not_or] at unlimited
  apply Nat.pos_of_ne_zero
  intro zero
  apply unlimited.2
  have isZero : stackable.toUInt32 = 0 := UInt32.toNat_inj.mp zero
  have same : stackable = 0 := congrArg Int32.ofUInt32 isZero
  rw [same]
  exact Int32.le_refl 0

namespace Loot

def listFor (l : Loot) (needsQuest : Bool) : List LootItem :=
  if needsQuest then l.questItems else l.items

/-- `MAX_NR_QUEST_ITEMS` or `MAX_NR_LOOT_ITEMS` -/
def limitFor (needsQuest : Bool) : Nat := if needsQuest then maxNrQuestItems else maxNrLootItems

/-- One turn of the loop: an entry is appended to the list, and the other one stays. -/
structure Appends (drawn : LootStoreItem) (l l' : Loot) (added : List LootItem) : Prop where
  list : l'.listFor drawn.needsQuest = l.listFor drawn.needsQuest ++ added
  other : l'.listFor (!drawn.needsQuest) = l.listFor (!drawn.needsQuest)

def push (proto : ItemTemplate) (drawn : LootStoreItem) (count : UInt8) (l : Loot) : Loot :=
  let item := newItem proto drawn count
  let l' := if drawn.needsQuest then { l with questItems := l.questItems ++ [item] }
    else { l with items := l.items ++ [item] }
  if !drawn.needsQuest && drawn.conditions = [] && !proto.partyLoot then l'.incUnlooted else l'

theorem appends_push (proto : ItemTemplate) (drawn : LootStoreItem) (count : UInt8) (l : Loot) :
    Appends drawn l (l.push proto drawn count) [newItem proto drawn count] := by
  unfold push
  cases quest : drawn.needsQuest with
  | true =>
    constructor
    · rw [quest]
      rfl
    · rw [quest]
      rfl
  | false =>
    dsimp only
    split
    · constructor
      · rw [quest]
        rfl
      · rw [quest]
        rfl
    · constructor
      · rw [quest]
        rfl
      · rw [quest]
        rfl

theorem addStacks_succ (proto : ItemTemplate) (drawn : LootStoreItem) (n : Nat) (count : UInt32)
    (l : Loot) : addStacks proto drawn (n + 1) count l =
      if (l.listFor drawn.needsQuest).length ≥ limitFor drawn.needsQuest then l
      else addStacks proto drawn n (count - proto.maxStackSize)
        (l.push proto drawn (min count proto.maxStackSize).toUInt8) := by
  rw [addStacks]
  unfold listFor limitFor push
  cases quest : drawn.needsQuest <;> rfl

theorem addStacks_spec {proto : ItemTemplate} (drawn : LootStoreItem) (n : Nat) :
    ∀ {count : UInt32} (l : Loot), count.toNat < 256 →
      Divides proto.maxStackSize.toNat n count.toNat →
      ∃ added, Appends drawn l (addStacks proto drawn n count l) added ∧
        added.map (fun item => item.count.toNat) =
          (stackCounts proto.maxStackSize.toNat n count.toNat).take
            (limitFor drawn.needsQuest - (l.listFor drawn.needsQuest).length) := by
  induction n with
  | zero =>
    intro count l _ _
    refine ⟨[], ⟨(append_nil _).symm, rfl⟩, ?_⟩
    rw [stackCounts, take_nil, map_nil]
  | succ n ih =>
    intro count l small divides
    rw [addStacks_succ]
    by_cases full : (l.listFor drawn.needsQuest).length ≥ limitFor drawn.needsQuest
    · refine ⟨[], ?_, ?_⟩
      · rw [if_pos full]
        exact ⟨(append_nil _).symm, rfl⟩
      · rw [Nat.sub_eq_zero_of_le full, List.take_zero, map_nil]
    · rw [if_neg full]
      let stack := (min count proto.maxStackSize).toUInt8
      have isStack : stack.toNat = min count.toNat proto.maxStackSize.toNat := by
        have least : (min count proto.maxStackSize).toNat =
            min count.toNat proto.maxStackSize.toNat := by
          change (if count ≤ proto.maxStackSize then count else proto.maxStackSize).toNat = _
          split
          · rename_i few
            exact (Nat.min_eq_left (UInt32.le_iff_toNat_le.mp few)).symm
          · rename_i many
            rw [UInt32.le_iff_toNat_le] at many
            exact (Nat.min_eq_right (by omega)).symm
        rw [UInt32.toNat_toUInt8, least, Nat.mod_eq_of_lt (by omega)]
      have pushed := appends_push proto drawn stack l
      have room : limitFor drawn.needsQuest - (l.listFor drawn.needsQuest).length =
          limitFor drawn.needsQuest -
            ((l.push proto drawn stack).listFor drawn.needsQuest).length + 1 := by
        rw [pushed.list, length_append, length_singleton]
        omega
      -- the last turn may wrap, but no turn comes after it
      have rest : ∃ added, Appends drawn (l.push proto drawn stack)
          (addStacks proto drawn n (count - proto.maxStackSize) (l.push proto drawn stack)) added ∧
            added.map (fun item => item.count.toNat) = (stackCounts proto.maxStackSize.toNat n
                (count.toNat - proto.maxStackSize.toNat)).take (limitFor drawn.needsQuest -
                    ((l.push proto drawn stack).listFor drawn.needsQuest).length) := by
        cases n with
        | zero =>
          refine ⟨[], ⟨(append_nil _).symm, rfl⟩, ?_⟩
          rw [stackCounts, take_nil, map_nil]
        | succ n =>
          obtain ⟨more, divides'⟩ := divides.next
          have remains : (count - proto.maxStackSize).toNat =
              count.toNat - proto.maxStackSize.toNat :=
            UInt32.toNat_sub_of_le _ _ (UInt32.le_iff_toNat_le.mpr more.le)
          rw [← remains] at divides' ⊢
          exact ih _ (by omega) divides'
      obtain ⟨added, appends, counts⟩ := rest
      refine ⟨newItem proto drawn stack :: added, ⟨?_, ?_⟩, ?_⟩
      · rw [appends.list, pushed.list, append_assoc]
        rfl
      · rw [appends.other, pushed.other]
      · rw [map_cons, counts, room, stackCounts, take_succ_cons]
        congr 1

end Loot

structure SizedStore where
  store : ItemStore
  sized : ∀ id proto, store id = some proto →
    ∃ stackable, proto.maxStackSize = getMaxStackSize stackable

/-- A store item that `IsValid` accepts, and what `urand` gives for it. -/
structure StoreDrop where
  drawn : LootStoreItem
  mincount : UInt32
  maxcount : UInt8
  count : UInt32
  valid : 0 < mincount.toNat ∧ mincount.toNat ≤ maxcount.toNat
  inRange : mincount.toNat ≤ count.toNat ∧ count.toNat ≤ maxcount.toNat

namespace Loot

def addDrop (s : SizedStore) (l : Loot) (d : StoreDrop) : Loot := l.addItem s.store d.drawn d.count

/-- Neither list is longer than it may be. -/
def InLimits (l : Loot) : Prop := ∀ needsQuest, (l.listFor needsQuest).length ≤ limitFor needsQuest

/-- **The stacks of a drop**: they are those of the whole numbers, none is empty or too
large, and they add up to the count, unless the list is full. -/
def StacksUp (s : SizedStore) (l : Loot) (d : StoreDrop) : Prop :=
  ∀ proto, s.store d.drawn.itemid = some proto → ∃ added, Appends d.drawn l (l.addDrop s d) added ∧
      (∃ n, added.map (fun item => item.count.toNat) <+:
        stackCounts proto.maxStackSize.toNat n d.count.toNat) ∧
      (∀ item ∈ added, 1 ≤ item.count.toNat ∧ item.count.toNat ≤ proto.maxStackSize.toNat) ∧
      ((added.map fun item => item.count.toNat).sum = d.count.toNat ∨
        ((l.addDrop s d).listFor d.drawn.needsQuest).length = limitFor d.drawn.needsQuest)

theorem addDrop_spec (s : SizedStore) {l : Loot} (d : StoreDrop) {proto : ItemTemplate}
    (found : s.store d.drawn.itemid = some proto) :
    ∃ n added, Divides proto.maxStackSize.toNat n d.count.toNat ∧
      0 < proto.maxStackSize.toNat ∧ Appends d.drawn l (l.addDrop s d) added ∧
      added.map (fun item => item.count.toNat) =
        (stackCounts proto.maxStackSize.toNat n d.count.toNat).take
          (limitFor d.drawn.needsQuest - (l.listFor d.drawn.needsQuest).length) := by
  obtain ⟨stackable, sized⟩ := s.sized _ proto found
  have pos : 0 < proto.maxStackSize.toNat := sized ▸ getMaxStackSize_pos stackable
  have small : d.count.toNat < 256 := Nat.lt_of_le_of_lt d.inRange.2 d.maxcount.toNat_lt
  have divides : Divides proto.maxStackSize.toNat _ d.count.toNat := Divides.of_div pos
  let piles := d.count / proto.maxStackSize + if d.count % proto.maxStackSize ≠ 0 then 1 else 0
  have isStacks : piles.toNat = d.count.toNat / proto.maxStackSize.toNat +
      if d.count.toNat % proto.maxStackSize.toNat ≠ 0 then 1 else 0 := by
    have few := Nat.div_le_self d.count.toNat proto.maxStackSize.toNat
    have rest : d.count % proto.maxStackSize = 0 ↔
        d.count.toNat % proto.maxStackSize.toNat = 0 := by
      rw [← UInt32.toNat_inj, UInt32.toNat_mod]
      rfl
    change (d.count / proto.maxStackSize + if d.count % proto.maxStackSize ≠ 0 then 1 else 0).toNat
      = _
    by_cases none : d.count % proto.maxStackSize = 0
    · rw [if_neg (not_not.mpr none), if_neg (not_not.mpr (rest.mp none)), UInt32.add_zero,
        UInt32.toNat_div, Nat.add_zero]
    · rw [if_pos none, if_pos fun zero => none (rest.mpr zero), UInt32.toNat_add, UInt32.toNat_div]
      exact Nat.mod_eq_of_lt (by change _ + 1 < 2 ^ 32; omega)
  rw [← isStacks] at divides
  obtain ⟨added, appends, counts⟩ := addStacks_spec d.drawn piles.toNat l small divides
  refine ⟨piles.toNat, added, divides, pos, ?_, counts⟩
  unfold addDrop addItem
  rw [found]
  exact appends

theorem stacksUp_addDrop (s : SizedStore) (l : Loot) (d : StoreDrop) (within : InLimits l) :
    StacksUp s l d := by
  intro proto found
  obtain ⟨n, added, divides, pos, appends, counts⟩ := addDrop_spec s (l := l) d found
  refine ⟨added, appends, ⟨n, counts ▸ take_prefix _ _⟩, ?_, ?_⟩
  · intro item member
    have isCount : item.count.toNat ∈ added.map fun item => item.count.toNat :=
      List.mem_map_of_mem member
    rw [counts] at isCount
    exact Divides.stackCounts_bounds pos divides _ (mem_of_mem_take isCount)
  · have length := congrArg List.length counts
    rw [length_map, length_take, Divides.length_stackCounts] at length
    by_cases room : n ≤ limitFor d.drawn.needsQuest - (l.listFor d.drawn.needsQuest).length
    · left
      rw [counts, take_of_length_le (by rw [Divides.length_stackCounts]; exact room)]
      exact Divides.sum_stackCounts divides
    right
    have inList := within d.drawn.needsQuest
    rw [appends.list, length_append]
    omega

theorem inLimits_addDrop (s : SizedStore) (l : Loot) (d : StoreDrop) (within : InLimits l) :
    InLimits (l.addDrop s d) := by
  intro needsQuest
  cases found : s.store d.drawn.itemid with
  | none =>
    have same : l.addDrop s d = l := by
      unfold addDrop addItem
      rw [found]
    rw [same]
    exact within needsQuest
  | some proto =>
    obtain ⟨n, added, -, -, appends, counts⟩ := addDrop_spec s (l := l) d found
    have length := congrArg List.length counts
    rw [length_map, length_take] at length
    by_cases own : needsQuest = d.drawn.needsQuest
    · have inList := within d.drawn.needsQuest
      rw [own, appends.list, length_append]
      omega
    have other : needsQuest = !d.drawn.needsQuest := by
      cases needsQuest <;> cases quest : d.drawn.needsQuest <;> simp_all
    rw [other, appends.other]
    exact within _

end Loot

end Sky548
