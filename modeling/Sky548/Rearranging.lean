import Sky548.Stacks

/-!
# Rearranging a shelf

Moving a stack to an empty place, exchanging two stacks and carrying a box from one place to another
with all that is in it are one thing: a permutation of the places. Whatever becomes of the
attributes of the stacks, a rearranged shelf is as tidy as it was, counts the same in every part
that the permutation keeps, and has every object where the permutation says (`Rearranged.conserves`,
`Rearranged.has`).

Nothing here mentions the game server.
-/

namespace Sky548

open Shelf

namespace Stack

variable {ε α : Type*}

/-- A stack but for its attributes. -/
def core (t : Stack ε α) : Nat × ε × Nat := (t.guid, t.entry, t.count)

theorem of_core_eq {t u : Stack ε α} (same : t.core = u.core) :
    t.guid = u.guid ∧ t.entry = u.entry ∧ t.count = u.count :=
  ⟨congrArg Prod.fst same, congrArg (fun c => c.2.1) same, congrArg (fun c => c.2.2) same⟩

end Stack

namespace Shelf

variable {κ ε α : Type*} [DecidableEq κ]

def rename (π : Equiv.Perm κ) (s : Shelf κ ε α) : Shelf κ ε α :=
  ⟨s.toList.map fun x => ⟨π x.place, x.stack⟩, by
    have places : (s.toList.map fun x => (⟨π x.place, x.stack⟩ : Placed κ ε α)).map Placed.place =
        (s.toList.map Placed.place).map π := by
      rw [List.map_map, List.map_map]
      rfl
    rw [places]
    exact s.nodup.map π.injective⟩

theorem get?_rename (π : Equiv.Perm κ) (s : Shelf κ ε α) (k : κ) :
    (s.rename π).get? k = s.get? (π.symm k) := by
  refine Option.ext fun t => ?_
  rw [get?_eq_some_iff, get?_eq_some_iff, ← KeyedList.mem_toList, ← KeyedList.mem_toList]
  change _ ∈ s.toList.map _ ↔ _
  rw [List.mem_map]
  constructor
  · intro renamed
    obtain ⟨x, member, same⟩ := renamed
    obtain ⟨rfl, rfl⟩ := Placed.mk.inj same
    rw [Equiv.symm_apply_apply]
    exact member
  · intro member
    refine ⟨_, member, ?_⟩
    rw [Equiv.apply_symm_apply]

variable [DecidableEq ε] (here : κ → Bool) (e : ε)

omit [DecidableEq κ] in
theorem amount_rename {π : Equiv.Perm κ} (s : Shelf κ ε α) (keeps : ∀ k, here (π k) = here k) :
    amount here e (s.rename π) = amount here e s := by
  rw [amount, amount, KeyedList.sumBy, KeyedList.sumBy]
  change ((s.toList.map _).map _).sum = _
  rw [List.map_map]
  refine congrArg List.sum (List.map_congr_left fun x _ => ?_)
  change (if here (π x.place) = true ∧ _ then _ else 0) = if here x.place = true ∧ _ then _ else 0
  rw [keeps]

theorem amount_of_core {s s' : Shelf κ ε α}
    (same : ∀ k, (s'.get? k).map Stack.core = (s.get? k).map Stack.core) :
    amount here e s' = amount here e s := by
  have bare : ∀ s : Shelf κ ε α, amount here e s =
      ((s.toList.map fun x => (x.place, x.stack.core)).map fun y =>
        if here y.1 ∧ y.2.2.1 = e then y.2.2.2 else 0).sum := by
    intro s
    rw [amount, KeyedList.sumBy, List.map_map]
    rfl
  have nodup : ∀ s : Shelf κ ε α, (s.toList.map fun x => (x.place, x.stack.core)).Nodup := by
    intro s
    refine List.Nodup.of_map Prod.fst ?_
    rw [List.map_map]
    exact s.nodup
  have mem : ∀ (s : Shelf κ ε α) (y : κ × Nat × ε × Nat),
      y ∈ (s.toList.map fun x => (x.place, x.stack.core)) ↔
        (s.get? y.1).map Stack.core = some y.2 := by
    intro s y
    rw [List.mem_map, Option.map_eq_some_iff]
    constructor
    · intro listed
      obtain ⟨x, member, rfl⟩ := listed
      exact ⟨x.stack, get?_eq_some_iff.mpr member, rfl⟩
    · intro found
      obtain ⟨t, there, isCore⟩ := found
      exact ⟨⟨y.1, t⟩, get?_eq_some_iff.mp there, Prod.ext rfl isCore⟩
  have perm : (s'.toList.map fun x => (x.place, x.stack.core)).Perm
      (s.toList.map fun x => (x.place, x.stack.core)) := by
    rw [List.perm_ext_iff_of_nodup (nodup s') (nodup s)]
    intro y
    rw [mem, mem, same]
  rw [bare, bare]
  exact (perm.map _).sum_nat

end Shelf

namespace Handling

variable {κ ε α : Type*} {h h' : Handling κ ε α}

theorem Fits.of_maxStack {view : κ → Option (Stack ε α)} {t : Stack ε α} {dest : List (κ × Nat)}
    (fits : h.Fits view t dest) (same : h'.maxStack = h.maxStack) : h'.Fits view t dest where
  distinct := fits.distinct
  room := by
    intro pc member
    rw [Room, same]
    exact fits.room pc member
  total := fits.total

theorem fits_join {view : κ → Option (Stack ε α)} {t u : Stack ε α} {k : κ}
    (positive : 1 ≤ t.count) (there : view k = some u) (same : u.entry = t.entry)
    (room : u.count + t.count ≤ h.maxStack t.entry) : h.Fits view t [(k, t.count)] where
  distinct := List.nodup_singleton _
  room := by
    intro pc member
    rw [List.mem_singleton.mp member]
    refine ⟨positive, ?_⟩
    rw [there]
    exact ⟨same, room⟩
  total := List.sum_singleton

end Handling

namespace Store

variable {κ ε α : Type*} [DecidableEq κ] {maxStack : ε → Nat} {w w' w'' : Store κ ε α}
  {π ρ : Equiv.Perm κ}

def rename (π : Equiv.Perm κ) (w : Store κ ε α) : Store κ ε α :=
  { w with shelf := w.shelf.rename π }

/-- At every place lies the object that lay at another one, where `π` says. -/
structure Rearranged (π : Equiv.Perm κ) (w w' : Store κ ε α) : Prop where
  shelf : ∀ k, (w'.shelf.get? k).map Stack.core = (w.shelf.get? (π k)).map Stack.core
  later : w.nextGuid ≤ w'.nextGuid

theorem rearranged_rename (π : Equiv.Perm κ) (w : Store κ ε α) :
    w.Rearranged π.symm (w.rename π) where
  shelf := fun k => by rw [rename, get?_rename]
  later := Nat.le_refl _

theorem Rearranged.trans (first : w.Rearranged π w') (second : w'.Rearranged ρ w'') :
    w.Rearranged (ρ.trans π) w'' where
  shelf := fun k => (second.shelf k).trans (first.shelf (ρ k))
  later := Nat.le_trans first.later second.later

theorem Rearranged.get? (arranged : w.Rearranged π w') {k : κ} {t : Stack ε α}
    (found : w'.shelf.get? k = some t) :
    ∃ u, w.shelf.get? (π k) = some u ∧ u.core = t.core := by
  have same := arranged.shelf k
  rw [found] at same
  exact Option.map_eq_some_iff.mp same.symm

theorem Rearranged.has (arranged : w.Rearranged π w') {k : κ} {t : Stack ε α}
    (found : w.shelf.get? k = some t) :
    ∃ u, w'.shelf.get? (π.symm k) = some u ∧ u.core = t.core := by
  have same := arranged.shelf (π.symm k)
  rw [Equiv.apply_symm_apply, found] at same
  exact Option.map_eq_some_iff.mp same

theorem Rearranged.tidy (arranged : w.Rearranged π w') (tidy : w.Tidy maxStack) :
    w'.Tidy maxStack where
  apart := by
    intro k j t u foundT foundU same
    obtain ⟨t', lay, isT⟩ := arranged.get? foundT
    obtain ⟨u', lay', isU⟩ := arranged.get? foundU
    have guids : t'.guid = u'.guid :=
      (Stack.of_core_eq isT).1.trans (same.trans (Stack.of_core_eq isU).1.symm)
    exact π.injective (tidy.apart _ _ t' u' lay lay' guids)
  sized := by
    intro k t found
    obtain ⟨t', lay, isT⟩ := arranged.get? found
    obtain ⟨-, entry, count⟩ := Stack.of_core_eq isT
    have sized := tidy.sized _ t' lay
    rwa [entry, count] at sized
  old := by
    intro k t found
    obtain ⟨t', lay, isT⟩ := arranged.get? found
    have old := tidy.old _ t' lay
    rw [(Stack.of_core_eq isT).1] at old
    exact Nat.lt_of_lt_of_le old arranged.later

theorem Rearranged.conserves [DecidableEq ε] {here : κ → Bool} (arranged : w.Rearranged π w')
    (tidy : w.Tidy maxStack) (keeps : ∀ k, here (π k) = here k)
    (frame : ∀ k, here k = false → w'.shelf.get? k = w.shelf.get? k) :
    w.Conserves maxStack here w' where
  amount := by
    intro e
    have keeps' : ∀ k, here (π.symm k) = here k := by
      intro k
      rw [← keeps, Equiv.apply_symm_apply]
    rw [← amount_rename here e w.shelf keeps']
    refine amount_of_core here e fun k => ?_
    rw [get?_rename, Equiv.symm_symm]
    exact arranged.shelf k
  tidy := arranged.tidy tidy
  frame := frame

variable {h h' : Handling κ ε α} {k j : κ} {t u : Stack ε α}

theorem storeItem_single (empty : w.shelf.get? k = none) :
    h.storeItem w t [(k, t.count)] = w.put k (h.settle k t) := by
  rw [Handling.storeItem, Handling.storeOne, empty]
  rfl

theorem get?_storeItem_single (empty : w.shelf.get? k = none) (i : κ) :
    (h.storeItem w t [(k, t.count)]).shelf.get? i =
      if i = k then some (h.settle k t) else w.shelf.get? i := by
  rw [storeItem_single empty, put, get?_put]

theorem rearranged_move (found : w.shelf.get? k = some t) (empty : w.shelf.get? j = none)
    (apart : k ≠ j) :
    w.Rearranged (Equiv.swap k j) (h.storeItem (w.take k) t [(j, t.count)]) where
  shelf := by
    intro i
    have empty' : (w.take k).shelf.get? j = none := by
      rw [take, get?_take, if_neg apart.symm]
      exact empty
    rw [get?_storeItem_single empty', take, get?_take]
    by_cases atJ : i = j
    · rw [if_pos atJ, atJ, Equiv.swap_apply_right, found]
      rfl
    rw [if_neg atJ]
    by_cases atK : i = k
    · rw [if_pos atK, atK, Equiv.swap_apply_left, empty]
    · rw [if_neg atK, Equiv.swap_apply_of_ne_of_ne atK atJ]
  later := by
    have empty' : (w.take k).shelf.get? j = none := by
      rw [take, get?_take, if_neg apart.symm]
      exact empty
    rw [storeItem_single empty']
    exact Nat.le_refl _

theorem get?_exchange (apart : k ≠ j) (i : κ) :
    (h'.storeItem (h.storeItem ((w.take j).take k) t [(j, t.count)]) u
      [(k, u.count)]).shelf.get? i =
      if i = k then some (h'.settle k u)
      else if i = j then some (h.settle j t) else w.shelf.get? i := by
  have emptyJ : ((w.take j).take k).shelf.get? j = none := by
    rw [take, get?_take, if_neg apart.symm, take, get?_take, if_pos rfl]
  have emptyK : (h.storeItem ((w.take j).take k) t [(j, t.count)]).shelf.get? k = none := by
    rw [get?_storeItem_single emptyJ, if_neg apart, take, get?_take, if_pos rfl]
  rw [get?_storeItem_single emptyK, get?_storeItem_single emptyJ]
  by_cases atK : i = k
  · rw [if_pos atK, if_pos atK]
  rw [if_neg atK, if_neg atK]
  by_cases atJ : i = j
  · rw [if_pos atJ, if_pos atJ]
  · rw [if_neg atJ, if_neg atJ, take, get?_take, if_neg atK, take, get?_take,
      if_neg atJ]

theorem rearranged_exchange (found : w.shelf.get? k = some t) (foundU : w.shelf.get? j = some u)
    (apart : k ≠ j) :
    w.Rearranged (Equiv.swap k j)
      (h'.storeItem (h.storeItem ((w.take j).take k) t [(j, t.count)]) u [(k, u.count)]) where
  shelf := by
    intro i
    rw [get?_exchange apart]
    by_cases atK : i = k
    · rw [if_pos atK, atK, Equiv.swap_apply_left, foundU]
      rfl
    rw [if_neg atK]
    by_cases atJ : i = j
    · rw [if_pos atJ, atJ, Equiv.swap_apply_right, found]
      rfl
    · rw [if_neg atJ, Equiv.swap_apply_of_ne_of_ne atK atJ]
  later := by
    have emptyJ : ((w.take j).take k).shelf.get? j = none := by
      rw [take, get?_take, if_neg apart.symm, take, get?_take, if_pos rfl]
    have emptyK : (h.storeItem ((w.take j).take k) t [(j, t.count)]).shelf.get? k = none := by
      rw [get?_storeItem_single emptyJ, if_neg apart, take, get?_take, if_pos rfl]
    rw [storeItem_single emptyK, storeItem_single emptyJ]
    exact Nat.le_refl _

/-- Every object of a store lies where it lay, in another store. -/
def Stays (w w' : Store κ ε α) : Prop :=
  ∀ k t, w.shelf.get? k = some t → ∃ u, w'.shelf.get? k = some u ∧ u.guid = t.guid ∧
    u.entry = t.entry

theorem stays_refl (w : Store κ ε α) : w.Stays w := fun _ t found => ⟨t, found, rfl, rfl⟩

theorem Stays.trans (first : w.Stays w') (second : w'.Stays w'') : w.Stays w'' := by
  intro k t found
  obtain ⟨u, there, guid, entry⟩ := first k t found
  obtain ⟨v, there', guid', entry'⟩ := second k u there
  exact ⟨v, there', guid'.trans guid, entry'.trans entry⟩

theorem stays_put (same : ∀ u, w.shelf.get? k = some u → t.guid = u.guid ∧ t.entry = u.entry) :
    w.Stays (w.put k t) := by
  intro j u found
  by_cases here : j = k
  · subst here
    refine ⟨t, ?_, same u found⟩
    rw [put, get?_put, if_pos rfl]
  · refine ⟨u, ?_, rfl, rfl⟩
    rw [put, get?_put, if_neg here]
    exact found

theorem stays_recount (count : Nat) (found : w.shelf.get? k = some t) :
    w.Stays (w.put k { t with count := count }) := by
  refine stays_put fun u lies => ?_
  obtain rfl := Option.some.inj (found.symm.trans lies)
  exact ⟨rfl, rfl⟩

theorem stays_storeItem {dest : List (κ × Nat)}
    (tidy : w.Tidy h.maxStack) (absent : ¬ w.Has t.guid) (known : t.guid < w.nextGuid)
    (roomy : h.Roomy w.shelf.get? t dest) : w.Stays (h.storeItem w t dest) := by
  refine Handling.storeItem_induction (P := fun _ w' => w.Stays w') tidy absent known roomy
    (stays_refl w) ?_
  intro copy done w₁ k count u w₂ _ _ _ stored stays
  refine stays.trans fun j v found => ?_
  rw [stored.shelf, get?_put]
  split
  · rename_i here
    subst here
    rcases stored.origin with ⟨x, occupied, entry, joined⟩ | ⟨empty, -⟩
    · obtain rfl := Option.some.inj (found.symm.trans occupied)
      exact ⟨u, rfl, joined, stored.entry.trans entry.symm⟩
    · rw [found] at empty
      cases empty
  · exact ⟨v, found, rfl, rfl⟩

variable [DecidableEq ε] {here : κ → Bool}

theorem Tidy.level (tidy : w.Tidy maxStack) (found : w.shelf.get? k = some t)
    (foundU : w.shelf.get? j = some u) (apart : k ≠ j) (same : u.entry = t.entry)
    (beyond : maxStack t.entry < t.count + u.count) (insideK : here k = true)
    (insideJ : here j = true) :
    w.Conserves maxStack here
      ((w.put k { t with count := t.count + u.count - maxStack t.entry }).put j
        { u with count := maxStack t.entry }) := by
  have sizedT := tidy.sized k t found
  have sizedU := tidy.sized j u foundU
  rw [same] at sizedU
  have tidy₁ : (w.put k { t with count := t.count + u.count - maxStack t.entry }).Tidy maxStack := by
    refine tidy.recount found ⟨Nat.sub_pos_of_lt beyond, ?_⟩
    omega
  have there : (w.put k { t with count := t.count + u.count - maxStack t.entry }).shelf.get? j =
      some u := by
    rw [Store.put, get?_put, if_neg apart.symm]
    exact foundU
  refine ⟨fun e => ?_, ?_, fun i outside => ?_⟩
  · have first := amount_put here e w.shelf k
      { t with count := t.count + u.count - maxStack t.entry }
    have second := amount_put here e
      (w.put k { t with count := t.count + u.count - maxStack t.entry }).shelf j
      { u with count := maxStack t.entry }
    rw [found, held_inside e insideK, held_inside e insideK] at first
    rw [there, held_inside e insideJ, held_inside e insideJ] at second
    change Shelf.amount here e ((w.put k _).shelf.put j _) = _
    change _ = Shelf.amount here e (w.shelf.put k _) + _ at second
    dsimp only at first second
    by_cases counts : t.entry = e
    · have countsU : u.entry = e := same.trans counts
      rw [if_pos counts, if_pos counts] at first
      rw [if_pos countsU, if_pos countsU] at second
      omega
    · have countsU : ¬ u.entry = e := fun isE => counts (same.symm.trans isE)
      rw [if_neg counts, if_neg counts] at first
      rw [if_neg countsU, if_neg countsU] at second
      omega
  · refine tidy₁.recount there ⟨Nat.le_trans sizedT.1 sizedT.2, ?_⟩
    exact Nat.le_of_eq (by rw [same])
  · rw [Store.put, get?_put, if_neg (ne_of_outside insideJ outside), Store.put,
      get?_put, if_neg (ne_of_outside insideK outside)]

end Store

end Sky548
