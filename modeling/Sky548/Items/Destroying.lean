import Sky548.Items.Accounting
import Sky548.Items.Conserving
import Sky548.Piles

/-!
# Destroying so many of an entry

`HasItemCount`, `DestroyItem` and `DestroyItemCount`. The items of an entry that are not in trade are
gone through in five loops with one total; the bags stay what they are unless bags are destroyed, so
that the loops are one over the places there are at first (`destroyItemCount_eq`), and what they leave
is what the library leaves of the stacks (`removed_iff`).
-/

namespace Sky548

open List Shelf

theorem Store.tidy_of_forall {κ ε α : Type*} [DecidableEq κ] {maxStack : ε → Nat} {w : Store κ ε α}
    (apart : (w.shelf.toList.map fun x => x.stack.guid).Nodup) (each : ∀ x ∈ w.shelf.toList,
      1 ≤ x.stack.count ∧ x.stack.count ≤ maxStack x.stack.entry ∧ x.stack.guid < w.nextGuid) :
    w.Tidy maxStack where
  apart := by
    intro k j t u foundT foundU same
    have isOne := inj_on_of_nodup_map apart (get?_eq_some_iff.mp foundT)
      (get?_eq_some_iff.mp foundU) same
    exact congrArg Placed.place isOne
  sized := fun _ _ found =>
    have one := each _ (get?_eq_some_iff.mp found)
    ⟨one.1, one.2.1⟩
  old := fun _ _ found => (each _ (get?_eq_some_iff.mp found)).2.2

namespace ItemRules

section Code

variable (R : ItemRules) (w : ItemWorld) (player : UInt64)

def isUntraded (entry : UInt32) (item : Item) : Bool := item.entry = entry && !item.attrs.inTrade

/-- How many there are in each stack of an entry, at some places, that is not in trade. -/
def stacksAt (entry : UInt32) (places : List Place) : List Nat :=
  places.filterMap fun k =>
    ((w.shelf.get? k).filter (isUntraded entry)).map Stack.count

def hasItemCount (entry count : UInt32) (inBankAlso : Bool) : Bool :=
  Piles.reaches (2 ^ 32) count.toNat 0 (stacksAt w entry
    (slotPlaces player equipmentSlotStart inventorySlotItemEnd ++
      inventoryBags.flatMap (R.bagPlaces w player) ++
      if inBankAlso then slotPlaces player bankSlotItemStart bankSlotItemEnd ++
        bankBags.flatMap (R.bagPlaces w player) else []))

/-- What a bag has in it is destroyed, slot after slot. -/
def destroyContents (slot : UInt8) : ItemWorld :=
  (List.range maxBagSize).foldl (fun w i =>
    R.moveItemFromInventory w player slot (UInt8.ofNat i)) w

/-- **`DestroyItem`**: the item at a position, and first what is in it. -/
def destroyItem (bag slot : UInt8) : ItemWorld :=
  match R.getItemByPos w player bag slot with
  | none => w
  | some pItem =>
    (if R.isNotEmptyBag w pItem then R.destroyContents w player slot else w).take
      (.inventory player bag slot)

/-- The loops of `DestroyItemCount`: the items, the total so far, and whether it has returned. -/
structure Destroying where
  world : ItemWorld
  remcount : Nat
  returned : Bool

/-- One position in one of the loops; `may` is whether an item may be destroyed there. -/
def destroyAt (entry count : UInt32) (may : UInt8 → UInt8 → Bool) (s : Destroying) :
    Place → Destroying
  | .bank _ _ => s
  | .inventory _ bag slot =>
    if s.returned then s
    else
      match R.getItemByPos s.world player bag slot with
      | none => s
      | some item =>
        if isUntraded entry item then
          if (item.count + s.remcount) % 2 ^ 32 ≤ count.toNat then
            if may bag slot then
              { world := R.destroyItem s.world player bag slot
                remcount := (s.remcount + item.count) % 2 ^ 32
                returned := count.toNat ≤ (s.remcount + item.count) % 2 ^ 32 }
            else s
          else
            { s with
              world := s.world.put (.inventory player bag slot)
                { item with count := (item.count + 2 ^ 32 - count.toNat + s.remcount) % 2 ^ 32 }
              returned := true }
        else s

def destroyInBags (entry count : UInt32) (bags : List UInt8) (s : Destroying) : Destroying :=
  bags.foldl (fun s bag => (R.bagPlaces s.world player bag).foldl
    (R.destroyAt player entry count fun _ _ => true) s) s

def destroyItemCount (now : Circumstances) (entry count : UInt32) (unequipCheck : Bool) : ItemWorld :=
  let inSlots (first last : Nat) (may : UInt8 → UInt8 → Bool) (s : Destroying) : Destroying :=
    (slotPlaces player first last).foldl (R.destroyAt player entry count may) s
  let s := inSlots inventorySlotItemStart inventorySlotItemEnd (fun _ _ => true) ⟨w, 0, false⟩
  let s := R.destroyInBags player entry count inventoryBags s
  let s := inSlots equipmentSlotStart inventorySlotBagEnd
    (fun bag slot => !unequipCheck || now.canUnequipItem player bag slot) s
  let s := inSlots bankSlotItemStart bankSlotItemEnd (fun _ _ => true) s
  (R.destroyInBags player entry count bankBags s).world

/-- The places that `DestroyItemCount` goes through, in its order. -/
def destroyPlaces : List Place :=
  slotPlaces player inventorySlotItemStart inventorySlotItemEnd ++
    (inventoryBags.flatMap (R.bagPlaces w player) ++
    (slotPlaces player equipmentSlotStart inventorySlotBagEnd ++
    (slotPlaces player bankSlotItemStart bankSlotItemEnd ++
    bankBags.flatMap (R.bagPlaces w player))))

/-- How many pieces of an entry a player has that are not in trade. -/
def available (entry : UInt32) : Nat := (stacksAt w entry (R.destroyPlaces w player)).sum

end Code

/-- So many pieces of an entry are gone, from items that are not in trade, and nothing else. -/
structure Removed (R : ItemRules) (player : UInt64) (entry : UInt32) (n : Nat)
    (w w' : ItemWorld) : Prop where
  units : Shelf.amount (Place.heldBy player) entry w'.shelf + n =
    Shelf.amount (Place.heldBy player) entry w.shelf
  untraded : R.available w' player entry + n = R.available w player entry
  others : ∀ here e, e ≠ entry → Shelf.amount here e w'.shelf = Shelf.amount here e w.shelf
  inTrade : ∀ k item, w.shelf.get? k = some item → item.attrs.inTrade = true →
    w'.shelf.get? k = some item
  sized : ∀ k item, w'.shelf.get? k = some item → 1 ≤ item.count

/-- **What is asked is removed**: so many, where there are so many, and all there is, where there are
less. -/
structure RemovesAsked (R : ItemRules) (w : ItemWorld) (player : UInt64) (now : Circumstances)
    (entry count : UInt32) : Prop where
  exact : R.hasItemCount w player entry count true = true →
    Removed R player entry count.toNat w (R.destroyItemCount w player now entry count false)
  all : R.available w player entry < count.toNat →
    Removed R player entry (R.available w player entry) w
      (R.destroyItemCount w player now entry count false)

variable {R : ItemRules} {w w' : ItemWorld} {player : UInt64} {entry count : UInt32} {k : Place}
  {item : Item} {may : UInt8 → UInt8 → Bool} {s : Destroying}

theorem stacksAt_append (places places' : List Place) :
    stacksAt w entry (places ++ places') = stacksAt w entry places ++ stacksAt w entry places' :=
  filterMap_append

theorem stacksAt_cons (places : List Place) :
    stacksAt w entry (k :: places) = stacksAt w entry [k] ++ stacksAt w entry places :=
  stacksAt_append [k] places

theorem stacksAt_singleton_some (there : w.shelf.get? k = some item)
    (isStack : isUntraded entry item = true) : stacksAt w entry [k] = [item.count] := by
  rw [stacksAt, filterMap_cons, there, Option.filter_some_pos isStack]
  rfl

theorem stacksAt_singleton_other (there : w.shelf.get? k = some item)
    (isOther : isUntraded entry item = false) : stacksAt w entry [k] = [] := by
  rw [stacksAt, filterMap_cons, there, Option.filter_some_neg isOther]
  rfl

theorem stacksAt_singleton_none (there : w.shelf.get? k = none) : stacksAt w entry [k] = [] := by
  rw [stacksAt, filterMap_cons, there]
  rfl

theorem stacksAt_congr {places : List Place}
    (same : ∀ k ∈ places, w'.shelf.get? k = w.shelf.get? k) :
    stacksAt w' entry places = stacksAt w entry places := by
  refine filterMap_congr fun k member => ?_
  rw [same k member]

variable {n : Nat}

theorem mem_stacksAt {places : List Place} (member : n ∈ stacksAt w entry places) :
    ∃ k item, w.shelf.get? k = some item ∧ item.count = n := by
  obtain ⟨k, -, isIt⟩ := List.mem_filterMap.mp member
  obtain ⟨item, filtered, isCount⟩ := Option.map_eq_some_iff.mp isIt
  exact ⟨k, item, (Option.filter_eq_some_iff.mp filtered).1, isCount⟩

theorem stacksAt_lt (tidy : w.Tidy R.maxStack) {places : List Place} :
    ∀ n ∈ stacksAt w entry places, n < 2 ^ 32 := by
  intro n member
  obtain ⟨k, item, there, rfl⟩ := mem_stacksAt member
  have largest := (R.getItemTemplate item.entry).getMaxStackSize_lt
  have sized := (tidy.sized k item there).2
  rw [maxStack] at sized
  omega

theorem entry_of_untraded (isStack : isUntraded entry item = true) : item.entry = entry := by
  rw [isUntraded, Bool.and_eq_true] at isStack
  exact of_decide_eq_true isStack.1

theorem isBag_of_untraded (plain : (R.getItemTemplate entry).inventoryType ≠ invtypeBag)
    (isStack : isUntraded entry item = true) : R.isBag item = false := by
  rw [isBag, entry_of_untraded isStack]
  exact decide_eq_false plain

/-- A world in which stacks of the entry that were not in trade are gone or smaller. -/
structure Reduced (entry : UInt32) (w w' : ItemWorld) : Prop where
  each : ∀ k, w'.shelf.get? k = w.shelf.get? k ∨
    ∃ item, w.shelf.get? k = some item ∧ isUntraded entry item = true ∧
      (w'.shelf.get? k = none ∨ ∃ n, 1 ≤ n ∧ n ≤ item.count ∧
        w'.shelf.get? k = some { item with count := n })
  nextGuid : w'.nextGuid = w.nextGuid

theorem Reduced.refl (entry : UInt32) (w : ItemWorld) : Reduced entry w w :=
  ⟨fun _ => Or.inl rfl, rfl⟩

theorem Reduced.trans {w'' : ItemWorld} (first : Reduced entry w w') (later : Reduced entry w' w'') :
    Reduced entry w w'' where
  each := by
    intro k
    rcases first.each k with same | ⟨item, there, isStack, fate⟩
    · have next := later.each k
      rwa [same] at next
    refine Or.inr ⟨item, there, isStack, ?_⟩
    rcases fate with gone | ⟨n, some, most, left⟩
    · rcases later.each k with same | ⟨other, found, -⟩
      · exact Or.inl (same.trans gone)
      · rw [gone] at found
        cases found
    · rcases later.each k with same | ⟨other, found, -, fate⟩
      · exact Or.inr ⟨n, some, most, same.trans left⟩
      rw [left] at found
      cases found
      rcases fate with gone | ⟨m, some', most', left'⟩
      · exact Or.inl gone
      · exact Or.inr ⟨m, some', Nat.le_trans most' most, left'⟩
  nextGuid := later.nextGuid.trans first.nextGuid

theorem Reduced.tidy (reduced : Reduced entry w w') (tidy : w.Tidy R.maxStack) :
    w'.Tidy R.maxStack := by
  have was : ∀ k item', w'.shelf.get? k = some item' → ∃ item, w.shelf.get? k = some item ∧
      item'.guid = item.guid ∧ item'.entry = item.entry ∧ 1 ≤ item'.count ∧
        item'.count ≤ item.count := by
    intro k item' there
    rcases reduced.each k with same | ⟨item, was, -, gone | ⟨n, some, most, left⟩⟩
    · rw [same] at there
      exact ⟨item', there, rfl, rfl, (tidy.sized k item' there).1, Nat.le_refl _⟩
    · rw [gone] at there
      cases there
    · rw [left] at there
      cases there
      exact ⟨item, was, rfl, rfl, some, most⟩
  constructor
  · intro k j t u foundT foundU same
    obtain ⟨t₀, wasT, guidT, -⟩ := was k t foundT
    obtain ⟨u₀, wasU, guidU, -⟩ := was j u foundU
    exact tidy.apart k j t₀ u₀ wasT wasU (guidT.symm.trans (same.trans guidU))
  · intro k t found
    obtain ⟨t₀, wasT, -, isEntry, some, most⟩ := was k t found
    have sized := (tidy.sized k t₀ wasT).2
    rw [isEntry]
    exact ⟨some, Nat.le_trans most sized⟩
  · intro k t found
    obtain ⟨t₀, wasT, isGuid, -⟩ := was k t found
    rw [isGuid, reduced.nextGuid]
    exact tidy.old k t₀ wasT

theorem getBagByPos_of_stacks (plain : (R.getItemTemplate entry).inventoryType ≠ invtypeBag)
    (each : ∀ k, w'.shelf.get? k = w.shelf.get? k ∨
      ∃ item, w.shelf.get? k = some item ∧ isUntraded entry item = true ∧
        (w'.shelf.get? k = none ∨ ∃ n, w'.shelf.get? k = some { item with count := n }))
    (bag : UInt8) : R.getBagByPos w' player bag = R.getBagByPos w player bag := by
  refine getBagByPos_of_same fun _ => ?_
  rcases each (.inventory player inventorySlotBag0 bag) with same | ⟨item, was, isStack, fate⟩
  · rw [same]
  have noBag := isBag_of_untraded plain isStack
  have none : (some item).filter R.isBag = none := Option.filter_some_neg noBag
  rw [was, none]
  rcases fate with gone | ⟨n, left⟩
  · rw [gone]
    rfl
  · rw [left]
    exact Option.filter_some_neg noBag

theorem Reduced.getBagByPos (reduced : Reduced entry w w')
    (plain : (R.getItemTemplate entry).inventoryType ≠ invtypeBag) (bag : UInt8) :
    R.getBagByPos w' player bag = R.getBagByPos w player bag := by
  refine getBagByPos_of_stacks plain (fun k => ?_) bag
  rcases reduced.each k with same | ⟨item, was, isStack, gone | ⟨n, -, -, left⟩⟩
  · exact Or.inl same
  · exact Or.inr ⟨item, was, isStack, Or.inl gone⟩
  · exact Or.inr ⟨item, was, isStack, Or.inr ⟨n, left⟩⟩

theorem stacksAt_take : stacksAt (w.take k) entry [k] = [] := by
  refine stacksAt_singleton_none ?_
  rw [Store.take, get?_take, if_pos rfl]

theorem stacksAt_put (isStack : isUntraded entry item = true) :
    stacksAt (w.put k { item with count := n }) entry [k] = [n] := by
  refine @stacksAt_singleton_some _ entry k { item with count := n } ?_ isStack
  rw [Store.put, get?_put, if_pos rfl]

theorem reduced_take (there : w.shelf.get? k = some item) (isStack : isUntraded entry item = true) :
    Reduced entry w (w.take k) := by
  refine ⟨fun j => ?_, rfl⟩
  rw [Store.take, get?_take]
  split
  · rename_i same
    exact Or.inr ⟨item, same ▸ there, isStack, Or.inl rfl⟩
  · exact Or.inl rfl

theorem reduced_put (there : w.shelf.get? k = some item)
    (isStack : isUntraded entry item = true) (some : 1 ≤ n) (most : n ≤ item.count) :
    Reduced entry w (w.put k { item with count := n }) := by
  refine ⟨fun j => ?_, rfl⟩
  rw [Store.put, get?_put]
  split
  · rename_i same
    exact Or.inr ⟨item, same ▸ there, isStack, Or.inr ⟨n, some, most, rfl⟩⟩
  · exact Or.inl rfl

/-! ## One position, and all of them -/

theorem destroyItem_eq {bag slot : UInt8} (found : R.getItemByPos w player bag slot = some item)
    (noBag : R.isBag item = false) :
    R.destroyItem w player bag slot = w.take (.inventory player bag slot) := by
  have empty : R.isNotEmptyBag w item = false := by
    rw [isNotEmptyBag, noBag]
    rfl
  rw [destroyItem, found]
  dsimp only
  rw [if_neg (ne_true_of_eq_false empty)]

theorem destroyAt_of_returned (returned : s.returned = true) (k : Place) :
    R.destroyAt player entry count may s k = s := by
  cases k with
  | bank tabId slotId => rfl
  | inventory owner bag slot => exact if_pos returned

theorem foldl_destroyAt_of_returned (returned : s.returned = true) (places : List Place) :
    places.foldl (R.destroyAt player entry count may) s = s := by
  induction places with
  | nil => rfl
  | cons k rest ih => rw [foldl_cons, destroyAt_of_returned returned, ih]

/-- What the amount of the entry and its stacks at a place come to, apart from each other. -/
def Balanced (entry : UInt32) (player : UInt64) (places : List Place) (w w' : ItemWorld) : Prop :=
  Shelf.amount (Place.heldBy player) entry w'.shelf + (stacksAt w entry places).sum =
    Shelf.amount (Place.heldBy player) entry w.shelf + (stacksAt w' entry places).sum

theorem destroyAt_cases (running : s.returned = false)
    (plain : (R.getItemTemplate entry).inventoryType ≠ invtypeBag)
    (reaches : Reaches R s.world player k) :
    stacksAt s.world entry [k] = [] ∧
        R.destroyAt player entry count (fun _ _ => true) s k = s ∨
      ∃ item, s.world.shelf.get? k = some item ∧ isUntraded entry item = true ∧
        R.destroyAt player entry count (fun _ _ => true) s k =
          if (item.count + s.remcount) % 2 ^ 32 ≤ count.toNat then
            { world := s.world.take k
              remcount := (s.remcount + item.count) % 2 ^ 32
              returned := count.toNat ≤ (s.remcount + item.count) % 2 ^ 32 }
          else
            { s with
              world := s.world.put k
                { item with count := (item.count + 2 ^ 32 - count.toNat + s.remcount) % 2 ^ 32 }
              returned := true } := by
  obtain ⟨bag, slot, rfl, reads⟩ := reaches.reads
  have turn : R.destroyAt player entry count (fun _ _ => true) s (.inventory player bag slot) =
      _ := if_neg (ne_true_of_eq_false running)
  cases there : s.world.shelf.get? (.inventory player bag slot) with
  | none =>
    rw [turn, reads, there]
    exact Or.inl ⟨stacksAt_singleton_none there, rfl⟩
  | some item =>
    rw [turn, reads, there]
    cases isStack : isUntraded entry item with
    | false =>
      refine Or.inl ⟨stacksAt_singleton_other there isStack, ?_⟩
      dsimp only
      rw [isStack]
      rfl
    | true =>
      have noBag := isBag_of_untraded plain isStack
      refine Or.inr ⟨item, rfl, isStack, ?_⟩
      dsimp only
      rw [isStack, if_pos rfl, if_pos rfl, destroyItem_eq (reads.trans there) noBag]

/-- What going through some places does. -/
structure Swept (entry count : UInt32) (player : UInt64) (places : List Place) (s s' : Destroying) :
    Prop where
  reduced : Reduced entry s.world s'.world
  elsewhere : ∀ k, k ∉ places → s'.world.shelf.get? k = s.world.shelf.get? k
  left : (stacksAt s'.world entry places).sum = (if s.returned then stacksAt s.world entry places
      else Piles.take (2 ^ 32) count.toNat s.remcount (stacksAt s.world entry places)).sum
  balanced : Balanced entry player places s.world s'.world
  others : ∀ here e, e ≠ entry →
    Shelf.amount here e s'.world.shelf = Shelf.amount here e s.world.shelf

theorem swept_self {places : List Place} (left : s.returned = true ∨ stacksAt s.world entry places = []) :
    Swept entry count player places s s where
  reduced := Reduced.refl entry s.world
  elsewhere := fun _ _ => rfl
  left := by
    rcases left with returned | none
    · rw [if_pos returned]
    · rw [none, Piles.take, ite_self]
  balanced := rfl
  others := fun _ _ _ => rfl

theorem amount_other {here : Place → Bool} {e : UInt32} (other : e ≠ entry)
    (isStack : isUntraded entry item = true) :
    Shelf.held here e k (some { item with count := n }) = 0 := by
  have isEntry := entry_of_untraded isStack
  refine if_neg fun both => other ?_
  rw [← both.2]
  exact isEntry

theorem held_stack (held : k.heldBy player = true) (isStack : isUntraded entry item = true) :
    Shelf.held (Place.heldBy player) entry k (some { item with count := n }) = n :=
  if_pos ⟨held, entry_of_untraded isStack⟩

theorem swept_take {remcount : Nat} {returned : Bool} (running : s.returned = false)
    (held : k.heldBy player = true) (there : s.world.shelf.get? k = some item)
    (isStack : isUntraded entry item = true)
    (whole : (item.count + s.remcount) % 2 ^ 32 ≤ count.toNat) :
    Swept entry count player [k] s ⟨s.world.take k, remcount, returned⟩ := by
  have before := stacksAt_singleton_some there isStack
  have after : stacksAt (s.world.take k) entry [k] = [] := stacksAt_take
  refine ⟨reduced_take there isStack, ?_, ?_, ?_, ?_⟩
  · intro j other
    change (s.world.shelf.take k).get? j = _
    rw [get?_take, if_neg (mt List.mem_singleton.mpr other)]
  · rw [after, before, running, if_neg Bool.false_ne_true, Piles.take, if_pos whole, Piles.take,
      ite_self]
    rfl
  · have taken := amount_take (Place.heldBy player) entry s.world.shelf k
    rw [there, held_stack held isStack] at taken
    rw [Balanced, after, before]
    exact taken
  · intro here e other
    have taken := amount_take here e s.world.shelf k
    rw [there, amount_other other isStack] at taken
    exact taken

theorem swept_put (running : s.returned = false)
    (held : k.heldBy player = true) (there : s.world.shelf.get? k = some item)
    (isStack : isUntraded entry item = true)
    (part : ¬ (item.count + s.remcount) % 2 ^ 32 ≤ count.toNat)
    (rest : (item.count + 2 ^ 32 - count.toNat + s.remcount) % 2 ^ 32 = n)
    (some : 1 ≤ n) (most : n ≤ item.count) :
    Swept entry count player [k] s ⟨s.world.put k { item with count := n }, s.remcount, true⟩ := by
  have before := stacksAt_singleton_some there isStack
  have after : stacksAt (s.world.put k { item with count := n }) entry [k] = [n] :=
    stacksAt_put isStack
  refine ⟨reduced_put there isStack some most, ?_, ?_, ?_, ?_⟩
  · intro j other
    change (s.world.shelf.put k _).get? j = _
    rw [get?_put, if_neg (mt List.mem_singleton.mpr other)]
  · rw [after, before, running, if_neg Bool.false_ne_true, Piles.take, if_neg part, rest]
  · have put := amount_put (Place.heldBy player) entry s.world.shelf k { item with count := n }
    rw [there, held_stack held isStack, held_stack held isStack] at put
    rw [Balanced, after, before]
    exact put
  · intro here e other
    have put := amount_put here e s.world.shelf k { item with count := n }
    rw [there, amount_other other isStack, amount_other other isStack] at put
    exact put

theorem left_of_part {c m taken : Nat} (small : c < 2 ^ 32) (word : m < 2 ^ 32) (few : taken ≤ m)
    (part : ¬ (c + taken) % 2 ^ 32 ≤ m) :
    (c + 2 ^ 32 - m + taken) % 2 ^ 32 = c + taken - m ∧ 1 ≤ c + taken - m ∧ c + taken - m ≤ c := by
  omega

theorem Swept.cons {places : List Place} {s' s'' : Destroying} (isNew : k ∉ places)
    (one : Swept entry count player [k] s s') (later : Swept entry count player places s' s'')
    (total : (stacksAt s'.world entry [k]).sum + (if s'.returned then stacksAt s.world entry places
          else Piles.take (2 ^ 32) count.toNat s'.remcount (stacksAt s.world entry places)).sum =
      (if s.returned then stacksAt s.world entry (k :: places)
        else Piles.take (2 ^ 32) count.toNat s.remcount
          (stacksAt s.world entry (k :: places))).sum) :
    Swept entry count player (k :: places) s s'' := by
  have same : stacksAt s'.world entry places = stacksAt s.world entry places :=
    stacksAt_congr fun j member => one.elsewhere j fun isK =>
      isNew (List.mem_singleton.mp isK ▸ member)
  have same' : stacksAt s''.world entry [k] = stacksAt s'.world entry [k] :=
    stacksAt_congr fun j member => later.elsewhere j fun isThere =>
      isNew (List.mem_singleton.mp member ▸ isThere)
  refine ⟨one.reduced.trans later.reduced, ?_, ?_, ?_, ?_⟩
  · intro j other
    rw [later.elsewhere j (not_mem_of_not_mem_cons other),
      one.elsewhere j (mt List.mem_singleton.mp (ne_of_not_mem_cons other))]
  · rw [← total, stacksAt_cons places, sum_append, same', later.left, same]
  · have first := one.balanced
    have rest := later.balanced
    rw [Balanced] at first rest ⊢
    rw [stacksAt_cons places, stacksAt_cons places, sum_append, sum_append, same', ← same]
    omega
  · exact fun here e other => (later.others here e other).trans (one.others here e other)

theorem reaches_of_bags (bags : ∀ bag, R.getBagByPos w' player bag = R.getBagByPos w player bag)
    (reaches : Reaches R w player k) : Reaches R w' player k := by
  obtain ⟨bag, slot, isPlace, own | ⟨pBag, isBag, small⟩⟩ := reaches
  · exact ⟨bag, slot, isPlace, Or.inl own⟩
  · exact ⟨bag, slot, isPlace, Or.inr ⟨pBag, (bags bag).trans isBag, small⟩⟩

section

variable (plain : (R.getItemTemplate entry).inventoryType ≠ invtypeBag)

include plain

theorem swept_foldl {places : List Place} : ∀ {s : Destroying}, places.Nodup →
      (∀ k ∈ places, Reaches R s.world player k) → s.world.Tidy R.maxStack →
      (s.returned = false → s.remcount ≤ count.toNat) →
      Swept entry count player places s
        (places.foldl (R.destroyAt player entry count fun _ _ => true) s) := by
  induction places with
  | nil => exact fun _ _ _ _ => swept_self (Or.inr rfl)
  | cons k rest ih =>
    intro s nodup reach tidy few
    obtain ⟨isNew, nodup'⟩ := List.nodup_cons.mp nodup
    obtain ⟨here, others⟩ := List.forall_mem_cons.mp reach
    cases running : s.returned with
    | true =>
      rw [foldl_destroyAt_of_returned running]
      exact swept_self (Or.inl running)
    | false =>
      have held := heldBy_of_reaches here
      rw [foldl_cons]
      rcases destroyAt_cases running plain here with ⟨none, same⟩ | ⟨item, there, isStack, step⟩
      · rw [same]
        refine Swept.cons isNew (swept_self (Or.inr none)) (ih nodup' others tidy few) ?_
        rw [stacksAt_cons rest, none]
        exact Nat.zero_add _
      · have before := stacksAt_singleton_some there isStack
        have small := @stacksAt_lt R s.world entry tidy [k] item.count
          (before ▸ mem_singleton_self _)
        have reaches : ∀ {w' : ItemWorld}, Reduced entry s.world w' →
            ∀ j ∈ rest, Reaches R w' player j := fun reduced j member =>
          reaches_of_bags (reduced.getBagByPos plain) (others j member)
        rw [step]
        by_cases whole : (item.count + s.remcount) % 2 ^ 32 ≤ count.toNat
        · rw [if_pos whole]
          have gone := reduced_take there isStack
          refine Swept.cons isNew (swept_take running held there isStack whole)
            (ih nodup' (reaches gone) (gone.tidy tidy) fun more => ?_) ?_
          · exact Nat.le_of_not_le (of_decide_eq_false more)
          · rw [stacksAt_cons rest, before, running, stacksAt_take, singleton_append, Piles.take,
              if_pos whole, if_neg Bool.false_ne_true, sum_cons]
            simp only [decide_eq_true_eq]
            rfl
        · rw [if_neg whole]
          obtain ⟨left, some, most⟩ := left_of_part small count.toNat_lt (few running) whole
          rw [left]
          have less := reduced_put there isStack some most
          refine Swept.cons isNew (swept_put running held there isStack whole left some most)
            (ih nodup' (reaches less) (less.tidy tidy) fun more => ?_) ?_
          · cases more
          · rw [stacksAt_cons rest, before, running, stacksAt_put isStack, singleton_append, Piles.take,
              if_neg whole, if_neg Bool.false_ne_true, left, sum_cons, if_pos rfl]
            rfl

theorem bags_destroyAt (s : Destroying) (k : Place) (bag : UInt8) :
    R.getBagByPos (R.destroyAt player entry count (fun _ _ => true) s k).world player bag =
      R.getBagByPos s.world player bag := by
  cases k with
  | bank tabId slotId => rfl
  | inventory owner bag' slot =>
    rw [destroyAt]
    split
    · rfl
    rcases found : R.getItemByPos s.world player bag' slot with _ | item
    · rfl
    have there : s.world.shelf.get? (.inventory player bag' slot) = some item := by
      obtain ⟨_, _, isPlace, reads⟩ := (reaches_of_getItemByPos found).reads
      cases isPlace
      exact reads.symm.trans found
    dsimp only
    rcases isStack : isUntraded entry item with _ | _
    · rfl
    rw [if_pos rfl, if_pos rfl]
    split
    · rw [destroyItem_eq found (isBag_of_untraded plain isStack)]
      exact (reduced_take there isStack).getBagByPos plain bag
    refine getBagByPos_of_stacks plain (fun j => ?_) bag
    rw [Store.put, get?_put]
    split
    · rename_i same
      exact Or.inr ⟨item, same ▸ there, isStack, Or.inr ⟨_, rfl⟩⟩
    · exact Or.inl rfl

theorem bags_foldl (places : List Place) : ∀ (s : Destroying) (bag : UInt8),
      R.getBagByPos (places.foldl (R.destroyAt player entry count fun _ _ => true) s).world player bag =
        R.getBagByPos s.world player bag := by
  induction places with
  | nil => exact fun _ _ => rfl
  | cons k rest ih => exact fun s bag => (ih _ bag).trans (bags_destroyAt plain s k bag)

end

theorem bagPlaces_congr (bags : ∀ bag, R.getBagByPos w' player bag = R.getBagByPos w player bag)
    (bag : UInt8) : R.bagPlaces w' player bag = R.bagPlaces w player bag := by
  rw [bagPlaces, bagPlaces, bags bag]

theorem destroyInBags_eq (plain : (R.getItemTemplate entry).inventoryType ≠ invtypeBag)
    (bagList : List UInt8) : ∀ (s : Destroying),
      (∀ bag, R.getBagByPos s.world player bag = R.getBagByPos w player bag) →
      R.destroyInBags player entry count bagList s = (bagList.flatMap (R.bagPlaces w player)).foldl
          (R.destroyAt player entry count fun _ _ => true) s := by
  induction bagList with
  | nil => exact fun _ _ => rfl
  | cons bag rest ih =>
    intro s bags
    rw [destroyInBags, foldl_cons, flatMap_cons, foldl_append, bagPlaces_congr bags bag]
    exact ih _ fun other => (bags_foldl plain _ s other).trans (bags other)

/-- **The loops go through the places that there are at first**, unless bags are destroyed. -/
theorem destroyItemCount_eq (now : Circumstances)
    (plain : (R.getItemTemplate entry).inventoryType ≠ invtypeBag) :
    R.destroyItemCount w player now entry count false =
      ((R.destroyPlaces w player).foldl (R.destroyAt player entry count fun _ _ => true)
        ⟨w, 0, false⟩).world := by
  have later := fun (places : List Place) (s : Destroying)
      (bags : ∀ bag, R.getBagByPos s.world player bag = R.getBagByPos w player bag) bag =>
    (@bags_foldl R player entry count plain places s bag).trans (bags bag)
  rw [destroyItemCount, destroyPlaces, foldl_append, foldl_append, foldl_append, foldl_append]
  have first := later (slotPlaces player inventorySlotItemStart inventorySlotItemEnd) ⟨w, 0, false⟩
    fun _ => rfl
  rw [destroyInBags_eq plain inventoryBags _ first]
  have second := later (inventoryBags.flatMap (R.bagPlaces w player)) _ first
  have third := later (slotPlaces player equipmentSlotStart inventorySlotBagEnd) _ second
  exact congrArg Destroying.world (destroyInBags_eq plain bankBags _
    (later (slotPlaces player bankSlotItemStart bankSlotItemEnd) _ third))

theorem slotPlaces_append {first mid last : Nat} (one : first ≤ mid) (two : mid ≤ last) :
    slotPlaces player first mid ++ slotPlaces player mid last = slotPlaces player first last := by
  have ranges := @range'_append_1 first (mid - first) (last - mid)
  rw [Nat.add_sub_cancel' one] at ranges
  rw [slotPlaces, slotPlaces, slotPlaces, ← map_append, ranges]
  congr 2
  omega

theorem nodup_slots {list : List Nat} (bag : UInt8) (nodup : list.Nodup)
    (small : ∀ slot ∈ list, slot < 256) :
    (list.map fun slot => Place.inventory player bag (UInt8.ofNat slot)).Nodup := by
  refine Nodup.map_on ?_ nodup
  intro a inA b inB same
  have values := congrArg UInt8.toNat (Place.inventory.inj same).2.2
  rw [UInt8.toNat_ofNat', UInt8.toNat_ofNat', Nat.mod_eq_of_lt (small a inA),
    Nat.mod_eq_of_lt (small b inB)] at values
  exact values

theorem nodup_slotPlaces {first last : Nat} (small : last ≤ 256) :
    (slotPlaces player first last).Nodup := by
  refine nodup_slots _ nodup_range' fun slot member => ?_
  have range := List.mem_range'_1.mp member
  omega

theorem eq_of_mem_bagPlaces {bag : UInt8} (member : k ∈ R.bagPlaces w player bag) :
    ∃ slot, k = .inventory player bag slot := by
  rw [bagPlaces] at member
  cases isBag : R.getBagByPos w player bag with
  | none =>
    rw [isBag] at member
    cases member
  | some pBag =>
    rw [isBag] at member
    obtain ⟨slot, -, rfl⟩ := List.mem_map.mp member
    exact ⟨_, rfl⟩

theorem nodup_bagPlaces (bag : UInt8) : (R.bagPlaces w player bag).Nodup := by
  rw [bagPlaces]
  rcases R.getBagByPos w player bag with _ | pBag
  · exact nodup_nil
  refine nodup_slots bag nodup_range fun slot member => ?_
  have small := (R.getItemTemplate pBag.entry).slots_le
  have range := List.mem_range.mp member
  rw [getBagSize] at range
  rw [maxBagSize] at small
  omega

theorem nodup_bagsPlaces {bagList : List UInt8} (nodup : bagList.Nodup) :
    (bagList.flatMap (R.bagPlaces w player)).Nodup := by
  refine List.nodup_flatMap.mpr ⟨fun bag _ => nodup_bagPlaces bag, nodup.imp ?_⟩
  intro a b differ k inA inB
  obtain ⟨slot, rfl⟩ := eq_of_mem_bagPlaces inA
  obtain ⟨slot', isPlace⟩ := eq_of_mem_bagPlaces inB
  cases isPlace
  exact differ rfl

theorem destroyPlaces_perm : (R.destroyPlaces w player).Perm
    (slotPlaces player equipmentSlotStart bankSlotItemEnd ++
      (inventoryBags ++ bankBags).flatMap (R.bagPlaces w player)) := by
  have slots : slotPlaces player equipmentSlotStart bankSlotItemEnd =
      slotPlaces player equipmentSlotStart inventorySlotBagEnd ++
        (slotPlaces player inventorySlotItemStart inventorySlotItemEnd ++
          slotPlaces player bankSlotItemStart bankSlotItemEnd) := by
    rw [← @slotPlaces_append player equipmentSlotStart inventorySlotBagEnd bankSlotItemEnd
      (by decide) (by decide)]
    congr 1
  rw [slots, flatMap_append, destroyPlaces]
  generalize slotPlaces player equipmentSlotStart inventorySlotBagEnd = equipment
  generalize slotPlaces player inventorySlotItemStart inventorySlotItemEnd = backpack
  generalize slotPlaces player bankSlotItemStart bankSlotItemEnd = bank
  generalize inventoryBags.flatMap (R.bagPlaces w player) = bags
  generalize bankBags.flatMap (R.bagPlaces w player) = bankContents
  refine List.perm_iff_count.mpr fun place => ?_
  simp only [count_append]
  omega

theorem nodup_destroyPlaces : (R.destroyPlaces w player).Nodup := by
  refine destroyPlaces_perm.nodup_iff.mpr (List.nodup_append.mpr ⟨?_, ?_, ?_⟩)
  · exact nodup_slotPlaces (by decide)
  · exact nodup_bagsPlaces (by decide)
  · intro k own k' inBag same
    obtain ⟨slot, -, rfl⟩ := List.mem_map.mp own
    obtain ⟨bag, isBag, inBag⟩ := List.mem_flatMap.mp inBag
    obtain ⟨slot', rfl⟩ := eq_of_mem_bagPlaces inBag
    cases same
    exact absurd isBag (by decide)

theorem reaches_destroyPlaces : ∀ k ∈ R.destroyPlaces w player, Reaches R w player k := by
  intro k member
  rcases List.mem_append.mp (destroyPlaces_perm.mem_iff.mp member) with own | inBags
  · exact reaches_slotPlaces (by decide) own
  · obtain ⟨bag, -, inBag⟩ := List.mem_flatMap.mp inBags
    exact reaches_bagPlaces inBag

theorem le_available_of_hasItemCount (has : R.hasItemCount w player entry count true = true) :
    count.toNat ≤ R.available w player entry := by
  have sum := Piles.le_sum_of_reaches has
  rw [Nat.zero_add, if_pos rfl] at sum
  have slots := @slotPlaces_append player equipmentSlotStart inventorySlotBagEnd inventorySlotItemEnd
    (by decide) (by decide)
  rw [← slots] at sum
  rw [available, destroyPlaces]
  simp only [stacksAt_append, sum_append] at sum ⊢
  have same : slotPlaces player inventorySlotBagEnd inventorySlotItemEnd =
    slotPlaces player inventorySlotItemStart inventorySlotItemEnd := rfl
  rw [same] at sum
  omega

/-- Of stacks that come to less than so many, none brings the total to 2^32 with the next. -/
def Countable (R : ItemRules) (w : ItemWorld) (player : UInt64) (entry count : UInt32) : Prop :=
  Piles.Contained (2 ^ 32) count.toNat 0 (stacksAt w entry (R.destroyPlaces w player))

theorem swept_destroyItemCount (now : Circumstances) (tidy : w.Tidy R.maxStack)
    (plain : (R.getItemTemplate entry).inventoryType ≠ invtypeBag) :
    ∃ s, s.world = R.destroyItemCount w player now entry count false ∧
      Swept entry count player (R.destroyPlaces w player) ⟨w, 0, false⟩ s :=
  ⟨_, (destroyItemCount_eq now plain).symm, swept_foldl plain nodup_destroyPlaces
    reaches_destroyPlaces tidy fun _ => Nat.zero_le _⟩

theorem available_destroyItemCount (now : Circumstances) (tidy : w.Tidy R.maxStack)
    (plain : (R.getItemTemplate entry).inventoryType ≠ invtypeBag) :
    R.available (R.destroyItemCount w player now entry count false) player entry =
      (Piles.take (2 ^ 32) count.toNat 0 (stacksAt w entry (R.destroyPlaces w player))).sum := by
  obtain ⟨s, isWorld, swept⟩ := @swept_destroyItemCount R w player entry count now tidy plain
  have same := bagPlaces_congr fun bag => @Reduced.getBagByPos R _ _ player entry swept.reduced plain bag
  have left := swept.left
  rw [if_neg Bool.false_ne_true] at left
  rw [← isWorld, ← left, available, destroyPlaces, destroyPlaces]
  congr 2
  simp only [funext same]

theorem removed_iff (now : Circumstances) (tidy : w.Tidy R.maxStack)
    (plain : (R.getItemTemplate entry).inventoryType ≠ invtypeBag) :
    Removed R player entry (min count.toNat (R.available w player entry)) w
        (R.destroyItemCount w player now entry count false) ↔
      Countable R w player entry count := by
  have small := @stacksAt_lt R w entry tidy (R.destroyPlaces w player)
  have sum := Piles.sum_take_iff small count.toNat_lt
  have left := @available_destroyItemCount R w player entry count now tidy plain
  constructor
  · intro removed
    have untraded := removed.untraded
    rw [left] at untraded
    exact sum.mp untraded
  · intro countable
    have taken := sum.mpr countable
    obtain ⟨s, isWorld, swept⟩ := @swept_destroyItemCount R w player entry count now tidy plain
    have reduced := swept.reduced
    have balanced := swept.balanced
    have others := swept.others
    have swept := swept.left
    rw [if_neg Bool.false_ne_true] at swept
    rw [isWorld] at reduced balanced others swept
    rw [Balanced, swept] at balanced
    dsimp only at balanced
    refine ⟨?_, ?_, others, ?_, ?_⟩
    · rw [available]
      omega
    · rw [left]
      exact taken
    · intro k item there inTrade
      rcases reduced.each k with same | ⟨other, was, isStack, -⟩
      · exact same.trans there
      · rw [there] at was
        cases was
        rw [isUntraded, inTrade, Bool.not_true, Bool.and_false] at isStack
        cases isStack
    · exact fun k item there => ((reduced.tidy tidy).sized k item there).1

theorem Reduced.stacksAt_other (reduced : Reduced entry w w') {e : UInt32} (other : e ≠ entry)
    (places : List Place) : stacksAt w' e places = stacksAt w e places := by
  have notThis : ∀ {item : Item}, item.entry = entry → isUntraded e item = false := by
    intro item isEntry
    rw [isUntraded, isEntry, decide_eq_false other.symm]
    rfl
  refine filterMap_congr fun k _ => ?_
  rcases reduced.each k with same | ⟨item, was, isStack, fate⟩
  · rw [same]
  have isEntry := entry_of_untraded isStack
  rw [was, Option.filter_some_neg (notThis isEntry)]
  rcases fate with gone | ⟨n, -, -, left⟩
  · rw [gone]
    rfl
  · have isOther : isUntraded e { item with count := n } = false := notThis isEntry
    rw [left, Option.filter_some_neg isOther]

/-- What `DestroyItemCount` does where there are less than 2^32 pieces. -/
structure Destroyed (R : ItemRules) (player : UInt64) (entry : UInt32) (count : Nat)
    (w w' : ItemWorld) : Prop where
  tidy : w'.Tidy R.maxStack
  available : R.available w' player entry = R.available w player entry - count
  others : ∀ e, e ≠ entry → R.available w' player e = R.available w player e
  units : ∀ e, Shelf.amount (Place.heldBy player) e w'.shelf + R.available w player e =
    Shelf.amount (Place.heldBy player) e w.shelf + R.available w' player e

theorem destroyed (now : Circumstances) (tidy : w.Tidy R.maxStack)
    (plain : (R.getItemTemplate entry).inventoryType ≠ invtypeBag)
    (few : R.available w player entry < 2 ^ 32) :
    Destroyed R player entry count.toNat w (R.destroyItemCount w player now entry count false) := by
  have removed := (@removed_iff R w player entry count now tidy plain).mpr
    (@Piles.contained_of_sum_lt _ count.toNat _ few)
  obtain ⟨s, isWorld, swept⟩ := @swept_destroyItemCount R w player entry count now tidy plain
  have reduced := swept.reduced
  rw [isWorld] at reduced
  have same := bagPlaces_congr fun bag => @Reduced.getBagByPos R _ _ player entry reduced plain bag
  have others : ∀ e, e ≠ entry → R.available (R.destroyItemCount w player now entry count false)
      player e = R.available w player e := by
    intro e other
    rw [ItemRules.available, ItemRules.available, destroyPlaces, destroyPlaces,
      reduced.stacksAt_other other]
    simp only [funext same]
  refine ⟨reduced.tidy tidy, ?_, others, ?_⟩
  · have untraded := removed.untraded
    omega
  intro e
  by_cases isEntry : e = entry
  · have untraded := removed.untraded
    have units := removed.units
    rw [isEntry]
    omega
  · rw [others e isEntry, removed.others _ e isEntry]

/-- **What is asked is removed exactly when**, if `HasItemCount` says that there are so many, no stack
brings the count to 2^32 before so many are counted. -/
theorem removesAsked_iff (R : ItemRules) (w : ItemWorld) (player : UInt64) (now : Circumstances)
    (entry count : UInt32) (tidy : w.Tidy R.maxStack)
    (plain : (R.getItemTemplate entry).inventoryType ≠ invtypeBag) :
    RemovesAsked R w player now entry count ↔
      (R.hasItemCount w player entry count true = true → Countable R w player entry count) := by
  constructor
  · intro removes has
    have removed := removes.exact has
    have enough := le_available_of_hasItemCount has
    rw [← Nat.min_eq_left enough] at removed
    exact (removed_iff now tidy plain).mp removed
  · intro countable
    constructor
    · intro has
      have enough := le_available_of_hasItemCount has
      have removed := (@removed_iff R w player entry count now tidy plain).mpr (countable has)
      rwa [Nat.min_eq_left enough] at removed
    · intro less
      have fits := @Piles.contained_of_sum_lt _ count.toNat _ (Nat.lt_trans less count.toNat_lt)
      have removed := (@removed_iff R w player entry count now tidy plain).mpr fits
      rwa [Nat.min_eq_right (Nat.le_of_lt less)] at removed

def threeTens : ItemWorld where
  shelf :=
    { toList :=
        [⟨.inventory 1 255 23, newItem 10 1 1 10⟩, ⟨.inventory 1 255 24, newItem 11 1 1 10⟩,
          ⟨.inventory 1 255 25, newItem 12 1 1 10⟩]
      nodup := by decide }
  nextGuid := 20

theorem removesAsked_threeTens :
    RemovesAsked (.tradeGoods 0) threeTens 1 ⟨fun _ _ _ => true, fun _ => 0⟩ 1 25 := by
  refine (removesAsked_iff (.tradeGoods 0) threeTens 1 ⟨fun _ _ _ => true, fun _ => 0⟩ 1 25
    (Store.tidy_of_forall (by decide) (by decide)) (by decide)).mpr fun _ => ?_
  exact Piles.contained_of_sum_lt (by decide +kernel)

def countlessGoods : ItemRules where
  getItemTemplate := fun _ =>
    { class' := 7, subClass := 0, inventoryType := 0, bindToAccount := false, maxCount := 0
      stackable := 2147483647, containerSlots := 0, bonding := .noBind, bagFamily := 0
      gemProperties := 0, socketColor := 0, itemLimitCategory := 0, stackable_lt := by decide
      slots_le := noSlots_le }
  limitCategory := fun _ => none

/-- Four stacks of 2147483646 and one of 5 in the backpack. -/
def hugeStacks : ItemWorld where
  shelf :=
    { toList :=
        [⟨.inventory 1 255 23, newItem 10 1 1 2147483646⟩,
          ⟨.inventory 1 255 24, newItem 11 1 1 2147483646⟩,
          ⟨.inventory 1 255 25, newItem 12 1 1 2147483646⟩,
          ⟨.inventory 1 255 26, newItem 13 1 1 2147483646⟩, ⟨.inventory 1 255 27, newItem 14 1 1 5⟩]
      nodup := by decide }
  nextGuid := 20

/-- Of 8589934589 pieces 4294967293 are to be destroyed, and none is left. -/
theorem not_removesAsked_hugeStacks :
    ¬ RemovesAsked countlessGoods hugeStacks 1 ⟨fun _ _ _ => true, fun _ => 0⟩ 1 4294967293 := by
  intro removes
  have untraded := (removes.exact (by decide +kernel)).untraded
  have before : countlessGoods.available hugeStacks 1 1 = 8589934589 := by decide +kernel
  have after : countlessGoods.available (countlessGoods.destroyItemCount hugeStacks 1
      ⟨fun _ _ _ => true, fun _ => 0⟩ 1 4294967293 false) 1 1 = 0 := by decide +kernel
  rw [before, after] at untraded
  cases untraded

end ItemRules

end Sky548
