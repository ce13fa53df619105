import Sky548.KeyedList

/-!
# Stacks on shelves

A store of countable goods: each place of a shelf holds at most one stack, a stack is an object of a
kind with a count, and a kind has a largest stack. What comes in is stored by a plan, a list of
places with the number that goes to each; it joins stacks of its kind, fills empty places with
copies of itself and is put down itself at the last place, or vanishes there in the stack it joins.

`Roomy` is what a plan must promise about its shelf, `Reserving` the search for such a plan, place
by place.

Nothing here mentions the game server.
-/

namespace Sky548

open List KeyedList

/-- A stack of one kind of goods: an object with an identity and a count. -/
structure Stack (ε α : Type*) where
  guid : Nat
  entry : ε
  count : Nat
  attrs : α
  deriving DecidableEq

/-- A stack where it lies. -/
structure Placed (κ ε α : Type*) where
  place : κ
  stack : Stack ε α
  deriving DecidableEq

/-- A finite map from places to stacks. -/
abbrev Shelf (κ ε α : Type*) := KeyedList (Placed κ ε α) Placed.place

namespace Shelf

variable {κ ε α : Type*} [DecidableEq κ] {s : Shelf κ ε α} {k j : κ} {t u : Stack ε α}

def get? (s : Shelf κ ε α) (k : κ) : Option (Stack ε α) := (s.find? k).map Placed.stack

def put (s : Shelf κ ε α) (k : κ) (t : Stack ε α) : Shelf κ ε α := KeyedList.insert s ⟨k, t⟩

def take (s : Shelf κ ε α) (k : κ) : Shelf κ ε α := KeyedList.erase s k

theorem get?_put (s : Shelf κ ε α) (k j : κ) (t : Stack ε α) :
    (s.put k t).get? j = if j = k then some t else s.get? j := by
  rw [get?, put, find?_insert]
  split
  · rfl
  · rfl

theorem get?_take (s : Shelf κ ε α) (k j : κ) :
    (s.take k).get? j = if j = k then none else s.get? j := by
  rw [get?, take, find?_erase]
  split
  · rfl
  · rfl

theorem get?_eq_some_iff : s.get? k = some t ↔ ⟨k, t⟩ ∈ s := by
  rw [get?, Option.map_eq_some_iff]
  constructor
  · rintro ⟨⟨p, u⟩, found, rfl⟩
    obtain ⟨member, rfl⟩ := find?_eq_some_iff.mp found
    exact member
  · intro member
    exact ⟨⟨k, t⟩, find?_eq_some_iff.mpr ⟨member, rfl⟩, rfl⟩

section Amount

variable [DecidableEq ε] (here : κ → Bool) (e : ε)

/-- What a place contributes to the amount of a kind in a part of the shelf. -/
def held (k : κ) (t : Option (Stack ε α)) : Nat :=
  t.elim 0 fun t => if here k ∧ t.entry = e then t.count else 0

/-- How many pieces of a kind lie in a part of the shelf. -/
def amount (s : Shelf κ ε α) : Nat :=
  KeyedList.sumBy (fun x => held here e x.place (some x.stack)) s

theorem held_eq (s : Shelf κ ε α) (k : κ) :
    ((s.find? k).elim 0 fun x => held here e x.place (some x.stack)) =
      held here e k (s.get? k) := by
  rw [get?]
  cases found : KeyedList.find? s k with
  | none => rfl
  | some x =>
    obtain ⟨-, rfl⟩ := find?_eq_some_iff.mp found
    rfl

theorem amount_take (s : Shelf κ ε α) (k : κ) :
    amount here e (s.take k) + held here e k (s.get? k) = amount here e s := by
  rw [← held_eq]
  exact sumBy_erase _ s k

theorem amount_put (s : Shelf κ ε α) (k : κ) (t : Stack ε α) :
    amount here e (s.put k t) + held here e k (s.get? k) =
      amount here e s + held here e k (some t) := by
  rw [← held_eq]
  exact sumBy_insert _ s ⟨k, t⟩

theorem amount_congr {s s' : Shelf κ ε α} (same : ∀ k, s'.get? k = s.get? k) :
    amount here e s' = amount here e s := by
  have nodup : ∀ s : Shelf κ ε α, s.toList.Nodup := fun s => Nodup.of_map _ s.nodup
  have perm : s'.toList.Perm s.toList := by
    rw [perm_ext_iff_of_nodup (nodup s') (nodup s)]
    rintro ⟨k, t⟩
    rw [mem_toList, mem_toList, ← get?_eq_some_iff, ← get?_eq_some_iff, same]
  exact (perm.map _).sum_nat

end Amount

end Shelf

/-- A shelf and the next identity that is free. -/
structure Store (κ ε α : Type*) where
  shelf : Shelf κ ε α
  nextGuid : Nat

/-- What becomes of the attributes of stacks that are stored, and the largest stack of each
kind. -/
structure Handling (κ ε α : Type*) where
  maxStack : ε → Nat
  /-- of a copy made for a place -/
  cloned : κ → α → α
  /-- of a stack put down at a place -/
  placed : κ → ε → α → α
  /-- of the stack at a place that another one joins -/
  joined : κ → ε → α → α

namespace Store

variable {κ ε α : Type*} [DecidableEq κ]

/-- No object lies at two places, no stack is empty or too large, and every identity is an
old one. -/
structure Tidy (maxStack : ε → Nat) (w : Store κ ε α) : Prop where
  apart : ∀ k j t u, w.shelf.get? k = some t → w.shelf.get? j = some u → t.guid = u.guid → k = j
  sized : ∀ k t, w.shelf.get? k = some t → 1 ≤ t.count ∧ t.count ≤ maxStack t.entry
  old : ∀ k t, w.shelf.get? k = some t → t.guid < w.nextGuid

def Has (w : Store κ ε α) (guid : Nat) : Prop := ∃ k t, w.shelf.get? k = some t ∧ t.guid = guid

variable {maxStack : ε → Nat} {w : Store κ ε α} {k : κ} {t u : Stack ε α}

def take (w : Store κ ε α) (k : κ) : Store κ ε α := { w with shelf := w.shelf.take k }

def put (w : Store κ ε α) (k : κ) (t : Stack ε α) : Store κ ε α :=
  { w with shelf := w.shelf.put k t }

theorem get?_of_take {j : κ} (found : (w.take k).shelf.get? j = some t) :
    j ≠ k ∧ w.shelf.get? j = some t := by
  rw [take, Shelf.get?_take] at found
  split at found
  · cases found
  · rename_i other
    exact ⟨other, found⟩

theorem get?_of_put {j : κ} (found : (w.put k t).shelf.get? j = some u) :
    j = k ∧ u = t ∨ j ≠ k ∧ w.shelf.get? j = some u := by
  rw [put, Shelf.get?_put] at found
  split at found
  · rename_i same
    exact Or.inl ⟨same, (Option.some.inj found).symm⟩
  · rename_i other
    exact Or.inr ⟨other, found⟩

theorem Tidy.take (tidy : w.Tidy maxStack) (k : κ) : (w.take k).Tidy maxStack where
  apart := fun i j t u foundT foundU =>
    tidy.apart i j t u (get?_of_take foundT).2 (get?_of_take foundU).2
  sized := fun i t found => tidy.sized i t (get?_of_take found).2
  old := fun i t found => tidy.old i t (get?_of_take found).2

theorem Has.of_take {guid : Nat} (has : (w.take k).Has guid) : w.Has guid := by
  obtain ⟨j, t, found, same⟩ := has
  exact ⟨j, t, (get?_of_take found).2, same⟩

theorem Tidy.not_has_take (tidy : w.Tidy maxStack) (found : w.shelf.get? k = some t) :
    ¬ (w.take k).Has t.guid := by
  rintro ⟨j, u, foundU, same⟩
  obtain ⟨other, foundU⟩ := get?_of_take foundU
  exact other (tidy.apart j k u t foundU found same)

/-- One store is another without an object. -/
def Without (w w' : Store κ ε α) (guid : Nat) : Prop :=
  ∀ j, w'.shelf.get? j = (w.shelf.get? j).filter fun u => u.guid ≠ guid

theorem Tidy.without_take (tidy : w.Tidy maxStack) (found : w.shelf.get? k = some t) :
    w.Without (w.take k) t.guid := by
  intro j
  rw [Store.take, Shelf.get?_take]
  split
  · rename_i same
    rw [same, found]
    exact (Option.filter_some_neg (by simp)).symm
  rename_i other
  cases there : w.shelf.get? j with
  | none => rfl
  | some u =>
    have another : u.guid ≠ t.guid := fun same => other (tidy.apart j k u t there found same)
    exact (Option.filter_some_pos (by simpa using another)).symm

theorem without_self {guid : Nat} (absent : ¬ w.Has guid) : w.Without w guid := by
  intro j
  cases there : w.shelf.get? j with
  | none => rfl
  | some u =>
    have another : u.guid ≠ guid := fun same => absent ⟨j, u, there, same⟩
    exact (Option.filter_some_pos (by simpa using another)).symm

theorem Tidy.put (tidy : w.Tidy maxStack) (sized : 1 ≤ t.count ∧ t.count ≤ maxStack t.entry)
    (old : t.guid < w.nextGuid) (own : ∀ j u, w.shelf.get? j = some u → u.guid = t.guid → j = k) :
    (w.put k t).Tidy maxStack where
  apart := by
    intro i j a b foundA foundB same
    rcases get?_of_put foundA with ⟨rfl, rfl⟩ | ⟨-, wasA⟩
    · rcases get?_of_put foundB with ⟨rfl, -⟩ | ⟨-, wasB⟩
      · rfl
      · exact (own j b wasB same.symm).symm
    · rcases get?_of_put foundB with ⟨rfl, rfl⟩ | ⟨-, wasB⟩
      · exact own i a wasA same
      · exact tidy.apart i j a b wasA wasB same
  sized := by
    intro j u found
    rcases get?_of_put found with ⟨-, rfl⟩ | ⟨-, found⟩
    · exact sized
    · exact tidy.sized j u found
  old := by
    intro j u found
    rcases get?_of_put found with ⟨-, rfl⟩ | ⟨-, found⟩
    · exact old
    · exact tidy.old j u found

/-- One store is like another: the same stacks lie in the same places. -/
structure Alike (w w' : Store κ ε α) : Prop where
  shelf : ∀ k, w'.shelf.get? k = w.shelf.get? k
  nextGuid : w'.nextGuid = w.nextGuid

theorem Alike.tidy {w' : Store κ ε α} (alike : w.Alike w') (tidy : w.Tidy maxStack) :
    w'.Tidy maxStack where
  apart := by
    intro k j t u foundT foundU
    rw [alike.shelf] at foundT foundU
    exact tidy.apart k j t u foundT foundU
  sized := by
    intro k t found
    rw [alike.shelf] at found
    exact tidy.sized k t found
  old := by
    intro k t found
    rw [alike.shelf] at found
    rw [alike.nextGuid]
    exact tidy.old k t found

/-- Every stack has attributes of some kind. -/
def Everywhere (Q : α → Prop) (w : Store κ ε α) : Prop :=
  ∀ k t, w.shelf.get? k = some t → Q t.attrs

theorem Everywhere.put {Q : α → Prop} (every : w.Everywhere Q) (attrs : Q t.attrs) :
    (w.put k t).Everywhere Q := by
  intro j u found
  rcases get?_of_put found with ⟨-, rfl⟩ | ⟨-, found⟩
  · exact attrs
  · exact every j u found

theorem Everywhere.take {Q : α → Prop} (every : w.Everywhere Q) : (w.take k).Everywhere Q :=
  fun j u found => every j u (get?_of_take found).2

def takeAll (w : Store κ ε α) (places : List κ) : Store κ ε α := places.foldl Store.take w

@[simp] theorem takeAll_nil (w : Store κ ε α) : w.takeAll [] = w := rfl

@[simp] theorem takeAll_cons (w : Store κ ε α) (k : κ) (rest : List κ) :
    w.takeAll (k :: rest) = (w.take k).takeAll rest := rfl

theorem get?_takeAll (w : Store κ ε α) (places : List κ) (j : κ) :
    (w.takeAll places).shelf.get? j = if j ∈ places then none else w.shelf.get? j := by
  induction places generalizing w with
  | nil => rw [takeAll_nil, if_neg not_mem_nil]
  | cons k rest ih =>
    rw [takeAll_cons, ih, take, Shelf.get?_take]
    by_cases here : j = k
    · rw [if_pos here, ite_self, if_pos (here ▸ mem_cons_self)]
    rw [if_neg here]
    by_cases later : j ∈ rest
    · rw [if_pos later, if_pos (mem_cons_of_mem _ later)]
    · rw [if_neg later, if_neg (not_mem_cons_of_ne_of_not_mem here later)]

theorem Tidy.takeAll (tidy : w.Tidy maxStack) (places : List κ) :
    (w.takeAll places).Tidy maxStack := by
  induction places generalizing w with
  | nil => exact tidy
  | cons k rest ih => exact ih (tidy.take k)

theorem Everywhere.takeAll {Q : α → Prop} (every : w.Everywhere Q) (places : List κ) :
    (w.takeAll places).Everywhere Q := by
  induction places generalizing w with
  | nil => exact every
  | cons k rest ih => exact ih every.take

theorem nextGuid_takeAll (w : Store κ ε α) (places : List κ) :
    (w.takeAll places).nextGuid = w.nextGuid := by
  induction places generalizing w with
  | nil => rfl
  | cons k rest ih => exact ih _

theorem amount_takeAll [DecidableEq ε] (here : κ → Bool) (e : ε) {piles : List (κ × Stack ε α)}
    (found : ∀ x ∈ piles, w.shelf.get? x.1 = some x.2) (distinct : (piles.map Prod.fst).Nodup) :
    Shelf.amount here e (w.takeAll (piles.map Prod.fst)).shelf +
        (piles.map fun x => Shelf.held here e x.1 (some x.2)).sum =
      Shelf.amount here e w.shelf := by
  induction piles generalizing w with
  | nil => rfl
  | cons x rest ih =>
    rw [map_cons, nodup_cons] at distinct
    have still : ∀ y ∈ rest, (w.take x.1).shelf.get? y.1 = some y.2 := by
      intro y member
      have differ : y.1 ≠ x.1 := fun same =>
        distinct.1 (List.mem_map.mpr ⟨y, member, same⟩)
      rw [take, Shelf.get?_take, if_neg differ]
      exact found y (mem_cons_of_mem _ member)
    have taken := Shelf.amount_take here e w.shelf x.1
    rw [found x mem_cons_self] at taken
    have later := ih still distinct.2
    rw [map_cons, map_cons, sum_cons, takeAll_cons]
    change _ = Shelf.amount here e (w.shelf.take x.1) at later
    omega

theorem Tidy.later (tidy : w.Tidy maxStack) {next : Nat} (later : w.nextGuid ≤ next) :
    Tidy maxStack { w with nextGuid := next } where
  apart := tidy.apart
  sized := tidy.sized
  old := fun k t found => Nat.lt_of_lt_of_le (tidy.old k t found) later

end Store

/-! ## Storing by a plan -/

namespace Handling

variable {κ ε α : Type*} (h : Handling κ ε α)

/-- A copy of a stack with a count and an identity of its own; no copy is empty or too large. -/
def clone (guid : Nat) (k : κ) (t : Stack ε α) (count : Nat) : Option (Stack ε α) :=
  if count = 0 then none
  else some
    { guid := guid
      entry := t.entry
      count := min count (h.maxStack t.entry)
      attrs := h.cloned k t.attrs }

/-- A stack as it lies once it is put down. -/
def settle (k : κ) (t : Stack ε α) : Stack ε α := { t with attrs := h.placed k t.entry t.attrs }

def join (k : κ) (u : Stack ε α) (count : Nat) : Stack ε α :=
  { u with count := u.count + count, attrs := h.joined k u.entry u.attrs }

variable [DecidableEq κ]

/-- Store `count` pieces of a stack at one place: of a copy of it, or of the stack itself. -/
def storeOne (copy : Bool) (w : Store κ ε α) (t : Stack ε α) (k : κ) (count : Nat) : Store κ ε α :=
  match w.shelf.get? k with
  | some u => w.put k (h.join k u count)
  | none =>
    if copy then
      match h.clone w.nextGuid k t count with
      | some c => { w.put k (h.settle k c) with nextGuid := w.nextGuid + 1 }
      | none => w
    else w.put k (h.settle k { t with count := count })

/-- Store a stack by a plan: copies at all places but the last, the stack itself there. -/
def storeItem (w : Store κ ε α) (t : Stack ε α) : List (κ × Nat) → Store κ ε α
  | [] => w
  | [(k, count)] => h.storeOne false w t k count
  | (k, count) :: rest => storeItem (h.storeOne true w t k count) t rest

/-- There is room for `count` more pieces of a stack at a place. -/
def Room (view : κ → Option (Stack ε α)) (t : Stack ε α) (k : κ) (count : Nat) : Prop :=
  1 ≤ count ∧
    match view k with
    | none => count ≤ h.maxStack t.entry
    | some u => u.entry = t.entry ∧ u.count + count ≤ h.maxStack t.entry

/-- A plan whose places are distinct and have room for what goes there. -/
structure Roomy (view : κ → Option (Stack ε α)) (t : Stack ε α) (dest : List (κ × Nat)) : Prop where
  distinct : (dest.map Prod.fst).Nodup
  room : ∀ pc ∈ dest, h.Room view t pc.1 pc.2

structure Fits (view : κ → Option (Stack ε α)) (t : Stack ε α) (dest : List (κ × Nat)) : Prop
    extends h.Roomy view t dest where
  total : (dest.map Prod.snd).sum = t.count

variable {h} {w : Store κ ε α} {t : Stack ε α} {k : κ} {count : Nat}

/-- What storing `count` pieces of a stack at a place with room comes to: one stack `u` is put
there, which counts `count` more than what lay there. -/
structure Stored (copy : Bool) (w : Store κ ε α) (t : Stack ε α) (k : κ) (count : Nat)
    (u : Stack ε α) (w' : Store κ ε α) : Prop where
  shelf : w'.shelf = w.shelf.put k u
  entry : u.entry = t.entry
  counted : u.count = (w.shelf.get? k).elim 0 Stack.count + count
  later : w.nextGuid ≤ w'.nextGuid
  old : u.guid < w'.nextGuid
  origin : (∃ v, w.shelf.get? k = some v ∧ v.entry = t.entry ∧ u.guid = v.guid) ∨
    w.shelf.get? k = none ∧ ((copy = false ∧ u.guid = t.guid) ∨ u.guid = w.nextGuid)

theorem stored_storeOne (copy : Bool) (tidy : w.Tidy h.maxStack) (known : t.guid < w.nextGuid)
    (room : h.Room w.shelf.get? t k count) :
    ∃ u, Stored copy w t k count u (h.storeOne copy w t k count) := by
  obtain ⟨positive, room⟩ := room
  rw [storeOne]
  cases occupied : w.shelf.get? k with
  | some u =>
    rw [occupied] at room
    refine ⟨h.join k u count, rfl, room.1, ?_, Nat.le_refl _, tidy.old k u occupied,
      Or.inl ⟨u, occupied, room.1, rfl⟩⟩
    rw [occupied]
    rfl
  | none =>
    rw [occupied] at room
    cases copy with
    | false =>
      rw [if_neg Bool.false_ne_true]
      refine ⟨h.settle k { t with count := count }, rfl, rfl, ?_, Nat.le_refl _, known,
        Or.inr ⟨occupied, Or.inl ⟨rfl, rfl⟩⟩⟩
      rw [occupied]
      exact (Nat.zero_add count).symm
    | true =>
      rw [if_pos rfl, clone, if_neg (Nat.pos_iff_ne_zero.mp positive)]
      refine ⟨_, rfl, rfl, ?_, Nat.le_succ _, Nat.lt_succ_self _, Or.inr ⟨occupied, Or.inr rfl⟩⟩
      rw [occupied]
      exact (Nat.min_eq_left room).trans (Nat.zero_add count).symm

variable {copy : Bool} {u : Stack ε α} {w' : Store κ ε α}

theorem Stored.own (stored : Stored copy w t k count u w') (tidy : w.Tidy h.maxStack)
    (absent : ¬ w.Has t.guid) {j : κ} {v : Stack ε α} (found : w.shelf.get? j = some v)
    (same : v.guid = u.guid) : j = k := by
  rcases stored.origin with ⟨x, occupied, -, joined⟩ | ⟨-, ⟨-, itself⟩ | isNew⟩
  · exact tidy.apart j k v x found occupied (same.trans joined)
  · exact absurd ⟨j, v, found, same.trans itself⟩ absent
  · exact absurd (tidy.old j v found) (Nat.not_lt.mpr (Nat.le_of_eq (same.trans isNew).symm))

theorem Stored.tidy (stored : Stored copy w t k count u w') (tidy : w.Tidy h.maxStack)
    (absent : ¬ w.Has t.guid) (room : h.Room w.shelf.get? t k count) : w'.Tidy h.maxStack := by
  obtain ⟨positive, room⟩ := room
  have small : u.count ≤ h.maxStack u.entry := by
    rw [stored.entry, stored.counted]
    cases occupied : w.shelf.get? k with
    | none =>
      rw [occupied] at room
      exact Nat.le_trans (Nat.le_of_eq (Nat.zero_add count)) room
    | some v =>
      rw [occupied] at room
      exact room.2
  have sized : 1 ≤ u.count := by
    rw [stored.counted]
    exact Nat.le_trans positive (Nat.le_add_left _ _)
  have put := (tidy.later stored.later).put (k := k) ⟨sized, small⟩ stored.old
    fun _ _ found same => stored.own tidy absent found same
  obtain ⟨shelf, next⟩ := w'
  obtain rfl : shelf = w.shelf.put k u := stored.shelf
  exact put

theorem Stored.absent (stored : Stored true w t k count u w') (absent : ¬ w.Has t.guid)
    (known : t.guid < w.nextGuid) : ¬ w'.Has t.guid := by
  rintro ⟨j, v, found, same⟩
  rw [stored.shelf, Shelf.get?_put] at found
  split at found
  · cases found
    rcases stored.origin with ⟨x, occupied, -, joined⟩ | ⟨-, ⟨isCopy, -⟩ | isNew⟩
    · exact absent ⟨k, x, occupied, joined.symm.trans same⟩
    · cases isCopy
    · exact Nat.ne_of_gt known (isNew.symm.trans same)
  · exact absent ⟨j, v, found, same⟩

variable {dest : List (κ × Nat)}

/-- **The storing rule.** What storing at one place with room takes from the places done to one
more, storing by a roomy plan takes from none to all of them. -/
theorem storeItem_induction {P : List (κ × Nat) → Store κ ε α → Prop}
    (tidy : w.Tidy h.maxStack) (absent : ¬ w.Has t.guid) (known : t.guid < w.nextGuid)
    (roomy : h.Roomy w.shelf.get? t dest) (start : P [] w)
    (keep : ∀ copy done w k count u w', w.Tidy h.maxStack → ¬ w.Has t.guid →
      h.Room w.shelf.get? t k count → Stored copy w t k count u w' → P done w →
      P (done ++ [(k, count)]) w') :
    P dest (h.storeItem w t dest) := by
  have rule : ∀ done, P done w → P (done ++ dest) (h.storeItem w t dest) := by
    clear start
    induction dest generalizing w with
    | nil =>
      intro done holds
      rw [append_nil]
      exact holds
    | cons pc rest ih =>
      intro done holds
      obtain ⟨k, count⟩ := pc
      have room := roomy.room (k, count) mem_cons_self
      cases rest with
      | nil =>
        obtain ⟨u, stored⟩ := stored_storeOne false tidy known room
        exact keep false done w k count u _ tidy absent room stored holds
      | cons next rest =>
        obtain ⟨u, stored⟩ := stored_storeOne true tidy known room
        have holds := keep true done w k count u _ tidy absent room stored holds
        have rest := ih (stored.tidy tidy absent room) (stored.absent absent known)
          (Nat.lt_of_lt_of_le known stored.later)
          ⟨(List.nodup_cons.mp roomy.distinct).2, fun pc member => ?_⟩ _ holds
        · rw [append_assoc] at rest
          exact rest
        · -- the places still to come are as they were
          have other : pc.1 ≠ k := by
            rintro rfl
            exact (List.nodup_cons.mp roomy.distinct).1 (List.mem_map.mpr ⟨pc, member, rfl⟩)
          have room' := roomy.room pc (mem_cons_of_mem _ member)
          rw [Room, stored.shelf, Shelf.get?_put, if_neg other]
          exact room'
  exact rule [] start

section Storing

variable {dest : List (κ × Nat)} (tidy : w.Tidy h.maxStack) (absent : ¬ w.Has t.guid)
  (known : t.guid < w.nextGuid) (roomy : h.Roomy w.shelf.get? t dest)

include tidy absent known roomy

theorem tidy_storeItem : (h.storeItem w t dest).Tidy h.maxStack :=
  storeItem_induction (P := fun _ w => w.Tidy h.maxStack) tidy absent known roomy tidy
    fun _ _ _ _ _ _ _ tidy absent room stored _ => stored.tidy tidy absent room

theorem le_nextGuid_storeItem : w.nextGuid ≤ (h.storeItem w t dest).nextGuid :=
  storeItem_induction (P := fun _ w' => w.nextGuid ≤ w'.nextGuid) tidy absent known roomy
    (Nat.le_refl _) fun _ _ _ _ _ _ _ _ _ _ stored later => Nat.le_trans later stored.later

theorem has_storeItem {guid : Nat} (has : (h.storeItem w t dest).Has guid) :
    w.Has guid ∨ guid = t.guid ∨ w.nextGuid ≤ guid := by
  have from' : w.nextGuid ≤ (h.storeItem w t dest).nextGuid ∧
      ∀ guid, (h.storeItem w t dest).Has guid → w.Has guid ∨ guid = t.guid ∨ w.nextGuid ≤ guid := by
    refine storeItem_induction (P := fun _ w' => w.nextGuid ≤ w'.nextGuid ∧ ∀ guid, w'.Has guid →
      w.Has guid ∨ guid = t.guid ∨ w.nextGuid ≤ guid) tidy absent known roomy
      ⟨Nat.le_refl _, fun _ has => Or.inl has⟩ ?_
    intro copy done w₁ k count u w₂ _ _ _ stored holds
    refine ⟨Nat.le_trans holds.1 stored.later, ?_⟩
    rintro guid ⟨j, v, found, rfl⟩
    rw [stored.shelf, Shelf.get?_put] at found
    split at found
    · cases found
      rcases stored.origin with ⟨x, occupied, -, joined⟩ | ⟨-, ⟨-, itself⟩ | isNew⟩
      · exact holds.2 _ ⟨k, x, occupied, joined.symm⟩
      · exact Or.inr (Or.inl itself)
      · exact Or.inr (Or.inr (Nat.le_trans holds.1 (Nat.le_of_eq isNew.symm)))
    · exact holds.2 _ ⟨j, v, found, rfl⟩
  exact from'.2 guid has

theorem get?_storeItem {j : κ} (elsewhere : j ∉ dest.map Prod.fst) :
    (h.storeItem w t dest).shelf.get? j = w.shelf.get? j := by
  refine storeItem_induction (P := fun done w' => j ∉ done.map Prod.fst →
    w'.shelf.get? j = w.shelf.get? j) tidy absent known roomy (fun _ => rfl) ?_ elsewhere
  intro copy done w₁ k count u w₂ _ _ _ stored same notDone
  rw [map_append, mem_append, not_or, map_singleton, mem_singleton] at notDone
  rw [stored.shelf, Shelf.get?_put, if_neg notDone.2]
  exact same notDone.1

variable [DecidableEq ε] (here : κ → Bool) (e : ε)

theorem amount_storeItem :
    Shelf.amount here e (h.storeItem w t dest).shelf = Shelf.amount here e w.shelf +
      (dest.map fun pc => if here pc.1 ∧ t.entry = e then pc.2 else 0).sum := by
  refine storeItem_induction (P := fun done w' => Shelf.amount here e w'.shelf =
    Shelf.amount here e w.shelf + (done.map fun pc =>
      if here pc.1 ∧ t.entry = e then pc.2 else 0).sum) tidy absent known roomy rfl ?_
  intro copy done w₁ k count u w₂ _ _ room stored sum
  have put := Shelf.amount_put here e w₁.shelf k u
  have more : Shelf.held here e k (some u) = Shelf.held here e k (w₁.shelf.get? k) +
      if here k ∧ t.entry = e then count else 0 := by
    change (if here k ∧ u.entry = e then u.count else 0) = _
    rw [stored.entry, stored.counted]
    rcases occupied : w₁.shelf.get? k with _ | v
    · simp [Shelf.held]
    have same : v.entry = t.entry := by
      have room := room.2
      rw [occupied] at room
      exact room.1
    change _ = (if here k ∧ v.entry = e then v.count else 0) + _
    rw [same]
    split
    · rfl
    · rfl
  rw [stored.shelf, map_append, sum_append, map_singleton, sum_singleton]
  dsimp only
  omega

end Storing

theorem Fits.amount_storeItem [DecidableEq ε]
    (fits : h.Fits w.shelf.get? t dest) (tidy : w.Tidy h.maxStack) (absent : ¬ w.Has t.guid)
    (known : t.guid < w.nextGuid) (here : κ → Bool) (e : ε) {within : Bool}
    (places : ∀ pc ∈ dest, here pc.1 = within) :
    Shelf.amount here e (h.storeItem w t dest).shelf = Shelf.amount here e w.shelf +
      if within ∧ t.entry = e then t.count else 0 := by
  rw [Handling.amount_storeItem tidy absent known fits.toRoomy here e, ← fits.total]
  congr 1
  have same : (dest.map fun pc => if here pc.1 ∧ t.entry = e then pc.2 else 0) =
      dest.map fun pc => if within ∧ t.entry = e then pc.2 else 0 :=
    map_congr_left fun pc member => by rw [places pc member]
  rw [same]
  by_cases counts : within ∧ t.entry = e
  · simp only [if_pos counts]
  · simp [if_neg counts]

theorem everywhere_storeItem {Q : α → Prop}
    (cloned : ∀ k a, Q a → Q (h.cloned k a)) (placed : ∀ k e a, Q a → Q (h.placed k e a))
    (joined : ∀ k e a, Q a → Q (h.joined k e a)) (every : w.Everywhere Q) (attrs : Q t.attrs) :
    (h.storeItem w t dest).Everywhere Q := by
  have one : ∀ copy (w : Store κ ε α) k count, w.Everywhere Q →
      (h.storeOne copy w t k count).Everywhere Q := by
    intro copy w k count every
    rw [storeOne]
    split
    · rename_i u occupied
      exact every.put (joined _ _ _ (every k u occupied))
    split
    · split
      · rename_i c made
        have copied : Q c.attrs := by
          rw [clone] at made
          split at made
          · cases made
          · cases made
            exact cloned _ _ attrs
        exact every.put (placed _ _ _ copied)
      · exact every
    · exact every.put (placed _ _ _ attrs)
  induction dest generalizing w with
  | nil => exact every
  | cons pc rest ih =>
    cases rest with
    | nil => exact one false w pc.1 pc.2 every
    | cons _ _ => exact ih (one true w pc.1 pc.2 every)

omit [DecidableEq κ] in
theorem fits_single {view : κ → Option (Stack ε α)} (sized : 1 ≤ t.count ∧ t.count ≤ h.maxStack t.entry)
    (free : view k = none) : h.Fits view t [(k, t.count)] where
  distinct := nodup_singleton _
  room := by
    intro pc member
    rw [List.mem_singleton.mp member]
    refine ⟨sized.1, ?_⟩
    rw [free]
    exact sized.2
  total := sum_singleton

omit [DecidableEq κ] in
theorem Fits.congr {view view' : κ → Option (Stack ε α)}
    (fits : h.Fits view t dest) (same : ∀ pc ∈ dest, view pc.1 = view' pc.1) :
    h.Fits view' t dest where
  distinct := fits.distinct
  room := by
    intro pc member
    rw [Room, ← same pc member]
    exact fits.room pc member
  total := fits.total

end Handling

namespace Store

variable {κ ε α : Type*} [DecidableEq κ] [DecidableEq ε]

/-- Nothing is lost and nothing is made in a part of the shelf: every kind counts the same there,
the shelf is tidy afterwards, and what lies elsewhere stays. -/
structure Conserves (maxStack : ε → Nat) (here : κ → Bool) (w w' : Store κ ε α) : Prop where
  amount : ∀ e, Shelf.amount here e w'.shelf = Shelf.amount here e w.shelf
  tidy : w'.Tidy maxStack
  frame : ∀ k, here k = false → w'.shelf.get? k = w.shelf.get? k

variable {h : Handling κ ε α} {w : Store κ ε α} {here : κ → Bool} {k j : κ} {t u : Stack ε α}
  {dest : List (κ × Nat)}

theorem Tidy.conserves {maxStack : ε → Nat} (tidy : w.Tidy maxStack) :
    w.Conserves maxStack here w :=
  ⟨fun _ => rfl, tidy, fun _ _ => rfl⟩

omit [DecidableEq κ] in
theorem held_inside (e : ε) (inside : here k = true) (t : Stack ε α) :
    Shelf.held here e k (some t) = if t.entry = e then t.count else 0 := by
  change (if here k = true ∧ t.entry = e then t.count else 0) = _
  rw [inside]
  simp only [true_and]

theorem amount_fits (fits : h.Fits w.shelf.get? t dest) (tidy : w.Tidy h.maxStack)
    (absent : ¬ w.Has t.guid) (known : t.guid < w.nextGuid)
    (inside : ∀ pc ∈ dest, here pc.1 = true) (e : ε) :
    Shelf.amount here e (h.storeItem w t dest).shelf =
      Shelf.amount here e w.shelf + if t.entry = e then t.count else 0 := by
  have stored := fits.amount_storeItem tidy absent known here e inside
  simpa only [true_and] using stored

omit [DecidableEq ε] in
theorem get?_fits (fits : h.Fits w.shelf.get? t dest) (tidy : w.Tidy h.maxStack)
    (absent : ¬ w.Has t.guid) (known : t.guid < w.nextGuid)
    (inside : ∀ pc ∈ dest, here pc.1 = true) {i : κ} (outside : here i = false) :
    (h.storeItem w t dest).shelf.get? i = w.shelf.get? i := by
  refine Handling.get?_storeItem tidy absent known fits.toRoomy fun member => ?_
  obtain ⟨pc, planned, rfl⟩ := List.mem_map.mp member
  rw [inside pc planned] at outside
  cases outside

omit [DecidableEq κ] in
theorem ne_of_outside {i : κ} (inside : here k = true) (outside : here i = false) : i ≠ k := by
  rintro rfl
  rw [inside] at outside
  cases outside

omit [DecidableEq ε] in
theorem get?_take_outside {i : κ} (inside : here k = true) (outside : here i = false) :
    (w.take k).shelf.get? i = w.shelf.get? i := by
  rw [Store.take, Shelf.get?_take, if_neg (ne_of_outside inside outside)]

theorem Tidy.move (tidy : w.Tidy h.maxStack) (found : w.shelf.get? k = some t)
    (fits : h.Fits (w.take k).shelf.get? t dest) (insideK : here k = true)
    (inside : ∀ pc ∈ dest, here pc.1 = true) :
    w.Conserves h.maxStack here (h.storeItem (w.take k) t dest) where
  amount := by
    intro e
    have taken := Shelf.amount_take here e w.shelf k
    rw [found, held_inside e insideK] at taken
    rw [amount_fits fits (tidy.take k) (tidy.not_has_take found) (tidy.old k t found) inside]
    exact taken
  tidy := Handling.tidy_storeItem (tidy.take k) (tidy.not_has_take found) (tidy.old k t found)
    fits.toRoomy
  frame := by
    intro i outside
    rw [get?_fits fits (tidy.take k) (tidy.not_has_take found) (tidy.old k t found) inside outside]
    exact get?_take_outside insideK outside

omit [DecidableEq ε] in
theorem Tidy.recount {maxStack : ε → Nat} {count : Nat} (tidy : w.Tidy maxStack)
    (found : w.shelf.get? k = some t) (sized : 1 ≤ count ∧ count ≤ maxStack t.entry) :
    (w.put k { t with count := count }).Tidy maxStack :=
  tidy.put sized (tidy.old k t found) fun j v foundV sameGuid => tidy.apart j k v t foundV found sameGuid

omit [DecidableEq ε] in
theorem Has.of_recount {guid count : Nat} (found : w.shelf.get? k = some t)
    (has : (w.put k { t with count := count }).Has guid) : w.Has guid := by
  obtain ⟨j, v, foundV, sameGuid⟩ := has
  rcases get?_of_put foundV with ⟨-, rfl⟩ | ⟨-, was⟩
  · exact ⟨k, t, found, sameGuid⟩
  · exact ⟨j, v, was, sameGuid⟩

theorem Tidy.splitOff (tidy : w.Tidy h.maxStack) (found : w.shelf.get? k = some t)
    (absent : ¬ w.Has u.guid) (known : u.guid < w.nextGuid) (same : u.entry = t.entry)
    (part : u.count < t.count)
    (fits : h.Fits (w.put k { t with count := t.count - u.count }).shelf.get? u dest)
    (insideK : here k = true) (inside : ∀ pc ∈ dest, here pc.1 = true) :
    w.Conserves h.maxStack here
      (h.storeItem (w.put k { t with count := t.count - u.count }) u dest) := by
  have sized := tidy.sized k t found
  have absent' : ¬ (w.put k { t with count := t.count - u.count }).Has u.guid :=
    fun has => absent (has.of_recount found)
  have tidy' : (w.put k { t with count := t.count - u.count }).Tidy h.maxStack :=
    tidy.recount found ⟨Nat.sub_pos_of_lt part, Nat.le_trans (Nat.sub_le _ _) sized.2⟩
  refine ⟨fun e => ?_, Handling.tidy_storeItem tidy' absent' known fits.toRoomy,
    fun i outside => ?_⟩
  · have put := Shelf.amount_put here e w.shelf k { t with count := t.count - u.count }
    rw [found, held_inside e insideK, held_inside e insideK] at put
    rw [amount_fits fits tidy' absent' known inside, same]
    change Shelf.amount _ e (w.shelf.put k _) + _ = _
    dsimp only at put
    split
    · rename_i counts
      rw [if_pos counts, if_pos counts] at put
      omega
    · rename_i other
      rw [if_neg other, if_neg other] at put
      exact put
  · rw [get?_fits fits tidy' absent' known inside outside, Store.put, Shelf.get?_put,
      if_neg (ne_of_outside insideK outside)]

theorem Tidy.split (tidy : w.Tidy h.maxStack) (found : w.shelf.get? k = some t)
    (absent : ¬ w.Has u.guid) (known : u.guid < w.nextGuid) (same : u.entry = t.entry)
    (part : u.count < t.count) (fits : h.Fits w.shelf.get? u dest) (insideK : here k = true)
    (inside : ∀ pc ∈ dest, here pc.1 = true) :
    w.Conserves h.maxStack here
      (h.storeItem (w.put k { t with count := t.count - u.count }) u dest) := by
  refine tidy.splitOff found absent known same part ?_ insideK inside
  refine ⟨⟨fits.distinct, fun pc member => ?_⟩, fits.total⟩
  obtain ⟨positive, room⟩ := fits.room pc member
  refine ⟨positive, ?_⟩
  by_cases there : pc.1 = k
  · rw [there, found] at room
    rw [Store.put, Shelf.get?_put, if_pos there]
    exact ⟨room.1, Nat.le_trans (Nat.add_le_add_right (Nat.sub_le _ _) _) room.2⟩
  · rw [Store.put, Shelf.get?_put, if_neg there]
    exact room

theorem Tidy.exchange (tidy : w.Tidy h.maxStack) (found : w.shelf.get? k = some t)
    (foundU : w.shelf.get? j = some u) (apart : k ≠ j) (insideK : here k = true)
    (insideJ : here j = true) :
    w.Conserves h.maxStack here
      (h.storeItem (h.storeItem ((w.take k).take j) t [(j, t.count)]) u [(k, u.count)]) := by
  have there : (w.take k).shelf.get? j = some u := by
    rw [Store.take, Shelf.get?_take, if_neg apart.symm]
    exact foundU
  have differ : t.guid ≠ u.guid := fun same => apart (tidy.apart k j t u found foundU same)
  have tidy₁ := (tidy.take k).take j
  have absentT : ¬ ((w.take k).take j).Has t.guid := fun has => tidy.not_has_take found has.of_take
  have absentU : ¬ ((w.take k).take j).Has u.guid := (tidy.take k).not_has_take there
  have knownT := tidy.old k t found
  have fitsT : h.Fits ((w.take k).take j).shelf.get? t [(j, t.count)] := by
    refine Handling.fits_single (tidy.sized k t found) ?_
    rw [Store.take, Shelf.get?_take, if_pos rfl]
  have inJ : ∀ pc ∈ [(j, t.count)], here pc.1 = true := by
    intro pc member
    rw [List.mem_singleton.mp member]
    exact insideJ
  have inK : ∀ pc ∈ [(k, u.count)], here pc.1 = true := by
    intro pc member
    rw [List.mem_singleton.mp member]
    exact insideK
  have tidy₂ := Handling.tidy_storeItem tidy₁ absentT knownT fitsT.toRoomy
  have next := Handling.le_nextGuid_storeItem tidy₁ absentT knownT fitsT.toRoomy
  have knownU : u.guid < (h.storeItem ((w.take k).take j) t [(j, t.count)]).nextGuid :=
    Nat.lt_of_lt_of_le (tidy.old j u foundU) next
  have absentU₂ : ¬ (h.storeItem ((w.take k).take j) t [(j, t.count)]).Has u.guid := by
    intro has
    rcases Handling.has_storeItem tidy₁ absentT knownT fitsT.toRoomy has with was | same | isNew
    · exact absentU was
    · exact differ same.symm
    · exact absurd (tidy.old j u foundU) (Nat.not_lt.mpr isNew)
  have fitsU : h.Fits (h.storeItem ((w.take k).take j) t [(j, t.count)]).shelf.get? u
      [(k, u.count)] := by
    refine Handling.fits_single (tidy.sized j u foundU) ?_
    have elsewhere : k ∉ [(j, t.count)].map Prod.fst := by
      rw [map_singleton, mem_singleton]
      exact apart
    rw [Handling.get?_storeItem tidy₁ absentT knownT fitsT.toRoomy elsewhere, Store.take,
      Shelf.get?_take, if_neg apart, Store.take, Shelf.get?_take, if_pos rfl]
  refine ⟨fun e => ?_, Handling.tidy_storeItem tidy₂ absentU₂ knownU fitsU.toRoomy,
    fun i outside => ?_⟩
  · have takenT := Shelf.amount_take here e w.shelf k
    have takenU := Shelf.amount_take here e (w.take k).shelf j
    rw [found, held_inside e insideK] at takenT
    rw [there, held_inside e insideJ] at takenU
    rw [amount_fits fitsU tidy₂ absentU₂ knownU inK, amount_fits fitsT tidy₁ absentT knownT inJ,
      ← takenT]
    change Shelf.amount _ e ((w.take k).shelf.take j) + _ + _ =
      Shelf.amount _ e (w.take k).shelf + _
    omega
  · rw [get?_fits fitsU tidy₂ absentU₂ knownU inK outside,
      get?_fits fitsT tidy₁ absentT knownT inJ outside, get?_take_outside insideJ outside,
      get?_take_outside insideK outside]

end Store

/-- What is planned so far, and how much is still to be placed. -/
structure Reserving (κ : Type*) where
  dest : List (κ × Nat)
  count : Nat

namespace Reserving

variable {κ ε α : Type*} [DecidableEq κ]

/-- Reserve up to `space` at a place, unless the plan names it already. -/
def reserve (r : Reserving κ) (k : κ) (space : Nat) : Reserving κ :=
  if k ∈ r.dest.map Prod.fst then r
  else { dest := r.dest ++ [(k, min space r.count)], count := r.count - min space r.count }

/-- One place of a search: for stacks to join if `merge`, else for empty places. -/
def visit (view : κ → Option (Stack ε α)) (maxStack : Nat) (joins : Stack ε α → Bool) (merge : Bool)
    (r : Reserving κ) (k : κ) : Reserving κ :=
  match view k with
  | some u => if merge && joins u then r.reserve k (maxStack - u.count) else r
  | none => if merge then r else r.reserve k maxStack

/-- A search of places in their order, until everything is placed. -/
def scan (view : κ → Option (Stack ε α)) (maxStack : Nat) (joins : Stack ε α → Bool) (merge : Bool)
    (places : List κ) (r : Reserving κ) : Reserving κ :=
  places.foldl (fun r k => if r.count = 0 then r else visit view maxStack joins merge r k) r

/-- The plan so far is roomy, stays within `area`, and nothing of the stack is forgotten. -/
structure Sound (h : Handling κ ε α) (view : κ → Option (Stack ε α)) (area : κ → Prop)
    (t : Stack ε α) (r : Reserving κ) : Prop extends h.Roomy view t r.dest where
  within : ∀ pc ∈ r.dest, area pc.1
  total : (r.dest.map Prod.snd).sum + r.count = t.count

variable {h : Handling κ ε α} {view : κ → Option (Stack ε α)} {area : κ → Prop} {t : Stack ε α}
  {r : Reserving κ} {k : κ}

omit [DecidableEq κ] in
theorem sound_nil : Sound h view area t ⟨[], t.count⟩ where
  distinct := nodup_nil
  room := fun _ member => nomatch member
  within := fun _ member => nomatch member
  total := Nat.zero_add _

omit [DecidableEq κ] in
theorem Sound.fits (sound : Sound h view area t r) (placed : r.count = 0) :
    h.Fits view t r.dest where
  toRoomy := sound.toRoomy
  total := by
    have total := sound.total
    rwa [placed, Nat.add_zero] at total

theorem Sound.reserve {space : Nat} (sound : Sound h view area t r) (left : r.count ≠ 0)
    (inArea : area k) (room : h.Room view t k space) : Sound h view area t (r.reserve k space) := by
  rw [Reserving.reserve]
  split
  · exact sound
  rename_i isNew
  refine ⟨⟨?_, fun pc member => ?_⟩, fun pc member => ?_, ?_⟩
  · rw [map_append, map_singleton, nodup_append]
    refine ⟨sound.distinct, nodup_singleton _, fun a old b last same => ?_⟩
    rw [List.mem_singleton.mp last] at same
    change a = k at same
    exact isNew (same ▸ old)
  · rcases List.mem_append.mp member with old | last
    · exact sound.room pc old
    rw [List.mem_singleton.mp last]
    refine ⟨Nat.le_min.mpr ⟨room.1, Nat.pos_iff_ne_zero.mpr left⟩, ?_⟩
    have room := room.2
    cases occupied : view k with
    | none =>
      rw [occupied] at room
      exact Nat.le_trans (Nat.min_le_left _ _) room
    | some u =>
      rw [occupied] at room
      exact ⟨room.1, Nat.le_trans (Nat.add_le_add_left (Nat.min_le_left _ _) _) room.2⟩
  · rcases List.mem_append.mp member with old | last
    · exact sound.within pc old
    · rw [List.mem_singleton.mp last]
      exact inArea
  · have total := sound.total
    have small : min space r.count ≤ r.count := Nat.min_le_right _ _
    dsimp only
    rw [map_append, sum_append, map_singleton, sum_singleton]
    omega

theorem Sound.visit {joins : Stack ε α → Bool} {merge : Bool} (sound : Sound h view area t r)
    (left : r.count ≠ 0) (inArea : area k) (some : 1 ≤ h.maxStack t.entry)
    (same : ∀ u, joins u → u.entry = t.entry ∧ u.count < h.maxStack t.entry) :
    Sound h view area t (visit view (h.maxStack t.entry) joins merge r k) := by
  rw [Reserving.visit]
  cases occupied : view k with
  | none =>
    dsimp only
    split
    · exact sound
    · refine sound.reserve left inArea ⟨some, ?_⟩
      simp only [occupied, Nat.le_refl]
  | some u =>
    dsimp only
    split
    · rename_i may
      obtain ⟨entry, below⟩ := same u (Bool.and_eq_true _ _ ▸ may).2
      refine sound.reserve left inArea ⟨by omega, ?_⟩
      rw [occupied]
      exact ⟨entry, by omega⟩
    · exact sound

theorem Sound.scan {joins : Stack ε α → Bool} {merge : Bool} {places : List κ}
    (sound : Sound h view area t r) (inArea : ∀ k ∈ places, area k) (some : 1 ≤ h.maxStack t.entry)
    (same : ∀ u, joins u → u.entry = t.entry ∧ u.count < h.maxStack t.entry) :
    Sound h view area t (scan view (h.maxStack t.entry) joins merge places r) := by
  rw [Reserving.scan]
  induction places generalizing r with
  | nil => exact sound
  | cons k rest ih =>
    refine ih ?_ fun j member => inArea j (mem_cons_of_mem _ member)
    dsimp only
    split
    · exact sound
    · rename_i left
      exact sound.visit left (inArea k mem_cons_self) some same

def placed (r : Reserving κ) : Nat := (r.dest.map Prod.snd).sum

/-- What a search finds at a place: the place and the room there. -/
def offer (view : κ → Option (Stack ε α)) (maxStack : Nat) (joins : Stack ε α → Bool) (merge : Bool)
    (k : κ) : Option (κ × Nat) :=
  match view k with
  | some u => if merge && joins u then some (k, maxStack - u.count) else none
  | none => if merge then none else some (k, maxStack)

/-- Take what is offered, until everything is placed. -/
def fill (offers : List (κ × Nat)) (r : Reserving κ) : Reserving κ :=
  offers.foldl (fun r x => if r.count = 0 then r else r.reserve x.1 x.2) r

theorem scan_eq_fill (view : κ → Option (Stack ε α)) (maxStack : Nat) (joins : Stack ε α → Bool)
    (merge : Bool) (places : List κ) (r : Reserving κ) :
    scan view maxStack joins merge places r =
      fill (places.filterMap (offer view maxStack joins merge)) r := by
  rw [scan]
  induction places generalizing r with
  | nil => rfl
  | cons k rest ih =>
    rw [foldl_cons, ih]
    cases offered : offer view maxStack joins merge k with
    | none =>
      have same : visit view maxStack joins merge r k = r := by
        rw [offer] at offered
        rw [visit]
        split at offered
        · split at offered
          · cases offered
          · rename_i no
            exact if_neg no
        · split at offered
          · rename_i merges
            exact if_pos merges
          · cases offered
      rw [filterMap_cons_none offered, same, ite_self]
    | some x =>
      have same : visit view maxStack joins merge r k = r.reserve x.1 x.2 := by
        rw [offer] at offered
        rw [visit]
        split at offered
        · split at offered
          · rename_i joined
            rw [← Option.some.inj offered]
            exact if_pos joined
          · cases offered
        · split at offered
          · cases offered
          · rename_i empty
            rw [← Option.some.inj offered]
            exact if_neg empty
      rw [filterMap_cons_some offered, same]
      rfl

theorem placed_reserve (r : Reserving κ) (k : κ) (space : Nat) :
    (r.reserve k space).placed + (r.reserve k space).count = r.placed + r.count := by
  rw [reserve]
  split
  · rfl
  have small : min space r.count ≤ r.count := Nat.min_le_right _ _
  rw [placed, placed]
  dsimp only
  rw [map_append, sum_append, map_singleton, sum_singleton]
  omega

theorem Sound.fill {offers : List (κ × Nat)} (sound : Sound h view area t r)
    (inArea : ∀ x ∈ offers, area x.1) (room : ∀ x ∈ offers, h.Room view t x.1 x.2) :
    Sound h view area t (fill offers r) := by
  rw [Reserving.fill]
  induction offers generalizing r with
  | nil => exact sound
  | cons x rest ih =>
    refine ih ?_ (fun y member => inArea y (mem_cons_of_mem _ member))
      fun y member => room y (mem_cons_of_mem _ member)
    dsimp only
    split
    · exact sound
    · rename_i left
      exact sound.reserve left (inArea x mem_cons_self) (room x mem_cons_self)

theorem fill_of_placed (offers : List (κ × Nat)) (all : r.count = 0) : fill offers r = r := by
  rw [fill]
  induction offers with
  | nil => rfl
  | cons x rest ih =>
    rw [foldl_cons, if_pos all]
    exact ih

theorem reserve_of_new {space : Nat} (isNew : k ∉ r.dest.map Prod.fst) : r.reserve k space =
      { dest := r.dest ++ [(k, min space r.count)], count := r.count - min space r.count } :=
  if_neg isNew

theorem placed_le_fill (offers : List (κ × Nat)) (r : Reserving κ) :
    r.placed ≤ (fill offers r).placed := by
  rw [fill]
  induction offers generalizing r with
  | nil => exact Nat.le_refl _
  | cons x rest ih =>
    refine Nat.le_trans ?_ (ih _)
    dsimp only
    split
    · exact Nat.le_refl _
    rw [reserve]
    split
    · exact Nat.le_refl _
    · rw [placed, placed, map_append, sum_append]
      exact Nat.le_add_right _ _

theorem fill_more {more : Nat} (offers : List (κ × Nat)) {r' : Reserving κ} (same : r'.dest = r.dest)
    (asked : r'.count = r.count + more) :
    ((fill offers r').dest = (fill offers r).dest ∧
        (fill offers r').count = (fill offers r).count + more) ∨
      ((fill offers r).count = 0 ∧ r.placed + r.count ≤ (fill offers r').placed) := by
  have samePlaced : r'.placed = r.placed := by
    rw [placed, placed, same]
  induction offers generalizing r r' with
  | nil => exact Or.inl ⟨same, asked⟩
  | cons x rest ih =>
    by_cases all : r.count = 0
    · -- less is enough already
      right
      rw [fill_of_placed _ all, all, ← samePlaced]
      exact ⟨rfl, placed_le_fill _ _⟩
    · have turn : ∀ s : Reserving κ, s.count ≠ 0 →
          fill (x :: rest) s = fill rest (s.reserve x.1 x.2) := by
        intro s left
        rw [fill, foldl_cons, if_neg left, ← fill]
      rw [turn r all, turn r' (by omega)]
      by_cases named : x.1 ∈ r.dest.map Prod.fst
      · rw [reserve, reserve, if_pos named, if_pos (same ▸ named)]
        exact ih same asked samePlaced
      have more_r := placed_reserve r x.1 x.2
      have more_r' := placed_reserve r' x.1 x.2
      have named' : x.1 ∉ r'.dest.map Prod.fst := same ▸ named
      by_cases short : x.2 < r.count
      · have taken : min x.2 r.count = x.2 := Nat.min_eq_left (Nat.le_of_lt short)
        have taken' : min x.2 r'.count = x.2 := Nat.min_eq_left (by omega)
        have dests : (r'.reserve x.1 x.2).dest = (r.reserve x.1 x.2).dest := by
          rw [reserve_of_new named, reserve_of_new named', taken, taken', same]
        have counts : (r'.reserve x.1 x.2).count = (r.reserve x.1 x.2).count + more := by
          rw [reserve_of_new named, reserve_of_new named', taken, taken']
          dsimp only
          omega
        rw [← more_r]
        exact ih dests counts (by omega)
      · -- this place is enough for less
        right
        have none : (r.reserve x.1 x.2).count = 0 := by
          rw [reserve_of_new named, Nat.min_eq_right (Nat.le_of_not_lt short)]
          exact Nat.sub_self _
        have most : (r'.reserve x.1 x.2).count ≤ more := by
          rw [reserve_of_new named']
          dsimp only
          omega
        have grows := placed_le_fill rest (r'.reserve x.1 x.2)
        rw [fill_of_placed rest none]
        exact ⟨none, by omega⟩

end Reserving

end Sky548
