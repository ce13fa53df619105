import Sky548.Items.Inventory
import Sky548.Machine

/-!
# Bought back

The twelve slots for items that were sold (`AddItemToBuyBackSlot`, `RemoveItemFromBuyBackSlot`) and
the slot that is to be filled next. When that one is not empty, the search for another takes the
oldest of those before the first empty slot, and not the empty slot.
-/

namespace Sky548

open Machine
open Function (update)

abbrev BuybackSlot := Fin 12

/-- The buyback slots of a player, the fields that go with them, and the items that were deleted. -/
structure Buyback where
  items : BuybackSlot → Option Item
  guids : BuybackSlot → UInt64
  prices : BuybackSlot → UInt32
  timestamps : BuybackSlot → UInt32
  /-- `m_currentBuybackSlot` -/
  current : BuybackSlot
  deleted : List Item

/-- What does not change: the selling prices of the items that have a template, and the time of the
login. -/
structure BuybackRules where
  sellPrice : UInt32 → Option UInt32
  logintime : ℤ

namespace Buyback

def start : Buyback where
  items _ := none
  guids _ := 0
  prices _ := 0
  timestamps _ := 0
  current := 0
  deleted := []

variable (rules : BuybackRules) (s : Buyback)

/-- `RemoveItemFromBuyBackSlot` of a slot there is. -/
def remove (eslot : BuybackSlot) (del : Bool) : Buyback :=
  let items := update s.items eslot none
  { items := items
    guids := update s.guids eslot 0
    prices := update s.prices eslot 0
    timestamps := update s.timestamps eslot 0
    current := if (items s.current).isSome then eslot else s.current
    deleted := if del then s.deleted ++ (s.items eslot).toList else s.deleted }

def removeItemFromBuyBackSlot (slot : UInt32) (del : Bool) : Buyback :=
  if inRange : buybackSlotStart ≤ slot.toNat ∧ slot.toNat < buybackSlotEnd then
    s.remove ⟨slot.toNat - buybackSlotStart, Nat.sub_lt_sub_right inRange.1 inRange.2⟩ del
  else s

/-- The loop that looks for the oldest slot. An empty one ends it, and is given up again. -/
def oldestOf : List BuybackSlot → UInt32 → BuybackSlot → BuybackSlot
  | [], _, oldestSlot => oldestSlot
  | i :: rest, oldestTime, oldestSlot =>
    if (s.items i).isNone then oldestSlot
    else if oldestTime > s.timestamps i then oldestOf rest (s.timestamps i) i
    else oldestOf rest oldestTime oldestSlot

def searched : List BuybackSlot := [1, 2, 3, 4, 5, 6, 7, 8, 9, 10, 11]

/-- The slot that `AddItemToBuyBackSlot` fills. -/
def slotFor : BuybackSlot :=
  if (s.items s.current).isSome then s.oldestOf searched (s.timestamps 0) 0 else s.current

/-- **`AddItemToBuyBackSlot`**, at a time -/
def addItemToBuyBackSlot (pItem : Item) (base : ℤ) : Buyback :=
  let slot := s.slotFor
  let s := s.remove slot true
  { items := update s.items slot (some pItem)
    guids := update s.guids slot (UInt64.ofNat pItem.guid)
    prices := update s.prices slot
      (((rules.sellPrice pItem.entry).map fun price => price * UInt32.ofNat pItem.count).getD 0)
    timestamps := update s.timestamps slot (UInt32.ofInt (base - rules.logintime + 30 * 3600))
    current := if s.current.val < 11 then s.current + 1 else s.current
    deleted := s.deleted }

/-- An item is sold, or a slot is bought back. -/
inductive Event
  | sell (pItem : Item) (base : ℤ)
  | buyBack (slot : UInt32)

def step (s : Buyback) : Event → Buyback
  | .sell pItem base => s.addItemToBuyBackSlot rules pItem base
  | .buyBack slot => s.removeItemFromBuyBackSlot slot false

/-- **No item is lost while there is room.** A sold item goes to one slot, which was empty, or it
replaces the oldest when no slot is; nothing else moves, and what is bought back is not deleted. -/
def Kept (s : Buyback) (e : Event) : Prop :=
  match e with
  | .sell pItem _ =>
    ∃ slot, (step rules s e).items = update s.items slot (some pItem) ∧
      (s.items slot = none ∧ (step rules s e).deleted = s.deleted ∨
        (∀ i, (s.items i).isSome = true) ∧ (∀ i, s.timestamps slot ≤ s.timestamps i) ∧
          (step rules s e).deleted = s.deleted ++ (s.items slot).toList)
  | .buyBack slot =>
    (step rules s e).deleted = s.deleted ∧
      ∀ i : BuybackSlot, buybackSlotStart + i.val ≠ slot.toNat →
        (step rules s e).items i = s.items i

/-- What a sale needs: the slot to be filled next is empty, or the first one is, or none is. -/
def Ready (s : Buyback) : Event → Prop
  | .sell .. =>
    s.items s.current = none ∨ s.items 0 = none ∨ ∀ i, (s.items i).isSome = true
  | .buyBack _ => True

variable {rules s}

/-- **The search** ends with a slot that is not empty if it begins with one, stays with a slot that
has no time, and finds the oldest of full slots. -/
theorem oldestOf_spec (l : List BuybackSlot) : ∀ (time : UInt32) (slot : BuybackSlot),
    s.timestamps slot = time →
      ((s.items slot).isSome = true → (s.items (s.oldestOf l time slot)).isSome = true) ∧
      (time = 0 → s.oldestOf l time slot = slot) ∧
      ((∀ i ∈ l, (s.items i).isSome = true) → s.timestamps (s.oldestOf l time slot) ≤ time ∧
        ∀ i ∈ l, s.timestamps (s.oldestOf l time slot) ≤ s.timestamps i) := by
  induction l with
  | nil =>
    intro time slot isTime
    refine ⟨id, fun _ => rfl, fun _ => ⟨UInt32.le_of_eq isTime, fun i member => ?_⟩⟩
    cases member
  | cons i rest ih =>
    intro time slot isTime
    unfold oldestOf
    split
    · rename_i isEmpty
      refine ⟨id, fun _ => rfl, fun full => ?_⟩
      have isFull := full i List.mem_cons_self
      rw [Option.isNone_iff_eq_none.mp isEmpty] at isFull
      cases isFull
    · rename_i notEmpty
      have isFull : (s.items i).isSome = true := by
        rw [Option.isSome_iff_ne_none]
        exact fun isNone => notEmpty (Option.isNone_iff_eq_none.mpr isNone)
      split
      · rename_i older
        obtain ⟨full, zero, least⟩ := ih (s.timestamps i) i rfl
        refine ⟨fun _ => full isFull, fun isZero => ?_, fun all => ?_⟩
        · rw [isZero] at older
          exact absurd older UInt32.not_lt_zero
        obtain ⟨atMost, others⟩ := least fun j member => all j (List.mem_cons_of_mem i member)
        refine ⟨UInt32.le_trans atMost (UInt32.le_of_lt older), fun j member => ?_⟩
        rcases List.mem_cons.mp member with rfl | inRest
        · exact atMost
        · exact others j inRest
      · rename_i notOlder
        obtain ⟨full, zero, least⟩ := ih time slot isTime
        refine ⟨full, zero, fun all => ?_⟩
        obtain ⟨atMost, others⟩ := least fun j member => all j (List.mem_cons_of_mem i member)
        refine ⟨atMost, fun j member => ?_⟩
        rcases List.mem_cons.mp member with rfl | inRest
        · exact UInt32.le_trans atMost (UInt32.not_lt.mp notOlder)
        · exact others j inRest

theorem searched_complete (i : BuybackSlot) : i = 0 ∨ i ∈ searched := by
  revert i
  decide

theorem step_sell (pItem : Item) (base : ℤ) :
    (step rules s (.sell pItem base)).items = update s.items s.slotFor (some pItem) ∧
      (step rules s (.sell pItem base)).deleted = s.deleted ++ (s.items s.slotFor).toList := by
  refine ⟨?_, rfl⟩
  change update (update s.items s.slotFor none) s.slotFor (some pItem) = _
  rw [Function.update_idem]

/-- An empty slot has no time. -/
def Timeless (s : Buyback) : Prop := ∀ i, s.items i = none → s.timestamps i = 0

theorem timeless_start : start.Timeless := fun _ _ => rfl

theorem Timeless.remove (timeless : s.Timeless) (slot : BuybackSlot) (del : Bool) :
    (s.remove slot del).Timeless := by
  intro i isNone
  change update s.timestamps slot 0 i = 0
  have isNone : update s.items slot none i = none := isNone
  rcases eq_or_ne i slot with rfl | other
  · exact Function.update_self i 0 s.timestamps
  · rw [Function.update_of_ne other] at isNone ⊢
    exact timeless i isNone

theorem Timeless.step (timeless : s.Timeless) (e : Event) : (step rules s e).Timeless := by
  cases e with
  | sell pItem base =>
    have removed := timeless.remove s.slotFor true
    intro i isNone
    change update (s.remove s.slotFor true).timestamps s.slotFor _ i = 0
    have isNone : update (s.remove s.slotFor true).items s.slotFor (some pItem) i =
      none := isNone
    rcases eq_or_ne i s.slotFor with here | other
    · rw [here, Function.update_self] at isNone
      cases isNone
    · rw [Function.update_of_ne other] at isNone ⊢
      exact removed i isNone
  | buyBack slot =>
    unfold Buyback.step removeItemFromBuyBackSlot
    dsimp only
    split
    · exact timeless.remove _ false
    · exact timeless

theorem kept_buyBack (slot : UInt32) : Kept rules s (.buyBack slot) := by
  unfold Kept step removeItemFromBuyBackSlot
  dsimp only
  split
  · rename_i inRange
    refine ⟨rfl, fun i other => ?_⟩
    apply Function.update_of_ne
    intro same
    apply other
    rw [same]
    exact Nat.add_sub_of_le inRange.1
  · exact ⟨rfl, fun _ _ => rfl⟩

theorem kept_sell_iff (timeless : s.Timeless) (pItem : Item) (base : ℤ) :
    Kept rules s (.sell pItem base) ↔ Ready s (.sell pItem base) := by
  obtain ⟨items, deleted⟩ := @step_sell rules s pItem base
  obtain ⟨stays, zero, least⟩ := oldestOf_spec (s := s) searched _ 0 rfl
  unfold Kept Ready
  rw [items, deleted]
  constructor
  · rintro ⟨slot, -, ⟨-, nothing⟩ | ⟨full, -, -⟩⟩
    · have isNone : s.items s.slotFor = none := by
        have same := List.append_cancel_left (nothing.trans (List.append_nil s.deleted).symm)
        cases there : s.items s.slotFor with
        | none => rfl
        | some item =>
          rw [there] at same
          cases same
      unfold slotFor at isNone
      split at isNone
      · refine Or.inr (Or.inl ?_)
        rcases first : s.items 0 with _ | item
        · rfl
        have isSome := stays (by rw [first]; rfl)
        rw [isNone] at isSome
        cases isSome
      · exact Or.inl isNone
    · exact Or.inr (Or.inr full)
  · intro ready
    refine ⟨s.slotFor, rfl, ?_⟩
    unfold slotFor
    split
    · rename_i isSome
      rcases ready with isNone | isNone | full
      · rw [isNone] at isSome
        cases isSome
      · rw [zero (timeless 0 isNone), isNone]
        exact Or.inl ⟨rfl, List.append_nil _⟩
      · obtain ⟨atMost, others⟩ := least fun i _ => full i
        refine Or.inr ⟨full, fun i => ?_, rfl⟩
        rcases searched_complete i with rfl | member
        · exact atMost
        · exact others i member
    · rename_i notSome
      have isNone : s.items s.current = none := Option.not_isSome_iff_eq_none.mp notSome
      rw [isNone]
      exact Or.inl ⟨rfl, List.append_nil _⟩

/-- **In every run no item is lost while there is room exactly when** at every sale the slot to be
filled next is empty, or the first slot is, or none is. -/
theorem kept_iff_ready (rules : BuybackRules) (events : List Event) :
    EachStep (step rules) (Kept rules) start events ↔ EachStep (step rules) Ready start events := by
  refine eachStep_iff timeless_start (fun s e timeless _ => timeless.step e) fun s e timeless => ?_
  cases e with
  | sell pItem base => exact kept_sell_iff timeless pItem base
  | buyBack slot =>
    exact ⟨fun _ => True.intro, fun _ => kept_buyBack slot⟩

/-- An item of some number, one second after another. -/
def sale (n : Nat) : Event :=
  .sell ⟨n, 1, 1, ⟨1, false, false, [], false, false, [], false⟩⟩ n

def noPrices : BuybackRules := ⟨fun _ => none, 0⟩

/-- The list is filled, two slots are bought back, and one of them is filled again. -/
def soldAndBought : List Event :=
  (List.range 12).map sale ++ [.buyBack 79, .buyBack 81, sale 12]

/-- **The first item is deleted for the next one**, and the other slot is empty still. -/
theorem not_kept_soldAndBought : ((run (step noPrices) start soldAndBought).items 7).isNone = true ∧
      ((run (step noPrices) start (soldAndBought ++ [sale 13])).deleted.map fun item => item.guid) =
        [0] ∧
      ¬ Kept noPrices (run (step noPrices) start soldAndBought) (sale 13) := by
  have hasTimeless : (run (step noPrices) start soldAndBought).Timeless :=
    (Throughout.of_step timeless_start fun s e timeless => timeless.step e).last
  have isNone : ((run (step noPrices) start soldAndBought).items 7).isNone = true := by
    decide +kernel
  refine ⟨isNone, by decide +kernel, fun kept => ?_⟩
  rcases (kept_sell_iff hasTimeless _ _).mp kept with current | first | full
  · exact absurd (congrArg Option.isNone current) (by decide +kernel)
  · exact absurd (congrArg Option.isNone first) (by decide +kernel)
  · have isSome := full 7
    rw [Option.isNone_iff_eq_none.mp isNone] at isSome
    cases isSome

end Buyback

end Sky548
