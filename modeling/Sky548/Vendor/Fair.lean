import Sky548.Vendor.Model

/-!
# Fair currency purchases

When `BuyCurrencyFromVendorSlot` leaves a player who is refused with what he had, and one who is not
with what the price says. It charges the required currencies once while it still checks, once more at
the end, and gives one lot however many are asked for. So a purchase is fair if it is refused before
anything is charged, or if it is one lot and the player has just the required currencies.
-/

namespace Sky548

namespace ItemExtendedCostEntry

variable (iece : ItemExtendedCostEntry)

/-- What the price asks of a currency, for one lot, at some of its positions. -/
def currencyDueAt (list : List (Fin 5)) (id : UInt32) : Nat :=
  (list.map fun i => if iece.requiredCurrency i ≠ 0 ∧ iece.requiredCurrency i = id then
    (iece.requiredCurrencyCount i).toNat else 0).sum

def currencyDue (id : UInt32) : Nat := iece.currencyDueAt (List.finRange 5) id

def itemDueAt (list : List (Fin 5)) (entry : UInt32) : Nat :=
  (list.map fun i => if iece.requiredItem i ≠ 0 ∧ iece.requiredItem i = entry then
    (iece.requiredItemCount i).toNat else 0).sum

def itemDue (entry : UInt32) : Nat := iece.itemDueAt (List.finRange 5) entry

end ItemExtendedCostEntry

namespace VendorRules

variable (V : VendorRules) (c : Customer)

/-- The price is paid so many times, and so many lots are given; currencies that are neither bought nor
required and items that are not required are as they were. -/
structure Paid (currency : UInt32) (o : Offer) (s after : Possessions) : Prop where
  items : ∀ entry, Shelf.amount (Place.heldBy c.player) entry after.items.shelf +
      o.times.toNat * o.iece.itemDue entry =
    Shelf.amount (Place.heldBy c.player) entry s.items.shelf
  currencies : ∀ id, after.purse.total id + o.times.toNat * o.iece.currencyDue id =
    s.purse.total id + if id = currency then
      o.times.toNat * (o.crItem.maxcount.toNat * (V.precision currency).toNat) else 0

/-- **A purchase is fair**: it ends, a refused one changes nothing, and one that is not is paid. -/
def IsFair (vendor : Option (List VendorItem)) (vendorSlot currency count : UInt32)
    (s : Possessions) : Prop :=
  ∃ bought after, V.buyCurrencyFromVendorSlot c vendor vendorSlot currency count s =
      some (bought, after) ∧
    (bought = false → after = s) ∧
    (bought = true → ∀ o, V.currencyOffer c vendor vendorSlot currency count s = some (some o) →
      V.Paid c currency o s after)

/-- Charging a required currency costs nothing: none of it is asked, or the player has none. -/
def Costless (iece : ItemExtendedCostEntry) (p : Purse) (i : Fin 5) : Prop :=
  iece.requiredCurrencyCount i = 0 ∨
    p.InOrder V.currencies (iece.requiredCurrency i) ∧
      (iece.requiredCurrencyCount i).toNat < 2 ^ 31 ∧ p.total (iece.requiredCurrency i) = 0

/-- The currencies that are found to be there, up to the first that is not, cost nothing. -/
def Free (iece : ItemExtendedCostEntry) (times : UInt32) (p : Purse) : List (Fin 5) → Prop
  | [] => True
  | i :: rest =>
    (iece.requiredCurrency i ≠ 0 → V.hasRequiredCurrency iece times i p = true →
      V.Costless iece p i) ∧
    ((iece.requiredCurrency i ≠ 0 → V.hasRequiredCurrency iece times i p = true) →
      Free iece times p rest)

def hasRequiredCurrencies (iece : ItemExtendedCostEntry) (times : UInt32) (p : Purse)
    (list : List (Fin 5)) : Bool :=
  list.all fun i => iece.requiredCurrency i = 0 || V.hasRequiredCurrency iece times i p

/-- They are, each beside those before it for one lot. -/
def affords (iece : ItemExtendedCostEntry) (times : UInt32) (known : UInt32 → Bool) :
    List (Fin 5) → (UInt32 → Nat) → Bool
  | [], _ => true
  | i :: rest, totals =>
    if iece.requiredCurrency i = 0 then affords iece times known rest totals
    else if (V.currencies.lookupEntry (iece.requiredCurrency i)).isNone then false
    else if iece.isSeasonEarned i then false
    else if known (iece.requiredCurrency i) &&
        (iece.requiredCurrencyCount i * times).toNat ≤ totals (iece.requiredCurrency i) then
      affords iece times known rest (Function.update totals (iece.requiredCurrency i)
        (totals (iece.requiredCurrency i) - (iece.requiredCurrencyCount i).toNat))
    else false

/-- An ordinary price of an ordinary currency: the bought one is none of those required, none is a
conquest meta currency, the player is within all caps, counts are values of `int32`, no required
item is a bag, and the player has less than 2^32 of each. -/
structure Ordinary (currency : UInt32) (o : Offer) (s : Possessions) : Prop where
  bought : s.purse.InOrder V.currencies currency
  required : ∀ i, o.iece.requiredCurrency i ≠ 0 →
    s.purse.InOrder V.currencies (o.iece.requiredCurrency i) ∧
      (o.iece.requiredCurrencyCount i).toNat < 2 ^ 31
  other : ∀ i, o.iece.requiredCurrency i ≠ 0 → o.iece.requiredCurrency i ≠ currency
  tidy : s.items.Tidy V.rules.maxStack
  items : ∀ i, o.iece.requiredItem i ≠ 0 →
    (V.rules.getItemTemplate (o.iece.requiredItem i)).inventoryType ≠ invtypeBag ∧
      V.rules.available s.items c.player (o.iece.requiredItem i) < 2 ^ 32

def accepts (o : Offer) (s : Possessions) : Bool :=
  V.affords o.iece o.times (fun id => (s.purse.currencyStorage id).isSome) (List.finRange 5)
    s.purse.total && o.iece.admits c

/-- One lot is bought, and there is room for it; the player has just what is required of the
currencies, and what is required of the items. -/
structure Exactly (currency : UInt32) (o : Offer) (s : Possessions) : Prop where
  single : o.times = 1
  small : o.crItem.maxcount.toNat * (V.precision currency).toNat < 2 ^ 31
  room : ∀ entry, V.currencies.lookupEntry currency = some entry →
    entry.RoomFor (s.purse.getCurrencyWeekCap V.currencies entry) (s.purse.counts currency)
      (o.crItem.maxcount.toNat * (V.precision currency).toNat)
  currencies : ∀ id, o.iece.currencyDue id = 0 ∨ s.purse.total id = o.iece.currencyDue id
  items : ∀ entry, o.iece.itemDue entry ≤ V.rules.available s.items c.player entry

/-- **When a purchase is fair**: it is refused before anything that costs something is charged, or it
is an ordinary one of one lot for just what the player has. -/
def Fair (vendor : Option (List VendorItem)) (vendorSlot currency count : UInt32)
    (s : Possessions) : Prop :=
  V.currencyOffer c vendor vendorSlot currency count s ≠ none ∧
    ∀ o, V.currencyOffer c vendor vendorSlot currency count s = some (some o) →
      V.Free o.iece o.times s.purse (List.finRange 5) ∧
          (V.hasRequiredCurrencies o.iece o.times s.purse (List.finRange 5) &&
            o.iece.admits c) = false ∨
        V.Ordinary c currency o s ∧ V.accepts c o s = true ∧ V.Exactly c currency o s

variable {V c} {iece : ItemExtendedCostEntry} {times : UInt32} {p p' : Purse}

theorem hasCurrency_iff {id count : UInt32} : p.hasCurrency id count = true ↔
      (p.currencyStorage id).isSome = true ∧ count.toNat ≤ p.total id := by
  rw [Purse.hasCurrency, Purse.total, Purse.counts]
  cases p.currencyStorage id with
  | none =>
    constructor
    · intro has
      cases has
    · intro both
      cases both.1
  | some cur =>
    rw [Option.any_some, decide_eq_true_eq, ge_iff_le, UInt32.le_iff_toNat_le]
    exact ⟨fun enough => ⟨rfl, enough⟩, And.right⟩

theorem hasRequiredCurrency_iff {i : Fin 5} : V.hasRequiredCurrency iece times i p = true ↔
      (V.currencies.lookupEntry (iece.requiredCurrency i)).isNone = false ∧
        iece.isSeasonEarned i = false ∧
        (p.currencyStorage (iece.requiredCurrency i)).isSome = true ∧
        (iece.requiredCurrencyCount i * times).toNat ≤ p.total (iece.requiredCurrency i) := by
  rw [← hasCurrency_iff, hasRequiredCurrency]
  cases (V.currencies.lookupEntry (iece.requiredCurrency i)).isNone with
  | true =>
    rw [if_pos rfl]
    exact ⟨fun has => absurd has Bool.false_ne_true, fun all => absurd all.1.symm Bool.false_ne_true⟩
  | false =>
    rw [if_neg Bool.false_ne_true]
    cases iece.isSeasonEarned i with
    | true =>
      rw [if_pos rfl]
      exact ⟨fun has => absurd has Bool.false_ne_true,
        fun all => absurd all.2.1.symm Bool.false_ne_true⟩
    | false =>
      rw [if_neg Bool.false_ne_true]
      exact ⟨fun has => ⟨rfl, rfl, has⟩, fun all => all.2.2⟩

theorem charge_eq {i : Fin 5} (small : (iece.requiredCurrencyCount i).toNat < 2 ^ 31) :
    iece.charge i = -((iece.requiredCurrencyCount i).toNat : ℤ) := by
  rw [ItemExtendedCostEntry.charge, CurrencyTypesEntry.toInt32_toNat small, toInt32_of_bounds (by omega) (by omega)]

theorem charge_of_costless {i : Fin 5} (costless : V.Costless iece p i)
    (has : V.hasRequiredCurrency iece times i p = true) :
    p.modifyCurrencyAsIs V.currencies (iece.requiredCurrency i) (iece.charge i) = some p := by
  rcases costless with zero | ⟨inOrder, small, none⟩
  · have nothing : iece.charge i = 0 := by
      rw [ItemExtendedCostEntry.charge, zero]
      decide
    rw [nothing]
    exact if_pos rfl
  · obtain ⟨isType, -, known, -⟩ := hasRequiredCurrency_iff.mp has
    obtain ⟨currency, isType⟩ := Option.isSome_iff_exists.mp (Option.isNone_eq_false_iff.mp isType)
    rw [charge_eq small]
    obtain ⟨p', called, spent⟩ := Purse.spend isType inOrder (Nat.le_of_lt small)
    have same : p'.total (iece.requiredCurrency i) = p.total (iece.requiredCurrency i) := by
      rw [spent.total, none, Nat.zero_sub]
    rw [called, Purse.modifyCurrencyAsIs_of_total isType inOrder called known same]

theorem chargeOne_of_costless {i : Fin 5} (costless : iece.requiredCurrency i ≠ 0 →
      V.hasRequiredCurrency iece times i p = true → V.Costless iece p i) :
    V.chargeOne iece times i p =
      some (iece.requiredCurrency i = 0 || V.hasRequiredCurrency iece times i p, p) := by
  rw [chargeOne]
  by_cases none : iece.requiredCurrency i = 0
  · rw [if_pos none, decide_eq_true none, Bool.true_or]
  rw [if_neg none, decide_eq_false none, Bool.false_or]
  cases has : V.hasRequiredCurrency iece times i p with
  | false => rw [Bool.not_false, if_pos rfl]
  | true =>
    rw [Bool.not_true, if_neg Bool.false_ne_true, charge_of_costless (costless none has) has]
    rfl

theorem chargeRequired_of_free {list : List (Fin 5)} (free : V.Free iece times p list) :
    V.chargeRequired iece times list p = some (V.hasRequiredCurrencies iece times p list, p) := by
  induction list with
  | nil => rfl
  | cons i rest ih =>
    obtain ⟨costless, later⟩ := free
    rw [chargeRequired, chargeOne_of_costless costless, hasRequiredCurrencies, List.all_cons,
      Option.bind_some]
    rcases passes : (iece.requiredCurrency i = 0 || V.hasRequiredCurrency iece times i p : Bool) with _ | _
    · rw [if_neg Bool.false_ne_true, Bool.false_and]
    rw [if_pos rfl, Bool.true_and]
    refine ih (later fun some => ?_)
    rw [decide_eq_false some, Bool.false_or] at passes
    exact passes

def Sound (V : VendorRules) (iece : ItemExtendedCostEntry) (p : Purse) : Prop :=
  ∀ i, iece.requiredCurrency i ≠ 0 → p.InOrder V.currencies (iece.requiredCurrency i) ∧
    (iece.requiredCurrencyCount i).toNat < 2 ^ 31

/-- Of some currencies there is less, and all else is as it was. -/
structure Lowered (V : VendorRules) (p p' : Purse) : Prop where
  inOrder : ∀ id, p.InOrder V.currencies id → p'.InOrder V.currencies id
  known : ∀ id, (p'.currencyStorage id).isSome = (p.currencyStorage id).isSome
  less : ∀ id, p'.total id ≤ p.total id
  cap : p'.conquestTotalWeekCap = p.conquestTotalWeekCap

theorem Lowered.refl (V : VendorRules) (p : Purse) : V.Lowered p p :=
  ⟨fun _ inOrder => inOrder, fun _ => rfl, fun _ => Nat.le_refl _, rfl⟩

theorem Lowered.trans {p'' : Purse} (first : V.Lowered p p') (later : V.Lowered p' p'') :
    V.Lowered p p'' where
  inOrder := fun id inOrder => later.inOrder id (first.inOrder id inOrder)
  known := fun id => (later.known id).trans (first.known id)
  less := fun id => Nat.le_trans (later.less id) (first.less id)
  cap := later.cap.trans first.cap

theorem Lowered.sound (lowered : V.Lowered p p') (sound : V.Sound iece p) : V.Sound iece p' :=
  fun i some => ⟨lowered.inOrder _ (sound i some).1, (sound i some).2⟩

theorem total_of_spent {id other : UInt32} {amount : Nat} (spent : Purse.Spent p p' id amount) :
    p'.total other = Function.update p.total id (p.total id - amount) other := by
  rw [Function.update_apply]
  split
  · rename_i isIt
    rw [isIt]
    exact spent.total
  · rename_i isOther
    rw [Purse.total, Purse.total, Purse.counts_congr (spent.others other isOther)]

theorem lowered_of_spent {id : UInt32} {amount : Nat} (spent : Purse.Spent p p' id amount)
    (known : (p.currencyStorage id).isSome = true) : V.Lowered p p' where
  inOrder := fun _ inOrder => spent.inOrder inOrder
  known := by
    intro other
    by_cases isIt : other = id
    · rw [isIt, known, spent.known known]
    · rw [spent.others other isIt]
  less := by
    intro other
    rw [total_of_spent spent, Function.update_apply]
    split
    · rename_i isIt
      rw [isIt]
      exact Nat.sub_le _ _
    · exact Nat.le_refl _
  cap := spent.cap

theorem chargeOne_of_has {i : Fin 5} (some' : iece.requiredCurrency i ≠ 0)
    (has : V.hasRequiredCurrency iece times i p = true) (sound : V.Sound iece p) :
    ∃ p', V.chargeOne iece times i p = some (true, p') ∧
      Purse.Spent p p' (iece.requiredCurrency i) (iece.requiredCurrencyCount i).toNat ∧
      (p'.total (iece.requiredCurrency i) = p.total (iece.requiredCurrency i) → p' = p) := by
  obtain ⟨inOrder, small⟩ := sound i some'
  obtain ⟨isType, -, known, -⟩ := hasRequiredCurrency_iff.mp has
  obtain ⟨currency, isType⟩ := Option.isSome_iff_exists.mp (Option.isNone_eq_false_iff.mp isType)
  obtain ⟨p', called, spent⟩ := Purse.spend isType inOrder (Nat.le_of_lt small)
  refine ⟨p', ?_, spent, Purse.modifyCurrencyAsIs_of_total isType inOrder called known⟩
  rw [chargeOne, if_neg some', has, Bool.not_true, if_neg Bool.false_ne_true, charge_eq small, called]
  rfl

theorem currencyDueAt_cons (i : Fin 5) (rest : List (Fin 5)) (id : UInt32) :
    iece.currencyDueAt (i :: rest) id =
      (if iece.requiredCurrency i ≠ 0 ∧ iece.requiredCurrency i = id then
        (iece.requiredCurrencyCount i).toNat else 0) + iece.currencyDueAt rest id := rfl

/-- What the first loop does to an ordinary purse. -/
structure ChargedOnce (V : VendorRules) (iece : ItemExtendedCostEntry) (times : UInt32)
    (list : List (Fin 5)) (p p' : Purse) : Prop where
  lowered : V.Lowered p p'
  total : V.affords iece times (fun id => (p.currencyStorage id).isSome) list p.total = true →
    ∀ id, p'.total id = p.total id - iece.currencyDueAt list id
  free : p' = p → V.Free iece times p list
  others : ∀ id, (∀ i, iece.requiredCurrency i ≠ 0 → iece.requiredCurrency i ≠ id) →
    p'.counts id = p.counts id

theorem chargeRequired_spec {list : List (Fin 5)} : ∀ {p : Purse}, V.Sound iece p →
    ∃ p', V.chargeRequired iece times list p = some (V.affords iece times
        (fun id => (p.currencyStorage id).isSome) list p.total, p') ∧
      V.ChargedOnce iece times list p p' := by
  induction list with
  | nil =>
    intro p sound
    exact ⟨p, rfl, Lowered.refl V p, fun _ _ => rfl, fun _ => trivial, fun _ _ => rfl⟩
  | cons i rest ih =>
    intro p sound
    rw [chargeRequired]
    by_cases none : iece.requiredCurrency i = 0
    · obtain ⟨p', loop, charged⟩ := ih sound
      have passes : V.affords iece times (fun id => (p.currencyStorage id).isSome) (i :: rest)
          p.total = V.affords iece times (fun id => (p.currencyStorage id).isSome) rest
            p.total := by
        rw [affords, if_pos none]
      refine ⟨p', ?_, charged.lowered, ?_, ?_, charged.others⟩
      · rw [chargeOne, if_pos none, passes]
        exact loop
      · intro affords id
        rw [passes] at affords
        rw [currencyDueAt_cons, if_neg fun both => both.1 none, Nat.zero_add]
        exact charged.total affords id
      · exact fun same => ⟨fun some => absurd none some, fun _ => charged.free same⟩
    · cases has : V.hasRequiredCurrency iece times i p with
      | false =>
        have refused : V.affords iece times (fun id => (p.currencyStorage id).isSome) (i :: rest)
            p.total = false := by
          rw [affords, if_neg none]
          split
          · rfl
          rename_i isType
          split
          · rfl
          rename_i season
          split
          · rename_i enough
            rw [Bool.and_eq_true, decide_eq_true_eq] at enough
            rw [hasRequiredCurrency_iff.mpr ⟨Bool.not_eq_true _ ▸ isType,
              Bool.not_eq_true _ ▸ season, enough.1, enough.2⟩] at has
            cases has
          · rfl
        rw [refused]
        refine ⟨p, ?_, Lowered.refl V p, ?_, ?_, fun _ _ => rfl⟩
        · rw [chargeOne, if_neg none, has, Bool.not_false, if_pos rfl]
          rfl
        · intro affords
          exact absurd (refused.symm.trans affords) Bool.false_ne_true
        · intro _
          refine ⟨fun _ has' => ?_, fun has' => ?_⟩
          · rw [has] at has'
            cases has'
          · rw [has' none] at has
            cases has
      | true =>
        obtain ⟨isType, season, known, enough⟩ := hasRequiredCurrency_iff.mp has
        obtain ⟨p₁, turn, spent, stays⟩ := chargeOne_of_has none has sound
        have lowered : V.Lowered p p₁ := lowered_of_spent spent known
        obtain ⟨p', loop, charged⟩ := ih (lowered.sound sound)
        have totals : p₁.total = Function.update p.total (iece.requiredCurrency i)
            (p.total (iece.requiredCurrency i) - (iece.requiredCurrencyCount i).toNat) :=
          funext fun id => total_of_spent spent
        have same : (fun id => (p₁.currencyStorage id).isSome) =
            fun id => (p.currencyStorage id).isSome := funext lowered.known
        have passes : V.affords iece times (fun id => (p.currencyStorage id).isSome) (i :: rest)
            p.total = V.affords iece times (fun id => (p₁.currencyStorage id).isSome) rest
              p₁.total := by
          rw [affords, if_neg none, isType, if_neg Bool.false_ne_true, season,
            if_neg Bool.false_ne_true, known, Bool.true_and, if_pos (decide_eq_true enough), same,
            totals]
        rw [passes]
        refine ⟨p', ?_, lowered.trans charged.lowered, ?_, ?_, ?_⟩
        · rw [turn, Option.bind_some]
          exact loop
        · intro affords id
          rw [charged.total (passes.symm.trans affords) id, total_of_spent spent, Function.update_apply,
            currencyDueAt_cons]
          by_cases isIt : id = iece.requiredCurrency i
          · rw [if_pos isIt, if_pos ⟨none, isIt.symm⟩, isIt]
            omega
          · rw [if_neg isIt, if_neg fun both => isIt both.2.symm, Nat.zero_add]
        · intro unchanged
          have all : p₁.total (iece.requiredCurrency i) = p.total (iece.requiredCurrency i) := by
            refine Nat.le_antisymm (lowered.less _) ?_
            rw [← unchanged]
            exact charged.lowered.less _
          have first := stays all
          rw [first] at charged
          refine ⟨fun _ _ => ?_, fun _ => charged.free unchanged⟩
          have spentTotal := spent.total
          rw [all] at spentTotal
          by_cases zero : iece.requiredCurrencyCount i = 0
          · exact Or.inl zero
          · have positive : (iece.requiredCurrencyCount i).toNat ≠ 0 :=
              fun isZero => zero (UInt32.toNat_inj.mp isZero)
            exact Or.inr ⟨(sound i none).1, (sound i none).2, by omega⟩
        · intro id isOther
          rw [charged.others id isOther]
          exact Purse.counts_congr (spent.others id (isOther i none).symm)

theorem chargeOf_one {i : Fin 5} (small : (iece.requiredCurrencyCount i).toNat < 2 ^ 31) :
    iece.chargeOf 1 i = -((iece.requiredCurrencyCount i).toNat : ℤ) := by
  rw [ItemExtendedCostEntry.chargeOf, UInt32.mul_one, UInt32.toNat_sub]
  by_cases zero : (iece.requiredCurrencyCount i).toNat = 0
  · rw [zero]
    decide
  · rw [UInt32.toNat_zero, Nat.add_zero, Nat.mod_eq_of_lt (by omega)]
    rw [Nat.cast_sub (by omega), toInt32, Int.bmod_def]
    omega

/-- Every required currency is known, and none is earned in a season. -/
def Listed (V : VendorRules) (iece : ItemExtendedCostEntry) : Prop :=
  ∀ i, iece.requiredCurrency i ≠ 0 →
    (V.currencies.lookupEntry (iece.requiredCurrency i)).isSome = true ∧
      iece.isSeasonEarned i = false

theorem listed_of_affords {known : UInt32 → Bool} {list : List (Fin 5)} :
    ∀ {totals : UInt32 → Nat}, V.affords iece times known list totals = true →
      ∀ i ∈ list, iece.requiredCurrency i ≠ 0 →
        (V.currencies.lookupEntry (iece.requiredCurrency i)).isSome = true ∧
          iece.isSeasonEarned i = false := by
  induction list with
  | nil => exact fun _ i member => absurd member List.not_mem_nil
  | cons first rest ih =>
    intro totals affords i member some
    rw [VendorRules.affords] at affords
    by_cases none : iece.requiredCurrency first = 0
    · rw [if_pos none] at affords
      rcases List.mem_cons.mp member with rfl | later
      · exact absurd none some
      · exact ih affords i later some
    · rw [if_neg none] at affords
      split at affords
      · cases affords
      rename_i isType
      split at affords
      · cases affords
      rename_i season
      split at affords
      · rcases List.mem_cons.mp member with rfl | later
        · exact ⟨Option.isNone_eq_false_iff.mp (Bool.eq_false_iff.mpr isType),
            Bool.eq_false_iff.mpr season⟩
        · exact ih affords i later some
      · cases affords

theorem chargeAgain_one (listed : V.Listed iece) {list : List (Fin 5)} :
    ∀ {p : Purse}, V.Sound iece p → ∃ p', list.foldlM (V.chargeOneAgain iece 1) p = some p' ∧
        ∀ id, p'.total id = p.total id - iece.currencyDueAt list id := by
  induction list with
  | nil => exact fun {p} _ => ⟨p, rfl, fun _ => rfl⟩
  | cons i rest ih =>
    intro p sound
    rw [List.foldlM_cons, chargeOneAgain]
    by_cases none : iece.requiredCurrency i = 0
    · obtain ⟨p', loop, total⟩ := ih sound
      rw [if_pos none]
      refine ⟨p', loop, fun id => ?_⟩
      rw [total, currencyDueAt_cons, if_neg fun both => both.1 none, Nat.zero_add]
    · obtain ⟨inOrder, small⟩ := sound i none
      obtain ⟨isType, season⟩ := listed i none
      obtain ⟨currency, isType⟩ := Option.isSome_iff_exists.mp isType
      obtain ⟨p₁, called, spent⟩ := Purse.spend isType inOrder (Nat.le_of_lt small)
      have sound' : V.Sound iece p₁ := fun j some => ⟨spent.inOrder (sound j some).1, (sound j some).2⟩
      obtain ⟨p', loop, total⟩ := ih sound'
      rw [if_neg none, season, if_neg Bool.false_ne_true, chargeOf_one small, called]
      refine ⟨p', loop, fun id => ?_⟩
      rw [total, total_of_spent spent, Function.update_apply, currencyDueAt_cons]
      by_cases isIt : id = iece.requiredCurrency i
      · rw [if_pos isIt, if_pos ⟨none, isIt.symm⟩, isIt]
        omega
      · rw [if_neg isIt, if_neg fun both => isIt both.2.symm, Nat.zero_add]

theorem chargeAgain_others (listed : V.Listed iece)
    (plain : ∀ i currency, iece.requiredCurrency i ≠ 0 →
      V.currencies.lookupEntry (iece.requiredCurrency i) = some currency →
        currency.category ≠ currencyCategoryMetaConquest) {list : List (Fin 5)} :
    ∀ {p : Purse}, ∃ p', list.foldlM (V.chargeOneAgain iece times) p = some p' ∧
      ∀ id, (∀ i, iece.requiredCurrency i ≠ 0 → iece.requiredCurrency i ≠ id) →
        p'.counts id = p.counts id := by
  induction list with
  | nil => exact fun {p} => ⟨p, rfl, fun _ _ => rfl⟩
  | cons i rest ih =>
    intro p
    rw [List.foldlM_cons, chargeOneAgain]
    by_cases none : iece.requiredCurrency i = 0
    · rw [if_pos none]
      exact ih
    obtain ⟨isType, season⟩ := listed i none
    obtain ⟨currency, isType⟩ := Option.isSome_iff_exists.mp isType
    obtain ⟨p₁, called, others⟩ := @Purse.modifyCurrencyAsIs_others p V.currencies _ _ isType
      (plain i currency none isType) (iece.chargeOf times i)
    obtain ⟨p', loop, stay⟩ := @ih p₁
    rw [if_neg none, season, if_neg Bool.false_ne_true, called]
    refine ⟨p', loop, fun id isOther => ?_⟩
    rw [stay id isOther]
    exact Purse.counts_congr (others id (isOther i none).symm)

theorem itemDueAt_cons (i : Fin 5) (rest : List (Fin 5)) (entry : UInt32) :
    iece.itemDueAt (i :: rest) entry =
      (if iece.requiredItem i ≠ 0 ∧ iece.requiredItem i = entry then
        (iece.requiredItemCount i).toNat else 0) + iece.itemDueAt rest entry := rfl

theorem destroyRequired_one {list : List (Fin 5)} : ∀ {w : ItemWorld}, w.Tidy V.rules.maxStack →
    (∀ i, iece.requiredItem i ≠ 0 →
      (V.rules.getItemTemplate (iece.requiredItem i)).inventoryType ≠ invtypeBag ∧
        V.rules.available w c.player (iece.requiredItem i) < 2 ^ 32) →
    ∀ entry, V.rules.available (list.foldl (fun w i =>
          if iece.requiredItem i ≠ 0 then
            V.rules.destroyItemCount w c.player c.now (iece.requiredItem i)
              (iece.requiredItemCount i * 1) false
          else w) w) c.player entry = V.rules.available w c.player entry - iece.itemDueAt list entry ∧
      Shelf.amount (Place.heldBy c.player) entry (list.foldl (fun w i =>
          if iece.requiredItem i ≠ 0 then
            V.rules.destroyItemCount w c.player c.now (iece.requiredItem i)
              (iece.requiredItemCount i * 1) false
          else w) w).shelf + V.rules.available w c.player entry =
        Shelf.amount (Place.heldBy c.player) entry w.shelf +
          V.rules.available (list.foldl (fun w i =>
            if iece.requiredItem i ≠ 0 then
              V.rules.destroyItemCount w c.player c.now (iece.requiredItem i)
                (iece.requiredItemCount i * 1) false
            else w) w) c.player entry := by
  induction list with
  | nil => exact fun _ _ _ => ⟨rfl, rfl⟩
  | cons i rest ih =>
    intro w tidy ordinary entry
    rw [List.foldl_cons, itemDueAt_cons]
    by_cases none : iece.requiredItem i = 0
    · rw [if_neg (not_not_intro none), if_neg fun both => both.1 none, Nat.zero_add]
      exact ih tidy ordinary entry
    obtain ⟨plain, few⟩ := ordinary i none
    have destroyed := @ItemRules.destroyed V.rules w c.player (iece.requiredItem i)
      (iece.requiredItemCount i) c.now tidy plain few
    rw [if_pos none, UInt32.mul_one]
    have less : ∀ e, V.rules.available (V.rules.destroyItemCount w c.player c.now
        (iece.requiredItem i) (iece.requiredItemCount i) false) c.player e ≤
        V.rules.available w c.player e := by
      intro e
      by_cases isIt : e = iece.requiredItem i
      · rw [isIt, destroyed.available]
        exact Nat.sub_le _ _
      · exact Nat.le_of_eq (destroyed.others e isIt)
    obtain ⟨left, units⟩ := ih destroyed.tidy (fun j some =>
      ⟨(ordinary j some).1, Nat.lt_of_le_of_lt (less _) (ordinary j some).2⟩) entry
    have first := destroyed.units entry
    refine ⟨?_, by omega⟩
    rw [left]
    by_cases isIt : entry = iece.requiredItem i
    · rw [if_pos ⟨none, isIt.symm⟩, isIt, destroyed.available]
      omega
    · rw [if_neg fun both => isIt both.2.symm, Nat.zero_add, destroyed.others entry isIt]

/-! ## The whole purchase -/

variable {vendor : Option (List VendorItem)} {vendorSlot currency count : UInt32} {s : Possessions}
  {o : Offer}

theorem currencyOffer_spec
    (isOffer : V.currencyOffer c vendor vendorSlot currency count s = some (some o)) :
    o.crItem.maxcount ≠ 0 ∧ o.times ≠ 0 ∧ (V.currencies.lookupEntry currency).isSome = true := by
  unfold currencyOffer at isOffer
  have some' : (if count < 1 then 1 else count : UInt32) ≠ 0 := by
    split
    · decide
    · rename_i more
      intro zero
      exact more (zero ▸ by decide)
  generalize (if count < 1 then 1 else count : UInt32) = n at isOffer some'
  split at isOffer
  · cases isOffer
  cases isType : V.currencies.lookupEntry currency with
  | none =>
    rw [isType] at isOffer
    cases isOffer
  | some proto =>
    rw [isType] at isOffer
    rcases vendor with _ | vItems
    · cases isOffer
    cases there : vItems[vendorSlot.toNat]? with
    | none =>
      dsimp only at isOffer
      rw [there] at isOffer
      cases isOffer
    | some crItem =>
      dsimp only at isOffer
      rw [there] at isOffer
      dsimp only at isOffer
      split at isOffer
      · cases isOffer
      split at isOffer
      · cases isOffer
      rename_i maxcount
      split at isOffer
      · cases isOffer
      rename_i whole
      split at isOffer
      · cases isOffer
      split at isOffer
      · cases isOffer
      split at isOffer
      · cases isOffer
      cases isOffer
      refine ⟨maxcount, fun zero => ?_, rfl⟩
      rw [not_not, ← UInt32.toNat_inj, UInt32.toNat_mod] at whole
      rw [← UInt32.toNat_inj, UInt32.toNat_div] at zero
      have parts := Nat.div_add_mod n.toNat crItem.maxcount.toNat
      have none : n.toNat = 0 := by
        rw [← parts, whole, zero]
        rfl
      exact some' (UInt32.toNat_inj.mp none)

theorem gain_lot {entry : CurrencyTypesEntry} (isType : V.currencies.lookupEntry currency = some entry)
    (inOrder : p.InOrder V.currencies currency) {maxcount : UInt32} (some' : maxcount ≠ 0) :
    ∃ p', p.modifyCurrencyAsIs V.currencies currency
        (toInt32 (maxcount * V.precision currency).toNat) = some p' ∧
      p'.total currency ≤ p.total currency + maxcount.toNat * (V.precision currency).toNat ∧
      (p'.total currency = p.total currency + maxcount.toNat * (V.precision currency).toNat ↔
        maxcount.toNat * (V.precision currency).toNat < 2 ^ 31 ∧
          entry.RoomFor (p.getCurrencyWeekCap V.currencies entry) (p.counts currency)
            (maxcount.toNat * (V.precision currency).toNat)) ∧
      (∀ other, other ≠ currency → p'.counts other = p.counts other) ∧
      p'.conquestTotalWeekCap = p.conquestTotalWeekCap := by
  have positive : 0 < maxcount.toNat * (V.precision currency).toNat := by
    refine Nat.mul_pos (Nat.pos_of_ne_zero fun zero => some' (UInt32.toNat_inj.mp zero)) ?_
    rw [precision]
    split
    · decide
    · decide
  rw [UInt32.toNat_mul]
  generalize maxcount.toNat * (V.precision currency).toNat = lot at positive ⊢
  have word := Nat.mod_lt lot (Nat.two_pow_pos 32)
  rcases Nat.lt_or_ge (lot % 2 ^ 32) (2 ^ 31) with small | large
  · rw [toInt32_of_bounds (by omega) (by omega)]
    rcases Nat.eq_zero_or_pos (lot % 2 ^ 32) with zero | more
    · rw [zero]
      refine ⟨p, if_pos rfl, Nat.le_add_right _ _, ⟨fun same => by omega, fun both => ?_⟩,
        fun _ _ => rfl, rfl⟩
      rw [Nat.mod_eq_of_lt (by omega)] at zero
      omega
    · obtain ⟨p', called, most, all, others, cap⟩ := Purse.gain isType inOrder more small
      have part := Nat.mod_le lot (2 ^ 32)
      refine ⟨p', called, by omega, ⟨fun same => ?_, fun both => ?_⟩,
        fun other isOther => Purse.counts_congr (others other isOther), cap⟩
      · have whole : lot % 2 ^ 32 = lot := by omega
        rw [whole] at all small
        exact ⟨small, all.mp same⟩
      · have whole : lot % 2 ^ 32 = lot := Nat.mod_eq_of_lt (by omega)
        rw [whole] at all
        exact all.mpr both.2
  · obtain ⟨less, isLess⟩ : ∃ less : Nat, less = 2 ^ 32 - lot % 2 ^ 32 := ⟨_, rfl⟩
    have negative : toInt32 ((lot % 2 ^ 32 : ℕ) : ℤ) = -(less : ℤ) := by
      rw [CurrencyTypesEntry.toInt32_over (by omega) (by omega)]
      omega
    obtain ⟨p', called, spent⟩ := @Purse.spend p V.currencies currency entry less isType inOrder
      (by omega)
    rw [negative]
    have total := spent.total
    refine ⟨p', called, by omega, ⟨fun same => by omega, fun both => ?_⟩,
      fun other isOther => Purse.counts_congr (spent.others other isOther), spent.cap⟩
    rw [Nat.mod_eq_of_lt (by omega)] at large
    omega

theorem buyCurrency_of_offer
    (isOffer : V.currencyOffer c vendor vendorSlot currency count s = some (some o)) :
    V.buyCurrencyFromVendorSlot c vendor vendorSlot currency count s = V.buyOffer c currency o s := by
  rw [buyCurrencyFromVendorSlot, isOffer]

theorem buyCurrency_of_free
    (isOffer : V.currencyOffer c vendor vendorSlot currency count s = some (some o))
    (free : V.Free o.iece o.times s.purse (List.finRange 5))
    (refused : (V.hasRequiredCurrencies o.iece o.times s.purse (List.finRange 5) &&
      o.iece.admits c) = false) :
    V.buyCurrencyFromVendorSlot c vendor vendorSlot currency count s = some (false, s) := by
  rw [buyCurrency_of_offer isOffer, buyOffer, chargeRequired_of_free free, Option.bind_some]
  have stops : (!V.hasRequiredCurrencies o.iece o.times s.purse (List.finRange 5) ||
      !o.iece.admits c) = true := by
    rw [← Bool.not_and, refused]
    rfl
  rw [if_pos stops]

/-- What an ordinary purchase that is accepted does: the bought currency and the others. -/
structure Bought (V : VendorRules) (c : Customer) (currency : UInt32) (o : Offer)
    (s after : Possessions) : Prop where
  items : after.items = V.destroyRequiredItems c o.iece o.times s.items
  most : after.purse.total currency ≤ s.purse.total currency +
    o.crItem.maxcount.toNat * (V.precision currency).toNat
  all : after.purse.total currency = s.purse.total currency +
      o.crItem.maxcount.toNat * (V.precision currency).toNat ↔
    o.crItem.maxcount.toNat * (V.precision currency).toNat < 2 ^ 31 ∧
      ∀ entry, V.currencies.lookupEntry currency = some entry →
        entry.RoomFor (s.purse.getCurrencyWeekCap V.currencies entry) (s.purse.counts currency)
          (o.crItem.maxcount.toNat * (V.precision currency).toNat)
  others : o.times = 1 → ∀ id, id ≠ currency → after.purse.total id =
    s.purse.total id - o.iece.currencyDue id - o.iece.currencyDue id

theorem buyCurrency_of_accepts
    (isOffer : V.currencyOffer c vendor vendorSlot currency count s = some (some o))
    (ordinary : V.Ordinary c currency o s) (accepts : V.accepts c o s = true) :
    ∃ after, V.buyCurrencyFromVendorSlot c vendor vendorSlot currency count s = some (true, after) ∧
      V.Bought c currency o s after := by
  obtain ⟨some', -, isType⟩ := currencyOffer_spec isOffer
  obtain ⟨entry, isType⟩ := Option.isSome_iff_exists.mp isType
  rw [VendorRules.accepts, Bool.and_eq_true] at accepts
  obtain ⟨affords, admits⟩ := accepts
  have sound : V.Sound o.iece s.purse := ordinary.required
  have listed : V.Listed o.iece := fun i some =>
    listed_of_affords affords i (List.mem_finRange i) some
  obtain ⟨p₁, loop, charged⟩ := @chargeRequired_spec V o.iece o.times (List.finRange 5) _ sound
  obtain ⟨p₂, called, most, all, others, cap⟩ := gain_lot isType
    (charged.lowered.inOrder currency ordinary.bought) some'
  have bought := charged.others currency ordinary.other
  have same : p₁.total currency = s.purse.total currency := by
    rw [Purse.total, bought]
    rfl
  obtain ⟨p₃, again, stays⟩ := @chargeAgain_others V o.iece o.times listed
    (fun i currency some isType => (sound i some).1.plain currency isType) (List.finRange 5) p₂
  have kept : p₃.total currency = p₂.total currency := by
    rw [Purse.total, stays currency ordinary.other]
    rfl
  refine ⟨{ s with
    items := V.destroyRequiredItems c o.iece o.times s.items
    purse := p₃ }, ?_, rfl, ?_, ?_, ?_⟩
  · rw [buyCurrency_of_offer isOffer, buyOffer, loop, affords, Option.bind_some, admits]
    rw [Bool.not_true, Bool.or_self, if_neg Bool.false_ne_true, called, Option.bind_some, chargeAgain,
      again]
    rfl
  · rw [kept, ← same]
    exact most
  · rw [kept, ← same, all, bought, Purse.getCurrencyWeekCap_congr charged.lowered.cap]
    refine and_congr_right fun _ => ⟨fun room other isOther => ?_, fun room => room entry isType⟩
    rw [isType] at isOther
    cases isOther
    exact room
  · intro single id isOther
    have sound' : V.Sound o.iece p₂ := by
      intro i some
      obtain ⟨inOrder, small⟩ := sound i some
      refine ⟨⟨inOrder.plain, fun row isRow => ?_⟩, small⟩
      rw [others _ (ordinary.other i some), Purse.getCurrencyWeekCap_congr cap]
      exact (charged.lowered.inOrder _ inOrder).orderly row isRow
    obtain ⟨p, loop', totals⟩ := chargeAgain_one listed sound'
    rw [single, loop'] at again
    cases again
    have two : p₂.total id = p₁.total id := by
      rw [Purse.total, others id isOther]
      rfl
    rw [totals, two, charged.total affords]
    rfl

theorem amount_destroyRequiredItems (ordinary : V.Ordinary c currency o s) (single : o.times = 1)
    (entry : UInt32) :
    Shelf.amount (Place.heldBy c.player) entry
        (V.destroyRequiredItems c o.iece o.times s.items).shelf +
      V.rules.available s.items c.player entry =
    Shelf.amount (Place.heldBy c.player) entry s.items.shelf +
      (V.rules.available s.items c.player entry - o.iece.itemDue entry) := by
  obtain ⟨left, units⟩ := destroyRequired_one ordinary.tidy ordinary.items entry
  rw [left] at units
  rw [single]
  exact units

theorem currencyDue_bought (ordinary : V.Ordinary c currency o s) :
    o.iece.currencyDue currency = 0 := by
  have none : ∀ list, o.iece.currencyDueAt list currency = 0 := by
    intro list
    induction list with
    | nil => rfl
    | cons i rest ih =>
      rw [currencyDueAt_cons, ih, if_neg fun both => ordinary.other i both.1 both.2]
  exact none _

theorem paid_iff {after : Possessions}
    (isOffer : V.currencyOffer c vendor vendorSlot currency count s = some (some o))
    (ordinary : V.Ordinary c currency o s) (bought : V.Bought c currency o s after) :
    V.Paid c currency o s after ↔ V.Exactly c currency o s := by
  obtain ⟨maxcount, times, -⟩ := currencyOffer_spec isOffer
  have positive : 0 < o.crItem.maxcount.toNat * (V.precision currency).toNat := by
    refine Nat.mul_pos (Nat.pos_of_ne_zero fun zero => maxcount (UInt32.toNat_inj.mp zero)) ?_
    rw [precision]
    split
    · decide
    · decide
  have due := currencyDue_bought ordinary
  have most := bought.most
  have all := bought.all
  have toOne : o.times = 1 → o.times.toNat = 1 := fun single => single ▸ rfl
  constructor
  · intro paid
    have gained := paid.currencies currency
    rw [due, Nat.mul_zero, Nat.add_zero, if_pos rfl] at gained
    have single : o.times.toNat = 1 := by
      have some : o.times.toNat ≠ 0 := fun zero => times (UInt32.toNat_inj.mp zero)
      rcases Nat.lt_or_ge o.times.toNat 2 with less | more
      · omega
      · have much := Nat.mul_le_mul_right
          (o.crItem.maxcount.toNat * (V.precision currency).toNat) more
        omega
    have isOne : o.times = 1 := UInt32.toNat_inj.mp single
    rw [single, Nat.one_mul] at gained
    obtain ⟨small, room⟩ := all.mp gained
    refine ⟨isOne, small, room, fun id => ?_, fun entry => ?_⟩
    · by_cases isIt : id = currency
      · exact Or.inl (isIt ▸ due)
      · have total := paid.currencies id
        rw [bought.others isOne id isIt, single, Nat.one_mul, if_neg isIt] at total
        omega
    · have left := paid.items entry
      have amounts := amount_destroyRequiredItems ordinary isOne entry
      rw [bought.items, single, Nat.one_mul] at left
      omega
  · intro exact'
    have single := toOne exact'.single
    refine ⟨fun entry => ?_, fun id => ?_⟩
    · have amounts := amount_destroyRequiredItems ordinary exact'.single entry
      have enough := exact'.items entry
      rw [bought.items, single, Nat.one_mul]
      omega
    · rw [single, Nat.one_mul, Nat.one_mul]
      by_cases isIt : id = currency
      · rw [isIt, due, if_pos rfl, Nat.add_zero]
        exact all.mpr ⟨exact'.small, exact'.room⟩
      rw [if_neg isIt, bought.others exact'.single id isIt]
      rcases exact'.currencies id with none | just
      · omega
      · omega

theorem buyCurrency_of_refused
    (isOffer : V.currencyOffer c vendor vendorSlot currency count s = some (some o))
    (ordinary : V.Ordinary c currency o s) (refused : V.accepts c o s = false) :
    ∃ purse, V.buyCurrencyFromVendorSlot c vendor vendorSlot currency count s =
        some (false, { s with purse := purse }) ∧
      (purse = s.purse → V.Free o.iece o.times s.purse (List.finRange 5) ∧
        (V.hasRequiredCurrencies o.iece o.times s.purse (List.finRange 5) &&
          o.iece.admits c) = false) := by
  obtain ⟨p₁, loop, charged⟩ :=
    @chargeRequired_spec V o.iece o.times (List.finRange 5) _ ordinary.required
  have ended : V.buyCurrencyFromVendorSlot c vendor vendorSlot currency count s =
      some (false, { s with purse := p₁ }) := by
    have stops : (!V.affords o.iece o.times (fun id => (s.purse.currencyStorage id).isSome)
        (List.finRange 5) s.purse.total || !o.iece.admits c) = true := by
      rw [← Bool.not_and, ← VendorRules.accepts, refused]
      rfl
    rw [buyCurrency_of_offer isOffer, buyOffer, loop, Option.bind_some]
    exact if_pos stops
  refine ⟨p₁, ended, fun same => ?_⟩
  have free := charged.free same
  refine ⟨free, ?_⟩
  rw [chargeRequired_of_free free] at loop
  obtain ⟨has, -⟩ := Prod.mk.inj (Option.some.inj loop)
  rw [has]
  exact refused

/-- **Currency purchases are fair** when they are refused for nothing, or are of one lot for just
what the player has; of ordinary ones these are all. -/
theorem buyCurrency_fair (V : VendorRules) (c : Customer) (vendor : Option (List VendorItem))
    (vendorSlot currency count : UInt32) (s : Possessions) :
    (V.Fair c vendor vendorSlot currency count s → V.IsFair c vendor vendorSlot currency count s) ∧
      ((∀ o, V.currencyOffer c vendor vendorSlot currency count s = some (some o) →
          V.Ordinary c currency o s) →
        V.IsFair c vendor vendorSlot currency count s →
          V.Fair c vendor vendorSlot currency count s) := by
  constructor
  · intro fair
    obtain ⟨ends, fair⟩ := fair
    rcases isOffer : V.currencyOffer c vendor vendorSlot currency count s with _ | offer
    · exact absurd isOffer ends
    cases offer with
    | none =>
      refine ⟨false, s, ?_, fun _ => rfl, fun isBought => absurd isBought Bool.false_ne_true⟩
      rw [buyCurrencyFromVendorSlot, isOffer]
    | some o =>
      rcases fair o isOffer with ⟨free, refused⟩ | ⟨ordinary, accepts, exactly⟩
      · exact ⟨false, s, buyCurrency_of_free isOffer free refused, fun _ => rfl,
          fun isBought => absurd isBought Bool.false_ne_true⟩
      obtain ⟨after, ended, bought⟩ := buyCurrency_of_accepts isOffer ordinary accepts
      refine ⟨true, after, ended, fun refused => absurd refused.symm Bool.false_ne_true, ?_⟩
      intro _ other isOther
      rw [isOffer] at isOther
      cases isOther
      exact (paid_iff isOffer ordinary bought).mpr exactly
  · intro allOrdinary isFair
    obtain ⟨isBought, after, ended, unchanged, paid⟩ := isFair
    refine ⟨fun crash => ?_, fun o isOffer => ?_⟩
    · rw [buyCurrencyFromVendorSlot, crash] at ended
      cases ended
    have ordinary := allOrdinary o isOffer
    cases accepts : V.accepts c o s with
    | true =>
      obtain ⟨after', ended', bought⟩ := buyCurrency_of_accepts isOffer ordinary accepts
      rw [ended'] at ended
      obtain ⟨isTrue, isAfter⟩ := Prod.mk.inj (Option.some.inj ended)
      have isPaid := paid isTrue.symm o isOffer
      rw [← isAfter] at isPaid
      exact Or.inr ⟨ordinary, rfl, (paid_iff isOffer ordinary bought).mp isPaid⟩
    | false =>
      obtain ⟨purse, ended', free⟩ := buyCurrency_of_refused isOffer ordinary accepts
      rw [ended'] at ended
      obtain ⟨isFalse, isAfter⟩ := Prod.mk.inj (Option.some.inj ended)
      have same := unchanged isFalse.symm
      rw [← isAfter] at same
      exact Or.inl (free (congrArg Possessions.purse same))

/-- Two currencies of no category and without caps. -/
def plainCurrency (id : UInt32) : CurrencyTypesEntry := ⟨id, 0, 0, 0⟩

def plainCurrencies : CurrencyRules where
  lookupEntry := fun id => some (plainCurrency id)
  maxHonorPoints := 0
  maxJusticePoints := 0
  conquestPoints := plainCurrency currencyTypeConquestPoints
  lookup_conquestPoints := rfl
  conquestPoints_plain := by decide
  id_of_lookup := by
    intro id entry isEntry
    cases isEntry
    rfl

def fiveTokens : ItemExtendedCostEntry where
  requiredArenaSlot := 0
  requiredItem := fun _ => 0
  requiredItemCount := fun _ => 0
  requiredPersonalArenaRating := 0
  requiredCurrency := fun i => if i = 0 then 61 else 0
  requiredCurrencyCount := fun i => if i = 0 then 5 else 0
  requiredFactionId := 0
  requiredFactionStanding := 0
  requirementFlags := 0
  requiredGuildLevel := 0
  requiredAchievement := 0

def tokenRules : VendorRules where
  rules := ItemRules.tradeGoods 0
  currencies := plainCurrencies
  highPrecision := fun _ => false
  extendedCost := fun _ => some fiveTokens

def anybody : Customer where
  player := 1
  isAlive := true
  maxPersonalArenaRating := fun _ => 0
  reputationRank := fun _ => 0
  guildId := 0
  guildLevel := 0
  hasAchieved := fun _ => false
  now := ⟨fun _ _ _ => true, fun _ => 0⟩

/-- A player with so many of currency 61. -/
def withTokens (n : UInt32) : Possessions where
  items := ⟨⟨[], List.nodup_nil⟩, 1⟩
  purse := ⟨fun id => if id = 61 then some ⟨.unchanged, n, 0, 0⟩ else none, 0⟩
  money := 0

def threeForFive : VendorItem := ⟨62, 3, 0, 1, itemVendorTypeCurrency⟩

/-- Who asks for two lots gets one and pays three. -/
theorem not_isFair_two_lots :
    ¬ tokenRules.IsFair anybody (some [threeForFive]) 0 62 6 (withTokens 20) := by
  rintro ⟨bought, after, ended, -, paid⟩
  have computed : (tokenRules.buyCurrencyFromVendorSlot anybody (some [threeForFive]) 0 62 6
      (withTokens 20)).map (fun r => (r.1, r.2.purse.total 62)) = some (true, 3) := by
    decide +kernel
  rw [ended] at computed
  obtain ⟨isTrue, total⟩ := Prod.mk.inj (Option.some.inj computed)
  have gained := (paid isTrue ⟨threeForFive, 2, fiveTokens⟩ rfl).currencies 62
  rw [total] at gained
  exact absurd gained (by decide +kernel)

end VendorRules

end Sky548
