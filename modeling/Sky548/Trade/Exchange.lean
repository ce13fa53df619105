import Sky548.Items.Finding
import Sky548.Machine
import Sky548.Trade.Model

/-!
# A trade conserves items and money, or does nothing

What `HandleAcceptTradeOpcode` does to two inventories. The rows are settled one by one: in each the
items change hands or go back (`Exchanged`).

Giving back is where it goes wrong: the vector that an item is given back by is the one that was
filled for the other side's item of that row. `RowMeets` is a row that does not come to that, and
`eachStep_lawful` says that runs without such rows conserve everything.
-/

namespace Sky548

open List
open Function (update_of_ne update_self)

namespace Trade

variable {R : ItemRules} {T : Traders} {now : Circumstances} {w : ItemWorld} {me : Side}
  {data : TradeDatas}

def Distinct (data : TradeDatas) : Prop :=
  ∀ s i j, (data s).items i = (data s).items j → (data s).items i ≠ 0 → i = j

/-- Every item of a row lies where the row says, with the side that offers it. -/
def Lies (R : ItemRules) (T : Traders) (w : ItemWorld) (row : TradeRow) : Prop :=
  ∀ s k item, row s = some (k, item) →
    ItemRules.Reaches R w (T.guid s) k ∧ w.shelf.get? k = some item

variable {s : Side} {k : Place} {item : Item}

theorem getItem_spec {slot : Fin tradeSlotCount}
    (found : getItem R T w data s slot = some (k, item)) :
    ItemRules.Reaches R w (T.guid s) k ∧ w.shelf.get? k = some item ∧
      item.guid = (data s).items slot ∧ (data s).items slot ≠ 0 := by
  rw [getItem] at found
  split at found
  · cases found
  · rename_i some
    obtain ⟨reaches, lies, guid⟩ := ItemRules.getItemByGuid_spec found
    exact ⟨reaches, lies, guid, some⟩

theorem lies_rows : ∀ row ∈ rows R T w data, Lies R T w row := by
  intro row member s k item offered
  obtain ⟨i, -, rfl⟩ := List.mem_map.mp member
  obtain ⟨reaches, lies, -⟩ := getItem_spec offered
  exact ⟨reaches, lies⟩

variable {row : TradeRow}

theorem Lies.heldBy (lies : Lies R T w row) (offered : row s = some (k, item)) (player : UInt64):
    k.heldBy player = decide (T.guid s = player) := by
  obtain ⟨bag, slot, rfl, -⟩ := (lies s k item offered).1
  rfl

variable {x : Place × Item}

theorem mem_rowItems :
    x ∈ rowItems me row ↔ ∃ s, row s = some x := by
  rw [rowItems, mem_append, Option.mem_toList, Option.mem_toList]
  constructor
  · rintro (mine | his)
    · exact ⟨me, mine⟩
    · exact ⟨me.other, his⟩
  · rintro ⟨s, offered⟩
    rcases s.eq_or_eq_other me with rfl | rfl
    · exact Or.inl offered
    · exact Or.inr offered

def allItems (me : Side) (rows : List TradeRow) : List (Place × Item) := rows.flatMap (rowItems me)

theorem mem_allItems {rows : List TradeRow} :
    x ∈ allItems me rows ↔ ∃ row ∈ rows, ∃ s, row s = some x := by
  rw [allItems, mem_flatMap]
  constructor
  · rintro ⟨row, member, inRow⟩
    exact ⟨row, member, mem_rowItems.mp inRow⟩
  · rintro ⟨row, member, inRow⟩
    exact ⟨row, member, mem_rowItems.mpr inRow⟩

theorem foldl_rows {rows : List TradeRow} (f : ItemWorld → Place × Item → ItemWorld) (w : ItemWorld) :
    rows.foldl (fun w row => (rowItems me row).foldl f w) w = (allItems me rows).foldl f w := by
  rw [allItems, foldl_flatMap]

theorem nodup_allItems (distinct : Distinct data) : ((allItems me (rows R T w data)).map Prod.fst).Nodup := by
  -- one slot of the one side and one of the other never name one place
  have apart : ∀ s s' (i j : Fin tradeSlotCount) k item item',
      getItem R T w data s i = some (k, item) → getItem R T w data s' j = some (k, item') →
      s = s' ∧ i = j := by
    intro s s' i j k item item' found found'
    obtain ⟨⟨bag, slot, place, -⟩, lies, guid, some⟩ := getItem_spec found
    obtain ⟨⟨bag', slot', place', -⟩, lies', guid', -⟩ := getItem_spec found'
    have player : T.guid s = T.guid s' := by
      rw [place] at place'
      exact (Place.inventory.inj place').1
    have side : s = s' := by
      rcases s'.eq_or_eq_other s with same | other
      · exact same.symm
      · rw [other] at player
        exact absurd player.symm (T.guid_other_ne s)
    subst side
    have one : item = item' := Option.some.inj (lies.symm.trans lies')
    refine ⟨rfl, distinct s i j ?_ some⟩
    rw [← guid, ← guid', one]
  rw [allItems, rows, flatMap_map, map_flatMap, nodup_flatMap]
  constructor
  · intro i _
    rw [rowItems, map_append, nodup_append]
    refine ⟨?_, ?_, ?_⟩
    · cases getItem R T w data me (i.castLE (by decide)) with
      | none => exact nodup_nil
      | some x => exact nodup_singleton _
    · cases getItem R T w data me.other (i.castLE (by decide)) with
      | none => exact nodup_nil
      | some x => exact nodup_singleton _
    · intro k inMine k' inHis same
      obtain ⟨⟨j, item⟩, mine, rfl⟩ := List.mem_map.mp inMine
      obtain ⟨⟨j', item'⟩, his, rfl⟩ := List.mem_map.mp inHis
      rw [Option.mem_toList] at mine his
      obtain rfl : j = j' := same
      exact me.other_ne (apart _ _ _ _ _ _ _ his mine).1
  · refine List.Pairwise.imp ?_ (nodup_finRange tradeSlotTradedCount)
    intro i j differ
    refine List.disjoint_left.mpr ?_
    intro k inI inJ
    obtain ⟨⟨a, item⟩, inRow, rfl⟩ := List.mem_map.mp inI
    obtain ⟨⟨b, item'⟩, inRow', same⟩ := List.mem_map.mp inJ
    obtain ⟨s, found⟩ := mem_rowItems.mp inRow
    obtain ⟨s', found'⟩ := mem_rowItems.mp inRow'
    obtain rfl : b = a := same
    have slots := Fin.val_eq_of_eq (apart _ _ _ _ _ _ _ found found').2
    exact differ (Fin.ext slots)

abbrev Unflagged (w : ItemWorld) : Prop := w.Everywhere fun attrs => attrs.inTrade = false

theorem setInTrade_setInTrade (b : Bool) (clear : item.attrs.inTrade = false) :
    setInTrade false (setInTrade b item) = item := by
  obtain ⟨guid, entry, count, attrs⟩ := item
  obtain ⟨owner, soulBound, bopTradeable, allowedGUIDs, lootGenerated, boundByEnchant, gems,
    inTrade⟩ := attrs
  obtain rfl : inTrade = false := clear
  rfl

theorem get?_flag {b : Bool} {w₀ w : ItemWorld} {xs : List (Place × Item)}
    (lies : ∀ x ∈ xs, w₀.shelf.get? x.1 = some x.2) (j : Place) :
    (xs.foldl (fun w x => w.put x.1 (setInTrade b x.2)) w).shelf.get? j =
      if j ∈ xs.map Prod.fst then (w₀.shelf.get? j).map (setInTrade b) else w.shelf.get? j := by
  induction xs generalizing w with
  | nil => rw [map_nil, if_neg not_mem_nil, foldl_nil]
  | cons x rest ih =>
    rw [foldl_cons, ih fun y member => lies y (mem_cons_of_mem _ member), map_cons,
      Store.put, Shelf.get?_put]
    by_cases later : j ∈ rest.map Prod.fst
    · rw [if_pos later, if_pos (mem_cons_of_mem _ later)]
    rw [if_neg later]
    by_cases here : j = x.1
    · rw [if_pos here, if_pos (here ▸ mem_cons_self), here, lies x mem_cons_self]
      rfl
    · rw [if_neg here, if_neg (not_mem_cons_of_ne_of_not_mem here later)]

theorem nextGuid_flag {b : Bool} {w : ItemWorld} {xs : List (Place × Item)} :
    (xs.foldl (fun w x => w.put x.1 (setInTrade b x.2)) w).nextGuid = w.nextGuid := by
  induction xs generalizing w with
  | nil => rfl
  | cons x rest ih => exact ih

variable {tr : Trade}

theorem lies_allItems : ∀ x ∈ allItems me (rows R T w data), w.shelf.get? x.1 = some x.2 := by
  rintro ⟨k, item⟩ member
  obtain ⟨row, inRows, s, offered⟩ := mem_allItems.mp member
  exact (lies_rows row inRows s k item offered).2

theorem alike_unflagged (clear : Unflagged tr.items) :
    tr.items.Alike (unflagged R T me tr data) where
  shelf := by
    intro j
    rw [unflagged, flagged]
    unfold flagRow
    rw [foldl_rows, foldl_rows, get?_flag lies_allItems, get?_flag lies_allItems]
    split
    · rcases there : tr.items.shelf.get? j with _ | item
      · rfl
      have same := setInTrade_setInTrade false (clear j item there)
      rw [Option.map_some]
      exact congrArg some (by rw [← same]; rfl)
    · rfl
  nextGuid := by
    rw [unflagged, flagged]
    unfold flagRow
    rw [foldl_rows, foldl_rows, nextGuid_flag, nextGuid_flag]

theorem removeItem_eq {player : UInt64} {places : List Place}
    (noBag : ∀ bag item, Place.inventory player inventorySlotBag0 bag ∈ places →
      w.shelf.get? (.inventory player inventorySlotBag0 bag) = some item →
      ¬ (isBagPos inventorySlotBag0 bag = true ∧ R.isBag item = true))
    (reaches : ItemRules.Reaches R w player k) (lies : w.shelf.get? k = some item)
    (other : k ∉ places) : removeItem R (w.takeAll places) k = (w.takeAll places).take k := by
  obtain ⟨bag, slot, rfl, reads⟩ := reaches.reads
  have still := ItemRules.getItemByPos_takeAll noBag other
  rw [reads, lies] at still
  rw [removeItem, ItemRules.moveItemFromInventory, still]

theorem foldl_removeItem (w : ItemWorld) (xs : List (Place × Item)) (places : List Place)
    (reaches : ∀ x ∈ xs, ∃ s, ItemRules.Reaches R w (T.guid s) x.1 ∧ w.shelf.get? x.1 = some x.2)
    (distinct : (places ++ xs.map Prod.fst).Nodup) (noBag : ∀ player bag item,
      Place.inventory player inventorySlotBag0 bag ∈ places ++ xs.map Prod.fst →
      w.shelf.get? (.inventory player inventorySlotBag0 bag) = some item →
      ¬ (isBagPos inventorySlotBag0 bag = true ∧ R.isBag item = true)) :
    xs.foldl (fun w x => removeItem R w x.1) (w.takeAll places) =
      w.takeAll (places ++ xs.map Prod.fst) := by
  induction xs generalizing places with
  | nil => rw [map_nil, append_nil, foldl_nil]
  | cons x rest ih =>
    obtain ⟨s, reachesX, lies⟩ := reaches x mem_cons_self
    have other : x.1 ∉ places := by
      intro earlier
      exact (List.nodup_append.mp distinct).2.2 _ earlier _ mem_cons_self rfl
    have split : places ++ (x :: rest).map Prod.fst = (places ++ [x.1]) ++ rest.map Prod.fst := by
      rw [map_cons, append_assoc, singleton_append]
    rw [split] at distinct noBag
    rw [foldl_cons, removeItem_eq (fun bag item member => noBag (T.guid s) bag item
      (mem_append_left _ (mem_append_left _ member))) reachesX lies other, split]
    have one : (w.takeAll places).take x.1 = w.takeAll (places ++ [x.1]) := by
      rw [Store.takeAll, Store.takeAll, foldl_append]
      rfl
    rw [one]
    exact ih (places ++ [x.1]) (fun y member => reaches y (mem_cons_of_mem _ member)) distinct
      noBag

/-- An item as the rows hold it: a whole stack, not in trade, that is on no shelf. -/
structure Loose (R : ItemRules) (w : ItemWorld) (item : Item) : Prop where
  sized : 1 ≤ item.count ∧ item.count ≤ R.maxStack item.entry
  known : item.guid < w.nextGuid
  absent : ¬ w.Has item.guid
  clear : item.attrs.inTrade = false

/-- What a side gives with an item, counted in pieces of an entry. -/
def given (item : Option Item) (e : UInt32) : Nat :=
  item.elim 0 fun item => if item.entry = e then item.count else 0

/-- A well kept world on which nothing is in trade. -/
structure Kept (R : ItemRules) (w : ItemWorld) : Prop where
  tidy : w.Tidy R.maxStack
  clear : Unflagged w

/-- A later world, on which nothing is in trade, that has more only of some items: at the places of
the two sides, and new ones. -/
structure After (R : ItemRules) (T : Traders) (items : Item → Prop) (w w' : ItemWorld) : Prop
    extends Kept R w' where
  later : w.nextGuid ≤ w'.nextGuid
  has : ∀ guid, w'.Has guid → w.Has guid ∨ (∃ item, items item ∧ guid = item.guid) ∨
    w.nextGuid ≤ guid
  frame : ∀ k, (∀ s, k.heldBy (T.guid s) = false) → w'.shelf.get? k = w.shelf.get? k

theorem Kept.after {items : Item → Prop} (kept : Kept R w) : After R T items w w where
  toKept := kept
  later := Nat.le_refl _
  has := fun _ has => Or.inl has
  frame := fun _ _ => rfl

variable {w' : ItemWorld}

theorem After.trans {items items' : Item → Prop} {w'' : ItemWorld} (first : After R T items w w')
    (second : After R T items' w' w'') :
    After R T (fun item => items item ∨ items' item) w w'' where
  toKept := second.toKept
  later := Nat.le_trans first.later second.later
  has := by
    intro guid has
    rcases second.has guid has with has | ⟨item, isItem, same⟩ | isNew
    · rcases first.has guid has with has | ⟨item, isItem, same⟩ | isNew
      · exact Or.inl has
      · exact Or.inr (Or.inl ⟨item, Or.inl isItem, same⟩)
      · exact Or.inr (Or.inr isNew)
    · exact Or.inr (Or.inl ⟨item, Or.inr isItem, same⟩)
    · exact Or.inr (Or.inr (Nat.le_trans first.later isNew))
  frame := fun k outside => (second.frame k outside).trans (first.frame k outside)

theorem After.mono {items items' : Item → Prop} (after : After R T items w w')
    (imp : ∀ item, items item → items' item) : After R T items' w w' where
  toKept := after.toKept
  later := after.later
  has := by
    intro guid has
    rcases after.has guid has with has | ⟨item, isItem, same⟩ | isNew
    · exact Or.inl has
    · exact Or.inr (Or.inl ⟨item, imp item isItem, same⟩)
    · exact Or.inr (Or.inr isNew)
  frame := after.frame

theorem Loose.after {items : Item → Prop} (loose : Loose R w item)
    (after : After R T items w w') (other : ∀ i, items i → item.guid ≠ i.guid) : Loose R w' item where
  sized := loose.sized
  known := Nat.lt_of_lt_of_le loose.known after.later
  absent := by
    intro has
    rcases after.has _ has with was | ⟨i, isItem, same⟩ | isNew
    · exact loose.absent was
    · exact other i isItem same
    · exact absurd loose.known (Nat.not_lt.mpr isNew)
  clear := loose.clear

/-- Storing an item with a side adds it there and nowhere else. -/
structure PutWith (R : ItemRules) (T : Traders) (s : Side) (item : Option Item) (w w' : ItemWorld) :
    Prop extends After R T (fun i => item = some i) w w' where
  own : ∀ k, k.heldBy (T.guid s) = false → w'.shelf.get? k = w.shelf.get? k
  amount : ∀ s' e, Shelf.amount (Place.heldBy (T.guid s')) e w'.shelf =
    Shelf.amount (Place.heldBy (T.guid s')) e w.shelf + if s' = s then given item e else 0

theorem putWith_none (kept : Kept R w) : PutWith R T s none w w where
  toAfter := kept.after
  own := fun _ _ => rfl
  amount := by
    intro s' e
    change _ = _ + if s' = s then 0 else 0
    rw [ite_self, Nat.add_zero]

theorem putWith_storeBy {w₀ : ItemWorld} {item : Option Item} {dest : ItemPosCountVec}
    (kept : Kept R w) (loose : ∀ i, item = some i → Loose R w i)
    (absent₀ : ∀ i, item = some i → ¬ w₀.Has i.guid)
    (same : ∀ k, k.heldBy (T.guid s) = true → w₀.shelf.get? k = w.shelf.get? k)
    (can : canStore R T w₀ s [] item = (.ok, dest)) :
    PutWith R T s item w (storeBy R w dest item) := by
  rcases item with _ | item
  · exact putWith_none kept
  have loose := loose item rfl
  obtain ⟨fits₀, held⟩ := ItemRules.fits_canStoreItem_of_without loose.sized
    (Store.without_self (absent₀ item rfl)) can
  have fits := fits₀.congr fun pc member => same pc.1 (held pc member)
  have roomy := fits.toRoomy
  refine ⟨⟨⟨?_, ?_⟩, ?_, fun guid has => ?_, fun k outside => ?_⟩, fun k outside => ?_,
    fun s' e => ?_⟩
  · exact Handling.tidy_storeItem kept.tidy loose.absent loose.known roomy
  · refine Handling.everywhere_storeItem (fun k _ _ => ?_) (fun k _ _ clear => ?_)
      (fun k _ _ clear => ?_) kept.clear loose.clear
    · cases k with
      | bank _ _ => rfl
      | inventory _ _ _ => rfl
    · cases k with
      | bank _ _ => exact clear
      | inventory _ _ _ => exact clear
    · cases k with
      | bank _ _ => exact clear
      | inventory _ _ _ => exact clear
  · exact Handling.le_nextGuid_storeItem kept.tidy loose.absent loose.known roomy
  · rcases Handling.has_storeItem kept.tidy loose.absent loose.known roomy has with
      was | itself | isNew
    · exact Or.inl was
    · exact Or.inr (Or.inl ⟨item, rfl, itself⟩)
    · exact Or.inr (Or.inr isNew)
  · exact Store.get?_fits fits kept.tidy loose.absent loose.known held (outside s)
  · exact Store.get?_fits fits kept.tidy loose.absent loose.known held outside
  · have within : ∀ pc ∈ dest, pc.1.heldBy (T.guid s') = decide (s' = s) := by
      intro pc member
      have owner := held pc member
      cases place : pc.1 with
      | bank _ _ =>
        rw [place] at owner
        cases owner
      | inventory player bag slot =>
        rw [place] at owner
        have owner : player = T.guid s := of_decide_eq_true owner
        change decide (player = T.guid s') = _
        rw [owner]
        rcases s'.eq_or_eq_other s with rfl | rfl
        · simp only [decide_true]
        · rw [decide_eq_false (Ne.symm (T.guid_other_ne s)), decide_eq_false s.other_ne]
    have stored := fits.amount_storeItem kept.tidy loose.absent loose.known
      (Place.heldBy (T.guid s')) e within
    refine stored.trans ?_
    congr 1
    change _ = if s' = s then (if item.entry = e then item.count else 0) else 0
    by_cases own : s' = s
    · simp only [own, decide_true, true_and, if_true]
    · simp only [own, decide_false, Bool.false_eq_true, false_and, if_false]

/-- A row that settles without a vector being used twice: both sides can take what they are offered,
or what is given back has a vector of its own and an owner who can take it. -/
def RowMeets (R : ItemRules) (T : Traders) (me : Side) (w : ItemWorld) (row : Side → Option Item) :
    Prop :=
  (canStore R T w me.other [] (row me)).1 = .ok ∧ (canStore R T w me [] (row me.other)).1 = .ok ∨
  ((row me).isSome → (canStore R T w me [] (row me.other)).2 = [] ∧
    (canStore R T w me [] (row me)).1 = .ok) ∧
  ((row me.other).isSome → (canStore R T w me.other [] (row me)).2 = [] ∧
    (canStore R T (giveBack R T w me [] (row me)) me.other [] (row me.other)).1 = .ok)

instance (R : ItemRules) (T : Traders) (me : Side) (w : ItemWorld) (row : Side → Option Item) :
    Decidable (RowMeets R T me w row) :=
  inferInstanceAs (Decidable (_ ∧ _ ∨ (_ → _ ∧ _) ∧ (_ → _ ∧ _)))

/-- The items of a row are loose, and they are two. -/
structure RowReady (R : ItemRules) (w : ItemWorld) (row : Side → Option Item) : Prop where
  loose : ∀ s item, row s = some item → Loose R w item
  apart : ∀ s item item', row s = some item → row s.other = some item' → item.guid ≠ item'.guid

def InRow (row : Side → Option Item) (item : Item) : Prop := ∃ s, row s = some item

/-- What a settled row comes to: the items changed hands, or both went back. -/
structure RowSettled (R : ItemRules) (T : Traders) (row : Side → Option Item) (exchanged : Bool)
    (w w' : ItemWorld) : Prop extends After R T (InRow row) w w' where
  amount : ∀ s e, Shelf.amount (Place.heldBy (T.guid s)) e w'.shelf =
    Shelf.amount (Place.heldBy (T.guid s)) e w.shelf +
      given (row (if exchanged then s.other else s)) e

theorem same_of_own {item : Option Item}
    (put : PutWith R T s item w w') (held : k.heldBy (T.guid s.other) = true) :
    w.shelf.get? k = w'.shelf.get? k := by
  refine (put.own k ?_).symm
  cases k with
  | bank _ _ => rfl
  | inventory player bag slot =>
    have owner : player = T.guid s.other := of_decide_eq_true held
    rw [owner]
    exact decide_eq_false (T.guid_other_ne s)

theorem putWith_both {w₁ w₂ : ItemWorld} {row : Side → Option Item} {exchanged : Bool}
    (first : PutWith R T s (row (if exchanged then s.other else s)) w w₁)
    (second : PutWith R T s.other (row (if exchanged then s else s.other)) w₁ w₂) :
    RowSettled R T row exchanged w w₂ where
  toAfter := (first.toAfter.trans second.toAfter).mono fun item isItem => by
    rcases isItem with one | two
    · exact ⟨_, one⟩
    · exact ⟨_, two⟩
  amount := by
    intro s' e
    rw [second.amount, first.amount]
    rcases s'.eq_or_eq_other s with rfl | rfl
    · rw [if_pos rfl, if_neg (Ne.symm s'.other_ne), Nat.add_zero]
    · rw [if_neg s.other_ne, if_pos rfl, Nat.add_zero, Side.other_other]

theorem putWith_giveBack {item : Option Item} {dest : ItemPosCountVec} (kept : Kept R w)
    (loose : ∀ i, item = some i → Loose R w i)
    (clean : item.isSome → dest = [] ∧ (canStore R T w s [] item).1 = .ok) :
    PutWith R T s item w (giveBack R T w s dest item) := by
  rcases item with _ | item
  · exact putWith_none kept
  obtain ⟨rfl, can⟩ := clean rfl
  rw [giveBack]
  cases back : canStore R T w s [] (some item) with
  | mk res dest =>
    rw [back] at can
    obtain rfl : res = .ok := can
    exact putWith_storeBy kept loose (fun i same => (loose i same).absent) (fun _ _ => rfl) back

theorem rowSettled_moveRow {row : Side → Option Item} (kept : Kept R w) (ready : RowReady R w row)
    (meets : RowMeets R T me w row) :
    ∃ exchanged, RowSettled R T row exchanged w (moveRow R T me w row) := by
  -- what one side stored does not hide that the other item is on no shelf
  have still : ∀ {s : Side} {s' : Side} {w' : ItemWorld}, PutWith R T s (row s') w w' →
      ∀ i, row s'.other = some i → Loose R w' i := by
    intro s s' w' put i offered
    refine (ready.loose _ i offered).after put.toAfter fun i' isItem => ?_
    exact Ne.symm (ready.apart s' i' i isItem offered)
  cases trader : canStore R T w me.other [] (row me) with
  | mk traderCanTrade traderDst =>
  cases player : canStore R T w me [] (row me.other) with
  | mk playerCanTrade playerDst =>
  rw [moveRow, trader, player]
  rw [RowMeets, trader, player] at meets
  dsimp only at meets ⊢
  by_cases both : traderCanTrade = .ok ∧ playerCanTrade = .ok
  · rw [if_pos both]
    obtain ⟨rfl, rfl⟩ := both
    refine ⟨true, ?_⟩
    have first : PutWith R T me.other (row me) w (storeBy R w traderDst (row me)) :=
      putWith_storeBy kept (fun i offered => ready.loose me i offered)
        (fun i offered => (ready.loose me i offered).absent) (fun _ _ => rfl) trader
    have second : PutWith R T me (row me.other) (storeBy R w traderDst (row me))
        (storeBy R (storeBy R w traderDst (row me)) playerDst (row me.other)) := by
      refine putWith_storeBy first.toKept (still first)
        (fun i offered => (ready.loose _ i offered).absent) (fun k held => ?_) player
      refine same_of_own first ?_
      rw [Side.other_other]
      exact held
    have second' : PutWith R T me.other.other (row me.other) (storeBy R w traderDst (row me))
        (storeBy R (storeBy R w traderDst (row me)) playerDst (row me.other)) := by
      rw [Side.other_other]
      exact second
    have first' : PutWith R T me.other (row me.other.other) w (storeBy R w traderDst (row me)) := by
      rw [Side.other_other]
      exact first
    exact putWith_both (s := me.other) first' second'
  · rw [if_neg both]
    obtain ⟨mine, his⟩ := meets.resolve_left both
    refine ⟨false, ?_⟩
    have first : PutWith R T me (row me) w (giveBack R T w me playerDst (row me)) :=
      putWith_giveBack kept (fun i offered => ready.loose me i offered) mine
    have same : giveBack R T w me [] (row me) = giveBack R T w me playerDst (row me) := by
      cases offered : row me with
      | none => rfl
      | some item =>
        rw [offered] at mine
        rw [(mine rfl).1]
    rw [same] at his
    have second : PutWith R T me.other (row me.other) (giveBack R T w me playerDst (row me))
        (giveBack R T (giveBack R T w me playerDst (row me)) me.other traderDst (row me.other)) :=
      putWith_giveBack first.toKept (still first) his
    exact putWith_both (s := me) first second

/-- The items of all rows are loose, and no two are one. -/
structure RowsReady (R : ItemRules) (w : ItemWorld) (rows : List (Side → Option Item)) : Prop where
  row : ∀ row ∈ rows, RowReady R w row
  apart : rows.Pairwise fun row row' => ∀ i i', InRow row i → InRow row' i' → i.guid ≠ i'.guid

/-- What a side gives in some rows, counted in pieces of an entry. -/
def givenIn (rows : List (Side → Option Item)) (s : Side) (e : UInt32) : Nat :=
  (rows.map fun row => given (row s) e).sum

@[simp] theorem givenIn_cons (row : Side → Option Item) (rows : List (Side → Option Item)) (s : Side)
    (e : UInt32) : givenIn (row :: rows) s e = given (row s) e + givenIn rows s e :=
  sum_cons

theorem settled_moveItems {rows : List (Side → Option Item)} (kept : Kept R w)
    (ready : RowsReady R w rows)
    (meets : Machine.EachStep (moveRow R T me) (RowMeets R T me) w rows) :
    After R T (fun i => ∃ row ∈ rows, InRow row i) w (moveItems R T me w rows) ∧
      ∃ done : List (Side → Option Item), done.Sublist rows ∧ ∀ s e,
        Shelf.amount (Place.heldBy (T.guid s)) e (moveItems R T me w rows).shelf + givenIn done s e =
          Shelf.amount (Place.heldBy (T.guid s)) e w.shelf + givenIn rows s e +
            givenIn done s.other e := by
  induction rows generalizing w with
  | nil => exact ⟨kept.after, [], List.Sublist.slnil, fun _ _ => rfl⟩
  | cons row rest ih =>
    obtain ⟨exchanged, settled⟩ :=
      rowSettled_moveRow kept (ready.row row mem_cons_self) meets.1
    obtain ⟨others, apart⟩ := List.pairwise_cons.mp ready.apart
    have ready' : RowsReady R (moveRow R T me w row) rest := by
      refine ⟨fun row' member => ⟨fun s item offered => ?_, ?_⟩, apart⟩
      · refine ((ready.row row' (mem_cons_of_mem _ member)).loose s item offered).after
          settled.toAfter fun i inRow => ?_
        exact Ne.symm (others row' member i item inRow ⟨s, offered⟩)
      · exact (ready.row row' (mem_cons_of_mem _ member)).apart
    obtain ⟨after, done, sublist, amount⟩ := ih settled.toKept ready' meets.2
    refine ⟨(settled.toAfter.trans after).mono fun i isItem => ?_, ?_⟩
    · rcases isItem with inRow | ⟨row', member, inRow⟩
      · exact ⟨row, mem_cons_self, inRow⟩
      · exact ⟨row', mem_cons_of_mem _ member, inRow⟩
    cases exchanged with
    | true =>
      refine ⟨row :: done, sublist.cons_cons row, fun s e => ?_⟩
      have first := settled.amount s e
      have later := amount s e
      rw [if_pos rfl] at first
      rw [givenIn_cons, givenIn_cons, givenIn_cons]
      change Shelf.amount _ e (moveItems R T me (moveRow R T me w row) rest).shelf + _ = _
      omega
    | false =>
      refine ⟨done, sublist.cons row, fun s e => ?_⟩
      have first := settled.amount s e
      have later := amount s e
      rw [if_neg Bool.false_ne_true] at first
      rw [givenIn_cons]
      change Shelf.amount _ e (moveItems R T me (moveRow R T me w row) rest).shelf + _ = _
      omega

/-! ## The whole trade -/

/-- What a trade has done to the inventories: some rows changed hands, the others went back. -/
structure Settled (R : ItemRules) (T : Traders) (rows : List (Side → Option Item))
    (w w' : ItemWorld) : Prop extends Kept R w' where
  frame : ∀ k, (∀ s, k.heldBy (T.guid s) = false) → w'.shelf.get? k = w.shelf.get? k
  amount : ∃ done : List (Side → Option Item), done.Sublist rows ∧ ∀ s e,
    Shelf.amount (Place.heldBy (T.guid s)) e w'.shelf + givenIn done s e =
      Shelf.amount (Place.heldBy (T.guid s)) e w.shelf + givenIn done s.other e

theorem cleared_eq (clear : Unflagged w) (lies : Lies R T w row) (s : Side) :
    cleared row s = (row s).map Prod.snd := by
  rw [cleared]
  cases offered : row s with
  | none => rfl
  | some x =>
    have isClear := clear x.1 x.2 (lies s x.1 x.2 offered).2
    exact congrArg some (setInTrade_setInTrade false isClear)

theorem exists_of_cleared (clear : Unflagged w) (lies : Lies R T w row) (offers : cleared row s = some item) : ∃ k, row s = some (k, item) := by
  rw [cleared_eq clear lies] at offers
  obtain ⟨⟨k, i⟩, found, rfl⟩ := Option.map_eq_some_iff.mp offers
  exact ⟨k, found⟩

theorem canBeTraded_of_offered {rows : List TradeRow}
    (can : canBeTraded R T now w me rows = true) (member : row ∈ rows) (offers : row s = some x) : R.canBeTraded w now x.2 false true = true := by
  obtain ⟨mine, his⟩ := Bool.and_eq_true _ _ ▸ can
  have inOffered : x ∈ offered rows s := List.mem_filterMap.mpr ⟨row, member, offers⟩
  rcases s.eq_or_eq_other me with rfl | rfl
  · exact (Bool.and_eq_true _ _ ▸ List.all_eq_true.mp mine x inOffered).1
  · exact List.all_eq_true.mp his x inOffered

theorem sum_held_rowItems (clear : Unflagged w) (lies : Lies R T w row) (s : Side) (e : UInt32):
    ((rowItems me row).map fun x =>
      Shelf.held (Place.heldBy (T.guid s)) e x.1 (some x.2)).sum = given (cleared row s) e := by
  have one : ∀ s', ((row s').toList.map fun x =>
      Shelf.held (Place.heldBy (T.guid s)) e x.1 (some x.2)).sum =
      if s' = s then given (cleared row s) e else 0 := by
    intro s'
    cases offers : row s' with
    | none =>
      split
      · rename_i own
        rw [cleared_eq clear lies, ← own, offers]
        rfl
      · rfl
    | some x =>
      have owner := lies.heldBy offers (T.guid s)
      rw [Option.toList_some, map_singleton, sum_singleton]
      change (if x.1.heldBy (T.guid s) = true ∧ x.2.entry = e then x.2.count else 0) = _
      rw [owner]
      by_cases own : s' = s
      · rw [if_pos own, cleared_eq clear lies, ← own, offers, decide_eq_true rfl]
        simp only [true_and]
        rfl
      have differ : T.guid s' ≠ T.guid s := by
        rcases s'.eq_or_eq_other s with same | other
        · exact absurd same own
        · rw [other]
          exact T.guid_other_ne s
      rw [if_neg own, decide_eq_false differ, if_neg (fun both => Bool.false_ne_true both.1)]
  rw [rowItems, map_append, sum_append, one, one]
  rcases s.eq_or_eq_other me with rfl | rfl
  · rw [if_pos rfl, if_neg s.other_ne, Nat.add_zero]
  · rw [if_neg (Ne.symm me.other_ne), if_pos rfl, Nat.zero_add]

theorem sum_held_allItems (clear : Unflagged w) {rows : List TradeRow}
    (lies : ∀ row ∈ rows, Lies R T w row) (s : Side) (e : UInt32) :
    ((allItems me rows).map fun x =>
      Shelf.held (Place.heldBy (T.guid s)) e x.1 (some x.2)).sum =
      givenIn (rows.map cleared) s e := by
  induction rows with
  | nil => rfl
  | cons row rest ih =>
    rw [allItems, flatMap_cons, map_append, sum_append,
      sum_held_rowItems clear (lies row mem_cons_self), map_cons, givenIn_cons]
    have later := ih fun row' member => lies row' (mem_cons_of_mem _ member)
    rw [allItems] at later
    rw [later]

section Removed

variable (kept : Kept R tr.items) (distinct : Distinct data)
  (can : canBeTraded R T now tr.items me (rows R T tr.items data) = true)

include kept distinct can

theorem removed_eq : removed R T me tr data =
    (unflagged R T me tr data).takeAll ((allItems me (rows R T tr.items data)).map Prod.fst) := by
  have alike : tr.items.Alike (unflagged R T me tr data) := alike_unflagged kept.clear
  rw [removed]
  unfold removeRow
  rw [foldl_rows]
  refine foldl_removeItem (T := T) (unflagged R T me tr data) _ [] ?_ ?_ ?_
  · rintro ⟨k, item⟩ member
    obtain ⟨row, inRows, s, offers⟩ := mem_allItems.mp member
    obtain ⟨⟨bag, slot, rfl, own | ⟨pBag, isBag, small⟩⟩, lies⟩ :=
      lies_rows row inRows s k item offers
    · refine ⟨s, ⟨bag, slot, rfl, Or.inl own⟩, ?_⟩
      rw [alike.shelf]
      exact lies
    · refine ⟨s, ⟨bag, slot, rfl, Or.inr ⟨pBag, ?_, small⟩⟩, ?_⟩
      · rw [ItemRules.getBagByPos_of_same fun _ => congrArg (Option.filter R.isBag) (alike.shelf _)]
        exact isBag
      · rw [alike.shelf]
        exact lies
  · exact nodup_allItems distinct
  · intro player bag item member there
    rw [nil_append] at member
    obtain ⟨⟨k, item'⟩, inAll, place⟩ := List.mem_map.mp member
    obtain rfl : k = .inventory player inventorySlotBag0 bag := place
    obtain ⟨row, inRows, s, offers⟩ := mem_allItems.mp inAll
    have lies := (lies_rows row inRows s _ item' offers).2
    rw [alike.shelf, lies] at there
    obtain rfl : item' = item := Option.some.inj there
    exact ItemRules.not_bag_of_canBeTraded kept.tidy lies (canBeTraded_of_offered can inRows offers)

theorem kept_removed : Kept R (removed R T me tr data) := by
  have alike : tr.items.Alike (unflagged R T me tr data) := alike_unflagged kept.clear
  rw [removed_eq kept distinct can]
  refine ⟨(alike.tidy kept.tidy).takeAll _, Store.Everywhere.takeAll (fun k t found => ?_) _⟩
  rw [alike.shelf] at found
  exact kept.clear k t found

theorem get?_removed (k : Place) : (removed R T me tr data).shelf.get? k =
    if k ∈ (allItems me (rows R T tr.items data)).map Prod.fst then none
    else tr.items.shelf.get? k := by
  have alike : tr.items.Alike (unflagged R T me tr data) := alike_unflagged kept.clear
  rw [removed_eq kept distinct can, Store.get?_takeAll, alike.shelf]

theorem nextGuid_removed : (removed R T me tr data).nextGuid = tr.items.nextGuid := by
  have alike : tr.items.Alike (unflagged R T me tr data) := alike_unflagged kept.clear
  rw [removed_eq kept distinct can, Store.nextGuid_takeAll, alike.nextGuid]

theorem rowsReady_removed : RowsReady R (removed R T me tr data)
    ((rows R T tr.items data).map cleared) := by
  have found : ∀ row ∈ rows R T tr.items data, ∀ s item, cleared row s = some item →
      ∃ k, row s = some (k, item) :=
    fun row member s item offers => exists_of_cleared kept.clear (lies_rows row member) offers
  -- two items of one identity lie at one place
  have place : ∀ row ∈ rows R T tr.items data, ∀ row' ∈ rows R T tr.items data, ∀ s s' k k' i i',
      row s = some (k, i) → row' s' = some (k', i') → i.guid = i'.guid → k = k' := by
    intro row member row' member' s s' k k' i i' offers offers' same
    exact kept.tidy.apart k k' i i' (lies_rows row member s k i offers).2
      (lies_rows row' member' s' k' i' offers').2 same
  constructor
  · intro row' member'
    obtain ⟨row, member, rfl⟩ := List.mem_map.mp member'
    constructor
    · intro s item isCleared
      obtain ⟨k, offers⟩ := found row member s item isCleared
      obtain ⟨-, lies⟩ := lies_rows row member s k item offers
      refine ⟨kept.tidy.sized k item lies, ?_, ?_, kept.clear k item lies⟩
      · rw [nextGuid_removed kept distinct can]
        exact kept.tidy.old k item lies
      rintro ⟨j, t, there, same⟩
      rw [get?_removed kept distinct can] at there
      split at there
      · cases there
      rename_i other
      apply other
      rw [kept.tidy.apart j k t item there lies same]
      exact List.mem_map.mpr ⟨_, mem_allItems.mpr ⟨row, member, s, offers⟩, rfl⟩
    · intro s item item' isCleared isCleared' same
      obtain ⟨k, offers⟩ := found row member s item isCleared
      obtain ⟨k', offers'⟩ := found row member s.other item' isCleared'
      have one := place row member row member _ _ _ _ _ _ offers offers' same
      have own := (lies_rows row member).heldBy offers (T.guid s)
      have others := (lies_rows row member).heldBy offers' (T.guid s)
      rw [one, others, decide_eq_false (T.guid_other_ne s), decide_eq_true rfl] at own
      cases own
  · rw [pairwise_map]
    have apart : ((allItems me (rows R T tr.items data)).map Prod.fst).Nodup :=
      nodup_allItems distinct
    rw [allItems, map_flatMap, nodup_flatMap] at apart
    refine apart.2.imp_of_mem fun {row row'} member member' disjoint i i' inRow inRow' same => ?_
    obtain ⟨s, isCleared⟩ := inRow
    obtain ⟨s', isCleared'⟩ := inRow'
    obtain ⟨k, offers⟩ := found row member s i isCleared
    obtain ⟨k', offers'⟩ := found row' member' s' i' isCleared'
    obtain rfl := place row member row' member' _ _ _ _ _ _ offers offers' same
    exact disjoint (List.mem_map.mpr ⟨_, mem_rowItems.mpr ⟨s, offers⟩, rfl⟩)
      (List.mem_map.mpr ⟨_, mem_rowItems.mpr ⟨s', offers'⟩, rfl⟩)

theorem amount_removed (s : Side) (e : UInt32) :
    Shelf.amount (Place.heldBy (T.guid s)) e (removed R T me tr data).shelf +
        givenIn ((rows R T tr.items data).map cleared) s e =
      Shelf.amount (Place.heldBy (T.guid s)) e tr.items.shelf := by
  have alike : tr.items.Alike (unflagged R T me tr data) := alike_unflagged kept.clear
  have found : ∀ x ∈ allItems me (rows R T tr.items data),
      (unflagged R T me tr data).shelf.get? x.1 = some x.2 := by
    intro x member
    rw [alike.shelf]
    exact lies_allItems x member
  have taken := Store.amount_takeAll (Place.heldBy (T.guid s)) e found (nodup_allItems distinct)
  rw [← removed_eq kept distinct can, Shelf.amount_congr _ _ alike.shelf,
    sum_held_allItems kept.clear lies_rows] at taken
  exact taken

theorem settled_trade (meets : Machine.EachStep (moveRow R T me) (RowMeets R T me)
      (removed R T me tr data) ((rows R T tr.items data).map cleared)) :
    Settled R T ((rows R T tr.items data).map cleared) tr.items
      (moveItems R T me (removed R T me tr data) ((rows R T tr.items data).map cleared)) := by
  obtain ⟨after, done, sublist, amount⟩ := settled_moveItems (kept_removed kept distinct can)
    (rowsReady_removed kept distinct can) meets
  refine ⟨after.toKept, fun k outside => ?_, done, sublist, fun s e => ?_⟩
  · rw [after.frame k outside, get?_removed kept distinct can, if_neg]
    rintro member
    obtain ⟨⟨j, item⟩, inAll, rfl⟩ := List.mem_map.mp member
    obtain ⟨row, inRows, s, offers⟩ := mem_allItems.mp inAll
    have owner := (lies_rows row inRows).heldBy offers (T.guid s)
    rw [outside s, decide_eq_true rfl] at owner
    cases owner
  · rw [amount s e, amount_removed kept distinct can]

end Removed

@[simp] theorem items_setAccepted (s s' : Side) (b : Bool) :
    (data.setAccepted s b s').items = (data s').items := by
  rw [TradeDatas.setAccepted]
  by_cases same : s' = s
  · rw [same, update_self]
  · rw [update_of_ne same]

@[simp] theorem money_setAccepted (s s' : Side) (b : Bool) :
    (data.setAccepted s b s').money = (data s').money := by
  rw [TradeDatas.setAccepted]
  by_cases same : s' = s
  · rw [same, update_self]
  · rw [update_of_ne same]

theorem payMoney_toNat {money paid got : UInt64} (rich : money ≤ maxMoneyAmount)
    (enough : paid ≤ money) (gotSmall : got ≤ maxMoneyAmount) (room : money < maxMoneyAmount - got) :
    (payMoney money paid got).toNat = money.toNat - paid.toNat + got.toNat := by
  have paidSmall := UInt64.le_iff_toNat_le.mp (UInt64.le_trans enough rich)
  rw [UInt64.le_iff_toNat_le] at enough gotSmall
  rw [UInt64.lt_iff_toNat_lt, UInt64.toNat_sub_of_le _ _ (UInt64.le_iff_toNat_le.mpr gotSmall)]
    at room
  have taken := modifyMoney_sub paidSmall enough
  obtain ⟨rest, modified, isRest⟩ := Option.map_eq_some_iff.mp taken
  have added := modifyMoney_add rest gotSmall
  have fits : rest.toNat + got.toNat < maxMoneyAmount.toNat := by omega
  rw [if_pos (Or.inr fits)] at added
  obtain ⟨now, modified', isNow⟩ := Option.map_eq_some_iff.mp added
  rw [payMoney, modified]
  dsimp only [Option.getD_some]
  rw [modified', Option.getD_some, isNow, isRest]

theorem payMoney_le {money paid got : UInt64} (rich : money ≤ maxMoneyAmount)
    (enough : paid ≤ money) (gotSmall : got ≤ maxMoneyAmount) (room : money < maxMoneyAmount - got) :
    payMoney money paid got ≤ maxMoneyAmount := by
  rw [UInt64.le_iff_toNat_le, payMoney_toNat rich enough gotSmall room]
  rw [UInt64.lt_iff_toNat_lt, UInt64.toNat_sub_of_le _ _ gotSmall] at room
  omega

theorem of_refuse_eq_some {data' : TradeDatas} (refused : refuse R T now me tr data = some data')
    (s : Side) : (data' s).items = (data s).items := by
  rw [refuse] at refused
  split at refused
  · rw [← Option.some.inj refused, items_setAccepted]
  split at refused
  · rw [← Option.some.inj refused, items_setAccepted]
  split at refused
  · rw [← Option.some.inj refused, items_setAccepted]
  split at refused
  · rw [← Option.some.inj refused, items_setAccepted]
  split at refused
  · rw [← Option.some.inj refused]
  · cases refused

theorem of_refuse_eq_none (passed : (refuse R T now me tr data).isNone) :
    ((data me).money ≤ tr.money me ∧ (data me.other).money ≤ tr.money me.other) ∧
      (tr.money me < maxMoneyAmount - (data me.other).money ∧
        tr.money me.other < maxMoneyAmount - (data me).money) ∧
      canBeTraded R T now tr.items me (rows R T tr.items data) = true := by
  rw [refuse] at passed
  split at passed
  · cases passed
  split at passed
  · cases passed
  split at passed
  · cases passed
  split at passed
  · cases passed
  split at passed
  · cases passed
  rename_i mine his tooMuch tooMuchHis traded
  rw [Bool.not_eq_true', Bool.not_eq_false, hasEnoughMoney, decide_eq_true_iff] at mine his
  rw [Bool.not_eq_true', Bool.not_eq_false] at traded
  exact ⟨⟨mine, his⟩, ⟨UInt64.not_le.mp tooMuch, UInt64.not_le.mp tooMuchHis⟩, traded⟩

/-! ## Runs -/

theorem rows_setAccepted (s : Side) (b : Bool) :
    rows R T w (data.setAccepted s b) = rows R T w data := by
  simp only [rows, getItem, items_setAccepted]

theorem Distinct.setAccepted (distinct : Distinct data) (s : Side) (b : Bool) :
    Distinct (data.setAccepted s b) := by
  intro s' i j
  rw [items_setAccepted]
  exact distinct s' i j

theorem Distinct.unaccept (distinct : Distinct data) : Distinct data.unaccept := distinct

theorem Distinct.setItem (distinct : Distinct data) {slot : Fin tradeSlotCount}
    {itemGuid : Nat} (isNew : itemGuid = 0 ∨ data.hasItem s itemGuid = false) :
    Distinct (data.setItem s slot itemGuid) := by
  rw [TradeDatas.setItem]
  split
  · exact distinct
  refine Distinct.unaccept ?_
  intro s' i j
  by_cases own : s' = s
  · subst own
    rw [update_self]
    dsimp only
    intro same some
    have notThere : ∀ i, itemGuid ≠ 0 → (data s').items i ≠ itemGuid := by
      intro i some there
      rcases isNew with zero | isNew
      · exact some zero
      · rw [TradeDatas.hasItem, decide_eq_false_iff_not] at isNew
        exact isNew ⟨i, there⟩
    by_cases here : i = slot
    · by_cases there : j = slot
      · rw [here, there]
      · rw [here, update_self] at same some
        rw [update_of_ne there] at same
        exact absurd same.symm (notThere j some)
    · rw [update_of_ne here] at same some
      by_cases there : j = slot
      · rw [there, update_self] at same
        exact absurd same (notThere i (same ▸ some))
      · rw [update_of_ne there] at same
        exact distinct s' i j same some
  · rw [update_of_ne own]
    exact distinct s' i j

theorem Distinct.setMoney (distinct : Distinct data) {owned money : UInt64} :
    Distinct (data.setMoney s owned money) := by
  rw [TradeDatas.setMoney]
  split
  · exact distinct
  split
  · exact distinct
  refine Distinct.unaccept ?_
  intro s' i j
  by_cases own : s' = s
  · rw [own, update_self]
    exact distinct s i j
  · rw [update_of_ne own]
    exact distinct s' i j

/-- A packet of one side, with what could be asked of the players at that moment. -/
structure Event where
  side : Side
  now : Circumstances
  packet : TradePacket

def step (R : ItemRules) (T : Traders) (tr : Trade) (e : Event) : Trade :=
  tr.handle R T e.now e.side e.packet

/-- Two players who begin to trade: what they and everyone else have is well kept, and neither owns
too much. -/
structure Start (R : ItemRules) where
  items : ItemWorld
  money : Side → UInt64
  kept : Kept R items
  rich : ∀ s, money s ≤ maxMoneyAmount

/-- The trade window is open and nothing is offered. -/
def Start.trade (start : Start R) : Trade where
  items := start.items
  money := start.money
  data := some fun _ => ⟨false, 0, fun _ => 0⟩

/-- An accept of the one side conserves items and money, or does nothing. -/
structure AcceptLawful (R : ItemRules) (T : Traders) (now : Circumstances) (me : Side) (tr : Trade)
    (result : AcceptResult) (tr' : Trade) : Prop where
  completed : result = .completed → ∃ data, tr.data = some data ∧
    Settled R T ((rows R T tr.items data).map cleared) tr.items tr'.items ∧
    ∀ s, (data s).money ≤ tr.money s ∧
      (tr'.money s).toNat = (tr.money s).toNat - (data s).money.toNat + (data s.other).money.toNat
  otherwise : result ≠ .completed →
    tr.items.Alike tr'.items ∧ Unflagged tr'.items ∧ tr'.money = tr.money

/-- Every accept of the run is lawful. -/
def Lawful (R : ItemRules) (T : Traders) (tr : Trade) (e : Event) : Prop :=
  match e.packet with
  | .acceptTrade => AcceptLawful R T e.now e.side tr (tr.handleAcceptTrade R T e.now e.side).1
      (tr.handleAcceptTrade R T e.now e.side).2
  | _ => True

/-- The rows of a trade that is executed all settle. -/
def Meets (R : ItemRules) (T : Traders) (tr : Trade) (e : Event) : Prop :=
  match e.packet, tr.data with
  | .acceptTrade, some data =>
    (refuse R T e.now e.side tr (data.setAccepted e.side true)).isNone →
    (data e.side.other).accepted = true →
    (∀ s, canCompleteTrade R T e.side tr (data.setAccepted e.side true) s = true) →
    Machine.EachStep (moveRow R T e.side) (RowMeets R T e.side)
      (removed R T e.side tr (data.setAccepted e.side true))
      ((rows R T tr.items data).map cleared)
  | _, _ => True

structure Inv (R : ItemRules) (tr : Trade) : Prop where
  kept : Kept R tr.items
  rich : ∀ s, tr.money s ≤ maxMoneyAmount
  distinct : ∀ data, tr.data = some data → Distinct data

theorem Start.inv (start : Start R) : Inv R start.trade where
  kept := start.kept
  rich := start.rich
  distinct := by
    rintro data ⟨⟩ s i j _ some
    exact absurd rfl some

theorem Kept.of_alike (kept : Kept R w) (alike : w.Alike w') : Kept R w' where
  tidy := alike.tidy kept.tidy
  clear := by
    intro k t found
    rw [alike.shelf] at found
    exact kept.clear k t found

theorem Inv.of_alike {tr' : Trade} {data : TradeDatas} (inv : Inv R tr)
    (alike : tr.items.Alike tr'.items) (money : tr'.money = tr.money) (offers : tr'.data = some data)
    (distinct : Distinct data) : Inv R tr' where
  kept := inv.kept.of_alike alike
  rich := by
    rw [money]
    exact inv.rich
  distinct := by
    intro data' found
    rw [offers] at found
    rw [← Option.some.inj found]
    exact distinct

theorem Alike.refl (w : ItemWorld) : w.Alike w := ⟨fun _ => rfl, rfl⟩

theorem Inv.acceptTrade (inv : Inv R tr) (meets : Meets R T tr ⟨me, now, .acceptTrade⟩) :
    AcceptLawful R T now me tr (tr.handleAcceptTrade R T now me).1
        (tr.handleAcceptTrade R T now me).2 ∧
      Inv R (tr.handleAcceptTrade R T now me).2 := by
  have unchanged : ∀ {result tr'} {data : TradeDatas}, result ≠ .completed →
      tr.items.Alike tr'.items → tr'.money = tr.money → tr'.data = some data → Distinct data →
      AcceptLawful R T now me tr result tr' ∧ Inv R tr' := by
    intro result tr' data other alike money offers distinct
    refine ⟨⟨fun done => absurd done other, fun _ => ⟨alike, ?_, money⟩⟩,
      inv.of_alike alike money offers distinct⟩
    exact (inv.kept.of_alike alike).clear
  rw [handleAcceptTrade]
  cases open' : tr.data with
  | none =>
    refine ⟨⟨nofun, fun _ => ⟨Alike.refl _, inv.kept.clear, rfl⟩⟩, inv⟩
  | some data =>
    have distinct := inv.distinct data open'
    have distinct' := distinct.setAccepted me true
    dsimp only
    cases refused : refuse R T now me tr (data.setAccepted me true) with
    | some data' =>
      have same := of_refuse_eq_some refused
      have still : Distinct data' := by
        intro s i j
        rw [same]
        exact distinct' s i j
      exact unchanged nofun (Alike.refl _) rfl rfl still
    | none =>
      dsimp only
      split
      · exact unchanged nofun (Alike.refl _) rfl rfl distinct'
      rename_i bothAccepted
      split
      · exact unchanged nofun (alike_unflagged inv.kept.clear) rfl rfl distinct'.unaccept
      rename_i fits
      have passed : (refuse R T now me tr (data.setAccepted me true)).isNone := by
        rw [refused]
        rfl
      obtain ⟨enough, room, traded⟩ := of_refuse_eq_none passed
      simp only [money_setAccepted] at enough room
      have accepted : (data me.other).accepted = true := by
        rw [TradeDatas.setAccepted, update_of_ne me.other_ne] at bothAccepted
        simpa using bothAccepted
      have complete : ∀ s, canCompleteTrade R T me tr (data.setAccepted me true) s = true := by
        rw [Bool.or_eq_true, not_or, Bool.not_eq_true', Bool.not_eq_false, Bool.not_eq_true',
          Bool.not_eq_false] at fits
        intro s
        rcases s.eq_or_eq_other me with rfl | rfl
        · exact fits.1
        · exact fits.2
      rw [Meets, open'] at meets
      have settles := meets passed accepted complete
      have sameRows : rows R T tr.items (data.setAccepted me true) = rows R T tr.items data :=
        rows_setAccepted me true
      rw [← sameRows] at settles
      have settled := settled_trade inv.kept distinct' traded settles
      rw [rows_setAccepted] at settled ⊢
      have sums : ∀ s, (data s).money ≤ tr.money s ∧ (data s.other).money ≤ maxMoneyAmount ∧
          tr.money s < maxMoneyAmount - (data s.other).money := by
        intro s
        rcases s.eq_or_eq_other me with rfl | rfl
        · exact ⟨enough.1, UInt64.le_trans enough.2 (inv.rich _), room.1⟩
        · rw [Side.other_other]
          exact ⟨enough.2, UInt64.le_trans enough.1 (inv.rich _), room.2⟩
      refine ⟨⟨fun _ => ⟨data, open', settled, fun s => ?_⟩, fun other => absurd rfl other⟩,
        settled.toKept, fun s => ?_, nofun⟩
      · obtain ⟨paid, small, room⟩ := sums s
        dsimp only
        rw [money_setAccepted, money_setAccepted]
        exact ⟨paid, payMoney_toNat (inv.rich s) paid small room⟩
      · obtain ⟨paid, small, room⟩ := sums s
        dsimp only
        rw [money_setAccepted, money_setAccepted]
        exact payMoney_le (inv.rich s) paid small room

theorem Inv.step {e : Event} (inv : Inv R tr) (meets : Meets R T tr e) : Inv R (step R T tr e) := by
  have sameItems : ∀ f : TradeDatas → TradeDatas, (∀ data, Distinct data → Distinct (f data)) →
      Inv R { tr with data := tr.data.map f } := by
    intro f keeps
    refine ⟨inv.kept, inv.rich, fun data found => ?_⟩
    obtain ⟨data', found', rfl⟩ := Option.map_eq_some_iff.mp found
    exact keeps data' (inv.distinct data' found')
  obtain ⟨side, now, packet⟩ := e
  cases packet with
  | setTradeGold gold => exact sameItems _ fun data distinct => distinct.setMoney
  | setTradeItem tradeSlot slot bag =>
    rw [Trade.step, handle, handleSetTradeItem]
    rcases open' : tr.data with _ | data
    · exact inv
    dsimp only
    split
    · split
      · exact inv
      split
      · exact inv
      split
      · exact inv
      rename_i isNew
      refine ⟨inv.kept, inv.rich, fun data' found => ?_⟩
      rw [← Option.some.inj found]
      exact (inv.distinct data open').setItem (Or.inr (Bool.not_eq_true _ ▸ isNew))
    · exact inv
  | clearTradeItem tradeSlot =>
    rw [Trade.step, handle]
    split
    · exact sameItems _ fun data distinct => distinct.setItem (Or.inl rfl)
    · exact inv
  | acceptTrade => exact (inv.acceptTrade meets).2
  | unacceptTrade => exact sameItems _ fun data distinct => distinct.setAccepted _ _

/-- **A trade conserves items and money, or does nothing**, in every run in which the rows of each
executed trade all settle. -/
theorem eachStep_lawful (R : ItemRules) (T : Traders) (start : Start R) (events : List Event)
    (meets : Machine.EachStep (step R T) (Meets R T) start.trade events) :
    Machine.EachStep (step R T) (Lawful R T) start.trade events := by
  refine Machine.EachStep.of_eachStep (I := Inv R) start.inv (fun tr e inv meets => inv.step meets)
    (fun tr e inv meets => ?_) meets
  obtain ⟨side, now, packet⟩ := e
  cases packet with
  | acceptTrade => exact (inv.acceptTrade meets).1
  | _ => exact True.intro

def plainStack (guid : Nat) (entry : UInt32) (count : Nat) : Item where
  guid := guid
  entry := entry
  count := count
  attrs :=
    { owner := 0, soulBound := false, bopTradeable := false, allowedGUIDs := []
      lootGenerated := false, boundByEnchant := false, gems := [], inTrade := false }

/-- The one has two stacks of ten, the other five of the same and three of something else. -/
def twoTraders : ItemWorld where
  shelf :=
    { toList := [⟨.inventory 1 255 23, plainStack 10 1 10⟩, ⟨.inventory 1 255 24, plainStack 11 1 10⟩,
        ⟨.inventory 2 255 23, plainStack 12 1 5⟩, ⟨.inventory 2 255 24, plainStack 13 2 3⟩]
      nodup := by decide }
  nextGuid := 20

theorem kept_twoTraders (maxCount : Int) : Kept (.tradeGoods maxCount) twoTraders := by
  have lies : ∀ k t, twoTraders.shelf.get? k = some t →
      (⟨k, t⟩ : Placed Place UInt32 ItemAttrs) ∈ twoTraders.shelf.toList := fun k t found =>
    Shelf.get?_eq_some_iff.mp found
  refine ⟨⟨fun k j t u foundT foundU same => ?_, fun k t found => ?_, fun k t found => ?_⟩,
    fun k t found => ?_⟩
  · have apart : ∀ x ∈ twoTraders.shelf.toList, ∀ y ∈ twoTraders.shelf.toList,
        x.stack.guid = y.stack.guid → x.place = y.place := by decide
    exact apart _ (lies k t foundT) _ (lies j u foundU) same
  · have sized : ∀ x ∈ twoTraders.shelf.toList, 1 ≤ x.stack.count ∧ x.stack.count ≤ 20 := by decide
    exact sized _ (lies k t found)
  · have old : ∀ x ∈ twoTraders.shelf.toList, x.stack.guid < twoTraders.nextGuid := by decide
    exact old _ (lies k t found)
  · have clear : ∀ x ∈ twoTraders.shelf.toList, x.stack.attrs.inTrade = false := by decide
    exact clear _ (lies k t found)

def twoPlayers : Traders where
  guid
    | .first => 1
    | .second => 2
  distinct := by decide

def anyTime : Circumstances := ⟨fun _ _ _ => true, fun _ => 0⟩

def begin (maxCount : Int) : Start (.tradeGoods maxCount) where
  items := twoTraders
  money := fun _ => 0
  kept := kept_twoTraders maxCount
  rich := fun _ => UInt64.zero_le

/-- Both stacks of the one are offered, and something of the other beside the second. -/
def twoRows : List Event :=
  [⟨.first, anyTime, .setTradeItem 0 23 255⟩, ⟨.first, anyTime, .setTradeItem 1 24 255⟩,
    ⟨.second, anyTime, .setTradeItem 1 24 255⟩, ⟨.second, anyTime, .acceptTrade⟩,
    ⟨.first, anyTime, .acceptTrade⟩]

theorem eachStep_lawful_without_limit :
    Machine.EachStep (step (.tradeGoods 0) twoPlayers) (Meets (.tradeGoods 0) twoPlayers)
        (begin 0).trade twoRows ∧
      Machine.EachStep (step (.tradeGoods 0) twoPlayers) (Lawful (.tradeGoods 0) twoPlayers)
        (begin 0).trade twoRows := by
  have meets : Machine.EachStep (step (.tradeGoods 0) twoPlayers)
      (Meets (.tradeGoods 0) twoPlayers) (begin 0).trade twoRows := by
    refine ⟨True.intro, True.intro, True.intro, fun _ accepted _ => ?_, fun _ _ _ => ?_, True.intro⟩
    · exact absurd accepted (by decide)
    · decide
  exact ⟨meets, eachStep_lawful _ _ _ _ meets⟩

/-- Where one may own no more than twenty, the second row goes back by vectors that are in use. -/
theorem not_lawful_of_reused_vector :
    ¬ Machine.EachStep (step (.tradeGoods 20) twoPlayers) (Lawful (.tradeGoods 20) twoPlayers)
      (begin 20).trade twoRows := by
  intro lawful
  obtain ⟨data, -, settled, -⟩ := lawful.2.2.2.2.1.completed (by decide)
  obtain ⟨done, -, amount⟩ := settled.amount
  have first := amount .first 1
  have second := amount .second 1
  change _ = _ + givenIn done .second 1 at first
  change _ = _ + givenIn done .first 1 at second
  have before : Shelf.amount (Place.heldBy 1) 1 twoTraders.shelf +
      Shelf.amount (Place.heldBy 2) 1 twoTraders.shelf = 25 := by decide
  have after : Shelf.amount (Place.heldBy 1) 1 (Machine.run (step (.tradeGoods 20) twoPlayers)
        (begin 20).trade twoRows).items.shelf +
      Shelf.amount (Place.heldBy 2) 1 (Machine.run (step (.tradeGoods 20) twoPlayers)
        (begin 20).trade twoRows).items.shelf = 33 := by decide
  change Shelf.amount (Place.heldBy 1) 1 (Machine.run (step (.tradeGoods 20) twoPlayers)
    (begin 20).trade twoRows).items.shelf + _ = Shelf.amount (Place.heldBy 1) 1 twoTraders.shelf + _
    at first
  change Shelf.amount (Place.heldBy 2) 1 (Machine.run (step (.tradeGoods 20) twoPlayers)
    (begin 20).trade twoRows).items.shelf + _ = Shelf.amount (Place.heldBy 2) 1 twoTraders.shelf + _
    at second
  omega

end Trade

end Sky548
