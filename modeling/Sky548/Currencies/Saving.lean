import Sky548.Currencies.Model
import Sky548.Machine

/-!
# Currencies after a relogin

An entry of `_currencyStorage` is written by its state: a new one makes a row, a changed one updates
the row that it has. Every call keeps a new entry new until it is saved, but for the weekly reset.

All currencies are known, and their ids fit into the 16 bits of a row.
-/

namespace Sky548

/-- A row of `character_currency`. -/
structure CurrencyRow where
  weekCount : UInt32
  totalCount : UInt32
  seasonCount : UInt32
  flags : UInt8

structure SavedPurse where
  purse : Purse
  flags : UInt32 → UInt8
  rows : UInt32 → Option CurrencyRow

inductive CurrencyEvent
  | modifyCurrency (rules : CurrencyRules) (id : UInt32) (count : ℤ)
  | setCurrency (id count : UInt32)
  | modifyCurrencyFlag (id : UInt32) (flag : UInt8)
  | resetCurrencyWeekCap
  | saveCurrency
  | relog (conquestTotalWeekCap : UInt32)

namespace SavedPurse

def rowOf (cur : PlayerCurrency) (flags : UInt8) : CurrencyRow :=
  ⟨cur.weekCount, cur.totalCount, cur.seasonCount, flags⟩

/-- What the player has of a currency. -/
def row (s : SavedPurse) (id : UInt32) : Option CurrencyRow :=
  (s.purse.currencyStorage id).map fun cur => rowOf cur (s.flags id)

def mapEntries (s : SavedPurse) (f : PlayerCurrency → PlayerCurrency) : SavedPurse :=
  { s with purse.currencyStorage := fun id => (s.purse.currencyStorage id).map f }

/-- `REPLACE` of a new entry, `UPDATE` of a changed one. -/
def saveCurrency (s : SavedPurse) : SavedPurse :=
  { s.mapEntries fun cur => { cur with state := .unchanged } with
    rows := fun id => match s.purse.currencyStorage id with
      | some cur => match cur.state with
        | .new => some (rowOf cur (s.flags id))
        | .changed => (s.rows id).map fun _ => rowOf cur (s.flags id)
        | _ => s.rows id
      | none => s.rows id }

def loadCurrency (rows : UInt32 → Option CurrencyRow) (conquestTotalWeekCap : UInt32) :
    SavedPurse where
  purse.currencyStorage id := if id = 0 then none else (rows id).map fun row =>
    ⟨.unchanged, row.totalCount, row.weekCount, row.seasonCount⟩
  purse.conquestTotalWeekCap := conquestTotalWeekCap
  flags id := (rows id).elim 0 CurrencyRow.flags
  rows := rows

def modifyCurrencyFlag (s : SavedPurse) (id : UInt32) (flag : UInt8) : SavedPurse :=
  if id = 0 then s
  else match s.purse.currencyStorage id with
  | none => s
  | some cur =>
    { s with
      flags := Function.update s.flags id flag
      purse := s.purse.store id
        { cur with state := if cur.state ≠ .new then .changed else cur.state } }

def setCurrency (s : SavedPurse) (id count : UInt32) : SavedPurse :=
  match s.purse.currencyStorage id with
  | none => { s with purse := s.purse.store id ⟨.new, count, 0, 0⟩ }
  | some _ => s

/-- `World::ResetCurrencyWeekCap` with this player in the world. -/
def resetCurrencyWeekCap (s : SavedPurse) : SavedPurse :=
  { s.mapEntries fun cur => { cur with weekCount := 0, state := .changed } with
    rows := fun id => (s.rows id).map fun row => { row with weekCount := 0 } }

def step (s : SavedPurse) : CurrencyEvent → SavedPurse
  | .modifyCurrency rules id count =>
    (s.purse.modifyCurrency rules id count).elim s fun purse => { s with purse := purse }
  | .setCurrency id count => s.setCurrency id count
  | .modifyCurrencyFlag id flag => s.modifyCurrencyFlag id flag
  | .resetCurrencyWeekCap => s.resetCurrencyWeekCap
  | .saveCurrency => s.saveCurrency
  | .relog conquestTotalWeekCap => loadCurrency s.saveCurrency.rows conquestTotalWeekCap

/-- After a relogin at this point the player would have what he has. -/
def Lasting (s : SavedPurse) : Prop :=
  ∀ id ≠ 0, (loadCurrency s.saveCurrency.rows 0).row id = s.row id

/-- No reset comes upon an entry that has never been saved. -/
def Sound (s : SavedPurse) (e : CurrencyEvent) : Prop :=
  e = .resetCurrencyWeekCap → ∀ id ≠ 0, ∀ cur, s.purse.currencyStorage id = some cur →
    cur.state ≠ .new

/-- What the state of an entry says of its row. -/
def Kept (entry : Option PlayerCurrency) (flags : UInt8) (row : Option CurrencyRow) : Prop :=
  match entry with
  | none => row = none
  | some cur => match cur.state with
    | .unchanged => row = some (rowOf cur flags)
    | .changed => row.isSome = true
    | .new => row = none
    | .removed => False

/-- An entry is as it was, or new if there was none or a new one, and else changed. -/
def Touched (entry : Option PlayerCurrency) (flags : UInt8) (entry' : Option PlayerCurrency)
    (flags' : UInt8) : Prop :=
  entry' = entry ∧ flags' = flags ∨ ∃ cur, entry' = some cur ∧
    cur.state = if entry.all (·.state = .new) then .new else .changed

variable {entry entry' entry'' : Option PlayerCurrency} {flags flags' flags'' : UInt8}
variable {row' : Option CurrencyRow} {s : SavedPurse} {id : UInt32}

theorem Kept.touched (kept : Kept entry flags row') (touched : Touched entry flags entry' flags') :
    Kept entry' flags' row' := by
  rcases touched with ⟨rfl, rfl⟩ | ⟨cur, rfl, state⟩
  · exact kept
  cases entry with
  | none => simp_all [Kept]
  | some old => cases isState : old.state <;> simp_all [Kept]

theorem Touched.trans (first : Touched entry flags entry' flags')
    (second : Touched entry' flags' entry'' flags'') : Touched entry flags entry'' flags'' := by
  rcases second with ⟨rfl, rfl⟩ | ⟨cur, rfl, state⟩
  · exact first
  rcases first with ⟨rfl, rfl⟩ | ⟨between, rfl, state'⟩
  · exact Or.inr ⟨cur, rfl, state⟩
  · refine Or.inr ⟨cur, rfl, ?_⟩
    rw [state, Option.all_some, state']
    split <;> rfl

theorem touched_store {p : Purse} {of : UInt32} {cur : PlayerCurrency} {f f' : UInt32 → UInt8}
    (state : cur.state = if (p.currencyStorage of).all (·.state = .new) then .new else .changed)
    (others : ∀ id ≠ of, f' id = f id) (id : UInt32) :
    Touched (p.currencyStorage id) (f id) ((p.store of cur).currencyStorage id) (f' id) := by
  by_cases own : id = of
  · subst own
    exact Or.inr ⟨cur, Function.update_self .., state⟩
  · exact Or.inl ⟨Function.update_of_ne own _ _, others id own⟩

theorem touched_modifyOwn (p : Purse) (rules : CurrencyRules) (currency : CurrencyTypesEntry)
    (count : ℤ) (f : UInt32 → UInt8) (id : UInt32) : Touched (p.currencyStorage id) (f id)
      ((p.modifyOwn rules currency count).1.currencyStorage id) (f id) := by
  rw [Purse.modifyOwn, Purse.counts]
  split
  · refine touched_store ?_ (fun _ _ => rfl) id
    cases p.currencyStorage currency.id with
    | none => rfl
    | some old => by_cases isNew : old.state = .new <;> simp [isNew]
  cases isThere : p.currencyStorage currency.id with
  | none => exact touched_store (by rw [isThere]; rfl) (fun _ _ => rfl) id
  | some old =>
    rw [Option.getD_some, Purse.store, ← isThere, Function.update_eq_self]
    exact Or.inl ⟨rfl, rfl⟩

theorem touched_modifyCurrency {p p' : Purse} {rules : CurrencyRules} {of : UInt32} {count : ℤ}
    (modified : p.modifyCurrency rules of count = some p') (f : UInt32 → UInt8) (id : UInt32) :
    Touched (p.currencyStorage id) (f id) (p'.currencyStorage id) (f id) := by
  rw [Purse.modifyCurrency] at modified
  split at modified
  · cases modified
    exact Or.inl ⟨rfl, rfl⟩
  split at modified
  · cases modified
  rename_i currency _
  have own := touched_modifyOwn p rules currency count f id
  generalize p.modifyOwn rules currency count = done at own modified
  obtain ⟨after, forwarded | forwarded⟩ := done
  · cases modified
    exact own
  dsimp only at modified
  split at modified
  · split at modified
    · rw [← Option.some.inj modified]
      exact own
    · rw [← Option.some.inj modified]
      exact own.trans (touched_modifyOwn (after.raiseConquestCap _) rules _ forwarded f id)
  · rw [← Option.some.inj modified]
    exact own

/-- What the states say of all rows. -/
def Inv (s : SavedPurse) : Prop :=
  ∀ id ≠ 0, Kept (s.purse.currencyStorage id) (s.flags id) (s.rows id)

theorem Inv.load (rows : UInt32 → Option CurrencyRow) (conquestTotalWeekCap : UInt32) :
    Inv (loadCurrency rows conquestTotalWeekCap) := by
  intro id known
  cases isRow : rows id <;> simp [loadCurrency, known, isRow, Kept, rowOf]

theorem Inv.rows_saveCurrency (inv : Inv s) (known : id ≠ 0) :
    s.saveCurrency.rows id = s.row id := by
  have kept := inv id known
  cases isEntry : s.purse.currencyStorage id with
  | none => simp_all [saveCurrency, row, Kept]
  | some cur =>
    cases isState : cur.state <;> simp_all [saveCurrency, row, Kept]
    exact Option.isSome_iff_exists.mp kept

theorem row_loadCurrency (rows : UInt32 → Option CurrencyRow) (conquestTotalWeekCap : UInt32)
    (known : id ≠ 0) : (loadCurrency rows conquestTotalWeekCap).row id = rows id := by
  cases isRow : rows id <;> simp [row, loadCurrency, known, isRow, rowOf]

theorem Inv.lasting (inv : Inv s) : s.Lasting := fun _ known =>
  (row_loadCurrency _ 0 known).trans (inv.rows_saveCurrency known)

theorem Inv.step (inv : Inv s) (e : CurrencyEvent) (sound : s.Sound e) : Inv (s.step e) := by
  intro id known
  have kept := inv id known
  cases e with
  | modifyCurrency rules of count =>
    cases modified : s.purse.modifyCurrency rules of count with
    | none => rwa [SavedPurse.step, modified]
    | some purse =>
      rw [SavedPurse.step, modified]
      exact kept.touched (touched_modifyCurrency modified s.flags id)
  | setCurrency of count =>
    rw [SavedPurse.step, setCurrency]
    split
    · rename_i missing
      exact kept.touched (touched_store (by rw [missing]; rfl) (fun _ _ => rfl) id)
    · exact kept
  | modifyCurrencyFlag of flag =>
    rw [SavedPurse.step, modifyCurrencyFlag]
    split
    · exact kept
    split
    · exact kept
    rename_i cur isThere
    refine kept.touched (touched_store ?_ (fun id other => Function.update_of_ne other _ _) id)
    by_cases isNew : cur.state = .new <;> simp [isThere, isNew]
  | resetCurrencyWeekCap =>
    have saved := sound rfl id known
    rw [SavedPurse.step, resetCurrencyWeekCap, mapEntries]
    cases isEntry : s.purse.currencyStorage id with
    | none => simp_all [Kept]
    | some cur => cases isState : cur.state <;> simp_all [Kept]
  | saveCurrency =>
    have written := inv.rows_saveCurrency known
    rw [SavedPurse.step, written, row]
    cases isEntry : s.purse.currencyStorage id with
    | none => simp [saveCurrency, mapEntries, isEntry, Kept]
    | some cur => simp [saveCurrency, mapEntries, isEntry, Kept, rowOf]
  | relog conquestTotalWeekCap => exact Inv.load _ _ id known

theorem Inv.not_lasting (inv : Inv s) {e : CurrencyEvent} (unsound : ¬ s.Sound e) :
    ¬ (s.step e).Lasting := by
  intro lasting
  apply unsound
  rintro rfl id known cur isThere isNew
  have noRow := inv id known
  have same := lasting id known
  rw [row_loadCurrency _ 0 known] at same
  simp_all [Kept, SavedPurse.step, resetCurrencyWeekCap, mapEntries, saveCurrency, row]

/-- **A relogin restores all currencies**, whenever it comes, in just those runs in which no weekly
reset comes upon an entry that has never been saved. -/
theorem lasting_iff_sound (rows : UInt32 → Option CurrencyRow) (conquestTotalWeekCap : UInt32)
    (events : List CurrencyEvent) :
    Machine.Throughout step Lasting (loadCurrency rows conquestTotalWeekCap) events ↔
      Machine.EachStep step Sound (loadCurrency rows conquestTotalWeekCap) events :=
  Machine.throughout_iff_eachStep (Inv.load rows conquestTotalWeekCap) (fun _ => Inv.lasting)
    (fun _ e inv sound => inv.step e sound) fun _ _ inv unsound => inv.not_lasting unsound

end SavedPurse

end Sky548
