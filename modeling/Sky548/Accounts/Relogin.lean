import Sky548.Accounts.RBAC
import Sky548.Machine

/-!
# Permissions after a relogin

What the rows of an account say about a permission is what the first of them says, and its default
otherwise (`verdict_loadFromDB`). The commands leave sets that say the same, but for a revocation:
one of a default permission, or one for all realms where the server's own has a row, is undone when
the rows are loaded again. `consistent_run_iff` says that nothing else is.
-/

namespace Sky548

open List Option

namespace RBACData

variable {table : PermissionTable} {s : RBACData} {permissionId : Nat} {realmId : Int}

/-- Granted, denied or neither -/
def verdict (s : RBACData) (permissionId : Nat) : Option Bool :=
  if permissionId ∈ s.grantedPerms then some true
  else if permissionId ∈ s.deniedPerms then some false
  else none

def Apart (s : RBACData) : Prop := Disjoint s.grantedPerms s.deniedPerms

theorem verdict_eq_true : s.verdict permissionId = some true ↔ permissionId ∈ s.grantedPerms := by
  rw [verdict]
  split_ifs
  · simp [*]
  · simp [*]
  · simp [*]

theorem verdict_eq_false (apart : s.Apart) :
    s.verdict permissionId = some false ↔ permissionId ∈ s.deniedPerms := by
  rw [verdict]
  split_ifs with granted denied
  · simp [Finset.disjoint_left.mp apart granted]
  · simp [denied]
  · simp [denied]

theorem verdict_eq_none : s.verdict permissionId = none ↔
    permissionId ∉ s.grantedPerms ∧ permissionId ∉ s.deniedPerms := by
  rw [verdict]
  split_ifs with granted denied
  · simp [granted]
  · simp [denied]
  · simp [granted, denied]

theorem sets_eq {s' : RBACData} (apart : s.Apart) (apart' : s'.Apart)
    (same : ∀ permissionId, s'.verdict permissionId = s.verdict permissionId) :
    s'.grantedPerms = s.grantedPerms ∧ s'.deniedPerms = s.deniedPerms := by
  constructor
  · ext permissionId
    rw [← verdict_eq_true, ← verdict_eq_true, same]
  · ext permissionId
    rw [← verdict_eq_false apart, ← verdict_eq_false apart', same]

def Defined (table : PermissionTable) (permissionId : Nat) : Prop :=
  table.getRBACPermission permissionId ≠ none

instance : DecidablePred (Defined table) := fun _ => inferInstanceAs (Decidable (_ ≠ _))

def decideAs (s : RBACData) (permissionId : Nat) (granted : Bool) : RBACData :=
  if granted then { s with grantedPerms := insert permissionId s.grantedPerms }
  else { s with deniedPerms := insert permissionId s.deniedPerms }

/-- Granting and denying, which differ in the set alone -/
def assign (table : PermissionTable) (s : RBACData) (granted : Bool) (permissionId : Nat)
    (realmId : Int) : RBACCommandResult × RBACData :=
  if granted then s.grantPermission table permissionId realmId
  else s.denyPermission table permissionId realmId

variable {granted : Bool}

theorem verdict_decideAs (undecided : s.verdict permissionId = none) (other : Nat) :
    (s.decideAs permissionId granted).verdict other =
      if other = permissionId then some granted else s.verdict other := by
  obtain ⟨notGranted, notDenied⟩ := verdict_eq_none.mp undecided
  cases granted with
  | true =>
    by_cases here : other = permissionId
    · simp [verdict, decideAs, here]
    · simp [verdict, decideAs, here]
  | false =>
    by_cases here : other = permissionId
    · simp [verdict, decideAs, here, notGranted]
    · simp [verdict, decideAs, here]

theorem apart_decideAs (undecided : s.verdict permissionId = none) (apart : s.Apart) :
    (s.decideAs permissionId granted).Apart := by
  obtain ⟨notGranted, notDenied⟩ := verdict_eq_none.mp undecided
  cases granted with
  | true => exact Finset.disjoint_insert_left.mpr ⟨notDenied, apart⟩
  | false => exact Finset.disjoint_insert_right.mpr ⟨notGranted, apart⟩

theorem assign_cases (table : PermissionTable) (s : RBACData) (granted : Bool) (permissionId : Nat)
    (realmId : Int) :
    ((s.assign table granted permissionId realmId).1 ≠ .ok ∧
      (s.assign table granted permissionId realmId).2 = s ∧
      (Defined table permissionId → s.verdict permissionId ≠ none)) ∨
    ((s.assign table granted permissionId realmId).1 = .ok ∧
      Defined table permissionId ∧ s.verdict permissionId = none ∧
      (s.assign table granted permissionId realmId).2 =
        if realmId ≠ 0 then
          ((s.decideAs permissionId granted).savePermission permissionId realmId
            granted).calculateNewPermissions table
        else s.decideAs permissionId granted) := by
  have listed : permissionId ∈ s.grantedPerms ∨ permissionId ∈ s.deniedPerms →
      s.verdict permissionId ≠ none := by
    intro either undecided
    obtain ⟨notGranted, notDenied⟩ := verdict_eq_none.mp undecided
    exact either.elim notGranted notDenied
  cases granted with
  | true =>
    change ((s.grantPermission table permissionId realmId).1 ≠ .ok ∧ _) ∨
      ((s.grantPermission table permissionId realmId).1 = .ok ∧ _)
    rw [assign, if_pos rfl, grantPermission]
    by_cases undefined : table.getRBACPermission permissionId = none
    · rw [if_pos undefined]
      exact Or.inl ⟨nofun, rfl, fun defined => absurd undefined defined⟩
    rw [if_neg undefined]
    by_cases denied : permissionId ∈ s.deniedPerms
    · rw [if_pos denied]
      exact Or.inl ⟨nofun, rfl, fun _ => listed (Or.inr denied)⟩
    rw [if_neg denied]
    by_cases granted : permissionId ∈ s.grantedPerms
    · rw [if_pos granted]
      exact Or.inl ⟨nofun, rfl, fun _ => listed (Or.inl granted)⟩
    rw [if_neg granted]
    refine Or.inr ⟨?_, undefined, verdict_eq_none.mpr ⟨granted, denied⟩, ?_⟩
    · split
      · rfl
      · rfl
    · split
      · rfl
      · rfl
  | false =>
    rw [assign, if_neg Bool.false_ne_true, denyPermission]
    by_cases undefined : table.getRBACPermission permissionId = none
    · rw [if_pos undefined]
      exact Or.inl ⟨nofun, rfl, fun defined => absurd undefined defined⟩
    rw [if_neg undefined]
    by_cases granted : permissionId ∈ s.grantedPerms
    · rw [if_pos granted]
      exact Or.inl ⟨nofun, rfl, fun _ => listed (Or.inl granted)⟩
    rw [if_neg granted]
    by_cases denied : permissionId ∈ s.deniedPerms
    · rw [if_pos denied]
      exact Or.inl ⟨nofun, rfl, fun _ => listed (Or.inr denied)⟩
    rw [if_neg denied]
    refine Or.inr ⟨?_, undefined, verdict_eq_none.mpr ⟨granted, denied⟩, ?_⟩
    · split
      · rfl
      · rfl
    · split
      · rfl
      · rfl

theorem verdict_assign (other : Nat) :
    (s.assign table granted permissionId realmId).2.verdict other = (s.verdict other).or
        (if other = permissionId ∧ Defined table permissionId then some granted else none) := by
  rcases assign_cases table s granted permissionId realmId with
    ⟨-, same, decided⟩ | ⟨-, defined, undecided, result⟩
  · rw [same]
    split
    · rename_i both
      obtain ⟨here, defined⟩ := both
      obtain ⟨b, isDecided⟩ := Option.ne_none_iff_exists'.mp (decided defined)
      rw [here, isDecided]
      rfl
    · rw [or_none]
  · have sets : (s.assign table granted permissionId realmId).2.verdict other =
        (s.decideAs permissionId granted).verdict other := by
      rw [result]
      split
      · rfl
      · rfl
    rw [sets, verdict_decideAs undecided]
    by_cases here : other = permissionId
    · rw [if_pos here, if_pos ⟨here, defined⟩, here, undecided]
      rfl
    · rw [if_neg here, if_neg fun both => here both.1, or_none]

theorem apart_assign (apart : s.Apart) : (s.assign table granted permissionId realmId).2.Apart := by
  rcases assign_cases table s granted permissionId realmId with
    ⟨-, same, -⟩ | ⟨-, -, undecided, result⟩
  · rw [same]
    exact apart
  · rw [result]
    split
    · exact apart_decideAs undecided apart
    · exact apart_decideAs undecided apart

theorem revoke_cases (table : PermissionTable) (s : RBACData) (permissionId : Nat) (realmId : Int) :
    ((s.revokePermission table permissionId realmId).1 ≠ .ok ∧
      (s.revokePermission table permissionId realmId).2 = s ∧ s.verdict permissionId = none) ∨
    ((s.revokePermission table permissionId realmId).1 = .ok ∧ s.verdict permissionId ≠ none ∧
      (s.revokePermission table permissionId realmId).2 =
        let t := { s with
          grantedPerms := s.grantedPerms.erase permissionId
          deniedPerms := s.deniedPerms.erase permissionId }
        if realmId ≠ 0 then
          ({ t with
            rows := (s.rows.erase (toLex (permissionId, realmId))).erase
              (toLex (permissionId, -1)) } : RBACData).calculateNewPermissions table
        else t) := by
  rw [revokePermission]
  split
  · rename_i absent
    exact Or.inl ⟨nofun, rfl, verdict_eq_none.mpr absent⟩
  rename_i present
  refine Or.inr ⟨?_, fun undecided => present (verdict_eq_none.mp undecided), ?_⟩
  · split
    · rfl
    · rfl
  · split
    · rfl
    · rfl

theorem verdict_revokePermission (other : Nat) :
    (s.revokePermission table permissionId realmId).2.verdict other =
      if other = permissionId then none else s.verdict other := by
  rcases revoke_cases table s permissionId realmId with ⟨-, same, undecided⟩ | ⟨-, -, result⟩
  · rw [same]
    split
    · rename_i here
      rw [here, undecided]
    · rfl
  · have sets : (s.revokePermission table permissionId realmId).2.verdict other = ({ s with
          grantedPerms := s.grantedPerms.erase permissionId
          deniedPerms := s.deniedPerms.erase permissionId } : RBACData).verdict other := by
      rw [result]
      split
      · rfl
      · rfl
    rw [sets]
    by_cases here : other = permissionId
    · simp [verdict, here]
    · simp [verdict, here]

theorem apart_revokePermission (apart : s.Apart) :
    (s.revokePermission table permissionId realmId).2.Apart := by
  have erased : Disjoint (s.grantedPerms.erase permissionId) (s.deniedPerms.erase permissionId) :=
    apart.mono (Finset.erase_subset _ _) (Finset.erase_subset _ _)
  rcases revoke_cases table s permissionId realmId with ⟨-, same, -⟩ | ⟨-, -, result⟩
  · rw [same]
    exact apart
  · rw [result]
    split
    · exact erased
    · exact erased

/-- What assigning with no realm leaves as it is -/
structure Loaded (s s' : RBACData) : Prop where
  rows : s'.rows = s.rows
  realmId : s'.realmId = s.realmId
  secLevel : s'.secLevel = s.secLevel
  apart : s.Apart → s'.Apart

theorem Loaded.trans {s' s'' : RBACData} (first : Loaded s s') (second : Loaded s' s'') :
    Loaded s s'' where
  rows := second.rows.trans first.rows
  realmId := second.realmId.trans first.realmId
  secLevel := second.secLevel.trans first.secLevel
  apart := fun apart => second.apart (first.apart apart)

theorem loaded_assign : Loaded s (s.assign table granted permissionId 0).2 := by
  have decided : ∀ t : RBACData, t = s ∨ t = s.decideAs permissionId granted →
      t.rows = s.rows ∧ t.realmId = s.realmId ∧ t.secLevel = s.secLevel := by
    rintro t (rfl | rfl)
    · exact ⟨rfl, rfl, rfl⟩
    · cases granted with
      | true => exact ⟨rfl, rfl, rfl⟩
      | false => exact ⟨rfl, rfl, rfl⟩
  obtain ⟨rows, realmId, secLevel⟩ := decided (s.assign table granted permissionId 0).2 (by
    rcases assign_cases table s granted permissionId 0 with ⟨-, same, -⟩ | ⟨-, -, -, result⟩
    · exact Or.inl same
    · exact Or.inr (result.trans (if_neg fun notZero => notZero rfl)))
  exact ⟨rows, realmId, secLevel, apart_assign⟩

theorem loadRow_eq (row : (Nat ×ₗ Int) × Bool) :
    s.loadRow table row = (s.assign table row.2 (ofLex row.1).1 0).2 := by
  rw [loadRow, assign]
  split
  · rfl
  · rfl

variable (table) in
theorem loadRows_spec (rows : List ((Nat ×ₗ Int) × Bool)) : ∀ s : RBACData,
    Loaded s (rows.foldl (loadRow table) s) ∧ ∀ permissionId,
      (rows.foldl (loadRow table) s).verdict permissionId = (s.verdict permissionId).or
        (if Defined table permissionId then
          (rows.find? fun row => (ofLex row.1).1 = permissionId).map Prod.snd
        else none) := by
  induction rows with
  | nil =>
    refine fun s => ⟨⟨rfl, rfl, rfl, id⟩, fun permissionId => ?_⟩
    rw [find?_nil, map_none, ite_self, or_none]
    rfl
  | cons row rest ih =>
    intro s
    obtain ⟨loaded, verdicts⟩ := ih (s.loadRow table row)
    rw [foldl_cons]
    refine ⟨Loaded.trans ?_ loaded, fun permissionId => ?_⟩
    · rw [loadRow_eq]
      exact loaded_assign
    rw [verdicts, loadRow_eq, verdict_assign, Option.or_assoc, find?_cons]
    congr 1
    by_cases here : (ofLex row.1).1 = permissionId
    · rw [decide_eq_true here, here]
      by_cases defined : Defined table permissionId
      · rw [if_pos ⟨rfl, defined⟩, if_pos defined, if_pos defined]
        rfl
      · rw [if_neg fun both => defined both.2, if_neg defined, if_neg defined]
        rfl
    · rw [decide_eq_false here, if_neg fun both => here both.1.symm]
      rfl

variable (table) in
theorem loadDefaults_spec (defaults : List Nat) : ∀ s : RBACData,
    let s' := defaults.foldl (fun s id => (s.grantPermission table id 0).2) s
    Loaded s s' ∧ ∀ permissionId, s'.verdict permissionId = (s.verdict permissionId).or
      (if Defined table permissionId ∧ permissionId ∈ defaults then some true else none) := by
  induction defaults with
  | nil =>
    refine fun s => ⟨⟨rfl, rfl, rfl, id⟩, fun permissionId => ?_⟩
    rw [if_neg fun both => not_mem_nil both.2, or_none]
    rfl
  | cons id rest ih =>
    intro s
    obtain ⟨loaded, verdicts⟩ := ih (s.assign table true id 0).2
    refine ⟨loaded_assign.trans loaded, fun permissionId => (verdicts permissionId).trans ?_⟩
    rw [verdict_assign, Option.or_assoc]
    congr 1
    by_cases here : permissionId = id
    · by_cases defined : Defined table permissionId
      · simp [here, here ▸ defined]
      · simp [here, here ▸ defined]
    · simp [here]

def firstRow (s : RBACData) (permissionId : Nat) : Option Bool :=
  (s.selected.find? fun row => (ofLex row.1).1 = permissionId).map Prod.snd

theorem verdict_loadFromDB (table : PermissionTable) (s : RBACData) (permissionId : Nat) :
    (s.loadFromDB table).verdict permissionId =
      if Defined table permissionId then
        (s.firstRow permissionId).or
          (if permissionId ∈ table.defaultPermissions s.secLevel then some true else none)
      else none := by
  obtain ⟨loadedRows, fromRows⟩ := loadRows_spec table s.selected s.clearData
  obtain ⟨-, fromDefaults⟩ := loadDefaults_spec table
    ((table.defaultPermissions s.secLevel).sort (· ≤ ·)) (s.selected.foldl (loadRow table) s.clearData)
  have cleared : s.clearData.verdict permissionId = none := rfl
  change RBACData.verdict (List.foldl _ _ _) permissionId = _
  rw [fromDefaults, fromRows, cleared, none_or]
  by_cases defined : Defined table permissionId
  · simp [defined, firstRow]
  · rw [if_neg defined, if_neg defined, if_neg fun both => defined both.1]
    rfl

theorem loaded_loadFromDB (table : PermissionTable) (s : RBACData) :
    (s.loadFromDB table).rows = s.rows ∧ (s.loadFromDB table).realmId = s.realmId ∧
      (s.loadFromDB table).secLevel = s.secLevel ∧ (s.loadFromDB table).Apart := by
  obtain ⟨loadedRows, -⟩ := loadRows_spec table s.selected s.clearData
  obtain ⟨loadedDefaults, -⟩ := loadDefaults_spec table
    ((table.defaultPermissions s.secLevel).sort (· ≤ ·)) (s.selected.foldl (loadRow table) s.clearData)
  obtain ⟨rows, realmId, secLevel, apart⟩ := loadedRows.trans loadedDefaults
  exact ⟨rows, realmId, secLevel, apart (Finset.disjoint_empty_left _)⟩

theorem verdict_loadFromDB_congr {s' : RBACData} (rows : s'.rows = s.rows)
    (realmId : s'.realmId = s.realmId) (secLevel : s'.secLevel = s.secLevel) :
    (s'.loadFromDB table).verdict permissionId = (s.loadFromDB table).verdict permissionId := by
  rw [verdict_loadFromDB, verdict_loadFromDB, firstRow, firstRow, selected, selected, rows, realmId,
    secLevel]

def isRowOf (s : RBACData) (permissionId : Nat) (row : (Nat ×ₗ Int) × Bool) : Bool :=
  ((ofLex row.1).2 = s.realmId ∨ (ofLex row.1).2 = -1) ∧ (ofLex row.1).1 = permissionId

theorem firstRow_eq (s : RBACData) (permissionId : Nat) :
    s.firstRow permissionId = (s.rows.toList.find? (s.isRowOf permissionId)).map Prod.snd := by
  rw [firstRow, selected, find?_filter]
  congr 2
  funext row
  simp [isRowOf]

theorem firstRow_eq_none : s.firstRow permissionId = none ↔
    ∀ granted, (toLex (permissionId, s.realmId), granted) ∉ s.rows ∧
      (toLex (permissionId, -1), granted) ∉ s.rows := by
  rw [firstRow_eq, map_eq_none_iff, find?_eq_none]
  constructor
  · intro unkind granted
    refine ⟨fun member => unkind _ member ?_, fun member => unkind _ member ?_⟩
    · simp [isRowOf]
    · simp [isRowOf]
  · rintro absent ⟨key, granted⟩ member isRow
    obtain ⟨permission, realm⟩ := key
    rw [isRowOf, decide_eq_true_eq] at isRow
    obtain ⟨either, same⟩ := isRow
    obtain ⟨notOwn, notAll⟩ := absent granted
    rcases either with own | all
    · exact notOwn (by
        rw [← own, ← same]
        exact member)
    · exact notAll (by
        rw [← all, ← same]
        exact member)

theorem isRowOf_other {other : Nat} (apart : other ≠ permissionId) (granted : Bool) :
    s.isRowOf other (toLex (permissionId, realmId), granted) = false := by
  simp [isRowOf, Ne.symm apart]

theorem firstRow_saved {s' : RBACData} {other : Nat} (realm : realmId = s.realmId ∨ realmId = -1)
    (sameRealm : s'.realmId = s.realmId)
    (rows : s'.rows = s.rows.insert (toLex (permissionId, realmId)) granted)
    (noRow : s.firstRow permissionId = none) :
    s'.firstRow other = if other = permissionId then some granted else s.firstRow other := by
  have sameKind : s'.isRowOf other = s.isRowOf other := by
    funext row
    rw [isRowOf, isRowOf, sameRealm]
  rw [firstRow_eq, rows, sameKind]
  split
  · rename_i here
    rw [firstRow_eq, map_eq_none_iff] at noRow
    have isRow : s.isRowOf permissionId (toLex (permissionId, realmId), granted) = true := by
      rw [isRowOf, decide_eq_true_eq]
      exact ⟨realm, rfl⟩
    rw [here, OrdMap.first_insert isRow noRow]
    rfl
  · rename_i other
    rw [OrdMap.first_insert_of_not (isRowOf_other other), firstRow_eq]

theorem firstRow_deleted {s' : RBACData} {other : Nat} (sameRealm : s'.realmId = s.realmId)
    (rows : s'.rows = (s.rows.erase (toLex (permissionId, realmId))).erase (toLex (permissionId, -1)))
    (apart : other ≠ permissionId) : s'.firstRow other = s.firstRow other := by
  have sameKind : s'.isRowOf other = s.isRowOf other := by
    funext row
    rw [isRowOf, isRowOf, sameRealm]
  rw [firstRow_eq, rows, sameKind, OrdMap.first_erase_of_not (isRowOf_other apart),
    OrdMap.first_erase_of_not (isRowOf_other apart), firstRow_eq]

/-! ## Every run of commands -/

/-- **The sets are what a relogin gives**, and the permissions are calculated from them. -/
structure Consistent (table : PermissionTable) (s : RBACData) : Prop where
  apart : Disjoint s.grantedPerms s.deniedPerms
  calculated : s.globalPerms = (s.calculateNewPermissions table).globalPerms
  granted : (s.loadFromDB table).grantedPerms = s.grantedPerms
  denied : (s.loadFromDB table).deniedPerms = s.deniedPerms

/-- A command lasts: it is saved, and what it revokes is neither granted by default nor in a row that
stays. -/
def Lasting (table : PermissionTable) (s : RBACData) : Command → Prop
  | .grant permissionId own | .deny permissionId own =>
    Defined table permissionId → permissionId ∉ s.grantedPerms → permissionId ∉ s.deniedPerms →
      s.realmOf own ≠ 0
  | .revoke permissionId own =>
    permissionId ∈ s.grantedPerms ∨ permissionId ∈ s.deniedPerms →
      s.realmOf own ≠ 0 ∧ permissionId ∉ table.defaultPermissions s.secLevel ∧
        (s.realmOf own = s.realmId ∨
          ∀ granted, (toLex (permissionId, s.realmId), granted) ∉ s.rows)

/-- A command that fails changes nothing. -/
def Harmless (table : PermissionTable) (s : RBACData) (command : Command) : Prop :=
  (s.perform table command).1 ≠ .ok → s.step table command = s

theorem harmless (table : PermissionTable) (s : RBACData) (command : Command) :
    Harmless table s command := by
  intro failed
  cases command with
  | grant permissionId own =>
    rcases assign_cases table s true permissionId (s.realmOf own) with ⟨-, same, -⟩ | ⟨done, -⟩
    · exact same
    · exact absurd done failed
  | deny permissionId own =>
    rcases assign_cases table s false permissionId (s.realmOf own) with ⟨-, same, -⟩ | ⟨done, -⟩
    · exact same
    · exact absurd done failed
  | revoke permissionId own =>
    rcases revoke_cases table s permissionId (s.realmOf own) with ⟨-, same, -⟩ | ⟨done, -⟩
    · exact same
    · exact absurd done failed

theorem Consistent.verdict (consistent : Consistent table s) (permissionId : Nat) :
    (s.loadFromDB table).verdict permissionId = s.verdict permissionId := by
  rw [RBACData.verdict, RBACData.verdict, consistent.granted, consistent.denied]

theorem consistent_of_verdict (apart : s.Apart)
    (calculated : s.globalPerms = (s.calculateNewPermissions table).globalPerms)
    (same : ∀ permissionId, (s.loadFromDB table).verdict permissionId = s.verdict permissionId) :
    Consistent table s := by
  obtain ⟨-, -, -, apart'⟩ := loaded_loadFromDB table s
  obtain ⟨granted, denied⟩ := sets_eq apart apart' same
  exact ⟨apart, calculated, granted, denied⟩

theorem consistent_loadFromDB (table : PermissionTable) (s : RBACData) :
    Consistent table (s.loadFromDB table) := by
  obtain ⟨rows, realmId, secLevel, apart⟩ := loaded_loadFromDB table s
  exact consistent_of_verdict apart rfl fun permissionId =>
    verdict_loadFromDB_congr rows realmId secLevel

theorem realmOf_cases (s : RBACData) (own : Bool) :
    s.realmOf own = s.realmId ∨ s.realmOf own = -1 := by
  cases own with
  | true => exact Or.inl rfl
  | false => exact Or.inr rfl

theorem Consistent.noRow (consistent : Consistent table s) (defined : Defined table permissionId)
    (undecided : s.verdict permissionId = none) : s.firstRow permissionId = none := by
  rw [← consistent.verdict, verdict_loadFromDB, if_pos defined, or_eq_none_iff] at undecided
  exact undecided.1

theorem Consistent.defined (consistent : Consistent table s)
    (decided : s.verdict permissionId ≠ none) : Defined table permissionId := by
  by_contra undefined
  rw [← consistent.verdict, verdict_loadFromDB, if_neg undefined] at decided
  exact decided rfl

theorem Consistent.assign (consistent : Consistent table s)
    (realm : realmId = s.realmId ∨ realmId = -1)
    (saved : Defined table permissionId → permissionId ∉ s.grantedPerms →
      permissionId ∉ s.deniedPerms → realmId ≠ 0) :
    Consistent table (s.assign table granted permissionId realmId).2 := by
  have apart : (s.assign table granted permissionId realmId).2.Apart := apart_assign consistent.apart
  rcases assign_cases table s granted permissionId realmId with
    ⟨-, same, -⟩ | ⟨-, defined, undecided, result⟩
  · rw [same]
    exact consistent
  obtain ⟨notGranted, notDenied⟩ := verdict_eq_none.mp undecided
  have noRow := consistent.noRow defined undecided
  rw [if_pos (saved defined notGranted notDenied)] at result
  have fields : (s.assign table granted permissionId realmId).2.realmId = s.realmId ∧
      (s.assign table granted permissionId realmId).2.secLevel = s.secLevel ∧
      (s.assign table granted permissionId realmId).2.rows =
        s.rows.insert (toLex (permissionId, realmId)) granted := by
    rw [result]
    cases granted with
    | true => exact ⟨rfl, rfl, rfl⟩
    | false => exact ⟨rfl, rfl, rfl⟩
  obtain ⟨sameRealm, sameLevel, rows⟩ := fields
  refine consistent_of_verdict apart ?_ fun other => ?_
  · rw [result]
    rfl
  rw [verdict_assign, verdict_loadFromDB, firstRow_saved realm sameRealm rows noRow, sameLevel]
  by_cases here : other = permissionId
  · have both : permissionId = permissionId ∧ Defined table permissionId := ⟨rfl, defined⟩
    rw [here, if_pos defined, if_pos rfl, undecided, if_pos both]
    rfl
  · have neither : ¬ (other = permissionId ∧ Defined table permissionId) := fun both => here both.1
    rw [if_neg here, if_neg neither, or_none, ← consistent.verdict, verdict_loadFromDB]

/-- What `RevokePermission` leaves of the fields, when it does something -/
theorem revoked_fields {s' : RBACData} (saved : realmId ≠ 0) (result : s' =
      let t := { s with
        grantedPerms := s.grantedPerms.erase permissionId
        deniedPerms := s.deniedPerms.erase permissionId }
      if realmId ≠ 0 then
        ({ t with
          rows := (s.rows.erase (toLex (permissionId, realmId))).erase
            (toLex (permissionId, -1)) } : RBACData).calculateNewPermissions table
      else t) :
    s'.realmId = s.realmId ∧ s'.secLevel = s.secLevel ∧
      s'.rows = (s.rows.erase (toLex (permissionId, realmId))).erase (toLex (permissionId, -1)) ∧
      s'.globalPerms = (s'.calculateNewPermissions table).globalPerms := by
  rw [if_pos saved] at result
  rw [result]
  exact ⟨rfl, rfl, rfl, rfl⟩

section

variable (consistent : Consistent table s)

include consistent

theorem Consistent.revoke (lasting : permissionId ∈ s.grantedPerms ∨ permissionId ∈ s.deniedPerms →
      realmId ≠ 0 ∧ permissionId ∉ table.defaultPermissions s.secLevel ∧
        (realmId = s.realmId ∨ ∀ granted, (toLex (permissionId, s.realmId), granted) ∉ s.rows)) :
    Consistent table (s.revokePermission table permissionId realmId).2 := by
  have apart : (s.revokePermission table permissionId realmId).2.Apart :=
    apart_revokePermission consistent.apart
  rcases revoke_cases table s permissionId realmId with ⟨-, same, -⟩ | ⟨-, decided, result⟩
  · rw [same]
    exact consistent
  have listed : permissionId ∈ s.grantedPerms ∨ permissionId ∈ s.deniedPerms := by
    by_contra neither
    exact decided (verdict_eq_none.mpr (not_or.mp neither))
  obtain ⟨saved, noDefault, noRow⟩ := lasting listed
  obtain ⟨sameRealm, sameLevel, rows, calculated⟩ := revoked_fields saved result
  refine consistent_of_verdict apart calculated fun other => ?_
  rw [verdict_revokePermission, verdict_loadFromDB, sameLevel]
  by_cases here : other = permissionId
  · have gone : (s.revokePermission table permissionId realmId).2.firstRow permissionId = none := by
      refine firstRow_eq_none.mpr fun granted => ?_
      rw [rows, sameRealm, OrdMap.mem_erase, OrdMap.mem_erase, OrdMap.mem_erase]
      refine ⟨fun stays => ?_, fun stays => stays.2 rfl⟩
      rcases noRow with same | absent
      · exact stays.1.2 (by rw [same])
      · exact absent granted stays.1.1
    rw [here, gone, if_neg noDefault, if_pos rfl]
    exact ite_self _
  · rw [firstRow_deleted sameRealm rows here, if_neg here, ← consistent.verdict, verdict_loadFromDB]

theorem Consistent.step {command : Command} (lasting : Lasting table s command) : Consistent table (s.step table command) := by
  cases command with
  | grant permissionId own =>
    have granted : Consistent table (s.assign table true permissionId (s.realmOf own)).2 :=
      consistent.assign (s.realmOf_cases own) lasting
    exact granted
  | deny permissionId own =>
    have denied : Consistent table (s.assign table false permissionId (s.realmOf own)).2 :=
      consistent.assign (s.realmOf_cases own) lasting
    exact denied
  | revoke permissionId own => exact consistent.revoke lasting

/-- What is granted or denied with no realm is forgotten. -/
theorem not_consistent_of_unsaved (defined : Defined table permissionId) (undecided : s.verdict permissionId = none) :
    ¬ Consistent table (s.assign table granted permissionId 0).2 := by
  intro consistent'
  obtain ⟨rows, realmId, secLevel, -⟩ : Loaded s (s.assign table granted permissionId 0).2 :=
    loaded_assign
  have before := consistent.verdict permissionId
  rw [← verdict_loadFromDB_congr rows realmId secLevel, consistent'.verdict, verdict_assign,
    undecided, if_pos ⟨rfl, defined⟩] at before
  cases before

theorem not_consistent_of_revoke (realm : realmId = s.realmId ∨ realmId = -1)
    (listed : permissionId ∈ s.grantedPerms ∨ permissionId ∈ s.deniedPerms)
    (undone : ¬ (realmId ≠ 0 ∧ permissionId ∉ table.defaultPermissions s.secLevel ∧
      (realmId = s.realmId ∨ ∀ granted, (toLex (permissionId, s.realmId), granted) ∉ s.rows))) :
    ¬ Consistent table (s.revokePermission table permissionId realmId).2 := by
  intro consistent'
  have decided : s.verdict permissionId ≠ none := by
    intro undecided
    obtain ⟨notGranted, notDenied⟩ := verdict_eq_none.mp undecided
    exact listed.elim notGranted notDenied
  have defined := consistent.defined decided
  have forgotten := consistent'.verdict permissionId
  rw [verdict_revokePermission, if_pos rfl] at forgotten
  rcases revoke_cases table s permissionId realmId with ⟨-, -, undecided⟩ | ⟨-, -, result⟩
  · exact decided undecided
  by_cases saved : realmId = 0
  · have fields : (s.revokePermission table permissionId realmId).2.rows = s.rows ∧
        (s.revokePermission table permissionId realmId).2.realmId = s.realmId ∧
        (s.revokePermission table permissionId realmId).2.secLevel = s.secLevel := by
      rw [if_neg (not_not_intro saved)] at result
      rw [result]
      exact ⟨rfl, rfl, rfl⟩
    obtain ⟨rows, sameRealm, sameLevel⟩ := fields
    rw [verdict_loadFromDB_congr rows sameRealm sameLevel, consistent.verdict] at forgotten
    exact decided forgotten
  · obtain ⟨sameRealm, sameLevel, rows, -⟩ := revoked_fields saved result
    rw [verdict_loadFromDB, if_pos defined, sameLevel, or_eq_none_iff] at forgotten
    obtain ⟨noRow, noDefault⟩ := forgotten
    have notDefault : permissionId ∉ table.defaultPermissions s.secLevel := by
      intro isDefault
      rw [if_pos isDefault] at noDefault
      cases noDefault
    refine undone ⟨saved, notDefault, ?_⟩
    by_cases own : realmId = s.realmId
    · exact Or.inl own
    refine Or.inr fun granted member => (firstRow_eq_none.mp noRow granted).1 ?_
    have all : realmId = -1 := realm.resolve_left own
    have notAll : s.realmId ≠ -1 := fun same => own (all.trans same.symm)
    rw [rows, sameRealm, OrdMap.mem_erase, OrdMap.mem_erase]
    refine ⟨⟨member, fun same => own ?_⟩, fun same => notAll ?_⟩
    · exact (congrArg (fun key => (ofLex key).2) same).symm
    · exact congrArg (fun key => (ofLex key).2) same

theorem not_consistent_step {command : Command} (undone : ¬ Lasting table s command) : ¬ Consistent table (s.step table command) := by
  have unsaved : ∀ permissionId own granted, ¬ (Defined table permissionId →
      permissionId ∉ s.grantedPerms → permissionId ∉ s.deniedPerms → s.realmOf own ≠ 0) →
      ¬ Consistent table (s.assign table granted permissionId (s.realmOf own)).2 := by
    intro permissionId own granted unsaved
    push Not at unsaved
    obtain ⟨defined, notGranted, notDenied, noRealm⟩ := unsaved
    rw [noRealm]
    exact not_consistent_of_unsaved consistent defined (verdict_eq_none.mpr ⟨notGranted, notDenied⟩)
  cases command with
  | grant permissionId own => exact unsaved permissionId own true undone
  | deny permissionId own => exact unsaved permissionId own false undone
  | revoke permissionId own =>
    rw [Lasting, Classical.not_imp] at undone
    exact not_consistent_of_revoke consistent (s.realmOf_cases own) undone.1 undone.2

end

/-- **Commands mean the same after a relogin** in just those runs in which every command lasts. -/
theorem consistent_run_iff (table : PermissionTable) (s : RBACData) (commands : List Command) :
    (Machine.Throughout (step table) (Consistent table) (s.loadFromDB table) commands ∧
      Machine.EachStep (step table) (Harmless table) (s.loadFromDB table) commands) ↔
    Machine.EachStep (step table) (Lasting table) (s.loadFromDB table) commands := by
  have exactly : Machine.Throughout (step table) (Consistent table) (s.loadFromDB table) commands ↔ _ :=
    Machine.throughout_iff_eachStep (consistent_loadFromDB table s) (fun _ => id)
      (fun _ _ consistent lasting => consistent.step lasting)
      fun _ _ consistent undone => not_consistent_step consistent undone
  have always : Machine.EachStep (step table) (Harmless table) (s.loadFromDB table) commands :=
    Machine.EachStep.of_forall (harmless table) _ _
  exact ⟨fun both => exactly.mp both.1, fun lasting => ⟨exactly.mpr lasting, always⟩⟩

/-- The permission 1, granted in the realm of the server, is revoked for all realms. -/
theorem revoked_comes_back : ¬ ∀ (table : PermissionTable) (s : RBACData) (commands : List Command),
    Machine.Throughout (step table) (Consistent table) (s.loadFromDB table) commands ∧
      Machine.EachStep (step table) (Harmless table) (s.loadFromDB table) commands := by
  intro always
  let table : PermissionTable := ⟨⟨[(1, ∅)], pairwise_singleton _ _⟩, fun _ => ∅⟩
  let s : RBACData := ⟨1, 0, ∅, ∅, ∅, ⟨[(toLex (1, 1), true)], pairwise_singleton _ _⟩⟩
  obtain ⟨rows, realmId, -⟩ := loaded_loadFromDB table s
  have isRow : (toLex (1, (s.loadFromDB table).realmId), true) ∈ (s.loadFromDB table).rows := by
    rw [rows, realmId]
    exact mem_cons_self
  have granted : 1 ∈ (s.loadFromDB table).grantedPerms := by
    refine verdict_eq_true.mp ?_
    rw [verdict_loadFromDB]
    decide
  refine not_consistent_of_revoke (consistent_loadFromDB table s) (Or.inr rfl) (Or.inl granted) ?_
    (always table s [.revoke 1 false]).1.last
  rintro ⟨-, -, isOwn | noRow⟩
  · rw [realmId] at isOwn
    exact absurd isOwn (by decide)
  · exact noRow true isRow

end RBACData

end Sky548
