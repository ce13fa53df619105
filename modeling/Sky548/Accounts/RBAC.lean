import Mathlib.Data.Finset.Sort
import Mathlib.Data.Prod.Lex
import Sky548.OrdMap

/-!
# Permissions of an account

The permissions that are defined, each with those it is linked to, the default ones of each security
level, and the data of one account with its rows in the database, by permission and realm.
-/

namespace Sky548

open Finset

inductive RBACCommandResult
  | ok
  | cantAddAlreadyAdded
  | cantRevokeNotInList
  | inGrantedList
  | inDeniedList
  | idDoesNotExists
  deriving DecidableEq

structure PermissionTable where
  permissions : OrdMap Nat (Finset Nat)
  defaultPermissions : Nat → Finset Nat

namespace PermissionTable

variable (table : PermissionTable)

def getRBACPermission (permissionId : Nat) : Option (Finset Nat) :=
  table.permissions.find? permissionId

def ids : Finset Nat := table.permissions.keys.toFinset

theorem mem_ids_of_some {permissionId : Nat} {linkedPerms : Finset Nat}
    (found : table.getRBACPermission permissionId = some linkedPerms) : permissionId ∈ table.ids :=
  List.mem_toFinset.mpr (OrdMap.mem_keys_iff.mpr ⟨linkedPerms, OrdMap.find?_eq_some_iff.mp found⟩)

/-- The loop of `ExpandPermissions`. What is to be checked is never expanded already. -/
def expandLoop (toCheck permissions : Finset Nat) (apart : Disjoint toCheck permissions) :
    Finset Nat :=
  if nonempty : toCheck.Nonempty then
    let permissionId := toCheck.min' nonempty
    match found : table.getRBACPermission permissionId with
    | none =>
      expandLoop (toCheck.erase permissionId) permissions (apart.mono_left (erase_subset _ _))
    | some linkedPerms =>
      let permissions' := insert permissionId permissions
      expandLoop (toCheck.erase permissionId ∪ linkedPerms.filter fun id => id ∉ permissions')
        permissions' (by
          refine disjoint_left.mpr fun id inCheck expanded => ?_
          rcases mem_union.mp inCheck with still | linked
          · obtain ⟨other, inCheck⟩ := mem_erase.mp still
            rcases mem_insert.mp expanded with same | before
            · exact other same
            · exact disjoint_left.mp apart inCheck before
          · exact (mem_filter.mp linked).2 expanded)
  else permissions
termination_by ((table.ids \ permissions).card, toCheck.card)
decreasing_by
  · exact Prod.Lex.right _ (card_erase_lt_of_mem (min'_mem _ _))
  · refine Prod.Lex.left _ _ (card_lt_card ⟨?_, fun all => ?_⟩)
    · exact sdiff_subset_sdiff (Finset.Subset.refl _) (subset_insert _ _)
    · have isNew : permissionId ∈ table.ids \ permissions := mem_sdiff.mpr
        ⟨table.mem_ids_of_some found, disjoint_left.mp apart (min'_mem _ _)⟩
      exact (mem_sdiff.mp (all isNew)).2 (mem_insert_self _ _)

def expandPermissions (permissions : Finset Nat) : Finset Nat :=
  table.expandLoop permissions ∅ (disjoint_empty_right _)

end PermissionTable

/-- The permissions of an account, and its rows, by permission and realm, with whether the permission
is granted -/
structure RBACData where
  realmId : Int
  secLevel : Nat
  grantedPerms : Finset Nat
  deniedPerms : Finset Nat
  globalPerms : Finset Nat
  rows : OrdMap (Nat ×ₗ Int) Bool

def removePermissions (permsFrom permsTo : Finset Nat) : Finset Nat := permsTo \ permsFrom

namespace RBACData

variable (table : PermissionTable) (s : RBACData) (permissionId : Nat) (realmId : Int)

def calculateNewPermissions : RBACData :=
  let globalPerms := table.expandPermissions s.grantedPerms
  let revoked := table.expandPermissions s.deniedPerms
  let _revoked := removePermissions globalPerms revoked
  { s with globalPerms := globalPerms }

def savePermission (granted : Bool) : RBACData :=
  { s with rows := s.rows.insert (toLex (permissionId, realmId)) granted }

def grantPermission : RBACCommandResult × RBACData :=
  if table.getRBACPermission permissionId = none then (.idDoesNotExists, s)
  else if permissionId ∈ s.deniedPerms then (.inDeniedList, s)
  else if permissionId ∈ s.grantedPerms then (.cantAddAlreadyAdded, s)
  else
    let s := { s with grantedPerms := insert permissionId s.grantedPerms }
    if realmId ≠ 0 then
      (.ok, (s.savePermission permissionId realmId true).calculateNewPermissions table)
    else (.ok, s)

def denyPermission : RBACCommandResult × RBACData :=
  if table.getRBACPermission permissionId = none then (.idDoesNotExists, s)
  else if permissionId ∈ s.grantedPerms then (.inGrantedList, s)
  else if permissionId ∈ s.deniedPerms then (.cantAddAlreadyAdded, s)
  else
    let s := { s with deniedPerms := insert permissionId s.deniedPerms }
    if realmId ≠ 0 then
      (.ok, (s.savePermission permissionId realmId false).calculateNewPermissions table)
    else (.ok, s)

/-- `RevokePermission`, which deletes the row of that realm and the one of all realms -/
def revokePermission : RBACCommandResult × RBACData :=
  if permissionId ∉ s.grantedPerms ∧ permissionId ∉ s.deniedPerms then (.cantRevokeNotInList, s)
  else
    let s := { s with
      grantedPerms := s.grantedPerms.erase permissionId
      deniedPerms := s.deniedPerms.erase permissionId }
    if realmId ≠ 0 then
      let s := { s with
        rows := (s.rows.erase (toLex (permissionId, realmId))).erase (toLex (permissionId, -1)) }
      (.ok, s.calculateNewPermissions table)
    else (.ok, s)

/-- The rows that are selected for the realm of the server, by permission and realm -/
def selected : List ((Nat ×ₗ Int) × Bool) :=
  s.rows.toList.filter fun row =>
    (ofLex row.1).2 = s.realmId ∨ (ofLex row.1).2 = -1

def loadRow (row : (Nat ×ₗ Int) × Bool) : RBACData :=
  if row.2 then (s.grantPermission table (ofLex row.1).1 0).2
  else (s.denyPermission table (ofLex row.1).1 0).2

def clearData : RBACData :=
  { s with
    grantedPerms := ∅
    deniedPerms := ∅
    globalPerms := ∅ }

def loadFromDB : RBACData :=
  let s' := s.selected.foldl (loadRow table) s.clearData
  let s' := ((table.defaultPermissions s.secLevel).sort (· ≤ ·)).foldl
    (fun s permissionId => (s.grantPermission table permissionId 0).2) s'
  s'.calculateNewPermissions table

inductive Command
  | grant (permissionId : Nat) (own : Bool)
  | deny (permissionId : Nat) (own : Bool)
  | revoke (permissionId : Nat) (own : Bool)

/-- The realm id that a command is given -/
def realmOf (own : Bool) : Int := if own then s.realmId else -1

def perform : Command → RBACCommandResult × RBACData
  | .grant permissionId own => s.grantPermission table permissionId (s.realmOf own)
  | .deny permissionId own => s.denyPermission table permissionId (s.realmOf own)
  | .revoke permissionId own => s.revokePermission table permissionId (s.realmOf own)

def step (command : Command) : RBACData := (s.perform table command).2

end RBACData

end Sky548
