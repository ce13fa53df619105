import Mathlib.Order.CompletePartialOrder
import Sky548.Accounts.RBAC

/-!
# The permissions that others bring with them

`ExpandPermissions` is a worklist that makes of some permissions their closure under the links
(`mem_expandPermissions`). `CalculateNewPermissions` then removes what is granted from what is denied,
so that the permissions of the account stay those that are granted.
-/

namespace Sky548

open Finset

namespace PermissionTable

variable (table : PermissionTable)

/-- The permissions that are reached from some by links to permissions that exist. -/
inductive Reaches (start : Finset Nat) : Nat → Prop
  | start {permissionId : Nat} : permissionId ∈ start → Reaches start permissionId
  | link {permissionId linked : Nat} {linkedPerms : Finset Nat} : Reaches start permissionId →
      table.getRBACPermission permissionId = some linkedPerms → linked ∈ linkedPerms →
        table.getRBACPermission linked ≠ none → Reaches start linked

def closure (start : Finset Nat) : Set Nat := {permissionId | table.Reaches start permissionId}

variable {table} {toCheck permissions : Finset Nat}

theorem expandLoop_skip (apart : Disjoint toCheck permissions) (nonempty : toCheck.Nonempty)
    (notFound : table.getRBACPermission (toCheck.min' nonempty) = none) :
    table.expandLoop toCheck permissions apart =
      table.expandLoop (toCheck.erase (toCheck.min' nonempty)) permissions
        (apart.mono_left (erase_subset _ _)) := by
  rw [expandLoop, dif_pos nonempty]
  dsimp only
  split
  · rfl
  · rename_i linkedPerms isSome
    rw [notFound] at isSome
    cases isSome

theorem expandLoop_visit (apart : Disjoint toCheck permissions) (nonempty : toCheck.Nonempty)
    {linkedPerms : Finset Nat}
    (isSome : table.getRBACPermission (toCheck.min' nonempty) = some linkedPerms) :
    ∃ apart', table.expandLoop toCheck permissions apart = table.expandLoop
      (toCheck.erase (toCheck.min' nonempty) ∪ linkedPerms.filter fun id =>
        id ∉ insert (toCheck.min' nonempty) permissions)
      (insert (toCheck.min' nonempty) permissions) apart' := by
  rw [expandLoop, dif_pos nonempty]
  dsimp only
  split
  · rename_i notFound
    rw [notFound] at isSome
    cases isSome
  rename_i linkedPerms' isSome'
  obtain rfl : linkedPerms' = linkedPerms := Option.some.inj (isSome'.symm.trans isSome)
  generalize_proofs apart'
  exact ⟨apart', rfl⟩

/-- **What the worklist finds** has every property that its permissions have and that the links
keep. -/
theorem expandLoop_induction {P : Nat → Prop} (apart : Disjoint toCheck permissions)
    (found : ∀ id ∈ permissions, P id)
    (known : ∀ id ∈ toCheck, table.getRBACPermission id ≠ none → P id)
    (keep : ∀ id linkedPerms linked, P id → table.getRBACPermission id = some linkedPerms →
      linked ∈ linkedPerms → table.getRBACPermission linked ≠ none → P linked) :
    ∀ id ∈ table.expandLoop toCheck permissions apart, P id := by
  induction toCheck, permissions, apart using expandLoop.induct table with
  | case1 toCheck permissions apart nonempty permissionId notFound ih =>
    rw [expandLoop_skip apart nonempty notFound]
    exact ih found fun id member => known id (mem_of_mem_erase member)
  | case2 toCheck permissions apart nonempty permissionId linkedPerms isSome permissions' ih =>
    obtain ⟨apart', turn⟩ := expandLoop_visit apart nonempty isSome
    have here : P permissionId :=
      known _ (min'_mem _ _) (by rw [isSome]; exact Option.some_ne_none _)
    rw [turn]
    refine ih (fun id member => ?_) fun id member there => ?_
    · rcases mem_insert.mp member with rfl | before
      · exact here
      · exact found id before
    · rcases mem_union.mp member with still | linked
      · exact known id (mem_of_mem_erase still) there
      · exact keep _ _ id here isSome (mem_filter.mp linked).1 there
  | case3 toCheck permissions apart empty =>
    rw [expandLoop, dif_neg empty]
    exact found

/-- Nothing that is linked from what is found is forgotten. -/
def Linked (table : PermissionTable) (toCheck permissions : Finset Nat) : Prop :=
  ∀ id ∈ permissions, ∀ linkedPerms, table.getRBACPermission id = some linkedPerms →
    ∀ linked ∈ linkedPerms, table.getRBACPermission linked ≠ none →
      linked ∈ permissions ∨ linked ∈ toCheck

/-- **The worklist forgets nothing**: what it found, what it had to check and what they link to. -/
theorem expandLoop_complete (apart : Disjoint toCheck permissions)
    (linked : table.Linked toCheck permissions) :
    permissions ⊆ table.expandLoop toCheck permissions apart ∧
      (∀ id ∈ toCheck, table.getRBACPermission id ≠ none →
        id ∈ table.expandLoop toCheck permissions apart) ∧
      table.Linked ∅ (table.expandLoop toCheck permissions apart) := by
  induction toCheck, permissions, apart using expandLoop.induct table with
  | case1 toCheck permissions apart nonempty permissionId notFound ih =>
    have still : table.Linked (toCheck.erase permissionId) permissions := by
      intro id member linkedPerms isSome other isLinked there
      rcases linked id member linkedPerms isSome other isLinked there with found | inCheck
      · exact Or.inl found
      · refine Or.inr (mem_erase.mpr ⟨?_, inCheck⟩)
        rintro rfl
        exact there notFound
    obtain ⟨kept, checked, later⟩ := ih still
    rw [expandLoop_skip apart nonempty notFound]
    refine ⟨kept, fun id member there => checked id (mem_erase.mpr ⟨?_, member⟩) there, later⟩
    rintro rfl
    exact there notFound
  | case2 toCheck permissions apart nonempty permissionId linkedPerms isSome permissions' ih =>
    obtain ⟨apart', turn⟩ := expandLoop_visit apart nonempty isSome
    -- what is linked now is found, or it is put on the list
    have listed : ∀ other, other ∈ permissions' ∨ other ∈ toCheck ∨ other ∈ linkedPerms →
        other ∈ permissions' ∨
          other ∈ toCheck.erase permissionId ∪ linkedPerms.filter fun id => id ∉ permissions' := by
      intro other either
      by_cases found : other ∈ permissions'
      · exact Or.inl found
      refine Or.inr (mem_union.mpr ?_)
      rcases either with isFound | inCheck | isLinked
      · exact absurd isFound found
      · refine Or.inl (mem_erase.mpr ⟨?_, inCheck⟩)
        rintro rfl
        exact found (mem_insert_self _ _)
      · exact Or.inr (mem_filter.mpr ⟨isLinked, found⟩)
    have still : table.Linked (toCheck.erase permissionId ∪
        linkedPerms.filter fun id => id ∉ permissions') permissions' := by
      intro id member perms isPerms other isLinked there
      refine listed other ?_
      rcases mem_insert.mp member with rfl | before
      · rw [isSome] at isPerms
        cases isPerms
        exact Or.inr (Or.inr isLinked)
      · rcases linked id before perms isPerms other isLinked there with found | inCheck
        · exact Or.inl (mem_insert_of_mem found)
        · exact Or.inr (Or.inl inCheck)
    obtain ⟨kept, checked, later⟩ := ih still
    rw [turn]
    refine ⟨fun id member => kept (mem_insert_of_mem member), fun id member there => ?_, later⟩
    rcases listed id (Or.inr (Or.inl member)) with found | inCheck
    · exact kept found
    · exact checked id inCheck there
  | case3 toCheck permissions apart empty =>
    have none : toCheck = ∅ := not_nonempty_iff_eq_empty.mp empty
    subst none
    rw [expandLoop, dif_neg empty]
    exact ⟨Finset.Subset.refl _, fun id member => absurd member (notMem_empty id), linked⟩

theorem coe_expandPermissions {start : Finset Nat} (known : start ⊆ table.ids) :
    (table.expandPermissions start : Set Nat) = table.closure start := by
  have there : ∀ id ∈ start, table.getRBACPermission id ≠ none := by
    intro id member
    obtain ⟨linkedPerms, isIn⟩ := OrdMap.mem_keys_iff.mp (List.mem_toFinset.mp (known member))
    rw [getRBACPermission, OrdMap.find?_eq_some_iff.mpr isIn]
    exact Option.some_ne_none _
  obtain ⟨-, checked, linked⟩ := @expandLoop_complete table start ∅ (disjoint_empty_right _)
    fun id member => absurd member (notMem_empty id)
  ext id
  constructor
  · refine expandLoop_induction _ (fun id member => absurd member (notMem_empty id))
      (fun id member _ => .start member) (fun _ _ _ reached isSome isLinked there =>
        .link reached isSome isLinked there) id
  intro reached
  induction reached with
  | start member => exact checked _ member (there _ member)
  | link _ isSome isLinked there ih =>
    rcases linked _ ih _ isSome _ isLinked there with found | inCheck
    · exact found
    · exact absurd inCheck (notMem_empty _)

end PermissionTable

namespace RBACData

open PermissionTable

/-- **The permissions of the account are those granted less those denied exactly when** none that is
granted, with what it brings, is denied. -/
theorem globalPerms_iff (table : PermissionTable) (s : RBACData)
    (known : s.grantedPerms ⊆ table.ids) :
    ((s.calculateNewPermissions table).globalPerms : Set Nat) =
        table.closure s.grantedPerms \ table.closure s.deniedPerms ↔
      Disjoint (table.closure s.grantedPerms) (table.closure s.deniedPerms) := by
  have global : ((s.calculateNewPermissions table).globalPerms : Set Nat) =
      table.closure s.grantedPerms := coe_expandPermissions known
  rw [global, eq_comm, sdiff_eq_left]

def twoPermissions : PermissionTable where
  permissions := (OrdMap.empty.insert 1 {2}).insert 2 ∅
  defaultPermissions := fun _ => ∅

def withFirst (deniedPerms : Finset Nat) : RBACData where
  realmId := 1
  secLevel := 0
  grantedPerms := {1}
  deniedPerms := deniedPerms
  globalPerms := ∅
  rows := OrdMap.empty

theorem globalPerms_withFirst :
    (((withFirst ∅).calculateNewPermissions twoPermissions).globalPerms : Set Nat) =
      twoPermissions.closure {1} \ twoPermissions.closure ∅ := by
  refine (globalPerms_iff twoPermissions (withFirst ∅) (by decide)).mpr ?_
  have nothing : ∀ id, ¬ twoPermissions.Reaches ∅ id := by
    intro id reached
    induction reached with
    | start member => exact notMem_empty _ member
    | link _ _ _ _ ih => exact ih
  exact Set.disjoint_left.mpr fun id _ reached => nothing id reached

/-- **The second is denied**, and the account has it all the same. -/
theorem not_globalPerms_denied :
    (((withFirst {2}).calculateNewPermissions twoPermissions).globalPerms : Set Nat) ≠
      twoPermissions.closure {1} \ twoPermissions.closure {2} := by
  intro same
  have global : (((withFirst {2}).calculateNewPermissions twoPermissions).globalPerms : Set Nat) =
      twoPermissions.closure {1} := coe_expandPermissions (by decide)
  have granted : 2 ∈ twoPermissions.closure {1} :=
    .link (.start (mem_singleton_self 1)) (show twoPermissions.getRBACPermission 1 = some {2} by decide)
      (mem_singleton_self 2) (by decide)
  have denied : 2 ∈ twoPermissions.closure {2} := .start (mem_singleton_self 2)
  rw [global] at same
  rw [same] at granted
  exact granted.2 denied

end RBACData

end Sky548
