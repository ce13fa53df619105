import Sky548.ObjectGuid
import Sky548.OrdMap

/-!
# Dungeon finder roles

The role masks of `LFG.h` and `LFGMgr::CheckGroupRoles`, which tries to leave every
player of a group with one role: it takes a role away from somebody who has asked
for several, starts over, and puts the role back if that leads nowhere. The roles
it ends with are roles that were asked for, one tank, one healer and three of
damage at most.
-/

namespace Sky548

open List OrdMap

def playerRoleNone : UInt8 := 0x00

def playerRoleLeader : UInt8 := 0x01

def playerRoleTank : UInt8 := 0x02

def playerRoleHealer : UInt8 := 0x04

def playerRoleDamage : UInt8 := 0x08

def lfgTanksNeeded : UInt8 := 1

def lfgHealersNeeded : UInt8 := 1

def lfgDpsNeeded : UInt8 := 3

abbrev LfgRolesMap := OrdMap UInt64 UInt8

namespace LfgRolesMap

/-- The block of one role in the loop of `CheckGroupRoles`: it goes on with a
count, or the function returns. -/
def tryRole (again : LfgRolesMap → Option LfgRolesMap) (groles : LfgRolesMap)
    (bit needed : UInt8) (e : UInt64 × UInt8) (count : UInt8) :
    Except (Option LfgRolesMap) UInt8 :=
  if e.2 &&& bit ≠ 0 then
    if e.2 ≠ bit then
      match again (groles.insert e.1 (e.2 - bit)) with
      | some found => .error (some found)
      -- the role is put back
      | none => .ok count
    else if count = needed then .error none
    else .ok (count + 1)
  else .ok count

/-- The loop over the players; `again` is the recursive call. -/
def scan (again : LfgRolesMap → Option LfgRolesMap) (groles : LfgRolesMap) :
    List (UInt64 × UInt8) → (damage healer tank : UInt8) → Option LfgRolesMap
  | [], damage, healer, tank =>
    if tank.toNat + healer.toNat + damage.toNat = (UInt8.ofNat groles.size).toNat then
      some groles
    else none
  | e :: rest, damage, healer, tank =>
    if e.2 = playerRoleNone then none
    else match tryRole again groles playerRoleDamage lfgDpsNeeded e damage with
      | .error result => result
      | .ok damage => match tryRole again groles playerRoleHealer lfgHealersNeeded e healer with
          | .error result => result
          | .ok healer => match tryRole again groles playerRoleTank lfgTanksNeeded e tank with
              | .error result => result
              | .ok tank => scan again groles rest damage healer tank

/-- `CheckGroupRoles(groles, false)`; the number bounds the nesting of the calls. -/
def checkRoles : Nat → LfgRolesMap → Option LfgRolesMap
  | 0, _ => none
  | n + 1, groles =>
    if groles.toList = [] then none else scan (checkRoles n) groles groles.toList 0 0 0

/-- The sum of the masks, which a call gets with one role less. -/
def weight (groles : LfgRolesMap) : Nat := (groles.toList.map fun e => e.2.toNat).sum

def removeLeader (groles : LfgRolesMap) : LfgRolesMap :=
  groles.mapVal fun _ role => role &&& ~~~ playerRoleLeader

/-- `CheckGroupRoles`: what it returns, and the map afterwards. -/
def checkGroupRoles (groles : LfgRolesMap) : Bool × LfgRolesMap :=
  match checkRoles (groles.removeLeader.weight + 1) groles.removeLeader with
  | some found => (true, found)
  | none => (false, groles.removeLeader)

/-- A single role of the three. -/
def IsRole (role : UInt8) : Prop :=
  role = playerRoleDamage ∨ role = playerRoleHealer ∨ role = playerRoleTank

theorem sub_role {role bit : UInt8} (isRole : IsRole bit) (has : role &&& bit ≠ 0) :
    (role - bit) &&& role = role - bit ∧ (role - bit).toNat < role.toNat := by
  have onBits : ∀ r : BitVec 8, (r &&& 8#8 ≠ 0#8 → (r - 8#8) &&& r = r - 8#8 ∧
      (r - 8#8).toNat < r.toNat) ∧ (r &&& 4#8 ≠ 0#8 → (r - 4#8) &&& r = r - 4#8 ∧
      (r - 4#8).toNat < r.toNat) ∧ (r &&& 2#8 ≠ 0#8 → (r - 2#8) &&& r = r - 2#8 ∧
      (r - 2#8).toNat < r.toNat) := by
    decide
  have lift : ∀ b : UInt8, role &&& b ≠ 0 → role.toBitVec &&& b.toBitVec ≠ 0#8 := by
    intro b has same
    exact has (UInt8.eq_of_toBitVec_eq same)
  obtain ⟨damage, healer, tank⟩ := onBits role.toBitVec
  rcases isRole with rfl | rfl | rfl
  · obtain ⟨sub, less⟩ := damage (lift _ has)
    exact ⟨UInt8.eq_of_toBitVec_eq sub, less⟩
  · obtain ⟨sub, less⟩ := healer (lift _ has)
    exact ⟨UInt8.eq_of_toBitVec_eq sub, less⟩
  · obtain ⟨sub, less⟩ := tank (lift _ has)
    exact ⟨UInt8.eq_of_toBitVec_eq sub, less⟩

variable {groles : LfgRolesMap}

theorem weight_insert {guid : UInt64} {role old : UInt8}
    (member : (guid, old) ∈ groles) (less : role.toNat < old.toNat) :
    weight (groles.insert guid role) < weight groles := by
  have general : ∀ l : List (UInt64 × UInt8), l.Pairwise (fun a b => a.1 < b.1) →
      (guid, old) ∈ l → ((OrdMap.insertList guid role l).map fun e => e.2.toNat).sum <
        (l.map fun e => e.2.toNat).sum := by
    intro l
    induction l with
    | nil =>
      intro _ impossible
      cases impossible
    | cons head rest ih =>
      intro sorted member
      obtain ⟨above, sortedRest⟩ := List.pairwise_cons.mp sorted
      unfold OrdMap.insertList
      rcases List.mem_cons.mp member with isHead | inRest
      · subst isHead
        rw [if_neg (lt_irrefl _), if_pos rfl, map_cons, map_cons, sum_cons, sum_cons]
        exact Nat.add_lt_add_right less _
      · have after := above _ inRest
        rw [if_neg (not_lt.mpr (le_of_lt after)), if_neg (ne_of_gt after), map_cons,
          map_cons, sum_cons, sum_cons]
        exact Nat.add_lt_add_left (ih sortedRest inRest) _
  exact general groles.toList groles.sorted member

/-! ## Soundness -/

/-- Every player of `queued` has one of the roles he asked for, within the needs of
a group. -/
structure Assigned (queued assigned : LfgRolesMap) : Prop where
  keys : assigned.keys = queued.keys
  role : ∀ guid role, (guid, role) ∈ assigned → IsRole role ∧
    ∃ asked, (guid, asked) ∈ queued ∧ role &&& asked = role
  damage : assigned.countVal (· = playerRoleDamage) ≤ 3
  healer : assigned.countVal (· = playerRoleHealer) ≤ 1
  tank : assigned.countVal (· = playerRoleTank) ≤ 1

theorem Assigned.of_subset {queued queued' assigned : LfgRolesMap}
    (fewer : Assigned queued' assigned) (keys : queued'.keys = queued.keys)
    (subset : ∀ guid asked, (guid, asked) ∈ queued' →
      ∃ more, (guid, more) ∈ queued ∧ asked &&& more = asked) : Assigned queued assigned := by
  refine ⟨fewer.keys.trans keys, fun guid role member => ?_, fewer.damage, fewer.healer, fewer.tank⟩
  obtain ⟨isRole, asked, inFewer, has⟩ := fewer.role guid role member
  obtain ⟨more, inQueued, hasMore⟩ := subset guid asked inFewer
  refine ⟨isRole, more, inQueued, ?_⟩
  calc role &&& more = (role &&& asked) &&& more := by rw [has]
    _ = role &&& (asked &&& more) := UInt8.and_assoc _ _ _
    _ = role &&& asked := by rw [hasMore]
    _ = role := has

section Scan

variable {again : LfgRolesMap → Option LfgRolesMap} {groles found : LfgRolesMap}

theorem tryRole_error {bit needed : UInt8} {e : UInt64 × UInt8} {count : UInt8}
    (returned : tryRole again groles bit needed e count = .error (some found)) :
    e.2 &&& bit ≠ 0 ∧ again (groles.insert e.1 (e.2 - bit)) = some found := by
  unfold tryRole at returned
  split at returned
  · rename_i has
    split at returned
    · split at returned
      · rename_i isFound
        cases returned
        exact ⟨has, isFound⟩
      · cases returned
    · split at returned
      · cases returned
      · cases returned
  · cases returned

theorem tryRole_ok {bit needed : UInt8} {e : UInt64 × UInt8} {count count' : UInt8}
    (nonzero : bit ≠ 0) (small : needed.toNat < 255) (below : count.toNat ≤ needed.toNat)
    (goesOn : tryRole again groles bit needed e count = .ok count') :
    count'.toNat = count.toNat + (if e.2 = bit then 1 else 0) ∧
      count'.toNat ≤ needed.toNat := by
  unfold tryRole at goesOn
  split at goesOn
  · split at goesOn
    · rename_i other
      split at goesOn
      · cases goesOn
      · cases goesOn
        rw [if_neg other]
        exact ⟨rfl, below⟩
    · rename_i same
      split at goesOn
      · cases goesOn
      rename_i notFull
      cases goesOn
      have less : count.toNat ≠ needed.toNat := fun h => notFull (UInt8.toNat_inj.mp h)
      have up : (count + 1).toNat = count.toNat + 1 := by
        rw [UInt8.toNat_add]
        exact Nat.mod_eq_of_lt (by change count.toNat + 1 < 256; omega)
      rw [if_pos (not_not.mp same), up]
      omega
  · rename_i hasNot
    cases goesOn
    have other : e.2 ≠ bit := by
      intro same
      rw [same, UInt8.and_self] at hasNot
      exact hasNot nonzero
    rw [if_neg other]
    exact ⟨rfl, below⟩

theorem scan_cases (rest : List (UInt64 × UInt8)) : ∀ {damage healer tank : UInt8},
    damage.toNat ≤ 3 → healer.toNat ≤ 1 → tank.toNat ≤ 1 →
    scan again groles rest damage healer tank = some found →
    (∃ e ∈ rest, ∃ bit, IsRole bit ∧ e.2 &&& bit ≠ 0 ∧
      again (groles.insert e.1 (e.2 - bit)) = some found) ∨
    (found = groles ∧
      damage.toNat + rest.countP (fun e => e.2 = playerRoleDamage) ≤ 3 ∧
      healer.toNat + rest.countP (fun e => e.2 = playerRoleHealer) ≤ 1 ∧
      tank.toNat + rest.countP (fun e => e.2 = playerRoleTank) ≤ 1 ∧
      (tank.toNat + rest.countP fun e => e.2 = playerRoleTank) +
        (healer.toNat + rest.countP fun e => e.2 = playerRoleHealer) +
        (damage.toNat + rest.countP fun e => e.2 = playerRoleDamage) =
          (UInt8.ofNat groles.size).toNat) := by
  induction rest with
  | nil =>
    intro damage healer tank fewDamage fewHealer fewTank isFound
    unfold scan at isFound
    split at isFound
    · rename_i all
      cases isFound
      exact Or.inr ⟨rfl, fewDamage, fewHealer, fewTank, all⟩
    · cases isFound
  | cons e rest ih =>
    intro damage healer tank fewDamage fewHealer fewTank isFound
    unfold scan at isFound
    split at isFound
    · cases isFound
    split at isFound
    · rename_i result returned
      rw [isFound] at returned
      obtain ⟨has, isCall⟩ := tryRole_error returned
      exact Or.inl ⟨e, mem_cons_self, _, Or.inl rfl, has, isCall⟩
    · rename_i damage' damageOk
      obtain ⟨countDamage, fewDamage'⟩ :=
        tryRole_ok (by decide) (by decide) fewDamage damageOk
      split at isFound
      · rename_i result returned
        rw [isFound] at returned
        obtain ⟨has, isCall⟩ := tryRole_error returned
        exact Or.inl ⟨e, mem_cons_self, _, Or.inr (Or.inl rfl), has, isCall⟩
      · rename_i healer' healerOk
        obtain ⟨countHealer, fewHealer'⟩ :=
          tryRole_ok (by decide) (by decide) fewHealer healerOk
        split at isFound
        · rename_i result returned
          rw [isFound] at returned
          obtain ⟨has, isCall⟩ := tryRole_error returned
          exact Or.inl ⟨e, mem_cons_self, _, Or.inr (Or.inr rfl), has, isCall⟩
        · rename_i tank' tankOk
          obtain ⟨countTank, fewTank'⟩ :=
            tryRole_ok (by decide) (by decide) fewTank tankOk
          rcases ih fewDamage' fewHealer' fewTank' isFound with
            ⟨d, inRest, call⟩ | ⟨same, allDamage, allHealer, allTank, all⟩
          · exact Or.inl ⟨d, mem_cons_of_mem _ inRest, call⟩
          · refine Or.inr ⟨same, ?_⟩
            simp only [countP_cons, decide_eq_true_eq]
            omega

end Scan

theorem size_insert_entry {e : UInt64 × UInt8} (member : e ∈ groles) (role : UInt8): OrdMap.size (groles.insert e.1 role) = groles.size :=
  size_insert_old (find?_eq_some_iff.mpr member)

theorem countVal_roles (roles : LfgRolesMap) :
    roles.countVal (· = playerRoleTank) + roles.countVal (· = playerRoleHealer) +
        roles.countVal (· = playerRoleDamage) =
      roles.countVal fun role => (decide (role = playerRoleTank) ||
        decide (role = playerRoleHealer)) || decide (role = playerRoleDamage) := by
  have two : roles.countVal (· = playerRoleTank) + roles.countVal (· = playerRoleHealer) =
      roles.countVal fun role =>
        decide (role = playerRoleTank) || decide (role = playerRoleHealer) := by
    refine countVal_add_countVal fun role => ⟨rfl, ?_⟩
    simp only [decide_eq_true_eq]
    intro ⟨isTank, isHealer⟩
    rw [isTank] at isHealer
    cases isHealer
  rw [two]
  refine countVal_add_countVal fun role => ⟨rfl, ?_⟩
  simp only [Bool.or_eq_true, decide_eq_true_eq]
  rintro ⟨isTank | isHealer, isDamage⟩
  · rw [isTank] at isDamage
    cases isDamage
  · rw [isHealer] at isDamage
    cases isDamage

theorem checkRoles_assigned (n : Nat) : ∀ {groles found : LfgRolesMap}, groles.size < 256 →
    checkRoles n groles = some found → Assigned groles found := by
  induction n with
  | zero =>
    intro groles found _ isFound
    cases isFound
  | succ n ih =>
    intro groles found small isFound
    unfold checkRoles at isFound
    split at isFound
    · cases isFound
    rcases scan_cases groles.toList (Nat.zero_le _) (Nat.zero_le _) (Nat.zero_le _) isFound with
      ⟨e, member, bit, isRole, has, isCall⟩ | ⟨rfl, damage, healer, tank, all⟩
    · have isEntry : (e.1, e.2) ∈ groles := member
      obtain ⟨sub, -⟩ := sub_role isRole has
      have fewer := ih ((size_insert_entry member _).trans_lt small) isCall
      refine fewer.of_subset (keys_insert_old isEntry) fun guid asked inFewer => ?_
      rcases mem_insert.mp inFewer with isNew | ⟨isOld, -⟩
      · cases isNew
        exact ⟨e.2, isEntry, sub⟩
      · exact ⟨asked, isOld, UInt8.and_self⟩
    · have everyone : found.countVal (· = playerRoleTank) +
          found.countVal (· = playerRoleHealer) + found.countVal (· = playerRoleDamage) =
          found.size := by
        rw [UInt8.toNat_ofNat', Nat.mod_eq_of_lt small] at all
        simpa [OrdMap.countVal] using all
      refine ⟨rfl, fun guid role member => ⟨?_, role, member, UInt8.and_self⟩, ?_, ?_, ?_⟩
      · rw [countVal_roles] at everyone
        have isRole := countVal_eq_size_iff.mp everyone (guid, role) member
        simp only [Bool.or_eq_true, decide_eq_true_eq] at isRole
        rcases isRole with (isTank | isHealer) | isDamage
        · exact Or.inr (Or.inr isTank)
        · exact Or.inr (Or.inl isHealer)
        · exact Or.inl isDamage
      · simpa [OrdMap.countVal] using damage
      · simpa [OrdMap.countVal] using healer
      · simpa [OrdMap.countVal] using tank

theorem checkGroupRoles_assigned (small : groles.size < 256)
    (succeeds : (checkGroupRoles groles).1 = true) :
    Assigned groles (checkGroupRoles groles).2 := by
  unfold checkGroupRoles at succeeds ⊢
  split at succeeds
  · rename_i found isFound
    have sameSize : OrdMap.size groles.removeLeader = groles.size := size_mapVal _ _
    refine (checkRoles_assigned _ (sameSize.trans_lt small) isFound).of_subset
      (keys_mapVal _ _) fun guid asked member => ?_
    obtain ⟨more, inQueued, stripped⟩ := mem_mapVal.mp member
    refine ⟨more, inQueued, ?_⟩
    rw [← stripped, UInt8.and_assoc, UInt8.and_comm _ more, ← UInt8.and_assoc, UInt8.and_self]
  · cases succeeds

theorem Assigned.exact {queued assigned : LfgRolesMap} (isAssigned : Assigned queued assigned)
    (five : assigned.size = 5) :
    assigned.countVal (· = playerRoleTank) = 1 ∧ assigned.countVal (· = playerRoleHealer) = 1 ∧
      assigned.countVal (· = playerRoleDamage) = 3 := by
  have everyone : assigned.countVal (fun role => (decide (role = playerRoleTank) ||
      decide (role = playerRoleHealer)) || decide (role = playerRoleDamage)) = assigned.size := by
    refine countVal_eq_size_iff.mpr fun e member => ?_
    simp only [Bool.or_eq_true, decide_eq_true_eq]
    rcases (isAssigned.role e.1 e.2 member).1 with isDamage | isHealer | isTank
    · exact Or.inr isDamage
    · exact Or.inl (Or.inr isHealer)
    · exact Or.inl (Or.inl isTank)
  rw [← countVal_roles, five] at everyone
  have damage := isAssigned.damage
  have healer := isAssigned.healer
  have tank := isAssigned.tank
  omega

theorem scan_congr {again again' : LfgRolesMap → Option LfgRolesMap}
    (same : ∀ fewer, weight fewer < weight groles → again fewer = again' fewer)
    (rest : List (UInt64 × UInt8)) (entries : ∀ e ∈ rest, e ∈ groles) :
    ∀ damage healer tank, scan again groles rest damage healer tank =
      scan again' groles rest damage healer tank := by
  induction rest with
  | nil => exact fun _ _ _ => rfl
  | cons e rest ih =>
    intro damage healer tank
    have block : ∀ bit needed count, IsRole bit →
        tryRole again groles bit needed e count = tryRole again' groles bit needed e count := by
      intro bit needed count isRole
      unfold tryRole
      by_cases has : e.2 &&& bit ≠ 0
      · rw [if_pos has, if_pos has]
        have isEntry : (e.1, e.2) ∈ groles := entries e mem_cons_self
        rw [same _ (weight_insert isEntry (sub_role isRole has).2)]
      · rw [if_neg has, if_neg has]
    unfold scan
    rw [block _ _ _ (Or.inl rfl)]
    simp only [block _ _ _ (Or.inr (Or.inl rfl)), block _ _ _ (Or.inr (Or.inr rfl)),
      ih fun d member => entries d (mem_cons_of_mem _ member)]

/-- **The nesting that `checkGroupRoles` allows is enough**: more of it changes nothing. -/
theorem checkRoles_eq_of_weight_lt (n : Nat) : ∀ {m : Nat} {groles : LfgRolesMap},
    weight groles < n → weight groles < m → checkRoles n groles = checkRoles m groles := by
  induction n with
  | zero => exact fun impossible => absurd impossible (Nat.not_lt_zero _)
  | succ n ih =>
    intro m groles below below'
    cases m with
    | zero => exact absurd below' (Nat.not_lt_zero _)
    | succ m =>
      unfold checkRoles
      split
      · rfl
      · refine scan_congr (fun fewer less => ih ?_ ?_) _ (fun _ member => member) _ _ _
        · exact Nat.lt_of_lt_of_le less (Nat.le_of_lt_succ below)
        · exact Nat.lt_of_lt_of_le less (Nat.le_of_lt_succ below')

end LfgRolesMap

end Sky548
