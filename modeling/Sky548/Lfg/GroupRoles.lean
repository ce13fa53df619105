import Sky548.Lfg.Roles

/-!
# What the role check decides

`CheckGroupRoles` works on one map: it takes a role away from an entry, calls itself on the same
map, and adds the role again when that leads nowhere (`checkInPlace`). The map comes back as it was,
so that the search is the one of `checkRoles` (`checkInPlace_eq`), and that finds an assignment if
there is one.

The last comparison is with the number of players as a `uint8`. Up to 255 players that asks for a
role for each of them; from 256 on it may not (`Miscounted`).
-/

namespace Sky548.LfgRolesMap

open List OrdMap

/-- `it->second` -/
def roleOf (groles : LfgRolesMap) (guid : UInt64) : UInt8 := (groles.find? guid).getD playerRoleNone

/-- The block of one role, on the map itself: it goes on with a count, or the function returns. There is
none, where a call is nested too deep. -/
def roleBlock (call : LfgRolesMap → Option (Bool × LfgRolesMap)) (bit needed : UInt8) (guid : UInt64)
    (groles : LfgRolesMap) (count : UInt8) : Option (Except Bool UInt8 × LfgRolesMap) :=
  if groles.roleOf guid &&& bit ≠ 0 then
    if groles.roleOf guid ≠ bit then
      match call (groles.insert guid (groles.roleOf guid - bit)) with
      | none => none
      | some (true, groles) => some (.error true, groles)
      | some (false, groles) => some (.ok count, groles.insert guid (groles.roleOf guid + bit))
    else if count = needed then some (.error false, groles)
    else some (.ok (count + 1), groles)
  else some (.ok count, groles)

def scanInPlace (call : LfgRolesMap → Option (Bool × LfgRolesMap)) :
    List UInt64 → (damage healer tank : UInt8) → LfgRolesMap → Option (Bool × LfgRolesMap)
  | [], damage, healer, tank, groles =>
    some (tank.toNat + healer.toNat + damage.toNat = (UInt8.ofNat groles.size).toNat, groles)
  | guid :: rest, damage, healer, tank, groles =>
    if groles.roleOf guid = playerRoleNone then some (false, groles)
    else match roleBlock call playerRoleDamage lfgDpsNeeded guid groles damage with
      | none => none
      | some (.error result, groles) => some (result, groles)
      | some (.ok damage, groles) =>
        match roleBlock call playerRoleHealer lfgHealersNeeded guid groles healer with
        | none => none
        | some (.error result, groles) => some (result, groles)
        | some (.ok healer, groles) =>
          match roleBlock call playerRoleTank lfgTanksNeeded guid groles tank with
          | none => none
          | some (.error result, groles) => some (result, groles)
          | some (.ok tank, groles) => scanInPlace call rest damage healer tank groles

/-- `CheckGroupRoles(groles, false)`, with calls nested so deep at most -/
def checkInPlace : Nat → LfgRolesMap → Option (Bool × LfgRolesMap)
  | 0, _ => none
  | n + 1, groles =>
    if groles.toList = [] then some (false, groles)
    else scanInPlace (checkInPlace n) groles.keys 0 0 0 groles

def checkGroupRolesInPlace (n : Nat) (groles : LfgRolesMap) : Option (Bool × LfgRolesMap) :=
  if groles.toList = [] then some (false, groles) else checkInPlace n groles.removeLeader

/-- What a call returns, and the map it leaves -/
def outcome (groles : LfgRolesMap) : Option LfgRolesMap → Bool × LfgRolesMap
  | some found => (true, found)
  | none => (false, groles)

def blockOutcome (groles : LfgRolesMap) :
    Except (Option LfgRolesMap) UInt8 → Except Bool UInt8 × LfgRolesMap
  | .ok count => (.ok count, groles)
  | .error result => (.error (groles.outcome result).1, (groles.outcome result).2)

section Refines

variable {call : LfgRolesMap → Option (Bool × LfgRolesMap)} {again : LfgRolesMap → Option LfgRolesMap}
  {groles : LfgRolesMap}

theorem roleOf_eq {e : UInt64 × UInt8} (member : e ∈ groles) : groles.roleOf e.1 = e.2 := by
  have found : groles.find? e.1 = some e.2 := find?_eq_some_iff.mpr member
  rw [roleOf, found]
  rfl

theorem roleBlock_eq {bit needed : UInt8} {e : UInt64 × UInt8} (member : e ∈ groles) (count : UInt8)
    (calls : e.2 &&& bit ≠ 0 → call (groles.insert e.1 (e.2 - bit)) =
      some (outcome (groles.insert e.1 (e.2 - bit)) (again (groles.insert e.1 (e.2 - bit))))) :
    roleBlock call bit needed e.1 groles count =
      some (blockOutcome groles (tryRole again groles bit needed e count)) := by
  unfold roleBlock tryRole
  rw [roleOf_eq member]
  split
  · rename_i has
    split
    · rw [calls has]
      cases again (groles.insert e.1 (e.2 - bit)) with
      | some found => rfl
      | none =>
        have isEntry : (e.1, e.2 - bit) ∈ groles.insert e.1 (e.2 - bit) :=
          mem_insert.mpr (Or.inl rfl)
        have restored : (groles.insert e.1 (e.2 - bit)).insert e.1
            (roleOf (groles.insert e.1 (e.2 - bit)) e.1 + bit) = groles := by
          rw [roleOf_eq isEntry, UInt8.sub_add_cancel]
          exact insert_insert_old member
        simp only [outcome, blockOutcome, restored]
    · split
      · rfl
      · rfl
  · rfl

theorem scanInPlace_eq
    (calls : ∀ fewer, weight fewer < weight groles → call fewer = some (fewer.outcome (again fewer)))
    (rest : List (UInt64 × UInt8)) (entries : ∀ e ∈ rest, e ∈ groles) :
    ∀ damage healer tank, scanInPlace call (rest.map Prod.fst) damage healer tank groles =
      some (groles.outcome (scan again groles rest damage healer tank)) := by
  induction rest with
  | nil =>
    intro damage healer tank
    rw [map_nil, scanInPlace, scan]
    split
    · rename_i all
      rw [decide_eq_true all]
      rfl
    · rename_i notAll
      rw [decide_eq_false notAll]
      rfl
  | cons e rest ih =>
    intro damage healer tank
    have member := entries e mem_cons_self
    have later := ih fun d inRest => entries d (mem_cons_of_mem e inRest)
    have block : ∀ bit needed count, IsRole bit → roleBlock call bit needed e.1 groles count =
        some (blockOutcome groles (tryRole again groles bit needed e count)) := by
      intro bit needed count isRole
      apply roleBlock_eq member
      intro has
      have isEntry : (e.1, e.2) ∈ groles := member
      exact calls _ (weight_insert isEntry (sub_role isRole has).2)
    rw [map_cons, scanInPlace, scan, roleOf_eq member]
    split
    · rfl
    rw [block _ _ _ (Or.inl rfl)]
    rcases tryRole again groles playerRoleDamage lfgDpsNeeded e damage with result | damage
    · cases result <;> rfl
    simp only [blockOutcome]
    rw [block _ _ _ (Or.inr (Or.inl rfl))]
    rcases tryRole again groles playerRoleHealer lfgHealersNeeded e healer with result | healer
    · cases result <;> rfl
    simp only [blockOutcome]
    rw [block _ _ _ (Or.inr (Or.inr rfl))]
    cases tryRole again groles playerRoleTank lfgTanksNeeded e tank with
    | error result => cases result <;> rfl
    | ok tank => exact later damage healer tank

end Refines

/-- **The search in place** ends, and is the search that keeps its maps apart. -/
theorem checkInPlace_eq (n : Nat) : ∀ {groles : LfgRolesMap}, weight groles < n →
    checkInPlace n groles = some (groles.outcome (checkRoles n groles)) := by
  induction n with
  | zero => exact fun impossible => absurd impossible (Nat.not_lt_zero _)
  | succ n ih =>
    intro groles below
    unfold checkInPlace checkRoles
    split
    · rfl
    · refine scanInPlace_eq (fun fewer less => ih ?_) groles.toList (fun _ member => member) 0 0 0
      exact Nat.lt_of_lt_of_le less (Nat.le_of_lt_succ below)

/-- Every player has some of the roles he asked for left. -/
structure Narrowed (queued narrowed : LfgRolesMap) : Prop where
  keys : narrowed.keys = queued.keys
  role : ∀ guid role, (guid, role) ∈ narrowed →
    role ≠ playerRoleNone ∧ ∃ asked, (guid, asked) ∈ queued ∧ role &&& asked = role

/-- Those with a single role are within the needs of a group, and so many as the number of players is as
a `uint8`. -/
structure Counted (roles : LfgRolesMap) : Prop where
  damage : roles.countVal (· = playerRoleDamage) ≤ 3
  healer : roles.countVal (· = playerRoleHealer) ≤ 1
  tank : roles.countVal (· = playerRoleTank) ≤ 1
  all : roles.countVal (· = playerRoleTank) + roles.countVal (· = playerRoleHealer) +
    roles.countVal (· = playerRoleDamage) = roles.size % 256

/-- Only roles, and not the leader's mark -/
def Masked (groles : LfgRolesMap) : Prop := ∀ e ∈ groles, e.2 &&& 14 = e.2

variable {groles : LfgRolesMap}

theorem Narrowed.refl (some : ∀ e ∈ groles, e.2 ≠ playerRoleNone) :
    Narrowed groles groles :=
  ⟨rfl, fun guid role member => ⟨some (guid, role) member, role, member, UInt8.and_self⟩⟩

theorem Narrowed.of_insert {narrowed : LfgRolesMap} {e : UInt64 × UInt8} {bit : UInt8}
    (member : e ∈ groles) (isRole : IsRole bit) (has : e.2 &&& bit ≠ 0)
    (fewer : Narrowed (groles.insert e.1 (e.2 - bit)) narrowed) : Narrowed groles narrowed := by
  obtain ⟨sub, -⟩ := sub_role isRole has
  have isEntry : (e.1, e.2) ∈ groles := member
  refine ⟨fewer.keys.trans (keys_insert_old isEntry), fun guid role inNarrowed => ?_⟩
  obtain ⟨some, asked, inFewer, part⟩ := fewer.role guid role inNarrowed
  refine ⟨some, ?_⟩
  rcases mem_insert.mp inFewer with isNew | ⟨isOld, -⟩
  · cases isNew
    refine ⟨e.2, isEntry, ?_⟩
    calc role &&& e.2 = (role &&& (e.2 - bit)) &&& e.2 := by rw [part]
      _ = role &&& ((e.2 - bit) &&& e.2) := UInt8.and_assoc _ _ _
      _ = role &&& (e.2 - bit) := by rw [sub]
      _ = role := part
  · exact ⟨asked, isOld, part⟩

section Scan

variable {again : LfgRolesMap → Option LfgRolesMap} {groles found : LfgRolesMap}

theorem scan_some (rest : List (UInt64 × UInt8)) : ∀ {damage healer tank : UInt8},
    scan again groles rest damage healer tank = some found →
    (∃ e ∈ rest, ∃ bit, IsRole bit ∧ e.2 &&& bit ≠ 0 ∧
      again (groles.insert e.1 (e.2 - bit)) = some found) ∨
    ∀ e ∈ rest, e.2 ≠ playerRoleNone := by
  induction rest with
  | nil => exact fun _ => Or.inr nofun
  | cons e rest ih =>
    intro damage healer tank isFound
    have called : ∀ {bit needed count}, IsRole bit →
        tryRole again groles bit needed e count = .error (some found) →
        ∃ d ∈ e :: rest, ∃ bit, IsRole bit ∧ d.2 &&& bit ≠ 0 ∧
          again (groles.insert d.1 (d.2 - bit)) = some found := by
      intro bit needed count isRole returned
      obtain ⟨has, isCall⟩ := tryRole_error returned
      exact ⟨e, mem_cons_self, bit, isRole, has, isCall⟩
    unfold scan at isFound
    split at isFound
    · cases isFound
    rename_i hasRole
    split at isFound
    · rename_i returned
      exact Or.inl (called (Or.inl rfl) (returned.trans (congrArg _ isFound)))
    split at isFound
    · rename_i returned
      exact Or.inl (called (Or.inr (Or.inl rfl)) (returned.trans (congrArg _ isFound)))
    split at isFound
    · rename_i returned
      exact Or.inl (called (Or.inr (Or.inr rfl)) (returned.trans (congrArg _ isFound)))
    rcases ih isFound with ⟨d, inRest, call⟩ | others
    · exact Or.inl ⟨d, mem_cons_of_mem e inRest, call⟩
    · refine Or.inr fun d member => ?_
      rcases List.mem_cons.mp member with rfl | inRest
      · exact hasRole
      · exact others d inRest

theorem tryRole_total (again : LfgRolesMap → Option LfgRolesMap) (groles : LfgRolesMap)
    (bit needed : UInt8) (e : UInt64 × UInt8) (count : UInt8) (nonzero : bit ≠ 0) (small : needed.toNat < 255)
    (fits : count.toNat + (if e.2 = bit then 1 else 0) ≤ needed.toNat) :
    (∃ found, tryRole again groles bit needed e count = .error (some found)) ∨
      (∃ count', tryRole again groles bit needed e count = .ok count' ∧
        count'.toNat = count.toNat + (if e.2 = bit then 1 else 0)) ∧
      (e.2 &&& bit ≠ 0 → e.2 ≠ bit → again (groles.insert e.1 (e.2 - bit)) = none) := by
  have below : count.toNat ≤ needed.toNat := Nat.le_trans (Nat.le_add_right _ _) fits
  have goesOn : ∀ count', tryRole again groles bit needed e count = .ok count' →
      ∃ count', tryRole again groles bit needed e count = .ok count' ∧
        count'.toNat = count.toNat + (if e.2 = bit then 1 else 0) :=
    fun count' isOk => ⟨count', isOk, (tryRole_ok nonzero small below isOk).1⟩
  by_cases has : e.2 &&& bit ≠ 0
  · by_cases several : e.2 ≠ bit
    · cases isCall : again (groles.insert e.1 (e.2 - bit)) with
      | some found =>
        refine Or.inl ⟨found, ?_⟩
        simp only [tryRole, if_pos has, if_pos several, isCall]
      | none =>
        refine Or.inr ⟨goesOn count ?_, fun _ _ => rfl⟩
        simp only [tryRole, if_pos has, if_pos several, isCall]
    · rw [if_pos (not_not.mp several)] at fits
      have notFull : count ≠ needed := by
        rintro rfl
        omega
      refine Or.inr ⟨goesOn (count + 1) ?_, fun _ isSeveral => absurd isSeveral several⟩
      simp only [tryRole, if_pos has, if_neg several, if_neg notFull]
  · refine Or.inr ⟨goesOn count ?_, fun isHas => absurd isHas has⟩
    simp only [tryRole, if_neg has]

theorem scan_isSome (rest : List (UInt64 × UInt8)) : ∀ {damage healer tank : UInt8},
    (∀ e ∈ rest, e.2 ≠ playerRoleNone) →
    damage.toNat + rest.countP (fun e => e.2 = playerRoleDamage) ≤ 3 →
    healer.toNat + rest.countP (fun e => e.2 = playerRoleHealer) ≤ 1 →
    tank.toNat + rest.countP (fun e => e.2 = playerRoleTank) ≤ 1 →
    ((∃ e ∈ rest, ∃ bit, IsRole bit ∧ e.2 &&& bit ≠ 0 ∧ e.2 ≠ bit ∧
        again (groles.insert e.1 (e.2 - bit)) ≠ none) ∨
      (tank.toNat + rest.countP fun e => e.2 = playerRoleTank) +
        (healer.toNat + rest.countP fun e => e.2 = playerRoleHealer) +
        (damage.toNat + rest.countP fun e => e.2 = playerRoleDamage) =
          (UInt8.ofNat groles.size).toNat) →
    scan again groles rest damage healer tank ≠ none := by
  induction rest with
  | nil =>
    intro damage healer tank _ _ _ _ reason
    rcases reason with ⟨e, member, -⟩ | all
    · cases member
    · unfold scan
      have all' : tank.toNat + healer.toNat + damage.toNat = (UInt8.ofNat groles.size).toNat := all
      rw [if_pos all']
      exact Option.some_ne_none _
  | cons e rest ih =>
    intro damage healer tank hasRoles fewDamage fewHealer fewTank reason
    simp only [countP_cons, decide_eq_true_eq] at fewDamage fewHealer fewTank reason
    unfold scan
    rw [if_neg (hasRoles e mem_cons_self)]
    rcases tryRole_total again groles playerRoleDamage lfgDpsNeeded e damage (by decide) (by decide)
      (by change _ ≤ 3; omega) with
      ⟨found, isFound⟩ | ⟨⟨damage', isOk, isCount⟩, noDamage⟩
    · rw [isFound]
      exact Option.some_ne_none _
    rw [isOk]
    rcases tryRole_total again groles playerRoleHealer lfgHealersNeeded e healer (by decide) (by decide)
      (by change _ ≤ 1; omega) with
      ⟨found, isFound⟩ | ⟨⟨healer', isOk', isCount'⟩, noHealer⟩
    · simp only [isFound]
      exact Option.some_ne_none _
    simp only [isOk']
    rcases tryRole_total again groles playerRoleTank lfgTanksNeeded e tank (by decide) (by decide)
      (by change _ ≤ 1; omega) with
      ⟨found, isFound⟩ | ⟨⟨tank', isOk'', isCount''⟩, noTank⟩
    · simp only [isFound]
      exact Option.some_ne_none _
    simp only [isOk'']
    apply ih (fun d member => hasRoles d (mem_cons_of_mem e member))
    · omega
    · omega
    · omega
    · rcases reason with ⟨d, member, bit, isRole, has, several, isCall⟩ | all
      · rcases List.mem_cons.mp member with rfl | inRest
        · rcases isRole with rfl | rfl | rfl
          · exact absurd (noDamage has several) isCall
          · exact absurd (noHealer has several) isCall
          · exact absurd (noTank has several) isCall
        · exact Or.inl ⟨d, inRest, bit, isRole, has, several, isCall⟩
      · right
        omega

end Scan

/-- **Soundness**: what is found leaves everybody some of his roles, and comes out. -/
theorem checkRoles_sound (n : Nat) : ∀ {groles found : LfgRolesMap},
    checkRoles n groles = some found → Narrowed groles found ∧ Counted found := by
  induction n with
  | zero => exact nofun
  | succ n ih =>
    intro groles found isFound
    unfold checkRoles at isFound
    split at isFound
    · cases isFound
    have ofCall : ∀ e ∈ groles, ∀ bit, IsRole bit → e.2 &&& bit ≠ 0 →
        checkRoles n (groles.insert e.1 (e.2 - bit)) = some found →
        Narrowed groles found ∧ Counted found := by
      intro e member bit isRole has isCall
      obtain ⟨narrowed, counted⟩ := ih isCall
      exact ⟨narrowed.of_insert member isRole has, counted⟩
    rcases scan_cases groles.toList (Nat.zero_le _) (Nat.zero_le _) (Nat.zero_le _) isFound with
      ⟨e, member, bit, isRole, has, isCall⟩ | ⟨same, damage, healer, tank, all⟩
    · exact ofCall e member bit isRole has isCall
    rcases scan_some groles.toList isFound with ⟨e, member, bit, isRole, has, isCall⟩ | hasRoles
    · exact ofCall e member bit isRole has isCall
    obtain rfl := same
    refine ⟨Narrowed.refl hasRoles, ?_, ?_, ?_, ?_⟩
    · simpa [OrdMap.countVal] using damage
    · simpa [OrdMap.countVal] using healer
    · simpa [OrdMap.countVal] using tank
    · rw [UInt8.toNat_ofNat'] at all
      simpa [OrdMap.countVal] using all

theorem exists_spare {asked role : UInt8} (masked : asked &&& 14 = asked) (part : role &&& asked = role)
    (some : role ≠ playerRoleNone) (fewer : role ≠ asked) :
    ∃ bit, IsRole bit ∧ asked &&& bit ≠ 0 ∧ asked ≠ bit ∧ role &&& (asked - bit) = role := by
  have isMask : ∀ r : BitVec 8, r &&& 14#8 = r →
      r ∈ [0#8, 2#8, 4#8, 6#8, 8#8, 10#8, 12#8, 14#8] := by
    decide
  have onMasks : ∀ a ∈ [0#8, 2#8, 4#8, 6#8, 8#8, 10#8, 12#8, 14#8],
      ∀ r ∈ [0#8, 2#8, 4#8, 6#8, 8#8, 10#8, 12#8, 14#8], r &&& a = r → r ≠ 0#8 → r ≠ a →
        ∃ b ∈ [8#8, 4#8, 2#8], a &&& b ≠ 0#8 ∧ a ≠ b ∧ r &&& (a - b) = r := by
    decide
  have masked' : role &&& 14 = role := by
    calc role &&& 14 = (role &&& asked) &&& 14 := by rw [part]
      _ = role &&& (asked &&& 14) := UInt8.and_assoc _ _ _
      _ = role &&& asked := by rw [masked]
      _ = role := part
  obtain ⟨b, isBit, has, several, stays⟩ := onMasks asked.toBitVec
    (isMask _ (congrArg UInt8.toBitVec masked)) role.toBitVec (isMask _ (congrArg UInt8.toBitVec masked'))
    (congrArg UInt8.toBitVec part) (fun same => some (UInt8.eq_of_toBitVec_eq same))
    fun same => fewer (UInt8.eq_of_toBitVec_eq same)
  refine ⟨⟨b⟩, ?_, fun none => has (congrArg UInt8.toBitVec none),
    fun same => several (congrArg UInt8.toBitVec same), UInt8.eq_of_toBitVec_eq stays⟩
  rcases List.mem_cons.mp isBit with rfl | isBit
  · exact Or.inl rfl
  rcases List.mem_cons.mp isBit with rfl | isBit
  · exact Or.inr (Or.inl rfl)
  · rcases List.mem_cons.mp isBit with rfl | isBit
    · exact Or.inr (Or.inr rfl)
    · cases isBit

theorem Masked.insert (masked : Masked groles) {e : UInt64 × UInt8}
    (member : e ∈ groles) {bit : UInt8} (isRole : IsRole bit) (has : e.2 &&& bit ≠ 0) :
    Masked (groles.insert e.1 (e.2 - bit)) := by
  intro d inFewer
  rcases mem_insert.mp inFewer with rfl | ⟨isOld, -⟩
  · obtain ⟨sub, -⟩ := sub_role isRole has
    calc (e.2 - bit) &&& 14 = ((e.2 - bit) &&& e.2) &&& 14 := by rw [sub]
      _ = (e.2 - bit) &&& (e.2 &&& 14) := UInt8.and_assoc _ _ _
      _ = (e.2 - bit) &&& e.2 := by rw [masked e member]
      _ = e.2 - bit := sub
  · exact masked d isOld

section Narrowed

variable {groles narrowed : LfgRolesMap}

theorem Narrowed.of_mem (isNarrowed : Narrowed groles narrowed) {e : UInt64 × UInt8} (member : e ∈ groles) :
    ∃ role, (e.1, role) ∈ narrowed ∧ role ≠ playerRoleNone ∧ role &&& e.2 = role := by
  have isKey : e.1 ∈ narrowed.keys := by
    rw [isNarrowed.keys]
    exact mem_keys_iff.mpr ⟨e.2, member⟩
  obtain ⟨role, inNarrowed⟩ := mem_keys_iff.mp isKey
  obtain ⟨some, asked, inGroles, part⟩ := isNarrowed.role e.1 role inNarrowed
  obtain rfl : asked = e.2 := congrArg Prod.snd (eq_of_key_eq inGroles member rfl)
  exact ⟨role, inNarrowed, some, part⟩

theorem Narrowed.countVal_le (isNarrowed : Narrowed groles narrowed) {bit : UInt8} (isRole : IsRole bit) :
    groles.countVal (· = bit) ≤ narrowed.countVal (· = bit) := by
  have onBits : ∀ r : BitVec 8, r ≠ 0#8 → (r &&& 8#8 = r → r = 8#8) ∧ (r &&& 4#8 = r → r = 4#8) ∧
      (r &&& 2#8 = r → r = 2#8) := by
    decide
  apply countVal_le_of_imp
  intro guid role member isBit
  obtain rfl : role = bit := of_decide_eq_true isBit
  obtain ⟨left, inNarrowed, some, part⟩ := isNarrowed.of_mem member
  obtain ⟨damage, healer, tank⟩ := onBits left.toBitVec fun none => some (UInt8.eq_of_toBitVec_eq none)
  have same : left = role := by
    rcases isRole with rfl | rfl | rfl
    · exact UInt8.eq_of_toBitVec_eq (damage (congrArg UInt8.toBitVec part))
    · exact UInt8.eq_of_toBitVec_eq (healer (congrArg UInt8.toBitVec part))
    · exact UInt8.eq_of_toBitVec_eq (tank (congrArg UInt8.toBitVec part))
  exact ⟨left, inNarrowed, decide_eq_true same⟩

end Narrowed

/-- **Completeness**: if there is something to find, the search finds something. -/
theorem checkRoles_complete (n : Nat) : ∀ {groles narrowed : LfgRolesMap}, weight groles < n →
    groles.keys ≠ [] → Masked groles → Narrowed groles narrowed → Counted narrowed →
    checkRoles n groles ≠ none := by
  induction n with
  | zero => exact fun impossible => absurd impossible (Nat.not_lt_zero _)
  | succ n ih =>
    intro groles narrowed below notEmpty masked isNarrowed counted
    have notNil : groles.toList ≠ [] := fun isNil => notEmpty (by rw [OrdMap.keys, isNil]; rfl)
    have damage := Nat.le_trans (isNarrowed.countVal_le (Or.inl rfl)) counted.damage
    have healer := Nat.le_trans (isNarrowed.countVal_le (Or.inr (Or.inl rfl))) counted.healer
    have tank := Nat.le_trans (isNarrowed.countVal_le (Or.inr (Or.inr rfl))) counted.tank
    unfold checkRoles
    rw [if_neg notNil]
    apply scan_isSome groles.toList
    · intro e member none
      obtain ⟨role, -, some, part⟩ := isNarrowed.of_mem member
      rw [none] at part
      exact some (part.symm.trans UInt8.and_zero)
    · simpa [OrdMap.countVal] using damage
    · simpa [OrdMap.countVal] using healer
    · simpa [OrdMap.countVal] using tank
    · by_cases all : ∀ e ∈ groles, e ∈ narrowed
      · right
        have same : narrowed = groles := by
          apply ext_mem
          intro e
          refine ⟨fun inNarrowed => ?_, all e⟩
          obtain ⟨-, asked, member, -⟩ := isNarrowed.role e.1 e.2 inNarrowed
          have isSame : (e.1, asked) = e := eq_of_key_eq (all _ member) inNarrowed rfl
          exact isSame ▸ member
        obtain rfl := same
        rw [UInt8.toNat_ofNat']
        simpa [OrdMap.countVal] using counted.all
      · left
        obtain ⟨e, member, notIn⟩ : ∃ e ∈ groles, e ∉ narrowed := by
          simpa only [not_forall, exists_prop] using all
        obtain ⟨role, inNarrowed, some, part⟩ := isNarrowed.of_mem member
        have fewer : role ≠ e.2 := by
          rintro rfl
          exact notIn inNarrowed
        obtain ⟨bit, isRole, has, several, stays⟩ := exists_spare (masked e member) part some fewer
        have isEntry : (e.1, e.2) ∈ groles := member
        have sameKeys := keys_insert_old (v := e.2 - bit) isEntry
        refine ⟨e, member, bit, isRole, has, several, ih ?_ ?_ ?_ ?_ counted⟩
        · exact Nat.lt_of_lt_of_le (weight_insert isEntry (sub_role isRole has).2)
            (Nat.le_of_lt_succ below)
        · rw [sameKeys]
          exact notEmpty
        · exact masked.insert member isRole has
        · refine ⟨isNarrowed.keys.trans sameKeys.symm, fun guid left inLeft => ?_⟩
          obtain ⟨hasLeft, asked, inGroles, ofAsked⟩ := isNarrowed.role guid left inLeft
          refine ⟨hasLeft, ?_⟩
          by_cases isKey : guid = e.1
          · subst isKey
            obtain rfl : left = role := congrArg Prod.snd (eq_of_key_eq inLeft inNarrowed rfl)
            exact ⟨e.2 - bit, mem_insert.mpr (Or.inl rfl), stays⟩
          · exact ⟨asked, mem_insert.mpr (Or.inr ⟨inGroles, isKey⟩), ofAsked⟩

/-- **What the role check is to do**: it ends, says whether there is an assignment, leaves one in
the map if there is, and else only takes the leader's marks away. -/
def Decides (groles : LfgRolesMap) : Prop :=
  ∃ result after,
    (∀ n, weight groles.removeLeader < n → checkGroupRolesInPlace n groles = some (result, after)) ∧
    (result = true ↔ ∃ assigned, Assigned groles.removeLeader assigned) ∧
    (result = true → Assigned groles.removeLeader after) ∧
    (result = false → after = groles.removeLeader)

/-- From 256 players on: only as many have a single role as are left of their number, within the
needs of a group. -/
def Miscounted (groles : LfgRolesMap) : Prop :=
  256 ≤ groles.size ∧ ∃ narrowed, Narrowed groles.removeLeader narrowed ∧ Counted narrowed

variable {queued : LfgRolesMap}

theorem size_eq_of_keys {narrowed : LfgRolesMap} (keys : narrowed.keys = queued.keys) :
    narrowed.size = queued.size := by
  have lengths := congrArg List.length keys
  rwa [OrdMap.keys, length_map, OrdMap.keys, length_map] at lengths

theorem Assigned.all_single {assigned : LfgRolesMap} (isAssigned : Assigned queued assigned) :
    assigned.countVal (· = playerRoleTank) + assigned.countVal (· = playerRoleHealer) +
      assigned.countVal (· = playerRoleDamage) = assigned.size := by
  rw [countVal_roles, countVal_eq_size_iff]
  intro e member
  simp only [Bool.or_eq_true, decide_eq_true_eq]
  rcases (isAssigned.role e.1 e.2 member).1 with isDamage | isHealer | isTank
  · exact Or.inr isDamage
  · exact Or.inl (Or.inr isHealer)
  · exact Or.inl (Or.inl isTank)

theorem Assigned.size_le {assigned : LfgRolesMap} (isAssigned : Assigned queued assigned) :
    queued.size ≤ 5 := by
  have all := isAssigned.all_single
  rw [size_eq_of_keys isAssigned.keys] at all
  have damage := isAssigned.damage
  have healer := isAssigned.healer
  have tank := isAssigned.tank
  omega

theorem Assigned.narrowed {assigned : LfgRolesMap} (isAssigned : Assigned queued assigned) :
    Narrowed queued assigned ∧ Counted assigned := by
  refine ⟨⟨isAssigned.keys, fun guid role member => ?_⟩, isAssigned.damage, isAssigned.healer,
    isAssigned.tank, ?_⟩
  · obtain ⟨isRole, asked⟩ := isAssigned.role guid role member
    refine ⟨?_, asked⟩
    rcases isRole with rfl | rfl | rfl
    · decide
    · decide
    · decide
  · have few := isAssigned.size_le
    rw [isAssigned.all_single, size_eq_of_keys isAssigned.keys, Nat.mod_eq_of_lt (by omega)]

theorem Narrowed.assigned {narrowed : LfgRolesMap} (isNarrowed : Narrowed queued narrowed)
    (counted : Counted narrowed) (small : queued.size < 256) : Assigned queued narrowed := by
  have all := counted.all
  rw [size_eq_of_keys isNarrowed.keys, Nat.mod_eq_of_lt small, countVal_roles,
    ← size_eq_of_keys isNarrowed.keys] at all
  refine ⟨isNarrowed.keys, fun guid role member => ⟨?_, (isNarrowed.role guid role member).2⟩,
    counted.damage, counted.healer, counted.tank⟩
  have isRole := countVal_eq_size_iff.mp all (guid, role) member
  simp only [Bool.or_eq_true, decide_eq_true_eq] at isRole
  rcases isRole with (isTank | isHealer) | isDamage
  · exact Or.inr (Or.inr isTank)
  · exact Or.inr (Or.inl isHealer)
  · exact Or.inl isDamage

theorem checkGroupRolesInPlace_eq (notEmpty : groles.toList ≠ []) {n : Nat}
    (enough : weight groles.removeLeader < n) : checkGroupRolesInPlace n groles =
      some (outcome groles.removeLeader (checkRoles (weight groles.removeLeader + 1) groles.removeLeader)) := by
  rw [checkGroupRolesInPlace, if_neg notEmpty, checkInPlace_eq n enough,
    checkRoles_eq_of_weight_lt n enough (Nat.lt_succ_self _)]

section Decides

variable {groles : LfgRolesMap}

theorem masked_removeLeader (masks : ∀ e ∈ groles, e.2 &&& 15 = e.2) : Masked groles.removeLeader := by
  have onBits : ∀ r : BitVec 8, r &&& 15#8 = r → (r &&& ~~~ 1#8) &&& 14#8 = r &&& ~~~ 1#8 := by
    decide
  intro e member
  obtain ⟨role, inGroles, isRole⟩ := mem_mapVal.mp (show (e.1, e.2) ∈ groles.removeLeader from member)
  rw [← isRole]
  exact UInt8.eq_of_toBitVec_eq
    (onBits role.toBitVec (congrArg UInt8.toBitVec (masks (e.1, role) inGroles)))

theorem checkRoles_ne_none_iff (notEmpty : groles.toList ≠ []) (masks : ∀ e ∈ groles, e.2 &&& 15 = e.2) :
    checkRoles (weight groles.removeLeader + 1) groles.removeLeader ≠ none ↔
      ∃ narrowed, Narrowed groles.removeLeader narrowed ∧ Counted narrowed := by
  constructor
  · intro isSome
    obtain ⟨found, isFound⟩ := Option.ne_none_iff_exists'.mp isSome
    exact ⟨found, checkRoles_sound _ isFound⟩
  rintro ⟨narrowed, isNarrowed, counted⟩
  have hasKeys : OrdMap.keys groles.removeLeader ≠ [] := by
    rw [removeLeader, keys_mapVal]
    exact fun none => notEmpty (List.map_eq_nil_iff.mp none)
  exact checkRoles_complete _ (Nat.lt_succ_self _) hasKeys (masked_removeLeader masks) isNarrowed counted

theorem not_decides_of_miscounted (notEmpty : groles.toList ≠ [])
    (masks : ∀ e ∈ groles, e.2 &&& 15 = e.2) (miscounted : Miscounted groles) : ¬ Decides groles := by
  rintro ⟨result, after, returns, isRight, -, -⟩
  obtain ⟨many, narrowed, isNarrowed, counted⟩ := miscounted
  have isSome := (checkRoles_ne_none_iff notEmpty masks).mpr ⟨narrowed, isNarrowed, counted⟩
  obtain ⟨found, isFound⟩ := Option.ne_none_iff_exists'.mp isSome
  have returned := returns _ (Nat.lt_succ_self _)
  rw [checkGroupRolesInPlace_eq notEmpty (Nat.lt_succ_self _), isFound] at returned
  obtain rfl : true = result := congrArg Prod.fst (Option.some.inj returned)
  obtain ⟨assigned, isAssigned⟩ := isRight.mp rfl
  have few := isAssigned.size_le
  have sameSize : OrdMap.size groles.removeLeader = groles.size := size_mapVal _ _
  omega

end Decides

/-- A leader for tank and damage, a tank, and a healer -/
def threePlayers : LfgRolesMap := ((OrdMap.empty.insert 1 11).insert 2 2).insert 3 4

/-- So many players, each for tank and healer -/
def tankHealers (n : Nat) (small : n < 2 ^ 64) : LfgRolesMap where
  toList := (List.range n).map fun i => (UInt64.ofNat i, 6)
  sorted := by
    rw [pairwise_map]
    apply List.pairwise_lt_range.imp_of_mem
    intro a b inA inB less
    have belowA := List.mem_range.mp inA
    have belowB := List.mem_range.mp inB
    change UInt64.ofNat a < UInt64.ofNat b
    rw [UInt64.lt_iff_toNat_lt, UInt64.toNat_ofNat', UInt64.toNat_ofNat', Nat.mod_eq_of_lt (by omega),
      Nat.mod_eq_of_lt (by omega)]
    exact less

end Sky548.LfgRolesMap
