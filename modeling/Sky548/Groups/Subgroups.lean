import Sky548.Groups.Group
import Sky548.Machine

/-!
# Subgroups and their counters

A raid keeps one counter a subgroup, changed one by one as members come, go and move and rebuilt
when a party becomes a raid. `Counted` says that the counters are right, that they exist exactly in
a raid, and that nobody outside a raid is in another subgroup than the first.

Two conversions can break it, `ConvertToRaid` of a party that has outgrown a subgroup and
`ConvertToGroup`, which leaves the members where they are.
-/

namespace Sky548

open List SubGroupCounts

theorem length_le_of_count_le {most : Nat} : ∀ (n : Nat) (values : List Nat),
    (∀ v ∈ values, v < n) → (∀ v < n, values.count v ≤ most) → values.length ≤ n * most
  | 0, values, below, _ => by
    have empty : values = [] := List.eq_nil_iff_forall_not_mem.mpr fun v member =>
      absurd (below v member) (Nat.not_lt_zero v)
    rw [empty]
    exact Nat.zero_le _
  | n + 1, values, below, atMost => by
    have split := length_eq_countP_add_countP (· == n) (l := values)
    have last := atMost n (Nat.lt_succ_self n)
    have others : (values.filter (· ≠ n)).length ≤ n * most := by
      refine length_le_of_count_le n _ (fun v member => ?_) fun v small => ?_
      · obtain ⟨inValues, apart⟩ := List.mem_filter.mp member
        have := below v inValues
        have : v ≠ n := by simpa using apart
        omega
      · rw [count_filter (by simpa using Nat.ne_of_lt small)]
        exact atMost v (Nat.lt_succ_of_lt small)
    have same : values.countP (fun v => ¬ (v == n)) = (values.filter (· ≠ n)).length := by
      rw [countP_eq_length_filter]
      congr 1
      exact filter_congr fun v _ => by simp
    rw [List.count] at last
    rw [Nat.succ_mul]
    omega

namespace SubGroupCounts

variable {counts : SubGroupCounts} {i : Fin maxRaidSubgroups}

theorem modify_apply (subgroup : Nat) (f : UInt8 → UInt8) :
    counts.modify subgroup f i = if (i : Nat) = subgroup then f (counts i) else counts i := rfl

theorem toNat_foldl (slots : List MemberSlot) : ∀ counts : SubGroupCounts,
    (slots.foldl (fun counts slot => counts.modify slot.group (· + 1)) counts i).toNat =
      ((counts i).toNat + (slots.map (·.group)).count (i : Nat)) % 256 := by
  induction slots with
  | nil =>
    intro counts
    have small := (counts i).toNat_lt
    simp only [foldl_nil, map_nil, count_nil, Nat.add_zero]
    omega
  | cons slot rest ih =>
    intro counts
    rw [foldl_cons, ih, map_cons, count_cons, modify_apply]
    by_cases here : (i : Nat) = slot.group
    · rw [if_pos here, if_pos (by simpa using here.symm), UInt8.toNat_add]
      change ((_ + 1) % 256 + _) % 256 = _
      omega
    · rw [if_neg here, if_neg (by simpa using Ne.symm here), Nat.add_zero]

theorem firstFree?_some {subgroup : Nat} (found : counts.firstFree? = some subgroup) :
    ∃ i : Fin maxRaidSubgroups, subgroup = i ∧ (counts i).toNat < maxGroupSize := by
  obtain ⟨i, here, rfl⟩ := Option.map_eq_some_iff.mp found
  exact ⟨i, rfl, by simpa using find?_some here⟩

end SubGroupCounts

namespace Group

variable {g g' : Group}

/-- The subgroups of the members, slot by slot. -/
def subgroups (g : Group) : List Nat := g.memberSlots.map (·.group)

def inSubGroup (g : Group) (subgroup : Nat) : Nat := g.subgroups.count subgroup

/-- **The counters are right**, and only a raid has subgroups. -/
structure Counted (g : Group) : Prop where
  allocated : g.subGroupsCounts.isSome ↔ g.isRaidGroup
  counts : ∀ counts, g.subGroupsCounts = some counts →
    ∀ i, (counts i).toNat = g.inSubGroup i ∧ (counts i).toNat ≤ maxGroupSize
  size : g.isRaidGroup → g.getMembersCount ≤ maxRaidSize
  party : ¬ g.isRaidGroup → ∀ slot ∈ g.memberSlots, slot.group = 0

/-- What every operation but the two conversions keeps. -/
structure Sorted (g : Group) : Prop where
  allocated : g.subGroupsCounts.isSome ↔ g.isRaidGroup
  counts : ∀ counts, g.subGroupsCounts = some counts → ∀ i, (counts i).toNat = g.inSubGroup i
  atMost : g.isRaidGroup → ∀ i : Fin maxRaidSubgroups, g.inSubGroup i ≤ maxGroupSize
  party : ¬ g.isRaidGroup → ∀ v ∈ g.subgroups, v = 0
  inRange : ∀ v ∈ g.subgroups, v < maxRaidSubgroups

theorem Sorted.counted (sorted : g.Sorted) : g.Counted where
  allocated := sorted.allocated
  counts := by
    intro counts present i
    have raid := sorted.allocated.mp (by rw [present]; rfl)
    refine ⟨sorted.counts counts present i, ?_⟩
    rw [sorted.counts counts present i]
    exact sorted.atMost raid i
  size := by
    intro raid
    have bound := @length_le_of_count_le maxGroupSize maxRaidSubgroups g.subgroups
      sorted.inRange fun v small => sorted.atMost raid ⟨v, small⟩
    rwa [subgroups, length_map] at bound
  party := fun party slot member => sorted.party party _ (List.mem_map_of_mem member)

theorem Sorted.congr (sorted : g.Sorted) (groups : g'.subgroups = g.subgroups)
    (raid : g'.isRaidGroup = g.isRaidGroup) (counts : g'.subGroupsCounts = g.subGroupsCounts) :
    g'.Sorted where
  allocated := by rw [counts, raid, sorted.allocated]
  counts := by
    intro counters present i
    rw [inSubGroup, groups]
    exact sorted.counts counters (counts.symm.trans present) i
  atMost := by
    intro inRaid i
    rw [inSubGroup, groups]
    exact sorted.atMost (raid ▸ inRaid) i
  party := by
    rw [raid, groups]
    exact sorted.party
  inRange := by
    rw [groups]
    exact sorted.inRange

variable {counts : SubGroupCounts}

theorem Sorted.of_raid (raid : g.isRaidGroup)
    (present : g.subGroupsCounts = some counts) (exact : ∀ i, (counts i).toNat = g.inSubGroup i)
    (atMost : ∀ i : Fin maxRaidSubgroups, g.inSubGroup i ≤ maxGroupSize)
    (inRange : ∀ v ∈ g.subgroups, v < maxRaidSubgroups) : g.Sorted where
  allocated := by simp [present, raid]
  counts := by
    intro counters same
    rw [present] at same
    cases same
    exact exact
  atMost := fun _ => atMost
  party := fun party => absurd raid party
  inRange := inRange

theorem Sorted.of_party (party : ¬ g.isRaidGroup) (absent : g.subGroupsCounts = none)
    (first : ∀ v ∈ g.subgroups, v = 0) : g.Sorted where
  allocated := by simp [absent, party]
  counts := by
    intro counters present
    rw [absent] at present
    cases present
  atMost := fun raid => absurd raid party
  party := fun _ => first
  inRange := by
    intro v member
    rw [first v member]
    decide

theorem Sorted.cases (sorted : g.Sorted) :
    (∃ counts, g.isRaidGroup = true ∧ g.subGroupsCounts = some counts) ∨
      g.isRaidGroup = false ∧ g.subGroupsCounts = none := by
  cases present : g.subGroupsCounts with
  | none =>
    refine Or.inr ⟨?_, rfl⟩
    have := sorted.allocated
    rw [present] at this
    simpa using this
  | some counts => exact Or.inl ⟨counts, sorted.allocated.mp (by rw [present]; rfl), rfl⟩

/-- **The counter rule.** A raid's counters stay right when they follow the
number of members of each subgroup up to five. -/
theorem Sorted.recount (sorted : g.Sorted) (counts' : SubGroupCounts)
    (present : g.subGroupsCounts = some counts) (raid : g'.isRaidGroup = g.isRaidGroup)
    (present' : g'.subGroupsCounts = some counts')
    (follows : ∀ i : Fin maxRaidSubgroups, (counts i).toNat = g.inSubGroup i →
      g.inSubGroup i ≤ maxGroupSize →
      (counts' i).toNat = g'.inSubGroup i ∧ g'.inSubGroup i ≤ maxGroupSize)
    (inRange : ∀ v ∈ g'.subgroups, v ∈ g.subgroups ∨ v < maxRaidSubgroups) : g'.Sorted := by
  have inRaid := sorted.allocated.mp (by rw [present]; rfl)
  refine Sorted.of_raid (raid.trans inRaid) present' (fun i => ?_) (fun i => ?_) fun v member => ?_
  · exact (follows i (sorted.counts counts present i) (sorted.atMost inRaid i)).1
  · exact (follows i (sorted.counts counts present i) (sorted.atMost inRaid i)).2
  · rcases inRange v member with old | small
    · exact sorted.inRange v old
    · exact small

theorem sorted_new (bgGroup bfGroup : Bool) : (new bgGroup bfGroup).Sorted :=
  Sorted.of_party (by simp [isRaidGroup, new, groupTypeNormal]) rfl (by simp [subgroups, new])

@[simp] theorem subgroups_pushSlot (guid : UInt64) (subGroup : Nat) :
    (g.pushSlot guid subGroup).subgroups = g.subgroups ++ [subGroup] := by
  change List.map _ (_ ++ _) = _
  rw [map_append]
  rfl

variable {guid : UInt64}

theorem Sorted.pushSlot (sorted : g.Sorted) {subGroup : Nat}
    (next : g.nextSubGroup? = some subGroup) : (g.pushSlot guid subGroup).Sorted := by
  rw [nextSubGroup?] at next
  rcases sorted.cases with ⟨counts, -, present⟩ | ⟨party, absent⟩
  · rw [present] at next
    obtain ⟨free, rfl, room⟩ := firstFree?_some next
    refine sorted.recount (counts.modify free (· + 1)) present rfl ?_
      (fun i exact atMost => ?_) fun v member => ?_
    · simp [Group.pushSlot, subGroupCounterIncrease, present]
    · rw [inSubGroup, subgroups_pushSlot, count_append, count_singleton, modify_apply]
      by_cases here : (i : Nat) = free
      · have same : i = free := Fin.ext here
        subst same
        rw [maxGroupSize] at room ⊢
        rw [if_pos rfl, if_pos (by simp), UInt8.toNat_add, ← inSubGroup, exact]
        refine ⟨?_, by omega⟩
        change (_ + 1) % 256 = _
        omega
      · rw [if_neg here, if_neg (by simpa using Ne.symm here), Nat.add_zero]
        exact ⟨exact, atMost⟩
    · rw [subgroups_pushSlot] at member
      rcases List.mem_append.mp member with old | new
      · exact Or.inl old
      · rw [List.mem_singleton.mp new]
        exact Or.inr free.isLt
  · rw [absent] at next
    cases next
    refine Sorted.of_party (by rw [← Bool.not_eq_true] at party; exact party) ?_ fun v member => ?_
    · simp [Group.pushSlot, subGroupCounterIncrease, absent]
    · rw [subgroups_pushSlot] at member
      rcases List.mem_append.mp member with old | new
      · exact sorted.party (by simp [party]) v old
      · exact List.mem_singleton.mp new

theorem addMember_cases (g : Group) (guid : UInt64) : g.addMember guid = (g, false) ∨
      ∃ subGroup, g.nextSubGroup? = some subGroup ∧
        g.addMember guid = (g.pushSlot guid subGroup, true) := by
  rw [addMember]
  cases next : g.nextSubGroup? with
  | none => exact Or.inl rfl
  | some subGroup => exact Or.inr ⟨subGroup, rfl, rfl⟩

theorem Sorted.addMember (sorted : g.Sorted) (guid : UInt64) : (g.addMember guid).1.Sorted := by
  rcases addMember_cases g guid with full | ⟨subGroup, next, added⟩
  · rw [full]
    exact sorted
  · rw [added]
    exact sorted.pushSlot next

theorem toNat_initRaidSubGroupsCounter
    (built : g.initRaidSubGroupsCounter.subGroupsCounts = some counts) (i : Fin maxRaidSubgroups) :
    (counts i).toNat = g.inSubGroup i % 256 := by
  have same := Option.some.inj built
  rw [← same, toNat_foldl]
  change (0 + _) % 256 = _
  rw [Nat.zero_add]
  rfl

theorem sorted_initRaidSubGroupsCounter (raid : g.isRaidGroup)
    (atMost : ∀ i : Fin maxRaidSubgroups, g.inSubGroup i ≤ maxGroupSize)
    (inRange : ∀ v ∈ g.subgroups, v < maxRaidSubgroups) : g.initRaidSubGroupsCounter.Sorted := by
  refine Sorted.of_raid raid rfl (fun i => ?_) atMost inRange
  rw [toNat_initRaidSubGroupsCounter rfl]
  have := atMost i
  rw [maxGroupSize] at this
  exact Nat.mod_eq_of_lt (by omega)

theorem createdType_of_party (party : ¬ g.createdType &&& groupTypeRaid ≠ 0) :
    g.createdType = g.groupType := by
  rw [createdType] at party ⊢
  split at party
  · exact absurd (by decide) party
  · rename_i plain
    rw [if_neg plain]

section

variable (sorted : g.Sorted)

include sorted

theorem Sorted.create (empty : g.memberSlots = []) (leader : UInt64) :
    (g.create leader).1.Sorted := by
  have none : g.subgroups = [] := by rw [subgroups, empty, map_nil]
  refine Sorted.addMember ?_ leader
  rw [start]
  split
  · rename_i raid
    refine sorted_initRaidSubGroupsCounter raid (fun i => ?_) fun v member => ?_
    · change List.count _ g.subgroups ≤ _
      rw [none]
      exact Nat.zero_le _
    · change v ∈ g.subgroups at member
      rw [none] at member
      cases member
  · rename_i party
    have same := createdType_of_party (g := g) (by simpa [isRaidGroup] using party)
    refine sorted.congr rfl ?_ rfl
    rw [isRaidGroup, isRaidGroup, same]

theorem Sorted.changeLeader (online : UInt64 → Bool) (guid : UInt64) :
    (g.changeLeader online guid).Sorted := by
  rw [Group.changeLeader]
  rcases g.getMemberSlot guid with _ | slot
  · exact sorted
  dsimp only
  split
  · refine sorted.congr ?_ rfl rfl
    exact MemberSlot.map_update (fun slot => slot.toggleFlag_group .assistant false) _
  · exact sorted

theorem Sorted.pickLeader (online : UInt64 → Bool) (guid : UInt64) :
    (g.pickLeader online guid).Sorted := by
  rw [Group.pickLeader]
  split
  · split
    · exact sorted
    · exact sorted.changeLeader online _
  · exact sorted

theorem Sorted.dropSlot {slot : MemberSlot}
    (found : g.getMemberSlot guid = some slot) : (g.dropSlot guid slot.group).Sorted := by
  obtain ⟨before, after, split, -, -, -, erased⟩ := MemberSlot.find?_split found
  have whole : g.subgroups = before.map (·.group) ++ slot.group :: after.map (·.group) := by
    rw [subgroups, split, map_append, map_cons]
  have rest : (g.dropSlot guid slot.group).subgroups =
      before.map (·.group) ++ after.map (·.group) := by
    change List.map _ (g.memberSlots.eraseP _) = _
    rw [erased, map_append]
  have fewer : ∀ v ∈ (g.dropSlot guid slot.group).subgroups, v ∈ g.subgroups := by
    intro v member
    rw [rest] at member
    rw [whole]
    rcases List.mem_append.mp member with early | late
    · exact mem_append_left _ early
    · exact mem_append_right _ (mem_cons_of_mem _ late)
  rcases sorted.cases with ⟨counts, -, present⟩ | ⟨party, absent⟩
  · refine sorted.recount (counts.modify slot.group (· - 1)) present rfl ?_
      (fun i exact atMost => ?_) fun v member => Or.inl (fewer v member)
    · simp [Group.dropSlot, subGroupCounterDecrease, present]
    rw [inSubGroup, whole, count_append, count_cons] at exact atMost
    rw [inSubGroup, rest, count_append, modify_apply]
    by_cases here : (i : Nat) = slot.group
    · rw [if_pos (by simpa using here.symm)] at exact atMost
      rw [if_pos here, UInt8.toNat_sub, exact]
      rw [maxGroupSize] at atMost ⊢
      refine ⟨?_, by omega⟩
      change (256 - 1 + _) % 256 = _
      omega
    · rw [if_neg (by simpa using Ne.symm here), Nat.add_zero] at exact atMost
      rw [if_neg here]
      exact ⟨exact, atMost⟩
  · refine Sorted.of_party (by rw [← Bool.not_eq_true] at party; exact party) ?_ fun v member => ?_
    · simp [Group.dropSlot, subGroupCounterDecrease, absent]
    · exact sorted.party (by simp [party]) v (fewer v member)

theorem Sorted.eraseSlot (guid : UInt64) : (g.eraseSlot guid).Sorted := by
  rw [Group.eraseSlot]
  cases found : g.getMemberSlot guid with
  | none => exact sorted
  | some slot => exact sorted.dropSlot found

theorem Sorted.without (online : UInt64 → Bool) (guid : UInt64) : (g.without online guid).Sorted :=
  (sorted.eraseSlot guid).pickLeader online guid

theorem Sorted.removeMember {kick : Bool}
    {around : Surroundings} (remains : g.removeMember guid kick around = some g') : g'.Sorted := by
  rw [Group.removeMember] at remains
  split at remains
  · cases remains
    exact sorted
  split at remains
  · rw [Option.ite_none_left_eq_some] at remains
    obtain ⟨-, same⟩ := remains
    cases same
    exact sorted.without around.online guid
  · cases remains

theorem Sorted.moveSlot {slot : MemberSlot}
    {subgroup : Fin maxRaidSubgroups} (found : g.getMemberSlot guid = some slot)
    (apart : slot.group ≠ subgroup) (room : g.hasFreeSlotSubGroup subgroup) :
    (g.moveSlot guid slot.group subgroup).Sorted := by
  obtain ⟨before, after, split, -, -, updated, -⟩ := MemberSlot.find?_split found
  have whole : g.subgroups = before.map (·.group) ++ slot.group :: after.map (·.group) := by
    rw [subgroups, split, map_append, map_cons]
  have moved : (g.moveSlot guid slot.group subgroup).subgroups =
      before.map (·.group) ++ (subgroup : Nat) :: after.map (·.group) := by
    change List.map _ (MemberSlot.update _ _ _) = _
    rw [updated, map_append, map_cons]
  rw [hasFreeSlotSubGroup] at room
  rcases present : g.subGroupsCounts with _ | counts
  · simp [present] at room
  have room : (counts subgroup).toNat < maxGroupSize := by simpa [present] using room
  refine sorted.recount
    ((counts.modify subgroup (· + 1)).modify slot.group (· - 1)) present rfl ?_
    (fun i exact atMost => ?_) fun v member => ?_
  · simp [Group.moveSlot, subGroupCounterIncrease, subGroupCounterDecrease, present]
  · rw [inSubGroup, whole, count_append, count_cons] at exact atMost
    rw [inSubGroup, moved, count_append, count_cons, modify_apply, modify_apply]
    rw [maxGroupSize] at atMost room ⊢
    by_cases left : (i : Nat) = slot.group
    · rw [if_pos (by simpa using left.symm)] at exact atMost
      have notHere : ¬ (i : Nat) = subgroup := fun here => apart (left.symm.trans here)
      rw [if_pos left, if_neg notHere, if_neg (by simpa using Ne.symm notHere),
        UInt8.toNat_sub, exact]
      refine ⟨?_, by omega⟩
      change (256 - 1 + _) % 256 = _
      omega
    · rw [if_neg (by simpa using Ne.symm left), Nat.add_zero] at exact atMost
      rw [if_neg left]
      by_cases here : (i : Nat) = subgroup
      · have same : i = subgroup := Fin.ext here
        subst same
        rw [if_pos rfl, if_pos (by simp), UInt8.toNat_add, exact]
        rw [exact] at room
        refine ⟨?_, by omega⟩
        change (_ + 1) % 256 = _
        omega
      · rw [if_neg here, if_neg (by simpa using Ne.symm here), Nat.add_zero]
        exact ⟨exact, atMost⟩
  · rw [moved] at member
    rw [whole]
    rcases List.mem_append.mp member with early | late
    · exact Or.inl (mem_append_left _ early)
    · rcases List.mem_cons.mp late with rfl | later
      · exact Or.inr subgroup.isLt
      · exact Or.inl (mem_append_right _ (mem_cons_of_mem _ later))

theorem Sorted.changeMembersGroup (guid : UInt64)
    {subgroup : Fin maxRaidSubgroups} (room : g.hasFreeSlotSubGroup subgroup) :
    (g.changeMembersGroup guid subgroup).Sorted := by
  rw [Group.changeMembersGroup]
  split
  · exact sorted
  cases found : g.getMemberSlot guid with
  | none =>
    rw [if_pos (by simp [isMember, found])]
    exact sorted
  | some slot =>
    rw [if_neg (by simp [isMember, found])]
    have group : g.getMemberGroup guid = slot.group := by rw [getMemberGroup, found]
    rw [group]
    dsimp only
    split
    · exact sorted
    · rename_i apart
      exact sorted.moveSlot found apart room

theorem Sorted.handleGroupChangeSubGroup (sender guid : UInt64)
    (groupNr : UInt8) : (g.handleGroupChangeSubGroup sender guid groupNr).Sorted := by
  rw [Group.handleGroupChangeSubGroup]
  split
  · rename_i inRange
    split
    · exact sorted
    split
    · exact sorted
    · rename_i room
      exact sorted.changeMembersGroup guid (by simpa using room)
  · exact sorted

theorem Sorted.setGroupMemberFlag (guid : UInt64) (apply : Bool)
    (flag : GroupMemberFlag) : (g.setGroupMemberFlag guid apply flag).Sorted := by
  unfold Group.setGroupMemberFlag
  split
  · exact sorted
  split
  · exact sorted
  refine sorted.congr ?_ rfl rfl
  change List.map _ (MemberSlot.update _ _ _) = _
  rw [MemberSlot.map_update fun slot => slot.toggleFlag_group flag apply]
  cases flag with
  | assistant => rfl
  | mainTank => rw [List.map_map]; rfl
  | mainAssist => rw [List.map_map]; rfl

end

theorem isRaidGroup_convertToLFG : g.convertToLFG.isRaidGroup = g.isRaidGroup := by
  have bits : (g.groupType ||| groupTypeLFG ||| groupTypeUnk1) &&& groupTypeRaid =
      g.groupType &&& groupTypeRaid := by
    rw [← UInt8.toBitVec_inj]
    simp only [UInt8.toBitVec_and, UInt8.toBitVec_or, BitVec.and_or_distrib_right]
    have lfg : groupTypeLFG.toBitVec &&& groupTypeRaid.toBitVec = 0#8 := by decide
    have unk : groupTypeUnk1.toBitVec &&& groupTypeRaid.toBitVec = 0#8 := by decide
    rw [lfg, unk, BitVec.or_zero, BitVec.or_zero]
  rw [isRaidGroup, isRaidGroup, convertToLFG, bits]

theorem isRaidGroup_convertToRaid : g.convertToRaid.isRaidGroup = true := by
  have bits : (g.groupType ||| groupTypeRaid) &&& groupTypeRaid = groupTypeRaid := by
    rw [← UInt8.toBitVec_inj]
    simp only [UInt8.toBitVec_and, UInt8.toBitVec_or]
    ext i small
    simp only [BitVec.getElem_and, BitVec.getElem_or]
    cases g.groupType.toBitVec[i] <;> cases groupTypeRaid.toBitVec[i] <;> rfl
  change decide ((g.groupType ||| groupTypeRaid) &&& groupTypeRaid ≠ 0) = true
  rw [bits]
  decide

theorem Sorted.convertToLFG (sorted : g.Sorted) : g.convertToLFG.Sorted :=
  sorted.congr rfl isRaidGroup_convertToLFG rfl

theorem Sorted.inSubGroup_of_party (sorted : g.Sorted) (party : ¬ g.isRaidGroup) (i : Nat) :
    g.inSubGroup i = if i = 0 then g.getMembersCount else 0 := by
  have first := sorted.party party
  have all : g.subgroups = List.replicate g.getMembersCount 0 := by
    rw [eq_replicate_iff]
    exact ⟨length_map _, first⟩
  rw [inSubGroup, all, count_replicate]
  simp only [beq_iff_eq, @eq_comm _ 0 i]

theorem Sorted.convertToRaid (sorted : g.Sorted)
    (fits : ¬ g.isRaidGroup → g.getMembersCount ≤ maxGroupSize) : g.convertToRaid.Sorted := by
  refine sorted_initRaidSubGroupsCounter isRaidGroup_convertToRaid (fun i => ?_) sorted.inRange
  change g.inSubGroup i ≤ maxGroupSize
  by_cases raid : g.isRaidGroup
  · exact sorted.atMost raid i
  rw [sorted.inSubGroup_of_party raid]
  split
  · exact fits raid
  · exact Nat.zero_le _

theorem Sorted.not_counted_convertToRaid (sorted : g.Sorted) (party : ¬ g.isRaidGroup)
    (large : maxGroupSize < g.getMembersCount) : ¬ g.convertToRaid.Counted := by
  intro counted
  have first := counted.counts _ rfl ⟨0, by decide⟩
  have all : g.convertToRaid.inSubGroup 0 = g.getMembersCount :=
    sorted.inSubGroup_of_party party 0
  have exact : _ = g.getMembersCount := first.1.trans all
  have atMost := first.2
  rw [exact] at atMost
  exact absurd atMost (Nat.not_le.mpr large)

theorem Sorted.convertToGroup (sorted : g.Sorted)
    (together : g.getMembersCount ≤ maxGroupSize → ∀ slot ∈ g.memberSlots, slot.group = 0) :
    g.convertToGroup.Sorted := by
  rw [Group.convertToGroup]
  split
  · exact sorted
  rename_i small
  refine Sorted.of_party (by simp [isRaidGroup, groupTypeNormal]) rfl fun v member => ?_
  obtain ⟨slot, inSlots, rfl⟩ := List.mem_map.mp member
  exact together (Nat.not_lt.mp small) slot inSlots

/-- `ConvertToGroup` leaves its members in the subgroups they were in. -/
theorem not_counted_convertToGroup (small : g.getMembersCount ≤ maxGroupSize)
    (apart : ¬ ∀ slot ∈ g.memberSlots, slot.group = 0) : ¬ g.convertToGroup.Counted := by
  intro counted
  have small : ¬ 5 < g.memberSlots.length := Nat.not_lt.mpr small
  rw [Group.convertToGroup, if_neg small] at counted
  exact apart (counted.party (by simp [isRaidGroup, groupTypeNormal]))

end Group

namespace Subgroups

open Machine

/-- What happens to a group; `create` only while nobody is in it, as its callers do. -/
inductive Event
  | create (leader : UInt64)
  | addMember (guid : UInt64)
  | removeMember (guid : UInt64) (kick : Bool) (around : Surroundings)
  | changeLeader (guid : UInt64) (online : UInt64 → Bool)
  | convertToRaid
  | convertToGroup
  | convertToLFG
  | changeSubGroup (sender guid : UInt64) (groupNr : UInt8)
  | setMemberFlag (guid : UInt64) (apply : Bool) (flag : GroupMemberFlag)

/-- One event; a disbanded group is gone. -/
def step (group : Option Group) (event : Event) : Option Group :=
  group.bind fun g =>
    match event with
    | .create leader => if g.isCreated then some g else some (g.create leader).1
    | .addMember guid => some (g.addMember guid).1
    | .removeMember guid kick around => g.removeMember guid kick around
    | .changeLeader guid online => some (g.changeLeader online guid)
    | .convertToRaid => some g.convertToRaid
    | .convertToGroup => some g.convertToGroup
    | .convertToLFG => some g.convertToLFG
    | .changeSubGroup sender guid groupNr =>
      some (g.handleGroupChangeSubGroup sender guid groupNr)
    | .setMemberFlag guid apply flag => some (g.setGroupMemberFlag guid apply flag)

/-- The counters of the group are right, as long as there is one. -/
def Counted (group : Option Group) : Prop := ∀ g, group = some g → g.Counted

def Sorted (group : Option Group) : Prop := ∀ g, group = some g → g.Sorted

/-- A party that becomes a raid fits into one subgroup, and a raid that becomes
a party has all its members in the first one. -/
def ConvertsCleanly (group : Option Group) (event : Event) : Prop :=
  ∀ g, group = some g →
    match event with
    | .convertToRaid => ¬ g.isRaidGroup → g.getMembersCount ≤ maxGroupSize
    | .convertToGroup =>
      g.getMembersCount ≤ maxGroupSize → ∀ slot ∈ g.memberSlots, slot.group = 0
    | _ => True

variable {group : Option Group}

theorem Sorted.counted (sorted : Sorted group) : Counted group :=
  fun g present => (sorted g present).counted

theorem sorted_some {g : Group} (sorted : g.Sorted) : Sorted (some g) := by
  rintro g' same
  cases same
  exact sorted

theorem Sorted.step {event : Event} (sorted : Sorted group) (clean : ConvertsCleanly group event) :
    Sorted (step group event) := by
  rcases group with _ | g
  · exact sorted
  have sorted := sorted g rfl
  cases event with
  | create leader =>
    change Sorted (if g.isCreated then some g else some (g.create leader).1)
    split
    · exact sorted_some sorted
    rename_i fresh
    refine sorted_some (sorted.create ?_ leader)
    rw [Group.isCreated, decide_eq_true_iff, Nat.not_lt, Nat.le_zero] at fresh
    exact eq_nil_of_length_eq_zero fresh
  | addMember guid => exact sorted_some (sorted.addMember guid)
  | removeMember guid kick around => exact fun g' remains => sorted.removeMember remains
  | changeLeader guid online => exact sorted_some (sorted.changeLeader online guid)
  | convertToRaid => exact sorted_some (sorted.convertToRaid (clean g rfl))
  | convertToGroup => exact sorted_some (sorted.convertToGroup (clean g rfl))
  | convertToLFG => exact sorted_some sorted.convertToLFG
  | changeSubGroup sender guid groupNr =>
    exact sorted_some (sorted.handleGroupChangeSubGroup sender guid groupNr)
  | setMemberFlag guid apply flag =>
    exact sorted_some (sorted.setGroupMemberFlag guid apply flag)

theorem not_counted_step {event : Event} (sorted : Sorted group)
    (unclean : ¬ ConvertsCleanly group event) : ¬ Counted (step group event) := by
  intro counted
  apply unclean
  rintro g rfl
  have sorted := sorted g rfl
  cases event with
  | convertToRaid =>
    intro party
    by_contra large
    exact sorted.not_counted_convertToRaid party (Nat.not_le.mp large) (counted _ rfl)
  | convertToGroup =>
    intro small
    by_contra apart
    exact Group.not_counted_convertToGroup small apart (counted _ rfl)
  | _ => exact True.intro

/-- **Subgroups.** From a new group on, the counters are right after every event
exactly when every conversion is a clean one. -/
theorem throughout_counted_iff (bgGroup bfGroup : Bool) (events : List Event) :
    Throughout step Counted (some (Group.new bgGroup bfGroup)) events ↔
      EachStep step ConvertsCleanly (some (Group.new bgGroup bfGroup)) events := by
  refine throughout_iff_eachStep (I := Sorted) ?_ ?_ ?_ ?_
  · exact sorted_some (Group.sorted_new bgGroup bfGroup)
  · exact fun _ sorted => sorted.counted
  · exact fun _ _ sorted clean => sorted.step clean
  · exact fun _ _ sorted unclean => not_counted_step sorted unclean

/-- Two players, a raid, one of them moved to the second subgroup, a party again. -/
def partedParty : List Event :=
  [.create 1, .addMember 2, .convertToRaid, .changeSubGroup 1 2 1, .convertToGroup]

theorem not_counted_of_parted_party :
    ¬ Throughout step Counted (some (Group.new false false)) partedParty := by
  intro counted
  have last := counted.last
  have parted := (last _ rfl).party (by decide)
  exact absurd parted (by decide)

end Subgroups

end Sky548
