import Sky548.Battlegrounds.BattlegroundQueue
import Sky548.Machine

/-!
# The queue for battlegrounds is consistent

Each group is once in one list of its team, and the players of a group and the entries of the players
point to one another (`Consistent`). Joining and leaving keep that, as the search for a group finds it
in the list it is in (`locate_eq`); joining needs players who are not in the queue already.
-/

namespace Sky548

open List
open Function (update_idem update_of_ne update_self)

namespace BattlegroundQueue

theorem mem_playerMap {members : List Nat} {guid : Nat} : guid ∈ playerMap members ↔ guid ∈ members := by
  have grows : ∀ (members players : List Nat), guid ∈ members.foldl
      (fun players guid => if guid ∈ players then players else insertBy id guid players) players ↔
        guid ∈ players ∨ guid ∈ members := by
    intro members
    induction members with
    | nil => simp
    | cons member rest ih =>
      intro players
      rw [foldl_cons, ih, mem_cons]
      split
      · rename_i isIn
        constructor
        · rintro (old | later)
          · exact Or.inl old
          · exact Or.inr (Or.inr later)
        · rintro (old | rfl | later)
          · exact Or.inl old
          · exact Or.inl isIn
          · exact Or.inr later
      · rw [(perm_insertBy id member players).mem_iff, mem_cons, or_assoc, or_left_comm]
  rw [playerMap, grows]
  exact or_iff_right not_mem_nil

theorem nodup_playerMap (members : List Nat) : (playerMap members).Nodup := by
  refine foldlRecOn (motive := List.Nodup) members _ nodup_nil fun players nodup member _ => ?_
  split
  · exact nodup
  · rename_i notIn
    rw [(perm_insertBy id member players).nodup_iff]
    exact List.nodup_cons.mpr ⟨notIn, nodup⟩

variable {q q' : BattlegroundQueue} {ginfo : Nat} {group group' : GroupQueueInfo}
  {bracketId : BattlegroundBracketId} {index source target : QueueGroupType}

variable (q) in
def groupOf (guid : Nat) : Option Nat := (q.queuedPlayers.find? guid).map PlayerQueueInfo.groupInfo

/-- The group is once in this list and in no other. -/
def Placed (q : BattlegroundQueue) (ginfo : Nat) (bracketId : BattlegroundBracketId)
    (index : QueueGroupType) : Prop :=
  ∀ b i, (q.queuedGroups b i).count ginfo = if b = bracketId ∧ i = index then 1 else 0

/-- **What the queue is to be**: each group is placed, with its team, groups and players point to each
other, and no group is empty. -/
structure Consistent (q : BattlegroundQueue) : Prop where
  usable : q.misused = false
  placed : ∀ ginfo group, q.groups ginfo = some group → ∃ bracketId index,
    Placed q ginfo bracketId index ∧ index.horde = decide (group.team = .horde)
  listed : ∀ bracketId index, ∀ ginfo ∈ q.queuedGroups bracketId index,
    ∃ group, q.groups ginfo = some group
  distinct : ∀ ginfo group, q.groups ginfo = some group → group.players.Nodup
  linked : ∀ ginfo group guid, q.groups ginfo = some group →
    (guid ∈ group.players ↔ q.groupOf guid = some ginfo)
  queued : ∀ guid ginfo, q.groupOf guid = some ginfo → ∃ group, q.groups ginfo = some group
  peopled : ∀ ginfo group, q.groups ginfo = some group → group.players ≠ []

/-- What each step keeps: besides, addresses are not used again, and what is premade for the Alliance is of
the Alliance. -/
structure Steady (q : BattlegroundQueue) : Prop where
  consistent : Consistent q
  fresh : ∀ ginfo group, q.groups ginfo = some group → ginfo < q.next
  sided : ∀ bracketId, ∀ ginfo ∈ q.queuedGroups bracketId BG_QUEUE_PREMADE_ALLIANCE, ∀ group,
    q.groups ginfo = some group → group.team = .alliance

theorem Placed.mem_iff (placed : Placed q ginfo bracketId index) {b : BattlegroundBracketId}
    {i : QueueGroupType} : ginfo ∈ q.queuedGroups b i ↔ b = bracketId ∧ i = index := by
  rw [← count_pos_iff, placed b i]
  split <;> simp_all

theorem Steady.replaced (steady : Steady q) {made : Option GroupQueueInfo} (usable : q'.misused = false)
    (next : q.next ≤ q'.next) (groups : q'.groups = Function.update q.groups ginfo made)
    (counts : ∀ other, other ≠ ginfo → ∀ b i,
      (q'.queuedGroups b i).count other = (q.queuedGroups b i).count other)
    (ofOthers : ∀ guid other, other ≠ ginfo →
      (q'.groupOf guid = some other ↔ q.groupOf guid = some other))
    (unmade : made = none → (∀ b i, ginfo ∉ q'.queuedGroups b i) ∧
      ∀ guid, q'.groupOf guid ≠ some ginfo)
    (fits : ∀ group, made = some group → ginfo < q'.next ∧ group.players.Nodup ∧
      group.players ≠ [] ∧ (∀ guid, guid ∈ group.players ↔ q'.groupOf guid = some ginfo) ∧
      ∃ bracketId index, Placed q' ginfo bracketId index ∧
        index.horde = decide (group.team = .horde) ∧
        (index = BG_QUEUE_PREMADE_ALLIANCE → group.team = .alliance)) : Steady q' := by
  obtain ⟨consistent, fresh, sided⟩ := steady
  have origin : ∀ other group, q'.groups other = some group →
      other = ginfo ∧ made = some group ∨ other ≠ ginfo ∧ q.groups other = some group := by
    intro other group isThere
    rw [groups] at isThere
    rcases eq_or_ne other ginfo with rfl | apart
    · rw [update_self] at isThere
      exact Or.inl ⟨rfl, isThere⟩
    · rw [update_of_ne apart] at isThere
      exact Or.inr ⟨apart, isThere⟩
  have present : ∀ other, (made = none → other ≠ ginfo) →
      (other ≠ ginfo → ∃ group, q.groups other = some group) →
      ∃ group, q'.groups other = some group := by
    intro other notGone isOld
    rw [groups]
    rcases eq_or_ne other ginfo with rfl | apart
    · rw [update_self]
      exact Option.ne_none_iff_exists'.mp fun none => notGone none rfl
    · rw [update_of_ne apart]
      exact isOld apart
  have stays : ∀ other, other ≠ ginfo → ∀ b i, other ∈ q'.queuedGroups b i →
      other ∈ q.queuedGroups b i := by
    intro other apart b i member
    rw [← count_pos_iff] at member ⊢
    rwa [counts other apart] at member
  refine ⟨⟨usable, ?_, ?_, ?_, ?_, ?_, ?_⟩, ?_, ?_⟩
  · intro other group isThere
    rcases origin other group isThere with ⟨rfl, isMade⟩ | ⟨apart, isOld⟩
    · obtain ⟨-, -, -, -, b, i, placed, side, -⟩ := fits group isMade
      exact ⟨b, i, placed, side⟩
    · obtain ⟨b, i, placed, side⟩ := consistent.placed other group isOld
      exact ⟨b, i, fun b' i' => (counts other apart b' i').trans (placed b' i'), side⟩
  · intro b i other member
    refine present other (fun none same => ?_) fun apart =>
      consistent.listed b i other (stays other apart b i member)
    exact (unmade none).1 b i (same ▸ member)
  · intro other group isThere
    rcases origin other group isThere with ⟨rfl, isMade⟩ | ⟨-, isOld⟩
    · exact (fits group isMade).2.1
    · exact consistent.distinct other group isOld
  · intro other group guid isThere
    rcases origin other group isThere with ⟨rfl, isMade⟩ | ⟨apart, isOld⟩
    · exact (fits group isMade).2.2.2.1 guid
    · exact (consistent.linked other group guid isOld).trans (ofOthers guid other apart).symm
  · intro guid other isGroup
    refine present other (fun none same => ?_) fun apart =>
      consistent.queued guid other ((ofOthers guid other apart).mp isGroup)
    exact (unmade none).2 guid (same ▸ isGroup)
  · intro other group isThere
    rcases origin other group isThere with ⟨rfl, isMade⟩ | ⟨-, isOld⟩
    · exact (fits group isMade).2.2.1
    · exact consistent.peopled other group isOld
  · intro other group isThere
    rcases origin other group isThere with ⟨rfl, isMade⟩ | ⟨-, isOld⟩
    · exact (fits group isMade).1
    · exact Nat.lt_of_lt_of_le (fresh other group isOld) next
  · intro b other member group isThere
    rcases origin other group isThere with ⟨rfl, isMade⟩ | ⟨apart, isOld⟩
    · obtain ⟨-, -, -, -, b', i, placed, -, sidedMade⟩ := fits group isMade
      exact sidedMade (placed.mem_iff.mp member).2.symm
    · exact sided b other (stays other apart b _ member) group isOld

theorem Steady.of_relocate (steady : Steady q) (isThere : q.groups ginfo = some group)
    (groups : q'.groups = Function.update q.groups ginfo (some group'))
    (samePlayers : group'.players = group.players) (players : q'.queuedPlayers = q.queuedPlayers)
    (next : q'.next = q.next) (usable : q'.misused = false)
    (others : ∀ other, other ≠ ginfo → ∀ b i,
      (q'.queuedGroups b i).count other = (q.queuedGroups b i).count other)
    (placed : Placed q' ginfo bracketId index) (side : index.horde = decide (group'.team = .horde))
    (sided : index = BG_QUEUE_PREMADE_ALLIANCE → group'.team = .alliance) : Steady q' := by
  have sameOf : ∀ guid, q'.groupOf guid = q.groupOf guid := by
    intro guid
    rw [groupOf, groupOf, players]
  have consistent := steady.consistent
  refine steady.replaced usable (Nat.le_of_eq next.symm) groups others
    (fun guid other _ => by rw [sameOf]) (fun none => by cases none) fun new isMade => ?_
  cases isMade
  rw [samePlayers]
  refine ⟨next ▸ steady.fresh ginfo group isThere, consistent.distinct ginfo group isThere,
    consistent.peopled ginfo group isThere, fun guid => ?_, bracketId, index, placed, side, sided⟩
  rw [sameOf]
  exact consistent.linked ginfo group guid isThere

theorem find?_foldl_insert (members : List Nat)
    (players : KeyedList PlayerQueueInfo PlayerQueueInfo.guid) (guid : Nat) :
    (members.foldl (fun players guid => players.insert ⟨guid, ginfo⟩) players).find? guid =
      if guid ∈ members then some ⟨guid, ginfo⟩ else players.find? guid := by
  induction members generalizing players with
  | nil => rfl
  | cons member rest ih =>
    rw [foldl_cons, ih, KeyedList.find?_insert]
    simp only [mem_cons]
    by_cases later : guid ∈ rest
    · rw [if_pos later, if_pos (Or.inr later)]
    rw [if_neg later]
    by_cases now : guid = member
    · rw [if_pos now, if_pos (Or.inl now), now]
    · rw [if_neg now, if_neg (not_or.mpr ⟨now, later⟩)]

theorem steady_addGroup (steady : Steady q) {leader : Nat} {team : Team} {others : List Nat}
    {isRated isPremade : Bool} {joinTime matchmakerRating : Nat}
    (noneQueued : ∀ guid ∈ leader :: others, q.groupOf guid = none)
    (hasSide : isRated ∨ isPremade → team ≠ .neutral) :
    Steady (q.addGroup bracketId leader team others isRated isPremade joinTime matchmakerRating) := by
  let members := leader :: others
  let index : QueueGroupType := ⟨!isRated && !isPremade, team = .horde⟩
  let q' := q.addGroup bracketId leader team others isRated isPremade joinTime matchmakerRating
  have unused : q.groups q.next = none := by
    cases isThere : q.groups q.next with
    | none => rfl
    | some group => exact absurd (steady.fresh q.next group isThere) (Nat.lt_irrefl _)
  have lists : ∀ b i, q'.queuedGroups b i = if b = bracketId ∧ i = index then
      q.queuedGroups bracketId index ++ [q.next] else q.queuedGroups b i := fun _ _ => rfl
  have notListed : ∀ b i, q.next ∉ q.queuedGroups b i := by
    intro b i member
    obtain ⟨group, isThere⟩ := steady.consistent.listed b i q.next member
    rw [unused] at isThere
    cases isThere
  have notOf : ∀ guid, q.groupOf guid ≠ some q.next := by
    intro guid isGroup
    obtain ⟨group, isThere⟩ := steady.consistent.queued guid q.next isGroup
    rw [unused] at isThere
    cases isThere
  have placed : Placed q' q.next bracketId index := by
    intro b i
    rw [lists]
    split
    · rw [count_append, List.count_eq_zero.mpr (notListed _ _), count_singleton_self]
    · exact List.count_eq_zero.mpr (notListed b i)
  have ofNew : ∀ guid, q'.groupOf guid = if guid ∈ members then some q.next else q.groupOf guid := by
    intro guid
    have found : q'.queuedPlayers.find? guid = _ := find?_foldl_insert members q.queuedPlayers guid
    rw [groupOf, found]
    split <;> rfl
  refine steady.replaced steady.consistent.usable (Nat.le_succ _) rfl (fun other apart b i => ?_)
    (fun guid other apart => ?_) (fun none => by cases none) fun new isMade => ?_
  · rw [lists]
    split
    · rename_i isHere
      rw [isHere.1, isHere.2, count_append, count_singleton, if_neg (by simpa using Ne.symm apart)]
      rfl
    · rfl
  · rw [ofNew]
    split
    · rename_i member
      rw [noneQueued guid member]
      exact iff_of_false (fun same => apart (Option.some.inj same).symm) (by intro same; cases same)
    · exact Iff.rfl
  · cases isMade
    refine ⟨Nat.lt_succ_self _, nodup_playerMap members,
      ne_nil_of_mem (mem_playerMap.mpr mem_cons_self), fun guid => ?_, bracketId, index, placed, rfl,
      fun isIndex => ?_⟩
    · rw [ofNew, mem_playerMap]
      split
      · rename_i member
        exact iff_of_true member rfl
      · rename_i notMember
        exact iff_of_false notMember (notOf guid)
    · obtain ⟨notNormal, notHorde⟩ := QueueGroupType.mk.inj isIndex
      have special : isRated ∨ isPremade := by
        cases isRated
        · cases isPremade
          · cases notNormal
          · exact Or.inr rfl
        · exact Or.inl rfl
      have notNeutral := hasSide special
      cases team with
      | alliance => rfl
      | horde => cases notHorde
      | neutral => exact absurd rfl notNeutral

theorem locate_eq (placed : Placed q ginfo bracketId index) {team : Team}
    (side : index.horde = decide (team = .horde)) :
    q.locate ginfo team = some (bracketId, index) := by
  have isListed : ginfo ∈ q.queuedGroups bracketId index := placed.mem_iff.mpr ⟨rfl, rfl⟩
  cases found : q.locate ginfo team with
  | none =>
    have nothing := List.findSome?_eq_none_iff.mp found bracketId
      (List.mem_reverse.mpr (mem_finRange bracketId))
    rw [Option.map_eq_none_iff, getLast?_eq_none_iff, filter_eq_nil_iff] at nothing
    have isOne : index ∈ [(⟨false, team = .horde⟩ : QueueGroupType), ⟨true, team = .horde⟩] := by
      obtain ⟨normal, horde⟩ := index
      cases normal <;> simp_all
    exact absurd (decide_eq_true isListed) (nothing index isOne)
  | some place =>
    obtain ⟨b, -, foundAt⟩ := exists_of_findSome?_eq_some found
    obtain ⟨i, isLast, rfl⟩ := Option.map_eq_some_iff.mp foundAt
    have isFound := (List.mem_filter.mp (mem_of_getLast? isLast)).2
    obtain ⟨rfl, rfl⟩ := placed.mem_iff.mp (of_decide_eq_true isFound)
    rfl

theorem groupOf_erase (guid guid' : Nat) :
    ((q.queuedPlayers.erase guid).find? guid').map PlayerQueueInfo.groupInfo =
      if guid' = guid then none else q.groupOf guid' := by
  rw [KeyedList.find?_erase]
  split <;> rfl

theorem groupOf_erase_iff {guid other : Nat} (isGroup : q.groupOf guid = some ginfo)
    (apart : other ≠ ginfo) (guid' : Nat) :
    ((q.queuedPlayers.erase guid).find? guid').map PlayerQueueInfo.groupInfo = some other ↔
      q.groupOf guid' = some other := by
  rw [groupOf_erase]
  split
  · rename_i same
    rw [same, isGroup]
    exact iff_of_false (by intro same; cases same) fun isSame => apart (Option.some.inj isSame).symm
  · exact Iff.rfl

theorem steady_leave (steady : Steady q) {guid : Nat} (isGroup : q.groupOf guid = some ginfo)
    (isThere : q.groups ginfo = some group) (others : group.players.erase guid ≠ []) :
    Steady { q.put ginfo { group with players := group.players.erase guid } with
      queuedPlayers := q.queuedPlayers.erase guid } := by
  have consistent := steady.consistent
  obtain ⟨bracketId, index, placed, side⟩ := consistent.placed ginfo group isThere
  refine steady.replaced consistent.usable (Nat.le_refl _) rfl (fun _ _ _ _ => rfl)
    (fun guid' other apart => (groupOf_erase_iff isGroup apart guid'))
    (fun none => by cases none) fun new isMade => ?_
  cases isMade
  refine ⟨steady.fresh ginfo group isThere, (consistent.distinct ginfo group isThere).erase guid,
    others, fun guid' => ?_, bracketId, index, placed, side, fun isIndex => ?_⟩
  · change _ ↔ ((q.queuedPlayers.erase guid).find? guid').map PlayerQueueInfo.groupInfo = _
    rw [groupOf_erase, (consistent.distinct ginfo group isThere).mem_erase_iff,
      consistent.linked ginfo group guid' isThere]
    split
    · rename_i same
      exact iff_of_false (fun both => both.1 same) (by intro same; cases same)
    · rename_i isOther
      exact and_iff_right isOther
  · exact steady.sided bracketId ginfo (isIndex ▸ placed.mem_iff.mpr ⟨rfl, rfl⟩) group isThere

theorem steady_dissolve (steady : Steady q) {guid : Nat} (isGroup : q.groupOf guid = some ginfo)
    (isThere : q.groups ginfo = some group) (last : group.players.erase guid = [])
    (placed : Placed q ginfo bracketId index) (players : q'.queuedPlayers = q.queuedPlayers.erase guid)
    (groups : q'.groups = Function.update q.groups ginfo none) (next : q'.next = q.next)
    (usable : q'.misused = false)
    (lists : ∀ b i, q'.queuedGroups b i = if b = bracketId ∧ i = index then
      (q.queuedGroups bracketId index).erase ginfo else q.queuedGroups b i) : Steady q' := by
  have ofOthers : ∀ guid', q'.groupOf guid' =
      ((q.queuedPlayers.erase guid).find? guid').map PlayerQueueInfo.groupInfo := by
    intro guid'
    rw [groupOf, players]
  refine steady.replaced usable (Nat.le_of_eq next.symm) groups (fun other apart b i => ?_)
    (fun guid' other apart => ?_) (fun _ => ⟨fun b i => ?_, fun guid' isGroup' => ?_⟩)
    fun new isMade => by cases isMade
  · rw [lists]
    split
    · rename_i isHere
      rw [isHere.1, isHere.2, count_erase_of_ne apart]
    · rfl
  · rw [ofOthers]
    exact groupOf_erase_iff isGroup apart guid'
  · rw [← count_eq_zero, lists]
    split
    · rw [count_erase_self, placed bracketId index, if_pos ⟨rfl, rfl⟩]
    · rename_i isOther
      rw [placed b i, if_neg isOther]
  · rw [ofOthers, groupOf_erase] at isGroup'
    split at isGroup'
    · cases isGroup'
    rename_i isOther
    have member := (steady.consistent.linked ginfo group guid' isThere).mpr isGroup'
    have stillIn := (mem_erase_of_ne isOther).mpr member
    rw [last] at stillIn
    cases stillIn

theorem steady_removePlayers (turns : Nat) : ∀ {q : BattlegroundQueue} (guid : Nat), Steady q →
    Steady (removePlayers turns q guid) := by
  induction turns with
  | zero => exact fun _ steady => steady
  | succ turns ih =>
    intro q guid steady
    rw [removePlayers]
    rcases found : q.queuedPlayers.find? guid with _ | info
    · exact steady
    have isGroup : q.groupOf guid = some info.groupInfo := by rw [groupOf, found]; rfl
    obtain ⟨group, isThere⟩ := steady.consistent.queued guid info.groupInfo isGroup
    obtain ⟨bracketId, index, placed, side⟩ := steady.consistent.placed info.groupInfo group isThere
    simp only [isThere, locate_eq placed side]
    cases others : group.players.erase guid with
    | nil =>
      apply steady_dissolve steady isGroup isThere others placed
      · rfl
      · exact update_idem _ _ _
      · rfl
      · exact steady.consistent.usable
      · intros
        rfl
    | cons player rest =>
      have left := steady_leave steady isGroup isThere (by rw [others]; exact cons_ne_nil _ _)
      rw [others] at left
      simp only
      split
      · exact ih player left
      · exact left

end BattlegroundQueue

end Sky548
