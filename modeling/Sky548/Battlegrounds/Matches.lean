import Mathlib.Data.List.TakeWhile
import Sky548.Battlegrounds.Consistency

/-!
# Matches keep the queue consistent

What changes the team of a group puts it to the list of that team as well: a premade group that goes
to the normal queue, the groups that change sides for a skirmish, and the teams of a rated match.
-/

namespace Sky548

open List

namespace BattlegroundQueue

variable {q q' : BattlegroundQueue} {ginfo : Nat} {group : GroupQueueInfo}
  {bracketId : BattlegroundBracketId} {index source target : QueueGroupType}

/-! ## Moves between lists -/

/-- The lists after a group has gone from one to the front of another -/
structure Moved (q q' : BattlegroundQueue) (bracketId : BattlegroundBracketId)
    (source target : QueueGroupType) (ginfo : Nat) : Prop where
  apart : source ≠ target
  atSource : (q'.queuedGroups bracketId source).Perm ((q.queuedGroups bracketId source).erase ginfo)
  atTarget : q'.queuedGroups bracketId target = ginfo :: q.queuedGroups bracketId target
  elsewhere : ∀ b i, ¬(b = bracketId ∧ i = source) → ¬(b = bracketId ∧ i = target) →
    q'.queuedGroups b i = q.queuedGroups b i

theorem Moved.count_of_ne (moved : Moved q q' bracketId source target ginfo) {other : Nat}
    (notIt : other ≠ ginfo) (b : BattlegroundBracketId) (i : QueueGroupType) :
    (q'.queuedGroups b i).count other = (q.queuedGroups b i).count other := by
  by_cases isSource : b = bracketId ∧ i = source
  · rw [isSource.1, isSource.2, moved.atSource.count_eq, count_erase_of_ne notIt]
  · by_cases isTarget : b = bracketId ∧ i = target
    · rw [isTarget.1, isTarget.2, moved.atTarget, count_cons_of_ne (Ne.symm notIt)]
    · rw [moved.elsewhere b i isSource isTarget]

theorem Moved.placed (moved : Moved q q' bracketId source target ginfo)
    (placed : Placed q ginfo bracketId source) : Placed q' ginfo bracketId target := by
  intro b i
  by_cases isTarget : b = bracketId ∧ i = target
  · have notSource : ¬(bracketId = bracketId ∧ target = source) := fun both => moved.apart both.2.symm
    rw [if_pos isTarget, isTarget.1, isTarget.2, moved.atTarget, count_cons_self,
      placed bracketId target, if_neg notSource]
  rw [if_neg isTarget]
  by_cases isSource : b = bracketId ∧ i = source
  · rw [isSource.1, isSource.2, moved.atSource.count_eq, count_erase_self,
      placed bracketId source, if_pos ⟨rfl, rfl⟩]
  · rw [moved.elsewhere b i isSource isTarget, placed b i, if_neg isSource]

theorem moved_moveToFront (apart : source ≠ target) :
    Moved q (q.moveToFront bracketId source target ginfo) bracketId source target ginfo where
  apart := apart
  atSource := by
    have isSource : (q.moveToFront bracketId source target ginfo).queuedGroups bracketId source =
        ((q.setList bracketId target (ginfo :: q.queuedGroups bracketId target)).queuedGroups
          bracketId source).erase ginfo := if_pos ⟨rfl, rfl⟩
    have before : (q.setList bracketId target (ginfo :: q.queuedGroups bracketId target)).queuedGroups
        bracketId source = q.queuedGroups bracketId source := if_neg fun both => apart both.2
    rw [isSource, before]
  atTarget := by
    have isTarget : (q.moveToFront bracketId source target ginfo).queuedGroups bracketId target =
        (q.setList bracketId target (ginfo :: q.queuedGroups bracketId target)).queuedGroups
          bracketId target := if_neg fun both => apart both.2.symm
    rw [isTarget]
    exact if_pos ⟨rfl, rfl⟩
  elsewhere := by
    intro b i notSource notTarget
    exact (if_neg notSource).trans (if_neg notTarget)

theorem Steady.of_moved (steady : Steady q) (isThere : q.groups ginfo = some group)
    (moved : Moved q q' bracketId source target ginfo) (member : ginfo ∈ q.queuedGroups bracketId source)
    {group' : GroupQueueInfo} (groups : q'.groups = Function.update q.groups ginfo (some group'))
    (samePlayers : group'.players = group.players) (players : q'.queuedPlayers = q.queuedPlayers)
    (next : q'.next = q.next) (usable : q'.misused = q.misused)
    (side : target.horde = decide (group'.team = .horde))
    (sided : target = BG_QUEUE_PREMADE_ALLIANCE → group'.team = .alliance) : Steady q' := by
  obtain ⟨b, i, placed, -⟩ := steady.consistent.placed ginfo group isThere
  obtain ⟨rfl, rfl⟩ := placed.mem_iff.mp member
  apply steady.of_relocate isThere groups samePlayers players next
  · exact usable.trans steady.consistent.usable
  · exact fun other notIt => moved.count_of_ne notIt
  · exact moved.placed placed
  · exact side
  · exact sided

theorem Steady.of_put (steady : Steady q) (isThere : q.groups ginfo = some group)
    {group' : GroupQueueInfo} (sameTeam : group'.team = group.team)
    (samePlayers : group'.players = group.players) : Steady (q.put ginfo group') := by
  obtain ⟨b, i, placed, side⟩ := steady.consistent.placed ginfo group isThere
  have placed' : Placed (q.put ginfo group') ginfo b i := placed
  have others : ∀ other, other ≠ ginfo → ∀ b i, ((q.put ginfo group').queuedGroups b i).count other =
      (q.queuedGroups b i).count other := fun _ _ _ _ => rfl
  refine steady.of_relocate isThere rfl samePlayers rfl rfl steady.consistent.usable others placed' ?_ ?_
  · rw [sameTeam]
    exact side
  · rintro rfl
    rw [sameTeam]
    exact steady.sided b ginfo (placed.mem_iff.mpr ⟨rfl, rfl⟩) group isThere

theorem inviteGroupToBG_groups (bg now : Nat) (side : Team) (isThere : q.groups ginfo = some group) :
    ∃ group', q.inviteGroupToBG ginfo bg side now = q.put ginfo group' ∧ group'.team = side ∧
      group'.players = group.players := by
  unfold inviteGroupToBG
  simp only [isThere]
  split
  · exact ⟨_, rfl, rfl, rfl⟩
  · exact ⟨_, rfl, rfl, rfl⟩

def SameGroups (q q' : BattlegroundQueue) : Prop :=
  ∀ ginfo, (q.groups ginfo).isSome → (q'.groups ginfo).isSome

theorem sameGroups_put (ginfo : Nat) (group : GroupQueueInfo) : SameGroups q (q.put ginfo group) := by
  intro other isSome
  rcases eq_or_ne other ginfo with rfl | notIt
  · change (Function.update q.groups other (some group) other).isSome
    rw [Function.update_self]
    rfl
  · change (Function.update q.groups ginfo (some group) other).isSome
    rw [Function.update_of_ne notIt]
    exact isSome

theorem steady_inviteSelected (steady : Steady q) (bg now : Nat) (isSome : (q.groups ginfo).isSome) :
    Steady (q.inviteSelected bg now ginfo) ∧ SameGroups q (q.inviteSelected bg now ginfo) := by
  obtain ⟨group, isThere⟩ := Option.isSome_iff_exists.mp isSome
  obtain ⟨group', invited, sameTeam, samePlayers⟩ := inviteGroupToBG_groups bg now group.team isThere
  have isInvite : q.inviteSelected bg now ginfo = q.put ginfo group' := by
    unfold inviteSelected
    simp only [isThere]
    exact invited
  rw [isInvite]
  exact ⟨steady.of_put isThere sameTeam samePlayers, sameGroups_put ginfo group'⟩

theorem steady_inviteAll (bg now : Nat) (selected : List Nat) : ∀ {q : BattlegroundQueue}, Steady q →
    (∀ ginfo ∈ selected, (q.groups ginfo).isSome) →
    Steady (q.inviteAll bg now selected) ∧ SameGroups q (q.inviteAll bg now selected) := by
  induction selected with
  | nil => exact fun steady _ => ⟨steady, fun _ isSome => isSome⟩
  | cons ginfo rest ih =>
    intro q steady areThere
    obtain ⟨now', same⟩ := steady_inviteSelected steady bg now (areThere ginfo mem_cons_self)
    obtain ⟨later, sameLater⟩ := ih now' fun other member =>
      same other (areThere other (mem_cons_of_mem ginfo member))
    exact ⟨later, fun other isSome => sameLater other (same other isSome)⟩

theorem Consistent.isSome (consistent : Consistent q)
    (member : ginfo ∈ q.queuedGroups bracketId index) : (q.groups ginfo).isSome := by
  obtain ⟨group, isThere⟩ := consistent.listed bracketId index ginfo member
  rw [isThere]
  rfl

theorem steady_fill (steady : Steady q) (now bg : Nat) (selected : List Nat) :
    Steady (q.fill bracketId now bg selected) := by
  refine (steady_inviteAll bg now _ steady fun ginfo member => ?_).1
  have isListed := of_decide_eq_true (List.mem_filter.mp member).2
  rcases List.mem_append.mp isListed with isAlliance | isHorde
  · exact steady.consistent.isSome isAlliance
  · exact steady.consistent.isSome isHorde

theorem select_selectedGroups (pool : SelectionPool) (ginfo desiredCount : Nat) :
    (q.select pool ginfo desiredCount).1 = pool ∨
      (q.select pool ginfo desiredCount).1 =
        ⟨pool.selectedGroups ++ [ginfo], pool.playerCount + q.size ginfo⟩ ∧
      pool.playerCount + q.size ginfo ≤ desiredCount := by
  unfold select
  split
  · rename_i both
    exact Or.inr ⟨rfl, both.2⟩
  · exact Or.inl rfl

/-- What is known of a pool while groups of a list are selected -/
structure Pooled (q : BattlegroundQueue) (pool : SelectionPool) (allowed : Nat → Prop) (most : Nat) :
    Prop where
  allowed : ∀ ginfo ∈ pool.selectedGroups, allowed ginfo
  atMost : pool.playerCount ≤ most
  filled : pool.playerCount ≠ 0 → pool.selectedGroups ≠ []

theorem pooled_init (allowed : Nat → Prop) (most : Nat) : Pooled q .init allowed most :=
  ⟨nofun, Nat.zero_le _, fun notZero => absurd rfl notZero⟩

theorem Pooled.select {pool : SelectionPool} {allowed : Nat → Prop} {most desiredCount : Nat}
    (pooled : Pooled q pool allowed most) (le : desiredCount ≤ most) (isAllowed : allowed ginfo) :
    Pooled q (q.select pool ginfo desiredCount).1 allowed most := by
  rcases select_selectedGroups (q := q) pool ginfo desiredCount with same | ⟨more, fits⟩
  · rw [same]
    exact pooled
  rw [more]
  refine ⟨fun other member => ?_, fits.trans le, fun _ => append_ne_nil_of_right_ne_nil _ (cons_ne_nil _ _)⟩
  rcases List.mem_append.mp member with old | isNew
  · exact pooled.allowed other old
  · rw [List.mem_singleton.mp isNew]
    exact isAllowed

theorem Pooled.selectFrom {allowed : Nat → Prop} {most desiredCount : Nat} (le : desiredCount ≤ most)
    (list : List Nat) : ∀ {pool : SelectionPool}, Pooled q pool allowed most →
      (∀ ginfo ∈ list, allowed ginfo) → Pooled q (q.selectFrom desiredCount pool list) allowed most := by
  induction list with
  | nil => exact fun pooled _ => pooled
  | cons ginfo rest ih =>
    intro pool pooled areAllowed
    have later : ∀ other ∈ rest, allowed other := fun other member =>
      areAllowed other (mem_cons_of_mem ginfo member)
    have now := pooled.select le (areAllowed ginfo mem_cons_self)
    unfold BattlegroundQueue.selectFrom
    split
    · exact ih pooled later
    split
    · rename_i selected
      rw [selected] at now
      exact ih now later
    · rename_i selected
      rw [selected] at now
      exact now

variable {minPlayers : Nat}

theorem Pooled.selectUntil {allowed : Nat → Prop} {maxPlayers : Nat} (list : List Nat) :
    ∀ {pool : SelectionPool}, Pooled q pool allowed maxPlayers → (∀ ginfo ∈ list, allowed ginfo) →
      pool.playerCount < minPlayers →
      Pooled q (q.selectUntil minPlayers maxPlayers pool list).1 allowed maxPlayers ∧
        (∀ ginfo ∈ (q.selectUntil minPlayers maxPlayers pool list).2, allowed ginfo) ∧
        (minPlayers ≤ (q.selectUntil minPlayers maxPlayers pool list).1.playerCount →
          (q.selectUntil minPlayers maxPlayers pool list).2 ≠ []) := by
  induction list with
  | nil => exact fun pooled _ few => ⟨pooled, nofun, fun many => absurd few (Nat.not_lt.mpr many)⟩
  | cons ginfo rest ih =>
    intro pool pooled areAllowed few
    have later : ∀ other ∈ rest, allowed other := fun other member =>
      areAllowed other (mem_cons_of_mem ginfo member)
    have now := pooled.select (Nat.le_refl maxPlayers) (areAllowed ginfo mem_cons_self)
    unfold BattlegroundQueue.selectUntil
    split
    · exact ih pooled later few
    simp only
    split
    · exact ⟨now, areAllowed, fun _ => cons_ne_nil _ _⟩
    · rename_i still
      exact ih now later (Nat.lt_of_not_le still)

theorem selectFrom_sublist (desiredCount : Nat) (list : List Nat) : ∀ pool : SelectionPool,
    ∃ selected, selected.Sublist list ∧
      (q.selectFrom desiredCount pool list).selectedGroups = pool.selectedGroups ++ selected := by
  induction list with
  | nil => exact fun pool => ⟨[], List.Sublist.refl _, (append_nil _).symm⟩
  | cons ginfo rest ih =>
    intro pool
    unfold BattlegroundQueue.selectFrom
    split
    · obtain ⟨selected, isSublist, isAll⟩ := ih pool
      exact ⟨selected, isSublist.cons ginfo, isAll⟩
    split
    · rename_i pool' selectedNow
      obtain ⟨selected, isSublist, isAll⟩ := ih pool'
      rcases select_selectedGroups (q := q) pool ginfo desiredCount with same | ⟨more, -⟩
      · rw [selectedNow] at same
        obtain rfl : pool' = pool := same
        exact ⟨selected, isSublist.cons ginfo, isAll⟩
      rw [selectedNow] at more
      refine ⟨ginfo :: selected, isSublist.cons_cons ginfo, ?_⟩
      have isPool : pool' = ⟨pool.selectedGroups ++ [ginfo], _⟩ := more
      rw [isAll, isPool, append_assoc]
      rfl
    · rename_i pool' selectedNow
      rcases select_selectedGroups (q := q) pool ginfo desiredCount with same | ⟨more, -⟩
      · rw [selectedNow] at same
        obtain rfl : pool' = pool := same
        exact ⟨[], nil_sublist _, (append_nil _).symm⟩
      · rw [selectedNow] at more
        have isPool : pool' = ⟨pool.selectedGroups ++ [ginfo], _⟩ := more
        exact ⟨[ginfo], (nil_sublist rest).cons_cons ginfo, by rw [isPool]⟩

theorem steady_movePremade (steady : Steady q) (minPlayers timeBefore : Nat) (horde : Bool) :
    Steady (q.movePremade bracketId minPlayers timeBefore horde) := by
  unfold movePremade
  split
  · exact steady
  rename_i ginfo rest isList
  split
  · have member : ginfo ∈ q.queuedGroups bracketId ⟨false, horde⟩ := by
      rw [isList]
      exact mem_cons_self
    obtain ⟨group, isThere⟩ := steady.consistent.listed bracketId _ ginfo member
    obtain ⟨b, i, placed, side⟩ := steady.consistent.placed ginfo group isThere
    obtain ⟨-, rfl⟩ := placed.mem_iff.mp member
    have groups : (q.moveToFront bracketId ⟨false, horde⟩ ⟨true, horde⟩ ginfo).groups =
        Function.update q.groups ginfo (some group) := by
      rw [← isThere, Function.update_eq_self]
      rfl
    have apart : (⟨false, horde⟩ : QueueGroupType) ≠ ⟨true, horde⟩ := nofun
    apply steady.of_moved isThere (moved_moveToFront apart) member groups rfl rfl rfl rfl
    · exact side
    · exact nofun
  · exact steady

/-- **Premade matches**: groups that are there are selected, or a group moves to the normal queue. -/
theorem checkPremadeMatch_spec (bracketId : BattlegroundBracketId) (steady : Steady q) (minPlayers maxPlayers timeBefore : Nat) :
    Steady (q.checkPremadeMatch bracketId minPlayers maxPlayers timeBefore).1 ∧
      ∀ pools, (q.checkPremadeMatch bracketId minPlayers maxPlayers timeBefore).2 = some pools →
        ∀ ginfo ∈ pools.1.selectedGroups ++ pools.2.selectedGroups,
          (((q.checkPremadeMatch bracketId minPlayers maxPlayers timeBefore).1.groups ginfo)).isSome := by
  unfold checkPremadeMatch
  simp only
  split
  · rename_i ali horde isAlliance isHorde
    refine ⟨steady, ?_⟩
    rintro pools ⟨⟩ ginfo member
    have areThere : ∀ index, ∀ other ∈ q.queuedGroups bracketId index, (q.groups other).isSome :=
      fun index other isIn => steady.consistent.isSome isIn
    have first : ∀ index leader, leader ∈ q.queuedGroups bracketId index →
        Pooled q (q.select .init leader maxPlayers).1 (fun other => (q.groups other).isSome)
          maxPlayers := fun index leader isIn =>
      (pooled_init _ maxPlayers).select (Nat.le_refl maxPlayers) (areThere index leader isIn)
    have a := first _ ali (mem_of_find?_eq_some isAlliance)
    have h := first _ horde (mem_of_find?_eq_some isHorde)
    rcases List.mem_append.mp member with isA | isH
    · exact (a.selectFrom ((Nat.min_le_left _ _).trans a.atMost) _ (areThere _)).allowed ginfo isA
    · exact (h.selectFrom ((Nat.min_le_right _ _).trans h.atMost) _ (areThere _)).allowed ginfo isH
  · refine ⟨?_, nofun⟩
    apply steady_movePremade
    exact steady_movePremade steady minPlayers timeBefore false

theorem checkNormalMatch_spec (bracketId : BattlegroundBracketId) (maxPlayers : Nat)
    (consistent : Consistent q) (needsPlayers : 0 < minPlayers) (invitationType : Nat)
    (isTesting : Bool) :
    ∃ a h isMatch, q.checkNormalMatch bracketId minPlayers maxPlayers invitationType isTesting =
        (q, (a, h), isMatch) ∧
      Pooled q a (fun ginfo => (q.groups ginfo).isSome) maxPlayers ∧
      Pooled q h (fun ginfo => (q.groups ginfo).isSome) maxPlayers := by
  have start : ∀ index, Pooled q
      (q.selectUntil minPlayers maxPlayers .init (q.queuedGroups bracketId index)).1
        (fun ginfo => (q.groups ginfo).isSome) maxPlayers ∧ _ := fun index =>
    (pooled_init _ maxPlayers).selectUntil (q.queuedGroups bracketId index)
      (fun ginfo member => consistent.isSome member) needsPlayers
  obtain ⟨a, aliRest, enoughA⟩ := start BG_QUEUE_NORMAL_ALLIANCE
  obtain ⟨h, hordeRest, enoughH⟩ := start BG_QUEUE_NORMAL_HORDE
  have unchanged : ∀ rest : List Nat, rest ≠ [] →
      { q with misused := q.misused || rest.isEmpty } = q := by
    intro rest notNil
    rw [List.isEmpty_eq_false_iff.mpr notNil, Bool.or_false]
  have ofTail : ∀ {rest : List Nat}, (∀ ginfo ∈ rest, (q.groups ginfo).isSome) →
      ∀ ginfo ∈ rest.tail, (q.groups ginfo).isSome :=
    fun areThere ginfo member => areThere ginfo (mem_of_mem_tail member)
  unfold checkNormalMatch
  simp only
  split
  · rename_i enough
    obtain ⟨-, manyH, manyA⟩ := enough
    split
    · simp only [unchanged _ (enoughH manyH)]
      have h' := h.selectFrom a.atMost _ (ofTail hordeRest)
      split
      · exact ⟨_, _, false, rfl, a, h'⟩
      · exact ⟨_, _, true, rfl, a, h'⟩
    · simp only [unchanged _ (enoughA manyA)]
      have a' := a.selectFrom h.atMost _ (ofTail aliRest)
      split
      · exact ⟨_, _, false, rfl, a', h⟩
      · exact ⟨_, _, true, rfl, a', h⟩
  · exact ⟨_, _, _, rfl, a, h⟩

theorem Consistent.nodup_list (consistent : Consistent q) :
    (q.queuedGroups bracketId index).Nodup := by
  rw [nodup_iff_count_le_one]
  intro ginfo
  by_cases member : ginfo ∈ q.queuedGroups bracketId index
  · obtain ⟨group, isThere⟩ := consistent.listed bracketId index ginfo member
    obtain ⟨b, i, placed, -⟩ := consistent.placed ginfo group isThere
    rw [placed bracketId index]
    split <;> omega
  · rw [List.count_eq_zero.mpr member]
    exact Nat.zero_le 1

def behind (last : Nat) (list : List Nat) : List Nat := (list.dropWhile (· ≠ last)).tail

variable {last : Nat} {list : List Nat}

theorem split_behind (member : last ∈ list) :
    list.dropWhile (· ≠ last) = last :: behind last list := by
  induction list with
  | nil => cases member
  | cons head rest ih =>
    rcases eq_or_ne head last with rfl | notLast
    · rw [behind, dropWhile_cons_of_neg (by simp)]
      rfl
    · have later := ih ((List.mem_cons.mp member).resolve_left (Ne.symm notLast))
      rw [behind, dropWhile_cons_of_pos (by simpa using notLast)]
      exact later

theorem takeWhile_append_behind (member : last ∈ list) :
    list.takeWhile (· ≠ last) ++ last :: behind last list = list := by
  rw [← split_behind member]
  exact takeWhile_append_dropWhile

theorem behind_takeWhile (list rest : List Nat) :
    behind last (list.takeWhile (· ≠ last) ++ last :: rest) = rest := by
  induction list with
  | nil =>
    rw [takeWhile_nil, nil_append, behind, dropWhile_cons_of_neg (by simp)]
    rfl
  | cons head tail ih =>
    rcases eq_or_ne head last with rfl | notLast
    · rw [takeWhile_cons_of_neg (by simp), nil_append, behind, dropWhile_cons_of_neg (by simp)]
      rfl
    · rw [takeWhile_cons_of_pos (by simpa using notLast), cons_append, behind,
        dropWhile_cons_of_pos (by simpa using notLast)]
      exact ih

theorem erase_behind (nodup : list.Nodup) (member : last ∈ list)
    (isBehind : ginfo ∈ behind last list) :
    list.erase ginfo = list.takeWhile (· ≠ last) ++ last :: (behind last list).erase ginfo := by
  have isList := takeWhile_append_behind member
  generalize list.takeWhile (· ≠ last) = before at isList ⊢
  generalize behind last list = rest at isList isBehind ⊢
  obtain rfl : list = before ++ last :: rest := isList.symm
  obtain ⟨-, nodupRest, apart⟩ := List.nodup_append.mp nodup
  have notBefore : ginfo ∉ before := fun isBefore =>
    apart ginfo isBefore ginfo (mem_cons_of_mem last isBehind) rfl
  have notLast : last ≠ ginfo := fun same => (List.nodup_cons.mp nodupRest).1 (same ▸ isBehind)
  rw [erase_append_right _ notBefore, erase_cons_tail (by simpa using notLast)]

/-- **A group changes sides**, and its old entry goes where it is behind the last that is selected. -/
theorem changeSides_spec (steady : Steady q) {horde : Bool}
    (isIn : last ∈ q.queuedGroups bracketId ⟨true, horde⟩)
    (isBehind : ginfo ∈ behind last (q.queuedGroups bracketId ⟨true, horde⟩)) :
    Steady (q.changeSides bracketId horde last ginfo) ∧
      SameGroups q (q.changeSides bracketId horde last ginfo) ∧
      last ∈ (q.changeSides bracketId horde last ginfo).queuedGroups bracketId ⟨true, horde⟩ ∧
      behind last ((q.changeSides bracketId horde last ginfo).queuedGroups bracketId ⟨true, horde⟩) =
        (behind last (q.queuedGroups bracketId ⟨true, horde⟩)).erase ginfo := by
  let list := q.queuedGroups bracketId ⟨true, horde⟩
  have isList : list.takeWhile (· ≠ last) ++ last :: behind last list = list :=
    takeWhile_append_behind isIn
  have member : ginfo ∈ list := by
    rw [← isList]
    exact mem_append_right _ (mem_cons_of_mem last isBehind)
  obtain ⟨group, isThere⟩ := steady.consistent.listed bracketId _ ginfo member
  obtain ⟨b, i, placed, -⟩ := steady.consistent.placed ginfo group isThere
  obtain ⟨rfl, rfl⟩ := placed.mem_iff.mp member
  let group' : GroupQueueInfo := { group with team := if horde then .alliance else .horde }
  let list' := list.takeWhile (· ≠ last) ++ last :: (behind last list).erase ginfo
  have apart : (⟨true, horde⟩ : QueueGroupType) ≠ ⟨true, !horde⟩ := by
    cases horde <;> (intro same; cases same)
  let opened := (q.put ginfo group').setList bracketId ⟨true, !horde⟩
    (ginfo :: q.queuedGroups bracketId ⟨true, !horde⟩)
  have unchanged : opened.queuedGroups bracketId ⟨true, horde⟩ = list := if_neg fun both => apart both.2
  have isChange : q.changeSides bracketId horde last ginfo =
      opened.setList bracketId ⟨true, horde⟩ list' := by
    unfold changeSides
    simp only [isThere]
    rw [show ((q.put ginfo { group with team := if horde then .alliance else .horde }).setList
        bracketId ⟨true, !horde⟩ (ginfo :: (q.put ginfo { group with
          team := if horde then .alliance else .horde }).queuedGroups bracketId
            ⟨true, !horde⟩)).queuedGroups bracketId ⟨true, horde⟩ = list from unchanged]
    rw [split_behind isIn]
    rfl
  rw [isChange]
  have erased : list.erase ginfo = list' := erase_behind steady.consistent.nodup_list isIn isBehind
  have atSource : (opened.setList bracketId ⟨true, horde⟩ list').queuedGroups bracketId ⟨true, horde⟩ =
      list' := if_pos ⟨rfl, rfl⟩
  have moved : Moved q (opened.setList bracketId ⟨true, horde⟩ list') bracketId ⟨true, horde⟩
      ⟨true, !horde⟩ ginfo := by
    refine ⟨apart, ?_, ?_, ?_⟩
    · rw [atSource, ← erased]
    · exact (if_neg fun both => apart both.2.symm).trans (if_pos ⟨rfl, rfl⟩)
    · intro b i notSource notTarget
      exact (if_neg notSource).trans (if_neg notTarget)
  refine ⟨?_, sameGroups_put ginfo group', ?_, ?_⟩
  · apply steady.of_moved isThere moved member rfl rfl rfl rfl rfl
    · cases horde <;> rfl
    · intro same
      cases same
  · rw [atSource]
    exact mem_append_right _ mem_cons_self
  · rw [atSource]
    exact behind_takeWhile _ _

theorem changeSides_all {horde : Bool} (selected : List Nat) :
    ∀ {q : BattlegroundQueue}, Steady q → last ∈ q.queuedGroups bracketId ⟨true, horde⟩ →
      selected.Nodup →
      (∀ ginfo ∈ selected, ginfo ∈ behind last (q.queuedGroups bracketId ⟨true, horde⟩)) →
      Steady (selected.foldl (fun q ginfo => q.changeSides bracketId horde last ginfo) q) ∧
        SameGroups q (selected.foldl (fun q ginfo => q.changeSides bracketId horde last ginfo) q) := by
  induction selected with
  | nil => exact fun steady _ _ _ => ⟨steady, fun _ isSome => isSome⟩
  | cons ginfo rest ih =>
    intro q steady isIn nodup areBehind
    obtain ⟨notLater, nodupRest⟩ := List.nodup_cons.mp nodup
    obtain ⟨now, same, stillIn, left⟩ :=
      changeSides_spec steady isIn (areBehind ginfo mem_cons_self)
    obtain ⟨later, sameLater⟩ := ih now stillIn nodupRest fun other member => by
      have notIt : other ≠ ginfo := fun isIt => notLater (isIt ▸ member)
      rw [left]
      exact (mem_erase_of_ne notIt).mpr (areBehind other (mem_cons_of_mem ginfo member))
    exact ⟨later, fun other isSome => sameLater other (same other isSome)⟩

theorem checkSkirmish_spec (steady : Steady q) {maxPlayers : Nat} {a h : SelectionPool}
    (needsPlayers : 0 < minPlayers) (oneSize : maxPlayers ≤ minPlayers)
    (alliance : Pooled q a (fun ginfo => (q.groups ginfo).isSome) maxPlayers)
    (hordes : Pooled q h (fun ginfo => (q.groups ginfo).isSome) maxPlayers) :
    ∃ q' pools isMatch, q.checkSkirmishForSameFaction bracketId minPlayers (a, h) =
        (q', pools, isMatch) ∧ Steady q' ∧ (isMatch = true →
      ∀ ginfo ∈ pools.1.selectedGroups ++ pools.2.selectedGroups, (q'.groups ginfo).isSome) := by
  unfold checkSkirmishForSameFaction
  simp only
  split
  · exact ⟨q, (a, h), false, rfl, steady, nofun⟩
  rename_i enough
  have noMore := hordes.atMost
  have notEmpty : (if decide (h.playerCount = minPlayers) then h else a).selectedGroups ≠ [] := by
    split
    · rename_i isHorde
      have isMin : h.playerCount = minPlayers := of_decide_eq_true isHorde
      apply hordes.filled
      omega
    · rename_i notHorde
      have notMin : h.playerCount ≠ minPlayers := fun same => notHorde (decide_eq_true same)
      apply alliance.filled
      omega
  have ofOwn : ∀ ginfo ∈ (if decide (h.playerCount = minPlayers) then h else a).selectedGroups,
      (q.groups ginfo).isSome := by
    split
    · exact hordes.allowed
    · exact alliance.allowed
  split
  · rename_i isLast
    exact absurd (List.getLast?_eq_none_iff.mp isLast) notEmpty
  rename_i last isLast
  split
  · exact ⟨q, _, false, rfl, steady, nofun⟩
  rename_i head rest isRest
  split
  · exact ⟨q, _, false, rfl, steady, nofun⟩
  have isIn : last ∈ q.queuedGroups bracketId ⟨true, decide (h.playerCount = minPlayers)⟩ := by
    by_contra notIn
    have nothing : (q.queuedGroups bracketId
        ⟨true, decide (h.playerCount = minPlayers)⟩).dropWhile (· ≠ last) = [] :=
      List.dropWhile_eq_nil_iff.mpr fun other member =>
        decide_eq_true fun isLast => notIn (isLast ▸ member)
    rw [nothing] at isRest
    cases isRest
  have isBehind : rest =
      behind last (q.queuedGroups bracketId ⟨true, decide (h.playerCount = minPlayers)⟩) := by
    rw [behind, isRest]
    rfl
  obtain ⟨selected, isSublist, isAll⟩ :=
    selectFrom_sublist (q := q) minPlayers rest SelectionPool.init
  have isSelected : (q.selectFrom minPlayers .init rest).selectedGroups = selected := isAll
  have inBehind : ∀ ginfo ∈ selected, ginfo ∈
      behind last (q.queuedGroups bracketId ⟨true, decide (h.playerCount = minPlayers)⟩) := by
    intro ginfo member
    rw [← isBehind]
    exact isSublist.subset member
  have ofList : ∀ ginfo ∈ selected, ginfo ∈
      q.queuedGroups bracketId ⟨true, decide (h.playerCount = minPlayers)⟩ := by
    intro ginfo member
    rw [← takeWhile_append_behind isIn]
    exact mem_append_right _ (mem_cons_of_mem last (inBehind ginfo member))
  have nodup : selected.Nodup := by
    have all : (q.queuedGroups bracketId ⟨true, decide (h.playerCount = minPlayers)⟩).Nodup :=
      steady.consistent.nodup_list
    rw [← takeWhile_append_behind isIn] at all
    have tail := (List.nodup_append.mp all).2.1
    rw [← isBehind] at tail
    exact isSublist.nodup (List.nodup_cons.mp tail).2
  obtain ⟨later, same⟩ := changeSides_all selected steady isIn nodup inBehind
  have areThere : ∀ ginfo ∈ selected, (q.groups ginfo).isSome :=
    fun ginfo member => steady.consistent.isSome (ofList ginfo member)
  rw [isSelected]
  refine ⟨_, _, true, rfl, later, fun _ ginfo member => same ginfo ?_⟩
  split at member
  · rename_i isHorde
    rw [if_pos isHorde] at ofOwn
    rcases List.mem_append.mp member with isOther | isOwn
    · rw [isSelected] at isOther
      exact areThere ginfo isOther
    · exact ofOwn ginfo isOwn
  · rename_i notHorde
    rw [if_neg notHorde] at ofOwn
    rcases List.mem_append.mp member with isOwn | isOther
    · exact ofOwn ginfo isOwn
    · rw [isSelected] at isOther
      exact areThere ginfo isOther

/-! ## Rated matches -/

theorem exists_of_is {p : GroupQueueInfo → Bool} (isP : q.is p ginfo = true) :
    ∃ group, q.groups ginfo = some group ∧ p group = true :=
  (Option.any_eq_true p (q.groups ginfo)).mp isP

theorem secondTeam_spec {p : GroupQueueInfo → Bool} {first second : Nat}
    (isSecond : q.secondTeam p list first = some second) : second ∈ list ∧ second ≠ first := by
  have found := find?_some isSecond
  have member := mem_of_find?_eq_some isSecond
  refine ⟨(dropWhile_suffix _).subset member, ?_⟩
  rintro rfl
  obtain ⟨group, isThere, both⟩ := exists_of_is found
  obtain ⟨group', isThere', otherLeader⟩ := exists_of_is (Bool.and_eq_true_iff.mp both).2
  obtain rfl := Option.some.inj (isThere.symm.trans isThere')
  exact of_decide_eq_true otherLeader rfl

theorem ratedTeams_spec {p : GroupQueueInfo → Bool} {aTeam hTeam : Nat} {aList hList : QueueGroupType}
    (teams : q.ratedTeams bracketId p = some ((aTeam, aList), (hTeam, hList)))
    (consistent : Consistent q) :
    hTeam ≠ aTeam ∧ aTeam ∈ q.queuedGroups bracketId aList ∧ hTeam ∈ q.queuedGroups bracketId hList ∧
      aList.normal = false ∧ hList.normal = false := by
  unfold ratedTeams at teams
  simp only at teams
  split at teams
  · rename_i first second isFirst isSecond
    obtain ⟨⟨⟩, ⟨⟩⟩ := teams
    have inA := mem_of_find?_eq_some isFirst
    have inH := mem_of_find?_eq_some isSecond
    refine ⟨?_, inA, inH, rfl, rfl⟩
    rintro rfl
    obtain ⟨group, isThere⟩ := consistent.listed bracketId _ _ inA
    obtain ⟨b, i, placed, -⟩ := consistent.placed _ group isThere
    have same := (placed.mem_iff.mp inA).2.trans (placed.mem_iff.mp inH).2.symm
    cases same
  · rename_i first isFirst isSecond
    obtain ⟨second, isOther, isTeams⟩ := Option.map_eq_some_iff.mp teams
    obtain ⟨member, apart⟩ := secondTeam_spec isOther
    obtain ⟨⟨⟩, ⟨⟩⟩ := isTeams
    exact ⟨apart, mem_of_find?_eq_some isFirst, member, rfl, rfl⟩
  · rename_i first isFirst isSecond
    obtain ⟨second, isOther, isTeams⟩ := Option.map_eq_some_iff.mp teams
    obtain ⟨member, apart⟩ := secondTeam_spec isOther
    obtain ⟨⟨⟩, ⟨⟩⟩ := isTeams
    exact ⟨apart, mem_of_find?_eq_some isSecond, member, rfl, rfl⟩
  · cases teams

theorem moveRated_cases (steady : Steady q) {side : Team} (isSide : side ≠ .neutral)
    (isThere : q.groups ginfo = some group) (member : ginfo ∈ q.queuedGroups bracketId index)
    (isRated : index.normal = false) :
    (group.team = side ∧ q.moveRated bracketId side ginfo index = q) ∨
      (index = ⟨false, side ≠ .horde⟩ ∧ q.moveRated bracketId side ginfo index =
        q.moveToFront bracketId ⟨false, side ≠ .horde⟩ ⟨false, side = .horde⟩ ginfo) := by
  obtain ⟨b, i, placed, ofTeam⟩ := steady.consistent.placed ginfo group isThere
  obtain ⟨rfl, rfl⟩ := placed.mem_iff.mp member
  have isIt : q.is (fun group => group.team ≠ side) ginfo = decide (group.team ≠ side) := by
    rw [is, isThere]
    rfl
  unfold moveRated
  simp only [isIt]
  by_cases sameTeam : group.team = side
  · refine Or.inl ⟨sameTeam, ?_⟩
    rw [if_neg (by simpa using sameTeam)]
  have isSource : index = ⟨false, side ≠ .horde⟩ := by
    obtain ⟨normal, horde⟩ := index
    obtain rfl : normal = false := isRated
    cases side with
    | neutral => exact absurd rfl isSide
    | alliance =>
      cases horde with
      | true => rfl
      | false => exact absurd (steady.sided bracketId ginfo member group isThere) sameTeam
    | horde =>
      obtain rfl : horde = false := ofTeam.trans (decide_eq_false sameTeam)
      rfl
  exact Or.inr ⟨isSource, (if_pos (decide_eq_true sameTeam)).trans (if_pos isSource)⟩

theorem steady_rated (steady : Steady q) {side : Team} (isSide : side ≠ .neutral) (bg now : Nat)
    (member : ginfo ∈ q.queuedGroups bracketId index) (isRated : index.normal = false) :
    Steady ((q.moveRated bracketId side ginfo index).inviteGroupToBG ginfo bg side now) ∧
      ∀ other, other ≠ ginfo → ∀ i, other ∈ q.queuedGroups bracketId i →
        other ∈ ((q.moveRated bracketId side ginfo index).inviteGroupToBG ginfo bg side now).queuedGroups
          bracketId i := by
  obtain ⟨group, isThere⟩ := steady.consistent.listed bracketId index ginfo member
  rcases moveRated_cases steady isSide isThere member isRated with ⟨sameTeam, stays⟩ | ⟨rfl, moves⟩
  · obtain ⟨group', invited, isTeam, samePlayers⟩ := inviteGroupToBG_groups bg now side isThere
    rw [stays, invited]
    exact ⟨steady.of_put isThere (isTeam.trans sameTeam.symm) samePlayers, fun _ _ _ isIn => isIn⟩
  let q₁ := q.moveToFront bracketId ⟨false, side ≠ .horde⟩ ⟨false, side = .horde⟩ ginfo
  have isThere₁ : q₁.groups ginfo = some group := isThere
  obtain ⟨group', invited, isTeam, samePlayers⟩ := inviteGroupToBG_groups bg now side isThere₁
  have apart : (⟨false, side ≠ .horde⟩ : QueueGroupType) ≠ ⟨false, side = .horde⟩ := by
    cases side <;> nofun
  have moved : Moved q (q₁.put ginfo group') bracketId ⟨false, side ≠ .horde⟩ ⟨false, side = .horde⟩
      ginfo := ⟨apart, (moved_moveToFront apart).atSource, (moved_moveToFront apart).atTarget,
    (moved_moveToFront apart).elsewhere⟩
  rw [moves, invited]
  refine ⟨?_, fun other notIt i isIn => ?_⟩
  · apply steady.of_moved isThere moved member rfl samePlayers rfl rfl rfl
    · rw [isTeam]
    intro isTarget
    rw [isTeam]
    cases side with
    | alliance => rfl
    | horde => cases isTarget
    | neutral => exact absurd rfl isSide
  · rw [← count_pos_iff] at isIn ⊢
    rwa [moved.count_of_ne notIt]

theorem moveRated_inviteGroupToBG {other : Nat} (apart : other ≠ ginfo) {side side' : Team} (bg now : Nat)
    (isThere : q.groups ginfo = some group) :
    (q.moveRated bracketId side' other index).inviteGroupToBG ginfo bg side now =
      (q.inviteGroupToBG ginfo bg side now).moveRated bracketId side' other index := by
  have put : ∀ group', (q.moveRated bracketId side' other index).put ginfo group' =
      (q.put ginfo group').moveRated bracketId side' other index := by
    intro group'
    have same : (q.put ginfo group').is (fun group => group.team ≠ side') other =
        q.is (fun group => group.team ≠ side') other := by
      rw [is, is]
      exact congrArg _ (Function.update_of_ne apart _ _)
    unfold moveRated
    simp only [same]
    split
    · split
      · rfl
      · rfl
    · rfl
  have isThere' : (q.moveRated bracketId side' other index).groups ginfo = some group := by
    unfold moveRated
    simp only
    split
    · split
      · exact isThere
      · exact isThere
    · exact isThere
  unfold inviteGroupToBG
  simp only [isThere, isThere']
  split
  · exact put _
  · exact put _

theorem steady_updateRated (steady : Steady q) (u : Update) : Steady (q.updateRated u) := by
  unfold updateRated
  split
  · exact steady
  simp only
  split
  · rename_i aTeam aList hTeam hList arena teams isArena
    obtain ⟨apart, inA, inH, ratedA, ratedH⟩ := ratedTeams_spec teams steady.consistent
    have allianceSide : Team.alliance ≠ .neutral := nofun
    have hordeSide : Team.horde ≠ .neutral := nofun
    obtain ⟨first, inLater⟩ := steady_rated steady allianceSide arena u.now inA ratedA
    obtain ⟨group, isThere⟩ := steady.consistent.listed _ _ aTeam inA
    have isThere' : ∃ group', (q.moveRated u.bracketId .alliance aTeam aList).groups aTeam =
        some group' := by
      rcases moveRated_cases steady allianceSide isThere inA ratedA with
        ⟨-, stays⟩ | ⟨-, moves⟩
      · exact ⟨group, by rw [stays]; exact isThere⟩
      · exact ⟨group, by rw [moves]; exact isThere⟩
    obtain ⟨group', isThere'⟩ := isThere'
    rw [moveRated_inviteGroupToBG apart arena u.now isThere']
    exact (steady_rated first hordeSide arena u.now (inLater hTeam apart hList inH) ratedH).1
  · exact steady

/-- What an update of the normal branch takes for granted: that players are needed, and for an arena that
a team has one size. -/
def Update.Sound (u : Update) : Prop :=
  u.isRated ∨ (0 < u.minPlayers ∧ (u.isArena → u.maxPlayers ≤ u.minPlayers))

instance (u : Update) : Decidable u.Sound :=
  inferInstanceAs (Decidable (u.isRated = true ∨ _ ∧ (u.isArena = true → _)))

theorem steady_updateNormal (steady : Steady q) {u : Update} (needsPlayers : 0 < u.minPlayers)
    (oneSize : u.isArena → u.maxPlayers ≤ u.minPlayers) : Steady (q.updateNormal u) := by
  obtain ⟨a, h, isNormal, isCheck, alliance, hordes⟩ := checkNormalMatch_spec u.bracketId u.maxPlayers
    steady.consistent needsPlayers u.invitationType u.isTesting
  have matched : ∃ q' pools isMatch, (if isNormal then (q, (a, h), true)
      else if u.isArena then q.checkSkirmishForSameFaction u.bracketId u.minPlayers (a, h)
      else (q, (a, h), false)) = (q', pools, isMatch) ∧ Steady q' ∧ (isMatch = true →
        ∀ ginfo ∈ pools.1.selectedGroups ++ pools.2.selectedGroups, (q'.groups ginfo).isSome) := by
    split
    · refine ⟨q, (a, h), true, rfl, steady, fun _ ginfo member => ?_⟩
      rcases List.mem_append.mp member with isA | isH
      · exact alliance.allowed ginfo isA
      · exact hordes.allowed ginfo isH
    · split
      · rename_i isArena
        exact checkSkirmish_spec steady needsPlayers (oneSize isArena) alliance hordes
      · exact ⟨q, (a, h), false, rfl, steady, nofun⟩
  obtain ⟨q', pools, isMatch, isMatched, steady', areThere⟩ := matched
  unfold updateNormal
  simp only [isCheck, isMatched]
  split
  · exact (steady_inviteAll _ u.now _ steady' (areThere rfl)).1
  · exact steady'

theorem steady_updateBranch (steady : Steady q) {u : Update} (sound : u.Sound) :
    Steady (q.updateBranch u) := by
  unfold updateBranch
  split
  · rename_i notRated
    rcases sound with isRated | ⟨needsPlayers, oneSize⟩
    · rw [isRated] at notRated
      cases notRated
    · exact steady_updateNormal steady needsPlayers oneSize
  · split
    · exact steady_updateRated steady u
    · exact steady

theorem steady_battlegroundQueueUpdate (steady : Steady q) {u : Update} (sound : u.Sound) :
    Steady (q.battlegroundQueueUpdate u) := by
  have now : Steady (u.fills.foldl (fun q running => q.fill u.bracketId u.now running.1 running.2) q) :=
    List.foldlRecOn _ _ steady fun _ steady running _ => steady_fill steady u.now running.1 running.2
  unfold battlegroundQueueUpdate
  split
  · exact steady
  simp only
  split
  · exact now
  split
  · exact steady_updateBranch now sound
  obtain ⟨checked, areThere⟩ := checkPremadeMatch_spec u.bracketId now u.minPlayers
    u.maxPlayers (u.before u.premadeWait)
  split
  · rename_i isCheck
    rw [isCheck] at checked
    exact steady_updateBranch checked sound
  · rename_i isCheck _
    rw [isCheck] at checked
    exact checked
  · rename_i a h bg isCheck _
    rw [isCheck] at checked areThere
    exact steady_updateBranch (steady_inviteAll bg u.now _ checked (areThere (a, h) rfl)).1 sound

/-- What an input has to meet: players join who are not in the queue, premade and rated groups are of a
side, and an update is sound. -/
def Sound (q : BattlegroundQueue) : Input → Prop
  | .addGroup _ leader team others isRated isPremade _ _ =>
    (∀ guid ∈ leader :: others, q.groupOf guid = none) ∧ (isRated ∨ isPremade → team ≠ .neutral)
  | .update u => u.Sound
  | _ => True

instance (q : BattlegroundQueue) : ∀ input, Decidable (Sound q input)
  | .addGroup _ leader team others isRated isPremade _ _ =>
    have : Decidable (∀ guid ∈ leader :: others, q.groupOf guid = none) :=
      List.decidableBAll _ (leader :: others)
    inferInstanceAs (Decidable ((∀ guid ∈ leader :: others, q.groupOf guid = none) ∧
      (isRated = true ∨ isPremade = true → team ≠ .neutral)))
  | .update u => inferInstanceAs (Decidable u.Sound)
  | .removePlayer _ => isTrue trivial
  | .inviteGroupToBG _ _ _ => isTrue trivial
  | .inviteEvent => isTrue trivial
  | .removeEvent _ _ _ => isTrue trivial

theorem steady_step (steady : Steady q) {input : Input} (sound : Sound q input) :
    Steady (q.step input) := by
  cases input with
  | addGroup bracketId leader team others isRated isPremade joinTime matchmakerRating =>
    exact steady_addGroup steady sound.1 sound.2
  | removePlayer guid => exact steady_removePlayers _ guid steady
  | inviteGroupToBG ginfo bg now =>
    rw [step]
    split
    · rename_i isSome
      exact (steady_inviteSelected steady bg now isSome).1
    · exact steady
  | update u => exact steady_battlegroundQueueUpdate steady sound
  | inviteEvent => exact steady
  | removeEvent guid bgInstanceGuid removeTime =>
    rw [step]
    split
    · exact steady_removePlayers _ guid steady
    · exact steady

theorem steady_initial : Steady initial :=
  ⟨⟨rfl, nofun, nofun, nofun, nofun, nofun, nofun⟩, nofun, nofun⟩

/-- **The queue is consistent throughout** a run of sound inputs. -/
theorem queue_consistent (inputs : List Input) (sound : Machine.EachStep step Sound initial inputs) :
    Machine.Throughout step Consistent initial inputs := by
  have steady : Machine.Throughout step Steady initial inputs :=
    Machine.Throughout.of_eachStep steady_initial (fun _ _ steady sound => steady_step steady sound) sound
  exact Machine.Throughout.mono (fun _ steady => steady.consistent) steady

/-- A group of two and a rated team that another is found for, with one that leaves -/
def twoRated : List Input :=
  [.addGroup 3 1 .alliance [2] true false 10 1500, .addGroup 3 5 .alliance [4] true false 20 1500,
    .update ⟨3, 30, [], true, true, 2, true, 0, 0, 0, false, false, 0, 0, 100, 0, none, some 7⟩,
    .removePlayer 5]

theorem consistent_twoRated :
    Machine.EachStep step Sound initial twoRated ∧ Machine.Throughout step Consistent initial twoRated := by
  have sound : Machine.EachStep step Sound initial twoRated := by decide
  exact ⟨sound, queue_consistent twoRated sound⟩

/-- **A player joins twice**, and the group that he is in first has no entry of his. -/
theorem joined_twice : ¬∀ inputs, Machine.Throughout step Consistent initial inputs := by
  intro always
  have consistent := (always [.addGroup 0 1 .alliance [] false false 10 0,
    .addGroup 0 2 .alliance [1] false false 20 0]).last
  have linked := (consistent.linked 0 ⟨[1], .alliance, 1, false, 10, 0, 0, 0⟩ 1 rfl).mp
    mem_cons_self
  revert linked
  decide

end BattlegroundQueue

end Sky548
