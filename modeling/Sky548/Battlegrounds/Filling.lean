import Sky548.Battlegrounds.Matches

/-!
# Filling a battleground that runs

`FillPlayersToBG` fills the selection pools of both teams, and then kicks and selects groups in turn
until the free slots that are left are even, or one team has nobody to invite. Each turn takes a group
out of a pool or an iterator further, so that the loop ends (`even_spec`).
-/

namespace Sky548

open List

/-- What `FillPlayersToBG` keeps for a team: the slots that were free, the selection, and the groups
from the iterator on -/
structure TeamFill where
  free : Nat
  pool : SelectionPool
  waiting : List Nat

namespace TeamFill

variable (q : BattlegroundQueue) (t : TeamFill)

/-- The slots that the selection leaves free -/
def diff : Int := (t.free : Int) - t.pool.playerCount

/-- Groups are added until one is not and no player is wanted any more. -/
def addGroups (desiredCount : Nat) : SelectionPool → List Nat → SelectionPool × List Nat
  | pool, [] => (pool, [])
  | pool, ginfo :: rest =>
    match q.select pool ginfo desiredCount with
    | (pool, true) => addGroups desiredCount pool rest
    | (pool, false) => (pool, ginfo :: rest)

def add (desiredCount : Nat) : TeamFill :=
  let (pool, waiting) := addGroups q desiredCount t.pool t.waiting
  { t with
    pool := pool
    waiting := waiting }

/-- The group that `KickGroup` finds: the last whose size is about the one that is asked for, or else
the last of the largest -/
def groupToKick (size : Nat) (first : Nat) (groups : List Nat) : Nat × Bool :=
  groups.foldl (fun (kick, found) itr =>
    if ((q.size itr : Int) - size).natAbs ≤ 1 then (itr, true)
    else if !found && q.size itr ≥ q.size kick then (itr, found)
    else (kick, found)) (first, false)

/-- `KickGroup`, with whether a new group should be added -/
def kickGroup (size : Nat) : TeamFill × Bool :=
  match t.pool.selectedGroups with
  | [] => (t, true)
  | first :: rest =>
    let (kick, _) := groupToKick q size first (first :: rest)
    if t.pool.playerCount ≠ 0 then
      ({ t with pool := ⟨t.pool.selectedGroups.erase kick, t.pool.playerCount - q.size kick⟩ },
        !(q.size kick ≤ size + 1))
    else (t, true)

/-- A turn of the loop, for the team that has less free slots left and the other one, with whether to
break -/
def turn (own other : TeamFill) : (TeamFill × TeamFill) × Bool :=
  let size := (other.diff - own.diff).toNat
  let (kicked, more) := own.kickGroup q size
  let next := if more then kicked.add q (own.free - other.diff).toNat else kicked
  if next.pool.playerCount = 0 then
    if (own.free : Int) ≤ other.diff + 1 then ((next, other), true)
    else ((next, (other.kickGroup q size).1), false)
  else ((next, other), false)

/-- The loop, for so many turns at most -/
def even : Nat → TeamFill → TeamFill → Option (TeamFill × TeamFill)
  | 0, _, _ => none
  | turns + 1, ali, horde =>
    if (ali.diff - horde.diff).natAbs > 1 ∧ (horde.pool.playerCount > 0 ∨ ali.pool.playerCount > 0) then
      if ali.diff < horde.diff then
        match turn q ali horde with
        | ((ali, horde), true) => some (ali, horde)
        | ((ali, horde), false) => even turns ali horde
      else
        match turn q horde ali with
        | ((horde, ali), true) => some (ali, horde)
        | ((horde, ali), false) => even turns ali horde
    else some (ali, horde)

/-- The turns that are left at most: each group is added once and kicked once. -/
def turns : Nat := 2 * t.waiting.length + t.pool.selectedGroups.length

end TeamFill

/-- `FillPlayersToBG`: the teams' selections, and nothing if the loop does not end -/
def BattlegroundQueue.fillPlayersToBG (q : BattlegroundQueue) (bracketId : BattlegroundBracketId)
    (aliFree hordeFree invitationType : Nat) : Option (TeamFill × TeamFill) :=
  let ali := TeamFill.add q
    ⟨aliFree, .init, q.queuedGroups bracketId BG_QUEUE_NORMAL_ALLIANCE⟩ aliFree
  let horde := TeamFill.add q
    ⟨hordeFree, .init, q.queuedGroups bracketId BG_QUEUE_NORMAL_HORDE⟩ hordeFree
  if invitationType = 0 then some (ali, horde)
  else TeamFill.even q (ali.turns + horde.turns + 1) ali horde

namespace TeamFill

variable {q : BattlegroundQueue} {list : List Nat} {t own other : TeamFill}

/-- **A selection is sound**: it counts its players, none of its groups is invited, each is taken once
and in turn from the groups before the iterator, and there is room for it. -/
structure Sound (q : BattlegroundQueue) (list : List Nat) (t : TeamFill) : Prop where
  counted : t.pool.playerCount = (t.pool.selectedGroups.map q.size).sum
  taken : ∃ passed, list = passed ++ t.waiting ∧ t.pool.selectedGroups.Sublist passed
  uninvited : ∀ ginfo ∈ t.pool.selectedGroups, q.isInvited ginfo = false
  room : t.pool.playerCount ≤ t.free

theorem addGroups_sound {free desiredCount : Nat} (few : desiredCount ≤ free) (waiting : List Nat) :
    ∀ pool, Sound q list ⟨free, pool, waiting⟩ →
      let added := addGroups q desiredCount pool waiting
      Sound q list ⟨free, added.1, added.2⟩ ∧
        2 * added.2.length + added.1.selectedGroups.length ≤
          2 * waiting.length + pool.selectedGroups.length ∧
        (added.1 ≠ pool → 2 * added.2.length + added.1.selectedGroups.length <
          2 * waiting.length + pool.selectedGroups.length) := by
  induction waiting with
  | nil => exact fun pool sound => ⟨sound, Nat.le_refl _, fun changed => absurd rfl changed⟩
  | cons ginfo rest ih =>
    intro pool sound
    obtain ⟨passed, split, taken⟩ := sound.taken
    have split' : list = (passed ++ [ginfo]) ++ rest := by
      rw [split, append_assoc]
      rfl
    rw [addGroups, BattlegroundQueue.select]
    split
    · rename_i pool' isMore
      split at isMore
      · rename_i fits
        obtain ⟨rfl, -⟩ := Prod.mk.inj isMore
        have taking : Sound q list
            ⟨free, ⟨pool.selectedGroups ++ [ginfo], pool.playerCount + q.size ginfo⟩, rest⟩ := by
          refine ⟨?_, ⟨passed ++ [ginfo], split', taken.append (List.Sublist.refl _)⟩, ?_,
            fits.2.trans few⟩
          · rw [map_append, sum_append, ← sound.counted, map_singleton, sum_singleton]
          intro g member
          rcases List.mem_append.mp member with before | isNew
          · exact sound.uninvited g before
          · rw [List.mem_singleton.mp isNew]
            simpa using fits.1
        obtain ⟨later, atMost, -⟩ := ih _ taking
        simp only [length_append, length_singleton] at atMost
        simp only [length_cons]
        exact ⟨later, by omega, fun _ => by omega⟩
      · obtain ⟨rfl, -⟩ := Prod.mk.inj isMore
        obtain ⟨later, atMost, -⟩ := ih pool ⟨sound.counted,
          ⟨passed ++ [ginfo], split', taken.trans (sublist_append_left _ _)⟩, sound.uninvited,
          sound.room⟩
        simp only [length_cons]
        exact ⟨later, by omega, fun _ => by omega⟩
    · rename_i pool' isFull
      split at isFull
      · cases isFull
      · obtain ⟨rfl, -⟩ := Prod.mk.inj isFull
        exact ⟨sound, Nat.le_refl _, fun changed => absurd rfl changed⟩

theorem Sound.add (sound : Sound q list t) {desiredCount : Nat} (few : desiredCount ≤ t.free) :
    Sound q list (t.add q desiredCount) ∧ (t.add q desiredCount).turns ≤ t.turns ∧
      ((t.add q desiredCount).pool ≠ t.pool → (t.add q desiredCount).turns < t.turns) :=
  addGroups_sound few t.waiting t.pool sound

theorem groupToKick_mem {size first : Nat} {selected : List Nat} (isIn : first ∈ selected)
    (groups : List Nat) (subset : ∀ g ∈ groups, g ∈ selected) :
    (groupToKick q size first groups).1 ∈ selected := by
  refine foldlRecOn (motive := fun choice : Nat × Bool => choice.1 ∈ selected) groups _ isIn
    fun choice member g inGroups => ?_
  have isHere := subset g inGroups
  dsimp only
  split
  · exact isHere
  · split
    · exact isHere
    · exact member

theorem Sound.kickGroup (sound : Sound q list t) (size : Nat) :
    Sound q list (t.kickGroup q size).1 ∧ (t.kickGroup q size).1.free = t.free ∧
      (t.kickGroup q size).1.turns ≤ t.turns ∧
      (t.pool.playerCount ≠ 0 → (t.kickGroup q size).1.turns < t.turns) ∧
      (t.pool.playerCount = 0 → t.kickGroup q size = (t, true)) := by
  rw [TeamFill.kickGroup.eq_def]
  split
  · rename_i none
    refine ⟨sound, rfl, Nat.le_refl _, fun some => ?_, fun _ => rfl⟩
    have counted := sound.counted
    rw [none] at counted
    exact absurd counted some
  · rename_i first rest selected
    have isIn : (groupToKick q size first (first :: rest)).1 ∈ first :: rest :=
      groupToKick_mem mem_cons_self (first :: rest) fun _ member => member
    dsimp only
    generalize (groupToKick q size first (first :: rest)).1 = kick at isIn ⊢
    rw [← selected] at isIn
    split
    · rename_i notZero
      have kept := ((perm_cons_erase isIn).map q.size).sum_nat
      rw [map_cons, sum_cons, ← sound.counted] at kept
      have fewer := length_erase_of_mem isIn
      have some := length_pos_of_mem isIn
      obtain ⟨passed, split, taken⟩ := sound.taken
      have less : 2 * t.waiting.length + (t.pool.selectedGroups.erase kick).length < t.turns := by
        rw [turns, fewer]
        omega
      refine ⟨⟨?_, ⟨passed, split, List.erase_sublist.trans taken⟩, fun g member =>
        sound.uninvited g (mem_of_mem_erase member), (Nat.sub_le _ _).trans sound.room⟩, rfl,
        less.le, fun _ => less, fun zero => absurd zero notZero⟩
      dsimp only
      omega
    · rename_i zero
      exact ⟨sound, rfl, Nat.le_refl _, fun some => absurd some zero, fun _ => rfl⟩

theorem Sound.diff_nonneg (sound : Sound q list t) : 0 ≤ t.diff := by
  have room := sound.room
  rw [diff]
  omega

/-- **A turn** keeps both selections sound and brings the loop on, or ends it with nobody selected for
one team. -/
theorem turn_spec {list' : List Nat} (sound : Sound q list own) (sound' : Sound q list' other)
    (some : own.pool.playerCount > 0 ∨ other.pool.playerCount > 0) :
    let result := turn q own other
    Sound q list result.1.1 ∧ Sound q list' result.1.2 ∧ result.1.1.free = own.free ∧
      result.1.2.free = other.free ∧
      (result.2 = true → result.1.1.pool.playerCount = 0) ∧
      (result.2 = false → result.1.1.turns + result.1.2.turns < own.turns + other.turns) := by
  obtain ⟨kept, sameFree, atMost, less, same⟩ :=
    sound.kickGroup (other.diff - own.diff).toNat
  obtain ⟨kept', sameFree', atMost', less', -⟩ :=
    sound'.kickGroup (other.diff - own.diff).toNat
  have few : (own.free - other.diff).toNat ≤ (own.kickGroup q (other.diff - own.diff).toNat).1.free := by
    have nonneg := sound'.diff_nonneg
    rw [sameFree]
    omega
  obtain ⟨added, atMost₂, less₂⟩ := kept.add few
  rw [turn]
  dsimp only
  generalize other.kickGroup q (other.diff - own.diff).toNat = kicked' at *
  generalize own.kickGroup q (other.diff - own.diff).toNat = kicked at *
  have next : ∃ next, next = (if kicked.2 = true then kicked.1.add q (own.free - other.diff).toNat
        else kicked.1) ∧ Sound q list next ∧ next.free = own.free ∧ next.turns ≤ own.turns ∧
      (own.pool.playerCount ≠ 0 ∨ next.pool.playerCount ≠ 0 → next.turns < own.turns) := by
    refine ⟨_, rfl, ?_⟩
    split
    · refine ⟨added, sameFree, atMost₂.trans atMost, fun either => ?_⟩
      by_cases zero : own.pool.playerCount = 0
      · rw [same zero] at less₂ atMost₂ ⊢
        refine less₂ fun samePool => ?_
        rw [same zero, samePool] at either
        exact either.elim (fun h => h zero) fun h => h zero
      · exact atMost₂.trans_lt (less zero)
    · rename_i enough
      refine ⟨kept, sameFree, atMost, fun either => less fun zero => enough ?_⟩
      rw [same zero]
  obtain ⟨next, isNext, soundNext, freeNext, atMostNext, lessNext⟩ := next
  rw [← isNext]
  split
  · rename_i nobody
    split
    · exact ⟨soundNext, sound', freeNext, rfl, fun _ => nobody, fun isFalse => by cases isFalse⟩
    refine ⟨soundNext, kept', freeNext, sameFree', fun isTrue => (by cases isTrue), fun _ => ?_⟩
    dsimp only
    rcases Nat.eq_zero_or_pos own.pool.playerCount with zero | pos
    · have := less' (by omega)
      omega
    · have := lessNext (Or.inl (by omega))
      omega
  · rename_i somebody
    have := lessNext (Or.inr somebody)
    exact ⟨soundNext, sound', freeNext, rfl, fun isTrue => (by cases isTrue), fun _ => by
      dsimp only
      omega⟩

/-- **The loop ends**, with both selections sound, and with as many free slots left for both teams, but
for one, unless a team has nobody. -/
theorem even_spec {list' : List Nat} (n : Nat) : ∀ {ali horde : TeamFill}, Sound q list ali →
    Sound q list' horde → ali.turns + horde.turns < n →
    ∃ ali' horde', even q n ali horde = some (ali', horde') ∧ Sound q list ali' ∧
      Sound q list' horde' ∧ ali'.free = ali.free ∧ horde'.free = horde.free ∧
      (ali'.pool.playerCount ≠ 0 → horde'.pool.playerCount ≠ 0 →
        (ali'.diff - horde'.diff).natAbs ≤ 1) := by
  induction n with
  | zero => exact fun _ _ few => absurd few (Nat.not_lt_zero _)
  | succ n ih =>
    intro ali horde sound sound' few
    rw [even]
    split
    · rename_i uneven
      split
      · obtain ⟨next, next', free, free', stop, goOn⟩ :=
          turn_spec sound sound' (by omega : ali.pool.playerCount > 0 ∨ _)
        split
        · rename_i a h result
          rw [result] at next next' free free' stop
          exact ⟨a, h, rfl, next, next', free, free', fun some => absurd (stop rfl) some⟩
        rename_i a h result
        rw [result] at next next' free free' goOn
        obtain ⟨a', h', isEnd, rest⟩ := ih next next' (by have := goOn rfl; omega)
        exact ⟨a', h', isEnd, free ▸ free' ▸ rest⟩
      · obtain ⟨next, next', free, free', stop, goOn⟩ :=
          turn_spec sound' sound (by omega : horde.pool.playerCount > 0 ∨ _)
        split
        · rename_i h a result
          rw [result] at next next' free free' stop
          exact ⟨a, h, rfl, next', next, free', free, fun _ some => absurd (stop rfl) some⟩
        rename_i h a result
        rw [result] at next next' free free' goOn
        obtain ⟨a', h', isEnd, rest⟩ := ih next' next (by have := goOn rfl; omega)
        exact ⟨a', h', isEnd, free ▸ free' ▸ rest⟩
    · rename_i isDone
      refine ⟨ali, horde, rfl, sound, sound', rfl, rfl, fun some some' => ?_⟩
      by_contra uneven
      exact isDone ⟨by omega, by omega⟩

end TeamFill

/-- **Filling a running battleground** ends: what is selected for each team is sound, and even where
that is asked for. -/
theorem BattlegroundQueue.fillPlayersToBG_spec (q : BattlegroundQueue)
    (bracketId : BattlegroundBracketId) (aliFree hordeFree invitationType : Nat) :
    ∃ ali horde, q.fillPlayersToBG bracketId aliFree hordeFree invitationType = some (ali, horde) ∧
      TeamFill.Sound q (q.queuedGroups bracketId BG_QUEUE_NORMAL_ALLIANCE) ali ∧
      TeamFill.Sound q (q.queuedGroups bracketId BG_QUEUE_NORMAL_HORDE) horde ∧
      ali.free = aliFree ∧ horde.free = hordeFree ∧
      (invitationType ≠ 0 → ali.pool.playerCount ≠ 0 → horde.pool.playerCount ≠ 0 →
        (ali.diff - horde.diff).natAbs ≤ 1) := by
  have start : ∀ free index, TeamFill.Sound q (q.queuedGroups bracketId index)
      (TeamFill.add q ⟨free, .init, q.queuedGroups bracketId index⟩ free) := by
    intro free index
    have nothing : TeamFill.Sound q (q.queuedGroups bracketId index)
        ⟨free, .init, q.queuedGroups bracketId index⟩ :=
      ⟨rfl, ⟨[], rfl, List.Sublist.refl _⟩, fun _ member => absurd member not_mem_nil,
        Nat.zero_le _⟩
    exact (nothing.add (Nat.le_refl free)).1
  rw [fillPlayersToBG]
  split
  · rename_i asBefore
    exact ⟨_, _, rfl, start _ _, start _ _, rfl, rfl, fun evenly => absurd asBefore evenly⟩
  · obtain ⟨ali, horde, isEnd, sound, sound', free, free', isEven⟩ :=
      TeamFill.even_spec _ (start aliFree _) (start hordeFree _) (Nat.lt_succ_self _)
    exact ⟨ali, horde, isEnd, sound, sound', free, free', fun _ => isEven⟩

end Sky548
