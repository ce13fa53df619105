import Sky548.Combat.Taunts

/-!
# The victim

What `getHostilTarget` selects. It is always an online unit that can be attacked
(`attackable_selectNextVictim`). A current victim that can be attacked, and is no second choice,
stays unless another such unit exceeds it, and then the first in the list is taken
(`select_of_victim`).
-/

namespace Sky548

open List

namespace ThreatManager

variable (m : ThreatManager ℚ) (around : Battlefield ℚ)

def attackable (k : Nat) : Bool := (m.target around k).any ThreatUnit.canBeAttacked

def Ready (k : Nat) : Prop :=
  m.attackable around k = true ∧ (m.target around k).any ThreatUnit.secondChoice = false

def threatOf (k : Nat) : ℚ := m.getThreat exactThreat k

/-- It has so much more threat than the victim as it takes to replace it. -/
def Exceeds (victim k : Nat) : Prop :=
  13 / 10 * m.threatOf victim < m.threatOf k ∨ 11 / 10 * m.threatOf victim < m.threatOf k ∧
    (m.target around k).any ThreatUnit.isWithinMeleeRange = true

def InOrder (list : List Nat) : Prop := list.Pairwise fun j k => m.threatOf k ≤ m.threatOf j

/-- It takes the place of a victim that is ready. -/
structure Replaces (victim : Nat) (list : List Nat) (k : Nat) : Prop where
  ready : m.Ready around k
  exceeds : m.Exceeds around victim k
  most : m.InOrder list → ∀ j ∈ list, m.Ready around j → m.Exceeds around victim j →
    m.threatOf j ≤ m.threatOf k

variable {m m' : ThreatManager ℚ} {around : Battlefield ℚ} {victim ref k : Nat}

theorem selects_cases (ready : m.Ready around victim) (other : victim ≠ ref) :
    m.selects exactThreat around (some victim) ref = some victim ∨
    m.Exceeds around victim ref ∧ m.selects exactThreat around (some victim) ref = some ref ∨
    ¬ m.Exceeds around victim ref ∧ m.selects exactThreat around (some victim) ref = none := by
  have attackable : (m.target around victim).any ThreatUnit.canBeAttacked = true := ready.1
  rw [selects.eq_def]
  dsimp only
  rw [if_neg other]
  split
  · exact Or.inl rfl
  right
  split
  · rename_i exceeds
    refine Or.inl ⟨?_, rfl⟩
    simpa [exactThreat, Exceeds, threatOf] using exceeds
  · rename_i notExceeds
    refine Or.inr ⟨fun exceeds => notExceeds ?_, rfl⟩
    simpa [exactThreat, Exceeds, threatOf] using exceeds

theorem select_of_victim (ready : m.Ready around victim) (list : List Nat) : victim ∈ list →
    ∃ k, m.select exactThreat around false (some victim) list = .found (some k) ∧
      (k = victim ∨ m.Replaces around victim list k) := by
  induction list with
  | nil => exact fun isIn => absurd isIn not_mem_nil
  | cons ref rest ih =>
    intro isIn
    have later : victim ≠ ref → ¬ (m.Ready around ref ∧ m.Exceeds around victim ref) →
        ∃ k, m.select exactThreat around false (some victim) rest = .found (some k) ∧
        (k = victim ∨ m.Replaces around victim (ref :: rest) k) := by
      intro other passed
      obtain ⟨k, found, spec⟩ := ih ((List.mem_cons.mp isIn).resolve_left other)
      refine ⟨k, found, spec.imp_right fun replaces => ⟨replaces.ready, replaces.exceeds, ?_⟩⟩
      intro order j isJ readyJ exceedsJ
      rcases List.mem_cons.mp isJ with rfl | isJ
      · exact absurd ⟨readyJ, exceedsJ⟩ passed
      · exact replaces.most order.tail j isJ readyJ exceedsJ
    rw [select]
    cases second : (m.target around ref).any ThreatUnit.secondChoice with
    | true =>
      have other : victim ≠ ref := by
        rintro rfl
        exact Bool.false_ne_true (ready.2.symm.trans second)
      have notLast : rest ≠ [] := ne_nil_of_mem ((List.mem_cons.mp isIn).resolve_left other)
      rw [Bool.not_false, Bool.true_and, if_pos rfl, if_neg notLast,
        if_neg fun same => other (Option.some.inj same)]
      exact later other fun both => Bool.false_ne_true (both.1.2.symm.trans second)
    | false =>
      rw [Bool.and_false, if_neg Bool.false_ne_true]
      split
      · rename_i attackable
        by_cases own : victim = ref
        · subst own
          rw [selects.eq_def]
          dsimp only
          rw [if_pos rfl]
          exact ⟨victim, rfl, Or.inl rfl⟩
        · rcases selects_cases ready own with stays | ⟨exceeds, selected⟩ | ⟨notExceeds, selected⟩
          · rw [stays]
            exact ⟨victim, rfl, Or.inl rfl⟩
          · rw [selected]
            refine ⟨ref, rfl, Or.inr ⟨⟨attackable, second⟩, exceeds, fun order j isJ _ _ => ?_⟩⟩
            rcases List.mem_cons.mp isJ with rfl | isJ
            · exact le_refl _
            · exact (List.pairwise_cons.mp order).1 j isJ
          · rw [selected]
            exact later own fun both => notExceeds both.2
      · rename_i notAttackable
        refine later ?_ fun both => notAttackable both.1.1
        rintro rfl
        exact notAttackable ready.1

theorem select_of_none (list : List Nat) : (∃ j ∈ list, m.Ready around j) →
    ∃ k, m.select exactThreat around false none list = .found (some k) := by
  induction list with
  | nil => simp
  | cons ref rest ih =>
    rintro ⟨j, isIn, ready⟩
    rw [select]
    split
    · rename_i second
      have isLater : j ∈ rest := by
        rcases List.mem_cons.mp isIn with rfl | isLater
        · rw [ready.2] at second
          cases second
        · exact isLater
      rw [if_neg (ne_nil_of_mem isLater), ite_self]
      exact ih ⟨j, isLater, ready⟩
    split
    · exact ⟨ref, rfl⟩
    rename_i notAttackable
    rcases List.mem_cons.mp isIn with rfl | isLater
    · exact absurd ready.1 notAttackable
    · exact ih ⟨j, isLater, ready⟩

theorem attackable_select {noPriority : Bool} (list : List Nat) : ∀ currentVictim,
    m.select exactThreat around noPriority currentVictim list = .found (some k) →
    m.attackable around k = true := by
  induction list with
  | nil =>
    intro currentVictim found
    cases found
  | cons ref rest ih =>
    intro currentVictim found
    rw [select] at found
    split at found
    · split at found
      · cases found
      · exact ih _ found
    split at found
    · rename_i attackable
      split at found
      · rename_i selected
        cases found
        rw [selects.eq_def] at selected
        split at selected
        · cases selected
          exact attackable
        dsimp only at selected
        split_ifs at selected with own weaker isAttackable exceeds
        · cases selected
          exact attackable
        · cases selected
          exact isAttackable
        · cases selected
          exact attackable
        · cases selected
          exact attackable
      · exact ih _ found
    · exact ih _ found

theorem attackable_selectNextVictim (selected : m.selectNextVictim exactThreat around = some k) :
    m.attackable around k = true := by
  rw [selectNextVictim] at selected
  split at selected
  · rename_i found
    rw [selected] at found
    exact attackable_select _ _ found
  split at selected
  · rename_i found
    rw [selected] at found
    exact attackable_select _ _ found
  · cases selected

theorem inOrder_update (dirty : m.iThreatContainer.iDirty = true) :
    m.InOrder (m.update exactThreat).onlineList := by
  change m.InOrder (if m.iThreatContainer.iDirty && decide (1 < m.onlineList.length) then _
    else m.onlineList)
  split
  · have total : Std.Total fun j k => exactThreat.lt (m.threatOf j) (m.threatOf k) = false :=
      ⟨fun j k => by simpa [exactThreat] using le_total (m.threatOf k) (m.threatOf j)⟩
    have trans : IsTrans Nat fun j k => exactThreat.lt (m.threatOf j) (m.threatOf k) = false :=
      ⟨fun i j k => by simpa [exactThreat] using fun first second => le_trans second first⟩
    refine (pairwise_insertionSort
      (fun j k => exactThreat.lt (m.threatOf j) (m.threatOf k) = false) m.onlineList).imp ?_
    intro j k sorted
    simpa [exactThreat] using sorted
  · rename_i short
    rw [dirty, Bool.true_and, decide_eq_true_eq, not_lt] at short
    cases list : m.onlineList with
    | nil => exact Pairwise.nil
    | cons k rest =>
      rw [list, length_cons] at short
      rw [length_eq_zero_iff.mp (Nat.le_zero.mp (Nat.le_of_succ_le_succ short))]
      exact pairwise_singleton _ k

theorem selectNextVictim_of_found
    (found : m.select exactThreat around false m.iCurrentVictim m.onlineList = .found (some k)) :
    m.selectNextVictim exactThreat around = some k := by
  rw [onlineList] at found
  rw [selectNextVictim]
  rw [found]

/-- **The victim that is selected**, after any calls -/
theorem getHostilTarget_spec {inputs : List (Battlefield ℚ × Nat × Op ℚ)}
    (reached : run exactThreat empty inputs = some m) :
    let after := m.getHostilTarget exactThreat around
    (∀ k, after.iCurrentVictim = some k → k ∈ m.onlineList ∧ m.attackable around k = true) ∧
    (m.iCurrentVictim = none → (∃ j ∈ m.onlineList, m.Ready around j) →
      after.iCurrentVictim ≠ none) ∧
    (m.iThreatContainer.iDirty = true → m.InOrder after.onlineList) ∧
    ∀ victim, m.iCurrentVictim = some victim → m.Ready around victim →
      ∃ k, after.iCurrentVictim = some k ∧
        (k = victim ∨ m.Replaces around victim after.onlineList k) := by
  have consistent : Consistent m := consistent_run exactThreat inputs m reached
  have same : ∀ k, k ∈ (m.update exactThreat).onlineList ↔ k ∈ m.onlineList := by
    intro k
    change k ∈ (if _ then _ else m.onlineList) ↔ _
    split
    · exact (perm_insertionSort _ _).mem_iff
    · exact Iff.rfl
  intro after
  refine ⟨fun k selected => ⟨?_, ?_⟩, fun noVictim => ?_, inOrder_update, fun victim isVictim ready => ?_⟩
  · exact (same k).mp (consistent.getHostilTarget.victim k selected)
  · exact @attackable_selectNextVictim (m.update exactThreat) around k selected
  · rintro ⟨j, isIn, ready⟩
    have ready : (m.update exactThreat).Ready around j := ready
    obtain ⟨k, selected⟩ := select_of_none _ ⟨j, (same j).mpr isIn, ready⟩
    rw [← noVictim] at selected
    exact Option.ne_none_iff_exists'.mpr ⟨k, selectNextVictim_of_found selected⟩
  · have ready : (m.update exactThreat).Ready around victim := ready
    obtain ⟨k, selected, spec⟩ := select_of_victim ready (m.update exactThreat).onlineList
      ((same victim).mpr (consistent.victim victim isVictim))
    rw [← isVictim] at selected
    exact ⟨k, selectNextVictim_of_found selected, spec.imp_right fun replaces =>
      ⟨replaces.ready, replaces.exceeds, replaces.most⟩⟩

/-- Unit 2 is under an aura that damage would break. -/
def charmedField : Battlefield ℚ where
  owner := 1
  ownerAlive := true
  unit := fun guid => { clearField.unit guid with secondChoice := guid = 2 }
  getUnit := fun _ => true

/-- Unit 2 has twice the threat of unit 4. -/
def twoHated : List (Battlefield ℚ × Nat × Op ℚ) :=
  [(clearField, 3, .addThreat 2 100 1 none), (clearField, 3, .addThreat 4 50 1 none),
    (clearField, 3, .getHostilTarget)]

theorem getHostilTarget_spec_of_two : ∃ m, run exactThreat empty twoHated = some m ∧
    m.iCurrentVictim = some 0 ∧ ∀ k,
      (m.getHostilTarget exactThreat clearField).iCurrentVictim = some k →
        k ∈ m.onlineList ∧ m.attackable clearField k = true := by
  have reached : ((run exactThreat empty twoHated).map iCurrentVictim) = some (some 0) := by
    decide +kernel
  obtain ⟨m, isM, isVictim⟩ := Option.map_eq_some_iff.mp reached
  exact ⟨m, isM, isVictim, (getHostilTarget_spec isM).1⟩

/-- The victim can be attacked, and one with half its threat takes its place. -/
theorem second_choice_replaced : ∃ m, run exactThreat empty twoHated = some m ∧
    m.iCurrentVictim = some 0 ∧ m.attackable charmedField 0 = true ∧
    (m.getHostilTarget exactThreat charmedField).iCurrentVictim = some 1 ∧
    m.getThreat exactThreat 0 = 100 ∧ m.getThreat exactThreat 1 = 50 := by
  have all : ((run exactThreat empty twoHated).map fun m => (m.iCurrentVictim,
      m.attackable charmedField 0, (m.getHostilTarget exactThreat charmedField).iCurrentVictim,
      m.getThreat exactThreat 0, m.getThreat exactThreat 1)) =
      some (some 0, true, some 1, 100, 50) := by
    decide +kernel
  obtain ⟨m, isM, same⟩ := Option.map_eq_some_iff.mp all
  simp only [Prod.mk.injEq] at same
  exact ⟨m, isM, same⟩

end ThreatManager

end Sky548
