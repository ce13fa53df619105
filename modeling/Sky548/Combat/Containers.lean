import Sky548.Combat.ThreatManager

/-!
# Threat containers are consistent

Every reference of a threat manager is in one of its two lists, in the one that its flag says, no
unit has two, and the current victim is one that is online (`Consistent`). Every operation keeps
this, whatever the units around are like then (`consistent_perform`), so it holds in every state a
manager comes to (`consistent_run`).

The owners of pets are hated with them; the operations return as long as nobody is his own owner
through others (`run_returns`).
-/

namespace Sky548

open List Option
open Function (update_eq_self update_idem update_of_ne update_self)

namespace ThreatManager

variable {F : Type} {ops : FloatOps F} {around : Battlefield F} {m m' : ThreatManager F}
  {ref k : Nat}

def onlineList (m : ThreatManager F) : List Nat := m.iThreatContainer.iThreatList

def offlineList (m : ThreatManager F) : List Nat := m.iThreatOfflineContainer.iThreatList

/-- **Consistent containers.** -/
structure Consistent (m : ThreatManager F) : Prop where
  listed : ∀ k, (m.reference k).isSome = true ↔ k ∈ m.onlineList ∨ k ∈ m.offlineList
  once : (m.onlineList ++ m.offlineList).Nodup
  flag : ∀ k r, m.reference k = some r → (k ∈ m.onlineList ↔ r.iOnline = true)
  one : ∀ k j r q, m.reference k = some r → m.reference j = some q →
    r.iUnitGuid = q.iUnitGuid → k = j
  victim : ∀ k, m.iCurrentVictim = some k → k ∈ m.onlineList
  fresh : ∀ k, m.next ≤ k → m.reference k = none

theorem consistent_empty : Consistent (empty : ThreatManager F) where
  listed := by simp [empty, onlineList, offlineList]
  once := nodup_nil
  flag := by simp [empty]
  one := by simp [empty]
  victim := by simp [empty]
  fresh := fun _ _ => rfl

theorem Consistent.of_same (consistent : Consistent m) (references : m'.reference = m.reference)
    (next : m'.next = m.next) (online : m'.onlineList.Perm m.onlineList)
    (offline : m'.offlineList = m.offlineList)
    (victim : ∀ k, m'.iCurrentVictim = some k → k ∈ m.onlineList) : Consistent m' where
  listed := by
    intro k
    rw [references, online.mem_iff, offline]
    exact consistent.listed k
  once := by
    rw [offline]
    exact (online.append_right _).nodup_iff.mpr consistent.once
  flag := by
    intro k r there
    rw [references] at there
    rw [online.mem_iff]
    exact consistent.flag k r there
  one := by
    rw [references]
    exact consistent.one
  victim := fun k isVictim => online.mem_iff.mpr (victim k isVictim)
  fresh := by
    rw [references, next]
    exact consistent.fresh

variable {r r' : HostileReference F}

section

variable (consistent : Consistent m)

include consistent

theorem Consistent.of_changed (there : m.reference ref = some r) (guid : r'.iUnitGuid = r.iUnitGuid)
    (references : m'.reference = Function.update m.reference ref (some r'))
    (next : m'.next = m.next) (once : (m'.onlineList ++ m'.offlineList).Nodup)
    (online : ∀ k, k ∈ m'.onlineList ↔ if k = ref then r'.iOnline = true else k ∈ m.onlineList)
    (offline : ∀ k, k ∈ m'.offlineList ↔ if k = ref then r'.iOnline = false else k ∈ m.offlineList)
    (victim : ∀ k, m'.iCurrentVictim = some k → k ∈ m'.onlineList) : Consistent m' where
  listed := by
    intro k
    rw [references, online, offline]
    by_cases here : k = ref
    · rw [here, update_self, if_pos rfl, if_pos rfl]
      cases r'.iOnline with
      | true => simp
      | false => simp
    · rw [update_of_ne here, if_neg here, if_neg here]
      exact consistent.listed k
  once := once
  flag := by
    intro k q isQ
    rw [references] at isQ
    rw [online]
    by_cases here : k = ref
    · rw [here, update_self] at isQ
      rw [if_pos here, Option.some.inj isQ]
    · rw [update_of_ne here] at isQ
      rw [if_neg here]
      exact consistent.flag k q isQ
  one := by
    -- who is hated does not change
    have before : ∀ k q, m'.reference k = some q →
        ∃ p, m.reference k = some p ∧ p.iUnitGuid = q.iUnitGuid := by
      intro k q isQ
      rw [references] at isQ
      by_cases here : k = ref
      · rw [here, update_self] at isQ
        refine ⟨r, here ▸ there, ?_⟩
        rw [← Option.some.inj isQ]
        exact guid.symm
      · rw [update_of_ne here] at isQ
        exact ⟨q, isQ, rfl⟩
    intro k j q q' isQ isQ' same
    obtain ⟨p, isP, guidP⟩ := before k q isQ
    obtain ⟨p', isP', guidP'⟩ := before j q' isQ'
    exact consistent.one k j p p' isP isP' (guidP.trans (same.trans guidP'.symm))
  victim := victim
  fresh := by
    intro k old
    rw [references]
    have notHere : k ≠ ref := by
      intro here
      rw [← here, consistent.fresh k (next ▸ old)] at there
      cases there
    rw [update_of_ne notHere]
    exact consistent.fresh k (next ▸ old)

theorem Consistent.mem_or (there : m.reference ref = some r) :
    ref ∈ m.onlineList ∨ ref ∈ m.offlineList := by
  refine (consistent.listed ref).mp ?_
  rw [there]
  rfl

theorem Consistent.not_both (online : ref ∈ m.onlineList) : ref ∉ m.offlineList :=
  fun offline => (List.nodup_append.mp consistent.once).2.2 ref online ref offline rfl

theorem Consistent.mem_offline (there : m.reference ref = some r) :
    ref ∈ m.offlineList ↔ r.iOnline = false := by
  rw [← Bool.not_eq_true, ← consistent.flag ref r there]
  constructor
  · exact fun offline online => consistent.not_both online offline
  · intro notOnline
    exact (consistent.mem_or there).resolve_left notOnline

theorem Consistent.modify {f : HostileReference F → HostileReference F}
    (keeps : ∀ r, (f r).iUnitGuid = r.iUnitGuid ∧ (f r).iOnline = r.iOnline) :
    Consistent (m.modify ref f) := by
  cases there : m.reference ref with
  | none =>
    refine consistent.of_same ?_ rfl (List.Perm.refl _) rfl consistent.victim
    change Function.update m.reference ref ((m.reference ref).map f) = m.reference
    rw [there, map_none, ← there, update_eq_self]
  | some r =>
    refine consistent.of_changed there (keeps r).1 ?_ rfl consistent.once (fun k => ?_)
      (fun k => ?_) consistent.victim
    · change Function.update m.reference ref ((m.reference ref).map f) = _
      rw [there]
      rfl
    · split
      · rename_i here
        rw [here, (keeps r).2]
        exact consistent.flag ref r there
      · exact Iff.rfl
    · split
      · rename_i here
        rw [here, (keeps r).2]
        exact consistent.mem_offline there
      · exact Iff.rfl

theorem Consistent.setDirty : Consistent m.setDirty :=
  consistent.of_same rfl rfl (List.Perm.refl _) rfl consistent.victim

theorem Consistent.threatChange (fValue : F) :
    Consistent (m.processThreatEvent ops ref (.threatChange fValue)) := by
  rw [processThreatEvent]
  split
  · exact consistent.setDirty
  · exact consistent

end

theorem reference_modify (f : HostileReference F → HostileReference F) :
    (m.modify ref f).reference = Function.update m.reference ref ((m.reference ref).map f) := rfl

theorem modify_eq_self {f : HostileReference F → HostileReference F}
    (same : (m.reference ref).map f = m.reference ref) : m.modify ref f = m := by
  rw [ThreatManager.modify, same, update_eq_self]

theorem setAccessibleState_eq (isAccessible : Bool) : m.setAccessibleState ops ref isAccessible =
      m.modify ref fun r => { r with iAccessible := isAccessible } := by
  rw [ThreatManager.setAccessibleState]
  split
  · rfl
  rename_i unchanged
  refine (modify_eq_self ?_).symm
  cases there : m.reference ref with
  | none => rfl
  | some r =>
    rw [there, any_some, decide_eq_true_eq, not_not] at unchanged
    rw [map_some, ← unchanged]

theorem Consistent.setAccessibleState (consistent : Consistent m) (isAccessible : Bool) :
    Consistent (m.setAccessibleState ops ref isAccessible) := by
  rw [setAccessibleState_eq]
  exact consistent.modify fun _ => ⟨rfl, rfl⟩

/-! ## Online and offline -/

theorem nodup_move {xs ys : List Nat} (once : (xs ++ ys).Nodup) (notIn : ref ∉ ys) :
    (xs.filter (· ≠ ref) ++ (ys ++ [ref])).Nodup := by
  obtain ⟨nodupXs, nodupYs, apart⟩ := List.nodup_append.mp once
  refine List.nodup_append.mpr ⟨nodupXs.filter _, ?_, fun a inXs b inYs same => ?_⟩
  · refine List.nodup_append.mpr ⟨nodupYs, nodup_singleton _, fun a inYs b isRef same => ?_⟩
    rw [List.mem_singleton.mp isRef] at same
    exact notIn (same ▸ inYs)
  obtain ⟨inXs, other⟩ := List.mem_filter.mp inXs
  rcases List.mem_append.mp inYs with inYs | isRef
  · exact apart a inXs b inYs same
  · rw [List.mem_singleton.mp isRef] at same
    exact of_decide_eq_true other same

theorem Consistent.wentOffline (consistent : Consistent m) (there : m.reference ref = some r)
    (references : m'.reference = Function.update m.reference ref (some r'))
    (guid : r'.iUnitGuid = r.iUnitGuid) (online : r.iOnline = true) (offline : r'.iOnline = false)
    (next : m'.next = m.next) (onlineList : m'.onlineList = m.onlineList.filter (· ≠ ref))
    (offlineList : m'.offlineList = m.offlineList ++ [ref])
    (victim : m'.iCurrentVictim = if m.iCurrentVictim = some ref then none else m.iCurrentVictim) :
    Consistent m' := by
  have isOnline : ref ∈ m.onlineList := (consistent.flag ref r there).mpr online
  refine consistent.of_changed there guid references next ?_ (fun k => ?_) (fun k => ?_) fun k is => ?_
  · rw [onlineList, offlineList]
    exact nodup_move consistent.once (consistent.not_both isOnline)
  · rw [onlineList, mem_filter, decide_eq_true_eq]
    by_cases here : k = ref
    · rw [if_pos here, offline, here]
      simp
    · rw [if_neg here]
      exact and_iff_left here
  · rw [offlineList, mem_append, mem_singleton]
    by_cases here : k = ref
    · rw [if_pos here, offline]
      simp [here]
    · rw [if_neg here, or_iff_left here]
  · rw [victim] at is
    split at is
    · cases is
    rename_i other
    rw [onlineList, mem_filter, decide_eq_true_eq]
    refine ⟨consistent.victim k is, fun here => other ?_⟩
    rw [is, here]

theorem Consistent.wentOnline (consistent : Consistent m) (there : m.reference ref = some r)
    (references : m'.reference = Function.update m.reference ref (some r'))
    (guid : r'.iUnitGuid = r.iUnitGuid) (offline : r.iOnline = false) (online : r'.iOnline = true)
    (next : m'.next = m.next) (onlineList : m'.onlineList = m.onlineList ++ [ref])
    (offlineList : m'.offlineList = m.offlineList.filter (· ≠ ref))
    (victim : m'.iCurrentVictim = m.iCurrentVictim) : Consistent m' := by
  have notOnline : ref ∉ m.onlineList := by
    rw [consistent.flag ref r there, offline]
    exact Bool.false_ne_true
  refine consistent.of_changed there guid references next ?_ (fun k => ?_) (fun k => ?_) fun k is => ?_
  · rw [onlineList, offlineList]
    exact (List.perm_append_comm.nodup_iff).mpr (nodup_move
      (List.perm_append_comm.nodup_iff.mp consistent.once) notOnline)
  · rw [onlineList, mem_append, mem_singleton]
    by_cases here : k = ref
    · rw [if_pos here, online]
      simp [here]
    · rw [if_neg here, or_iff_left here]
  · rw [offlineList, mem_filter, decide_eq_true_eq]
    by_cases here : k = ref
    · rw [if_pos here, online, here]
      simp
    · rw [if_neg here]
      exact and_iff_left here
  · rw [onlineList, mem_append]
    rw [victim] at is
    exact Or.inl (consistent.victim k is)

theorem Consistent.setOnlineOfflineState (consistent : Consistent m) (isOnline : Bool) :
    Consistent (m.setOnlineOfflineState ops ref isOnline) := by
  rw [ThreatManager.setOnlineOfflineState]
  split
  · rename_i changes
    cases there : m.reference ref with
    | none =>
      rw [there] at changes
      cases changes
    | some r =>
      rw [there, any_some, decide_eq_true_eq] at changes
      cases isOnline with
      | false =>
        have online : r.iOnline = true := by
          simpa using changes
        have flag : (((m.modify ref fun r => { r with iOnline := false }).modify ref fun r =>
            { r with iAccessible := false }).reference ref).any HostileReference.iOnline =
            false := by
          rw [reference_modify, update_self, reference_modify, update_self, there]
          rfl
        have references : ((m.modify ref fun r => { r with iOnline := false }).modify ref fun r =>
            { r with iAccessible := false }).reference =
            Function.update m.reference ref
              (some { r with iOnline := false, iAccessible := false }) := by
          rw [reference_modify, reference_modify, update_self, update_idem, there]
          rfl
        dsimp only
        rw [if_neg Bool.false_ne_true, setAccessibleState_eq, processThreatEvent, flag,
          if_neg Bool.false_ne_true]
        split
        · rename_i isVictim
          refine consistent.wentOffline there references rfl online rfl rfl rfl rfl ?_
          exact (if_pos isVictim).symm
        · rename_i other
          refine consistent.wentOffline there references rfl online rfl rfl rfl rfl ?_
          exact (if_neg other).symm
      | true =>
        have offline : r.iOnline = false := by
          simpa using changes
        have flag : ((m.modify ref fun r => { r with iOnline := true }).reference ref).any
            HostileReference.iOnline = true := by
          rw [reference_modify, update_self, there]
          rfl
        have references : (m.modify ref fun r => { r with iOnline := true }).reference =
            Function.update m.reference ref (some { r with iOnline := true }) := by
          rw [reference_modify, there]
          rfl
        dsimp only
        rw [if_pos rfl, processThreatEvent, flag, if_pos rfl]
        split
        · exact consistent.wentOnline there references rfl offline rfl rfl rfl rfl rfl
        · exact consistent.wentOnline there references rfl offline rfl rfl rfl rfl rfl
  · exact consistent

theorem reference_processThreatEvent (event : ThreatRefStatusChange F) :
    (m.processThreatEvent ops ref event).reference = m.reference := by
  cases event with
  | threatChange fValue =>
    rw [processThreatEvent]
    split
    · rfl
    · rfl
  | onlineStatus =>
    rw [processThreatEvent]
    split
    · split
      · rfl
      · rfl
    · split
      · rfl
      · rfl
  | accessibleStatus => rfl
  | removeFromList =>
    rw [processThreatEvent]
    split
    · split
      · rfl
      · rfl
    · split
      · rfl
      · rfl

theorem iOnline_setOnlineOfflineState {isOnline : Bool}
    (there : (m.setOnlineOfflineState ops ref isOnline).reference ref = some r) :
    r.iOnline = isOnline := by
  rw [ThreatManager.setOnlineOfflineState] at there
  split at there
  · rw [reference_processThreatEvent] at there
    split at there
    · rename_i online
      rw [reference_modify, update_self] at there
      obtain ⟨q, -, rfl⟩ := Option.map_eq_some_iff.mp there
      rfl
    · rw [setAccessibleState_eq, reference_modify, update_self, reference_modify,
        update_self, Option.map_map] at there
      obtain ⟨q, -, rfl⟩ := Option.map_eq_some_iff.mp there
      rfl
  · rename_i unchanged
    rw [there, any_some, decide_eq_true_eq, not_not] at unchanged
    exact unchanged

section

variable (consistent : Consistent m)

include consistent

theorem Consistent.invalidate : Consistent (m.invalidate ops ref) :=
  (consistent.setOnlineOfflineState false).modify fun _ => ⟨rfl, rfl⟩

theorem Consistent.updateOnlineStatus : Consistent (m.updateOnlineStatus ops around ref) := by
  rw [ThreatManager.updateOnlineStatus]
  split
  · exact consistent
  · refine Consistent.setOnlineOfflineState (Consistent.setAccessibleState ?_ _) _
    exact consistent.modify fun _ => ⟨rfl, rfl⟩

theorem Consistent.deleted (notOnline : ref ∉ m.onlineList)
    (references : m'.reference = Function.update m.reference ref none) (next : m'.next = m.next)
    (onlineList : m'.onlineList = m.onlineList)
    (offlineList : m'.offlineList = m.offlineList.filter (· ≠ ref))
    (victim : m'.iCurrentVictim = m.iCurrentVictim) : Consistent m' := by
  have before : ∀ {k r}, m'.reference k = some r → k ≠ ref ∧ m.reference k = some r := by
    intro k r isR
    rw [references] at isR
    by_cases here : k = ref
    · rw [here, update_self] at isR
      cases isR
    · rw [update_of_ne here] at isR
      exact ⟨here, isR⟩
  constructor
  · intro k
    rw [references, onlineList, offlineList, mem_filter, decide_eq_true_eq]
    by_cases here : k = ref
    · rw [here, update_self]
      simp [notOnline]
    · rw [update_of_ne here, consistent.listed k, and_iff_left here]
  · rw [onlineList, offlineList]
    exact consistent.once.sublist (Sublist.append_left filter_sublist _)
  · intro k r isR
    rw [onlineList]
    exact consistent.flag k r (before isR).2
  · intro k j r q isR isQ
    exact consistent.one k j r q (before isR).2 (before isQ).2
  · rw [victim, onlineList]
    exact consistent.victim
  · intro k old
    rw [references]
    by_cases here : k = ref
    · rw [here, update_self]
    · rw [update_of_ne here]
      exact consistent.fresh k (next ▸ old)

theorem Consistent.removeReference : Consistent (m.removeReference ops ref) := by
  have gone : Consistent (m.invalidate ops ref) := consistent.invalidate
  have offline : ((m.invalidate ops ref).reference ref).any HostileReference.iOnline = false := by
    rw [ThreatManager.invalidate, reference_modify, update_self]
    cases there : (m.setOnlineOfflineState ops ref false).reference ref with
    | none => rfl
    | some r =>
      have offline := iOnline_setOnlineOfflineState there
      exact offline
  have notOnline : ref ∉ (m.invalidate ops ref).onlineList := by
    intro online
    obtain ⟨r, there⟩ := Option.isSome_iff_exists.mp ((gone.listed ref).mpr (Or.inl online))
    rw [there, any_some] at offline
    rw [gone.flag ref r there, offline] at online
    cases online
  have notVictim : (m.invalidate ops ref).iCurrentVictim ≠ some ref :=
    fun isVictim => notOnline (gone.victim ref isVictim)
  rw [ThreatManager.removeReference, processThreatEvent, if_neg notVictim, offline, if_neg Bool.false_ne_true]
  exact gone.deleted notOnline rfl rfl rfl rfl rfl

theorem Consistent.clearReferences : Consistent m.clearReferences where
  listed := by
    intro k
    have nobody : m.clearReferences.reference k = none := by
      change (if _ then none else m.reference k) = none
      split
      · rfl
      · rename_i notIn
        exact Option.not_isSome_iff_eq_none.mp fun some => notIn ((consistent.listed k).mp some)
    rw [nobody]
    simp [ThreatManager.clearReferences, onlineList, offlineList]
  once := nodup_nil
  flag := by
    intro k r there
    change (if _ then none else m.reference k) = some r at there
    split at there
    · cases there
    rename_i notIn
    refine absurd ((consistent.listed k).mp ?_) notIn
    rw [there]
    rfl
  one := by
    intro k j r q there there'
    change (if _ then none else m.reference k) = some r at there
    change (if _ then none else m.reference j) = some q at there'
    split at there
    · cases there
    · split at there'
      · cases there'
      · exact consistent.one k j r q there there'
  victim := by
    intro k isVictim
    cases isVictim
  fresh := by
    intro k old
    change (if _ then none else m.reference k) = none
    rw [consistent.fresh k old]
    split
    · rfl
    · rfl

end

/-! ## Adding -/

theorem getReferenceByTarget_eq_none {c : ThreatContainer} {victim : UInt64}
    (none : m.getReferenceByTarget c victim = none) {k : Nat} (listed : k ∈ c.iThreatList)
    (there : m.reference k = some r) : r.iUnitGuid ≠ victim := by
  have no := List.find?_eq_none.mp none k listed
  rw [there, any_some, decide_eq_true_eq] at no
  exact no

theorem Consistent.created (consistent : Consistent m)
    (isNew : ∀ k q, m.reference k = some q → q.iUnitGuid ≠ r.iUnitGuid) (online : r.iOnline = true)
    (references : m'.reference = Function.update m.reference m.next (some r))
    (next : m'.next = m.next + 1) (onlineList : m'.onlineList = m.onlineList ++ [m.next])
    (offlineList : m'.offlineList = m.offlineList) (victim : m'.iCurrentVictim = m.iCurrentVictim) :
    Consistent m' := by
  have unlisted : m.next ∉ m.onlineList ∧ m.next ∉ m.offlineList := by
    rw [← not_or, ← consistent.listed, consistent.fresh m.next (Nat.le_refl _)]
    exact Bool.false_ne_true
  have before : ∀ {k q}, m'.reference k = some q →
      k = m.next ∧ q = r ∨ k ≠ m.next ∧ m.reference k = some q := by
    intro k q isQ
    rw [references] at isQ
    by_cases here : k = m.next
    · rw [here, update_self] at isQ
      exact Or.inl ⟨here, (Option.some.inj isQ).symm⟩
    · rw [update_of_ne here] at isQ
      exact Or.inr ⟨here, isQ⟩
  constructor
  · intro k
    rw [references, onlineList, offlineList, mem_append, mem_singleton]
    by_cases here : k = m.next
    · rw [here, update_self]
      simp
    · rw [update_of_ne here, or_iff_left here]
      exact consistent.listed k
  · rw [onlineList, offlineList, append_assoc]
    refine (List.perm_middle.nodup_iff).mpr (List.nodup_cons.mpr ⟨?_, consistent.once⟩)
    rw [mem_append, not_or]
    exact unlisted
  · intro k q isQ
    rw [onlineList, mem_append, mem_singleton]
    rcases before isQ with ⟨rfl, rfl⟩ | ⟨other, was⟩
    · simp [online]
    · rw [or_iff_left other]
      exact consistent.flag k q was
  · intro k j q p isQ isP same
    rcases before isQ with ⟨rfl, rfl⟩ | ⟨-, wasQ⟩
    · rcases before isP with ⟨rfl, -⟩ | ⟨-, wasP⟩
      · rfl
      · exact absurd same.symm (isNew j p wasP)
    · rcases before isP with ⟨rfl, rfl⟩ | ⟨-, wasP⟩
      · exact absurd same (isNew k q wasQ)
      · exact consistent.one k j q p wasQ wasP same
  · intro k isVictim
    rw [victim] at isVictim
    rw [onlineList, mem_append]
    exact Or.inl (consistent.victim k isVictim)
  · intro k old
    rw [next] at old
    rw [references, update_of_ne (by omega)]
    exact consistent.fresh k (by omega)

/-- What an operation that may not return keeps -/
def Keeps (P : ThreatManager F → Prop) (o : Option (ThreatManager F)) : Prop := ∀ m', o = some m' → P m'

theorem keeps_some {P : ThreatManager F → Prop} (holds : P m) : Keeps P (some m) := by
  intro m' isIt
  exact Option.some.inj isIt ▸ holds

theorem keeps_map {P Q : ThreatManager F → Prop} {o : Option (ThreatManager F)}
    {f : ThreatManager F → ThreatManager F} (keeps : Keeps P o) (step : ∀ m, P m → Q (f m)) :
    Keeps Q (o.map f) := by
  intro m' isIt
  obtain ⟨m, isM, rfl⟩ := Option.map_eq_some_iff.mp isIt
  exact step m (keeps m isM)

theorem keeps_bind {P : ThreatManager F → Prop} {o : Option (ThreatManager F)}
    {f : ThreatManager F → Option (ThreatManager F)} (keeps : Keeps P o)
    (step : ∀ m, P m → Keeps P (f m)) : Keeps P (o.bind f) := by
  intro m' isIt
  obtain ⟨m, isM, isIt⟩ := Option.bind_eq_some_iff.mp isIt
  exact step m (keeps m isM) m' isIt

/-- **What is kept wherever threat is added**: by the amounts of a kind, with the parts for owners
and redirected ones, and by what follows from them. -/
structure Stable (ops : FloatOps F) (around : Battlefield F) (A : F → Prop)
    (P : ThreatManager F → Prop) : Prop where
  owners : ∀ guid, A ((around.unit guid).applyTotalThreatModifier spellSchoolMaskNormal ops.zero)
  parts : ∀ threat percent, A threat → ops.lt ops.zero threat = true →
    A (ops.calculatePct threat percent) ∧ A (ops.sub threat (ops.calculatePct threat percent))
  added : ∀ m ref threat, A threat → P m →
    P (m.modify ref fun r => { r with iThreat := ops.add r.iThreat threat })
  updated : ∀ m ref, P m → P (m.updateOnlineStatus ops around ref)
  told : ∀ m ref threat, P m → P (m.processThreatEvent ops ref (.threatChange threat))
  offline : ∀ m ref, P m → P (m.setOnlineOfflineState ops ref false)
  created : ∀ m victim, P m → m.getReferenceByTarget m.iThreatContainer victim = none →
    m.getReferenceByTarget m.iThreatOfflineContainer victim = none →
    P { m with
      reference := Function.update m.reference m.next
        (some ⟨ops.zero, ops.zero, victim, true, true, true⟩)
      next := m.next + 1
      iThreatContainer := m.iThreatContainer.addReference m.next }

section Adding

variable {A : F → Prop} {P : ThreatManager F → Prop} (stable : Stable ops around A P)

section Further

variable {add : ThreatManager F → Nat → F → Option (ThreatManager F)}
  (keeps : ∀ m ref modThreat, A modThreat → P m → Keeps P (add m ref modThreat)) {threat : F}

include stable keeps

theorem keeps_addThreatTo (holds : P m) (victim : UInt64) (amount : A threat) :
    Keeps P (m.addThreatTo ops around add victim threat) := by
  rw [addThreatTo]
  split
  · exact keeps m _ threat amount holds
  rename_i notOnline
  split
  · exact keeps m _ threat amount holds
  rename_i notOffline
  refine keeps_map (keeps _ _ _ amount (stable.created m victim holds notOnline notOffline))
    fun m holds => ?_
  split
  · exact stable.offline m _ holds
  · exact holds

theorem keeps_doAddThreatBy (holds : P m) (victim : UInt64) (amount : A threat) :
    Keeps P (m.doAddThreatBy ops around add victim threat) := by
  rw [doAddThreatBy]
  split
  · rename_i redirects
    rw [Bool.and_eq_true] at redirects
    split
    · obtain ⟨part, rest⟩ := stable.parts threat _ amount redirects.1
      refine keeps_bind (keeps_addThreatTo stable keeps holds _ part) fun m holds => ?_
      exact keeps_addThreatTo stable keeps holds _ rest
    · exact keeps_addThreatTo stable keeps holds _ amount
  · exact keeps_addThreatTo stable keeps holds _ amount

theorem keeps_addThreatBy (holds : P m) {victim : UInt64} {schoolMask : UInt32}
    {threatSpell : Option (ThreatSpell F)}
    (amount : A (calcThreat ops around victim threat schoolMask threatSpell)) :
    Keeps P (m.addThreatBy ops around add victim threat schoolMask threatSpell) := by
  rw [addThreatBy]
  split
  · exact keeps_doAddThreatBy stable keeps holds _ amount
  · exact keeps_some holds

end Further

include stable

theorem keeps_addToRef (depth : Nat) : ∀ (m : ThreatManager F) ref modThreat,
    P (m.modify ref fun r => { r with iThreat := ops.add r.iThreat modThreat }) →
    Keeps P (addToRef ops around depth m ref modThreat) := by
  induction depth with
  | zero =>
    intro m ref modThreat _ m' isIt
    cases isIt
  | succ depth ih =>
    intro m ref modThreat added
    rw [addToRef]
    generalize m.modify ref _ = m₁ at added
    have updated : P (if (m₁.reference ref).any HostileReference.iOnline then m₁
        else m₁.updateOnlineStatus ops around ref) := by
      split
      · exact added
      · exact stable.updated m₁ ref added
    generalize (if (m₁.reference ref).any HostileReference.iOnline then m₁
      else m₁.updateOnlineStatus ops around ref) = m₂ at updated
    have told : P (if ops.eq modThreat ops.zero then m₂
        else m₂.processThreatEvent ops ref (.threatChange modThreat)) := by
      split
      · exact updated
      · exact stable.told m₂ ref modThreat updated
    generalize (if ops.eq modThreat ops.zero then m₂
      else m₂.processThreatEvent ops ref (.threatChange modThreat)) = m₃ at told
    split
    · exact keeps_some told
    split
    · split
      · split
        · exact keeps_addThreatBy stable (fun m ref threat amount holds => ih m ref threat
            (stable.added m ref threat amount holds)) told (stable.owners _)
        · exact keeps_some told
      · exact keeps_some told
    · exact keeps_some told

theorem Stable.addToRef (depth : Nat) (m : ThreatManager F) (ref : Nat) (threat : F)
    (amount : A threat) (holds : P m) :
    Keeps P (ThreatManager.addToRef ops around depth m ref threat) :=
  keeps_addToRef stable depth m ref threat (stable.added m ref threat amount holds)

end Adding

theorem consistent_stable : Stable ops around (fun _ => True) Consistent where
  owners := fun _ => True.intro
  parts := fun _ _ _ _ => ⟨True.intro, True.intro⟩
  added := fun _ _ _ _ consistent => consistent.modify fun _ => ⟨rfl, rfl⟩
  updated := fun _ _ consistent => consistent.updateOnlineStatus
  told := fun _ _ threat consistent => consistent.threatChange threat
  offline := fun _ _ consistent => consistent.setOnlineOfflineState false
  created := by
    intro m victim consistent notOnline notOffline
    refine consistent.created (fun k q there => ?_) ?_ rfl rfl rfl rfl rfl
    · rcases consistent.mem_or there with online | offline
      · exact getReferenceByTarget_eq_none notOnline online there
      · exact getReferenceByTarget_eq_none notOffline offline there
    · rfl

theorem Consistent.update (consistent : Consistent m) : Consistent (m.update ops) := by
  refine consistent.of_same rfl rfl ?_ rfl consistent.victim
  change (if _ then _ else m.iThreatContainer.iThreatList).Perm m.iThreatContainer.iThreatList
  split
  · exact perm_insertionSort _ _
  · exact List.Perm.refl _

theorem selects_eq_some {currentVictim : Option Nat} {victim : Nat}
    (selected : m.selects ops around currentVictim ref = some victim) :
    victim = ref ∨ currentVictim = some victim := by
  rw [selects.eq_def] at selected
  split at selected
  · exact Or.inl (Option.some.inj selected).symm
  dsimp only at selected
  split_ifs at selected
  · exact Or.inl (Option.some.inj selected).symm
  · exact Or.inr selected
  · exact Or.inl (Option.some.inj selected).symm
  · exact Or.inl (Option.some.inj selected).symm

/-- A walk ends at a reference of the list or at the current victim, or begins again with what it
made of that. -/
def Selection.From (list : List Nat) (currentVictim : Option Nat) : Selection → Prop
  | .found victim => ∀ k, victim = some k → k ∈ list ∨ currentVictim = some k
  | .restart victim => ∀ k, victim = some k → currentVictim = some k

theorem Selection.From.later {rest : List Nat} {current currentVictim : Option Nat}
    {selection : Selection} (spec : selection.From rest current)
    (old : ∀ k, current = some k → currentVictim = some k) :
    selection.From (ref :: rest) currentVictim := by
  cases selection with
  | found victim => exact fun k isK => (spec k isK).imp (mem_cons_of_mem _) (old k)
  | restart victim => exact fun k isK => old k (spec k isK)

theorem from_select (noPriority : Bool) (list : List Nat) : ∀ currentVictim,
    (m.select ops around noPriority currentVictim list).From list currentVictim := by
  induction list with
  | nil =>
    intro currentVictim k isK
    cases isK
  | cons ref rest ih =>
    intro currentVictim
    rw [select]
    split
    · split
      · exact fun _ isK => isK
      refine (ih _).later fun k isK => ?_
      split at isK
      · cases isK
      · exact isK
    split
    · split
      · rename_i victim selected
        intro k isK
        rw [← Option.some.inj isK]
        rcases selects_eq_some selected with rfl | current
        · exact Or.inl mem_cons_self
        · exact Or.inr current
      · exact (ih _).later fun _ isK => isK
    · exact (ih _).later fun _ isK => isK

section

variable (consistent : Consistent m)

include consistent

theorem Consistent.getHostilTarget : Consistent (m.getHostilTarget ops around) := by
  have updated : Consistent (m.update ops) := consistent.update
  refine updated.of_same rfl rfl (List.Perm.refl _) rfl fun k isVictim => ?_
  change (m.update ops).selectNextVictim ops around = some k at isVictim
  rw [selectNextVictim] at isVictim
  have first : ((m.update ops).select ops around false (m.update ops).iCurrentVictim
      (m.update ops).iThreatContainer.iThreatList).From (m.update ops).onlineList _ :=
    from_select _ _ _
  split at isVictim
  · rename_i victim isIt
    rw [isIt] at first
    exact (first k isVictim).elim id (updated.victim k)
  rename_i currentVictim isIt
  rw [isIt] at first
  have second : ((m.update ops).select ops around true currentVictim
      (m.update ops).iThreatContainer.iThreatList).From (m.update ops).onlineList _ :=
    from_select _ _ _
  split at isVictim
  · rename_i victim isIt'
    rw [isIt'] at second
    exact (second k isVictim).elim id fun isCurrent => updated.victim k (first k isCurrent)
  · cases isVictim

theorem Consistent.attackMe (caster : UInt64) : Consistent (m.attackMe caster) := by
  rw [ThreatManager.attackMe]
  split
  · rename_i forcedVictim found
    refine consistent.of_same rfl rfl (List.Perm.refl _) rfl fun k isVictim => ?_
    obtain rfl : forcedVictim = k := Option.some.inj isVictim
    exact mem_of_find?_eq_some found
  · exact consistent

theorem keeps_addThreatPercent (depth ref : Nat) (percent : Int) :
    Keeps Consistent (m.addThreatPercent ops around depth ref percent) :=
  consistent_stable.addToRef depth m ref _ True.intro consistent

theorem keeps_addTempThreat (depth ref : Nat) (threat : F) :
    Keeps Consistent (m.addTempThreat ops around depth ref threat) := by
  have set : Consistent (m.modify ref fun r => { r with iTempThreatModifier := threat }) :=
    consistent.modify fun _ => ⟨rfl, rfl⟩
  rw [addTempThreat]
  split
  · exact keeps_some set
  · exact consistent_stable.addToRef depth _ ref threat True.intro set

theorem keeps_resetTempThreat (depth ref : Nat) :
    Keeps Consistent (m.resetTempThreat ops around depth ref) := by
  rw [resetTempThreat]
  split
  · exact keeps_some consistent
  split
  · exact keeps_some consistent
  · refine keeps_map (consistent_stable.addToRef depth m ref _ True.intro consistent)
      fun m consistent => ?_
    exact consistent.modify fun _ => ⟨rfl, rfl⟩

theorem consistent_perform (depth : Nat) (op : Op F) :
    Keeps Consistent (m.perform ops around depth op) := by
  cases op with
  | addThreat victim threat schoolMask threatSpell =>
    exact keeps_addThreatBy consistent_stable (consistent_stable.addToRef depth) consistent True.intro
  | doAddThreat victim threat =>
    exact keeps_doAddThreatBy consistent_stable (consistent_stable.addToRef depth) consistent _
      True.intro
  | modifyThreatPercent victim percent =>
    change Keeps Consistent (m.modifyThreatPercent ops around depth victim percent)
    rw [modifyThreatPercent]
    split
    · exact keeps_addThreatPercent consistent depth _ percent
    · exact keeps_some consistent
  | tauntApply taunter =>
    change Keeps Consistent (m.tauntApply ops around depth taunter)
    rw [tauntApply.eq_def]
    split
    · dsimp only
      split
      · exact keeps_addTempThreat consistent depth _ _
      · exact keeps_some consistent
    · exact keeps_some consistent
  | tauntFadeOut taunter =>
    change Keeps Consistent (m.tauntFadeOut ops around depth taunter)
    rw [tauntFadeOut]
    split
    · exact keeps_resetTempThreat consistent depth _
    · exact keeps_some consistent
  | setOnlineOfflineState ref isOnline => exact keeps_some (consistent.setOnlineOfflineState isOnline)
  | updateOnlineStatus ref => exact keeps_some consistent.updateOnlineStatus
  | addThreatPercent ref percent => exact keeps_addThreatPercent consistent depth ref percent
  | addTempThreat ref threat => exact keeps_addTempThreat consistent depth ref threat
  | resetTempThreat ref => exact keeps_resetTempThreat consistent depth ref
  | invalidate ref => exact keeps_some consistent.invalidate
  | removeReference ref => exact keeps_some consistent.removeReference
  | clearReferences => exact keeps_some consistent.clearReferences
  | getHostilTarget => exact keeps_some consistent.getHostilTarget
  | attackMe caster => exact keeps_some (consistent.attackMe caster)

end

/-- The states that operations lead to, each among the units that were around then -/
def run (ops : FloatOps F) : ThreatManager F → List (Battlefield F × Nat × Op F) →
    Option (ThreatManager F)
  | m, [] => some m
  | m, (around, depth, op) :: rest => (m.perform ops around depth op).bind fun m => run ops m rest

theorem Consistent.run (inputs : List (Battlefield F × Nat × Op F)) : ∀ m : ThreatManager F,
    Consistent m → Keeps Consistent (ThreatManager.run ops m inputs) := by
  induction inputs with
  | nil => exact fun m consistent => keeps_some consistent
  | cons input rest ih =>
    obtain ⟨around, depth, op⟩ := input
    intro m consistent
    exact keeps_bind (consistent_perform consistent depth op) ih

/-- **The containers are consistent** in every state that a manager comes to. -/
theorem consistent_run (ops : FloatOps F) (inputs : List (Battlefield F × Nat × Op F))
    (m : ThreatManager F) (returned : run ops empty inputs = some m) : Consistent m :=
  Consistent.run inputs empty consistent_empty m returned

/-- Threat in whole numbers, and factors in tenths. -/
def wholeThreat : FloatOps Int where
  zero := 0
  add := (· + ·)
  sub := (· - ·)
  mul := fun factor threat => factor * threat / 10
  lt := fun a b => a < b
  le := fun a b => a ≤ b
  eq := fun a b => a = b
  meleeRule := 11
  rangedRule := 13
  calculatePct := fun threat percent => threat * percent / 100

def openField : Battlefield Int where
  owner := 1
  ownerAlive := true
  unit := fun guid =>
    { alive := true, isGameMaster := false, inMap := true, inSamePhase := true, inFlight := false
      isInAccessiblePlaceFor := true, isWithinCombatRange := true, secondChoice := false
      canBeAttacked := true, isWithinMeleeRange := true
      getCharmerOrOwner := if guid = 3 then some 2 else none
      getRedirectThreatPercent := 0, getRedirectThreatTarget := none
      applyTotalThreatModifier := fun _ threat => threat }
  getUnit := fun _ => true

def petRun : List (Battlefield Int × Nat × Op Int) :=
  [(openField, 3, .addThreat 3 10 1 none), (openField, 3, .getHostilTarget),
    (openField, 3, .setOnlineOfflineState 0 false), (openField, 3, .doAddThreat 3 5),
    (openField, 3, .removeReference 0), (openField, 3, .getHostilTarget)]

theorem consistent_run_of_pet :
    ∃ m, run wholeThreat empty petRun = some m ∧ m.iCurrentVictim = some 1 ∧ Consistent m := by
  have returned : (run wholeThreat empty petRun).isSome = true := by decide
  have isOwner : ((run wholeThreat empty petRun).bind iCurrentVictim) = some 1 := by decide
  obtain ⟨m, isIt⟩ := Option.isSome_iff_exists.mp returned
  rw [isIt] at isOwner
  exact ⟨m, isIt, isOwner, consistent_run wholeThreat petRun m isIt⟩

def guidAt (m : ThreatManager F) (k : Nat) : Option UInt64 :=
  (m.reference k).map HostileReference.iUnitGuid

section View

variable {V : Type} {g : HostileReference F → V}

theorem map_modify {f : HostileReference F → HostileReference F}
    (keeps : ∀ r, m.reference ref = some r → g (f r) = g r) :
    ((m.modify ref f).reference k).map g = (m.reference k).map g := by
  rw [reference_modify]
  by_cases here : k = ref
  · rw [here, update_self, Option.map_map]
    exact map_congr keeps
  · rw [update_of_ne here]

variable (loose : ∀ (r : HostileReference F) online accessible valid,
  g { r with iOnline := online, iAccessible := accessible, isValid := valid } = g r)

include loose

theorem map_setAccessibleState (isAccessible : Bool) :
    ((m.setAccessibleState ops ref isAccessible).reference k).map g = (m.reference k).map g := by
  rw [setAccessibleState_eq]
  exact map_modify fun r _ => loose r _ _ _

theorem map_setOnlineOfflineState (isOnline : Bool) :
    ((m.setOnlineOfflineState ops ref isOnline).reference k).map g = (m.reference k).map g := by
  rw [ThreatManager.setOnlineOfflineState]
  split
  · rw [reference_processThreatEvent]
    split
    · exact map_modify fun r _ => loose r _ _ _
    · rw [map_setAccessibleState loose]
      exact map_modify fun r _ => loose r _ _ _
  · rfl

theorem map_updateOnlineStatus :
    ((m.updateOnlineStatus ops around ref).reference k).map g = (m.reference k).map g := by
  rw [ThreatManager.updateOnlineStatus]
  split
  · rfl
  · rw [map_setOnlineOfflineState loose, map_setAccessibleState loose]
    exact map_modify fun r _ => loose r _ _ _

end View

/-- Nobody is hated for a pet through more than so many owners. -/
def OwnersEnd (around : Battlefield F) : Nat → UInt64 → Prop
  | 0, _ => False
  | depth + 1, guid => ∀ owner, (around.unit guid).getCharmerOrOwner = some owner →
      OwnersEnd around depth owner

section Returns

variable {add : ThreatManager F → Nat → F → Option (ThreatManager F)}

theorem isSome_addThreatTo {victim : UInt64} {threat : F}
    (returns : ∀ (m : ThreatManager F) ref modThreat, m.guidAt ref = some victim →
      (add m ref modThreat).isSome = true) :
    (m.addThreatTo ops around add victim threat).isSome = true := by
  have guid : ∀ {c : ThreatContainer} {ref}, m.getReferenceByTarget c victim = some ref →
      m.guidAt ref = some victim := by
    intro c ref found
    have hit := find?_some found
    cases there : m.reference ref with
    | none =>
      rw [there] at hit
      cases hit
    | some r =>
      rw [there, any_some, decide_eq_true_eq] at hit
      rw [guidAt, there, map_some, hit]
  rw [addThreatTo]
  split
  · rename_i ref found
    exact returns m ref threat (guid found)
  split
  · rename_i ref found
    exact returns m ref threat (guid found)
  rw [isSome_map]
  refine returns _ _ _ ?_
  change (Function.update m.reference m.next _ m.next).map _ = _
  rw [update_self]
  rfl

theorem isSome_doAddThreatBy {victim : UInt64} {threat : F}
    (returns : ∀ (m : ThreatManager F) ref modThreat, (add m ref modThreat).isSome = true) :
    (m.doAddThreatBy ops around add victim threat).isSome = true := by
  have each : ∀ (m : ThreatManager F) victim threat,
      (m.addThreatTo ops around add victim threat).isSome = true :=
    fun m victim threat => isSome_addThreatTo fun m ref modThreat _ => returns m ref modThreat
  rw [doAddThreatBy]
  dsimp only
  split
  · split
    · obtain ⟨m', isIt⟩ := Option.isSome_iff_exists.mp (each m _ _)
      rw [isIt, bind_some]
      exact each m' _ _
    · exact each m _ _
  · exact each m _ _

end Returns

/-- Threat that is none is not modified to be some. -/
def Calm (ops : FloatOps F) (around : Battlefield F) : Prop :=
  ∀ guid, ops.lt ops.zero
    ((around.unit guid).applyTotalThreatModifier spellSchoolMaskNormal ops.zero) = false

theorem isSome_resetTempThreat {depth : Nat} (returns : ∀ (m : ThreatManager F) ref modThreat,
      (addToRef ops around depth m ref modThreat).isSome = true) (ref : Nat) :
    (m.resetTempThreat ops around depth ref).isSome = true := by
  rw [resetTempThreat]
  split
  · rfl
  split
  · rfl
  · rw [isSome_map]
    exact returns m _ _

theorem isSome_addTempThreat {depth : Nat} (returns : ∀ (m : ThreatManager F) ref modThreat,
      (addToRef ops around depth m ref modThreat).isSome = true) (ref : Nat) (threat : F) :
    (m.addTempThreat ops around depth ref threat).isSome = true := by
  rw [addTempThreat]
  split
  · rfl
  · exact returns _ _ _

theorem OwnersEnd.pos {depth : Nat} {guid : UInt64} (ends : OwnersEnd around depth guid) :
    0 < depth := by
  cases depth with
  | zero => exact ends.elim
  | succ depth => exact Nat.succ_pos depth

/-- **Adding threat to a reference returns**: each of the owners has fewer owners to come. -/
theorem isSome_addToRef (calm : Calm ops around) (depth : Nat) : ∀ (m : ThreatManager F) ref modThreat,
    0 < depth → (∀ guid, m.guidAt ref = some guid → OwnersEnd around depth guid) →
    (addToRef ops around depth m ref modThreat).isSome = true := by
  induction depth with
  | zero =>
    intro m ref modThreat positive
    exact absurd positive (Nat.lt_irrefl 0)
  | succ depth ih =>
    intro m ref modThreat _ ends
    rw [addToRef]
    have added : (m.modify ref fun r =>
        { r with iThreat := ops.add r.iThreat modThreat }).guidAt ref = m.guidAt ref :=
      map_modify fun _ _ => rfl
    generalize m.modify ref _ = m₁ at added
    have updated : (if (m₁.reference ref).any HostileReference.iOnline then m₁
        else m₁.updateOnlineStatus ops around ref).guidAt ref = m.guidAt ref := by
      split
      · exact added
      · exact (map_updateOnlineStatus fun _ _ _ _ => rfl).trans added
    generalize (if (m₁.reference ref).any HostileReference.iOnline then m₁
      else m₁.updateOnlineStatus ops around ref) = m₂ at updated
    have told : (if ops.eq modThreat ops.zero then m₂
        else m₂.processThreatEvent ops ref (.threatChange modThreat)).guidAt ref =
        m.guidAt ref := by
      split
      · exact updated
      · rw [guidAt, reference_processThreatEvent]
        exact updated
    generalize (if ops.eq modThreat ops.zero then m₂
      else m₂.processThreatEvent ops ref (.threatChange modThreat)) = m₃ at told
    split
    · rfl
    rename_i r there
    have isGuid : m.guidAt ref = some r.iUnitGuid := by
      rw [← told, guidAt, there, map_some]
    split
    · split
      · rename_i victimOwner owned
        have later : OwnersEnd around depth victimOwner := ends _ isGuid victimOwner owned
        split
        · rw [addThreatBy]
          split
          · rw [doAddThreatBy]
            rw [calcThreat, calm victimOwner, Bool.false_and, if_neg Bool.false_ne_true]
            refine isSome_addThreatTo fun m ref modThreat isOwner => ?_
            refine ih m ref modThreat later.pos fun guid isGuid => ?_
            rw [isOwner] at isGuid
            exact Option.some.inj isGuid ▸ later
          · rfl
        · rfl
      · rfl
    · rfl

/-- **Every operation returns** where no unit is its own owner through others. -/
theorem perform_returns (ops : FloatOps F) (around : Battlefield F) (depth : Nat)
    (calm : Calm ops around) (ends : ∀ guid, OwnersEnd around depth guid) (m : ThreatManager F)
    (op : Op F) : (m.perform ops around depth op).isSome = true := by
  have returns : ∀ (m : ThreatManager F) ref modThreat,
      (addToRef ops around depth m ref modThreat).isSome = true :=
    fun m ref modThreat => isSome_addToRef calm depth m ref modThreat (ends 0).pos
      fun guid _ => ends guid
  cases op with
  | addThreat victim threat schoolMask threatSpell =>
    change (m.addThreatBy ops around _ victim threat schoolMask threatSpell).isSome = true
    rw [addThreatBy]
    split
    · exact isSome_doAddThreatBy returns
    · rfl
  | doAddThreat victim threat => exact isSome_doAddThreatBy returns
  | modifyThreatPercent victim percent =>
    change (m.modifyThreatPercent ops around depth victim percent).isSome = true
    rw [modifyThreatPercent]
    split
    · exact returns m _ _
    · rfl
  | tauntApply taunter =>
    change (m.tauntApply ops around depth taunter).isSome = true
    rw [tauntApply.eq_def]
    split
    · dsimp only
      split
      · exact isSome_addTempThreat returns _ _
      · rfl
    · rfl
  | tauntFadeOut taunter =>
    change (m.tauntFadeOut ops around depth taunter).isSome = true
    rw [tauntFadeOut]
    split
    · exact isSome_resetTempThreat returns _
    · rfl
  | addThreatPercent ref percent => exact returns m ref _
  | addTempThreat ref threat => exact isSome_addTempThreat returns ref threat
  | resetTempThreat ref => exact isSome_resetTempThreat returns ref
  | setOnlineOfflineState ref isOnline => rfl
  | updateOnlineStatus ref => rfl
  | invalidate ref => rfl
  | removeReference ref => rfl
  | clearReferences => rfl
  | getHostilTarget => rfl
  | attackMe caster => rfl

/-- **Every run returns** in which no unit is its own owner through others. -/
theorem run_returns (ops : FloatOps F) (inputs : List (Battlefield F × Nat × Op F))
    (sane : ∀ i ∈ inputs, Calm ops i.1 ∧ ∀ guid, OwnersEnd i.1 i.2.1 guid) :
    ∀ m : ThreatManager F, (run ops m inputs).isSome = true := by
  induction inputs with
  | nil => exact fun _ => rfl
  | cons input rest ih =>
    obtain ⟨around, depth, op⟩ := input
    intro m
    obtain ⟨⟨calm, ends⟩, later⟩ := List.forall_mem_cons.mp sane
    obtain ⟨m', returned⟩ :=
      Option.isSome_iff_exists.mp (perform_returns ops around depth calm ends m op)
    rw [run, returned]
    exact ih later m'

theorem run_returns_petRun : (run wholeThreat empty petRun).isSome = true := by
  refine run_returns wholeThreat petRun (fun i member => ?_) empty
  have onField : i.1 = openField ∧ i.2.1 = 3 := by
    simp only [petRun, mem_cons, not_mem_nil, or_false] at member
    rcases member with rfl | rfl | rfl | rfl | rfl | rfl <;> exact ⟨rfl, rfl⟩
  rw [onField.1, onField.2]
  refine ⟨fun _ => rfl, fun guid owner isOwner => ?_⟩
  dsimp only [openField] at isOwner
  split at isOwner
  · cases isOwner
    exact fun other => nofun
  · cases isOwner

end ThreatManager

end Sky548
