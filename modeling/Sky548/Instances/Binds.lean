import Sky548.Instances.InstanceSaves
import Sky548.Machine

/-!
# Binds agree with the lists of the saves

A player or a group is listed by a save exactly once if its bind for the map and the difficulty of the
save is that save, and else not at all (`Linked`). So a save that has nothing left in its lists has no
bind, and can be deleted, and what a reset unbinds is always bound to the save that is reset, so its
loops end (`unbindAll_spec`).
-/

namespace Sky548

open List InstanceSave KeyedList
open Function (update update_eq_self update_idem update_of_ne update_self)

namespace InstanceSave

variable (object : InstanceSave) (holder other : Holder)

theorem count_add :
    (object.add holder).count other = object.count other + if other = holder then 1 else 0 := by
  have one : ∀ guid guid' : Nat, List.count guid' [guid] = if guid' = guid then 1 else 0 := by
    intro guid guid'
    rw [count_singleton]
    rcases eq_or_ne guid' guid with rfl | apart
    · simp
    · simp [apart, Ne.symm apart]
  cases holder <;> cases other <;> simp [add, count, count_append, one]

theorem count_listRemove :
    (object.listRemove holder).count other = if other = holder then 0 else object.count other := by
  cases holder with
  | player guid =>
    cases other with
    | player guid' =>
      rcases eq_or_ne guid' guid with rfl | apart
      · simp [listRemove, count, count_eq_zero]
      · rw [if_neg (by simpa using apart)]
        exact count_filter (by simpa using apart)
    | group guid' => rfl
  | group guid =>
    cases other with
    | player guid' => rfl
    | group guid' =>
      rcases eq_or_ne guid' guid with rfl | apart
      · simp [listRemove, count, count_eq_zero]
      · rw [if_neg (by simpa using apart)]
        exact count_filter (by simpa using apart)

variable {object holder}

theorem isEmpty_iff : object.isEmpty = true ↔ ∀ holder, object.count holder = 0 := by
  rw [isEmpty, Bool.and_eq_true, List.isEmpty_iff, List.isEmpty_iff]
  constructor
  · rintro ⟨noPlayer, noGroup⟩ holder
    cases holder <;> simp [count, noPlayer, noGroup]
  · intro none
    exact ⟨List.eq_nil_iff_forall_not_mem.mpr fun guid => List.count_eq_zero.mp (none (.player guid)),
      List.eq_nil_iff_forall_not_mem.mpr fun guid => List.count_eq_zero.mp (none (.group guid))⟩

variable (holder) in
theorem not_isEmpty_of_count (listed : object.count holder ≠ 0) : object.isEmpty = false := by
  rw [← Bool.not_eq_true, isEmpty_iff]
  exact fun none => listed (none holder)

/-- The lists aside, two saves are the same. -/
structure Same (object object' : InstanceSave) : Prop where
  instanceid : object'.instanceid = object.instanceid
  mapid : object'.mapid = object.mapid
  difficulty : object'.difficulty = object.difficulty
  toDelete : object'.toDelete = object.toDelete

theorem same_add (object : InstanceSave) (holder : Holder) : object.Same (object.add holder) := by
  cases holder <;> exact ⟨rfl, rfl, rfl, rfl⟩

theorem same_listRemove (object : InstanceSave) (holder : Holder) :
    object.Same (object.listRemove holder) := by
  cases holder <;> exact ⟨rfl, rfl, rfl, rfl⟩

end InstanceSave

namespace InstanceSaves

variable (maps : MapStore) {s t : InstanceSaves} {holder : Holder} {save mapid difficulty : Nat}
  {object object' : InstanceSave}

variable (s) in
/-- The save that a player or a group is bound to -/
def bindSave (holder : Holder) (difficulty mapid : Nat) : Option Nat :=
  ((s.boundInstances holder difficulty).find? mapid).map InstanceBind.save

/-- **What binds and lists have to do with each other**, also in the middle of a reset -/
structure Linked (s : InstanceSaves) : Prop where
  usable : s.misused = false
  ends : s.hung = false
  stored : ∀ instanceid save, s.instanceSaveById instanceid = some save →
    ∃ object, s.memory save = some object ∧ object.instanceid = instanceid
  found : ∀ save object, s.memory save = some object →
    s.instanceSaveById object.instanceid = some save ∧ object.toDelete = false ∧ save < s.next
  bound : ∀ holder difficulty mapid save, s.bindSave holder difficulty mapid = some save →
    ∃ object, s.memory save = some object ∧ object.difficulty = difficulty ∧ object.mapid = mapid
  listed : ∀ save object holder, s.memory save = some object → object.count holder =
    if s.bindSave holder object.difficulty object.mapid = some save then 1 else 0

/-- No save but one has been left by all that was bound to it. -/
def Kept (s : InstanceSaves) (but : Option Nat) : Prop :=
  ∀ save object, s.memory save = some object → some save ≠ but → object.bound = true →
    object.isEmpty = false

/-- What holds between two calls -/
structure Settled (s : InstanceSaves) : Prop where
  linked : Linked s
  kept : Kept s none
  unlocked : s.lockInstLists = false

theorem bindSave_setBinds {binds : BoundInstances} (h : Holder) (d m : Nat) :
    (s.setBinds holder difficulty binds).bindSave h d m =
      if h = holder ∧ d = difficulty then (binds.find? m).map InstanceBind.save
      else s.bindSave h d m := by
  by_cases isHere : h = holder ∧ d = difficulty <;> simp [bindSave, setBinds, isHere]

theorem bindSave_setBinds_of {binds : BoundInstances} {bound : Option InstanceBind}
    (found : ∀ m, binds.find? m =
      if m = mapid then bound else (s.boundInstances holder difficulty).find? m) (h : Holder) (d m : Nat) :
    (s.setBinds holder difficulty binds).bindSave h d m =
      if h = holder ∧ d = difficulty ∧ m = mapid then bound.map InstanceBind.save else s.bindSave h d m := by
  rw [bindSave_setBinds]
  by_cases isHere : h = holder ∧ d = difficulty
  · obtain ⟨rfl, rfl⟩ := isHere
    rw [if_pos ⟨rfl, rfl⟩, found]
    by_cases isMap : m = mapid
    · rw [if_pos isMap, if_pos ⟨rfl, rfl, isMap⟩]
    · rw [if_neg isMap, if_neg fun both => isMap both.2.2]
      rfl
  · rw [if_neg isHere, if_neg fun both => isHere ⟨both.1, both.2.1⟩]

theorem bindSave_erase (h : Holder) (d m : Nat) :
    (s.setBinds holder difficulty ((s.boundInstances holder difficulty).erase mapid)).bindSave h d m =
      if h = holder ∧ d = difficulty ∧ m = mapid then none else s.bindSave h d m :=
  @bindSave_setBinds_of s holder mapid difficulty _ none (find?_erase _ _) h d m

theorem bindSave_insert {bind : InstanceBind} (h : Holder) (d m : Nat) :
    (s.setBinds holder difficulty ((s.boundInstances holder difficulty).insert bind)).bindSave h d m =
      if h = holder ∧ d = difficulty ∧ m = bind.mapid then some bind.save else s.bindSave h d m :=
  @bindSave_setBinds_of s holder bind.mapid difficulty _ (some bind) (find?_insert _ _) h d m

theorem Linked.of_put (linked : Linked s) (isThere : s.memory save = some object)
    (same : object.Same object') (memory : t.memory = update s.memory save (some object'))
    (byId : t.instanceSaveById = s.instanceSaveById) (next : t.next = s.next)
    (usable : t.misused = false) (ends : t.hung = false)
    (others : ∀ h d m, (h, d, m) ≠ (holder, object.difficulty, object.mapid) →
      t.bindSave h d m = s.bindSave h d m)
    (before : s.bindSave holder object.difficulty object.mapid = none ∨
      s.bindSave holder object.difficulty object.mapid = some save)
    (after : t.bindSave holder object.difficulty object.mapid = none ∨
      t.bindSave holder object.difficulty object.mapid = some save)
    (counts : ∀ h, object'.count h = if h = holder then
      (if t.bindSave holder object.difficulty object.mapid = some save then 1 else 0)
      else object.count h) : Linked t := by
  have here : t.memory save = some object' := by rw [memory, update_self]
  have there : ∀ save', save' ≠ save → t.memory save' = s.memory save' := by
    intro save' apart
    rw [memory, update_of_ne apart]
  refine ⟨usable, ends, ?_, ?_, ?_, ?_⟩
  · intro instanceid save' isStored
    rw [byId] at isStored
    obtain ⟨object₁, isThere₁, sameId⟩ := linked.stored instanceid save' isStored
    rcases eq_or_ne save' save with rfl | apart
    · rw [isThere] at isThere₁
      rw [Option.some.inj isThere₁] at same
      exact ⟨object', here, same.instanceid.trans sameId⟩
    · exact ⟨object₁, (there save' apart).trans isThere₁, sameId⟩
  · intro save' object₁ isThere₁
    rw [byId, next]
    rcases eq_or_ne save' save with rfl | apart
    · rw [here] at isThere₁
      rw [← Option.some.inj isThere₁, same.instanceid, same.toDelete]
      exact linked.found save' object isThere
    · rw [there save' apart] at isThere₁
      exact linked.found save' object₁ isThere₁
  · intro h d m save' isBound
    by_cases isHere : (h, d, m) = (holder, object.difficulty, object.mapid)
    · obtain ⟨rfl, rfl, rfl⟩ : h = holder ∧ d = object.difficulty ∧ m = object.mapid := by
        simpa using isHere
      rcases after with none | some
      · rw [none] at isBound
        cases isBound
      · rw [some] at isBound
        obtain rfl := Option.some.inj isBound
        exact ⟨object', here, same.difficulty, same.mapid⟩
    · rw [others h d m isHere] at isBound
      obtain ⟨object₁, isThere₁, sameDifficulty, sameMap⟩ := linked.bound h d m save' isBound
      rcases eq_or_ne save' save with rfl | apart
      · rw [isThere] at isThere₁
        rw [Option.some.inj isThere₁] at same
        exact ⟨object', here, same.difficulty.trans sameDifficulty, same.mapid.trans sameMap⟩
      · exact ⟨object₁, (there save' apart).trans isThere₁, sameDifficulty, sameMap⟩
  · intro save' object₁ h isThere₁
    rcases eq_or_ne save' save with rfl | apart
    · rw [here] at isThere₁
      rw [← Option.some.inj isThere₁, same.difficulty, same.mapid, counts]
      by_cases isHolder : h = holder
      · rw [if_pos isHolder, isHolder]
      · rw [if_neg isHolder, others h _ _ (by simp [isHolder])]
        exact linked.listed save' object h isThere
    · rw [there save' apart] at isThere₁
      rw [linked.listed save' object₁ h isThere₁]
      by_cases isHere : (h, object₁.difficulty, object₁.mapid) =
          (holder, object.difficulty, object.mapid)
      · obtain ⟨rfl, sameDifficulty, sameMap⟩ : h = holder ∧ object₁.difficulty = object.difficulty ∧
            object₁.mapid = object.mapid := by simpa using isHere
        have apart' : save ≠ save' := Ne.symm apart
        rw [sameDifficulty, sameMap]
        rcases before with none | some <;> rcases after with none' | some' <;> simp [*]
      · rw [others _ _ _ isHere]

theorem access_eq {f : InstanceSave → InstanceSaves} (isThere : s.memory save = some object) :
    s.access save f = f object := by
  rw [access, isThere]

@[simp] theorem memory_put :
    (s.put save object).memory = update s.memory save (some object) := rfl

theorem memory_put_self : (s.put save object).memory save = some object := update_self _ _ _

@[simp] theorem memory_setBinds {binds : BoundInstances} :
    (s.setBinds holder difficulty binds).memory = s.memory := rfl

variable (s) in
/-- The save is gone, and the manager does not have it any more. -/
def unload (save instanceid : Nat) : InstanceSaves :=
  { s with
    memory := update s.memory save none
    instanceSaveById := update s.instanceSaveById instanceid none }

@[simp] theorem memory_unload {instanceid : Nat} :
    (s.unload save instanceid).memory = update s.memory save none := rfl

theorem remove_eq_of_stored (isThere : s.memory save = some object)
    (isStored : s.instanceSaveById object.instanceid = some save) (notMarked : object.toDelete = false) :
    s.remove holder save =
      if (object.listRemove holder).isEmpty && !s.lockInstLists then s.unload save object.instanceid
      else s.put save (object.listRemove holder) := by
  have same := object.same_listRemove holder
  rw [remove, access_eq isThere]
  have sameLock : (s.put save (object.listRemove holder)).lockInstLists = s.lockInstLists := rfl
  simp only [unloadIfEmpty, same.instanceid, sameLock]
  by_cases isLeft : ((object.listRemove holder).isEmpty && !s.lockInstLists) = true
  · simp only [if_pos isLeft]
    rw [Bool.and_eq_true] at isLeft
    have removed : (s.put save (object.listRemove holder)).removeInstanceSave object.instanceid =
        { s.put save { object.listRemove holder with toDelete := true } with
          instanceSaveById := update s.instanceSaveById object.instanceid none } := by
      simp only [removeInstanceSave, put, isStored]
      rw [access_eq (update_self _ _ _)]
      simp only [update_idem]
    have isEmpty : ({ object.listRemove holder with toDelete := true } : InstanceSave).isEmpty = true :=
      isLeft.1
    rw [removed, access_eq (update_self _ _ _), if_pos rfl, delete,
      access_eq (update_self _ _ _), isEmpty]
    simp only [put, update_idem, Bool.not_true, Bool.or_false]
    rfl
  · simp only [if_neg isLeft]
    rw [access_eq memory_put_self, same.toDelete, notMarked]
    rfl

section

variable (linked : Linked s)

include linked

theorem remove_eq (isThere : s.memory save = some object) : s.remove holder save =
      if (object.listRemove holder).isEmpty && !s.lockInstLists then s.unload save object.instanceid
      else s.put save (object.listRemove holder) := by
  obtain ⟨isStored, notMarked, -⟩ := linked.found save object isThere
  exact remove_eq_of_stored isThere isStored notMarked

theorem Linked.of_unload (isThere : s.memory save = some object)
    (memory : t.memory = update s.memory save none)
    (byId : t.instanceSaveById = update s.instanceSaveById object.instanceid none)
    (next : t.next = s.next) (usable : t.misused = false) (ends : t.hung = false)
    (binds : ∀ h d m, t.bindSave h d m = s.bindSave h d m ∨
      t.bindSave h d m = none ∧ s.bindSave h d m = some save)
    (unbound : ∀ h d m, t.bindSave h d m ≠ some save) : Linked t := by
  have there : ∀ save', save' ≠ save → t.memory save' = s.memory save' := by
    intro save' apart
    rw [memory, update_of_ne apart]
  have gone : t.memory save = none := by rw [memory, update_self]
  have isStored := (linked.found save object isThere).1
  refine ⟨usable, ends, ?_, ?_, ?_, ?_⟩
  · intro instanceid save' isStored'
    rw [byId] at isStored'
    rcases eq_or_ne instanceid object.instanceid with rfl | apart
    · rw [update_self] at isStored'
      cases isStored'
    rw [update_of_ne apart] at isStored'
    obtain ⟨object', isThere', sameId⟩ := linked.stored instanceid save' isStored'
    refine ⟨object', ?_, sameId⟩
    rw [there save' fun same => ?_, isThere']
    rw [same, isThere] at isThere'
    rw [← sameId, ← Option.some.inj isThere'] at apart
    exact apart rfl
  · intro save' object' isThere'
    have apart : save' ≠ save := by
      rintro rfl
      rw [gone] at isThere'
      cases isThere'
    rw [there save' apart] at isThere'
    obtain ⟨isStored', notMarked, below⟩ := linked.found save' object' isThere'
    rw [byId, next]
    refine ⟨?_, notMarked, below⟩
    rw [update_of_ne fun same => ?_, isStored']
    rw [same, isStored] at isStored'
    exact apart (Option.some.inj isStored').symm
  · intro h d m save' isBound
    have apart : save' ≠ save := fun same => unbound h d m (same ▸ isBound)
    rw [there save' apart]
    rcases binds h d m with kept | ⟨none, -⟩
    · rw [kept] at isBound
      exact linked.bound h d m save' isBound
    · rw [none] at isBound
      cases isBound
  · intro save' object' h isThere'
    have apart : save' ≠ save := by
      rintro rfl
      rw [gone] at isThere'
      cases isThere'
    rw [there save' apart] at isThere'
    rw [linked.listed save' object' h isThere']
    rcases binds h object'.difficulty object'.mapid with kept | ⟨none, wasHere⟩
    · rw [kept]
    · rw [none, wasHere, if_neg fun same => apart (Option.some.inj same).symm, if_neg nofun]

/-- **All that unbinding does**: nothing without a bind, and else the bind goes, and its save lists
the holder no more, or is gone as well. -/
theorem unbind_cases (holder : Holder) (mapid difficulty : Nat) :
    s.bindSave holder difficulty mapid = none ∧ s.unbind holder mapid difficulty = s ∨
    ∃ save object, s.bindSave holder difficulty mapid = some save ∧ s.memory save = some object ∧
      object.difficulty = difficulty ∧ object.mapid = mapid ∧
      s.unbind holder mapid difficulty =
        (if (object.listRemove holder).isEmpty && !s.lockInstLists then s.unload save object.instanceid
          else s.put save (object.listRemove holder)).setBinds holder difficulty
            ((s.boundInstances holder difficulty).erase mapid) := by
  unfold unbind
  cases found : (s.boundInstances holder difficulty).find? mapid with
  | none =>
    have noBind : s.bindSave holder difficulty mapid = none := by rw [bindSave, found]; rfl
    exact Or.inl ⟨noBind, rfl⟩
  | some bind =>
    have isBind : s.bindSave holder difficulty mapid = some bind.save := by rw [bindSave, found]; rfl
    obtain ⟨object, isThere, sameDifficulty, sameMap⟩ := linked.bound _ _ _ _ isBind
    refine Or.inr ⟨bind.save, object, isBind, isThere, sameDifficulty, sameMap, ?_⟩
    have sameBinds : ∀ b : Bool, (if b then s.unload bind.save object.instanceid
        else s.put bind.save (object.listRemove holder)).boundInstances = s.boundInstances := by
      intro b
      cases b <;> rfl
    simp only [remove_eq linked isThere, sameBinds]

theorem boundInstances_unbind (h : Holder) (d : Nat) :
    (s.unbind holder mapid difficulty).boundInstances h d = (s.setBinds holder difficulty
        ((s.boundInstances holder difficulty).erase mapid)).boundInstances h d := by
  rcases unbind_cases linked holder mapid difficulty with ⟨noBind, same⟩ |
    ⟨save, object, -, -, -, -, unbound⟩
  · rw [same, setBinds]
    by_cases isHere : h = holder ∧ d = difficulty
    · obtain ⟨rfl, rfl⟩ := isHere
      have absent : ∀ bind ∈ s.boundInstances h d, bind.mapid ≠ mapid :=
        find?_eq_none_iff.mp (Option.map_eq_none_iff.mp noBind)
      simp only [and_self, if_true]
      exact (erase_of_absent absent).symm
    · simp only [isHere, if_false]
  · rw [unbound]
    split <;> rfl

theorem bindSave_unbind (h : Holder) (d m : Nat) :
    (s.unbind holder mapid difficulty).bindSave h d m =
      if h = holder ∧ d = difficulty ∧ m = mapid then none else s.bindSave h d m := by
  rw [bindSave, boundInstances_unbind linked]
  exact bindSave_erase h d m

theorem linked_unbind : Linked (s.unbind holder mapid difficulty) := by
  have binds : ∀ h d m, (s.unbind holder mapid difficulty).bindSave h d m = _ := bindSave_unbind linked
  rcases unbind_cases linked holder mapid difficulty with ⟨-, same⟩ |
    ⟨save, object, isBind, isThere, rfl, rfl, unbound⟩
  · rw [same]
    exact linked
  have gone : (s.unbind holder object.mapid object.difficulty).bindSave holder object.difficulty
      object.mapid = none := by
    rw [binds, if_pos ⟨rfl, rfl, rfl⟩]
  by_cases isLeft : ((object.listRemove holder).isEmpty && !s.lockInstLists) = true
  · rw [if_pos isLeft] at unbound
    rw [Bool.and_eq_true] at isLeft
    have none := isEmpty_iff.mp isLeft.1
    refine linked.of_unload isThere (by rw [unbound]; rfl) (by rw [unbound]; rfl)
      (by rw [unbound]; rfl) (by rw [unbound]; exact linked.usable)
      (by rw [unbound]; exact linked.ends) (fun h d m => ?_) (fun h d m isBound => ?_)
    · rw [binds]
      split
      · rename_i isHere
        rw [isHere.1, isHere.2.1, isHere.2.2]
        exact Or.inr ⟨rfl, isBind⟩
      · exact Or.inl rfl
    · -- a bind that is left would be listed
      rw [binds] at isBound
      split at isBound
      · cases isBound
      rename_i isOther
      obtain ⟨object', isThere', rfl, rfl⟩ := linked.bound _ _ _ _ isBound
      obtain rfl : object' = object := Option.some.inj (isThere'.symm.trans isThere)
      have listed := linked.listed save object' h isThere
      have removed := none h
      rw [count_listRemove, if_neg fun same => isOther ⟨same, rfl, rfl⟩, listed,
        if_pos isBound] at removed
      cases removed
  · rw [if_neg isLeft] at unbound
    refine linked.of_put isThere (object.same_listRemove holder) (by rw [unbound]; rfl)
      (by rw [unbound]; rfl) (by rw [unbound]; rfl) (by rw [unbound]; exact linked.usable)
      (by rw [unbound]; exact linked.ends) (fun h d m isOther => ?_) (Or.inr isBind) (Or.inl gone)
      (fun h => ?_)
    · rw [binds, if_neg fun same => isOther ?_]
      rw [same.1, same.2.1, same.2.2]
    · rw [count_listRemove, gone]
      rfl

theorem lockInstLists_unbind :
    (s.unbind holder mapid difficulty).lockInstLists = s.lockInstLists := by
  rcases unbind_cases linked holder mapid difficulty with ⟨-, same⟩ |
    ⟨save, object, -, -, -, -, unbound⟩
  · rw [same]
  · rw [unbound]
    split <;> rfl

end

/-- Out of a reset, a save that is left empty goes. -/
theorem kept_unbind (settled : Settled s) : Kept (s.unbind holder mapid difficulty) none := by
  rcases unbind_cases settled.linked holder mapid difficulty with ⟨-, same⟩ |
    ⟨save, object, -, isThere, -, -, unbound⟩
  · rw [same]
    exact settled.kept
  intro save' object' isThere' _ wasBound
  rw [unbound, settled.unlocked, Bool.not_false, Bool.and_true] at isThere'
  rcases eq_or_ne save' save with rfl | apart
  · split at isThere'
    · rw [memory_setBinds, memory_unload, update_self] at isThere'
      cases isThere'
    rename_i notLeft
    rw [memory_setBinds, memory_put, update_self] at isThere'
    rw [← Option.some.inj isThere']
    exact eq_false_of_ne_true notLeft
  · refine settled.kept save' object' ?_ nofun wasBound
    rw [← isThere']
    split
    · exact (update_of_ne apart _ _).symm
    · exact (update_of_ne apart _ _).symm

theorem settled_unbind (settled : Settled s) : Settled (s.unbind holder mapid difficulty) where
  linked := linked_unbind settled.linked
  kept := kept_unbind settled
  unlocked := (lockInstLists_unbind settled.linked).trans settled.unlocked

theorem memory_unbind_of_locked (linked : Linked s) (locked : s.lockInstLists = true)
    (isBind : s.bindSave holder difficulty mapid = some save) (isThere : s.memory save = some object) :
    (s.unbind holder mapid difficulty).memory =
        update s.memory save (some (object.listRemove holder)) ∧
      (s.unbind holder mapid difficulty).instanceSaveById = s.instanceSaveById := by
  rcases unbind_cases linked holder mapid difficulty with ⟨noBind, -⟩ |
    ⟨save', object', isBind', isThere', -, -, unbound⟩
  · rw [noBind] at isBind
    cases isBind
  · obtain rfl := Option.some.inj (isBind.symm.trans isBind')
    obtain rfl := Option.some.inj (isThere.symm.trans isThere')
    rw [unbound, locked, Bool.not_true, Bool.and_false]
    exact ⟨rfl, rfl⟩

/-- A save that a permanent bind has been made to cannot be reset. -/
def cleared (clearsReset : Bool) (object : InstanceSave) : InstanceSave :=
  if clearsReset then { object with canReset := false } else object

theorem same_cleared (clearsReset : Bool) (object : InstanceSave) :
    object.Same (cleared clearsReset object) := by
  cases clearsReset <;> exact ⟨rfl, rfl, rfl, rfl⟩

theorem count_cleared (clearsReset : Bool) (object : InstanceSave) (h : Holder) :
    (cleared clearsReset object).count h = object.count h := by
  cases clearsReset <;> cases h <;> rfl

theorem clear_eq (clearsReset : Bool) (isThere : s.memory save = some object) :
    (if clearsReset then s.access save fun object => s.put save { object with canReset := false } else s) =
      s.put save (cleared clearsReset object) := by
  cases clearsReset with
  | false =>
    have same : update s.memory save (some object) = s.memory := by
      rw [← isThere, update_eq_self]
    simp only [Bool.false_eq_true, if_false, cleared, put, same]
  | true => exact access_eq isThere

theorem rebind_eq (linked : Linked s) (isThere : s.memory save = some object)
    (isOther : s.bindSave holder object.difficulty object.mapid ≠ some save) :
    (s.unbind holder object.mapid object.difficulty).memory save = some object ∧
      s.rebind holder save ((s.boundInstances holder object.difficulty).find? object.mapid) =
        ({ s.unbind holder object.mapid object.difficulty with
          boundInstances := s.boundInstances } : InstanceSaves).put save (object.add holder) := by
  have others : ∀ (b : Bool) (old : Nat) (object' : InstanceSave), old ≠ save →
      (if b then s.unload old object'.instanceid
        else s.put old (object'.listRemove holder)).memory save = some object := by
    intro b old object' apart
    cases b with
    | true => exact (update_of_ne (Ne.symm apart) _ _).trans isThere
    | false => exact (update_of_ne (Ne.symm apart) _ _).trans isThere
  unfold rebind unbind
  rcases found : (s.boundInstances holder object.difficulty).find? object.mapid with _ | bind
  · exact ⟨isThere, access_eq isThere⟩
  have isBind : s.bindSave holder object.difficulty object.mapid = some bind.save := by
    rw [bindSave, found]
    rfl
  have apart : bind.save ≠ save := by
    rintro same
    rw [same] at isBind
    exact isOther isBind
  obtain ⟨object', isThere', -⟩ := linked.bound _ _ _ _ isBind
  have sameBinds : (s.remove holder bind.save).boundInstances = s.boundInstances := by
    rw [remove_eq linked isThere']
    split <;> rfl
  have stays : (s.remove holder bind.save).memory save = some object := by
    rw [remove_eq linked isThere']
    exact others _ bind.save object' apart
  refine ⟨stays, ?_⟩
  rw [if_neg (by simpa using apart), Option.elim_some, access_eq stays, ← sameBinds]
  rfl

theorem Linked.of_bind {bind : InstanceBind} {clearsReset : Bool} {x : InstanceSave} (linked : Linked s)
    (isThere : s.memory save = some object) (same : object.Same x)
    (before : s.bindSave holder object.difficulty object.mapid = none ∨
      s.bindSave holder object.difficulty object.mapid = some save)
    (isMap : bind.mapid = object.mapid) (isSave : bind.save = save)
    (counts : ∀ h, x.count h = if h = holder then 1 else object.count h)
    (binds : ∀ h d m, (h, d, m) ≠ (holder, object.difficulty, object.mapid) →
      t.bindSave h d m = s.bindSave h d m)
    (memory : t.memory = s.memory) (byId : t.instanceSaveById = s.instanceSaveById)
    (next : t.next = s.next) (usable : t.misused = false) (ends : t.hung = false) :
    Linked ((t.put save (cleared clearsReset x)).setBinds holder object.difficulty
      ((t.boundInstances holder object.difficulty).insert bind)) := by
  have inserted : ∀ h d m, ((t.put save (cleared clearsReset x)).setBinds holder object.difficulty
      ((t.boundInstances holder object.difficulty).insert bind)).bindSave h d m =
        if h = holder ∧ d = object.difficulty ∧ m = bind.mapid then some bind.save
        else t.bindSave h d m := fun h d m => bindSave_insert h d m
  have isBound : ((t.put save (cleared clearsReset x)).setBinds holder object.difficulty
      ((t.boundInstances holder object.difficulty).insert bind)).bindSave holder object.difficulty
        object.mapid = some save := by
    rw [inserted, if_pos ⟨rfl, rfl, isMap.symm⟩, isSave]
  have sameCleared := same_cleared clearsReset x
  refine linked.of_put isThere ⟨sameCleared.instanceid.trans same.instanceid,
    sameCleared.mapid.trans same.mapid, sameCleared.difficulty.trans same.difficulty,
    sameCleared.toDelete.trans same.toDelete⟩ ?_ byId next usable ends (fun h d m isOther => ?_) before
    (Or.inr isBound) (fun h => ?_)
  · rw [memory_setBinds, memory_put, memory]
  · rw [inserted, if_neg fun isHere => isOther ?_, binds h d m isOther]
    rw [isHere.1, isHere.2.1, isHere.2.2, isMap]
  · rw [count_cleared, counts, isBound, if_pos rfl]

theorem put_put {x y : InstanceSave} : (s.put save x).put save y = s.put save y := by
  simp only [put, update_idem]

theorem bind_eq (linked : Linked s) (isThere : s.memory save = some object)
    (permanent clearsReset : Bool) :
    s.bindSave holder object.difficulty object.mapid = some save ∧
      s.bind holder save permanent clearsReset =
        (s.put save (cleared clearsReset object)).setBinds holder object.difficulty
          ((s.boundInstances holder object.difficulty).insert ⟨object.mapid, save, permanent⟩) ∨
    (s.bindSave holder object.difficulty object.mapid ≠ some save ∧
      (s.unbind holder object.mapid object.difficulty).memory save = some object ∧
      s.bind holder save permanent clearsReset =
        (({ s.unbind holder object.mapid object.difficulty with
            boundInstances := s.boundInstances } : InstanceSaves).put save
              (cleared clearsReset (object.add holder))).setBinds holder object.difficulty
          ((s.boundInstances holder object.difficulty).insert ⟨object.mapid, save, permanent⟩)) := by
  unfold bind
  rw [access_eq isThere]
  by_cases isSame : s.bindSave holder object.difficulty object.mapid = some save
  · have stays : s.rebind holder save
        ((s.boundInstances holder object.difficulty).find? object.mapid) = s := if_pos isSame
    refine Or.inl ⟨isSame, ?_⟩
    simp only [stays, clear_eq clearsReset isThere]
    rfl
  · obtain ⟨isThere', rebound⟩ := rebind_eq linked isThere isSame
    refine Or.inr ⟨isSame, isThere', ?_⟩
    simp only [rebound]
    rw [clear_eq clearsReset memory_put_self, put_put]
    rfl

theorem boundInstances_bind_of_ne (linked : Linked s) (isThere : s.memory save = some object)
    (permanent clearsReset : Bool) {h : Holder} (isOther : h ≠ holder) (d : Nat) :
    (s.bind holder save permanent clearsReset).boundInstances h d = s.boundInstances h d := by
  rcases bind_eq linked isThere permanent clearsReset with ⟨-, bound⟩ | ⟨-, -, bound⟩
  · rw [bound]
    exact if_neg fun isHere => isOther isHere.1
  · rw [bound]
    exact if_neg fun isHere => isOther isHere.1

theorem settled_bind (settled : Settled s) (isThere : s.memory save = some object)
    (permanent clearsReset : Bool) : Settled (s.bind holder save permanent clearsReset) := by
  have linked := settled.linked
  rcases bind_eq linked isThere permanent clearsReset with ⟨isSame, bound⟩ | ⟨isOther, isThere', bound⟩
  · have isListed : object.count holder = 1 := by
      rw [linked.listed save object holder isThere, if_pos isSame]
    rw [bound]
    refine ⟨linked.of_bind isThere ⟨rfl, rfl, rfl, rfl⟩ (Or.inr isSame) rfl rfl (fun h => ?_)
      (fun _ _ _ _ => rfl) rfl rfl rfl linked.usable linked.ends, ?_, settled.unlocked⟩
    · split
      · rename_i isHolder
        rw [isHolder, isListed]
      · rfl
    · intro save' object' isThere' _ wasBound
      rcases eq_or_ne save' save with rfl | apart
      · rw [memory_setBinds, memory_put, update_self] at isThere'
        rw [← Option.some.inj isThere']
        apply not_isEmpty_of_count holder
        rw [count_cleared, isListed]
        exact Nat.one_ne_zero
      · rw [memory_setBinds, memory_put, update_of_ne apart] at isThere'
        exact settled.kept save' object' isThere' nofun wasBound
  · have unbound : Settled (s.unbind holder object.mapid object.difficulty) := settled_unbind settled
    have noBind : (s.unbind holder object.mapid object.difficulty).bindSave holder object.difficulty
        object.mapid = none := by
      rw [bindSave_unbind linked, if_pos ⟨rfl, rfl, rfl⟩]
    have notListed : object.count holder = 0 := by
      rw [unbound.linked.listed save object holder isThere', noBind]
      rfl
    have isListed : (object.add holder).count holder = 1 := by
      rw [count_add, notListed, if_pos rfl]
    rw [bound]
    refine ⟨unbound.linked.of_bind isThere' (object.same_add holder) (Or.inl noBind) rfl rfl
      (fun h => ?_) (fun h d m isOther' => ?_) rfl rfl rfl unbound.linked.usable unbound.linked.ends, ?_,
      unbound.unlocked⟩
    · split
      · rename_i isHolder
        rw [isHolder, isListed]
      · rename_i isOther'
        rw [count_add, if_neg isOther', Nat.add_zero]
    · rw [bindSave_unbind linked, if_neg fun isHere => isOther' ?_]
      · rfl
      · rw [isHere.1, isHere.2.1, isHere.2.2]
    · intro save' object' isThere₁ _ wasBound
      rcases eq_or_ne save' save with rfl | apart
      · rw [memory_setBinds, memory_put, update_self] at isThere₁
        rw [← Option.some.inj isThere₁]
        apply not_isEmpty_of_count holder
        rw [count_cleared, isListed]
        exact Nat.one_ne_zero
      · rw [memory_setBinds, memory_put, update_of_ne apart] at isThere₁
        exact unbound.kept save' object' isThere₁ nofun wasBound

theorem addInstanceSave_cases (mapid instanceid difficulty : Nat) (canReset : Bool) :
    s.addInstanceSave maps mapid instanceid difficulty canReset = s ∨
    s.instanceSaveById instanceid = none ∧
      s.addInstanceSave maps mapid instanceid difficulty canReset =
        { s.put s.next ⟨instanceid, mapid % 2 ^ 16, difficulty, canReset, false, [], [], false⟩ with
          next := s.next + 1
          instanceSaveById := update s.instanceSaveById instanceid (some s.next) } := by
  unfold addInstanceSave
  cases s.instanceSaveById instanceid with
  | some save => exact Or.inl rfl
  | none =>
    cases maps.isRaid mapid with
    | none => exact Or.inl rfl
    | some isRaid =>
      cases isRaid <;> simp only [Bool.false_eq_true, if_true, if_false, true_and] <;> split_ifs <;>
        first | exact Or.inl rfl | exact Or.inr rfl

theorem settled_addInstanceSave (settled : Settled s) (mapid instanceid difficulty : Nat)
    (canReset : Bool) : Settled (s.addInstanceSave maps mapid instanceid difficulty canReset) := by
  have linked := settled.linked
  rcases addInstanceSave_cases maps mapid instanceid difficulty canReset with same | ⟨isFree, added⟩
  · rw [same]
    exact settled
  rw [added]
  have noneThere : s.memory s.next = none := by
    cases isThere : s.memory s.next with
    | none => rfl
    | some object => exact absurd (linked.found s.next object isThere).2.2 (Nat.lt_irrefl _)
  have older : ∀ save' object', s.memory save' = some object' → save' ≠ s.next := by
    rintro save' object' isThere rfl
    rw [noneThere] at isThere
    cases isThere
  refine ⟨⟨linked.usable, linked.ends, ?_, ?_, ?_, ?_⟩, ?_, settled.unlocked⟩
  · intro id save' isStored
    rcases eq_or_ne id instanceid with rfl | apart
    · simp only [update_self, Option.some.injEq] at isStored
      rw [← isStored]
      exact ⟨_, memory_put_self, rfl⟩
    · simp only [update_of_ne apart] at isStored
      obtain ⟨object', isThere, sameId⟩ := linked.stored id save' isStored
      exact ⟨object', (update_of_ne (older save' object' isThere) _ _).trans isThere, sameId⟩
  · intro save' object' isThere
    rcases eq_or_ne save' s.next with rfl | apart
    · simp only [memory_put, update_self, Option.some.injEq] at isThere
      rw [← isThere]
      exact ⟨update_self _ _ _, rfl, Nat.lt_succ_self _⟩
    simp only [memory_put, update_of_ne apart] at isThere
    obtain ⟨isStored, notMarked, below⟩ := linked.found save' object' isThere
    refine ⟨?_, notMarked, Nat.lt_succ_of_lt below⟩
    refine (update_of_ne (fun same => ?_) _ _).trans isStored
    rw [same, isFree] at isStored
    cases isStored
  · intro h d m save' isBound
    obtain ⟨object', isThere, rest⟩ := linked.bound h d m save' isBound
    exact ⟨object', (update_of_ne (older save' object' isThere) _ _).trans isThere, rest⟩
  · intro save' object' h isThere
    rcases eq_or_ne save' s.next with rfl | apart
    · simp only [memory_put, update_self, Option.some.injEq] at isThere
      rw [← isThere, if_neg fun isBound => ?_]
      · cases h <;> rfl
      · obtain ⟨object₁, isThere₁, -⟩ := linked.bound _ _ _ _ isBound
        exact older _ _ isThere₁ rfl
    · simp only [memory_put, update_of_ne apart] at isThere
      exact linked.listed save' object' h isThere
  · intro save' object' isThere _ wasBound
    rcases eq_or_ne save' s.next with rfl | apart
    · simp only [memory_put, update_self, Option.some.injEq] at isThere
      rw [← isThere] at wasBound
      cases wasBound
    · simp only [memory_put, update_of_ne apart] at isThere
      exact settled.kept save' object' isThere nofun wasBound

/-- What holds while a save is reset -/
structure Resetting (s : InstanceSaves) (save : Nat) : Prop where
  linked : Linked s
  kept : Kept s (some save)
  locked : s.lockInstLists = true

theorem resetting_turn (resetting : Resetting s save) (isThere : s.memory save = some object)
    (isListed : object.count holder ≠ 0) :
    Resetting (s.unbind holder object.mapid object.difficulty) save ∧
      (s.unbind holder object.mapid object.difficulty).memory save =
        some (object.listRemove holder) ∧
      (s.unbind holder object.mapid object.difficulty).instanceSaveById = s.instanceSaveById := by
  obtain ⟨linked, kept, locked⟩ := resetting
  have isBind : s.bindSave holder object.difficulty object.mapid = some save := by
    by_contra noBind
    rw [linked.listed save object holder isThere, if_neg noBind] at isListed
    exact isListed rfl
  obtain ⟨memory, byId⟩ := memory_unbind_of_locked linked locked isBind isThere
  refine ⟨⟨linked_unbind linked, ?_, (lockInstLists_unbind linked).trans locked⟩, ?_, byId⟩
  · intro save' object' isThere' apart wasBound
    rw [memory, update_of_ne fun same => apart (congrArg some same)] at isThere'
    exact kept save' object' isThere' apart wasBound
  · rw [memory, update_self]

theorem unbindAll_spec {kind : Nat → Holder} {list other : InstanceSave → List Nat}
    (counts : ∀ object guid, object.count (kind guid) = (list object).count guid)
    (removes : ∀ object guid, list (object.listRemove (kind guid)) = (list object).filter (· ≠ guid))
    (leaves : ∀ object guid, other (object.listRemove (kind guid)) = other object) (turns : Nat) :
    ∀ {s : InstanceSaves} {object : InstanceSave}, Resetting s save → s.memory save = some object →
      (list object).length ≤ turns →
      Resetting (unbindAll kind list save turns s) save ∧
        (unbindAll kind list save turns s).instanceSaveById = s.instanceSaveById ∧
        ∃ object', (unbindAll kind list save turns s).memory save = some object' ∧
          list object' = [] ∧ other object' = other object := by
  induction turns with
  | zero =>
    intro s object resetting isThere short
    have isEmpty : list object = [] := List.length_eq_zero_iff.mp (Nat.le_zero.mp short)
    rw [unbindAll, access_eq isThere, isEmpty, if_pos isEmpty_nil]
    exact ⟨resetting, rfl, object, isThere, isEmpty, rfl⟩
  | succ turns ih =>
    intro s object resetting isThere short
    rw [unbindAll, access_eq isThere]
    cases isList : list object with
    | nil => exact ⟨resetting, rfl, object, isThere, isList, rfl⟩
    | cons guid rest =>
      have isFirst : guid ∈ list object := by
        rw [isList]
        exact mem_cons_self
      have isListed : object.count (kind guid) ≠ 0 := by
        rw [counts]
        exact Nat.ne_of_gt (List.count_pos_iff.mpr isFirst)
      obtain ⟨resetting', isThere', byId⟩ := resetting_turn resetting isThere isListed
      have shorter : (list (object.listRemove (kind guid))).length ≤ turns := by
        have less := length_filter_lt_length_iff_exists (p := fun guid' => guid' ≠ guid).mpr
          ⟨guid, isFirst, by simp⟩
        rw [removes]
        omega
      obtain ⟨done, byId', object', isThere₁, isEmpty, same⟩ := ih resetting' isThere' shorter
      exact ⟨done, byId'.trans byId, object', isThere₁, isEmpty, same.trans (leaves object guid)⟩

theorem unbindPlayers_spec (resetting : Resetting s save) (isThere : s.memory save = some object) :
    Resetting (s.unbindPlayers save) save ∧
      (s.unbindPlayers save).instanceSaveById = s.instanceSaveById ∧
      ∃ object', (s.unbindPlayers save).memory save = some object' ∧
        object'.playerList = [] ∧ object'.groupList = object.groupList := by
  rw [unbindPlayers, access_eq isThere]
  exact unbindAll_spec (fun _ _ => rfl) (fun _ _ => rfl) (fun _ _ => rfl) _ resetting isThere
    (Nat.le_refl _)

theorem unbindGroups_spec (resetting : Resetting s save) (isThere : s.memory save = some object) :
    Resetting (s.unbindGroups save) save ∧
      (s.unbindGroups save).instanceSaveById = s.instanceSaveById ∧
      ∃ object', (s.unbindGroups save).memory save = some object' ∧
        object'.groupList = [] ∧ object'.playerList = object.playerList := by
  rw [unbindGroups, access_eq isThere]
  exact unbindAll_spec (fun _ _ => rfl) (fun _ _ => rfl) (fun _ _ => rfl) _ resetting isThere
    (Nat.le_refl _)

variable (s) in
/-- A save that is being reset, after both loops -/
def unbound (save : Nat) : InstanceSaves :=
  (({ s with lockInstLists := true } : InstanceSaves).unbindPlayers save).unbindGroups save

theorem unbound_spec (settled : Settled s) (isThere : s.memory save = some object) :
    Resetting (s.unbound save) save ∧ (s.unbound save).instanceSaveById = s.instanceSaveById ∧
      ∃ object', (s.unbound save).memory save = some object' ∧ object'.isEmpty = true := by
  have locked : Resetting { s with lockInstLists := true } save :=
    ⟨⟨settled.linked.usable, settled.linked.ends, settled.linked.stored, settled.linked.found,
      settled.linked.bound, settled.linked.listed⟩,
      fun save' object' isThere' _ wasBound => settled.kept save' object' isThere' nofun wasBound, rfl⟩
  obtain ⟨resetting, byId, object₁, isThere₁, noPlayer, -⟩ := unbindPlayers_spec locked isThere
  obtain ⟨resetting', byId', object₂, isThere₂, noGroup, same⟩ := unbindGroups_spec resetting isThere₁
  refine ⟨resetting', byId'.trans byId, object₂, isThere₂, ?_⟩
  rw [InstanceSave.isEmpty, noGroup, same, noPlayer]
  rfl

theorem settled_resetSave (settled : Settled s) (instanceid : Nat) :
    Settled (s.resetSave instanceid) := by
  unfold resetSave
  rcases isStored : s.instanceSaveById instanceid with _ | save
  · exact settled
  obtain ⟨object, isThere, -⟩ := settled.linked.stored instanceid save isStored
  obtain ⟨resetting, byId, object', isThere', isEmpty⟩ := unbound_spec settled isThere
  have deleted : (s.unbound save).delete save =
      { s.unbound save with memory := update (s.unbound save).memory save none } := by
    rw [delete, access_eq isThere', isEmpty, Bool.not_true, Bool.or_false]
  have sameId : object'.instanceid = instanceid := by
    have isStored' := isStored
    rw [← byId] at isStored'
    obtain ⟨object₁, isThere₁, sameId⟩ := resetting.linked.stored instanceid save isStored'
    obtain rfl := Option.some.inj (isThere₁.symm.trans isThere')
    exact sameId
  have noBind : ∀ h d m, (s.unbound save).bindSave h d m ≠ some save := by
    intro h d m isBound
    obtain ⟨object₁, isThere₁, rfl, rfl⟩ := resetting.linked.bound h d m save isBound
    obtain rfl := Option.some.inj (isThere₁.symm.trans isThere')
    have listed := resetting.linked.listed save object₁ h isThere'
    rw [if_pos isBound, isEmpty_iff.mp isEmpty h] at listed
    cases listed
  change Settled { (s.unbound save).delete save with
    instanceSaveById :=
      update ((s.unbound save).delete save).instanceSaveById instanceid none
    lockInstLists := false }
  rw [deleted]
  refine ⟨resetting.linked.of_unload isThere' rfl (by rw [sameId]) rfl
    resetting.linked.usable resetting.linked.ends (fun _ _ _ => Or.inl rfl) noBind, ?_, rfl⟩
  intro save' object₁ isThere₁ _ wasBound
  rcases eq_or_ne save' save with rfl | apart
  · change update (s.unbound save').memory save' none save' = some object₁ at isThere₁
    rw [update_self] at isThere₁
    cases isThere₁
  · change update (s.unbound save).memory save none save' = some object₁ at isThere₁
    rw [update_of_ne apart] at isThere₁
    exact resetting.kept save' object₁ isThere₁ (by simpa using apart) wasBound

theorem erase_remove {bind : InstanceBind} (linked : Linked s)
    (isBind : bind ∈ s.boundInstances holder difficulty) :
    (s.setBinds holder difficulty
        ((s.boundInstances holder difficulty).erase bind.mapid)).remove holder bind.save =
      s.unbind holder bind.mapid difficulty := by
  have found : (s.boundInstances holder difficulty).find? bind.mapid = some bind :=
    find?_of_mem isBind
  have isBound : s.bindSave holder difficulty bind.mapid = some bind.save := by
    rw [bindSave, found]
    rfl
  obtain ⟨object, isThere, -⟩ := linked.bound _ _ _ _ isBound
  obtain ⟨isStored, notMarked, -⟩ := linked.found bind.save object isThere
  have erasedFirst : (s.setBinds holder difficulty
      ((s.boundInstances holder difficulty).erase bind.mapid)).remove holder bind.save = _ :=
    remove_eq_of_stored isThere isStored notMarked
  rcases unbind_cases linked holder bind.mapid difficulty with ⟨noBind, -⟩ |
    ⟨save', object', isBound', isThere', -, -, unbound⟩
  · rw [noBind] at isBound
    cases isBound
  · obtain rfl := Option.some.inj (isBound.symm.trans isBound')
    obtain rfl := Option.some.inj (isThere.symm.trans isThere')
    rw [erasedFirst, unbound, setBinds]
    split <;> rfl

section Walk

variable {guid : Nat} {method : ResetMethod} {isRaid : Bool} {occupied : Nat → Bool}

theorem Linked.memory_of_mem (linked : Linked s) {bind : InstanceBind}
    (isBind : bind ∈ s.boundInstances holder difficulty) :
    ∃ object, s.memory bind.save = some object ∧ object.difficulty = difficulty ∧
      object.mapid = bind.mapid := by
  refine linked.bound holder difficulty bind.mapid bind.save ?_
  rw [bindSave, find?_of_mem isBind]
  rfl

theorem walk_eq (linked : Linked s) {found : InstanceBind → InstanceSaves} :
    s.walk maps guid method isRaid difficulty occupied found =
      ((s.boundInstances (.group guid) difficulty).toList.find?
        (s.resets maps method isRaid difficulty occupied)).elim s found := by
  refine if_pos (List.all_eq_true.mpr fun bind member => ?_)
  obtain ⟨object, isThere, -⟩ := linked.memory_of_mem member
  rw [isThere]
  rfl

theorem settled_resetLoop (turns : Nat) : ∀ {s : InstanceSaves}, Settled s →
    (s.boundInstances (.group guid) difficulty).size ≤ turns →
    Settled (resetLoop maps guid method isRaid difficulty occupied turns s) := by
  induction turns with
  | zero =>
    intro s settled short
    have none : (s.boundInstances (.group guid) difficulty).toList = [] :=
      List.length_eq_zero_iff.mp (Nat.le_zero.mp short)
    rw [resetLoop, walk_eq maps settled.linked, none]
    exact settled
  | succ turns ih =>
    intro s settled short
    rw [resetLoop, walk_eq maps settled.linked]
    cases isNext : (s.boundInstances (.group guid) difficulty).toList.find?
        (s.resets maps method isRaid difficulty occupied) with
    | none => exact settled
    | some bind =>
      have isBind : bind ∈ s.boundInstances (.group guid) difficulty :=
        mem_of_find?_eq_some isNext
      rw [Option.elim_some, removeGroup, erase_remove settled.linked isBind]
      refine ih (settled_unbind settled) ?_
      have less := size_erase_lt isBind
      rw [boundInstances_unbind settled.linked, setBinds]
      simp only [and_self, if_true]
      omega

end Walk

section Convert

variable {player guid : Nat} {battle switchLeader : Bool} {bind : InstanceBind}

theorem settled_bindGroup (settled : Settled s) (isThere : s.memory save = some object)
    (permanent : Bool) : Settled (s.bindGroup guid battle save permanent) := by
  rw [bindGroup]
  split
  · exact settled
  · exact settled_bind settled isThere permanent false

theorem settled_convertBind (settled : Settled s)
    (isBind : bind ∈ s.boundInstances (.player player) difficulty) :
    Settled (s.convertBind maps player guid battle switchLeader difficulty bind) ∧
      ∀ bind' ∈ s.boundInstances (.player player) difficulty, bind'.mapid ≠ bind.mapid →
        bind' ∈ (s.convertBind maps player guid battle switchLeader
          difficulty bind).boundInstances (.player player) difficulty := by
  obtain ⟨object, isThere, -⟩ := settled.linked.memory_of_mem isBind
  rw [convertBind, access_eq isThere]
  simp only
  -- first the group is bound, or not
  have groupBound : ∀ (isFree : Prop) [Decidable isFree],
      Settled (if isFree then s.bindGroup guid battle bind.save bind.perm else s) ∧
        (if isFree then s.bindGroup guid battle bind.save bind.perm else s).boundInstances
          (.player player) = s.boundInstances (.player player) := by
    intro isFree _
    split
    · refine ⟨settled_bindGroup settled isThere bind.perm, funext fun d => ?_⟩
      rw [bindGroup]
      split
      · rfl
      have isOther : Holder.player player ≠ Holder.group guid := by
        intro same
        cases same
      exact boundInstances_bind_of_ne settled.linked isThere _ _ isOther d
    · exact ⟨settled, rfl⟩
  -- then the player is unbound, or not
  split
  · refine ⟨settled_unbind (groupBound _).1, fun bind' isBind' isOther => ?_⟩
    rw [unbindPlayer, boundInstances_unbind (groupBound _).1.linked, setBinds]
    simp only [and_self, if_true, (groupBound _).2]
    exact mem_erase.mpr ⟨isBind', isOther⟩
  · refine ⟨(groupBound _).1, fun bind' isBind' _ => ?_⟩
    rw [(groupBound _).2]
    exact isBind'

theorem settled_foldl_convertBind (binds : List InstanceBind) :
    ∀ {s : InstanceSaves}, Settled s → (binds.map InstanceBind.mapid).Nodup →
      (∀ bind ∈ binds, bind ∈ s.boundInstances (.player player) difficulty) →
      Settled (binds.foldl (fun s bind =>
        s.convertBind maps player guid battle switchLeader difficulty bind) s) := by
  induction binds with
  | nil =>
    intro s settled _ _
    exact settled
  | cons bind rest ih =>
    intro s settled distinct all
    obtain ⟨isOther, distinctRest⟩ := List.nodup_cons.mp distinct
    obtain ⟨settled', stay⟩ := settled_convertBind maps settled (all bind mem_cons_self)
    refine ih settled' distinctRest fun bind' member => ?_
    refine stay bind' (all bind' (mem_cons_of_mem _ member)) fun same => isOther ?_
    rw [← same]
    exact List.mem_map_of_mem member

theorem settled_convertInstancesToGroup (settled : Settled s) :
    Settled (s.convertInstancesToGroup maps player guid battle switchLeader) := by
  rw [convertInstancesToGroup]
  generalize List.range MAX_DIFFICULTY = difficulties
  induction difficulties generalizing s with
  | nil => exact settled
  | cons difficulty rest ih =>
    exact ih (settled_foldl_convertBind maps _ settled
      (s.boundInstances (.player player) difficulty).nodup fun bind member => member)

end Convert

theorem settled_step (settled : Settled s) (input : Input) : Settled (s.step maps input) := by
  cases input with
  | addInstanceSave mapid instanceid difficulty canReset =>
    exact settled_addInstanceSave maps settled mapid instanceid difficulty canReset
  | bindPlayer guid instanceid permanent =>
    rw [step]
    cases isStored : s.instanceSaveById instanceid with
    | none => exact settled
    | some save =>
      obtain ⟨object, isThere, -⟩ := settled.linked.stored instanceid save isStored
      exact settled_bind settled isThere permanent permanent
  | unbindPlayer guid mapid difficulty => exact settled_unbind settled
  | bindGroup guid battle instanceid permanent =>
    rw [step]
    cases isStored : s.instanceSaveById instanceid with
    | none => exact settled
    | some save =>
      obtain ⟨object, isThere, -⟩ := settled.linked.stored instanceid save isStored
      exact settled_bindGroup settled isThere permanent
  | unbindGroup guid mapid difficulty => exact settled_unbind settled
  | resetInstances guid battle method isRaid difficulty occupied =>
    rw [step, resetInstances]
    split
    · exact settled
    · exact settled_resetLoop maps _ settled (Nat.le_refl _)
  | convertInstancesToGroup player guid battle switchLeader =>
    exact settled_convertInstancesToGroup maps settled
  | resetSave instanceid => exact settled_resetSave settled instanceid

theorem settled_initial : Settled initial where
  linked := ⟨rfl, rfl, nofun, nofun, nofun, nofun⟩
  kept := nofun
  unlocked := rfl

/-- **What binds are for**: who is listed, which saves there are, that those that have been left are
gone, and that a reset ends. -/
structure Agree (s : InstanceSaves) : Prop where
  usable : s.misused = false
  ends : s.hung = false
  listed : ∀ save object holder, s.memory save = some object → object.count holder =
    if s.bindSave holder object.difficulty object.mapid = some save then 1 else 0
  stored : ∀ holder difficulty, ∀ bind ∈ s.boundInstances holder difficulty,
    ∃ object, s.memory bind.save = some object ∧
      s.instanceSaveById object.instanceid = some bind.save ∧
      object.difficulty = difficulty ∧ object.mapid = bind.mapid
  removed : ∀ save object, s.memory save = some object → object.bound = true → object.isEmpty = false
  managed : ∀ instanceid save, s.instanceSaveById instanceid = some save →
    ∃ object, s.memory save = some object ∧ object.instanceid = instanceid
  resets : ∀ instanceid save, s.instanceSaveById instanceid = some save →
    (s.unbound save).hung = false ∧
      ∃ object, (s.unbound save).memory save = some object ∧ object.isEmpty = true

theorem Settled.agree (settled : Settled s) : Agree s where
  usable := settled.linked.usable
  ends := settled.linked.ends
  listed := settled.linked.listed
  stored holder difficulty bind isBind := by
    obtain ⟨object, isThere, sameDifficulty, sameMap⟩ := settled.linked.memory_of_mem isBind
    exact ⟨object, isThere, (settled.linked.found bind.save object isThere).1, sameDifficulty, sameMap⟩
  removed save object isThere := settled.kept save object isThere nofun
  managed := settled.linked.stored
  resets instanceid save isStored := by
    obtain ⟨object, isThere, -⟩ := settled.linked.stored instanceid save isStored
    obtain ⟨resetting, -, isEmptied⟩ := unbound_spec settled isThere
    exact ⟨resetting.linked.ends, isEmptied⟩

/-- **Binds agree on both sides** throughout a run. -/
theorem agree_run (inputs : List Input) :
    Machine.Throughout (fun s input => s.step maps input) Agree initial inputs :=
  (Machine.Throughout.of_step settled_initial fun _ input settled =>
    settled_step maps settled input).mono fun _ settled => settled.agree

end InstanceSaves

end Sky548
