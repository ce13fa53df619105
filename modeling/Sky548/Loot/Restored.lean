import Sky548.Loot.Conditions
import Sky548.Loot.Stacks

/-!
# Conditions of stored loot

The loot of an opened container is stored without the conditions of its items, and they are
copied back when it is loaded. What `Process` puts into a loot comes from the template's
entries, its groups and the templates it refers to.
-/

namespace Sky548

open List

namespace LootTemplate

variable {t : LootTemplate}

/-! ## Generated items -/

/-- A place whose entry is added when the template is processed for a group, or for none. -/
def AddsAt (t : LootTemplate) (groupId : UInt8) (p : Spot) (item : LootStoreEntry) : Prop :=
  t.itemAt p = some item ∧
    match p with
    | .entry _ => groupId = 0 ∧ item.isRef = false
    | .explicit g _ => groupId = 0 ∨ g = groupId.toNat - 1
    | .equal g _ => groupId = 0 ∨ g = groupId.toNat - 1

/-- The reference templates that processing a template comes to, with the group. -/
inductive RefersTo (references : LootTemplateMap) (t : LootTemplate) : UInt32 → UInt8 → Prop
  | direct {k : Nat} {item : LootStoreEntry} : t.itemAt (.entry k) = some item →
      item.isRef = true → RefersTo references t item.refId item.group
  | through {id : UInt32} {t' : LootTemplate} {k : Nat} {item : LootStoreEntry} :
      RefersTo references t id 0 → references id = some t' → t'.itemAt (.entry k) = some item →
      item.isRef = true → RefersTo references t item.refId item.group

/-- The entries that are added when a template is processed. -/
def Adds (references : LootTemplateMap) (t : LootTemplate) (groupId : UInt8)
    (item : LootStoreEntry) : Prop :=
  (∃ p, t.AddsAt groupId p item) ∨
    groupId = 0 ∧ ∃ id group t' p, RefersTo references t id group ∧ references id = some t' ∧
      t'.AddsAt group p item

/-- A loot item made from an entry that a template adds. -/
def Generates (references : LootTemplateMap) (t : LootTemplate) (groupId : UInt8)
    (li : LootItem) : Prop :=
  ∃ item proto count, Adds references t groupId item ∧
    li = Loot.newItem proto item.toLootStoreItem count

theorem RefersTo.trans {references : LootTemplateMap} {t' : LootTemplate} {id other : UInt32}
    {group : UInt8} (first : RefersTo references t id 0) (found : references id = some t')
    (second : RefersTo references t' other group) : RefersTo references t other group := by
  induction second with
  | direct isItem isRef => exact RefersTo.through first found isItem isRef
  | through _ isTemplate isItem isRef ih => exact RefersTo.through ih isTemplate isItem isRef

theorem Adds.of_reference {references : LootTemplateMap} {t' : LootTemplate} {k : Nat}
    {item added : LootStoreEntry} (isItem : t.itemAt (.entry k) = some item)
    (isRef : item.isRef = true) (found : references item.refId = some t')
    (adds : Adds references t' item.group added) : Adds references t 0 added := by
  have direct : RefersTo references t item.refId item.group := RefersTo.direct isItem isRef
  rcases adds with ⟨p, here⟩ | ⟨ungrouped, id, group, t'', p, refers, isTemplate, here⟩
  · exact Or.inr ⟨rfl, item.refId, item.group, t', p, direct, found, here⟩
  · rw [ungrouped] at direct
    exact Or.inr ⟨rfl, id, group, t'', p, direct.trans found refers, isTemplate, here⟩

end LootTemplate

namespace LootRolls

open LootTemplate

variable {r : LootRolls} {rate : Bool} {lootMode : UInt16} {t : LootTemplate}

/-- A loot that has only what was there before, and items of a kind. -/
def Extends (made : LootItem → Prop) (l l' : Loot) : Prop :=
  ∀ list li, li ∈ l'.listFor list → li ∈ l.listFor list ∨ made li

theorem Extends.refl {made : LootItem → Prop} (l : Loot) : Extends made l l :=
  fun _ _ member => Or.inl member

theorem Extends.trans {made : LootItem → Prop} {l l' l'' : Loot} (first : Extends made l l')
    (second : Extends made l' l'') : Extends made l l'' := by
  intro list li member
  rcases second list li member with before | new
  · exact first list li before
  · exact Or.inr new

theorem Extends.mono {made made' : LootItem → Prop} {l l' : Loot} (extends' : Extends made l l')
    (implies : ∀ li, made li → made' li) : Extends made' l l' := by
  intro list li member
  exact (extends' list li member).imp_right (implies li)

/-- An item made from one entry. -/
def MadeFrom (item : LootStoreEntry) (li : LootItem) : Prop :=
  ∃ proto count, li = Loot.newItem proto item.toLootStoreItem count

theorem extends_push (proto : ItemTemplate) (item : LootStoreEntry) (count : UInt8) (l : Loot) :
    Extends (MadeFrom item) l (l.push proto item.toLootStoreItem count) := by
  obtain ⟨appended, other⟩ := Loot.appends_push proto item.toLootStoreItem count l
  intro list li member
  by_cases same : list = item.needsQuest
  · subst same
    rw [appended, mem_append, mem_singleton] at member
    exact member.imp_right fun isNew => ⟨proto, count, isNew⟩
  have isOther : list = !item.needsQuest := Bool.eq_not.mpr same
  rw [isOther] at member ⊢
  rw [other] at member
  exact Or.inl member

theorem extends_addStacks (proto : ItemTemplate) (item : LootStoreEntry) (n : Nat) :
    ∀ (count : UInt32) (l : Loot),
      Extends (MadeFrom item) l (Loot.addStacks proto item.toLootStoreItem n count l) := by
  induction n with
  | zero => exact fun _ l => Extends.refl l
  | succ n ih =>
    intro count l
    rw [Loot.addStacks_succ]
    split
    · exact Extends.refl l
    · exact (extends_push proto item _ l).trans (ih _ _)

theorem extends_addItem (item : LootStoreEntry) (s : LootFilling) :
    Extends (MadeFrom item) s.loot (r.addItem item s).loot := by
  unfold addItem Loot.addItem
  split
  · exact Extends.refl s.loot
  · exact extends_addStacks _ item _ _ _

theorem rollExplicit_mem {l : List LootStoreEntry} : ∀ {roll : ℚ} {item : LootStoreEntry},
    rollExplicit l roll = some item → item ∈ l := by
  induction l with
  | nil =>
    intro roll item result
    cases result
  | cons first rest ih =>
    intro roll item result
    rw [rollExplicit] at result
    split at result
    · exact Option.some.inj result ▸ mem_cons_self
    · split at result
      · exact Option.some.inj result ▸ mem_cons_self
      · exact mem_cons_of_mem first (ih result)

theorem extends_processGroup (lootMode : UInt16) (g : LootGroup) (s : LootFilling) :
    Extends (fun li => ∃ item ∈ g.items, MadeFrom item li) s.loot
      (r.processGroup g lootMode s).loot := by
  have sameLoot : (r.rollGroup g lootMode s).2.loot = s.loot := by
    unfold rollGroup
    dsimp only
    split
    · split <;> rfl
    · split
      · split <;> rfl
      · split <;> rfl
  have isMember : ∀ item, (r.rollGroup g lootMode s).1 = some item → item ∈ g.items := by
    intro item rolled
    unfold rollGroup at rolled
    dsimp only at rolled
    split at rolled
    · rename_i explicit
      have member := rollExplicit_mem explicit
      cases rolled
      exact mem_append_left _ (mem_of_mem_filter member)
    · split at rolled
      · cases rolled
      · have member := mem_of_getElem? rolled
        exact mem_append_right _ (mem_of_mem_filter member)
  unfold processGroup
  split
  · rename_i item s' rolled
    rw [rolled] at sameLoot isMember
    have added := extends_addItem (r := r) item s'
    rw [show s'.loot = s.loot from sameLoot] at added
    exact added.mono fun li made => ⟨item, isMember item rfl, made⟩
  · rename_i s' rolled
    rw [rolled] at sameLoot
    rw [show s'.loot = s.loot from sameLoot]
    exact Extends.refl s.loot

theorem extends_repeatProcess {made : LootItem → Prop} {f : LootFilling → Option LootFilling}
    (each : ∀ s s', f s = some s' → Extends made s.loot s'.loot) (n : Nat) :
    ∀ {s s' : LootFilling}, repeatProcess f n s = some s' → Extends made s.loot s'.loot := by
  induction n with
  | zero =>
    intro s s' done
    cases done
    exact Extends.refl s.loot
  | succ n ih =>
    intro s s' done
    obtain ⟨s'', first, rest⟩ := Option.bind_eq_some_iff.mp done
    exact (each s s'' first).trans (ih rest)

theorem extends_processEntries {made : LootItem → Prop}
    {f : LootStoreEntry → LootFilling → Option LootFilling} (l : List LootStoreEntry)
    (each : ∀ item ∈ l, ∀ s s', f item s = some s' → Extends made s.loot s'.loot) :
    ∀ {s s' : LootFilling}, processEntries f l s = some s' → Extends made s.loot s'.loot := by
  induction l with
  | nil =>
    intro s s' done
    cases done
    exact Extends.refl s.loot
  | cons item rest ih =>
    intro s s' done
    obtain ⟨s'', first, others⟩ := Option.bind_eq_some_iff.mp done
    apply (each item mem_cons_self s s'' first).trans
    exact ih (fun other member => each other (mem_cons_of_mem item member)) others

theorem extends_groups {made : LootItem → Prop} (groups : List (Option LootGroup))
    (each : ∀ g, some g ∈ groups → ∀ li, (∃ item ∈ g.items, MadeFrom item li) → made li) :
    ∀ s : LootFilling, Extends made s.loot
      (groups.foldl (fun s g => g.elim s fun g => r.processGroup g lootMode s) s).loot := by
  refine fun s => foldlRecOn (motive := fun s' : LootFilling => Extends made s.loot s'.loot) groups _
    (Extends.refl s.loot) fun s' before g member => ?_
  cases g with
  | none => exact before
  | some g => exact before.trans ((extends_processGroup (r := r) lootMode g s').mono (each g member))

theorem addsAt_of_group {g : LootGroup} {h : Nat} {groupId : UInt8} {item : LootStoreEntry}
    (found : t.groups[h]? = some (some g)) (within : groupId = 0 ∨ h = groupId.toNat - 1)
    (member : item ∈ g.items) : ∃ p, t.AddsAt groupId p item := by
  rcases List.mem_append.mp member with explicit | equal
  · obtain ⟨k, isItem⟩ := getElem?_of_mem explicit
    exact ⟨.explicit h k, itemAt_explicit_iff.mpr ⟨g, found, isItem⟩, within⟩
  · obtain ⟨k, isItem⟩ := getElem?_of_mem equal
    exact ⟨.equal h k, itemAt_equal_iff.mpr ⟨g, found, isItem⟩, within⟩

theorem extends_processEntry {process : LootTemplate → UInt8 → LootFilling → Option LootFilling}
    (sound : ∀ t groupId s s', process t groupId s = some s' →
      Extends (Generates r.references t groupId) s.loot s'.loot)
    {k : Nat} {item : LootStoreEntry} (isItem : t.itemAt (.entry k) = some item)
    {s s' : LootFilling} (done : r.processEntry process rate lootMode item s = some s') :
    Extends (Generates r.references t 0) s.loot s'.loot := by
  have sameLoot : (r.roll item rate s).2.loot = s.loot := by
    unfold roll
    split <;> rfl
  unfold processEntry at done
  dsimp only at done
  split at done
  · cases done
    exact Extends.refl s.loot
  split at done
  · cases done
    rw [sameLoot]
    exact Extends.refl s.loot
  rw [← sameLoot]
  split at done
  · rename_i isRef
    split at done
    · cases done
      exact Extends.refl _
    rename_i referenced found
    apply extends_repeatProcess _ _ done
    intro s s' once
    apply (sound referenced item.group s s' once).mono
    rintro li ⟨added, proto, count, adds, made⟩
    exact ⟨added, proto, count, adds.of_reference isItem isRef found, made⟩
  · rename_i notRef
    cases done
    apply (extends_addItem item _).mono
    rintro li ⟨proto, count, made⟩
    refine ⟨item, proto, count, Or.inl ⟨.entry k, isItem, rfl, ?_⟩, made⟩
    exact Bool.eq_false_iff.mpr notRef

/-- **What processing a template puts into a loot is made from the entries it adds.** -/
theorem process_generates (depth : Nat) : ∀ {t : LootTemplate} {groupId : UInt8}
    {s s' : LootFilling}, r.process rate lootMode depth t groupId s = some s' →
      Extends (Generates r.references t groupId) s.loot s'.loot := by
  induction depth with
  | zero =>
    intro t groupId s s' done
    cases done
  | succ depth ih =>
    intro t groupId s s' done
    have ofGroup : ∀ {h g groupId}, t.groups[h]? = some (some g) →
        (groupId = 0 ∨ h = groupId.toNat - 1) → ∀ li, (∃ item ∈ g.items, MadeFrom item li) →
          Generates r.references t groupId li := by
      rintro h g groupId found within li ⟨item, member, proto, count, made⟩
      exact ⟨item, proto, count, Or.inl (addsAt_of_group found within member), made⟩
    rw [process] at done
    split at done
    · split at done
      · cases done
        exact Extends.refl s.loot
      rename_i g found
      cases done
      have isGroup : t.groups[groupId.toNat - 1]? = some (some g) :=
        Option.join_eq_some_iff.mp found
      exact (extends_processGroup lootMode g s).mono (ofGroup isGroup (Or.inr rfl))
    · rename_i ungrouped
      rw [not_not] at ungrouped
      subst ungrouped
      obtain ⟨s'', entries, groups⟩ := Option.bind_eq_some_iff.mp done
      cases groups
      have first : Extends (Generates r.references t 0) s.loot s''.loot := by
        apply extends_processEntries t.entries _ entries
        intro item member s s' turn
        obtain ⟨k, isItem⟩ := getElem?_of_mem member
        exact extends_processEntry (fun _ _ _ _ => ih) (k := k) isItem turn
      apply first.trans
      apply extends_groups
      intro g member
      obtain ⟨h, found⟩ := getElem?_of_mem member
      exact ofGroup found (Or.inl rfl)

def everyItem : LootRolls where
  store _ := some ⟨1, false, false, 0, 0, 0, false, false⟩
  rateReferenced := 1
  rateReferencedAmount := 1
  rateQuality _ := 1
  references _ := none
  draws _ := .lowest

def certainRow : LootTemplate := ⟨[.ofRow 1 100 1 0 1 1], []⟩

theorem process_generates_certainRow : ∃ s', s'.loot.items ≠ [] ∧
    everyItem.process true 1 1 certainRow 0 ⟨.empty, 0, 0⟩ = some s' ∧
    Extends (Generates everyItem.references certainRow 0) .empty s'.loot := by
  have processed : everyItem.process true 1 1 certainRow 0 ⟨.empty, 0, 0⟩ = some _ := rfl
  exact ⟨_, by decide, processed, process_generates 1 processed⟩

end LootRolls

namespace LootTemplate

/-- The reference templates with their conditions. -/
def conditionedAll (references : LootTemplateMap) (calls : UInt32 → List LootCondition) :
    LootTemplateMap := fun id => (references id).map (·.conditioned (calls id))

/-- When the conditions of a template and of those it refers to can be given back. -/
structure Restorable (references : LootTemplateMap) (t : LootTemplate)
    (calls : List LootCondition) (referenceCalls : UInt32 → List LootCondition) : Prop where
  own : ∀ cond ∈ calls, cond.isLoaded = true → ∀ p item, t.AddsAt 0 p item →
    item.itemid = cond.sourceEntry → t.IsFirst p item.itemid ∧ ∃ k, p = .entry k
  referred : ∀ id group t' p item, RefersTo references t id group → references id = some t' →
    t'.AddsAt group p item → t'.given (referenceCalls id) p item = t.kept calls item.itemid

variable {t t' : LootTemplate} {references : LootTemplateMap} {calls : List LootCondition}
  {referenceCalls : UInt32 → List LootCondition}

theorem addsAt_conditioned_iff {groupId : UInt8} {p : Spot} {item' : LootStoreEntry} :
    (t.conditioned calls).AddsAt groupId p item' ↔ ∃ item, t.AddsAt groupId p item ∧
      item' = item.withConditions (t.given calls p item) := by
  unfold AddsAt
  rw [itemAt_conditioned, Option.map_eq_some_iff]
  constructor
  · rintro ⟨⟨item, found, rfl⟩, within⟩
    exact ⟨item, ⟨found, within⟩, rfl⟩
  · rintro ⟨item, ⟨found, within⟩, rfl⟩
    exact ⟨⟨item, found, rfl⟩, within⟩

theorem sameShape_conditioned : SameShape t (t.conditioned calls) :=
  sameShape_of_map (itemAt_conditioned calls)

theorem RefersTo.of_direct {k : Nat} {item : LootStoreEntry} {conditions : List UInt32}
    (isItem : t.itemAt (.entry k) = some (item.withConditions conditions))
    (isRef : item.isRef = true) : RefersTo references t item.refId item.group := by
  have refers : RefersTo references t (item.withConditions conditions).refId
    (item.withConditions conditions).group := RefersTo.direct isItem isRef
  exact refers

theorem RefersTo.of_through {id : UInt32} {k : Nat} {item : LootStoreEntry}
    {conditions : List UInt32} (refers : RefersTo references t id 0)
    (found : references id = some t')
    (isItem : t'.itemAt (.entry k) = some (item.withConditions conditions))
    (isRef : item.isRef = true) : RefersTo references t item.refId item.group := by
  have further : RefersTo references t (item.withConditions conditions).refId
    (item.withConditions conditions).group := RefersTo.through refers found isItem isRef
  exact further

theorem refersTo_conditioned_iff {id : UInt32} {group : UInt8} :
    RefersTo (conditionedAll references referenceCalls) (t.conditioned calls) id group ↔
      RefersTo references t id group := by
  have same : SameShape t (t.conditioned calls) := sameShape_conditioned
  constructor
  · intro refers
    induction refers with
    | direct isItem isRef =>
      obtain ⟨conditions, isItem'⟩ := same.symm.itemAt isItem
      exact RefersTo.of_direct isItem' isRef
    | through _ found isItem isRef ih =>
      obtain ⟨t', isTemplate, rfl⟩ := Option.map_eq_some_iff.mp found
      obtain ⟨conditions, isItem'⟩ := sameShape_conditioned.symm.itemAt isItem
      exact RefersTo.of_through ih isTemplate isItem' isRef
  · intro refers
    induction refers with
    | direct isItem isRef =>
      obtain ⟨conditions, isItem'⟩ := same.itemAt isItem
      exact RefersTo.of_direct isItem' isRef
    | @through id t' _ _ _ found isItem isRef ih =>
      have same' : SameShape t' (t'.conditioned (referenceCalls id)) := sameShape_conditioned
      obtain ⟨conditions, isItem'⟩ := same'.itemAt isItem
      have found' : conditionedAll references referenceCalls id =
          some (t'.conditioned (referenceCalls id)) := Option.map_eq_some_iff.mpr ⟨t', found, rfl⟩
      exact RefersTo.of_through ih found' isItem' isRef

theorem exists_of_condsFor {id : UInt32} (attached : condsFor calls id ≠ []) :
    ∃ cond ∈ calls, cond.isLoaded = true ∧ cond.sourceEntry = id := by
  obtain ⟨c, member⟩ := exists_mem_of_ne_nil _ attached
  obtain ⟨cond, kept, rfl⟩ := List.mem_map.mp member
  obtain ⟨inCalls, passes⟩ := List.mem_filter.mp kept
  rw [Bool.and_eq_true, decide_eq_true_eq] at passes
  exact ⟨cond, inCalls, passes.1, passes.2⟩

theorem condsFor_ne_nil {cond : LootCondition} (member : cond ∈ calls)
    (loaded : cond.isLoaded = true) : condsFor calls cond.sourceEntry ≠ [] := by
  apply ne_nil_of_mem
  refine List.mem_map.mpr ⟨cond, List.mem_filter.mpr ⟨member, ?_⟩, rfl⟩
  rw [loaded, Bool.true_and]
  exact decide_eq_true rfl

theorem exists_entry_of_kept {id : UInt32} (some' : t.kept calls id ≠ []) :
    ∃ k item, t.itemAt (.entry k) = some item ∧ item.itemid = id := by
  unfold kept at some'
  split at some'
  · rename_i present
    obtain ⟨item, member, same⟩ := List.any_eq_true.mp present
    obtain ⟨k, isItem⟩ := getElem?_of_mem member
    exact ⟨k, item, isItem, of_decide_eq_true same⟩
  · exact absurd rfl some'

theorem own_iff : (∀ p item, t.AddsAt 0 p item → t.given calls p item = t.kept calls item.itemid) ↔
    ∀ cond ∈ calls, cond.isLoaded = true → ∀ p item, t.AddsAt 0 p item →
      item.itemid = cond.sourceEntry → t.IsFirst p item.itemid ∧ ∃ k, p = .entry k := by
  constructor
  · intro same cond member loaded p item adds isSource
    have attached : condsFor calls item.itemid ≠ [] := isSource ▸ condsFor_ne_nil member loaded
    by_cases first : t.IsFirst p item.itemid
    · refine ⟨first, ?_⟩
      have isKept := same p item adds
      rw [given_first first] at isKept
      obtain ⟨k, other, found, sameId⟩ := exists_entry_of_kept (isKept ▸ attached)
      cases p with
      | entry k => exact ⟨k, rfl⟩
      | explicit g j => exact absurd sameId (first (.entry k) trivial other found)
      | equal g j => exact absurd sameId (first (.entry k) trivial other found)
    · have nothing := same p item adds
      rw [given_later first] at nothing
      -- the entry that has the conditions is in a group, and has nothing back
      rcases addConditionItem_spec (t := t) loaded with
        ⟨q, other, found, isSource', isFirst, -⟩ | ⟨-, none⟩
      · have sameId : other.itemid = item.itemid := isSource'.trans isSource.symm
        have noEntry : ∀ k, q ≠ .entry k := by
          rintro k rfl
          have present := any_entries_of_itemAt found
          rw [sameId] at present
          unfold kept at nothing
          rw [present, if_pos rfl] at nothing
          exact attached nothing.symm
        have addsOther : t.AddsAt 0 q other := by
          refine ⟨found, ?_⟩
          cases q with
          | entry k => exact absurd rfl (noEntry k)
          | explicit g k => exact Or.inl rfl
          | equal g k => exact Or.inl rfl
        have given := same q other addsOther
        rw [given_first (isSource' ▸ isFirst), sameId, ← nothing] at given
        exact absurd given attached
      · exact absurd isSource (none p item adds.1)
  · intro own p item adds
    by_cases attached : condsFor calls item.itemid = []
    · unfold given kept
      rw [attached, ite_self, ite_self]
    obtain ⟨cond, member, loaded, isSource⟩ := exists_of_condsFor attached
    obtain ⟨first, k, rfl⟩ := own cond member loaded p item adds isSource.symm
    unfold kept
    rw [given_first first, any_entries_of_itemAt adds.1, if_pos rfl]

def anyTemplate : ItemTemplate := ⟨1, false, false, 0, 0, 0, false, false⟩

/-- **Restored loot has the conditions it was made with just where each item with a condition is the
first of the ungrouped entries with its id**, and a reference template itself gives back what it
gives. -/
theorem restores_conditions_iff :
    (∀ li, Generates (conditionedAll references referenceCalls) (t.conditioned calls) 0 li →
      ((t.conditioned calls).copyConditions { li with conditions := [] }).conditions =
        li.conditions) ↔ Restorable references t calls referenceCalls := by
  have restored : ∀ {proto : ItemTemplate} {item : LootStoreEntry} {conditions : List UInt32}
      {count : UInt8}, ((t.conditioned calls).copyConditions { Loot.newItem proto
        (item.withConditions conditions).toLootStoreItem count with conditions := [] }).conditions =
          t.kept calls item.itemid := conditions_copyConditions rfl
  constructor
  · intro same
    constructor
    · apply own_iff.mp
      intro p item adds
      have adds' : (t.conditioned calls).AddsAt 0 p (item.withConditions (t.given calls p item)) :=
        addsAt_conditioned_iff.mpr ⟨item, adds, rfl⟩
      have result := same _ ⟨_, anyTemplate, 0, Or.inl ⟨p, adds'⟩, rfl⟩
      exact result.symm.trans restored
    · intro id group t' p item refers found adds
      have adds' : (t'.conditioned (referenceCalls id)).AddsAt group p
          (item.withConditions (t'.given (referenceCalls id) p item)) :=
        addsAt_conditioned_iff.mpr ⟨item, adds, rfl⟩
      have found' : conditionedAll references referenceCalls id =
          some (t'.conditioned (referenceCalls id)) := Option.map_eq_some_iff.mpr ⟨t', found, rfl⟩
      have result := same _ ⟨_, anyTemplate, 0, Or.inr ⟨rfl, id, group, _, p,
        refersTo_conditioned_iff.mpr refers, found', adds'⟩, rfl⟩
      exact result.symm.trans restored
  · rintro restorable li ⟨item', proto, count, adds, rfl⟩
    rcases adds with ⟨p, here⟩ | ⟨-, id, group, t'', p, refers, found, here⟩
    · obtain ⟨item, adds, rfl⟩ := addsAt_conditioned_iff.mp here
      exact restored.trans (own_iff.mpr restorable.own p item adds).symm
    · obtain ⟨t', isTemplate, rfl⟩ := Option.map_eq_some_iff.mp found
      obtain ⟨item, adds, rfl⟩ := addsAt_conditioned_iff.mp here
      have refers' := refersTo_conditioned_iff.mp refers
      exact restored.trans (restorable.referred id group t' p item refers' isTemplate adds).symm

def groupedTemplate : LootTemplate := ⟨[], [some ⟨[], [.ofRow 5 0 1 1 1 1]⟩]⟩

def groupedCondition : LootCondition := ⟨7, 5, 1, 0⟩

/-- The condition is attached to the item, the item made from it has it, and has nothing when
it is restored. -/
theorem groupedTemplate_loses : ∃ item' proto,
    (groupedTemplate.addConditionItem groupedCondition).2 = true ∧
      Generates (fun _ => none) (groupedTemplate.attach [groupedCondition]) 0
        (Loot.newItem proto item' 1) ∧
      (Loot.newItem proto item' 1).conditions = [7] ∧
      ((groupedTemplate.attach [groupedCondition]).copyConditions
        { Loot.newItem proto item' 1 with conditions := [] }).conditions = [] := by
  refine ⟨((LootStoreEntry.ofRow 5 0 1 1 1 1).withConditions [7]).toLootStoreItem,
    anyTemplate, by decide, ?_, rfl, by decide⟩
  refine ⟨_, _, 1, Or.inl ⟨.equal 0 0, ?_, Or.inl rfl⟩, rfl⟩
  decide

end LootTemplate

end Sky548
