import Sky548.Loot.Template

/-!
# Conditions of a loot template

`addConditionItem` attaches a condition to the first entry with its id, in a group or not.
`CopyConditions` gives the conditions of an id back to a loot item, and asks the ungrouped
entries only. Each search is one lemma here: what a template's entries have after any calls,
and what an item gets back.
-/

namespace Sky548

open List Option

/-- The part of `Condition` that a loot template reads. -/
structure LootCondition where
  id : UInt32
  sourceEntry : UInt32
  conditionType : UInt32
  referenceId : UInt32
  deriving DecidableEq

namespace LootCondition

def isLoaded (cond : LootCondition) : Bool := cond.conditionType > 0 || cond.referenceId ≠ 0

end LootCondition

namespace LootStoreEntry

def withConditions (item : LootStoreEntry) (conditions : List UInt32) : LootStoreEntry :=
  { item with conditions := conditions }

variable {item : LootStoreEntry} {conditions : List UInt32}

end LootStoreEntry

namespace LootTemplate

/-- `CopyConditions` for a list: whatever is on it, the templates' conditions are cleared. -/
def clearConditions (t : LootTemplate) : LootTemplate where
  entries := t.entries.map (·.withConditions [])
  groups := t.groups.map fun g => g.map fun g =>
    ⟨g.explicitlyChanced.map (·.withConditions []), g.equalChanced.map (·.withConditions [])⟩

def copyConditions (t : LootTemplate) (li : LootItem) : LootItem :=
  match t.entries.find? (·.itemid = li.itemid) with
  | some item => { li with conditions := item.conditions }
  | none => li

/-- A loop of `addConditionItem` over one list of entries. -/
def addToFirst (cond : LootCondition) : List LootStoreEntry → Option (List LootStoreEntry)
  | [] => none
  | item :: rest =>
    if item.itemid = cond.sourceEntry then
      some (item.withConditions (item.conditions ++ [cond.id]) :: rest)
    else (addToFirst cond rest).map (item :: ·)

/-- Its loop over the groups. -/
def addToGroups (cond : LootCondition) : List (Option LootGroup) → Option (List (Option LootGroup))
  | [] => none
  | none :: rest => (addToGroups cond rest).map (none :: ·)
  | some g :: rest =>
    match addToFirst cond g.explicitlyChanced with
    | some items => some (some { g with explicitlyChanced := items } :: rest)
    | none =>
      match addToFirst cond g.equalChanced with
      | some items => some (some { g with equalChanced := items } :: rest)
      | none => (addToGroups cond rest).map (some g :: ·)

def addConditionItem (t : LootTemplate) (cond : LootCondition) : LootTemplate × Bool :=
  if !cond.isLoaded then (t, false)
  else
    match addToFirst cond t.entries with
    | some entries => ({ t with entries := entries }, true)
    | none =>
      match addToGroups cond t.groups with
      | some groups => ({ t with groups := groups }, true)
      | none => (t, false)

def attach (t : LootTemplate) (calls : List LootCondition) : LootTemplate :=
  calls.foldl (fun t cond => (t.addConditionItem cond).1) t

/-! ## Places -/

/-- Where a template has an entry. -/
inductive Spot
  | entry (k : Nat)
  | explicit (g k : Nat)
  | equal (g k : Nat)

/-- The order in which `addConditionItem` searches. -/
def Spot.Before : Spot → Spot → Prop
  | .entry j, .entry k => j < k
  | .entry _, _ => True
  | _, .entry _ => False
  | .explicit h j, .explicit g k => h < g ∨ h = g ∧ j < k
  | .explicit h _, .equal g _ => h ≤ g
  | .equal h _, .explicit g _ => h < g
  | .equal h j, .equal g k => h < g ∨ h = g ∧ j < k

def itemAt (t : LootTemplate) : Spot → Option LootStoreEntry
  | .entry k => t.entries[k]?
  | .explicit g k => (t.groups[g]?).join.bind (·.explicitlyChanced[k]?)
  | .equal g k => (t.groups[g]?).join.bind (·.equalChanced[k]?)

/-- No entry with the id comes before. -/
def IsFirst (t : LootTemplate) (p : Spot) (id : UInt32) : Prop :=
  ∀ q, q.Before p → ∀ item, t.itemAt q = some item → item.itemid ≠ id

variable {t : LootTemplate} {cond : LootCondition}

variable {g k : Nat} {item : LootStoreEntry}

theorem itemAt_explicit_iff : t.itemAt (.explicit g k) = some item ↔ ∃ group : LootGroup,
      t.groups[g]? = some (some group) ∧ group.explicitlyChanced[k]? = some item := by
  unfold itemAt
  rw [bind_eq_some_iff]
  simp only [join_eq_some_iff]

theorem itemAt_equal_iff : t.itemAt (.equal g k) = some item ↔ ∃ group : LootGroup,
      t.groups[g]? = some (some group) ∧ group.equalChanced[k]? = some item := by
  unfold itemAt
  rw [bind_eq_some_iff]
  simp only [join_eq_some_iff]

variable {l : List LootStoreEntry}

theorem addToFirst_none (failed : addToFirst cond l = none) :
    ∀ (k : Nat) (item : LootStoreEntry), l[k]? = some item → item.itemid ≠ cond.sourceEntry := by
  induction l with
  | nil =>
    intro k item found
    rw [getElem?_nil] at found
    cases found
  | cons first rest ih =>
    rw [addToFirst] at failed
    by_cases same : first.itemid = cond.sourceEntry
    · rw [if_pos same] at failed
      cases failed
    rw [if_neg same, map_eq_none_iff] at failed
    intro k item found
    cases k with
    | zero =>
      cases found
      exact same
    | succ k => exact ih failed k item found

theorem addToFirst_some {l' : List LootStoreEntry} (added : addToFirst cond l = some l') :
    ∃ k item, l[k]? = some item ∧ item.itemid = cond.sourceEntry ∧
      (∀ j < k, ∀ other, l[j]? = some other → other.itemid ≠ cond.sourceEntry) ∧
      l' = l.set k (item.withConditions (item.conditions ++ [cond.id])) := by
  induction l generalizing l' with
  | nil => cases added
  | cons first rest ih =>
    rw [addToFirst] at added
    by_cases same : first.itemid = cond.sourceEntry
    · rw [if_pos same] at added
      cases added
      exact ⟨0, first, rfl, same, fun j below => absurd below (Nat.not_lt_zero j), rfl⟩
    rw [if_neg same] at added
    obtain ⟨rest', inRest, rfl⟩ := Option.map_eq_some_iff.mp added
    obtain ⟨k, item, found, isSource, before, rfl⟩ := ih inRest
    refine ⟨k + 1, item, found, isSource, fun j below other isOther => ?_, rfl⟩
    cases j with
    | zero =>
      cases isOther
      exact same
    | succ j => exact before j (Nat.lt_of_succ_lt_succ below) other isOther

variable {groups : List (Option LootGroup)}

theorem addToGroups_none (failed : addToGroups cond groups = none) :
    ∀ (g : Nat) (group : LootGroup), groups[g]? = some (some group) →
      addToFirst cond group.explicitlyChanced = none ∧
        addToFirst cond group.equalChanced = none := by
  induction groups with
  | nil =>
    intro g group found
    rw [getElem?_nil] at found
    cases found
  | cons first rest ih =>
    intro g group found
    cases first with
    | none =>
      rw [addToGroups, map_eq_none_iff] at failed
      cases g with
      | zero => cases found
      | succ g => exact ih failed g group found
    | some here =>
      rw [addToGroups] at failed
      cases explicit : addToFirst cond here.explicitlyChanced with
      | some items =>
        rw [explicit] at failed
        cases failed
      | none =>
        rw [explicit] at failed
        cases equal : addToFirst cond here.equalChanced with
        | some items =>
          rw [equal] at failed
          cases failed
        | none =>
          rw [equal] at failed
          cases g with
          | zero =>
            cases found
            exact ⟨explicit, equal⟩
          | succ g => exact ih (Option.map_eq_none_iff.mp failed) g group found

def TakesInto (cond : LootCondition) (group group' : LootGroup) : Prop :=
  (∃ items, addToFirst cond group.explicitlyChanced = some items ∧
    group' = { group with explicitlyChanced := items }) ∨
  addToFirst cond group.explicitlyChanced = none ∧
    ∃ items, addToFirst cond group.equalChanced = some items ∧
      group' = { group with equalChanced := items }

theorem addToGroups_some {groups' : List (Option LootGroup)}
    (added : addToGroups cond groups = some groups') :
    ∃ g group group', groups[g]? = some (some group) ∧ TakesInto cond group group' ∧
      (∀ (h : Nat) (other : LootGroup), h < g → groups[h]? = some (some other) →
        addToFirst cond other.explicitlyChanced = none ∧
          addToFirst cond other.equalChanced = none) ∧
      groups' = groups.set g (some group') := by
  induction groups generalizing groups' with
  | nil => cases added
  | cons first rest ih =>
    -- the loop goes on behind a group that does not have the id
    have later : ∀ {rest'}, addToGroups cond rest = some rest' →
        (∀ other, first = some other → addToFirst cond other.explicitlyChanced = none ∧
          addToFirst cond other.equalChanced = none) →
        ∃ g group group', (first :: rest)[g]? = some (some group) ∧
          TakesInto cond group group' ∧
          (∀ (h : Nat) (other : LootGroup), h < g → (first :: rest)[h]? = some (some other) →
            addToFirst cond other.explicitlyChanced = none ∧
              addToFirst cond other.equalChanced = none) ∧
          first :: rest' = (first :: rest).set g (some group') := by
      intro rest' inRest skipped
      obtain ⟨g, group, group', found, taken, before, rfl⟩ := ih inRest
      refine ⟨g + 1, group, group', found, taken, fun h other below isOther => ?_, rfl⟩
      cases h with
      | zero => exact skipped other (Option.some.inj isOther)
      | succ h => exact before h other (Nat.lt_of_succ_lt_succ below) isOther
    cases first with
    | none =>
      rw [addToGroups] at added
      obtain ⟨rest', inRest, rfl⟩ := Option.map_eq_some_iff.mp added
      exact later inRest fun other isNone => nomatch isNone
    | some here =>
      rw [addToGroups] at added
      cases explicit : addToFirst cond here.explicitlyChanced with
      | some items =>
        rw [explicit] at added
        cases added
        exact ⟨0, here, _, rfl, Or.inl ⟨items, explicit, rfl⟩,
          fun h _ below => absurd below (Nat.not_lt_zero h), rfl⟩
      | none =>
        rw [explicit] at added
        cases equal : addToFirst cond here.equalChanced with
        | some items =>
          rw [equal] at added
          cases added
          exact ⟨0, here, _, rfl, Or.inr ⟨explicit, items, equal, rfl⟩,
            fun h _ below => absurd below (Nat.not_lt_zero h), rfl⟩
        | none =>
          rw [equal] at added
          obtain ⟨rest', inRest, rfl⟩ := Option.map_eq_some_iff.mp added
          apply later inRest
          intro other isHere
          cases isHere
          exact ⟨explicit, equal⟩

/-- A template in which the entry at one place has changed. -/
def ChangedAt (t t' : LootTemplate) (p : Spot) (item : LootStoreEntry) : Prop :=
  t'.itemAt p = some item ∧ ∀ q, q ≠ p → t'.itemAt q = t.itemAt q

theorem getElem?_set_cases (item' : LootStoreEntry) (found : l[k]? = some item) :
    (l.set k item')[k]? = some item' ∧
      ∀ j, j ≠ k → (l.set k item')[j]? = l[j]? := by
  obtain ⟨inside, -⟩ := List.getElem?_eq_some_iff.mp found
  exact ⟨getElem?_set_self inside, fun j other => getElem?_set_ne (Ne.symm other)⟩

variable {item' : LootStoreEntry}

theorem changedAt_entry (found : t.entries[k]? = some item) :
    ChangedAt t { t with entries := t.entries.set k item' } (.entry k) item' := by
  obtain ⟨here, others⟩ := getElem?_set_cases item' found
  refine ⟨here, fun q other => ?_⟩
  cases q with
  | entry j => exact others j fun same => other (same ▸ rfl)
  | explicit g j => rfl
  | equal g j => rfl

variable {group : LootGroup}

theorem join_set (group' : LootGroup) (found : groups[g]? = some (some group)) :
    ((groups.set g (some group'))[g]?).join = some group' ∧
      ∀ h, h ≠ g → ((groups.set g (some group'))[h]?).join = (groups[h]?).join := by
  obtain ⟨inside, -⟩ := List.getElem?_eq_some_iff.mp found
  refine ⟨?_, fun h other => ?_⟩
  · rw [getElem?_set_self inside]
    rfl
  · rw [getElem?_set_ne (Ne.symm other)]

theorem changedAt_explicit (inGroups : t.groups[g]? = some (some group))
    (found : group.explicitlyChanced[k]? = some item) :
    ChangedAt t { t with groups := t.groups.set g (some { group with
      explicitlyChanced := group.explicitlyChanced.set k item' }) } (.explicit g k) item' := by
  obtain ⟨here, others⟩ := getElem?_set_cases item' found
  obtain ⟨group', groups'⟩ := join_set { group with
    explicitlyChanced := group.explicitlyChanced.set k item' } inGroups
  refine ⟨?_, fun q other => ?_⟩
  · unfold itemAt
    dsimp only
    rw [group']
    exact here
  · cases q with
    | entry j => rfl
    | explicit h j =>
      unfold itemAt
      dsimp only
      by_cases same : h = g
      · subst same
        rw [group', inGroups]
        exact others j fun same => other (same ▸ rfl)
      · rw [groups' h same]
    | equal h j =>
      unfold itemAt
      dsimp only
      by_cases same : h = g
      · subst same
        rw [group', inGroups]
        rfl
      · rw [groups' h same]

theorem changedAt_equal
    (inGroups : t.groups[g]? = some (some group)) (found : group.equalChanced[k]? = some item) :
    ChangedAt t { t with groups := t.groups.set g (some { group with
      equalChanced := group.equalChanced.set k item' }) } (.equal g k) item' := by
  obtain ⟨here, others⟩ := getElem?_set_cases item' found
  obtain ⟨group', groups'⟩ := join_set { group with
    equalChanced := group.equalChanced.set k item' } inGroups
  refine ⟨?_, fun q other => ?_⟩
  · unfold itemAt
    dsimp only
    rw [group']
    exact here
  · cases q with
    | entry j => rfl
    | explicit h j =>
      unfold itemAt
      dsimp only
      by_cases same : h = g
      · subst same
        rw [group', inGroups]
        rfl
      · rw [groups' h same]
    | equal h j =>
      unfold itemAt
      dsimp only
      by_cases same : h = g
      · subst same
        rw [group', inGroups]
        exact others j fun same => other (same ▸ rfl)
      · rw [groups' h same]

theorem addConditionItem_spec (loaded : cond.isLoaded = true) :
    (∃ p item, t.itemAt p = some item ∧ item.itemid = cond.sourceEntry ∧
      t.IsFirst p cond.sourceEntry ∧ ChangedAt t (t.addConditionItem cond).1 p
        (item.withConditions (item.conditions ++ [cond.id]))) ∨
    (t.addConditionItem cond).1 = t ∧
      ∀ p item, t.itemAt p = some item → item.itemid ≠ cond.sourceEntry := by
  unfold addConditionItem
  rw [loaded, Bool.not_true, if_neg Bool.false_ne_true]
  cases inEntries : addToFirst cond t.entries with
  | some entries =>
    obtain ⟨k, item, found, same, before, rfl⟩ := addToFirst_some inEntries
    refine Or.inl ⟨.entry k, item, found, same, fun q earlier => ?_, changedAt_entry found⟩
    cases q with
    | entry j => exact before j earlier
    | explicit g j => cases earlier
    | equal g j => cases earlier
  | none =>
    have noEntry := addToFirst_none inEntries
    cases inGroups : addToGroups cond t.groups with
    | some groups =>
      obtain ⟨g, group, group', found, taken, before, rfl⟩ := addToGroups_some inGroups
      -- the lists of an earlier group do not have the id
      have earlierExplicit : ∀ h j, h < g → ∀ other, t.itemAt (.explicit h j) = some other →
          other.itemid ≠ cond.sourceEntry := by
        intro h j below other isOther
        obtain ⟨previous, isPrevious, inPrevious⟩ := itemAt_explicit_iff.mp isOther
        exact addToFirst_none (before h previous below isPrevious).1 j other inPrevious
      have earlierEqual : ∀ h j, h < g → ∀ other, t.itemAt (.equal h j) = some other →
          other.itemid ≠ cond.sourceEntry := by
        intro h j below other isOther
        obtain ⟨previous, isPrevious, inPrevious⟩ := itemAt_equal_iff.mp isOther
        exact addToFirst_none (before h previous below isPrevious).2 j other inPrevious
      rcases taken with ⟨items, added, rfl⟩ | ⟨none, items, added, rfl⟩
      · obtain ⟨k, item, isItem, same, beforeItem, rfl⟩ := addToFirst_some added
        refine Or.inl ⟨.explicit g k, item, itemAt_explicit_iff.mpr ⟨group, found, isItem⟩,
          same, fun q earlier => ?_, changedAt_explicit found isItem⟩
        cases q with
        | entry j => exact noEntry j
        | explicit h j =>
          rcases earlier with below | ⟨rfl, below⟩
          · exact earlierExplicit h j below
          · intro other isOther
            obtain ⟨previous, isPrevious, inPrevious⟩ := itemAt_explicit_iff.mp isOther
            cases found.symm.trans isPrevious
            exact beforeItem j below other inPrevious
        | equal h j => exact earlierEqual h j earlier
      · obtain ⟨k, item, isItem, same, beforeItem, rfl⟩ := addToFirst_some added
        refine Or.inl ⟨.equal g k, item, itemAt_equal_iff.mpr ⟨group, found, isItem⟩,
          same, fun q earlier => ?_, changedAt_equal found isItem⟩
        cases q with
        | entry j => exact noEntry j
        | explicit h j =>
          rcases Nat.lt_or_eq_of_le earlier with below | rfl
          · exact earlierExplicit h j below
          · intro other isOther
            obtain ⟨previous, isPrevious, inPrevious⟩ := itemAt_explicit_iff.mp isOther
            cases found.symm.trans isPrevious
            exact addToFirst_none none j other inPrevious
        | equal h j =>
          rcases earlier with below | ⟨rfl, below⟩
          · exact earlierEqual h j below
          · intro other isOther
            obtain ⟨previous, isPrevious, inPrevious⟩ := itemAt_equal_iff.mp isOther
            cases found.symm.trans isPrevious
            exact beforeItem j below other inPrevious
    | none =>
      have noGroup := addToGroups_none inGroups
      refine Or.inr ⟨rfl, fun p item found => ?_⟩
      cases p with
      | entry k => exact noEntry k item found
      | explicit g k =>
        obtain ⟨group, isGroup, inGroup⟩ := itemAt_explicit_iff.mp found
        exact addToFirst_none (noGroup g group isGroup).1 k item inGroup
      | equal g k =>
        obtain ⟨group, isGroup, inGroup⟩ := itemAt_equal_iff.mp found
        exact addToFirst_none (noGroup g group isGroup).2 k item inGroup

/-! ## All calls -/

variable {p : Spot}

theorem Spot.before_total {q : Spot} (other : p ≠ q) : p.Before q ∨ q.Before p := by
  cases p with
  | entry j =>
    cases q with
    | entry k =>
      have different : j ≠ k := fun same => other (same ▸ rfl)
      exact Nat.lt_or_gt_of_ne different
    | explicit g k => exact Or.inl trivial
    | equal g k => exact Or.inl trivial
  | explicit h j =>
    cases q with
    | entry k => exact Or.inr trivial
    | explicit g k =>
      have different : h = g → j ≠ k := fun group same => other (group ▸ same ▸ rfl)
      simp only [Before]
      omega
    | equal g k =>
      simp only [Before]
      omega
  | equal h j =>
    cases q with
    | entry k => exact Or.inr trivial
    | explicit g k =>
      simp only [Before]
      omega
    | equal g k =>
      have different : h = g → j ≠ k := fun group same => other (group ▸ same ▸ rfl)
      simp only [Before]
      omega

def condsFor (calls : List LootCondition) (id : UInt32) : List UInt32 :=
  (calls.filter fun cond => cond.isLoaded && cond.sourceEntry = id).map (·.id)

open Classical in
noncomputable def given (t : LootTemplate) (calls : List LootCondition) (p : Spot)
    (item : LootStoreEntry) : List UInt32 :=
  if t.IsFirst p item.itemid then condsFor calls item.itemid else []

variable {calls : List LootCondition}

theorem given_first (first : t.IsFirst p item.itemid) :
    t.given calls p item = condsFor calls item.itemid :=
  if_pos first

theorem given_later (later : ¬ t.IsFirst p item.itemid) : t.given calls p item = [] :=
  if_neg later

/-- Two templates with the same entries but for the conditions. -/
def SameShape (t t' : LootTemplate) : Prop :=
  ∀ p, (t'.itemAt p).map (·.withConditions []) = (t.itemAt p).map (·.withConditions [])

variable {t' : LootTemplate}

theorem SameShape.symm {t : LootTemplate} (same : SameShape t t') : SameShape t' t :=
  fun p => (same p).symm

theorem SameShape.itemAt {t : LootTemplate} (same : SameShape t t')
    (found : t.itemAt p = some item) :
    ∃ conditions, t'.itemAt p = some (item.withConditions conditions) := by
  have equal := same p
  rw [found, map_some, map_eq_some_iff] at equal
  obtain ⟨item', found', stripped⟩ := equal
  refine ⟨item'.conditions, found'.trans (congrArg some ?_)⟩
  exact congrArg (·.withConditions item'.conditions) stripped

theorem SameShape.isFirst {t : LootTemplate} (same : SameShape t t') {id : UInt32}
    (first : t.IsFirst p id) : t'.IsFirst p id := by
  intro q before item found
  obtain ⟨conditions, found'⟩ := same.symm.itemAt found
  have other := first q before (item.withConditions conditions) found'
  exact other

theorem sameShape_of_map {t : LootTemplate} {f : Spot → LootStoreEntry → List UInt32}
    (mapped : ∀ p, t'.itemAt p = (t.itemAt p).map fun item => item.withConditions (f p item)) :
    SameShape t t' := by
  intro p
  rw [mapped p, Option.map_map]
  rfl

theorem isFirst_unique {q : Spot} {id : UInt32} {other : LootStoreEntry}
    (first : t.IsFirst p id) (isItem : t.itemAt p = some item) (same : item.itemid = id)
    (isFirst : t.IsFirst q id) (isOther : t.itemAt q = some other) (sameId : other.itemid = id) :
    p = q := by
  by_contra different
  rcases Spot.before_total different with before | before
  · exact isFirst p before item isItem same
  · exact first q before other isOther sameId

theorem itemAt_addConditionItem (p : Spot) : (t.addConditionItem cond).1.itemAt p =
    (t.itemAt p).map fun item => item.withConditions (item.conditions ++ t.given [cond] p item) := by
  have unchanged : ∀ {item : LootStoreEntry}, condsFor [cond] item.itemid = [] →
      item.withConditions (item.conditions ++ t.given [cond] p item) = item := by
    intro item nothing
    unfold given
    rw [nothing, ite_self, append_nil]
    rfl
  cases loaded : cond.isLoaded with
  | false =>
    have same : (t.addConditionItem cond).1 = t := by
      unfold addConditionItem
      rw [loaded]
      rfl
    rw [same]
    rcases found : t.itemAt p with _ | item
    · rfl
    rw [map_some, unchanged]
    unfold condsFor
    rw [filter_cons, loaded]
    rfl
  | true =>
    have condsFor_source : condsFor [cond] cond.sourceEntry = [cond.id] := by
      unfold condsFor
      rw [filter_cons, loaded, Bool.true_and, if_pos (decide_eq_true rfl)]
      rfl
    have condsFor_other : ∀ {id}, id ≠ cond.sourceEntry → condsFor [cond] id = [] := by
      intro id other
      unfold condsFor
      rw [filter_cons, loaded, Bool.true_and, decide_eq_false (Ne.symm other)]
      rfl
    rcases addConditionItem_spec (t := t) loaded with
      ⟨q, item, found, same, first, here, others⟩ | ⟨same, none⟩
    · by_cases atSpot : p = q
      · subst atSpot
        rw [here, found, map_some, given_first (same ▸ first), same, condsFor_source]
      rw [others p atSpot]
      rcases isOther : t.itemAt p with _ | other
      · rfl
      rw [map_some]
      by_cases sameId : other.itemid = cond.sourceEntry
      · have later : ¬ t.IsFirst p other.itemid := fun isFirst =>
          atSpot (isFirst_unique (sameId ▸ isFirst) isOther sameId first found same)
        rw [given_later later, append_nil]
        rfl
      · rw [unchanged (condsFor_other sameId)]
    · rw [same]
      cases found : t.itemAt p with
      | none => rfl
      | some item =>
        rw [map_some, unchanged (condsFor_other (none p item found))]

theorem given_cons :
    t.given (cond :: calls) p item = t.given [cond] p item ++ t.given calls p item := by
  by_cases first : t.IsFirst p item.itemid
  · rw [given_first first, given_first first, given_first first]
    unfold condsFor
    rw [← map_append, ← filter_append]
    rfl
  · rw [given_later first, given_later first, given_later first]
    rfl

theorem given_of_sameShape (same : SameShape t t') {conditions : List UInt32} :
    t'.given calls p (item.withConditions conditions) = t.given calls p item := by
  by_cases first : t.IsFirst p item.itemid
  · rw [given_first first]
    exact given_first (same.isFirst first)
  · rw [given_later first]
    exact given_later fun isFirst => first (same.symm.isFirst isFirst)

/-- **Each entry has the conditions that were attached for its id if it is the first with
it**, and no more. -/
theorem itemAt_attach (calls : List LootCondition) : ∀ {t : LootTemplate} (p : Spot),
    (t.attach calls).itemAt p = (t.itemAt p).map fun item =>
      item.withConditions (item.conditions ++ t.given calls p item) := by
  induction calls with
  | nil =>
    intro t p
    rcases found : t.itemAt p with _ | item
    · exact found
    have nothing : t.given [] p item = [] := ite_self _
    rw [map_some, nothing, append_nil]
    exact found
  | cons cond calls ih =>
    intro t p
    have same : SameShape t (t.addConditionItem cond).1 :=
      sameShape_of_map itemAt_addConditionItem
    have step : (t.attach (cond :: calls)).itemAt p =
        ((t.addConditionItem cond).1.attach calls).itemAt p := rfl
    rw [step, ih, itemAt_addConditionItem]
    rcases t.itemAt p with _ | item
    · rfl
    have both : t.given (cond :: calls) p item =
        t.given [cond] p item ++ t.given calls p item := given_cons
    simp only [map_some]
    rw [given_of_sameShape same, both, ← append_assoc]
    rfl

theorem itemAt_clearConditions (p : Spot) :
    t.clearConditions.itemAt p = (t.itemAt p).map (·.withConditions []) := by
  cases p with
  | entry k =>
    exact getElem?_map
  | explicit g k =>
    unfold itemAt clearConditions
    dsimp only
    rw [getElem?_map]
    rcases t.groups[g]? with _ | _ | group
    · rfl
    · rfl
    · exact getElem?_map
  | equal g k =>
    unfold itemAt clearConditions
    dsimp only
    rw [getElem?_map]
    rcases t.groups[g]? with _ | _ | group
    · rfl
    · rfl
    · exact getElem?_map

def conditioned (t : LootTemplate) (calls : List LootCondition) : LootTemplate :=
  t.clearConditions.attach calls

theorem itemAt_conditioned (calls : List LootCondition) (p : Spot) :
    (t.conditioned calls).itemAt p =
      (t.itemAt p).map fun item => item.withConditions (t.given calls p item) := by
  have same : SameShape t t.clearConditions := sameShape_of_map itemAt_clearConditions
  unfold conditioned
  rw [itemAt_attach, itemAt_clearConditions]
  rcases t.itemAt p with _ | item
  · rfl
  simp only [map_some]
  rw [given_of_sameShape same]
  rfl

/-- What a loaded item of a template gets back: what was attached for its id, if an ungrouped
entry has the id. -/
def kept (t : LootTemplate) (calls : List LootCondition) (id : UInt32) : List UInt32 :=
  if t.entries.any (·.itemid = id) then condsFor calls id else []

theorem any_entries_of_itemAt (found : t.itemAt (.entry k) = some item) :
    t.entries.any (·.itemid = item.itemid) = true :=
  List.any_eq_true.mpr ⟨item, mem_of_getElem? found, decide_eq_true rfl⟩

theorem conditions_copyConditions {li : LootItem} (bare : li.conditions = []) :
    ((t.conditioned calls).copyConditions li).conditions = t.kept calls li.itemid := by
  unfold copyConditions kept
  cases found : (t.conditioned calls).entries.find? (·.itemid = li.itemid) with
  | none =>
    have absent : t.entries.any (·.itemid = li.itemid) = false := by
      rw [List.any_eq_false]
      intro item member same
      obtain ⟨k, isItem⟩ := getElem?_of_mem member
      have conditioned := itemAt_conditioned (t := t) calls (.entry k)
      have isItem' : t.itemAt (.entry k) = some item := isItem
      rw [isItem', map_some] at conditioned
      have member' := mem_of_getElem? conditioned
      exact List.find?_eq_none.mp found _ member' same
    rw [absent, if_neg Bool.false_ne_true]
    exact bare
  | some item' =>
    obtain ⟨same, k, inside, isItem', before⟩ := List.find?_eq_some_iff_getElem.mp found
    have at' : (t.conditioned calls).itemAt (.entry k) = some item' := by
      rw [← isItem']
      exact getElem?_eq_getElem inside
    rw [itemAt_conditioned, map_eq_some_iff] at at'
    obtain ⟨item, isItem, rfl⟩ := at'
    have sameId : item.itemid = li.itemid := of_decide_eq_true same
    have first : t.IsFirst (.entry k) item.itemid := by
      intro q earlier other isOther
      cases q with
      | entry j =>
        have conditioned := itemAt_conditioned (t := t) calls (.entry j)
        rw [isOther, map_some] at conditioned
        obtain ⟨insideOther, isOther'⟩ := List.getElem?_eq_some_iff.mp conditioned
        have different := before j earlier
        rw [isOther', sameId.symm] at different
        rw [Bool.not_eq_true', decide_eq_false_iff_not] at different
        exact different
      | explicit g j => cases earlier
      | equal g j => cases earlier
    have present := any_entries_of_itemAt isItem
    rw [sameId] at present
    rw [present, if_pos rfl]
    exact (given_first first).trans (congrArg (condsFor calls) sameId)

end LootTemplate

end Sky548
