import Sky548.Loot.References
import Sky548.OrdMap

/-!
# Lists of conditions

A list of conditions is met if all are that share some `ElseGroup`, and a reference is if the list
that it refers to is. `ConditionMgr` goes through a list in the same way to say so and to say which
types of objects can meet it, so that a search need not ask the others.

What `Condition::Meets` and `GetSearcherTypeMaskForCondition` say of one condition is given.
-/

namespace Sky548

open List

structure Condition where
  conditionType : UInt32
  conditionValues : UInt32 × UInt32 × UInt32
  negativeCondition : Bool
  elseGroup : UInt32
  referenceId : UInt32

def Condition.isLoaded (c : Condition) : Bool := c.conditionType > 0 || c.referenceId ≠ 0

abbrev ConditionReferences := OrdMap UInt32 (List Condition)

structure ConditionReading (α : Type) where
  /-- It asserts that conditions are loaded and references are there. -/
  asserts : Bool
  whenEmpty : α
  all : α
  nothing : α
  meet : α → α → α
  join : α → α → α
  own : Condition → α

namespace ConditionReading

variable {α : Type}

/-- What is read of a condition; no result where it asserts. -/
def value (E : ConditionReading α) (refs : ConditionReferences)
    (read : List Condition → Option α) (c : Condition) : Option α :=
  if c.referenceId = 0 then some (E.own c)
  else
    match refs.find? c.referenceId with
    | some referred => read referred
    | none => if E.asserts then none else some E.all

/-- A turn of the loop: a group of which nothing is left is passed over. -/
def turn [DecidableEq α] (E : ConditionReading α) (value : Condition → Option α)
    (groups : OrdMap UInt32 α) (c : Condition) : Option (OrdMap UInt32 α) :=
  if c.isLoaded = false then
    if E.asserts then none else some groups
  else if groups.find? c.elseGroup = some E.nothing then some groups
  else (value c).map fun v =>
    groups.insert c.elseGroup (E.meet ((groups.find? c.elseGroup).getD E.all) v)

/-- References are followed to the depth that is given. -/
def read [DecidableEq α] (E : ConditionReading α) (refs : ConditionReferences) :
    Nat → List Condition → Option α
  | 0, _ => none
  | depth + 1, conditions =>
    if conditions.isEmpty then some E.whenEmpty
    else (conditions.foldlM (E.turn (E.value refs (E.read refs depth))) .empty).map fun groups =>
      groups.toList.foldl (fun r e => E.join r e.2) E.nothing

/-- One thing that readings may contain, and how they are put together. -/
structure Bit (E : ConditionReading α) (bit : α → Prop) : Prop where
  all : bit E.all
  nothing : ¬ bit E.nothing
  meet : ∀ {v w}, bit (E.meet v w) ↔ bit v ∧ bit w
  join : ∀ {v w}, bit (E.join v w) ↔ bit v ∨ bit w

end ConditionReading

/-- **An OR of ANDs**, whatever the order of the list. -/
inductive ConditionsMet (refs : ConditionReferences) (own : Condition → Prop) (whenEmpty : Prop) :
    List Condition → Prop
  | empty : whenEmpty → ConditionsMet refs own whenEmpty []
  | group {conditions : List Condition} {c : Condition} :
    c ∈ conditions → c.isLoaded = true →
    (∀ d ∈ conditions, d.isLoaded = true → d.elseGroup = c.elseGroup →
      d.referenceId = 0 → own d) →
    (∀ d ∈ conditions, d.isLoaded = true → d.elseGroup = c.elseGroup →
      d.referenceId ≠ 0 → ∀ referred, refs.find? d.referenceId = some referred →
        ConditionsMet refs own whenEmpty referred) →
    ConditionsMet refs own whenEmpty conditions

namespace ConditionReading

variable {α : Type} {E : ConditionReading α} {refs : ConditionReferences}
variable {bit : α → Prop} {P : Condition → Prop} {value : Condition → Option α}
variable {groups groups' : OrdMap UInt32 α} {done conditions : List Condition} {c : Condition}

/-- The groups of the conditions that are done, of which those contain the bit whose conditions
all have the property. -/
def Grouped (E : ConditionReading α) (bit : α → Prop) (P : Condition → Prop)
    (done : List Condition) (groups : OrdMap UInt32 α) : Prop :=
  ∀ g, ((groups.find? g).isSome = true ↔ ∃ c ∈ done, c.isLoaded = true ∧ c.elseGroup = g) ∧
    (bit ((groups.find? g).getD E.all) ↔
      ∀ c ∈ done, c.isLoaded = true → c.elseGroup = g → P c)

theorem bit_foldl (lawful : E.Bit bit) (entries : List (UInt32 × α)) : ∀ r,
    bit (entries.foldl (fun r e => E.join r e.2) r) ↔ bit r ∨ ∃ e ∈ entries, bit e.2 := by
  induction entries with
  | nil => simp
  | cons e rest ih => simp [ih, lawful.join, or_assoc]

theorem Grouped.exists_iff (grouped : E.Grouped bit P conditions groups) :
    (∃ e ∈ groups.toList, bit e.2) ↔ ∃ c ∈ conditions, c.isLoaded = true ∧
      ∀ d ∈ conditions, d.isLoaded = true → d.elseGroup = c.elseGroup → P d := by
  constructor
  · rintro ⟨⟨g, v⟩, member, has⟩
    have found := OrdMap.find?_eq_some_iff.mpr member
    obtain ⟨isGroup, bits⟩ := grouped g
    rw [found] at isGroup bits
    obtain ⟨c, inList, loaded, rfl⟩ := isGroup.mp rfl
    exact ⟨c, inList, loaded, bits.mp has⟩
  · rintro ⟨c, inList, loaded, holds⟩
    obtain ⟨isGroup, bits⟩ := grouped c.elseGroup
    obtain ⟨v, found⟩ := Option.isSome_iff_exists.mp (isGroup.mpr ⟨c, inList, loaded, rfl⟩)
    rw [found] at bits
    exact ⟨(c.elseGroup, v), OrdMap.find?_eq_some_iff.mp found, bits.mpr holds⟩

def Asks (refs : ConditionReferences) (own : Condition → Prop) (met : List Condition → Prop)
    (c : Condition) : Prop :=
  (c.referenceId = 0 → own c) ∧
    (c.referenceId ≠ 0 → ∀ referred, refs.find? c.referenceId = some referred → met referred)

theorem bit_value (lawful : E.Bit bit) {read : List Condition → Option α}
    {met : List Condition → Prop} {v : α}
    (sound : ∀ referred r, read referred = some r → (bit r ↔ met referred))
    (found : E.value refs read c = some v) :
    bit v ↔ Asks refs (fun c => bit (E.own c)) met c := by
  rw [ConditionReading.value] at found
  split at found
  · rename_i isOwn
    cases found
    simp [Asks, isOwn]
  rename_i isReference
  split at found
  · rename_i referred isThere
    simp [Asks, isReference, isThere, sound referred v found]
  · rename_i missing
    split at found <;> cases found
    simp [Asks, isReference, missing, lawful.all]

theorem conditionsMet_iff {own : Condition → Prop} {whenEmpty : Prop} (some : conditions ≠ []) :
    ConditionsMet refs own whenEmpty conditions ↔ ∃ c ∈ conditions, c.isLoaded = true ∧
      ∀ d ∈ conditions, d.isLoaded = true → d.elseGroup = c.elseGroup →
        Asks refs own (ConditionsMet refs own whenEmpty) d := by
  constructor
  · intro met
    cases met with
    | empty => exact absurd rfl some
    | group inList loaded own referred =>
      exact ⟨_, inList, loaded, fun d member loaded same =>
        ⟨own d member loaded same, referred d member loaded same⟩⟩
  · rintro ⟨c, inList, loaded, asked⟩
    exact .group inList loaded (fun d member loaded same => (asked d member loaded same).1)
      fun d member loaded same => (asked d member loaded same).2

variable [DecidableEq α]

theorem Grouped.turn (lawful : E.Bit bit) (same : ∀ v, value c = some v → (bit v ↔ P c))
    (grouped : E.Grouped bit P done groups) (turned : E.turn value groups c = some groups') :
    E.Grouped bit P (done ++ [c]) groups' := by
  intro g
  obtain ⟨isGroup, has⟩ := grouped g
  rw [ConditionReading.turn] at turned
  split at turned
  · rename_i unloaded
    split at turned <;> cases turned
    simp [isGroup, has, or_imp, forall_and, or_and_right, exists_or, unloaded]
  rename_i loaded
  rw [Bool.not_eq_false] at loaded
  split at turned
  · rename_i nothing
    cases turned
    by_cases here : c.elseGroup = g
    · subst here
      rw [nothing] at isGroup has ⊢
      have fails := mt has.mpr lawful.nothing
      simp only [mem_append, mem_singleton, or_imp, forall_and] at isGroup ⊢
      refine ⟨⟨fun _ => ⟨c, Or.inr rfl, loaded, rfl⟩, fun _ => rfl⟩, fun nothing => ?_, ?_⟩
      · exact absurd nothing lawful.nothing
      · exact fun both => absurd both.1 fails
    · simp [isGroup, has, or_imp, forall_and, or_and_right, exists_or, here]
  · obtain ⟨v, found, rfl⟩ := Option.map_eq_some_iff.mp turned
    rw [OrdMap.find?_insert]
    by_cases here : c.elseGroup = g
    · subst here
      rw [if_pos rfl, Option.getD_some, lawful.meet, has, same v found]
      simp [or_imp, forall_and, loaded]
    · rw [if_neg (Ne.symm here)]
      simp [isGroup, has, or_imp, forall_and, or_and_right, exists_or, here]

theorem Grouped.run (lawful : E.Bit bit) (rest : List Condition) :
    ∀ (done : List Condition) {groups}, (∀ c ∈ rest, ∀ v, value c = some v → (bit v ↔ P c)) →
      E.Grouped bit P done groups → rest.foldlM (E.turn value) groups = some groups' →
        E.Grouped bit P (done ++ rest) groups' := by
  induction rest with
  | nil =>
    rintro done groups - grouped ⟨⟩
    rwa [append_nil]
  | cons c rest ih =>
    intro done groups same grouped ran
    rw [foldlM_cons] at ran
    obtain ⟨between, turned, ran⟩ := Option.bind_eq_some_iff.mp ran
    have next := ih (done ++ [c]) (fun d later => same d (mem_cons_of_mem c later))
      (grouped.turn lawful (same c mem_cons_self) turned) ran
    rwa [append_assoc] at next

/-- **What is read** is what the list means. -/
theorem read_iff (lawful : E.Bit bit) (depth : Nat) : ∀ {conditions r},
    E.read refs depth conditions = some r →
      (bit r ↔ ConditionsMet refs (fun c => bit (E.own c)) (bit E.whenEmpty) conditions) := by
  induction depth with
  | zero => nofun
  | succ depth ih =>
    intro conditions r ran
    rw [read] at ran
    split at ran
    · rename_i isEmpty
      cases List.isEmpty_iff.mp isEmpty
      cases ran
      exact ⟨.empty, fun | .empty has => has | .group inList .. => absurd inList not_mem_nil⟩
    rename_i notEmpty
    obtain ⟨groups, walked, rfl⟩ := Option.map_eq_some_iff.mp ran
    have start : E.Grouped bit (Asks refs (fun c => bit (E.own c)) (ConditionsMet refs
        (fun c => bit (E.own c)) (bit E.whenEmpty))) [] .empty := fun g => by
      simp [OrdMap.find?, OrdMap.empty, lawful.all]
    have grouped := start.run lawful conditions []
      (fun c _ v found => bit_value lawful (fun _ _ => ih) found) walked
    rw [nil_append] at grouped
    rw [bit_foldl lawful, or_iff_right lawful.nothing, grouped.exists_iff,
      conditionsMet_iff (mt List.isEmpty_iff.mpr notEmpty)]

def Refers (refs : ConditionReferences) (referred conditions : List Condition) : Prop :=
  ∃ c ∈ conditions, c.referenceId ≠ 0 ∧ refs.find? c.referenceId = some referred

/-- All that readings assert. -/
def Checked (refs : ConditionReferences) (conditions : List Condition) : Prop :=
  ∀ c ∈ conditions, c.isLoaded = true ∧
    (c.referenceId ≠ 0 → (refs.find? c.referenceId).isSome = true)

instance : Decidable (Checked refs conditions) :=
  inferInstanceAs (Decidable (∀ c ∈ conditions, _ ∧ (_ → _)))

theorem isSome_foldlM (conditions : List Condition) : ∀ {groups : OrdMap UInt32 α},
    (∀ c ∈ conditions, (E.asserts = true → c.isLoaded = true) ∧ (value c).isSome = true) →
      (conditions.foldlM (E.turn value) groups).isSome = true := by
  induction conditions with
  | nil => exact fun _ => rfl
  | cons c rest ih =>
    intro groups each
    obtain ⟨⟨loaded, isRead⟩, later⟩ := List.forall_mem_cons.mp each
    obtain ⟨v, found⟩ := Option.isSome_iff_exists.mp isRead
    have turned : ∃ groups', E.turn value groups c = some groups' := by
      rw [ConditionReading.turn, found]
      split
      · rename_i unloaded
        split
        · rename_i asserts
          exact absurd (loaded asserts) (by simp [unloaded])
        · exact ⟨_, rfl⟩
      split
      · exact ⟨_, rfl⟩
      · exact ⟨_, rfl⟩
    obtain ⟨groups', turned⟩ := turned
    rw [foldlM_cons, turned]
    exact ih later

/-- Where every chain of references ends, so does the reading. -/
theorem read_ends (acc : Acc (Refers refs) conditions)
    (loaded : E.asserts = true → ∀ e ∈ refs.toList, Checked refs e.2) :
    (E.asserts = true → Checked refs conditions) →
      ∃ n, ∀ depth ≥ n, (E.read refs depth conditions).isSome = true := by
  induction acc with
  | intro conditions _ ih =>
    intro checked
    have each : ∀ c ∈ conditions, ∃ n, ∀ depth ≥ n,
        (E.value refs (E.read refs depth) c).isSome = true := by
      intro c inList
      by_cases isOwn : c.referenceId = 0
      · simp [ConditionReading.value, isOwn]
      cases isThere : refs.find? c.referenceId with
      | none =>
        have silent : ¬ E.asserts = true := fun asserts => by
          simpa [isThere] using (checked asserts c inList).2 isOwn
        simp [ConditionReading.value, isOwn, isThere, silent]
      | some referred =>
        have further := ih referred ⟨c, inList, isOwn, isThere⟩ fun asserts =>
          loaded asserts _ (OrdMap.find?_eq_some_iff.mp isThere)
        simpa [ConditionReading.value, isOwn, isThere] using further
    obtain ⟨n, deep⟩ := exists_depth conditions each
    refine ⟨n + 1, fun depth enough => ?_⟩
    obtain ⟨depth, rfl⟩ := Nat.exists_eq_add_of_le' (Nat.le_of_add_left_le enough)
    rw [read]
    split
    · rfl
    · rw [Option.isSome_map]
      exact isSome_foldlM conditions fun c inList =>
        ⟨fun asserts => (checked asserts c inList).1, deep depth (by omega) c inList⟩

end ConditionReading

def meetReading (meets : Condition → Bool) : ConditionReading Bool where
  asserts := false
  whenEmpty := false
  all := true
  nothing := false
  meet := and
  join := or
  own := meets

def isObjectMeetToConditionList (refs : ConditionReferences) (meets : Condition → Bool) :
    Nat → List Condition → Option Bool :=
  (meetReading meets).read refs

def isObjectMeetToConditions (refs : ConditionReferences) (meets : Condition → Bool) (depth : Nat)
    (conditions : List Condition) : Option Bool :=
  if conditions.isEmpty then some true else isObjectMeetToConditionList refs meets depth conditions

inductive GridMapType
  | corpse | creature | dynamicObject | gameObject | player | areaTrigger

def GridMapType.isIn (t : GridMapType) (mask : UInt32) : Prop :=
  mask.toNat.testBit t.ctorIdx = true

def gridMapTypeMaskAll : UInt32 := 0x3F

theorem isIn_all (t : GridMapType) : t.isIn gridMapTypeMaskAll := by
  cases t <;> exact Nat.testBit_two_pow_sub_one 6 _

def maskReading (mask : Condition → UInt32) : ConditionReading UInt32 where
  asserts := true
  whenEmpty := gridMapTypeMaskAll
  all := gridMapTypeMaskAll
  nothing := 0
  meet := (· &&& ·)
  join := (· ||| ·)
  own := mask

def getSearcherTypeMaskForConditionList (refs : ConditionReferences) (mask : Condition → UInt32) :
    Nat → List Condition → Option UInt32 :=
  (maskReading mask).read refs

theorem bit_meetReading (meets : Condition → Bool) : (meetReading meets).Bit (· = true) :=
  ⟨rfl, Bool.false_ne_true, Bool.and_eq_true_iff, Bool.or_eq_true_iff⟩

theorem bit_maskReading (mask : Condition → UInt32) (t : GridMapType) :
    (maskReading mask).Bit t.isIn where
  all := isIn_all t
  nothing := by
    simp [maskReading, GridMapType.isIn]
  meet := by
    simp [maskReading, GridMapType.isIn]
  join := by
    simp [maskReading, GridMapType.isIn]

variable {refs : ConditionReferences} {conditions : List Condition}

theorem ConditionsMet.mono {own own' : Condition → Prop} {whenEmpty whenEmpty' : Prop}
    (imp : ∀ c, own c → own' c) (impEmpty : whenEmpty → whenEmpty')
    (met : ConditionsMet refs own whenEmpty conditions) :
    ConditionsMet refs own' whenEmpty' conditions := by
  induction met with
  | empty isMet => exact .empty (impEmpty isMet)
  | group inList loaded holds _ ih =>
    exact .group inList loaded (fun d member loaded same isOwn =>
      imp d (holds d member loaded same isOwn)) ih

open ConditionReading

def ofType (conditionType elseGroup referenceId : UInt32) : Condition :=
  ⟨conditionType, (0, 0, 0), false, elseGroup, referenceId⟩

def oneReference : ConditionReferences := .insert .empty 7 [ofType 1 0 0]

def twoGroups : List Condition := [ofType 0 0 7, ofType 2 1 0]

theorem ends_twoGroups : Acc (Refers oneReference) twoGroups := by
  have plain : Acc (Refers oneReference) [ofType 1 0 0] :=
    .intro _ fun _ ⟨_, inList, isReference, _⟩ => absurd (by simp_all [ofType]) isReference
  refine .intro _ fun referred ⟨c, inList, isReference, found⟩ => ?_
  rw [oneReference, OrdMap.find?_insert] at found
  split at found
  · cases found
    exact plain
  · cases found

/-- **Conditions are met exactly if** there are none, or all are in some `ElseGroup`. -/
theorem isObjectMeetToConditions_iff (meets : Condition → Bool)
    (ends : Acc (Refers refs) conditions) : ∃ n, ∀ depth ≥ n, ∃ met,
      isObjectMeetToConditions refs meets depth conditions = some met ∧ (met = true ↔
        conditions = [] ∨ ConditionsMet refs (fun c => meets c = true) False conditions) := by
  obtain ⟨n, deep⟩ := read_ends (E := meetReading meets) ends nofun nofun
  refine ⟨n, fun depth enough => ?_⟩
  rw [isObjectMeetToConditions]
  split
  · rename_i isEmpty
    exact ⟨true, rfl, iff_of_true rfl (Or.inl (List.isEmpty_iff.mp isEmpty))⟩
  rename_i notEmpty
  obtain ⟨met, ran⟩ := Option.isSome_iff_exists.mp (deep depth enough)
  refine ⟨met, ran, (read_iff (bit_meetReading meets) depth ran).trans ?_⟩
  rw [or_iff_right (mt List.isEmpty_iff.mpr notEmpty)]
  exact iff_of_eq (congrArg (ConditionsMet refs _ · conditions) (eq_false Bool.false_ne_true))

theorem isObjectMeetToConditions_twoGroups : ∃ n, ∀ depth ≥ n, ∃ met,
    isObjectMeetToConditions oneReference (·.conditionType = 1) depth twoGroups = some met ∧
      (met = true ↔ twoGroups = [] ∨
        ConditionsMet oneReference (fun c => decide (c.conditionType = 1) = true) False twoGroups) :=
  isObjectMeetToConditions_iff _ ends_twoGroups

end Sky548
