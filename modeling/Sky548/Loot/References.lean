import Mathlib.Data.Set.Finite.Basic
import Mathlib.Order.RelIso.Set
import Sky548.Loot.Template

/-!
# References that end

A template refers to others, and a reference without a group is a call of the same
function for the other template. Loading asks of a reference that its template is there.
What the calls need is that no chain of references goes on for ever: `HasQuestDrop` follows
them in its own store, `Process` in that of the reference templates.
-/

namespace Sky548

open List

theorem exists_depth {α : Type*} (l : List α) {P : α → Nat → Prop}
    (each : ∀ a ∈ l, ∃ d, ∀ d' ≥ d, P a d') : ∃ d, ∀ d' ≥ d, ∀ a ∈ l, P a d' := by
  induction l with
  | nil => exact ⟨0, fun _ _ a member => absurd member not_mem_nil⟩
  | cons a rest ih =>
    obtain ⟨d, first⟩ := each a mem_cons_self
    obtain ⟨e, others⟩ := ih fun b member => each b (mem_cons_of_mem a member)
    refine ⟨max d e, fun d' deep b member => ?_⟩
    rcases List.mem_cons.mp member with rfl | inRest
    · exact first d' (le_trans (le_max_left d e) deep)
    · exact others d' (le_trans (le_max_right d e) deep) b inRest

namespace LootTemplate

def Refers (templates : LootTemplateMap) (t' t : LootTemplate) : Prop :=
  ∃ item ∈ t.entries, item.isRef = true ∧ item.group = 0 ∧ templates item.refId = some t'

variable {templates : LootTemplateMap} {t : LootTemplate}

theorem anyEntry_isSome {drops : LootStoreEntry → Option Bool} (l : List LootStoreEntry)
    (each : ∀ item ∈ l, (drops item).isSome = true) : (anyEntry drops l).isSome = true := by
  induction l with
  | nil => rfl
  | cons item rest ih =>
    have first := each item mem_cons_self
    have others := ih fun other member => each other (mem_cons_of_mem item member)
    obtain ⟨found, isFound⟩ := Option.isSome_iff_exists.mp first
    rw [anyEntry, isFound]
    cases found with
    | true => rfl
    | false => exact others

theorem anyEntry_eq_some {drops : LootStoreEntry → Option Bool} (l : List LootStoreEntry) :
    ∀ {found : Bool}, (∀ item ∈ l, ∀ b, drops item = some b → b = false) →
      anyEntry drops l = some found → found = false ∧ ∀ item ∈ l, drops item = some false := by
  induction l with
  | nil =>
    intro found _ result
    cases result
    exact ⟨rfl, fun item member => absurd member not_mem_nil⟩
  | cons item rest ih =>
    intro found none result
    rw [anyEntry] at result
    cases first : drops item with
    | none =>
      rw [first] at result
      cases result
    | some b =>
      have isFalse := none item mem_cons_self b first
      subst isFalse
      rw [first] at result
      obtain ⟨isFalse, others⟩ := ih (fun other member => none other
        (mem_cons_of_mem item member)) result
      refine ⟨isFalse, fun other member => ?_⟩
      rcases List.mem_cons.mp member with rfl | inRest
      · exact first
      · exact others other inRest

theorem hasDrop_group_isSome {isDrop : LootStoreEntry → Bool} {depth : Nat} {groupId : UInt8}
    (grouped : groupId ≠ 0) : (hasDrop templates isDrop (depth + 1) t groupId).isSome = true := by
  rw [hasDrop, if_pos grouped]
  rfl

/-- **Where every chain of references ends, so does what follows the references**: it ends for a
group, and at a template where it does for all that it goes on to. -/
theorem depth_of_acc {references : LootTemplateMap} {follows : LootStoreEntry → Prop}
    {ends : Nat → LootTemplate → UInt8 → Prop} {refers : LootTemplate → LootTemplate → Prop}
    (isReferred : ∀ t, ∀ item ∈ t.entries, item.group = 0 → follows item → ∀ t',
      references item.refId = some t' → refers t' t)
    (group : ∀ d t g, g ≠ 0 → ends (d + 1) t g)
    (turns : ∀ d t, (∀ item ∈ t.entries, follows item → ∀ t', references item.refId = some t' →
      ends d t' item.group) → ends (d + 1) t 0)
    (acc : Acc refers t) : ∃ d, ∀ d' ≥ d, ends d' t 0 := by
  induction acc with
  | intro t _ ih =>
    have each : ∀ item ∈ t.entries, ∃ d, ∀ d' ≥ d, follows item → ∀ t',
        references item.refId = some t' → ends d' t' item.group := by
      intro item member
      by_cases grouped : item.group = 0
      · by_cases goesOn : follows item ∧ ∃ t', references item.refId = some t'
        · obtain ⟨can, t', found⟩ := goesOn
          obtain ⟨d, deep⟩ := ih t' (isReferred t item member grouped can t' found)
          refine ⟨d, fun d' enough _ t'' isReferenced => ?_⟩
          cases found.symm.trans isReferenced
          rw [grouped]
          exact deep d' enough
        · exact ⟨0, fun _ _ can t' found => absurd ⟨can, t', found⟩ goesOn⟩
      · refine ⟨1, fun d' enough _ t' _ => ?_⟩
        obtain ⟨k, rfl⟩ := Nat.exists_eq_add_of_le' enough
        exact group k t' _ grouped
    obtain ⟨d, deep⟩ := exists_depth t.entries each
    refine ⟨d + 1, fun d' enough => ?_⟩
    obtain ⟨k, rfl⟩ : ∃ k, d' = k + 1 := ⟨d' - 1, by omega⟩
    exact turns k t fun item member => deep k (by omega) item member

theorem hasDrop_of_acc (acc : Acc (Refers templates) t) :
    ∃ d, ∀ d' ≥ d, ∀ isDrop, (hasDrop templates isDrop d' t 0).isSome = true := by
  refine @depth_of_acc t templates (fun item => item.isRef = true)
    (fun d t g => ∀ isDrop, (hasDrop templates isDrop d t g).isSome = true) _
    (fun t item member grouped isRef t' found => ⟨item, member, isRef, grouped, found⟩)
    (fun d t g grouped _ => hasDrop_group_isSome grouped) (fun k t deep isDrop => ?_) acc
  have turns : ∀ item ∈ t.entries,
      (entryDrop templates isDrop (hasDrop templates isDrop k) item).isSome = true := by
    intro item member
    unfold entryDrop
    split
    · rename_i isRef
      split
      · rfl
      · rename_i referenced isReferenced
        exact deep item member isRef referenced isReferenced isDrop
    · rfl
  obtain ⟨found, isFound⟩ := Option.isSome_iff_exists.mp (anyEntry_isSome t.entries turns)
  rw [hasDrop, if_neg (by simp), isFound]
  cases found <;> rfl

theorem acc_of_hasDrop (depth : Nat) : ∀ {t : LootTemplate} {groupId : UInt8} {b : Bool},
    hasDrop templates (fun _ => false) depth t groupId = some b →
      b = false ∧ (groupId = 0 → Acc (Refers templates) t) := by
  induction depth with
  | zero =>
    intro t groupId b result
    cases result
  | succ depth ih =>
    intro t groupId b result
    have noDrop : ∀ g : Option LootGroup, (g.any fun g => g.items.any fun _ => false) = false := by
      intro g
      cases g <;> simp
    rw [hasDrop] at result
    by_cases grouped : groupId = 0
    · rw [if_neg (not_not.mpr grouped)] at result
      have turn : ∀ item ∈ t.entries, ∀ b, entryDrop templates (fun _ => false)
          (hasDrop templates (fun _ => false) depth) item = some b → b = false := by
        intro item _ b turned
        unfold entryDrop at turned
        split at turned
        · split at turned
          · cases turned
            rfl
          · exact (ih turned).1
        · cases turned
          rfl
      cases loop : anyEntry (entryDrop templates (fun _ => false)
          (hasDrop templates (fun _ => false) depth)) t.entries with
      | none =>
        rw [loop] at result
        cases result
      | some found =>
        obtain ⟨isFalse, all⟩ := anyEntry_eq_some t.entries turn loop
        subst isFalse
        rw [loop] at result
        have noGroup : (t.groups.any fun g => g.any fun g => g.items.any fun _ => false) =
            false := by
          rw [List.any_eq_false]
          intro g _
          rw [noDrop]
          exact Bool.false_ne_true
        have isFalse : b = false := by
          rw [← noGroup]
          exact (Option.some.inj result).symm
        refine ⟨isFalse, fun _ => Acc.intro t fun t' refers => ?_⟩
        obtain ⟨item, member, isRef, ungrouped, found⟩ := refers
        have searched := all item member
        unfold entryDrop at searched
        rw [if_pos isRef, found, ungrouped] at searched
        exact (ih searched).2 rfl
    · rw [if_pos grouped, noDrop] at result
      cases result
      exact ⟨rfl, fun zero => absurd zero grouped⟩

end LootTemplate

namespace LootRolls

open LootTemplate

/-- A reference that `Process` can follow: some loot mode has it, its repetitions are not
none, and its chance can be met. -/
structure CanFollow (r : LootRolls) (rate : Bool) (item : LootStoreEntry) : Prop where
  lootmode : item.lootmode ≠ 0
  times : 0 < r.times item
  chance : item.chance ≥ 100 ∨ item.chance * r.factor item rate > 0

/-- A template and one that `Process` can go on to. -/
def Follows (r : LootRolls) (rate : Bool) (t' t : LootTemplate) : Prop :=
  ∃ item ∈ t.entries, item.isRef = true ∧ item.group = 0 ∧
    r.references item.refId = some t' ∧ r.CanFollow rate item

variable {r : LootRolls} {rate : Bool} {t : LootTemplate}

theorem repeatProcess_isSome {f : LootFilling → Option LootFilling}
    (each : ∀ s, (f s).isSome = true) (n : Nat) : ∀ s, (repeatProcess f n s).isSome = true := by
  induction n with
  | zero => exact fun _ => rfl
  | succ n ih =>
    intro s
    obtain ⟨s', done⟩ := Option.isSome_iff_exists.mp (each s)
    rw [repeatProcess, done]
    exact ih s'

theorem processEntries_isSome {f : LootStoreEntry → LootFilling → Option LootFilling}
    (l : List LootStoreEntry) (each : ∀ item ∈ l, ∀ s, (f item s).isSome = true) :
    ∀ s, (processEntries f l s).isSome = true := by
  induction l with
  | nil => exact fun _ => rfl
  | cons item rest ih =>
    intro s
    obtain ⟨s', done⟩ := Option.isSome_iff_exists.mp (each item mem_cons_self s)
    rw [processEntries, done]
    exact ih (fun other member => each other (mem_cons_of_mem item member)) s'

theorem isSome_of_processEntries {f : LootStoreEntry → LootFilling → Option LootFilling}
    (l : List LootStoreEntry) : ∀ {s : LootFilling}, (processEntries f l s).isSome = true →
      ∀ item ∈ l, ∃ s', (f item s').isSome = true := by
  induction l with
  | nil => exact fun _ item member => absurd member not_mem_nil
  | cons item rest ih =>
    intro s ended other member
    rw [processEntries] at ended
    cases first : f item s with
    | none =>
      rw [first] at ended
      cases ended
    | some s' =>
      rw [first] at ended
      rcases List.mem_cons.mp member with rfl | inRest
      · exact ⟨s, Option.isSome_iff_exists.mpr ⟨s', first⟩⟩
      · exact ih ended other inRest

theorem processEntry_isSome {process : LootTemplate → UInt8 → LootFilling → Option LootFilling}
    {lootMode : UInt16} {item : LootStoreEntry}
    (deep : item.isRef = true → r.CanFollow rate item → ∀ referenced,
      r.references item.refId = some referenced →
        ∀ s, (process referenced item.group s).isSome = true) (s : LootFilling) :
    (r.processEntry process rate lootMode item s).isSome = true := by
  unfold processEntry
  by_cases mismatch : item.lootmode &&& lootMode = 0
  · rw [if_pos mismatch]
    rfl
  rw [if_neg mismatch]
  have lootmode : item.lootmode ≠ 0 := by
    intro zero
    rw [zero, UInt16.zero_and] at mismatch
    exact mismatch rfl
  dsimp only
  rcases rolled : (r.roll item rate s).1 with _ | _
  · rfl
  have chance : item.chance ≥ 100 ∨ item.chance * r.factor item rate > 0 := by
    unfold roll at rolled
    by_cases always : item.chance ≥ 100
    · exact Or.inl always
    · rw [if_neg always] at rolled
      have above := of_decide_eq_true rolled
      exact Or.inr (lt_of_le_of_lt (r.draws s.drawn).inRange.1 above)
  rw [Bool.not_true, if_neg Bool.false_ne_true]
  split
  · rename_i isRef
    split
    · rfl
    rename_i referenced found
    cases many : r.times item with
    | zero => rfl
    | succ n =>
      have can : r.CanFollow rate item := ⟨lootmode, many ▸ Nat.succ_pos n, chance⟩
      exact repeatProcess_isSome (deep isRef can referenced found) (n + 1) _
  · rfl

theorem process_group_isSome {lootMode : UInt16} {depth : Nat} {groupId : UInt8}
    (grouped : groupId ≠ 0) (s : LootFilling) :
    (r.process rate lootMode (depth + 1) t groupId s).isSome = true := by
  rw [process, if_pos grouped]
  split <;> rfl

def withDraws (r : LootRolls) (draws : Nat → LootDraw) : LootRolls := { r with draws := draws }

/-- **Where every chain of references ends, processing does**, whatever is rolled. -/
theorem process_of_acc (acc : Acc (r.Follows rate) t) : ∃ d, ∀ d' ≥ d, ∀ lootMode draws s,
      ((r.withDraws draws).process rate lootMode d' t 0 s).isSome = true := by
  refine @depth_of_acc t r.references (fun item => item.isRef = true ∧ r.CanFollow rate item)
    (fun d t g => ∀ lootMode draws s,
      ((r.withDraws draws).process rate lootMode d t g s).isSome = true) _
    (fun t item member grouped can t' found => ⟨item, member, can.1, grouped, found, can.2⟩)
    (fun d t g grouped _ _ s => process_group_isSome grouped s)
    (fun k t deep lootMode draws s => ?_) acc
  have turns : ∀ item ∈ t.entries, ∀ s, ((r.withDraws draws).processEntry
      ((r.withDraws draws).process rate lootMode k) rate lootMode item s).isSome = true := by
    intro item member s
    apply processEntry_isSome
    intro isRef can referenced found s
    exact deep item member ⟨isRef, can.lootmode, can.times, can.chance⟩ referenced found lootMode
      draws s
  obtain ⟨s', done⟩ := Option.isSome_iff_exists.mp (processEntries_isSome t.entries turns s)
  rw [process, if_neg (by simp), done]
  rfl

def lucky : Nat → LootDraw := fun _ => .lowest

/-- **Processing that ends with every roll a success has followed every chain to its end.** -/
theorem acc_of_process (depth : Nat) : ∀ {t : LootTemplate} {s : LootFilling},
    ((r.withDraws lucky).process rate 0xFFFF depth t 0 s).isSome = true →
      Acc (r.Follows rate) t := by
  induction depth with
  | zero =>
    intro t s ended
    cases ended
  | succ depth ih =>
    intro t s ended
    refine Acc.intro t fun t' follows => ?_
    obtain ⟨item, member, isRef, ungrouped, found, can⟩ := follows
    rw [process, if_neg (by simp)] at ended
    have loop : (processEntries ((r.withDraws lucky).processEntry
        ((r.withDraws lucky).process rate 0xFFFF depth) rate 0xFFFF) t.entries s).isSome = true := by
      cases done : processEntries ((r.withDraws lucky).processEntry
          ((r.withDraws lucky).process rate 0xFFFF depth) rate 0xFFFF) t.entries s with
      | none =>
        rw [done] at ended
        cases ended
      | some s' => rfl
    obtain ⟨s', turn⟩ := isSome_of_processEntries t.entries loop item member
    have matching : ¬ item.lootmode &&& 0xFFFF = 0 := by
      have same : item.lootmode &&& 0xFFFF = item.lootmode := UInt16.and_neg_one
      rw [same]
      exact can.lootmode
    have rolled : ((r.withDraws lucky).roll item rate s').1 = true := by
      unfold roll
      rcases can.chance with always | positive
      · rw [if_pos always]
      · split
        · rfl
        · exact decide_eq_true positive
    obtain ⟨n, many⟩ := Nat.exists_eq_succ_of_ne_zero (Nat.ne_of_gt can.times)
    have times : (r.withDraws lucky).times item = n + 1 := many
    have reference : (r.withDraws lucky).references item.refId = some t' := found
    unfold processEntry at turn
    rw [if_neg matching] at turn
    dsimp only at turn
    rw [rolled, Bool.not_true, if_neg Bool.false_ne_true, if_pos isRef, reference] at turn
    dsimp only at turn
    rw [times, ungrouped, repeatProcess] at turn
    cases once : (r.withDraws lucky).process rate 0xFFFF depth t' 0
        ((r.withDraws lucky).roll item rate s').2 with
    | none =>
      rw [once] at turn
      cases turn
    | some s'' =>
      apply ih (s := ((r.withDraws lucky).roll item rate s').2)
      rw [once]
      rfl

end LootRolls

/-- **Where a relation has finitely many sources, its chains end if none comes back to where
it has been.** -/
theorem acc_iff_no_cycle {α : Type*} {R : α → α → Prop} {S : Set α} (finite : S.Finite)
    (sources : ∀ {b a}, R b a → b ∈ S) {a : α} :
    Acc R a ↔ ∀ b, Relation.TransGen R b a → ¬ Relation.TransGen R b b := by
  constructor
  · intro acc b below
    have chain : Acc (Relation.TransGen R) b := acc.transGen.inv below
    clear below acc
    induction chain with
    | intro b _ ih => exact fun cycle => ih b cycle cycle
  · intro noCycle
    have few : Finite {b // b ∈ S ∧ Relation.TransGen R b a} :=
      (finite.subset fun b inside => inside.1 : {b | b ∈ S ∧ Relation.TransGen R b a}.Finite)
    have irrefl : Std.Irrefl (Subrel (Relation.TransGen R) fun b => b ∈ S ∧
        Relation.TransGen R b a) := ⟨fun b => noCycle b.1 b.2.2⟩
    have wf := Finite.wellFounded_of_trans_of_irrefl
      (Subrel (Relation.TransGen R) fun b => b ∈ S ∧ Relation.TransGen R b a)
    have each : ∀ b : {b // b ∈ S ∧ Relation.TransGen R b a}, Acc R b.1 := by
      intro b
      induction b using wf.induction with
      | _ b ih =>
        refine Acc.intro b.1 fun c step => ?_
        exact ih ⟨c, sources step, Relation.TransGen.head step b.2.2⟩ (.single step)
    exact Acc.intro a fun b step => each ⟨b, sources step, .single step⟩

namespace LootStore

theorem loadLootTable_cases (store : ItemStore) (rows : List LootRow) :
    ∀ {templates : LootTemplateMap} {id : UInt32},
      (loadLootTable store rows templates id).isSome = true →
        (templates id).isSome = true ∨ ∃ row ∈ rows, row.entry = id := by
  induction rows with
  | nil => exact fun present => Or.inl present
  | cons row rest ih =>
    intro templates id present
    rw [loadLootTable] at present
    split at present
    · exact Or.inl present
    split at present
    · rcases ih present with before | ⟨other, member, same⟩
      · by_cases here : id = row.entry
        · exact Or.inr ⟨row, mem_cons_self, here.symm⟩
        · rw [addRow, if_neg here] at before
          exact Or.inl before
      · exact Or.inr ⟨other, mem_cons_of_mem row member, same⟩
    · rcases ih present with before | ⟨other, member, same⟩
      · exact Or.inl before
      · exact Or.inr ⟨other, mem_cons_of_mem row member, same⟩

/-- The store that a table is loaded into. -/
def ofTable (store : ItemStore) (rows : List LootRow) : LootTemplateMap :=
  loadLootTable store rows fun _ => none

theorem finite_ofTable (store : ItemStore) (rows : List LootRow) :
    {t | ∃ id, ofTable store rows id = some t}.Finite := by
  have ids : {id | (ofTable store rows id).isSome = true}.Finite := by
    refine (finite_toSet (rows.map (·.entry))).subset fun id present => ?_
    rcases loadLootTable_cases store rows present with none | ⟨row, member, same⟩
    · cases none
    · exact List.mem_map.mpr ⟨row, member, same⟩
  refine (ids.image fun id => (ofTable store rows id).getD .empty).subset ?_
  rintro t ⟨id, found⟩
  refine ⟨id, Option.isSome_iff_exists.mpr ⟨t, found⟩, ?_⟩
  dsimp only
  rw [found]
  rfl

/-- The rows of a table, and those of the references, pass every check of loading. -/
structure Accepts (store : ItemStore) (rows references : List LootRow) : Prop where
  takesAll : TakesAll store rows ∧ TakesAll store references
  verify : ∀ id t, ofTable store rows id = some t ∨ ofTable store references id = some t →
    t.verify = true
  checkLootRefs : ∀ id t, ofTable store rows id = some t →
    t.checkLootRefs (ofTable store rows) (ofTable store references) = true
  checkReferences : ∀ id t, ofTable store references id = some t →
    t.checkLootRefs (ofTable store references) (ofTable store references) = true

end LootStore

namespace LootTemplate

/-- The calls for a template end, whatever the player's quests are and whatever is rolled. -/
structure Terminates (templates : LootTemplateMap) (r : LootRolls) (t : LootTemplate) : Prop where
  hasQuestDrop : ∀ groupId, ∃ depth, (t.hasQuestDrop templates depth groupId).isSome = true
  hasQuestDropForPlayer : ∀ hasQuestForItem groupId, ∃ depth,
    (t.hasQuestDropForPlayer templates hasQuestForItem depth groupId).isSome = true
  process : ∀ rate lootMode draws groupId s, ∃ depth,
    ((r.withDraws draws).process rate lootMode depth t groupId s).isSome = true

variable {templates : LootTemplateMap} {r : LootRolls} {t : LootTemplate}

theorem hasDrop_ends (acc : Acc (Refers templates) t) (isDrop : LootStoreEntry → Bool)
    (groupId : UInt8) : ∃ depth, (hasDrop templates isDrop depth t groupId).isSome = true := by
  by_cases grouped : groupId = 0
  · obtain ⟨d, deep⟩ := hasDrop_of_acc acc
    exact ⟨d, grouped ▸ deep d le_rfl isDrop⟩
  · exact ⟨1, hasDrop_group_isSome grouped⟩

theorem process_ends {rate : Bool} (acc : Acc (r.Follows rate) t) (lootMode : UInt16)
    (draws : Nat → LootDraw) (groupId : UInt8) (s : LootFilling) :
    ∃ depth, ((r.withDraws draws).process rate lootMode depth t groupId s).isSome = true := by
  by_cases grouped : groupId = 0
  · obtain ⟨d, deep⟩ := LootRolls.process_of_acc acc
    exact ⟨d, grouped ▸ deep d le_rfl lootMode draws s⟩
  · exact ⟨1, LootRolls.process_group_isSome grouped s⟩

theorem terminates_iff_acc : Terminates templates r t ↔
    Acc (Refers templates) t ∧ ∀ rate, Acc (r.Follows rate) t := by
  constructor
  · intro ends
    constructor
    · obtain ⟨depth, ended⟩ := ends.hasQuestDropForPlayer (fun _ => false) 0
      obtain ⟨b, result⟩ := Option.isSome_iff_exists.mp ended
      exact (acc_of_hasDrop depth result).2 rfl
    · intro rate
      obtain ⟨depth, ended⟩ := ends.process rate 0xFFFF LootRolls.lucky 0 ⟨.empty, 0, 0⟩
      exact LootRolls.acc_of_process depth ended
  · intro acc
    refine ⟨hasDrop_ends acc.1 _, fun hasQuestForItem => hasDrop_ends acc.1 _, ?_⟩
    intro rate
    exact process_ends (acc.2 rate)

end LootTemplate

namespace LootStore

open LootTemplate Relation

/-- The rolls of a world whose reference templates were loaded from a table. -/
def referring (r : LootRolls) (references : List LootRow) : LootRolls :=
  { r with references := ofTable r.store references }

/-- **The calls end for every template of a store just where no template of the store reaches
itself, and no reference template does that processing can come to.** -/
theorem terminates_iff_no_cycle (r : LootRolls) (rows references : List LootRow) :
    (∀ id t, ofTable r.store rows id = some t →
        t.Terminates (ofTable r.store rows) (referring r references)) ↔
      ∀ id t, ofTable r.store rows id = some t → ¬ TransGen (Refers (ofTable r.store rows)) t t ∧
          ∀ rate t', TransGen ((referring r references).Follows rate) t' t →
            ¬ TransGen ((referring r references).Follows rate) t' t' := by
  have refers : ∀ {t}, Acc (Refers (ofTable r.store rows)) t ↔
      ∀ t', TransGen (Refers (ofTable r.store rows)) t' t →
        ¬ TransGen (Refers (ofTable r.store rows)) t' t' := by
    apply acc_iff_no_cycle (finite_ofTable r.store rows)
    rintro t' t ⟨item, -, -, -, found⟩
    exact ⟨item.refId, found⟩
  have follows : ∀ rate {t}, Acc ((referring r references).Follows rate) t ↔
      ∀ t', TransGen ((referring r references).Follows rate) t' t →
        ¬ TransGen ((referring r references).Follows rate) t' t' := by
    intro rate
    apply acc_iff_no_cycle (finite_ofTable r.store references)
    rintro t' t ⟨item, -, -, -, found, -⟩
    exact ⟨item.refId, found⟩
  constructor
  · intro ends id t found
    obtain ⟨acc, accs⟩ := terminates_iff_acc.mp (ends id t found)
    refine ⟨fun cycle => ?_, fun rate => (follows rate).mp (accs rate)⟩
    exact refers.mp acc t cycle cycle
  · intro noCycle id t found
    refine terminates_iff_acc.mpr ⟨refers.mpr fun t' below => ?_, fun rate => ?_⟩
    · obtain ⟨id', found'⟩ : ∃ id', ofTable r.store rows id' = some t' := by
        rcases TransGen.head'_iff.mp below with ⟨_, ⟨item, -, -, -, source⟩, -⟩
        exact ⟨item.refId, source⟩
      exact (noCycle id' t' found').1
    · exact (follows rate).mpr ((noCycle id t found).2 rate)

/-- A table whose only row refers to the template it is in. -/
def ownReference : List LootRow := [⟨1, .ofRow 1 100 1 0 (-1) 1⟩]

def ownTemplate : LootTemplate := ⟨[.ofRow 1 100 1 0 (-1) 1], []⟩

/-- A world without items and with all rates 1. -/
def plainRolls : LootRolls where
  store := fun _ => none
  rateReferenced := 1
  rateReferencedAmount := 1
  rateQuality := fun _ => 1
  references := fun _ => none
  draws := LootRolls.lucky

theorem ofTable_ownReference : ofTable plainRolls.store ownReference =
    fun id => if id = 1 then some ownTemplate else none := by
  have valid : (LootStoreEntry.ofRow 1 100 1 0 (-1) 1).isValid plainRolls.store = true := by
    decide
  unfold ofTable ownReference
  rw [loadLootTable, if_neg (by decide), if_pos valid]
  rfl

theorem hasDrop_ownTemplate {isDrop : LootStoreEntry → Bool} (depth : Nat) :
    hasDrop (ofTable plainRolls.store ownReference) isDrop depth ownTemplate 0 = none := by
  induction depth with
  | zero => rfl
  | succ depth ih =>
    have turn : entryDrop (ofTable plainRolls.store ownReference) isDrop
        (hasDrop (ofTable plainRolls.store ownReference) isDrop depth)
        (.ofRow 1 100 1 0 (-1) 1) = none := by
      unfold entryDrop
      rw [if_pos (by decide), ofTable_ownReference]
      rw [ofTable_ownReference] at ih
      exact ih
    rw [hasDrop, if_neg (by decide)]
    unfold ownTemplate
    rw [anyEntry, turn]
    rfl

theorem process_ownTemplate {rate : Bool} (depth : Nat) : ∀ s : LootFilling,
    (referring plainRolls ownReference).process rate 1 depth ownTemplate 0 s = none := by
  induction depth with
  | zero => exact fun _ => rfl
  | succ depth ih =>
    intro s
    have once : (referring plainRolls ownReference).times (.ofRow 1 100 1 0 (-1) 1) = 1 := by
      decide +kernel
    have found : (referring plainRolls ownReference).references
        (LootStoreEntry.ofRow 1 100 1 0 (-1) 1).refId = some ownTemplate := by
      unfold referring
      rw [ofTable_ownReference]
      rfl
    have turn : (referring plainRolls ownReference).processEntry
        ((referring plainRolls ownReference).process rate 1 depth) rate 1
        (.ofRow 1 100 1 0 (-1) 1) s = none := by
      unfold LootRolls.processEntry LootRolls.roll
      rw [if_neg (by decide), if_pos (by decide)]
      dsimp only
      rw [if_neg (by decide), if_pos (by decide), found]
      dsimp only
      have ungrouped : (LootStoreEntry.ofRow 1 100 1 0 (-1) 1).group = 0 := rfl
      rw [once, ungrouped, LootRolls.repeatProcess, ih s]
      rfl
    rw [LootRolls.process, if_neg (by decide)]
    unfold ownTemplate
    rw [LootRolls.processEntries, turn]
    rfl

/-- Loading takes this table, for a store and for the references, and none of the calls
ends. -/
theorem ownReference_accepted_endless : Accepts plainRolls.store ownReference ownReference ∧
      ofTable plainRolls.store ownReference 1 = some ownTemplate ∧
      (¬ ∃ depth, (ownTemplate.hasQuestDrop (ofTable plainRolls.store ownReference) depth
        0).isSome = true) ∧
      (¬ ∃ depth, (ownTemplate.hasQuestDropForPlayer (ofTable plainRolls.store ownReference)
        (fun _ => false) depth 0).isSome = true) ∧
      ¬ ∃ depth, ((referring plainRolls ownReference).process true 1 depth ownTemplate 0
        ⟨.empty, 0, 0⟩).isSome = true := by
  have only : ∀ id t, ofTable plainRolls.store ownReference id = some t → t = ownTemplate := by
    intro id t found
    rw [ofTable_ownReference] at found
    dsimp only at found
    split at found
    · exact (Option.some.inj found).symm
    · cases found
  have checked : ownTemplate.checkLootRefs (ofTable plainRolls.store ownReference)
      (ofTable plainRolls.store ownReference) = true := by
    rw [ofTable_ownReference]
    decide
  refine ⟨⟨⟨by decide, by decide⟩, ?_, ?_, ?_⟩, ?_, ?_, ?_, ?_⟩
  · rintro id t (found | found)
    · exact only id t found ▸ rfl
    · exact only id t found ▸ rfl
  · intro id t found
    exact only id t found ▸ checked
  · intro id t found
    exact only id t found ▸ checked
  · rw [ofTable_ownReference]
    rfl
  · rintro ⟨depth, ended⟩
    rw [hasQuestDrop, hasDrop_ownTemplate] at ended
    cases ended
  · rintro ⟨depth, ended⟩
    rw [hasQuestDropForPlayer, hasDrop_ownTemplate] at ended
    cases ended
  · rintro ⟨depth, ended⟩
    rw [process_ownTemplate] at ended
    cases ended

end LootStore

end Sky548
