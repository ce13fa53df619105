import Mathlib.Algebra.Order.Ring.Int
import Mathlib.Data.List.Nodup

/-!
# Ordered maps

`OrdMap κ α` is an ordered map as a list of entries in strictly ascending key order: what an
iteration over the container meets, in that order. Besides lookup, insertion and erasure it offers
`countVal`, the number of entries whose value has a property.

Nothing here mentions the game server.
-/

namespace Sky548

open List

/-- A finite map whose entries are listed in ascending key order. -/
structure OrdMap (κ α : Type*) [LinearOrder κ] where
  toList : List (κ × α)
  sorted : toList.Pairwise fun a b => a.1 < b.1

namespace OrdMap

variable {κ α : Type*} [LinearOrder κ]

instance [DecidableEq α] : DecidableEq (OrdMap κ α) := fun m n =>
  decidable_of_iff (m.toList = n.toList) (by
    cases m
    cases n
    simp)

def empty : OrdMap κ α := ⟨[], List.Pairwise.nil⟩

instance : Inhabited (OrdMap κ α) := ⟨empty⟩

def size (m : OrdMap κ α) : Nat := m.toList.length

def keys (m : OrdMap κ α) : List κ := m.toList.map Prod.fst

instance : Membership (κ × α) (OrdMap κ α) := ⟨fun m e => e ∈ m.toList⟩

variable {m : OrdMap κ α}

theorem mem_toList {e : κ × α} : e ∈ m.toList ↔ e ∈ m := Iff.rfl

/-- `find`: the value stored under a key. -/
def find? (m : OrdMap κ α) (k : κ) : Option α :=
  (m.toList.find? fun e => e.1 = k).map Prod.snd

/-- The entries, with `(k, v)` put in its place. -/
def insertList (k : κ) (v : α) : List (κ × α) → List (κ × α)
  | [] => [(k, v)]
  | e :: rest =>
    if k < e.1 then (k, v) :: e :: rest
    else if k = e.1 then (k, v) :: rest
    else e :: insertList k v rest

def erase (m : OrdMap κ α) (k : κ) : OrdMap κ α :=
  ⟨m.toList.filter fun e => e.1 ≠ k, m.sorted.sublist filter_sublist⟩

variable {k : κ} {v : α}

theorem mem_insertList {l : List (κ × α)} {e : κ × α} (sorted : l.Pairwise fun a b => a.1 < b.1) :
    e ∈ insertList k v l ↔ e = (k, v) ∨ (e ∈ l ∧ e.1 ≠ k) := by
  induction l with
  | nil => simp [insertList]
  | cons head rest ih =>
    obtain ⟨above, sortedRest⟩ := List.pairwise_cons.mp sorted
    unfold insertList
    split
    · rename_i before
      have apart : ∀ d ∈ head :: rest, d.1 ≠ k := by
        intro d member
        rcases List.mem_cons.mp member with rfl | inRest
        · exact ne_of_gt before
        · exact ne_of_gt (lt_trans before (above d inRest))
      rw [mem_cons]
      exact or_congr_right ⟨fun member => ⟨member, apart e member⟩, And.left⟩
    · split
      · rename_i same
        subst same
        have apart : ∀ d ∈ rest, d.1 ≠ head.1 := fun d member => ne_of_gt (above d member)
        rw [mem_cons, mem_cons]
        constructor
        · rintro (now | later)
          · exact Or.inl now
          · exact Or.inr ⟨Or.inr later, apart e later⟩
        · rintro (now | ⟨isHead | later, other⟩)
          · exact Or.inl now
          · exact absurd (by rw [isHead]) other
          · exact Or.inr later
      · rename_i other
        rw [mem_cons, mem_cons, ih sortedRest]
        constructor
        · rintro (isHead | now | ⟨later, apart⟩)
          · exact Or.inr ⟨Or.inl isHead, by rw [isHead]; exact Ne.symm other⟩
          · exact Or.inl now
          · exact Or.inr ⟨Or.inr later, apart⟩
        · rintro (now | ⟨isHead | later, apart⟩)
          · exact Or.inr (Or.inl now)
          · exact Or.inl isHead
          · exact Or.inr (Or.inr ⟨later, apart⟩)

theorem sorted_insertList {l : List (κ × α)} (sorted : l.Pairwise fun a b => a.1 < b.1) :
    (insertList k v l).Pairwise fun a b => a.1 < b.1 := by
  induction l with
  | nil => simp [insertList]
  | cons head rest ih =>
    obtain ⟨above, sortedRest⟩ := List.pairwise_cons.mp sorted
    unfold insertList
    split
    · rename_i before
      refine List.pairwise_cons.mpr ⟨fun d member => ?_, sorted⟩
      rcases List.mem_cons.mp member with rfl | inRest
      · exact before
      · exact lt_trans before (above d inRest)
    · split
      · rename_i same
        subst same
        exact List.pairwise_cons.mpr ⟨above, sortedRest⟩
      rename_i notBefore other
      have after : head.1 < k := lt_of_le_of_ne (not_lt.mp notBefore) (Ne.symm other)
      refine List.pairwise_cons.mpr ⟨fun d member => ?_, ih sortedRest⟩
      rcases (mem_insertList sortedRest).mp member with rfl | ⟨inRest, -⟩
      · exact after
      · exact above d inRest

/-- `operator[]=`: store a value under a key. -/
def insert (m : OrdMap κ α) (k : κ) (v : α) : OrdMap κ α :=
  ⟨insertList k v m.toList, sorted_insertList m.sorted⟩

/-- A change through `operator[]`: a missing key is entered with a default first. -/
def modify (m : OrdMap κ α) (default : α) (k : κ) (f : α → α) : OrdMap κ α :=
  m.insert k (f ((m.find? k).getD default))

@[simp] theorem not_mem_empty {e : κ × α} : ¬ e ∈ (empty : OrdMap κ α) := by
  intro member
  cases member

@[simp] theorem mem_insert {e : κ × α} :
    e ∈ m.insert k v ↔ e = (k, v) ∨ (e ∈ m ∧ e.1 ≠ k) :=
  mem_insertList m.sorted

@[simp] theorem mem_erase {e : κ × α} :
    e ∈ m.erase k ↔ e ∈ m ∧ e.1 ≠ k := by
  rw [← mem_toList, ← mem_toList, erase, mem_filter, decide_eq_true_iff]

theorem nodup_keys (m : OrdMap κ α) : m.keys.Nodup :=
  List.pairwise_map.mpr (m.sorted.imp fun before => ne_of_lt before)

theorem eq_of_key_eq {e d : κ × α} (he : e ∈ m) (hd : d ∈ m) (same : e.1 = d.1) : e = d :=
  inj_on_of_nodup_map m.nodup_keys he hd same

theorem find?_eq_some_iff : m.find? k = some v ↔ (k, v) ∈ m := by
  unfold find?
  constructor
  · intro found
    obtain ⟨e, isEntry, rfl⟩ := Option.map_eq_some_iff.mp found
    have key : e.1 = k := by simpa using find?_some isEntry
    rw [← key]
    exact mem_of_find?_eq_some isEntry
  · intro member
    cases found : m.toList.find? (fun e => e.1 = k) with
    | none =>
      have absent := List.find?_eq_none.mp found (k, v) member
      simp at absent
    | some e =>
      have key : e.1 = k := by simpa using find?_some found
      have same := eq_of_key_eq (mem_of_find?_eq_some found) member key
      rw [same]
      rfl

theorem find?_eq_none_iff : m.find? k = none ↔ ∀ e ∈ m, e.1 ≠ k := by
  unfold find?
  rw [Option.map_eq_none_iff, find?_eq_none]
  simp [mem_toList]

theorem mem_keys_iff : k ∈ m.keys ↔ ∃ v, (k, v) ∈ m := by
  unfold keys
  rw [List.mem_map]
  constructor
  · intro ⟨e, member, isKey⟩
    exact ⟨e.2, isKey ▸ member⟩
  · intro ⟨v, member⟩
    exact ⟨(k, v), member, rfl⟩

section MapVal

variable {β : Type*} {f : κ → α → β} {m : OrdMap κ α}

def mapVal (f : κ → α → β) (m : OrdMap κ α) : OrdMap κ β :=
  ⟨m.toList.map fun e => (e.1, f e.1 e.2), List.pairwise_map.mpr m.sorted⟩

@[simp] theorem keys_mapVal (f : κ → α → β) (m : OrdMap κ α) : (m.mapVal f).keys = m.keys := by
  unfold keys mapVal
  rw [List.map_map]
  rfl

@[simp] theorem size_mapVal (f : κ → α → β) (m : OrdMap κ α) : (m.mapVal f).size = m.size :=
  length_map _

theorem mem_mapVal {k : κ} {w : β} : (k, w) ∈ m.mapVal f ↔ ∃ v, (k, v) ∈ m ∧ f k v = w := by
  change (k, w) ∈ m.toList.map _ ↔ _
  rw [List.mem_map]
  constructor
  · intro ⟨d, member, same⟩
    cases same
    exact ⟨d.2, member, rfl⟩
  · intro ⟨v, member, same⟩
    exact ⟨(k, v), member, by rw [same]⟩

end MapVal

def filterKeys (p : κ → Bool) (m : OrdMap κ α) : OrdMap κ α :=
  ⟨m.toList.filter fun e => p e.1, m.sorted.sublist filter_sublist⟩

@[simp] theorem mem_filterKeys {p : κ → Bool} {e : κ × α} :
    e ∈ m.filterKeys p ↔ e ∈ m ∧ p e.1 := by
  rw [← mem_toList, ← mem_toList, filterKeys, mem_filter]

variable {old : α}

theorem keys_insert_old (found : (k, old) ∈ m) : (m.insert k v).keys = m.keys := by
  have apart : ∀ n : OrdMap κ α, n.keys.Pairwise (· < ·) := fun n =>
    List.pairwise_map.mpr n.sorted
  refine Perm.eq_of_pairwise (fun a b _ _ before after => absurd before (lt_asymm after))
    (apart _) (apart m) ?_
  refine (perm_ext_iff_of_nodup (nodup_keys _) m.nodup_keys).mpr fun key => ?_
  rw [mem_keys_iff, mem_keys_iff]
  constructor
  · intro ⟨w, member⟩
    rcases mem_insert.mp member with isNew | ⟨isOld, -⟩
    · cases isNew
      exact ⟨old, found⟩
    · exact ⟨w, isOld⟩
  · intro ⟨w, member⟩
    by_cases same : key = k
    · exact ⟨v, mem_insert.mpr (Or.inl (by rw [same]))⟩
    · exact ⟨w, mem_insert.mpr (Or.inr ⟨member, same⟩)⟩

theorem ext_mem {n : OrdMap κ α} (same : ∀ e, e ∈ m ↔ e ∈ n) : m = n := by
  have nodup : ∀ l : OrdMap κ α, l.toList.Nodup := fun l => Nodup.of_map Prod.fst l.nodup_keys
  have perm : m.toList.Perm n.toList := (perm_ext_iff_of_nodup (nodup m) (nodup n)).mpr same
  have lists := perm.eq_of_pairwise (fun a b _ _ before after => absurd before (lt_asymm after))
    m.sorted n.sorted
  cases m
  cases n
  simp only at lists
  subst lists
  rfl

theorem insert_insert_old (found : (k, old) ∈ m) : (m.insert k v).insert k old = m := by
  apply ext_mem
  intro e
  rw [mem_insert, mem_insert]
  constructor
  · rintro (rfl | ⟨rfl | ⟨isOld, -⟩, apart⟩)
    · exact found
    · exact absurd rfl apart
    · exact isOld
  · intro member
    by_cases isKey : e.1 = k
    · exact Or.inl (eq_of_key_eq member found isKey)
    · exact Or.inr ⟨Or.inr ⟨member, isKey⟩, isKey⟩

theorem find?_ext {β : Type*} {n : OrdMap κ β} {j : κ} {f : β → α}
    (same : ∀ v, (k, v) ∈ m ↔ ∃ w, (j, w) ∈ n ∧ f w = v) : m.find? k = (n.find? j).map f := by
  cases found : m.find? k with
  | some v =>
    obtain ⟨w, member, rfl⟩ := (same v).mp (find?_eq_some_iff.mp found)
    rw [find?_eq_some_iff.mpr member]
    rfl
  | none =>
    rcases found' : n.find? j with _ | w
    · rfl
    have member := (same (f w)).mpr ⟨w, find?_eq_some_iff.mp found', rfl⟩
    rw [find?_eq_some_iff.mpr member] at found
    cases found

theorem find?_insert (m : OrdMap κ α) (k k' : κ) (v : α) :
    (m.insert k v).find? k' = if k' = k then some v else m.find? k' := by
  split
  · rename_i isKey
    exact find?_eq_some_iff.mpr (mem_insert.mpr (Or.inl (by rw [isKey])))
  rename_i notKey
  rw [find?_ext (f := id) (n := m) (j := k') fun w => ?_, Option.map_id]
  · rfl
  · rw [mem_insert]
    constructor
    · rintro (isNew | ⟨isOld, -⟩)
      · exact absurd (congrArg Prod.fst isNew) notKey
      · exact ⟨w, isOld, rfl⟩
    · rintro ⟨w', isOld, rfl⟩
      exact Or.inr ⟨isOld, notKey⟩

theorem find?_erase (m : OrdMap κ α) (k k' : κ) :
    (m.erase k).find? k' = if k' = k then none else m.find? k' := by
  split
  · rename_i isKey
    apply find?_eq_none_iff.mpr
    intro e member same
    exact (mem_erase.mp member).2 (same.trans isKey)
  · rename_i notKey
    rw [find?_ext (f := id) (n := m) (j := k') fun w => ?_, Option.map_id]
    · rfl
    · rw [mem_erase]
      constructor
      · rintro ⟨isOld, -⟩
        exact ⟨w, isOld, rfl⟩
      · rintro ⟨w', isOld, rfl⟩
        exact ⟨isOld, notKey⟩

theorem find?_modify (m : OrdMap κ α) (default : α) (k k' : κ) (f : α → α) :
    (m.modify default k f).find? k' =
      if k' = k then some (f ((m.find? k).getD default)) else m.find? k' :=
  find?_insert m k k' _

theorem find?_mapVal {β : Type*} (f : κ → α → β) (m : OrdMap κ α) (k : κ) :
    (m.mapVal f).find? k = (m.find? k).map (f k) :=
  find?_ext fun _ => mem_mapVal

theorem find?_filterKeys (p : κ → Bool) (m : OrdMap κ α) (k : κ) :
    (m.filterKeys p).find? k = if p k then m.find? k else none := by
  split
  · rename_i isKept
    rw [find?_ext (f := id) (n := m) (j := k) fun v => ?_, Option.map_id]
    · rfl
    · rw [mem_filterKeys]
      exact ⟨fun both => ⟨v, both.1, rfl⟩, fun ⟨_, isOld, same⟩ => ⟨same ▸ isOld, isKept⟩⟩
  · rename_i notKept
    rw [find?_eq_none_iff]
    intro e member isKey
    obtain ⟨-, isKept⟩ := mem_filterKeys.mp member
    rw [isKey] at isKept
    exact notKept isKept

def sumVal (f : α → Nat) (m : OrdMap κ α) : Nat := (m.toList.map fun e => f e.2).sum

theorem sumVal_insert_new {f : α → Nat} (new : m.find? k = none) :
    (m.insert k v).sumVal f = m.sumVal f + f v := by
  have absent := find?_eq_none_iff.mp new
  have general : ∀ l : List (κ × α), (∀ e ∈ l, e.1 ≠ k) →
      ((insertList k v l).map fun e => f e.2).sum = (l.map fun e => f e.2).sum + f v := by
    intro l
    induction l with
    | nil =>
      intro _
      simp [insertList]
    | cons head rest ih =>
      intro apart
      unfold insertList
      split
      · rw [map_cons, sum_cons, Nat.add_comm]
      rw [if_neg fun same => apart head mem_cons_self same.symm, map_cons,
        sum_cons, ih fun e member => apart e (mem_cons_of_mem _ member),
        map_cons, sum_cons]
      omega
  exact general m.toList absent

theorem sumVal_insert_old {f : α → Nat} (found : m.find? k = some old) :
    (m.insert k v).sumVal f + f old = m.sumVal f + f v := by
  have stored := find?_eq_some_iff.mp found
  have general : ∀ l : List (κ × α), l.Pairwise (fun a b => a.1 < b.1) → (k, old) ∈ l →
      ((insertList k v l).map fun e => f e.2).sum + f old = (l.map fun e => f e.2).sum + f v := by
    intro l
    induction l with
    | nil =>
      intro _ impossible
      cases impossible
    | cons head rest ih =>
      intro sorted member
      obtain ⟨above, sortedRest⟩ := List.pairwise_cons.mp sorted
      unfold insertList
      rcases List.mem_cons.mp member with isHead | inRest
      · subst isHead
        rw [if_neg (lt_irrefl k), if_pos rfl, map_cons, map_cons, sum_cons, sum_cons]
        dsimp only
        omega
      · have after := above _ inRest
        rw [if_neg (not_lt.mpr (le_of_lt after)), if_neg (ne_of_gt after), map_cons,
          map_cons, sum_cons, sum_cons]
        have := ih sortedRest inRest
        omega
  exact general m.toList m.sorted stored

theorem sumVal_erase {f : α → Nat} (found : m.find? k = some old) :
    (m.erase k).sumVal f + f old = m.sumVal f := by
  have stored := find?_eq_some_iff.mp found
  have general : ∀ l : List (κ × α), l.Pairwise (fun a b => a.1 < b.1) → (k, old) ∈ l →
      ((l.filter fun e => e.1 ≠ k).map fun e => f e.2).sum + f old =
        (l.map fun e => f e.2).sum := by
    intro l
    induction l with
    | nil =>
      intro _ impossible
      cases impossible
    | cons head rest ih =>
      intro sorted member
      obtain ⟨above, sortedRest⟩ := List.pairwise_cons.mp sorted
      rcases List.mem_cons.mp member with isHead | inRest
      · subst isHead
        have apart : ∀ e ∈ rest, decide (e.1 ≠ k) = true := fun e member =>
          decide_eq_true (ne_of_gt (above e member))
        rw [filter_cons_of_neg (by simp), List.filter_eq_self.mpr apart, map_cons,
          sum_cons, Nat.add_comm]
      · have after := above _ inRest
        rw [filter_cons_of_pos (by simpa using ne_of_lt after), map_cons,
          map_cons, sum_cons, sum_cons, ← ih sortedRest inRest]
        omega
  exact general m.toList m.sorted stored

theorem sumVal_pos_iff {f : α → Nat} : 0 < m.sumVal f ↔ ∃ e ∈ m, 0 < f e.2 := by
  unfold sumVal
  rw [List.sum_pos_iff_exists_pos_nat]
  constructor
  · intro ⟨n, member, pos⟩
    obtain ⟨e, isEntry, rfl⟩ := List.mem_map.mp member
    exact ⟨e, isEntry, pos⟩
  · intro ⟨e, isEntry, pos⟩
    exact ⟨f e.2, List.mem_map.mpr ⟨e, isEntry, rfl⟩, pos⟩

/-- The number of entries whose value has a property. -/
def countVal (p : α → Bool) (m : OrdMap κ α) : Nat := m.toList.countP fun e => p e.2

theorem countVal_le_size (p : α → Bool) (m : OrdMap κ α) : m.countVal p ≤ m.size :=
  countP_le_length

theorem countVal_pos_iff {p : α → Bool} : 0 < m.countVal p ↔ ∃ e ∈ m, p e.2 := by
  rw [countVal, countP_pos_iff]
  rfl

theorem countVal_eq_size_iff {p : α → Bool} : m.countVal p = m.size ↔ ∀ e ∈ m, p e.2 := by
  rw [countVal, size, countP_eq_length]
  rfl

theorem countVal_le_of_imp {p q : α → Bool} {n : OrdMap κ α}
    (imp : ∀ k v, (k, v) ∈ m → p v → ∃ w, (k, w) ∈ n ∧ q w) : m.countVal p ≤ n.countVal q := by
  have nodup : ((m.toList.filter fun e => p e.2).map Prod.fst).Nodup :=
    (nodup_keys m).sublist (List.filter_sublist.map Prod.fst)
  have subset : (m.toList.filter fun e => p e.2).map Prod.fst ⊆
      (n.toList.filter fun e => q e.2).map Prod.fst := by
    intro k isKey
    obtain ⟨e, member, rfl⟩ := List.mem_map.mp isKey
    obtain ⟨inM, isP⟩ := List.mem_filter.mp member
    obtain ⟨w, inN, isQ⟩ := imp e.1 e.2 inM isP
    exact List.mem_map.mpr ⟨(e.1, w), List.mem_filter.mpr ⟨inN, isQ⟩, rfl⟩
  have le := Nodup.length_le_of_subset nodup subset
  rw [length_map, length_map, ← countP_eq_length_filter, ← countP_eq_length_filter] at le
  exact le

theorem countVal_add_countVal {p q r : α → Bool}
    (split : ∀ v, (r v = (p v || q v)) ∧ ¬ (p v ∧ q v)) :
    
    m.countVal p + m.countVal q = m.countVal r := by
  unfold countVal
  induction m.toList with
  | nil => rfl
  | cons e rest ih =>
    obtain ⟨cover, apart⟩ := split e.2
    simp only [countP_cons, cover]
    cases hp : p e.2 with
    | true =>
      cases hq : q e.2 with
      | true => exact absurd ⟨hp, hq⟩ apart
      | false => simp; omega
    | false =>
      cases hq : q e.2 with
      | true => simp; omega
      | false => simp; omega

theorem size_eq_countVal (m : OrdMap κ α) : m.size = m.countVal fun _ => true := by
  simp [size, countVal]

theorem countVal_eq_sumVal (p : α → Bool) (m : OrdMap κ α) :
    m.countVal p = m.sumVal fun v => if p v then 1 else 0 := by
  unfold countVal sumVal
  induction m.toList with
  | nil => rfl
  | cons e rest ih =>
    rw [countP_cons, ih, map_cons, sum_cons, Nat.add_comm]

theorem countVal_insert_new {p : α → Bool} (new : m.find? k = none) :
    (m.insert k v).countVal p = m.countVal p + if p v then 1 else 0 := by
  rw [countVal_eq_sumVal, sumVal_insert_new new, countVal_eq_sumVal]

theorem countVal_insert_old {p : α → Bool} (found : m.find? k = some old) :
    (m.insert k v).countVal p + (if p old then 1 else 0) = m.countVal p + if p v then 1 else 0 := by
  rw [countVal_eq_sumVal, countVal_eq_sumVal]
  exact sumVal_insert_old found

theorem countVal_erase {p : α → Bool} (found : m.find? k = some old) :
    (m.erase k).countVal p + (if p old then 1 else 0) = m.countVal p := by
  rw [countVal_eq_sumVal, countVal_eq_sumVal]
  exact sumVal_erase found

theorem size_insert_new (new : m.find? k = none) : (m.insert k v).size = m.size + 1 := by
  rw [size_eq_countVal, countVal_insert_new new, size_eq_countVal, if_pos rfl]

theorem size_insert_old (found : m.find? k = some old) : (m.insert k v).size = m.size := by
  have both : (m.insert k v).countVal (fun _ => true) + 1 = m.countVal (fun _ => true) + 1 :=
    countVal_insert_old found
  rw [size_eq_countVal, size_eq_countVal]
  omega

theorem size_erase (found : m.find? k = some old) : (m.erase k).size + 1 = m.size := by
  rw [size_eq_countVal, size_eq_countVal]
  exact countVal_erase found

section First

variable {κ α : Type*} [LinearOrder κ] {m : OrdMap κ α} {k : κ} {v : α} {f : κ × α → Bool}

theorem first_insertList_of_not {l : List (κ × α)} (other : ∀ w, f (k, w) = false) :
    (insertList k v l).find? f = l.find? f := by
  induction l with
  | nil => exact find?_cons_of_neg (ne_true_of_eq_false (other v))
  | cons head rest ih =>
    rw [insertList]
    split
    · exact find?_cons_of_neg (ne_true_of_eq_false (other v))
    split
    · rename_i same
      have skipped : f head = false := by
        have sameKind := other head.2
        rw [same] at sameKind
        exact sameKind
      rw [find?_cons_of_neg (ne_true_of_eq_false (other v)),
        find?_cons_of_neg (ne_true_of_eq_false skipped)]
    · rw [find?_cons, find?_cons, ih]

theorem first_insert_of_not (other : ∀ w, f (k, w) = false) :
    (m.insert k v).toList.find? f = m.toList.find? f :=
  first_insertList_of_not other

theorem first_insert (isKind : f (k, v) = true) (none : m.toList.find? f = none) :
    (m.insert k v).toList.find? f = some (k, v) := by
  have unkind : ∀ e ∈ m, f e ≠ true := List.find?_eq_none.mp none
  rcases found : (m.insert k v).toList.find? f with _ | e
  · exact absurd isKind (List.find?_eq_none.mp found (k, v) (mem_insert.mpr (Or.inl rfl)))
  have member : e ∈ m.insert k v := mem_of_find?_eq_some found
  rcases mem_insert.mp member with rfl | ⟨before, -⟩
  · rfl
  · exact absurd (find?_some found) (unkind e before)

theorem first_erase_of_not (other : ∀ w, f (k, w) = false) :
    (m.erase k).toList.find? f = m.toList.find? f := by
  rw [erase, find?_filter]
  congr 1
  funext e
  by_cases same : e.1 = k
  · have skipped := other e.2
    rw [← same] at skipped
    simp [same, skipped]
  · simp [same]

end First

end OrdMap

end Sky548
