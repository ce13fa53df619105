import Mathlib.Algebra.Order.Ring.Int
import Mathlib.Data.List.Nodup

/-!
# Unordered maps whose values carry their key

`KeyedList α key` is the content of a hash map from `key a` to `a`, listed in the container's
iteration order, which the standard leaves open: no two entries share a key, and nothing else is
promised. A lookup does not depend on the order (`find?_eq_some_iff`).

Nothing here mentions the game server.
-/

namespace Sky548

open List

/-- A finite map whose values carry their key, in iteration order. -/
structure KeyedList (α : Type*) {κ : Type*} (key : α → κ) where
  toList : List α
  nodup : (toList.map key).Nodup

namespace KeyedList

variable {α κ : Type*} {key : α → κ}

instance [DecidableEq α] : DecidableEq (KeyedList α key) := fun m n =>
  decidable_of_iff (m.toList = n.toList) (by
    cases m
    cases n
    simp)

instance : Membership α (KeyedList α key) := ⟨fun m a => a ∈ m.toList⟩

instance [DecidableEq α] (a : α) (m : KeyedList α key) : Decidable (a ∈ m) :=
  inferInstanceAs (Decidable (a ∈ m.toList))

variable {a : α}

theorem mem_toList {m : KeyedList α key} : a ∈ m.toList ↔ a ∈ m := Iff.rfl

instance decidableForallMem (m : KeyedList α key) (p : α → Prop) [DecidablePred p] :
    Decidable (∀ a ∈ m, p a) :=
  inferInstanceAs (Decidable (∀ a ∈ m.toList, p a))

instance decidableExistsMem (m : KeyedList α key) (p : α → Prop) [DecidablePred p] :
    Decidable (∃ a ∈ m, p a) :=
  inferInstanceAs (Decidable (∃ a ∈ m.toList, p a))

theorem eq_of_key_eq {m : KeyedList α key} {b : α} (ha : a ∈ m) (hb : b ∈ m) (same : key a = key b): a = b :=
  inj_on_of_nodup_map m.nodup ha hb same

def empty : KeyedList α key := ⟨[], nodup_nil⟩

@[simp] theorem not_mem_empty : ¬ a ∈ (empty : KeyedList α key) := by
  intro member
  cases member

def size (m : KeyedList α key) : Nat := m.toList.length

/-- Another iteration order of the same map. -/
def permute (m : KeyedList α key) (order : List α) (perm : order.Perm m.toList) : KeyedList α key :=
  ⟨order, (perm.map key).nodup_iff.mpr m.nodup⟩

@[simp] theorem mem_permute {m : KeyedList α key} {order : List α} {perm : order.Perm m.toList}: a ∈ m.permute order perm ↔ a ∈ m :=
  perm.mem_iff

/-- Change the values and leave the keys. -/
def update (m : KeyedList α key) (f : α → α) (keeps : ∀ a, key (f a) = key a) : KeyedList α key :=
  ⟨m.toList.map f, by
    have same : (m.toList.map f).map key = m.toList.map key := by
      rw [List.map_map]
      exact map_congr_left fun a _ => keeps a
    rw [same]
    exact m.nodup⟩

@[simp] theorem mem_update {m : KeyedList α key} {f : α → α}
    {keeps : ∀ a, key (f a) = key a} {b : α} :
    b ∈ m.update f keeps ↔ ∃ a ∈ m, f a = b :=
  List.mem_map

variable [DecidableEq κ]

def find? (m : KeyedList α key) (k : κ) : Option α :=
  m.toList.find? fun a => key a = k

def erase (m : KeyedList α key) (k : κ) : KeyedList α key :=
  ⟨m.toList.filter fun a => key a ≠ k, m.nodup.sublist (List.filter_sublist.map key)⟩

/-- `operator[]=`: store a value under its own key. -/
def insert (m : KeyedList α key) (a : α) : KeyedList α key :=
  ⟨a :: (m.erase (key a)).toList, by
    refine List.nodup_cons.mpr ⟨?_, (m.erase (key a)).nodup⟩
    simp [erase]⟩

@[simp] theorem mem_erase {m : KeyedList α key} {k : κ} :
    a ∈ m.erase k ↔ a ∈ m ∧ key a ≠ k := by
  rw [← mem_toList, ← mem_toList, erase, mem_filter, decide_eq_true_iff]

@[simp] theorem mem_insert {m : KeyedList α key} {b : α} :
    b ∈ m.insert a ↔ b = a ∨ (b ∈ m ∧ key b ≠ key a) := by
  rw [← mem_toList, insert, mem_cons, mem_toList, mem_erase]

theorem find?_eq_some_iff {m : KeyedList α key} {k : κ} :
    m.find? k = some a ↔ a ∈ m ∧ key a = k := by
  constructor
  · intro found
    exact ⟨mem_of_find?_eq_some found, by simpa using find?_some found⟩
  rintro ⟨member, rfl⟩
  cases found : m.find? (key a) with
  | none =>
    have absent := List.find?_eq_none.mp found a member
    simp at absent
  | some b =>
    have keyEq : key b = key a := by simpa using find?_some found
    rw [eq_of_key_eq (mem_of_find?_eq_some found) member keyEq]

theorem find?_eq_none_iff {m : KeyedList α key} {k : κ} :
    m.find? k = none ↔ ∀ a ∈ m, key a ≠ k := by
  rw [find?, find?_eq_none]
  simp [mem_toList]

theorem find?_of_mem {m : KeyedList α key} (member : a ∈ m) : m.find? (key a) = some a :=
  find?_eq_some_iff.mpr ⟨member, rfl⟩

theorem find?_erase (m : KeyedList α key) (k j : κ) :
    (m.erase k).find? j = if j = k then none else m.find? j := by
  split
  · rename_i same
    refine find?_eq_none_iff.mpr fun a member => ?_
    rw [same]
    exact (mem_erase.mp member).2
  · rename_i other
    cases found : m.find? j with
    | none =>
      refine find?_eq_none_iff.mpr fun a member => ?_
      exact find?_eq_none_iff.mp found a (mem_erase.mp member).1
    | some a =>
      obtain ⟨member, rfl⟩ := find?_eq_some_iff.mp found
      exact find?_of_mem (mem_erase.mpr ⟨member, other⟩)

theorem erase_of_absent {m : KeyedList α key} {k : κ} (absent : ∀ a ∈ m, key a ≠ k) :
    m.erase k = m := by
  have same : m.toList.filter (fun a => key a ≠ k) = m.toList :=
    List.filter_eq_self.mpr fun a member => decide_eq_true (absent a member)
  obtain ⟨entries, nodup⟩ := m
  simp only [erase, same]

theorem size_erase_lt {m : KeyedList α key} (member : a ∈ m) :
    (m.erase (key a)).size < m.size :=
  List.length_filter_lt_length_iff_exists.mpr ⟨a, member, by simp⟩

theorem find?_insert (m : KeyedList α key) (a : α) (j : κ) :
    (m.insert a).find? j = if j = key a then some a else m.find? j := by
  split
  · rename_i same
    rw [same]
    exact find?_of_mem (mem_insert.mpr (Or.inl rfl))
  rename_i other
  have erased := find?_erase m (key a) j
  rw [if_neg other] at erased
  rw [← erased, find?, insert, find?_cons_of_neg (by simpa using Ne.symm other)]
  rfl

theorem find?_foldl_erase (keys : List κ) (m : KeyedList α key) (j : κ) :
    (keys.foldl erase m).find? j = if j ∈ keys then none else m.find? j := by
  induction keys generalizing m with
  | nil => rw [foldl_nil, if_neg not_mem_nil]
  | cons k rest ih =>
    rw [foldl_cons, ih, find?_erase]
    by_cases later : j ∈ rest
    · rw [if_pos later, if_pos (mem_cons_of_mem k later)]
    rw [if_neg later]
    by_cases now : j = k
    · rw [if_pos now, if_pos (List.mem_cons.mpr (Or.inl now))]
    · rw [if_neg now, if_neg (by rw [mem_cons]; exact not_or.mpr ⟨now, later⟩)]

theorem find?_foldl_insert_ne_none (entries : List α) (m : KeyedList α key) (j : κ) :
    (entries.foldl insert m).find? j ≠ none ↔ j ∈ entries.map key ∨ m.find? j ≠ none := by
  induction entries generalizing m with
  | nil => simp
  | cons a rest ih =>
    rw [foldl_cons, ih, find?_insert, map_cons, mem_cons]
    by_cases now : j = key a
    · rw [if_pos now]
      simp [now]
    · rw [if_neg now]
      simp [now]

def sumBy (f : α → Nat) (m : KeyedList α key) : Nat := (m.toList.map f).sum

theorem sumBy_erase (f : α → Nat) (m : KeyedList α key) (k : κ) :
    sumBy f (m.erase k) + ((m.find? k).elim 0 f) = sumBy f m := by
  obtain ⟨entries, nodup⟩ := m
  change ((entries.filter fun a => key a ≠ k).map f).sum +
    (entries.find? fun a => key a = k).elim 0 f = (entries.map f).sum
  induction entries with
  | nil => rfl
  | cons a rest ih =>
    obtain ⟨apart, nodupRest⟩ := List.nodup_cons.mp nodup
    have ih := ih nodupRest
    by_cases same : key a = k
    · -- the key is not met again
      have others : rest.filter (fun b => key b ≠ k) = rest := by
        refine List.filter_eq_self.mpr fun b member => decide_eq_true fun again => apart ?_
        rw [same, ← again]
        exact List.mem_map_of_mem member
      rw [filter_cons_of_neg (by simpa using same), others,
        find?_cons_of_pos (by simpa using same), map_cons, sum_cons]
      exact Nat.add_comm _ _
    · rw [filter_cons_of_pos (by simpa using same),
        find?_cons_of_neg (by simpa using same), map_cons, map_cons,
        sum_cons, sum_cons, Nat.add_assoc, ih]

theorem sumBy_insert (f : α → Nat) (m : KeyedList α key) (a : α) :
    sumBy f (m.insert a) + ((m.find? (key a)).elim 0 f) = sumBy f m + f a := by
  have erased := sumBy_erase f m (key a)
  change (f a + sumBy f (m.erase (key a))) + _ = _
  omega

end KeyedList

end Sky548
