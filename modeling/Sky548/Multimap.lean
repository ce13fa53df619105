import Mathlib.Algebra.Order.Ring.Int
import Mathlib.Data.List.Basic

/-!
A `multimap`, as the list of its elements in the order of their keys.

What is inserted comes after the elements of its own key, before those of a
greater one (`insertBy`). That keeps the order and loses nothing, and where the
list falls in two parts it goes into the one that its key belongs to.

Nothing here mentions the game server.
-/

namespace Sky548

open List

variable {α : Type*} {key : α → Nat} {x : α} {xs ys : List α}

def insertBy (key : α → Nat) (x : α) : List α → List α
  | [] => [x]
  | y :: rest => if key y ≤ key x then y :: insertBy key x rest else x :: y :: rest

def SortedBy (key : α → Nat) (xs : List α) : Prop := xs.Pairwise fun a b => key a ≤ key b

theorem perm_insertBy (key : α → Nat) (x : α) (xs : List α) : (insertBy key x xs).Perm (x :: xs) := by
  induction xs with
  | nil => exact List.Perm.refl _
  | cons y rest ih =>
    rw [insertBy]
    split
    · exact (ih.cons y).trans (List.Perm.swap x y rest)
    · exact List.Perm.refl _

theorem sublist_insertBy (key : α → Nat) (x : α) (xs : List α) : xs.Sublist (insertBy key x xs) := by
  induction xs with
  | nil => exact nil_sublist _
  | cons y rest ih =>
    rw [insertBy]
    split
    · exact ih.cons_cons y
    · exact sublist_cons_self _ _

theorem sorted_insertBy (sorted : SortedBy key xs) : SortedBy key (insertBy key x xs) := by
  induction xs with
  | nil => exact pairwise_singleton _ x
  | cons y rest ih =>
    obtain ⟨first, later⟩ := List.pairwise_cons.mp sorted
    rw [insertBy]
    split
    · rename_i notLater
      refine List.pairwise_cons.mpr ⟨fun z member => ?_, ih later⟩
      rcases List.mem_cons.mp ((perm_insertBy key x rest).mem_iff.mp member) with rfl | inRest
      · exact notLater
      · exact first z inRest
    · rename_i isLater
      refine List.pairwise_cons.mpr ⟨fun z member => ?_, sorted⟩
      rcases List.mem_cons.mp member with rfl | inRest
      · exact Nat.le_of_not_le isLater
      · exact Nat.le_trans (Nat.le_of_not_le isLater) (first z inRest)

theorem insertBy_append_left (before : ∀ y ∈ ys, key x < key y) :
    insertBy key x (xs ++ ys) = insertBy key x xs ++ ys := by
  induction xs with
  | nil =>
    cases ys with
    | nil => rfl
    | cons y rest =>
      have isBefore := before y mem_cons_self
      exact if_neg (Nat.not_le.mpr isBefore)
  | cons y rest ih =>
    rw [cons_append, insertBy, insertBy]
    split
    · rw [ih, cons_append]
    · rfl

theorem insertBy_append_right (after : ∀ y ∈ xs, key y ≤ key x) :
    insertBy key x (xs ++ ys) = xs ++ insertBy key x ys := by
  induction xs with
  | nil => rfl
  | cons y rest ih =>
    rw [cons_append, insertBy, if_pos (after y mem_cons_self),
      ih fun z member => after z (mem_cons_of_mem _ member), cons_append]

theorem insertBy_cons_of_le {y : α} (notBefore : key y ≤ key x) :
    insertBy key x (y :: xs) = y :: insertBy key x xs := if_pos notBefore

theorem filter_insertBy_of_not {p : α → Bool} (isOther : p x = false) :
    (insertBy key x xs).filter p = xs.filter p := by
  induction xs with
  | nil => exact filter_cons_of_neg (by simp [isOther])
  | cons y rest ih =>
    rw [insertBy]
    split
    · rw [filter_cons, filter_cons, ih]
    · exact filter_cons_of_neg (by simp [isOther])

theorem filter_insertBy_of_none {p : α → Bool} (isOne : p x = true) (none : xs.filter p = []) :
    (insertBy key x xs).filter p = [x] := by
  induction xs with
  | nil => exact filter_cons_of_pos isOne
  | cons y rest ih =>
    rw [insertBy]
    split
    · rw [filter_cons] at none
      split at none
      · cases none
      · rename_i isOther
        rw [filter_cons_of_neg isOther, ih none]
    · rw [filter_cons_of_pos isOne, none]

theorem SortedBy.across (sorted : SortedBy key (xs ++ ys)) : ∀ a ∈ xs, ∀ b ∈ ys, key a ≤ key b :=
  (List.pairwise_append.mp sorted).2.2

end Sky548
