import Mathlib.Algebra.Order.Ring.Int
import Mathlib.Data.List.Nodup

/-!
Ids from a counter and a list of those given back.

A pool hands out the first id of its list, and the next of its counter when the list is empty; an id
that is given back takes the counter down if it is its last, and goes to the list otherwise.

`Owns` is what the pool relies on: the ids that are out are distinct, none of them is in the list,
and all lie below the bound that the counter stands for.

Nothing here mentions the game server.
-/

namespace Sky548

open List

structure IdPool where
  max : Nat
  free : List Nat
  deriving DecidableEq

namespace IdPool

variable {p : IdPool} {out : List Nat} {id : Nat}

def acquire (p : IdPool) : Nat × IdPool :=
  match p.free with
  | [] => ((p.max + 1) % 2 ^ 64, { p with max := (p.max + 1) % 2 ^ 64 })
  | id :: rest => (id, { p with free := rest })

def release (p : IdPool) (id : Nat) : IdPool :=
  if id = p.max then { p with max := (p.max + (2 ^ 64 - 1)) % 2 ^ 64 }
  else { p with free := p.free ++ [id] }

/-- The ids of the counter are below it; it is 0 when all of them have come back. -/
def bound (p : IdPool) : Nat := (p.max + 1) % 2 ^ 64

/-- That many ids can be handed out before the counter wraps around. -/
def Spare (p : IdPool) (count : Nat) : Prop := p.bound + (count - p.free.length) < 2 ^ 64

instance (p : IdPool) (count : Nat) : Decidable (p.Spare count) := inferInstanceAs (Decidable (_ < _))

/-- **The ids that are out**, and those that can be handed out again -/
structure Owns (p : IdPool) (out : List Nat) : Prop where
  nodup : (out ++ p.free).Nodup
  below : ∀ id ∈ out ++ p.free, id < p.bound

theorem Owns.nodup_out (owns : Owns p out) : out.Nodup := (List.nodup_append.mp owns.nodup).1

theorem Owns.perm {out' : List Nat} (owns : Owns p out) (perm : out.Perm out') : Owns p out' where
  nodup := (perm.append_right _).nodup_iff.mp owns.nodup
  below := fun id member => owns.below id ((perm.append_right _).mem_iff.mpr member)

theorem Owns.lose (owns : Owns p (id :: out)) : Owns p out where
  nodup := (List.nodup_cons.mp owns.nodup).2
  below := fun other member => owns.below other (mem_cons_of_mem _ member)

theorem Owns.acquire {count : Nat} (owns : Owns p out) (spare : Spare p (count + 1)) :
    p.acquire.1 ∉ out ∧ Owns p.acquire.2 (p.acquire.1 :: out) ∧ Spare p.acquire.2 count := by
  rw [Spare] at spare
  cases free : p.free with
  | nil =>
    have same : p.acquire = (p.bound, { p with max := p.bound }) := by
      rw [IdPool.acquire, free]
      rfl
    rw [free, length_nil] at spare
    have larger : ({ p with max := p.bound } : IdPool).bound = p.bound + 1 := by
      have noWrap : p.bound + 1 < 2 ^ 64 := by omega
      exact Nat.mod_eq_of_lt noWrap
    have isNew : p.bound ∉ out := fun member =>
      Nat.lt_irrefl _ (owns.below _ (mem_append_left _ member))
    rw [same]
    refine ⟨isNew, ⟨?_, fun id member => ?_⟩, ?_⟩
    · have nodup := owns.nodup
      change (p.bound :: out ++ p.free).Nodup
      rw [free, append_nil] at nodup ⊢
      exact List.nodup_cons.mpr ⟨isNew, nodup⟩
    · rw [larger]
      change id ∈ p.bound :: (out ++ p.free) at member
      rcases List.mem_cons.mp member with rfl | before
      · exact Nat.lt_succ_self _
      · exact Nat.lt_succ_of_lt (owns.below id before)
    · rw [Spare, larger]
      change _ + (count - p.free.length) < _
      rw [free, length_nil]
      omega
  | cons id rest =>
    have same : p.acquire = (id, { p with free := rest }) := by
      rw [IdPool.acquire, free]
    have perm : (out ++ p.free).Perm (id :: (out ++ rest)) := by
      rw [free]
      exact perm_middle
    have nodup := perm.nodup_iff.mp owns.nodup
    rw [same]
    refine ⟨fun member => ?_, ⟨nodup, fun other member => ?_⟩, ?_⟩
    · exact (List.nodup_cons.mp nodup).1 (mem_append_left _ member)
    · exact owns.below other (perm.mem_iff.mpr member)
    · rw [free, length_cons] at spare
      change p.bound + (count - rest.length) < _
      omega

theorem Owns.release (owns : Owns p (id :: out)) : Owns (p.release id) out := by
  have isBelow : id < p.bound := owns.below id mem_cons_self
  rw [IdPool.release]
  obtain ⟨absent, nodup⟩ := List.nodup_cons.mp owns.nodup
  split
  · rename_i isLast
    have lower : ({ p with max := (p.max + (2 ^ 64 - 1)) % 2 ^ 64 } : IdPool).bound + 1 = p.bound := by
      rw [bound] at isBelow ⊢
      rw [bound]
      dsimp only
      omega
    refine ⟨nodup, fun other member => ?_⟩
    have apart : other ≠ id := fun same => absent (same ▸ member)
    have before : other < p.bound := owns.below other (mem_cons_of_mem _ member)
    have isMax : p.max + 1 = p.bound := by
      rw [bound] at isBelow ⊢
      omega
    omega
  · have perm : (out ++ (p.free ++ [id])).Perm (id :: (out ++ p.free)) := by
      rw [← append_assoc]
      exact perm_append_singleton _ _
    exact ⟨perm.nodup_iff.mpr owns.nodup, fun other member => owns.below other (perm.mem_iff.mp member)⟩

theorem Owns.releaseAll (ids : List Nat) : ∀ {p : IdPool}, Owns p (ids ++ out) →
    Owns (ids.foldl IdPool.release p) out := by
  induction ids with
  | nil => exact fun owns => owns
  | cons id rest ih => exact fun owns => ih owns.release

end IdPool

end Sky548
