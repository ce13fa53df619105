import Mathlib.Algebra.BigOperators.Group.Finset.Basic
import Mathlib.Algebra.Order.Ring.Int

/-!
# Ledgers

What the members of a finite set have together, and what becomes of it when one of them has more or
less.

Nothing here mentions the game server.
-/

namespace Sky548

namespace Ledger

variable {α : Type*} {members : Finset α} {f g : α → Nat} {a : α}

def total (members : Finset α) (f : α → Nat) : Nat := ∑ p ∈ members, f p

theorem total_congr (same : ∀ p ∈ members, g p = f p) : total members g = total members f :=
  Finset.sum_congr rfl same

theorem total_add (f g : α → Nat) :
    total members (fun p => f p + g p) = total members f + total members g :=
  Finset.sum_add_distrib

/-- **The rule of entries**: the total changes by what one member has more or less. -/
theorem total_change (member : a ∈ members) (others : ∀ p, p ≠ a → g p = f p) :
    total members g + f a = total members f + g a := by
  classical
  have rest : ∑ p ∈ members.erase a, g p = ∑ p ∈ members.erase a, f p :=
    Finset.sum_congr rfl fun p other => others p (Finset.ne_of_mem_erase other)
  have before := Finset.add_sum_erase members f member
  have after := Finset.add_sum_erase members g member
  rw [total, total]
  omega

end Ledger

end Sky548
