import Mathlib.Algebra.Order.Ring.Int

/-!
# Taking from piles

So many pieces are taken from a row of piles: whole piles as long as what is taken is not too much,
then a part of one. The running total is a word, so that it can come back to less than it was.
`take` says what is left; it is what should be left exactly when no pile that is looked at brings
the true total to the size of a word (`sum_take_iff`).

Nothing here mentions the game server.
-/

namespace Sky548.Piles

open List

variable {size count : Nat}

/-- Whether counting the piles comes to so many, with what was counted before. -/
def reaches (size count : Nat) : Nat → List Nat → Bool
  | _, [] => false
  | total, pile :: rest =>
    if count ≤ (total + pile) % size then true else reaches size count ((total + pile) % size) rest

/-- What is left of the piles, with what was taken before. -/
def take (size count : Nat) : Nat → List Nat → List Nat
  | _, [] => []
  | taken, pile :: rest =>
    if (pile + taken) % size ≤ count then
      0 :: if count ≤ (taken + pile) % size then rest
        else take size count ((taken + pile) % size) rest
    else (pile + size - count + taken) % size :: rest

/-- No pile brings less than so many pieces to the size of a word. -/
def Contained (size count taken : Nat) (piles : List Nat) : Prop :=
  ∀ n, taken + (piles.take n).sum < count → taken + (piles.take (n + 1)).sum < size

theorem contained_nil (taken : Nat) (below : count ≤ size) : Contained size count taken [] := by
  intro n few
  rw [take_nil] at few ⊢
  exact Nat.lt_of_lt_of_le few below

theorem contained_cons_iff {taken pile : Nat} {rest : List Nat} (few : taken < count) :
    Contained size count taken (pile :: rest) ↔
      taken + pile < size ∧ Contained size count (taken + pile) rest := by
  constructor
  · intro contained
    refine ⟨by simpa using contained 0 (by simpa using few), fun n less => ?_⟩
    have next := contained (n + 1) (by simpa [Nat.add_assoc] using less)
    simpa [Nat.add_assoc] using next
  · rintro ⟨first, later⟩ n less
    cases n with
    | zero => simpa using first
    | succ n =>
      have next := later n (by simpa [Nat.add_assoc] using less)
      simpa [Nat.add_assoc] using next

variable {piles : List Nat}

theorem le_sum_of_reaches : ∀ {total : Nat}, reaches size count total piles = true →
    count ≤ total + piles.sum := by
  induction piles with
  | nil =>
    intro total isTrue
    cases isTrue
  | cons pile rest ih =>
    intro total isTrue
    have word := Nat.mod_le (total + pile) size
    rw [reaches] at isTrue
    rw [sum_cons]
    split at isTrue
    · omega
    · have later := ih isTrue
      omega

section

variable (small : ∀ pile ∈ piles, pile < size)

include small

theorem sum_take_le (below : count < size) :
    ∀ {taken : Nat}, taken ≤ count → (take size count taken piles).sum ≤ piles.sum := by
  induction piles with
  | nil => exact fun _ => Nat.le_refl _
  | cons pile rest ih =>
    intro taken few
    obtain ⟨one, others⟩ := List.forall_mem_cons.mp small
    rw [take, sum_cons]
    split
    · rename_i whole
      rw [sum_cons]
      split
      · omega
      · rename_i more
        have later := ih others (Nat.le_of_not_le more)
        omega
    · rename_i part
      have left : (pile + size - count + taken) % size ≤ pile := by
        by_cases word : pile + taken < size
        · rw [Nat.mod_eq_of_lt word] at part
          rw [show pile + size - count + taken = pile + taken - count + size by omega,
            Nat.add_mod_right, Nat.mod_eq_of_lt (by omega)]
          omega
        · rw [Nat.mod_eq_sub_mod (Nat.le_of_not_lt word), Nat.mod_eq_of_lt (by omega)] at part
          omega
      rw [sum_cons]
      omega

theorem sum_take_of_contained (below : count < size) :
    ∀ {taken : Nat}, taken < count → Contained size count taken piles →
      (take size count taken piles).sum + min (count - taken) piles.sum = piles.sum := by
  induction piles with
  | nil => simp [take]
  | cons pile rest ih =>
    intro taken few contained
    obtain ⟨one, others⟩ := List.forall_mem_cons.mp small
    obtain ⟨first, later⟩ := (contained_cons_iff few).mp contained
    rw [take, Nat.add_comm pile taken, Nat.mod_eq_of_lt first, sum_cons]
    split
    · rename_i whole
      rw [sum_cons]
      split
      · omega
      · rename_i more
        have sum := ih others (Nat.lt_of_not_le more) later
        omega
    · rename_i part
      rw [sum_cons, show pile + size - count + taken = pile + taken - count + size by omega,
        Nat.add_mod_right, Nat.mod_eq_of_lt (by omega)]
      omega

theorem sum_take_of_not_contained (below : count < size) :
    ∀ {taken : Nat}, taken < count → ¬ Contained size count taken piles →
      (take size count taken piles).sum + size ≤ taken + piles.sum := by
  induction piles with
  | nil => exact fun few wraps => absurd (contained_nil _ (Nat.le_of_lt below)) wraps
  | cons pile rest ih =>
    intro taken few wraps
    obtain ⟨one, others⟩ := List.forall_mem_cons.mp small
    rw [contained_cons_iff few] at wraps
    rw [take, Nat.add_comm pile taken, sum_cons]
    by_cases first : taken + pile < size
    · rw [Nat.mod_eq_of_lt first]
      have later : ¬ Contained size count (taken + pile) rest := fun later => wraps ⟨first, later⟩
      have more : taken + pile < count := by
        by_contra enough
        exact later fun n few => by omega
      rw [if_pos (Nat.le_of_lt more), if_neg (Nat.not_le_of_lt more), sum_cons]
      have sum := ih others more later
      omega
    · have word : (taken + pile) % size = taken + pile - size := by
        rw [Nat.mod_eq_sub_mod (Nat.le_of_not_lt first), Nat.mod_eq_of_lt (by omega)]
      rw [word, if_pos (by omega), if_neg (by omega), sum_cons]
      have rests := @sum_take_le size count rest others below (taken + pile - size) (by omega)
      omega

theorem take_zero : take size 0 0 piles = piles := by
  cases piles with
  | nil => rfl
  | cons pile rest =>
    have one := small pile mem_cons_self
    rw [take, Nat.add_zero, Nat.mod_eq_of_lt one]
    split
    · rename_i none
      rw [if_pos (Nat.zero_le _), Nat.le_zero.mp none]
    · rw [Nat.sub_zero, Nat.add_zero, Nat.add_mod_right, Nat.mod_eq_of_lt one]

theorem sum_take_iff (below : count < size) :
    (take size count 0 piles).sum + min count piles.sum = piles.sum ↔
      Contained size count 0 piles := by
  rcases Nat.eq_zero_or_pos count with rfl | some
  · rw [take_zero small, Nat.zero_min]
    exact ⟨fun _ n less => absurd less (Nat.not_lt_zero _), fun _ => rfl⟩
  constructor
  · intro taken
    by_contra wraps
    have less := sum_take_of_not_contained small below some wraps
    omega
  · intro contained
    have sum := sum_take_of_contained small below some contained
    rwa [Nat.sub_zero] at sum

end

theorem sum_take_le_sum (piles : List Nat) (n : Nat) : (piles.take n).sum ≤ piles.sum := by
  have parts := congrArg List.sum (take_append_drop n piles)
  rw [sum_append] at parts
  omega

theorem contained_of_sum_lt (less : piles.sum < size) : Contained size count 0 piles := by
  intro n few
  have part := sum_take_le_sum piles (n + 1)
  omega

end Sky548.Piles
