import Mathlib.Data.List.Infix

/-!
Words joined by a separator.

A key that is made of words, none of which has the separator in it, can be taken apart again
(`intercalate_inj`), and what has no separator in it is found in the key only inside of one of the
words (`infix_intercalate_iff`).

Nothing here mentions the game server.
-/

namespace Sky548.Words

open List

variable {α : Type*} {sep : α} {word : List α}

theorem intercalate_cons_cons (sep : α) (first second : List α) (rest : List (List α)) :
    [sep].intercalate (first :: second :: rest) = first ++ sep :: [sep].intercalate (second :: rest) := by
  simp [List.intercalate]

theorem intercalate_inj [DecidableEq α] {words words' : List (List α)}
    (apart : ∀ w ∈ words, sep ∉ w) (apart' : ∀ w ∈ words', sep ∉ w) (some : words ≠ [])
    (some' : words' ≠ []) (same : [sep].intercalate words = [sep].intercalate words') : words = words' := by
  rw [← splitOn_intercalate sep apart some, same, splitOn_intercalate sep apart' some']

theorem infix_append_cons_iff (apart : sep ∉ word) {left right : List α} :
    word <:+: left ++ sep :: right ↔ word <:+: left ∨ word <:+: right := by
  constructor
  · rintro ⟨before, after, same⟩
    rcases List.append_eq_append_iff.mp same with ⟨more, isLeft, -⟩ | ⟨more, isLeft, isRight⟩
    · exact Or.inl ⟨before, more, isLeft.symm⟩
    cases more with
    | nil =>
      rw [append_nil] at isLeft
      exact Or.inl ⟨before, [], by rw [append_nil, isLeft]⟩
    | cons head tail =>
      obtain ⟨rfl, rfl⟩ := List.cons.inj isRight
      rcases List.append_eq_append_iff.mp isLeft with ⟨part, -, isWord⟩ | ⟨part, -, isTail⟩
      · refine absurd ?_ apart
        rw [isWord]
        exact mem_append_right part mem_cons_self
      cases part with
      | nil =>
        refine absurd ?_ apart
        rw [nil_append] at isTail
        rw [← isTail]
        exact mem_cons_self
      | cons first part =>
        obtain ⟨-, rfl⟩ := List.cons.inj isTail
        exact Or.inr ⟨part, after, rfl⟩
  · rintro (isLeft | isRight)
    · exact isLeft.trans (prefix_append left _).isInfix
    · exact isRight.trans ⟨left ++ [sep], [], by simp⟩

theorem infix_intercalate_iff (apart : sep ∉ word) (some : word ≠ []) (words : List (List α)) :
    word <:+: [sep].intercalate words ↔ ∃ w ∈ words, word <:+: w := by
  induction words with
  | nil =>
    constructor
    · intro found
      exact absurd (List.infix_nil.mp found) some
    · rintro ⟨w, member, -⟩
      cases member
  | cons first rest ih =>
    cases rest with
    | nil => simp [List.intercalate]
    | cons second rest =>
      rw [intercalate_cons_cons, infix_append_cons_iff apart, ih]
      simp only [exists_mem_cons_iff]

end Sky548.Words
