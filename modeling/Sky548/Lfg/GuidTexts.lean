import Sky548.Lfg.Queue
import Sky548.Words

/-!
# The texts of GUID sets

A key of the cache names the GUIDs it is about, in ascending order and without repetition: it can be read
back (`mem_of_concatenateGuids`).
-/

namespace Sky548

theorem guidText_inj {guid guid' : UInt64} (same : guidText guid = guidText guid') : guid = guid' := by
  have numbers := congrArg (fun text => Nat.ofDigitChars 10 text 0) same
  simp only [guidText, Nat.ofDigitChars_ten_toDigits] at numbers
  exact UInt64.toNat_inj.mp numbers

theorem bar_not_mem_guidText (guid : UInt64) : '|' ∉ guidText guid := by
  intro member
  have isDigit : Char.isDigit '|' = true :=
    Nat.isDigit_of_mem_toDigits (Nat.succ_pos 9) (Nat.le_refl 10) member
  revert isDigit
  decide

theorem guidText_ne_nil (guid : UInt64) : guidText guid ≠ [] := Nat.toDigits_ne_nil

variable {check : List UInt64}

theorem mem_guidSet {guid : UInt64} : guid ∈ (guidSet check).keys ↔ guid ∈ check := by
  have general : ∀ (check : List UInt64) (guids : OrdMap UInt64 Unit),
      guid ∈ (check.foldl (fun guids guid => guids.insert guid ()) guids).keys ↔
        guid ∈ guids.keys ∨ guid ∈ check := by
    intro check
    induction check with
    | nil => simp
    | cons first rest ih =>
      intro guids
      rw [List.foldl_cons, ih, OrdMap.mem_keys_iff, OrdMap.mem_keys_iff, List.mem_cons]
      simp only [OrdMap.mem_insert, Prod.mk.injEq]
      constructor
      · rintro (⟨_, ⟨isFirst, -⟩ | ⟨isOld, -⟩⟩ | later)
        · exact Or.inr (Or.inl isFirst)
        · exact Or.inl ⟨_, isOld⟩
        · exact Or.inr (Or.inr later)
      · rintro (⟨_, isOld⟩ | rfl | later)
        · by_cases isFirst : guid = first
          · exact Or.inl ⟨(), Or.inl ⟨isFirst, trivial⟩⟩
          · exact Or.inl ⟨_, Or.inr ⟨isOld, isFirst⟩⟩
        · exact Or.inl ⟨(), Or.inl ⟨rfl, trivial⟩⟩
        · exact Or.inr later
  rw [guidSet, general]
  exact or_iff_right (by simp [OrdMap.keys, OrdMap.empty])

/-- The words that a key is made of -/
def wordsOf (check : List UInt64) : List (List Char) := (guidSet check).keys.map guidText

theorem mem_wordsOf {guid : UInt64} :
    guidText guid ∈ wordsOf check ↔ guid ∈ check := by
  rw [wordsOf, List.mem_map_of_injective fun _ _ => guidText_inj, mem_guidSet]

theorem bar_not_mem_wordsOf (check : List UInt64) : ∀ word ∈ wordsOf check, '|' ∉ word := by
  intro word member
  obtain ⟨guid, -, rfl⟩ := List.mem_map.mp member
  exact bar_not_mem_guidText guid

theorem wordsOf_ne_nil (some : check ≠ []) : wordsOf check ≠ [] := by
  obtain ⟨guid, member⟩ := List.exists_mem_of_ne_nil check some
  exact List.ne_nil_of_mem (mem_wordsOf.mpr member)

theorem mem_of_concatenateGuids {check' : List UInt64} (some : check ≠ []) (some' : check' ≠ [])
    (same : concatenateGuids check = concatenateGuids check') (guid : UInt64) :
    guid ∈ check ↔ guid ∈ check' := by
  have words : wordsOf check = wordsOf check' :=
    Words.intercalate_inj (bar_not_mem_wordsOf check) (bar_not_mem_wordsOf check') (wordsOf_ne_nil some)
      (wordsOf_ne_nil some') same
  rw [← mem_wordsOf, words, mem_wordsOf]

end Sky548
