import Mathlib.Data.List.Nodup

/-!
Filling up from a list, first come first served.

A search that takes the next entry whenever what is taken so far stays open with
it, and never gives one back, fills up (`fillUp`) exactly if there is a choice that
passes over no entry that fits (`FirstFit`). That is less than that there is a
choice that is full.

Nothing here mentions the game server.
-/

namespace Sky548

open List

/-- What can be said of a choice: it is full, there is room in it, or it does not fit together. -/
inductive Fill
  | full
  | room
  | unfit
  deriving DecidableEq, Repr

variable {α : Type*} [DecidableEq α] (fill : List α → Fill)

/-- Take what fits from the list, until it is full. -/
def fillUp : (taken list : List α) → Bool
  | _, [] => false
  | taken, next :: rest =>
    match fill (taken ++ [next]) with
    | .full => true
    | .room => fillUp (taken ++ [next]) rest
    | .unfit => fillUp taken rest

/-- **A choice that passes over nothing that fits**: it is full, each part of it had room, and an
entry before its last one that is not chosen does not fit to those chosen before it. -/
structure FirstFit (taken list chosen : List α) : Prop where
  sublist : chosen.Sublist list
  full : fill (taken ++ chosen) = .full
  room : ∀ part, part <+: chosen → part ≠ chosen → fill (taken ++ part) = .room
  passed : ∀ before entry after, list = before ++ entry :: after → entry ∉ chosen →
    (∃ later ∈ chosen, later ∈ after) →
    fill (taken ++ chosen.filter (· ∈ before) ++ [entry]) = .unfit

variable {fill} {taken rest chosen : List α} {next : α}

theorem filter_mem_cons_of_not_mem (notIn : next ∉ chosen) (before : List α) :
    chosen.filter (· ∈ next :: before) = chosen.filter (· ∈ before) := by
  apply filter_congr
  intro entry member
  have apart : entry ≠ next := fun same => notIn (same ▸ member)
  simp [apart]

theorem FirstFit.take (later : FirstFit fill (taken ++ [next]) rest chosen)
    (hasRoom : fill taken = .room) (nodup : (next :: rest).Nodup) :
    FirstFit fill taken (next :: rest) (next :: chosen) := by
  have notIn : next ∉ chosen := fun member =>
    (List.nodup_cons.mp nodup).1 (later.sublist.subset member)
  refine ⟨later.sublist.cons_cons next, ?_, ?_, ?_⟩
  · have full := later.full
    rwa [append_assoc] at full
  · intro part isPrefix isPart
    cases part with
    | nil => rwa [append_nil]
    | cons head part =>
      obtain ⟨rfl, shorter⟩ := List.cons_prefix_cons.mp isPrefix
      have room := later.room part shorter fun same => isPart (by rw [same])
      rwa [append_assoc] at room
  · intro before entry after isList notChosen isLater
    cases before with
    | nil =>
      obtain ⟨rfl, -⟩ := List.cons.inj isList
      exact absurd mem_cons_self notChosen
    | cons head before =>
      obtain ⟨rfl, isRest⟩ := List.cons.inj isList
      have notIn' : entry ∉ chosen := fun member => notChosen (mem_cons_of_mem _ member)
      obtain ⟨last, isLast, inAfter⟩ := isLater
      have notNext : last ≠ next := by
        rintro rfl
        refine (List.nodup_cons.mp nodup).1 ?_
        rw [isRest]
        exact mem_append_right _ (mem_cons_of_mem _ inAfter)
      have isLast' := (List.mem_cons.mp isLast).resolve_left notNext
      have passed := later.passed before entry after isRest notIn' ⟨last, isLast', inAfter⟩
      rw [filter_cons_of_pos (by simp), filter_mem_cons_of_not_mem notIn]
      simpa only [append_assoc, cons_append, nil_append] using passed

theorem FirstFit.pass (later : FirstFit fill taken rest chosen) (isUnfit : fill (taken ++ [next]) = .unfit)
    (nodup : (next :: rest).Nodup) : FirstFit fill taken (next :: rest) chosen := by
  have notIn : next ∉ chosen := fun member =>
    (List.nodup_cons.mp nodup).1 (later.sublist.subset member)
  refine ⟨later.sublist.cons next, later.full, later.room, ?_⟩
  intro before entry after isList notChosen isLater
  cases before with
  | nil =>
    obtain ⟨rfl, -⟩ := List.cons.inj isList
    simpa using isUnfit
  | cons head before =>
    obtain ⟨rfl, isRest⟩ := List.cons.inj isList
    rw [filter_mem_cons_of_not_mem notIn]
    exact later.passed before entry after isRest notChosen isLater

omit [DecidableEq α] in
theorem sublist_of_not_mem (sublist : chosen.Sublist (next :: rest)) (notIn : next ∉ chosen) :
    chosen.Sublist rest := by
  cases sublist with
  | cons _ later => exact later
  | cons_cons _ later => exact absurd mem_cons_self notIn

theorem FirstFit.of_room (fits : FirstFit fill taken (next :: rest) chosen) (some : chosen ≠ [])
    (stillRoom : fill (taken ++ [next]) = .room) (nodup : (next :: rest).Nodup) :
    ∃ chosen', chosen = next :: chosen' ∧ FirstFit fill (taken ++ [next]) rest chosen' := by
  have notLater := (List.nodup_cons.mp nodup).1
  have isIn : next ∈ chosen := by
    by_contra notIn
    obtain ⟨entry, member⟩ := exists_mem_of_ne_nil chosen some
    have inRest := (sublist_of_not_mem fits.sublist notIn).subset member
    have passed := fits.passed [] next rest rfl notIn ⟨entry, member, inRest⟩
    have nothing : chosen.filter (· ∈ ([] : List α)) = [] := by simp
    rw [nothing, append_nil, stillRoom] at passed
    cases passed
  obtain ⟨sublist, full, room, passed⟩ := fits
  cases sublist with
  | cons _ later => exact absurd (later.subset isIn) notLater
  | @cons_cons chosen' _ _ later =>
    refine ⟨chosen', rfl, later, ?_, fun part isPrefix isPart => ?_, ?_⟩
    · rw [append_assoc]
      exact full
    · rw [append_assoc]
      exact room (next :: part) (List.cons_prefix_cons.mpr ⟨rfl, isPrefix⟩) fun same =>
        isPart (List.cons.inj same).2
    · intro before entry after isRest notChosen isLater
      have notNext : entry ≠ next := by
        rintro rfl
        refine notLater ?_
        rw [isRest]
        exact mem_append_right _ mem_cons_self
      have notChosen' : entry ∉ next :: chosen' := fun member =>
        notChosen ((List.mem_cons.mp member).resolve_left notNext)
      obtain ⟨last, isLast, inAfter⟩ := isLater
      have isUnfit := passed (next :: before) entry after (by rw [isRest]; rfl) notChosen'
        ⟨last, mem_cons_of_mem _ isLast, inAfter⟩
      have notIn : next ∉ chosen' := fun member => notLater (later.subset member)
      rw [filter_cons_of_pos (by simp), filter_mem_cons_of_not_mem notIn] at isUnfit
      simpa only [append_assoc, cons_append, nil_append] using isUnfit

theorem FirstFit.of_unfit (fits : FirstFit fill taken (next :: rest) chosen)
    (isUnfit : fill (taken ++ [next]) = .unfit) (nodup : (next :: rest).Nodup) :
    FirstFit fill taken rest chosen := by
  have notLater := (List.nodup_cons.mp nodup).1
  obtain ⟨sublist, full, room, passed⟩ := fits
  have notIn : next ∉ chosen := by
    intro isIn
    cases sublist with
    | cons _ later => exact notLater (later.subset isIn)
    | @cons_cons chosen' _ _ later =>
      rcases eq_or_ne chosen' [] with rfl | some
      · rw [full] at isUnfit
        cases isUnfit
      · have stillRoom := room [next] (List.cons_prefix_cons.mpr ⟨rfl, nil_prefix⟩) fun same =>
          some (List.cons.inj same).2.symm
        rw [stillRoom] at isUnfit
        cases isUnfit
  refine ⟨sublist_of_not_mem sublist notIn, full, room, ?_⟩
  intro before entry after isRest notChosen isLater
  have isUnfit' := passed (next :: before) entry after (by rw [isRest]; rfl) notChosen isLater
  rwa [filter_mem_cons_of_not_mem notIn] at isUnfit'

/-- **The search fills up exactly if there is a choice that passes over nothing that fits.** -/
theorem fillUp_iff (list : List α) : ∀ {taken : List α}, list.Nodup → fill taken = .room →
    (fillUp fill taken list = true ↔ ∃ chosen, FirstFit fill taken list chosen) := by
  induction list with
  | nil =>
    intro taken _ hasRoom
    constructor
    · exact nofun
    rintro ⟨chosen, fits⟩
    have isNil := eq_nil_of_sublist_nil fits.sublist
    have full := fits.full
    rw [isNil, append_nil, hasRoom] at full
    cases full
  | cons next rest ih =>
    intro taken nodup hasRoom
    obtain ⟨notLater, nodupRest⟩ := List.nodup_cons.mp nodup
    have someChosen : ∀ chosen, FirstFit fill taken (next :: rest) chosen → chosen ≠ [] := by
      rintro chosen fits rfl
      have full := fits.full
      rw [append_nil, hasRoom] at full
      cases full
    unfold fillUp
    split
    · rename_i isFull
      refine ⟨fun _ => ⟨[next], ?_, isFull, ?_, ?_⟩, fun _ => rfl⟩
      · exact (nil_sublist rest).cons_cons next
      · intro part isPrefix isPart
        cases part with
        | nil => rwa [append_nil]
        | cons head part =>
          obtain ⟨rfl, shorter⟩ := List.cons_prefix_cons.mp isPrefix
          obtain rfl := List.prefix_nil.mp shorter
          exact absurd rfl isPart
      · rintro before entry after isList notChosen ⟨last, isLast, inAfter⟩
        obtain rfl := List.mem_singleton.mp isLast
        cases before with
        | nil =>
          obtain ⟨rfl, -⟩ := List.cons.inj isList
          exact absurd mem_cons_self notChosen
        | cons head before =>
          obtain ⟨-, isRest⟩ := List.cons.inj isList
          refine absurd ?_ notLater
          rw [isRest]
          exact mem_append_right _ (mem_cons_of_mem _ inAfter)
    · rename_i stillRoom
      rw [ih nodupRest stillRoom]
      constructor
      · rintro ⟨chosen, fits⟩
        exact ⟨next :: chosen, fits.take hasRoom nodup⟩
      · rintro ⟨chosen, fits⟩
        obtain ⟨chosen', -, later⟩ := fits.of_room (someChosen chosen fits) stillRoom nodup
        exact ⟨chosen', later⟩
    · rename_i isUnfit
      rw [ih nodupRest hasRoom]
      constructor
      · rintro ⟨chosen, fits⟩
        exact ⟨chosen, fits.pass isUnfit nodup⟩
      · rintro ⟨chosen, fits⟩
        exact ⟨chosen, fits.of_unfit isUnfit nodup⟩

end Sky548
