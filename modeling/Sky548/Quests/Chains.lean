import Sky548.Quests.Log

/-!
# Previous quests

`SatisfyQuestPreviousQuest` walks over `prevQuests` and lets the first one that is
rewarded, or active if it is negative, decide. A later one is hidden by it, and in a
negative group the quests beside a negative one must not be active, where the comment
says that they must be.
-/

namespace Sky548

/-- What the object manager has of the chains: the column `ExclusiveGroup` of a quest,
its `prevQuests`, and `mExclusiveQuestGroups`. -/
structure QuestChains where
  exclusiveGroup : Quest → Int
  prevQuests : Quest → List Int
  mExclusiveQuestGroups : List (Int × UInt32)

def QuestChains.equalRange (c : QuestChains) (group : Int) : List UInt32 :=
  (c.mExclusiveQuestGroups.filter fun e => e.1 = group).map (·.2)

def prevIdOf (prev : Int) : UInt32 := UInt32.ofNat prev.natAbs

namespace QuestLog

variable (log : QuestLog) (t : QuestTemplates) (c : QuestChains) (q : Quest)

def satisfySomePrevious : List Int → Bool
  | [] => false
  | prev :: rest =>
    match t.getQuestTemplate (prevIdOf prev) with
    | none => satisfySomePrevious rest
    | some qPrevInfo =>
      let range := c.equalRange (c.exclusiveGroup qPrevInfo)
      if prev > 0 ∧ prevIdOf prev ∈ log.rewardedQuests then
        c.exclusiveGroup qPrevInfo ≥ 0 ||
          range.all fun id => id = prevIdOf prev || id ∈ log.rewardedQuests
      else if prev < 0 ∧ log.getQuestStatus t (prevIdOf prev) ≠ .none then
        -- the other quests of the group must not be active
        c.exclusiveGroup qPrevInfo ≥ 0 ||
          range.all fun id => id = prevIdOf prev || log.getQuestStatus t id = .none
      else satisfySomePrevious rest

def satisfyQuestPreviousQuest : Bool :=
  (c.prevQuests q).isEmpty || log.satisfySomePrevious t c (c.prevQuests q)

/-- What `prev` asks of a quest: to be rewarded, or to be active or done. -/
def Done (prev : Int) (id : UInt32) : Prop :=
  (prev > 0 ∧ id ∈ log.rewardedQuests) ∨ (prev < 0 ∧ log.getQuestStatus t id ≠ .none)

instance (prev : Int) (id : UInt32) : Decidable (log.Done t prev id) :=
  inferInstanceAs (Decidable (_ ∨ _))

/-- The previous quest is known, and done. -/
def Decides (prev : Int) : Prop :=
  (t.getQuestTemplate (prevIdOf prev)).isSome ∧ log.Done t prev (prevIdOf prev)

instance (prev : Int) : Decidable (log.Decides t prev) := inferInstanceAs (Decidable (_ ∧ _))

/-- The group of a previous quest that must be done with it. -/
def wholeGroup (prev : Int) : List UInt32 :=
  match t.getQuestTemplate (prevIdOf prev) with
  | none => []
  | some qPrevInfo =>
    if c.exclusiveGroup qPrevInfo ≥ 0 then [] else c.equalRange (c.exclusiveGroup qPrevInfo)

def Met (prev : Int) : Prop :=
  log.Decides t prev ∧ ∀ id ∈ wholeGroup t c prev, log.Done t prev id

-- not over all the ids there are
instance (prev : Int) : Decidable (log.Met t c prev) :=
  haveI := List.decidableBAll (log.Done t prev) (wholeGroup t c prev)
  inferInstanceAs (Decidable (log.Decides t prev ∧ _))

/-- What the comments ask for. -/
def PreviousMet : Prop := c.prevQuests q = [] ∨ ∃ prev ∈ c.prevQuests q, log.Met t c prev

def beside (prev : Int) : List UInt32 := (wholeGroup t c prev).filter (· ≠ prevIdOf prev)

/-- The first previous quest that decides hides no other that would decide otherwise. If it is
negative, with others beside it, then none of them is active and a later quest is met, or some but
not all are, and no later one is met. -/
def Unhidden : List Int → Prop
  | [] => True
  | prev :: rest =>
    if log.Decides t prev then
      if prev > 0 ∨ beside t c prev = [] then
        log.Met t c prev ∨ ∀ later ∈ rest, ¬ log.Met t c later
      else
        ((∀ id ∈ beside t c prev, ¬ log.Done t prev id) ∧ ∃ later ∈ rest, log.Met t c later) ∨
          (∃ id ∈ beside t c prev, log.Done t prev id) ∧
            ∀ later ∈ prev :: rest, ¬ log.Met t c later
    else Unhidden rest

variable {log t c} {prev : Int} {rest : List Int}

theorem met_iff (decides : log.Decides t prev) :
    log.Met t c prev ↔ ∀ id ∈ beside t c prev, log.Done t prev id := by
  refine ⟨fun met id member => met.2 id (List.mem_filter.mp member).1, fun all => ⟨decides, ?_⟩⟩
  intro id member
  by_cases own : id = prevIdOf prev
  · exact own ▸ decides.2
  · exact all id (List.mem_filter.mpr ⟨member, decide_eq_true own⟩)

theorem all_beside {qPrevInfo : Quest}
    (template : t.getQuestTemplate (prevIdOf prev) = some qPrevInfo) (f : UInt32 → Bool) :
    (beside t c prev).all f = (c.exclusiveGroup qPrevInfo ≥ 0 ||
      (c.equalRange (c.exclusiveGroup qPrevInfo)).all fun id => id = prevIdOf prev || f id) := by
  unfold beside wholeGroup
  rw [template, List.all_filter]
  by_cases oneOf : c.exclusiveGroup qPrevInfo ≥ 0
  · simp [oneOf]
  · simp [oneOf]

theorem satisfySomePrevious_cons : log.satisfySomePrevious t c (prev :: rest) =
    if log.Decides t prev then
      if prev > 0 then (beside t c prev).all fun id => log.Done t prev id
      else (beside t c prev).all fun id => !decide (log.Done t prev id)
    else log.satisfySomePrevious t c rest := by
  rw [satisfySomePrevious.eq_def]
  dsimp only
  split
  · rename_i unknown
    simp [Decides, unknown]
  rename_i qPrevInfo template
  rw [all_beside template, all_beside template]
  rcases lt_trichotomy prev 0 with negative | rfl | positive
  · simp [Decides, Done, template, negative, negative.not_gt, ite_not]
  · simp [Decides, Done]
  · simp [Decides, Done, template, positive, positive.not_gt]

theorem satisfySomePrevious_iff (prevs : List Int) :
    (log.satisfySomePrevious t c prevs ↔ ∃ prev ∈ prevs, log.Met t c prev) ↔
      log.Unhidden t c prevs := by
  induction prevs with
  | nil => simp [satisfySomePrevious, Unhidden]
  | cons prev rest ih =>
    rw [satisfySomePrevious_cons, Unhidden]
    by_cases decides : log.Decides t prev
    · have met := met_iff (c := c) decides
      have later : (∃ p ∈ prev :: rest, log.Met t c p) ↔
          log.Met t c prev ∨ ∃ p ∈ rest, log.Met t c p := by simp
      rw [if_pos decides, if_pos decides, later]
      by_cases positive : prev > 0
      · rw [if_pos positive, if_pos (Or.inl positive), List.all_eq_true]
        simp only [decide_eq_true_eq, ← met]
        grind
      rw [if_neg positive, List.all_eq_true]
      simp only [Bool.not_eq_true', decide_eq_false_iff_not]
      by_cases alone : beside t c prev = []
      · rw [if_pos (Or.inr alone)]
        simp [met, alone]
      rw [if_neg (not_or.mpr ⟨positive, alone⟩)]
      obtain ⟨id, member⟩ := List.exists_mem_of_ne_nil _ alone
      have apart : (∀ id ∈ beside t c prev, ¬ log.Done t prev id) → ¬ log.Met t c prev :=
        fun none all => none id member (met.mp all id member)
      grind
    · have unmet : ¬ log.Met t c prev := fun met => decides met.1
      rw [if_neg decides, if_neg decides, ← ih]
      simp [unmet]

/-- **Prerequisites mean what the comments say** just when none that decides otherwise
is hidden. -/
theorem satisfyQuestPreviousQuest_iff (log : QuestLog) (t : QuestTemplates) (c : QuestChains)
    (q : Quest) : (log.satisfyQuestPreviousQuest t c q ↔ log.PreviousMet t c q) ↔
      log.Unhidden t c (c.prevQuests q) := by
  rw [← satisfySomePrevious_iff]
  unfold satisfyQuestPreviousQuest PreviousMet
  cases c.prevQuests q <;> simp [satisfySomePrevious]

def lead (id : UInt32) : Quest where
  id := id
  method := 2
  zoneOrSort := 0
  limitTime := 0
  flags := 0
  specialFlags := 0
  objectives := []
  rewardChoiceItemId := []

def leads : QuestTemplates where
  getQuestTemplate id := if id = 0 then none else some (lead id)
  keyed found := by
    split at found
    · cases found
    · cases found
      rfl
  noneZero := rfl
  ignoreAutoAccept := false
  ignoreAutoComplete := false
  getEventIdForQuest _ := 0

/-- Quests 1 and 2 are to be done both; quest 3 stands alone. -/
def trail (prevQuests : List Int) : QuestChains where
  exclusiveGroup q := if q.id = 1 ∨ q.id = 2 then -5 else 0
  prevQuests _ := prevQuests
  mExclusiveQuestGroups := [(-5, 1), (-5, 2)]

def tracker (rewarded : Finset UInt32) (active : UInt32 → Bool) : QuestLog :=
  { QuestLog.empty with
    rewardedQuests := rewarded
    questStatus := fun id => if active id then some ⟨.incomplete, 0, false⟩ else none }

/-- **A met quest is hidden** by one whose group is not done, but not in the other order;
and a group that is active as asked is refused, one that is not is accepted. -/
theorem satisfyQuestPreviousQuest_of_trail :
    (tracker {1, 3} fun _ => false).PreviousMet leads (trail [1, 3]) (lead 4) ∧
      (tracker {1, 3} fun _ => false).satisfyQuestPreviousQuest leads (trail [1, 3]) (lead 4) = false ∧
      (tracker {1, 3} fun _ => false).satisfyQuestPreviousQuest leads (trail [3, 1]) (lead 4) = true ∧
      (tracker ∅ (· ≤ 2)).PreviousMet leads (trail [-1]) (lead 4) ∧
      (tracker ∅ (· ≤ 2)).satisfyQuestPreviousQuest leads (trail [-1]) (lead 4) = false ∧
      ¬ (tracker ∅ (· = 1)).PreviousMet leads (trail [-1]) (lead 4) ∧
      (tracker ∅ (· = 1)).satisfyQuestPreviousQuest leads (trail [-1]) (lead 4) = true := by
  refine ⟨Or.inr ⟨3, by decide, by decide +kernel⟩, by decide +kernel, by decide +kernel,
    Or.inr ⟨-1, by decide, by decide +kernel⟩, by decide +kernel, ?_, by decide +kernel⟩
  rintro (none | ⟨prev, member, met⟩)
  · cases none
  · cases List.mem_singleton.mp member
    revert met
    decide +kernel

end QuestLog

end Sky548
