import Sky548.BlackMarket.Money

/-!
# Restocking the black market

`Update` deletes the auctions that are over and makes new ones, turn by turn, up to the configured
number. In a turn the templates are those that the roll allows and of which no auction is running;
one is drawn with a number that may be one too large.
-/

namespace Sky548

open List KeyedList

namespace KeyedList

variable {α κ : Type*} {key : α → κ} [DecidableEq κ]

theorem size_erase_le (m : KeyedList α key) (k : κ) : (m.erase k).size ≤ m.size :=
  length_filter_le _ _

theorem size_insert_of_absent {m : KeyedList α key} {a : α} (absent : m.find? (key a) = none) :
    (m.insert a).size = m.size + 1 := by
  have same := erase_of_absent (find?_eq_none_iff.mp absent)
  change ((m.erase (key a)).toList).length + 1 = _
  rw [same]
  rfl

end KeyedList

namespace BMWorld

variable {L : BMRealm} {time : Nat} {draws : Nat → Draw} {w : BMWorld}

def isLive (w : BMWorld) (id : UInt32) : Bool :=
  w.auctions.toList.any fun auction => auction.templateId = id

/-- The list that `CreateAuctions` draws from. -/
def templateList (L : BMRealm) (w : BMWorld) (draw : Draw) : List UInt32 :=
  ((L.templates.toList.filter fun template => template.chance ≥ draw.rand).map
    BMAuctionTemplate.id).filter fun id => !w.isLive id

/-- How many templates there are that the roll allows and of which no auction is running. -/
def available (L : BMRealm) (w : BMWorld) (draw : Draw) : Nat :=
  L.templates.toList.countP fun template => template.chance ≥ draw.rand && !w.isLive template.id

theorem length_templateList (L : BMRealm) (w : BMWorld) (draw : Draw) :
    (templateList L w draw).length = available L w draw := by
  rw [templateList, available, ← countP_eq_length_filter, countP_map, countP_filter]
  congr 1
  funext template
  rw [Function.comp_apply, Bool.and_comm]

/-- What the first half of `Update` leaves. -/
def expire (L : BMRealm) (time : Nat) (w : BMWorld) : BMWorld :=
  w.auctions.toList.foldl (updateOne L time) w

/-- How many turns there are, as an `int32` has it. -/
def turns (L : BMRealm) (time : Nat) (w : BMWorld) : Nat :=
  (toInt32 (L.maxAuctions.toNat - (expire L time w).auctions.size)).toNat

/-- The market after so many turns. -/
def restocking (L : BMRealm) (time : Nat) (draws : Nat → Draw) (w : BMWorld) (n : Nat) : BMWorld :=
  (List.range n).foldl (fun w n => createAuction L time w (draws n)) (expire L time w)

theorem update_eq (L : BMRealm) (time : Nat) (draws : Nat → Draw) (w : BMWorld) :
    w.update L time draws = restocking L time draws w (turns L time w) := rfl

theorem restocking_succ (n : Nat) : restocking L time draws w (n + 1) =
    createAuction L time (restocking L time draws w n) (draws n) := by
  rw [restocking, range_succ, foldl_append]
  rfl

/-- How many of the first turns have something to draw. -/
def openings (L : BMRealm) (time : Nat) (draws : Nat → Draw) (w : BMWorld) (n : Nat) : Nat :=
  (List.range n).countP fun k => available L (restocking L time draws w k) (draws k) ≠ 0

/-- **The market is restocked safely**: no read beyond the templates, every search for a number
ends, new auctions have templates and numbers of their own, there are not too many, and those that
were running stay. -/
structure Restocked (L : BMRealm) (time : Nat) (draws : Nat → Draw) (w : BMWorld) : Prop where
  indexed : ∀ n < turns L time w, templateList L (restocking L time draws w n) (draws n) ≠ [] →
    (draws n).pick < (templateList L (restocking L time draws w n) (draws n)).length
  numbered : ∀ n < turns L time w, templateList L (restocking L time draws w n) (draws n) ≠ [] →
    (restocking L time draws w n).getNewAuctionId.isSome = true
  apart : ∀ auction ∈ (w.update L time draws).auctions, auction ∉ (expire L time w).auctions →
    ∀ other ∈ (w.update L time draws).auctions, other.templateId = auction.templateId →
      other = auction
  distinct : ((w.update L time draws).auctions.toList.map BMAuctionEntry.id).Nodup
  bounded : (w.update L time draws).auctions.size ≤ max L.maxAuctions.toNat w.auctions.size
  kept : ∀ auction ∈ w.auctions, auction.isExpired time = false →
    auction ∈ (w.update L time draws).auctions

/-- Every number drawn is less than the number of templates to draw from, and the auctions are not
so many more than configured that the difference is no `int32`, if more are made than were over. -/
structure Drawable (L : BMRealm) (time : Nat) (draws : Nat → Draw) (w : BMWorld) : Prop where
  drawn : ∀ n < turns L time w, available L (restocking L time draws w n) (draws n) ≠ 0 →
    (draws n).pick < available L (restocking L time draws w n) (draws n)
  few : (expire L time w).auctions.size ≤ L.maxAuctions.toNat + 2 ^ 31 ∨
    (expire L time w).auctions.size + openings L time draws w (turns L time w) ≤ w.auctions.size

theorem size_le (w : BMWorld) : w.auctions.size ≤ 2 ^ 32 := by
  have nodup : (w.auctions.toList.map fun auction => auction.id.toNat).Nodup := by
    have ids := w.auctions.nodup.map (f := UInt32.toNat) fun a b same => UInt32.toNat_inj.mp same
    rwa [List.map_map] at ids
  have below : (w.auctions.toList.map fun auction => auction.id.toNat) ⊆ List.range (2 ^ 32) := by
    intro n member
    obtain ⟨auction, -, rfl⟩ := List.mem_map.mp member
    exact List.mem_range.mpr auction.id.toNat_lt
  have length := (subperm_of_subset nodup below).length_le
  rw [length_map, length_range] at length
  exact length

theorem find?_getNewAuctionId {newId : UInt32} (found : w.getNewAuctionId = some newId) :
    w.auctions.find? newId = none := by
  rw [getNewAuctionId] at found
  have absent := find?_some found
  exact Option.isNone_iff_eq_none.mp absent

theorem getNewAuctionId_isSome (room : w.auctions.size < 2 ^ 32) :
    w.getNewAuctionId.isSome = true := by
  cases found : w.getNewAuctionId with
  | some newId => rfl
  | none =>
    have taken : ∀ n < w.auctions.size + 1,
        UInt32.ofNat (n + 1) ∈ w.auctions.toList.map BMAuctionEntry.id := by
      intro n below
      have isTaken := List.find?_eq_none.mp found (UInt32.ofNat (n + 1))
        (List.mem_map_of_mem (List.mem_range.mpr below))
      cases there : w.auctions.find? (UInt32.ofNat (n + 1)) with
      | none =>
        rw [there] at isTaken
        exact absurd rfl isTaken
      | some auction =>
        obtain ⟨member, isKey⟩ := find?_eq_some_iff.mp there
        exact isKey ▸ List.mem_map_of_mem member
    have nodup : ((List.range (w.auctions.size + 1)).map fun n => UInt32.ofNat (n + 1)).Nodup := by
      refine Nodup.map_on ?_ nodup_range
      intro a inA b inB same
      have below := List.mem_range.mp inA
      have below' := List.mem_range.mp inB
      have values := congrArg UInt32.toNat same
      rw [UInt32.toNat_ofNat', UInt32.toNat_ofNat'] at values
      omega
    have subset : ((List.range (w.auctions.size + 1)).map fun n => UInt32.ofNat (n + 1)) ⊆
        w.auctions.toList.map BMAuctionEntry.id := by
      intro id member
      obtain ⟨n, below, rfl⟩ := List.mem_map.mp member
      exact taken n (List.mem_range.mp below)
    have length := (subperm_of_subset nodup subset).length_le
    rw [length_map, length_map, length_range] at length
    exact absurd length (Nat.not_succ_le_self _)

theorem mem_foldl_updateOne (auctions : List BMAuctionEntry) : ∀ (w : BMWorld)
    (auction : BMAuctionEntry), auction ∈ (auctions.foldl (updateOne L time) w).auctions ↔
      auction ∈ w.auctions ∧
        ∀ other ∈ auctions, other.isExpired time = true → auction.id ≠ other.id := by
  induction auctions with
  | nil => simp
  | cons first rest ih =>
    intro w auction
    have one : auction ∈ (updateOne L time w first).auctions ↔
        auction ∈ w.auctions ∧ (first.isExpired time = true → auction.id ≠ first.id) := by
      rw [BlackMarket.updateOne_eq]
      split
      · rename_i expired
        rw [mem_erase]
        exact and_congr_right fun _ => ⟨fun other _ => other, fun other => other expired⟩
      · rename_i running
        exact ⟨fun member => ⟨member, fun expired => absurd expired running⟩, And.left⟩
    rw [foldl_cons, ih, one, and_assoc, forall_mem_cons]

variable {auction : BMAuctionEntry}

theorem mem_expire : auction ∈ (expire L time w).auctions ↔
      auction ∈ w.auctions ∧ auction.isExpired time = false := by
  rw [expire, mem_foldl_updateOne]
  refine and_congr_right fun member => ⟨fun running => ?_, fun running other isThere expired same => ?_⟩
  · cases expired : auction.isExpired time with
    | false => rfl
    | true => exact absurd rfl (running auction member expired)
  · rw [eq_of_key_eq (m := w.auctions) member isThere same, expired] at running
    cases running

theorem size_expire_le : (expire L time w).auctions.size ≤ w.auctions.size := by
  refine List.foldlRecOn (motive := fun w' : BMWorld => w'.auctions.size ≤ w.auctions.size) _ _
    (Nat.le_refl _) fun w' smaller first _ => ?_
  rw [BlackMarket.updateOne_eq]
  split
  · exact Nat.le_trans (size_erase_le _ _) smaller
  · exact smaller

def newAuction (time : Nat) (draw : Draw) (selTemplate : BMAuctionTemplate) (newId : UInt32) :
    BMAuctionEntry where
  id := newId
  templateId := selTemplate.id
  startTime := UInt32.ofNat (time + 120 + draw.delay - 60 / 2)
  bid := selTemplate.startBid
  bidder := 0
  bm_template := selTemplate

variable {draw : Draw}

theorem templateList_eq_nil_iff : templateList L w draw = [] ↔ available L w draw = 0 := by
  rw [← length_templateList, length_eq_zero_iff]

theorem createAuction_of_nil (nothing : templateList L w draw = []) :
    createAuction L time w draw = w :=
  if_pos nothing

theorem createAuction_of_ne_nil (nonempty : templateList L w draw ≠ []) :
    createAuction L time w draw =
      match L.templates.find? ((templateList L w draw).getD draw.pick draw.beyond),
        w.getNewAuctionId with
      | some selTemplate, some newId =>
        { w with auctions := w.auctions.insert (newAuction time draw selTemplate newId) }
      | _, _ => w :=
  if_neg nonempty

theorem createAuction_cases (draw : Draw) :
    createAuction L time w draw = w ∨ templateList L w draw ≠ [] ∧
      ∃ selTemplate newId, w.auctions.find? newId = none ∧ createAuction L time w draw =
        { w with auctions := w.auctions.insert (newAuction time draw selTemplate newId) } := by
  by_cases nothing : templateList L w draw = []
  · exact Or.inl (createAuction_of_nil nothing)
  rw [createAuction_of_ne_nil nothing]
  rcases L.templates.find? ((templateList L w draw).getD draw.pick draw.beyond) with _ | selTemplate
  · exact Or.inl rfl
  cases found : w.getNewAuctionId with
  | none => exact Or.inl rfl
  | some newId =>
    exact Or.inr ⟨nothing, selTemplate, newId, find?_getNewAuctionId found, rfl⟩

theorem createAuction_of_drawn {newId : UInt32} (drawn : draw.pick < (templateList L w draw).length)
    (found : w.getNewAuctionId = some newId) :
    ∃ selTemplate, w.isLive selTemplate.id = false ∧ createAuction L time w draw =
      { w with auctions := w.auctions.insert (newAuction time draw selTemplate newId) } := by
  have member : (templateList L w draw).getD draw.pick draw.beyond ∈ templateList L w draw := by
    rw [getD_eq_getElem?_getD, getElem?_eq_getElem drawn]
    exact getElem_mem drawn
  obtain ⟨chosen, idle⟩ := List.mem_filter.mp member
  obtain ⟨selTemplate, isThere, isKey⟩ := List.mem_map.mp chosen
  have looked := find?_of_mem (m := L.templates) (List.mem_filter.mp isThere).1
  rw [isKey] at looked
  refine ⟨selTemplate, ?_, ?_⟩
  · rw [isKey]
    exact Bool.not_eq_true' _ ▸ idle
  · have nonempty : templateList L w draw ≠ [] := ne_nil_of_mem member
    rw [createAuction_of_ne_nil nonempty, looked, found]

theorem mem_createAuction (draw : Draw) (member : auction ∈ w.auctions) :
    auction ∈ (createAuction L time w draw).auctions := by
  rcases @createAuction_cases L time w draw with
    same | ⟨-, selTemplate, newId, absent, made⟩
  · rw [same]
    exact member
  · rw [made]
    exact mem_insert.mpr (Or.inr ⟨member, find?_eq_none_iff.mp absent auction member⟩)

theorem size_createAuction_le (draw : Draw) : (createAuction L time w draw).auctions.size ≤
      w.auctions.size + if available L w draw ≠ 0 then 1 else 0 := by
  rcases @createAuction_cases L time w draw with
    same | ⟨nonempty, selTemplate, newId, absent, made⟩
  · rw [same]
    exact Nat.le_add_right _ _
  · rw [if_pos (mt templateList_eq_nil_iff.mpr nonempty), made]
    exact Nat.le_of_eq (size_insert_of_absent absent)

theorem size_createAuction_of_drawn
    (drawn : templateList L w draw ≠ [] → draw.pick < (templateList L w draw).length)
    (numbered : templateList L w draw ≠ [] → w.getNewAuctionId.isSome = true) :
    (createAuction L time w draw).auctions.size =
      w.auctions.size + if available L w draw ≠ 0 then 1 else 0 := by
  by_cases nothing : templateList L w draw = []
  · rw [createAuction_of_nil nothing, if_neg (not_not_intro (templateList_eq_nil_iff.mp nothing))]
    rfl
  obtain ⟨newId, found⟩ := Option.isSome_iff_exists.mp (numbered nothing)
  obtain ⟨selTemplate, -, made⟩ := @createAuction_of_drawn L time w _ _ (drawn nothing) found
  rw [if_pos (mt templateList_eq_nil_iff.mpr nothing), made]
  exact size_insert_of_absent (find?_getNewAuctionId found)

theorem openings_succ (n : Nat) : openings L time draws w (n + 1) = openings L time draws w n +
    if available L (restocking L time draws w n) (draws n) ≠ 0 then 1 else 0 := by
  rw [openings, range_succ, countP_append, countP_singleton]
  simp only [decide_eq_true_eq]
  rfl

theorem openings_le (n : Nat) : openings L time draws w n ≤ n := by
  refine Nat.le_trans countP_le_length ?_
  rw [length_range]

theorem openings_mono {m n : Nat} (le : m ≤ n) :
    openings L time draws w m ≤ openings L time draws w n := by
  induction le with
  | refl => exact Nat.le_refl _
  | step le ih =>
    rw [openings_succ]
    exact Nat.le_trans ih (Nat.le_add_right _ _)

theorem size_restocking_le (n : Nat) : (restocking L time draws w n).auctions.size ≤
    (expire L time w).auctions.size + openings L time draws w n := by
  induction n with
  | zero => exact Nat.le_refl _
  | succ n ih =>
    rw [restocking_succ, openings_succ]
    have turn := @size_createAuction_le L time (restocking L time draws w n) (draws n)
    omega

theorem mem_restocking (member : auction ∈ (expire L time w).auctions) (n : Nat) :
    auction ∈ (restocking L time draws w n).auctions := by
  induction n with
  | zero => exact member
  | succ n ih =>
    rw [restocking_succ]
    exact mem_createAuction _ ih

theorem apart_restocking {m : Nat} (drawn : ∀ n < m,
      templateList L (restocking L time draws w n) (draws n) ≠ [] →
        (draws n).pick < (templateList L (restocking L time draws w n) (draws n)).length)
    (numbered : ∀ n < m, templateList L (restocking L time draws w n) (draws n) ≠ [] →
      (restocking L time draws w n).getNewAuctionId.isSome = true) :
    ∀ n ≤ m, ∀ auction ∈ (restocking L time draws w n).auctions,
      auction ∉ (expire L time w).auctions → ∀ other ∈ (restocking L time draws w n).auctions,
          other.templateId = auction.templateId → other = auction := by
  intro n
  induction n with
  | zero =>
    intro le auction member isNew
    exact absurd member isNew
  | succ n ih =>
    intro le
    have before := ih (Nat.le_of_succ_le le)
    rw [restocking_succ]
    by_cases nothing : templateList L (restocking L time draws w n) (draws n) = []
    · rw [createAuction_of_nil nothing]
      exact before
    obtain ⟨newId, found⟩ := Option.isSome_iff_exists.mp (numbered n le nothing)
    obtain ⟨selTemplate, idle, made⟩ :=
      @createAuction_of_drawn L time _ _ _ (drawn n le nothing) found
    have others : ∀ other ∈ (restocking L time draws w n).auctions,
        other.templateId ≠ selTemplate.id := by
      intro other member same
      have live := List.any_eq_false.mp idle other member
      exact live (decide_eq_true same)
    rw [made]
    intro auction member isNew other isThere same
    rcases mem_insert.mp member with rfl | ⟨old, -⟩
    · rcases mem_insert.mp isThere with rfl | ⟨old, -⟩
      · rfl
      · exact absurd same (others other old)
    · rcases mem_insert.mp isThere with rfl | ⟨old', -⟩
      · exact absurd same.symm (others auction old)
      · exact before auction old isNew other old' same

theorem size_restocking {m : Nat} (drawn : ∀ n < m,
      templateList L (restocking L time draws w n) (draws n) ≠ [] →
        (draws n).pick < (templateList L (restocking L time draws w n) (draws n)).length)
    (numbered : ∀ n < m, templateList L (restocking L time draws w n) (draws n) ≠ [] →
      (restocking L time draws w n).getNewAuctionId.isSome = true) :
    ∀ n ≤ m, (restocking L time draws w n).auctions.size =
      (expire L time w).auctions.size + openings L time draws w n := by
  intro n
  induction n with
  | zero => exact fun _ => rfl
  | succ n ih =>
    intro le
    rw [restocking_succ, openings_succ, ← Nat.add_assoc, ← ih (Nat.le_of_succ_le le)]
    exact size_createAuction_of_drawn (drawn n le) (numbered n le)

theorem turns_le (few : (expire L time w).auctions.size ≤ L.maxAuctions.toNat + 2 ^ 31)
    (some : turns L time w ≠ 0) :
    (expire L time w).auctions.size + turns L time w ≤ L.maxAuctions.toNat := by
  have bounded := L.maxAuctions.toNat_lt
  unfold turns toInt32 at *
  rw [Int.bmod_def] at *
  split at * <;> omega

/-- **The market is restocked safely exactly when** every number drawn is less than the number of
templates to draw from and there are not far too many auctions. -/
theorem restocked_iff (L : BMRealm) (time : Nat) (draws : Nat → Draw) (w : BMWorld) :
    Restocked L time draws w ↔ Drawable L time draws w := by
  have lengths : ∀ n, (templateList L (restocking L time draws w n) (draws n) ≠ [] →
      (draws n).pick < (templateList L (restocking L time draws w n) (draws n)).length) ↔
      (available L (restocking L time draws w n) (draws n) ≠ 0 →
        (draws n).pick < available L (restocking L time draws w n) (draws n)) := by
    intro n
    rw [Ne, templateList_eq_nil_iff, length_templateList]
  have survivors := @size_expire_le L time w
  constructor
  · intro safe
    refine ⟨fun n turn => (lengths n).mp (safe.indexed n turn), ?_⟩
    have size := size_restocking safe.indexed safe.numbered _ (Nat.le_refl _)
    have bounded := safe.bounded
    rw [update_eq, size] at bounded
    omega
  · intro drawable
    have drawn := fun n turn => (lengths n).mpr (drawable.drawn n turn)
    have numbered : ∀ n < turns L time w,
        templateList L (restocking L time draws w n) (draws n) ≠ [] →
          (restocking L time draws w n).getNewAuctionId.isSome = true := by
      intro n turn nonempty
      apply getNewAuctionId_isSome
      have size := @size_restocking_le L time draws w n
      rcases drawable.few with few | few
      · have configured := turns_le few (Nat.ne_of_gt (Nat.lt_of_le_of_lt (Nat.zero_le n) turn))
        have opened := @openings_le L time draws w n
        have bounded := L.maxAuctions.toNat_lt
        omega
      · have opens := @openings_succ L time draws w n
        rw [if_pos (mt templateList_eq_nil_iff.mpr nonempty)] at opens
        have later := @openings_mono L time draws w (n + 1) _ turn
        have most := w.size_le
        omega
    refine ⟨drawn, numbered, ?_, ?_, ?_, ?_⟩
    · exact apart_restocking drawn numbered _ (Nat.le_refl _)
    · exact (w.update L time draws).auctions.nodup
    · have size := @size_restocking_le L time draws w (turns L time w)
      have opened := @openings_le L time draws w (turns L time w)
      rw [update_eq]
      rcases drawable.few with few | few
      · by_cases none : turns L time w = 0
        · omega
        · have configured := turns_le few none
          omega
      · omega
    · intro auction member running
      exact mem_restocking (mem_expire.mpr ⟨member, running⟩) _

/-- Nothing is for sale and nobody has any money. -/
def bareMarket : BMWorld where
  money := fun _ => 0
  online := fun _ => false
  auctions := KeyedList.empty
  mails := []

/-- The roll is 1 and the number drawn is 1, with one template to draw from. -/
theorem not_restocked_of_one_template :
    ¬ Restocked BlackMarket.smallMarket 1000 (fun _ => ⟨1, 1, 0, 60⟩) bareMarket := by
  intro safe
  have below := safe.indexed 0 (by decide) (by decide)
  exact absurd below (by decide)

end BMWorld

end Sky548
