import Sky548.Machine
import Sky548.Mail.Model

/-!
# The items of a mailbox

The items of a player's mails lie in a store of their own, and each mail lists the GUIDs of its
items. `Custody` says that the store has what the mails list. A request names the mail and the item
on their own, and only those that name an item of that mail, or a mail without items, keep the two
in step.
-/

namespace Sky548

open List MailWorld KeyedList
open Function (update_of_ne update_self)

namespace Custody

def listed (mails : List Mail) : List Nat :=
  (mails.filter fun m => m.state ≠ .deleted).flatMap Mail.items

/-- **Custody**: the store has exactly what the mails list, each once. -/
structure Holds (guids : List Nat) (store : MailItemMap) : Prop where
  once : guids.Nodup
  stored : ∀ guid, store.find? guid ≠ none ↔ guid ∈ guids

theorem listed_append (xs ys : List Mail) : listed (xs ++ ys) = listed xs ++ listed ys := by
  rw [listed, filter_append, flatMap_append]
  rfl

theorem listed_cons_of_live {m : Mail} (live : m.state ≠ .deleted) (rest : List Mail) :
    listed (m :: rest) = m.items ++ listed rest := by
  rw [listed, filter_cons_of_pos (by simpa using live), flatMap_cons]
  rfl

theorem listed_cons_of_deleted {m : Mail} (deleted : m.state = .deleted) (rest : List Mail) :
    listed (m :: rest) = listed rest := by
  rw [listed, filter_cons_of_neg (by simpa using deleted)]
  rfl

theorem listed_saved (mails : List Mail) :
    listed ((mails.filter fun m => m.state ≠ .deleted).map fun m =>
      if m.state = .changed then { m with state := .unchanged, removedItems := [] } else m) =
        listed mails := by
  induction mails with
  | nil => rfl
  | cons m rest ih =>
    by_cases deleted : m.state = .deleted
    · rw [filter_cons_of_neg (by simpa using deleted), ih, listed_cons_of_deleted deleted]
    rw [filter_cons_of_pos (by simpa using deleted), map_cons, listed_cons_of_live deleted, ← ih]
    by_cases changed : m.state = .changed
    · rw [if_pos changed, listed_cons_of_live (by simp)]
    · rw [if_neg changed, listed_cons_of_live deleted]

section Holds

variable {pre own post : List Nat} {store : MailItemMap}

theorem Holds.erase (holds : Holds (pre ++ (own ++ post)) store) {guid : Nat} (member : guid ∈ own) :
    Holds (pre ++ (own.erase guid ++ post)) (store.erase guid) := by
  have once := holds.once
  have gone : pre ++ (own.erase guid ++ post) = (pre ++ (own ++ post)).erase guid := by
    rw [nodup_append] at once
    rw [erase_append_right _ fun early =>
        once.2.2 guid early guid (mem_append_left _ member) rfl,
      erase_append_left _ member]
  refine ⟨gone ▸ once.erase guid, fun j => ?_⟩
  rw [gone, once.mem_erase_iff, find?_erase]
  by_cases same : j = guid
  · rw [if_pos same]
    exact iff_of_false (fun absurd => absurd rfl) fun other => other.1 same
  · rw [if_neg same, holds.stored]
    exact ⟨fun other => ⟨same, other⟩, fun other => other.2⟩

theorem Holds.eraseAll (holds : Holds (pre ++ (own ++ post)) store) :
    Holds (pre ++ post) (own.foldl KeyedList.erase store) := by
  have once := holds.once
  refine ⟨once.sublist ((sublist_append_right own post).append_left pre), fun j => ?_⟩
  rw [find?_foldl_erase]
  by_cases member : j ∈ own
  · rw [if_pos member]
    refine iff_of_false (fun absurd => absurd rfl) fun other => ?_
    rw [nodup_append, nodup_append] at once
    rcases List.mem_append.mp other with early | late
    · exact once.2.2 j early j (mem_append_left _ member) rfl
    · exact once.2.1.2.2 j member j late rfl
  · rw [if_neg member, holds.stored]
    simp only [mem_append]
    tauto

theorem Holds.insertAll {guids : List Nat} (holds : Holds guids store) (items : MailItemMap)
    (apart : ∀ item ∈ items, item.guid ∉ guids) :
    Holds (items.toList.map Stack.guid ++ guids) (items.toList.foldl KeyedList.insert store) := by
  refine ⟨List.nodup_append.mpr ⟨items.nodup, holds.once, fun a new b old same => ?_⟩, fun j => ?_⟩
  · obtain ⟨item, member, rfl⟩ := List.mem_map.mp new
    rw [← same] at old
    exact apart item member old
  · rw [find?_foldl_insert_ne_none, holds.stored, mem_append]

theorem Holds.dropped_iff (holds : Holds (pre ++ (own ++ post)) store) :
    Holds (pre ++ post) store ↔ own = [] := by
  constructor
  · intro dropped
    refine List.eq_nil_iff_forall_not_mem.mpr fun guid member => ?_
    have inStore := (holds.stored guid).mpr (by simp [member])
    have once := holds.once
    rw [nodup_append, nodup_append] at once
    rcases List.mem_append.mp ((dropped.stored guid).mp inStore) with early | late
    · exact once.2.2 guid early guid (mem_append_left _ member) rfl
    · exact once.2.1.2.2 guid member guid late rfl
  · intro empty
    rw [empty, nil_append] at holds
    exact holds

end Holds

variable {L : MailRealm} {w : MailWorld} {p : UInt32}

/-- The mailbox of one player is in order. -/
def InOrder (p : UInt32) (w : MailWorld) : Prop := Holds (listed (w.mail p)) (w.mMitems p)

theorem listed_saveMail : listed ((w.saveMail p).mail p) = listed (w.mail p) := by
  rw [MailWorld.saveMail]
  split
  · dsimp only
    rw [update_self, listed_saved]
  · rfl

/-- A new mail is in front of the mailbox with its items, or the mailbox is as it was. -/
theorem sendMailTo_cases (draft : MailDraft) (receiver : UInt32) (sender : MailSender)
    (deliverTime : Nat) :
    let w' := w.sendMailTo draft receiver sender deliverTime
    listed (w'.mail p) = draft.items.toList.map Stack.guid ++ listed (w.mail p) ∧
        w'.mMitems p = draft.items.toList.foldl KeyedList.insert (w.mMitems p) ∨
      w'.mail p = w.mail p ∧ w'.mMitems p = w.mMitems p := by
  dsimp only
  rw [w.sendMailTo_mail, w.sendMailTo_mMitems]
  split
  · by_cases same : p = receiver
    · subst same
      rw [update_self, update_self]
      refine Or.inl ⟨?_, rfl⟩
      rw [listed_cons_of_live (show MailState.unchanged ≠ .deleted by decide)]
      rfl
    · rw [update_of_ne same, update_of_ne same]
      exact Or.inr ⟨rfl, rfl⟩
  · exact Or.inr ⟨rfl, rfl⟩

theorem InOrder.sendMailTo (inOrder : InOrder p w) (draft : MailDraft) (receiver : UInt32)
    (sender : MailSender) (deliverTime : Nat)
    (apart : ∀ item ∈ draft.items, item.guid ∉ listed (w.mail p)) :
    InOrder p (w.sendMailTo draft receiver sender deliverTime) ∧
      listed ((w.sendMailTo draft receiver sender deliverTime).mail p) ⊆
        draft.items.toList.map Stack.guid ++ listed (w.mail p) := by
  rw [InOrder]
  rcases sendMailTo_cases (p := p) (w := w) draft receiver sender deliverTime with here | elsewhere
  · rw [here.1, here.2]
    exact ⟨Holds.insertAll inOrder draft.items apart, List.Subset.refl _⟩
  · rw [elsewhere.1, elsewhere.2]
    exact ⟨inOrder, subset_append_right _ _⟩

theorem listed_payCOD (now : MailCircumstances) (m : Mail) :
    listed ((w.payCOD L p now m).mail p) = listed (w.mail p) ∧
      (w.payCOD L p now m).mMitems p = w.mMitems p := by
  rw [MailWorld.payCOD]
  split
  · split
    · rcases sendMailTo_cases (w := w) (p := p) ⟨.empty, m.COD, 0⟩ m.sender ⟨.normal, m.receiver⟩
        now.time with here | elsewhere
      · exact here
      · exact ⟨congrArg listed elsewhere.1, elsewhere.2⟩
    · exact ⟨rfl, rfl⟩
  · exact ⟨rfl, rfl⟩

theorem money_payCOD (now : MailCircumstances) (m : Mail) : (w.payCOD L p now m).money p =
      if m.COD > 0 then
        (modifyMoney (w.money p) (toInt32 (-toInt32 m.COD.toNat))).getD (w.money p)
      else w.money p := by
  rw [MailWorld.payCOD]
  split
  · dsimp only
    rw [update_self]
    split
    · rw [sendMailTo_money]
    · rfl
  · rfl

/-- What the owner of the mailbox asks. -/
inductive Event
  | takeItem (now : MailCircumstances) (mailId : UInt32) (itemId : Nat)
  | delete (mailId : UInt32)
  | takeMoney (now : MailCircumstances) (mailId : UInt32) (money : UInt64)
  | returnToSender (now : MailCircumstances) (mailId : UInt32)

/-- The mails, and what was moved to the inventory. -/
structure Mailbox where
  world : MailWorld
  taken : List Nat

variable (L p)

/-- A request; `none` for one that is refused. -/
def handle (w : MailWorld) : Event → Option MailWorld
  | .takeItem now mailId itemId => w.handleMailTakeItem L p now mailId itemId
  | .delete mailId => w.handleMailDelete p mailId
  | .takeMoney now mailId money => w.handleMailTakeMoney p now mailId money
  | .returnToSender now mailId => w.handleMailReturnToSender L p now mailId

def takenBy (taken : List Nat) : Event → List Nat
  | .takeItem _ _ itemId => itemId :: taken
  | _ => taken

def step (box : Mailbox) (e : Event) : Mailbox :=
  match handle L p box.world e with
  | none => box
  | some world => { world := world, taken := takenBy box.taken e }

/-- The mailbox is in order, and no mail lists what was taken. -/
structure Kept (box : Mailbox) : Prop where
  inOrder : InOrder p box.world
  gone : ∀ guid ∈ box.taken, guid ∉ listed (box.world.mail p)

/-- An item is moved through the mail that lists it, for what that mail costs. -/
def Paid (box : Mailbox) : Event → Prop
  | .takeItem now mailId itemId => ∀ w', box.world.handleMailTakeItem L p now mailId itemId = some w' →
      ∃ m, box.world.getMail p mailId = some m ∧ m.state ≠ .deleted ∧ itemId ∈ m.items ∧
        (w'.money p).toNat + m.COD.toNat = (box.world.money p).toNat
  | _ => True

def Lawful (box : Mailbox) (e : Event) : Prop := Kept p (step L p box e) ∧ Paid L p box e

/-- An item that is taken is the mail's, whose COD an `int32` holds; a mail that is deleted, or
returned though nobody sent it, has no items. -/
def Meets (box : Mailbox) : Event → Prop
  | .takeItem now mailId itemId => ∀ m it, box.world.getMail p mailId = some m →
      MailWorld.delivered m now.time → hasEnoughMoney (box.world.money p) m.COD →
      (box.world.mMitems p).find? itemId = some it →
      (L.rules.canStoreItem box.world.items (playerGuid p) nullBag nullSlot [] it false).1 = .ok →
      itemId ∈ m.items ∧ m.COD.toNat ≤ 2 ^ 31
  | .delete mailId => ∀ m, box.world.getMail p mailId = some m → m.state ≠ .deleted → m.COD = 0 →
      m.items = []
  | .takeMoney _ _ _ => True
  | .returnToSender now mailId => ∀ m, box.world.getMail p mailId = some m →
      MailWorld.delivered m now.time → m.messageType = .normal ∧ m.sender ≠ 0 ∨ m.items = []

variable {L p} {w w' : MailWorld} {now : MailCircumstances} {mailId : UInt32} {m : Mail}

theorem listed_split (live : m.state ≠ .deleted) (pre post : List Mail) :
    listed (pre ++ m :: post) = listed pre ++ (m.items ++ listed post) := by
  rw [listed_append, listed_cons_of_live live]

theorem live_of_delivered {time : Nat} (delivered : MailWorld.delivered m time = true) :
    m.state ≠ .deleted := by
  rw [MailWorld.delivered, Bool.and_eq_true] at delivered
  exact of_decide_eq_true delivered.1

theorem takeItem_cases {itemId : Nat}
    (accepted : w.handleMailTakeItem L p now mailId itemId = some w') :
    ∃ m it, w.getMail p mailId = some m ∧ MailWorld.delivered m now.time = true ∧
      hasEnoughMoney (w.money p) m.COD = true ∧ (w.mMitems p).find? itemId = some it ∧
      (L.rules.canStoreItem w.items (playerGuid p) nullBag nullSlot [] it false).1 = .ok ∧
      w'.money p = (if m.COD > 0 then
        (modifyMoney (w.money p) (toInt32 (-toInt32 m.COD.toNat))).getD (w.money p)
      else w.money p) ∧
      w'.mMitems p = (w.mMitems p).erase itemId ∧
      ∃ pre post, listed (w.mail p) = listed pre ++ (m.items ++ listed post) ∧
        listed (w'.mail p) = listed pre ++ (m.items.erase itemId ++ listed post) := by
  obtain ⟨m, it, dest, found, delivered, enough, stored, fits, rfl⟩ :=
    handleMailTakeItem_eq_some_iff.mp accepted
  obtain ⟨pre, post, whole, modified, -⟩ := split_getMail found
  have live := live_of_delivered delivered
  refine ⟨m, it, found, delivered, enough, stored, ?_, ?_, ?_, pre, post,
    by rw [whole, listed_split live], ?_⟩
  · rw [fits]
  · rw [MailWorld.itemTaken, saveMail_money]
    exact money_payCOD now m
  · rw [MailWorld.itemTaken, saveMail_mMitems]
    dsimp only
    rw [update_self, (listed_payCOD now m).2, MailWorld.modify]
  · rw [MailWorld.itemTaken, listed_saveMail]
    rw [(listed_payCOD now m).1, modify_mail, modified,
      listed_split (show MailState.changed ≠ .deleted by decide)]
    rfl

theorem takeItem_accepted {m : Mail} {itemId : Nat} {it : Item}
    (found : w.getMail p mailId = some m) (delivered : MailWorld.delivered m now.time = true)
    (enough : hasEnoughMoney (w.money p) m.COD = true) (stored : (w.mMitems p).find? itemId = some it)
    (fits : (L.rules.canStoreItem w.items (playerGuid p) nullBag nullSlot [] it false).1 = .ok) :
    w.handleMailTakeItem L p now mailId itemId ≠ none := by
  rw [Option.ne_none_iff_exists']
  exact ⟨_, handleMailTakeItem_eq_some_iff.mpr
    ⟨m, it, _, found, delivered, enough, stored, Prod.ext fits rfl, rfl⟩⟩

theorem delete_cases (accepted : w.handleMailDelete p mailId = some w') :
    w'.mMitems p = w.mMitems p ∧
      ((∃ m pre post, w.getMail p mailId = some m ∧ m.state ≠ .deleted ∧ m.COD = 0 ∧
          listed (w.mail p) = listed pre ++ (m.items ++ listed post) ∧
          listed (w'.mail p) = listed pre ++ listed post) ∨
        (∀ m, w.getMail p mailId = some m → m.state = .deleted) ∧
          listed (w'.mail p) = listed (w.mail p)) := by
  rw [MailWorld.handleMailDelete] at accepted
  split at accepted
  · rename_i absent
    rw [← Option.some.inj accepted]
    refine ⟨rfl, Or.inr ⟨fun m found => ?_, rfl⟩⟩
    rw [absent] at found
    cases found
  rename_i m found
  split at accepted
  · cases accepted
  rename_i free
  obtain ⟨pre, post, whole, modified, -⟩ := split_getMail found
  rw [← Option.some.inj accepted]
  refine ⟨rfl, ?_⟩
  rw [modify_mail, modified, listed_append, listed_cons_of_deleted rfl]
  by_cases deleted : m.state = .deleted
  · refine Or.inr ⟨fun m' found' => ?_, ?_⟩
    · rw [found] at found'
      rw [← Option.some.inj found']
      exact deleted
    · rw [whole, listed_append, listed_cons_of_deleted deleted]
  · refine Or.inl ⟨m, pre, post, found, deleted, of_not_not free, ?_, rfl⟩
    rw [whole, listed_split deleted]

theorem takeMoney_cases {money : UInt64}
    (accepted : w.handleMailTakeMoney p now mailId money = some w') :
    w'.mMitems p = w.mMitems p ∧ listed (w'.mail p) = listed (w.mail p) := by
  rw [MailWorld.handleMailTakeMoney] at accepted
  split at accepted
  · cases accepted
  rename_i m found
  split at accepted
  · cases accepted
  rename_i passed
  split at accepted
  · cases accepted
  obtain ⟨pre, post, whole, modified, -⟩ := split_getMail found
  have delivered : MailWorld.delivered m now.time = true := by
    by_contra closed
    exact passed (Or.inl (by simpa using closed))
  have live := live_of_delivered delivered
  rw [← Option.some.inj accepted, saveMail_mMitems, listed_saveMail]
  refine ⟨rfl, ?_⟩
  rw [modify_mail, modified, whole, listed_split live, listed_split (by simp)]

theorem mem_foldl_gather {item : Item} {gather : MailItemMap → Nat → MailItemMap}
    (one : ∀ draft guid, item ∈ gather draft guid → item ∈ draft ∨ item.guid = guid)
    (guids : List Nat) : ∀ {draft : MailItemMap}, item ∈ guids.foldl gather draft →
      item ∈ draft ∨ item.guid ∈ guids := by
  induction guids with
  | nil => exact fun member => Or.inl member
  | cons guid rest ih =>
    intro draft member
    rcases ih member with before | later
    · rcases one draft guid before with there | here
      · exact Or.inl there
      · exact Or.inr (here ▸ mem_cons_self)
    · exact Or.inr (mem_cons_of_mem guid later)

theorem guid_mem_of_returned {item : Item} (returned : item ∈ w.returnedItems p m) :
    item.guid ∈ m.items := by
  refine (mem_foldl_gather (fun draft guid member => ?_) m.items returned).resolve_left
    not_mem_empty
  cases stored : (w.mMitems p).find? guid with
  | none =>
    rw [stored] at member
    exact Or.inl member
  | some it =>
    rw [stored] at member
    rcases mem_insert.mp member with here | there
    · rw [here]
      exact Or.inr (find?_eq_some_iff.mp stored).2
    · exact Or.inl there.1

theorem return_cases (accepted : w.handleMailReturnToSender L p now mailId = some w') :
    ∃ m pre post, w.getMail p mailId = some m ∧ MailWorld.delivered m now.time = true ∧
      listed (w.mail p) = listed pre ++ (m.items ++ listed post) ∧
      ((m.messageType = .normal ∧ m.sender ≠ 0) ∧
          (InOrder p w → InOrder p w' ∧ listed (w'.mail p) ⊆ listed (w.mail p)) ∨
        ¬ (m.messageType = .normal ∧ m.sender ≠ 0) ∧ w'.mMitems p = w.mMitems p ∧
          listed (w'.mail p) = listed pre ++ listed post) := by
  obtain ⟨m, found, delivered, rfl⟩ := handleMailReturnToSender_eq_some_iff.mp accepted
  obtain ⟨pre, post, whole, -, erased⟩ := split_getMail found
  have live := live_of_delivered delivered
  have before : listed (w.mail p) = listed pre ++ (m.items ++ listed post) := by
    rw [whole, listed_split live]
  refine ⟨m, pre, post, found, delivered, before, ?_⟩
  rw [MailWorld.returned]
  split
  · rename_i sent
    refine Or.inl ⟨sent, fun inOrder => ?_⟩
    rw [InOrder, before] at inOrder
    have rest : listed ((w.forget p mailId).mail p) = listed pre ++ listed post := by
      rw [MailWorld.forget]
      dsimp only
      rw [update_self, erased, listed_append]
    have emptied : InOrder p { w.forget p mailId with
        mMitems := Function.update w.mMitems p (m.items.foldl KeyedList.erase (w.mMitems p)) } := by
      rw [InOrder]
      dsimp only
      rw [rest, update_self]
      exact inOrder.eraseAll
    have fewer : listed ((w.forget p mailId).mail p) ⊆ listed (w.mail p) := by
      rw [rest, before]
      exact ((sublist_append_right _ _).append_left _).subset
    rw [MailWorld.sendReturnToSender]
    split
    · have sentOn := emptied.sendMailTo ⟨w.returnedItems p m, m.money, 0⟩ m.sender
        ⟨.normal, m.receiver⟩ (now.time + now.deliverDelay) fun item returned => by
          have own := guid_mem_of_returned returned
          have once := inOrder.once
          rw [nodup_append, nodup_append] at once
          intro other
          rw [rest] at other
          rcases List.mem_append.mp other with early | late
          · exact once.2.2 _ early _ (mem_append_left _ own) rfl
          · exact once.2.1.2.2 _ own _ late rfl
      refine ⟨sentOn.1, fun guid member => ?_⟩
      rcases List.mem_append.mp (sentOn.2 member) with own | other
      · obtain ⟨item, returned, rfl⟩ := List.mem_map.mp own
        rw [before]
        simp [guid_mem_of_returned returned]
      · exact fewer other
    · exact ⟨emptied, fewer⟩
  · rename_i unsent
    refine Or.inr ⟨unsent, rfl, ?_⟩
    rw [MailWorld.forget]
    dsimp only
    rw [update_self, erased, listed_append]

theorem return_accepted {m : Mail} (found : w.getMail p mailId = some m)
    (delivered : MailWorld.delivered m now.time = true) :
    w.handleMailReturnToSender L p now mailId ≠ none := by
  rw [Option.ne_none_iff_exists']
  exact ⟨_, handleMailReturnToSender_eq_some_iff.mpr ⟨m, found, delivered, rfl⟩⟩

theorem delete_accepted {m : Mail} (found : w.getMail p mailId = some m) (free : m.COD = 0) :
    w.handleMailDelete p mailId ≠ none := by
  rw [MailWorld.handleMailDelete, found]
  dsimp only
  rw [if_neg (by simp [free])]
  exact Option.some_ne_none _

variable {box : Mailbox}

theorem step_of_refused {e : Event} (refused : handle L p box.world e = none) :
    step L p box e = box := by
  rw [step, refused]

theorem step_of_accepted {e : Event} (accepted : handle L p box.world e = some w') :
    step L p box e = ⟨w', takenBy box.taken e⟩ := by
  rw [step, accepted]

theorem Kept.lawful_takeItem_iff (kept : Kept p box) (now : MailCircumstances) (mailId : UInt32)
    (itemId : Nat) : Lawful L p box (.takeItem now mailId itemId) ↔
      Meets L p box (.takeItem now mailId itemId) := by
  cases handled : box.world.handleMailTakeItem L p now mailId itemId with
  | none =>
    refine iff_of_true ⟨?_, fun w' accepted => ?_⟩ fun m it found delivered enough stored fits => ?_
    · rw [step_of_refused (e := .takeItem now mailId itemId) handled]
      exact kept
    · rw [handled] at accepted
      cases accepted
    · exact absurd handled (takeItem_accepted found delivered enough stored fits)
  | some w' =>
    obtain ⟨m, it, found, delivered, enough, stored, fits, money, store, pre, post, before,
      after⟩ := takeItem_cases handled
    constructor
    · rintro ⟨-, paid⟩ m' it' found' - - - -
      obtain ⟨m'', found'', -, lists, exactly⟩ := paid w' handled
      obtain rfl := Option.some.inj (found'.symm.trans found)
      obtain rfl := Option.some.inj (found''.symm.trans found)
      refine ⟨lists, ?_⟩
      rw [money] at exactly
      split at exactly
      · exact (pays_int32_iff (UInt64.le_iff_toNat_le.mp (of_decide_eq_true enough))).mp exactly
      rename_i free
      rw [gt_iff_lt, UInt64.lt_iff_toNat_lt] at free
      have zero : (0 : UInt64).toNat = 0 := rfl
      omega
    · intro meets
      obtain ⟨lists, small⟩ := meets m it found delivered enough stored fits
      have inOrder := kept.inOrder
      rw [InOrder, before] at inOrder
      have erased := inOrder.erase lists
      have gone := (erased.stored itemId).not.mp (by
        rw [find?_erase, if_pos rfl]
        exact fun absurd => absurd rfl)
      have fewer : listed (w'.mail p) ⊆ listed (box.world.mail p) := by
        rw [before, after]
        exact ((List.erase_sublist.append_right _).append_left _).subset
      refine ⟨?_, fun w'' accepted => ⟨m, found, live_of_delivered delivered, lists, ?_⟩⟩
      · rw [step_of_accepted (e := .takeItem now mailId itemId) handled]
        refine ⟨?_, fun guid taken => ?_⟩
        · rw [InOrder, after, store]
          exact erased
        · rcases List.mem_cons.mp taken with rfl | earlier
          · rw [after]
            exact gone
          · exact fun member => kept.gone guid earlier (fewer member)
      · rw [handled] at accepted
        rw [← Option.some.inj accepted, money]
        split
        · exact (pays_int32_iff (UInt64.le_iff_toNat_le.mp (of_decide_eq_true enough))).mpr small
        rename_i free
        rw [gt_iff_lt, UInt64.lt_iff_toNat_lt] at free
        have zero : (0 : UInt64).toNat = 0 := rfl
        omega

theorem Kept.iff_inOrder (kept : Kept p box)
    (fewer : listed (w'.mail p) ⊆ listed (box.world.mail p)) :
    Kept p ⟨w', box.taken⟩ ↔ InOrder p w' :=
  ⟨Kept.inOrder, fun inOrder => ⟨inOrder, fun guid taken member =>
    kept.gone guid taken (fewer member)⟩⟩

theorem subset_of_same (same : listed (w'.mail p) = listed (w.mail p)) :
    listed (w'.mail p) ⊆ listed (w.mail p) := by
  rw [same]
  exact List.Subset.refl _

theorem Kept.lawful_delete_iff (kept : Kept p box) (mailId : UInt32) :
    Lawful L p box (.delete mailId) ↔ Meets L p box (.delete mailId) := by
  rw [Lawful, and_iff_left (show Paid L p box (.delete mailId) from True.intro)]
  cases handled : box.world.handleMailDelete p mailId with
  | none =>
    rw [step_of_refused (e := .delete mailId) handled]
    exact iff_of_true kept fun m found _ free => absurd handled (delete_accepted found free)
  | some w' =>
    rw [step_of_accepted (e := .delete mailId) handled]
    obtain ⟨store, ⟨m, pre, post, found, live, free, before, after⟩ | ⟨deleted, same⟩⟩ :=
      delete_cases handled
    · have inOrder := kept.inOrder
      rw [InOrder, before] at inOrder
      have fewer : listed (w'.mail p) ⊆ listed (box.world.mail p) := by
        rw [before, after]
        exact ((sublist_append_right _ _).append_left _).subset
      change Kept p ⟨w', box.taken⟩ ↔ _
      rw [kept.iff_inOrder fewer, InOrder, after, store, inOrder.dropped_iff]
      constructor
      · intro empty m' found' _ _
        obtain rfl := Option.some.inj (found'.symm.trans found)
        exact empty
      · exact fun meets => meets m found live free
    · change Kept p ⟨w', box.taken⟩ ↔ _
      rw [kept.iff_inOrder (subset_of_same same), InOrder, same, store]
      exact iff_of_true kept.inOrder fun m found live _ => absurd (deleted m found) live

theorem Kept.lawful_takeMoney (kept : Kept p box) (now : MailCircumstances) (mailId : UInt32)
    (money : UInt64) : Lawful L p box (.takeMoney now mailId money) := by
  refine ⟨?_, True.intro⟩
  cases handled : box.world.handleMailTakeMoney p now mailId money with
  | none =>
    rw [step_of_refused (e := .takeMoney now mailId money) handled]
    exact kept
  | some w' =>
    obtain ⟨store, same⟩ := takeMoney_cases handled
    rw [step_of_accepted (e := .takeMoney now mailId money) handled]
    change Kept p ⟨w', box.taken⟩
    rw [kept.iff_inOrder (subset_of_same same), InOrder, same, store]
    exact kept.inOrder

theorem Kept.lawful_return_iff (kept : Kept p box) (now : MailCircumstances) (mailId : UInt32) :
    Lawful L p box (.returnToSender now mailId) ↔ Meets L p box (.returnToSender now mailId) := by
  rw [Lawful, and_iff_left (show Paid L p box (.returnToSender now mailId) from True.intro)]
  cases handled : box.world.handleMailReturnToSender L p now mailId with
  | none =>
    rw [step_of_refused (e := .returnToSender now mailId) handled]
    exact iff_of_true kept fun m found delivered =>
      absurd handled (return_accepted found delivered)
  | some w' =>
    rw [step_of_accepted (e := .returnToSender now mailId) handled]
    change Kept p ⟨w', box.taken⟩ ↔ _
    obtain ⟨m, pre, post, found, delivered, before, ⟨sent, orders⟩ | ⟨unsent, store, after⟩⟩ :=
      return_cases handled
    · obtain ⟨inOrder, fewer⟩ := orders kept.inOrder
      rw [kept.iff_inOrder fewer]
      refine iff_of_true inOrder fun m' found' _ => Or.inl ?_
      obtain rfl := Option.some.inj (found'.symm.trans found)
      exact sent
    · have inOrder := kept.inOrder
      rw [InOrder, before] at inOrder
      have fewer : listed (w'.mail p) ⊆ listed (box.world.mail p) := by
        rw [before, after]
        exact ((sublist_append_right _ _).append_left _).subset
      rw [kept.iff_inOrder fewer, InOrder, after, store, inOrder.dropped_iff]
      constructor
      · intro empty m' found' _
        obtain rfl := Option.some.inj (found'.symm.trans found)
        exact Or.inr empty
      · exact fun meets => (meets m found delivered).resolve_left unsent

theorem Kept.lawful_iff (kept : Kept p box) (e : Event) : Lawful L p box e ↔ Meets L p box e := by
  cases e with
  | takeItem now mailId itemId => exact kept.lawful_takeItem_iff now mailId itemId
  | delete mailId => exact kept.lawful_delete_iff mailId
  | takeMoney now mailId money => exact iff_of_true (kept.lawful_takeMoney now mailId money) True.intro
  | returnToSender now mailId => exact kept.lawful_return_iff now mailId

/-- **Custody of what is attached to mails**: from a mailbox in order on, it stays in order and
every item is paid for exactly when each request is about an item that its mail lists. -/
theorem eachStep_lawful_iff (L : MailRealm) (p : UInt32) (box : Mailbox) (start : Kept p box)
    (events : List Event) :
    Machine.EachStep (step L p) (Lawful L p) box events ↔
      Machine.EachStep (step L p) (Meets L p) box events := by
  refine Machine.eachStep_iff (I := Kept p) start (fun box e kept meets => ?_) fun box e kept =>
    kept.lawful_iff e
  exact (kept.lawful_iff e).mpr meets |>.1

def soldItem (guid : Nat) : Item where
  guid := guid
  entry := 1
  count := 1
  attrs :=
    { owner := 7, soulBound := false, bopTradeable := false, allowedGUIDs := []
      lootGenerated := false, boundByEnchant := false, gems := [], inTrade := false }

/-- A mail of character 8 to character 7. -/
def mailOf (messageID : UInt32) (guid : Nat) (COD : UInt64) : Mail where
  messageID := messageID
  messageType := .normal
  sender := 8
  receiver := 7
  items := [guid]
  removedItems := []
  deliverTime := 0
  money := 0
  COD := COD
  state := .unchanged

def twoMails : Mailbox where
  world :=
    { items := ⟨⟨[], nodup_nil⟩, 100⟩
      money := fun _ => 100
      online := fun p => p = 7
      mailsLoaded := fun p => p = 7
      mail := fun p => if p = 7 then [mailOf 1 5 100, mailOf 2 6 0] else []
      mMitems := fun p => if p = 7 then ⟨[soldItem 5, soldItem 6], by decide⟩ else .empty
      rows := fun _ => []
      mailId := 3 }
  taken := []

theorem zero_not_mem_twoCharacters : (0 : UInt32) ∉ ({7, 8} : Finset UInt32) := by decide

theorem oneAccount_ne_zero : (1 : UInt32) ≠ 0 := by decide

def twoCharacters : MailRealm where
  rules := .tradeGoods 0
  players := {7, 8}
  zero_not_mem := zero_not_mem_twoCharacters
  account := fun _ => 1
  account_ne_zero := fun _ _ => oneAccount_ne_zero

def noon : MailCircumstances := ⟨1, ⟨fun _ _ _ => true, fun _ => 0⟩, true, fun _ => true, 0⟩

theorem kept_twoMails : Kept 7 twoMails := by
  refine ⟨⟨by decide, fun guid => ?_⟩, fun guid taken => by cases taken⟩
  change List.find? _ [soldItem 5, soldItem 6] ≠ none ↔ guid ∈ [5, 6]
  rw [ne_eq, find?_eq_none]
  simp [soldItem]
  tauto

/-- The first item is paid for and its mail deleted. -/
theorem eachStep_lawful_of_own_mail :
    Kept 7 twoMails ∧ Machine.EachStep (step twoCharacters 7) (Lawful twoCharacters 7) twoMails
      [.takeItem noon 1 5, .delete 1] := by
  refine ⟨kept_twoMails, (eachStep_lawful_iff twoCharacters 7 twoMails kept_twoMails _).mpr
    ⟨fun m it found _ _ _ _ => ?_, fun m found _ _ => ?_, True.intro⟩⟩
  · have first : twoMails.world.getMail 7 1 = some (mailOf 1 5 100) := by decide
    obtain rfl := Option.some.inj (first.symm.trans found)
    decide
  · have emptied : ((step twoCharacters 7 twoMails (.takeItem noon 1 5)).world.getMail 7 1).map
        Mail.items = some [] := by decide
    rw [found] at emptied
    exact Option.some.inj emptied

/-- The item of the one mail is taken for nothing through the other. -/
theorem not_lawful_of_other_mail :
    ¬ Machine.EachStep (step twoCharacters 7) (Lawful twoCharacters 7) twoMails
      [.takeItem noon 2 5] := by
  rintro ⟨⟨-, paid⟩, -⟩
  have second : twoMails.world.getMail 7 2 = some (mailOf 2 6 0) := by decide
  have accepted : (twoMails.world.handleMailTakeItem twoCharacters 7 noon 2 5).isSome := by decide
  obtain ⟨w', handled⟩ := Option.isSome_iff_exists.mp accepted
  obtain ⟨m, found, -, lists, -⟩ := paid w' handled
  obtain rfl := Option.some.inj (second.symm.trans found)
  exact absurd lists (by decide)

end Custody

end Sky548
