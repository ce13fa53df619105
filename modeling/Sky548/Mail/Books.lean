import Sky548.Mail.Model

/-!
# The books of the mails

What there is of every mail besides its items: who sent it to whom, its money and its COD. A player's
mails are those in memory once he has opened his mailbox, and the rows before that; `Kept` is what
holds of both and between them, and each part of the handlers keeps it.
-/

namespace Sky548

open List MailWorld
open Function (update comp_apply update_of_ne update_self)

namespace MailMoney

structure Entry where
  id : UInt32
  messageType : MailMessageType
  sender : UInt32
  receiver : UInt32
  money : Nat
  COD : Nat

def Entry.narrow (e : Entry) : Entry := { e with money := e.money % 2 ^ 32, COD := e.COD % 2 ^ 32 }

/-- An entry with other amounts. -/
def Entry.priced (e : Entry) (money COD : Nat) : Entry := { e with money := money, COD := COD }

def ofMail (m : Mail) : Entry where
  id := m.messageID
  messageType := m.messageType
  sender := m.sender
  receiver := m.receiver
  money := m.money.toNat
  COD := m.COD.toNat

def ofRow (row : MailRow) : Entry where
  id := row.id
  messageType := row.messageType
  sender := row.sender
  receiver := row.receiver
  money := row.money.toNat
  COD := row.cod.toNat

/-- The mails of a player: those in memory when he has opened his mailbox, else the rows. -/
def entries (w : MailWorld) (p : UInt32) : List Entry :=
  if w.mailsLoaded p then ((w.mail p).filter fun m => m.state ≠ .deleted).map ofMail
  else (w.rows p).map ofRow

/-- `GenerateMailID` has given its last number and stopped the server. -/
def stopped (w : MailWorld) : Bool := w.mailId > 0xFFFFFFFE

structure Saved (row : Entry) (m : Mail) : Prop where
  live : m.state ≠ .deleted
  who : row = (ofMail m).priced row.money row.COD
  amounts : m.state = .unchanged → row = (ofMail m).narrow

/-- What `_SaveMail` does to a row for one mail that is not deleted. -/
def savedFor (row : MailRow) (m : Mail) : MailRow := (MailWorld.savedRow m row).getD row

variable {row : MailRow} {m : Mail}

theorem ofRow_savedFor (other : row.id = m.messageID → m.state = .unchanged) :
    ofRow (savedFor row m) = ofRow row := by
  rw [savedFor, MailWorld.savedRow]
  split
  · rfl
  · rename_i changed
    have apart : row.id ≠ m.messageID := by
      intro same
      rw [other same] at changed
      cases changed
    rw [Option.getD_some, ofRow, ofRow]
    dsimp only
    rw [if_neg apart, if_neg apart]
  · split <;> rfl

theorem ofRow_savedFor_self (saved : Saved (ofRow row) m) :
    ofRow (savedFor row m) = (ofMail m).narrow := by
  rw [savedFor, MailWorld.savedRow]
  split
  · rename_i unchanged
    exact saved.amounts unchanged
  · have who := saved.who
    rw [ofRow, ofMail, Entry.priced, Entry.mk.injEq] at who
    obtain ⟨id, messageType, sender, receiver, -, -⟩ := who
    rw [Option.getD_some, ofRow, ofMail, Entry.narrow]
    dsimp only
    rw [if_pos id, if_pos id, id, messageType, sender, receiver, UInt64.toNat_toUInt32,
      UInt64.toNat_toUInt32]
  · rename_i deleted
    exact absurd deleted saved.live

variable {mails : List Mail}

theorem saveRows_eq (live : ∀ m ∈ mails, m.state ≠ .deleted) (rows : List MailRow) :
    mails.foldl (fun rows m => rows.filterMap (MailWorld.savedRow m)) rows =
      rows.map fun row => mails.foldl savedFor row := by
  induction mails generalizing rows with
  | nil => exact (List.map_id rows).symm
  | cons m rest ih =>
    have kept : MailWorld.savedRow m = some ∘ fun row => savedFor row m := by
      funext row
      have present : MailWorld.savedRow m row ≠ none := by
        rw [MailWorld.savedRow]
        split
        · exact Option.some_ne_none _
        · exact Option.some_ne_none _
        · rename_i deleted
          exact absurd deleted (live m mem_cons_self)
      rw [comp_apply, savedFor]
      cases saved : MailWorld.savedRow m row with
      | none => exact absurd saved present
      | some row' => rfl
    rw [foldl_cons, kept, filterMap_eq_map, ih fun m member =>
      live m (mem_cons_of_mem _ member), List.map_map]
    rfl

theorem ofRow_foldl_savedFor (other : ∀ m ∈ mails, row.id = m.messageID → m.state = .unchanged) :
    ofRow (mails.foldl savedFor row) = ofRow row := by
  induction mails generalizing row with
  | nil => rfl
  | cons m rest ih =>
    have same := ofRow_savedFor (other m mem_cons_self)
    have sameId : (savedFor row m).id = row.id := congrArg Entry.id same
    rw [foldl_cons, ih fun m member => ?_, same]
    rw [sameId]
    exact other m (mem_cons_of_mem _ member)

theorem ofRow_foldl_savedFor_of_mem
    (once : (mails.map Mail.messageID).Nodup) (member : m ∈ mails) (saved : Saved (ofRow row) m) :
    ofRow (mails.foldl savedFor row) = (ofMail m).narrow := by
  have rowId : row.id = m.messageID := congrArg Entry.id saved.who
  induction mails generalizing row with
  | nil => cases member
  | cons x rest ih =>
    rw [map_cons, nodup_cons] at once
    rw [foldl_cons]
    rcases List.mem_cons.mp member with rfl | later
    · have own := ofRow_savedFor_self saved
      rw [ofRow_foldl_savedFor fun x member same => ?_, own]
      have ownId : (savedFor row m).id = m.messageID := congrArg Entry.id own
      rw [ownId] at same
      exact absurd (List.mem_map.mpr ⟨x, member, same.symm⟩) once.1
    · have other : ofRow (savedFor row x) = ofRow row := ofRow_savedFor fun same => by
        rw [rowId] at same
        exact absurd (List.mem_map.mpr ⟨m, later, same⟩) once.1
      have sameId : (savedFor row x).id = row.id := congrArg Entry.id other
      exact ih once.2 later (other ▸ saved) (sameId.trans rowId)

/-! ## The entries -/

/-- What is kept of an entry of a player. -/
structure Proper (L : MailRealm) (mailId : UInt32) (owed : UInt32 → Nat) (p : UInt32) (e : Entry) :
    Prop where
  normal : e.messageType = .normal
  sender : e.sender ∈ L.players
  receiver : e.receiver = p
  numbered : e.id < mailId
  money : e.money ≤ maxMoneyAmount.toNat
  due : e.COD = owed e.id % 2 ^ 32

/-- Every mail has a number of its own, and none beyond the last one owes anything. -/
structure Entered (L : MailRealm) (mailId : UInt32) (owed : UInt32 → Nat)
    (books : UInt32 → List Entry) : Prop where
  proper : ∀ p, ∀ e ∈ books p, Proper L mailId owed p e
  once : ∀ p, ((books p).map Entry.id).Nodup
  apart : ∀ p q, ∀ e ∈ books p, ∀ f ∈ books q, e.id = f.id → p = q
  later : ∀ id, mailId ≤ id → owed id = 0

section Entered

variable {L : MailRealm} {mailId : UInt32} {owed : UInt32 → Nat} {books : UInt32 → List Entry}
  {p : UInt32} {e e' : Entry} {pre post : List Entry}

section

variable (entered : Entered L mailId owed books)

include entered

theorem Entered.fresh (member : e ∈ books p) : e.id ≠ mailId := by
  intro same
  have below := (entered.proper p e member).numbered
  rw [same] at below
  exact UInt32.lt_irrefl _ below

theorem Entered.cons (next : (mailId + 1).toNat = mailId.toNat + 1) {c : Nat} (id : e.id = mailId)
    (normal : e.messageType = .normal) (sender : e.sender ∈ L.players) (receiver : e.receiver = p)
    (money : e.money ≤ maxMoneyAmount.toNat) (due : e.COD = c % 2 ^ 32) :
    Entered L (mailId + 1) (update owed mailId c) (update books p (e :: books p)) := by
  have inside : ∀ q, ∀ f ∈ update books p (e :: books p) q, q = p ∧ f = e ∨ f ∈ books q := by
    intro q f member
    by_cases here : q = p
    · subst here
      rw [update_self] at member
      rcases List.mem_cons.mp member with new | old
      · exact Or.inl ⟨rfl, new⟩
      · exact Or.inr old
    · rw [update_of_ne here] at member
      exact Or.inr member
  refine ⟨fun q f member => ?_, fun q => ?_, fun q r f fIn g gIn same => ?_, fun j above => ?_⟩
  · rcases inside q f member with ⟨rfl, rfl⟩ | old
    · refine ⟨normal, sender, receiver, ?_, money, ?_⟩
      · rw [id, UInt32.lt_iff_toNat_lt, next]
        exact Nat.lt_succ_self _
      · rw [due, id, update_self]
    · have before := entered.proper q f old
      refine ⟨before.normal, before.sender, before.receiver, ?_, before.money, ?_⟩
      · have below := before.numbered
        rw [UInt32.lt_iff_toNat_lt] at below
        rw [UInt32.lt_iff_toNat_lt, next]
        omega
      · rw [update_of_ne (entered.fresh old)]
        exact before.due
  · by_cases here : q = p
    · subst here
      rw [update_self, map_cons, nodup_cons, id]
      refine ⟨fun again => ?_, entered.once q⟩
      obtain ⟨f, member, same⟩ := List.mem_map.mp again
      exact entered.fresh member same
    · rw [update_of_ne here]
      exact entered.once q
  · rcases inside q f fIn with ⟨rfl, rfl⟩ | fOld
    · rcases inside r g gIn with ⟨rfl, -⟩ | gOld
      · rfl
      · exact absurd (same.symm.trans id) (entered.fresh gOld)
    · rcases inside r g gIn with ⟨rfl, rfl⟩ | gOld
      · exact absurd (same.trans id) (entered.fresh fOld)
      · exact entered.apart q r f fOld g gOld same
  · rw [UInt32.le_iff_toNat_le, next] at above
    have other : j ≠ mailId := by
      intro same
      rw [same] at above
      omega
    rw [update_of_ne other]
    exact entered.later j (by rw [UInt32.le_iff_toNat_le]; omega)

theorem Entered.edit (split : books p = pre ++ e :: post)
    {c : Nat} (id : e'.id = e.id) (normal : e'.messageType = e.messageType)
    (sender : e'.sender = e.sender) (receiver : e'.receiver = e.receiver)
    (money : e'.money ≤ maxMoneyAmount.toNat) (due : e'.COD = c % 2 ^ 32) :
    Entered L mailId (update owed e.id c) (update books p (pre ++ e' :: post)) := by
  have once := entered.once p
  have member : e ∈ books p := by
    rw [split]
    exact mem_append_right pre mem_cons_self
  have inside : ∀ q, ∀ f ∈ update books p (pre ++ e' :: post) q,
      q = p ∧ f = e' ∨ f ∈ books q ∧ f.id ≠ e.id := by
    intro q f fIn
    by_cases here : q = p
    · subst here
      rw [update_self] at fIn
      rw [split, map_append, map_cons, nodup_append, nodup_cons] at once
      rw [split]
      rcases List.mem_append.mp fIn with early | late
      · refine Or.inr ⟨mem_append_left _ early, fun same => ?_⟩
        exact once.2.2 f.id (List.mem_map_of_mem early) e.id mem_cons_self same
      · rcases List.mem_cons.mp late with new | later
        · exact Or.inl ⟨rfl, new⟩
        · refine Or.inr ⟨mem_append_right _ (mem_cons_of_mem _ later), fun same => ?_⟩
          exact once.2.1.1 (same ▸ List.mem_map_of_mem later)
    · rw [update_of_ne here] at fIn
      exact Or.inr ⟨fIn, fun same => here (entered.apart q p f fIn e member same)⟩
  have own := entered.proper p e member
  refine ⟨fun q f fIn => ?_, fun q => ?_, fun q r f fIn g gIn same => ?_, fun j above => ?_⟩
  · rcases inside q f fIn with ⟨rfl, rfl⟩ | ⟨old, other⟩
    · refine ⟨normal.trans own.normal, sender ▸ own.sender, receiver.trans own.receiver, ?_, money,
        ?_⟩
      · rw [id]
        exact own.numbered
      · rw [due, id, update_self]
    · have before := entered.proper q f old
      refine ⟨before.normal, before.sender, before.receiver, before.numbered, before.money, ?_⟩
      rw [update_of_ne other]
      exact before.due
  · by_cases here : q = p
    · subst here
      rw [update_self, map_append, map_cons, id]
      rw [split, map_append, map_cons] at once
      exact once
    · rw [update_of_ne here]
      exact entered.once q
  · rcases inside q f fIn with ⟨rfl, rfl⟩ | ⟨fOld, fOther⟩
    · rcases inside r g gIn with ⟨rfl, -⟩ | ⟨-, gOther⟩
      · rfl
      · exact absurd (same.symm.trans id) gOther
    · rcases inside r g gIn with ⟨rfl, rfl⟩ | ⟨gOld, -⟩
      · exact absurd (same.trans id) fOther
      · exact entered.apart q r f fOld g gOld same
  · have other : j ≠ e.id := by
      intro same
      have below := own.numbered
      rw [← same, UInt32.lt_iff_toNat_lt] at below
      rw [UInt32.le_iff_toNat_le] at above
      omega
    rw [update_of_ne other]
    exact entered.later j above

theorem Entered.sublist {rest : List Entry}
    (fewer : rest.Sublist (books p)) : Entered L mailId owed (update books p rest) := by
  have inside : ∀ q, ∀ f ∈ update books p rest q, f ∈ books q := by
    intro q f member
    by_cases here : q = p
    · subst here
      rw [update_self] at member
      exact fewer.subset member
    · rw [update_of_ne here] at member
      exact member
  refine ⟨fun q f member => entered.proper q f (inside q f member), fun q => ?_,
    fun q r f fIn g gIn => entered.apart q r f (inside q f fIn) g (inside r g gIn), entered.later⟩
  by_cases here : q = p
  · subst here
    rw [update_self]
    exact (entered.once q).sublist (fewer.map Entry.id)
  · rw [update_of_ne here]
    exact entered.once q

theorem Entered.narrow : Entered L mailId owed (update books p ((books p).map Entry.narrow)) := by
  have inside : ∀ q, ∀ f ∈ update books p ((books p).map Entry.narrow) q,
      ∃ g ∈ books q, f = g ∨ f = g.narrow := by
    intro q f member
    by_cases here : q = p
    · subst here
      rw [update_self] at member
      obtain ⟨g, old, rfl⟩ := List.mem_map.mp member
      exact ⟨g, old, Or.inr rfl⟩
    · rw [update_of_ne here] at member
      exact ⟨f, member, Or.inl rfl⟩
  have sameId : ∀ f g : Entry, f = g ∨ f = g.narrow → f.id = g.id := by
    intro f g related
    rcases related with rfl | rfl <;> rfl
  refine ⟨fun q f member => ?_, fun q => ?_, fun q r f fIn g gIn same => ?_, entered.later⟩
  · obtain ⟨g, old, rfl | rfl⟩ := inside q f member
    · exact entered.proper q f old
    · have before := entered.proper q g old
      refine ⟨before.normal, before.sender, before.receiver, before.numbered,
        Nat.le_trans (Nat.mod_le _ _) before.money, ?_⟩
      rw [Entry.narrow, before.due, Nat.mod_mod]
  · by_cases here : q = p
    · subst here
      rw [update_self, List.map_map]
      exact entered.once q
    · rw [update_of_ne here]
      exact entered.once q
  · obtain ⟨f', fOld, fSame⟩ := inside q f fIn
    obtain ⟨g', gOld, gSame⟩ := inside r g gIn
    rw [sameId f f' fSame, sameId g g' gSame] at same
    exact entered.apart q r f' fOld g' gOld same

end

end Entered

/-- **The invariant**: nobody is too rich, what is in memory belongs to the rows, and the mails are
entered. -/
structure Kept (L : MailRealm) (w : MailWorld) (owed : UInt32 → Nat) : Prop where
  rich : ∀ p, (w.money p).toNat ≤ maxMoneyAmount.toNat
  known : ∀ p, w.online p = true → p ∈ L.players
  present : ∀ p, w.mailsLoaded p = true → w.online p = true
  saved : ∀ p, w.mailsLoaded p = true →
    List.Forall₂ (fun row m => Saved (ofRow row) m) (w.rows p) (w.mail p)
  forgotten : ∀ p, w.mailsLoaded p = false → w.mail p = []
  entered : Entered L w.mailId owed (entries w)

variable {L : MailRealm} {w : MailWorld} {owed : UInt32 → Nat}

theorem entries_congr {w' : MailWorld} {q : UInt32} (loaded : w'.mailsLoaded q = w.mailsLoaded q)
    (mail : w'.mail q = w.mail q) (rows : w'.rows q = w.rows q) : entries w' q = entries w q := by
  rw [entries, entries, loaded, mail, rows]

theorem forall₂_mem {α β : Type*} {R S : α → β → Prop} {xs : List α} {ys : List β}
    (related : List.Forall₂ R xs ys) (imp : ∀ x ∈ xs, ∀ y ∈ ys, R x y → S x y) :
    List.Forall₂ S xs ys := by
  induction related with
  | nil => exact .nil
  | cons now _ ih =>
    refine .cons (imp _ mem_cons_self _ mem_cons_self now) (ih fun x xIn y yIn => ?_)
    exact imp x (mem_cons_of_mem _ xIn) y (mem_cons_of_mem _ yIn)

theorem Kept.live (kept : Kept L w owed) (p : UInt32) : ∀ m ∈ w.mail p, m.state ≠ .deleted := by
  intro m member
  cases loaded : w.mailsLoaded p with
  | false =>
    rw [kept.forgotten p loaded] at member
    cases member
  | true =>
    have saved := kept.saved p loaded
    generalize w.rows p = rows at saved
    generalize w.mail p = mails at saved member
    induction saved with
    | nil => cases member
    | cons now _ ih =>
      rcases List.mem_cons.mp member with rfl | later
      · exact now.live
      · exact ih later

theorem entries_of_loaded {p : UInt32} (loaded : w.mailsLoaded p = true)
    (live : ∀ m ∈ w.mail p, m.state ≠ .deleted) : entries w p = (w.mail p).map ofMail := by
  rw [entries, if_pos loaded, List.filter_eq_self.mpr fun m member => decide_eq_true (live m member)]

theorem entries_of_not_loaded {p : UInt32} (absent : w.mailsLoaded p = false) :
    entries w p = (w.rows p).map ofRow := by
  rw [entries, if_neg (by rw [absent]; exact Bool.false_ne_true)]

theorem Kept.hasLoaded_eq (kept : Kept L w owed) (p : UInt32) :
    w.hasLoaded p = w.mailsLoaded p := by
  rw [MailWorld.hasLoaded]
  cases loaded : w.mailsLoaded p with
  | false => exact Bool.and_false _
  | true => rw [kept.present p loaded]; rfl

section SendMailTo

variable {draft : MailDraft} {receiver : UInt32} {sender : MailSender} {deliverTime : Nat}

/-- The entry of a new mail, as the books of its receiver get it. -/
def arrived (w : MailWorld) (draft : MailDraft) (receiver : UInt32) (sender : MailSender) : Entry :=
  let e : Entry :=
    { id := w.mailId
      messageType := sender.messageType
      sender := sender.senderId
      receiver := receiver
      money := draft.money.toNat
      COD := draft.COD.toNat }
  if w.mailsLoaded receiver then e else e.narrow

theorem Kept.entries_sendMailTo (kept : Kept L w owed) :
    entries (w.sendMailTo draft receiver sender deliverTime) = update (entries w) receiver
        (arrived w draft receiver sender :: entries w receiver) := by
  funext q
  rw [entries, sendMailTo_mailsLoaded, sendMailTo_mail, sendMailTo_rows, kept.hasLoaded_eq]
  by_cases same : q = receiver
  · subst same
    rw [update_self, update_self, arrived]
    cases loaded : w.mailsLoaded q with
    | true =>
      rw [if_pos rfl, if_pos rfl, if_pos rfl, entries_of_loaded loaded (kept.live q),
        update_self, List.filter_eq_self.mpr ?_]
      · rfl
      · intro m member
        rcases List.mem_cons.mp member with rfl | old
        · rfl
        · exact decide_eq_true (kept.live q m old)
    | false =>
      rw [if_neg Bool.false_ne_true, if_neg Bool.false_ne_true, entries_of_not_loaded loaded,
        map_cons, ofRow, MailDraft.toRow, Entry.narrow, UInt64.toNat_toUInt32,
        UInt64.toNat_toUInt32]
  · rw [update_of_ne same, update_of_ne same, entries]
    cases w.mailsLoaded receiver with
    | true => rw [if_pos rfl, update_of_ne same]
    | false => rfl

theorem next_mailId (running : stopped w = false) : (w.mailId + 1).toNat = w.mailId.toNat + 1 := by
  have below := of_decide_eq_false running
  rw [gt_iff_lt, UInt32.lt_iff_toNat_lt] at below
  change ¬ 4294967294 < _ at below
  rw [UInt32.toNat_add]
  change (_ + 1) % _ = _
  omega

theorem Kept.sendMailTo (kept : Kept L w owed) {c : Nat} (running : stopped w = false)
    (normal : sender.messageType = .normal) (sent : sender.senderId ∈ L.players)
    (small : draft.money.toNat ≤ maxMoneyAmount.toNat) (due : draft.COD.toNat = c % 2 ^ 32) :
    Kept L (w.sendMailTo draft receiver sender deliverTime) (update owed w.mailId c) := by
  refine ⟨fun p => ?_, fun p => ?_, fun p => ?_, fun p loaded => ?_, fun p absent => ?_, ?_⟩
  · rw [sendMailTo_money]
    exact kept.rich p
  · rw [sendMailTo_online]
    exact kept.known p
  · rw [sendMailTo_online, sendMailTo_mailsLoaded]
    exact kept.present p
  · rw [sendMailTo_mailsLoaded] at loaded
    have saved := kept.saved p loaded
    rw [sendMailTo_rows, sendMailTo_mail, kept.hasLoaded_eq]
    by_cases here : p = receiver
    · subst here
      rw [if_pos loaded, update_self, update_self]
      refine .cons ⟨show MailState.unchanged ≠ .deleted by decide, rfl, fun _ => ?_⟩ saved
      rw [ofRow, MailDraft.toRow, Entry.narrow, UInt64.toNat_toUInt32, UInt64.toNat_toUInt32]
      rfl
    · rw [update_of_ne here]
      split
      · rw [update_of_ne here]
        exact saved
      · exact saved
  · rw [sendMailTo_mailsLoaded] at absent
    rw [sendMailTo_mail, kept.hasLoaded_eq]
    split
    · rename_i loaded
      have other : p ≠ receiver := by
        intro same
        rw [← same, absent] at loaded
        cases loaded
      rw [update_of_ne other]
      exact kept.forgotten p absent
    · exact kept.forgotten p absent
  · rw [sendMailTo_mailId, kept.entries_sendMailTo]
    refine kept.entered.cons (next_mailId running) ?_ ?_ ?_ ?_ ?_ ?_
    · rw [arrived]
      split <;> rfl
    · rw [arrived]
      split <;> exact normal
    · rw [arrived]
      split <;> exact sent
    · rw [arrived]
      split <;> rfl
    · rw [arrived]
      split
      · exact small
      · exact Nat.le_trans (Nat.mod_le _ _) small
    · rw [arrived]
      split
      · exact due
      · rw [Entry.narrow, due, Nat.mod_mod]

end SendMailTo

/-! ## The parts of the handlers -/

variable {p : UInt32}

theorem Kept.with (kept : Kept L w owed) (items : ItemWorld) (store : UInt32 → MailItemMap)
    (money : UInt32 → UInt64) (rich : ∀ p, (money p).toNat ≤ maxMoneyAmount.toNat) :
    Kept L { w with items := items, mMitems := store, money := money } owed :=
  ⟨rich, kept.known, kept.present, kept.saved, kept.forgotten, kept.entered⟩

theorem forall₂_replace {α β : Type*} {R : α → β → Prop} {xs : List α} {pre post : List β} {y z : β}
    (related : List.Forall₂ R xs (pre ++ y :: post)) (imp : ∀ x, R x y → R x z) :
    List.Forall₂ R xs (pre ++ z :: post) := by
  induction pre generalizing xs with
  | nil =>
    cases related with
    | cons now rest => exact .cons (imp _ now) rest
  | cons b pre ih =>
    cases related with
    | cons now rest => exact .cons now (ih rest)

variable {id : UInt32}

theorem Kept.loaded (kept : Kept L w owed) (found : w.getMail p id = some m) :
    w.mailsLoaded p = true := by
  by_contra absent
  rw [MailWorld.getMail, kept.forgotten p (Bool.not_eq_true _ ▸ absent)] at found
  cases found

variable {pre post : List Mail}

theorem Kept.entries_split (kept : Kept L w owed)
    (found : w.getMail p id = some m) (whole : w.mail p = pre ++ m :: post) :
    entries w p = pre.map ofMail ++ ofMail m :: post.map ofMail := by
  rw [entries_of_loaded (kept.loaded found) (kept.live p), whole, map_append, map_cons]

theorem messageID_of_getMail (found : w.getMail p id = some m) : m.messageID = id := by
  rw [MailWorld.getMail] at found
  simpa using find?_some found

theorem Kept.modify (kept : Kept L w owed)
    {f : Mail → Mail} (found : w.getMail p id = some m) (whole : w.mail p = pre ++ m :: post)
    (modified : modifyMail id f (w.mail p) = pre ++ f m :: post) (changed : (f m).state = .changed)
    {c : Nat} (who : ofMail (f m) = (ofMail m).priced (f m).money.toNat (f m).COD.toNat)
    (small : (f m).money.toNat ≤ maxMoneyAmount.toNat) (due : (f m).COD.toNat = c % 2 ^ 32) :
    entries (w.modify p id f) = update (entries w) p
        (pre.map ofMail ++ ofMail (f m) :: post.map ofMail) ∧
      Kept L (w.modify p id f) (update owed id c) := by
  have loaded := kept.loaded found
  have live : ∀ x ∈ pre ++ f m :: post, x.state ≠ .deleted := by
    intro x member
    rcases List.mem_append.mp member with early | late
    · exact kept.live p x (by rw [whole]; exact mem_append_left _ early)
    rcases List.mem_cons.mp late with rfl | later
    · rw [changed]
      decide
    · exact kept.live p x (by
        rw [whole]
        exact mem_append_right _ (mem_cons_of_mem _ later))
  have after : entries (w.modify p id f) = update (entries w) p
      (pre.map ofMail ++ ofMail (f m) :: post.map ofMail) := by
    funext q
    by_cases here : q = p
    · subst here
      have mails : (w.modify q id f).mail q = pre ++ f m :: post := by
        rw [modify_mail, modified]
      rw [update_self,
        entries_of_loaded (w := w.modify q id f) loaded (by rw [mails]; exact live), mails,
        map_append, map_cons]
    · rw [update_of_ne here]
      exact entries_congr rfl (update_of_ne here _ _) rfl
  refine ⟨after, kept.rich, kept.known, kept.present, fun q loaded => ?_, fun q absent => ?_, ?_⟩
  · have saved := kept.saved q loaded
    change List.Forall₂ _ (w.rows q) (update w.mail p (modifyMail id f (w.mail p)) q)
    by_cases here : q = p
    · subst here
      rw [update_self, modified]
      rw [whole] at saved
      refine forall₂_replace saved fun row own => ⟨?_, ?_, fun unchanged => ?_⟩
      · rw [changed]
        decide
      · rw [who]
        exact own.who
      · rw [changed] at unchanged
        cases unchanged
    · rw [update_of_ne here]
      exact saved
  · change update w.mail p _ q = []
    have absent : w.mailsLoaded q = false := absent
    have other : q ≠ p := by
      intro same
      rw [same, kept.loaded found] at absent
      cases absent
    rw [update_of_ne other]
    exact kept.forgotten q absent
  · rw [after]
    have number : (ofMail m).id = id := messageID_of_getMail found
    have edited : Entered L w.mailId (update owed (ofMail m).id c)
        (update (entries w) p (pre.map ofMail ++ ofMail (f m) :: post.map ofMail)) := by
      refine kept.entered.edit (kept.entries_split found whole) ?_ ?_ ?_ ?_ small due
      · rw [who]
        rfl
      · rw [who]
        rfl
      · rw [who]
        rfl
      · rw [who]
        rfl
    rw [number] at edited
    exact edited

def clean (m : Mail) : Mail :=
  if m.state = .changed then { m with state := .unchanged, removedItems := [] } else m

theorem ofMail_clean (m : Mail) : ofMail (clean m) = ofMail m := by
  rw [clean]
  split <;> rfl

theorem clean_unchanged (live : m.state ≠ .deleted) : (clean m).state = .unchanged := by
  rw [clean]
  cases state : m.state with
  | unchanged => rw [if_neg (by decide)]; exact state
  | changed => rw [if_pos rfl]
  | deleted => exact absurd state live

section

variable (kept : Kept L w owed)

include kept

theorem Kept.saveMail_eq (loaded : w.mailsLoaded p = true) : w.saveMail p = { w with
      rows := fun q => (w.rows q).map fun row => (w.mail p).foldl savedFor row
      mail := update w.mail p ((w.mail p).map clean) } := by
  rw [MailWorld.saveMail, if_pos loaded,
    List.filter_eq_self.mpr fun m member => decide_eq_true (kept.live p m member)]
  congr 1
  funext q
  exact saveRows_eq (kept.live p) (w.rows q)

theorem Kept.mem_entries (member : m ∈ w.mail p) : ofMail m ∈ entries w p := by
  cases loaded : w.mailsLoaded p with
  | false =>
    rw [kept.forgotten p loaded] at member
    cases member
  | true =>
    rw [entries_of_loaded loaded (kept.live p)]
    exact List.mem_map_of_mem member

theorem Kept.ofRow_other {q : UInt32} (other : q ≠ p)
    {e : Entry} (member : e ∈ entries w q) (same : row.id = e.id) :
    ofRow ((w.mail p).foldl savedFor row) = ofRow row := by
  refine ofRow_foldl_savedFor fun m own again => absurd ?_ other
  exact kept.entered.apart q p e member (ofMail m) (kept.mem_entries own) (same.symm.trans again)

theorem Kept.saveMail (p : UInt32) :
    entries (w.saveMail p) = entries w ∧ Kept L (w.saveMail p) owed ∧
      ∀ m ∈ (w.saveMail p).mail p, m.state = .unchanged := by
  cases loaded : w.mailsLoaded p with
  | false =>
    have same : w.saveMail p = w := by
      rw [MailWorld.saveMail, if_neg (by rw [loaded]; exact Bool.false_ne_true)]
    rw [same, kept.forgotten p loaded]
    exact ⟨rfl, kept, fun m member => by cases member⟩
  | true =>
    rw [kept.saveMail_eq loaded]
    have after : entries { w with
        rows := fun q => (w.rows q).map fun row => (w.mail p).foldl savedFor row
        mail := update w.mail p ((w.mail p).map clean) } = entries w := by
      funext q
      rw [entries]
      dsimp only
      by_cases here : q = p
      · subst here
        rw [if_pos loaded, update_self, List.filter_eq_self.mpr, List.map_map,
          entries_of_loaded loaded (kept.live q)]
        · exact map_congr_left fun m _ => ofMail_clean m
        · intro m member
          obtain ⟨x, old, rfl⟩ := List.mem_map.mp member
          rw [clean_unchanged (kept.live q x old)]
          rfl
      · rw [update_of_ne here, entries]
        cases other : w.mailsLoaded q with
        | true => rfl
        | false =>
          rw [if_neg Bool.false_ne_true, if_neg Bool.false_ne_true, List.map_map]
          refine map_congr_left fun row member => ?_
          have entered : ofRow row ∈ entries w q := by
            rw [entries_of_not_loaded other]
            exact List.mem_map_of_mem member
          exact kept.ofRow_other here entered rfl
    refine ⟨after, ⟨kept.rich, kept.known, kept.present, fun q loadedQ => ?_, fun q absent => ?_,
      after ▸ kept.entered⟩, fun m member => ?_⟩
    · dsimp only
      have saved := kept.saved q loadedQ
      rw [forall₂_map_left_iff]
      by_cases here : q = p
      · subst here
        rw [update_self, forall₂_map_right_iff]
        have once := kept.entered.once q
        rw [entries_of_loaded loaded (kept.live q), List.map_map] at once
        refine forall₂_mem saved fun row _ m member own => ?_
        have unchanged := clean_unchanged own.live
        have written := ofRow_foldl_savedFor_of_mem once member own
        rw [written]
        refine ⟨?_, ?_, fun _ => ?_⟩
        · rw [unchanged]
          decide
        · rw [ofMail_clean]
          rfl
        · rw [ofMail_clean]
      · rw [update_of_ne here]
        refine forall₂_mem saved fun row _ m member own => ?_
        rw [kept.ofRow_other here (kept.mem_entries member) (congrArg Entry.id own.who)]
        exact own
    · dsimp only
      have other : q ≠ p := by
        intro same
        rw [same] at absent
        exact absurd loaded (by rw [absent]; exact Bool.false_ne_true)
      rw [update_of_ne other]
      exact kept.forgotten q absent
    · dsimp only at member
      rw [update_self] at member
      obtain ⟨x, old, rfl⟩ := List.mem_map.mp member
      exact clean_unchanged (kept.live p x old)

theorem Kept.login (member : p ∈ L.players) : Kept L (w.login p) owed := by
  refine ⟨kept.rich, fun q => ?_, fun q loaded => ?_, kept.saved, kept.forgotten, kept.entered⟩
  · rw [MailWorld.login]
    dsimp only
    by_cases here : q = p
    · rw [here]
      exact fun _ => member
    · rw [update_of_ne here]
      exact kept.known q
  · rw [MailWorld.login]
    dsimp only
    by_cases here : q = p
    · rw [here, update_self]
    · rw [update_of_ne here]
      exact kept.present q loaded

theorem Kept.loadMail (online : w.online p = true) (absent : w.mailsLoaded p = false) :
    entries (w.loadMail p) = entries w ∧ Kept L (w.loadMail p) owed := by
  have after : entries (w.loadMail p) = entries w := by
    funext q
    by_cases here : q = p
    · subst here
      have nowLoaded : (w.loadMail q).mailsLoaded q = true := by
        rw [MailWorld.loadMail]
        exact update_self ..
      have mails : (w.loadMail q).mail q = (w.rows q).map MailWorld.loadedMail := by
        rw [MailWorld.loadMail]
        exact update_self ..
      rw [entries_of_loaded nowLoaded, mails, List.map_map, entries_of_not_loaded absent]
      · rfl
      · rw [mails]
        intro m member
        obtain ⟨row, -, rfl⟩ := List.mem_map.mp member
        exact show MailState.unchanged ≠ .deleted by decide
    · exact entries_congr (update_of_ne here _ _) (update_of_ne here _ _) rfl
  refine ⟨after, kept.rich, kept.known, fun q loaded => ?_, fun q loaded => ?_, fun q absentQ => ?_,
    after ▸ kept.entered⟩
  · rw [MailWorld.loadMail] at loaded ⊢
    dsimp only at loaded ⊢
    by_cases here : q = p
    · rw [here]
      exact online
    · rw [update_of_ne here] at loaded
      exact kept.present q loaded
  · rw [MailWorld.loadMail] at loaded ⊢
    dsimp only at loaded ⊢
    by_cases here : q = p
    · subst here
      rw [update_self, forall₂_map_right_iff]
      refine List.forall₂_same.mpr fun row _ => ⟨show MailState.unchanged ≠ .deleted by decide, rfl,
        fun _ => ?_⟩
      rw [ofRow, ofMail, Entry.narrow, MailWorld.loadedMail]
      rw [UInt32.toNat_toUInt64, UInt32.toNat_toUInt64, Nat.mod_eq_of_lt row.money.toNat_lt,
        Nat.mod_eq_of_lt row.cod.toNat_lt]
    · rw [update_of_ne here] at loaded ⊢
      exact kept.saved q loaded
  · rw [MailWorld.loadMail] at absentQ ⊢
    dsimp only at absentQ ⊢
    by_cases here : q = p
    · rw [here, update_self] at absentQ
      cases absentQ
    · rw [update_of_ne here] at absentQ ⊢
      exact kept.forgotten q absentQ

theorem Kept.logout (p : UInt32) : entries (w.logout p) = (if w.mailsLoaded p then
        update (entries w) p ((entries w p).map Entry.narrow)
      else entries w) ∧ Kept L (w.logout p) owed := by
  obtain ⟨same, after, unchanged⟩ := kept.saveMail p
  have rows : w.mailsLoaded p = true →
      ((w.saveMail p).rows p).map ofRow = (entries w p).map Entry.narrow := by
    intro loaded
    rw [← saveMail_mailsLoaded w p] at loaded
    have saved := after.saved p loaded
    rw [← same, entries_of_loaded loaded (after.live p), List.map_map]
    have equal : List.Forall₂ (fun row m => ofRow row = (Entry.narrow ∘ ofMail) m)
        ((w.saveMail p).rows p) ((w.saveMail p).mail p) :=
      forall₂_mem saved fun row _ m member own => own.amounts (unchanged m member)
    have equal := List.forall₂_map_right_iff.mpr (List.forall₂_map_left_iff.mpr equal)
    rw [forall₂_eq_eq_eq] at equal
    exact equal
  have entered : entries (w.logout p) = if w.mailsLoaded p then
      update (entries w) p ((entries w p).map Entry.narrow) else entries w := by
    funext q
    by_cases here : q = p
    · subst here
      have gone : (w.logout q).mailsLoaded q = false := by
        rw [MailWorld.logout]
        exact update_self ..
      rw [entries_of_not_loaded gone]
      change ((w.saveMail q).rows q).map ofRow = _
      split
      · rename_i loaded
        rw [update_self]
        exact rows loaded
      · rename_i absent
        rw [MailWorld.saveMail, if_neg absent, entries_of_not_loaded (Bool.not_eq_true _ ▸ absent)]
    · have other : entries (w.logout p) q = entries (w.saveMail p) q :=
        entries_congr (update_of_ne here _ _) (update_of_ne here _ _) rfl
      rw [other, same]
      split
      · rw [update_of_ne here]
      · rfl
  refine ⟨entered, fun q => ?_, fun q online => ?_, fun q loaded => ?_, fun q loaded => ?_,
    fun q absent => ?_, ?_⟩
  · exact after.rich q
  · rw [MailWorld.logout] at online
    dsimp only at online
    by_cases here : q = p
    · rw [here, update_self] at online
      cases online
    · rw [update_of_ne here] at online
      exact after.known q online
  · rw [MailWorld.logout] at loaded ⊢
    dsimp only at loaded ⊢
    by_cases here : q = p
    · rw [here, update_self] at loaded
      cases loaded
    · rw [update_of_ne here] at loaded ⊢
      exact after.present q loaded
  · rw [MailWorld.logout] at loaded ⊢
    dsimp only at loaded ⊢
    by_cases here : q = p
    · rw [here, update_self] at loaded
      cases loaded
    · rw [update_of_ne here] at loaded ⊢
      exact after.saved q loaded
  · rw [MailWorld.logout] at absent ⊢
    dsimp only at absent ⊢
    by_cases here : q = p
    · rw [here, update_self]
    · rw [update_of_ne here] at absent ⊢
      exact after.forgotten q absent
  · rw [entered]
    change Entered L (w.saveMail p).mailId _ _
    rw [saveMail_mailId]
    split
    · exact kept.entered.narrow
    · exact kept.entered

end

theorem forall₂_forget {rows : List MailRow}
    (saved : List.Forall₂ (fun row m => Saved (ofRow row) m) rows mails)
    (once : (mails.map Mail.messageID).Nodup) :
    List.Forall₂ (fun row m => Saved (ofRow row) m) (rows.filter fun row => row.id ≠ id)
      (mails.eraseP fun m => m.messageID = id) := by
  induction saved with
  | nil => exact .nil
  | @cons row m rows mails now rest ih =>
    have rowId : row.id = m.messageID := congrArg Entry.id now.who
    rw [map_cons, nodup_cons] at once
    by_cases here : m.messageID = id
    · rw [eraseP_cons_of_pos (by simpa using here),
        filter_cons_of_neg (by simpa using rowId.trans here), List.filter_eq_self.mpr]
      · exact rest
      · intro other member
        refine decide_eq_true fun again => once.1 ?_
        have ids : rows.map MailRow.id = mails.map Mail.messageID := by
          have equal := List.forall₂_map_right_iff.mpr (List.forall₂_map_left_iff.mpr
            (rest.imp fun row m own => (congrArg Entry.id own.who : row.id = m.messageID)))
          rw [forall₂_eq_eq_eq] at equal
          exact equal
        rw [← ids, here, ← again]
        exact List.mem_map_of_mem member
    · rw [eraseP_cons_of_neg (by simpa using here),
        filter_cons_of_pos (by simpa using fun same => here (rowId.symm.trans same))]
      exact .cons now (ih once.2)

theorem Kept.forget (kept : Kept L w owed)
    (found : w.getMail p id = some m) (whole : w.mail p = pre ++ m :: post)
    (erased : (w.mail p).eraseP (fun m => m.messageID = id) = pre ++ post) :
    entries (w.forget p id) = update (entries w) p (pre.map ofMail ++ post.map ofMail) ∧
      Kept L (w.forget p id) owed := by
  have loaded := kept.loaded found
  have number := messageID_of_getMail found
  have own : ofMail m ∈ entries w p := by
    rw [kept.entries_split found whole]
    exact mem_append_right _ mem_cons_self
  have elsewhere : ∀ q, q ≠ p → ∀ e ∈ entries w q, e.id ≠ id := fun q other e member same =>
    other (kept.entered.apart q p e member _ own (same.trans number.symm))
  have mails : (w.forget p id).mail p = pre ++ post := by
    rw [MailWorld.forget]
    dsimp only
    rw [update_self, erased]
  have after : entries (w.forget p id) =
      update (entries w) p (pre.map ofMail ++ post.map ofMail) := by
    funext q
    by_cases here : q = p
    · subst here
      rw [update_self, entries_of_loaded (w := w.forget q id) loaded, mails, map_append]
      rw [mails]
      intro x member
      refine kept.live q x ?_
      rw [whole]
      exact ((sublist_cons_self m post).append_left pre).subset member
    · rw [update_of_ne here]
      cases loadedQ : w.mailsLoaded q with
      | true =>
        rw [entries, entries, if_pos loadedQ]
        change (if w.mailsLoaded q = true then _ else _) = _
        rw [if_pos loadedQ, MailWorld.forget]
        dsimp only
        rw [update_of_ne here]
      | false =>
        have stays : (w.rows q).filter (fun row => row.id ≠ id) = w.rows q := by
          refine List.filter_eq_self.mpr fun row member => decide_eq_true ?_
          refine elsewhere q here (ofRow row) ?_
          rw [entries_of_not_loaded loadedQ]
          exact List.mem_map_of_mem member
        rw [entries_of_not_loaded loadedQ,
          entries_of_not_loaded (w := w.forget p id) loadedQ, ← stays]
        rfl
  refine ⟨after, kept.rich, kept.known, kept.present, fun q loadedQ => ?_, fun q absent => ?_, ?_⟩
  · have loadedQ : w.mailsLoaded q = true := loadedQ
    have once := kept.entered.once q
    rw [entries_of_loaded loadedQ (kept.live q), List.map_map] at once
    have fewer := (forall₂_forget (kept.saved q loadedQ) once : List.Forall₂ _
      ((w.rows q).filter fun row => row.id ≠ id) _)
    rw [MailWorld.forget]
    dsimp only
    by_cases here : q = p
    · subst here
      rw [update_self]
      exact fewer
    rw [update_of_ne here]
    have stays : (w.mail q).eraseP (fun m => m.messageID = id) = w.mail q := by
      refine eraseP_of_forall_not fun m member same => ?_
      exact elsewhere q here _ (kept.mem_entries member) (of_decide_eq_true same)
    rw [stays] at fewer
    exact fewer
  · rw [MailWorld.forget]
    dsimp only
    have other : q ≠ p := by
      intro same
      rw [same] at absent
      have absent : w.mailsLoaded p = false := absent
      exact absurd loaded (by rw [absent]; exact Bool.false_ne_true)
    rw [update_of_ne other]
    exact kept.forgotten q absent
  · rw [after]
    refine kept.entered.sublist ?_
    rw [kept.entries_split found whole]
    exact (sublist_cons_self _ _).append_left _

end MailMoney

end Sky548
