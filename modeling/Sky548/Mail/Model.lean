import Mathlib.Data.Finset.Basic
import Sky548.Items.Inventory
import Sky548.Items.Money
import Sky548.ObjectGuid

/-!
# Mail

`MailDraft::SendMailTo`, the mailbox handlers and the two places a mail is kept in. Every mail is a
row of the table `mail`, whose money and COD are written as 32 bits; a player who is online and has
opened his mailbox also has it in memory (`m_mail`), with 64 bits, and its items in a map of their
own (`mMitems`). `_SaveMail` writes what has changed in memory, `_LoadMail` reads the rows.

Players are named by the low part of their GUID.
-/

namespace Sky548

open Function (update)

inductive MailMessageType
  | normal
  | auction
  | creature
  | gameobject
  | calendar
  deriving DecidableEq

inductive MailState
  | unchanged
  | changed
  | deleted
  deriving DecidableEq

/-- A mail in memory; of its items the GUIDs. -/
structure Mail where
  messageID : UInt32
  messageType : MailMessageType
  sender : UInt32
  receiver : UInt32
  items : List Nat
  removedItems : List Nat
  deliverTime : Nat
  money : UInt64
  COD : UInt64
  state : MailState
  deriving DecidableEq

structure MailRow where
  id : UInt32
  messageType : MailMessageType
  sender : UInt32
  receiver : UInt32
  items : List Item
  deliverTime : Nat
  money : UInt32
  cod : UInt32

abbrev MailItemMap := KeyedList Item Stack.guid

structure MailDraft where
  items : MailItemMap
  money : UInt64
  COD : UInt64

structure MailSender where
  messageType : MailMessageType
  senderId : UInt32

/-- What does not change: the items and the characters that exist, with their accounts. -/
structure MailRealm where
  rules : ItemRules
  players : Finset UInt32
  zero_not_mem : 0 ∉ players
  account : UInt32 → UInt32
  account_ne_zero : ∀ p ∈ players, account p ≠ 0

/-- What the players own, and their mails. -/
structure MailWorld where
  items : ItemWorld
  money : UInt32 → UInt64
  online : UInt32 → Bool
  mailsLoaded : UInt32 → Bool
  mail : UInt32 → List Mail
  mMitems : UInt32 → MailItemMap
  /-- the rows of a receiver, the newest first -/
  rows : UInt32 → List MailRow
  mailId : UInt32

/-- `CMSG_SEND_MAIL`; the receiver is looked up by his name. -/
structure SendMailPacket where
  receiver : Option UInt32
  itemGuids : List Nat
  money : UInt64
  COD : UInt64

/-- What is asked at some moment beside the mails: the time, the owner and the state of items,
whether level and faction allow a mail, and how long the delivery takes. -/
structure MailCircumstances where
  time : Nat
  owner : Circumstances
  allowed : Bool
  sendable : Item → Bool
  deliverDelay : Nat

def maxMailItems : Nat := 12

def setOwnerGUID (receiver : UInt32) (item : Item) : Item :=
  { item with attrs := { item.attrs with owner := playerGuid receiver } }

def modifyMail (id : UInt32) (f : Mail → Mail) : List Mail → List Mail
  | [] => []
  | m :: rest => if m.messageID = id then f m :: rest else m :: modifyMail id f rest

def MailDraft.toRow (draft : MailDraft) (mailId receiver : UInt32) (sender : MailSender)
    (deliverTime : Nat) : MailRow where
  id := mailId
  messageType := sender.messageType
  sender := sender.senderId
  receiver := receiver
  items := draft.items.toList.map (setOwnerGUID receiver)
  deliverTime := deliverTime
  money := draft.money.toUInt32
  cod := draft.COD.toUInt32

def MailDraft.toMail (draft : MailDraft) (mailId receiver : UInt32) (sender : MailSender)
    (deliverTime : Nat) : Mail where
  messageID := mailId
  messageType := sender.messageType
  sender := sender.senderId
  receiver := receiver
  items := draft.items.toList.map Stack.guid
  removedItems := []
  deliverTime := deliverTime
  money := draft.money
  COD := draft.COD
  state := .unchanged

namespace MailWorld

variable (L : MailRealm) (w : MailWorld) (p : UInt32)

def getMail (id : UInt32) : Option Mail := (w.mail p).find? fun m => m.messageID = id

theorem split_getMail {w : MailWorld} {p id : UInt32} {m : Mail} (found : w.getMail p id = some m) :
    ∃ pre post, w.mail p = pre ++ m :: post ∧
      (∀ f, modifyMail id f (w.mail p) = pre ++ f m :: post) ∧
      (w.mail p).eraseP (fun m => m.messageID = id) = pre ++ post := by
  rw [getMail] at found
  generalize w.mail p = mails at found
  induction mails with
  | nil => cases found
  | cons x rest ih =>
    by_cases here : x.messageID = id
    · rw [List.find?_cons_of_pos (by simpa using here)] at found
      obtain rfl := Option.some.inj found
      refine ⟨[], rest, rfl, fun f => ?_, ?_⟩
      · rw [modifyMail, if_pos here]
        rfl
      · rw [List.eraseP_cons_of_pos (by simpa using here)]
        rfl
    · rw [List.find?_cons_of_neg (by simpa using here)] at found
      obtain ⟨pre, post, whole, modified, erased⟩ := ih found
      refine ⟨x :: pre, post, by rw [whole]; rfl, fun f => ?_, ?_⟩
      · rw [modifyMail, if_neg here, modified]
        rfl
      · rw [List.eraseP_cons_of_neg (by simpa using here), erased]
        rfl

/-- The world once the mail that `GetMail` finds is changed. -/
def modify (id : UInt32) (f : Mail → Mail) : MailWorld :=
  { w with mail := update w.mail p (modifyMail id f (w.mail p)) }

@[simp] theorem modify_mail (id : UInt32) (f : Mail → Mail) :
    (w.modify p id f).mail p = modifyMail id f (w.mail p) := by
  rw [modify]
  dsimp only
  rw [Function.update_self]

/-- Whether a character exists: he is online or has an account. -/
def knows : Bool := w.online p || L.account p ≠ 0

/-- Whether a player has his mails in memory. -/
def hasLoaded : Bool := w.online p && w.mailsLoaded p

def sendMailTo (draft : MailDraft) (receiver : UInt32) (sender : MailSender) (deliverTime : Nat) :
    MailWorld :=
  let row := draft.toRow w.mailId receiver sender deliverTime
  let m := draft.toMail w.mailId receiver sender deliverTime
  let w := { w with
    rows := update w.rows receiver (row :: w.rows receiver)
    mailId := w.mailId + 1 }
  if w.hasLoaded receiver then
    { w with
      mail := update w.mail receiver (m :: w.mail receiver)
      mMitems := update w.mMitems receiver
        (draft.items.toList.foldl KeyedList.insert (w.mMitems receiver)) }
  else w

section SendMailTo

variable (draft : MailDraft) (receiver : UInt32) (sender : MailSender) (deliverTime : Nat)

@[simp] theorem sendMailTo_money :
    (w.sendMailTo draft receiver sender deliverTime).money = w.money := by
  rw [sendMailTo]
  split <;> rfl

@[simp] theorem sendMailTo_online :
    (w.sendMailTo draft receiver sender deliverTime).online = w.online := by
  rw [sendMailTo]
  split <;> rfl

@[simp] theorem sendMailTo_mailsLoaded :
    (w.sendMailTo draft receiver sender deliverTime).mailsLoaded = w.mailsLoaded := by
  rw [sendMailTo]
  split <;> rfl

@[simp] theorem sendMailTo_mailId :
    (w.sendMailTo draft receiver sender deliverTime).mailId = w.mailId + 1 := by
  rw [sendMailTo]
  split <;> rfl

@[simp] theorem sendMailTo_rows :
    (w.sendMailTo draft receiver sender deliverTime).rows = update w.rows receiver
      (draft.toRow w.mailId receiver sender deliverTime :: w.rows receiver) := by
  rw [sendMailTo]
  split <;> rfl

theorem sendMailTo_mail : (w.sendMailTo draft receiver sender deliverTime).mail =
      if w.hasLoaded receiver then update w.mail receiver
        (draft.toMail w.mailId receiver sender deliverTime :: w.mail receiver)
      else w.mail := by
  rw [sendMailTo]
  rw [apply_ite MailWorld.mail]
  rfl

theorem sendMailTo_mMitems : (w.sendMailTo draft receiver sender deliverTime).mMitems =
      if w.hasLoaded receiver then update w.mMitems receiver
        (draft.items.toList.foldl KeyedList.insert (w.mMitems receiver))
      else w.mMitems := by
  rw [sendMailTo]
  rw [apply_ite MailWorld.mMitems]
  rfl

end SendMailTo

/-- `SendReturnToSender`; without a receiver the items are deleted. -/
def sendReturnToSender (draft : MailDraft) (sender receiver : UInt32) (deliverTime : Nat) :
    MailWorld :=
  if w.knows L receiver then w.sendMailTo draft receiver ⟨.normal, sender⟩ deliverTime else w

/-- The row of a mail once the mail is saved; `none` if it is deleted. -/
def savedRow (m : Mail) (row : MailRow) : Option MailRow :=
  match m.state with
  | .unchanged => some row
  | .changed =>
    some { row with
      items := row.items.filter fun item => item.guid ∉ m.removedItems
      money := if row.id = m.messageID then m.money.toUInt32 else row.money
      cod := if row.id = m.messageID then m.COD.toUInt32 else row.cod
      deliverTime := if row.id = m.messageID then m.deliverTime else row.deliverTime }
  | .deleted =>
    if row.id = m.messageID then none
    else some { row with items := row.items.filter fun item => item.guid ∉ m.items }

def saveMail : MailWorld :=
  if w.mailsLoaded p then
    { w with
      rows := fun q =>
        (w.mail p).foldl (fun rows m => rows.filterMap (savedRow m)) (w.rows q)
      mail := update w.mail p (((w.mail p).filter fun m => m.state ≠ .deleted).map fun m =>
          if m.state = .changed then { m with state := .unchanged, removedItems := [] } else m) }
  else w

@[simp] theorem saveMail_money : (w.saveMail p).money = w.money := by
  rw [saveMail]
  split <;> rfl

@[simp] theorem saveMail_mailsLoaded : (w.saveMail p).mailsLoaded = w.mailsLoaded := by
  rw [saveMail]
  split <;> rfl

@[simp] theorem saveMail_mMitems : (w.saveMail p).mMitems = w.mMitems := by
  rw [saveMail]
  split <;> rfl

@[simp] theorem saveMail_mailId : (w.saveMail p).mailId = w.mailId := by
  rw [saveMail]
  split <;> rfl

def loadedMail (row : MailRow) : Mail where
  messageID := row.id
  messageType := row.messageType
  sender := row.sender
  receiver := row.receiver
  items := row.items.map Stack.guid
  removedItems := []
  deliverTime := row.deliverTime
  money := row.money.toUInt64
  COD := row.cod.toUInt64
  state := .unchanged

def loadMail : MailWorld :=
  { w with
    mail := update w.mail p ((w.rows p).map loadedMail)
    mMitems := update w.mMitems p
      ((w.rows p).flatMap MailRow.items |>.foldl KeyedList.insert (w.mMitems p))
    mailsLoaded := update w.mailsLoaded p true }

def login : MailWorld := { w with online := update w.online p true }

def logout : MailWorld :=
  let w := w.saveMail p
  { w with
    online := update w.online p false
    mailsLoaded := update w.mailsLoaded p false
    mail := update w.mail p []
    mMitems := update w.mMitems p .empty }

/-! ## Handlers

Each gives the world after a request that is accepted, and `none` for one that is refused. -/

/-- The price of sending, hardcoded in the client. -/
def postage (itemCount : Nat) : UInt32 := if itemCount = 0 then 30 else 30 * UInt32.ofNat itemCount

/-- What the sender has to own, as 64 bits. -/
def reqmoney (packet : SendMailPacket) : UInt64 :=
  (postage packet.itemGuids.length).toUInt64 + packet.money

/-- The number of a receiver's mails, as the sender is told, of 8 bits. -/
def mailsCount : UInt8 :=
  if w.online p then UInt8.ofNat (w.mail p).length else UInt8.ofNat (w.rows p).length

def mailable (now : MailCircumstances) (guid : Nat) : Bool :=
  match L.rules.getItemByGuid w.items (playerGuid p) guid with
  | some (_, item) =>
    guid ≠ 0 && L.rules.canBeTraded w.items now.owner item true false && now.sendable item &&
      !L.rules.isNotEmptyBag w.items item
  | none => false

/-- An item goes from the inventory into the draft. -/
def attach (receiver : UInt32) (x : ItemWorld × MailItemMap) (guid : Nat) :
    ItemWorld × MailItemMap :=
  match L.rules.getItemByGuid x.1 (playerGuid p) guid with
  | some (.inventory player bag slot, item) =>
    (L.rules.moveItemFromInventory x.1 player bag slot, x.2.insert (setOwnerGUID receiver item))
  | _ => x

/-- The checks of `HandleSendMail`, of a sender who is not a game master: the receiver, when they
all pass. -/
def checkSendMail (now : MailCircumstances) (packet : SendMailPacket) : Option UInt32 :=
  match packet.receiver with
  | none => none
  | some receiver =>
    if packet.itemGuids.length > maxMailItems then none
    else if receiver ∉ L.players ∨ p = receiver then none
    else if !hasEnoughMoney (w.money p) (reqmoney packet) then none
    else if w.mailsCount receiver > 100 then none
    else if !now.allowed then none
    else if !packet.itemGuids.all (w.mailable L p now) then none
    else some receiver

def handleSendMail (now : MailCircumstances) (packet : SendMailPacket) : Option MailWorld :=
  match w.checkSendMail L p now packet with
  | none => none
  | some receiver =>
    let money := (modifyMoney (w.money p) (-toInt64 (reqmoney packet).toNat)).getD (w.money p)
    let moved := packet.itemGuids.foldl (attach L p receiver) (w.items, .empty)
    let w := { w with items := moved.1, money := update w.money p money }
    -- `AddCOD` takes an `uint32`
    some (w.sendMailTo ⟨moved.2, packet.money, packet.COD.toUInt32.toUInt64⟩ receiver ⟨.normal, p⟩
      (now.time + now.deliverDelay))

/-- `HandleMailDelete`; there is no such mail or it is marked as deleted. -/
def handleMailDelete (mailId : UInt32) : Option MailWorld :=
  match w.getMail p mailId with
  | none => some w
  | some m =>
    if m.COD ≠ 0 then none
    else some (w.modify p mailId fun m => { m with state := .deleted })

/-- Whether a mail can be opened. -/
def delivered (m : Mail) (time : Nat) : Bool := m.state ≠ .deleted && m.deliverTime ≤ time

def returnedItems (m : Mail) : MailItemMap :=
  m.items.foldl (fun draft guid =>
    match (w.mMitems p).find? guid with
    | some item => draft.insert item
    | none => draft) .empty

/-- A mail is taken out of the memory and of the rows. -/
def forget (mailId : UInt32) : MailWorld :=
  { w with
    rows := fun q => (w.rows q).filter fun row => row.id ≠ mailId
    mail := update w.mail p ((w.mail p).eraseP fun m => m.messageID = mailId) }

/-- The world once a mail has gone back; only a normal mail that somebody sent does. -/
def returned (now : MailCircumstances) (mailId : UInt32) (m : Mail) : MailWorld :=
  let draft : MailDraft := ⟨w.returnedItems p m, m.money, 0⟩
  let w := w.forget p mailId
  if m.messageType = .normal ∧ m.sender ≠ 0 then
    let w := { w with
      mMitems := update w.mMitems p (m.items.foldl KeyedList.erase (w.mMitems p)) }
    w.sendReturnToSender L draft m.receiver m.sender (now.time + now.deliverDelay)
  else w

def handleMailReturnToSender (now : MailCircumstances) (mailId : UInt32) : Option MailWorld :=
  match w.getMail p mailId with
  | none => none
  | some m => if !delivered m now.time then none else some (w.returned L p now mailId m)

/-- The COD of a mail is paid: its sender is sent it, if he exists, and the taker loses it. -/
def payCOD (now : MailCircumstances) (m : Mail) : MailWorld :=
  if m.COD > 0 then
    let w := if w.knows L m.sender then
        w.sendMailTo ⟨.empty, m.COD, 0⟩ m.sender ⟨.normal, m.receiver⟩ now.time
      else w
    { w with
      money := update w.money p
        ((modifyMoney (w.money p) (toInt32 (-toInt32 m.COD.toNat))).getD (w.money p)) }
  else w

def withoutItem (itemId : Nat) (m : Mail) : Mail :=
  { m with
    items := m.items.erase itemId
    removedItems := m.removedItems ++ [itemId]
    COD := 0
    state := .changed }

def itemTaken (now : MailCircumstances) (mailId : UInt32) (itemId : Nat) (m : Mail) (it : Item)
    (dest : ItemPosCountVec) : MailWorld :=
  let w := (w.modify p mailId (withoutItem itemId)).payCOD L p now m
  saveMail { w with
    mMitems := update w.mMitems p ((w.mMitems p).erase itemId)
    items := L.rules.storeItem w.items dest it } p

def handleMailTakeItem (now : MailCircumstances) (mailId : UInt32) (itemId : Nat) :
    Option MailWorld :=
  match w.getMail p mailId with
  | none => none
  | some m =>
    if !delivered m now.time then none
    else if !hasEnoughMoney (w.money p) m.COD then none
    else
      match (w.mMitems p).find? itemId with
      | none => none
      | some it =>
        match L.rules.canStoreItem w.items (playerGuid p) nullBag nullSlot [] it false with
        | (.ok, dest) => some (w.itemTaken L p now mailId itemId m it dest)
        | _ => none

def handleMailTakeMoney (now : MailCircumstances) (mailId : UInt32) (money : UInt64) :
    Option MailWorld :=
  match w.getMail p mailId with
  | none => none
  | some m =>
    if !delivered m now.time ∨ money > 0 ∧ m.money ≠ money then none
    else
      match modifyMoney (w.money p) (toInt64 m.money.toNat) with
      | none => none
      | some owned =>
        some (saveMail { w.modify p mailId fun m => { m with money := 0, state := .changed } with
          money := update w.money p owned } p)

variable {L} {w} {p} {now : MailCircumstances} {mailId : UInt32} {w' : MailWorld}

theorem handleMailReturnToSender_eq_some_iff : w.handleMailReturnToSender L p now mailId = some w' ↔
      ∃ m, w.getMail p mailId = some m ∧ delivered m now.time = true ∧
        w.returned L p now mailId m = w' := by
  rw [handleMailReturnToSender]
  rcases w.getMail p mailId with _ | m
  · simp
  cases arrived : delivered m now.time with
  | false => simp [arrived]
  | true => simp [arrived]

theorem handleMailTakeItem_eq_some_iff {itemId : Nat} :
    w.handleMailTakeItem L p now mailId itemId = some w' ↔
      ∃ m it dest, w.getMail p mailId = some m ∧ delivered m now.time = true ∧
        hasEnoughMoney (w.money p) m.COD = true ∧ (w.mMitems p).find? itemId = some it ∧
        L.rules.canStoreItem w.items (playerGuid p) nullBag nullSlot [] it false = (.ok, dest) ∧
        w.itemTaken L p now mailId itemId m it dest = w' := by
  rw [handleMailTakeItem]
  constructor
  · intro accepted
    split at accepted
    · cases accepted
    rename_i m found
    split at accepted
    · cases accepted
    rename_i arrived
    split at accepted
    · cases accepted
    rename_i enough
    split at accepted
    · cases accepted
    rename_i it stored
    split at accepted
    · rename_i dest fits
      exact ⟨m, it, dest, found, by simpa using arrived, by simpa using enough, stored, fits,
        Option.some.inj accepted⟩
    · cases accepted
  · rintro ⟨m, it, dest, found, arrived, enough, stored, fits, rfl⟩
    rw [found]
    dsimp only
    rw [if_neg (by simp [arrived]), if_neg (by simp [enough]), stored]
    dsimp only
    rw [fits]

end MailWorld

end Sky548
