import Sky548.Mail.Model
import Sky548.Packets.Decoding
import Sky548.Packets.Patching

/-!
# The list of mails

`WorldSession::HandleGetMailList`, from the mails of a player to the packet. The bits of all
mails go into one buffer and their fields into another, which is put behind the bits at the end;
the counts are placeholders first. The reader at the end takes the packet apart again, field by
field in the order in which they stand there.
-/

namespace Sky548

/-- `put`: a source over bytes of the storage. -/
def ByteBuffer.put (b : ByteBuffer) (pos : Nat) (src : List UInt8) :
    Except ByteBufferError ByteBuffer :=
  if pos + src.length > b.size then .error .positionException
  else .ok { b with storage := b.storage.take pos ++ src ++ b.storage.drop (pos + src.length) }

def ByteBuffer.appendBuffer (b buffer : ByteBuffer) : Except ByteBufferError ByteBuffer :=
  if buffer.wpos ≠ 0 then b.append (buffer.storage.take buffer.wpos) else .ok b

namespace MailList

def mailNormal : UInt8 := 0

def maxInspectedEnchantmentSlot : Nat := 8

/-- The longest packet the client can work with. -/
def maxPacketSize : Nat := 32767

def maxShown : UInt32 := 50

structure Enchantment where
  charges : UInt32
  duration : UInt32
  id : UInt32
  deriving DecidableEq

/-- What the list tells of an `Item`; numbers with a sign as their 32 bits. -/
structure AttachedItem where
  guidLow : UInt32
  spellCharges : UInt32
  durability : UInt32
  enchantment : Nat → Enchantment
  suffixFactor : UInt32
  randomPropertyId : UInt32
  maxDurability : UInt32
  count : UInt32
  entry : UInt32

structure Mail where
  messageID : UInt32
  messageType : UInt8
  stationery : UInt8
  mailTemplateId : UInt16
  sender : UInt32
  subject : List UInt8
  body : List UInt8
  /-- `item_guid` of each item -/
  items : List UInt32
  expireTime : Int
  deliverTime : Int
  money : UInt64
  COD : UInt64
  checked : UInt32
  state : MailState

/-- What the handler asks for beside the mails: `GetMItem`, the times, and a number of seconds as a
`float` of days, bit for bit. -/
structure Mailbox where
  mItem : UInt32 → Option AttachedItem
  curTime : Int
  clock : UInt32 → Int
  days : Int → UInt32

def maskOrder : List (Fin 8) := [2, 6, 7, 0, 5, 3, 1, 4]

def byteOrder : List (Fin 8) := [4, 0, 5, 3, 1, 7, 2, 6]

def Mail.itemCount (mail : Mail) : UInt8 := UInt8.ofNat mail.items.length

/-- `guid`, which is 0 unless a player has sent the mail. -/
def Mail.guid (mail : Mail) : UInt64 :=
  if mail.messageType = mailNormal then playerGuid mail.sender else 0

def Mail.nextMailSize (mail : Mail) : Nat :=
  6 + 1 + 8 + mail.itemCount.toNat * (4 + 4 + 4 + 4 + 4 +
    maxInspectedEnchantmentSlot * (4 + 4 + 4) + 4 + 4 + 4 + 4 + 1 + 4) +
    mail.body.length + mail.subject.length + 4 + 4 + 8 + 4 + 8 + 4 + 4 + 1 + 4

def Enchantment.calls (e : Enchantment) : List WriteCall :=
  [.int .uint32 e.charges.toUInt64, .int .uint32 e.duration.toUInt64, .int .uint32 e.id.toUInt64]

/-- What is written of an item at place `i` of its mail. -/
def AttachedItem.calls (item : AttachedItem) (i : UInt8) : List WriteCall :=
  [.int .uint32 item.guidLow.toUInt64, .int .uint32 4, .int .uint32 item.spellCharges.toUInt64,
    .int .uint32 item.durability.toUInt64, .int .uint32 0] ++
  (List.range maxInspectedEnchantmentSlot).flatMap (fun j => (item.enchantment j).calls) ++
  [.int .uint32 item.suffixFactor.toUInt64, .int .uint32 item.randomPropertyId.toUInt64,
    .int .uint32 item.maxDurability.toUInt64, .int .uint32 item.count.toUInt64,
    .int .uint8 i.toUInt64, .int .uint32 item.entry.toUInt64]

/-- What is written of a mail behind its items. -/
def Mailbox.calls (box : Mailbox) (mail : Mail) : List WriteCall :=
  [.writeString mail.body, .int .uint32 mail.messageID.toUInt64] ++
  (byteOrder.map fun i => .writeByteSeq ((ObjectGuid.ofGuid mail.guid).byte i)) ++
  [.int .uint32 mail.mailTemplateId.toUInt64, .int .uint64 mail.COD, .writeString mail.subject,
    .int .uint32 mail.stationery.toUInt64,
    .int .uint32 (box.days (mail.expireTime - box.clock mail.messageID)).toUInt64,
    .int .uint64 mail.money, .int .uint32 mail.checked.toUInt64] ++
  (if mail.messageType ≠ mailNormal then [.int .uint32 mail.sender.toUInt64] else []) ++
  [.int .uint8 mail.messageType.toUInt64, .int .uint32 0]

/-- The two buffers and `trueItemCount`. -/
structure ItemState where
  data : ByteBuffer
  mailData : ByteBuffer
  trueItemCount : UInt8

/-- The loop over the items of a mail, from place `i` on. -/
def Mailbox.writeItems (box : Mailbox) : List UInt32 → UInt8 → ItemState →
    Except ByteBufferError ItemState
  | [], _, s => .ok s
  | guid :: rest, i, s =>
    match box.mItem guid with
    | none => box.writeItems rest (i + 1) s
    | some item => do
        let data ← s.data.writeBit false
        let mailData ← s.mailData.writeAll (item.calls i)
        box.writeItems rest (i + 1) ⟨data, mailData, s.trueItemCount + 1⟩

/-- The two buffers and the two counts. -/
structure ListState where
  data : ByteBuffer
  mailData : ByteBuffer
  mailCount : UInt32
  realCount : UInt32

def Mailbox.writeMail (box : Mailbox) (s : ListState) (mail : Mail) :
    Except ByteBufferError ListState := do
  let data ← s.data.writeBit (decide (mail.messageType ≠ mailNormal))
  let data ← data.writeBits (UInt64.ofNat mail.subject.length) 8
  let data ← data.writeBits (UInt64.ofNat mail.body.length) 13
  let data ← data.writeBit false
  let data ← data.writeBit false
  let itemCountPos := data.bitwpos
  let data ← data.writeBits 0 17
  let data ← data.writeBit true
  let data ← data.writeGuidMask (.ofGuid mail.guid) maskOrder
  let r ← box.writeItems (mail.items.take mail.itemCount.toNat) 0 ⟨data, s.mailData, 0⟩
  let data ← r.data.putBits itemCountPos r.trueItemCount.toUInt64 17
  let mailData ← r.mailData.writeAll (box.calls mail)
  .ok ⟨data, mailData, s.mailCount + 1, s.realCount + 1⟩

/-- Deleted, or not delivered yet. -/
def Mailbox.hides (box : Mailbox) (mail : Mail) : Bool :=
  mail.state = .deleted ∨ box.curTime < mail.deliverTime

def Mailbox.turn (box : Mailbox) (s : ListState) (mail : Mail) : Except ByteBufferError ListState :=
  if maxShown ≤ s.mailCount then .ok { s with realCount := s.realCount + 1 }
  else if box.hides mail = true then .ok s
  else if maxMailItems < mail.itemCount.toNat then .ok { s with realCount := s.realCount + 1 }
  else if s.data.wpos + mail.nextMailSize > maxPacketSize then
    .ok { s with realCount := s.realCount + 1 }
  else box.writeMail s mail

def Mailbox.loop (box : Mailbox) : List Mail → ListState → Except ByteBufferError ListState
  | [], s => .ok s
  | mail :: rest, s => do
      let s ← box.turn s mail
      box.loop rest s

def Mailbox.getMailList (box : Mailbox) (mails : List Mail) : Except ByteBufferError ByteBuffer := do
  let data ← ByteBuffer.fresh.write (.int .uint32 0)
  let mailCountPos := data.bitwpos
  let data ← data.writeBits 0 18
  let s ← box.loop mails ⟨data, .fresh, 0, 0⟩
  let data ← s.data.flushBits
  let data ← data.appendBuffer s.mailData
  let data ← data.put 0 (Bits.leBytes 4 s.realCount.toNat)
  data.putBits mailCountPos s.mailCount.toUInt64 18

structure MailHead where
  hasSender : Bool
  subjectLength : UInt32
  bodyLength : UInt32
  itemCount : UInt32
  mask : ObjectGuid

structure ItemBlock where
  guidLow : UInt32
  spellCharges : UInt32
  durability : UInt32
  enchantments : List Enchantment
  suffixFactor : UInt32
  randomPropertyId : UInt32
  maxDurability : UInt32
  count : UInt32
  slot : UInt8
  entry : UInt32
  deriving DecidableEq

structure MailEntry where
  items : List ItemBlock
  body : List UInt8
  messageID : UInt32
  guid : ObjectGuid
  mailTemplateId : UInt32
  COD : UInt64
  subject : List UInt8
  stationery : UInt32
  daysLeft : UInt32
  money : UInt64
  checked : UInt32
  sender : Option UInt32
  messageType : UInt8

def readHead : Reader MailHead := do
  let hasSender ← Reader.bit
  let subjectLength ← Reader.bits 8
  let bodyLength ← Reader.bits 13
  let _ ← Reader.bit
  let _ ← Reader.bit
  let itemCount ← Reader.bits 17
  let _ ← Reader.bit
  let mask ← Reader.guidMask maskOrder
  let _ ← Reader.each (List.replicate itemCount.toNat Reader.bit)
  pure ⟨hasSender, subjectLength, bodyLength, itemCount, mask⟩

def readEnchantment : Reader Enchantment := do
  let charges ← Reader.uint32
  let duration ← Reader.uint32
  let id ← Reader.uint32
  pure ⟨charges, duration, id⟩

def readItem : Reader ItemBlock := do
  let guidLow ← Reader.uint32
  let _ ← Reader.uint32
  let spellCharges ← Reader.uint32
  let durability ← Reader.uint32
  let _ ← Reader.uint32
  let enchantments ← Reader.each (List.replicate maxInspectedEnchantmentSlot readEnchantment)
  let suffixFactor ← Reader.uint32
  let randomPropertyId ← Reader.uint32
  let maxDurability ← Reader.uint32
  let count ← Reader.uint32
  let slot ← Reader.uint8
  let entry ← Reader.uint32
  pure ⟨guidLow, spellCharges, durability, enchantments, suffixFactor, randomPropertyId,
    maxDurability, count, slot, entry⟩

def readSender (head : MailHead) : Reader (Option UInt32) :=
  if head.hasSender then do
    let sender ← Reader.uint32
    pure (some sender)
  else pure none

def readMail (head : MailHead) : Reader MailEntry := do
  let items ← Reader.each (List.replicate head.itemCount.toNat readItem)
  let body ← Reader.string head.bodyLength.toNat
  let messageID ← Reader.uint32
  let guid ← Reader.guidBytes byteOrder head.mask
  let mailTemplateId ← Reader.uint32
  let COD ← Reader.uint64
  let subject ← Reader.string head.subjectLength.toNat
  let stationery ← Reader.uint32
  let daysLeft ← Reader.uint32
  let money ← Reader.uint64
  let checked ← Reader.uint32
  let sender ← readSender head
  let messageType ← Reader.uint8
  let _ ← Reader.uint32
  pure ⟨items, body, messageID, guid, mailTemplateId, COD, subject, stationery, daysLeft, money,
    checked, sender, messageType⟩

/-- The packet: the count of all mails, and the mails that are shown. -/
def readMailList : Reader (UInt32 × List MailEntry) := do
  let realCount ← Reader.uint32
  let mailCount ← Reader.bits 18
  let heads ← Reader.each (List.replicate mailCount.toNat readHead)
  let mails ← Reader.each (heads.map readMail)
  pure (realCount, mails)

def AttachedItem.block (item : AttachedItem) (i : UInt8) : ItemBlock where
  guidLow := item.guidLow
  spellCharges := item.spellCharges
  durability := item.durability
  enchantments := (List.range maxInspectedEnchantmentSlot).map item.enchantment
  suffixFactor := item.suffixFactor
  randomPropertyId := item.randomPropertyId
  maxDurability := item.maxDurability
  count := item.count
  slot := i
  entry := item.entry

/-- The items that the player has, each with its place, from place `i` on. -/
def Mailbox.attached (box : Mailbox) : List UInt32 → UInt8 → List (AttachedItem × UInt8)
  | [], _ => []
  | guid :: rest, i =>
    match box.mItem guid with
    | none => box.attached rest (i + 1)
    | some item => (item, i) :: box.attached rest (i + 1)

def Mailbox.itemsOf (box : Mailbox) (mail : Mail) : List (AttachedItem × UInt8) :=
  box.attached (mail.items.take mail.itemCount.toNat) 0

def Mailbox.entry (box : Mailbox) (mail : Mail) : MailEntry where
  items := (box.itemsOf mail).map fun a => a.1.block a.2
  body := mail.body
  messageID := mail.messageID
  guid := .ofGuid mail.guid
  mailTemplateId := mail.mailTemplateId.toUInt32
  COD := mail.COD
  subject := mail.subject
  stationery := mail.stationery.toUInt32
  daysLeft := box.days (mail.expireTime - box.clock mail.messageID)
  money := mail.money
  checked := mail.checked
  sender := if mail.messageType ≠ mailNormal then some mail.sender else none
  messageType := mail.messageType

def Mailbox.showable (box : Mailbox) (mail : Mail) : Bool :=
  ¬ box.hides mail = true ∧ mail.itemCount.toNat ≤ maxMailItems

def Mailbox.shown (box : Mailbox) (mails : List Mail) : List Mail :=
  (mails.filter box.showable).take maxShown.toNat

/-- How many mails are counted, with `shown` shown before: all that are not hidden, and behind the
last one that is shown all. -/
def Mailbox.counted (box : Mailbox) : Nat → List Mail → Nat
  | _, [] => 0
  | shown, mail :: rest =>
    if maxShown.toNat ≤ shown then box.counted shown rest + 1
    else if box.hides mail = true then box.counted shown rest
    else box.counted (if box.showable mail = true then shown + 1 else shown) rest + 1

/-- A mail that `HandleSendMail` can have read: the lengths have 9 and 11 bits. -/
def Mail.Sendable (mail : Mail) : Prop := mail.subject.length < 2 ^ 9 ∧ mail.body.length < 2 ^ 11

instance decidableSendable (mail : Mail) : Decidable mail.Sendable :=
  inferInstanceAs (Decidable (_ ∧ _))

/-- **The packet can be decoded**: it is built, and what is read from it is the count and the mails
that are shown, with nothing left. -/
def Mailbox.Decodable (box : Mailbox) (mails : List Mail) : Prop :=
  ∃ data, box.getMailList mails = .ok data ∧ ∃ b,
    readMailList (.ofBytes data.storage) =
      .ok ((UInt32.ofNat (box.counted 0 mails), (box.shown mails).map box.entry), b) ∧
    b.rpos = data.size

end MailList

end Sky548
