import Sky548.Mail.ListPacket
import Sky548.Packets.Fields

/-!
# What the list of mails decodes to

The bits of all mails stand before the bytes of all mails, and the counts are right. What is
written of a mail is read back as it is, but for the length of the subject, which has 8 bits: the
packet can be decoded exactly if no mail that is shown has a longer subject.
-/

namespace Sky548.MailList

open List

open Bits
open ByteBuffer

section Written

variable (box : Mailbox) (mail : Mail)

def headBits : List Bool :=
  [decide (mail.messageType ≠ mailNormal)] ++ Bits.ofNat 8 mail.subject.length ++
    Bits.ofNat 13 mail.body.length ++ [false, false] ++ Bits.ofNat 17 (box.itemsOf mail).length ++
    [true] ++ (maskOrder.map fun i => decide ((ObjectGuid.ofGuid mail.guid).byte i ≠ 0)) ++
    List.replicate (box.itemsOf mail).length false

def itemBytes (a : AttachedItem × UInt8) : List UInt8 := (a.1.calls a.2).flatMap WriteCall.src

def restBytes : List UInt8 := (box.calls mail).flatMap WriteCall.src

def mailBytes : List UInt8 := (box.itemsOf mail).flatMap itemBytes ++ restBytes box mail

theorem length_attached_le (guids : List UInt32) : ∀ i, (box.attached guids i).length ≤ guids.length := by
  induction guids with
  | nil => exact fun i => Nat.le_refl 0
  | cons guid rest ih =>
    intro i
    have others := ih (i + 1)
    unfold Mailbox.attached
    split
    · rw [length_cons]
      omega
    · rw [length_cons, length_cons]
      omega

theorem length_itemsOf_le : (box.itemsOf mail).length ≤ mail.itemCount.toNat := by
  refine Nat.le_trans (length_attached_le box _ 0) ?_
  rw [length_take]
  exact Nat.min_le_left _ _

theorem length_headBits : (headBits box mail).length = 50 + (box.itemsOf mail).length := by
  unfold headBits maskOrder
  simp only [length_append, length_map, length_cons, length_nil, length_replicate, length_ofNat]

theorem length_enchantment (e : Enchantment) : (e.calls.flatMap WriteCall.src).length = 12 := by
  simp only [Enchantment.calls, flatMap_cons, flatMap_nil, length_append,
    length_nil, WriteCall.src, length_leBytes, IntType.size]

theorem length_itemBytes (a : AttachedItem × UInt8) : (itemBytes a).length = 137 := by
  have enchantments : ((List.range maxInspectedEnchantmentSlot).flatMap fun j =>
      (a.1.enchantment j).calls.flatMap WriteCall.src).length = 96 := by
    rw [length_flatMap]
    simp only [length_enchantment, map_const', length_range, sum_replicate_nat]
    rfl
  unfold itemBytes AttachedItem.calls
  rw [flatMap_append, flatMap_append, flatMap_assoc, length_append, length_append, enchantments]
  simp only [flatMap_cons, flatMap_nil, length_append, length_nil,
    WriteCall.src, length_leBytes, IntType.size]

theorem restBytes_eq : restBytes box mail = mail.body ++ (leBytes 4 mail.messageID.toUInt64.toNat ++
    (byteOrder.flatMap (MaskedGuid.bytesAt (.ofGuid mail.guid)) ++
    (leBytes 4 mail.mailTemplateId.toUInt64.toNat ++ (leBytes 8 mail.COD.toNat ++
    (mail.subject ++ (leBytes 4 mail.stationery.toUInt64.toNat ++
    (leBytes 4 (box.days (mail.expireTime - box.clock mail.messageID)).toUInt64.toNat ++
    (leBytes 8 mail.money.toNat ++ (leBytes 4 mail.checked.toUInt64.toNat ++
    ((if mail.messageType ≠ mailNormal then leBytes 4 mail.sender.toUInt64.toNat else []) ++
    (leBytes 1 mail.messageType.toUInt64.toNat ++ leBytes 4 0))))))))))) := by
  have sender : (if mail.messageType ≠ mailNormal then
      [WriteCall.int .uint32 mail.sender.toUInt64] else []).flatMap WriteCall.src =
      if mail.messageType ≠ mailNormal then leBytes 4 mail.sender.toUInt64.toNat else [] := by
    split
    · exact append_nil _
    · rfl
  unfold restBytes Mailbox.calls
  simp only [flatMap_append, flatMap_cons, flatMap_nil, append_nil, sender,
    append_assoc, flatMap_map]
  rfl

theorem length_restBytes_le :
    (restBytes box mail).length ≤ mail.body.length + mail.subject.length + 53 := by
  have guid := length_guidBytes_le (.ofGuid mail.guid) byteOrder
  have order : byteOrder.length = 8 := rfl
  have sender : (if mail.messageType ≠ mailNormal then leBytes 4 mail.sender.toUInt64.toNat
      else []).length ≤ 4 := by
    split
    · rw [length_leBytes]
    · exact Nat.zero_le 4
  rw [restBytes_eq]
  simp only [length_append, length_leBytes]
  omega

theorem length_mailBytes_le : (mailBytes box mail).length ≤
    137 * mail.itemCount.toNat + mail.body.length + mail.subject.length + 53 := by
  have rest := length_restBytes_le box mail
  have items : ((box.itemsOf mail).flatMap itemBytes).length = 137 * (box.itemsOf mail).length := by
    rw [length_flatMap]
    simp only [length_itemBytes, map_const', sum_replicate_nat, Nat.mul_comm]
  have few := length_itemsOf_le box mail
  unfold mailBytes
  rw [length_append, items]
  omega

end Written

/-! ## Building it -/

section Building

variable {box : Mailbox} {mail : Mail}

theorem isField_item (a : AttachedItem × UInt8) : ∀ call ∈ a.1.calls a.2, call.isField = true := by
  have areFields : (a.1.calls a.2).all WriteCall.isField = true := rfl
  exact List.all_eq_true.mp areFields

theorem written_items (guids : List UInt32) : ∀ {i : UInt8} {s : ItemState} {field : List UInt8}
    {bits : List Bool} {bytes : List UInt8}, Headed field s.data bits → Filled s.mailData bytes →
    field.length + (bits.length + guids.length) / 8 < appendLimit →
    bytes.length + 137 * guids.length < appendLimit →
    ∃ s', box.writeItems guids i s = .ok s' ∧
      writeBitList (List.replicate (box.attached guids i).length false) s.data = .ok s'.data ∧
      Filled s'.mailData (bytes ++ (box.attached guids i).flatMap itemBytes) ∧
      s'.trueItemCount = s.trueItemCount + UInt8.ofNat (box.attached guids i).length := by
  induction guids with
  | nil =>
    intro i s field bits bytes headed filled _ _
    refine ⟨s, rfl, rfl, ?_, (UInt8.add_zero _).symm⟩
    change Filled s.mailData (bytes ++ [])
    rw [append_nil]
    exact filled
  | cons guid rest ih =>
    intro i s field bits bytes headed filled room space
    rw [length_cons] at room space
    cases isItem : box.mItem guid with
    | none =>
      have none' : box.attached (guid :: rest) i = box.attached rest (i + 1) := by
        rw [Mailbox.attached, isItem]
      rw [Mailbox.writeItems, isItem, none']
      exact ih headed filled (by omega) (by omega)
    | some item =>
      have next : box.attached (guid :: rest) i = (item, i) :: box.attached rest (i + 1) := by
        rw [Mailbox.attached, isItem]
      have len := length_itemBytes (item, i)
      obtain ⟨data, isBit, headed₁⟩ := headed.writeBitList [false] (by
        rw [length_append, length_singleton]
        omega)
      rw [writeBitList_singleton] at isBit
      obtain ⟨mailData, isWritten, filled₁⟩ := filled.writeAll (item.calls i)
        (isField_item (item, i)) (by
          change (bytes ++ itemBytes (item, i)).length < _
          rw [length_append, len]
          omega)
      change Filled mailData (bytes ++ itemBytes (item, i)) at filled₁
      obtain ⟨s', areWritten, bits', filled', count⟩ := @ih (i + 1)
        ⟨data, mailData, s.trueItemCount + 1⟩ field _ _ headed₁ filled₁ (by
          rw [length_append, length_singleton]
          omega) (by
          rw [length_append, len]
          omega)
      refine ⟨s', ?_, ?_, ?_, ?_⟩
      · rw [Mailbox.writeItems, isItem]
        simp only [isBit, isWritten, ok_bind]
        exact areWritten
      · rw [next, length_cons, replicate_succ, writeBitList, isBit]
        exact bits'
      · rw [next, flatMap_cons, ← append_assoc]
        exact filled'
      · rw [count, next, length_cons, UInt8.ofNat_add, UInt8.add_assoc,
          UInt8.add_comm (UInt8.ofNat _) (UInt8.ofNat 1)]
        rfl

theorem isField_calls (box : Mailbox) (mail : Mail) :
    ∀ call ∈ box.calls mail, call.isField = true := by
  have areFields : (box.calls mail).all WriteCall.isField = true := by
    unfold Mailbox.calls
    split
    · rfl
    · rfl
  exact List.all_eq_true.mp areFields

variable {s : ListState}

theorem written_mail {field : List UInt8} {bits : List Bool} {bytes : List UInt8}
    (headed : Headed field s.data bits) (filled : Filled s.mailData bytes)
    (sendable : mail.Sendable) (few : mail.itemCount.toNat ≤ maxMailItems)
    (room : field.length + bits.length < 1000000) (space : bytes.length < 1000000) :
    ∃ s', box.writeMail s mail = .ok s' ∧ Headed field s'.data (bits ++ headBits box mail) ∧
      Filled s'.mailData (bytes ++ mailBytes box mail) ∧ s'.mailCount = s.mailCount + 1 ∧
      s'.realCount = s.realCount + 1 := by
  have items := length_itemsOf_le box mail
  have size := length_mailBytes_le box mail
  obtain ⟨subject, body⟩ := sendable
  have twelve : maxMailItems = 12 := rfl
  have limit : appendLimit = 10000000 := rfl
  have taken : (mail.items.take mail.itemCount.toNat).length ≤ 12 := by
    rw [length_take]
    omega
  have subjectBits : (UInt64.ofNat mail.subject.length).toNat = mail.subject.length := by
    rw [UInt64.toNat_ofNat']
    omega
  have bodyBits : (UInt64.ofNat mail.body.length).toNat = mail.body.length := by
    rw [UInt64.toNat_ofNat']
    omega
  -- the bits before the count of the items
  obtain ⟨d₁, ok₁, headed₁⟩ := headed.writeBitList [decide (mail.messageType ≠ mailNormal)] (by
    rw [length_append, length_singleton]
    omega)
  obtain ⟨d₂, ok₂, headed₂⟩ := headed₁.writeBitList (Bits.ofNat 8 mail.subject.length) (by
    simp only [length_append, length_singleton, length_ofNat]
    omega)
  obtain ⟨d₃, ok₃, headed₃⟩ := headed₂.writeBitList (Bits.ofNat 13 mail.body.length) (by
    simp only [length_append, length_singleton, length_ofNat]
    omega)
  obtain ⟨d₄, ok₄, headed₄⟩ := headed₃.writeBitList [false] (by
    simp only [length_append, length_singleton, length_ofNat]
    omega)
  obtain ⟨d₅, ok₅, headed₅⟩ := headed₄.writeBitList [false] (by
    simp only [length_append, length_singleton, length_ofNat]
    omega)
  -- the placeholder, and the bits behind it
  obtain ⟨d₆, ok₆, headed₆⟩ := headed₅.writeBitList (Bits.ofNat 17 0) (by
    simp only [length_append, length_singleton, length_ofNat]
    omega)
  obtain ⟨d₇, ok₇, headed₇⟩ := headed₆.writeBitList [true] (by
    simp only [length_append, length_singleton, length_ofNat]
    omega)
  let mask := maskOrder.map fun i => decide ((ObjectGuid.ofGuid mail.guid).byte i ≠ 0)
  have maskLength : mask.length = 8 := rfl
  obtain ⟨d₈, ok₈, headed₈⟩ := headed₇.writeBitList mask (by
    simp only [length_append, length_singleton, length_ofNat, maskLength]
    omega)
  obtain ⟨r, okItems, zeros, filled₁, count⟩ :=
    @written_items box (mail.items.take mail.itemCount.toNat) 0 ⟨d₈, s.mailData, 0⟩ field _ _
      headed₈ filled (by
        simp only [length_append, length_singleton, length_ofNat, maskLength]
        omega) (by omega)
  change r.trueItemCount = 0 + UInt8.ofNat (box.itemsOf mail).length at count
  have behind : writeBitList ([true] ++ mask ++ List.replicate (box.itemsOf mail).length false) d₆ =
      .ok r.data := by
    rw [writeBitList_append, writeBitList_append, ok₇, ok_bind, ok₈, ok_bind]
    exact zeros
  have countBits : r.trueItemCount.toUInt64.toNat = (box.itemsOf mail).length := by
    rw [count, UInt8.zero_add, UInt8.toNat_toUInt64, UInt8.toNat_ofNat']
    omega
  obtain ⟨d₉, ok₉, headed₉⟩ := headed₅.putBits (by decide) r.trueItemCount.toUInt64 (by
      simp only [length_append, length_singleton, length_ofNat, maskLength, length_replicate]
      omega) ok₆ behind (by
      simp only [length_append, maskLength]
      omega)
  obtain ⟨mailData, okRest, filled₂⟩ := filled₁.writeAll (box.calls mail) (isField_calls box mail)
    (by
      rw [append_assoc, length_append]
      change bytes.length + (mailBytes box mail).length < _
      omega)
  refine ⟨⟨d₉, mailData, s.mailCount + 1, s.realCount + 1⟩, ?_, ?_, ?_, rfl, rfl⟩
  · rw [writeBitList_singleton] at ok₁ ok₄ ok₅ ok₇
    rw [← subjectBits] at ok₂
    rw [← bodyBits] at ok₃
    change d₁.writeBits _ 8 = _ at ok₂
    change d₂.writeBits _ 13 = _ at ok₃
    change d₅.writeBits 0 17 = _ at ok₆
    change d₇.writeGuidMask _ maskOrder = _ at ok₈
    unfold Mailbox.writeMail
    simp only [ok₁, ok₂, ok₃, ok₄, ok₅, ok₆, ok₇, ok₈, ok₉, okItems, okRest, ok_bind]
  · rw [countBits] at headed₉
    simp only [append_assoc, cons_append, nil_append] at headed₉ ⊢
    exact headed₉
  · unfold mailBytes
    rw [← append_assoc]
    exact filled₂

/-- What the loop has made, with the mails shown so far. -/
structure Built (box : Mailbox) (s : ListState) (shown : List Mail) : Prop where
  data : Headed (leBytes 4 0) s.data (Bits.ofNat 18 0 ++ shown.flatMap (headBits box))
  mailData : Filled s.mailData (shown.flatMap (mailBytes box))
  count : s.mailCount.toNat = shown.length
  few : shown.length ≤ 50
  small : ∀ mail ∈ shown, mail.itemCount.toNat ≤ maxMailItems ∧ mail.Sendable

variable {shown : List Mail}

theorem Built.lengths (built : Built box s shown) : (shown.flatMap (headBits box)).length ≤ 3100 ∧
      (shown.flatMap (mailBytes box)).length ≤ 215000 := by
  have few := built.few
  have heads := @length_flatMap_le _ _ (headBits box) 62 shown fun mail member => by
    have items := length_itemsOf_le box mail
    have twelve : mail.itemCount.toNat ≤ 12 := (built.small mail member).1
    rw [length_headBits]
    omega
  have bodies := @length_flatMap_le _ _ (mailBytes box) 4300 shown fun mail member => by
    have size := length_mailBytes_le box mail
    have twelve : mail.itemCount.toNat ≤ 12 := (built.small mail member).1
    obtain ⟨subject, body⟩ := (built.small mail member).2
    omega
  omega

theorem Built.notTooLarge (built : Built box s shown)
    (few : mail.itemCount.toNat ≤ maxMailItems) (sendable : mail.Sendable) :
    ¬ s.data.wpos + mail.nextMailSize > maxPacketSize := by
  have lengths := built.lengths.1
  have position := built.data.wpos
  have twelve : mail.itemCount.toNat ≤ 12 := few
  obtain ⟨subject, body⟩ := sendable
  rw [length_append, length_leBytes, length_ofNat] at position
  unfold Mail.nextMailSize maxInspectedEnchantmentSlot maxPacketSize
  omega

def shownWith (box : Mailbox) (shown : List Mail) (mail : Mail) : List Mail :=
  if shown.length < 50 ∧ box.showable mail = true then shown ++ [mail] else shown

theorem built_turn (built : Built box s shown) (sendable : mail.Sendable) :
    ∃ s', box.turn s mail = .ok s' ∧ Built box s' (shownWith box shown mail) ∧
      s'.realCount = s.realCount +
        if 50 ≤ shown.length ∨ ¬ box.hides mail = true then 1 else 0 := by
  have counted : maxShown ≤ s.mailCount ↔ 50 ≤ shown.length := by
    rw [UInt32.le_iff_toNat_le, built.count]
    rfl
  unfold Mailbox.turn shownWith
  by_cases full : 50 ≤ shown.length
  · have more : ¬ (shown.length < 50 ∧ box.showable mail = true) := fun both =>
      Nat.not_le_of_lt both.1 full
    rw [if_pos (counted.mpr full), if_neg more, if_pos (Or.inl full)]
    exact ⟨_, rfl, ⟨built.data, built.mailData, built.count, built.few, built.small⟩, rfl⟩
  rw [if_neg (mt counted.mp full)]
  by_cases hidden : box.hides mail = true
  · have unshowable : ¬ (shown.length < 50 ∧ box.showable mail = true) := fun both =>
      (of_decide_eq_true both.2).1 hidden
    have uncounted : ¬ (50 ≤ shown.length ∨ ¬ box.hides mail = true) := fun either =>
      either.elim full fun seen => seen hidden
    rw [if_pos hidden, if_neg unshowable, if_neg uncounted]
    exact ⟨s, rfl, built, (UInt32.add_zero _).symm⟩
  rw [if_neg hidden, if_pos (Or.inr hidden)]
  by_cases many : maxMailItems < mail.itemCount.toNat
  · have unshowable : ¬ (shown.length < 50 ∧ box.showable mail = true) := fun both =>
      Nat.not_le_of_lt many (of_decide_eq_true both.2).2
    rw [if_pos many, if_neg unshowable]
    exact ⟨_, rfl, ⟨built.data, built.mailData, built.count, built.few, built.small⟩, rfl⟩
  have few : mail.itemCount.toNat ≤ maxMailItems := Nat.le_of_not_lt many
  have showable : shown.length < 50 ∧ box.showable mail = true :=
    ⟨Nat.lt_of_not_le full, decide_eq_true ⟨hidden, few⟩⟩
  rw [if_neg many, if_neg (built.notTooLarge few sendable), if_pos showable]
  obtain ⟨heads, bodies⟩ := built.lengths
  obtain ⟨s', isOk, data, mailData, mailCount, realCount⟩ :=
    @written_mail box mail s _ _ _ built.data built.mailData sendable few
      (by rw [length_leBytes, length_append, length_ofNat]; omega) (by omega)
  refine ⟨s', isOk, ⟨?_, ?_, ?_, ?_, ?_⟩, realCount⟩
  · rw [flatMap_append, flatMap_singleton, ← append_assoc]
    exact data
  · rw [flatMap_append, flatMap_singleton]
    exact mailData
  · rw [mailCount, UInt32.toNat_add, built.count, length_append, length_singleton]
    exact Nat.mod_eq_of_lt (Nat.lt_of_lt_of_le (Nat.succ_lt_succ showable.1) (by decide))
  · rw [length_append, length_singleton]
    exact showable.1
  · intro m member
    rcases List.mem_append.mp member with before | isMail
    · exact built.small m before
    · rw [List.mem_singleton.mp isMail]
      exact ⟨few, sendable⟩

theorem built_loop (mails : List Mail) : ∀ {s : ListState} {shown : List Mail},
    Built box s shown → (∀ mail ∈ mails, mail.Sendable) →
    ∃ s', box.loop mails s = .ok s' ∧
      Built box s' (shown ++ (mails.filter box.showable).take (50 - shown.length)) ∧
      s'.realCount = s.realCount + UInt32.ofNat (box.counted shown.length mails) := by
  induction mails with
  | nil =>
    intro s shown built _
    refine ⟨s, rfl, ?_, (UInt32.add_zero _).symm⟩
    rw [filter_nil, take_nil, append_nil]
    exact built
  | cons mail rest ih =>
    intro s shown built sendable
    obtain ⟨s₁, isTurn, built₁, real₁⟩ := built_turn built (sendable mail mem_cons_self)
    obtain ⟨s₂, isLoop, built₂, real₂⟩ :=
      ih built₁ fun m member => sendable m (mem_cons_of_mem _ member)
    refine ⟨s₂, ?_, ?_, ?_⟩
    · rw [Mailbox.loop, isTurn]
      exact isLoop
    · have same : shownWith box shown mail ++ (rest.filter box.showable).take
          (50 - (shownWith box shown mail).length) =
          shown ++ ((mail :: rest).filter box.showable).take (50 - shown.length) := by
        unfold shownWith
        by_cases isShown : shown.length < 50 ∧ box.showable mail = true
        · have left : 50 - shown.length = (50 - (shown.length + 1)) + 1 := by omega
          rw [if_pos isShown, filter_cons_of_pos isShown.2, length_append,
            length_singleton, left, take_succ_cons, append_assoc]
          rfl
        · rw [if_neg isShown]
          by_cases room : shown.length < 50
          · rw [filter_cons_of_neg fun showable => isShown ⟨room, showable⟩]
          · have none' : 50 - shown.length = 0 := by omega
            rw [none', List.take_zero, List.take_zero]
      rw [← same]
      exact built₂
    · rw [real₂, real₁, UInt32.add_assoc]
      congr 1
      unfold shownWith
      rw [Mailbox.counted]
      have fifty : maxShown.toNat = 50 := rfl
      rw [fifty]
      by_cases full : 50 ≤ shown.length
      · have more : ¬ (shown.length < 50 ∧ box.showable mail = true) := fun both =>
          Nat.not_le_of_lt both.1 full
        rw [if_pos (Or.inl full), if_neg more, if_pos full, UInt32.ofNat_add, UInt32.add_comm]
        rfl
      rw [if_neg full]
      by_cases hidden : box.hides mail = true
      · have unshowable : ¬ (shown.length < 50 ∧ box.showable mail = true) := fun both =>
          (of_decide_eq_true both.2).1 hidden
        have uncounted : ¬ (50 ≤ shown.length ∨ ¬ box.hides mail = true) := fun either =>
          either.elim full fun seen => seen hidden
        rw [if_neg uncounted, if_neg unshowable, if_pos hidden, UInt32.zero_add]
      rw [if_pos (Or.inr hidden), if_neg hidden, UInt32.ofNat_add, UInt32.add_comm]
      have below : shown.length < 50 := Nat.lt_of_not_le full
      by_cases showable : box.showable mail = true
      · rw [if_pos ⟨below, showable⟩, if_pos showable, length_append, length_singleton]
        rfl
      · rw [if_neg fun both => showable both.2, if_neg showable]
        rfl

def packetBytes (box : Mailbox) (mails : List Mail) : List UInt8 :=
  leBytes 4 (UInt32.ofNat (box.counted 0 mails)).toUInt64.toNat ++
    pack (Bits.ofNat 18 (box.shown mails).length ++ (box.shown mails).flatMap (headBits box)) ++
    (box.shown mails).flatMap (mailBytes box)

theorem getMailList_ok {mails : List Mail} (sendable : ∀ mail ∈ mails, mail.Sendable) :
    ∃ data, box.getMailList mails = .ok data ∧ data.storage = packetBytes box mails := by
  have limit : appendLimit = 10000000 := rfl
  obtain ⟨d₀, ok₀, headed₀⟩ := headed_fresh (cons_ne_nil (UInt8.ofNat 0) (leBytes 3 0))
  change fresh.write (.int .uint32 0) = _ at ok₀
  have position : d₀.bitwpos = 32 := headed₀.bitwpos
  obtain ⟨d₁, ok₁, headed₁⟩ := headed₀.writeBitList (Bits.ofNat 18 0) (by decide)
  change d₀.writeBits 0 18 = _ at ok₁
  have first : Built box ⟨d₁, fresh, 0, 0⟩ [] :=
    ⟨by rw [flatMap_nil, append_nil]; exact headed₁, filled_fresh, rfl, Nat.zero_le _,
      fun m member => absurd member not_mem_nil⟩
  obtain ⟨s, isLoop, built, real⟩ := built_loop mails first sendable
  have isShown : [] ++ (mails.filter box.showable).take (50 - ([] : List Mail).length) =
      box.shown mails := rfl
  rw [isShown] at built
  have real : s.realCount = UInt32.ofNat (box.counted 0 mails) := real.trans (UInt32.zero_add _)
  obtain ⟨heads, bodies⟩ := built.lengths
  let front := Bits.ofNat 18 0 ++ (box.shown mails).flatMap (headBits box)
  have frontLength : (pack front).length ≤ 400 := by
    rw [length_pack, length_append, length_ofNat]
    omega
  have threeBytes : 3 ≤ (pack front).length := by
    rw [length_pack, length_append, length_ofNat]
    omega
  obtain ⟨d₂, ok₂, filled₂⟩ := built.data.flushBits (by
    rw [length_append, length_leBytes]
    change 4 + (pack front).length < _
    omega)
  obtain ⟨d₃, ok₃, filled₃⟩ := filled₂.append_all ((box.shown mails).flatMap (mailBytes box)) (by
    rw [length_append, length_leBytes]
    change 4 + (pack front).length < _
    omega)
  obtain ⟨body, bodyLength⟩ := built.mailData.contents
  have ok₃ : d₂.appendBuffer s.mailData = .ok d₃ := by
    unfold appendBuffer
    rw [body, bodyLength, take_length]
    exact ok₃
  -- the count of all mails, in place of the first field
  let mailBits := (box.shown mails).flatMap (mailBytes box)
  have storage₃ : d₃.storage = leBytes 4 0 ++ (pack front ++ mailBits) := by
    rw [filled₃.contents.1, append_assoc]
  let d₄ : ByteBuffer := { d₃ with storage := leBytes 4 s.realCount.toNat ++ pack front ++ mailBits }
  have ok₄ : d₃.put 0 (leBytes 4 s.realCount.toNat) = .ok d₄ := by
    have four : (leBytes 4 0).length = 4 := length_leBytes 4 0
    have inside : ¬ 0 + (leBytes 4 s.realCount.toNat).length > d₃.size := by
      change ¬ 0 + (leBytes 4 s.realCount.toNat).length > d₃.storage.length
      rw [storage₃, length_append, length_leBytes, length_leBytes]
      omega
    unfold ByteBuffer.put
    rw [if_neg inside, storage₃, length_leBytes, List.take_zero, nil_append, Nat.zero_add,
      drop_left' four, ← append_assoc]
  -- the count of those shown, in place of its placeholder
  have count : s.mailCount.toUInt64.toNat = (box.shown mails).length := built.count
  have put := @putBitList_packed (leBytes 4 s.realCount.toNat) 18
    (by decide) s.mailCount.toUInt64
    ((box.shown mails).flatMap (headBits box)) mailBits (by
      rw [length_append, length_leBytes]
      change 4 + (pack front).length < _
      omega)
  rw [length_leBytes, count] at put
  refine ⟨{ d₄ with storage := packetBytes box mails }, ?_, rfl⟩
  have ok₅ : d₄.putBits d₀.bitwpos s.mailCount.toUInt64 18 =
      .ok { d₄ with storage := packetBytes box mails } := by
    have inside : ¬ d₀.bitwpos + 18 > d₄.size * 8 := by
      change ¬ d₀.bitwpos + 18 > (leBytes 4 s.realCount.toNat ++ pack front ++ mailBits).length * 8
      rw [length_append, length_append, length_leBytes, position]
      omega
    unfold putBits
    rw [if_neg (by decide), if_neg inside, position, count]
    have whole : putBitList (Bits.ofNat 18 (box.shown mails).length) 32 d₄.storage =
        packetBytes box mails := put.trans (by rw [real]; rfl)
    rw [whole]
  unfold Mailbox.getMailList
  simp only [ok₀, ok₁, isLoop, ok₂, ok₃, ok₄, ok₅, ok_bind]

end Building

section Reading

variable {box : Mailbox} {mail : Mail} {bytes after : List UInt8} {rem : List Bool} {pad : Nat}

/-- The bits of a mail, as they are read: the lengths are cut to their fields. -/
def headOf (box : Mailbox) (mail : Mail) : MailHead where
  hasSender := decide (mail.messageType ≠ mailNormal)
  subjectLength := UInt32.ofNat (mail.subject.length % 2 ^ 8)
  bodyLength := UInt32.ofNat (mail.body.length % 2 ^ 13)
  itemCount := UInt32.ofNat ((box.itemsOf mail).length % 2 ^ 17)
  mask := maskOf (.ofGuid mail.guid)

theorem mask_perm : maskOrder.Perm (List.finRange 8) := by decide

theorem byte_perm : byteOrder.Perm (List.finRange 8) := by decide

theorem yields_zeros (n : Nat) : Yields (BeforeBits bytes (List.replicate n false ++ rem) pad after)
      (Reader.each (List.replicate n Reader.bit)) (List.replicate n false)
      (BeforeBits bytes rem pad after) := by
  have zeros := @yields_eachBits bytes after rem pad Bool Bool (fun _ => Reader.bit) id (fun bit => [bit])
    (List.replicate n false) fun bit _ rest => yields_bit bit
  rw [map_const', length_replicate, List.map_id, flatMap_singleton'] at zeros
  exact zeros

theorem count_items (box : Mailbox) (mail : Mail) :
    (headOf box mail).itemCount.toNat = (box.itemsOf mail).length := by
  have few := length_itemsOf_le box mail
  have byte := mail.itemCount.toNat_lt
  change (UInt32.ofNat ((box.itemsOf mail).length % 2 ^ 17)).toNat = _
  rw [UInt32.toNat_ofNat']
  omega

theorem yields_head (box : Mailbox) (mail : Mail) :
    Yields (BeforeBits bytes (headBits box mail ++ rem) pad after) readHead (headOf box mail)
      (BeforeBits bytes rem pad after) := by
  have items := count_items box mail
  unfold headBits readHead
  simp only [append_assoc, cons_append, nil_append]
  refine (yields_bit _).bind ?_
  refine (yields_bits (by decide) mail.subject.length).bind ?_
  refine (yields_bits (by decide) mail.body.length).bind ?_
  refine (yields_bit false).bind ?_
  refine (yields_bit false).bind ?_
  refine (yields_bits (by decide) (box.itemsOf mail).length).bind ?_
  refine (yields_bit true).bind ?_
  refine (yields_guidMask (.ofGuid mail.guid) mask_perm).bind ?_
  change (UInt32.ofNat ((box.itemsOf mail).length % 2 ^ 17)).toNat = _ at items
  rw [items]
  exact (yields_zeros _).bind (Yields.pure _)

theorem yields_enchantment (e : Enchantment) :
    Yields (BeforeBytes bytes (e.calls.flatMap WriteCall.src ++ after)) readEnchantment e
      (BeforeBytes bytes after) := by
  unfold Enchantment.calls readEnchantment
  simp only [flatMap_cons, flatMap_nil, append_nil, append_assoc]
  refine (yields_uint32 e.charges).bind ?_
  refine (yields_uint32 e.duration).bind ?_
  exact (yields_uint32 e.id).bind (Yields.pure _)

theorem yields_enchantments (item : AttachedItem) :
    Yields (BeforeBytes bytes (((List.range maxInspectedEnchantmentSlot).flatMap fun j =>
        (item.enchantment j).calls.flatMap WriteCall.src) ++ after))
      (Reader.each (List.replicate maxInspectedEnchantmentSlot readEnchantment))
      ((List.range maxInspectedEnchantmentSlot).map item.enchantment) (BeforeBytes bytes after) :=
  @yields_eachBytes bytes after _ _ (fun _ => readEnchantment) item.enchantment
    (fun j => (item.enchantment j).calls.flatMap WriteCall.src)
    (List.range maxInspectedEnchantmentSlot) fun j _ _ => yields_enchantment (item.enchantment j)

theorem yields_item (a : AttachedItem × UInt8) :
    Yields (BeforeBytes bytes (itemBytes a ++ after)) readItem (a.1.block a.2)
      (BeforeBytes bytes after) := by
  unfold itemBytes AttachedItem.calls readItem
  rw [flatMap_append, flatMap_append, flatMap_assoc]
  simp only [flatMap_cons, flatMap_nil, append_nil, append_assoc]
  refine (yields_uint32 a.1.guidLow).bind ?_
  refine (yields_uint32 4).bind ?_
  refine (yields_uint32 a.1.spellCharges).bind ?_
  refine (yields_uint32 a.1.durability).bind ?_
  refine (yields_uint32 0).bind ?_
  refine (yields_enchantments a.1).bind ?_
  refine (yields_uint32 a.1.suffixFactor).bind ?_
  refine (yields_uint32 a.1.randomPropertyId).bind ?_
  refine (yields_uint32 a.1.maxDurability).bind ?_
  refine (yields_uint32 a.1.count).bind ?_
  refine (yields_uint8 a.2).bind ?_
  exact (yields_uint32 a.1.entry).bind (Yields.pure _)

theorem yields_items (box : Mailbox) (mail : Mail) :
    Yields (BeforeBytes bytes ((box.itemsOf mail).flatMap itemBytes ++ after))
      (Reader.each (List.replicate (headOf box mail).itemCount.toNat readItem))
      ((box.itemsOf mail).map fun a => a.1.block a.2) (BeforeBytes bytes after) := by
  have items := @yields_eachBytes bytes after _ _ (fun _ => readItem) (fun a => a.1.block a.2)
    itemBytes (box.itemsOf mail) fun a _ _ => yields_item a
  rw [map_const', ← count_items] at items
  exact items

theorem yields_sender (box : Mailbox) (mail : Mail) :
    Yields (BeforeBytes bytes ((if mail.messageType ≠ mailNormal then
        leBytes 4 mail.sender.toUInt64.toNat else []) ++ after)) (readSender (headOf box mail))
      (if mail.messageType ≠ mailNormal then some mail.sender else none)
      (BeforeBytes bytes after) := by
  unfold readSender
  by_cases isNormal : mail.messageType = mailNormal
  · have noSender : ¬ (headOf box mail).hasSender = true := fun isTrue =>
      of_decide_eq_true isTrue isNormal
    rw [if_neg (not_not.mpr isNormal), if_neg noSender, if_neg (not_not.mpr isNormal)]
    exact Yields.pure _
  · have isSender : (headOf box mail).hasSender = true := decide_eq_true isNormal
    rw [if_pos isNormal, if_pos isSender, if_pos isNormal]
    exact (yields_uint32 mail.sender).bind (Yields.pure _)

theorem yields_mail (box : Mailbox) (sendable : mail.Sendable) (short : mail.subject.length < 256) :
    Yields (BeforeBytes bytes (mailBytes box mail ++ after)) (readMail (headOf box mail))
      (box.entry mail) (BeforeBytes bytes after) := by
  obtain ⟨-, body⟩ := sendable
  have subjectLength : (headOf box mail).subjectLength.toNat = mail.subject.length := by
    change (UInt32.ofNat (mail.subject.length % 2 ^ 8)).toNat = _
    rw [UInt32.toNat_ofNat']
    omega
  have bodyLength : (headOf box mail).bodyLength.toNat = mail.body.length := by
    change (UInt32.ofNat (mail.body.length % 2 ^ 13)).toNat = _
    rw [UInt32.toNat_ofNat']
    omega
  unfold mailBytes readMail
  rw [restBytes_eq, subjectLength, bodyLength]
  simp only [append_assoc]
  refine (yields_items box mail).bind ?_
  refine (yields_string mail.body).bind ?_
  refine (yields_uint32 mail.messageID).bind ?_
  refine (yields_guidBytes (.ofGuid mail.guid) byte_perm).bind ?_
  refine (yields_uint32 mail.mailTemplateId.toUInt32).bind ?_
  refine (yields_uint64 mail.COD).bind ?_
  refine (yields_string mail.subject).bind ?_
  refine (yields_uint32 mail.stationery.toUInt32).bind ?_
  refine (yields_uint32 (box.days (mail.expireTime - box.clock mail.messageID))).bind ?_
  refine (yields_uint64 mail.money).bind ?_
  refine (yields_uint32 mail.checked).bind ?_
  refine (yields_sender box mail).bind ?_
  refine (yields_uint8 mail.messageType).bind ?_
  exact (yields_uint32 0).bind (Yields.pure _)

end Reading

theorem read_packet {box : Mailbox} {mails : List Mail} (sendable : ∀ mail ∈ mails, mail.Sendable)
    (short : ∀ mail ∈ box.shown mails, mail.subject.length < 256) :
    ∃ b, readMailList (.ofBytes (packetBytes box mails)) =
        .ok ((UInt32.ofNat (box.counted 0 mails), (box.shown mails).map box.entry), b) ∧
      b.rpos = (packetBytes box mails).length := by
  obtain ⟨bytes, isPacket⟩ : ∃ bytes, bytes = packetBytes box mails := ⟨_, rfl⟩
  have isShown : ∀ mail ∈ box.shown mails, mail.Sendable := fun mail member =>
    sendable mail (mem_of_mem_filter (mem_of_mem_take member))
  have few : (box.shown mails).length ≤ 50 := length_take_le _ _
  have start := beforeBytes_ofBytes bytes
  have whole : bytes = leBytes 4 (UInt32.ofNat (box.counted 0 mails)).toUInt64.toNat ++
      (pack (Bits.ofNat 18 (box.shown mails).length ++ (box.shown mails).flatMap (headBits box)) ++
        (box.shown mails).flatMap (mailBytes box)) := by
    rw [isPacket, packetBytes, append_assoc]
  rw [← isPacket]
  obtain ⟨b₁, isCount, atBits⟩ : ∃ b₁, Reader.uint32 (ofBytes bytes) =
      .ok (UInt32.ofNat (box.counted 0 mails), b₁) ∧ BeforeBytes bytes
        (pack (Bits.ofNat 18 (box.shown mails).length ++ (box.shown mails).flatMap (headBits box)) ++
          (box.shown mails).flatMap (mailBytes box)) b₁ := by
    refine yields_uint32 (UInt32.ofNat (box.counted 0 mails)) (ofBytes bytes) ?_
    rw [← whole]
    exact start
  obtain ⟨pad, fewer, before⟩ :=
    beforeBits_of_bytes atBits (steady_uint32 (ofBytes bytes) _ b₁ isCount)
  have count : (UInt32.ofNat ((box.shown mails).length % 2 ^ 18)).toNat = (box.shown mails).length := by
    rw [UInt32.toNat_ofNat']
    omega
  have heads := @yields_eachBits bytes ((box.shown mails).flatMap (mailBytes box)) [] pad _ _
    (fun _ => readHead) (headOf box) (headBits box) (box.shown mails) fun mail _ _ =>
      yields_head box mail
  rw [map_const', append_nil] at heads
  have bodies := @yields_eachBytes bytes [] _ _ (fun mail => readMail (headOf box mail)) box.entry
    (mailBytes box) (box.shown mails) fun mail member _ =>
      yields_mail box (isShown mail member) (short mail member)
  rw [append_nil] at bodies
  have all : Yields (BeforeBits bytes (Bits.ofNat 18 (box.shown mails).length ++
        (box.shown mails).flatMap (headBits box)) pad ((box.shown mails).flatMap (mailBytes box)))
      (do
        let mailCount ← Reader.bits 18
        let heads ← Reader.each (List.replicate mailCount.toNat readHead)
        let mails' ← Reader.each (heads.map readMail)
        pure (UInt32.ofNat (box.counted 0 mails), mails'))
      (UInt32.ofNat (box.counted 0 mails), (box.shown mails).map box.entry)
      (BeforeBytes bytes []) := by
    refine (yields_bits (by decide) (box.shown mails).length).bind ?_
    rw [count]
    refine (heads.mono fun b => beforeBytes_of_bits fewer).bind ?_
    rw [List.map_map]
    exact bodies.bind (Yields.pure _)
  obtain ⟨b₂, isRead, atEnd⟩ := all b₁ before
  refine ⟨b₂, ?_, rpos_of_nothing atEnd⟩
  change (Reader.uint32 (ofBytes bytes) >>= fun r => _) = _
  rw [isCount]
  exact isRead

theorem ensures_head : Ensures readHead fun head => head.subjectLength.toNat < 256 := by
  refine Ensures.after fun _ => ?_
  refine (ensures_bits (by decide)).bind fun length below => ?_
  refine Ensures.after fun _ => ?_
  refine Ensures.after fun _ => ?_
  refine Ensures.after fun _ => ?_
  refine Ensures.after fun _ => ?_
  refine Ensures.after fun _ => ?_
  refine Ensures.after fun _ => ?_
  exact Ensures.after fun _ => Ensures.pure below

theorem ensures_mail {head : MailHead} (below : head.subjectLength.toNat < 256) :
    Ensures (readMail head) fun mail => mail.subject.length < 256 := by
  refine Ensures.after fun _ => ?_
  refine Ensures.after fun _ => ?_
  refine Ensures.after fun _ => ?_
  refine Ensures.after fun _ => ?_
  refine Ensures.after fun _ => ?_
  refine Ensures.after fun _ => ?_
  refine (ensures_string _).bind fun subject isLong => ?_
  refine Ensures.after fun _ => ?_
  refine Ensures.after fun _ => ?_
  refine Ensures.after fun _ => ?_
  refine Ensures.after fun _ => ?_
  refine Ensures.after fun _ => ?_
  refine Ensures.after fun _ => ?_
  exact Ensures.after fun _ => Ensures.pure (by rw [isLong]; exact below)

theorem ensures_mailList : Ensures readMailList fun r => ∀ mail ∈ r.2, mail.subject.length < 256 := by
  refine Ensures.after fun _ => ?_
  refine Ensures.after fun _ => ?_
  have areHeads : ∀ n, Ensures (Reader.each (List.replicate n readHead)) fun heads =>
      ∀ head ∈ heads, head.subjectLength.toNat < 256 := fun n => Ensures.each fun p member => by
    rw [eq_of_mem_replicate member]
    exact ensures_head
  refine (areHeads _).bind fun heads areShort => ?_
  refine (Ensures.each fun p member => ?_).bind fun mails areMails => Ensures.pure areMails
  obtain ⟨head, isHead, rfl⟩ := List.mem_map.mp member
  exact ensures_mail (areShort head isHead)

theorem short_of_decodable {box : Mailbox} {mails : List Mail} (decodable : box.Decodable mails) :
    ∀ mail ∈ box.shown mails, mail.subject.length < 256 := by
  obtain ⟨data, -, b, isRead, -⟩ := decodable
  intro mail member
  exact ensures_mailList _ _ b isRead (box.entry mail) (List.mem_map_of_mem member)

/-- **The packet can be decoded exactly if no subject that is shown has more than 255 bytes**, for
all mails that can have been sent. -/
theorem decodable_iff {box : Mailbox} {mails : List Mail} (sendable : ∀ mail ∈ mails, mail.Sendable) :
    box.Decodable mails ↔ ∀ mail ∈ box.shown mails, mail.subject.length < 256 := by
  constructor
  · exact short_of_decodable
  intro short
  obtain ⟨data, isBuilt, storage⟩ := getMailList_ok sendable
  obtain ⟨b, isRead, atEnd⟩ := read_packet sendable short
  refine ⟨data, isBuilt, b, ?_, ?_⟩
  · rw [storage]
    exact isRead
  · unfold ByteBuffer.size
    rw [storage]
    exact atEnd

def boxOfOne : Mailbox where
  mItem guid := if guid = 7 then some ⟨7, 0, 55, fun _ => ⟨0, 0, 0⟩, 0, 0, 55, 1, 2589⟩ else none
  curTime := 1000
  clock _ := 1000
  days _ := 0x41F00000

/-- A letter with the item, an item that is gone, and a subject of a given length. -/
def letter (length : Nat) : Mail where
  messageID := 1
  messageType := mailNormal
  stationery := 41
  mailTemplateId := 0
  sender := 77
  subject := List.replicate length 65
  body := [72, 105]
  items := [8, 7]
  expireTime := 2593000
  deliverTime := 0
  money := 0
  COD := 0
  checked := 0
  state := .unchanged

theorem decodable_letters : boxOfOne.Decodable [letter 255, letter 0] :=
  (decodable_iff (by
    refine List.forall_mem_cons.mpr ⟨by decide +kernel, List.forall_mem_cons.mpr ⟨by decide, ?_⟩⟩
    exact fun m member => absurd member not_mem_nil)).mpr
    (List.forall_mem_cons.mpr ⟨by decide +kernel, List.forall_mem_cons.mpr ⟨by decide,
      fun m member => absurd member not_mem_nil⟩⟩)

/-- A subject of 256 bytes is announced with the length 0. -/
theorem not_decodable_longSubject : ¬ boxOfOne.Decodable [letter 256] := by
  intro decodable
  have short := short_of_decodable decodable (letter 256) (List.mem_singleton.mpr rfl)
  change (List.replicate 256 _).length < 256 at short
  rw [length_replicate] at short
  omega

end Sky548.MailList
