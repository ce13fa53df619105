import Sky548.Packets.Decoding
import Sky548.Packets.Fields

/-!
# The standing of factions

`ReputationMgr::SendState`: a flag and a count in bits, the faction it is called for and all
others that have changed. The count is put in last, at the position where the bits begin.
-/

namespace Sky548

open List ByteBuffer Bits

structure FactionState where
  ReputationListID : UInt32
  Standing : UInt32
  needSend : Bool

/-- `_factions` is in the order of its keys. -/
structure ReputationMgr where
  sendFactionIncreased : Bool
  factions : List FactionState

namespace ReputationMgr

/-- The loop over `_factions`: the states it leaves, the count and the packet. -/
def sendOthers (faction : FactionState) : List FactionState → UInt32 → ByteBuffer →
    Except ByteBufferError (List FactionState × UInt32 × ByteBuffer)
  | [], count, data => .ok ([], count, data)
  | state :: rest, count, data =>
    if state.needSend then
      if state.ReputationListID ≠ faction.ReputationListID then do
        let data ← data.appendValue (leBytes 4 state.ReputationListID.toUInt64.toNat)
        let data ← data.appendValue (leBytes 4 state.Standing.toUInt64.toNat)
        let (others, count, data) ← sendOthers faction rest (count + 1) data
        .ok ({ state with needSend := false } :: others, count, data)
      else do
        let (others, count, data) ← sendOthers faction rest count data
        .ok ({ state with needSend := false } :: others, count, data)
    else do
      let (others, count, data) ← sendOthers faction rest count data
      .ok (state :: others, count, data)

/-- `SendState`; a `float` of 0 is four bytes of 0. -/
def sendState (m : ReputationMgr) (faction : FactionState) :
    Except ByteBufferError (ByteBuffer × ReputationMgr) := do
  let countPos := fresh.bitwpos
  let data ← fresh.writeBit m.sendFactionIncreased
  let data ← data.writeBits 1 21
  let data ← data.flushBits
  let data ← data.appendValue (leBytes 4 faction.Standing.toUInt64.toNat)
  let data ← data.appendValue (leBytes 4 faction.ReputationListID.toUInt64.toNat)
  let (factions, count, data) ← sendOthers faction m.factions 1 data
  let data ← data.appendValue (leBytes 4 0)
  let data ← data.appendValue (leBytes 4 0)
  let data ← data.putBits countPos count.toUInt64 21
  .ok (data, ⟨false, factions⟩)

/-- The standing and the list id of a faction. -/
def readEntry : Reader (UInt32 × UInt32) := do
  let standing ← Reader.uint32
  let listID ← Reader.uint32
  pure (standing, listID)

def readState : Reader (Bool × List (UInt32 × UInt32)) := do
  let increased ← Reader.bit
  let count ← Reader.bits 21
  let entries ← Reader.each (List.replicate count.toNat readEntry)
  let _ ← Reader.uint32
  let _ ← Reader.uint32
  pure (increased, entries)

def isSent (faction state : FactionState) : Bool :=
  state.needSend && decide (state.ReputationListID ≠ faction.ReputationListID)

/-- **The packet is sent and read**: the flag as it was, each faction once, and no byte left. -/
def Decodable (m : ReputationMgr) (faction : FactionState) : Prop :=
  ∃ data m' entries b, m.sendState faction = .ok (data, m') ∧
    readState (ofBytes data.storage) = .ok ((m.sendFactionIncreased, entries), b) ∧
    entries.Perm ((faction :: m.factions.filter (isSent faction)).map fun state =>
      (state.Standing, state.ReputationListID)) ∧
    b.rpos = data.size

variable {m : ReputationMgr} {faction : FactionState} {bytes : List UInt8} {b : ByteBuffer}
  {n : Nat}

theorem sendOthers_ok (states : List FactionState) : ∀ {bytes : List UInt8} {count : UInt32}
    {r : List FactionState × UInt32 × ByteBuffer},
    sendOthers faction states count (ofBytes bytes) = .ok r →
    ∃ sent, r.2 = (count + UInt32.ofNat (states.filter (isSent faction)).length,
      ofBytes (bytes ++ sent)) ∧ sent.length = 8 * (states.filter (isSent faction)).length := by
  induction states with
  | nil =>
    intro bytes count r isOk
    cases isOk
    refine ⟨[], ?_, rfl⟩
    rw [append_nil, filter_nil, length_nil, show UInt32.ofNat 0 = 0 from rfl, UInt32.add_zero]
  | cons state rest ih =>
    intro bytes count r isOk
    rw [sendOthers] at isOk
    by_cases needs : state.needSend = true
    · rw [if_pos needs] at isOk
      by_cases other : state.ReputationListID ≠ faction.ReputationListID
      · rw [if_pos other] at isOk
        obtain ⟨_, first, isOk⟩ := bind_ok isOk
        obtain ⟨_, second, isOk⟩ := bind_ok isOk
        obtain ⟨_, later, isOk⟩ := bind_ok isOk
        cases isOk
        obtain ⟨-, rfl⟩ := appendValue_ok first
        obtain ⟨-, rfl⟩ := appendValue_ok second
        obtain ⟨sent, onto, length⟩ := ih later
        have isSent : isSent faction state = true := by simp [isSent, needs, other]
        rw [append_assoc, append_assoc, UInt32.add_assoc, UInt32.add_comm 1] at onto
        rw [filter_cons_of_pos isSent, length_cons, UInt32.ofNat_add]
        refine ⟨_, onto, ?_⟩
        rw [length_append, length_append, length_leBytes, length_leBytes, length]
        omega
      · rw [if_neg other] at isOk
        obtain ⟨_, later, isOk⟩ := bind_ok isOk
        cases isOk
        have notSent : ¬ isSent faction state = true := by simp [isSent, other]
        rw [filter_cons_of_neg notSent]
        have found := ih later
        exact found
    · rw [if_neg needs] at isOk
      obtain ⟨_, later, isOk⟩ := bind_ok isOk
      cases isOk
      have notSent : ¬ isSent faction state = true := by simp [isSent, needs]
      rw [filter_cons_of_neg notSent]
      have found := ih later
      exact found

/-- The bytes of the flag and of the count of 1 in front of all others. -/
def head (increased : Bool) : List UInt8 := [if increased then 128 else 0, 0, 4]

theorem putBitList_head (increased : Bool) (count : UInt64) (src : List UInt8) :
    putBitList (Bits.ofNat 21 count.toNat) 0 (head increased ++ src) =
      pack (Bits.ofNat 21 count.toNat ++ [true]) ++ src := by
  have put := @putBitList_packed [] 21 (by decide) count [true] src (by decide)
  refine Eq.trans ?_ put
  cases increased with
  | false => rfl
  | true =>
    have same : ∀ bit, putBit 0 bit 128 = putBit 0 bit 0 := by decide
    change putBitList _ 1 ((putBit 0 _ 128) :: _) = putBitList _ 1 ((putBit 0 _ 0) :: _)
    rw [same]
    rfl

theorem sendState_ok {data : ByteBuffer} {m' : ReputationMgr}
    (isLength : (m.factions.filter (isSent faction)).length = n)
    (isOk : m.sendState faction = .ok (data, m')) :
    ∃ src, data.storage = pack (Bits.ofNat 21 (n + 1) ++ [true]) ++ src ∧ n < appendLimit / 8 := by
  obtain ⟨_, isBit, isOk⟩ := bind_ok isOk
  obtain ⟨_, isOne, isOk⟩ := bind_ok isOk
  obtain ⟨_, isFlushed, isOk⟩ := bind_ok isOk
  obtain ⟨_, _, bit, one, flushed⟩ : ∃ a b, fresh.writeBit m.sendFactionIncreased = .ok a ∧
      a.writeBits 1 21 = .ok b ∧ b.flushBits = .ok (ofBytes (head m.sendFactionIncreased)) := by
    cases m.sendFactionIncreased <;> exact ⟨_, _, rfl, rfl, rfl⟩
  cases isBit.symm.trans bit
  cases isOne.symm.trans one
  cases isFlushed.symm.trans flushed
  obtain ⟨_, first, isOk⟩ := bind_ok isOk
  obtain ⟨-, rfl⟩ := appendValue_ok first
  obtain ⟨_, second, isOk⟩ := bind_ok isOk
  obtain ⟨-, rfl⟩ := appendValue_ok second
  obtain ⟨⟨factions, r⟩, loop, isOk⟩ := bind_ok isOk
  obtain ⟨sent, rfl, length⟩ := sendOthers_ok m.factions loop
  rw [isLength] at length
  obtain ⟨_, third, isOk⟩ := bind_ok isOk
  obtain ⟨short, rfl⟩ := appendValue_ok third
  obtain ⟨_, fourth, isOk⟩ := bind_ok isOk
  obtain ⟨-, rfl⟩ := appendValue_ok fourth
  obtain ⟨_, put, isOk⟩ := bind_ok isOk
  cases isOk
  rw [isLength] at put
  rw [length_append, length] at short
  unfold appendLimit at short ⊢
  have counted : (1 + UInt32.ofNat n).toUInt64.toNat = n + 1 := by
    rw [UInt32.toNat_toUInt64, UInt32.toNat_add, UInt32.toNat_ofNat', UInt32.toNat_one]
    omega
  simp only [append_assoc] at put
  unfold putBits at put
  rw [if_neg (by decide)] at put
  split at put
  · cases put
  cases put
  rw [← counted]
  exact ⟨_, putBitList_head _ _ _, by omega⟩

theorem ensures_length {α : Type} (ps : List (Reader α)) :
    Ensures (Reader.each ps) fun as => as.length = ps.length := by
  induction ps with
  | nil => exact Ensures.pure rfl
  | cons p rest ih =>
    refine Ensures.after fun a => ih.bind fun as same => Ensures.pure ?_
    rw [length_cons, length_cons, same]

theorem ofNat_append_true (v n : Nat) :
    Bits.ofNat n v ++ [true] = Bits.ofNat (n + 1) (2 * v + 1) := by
  induction n with
  | zero =>
    have odd : (2 * v + 1) % 2 = 1 := by omega
    rw [Bits.ofNat, Bits.ofNat, Nat.testBit_zero, odd]
    rfl
  | succ n ih =>
    have half : (2 * v + 1) / 2 = v := by omega
    have next : (2 * v + 1).testBit (n + 1) = v.testBit n := by rw [Nat.testBit_succ, half]
    rw [Bits.ofNat, cons_append, ih, ← next]
    rfl

theorem ensures_entries (increased : Bool) (count : Nat) :
    Ensures (do
      let entries ← Reader.each (List.replicate count readEntry)
      let _ ← Reader.uint32
      let _ ← Reader.uint32
      pure (increased, entries)) fun r => r.2.length = count := by
  refine (ensures_length _).bind fun entries same => Ensures.after fun _ => Ensures.after fun _ => ?_
  rw [length_replicate] at same
  exact Ensures.pure same

theorem of_bind {α β : Type} {p : Reader α} {f : α → Reader β} {a : α} {b₁ : ByteBuffer}
    {r : Except ByteBufferError (β × ByteBuffer)} (isFirst : p b = .ok (a, b₁))
    (isRead : (p >>= f) b = r) : f a b₁ = r := by
  change (p b >>= fun r => f r.1 r.2) = _ at isRead
  rw [isFirst] at isRead
  exact isRead

/-- **No packet is read as it is meant**: with the last bit of the 1 behind it, the count is read as
twice the number of factions and one. -/
theorem not_decodable (m : ReputationMgr) (faction : FactionState) : ¬ Decodable m faction := by
  rintro ⟨data, m', entries, b, isOk, isRead, all, -⟩
  obtain ⟨n, isLength⟩ : ∃ n, (m.factions.filter (isSent faction)).length = n := ⟨_, rfl⟩
  obtain ⟨src, storage, few⟩ := sendState_ok isLength isOk
  have length := all.length_eq
  rw [length_map, length_cons, isLength] at length
  rw [ofNat_append_true, Bits.ofNat, ← append_nil (Bits.ofNat 21 _)] at storage
  rw [storage] at isRead
  obtain ⟨pad, -, before⟩ := beforeBits_of_bytes (beforeBytes_ofBytes (pack
    ((2 * (n + 1) + 1).testBit 21 :: (Bits.ofNat 21 (2 * (n + 1) + 1) ++ [])) ++ src)) rfl
  obtain ⟨b₁, isBit, before⟩ := yields_bit _ _ before
  obtain ⟨b₂, isCount, -⟩ := yields_bits (by decide) _ _ before
  unfold readState at isRead
  have isRead := of_bind isBit isRead
  have isRead := of_bind isCount isRead
  have read := ensures_entries _ _ _ _ _ isRead
  change entries.length = _ at read
  rw [UInt32.toNat_ofNat', length] at read
  unfold appendLimit at few
  omega

/-- One faction has changed, and three are read. -/
theorem not_decodable_one : ¬ Decodable ⟨true, [⟨72, 3000, true⟩]⟩ ⟨72, 3000, true⟩ := by
  rintro ⟨data, m', entries, b, isOk, isRead, -⟩
  have unread : (sendState ⟨true, [⟨72, 3000, true⟩]⟩ ⟨72, 3000, true⟩ >>= fun r =>
      readState (ofBytes r.1.storage)).toOption.isNone := by decide +kernel
  rw [isOk] at unread
  change (readState (ofBytes data.storage)).toOption.isNone = true at unread
  rw [isRead] at unread
  cases unread

end ReputationMgr

end Sky548
