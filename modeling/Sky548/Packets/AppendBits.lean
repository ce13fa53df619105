import Sky548.Packets.Order

/-!
# Bits behind bits

`AppendBits` writes what another buffer holds bit by bit: its bytes, and then the top of
its pending byte. The bits arrive at whatever offset the pending bits have left.
-/

namespace Sky548

open List

open Bits

namespace ByteBuffer

/-- The loop of `AppendBits` over its bytes. It counts in 32 bits; a longer argument meets the
assertion of `append` first. -/
def writeBytes : List UInt8 → ByteBuffer → Except ByteBufferError ByteBuffer
  | [], b => .ok b
  | byte :: rest, b => do
      let b ← b.writeBits byte.toUInt64 8
      writeBytes rest b

/-- `AppendBits`, of another buffer, which is a `const` reference and stays as it is. -/
def appendBits (b buffer : ByteBuffer) : Except ByteBufferError ByteBuffer := do
  let b ← writeBytes (buffer.storage.take buffer.wpos) b
  b.writeBits (buffer.curbitval.toUInt64 >>> UInt64.ofNat buffer.bitpos) (8 - buffer.bitpos)

/-- The pending bits: the top of the byte that is being filled. -/
def pending (b : ByteBuffer) : List Bool := (ofByte b.curbitval).take (8 - b.bitpos)

def stream (b : ByteBuffer) : List Bool := unpack b.storage ++ b.pending

end ByteBuffer

theorem ofNat_eight (byte : UInt8) : Bits.ofNat 8 byte.toNat = ofByte byte := by
  have bits : ∀ i < 8, isSet byte (7 - i) = byte.toNat.testBit (7 - i) := fun i _ =>
    isSet_eq_testBit byte (by omega)
  unfold ofByte
  rw [map_congr_left fun i member => bits i (List.mem_range.mp member)]
  rfl

theorem ofNat_shiftRight (v j : Nat) : ∀ k : Nat,
    Bits.ofNat k (v >>> j) = (Bits.ofNat (k + j) v).take k := by
  intro k
  induction k with
  | zero => rfl
  | succ k ih =>
    have next : k + 1 + j = k + j + 1 := by omega
    rw [next, Bits.ofNat, Bits.ofNat, ih, Nat.testBit_shiftRight, Nat.add_comm j k, take_succ_cons]

namespace Layout

def stream (l : Layout) : List Bool := unpack l.chunks.flatten ++ l.tail

theorem unpack_append (xs ys : List UInt8) : unpack (xs ++ ys) = unpack xs ++ unpack ys :=
  flatMap_append

theorem stream_bit (l : Layout) (bit : Bool) : (l.bit bit).stream = l.stream ++ [bit] := by
  unfold Layout.bit
  split
  · rename_i seven
    have eight : (l.tail ++ [bit]).length = 8 := by
      rw [length_append, seven]
      rfl
    have whole : unpack [toByte (l.tail ++ [bit])] = l.tail ++ [bit] := by
      change ofByte (toByte (l.tail ++ [bit])) ++ [] = _
      rw [append_nil, ofByte_toByte (Nat.le_of_eq eight), eight, Nat.sub_self,
        replicate_zero, append_nil]
    unfold stream
    rw [flatten_append, flatten_singleton, unpack_append, whole, append_nil, append_assoc]
  · exact (append_assoc _ _ _).symm

theorem stream_bits (bits : List Bool) : ∀ l : Layout, (l.bits bits).stream = l.stream ++ bits := by
  induction bits with
  | nil => exact fun l => (append_nil _).symm
  | cons bit rest ih =>
    intro l
    change ((l.bit bit).bits rest).stream = _
    rw [ih, l.stream_bit, append_assoc]
    rfl

theorem bits_append (l : Layout) (xs ys : List Bool) : l.bits (xs ++ ys) = (l.bits xs).bits ys :=
  foldl_append

theorem fits_bits (bits : List Bool) : ∀ {l : Layout}, Fits l.chunks →
    l.chunks.flatten.length + (l.tail.length + bits.length) / 8 ≤ appendLimit →
      Fits (l.bits bits).chunks := by
  induction bits with
  | nil => exact fun fits _ => fits
  | cons bit rest ih =>
    intro l fits room
    change Fits ((l.bit bit).bits rest).chunks
    rw [length_cons] at room
    by_cases seven : l.tail.length = 7
    · have filled : l.bit bit = ⟨l.chunks ++ [[toByte (l.tail ++ [bit])]], [], by decide⟩ :=
        dif_pos seven
      rw [filled]
      refine ih (fits_append.mpr (by omega)) ?_
      rw [flatten_append, flatten_singleton, length_append, length_singleton, length_nil]
      omega
    · have short := l.short
      have tail := l.length_tail_bit bit
      have same : (l.bit bit).chunks = l.chunks := by
        unfold Layout.bit
        rw [dif_neg seven]
      refine ih (same.symm ▸ fits) ?_
      rw [tail, same]
      omega

end Layout

namespace ByteBuffer

variable {a b : ByteBuffer} {la lb l : Layout}

theorem Holds.pending (holds : Holds b l) : b.pending = l.tail := by
  have short := l.short
  have count : 8 - (8 - l.tail.length) = l.tail.length := by omega
  unfold ByteBuffer.pending
  rw [holds.curbitval, holds.bitpos, count, ofByte_toByte (Nat.le_of_lt short), take_left]

theorem Holds.stream (holds : Holds b l) : b.stream = l.stream := by
  unfold ByteBuffer.stream
  rw [holds.pending, holds.storage]
  rfl

theorem Holds.writeBytes (bytes : List UInt8) : ∀ {b : ByteBuffer} {l : Layout}, Holds b l →
    Fits l.chunks → Writes (ByteBuffer.writeBytes bytes b) (l.bits (unpack bytes)) := by
  induction bytes with
  | nil => exact fun holds fits => holds.writes fits
  | cons byte rest ih =>
    intro b l holds fits
    have bits : unpack (byte :: rest) = ofByte byte ++ unpack rest := rfl
    have first : b.writeBits byte.toUInt64 8 = ByteBuffer.writeBitList (ofByte byte) b :=
      congrArg (ByteBuffer.writeBitList · b) (ofNat_eight byte)
    unfold ByteBuffer.writeBytes
    rw [first, bits, l.bits_append]
    exact (holds.writeBitList _ fits).bind (Layout.prefix_bits _ _) fun _ holds' fits' =>
      ih holds' fits'

theorem Holds.shifted (holds : Holds b l) :
    Bits.ofNat (8 - b.bitpos) (b.curbitval.toUInt64 >>> UInt64.ofNat b.bitpos).toNat = l.tail := by
  have short := l.short
  have few : b.bitpos ≤ 8 := by
    rw [holds.bitpos]
    omega
  have small : b.bitpos % 2 ^ 64 % 64 = b.bitpos := by omega
  have eight : 8 - b.bitpos + b.bitpos = 8 := by omega
  rw [UInt64.toNat_shiftRight, UInt64.toNat_ofNat', small, UInt8.toNat_toUInt64, ofNat_shiftRight,
    eight, ofNat_eight]
  exact holds.pending

theorem Holds.appendBits (holds : Holds a la) (holds' : Holds b lb) (fits : Fits la.chunks) :
    Writes (a.appendBits b) (la.bits lb.stream) := by
  have bytes : b.storage.take b.wpos = lb.chunks.flatten := by
    rw [holds'.wpos, take_length, holds'.storage]
  unfold ByteBuffer.appendBits
  rw [bytes, Layout.stream, la.bits_append]
  refine (holds.writeBytes _ fits).bind (Layout.prefix_bits _ _) fun a' holds'' fits' => ?_
  unfold writeBits
  rw [holds'.shifted]
  exact holds''.writeBitList _ fits'

theorem holds_of_writeAll {calls : List WriteCall} (built : fresh.writeAll calls = .ok b) :
    ∃ l, Fits l.chunks ∧ Holds b l := by
  have hasSource := hasSource_of_ok calls holds_fresh (by decide) built
  have written := holds_fresh.writeAll calls (by decide) hasSource
  rw [built] at written
  exact ⟨_, written.ok⟩

/-- **`AppendBits` puts one stream behind the other**, for any two buffers that have been
written, and comes through where `append` has room for the bytes that are filled. -/
theorem appendBits_stream {xs ys : List WriteCall} (built : fresh.writeAll xs = .ok a)
    (built' : fresh.writeAll ys = .ok b) :
    (a.size + (a.pending.length + b.stream.length) / 8 ≤ appendLimit →
      ∃ a', a.appendBits b = .ok a') ∧
    ∀ a', a.appendBits b = .ok a' → a'.stream = a.stream ++ b.stream := by
  obtain ⟨la, fits, holds⟩ := holds_of_writeAll built
  obtain ⟨lb, -, holds'⟩ := holds_of_writeAll built'
  have written := holds.appendBits holds' fits
  refine ⟨fun room => ?_, fun a' isOk => ?_⟩
  · unfold size at room
    rw [holds.storage, holds.pending, holds'.stream] at room
    rcases written with ⟨-, a', isOk, -⟩ | ⟨unfit, -⟩
    · exact ⟨a', isOk⟩
    · exact absurd (Layout.fits_bits _ fits room) unfit
  · rw [isOk] at written
    rw [written.ok.2.stream, holds.stream, holds'.stream, Layout.stream_bits]

/-- A byte and three bits behind a byte and two bits. -/
theorem appendBits_stream_pending :
    ∃ a b a', fresh.writeAll [.int .uint8 7, .writeBits 2 2 (by decide)] = .ok a ∧
      fresh.writeAll [.int .uint8 200, .writeBits 5 3 (by decide)] = .ok b ∧
      a.appendBits b = .ok a' ∧ a'.stream = a.stream ++ b.stream := by
  have first : fresh.writeAll [.int .uint8 7, .writeBits 2 2 (by decide)] =
      .ok ⟨0, 1, 6, 0x80, [7]⟩ := by rfl
  have second : fresh.writeAll [.int .uint8 200, .writeBits 5 3 (by decide)] =
      .ok ⟨0, 1, 5, 0xA0, [200]⟩ := by rfl
  obtain ⟨comes, isStream⟩ := appendBits_stream first second
  obtain ⟨a', isOk⟩ := comes (by decide)
  exact ⟨_, _, a', first, second, isOk, isStream a' isOk⟩

end ByteBuffer

end Sky548
