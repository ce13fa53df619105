import Sky548.Packets.Decoding
import Sky548.Packets.Fields

/-!
# Raid target icons

`Group::SendTargetIconList`: the masks of the marked GUIDs behind a count that is put in before
they are flushed, then the bytes of each GUID with its icon.
-/

namespace Sky548.TargetIcons

open List Bits ByteBuffer

local instance neZero : NeZero 8 := ⟨by decide⟩

def maskOrder : List (Fin 8) := [2, 1, 3, 7, 6, 4, 0, 5]

/-- The order of `WriteGuidBytes`; the byte that is left comes behind the icon. -/
def byteOrder : List (Fin 8) := [4, 7, 1, 0, 6, 5, 3]

/-- The first loop, over icons of `m_targetIcons`: their count and the packet. -/
def writeIconMasks (icons : Fin 8 → UInt64) : List (Fin 8) → UInt8 → ByteBuffer →
    Except ByteBufferError (UInt8 × ByteBuffer)
  | [], count, data => .ok (count, data)
  | i :: rest, count, data =>
    if icons i = 0 then writeIconMasks icons rest count data
    else do
      let data ← data.writeGuidMask (.ofGuid (icons i)) maskOrder
      writeIconMasks icons rest (count + 1) data

/-- What the second loop writes of an icon. -/
def iconCalls (icons : Fin 8 → UInt64) (i : Fin 8) : List WriteCall :=
  if icons i = 0 then []
  else
    byteOrder.map (fun j => .writeByteSeq ((ObjectGuid.ofGuid (icons i)).byte j)) ++
      [.int .uint8 (UInt8.ofNat i).toUInt64, .writeByteSeq ((ObjectGuid.ofGuid (icons i)).byte 2)]

def sendTargetIconList (icons : Fin 8 → UInt64) : Except ByteBufferError ByteBuffer := do
  let countPos := fresh.bitwpos
  let data ← fresh.writeBits 0 23
  let (count, data) ← writeIconMasks icons (List.finRange 8) 0 data
  let data ← data.putBits countPos count.toUInt64 23
  let data ← data.flushBits
  data.writeAll ((List.finRange 8).flatMap (iconCalls icons) ++ [.int .uint8 1])

def readIcon (mask : ObjectGuid) : Reader (UInt8 × UInt64) := do
  let guid ← Reader.guidBytes byteOrder mask
  let icon ← Reader.uint8
  let guid ← Reader.guidBytes [2] guid
  pure (icon, guid.toGuid)

def readTargetIcons : Reader (List (UInt8 × UInt64)) := do
  let count ← Reader.bits 23
  let masks ← Reader.each (List.replicate count.toNat (Reader.guidMask maskOrder))
  let icons ← Reader.each (masks.map readIcon)
  let _ ← Reader.uint8
  pure icons

def shown (icons : Fin 8 → UInt64) : List (Fin 8) :=
  (List.finRange 8).filter fun i => icons i ≠ 0

/-- **The packet is built and read**: the icons that are set with their GUIDs, and no byte left. -/
def Decodable (icons : Fin 8 → UInt64) : Prop :=
  ∃ data b, sendTargetIconList icons = .ok data ∧ readTargetIcons (ofBytes data.storage) =
      .ok ((shown icons).map fun i : Fin 8 => (UInt8.ofNat i, icons i), b) ∧
    b.rpos = data.size

variable (icons : Fin 8 → UInt64)

def iconMask (i : Fin 8) : List Bool :=
  maskOrder.map fun j => decide ((ObjectGuid.ofGuid (icons i)).byte j ≠ 0)

def iconBytes (i : Fin 8) : List UInt8 :=
  byteOrder.flatMap (MaskedGuid.bytesAt (.ofGuid (icons i))) ++
    (leBytes 1 (UInt8.ofNat i).toUInt64.toNat ++ MaskedGuid.bytesAt (.ofGuid (icons i)) 2)

theorem writeIconMasks_eq (l : List (Fin 8)) : ∀ (count : UInt8) (data : ByteBuffer),
    writeIconMasks icons l count data = (do
      let data ← writeBitList ((l.filter fun i => icons i ≠ 0).flatMap (iconMask icons)) data
      .ok (count + UInt8.ofNat (l.filter fun i => icons i ≠ 0).length, data)) := by
  induction l with
  | nil =>
    intro count data
    change _ = Except.ok (count + 0, data)
    rw [UInt8.add_zero]
    rfl
  | cons i rest ih =>
    intro count data
    rw [writeIconMasks]
    by_cases isZero : icons i = 0
    · rw [if_pos isZero, ih, filter_cons_of_neg (by simp [isZero])]
    · rw [if_neg isZero, filter_cons_of_pos (by simp [isZero]), flatMap_cons, writeBitList_append,
        length_cons, Nat.add_comm, UInt8.ofNat_add, ← UInt8.add_assoc]
      change (writeBitList (iconMask icons i) data >>= _) = _
      cases writeBitList (iconMask icons i) data with
      | error e => rfl
      | ok data' => exact ih _ data'

theorem src_iconCalls (l : List (Fin 8)) : (l.flatMap (iconCalls icons)).flatMap WriteCall.src =
    (l.filter fun i => icons i ≠ 0).flatMap (iconBytes icons) := by
  induction l with
  | nil => rfl
  | cons i rest ih =>
    rw [flatMap_cons, flatMap_append, ih, iconCalls]
    by_cases isZero : icons i = 0
    · rw [if_pos isZero, filter_cons_of_neg (by simp [isZero]), flatMap_nil, nil_append]
    · rw [if_neg isZero, filter_cons_of_pos (by simp [isZero])]
      simp only [flatMap_append, flatMap_map, flatMap_cons, flatMap_nil, append_nil]
      rfl

theorem isField_iconCalls (l : List (Fin 8)) :
    ∀ call ∈ l.flatMap (iconCalls icons) ++ [.int .uint8 1], call.isField = true := by
  simp only [mem_append, mem_flatMap, mem_singleton]
  rintro call (⟨i, -, member⟩ | rfl)
  · unfold iconCalls at member
    split at member
    · cases member
    · simp only [mem_append, mem_map, mem_cons, not_mem_nil, or_false] at member
      rcases member with ⟨j, -, rfl⟩ | rfl | rfl <;> rfl
  · rfl

theorem length_iconBytes_le (i : Fin 8) : (iconBytes icons i).length ≤ 9 := by
  have front := length_guidBytes_le (.ofGuid (icons i)) byteOrder
  have back := length_guidBytes_le (.ofGuid (icons i)) [2]
  rw [flatMap_singleton] at back
  unfold iconBytes
  rw [length_append, length_append, length_leBytes]
  exact Nat.add_le_add front (Nat.add_le_add_left back 1)

theorem sendTargetIconList_ok (some : shown icons ≠ []) :
    ∃ data, sendTargetIconList icons = .ok data ∧
      data.storage = pack (Bits.ofNat 23 (shown icons).length ++
        (shown icons).flatMap (iconMask icons)) ++
          ((shown icons).flatMap (iconBytes icons) ++ [1]) := by
  have few : (shown icons).length ≤ 8 := length_filter_le _ _
  have atLeast := length_pos_iff.mpr some
  have masks : ((shown icons).flatMap (iconMask icons)).length = 8 * (shown icons).length := by
    rw [length_flatMap, Nat.mul_comm, ← sum_replicate_nat, ← map_const']
    rfl
  have bytes := length_flatMap_le fun i (_ : i ∈ shown icons) => length_iconBytes_le icons i
  have count : (0 + UInt8.ofNat (shown icons).length).toUInt64.toNat = (shown icons).length := by
    rw [UInt8.zero_add, UInt8.toNat_toUInt64, UInt8.toNat_ofNat']
    omega
  have limit : appendLimit = 10000000 := rfl
  have headed₀ : Headed [] fresh [] := ⟨rfl, rfl, rfl, rfl⟩
  obtain ⟨b₁, zeros, headed₁⟩ := headed₀.writeBitList (Bits.ofNat 23 0) (by decide)
  obtain ⟨b₂, isMasks, headed₂⟩ := headed₁.writeBitList ((shown icons).flatMap (iconMask icons)) (by
    rw [length_append, masks]
    change 0 + (23 + _) / 8 < _
    omega)
  obtain ⟨b₃, isPut, headed₃⟩ := headed₀.putBits (by decide)
    (0 + UInt8.ofNat (shown icons).length).toUInt64 (by
      rw [length_append, length_append, masks, length_ofNat]
      change 0 + (0 + 23 + _) / 8 < _
      omega) zeros isMasks (by omega)
  rw [count, nil_append] at headed₃
  obtain ⟨b₄, isFlushed, filled⟩ := headed₃.flushBits (by
    rw [nil_append, length_pack, length_append, masks, length_ofNat]
    omega)
  obtain ⟨b₅, isWritten, filled⟩ := filled.writeAll _ (isField_iconCalls icons (List.finRange 8)) (by
    rw [flatMap_append, src_iconCalls, nil_append, length_append, length_append, length_pack,
      length_append, masks, length_ofNat]
    change _ + (((shown icons).flatMap (iconBytes icons)).length + 1) < _
    omega)
  refine ⟨b₅, ?_, ?_⟩
  · have front : fresh.writeBits 0 23 = .ok b₁ := zeros
    have loop : writeIconMasks icons (List.finRange 8) 0 b₁ =
        .ok (0 + UInt8.ofNat (shown icons).length, b₂) := by
      rw [writeIconMasks_eq]
      change (writeBitList ((shown icons).flatMap (iconMask icons)) b₁ >>= _) = _
      rw [isMasks]
      rfl
    unfold sendTargetIconList
    simp only [front, loop, isPut, isFlushed, ok_bind]
    exact isWritten
  · rw [filled.contents.1, flatMap_append, src_iconCalls]
    rfl

theorem yields_icon (i : Fin 8) {bytes after : List UInt8} :
    Yields (BeforeBytes bytes (iconBytes icons i ++ after)) (readIcon (maskOf (.ofGuid (icons i))))
      (UInt8.ofNat i, icons i) (BeforeBytes bytes after) := by
  unfold iconBytes
  rw [append_assoc, append_assoc, ← flatMap_singleton (MaskedGuid.bytesAt (.ofGuid (icons i)))]
  refine (yields_someBytes _ _ (by decide) fun _ _ => rfl).bind ?_
  refine (yields_uint8 _).bind ?_
  refine (yields_someBytes _ _ (by decide) fun j isLast => ?_).bind ?_
  · rw [mem_singleton.mp isLast]
    rfl
  have whole : ∀ j : Fin 8, j ∉ [2] → j ∈ byteOrder := by decide
  have same : ∀ mask : ObjectGuid, (⟨fun j => if j ∈ [2] then (ObjectGuid.ofGuid (icons i)).byte j else
      if j ∈ byteOrder then (ObjectGuid.ofGuid (icons i)).byte j else mask.byte j⟩ : ObjectGuid) =
        .ofGuid (icons i) := by
    intro mask
    apply ObjectGuid.ext_byte
    intro j
    by_cases isLast : j ∈ [2]
    · exact if_pos isLast
    · exact (if_neg isLast).trans (if_pos (whole j isLast))
  rw [same, ObjectGuid.toGuid_ofGuid]
  exact Yields.pure _

theorem read_packet {bytes : List UInt8} (few : (shown icons).length ≤ 8)
    (isPacket : bytes = pack (Bits.ofNat 23 (shown icons).length ++
      (shown icons).flatMap (iconMask icons)) ++ ((shown icons).flatMap (iconBytes icons) ++ [1])) :
    ∃ b, readTargetIcons (ofBytes bytes) =
      .ok ((shown icons).map fun i : Fin 8 => (UInt8.ofNat i, icons i), b) ∧
      b.rpos = bytes.length := by
  have start := beforeBytes_ofBytes bytes
  nth_rewrite 2 [isPacket] at start
  obtain ⟨pad, fewer, before⟩ := beforeBits_of_bytes start rfl
  have masks := @yields_eachBits bytes ((shown icons).flatMap (iconBytes icons) ++ [1]) [] pad _ _
    (fun _ => Reader.guidMask maskOrder) (fun i => maskOf (.ofGuid (icons i))) (iconMask icons)
    (shown icons) fun i _ _ => yields_guidMask _ (by decide)
  rw [map_const', append_nil] at masks
  have entries := @yields_eachBytes bytes [1] _ _ (fun i => readIcon (maskOf (.ofGuid (icons i))))
    (fun i => (UInt8.ofNat i, icons i)) (iconBytes icons) (shown icons) fun i _ _ => yields_icon icons i
  have count : (UInt32.ofNat ((shown icons).length % 2 ^ 23)).toNat = (shown icons).length := by
    rw [UInt32.toNat_ofNat']
    omega
  have all : Yields (BeforeBits bytes (Bits.ofNat 23 (shown icons).length ++
      (shown icons).flatMap (iconMask icons)) pad ((shown icons).flatMap (iconBytes icons) ++ [1]))
      readTargetIcons ((shown icons).map fun i : Fin 8 => (UInt8.ofNat i, icons i))
      (BeforeBytes bytes []) := by
    refine (yields_bits (by decide) (shown icons).length).bind ?_
    rw [count]
    refine (masks.mono fun b => beforeBytes_of_bits fewer).bind ?_
    rw [List.map_map]
    refine entries.bind ?_
    exact (@yields_uint8 bytes [] 1).bind (Yields.pure _)
  obtain ⟨b, isRead, atEnd⟩ := all _ before
  exact ⟨b, isRead, rpos_of_nothing atEnd⟩

/-- **The packet is built and read exactly if an icon is set**: without masks the last bits of the
placeholder are still pending when the count is put in. -/
theorem decodable_iff_iconSet (icons : Fin 8 → UInt64) : Decodable icons ↔ ∃ i, icons i ≠ 0 := by
  constructor
  · rintro ⟨data, b, isOk, -⟩
    by_contra noneSet
    obtain rfl : icons = fun _ => 0 :=
      funext fun i => not_not.mp fun isSet => noneSet ⟨i, isSet⟩
    cases isOk
  · intro ⟨i, isSet⟩
    have member : i ∈ shown icons := mem_filter.mpr ⟨mem_finRange i, decide_eq_true isSet⟩
    obtain ⟨data, isOk, storage⟩ := sendTargetIconList_ok icons (ne_nil_of_mem member)
    obtain ⟨b, isRead, atEnd⟩ := read_packet icons (length_filter_le _ _) storage
    exact ⟨data, b, isOk, isRead, atEnd⟩

/-- No icon is set. -/
theorem not_decodable_noIcons : ¬ Decodable fun _ => 0 := by
  rintro ⟨data, b, isOk, -⟩
  cases isOk

end Sky548.TargetIcons
