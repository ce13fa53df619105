import Sky548.Packets.Reading

/-!
# Masked GUIDs

GUIDs in a packet: first the masks of all of them, a bit for every byte that is not
zero, then those bytes, each with its lowest bit turned over. The reader has the mask bit
in the place of the byte and turns the two into each other.
-/

namespace Sky548

open List

open Bits

namespace ObjectGuid

theorem ext_byte {g h : ObjectGuid} (same : ∀ i, g.byte i = h.byte i) : g = h := by
  cases g
  cases h
  exact congrArg ObjectGuid.mk (funext same)

theorem leBytes_eq_ofFn (n : Nat) : ∀ v : Nat,
    leBytes n v = List.ofFn fun i : Fin n => UInt8.ofNat (v / 256 ^ i.val) := by
  induction n with
  | zero => exact fun _ => rfl
  | succ n ih =>
    intro v
    rw [leBytes, ih, ofFn_succ]
    refine congrArg₂ List.cons ?_ (congrArg List.ofFn (funext fun i => ?_))
    · exact congrArg UInt8.ofNat (Nat.div_one v).symm
    · rw [Nat.div_div_eq_div_mul, Fin.val_succ, Nat.pow_succ, Nat.mul_comm 256]

@[simp] theorem toGuid_ofGuid (guid : UInt64) : (ofGuid guid).toGuid = guid := by
  unfold toGuid ofGuid
  have small : guid.toNat < 256 ^ 8 := UInt64.toNat_lt guid
  rw [← leBytes_eq_ofFn, ofLeBytes_leBytes, Nat.mod_eq_of_lt small]
  exact UInt64.ofNat_toNat

end ObjectGuid

/-- A GUID with the orders of its mask bits and its bytes. -/
structure MaskedGuid where
  guid : UInt64
  maskOrder : List (Fin 8)
  byteOrder : List (Fin 8)
  mask_perm : maskOrder.Perm (List.finRange 8)
  byte_perm : byteOrder.Perm (List.finRange 8)

namespace ByteBuffer

def writeMasks : List MaskedGuid → ByteBuffer → Except ByteBufferError ByteBuffer
  | [], b => .ok b
  | g :: rest, b => do
      let b ← b.writeGuidMask (.ofGuid g.guid) g.maskOrder
      writeMasks rest b

def writeMasked : List MaskedGuid → ByteBuffer → Except ByteBufferError ByteBuffer
  | [], b => .ok b
  | g :: rest, b => do
      let b ← b.writeGuidBytes (.ofGuid g.guid) g.byteOrder
      writeMasked rest b

/-- Other bits, the masks and the bytes. -/
def writeGuids (flags : List Bool) (guids : List MaskedGuid) (b : ByteBuffer) :
    Except ByteBufferError ByteBuffer := do
  let b ← writeBitList flags b
  let b ← writeMasks guids b
  writeMasked guids b

def readBitList : Nat → ByteBuffer → Except ByteBufferError (List Bool × ByteBuffer)
  | 0, b => .ok ([], b)
  | n + 1, b => do
      let (bit, b) ← b.readBit
      let (bits, b) ← readBitList n b
      .ok (bit :: bits, b)

def readMasks : List MaskedGuid → ByteBuffer → Except ByteBufferError (List ObjectGuid × ByteBuffer)
  | [], b => .ok ([], b)
  | g :: rest, b => do
      let (guid, b) ← b.readGuidMask g.maskOrder (.ofGuid 0)
      let (guids, b) ← readMasks rest b
      .ok (guid :: guids, b)

def readMasked : List (MaskedGuid × ObjectGuid) → ByteBuffer →
    Except ByteBufferError (List ObjectGuid × ByteBuffer)
  | [], b => .ok ([], b)
  | g :: rest, b => do
      let (guid, b) ← b.readGuidBytes g.1.byteOrder g.2
      let (guids, b) ← readMasked rest b
      .ok (guid :: guids, b)

/-- Other bits, the masks and the bytes: the bits, the GUIDs and the buffer. -/
def readGuids (flags : Nat) (guids : List MaskedGuid) (b : ByteBuffer) :
    Except ByteBufferError (List Bool × List UInt64 × ByteBuffer) := do
  let (bits, b) ← readBitList flags b
  let (masks, b) ← readMasks guids b
  let (read, b) ← readMasked (guids.zip masks) b
  .ok (bits, read.map ObjectGuid.toGuid, b)

end ByteBuffer

namespace MaskedGuid

def mask (g : MaskedGuid) : List Bool :=
  g.maskOrder.map fun i => (ObjectGuid.ofGuid g.guid).byte i ≠ 0

def bytesAt (guid : ObjectGuid) (i : Fin 8) : List UInt8 :=
  if guid.byte i = 0 then [] else [guid.byte i ^^^ 1]

def bytes (g : MaskedGuid) : List UInt8 :=
  g.byteOrder.flatMap (bytesAt (.ofGuid g.guid))

@[simp] theorem length_mask (g : MaskedGuid) : g.mask.length = 8 := by
  unfold mask
  rw [length_map, g.mask_perm.length_eq]
  rfl

def calls (flags : List Bool) (guids : List MaskedGuid) : List WriteCall :=
  (flags ++ guids.flatMap mask).map (fun bit => .writeBit (if bit then 1 else 0)) ++
    guids.flatMap fun g => g.byteOrder.map fun i =>
      .writeByteSeq ((ObjectGuid.ofGuid g.guid).byte i)

end MaskedGuid

namespace ByteBuffer

open MaskedGuid

variable {b : ByteBuffer}

theorem writeAll_append (calls more : List WriteCall) : ∀ b : ByteBuffer,
    b.writeAll (calls ++ more) = (b.writeAll calls >>= fun b => b.writeAll more) := by
  induction calls with
  | nil => exact fun _ => rfl
  | cons call rest ih =>
    intro b
    rw [cons_append, writeAll, writeAll]
    cases b.write call with
    | error e => rfl
    | ok b' => exact ih b'

theorem writeBitList_eq (bits : List Bool) : ∀ b : ByteBuffer, writeBitList bits b =
    b.writeAll (bits.map fun bit => .writeBit (if bit then 1 else 0)) := by
  induction bits with
  | nil => exact fun _ => rfl
  | cons bit rest ih =>
    intro b
    rw [writeBitList, map_cons, writeAll]
    have first : b.write (.writeBit (if bit then 1 else 0)) = b.writeBit bit := by
      cases bit with
      | true => rfl
      | false => rfl
    rw [first]
    exact congrArg (b.writeBit bit >>= ·) (funext ih)

theorem writeMasks_eq (guids : List MaskedGuid) : ∀ b : ByteBuffer, writeMasks guids b =
    writeBitList (guids.flatMap mask) b := by
  induction guids with
  | nil => exact fun _ => rfl
  | cons g rest ih =>
    intro b
    rw [writeMasks, flatMap_cons, writeBitList_eq, map_append, writeAll_append,
      ← writeBitList_eq, funext ih]
    refine congrArg (writeBitList g.mask b >>= ·) (funext fun b => ?_)
    exact writeBitList_eq _ b

theorem writeGuidBytes_eq (guid : ObjectGuid) (order : List (Fin 8)) : ∀ b : ByteBuffer,
    b.writeGuidBytes guid order = b.writeAll (order.map fun i => .writeByteSeq (guid.byte i)) := by
  induction order with
  | nil => exact fun _ => rfl
  | cons i rest ih =>
    intro b
    rw [writeGuidBytes, map_cons, writeAll]
    exact congrArg (b.writeByteSeq (guid.byte i) >>= ·) (funext ih)

theorem writeMasked_eq (guids : List MaskedGuid) : ∀ b : ByteBuffer, writeMasked guids b =
    b.writeAll (guids.flatMap fun g => g.byteOrder.map fun i =>
      .writeByteSeq ((ObjectGuid.ofGuid g.guid).byte i)) := by
  induction guids with
  | nil => exact fun _ => rfl
  | cons g rest ih =>
    intro b
    rw [writeMasked, flatMap_cons, writeAll_append, ← writeGuidBytes_eq, funext ih]

theorem writeGuids_eq (flags : List Bool) (guids : List MaskedGuid) (b : ByteBuffer) :
    writeGuids flags guids b = b.writeAll (calls flags guids) := by
  have bits : (do
      let b ← writeBitList flags b
      writeMasks guids b) = writeBitList (flags ++ guids.flatMap mask) b := by
    rw [writeBitList_eq (flags ++ _), map_append, writeAll_append, ← writeBitList_eq]
    refine congrArg (writeBitList flags b >>= ·) (funext fun b => ?_)
    rw [writeMasks_eq, writeBitList_eq]
  unfold calls writeGuids
  rw [writeAll_append, ← writeBitList_eq, ← bits, bind_assoc]
  refine congrArg (writeBitList flags b >>= ·) (funext fun b => ?_)
  exact congrArg (writeMasks guids b >>= ·) (funext fun b => writeMasked_eq guids b)

end ByteBuffer

namespace MaskedGuid

theorem flushed_calls (flags : List Bool) (guids : List MaskedGuid) :
    Flushed 0 (calls flags guids) := by
  have general : ∀ (l : List WriteCall) (n : Nat),
      (∀ call ∈ l, (∃ bit, call = .writeBit bit) ∨ ∃ byte, call = .writeByteSeq byte) →
      Flushed n l := by
    intro l
    induction l with
    | nil => exact fun _ _ => True.intro
    | cons call rest ih =>
      intro n all
      refine ⟨?_, ih _ fun other member => all other (mem_cons_of_mem _ member)⟩
      rcases all call mem_cons_self with ⟨bit, rfl⟩ | ⟨byte, rfl⟩
      · exact ⟨nofun, nofun⟩
      · exact ⟨nofun, nofun⟩
  refine general _ 0 fun call member => ?_
  rcases List.mem_append.mp member with isBit | isByte
  · obtain ⟨bit, -, rfl⟩ := List.mem_map.mp isBit
    exact Or.inl ⟨_, rfl⟩
  · obtain ⟨g, -, isByte⟩ := List.mem_flatMap.mp isByte
    obtain ⟨i, -, rfl⟩ := List.mem_map.mp isByte
    exact Or.inr ⟨_, rfl⟩

theorem flatten_encode_bytes (pieces : List (List UInt8)) : ∀ run : List Bool,
    (encode run (pieces.map .bytes)).flatten = pack run ++ pieces.flatten := by
  induction pieces with
  | nil =>
    intro run
    change (packed run).flatten = pack run ++ []
    rw [Field.flatten_packed, append_nil]
  | cons src rest ih =>
    intro run
    rw [map_cons, encode, flatten_cons]
    split
    · rename_i isNil
      rw [ih, isNil, nil_append]
    · rw [flatten_append, flatten_cons, ih, Field.flatten_packed]
      rfl

theorem flatten_encodeCalls (flags : List Bool) (guids : List MaskedGuid) :
    (encodeCalls (calls flags guids)).flatten =
      pack (flags ++ guids.flatMap mask) ++ guids.flatMap bytes := by
  have ofBits : ∀ (bits run : List Bool) (rest : List Piece),
      encode run ((bits.map fun bit => WriteCall.writeBit (if bit then 1 else 0)).flatMap
        WriteCall.pieces ++ rest) = encode (run ++ bits) rest := by
    intro bits
    induction bits with
    | nil =>
      intro run rest
      rw [append_nil]
      rfl
    | cons bit more ih =>
      intro run rest
      have first : WriteCall.pieces (.writeBit (if bit then 1 else 0)) = [.bits [bit]] := by
        cases bit with
        | true => rfl
        | false => rfl
      rw [map_cons, flatMap_cons, first, append_assoc, singleton_append, encode, ih, append_assoc]
      rfl
  have ofBytes : (guids.flatMap fun g => g.byteOrder.map fun i =>
      WriteCall.writeByteSeq ((ObjectGuid.ofGuid g.guid).byte i)).flatMap WriteCall.pieces =
      (guids.flatMap fun g => g.byteOrder.map (bytesAt (.ofGuid g.guid))).map .bytes := by
    rw [flatMap_assoc, map_flatMap]
    refine congrArg (guids.flatMap ·) (funext fun g => ?_)
    rw [flatMap_map, List.map_map, map_eq_flatMap]
    rfl
  unfold encodeCalls calls
  rw [flatMap_append, ofBits, nil_append, ofBytes, flatten_encode_bytes]
  refine congrArg (pack (flags ++ guids.flatMap mask) ++ ·) ?_
  rw [flatten_eq_flatMap, flatMap_assoc]
  refine congrArg (guids.flatMap ·) (funext fun g => ?_)
  rw [flatMap_map]
  rfl

end MaskedGuid

namespace ByteBuffer

open MaskedGuid

variable {bytes after : List UInt8} {b : ByteBuffer} {rem : List Bool} {pad : Nat}

theorem Reading.readBitList (bits : List Bool) : ∀ {b : ByteBuffer},
    Reading bytes b (bits ++ rem) pad after →
    ∃ b', ByteBuffer.readBitList bits.length b = .ok (bits, b') ∧ Reading bytes b' rem pad after := by
  induction bits with
  | nil => exact fun reading => ⟨_, rfl, reading⟩
  | cons bit rest ih =>
    intro b reading
    obtain ⟨b1, isBit, reading1⟩ := Reading.readBit reading
    obtain ⟨b2, areBits, reading2⟩ := ih reading1
    refine ⟨b2, ?_, reading2⟩
    rw [length_cons, ByteBuffer.readBitList, isBit]
    change (do
      let (bits, b) ← ByteBuffer.readBitList rest.length b1
      .ok (bit :: bits, b)) = _
    rw [areBits]
    rfl

theorem Reading.readGuidMask (guid : ObjectGuid) (order : List (Fin 8)) :
    ∀ {b : ByteBuffer} {g : ObjectGuid},
      Reading bytes b ((order.map fun i => decide (guid.byte i ≠ 0)) ++ rem) pad after →
      ∃ g' b', b.readGuidMask order g = .ok (g', b') ∧ Reading bytes b' rem pad after ∧
        (∀ i ∈ order, g'.byte i = if guid.byte i ≠ 0 then 1 else 0) ∧
        ∀ i, i ∉ order → g'.byte i = g.byte i := by
  induction order with
  | nil => exact fun reading => ⟨_, _, rfl, reading, nofun, fun _ _ => rfl⟩
  | cons first rest ih =>
    intro b g reading
    obtain ⟨b1, isBit, reading1⟩ := Reading.readBit reading
    obtain ⟨g', b2, isRead, reading2, inOrder, others⟩ :=
      @ih b1 (g.set first (if decide (guid.byte first ≠ 0) = true then 1 else 0)) reading1
    refine ⟨g', b2, ?_, reading2, fun i member => ?_, fun i apart => ?_⟩
    · rw [ByteBuffer.readGuidMask, isBit]
      exact isRead
    · by_cases inRest : i ∈ rest
      · exact inOrder i inRest
      have isFirst : i = first := (List.mem_cons.mp member).resolve_right inRest
      subst isFirst
      rw [others i inRest]
      unfold ObjectGuid.set
      dsimp only
      rw [if_pos rfl]
      exact if_congr decide_eq_true_iff rfl rfl
    · rw [mem_cons, not_or] at apart
      rw [others i apart.2]
      unfold ObjectGuid.set
      dsimp only
      rw [if_neg apart.1]

/-- The reader is before bytes. -/
structure AtBytes (bytes : List UInt8) (b : ByteBuffer) (after : List UInt8) : Prop where
  storage : b.storage = bytes
  inside : b.rpos ≤ bytes.length
  split : bytes.drop b.rpos = after

theorem AtBytes.readByteSeq {guid : ObjectGuid} {i : Fin 8} {byte : UInt8}
    (atBytes : AtBytes bytes b (bytesAt guid i ++ after))
    (isMask : byte = if guid.byte i ≠ 0 then 1 else 0) :
    ∃ b', b.readByteSeq byte = .ok (guid.byte i, b') ∧ AtBytes bytes b' after := by
  have split := atBytes.split
  unfold bytesAt at split
  unfold ByteBuffer.readByteSeq
  by_cases isZero : guid.byte i = 0
  · rw [if_neg (not_not.mpr isZero)] at isMask
    rw [if_pos isZero] at split
    rw [if_neg (not_not.mpr isMask), isMask, isZero]
    exact ⟨b, rfl, atBytes.storage, atBytes.inside, split⟩
  · rw [if_pos isZero] at isMask
    rw [if_neg isZero] at split
    obtain ⟨isRead, fits⟩ := read_of_drop atBytes.storage atBytes.inside split
    have isRead : b.read 1 = .ok ([guid.byte i ^^^ 1], { b with rpos := b.rpos + 1 }) := isRead
    have back : (1 : UInt8) ^^^ (guid.byte i ^^^ 1) = guid.byte i := by
      rw [UInt8.xor_comm, UInt8.xor_assoc, UInt8.xor_self, UInt8.xor_zero]
    have notZero : (1 : UInt8) ≠ 0 := by decide
    rw [isMask, if_pos notZero, isRead]
    refine ⟨{ b with rpos := b.rpos + 1 }, ?_, atBytes.storage, fits, drop_of_append split⟩
    change Except.ok ((1 : UInt8) ^^^ (guid.byte i ^^^ 1), _) = _
    rw [back]

theorem AtBytes.readGuidBytes (guid : ObjectGuid) (order : List (Fin 8)) :
    ∀ {b : ByteBuffer} {g : ObjectGuid},
      AtBytes bytes b (order.flatMap (bytesAt guid) ++ after) → order.Nodup →
      (∀ i ∈ order, g.byte i = if guid.byte i ≠ 0 then 1 else 0) →
      ∃ g' b', b.readGuidBytes order g = .ok (g', b') ∧ AtBytes bytes b' after ∧
        (∀ i ∈ order, g'.byte i = guid.byte i) ∧ ∀ i, i ∉ order → g'.byte i = g.byte i := by
  induction order with
  | nil => exact fun atBytes _ _ => ⟨_, _, rfl, atBytes, nofun, fun _ _ => rfl⟩
  | cons first rest ih =>
    intro b g atBytes distinct masks
    obtain ⟨apart, distinctRest⟩ := List.nodup_cons.mp distinct
    rw [flatMap_cons, append_assoc] at atBytes
    obtain ⟨b1, isByte, atBytes1⟩ := atBytes.readByteSeq (masks first mem_cons_self)
    have isFirst : (g.set first (guid.byte first)).byte first = guid.byte first := if_pos rfl
    obtain ⟨g', b2, isRead, atBytes2, inOrder, others⟩ :=
      @ih b1 (g.set first (guid.byte first)) atBytes1 distinctRest fun i member => by
        have notFirst : i ≠ first := fun same => apart (same ▸ member)
        rw [← masks i (mem_cons_of_mem _ member)]
        exact if_neg notFirst
    refine ⟨g', b2, ?_, atBytes2, fun i member => ?_, fun i notMember => ?_⟩
    · rw [ByteBuffer.readGuidBytes, isByte]
      exact isRead
    · rcases List.mem_cons.mp member with rfl | inRest
      · rw [others i apart, isFirst]
      · exact inOrder i inRest
    · rw [mem_cons, not_or] at notMember
      rw [others i notMember.2]
      exact if_neg notMember.1

def IsMaskOf (g : MaskedGuid) (mask : ObjectGuid) : Prop :=
  ∀ i, mask.byte i = if (ObjectGuid.ofGuid g.guid).byte i ≠ 0 then 1 else 0

theorem Reading.readMasks (guids : List MaskedGuid) : ∀ {b : ByteBuffer},
    Reading bytes b (guids.flatMap mask ++ rem) pad after →
    ∃ masks b', ByteBuffer.readMasks guids b = .ok (masks, b') ∧ Reading bytes b' rem pad after ∧
      List.Forall₂ IsMaskOf guids masks := by
  induction guids with
  | nil => exact fun reading => ⟨_, _, rfl, reading, .nil⟩
  | cons g rest ih =>
    intro b reading
    rw [flatMap_cons, append_assoc] at reading
    obtain ⟨m, b1, isMask, reading1, inOrder, -⟩ :=
      @Reading.readGuidMask bytes after _ pad (.ofGuid g.guid) g.maskOrder b (.ofGuid 0) reading
    obtain ⟨masks, b2, areMasks, reading2, others⟩ := ih reading1
    refine ⟨m :: masks, b2, ?_, reading2, .cons (fun i => inOrder i ?_) others⟩
    · rw [ByteBuffer.readMasks, isMask]
      change (do
        let (guids, b) ← ByteBuffer.readMasks rest b1
        .ok (m :: guids, b)) = _
      rw [areMasks]
      rfl
    · exact g.mask_perm.mem_iff.mpr (mem_finRange i)

theorem AtBytes.readMasked {guids : List MaskedGuid} {masks : List ObjectGuid}
    (areMasks : List.Forall₂ IsMaskOf guids masks) : ∀ {b : ByteBuffer},
    AtBytes bytes b (guids.flatMap MaskedGuid.bytes ++ after) →
    ∃ b', ByteBuffer.readMasked (guids.zip masks) b =
        .ok (guids.map fun g => .ofGuid g.guid, b') ∧ AtBytes bytes b' after := by
  induction areMasks with
  | nil => exact fun atBytes => ⟨_, rfl, atBytes⟩
  | @cons g m guids masks isMask _ ih =>
    intro b atBytes
    rw [flatMap_cons, append_assoc] at atBytes
    have distinct : g.byteOrder.Nodup := g.byte_perm.nodup_iff.mpr (nodup_finRange 8)
    obtain ⟨g', b1, isRead, atBytes1, inOrder, -⟩ :=
      AtBytes.readGuidBytes (.ofGuid g.guid) g.byteOrder atBytes distinct fun i _ => isMask i
    have isGuid : g' = .ofGuid g.guid :=
      ObjectGuid.ext_byte fun i => inOrder i (g.byte_perm.mem_iff.mpr (mem_finRange i))
    rw [isGuid] at isRead
    obtain ⟨b2, areRead, atBytes2⟩ := ih atBytes1
    refine ⟨b2, ?_, atBytes2⟩
    rw [zip_cons_cons, ByteBuffer.readMasked, isRead]
    change (do
      let (read, b) ← ByteBuffer.readMasked (guids.zip masks) b1
      Except.ok (ObjectGuid.ofGuid g.guid :: read, b)) = _
    rw [areRead]
    rfl

theorem Reading.atBytes (few : pad < 8) (reading : Reading bytes b [] pad after) :
    AtBytes bytes b after := by
  obtain ⟨run, split, stream⟩ := reading.bits
  have isNil : run = [] := by
    have len := congrArg List.length stream
    rw [length_append, length_unpack, nil_append, length_replicate] at len
    exact List.length_eq_zero_iff.mp (by omega)
  subst isNil
  exact ⟨reading.storage, reading.inside, split⟩

theorem readGuids_bytes (flags : List Bool) (guids : List MaskedGuid) :
    ∃ b', (ofBytes (pack (flags ++ guids.flatMap mask) ++ guids.flatMap MaskedGuid.bytes)).readGuids
        flags.length guids = .ok (flags, guids.map MaskedGuid.guid, b') ∧
      b'.rpos = (pack (flags ++ guids.flatMap mask) ++ guids.flatMap MaskedGuid.bytes).length := by
  generalize isBytes : pack (flags ++ guids.flatMap mask) ++ guids.flatMap MaskedGuid.bytes = bytes
  obtain ⟨pad, few, stream⟩ := unpack_pack (flags ++ guids.flatMap mask)
  have start : Reading bytes (ofBytes bytes) (flags ++ (guids.flatMap mask ++ [])) pad
      (guids.flatMap MaskedGuid.bytes) := by
    refine ⟨rfl, Nat.zero_le _, _, isBytes.symm, ?_⟩
    rw [append_nil]
    exact stream
  obtain ⟨b1, areFlags, reading1⟩ := Reading.readBitList flags start
  obtain ⟨masks, b2, areMasks, reading2, isMask⟩ := Reading.readMasks guids reading1
  have atBytes := reading2.atBytes few
  rw [← append_nil (guids.flatMap MaskedGuid.bytes)] at atBytes
  obtain ⟨b3, areRead, atEnd⟩ := AtBytes.readMasked isMask atBytes
  refine ⟨b3, ?_, Nat.le_antisymm atEnd.inside (List.drop_eq_nil_iff.mp atEnd.split)⟩
  unfold readGuids
  rw [areFlags]
  change (do
    let (masks, b) ← ByteBuffer.readMasks guids b1
    let (read, b) ← ByteBuffer.readMasked (guids.zip masks) b
    Except.ok (flags, read.map ObjectGuid.toGuid, b)) = _
  rw [areMasks]
  change (do
    let (read, b) ← ByteBuffer.readMasked (guids.zip masks) b2
    Except.ok (flags, read.map ObjectGuid.toGuid, b)) = _
  rw [areRead]
  change Except.ok (flags, (guids.map fun g => ObjectGuid.ofGuid g.guid).map ObjectGuid.toGuid, b3) = _
  rw [List.map_map]
  refine congrArg (fun l => Except.ok (flags, l, b3)) (map_congr_left fun g _ => ?_)
  exact ObjectGuid.toGuid_ofGuid g.guid

end ByteBuffer

/-- The number of bytes of other bits and the GUIDs. -/
def maskedSize (flags : List Bool) (guids : List MaskedGuid) : Nat :=
  (flags.length + 8 * guids.length + 7) / 8 + (guids.flatMap MaskedGuid.bytes).length

/-- **The GUIDs come back**: written to a fresh buffer behind other bits, with a last `FlushBits`,
they are read back in the same orders, and all bytes have been read. -/
def MaskedRoundTrip (flags : List Bool) (guids : List MaskedGuid) : Prop :=
  ∃ b b', (ByteBuffer.fresh.writeGuids flags guids >>= ByteBuffer.flushBits) = .ok b ∧
    (flags.length % 8 = 0 → ByteBuffer.fresh.writeGuids flags guids = .ok b) ∧
    (ByteBuffer.ofBytes b.storage).readGuids flags.length guids =
      .ok (flags, guids.map MaskedGuid.guid, b') ∧
    b'.rpos = b.size

section MaskedRoundTrip

open ByteBuffer MaskedGuid

variable (flags : List Bool) (guids : List MaskedGuid)

theorem length_flatMap_mask : (guids.flatMap mask).length = 8 * guids.length := by
  induction guids with
  | nil => rfl
  | cons g rest ih =>
    rw [flatMap_cons, length_append, ih, length_mask, length_cons]
    omega

theorem length_flatten_encodeCalls :
    (encodeCalls (calls flags guids)).flatten.length = maskedSize flags guids := by
  have packedLength : (pack (flags ++ guids.flatMap mask)).length =
      (flags.length + 8 * guids.length + 7) / 8 := by
    have := length_packAfter (flags ++ guids.flatMap mask) (show [].length < 8 by decide)
    rw [length_nil, Nat.zero_add, length_append, length_flatMap_mask] at this
    exact this
  rw [flatten_encodeCalls, length_append, packedLength]
  rfl

theorem length_of_mem_encode (pieces : List Piece)
    (single : ∀ src, .bytes src ∈ pieces → src.length ≤ 1) : ∀ run : List Bool,
      ∀ chunk ∈ encode run pieces, chunk.length = 1 := by
  have ofPacked : ∀ run, ∀ chunk ∈ packed run, chunk.length = 1 := by
    intro run chunk member
    obtain ⟨b, -, rfl⟩ := List.mem_map.mp member
    rfl
  induction pieces with
  | nil => exact ofPacked
  | cons piece rest ih =>
    intro run chunk member
    have later := ih fun src inRest => single src (mem_cons_of_mem _ inRest)
    cases piece with
    | bits bits => exact later _ chunk member
    | flush =>
      rcases List.mem_append.mp member with before | after
      · exact ofPacked run chunk before
      · exact later [] chunk after
    | bytes src =>
      rw [encode] at member
      split at member
      · exact later run chunk member
      rename_i notNil
      rcases List.mem_append.mp member with before | after
      · exact ofPacked run chunk before
      rcases List.mem_cons.mp after with rfl | inRest
      · have few := single _ mem_cons_self
        have some := length_pos_of_ne_nil notNil
        omega
      · exact later [] chunk inRest

theorem fits_iff_of_single {chunks : List (List UInt8)}
    (single : ∀ chunk ∈ chunks, chunk.length = 1) :
    Fits chunks ↔ chunks.flatten.length ≤ appendLimit := by
  have count : ∀ l : List (List UInt8), (∀ chunk ∈ l, chunk.length = 1) →
      l.flatten.length = l.length := by
    intro l
    induction l with
    | nil => exact fun _ => rfl
    | cons chunk rest ih =>
      intro all
      rw [flatten_cons, length_append, all chunk mem_cons_self,
        ih fun other member => all other (mem_cons_of_mem _ member), length_cons,
        Nat.add_comm]
  unfold Fits
  rw [count chunks single,
    count chunks.dropLast fun chunk member => single chunk (dropLast_subset _ member),
    length_dropLast]
  have pos : 0 < appendLimit := by decide
  omega

theorem fits_calls_iff :
    Fits (encodeCalls (calls flags guids)) ↔ maskedSize flags guids ≤ appendLimit := by
  rw [← length_flatten_encodeCalls]
  refine fits_iff_of_single (length_of_mem_encode _ (fun src member => ?_) [])
  obtain ⟨call, isCall, isPiece⟩ := List.mem_flatMap.mp member
  rcases List.mem_append.mp isCall with isBit | isByte
  · obtain ⟨bit, -, rfl⟩ := List.mem_map.mp isBit
    cases List.mem_singleton.mp isPiece
  obtain ⟨g, -, isByte⟩ := List.mem_flatMap.mp isByte
  obtain ⟨i, -, rfl⟩ := List.mem_map.mp isByte
  cases List.mem_singleton.mp isPiece
  split
  · exact Nat.zero_le 1
  · exact Nat.le_refl 1

theorem pending_calls (onByte : flags.length % 8 = 0) :
    (calls flags guids).foldl WriteCall.pending 0 = 0 := by
  have ofBits : ∀ (bits : List Bool) (n : Nat),
      (bits.map fun bit => WriteCall.writeBit (if bit then 1 else 0)).foldl WriteCall.pending
        (n % 8) = (n + bits.length) % 8 := by
    intro bits
    induction bits with
    | nil => exact fun _ => rfl
    | cons bit rest ih =>
      intro n
      have step : WriteCall.pending (n % 8) (.writeBit (if bit then 1 else 0)) = (n + 1) % 8 :=
        Nat.mod_add_mod n 8 1
      rw [map_cons, foldl_cons, step, ih, length_cons]
      exact congrArg (· % 8) (by omega)
  have ofBytes : ∀ l : List WriteCall, (∀ call ∈ l, ∃ byte, call = .writeByteSeq byte) →
      l.foldl WriteCall.pending 0 = 0 := by
    intro l
    induction l with
    | nil => exact fun _ => rfl
    | cons call rest ih =>
      intro all
      obtain ⟨byte, rfl⟩ := all call mem_cons_self
      have step : WriteCall.pending 0 (.writeByteSeq byte) = 0 := ite_self 0
      rw [foldl_cons, step]
      exact ih fun other member => all other (mem_cons_of_mem _ member)
  unfold calls
  have bits := ofBits (flags ++ guids.flatMap mask) 0
  rw [Nat.zero_mod, length_append, length_flatMap_mask] at bits
  have none : (0 + (flags.length + 8 * guids.length)) % 8 = 0 := by omega
  rw [foldl_append, bits, none]
  refine ofBytes _ fun call member => ?_
  obtain ⟨g, -, isByte⟩ := List.mem_flatMap.mp member
  obtain ⟨i, -, rfl⟩ := List.mem_map.mp isByte
  exact ⟨_, rfl⟩

/-- **Masked GUIDs come back exactly as long as** `append` does not assert: up to ten
million bytes. -/
theorem maskedRoundTrip_iff :
    MaskedRoundTrip flags guids ↔ maskedSize flags guids ≤ appendLimit := by
  have met := flushed_calls flags guids
  have chunks := chunks_of_flushed met
  have written := writes_of_hasSource met.hasSource
  rw [← writeGuids_eq] at written
  rw [← fits_calls_iff]
  constructor
  · intro ⟨b, b', isOk, _⟩
    rw [isOk] at written
    exact chunks ▸ written.ok.1
  intro fits
  obtain ⟨b', areRead, atEnd⟩ := readGuids_bytes flags guids
  rw [← flatten_encodeCalls] at areRead atEnd
  rcases written with ⟨-, b, isOk, holds⟩ | ⟨unfit, -⟩
  · have storage := chunks ▸ holds.storage
    refine ⟨b, b', isOk, fun onByte => ?_, ?_, ?_⟩
    · rcases holds_fresh.writeAll (calls flags guids) (by decide) met.hasSource with
        ⟨-, b1, isOk1, holds1⟩ | ⟨-, isError⟩
      · have noBits := @length_tail_writeAll (calls flags guids) .empty met
        rw [show Layout.empty.tail.length = 0 from rfl, pending_calls flags guids onByte] at noBits
        have full : b1.bitpos = 8 := by rw [holds1.bitpos, noBits]
        rw [writeGuids_eq] at isOk ⊢
        rw [isOk1] at isOk ⊢
        change b1.flushBits = _ at isOk
        unfold flushBits at isOk
        rw [if_pos full] at isOk
        exact isOk
      · rw [writeGuids_eq, isError] at isOk
        cases isOk
    · rw [storage]
      exact areRead
    · rw [atEnd]
      exact (congrArg List.length storage).symm
  · exact absurd fits (chunks ▸ unfit)

def noGuid : MaskedGuid :=
  ⟨0, List.finRange 8, List.finRange 8, List.Perm.refl _, List.Perm.refl _⟩

variable {flags guids} in
theorem appendLimit_lt_maskedSize (many : appendLimit < guids.length) :
    appendLimit < maskedSize flags guids := by
  unfold maskedSize
  omega

/-- More masks than `append` takes. -/
theorem not_maskedRoundTrip_of_many :
    ¬ MaskedRoundTrip [] (List.replicate (appendLimit + 1) noGuid) := by
  rw [maskedRoundTrip_iff]
  refine Nat.not_le_of_lt (appendLimit_lt_maskedSize ?_)
  rw [length_replicate]
  exact Nat.lt_succ_self appendLimit

end MaskedRoundTrip

end Sky548
