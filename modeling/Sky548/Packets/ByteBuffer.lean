import Sky548.Bits

/-!
# The byte buffer

`ByteBuffer` (`ByteBuffer.h`): bytes in a storage with a position for reading and one
for writing, and a byte that is filled or emptied bit by bit. `_bitpos` and
`_curbitval` serve both directions; a buffer is written or read, not both.
-/

namespace Sky548

open Bits

/-- How an operation on a buffer ends without a result: one of its exceptions, or the
`ASSERT` of `append`. -/
inductive ByteBufferError
  | sourceException
  | positionException
  | assertion
  deriving DecidableEq, Repr

/-- The size from which on `append` asserts. -/
def appendLimit : Nat := 10000000

structure ByteBuffer where
  rpos : Nat
  wpos : Nat
  bitpos : Nat
  curbitval : UInt8
  storage : List UInt8
  deriving DecidableEq, Repr

structure ObjectGuid where
  byte : Fin 8 → UInt8

namespace ObjectGuid

def ofGuid (guid : UInt64) : ObjectGuid where
  byte i := UInt8.ofNat (guid.toNat / 256 ^ i.val)

def toGuid (g : ObjectGuid) : UInt64 :=
  UInt64.ofNat (ofLeBytes (List.ofFn g.byte))

def set (g : ObjectGuid) (index : Fin 8) (b : UInt8) : ObjectGuid where
  byte i := if i = index then b else g.byte i

end ObjectGuid

namespace ByteBuffer

def fresh : ByteBuffer := ⟨0, 0, 8, 0, []⟩

def ofBytes (bytes : List UInt8) : ByteBuffer := ⟨0, bytes.length, 8, 0, bytes⟩

def size (b : ByteBuffer) : Nat := b.storage.length

/-- `append(const uint8 *, size_t)`, which `append` of characters comes to as well. -/
def append (b : ByteBuffer) (src : List UInt8) : Except ByteBufferError ByteBuffer :=
  if src = [] then .error .sourceException
  else if ¬ b.size < appendLimit then .error .assertion
  else .ok
    { b with
      storage := b.storage.take b.wpos ++ List.replicate (b.wpos - b.size) 0 ++ src ++
        b.storage.drop (b.wpos + src.length)
      wpos := b.wpos + src.length }

def flushBits (b : ByteBuffer) : Except ByteBufferError ByteBuffer :=
  if b.bitpos = 8 then .ok b
  else do
    let b ← b.append [b.curbitval]
    .ok { b with curbitval := 0, bitpos := 8 }

def appendValue (b : ByteBuffer) (bytes : List UInt8) : Except ByteBufferError ByteBuffer := do
  let b ← b.flushBits
  b.append bytes

def writeBit (b : ByteBuffer) (bit : Bool) : Except ByteBufferError ByteBuffer :=
  let bitpos := b.bitpos - 1
  let curbitval := if bit then b.curbitval ||| 1 <<< UInt8.ofNat bitpos else b.curbitval
  if bitpos = 0 then do
    let b ← { b with bitpos := 8, curbitval := curbitval }.append [curbitval]
    .ok { b with curbitval := 0 }
  else .ok { b with bitpos := bitpos, curbitval := curbitval }

def writeBitList : List Bool → ByteBuffer → Except ByteBufferError ByteBuffer
  | [], b => .ok b
  | bit :: rest, b => do
      let b ← b.writeBit bit
      writeBitList rest b

/-- `WriteBits`: bit `(value >> i) & 1` for every `i` from `bits - 1` down to 0. -/
def writeBits (b : ByteBuffer) (value : UInt64) (bits : Nat) : Except ByteBufferError ByteBuffer :=
  writeBitList (Bits.ofNat bits value.toNat) b

/-- `operator<<` of a string. -/
def writeCString (b : ByteBuffer) (value : List UInt8) : Except ByteBufferError ByteBuffer := do
  let b ← if value.length ≠ 0 then b.append value else .ok b
  b.appendValue [0]

def writeString (b : ByteBuffer) (str : List UInt8) : Except ByteBufferError ByteBuffer :=
  if str.length ≠ 0 then b.append str else .ok b

def writeByteSeq (b : ByteBuffer) (byte : UInt8) : Except ByteBufferError ByteBuffer :=
  if byte ≠ 0 then b.appendValue [byte ^^^ 1] else .ok b

def packGuid : Nat → Nat → UInt8 → Nat → UInt8 × List UInt8
  | 0, _, mask, _ => (mask, [])
  | n + 1, i, mask, guid =>
    if guid = 0 then (mask, [])
    else if guid &&& 0xFF ≠ 0 then
      let rest := packGuid n (i + 1) (mask ||| 1 <<< UInt8.ofNat i) (guid >>> 8)
      (rest.1, UInt8.ofNat (guid &&& 0xFF) :: rest.2)
    else packGuid n (i + 1) mask (guid >>> 8)

/-- `packGUID`: the eight shifts of the loop leave nothing of a GUID. -/
def packedGuid (guid : UInt64) : List UInt8 :=
  (packGuid 8 0 0 guid.toNat).1 :: (packGuid 8 0 0 guid.toNat).2

def appendPackGUID (b : ByteBuffer) (guid : UInt64) : Except ByteBufferError ByteBuffer :=
  b.append (packedGuid guid)

def read (b : ByteBuffer) (size : Nat) : Except ByteBufferError (List UInt8 × ByteBuffer) :=
  if b.rpos + size > b.size then .error .positionException
  else .ok ((b.storage.drop b.rpos).take size, { b with rpos := b.rpos + size })

def readBit (b : ByteBuffer) : Except ByteBufferError (Bool × ByteBuffer) := do
  let b := { b with bitpos := b.bitpos + 1 }
  let b ← if b.bitpos > 7 then do
      let (bytes, b) ← { b with bitpos := 0 }.read 1
      .ok { b with curbitval := bytes.headD 0 }
    else .ok b
  .ok (isSet b.curbitval (7 - b.bitpos), b)

def readBitsFrom : Nat → UInt32 → ByteBuffer → Except ByteBufferError (UInt32 × ByteBuffer)
  | 0, value, b => .ok (value, b)
  | i + 1, value, b => do
      let (bit, b) ← b.readBit
      readBitsFrom i (if bit then value ||| 1 <<< UInt32.ofNat i else value) b

def readBits (b : ByteBuffer) (bits : Nat) : Except ByteBufferError (UInt32 × ByteBuffer) :=
  readBitsFrom bits 0 b

def readByteSeq (b : ByteBuffer) (byte : UInt8) : Except ByteBufferError (UInt8 × ByteBuffer) :=
  if byte ≠ 0 then do
    let (bytes, b) ← b.read 1
    .ok (byte ^^^ bytes.headD 0, b)
  else .ok (byte, b)

/-- `WriteGuidMaskList`, and `WriteBitInOrder` of an order of eight. -/
def writeGuidMask (guid : ObjectGuid) (order : List (Fin 8)) (b : ByteBuffer) :
    Except ByteBufferError ByteBuffer :=
  writeBitList (order.map fun i => guid.byte i ≠ 0) b

def writeGuidBytes (guid : ObjectGuid) : List (Fin 8) → ByteBuffer →
    Except ByteBufferError ByteBuffer
  | [], b => .ok b
  | i :: order, b => do
      let b ← b.writeByteSeq (guid.byte i)
      writeGuidBytes guid order b

/-- `ReadGuidMaskList`, and `ReadBitInOrder` of an order of eight. -/
def readGuidMask : List (Fin 8) → ObjectGuid → ByteBuffer →
    Except ByteBufferError (ObjectGuid × ByteBuffer)
  | [], guid, b => .ok (guid, b)
  | i :: order, guid, b => do
      let (bit, b) ← b.readBit
      readGuidMask order (guid.set i (if bit then 1 else 0)) b

def readGuidBytes : List (Fin 8) → ObjectGuid → ByteBuffer →
    Except ByteBufferError (ObjectGuid × ByteBuffer)
  | [], guid, b => .ok (guid, b)
  | i :: order, guid, b => do
      let (byte, b) ← b.readByteSeq (guid.byte i)
      readGuidBytes order (guid.set i byte) b

end ByteBuffer

end Sky548
