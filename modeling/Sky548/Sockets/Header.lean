import Sky548.Bits

/-!
# Packets and their headers

A packet is sent as a header and its contents. Before the cipher is set up a header is plain; after
it the headers, and only they, are encrypted with a stream of key bytes (ARC4), which is combined
with the data in the order in which the data is passed (`UpdateData`). What that stream is does not
matter here.
-/

namespace Sky548

/-- An opcode number, as the tables of opcodes have it, and the contents. -/
abbrev Packet := UInt16 × List UInt8

/-- A key stream and how much of it has been used. -/
structure KeyStream where
  bytes : Nat → UInt8
  used : Nat

namespace KeyStream

variable (k : KeyStream)

def apply (data : List UInt8) : List UInt8 := data.mapIdx fun i b => b ^^^ k.bytes (k.used + i)

/-- The key stream once some data has been passed. -/
def advance (n : Nat) : KeyStream := { k with used := k.used + n }

@[simp] theorem length_apply (data : List UInt8) : (k.apply data).length = data.length :=
  List.length_mapIdx

theorem apply_eq_apply_iff {k k' : KeyStream} {data : List UInt8} :
    k.apply data = k'.apply data ↔
      ∀ i < data.length, k.bytes (k.used + i) = k'.bytes (k'.used + i) := by
  constructor
  · intro same i below
    have bytes : (k.apply data)[i]? = (k'.apply data)[i]? := by
      rw [same]
    simp only [apply, List.getElem?_mapIdx, List.getElem?_eq_getElem below, Option.map_some,
      Option.some.injEq] at bytes
    have undone := congrArg (data[i] ^^^ ·) bytes
    simpa only [← UInt8.xor_assoc, UInt8.xor_self, UInt8.zero_xor] using undone
  · intro same
    refine List.ext_getElem (by rw [length_apply, length_apply]) fun i below below' => ?_
    rw [length_apply] at below
    simp only [apply, List.getElem_mapIdx, same i below]

end KeyStream

def maxOpcode : UInt32 := 0x1FFF

def numOpcodeHandlers : UInt16 := 0x7FFF

def authClientPktHeaderSize : Nat := 6

def worldClientPktHeaderSize : Nat := 4

def serverPktHeaderSize : Nat := 4

/-- `PacketFilter::DropHighBytes` -/
def dropHighBytes (opcode : UInt16) : UInt16 := opcode &&& numOpcodeHandlers

/-- The opcode and the payload size in a plain header of a client; `none` if it is malformed. -/
def readAuthHeader (header : List UInt8) : Option (UInt16 × Nat) :=
  let size := Bits.ofLeBytes (header.take 2)
  let cmd := Bits.ofLeBytes (header.drop 2)
  if size < 4 ∨ size > 10240 then none else some (dropHighBytes (UInt16.ofNat cmd), size - 4)

/-- The same of a header that has been decrypted. The size is an `uint16`, of 19 bits. -/
def readWorldHeader (header : List UInt8) : Option (UInt16 × Nat) :=
  let value := UInt32.ofNat (Bits.ofLeBytes header)
  let cmd := (value &&& maxOpcode).toUInt16
  let size := ((value &&& ~~~maxOpcode) >>> 13).toUInt16
  if size > 10236 then none else some (dropHighBytes cmd, size.toNat)

/-- `ServerPktHeader` of a packet; the plain one counts the opcode in the size. -/
def serverPktHeader (crypt : Option KeyStream) (packet : Packet) : List UInt8 :=
  match crypt with
  | some k =>
    k.apply (Bits.leBytes serverPktHeaderSize
      ((UInt32.ofNat packet.2.length <<< 13) ||| (packet.1.toUInt32 &&& maxOpcode)).toNat)
  | none => Bits.leBytes 2 (packet.2.length + 2) ++ Bits.leBytes 2 packet.1.toNat

end Sky548
