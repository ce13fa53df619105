import Mathlib.Data.List.Forall2
import Sky548.Packets.Writing

/-!
# Fields in call order

What a sequence of writing calls should come to, and when it does. `append<T>` flushes
the pending bits before the bytes of its value; strings, raw bytes and packed GUIDs go
straight to the other `append`, which does not: bits that are pending then end up behind
bytes that were written later.
-/

namespace Sky548

open List

open Bits

/-- The types of `operator<<`, by their size; a signed one has the same bytes. -/
inductive IntType
  | uint8
  | uint16
  | uint32
  | uint64
  deriving DecidableEq, Repr

/-- `sizeof` -/
def IntType.size : IntType → Nat
  | .uint8 => 1
  | .uint16 => 2
  | .uint32 => 4
  | .uint64 => 8

/-- A writing call. A shift by more than the width of its type has no meaning, so that
`WriteBits` gets 64 bits at most. -/
inductive WriteCall
  | writeBit (bit : UInt32)
  | writeBits (value : UInt64) (bits : Nat) (inWidth : bits ≤ 64)
  | flushBits
  | int (type : IntType) (value : UInt64)
  | string (value : List UInt8)
  | writeString (str : List UInt8)
  | appendPackGUID (guid : UInt64)
  | append (src : List UInt8)
  | writeByteSeq (byte : UInt8)
  deriving DecidableEq

namespace ByteBuffer

def write (b : ByteBuffer) : WriteCall → Except ByteBufferError ByteBuffer
  | .writeBit bit => b.writeBit (bit ≠ 0)
  | .writeBits value bits _ => b.writeBits value bits
  | .flushBits => b.flushBits
  | .int type value => b.appendValue (leBytes type.size value.toNat)
  | .string value => b.writeCString value
  | .writeString str => b.writeString str
  | .appendPackGUID guid => b.appendPackGUID guid
  | .append src => b.append src
  | .writeByteSeq byte => b.writeByteSeq byte

def writeAll : List WriteCall → ByteBuffer → Except ByteBufferError ByteBuffer
  | [], b => .ok b
  | call :: rest, b => do
      let b ← b.write call
      writeAll rest b

end ByteBuffer

/-- What a call writes: bits, the end of a run of bits, or a byte-level field. -/
inductive Piece
  | bits (bits : List Bool)
  | flush
  | bytes (src : List UInt8)

namespace WriteCall

def pieces : WriteCall → List Piece
  | .writeBit bit => [.bits [decide (bit ≠ 0)]]
  | .writeBits value bits _ => [.bits (Bits.ofNat bits value.toNat)]
  | .flushBits => [.flush]
  | .int type value => [.bytes (leBytes type.size value.toNat)]
  | .string value => [.bytes value, .bytes [0]]
  | .writeString str => [.bytes str]
  | .appendPackGUID guid => [.bytes (ByteBuffer.packedGuid guid)]
  | .append src => [.bytes src]
  | .writeByteSeq byte => [.bytes (if byte = 0 then [] else [byte ^^^ 1])]

end WriteCall

def packed (run : List Bool) : List (List UInt8) := (pack run).map fun b => [b]

/-- **The fields in their order**, after the bits of a run: every run of bits is packed
before what comes next. A field without bytes does not end a run. -/
def encode : List Bool → List Piece → List (List UInt8)
  | run, [] => packed run
  | run, .bits bits :: rest => encode (run ++ bits) rest
  | run, .flush :: rest => packed run ++ encode [] rest
  | run, .bytes src :: rest =>
    if src = [] then encode run rest else packed run ++ src :: encode [] rest

def encodeCalls (calls : List WriteCall) : List (List UInt8) :=
  encode [] (calls.flatMap WriteCall.pieces)

/-- **The calls keep their order**: they and a last `FlushBits` come through, and the
bytes are those of the fields one after another. -/
def KeepsOrder (calls : List WriteCall) : Prop :=
  ∃ b, (ByteBuffer.fresh.writeAll calls >>= ByteBuffer.flushBits) = .ok b ∧
    b.storage = (encodeCalls calls).flatten

namespace WriteCall

/-- The call appends bytes without flushing the pending bits. -/
def isRaw : WriteCall → Bool
  | .string value => value ≠ []
  | .writeString str => str ≠ []
  | .appendPackGUID _ => true
  | .append _ => true
  | _ => false

/-- The number of pending bits after a call, with `n` of them before; no raw call meets
any. -/
def pending (n : Nat) : WriteCall → Nat
  | .writeBit _ => (n + 1) % 8
  | .writeBits _ bits _ => (n + bits) % 8
  | .writeString [] => n
  | .writeByteSeq byte => if byte = 0 then n else 0
  | _ => 0

/-- **The condition on a call**: no bits are pending where it does not flush them, and
`append` has a source. -/
def Meets (n : Nat) (call : WriteCall) : Prop :=
  call ≠ .append [] ∧ (call.isRaw = true → n = 0)

instance (n : Nat) (call : WriteCall) : Decidable (call.Meets n) :=
  inferInstanceAs (Decidable (_ ∧ _))

end WriteCall

/-- Every call of a sequence meets its condition. -/
def Flushed : Nat → List WriteCall → Prop
  | _, [] => True
  | n, call :: rest => call.Meets n ∧ Flushed (call.pending n) rest

instance decidableFlushed : ∀ (n : Nat) (calls : List WriteCall), Decidable (Flushed n calls)
  | _, [] => inferInstanceAs (Decidable True)
  | n, call :: rest =>
    have := decidableFlushed (call.pending n) rest
    inferInstanceAs (Decidable (call.Meets n ∧ Flushed (call.pending n) rest))

theorem packAfter_append (bits more : List Bool) : ∀ {begun : List Bool}, begun.length < 8 →
    (begun ++ bits).length = 8 →
    packAfter begun (bits ++ more) = toByte (begun ++ bits) :: pack more := by
  induction bits with
  | nil =>
    intro begun short full
    rw [append_nil] at full
    omega
  | cons bit rest ih =>
    intro begun short full
    have onto : begun ++ bit :: rest = begun ++ [bit] ++ rest := by
      rw [append_assoc]
      rfl
    rw [onto] at full ⊢
    rw [cons_append, packAfter]
    split
    · rename_i seven
      have isNil : rest = [] := by
        rw [length_append, length_append, seven, length_singleton] at full
        exact List.length_eq_zero_iff.mp (by omega)
      rw [isNil, append_nil]
      rfl
    · rename_i notLast
      refine ih ?_ full
      rw [length_append, length_singleton]
      omega

theorem packed_append {byte : List Bool} (full : byte.length = 8) (run : List Bool) :
    packed (byte ++ run) = [toByte byte] :: packed run := by
  unfold packed pack
  have one := packAfter_append byte run (show [].length < 8 by decide) full
  rw [one]
  rfl

theorem packAfter_nil (begun : List Bool) :
    packAfter begun [] = if begun = [] then [] else [toByte begun] := rfl

theorem packAfter_short (bits : List Bool) : ∀ {begun : List Bool},
    (begun ++ bits).length < 8 → packAfter begun bits = packAfter (begun ++ bits) [] := by
  induction bits with
  | nil =>
    intro begun _
    rw [append_nil]
  | cons bit rest ih =>
    intro begun short
    have onto : begun ++ bit :: rest = begun ++ [bit] ++ rest := by
      rw [append_assoc]
      rfl
    have more : begun.length ≠ 7 := by
      rw [length_append, length_cons] at short
      omega
    rw [onto] at short ⊢
    have step : packAfter begun (bit :: rest) = packAfter (begun ++ [bit]) rest := if_neg more
    rw [step]
    exact ih short

theorem packed_short {run : List Bool} (short : run.length < 8) :
    packed run = if run = [] then [] else [[toByte run]] := by
  have whole := packAfter_short run (show ([] ++ run).length < 8 from short)
  unfold packed pack
  rw [whole, nil_append, packAfter_nil]
  split
  · rfl
  · rfl

theorem encode_append (pieces : List Piece) : ∀ {byte run : List Bool}, byte.length = 8 →
    encode (byte ++ run) pieces = [toByte byte] :: encode run pieces := by
  induction pieces with
  | nil => exact fun full => packed_append full _
  | cons piece rest ih =>
    intro byte run full
    cases piece with
    | bits bits =>
      rw [encode, encode, append_assoc]
      exact ih full
    | flush =>
      rw [encode, encode, packed_append full]
      rfl
    | bytes src =>
      rw [encode, encode]
      split
      · exact ih full
      · rw [packed_append full]
        rfl

namespace Layout

def write (l : Layout) : WriteCall → Layout
  | .writeBit bit => l.bit (bit ≠ 0)
  | .writeBits value bits _ => l.bits (Bits.ofNat bits value.toNat)
  | .flushBits => l.flush
  | .int type value => l.field (leBytes type.size value.toNat)
  | .string value => (if value.length ≠ 0 then l.push value else l).field [0]
  | .writeString str => if str.length ≠ 0 then l.push str else l
  | .appendPackGUID guid => l.push (ByteBuffer.packedGuid guid)
  | .append src => l.push src
  | .writeByteSeq byte => if byte ≠ 0 then l.field [byte ^^^ 1] else l

def writeAll (l : Layout) (calls : List WriteCall) : Layout := calls.foldl write l

theorem prefix_field (l : Layout) (src : List UInt8) : l.chunks <+: (l.field src).chunks :=
  l.prefix_flush.trans (l.flush.prefix_push src)

theorem prefix_write (l : Layout) (call : WriteCall) : l.chunks <+: (l.write call).chunks := by
  cases call with
  | writeBit bit => exact l.prefix_bit _
  | writeBits value bits _ => exact prefix_bits _ l
  | flushBits => exact l.prefix_flush
  | int type value => exact l.prefix_field _
  | string value =>
    rw [write]
    split
    · exact (l.prefix_push value).trans (prefix_field _ _)
    · exact l.prefix_field _
  | writeString str =>
    rw [write]
    split
    · exact l.prefix_push str
    · exact prefix_refl _
  | appendPackGUID guid => exact l.prefix_push _
  | append src => exact l.prefix_push src
  | writeByteSeq byte =>
    rw [write]
    split
    · exact l.prefix_field _
    · exact prefix_refl _

theorem prefix_writeAll (calls : List WriteCall) : ∀ l : Layout,
    l.chunks <+: (l.writeAll calls).chunks := by
  induction calls with
  | nil => exact fun l => prefix_refl _
  | cons call rest ih => exact fun l => (l.prefix_write call).trans (ih _)

/-! ### One call and the rest -/

variable (l : Layout)

theorem chunks_flush : l.flush.chunks = l.chunks ++ packed l.tail := by
  rw [packed_short l.short]
  unfold flush
  split
  · exact (append_nil _).symm
  · rfl

/-- The fields that are still to come, after those that are in the layout. -/
def andThen (pieces : List Piece) : List (List UInt8) := l.chunks ++ encode l.tail pieces

theorem andThen_bit (bit : Bool) (pieces : List Piece) :
    (l.bit bit).andThen pieces = l.chunks ++ encode (l.tail ++ [bit]) pieces := by
  unfold andThen Layout.bit
  split
  · rename_i isLast
    have full : (l.tail ++ [bit]).length = 8 := by
      rw [length_append, isLast]
      rfl
    have one : encode (l.tail ++ [bit] ++ []) pieces = _ := encode_append pieces full
    rw [append_nil] at one
    rw [one, append_assoc]
    rfl
  · rfl

theorem andThen_bits (bits : List Bool) (pieces : List Piece) : ∀ l : Layout,
    (l.bits bits).andThen pieces = l.chunks ++ encode (l.tail ++ bits) pieces := by
  induction bits with
  | nil =>
    intro l
    rw [append_nil]
    rfl
  | cons bit rest ih =>
    intro l
    have step := ih (l.bit bit)
    have first := l.andThen_bit bit (.bits rest :: pieces)
    unfold andThen at first
    rw [encode, encode, append_assoc] at first
    exact step.trans first

theorem andThen_flush (pieces : List Piece) :
    l.flush.andThen pieces = l.chunks ++ (packed l.tail ++ encode [] pieces) := by
  unfold andThen
  rw [chunks_flush, tail_flush, append_assoc]

theorem andThen_field (src : List UInt8) (pieces : List Piece) :
    (l.field src).andThen pieces = l.chunks ++ (packed l.tail ++ src :: encode [] pieces) := by
  unfold andThen field push
  dsimp only
  rw [chunks_flush, tail_flush, append_assoc, append_assoc]
  rfl

theorem andThen_push (noBits : l.tail = []) (src : List UInt8) (pieces : List Piece) :
    (l.push src).andThen pieces = l.chunks ++ (packed l.tail ++ src :: encode [] pieces) := by
  unfold andThen push
  dsimp only
  rw [noBits, append_assoc]
  rfl

theorem andThen_write {call : WriteCall} (met : call.Meets l.tail.length) (pieces : List Piece) :
    (l.write call).andThen pieces = l.andThen (call.pieces ++ pieces) := by
  have noBits : call.isRaw = true → l.tail = [] := fun isRaw =>
    List.length_eq_zero_iff.mp (met.2 isRaw)
  cases call with
  | writeBit bit => exact l.andThen_bit _ pieces
  | writeBits value bits _ => exact andThen_bits _ pieces l
  | flushBits => exact l.andThen_flush pieces
  | int type value =>
    have notNil : leBytes type.size value.toNat ≠ [] := by
      cases type with
      | uint8 => exact cons_ne_nil _ _
      | uint16 => exact cons_ne_nil _ _
      | uint32 => exact cons_ne_nil _ _
      | uint64 => exact cons_ne_nil _ _
    refine (l.andThen_field _ pieces).trans (congrArg (l.chunks ++ ·) ?_)
    exact (if_neg notNil).symm
  | string value =>
    rw [write]
    change _ = l.chunks ++ encode l.tail (.bytes value :: .bytes [0] :: pieces)
    by_cases isNil : value = []
    · rw [isNil, if_neg (by simp), andThen_field]
      rfl
    have pushed : value.length ≠ 0 := fun zero => isNil (List.length_eq_zero_iff.mp zero)
    have isEmpty := noBits (decide_eq_true isNil)
    rw [if_pos pushed, andThen_field]
    unfold push
    dsimp only
    rw [isEmpty, encode, if_neg isNil, encode, if_neg (cons_ne_nil 0 []), append_assoc]
    rfl
  | writeString str =>
    rw [write]
    change _ = l.chunks ++ encode l.tail (.bytes str :: pieces)
    by_cases isNil : str = []
    · rw [isNil, if_neg (by simp)]
      rfl
    · have pushed : str.length ≠ 0 := fun zero => isNil (List.length_eq_zero_iff.mp zero)
      rw [if_pos pushed, l.andThen_push (noBits (decide_eq_true isNil)), encode, if_neg isNil]
  | appendPackGUID guid => exact l.andThen_push (noBits rfl) _ pieces
  | append src =>
    have isSrc : src ≠ [] := fun isNil => met.1 (by rw [isNil])
    rw [write, l.andThen_push (noBits rfl)]
    exact congrArg (l.chunks ++ ·) (if_neg isSrc).symm
  | writeByteSeq byte =>
    rw [write]
    change _ = l.chunks ++ encode l.tail (.bytes (if byte = 0 then [] else [byte ^^^ 1]) :: pieces)
    by_cases isZero : byte = 0
    · rw [if_neg (not_not.mpr isZero), if_pos isZero]
      rfl
    · rw [if_pos isZero, if_neg isZero, andThen_field]
      rfl

theorem length_tail_write {call : WriteCall} (met : call.Meets l.tail.length) :
    (l.write call).tail.length = call.pending l.tail.length := by
  have field : ∀ (l : Layout) (src : List UInt8), (l.field src).tail.length = 0 := fun l src => by
    unfold Layout.field push
    rw [tail_flush]
    rfl
  cases call with
  | writeBit bit => exact l.length_tail_bit _
  | writeBits value bits _ =>
    have step := length_tail_bits (Bits.ofNat bits value.toNat) l
    rw [length_ofNat] at step
    exact step
  | flushBits => exact congrArg List.length l.tail_flush
  | int type value => exact field l _
  | string value => exact field _ _
  | writeString str =>
    cases str with
    | nil => rfl
    | cons first rest => exact met.2 rfl
  | appendPackGUID guid => exact met.2 rfl
  | append src => exact met.2 rfl
  | writeByteSeq byte =>
    rw [write]
    change _ = if byte = 0 then l.tail.length else 0
    by_cases isZero : byte = 0
    · rw [if_neg (not_not.mpr isZero)]
      exact (if_pos isZero).symm
    · rw [if_pos isZero, if_neg isZero]
      exact field l _

theorem writeAll_encode (calls : List WriteCall) : ∀ {l : Layout}, Flushed l.tail.length calls →
    ∀ pieces, (l.writeAll calls).andThen pieces =
      l.andThen (calls.flatMap WriteCall.pieces ++ pieces) := by
  induction calls with
  | nil => exact fun _ _ => rfl
  | cons call rest ih =>
    intro l met pieces
    have later : Flushed (l.write call).tail.length rest := by
      rw [l.length_tail_write met.1]
      exact met.2
    have step := ih later pieces
    rw [l.andThen_write met.1, ← append_assoc, ← flatMap_cons] at step
    exact step

end Layout

namespace ByteBuffer

variable {b : ByteBuffer} {l : Layout}

theorem Holds.write (holds : Holds b l) (fits : Fits l.chunks) {call : WriteCall}
    (hasSource : call ≠ .append []) : Writes (b.write call) (l.write call) := by
  cases call with
  | writeBit bit => exact holds.writeBit fits _
  | writeBits value bits _ => exact holds.writeBitList _ fits
  | flushBits => exact holds.flushBits fits
  | int type value =>
    refine holds.appendValue fits ?_
    cases type with
    | uint8 => exact cons_ne_nil _ _
    | uint16 => exact cons_ne_nil _ _
    | uint32 => exact cons_ne_nil _ _
    | uint64 => exact cons_ne_nil _ _
  | string value =>
    change Writes (b.writeCString value) _
    rw [Layout.write, writeCString]
    split
    · rename_i pushed
      have isValue : value ≠ [] := fun isNil => pushed (congrArg List.length isNil)
      exact (holds.append isValue).bind ((l.push value).prefix_field [0]) fun _ holds' fits' =>
        holds'.appendValue fits' (cons_ne_nil 0 [])
    · exact holds.appendValue fits (cons_ne_nil 0 [])
  | writeString str =>
    change Writes (b.writeString str) _
    rw [Layout.write, writeString]
    split
    · rename_i pushed
      exact holds.append fun isNil => pushed (congrArg List.length isNil)
    · exact holds.writes fits
  | appendPackGUID guid => exact holds.append (cons_ne_nil _ _)
  | append src => exact holds.append fun isNil => hasSource (congrArg WriteCall.append isNil)
  | writeByteSeq byte =>
    change Writes (b.writeByteSeq byte) _
    rw [Layout.write, writeByteSeq]
    split
    · exact holds.appendValue fits (cons_ne_nil _ [])
    · exact holds.writes fits

theorem Holds.writeAll (calls : List WriteCall) : ∀ {b : ByteBuffer} {l : Layout}, Holds b l →
    Fits l.chunks → (∀ call ∈ calls, call ≠ .append []) →
    Writes (ByteBuffer.writeAll calls b) (l.writeAll calls) := by
  induction calls with
  | nil => exact fun holds fits _ => holds.writes fits
  | cons call rest ih =>
    intro b l holds fits hasSource
    exact (holds.write fits (hasSource call mem_cons_self)).bind
      (Layout.prefix_writeAll rest _) fun _ holds' fits' =>
        ih holds' fits' fun other member => hasSource other (mem_cons_of_mem _ member)

end ByteBuffer

namespace WriteCall

/-- The same call, but for the bits that are written. -/
inductive SameShape : WriteCall → WriteCall → Prop
  | writeBit (bit bit' : UInt32) : SameShape (.writeBit bit) (.writeBit bit')
  | writeBits (value value' : UInt64) (bits : Nat) (inWidth : bits ≤ 64) :
    SameShape (.writeBits value bits inWidth) (.writeBits value' bits inWidth)
  | refl (call : WriteCall) : SameShape call call

variable {call call' : WriteCall}

theorem SameShape.pending (same : SameShape call call') (n : Nat) :
    call'.pending n = call.pending n := by
  cases same with
  | writeBit bit bit' => rfl
  | writeBits value value' bits inWidth => rfl
  | refl call => rfl

theorem SameShape.meets (same : SameShape call call') {n : Nat} (met : call.Meets n) :
    call'.Meets n := by
  cases same with
  | writeBit bit bit' => exact ⟨nofun, nofun⟩
  | writeBits value value' bits inWidth => exact ⟨nofun, nofun⟩
  | refl call => exact met

/-- The call with every bit it writes being `v`. -/
def fill (v : Bool) : WriteCall → WriteCall
  | .writeBit _ => .writeBit (if v then 1 else 0)
  | .writeBits _ bits inWidth => .writeBits (if v then 0xFFFFFFFFFFFFFFFF else 0) bits inWidth
  | call => call

theorem sameShape_fill (v : Bool) (call : WriteCall) : SameShape call (call.fill v) := by
  cases call with
  | writeBit bit => exact .writeBit _ _
  | writeBits value bits inWidth => exact .writeBits _ _ bits inWidth
  | _ => exact .refl _

theorem source_of_isRaw (isRaw : call.isRaw = true) (hasSource : call ≠ .append []) :
    ∃ first src more, call.pieces = .bytes (first :: src) :: more ∧
      ∀ l : Layout, l.chunks ++ [first :: src] <+: (l.write call).chunks := by
  cases call with
  | string value =>
    have notNil : value ≠ [] := of_decide_eq_true isRaw
    obtain ⟨first, src, rfl⟩ := exists_cons_of_ne_nil notNil
    refine ⟨first, src, [.bytes [0]], rfl, fun l => ?_⟩
    exact Layout.prefix_field (l.push (first :: src)) [0]
  | writeString str =>
    have notNil : str ≠ [] := of_decide_eq_true isRaw
    obtain ⟨first, src, rfl⟩ := exists_cons_of_ne_nil notNil
    exact ⟨first, src, [], rfl, fun l => prefix_refl _⟩
  | appendPackGUID guid => exact ⟨_, _, [], rfl, fun l => prefix_refl _⟩
  | append src =>
    have notNil : src ≠ [] := fun isNil => hasSource (congrArg WriteCall.append isNil)
    obtain ⟨first, src, rfl⟩ := exists_cons_of_ne_nil notNil
    exact ⟨first, src, [], rfl, fun l => prefix_refl _⟩
  | writeBit bit => cases isRaw
  | writeBits value bits inWidth => cases isRaw
  | flushBits => cases isRaw
  | int type value => cases isRaw
  | writeByteSeq byte => cases isRaw

end WriteCall

theorem Flushed.of_sameShape {calls calls' : List WriteCall}
    (same : List.Forall₂ WriteCall.SameShape calls calls') : ∀ {n : Nat}, Flushed n calls →
      Flushed n calls' := by
  induction same with
  | nil => exact fun met => met
  | cons first _ ih =>
    intro n met
    refine ⟨first.meets met.1, ?_⟩
    rw [first.pending]
    exact ih met.2

theorem length_packAfter (bits : List Bool) : ∀ {begun : List Bool}, begun.length < 8 →
    (packAfter begun bits).length = (begun.length + bits.length + 7) / 8 := by
  induction bits with
  | nil =>
    intro begun short
    rw [packAfter_nil, length_nil]
    split
    · rename_i isNil
      rw [isNil]
      rfl
    rename_i notNil
    have := length_pos_of_ne_nil notNil
    change 1 = _
    omega
  | cons bit rest ih =>
    intro begun short
    rw [packAfter, length_cons]
    split
    · rename_i seven
      have step := ih (show [].length < 8 by decide)
      rw [length_nil] at step
      rw [length_cons, step]
      omega
    · have longer : (begun ++ [bit]).length = begun.length + 1 := by
        rw [length_append, length_singleton]
      rw [ih (by omega), longer]
      omega

theorem lengths_packed (run : List Bool) :
    (packed run).map List.length = List.replicate ((run.length + 7) / 8) 1 := by
  have len : (pack run).length = (run.length + 7) / 8 := by
    have := length_packAfter run (show [].length < 8 by decide)
    rw [length_nil, Nat.zero_add] at this
    exact this
  unfold packed
  rw [List.map_map, eq_replicate_iff]
  refine ⟨(length_map _).trans len, fun n member => ?_⟩
  obtain ⟨b, -, isOne⟩ := List.mem_map.mp member
  exact isOne.symm

inductive Piece.SameShape : Piece → Piece → Prop
  | bits {run run' : List Bool} (sameLength : run.length = run'.length) :
    SameShape (.bits run) (.bits run')
  | flush : SameShape .flush .flush
  | bytes {src src' : List UInt8} (sameLength : src.length = src'.length) :
    SameShape (.bytes src) (.bytes src')

theorem Piece.SameShape.refl (piece : Piece) : Piece.SameShape piece piece := by
  cases piece with
  | bits run => exact .bits rfl
  | flush => exact .flush
  | bytes src => exact .bytes rfl

theorem lengths_encode {pieces pieces' : List Piece}
    (same : List.Forall₂ Piece.SameShape pieces pieces') : ∀ {run run' : List Bool},
      run.length = run'.length →
      (encode run pieces).map List.length = (encode run' pieces').map List.length := by
  induction same with
  | nil =>
    intro run run' sameLength
    rw [encode, encode, lengths_packed, lengths_packed, sameLength]
  | @cons piece piece' rest rest' first _ ih =>
    intro run run' sameLength
    cases first with
    | bits bitsLength =>
      rw [encode, encode]
      exact ih (by rw [length_append, length_append, sameLength, bitsLength])
    | flush =>
      rw [encode, encode, map_append, map_append, lengths_packed, lengths_packed,
        sameLength, ih rfl]
    | @bytes src src' srcLength =>
      rw [encode, encode]
      by_cases isNil : src = []
      · have isNil' : src' = [] := by
          rw [isNil, length_nil] at srcLength
          exact List.length_eq_zero_iff.mp srcLength.symm
        rw [if_pos isNil, if_pos isNil']
        exact ih sameLength
      · have notNil' : src' ≠ [] := by
          intro isNil'
          rw [isNil', length_nil] at srcLength
          exact isNil (List.length_eq_zero_iff.mp srcLength)
        rw [if_neg isNil, if_neg notNil', map_append, map_append, lengths_packed,
          lengths_packed, sameLength, map_cons, map_cons, ih rfl, srcLength]

theorem fits_of_lengths {chunks chunks' : List (List UInt8)}
    (same : chunks.map List.length = chunks'.map List.length) (fits : Fits chunks) :
    Fits chunks' := by
  unfold Fits at fits ⊢
  rw [length_flatten, map_dropLast] at fits ⊢
  rw [← same]
  exact fits

theorem WriteCall.SameShape.pieces {call call' : WriteCall} (same : WriteCall.SameShape call call') :
    List.Forall₂ Piece.SameShape call.pieces call'.pieces := by
  cases same with
  | writeBit bit bit' => exact .cons (.bits rfl) .nil
  | writeBits value value' bits inWidth =>
    exact .cons (.bits ((length_ofNat _ _).trans (length_ofNat _ _).symm)) .nil
  | refl call => exact List.forall₂_same.mpr fun piece _ => .refl piece

theorem fits_of_sameShape {calls calls' : List WriteCall}
    (same : List.Forall₂ (fun call call' => List.Forall₂ Piece.SameShape call.pieces call'.pieces)
      calls calls') (fits : Fits (encodeCalls calls)) : Fits (encodeCalls calls') := by
  have pieces : List.Forall₂ Piece.SameShape (calls.flatMap WriteCall.pieces)
      (calls'.flatMap WriteCall.pieces) := by
    clear fits
    induction same with
    | nil => exact .nil
    | cons first _ ih =>
      rw [flatMap_cons, flatMap_cons]
      exact rel_append first ih
  exact fits_of_lengths (lengths_encode pieces rfl) fits

section Order

open ByteBuffer

variable {calls : List WriteCall}

theorem Flushed.hasSource : ∀ {n : Nat} {calls : List WriteCall}, Flushed n calls →
    ∀ call ∈ calls, call ≠ .append [] := by
  intro n calls
  induction calls generalizing n with
  | nil => exact fun _ _ member => absurd member not_mem_nil
  | cons first rest ih =>
    intro met call member
    rcases List.mem_cons.mp member with rfl | inRest
    · exact met.1.1
    · exact ih met.2 call inRest

theorem writes_of_hasSource (hasSource : ∀ call ∈ calls, call ≠ .append []) :
    Writes (fresh.writeAll calls >>= flushBits) (Layout.empty.writeAll calls).flush :=
  (holds_fresh.writeAll calls (by decide) hasSource).bind (Layout.prefix_flush _)
    fun _ holds fits => holds.flushBits fits

theorem chunks_of_flushed (met : Flushed 0 calls) :
    (Layout.empty.writeAll calls).flush.chunks = encodeCalls calls := by
  have whole := @Layout.writeAll_encode calls .empty met []
  rw [append_nil] at whole
  rw [Layout.chunks_flush]
  exact whole

theorem keepsOrder_of_flushed (met : Flushed 0 calls) (fits : Fits (encodeCalls calls)) :
    KeepsOrder calls := by
  have chunks := chunks_of_flushed met
  rcases writes_of_hasSource met.hasSource with ⟨-, b, isOk, holds⟩ | ⟨unfit, -⟩
  · exact ⟨b, isOk, chunks ▸ holds.storage⟩
  · exact absurd fits (chunks ▸ unfit)

theorem hasSource_of_ok (calls : List WriteCall) : ∀ {b b' : ByteBuffer} {l : Layout}, Holds b l →
    Fits l.chunks → b.writeAll calls = .ok b' → ∀ call ∈ calls, call ≠ .append [] := by
  induction calls with
  | nil => exact fun _ _ _ _ member => absurd member not_mem_nil
  | cons first rest ih =>
    intro b b' l holds fits isOk call member
    have isFirst : first ≠ .append [] := by
      intro noSource
      rw [noSource] at isOk
      cases isOk
    rcases List.mem_cons.mp member with rfl | inRest
    · exact isFirst
    rw [writeAll] at isOk
    rcases holds.write fits isFirst with ⟨fits', b1, step, holds'⟩ | ⟨-, step⟩
    · rw [step] at isOk
      exact ih holds' fits' isOk call inRest
    · rw [step] at isOk
      cases isOk

theorem hasSource_of_keepsOrder (keeps : KeepsOrder calls) : ∀ call ∈ calls, call ≠ .append [] := by
  obtain ⟨b, isOk, -⟩ := keeps
  obtain ⟨_, written, -⟩ := bind_ok isOk
  exact hasSource_of_ok calls holds_fresh (by decide) written

theorem exists_of_not_flushed (calls : List WriteCall) : ∀ {n : Nat}, ¬ Flushed n calls →
    ∃ done call rest, calls = done ++ call :: rest ∧ Flushed n done ∧
      ¬ call.Meets (done.foldl WriteCall.pending n) := by
  induction calls with
  | nil => exact fun unmet => absurd True.intro unmet
  | cons first calls ih =>
    intro n unmet
    by_cases met : first.Meets n
    · obtain ⟨done, call, rest, split, before, here⟩ := ih fun later => unmet ⟨met, later⟩
      exact ⟨first :: done, call, rest, by rw [split]; rfl, ⟨met, before⟩, here⟩
    · exact ⟨[], first, calls, rfl, True.intro, met⟩

theorem length_tail_writeAll (calls : List WriteCall) : ∀ {l : Layout},
    Flushed l.tail.length calls →
      (l.writeAll calls).tail.length = calls.foldl WriteCall.pending l.tail.length := by
  induction calls with
  | nil => exact fun _ => rfl
  | cons call rest ih =>
    intro l met
    have length := l.length_tail_write met.1
    have step := @ih (l.write call) (length.symm ▸ met.2)
    rw [length] at step
    exact step

theorem ofNat_fill (v : Bool) (bits : Nat) (inWidth : bits ≤ 64) :
    ∀ bit ∈ Bits.ofNat bits (if v then 0xFFFFFFFFFFFFFFFF else 0 : UInt64).toNat, bit = v := by
  intro bit member
  have general : ∀ n, n ≤ 64 → ∀ w : Nat, (∀ i < 64, w.testBit i = v) →
      ∀ bit ∈ Bits.ofNat n w, bit = v := by
    intro n
    induction n with
    | zero => exact fun _ _ _ _ member => absurd member not_mem_nil
    | succ n ih =>
      intro inWidth w all bit member
      rcases List.mem_cons.mp member with rfl | inRest
      · exact all n inWidth
      · exact ih (Nat.le_of_succ_le inWidth) w all bit inRest
  refine general bits inWidth _ (fun i below => ?_) bit member
  cases v with
  | true =>
    have ones : (0xFFFFFFFFFFFFFFFF : UInt64).toNat = 2 ^ 64 - 1 := rfl
    rw [if_pos rfl, ones, Nat.testBit_two_pow_sub_one, decide_eq_true below]
  | false => exact Nat.zero_testBit i

theorem tail_writeAll_fill (v : Bool) (calls : List WriteCall) : ∀ {l : Layout},
    (∀ bit ∈ l.tail, bit = v) →
      ∀ bit ∈ (l.writeAll (calls.map (WriteCall.fill v))).tail, bit = v := by
  have bit : ∀ {l : Layout}, (∀ bit ∈ l.tail, bit = v) → ∀ bit ∈ (l.bit v).tail, bit = v := by
    intro l all bit member
    unfold Layout.bit at member
    split at member
    · cases member
    · rcases List.mem_append.mp member with old | isNew
      · exact all bit old
      · exact List.mem_singleton.mp isNew
  have bits : ∀ (bits : List Bool) {l : Layout}, (∀ bit ∈ bits, bit = v) →
      (∀ bit ∈ l.tail, bit = v) → ∀ bit ∈ (l.bits bits).tail, bit = v := by
    intro bits
    induction bits with
    | nil => exact fun _ all => all
    | cons first rest ih =>
      intro l same all
      have isFirst := same first mem_cons_self
      subst isFirst
      exact ih (fun other member => same other (mem_cons_of_mem _ member)) (bit all)
  have field : ∀ (l : Layout) (src : List UInt8), ∀ bit ∈ (l.field src).tail, bit = v := by
    intro l src bit member
    rw [show (l.field src).tail = [] from l.tail_flush] at member
    cases member
  induction calls with
  | nil => exact fun all => all
  | cons call rest ih =>
    intro l all
    apply ih
    cases call with
    | writeBit b =>
      cases v with
      | true => exact bit all
      | false => exact bit all
    | writeBits value n inWidth => exact bits _ (ofNat_fill v n inWidth) all
    | flushBits =>
      intro bit member
      rw [show (l.write (WriteCall.flushBits.fill v)).tail = [] from l.tail_flush] at member
      cases member
    | int type value => exact field l _
    | string value => exact field _ _
    | writeString str =>
      change ∀ bit ∈ (l.write (.writeString str)).tail, bit = v
      rw [Layout.write]
      split
      · exact all
      · exact all
    | appendPackGUID guid => exact all
    | append src => exact all
    | writeByteSeq byte =>
      change ∀ bit ∈ (l.write (.writeByteSeq byte)).tail, bit = v
      rw [Layout.write]
      split
      · exact field l _
      · exact all

theorem foldl_pending_fill (v : Bool) (calls : List WriteCall) : ∀ n,
    (calls.map (WriteCall.fill v)).foldl WriteCall.pending n = calls.foldl WriteCall.pending n := by
  induction calls with
  | nil => exact fun _ => rfl
  | cons call rest ih =>
    intro n
    rw [map_cons, foldl_cons, ih, (WriteCall.sameShape_fill v call).pending]
    rfl

theorem sameShape_fills (v : Bool) (calls : List WriteCall) :
    List.Forall₂ WriteCall.SameShape calls (calls.map (WriteCall.fill v)) := by
  induction calls with
  | nil => exact .nil
  | cons call rest ih => exact .cons (WriteCall.sameShape_fill v call) ih

theorem first_of_keepsOrder (rest : List WriteCall) {before : List WriteCall} {call : WriteCall} {first : UInt8}
    {src : List UInt8} {more : List Piece} (met : Flushed 0 before)
    (pieces : call.pieces = .bytes (first :: src) :: more)
    (raw : ∀ l : Layout, l.chunks ++ [first :: src] <+: (l.write call).chunks)
    (pending : (Layout.empty.writeAll before).tail ≠ [])
    (keeps : KeepsOrder (before ++ call :: rest)) :
    first = toByte (Layout.empty.writeAll before).tail := by
  have hasSource := hasSource_of_keepsOrder keeps
  obtain ⟨b, isOk, inOrder⟩ := keeps
  have written := writes_of_hasSource hasSource
  rw [isOk] at written
  have storage := written.ok.2.storage
  generalize isLayout : Layout.empty.writeAll before = l at *
  have encoded := @Layout.writeAll_encode before .empty met (call.pieces ++ rest.flatMap WriteCall.pieces)
  rw [isLayout, pieces] at encoded
  have expected : (encodeCalls (before ++ call :: rest)).flatten =
      l.chunks.flatten ++ toByte l.tail :: (first :: src ++
        (encode [] (more ++ rest.flatMap WriteCall.pieces)).flatten) := by
    unfold encodeCalls
    rw [flatMap_append, flatMap_cons, pieces]
    change (Layout.empty.andThen _).flatten = _
    rw [← encoded]
    change (l.chunks ++ encode l.tail (.bytes (first :: src) :: (more ++ _))).flatten = _
    rw [encode, if_neg (cons_ne_nil first src), packed_short l.short, if_neg pending,
      flatten_append]
    rfl
  have later : l.chunks ++ [first :: src] <+:
      (Layout.empty.writeAll (before ++ call :: rest)).flush.chunks := by
    have step := Layout.prefix_writeAll rest (l.write call)
    have whole : Layout.empty.writeAll (before ++ call :: rest) = (l.write call).writeAll rest := by
      rw [← isLayout]
      exact foldl_append
    rw [whole]
    exact ((raw l).trans step).trans (Layout.prefix_flush _)
  obtain ⟨more', isPrefix⟩ := later
  rw [← isPrefix, inOrder, expected, flatten_append, flatten_append, append_assoc,
    flatten_singleton] at storage
  have same := append_cancel_left storage
  exact (List.cons.inj same).1.symm

/-- **A sequence of calls keeps its order, whatever bits it writes, exactly if** nothing is appended
directly while bits are pending, every `append` has a source, and the last piece begins below the
limit. -/
theorem keepsOrder_iff (calls : List WriteCall) :
    (∀ calls', List.Forall₂ WriteCall.SameShape calls calls' → KeepsOrder calls') ↔
      Flushed 0 calls ∧ Fits (encodeCalls calls) := by
  constructor
  · intro keeps
    have now := keeps calls (List.forall₂_same.mpr fun call _ => .refl call)
    have met : Flushed 0 calls := by
      by_contra unmet
      obtain ⟨before, call, rest, split, metBefore, here⟩ := exists_of_not_flushed calls unmet
      have hasSource : call ≠ .append [] :=
        hasSource_of_keepsOrder now call (by rw [split]; simp)
      have isRaw : call.isRaw = true := by
        by_contra notRaw
        exact here ⟨hasSource, fun raw => absurd raw notRaw⟩
      have isPending : before.foldl WriteCall.pending 0 ≠ 0 := fun none =>
        here ⟨hasSource, fun _ => none⟩
      obtain ⟨first, src, more, pieces, raw⟩ := WriteCall.source_of_isRaw isRaw hasSource
      have sameCall : ∀ v, call.fill v = call := by
        intro v
        cases call with
        | writeBit bit => cases isRaw
        | writeBits value bits inWidth => cases isRaw
        | _ => rfl
      -- the byte of the pending bits, for either value of all of them
      have isFirst : ∀ v, first = toByte (List.replicate (before.foldl WriteCall.pending 0) v) := by
        intro v
        have metFill : Flushed 0 (before.map (WriteCall.fill v)) :=
          metBefore.of_sameShape (sameShape_fills v before)
        have length := @length_tail_writeAll (before.map (WriteCall.fill v)) .empty metFill
        rw [foldl_pending_fill] at length
        have tail : (Layout.empty.writeAll (before.map (WriteCall.fill v))).tail =
            List.replicate (before.foldl WriteCall.pending 0) v :=
          List.eq_replicate_iff.mpr ⟨length, tail_writeAll_fill v before nofun⟩
        rw [← tail]
        refine first_of_keepsOrder (rest.map (WriteCall.fill v)) metFill pieces raw ?_ ?_
        · intro isNil
          rw [isNil] at length
          exact isPending length.symm
        · have whole := keeps _ (sameShape_fills v calls)
          rw [split, map_append, map_cons, sameCall v] at whole
          exact whole
      obtain ⟨m, isSucc⟩ := Nat.exists_eq_succ_of_ne_zero isPending
      have both := (isFirst true).symm.trans (isFirst false)
      have few : m + 1 ≤ 8 := by
        have short := (Layout.empty.writeAll before).short
        rw [@length_tail_writeAll before .empty metBefore] at short
        change before.foldl WriteCall.pending 0 < 8 at short
        omega
      have bits := congrArg ofByte both
      rw [isSucc, ofByte_toByte (by rw [length_replicate]; exact few),
        ofByte_toByte (by rw [length_replicate]; exact few)] at bits
      cases (List.cons.inj bits).1
    refine ⟨met, ?_⟩
    obtain ⟨b, isOk, -⟩ := now
    have written := writes_of_hasSource met.hasSource
    rw [isOk] at written
    exact chunks_of_flushed met ▸ written.ok.1
  · intro ⟨met, fits⟩ calls' same
    exact keepsOrder_of_flushed (met.of_sameShape same)
      (fits_of_sameShape (same.imp fun _ _ => WriteCall.SameShape.pieces) fits)

/-- A bit and then a string: the bit ends up behind the string. -/
theorem not_keepsOrder_of_bit_writeString : ¬ KeepsOrder [.writeBit 1, .writeString [0x61]] := by
  intro ⟨b, isOk, inOrder⟩
  have written : (fresh.writeAll [.writeBit 1, .writeString [0x61]] >>= flushBits).map
      ByteBuffer.storage = .ok [0x61, 0x80] := rfl
  rw [isOk] at written
  have storage : b.storage = [0x61, 0x80] := Except.ok.inj written
  rw [storage] at inOrder
  exact absurd inOrder (by decide)

end Order

end Sky548
