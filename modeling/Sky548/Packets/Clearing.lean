import Sky548.Packets.Writing

/-!
# Buffers that are used again

`clear` empties the storage and puts both positions back; the bit position and the byte
that is being filled or emptied stay. Here reads and writes come in any order, so the
steps of the bit position are those of a `size_t`, and what a call does to the buffer
counts as well when it throws.
-/

namespace Sky548

open Bits

/-- The calls that all others come to: `WriteBits` and `ReadBits` go bit by bit, an
integer flushes and appends its bytes. -/
inductive BufferCall
  | writeBit (bit : Bool)
  | flushBits
  | append (src : List UInt8)
  | readBit
  | read (size : Nat)
  | clear

/-- What the caller gets. After an assertion, or a shift that has no meaning, there is
no caller any more. -/
inductive BufferReply
  | done
  | bit (bit : Bool)
  | bytes (bytes : List UInt8)
  | thrown (e : ByteBufferError)
  | ended
  deriving DecidableEq

namespace ByteBuffer

def clear (b : ByteBuffer) : ByteBuffer := { b with storage := [], rpos := 0, wpos := 0 }

/-- `append` as the caller sees it: an exception leaves the buffer as it is. -/
def appendCall (b : ByteBuffer) (src : List UInt8) : BufferReply × ByteBuffer :=
  match b.append src with
  | .ok b' => (.done, b')
  | .error .assertion => (.ended, b)
  | .error e => (.thrown e, b)

/-- `WriteBit` from any bit position: 0 goes to the last `size_t`. -/
def writeBitCall (b : ByteBuffer) (bit : Bool) : BufferReply × ByteBuffer :=
  let bitpos := (b.bitpos + (2 ^ 64 - 1)) % 2 ^ 64
  -- `1 << _bitpos` is a shift of an `int`
  if bit ∧ 32 ≤ bitpos then (.ended, b)
  else
    let curbitval := if bit then b.curbitval ||| UInt8.ofNat (2 ^ bitpos) else b.curbitval
    if bitpos = 0 then
      let (reply, b) := { b with bitpos := 8, curbitval := curbitval }.appendCall [curbitval]
      (reply, { b with curbitval := 0 })
    else (.done, { b with bitpos := bitpos, curbitval := curbitval })

def flushBitsCall (b : ByteBuffer) : BufferReply × ByteBuffer :=
  if b.bitpos = 8 then (.done, b)
  else
    let (reply, b) := b.appendCall [b.curbitval]
    (reply, { b with curbitval := 0, bitpos := 8 })

def readCall (b : ByteBuffer) (size : Nat) : BufferReply × ByteBuffer :=
  match b.read size with
  | .ok (bytes, b') => (.bytes bytes, b')
  | .error e => (.thrown e, b)

/-- `ReadBit`: an exception comes when the bit position is back at 0. -/
def readBitCall (b : ByteBuffer) : BufferReply × ByteBuffer :=
  let bitpos := (b.bitpos + 1) % 2 ^ 64
  if bitpos > 7 then
    match { b with bitpos := 0 }.read 1 with
    | .ok (bytes, b') =>
      let b' := { b' with curbitval := bytes.headD 0 }
      (.bit (isSet b'.curbitval 7), b')
    | .error e => (.thrown e, { b with bitpos := 0 })
  else (.bit (isSet b.curbitval (7 - bitpos)), { b with bitpos := bitpos })

def call (b : ByteBuffer) : BufferCall → BufferReply × ByteBuffer
  | .writeBit bit => b.writeBitCall bit
  | .flushBits => b.flushBitsCall
  | .append src => b.appendCall src
  | .readBit => b.readBitCall
  | .read size => b.readCall size
  | .clear => (.done, b.clear)

def history : List BufferCall → ByteBuffer → Option ByteBuffer
  | [], b => some b
  | c :: rest, b =>
    let (reply, b) := b.call c
    if reply = .ended then none else history rest b

/-- What a sequence of calls shows: every reply, and the bytes and positions behind it. -/
def observe : List BufferCall → ByteBuffer → List (BufferReply × List UInt8 × Nat × Nat)
  | [], _ => []
  | c :: rest, b =>
    let (reply, b) := b.call c
    (reply, b.storage, b.rpos, b.wpos) ::
      if reply = .ended then [] else observe rest b

/-- **Cleared is fresh**: no sequence of calls can tell the two apart. -/
def FreshWhenCleared (b : ByteBuffer) : Prop :=
  ∀ further, observe further b.clear = observe further fresh

variable {b : ByteBuffer}

theorem clear_eq_fresh :
    b.clear = fresh ↔ b.bitpos = 8 ∧ b.curbitval = 0 := by
  rw [ByteBuffer.mk.injEq]
  exact ⟨fun same => ⟨same.2.2.1, same.2.2.2.1⟩, fun same => ⟨rfl, rfl, same.1, same.2, rfl⟩⟩

theorem observe_flushBits (pending : b.bitpos ≠ 8) :
    observe [.flushBits] b.clear ≠ observe [.flushBits] fresh := by
  have away : b.clear.bitpos ≠ 8 := pending
  intro same
  simp only [observe, call, flushBitsCall, if_neg away] at same
  cases same

theorem writeBitCall_more {n : Nat} (position : b.bitpos = n + 1 + 1) (inByte : n < 7): b.writeBitCall false = (.done, { b with bitpos := n + 1 }) := by
  have down : (n + 1 + 1 + (2 ^ 64 - 1)) % 2 ^ 64 = n + 1 := by omega
  unfold writeBitCall
  rw [position, down, if_neg (by simp), if_neg (by omega)]
  rfl

theorem writeBitCall_last (byte : UInt8) :
    (⟨0, 0, 1, byte, []⟩ : ByteBuffer).writeBitCall false = (.done, ⟨0, 1, 8, 0, [byte]⟩) := by
  have down : (1 + (2 ^ 64 - 1)) % 2 ^ 64 = 0 := by omega
  have room : ¬ ¬ (⟨0, 0, 8, byte, []⟩ : ByteBuffer).size < appendLimit :=
    not_not.mpr (show 0 < 10000000 by decide)
  unfold writeBitCall
  rw [down, if_neg (by simp), if_pos rfl]
  simp only [appendCall, append, if_neg (List.cons_ne_nil byte []), Bool.false_eq_true, if_false,
    if_neg room]
  rfl

theorem observe_zeros (byte : UInt8) : ∀ {n : Nat}, n < 8 →
    observe (List.replicate (n + 1) (.writeBit false)) ⟨0, 0, n + 1, byte, []⟩ =
      List.replicate n (.done, [], 0, 0) ++ [(.done, [byte], 0, 1)] := by
  intro n
  induction n with
  | zero =>
    intro _
    have step := writeBitCall_last byte
    rw [List.replicate_succ, Nat.zero_add, observe, call, step]
    dsimp only
    rw [if_neg nofun, List.replicate_zero, observe]
    rfl
  | succ n ih =>
    intro inByte
    have step := writeBitCall_more (b := ⟨0, 0, n + 1 + 1, byte, []⟩) rfl (show n < 7 by omega)
    rw [List.replicate_succ, observe, call, step]
    dsimp only
    rw [if_neg nofun, ih (by omega), List.replicate_succ, List.cons_append]

theorem observe_byte (idle : b.bitpos = 8) (left : b.curbitval ≠ 0) :
    observe (List.replicate 8 (.writeBit false)) b.clear ≠
      observe (List.replicate 8 (.writeBit false)) fresh := by
  have cleared : b.clear = ⟨0, 0, 8, b.curbitval, []⟩ := by
    unfold clear
    rw [idle]
  intro same
  rw [cleared, observe_zeros b.curbitval (by decide)] at same
  have shown := same.trans (observe_zeros 0 (by decide))
  rw [List.append_cancel_left_eq, List.cons.injEq] at shown
  have bytes : [b.curbitval] = [0] := congrArg (fun step => step.2.1) shown.1
  exact left (List.cons.inj bytes).1

/-- **When a cleared buffer is a fresh one**: when no bits are pending and nothing is left
of the byte that is filled or emptied. -/
theorem freshWhenCleared_iff (b : ByteBuffer) :
    FreshWhenCleared b ↔ b.bitpos = 8 ∧ b.curbitval = 0 := by
  constructor
  · intro alike
    have idle : b.bitpos = 8 := by
      by_contra pending
      exact observe_flushBits pending (alike [.flushBits])
    refine ⟨idle, ?_⟩
    by_contra left
    exact observe_byte idle left (alike _)
  · intro isIdle further
    rw [clear_eq_fresh.mpr isIdle]

/-- One bit that was written is in front of the next packet. -/
theorem not_freshWhenCleared :
    ∃ b, history [.writeBit true] fresh = some b ∧ ¬ FreshWhenCleared b := by
  refine ⟨⟨0, 0, 7, 0x80, []⟩, by decide +kernel, fun alike => ?_⟩
  exact absurd (alike [.append [5], .flushBits]) (by decide +kernel)

end ByteBuffer

end Sky548
