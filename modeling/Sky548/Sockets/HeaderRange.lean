import Mathlib.Tactic.IntervalCases
import Sky548.Sockets.Input

/-!
# The range of a header

In an encrypted header the size has 19 bits and the opcode 13. The server puts both into 32 bits. On
the way in the size is stored in 16 bits before it is compared with the largest that is allowed.
-/

namespace Sky548

def clientHeader (size : UInt32) (opcode : UInt16) : List UInt8 :=
  Bits.leBytes worldClientPktHeaderSize ((size <<< 13) ||| opcode.toUInt32).toNat

def maxWorldPayload : UInt32 := 10236

section Packing

variable {size : UInt32} {opcode : UInt16}

theorem toNat_pack (small : size.toNat < 2 ^ 19) (isOpcode : opcode.toNat < 2 ^ 13) :
    ((size <<< 13) ||| opcode.toUInt32).toNat = size.toNat * 2 ^ 13 + opcode.toNat := by
  have shifted : (size <<< 13).toNat = size.toNat <<< 13 := by
    rw [UInt32.toNat_shiftLeft]
    have whole : size.toNat <<< 13 < 2 ^ 32 := by
      rw [Nat.shiftLeft_eq]
      omega
    exact Nat.mod_eq_of_lt whole
  rw [UInt32.toNat_or, shifted, UInt16.toNat_toUInt32, ← Nat.shiftLeft_add_eq_or_of_lt isOpcode,
    Nat.shiftLeft_eq]

theorem toNat_unpack (value : UInt32) :
    ((value &&& ~~~maxOpcode) >>> 13).toNat = value.toNat / 2 ^ 13 := by
  have same : (value &&& ~~~maxOpcode) >>> 13 = value >>> 13 := by
    apply UInt32.eq_of_toBitVec_eq
    apply BitVec.eq_of_getLsbD_eq
    intro i below
    have bit : ∀ i < 19, maxOpcode.toBitVec.getLsbD (13 + i) = false := by
      intro i below
      interval_cases i <;> decide
    rcases Nat.lt_or_ge i 19 with inSize | above
    · have inWord : 13 + i < 32 := by omega
      have isSize : value.toBitVec[13 + i] = true → maxOpcode.toBitVec[13 + i] = false := by
        intro _
        rw [← BitVec.getLsbD_eq_getElem]
        exact bit i inSize
      simpa [inWord] using isSize
    · have outside : ∀ b : BitVec 32, b.getLsbD (13 + i) = false := fun b =>
        BitVec.getLsbD_of_ge b _ (by omega)
      simp [outside]
  rw [same, UInt32.toNat_shiftRight, Nat.shiftRight_eq_div_pow]
  rfl

theorem toNat_opcode (value : UInt32) : (value &&& maxOpcode).toNat = value.toNat % 2 ^ 13 := by
  rw [UInt32.toNat_and]
  exact Nat.and_two_pow_sub_one_eq_mod value.toNat 13

theorem ofLeBytes_word (value : UInt32) :
    UInt32.ofNat (Bits.ofLeBytes (Bits.leBytes 4 value.toNat)) = value := by
  have whole : value.toNat % 256 ^ 4 = value.toNat := Nat.mod_eq_of_lt value.toNat_lt
  rw [Bits.ofLeBytes_leBytes, whole, UInt32.ofNat_toNat]

theorem readWorldHeader_clientHeader (small : size.toNat < 2 ^ 19)
    (isOpcode : opcode.toNat < 2 ^ 13) :
    readWorldHeader (clientHeader size opcode) =
      if size.toNat % 2 ^ 16 > 10236 then none else some (opcode, size.toNat % 2 ^ 16) := by
  have value := ofLeBytes_word ((size <<< 13) ||| opcode.toUInt32)
  have packed := toNat_pack small isOpcode
  have isCmd : ((((size <<< 13) ||| opcode.toUInt32) &&& maxOpcode).toUInt16) = opcode := by
    rw [← UInt16.toNat_inj, UInt32.toNat_toUInt16, toNat_opcode, packed]
    omega
  have isSize : ((((size <<< 13) ||| opcode.toUInt32) &&& ~~~maxOpcode) >>> 13).toUInt16.toNat =
      size.toNat % 2 ^ 16 := by
    rw [UInt32.toNat_toUInt16, toNat_unpack, packed]
    omega
  have kept : dropHighBytes opcode = opcode := by
    have masked : (opcode &&& numOpcodeHandlers).toNat = opcode.toNat % 2 ^ 15 := by
      rw [UInt16.toNat_and]
      exact Nat.and_two_pow_sub_one_eq_mod opcode.toNat 15
    rw [dropHighBytes, ← UInt16.toNat_inj, masked]
    omega
  unfold readWorldHeader clientHeader worldClientPktHeaderSize
  dsimp only
  rw [value, isCmd, isSize, kept]
  simp only [gt_iff_lt, UInt16.lt_iff_toNat_lt, isSize]
  rfl

theorem pack_inj {size' : UInt32} {opcode' : UInt16} (small : size.toNat < 2 ^ 19)
    (isOpcode : opcode.toNat < 2 ^ 13) (small' : size'.toNat < 2 ^ 19)
    (isOpcode' : opcode'.toNat < 2 ^ 13)
    (same : (size <<< 13) ||| opcode.toUInt32 = (size' <<< 13) ||| opcode'.toUInt32) :
    size = size' ∧ opcode = opcode' := by
  have packed := toNat_pack small isOpcode
  rw [same, toNat_pack small' isOpcode'] at packed
  rw [← UInt32.toNat_inj, ← UInt16.toNat_inj]
  omega

end Packing

namespace KeyStream

variable (k : KeyStream)

theorem apply_apply (data : List UInt8) : k.apply (k.apply data) = data := by
  refine List.ext_getElem (by rw [length_apply, length_apply]) fun i below below' => ?_
  simp only [apply, List.getElem_mapIdx, UInt8.xor_assoc, UInt8.xor_self, UInt8.xor_zero]

theorem apply_inj {data data' : List UInt8} (same : k.apply data = k.apply data') : data = data' := by
  rw [← k.apply_apply data, same, k.apply_apply]

end KeyStream

variable {σ : Type*}

/-- A socket with the cipher set up that has received the header of a packet of a client. -/
structure HasReceived (s : InputSocket σ) (size : UInt32) (opcode : UInt16) : Prop where
  encrypted : ∃ k, s.crypt = some k ∧ s.worldHeader = k.apply (clientHeader size opcode)

/-- `handle_input_header` takes a size that is allowed and the opcode as they were sent, and refuses
any other size. -/
def RightlyRead (s : InputSocket σ) (size : UInt32) (opcode : UInt16) : Prop :=
  if size ≤ maxWorldPayload then
    ∃ s', s.handleInputHeader = .ok s' ∧ s'.recvWPct = some opcode ∧ s'.recvPctSize = size.toNat
  else s.handleInputHeader = .error .malformed

/-- The header of a packet of the server says what size and opcode it has. -/
def ServerHeadersDiffer : Prop :=
  ∀ (k : KeyStream) (packet packet' : Packet), packet.2.length < 2 ^ 19 →
    packet'.2.length < 2 ^ 19 → packet.1.toUInt32 ≤ maxOpcode → packet'.1.toUInt32 ≤ maxOpcode →
    serverPktHeader (some k) packet = serverPktHeader (some k) packet' →
      packet.2.length = packet'.2.length ∧ packet.1 = packet'.1

theorem opcode_lt {opcode : UInt16} (isOpcode : opcode.toUInt32 ≤ maxOpcode) :
    opcode.toNat < 2 ^ 13 := by
  have bound := UInt32.le_iff_toNat_le.mp isOpcode
  rw [UInt16.toNat_toUInt32] at bound
  exact Nat.lt_succ_of_le bound

theorem serverHeadersDiffer : ServerHeadersDiffer := by
  intro k packet packet' small small' isOpcode isOpcode' same
  have masked : ∀ opcode : UInt16, opcode.toUInt32 ≤ maxOpcode →
      opcode.toUInt32 &&& maxOpcode = opcode.toUInt32 := by
    intro opcode isOpcode
    rw [← UInt32.toNat_inj, toNat_opcode, UInt16.toNat_toUInt32]
    exact Nat.mod_eq_of_lt (opcode_lt isOpcode)
  have length : ∀ n < 2 ^ 19, (UInt32.ofNat n).toNat = n := by
    intro n below
    rw [UInt32.toNat_ofNat']
    omega
  have bytes := k.apply_inj same
  rw [masked _ isOpcode, masked _ isOpcode'] at bytes
  have words := congrArg (fun bytes => UInt32.ofNat (Bits.ofLeBytes bytes)) bytes
  dsimp only [serverPktHeaderSize] at words
  rw [ofLeBytes_word, ofLeBytes_word] at words
  have sent := length _ small
  have sent' := length _ small'
  obtain ⟨sameSize, sameOpcode⟩ := pack_inj (by omega) (opcode_lt isOpcode) (by omega)
    (opcode_lt isOpcode') words
  refine ⟨?_, sameOpcode⟩
  rw [← sent, ← sent', sameSize]

/-- **Headers are read and written as they are meant exactly when** the size fits into 16 bits, or
what is left of it there is too large as well. -/
theorem rightlyRead_iff {s : InputSocket σ} {size : UInt32} {opcode : UInt16}
    (small : size.toNat < 2 ^ 19) (isOpcode : opcode.toUInt32 ≤ maxOpcode)
    (received : HasReceived s size opcode) :
    (RightlyRead s size opcode ∧ ServerHeadersDiffer) ↔
      size.toNat < 2 ^ 16 ∨ 10236 < size.toNat % 2 ^ 16 := by
  obtain ⟨k, isCrypt, isHeader⟩ := received.encrypted
  have isRead := readWorldHeader_clientHeader small (opcode_lt isOpcode)
  have allowed : size ≤ maxWorldPayload ↔ size.toNat ≤ 10236 := UInt32.le_iff_toNat_le
  unfold RightlyRead InputSocket.handleInputHeader
  rw [isCrypt]
  dsimp only
  rw [isHeader, k.apply_apply, isRead, and_iff_left serverHeadersDiffer]
  split
  · rename_i inBounds
    rw [allowed] at inBounds
    have whole : size.toNat % 2 ^ 16 = size.toNat := Nat.mod_eq_of_lt (by omega)
    rw [whole, if_neg (by omega)]
    exact iff_of_true ⟨_, rfl, rfl, rfl⟩ (Or.inl (by omega))
  · rename_i tooLarge
    rw [allowed] at tooLarge
    by_cases refused : size.toNat % 2 ^ 16 > 10236
    · rw [if_pos refused]
      exact iff_of_true rfl (Or.inr refused)
    · rw [if_neg refused]
      refine iff_of_false (fun same => ?_) (by omega)
      cases same

/-- A socket with a cipher that changes nothing, and a header. -/
def receivedHeader (size : UInt32) (opcode : UInt16) : InputSocket Unit :=
  { InputSocket.opened () with
    crypt := some ⟨fun _ => 0, 0⟩
    worldHeader := KeyStream.apply ⟨fun _ => 0, 0⟩ (clientHeader size opcode) }

theorem rightlyRead_small : RightlyRead (receivedHeader 100 7) 100 7 :=
  ((rightlyRead_iff (by decide) (by decide) ⟨_, rfl, rfl⟩).mpr (Or.inl (by decide))).1

/-- **A size of 65637 is read as 101.** -/
theorem not_rightlyRead_large : readWorldHeader (clientHeader 65637 7) = some (7, 101) ∧
      ¬ RightlyRead (receivedHeader 65637 7) 65637 7 := by
  have isRead : readWorldHeader (clientHeader 65637 7) = some (7, 101) := by decide
  refine ⟨isRead, fun right => ?_⟩
  rw [RightlyRead, if_neg (by decide)] at right
  have decrypted : (receivedHeader 65637 7).handleInputHeader = .ok ({ receivedHeader 65637 7 with
        worldHeader := clientHeader 65637 7
        crypt := some ⟨fun _ => 0, 4⟩ }.expect (7, 101)) := by
    unfold InputSocket.handleInputHeader receivedHeader
    dsimp only
    rw [KeyStream.apply_apply, isRead]
    rfl
  rw [decrypted] at right
  cases right

end Sky548
