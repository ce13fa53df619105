import Sky548.Packets.Order

/-!
# Reading back

Fields of bits and of fixed-width integers, written and read in the same order. A byte
write flushes the pending bits; `read<T>` leaves the bits that are left of the last byte
where they are, so that the next `ReadBits` starts with the padding.
-/

namespace Sky548

open List

open Bits

/-- A group of bits or an integer, with the value that is written. -/
inductive Field
  | bits (n : Nat) (range : 1 ≤ n ∧ n ≤ 32) (value : UInt64)
  | int (type : IntType) (value : UInt64)

namespace Field

def call : Field → WriteCall
  | .bits n range value => .writeBits value n (Nat.le_trans range.2 (by decide))
  | .int type value => .int type value

/-- The value of a field, which is reduced to its width. -/
def value : Field → Nat
  | .bits n _ value => value.toNat % 2 ^ n
  | .int type value => value.toNat % 256 ^ type.size

inductive SameShape : Field → Field → Prop
  | bits (n : Nat) (range : 1 ≤ n ∧ n ≤ 32) (value value' : UInt64) :
    SameShape (.bits n range value) (.bits n range value')
  | int (type : IntType) (value value' : UInt64) : SameShape (.int type value) (.int type value')

end Field

namespace ByteBuffer

def readField (b : ByteBuffer) : Field → Except ByteBufferError (Nat × ByteBuffer)
  | .bits n _ _ => do
      let (value, b) ← b.readBits n
      .ok (value.toNat, b)
  | .int type _ => do
      let (bytes, b) ← b.read type.size
      .ok (ofLeBytes bytes, b)

def readFields : List Field → ByteBuffer → Except ByteBufferError (List Nat × ByteBuffer)
  | [], b => .ok ([], b)
  | field :: rest, b => do
      let (value, b) ← b.readField field
      let (values, b) ← readFields rest b
      .ok (value :: values, b)

end ByteBuffer

/-- **The fields come back**: written to a fresh buffer and read in the same order, they
have their values, and all bytes have been read. -/
def RoundTrips (fields : List Field) : Prop :=
  ∃ b b', (ByteBuffer.fresh.writeAll (fields.map Field.call) >>= ByteBuffer.flushBits) = .ok b ∧
    (ByteBuffer.ofBytes b.storage).readFields fields = .ok (fields.map Field.value, b') ∧
    b'.rpos = b.size

/-- **No bits are read after padding**: with `n` bits in the last run of bits (but for full
bytes), and integers since or not. -/
def Aligned : Nat → Bool → List Field → Prop
  | _, _, [] => True
  | n, passed, .bits m _ _ :: rest => (passed = true → n = 0) ∧ Aligned ((n + m) % 8) false rest
  | n, _, .int _ _ :: rest => Aligned n true rest

instance decidableAligned : ∀ (n : Nat) (passed : Bool) (fields : List Field),
    Decidable (Aligned n passed fields)
  | _, _, [] => inferInstanceAs (Decidable True)
  | n, passed, .bits m _ _ :: rest =>
    have := decidableAligned ((n + m) % 8) false rest
    inferInstanceAs (Decidable ((passed = true → n = 0) ∧ Aligned ((n + m) % 8) false rest))
  | n, _, .int _ _ :: rest => decidableAligned n true rest

namespace ByteBuffer

def ahead (b : ByteBuffer) : List Bool := (ofByte b.curbitval).drop (b.bitpos + 1)

/-- The reader is before the bits `rem` with padding behind them, and then `after`. -/
structure Reading (bytes : List UInt8) (b : ByteBuffer) (rem : List Bool) (pad : Nat)
    (after : List UInt8) : Prop where
  storage : b.storage = bytes
  inside : b.rpos ≤ bytes.length
  bits : ∃ run, bytes.drop b.rpos = run ++ after ∧
    b.ahead ++ unpack run = rem ++ List.replicate pad false

variable {bytes after : List UInt8} {b : ByteBuffer} {rem : List Bool} {pad : Nat}

theorem drop_of_append {l front back : List UInt8} {n : Nat} (split : l.drop n = front ++ back) :
    l.drop (n + front.length) = back := by
  rw [← drop_drop, split, drop_left]

theorem read_of_drop {src : List UInt8} (storage : b.storage = bytes)
    (inside : b.rpos ≤ bytes.length) (split : bytes.drop b.rpos = src ++ after) :
    b.read src.length = .ok (src, { b with rpos := b.rpos + src.length }) ∧
      b.rpos + src.length ≤ bytes.length := by
  have len := congrArg List.length split
  rw [length_drop, length_append] at len
  have fits : b.rpos + src.length ≤ bytes.length := by omega
  refine ⟨?_, fits⟩
  unfold read size
  rw [storage, if_neg (Nat.not_lt.mpr fits), split, take_left]

theorem ofByte_eq_cons (byte : UInt8) : ofByte byte = isSet byte 7 :: (ofByte byte).drop 1 := rfl

theorem ahead_eq_cons {bit : Bool} {rest : List Bool} (isAhead : b.ahead = bit :: rest) :
    b.bitpos + 1 ≤ 7 ∧ isSet b.curbitval (7 - (b.bitpos + 1)) = bit ∧
      (ofByte b.curbitval).drop (b.bitpos + 2) = rest := by
  unfold ahead at isAhead
  have inByte : b.bitpos + 1 < (ofByte b.curbitval).length := by
    by_contra beyond
    rw [drop_of_length_le (Nat.le_of_not_lt beyond)] at isAhead
    cases isAhead
  rw [drop_eq_getElem_cons inByte] at isAhead
  obtain ⟨isBit, isRest⟩ := List.cons.inj isAhead
  rw [length_ofByte] at inByte
  refine ⟨by omega, ?_, isRest⟩
  rw [← isBit]
  simp only [ofByte, getElem_map, getElem_range]

theorem readBit_of_ahead {bit : Bool} {rest : List Bool} (isAhead : b.ahead = bit :: rest) :
    b.readBit = .ok (bit, { b with bitpos := b.bitpos + 1 }) ∧
      ahead { b with bitpos := b.bitpos + 1 } = rest := by
  obtain ⟨inByte, isBit, isRest⟩ := ahead_eq_cons isAhead
  refine ⟨?_, isRest⟩
  unfold readBit
  dsimp only
  rw [if_neg (by omega), ← isBit]
  rfl

theorem Reading.readBit {bit : Bool} (reading : Reading bytes b (bit :: rem) pad after) :
    ∃ b', b.readBit = .ok (bit, b') ∧ Reading bytes b' rem pad after := by
  obtain ⟨run, split, stream⟩ := reading.bits
  cases isAhead : b.ahead with
  | cons next rest =>
    rw [isAhead] at stream
    obtain ⟨same, others⟩ := List.cons.inj stream
    obtain ⟨isRead, isRest⟩ := readBit_of_ahead isAhead
    rw [same] at isRead
    refine ⟨_, isRead, reading.storage, reading.inside, run, split, ?_⟩
    rw [isRest]
    exact others
  | nil =>
    rw [isAhead, nil_append] at stream
    cases run with
    | nil => cases stream
    | cons byte run =>
      have beyond : b.bitpos + 1 > 7 := by
        by_contra inByte
        have len := congrArg List.length isAhead
        unfold ahead at len
        rw [length_drop, length_ofByte, length_nil] at len
        omega
      obtain ⟨isRead, fits⟩ := read_of_drop (b := { b with bitpos := 0 })
        reading.storage reading.inside (show bytes.drop b.rpos = [byte] ++ (run ++ after) from split)
      change (ofByte byte ++ unpack run) = _ at stream
      rw [ofByte_eq_cons] at stream
      obtain ⟨same, others⟩ := List.cons.inj stream
      refine ⟨{ b with bitpos := 0, rpos := b.rpos + 1, curbitval := byte }, ?_, reading.storage,
        fits, run, @drop_of_append bytes [byte] _ _ split, others⟩
      unfold ByteBuffer.readBit
      rw [if_pos beyond]
      have isRead : read { b with bitpos := 0 } 1 = _ := isRead
      rw [isRead, ← same]
      rfl

theorem toNat_readBits_turn {value : UInt32} {i hi : Nat} (below : i < 32)
    (isHigh : value.toNat = 2 ^ (i + 1) * hi) (bit : Bool) :
    (if bit = true then value ||| 1 <<< UInt32.ofNat i else value).toNat =
      2 ^ i * (2 * hi + bit.toNat) := by
  have double : 2 ^ i * (2 * hi) = 2 ^ (i + 1) * hi := by
    rw [← Nat.mul_assoc]
    rfl
  have power : (1 <<< UInt32.ofNat i : UInt32).toNat = 2 ^ i := by
    rw [UInt32.toNat_shiftLeft, UInt32.toNat_ofNat',
      Nat.mod_eq_of_lt (show i % 2 ^ 32 < 32 by omega), Nat.mod_eq_of_lt (show i < 2 ^ 32 by omega),
      UInt32.toNat_one, Nat.one_shiftLeft]
    exact Nat.mod_eq_of_lt (Nat.pow_lt_pow_right Nat.one_lt_two below)
  rw [Nat.mul_add, double]
  cases bit with
  | true =>
    rw [if_pos rfl, UInt32.toNat_or, power, isHigh, Bool.toNat_true, Nat.mul_one]
    exact (Nat.two_pow_add_eq_or_of_lt
      (Nat.pow_lt_pow_right Nat.one_lt_two (Nat.lt_succ_self i)) hi).symm
  | false =>
    rw [if_neg Bool.false_ne_true, isHigh, Bool.toNat_false, Nat.mul_zero]
    rfl

theorem Reading.readBitsFrom (group : List Bool) : ∀ {b : ByteBuffer} {value : UInt32} {hi : Nat},
    group.length ≤ 32 → value.toNat = 2 ^ group.length * hi →
    Reading bytes b (group ++ rem) pad after →
    ∃ v b', ByteBuffer.readBitsFrom group.length value b = .ok (v, b') ∧
      v.toNat = 2 ^ group.length * hi + Bits.value group ∧ Reading bytes b' rem pad after := by
  induction group with
  | nil => exact fun _ isHigh reading => ⟨_, _, rfl, isHigh, reading⟩
  | cons bit group ih =>
    intro b value hi short isHigh reading
    rw [length_cons] at short isHigh ⊢
    obtain ⟨b1, isBit, reading1⟩ := Reading.readBit reading
    have isNext := toNat_readBits_turn (show group.length < 32 by omega) isHigh bit
    obtain ⟨v, b2, isRead, isValue, reading2⟩ := ih (by omega) isNext reading1
    refine ⟨v, b2, ?_, ?_, reading2⟩
    · rw [ByteBuffer.readBitsFrom, isBit]
      exact isRead
    · rw [isValue, value_cons, Nat.mul_add, ← Nat.mul_assoc, ← Nat.pow_succ, Nat.add_assoc,
        Nat.mul_comm (2 ^ group.length) bit.toNat]

theorem Reading.readBits {group : List Bool} (short : group.length ≤ 32)
    (reading : Reading bytes b (group ++ rem) pad after) :
    ∃ v b', b.readBits group.length = .ok (v, b') ∧ v.toNat = Bits.value group ∧
      Reading bytes b' rem pad after := by
  obtain ⟨v, b', isRead, isValue, reading'⟩ :=
    @Reading.readBitsFrom bytes after rem pad group b 0 0 short rfl reading
  exact ⟨v, b', isRead, by rw [isValue, Nat.mul_zero, Nat.zero_add], reading'⟩

theorem toNat_lt_of_readBitsFrom (n : Nat) : ∀ {b b' : ByteBuffer} {value v : UInt32} {hi : Nat},
    n ≤ 32 → value.toNat = 2 ^ n * hi → ByteBuffer.readBitsFrom n value b = .ok (v, b') →
    v.toNat < 2 ^ n * (hi + 1) := by
  induction n with
  | zero =>
    intro b b' value v hi _ isHigh isRead
    cases isRead
    rw [isHigh, Nat.pow_zero, Nat.one_mul, Nat.one_mul]
    exact Nat.lt_succ_self hi
  | succ n ih =>
    intro b b' value v hi few isHigh isRead
    rw [ByteBuffer.readBitsFrom] at isRead
    obtain ⟨⟨bit, b1⟩, -, isRest⟩ := bind_ok isRead
    have isNext := toNat_readBits_turn (show n < 32 by omega) isHigh bit
    have below := ih (by omega) isNext isRest
    refine Nat.lt_of_lt_of_le below ?_
    rw [Nat.pow_succ, Nat.mul_assoc]
    refine Nat.mul_le_mul_left _ ?_
    have := Bool.toNat_le bit
    omega

end ByteBuffer

namespace Field

/-- The bits that a sequence of fields begins with. -/
def lead : List Field → List Bool
  | .bits n _ value :: rest => Bits.ofNat n value.toNat ++ lead rest
  | _ => []

def encoded (fields : List Field) : List UInt8 := (encodeCalls (fields.map call)).flatten

/-- The bytes behind the bits that a sequence of fields begins with. -/
def follow : List Field → List UInt8
  | [] => []
  | .bits _ _ _ :: rest => follow rest
  | .int type value :: rest => leBytes type.size value.toNat ++ encoded rest

theorem flatten_packed (run : List Bool) : (packed run).flatten = pack run := by
  unfold packed
  rw [flatten_eq_flatMap, flatMap_map]
  exact flatMap_singleton' _

theorem IntType.leBytes_ne (type : IntType) (v : Nat) : leBytes type.size v ≠ [] := by
  cases type with
  | uint8 => exact cons_ne_nil _ _
  | uint16 => exact cons_ne_nil _ _
  | uint32 => exact cons_ne_nil _ _
  | uint64 => exact cons_ne_nil _ _

theorem flatten_encode (fields : List Field) : ∀ run : List Bool,
    (encode run ((fields.map call).flatMap WriteCall.pieces)).flatten =
      pack (run ++ lead fields) ++ follow fields := by
  induction fields with
  | nil =>
    intro run
    change (packed run).flatten = pack (run ++ []) ++ []
    rw [flatten_packed, append_nil, append_nil]
  | cons field rest ih =>
    intro run
    cases field with
    | bits n range value =>
      change (encode run (.bits (Bits.ofNat n value.toNat) ::
        (rest.map call).flatMap WriteCall.pieces)).flatten = _
      rw [encode, ih, lead, follow, append_assoc]
    | int type value =>
      change (encode run (.bytes (leBytes type.size value.toNat) ::
        (rest.map call).flatMap WriteCall.pieces)).flatten = pack (run ++ []) ++ _
      rw [encode, if_neg (IntType.leBytes_ne type _), flatten_append, flatten_packed,
        flatten_cons, append_nil]
      rfl

theorem encoded_eq (fields : List Field) : encoded fields = pack (lead fields) ++ follow fields :=
  flatten_encode fields []

end Field

namespace ByteBuffer

open Field

variable {bytes : List UInt8} {b : ByteBuffer} {n : Nat} {fields : List Field}

/-- The reader is in a run of bits, `n` of them read but for full bytes. -/
def InRun (bytes : List UInt8) (b : ByteBuffer) (n : Nat) (fields : List Field) : Prop :=
  ∃ pad, pad < 8 ∧ (n + (lead fields).length + pad) % 8 = 0 ∧
    Reading bytes b (lead fields) pad (follow fields)

/-- The reader is before bytes, with the padding of the last run still ahead. -/
structure Passed (bytes : List UInt8) (b : ByteBuffer) (n : Nat) (fields : List Field) : Prop where
  storage : b.storage = bytes
  inside : b.rpos ≤ bytes.length
  split : bytes.drop b.rpos = encoded fields
  padding : ∃ pad, pad < 8 ∧ (n + pad) % 8 = 0 ∧ b.ahead = List.replicate pad false

theorem passed_ofBytes (fields : List Field) :
    Passed (encoded fields) (ofBytes (encoded fields)) 0 fields :=
  ⟨rfl, Nat.zero_le _, rfl, 0, by decide, rfl, rfl⟩

theorem Passed.inRun (passed : Passed bytes b 0 fields) : InRun bytes b 0 fields := by
  obtain ⟨pad, few, full, isAhead⟩ := passed.padding
  have noPad : pad = 0 := by omega
  subst noPad
  have split := passed.split
  rw [encoded_eq] at split
  obtain ⟨padding, fewBits, stream⟩ := unpack_pack (lead fields)
  refine ⟨padding, fewBits, ?_, passed.storage, passed.inside, _, split, ?_⟩
  · have len := congrArg List.length stream
    rw [length_unpack, length_append, length_replicate] at len
    omega
  · rw [isAhead]
    exact stream

variable {value : UInt64}

theorem InRun.readBits {m : Nat} {range : 1 ≤ m ∧ m ≤ 32}
    (inRun : InRun bytes b n (.bits m range value :: fields)) :
    ∃ b', b.readField (.bits m range value) = .ok (Field.value (.bits m range value), b') ∧
      InRun bytes b' ((n + m) % 8) fields := by
  obtain ⟨pad, few, full, reading⟩ := inRun
  rw [lead, length_append, length_ofNat] at full
  have short : (Bits.ofNat m value.toNat).length ≤ 32 := by
    rw [length_ofNat]
    exact range.2
  obtain ⟨v, b', isRead, isValue, reading'⟩ := reading.readBits short
  rw [length_ofNat] at isRead
  rw [value_ofNat] at isValue
  refine ⟨b', ?_, pad, few, by omega, reading'⟩
  rw [readField, isRead]
  change Except.ok (v.toNat, b') = _
  rw [isValue]
  rfl

theorem ofLeBytes_value (type : IntType) (value : UInt64) :
    ofLeBytes (leBytes type.size value.toNat) = Field.value (.int type value) :=
  ofLeBytes_leBytes type.size value.toNat

theorem readField_int {type : IntType} {after : List UInt8}
    (storage : b.storage = bytes) (inside : b.rpos ≤ bytes.length)
    (split : bytes.drop b.rpos = leBytes type.size value.toNat ++ after) :
    b.readField (.int type value) =
        .ok (Field.value (.int type value), { b with rpos := b.rpos + type.size }) ∧
      b.rpos + type.size ≤ bytes.length ∧ bytes.drop (b.rpos + type.size) = after := by
  obtain ⟨isRead, fits⟩ := read_of_drop storage inside split
  have rest := drop_of_append split
  rw [length_leBytes] at isRead fits rest
  refine ⟨?_, fits, rest⟩
  rw [readField, isRead, ← ofLeBytes_value]
  rfl

theorem Passed.readInt {type : IntType} (passed : Passed bytes b n (.int type value :: fields)):
    ∃ b', b.readField (.int type value) = .ok (Field.value (.int type value), b') ∧
      Passed bytes b' n fields := by
  have split := passed.split
  rw [encoded_eq] at split
  obtain ⟨isRead, fits, rest⟩ := readField_int passed.storage passed.inside split
  exact ⟨_, isRead, passed.storage, fits, rest, passed.padding⟩

theorem InRun.passed (inRun : InRun bytes b n fields) (noBits : lead fields = []) :
    Passed bytes b n fields := by
  obtain ⟨pad, few, full, reading⟩ := inRun
  obtain ⟨run, split, stream⟩ := reading.bits
  rw [noBits, nil_append] at stream
  have isNil : run = [] := by
    have len := congrArg List.length stream
    rw [length_append, length_unpack, length_replicate] at len
    exact List.length_eq_zero_iff.mp (by omega)
  subst isNil
  refine ⟨reading.storage, reading.inside, ?_, pad, few, ?_, ?_⟩
  · rw [split, encoded_eq, noBits]
    rfl
  · rw [noBits] at full
    exact full
  · rw [← stream]
    exact (append_nil _).symm

/-- The reader of an aligned sequence, in a run of bits or past it. -/
def Ready (bytes : List UInt8) (b : ByteBuffer) (n : Nat) (passed : Bool)
    (fields : List Field) : Prop :=
  if passed = true then Passed bytes b n fields else InRun bytes b n fields

theorem readFields_of_aligned (fields : List Field) : ∀ {b : ByteBuffer} {n : Nat} {passed : Bool},
    Ready bytes b n passed fields → Aligned n passed fields →
    ∃ b', b.readFields fields = .ok (fields.map Field.value, b') ∧ b'.rpos = bytes.length := by
  induction fields with
  | nil =>
    intro b n passed ready _
    have atEnd : Passed bytes b n [] := by
      unfold Ready at ready
      split at ready
      · exact ready
      · exact ready.passed rfl
    refine ⟨b, rfl, Nat.le_antisymm atEnd.inside ?_⟩
    exact List.drop_eq_nil_iff.mp atEnd.split
  | cons field rest ih =>
    intro b n passed ready aligned
    have step : ∃ b' n' passed', b.readField field = .ok (Field.value field, b') ∧
        Ready bytes b' n' passed' rest ∧ Aligned n' passed' rest := by
      cases field with
      | bits m range value =>
        obtain ⟨inTime, later⟩ := aligned
        have inRun : InRun bytes b n (.bits m range value :: rest) := by
          unfold Ready at ready
          split at ready
          · rename_i isPassed
            rw [inTime isPassed] at ready ⊢
            exact ready.inRun
          · exact ready
        obtain ⟨b', isRead, next⟩ := inRun.readBits
        exact ⟨b', _, false, isRead, next, later⟩
      | int type value =>
        have atBytes : Passed bytes b n (.int type value :: rest) := by
          unfold Ready at ready
          split at ready
          · exact ready
          · exact ready.passed rfl
        obtain ⟨b', isRead, next⟩ := atBytes.readInt
        exact ⟨b', n, true, isRead, next, aligned⟩
    obtain ⟨b1, n', passed', isRead, ready', aligned'⟩ := step
    obtain ⟨b2, areRead, atEnd⟩ := ih ready' aligned'
    refine ⟨b2, ?_, atEnd⟩
    rw [readFields, isRead]
    change (do
      let (values, b) ← b1.readFields rest
      .ok (Field.value field :: values, b)) = _
    rw [areRead]
    rfl

theorem value_lt_of_padding {m : Nat} {range : 1 ≤ m ∧ m ≤ 32}
    (passed : Passed bytes b n fields) (misaligned : n % 8 ≠ 0) {v : Nat} {b' : ByteBuffer}
    (isRead : b.readField (.bits m range value) = .ok (v, b')) : v < 2 ^ (m - 1) := by
  obtain ⟨pad, few, full, isAhead⟩ := passed.padding
  obtain ⟨k, isSucc⟩ : ∃ k, pad = k + 1 := Nat.exists_eq_succ_of_ne_zero (by omega)
  rw [isSucc, replicate_succ] at isAhead
  obtain ⟨isBit, -⟩ := readBit_of_ahead isAhead
  obtain ⟨i, isGroup⟩ : ∃ i, m = i + 1 := Nat.exists_eq_succ_of_ne_zero (by omega)
  rw [isGroup, Nat.add_sub_cancel]
  rw [readField, isGroup] at isRead
  unfold readBits at isRead
  rw [readBitsFrom, isBit] at isRead
  change (do
    let (value, b) ← readBitsFrom i 0 { b with bitpos := b.bitpos + 1 }
    Except.ok (value.toNat, b)) = _ at isRead
  obtain ⟨_, rest, isRead⟩ := bind_ok isRead
  cases isRead
  have below := @toNat_lt_of_readBitsFrom i _ _ 0 _ 0 (by omega) rfl rest
  rw [Nat.mul_one] at below
  exact below

end ByteBuffer

namespace Field

def ones : Field → Field
  | .bits n range _ => .bits n range 0xFFFFFFFFFFFFFFFF
  | .int type _ => .int type 0xFFFFFFFFFFFFFFFF

theorem sameShape_ones (field : Field) : SameShape field field.ones := by
  cases field with
  | bits n range value => exact .bits n range _ _
  | int type value => exact .int type _ _

theorem SameShape.pieces {field field' : Field} (same : SameShape field field') :
    List.Forall₂ Piece.SameShape field.call.pieces field'.call.pieces := by
  cases same with
  | bits n range value value' =>
    exact .cons (.bits ((length_ofNat _ _).trans (length_ofNat _ _).symm)) .nil
  | int type value value' =>
    exact .cons (.bytes ((length_leBytes _ _).trans (length_leBytes _ _).symm)) .nil

theorem flushed_calls (fields : List Field) : ∀ n, Flushed n (fields.map call) := by
  induction fields with
  | nil => exact fun _ => True.intro
  | cons field rest ih =>
    intro n
    cases field with
    | bits m range value => exact ⟨⟨nofun, nofun⟩, ih _⟩
    | int type value => exact ⟨⟨nofun, nofun⟩, ih _⟩

theorem le_value_ones (n : Nat) (range : 1 ≤ n ∧ n ≤ 32) (value : UInt64) :
    2 ^ (n - 1) ≤ Field.value (Field.ones (.bits n range value)) := by
  change 2 ^ (n - 1) ≤ (2 ^ 64 - 1) % 2 ^ n
  obtain ⟨k, isSucc⟩ : ∃ k, n = k + 1 := Nat.exists_eq_succ_of_ne_zero (by omega)
  have whole : 2 ^ 64 - 1 = 2 ^ n * (2 ^ (64 - n) - 1) + (2 ^ n - 1) := by
    have split : 2 ^ 64 = 2 ^ n * 2 ^ (64 - n) := by
      rw [← Nat.pow_add]
      congr 1
      omega
    have pos : 0 < 2 ^ (64 - n) := Nat.two_pow_pos _
    have pos' : 0 < 2 ^ n := Nat.two_pow_pos _
    rw [Nat.mul_sub, Nat.mul_one, split]
    have : 2 ^ n ≤ 2 ^ n * 2 ^ (64 - n) := Nat.le_mul_of_pos_right _ pos
    omega
  rw [whole, Nat.mul_add_mod, Nat.mod_eq_of_lt (Nat.sub_lt (Nat.two_pow_pos n) Nat.one_pos), isSucc,
    Nat.add_sub_cancel, Nat.pow_succ]
  have := Nat.two_pow_pos k
  omega

end Field

theorem Aligned.of_sameShape {fields fields' : List Field}
    (same : List.Forall₂ Field.SameShape fields fields') : ∀ {n : Nat} {passed : Bool},
      Aligned n passed fields → Aligned n passed fields' := by
  induction same with
  | nil => exact fun aligned => aligned
  | cons first _ ih =>
    intro n passed aligned
    cases first with
    | bits m range value value' => exact ⟨aligned.1, ih aligned.2⟩
    | int type value value' => exact @ih n true aligned

namespace ByteBuffer

open Field

variable {bytes : List UInt8}

theorem aligned_of_readFields (fields : List Field) : ∀ {b b' : ByteBuffer} {n : Nat}
    {passed : Bool}, n < 8 → Ready bytes b n passed (fields.map ones) →
    b.readFields (fields.map ones) = .ok ((fields.map ones).map Field.value, b') →
    Aligned n passed (fields.map ones) := by
  induction fields with
  | nil => exact fun _ _ _ => True.intro
  | cons field rest ih =>
    intro b b' n passed few ready areRead
    rw [map_cons] at areRead ready ⊢
    rw [readFields] at areRead
    have later : ∀ {b1 : ByteBuffer} {n' : Nat} {passed' : Bool}, n' < 8 →
        b.readField field.ones = .ok (Field.value field.ones, b1) →
        Ready bytes b1 n' passed' (rest.map ones) → Aligned n' passed' (rest.map ones) := by
      intro b1 n' passed' few' isRead ready'
      obtain ⟨_, first, areRead⟩ := bind_ok areRead
      cases isRead.symm.trans first
      obtain ⟨⟨values, b2⟩, others, areRead⟩ := bind_ok areRead
      have same := congrArg Prod.fst (Except.ok.inj areRead)
      refine @ih b1 b2 n' passed' few' ready' ?_
      rw [others, (List.cons.inj same).2]
    cases field with
    | bits m range value =>
      have inTime : passed = true → n = 0 := by
        intro isPassed
        by_contra notZero
        unfold Ready at ready
        rw [if_pos isPassed] at ready
        obtain ⟨⟨v, b1⟩, isRead, areRead⟩ := bind_ok areRead
        have below := value_lt_of_padding ready (by omega) isRead
        obtain ⟨_, -, areRead⟩ := bind_ok areRead
        have same := congrArg Prod.fst (Except.ok.inj areRead)
        have isValue := (List.cons.inj same).1
        have above := le_value_ones m range value
        rw [← isValue] at above
        omega
      have inRun : InRun bytes b n (ones (.bits m range value) :: rest.map ones) := by
        unfold Ready at ready
        split at ready
        · rename_i isPassed
          rw [inTime isPassed] at ready ⊢
          exact ready.inRun
        · exact ready
      obtain ⟨b1, isRead, next⟩ := inRun.readBits
      exact ⟨inTime, later (Nat.mod_lt _ (by decide)) isRead next⟩
    | int type value =>
      have atBytes : Passed bytes b n (ones (.int type value) :: rest.map ones) := by
        unfold Ready at ready
        split at ready
        · exact ready
        · exact ready.passed rfl
      obtain ⟨b1, isRead, next⟩ := atBytes.readInt
      exact @later b1 n true few isRead next

end ByteBuffer

section RoundTrip

open ByteBuffer Field

variable {fields : List Field}

theorem RoundTrips.read (trip : RoundTrips fields) : Fits (encodeCalls (fields.map call)) ∧
      ∃ b', (ofBytes (encoded fields)).readFields fields = .ok (fields.map Field.value, b') := by
  obtain ⟨b, b', isOk, areRead, -⟩ := trip
  have met := flushed_calls fields 0
  have written := writes_of_hasSource met.hasSource
  rw [isOk] at written
  obtain ⟨fits, holds⟩ := written.ok
  rw [chunks_of_flushed met] at fits
  refine ⟨fits, b', ?_⟩
  rw [← areRead, holds.storage, chunks_of_flushed met]
  rfl

theorem roundTrips_of_aligned (aligned : Aligned 0 false fields)
    (fits : Fits (encodeCalls (fields.map call))) : RoundTrips fields := by
  obtain ⟨b, isOk, inOrder⟩ := keepsOrder_of_flushed (flushed_calls fields 0) fits
  have ready : Ready (encoded fields) (ofBytes (encoded fields)) 0 false fields :=
    (passed_ofBytes fields).inRun
  obtain ⟨b', areRead, atEnd⟩ := readFields_of_aligned fields ready aligned
  refine ⟨b, b', isOk, ?_, ?_⟩
  · rw [inOrder]
    exact areRead
  · rw [atEnd]
    exact (congrArg List.length inOrder).symm

/-- **A sequence of fields comes back, whatever its values, exactly if** every run of bits
with another one after it is full bytes, and what is written fits. -/
theorem roundTrips_iff (fields : List Field) :
    (∀ fields', List.Forall₂ SameShape fields fields' → RoundTrips fields') ↔
      Aligned 0 false fields ∧ Fits (encodeCalls (fields.map call)) := by
  have symm : List.Forall₂ SameShape (fields.map ones) fields := by
    induction fields with
    | nil => exact .nil
    | cons field rest ih =>
      refine .cons ?_ ih
      cases field with
      | bits n range value => exact .bits n range _ _
      | int type value => exact .int type _ _
  have onto : List.Forall₂ SameShape fields (fields.map ones) := by
    clear symm
    induction fields with
    | nil => exact .nil
    | cons field rest ih => exact .cons (sameShape_ones field) ih
  have pieces : ∀ {fields fields' : List Field}, List.Forall₂ SameShape fields fields' →
      Fits (encodeCalls (fields.map call)) → Fits (encodeCalls (fields'.map call)) := by
    intro fields fields' same fits
    refine fits_of_sameShape ?_ fits
    exact List.forall₂_map_left_iff.mpr
      (List.forall₂_map_right_iff.mpr (same.imp fun _ _ => SameShape.pieces))
  constructor
  · intro trips
    obtain ⟨fits, b', areRead⟩ := (trips _ onto).read
    have ready : Ready (encoded (fields.map ones)) (ofBytes (encoded (fields.map ones))) 0 false
        (fields.map ones) := (passed_ofBytes _).inRun
    exact ⟨(aligned_of_readFields fields (by decide) ready areRead).of_sameShape symm,
      pieces symm fits⟩
  · intro ⟨aligned, fits⟩ fields' same
    exact roundTrips_of_aligned (aligned.of_sameShape same) (pieces same fits)

/-- A bit, a byte and a bit: the second bit is read from the padding of the first. -/
theorem not_roundTrips_of_bit_byte_bit :
    ¬ RoundTrips [.bits 1 (by decide) 1, .int .uint8 0, .bits 1 (by decide) 1] := by
  intro trip
  obtain ⟨-, b', areRead⟩ := trip.read
  have bytes : encoded [.bits 1 (by decide) 1, .int .uint8 0, .bits 1 (by decide) 1] =
      [0x80, 0x00, 0x80] := by decide
  rw [bytes] at areRead
  have found : ((ofBytes [0x80, 0x00, 0x80]).readFields
      [.bits 1 (by decide) 1, .int .uint8 0, .bits 1 (by decide) 1]).map Prod.fst =
        .ok [1, 0, 0] := rfl
  rw [areRead] at found
  cases found

end RoundTrip

end Sky548
