import Sky548.Packets.Writing

/-!
# Packed GUIDs

`appendPackGUID` writes a byte with a mask of the bytes of the GUID that are not zero,
and behind it those bytes; `readPackGUID` reads them back. It checks the read position
before every byte, with a sum of type `size_t`: so the position is one here, and a look
at the storage beyond its end is an outcome of its own.
-/

namespace Sky548

open List

open Bits

/-- A buffer that is read: a vector, and a position of type `size_t`. -/
structure PackReader where
  storage : List UInt8
  sized : storage.length < 2 ^ 63
  rpos : UInt64

/-- How a read ends without a value: with an exception, or beyond the storage. -/
inductive ReadFault
  | thrown (e : ByteBufferError)
  | overrun
  deriving DecidableEq

namespace PackReader

variable (r : PackReader)

def size : UInt64 := UInt64.ofNat r.storage.length

/-- `_storage[pos]`, which checks nothing. -/
def byteAt (pos : UInt64) : Except ReadFault UInt8 :=
  match r.storage[pos.toNat]? with
  | some byte => .ok byte
  | none => .error .overrun

/-- `operator>>` of a byte. -/
def readUInt8 : Except ReadFault (UInt8 × PackReader) :=
  if r.rpos + 1 > r.size then .error (.thrown .positionException)
  else do
    let byte ← r.byteAt r.rpos
    .ok (byte, { r with rpos := r.rpos + 1 })

/-- The loop of `readPackGUID` from byte `i` on, for `n` bytes. -/
def readPacked : Nat → Nat → UInt8 → UInt64 → PackReader → Except ReadFault (UInt64 × PackReader)
  | 0, _, _, guid, r => .ok (guid, r)
  | n + 1, i, guidmark, guid, r =>
    if guidmark &&& 1 <<< UInt8.ofNat i ≠ 0 then
      if r.rpos + 1 > r.size then .error (.thrown .positionException)
      else do
        let (bit, r) ← r.readUInt8
        readPacked n (i + 1) guidmark (guid ||| bit.toUInt64 <<< UInt64.ofNat (i * 8)) r
    else readPacked n (i + 1) guidmark guid r

def readPackGUID : Except ReadFault (UInt64 × PackReader) :=
  if r.rpos + 1 > r.size then .error (.thrown .positionException)
  else do
    let (guidmark, r) ← r.readUInt8
    readPacked 8 0 guidmark 0 r

def popcount (mask : UInt8) : Nat := (List.range 8).countP (isSet mask)

/-- The reader with `n` bytes less to read. -/
def skip (n : Nat) : PackReader := { r with rpos := r.rpos + UInt64.ofNat n }

def nonZero (bytes : List UInt8) : List UInt8 := bytes.filter (· ≠ 0)

/-- The mask of the bytes that are not zero, from bit `i` on. -/
def maskFrom : Nat → List UInt8 → UInt8 → UInt8
  | _, [], mask => mask
  | i, byte :: rest, mask =>
    maskFrom (i + 1) rest (if byte ≠ 0 then mask ||| 1 <<< UInt8.ofNat i else mask)

theorem leBytes_zero (n : Nat) : leBytes n 0 = List.replicate n 0 := by
  induction n with
  | zero => rfl
  | succ n ih =>
    rw [leBytes, Nat.zero_div, ih, replicate_succ]
    rfl

theorem maskFrom_zeros (bytes : List UInt8) (n : Nat) : ∀ (i : Nat) (mask : UInt8),
    maskFrom i (bytes ++ List.replicate n 0) mask = maskFrom i bytes mask := by
  induction bytes with
  | nil =>
    induction n with
    | zero => exact fun _ _ => rfl
    | succ n ih => exact fun i mask => ih (i + 1) mask
  | cons byte rest ih => exact fun i mask => ih (i + 1) _

theorem nonZero_cons (byte : UInt8) (rest : List UInt8) :
    nonZero (byte :: rest) = if byte ≠ 0 then byte :: nonZero rest else nonZero rest := by
  simp [nonZero, filter_cons]

theorem nonZero_zeros (bytes : List UInt8) (n : Nat) :
    nonZero (bytes ++ List.replicate n 0) = nonZero bytes := by
  simp [nonZero]

theorem packGuid_eq (n : Nat) : ∀ (i : Nat) (mask : UInt8) (guid : Nat),
    ByteBuffer.packGuid n i mask guid =
      (maskFrom i (leBytes n guid) mask, nonZero (leBytes n guid)) := by
  induction n with
  | zero => exact fun _ _ _ => rfl
  | succ n ih =>
    intro i mask guid
    have low : guid &&& 0xFF = guid % 256 := Nat.and_two_pow_sub_one_eq_mod guid 8
    have shift : guid >>> 8 = guid / 256 := Nat.shiftRight_eq_div_pow guid 8
    have byte : UInt8.ofNat (guid % 256) = UInt8.ofNat guid := by
      apply UInt8.toNat_inj.mp
      rw [UInt8.toNat_ofNat', UInt8.toNat_ofNat']
      exact Nat.mod_mod _ _
    have isZero : UInt8.ofNat guid = 0 ↔ guid % 256 = 0 := by
      rw [← UInt8.toNat_inj, UInt8.toNat_ofNat']
      rfl
    unfold ByteBuffer.packGuid
    rw [low, shift, ih, ih, byte]
    by_cases none : guid = 0
    · rw [if_pos none, none, leBytes_zero, ← nil_append (List.replicate _ _), maskFrom_zeros,
        nonZero_zeros]
      rfl
    rw [if_neg none, leBytes, maskFrom, nonZero_cons]
    by_cases zero : guid % 256 = 0
    · rw [if_neg (not_not.mpr zero), if_neg (not_not.mpr (isZero.mpr zero)),
        if_neg (not_not.mpr (isZero.mpr zero))]
    · rw [if_pos zero, if_pos (mt isZero.mp zero), if_pos (mt isZero.mp zero)]

theorem testMask_iff (mask : UInt8) {i : Nat} (below : i < 8) :
    mask &&& 1 <<< UInt8.ofNat i ≠ 0 ↔ isSet mask i = true := by
  have power : (1 <<< UInt8.ofNat i : UInt8).toNat = 2 ^ i := by
    rw [UInt8.toNat_shiftLeft, UInt8.toNat_ofNat',
      Nat.mod_eq_of_lt (show i % 2 ^ 8 < 8 by omega), Nat.mod_eq_of_lt (show i < 2 ^ 8 by omega),
      UInt8.toNat_one, Nat.one_shiftLeft]
    exact Nat.mod_eq_of_lt (Nat.pow_lt_pow_right Nat.one_lt_two below)
  rw [isSet_eq_testBit mask below, ne_eq, ← UInt8.toNat_inj, UInt8.toNat_and, power, Nat.and_two_pow]
  cases mask.toNat.testBit i with
  | true => simp
  | false => simp

theorem isSet_maskFrom (bytes : List UInt8) : ∀ {i j : Nat} {mask : UInt8}, i + bytes.length ≤ 8 →
    j < 8 → isSet (maskFrom i bytes mask) j =
      (isSet mask j || (decide (i ≤ j) && decide (bytes.getD (j - i) 0 ≠ 0))) := by
  induction bytes with
  | nil =>
    intro i j mask _ _
    simp [maskFrom]
  | cons byte rest ih =>
    intro i j mask fits below
    rw [length_cons] at fits
    rw [maskFrom, ih (by omega) below]
    have first : isSet (if byte ≠ 0 then mask ||| 1 <<< UInt8.ofNat i else mask) j =
        (isSet mask j || (decide (i = j) && decide (byte ≠ 0))) := by
      by_cases zero : byte = 0
      · simp [zero]
      · rw [if_pos zero, isSet_or _ _ below, isSet_shift below (by omega)]
        simp [zero]
    rw [first]
    rcases Nat.lt_trichotomy i j with isBelow | isHere | isAbove
    · have index : j - i = (j - (i + 1)) + 1 := by omega
      rw [index, getD_cons_succ, decide_eq_false (Nat.ne_of_lt isBelow),
        decide_eq_true (show i + 1 ≤ j by omega), decide_eq_true (Nat.le_of_lt isBelow)]
      simp
    · rw [isHere, Nat.sub_self, getD_cons_zero, decide_eq_true (Nat.le_refl j),
        decide_eq_false (show ¬ j + 1 ≤ j by omega)]
      simp
    · rw [decide_eq_false (show ¬ i = j by omega), decide_eq_false (show ¬ i + 1 ≤ j by omega),
        decide_eq_false (show ¬ i ≤ j by omega)]
      simp

variable {r : PackReader}

theorem toNat_size (r : PackReader) : r.size.toNat = r.storage.length := by
  have sized := r.sized
  rw [size, UInt64.toNat_ofNat', Nat.mod_eq_of_lt (by omega)]

theorem toNat_skip {n : Nat} (inside : r.rpos.toNat + n ≤ r.storage.length) :
    (r.skip n).rpos.toNat = r.rpos.toNat + n := by
  have sized := r.sized
  show (r.rpos + UInt64.ofNat n).toNat = _
  rw [UInt64.toNat_add, UInt64.toNat_ofNat']
  omega

theorem skip_skip (r : PackReader) (m n : Nat) : (r.skip m).skip n = r.skip (m + n) := by
  simp [skip, UInt64.ofNat_add, UInt64.add_assoc]

theorem skip_zero (r : PackReader) : r.skip 0 = r := by
  simp [skip]

theorem outside_iff (small : r.rpos.toNat < 2 ^ 64 - 1) :
    r.rpos + 1 > r.size ↔ r.storage.length ≤ r.rpos.toNat := by
  rw [gt_iff_lt, UInt64.lt_iff_toNat_lt, toNat_size, UInt64.toNat_add, UInt64.toNat_one,
    Nat.mod_eq_of_lt (by omega)]
  omega

theorem readUInt8_of_drop {byte : UInt8} {rest : List UInt8}
    (at' : r.storage.drop r.rpos.toNat = byte :: rest) :
    ¬ r.rpos + 1 > r.size ∧ r.readUInt8 = .ok (byte, r.skip 1) ∧
      r.rpos.toNat + 1 ≤ r.storage.length ∧ (r.skip 1).storage.drop (r.skip 1).rpos.toNat = rest := by
  have sized := r.sized
  have inside : r.rpos.toNat < r.storage.length := by
    have len := congrArg List.length at'
    rw [length_drop, length_cons] at len
    omega
  have check : ¬ r.rpos + 1 > r.size := by
    rw [outside_iff (by omega)]
    omega
  have found : r.storage[r.rpos.toNat]? = some byte := by
    have first := congrArg List.head? at'
    rwa [head?_drop] at first
  refine ⟨check, ?_, inside, ?_⟩
  · rw [readUInt8, if_neg check, byteAt, found]
    rfl
  · rw [toNat_skip inside]
    show r.storage.drop (r.rpos.toNat + 1) = rest
    rw [← drop_drop, at']
    rfl

def bitsFrom : Nat → Nat → UInt8 → Nat
  | 0, _, _ => 0
  | n + 1, i, mask => (if isSet mask i then 1 else 0) + bitsFrom n (i + 1) mask

theorem bitsFrom_eq_popcount (mask : UInt8) : bitsFrom 8 0 mask = popcount mask := by
  simp only [bitsFrom, popcount, range_eq_range', List.range', countP_cons, countP_nil]
  omega

theorem readPacked_spec (n : Nat) : ∀ {i : Nat} {mark : UInt8} {guid : UInt64} {r : PackReader},
    i + n ≤ 8 → r.rpos.toNat ≤ r.storage.length →
    (r.rpos.toNat + bitsFrom n i mark ≤ r.storage.length ∧
      ∃ guid', readPacked n i mark guid r = .ok (guid', r.skip (bitsFrom n i mark))) ∨
    (r.storage.length < r.rpos.toNat + bitsFrom n i mark ∧
      readPacked n i mark guid r = .error (.thrown .positionException)) := by
  induction n with
  | zero =>
    intro i mark guid r _ inside
    exact Or.inl ⟨inside, guid, by rw [bitsFrom, skip_zero]; rfl⟩
  | succ n ih =>
    intro i mark guid r fits inside
    have sized := r.sized
    unfold readPacked
    by_cases set : isSet mark i = true
    · rw [if_pos ((testMask_iff mark (by omega)).mpr set), bitsFrom, if_pos set]
      rcases isDrop : r.storage.drop r.rpos.toNat with _ | ⟨byte, rest⟩
      · have len := congrArg List.length isDrop
        rw [length_drop, length_nil] at len
        rw [if_pos ((outside_iff (by omega)).mpr (by omega))]
        exact Or.inr ⟨by omega, rfl⟩
      · obtain ⟨check, isRead, within, -⟩ := readUInt8_of_drop isDrop
        have position := toNat_skip within
        rw [if_neg check, isRead]
        rcases @ih (i + 1) mark (guid ||| byte.toUInt64 <<< UInt64.ofNat (i * 8)) (r.skip 1)
          (by omega) (by rw [position]; exact within) with ⟨enough, guid', isOk⟩ | ⟨few, isError⟩
        · rw [position] at enough
          refine Or.inl ⟨by rw [← Nat.add_assoc]; exact enough, guid', ?_⟩
          rw [skip_skip] at isOk
          exact isOk
        · rw [position] at few
          exact Or.inr ⟨by rw [← Nat.add_assoc]; exact few, isError⟩
    · rw [if_neg (mt (testMask_iff mark (by omega)).mp set), bitsFrom, if_neg set, Nat.zero_add]
      exact ih (by omega) inside

/-- **The loop reads the bytes that are not zero**, each to its place. -/
theorem readPacked_bytes (bytes : List UInt8) : ∀ {i : Nat} {mark : UInt8} {guid : UInt64}
    {r : PackReader} {rest : List UInt8}, i + bytes.length ≤ 8 →
    (∀ j < bytes.length, isSet mark (i + j) = decide (bytes.getD j 0 ≠ 0)) →
    guid.toNat < 256 ^ i → r.storage.drop r.rpos.toNat = nonZero bytes ++ rest →
    ∃ after, readPacked bytes.length i mark guid r =
        .ok (UInt64.ofNat (guid.toNat + 256 ^ i * ofLeBytes bytes), after) ∧
      after.storage = r.storage ∧ after.storage.drop after.rpos.toNat = rest := by
  induction bytes with
  | nil =>
    intro i mark guid r rest _ _ _ at'
    refine ⟨r, ?_, rfl, at'⟩
    rw [ofLeBytes, Nat.mul_zero, Nat.add_zero, UInt64.ofNat_toNat]
    rfl
  | cons byte bytes ih =>
    intro i mark guid r rest fits marks below at'
    rw [length_cons] at fits
    have later : ∀ j < bytes.length, isSet mark (i + 1 + j) = decide (bytes.getD j 0 ≠ 0) := by
      intro j inside
      have here := marks (j + 1) (by rw [length_cons]; omega)
      rw [getD_cons_succ] at here
      rw [← here, Nat.add_assoc, Nat.add_comm 1 j]
    have first := marks 0 (by rw [length_cons]; omega)
    rw [Nat.add_zero, getD_cons_zero] at first
    rw [length_cons]
    unfold readPacked
    rw [nonZero_cons] at at'
    by_cases zero : byte = 0
    · have clear : ¬ isSet mark i = true := by
        rw [first]
        simpa using zero
      rw [if_neg (not_not.mpr zero)] at at'
      rw [if_neg (mt (testMask_iff mark (by omega)).mp clear)]
      have more : guid.toNat < 256 ^ (i + 1) := by
        rw [Nat.pow_succ]
        omega
      obtain ⟨after, isOk, storage, left⟩ := ih (by omega) later more at'
      refine ⟨after, ?_, storage, left⟩
      rw [isOk, ofLeBytes, zero, Nat.pow_succ, Nat.mul_assoc]
      simp
    · have set : isSet mark i = true := by
        rw [first]
        simpa using zero
      rw [if_pos zero, cons_append] at at'
      obtain ⟨check, isRead, within, behind⟩ := readUInt8_of_drop at'
      rw [if_pos ((testMask_iff mark (by omega)).mpr set), if_neg check, isRead]
      have power : (256 : Nat) ^ i = 2 ^ (i * 8) := by
        rw [show (256 : Nat) = 2 ^ 8 from rfl, ← Nat.pow_mul, Nat.mul_comm]
      have small := byte.toNat_lt
      have room : byte.toNat * 2 ^ (i * 8) < 2 ^ 64 := by
        calc byte.toNat * 2 ^ (i * 8) < 2 ^ 8 * 2 ^ (i * 8) :=
              Nat.mul_lt_mul_of_pos_right small (Nat.two_pow_pos _)
          _ = 2 ^ (8 + i * 8) := (Nat.pow_add 2 8 (i * 8)).symm
          _ ≤ 2 ^ 64 := Nat.pow_le_pow_right Nat.two_pos (by omega)
      have placed : (byte.toUInt64 <<< UInt64.ofNat (i * 8)).toNat = 2 ^ (i * 8) * byte.toNat := by
        rw [UInt64.toNat_shiftLeft, UInt64.toNat_ofNat', UInt8.toNat_toUInt64, Nat.shiftLeft_eq,
          Nat.mod_eq_of_lt (show i * 8 < 2 ^ 64 by omega), Nat.mod_eq_of_lt (show i * 8 < 64 by omega),
          Nat.mod_eq_of_lt room, Nat.mul_comm]
      have sum : (guid ||| byte.toUInt64 <<< UInt64.ofNat (i * 8)).toNat =
          guid.toNat + 256 ^ i * byte.toNat := by
        rw [UInt64.toNat_or, placed, Nat.or_comm, ← Nat.two_pow_add_eq_or_of_lt (power ▸ below), power,
          Nat.add_comm]
      have more : (guid ||| byte.toUInt64 <<< UInt64.ofNat (i * 8)).toNat < 256 ^ (i + 1) := by
        rw [sum, Nat.pow_succ]
        calc guid.toNat + 256 ^ i * byte.toNat < 256 ^ i + 256 ^ i * byte.toNat :=
              Nat.add_lt_add_right below _
          _ = 256 ^ i * (byte.toNat + 1) := by rw [Nat.mul_add, Nat.mul_one, Nat.add_comm]
          _ ≤ 256 ^ i * 256 := Nat.mul_le_mul_left _ small
      obtain ⟨after, isOk, storage, left⟩ := ih (by omega) later more behind
      refine ⟨after, ?_, storage, left⟩
      rw [sum] at isOk
      rw [ofLeBytes, Nat.mul_add, ← Nat.mul_assoc, ← Nat.pow_succ, ← Nat.add_assoc]
      exact isOk

/-- What a reader makes of packed GUIDs: **they come back**, with all that follows them,
and no mask makes it read beyond the storage. -/
structure Codec (r : PackReader) : Prop where
  roundTrip : ∀ (guid : UInt64) (b : ByteBuffer) (following : List UInt8),
    ByteBuffer.fresh.appendPackGUID guid = .ok b →
      r.storage.drop r.rpos.toNat = b.storage ++ following →
        ∃ after, r.readPackGUID = .ok (guid, after) ∧ after.storage = r.storage ∧
          after.storage.drop after.rpos.toNat = following
  length : ∀ (guid : UInt64) (b : ByteBuffer), ByteBuffer.fresh.appendPackGUID guid = .ok b →
    b.size = 1 + (leBytes 8 guid.toNat).countP (· ≠ 0)
  reads : (∃ e, r.readPackGUID = .error (.thrown e)) ∨
    ∃ first rest guid after, r.storage.drop r.rpos.toNat = first :: rest ∧
      r.readPackGUID = .ok (guid, after) ∧ after.storage = r.storage ∧
        after.rpos.toNat = r.rpos.toNat + (1 + popcount first) ∧
          after.rpos.toNat ≤ r.storage.length

theorem packedGuid_eq (guid : UInt64) : ByteBuffer.packedGuid guid =
    maskFrom 0 (leBytes 8 guid.toNat) 0 :: nonZero (leBytes 8 guid.toNat) := by
  rw [ByteBuffer.packedGuid, packGuid_eq]

theorem storage_of_appendPackGUID {guid : UInt64} {b : ByteBuffer}
    (written : ByteBuffer.fresh.appendPackGUID guid = .ok b) :
    b.storage = ByteBuffer.packedGuid guid := by
  obtain ⟨rfl⟩ := written
  simp [ByteBuffer.fresh, ByteBuffer.size]

theorem readPackGUID_of_drop {first : UInt8} {rest : List UInt8}
    (at' : r.storage.drop r.rpos.toNat = first :: rest) :
    r.readPackGUID = readPacked 8 0 first 0 (r.skip 1) := by
  obtain ⟨check, isRead, -, -⟩ := readUInt8_of_drop at'
  rw [readPackGUID, if_neg check, isRead]
  rfl

theorem readPackGUID_packedGuid {guid : UInt64} {following : List UInt8}
    (at' : r.storage.drop r.rpos.toNat = ByteBuffer.packedGuid guid ++ following) :
    ∃ after, r.readPackGUID = .ok (guid, after) ∧ after.storage = r.storage ∧
      after.storage.drop after.rpos.toNat = following := by
  rw [packedGuid_eq, cons_append] at at'
  obtain ⟨-, -, -, behind⟩ := readUInt8_of_drop at'
  have len : (leBytes 8 guid.toNat).length = 8 := length_leBytes 8 guid.toNat
  have marks : ∀ j < (leBytes 8 guid.toNat).length,
      isSet (maskFrom 0 (leBytes 8 guid.toNat) 0) (0 + j) =
        decide ((leBytes 8 guid.toNat).getD j 0 ≠ 0) := by
    intro j inside
    rw [len] at inside
    have clear : isSet 0 (0 + j) = false := by
      rw [Nat.zero_add, isSet_eq_testBit 0 inside]
      exact Nat.zero_testBit j
    rw [isSet_maskFrom _ (by rw [len]) (by omega), clear, Nat.zero_add, Nat.sub_zero]
    simp
  obtain ⟨after, isOk, storage, left⟩ := @readPacked_bytes (leBytes 8 guid.toNat) 0 _ 0 (r.skip 1)
    following (by rw [len]) marks (by decide) behind
  refine ⟨after, ?_, storage, left⟩
  have value : UInt64.ofNat ((0 : UInt64).toNat + 256 ^ 0 * ofLeBytes (leBytes 8 guid.toNat)) = guid := by
    rw [ofLeBytes_leBytes, Nat.mod_eq_of_lt (show guid.toNat < 256 ^ 8 from guid.toNat_lt), Nat.pow_zero,
      Nat.one_mul, UInt64.toNat_zero, Nat.zero_add, UInt64.ofNat_toNat]
  rw [len, value] at isOk
  rw [readPackGUID_of_drop at']
  exact isOk

theorem reads_of_small (small : r.rpos.toNat < 2 ^ 64 - 1) :
    (∃ e, r.readPackGUID = .error (.thrown e)) ∨
      ∃ first rest guid after, r.storage.drop r.rpos.toNat = first :: rest ∧
        r.readPackGUID = .ok (guid, after) ∧ after.storage = r.storage ∧
          after.rpos.toNat = r.rpos.toNat + (1 + popcount first) ∧
            after.rpos.toNat ≤ r.storage.length := by
  rcases isDrop : r.storage.drop r.rpos.toNat with _ | ⟨first, rest⟩
  · left
    have len := congrArg List.length isDrop
    rw [length_drop, length_nil] at len
    refine ⟨.positionException, ?_⟩
    rw [readPackGUID, if_pos ((outside_iff small).mpr (by omega))]
  · obtain ⟨-, -, within, -⟩ := readUInt8_of_drop isDrop
    have position := toNat_skip within
    rw [readPackGUID_of_drop isDrop]
    rcases @readPacked_spec 8 0 first 0 (r.skip 1) (Nat.le_refl 8) (by rw [position]; exact within) with
      ⟨enough, guid, isOk⟩ | ⟨-, isError⟩
    · right
      have same : (r.skip 1).storage = r.storage := rfl
      rw [position, bitsFrom_eq_popcount, same] at enough
      rw [skip_skip, bitsFrom_eq_popcount] at isOk
      have ends := @toNat_skip r (1 + popcount first) (by omega)
      refine ⟨first, rest, guid, r.skip (1 + popcount first), rfl, isOk, rfl, ends, ?_⟩
      rw [ends]
      omega
    · exact Or.inl ⟨_, isError⟩

theorem overrun_of_greatest (greatest : r.rpos.toNat = 2 ^ 64 - 1) :
    r.readPackGUID = .error .overrun := by
  have wraps : r.rpos + 1 = 0 := by
    apply UInt64.toNat_inj.mp
    rw [UInt64.toNat_add, greatest]
    rfl
  have check : ¬ r.rpos + 1 > r.size := by
    rw [wraps, gt_iff_lt, UInt64.lt_iff_toNat_lt, UInt64.toNat_zero]
    exact Nat.not_lt_zero _
  have missing : r.storage[r.rpos.toNat]? = none := by
    have sized := r.sized
    refine getElem?_eq_none ?_
    rw [greatest]
    omega
  rw [readPackGUID, if_neg check, readUInt8, if_neg check, byteAt, missing]
  rfl

theorem not_codec_of_greatest (greatest : r.rpos.toNat = 2 ^ 64 - 1) : ¬ r.Codec := by
  intro codec
  have overrun := overrun_of_greatest greatest
  rcases codec.reads with ⟨e, isError⟩ | ⟨first, rest, guid, after, -, isOk, -⟩
  · rw [overrun] at isError
    cases isError
  · rw [overrun] at isOk
    cases isOk

/-- **The codec keeps its law** at every read position but the greatest. -/
theorem codec_iff (r : PackReader) : r.Codec ↔ r.rpos.toNat ≠ 2 ^ 64 - 1 := by
  constructor
  · exact fun codec greatest => not_codec_of_greatest greatest codec
  intro other
  have small : r.rpos.toNat < 2 ^ 64 - 1 := by
    have := r.rpos.toNat_lt
    omega
  refine ⟨fun guid b following written at' => ?_, fun guid b written => ?_, reads_of_small small⟩
  · rw [storage_of_appendPackGUID written] at at'
    exact readPackGUID_packedGuid at'
  · rw [ByteBuffer.size, storage_of_appendPackGUID written, packedGuid_eq, length_cons, nonZero,
      ← countP_eq_length_filter, Nat.add_comm]

/-- With `rpos(-1)` the first byte is read far beyond an empty storage. -/
theorem not_codec_of_wrapped : ¬ Codec ⟨[], by decide, 0xFFFFFFFFFFFFFFFF⟩ :=
  not_codec_of_greatest rfl

example : (PackReader.mk [0x81, 0x05, 0xF1, 0x77] (by decide) 0).readPackGUID.toOption.map Prod.fst =
    some 0xF100000000000005 := by
  decide

end PackReader

end Sky548
