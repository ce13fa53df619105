import Mathlib.Algebra.Order.Ring.Int
import Mathlib.Data.List.Basic
import Mathlib.Data.Nat.Bitwise

/-!
# Bits and bytes

Bit strings as lists of booleans, most significant bit first: their value, the bytes
they are packed into and the bits of a byte; and numbers as little-endian bytes.

Nothing here mentions the game server.
-/

namespace Sky548.Bits

open List

def value (bits : List Bool) : Nat := bits.foldl (fun v bit => 2 * v + bit.toNat) 0

/-- The `n` low bits of a number. -/
def ofNat : Nat → Nat → List Bool
  | 0, _ => []
  | n + 1, v => v.testBit n :: ofNat n v

@[simp] theorem length_ofNat (n v : Nat) : (ofNat n v).length = n := by
  induction n with
  | zero => rfl
  | succ n ih => rw [ofNat, length_cons, ih]

theorem foldl_value (bits : List Bool) : ∀ start : Nat,
    bits.foldl (fun v bit => 2 * v + bit.toNat) start = start * 2 ^ bits.length + value bits := by
  unfold value
  induction bits with
  | nil =>
    intro start
    simp
  | cons bit rest ih =>
    intro start
    rw [foldl_cons, ih, foldl_cons, ih (2 * 0 + bit.toNat), length_cons, Nat.pow_succ,
      Nat.add_mul, Nat.add_mul, Nat.mul_zero, Nat.zero_mul, Nat.zero_add, Nat.mul_comm 2 start,
      Nat.mul_assoc, Nat.mul_comm 2, Nat.add_assoc]

theorem value_cons (bit : Bool) (rest : List Bool) :
    value (bit :: rest) = bit.toNat * 2 ^ rest.length + value rest := by
  change (bit :: rest).foldl _ 0 = _
  rw [foldl_cons, foldl_value, Nat.mul_zero, Nat.zero_add]

theorem value_ofNat (n v : Nat) : value (ofNat n v) = v % 2 ^ n := by
  induction n with
  | zero =>
    rw [Nat.pow_zero, Nat.mod_one]
    rfl
  | succ n ih =>
    rw [ofNat, value_cons, length_ofNat, ih, Nat.mod_pow_succ, Nat.testBit_eq_decide_div_mod_eq,
      Nat.add_comm, Nat.mul_comm]
    have below : v / 2 ^ n % 2 < 2 := Nat.mod_lt _ Nat.two_pos
    rcases Nat.eq_zero_or_pos (v / 2 ^ n % 2) with isZero | pos
    · rw [isZero]
      rfl
    · have isOne : v / 2 ^ n % 2 = 1 := by omega
      rw [isOne]
      rfl

def isSet (b : UInt8) (i : Nat) : Bool := (b >>> UInt8.ofNat i) &&& 1 ≠ 0

theorem isSet_eq_testBit (b : UInt8) {i : Nat} (below : i < 8) : isSet b i = b.toNat.testBit i := by
  have shift : ((b >>> UInt8.ofNat i) &&& 1).toNat = b.toNat >>> i &&& 1 := by
    rw [UInt8.toNat_and, UInt8.toNat_shiftRight, UInt8.toNat_ofNat',
      Nat.mod_eq_of_lt (show i % 2 ^ 8 < 8 by omega), Nat.mod_eq_of_lt (show i < 2 ^ 8 by omega)]
    rfl
  unfold isSet
  rw [Nat.testBit, Nat.and_comm 1, Bool.eq_iff_iff, decide_eq_true_iff, bne_iff_ne]
  refine not_congr ?_
  rw [← UInt8.toNat_inj, shift]
  rfl

def ofByte (b : UInt8) : List Bool := (List.range 8).map fun i => isSet b (7 - i)

@[simp] theorem length_ofByte (b : UInt8) : (ofByte b).length = 8 := by
  rw [ofByte, length_map, length_range]

/-- A bit string, put into a byte from the bit below `pos` downwards. -/
def packFrom : Nat → List Bool → UInt8
  | _, [] => 0
  | pos, bit :: rest =>
    (if bit then 1 <<< UInt8.ofNat (pos - 1) else 0) ||| packFrom (pos - 1) rest

/-- A bit string of at most eight bits, padded with zeros. -/
def toByte (bits : List Bool) : UInt8 := packFrom 8 bits

theorem packFrom_append (bits : List Bool) (bit : Bool) : ∀ pos : Nat,
    packFrom pos (bits ++ [bit]) = packFrom pos bits |||
      (if bit then 1 <<< UInt8.ofNat (pos - bits.length - 1) else 0) := by
  induction bits with
  | nil =>
    intro pos
    rw [nil_append, packFrom, packFrom, packFrom, length_nil, Nat.sub_zero,
      UInt8.or_zero, UInt8.zero_or]
  | cons first rest ih =>
    intro pos
    have index : pos - 1 - rest.length - 1 = pos - (rest.length + 1) - 1 := by omega
    rw [cons_append, packFrom, ih, packFrom, length_cons, UInt8.or_assoc, index]

theorem isSet_or (a b : UInt8) {i : Nat} (below : i < 8) :
    isSet (a ||| b) i = (isSet a i || isSet b i) := by
  rw [isSet_eq_testBit _ below, isSet_eq_testBit _ below, isSet_eq_testBit _ below, UInt8.toNat_or,
    Nat.testBit_or]

theorem isSet_shift {i pos : Nat} (below : i < 8) (inByte : pos < 8) :
    isSet (1 <<< UInt8.ofNat pos) i = decide (pos = i) := by
  have power : (1 <<< UInt8.ofNat pos : UInt8).toNat = 2 ^ pos := by
    rw [UInt8.toNat_shiftLeft, UInt8.toNat_ofNat',
      Nat.mod_eq_of_lt (show pos % 2 ^ 8 < 8 by omega), Nat.mod_eq_of_lt (show pos < 2 ^ 8 by omega),
      UInt8.toNat_one, Nat.one_shiftLeft]
    exact Nat.mod_eq_of_lt (Nat.pow_lt_pow_right Nat.one_lt_two inByte)
  rw [isSet_eq_testBit _ below, power, Nat.testBit_two_pow]

theorem isSet_packFrom (bits : List Bool) : ∀ {pos i : Nat}, pos ≤ 8 → i < 8 → bits.length ≤ pos →
    isSet (packFrom pos bits) i = (decide (i < pos) && bits.getD (pos - 1 - i) false) := by
  induction bits with
  | nil =>
    intro pos i _ below _
    rw [packFrom, isSet_eq_testBit _ below, getD_nil, Bool.and_false]
    exact Nat.zero_testBit i
  | cons bit rest ih =>
    intro pos i inByte below fits
    rw [length_cons] at fits
    rw [packFrom, isSet_or _ _ below, ih (by omega) below (by omega)]
    have first : isSet (if bit = true then 1 <<< UInt8.ofNat (pos - 1) else 0) i =
        (decide (pos - 1 = i) && bit) := by
      cases bit with
      | true => rw [if_pos rfl, isSet_shift below (by omega), Bool.and_true]
      | false =>
        rw [if_neg Bool.false_ne_true, isSet_eq_testBit _ below, Bool.and_false]
        exact Nat.zero_testBit i
    rw [first]
    rcases Nat.lt_trichotomy i (pos - 1) with isBelow | isHere | isAbove
    · have apart : ¬ pos - 1 = i := by omega
      have index : pos - 1 - i = (pos - 1 - 1 - i) + 1 := by omega
      rw [decide_eq_false apart, Bool.false_and, Bool.false_or, decide_eq_true isBelow,
        decide_eq_true (show i < pos by omega), index, getD_cons_succ]
    · rw [decide_eq_true isHere.symm, decide_eq_false (show ¬ i < pos - 1 by omega),
        decide_eq_true (show i < pos by omega), Nat.sub_eq_zero_of_le (Nat.le_of_eq isHere.symm),
        getD_cons_zero, Bool.false_and, Bool.or_false]
    · rw [decide_eq_false (show ¬ pos - 1 = i by omega),
        decide_eq_false (show ¬ i < pos - 1 by omega), decide_eq_false (show ¬ i < pos by omega)]
      rfl

theorem ofByte_toByte {bits : List Bool} (fits : bits.length ≤ 8) :
    ofByte (toByte bits) = bits ++ List.replicate (8 - bits.length) false := by
  have len : (bits ++ List.replicate (8 - bits.length) false).length = 8 := by
    rw [length_append, length_replicate]
    omega
  refine ext_getElem (by rw [length_ofByte, len]) fun i inByte _ => ?_
  rw [length_ofByte] at inByte
  simp only [ofByte, getElem_map, getElem_range]
  rw [toByte, isSet_packFrom bits (Nat.le_refl 8) (by omega) fits, decide_eq_true (show 7 - i < 8 by omega), Bool.true_and]
  have index : 8 - 1 - (7 - i) = i := by omega
  rw [index, getD_eq_getElem?_getD]
  by_cases within : i < bits.length
  · rw [getElem?_eq_getElem within, getElem_append_left within]
    rfl
  · rw [getElem?_eq_none (Nat.le_of_not_lt within),
      getElem_append_right (Nat.le_of_not_lt within), getElem_replicate]
    rfl

/-- Bits packed into bytes, after bits that have begun a byte. -/
def packAfter : List Bool → List Bool → List UInt8
  | begun, [] => if begun = [] then [] else [toByte begun]
  | begun, bit :: rest =>
    if begun.length = 7 then toByte (begun ++ [bit]) :: packAfter [] rest
    else packAfter (begun ++ [bit]) rest

/-- A bit string packed into bytes, the last of them padded with zeros. -/
def pack (bits : List Bool) : List UInt8 := packAfter [] bits

def unpack (bytes : List UInt8) : List Bool := bytes.flatMap ofByte

theorem unpack_packAfter (bits : List Bool) : ∀ {begun : List Bool}, begun.length < 8 →
    ∃ padding, padding < 8 ∧
      unpack (packAfter begun bits) = begun ++ bits ++ List.replicate padding false := by
  induction bits with
  | nil =>
    intro begun short
    unfold packAfter
    split
    · rename_i isNil
      exact ⟨0, by omega, by rw [isNil]; rfl⟩
    rename_i notNil
    refine ⟨8 - begun.length, ?_, ?_⟩
    · have := length_pos_of_ne_nil notNil
      omega
    · change ofByte (toByte begun) ++ [] = _
      rw [append_nil, append_nil, ofByte_toByte (by omega)]
  | cons bit rest ih =>
    intro begun short
    have onto : begun ++ bit :: rest = begun ++ [bit] ++ rest := by
      rw [append_assoc]
      rfl
    unfold packAfter
    rw [onto]
    split
    · rename_i seven
      have eight : (begun ++ [bit]).length = 8 := by
        rw [length_append, seven]
        rfl
      obtain ⟨padding, few, same⟩ := @ih [] (by decide)
      refine ⟨padding, few, ?_⟩
      change ofByte (toByte (begun ++ [bit])) ++ unpack (packAfter [] rest) = _
      rw [same, ofByte_toByte (Nat.le_of_eq eight), eight]
      simp
    · exact ih (by rw [length_append, length_singleton]; omega)

theorem unpack_pack (bits : List Bool) : ∃ padding, padding < 8 ∧
    unpack (pack bits) = bits ++ List.replicate padding false :=
  unpack_packAfter bits (by decide)

@[simp] theorem length_unpack (bytes : List UInt8) : (unpack bytes).length = 8 * bytes.length := by
  induction bytes with
  | nil => rfl
  | cons b rest ih =>
    change (ofByte b ++ unpack rest).length = _
    rw [length_append, length_ofByte, ih, length_cons]
    omega

/-- The `n` low bytes of a number. -/
def leBytes : Nat → Nat → List UInt8
  | 0, _ => []
  | n + 1, v => UInt8.ofNat v :: leBytes n (v / 256)

def ofLeBytes : List UInt8 → Nat
  | [] => 0
  | b :: rest => b.toNat + 256 * ofLeBytes rest

@[simp] theorem length_leBytes (n v : Nat) : (leBytes n v).length = n := by
  induction n generalizing v with
  | zero => rfl
  | succ n ih => rw [leBytes, length_cons, ih]

theorem ofLeBytes_leBytes (n : Nat) : ∀ v : Nat, ofLeBytes (leBytes n v) = v % 256 ^ n := by
  induction n with
  | zero =>
    intro v
    rw [Nat.pow_zero, Nat.mod_one]
    rfl
  | succ n ih =>
    intro v
    rw [leBytes, ofLeBytes, ih, UInt8.toNat_ofNat']
    change v % 256 + 256 * (v / 256 % 256 ^ n) = v % (256 ^ n * 256)
    rw [Nat.mul_comm (256 ^ n) 256, Nat.mod_mul]

end Sky548.Bits
