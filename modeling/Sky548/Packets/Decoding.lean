import Sky548.Packets.GuidMask

/-!
# Readers

A reader takes values off a buffer, one after another. `Yields` says what comes out of it
from every buffer of a kind and which kind of buffer is left; there is one rule for each
reader and one for putting two together. `Ensures` is about the value alone, for readers
that may fail.
-/

namespace Sky548

open List

open Bits
open ByteBuffer

abbrev Reader (α : Type) := StateT ByteBuffer (Except ByteBufferError) α

/-- From every buffer of `R` comes `a`, and the buffer is one of `R'` then. -/
def Yields {α : Type} (R : ByteBuffer → Prop) (p : Reader α) (a : α) (R' : ByteBuffer → Prop) :
    Prop :=
  ∀ b, R b → ∃ b', p b = .ok (a, b') ∧ R' b'

/-- What comes out of the reader, if anything does, has the property. -/
def Ensures {α : Type} (p : Reader α) (Q : α → Prop) : Prop :=
  ∀ b a b', p b = .ok (a, b') → Q a

namespace Reader

def bit : Reader Bool := ByteBuffer.readBit

def bits (n : Nat) : Reader UInt32 := fun b => b.readBits n

def string (n : Nat) : Reader (List UInt8) := fun b => b.read n

/-- `read<T>`, as a number. -/
def int (type : IntType) : Reader Nat := do
  let src ← string type.size
  pure (ofLeBytes src)

def uint8 : Reader UInt8 := do
  let value ← int .uint8
  pure (UInt8.ofNat value)

def uint32 : Reader UInt32 := do
  let value ← int .uint32
  pure (UInt32.ofNat value)

def uint64 : Reader UInt64 := do
  let value ← int .uint64
  pure (UInt64.ofNat value)

def guidMask (order : List (Fin 8)) : Reader ObjectGuid := readGuidMask order (.ofGuid 0)

def guidBytes (order : List (Fin 8)) (mask : ObjectGuid) : Reader ObjectGuid :=
  readGuidBytes order mask

def each {α : Type} : List (Reader α) → Reader (List α)
  | [] => pure []
  | p :: rest => do
      let a ← p
      let others ← each rest
      pure (a :: others)

end Reader

section Rules

variable {α β γ : Type} {R R' R'' : ByteBuffer → Prop}

theorem Yields.pure (a : α) : Yields R (Pure.pure a) a R := fun b holds => ⟨b, rfl, holds⟩

variable {p : Reader α}

theorem Yields.bind {f : α → Reader β} {a : α} {c : β} (first : Yields R p a R')
    (second : Yields R' (f a) c R'') : Yields R (p >>= f) c R'' := by
  intro b holds
  obtain ⟨b₁, isFirst, holds₁⟩ := first b holds
  obtain ⟨b₂, isSecond, holds₂⟩ := second b₁ holds₁
  refine ⟨b₂, ?_, holds₂⟩
  change (p b >>= fun r => f r.1 r.2) = _
  rw [isFirst]
  exact isSecond

theorem Yields.mono {a : α} (yields : Yields R p a R') (weaker : ∀ b, R' b → R'' b) :
    Yields R p a R'' := by
  intro b holds
  obtain ⟨b', isRead, holds'⟩ := yields b holds
  exact ⟨b', isRead, weaker b' holds'⟩

theorem Yields.each {S : List γ → ByteBuffer → Prop} {p : γ → Reader α} {out : γ → α}
    {cs : List γ} (one : ∀ c ∈ cs, ∀ rest, Yields (S (c :: rest)) (p c) (out c) (S rest)) :
    Yields (S cs) (Reader.each (cs.map p)) (cs.map out) (S []) := by
  induction cs with
  | nil => exact Yields.pure []
  | cons c rest ih =>
    refine (one c mem_cons_self rest).bind ?_
    exact (ih fun c' member => one c' (mem_cons_of_mem _ member)).bind (Yields.pure _)

/-- The reader takes nothing of the bits. -/
def Steady (p : Reader α) : Prop := ∀ b a b', p b = .ok (a, b') → b'.bitpos = b.bitpos

theorem Steady.bind {f : α → Reader β} (first : Steady p) (second : ∀ a, Steady (f a)) :
    Steady (p >>= f) := by
  intro b c b' isRead
  obtain ⟨r, isFirst, isRest⟩ := bind_ok isRead
  exact (second r.1 r.2 c b' isRest).trans (first b r.1 r.2 isFirst)

theorem Steady.pure (a : α) : Steady (Pure.pure a : Reader α) := by
  intro b a' b' isRead
  cases isRead
  rfl

theorem Ensures.bind {f : α → Reader β} {Q : α → Prop} {Q' : β → Prop}
    (first : Ensures p Q) (second : ∀ a, Q a → Ensures (f a) Q') : Ensures (p >>= f) Q' := by
  intro b c b' isRead
  obtain ⟨r, isFirst, isRest⟩ := bind_ok isRead
  exact second r.1 (first b r.1 r.2 isFirst) r.2 c b' isRest

theorem Ensures.after {f : α → Reader β} {Q : β → Prop} (second : ∀ a, Ensures (f a) Q) :
    Ensures (p >>= f) Q :=
  @Ensures.bind _ _ p f (fun _ => True) _ (fun _ _ _ _ => True.intro) fun a _ => second a

theorem Ensures.pure {a : α} {Q : α → Prop} (holds : Q a) : Ensures (Pure.pure a) Q := by
  intro b c b' isRead
  cases isRead
  exact holds

theorem Ensures.each {Q : α → Prop} {ps : List (Reader α)} (all : ∀ p ∈ ps, Ensures p Q) :
    Ensures (Reader.each ps) fun as => ∀ a ∈ as, Q a := by
  induction ps with
  | nil => exact Ensures.pure fun a member => absurd member not_mem_nil
  | cons p rest ih =>
    refine (all p mem_cons_self).bind fun a isFirst => ?_
    refine (ih fun p' member => all p' (mem_cons_of_mem _ member)).bind fun others areOthers => ?_
    refine Ensures.pure fun a' member => ?_
    rcases List.mem_cons.mp member with rfl | isOther
    · exact isFirst
    · exact areOthers a' isOther

end Rules

variable {bytes after : List UInt8} {rem : List Bool} {pad : Nat}

/-- The reader is before bits, with bytes behind their padding. -/
def BeforeBits (bytes : List UInt8) (rem : List Bool) (pad : Nat) (after : List UInt8)
    (b : ByteBuffer) : Prop := Reading bytes b rem pad after

def BeforeBytes (bytes after : List UInt8) (b : ByteBuffer) : Prop := AtBytes bytes b after

theorem yields_bit (bit : Bool) : Yields (BeforeBits bytes (bit :: rem) pad after) Reader.bit bit
      (BeforeBits bytes rem pad after) :=
  fun _ reading => reading.readBit

theorem yields_bits {n : Nat} (short : n ≤ 32) (value : Nat) :
    Yields (BeforeBits bytes (Bits.ofNat n value ++ rem) pad after) (Reader.bits n)
      (UInt32.ofNat (value % 2 ^ n)) (BeforeBits bytes rem pad after) := by
  intro b reading
  have fits : (Bits.ofNat n value).length ≤ 32 := by
    rw [Bits.length_ofNat]
    exact short
  obtain ⟨v, b', isRead, isValue, reading'⟩ := Reading.readBits fits reading
  rw [Bits.length_ofNat] at isRead
  rw [Bits.value_ofNat] at isValue
  refine ⟨b', ?_, reading'⟩
  have same : v = UInt32.ofNat (value % 2 ^ n) := by
    rw [← isValue, UInt32.ofNat_toNat]
  rw [← same]
  exact isRead

/-- The mask of a GUID, as `ReadGuidMask` leaves it. -/
def maskOf (guid : ObjectGuid) : ObjectGuid where
  byte i := if guid.byte i ≠ 0 then 1 else 0

theorem yields_guidMask (guid : ObjectGuid) {order : List (Fin 8)}
    (whole : order.Perm (List.finRange 8)) :
    Yields (BeforeBits bytes ((order.map fun i => decide (guid.byte i ≠ 0)) ++ rem) pad after)
      (Reader.guidMask order) (maskOf guid) (BeforeBits bytes rem pad after) := by
  intro b reading
  obtain ⟨g, b', isRead, reading', inOrder, -⟩ :=
    @Reading.readGuidMask bytes after rem pad guid order b (.ofGuid 0) reading
  have same : g = maskOf guid :=
    ObjectGuid.ext_byte fun i => inOrder i (whole.mem_iff.mpr (mem_finRange i))
  exact ⟨b', same ▸ isRead, reading'⟩

theorem yields_eachBits {α γ : Type} {p : γ → Reader α} {out : γ → α} {enc : γ → List Bool}
    {cs : List γ} (one : ∀ c ∈ cs, ∀ rem,
      Yields (BeforeBits bytes (enc c ++ rem) pad after) (p c) (out c)
        (BeforeBits bytes rem pad after)) :
    Yields (BeforeBits bytes (cs.flatMap enc ++ rem) pad after) (Reader.each (cs.map p))
      (cs.map out) (BeforeBits bytes rem pad after) := by
  refine @Yields.each α γ (fun rest => BeforeBits bytes (rest.flatMap enc ++ rem) pad after)
    p out cs ?_
  intro c member rest
  have onto : (c :: rest).flatMap enc ++ rem = enc c ++ (rest.flatMap enc ++ rem) := by
    rw [flatMap_cons, append_assoc]
  rw [onto]
  exact one c member _

theorem ensures_bits {n : Nat} (short : n ≤ 32) :
    Ensures (Reader.bits n) fun v => v.toNat < 2 ^ n := by
  intro b v b' isRead
  have below := @toNat_lt_of_readBitsFrom n b b' 0 v 0 short rfl isRead
  rw [Nat.zero_add, Nat.mul_one] at below
  exact below

theorem yields_string (src : List UInt8) :
    Yields (BeforeBytes bytes (src ++ after)) (Reader.string src.length) src
      (BeforeBytes bytes after) := by
  intro b atBytes
  obtain ⟨isRead, inside⟩ := read_of_drop atBytes.storage atBytes.inside atBytes.split
  exact ⟨_, isRead, atBytes.storage, inside, drop_of_append atBytes.split⟩

theorem yields_int (type : IntType) (value : Nat) :
    Yields (BeforeBytes bytes (leBytes type.size value ++ after)) (Reader.int type)
      (value % 256 ^ type.size) (BeforeBytes bytes after) := by
  have src := @yields_string bytes after (leBytes type.size value)
  rw [length_leBytes] at src
  refine src.bind ?_
  rw [ofLeBytes_leBytes]
  exact Yields.pure _

theorem yields_uint8 (x : UInt8) :
    Yields (BeforeBytes bytes (leBytes 1 x.toUInt64.toNat ++ after)) Reader.uint8 x
      (BeforeBytes bytes after) := by
  refine (yields_int .uint8 x.toUInt64.toNat).bind ?_
  have small : x.toUInt64.toNat % 256 ^ IntType.uint8.size = x.toNat := Nat.mod_eq_of_lt x.toNat_lt
  rw [small, UInt8.ofNat_toNat]
  exact Yields.pure x

theorem yields_uint32 (x : UInt32) :
    Yields (BeforeBytes bytes (leBytes 4 x.toUInt64.toNat ++ after)) Reader.uint32 x
      (BeforeBytes bytes after) := by
  refine (yields_int .uint32 x.toUInt64.toNat).bind ?_
  have small : x.toUInt64.toNat % 256 ^ IntType.uint32.size = x.toNat :=
    Nat.mod_eq_of_lt x.toNat_lt
  rw [small, UInt32.ofNat_toNat]
  exact Yields.pure x

theorem yields_uint64 (x : UInt64) :
    Yields (BeforeBytes bytes (leBytes 8 x.toNat ++ after)) Reader.uint64 x
      (BeforeBytes bytes after) := by
  refine (yields_int .uint64 x.toNat).bind ?_
  have small : x.toNat % 256 ^ IntType.uint64.size = x.toNat := Nat.mod_eq_of_lt x.toNat_lt
  rw [small, UInt64.ofNat_toNat]
  exact Yields.pure x

theorem yields_someBytes (guid mask : ObjectGuid) {order : List (Fin 8)} [DecidablePred (· ∈ order)]
    (distinct : order.Nodup)
    (isMask : ∀ i ∈ order, mask.byte i = if guid.byte i ≠ 0 then 1 else 0) :
    Yields (BeforeBytes bytes (order.flatMap (MaskedGuid.bytesAt guid) ++ after))
      (Reader.guidBytes order mask) ⟨fun i => if i ∈ order then guid.byte i else mask.byte i⟩
      (BeforeBytes bytes after) := by
  intro b atBytes
  obtain ⟨g, b', isRead, atBytes', inOrder, others⟩ :=
    @AtBytes.readGuidBytes bytes after guid order b mask atBytes distinct isMask
  have same : g = ⟨fun i => if i ∈ order then guid.byte i else mask.byte i⟩ := by
    apply ObjectGuid.ext_byte
    intro i
    by_cases member : i ∈ order
    · exact (inOrder i member).trans (if_pos member).symm
    · exact (others i member).trans (if_neg member).symm
  exact ⟨b', same ▸ isRead, atBytes'⟩

theorem yields_guidBytes (guid : ObjectGuid) {order : List (Fin 8)}
    (whole : order.Perm (List.finRange 8)) :
    Yields (BeforeBytes bytes (order.flatMap (MaskedGuid.bytesAt guid) ++ after))
      (Reader.guidBytes order (maskOf guid)) guid (BeforeBytes bytes after) := by
  have read := @yields_someBytes bytes after guid (maskOf guid) order _
    (whole.nodup_iff.mpr (nodup_finRange 8)) fun _ _ => rfl
  simp only [whole.mem_iff, mem_finRange, if_true] at read
  exact read

variable {b : ByteBuffer}

theorem string_ok {n : Nat} {b' : ByteBuffer} {src : List UInt8}
    (isRead : Reader.string n b = .ok (src, b')) : src.length = n ∧ b'.bitpos = b.bitpos := by
  change b.read n = _ at isRead
  unfold ByteBuffer.read at isRead
  by_cases beyond : b.rpos + n > b.size
  · rw [if_pos beyond] at isRead
    cases isRead
  rw [if_neg beyond] at isRead
  cases isRead
  have size : b.size = b.storage.length := rfl
  rw [length_take, length_drop]
  exact ⟨by omega, rfl⟩

theorem ensures_string (n : Nat) : Ensures (Reader.string n) fun src => src.length = n :=
  fun _ _ _ isRead => (string_ok isRead).1

theorem steady_uint32 : Steady Reader.uint32 := by
  have string : Steady (Reader.string IntType.uint32.size) := fun _ _ _ isRead => (string_ok isRead).2
  exact (string.bind fun _ => Steady.pure _).bind fun _ => Steady.pure _

theorem yields_eachBytes {α γ : Type} {p : γ → Reader α} {out : γ → α} {enc : γ → List UInt8}
    {cs : List γ} (one : ∀ c ∈ cs, ∀ after,
      Yields (BeforeBytes bytes (enc c ++ after)) (p c) (out c) (BeforeBytes bytes after)) :
    Yields (BeforeBytes bytes (cs.flatMap enc ++ after)) (Reader.each (cs.map p)) (cs.map out)
      (BeforeBytes bytes after) := by
  refine @Yields.each α γ (fun rest => BeforeBytes bytes (rest.flatMap enc ++ after)) p out cs ?_
  intro c member rest
  have onto : (c :: rest).flatMap enc ++ after = enc c ++ (rest.flatMap enc ++ after) := by
    rw [flatMap_cons, append_assoc]
  rw [onto]
  exact one c member _

theorem beforeBytes_ofBytes (bytes : List UInt8) : BeforeBytes bytes bytes (ofBytes bytes) :=
  ⟨rfl, Nat.zero_le _, rfl⟩

theorem rpos_of_nothing (atBytes : BeforeBytes bytes [] b) : b.rpos = bytes.length := by
  have inside := atBytes.inside
  have len := congrArg List.length atBytes.split
  rw [length_drop, length_nil] at len
  omega

theorem beforeBits_of_bytes {run : List Bool}
    (atBytes : BeforeBytes bytes (pack run ++ after) b) (fresh : b.bitpos = 8) :
    ∃ pad, pad < 8 ∧ BeforeBits bytes run pad after b := by
  obtain ⟨pad, few, stream⟩ := unpack_pack run
  refine ⟨pad, few, atBytes.storage, atBytes.inside, pack run, atBytes.split, ?_⟩
  have isNil : b.ahead = [] := by
    unfold ahead
    rw [fresh]
    exact drop_of_length_le (by rw [length_ofByte]; decide)
  rw [isNil, stream, nil_append]

theorem beforeBytes_of_bits (few : pad < 8) (reading : BeforeBits bytes [] pad after b) :
    BeforeBytes bytes after b := by
  exact Reading.atBytes few reading

theorem length_flatMap_le {α β : Type} {f : α → List β} {c : Nat} {l : List α}
    (short : ∀ a ∈ l, (f a).length ≤ c) : (l.flatMap f).length ≤ c * l.length := by
  induction l with
  | nil => exact Nat.zero_le _
  | cons a rest ih =>
    have first := short a mem_cons_self
    have others := ih fun a' member => short a' (mem_cons_of_mem _ member)
    rw [flatMap_cons, length_append, length_cons, Nat.mul_add, Nat.mul_one]
    omega

theorem length_guidBytes_le (guid : ObjectGuid) (order : List (Fin 8)) :
    (order.flatMap (MaskedGuid.bytesAt guid)).length ≤ order.length := by
  rw [← Nat.one_mul order.length]
  refine length_flatMap_le fun i _ => ?_
  unfold MaskedGuid.bytesAt
  split
  · exact Nat.zero_le 1
  · exact Nat.le_refl 1

end Sky548
