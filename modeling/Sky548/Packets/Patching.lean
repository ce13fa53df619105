import Sky548.Packets.Order

/-!
# Values that are put in later

A packet often begins with a count that is known only at its end: zeros are written in
its place, and `PutBits` puts the value there once the bits are flushed. `patch` is what
`PutBits` does for one bit, on a buffer whose last byte may still be pending; it can be
done before or after whatever is written behind that bit.
-/

namespace Sky548

open List

open Bits

namespace ByteBuffer

def bitwpos (b : ByteBuffer) : Nat := b.wpos * 8 + 8 - b.bitpos

/-- Set or clear bit `7 - bit` of a byte. -/
def putBit (bit : Nat) (value : Bool) (byte : UInt8) : UInt8 :=
  if value then byte ||| 1 <<< UInt8.ofNat (7 - bit)
  else byte &&& ~~~(1 <<< UInt8.ofNat (7 - bit))

def putBitList : List Bool → Nat → List UInt8 → List UInt8
  | [], _, storage => storage
  | bit :: rest, pos, storage =>
    putBitList rest (pos + 1) (storage.modify (pos / 8) (putBit (pos % 8) bit))

/-- `PutBits`: turn `i` puts bit `(value >> (bitCount - i - 1)) & 1`. -/
def putBits (b : ByteBuffer) (pos : Nat) (value : UInt64) (bitCount : Nat) :
    Except ByteBufferError ByteBuffer :=
  if bitCount = 0 then .error .sourceException
  else if pos + bitCount > b.size * 8 then .error .positionException
  else .ok { b with storage := putBitList (Bits.ofNat bitCount value.toNat) pos b.storage }

end ByteBuffer

inductive FieldWrite
  | writeBit (bit : UInt32)
  | writeBits (value : UInt64) (bits : Nat) (inWidth : bits ≤ 64)
  | int (type : IntType) (value : UInt64)

def FieldWrite.call : FieldWrite → WriteCall
  | .writeBit bit => .writeBit bit
  | .writeBits value bits inWidth => .writeBits value bits inWidth
  | .int type value => .int type value

theorem isSet_eq_getLsbD (byte : UInt8) {i : Nat} (below : i < 8) :
    isSet byte i = byte.toBitVec.getLsbD i := isSet_eq_testBit byte below

theorem eq_of_isSet {a b : UInt8} (same : ∀ i < 8, isSet a i = isSet b i) : a = b := by
  apply UInt8.eq_of_toBitVec_eq
  refine BitVec.eq_of_getLsbD_eq fun i below => ?_
  rw [← isSet_eq_getLsbD a below, ← isSet_eq_getLsbD b below]
  exact same i below

theorem isSet_and_not (a b : UInt8) {i : Nat} (below : i < 8) :
    isSet (a &&& ~~~b) i = (isSet a i && !isSet b i) := by
  rw [isSet_eq_getLsbD _ below, isSet_eq_getLsbD _ below, isSet_eq_getLsbD _ below,
    UInt8.toBitVec_and, UInt8.toBitVec_not, BitVec.getLsbD_and, BitVec.getLsbD_not,
    decide_eq_true below, Bool.true_and]

namespace ByteBuffer

theorem isSet_putBit {bit i : Nat} (inByte : bit < 8) (below : i < 8) (value : Bool)
    (byte : UInt8) :
    isSet (putBit bit value byte) i = if i = 7 - bit then value else isSet byte i := by
  unfold putBit
  cases value with
  | true =>
    rw [if_pos rfl, isSet_or _ _ below, isSet_shift below (by omega)]
    by_cases here : i = 7 - bit
    · rw [if_pos here, decide_eq_true here.symm, Bool.or_true]
    · rw [if_neg here, decide_eq_false (Ne.symm here), Bool.or_false]
  | false =>
    rw [if_neg Bool.false_ne_true, isSet_and_not _ _ below, isSet_shift below (by omega)]
    by_cases here : i = 7 - bit
    · rw [if_pos here, decide_eq_true here.symm, Bool.not_true, Bool.and_false]
    · rw [if_neg here, decide_eq_false (Ne.symm here), Bool.not_false, Bool.and_true]

/-- What `WriteBit` makes of the byte being filled. -/
def filled (byte : UInt8) (bitpos : Nat) (bit : Bool) : UInt8 :=
  if bit then byte ||| 1 <<< UInt8.ofNat bitpos else byte

theorem isSet_filled {bitpos i : Nat} (inByte : bitpos < 8) (below : i < 8) (bit : Bool)
    (byte : UInt8) :
    isSet (filled byte bitpos bit) i = (isSet byte i || (decide (bitpos = i) && bit)) := by
  unfold filled
  cases bit with
  | true => rw [if_pos rfl, isSet_or _ _ below, isSet_shift below inByte, Bool.and_true]
  | false => rw [if_neg Bool.false_ne_true, Bool.and_false, Bool.or_false]

variable {pos : Nat}

theorem filled_putBit {bitpos : Nat} (inByte : bitpos < 8) (written : pos < 7 - bitpos)
    (bit value : Bool) (byte : UInt8) :
    filled (putBit pos value byte) bitpos bit = putBit pos value (filled byte bitpos bit) := by
  refine eq_of_isSet fun i below => ?_
  rw [isSet_filled inByte below, isSet_putBit (by omega) below, isSet_putBit (by omega) below,
    isSet_filled inByte below]
  by_cases here : i = 7 - pos
  · rw [if_pos here, if_pos here, decide_eq_false (show ¬ bitpos = i by omega), Bool.false_and,
      Bool.or_false]
  · rw [if_neg here, if_neg here]

theorem filled_eq_putBit {bitpos : Nat} (inByte : bitpos < 8) {byte : UInt8}
    (clear : isSet byte bitpos = false) (bit : Bool) :
    filled byte bitpos bit = putBit (7 - bitpos) bit (filled byte bitpos false) := by
  refine eq_of_isSet fun i below => ?_
  rw [isSet_filled inByte below, isSet_putBit (by omega) below, isSet_filled inByte below,
    Bool.and_false, Bool.or_false]
  by_cases here : i = 7 - (7 - bitpos)
  · have same : bitpos = i := by omega
    rw [if_pos here, decide_eq_true same, Bool.true_and, ← same, clear, Bool.false_or]
  · rw [if_neg here, decide_eq_false (show ¬ bitpos = i by omega), Bool.false_and, Bool.or_false]

def placed (storage : List UInt8) (w : Nat) (src : List UInt8) : List UInt8 :=
  storage.take w ++ List.replicate (w - storage.length) 0 ++ src ++ storage.drop (w + src.length)

theorem modify_append_left {i : Nat} {front : List UInt8} (inside : i < front.length)
    (f : UInt8 → UInt8) (back : List UInt8) :
    (front ++ back).modify i f = front.modify i f ++ back := by
  refine ext_getElem? fun j => ?_
  rw [getElem?_modify]
  by_cases front' : j < front.length
  · rw [getElem?_append_left front', getElem?_append_left (by simpa using front'), getElem?_modify]
  have other : ¬ i = j := by omega
  rw [getElem?_append_right (by omega), getElem?_append_right (by simpa using front'),
    length_modify]
  simp [other]

theorem placed_modify {storage : List UInt8} (src : List UInt8) {w i : Nat} (before : i < w)
    (inside : i < storage.length) (f : UInt8 → UInt8) :
    placed (storage.modify i f) w src = (placed storage w src).modify i f := by
  have front : i < (storage.take w).length := by
    rw [length_take]
    omega
  unfold placed
  rw [length_modify, drop_modify_of_lt _ _ _ _ (by omega), take_modify,
    append_assoc, append_assoc, append_assoc, append_assoc,
    modify_append_left front]

theorem length_front (storage : List UInt8) (w : Nat) :
    (storage.take w ++ List.replicate (w - storage.length) 0).length = w := by
  rw [length_append, length_take, length_replicate]
  omega

theorem modify_append_here {front : List UInt8} {w : Nat} (isFront : front.length = w)
    (byte : UInt8) (f : UInt8 → UInt8) (back : List UInt8) :
    (front ++ byte :: back).modify w f = front ++ f byte :: back := by
  refine ext_getElem? fun j => ?_
  rw [getElem?_modify]
  rcases Nat.lt_trichotomy j w with before | rfl | behind
  · have inFront : j < front.length := isFront.symm ▸ before
    have other : ¬ w = j := by omega
    rw [getElem?_append_left inFront, getElem?_append_left inFront]
    simp [other]
  · rw [getElem?_append_right isFront.le, getElem?_append_right isFront.le, isFront, Nat.sub_self]
    simp
  · have inBack : front.length ≤ j := by omega
    have other : ¬ w = j := by omega
    obtain ⟨k, isNext⟩ : ∃ k, j - front.length = k + 1 := ⟨j - w - 1, by omega⟩
    rw [getElem?_append_right inBack, getElem?_append_right inBack, isNext]
    simp [other]

theorem placed_singleton (storage : List UInt8) (w : Nat) (byte : UInt8) (f : UInt8 → UInt8) :
    placed storage w [f byte] = (placed storage w [byte]).modify w f := by
  unfold placed
  rw [append_assoc, append_assoc _ [byte]]
  exact (modify_append_here (length_front storage w) byte f _).symm

theorem length_placed (storage : List UInt8) (w : Nat) (src : List UInt8) :
    (placed storage w src).length = max storage.length (w + src.length) := by
  unfold placed
  simp only [length_append, length_take, length_replicate, length_drop]
  omega

/-- What `PutBits` does for one bit, whether the byte is stored or pending. -/
def patch (b : ByteBuffer) (pos : Nat) (bit : Bool) : ByteBuffer :=
  if pos / 8 = b.wpos then { b with curbitval := putBit (pos % 8) bit b.curbitval }
  else { b with storage := b.storage.modify (pos / 8) (putBit (pos % 8) bit) }

/-- A bit position that has been written: in the storage, or in the pending byte. -/
structure Behind (b : ByteBuffer) (pos : Nat) : Prop where
  position : 1 ≤ b.bitpos ∧ b.bitpos ≤ 8
  written : pos < b.bitwpos
  stored : pos / 8 < b.wpos → pos / 8 < b.size

/-- An operation that leaves what has been written where it is: a patch may come before
or after it. -/
def Keeps (f : ByteBuffer → Except ByteBufferError ByteBuffer) : Prop :=
  ∀ (b : ByteBuffer) (pos : Nat), Behind b pos →
    (∀ bit, f (b.patch pos bit) = (f b).map fun b' => b'.patch pos bit) ∧
      ∀ b', f b = .ok b' → Behind b' pos

theorem keeps_ok : Keeps .ok := by
  intro b pos behind
  refine ⟨fun bit => rfl, fun b' isOk => ?_⟩
  cases isOk
  exact behind

theorem Keeps.bind {f g : ByteBuffer → Except ByteBufferError ByteBuffer} (first : Keeps f)
    (second : Keeps g) : Keeps fun b => f b >>= g := by
  intro b pos behind
  obtain ⟨commutes, behind'⟩ := first b pos behind
  cases result : f b with
  | error e =>
    refine ⟨fun bit => ?_, fun b' isOk => ?_⟩
    · change f (b.patch pos bit) >>= g = (f b >>= g).map _
      rw [commutes bit, result]
      rfl
    · change (f b >>= g) = .ok b' at isOk
      rw [result] at isOk
      cases isOk
  | ok b₁ =>
    obtain ⟨commutes', behind''⟩ := second b₁ pos (behind' b₁ result)
    refine ⟨fun bit => ?_, fun b' isOk => behind'' b' ?_⟩
    · change f (b.patch pos bit) >>= g = (f b >>= g).map _
      rw [commutes bit, result]
      exact commutes' bit
    · change (f b >>= g) = .ok b' at isOk
      rw [result] at isOk
      exact isOk

section patch

variable (b : ByteBuffer) (pos : Nat) (bit : Bool)

@[simp] theorem wpos_patch : (b.patch pos bit).wpos = b.wpos := by
  unfold patch
  split <;> rfl

@[simp] theorem bitpos_patch : (b.patch pos bit).bitpos = b.bitpos := by
  unfold patch
  split <;> rfl

@[simp] theorem size_patch : (b.patch pos bit).size = b.size := by
  unfold patch size
  split
  · rfl
  · exact length_modify _ _ _

theorem curbitval_patch : (b.patch pos bit).curbitval =
    if pos / 8 = b.wpos then putBit (pos % 8) bit b.curbitval else b.curbitval := by
  unfold patch
  split <;> rfl

@[simp] theorem bitwpos_patch : (b.patch pos bit).bitwpos = b.bitwpos := by
  unfold bitwpos
  rw [wpos_patch, bitpos_patch]

end patch

variable {b : ByteBuffer}

theorem Behind.patched (behind : Behind b pos) (other : Nat) (bit : Bool) :
    Behind (b.patch other bit) pos := by
  obtain ⟨position, written, stored⟩ := behind
  refine ⟨?_, ?_, ?_⟩
  · rw [bitpos_patch]
    exact position
  · rw [bitwpos_patch]
    exact written
  · rw [wpos_patch, size_patch]
    exact stored

theorem append_stored {src : List UInt8} (before : pos / 8 < b.wpos)
    (stored : pos / 8 < b.size) (bit : Bool) :
    (b.patch pos bit).append src = (b.append src).map fun b' => b'.patch pos bit := by
  have other : ¬ pos / 8 = b.wpos := Nat.ne_of_lt before
  have inside : pos / 8 < b.storage.length := stored
  have later : ¬ pos / 8 = b.wpos + src.length := by omega
  unfold append
  rw [size_patch]
  by_cases noSrc : src = []
  · rw [if_pos noSrc, if_pos noSrc]
    rfl
  rw [if_neg noSrc, if_neg noSrc]
  by_cases below : b.size < appendLimit
  · rw [if_neg (not_not.mpr below), if_neg (not_not.mpr below)]
    have moved := placed_modify src before inside (putBit (pos % 8) bit)
    unfold placed at moved
    rw [length_modify] at moved
    unfold patch
    simp only [Except.map, if_neg other, if_neg later]
    exact congrArg (fun storage => Except.ok { b with storage, wpos := b.wpos + src.length })
      moved
  · rw [if_pos below, if_pos below]
    rfl

variable {b' : ByteBuffer}

theorem append_ok {src : List UInt8} (isOk : b.append src = .ok b') :
    b' = ⟨b.rpos, b.wpos + src.length, b.bitpos, b.curbitval, placed b.storage b.wpos src⟩ := by
  unfold append at isOk
  by_cases noSrc : src = []
  · rw [if_pos noSrc] at isOk
    cases isOk
  rw [if_neg noSrc] at isOk
  by_cases below : b.size < appendLimit
  · rw [if_neg (not_not.mpr below)] at isOk
    cases isOk
    rfl
  · rw [if_pos below] at isOk
    cases isOk

/-- What `FlushBits` and a full byte do: the byte goes into the storage. -/
def shut (b : ByteBuffer) (byte : UInt8) : Except ByteBufferError ByteBuffer :=
  if b.size < appendLimit then .ok ⟨b.rpos, b.wpos + 1, 8, 0, placed b.storage b.wpos [byte]⟩
  else .error .assertion

theorem append_singleton (b : ByteBuffer) (byte : UInt8) : (do
      let b ← b.append [byte]
      .ok { b with curbitval := 0, bitpos := 8 }) = b.shut byte := by
  unfold append shut
  rw [if_neg (cons_ne_nil byte [])]
  by_cases below : b.size < appendLimit
  · rw [if_neg (not_not.mpr below), if_pos below]
    rfl
  · rw [if_pos below, if_neg below]
    rfl

theorem flushBits_pending (pending : b.bitpos ≠ 8) : b.flushBits = b.shut b.curbitval := by
  unfold flushBits
  rw [if_neg pending]
  exact b.append_singleton b.curbitval

theorem writeBit_last (last : b.bitpos = 1) (bit : Bool) :
    b.writeBit bit = b.shut (filled b.curbitval 0 bit) := by
  unfold writeBit
  rw [last, if_pos rfl]
  change _ = b.shut (if bit then b.curbitval ||| 1 <<< UInt8.ofNat 0 else b.curbitval)
  generalize (if bit then b.curbitval ||| 1 <<< UInt8.ofNat 0 else b.curbitval) = byte
  unfold append shut
  rw [if_neg (cons_ne_nil byte [])]
  by_cases below : b.size < appendLimit
  · have below' : ({ b with bitpos := 8, curbitval := byte } : ByteBuffer).size < appendLimit :=
      below
    rw [if_neg (not_not.mpr below'), if_pos below]
    rfl
  · have above : ¬ ({ b with bitpos := 8, curbitval := byte } : ByteBuffer).size < appendLimit :=
      below
    rw [if_pos above, if_neg below]
    rfl

theorem writeBit_more (more : 2 ≤ b.bitpos) (bit : Bool) : b.writeBit bit =
      .ok { b with bitpos := b.bitpos - 1, curbitval := filled b.curbitval (b.bitpos - 1) bit } := by
  unfold writeBit
  rw [if_neg (by omega)]
  rfl

theorem Behind.shut {byte : UInt8} (behind : Behind b pos) (isOk : b.shut byte = .ok b') :
    Behind b' pos := by
  obtain ⟨position, written, stored⟩ := behind
  unfold ByteBuffer.shut at isOk
  by_cases below : b.size < appendLimit
  · rw [if_pos below] at isOk
    cases isOk
    unfold bitwpos at written
    refine ⟨show 1 ≤ 8 ∧ 8 ≤ 8 by decide, ?_, fun before => ?_⟩
    · change pos < (b.wpos + 1) * 8 + 8 - 8
      omega
    · change pos / 8 < (placed b.storage b.wpos [byte]).length
      rw [length_placed, length_singleton]
      omega
  · rw [if_neg below] at isOk
    cases isOk

theorem shut_stored (before : pos / 8 < b.wpos)
    (stored : pos / 8 < b.size) (bit : Bool) (byte : UInt8) :
    (b.patch pos bit).shut byte = (b.shut byte).map fun b' => b'.patch pos bit := by
  have other : ¬ pos / 8 = b.wpos := Nat.ne_of_lt before
  have later : ¬ pos / 8 = b.wpos + 1 := by omega
  have moved := placed_modify [byte] before stored (putBit (pos % 8) bit)
  unfold shut
  rw [size_patch]
  by_cases below : b.size < appendLimit
  · rw [if_pos below, if_pos below]
    unfold patch
    simp only [Except.map, if_neg other, if_neg later, moved]
  · rw [if_neg below, if_neg below]
    rfl

theorem shut_putBit (here : pos / 8 = b.wpos) (bit : Bool) (byte : UInt8) :
    b.shut (putBit (pos % 8) bit byte) = (b.shut byte).map fun b' => b'.patch pos bit := by
  have later : ¬ b.wpos = b.wpos + 1 := by omega
  unfold shut
  by_cases below : b.size < appendLimit
  · rw [if_pos below, if_pos below]
    unfold patch
    simp only [Except.map, here, if_neg later, placed_singleton]
  · rw [if_neg below, if_neg below]
    rfl

theorem shut_patch (behind : Behind b pos) (bit : Bool) (byte : UInt8) :
    (b.patch pos bit).shut (if pos / 8 = b.wpos then putBit (pos % 8) bit byte else byte) =
      (b.shut byte).map fun b' => b'.patch pos bit := by
  have written := behind.written
  have position := behind.position
  unfold bitwpos at written
  by_cases here : pos / 8 = b.wpos
  · have same : (b.patch pos bit).shut (putBit (pos % 8) bit byte) =
        b.shut (putBit (pos % 8) bit byte) := by
      unfold patch
      rw [if_pos here]
      rfl
    rw [if_pos here, same]
    exact shut_putBit here bit byte
  · have before : pos / 8 < b.wpos := by omega
    rw [if_neg here]
    exact shut_stored before (behind.stored before) bit byte

theorem keeps_flushBits : Keeps flushBits := by
  intro b pos behind
  by_cases done : b.bitpos = 8
  · have same : b.flushBits = .ok b := if_pos done
    refine ⟨fun bit => ?_, fun b' isOk => ?_⟩
    · have done' : (b.patch pos bit).bitpos = 8 := (b.bitpos_patch pos bit).trans done
      have same' : (b.patch pos bit).flushBits = .ok (b.patch pos bit) := if_pos done'
      rw [same, same']
      rfl
    · rw [same] at isOk
      cases isOk
      exact behind
  · refine ⟨fun bit => ?_, fun b' isOk => ?_⟩
    · have pending : (b.patch pos bit).bitpos ≠ 8 := by
        rw [bitpos_patch]
        exact done
      rw [flushBits_pending done, flushBits_pending pending, curbitval_patch]
      exact shut_patch behind bit b.curbitval
    · rw [flushBits_pending done] at isOk
      exact behind.shut isOk

theorem keeps_writeBit (x : Bool) : Keeps (writeBit · x) := by
  intro b pos behind
  obtain ⟨position, written, stored⟩ := behind
  by_cases last : b.bitpos = 1
  · refine ⟨fun bit => ?_, fun b' isOk => ?_⟩
    · have last' : (b.patch pos bit).bitpos = 1 := (b.bitpos_patch pos bit).trans last
      dsimp only
      rw [writeBit_last last, writeBit_last last', curbitval_patch,
        ← shut_patch ⟨position, written, stored⟩]
      refine congrArg _ ?_
      by_cases here : pos / 8 = b.wpos
      · unfold bitwpos at written
        rw [if_pos here, if_pos here]
        exact filled_putBit (by decide) (by omega) x bit b.curbitval
      · rw [if_neg here, if_neg here]
    · dsimp only at isOk
      rw [writeBit_last last] at isOk
      exact Behind.shut ⟨position, written, stored⟩ isOk
  · have more : 2 ≤ b.bitpos := by omega
    unfold bitwpos at written
    refine ⟨fun bit => ?_, fun b' isOk => ?_⟩
    · have more' : 2 ≤ (b.patch pos bit).bitpos := (b.bitpos_patch pos bit).symm ▸ more
      dsimp only
      rw [writeBit_more more, writeBit_more more', curbitval_patch, bitpos_patch]
      unfold patch
      by_cases here : pos / 8 = b.wpos
      · simp only [if_pos here, Except.map]
        rw [filled_putBit (by omega) (by omega)]
      · simp only [if_neg here, Except.map]
    · dsimp only at isOk
      rw [writeBit_more more] at isOk
      cases isOk
      refine ⟨⟨?_, ?_⟩, ?_, stored⟩
      · change 1 ≤ b.bitpos - 1
        omega
      · change b.bitpos - 1 ≤ 8
        omega
      · change pos < b.wpos * 8 + 8 - (b.bitpos - 1)
        omega

theorem keeps_writeBitList (bits : List Bool) : Keeps (writeBitList bits) := by
  induction bits with
  | nil => exact keeps_ok
  | cons bit rest ih => exact (keeps_writeBit bit).bind ih

theorem bitpos_flushBits (isOk : b.flushBits = .ok b') : b'.bitpos = 8 := by
  by_cases done : b.bitpos = 8
  · have same : b.flushBits = .ok b := if_pos done
    rw [same] at isOk
    cases isOk
    exact done
  · rw [flushBits_pending done] at isOk
    unfold shut at isOk
    split at isOk <;> cases isOk
    rfl

theorem Behind.flushed (behind : Behind b pos) (done : b.bitpos = 8) :
    pos / 8 < b.wpos ∧ pos / 8 < b.size := by
  have written := behind.written
  unfold bitwpos at written
  have before : pos / 8 < b.wpos := by omega
  exact ⟨before, behind.stored before⟩

theorem keeps_appendValue (bytes : List UInt8) : Keeps (appendValue · bytes) := by
  intro b pos behind
  obtain ⟨commutes, behind'⟩ := keeps_flushBits b pos behind
  cases result : b.flushBits with
  | error e =>
    refine ⟨fun bit => ?_, fun b' isOk => ?_⟩
    · change (b.patch pos bit).flushBits >>= (append · bytes) =
        (b.flushBits >>= (append · bytes)).map _
      rw [commutes bit, result]
      rfl
    · change b.flushBits >>= (append · bytes) = .ok b' at isOk
      rw [result] at isOk
      cases isOk
  | ok b₁ =>
    have full := bitpos_flushBits result
    obtain ⟨before, stored⟩ := (behind' b₁ result).flushed full
    refine ⟨fun bit => ?_, fun b' isOk => ?_⟩
    · change (b.patch pos bit).flushBits >>= (append · bytes) =
        (b.flushBits >>= (append · bytes)).map _
      rw [commutes bit, result]
      exact append_stored before stored bit
    · change b.flushBits >>= (append · bytes) = .ok b' at isOk
      rw [result] at isOk
      have appended := append_ok isOk
      subst appended
      have end' : pos / 8 < b₁.wpos + bytes.length := by omega
      refine ⟨(behind' b₁ result).position, ?_, fun _ => ?_⟩
      · change pos < (b₁.wpos + bytes.length) * 8 + 8 - b₁.bitpos
        rw [full]
        omega
      · change pos / 8 < (placed b₁.storage b₁.wpos bytes).length
        rw [length_placed]
        omega

theorem keeps_write (w : FieldWrite) : Keeps (write · w.call) := by
  cases w with
  | writeBit bit => exact keeps_writeBit _
  | writeBits value bits inWidth => exact keeps_writeBitList _
  | int type value => exact keeps_appendValue _

theorem keeps_writeAll (ws : List FieldWrite) : Keeps (writeAll (ws.map FieldWrite.call)) := by
  induction ws with
  | nil => exact keeps_ok
  | cons w rest ih => exact (keeps_write w).bind ih

def patchList : List Bool → Nat → ByteBuffer → ByteBuffer
  | [], _, b => b
  | bit :: rest, pos, b => patchList rest (pos + 1) (b.patch pos bit)

/-- The pending byte has no bits set where none have been written. -/
def Clean (b : ByteBuffer) : Prop :=
  (1 ≤ b.bitpos ∧ b.bitpos ≤ 8) ∧ ∀ i < b.bitpos, i < 8 → isSet b.curbitval i = false

instance (b : ByteBuffer) : Decidable b.Clean := inferInstanceAs (Decidable (_ ∧ _))

theorem Holds.clean {l : Layout} (holds : Holds b l) : b.Clean := by
  have short := l.short
  refine ⟨by rw [holds.bitpos]; omega, fun i below inByte => ?_⟩
  rw [holds.bitpos] at below
  rw [holds.curbitval]
  have unset := isSet_packFrom l.tail (le_refl 8) inByte (Nat.le_of_lt short)
  have noBit : l.tail.getD (8 - 1 - i) false = false :=
    getD_eq_default _ _ (by omega)
  rw [noBit, Bool.and_false] at unset
  exact unset

theorem Keeps.patchList {f : ByteBuffer → Except ByteBufferError ByteBuffer} (keeps : Keeps f)
    (bits : List Bool) : ∀ {b : ByteBuffer} {pos : Nat}, (∀ i < bits.length, Behind b (pos + i)) →
      f (patchList bits pos b) = (f b).map (ByteBuffer.patchList bits pos) := by
  induction bits with
  | nil =>
    intro b pos behind
    change f b = _
    cases f b <;> rfl
  | cons bit rest ih =>
    intro b pos behind
    have first : Behind b pos := behind 0 (Nat.succ_pos _)
    have others : ∀ i < rest.length, Behind (b.patch pos bit) (pos + 1 + i) := by
      intro i inRest
      have next := behind (i + 1) (Nat.succ_lt_succ inRest)
      rw [show pos + 1 + i = pos + (i + 1) by omega]
      exact next.patched pos bit
    change f (ByteBuffer.patchList rest (pos + 1) (b.patch pos bit)) = _
    rw [ih others, (keeps b pos first).1 bit]
    cases f b <;> rfl

theorem Clean.patched (clean : b.Clean) (behind : Behind b pos) (bit : Bool) :
    (b.patch pos bit).Clean := by
  obtain ⟨position, clear⟩ := clean
  have written := behind.written
  unfold bitwpos at written
  refine ⟨(b.bitpos_patch pos bit).symm ▸ position, fun i below inByte => ?_⟩
  rw [bitpos_patch] at below
  rw [curbitval_patch]
  by_cases here : pos / 8 = b.wpos
  · have other : ¬ i = 7 - pos % 8 := by omega
    rw [if_pos here, isSet_putBit (Nat.mod_lt _ (by decide)) inByte, if_neg other]
    exact clear i below inByte
  · rw [if_neg here]
    exact clear i below inByte

theorem place_bitwpos (position : 1 ≤ b.bitpos ∧ b.bitpos ≤ 8) :
    b.bitwpos / 8 = b.wpos ∧ b.bitwpos % 8 = 8 - b.bitpos := by
  unfold bitwpos
  omega

theorem writeBit_eq (clean : b.Clean) (bit : Bool) :
    b.writeBit bit = (b.writeBit false).map fun b' => b'.patch b.bitwpos bit := by
  obtain ⟨position, clear⟩ := clean
  obtain ⟨here, inPlace⟩ := place_bitwpos position
  by_cases last : b.bitpos = 1
  · have filling := filled_eq_putBit (by decide : 0 < 8) (clear 0 (by omega) (by decide)) bit
    rw [writeBit_last last, writeBit_last last, filling, ← shut_putBit here, inPlace, last]
  have more : 2 ≤ b.bitpos := by omega
  have filling := filled_eq_putBit (show b.bitpos - 1 < 8 by omega)
    (clear (b.bitpos - 1) (by omega) (by omega)) bit
  have same : 8 - b.bitpos = 7 - (b.bitpos - 1) := by omega
  rw [writeBit_more more, writeBit_more more, filling]
  unfold patch
  simp only [Except.map, here, if_true, inPlace, same]

theorem writeBit_zero (clean : b.Clean) (isOk : b.writeBit false = .ok b') :
    b'.Clean ∧ b'.bitwpos = b.bitwpos + 1 ∧ Behind b' b.bitwpos := by
  obtain ⟨position, clear⟩ := clean
  by_cases last : b.bitpos = 1
  · rw [writeBit_last last] at isOk
    unfold shut at isOk
    split at isOk <;> cases isOk
    refine ⟨⟨show 1 ≤ 8 ∧ 8 ≤ 8 by decide, fun i _ inByte => ?_⟩, ?_, ?_, ?_, fun _ => ?_⟩
    · rw [isSet_eq_testBit 0 inByte]
      exact Nat.zero_testBit i
    · unfold bitwpos
      dsimp only
      omega
    · exact show 1 ≤ 8 ∧ 8 ≤ 8 by decide
    · unfold bitwpos
      dsimp only
      omega
    · change b.bitwpos / 8 < (placed b.storage b.wpos _).length
      rw [length_placed, (place_bitwpos position).1]
      exact Nat.lt_of_lt_of_le (Nat.lt_succ_self b.wpos) (Nat.le_max_right _ _)
  · have more : 2 ≤ b.bitpos := by omega
    rw [writeBit_more more] at isOk
    cases isOk
    refine ⟨⟨?_, fun i below inByte => ?_⟩, ?_, ?_, ?_, fun before => ?_⟩
    · dsimp only
      omega
    · exact clear i (by dsimp only at below; omega) inByte
    · unfold bitwpos
      dsimp only
      omega
    · dsimp only
      omega
    · unfold bitwpos
      dsimp only
      omega
    · rw [(place_bitwpos position).1] at before
      exact absurd before (Nat.lt_irrefl _)

theorem writeBitList_patched (bits : List Bool) : ∀ {b : ByteBuffer}, b.Clean →
    writeBitList bits b = (writeBitList (List.replicate bits.length false) b).map
      (patchList bits b.bitwpos) ∧
    ∀ b', writeBitList (List.replicate bits.length false) b = .ok b' →
      ∀ i < bits.length, Behind b' (b.bitwpos + i) := by
  induction bits with
  | nil => exact fun _ => ⟨rfl, fun _ _ i inNil => absurd inNil (Nat.not_lt_zero i)⟩
  | cons bit rest ih =>
    intro b clean
    let zeros := List.replicate rest.length false
    change b.writeBit bit >>= writeBitList rest = (b.writeBit false >>= writeBitList zeros).map _ ∧
      ∀ b', b.writeBit false >>= writeBitList zeros = .ok b' → _
    rw [writeBit_eq clean bit]
    rcases result : b.writeBit false with e | b₁
    · exact ⟨rfl, fun b' isOk => by cases isOk⟩
    obtain ⟨clean₁, next, behind⟩ := writeBit_zero clean result
    obtain ⟨commutes, keeps⟩ := keeps_writeBitList zeros b₁ b.bitwpos behind
    have patched := (ih (clean₁.patched behind bit)).1
    rw [bitwpos_patch, next] at patched
    refine ⟨?_, fun b' isOk i inRange => ?_⟩
    · change writeBitList rest (b₁.patch b.bitwpos bit) = (writeBitList zeros b₁).map _
      rw [patched]
      rw [commutes bit]
      cases writeBitList zeros b₁ <;> rfl
    · cases i with
      | zero => exact keeps b' isOk
      | succ i =>
        have later := (ih clean₁).2 b' isOk i (Nat.lt_of_succ_lt_succ inRange)
        rw [next] at later
        rw [show b.bitwpos + (i + 1) = b.bitwpos + 1 + i by omega]
        exact later

theorem patchList_stored (bits : List Bool) : ∀ {b : ByteBuffer} {pos : Nat},
    (∀ i < bits.length, (pos + i) / 8 < b.wpos) →
      patchList bits pos b = { b with storage := putBitList bits pos b.storage } := by
  induction bits with
  | nil => exact fun _ => rfl
  | cons bit rest ih =>
    intro b pos stored
    have first : ¬ pos / 8 = b.wpos := Nat.ne_of_lt (stored 0 (Nat.succ_pos _))
    have patched : b.patch pos bit =
        { b with storage := b.storage.modify (pos / 8) (putBit (pos % 8) bit) } := if_neg first
    change patchList rest (pos + 1) (b.patch pos bit) = _
    rw [patched, ih fun i inRest => ?_]
    · rfl
    · have next := stored (i + 1) (Nat.succ_lt_succ inRest)
      rw [show pos + 1 + i = pos + (i + 1) by omega]
      exact next

/-- A value of `bits` bits, further writes, and the flush. -/
def writeField (b : ByteBuffer) (value : UInt64) (bits : Nat) (ws : List FieldWrite) :
    Except ByteBufferError ByteBuffer := do
  let b ← b.writeBits value bits
  let b ← b.writeAll (ws.map FieldWrite.call)
  b.flushBits

theorem ofNat_zero (n : Nat) : Bits.ofNat n 0 = List.replicate n false := by
  induction n with
  | zero => rfl
  | succ n ih =>
    rw [Bits.ofNat, ih, Nat.zero_testBit, replicate_succ]

theorem keeps_rest (ws : List FieldWrite) :
    Keeps fun b => b.writeAll (ws.map FieldWrite.call) >>= flushBits :=
  (keeps_writeAll ws).bind keeps_flushBits

theorem putBits_stored {bits : Nat} (some : 0 < bits) (value : UInt64)
    (behind : ∀ i < bits, Behind b (pos + i)) (stored : pos + bits ≤ 8 * b.wpos) :
    b.putBits pos value bits = .ok (patchList (Bits.ofNat bits value.toNat) pos b) := by
  have last := (behind (bits - 1) (by omega)).stored (by omega)
  have inside : ¬ pos + bits > b.size * 8 := by omega
  have patched : patchList (Bits.ofNat bits value.toNat) pos b = _ :=
    patchList_stored (Bits.ofNat bits value.toNat) fun i inRange => by
      rw [Bits.length_ofNat] at inRange
      omega
  unfold putBits
  rw [if_neg (by omega), if_neg inside, patched]

theorem putBits_flushed {bits : Nat} (some : 0 < bits) (value : UInt64)
    (done : b.bitpos = 8) (behind : ∀ i < bits, Behind b (pos + i)) :
    b.putBits pos value bits = .ok (patchList (Bits.ofNat bits value.toNat) pos b) := by
  have last := ((behind (bits - 1) (by omega)).flushed done).1
  exact putBits_stored some value behind (by omega)

/-- **A placeholder that has gone into the storage** is put in later as it is written at
once, also while bits are pending. -/
theorem putBits_written {b₁ b₂ : ByteBuffer} (clean : b.Clean) {bits : Nat} (some : 0 < bits)
    (value : UInt64) {f : ByteBuffer → Except ByteBufferError ByteBuffer} (keeps : Keeps f)
    (zeros : b.writeBits 0 bits = .ok b₁) (isOk : f b₁ = .ok b₂)
    (stored : b.bitwpos + bits ≤ 8 * b₂.wpos) :
    ∃ b₃, b₂.putBits b.bitwpos value bits = .ok b₃ ∧ (b.writeBits value bits >>= f) = .ok b₃ := by
  obtain ⟨same, behind⟩ := writeBitList_patched (Bits.ofNat bits value.toNat) clean
  rw [Bits.length_ofNat, ← ofNat_zero] at same behind
  change b.writeBits value bits = (b.writeBits 0 bits).map _ at same
  have behind₁ := behind b₁ zeros
  have commutes : f (patchList (Bits.ofNat bits value.toNat) b.bitwpos b₁) =
      (f b₁).map (patchList (Bits.ofNat bits value.toNat) b.bitwpos) :=
    keeps.patchList (Bits.ofNat bits value.toNat) fun i inRange =>
      behind₁ i (Bits.length_ofNat bits value.toNat ▸ inRange)
  refine ⟨patchList (Bits.ofNat bits value.toNat) b.bitwpos b₂, ?_, ?_⟩
  · exact putBits_stored some value (fun i inRange => (keeps b₁ _ (behind₁ i inRange)).2 b₂ isOk) stored
  · rw [same, zeros]
    change f (patchList (Bits.ofNat bits value.toNat) b.bitwpos b₁) = _
    rw [commutes, isOk]
    rfl

theorem bitpos_rest {ws : List FieldWrite}
    (isOk : b.writeAll (ws.map FieldWrite.call) >>= flushBits = .ok b') : b'.bitpos = 8 := by
  obtain ⟨b₁, -, flushed⟩ := bind_ok isOk
  exact bitpos_flushBits flushed

/-- **A placeholder that is put in later is the value written at once**, for every state whose
pending byte is clear where nothing has been written. -/
theorem putBits_writeField {b : ByteBuffer} (clean : b.Clean) {bits : Nat} (some : 0 < bits)
    (value : UInt64) (ws : List FieldWrite) :
    (do
      let b' ← b.writeField 0 bits ws
      b'.putBits b.bitwpos value bits) = b.writeField value bits ws ∧
    ∀ b', b.writeField 0 bits ws = .ok b' → ∃ b'', b'.putBits b.bitwpos value bits = .ok b'' := by
  let rest := fun b : ByteBuffer => b.writeAll (ws.map FieldWrite.call) >>= flushBits
  obtain ⟨same, behind⟩ := writeBitList_patched (Bits.ofNat bits value.toNat) clean
  rw [Bits.length_ofNat, ← ofNat_zero] at same behind
  change (b.writeBits 0 bits >>= rest) >>= (putBits · b.bitwpos value bits) =
      b.writeBits value bits >>= rest ∧
    ∀ b', b.writeBits 0 bits >>= rest = .ok b' → _
  change b.writeBits value bits = (b.writeBits 0 bits).map _ at same
  rw [same]
  rcases zeros : b.writeBits 0 bits with e | b₁
  · exact ⟨rfl, fun b' isOk => by cases isOk⟩
  have behind₁ := behind b₁ zeros
  have commutes : rest (patchList (Bits.ofNat bits value.toNat) b.bitwpos b₁) =
      (rest b₁).map (patchList (Bits.ofNat bits value.toNat) b.bitwpos) :=
    (keeps_rest ws).patchList (Bits.ofNat bits value.toNat) fun i inRange =>
      behind₁ i (Bits.length_ofNat bits value.toNat ▸ inRange)
  change rest b₁ >>= (putBits · b.bitwpos value bits) = rest (patchList _ b.bitwpos b₁) ∧
    ∀ b', rest b₁ = .ok b' → _
  rw [commutes]
  rcases flushed : rest b₁ with e | b₂
  · exact ⟨rfl, fun b' isOk => by cases isOk⟩
  have put := putBits_flushed some value (bitpos_rest flushed) fun i inRange =>
    (keeps_rest ws b₁ (b.bitwpos + i) (behind₁ i inRange)).2 b₂ flushed
  refine ⟨put, fun b' isOk => ?_⟩
  cases isOk
  exact ⟨_, put⟩

/-- Seven bits on three pending ones, then an integer and one more bit. -/
theorem putBits_writeField_pending : ∃ b, (fresh.writeBits 5 3) = .ok b ∧
      (do
        let b' ← b.writeField 0 7 [.int .uint16 0x1234, .writeBit 1]
        b'.putBits b.bitwpos 77 7) = b.writeField 77 7 [.int .uint16 0x1234, .writeBit 1] := by
  have clean : (⟨0, 0, 5, 0xA0, []⟩ : ByteBuffer).Clean := by decide
  exact ⟨_, rfl, (putBits_writeField clean (by decide) 77 [.int .uint16 0x1234, .writeBit 1]).1⟩

/-- A byte that has been read into two bits: the placeholder keeps what the value would
have been put over. -/
theorem readBits_putBits : ∃ b b', (do
        let b ← fresh.appendValue [0xFF]
        let (_, b) ← b.readBits 2
        .ok b) = .ok b ∧
      (do
        let b' ← b.writeField 0 1 []
        b'.putBits b.bitwpos 0 1) = .ok b' ∧
      b.writeField 0 1 [] ≠ .ok b' := by
  refine ⟨⟨1, 1, 1, 0xFF, [0xFF]⟩, ⟨1, 2, 8, 0, [0xFF, 0xFE]⟩, ?_, ?_, ?_⟩
  · rfl
  · rfl
  · decide

end ByteBuffer

end Sky548
