import Sky548.Packets.AppendBits
import Sky548.Packets.Patching

/-!
# Bits first, fields behind them

Two kinds of buffers: one that holds bytes only, to which integers, strings and bytes of GUIDs are
added, and one in which bits follow a first field. For both, what is written comes through below the
limit of `append`, and is put behind what is there.
-/

namespace Sky548

open List

open Bits

namespace WriteCall

def isField : WriteCall → Bool
  | .int _ _ => true
  | .writeString _ => true
  | .writeByteSeq _ => true
  | _ => false

def src : WriteCall → List UInt8
  | .int type value => leBytes type.size value.toNat
  | .writeString str => str
  | .writeByteSeq byte => if byte = 0 then [] else [byte ^^^ 1]
  | _ => []

end WriteCall

theorem fits_of_length {chunks : List (List UInt8)} (short : chunks.flatten.length < appendLimit) :
    Fits chunks := by
  have more : Fits (chunks ++ [[]]) := fits_append.mpr short
  exact more.of_prefix (prefix_append _ _)

theorem Layout.write_field {l : Layout} (noBits : l.tail = []) {call : WriteCall}
    (isField : call.isField = true) :
    (l.write call).tail = [] ∧ (l.write call).chunks.flatten = l.chunks.flatten ++ call.src := by
  have flushed : l.flush = l := if_pos noBits
  have pushed : ∀ src, (l.push src).tail = [] ∧
      (l.push src).chunks.flatten = l.chunks.flatten ++ src := by
    intro src
    refine ⟨noBits, ?_⟩
    change (l.chunks ++ [src]).flatten = _
    rw [flatten_append, flatten_singleton]
  cases call with
  | int type value =>
    have same : l.write (.int type value) = l.push (leBytes type.size value.toNat) := by
      change l.flush.push _ = _
      rw [flushed]
    rw [same]
    exact pushed _
  | writeString str =>
    by_cases isNil : str.length ≠ 0
    · have same : l.write (.writeString str) = l.push str := if_pos isNil
      rw [same]
      exact pushed str
    have same : l.write (.writeString str) = l := if_neg isNil
    have empty : str = [] := List.length_eq_zero_iff.mp (not_not.mp isNil)
    rw [same]
    refine ⟨noBits, ?_⟩
    change _ = _ ++ str
    rw [empty, append_nil]
  | writeByteSeq byte =>
    by_cases isZero : byte = 0
    · have same : l.write (.writeByteSeq byte) = l := if_neg (not_not.mpr isZero)
      have empty : (WriteCall.writeByteSeq byte).src = [] := if_pos isZero
      rw [same, empty, append_nil]
      exact ⟨noBits, rfl⟩
    · have same : l.write (.writeByteSeq byte) = l.push [byte ^^^ 1] := by
        change (if byte ≠ 0 then l.flush.push [byte ^^^ 1] else l) = _
        rw [if_pos isZero, flushed]
      have one : (WriteCall.writeByteSeq byte).src = [byte ^^^ 1] := if_neg isZero
      rw [same, one]
      exact pushed _
  | _ => cases isField

namespace ByteBuffer

variable {b : ByteBuffer} {bytes : List UInt8}

/-- The buffer holds these bytes, and no bits. -/
def Filled (b : ByteBuffer) (bytes : List UInt8) : Prop :=
  ∃ l, Holds b l ∧ l.tail = [] ∧ l.chunks.flatten = bytes

theorem filled_fresh : Filled fresh [] := ⟨.empty, holds_fresh, rfl, rfl⟩

theorem Filled.contents (filled : Filled b bytes) : b.storage = bytes ∧ b.wpos = bytes.length := by
  obtain ⟨l, holds, -, same⟩ := filled
  have storage : b.storage = bytes := holds.storage.trans same
  exact ⟨storage, by rw [holds.wpos, storage]⟩

theorem Filled.write (filled : Filled b bytes) {call : WriteCall} (isField : call.isField = true)
    (short : (bytes ++ call.src).length < appendLimit) :
    ∃ b', b.write call = .ok b' ∧ Filled b' (bytes ++ call.src) := by
  obtain ⟨l, holds, noBits, rfl⟩ := filled
  obtain ⟨noBits', same⟩ := Layout.write_field noBits isField
  have hasSource : call ≠ .append [] := by
    rintro rfl
    cases isField
  have fits : Fits l.chunks := fits_of_length (by rw [length_append] at short; omega)
  rcases holds.write fits hasSource with ⟨-, b', isOk, holds'⟩ | ⟨unfit, -⟩
  · exact ⟨b', isOk, _, holds', noBits', same⟩
  · exact absurd (fits_of_length (by rw [same]; exact short)) unfit

theorem Filled.writeAll (calls : List WriteCall) : ∀ {b : ByteBuffer} {bytes : List UInt8},
    Filled b bytes → (∀ call ∈ calls, call.isField = true) →
    (bytes ++ calls.flatMap WriteCall.src).length < appendLimit →
    ∃ b', b.writeAll calls = .ok b' ∧ Filled b' (bytes ++ calls.flatMap WriteCall.src) := by
  induction calls with
  | nil =>
    intro b bytes filled _ _
    refine ⟨b, rfl, ?_⟩
    rw [flatMap_nil, append_nil]
    exact filled
  | cons call rest ih =>
    intro b bytes filled areFields short
    rw [flatMap_cons, ← append_assoc] at short ⊢
    obtain ⟨b₁, isOk, filled₁⟩ := filled.write (areFields call mem_cons_self) (by
      rw [length_append] at short
      omega)
    obtain ⟨b₂, areOk, filled₂⟩ :=
      ih filled₁ (fun c member => areFields c (mem_cons_of_mem _ member)) short
    refine ⟨b₂, ?_, filled₂⟩
    rw [ByteBuffer.writeAll, isOk]
    exact areOk

theorem writeBitList_append (xs ys : List Bool) : ∀ b : ByteBuffer,
    writeBitList (xs ++ ys) b = (writeBitList xs b >>= writeBitList ys) := by
  induction xs with
  | nil => exact fun b => rfl
  | cons x rest ih =>
    intro b
    rw [cons_append, writeBitList, writeBitList]
    cases b.writeBit x with
    | error e => rfl
    | ok b' => exact ih b'

theorem writeBitList_singleton (bit : Bool) (b : ByteBuffer) :
    writeBitList [bit] b = b.writeBit bit := by
  rw [writeBitList]
  cases b.writeBit bit with
  | error e => rfl
  | ok b' => rfl

/-- The buffer holds a first field, and bits behind it. -/
def Headed (field : List UInt8) (b : ByteBuffer) (bits : List Bool) : Prop :=
  Holds b ((Layout.empty.field field).bits bits)

variable {field : List UInt8} {bits : List Bool}

theorem stream_headed (field : List UInt8) (bits : List Bool) :
    ((Layout.empty.field field).bits bits).stream = unpack field ++ bits := by
  rw [Layout.stream_bits]
  change unpack ([] ++ [field]).flatten ++ [] ++ bits = _
  rw [nil_append, flatten_singleton, append_nil]

theorem fits_headed (short : field.length + bits.length / 8 < appendLimit) :
    Fits ((Layout.empty.field field).bits bits).chunks := by
  have alone : (Layout.empty.field field).chunks.flatten = field := by
    change ([] ++ [field]).flatten = _
    rw [nil_append, flatten_singleton]
  refine Layout.fits_bits bits (fits_of_length (by rw [alone]; omega)) ?_
  rw [alone]
  change field.length + (0 + bits.length) / 8 ≤ appendLimit
  omega

theorem headed_fresh (some : field ≠ []) :
    ∃ b, fresh.appendValue field = .ok b ∧ Headed field b [] := by
  rcases holds_fresh.appendValue (by decide) some with ⟨-, b, isOk, holds⟩ | ⟨unfit, -⟩
  · exact ⟨b, isOk, holds⟩
  · exact absurd (fits_append.mpr (by decide)) unfit

section

variable (headed : Headed field b bits)

include headed

theorem Headed.clean : b.Clean := Holds.clean headed

theorem Headed.bitwpos : b.bitwpos = 8 * field.length + bits.length := by
  have stream := congrArg List.length (stream_headed field bits)
  have short := ((Layout.empty.field field).bits bits).short
  unfold Layout.stream at stream
  rw [length_append, length_append, length_unpack, length_unpack, ← headed.storage,
    ← headed.wpos] at stream
  unfold ByteBuffer.bitwpos
  rw [headed.bitpos]
  omega

theorem Headed.wpos : b.wpos = field.length + bits.length / 8 := by
  have position := headed.bitwpos
  have pending := headed.bitpos
  have short := ((Layout.empty.field field).bits bits).short
  unfold ByteBuffer.bitwpos at position
  omega

theorem Headed.writeBitList (more : List Bool)
    (short : field.length + (bits ++ more).length / 8 < appendLimit) :
    ∃ b', ByteBuffer.writeBitList more b = .ok b' ∧ Headed field b' (bits ++ more) := by
  have fits : Fits ((Layout.empty.field field).bits bits).chunks := by
    refine fits_headed ?_
    rw [length_append] at short
    omega
  have whole := Layout.bits_append (Layout.empty.field field) bits more
  rcases Holds.writeBitList more headed fits with ⟨-, b', isOk, holds⟩ | ⟨unfit, -⟩
  · exact ⟨b', isOk, by unfold Headed; rw [whole]; exact holds⟩
  · rw [← whole] at unfit
    exact absurd (fits_headed short) unfit

theorem Headed.of_writeBitList {b' : ByteBuffer} {more : List Bool}
    (short : field.length + (bits ++ more).length / 8 < appendLimit)
    (isOk : ByteBuffer.writeBitList more b = .ok b') : Headed field b' (bits ++ more) := by
  obtain ⟨b'', isOk', headed'⟩ := headed.writeBitList more short
  rw [isOk] at isOk'
  cases isOk'
  exact headed'

theorem Headed.putBits {b₁ b₂ : ByteBuffer} {n : Nat} {more : List Bool} (some : 0 < n) (value : UInt64)
    (short : field.length + (bits ++ Bits.ofNat n value.toNat ++ more).length / 8 < appendLimit)
    (zeros : b.writeBits 0 n = .ok b₁) (isOk : ByteBuffer.writeBitList more b₁ = .ok b₂)
    (enough : 8 ≤ more.length) :
    ∃ b₃, b₂.putBits b.bitwpos value n = .ok b₃ ∧
      Headed field b₃ (bits ++ Bits.ofNat n value.toNat ++ more) := by
  have lengths : (bits ++ Bits.ofNat n value.toNat ++ more).length =
      bits.length + n + more.length := by
    rw [length_append, length_append, length_ofNat]
  rw [lengths] at short
  have headed₁ := headed.of_writeBitList (by rw [length_append, length_ofNat]; omega) zeros
  have headed₂ := headed₁.of_writeBitList
    (by rw [length_append, length_append, length_ofNat]; omega) isOk
  have position := headed.bitwpos
  have stored := headed₂.wpos
  rw [length_append, length_append, length_ofNat] at stored
  obtain ⟨b₃, isPut, atOnce⟩ := putBits_written headed.clean some value
    (keeps_writeBitList more) zeros isOk (by omega)
  refine ⟨b₃, isPut, ?_⟩
  unfold writeBits at atOnce
  rw [← writeBitList_append] at atOnce
  have headed₃ := headed.of_writeBitList
    (by rw [length_append, length_append, length_ofNat]; omega) atOnce
  rw [append_assoc]
  exact headed₃

end

theorem chunks_headed (field : List UInt8) (bits : List Bool) :
    ((Layout.empty.field field).bits bits).flush.chunks.flatten = field ++ pack bits := by
  have whole := Layout.andThen_bits bits [] (Layout.empty.field field)
  have flushed := Layout.chunks_flush ((Layout.empty.field field).bits bits)
  rw [Layout.andThen] at whole
  change _ ++ packed _ = ([] ++ [field]) ++ packed ([] ++ bits) at whole
  rw [flushed, whole, nil_append, nil_append, flatten_append, flatten_singleton]
  congr 1
  unfold packed
  rw [flatten_eq_flatMap, flatMap_map]
  exact flatMap_singleton' _

theorem Headed.flushBits (headed : Headed field b bits)
    (short : (field ++ pack bits).length < appendLimit) :
    ∃ b', b.flushBits = .ok b' ∧ Filled b' (field ++ pack bits) := by
  have chunks := chunks_headed field bits
  have fits : Fits ((Layout.empty.field field).bits bits).flush.chunks :=
    fits_of_length (by rw [chunks]; exact short)
  rcases Holds.flushBits headed (fits.of_prefix (Layout.prefix_flush _)) with
    ⟨-, b', isOk, holds⟩ | ⟨unfit, -⟩
  · exact ⟨b', isOk, _, holds, Layout.tail_flush _, chunks⟩
  · exact absurd fits unfit

theorem Filled.append (filled : Filled b bytes) {src : List UInt8} (some : src ≠ [])
    (short : bytes.length < appendLimit) :
    ∃ b', b.append src = .ok b' ∧ Filled b' (bytes ++ src) := by
  obtain ⟨l, holds, noBits, rfl⟩ := filled
  rcases holds.append some with ⟨-, b', isOk, holds'⟩ | ⟨unfit, -⟩
  · refine ⟨b', isOk, l.push src, holds', noBits, ?_⟩
    change (l.chunks ++ [src]).flatten = _
    rw [flatten_append, flatten_singleton]
  · exact absurd (fits_append.mpr short) unfit

theorem Filled.append_all (filled : Filled b bytes) (src : List UInt8)
    (short : bytes.length < appendLimit) :
    ∃ b', (if src.length ≠ 0 then b.append src else .ok b) = .ok b' ∧ Filled b' (bytes ++ src) := by
  by_cases isNil : src.length = 0
  · refine ⟨b, if_neg (not_not.mpr isNil), ?_⟩
    rw [List.length_eq_zero_iff.mp isNil, append_nil]
    exact filled
  · rw [if_pos isNil]
    exact filled.append (fun same => isNil (List.length_eq_zero_iff.mpr same)) short

theorem appendValue_ok {n v : Nat} (isOk : (ofBytes bytes).appendValue (leBytes (n + 1) v) = .ok b) :
    bytes.length < appendLimit ∧ b = ofBytes (bytes ++ leBytes (n + 1) v) := by
  change (ofBytes bytes).append (_ :: leBytes n _) = _ at isOk
  unfold append at isOk
  rw [if_neg (cons_ne_nil _ _)] at isOk
  by_cases room : (ofBytes bytes).size < appendLimit
  · rw [if_neg (not_not.mpr room)] at isOk
    cases isOk
    refine ⟨room, ?_⟩
    unfold ofBytes size
    rw [take_length, Nat.sub_self, drop_of_length_le (Nat.le_add_right _ _), length_append,
      replicate_zero, append_nil, append_nil]
    rfl
  · rw [if_pos room] at isOk
    cases isOk

theorem length_pack (bits : List Bool) : (pack bits).length = (bits.length + 7) / 8 := by
  have len := length_packAfter bits (show [].length < 8 by decide)
  rw [length_nil, Nat.zero_add] at len
  exact len

theorem keeps_append_all (src : List UInt8) :
    Keeps fun b => b.flushBits >>= fun b => if src.length ≠ 0 then b.append src else .ok b := by
  by_cases isNil : src.length = 0
  · have same : (fun b : ByteBuffer => b.flushBits >>= fun b =>
        if src.length ≠ 0 then b.append src else .ok b) = ByteBuffer.flushBits := by
      funext b
      cases b.flushBits with
      | error e => rfl
      | ok b' => exact if_neg (not_not.mpr isNil)
    rw [same]
    exact keeps_flushBits
  · have same : (fun b : ByteBuffer => b.flushBits >>= fun b =>
        if src.length ≠ 0 then b.append src else .ok b) = (appendValue · src) := by
      funext b
      unfold appendValue
      cases b.flushBits with
      | error e => rfl
      | ok b' => exact if_pos isNil
    rw [same]
    exact keeps_appendValue src

theorem putBit_comm {i j : Nat} (below : i < 8) (below' : j < 8) (apart : i ≠ j) (x y : Bool)
    (byte : UInt8) : putBit i x (putBit j y byte) = putBit j y (putBit i x byte) := by
  apply eq_of_isSet
  intro k inByte
  simp only [isSet_putBit below inByte, isSet_putBit below' inByte]
  split_ifs <;> first | rfl | omega

theorem putBitList_modify (ys : List Bool) (x : Bool) : ∀ {p q : Nat} (storage : List UInt8), p < q →
    putBitList ys q (storage.modify (p / 8) (putBit (p % 8) x)) =
      (putBitList ys q storage).modify (p / 8) (putBit (p % 8) x) := by
  induction ys with
  | nil => exact fun _ _ => rfl
  | cons y rest ih =>
    intro p q storage before
    rw [putBitList, putBitList, ← ih _ (by omega)]
    by_cases same : p / 8 = q / 8
    · rw [same, modify_modify_eq, modify_modify_eq]
      congr 2
      funext byte
      exact putBit_comm (Nat.mod_lt _ (by decide)) (Nat.mod_lt _ (by decide)) (by omega) y x byte
    · rw [modify_modify_ne _ _ _ same]

theorem putBitList_putBitList (xs : List Bool) : ∀ {ys : List Bool} {pos : Nat} (storage : List UInt8),
    ys.length = xs.length → putBitList xs pos (putBitList ys pos storage) = putBitList xs pos storage := by
  induction xs with
  | nil =>
    intro ys pos storage same
    rw [length_eq_zero_iff.mp same]
    rfl
  | cons x rest ih =>
    intro ys pos storage same
    cases ys with
    | nil => cases same
    | cons y others =>
      rw [putBitList, putBitList, ← putBitList_modify others x _ (Nat.lt_succ_self pos),
        modify_modify_eq, ih _ (Nat.succ.inj same), putBitList]
      congr 2
      funext byte
      apply eq_of_isSet
      intro k inByte
      have below : pos % 8 < 8 := Nat.mod_lt _ (by decide)
      simp only [Function.comp_apply, isSet_putBit below inByte]
      split <;> rfl

theorem putBitList_packed {n : Nat} (some : 0 < n) (value : UInt64)
    (more : List Bool) (src : List UInt8)
    (short : (field ++ pack (Bits.ofNat n 0 ++ more)).length < appendLimit) :
    putBitList (Bits.ofNat n value.toNat) (8 * field.length)
        (field ++ pack (Bits.ofNat n 0 ++ more) ++ src) =
      field ++ pack (Bits.ofNat n value.toNat ++ more) ++ src := by
  have lengths : ∀ v, (Bits.ofNat n v ++ more).length = n + more.length := by
    intro v
    rw [length_append, length_ofNat]
  have packs : ∀ v, (field ++ pack (Bits.ofNat n v ++ more)).length =
      field.length + (n + more.length + 7) / 8 := by
    intro v
    rw [length_append, length_pack, lengths]
  have room : field.length + (n + more.length + 7) / 8 < appendLimit := by
    rw [← packs 0]
    exact short
  obtain ⟨b, headed⟩ : ∃ b, Headed field b [] := by
    rcases eq_or_ne field [] with rfl | first
    · exact ⟨fresh, rfl, rfl, rfl, rfl⟩
    · exact (headed_fresh first).imp fun _ => And.right
  have position := headed.bitwpos
  rw [length_nil, Nat.add_zero] at position
  obtain ⟨b₁, zeros, headed₁⟩ := headed.writeBitList (Bits.ofNat n 0) (by
    rw [nil_append, length_ofNat]
    omega)
  obtain ⟨b₂, isOk, headed₂⟩ := headed₁.writeBitList more (by
    rw [nil_append, lengths]
    omega)
  rw [nil_append] at headed₂
  obtain ⟨b₃, flushed, filled₃⟩ := headed₂.flushBits short
  obtain ⟨b₄, appended, filled₄⟩ := filled₃.append_all src short
  have last : (writeBitList more b₁ >>= fun b => b.flushBits >>= fun b =>
      if src.length ≠ 0 then b.append src else .ok b) = .ok b₄ := by
    rw [isOk]
    change (b₂.flushBits >>= _) = _
    rw [flushed]
    exact appended
  have stored : b.bitwpos + n ≤ 8 * b₄.wpos := by
    rw [filled₄.contents.2, length_append, packs, position]
    omega
  obtain ⟨b₅, isPut, atOnce⟩ := putBits_written headed.clean some value
    ((keeps_writeBitList more).bind (keeps_append_all src)) zeros last stored
  -- written at once
  obtain ⟨c₁, values, headed'⟩ := headed.writeBitList (Bits.ofNat n value.toNat) (by
    rw [nil_append, length_ofNat]
    omega)
  obtain ⟨c₂, isOk', headed''⟩ := headed'.writeBitList more (by
    rw [nil_append, lengths]
    omega)
  rw [nil_append] at headed''
  have short' : (field ++ pack (Bits.ofNat n value.toNat ++ more)).length < appendLimit := by
    rw [packs]
    exact room
  obtain ⟨c₃, flushed', filled'⟩ := headed''.flushBits short'
  obtain ⟨c₄, appended', filled''⟩ := filled'.append_all src short'
  have reached : b₅ = c₄ := by
    unfold writeBits at atOnce
    rw [values] at atOnce
    change (writeBitList more c₁ >>= _) = _ at atOnce
    rw [isOk'] at atOnce
    change (c₂.flushBits >>= _) = _ at atOnce
    rw [flushed'] at atOnce
    exact (Except.ok.inj (appended'.symm.trans atOnce)).symm
  unfold putBits at isPut
  by_cases noBits : n = 0
  · omega
  rw [if_neg noBits] at isPut
  by_cases beyond : b.bitwpos + n > b₄.size * 8
  · rw [if_pos beyond] at isPut
    cases isPut
  rw [if_neg beyond] at isPut
  have storage := congrArg storage (Except.ok.inj isPut)
  rw [reached, filled''.contents.1] at storage
  rw [filled₄.contents.1, position] at storage
  exact storage

end ByteBuffer

end Sky548
