import Sky548.Packets.ByteBuffer

/-!
# What a buffer holds

`Layout` says what a buffer is that has been written to: the pieces that were appended,
one after another, and the bits that are pending. Every writing operation is one on
layouts, as long as no piece is appended from the size on at which `append` asserts.
-/

namespace Sky548

open List

open Bits

theorem ByteBuffer.bind_ok {α β : Type} {x : Except ByteBufferError α} {f : α → Except ByteBufferError β}
    {c : β} (isOk : x >>= f = .ok c) : ∃ a, x = .ok a ∧ f a = .ok c := by
  cases x with
  | error e => cases isOk
  | ok a => exact ⟨a, rfl, isOk⟩

theorem ByteBuffer.ok_bind {α β : Type} (a : α) (f : α → Except ByteBufferError β) :
    (Except.ok a >>= f) = f a := rfl

/-- Pieces that can be appended: the last of them begins below the limit. -/
def Fits (chunks : List (List UInt8)) : Prop := chunks.dropLast.flatten.length < appendLimit

instance (chunks : List (List UInt8)) : Decidable (Fits chunks) :=
  inferInstanceAs (Decidable (_ < _))

theorem fits_append {chunks : List (List UInt8)} {src : List UInt8} :
    Fits (chunks ++ [src]) ↔ chunks.flatten.length < appendLimit := by
  unfold Fits
  rw [dropLast_concat]

theorem Fits.of_prefix {chunks later : List (List UInt8)} (fits : Fits later)
    (isPrefix : chunks <+: later) : Fits chunks := by
  obtain ⟨more, rfl⟩ := isPrefix
  refine Nat.lt_of_le_of_lt ?_ fits
  cases more with
  | nil => rw [append_nil]
  | cons first rest =>
    have onto : (chunks ++ first :: rest).dropLast = chunks ++ (first :: rest).dropLast :=
      dropLast_append_of_ne_nil (cons_ne_nil first rest)
    rw [onto, flatten_append, length_append]
    obtain ⟨last, whole⟩ := dropLast_prefix chunks
    have split := congrArg (fun cs => cs.flatten.length) whole
    rw [flatten_append, length_append] at split
    omega

/-- What has been appended, and the pending bits. -/
structure Layout where
  chunks : List (List UInt8)
  tail : List Bool
  short : tail.length < 8

namespace Layout

def empty : Layout := ⟨[], [], by decide⟩

/-- Append a piece without a look at the pending bits. -/
def push (l : Layout) (src : List UInt8) : Layout := ⟨l.chunks ++ [src], l.tail, l.short⟩

def flush (l : Layout) : Layout :=
  if l.tail = [] then l else ⟨l.chunks ++ [[toByte l.tail]], [], by decide⟩

def bit (l : Layout) (bit : Bool) : Layout :=
  if isLast : l.tail.length = 7 then ⟨l.chunks ++ [[toByte (l.tail ++ [bit])]], [], by decide⟩
  else ⟨l.chunks, l.tail ++ [bit], by
    have := l.short
    rw [length_append, length_singleton]
    omega⟩

def bits (l : Layout) (bits : List Bool) : Layout := bits.foldl bit l

def field (l : Layout) (src : List UInt8) : Layout := l.flush.push src

variable (l : Layout)

@[simp] theorem tail_flush : l.flush.tail = [] := by
  unfold flush
  split
  · assumption
  · rfl

theorem prefix_push (src : List UInt8) : l.chunks <+: (l.push src).chunks :=
  prefix_append _ _

theorem prefix_flush : l.chunks <+: l.flush.chunks := by
  unfold flush
  split
  · exact prefix_refl _
  · exact prefix_append _ _

theorem prefix_bit (bit : Bool) : l.chunks <+: (l.bit bit).chunks := by
  unfold Layout.bit
  split
  · exact prefix_append _ _
  · exact prefix_refl _

theorem prefix_bits (bits : List Bool) : ∀ l : Layout, l.chunks <+: (l.bits bits).chunks := by
  induction bits with
  | nil => exact fun l => prefix_refl _
  | cons bit rest ih => exact fun l => (l.prefix_bit bit).trans (ih (l.bit bit))

theorem length_tail_bit (bit : Bool) : (l.bit bit).tail.length = (l.tail.length + 1) % 8 := by
  have short := l.short
  unfold Layout.bit
  split
  · rename_i isLast
    rw [isLast]
    rfl
  · rw [length_append, length_singleton, Nat.mod_eq_of_lt (by omega)]

theorem length_tail_bits (bits : List Bool) : ∀ l : Layout,
    (l.bits bits).tail.length = (l.tail.length + bits.length) % 8 := by
  induction bits with
  | nil => exact fun l => (Nat.mod_eq_of_lt l.short).symm
  | cons bit rest ih =>
    intro l
    have step := ih (l.bit bit)
    rw [l.length_tail_bit] at step
    change ((l.bit bit).bits rest).tail.length = _
    rw [step, length_cons]
    omega

end Layout

namespace ByteBuffer

structure Holds (b : ByteBuffer) (l : Layout) : Prop where
  storage : b.storage = l.chunks.flatten
  wpos : b.wpos = b.storage.length
  bitpos : b.bitpos = 8 - l.tail.length
  curbitval : b.curbitval = toByte l.tail

/-- The result of writing the layout, or of failing at the limit. -/
def Writes (r : Except ByteBufferError ByteBuffer) (l : Layout) : Prop :=
  (Fits l.chunks ∧ ∃ b, r = .ok b ∧ Holds b l) ∨ (¬ Fits l.chunks ∧ r = .error .assertion)

variable {b : ByteBuffer} {l l' : Layout} {r : Except ByteBufferError ByteBuffer}

theorem holds_fresh : Holds fresh .empty := ⟨rfl, rfl, rfl, rfl⟩

theorem Holds.writes (holds : Holds b l) (fits : Fits l.chunks) : Writes (.ok b) l :=
  Or.inl ⟨fits, b, rfl, holds⟩

theorem Writes.bind {f : ByteBuffer → Except ByteBufferError ByteBuffer} (writes : Writes r l)
    (isPrefix : l.chunks <+: l'.chunks)
    (next : ∀ b, Holds b l → Fits l.chunks → Writes (f b) l') : Writes (r >>= f) l' := by
  rcases writes with ⟨fits, b, rfl, holds⟩ | ⟨unfit, rfl⟩
  · exact next b holds fits
  · exact Or.inr ⟨fun fits => unfit (fits.of_prefix isPrefix), rfl⟩

theorem Writes.ok (writes : Writes (.ok b) l) : Fits l.chunks ∧ Holds b l := by
  rcases writes with ⟨fits, b', isOk, holds⟩ | ⟨-, isError⟩
  · cases isOk
    exact ⟨fits, holds⟩
  · cases isError

theorem Holds.append (holds : Holds b l) {src : List UInt8} (isSrc : src ≠ []) :
    Writes (b.append src) (l.push src) := by
  have size : b.size = l.chunks.flatten.length := congrArg List.length holds.storage
  unfold ByteBuffer.append
  rw [if_neg isSrc]
  by_cases below : b.size < appendLimit
  · rw [if_neg (not_not.mpr below)]
    have atEnd : b.storage.take b.wpos ++ List.replicate (b.wpos - b.size) 0 ++ src ++
        b.storage.drop (b.wpos + src.length) = b.storage ++ src := by
      have same : b.size = b.storage.length := rfl
      rw [holds.wpos, same, take_length, Nat.sub_self, replicate_zero, append_nil,
        drop_of_length_le (Nat.le_add_right _ _), append_nil]
    refine Or.inl ⟨fits_append.mpr (size ▸ below), _, rfl, ?_, ?_, holds.bitpos, holds.curbitval⟩
    · change _ = (l.chunks ++ [src]).flatten
      rw [flatten_append, flatten_singleton, ← holds.storage]
      exact atEnd
    · rw [atEnd, length_append, holds.wpos]
  · rw [if_pos below]
    exact Or.inr ⟨fun fits => below (size ▸ fits_append.mp fits), rfl⟩

theorem Holds.flushBits (holds : Holds b l) (fits : Fits l.chunks) :
    Writes b.flushBits l.flush := by
  have short := l.short
  unfold ByteBuffer.flushBits
  by_cases isNil : l.tail = []
  · have full : b.bitpos = 8 := by
      rw [holds.bitpos, isNil]
      rfl
    have same : l.flush = l := if_pos isNil
    rw [if_pos full, same]
    exact holds.writes fits
  · have pos := length_pos_of_ne_nil isNil
    have pending : b.bitpos ≠ 8 := by
      rw [holds.bitpos]
      omega
    have same : l.flush = ⟨l.chunks ++ [[toByte l.tail]], [], by decide⟩ := if_neg isNil
    rw [if_neg pending, holds.curbitval]
    refine (holds.append (cons_ne_nil (toByte l.tail) [])).bind ?_ fun b' holds' fits' => ?_
    · rw [same]
      exact prefix_refl _
    · rw [same]
      exact Or.inl ⟨fits', _, rfl, holds'.storage, holds'.wpos, rfl, rfl⟩

theorem Holds.appendValue (holds : Holds b l) (fits : Fits l.chunks) {src : List UInt8}
    (isSrc : src ≠ []) : Writes (b.appendValue src) (l.field src) :=
  (holds.flushBits fits).bind (l.flush.prefix_push src) fun _ holds' _ => holds'.append isSrc

theorem toByte_append (bits : List Bool) (bit : Bool) :
    toByte (bits ++ [bit]) =
      if bit then toByte bits ||| 1 <<< UInt8.ofNat (8 - bits.length - 1) else toByte bits := by
  unfold toByte
  rw [packFrom_append]
  cases bit with
  | true => rfl
  | false => exact UInt8.or_zero

theorem Holds.writeBit (holds : Holds b l) (fits : Fits l.chunks) (bit : Bool) :
    Writes (b.writeBit bit) (l.bit bit) := by
  have curbitval : (if bit = true then b.curbitval ||| 1 <<< UInt8.ofNat (b.bitpos - 1)
      else b.curbitval) = toByte (l.tail ++ [bit]) := by
    rw [toByte_append l.tail bit, holds.curbitval, holds.bitpos]
  unfold ByteBuffer.writeBit
  dsimp only
  rw [curbitval, holds.bitpos]
  by_cases isLast : l.tail.length = 7
  · have same : l.bit bit = ⟨l.chunks ++ [[toByte (l.tail ++ [bit])]], [], by decide⟩ := dif_pos isLast
    have done : 8 - l.tail.length - 1 = 0 := by omega
    rw [if_pos done, same]
    let full : Layout := ⟨l.chunks, [], by decide⟩
    have unchanged : Holds { b with bitpos := 8, curbitval := 0 } full :=
      ⟨holds.storage, holds.wpos, rfl, rfl⟩
    have written := unchanged.append (cons_ne_nil (toByte (l.tail ++ [bit])) [])
    unfold ByteBuffer.append at written ⊢
    rw [if_neg (cons_ne_nil _ _)] at written ⊢
    change Writes (if ¬ b.size < appendLimit then _ else _) _ at written
    change Writes ((if ¬ b.size < appendLimit then _ else _) >>= _) _
    by_cases below : b.size < appendLimit
    · rw [if_neg (not_not.mpr below)] at written ⊢
      obtain ⟨fits', holds'⟩ := written.ok
      exact Or.inl ⟨fits', _, rfl, holds'.storage, holds'.wpos, rfl, rfl⟩
    rw [if_pos below] at written ⊢
    rcases written with ⟨-, _, isOk, -⟩ | ⟨unfit, -⟩
    · cases isOk
    · exact Or.inr ⟨unfit, rfl⟩
  · have short := l.short
    have more : ¬ 8 - l.tail.length - 1 = 0 := by omega
    have same : (l.bit bit).tail = l.tail ++ [bit] ∧ (l.bit bit).chunks = l.chunks := by
      unfold Layout.bit
      rw [dif_neg isLast]
      exact ⟨rfl, rfl⟩
    rw [if_neg more]
    refine Or.inl ⟨same.2.symm ▸ fits, _, rfl, ?_, holds.wpos, ?_, ?_⟩
    · rw [same.2]
      exact holds.storage
    · rw [same.1, length_append, length_singleton]
      exact Nat.sub_sub _ _ _
    · rw [same.1]

theorem Holds.writeBitList (bits : List Bool) : ∀ {b : ByteBuffer} {l : Layout}, Holds b l →
    Fits l.chunks → Writes (ByteBuffer.writeBitList bits b) (l.bits bits) := by
  induction bits with
  | nil => exact fun holds fits => holds.writes fits
  | cons bit rest ih =>
    intro b l holds fits
    exact (holds.writeBit fits bit).bind (Layout.prefix_bits rest _) fun _ holds' fits' =>
      ih holds' fits'

end ByteBuffer

end Sky548
