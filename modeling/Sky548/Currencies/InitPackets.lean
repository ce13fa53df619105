import Sky548.Currencies.Calls
import Sky548.Mail.ListPacket
import Sky548.Packets.Decoding
import Sky548.Packets.Fields

/-!
# The packets of currencies

`SendNewCurrency` and `SendCurrencies` write one message, of one currency and of all. Bits say which
fields follow; the two writers do not agree on their order, and neither on the week cap.
-/

namespace Sky548

open List Bits ByteBuffer

/-- The currency rows, with their `Flags`. -/
structure CurrencyTable extends CurrencyRules where
  rowFlags : UInt32 → UInt32

structure FlaggedCurrency extends PlayerCurrency where
  flags : UInt8

/-- `_currencyStorage`, in the order in which it is gone through. -/
structure CurrencySheet where
  storage : List (UInt32 × FlaggedCurrency)
  conquestTotalWeekCap : UInt32

structure SentCurrency where
  id : UInt32
  weekCount : UInt32
  weekCap : UInt32
  seasonCount : UInt32
  totalCount : UInt32
  flags : UInt8
  deriving DecidableEq

namespace CurrencySheet

def currencyFlagHighPrecision : UInt32 := 8

variable (table : CurrencyTable) (sheet : CurrencySheet)

def precision (entry : CurrencyTypesEntry) : UInt32 :=
  if table.rowFlags entry.id &&& currencyFlagHighPrecision ≠ 0 then currencyPrecision else 1

def weekCap (entry : CurrencyTypesEntry) : UInt32 :=
  (⟨fun _ => none, sheet.conquestTotalWeekCap⟩ : Purse).getCurrencyWeekCap table.toCurrencyRules entry

def sentRow (id : UInt32) : Option CurrencyTypesEntry :=
  (table.lookupEntry id).filter fun entry => entry.category ≠ currencyCategoryMetaConquest

def words (ws : List UInt32) : List WriteCall := ws.map fun w => .int .uint32 w.toUInt64

/-- A field that is sent if it is not 0. -/
def field (w : UInt32) : List UInt32 := if w ≠ 0 then [w] else []

def newCurrency (entry : CurrencyTypesEntry) (cur : FlaggedCurrency) : SentCurrency where
  id := entry.id
  weekCount := cur.weekCount / precision table entry
  weekCap := sheet.weekCap table entry / precision table entry
  seasonCount := cur.seasonCount / precision table entry
  totalCount := cur.totalCount / precision table entry
  flags := cur.flags

def newBits (c : SentCurrency) : List Bool :=
  decide (c.weekCount ≠ 0) :: (Bits.ofNat 5 c.flags.toNat ++
    [decide (c.weekCap ≠ 0), decide (c.seasonCount ≠ 0)])

def newWords (c : SentCurrency) : List UInt32 :=
  field c.seasonCount ++ [c.id] ++ field c.weekCount ++ [c.totalCount] ++ field c.weekCap

def sendNewCurrency (id : UInt32) : Except ByteBufferError (Option ByteBuffer) :=
  match sheet.storage.lookup id with
  | none => .ok none
  | some cur => do
    let packet ← fresh.writeBits 1 21
    match sentRow table id with
    | none => .ok none
    | some entry => do
      let packet ← writeBitList (newBits (sheet.newCurrency table entry cur)) packet
      let currencyData ← fresh.writeAll (words (newWords (sheet.newCurrency table entry cur)))
      let packet ← packet.flushBits
      let packet ← packet.appendBuffer currencyData
      .ok (some packet)

def listedCurrency (entry : CurrencyTypesEntry) (cur : FlaggedCurrency) : SentCurrency where
  id := entry.id
  weekCount :=
    if entry.id = currencyTypeHonorPoints then 0 else cur.weekCount / precision table entry
  weekCap := if entry.id = currencyTypeHonorPoints then 0 else sheet.weekCap table entry
  seasonCount := cur.seasonCount / precision table entry
  totalCount := cur.totalCount / precision table entry
  flags := cur.flags

def listedBits (c : SentCurrency) : List Bool :=
  decide (c.seasonCount ≠ 0) :: (Bits.ofNat 5 c.flags.toNat ++
    [decide (c.weekCap ≠ 0), decide (c.weekCount ≠ 0)])

def listedWords (c : SentCurrency) : List UInt32 :=
  field c.weekCount ++ [c.id] ++ field c.seasonCount ++ [c.totalCount] ++ field c.weekCap

/-- The loop: the packet, `currencyData` and the count. -/
def writeCurrencies : List (UInt32 × FlaggedCurrency) → ByteBuffer → ByteBuffer → UInt64 →
    Except ByteBufferError (ByteBuffer × ByteBuffer × UInt64)
  | [], packet, currencyData, count => .ok (packet, currencyData, count)
  | (id, cur) :: rest, packet, currencyData, count =>
    match sentRow table id with
    | none => writeCurrencies rest packet currencyData count
    | some entry => do
      let packet ← writeBitList (listedBits (sheet.listedCurrency table entry cur)) packet
      let currencyData ← currencyData.writeAll (words (listedWords (sheet.listedCurrency table entry cur)))
      writeCurrencies rest packet currencyData (count + 1)

def sendCurrencies : Except ByteBufferError ByteBuffer := do
  let countPos := fresh.bitwpos
  let packet ← fresh.writeBits (UInt64.ofNat sheet.storage.length) 21
  let (packet, currencyData, count) ← sheet.writeCurrencies table sheet.storage packet fresh 0
  let packet ← packet.flushBits
  let packet ← packet.appendBuffer currencyData
  packet.putBits countPos count 21

def listed (storage : List (UInt32 × FlaggedCurrency)) : List SentCurrency :=
  storage.filterMap fun entry => (sentRow table entry.1).map fun row =>
    sheet.listedCurrency table row entry.2

/-- The flags of a currency, and which fields follow. -/
structure CurrencyHead where
  hasSeason : Bool
  flags : UInt8
  hasCap : Bool
  hasWeek : Bool

def readHead : Reader CurrencyHead := do
  let hasSeason ← Reader.bit
  let flags ← Reader.bits 5
  let hasCap ← Reader.bit
  let hasWeek ← Reader.bit
  pure ⟨hasSeason, .ofNat flags.toNat, hasCap, hasWeek⟩

def readField (isThere : Bool) : Reader UInt32 := if isThere then Reader.uint32 else pure 0

def readCurrency (head : CurrencyHead) : Reader SentCurrency := do
  let weekCount ← readField head.hasWeek
  let id ← Reader.uint32
  let seasonCount ← readField head.hasSeason
  let totalCount ← Reader.uint32
  let weekCap ← readField head.hasCap
  pure ⟨id, weekCount, weekCap, seasonCount, totalCount, head.flags⟩

def readCurrencies : Reader (List SentCurrency) := do
  let count ← Reader.bits 21
  let heads ← Reader.each (replicate count.toNat readHead)
  Reader.each (heads.map readCurrency)

def wordBytes (ws : List UInt32) : List UInt8 := ws.flatMap fun w => leBytes 4 w.toUInt64.toNat

def packetBytes (cs : List SentCurrency) : List UInt8 :=
  pack (Bits.ofNat 21 cs.length ++ cs.flatMap listedBits) ++ wordBytes (cs.flatMap listedWords)

theorem wordBytes_append (ws more : List UInt32) :
    wordBytes (ws ++ more) = wordBytes ws ++ wordBytes more :=
  flatMap_append

theorem length_wordBytes (ws : List UInt32) : (wordBytes ws).length = 4 * ws.length := by
  induction ws with
  | nil => rfl
  | cons w rest ih =>
    change (leBytes 4 _ ++ wordBytes rest).length = _
    rw [length_append, length_leBytes, ih, length_cons]
    omega

theorem words_ok (ws : List UInt32) : ∀ {bytes : List UInt8} {b : ByteBuffer},
    (ofBytes bytes).writeAll (words ws) = .ok b →
    b = ofBytes (bytes ++ wordBytes ws) ∧
      (bytes.length < appendLimit + 4 → (bytes ++ wordBytes ws).length < appendLimit + 4) := by
  induction ws with
  | nil =>
    intro bytes b isOk
    cases isOk
    rw [wordBytes, flatMap_nil, append_nil]
    exact ⟨rfl, id⟩
  | cons w rest ih =>
    intro bytes b isOk
    obtain ⟨_, first, isOk⟩ := bind_ok isOk
    obtain ⟨room, rfl⟩ := appendValue_ok first
    obtain ⟨same, short⟩ := ih isOk
    rw [append_assoc] at same short
    refine ⟨same, fun _ => short ?_⟩
    rw [length_append, length_leBytes]
    omega

variable {table sheet} {packet : ByteBuffer}

theorem writeCurrencies_ok (storage : List (UInt32 × FlaggedCurrency)) :
    ∀ {packet : ByteBuffer} {bytes : List UInt8} {count : UInt64} {r},
    sheet.writeCurrencies table storage packet (ofBytes bytes) count = .ok r →
    ∃ packet' n, writeBitList ((sheet.listed table storage).flatMap listedBits) packet = .ok packet' ∧
      r = (packet', ofBytes (bytes ++ wordBytes ((sheet.listed table storage).flatMap listedWords)),
        count + UInt64.ofNat n) ∧ n = (sheet.listed table storage).length ∧
      (bytes.length < appendLimit + 4 →
        (bytes ++ wordBytes ((sheet.listed table storage).flatMap listedWords)).length <
          appendLimit + 4) := by
  induction storage with
  | nil =>
    intro packet bytes count r isOk
    cases isOk
    refine ⟨packet, 0, rfl, ?_, rfl, ?_⟩ <;>
      rw [show wordBytes ((sheet.listed table []).flatMap listedWords) = [] from rfl, append_nil]
    · rw [show UInt64.ofNat 0 = 0 from rfl, UInt64.add_zero]
    · exact id
  | cons entry rest ih =>
    obtain ⟨id, cur⟩ := entry
    intro packet bytes count r isOk
    rw [writeCurrencies] at isOk
    unfold listed
    cases isRow : sentRow table id with
    | none =>
      rw [isRow] at isOk
      rw [filterMap_cons_none (by rw [isRow]; rfl)]
      exact ih isOk
    | some row =>
      rw [isRow] at isOk
      rw [filterMap_cons_some (by rw [isRow]; rfl)]
      obtain ⟨packet₁, isBits, isOk⟩ := bind_ok isOk
      obtain ⟨_, isWords, isOk⟩ := bind_ok isOk
      obtain ⟨rfl, short⟩ := words_ok _ isWords
      obtain ⟨packet', n, areBits, same, isLength, short'⟩ := ih isOk
      refine ⟨packet', n + 1, ?_, ?_, ?_, ?_⟩
      · rw [flatMap_cons, writeBitList_append, isBits]
        exact areBits
      · rw [same, flatMap_cons, wordBytes_append, append_assoc, UInt64.add_assoc,
          UInt64.add_comm 1, UInt64.ofNat_add]
        rfl
      · rw [length_cons, isLength]
        rfl
      · intro room
        have all := short' (short room)
        rw [append_assoc, ← wordBytes_append, ← flatMap_cons] at all
        exact all

theorem lengths (cs : List SentCurrency) : (cs.flatMap listedBits).length = 8 * cs.length ∧
    2 * cs.length ≤ (cs.flatMap listedWords).length := by
  induction cs with
  | nil => exact ⟨rfl, Nat.zero_le _⟩
  | cons c rest ih =>
    have bits : (listedBits c).length = 8 := by
      rw [listedBits, length_cons, length_append, length_ofNat]
      rfl
    have words : 2 ≤ (listedWords c).length := by
      simp only [listedWords, length_append, length_singleton]
      omega
    simp only [flatMap_cons, length_append, length_cons, bits]
    omega

theorem packet_ok {v : UInt64} {cs : List SentCurrency} {packet₁ packet₂ packet₃ packet₄ : ByteBuffer}
    (short : (wordBytes (cs.flatMap listedWords)).length < appendLimit + 4)
    (isCount : fresh.writeBits v 21 = .ok packet₁)
    (areBits : writeBitList (cs.flatMap listedBits) packet₁ = .ok packet₂)
    (isFlushed : packet₂.flushBits = .ok packet₃)
    (isOk : packet₃.appendBuffer (ofBytes (wordBytes (cs.flatMap listedWords))) = .ok packet₄) :
    8 * cs.length < appendLimit + 4 ∧
      packet₄.storage = pack (Bits.ofNat 21 v.toNat ++ cs.flatMap listedBits) ++
        wordBytes (cs.flatMap listedWords) := by
  obtain ⟨bits, words⟩ := lengths cs
  rw [length_wordBytes] at short
  have len : (Bits.ofNat 21 v.toNat ++ cs.flatMap listedBits).length = 21 + 8 * cs.length := by
    rw [length_append, length_ofNat, bits]
  unfold appendLimit at short
  have empty : Headed [] fresh [] := ⟨rfl, rfl, rfl, rfl⟩
  have counted := empty.of_writeBitList (by rw [nil_append, length_ofNat]; decide) isCount
  have written := counted.of_writeBitList (by
    rw [nil_append, len]
    unfold appendLimit
    change 0 + _ < _
    omega) areBits
  rw [nil_append] at written
  have packed : (pack (Bits.ofNat 21 v.toNat ++ cs.flatMap listedBits)).length < appendLimit := by
    rw [length_pack, len]
    unfold appendLimit
    omega
  obtain ⟨_, flushed, filled⟩ := written.flushBits packed
  cases isFlushed.symm.trans flushed
  obtain ⟨_, appended, filled⟩ := filled.append_all (wordBytes (cs.flatMap listedWords)) packed
  unfold appendBuffer at isOk
  change (if _ then packet₃.append (take _ (wordBytes _)) else _) = _ at isOk
  rw [show (ofBytes (wordBytes (cs.flatMap listedWords))).wpos =
    (wordBytes (cs.flatMap listedWords)).length from rfl, take_length] at isOk
  cases isOk.symm.trans appended
  unfold appendLimit
  exact ⟨by omega, filled.contents.1⟩

theorem putBitList_counted {v w : UInt64} {bits : List Bool} {src : List UInt8}
    (short : bits.length < appendLimit + 4) :
    putBitList (Bits.ofNat 21 v.toNat) 0 (pack (Bits.ofNat 21 w.toNat ++ bits) ++ src) =
      pack (Bits.ofNat 21 v.toNat ++ bits) ++ src := by
  have packed : ∀ u : UInt64, putBitList (Bits.ofNat 21 u.toNat) 0
      (pack (Bits.ofNat 21 0 ++ bits) ++ src) = pack (Bits.ofNat 21 u.toNat ++ bits) ++ src := by
    intro u
    refine @putBitList_packed [] 21 (by decide) u bits src ?_
    rw [nil_append, length_pack, length_append, length_ofNat]
    unfold appendLimit at short ⊢
    omega
  rw [← packed w, putBitList_putBitList _ _ (by rw [length_ofNat, length_ofNat]), packed]

theorem sendCurrencies_ok {data : ByteBuffer} (isOk : sheet.sendCurrencies table = .ok data) :
    data.storage = packetBytes (sheet.listed table sheet.storage) ∧
      (sheet.listed table sheet.storage).length < 2 ^ 21 := by
  obtain ⟨_, isCount, isOk⟩ := bind_ok isOk
  obtain ⟨_, loop, isOk⟩ := bind_ok isOk
  obtain ⟨_, n, areBits, rfl, isLength, short⟩ := @writeCurrencies_ok table sheet sheet.storage _ [] _ _ loop
  obtain ⟨_, isFlushed, isOk⟩ := bind_ok isOk
  obtain ⟨packet, isPacket, put⟩ := bind_ok isOk
  obtain ⟨few, storage⟩ := packet_ok (short (by decide)) isCount areBits isFlushed isPacket
  have fewer : (sheet.listed table sheet.storage).length < 2 ^ 21 := by
    unfold appendLimit at few
    omega
  refine ⟨?_, fewer⟩
  unfold putBits at put
  rw [if_neg (by decide)] at put
  split at put
  · cases put
  have patched := congrArg ByteBuffer.storage (Except.ok.inj put)
  have counted : (0 + UInt64.ofNat n).toNat = n := by
    rw [UInt64.zero_add, UInt64.toNat_ofNat', isLength]
    omega
  dsimp only at patched
  rw [← patched, storage]
  refine (putBitList_counted (by rw [(lengths _).1]; exact few)).trans ?_
  rw [counted, isLength]
  rfl

/-- What is sent of one currency, as it is read: week and season in each other's place. -/
def swap (c : SentCurrency) : SentCurrency :=
  { c with weekCount := c.seasonCount, seasonCount := c.weekCount }

theorem sendNewCurrency_ok {id : UInt32} {cur : FlaggedCurrency} {entry : CurrencyTypesEntry}
    {new : ByteBuffer} (isStored : sheet.storage.lookup id = some cur)
    (isRow : sentRow table id = some entry)
    (isOk : sheet.sendNewCurrency table id = .ok (some new)) :
    new.storage = packetBytes [swap (sheet.newCurrency table entry cur)] := by
  have bits : newBits (sheet.newCurrency table entry cur) =
      [swap (sheet.newCurrency table entry cur)].flatMap listedBits := (append_nil _).symm
  have words : newWords (sheet.newCurrency table entry cur) =
      [swap (sheet.newCurrency table entry cur)].flatMap listedWords := (append_nil _).symm
  unfold sendNewCurrency at isOk
  rw [isStored] at isOk
  obtain ⟨_, isCount, isOk⟩ := bind_ok isOk
  rw [isRow] at isOk
  simp only [bits, words] at isOk
  obtain ⟨_, areBits, isOk⟩ := bind_ok isOk
  obtain ⟨_, isWords, isOk⟩ := bind_ok isOk
  obtain ⟨rfl, short⟩ := @words_ok _ [] _ isWords
  obtain ⟨_, isFlushed, isOk⟩ := bind_ok isOk
  obtain ⟨_, isPacket, isOk⟩ := bind_ok isOk
  cases isOk
  exact (packet_ok (short (by decide)) isCount areBits isFlushed isPacket).2

def headOf (c : SentCurrency) : CurrencyHead :=
  ⟨decide (c.seasonCount ≠ 0), .ofNat (c.flags.toNat % 32), decide (c.weekCap ≠ 0),
    decide (c.weekCount ≠ 0)⟩

def narrowed (c : SentCurrency) : SentCurrency := { c with flags := .ofNat (c.flags.toNat % 32) }

variable {bytes after : List UInt8}

theorem yields_head (c : SentCurrency) (rem : List Bool) {pad : Nat} :
    Yields (BeforeBits bytes (listedBits c ++ rem) pad after) readHead (headOf c)
      (BeforeBits bytes rem pad after) := by
  rw [listedBits, cons_append, append_assoc]
  refine (yields_bit _).bind ((yields_bits (by decide) _).bind ?_)
  refine (yields_bit _).bind ((yields_bit _).bind ?_)
  have flags : (UInt32.ofNat (c.flags.toNat % 2 ^ 5)).toNat = c.flags.toNat % 32 := by
    rw [UInt32.toNat_ofNat']
    omega
  rw [flags]
  exact Yields.pure _

theorem yields_word (w : UInt32) :
    Yields (BeforeBytes bytes (wordBytes [w] ++ after)) Reader.uint32 w (BeforeBytes bytes after) := by
  rw [wordBytes, flatMap_singleton]
  exact yields_uint32 w

theorem yields_field (w : UInt32) :
    Yields (BeforeBytes bytes (wordBytes (field w) ++ after)) (readField (decide (w ≠ 0))) w
      (BeforeBytes bytes after) := by
  by_cases isZero : w = 0
  · rw [isZero]
    exact Yields.pure 0
  · rw [field, if_pos isZero, decide_eq_true isZero]
    exact yields_word w

theorem yields_currency (c : SentCurrency) (after : List UInt8) :
    Yields (BeforeBytes bytes (wordBytes (listedWords c) ++ after)) (readCurrency (headOf c))
      (narrowed c) (BeforeBytes bytes after) := by
  simp only [listedWords, wordBytes_append, append_assoc]
  refine (yields_field _).bind ((yields_word _).bind ?_)
  refine (yields_field _).bind ((yields_word _).bind ?_)
  exact (yields_field _).bind (Yields.pure _)

theorem readCurrencies_ok {cs : List SentCurrency} (few : cs.length < 2 ^ 21) :
    ∃ b, readCurrencies (ofBytes (packetBytes cs)) = .ok (cs.map narrowed, b) ∧
      b.rpos = (packetBytes cs).length := by
  have words : wordBytes (cs.flatMap listedWords) =
      cs.flatMap (fun c => wordBytes (listedWords c)) ++ [] := flatMap_assoc.trans (append_nil _).symm
  obtain ⟨bytes, isPacket⟩ : ∃ bytes, bytes = packetBytes cs := ⟨_, rfl⟩
  have start := beforeBytes_ofBytes bytes
  rw [← isPacket]
  nth_rewrite 2 [isPacket] at start
  rw [packetBytes, words] at start
  obtain ⟨pad, fewer, before⟩ := beforeBits_of_bytes start rfl
  have count : (UInt32.ofNat (cs.length % 2 ^ 21)).toNat = cs.length := by
    rw [UInt32.toNat_ofNat']
    omega
  have heads := @yields_eachBits bytes (cs.flatMap (fun c => wordBytes (listedWords c)) ++ []) []
    pad _ _ (fun _ => readHead) headOf listedBits cs fun c _ rem => yields_head c rem
  rw [map_const', append_nil] at heads
  have entries := @yields_eachBytes bytes [] _ _ (fun c => readCurrency (headOf c)) narrowed
    (fun c => wordBytes (listedWords c)) cs fun c _ after => yields_currency c after
  have all : Yields (BeforeBits bytes (Bits.ofNat 21 cs.length ++ cs.flatMap listedBits) pad
      (cs.flatMap (fun c => wordBytes (listedWords c)) ++ [])) readCurrencies (cs.map narrowed)
      (BeforeBytes bytes []) := by
    refine (yields_bits (by decide) cs.length).bind ?_
    rw [count]
    refine (heads.mono fun b => beforeBytes_of_bits fewer).bind ?_
    rw [List.map_map]
    exact entries
  obtain ⟨b, isRead, atEnd⟩ := all _ before
  exact ⟨b, isRead, rpos_of_nothing atEnd⟩

theorem narrowed_eq_iff (c : SentCurrency) : narrowed c = c ↔ c.flags < 32 := by
  have flags : narrowed c = c ↔ UInt8.ofNat (c.flags.toNat % 32) = c.flags := by
    constructor
    · exact congrArg SentCurrency.flags
    · exact fun same => congrArg (fun flags => { c with flags := flags }) same
  rw [flags, UInt8.lt_iff_toNat_lt, ← UInt8.toNat_inj, UInt8.toNat_ofNat']
  change _ ↔ _ < 32
  omega

theorem packetBytes_one_inj {c d : SentCurrency} (same : packetBytes [c] = packetBytes [d]) :
    narrowed c = narrowed d := by
  obtain ⟨b, isRead, -⟩ := @readCurrencies_ok [c] (Nat.one_lt_two_pow (by decide))
  obtain ⟨b', isRead', -⟩ := @readCurrencies_ok [d] (Nat.one_lt_two_pow (by decide))
  rw [same, isRead'] at isRead
  exact (cons.inj (Prod.mk.inj (Except.ok.inj isRead)).1).1.symm

def Decodable (table : CurrencyTable) (sheet : CurrencySheet) (data : ByteBuffer) : Prop :=
  ∃ b, readCurrencies (ofBytes data.storage) = .ok (sheet.listed table sheet.storage, b) ∧
    b.rpos = data.size

theorem decodable_iff_flags {data : ByteBuffer} (isOk : sheet.sendCurrencies table = .ok data) :
    Decodable table sheet data ↔ ∀ c ∈ sheet.listed table sheet.storage, c.flags < 32 := by
  obtain ⟨storage, few⟩ := sendCurrencies_ok isOk
  obtain ⟨b, isRead, atEnd⟩ := readCurrencies_ok few
  unfold Decodable ByteBuffer.size
  rw [storage, isRead]
  constructor
  · rintro ⟨b', same, -⟩ c member
    have kept := (Prod.mk.inj (Except.ok.inj same)).1
    rw [← narrowed_eq_iff]
    exact List.map_inj_left.mp (kept.trans (map_id _).symm) c member
  · intro small
    have kept := map_congr_left fun c member => (narrowed_eq_iff c).mpr (small c member)
    rw [kept, map_id']
    exact ⟨b, rfl, atEnd⟩

/-- **The writers agree** exactly if the week and the season count that are sent are one and the
same, the division leaves the week cap, and no flags are above the five bits. -/
theorem agree_iff {id : UInt32} {cur : FlaggedCurrency} {entry : CurrencyTypesEntry}
    {new one data : ByteBuffer} (isStored : sheet.storage.lookup id = some cur)
    (isRow : sentRow table id = some entry) (notHonor : entry.id ≠ currencyTypeHonorPoints)
    (isNew : sheet.sendNewCurrency table id = .ok (some new))
    (isOne : ({ sheet with storage := [(id, cur)] } : CurrencySheet).sendCurrencies table = .ok one)
    (isOk : sheet.sendCurrencies table = .ok data) :
    new.storage = one.storage ∧ Decodable table sheet data ↔
      (cur.weekCount / precision table entry = cur.seasonCount / precision table entry ∧
        sheet.weekCap table entry / precision table entry = sheet.weekCap table entry) ∧
      ∀ c ∈ sheet.listed table sheet.storage, c.flags < 32 := by
  obtain ⟨isList, -⟩ := sendCurrencies_ok isOne
  have single : ({ sheet with storage := [(id, cur)] } : CurrencySheet).listed table [(id, cur)] =
      [sheet.listedCurrency table entry cur] := by
    rw [listed, filterMap_cons_some (by rw [isRow]; rfl)]
    rfl
  rw [single] at isList
  rw [decodable_iff_flags isOk, sendNewCurrency_ok isStored isRow isNew, isList]
  refine and_congr_left fun _ => ?_
  have listed : sheet.listedCurrency table entry cur = ⟨entry.id, cur.weekCount / precision table entry,
      sheet.weekCap table entry, cur.seasonCount / precision table entry,
      cur.totalCount / precision table entry, cur.flags⟩ := by
    rw [listedCurrency, if_neg notHonor, if_neg notHonor]
  rw [listed]
  constructor
  · intro same
    obtain ⟨-, week, cap, -⟩ := SentCurrency.mk.inj (packetBytes_one_inj same)
    exact ⟨week.symm, cap⟩
  · rintro ⟨week, cap⟩
    unfold swap newCurrency
    rw [week, cap]

def tokenTable : CurrencyTable where
  toCurrencyRules := Purse.CappedToken.threeRows
  rowFlags _ := 0

def tokenOf (weekCount : UInt32) : FlaggedCurrency := ⟨⟨.unchanged, 40, weekCount, 0⟩, 0⟩

def tokenSheet (weekCount : UInt32) : CurrencySheet := ⟨[(61, tokenOf weekCount)], 0⟩

theorem agree_token : ∃ new one : ByteBuffer, new.storage = one.storage ∧
    Decodable tokenTable (tokenSheet 0) one := by
  refine ⟨_, _, (@agree_iff tokenTable (tokenSheet 0) 61 (tokenOf 0) Purse.CappedToken.token _ _ _
    rfl rfl (by decide) rfl rfl rfl).mpr ⟨by decide, ?_⟩⟩
  decide

/-- Five tokens of this week, and none of the season: the two packets differ in their bits. -/
theorem not_agree_week : ∃ new one,
    (tokenSheet 5).sendNewCurrency tokenTable 61 = .ok (some new) ∧
      (tokenSheet 5).sendCurrencies tokenTable = .ok one ∧
      ¬ (new.storage = one.storage ∧ Decodable tokenTable (tokenSheet 5) one) := by
  refine ⟨_, _, rfl, rfl, ?_⟩
  rintro ⟨same, -⟩
  revert same
  decide

end CurrencySheet

end Sky548
