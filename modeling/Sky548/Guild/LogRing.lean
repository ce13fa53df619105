import Mathlib.Data.List.Nodup
import Mathlib.Data.Nat.ModEq
import Sky548.Machine

/-!
# The guild's logs

A `LogHolder` keeps the newest entries of a log in a list, the oldest in front, and hands
out guids below the number of records it may have. In the database an entry replaces the
row that has its guid; in the list it takes the place of the front. As long as the guids
in the list follow each other around the ring, both are the same entry.
-/

namespace Sky548

open List

/-- `n` numbers that follow each other modulo `m`. -/
def ring (m first n : Nat) : List Nat := (List.range n).map fun i => (first + i) % m

namespace Ring

variable {m : Nat}

theorem ring_succ (first n : Nat) : ring m first (n + 1) = ring m first n ++ [(first + n) % m] := by
  rw [ring, range_succ, map_append]
  rfl

theorem ring_cons (first n : Nat) : ring m first (n + 1) = first % m :: ring m (first + 1) n := by
  rw [ring, range_succ_eq_map, map_cons, List.map_map, Nat.add_zero]
  congr 1
  apply map_congr_left
  intro i _
  change (first + (i + 1)) % m = (first + 1 + i) % m
  rw [Nat.add_assoc, Nat.add_comm 1 i]

theorem lt_of_mem (pos : 0 < m) {first n k : Nat} (member : k ∈ ring m first n) : k < m := by
  obtain ⟨i, -, rfl⟩ := List.mem_map.mp member
  exact Nat.mod_lt _ pos

theorem nodup_ring {first n : Nat} (few : n ≤ m) : (ring m first n).Nodup := by
  refine Nodup.map_on ?_ nodup_range
  intro i inRange j inRange' same
  have below := List.mem_range.mp inRange
  have below' := List.mem_range.mp inRange'
  have modEq : i ≡ j [MOD m] := Nat.ModEq.add_left_cancel' first same
  exact Nat.ModEq.eq_of_lt_of_lt modEq (by omega) (by omega)

theorem next_of_full (first : Nat) : (first + m) % m = first % m := Nat.add_mod_right first m

end Ring

/-- An entry of a log: what its row is found by beside the guid (the guild's id, and the
tab for the bank's logs), the guid, and the rest. -/
structure LogEntry (κ δ : Type*) where
  key : κ
  guid : UInt32
  data : δ

structure GuildEventRecord where
  eventType : UInt8
  playerGuid1 : UInt32
  playerGuid2 : UInt32
  newRank : UInt8
  timestamp : UInt64

structure GuildBankEventRecord where
  eventType : UInt8
  playerGuid : UInt32
  itemOrMoney : UInt64
  itemStackCount : UInt16
  destTabId : UInt8
  timestamp : UInt64

abbrev EventLogEntry := LogEntry UInt32 GuildEventRecord

abbrev BankEventLogEntry := LogEntry (UInt32 × UInt8) GuildBankEventRecord

def guildEventLogGuidUndefined : UInt32 := 0xFFFFFFFF

structure LogHolder (κ δ : Type*) where
  log : List (LogEntry κ δ)
  maxRecords : UInt32
  nextGUID : UInt32

variable {κ δ : Type*}

/-- `SaveToDB`: the row with the key and the guid is deleted, and the entry inserted. -/
def saveToDB [DecidableEq κ] (table : List (LogEntry κ δ)) (entry : LogEntry κ δ) :
    List (LogEntry κ δ) :=
  (table.filter fun row => ¬ (row.key = entry.key ∧ row.guid = entry.guid)) ++ [entry]

def rowsOf [DecidableEq κ] (key : κ) (table : List (LogEntry κ δ)) : List (LogEntry κ δ) :=
  table.filter fun row => row.key = key

namespace LogHolder

def ofMax (maxRecords : UInt32) : LogHolder κ δ := ⟨[], maxRecords, guildEventLogGuidUndefined⟩

variable (h : LogHolder κ δ)

def canInsert : Bool := h.log.length < h.maxRecords.toNat

def loadEvent (entry : LogEntry κ δ) : LogHolder κ δ :=
  { h with
    log := entry :: h.log
    nextGUID := if h.nextGUID = guildEventLogGuidUndefined then entry.guid else h.nextGUID }

def getNextGUID : UInt32 × LogHolder κ δ :=
  let nextGUID := if h.nextGUID = guildEventLogGuidUndefined then 0
    else (h.nextGUID + 1) % h.maxRecords
  (nextGUID, { h with nextGUID := nextGUID })

/-- `AddEvent`, but for `SaveToDB`. -/
def addEvent (entry : LogEntry κ δ) : LogHolder κ δ :=
  { h with log := (if h.log.length ≥ h.maxRecords.toNat then h.log.tail else h.log) ++ [entry] }

/-- A holder that is loaded from rows, the newest first. -/
def load (maxRecords : UInt32) (rows : List (LogEntry κ δ)) : LogHolder κ δ :=
  rows.foldl (fun h row => if h.canInsert then h.loadEvent row else h) (ofMax maxRecords)

end LogHolder

/-- A log and its table, which other logs have rows in, too. -/
structure LogWorld (κ δ : Type*) where
  holder : LogHolder κ δ
  table : List (LogEntry κ δ)

/-- A new event, or a restart of the server. -/
inductive LogInput (δ : Type*)
  | event (data : δ)
  | restart

namespace LogWorld

variable [DecidableEq κ]

/-- `AddEvent` of an entry with the guid of `GetNextGUID`, or `LoadEvent` of the rows. -/
def step (key : κ) (w : LogWorld κ δ) : LogInput δ → LogWorld κ δ
  | .event data =>
    let (guid, holder) := w.holder.getNextGUID
    let entry : LogEntry κ δ := ⟨key, guid, data⟩
    { holder := holder.addEvent entry, table := saveToDB w.table entry }
  | .restart => { w with holder := .load w.holder.maxRecords (rowsOf key w.table).reverse }

/-- **The log and its rows**: no more entries than there may be, guids below that number
and none of them twice, and the rows are the entries. -/
structure Sound (key : κ) (m : UInt32) (w : LogWorld κ δ) : Prop where
  length : w.holder.log.length ≤ m.toNat
  nodup : (w.holder.log.map LogEntry.guid).Nodup
  below : ∀ entry ∈ w.holder.log, entry.guid < m
  rows : rowsOf key w.table = w.holder.log

end LogWorld

/-- Guids as a run leaves them: one after another around the ring. -/
def Consecutive (m : UInt32) (entries : List (LogEntry κ δ)) : Prop :=
  ∃ first, (entries.map fun entry => entry.guid.toNat) = ring m.toNat first entries.length

/-- The guid that `GetNextGUID` counts from. -/
def lastGUID (entries : List (LogEntry κ δ)) : UInt32 :=
  (entries.getLast?.map LogEntry.guid).getD guildEventLogGuidUndefined

section Rows

variable [DecidableEq κ]

theorem rowsOf_saveToDB (table : List (LogEntry κ δ)) (entry : LogEntry κ δ) :
    rowsOf entry.key (saveToDB table entry) =
      ((rowsOf entry.key table).filter fun row => row.guid ≠ entry.guid) ++ [entry] := by
  have own : rowsOf entry.key [entry] = [entry] := by
    unfold rowsOf
    rw [filter_cons_of_pos (by simp), filter_nil]
  unfold saveToDB
  rw [rowsOf, filter_append]
  change _ ++ rowsOf entry.key [entry] = _
  rw [own, rowsOf, List.filter_filter, List.filter_filter]
  congr 1
  apply filter_congr
  intro row _
  by_cases same : row.key = entry.key
  · simp [same]
  · simp [same]

end Rows

/-! ## Guids around the ring -/

section Guids

variable {m : UInt32} {entries : List (LogEntry κ δ)}

theorem lastGUID_concat (entries : List (LogEntry κ δ)) (entry : LogEntry κ δ) :
    lastGUID (entries ++ [entry]) = entry.guid := by
  unfold lastGUID
  rw [getLast?_concat]
  rfl

theorem Consecutive.below (pos : 0 < m) (ring : Consecutive m entries) :
    ∀ entry ∈ entries, entry.guid < m := by
  intro entry member
  obtain ⟨first, guids⟩ := ring
  have inRing : entry.guid.toNat ∈ Sky548.ring m.toNat first entries.length := by
    rw [← guids]
    exact List.mem_map_of_mem member
  exact UInt32.lt_iff_toNat_lt.mpr (Ring.lt_of_mem (UInt32.lt_iff_toNat_lt.mp pos) inRing)

theorem Consecutive.nodup (few : entries.length ≤ m.toNat) (ring : Consecutive m entries) :
    (entries.map LogEntry.guid).Nodup := by
  obtain ⟨first, guids⟩ := ring
  have nodup : (entries.map fun entry => entry.guid.toNat).Nodup := by
    rw [guids]
    exact Ring.nodup_ring few
  apply Nodup.of_map UInt32.toNat
  rw [List.map_map]
  exact nodup

theorem ne_undefined {guid : UInt32} (below : guid < m) : guid ≠ guildEventLogGuidUndefined := by
  rintro rfl
  have most := m.toNat_lt
  rw [UInt32.lt_iff_toNat_lt] at below
  change 4294967295 < m.toNat at below
  omega

theorem nextGUID_toNat (pos : 0 < m) (ring : Consecutive m entries) :
    ∃ first, (entries.map fun entry => entry.guid.toNat) =
        Sky548.ring m.toNat first entries.length ∧
      (if lastGUID entries = guildEventLogGuidUndefined then 0
        else (lastGUID entries + 1) % m).toNat = (first + entries.length) % m.toNat := by
  rcases eq_nil_or_concat' entries with rfl | ⟨front, last, rfl⟩
  · have unset : lastGUID ([] : List (LogEntry κ δ)) = guildEventLogGuidUndefined := rfl
    refine ⟨0, rfl, ?_⟩
    rw [if_pos unset]
    exact (Nat.zero_mod _).symm
  · have below := ring.below pos last (by simp)
    obtain ⟨first, guids⟩ := ring
    have lastNat : last.guid.toNat = (first + front.length) % m.toNat := by
      rw [map_append, length_append, length_singleton, Ring.ring_succ] at guids
      have ends := (append_inj' guids rfl).2
      exact (List.cons.inj ends).1
    -- the sum is at most the maximum, so the 32 bits hold it
    have most := m.toNat_lt
    have small : last.guid.toNat + 1 < 2 ^ 32 := by
      rw [UInt32.lt_iff_toNat_lt] at below
      omega
    have sum : (last.guid + 1).toNat = last.guid.toNat + 1 := by
      rw [UInt32.toNat_add]
      exact Nat.mod_eq_of_lt small
    refine ⟨first, guids, ?_⟩
    rw [lastGUID_concat, if_neg (ne_undefined below), UInt32.toNat_mod, sum, lastNat, Nat.mod_add_mod,
      length_append, length_singleton, Nat.add_assoc]

theorem addEvent_spec {entry : LogEntry κ δ} (pos : 0 < m) (few : entries.length ≤ m.toNat)
    {first : Nat} (guids : (entries.map fun entry => entry.guid.toNat) =
      Sky548.ring m.toNat first entries.length)
    (next : entry.guid.toNat = (first + entries.length) % m.toNat) :
    let kept := if entries.length ≥ m.toNat then entries.tail else entries
    kept.length + 1 ≤ m.toNat ∧ Consecutive m (kept ++ [entry]) ∧
      (entries.filter fun row => row.guid ≠ entry.guid) = kept := by
  by_cases full : entries.length ≥ m.toNat
  · have whole : entries.length = m.toNat := Nat.le_antisymm few full
    have some : 0 < m.toNat := UInt32.lt_iff_toNat_lt.mp pos
    rw [if_pos full]
    cases entries with
    | nil => exact absurd whole (Nat.ne_of_lt some)
    | cons oldest rest =>
      have nodup := Consecutive.nodup few ⟨first, guids⟩
      rw [length_cons] at whole guids next
      rw [map_cons, Ring.ring_cons] at guids
      obtain ⟨isFirst, others⟩ := List.cons.inj guids
      have again : entry.guid = oldest.guid := by
        apply UInt32.toNat_inj.mp
        rw [next, isFirst, whole, Ring.next_of_full]
      refine ⟨?_, ⟨first + 1, ?_⟩, ?_⟩
      · exact whole.le
      · have onto : first + 1 + rest.length = first + (rest.length + 1) := by omega
        rw [tail_cons, map_append, others, length_append, length_singleton,
          Ring.ring_succ, onto, ← next]
        rfl
      · rw [map_cons, nodup_cons] at nodup
        rw [again, filter_cons_of_neg (by simp), tail_cons, filter_eq_self]
        intro row member
        rw [decide_eq_true_iff]
        intro same
        exact nodup.1 (same ▸ List.mem_map_of_mem member)
  · have room : entries.length + 1 ≤ m.toNat := by omega
    have longer : ((entries ++ [entry]).map fun entry => entry.guid.toNat) =
        Sky548.ring m.toNat first (entries ++ [entry]).length := by
      rw [map_append, guids, length_append, length_singleton, Ring.ring_succ, ← next]
      rfl
    have fits : (entries ++ [entry]).length ≤ m.toNat := by
      rw [length_append]
      exact room
    have nodup := Consecutive.nodup fits ⟨first, longer⟩
    rw [if_neg full]
    refine ⟨room, ⟨first, longer⟩, ?_⟩
    rw [filter_eq_self]
    intro row member
    rw [decide_eq_true_iff]
    intro same
    rw [map_append, nodup_append] at nodup
    exact nodup.2.2 row.guid (List.mem_map_of_mem member) entry.guid (by simp) same

end Guids

section Loading

variable {m : UInt32}

theorem foldl_loadEvent (rows : List (LogEntry κ δ)) : ∀ {h : LogHolder κ δ},
    h.maxRecords = m → h.log.length + rows.length ≤ m.toNat →
    (∀ row ∈ rows, row.guid ≠ guildEventLogGuidUndefined) →
      rows.foldl (fun h row => if h.canInsert then h.loadEvent row else h) h = { h with
          log := rows.reverse ++ h.log
          nextGUID := if h.nextGUID = guildEventLogGuidUndefined then
              (rows.head?.map LogEntry.guid).getD guildEventLogGuidUndefined
            else h.nextGUID } := by
  induction rows with
  | nil =>
    intro h _ _ _
    rw [foldl_nil]
    obtain ⟨log, maxRecords, nextGUID⟩ := h
    split
    · rename_i unset
      cases unset
      rfl
    · rfl
  | cons row rest ih =>
    intro h isMax room guids
    rw [length_cons] at room
    have canInsert : h.canInsert = true := by
      unfold LogHolder.canInsert
      rw [isMax, decide_eq_true_iff]
      omega
    have room' : (h.loadEvent row).log.length + rest.length ≤ m.toNat := by
      change h.log.length + 1 + rest.length ≤ m.toNat
      omega
    have loaded := ih (h := h.loadEvent row) isMax room' fun other member =>
      guids other (mem_cons_of_mem row member)
    have isSet : (h.loadEvent row).nextGUID ≠ guildEventLogGuidUndefined := by
      unfold LogHolder.loadEvent
      split
      · exact guids row mem_cons_self
      · assumption
    rw [foldl_cons, if_pos canInsert, loaded, if_neg isSet, reverse_cons, append_assoc]
    rfl

theorem load_reverse {rows : List (LogEntry κ δ)} (few : rows.length ≤ m.toNat) (pos : 0 < m)
    (ring : Consecutive m rows) :
    LogHolder.load m rows.reverse = ⟨rows, m, lastGUID rows⟩ := by
  have guids : ∀ row ∈ rows.reverse, row.guid ≠ guildEventLogGuidUndefined := fun row member =>
    ne_undefined (ring.below pos row (List.mem_reverse.mp member))
  have room : (LogHolder.ofMax m : LogHolder κ δ).log.length + rows.reverse.length ≤ m.toNat := by
    rw [length_reverse]
    exact (Nat.zero_add _).le.trans few
  have loaded := foldl_loadEvent rows.reverse (h := LogHolder.ofMax m) rfl room guids
  unfold LogHolder.load
  rw [loaded, reverse_reverse, head?_reverse]
  change (⟨rows ++ [], m, _⟩ : LogHolder κ δ) = _
  rw [append_nil]
  rfl

end Loading

namespace LogWorld

variable [DecidableEq κ] {key : κ} {m : UInt32} {w : LogWorld κ δ}

/-- What a log and its rows are at every moment. -/
structure Inv (key : κ) (m : UInt32) (w : LogWorld κ δ) : Prop where
  maxRecords : w.holder.maxRecords = m
  few : w.holder.log.length ≤ m.toNat
  ring : Consecutive m w.holder.log
  next : w.holder.nextGUID = lastGUID w.holder.log
  rows : rowsOf key w.table = w.holder.log

theorem Inv.sound (inv : Inv key m w) (pos : 0 < m) : Sound key m w :=
  ⟨inv.few, inv.ring.nodup inv.few, inv.ring.below pos, inv.rows⟩

theorem Inv.restart (inv : Inv key m w) (pos : 0 < m) : Inv key m (w.step key .restart) := by
  have same : (w.step key .restart).holder = ⟨w.holder.log, m, lastGUID w.holder.log⟩ := by
    change LogHolder.load w.holder.maxRecords (rowsOf key w.table).reverse = _
    rw [inv.maxRecords, inv.rows, load_reverse inv.few pos inv.ring]
  refine ⟨?_, ?_, ?_, ?_, ?_⟩
  · rw [same]
  · rw [same]
    exact inv.few
  · rw [same]
    exact inv.ring
  · rw [same]
  · rw [same]
    exact inv.rows

theorem Inv.event (inv : Inv key m w) (pos : 0 < m) (data : δ) :
    Inv key m (w.step key (.event data)) := by
  obtain ⟨maxRecords, few, ring, next, rows⟩ := inv
  obtain ⟨first, guids, goesOn⟩ := nextGUID_toNat pos ring
  let entry : LogEntry κ δ := ⟨key, w.holder.getNextGUID.1, data⟩
  have guid : entry.guid.toNat = (first + w.holder.log.length) % m.toNat := by
    rw [← goesOn, ← next, ← maxRecords]
    rfl
  obtain ⟨room, consecutive, filtered⟩ := addEvent_spec pos few guids guid
  rw [← maxRecords] at room consecutive filtered
  have log : (w.step key (.event data)).holder.log =
      (if w.holder.log.length ≥ w.holder.maxRecords.toNat then w.holder.log.tail
        else w.holder.log) ++ [entry] := rfl
  refine ⟨maxRecords, ?_, ?_, ?_, ?_⟩
  · rw [log, ← maxRecords, length_append]
    exact room
  · rw [log, ← maxRecords]
    exact consecutive
  · rw [log, lastGUID_concat]
    rfl
  · have table : rowsOf key (w.step key (.event data)).table = _ :=
      rowsOf_saveToDB w.table entry
    rw [table, log]
    rw [rows, filtered]

/-- **The log is a ring, and its rows are the log**, over any events and restarts after
loading what an earlier run has left. -/
theorem throughout_sound (pos : 0 < m) {rows table : List (LogEntry κ δ)}
    (few : rows.length ≤ m.toNat) (ring : Consecutive m rows) (stored : rowsOf key table = rows)
    (inputs : List (LogInput δ)) :
    Machine.Throughout (step key) (Sound key m) ⟨.load m rows.reverse, table⟩ inputs := by
  have start : Inv key m ⟨.load m rows.reverse, table⟩ := by
    rw [load_reverse few pos ring]
    exact ⟨rfl, few, ring, rfl, stored⟩
  have keeps : Machine.Throughout (step key) (Inv key m) ⟨.load m rows.reverse, table⟩ inputs := by
    apply Machine.Throughout.of_step start
    intro w input inv
    cases input with
    | event data => exact inv.event pos data
    | restart => exact inv.restart pos
  exact Machine.Throughout.mono (fun w inv => inv.sound pos) keeps

def joined (guildId guid player : UInt32) : EventLogEntry := ⟨guildId, guid, ⟨2, player, 0, 0, 50⟩⟩

/-- Three records, the ring around its end when it is loaded. -/
theorem throughout_sound_three : Machine.Throughout (step 1) (Sound 1 3)
      ⟨.load 3 [joined 1 0 9, joined 1 2 8], [joined 2 0 7, joined 1 2 8, joined 1 0 9]⟩
      [.event ⟨3, 9, 8, 1, 80⟩, .restart, .event ⟨6, 8, 0, 0, 90⟩] := by
  have ring : Consecutive 3 [joined 1 2 8, joined 1 0 9] := ⟨2, by decide⟩
  exact throughout_sound (by decide) (by decide) ring rfl _

end LogWorld

end Sky548
