import Mathlib.Data.List.Basic

/-!
# Framed byte streams

A stream of frames, each a header and a payload: how long the next header is depends on the state of
the connection, how long the payload is on the header. The reader below takes the stream one element
at a time, so how the stream was cut before it was read cannot matter to it (`Reader.feed_append`).

Nothing here mentions the game server.
-/

namespace Sky548

open List

/-- How the frames of a stream of `β` are read in states `σ`, with decoded headers `φ`. -/
structure Framing (β σ φ : Type*) where
  headerSize : σ → Nat
  headerSize_pos : ∀ s, 0 < headerSize s
  /-- Decode a whole header; `none` if it is malformed. -/
  readHeader : σ → List β → Option (φ × σ)
  payloadSize : φ → Nat
  /-- Handle a frame; `none` if nothing more is read after it. -/
  deliver : σ → φ → List β → Option σ

namespace Framing

variable {β σ φ : Type*}

/-- Where in the stream a reader is. -/
inductive Phase (β φ : Type*)
  | header (held : List β)
  | payload (frame : φ) (held : List β)
  | malformed
  | refused

/-- A reader: its state, where it is, the frames it has handed on and how much it has taken. -/
structure Reader (β σ φ : Type*) where
  state : σ
  phase : Phase β φ
  frames : List (φ × List β)
  taken : Nat

def Reader.start (s : σ) : Reader β σ φ := ⟨s, .header [], [], 0⟩

variable (F : Framing β σ φ)

namespace Reader

variable (r : Reader β σ φ)

/-- A whole frame is handed on. -/
def finish (frame : φ) (body : List β) : Reader β σ φ :=
  match F.deliver r.state frame body with
  | some s => { r with state := s, phase := .header [], frames := r.frames ++ [(frame, body)] }
  | none => { r with phase := .refused, frames := r.frames ++ [(frame, body)] }

/-- A payload has come as far as `held`. -/
def hold (frame : φ) (held : List β) : Reader β σ φ :=
  if held.length < F.payloadSize frame then { r with phase := .payload frame held }
  else r.finish F frame held

def opened (header : List β) : Reader β σ φ :=
  match F.readHeader r.state header with
  | none => { r with phase := .malformed }
  | some (frame, s) => hold F { r with state := s } frame []

/-- A header has come as far as `held`. -/
def await (held : List β) : Reader β σ φ :=
  if held.length < F.headerSize r.state then { r with phase := .header held } else r.opened F held

def push (b : β) : Reader β σ φ :=
  match r.phase with
  | .header held => await F { r with taken := r.taken + 1 } (held ++ [b])
  | .payload frame held => hold F { r with taken := r.taken + 1 } frame (held ++ [b])
  | .malformed => r
  | .refused => r

def feed (bytes : List β) : Reader β σ φ := bytes.foldl (push F) r

@[simp] theorem feed_nil : r.feed F [] = r := rfl

theorem feed_append (a b : List β) : r.feed F (a ++ b) = (r.feed F a).feed F b :=
  foldl_append

variable {F} {r}

variable {held : List β}

theorem hold_of_lt {frame : φ} (short : held.length < F.payloadSize frame) :
    r.hold F frame held = { r with phase := .payload frame held } := if_pos short

theorem hold_of_le {frame : φ} (whole : F.payloadSize frame ≤ held.length) :
    r.hold F frame held = r.finish F frame held := if_neg (Nat.not_lt.mpr whole)

theorem feed_of_short {place : List β → Phase β φ} {size : Nat} (pushed : ∀ (q : Reader β σ φ) held b,
      q.state = r.state → q.phase = place held → (held ++ [b]).length < size →
        q.push F b = { q with phase := place (held ++ [b]), taken := q.taken + 1 })
    (bytes : List β) (phase : r.phase = place held) (short : held.length + bytes.length < size) :
    r.feed F bytes = { r with phase := place (held ++ bytes), taken := r.taken + bytes.length } := by
  induction bytes generalizing r held with
  | nil =>
    rw [feed_nil, append_nil, ← phase]
    rfl
  | cons b rest ih =>
    rw [length_cons] at short
    rw [feed, foldl_cons, pushed r held b rfl phase (by simp only [length_append, length_singleton]; omega)]
    refine (ih (by exact pushed) rfl ?_).trans ?_
    · simp only [length_append, length_singleton]
      omega
    · simp only [append_assoc, singleton_append, length_cons]
      rw [Nat.add_assoc, Nat.add_comm 1]

theorem feed_of_header_lt (bytes : List β) (phase : r.phase = .header held)
    (short : held.length + bytes.length < F.headerSize r.state) :
    r.feed F bytes =
      { r with phase := .header (held ++ bytes), taken := r.taken + bytes.length } := by
  refine feed_of_short (fun q held b same phase short => ?_) bytes phase short
  rw [push, phase]
  exact if_pos (by rwa [same])

theorem feed_of_header_eq (bytes : List β) (phase : r.phase = .header held)
    (some' : bytes ≠ []) (whole : held.length + bytes.length = F.headerSize r.state) :
    r.feed F bytes = opened F { r with taken := r.taken + bytes.length } (held ++ bytes) := by
  obtain ⟨front, b, rfl⟩ := bytes.eq_nil_or_concat'.resolve_left some'
  rw [length_append, length_singleton] at whole
  rw [feed_append, feed_of_header_lt front phase (by omega), feed, foldl_cons, foldl_nil, push]
  dsimp only
  rw [await, if_neg (by simp only [length_append, length_singleton]; omega),
    append_assoc, length_append, length_singleton, Nat.add_assoc]
  rfl

theorem feed_of_payload_lt {frame : φ} (bytes : List β) (phase : r.phase = .payload frame held)
    (short : held.length + bytes.length < F.payloadSize frame) :
    r.feed F bytes =
      { r with phase := .payload frame (held ++ bytes), taken := r.taken + bytes.length } := by
  refine feed_of_short (fun q held b _ phase short => ?_) bytes phase short
  rw [push, phase]
  exact if_pos short

theorem feed_of_payload_eq {frame : φ} (bytes : List β)
    (phase : r.phase = .payload frame held) (some' : bytes ≠ [])
    (whole : held.length + bytes.length = F.payloadSize frame) :
    r.feed F bytes = finish F { r with taken := r.taken + bytes.length } frame (held ++ bytes) := by
  obtain ⟨front, b, rfl⟩ := bytes.eq_nil_or_concat'.resolve_left some'
  rw [length_append, length_singleton] at whole
  rw [feed_append, feed_of_payload_lt front phase (by omega), feed, foldl_cons, foldl_nil, push]
  dsimp only
  rw [hold, if_neg (by simp only [length_append, length_singleton]; omega),
    append_assoc, length_append, length_singleton, Nat.add_assoc]
  rfl

theorem feed_of_malformed (bytes : List β) (phase : r.phase = .malformed) : r.feed F bytes = r := by
  refine foldlRecOn (motive := (· = r)) bytes _ rfl fun q same b _ => ?_
  rw [same, push, phase]

theorem feed_of_refused (bytes : List β) (phase : r.phase = .refused) : r.feed F bytes = r := by
  refine foldlRecOn (motive := (· = r)) bytes _ rfl fun q same b _ => ?_
  rw [same, push, phase]

end Reader

end Framing

end Sky548
