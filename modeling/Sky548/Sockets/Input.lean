import Sky548.Framing
import Sky548.Sockets.Header

/-!
# Receiving packets

The input of a `WorldSocket`. What `recv` returns is copied into one of three buffers, the header
of the plain packets (`m_Header`), the header of the encrypted ones (`m_WorldHeader`) and the
payload (`m_RecvPct`), and a packet is handed to `ProcessIncoming` when both its parts are there.

What `ProcessIncoming` does is a parameter: it may refuse the packet, and it may set up the cipher.
-/

namespace Sky548

/-- `ProcessIncoming`, in states `σ` of the session: `none` for `-1`, and a key stream if the
packet has set up the cipher. -/
abbrev ProcessIncoming (σ : Type*) := σ → Packet → Option (σ × Option KeyStream)

/-- Why a socket reads no further. -/
inductive InputError
  | malformed
  | noPacket
  | refused
  deriving DecidableEq

/-- The input of a socket, with the packets it has handed on and how much it has read. -/
structure InputSocket (σ : Type*) where
  session : σ
  /-- the key stream of `_clientDecrypt` once the cipher is set up -/
  crypt : Option KeyStream
  header : List UInt8
  worldHeader : List UInt8
  /-- the opcode of `m_RecvWPct`, if there is such a packet -/
  recvWPct : Option UInt16
  recvPct : List UInt8
  recvPctSize : Nat
  packets : List Packet
  taken : Nat
  error : Option InputError

/-- The bytes that `recv` is given room for. -/
def recvSize : Nat := 4096

/-- What one `recv` returns. -/
abbrev Chunk := { bytes : List UInt8 // bytes ≠ [] ∧ bytes.length ≤ recvSize }

namespace InputSocket

variable {σ : Type*}

def opened (session : σ) : InputSocket σ where
  session := session
  crypt := none
  header := []
  worldHeader := []
  recvWPct := none
  recvPct := []
  recvPctSize := 0
  packets := []
  taken := 0
  error := none

variable (process : ProcessIncoming σ) (s : InputSocket σ)

def currentHeader : List UInt8 :=
  match s.crypt with
  | some _ => s.worldHeader
  | none => s.header

def headerSize : Nat :=
  match s.crypt with
  | some _ => worldClientPktHeaderSize
  | none => authClientPktHeaderSize

def headerSpace : Nat := s.headerSize - s.currentHeader.length

def copyHeader (bytes : List UInt8) : InputSocket σ :=
  match s.crypt with
  | some _ => { s with worldHeader := s.worldHeader ++ bytes, taken := s.taken + bytes.length }
  | none => { s with header := s.header ++ bytes, taken := s.taken + bytes.length }

def recvPctSpace : Nat := s.recvPctSize - s.recvPct.length

def expect (header : UInt16 × Nat) : InputSocket σ :=
  { s with recvWPct := some header.1, recvPct := [], recvPctSize := header.2 }

def handleInputHeader : Except InputError (InputSocket σ) :=
  match s.crypt with
  | some crypt =>
    let s := { s with
      worldHeader := crypt.apply s.worldHeader
      crypt := some (crypt.advance worldClientPktHeaderSize) }
    match readWorldHeader s.worldHeader with
    | none => .error .malformed
    | some header => .ok (s.expect header)
  | none =>
    match readAuthHeader s.header with
    | none => .error .malformed
    | some header => .ok (s.expect header)

/-- `reset` of the header buffer in use, and an empty payload -/
def resetBuffers : InputSocket σ :=
  match s.crypt with
  | some _ => { s with worldHeader := [], recvWPct := none, recvPct := [], recvPctSize := 0 }
  | none => { s with header := [], recvWPct := none, recvPct := [], recvPctSize := 0 }

/-- `handle_input_payload`: the buffers are reset in the mode that the packet came in. -/
def handleInputPayload (opcode : UInt16) : InputSocket σ :=
  let packet : Packet := (opcode, s.recvPct)
  let s := { s.resetBuffers with packets := s.packets ++ [packet] }
  match process s.session packet with
  | none => { s with error := some .refused }
  | some (session, init) => { s with session := session, crypt := init.or s.crypt }

/-- The rest of a turn of the loop, when the header is there. -/
def receivePayload (bytes : List UInt8) : InputSocket σ × List UInt8 :=
  match s.recvWPct with
  | none => ({ s with error := some .noPacket }, bytes)
  | some opcode =>
    let toData := min bytes.length s.recvPctSpace
    let s := { s with recvPct := s.recvPct ++ bytes.take toData, taken := s.taken + toData }
    (if s.recvPctSpace > 0 then s else s.handleInputPayload process opcode, bytes.drop toData)

/-- One turn of the loop over what was received, with what is left of it. -/
def turn (bytes : List UInt8) : InputSocket σ × List UInt8 :=
  if s.headerSpace > 0 then
    let toHeader := min bytes.length s.headerSpace
    let s := s.copyHeader (bytes.take toHeader)
    let bytes := bytes.drop toHeader
    if s.headerSpace > 0 then (s, bytes)
    else
      match s.handleInputHeader with
      | .error error => ({ s with error := some error }, bytes)
      | .ok s => s.receivePayload process bytes
  else s.receivePayload process bytes

def loop : Nat → InputSocket σ → List UInt8 → InputSocket σ
  | 0, s, _ => s
  | n + 1, s, bytes =>
    if bytes = [] ∨ s.error ≠ none then s
    else loop n (s.turn process bytes).1 (s.turn process bytes).2

/-- **`handle_input_missing_data`**, of what `recv` has returned. A socket with an error is closed.
There are never more turns than bytes. -/
def handleInputMissingData (bytes : List UInt8) : InputSocket σ := loop process bytes.length s bytes

/-- What a peer receives call by call. -/
def receive (chunks : List Chunk) : InputSocket σ :=
  chunks.foldl (fun s chunk => s.handleInputMissingData process chunk.1) s

end InputSocket

end Sky548
