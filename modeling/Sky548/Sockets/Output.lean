import Sky548.Machine
import Sky548.Sockets.Header

/-!
# Sending packets

The output of a `WorldSocket`: a flat buffer, which is written first, and a queue of message blocks
for what does not fit into it.

The bytes keep their order (`throughout_inOrder_iff`), but for two defects at the high-water mark of
the queue. A block whose sending would block is taken from the queue and put back, and a queue that
is full without it does not take it back. A packet that a full queue does not take has had its
header encrypted already.
-/

namespace Sky548

open List

/-- A block of the message queue: the bytes left in it, and the size it was made with. -/
structure MessageBlock where
  data : List UInt8
  size : Nat

def outBufferSize : Nat := 65536

def highWaterMark : Nat := 8 * 1024 * 1024

/-- What was accepted for sending, and when the cipher was set up. -/
inductive Sent
  | packet (packet : Packet)
  | cipher (k : KeyStream)

/-- The output of a socket, with what the peer got and what was accepted so far. -/
structure OutputSocket where
  closing : Bool
  /-- the key stream of `_serverEncrypt` once the cipher is set up -/
  crypt : Option KeyStream
  outBuffer : List UInt8
  queue : List MessageBlock
  written : List UInt8
  sent : List Sent

inductive PeerSend
  | written (n : Nat)
  | wouldBlock

/-- `SendPacket`, `handle_output` with the outcomes of its sends, the set-up of the cipher by
`HandleAuthSession`, and `CloseSocket`. -/
inductive OutputEvent
  | sendPacket (packet : Packet)
  | handleOutput (fromBuffer fromQueue : PeerSend)
  | init (k : KeyStream)
  | closeSocket

namespace OutputSocket

def opened : OutputSocket where
  closing := false
  crypt := none
  outBuffer := []
  queue := []
  written := []
  sent := []

/-- `is_full_i`: the blocks count with the size they were made with. -/
def isFull (queue : List MessageBlock) : Bool := (queue.map MessageBlock.size).sum ≥ highWaterMark

variable (s : OutputSocket)

def encode (crypt : Option KeyStream) (packet : Packet) : List UInt8 :=
  serverPktHeader crypt packet ++ packet.2

def fitsBuffer (packet : Packet) : Bool :=
  outBufferSize - s.outBuffer.length ≥ packet.2.length + serverPktHeaderSize && s.queue.isEmpty

def accepts (packet : Packet) : Bool := !s.closing && (s.fitsBuffer packet || !isFull s.queue)

/-- **`SendPacket`**. The header is encrypted before there is a place for the packet. -/
def sendPacket (packet : Packet) : OutputSocket :=
  if s.closing then s
  else
    let bytes := encode s.crypt packet
    let crypt := s.crypt.map fun k => k.advance serverPktHeaderSize
    if s.fitsBuffer packet then
      { s with
        crypt := crypt
        outBuffer := s.outBuffer ++ bytes
        sent := s.sent ++ [.packet packet] }
    else if isFull s.queue then { s with crypt := crypt }
    else
      { s with
        crypt := crypt
        queue := s.queue ++ [⟨bytes, bytes.length⟩]
        sent := s.sent ++ [.packet packet] }

/-- `enqueue_head`, which fails if the queue is full. -/
def enqueueHead (mblk : MessageBlock) (queue : List MessageBlock) : List MessageBlock :=
  if isFull queue then queue else mblk :: queue

def handleOutputQueue (outcome : PeerSend) : OutputSocket :=
  match s.queue with
  | [] => s
  | mblk :: queue =>
    match outcome with
    | .wouldBlock => { s with queue := enqueueHead mblk queue }
    | .written n =>
      if n = 0 then { s with queue := queue }
      else if n < mblk.data.length then
        { s with
          queue := enqueueHead { mblk with data := mblk.data.drop n } queue
          written := s.written ++ mblk.data.take n }
      else { s with queue := queue, written := s.written ++ mblk.data }

def handleOutput (fromBuffer fromQueue : PeerSend) : OutputSocket :=
  if s.closing then s
  else if s.outBuffer = [] then s.handleOutputQueue fromQueue
  else
    match fromBuffer with
    | .wouldBlock => s
    | .written n =>
      if n = 0 then s
      else if n < s.outBuffer.length then
        { s with outBuffer := s.outBuffer.drop n, written := s.written ++ s.outBuffer.take n }
      else
        handleOutputQueue { s with outBuffer := [], written := s.written ++ s.outBuffer } fromQueue

def step : OutputEvent → OutputSocket
  | .sendPacket packet => s.sendPacket packet
  | .handleOutput fromBuffer fromQueue => s.handleOutput fromBuffer fromQueue
  | .init k => { s with crypt := some k, sent := s.sent ++ [.cipher k] }
  | .closeSocket => { s with closing := true }

/-- The cipher and the bytes of what was accepted, one thing after the other. -/
structure Wire where
  crypt : Option KeyStream
  bytes : List UInt8

def Wire.put (wire : Wire) : Sent → Wire
  | .packet packet =>
    ⟨wire.crypt.map fun k => k.advance serverPktHeaderSize, wire.bytes ++ encode wire.crypt packet⟩
  | .cipher k => ⟨some k, wire.bytes⟩

/-- What was accepted as bytes: the headers and contents of the packets, each header encrypted after
the ones before it. -/
def wire : Wire := s.sent.foldl Wire.put ⟨none, []⟩

/-- The bytes that the peer got, and those that are still held, in the order of sending. -/
def bytes : List UInt8 := s.written ++ s.outBuffer ++ s.queue.flatMap MessageBlock.data

/-- **No byte is lost, repeated or reordered.** -/
def InOrder : Prop := s.bytes = s.wire.bytes

/-- The next key bytes are those that follow the headers of the accepted packets. -/
def InStep (crypt wire : Option KeyStream) : Prop :=
  match crypt, wire with
  | some k, some k' =>
    ∀ i < serverPktHeaderSize, k.bytes (k.used + i) = k'.bytes (k'.used + i)
  | _, _ => True

/-- The queue of a call of `handle_output`, when it comes to it. -/
def reached (fromBuffer : PeerSend) : List MessageBlock :=
  if s.closing then []
  else if s.outBuffer = [] then s.queue
  else
    match fromBuffer with
    | .written n => if n ≥ s.outBuffer.length then s.queue else []
    | .wouldBlock => []

/-- A send from a queue that writes the block or leaves it one that can be put back. -/
def Keeps (outcome : PeerSend) : List MessageBlock → Prop
  | [] => True
  | mblk :: queue =>
    match outcome with
    | .wouldBlock => isFull queue = false
    | .written n => n ≠ 0 ∧ (mblk.data.length ≤ n ∨ isFull queue = false)

/-- An event that shows neither defect. -/
def Meets : OutputEvent → Prop
  | .sendPacket packet => s.accepts packet = true → InStep s.crypt s.wire.crypt
  | .handleOutput fromBuffer fromQueue => Keeps fromQueue (s.reached fromBuffer)
  | .init _ => True
  | .closeSocket => True

variable {s}

/-- What holds of a socket whose events show neither defect. -/
structure Inv (s : OutputSocket) : Prop where
  order : s.InOrder
  begun : ∀ mblk ∈ s.queue, mblk.data ≠ []
  mode : s.crypt.isSome = s.wire.crypt.isSome

theorem inv_opened : opened.Inv where
  order := rfl
  begun := nofun
  mode := rfl

@[simp] theorem length_serverPktHeader (crypt : Option KeyStream) (packet : Packet) :
    (serverPktHeader crypt packet).length = serverPktHeaderSize := by
  cases crypt with
  | none => simp [serverPktHeader, serverPktHeaderSize]
  | some k => simp [serverPktHeader]

theorem encode_ne_nil (crypt : Option KeyStream) (packet : Packet) : encode crypt packet ≠ [] := by
  intro nothing
  have header := congrArg List.length (List.append_eq_nil_iff.mp nothing).1
  rw [length_serverPktHeader] at header
  cases header

theorem encode_eq_iff {crypt wire : Option KeyStream} (mode : crypt.isSome = wire.isSome)
    (packet : Packet) : encode crypt packet = encode wire packet ↔ InStep crypt wire := by
  rw [encode, encode, append_left_inj]
  cases crypt with
  | none =>
    cases wire with
    | none => exact iff_of_true rfl True.intro
    | some k' => cases mode
  | some k =>
    cases wire with
    | none => cases mode
    | some k' =>
      rw [serverPktHeader, serverPktHeader, KeyStream.apply_eq_apply_iff, Bits.length_leBytes]
      rfl

section SendPacket

variable {packet : Packet}

theorem bytes_sendPacket (accepted : s.accepts packet = true) :
    (s.sendPacket packet).bytes = s.bytes ++ encode s.crypt packet := by
  rw [accepts, Bool.and_eq_true, Bool.not_eq_true', Bool.or_eq_true, Bool.not_eq_true'] at accepted
  obtain ⟨open', room⟩ := accepted
  rw [sendPacket, open', if_neg Bool.false_ne_true]
  split
  · rename_i fits
    rw [fitsBuffer, Bool.and_eq_true, List.isEmpty_iff] at fits
    simp only [bytes, fits.2, flatMap_nil, append_nil, append_assoc]
  · rename_i full
    rw [if_neg (Bool.eq_false_iff.mp (room.resolve_left full))]
    simp only [bytes, flatMap_append, flatMap_cons, flatMap_nil, append_nil, append_assoc]

theorem wire_sendPacket (accepted : s.accepts packet = true) :
    (s.sendPacket packet).wire = s.wire.put (.packet packet) := by
  rw [accepts, Bool.and_eq_true, Bool.not_eq_true', Bool.or_eq_true, Bool.not_eq_true'] at accepted
  obtain ⟨open', room⟩ := accepted
  rw [sendPacket, open', if_neg Bool.false_ne_true]
  split
  · rw [wire, foldl_append]
    rfl
  · rename_i full
    rw [if_neg (Bool.eq_false_iff.mp (room.resolve_left full)), wire, foldl_append]
    rfl

theorem sendPacket_of_not_accepts (refused : s.accepts packet = false) :
    ∃ crypt : Option KeyStream, crypt.isSome = s.crypt.isSome ∧
      s.sendPacket packet = { s with crypt := crypt } := by
  rw [sendPacket]
  split
  · exact ⟨s.crypt, rfl, rfl⟩
  rename_i open'
  rw [accepts, Bool.eq_false_iff.mpr open', Bool.not_false, Bool.true_and, Bool.or_eq_false_iff,
    Bool.not_eq_false'] at refused
  rw [if_neg (Bool.eq_false_iff.mp refused.1), if_pos refused.2]
  exact ⟨_, Option.isSome_map, rfl⟩

theorem isSome_crypt_sendPacket : (s.sendPacket packet).crypt.isSome = s.crypt.isSome := by
  rw [sendPacket]
  split
  · rfl
  split
  · exact Option.isSome_map
  · split
    · exact Option.isSome_map
    · exact Option.isSome_map

theorem begun_sendPacket (begun : ∀ mblk ∈ s.queue, mblk.data ≠ []) :
    ∀ mblk ∈ (s.sendPacket packet).queue, mblk.data ≠ [] := by
  rw [sendPacket]
  split
  · exact begun
  split
  · exact begun
  split
  · exact begun
  intro mblk member
  rcases List.mem_append.mp member with old | new
  · exact begun mblk old
  · rw [List.mem_singleton.mp new]
    exact encode_ne_nil _ _

theorem Inv.inOrder_sendPacket_iff (inv : s.Inv) (accepted : s.accepts packet = true) :
    (s.sendPacket packet).InOrder ↔ InStep s.crypt s.wire.crypt := by
  rw [InOrder, bytes_sendPacket accepted, wire_sendPacket accepted, Wire.put, inv.order,
    append_right_inj]
  exact encode_eq_iff inv.mode packet

theorem Inv.sendPacket (inv : s.Inv) (meets : s.Meets (.sendPacket packet)) :
    (s.sendPacket packet).Inv := by
  cases accepted : s.accepts packet with
  | true =>
    refine ⟨(inv.inOrder_sendPacket_iff accepted).mpr (meets accepted), begun_sendPacket inv.begun, ?_⟩
    rw [isSome_crypt_sendPacket, wire_sendPacket accepted, Wire.put, Option.isSome_map]
    exact inv.mode
  | false =>
    obtain ⟨crypt, mode, same⟩ := sendPacket_of_not_accepts accepted
    rw [same]
    exact ⟨inv.order, inv.begun, mode.trans inv.mode⟩

end SendPacket

/-! ### Sending to the peer -/

section HandleOutput

variable {fromBuffer fromQueue : PeerSend}

theorem enqueueHead_of_not_isFull (mblk : MessageBlock) {queue : List MessageBlock}
    (room : isFull queue = false) : enqueueHead mblk queue = mblk :: queue := by
  rw [enqueueHead, room, if_neg Bool.false_ne_true]

theorem mem_enqueueHead {mblk mblk' : MessageBlock} {queue : List MessageBlock}
    (member : mblk' ∈ enqueueHead mblk queue) : mblk' = mblk ∨ mblk' ∈ queue := by
  rw [enqueueHead] at member
  split at member
  · exact Or.inr member
  · exact List.mem_cons.mp member

theorem bytes_handleOutputQueue (drained : s.outBuffer = []) (keeps : Keeps fromQueue s.queue) :
    (s.handleOutputQueue fromQueue).bytes = s.bytes := by
  rw [handleOutputQueue]
  cases isQueue : s.queue with
  | nil => rfl
  | cons mblk queue =>
    rw [isQueue] at keeps
    cases fromQueue with
    | wouldBlock =>
      simp only [bytes, enqueueHead_of_not_isFull mblk keeps, isQueue]
    | written n =>
      obtain ⟨some', rest⟩ := keeps
      dsimp only
      rw [if_neg some']
      split
      · rename_i part
        have room := rest.resolve_left (Nat.not_le.mpr part)
        simp only [bytes, enqueueHead_of_not_isFull _ room, isQueue, drained, append_nil,
          flatMap_cons, append_assoc]
        rw [← append_assoc (mblk.data.take n), take_append_drop]
      · simp only [bytes, isQueue, drained, append_nil, flatMap_cons, append_assoc]

theorem bytes_lt_of_not_keeps (drained : s.outBuffer = []) (begun : ∀ mblk ∈ s.queue, mblk.data ≠ [])
    (loses : ¬ Keeps fromQueue s.queue) :
    (s.handleOutputQueue fromQueue).bytes.length < s.bytes.length := by
  rw [handleOutputQueue]
  cases isQueue : s.queue with
  | nil =>
    rw [isQueue] at loses
    exact absurd True.intro loses
  | cons mblk queue =>
    rw [isQueue] at loses
    have some' : 0 < mblk.data.length :=
      List.length_pos_iff.mpr (begun mblk (by rw [isQueue]; exact mem_cons_self))
    cases fromQueue with
    | wouldBlock =>
      rw [Keeps, Bool.not_eq_false] at loses
      simp only [bytes, enqueueHead, loses, if_true, isQueue, drained, append_nil,
        flatMap_cons, length_append]
      omega
    | written n =>
      rw [Keeps, not_and_or, not_not, not_or, Nat.not_le, Bool.not_eq_false] at loses
      dsimp only
      rcases loses with nothing | ⟨part, full⟩
      · rw [if_pos nothing]
        simp only [bytes, isQueue, drained, append_nil, flatMap_cons, length_append]
        omega
      split
      · simp only [bytes, isQueue, drained, append_nil, flatMap_cons, length_append]
        omega
      · simp only [bytes, enqueueHead, full, if_true, isQueue, drained, append_nil,
          flatMap_cons, length_append, length_take]
        omega

theorem begun_handleOutputQueue (begun : ∀ mblk ∈ s.queue, mblk.data ≠ []) :
    ∀ mblk ∈ (s.handleOutputQueue fromQueue).queue, mblk.data ≠ [] := by
  intro mblk' member
  rw [handleOutputQueue] at member
  cases isQueue : s.queue with
  | nil =>
    rw [isQueue] at member
    exact begun mblk' member
  | cons mblk queue =>
    rw [isQueue] at member begun
    cases fromQueue with
    | wouldBlock =>
      rcases mem_enqueueHead member with rfl | old
      · exact begun mblk' mem_cons_self
      · exact begun mblk' (mem_cons_of_mem _ old)
    | written n =>
      dsimp only at member
      split at member
      · exact begun mblk' (mem_cons_of_mem _ member)
      split at member
      · rename_i part
        rcases mem_enqueueHead member with rfl | old
        · rw [ne_eq, drop_eq_nil_iff]
          exact Nat.not_le.mpr part
        · exact begun mblk' (mem_cons_of_mem _ old)
      · exact begun mblk' (mem_cons_of_mem _ member)

@[simp] theorem sent_handleOutputQueue :
    (s.handleOutputQueue fromQueue).sent = s.sent := by
  rw [handleOutputQueue]
  cases s.queue with
  | nil => rfl
  | cons mblk queue =>
    cases fromQueue with
    | wouldBlock => rfl
    | written n =>
      dsimp only
      split
      · rfl
      · split
        · rfl
        · rfl

@[simp] theorem crypt_handleOutputQueue :
    (s.handleOutputQueue fromQueue).crypt = s.crypt := by
  rw [handleOutputQueue]
  cases s.queue with
  | nil => rfl
  | cons mblk queue =>
    cases fromQueue with
    | wouldBlock => rfl
    | written n =>
      dsimp only
      split
      · rfl
      · split
        · rfl
        · rfl

/-- A call of `handle_output` sends from the buffer only, or drains it and sends from the queue. -/
inductive HandleOutput (s : OutputSocket) (fromBuffer fromQueue : PeerSend) : OutputSocket → Prop
  | buffer (t : OutputSocket) (bytes : t.bytes = s.bytes) (queue : t.queue = s.queue)
      (sent : t.sent = s.sent) (crypt : t.crypt = s.crypt) (reached : s.reached fromBuffer = []) :
      HandleOutput s fromBuffer fromQueue t
  | queue (t : OutputSocket) (bytes : t.bytes = s.bytes) (queue : t.queue = s.queue)
      (sent : t.sent = s.sent) (crypt : t.crypt = s.crypt) (drained : t.outBuffer = [])
      (reached : s.reached fromBuffer = t.queue) :
      HandleOutput s fromBuffer fromQueue (t.handleOutputQueue fromQueue)

theorem handleOutput_handleOutput :
    HandleOutput s fromBuffer fromQueue (s.handleOutput fromBuffer fromQueue) := by
  unfold OutputSocket.handleOutput
  split
  · rename_i closing
    exact .buffer s rfl rfl rfl rfl (if_pos closing)
  rename_i open'
  split
  · rename_i drained
    exact .queue s rfl rfl rfl rfl drained ((if_neg open').trans (if_pos drained))
  rename_i some'
  have isReached := (if_neg open' : s.reached fromBuffer = _).trans (if_neg some')
  cases fromBuffer with
  | wouldBlock => exact .buffer s rfl rfl rfl rfl isReached
  | written n =>
    have positive := List.length_pos_iff.mpr some'
    dsimp only at isReached ⊢
    split
    · exact .buffer s rfl rfl rfl rfl (isReached.trans (if_neg (by omega)))
    split
    · refine .buffer _ ?_ rfl rfl rfl (isReached.trans (if_neg (by omega)))
      simp only [bytes, append_assoc]
      rw [← append_assoc (s.outBuffer.take n), take_append_drop]
    · refine .queue _ ?_ rfl rfl rfl rfl (isReached.trans (if_pos (by omega)))
      simp only [bytes, append_nil]

theorem Inv.handleOutput (inv : s.Inv) (meets : s.Meets (.handleOutput fromBuffer fromQueue)) :
    (s.handleOutput fromBuffer fromQueue).Inv := by
  have handled : HandleOutput s fromBuffer fromQueue _ := handleOutput_handleOutput
  rw [Meets] at meets
  generalize s.handleOutput fromBuffer fromQueue = s' at handled ⊢
  cases handled with
  | buffer _ bytes queue sent crypt _ =>
    refine ⟨?_, ?_, ?_⟩
    · rw [InOrder, wire, bytes, sent]
      exact inv.order
    · rw [queue]
      exact inv.begun
    · rw [wire, crypt, sent]
      exact inv.mode
  | queue t bytes queue sent crypt drained reached =>
    rw [reached] at meets
    refine ⟨?_, begun_handleOutputQueue ?_, ?_⟩
    · rw [InOrder, wire, bytes_handleOutputQueue drained meets, sent_handleOutputQueue, bytes, sent]
      exact inv.order
    · rw [queue]
      exact inv.begun
    · rw [wire, crypt_handleOutputQueue, sent_handleOutputQueue, crypt, sent]
      exact inv.mode

theorem Inv.not_inOrder_handleOutput (inv : s.Inv)
    (shows : ¬ s.Meets (.handleOutput fromBuffer fromQueue)) :
    ¬ (s.handleOutput fromBuffer fromQueue).InOrder := by
  have handled : HandleOutput s fromBuffer fromQueue _ := handleOutput_handleOutput
  rw [Meets] at shows
  generalize s.handleOutput fromBuffer fromQueue = s' at handled ⊢
  intro order
  cases handled with
  | buffer _ _ _ _ _ reached =>
    rw [reached] at shows
    exact shows True.intro
  | queue t bytes queue sent crypt drained reached =>
    rw [reached] at shows
    have begun : ∀ mblk ∈ t.queue, mblk.data ≠ [] := by
      rw [queue]
      exact inv.begun
    have fewer := bytes_lt_of_not_keeps drained begun shows
    rw [InOrder, wire, sent_handleOutputQueue, sent] at order
    rw [order, bytes, inv.order] at fewer
    exact Nat.lt_irrefl _ fewer

end HandleOutput

theorem Inv.step (inv : s.Inv) {event : OutputEvent} (meets : s.Meets event) :
    (s.step event).Inv := by
  cases event with
  | sendPacket packet => exact inv.sendPacket meets
  | handleOutput fromBuffer fromQueue => exact inv.handleOutput meets
  | init k =>
    have wire : OutputSocket.wire { s with crypt := some k, sent := s.sent ++ [.cipher k] } =
        s.wire.put (.cipher k) := foldl_append
    refine ⟨?_, inv.begun, ?_⟩
    · rw [InOrder, OutputSocket.step, wire]
      exact inv.order
    · rw [OutputSocket.step, wire]
      rfl
  | closeSocket => exact ⟨inv.order, inv.begun, inv.mode⟩

theorem Inv.not_inOrder_step (inv : s.Inv) {event : OutputEvent} (shows : ¬ s.Meets event) :
    ¬ (s.step event).InOrder := by
  cases event with
  | sendPacket packet =>
    obtain ⟨accepted, outOfStep⟩ := Classical.not_imp.mp shows
    exact fun order => outOfStep ((inv.inOrder_sendPacket_iff accepted).mp order)
  | handleOutput fromBuffer fromQueue => exact inv.not_inOrder_handleOutput shows
  | init k => exact absurd True.intro shows
  | closeSocket => exact absurd True.intro shows

/-- **Outgoing packets keep their order** throughout a run exactly when none of its events shows a
defect at the high-water mark. -/
theorem throughout_inOrder_iff (events : List OutputEvent) :
    Machine.Throughout step InOrder opened events ↔ Machine.EachStep step Meets opened events :=
  Machine.throughout_iff_eachStep inv_opened (fun _ inv => inv.order)
    (fun _ _ inv meets => inv.step meets) fun _ _ inv shows => inv.not_inOrder_step shows

theorem length_encode (crypt : Option KeyStream) (packet : Packet) :
    (encode crypt packet).length = packet.2.length + serverPktHeaderSize := by
  rw [encode, length_append, length_serverPktHeader, Nat.add_comm]

theorem sendPacket_eq_enqueue {packet : Packet} (open' : s.closing = false)
    (large : outBufferSize < packet.2.length + serverPktHeaderSize) (room : isFull s.queue = false) :
    s.sendPacket packet = { s with
      crypt := s.crypt.map fun k => k.advance serverPktHeaderSize
      queue := s.queue ++ [⟨encode s.crypt packet, packet.2.length + serverPktHeaderSize⟩]
      sent := s.sent ++ [.packet packet] } := by
  have noRoom : s.fitsBuffer packet = false := by
    rw [fitsBuffer, Bool.and_eq_false_iff]
    exact Or.inl (decide_eq_false (by omega))
  rw [sendPacket, open', if_neg Bool.false_ne_true]
  rw [noRoom, if_neg Bool.false_ne_true, room, if_neg Bool.false_ne_true, length_encode]

theorem not_inOrder_of_full {packet next : Packet}
    (large : outBufferSize < packet.2.length + serverPktHeaderSize)
    (room : packet.2.length + serverPktHeaderSize < highWaterMark)
    (huge : highWaterMark ≤ next.2.length) :
    ¬ Machine.Throughout step InOrder opened
      [.sendPacket packet, .sendPacket next, .handleOutput .wouldBlock .wouldBlock] := by
  intro holds
  have meets := ((throughout_inOrder_iff _).mp holds).2.2.1
  have first : opened.step (.sendPacket packet) = _ := sendPacket_eq_enqueue rfl large rfl
  have notFull : isFull (opened.step (.sendPacket packet)).queue = false := by
    rw [first]
    simp only [opened, isFull, nil_append, map_cons, map_nil, sum_cons, sum_nil]
    exact decide_eq_false (by omega)
  have nextLarge : outBufferSize < next.2.length + serverPktHeaderSize := by
    rw [highWaterMark] at huge
    rw [outBufferSize]
    omega
  have second : (opened.step (.sendPacket packet)).step (.sendPacket next) = _ :=
    sendPacket_eq_enqueue (by rw [first]; rfl) nextLarge notFull
  rw [second, first] at meets
  have full : isFull [⟨encode none next, next.2.length + serverPktHeaderSize⟩] = false := meets
  simp only [isFull, map_cons, map_nil, sum_cons, sum_nil, decide_eq_false_iff_not] at full
  omega

/-- A packet that does not fit into the buffer, and one that fills the queue. -/
def largePacket : Packet := (1, List.replicate outBufferSize 0)

def hugePacket : Packet := (2, List.replicate highWaterMark 0)

theorem not_inOrder_of_wouldBlock : ¬ Machine.Throughout step InOrder opened
      [.sendPacket largePacket, .sendPacket hugePacket, .handleOutput .wouldBlock .wouldBlock] := by
  have large : largePacket.2.length = outBufferSize := length_replicate
  have huge : hugePacket.2.length = highWaterMark := length_replicate
  refine not_inOrder_of_full ?_ ?_ (Nat.le_of_eq huge.symm)
  · rw [large]
    decide
  · rw [large]
    decide

end OutputSocket

end Sky548
