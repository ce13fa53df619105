import Sky548.Sockets.Input

/-!
# Received packets and chunks

The input of a socket refines a reader that takes the stream byte by byte (`InputSocket.view`): the
three buffers hold what the reader holds. The sequence of packets and the place where reading stops
are therefore those of the stream, whatever chunks `recv` has cut it into.
-/

namespace Sky548

open List Option Framing

variable {σ : Type*} (process : ProcessIncoming σ)

/-- The packets of a connection, plain until the cipher is set up. -/
def packetFraming : Framing UInt8 (Option KeyStream × σ) (UInt16 × Nat) where
  headerSize := fun state =>
    match state.1 with
    | some _ => worldClientPktHeaderSize
    | none => authClientPktHeaderSize
  headerSize_pos := fun state => by
    split
    · exact Nat.zero_lt_succ 3
    · exact Nat.zero_lt_succ 5
  readHeader := fun state header =>
    match state.1 with
    | some crypt =>
      (readWorldHeader (crypt.apply header)).map fun frame =>
        (frame, some (crypt.advance worldClientPktHeaderSize), state.2)
    | none => (readAuthHeader header).map fun frame => (frame, state)
  payloadSize := Prod.snd
  deliver := fun state frame body =>
    (process state.2 (frame.1, body)).map fun result => (result.2.or state.1, result.1)

namespace InputSocket

/-- The byte reader that a socket stands for. -/
def view (s : InputSocket σ) : Framing.Reader UInt8 (Option KeyStream × σ) (UInt16 × Nat) where
  state := (s.crypt, s.session)
  phase :=
    match s.error with
    | some .malformed => .malformed
    | some _ => .refused
    | none =>
      match s.recvWPct with
      | none => .header s.currentHeader
      | some opcode => .payload (opcode, s.recvPctSize) s.recvPct
  frames := s.packets.map fun packet => ((packet.1, packet.2.length), packet.2)
  taken := s.taken

/-- The buffers fit the place in the stream. -/
structure Sound (s : InputSocket σ) : Prop where
  /-- nothing is in the buffer of encrypted headers before the cipher is set up -/
  fresh : s.crypt = none → s.worldHeader = []
  noPacket : s.error ≠ some .noPacket
  header : s.error = none → s.recvWPct = none → 0 < s.headerSpace
  payload : ∀ opcode, s.error = none → s.recvWPct = some opcode →
    s.headerSpace = 0 ∧ s.recvPct.length < s.recvPctSize

theorem sound_opened (session : σ) : (opened session).Sound where
  fresh := fun _ => rfl
  noPacket := nofun
  header := fun _ _ => Nat.zero_lt_succ 5
  payload := nofun

variable {s : InputSocket σ}

theorem sound_of_closed {error : InputError} (closed : s.error = some error)
    (other : error ≠ .noPacket) (fresh : s.crypt = none → s.worldHeader = []) : s.Sound := by
  have notOpen : s.error ≠ none := closed ▸ some_ne_none error
  refine ⟨fresh, fun isNoPacket => ?_, fun isOpen => absurd isOpen notOpen,
    fun _ isOpen => absurd isOpen notOpen⟩
  exact other (Option.some.inj (closed.symm.trans isNoPacket))

@[simp] theorem headerSize_view : (packetFraming process).headerSize s.view.state = s.headerSize :=
  rfl

variable {opcode : UInt16}

theorem view_handleInputPayload (sound : s.crypt = none → s.worldHeader = [])
    (open' : s.error = none) (whole : s.recvPct.length = s.recvPctSize) :
    (s.handleInputPayload process opcode).view =
        Framing.Reader.finish (packetFraming process) s.view (opcode, s.recvPctSize) s.recvPct ∧
      (s.handleInputPayload process opcode).Sound := by
  have deliver : (packetFraming process).deliver s.view.state (opcode, s.recvPctSize) s.recvPct =
      (process s.session (opcode, s.recvPct)).map fun result => (result.2.or s.crypt, result.1) := rfl
  rw [Framing.Reader.finish, deliver, handleInputPayload]
  cases mode : s.crypt with
  | none =>
    have empty := sound mode
    simp only [resetBuffers, mode]
    cases process s.session (opcode, s.recvPct) with
    | none =>
      refine ⟨?_, sound_of_closed rfl (by intro same; cases same) fun _ => empty⟩
      simp only [view, mode, map_none, map_append, map_cons, map_nil, whole]
    | some result =>
      obtain ⟨session, init⟩ := result
      cases init with
      | none =>
        refine ⟨?_, ⟨fun _ => empty, by simp [open'], fun _ _ => Nat.zero_lt_succ 5, ?_⟩⟩
        · simp only [view, open', currentHeader, map_some, or_none,
            map_append, map_cons, map_nil, whole]
        · intro _ _ begun
          cases begun
      | some next =>
        refine ⟨?_, ⟨?_, by simp [open'], fun _ _ => ?_, ?_⟩⟩
        · simp only [view, open', currentHeader, map_some, some_or,
            map_append, map_cons, map_nil, whole, empty]
        · intro unset
          cases unset
        · simp only [headerSpace, currentHeader, headerSize, some_or, empty]
          exact Nat.zero_lt_succ 3
        · intro _ _ begun
          cases begun
  | some crypt =>
    simp only [resetBuffers, mode]
    cases process s.session (opcode, s.recvPct) with
    | none =>
      refine ⟨?_, sound_of_closed rfl (by intro same; cases same) fun _ => rfl⟩
      simp only [view, mode, map_none, map_append, map_cons, map_nil, whole]
    | some result =>
      obtain ⟨session, init⟩ := result
      obtain ⟨next, isNext⟩ : ∃ next, init.or (some crypt) = some next := by
        cases init with
        | none => exact ⟨crypt, rfl⟩
        | some next => exact ⟨next, rfl⟩
      refine ⟨?_, ⟨fun _ => rfl, by simp [open'], fun _ _ => ?_, ?_⟩⟩
      · simp only [view, open', currentHeader, isNext, map_some, map_append,
          map_cons, map_nil, whole]
      · simp only [headerSpace, currentHeader, headerSize, isNext]
        exact Nat.zero_lt_succ 3
      · intro _ _ begun
        cases begun

variable {bytes : List UInt8}

theorem receivePayload_of_lt (begun : s.recvWPct = some opcode)
    (short : s.recvPct.length + bytes.length < s.recvPctSize) :
    s.receivePayload process bytes =
      ({ s with recvPct := s.recvPct ++ bytes, taken := s.taken + bytes.length }, []) := by
  unfold receivePayload
  split
  · rename_i none
    exact absurd (none.symm.trans begun) nofun
  have all : min bytes.length s.recvPctSpace = bytes.length := by
    rw [recvPctSpace]
    omega
  dsimp only
  rw [all, take_length, drop_length]
  have space : 0 < s.recvPctSize - (s.recvPct ++ bytes).length := by
    rw [length_append]
    omega
  exact congrArg (·, []) (if_pos space)

theorem receivePayload_of_le (begun : s.recvWPct = some opcode)
    (fits : s.recvPct.length ≤ s.recvPctSize)
    (enough : s.recvPctSize ≤ s.recvPct.length + bytes.length) :
    s.receivePayload process bytes = (handleInputPayload process { s with
          recvPct := s.recvPct ++ bytes.take s.recvPctSpace
          taken := s.taken + s.recvPctSpace } opcode,
        bytes.drop s.recvPctSpace) := by
  unfold receivePayload
  split
  · rename_i none
    exact absurd (none.symm.trans begun) nofun
  rename_i opcode' begun'
  obtain rfl := Option.some.inj (begun'.symm.trans begun)
  have piece : min bytes.length s.recvPctSpace = s.recvPctSpace := by
    rw [recvPctSpace]
    omega
  rw [piece]
  have space : ¬ 0 < s.recvPctSize - (s.recvPct ++ bytes.take s.recvPctSpace).length := by
    rw [length_append, length_take, Nat.min_comm, piece, recvPctSpace]
    omega
  exact congrArg (·, bytes.drop s.recvPctSpace) (if_neg space)

theorem view_receivePayload (bytes : List UInt8)
    (sound : s.crypt = none → s.worldHeader = []) (open' : s.error = none)
    (full : s.headerSpace = 0) (begun : s.recvWPct = some opcode)
    (fits : s.recvPct.length ≤ s.recvPctSize) :
    ∃ used, bytes = used ++ (s.receivePayload process bytes).2 ∧
      (s.recvPct.length < s.recvPctSize → bytes ≠ [] → used ≠ []) ∧
      (s.receivePayload process bytes).1.view =
        (Framing.Reader.hold (packetFraming process) s.view (opcode, s.recvPctSize) s.recvPct).feed
          (packetFraming process) used ∧
      (s.receivePayload process bytes).1.Sound := by
  rcases Nat.lt_or_ge (s.recvPct.length + bytes.length) s.recvPctSize with short | enough
  · rw [receivePayload_of_lt process begun short]
    refine ⟨bytes, (append_nil bytes).symm, fun _ some' => some', ?_, ?_⟩
    · rw [Reader.hold_of_lt (show s.recvPct.length < s.recvPctSize by omega),
        Reader.feed_of_payload_lt bytes rfl short]
      simp only [view, open', begun]
    refine ⟨sound, ?_, fun _ empty => ?_, fun opcode' _ _ => ⟨full, ?_⟩⟩
    · simp [open']
    · exact absurd (empty.symm.trans begun) nofun
    · rw [length_append]
      exact short
  · rw [receivePayload_of_le process begun fits enough]
    have room : s.recvPctSpace = s.recvPctSize - s.recvPct.length := rfl
    have taken : (bytes.take s.recvPctSpace).length = s.recvPctSpace := by
      rw [length_take]
      omega
    have whole : (s.recvPct ++ bytes.take s.recvPctSpace).length = s.recvPctSize := by
      rw [length_append, taken]
      omega
    let s' : InputSocket σ := { s with
      recvPct := s.recvPct ++ bytes.take s.recvPctSpace, taken := s.taken + s.recvPctSpace }
    have finishes : (s'.handleInputPayload process opcode).view = _ ∧ _ :=
      view_handleInputPayload process sound open' whole
    obtain ⟨finished, sound'⟩ := finishes
    refine ⟨bytes.take s.recvPctSpace, (take_append_drop _ _).symm, fun less some' => ?_,
      finished.trans ?_, sound'⟩
    · rw [← length_pos_iff, taken]
      omega
    by_cases nothing : s.recvPctSpace = 0
    · rw [Reader.hold_of_le (show s.recvPctSize ≤ s.recvPct.length by omega), nothing,
        List.take_zero, Reader.feed_nil]
      simp only [s', nothing, List.take_zero, append_nil, Nat.add_zero]
    rw [Reader.hold_of_lt (show s.recvPct.length < s.recvPctSize by omega),
      Reader.feed_of_payload_eq _ rfl (by rw [← length_pos_iff, taken]; omega)
        (by rw [taken]; exact Nat.add_sub_of_le fits), taken]
    rfl

section CopyHeader

variable (bytes : List UInt8)

@[simp] theorem crypt_copyHeader : (s.copyHeader bytes).crypt = s.crypt := by
  cases mode : s.crypt with
  | none => simp only [copyHeader, mode]
  | some crypt => simp only [copyHeader, mode]

@[simp] theorem recvWPct_copyHeader : (s.copyHeader bytes).recvWPct = s.recvWPct := by
  cases mode : s.crypt with
  | none => simp only [copyHeader, mode]
  | some crypt => simp only [copyHeader, mode]

@[simp] theorem error_copyHeader : (s.copyHeader bytes).error = s.error := by
  cases mode : s.crypt with
  | none => simp only [copyHeader, mode]
  | some crypt => simp only [copyHeader, mode]

@[simp] theorem currentHeader_copyHeader :
    (s.copyHeader bytes).currentHeader = s.currentHeader ++ bytes := by
  cases mode : s.crypt with
  | none => simp only [copyHeader, mode, currentHeader]
  | some crypt => simp only [copyHeader, mode, currentHeader]

@[simp] theorem headerSize_copyHeader : (s.copyHeader bytes).headerSize = s.headerSize := by
  rw [headerSize, crypt_copyHeader, headerSize]

theorem worldHeader_copyHeader (plain : s.crypt = none) :
    (s.copyHeader bytes).worldHeader = s.worldHeader := by
  simp only [copyHeader, plain]

theorem view_copyHeader (open' : s.error = none) (none : s.recvWPct = none) :
    (s.copyHeader bytes).view =
      { s.view with phase := .header (s.currentHeader ++ bytes), taken := s.taken + bytes.length } := by
  cases mode : s.crypt with
  | none => simp only [view, copyHeader, mode, open', none, currentHeader]
  | some crypt => simp only [view, copyHeader, mode, open', none, currentHeader]

end CopyHeader

/-- What a whole header does: it is malformed, or a packet is begun. -/
inductive Opened (process : ProcessIncoming σ) (s : InputSocket σ) :
    Except InputError (InputSocket σ) → Prop
  | malformed
      (read : (packetFraming process).readHeader s.view.state s.currentHeader = none) :
      Opened process s (.error .malformed)
  | begun (s' : InputSocket σ) (opcode : UInt16)
      (read : (packetFraming process).readHeader s.view.state s.currentHeader =
        some ((opcode, s'.recvPctSize), s'.view.state))
      (expects : s'.recvWPct = some opcode) (empty : s'.recvPct = []) (error : s'.error = s.error)
      (packets : s'.packets = s.packets) (taken : s'.taken = s.taken)
      (space : s'.headerSpace = s.headerSpace)
      (fresh : s'.crypt = none → s.crypt = none ∧ s'.worldHeader = s.worldHeader) :
      Opened process s (.ok s')

theorem opened_handleInputHeader : Opened process s s.handleInputHeader := by
  cases mode : s.crypt with
  | none =>
    simp only [handleInputHeader, mode]
    cases read : readAuthHeader s.header with
    | none =>
      refine .malformed ?_
      simp only [packetFraming, view, currentHeader, mode, read, map_none]
    | some header =>
      refine .begun _ header.1 ?_ rfl rfl rfl rfl rfl ?_ fun _ => ⟨mode, rfl⟩
      · simp only [packetFraming, view, currentHeader, mode, read, map_some, expect]
      · simp only [headerSpace, headerSize, currentHeader, mode, expect]
  | some crypt =>
    simp only [handleInputHeader, mode]
    cases read : readWorldHeader (crypt.apply s.worldHeader) with
    | none =>
      refine .malformed ?_
      simp only [packetFraming, view, currentHeader, mode, read, map_none]
    | some header =>
      refine .begun _ header.1 ?_ rfl rfl rfl rfl rfl ?_ nofun
      · simp only [packetFraming, view, currentHeader, mode, read, map_some, expect]
      · simp only [headerSpace, headerSize, currentHeader, mode, expect, KeyStream.length_apply]

theorem Opened.view_error {error : InputError} (opened : Opened process s (.error error)) :
    Framing.Reader.opened (packetFraming process) s.view s.currentHeader =
      { s with error := some error }.view := by
  cases opened with
  | malformed read =>
    rw [Framing.Reader.opened, read]
    rfl

theorem view_begun {s' : InputSocket σ}
    (read : (packetFraming process).readHeader s.view.state s.currentHeader =
      some ((opcode, s'.recvPctSize), s'.view.state))
    (empty : s'.recvPct = []) (packets : s'.packets = s.packets) (taken : s'.taken = s.taken) :
    Framing.Reader.opened (packetFraming process) s.view s.currentHeader =
      Framing.Reader.hold (packetFraming process) s'.view (opcode, s'.recvPctSize) s'.recvPct := by
  have frames : s.view.frames = s'.view.frames := by
    simp only [view, packets]
  have taken' : s.view.taken = s'.view.taken := taken.symm
  rw [Framing.Reader.opened, read]
  rw [frames, taken', empty]
  rfl

theorem feed_copyHeader {piece : List UInt8} (open' : s.error = none) (none : s.recvWPct = none)
    (room : 0 < s.headerSpace) (whole : piece.length = s.headerSpace) :
    s.view.feed (packetFraming process) piece =
      Framing.Reader.opened (packetFraming process) (s.copyHeader piece).view
        (s.copyHeader piece).currentHeader := by
  have phase : s.view.phase = .header s.currentHeader := by
    simp only [view, open', none]
  have some' : piece ≠ [] := by
    rw [← length_pos_iff, whole]
    exact room
  have size : s.currentHeader.length + piece.length =
      (packetFraming process).headerSize s.view.state := by
    rw [whole, headerSize_view]
    rw [headerSpace] at room ⊢
    omega
  rw [Reader.feed_of_header_eq piece phase some' size, view_copyHeader piece open' none,
    currentHeader_copyHeader]
  rfl

theorem view_turn (sound : s.Sound) (open' : s.error = none) (some' : bytes ≠ []) :
    ∃ used, bytes = used ++ (s.turn process bytes).2 ∧ used ≠ [] ∧
      (s.turn process bytes).1.view = s.view.feed (packetFraming process) used ∧
      (s.turn process bytes).1.Sound := by
  cases begun : s.recvWPct with
  | some opcode =>
    obtain ⟨full, less⟩ := sound.payload opcode open' begun
    obtain ⟨used, cut, progress, same, sound'⟩ := view_receivePayload process bytes
      sound.fresh open' full begun (Nat.le_of_lt less)
    rw [turn, if_neg (by omega)]
    refine ⟨used, cut, progress less some', same.trans ?_, sound'⟩
    rw [Reader.hold_of_lt less]
    simp only [view, open', begun]
  | none =>
    have room := sound.header open' begun
    have fresh : ∀ piece, (s.copyHeader piece).crypt = none → (s.copyHeader piece).worldHeader = [] := by
      intro piece plain
      rw [crypt_copyHeader] at plain
      rw [worldHeader_copyHeader piece plain, sound.fresh plain]
    have left : ∀ piece, (s.copyHeader piece).headerSpace = s.headerSpace - piece.length := by
      intro piece
      rw [headerSpace, headerSize_copyHeader, currentHeader_copyHeader, length_append,
        Nat.sub_add_eq, headerSpace]
    rw [turn, if_pos room]
    dsimp only
    rcases Nat.lt_or_ge bytes.length s.headerSpace with short | enough
    · rw [Nat.min_eq_left (Nat.le_of_lt short), take_length, drop_length,
        if_pos (by rw [left]; omega)]
      refine ⟨bytes, (append_nil bytes).symm, some', ?_, ⟨fresh bytes, ?_, fun _ _ => ?_, ?_⟩⟩
      · have phase : s.view.phase = .header s.currentHeader := by
          simp only [view, open', begun]
        rw [Reader.feed_of_header_lt bytes phase
          (by rw [headerSize_view]; rw [headerSpace] at short; omega)]
        exact view_copyHeader bytes open' begun
      · rw [error_copyHeader, open']
        nofun
      · rw [left]
        omega
      · intro opcode _ isBegun
        rw [recvWPct_copyHeader, begun] at isBegun
        cases isBegun
    · obtain ⟨piece, isPiece⟩ : ∃ piece, bytes.take s.headerSpace = piece := ⟨_, rfl⟩
      have taken : piece.length = s.headerSpace := by
        rw [← isPiece, length_take, Nat.min_eq_left enough]
      have cut : bytes = piece ++ bytes.drop s.headerSpace := by
        rw [← isPiece, take_append_drop]
      have some'' : piece ≠ [] := by
        rw [← length_pos_iff, taken]
        exact room
      have full : (s.copyHeader piece).headerSpace = 0 := by
        rw [left, taken, Nat.sub_self]
      have fed := feed_copyHeader process open' begun room taken
      rw [Nat.min_eq_right enough, isPiece, if_neg (Nat.not_lt.mpr (Nat.le_of_eq full))]
      cases handled : (s.copyHeader piece).handleInputHeader with
      | error error =>
        have opened : Opened process (s.copyHeader piece) (.error error) := by
          rw [← handled]
          exact opened_handleInputHeader process
        refine ⟨piece, cut, some'', ?_, ⟨fresh piece, ?_, nofun, nofun⟩⟩
        · rw [fed, opened.view_error]
        · cases opened with
          | malformed read => nofun
      | ok s' =>
        have opened : Opened process (s.copyHeader piece) (.ok s') := by
          rw [← handled]
          exact opened_handleInputHeader process
        cases opened with
        | begun _ opcode read expects empty error packets taken' space fresh' =>
          obtain ⟨used, cut', -, same, sound'⟩ := view_receivePayload process
            (bytes.drop s.headerSpace)
            (fun plain => (fresh' plain).2.trans (fresh piece (fresh' plain).1))
            (error.trans (by rw [error_copyHeader, open'])) (space.trans full) expects
            (by rw [empty]; exact Nat.zero_le _)
          refine ⟨piece ++ used, ?_, ?_, ?_, sound'⟩
          · rw [append_assoc, ← cut', ← cut]
          · exact fun nothing => some'' (List.append_eq_nil_iff.mp nothing).1
          · rw [Reader.feed_append, fed, view_begun process read empty packets taken']
            exact same

theorem feed_of_error (sound : s.Sound) (error : s.error ≠ none) (bytes : List UInt8) :
    s.view.feed (packetFraming process) bytes = s.view := by
  rcases isError : s.error with _ | e
  · exact absurd isError error
  cases e with
  | malformed => exact Reader.feed_of_malformed bytes (by simp only [view, isError])
  | noPacket => exact absurd isError sound.noPacket
  | refused => exact Reader.feed_of_refused bytes (by simp only [view, isError])

theorem view_loop (n : Nat) : ∀ {s : InputSocket σ} {bytes : List UInt8}, s.Sound →
    bytes.length ≤ n → (loop process n s bytes).view = s.view.feed (packetFraming process) bytes ∧
        (loop process n s bytes).Sound := by
  induction n with
  | zero =>
    intro s bytes sound fits
    rw [List.length_eq_zero_iff.mp (Nat.le_zero.mp fits)]
    exact ⟨rfl, sound⟩
  | succ n ih =>
    intro s bytes sound fits
    rw [loop]
    by_cases nothing : bytes = []
    · rw [if_pos (Or.inl nothing), nothing]
      exact ⟨rfl, sound⟩
    by_cases open' : s.error = none
    · rw [if_neg (by simp [nothing, open'])]
      obtain ⟨used, cut, some', same, sound'⟩ := view_turn process sound open' nothing
      have shorter : (s.turn process bytes).2.length ≤ n := by
        have length := congrArg List.length cut
        rw [length_append] at length
        have := List.length_pos_iff.mpr some'
        omega
      have rest := ih sound' shorter
      rw [same, ← Reader.feed_append, ← cut] at rest
      exact rest
    · rw [if_pos (Or.inr open'), feed_of_error process sound open']
      exact ⟨rfl, sound⟩

/-- **A socket refines the byte reader**, whatever chunks it receives. -/
theorem view_receive (sound : s.Sound) (chunks : List Chunk) : (s.receive process chunks).view =
        s.view.feed (packetFraming process) (chunks.map Subtype.val).flatten ∧
      (s.receive process chunks).Sound := by
  induction chunks generalizing s with
  | nil => exact ⟨rfl, sound⟩
  | cons chunk rest ih =>
    obtain ⟨same, sound'⟩ := view_loop process chunk.1.length sound (Nat.le_refl _)
    have later := ih sound'
    rw [same, ← Reader.feed_append] at later
    exact later

theorem packets_eq_view : s.packets = s.view.frames.map fun frame => (frame.1.1, frame.2) := by
  rw [view, List.map_map]
  exact (List.map_id _).symm

theorem error_eq_view (sound : s.Sound) : s.error = match s.view.phase with
      | .malformed => some .malformed
      | .refused => some .refused
      | _ => none := by
  cases isError : s.error with
  | none =>
    cases begun : s.recvWPct with
    | none => simp only [view, isError, begun]
    | some opcode => simp only [view, isError, begun]
  | some e =>
    cases e with
    | malformed => simp only [view, isError]
    | noPacket => exact absurd isError sound.noPacket
    | refused => simp only [view, isError]

/-- **Packet framing does not depend on how the stream is chunked.** -/
theorem receive_eq_of_flatten_eq (session : σ) (chunks chunks' : List Chunk)
    (stream : (chunks.map Subtype.val).flatten = (chunks'.map Subtype.val).flatten) :
    let s := (opened session).receive process chunks
    let s' := (opened session).receive process chunks'
    s.packets = s'.packets ∧ s.error = s'.error ∧ s.taken = s'.taken := by
  obtain ⟨same, sound⟩ := view_receive process (sound_opened session) chunks
  obtain ⟨same', sound'⟩ := view_receive process (sound_opened session) chunks'
  rw [← stream] at same'
  have views : ((opened session).receive process chunks).view =
      ((opened session).receive process chunks').view := same.trans same'.symm
  refine ⟨?_, ?_, congrArg Framing.Reader.taken views⟩
  · rw [packets_eq_view, packets_eq_view, views]
  · rw [error_eq_view sound, error_eq_view sound', views]

/-- A session that sets up the cipher with the packet of opcode 1. -/
def cipherAfterOne : ProcessIncoming Unit := fun _ packet =>
  some ((), if packet.1 = 1 then some ⟨fun i => UInt8.ofNat i, 0⟩ else none)

/-- An empty plain packet, and an encrypted one of one byte after it. -/
def plainThenEncrypted : List Chunk :=
  [⟨[4, 0, 1, 0, 0, 0, 2, 0x21, 2, 3, 9], by decide⟩]

/-- The same bytes, cut inside both headers and where the cipher is set up. -/
def plainThenEncryptedInPieces : List Chunk :=
  [⟨[4, 0, 1], by decide⟩, ⟨[0, 0, 0, 2], by decide⟩, ⟨[0x21, 2, 3], by decide⟩, ⟨[9], by decide⟩]

theorem receive_plainThenEncryptedInPieces :
    ((opened ()).receive cipherAfterOne plainThenEncryptedInPieces).packets = [(1, []), (2, [9])] ∧
      ((opened ()).receive cipherAfterOne plainThenEncrypted).packets = [(1, []), (2, [9])] := by
  have same := receive_eq_of_flatten_eq cipherAfterOne () plainThenEncryptedInPieces
    plainThenEncrypted (by decide)
  have whole : ((opened ()).receive cipherAfterOne plainThenEncrypted).packets =
      [(1, []), (2, [9])] := by decide
  exact ⟨same.1.trans whole, whole⟩

end InputSocket

end Sky548
