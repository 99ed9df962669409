import WebSocketHft.Verification.Frames.Delivery

/-! # Where the queue sits in the ring

`process_frames` takes the inline pointer and the readable length as they are, and
looks at the memory from there on. What it does depends on the queue alone,
whatever lies behind the buffer, exactly when it looks at nothing behind its end. -/

namespace WebSocketHft

open WebSocketHft.Memory WebSocketHft.Circular

/-- The same messages, the same pongs, the same state and the same remaining queue. -/
structure SameOutcome (ws₁ ws₂ : WebSocket) : Prop where
  messages : messagesOf ws₁.trace = messagesOf ws₂.trace
  pongs : queuedOf ws₁.trace = queuedOf ws₂.trace
  state : ws₁.state = ws₂.state
  queue : ws₁.rxRing.queue = ws₂.rxRing.queue

/-- A ring of the given size that holds the queue `q` from the given cell on. -/
structure PlacedAt (rb : RingBuffer) (size readPtr : ℕ) (q : List UInt8) : Prop where
  valid : rb.Valid
  size_eq : rb.size = size
  readPtr_eq : rb.readPtr = readPtr
  queue_eq : rb.queue = q

/-- A pass over the ring looks at nothing behind the end of the buffer. -/
def RingBuffer.StaysInside (rb : RingBuffer) : Prop :=
  rb.readPtr + passReach maxParseAttempts rb.linear ≤ rb.size

/-- Whatever lies behind the buffer: a pass over the queue `q` stays inside it from both cells,
and does the same from both. -/
def PlacementIndependent (size readPtr₁ readPtr₂ : ℕ) (q : List UInt8) : Prop :=
  ∀ (env : Env) (ws : WebSocket) (rx₁ rx₂ : RingBuffer), PlacedAt rx₁ size readPtr₁ q →
    PlacedAt rx₂ size readPtr₂ q → rx₁.StaysInside ∧ rx₂.StaysInside ∧
      SameOutcome (processFrames env (ws.withRx rx₁)) (processFrames env (ws.withRx rx₂))

/-- The connection without its history. -/
def WebSocket.blank (ws : WebSocket) : WebSocket := { ws with trace := [] }

/-! ## What is shown before the end -/

theorem parserReach_eq_of_shown {data data' : ℕ → UInt8} {len : ℕ}
    (h : ∀ i < parserReach data len, data i = data' i) :
    parserReach data' len = parserReach data len := by
  rcases Nat.lt_or_ge len 2 with hlt | hge
  · rw [parserReach, parserReach, if_pos hlt, if_pos hlt]
  · have htwo := two_le_parserReach data hge
    exact parserReach_congr (h 1 (by omega)).symm len

/-- Two byte strings that agree as far as a pass looks. -/
theorem passReach_congr {attempts : ℕ} {bs bs' : List UInt8} (hlen : bs'.length = bs.length)
    (h : ∀ i < passReach attempts bs, bytesAt bs' i = bytesAt bs i) :
    passReach attempts bs' = passReach attempts bs := by
  induction attempts generalizing bs bs' with
  | zero => rfl
  | succ attempts ih =>
      have hheader : ∀ i < parserReach (bytesAt bs) bs.length, bytesAt bs i = bytesAt bs' i :=
        fun i hi => (h i (hi.trans_le (parserReach_le_passReach attempts bs))).symm
      have hsame : parseBytes bs' = parseBytes bs := by
        rw [parseBytes, hlen]
        exact (neonParseWsFrame_congr_reach hheader).symm
      have hparser := parserReach_eq_of_shown hheader
      have hrest {n : ℕ} (hn : ∀ i < passReach attempts (bs.drop n),
          n + i < passReach (attempts + 1) bs) :
          passReach attempts (bs'.drop n) = passReach attempts (bs.drop n) := by
        refine ih (by rw [List.length_drop, List.length_drop, hlen]) fun i hi => ?_
        rw [bytesAt_drop, bytesAt_drop, h _ (hn i hi)]
      cases hparse : parseBytes bs with
      | needMore => simp only [passReach, hsame, hparse, hlen, hparser]
      | error => simp only [passReach, hsame, hparse, hlen, hparser]
      | ok frame =>
          by_cases hzero : frame.frameSize = 0
          · have hstep : passReach (attempts + 1) bs = _ := passReach_of_skip hparse hzero
            rw [passReach_of_skip (hsame.trans hparse) hzero, hrest (by omega), ← hstep]
          · have hstep : passReach (attempts + 1) bs = _ := passReach_of_frame hparse hzero
            rw [passReach_of_frame (hsame.trans hparse) hzero, hrest (by omega), ← hstep]

namespace PlacedAt

variable {rb : RingBuffer} {size readPtr : ℕ} {q : List UInt8} (h : PlacedAt rb size readPtr q)
include h

theorem readable : ringbufferReadable rb = q.length := by
  rw [← length_queue, h.queue_eq]

/-- Before the end of the buffer the memory shows the queue. -/
theorem buf_apply {i : ℕ} (hi : i < q.length) (hin : readPtr + i < size) :
    rb.buf (readPtr + i) = bytesAt q i := by
  have hcell : rb.queue[i]? = some (rb.buf (readPtr + i)) := by
    rw [RingBuffer.queue, getElem?_window _ _ _ _ _ (by rwa [h.readable]), h.readPtr_eq, h.size_eq,
      Nat.mod_eq_of_lt hin]
  rw [h.queue_eq] at hcell
  rw [bytesAt, List.getD_eq_getElem?_getD, hcell, Option.getD_some]

/-- A pass over the ring looks as far as a pass over the queue, if that stays inside. -/
theorem staysInside (hfit : PayloadsFit maxParseAttempts q)
    (hreach : readPtr + passReach maxParseAttempts q ≤ size) : rb.StaysInside := by
  have hle := hfit.passReach_le
  have hlinear : passReach maxParseAttempts rb.linear = passReach maxParseAttempts q := by
    refine passReach_congr ((load_length _ _ _).trans h.readable) fun i hi => ?_
    rw [RingBuffer.linear, bytesAt_load _ _ _ (by rw [h.readable]; omega), h.readPtr_eq]
    exact h.buf_apply (by omega) (by omega)
  rw [RingBuffer.StaysInside, hlinear, h.readPtr_eq, h.size_eq]
  exact hreach

/-- What such a pass does is told by the queue alone, but for its record of the look. -/
theorem processFrames_eq (env : Env) (ws : WebSocket) (hne : q ≠ [])
    (hfit : PayloadsFit maxParseAttempts q)
    (hreach : readPtr + passReach maxParseAttempts q ≤ size) :
    let r := framesLoop env maxParseAttempts 0 q ws.blank
    ∃ rx, processFrames env (ws.withRx rb) = r.2.over rx (ws.trace ++ [.frames rb.linear]) ∧
      rx.queue = q.drop r.1 := by
  have hle := hfit.passReach_le
  have hstart : (ws.withRx rb).record (.frames rb.linear) =
      ws.blank.over rb (ws.trace ++ [.frames rb.linear]) := by
    simp only [WebSocket.record, WebSocket.withRx, WebSocket.over, WebSocket.blank,
      List.append_nil]
  have hshown : ∀ i < passReach maxParseAttempts q, rb.buf (rb.readPtr + i) = bytesAt q i := by
    intro i hi
    rw [h.readPtr_eq]
    exact h.buf_apply (by omega) (by omega)
  obtain ⟨buf, hpass, hout⟩ :=
    processFrames_shown env (ws.withRx rb) h.valid h.readable.symm hne hfit hshown
  rw [withRx_rxRing, hstart, framesLoop_over] at hpass hout
  have hconsumed := framesLoop_le env maxParseAttempts 0 q ws.blank
  rw [← h.readable] at hconsumed
  have hqueue := queue_consume_rewritten h.valid hconsumed hout
  rw [h.queue_eq] at hqueue
  exact ⟨_, hpass, hqueue⟩

end PlacedAt

/-- Passes that stay inside do the same, whatever lies behind the buffer. -/
theorem sameOutcome_of_inside (env : Env) (ws : WebSocket) {rx₁ rx₂ : RingBuffer}
    {size readPtr₁ readPtr₂ : ℕ} {q : List UInt8} (hat₁ : PlacedAt rx₁ size readPtr₁ q)
    (hat₂ : PlacedAt rx₂ size readPtr₂ q) (hfit : PayloadsFit maxParseAttempts q)
    (h₁ : readPtr₁ + passReach maxParseAttempts q ≤ size)
    (h₂ : readPtr₂ + passReach maxParseAttempts q ≤ size) :
    SameOutcome (processFrames env (ws.withRx rx₁)) (processFrames env (ws.withRx rx₂)) := by
  by_cases hnil : q = []
  · have hidle {rx : RingBuffer} {readPtr : ℕ} (hat : PlacedAt rx size readPtr q) :
        processFrames env (ws.withRx rx) = ws.withRx rx :=
      if_pos (hat.readable.trans (by rw [hnil, List.length_nil]))
    rw [hidle hat₁, hidle hat₂]
    exact ⟨rfl, rfl, rfl, hat₁.queue_eq.trans hat₂.queue_eq.symm⟩
  · obtain ⟨rx₁', hpass₁, hqueue₁⟩ := hat₁.processFrames_eq env ws hnil hfit h₁
    obtain ⟨rx₂', hpass₂, hqueue₂⟩ := hat₂.processFrames_eq env ws hnil hfit h₂
    rw [hpass₁, hpass₂]
    refine ⟨?_, ?_, rfl, hqueue₁.trans hqueue₂.symm⟩
    · simp only [WebSocket.over, messagesOf, List.filterMap_append]
      rfl
    · simp only [WebSocket.over, queuedOf, List.filterMap_append]
      rfl

/-! ## Rings with any memory behind them -/

/-- A ring with the queue `q` at a cell, in memory that held `m` before. -/
def placedRing (size readPtr : ℕ) (q : List UInt8) (m : ℕ → UInt8) : RingBuffer :=
  RingBuffer.produce ⟨m, size, readPtr, readPtr⟩ q

section Placed

variable {size readPtr : ℕ} {q : List UInt8} (hr : readPtr < size) (hq : q.length < size)
  (m : ℕ → UInt8)

include hr hq

theorem placedRing_placedAt : PlacedAt (placedRing size readPtr q m) size readPtr q := by
  have hroom : q.length ≤ ringbufferWriteable ⟨m, size, readPtr, readPtr⟩ := by
    simp only [ringbufferWriteable, spaceAvailable, le_refl, if_true]
    split_ifs <;> omega
  refine ⟨RingBuffer.Valid.produce ⟨hr, hr⟩ q, rfl, rfl, ?_⟩
  rw [placedRing, queue_produce ⟨hr, hr⟩ q hroom, queue_eq_nil_of_ptr_eq rfl, List.nil_append]

theorem placedRing_behind {j : ℕ} (hj : size ≤ j) : (placedRing size readPtr q m).buf j = m j :=
  circularStore_apply_of_size_le m q hr hq.le hj

/-- In memory that goes on as the queue does, a pass sees the queue. -/
theorem placedRing_linear :
    (placedRing size readPtr q fun j => bytesAt q (j - readPtr)).linear = q := by
  have hat := placedRing_placedAt hr hq fun j => bytesAt q (j - readPtr)
  rw [RingBuffer.linear, hat.readable, hat.readPtr_eq]
  refine (load_congr fun i hi => ?_).trans (load_bytesAt q)
  rw [Nat.zero_add]
  rcases Nat.lt_or_ge (readPtr + i) size with hin | hout
  · exact hat.buf_apply hi hin
  · rw [placedRing_behind hr hq _ hout, Nat.add_sub_cancel_left]

end Placed

/-- A pass that stays inside whatever lies behind the buffer does so on the queue itself. -/
theorem reach_le_of_staysInside {size readPtr : ℕ} {q : List UInt8} (hr : readPtr < size)
    (hq : q.length < size) (h : ∀ rx, PlacedAt rx size readPtr q → rx.StaysInside) :
    readPtr + passReach maxParseAttempts q ≤ size := by
  have hinside := h _ (placedRing_placedAt hr hq fun j => bytesAt q (j - readPtr))
  rw [RingBuffer.StaysInside, placedRing_linear hr hq] at hinside
  exact hinside

/-! ## Messages that run past the end -/

/-- With `cells` cells left before the end, a pass over `bs` comes to a message whose header
lies before the end and whose payload runs past it. -/
def RunsOver : ℕ → ℕ → List UInt8 → Prop
  | 0, _, _ => False
  | attempts + 1, cells, bs =>
    match parseBytes bs with
    | .ok frame =>
      frame.frameSize ≠ 0 ∧
        ((frame.opcode = wsOpcodeText ∨ frame.opcode = wsOpcodeBinary) ∧
            frame.headerSize ≤ cells ∧ cells < frame.headerSize + frame.payloadLen ∨
          frame.reach ≤ cells ∧ frame.frameSize ≤ cells ∧
            RunsOver attempts (cells - frame.frameSize) (bs.drop frame.frameSize))
    | _ => False

theorem RunsOver.frame {attempts cells : ℕ} {bs : List UInt8}
    (h : RunsOver (attempts + 1) cells bs) :
    ∃ frame, parseBytes bs = .ok frame ∧ frame.frameSize ≠ 0 ∧ frame.headerSize ≤ cells ∧
      ((frame.opcode = wsOpcodeText ∨ frame.opcode = wsOpcodeBinary) ∧
          cells < frame.headerSize + frame.payloadLen ∨
        frame.reach ≤ cells ∧ frame.frameSize ≤ cells ∧
          RunsOver attempts (cells - frame.frameSize) (bs.drop frame.frameSize)) := by
  unfold RunsOver at h
  split at h
  · rename_i frame hparse
    obtain ⟨hsize, hcases⟩ := h
    refine ⟨frame, hparse, hsize, ?_, ?_⟩
    · rcases hcases with ⟨-, hheader, -⟩ | ⟨hreach, -⟩
      · exact hheader
      · exact (headerSize_le_reach frame).trans hreach
    · exact hcases.imp_left fun ⟨hmsg, _, hover⟩ => ⟨hmsg, hover⟩
  · exact h.elim

theorem messagesOf_deliverMessage (env : Env) {ws : WebSocket} (hmsg : ws.onMessage = true)
    (payload : List UInt8) :
    messagesOf (deliverMessage env ws payload).trace = messagesOf ws.trace ++ [payload] ∧
      (deliverMessage env ws payload).onMessage = true := by
  have hsampled : Aside ws (sampleLatency env (ws.countReceived payload.length)) :=
    ((Quiet.countReceived ws _).trans (Quiet.sampleLatency env _)).aside
  unfold deliverMessage
  dsimp only
  generalize sampleLatency env (ws.countReceived payload.length) = ws₁ at hsampled ⊢
  have hset : ws₁.onMessage = true := hsampled.onMessage.trans hmsg
  have hcalls : Aside (ws₁.record (.message payload ws₁.callbackUserData)).pass
      (ws₁.callback env (.message payload ws₁.callbackUserData)) := Aside.foldl_run _ _
  rw [if_pos hset]
  refine ⟨?_, hcalls.onMessage.trans hset⟩
  rw [hcalls.messagesOf_eq, ← hsampled.messagesOf_eq]
  exact messagesOf_append _ _

/-- A TEXT or BINARY frame delivers its payload, and no other frame delivers anything. -/
theorem messagesOf_actOnFrame (env : Env) {ws : WebSocket} (hmsg : ws.onMessage = true)
    (frame : WSFrame) (payload : List UInt8) :
    messagesOf (actOnFrame env ws frame payload).trace = messagesOf ws.trace ++
        (if frame.opcode = wsOpcodeText ∨ frame.opcode = wsOpcodeBinary then [payload] else []) ∧
      (actOnFrame env ws frame payload).onMessage = true := by
  have haside {ws' : WebSocket} (h : Aside ws ws') :
      messagesOf ws'.trace = messagesOf ws.trace ++ [] ∧ ws'.onMessage = true :=
    ⟨by rw [h.messagesOf_eq, List.append_nil], h.onMessage.trans hmsg⟩
  unfold actOnFrame
  split_ifs
  · exact messagesOf_deliverMessage env hmsg payload
  · exact haside (Quiet.websocketSendPong env ws payload).aside
  · exact haside (Aside.notePong ws)
  · refine ⟨?_, hmsg⟩
    rw [WebSocket.receiveClose, (Aside.setState _ _).messagesOf_eq]
    exact messagesOf_append _ _
  · exact haside (Aside.refl ws)

/-- A byte of the payload as it lies in the memory, up to the mask. -/
theorem getElem?_framePayload (frame : WSFrame) (m : ℕ → UInt8) (start : ℕ) {i : ℕ}
    (hi : i < frame.payloadLen) :
    (framePayload frame (load m start (frame.headerSize + frame.payloadLen)))[i]? =
      some (m (start + frame.headerSize + i) ^^^
        if frame.mask ≠ 0 then frame.maskingKey.get i else 0) := by
  have hraw : ((load m start (frame.headerSize + frame.payloadLen)).drop frame.headerSize).take
      frame.payloadLen = load m (start + frame.headerSize) frame.payloadLen := by
    rw [load_drop, load_take _ _ _ _ (by omega)]
  have hcell := getElem?_load m (start + frame.headerSize) frame.payloadLen i hi
  rw [framePayload, hraw]
  split_ifs
  · rw [xorKey, List.getElem?_mapIdx, hcell]
    rfl
  · rw [hcell, UInt8.xor_zero]

/-- The cell behind the end of the buffer is delivered: it is byte `i` of the message that comes
after `k` others, up to the mask, whatever the memory holds from there on. -/
def Leaks (attempts cells : ℕ) (bs : List UInt8) (k i : ℕ) (mask : UInt8) : Prop :=
  ∀ (env : Env) (data len offset total : ℕ) (ws : WebSocket), bs.length = len - offset →
    ws.onMessage = true →
    (∀ j < cells, j < bs.length → ws.rxRing.buf (data + offset + j) = bytesAt bs j) →
    ∃ payload,
      (messagesOf (processFramesLoop env data len attempts offset total ws).2.trace)[
        (messagesOf ws.trace).length + k]? = some payload ∧
      payload[i]? = some (ws.rxRing.buf (data + offset + cells) ^^^ mask)

section Leaks

variable {attempts cells : ℕ} {bs : List UInt8} {frame : WSFrame}
  (hparse : parseBytes bs = .ok frame) (hsize : frame.frameSize ≠ 0)
include hparse hsize

/-- A header before the end is parsed as the queue says. -/
theorem processFramesLoop_of_shown (hheader : frame.headerSize ≤ cells) (env : Env)
    (data len offset total : ℕ) (ws : WebSocket) (hlen : bs.length = len - offset)
    (hshown : ∀ j < cells, j < bs.length → ws.rxRing.buf (data + offset + j) = bytesAt bs j) :
    processFramesLoop env data len (attempts + 1) offset total ws =
      processFramesLoop env data len attempts (offset + frame.frameSize)
        (total + frame.frameSize) (handleFrame env ws frame (data + offset)) := by
  have hle := frameSize_le_of_parse hparse
  have hreach := headerSize_of_parse hparse
  have hwithin := parserReach_le (bytesAt bs) bs.length
  refine processFramesLoop_frame env data len attempts offset total ws (by omega) ?_ (by omega)
  rw [← hparse, parseBytes, ← hlen]
  exact (neonParseWsFrame_congr_reach fun i hi => (hshown i (by omega) (by omega)).symm).symm

/-- A message that runs past the end. What comes later does not change it. -/
theorem leaks_of_crossing (hmsg : frame.opcode = wsOpcodeText ∨ frame.opcode = wsOpcodeBinary)
    (hheader : frame.headerSize ≤ cells) (hover : cells < frame.headerSize + frame.payloadLen) :
    Leaks (attempts + 1) cells bs 0 (cells - frame.headerSize)
      (if frame.mask ≠ 0 then frame.maskingKey.get (cells - frame.headerSize) else 0) := by
  intro env data len offset total ws hlen hset hshown
  obtain ⟨buf, hact, -⟩ := handleFrame_eq env ws frame (data + offset)
    (le_refl (frame.headerSize + frame.payloadLen))
  have hcell : data + offset + frame.headerSize + (cells - frame.headerSize) =
      data + offset + cells := by omega
  have hbyte := getElem?_framePayload frame ws.rxRing.buf (data + offset)
    (show cells - frame.headerSize < frame.payloadLen by omega)
  have hmessages := (messagesOf_actOnFrame env hset frame (framePayload frame
    (load ws.rxRing.buf (data + offset) (frame.headerSize + frame.payloadLen)))).1
  have hlater : Moves env (handleFrame env ws frame (data + offset))
      (processFramesLoop env data len attempts (offset + frame.frameSize)
        (total + frame.frameSize) (handleFrame env ws frame (data + offset))).2 :=
    Moves.stages.processFramesLoop _ _ _ _ _ _
  obtain ⟨es, hes⟩ := hlater.trace_extends
  rw [if_pos hmsg] at hmessages
  rw [hcell] at hbyte
  refine ⟨_, ?_, hbyte⟩
  rw [processFramesLoop_of_shown hparse hsize hheader env data len offset total ws hlen hshown,
    ← hes, messagesOf_append, hact, withRx_trace, hmessages, List.append_assoc,
    List.getElem?_append_right (by omega), Nat.add_sub_cancel_left]
  rfl

/-- A frame before the end. The memory behind it stays as it was. -/
theorem Leaks.behind_frame {k i : ℕ} {mask : UInt8} (hcells : cells < 2 ^ 64)
    (hreach : frame.reach ≤ cells) (hinside : frame.frameSize ≤ cells)
    (h : Leaks attempts (cells - frame.frameSize) (bs.drop frame.frameSize) k i mask) :
    Leaks (attempts + 1) cells bs
      ((if frame.opcode = wsOpcodeText ∨ frame.opcode = wsOpcodeBinary then 1 else 0) + k) i
      mask := by
  intro env data len offset total ws hlen hset hshown
  have hle := frameSize_le_of_parse hparse
  have hheader := (headerSize_le_reach frame).trans hreach
  obtain ⟨buf, hact, hout⟩ := handleFrame_eq env ws frame (data + offset)
    (le_refl (frame.headerSize + frame.payloadLen))
  obtain ⟨hmessages, hset'⟩ := messagesOf_actOnFrame env hset frame (framePayload frame
    (load ws.rxRing.buf (data + offset) (frame.headerSize + frame.payloadLen)))
  have hbehind (j : ℕ) : (handleFrame env ws frame (data + offset)).rxRing.buf
      (data + (offset + frame.frameSize) + j) =
        ws.rxRing.buf (data + offset + (frame.frameSize + j)) := by
    have hcell : data + (offset + frame.frameSize) + j =
        data + offset + (frame.frameSize + j) := by omega
    rw [hact, hcell]
    refine hout _ fun huses => Or.inr ?_
    have htaken : frame.reach = frame.headerSize + frame.payloadLen := if_pos huses
    have hfits : frame.frameSize = frame.headerSize + frame.payloadLen :=
      Nat.mod_eq_of_lt (show _ < sizeMax by rw [← htaken, sizeMax]; omega)
    omega
  have hnext : ∀ j < cells - frame.frameSize, j < (bs.drop frame.frameSize).length →
      (handleFrame env ws frame (data + offset)).rxRing.buf
        (data + (offset + frame.frameSize) + j) = bytesAt (bs.drop frame.frameSize) j := by
    intro j hj hin
    rw [List.length_drop] at hin
    rw [hbehind, bytesAt_drop]
    exact hshown _ (by omega) (by omega)
  obtain ⟨payload, hpayload, hbyte⟩ := h env data len (offset + frame.frameSize)
    (total + frame.frameSize) (handleFrame env ws frame (data + offset))
    (by rw [List.length_drop]; omega) (by rw [hact]; exact hset') hnext
  refine ⟨payload, ?_, ?_⟩
  · rw [processFramesLoop_of_shown hparse hsize hheader env data len offset total ws hlen hshown,
      ← hpayload, hact, withRx_trace, hmessages, List.length_append]
    congr 1
    split_ifs <;> simp [Nat.add_assoc]
  · rw [hbyte, hbehind, Nat.add_sub_cancel' hinside]

end Leaks

theorem RunsOver.leaks {attempts cells : ℕ} {bs : List UInt8} (hcells : cells < 2 ^ 64)
    (h : RunsOver attempts cells bs) : ∃ k i mask, Leaks attempts cells bs k i mask := by
  induction attempts generalizing cells bs with
  | zero => exact h.elim
  | succ attempts ih =>
      obtain ⟨frame, hparse, hsize, hheader, ⟨hmsg, hover⟩ | ⟨hreach, hinside, hrest⟩⟩ := h.frame
      · exact ⟨_, _, _, leaks_of_crossing hparse hsize hmsg hheader hover⟩
      · obtain ⟨k, i, mask, hleaks⟩ := ih (by omega) hrest
        exact ⟨_, _, _, hleaks.behind_frame hparse hsize hcells hreach hinside⟩

/-- What such a message is depends on what lies behind the buffer. -/
theorem messages_differ_of_runsOver (env : Env) {ws : WebSocket} (hset : ws.onMessage = true)
    {size readPtr : ℕ} {q : List UInt8} (hsize : size < 2 ^ 63) (hr : readPtr < size)
    (hq : q.length < size) (h : RunsOver maxParseAttempts (size - readPtr) q) :
    messagesOf (processFrames env (ws.withRx (placedRing size readPtr q fun _ => 0))).trace ≠
      messagesOf (processFrames env (ws.withRx (placedRing size readPtr q fun _ => 1))).trace := by
  obtain ⟨k, i, mask, hleaks⟩ := h.leaks (by omega)
  have hne : q.length ≠ 0 := by
    obtain ⟨frame, hparse, hzero, -⟩ := RunsOver.frame h
    have hle := frameSize_le_of_parse hparse
    omega
  have hbyte (b : UInt8) : ∃ payload,
      (messagesOf (processFrames env (ws.withRx (placedRing size readPtr q fun _ => b))).trace)[
        (messagesOf ws.trace).length + k]? = some payload ∧ payload[i]? = some (b ^^^ mask) := by
    have hat := placedRing_placedAt hr hq fun _ => b
    have hend := placedRing_behind hr hq (fun _ => b) (le_refl size)
    generalize placedRing size readPtr q (fun _ => b) = rb at hat hend ⊢
    have hstart : messagesOf ((ws.withRx rb).record (.frames rb.linear)).trace =
        messagesOf ws.trace := (messagesOf_append _ _).trans (List.append_nil _)
    obtain ⟨payload, hpayload, hcell⟩ := hleaks env readPtr q.length 0 0
      ((ws.withRx rb).record (.frames rb.linear)) rfl hset fun j hj hin =>
        hat.buf_apply hin (by omega)
    refine ⟨payload, ?_, ?_⟩
    · rw [processFrames_of_readable env _ (by rw [withRx_rxRing, hat.readable]; exact hne),
        withRx_rxRing, hat.readPtr_eq, hat.readable, ← hpayload, hstart]
      dsimp only
      split_ifs <;> rfl
    · rw [hcell, Nat.add_zero, Nat.add_sub_cancel' hr.le]
      exact congrArg (fun c => some (c ^^^ mask)) hend
  intro hsame
  obtain ⟨payload₀, hpayload₀, hbyte₀⟩ := hbyte 0
  obtain ⟨payload₁, hpayload₁, hbyte₁⟩ := hbyte 1
  rw [hsame, hpayload₁] at hpayload₀
  rw [← Option.some.inj hpayload₀, hbyte₁] at hbyte₀
  exact absurd ((UInt8.xor_left_inj mask).mp (Option.some.inj hbyte₀)) (by decide)

/-- For every queue, whatever lies behind the buffer: `process_frames` stays inside the buffer
and does the same from both cells exactly when everything that a pass over the queue looks at
lies before the end. Where it comes to a message that does not, some memory behind the buffer
makes a difference to what is delivered. -/
theorem placement_independent_iff (size readPtr₁ readPtr₂ : ℕ) (q : List UInt8)
    (hsize : size < 2 ^ 63) (h₁ : readPtr₁ < size) (h₂ : readPtr₂ < size) (hq : q.length < size) :
    (PlacementIndependent size readPtr₁ readPtr₂ q ↔
      readPtr₁ + passReach maxParseAttempts q ≤ size ∧
        readPtr₂ + passReach maxParseAttempts q ≤ size) ∧
    (RunsOver maxParseAttempts (size - readPtr₁) q →
      ∀ (env : Env) (ws : WebSocket) (rx₂ : RingBuffer), ws.onMessage = true →
        PlacedAt rx₂ size readPtr₂ q → ∃ rx₁, PlacedAt rx₁ size readPtr₁ q ∧
          messagesOf (processFrames env (ws.withRx rx₁)).trace ≠
            messagesOf (processFrames env (ws.withRx rx₂)).trace) := by
  refine ⟨⟨?_, ?_⟩, ?_⟩
  · intro h
    let follow (readPtr : ℕ) := placedRing size readPtr q fun j => bytesAt q (j - readPtr)
    have hat₁ : PlacedAt (follow readPtr₁) size readPtr₁ q := placedRing_placedAt h₁ hq _
    have hat₂ : PlacedAt (follow readPtr₂) size readPtr₂ q := placedRing_placedAt h₂ hq _
    exact ⟨reach_le_of_staysInside h₁ hq fun rx hat =>
        (h (fun _ => {}) connectedWebSocket rx _ hat hat₂).1,
      reach_le_of_staysInside h₂ hq fun rx hat =>
        (h (fun _ => {}) connectedWebSocket _ rx hat₁ hat).2.1⟩
  · rintro ⟨hreach₁, hreach₂⟩ env ws rx₁ rx₂ hat₁ hat₂
    have hfit : PayloadsFit maxParseAttempts q := payloadsFit_of_reach (by omega) (by omega)
    exact ⟨hat₁.staysInside hfit hreach₁, hat₂.staysInside hfit hreach₂,
      sameOutcome_of_inside env ws hat₁ hat₂ hfit hreach₁ hreach₂⟩
  · intro hover env ws rx₂ hset _
    have hdiffer := messages_differ_of_runsOver env hset hsize h₁ hq hover
    by_cases hsame : messagesOf (processFrames env
        (ws.withRx (placedRing size readPtr₁ q fun _ => 0))).trace =
          messagesOf (processFrames env (ws.withRx rx₂)).trace
    · exact ⟨_, placedRing_placedAt h₁ hq fun _ => 1, fun h => hdiffer (hsame.trans h.symm)⟩
    · exact ⟨_, placedRing_placedAt h₁ hq fun _ => 0, hsame⟩

/-- The first four bytes of a frame of seven, two cells before the end of a ring of sixteen: a
pass looks at the two bytes before the end only. A whole frame of four bytes there runs past
the end. -/
theorem placement_independent_unfinished :
    PlacementIndependent 16 14 0 [0x81, 0x05, 0x48, 0x65] ∧
      ¬PlacementIndependent 16 14 0 [0x81, 0x02, 0x48, 0x69] ∧
      ∃ rx, PlacedAt rx 16 14 [0x81, 0x02, 0x48, 0x69] ∧
        messagesOf (processFrames (fun _ => {}) (connectedWebSocket.withRx rx)).trace ≠
          messagesOf (processFrames (fun _ => {}) (connectedWebSocket.withRx
            (placedRing 16 0 [0x81, 0x02, 0x48, 0x69] fun _ => 0))).trace := by
  have hbegun := placement_independent_iff 16 14 0 [0x81, 0x05, 0x48, 0x65] (by decide) (by decide)
    (by decide) (by decide)
  have hwhole := placement_independent_iff 16 14 0 [0x81, 0x02, 0x48, 0x69] (by decide) (by decide)
    (by decide) (by decide)
  refine ⟨hbegun.1.mpr ⟨by decide +kernel, by decide +kernel⟩,
    fun h => absurd (hwhole.1.mp h).1 (by decide +kernel), ?_⟩
  refine hwhole.2 ?_ (fun _ => {}) connectedWebSocket _ rfl
    (placedRing_placedAt (by decide) (by decide) _)
  exact ⟨by decide, Or.inl ⟨by decide, by decide, by decide⟩⟩

/-- The frame `81 02 48 69` two cells before the end of a ring of the real size over zeroed
memory, and at the start of one: the first delivers two bytes from behind the buffer. -/
theorem payload_read_behind_buffer :
    let split := RingBuffer.produce ⟨fun _ => 0, ringbufferSize, ringbufferSize - 2,
      ringbufferSize - 2⟩ [0x81, 0x02, 0x48, 0x69]
    let whole := ringbufferInit.produce [0x81, 0x02, 0x48, 0x69]
    split.queue = whole.queue ∧ split.size = whole.size ∧ split.readPtr ≠ whole.readPtr ∧
      messagesOf (processFrames (fun _ => {}) (connectedWebSocket.withRx split)).trace =
        [[0x00, 0x00]] ∧
      messagesOf (processFrames (fun _ => {}) (connectedWebSocket.withRx whole)).trace =
        [[0x48, 0x69]] := by
  decide

end WebSocketHft
