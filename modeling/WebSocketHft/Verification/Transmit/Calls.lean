import WebSocketHft.Model.Process
import WebSocketHft.Verification.Ringbuffer.Equations

/-! # One outgoing frame

Header and payload of a frame go into the transmit ring by separate writes, and
each write takes what fits. What is queued of a frame is therefore its front, as
long as the free space. -/

namespace WebSocketHft

/-! ## Writing into the transmit ring -/

/-- A ring with valid pointers, or what `ringbuffer_cleanup` has left of one. -/
def RingBuffer.Usable (rb : RingBuffer) : Prop :=
  rb.Valid ∨ rb.size = 0 ∧ rb.readPtr = 0 ∧ rb.writePtr = 0

theorem ringbufferWrite_ret (rb : RingBuffer) (data : List UInt8) :
    (ringbufferWrite rb (some data)).ret = min data.length (ringbufferWriteable rb) := by
  simp only [ringbufferWrite]
  change WriteResult.ret (if data.length = 0 then _ else if ringbufferWriteable rb = 0 then _
    else _) = _
  split_ifs with hlen hfull hlt
  · simp [hlen]
  · simp [hfull]
  · exact (min_eq_left (le_of_lt hlt)).symm
  · exact (min_eq_right (not_lt.mp hlt)).symm

theorem ringbufferWrite_full {rb : RingBuffer} (h : ringbufferWriteable rb = 0)
    (data : List UInt8) : (ringbufferWrite rb (some data)).ring = rb := by
  simp only [ringbufferWrite]
  change WriteResult.ring (if data.length = 0 then _ else if ringbufferWriteable rb = 0 then _
    else _) = _
  rw [if_pos h]
  split_ifs <;> rfl

theorem writeable_of_empty {rb : RingBuffer}
    (h : rb.size = 0 ∧ rb.readPtr = 0 ∧ rb.writePtr = 0) : ringbufferWriteable rb = 0 := by
  obtain ⟨hsize, hread, hwrite⟩ := h
  rw [ringbufferWriteable, hsize, hread, hwrite]
  rfl

/-- From `ws` to `ws'` the bytes have been added to the transmit ring, and nothing else. -/
structure Queues (ws ws' : WebSocket) (bytes : List UInt8) : Prop where
  usable : ws'.txRing.Usable
  size_eq : ws'.txRing.size = ws.txRing.size
  queue_eq : ws'.txRing.queue = ws.txRing.queue ++ bytes
  writeable_eq : ringbufferWriteable ws'.txRing + bytes.length = ringbufferWriteable ws.txRing
  metrics_eq : ws'.metrics = ws.metrics
  trace_eq : ∃ parts : List (List UInt8),
    ws'.trace = ws.trace ++ parts.map .queued ∧ parts.flatten = bytes

theorem Queues.trans {ws ws' ws'' : WebSocket} {bytes bytes' : List UInt8}
    (h : Queues ws ws' bytes) (h' : Queues ws' ws'' bytes') :
    Queues ws ws'' (bytes ++ bytes') := by
  obtain ⟨parts, htrace, hparts⟩ := h.trace_eq
  obtain ⟨parts', htrace', hparts'⟩ := h'.trace_eq
  refine ⟨h'.usable, h'.size_eq.trans h.size_eq, ?_, ?_, h'.metrics_eq.trans h.metrics_eq,
    parts ++ parts', ?_, ?_⟩
  · rw [h'.queue_eq, h.queue_eq, List.append_assoc]
  · rw [List.length_append, ← h.writeable_eq, ← h'.writeable_eq]
    omega
  · rw [htrace', htrace, List.map_append, List.append_assoc]
  · rw [List.flatten_append, hparts, hparts']

theorem queueTx_fst (ws : WebSocket) (bytes : List UInt8) :
    (ws.queueTx bytes).1 = min bytes.length (ringbufferWriteable ws.txRing) :=
  ringbufferWrite_ret ws.txRing bytes

/-- A write takes the front of its bytes, as long as the free space. -/
theorem queueTx_queues {ws : WebSocket} (h : ws.txRing.Usable) (bytes : List UInt8) :
    Queues ws (ws.queueTx bytes).2 (bytes.take (ringbufferWriteable ws.txRing)) := by
  have hret := queueTx_fst ws bytes
  have htake : bytes.take (ws.queueTx bytes).1 = bytes.take (ringbufferWriteable ws.txRing) := by
    rw [hret, min_comm, ← List.take_take, List.take_length]
  have htrace : ∃ parts : List (List UInt8),
      (ws.queueTx bytes).2.trace = ws.trace ++ parts.map .queued ∧
        parts.flatten = bytes.take (ringbufferWriteable ws.txRing) :=
    ⟨[bytes.take (ws.queueTx bytes).1], rfl, by rw [List.flatten_singleton, htake]⟩
  rcases h with hvalid | hempty
  · have heq : (ws.queueTx bytes).2.txRing =
        ws.txRing.produce (bytes.take (ringbufferWriteable ws.txRing)) :=
      congrArg WriteResult.ring (ringbufferWrite_eq hvalid bytes)
    have hlen : (bytes.take (ringbufferWriteable ws.txRing)).length ≤
        ringbufferWriteable ws.txRing := List.length_take_le _ _
    have hvalid' := hvalid.produce (bytes.take (ringbufferWriteable ws.txRing))
    have hbefore := hvalid.writeable_add_readable
    have hafter := hvalid'.writeable_add_readable
    have hread := readable_produce hvalid _ hlen
    have hsize : (ws.txRing.produce (bytes.take (ringbufferWriteable ws.txRing))).size =
        ws.txRing.size := rfl
    refine ⟨?_, ?_, ?_, ?_, rfl, htrace⟩
    · rw [heq]
      exact Or.inl hvalid'
    · rw [heq, hsize]
    · rw [heq, queue_produce hvalid _ hlen]
    · rw [heq]
      omega
  · have hfull := writeable_of_empty hempty
    have heq : (ws.queueTx bytes).2.txRing = ws.txRing := ringbufferWrite_full hfull bytes
    refine ⟨?_, ?_, ?_, ?_, rfl, htrace⟩
    · rw [heq]
      exact Or.inr hempty
    · rw [heq]
    · rw [heq, hfull, List.take_zero, List.append_nil]
    · rw [heq, hfull]
      rfl

theorem flush_trace (env : Env) (ws : WebSocket) :
    ∃ bytes, (ws.flush env).trace = ws.trace ++ [.sent bytes] := by
  unfold WebSocket.flush
  split_ifs
  · exact ⟨_, rfl⟩
  · exact ⟨_, rfl⟩

/-! ## Header and payload -/

/-- The payload follows if the header could be queued whole. -/
def WebSocket.queueBoth (ws : WebSocket) (header payload : List UInt8) : Bool × WebSocket :=
  let r := ws.queueTx header
  if r.1 ≠ header.length then (false, r.2)
  else
    let r := r.2.queueTx payload
    (r.1 = payload.length, r.2)

/-- Both together take the front of the frame, and count as written when it fits. -/
theorem queueBoth_queues {ws : WebSocket} (h : ws.txRing.Usable) (header payload : List UInt8) :
    Queues ws (ws.queueBoth header payload).2
        ((header ++ payload).take (ringbufferWriteable ws.txRing)) ∧
      ((ws.queueBoth header payload).1 = true ↔
        header.length + payload.length ≤ ringbufferWriteable ws.txRing) := by
  have hfirst := queueTx_queues h header
  have hret := queueTx_fst ws header
  unfold WebSocket.queueBoth
  dsimp only
  by_cases hfit : header.length ≤ ringbufferWriteable ws.txRing
  · rw [if_neg (by omega)]
    rw [List.take_of_length_le hfit] at hfirst
    have hsecond := queueTx_queues hfirst.usable payload
    have hret' := queueTx_fst (ws.queueTx header).2 payload
    have hspace := hfirst.writeable_eq
    have hrest : ringbufferWriteable (ws.queueTx header).2.txRing =
        ringbufferWriteable ws.txRing - header.length := by omega
    rw [hrest] at hsecond hret'
    refine ⟨?_, ?_⟩
    · rw [List.take_append, List.take_of_length_le hfit]
      exact hfirst.trans hsecond
    · rw [decide_eq_true_iff, hret']
      omega
  · rw [if_pos (by omega)]
    refine ⟨?_, ?_⟩
    · rwa [List.take_append_of_le_length (by omega)]
    · simp only [Bool.false_eq_true, false_iff]
      omega

/-- `websocket_send` past its guards. -/
theorem websocketSend_eq (env : Env) {ws : WebSocket} {data : List UInt8} (isText : Bool)
    (hdata : data ≠ []) (hstate : ws.state = .connected) :
    websocketSend env ws (some data) isText =
      let header := sendHeader isText data.length
      let r := (ws.record (.transmit header data data (ringbufferWriteable ws.txRing)
        true)).queueBoth header data
      if r.1 then (0, (r.2.countSent data.length).flush env) else (-1, r.2) := by
  have hguard : ¬(data.length = 0 ∨ ws.state ≠ .connected) := by
    rw [List.length_eq_zero_iff]
    tauto
  unfold websocketSend WebSocket.queueBoth
  dsimp only
  rw [if_neg hguard]
  by_cases hheader : ((ws.record (.transmit (sendHeader isText data.length) data data
      (ringbufferWriteable ws.txRing) true)).queueTx (sendHeader isText data.length)).1 ≠
        (sendHeader isText data.length).length
  · rw [if_pos hheader, if_pos hheader]
    rfl
  · rw [if_neg hheader, if_neg hheader]
    simp only [ne_eq, ite_not, decide_eq_true_eq]

@[simp] theorem length_xorKey (key : MaskingKey) (bs : List UInt8) :
    (xorKey key bs).length = bs.length := by
  simp [xorKey]

/-- `websocket_send_pong` past its guard. -/
theorem websocketSendPong_eq (env : Env) {ws : WebSocket} (payload : List UInt8)
    (hstate : ws.state = .connected) :
    websocketSendPong env ws payload =
      let key := (env ws.tick).maskingKey
      let allocated := (env ws.tick).allocated
      let header := pongHeader key payload.length
      let ws' := (ws.record (.transmit header (xorKey key payload) payload
        (ringbufferWriteable ws.txRing) allocated)).pass
      if payload = [] then
        let r := ws'.queueTx header
        if r.1 = header.length then (0, r.2.flush env) else (-1, r.2)
      else if allocated = false then (-1, (ws'.queueTx header).2)
      else
        let r := ws'.queueBoth header (xorKey key payload)
        if r.1 then (0, r.2.flush env) else (-1, r.2) := by
  have hguard : ¬ws.state ≠ .connected := not_not.mpr hstate
  unfold websocketSendPong WebSocket.queueBoth
  dsimp only
  rw [if_neg hguard]
  generalize ((ws.record (.transmit (pongHeader (env ws.tick).maskingKey payload.length)
    (xorKey (env ws.tick).maskingKey payload) payload (ringbufferWriteable ws.txRing)
    (env ws.tick).allocated)).pass.queueTx
      (pongHeader (env ws.tick).maskingKey payload.length)) = r
  by_cases hheader : r.1 = (pongHeader (env ws.tick).maskingKey payload.length).length
  · rw [if_neg (not_not.mpr hheader), if_pos hheader, if_neg (not_not.mpr hheader)]
    by_cases hnil : payload = []
    · simp [hnil]
    · rw [if_pos (List.length_pos_iff.mpr hnil), if_neg hnil]
      by_cases halloc : (env ws.tick).allocated = false
      · rw [if_pos halloc, if_pos halloc]
      · rw [if_neg halloc, if_neg halloc, length_xorKey]
        simp only [ne_eq, ite_not, decide_eq_true_eq]
  · rw [if_pos hheader, if_neg hheader, if_pos hheader]
    simp only [Bool.false_eq_true, if_false, ite_self]

/-! ## Beginning a frame -/

/-- A frame is begun: header and payload are offered to the ring, or the header alone if there
is no payload or no memory for it. -/
inductive Begins (ws : WebSocket) (header payload clear : List UInt8) (allocated : Bool) :
    WebSocket → Prop
  | both : Begins ws header payload clear allocated
      ((ws.record (.transmit header payload clear (ringbufferWriteable ws.txRing)
        allocated)).queueBoth header payload).2
  | headerOnly (h : payload = [] ∨ allocated = false) : Begins ws header payload clear allocated
      ((ws.record (.transmit header payload clear (ringbufferWriteable ws.txRing)
        allocated)).queueTx header).2

/-- `websocket_send` does nothing, or begins its frame; it counts and transfers a frame that
was queued whole. -/
theorem websocketSend_cases (env : Env) (ws : WebSocket) (data : Option (List UInt8))
    (isText : Bool) :
    websocketSend env ws data isText = (-1, ws) ∨
      ∃ payload begun, ∃ whole : Bool, data = some payload ∧ payload ≠ [] ∧ ws.state = .connected ∧
        Begins ws (sendHeader isText payload.length) payload payload true begun ∧
        (ws.txRing.Usable → (whole = true ↔
          (sendHeader isText payload.length).length + payload.length ≤
            ringbufferWriteable ws.txRing)) ∧
        websocketSend env ws data isText =
          if whole then (0, (begun.countSent payload.length).flush env) else (-1, begun) := by
  cases data with
  | none => exact Or.inl rfl
  | some payload =>
      by_cases hguard : payload ≠ [] ∧ ws.state = .connected
      · refine Or.inr ⟨payload, _, _, rfl, hguard.1, hguard.2, .both, fun h => ?_,
          websocketSend_eq env isText hguard.1 hguard.2⟩
        have husable : (ws.record (.transmit (sendHeader isText payload.length) payload payload
          (ringbufferWriteable ws.txRing) true)).txRing.Usable := h
        exact (queueBoth_queues husable (sendHeader isText payload.length) payload).2
      · left
        have hguard' : payload.length = 0 ∨ ws.state ≠ .connected := by
          rw [List.length_eq_zero_iff]
          tauto
        simp only [websocketSend, if_pos hguard']

/-- `websocket_send_pong` does nothing, or begins its frame and perhaps makes a transfer. -/
theorem websocketSendPong_cases (env : Env) (ws : WebSocket) (payload : List UInt8) :
    websocketSendPong env ws payload = (-1, ws) ∨
      ∃ begun, ws.state = .connected ∧
        Begins ws.pass (pongHeader (env ws.tick).maskingKey payload.length)
          (xorKey (env ws.tick).maskingKey payload) payload (env ws.tick).allocated begun ∧
        ((websocketSendPong env ws payload).2 = begun ∨
          (websocketSendPong env ws payload).2 = begun.flush env) := by
  by_cases hstate : ws.state = .connected
  · right
    generalize hkey : (env ws.tick).maskingKey = key
    generalize halloc : (env ws.tick).allocated = allocated
    rw [websocketSendPong_eq env payload hstate, hkey, halloc]
    dsimp only
    split_ifs with hnil hwhole hnone hwhole
    · exact ⟨_, hstate, .headerOnly (Or.inl (by rw [hnil]; rfl)), Or.inr rfl⟩
    · exact ⟨_, hstate, .headerOnly (Or.inl (by rw [hnil]; rfl)), Or.inl rfl⟩
    · exact ⟨_, hstate, .headerOnly (Or.inr hnone), Or.inl rfl⟩
    · exact ⟨_, hstate, .both, Or.inr rfl⟩
    · exact ⟨_, hstate, .both, Or.inl rfl⟩
  · left
    simp only [websocketSendPong, if_pos hstate]

theorem queueBoth_trace (ws : WebSocket) (header payload : List UInt8) :
    ∃ parts : List (List UInt8), (ws.queueBoth header payload).2.trace =
      ws.trace ++ parts.map .queued := by
  unfold WebSocket.queueBoth
  dsimp only
  split_ifs
  · exact ⟨[_], rfl⟩
  · exact ⟨[_, _], List.append_assoc _ _ _⟩

variable {ws ws' : WebSocket} {header payload clear : List UInt8} {allocated : Bool}

theorem Begins.events (h : Begins ws header payload clear allocated ws') :
    ∃ parts : List (List UInt8), ws'.trace = ws.trace ++
      .transmit header payload clear (ringbufferWriteable ws.txRing) allocated ::
        parts.map .queued := by
  cases h with
  | both =>
      obtain ⟨parts, hparts⟩ := queueBoth_trace (ws.record (.transmit header payload clear
        (ringbufferWriteable ws.txRing) allocated)) header payload
      exact ⟨parts, hparts.trans (List.append_assoc _ _ _)⟩
  | headerOnly h => exact ⟨[_], List.append_assoc _ _ _⟩

/-- A frame has been begun: a front of it is queued, nothing of it in a full ring, and all of
it if there is room and memory. -/
structure Begun (ws ws' : WebSocket) (header payload clear : List UInt8) (allocated : Bool)
    (bytes : List UInt8) : Prop where
  queues : Queues (ws.record (.transmit header payload clear (ringbufferWriteable ws.txRing)
    allocated)) ws' bytes
  nothing : ringbufferWriteable ws.txRing = 0 → bytes = []
  whole : header.length + payload.length ≤ ringbufferWriteable ws.txRing →
    (payload = [] ∨ allocated = true) → bytes = header ++ payload

theorem Begins.begun (h : Begins ws header payload clear allocated ws') (husable : ws.txRing.Usable) :
    ∃ bytes, Begun ws ws' header payload clear allocated bytes := by
  have husable' : (ws.record (.transmit header payload clear (ringbufferWriteable ws.txRing)
      allocated)).txRing.Usable := husable
  cases h with
  | both =>
      refine ⟨_, (queueBoth_queues husable' header payload).1, ?_, ?_⟩
      · intro hzero
        exact List.take_eq_nil_iff.mpr (Or.inl hzero)
      · intro hfit _
        exact List.take_of_length_le (by rw [List.length_append]; exact hfit)
  | headerOnly hpayload =>
      refine ⟨_, queueTx_queues husable' header, ?_, ?_⟩
      · intro hzero
        exact List.take_eq_nil_iff.mpr (Or.inl hzero)
      · intro hfit hallocated
        have hnil : payload = [] := by
          rcases hpayload with hnil | hnone
          · exact hnil
          · exact hallocated.resolve_right (by rw [hnone]; exact Bool.false_ne_true)
        rw [hnil, List.append_nil]
        exact List.take_of_length_le ((Nat.le_add_right _ _).trans hfit)

/-! ## What every step of a sender keeps -/

/-- A relation between the states before and after that each step of a sender has. -/
structure KeptBySending (env : Env) (R : WebSocket → WebSocket → Prop) : Prop where
  refl : ∀ ws, R ws ws
  trans : ∀ {ws ws' ws''}, R ws ws' → R ws' ws'' → R ws ws''
  found : ∀ ws header payload clear space allocated,
    R ws (ws.record (.transmit header payload clear space allocated))
  pass : ∀ ws, R ws ws.pass
  queueTx : ∀ ws bytes, R ws (ws.queueTx bytes).2
  countSent : ∀ ws len, R ws (ws.countSent len)
  flush : ∀ ws, R ws (ws.flush env)

namespace KeptBySending

variable {env : Env} {R : WebSocket → WebSocket → Prop}

theorem begins (h : KeptBySending env R) (hbegins : Begins ws header payload clear allocated ws') :
    R ws ws' := by
  have hfound := h.found ws header payload clear (ringbufferWriteable ws.txRing) allocated
  cases hbegins with
  | both =>
      unfold WebSocket.queueBoth
      dsimp only
      split_ifs
      · exact h.trans hfound (h.queueTx _ _)
      · exact h.trans hfound (h.trans (h.queueTx _ _) (h.queueTx _ _))
  | headerOnly _ => exact h.trans hfound (h.queueTx _ _)

theorem websocketSend (h : KeptBySending env R) (ws : WebSocket) (data : Option (List UInt8))
    (isText : Bool) : R ws (WebSocketHft.websocketSend env ws data isText).2 := by
  rcases websocketSend_cases env ws data isText with
    heq | ⟨payload, begun, whole, -, -, -, hbegins, -, heq⟩
  · rw [heq]
    exact h.refl ws
  · rw [heq]
    split_ifs
    · exact h.trans (h.begins hbegins) (h.trans (h.countSent _ _) (h.flush _))
    · exact h.begins hbegins

theorem websocketSendPong (h : KeptBySending env R) (ws : WebSocket) (payload : List UInt8) :
    R ws (WebSocketHft.websocketSendPong env ws payload).2 := by
  rcases websocketSendPong_cases env ws payload with heq | ⟨begun, -, hbegins, heq⟩
  · rw [heq]
    exact h.refl ws
  · have hbegun := h.trans (h.pass ws) (h.begins hbegins)
    rcases heq with heq | heq
    · rw [heq]
      exact hbegun
    · rw [heq]
      exact h.trans hbegun (h.flush begun)

end KeptBySending

/-! ## What a failed call leaves behind -/

/-- There is no room at all for the frame, or the whole of it will be queued. -/
def HarmlessTransmit (header payload : List UInt8) (space : ℕ) (allocated : Bool) : Prop :=
  space = 0 ∨ header.length + payload.length ≤ space ∧ (payload = [] ∨ allocated = true)

/-- The three functions that queue a frame; the last is the first half of
`check_heartbeat`. -/
inductive Transmission where
  | send (data : Option (List UInt8)) (isText : Bool)
  | pong (payload : List UInt8)
  | heartbeat (nowNs : UInt64)

/-- The connection after the call. -/
def Transmission.run (env : Env) (ws : WebSocket) : Transmission → WebSocket
  | .send data isText => (websocketSend env ws data isText).2
  | .pong payload => (websocketSendPong env ws payload).2
  | .heartbeat nowNs => sendHeartbeat env ws nowNs

/-- The call returns `-1`, or does not count its ping as sent. -/
def Transmission.Fails (env : Env) (ws : WebSocket) : Transmission → Prop
  | .send data isText => (websocketSend env ws data isText).1 = -1
  | .pong payload => (websocketSendPong env ws payload).1 = -1
  | .heartbeat nowNs =>
    ¬(pingDue ws nowNs = true ∧ (ringbufferWrite ws.txRing (some pingFrame)).ret = 2)

/-- The call gives up at one of its guards, or its frame does no harm. -/
def Transmission.Harmless (env : Env) (ws : WebSocket) : Transmission → Prop
  | .send none _ => True
  | .send (some data) isText => data ≠ [] → ws.state = .connected →
      HarmlessTransmit (sendHeader isText data.length) data (ringbufferWriteable ws.txRing) true
  | .pong payload => ws.state = .connected →
      HarmlessTransmit (pongHeader (env ws.tick).maskingKey payload.length) payload
        (ringbufferWriteable ws.txRing) (env ws.tick).allocated
  | .heartbeat nowNs => pingDue ws nowNs = true →
      HarmlessTransmit pingFrame [] (ringbufferWriteable ws.txRing) true

/-- The outgoing stream and its counters are as before. -/
structure TxIntact (ws ws' : WebSocket) : Prop where
  queue_eq : ws'.txRing.queue = ws.txRing.queue
  messagesSent_eq : ws'.metrics.messagesSent = ws.metrics.messagesSent
  bytesSent_eq : ws'.metrics.bytesSent = ws.metrics.bytesSent

theorem TxIntact.refl (ws : WebSocket) : TxIntact ws ws := ⟨rfl, rfl, rfl⟩

theorem sendHeader_ne_nil (isText : Bool) (len : ℕ) : sendHeader isText len ≠ [] := by
  unfold sendHeader
  dsimp only
  split_ifs <;> exact List.cons_ne_nil _ _

theorem pongHeader_ne_nil (key : MaskingKey) (len : ℕ) : pongHeader key len ≠ [] := by
  unfold pongHeader
  dsimp only
  split_ifs <;> exact List.cons_ne_nil _ _

/-- A front of a frame leaves the stream intact only if it is empty. -/
theorem Queues.intact_iff {ws ws₁ ws' : WebSocket} {bytes : List UInt8} {space : ℕ}
    (h : Queues ws₁ ws' (bytes.take space)) (htx : ws₁.txRing = ws.txRing)
    (hmetrics : ws₁.metrics = ws.metrics) (hbytes : bytes ≠ []) :
    TxIntact ws ws' ↔ space = 0 := by
  have hqueue := h.queue_eq
  have hsame := h.metrics_eq
  rw [htx] at hqueue
  rw [hmetrics] at hsame
  constructor
  · intro hintact
    have hnil := hintact.queue_eq
    rw [hqueue, List.append_right_eq_self, List.take_eq_nil_iff] at hnil
    exact hnil.resolve_right hbytes
  · rintro rfl
    rw [List.take_zero, List.append_nil] at hqueue
    exact ⟨hqueue, congrArg _ hsame, congrArg _ hsame⟩

/-- A call that succeeds when its frame fits leaves the stream intact on failure exactly when
the frame fits or there is no space at all. -/
theorem Queues.atomic_iff {ws ws₁ ws' done : WebSocket} {bytes : List UInt8} {space : ℕ}
    {whole fits : Prop} [Decidable whole] (h : Queues ws₁ ws' (bytes.take space))
    (htx : ws₁.txRing = ws.txRing) (hmetrics : ws₁.metrics = ws.metrics) (hbytes : bytes ≠ [])
    (hwhole : whole ↔ fits) :
    ((if whole then ((0 : ℤ), done) else (-1, ws')).1 = -1 →
        TxIntact ws (if whole then ((0 : ℤ), done) else (-1, ws')).2) ↔
      space = 0 ∨ fits := by
  by_cases hdone : whole
  · simp [hdone, hwhole.mp hdone]
  · rw [if_neg hdone, or_iff_left (mt hwhole.mpr hdone)]
    simp only [forall_const]
    exact h.intact_iff htx hmetrics hbytes

theorem harmlessTransmit_of_not_fits {header payload : List UInt8} {space : ℕ} {allocated : Bool}
    (h : ¬(header.length + payload.length ≤ space ∧ (payload = [] ∨ allocated = true))) :
    HarmlessTransmit header payload space allocated ↔ space = 0 :=
  or_iff_left h

theorem send_atomic_iff (env : Env) {ws : WebSocket} (h : ws.txRing.Usable)
    (data : Option (List UInt8)) (isText : Bool) :
    ((Transmission.send data isText).Fails env ws →
        TxIntact ws ((Transmission.send data isText).run env ws)) ↔
      (Transmission.send data isText).Harmless env ws := by
  cases data with
  | none => exact iff_of_true (fun _ => TxIntact.refl ws) trivial
  | some data =>
      change ((websocketSend env ws (some data) isText).1 = -1 →
        TxIntact ws (websocketSend env ws (some data) isText).2) ↔
        (data ≠ [] → ws.state = .connected → HarmlessTransmit _ _ _ _)
      by_cases hguard : data ≠ [] ∧ ws.state = .connected
      · obtain ⟨hdata, hstate⟩ := hguard
        simp only [hdata, hstate, ne_eq, not_false_eq_true, forall_const]
        rw [websocketSend_eq env isText hdata hstate]
        dsimp only
        have husable : (ws.record (.transmit (sendHeader isText data.length) data data
            (ringbufferWriteable ws.txRing) true)).txRing.Usable := h
        obtain ⟨hqueues, hwhole⟩ := queueBoth_queues husable (sendHeader isText data.length) data
        refine (hqueues.atomic_iff (Eq.refl ws.txRing) (Eq.refl ws.metrics)
          (List.append_ne_nil_of_left_ne_nil (sendHeader_ne_nil _ _) _) hwhole).trans ?_
        simp [HarmlessTransmit, WebSocket.record]
      · have hself : (websocketSend env ws (some data) isText).2 = ws := by
          have hguard' : data.length = 0 ∨ ws.state ≠ .connected := by
            rw [List.length_eq_zero_iff]
            tauto
          unfold websocketSend
          dsimp only
          rw [if_pos hguard']
        refine iff_of_true ?_ fun hdata hstate => absurd ⟨hdata, hstate⟩ hguard
        rw [hself]
        exact fun _ => TxIntact.refl ws

theorem pong_atomic_iff (env : Env) {ws : WebSocket} (h : ws.txRing.Usable)
    (payload : List UInt8) :
    ((Transmission.pong payload).Fails env ws →
        TxIntact ws ((Transmission.pong payload).run env ws)) ↔
      (Transmission.pong payload).Harmless env ws := by
  change ((websocketSendPong env ws payload).1 = -1 →
    TxIntact ws (websocketSendPong env ws payload).2) ↔
    (ws.state = .connected → HarmlessTransmit _ _ _ _)
  by_cases hstate : ws.state = .connected
  · simp only [hstate, forall_const]
    rw [websocketSendPong_eq env payload hstate]
    dsimp only
    generalize hws : (ws.record (.transmit
      (pongHeader (env ws.tick).maskingKey payload.length) (xorKey (env ws.tick).maskingKey payload)
      payload (ringbufferWriteable ws.txRing) (env ws.tick).allocated)).pass = ws₁
    have htx : ws₁.txRing = ws.txRing := by rw [← hws]; rfl
    have hmetrics : ws₁.metrics = ws.metrics := by rw [← hws]; rfl
    rw [← htx] at h ⊢
    have hheader := pongHeader_ne_nil (env ws.tick).maskingKey payload.length
    have hsingle := queueTx_queues h (pongHeader (env ws.tick).maskingKey payload.length)
    have hret := queueTx_fst ws₁ (pongHeader (env ws.tick).maskingKey payload.length)
    by_cases hnil : payload = []
    · have hwhole : (ws₁.queueTx (pongHeader (env ws.tick).maskingKey payload.length)).1 =
          (pongHeader (env ws.tick).maskingKey payload.length).length ↔
          (pongHeader (env ws.tick).maskingKey payload.length).length ≤
            ringbufferWriteable ws₁.txRing := by omega
      rw [if_pos hnil, hsingle.atomic_iff htx hmetrics hheader hwhole]
      simp [HarmlessTransmit, hnil]
    · rw [if_neg hnil]
      by_cases halloc : (env ws.tick).allocated = false
      · rw [if_pos halloc, harmlessTransmit_of_not_fits (by simp [hnil, halloc])]
        simp only [forall_const]
        exact hsingle.intact_iff htx hmetrics hheader
      · obtain ⟨hqueues, hwhole⟩ := queueBoth_queues h
          (pongHeader (env ws.tick).maskingKey payload.length)
          (xorKey (env ws.tick).maskingKey payload)
        rw [length_xorKey] at hwhole
        rw [if_neg halloc, hqueues.atomic_iff htx hmetrics
          (List.append_ne_nil_of_left_ne_nil hheader _) hwhole]
        simp [HarmlessTransmit, halloc]
  · have hself : (websocketSendPong env ws payload).2 = ws := by
      unfold websocketSendPong
      rw [if_pos hstate]
    refine iff_of_true ?_ fun hconnected => absurd hconnected hstate
    rw [hself]
    exact fun _ => TxIntact.refl ws

theorem heartbeat_atomic_iff (env : Env) {ws : WebSocket} (h : ws.txRing.Usable)
    (nowNs : UInt64) :
    ((Transmission.heartbeat nowNs).Fails env ws →
        TxIntact ws ((Transmission.heartbeat nowNs).run env ws)) ↔
      (Transmission.heartbeat nowNs).Harmless env ws := by
  change (¬(pingDue ws nowNs = true ∧ (ringbufferWrite ws.txRing (some pingFrame)).ret = 2) →
    TxIntact ws (sendHeartbeat env ws nowNs)) ↔
    (pingDue ws nowNs = true → HarmlessTransmit pingFrame [] _ true)
  have hret := ringbufferWrite_ret ws.txRing pingFrame
  have htwo : pingFrame.length = 2 := rfl
  unfold sendHeartbeat
  by_cases hdue : pingDue ws nowNs = true
  · rw [if_pos hdue]
    dsimp only
    have husable : (ws.record (.transmit pingFrame [] [] (ringbufferWriteable ws.txRing)
        true)).txRing.Usable := h
    have hqueues := queueTx_queues husable pingFrame
    have hsame : ((ws.record (.transmit pingFrame [] [] (ringbufferWriteable ws.txRing) true)).queueTx
        pingFrame).1 = (ringbufferWrite ws.txRing (some pingFrame)).ret := rfl
    by_cases hfit : 2 ≤ ringbufferWriteable ws.txRing
    · have hwhole : (ringbufferWrite ws.txRing (some pingFrame)).ret = 2 := by omega
      simp [hdue, hwhole, HarmlessTransmit, htwo, hfit]
    · have hpart : (ringbufferWrite ws.txRing (some pingFrame)).ret ≠ 2 := by omega
      rw [hsame, if_neg hpart, harmlessTransmit_of_not_fits fun hboth => hfit hboth.1]
      simp only [hdue, hpart, and_false, not_false_eq_true, forall_const]
      exact hqueues.intact_iff rfl rfl (List.cons_ne_nil _ _)
  · rw [if_neg hdue]
    exact iff_of_true (fun _ => TxIntact.refl ws) fun hdue' => absurd hdue' hdue

/-- A call that fails leaves the stream intact exactly when its frame does no harm. -/
theorem transmission_atomic_iff (env : Env) {ws : WebSocket} (h : ws.txRing.Usable)
    (t : Transmission) :
    (t.Fails env ws → TxIntact ws (t.run env ws)) ↔ t.Harmless env ws := by
  cases t with
  | send data isText => exact send_atomic_iff env h data isText
  | pong payload => exact pong_atomic_iff env h payload
  | heartbeat nowNs => exact heartbeat_atomic_iff env h nowNs

end WebSocketHft
