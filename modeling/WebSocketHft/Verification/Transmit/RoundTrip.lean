import WebSocketHft.Verification.Frames.Alignment
import WebSocketHft.Verification.Transmit.Runs

/-! # Reading back what is sent

The bytes that a call puts into the transmit ring, given to the parser. A message
is read back as it was handed over, whatever follows it. A pong carries the
payload of its ping, unless the copy for the masked payload cannot be allocated. -/

namespace WebSocketHft

open WebSocketHft.Memory

/-! ## One frame -/

/-- The parser reads the bytes as one final frame with this payload, whatever follows. -/
structure ReadsAs (bytes ys : List UInt8) (opcode : UInt8) (payload : List UInt8)
    (frame : WSFrame) : Prop where
  parse : parseBytes (bytes ++ ys) = .ok frame
  fin : frame.fin = 1
  opcode_eq : frame.opcode = opcode
  payloadLen_eq : frame.payloadLen = payload.length
  payload_eq : framePayload frame (bytes ++ ys) = payload
  size_eq : frame.headerSize + frame.payloadLen = bytes.length

theorem readsAs_encode {f : WireFrame} (hfin : f.fin = true) (hsize : f.size < 2 ^ 64)
    (ys : List UInt8) : ReadsAs f.encode ys f.opcode f.payload f.parsed where
  parse := parseBytes_encode hsize ys
  fin := by rw [WireFrame.parsed, hfin, if_pos rfl]
  opcode_eq := rfl
  payloadLen_eq := rfl
  payload_eq := framePayload_encode f ys
  size_eq := f.encode_length.symm

/-- The header alone is not read as a frame when a payload belongs to it. -/
theorem parseBytes_header {f : WireFrame} (hpayload : f.payload ≠ []) (hsize : f.size < 2 ^ 64) :
    parseBytes f.header = .needMore := by
  have htwo := f.two_le_headerSize
  have hpos := List.length_pos_iff.mpr hpayload
  have hload : load (bytesAt f.header) 0 f.header.length = f.encode.take f.header.length := by
    rw [load_bytesAt, WireFrame.encode, List.take_left]
  have hlt : f.header.length < f.size := by
    rw [f.header_length, WireFrame.size]
    omega
  rw [parseBytes, WireFrame.parse_partial hload hlt hsize, f.header_length, if_neg (by omega)]

/-! ## What a call appends -/

/-- The bytes put into the transmit ring between the two states. -/
def appended (ws ws' : WebSocket) : List UInt8 :=
  (queuedOf (ws'.trace.drop ws.trace.length)).flatten

/-- A frame is announced, its parts are queued, and perhaps something is sent. -/
theorem appended_of_queues {ws ws₀ ws₁ ws₂ : WebSocket} {e : Event} {bytes : List UInt8}
    {es : List Event} (hstart : ws₀.trace = ws.trace ++ [e]) (he : e.queuedBytes? = none)
    (h : Queues ws₀ ws₁ bytes) (hend : ws₂.trace = ws₁.trace ++ es) (hes : queuedOf es = []) :
    appended ws ws₂ = bytes := by
  obtain ⟨parts, htrace, rfl⟩ := h.trace_eq
  have hall : ws₂.trace = ws.trace ++ (e :: (parts.map .queued ++ es)) := by
    rw [hend, htrace, hstart]
    simp
  have hqueued : queuedOf (e :: (parts.map .queued ++ es)) = parts := by
    rw [queuedOf, List.filterMap_cons_none he, List.filterMap_append]
    change queuedOf (parts.map .queued) ++ queuedOf es = parts
    rw [queuedOf_map_queued, hes, List.append_nil]
  rw [appended, hall, List.drop_left, hqueued]

/-- A call that ends by sending what is queued. -/
theorem appended_flush {ws ws₀ ws₁ : WebSocket} {e : Event} {bytes : List UInt8} (env : Env)
    (hstart : ws₀.trace = ws.trace ++ [e]) (he : e.queuedBytes? = none)
    (h : Queues ws₀ ws₁ bytes) : appended ws (ws₁.flush env) = bytes := by
  obtain ⟨sent, hflush⟩ := flush_trace env ws₁
  exact appended_of_queues hstart he h hflush rfl

/-! ## Messages -/

/-- The length type the parser reports for the shortest form. -/
theorem lengthType_shortestForm (n : ℕ) :
    (if (shortestForm n).width = 0 then 7 else 8 * (shortestForm n).width) =
      if n < 126 then 7 else if n < 65536 then 16 else 64 := by
  unfold shortestForm
  by_cases hshort : n < 126
  · rw [if_pos hshort, if_pos hshort]
    rfl
  · rw [if_neg hshort, if_neg hshort]
    by_cases hmedium : n < 65536
    · rw [if_pos hmedium, if_pos hmedium]
      rfl
    · rw [if_neg hmedium, if_neg hmedium]
      rfl

/-- For every message with room for its frame: the parser reads the bytes that
`websocket_send` appends as that message, in the shortest form, whatever follows. -/
theorem send_round_trip (env : Env) (ws : WebSocket) (data : List UInt8) (isText : Bool)
    (ys : List UInt8) (hdata : data ≠ []) (hstate : ws.state = .connected)
    (hvalid : ws.txRing.Valid) (hsize : ws.txRing.size < 2 ^ 64)
    (hspace : (sendHeader isText data.length).length + data.length ≤
      ringbufferWriteable ws.txRing) :
    (∃ ws₁ : WebSocket, websocketSend env ws (some data) isText = (0, ws₁.flush env) ∧
      ws₁.txRing.queue =
        ws.txRing.queue ++ appended ws (websocketSend env ws (some data) isText).2) ∧
    ∃ frame, ReadsAs (appended ws (websocketSend env ws (some data) isText).2) ys
        (if isText then wsOpcodeText else wsOpcodeBinary) data frame ∧
      frame.payloadLenType =
        if data.length < 126 then 7 else if data.length < 65536 then 16 else 64 := by
  have hroom := writeable_lt (Or.inl hvalid) hsize
  have hlt : data.length < 2 ^ 64 := by omega
  have husable : (ws.record (.transmit (sendHeader isText data.length) data data
      (ringbufferWriteable ws.txRing) true)).txRing.Usable := Or.inl hvalid
  obtain ⟨hqueues, hwhole⟩ := queueBoth_queues husable (sendHeader isText data.length) data
  have hfits := hwhole.mpr hspace
  have hbytes : (sendHeader isText data.length ++ data).take (ringbufferWriteable ws.txRing) =
      (sentFrame isText data hlt).encode := by
    rw [encode_sentFrame, List.take_of_length_le (by rwa [List.length_append])]
  change Queues _ _ ((sendHeader isText data.length ++ data).take
    (ringbufferWriteable ws.txRing)) at hqueues
  rw [hbytes] at hqueues
  have hsend := websocketSend_eq env isText hdata hstate
  dsimp only at hsend
  rw [if_pos hfits] at hsend
  generalize hws : ((ws.record (.transmit (sendHeader isText data.length) data data
    (ringbufferWriteable ws.txRing) true)).queueBoth (sendHeader isText data.length) data).2 = ws₁
    at hqueues hsend
  have happended : appended ws (websocketSend env ws (some data) isText).2 =
      (sentFrame isText data hlt).encode := by
    rw [hsend]
    obtain ⟨sent, hflush⟩ := flush_trace env (ws₁.countSent data.length)
    exact appended_of_queues rfl rfl hqueues hflush rfl
  have hframe : (sentFrame isText data hlt).size < 2 ^ 64 := by
    rw [← WireFrame.encode_length, encode_sentFrame, List.length_append]
    omega
  rw [happended]
  exact ⟨⟨_, hsend, hqueues.queue_eq⟩, _, readsAs_encode rfl hframe ys,
    lengthType_shortestForm data.length⟩

/-- Two bytes of text, followed by the start of something else. -/
theorem round_trip_hi :
    ∃ frame, ReadsAs (appended connectedWebSocket
        (websocketSend (fun _ => {}) connectedWebSocket (some [0x48, 0x69]) true).2) [0x89]
        wsOpcodeText [0x48, 0x69] frame ∧ frame.payloadLenType = 7 :=
  (send_round_trip (fun _ => {}) connectedWebSocket [0x48, 0x69] true [0x89] (by decide) rfl
    ⟨by decide, by decide⟩ (by decide) (by decide)).2

/-! ## Pongs -/

/-- The payload of a ping as the application would see it. -/
def Acting.payload (a : Acting) : List UInt8 :=
  framePayload a.frame (load a.ws.rxRing.buf a.start a.frame.frameSize)

/-- What the pong looks like in the transmit ring: whole, or its header alone if the copy for the
masked payload cannot be allocated. -/
def pongBytes (key : MaskingKey) (payload : List UInt8) (allocated : Bool) : List UInt8 :=
  pongHeader key payload.length ++
    if payload = [] ∨ allocated = true then xorKey key payload else []

/-- The pong is announced before anything is queued. -/
def WebSocket.announcePong (env : Env) (ws : WebSocket) (payload : List UInt8) : WebSocket :=
  (ws.record (.transmit (pongHeader (env ws.tick).maskingKey payload.length)
    (xorKey (env ws.tick).maskingKey payload) payload (ringbufferWriteable ws.txRing)
    (env ws.tick).allocated)).pass

/-- With room for all of it, these bytes are queued, and sent unless the allocation fails. -/
theorem sendPong_queues (env : Env) {ws : WebSocket} {payload : List UInt8}
    (hstate : ws.state = .connected) (hvalid : ws.txRing.Valid)
    (hspace : (pongHeader (env ws.tick).maskingKey payload.length).length + payload.length ≤
      ringbufferWriteable ws.txRing) :
    ∃ ws₁ : WebSocket, ((websocketSendPong env ws payload).2 = ws₁ ∨
        (websocketSendPong env ws payload).2 = ws₁.flush env) ∧
      Queues (ws.announcePong env payload) ws₁
        (pongBytes (env ws.tick).maskingKey payload (env ws.tick).allocated) := by
  have husable : (ws.announcePong env payload).txRing.Usable := Or.inl hvalid
  have hwriteable : ringbufferWriteable (ws.announcePong env payload).txRing =
      ringbufferWriteable ws.txRing := rfl
  have hsend := websocketSendPong_eq env payload hstate
  dsimp only at hsend
  rw [show (ws.record _).pass = ws.announcePong env payload from rfl] at hsend
  unfold pongBytes
  generalize (env ws.tick).maskingKey = key at hspace hsend ⊢
  generalize pongHeader key payload.length = header at hspace hsend ⊢
  generalize ws.announcePong env payload = ws₀ at husable hwriteable hsend ⊢
  rw [← hwriteable] at hspace
  have hheader := queueTx_queues husable header
  have hret := queueTx_fst ws₀ header
  rw [List.take_of_length_le (by omega)] at hheader
  by_cases hnil : payload = []
  · rw [if_pos hnil, if_pos (by omega)] at hsend
    have hempty : xorKey key payload = [] := by rw [hnil]; rfl
    rw [if_pos (Or.inl hnil), hempty, List.append_nil, hsend]
    exact ⟨_, Or.inr rfl, hheader⟩
  · rw [if_neg hnil] at hsend
    by_cases halloc : (env ws.tick).allocated = false
    · rw [if_pos halloc] at hsend
      rw [if_neg (by simp [hnil, halloc]), List.append_nil, hsend]
      exact ⟨_, Or.inl rfl, hheader⟩
    · obtain ⟨hboth, hwhole⟩ := queueBoth_queues husable header (xorKey key payload)
      rw [length_xorKey] at hwhole
      rw [List.take_of_length_le (by rwa [List.length_append, length_xorKey])] at hboth
      rw [if_neg halloc, if_pos (hwhole.mpr hspace)] at hsend
      rw [if_pos (Or.inr (by simpa using halloc)), hsend]
      exact ⟨_, Or.inr rfl, hboth⟩

/-- What a pong appends to the transmit ring. -/
theorem appended_sendPong (env : Env) {ws : WebSocket} {payload : List UInt8}
    (hstate : ws.state = .connected) (hvalid : ws.txRing.Valid)
    (hspace : (pongHeader (env ws.tick).maskingKey payload.length).length + payload.length ≤
      ringbufferWriteable ws.txRing) :
    (∃ ws₁ : WebSocket, ((websocketSendPong env ws payload).2 = ws₁ ∨
        (websocketSendPong env ws payload).2 = ws₁.flush env) ∧
      ws₁.txRing.queue = ws.txRing.queue ++ appended ws (websocketSendPong env ws payload).2) ∧
    appended ws (websocketSendPong env ws payload).2 =
      pongBytes (env ws.tick).maskingKey payload (env ws.tick).allocated := by
  obtain ⟨ws₁, hsent, hqueues⟩ := sendPong_queues env hstate hvalid hspace
  have happended : appended ws (websocketSendPong env ws payload).2 =
      pongBytes (env ws.tick).maskingKey payload (env ws.tick).allocated := by
    rcases hsent with hsent | hsent
    · rw [hsent]
      exact appended_of_queues rfl rfl hqueues (List.append_nil _).symm rfl
    · rw [hsent]
      exact appended_flush env rfl rfl hqueues
  exact ⟨⟨ws₁, hsent, by rw [happended]; exact hqueues.queue_eq⟩, happended⟩

theorem length_pongHeader (key : MaskingKey) (n : ℕ) :
    (pongHeader key n).length = if n < 126 then 6 else if n < 65536 then 8 else 14 := by
  unfold pongHeader
  split_ifs <;> simp [MaskingKey.bytes]

/-- Bytes that are read as a pong with this payload, masked. -/
def EchoOf (bytes payload : List UInt8) : Prop :=
  ∃ frame, ReadsAs bytes [] wsOpcodePong payload frame ∧ frame.mask = 1

/-- The whole frame is an echo, its header alone is none. -/
theorem echoOf_iff (key : MaskingKey) (payload : List UInt8) {whole : Prop} [Decidable whole]
    (hwhole : payload = [] → whole)
    (hsize : (pongHeader key payload.length).length + payload.length < 2 ^ 64) :
    EchoOf (pongHeader key payload.length ++ if whole then xorKey key payload else []) payload ↔
      whole := by
  have hlt : payload.length < 2 ^ 64 := by omega
  have hencode := encode_pongFrame key payload hlt
  have hframe : (pongFrame key payload hlt).size < 2 ^ 64 := by
    rwa [← WireFrame.encode_length, hencode, List.length_append, length_xorKey]
  by_cases hdone : whole
  · rw [if_pos hdone, ← hencode]
    exact iff_of_true ⟨_, readsAs_encode rfl hframe [], rfl⟩ hdone
  · have hne : payload ≠ [] := fun hnil => hdone (hwhole hnil)
    have hheader : pongHeader key payload.length = (pongFrame key payload hlt).header :=
      (List.append_inj_left' hencode (by rw [WireFrame.body_length, length_xorKey]; rfl)).symm
    rw [if_neg hdone, List.append_nil, hheader]
    refine iff_of_false ?_ hdone
    rintro ⟨frame, hreads, -⟩
    have hparse := hreads.parse
    rw [List.append_nil, parseBytes_header hne hframe] at hparse
    cases hparse

/-- The frame of an entry lies in memory as it was announced, unless its size wraps. -/
theorem Acting.payload_length {a : Acting}
    (hsum : a.frame.headerSize + a.frame.payloadLen < 2 ^ 64) :
    a.frame.frameSize = a.frame.headerSize + a.frame.payloadLen ∧
      a.payload.length = a.frame.payloadLen := by
  have hsize : a.frame.frameSize = a.frame.headerSize + a.frame.payloadLen := Nat.mod_eq_of_lt hsum
  have hraw : (((load a.ws.rxRing.buf a.start a.frame.frameSize).drop a.frame.headerSize).take
      a.frame.payloadLen).length = a.frame.payloadLen := by
    rw [List.length_take, List.length_drop, load_length]
    omega
  refine ⟨hsize, ?_⟩
  unfold Acting.payload framePayload
  dsimp only
  split_ifs
  · rw [length_xorKey, hraw]
  · exact hraw

/-- For every PING that `process_frames` acts on while CONNECTED, with room for the pong: the
bytes appended are a masked pong with the payload of the ping if and only if that payload is
empty or its masked copy can be allocated. The receive ring is unchanged beyond the ping. -/
theorem pong_echoes_iff (env : Env) (ws : WebSocket) (a : Acting) (ha : a ∈ actedFrames env ws)
    (hping : a.frame.opcode = wsOpcodePing) (hstate : a.ws.state = .connected)
    (hvalid : a.ws.txRing.Valid) (hsize : a.ws.txRing.size < 2 ^ 64)
    (hspace : (pongHeader (env a.ws.tick).maskingKey a.frame.payloadLen).length +
      a.frame.payloadLen ≤ ringbufferWriteable a.ws.txRing) :
    (EchoOf (appended a.ws (a.after env)) a.payload ↔
      a.frame.payloadLen = 0 ∨ (env a.ws.tick).allocated = true) ∧
    (∃ ws₁ : WebSocket, ((a.after env).txRing = ws₁.txRing ∨
        (a.after env).txRing = (ws₁.flush env).txRing) ∧
      ws₁.txRing.queue = a.ws.txRing.queue ++ appended a.ws (a.after env)) ∧
    ∃ buf, (a.after env).rxRing = { a.ws.rxRing with buf := buf } ∧
      ∀ j, j < a.start ∨ a.start + a.frame.frameSize ≤ j → buf j = a.ws.rxRing.buf j := by
  obtain ⟨n, hparse, -, -⟩ := parse_of_mem_actedLoop ha
  have hroom := writeable_lt (Or.inl hvalid) hsize
  have hheader : a.frame.headerSize ≤ 14 := by
    obtain ⟨-, -, -, hframe⟩ := neonParseWsFrame_ok hparse
    rw [hframe]
    exact headerBytes_le _
  have hsum : a.frame.headerSize + a.frame.payloadLen < 2 ^ 64 := by
    rw [length_pongHeader] at hspace
    split_ifs at hspace <;> omega
  obtain ⟨hframe, hlen⟩ := Acting.payload_length hsum
  obtain ⟨buf, hafter, hout⟩ := handleFrame_eq env a.ws a.frame a.start hframe.ge
  have hact : actOnFrame env a.ws a.frame a.payload = (websocketSendPong env a.ws a.payload).2 := by
    unfold actOnFrame
    rw [hping, if_neg (by decide), if_pos rfl]
  change a.after env = (actOnFrame env a.ws a.frame a.payload).withRx _ at hafter
  rw [hact] at hafter
  rw [← hlen] at hspace
  obtain ⟨⟨ws₁, hsent, hqueue⟩, happended⟩ := appended_sendPong env hstate hvalid hspace
  have hsame : appended a.ws (a.after env) =
      appended a.ws (websocketSendPong env a.ws a.payload).2 := by
    rw [hafter]
    rfl
  have hnil : a.frame.payloadLen = 0 ↔ a.payload = [] := by
    rw [← hlen, List.length_eq_zero_iff]
  refine ⟨?_, ?_, buf, ?_, ?_⟩
  · rw [hsame, happended, hnil]
    exact echoOf_iff _ _ Or.inl (by omega)
  · refine ⟨ws₁, ?_, by rw [hsame, hqueue]⟩
    rw [hafter, withRx_txRing]
    exact hsent.imp (congrArg WebSocket.txRing) (congrArg WebSocket.txRing)
  · rw [hafter, withRx_rxRing]
  · rw [hframe]
    exact fun j hj => hout j fun _ => hj

/-- A connection that has received a masked PING with the payload `Hi`. -/
def pingedWebSocket : WebSocket :=
  { connectedWebSocket with
    rxRing := ringbufferInit.produce [0x89, 0x82, 1, 2, 3, 4, 0x49, 0x6B] }

/-- The ping as `process_frames` comes to it. -/
def pingedActing : Acting :=
  ⟨passStart pingedWebSocket, 0, ⟨1, 9, 1, 7, 2, ⟨1, 2, 3, 4⟩, 6, 6⟩⟩

theorem mem_actedFrames_pinged (env : Env) : pingedActing ∈ actedFrames env pingedWebSocket := by
  have hlen : ringbufferReadable pingedWebSocket.rxRing = 8 := by decide
  have hparse : neonParseWsFrame (fun i => (passStart pingedWebSocket).rxRing.buf (0 + 0 + i))
      (8 - 0) = .ok pingedActing.frame := by decide
  rw [actedFrames, hlen]
  change _ ∈ actedLoop env 0 8 (999 + 1) 0 (passStart pingedWebSocket)
  rw [actedLoop, if_pos (by decide), hparse]
  dsimp only
  rw [if_neg (by decide)]
  exact List.mem_cons_self

theorem pong_echoes_hi :
    EchoOf (appended pingedActing.ws (pingedActing.after fun _ => {})) pingedActing.payload :=
  (pong_echoes_iff (fun _ => {}) pingedWebSocket pingedActing (mem_actedFrames_pinged _) rfl rfl
    ⟨by decide, by decide⟩ (by decide) (by decide)).1.mpr (Or.inr rfl)

/-- When `malloc` fails, the bare header of the pong is appended. It announces two bytes that
never follow. -/
theorem pong_header_alone :
    pingedActing ∈ actedFrames (fun _ => { allocated := false }) pingedWebSocket ∧
      pingedActing.ws.state = .connected ∧ pingedActing.payload = [0x48, 0x69] ∧
      appended pingedActing.ws (pingedActing.after fun _ => { allocated := false }) =
        [0x8A, 0x82, 0, 0, 0, 0] ∧
      ¬EchoOf (appended pingedActing.ws (pingedActing.after fun _ => { allocated := false }))
        pingedActing.payload := by
  have hbytes : appended pingedActing.ws (pingedActing.after fun _ => { allocated := false }) =
      [0x8A, 0x82, 0, 0, 0, 0] := by decide +kernel
  refine ⟨mem_actedFrames_pinged _, rfl, by decide +kernel, hbytes, ?_⟩
  rintro ⟨frame, hreads, -⟩
  have hwait : parseBytes ([0x8A, 0x82, 0, 0, 0, 0] ++ []) = .needMore := by decide
  have hparse := hreads.parse
  rw [hbytes, hwait] at hparse
  cases hparse

end WebSocketHft
