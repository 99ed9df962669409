import WebSocketHft.Model.Process
import WebSocketHft.Verification.Frames.Taking
import WebSocketHft.Verification.Ringbuffer.ZeroCopy

/-! # Delivery does not depend on how the stream is cut

Whatever pieces the bytes of a stream of frames arrive in, the application gets
the payloads of its messages in order, each once. A piece is a pass of
`process_frames` repeated until it no longer gets anywhere; a run is a list of
pieces. -/

namespace WebSocketHft

/-! ## What the application has got -/

/-- From `ws` to `ws'` the application got these payloads and the connection stayed up. -/
structure Delivers (ws ws' : WebSocket) (payloads : List (List UInt8)) : Prop where
  state : ws'.state = ws.state
  onMessage : ws'.onMessage = ws.onMessage
  messages : messagesOf ws'.trace = messagesOf ws.trace ++ payloads

theorem Delivers.trans {ws ws' ws'' : WebSocket} {ps qs : List (List UInt8)}
    (h : Delivers ws ws' ps) (h' : Delivers ws' ws'' qs) : Delivers ws ws'' (ps ++ qs) where
  state := h'.state.trans h.state
  onMessage := h'.onMessage.trans h.onMessage
  messages := by rw [h'.messages, h.messages, List.append_assoc]

theorem Delivers.refl (ws : WebSocket) : Delivers ws ws [] :=
  ⟨rfl, rfl, (List.append_nil _).symm⟩

/-- Some frames are done with: they are off the queue and their payloads delivered. -/
structure Handles (ws ws' : WebSocket) (done : List WireFrame) : Prop where
  delivers : Delivers ws ws' (payloadsOf done)
  valid : ws'.rxRing.Valid
  unwrapped : ws'.rxRing.Unwrapped
  queue_eq : ws.rxRing.queue = encodeAll done ++ ws'.rxRing.queue

/-- The CONNECTED branch on a front part of a stream, if nobody closes the connection. -/
theorem connectedStep_handles {env : Env} (henv : ∀ t, ApiCall.close ∉ (env t).calls)
    {ws : WebSocket} (hmsg : ws.onMessage = true) (hvalid : ws.rxRing.Valid)
    (hun : ws.rxRing.Unwrapped) {frames : List WireFrame} (hfit : SizesFit frames)
    (hclose : ∀ f ∈ frames, f.opcode ≠ wsOpcodeClose)
    (hqueue : ws.rxRing.queue <+: encodeAll frames) :
    ∃ done pending, frames = done ++ pending ∧ Handles ws (connectedStep env ws) done ∧
      Unfinished (connectedStep env ws).rxRing.queue pending := by
  obtain ⟨done, pending, rfl, htakes, hleft⟩ := connectedStep_takes env hvalid hun hfit hqueue
  have hstate := htakes.acts.calm henv fun f hf => hclose f (List.mem_append_left _ hf)
  exact ⟨done, pending, rfl, ⟨⟨hstate, htakes.acts.onMessage, htakes.acts.messages hmsg⟩,
    htakes.valid, htakes.unwrapped, htakes.queue_eq⟩, hleft⟩

/-! ## A run of pieces -/

/-- A piece of the stream arrives in the receive ring and the CONNECTED branch runs. -/
def arrive (env : Env) (ws : WebSocket) (chunk : List UInt8) : WebSocket :=
  connectedStep env (ws.withRx (ws.rxRing.produce chunk))

/-- Each piece fits in the writeable space when it arrives, and the readable region does
not wrap. -/
def ChunksFit (env : Env) : WebSocket → List (List UInt8) → Prop
  | _, [] => True
  | ws, chunk :: chunks =>
    chunk.length ≤ ringbufferWriteable ws.rxRing ∧ (ws.rxRing.produce chunk).Unwrapped ∧
      ChunksFit env (arrive env ws chunk) chunks

/-- On a plain connection this is what a read event amounts to. -/
theorem handleEvent_received (env : Env) {ws : WebSocket} (hstate : ws.state = .connected)
    (hplain : ws.useSsl = false) (hvalid : ws.rxRing.Valid) {ctx : IOContext}
    (hctx : ws.ioCtx = some ctx) {ev : KEvent} (heof : ev.eof = false) (herror : ev.error = false)
    (hfilter : ev.filter = .read) {sock : IOSocket} (hslot : ctx.sockets[ev.udata]? = some sock)
    (hfd : 0 ≤ sock.fd) {chunk : List UInt8} {nic : Option UInt64}
    (hrecv : ev.recv = .received chunk nic) (hpos : 1 ≤ chunk.length)
    (hle : chunk.length ≤ (ringbufferWriteInline ws.rxRing).len) :
    ∃ ioCtx, handleEvent env ws ev =
      arrive env ({ ws with ioCtx := ioCtx }.record (.received chunk)) chunk := by
  obtain ⟨hret, hring⟩ := ioRead_received hvalid hslot hfd nic hpos hle
  refine ⟨(ioRead (some ctx) ev.udata ws.rxRing (.received chunk nic)).ctx, ?_⟩
  have hread : (ws.readIo ev.udata ev.recv).2 =
      ({ ws with ioCtx := (ioRead (some ctx) ev.udata ws.rxRing (.received chunk nic)).ctx }.record
        (.received chunk)).withRx (ws.rxRing.produce chunk) := by
    simp only [WebSocket.readIo, hctx, hrecv, hret, hring, Int.toNat_natCast, List.take_length]
    rfl
  have hevent : handleEvent env ws ev =
      let ws' := (ws.readIo ev.udata ev.recv).2
      if ws'.state = .connecting then handshakeStep env (connectingSsl env ws')
      else if ws'.state = .connected then connectedStep env ws'
      else ws' := by
    simp [handleEvent, heof, herror, hfilter, hplain]
  rw [hevent, hread]
  have hnot : ws.state ≠ .connecting := by
    rw [hstate]
    decide
  exact (if_neg hnot).trans (if_pos hstate)

theorem run_handles {env : Env} (henv : ∀ t, ApiCall.close ∉ (env t).calls)
    (chunks : List (List UInt8)) {ws : WebSocket} (hmsg : ws.onMessage = true)
    (hvalid : ws.rxRing.Valid) {frames : List WireFrame} (hfit : SizesFit frames)
    (hclose : ∀ f ∈ frames, f.opcode ≠ wsOpcodeClose)
    (hstream : ws.rxRing.queue ++ chunks.flatten = encodeAll frames)
    (hleft : Unfinished ws.rxRing.queue frames) (hchunks : ChunksFit env ws chunks) :
    Delivers ws (chunks.foldl (arrive env) ws) (payloadsOf frames) ∧
      (chunks.foldl (arrive env) ws).rxRing.queue = [] := by
  induction chunks generalizing ws frames with
  | nil =>
      rw [List.flatten_nil, List.append_nil] at hstream
      cases frames with
      | nil => exact ⟨Delivers.refl ws, hleft⟩
      | cons f fs =>
          -- everything has arrived, so the first frame has
          have hlength := congrArg List.length hstream
          rw [encodeAll_cons, List.length_append, f.encode_length] at hlength
          have hlt := hleft.1
          omega
  | cons chunk chunks ih =>
      obtain ⟨hspace, hun, hrest⟩ := hchunks
      have hproduce := queue_produce hvalid chunk hspace
      rw [List.flatten_cons, ← List.append_assoc, ← hproduce] at hstream
      obtain ⟨done, pending, rfl, hhandles, hunfinished⟩ :=
        connectedStep_handles henv (show (ws.withRx (ws.rxRing.produce chunk)).onMessage = true
          from hmsg) (hvalid.produce chunk) hun hfit hclose ⟨_, hstream⟩
      have hsplit : ws.rxRing.queue ++ chunk =
          encodeAll done ++ (arrive env ws chunk).rxRing.queue :=
        hproduce.symm.trans hhandles.queue_eq
      rw [hproduce, hsplit, List.append_assoc, encodeAll_append,
        List.append_cancel_left_eq] at hstream
      have hstep : Delivers ws (arrive env ws chunk) (payloadsOf done) :=
        ⟨hhandles.delivers.state, hhandles.delivers.onMessage, hhandles.delivers.messages⟩
      obtain ⟨hdelivers, hempty⟩ := ih (hstep.onMessage.trans hmsg) hhandles.valid
        (fun f hf => hfit f (List.mem_append_right _ hf))
        (fun f hf => hclose f (List.mem_append_right _ hf)) hstream hunfinished hrest
      rw [payloadsOf_append]
      exact ⟨hstep.trans hdelivers, hempty⟩

/-- However the encodings of a list of frames are cut, the application gets the payloads of
its TEXT and BINARY frames in order, each once, and nothing is left in the ring. -/
theorem delivery_independent_of_cuts (env : Env) (ws : WebSocket) (frames : List WireFrame)
    (chunks : List (List UInt8)) (henv : ∀ t, ApiCall.close ∉ (env t).calls)
    (hstate : ws.state = .connected) (hmsg : ws.onMessage = true) (hvalid : ws.rxRing.Valid)
    (hempty : ws.rxRing.queue = []) (hclose : ∀ f ∈ frames, f.opcode ≠ wsOpcodeClose)
    (hsize : ∀ f ∈ frames, f.size < 2 ^ 63)
    (hcut : chunks.flatten = frames.flatMap WireFrame.encode) (hchunks : ChunksFit env ws chunks) :
    messagesOf (chunks.foldl (arrive env) ws).trace =
        messagesOf ws.trace ++ (frames.filter WireFrame.isMessage).map WireFrame.payload ∧
      (chunks.foldl (arrive env) ws).rxRing.queue = [] ∧
      (chunks.foldl (arrive env) ws).state = .connected := by
  have hstream : ws.rxRing.queue ++ chunks.flatten = encodeAll frames := by
    rw [hempty, List.nil_append, hcut]
    rfl
  have hleft : Unfinished ws.rxRing.queue frames := by
    rw [hempty]
    exact unfinished_nil frames
  have hfit : SizesFit frames := fun f hf => (hsize f hf).trans (by decide)
  obtain ⟨hdelivers, hqueue⟩ :=
    run_handles henv chunks hmsg hvalid hfit hclose hstream hleft hchunks
  exact ⟨hdelivers.messages, hqueue, hdelivers.state.trans hstate⟩

/-- A connection in state CONNECTED with a message callback and fresh rings. -/
def connectedWebSocket : WebSocket :=
  { websocketCreate true with
    state := .connected
    rxRing := ringbufferInit
    txRing := ringbufferInit
    onMessage := true }

/-- A masked TEXT frame and a PING, cut inside the masking key and after the first byte of
the PING. -/
theorem delivery_cut_inside_header :
    messagesOf ([[0x81, 0x82, 1, 2], [3, 4, 0x49, 0x6B, 0x89], [0x00]].foldl (arrive fun _ => {})
      connectedWebSocket).trace = [[0x48, 0x69]] :=
  (delivery_independent_of_cuts (fun _ => {}) connectedWebSocket
    [⟨true, 1, .short, some ⟨1, 2, 3, 4⟩, [0x48, 0x69], by decide, by decide⟩,
      ⟨true, 9, .short, none, [], by decide, by decide⟩]
    [[0x81, 0x82, 1, 2], [3, 4, 0x49, 0x6B, 0x89], [0x00]] (by simp) rfl rfl
    ⟨by decide, by decide⟩ (by decide) (by decide) (by decide) (by decide) (by
      refine ⟨by decide, by decide, by decide, by decide, by decide, by decide, trivial⟩)).1

end WebSocketHft
