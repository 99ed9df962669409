import WebSocketHft.Verification.Frames.Delivery
import WebSocketHft.Verification.Transmit.Outgoing

/-! # From one end to the other

What the socket of a sender has accepted, handed in pieces to a receiver: the receiver's
application gets the payloads that `websocket_send` has accepted, in order, each once. -/

namespace WebSocketHft

/-! ## A stream that has come in part -/

/-- A stream of whole frames leaves none unfinished. -/
theorem eq_nil_of_unfinished_encodeAll {frames : List WireFrame}
    (h : Unfinished (encodeAll frames) frames) : frames = [] := by
  cases frames with
  | nil => rfl
  | cons f fs =>
      have hlt := h.1
      rw [encodeAll_cons, List.length_append, f.encode_length] at hlt
      omega

/-- From `ws` to `ws'` a front part of the frames is done with and the next one unfinished. -/
def Reaches (ws ws' : WebSocket) (arrived : List UInt8) (frames : List WireFrame) : Prop :=
  ∃ done pending, frames = done ++ pending ∧ Delivers ws ws' (payloadsOf done) ∧
    ws.rxRing.queue ++ arrived = encodeAll done ++ ws'.rxRing.queue ∧
    Unfinished ws'.rxRing.queue pending

theorem reaches_run {env : Env} (henv : ∀ t, ApiCall.close ∉ (env t).calls)
    (chunks : List (List UInt8)) {ws : WebSocket} (hmsg : ws.onMessage = true)
    (hvalid : ws.rxRing.Valid) {frames : List WireFrame} (hfit : SizesFit frames)
    (hclose : ∀ f ∈ frames, f.opcode ≠ wsOpcodeClose)
    (hstream : ws.rxRing.queue ++ chunks.flatten <+: encodeAll frames)
    (hleft : Unfinished ws.rxRing.queue frames) (hchunks : ChunksFit env ws chunks) :
    Reaches ws (chunks.foldl (arrive env) ws) chunks.flatten frames := by
  induction chunks generalizing ws frames with
  | nil =>
      refine ⟨[], frames, rfl, Delivers.refl ws, ?_, hleft⟩
      rw [List.flatten_nil, List.append_nil]
      rfl
  | cons chunk chunks ih =>
      obtain ⟨hspace, hun, hrest⟩ := hchunks
      have hproduce := queue_produce hvalid chunk hspace
      rw [List.flatten_cons, ← List.append_assoc, ← hproduce] at hstream
      obtain ⟨done, pending, rfl, hhandles, hunfinished⟩ :=
        connectedStep_handles henv (show (ws.withRx (ws.rxRing.produce chunk)).onMessage = true
          from hmsg) (hvalid.produce chunk) hun hfit hclose ((List.prefix_append _ _).trans hstream)
      have hsplit : ws.rxRing.queue ++ chunk =
          encodeAll done ++ (arrive env ws chunk).rxRing.queue :=
        hproduce.symm.trans hhandles.queue_eq
      rw [hproduce, hsplit, List.append_assoc, encodeAll_append,
        List.prefix_append_right_inj] at hstream
      have hstep : Delivers ws (arrive env ws chunk) (payloadsOf done) :=
        ⟨hhandles.delivers.state, hhandles.delivers.onMessage, hhandles.delivers.messages⟩
      obtain ⟨done', pending', rfl, hdelivers, hqueue, hend⟩ :=
        ih (hstep.onMessage.trans hmsg) hhandles.valid
          (fun f hf => hfit f (List.mem_append_right _ hf))
          (fun f hf => hclose f (List.mem_append_right _ hf)) hstream hunfinished hrest
      refine ⟨done ++ done', pending', (List.append_assoc _ _ _).symm, ?_, ?_, hend⟩
      · rw [payloadsOf_append]
        exact hstep.trans hdelivers
      · rw [List.flatten_cons, ← List.append_assoc, hsplit, List.append_assoc, hqueue,
          encodeAll_append, List.append_assoc]
        rfl

/-! ## Both ends -/

theorem WireFrame.FromClient.opcode_ne_close {f : WireFrame} (h : f.FromClient) :
    f.opcode ≠ wsOpcodeClose := by
  rcases h.opcode with heq | heq | heq | heq <;> rw [heq] <;> decide

/-- One end makes any calls without TLS and begins every frame without harm; the socket takes
the upgrade request and some of what follows, in whatever pieces. The other end is CONNECTED
with a message callback and gets the bytes after the request, cut in any way that fits. Then
its application gets a front part of the payloads that `websocket_send` has accepted since the
request, in order, each once; and all of them when nothing waits in the transmit ring. -/
theorem messages_reach_other_end (env : Env) (allocated : Bool) (calls : List PublicCall)
    (hplain : PlainCalls calls) (hring : 0 < (runCalls env allocated calls).txRing.size)
    (hharmless : ∀ e ∈ sinceRequest (runCalls env allocated calls).trace, e.Harmless)
    (env' : Env) (peer : WebSocket) (chunks : List (List UInt8))
    (henv : ∀ t, ApiCall.close ∉ (env' t).calls) (hstate : peer.state = .connected)
    (hmsg : peer.onMessage = true) (hvalid : peer.rxRing.Valid) (hempty : peer.rxRing.queue = [])
    (hcut : sentOf (sinceRequest (runCalls env allocated calls).trace) =
      lastRequest (runCalls env allocated calls).trace ++ chunks.flatten)
    (hchunks : ChunksFit env' peer chunks) :
    let ws := runCalls env allocated calls
    let peer' := chunks.foldl (arrive env') peer
    ∃ got, messagesOf peer'.trace = messagesOf peer.trace ++ got ∧ peer'.state = .connected ∧
      got <+: acceptedOf (sinceRequest ws.trace) ∧
      (ws.txRing.queue = [] → got = acceptedOf (sinceRequest ws.trace)) := by
  intro ws peer'
  have hinv := plainInv_runCalls env allocated hplain
  obtain ⟨frames, hframes⟩ := hinv.framed.whole hharmless
  have hstream : chunks.flatten ++ ws.txRing.queue = encodeAll frames := by
    have hbytes := hinv.stream_eq hring
    rw [hcut, hframes.queued, List.append_assoc, List.append_cancel_left_eq] at hbytes
    exact hbytes
  have hfront : peer.rxRing.queue ++ chunks.flatten <+: encodeAll frames := by
    rw [hempty, List.nil_append]
    exact ⟨_, hstream⟩
  have hleft : Unfinished peer.rxRing.queue frames := by
    rw [hempty]
    exact unfinished_nil frames
  obtain ⟨done, pending, rfl, hdelivers, hqueue, hend⟩ :=
    reaches_run henv chunks hmsg hvalid hframes.sizes
      (fun f hf => (hframes.kinds f hf).opcode_ne_close) hfront hleft hchunks
  have hmessages : acceptedOf (sinceRequest ws.trace) = payloadsOf done ++ payloadsOf pending := by
    rw [← payloadsOf_append]
    exact hframes.messages.symm
  refine ⟨payloadsOf done, hdelivers.messages, hdelivers.state.trans hstate, ?_, fun hsent => ?_⟩
  · rw [hmessages]
    exact List.prefix_append _ _
  · have hrest : peer'.rxRing.queue = encodeAll pending := by
      rw [hsent, List.append_nil, encodeAll_append, ← List.nil_append chunks.flatten, ← hempty,
        hqueue, List.append_cancel_left_eq] at hstream
      exact hstream
    have hnone : pending = [] := eq_nil_of_unfinished_encodeAll (hrest ▸ hend)
    rw [hmessages, hnone]
    exact (List.append_nil _).symm

/-- The two bytes of the greeting come through in three pieces. -/
theorem greeting_reaches_other_end :
    (runCalls (fun _ => { writev := some 1000 }) true greeting).txRing.queue = [] ∧
      acceptedOf (sinceRequest (runCalls (fun _ => { writev := some 1000 }) true greeting).trace) =
        [[0x48, 0x69]] ∧
      ∃ got, messagesOf ([[0x81], [0x02, 0x48], [0x69]].foldl (arrive fun _ => {})
        connectedWebSocket).trace = [] ++ got ∧ got = [[0x48, 0x69]] := by
  have hplain : PlainCalls greeting := by
    intro url answers hmem
    have hurl : url = ascii "ws://h/" := by simp_all [greeting]
    rw [hurl]
    decide
  have hsent : (runCalls (fun _ => { writev := some 1000 }) true greeting).txRing.queue = [] := by
    decide +kernel
  have haccepted : acceptedOf (sinceRequest
      (runCalls (fun _ => { writev := some 1000 }) true greeting).trace) = [[0x48, 0x69]] := by
    decide +kernel
  obtain ⟨got, hmessages, -, -, hall⟩ := messages_reach_other_end
    (fun _ => { writev := some 1000 }) true greeting hplain (by decide +kernel) (by decide +kernel)
    (fun _ => {}) connectedWebSocket [[0x81], [0x02, 0x48], [0x69]] (by simp) rfl rfl
    ⟨by decide, by decide⟩ (by decide) (by decide +kernel)
    ⟨by decide, by decide, by decide, by decide, by decide, by decide, trivial⟩
  exact ⟨hsent, haccepted, got, hmessages, (hall hsent).trans haccepted⟩

end WebSocketHft
