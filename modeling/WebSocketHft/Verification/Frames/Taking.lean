import WebSocketHft.Verification.Frames.Aside
import WebSocketHft.Verification.Frames.Stream
import WebSocketHft.Verification.Runs.Moves

/-! # Taking frames off the queue

Whatever the frames are and whatever the application does when it is called back:
a pass of `process_frames` over a front part of a stream takes whole frames off it,
tells of their messages and CLOSE frames in order, and leaves the rest in the ring. -/

namespace WebSocketHft

/-! ## What frames tell -/

def WireFrame.isMessage (f : WireFrame) : Bool :=
  f.opcode = wsOpcodeText ∨ f.opcode = wsOpcodeBinary

/-- The payloads of the TEXT and BINARY frames, in order. -/
def payloadsOf (frames : List WireFrame) : List (List UInt8) :=
  (frames.filter WireFrame.isMessage).map WireFrame.payload

theorem payloadsOf_append (fs gs : List WireFrame) :
    payloadsOf (fs ++ gs) = payloadsOf fs ++ payloadsOf gs := by
  simp [payloadsOf]

/-- A message or a CLOSE frame. -/
inductive Told where
  | message (payload : List UInt8)
  | close

def Told.payload? : Told → Option (List UInt8)
  | .message payload => some payload
  | .close => none

def Event.told? : Event → Option Told
  | .message payload _ => some (.message payload)
  | .closeFrame _ => some .close
  | _ => none

/-- What becomes known of a frame; of a message only if there is a callback for it. -/
def WireFrame.told? (onMessage : Bool) (f : WireFrame) : Option Told :=
  if f.isMessage then if onMessage then some (.message f.payload) else none
  else if f.opcode = wsOpcodeClose then some .close
  else none

theorem told?_of_not_isIncoming {e : Event} (h : e.isIncoming = false) : e.told? = none := by
  cases e with
  | message payload userData => cases h
  | closeFrame state => cases h
  | _ => rfl

theorem receivedBytes_of_not_isIncoming {e : Event} (h : e.isIncoming = false) :
    e.receivedBytes = [] := by
  cases e with
  | received bytes => cases h
  | _ => rfl

theorem messagesOf_append (es es' : List Event) :
    messagesOf (es ++ es') = messagesOf es ++ messagesOf es' := List.filterMap_append

theorem Aside.messagesOf_eq {ws ws' : WebSocket} (h : Aside ws ws') :
    messagesOf ws'.trace = messagesOf ws.trace := by
  obtain ⟨es, htrace, hes⟩ := h.events
  have hnone : messagesOf es = [] := by
    refine List.filterMap_eq_nil_iff.mpr fun e he => ?_
    cases e with
    | message payload userData => exact Bool.noConfusion (hes _ he)
    | _ => rfl
  rw [htrace, messagesOf_append, hnone, List.append_nil]

theorem told?_of_isMessage {f : WireFrame} (h : f.isMessage = true) (onMessage : Bool) :
    f.told? onMessage = if onMessage then some (.message f.payload) else none := by
  rw [WireFrame.told?, if_pos h]

theorem not_isMessage_of_close {f : WireFrame} (h : f.opcode = wsOpcodeClose) :
    f.isMessage = false := by
  rw [WireFrame.isMessage, h]
  decide

theorem told?_of_close {f : WireFrame} (h : f.opcode = wsOpcodeClose) (onMessage : Bool) :
    f.told? onMessage = some .close := by
  rw [WireFrame.told?, not_isMessage_of_close h, if_pos h]
  rfl

theorem told?_of_other {f : WireFrame} (hmessage : f.isMessage = false)
    (hclose : f.opcode ≠ wsOpcodeClose) (onMessage : Bool) : f.told? onMessage = none := by
  rw [WireFrame.told?, hmessage, if_neg hclose]
  rfl

/-- The messages among the events are those that are told of. -/
theorem messagesOf_eq_told (es : List Event) :
    messagesOf es = (es.filterMap Event.told?).filterMap Told.payload? := by
  rw [messagesOf, List.filterMap_filterMap]
  congr 1
  funext e
  cases e <;> rfl

theorem payloads_told (onMessage : Bool) (fs : List WireFrame) :
    (fs.filterMap (WireFrame.told? onMessage)).filterMap Told.payload? =
      if onMessage then payloadsOf fs else [] := by
  induction fs with
  | nil => cases onMessage <;> rfl
  | cons f fs ih =>
      rw [List.filterMap_cons]
      by_cases hmessage : f.isMessage = true
      · rw [told?_of_isMessage hmessage]
        cases onMessage with
        | false => exact ih
        | true =>
            have hcons : payloadsOf (f :: fs) = f.payload :: payloadsOf fs := by
              simp [payloadsOf, hmessage]
            simp only [if_true] at ih ⊢
            rw [hcons, ← ih]
            rfl
      · have hnone : payloadsOf (f :: fs) = payloadsOf fs := by
          simp [payloadsOf, hmessage]
        rw [hnone, ← ih]
        by_cases hclose : f.opcode = wsOpcodeClose
        · rw [told?_of_close hclose]
          rfl
        · rw [told?_of_other (Bool.eq_false_iff.mpr hmessage) hclose]

/-! ## Acting on frames -/

/-- From `ws` to `ws'` these frames were acted on, in order. The state is left alone unless a
CLOSE frame is among them or a callback closes the connection. -/
structure Acts (env : Env) (ws ws' : WebSocket) (done : List WireFrame) : Prop where
  moves : Moves env ws ws'
  onMessage : ws'.onMessage = ws.onMessage
  useSsl : ws'.useSsl = ws.useSsl
  events : ∃ es, ws'.trace = ws.trace ++ es ∧ receivedOf es = [] ∧
    es.filterMap Event.told? = done.filterMap (WireFrame.told? ws.onMessage)
  ended : (∃ f ∈ done, f.opcode = wsOpcodeClose) → ¬Live ws'
  calm : (∀ t, ApiCall.close ∉ (env t).calls) → (∀ f ∈ done, f.opcode ≠ wsOpcodeClose) →
    ws'.state = ws.state

namespace Acts

variable {env : Env} {ws ws' ws'' : WebSocket} {fs gs : List WireFrame} {f : WireFrame}

/-- A step beside the frames. -/
theorem of_aside (h : Aside ws ws') (hmoves : Moves env ws ws')
    (hcalm : (∀ t, ApiCall.close ∉ (env t).calls) → ws'.state = ws.state) : Acts env ws ws' [] := by
  obtain ⟨es, htrace, hes⟩ := h.events
  refine ⟨hmoves, h.onMessage, h.useSsl, ⟨es, htrace, ?_, ?_⟩, by simp, fun henv _ => hcalm henv⟩
  · exact List.flatMap_eq_nil_iff.mpr fun e he => receivedBytes_of_not_isIncoming (hes e he)
  · exact List.filterMap_eq_nil_iff.mpr fun e he => told?_of_not_isIncoming (hes e he)

theorem of_quiet (h : Quiet ws ws') (hmoves : Moves env ws ws') : Acts env ws ws' [] :=
  of_aside h.aside hmoves fun _ => h.state

theorem refl (ws : WebSocket) : Acts env ws ws [] := of_quiet (Quiet.refl ws) .refl

theorem trans (h : Acts env ws ws' fs) (h' : Acts env ws' ws'' gs) :
    Acts env ws ws'' (fs ++ gs) := by
  obtain ⟨es, htrace, hreceived, htold⟩ := h.events
  obtain ⟨es', htrace', hreceived', htold'⟩ := h'.events
  refine ⟨h.moves.trans h'.moves, h'.onMessage.trans h.onMessage, h'.useSsl.trans h.useSsl,
    ⟨es ++ es', ?_, ?_, ?_⟩, ?_, ?_⟩
  · rw [htrace', htrace, List.append_assoc]
  · rw [receivedOf, List.flatMap_append]
    exact List.append_eq_nil_iff.mpr ⟨hreceived, hreceived'⟩
  · rw [List.filterMap_append, List.filterMap_append, htold, htold', h.onMessage]
  · rintro ⟨f, hf, hclose⟩
    rcases List.mem_append.mp hf with hf | hf
    · exact h'.moves.not_live (h.ended ⟨f, hf, hclose⟩)
    · exact h'.ended ⟨f, hf, hclose⟩
  · intro henv hnone
    rw [h'.calm henv fun f hf => hnone f (List.mem_append_right _ hf),
      h.calm henv fun f hf => hnone f (List.mem_append_left _ hf)]

/-- If the application wants messages, it gets those of the frames. -/
theorem messages (h : Acts env ws ws' fs) (hmsg : ws.onMessage = true) :
    messagesOf ws'.trace = messagesOf ws.trace ++ payloadsOf fs := by
  obtain ⟨es, htrace, -, htold⟩ := h.events
  have hmessages : messagesOf es = payloadsOf fs := by
    rw [messagesOf_eq_told, htold, payloads_told, hmsg]
    rfl
  rw [htrace, messagesOf_append, hmessages]

/-- A frame of which nothing becomes known. -/
theorem other (h : Acts env ws ws' []) (hmessage : f.isMessage = false)
    (hclose : f.opcode ≠ wsOpcodeClose) : Acts env ws ws' [f] := by
  obtain ⟨es, htrace, hreceived, htold⟩ := h.events
  refine ⟨h.moves, h.onMessage, h.useSsl, ⟨es, htrace, hreceived, ?_⟩, ?_, ?_⟩
  · rw [htold, List.filterMap_cons, told?_of_other hmessage hclose]
  · rintro ⟨g, hg, hg'⟩
    rw [List.mem_singleton.mp hg] at hg'
    exact absurd hg' hclose
  · intro henv _
    exact h.calm henv (by simp)

/-- A CLOSE frame leads to CLOSING. -/
theorem receiveClose (ws : WebSocket) (hclose : f.opcode = wsOpcodeClose) :
    Acts env ws ws.receiveClose [f] := by
  refine ⟨.single (.receiveClose ws), rfl, rfl,
    ⟨[.closeFrame ws.state, .state ws.state .closing], List.append_assoc _ _ _, rfl, ?_⟩, ?_, ?_⟩
  · rw [List.filterMap_cons (l := []), told?_of_close hclose]
    rfl
  · intro _
    simp [Live, WebSocket.receiveClose, WebSocket.setState, WebSocket.record]
  · intro _ hnone
    exact absurd hclose (hnone f List.mem_cons_self)

theorem deliverMessage (ws : WebSocket) (hmessage : f.isMessage = true)
    (hclose : f.opcode ≠ wsOpcodeClose) :
    Acts env ws (WebSocketHft.deliverMessage env ws f.payload) [f] := by
  have hsampled : Acts env ws (sampleLatency env (ws.countReceived f.payload.length)) [] :=
    of_quiet ((Quiet.countReceived ws _).trans (Quiet.sampleLatency env _))
      ((Moves.sampleLatency _).after rfl)
  have hnotClose (ws' : WebSocket) : (∃ g ∈ [f], g.opcode = wsOpcodeClose) → ¬Live ws' := by
    rintro ⟨g, hg, hg'⟩
    rw [List.mem_singleton.mp hg] at hg'
    exact absurd hg' hclose
  unfold WebSocketHft.deliverMessage
  dsimp only
  generalize sampleLatency env (ws.countReceived f.payload.length) = ws₁ at hsampled ⊢
  split_ifs with hset
  · have hrecord : Acts env ws₁ (ws₁.record (.message f.payload ws₁.callbackUserData)).pass [f] := by
      refine ⟨(Moves.single (.observe ws₁ rfl)).trans (Moves.keep rfl), rfl, rfl,
        ⟨_, rfl, rfl, ?_⟩, hnotClose _, fun _ _ => rfl⟩
      rw [List.filterMap_cons (l := []) (f := WireFrame.told? _), told?_of_isMessage hmessage, hset]
      rfl
    have hcalls : Acts env (ws₁.record (.message f.payload ws₁.callbackUserData)).pass
        (ws₁.callback env (.message f.payload ws₁.callbackUserData)) [] :=
      of_aside (Aside.foldl_run _ _) (Moves.foldl_run _ _)
        fun henv => (Quiet.foldl_run env (henv _) _).state
    exact (hsampled.trans hrecord).trans hcalls
  · have hsilent : Acts env ws₁ ws₁ [f] := by
      refine ⟨.refl, rfl, rfl, ⟨[], (List.append_nil _).symm, rfl, ?_⟩, hnotClose _,
        fun _ _ => rfl⟩
      rw [List.filterMap_cons (l := []), told?_of_isMessage hmessage, if_neg hset]
      rfl
    exact hsampled.trans hsilent

theorem actOnFrame (ws : WebSocket) (f : WireFrame) :
    Acts env ws (WebSocketHft.actOnFrame env ws f.parsed f.payload) [f] := by
  have hopcode : f.parsed.opcode = f.opcode := rfl
  rw [WebSocketHft.actOnFrame, hopcode]
  by_cases hdata : f.opcode = wsOpcodeText ∨ f.opcode = wsOpcodeBinary
  · rw [if_pos hdata]
    refine deliverMessage ws (by simpa [WireFrame.isMessage] using hdata) ?_
    rcases hdata with hdata | hdata <;> rw [hdata] <;> decide
  · have hmessage : f.isMessage = false := by simpa [WireFrame.isMessage] using hdata
    rw [if_neg hdata]
    by_cases hclose : f.opcode = wsOpcodeClose
    · have hping : f.opcode ≠ wsOpcodePing := by rw [hclose]; decide
      have hpong : f.opcode ≠ wsOpcodePong := by rw [hclose]; decide
      rw [if_neg hping, if_neg hpong, if_pos hclose]
      exact receiveClose ws hclose
    · refine other ?_ hmessage hclose
      rw [if_neg hclose]
      split_ifs
      · exact of_quiet (Quiet.websocketSendPong env ws f.payload) (.single (.pong ws _))
      · exact of_aside (Aside.notePong ws) (Moves.notePong ws)
          fun henv => (Quiet.notePong henv ws).state
      · exact refl ws

/-- An error is counted and logged. -/
theorem parseError (ws : WebSocket) (offset : ℕ) :
    Acts env ws (WebSocketHft.parseError env ws offset) [] := by
  have hlog : Acts env ws.countFrameError.countError (WebSocketHft.parseError env ws offset) [] :=
    of_aside (Aside.wsLog _ _ _) (Moves.wsLog _ _ _) fun henv => (Quiet.wsLog henv _ _ _).state
  exact ⟨Moves.parseError ws offset, hlog.onMessage, hlog.useSsl, hlog.events, hlog.ended, hlog.calm⟩

end Acts

/-! ## One pass -/

section Passes

variable (env : Env) {ws : WebSocket} {frames : List WireFrame}

/-- A pass that stops where it started has met an unfinished frame. -/
theorem framesLoop_acts (attempts offset : ℕ) (bs : List UInt8) (ws : WebSocket)
    (frames : List WireFrame) (hfit : SizesFit frames) (hbs : bs <+: encodeAll frames) :
    ∃ done pending, frames = done ++ pending ∧
      (framesLoop env attempts offset bs ws).1 = (encodeAll done).length ∧
      Acts env ws (framesLoop env attempts offset bs ws).2 done ∧
      (0 < attempts → done = [] → Unfinished bs frames) := by
  induction attempts generalizing offset bs ws frames with
  | zero => exact ⟨[], frames, rfl, rfl, Acts.refl ws, by omega⟩
  | succ attempts ih =>
      unfold framesLoop
      rcases stream_cases hbs with hun | ⟨f, fs, rest, rfl, rfl, hrest⟩
      · -- one byte is reported as an error, and nothing is consumed either way
        refine ⟨[], frames, rfl, ?_, ?_, fun _ _ => hun⟩
        · rw [parseBytes_unfinished hfit hun]
          split_ifs <;> rfl
        · rw [parseBytes_unfinished hfit hun]
          split_ifs
          · exact Acts.refl ws
          · exact Acts.parseError ws offset
          · exact Acts.refl ws
      · have hne : f.encode ++ rest ≠ [] := by
          rw [← List.length_pos_iff, List.length_append, f.encode_length]
          have := f.two_le_size
          omega
        rw [if_neg hne, parseBytes_encode hfit.head_lt]
        dsimp only
        rw [framePayload_encode, frameSize_parsed hfit.head_lt, if_neg f.size_ne_zero,
          List.drop_left' f.encode_length]
        obtain ⟨done, pending, rfl, hcount, hacts, -⟩ :=
          ih (offset + f.size) rest (actOnFrame env ws f.parsed f.payload) fs hfit.tail hrest
        refine ⟨f :: done, pending, rfl, ?_, (Acts.actOnFrame ws f).trans hacts,
          fun _ h => absurd h (List.cons_ne_nil _ _)⟩
        rw [hcount, encodeAll_cons, List.length_append, f.encode_length]

theorem framesPass_acts (ws : WebSocket) (hfit : SizesFit frames) {bs : List UInt8}
    (hbs : bs <+: encodeAll frames) :
    ∃ done pending, frames = done ++ pending ∧
      (framesPass env ws bs).1 = (encodeAll done).length ∧
      Acts env ws (framesPass env ws bs).2 done ∧ (done = [] → Unfinished bs frames) := by
  unfold framesPass
  by_cases hnil : bs = []
  · rw [if_pos hnil]
    refine ⟨[], frames, rfl, rfl, Acts.refl ws, ?_⟩
    rw [hnil]
    exact fun _ => unfinished_nil frames
  · rw [if_neg hnil]
    have hframes : Acts env ws (ws.record (.frames bs)) [] :=
      Acts.of_quiet (Quiet.record ws rfl) (.single (.observe ws rfl))
    obtain ⟨done, pending, hsplit, hcount, hacts, hstuck⟩ :=
      framesLoop_acts env maxParseAttempts 0 bs (ws.record (.frames bs)) frames hfit hbs
    exact ⟨done, pending, hsplit, hcount, hframes.trans hacts, hstuck (by decide)⟩

/-- Some frames are done with: they have been acted on and are off the queue. -/
structure Takes (env : Env) (ws ws' : WebSocket) (done : List WireFrame) : Prop where
  acts : Acts env ws ws' done
  valid : ws'.rxRing.Valid
  unwrapped : ws'.rxRing.Unwrapped
  queue_eq : ws.rxRing.queue = encodeAll done ++ ws'.rxRing.queue

theorem Takes.trans {env : Env} {ws ws' ws'' : WebSocket} {fs gs : List WireFrame} (h : Takes env ws ws' fs)
    (h' : Takes env ws' ws'' gs) : Takes env ws ws'' (fs ++ gs) where
  acts := h.acts.trans h'.acts
  valid := h'.valid
  unwrapped := h'.unwrapped
  queue_eq := by rw [h.queue_eq, h'.queue_eq, encodeAll_append, List.append_assoc]

/-- A whole pass: it gets somewhere unless the first frame is unfinished. -/
theorem processFrames_takes (hvalid : ws.rxRing.Valid) (hun : ws.rxRing.Unwrapped)
    (hfit : SizesFit frames) (hqueue : ws.rxRing.queue <+: encodeAll frames) :
    ∃ done pending, frames = done ++ pending ∧ Takes env ws (processFrames env ws) done ∧
      ((processFrames env ws).rxRing.readPtr = ws.rxRing.readPtr ↔ done = []) ∧
      (done = [] → Unfinished ws.rxRing.queue frames) := by
  have hlengths := lengthsFit_of_stream hfit hqueue
  obtain ⟨rx, hpass, hconsumed⟩ := processFrames_spec env ws hvalid hun hlengths
  obtain ⟨done, pending, rfl, hcount, hacts, hstuck⟩ := framesPass_acts env ws hfit hqueue
  have hdone : encodeAll done <+: ws.rxRing.queue := by
    apply List.prefix_of_prefix_length_le _ hqueue
    · rw [← hcount]
      exact framesPass_le env ws ws.rxRing.queue
    · rw [encodeAll_append]
      exact List.prefix_append _ _
  have hmoves : Moves env ws (processFrames env ws) := Moves.processFrames ws
  refine ⟨done, pending, rfl, ⟨?_, ?_, ?_, ?_⟩, ?_, hstuck⟩
  · rw [hpass] at hmoves ⊢
    exact ⟨hmoves, hacts.onMessage, hacts.useSsl, hacts.events, hacts.ended, hacts.calm⟩
  · rw [hpass]
    exact hconsumed.valid
  · rw [hpass]
    exact hconsumed.unwrapped
  · rw [hpass, withRx_rxRing, hconsumed.queue_eq, hcount]
    exact List.prefix_append_drop hdone
  · rw [hpass, withRx_rxRing, hconsumed.readPtr_eq_iff, hcount, encodeAll_length_eq_zero]

/-- Passes repeated until the read pointer stops: only an unfinished frame is left. -/
theorem drainFrames_takes (fuel : ℕ) (hvalid : ws.rxRing.Valid) (hun : ws.rxRing.Unwrapped)
    (hfit : SizesFit frames) (hqueue : ws.rxRing.queue <+: encodeAll frames)
    (hfuel : ws.rxRing.queue.length < fuel) :
    ∃ done pending, frames = done ++ pending ∧ Takes env ws (drainFrames env fuel ws) done ∧
      Unfinished (drainFrames env fuel ws).rxRing.queue pending := by
  induction fuel generalizing ws frames with
  | zero => exact absurd hfuel (Nat.not_lt_zero _)
  | succ fuel ih =>
      obtain ⟨done, pending, rfl, hpass, hptr, hstuck⟩ :=
        processFrames_takes env hvalid hun hfit hqueue
      unfold drainFrames
      dsimp only
      by_cases hnone : done = []
      · subst hnone
        rw [if_pos (hptr.mpr rfl)]
        refine ⟨[], pending, rfl, hpass, ?_⟩
        have hkept := hpass.queue_eq
        rw [encodeAll_nil, List.nil_append] at hkept
        rw [← hkept]
        exact hstuck rfl
      · rw [if_neg (mt hptr.mp hnone)]
        have hpos : 0 < (encodeAll done).length :=
          Nat.pos_of_ne_zero (mt encodeAll_length_eq_zero.mp hnone)
        have hlength := congrArg List.length hpass.queue_eq
        rw [List.length_append] at hlength
        rw [hpass.queue_eq, encodeAll_append, List.prefix_append_right_inj] at hqueue
        obtain ⟨done', pending', rfl, hrest, hleft⟩ :=
          ih hpass.valid hpass.unwrapped (fun f hf => hfit f (List.mem_append_right _ hf)) hqueue
            (by omega)
        exact ⟨done ++ done', pending', by rw [List.append_assoc], hpass.trans hrest, hleft⟩

/-- The CONNECTED branch on a front part of a stream. -/
theorem connectedStep_takes (hvalid : ws.rxRing.Valid) (hun : ws.rxRing.Unwrapped)
    (hfit : SizesFit frames) (hqueue : ws.rxRing.queue <+: encodeAll frames) :
    ∃ done pending, frames = done ++ pending ∧ Takes env ws (connectedStep env ws) done ∧
      Unfinished (connectedStep env ws).rxRing.queue pending := by
  obtain ⟨done, pending, rfl, hpass, -, -⟩ :=
    processFrames_takes env hvalid hun hfit hqueue
  rw [hpass.queue_eq, encodeAll_append, List.prefix_append_right_inj] at hqueue
  obtain ⟨done', pending', rfl, hrest, hleft⟩ :=
    drainFrames_takes env (ringbufferReadable (processFrames env ws).rxRing + 1)
      hpass.valid hpass.unwrapped (fun f hf => hfit f (List.mem_append_right _ hf)) hqueue
      (by rw [length_queue]; exact Nat.lt_succ_self _)
  exact ⟨done ++ done', pending', by rw [List.append_assoc], hpass.trans hrest, hleft⟩

end Passes

end WebSocketHft
