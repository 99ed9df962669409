import WebSocketHft.Verification.Frames.Receiving

/-! # Following a stream of frames through a run

The peer sends a stream of frames. What has arrived of it is, at any moment, the
frames that have been taken off the ring and what still lies there, as long as
every read finds room and leaves the readable region in one piece. -/

namespace WebSocketHft

open WebSocketHft.Runs

/-! ## What has arrived -/

variable {env : Env} {ws₀ ws ws' : WebSocket} {frames done : List WireFrame}

/-- What lay in the ring at first and what has been read since. -/
def arrived (ws₀ ws : WebSocket) : List UInt8 := ws₀.rxRing.queue ++ readSince ws₀ ws

theorem arrived_self (ws : WebSocket) : arrived ws ws = ws.rxRing.queue := by
  rw [arrived, readSince_eq (List.append_nil _).symm]
  exact List.append_nil _

theorem arrived_append {es : List Event} (h : ws₀.trace <+: ws.trace)
    (h' : ws'.trace = ws.trace ++ es) : arrived ws₀ ws' = arrived ws₀ ws ++ receivedOf es := by
  obtain ⟨es₀, hes₀⟩ := h
  have hboth : ws'.trace = ws₀.trace ++ (es₀ ++ es) := by rw [h', ← hes₀, List.append_assoc]
  rw [arrived, arrived, readSince_eq hboth, readSince_eq hes₀.symm, receivedOf_append,
    List.append_assoc]

theorem arrived_congr (h : ws'.trace = ws.trace) : arrived ws₀ ws' = arrived ws₀ ws := by
  rw [arrived, arrived, readSince, readSince, h]

/-- Nothing that has arrived is taken back. -/
theorem arrived_mono (h : ws₀.trace <+: ws.trace) (h' : ws.trace <+: ws'.trace) :
    arrived ws₀ ws <+: arrived ws₀ ws' := by
  obtain ⟨es, hes⟩ := h'
  rw [arrived_append h hes.symm]
  exact List.prefix_append _ _

theorem Aside.arrived_eq (h : Aside ws ws') (h₀ : ws₀.trace <+: ws.trace) :
    arrived ws₀ ws' = arrived ws₀ ws := by
  obtain ⟨es, htrace, hes⟩ := h.events
  have hnone : receivedOf es = [] :=
    List.flatMap_eq_nil_iff.mpr fun e he => receivedBytes_of_not_isIncoming (hes e he)
  rw [arrived_append h₀ htrace, hnone, List.append_nil]

theorem Acts.arrived_eq (h : Acts env ws ws' done) (h₀ : ws₀.trace <+: ws.trace) :
    arrived ws₀ ws' = arrived ws₀ ws := by
  obtain ⟨es, htrace, hnone, -⟩ := h.events
  rw [arrived_append h₀ htrace, hnone, List.append_nil]

theorem Aside.trace_extends (h : Aside ws ws') : ws.trace <+: ws'.trace := by
  obtain ⟨es, htrace, -⟩ := h.events
  exact ⟨es, htrace.symm⟩

/-- A read finds room in the writeable space and leaves the readable region in one piece. -/
structure ReadFits (before after : WebSocket) : Prop where
  room : (readSince before after).length ≤ ringbufferWriteable before.rxRing
  unwrapped : after.rxRing.Unwrapped

instance (before after : WebSocket) : Decidable (ReadFits before after) :=
  decidable_of_iff (_ ∧ _) ⟨fun h => ⟨h.1, h.2⟩, fun h => ⟨h.room, h.unwrapped⟩⟩

/-! ## Frames that are done with -/

/-- What has arrived is the frames that are done with and what lies in the ring. -/
structure Follows (ws₀ ws : WebSocket) (done : List WireFrame) : Prop where
  valid : ws.rxRing.Valid
  unwrapped : ws.rxRing.Unwrapped
  split : arrived ws₀ ws = encodeAll done ++ ws.rxRing.queue

/-- As long as the bytes come from the stream, its first frames are done with, and `Q` holds of
them. -/
def Followed (frames : List WireFrame) (ws₀ : WebSocket) (Q : WebSocket → List WireFrame → Prop)
    (ws : WebSocket) : Prop :=
  ws₀.trace <+: ws.trace ∧ (arrived ws₀ ws <+: encodeAll frames →
    ∃ done pending, frames = done ++ pending ∧ Follows ws₀ ws done ∧ Q ws done)

/-- What is to be kept of the frames that are done with. -/
structure StreamInvariant (env : Env) (frames : List WireFrame) (ws₀ : WebSocket)
    (P : WebSocket → WebSocket → Prop) (Q : WebSocket → List WireFrame → Prop) : Prop where
  fits : ∀ {ws ws'}, P ws ws' → ReadFits ws ws'
  aside : ∀ {ws ws' done}, Aside ws ws' → Q ws done → Q ws' done
  read : ∀ {ws ws' done}, IsRead env ws ws' → P ws ws' → Q ws done → Q ws' done
  acts : ∀ {ws ws' done gs}, Acts env ws ws' gs → done ++ gs <+: frames →
    (encodeAll (done ++ gs)).length ≤ (arrived ws₀ ws).length → Q ws done → Q ws' (done ++ gs)

/-- The ring does not start with a whole frame. -/
def NoFrame (bs : List UInt8) : Prop := ∀ f : WireFrame, ¬f.encode <+: bs

theorem noFrame_of_unfinished {bs : List UInt8} (h : Unfinished bs frames) : NoFrame bs := by
  intro f hf
  have hle := hf.length_le
  have htwo := f.two_le_size
  rw [f.encode_length] at hle
  cases frames with
  | nil =>
      obtain rfl : bs = [] := h
      rw [List.length_nil] at hle
      omega
  | cons g gs =>
      obtain ⟨hlt, hfront⟩ := h
      obtain ⟨xs, hxs⟩ := hf.trans hfront
      have hsame : f.encode ++ xs = g.encode ++ [] := by rw [hxs, List.append_nil]
      have hlength := congrArg List.length hxs
      rw [(encode_append_inj hsame).2, List.append_nil, f.encode_length, g.encode_length] at hlength
      omega

theorem NoFrame.done_eq_nil {bs rest : List UInt8} (h : NoFrame bs)
    (heq : bs = encodeAll done ++ rest) : done = [] := by
  cases done with
  | nil => rfl
  | cons f fs =>
      refine absurd ?_ (h f)
      rw [heq, encodeAll_cons, List.append_assoc]
      exact List.prefix_append _ _

/-- On a plain connection that had no whole frame in its ring at first, there is none left
between two events. -/
def Drained (frames : List WireFrame) (ws₀ ws : WebSocket) : Prop :=
  Unfinished ws₀.rxRing.queue frames → arrived ws₀ ws <+: encodeAll frames → ws.useSsl = false →
    NoFrame ws.rxRing.queue

section Steps

variable {P : WebSocket → WebSocket → Prop} {Q : WebSocket → List WireFrame → Prop}

theorem Followed.aside (hQ : ∀ {done}, Q ws done → Q ws' done) (h : Followed frames ws₀ Q ws)
    (haside : Aside ws ws') : Followed frames ws₀ Q ws' := by
  refine ⟨h.1.trans haside.trace_extends, fun hstream => ?_⟩
  have harrived := haside.arrived_eq h.1
  rw [harrived] at hstream
  obtain ⟨done, pending, hsplit, hfollows, hdone⟩ := h.2 hstream
  refine ⟨done, pending, hsplit, ⟨?_, ?_, ?_⟩, hQ hdone⟩
  · rw [haside.rxRing]
    exact hfollows.valid
  · rw [haside.rxRing]
    exact hfollows.unwrapped
  · rw [harrived, haside.rxRing]
    exact hfollows.split

theorem Followed.read (hQ : ∀ {done}, Q ws done → Q ws' done) (h : Followed frames ws₀ Q ws)
    (hread : IsRead env ws ws') (hfits : ReadFits ws ws') : Followed frames ws₀ Q ws' := by
  obtain ⟨bytes, hspec⟩ := hread.spec
  have harrived : arrived ws₀ ws' = arrived ws₀ ws ++ bytes := by
    rw [arrived_append h.1 hspec.trace_eq, receivedOf_received]
  have hbytes : readSince ws ws' = bytes := by
    rw [readSince_eq hspec.trace_eq, receivedOf_received]
  refine ⟨h.1.trans ⟨_, hspec.trace_eq.symm⟩, fun hstream => ?_⟩
  rw [harrived] at hstream
  obtain ⟨done, pending, hsplit, hfollows, hdone⟩ :=
    h.2 ((List.prefix_append _ _).trans hstream)
  have hring := hspec.ring hfollows.valid hfollows.unwrapped
  refine ⟨done, pending, hsplit, ⟨hring.valid, hfits.unwrapped, ?_⟩, hQ hdone⟩
  rw [harrived, hfollows.split, hring.queue_eq (hbytes ▸ hfits.room), List.append_assoc]

/-- The bytes in the ring are a front part of what is still to come. -/
theorem Follows.queue_prefix {pending : List WireFrame} (h : Follows ws₀ ws done)
    (hstream : arrived ws₀ ws <+: encodeAll (done ++ pending)) :
    ws.rxRing.queue <+: encodeAll pending := by
  rwa [h.split, encodeAll_append, List.prefix_append_right_inj] at hstream

/-- Taking more frames off the ring. -/
theorem Follows.takes {gs : List WireFrame} (h : Follows ws₀ ws done)
    (htakes : Takes env ws ws' gs) (h₀ : ws₀.trace <+: ws.trace) :
    Follows ws₀ ws' (done ++ gs) := by
  refine ⟨htakes.valid, htakes.unwrapped, ?_⟩
  rw [htakes.acts.arrived_eq h₀, h.split, htakes.queue_eq, encodeAll_append, List.append_assoc]

theorem Follows.length_le {gs : List WireFrame} (h : Follows ws₀ ws done)
    (htakes : Takes env ws ws' gs) :
    (encodeAll (done ++ gs)).length ≤ (arrived ws₀ ws).length := by
  rw [h.split, htakes.queue_eq, encodeAll_append, ← List.append_assoc]
  exact (List.prefix_append _ _).length_le

theorem Followed.pass (hsizes : SizesFit frames) (hinv : StreamInvariant env frames ws₀ P Q)
    (h : Followed frames ws₀ Q ws) : Followed frames ws₀ Q (processFrames env ws) := by
  have hmoves : Moves env ws (processFrames env ws) := Moves.processFrames ws
  refine ⟨h.1.trans hmoves.trace_extends, fun hstream => ?_⟩
  have hbefore := (arrived_mono h.1 hmoves.trace_extends).trans hstream
  obtain ⟨done, pending, rfl, hfollows, hdone⟩ := h.2 hbefore
  obtain ⟨gs, rest, rfl, htakes, -, -⟩ := processFrames_takes env hfollows.valid hfollows.unwrapped
    hsizes.right (hfollows.queue_prefix hbefore)
  refine ⟨done ++ gs, rest, (List.append_assoc _ _ _).symm, hfollows.takes htakes h.1, ?_⟩
  refine hinv.acts htakes.acts ?_ (hfollows.length_le htakes) hdone
  rw [← List.append_assoc]
  exact List.prefix_append _ _

theorem Followed.drained_pass (hsizes : SizesFit frames) (h : Followed frames ws₀ Q ws)
    (hdrained : Drained frames ws₀ ws) : Drained frames ws₀ (processFrames env ws) := by
  have hmoves : Moves env ws (processFrames env ws) := Moves.processFrames ws
  intro hfirst hstream hplain
  rw [hmoves.useSsl_eq] at hplain
  have hbefore := (arrived_mono h.1 hmoves.trace_extends).trans hstream
  have hnone := hdrained hfirst hbefore hplain
  obtain ⟨done, pending, rfl, hfollows, -⟩ := h.2 hbefore
  obtain ⟨gs, rest, rfl, htakes, -, -⟩ := processFrames_takes env hfollows.valid hfollows.unwrapped
    hsizes.right (hfollows.queue_prefix hbefore)
  have hqueue := htakes.queue_eq
  rw [hnone.done_eq_nil hqueue, encodeAll_nil, List.nil_append] at hqueue
  rwa [← hqueue]

theorem Followed.drained_step (hsizes : SizesFit frames) (h : Followed frames ws₀ Q ws) :
    Drained frames ws₀ (connectedStep env ws) := by
  have hmoves : Moves env ws (connectedStep env ws) := Moves.connectedStep ws
  intro _ hstream _
  have hbefore := (arrived_mono h.1 hmoves.trace_extends).trans hstream
  obtain ⟨done, pending, rfl, hfollows, -⟩ := h.2 hbefore
  obtain ⟨gs, rest, rfl, -, hleft⟩ := connectedStep_takes env hfollows.valid hfollows.unwrapped
    hsizes.right (hfollows.queue_prefix hbefore)
  exact noFrame_of_unfinished hleft

theorem Followed.drained_aside (h : Followed frames ws₀ Q ws) (haside : Aside ws ws')
    (hdrained : Drained frames ws₀ ws) : Drained frames ws₀ ws' := by
  intro hfirst hstream hplain
  rw [haside.rxRing]
  rw [haside.arrived_eq h.1] at hstream
  exact hdrained hfirst hstream (haside.useSsl ▸ hplain)

/-- What holds of the frames that are done with is an invariant of reads and passes. -/
theorem StreamInvariant.receive {B : WebSocket → Prop} (hsizes : SizesFit frames)
    (h : StreamInvariant env frames ws₀ P Q) (hidle : ∀ {ws}, Followed frames ws₀ Q ws → B ws)
    (haside : ∀ {ws ws'}, Aside ws ws' → B ws → B ws')
    (hread : ∀ {ws ws'}, IsRead env ws ws' → B ws → B ws') :
    ReceiveInvariant env P (Followed frames ws₀ Q) (Drained frames ws₀) B where
  aside haside' hA := hA.aside (h.aside haside') haside'
  read hread' hP hA := hA.read (h.read hread' hP) hread' (h.fits hP)
  pass hA := hA.pass hsizes h
  rest_aside haside' hA hD := hA.drained_aside haside' hD
  rest_pass hA hD := hA.drained_pass hsizes hD
  rest_step hA := hA.drained_step hsizes
  rest_ssl _ hssl := fun _ _ hplain => Bool.noConfusion (hssl.symm.trans hplain)
  idle := hidle
  idle_aside := haside
  idle_read := hread

/-- At the start nothing is done with. -/
theorem followed_start (hvalid : ws₀.rxRing.Valid) (hun : ws₀.rxRing.Unwrapped)
    (hQ : Q ws₀ []) : Followed frames ws₀ Q ws₀ :=
  ⟨List.prefix_rfl, fun _ => ⟨[], frames, rfl, ⟨hvalid, hun, arrived_self ws₀⟩, hQ⟩⟩

theorem drained_start : Drained frames ws₀ ws₀ := fun hfirst _ _ => noFrame_of_unfinished hfirst

end Steps

/-! ## The other calls -/

section Calls

variable {Q : WebSocket → List WireFrame → Prop} {B : WebSocket → Prop}

/-- A setter changes neither the receive ring nor the state nor what has been observed. -/
theorem AtRest.set (hrest : AtRest (Followed frames ws₀ Q) (Drained frames ws₀) B ws)
    (hring : ws'.rxRing = ws.rxRing) (hstate : ws'.state = ws.state) (huse : ws'.useSsl = ws.useSsl)
    (htrace : ws'.trace = ws.trace) (hQ : ∀ {done}, Q ws done → Q ws' done) (hB : B ws → B ws') :
    AtRest (Followed frames ws₀ Q) (Drained frames ws₀) B ws' := by
  have harrived : arrived ws₀ ws' = arrived ws₀ ws := arrived_congr htrace
  refine ⟨hstate ▸ hrest.settled, fun hconnected => ?_, hB hrest.idle⟩
  obtain ⟨⟨hfirst, hfollowed⟩, hdrained⟩ := hrest.connected (hstate ▸ hconnected)
  refine ⟨⟨htrace ▸ hfirst, fun hstream => ?_⟩, ?_⟩
  · obtain ⟨done, pending, hsplit, hfollows, hdone⟩ := hfollowed (harrived ▸ hstream)
    exact ⟨done, pending, hsplit, ⟨hring ▸ hfollows.valid, hring ▸ hfollows.unwrapped,
      by rw [harrived, hring]; exact hfollows.split⟩, hQ hdone⟩
  · intro hunfinished hstream hplain
    rw [hring]
    exact hdrained hunfinished (harrived ▸ hstream) (huse ▸ hplain)

/-- The calls between two of `websocket_process`. -/
theorem AtRest.call {P : WebSocket → WebSocket → Prop} {call : PublicCall}
    (hrest : AtRest (Followed frames ws₀ Q) (Drained frames ws₀) B ws)
    (hreceive : ReceiveInvariant env P (Followed frames ws₀ Q) (Drained frames ws₀) B)
    (hconnect : ∀ url answers, call ≠ .connect url answers)
    (hprocess : ∀ events, call ≠ .process events)
    (hQ : ∀ {ws' done}, ws'.trace = ws.trace → ws'.onMessage = ws.onMessage → Q ws done → Q ws' done)
    (hset : ∀ callback userData, call = .setOnMessage callback userData → ∀ {done}, Q ws done →
      Q (websocketSetOnMessage ws callback userData) done)
    (hB : ∀ {ws'}, ws'.trace = ws.trace → B ws → B ws') :
    AtRest (Followed frames ws₀ Q) (Drained frames ws₀) B (call.run env ws) := by
  cases call with
  | connect url answers => exact absurd rfl (hconnect url answers)
  | process events => exact absurd rfl (hprocess events)
  | setOnMessage callback userData =>
      exact hrest.set rfl rfl rfl rfl (hset callback userData rfl) (hB rfl)
  | send data isText =>
      have hquiet := Quiet.websocketSend env ws data isText
      exact hreceive.aside_rest hquiet.aside (hquiet.state ▸ hrest.settled)
        (fun hconnected => hquiet.state ▸ hconnected) hrest
  | close =>
      have hclosed := websocketClose_state ws
      refine hreceive.aside_rest (Aside.close ws) (fun h => ?_) (fun h => ?_) hrest
      · exact WSState.noConfusion (hclosed.symm.trans h)
      · exact WSState.noConfusion (hclosed.symm.trans h)
  | _ => exact hrest.set rfl rfl rfl rfl (hQ rfl rfl) (hB rfl)

end Calls

end WebSocketHft
