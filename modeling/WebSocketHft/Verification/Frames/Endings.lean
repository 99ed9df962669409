import Mathlib.Data.List.Infix
import WebSocketHft.Verification.Frames.Delivery
import WebSocketHft.Verification.Frames.Following
import WebSocketHft.Verification.Runs.States

/-! # How a connection ends

The peer stops sending: with a CLOSE frame, or by closing the socket. An event
with the end-of-file flag closes the connection without reading what is left, so
messages get lost that had not been read before. A CLOSE frame does not stop the
pass that handles it, so messages behind it that have been read with it are
delivered. -/

namespace WebSocketHft

open WebSocketHft.Runs

variable {env : Env} {ws₀ ws ws' : WebSocket} {frames done : List WireFrame}

/-! ## The end of the file -/

/-- Every TEXT and BINARY frame ends within the first `n` bytes of the stream. -/
def MessagesWithin (frames : List WireFrame) (n : ℕ) : Prop :=
  ∀ fs m gs, frames = fs ++ m :: gs → m.isMessage = true → (encodeAll (fs ++ [m])).length ≤ n

theorem payloadsOf_eq_nil {fs : List WireFrame} :
    payloadsOf fs = [] ↔ ∀ f ∈ fs, f.isMessage = false := by
  rw [payloadsOf, List.map_eq_nil_iff, List.filter_eq_nil_iff]
  simp only [Bool.not_eq_true]

theorem encodeAll_length_mono {fs gs : List WireFrame} (h : fs <+: gs) :
    (encodeAll fs).length ≤ (encodeAll gs).length := by
  obtain ⟨rest, rfl⟩ := h
  rw [encodeAll_append, List.length_append]
  exact Nat.le_add_right _ _

theorem encodeAll_length_concat (fs : List WireFrame) (f : WireFrame) :
    (encodeAll (fs ++ [f])).length = (encodeAll fs).length + f.size := by
  rw [encodeAll_append, List.length_append, encodeAll_singleton, f.encode_length]

/-- If the first `n` bytes hold the frames that are done with, but not the next one, all messages
lie within them exactly if no message is pending. -/
theorem messagesWithin_iff {pending : List WireFrame} {n : ℕ} (hlow : (encodeAll done).length ≤ n)
    (hhigh : ∀ p ps, pending = p :: ps → n < (encodeAll done).length + p.size) :
    MessagesWithin (done ++ pending) n ↔ payloadsOf pending = [] := by
  rw [payloadsOf_eq_nil]
  constructor
  · intro hwithin m hm
    by_contra hmessage
    obtain ⟨ps, qs, rfl⟩ := List.append_of_mem hm
    have hle := hwithin (done ++ ps) m qs (by rw [List.append_assoc])
      (Bool.eq_true_of_not_eq_false hmessage)
    -- the first pending frame ends no later than this message
    cases ps with
    | nil =>
        have hlt := hhigh m qs rfl
        rw [List.append_nil, encodeAll_length_concat] at hle
        omega
    | cons p ps =>
        have hlt := hhigh p (ps ++ m :: qs) rfl
        have hfirst : (encodeAll (done ++ [p])).length ≤ (encodeAll (done ++ p :: ps ++ [m])).length :=
          encodeAll_length_mono ⟨ps ++ [m], by simp⟩
        rw [encodeAll_length_concat] at hfirst
        omega
  · intro hnone fs m gs hsplit hmessage
    rcases List.append_eq_append_iff.mp hsplit with ⟨rest, rfl, hpending⟩ | ⟨rest, hdone, hrest⟩
    · have hmem : m ∈ pending := by
        rw [hpending]
        exact List.mem_append_right _ List.mem_cons_self
      exact Bool.noConfusion ((hnone m hmem).symm.trans hmessage)
    · cases rest with
      | nil =>
          have hmem : m ∈ pending := by
            rw [List.nil_append] at hrest
            rw [← hrest]
            exact List.mem_cons_self
          exact Bool.noConfusion ((hnone m hmem).symm.trans hmessage)
      | cons m' rest =>
          obtain ⟨rfl, -⟩ := List.cons_eq_cons.mp hrest
          refine (encodeAll_length_mono ⟨rest, ?_⟩).trans hlow
          rw [hdone, List.append_assoc]
          rfl

/-- The application wants messages and has got those of the frames that are done with. -/
def GotMessages (ws₀ ws : WebSocket) (done : List WireFrame) : Prop :=
  ws.onMessage = true ∧ messagesOf ws.trace = messagesOf ws₀.trace ++ payloadsOf done

theorem gotMessages_stream (env : Env) (frames : List WireFrame) (ws₀ : WebSocket) :
    StreamInvariant env frames ws₀ ReadFits (GotMessages ws₀) where
  fits h := h
  aside haside h := ⟨haside.onMessage.trans h.1, haside.messagesOf_eq.trans h.2⟩
  read {ws ws' done} hread _ h := by
    obtain ⟨bytes, hspec⟩ := hread.spec
    refine ⟨hspec.onMessage.trans h.1, ?_⟩
    rw [hspec.trace_eq, messagesOf, List.filterMap_append]
    exact (List.append_nil _).trans h.2
  acts {ws ws' done gs} hacts _ _ h := by
    refine ⟨hacts.onMessage.trans h.1, ?_⟩
    rw [hacts.messages h.1, h.2, payloadsOf_append, List.append_assoc]

/-- The calls an application can make while it is waiting for messages. -/
def PublicCall.Waits : PublicCall → Prop
  | .connect _ _ => False
  | .setOnMessage callback _ => callback = true
  | _ => True

/-- Between two events of a run, the application has got the messages of the frames that are done
with. -/
theorem gotMessages_run {calls : List PublicCall} {events : List KEvent} {before : List KEvent}
    (hsizes : SizesFit frames) (hstate : ws₀.state = .connected) (hmsg : ws₀.onMessage = true)
    (hvalid : ws₀.rxRing.Valid) (hun : ws₀.rxRing.Unwrapped) (hcalls : ∀ call ∈ calls, call.Waits)
    (hreads : ∀ r ∈ readsOfRun env ws₀ calls ++ collect (handleEvent env) (readsOfEvent env)
      ((calls.foldl (PublicCall.run env) ws₀).poll events) before, ReadFits r.1 r.2) :
    AtRest (Followed frames ws₀ (GotMessages ws₀)) (Drained frames ws₀) (fun _ => True)
      (before.foldl (handleEvent env) ((calls.foldl (PublicCall.run env) ws₀).poll events)) := by
  have hreceive := (gotMessages_stream env frames ws₀).receive hsizes
    (B := fun _ => True) (fun _ => trivial) (fun _ _ => trivial) fun _ _ => trivial
  have hstart : AtRest (Followed frames ws₀ (GotMessages ws₀)) (Drained frames ws₀)
      (fun _ => True) ws₀ := by
    refine ⟨by rw [hstate]; decide, fun _ => ⟨followed_start hvalid hun ⟨hmsg, ?_⟩, drained_start⟩,
      trivial⟩
    exact (List.append_nil _).symm
  have hother (ws : WebSocket) (call : PublicCall) (hcall : call.Waits)
      (hprocess : ∀ events, call ≠ .process events)
      (hrest : AtRest (Followed frames ws₀ (GotMessages ws₀)) (Drained frames ws₀)
        (fun _ => True) ws) :
      AtRest (Followed frames ws₀ (GotMessages ws₀)) (Drained frames ws₀) (fun _ => True)
        (call.run env ws) := by
    refine hrest.call hreceive ?_ hprocess ?_ ?_ fun _ => id
    · rintro url answers rfl
      exact hcall
    · intro ws' done htrace hsame h
      exact ⟨hsame.trans h.1, by rw [htrace]; exact h.2⟩
    · rintro callback userData rfl done h
      exact ⟨hcall, h.2⟩
  have hrun := hreceive.run hother hcalls hstart fun r hr => hreads r (List.mem_append_left _ hr)
  have hpoll : Aside (calls.foldl (PublicCall.run env) ws₀)
      ((calls.foldl (PublicCall.run env) ws₀).poll events) :=
    ⟨rfl, rfl, rfl, rfl, [], (List.append_nil _).symm, by simp⟩
  exact hreceive.foldl_handleEvent before (hreceive.aside_rest hpoll hrun.settled id hrun)
    fun r hr => hreads r (List.mem_append_right _ hr)

/-- The peer sends the encodings of frames and closes, and an event with the end-of-file flag
finds the connection CONNECTED. If every read found room and left the readable region in one
piece, the application has got all messages exactly if every TEXT and BINARY frame lies in the
bytes that were read and taken off the ring before that event. On a plain connection that had no
whole frame in its ring at first, it is enough that they were read. -/
theorem messages_before_eof_iff (env : Env) (ws₀ : WebSocket) (frames : List WireFrame)
    (calls : List PublicCall) (before after : List KEvent) (ev : KEvent) (ws₁ : WebSocket)
    (hstate : ws₀.state = .connected) (hmsg : ws₀.onMessage = true) (hvalid : ws₀.rxRing.Valid)
    (hun : ws₀.rxRing.Unwrapped) (hsize : ∀ f ∈ frames, f.payload.length < 2 ^ 63)
    (hcalls : ∀ call ∈ calls, call.Waits)
    (hws₁ : ws₁ = before.foldl (handleEvent env)
      ((calls.foldl (PublicCall.run env) ws₀).poll (before ++ ev :: after)))
    (heof : ev.eof = true) (hlive : ws₁.state = .connected)
    (hstream : arrived ws₀ ws₁ <+: encodeAll frames)
    (hreads : ∀ r ∈ readsOfRun env ws₀ calls ++ collect (handleEvent env) (readsOfEvent env)
      ((calls.foldl (PublicCall.run env) ws₀).poll (before ++ ev :: after)) before,
      ReadFits r.1 r.2) :
    (messagesOf (handleEvent env ws₁ ev).trace = messagesOf ws₀.trace ++ payloadsOf frames ↔
        MessagesWithin frames ((arrived ws₀ ws₁).length - ws₁.rxRing.queue.length)) ∧
      (ws₁.useSsl = false → Unfinished ws₀.rxRing.queue frames →
        (messagesOf (handleEvent env ws₁ ev).trace = messagesOf ws₀.trace ++ payloadsOf frames ↔
          MessagesWithin frames (arrived ws₀ ws₁).length)) := by
  have hsizes := sizesFit_of_payload hsize
  have hrest := gotMessages_run hsizes hstate hmsg hvalid hun hcalls hreads
  rw [← hws₁] at hrest
  obtain ⟨⟨hfirst, hfollowed⟩, hdrained⟩ := hrest.connected hlive
  obtain ⟨done, pending, rfl, hfollows, hgot⟩ := hfollowed hstream
  have hlength := congrArg List.length hfollows.split
  rw [List.length_append] at hlength
  have hmessages : messagesOf (handleEvent env ws₁ ev).trace =
      messagesOf ws₀.trace ++ payloadsOf (done ++ pending) ↔ payloadsOf pending = [] := by
    rw [(aside_handleEvent (Or.inl heof)).messagesOf_eq, hgot.2, payloadsOf_append,
      List.append_cancel_left_eq, List.self_eq_append_right]
  refine ⟨?_, fun hplain hunfinished => ?_⟩
  · rw [hmessages, messagesWithin_iff (by omega)]
    intro p ps _
    have hpos := p.two_le_size
    omega
  · rw [hmessages, messagesWithin_iff (by omega)]
    rintro p ps rfl
    -- the ring holds less than the first pending frame
    have hnone := hdrained hunfinished hstream hplain
    have hfront := hfollows.queue_prefix hstream
    rcases stream_cases hfront with hleft | ⟨f, fs, rest, -, hqueue, -⟩
    · have hshort := hleft.1
      omega
    · exact absurd (hqueue ▸ List.prefix_append _ _) (hnone f)

/-- The frame of the message `Hi`. -/
def hiFrame : WireFrame := ⟨true, 1, .short, none, [0x48, 0x69], by decide, by decide⟩

/-- The peer has closed, and these bytes have not been read. -/
def endOfFile (unread : List UInt8) : KEvent :=
  ⟨0, 0, true, false, .read, .received unread none⟩

/-- A CONNECTED connection with its socket in the registry. -/
def openConnection : WebSocket :=
  { connectedWebSocket with
    fd := 3
    socketIndex := 0
    ioCtx := some ⟨some fun _ => none, [⟨3, 0⟩]⟩ }

/-- The message `Hi` has been read when the peer closes. -/
theorem message_before_eof :
    let env : Env := fun _ => {}
    let ws₁ := ((peerSends hiFrame.encode).run env openConnection).poll [endOfFile []]
    ws₁.state = .connected ∧ messagesOf (handleEvent env ws₁ (endOfFile [])).trace =
      messagesOf openConnection.trace ++ payloadsOf [hiFrame] := by
  intro env ws₁
  have hlive : ws₁.state = .connected := by decide +kernel
  have hlength : (arrived openConnection ws₁).length = 4 := by decide +kernel
  have hwithin : MessagesWithin [hiFrame] (arrived openConnection ws₁).length := by
    rw [hlength]
    intro fs m gs hsplit _
    cases fs with
    | nil =>
        obtain ⟨rfl, -⟩ := List.cons_eq_cons.mp hsplit
        decide
    | cons f fs => simp at hsplit
  refine ⟨hlive, ((messages_before_eof_iff env openConnection [hiFrame] [peerSends hiFrame.encode]
    [] [] (endOfFile []) ws₁ rfl rfl ⟨by decide, by decide⟩ (by decide) (by decide)
    (by simp [peerSends, PublicCall.Waits]) ?_ rfl hlive (by decide +kernel)
    (by decide +kernel)).2 (by decide +kernel) (unfinished_nil _)).mpr hwithin⟩
  rw [List.foldl_nil, List.foldl_cons, List.foldl_nil]
  rfl

/-- The message `Hi` is unread when the peer closes: the connection is CLOSED, and the application
never gets the message, not even when its bytes are read later. -/
theorem message_unread_at_eof :
    let ws := runCalls (fun _ => {}) true (accepted ++ [.process (some [endOfFile hiFrame.encode])])
    ws.state = .closed ∧ messagesOf ws.trace = [] ∧
      messagesOf ((peerSends hiFrame.encode).run (fun _ => {}) ws).trace = [] := by
  decide +kernel

/-! ## CLOSE frames -/

/-- The payloads of the messages behind the first CLOSE frame. -/
def messagesBehindClose (frames : List WireFrame) : List (List UInt8) :=
  payloadsOf (frames.dropWhile fun f => f.opcode ≠ wsOpcodeClose)

/-- No message behind a CLOSE frame lies whole within the first `n` bytes of the stream. -/
def NoneBehindClose (frames : List WireFrame) (n : ℕ) : Prop :=
  ∀ fs ∈ frames.inits, (encodeAll fs).length ≤ n → messagesBehindClose fs = []

instance (frames : List WireFrame) (n : ℕ) : Decidable (NoneBehindClose frames n) :=
  inferInstanceAs (Decidable (∀ fs ∈ frames.inits, _))

/-- No message is delivered after a CLOSE frame has been handled. -/
def Silent (es : List Event) : Prop :=
  ∀ es₁ state es₂, es = es₁ ++ .closeFrame state :: es₂ → messagesOf es₂ = []

theorem Silent.append {es es' : List Event} (h : Silent es) (h' : Silent es')
    (hclose : (∃ state, Event.closeFrame state ∈ es) → messagesOf es' = []) :
    Silent (es ++ es') := by
  intro es₁ state es₂ heq
  rcases List.append_eq_append_iff.mp heq with ⟨rest, -, hes'⟩ | ⟨rest, hes, hrest⟩
  · exact h' rest state es₂ hes'
  · cases rest with
    | nil => exact h' [] state es₂ hrest.symm
    | cons e rest =>
        -- the CLOSE frame is among the first events
        obtain ⟨rfl, hes₂⟩ := List.cons_eq_cons.mp hrest
        have hmem : Event.closeFrame state ∈ es := by
          rw [hes]
          exact List.mem_append_right _ List.mem_cons_self
        rw [show es₂ = rest ++ es' from hes₂, messagesOf_append, h es₁ state rest hes,
          hclose ⟨state, hmem⟩]
        rfl

/-- Events that are not about incoming data. -/
theorem silent_of_not_told {es : List Event} (h : es.filterMap Event.told? = []) : Silent es := by
  intro es₁ state es₂ heq
  rw [heq, List.filterMap_append, List.append_eq_nil_iff] at h
  cases h.2

theorem payloadsOf_behind_close {fs gs : List WireFrame} {c : WireFrame}
    (hclose : c.opcode = wsOpcodeClose) (h : messagesBehindClose (fs ++ c :: gs) = []) :
    payloadsOf gs = [] := by
  induction fs with
  | nil =>
      have hdrop : (c :: gs).dropWhile (fun f => f.opcode ≠ wsOpcodeClose) = c :: gs :=
        List.dropWhile_cons_of_neg (by simp [hclose])
      rw [List.nil_append, messagesBehindClose, hdrop, payloadsOf_eq_nil] at h
      exact payloadsOf_eq_nil.mpr fun g hg => h g (List.mem_cons_of_mem c hg)
  | cons f fs ih =>
      by_cases hf : f.opcode = wsOpcodeClose
      · have hdrop : (f :: fs ++ c :: gs).dropWhile (fun f => f.opcode ≠ wsOpcodeClose) =
            f :: fs ++ c :: gs := List.dropWhile_cons_of_neg (by simp [hf])
        rw [messagesBehindClose, hdrop, payloadsOf_eq_nil] at h
        exact payloadsOf_eq_nil.mpr fun g hg =>
          h g (List.mem_append_right _ (List.mem_cons_of_mem c hg))
      · have hdrop : (f :: fs ++ c :: gs).dropWhile (fun f => f.opcode ≠ wsOpcodeClose) =
            (fs ++ c :: gs).dropWhile fun f => f.opcode ≠ wsOpcodeClose :=
          List.dropWhile_cons_of_pos (by simp [hf])
        rw [messagesBehindClose, hdrop] at h
        exact ih h

theorem close_of_told?_eq_close {f : WireFrame} {onMessage : Bool}
    (h : f.told? onMessage = some .close) : f.opcode = wsOpcodeClose := by
  unfold WireFrame.told? at h
  split_ifs at h with hmessage hset hclose
  · cases h
  · exact hclose

/-- What frames tell is silent after a CLOSE frame if no message is behind one. -/
theorem silent_of_told {es : List Event} {onMessage : Bool} {fs gs : List WireFrame}
    (htold : es.filterMap Event.told? = gs.filterMap (WireFrame.told? onMessage))
    (hnone : messagesBehindClose (fs ++ gs) = []) : Silent es := by
  rintro es₁ state es₂ rfl
  rw [List.filterMap_append, List.filterMap_cons, eq_comm] at htold
  obtain ⟨gs₁, gs₂, rfl, -, htold⟩ := List.filterMap_eq_append_iff.mp htold
  obtain ⟨xs, c, zs, rfl, -, hc, hzs⟩ := List.filterMap_eq_cons_iff.mp htold
  have hclose := close_of_told?_eq_close hc
  have hempty : payloadsOf zs = [] := by
    refine payloadsOf_behind_close hclose (?_ : messagesBehindClose (fs ++ gs₁ ++ xs ++ c :: zs) = [])
    rw [← hnone]
    simp
  rw [messagesOf_eq_told, ← hzs, payloads_told, hempty]
  split_ifs <;> rfl

/-- Nothing has been delivered after a CLOSE frame, and the frames that are done with contain one
if one was handled. -/
structure QuietAfterClose (frames : List WireFrame) (ws₀ ws : WebSocket) (done : List WireFrame) :
    Prop where
  events : ∃ es, ws.trace = ws₀.trace ++ es ∧ Silent es ∧
    ((∃ state, Event.closeFrame state ∈ es) → ∃ f ∈ done, f.opcode = wsOpcodeClose)
  noneBehind : NoneBehindClose frames (arrived ws₀ ws).length

namespace QuietAfterClose

theorem trace_extends (h : QuietAfterClose frames ws₀ ws done) : ws₀.trace <+: ws.trace := by
  obtain ⟨es, htrace, -⟩ := h.events
  exact ⟨es, htrace.symm⟩

theorem step {es' : List Event} {gs : List WireFrame}
    (h : QuietAfterClose frames ws₀ ws done) (htrace : ws'.trace = ws.trace ++ es')
    (hsilent : Silent es')
    (hmessages : (∃ f ∈ done, f.opcode = wsOpcodeClose) → messagesOf es' = [])
    (hclose : (∃ state, Event.closeFrame state ∈ es') → ∃ f ∈ gs, f.opcode = wsOpcodeClose)
    (hnone : NoneBehindClose frames (arrived ws₀ ws').length) :
    QuietAfterClose frames ws₀ ws' (done ++ gs) := by
  obtain ⟨es, htrace₀, hsilent₀, hclose₀⟩ := h.events
  refine ⟨⟨es ++ es', by rw [htrace, htrace₀, List.append_assoc], ?_, ?_⟩, hnone⟩
  · exact hsilent₀.append hsilent fun hes => hmessages (hclose₀ hes)
  · rintro ⟨state, hmem⟩
    rcases List.mem_append.mp hmem with hmem | hmem
    · obtain ⟨f, hf, hopcode⟩ := hclose₀ ⟨state, hmem⟩
      exact ⟨f, List.mem_append_left _ hf, hopcode⟩
    · obtain ⟨f, hf, hopcode⟩ := hclose ⟨state, hmem⟩
      exact ⟨f, List.mem_append_right _ hf, hopcode⟩

/-- Events that tell nothing. -/
theorem untold {es' : List Event} (h : QuietAfterClose frames ws₀ ws done)
    (htrace : ws'.trace = ws.trace ++ es') (htold : es'.filterMap Event.told? = [])
    (hnone : NoneBehindClose frames (arrived ws₀ ws').length) :
    QuietAfterClose frames ws₀ ws' done := by
  have hmessages : messagesOf es' = [] := by rw [messagesOf_eq_told, htold]; rfl
  have hclose : (∃ state, Event.closeFrame state ∈ es') →
      ∃ f ∈ ([] : List WireFrame), f.opcode = wsOpcodeClose := by
    rintro ⟨state, hmem⟩
    exact absurd (List.filterMap_eq_nil_iff.mp htold _ hmem) (by simp [Event.told?])
  have hstep := h.step htrace (silent_of_not_told htold) (fun _ => hmessages) hclose hnone
  rwa [List.append_nil] at hstep

theorem acts {gs : List WireFrame} (h : QuietAfterClose frames ws₀ ws done)
    (hacts : Acts env ws ws' gs) (hbehind : messagesBehindClose (done ++ gs) = []) :
    QuietAfterClose frames ws₀ ws' (done ++ gs) := by
  obtain ⟨es', htrace, -, htold⟩ := hacts.events
  refine h.step htrace (silent_of_told htold hbehind) ?_ ?_ ?_
  · rintro ⟨f, hf, hclose⟩
    obtain ⟨fs, fs', rfl⟩ := List.append_of_mem hf
    rw [List.append_assoc, List.cons_append] at hbehind
    have hempty := payloadsOf_behind_close hclose hbehind
    rw [payloadsOf_append, List.append_eq_nil_iff] at hempty
    rw [messagesOf_eq_told, htold, payloads_told, hempty.2]
    split_ifs <;> rfl
  · rintro ⟨state, hmem⟩
    have hclose : Told.close ∈ es'.filterMap Event.told? :=
      List.mem_filterMap.mpr ⟨_, hmem, rfl⟩
    rw [htold] at hclose
    obtain ⟨f, hf, hf'⟩ := List.mem_filterMap.mp hclose
    exact ⟨f, hf, close_of_told?_eq_close hf'⟩
  · rw [hacts.arrived_eq h.trace_extends]
    exact h.noneBehind

end QuietAfterClose

theorem Aside.told_eq_nil {ws ws' : WebSocket} (h : Aside ws ws') :
    ∃ es, ws'.trace = ws.trace ++ es ∧ es.filterMap Event.told? = [] := by
  obtain ⟨es, htrace, hes⟩ := h.events
  exact ⟨es, htrace, List.filterMap_eq_nil_iff.mpr fun e he => told?_of_not_isIncoming (hes e he)⟩

theorem quietAfterClose_stream (env : Env) (frames : List WireFrame) (ws₀ : WebSocket) :
    StreamInvariant env frames ws₀
      (fun before after =>
        ReadFits before after ∧ NoneBehindClose frames (arrived ws₀ after).length)
      (QuietAfterClose frames ws₀) where
  fits h := h.1
  aside haside h := by
    obtain ⟨es', htrace, htold⟩ := haside.told_eq_nil
    refine h.untold htrace htold ?_
    rw [haside.arrived_eq h.trace_extends]
    exact h.noneBehind
  read hread hP h := by
    obtain ⟨bytes, hspec⟩ := hread.spec
    exact h.untold hspec.trace_eq rfl hP.2
  acts hacts hfront hle h := h.acts hacts (h.noneBehind _ ((List.mem_inits _ _).mpr hfront) hle)

/-- As long as the bytes come from the stream, nothing has been delivered after a CLOSE frame. -/
def Silenced (frames : List WireFrame) (ws₀ ws : WebSocket) : Prop :=
  ws₀.trace <+: ws.trace ∧ (arrived ws₀ ws <+: encodeAll frames →
    ∃ es, ws.trace = ws₀.trace ++ es ∧ Silent es)

theorem Silenced.untold {es' : List Event} (h : Silenced frames ws₀ ws)
    (htrace : ws'.trace = ws.trace ++ es') (htold : es'.filterMap Event.told? = []) :
    Silenced frames ws₀ ws' := by
  have hmore : ws.trace <+: ws'.trace := ⟨es', htrace.symm⟩
  refine ⟨h.1.trans hmore, fun hstream => ?_⟩
  obtain ⟨es, htrace₀, hsilent⟩ := h.2 ((arrived_mono h.1 hmore).trans hstream)
  have hmessages : messagesOf es' = [] := by rw [messagesOf_eq_told, htold]; rfl
  exact ⟨es ++ es', by rw [htrace, htrace₀, List.append_assoc],
    hsilent.append (silent_of_not_told htold) fun _ => hmessages⟩

theorem silenced_of_followed (h : Followed frames ws₀ (QuietAfterClose frames ws₀) ws) :
    Silenced frames ws₀ ws := by
  refine ⟨h.1, fun hstream => ?_⟩
  obtain ⟨_, _, -, -, hquiet⟩ := h.2 hstream
  obtain ⟨es, htrace, hsilent, -⟩ := hquiet.events
  exact ⟨es, htrace, hsilent⟩

/-- From a CONNECTED connection on, in a run whose reads find room, leave the readable region in
one piece and never bring a whole message from behind a CLOSE frame while the connection is
CONNECTED, no message is delivered after a CLOSE frame has been handled. -/
theorem no_message_after_close (env : Env) (ws₀ : WebSocket) (frames : List WireFrame)
    (calls : List PublicCall) (hstate : ws₀.state = .connected) (hvalid : ws₀.rxRing.Valid)
    (hun : ws₀.rxRing.Unwrapped) (hsize : ∀ f ∈ frames, f.payload.length < 2 ^ 63)
    (hcalls : ∀ call ∈ calls, ∀ url answers, call ≠ .connect url answers)
    (hstream : arrived ws₀ (calls.foldl (PublicCall.run env) ws₀) <+: encodeAll frames)
    (hstart : NoneBehindClose frames ws₀.rxRing.queue.length)
    (hreads : ∀ r ∈ readsOfRun env ws₀ calls,
      ReadFits r.1 r.2 ∧ NoneBehindClose frames (arrived ws₀ r.2).length) :
    ∀ es state es', (calls.foldl (PublicCall.run env) ws₀).trace =
        ws₀.trace ++ es ++ .closeFrame state :: es' → messagesOf es' = [] := by
  have hreceive := (quietAfterClose_stream env frames ws₀).receive (B := Silenced frames ws₀)
    (sizesFit_of_payload hsize) silenced_of_followed
    (fun haside hB => by
      obtain ⟨es', htrace, htold⟩ := haside.told_eq_nil
      exact hB.untold htrace htold)
    (fun hread hB => by
      obtain ⟨bytes, hspec⟩ := hread.spec
      exact hB.untold hspec.trace_eq rfl)
  have hquiet : QuietAfterClose frames ws₀ ws₀ [] := by
    refine ⟨⟨[], (List.append_nil _).symm, silent_of_not_told rfl, by simp⟩, ?_⟩
    rwa [arrived_self]
  have hfirst : Followed frames ws₀ (QuietAfterClose frames ws₀) ws₀ :=
    followed_start hvalid hun hquiet
  have hrest := hreceive.run (G := fun call => ∀ url answers, call ≠ .connect url answers)
    (fun ws call hconnect hprocess hrest => by
      refine hrest.call hreceive hconnect hprocess ?_ ?_ ?_
      · intro ws' done htrace _ h
        refine ⟨by rw [htrace]; exact h.events, ?_⟩
        rw [arrived_congr htrace]
        exact h.noneBehind
      · intro callback userData _ done h
        exact ⟨h.events, h.noneBehind⟩
      · intro ws' htrace hB
        have hnil : ws'.trace = ws.trace ++ [] := by rw [htrace, List.append_nil]
        exact hB.untold hnil rfl)
    hcalls ⟨by rw [hstate]; decide, fun _ => ⟨hfirst, drained_start⟩, hreceive.idle hfirst⟩ hreads
  obtain ⟨es₀, htrace₀, hsilent⟩ := hrest.idle.2 hstream
  intro es state es' htrace
  rw [htrace₀, List.append_assoc, List.append_cancel_left_eq] at htrace
  exact hsilent es state es' htrace

/-- An empty CLOSE frame. -/
def closeFrame : WireFrame := ⟨true, 8, .short, none, [], by decide, LengthForm.limit_pos .short⟩

/-- The events after the first CLOSE frame that was handled in the state CONNECTED. -/
def afterClose (trace : List Event) : List Event :=
  (trace.dropWhile (· ≠ .closeFrame .connected)).tail

/-- The message `Hi`, a CLOSE frame and the message again, in three reads. -/
def closeBetweenMessages : List PublicCall :=
  [peerSends hiFrame.encode, peerSends closeFrame.encode, peerSends hiFrame.encode]

/-- The first message is the only one that is delivered. -/
theorem silent_after_close_alone :
    let ws := closeBetweenMessages.foldl (PublicCall.run fun _ => {}) openConnection
    messagesOf ws.trace = [[0x48, 0x69]] ∧ messagesOf (afterClose ws.trace) = [] := by
  have hsilent := no_message_after_close (fun _ => {}) openConnection
    [hiFrame, closeFrame, hiFrame] closeBetweenMessages rfl ⟨by decide, by decide⟩ (by decide)
    (by decide) (by simp [closeBetweenMessages, peerSends]) (by decide +kernel) (by decide)
    (by decide +kernel)
  refine ⟨by decide +kernel, hsilent ((closeBetweenMessages.foldl (PublicCall.run fun _ => {})
    openConnection).trace.takeWhile (· ≠ .closeFrame .connected)) .connected _ ?_⟩
  decide +kernel

/-- A CLOSE frame and the message `Hi` in one read: the message is delivered after the CLOSE frame
has been handled. -/
theorem message_behind_close_delivered :
    let ws := runCalls (fun _ => {}) true
      (accepted ++ [peerSends (closeFrame.encode ++ hiFrame.encode)])
    ws.state = .closing ∧ messagesOf (afterClose ws.trace) = [[0x48, 0x69]] := by
  decide +kernel

end WebSocketHft
