import WebSocketHft.Verification.Frames.Delivery
import WebSocketHft.Verification.Runs.Standing
import WebSocketHft.Verification.Runs.States

/-! # Whose user data a callback gets

Every callback is registered together with a pointer that it is to receive. What an
application may expect is told by its registrations alone: a callback receives the
pointer of its own last registration. The program keeps one pointer for `on_message`
and `on_error` together, so that each of these replaces the pointer of the other. -/

namespace WebSocketHft

/-! ## Registrations -/

/-- The functions an application can register. -/
inductive CallbackKind where
  | message
  | error
  | metrics
  | health
  | log
  | heartbeatTimeout
  deriving DecidableEq, Repr

/-- The callback that an event tells of, and the pointer it received. -/
def Event.invocation? : Event → Option (CallbackKind × UserData)
  | .message _ userData => some (.message, userData)
  | .error _ _ userData => some (.error, userData)
  | .metrics _ userData => some (.metrics, userData)
  | .health _ _ userData => some (.health, userData)
  | .log _ _ userData => some (.log, userData)
  | .heartbeatTimeout userData => some (.heartbeatTimeout, userData)
  | _ => none

/-- The callback that a call registers, and the pointer given for it; a `NULL` function has
none. -/
def PublicCall.registration? : PublicCall → Option (CallbackKind × Option UserData)
  | .setOnMessage callback userData => some (.message, if callback then some userData else none)
  | .setOnError callback userData => some (.error, if callback then some userData else none)
  | .setOnMetrics callback => some (.metrics, callback)
  | .setOnHealth callback => some (.health, callback)
  | .setLogCallback callback => some (.log, callback)
  | .setHeartbeatConfig config =>
    some (.heartbeatTimeout,
      if config.onHeartbeatTimeout then some config.heartbeatUserData else none)
  | _ => none

/-- The pointer given for a callback, if the call registers that one. -/
def PublicCall.registers? (k : CallbackKind) (call : PublicCall) : Option (Option UserData) :=
  match call.registration? with
  | some (k', userData) => if k' = k then some userData else none
  | none => none

def PublicCall.isRegistration (call : PublicCall) : Bool := call.registration?.isSome

/-- The pointer of the last registration of a callback; there is none if it was never registered
or is `NULL` since then. -/
def lastRegistration (k : CallbackKind) (calls : List PublicCall) : Option UserData :=
  (calls.filterMap (PublicCall.registers? k)).getLast?.join

/-- The pointer given to `websocket_set_on_message` or `websocket_set_on_error`. -/
def PublicCall.pointer? : PublicCall → Option UserData
  | .setOnMessage _ userData => some userData
  | .setOnError _ userData => some userData
  | _ => none

/-- The pointer given last to any of these two. -/
def lastPointer (calls : List PublicCall) : Option UserData :=
  (calls.filterMap PublicCall.pointer?).getLast?

/-- `on_message` and `on_error`. -/
def CallbackKind.shares : CallbackKind → Bool
  | .message => true
  | .error => true
  | _ => false

/-- The pointer of a callback has not been replaced: for `on_message` and `on_error`, it is the
one given last to any of them. -/
def KeepsPointer (calls : List PublicCall) (k : CallbackKind) : Prop :=
  k.shares = true → ∀ userData, lastRegistration k calls = some userData →
    lastPointer calls = some userData

/-- A call leaves the pointer of another callback alone: for `on_message` and `on_error`, it gives
none or the same. -/
def SparesPointer (calls : List PublicCall) (call : PublicCall) (k : CallbackKind) : Prop :=
  k.shares = true → (lastRegistration k calls).isSome → ∀ userData, call.pointer? = some userData →
    lastPointer calls = some userData

/-- The pointer registered for `on_message` or `on_error` is the pointer given. -/
theorem PublicCall.pointer?_of_registers (call : PublicCall) {k : CallbackKind}
    {userData : UserData} (hk : k.shares = true) (h : call.registers? k = some (some userData)) :
    call.pointer? = some userData := by
  cases call with
  | setOnMessage callback _ | setOnError callback _ =>
      cases k <;> cases callback <;> cases h
      all_goals rfl
  | _ => cases k <;> cases hk <;> cases h

/-- What was given last is given by the last call or before it. -/
theorem getLast?_filterMap_concat {β : Type} (f : PublicCall → Option β) (calls : List PublicCall)
    (call : PublicCall) :
    ((calls ++ [call]).filterMap f).getLast? = (f call).or (calls.filterMap f).getLast? := by
  rw [List.filterMap_append, List.getLast?_append]
  cases hcall : f call with
  | none => simp [hcall]
  | some given => simp [hcall]

theorem lastRegistration_append (k : CallbackKind) (calls : List PublicCall) (call : PublicCall) :
    lastRegistration k (calls ++ [call]) =
      (call.registers? k).getD (lastRegistration k calls) := by
  rw [lastRegistration, getLast?_filterMap_concat]
  cases call.registers? k <;> rfl

theorem lastPointer_append (calls : List PublicCall) (call : PublicCall) :
    lastPointer (calls ++ [call]) = call.pointer?.or (lastPointer calls) :=
  getLast?_filterMap_concat _ _ _

/-! ## What is received -/

/-- What a callback will receive, if it is called at all. -/
def Settings.receives (s : Settings) : CallbackKind → Option UserData
  | .message => if s.onMessage then some s.callbackUserData else none
  | .error => if s.onError then some s.callbackUserData else none
  | .metrics => s.onMetrics
  | .health => s.onHealth
  | .log => s.logCallback
  | .heartbeatTimeout =>
    if s.heartbeatConfig.onHeartbeatTimeout then some s.heartbeatConfig.heartbeatUserData else none

theorem Settings.Tells.receives {s : Settings} {e : Event} (h : s.Tells e) {k : CallbackKind}
    {userData : UserData} (he : e.invocation? = some (k, userData)) :
    s.receives k = some userData := by
  cases e with
  | message _ _ | error _ _ _ | heartbeatTimeout _ =>
      cases he
      exact (if_pos h.1).trans (congrArg some h.2)
  | metrics _ _ | health _ _ _ | log _ _ _ =>
      cases he
      exact h
  | _ => cases he

/-- What a call leaves of it: a registration of the callback itself replaces it, and a pointer
given to `websocket_set_on_message` or `websocket_set_on_error` goes to both. -/
theorem receives_run (env : Env) (ws : WebSocket) (call : PublicCall) (k : CallbackKind) :
    (call.run env ws).settings.receives k =
      (call.registers? k).getD
        (if k.shares then (ws.settings.receives k).map call.pointer?.getD
        else ws.settings.receives k) := by
  have hkept (before : Option UserData) (shares : Bool) :
      before = if shares then before.map (Option.getD none) else before := by
    cases before <;> cases shares <;> rfl
  have hgiven (set : Bool) (before userData : UserData) :
      (if set then some userData else none) =
        (if set then some before else none).map (Option.getD (some userData)) := by
    cases set <;> rfl
  have hstanding {ws' : WebSocket} (h : Standing ws ws') :
      ws'.settings.receives k =
        if k.shares then (ws.settings.receives k).map (Option.getD none)
        else ws.settings.receives k :=
    (congrArg (Settings.receives · k) h.settings).trans (hkept _ _)
  cases call with
  | setOnMessage callback userData =>
      cases k with
      | error => exact hgiven ws.onError ws.callbackUserData userData
      | _ => rfl
  | setOnError callback userData =>
      cases k with
      | message => exact hgiven ws.onMessage ws.callbackUserData userData
      | _ => rfl
  | setOnMetrics _ | setOnHealth _ | setLogCallback _ | setHeartbeatConfig _
  | setReconnectConfig _ => cases k <;> first | rfl | exact hkept _ true
  | getMetrics => exact hkept _ _
  | resetMetrics => exact hkept _ _
  | connect url answers => exact hstanding (Steady.websocketConnect ws url answers).toStanding
  | process events => exact hstanding (Standing.websocketProcess ws events)
  | send data isText => exact hstanding (Steady.websocketSend ws data isText).toStanding
  | close => exact hstanding (Steady.websocketClose ws).toStanding

/-- The settings follow the registrations, but for the pointer of a callback that shares it. -/
structure Reflects (s : Settings) (calls : List PublicCall) : Prop where
  own : ∀ k, k.shares = false → s.receives k = lastRegistration k calls
  set : ∀ k, (s.receives k).isSome = (lastRegistration k calls).isSome
  pointer : ∀ k userData, k.shares = true → s.receives k = some userData →
    lastPointer calls = some userData

namespace Reflects

variable {s : Settings} {calls : List PublicCall}

theorem create (allocated : Bool) : Reflects (websocketCreate allocated).settings [] := by
  have hnone (k : CallbackKind) : (websocketCreate allocated).settings.receives k = none := by
    cases k <;> rfl
  refine ⟨fun k _ => hnone k, fun k => congrArg Option.isSome (hnone k), ?_⟩
  intro k userData _ hsome
  rw [hnone] at hsome
  cases hsome

/-- The step of a run by one call. -/
theorem step {env : Env} {ws : WebSocket} (h : Reflects ws.settings calls) (call : PublicCall) :
    Reflects (call.run env ws).settings (calls ++ [call]) := by
  refine ⟨?_, ?_, ?_⟩
  · intro k hk
    rw [receives_run, lastRegistration_append, hk, if_neg Bool.false_ne_true, h.own k hk]
  · intro k
    rw [receives_run, lastRegistration_append]
    cases call.registers? k with
    | some c => rfl
    | none =>
        simp only [Option.getD_none]
        split_ifs
        · rw [Option.isSome_map, h.set k]
        · exact h.set k
  · intro k userData hk hsome
    rw [receives_run, if_pos hk] at hsome
    rw [lastPointer_append]
    cases hcall : call.registers? k with
    | some c =>
        rw [hcall] at hsome
        rw [call.pointer?_of_registers hk (hcall.trans (congrArg some hsome))]
        rfl
    | none =>
        rw [hcall] at hsome
        obtain ⟨before, hbefore, rfl⟩ := Option.map_eq_some_iff.mp hsome
        cases call.pointer? with
        | some userData => rfl
        | none => exact h.pointer k before hk hbefore

/-- Along every run the settings follow the registrations. -/
theorem runCalls (env : Env) (allocated : Bool) (calls : List PublicCall) :
    Reflects (WebSocketHft.runCalls env allocated calls).settings calls := by
  induction calls using List.reverseRecOn with
  | nil => exact create allocated
  | append_singleton calls call ih =>
      rw [WebSocketHft.runCalls, List.foldl_concat]
      exact ih.step call

/-- A callback that is called has received its own pointer exactly if that was not replaced. -/
theorem own_iff (h : Reflects s calls) {k : CallbackKind} {userData : UserData}
    (hreceives : s.receives k = some userData) :
    lastRegistration k calls = some userData ↔ KeepsPointer calls k := by
  constructor
  · intro hown hk userData' hlast
    rw [← hlast, hown]
    exact h.pointer k userData hk hreceives
  · intro hkeeps
    cases hk : k.shares with
    | false => rw [← h.own k hk, hreceives]
    | true =>
        have hset : (lastRegistration k calls).isSome := by
          rw [← h.set k, hreceives]
          rfl
        obtain ⟨userData', hlast⟩ := Option.isSome_iff_exists.mp hset
        rw [hlast, ← hkeeps hk userData' hlast]
        exact h.pointer k userData hk hreceives

/-- A call that does not register a callback leaves what it receives exactly if it spares its
pointer. -/
theorem unchanged_iff {env : Env} {ws : WebSocket} (h : Reflects ws.settings calls)
    {call : PublicCall} {k : CallbackKind} (hcall : call.registers? k = none) :
    (call.run env ws).settings.receives k = ws.settings.receives k ↔
      SparesPointer calls call k := by
  have hset := h.set k
  rw [receives_run, hcall, Option.getD_none]
  cases hk : k.shares with
  | false => exact iff_of_true rfl fun hshares => absurd (hk.symm.trans hshares) Bool.false_ne_true
  | true =>
      rw [if_pos rfl]
      cases hbefore : ws.settings.receives k with
      | none =>
          rw [hbefore] at hset
          exact iff_of_true rfl fun _ hsome => absurd (hset.trans hsome) Bool.false_ne_true
      | some before =>
          rw [hbefore] at hset
          have hpointer : lastPointer calls = some before := h.pointer k before hk hbefore
          unfold SparesPointer
          rw [hpointer]
          constructor
          · intro hsame _ _ userData hgiven
            rw [hgiven] at hsame
            exact hsame.symm
          · intro hspares
            cases hgiven : call.pointer? with
            | none => rfl
            | some userData => exact (hspares hk hset.symm userData hgiven).symm

end Reflects

/-! ## What is invoked -/

/-- The callbacks that a call of `websocket_process` makes, with the pointers they receive. -/
def invocations (env : Env) (ws : WebSocket) (events : Option (List KEvent)) :
    List (CallbackKind × UserData) :=
  ((websocketProcess env ws events).2.trace.drop ws.trace.length).filterMap Event.invocation?

variable {env : Env} {ws : WebSocket} {events : Option (List KEvent)}

theorem invocations_eq {es : List Event}
    (htrace : (websocketProcess env ws events).2.trace = ws.trace ++ es) :
    invocations env ws events = es.filterMap Event.invocation? := by
  rw [invocations, htrace, List.drop_left]

theorem receives_of_mem_invocations {k : CallbackKind} {userData : UserData}
    (h : (k, userData) ∈ invocations env ws events) : ws.settings.receives k = some userData := by
  have hstanding : Standing ws (websocketProcess env ws events).2 :=
    Standing.websocketProcess ws events
  obtain ⟨es, htrace, htells⟩ := hstanding.events
  rw [invocations_eq htrace] at h
  obtain ⟨e, he, hinvocation⟩ := List.mem_filterMap.mp h
  exact (htells e he).receives hinvocation

/-- What a callback is told stays, whatever the rest of the call does. -/
theorem mem_invocations_of_event {ctx : IOContext} (hctx : ws.ioCtx = some ctx) {ev : KEvent}
    {es : List Event}
    (htrace : (handleEvent env { ws with ioCtx := some (ioPoll ctx (some [ev])).2 } ev).trace =
      ws.trace ++ es) {e : Event} (he : e ∈ es) {invocation : CallbackKind × UserData}
    (hinvocation : e.invocation? = some invocation) :
    invocation ∈ invocations env ws (some [ev]) := by
  let handled := handleEvent env { ws with ioCtx := some (ioPoll ctx (some [ev])).2 } ev
  have hstanding : Standing handled (processTail env handled) := Standing.processTail handled
  obtain ⟨rest, hrest, -⟩ := hstanding.events
  have hwhole : (websocketProcess env ws (some [ev])).2.trace = ws.trace ++ (es ++ rest) := by
    rw [websocketProcess, hctx, ← List.append_assoc, ← htrace]
    exact hrest
  rw [invocations_eq hwhole]
  exact List.mem_filterMap.mpr ⟨e, List.mem_append_left _ he, hinvocation⟩

theorem exists_message_of_payload {es : List Event} {payload : List UInt8}
    (h : payload ∈ messagesOf es) :
    ∃ e ∈ es, ∃ userData, e.invocation? = some (.message, userData) := by
  obtain ⟨e, he, hpayload⟩ := List.mem_filterMap.mp h
  cases e with
  | message payload userData => exact ⟨_, he, userData, rfl⟩
  | _ => cases hpayload

/-- The TEXT frame `A` arrives in an empty ring with room behind the pointers. -/
theorem arrive_text (henv : ∀ t, ApiCall.close ∉ (env t).calls)
    (hempty : ws.rxRing.readPtr = ws.rxRing.writePtr)
    (hroom : ws.rxRing.writePtr + 4 ≤ ws.rxRing.size) (hset : ws.onMessage = true) :
    Delivers ws (arrive env ws [0x81, 0x01, 0x41]) [[0x41]] := by
  let frame : WireFrame := ⟨true, 1, .short, none, [0x41], by decide, by decide⟩
  have hvalid : ws.rxRing.Valid := ⟨by omega, by omega⟩
  have hqueue : ws.rxRing.queue = [] := queue_eq_nil_of_ptr_eq hempty
  have hnone : ringbufferReadable ws.rxRing = 0 := by
    rw [readable_eq_distance, hempty, Circular.distance_self]
  have hspace : 3 ≤ ringbufferWriteable ws.rxRing := by
    have hsum := hvalid.writeable_add_readable
    omega
  have hunwrapped : (ws.rxRing.produce [0x81, 0x01, 0x41]).Unwrapped := by
    rw [RingBuffer.Unwrapped, readable_produce hvalid [0x81, 0x01, 0x41] hspace, hnone]
    change ws.rxRing.readPtr + (0 + 3) ≤ ws.rxRing.size
    omega
  have hstream : ws.rxRing.queue ++ [[0x81, 0x01, 0x41]].flatten = encodeAll [frame] := by
    rw [hqueue]
    decide
  have hleft : Unfinished ws.rxRing.queue [frame] := by
    rw [hqueue]
    exact unfinished_nil _
  exact (run_handles henv [[0x81, 0x01, 0x41]] hset hvalid (sizesFit_singleton (by decide))
    (by decide) hstream hleft ⟨hspace, hunwrapped, trivial⟩).1

/-- The connection is open, over plain TCP, and has nothing unread. -/
structure Receptive (ws : WebSocket) : Prop where
  state : ws.state = .connected
  useSsl : ws.useSsl = false
  empty : ws.rxRing.readPtr = ws.rxRing.writePtr
  room : ws.rxRing.writePtr + 4 ≤ ws.rxRing.size
  socket : ∃ ctx, ws.ioCtx = some ctx ∧ ∃ sock, ctx.sockets[0]? = some sock ∧ 0 ≤ sock.fd

namespace Receptive

/-- The events of a poll leave the sockets where they are. -/
theorem poll (h : Receptive ws) {ctx : IOContext} (hctx : ws.ioCtx = some ctx)
    (events : Option (List KEvent)) :
    Receptive { ws with ioCtx := some (ioPoll ctx events).2 } := by
  obtain ⟨ctx', hctx', sock, hslot, hfd⟩ := h.socket
  obtain rfl : ctx' = ctx := Option.some.inj (hctx'.symm.trans hctx)
  rw [← sockets_ioPoll ctx' events] at hslot
  exact ⟨h.state, h.useSsl, h.empty, h.room, _, rfl, sock, hslot, hfd⟩

/-- The TEXT frame `A` arrives with an event of the socket. -/
theorem handleEvent_text (h : Receptive ws) (henv : ∀ t, ApiCall.close ∉ (env t).calls)
    (hset : ws.onMessage = true) {ev : KEvent}
    (hev : ev = ⟨0, 0, false, false, .read, .received [0x81, 0x01, 0x41] none⟩) :
    messagesOf (handleEvent env ws ev).trace = messagesOf ws.trace ++ [[0x41]] := by
  obtain ⟨ctx, hctx, sock, hslot, hfd⟩ := h.socket
  have hempty := h.empty
  have hroom := h.room
  have hvalid : ws.rxRing.Valid := ⟨by omega, by omega⟩
  have hslot' : ctx.sockets[ev.udata]? = some sock := by rw [hev, hslot]
  have hrecv : ev.recv = .received [0x81, 0x01, 0x41] none := by rw [hev]
  have hoffered : 3 ≤ (ringbufferWriteInline ws.rxRing).len := by
    rw [writeInline_len hvalid, if_pos hempty.le]
    omega
  obtain ⟨ioCtx, hevent⟩ := handleEvent_received env h.state h.useSsl hvalid hctx
    (by rw [hev]) (by rw [hev]) (by rw [hev]) hslot' hfd hrecv (by decide) hoffered
  have hdelivers : Delivers ({ ws with ioCtx := ioCtx }.record (.received [0x81, 0x01, 0x41])) _ _ :=
    arrive_text henv hempty hroom hset
  have hsilent : messagesOf (ws.trace ++ [.received [0x81, 0x01, 0x41]]) = messagesOf ws.trace :=
    (messagesOf_append _ _).trans (List.append_nil _)
  rw [hevent, hdelivers.messages, ← hsilent]
  rfl

theorem message_invoked (h : Receptive ws) (henv : ∀ t, ApiCall.close ∉ (env t).calls)
    (hset : ws.onMessage = true) :
    ∃ userData, (.message, userData) ∈ invocations env ws
      (some [⟨0, 0, false, false, .read, .received [0x81, 0x01, 0x41] none⟩]) := by
  obtain ⟨ctx, hctx, -⟩ := h.socket
  let ev : KEvent := ⟨0, 0, false, false, .read, .received [0x81, 0x01, 0x41] none⟩
  let polled : WebSocket := { ws with ioCtx := some (ioPoll ctx (some [ev])).2 }
  have hpolled : Receptive polled := h.poll hctx _
  have hsteady : Steady polled (handleEvent env polled ev) :=
    Steady.stages.foldl_handleEvent [ev] polled
  obtain ⟨es, htrace, -⟩ := hsteady.events
  have hmem : [0x41] ∈ messagesOf es := by
    have htext := hpolled.handleEvent_text henv hset (Eq.refl ev)
    rw [htrace, messagesOf_append] at htext
    rw [List.append_cancel_left htext]
    exact List.mem_singleton_self _
  obtain ⟨e, he, userData, hinvocation⟩ := exists_message_of_payload hmem
  exact ⟨userData, mem_invocations_of_event hctx htrace he hinvocation⟩

/-- The peer closes the connection. -/
theorem error_invoked (h : Receptive ws) (env : Env) (hset : ws.onError = true) :
    (.error, ws.callbackUserData) ∈
      invocations env ws (some [⟨0, 0, true, false, .read, .failed⟩]) := by
  obtain ⟨ctx, hctx, -⟩ := h.socket
  let ev : KEvent := ⟨0, 0, true, false, .read, .failed⟩
  let gone := { ws with ioCtx := some (ioPoll ctx (some [ev])).2 }.setState .closed
  let told : Event := .error (-1) "Connection closed by peer" ws.callbackUserData
  have hevent : handleEvent env { ws with ioCtx := some (ioPoll ctx (some [ev])).2 } ev =
      gone.callback env told :=
    (if_pos (Or.inl rfl)).trans ((if_pos (Or.inl h.state)).trans (if_pos hset))
  have hanswered : Steady (gone.record told) (gone.callback env told) := Steady.answer gone told
  obtain ⟨es, htrace, -⟩ := hanswered.events
  have hall : (gone.callback env told).trace =
      ws.trace ++ ([.state ws.state .closed, told] ++ es) := by
    rw [htrace]
    simp [gone, WebSocket.record, WebSocket.setState]
  have htold : told ∈ [.state ws.state .closed, told] ++ es := by simp
  exact mem_invocations_of_event hctx ((congrArg WebSocket.trace hevent).trans hall) htold rfl

/-- A callback that shares its pointer and is registered can be made to be called. -/
theorem shared_invoked (h : Receptive ws) (henv : ∀ t, ApiCall.close ∉ (env t).calls)
    {k : CallbackKind} (hk : k.shares = true) (hset : (ws.settings.receives k).isSome) :
    ∃ events userData, (k, userData) ∈ invocations env ws events := by
  have hcallback {set : Bool} {userData : UserData}
      (h : (if set then some userData else none).isSome) : set = true := by
    cases set with
    | false => cases h
    | true => rfl
  cases k with
  | message => exact ⟨_, h.message_invoked henv (hcallback hset)⟩
  | error => exact ⟨_, _, h.error_invoked env (hcallback hset)⟩
  | _ => cases hk

/-- A registration leaves the connection itself alone. -/
theorem run_registration (h : Receptive ws) {call : PublicCall}
    (hcall : call.isRegistration = true) : Receptive (call.run env ws) := by
  cases call with
  | setOnMessage _ _ | setOnError _ _ | setOnMetrics _ | setOnHealth _ | setLogCallback _
  | setHeartbeatConfig _ => exact ⟨h.state, h.useSsl, h.empty, h.room, h.socket⟩
  | _ => cases hcall

theorem foldl_registrations (h : Receptive ws) (regs : List PublicCall)
    (hregs : ∀ call ∈ regs, call.isRegistration = true) :
    Receptive (regs.foldl (PublicCall.run env) ws) := by
  induction regs generalizing ws with
  | nil => exact h
  | cons call regs ih =>
      exact ih (h.run_registration (hregs call List.mem_cons_self)) fun call' hmem =>
        hregs call' (List.mem_cons_of_mem _ hmem)

end Receptive

/-! ## Every sequence of registrations -/

/-- The connection is accepted without any registration. -/
def opening : List PublicCall := accepted.tail

theorem receptive_opening : Receptive (runCalls (fun _ => {}) true opening) := by
  have hfacts : (runCalls (fun _ => {}) true opening).state = .connected ∧
      (runCalls (fun _ => {}) true opening).useSsl = false ∧
      (runCalls (fun _ => {}) true opening).rxRing.readPtr =
        (runCalls (fun _ => {}) true opening).rxRing.writePtr ∧
      (runCalls (fun _ => {}) true opening).rxRing.writePtr + 4 ≤
        (runCalls (fun _ => {}) true opening).rxRing.size ∧
      (runCalls (fun _ => {}) true opening).ioCtx.map IOContext.sockets = some [⟨0, 0⟩] := by
    decide +kernel
  obtain ⟨hstate, hplain, hempty, hroom, hsockets⟩ := hfacts
  obtain ⟨ctx, hctx, hslots⟩ := Option.map_eq_some_iff.mp hsockets
  exact ⟨hstate, hplain, hempty, hroom, ctx, hctx, ⟨0, 0⟩, congrArg (·[0]?) hslots, le_rfl⟩

/-- What only registrations have can be looked up among them. -/
theorem filterMap_registrations {β : Type} {f : PublicCall → Option β}
    (hf : ∀ call : PublicCall, call.isRegistration = false → f call = none)
    (calls : List PublicCall) :
    (calls.filter PublicCall.isRegistration).filterMap f = calls.filterMap f := by
  rw [List.filterMap_filter]
  refine List.filterMap_congr fun call _ => ?_
  cases hcall : call.isRegistration with
  | true => rfl
  | false => exact (hf call hcall).symm

theorem lastRegistration_filter (k : CallbackKind) (calls : List PublicCall) :
    lastRegistration k (calls.filter PublicCall.isRegistration) = lastRegistration k calls := by
  unfold lastRegistration
  rw [filterMap_registrations]
  intro call hcall
  have hnone : call.registration? = none := by simpa [PublicCall.isRegistration] using hcall
  rw [PublicCall.registers?, hnone]

theorem lastPointer_filter (calls : List PublicCall) :
    lastPointer (calls.filter PublicCall.isRegistration) = lastPointer calls := by
  unfold lastPointer
  rw [filterMap_registrations]
  intro call hcall
  cases call <;> first | rfl | cases hcall

theorem keepsPointer_filter (calls : List PublicCall) (k : CallbackKind) :
    KeepsPointer (calls.filter PublicCall.isRegistration) k ↔ KeepsPointer calls k := by
  rw [KeepsPointer, KeepsPointer, lastRegistration_filter, lastPointer_filter]

theorem sparesPointer_filter (calls : List PublicCall) (call : PublicCall) (k : CallbackKind) :
    SparesPointer (calls.filter PublicCall.isRegistration) call k ↔ SparesPointer calls call k := by
  rw [SparesPointer, SparesPointer, lastRegistration_filter, lastPointer_filter]

theorem filter_opening_append {regs : List PublicCall}
    (hregs : ∀ call ∈ regs, call.isRegistration = true) :
    (opening ++ regs).filter PublicCall.isRegistration = regs := by
  rw [List.filter_append, List.filter_eq_self.mpr hregs]
  rfl

/-- Some run with these registrations calls the callback. -/
theorem exists_invocation {regs : List PublicCall}
    (hregs : ∀ call ∈ regs, call.isRegistration = true) {k : CallbackKind}
    (hk : k.shares = true) (hset : (lastRegistration k regs).isSome) :
    ∃ events userData, (k, userData) ∈
      invocations (fun _ => {}) (runCalls (fun _ => {}) true (opening ++ regs)) events := by
  have hreceptive : Receptive (runCalls (fun _ => {}) true (opening ++ regs)) := by
    rw [runCalls, List.foldl_append]
    exact receptive_opening.foldl_registrations regs hregs
  refine hreceptive.shared_invoked (fun _ => List.not_mem_nil) hk ?_
  rw [(Reflects.runCalls _ true (opening ++ regs)).set k, ← lastRegistration_filter,
    filter_opening_append hregs]
  exact hset

/-- Whatever else is called in between and whatever the surroundings answer: every callback that
`websocket_process` calls receives the pointer of its own last registration exactly if the
pointers of `on_message` and `on_error` have not been replaced. Registering a callback
leaves what another one receives exactly if its pointer is spared. -/
theorem callbacks_get_own_data_iff (regs : List PublicCall)
    (hregs : ∀ call ∈ regs, call.isRegistration = true) :
    ((∀ env allocated calls events k userData,
        calls.filter PublicCall.isRegistration = regs →
        (k, userData) ∈ invocations env (runCalls env allocated calls) events →
        lastRegistration k regs = some userData) ↔ ∀ k, KeepsPointer regs k) ∧
      ∀ env allocated calls call k, calls.filter PublicCall.isRegistration = regs →
        call.registers? k = none →
        ((runCalls env allocated (calls ++ [call])).settings.receives k =
            (runCalls env allocated calls).settings.receives k ↔ SparesPointer regs call k) := by
  refine ⟨⟨?_, ?_⟩, ?_⟩
  · intro hown k hk userData hlast
    have hset : (lastRegistration k regs).isSome := by
      rw [hlast]
      rfl
    obtain ⟨events, userData', hmem⟩ := exists_invocation hregs hk hset
    have hsame := filter_opening_append hregs
    have hlast' : lastRegistration k (opening ++ regs) = some userData' := by
      rw [← lastRegistration_filter, hsame]
      exact hown _ true (opening ++ regs) events k userData' hsame hmem
    have hkeeps : KeepsPointer (opening ++ regs) k :=
      ((Reflects.runCalls _ true (opening ++ regs)).own_iff
        (receives_of_mem_invocations hmem)).mp hlast'
    rw [← keepsPointer_filter, hsame] at hkeeps
    exact hkeeps hk userData hlast
  · rintro hkeeps env allocated calls events k userData rfl hmem
    rw [lastRegistration_filter]
    exact ((Reflects.runCalls env allocated calls).own_iff
      (receives_of_mem_invocations hmem)).mpr ((keepsPointer_filter calls k).mp (hkeeps k))
  · rintro env allocated calls call k rfl hcall
    rw [sparesPointer_filter, runCalls, List.foldl_concat]
    exact (Reflects.runCalls env allocated calls).unchanged_iff hcall

/-- Both callbacks are registered with the same pointer, and it is received. -/
theorem same_pointer_received :
    let regs : List PublicCall := [.setOnMessage true 7, .setLogCallback (some 8), .setOnError true 7]
    (.message, 7) ∈ invocations (fun _ => {}) (runCalls (fun _ => {}) true (regs ++ opening))
        (some [⟨0, 0, false, false, .read, .received [0x81, 0x01, 0x41] none⟩]) ∧
      lastRegistration .message regs = some 7 := by
  intro regs
  have hinvoked : (.message, 7) ∈
      invocations (fun _ => {}) (runCalls (fun _ => {}) true (regs ++ opening))
        (some [⟨0, 0, false, false, .read, .received [0x81, 0x01, 0x41] none⟩]) := by
    decide +kernel
  have hkeeps (k : CallbackKind) : KeepsPointer regs k := by
    intro hk userData hlast
    cases k with
    | message => exact hlast
    | error => exact hlast
    | _ => cases hk
  exact ⟨hinvoked, (callbacks_get_own_data_iff regs (by decide)).1.mpr hkeeps _ true
    (regs ++ opening) _ .message 7 rfl hinvoked⟩

/-- `on_message` is registered with the pointer 1 and `on_error` with 2 afterwards: the TEXT frame
`A` is delivered with the pointer 2. -/
theorem message_gets_pointer_of_error :
    let regs : List PublicCall := [.setOnMessage true 1, .setOnError true 2]
    invocations (fun _ => {}) (runCalls (fun _ => {}) true (regs ++ opening))
        (some [⟨0, 0, false, false, .read, .received [0x81, 0x01, 0x41] none⟩]) = [(.message, 2)] ∧
      lastRegistration .message regs = some 1 := by
  decide +kernel

end WebSocketHft
