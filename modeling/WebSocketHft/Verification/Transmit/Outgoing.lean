import WebSocketHft.Verification.Transmit.Runs

/-! # What a plain connection has sent

The bytes the socket has accepted since the upgrade request, followed by the bytes that
still wait in the transmit ring, are the request followed by everything queued since: over
every run, in whatever pieces `writev` takes them. -/

namespace WebSocketHft

open WebSocketHft.Runs

variable {env : Env} {ws ws' : WebSocket}

/-- A connection that has never used TLS. -/
structure PlainInv (ws : WebSocket) : Prop extends TxInv ws where
  useSsl : ws.useSsl = false
  sslCtx : ws.sslCtx = none

theorem PlainInv.stream_eq (h : PlainInv ws) (hsize : 0 < ws.txRing.size) :
    sentOf (sinceRequest ws.trace) ++ ws.txRing.queue =
      lastRequest ws.trace ++ (queuedOf (sinceRequest ws.trace)).flatten := by
  obtain ⟨taken, hbytes, -, hplain⟩ := h.stream hsize
  rw [← hplain h.sslCtx, hbytes]

theorem PlainInv.move (hmove : Move env ws ws') (h : PlainInv ws) : PlainInv ws' := by
  obtain ⟨es, hes⟩ := hmove.carries h.usable h.size_lt
  exact ⟨h.toTxInv.move hmove, hmove.useSsl_eq.trans h.useSsl, hes.sslCtx_iff.mpr h.sslCtx⟩

/-! ## Connecting -/

theorem parseUrl_plain {url : List UInt8} (h : ¬ascii "wss://" <+: url) (hostLen pathLen : ℕ)
    (out : UrlParts) : (parseUrl url hostLen pathLen out).2.useSsl = false := by
  have hscheme : ∀ useSsl rest, parseScheme url = some (useSsl, rest) → useSsl = false := by
    intro useSsl rest hsome
    rw [parseScheme, if_neg h] at hsome
    split_ifs at hsome
    cases hsome
    rfl
  unfold parseUrl
  cases hparsed : parseScheme url with
  | none => rfl
  | some parsed =>
      obtain ⟨useSsl, rest⟩ := parsed
      obtain rfl := hscheme useSsl rest hparsed
      dsimp only
      split_ifs <;> rfl

/-- The fields that tell of TLS. -/
def WebSocket.tls (ws : WebSocket) : Bool × Option SSLContext := (ws.useSsl, ws.sslCtx)

theorem tls_connectCleanup (ws : WebSocket) : (connectCleanup ws).tls = ws.tls := by
  unfold connectCleanup
  split_ifs <;> rfl

theorem tls_sendHandshake (env : Env) (ws : WebSocket) (encoded : Option (List UInt8)) :
    (sendHandshake env ws encoded).2.tls = ws.tls := by
  have hcore := core_sendHandshake env ws encoded
  generalize (sendHandshake env ws encoded).2 = sent at hcore ⊢
  exact Prod.ext (congrArg Core.useSsl hcore) (congrArg Core.sslCtx hcore)

theorem tls_connectSocket (env : Env) {ws : WebSocket} (h : ws.tls = (false, none)) (ctx : IOContext)
    (a : ConnectAnswers) : (connectSocket env ws ctx a).2.tls = (false, none) := by
  have hadded : (ws.addSocket (ioAddSocket ctx ws.fd a.configured a.registered)).tls =
      (false, none) := h
  unfold connectSocket
  dsimp only
  generalize ws.addSocket (ioAddSocket ctx ws.fd a.configured a.registered) = added at hadded ⊢
  have hsent := (tls_sendHandshake env added a.encoded).trans hadded
  generalize sendHandshake env added a.encoded = sent at hsent ⊢
  split_ifs with hindex hssl hfailed
  · exact absurd ((congrArg Prod.fst hadded).symm.trans hssl) Bool.false_ne_true
  · rw [tls_connectCleanup]
    exact hadded
  · rw [tls_connectCleanup]
    exact hsent
  · exact hsent

theorem PlainInv.connect (h : PlainInv ws) {url : List UInt8} (hurl : ¬ascii "wss://" <+: url)
    (a : ConnectAnswers) : PlainInv (websocketConnect env ws url a).2 := by
  have htls : (websocketConnect env ws url a).2.tls = (false, none) := by
    have hparsed := parseUrl_plain hurl 256 1024 ⟨ws.host, ws.path, ws.port, ws.useSsl⟩
    obtain ⟨ret, parts, hparse⟩ : ∃ ret parts,
        parseUrl url 256 1024 ⟨ws.host, ws.path, ws.port, ws.useSsl⟩ = (ret, parts) := ⟨_, _, rfl⟩
    rw [hparse] at hparsed
    have hstart : (ws.setUrl parts).tls = (false, none) := Prod.ext hparsed h.sslCtx
    have hopened (ctx : IOContext) : connectSsl (ws.prepared parts ctx).openSocket a =
        (true, (ws.prepared parts ctx).openSocket) := by
      have huse : ¬(ws.prepared parts ctx).openSocket.useSsl = true := by
        change ¬parts.useSsl = true
        rw [hparsed]
        exact Bool.false_ne_true
      rw [connectSsl, if_neg huse]
    refine websocketConnect_cases (P := fun _ ws' => ws'.tls = (false, none)) env ws url a hparse
      ?_ ?_ ?_ ?_ ?_
    · exact fun _ => hstart
    · exact fun rx tx _ => (tls_connectCleanup _).trans hstart
    · exact fun ctx _ _ => (tls_connectCleanup _).trans hstart
    · intro ctx _ _ hfailed
      rw [hopened] at hfailed
      exact Bool.noConfusion hfailed
    · intro ctx _ _ _ _
      have hready : (ws.prepared parts ctx).openSocket.tls = (false, none) := hstart
      rw [hopened]
      exact tls_connectSocket env hready ctx a
  exact ⟨h.toTxInv.connect url a, congrArg Prod.fst htls, congrArg Prod.snd htls⟩

/-! ## Runs -/

theorem PlainInv.call (h : PlainInv ws) {call : PublicCall}
    (hplain : ∀ url answers, call = .connect url answers → ¬ascii "wss://" <+: url) :
    PlainInv (call.run env ws) := by
  by_cases hconnect : ∃ url answers, call = .connect url answers
  · obtain ⟨url, answers, rfl⟩ := hconnect
    exact h.connect (hplain url answers rfl) answers
  · have hmoves : Moves env ws (call.run env ws) :=
      call.moves env ws fun url answers heq => hconnect ⟨url, answers, heq⟩
    exact hmoves.invariant PlainInv.move h

/-- No URL of the calls asks for TLS. -/
def PlainCalls (calls : List PublicCall) : Prop :=
  ∀ url answers, PublicCall.connect url answers ∈ calls → ¬ascii "wss://" <+: url

theorem plainInv_runCalls (env : Env) (allocated : Bool) {calls : List PublicCall}
    (hplain : PlainCalls calls) : PlainInv (runCalls env allocated calls) := by
  have hcreate : PlainInv (websocketCreate allocated) :=
    ⟨txInv_runCalls env allocated [], rfl, rfl⟩
  refine foldl_invariant_of_mem (fun ws call hmem h => h.call ?_) hcreate
  rintro url answers rfl
  exact hplain url answers hmem

/-- Over every run without TLS, in which `writev` may take any part of what it is offered or
fail, and callbacks may send and close: as long as there is a transmit ring, what the socket
has accepted since the upgrade request and what is still queued are the request and the bytes
queued since. If every frame was begun without harm these are whole frames, each the last of
its message, and none of them is a CLOSE or a continuation. -/
theorem outgoing_stream_kept (env : Env) (allocated : Bool) (calls : List PublicCall)
    (hplain : PlainCalls calls) (hring : 0 < (runCalls env allocated calls).txRing.size) :
    let ws := runCalls env allocated calls
    let since := sinceRequest ws.trace
    sentOf since ++ ws.txRing.queue = lastRequest ws.trace ++ (queuedOf since).flatten ∧
      ((∀ e ∈ since, e.Harmless) → ∃ frames : List WireFrame,
        sentOf since ++ ws.txRing.queue = lastRequest ws.trace ++ encodeAll frames ∧
          ∀ f ∈ frames, f.FromClient) := by
  intro ws since
  have hinv := plainInv_runCalls env allocated hplain
  refine ⟨hinv.stream_eq hring, fun hharmless => ?_⟩
  obtain ⟨frames, hframes⟩ := hinv.framed.whole hharmless
  exact ⟨frames, by rw [← hframes.queued]; exact hinv.stream_eq hring, hframes.kinds⟩

/-- The greeting over a socket that takes at most fifty bytes at a time. -/
theorem outgoing_stream_kept_greeting :
    let ws := runCalls (fun _ => { writev := some 50 }) true greeting
    (sentOf (sinceRequest ws.trace)).length = 100 ∧ ws.txRing.queue.length = 20 ∧
      ∃ frames : List WireFrame, sentOf (sinceRequest ws.trace) ++ ws.txRing.queue =
        lastRequest ws.trace ++ encodeAll frames ∧ ∀ f ∈ frames, f.FromClient := by
  have hplain : PlainCalls greeting := by
    intro url answers hmem
    have hurl : url = ascii "ws://h/" := by simp_all [greeting]
    rw [hurl]
    decide
  have hharmless : ∀ e ∈ sinceRequest (runCalls (fun _ => { writev := some 50 }) true
      greeting).trace, e.Harmless := by
    decide +kernel
  exact ⟨by decide +kernel, by decide +kernel, (outgoing_stream_kept (fun _ => { writev := some 50 })
    true greeting hplain (by decide +kernel)).2 hharmless⟩

end WebSocketHft
