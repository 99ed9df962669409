import WebSocketHft.Shared.Base64
import WebSocketHft.Verification.Handshake.Response
import WebSocketHft.Verification.Transmit.Calls

/-! # The upgrade request

The key is generated in a buffer of 25 bytes and the request in one of 512. The
encoder's report of 25 bytes, newline included, never passes the guard of the
first, and long paths do not fit into the second. -/

namespace WebSocketHft

/-! ## The key -/

/-- What the documented encoder writes for a nonce of 16 bytes: the characters and a newline. -/
def encodedNonce (nonce : List UInt8) : List UInt8 := Base64.encode nonce ++ [10]

/-- The buffer holds the 24 characters from which the nonce can be read back. -/
structure KeyHolds (key nonce : List UInt8) : Prop where
  key_eq : key = Base64.encode nonce
  length_eq : key.length = 24
  decode_eq : Base64.decode key = some nonce

theorem keyHolds_iff {key nonce : List UInt8} (hnonce : nonce.length = 16) :
    KeyHolds key nonce ↔ key = Base64.encode nonce := by
  constructor
  · exact KeyHolds.key_eq
  · rintro rfl
    refine ⟨rfl, ?_, Base64.decode_encode nonce⟩
    rw [Base64.length_encode, hnonce]

theorem generateWebsocketKey_encodedNonce (key : List UInt8) {nonce : List UInt8}
    (hnonce : nonce.length = 16) :
    generateWebsocketKey key (some (encodedNonce nonce)) = key := by
  have hlen : (encodedNonce nonce).length = 25 := by
    rw [encodedNonce, List.length_append, Base64.length_encode, hnonce]
    rfl
  unfold generateWebsocketKey
  dsimp only
  -- the guard is `total_len < 25`, and the encoder counts its newline
  rw [hlen, if_neg (by decide)]

/-- For every nonce and whatever the buffer held: after `generate_websocket_key` it holds the
encoded nonce if and only if it did so before. -/
theorem key_holds_nonce_iff (key nonce : List UInt8) (hnonce : nonce.length = 16) :
    KeyHolds (generateWebsocketKey key (some (encodedNonce nonce))) nonce ↔
      key = Base64.encode nonce := by
  rw [generateWebsocketKey_encodedNonce key hnonce, keyHolds_iff hnonce]

theorem key_holds_nonce_kept :
    KeyHolds (generateWebsocketKey (Base64.encode (ascii "the sample nonce"))
      (some (encodedNonce (ascii "the sample nonce")))) (ascii "the sample nonce") :=
  (key_holds_nonce_iff (Base64.encode (ascii "the sample nonce")) (ascii "the sample nonce")
    (by decide)).mpr rfl

theorem key_stays_empty :
    encodedNonce (ascii "the sample nonce") = ascii "dGhlIHNhbXBsZSBub25jZQ==\n" ∧
      (websocketCreate true).secWebsocketKey = [] ∧
      generateWebsocketKey (websocketCreate true).secWebsocketKey
        (some (encodedNonce (ascii "the sample nonce"))) = [] ∧
      ¬KeyHolds (generateWebsocketKey (websocketCreate true).secWebsocketKey
        (some (encodedNonce (ascii "the sample nonce")))) (ascii "the sample nonce") := by
  have hempty : generateWebsocketKey (websocketCreate true).secWebsocketKey
      (some (encodedNonce (ascii "the sample nonce"))) = [] := by decide +kernel
  refine ⟨by decide +kernel, rfl, hempty, ?_⟩
  intro hholds
  have hlen := hholds.length_eq
  rw [hempty] at hlen
  exact absurd hlen (by decide)

/-! ## The request -/

/-- The bytes of an upgrade request. -/
def Event.requestBytes? : Event → Option (List UInt8)
  | .request bytes => some bytes
  | _ => none

/-- The requests written between the two states. -/
def requestsBetween (ws ws' : WebSocket) : List (List UInt8) :=
  (ws'.trace.drop ws.trace.length).filterMap Event.requestBytes?

theorem length_wsHttpUpgradeRequest (path host key : List UInt8) :
    (wsHttpUpgradeRequest path host key).length =
      114 + path.length + host.length + key.length := by
  have hparts : (ascii "GET ").length = 4 ∧ (ascii " HTTP/1.1\r\n").length = 11 ∧
      (ascii "Host: ").length = 6 ∧ (ascii "\r\n").length = 2 ∧
      (ascii "Upgrade: websocket\r\n").length = 20 ∧
      (ascii "Connection: Upgrade\r\n").length = 21 ∧
      (ascii "Sec-WebSocket-Key: ").length = 19 ∧
      (ascii "Sec-WebSocket-Version: 13\r\n").length = 27 := by decide
  simp only [wsHttpUpgradeRequest, List.length_append]
  omega

/-- What `send_handshake` writes into a fresh ring: as much of the request as the buffer
holds. -/
theorem sendHandshake_fresh (env : Env) (ws : WebSocket) (encoded : Option (List UInt8))
    (htx : ws.txRing = ringbufferInit) :
    ∃ ws₁ : WebSocket, sendHandshake env ws encoded = (0, ws₁.flush env) ∧
      ws₁.txRing.queue =
        (wsHttpUpgradeRequest ws.path ws.host
          (generateWebsocketKey ws.secWebsocketKey encoded)).take 511 ∧
      requestsBetween ws (sendHandshake env ws encoded).2 = [ws₁.txRing.queue] := by
  have hvalid : ringbufferInit.Valid := ⟨by decide, by decide⟩
  have hroom : 511 < ringbufferWriteable ringbufferInit := by decide
  generalize hrequest : (wsHttpUpgradeRequest ws.path ws.host
    (generateWebsocketKey ws.secWebsocketKey encoded)).take 511 = request
  have hlen : request.length ≤ ringbufferWriteable ringbufferInit := by
    rw [← hrequest, List.length_take]
    omega
  have hret : (ringbufferWrite ws.txRing (some request)).ret = request.length := by
    rw [htx, ringbufferWrite_ret, min_eq_left hlen]
  have hqueue : (ringbufferWrite ws.txRing (some request)).ring.queue = request := by
    rw [htx, ringbufferWrite_queue hvalid, queue_eq_nil_of_ptr_eq rfl, List.nil_append,
      List.take_of_length_le hlen]
  let written : WebSocket := { ws with
    secWebsocketKey := generateWebsocketKey ws.secWebsocketKey encoded
    txRing := (ringbufferWrite ws.txRing (some request)).ring }.record (.request request)
  have hsend : sendHandshake env ws encoded = (0, written.flush env) := by
    unfold sendHandshake
    dsimp only
    rw [show wsHttpUpgradeHeaderSize - 1 = 511 from rfl, hrequest, hret, if_neg (by simp),
      List.take_length]
  obtain ⟨sent, hflush⟩ := flush_trace env written
  refine ⟨written, hsend, hqueue, ?_⟩
  have htrace : (sendHandshake env ws encoded).2.trace =
      ws.trace ++ [.request request, .sent sent] := by
    rw [hsend, hflush]
    exact List.append_assoc ws.trace [.request request] [.sent sent]
  rw [requestsBetween, htrace, List.drop_left]
  exact congrArg (fun bytes => [bytes]) hqueue.symm

theorem parseUrl_lengths {url : List UInt8} {hostLen pathLen : ℕ} {out parts : UrlParts}
    (h : parseUrl url hostLen pathLen out = (0, parts)) :
    parts.host.length < hostLen ∧ parts.path.length < pathLen := by
  have hfail : ∀ {r : UrlParts}, ((-1 : ℤ), r) = (0, parts) → False := by
    intro r hr
    exact absurd (congrArg Prod.fst hr) (show ¬(-1 : ℤ) = 0 by decide)
  have hslashLen : (ascii "/").length = 1 := by decide
  unfold parseUrl at h
  cases hscheme : parseScheme url with
  | none =>
      rw [hscheme] at h
      exact (hfail h).elim
  | some scheme =>
      rw [hscheme] at h
      dsimp only at h
      split_ifs at h with hcolon hhost hstop hpath hslash <;>
        first
        | exact (hfail h).elim
        | (have hparts := congrArg Prod.snd h
           dsimp only at hparts
           subst hparts
           simp only [List.length_take, List.length_drop, hslashLen]
           omega)

/-- For every accepted URL and every key of 24 characters: before `send_handshake` makes its
transfer, a fresh ring holds the whole request if and only if path and host have at most 373
bytes together. The buffers for the two admit 1278. -/
theorem upgrade_request_whole_iff (env : Env) (ws : WebSocket) (url : List UInt8)
    (out parts : UrlParts) (encoded : Option (List UInt8))
    (hurl : parseUrl url 256 1024 out = (0, parts)) (htx : ws.txRing = ringbufferInit)
    (hkey : (generateWebsocketKey ws.secWebsocketKey encoded).length = 24) :
    (∃ ws₁ : WebSocket, sendHandshake env (ws.setUrl parts) encoded = (0, ws₁.flush env) ∧
      requestsBetween ws (sendHandshake env (ws.setUrl parts) encoded).2 = [ws₁.txRing.queue] ∧
      (ws₁.txRing.queue = wsHttpUpgradeRequest parts.path parts.host
          (generateWebsocketKey ws.secWebsocketKey encoded) ↔
        parts.path.length + parts.host.length ≤ 373)) ∧
    parts.path.length + parts.host.length ≤ 1278 := by
  obtain ⟨hhost, hpath⟩ := parseUrl_lengths hurl
  have hlen := length_wsHttpUpgradeRequest parts.path parts.host
    (generateWebsocketKey ws.secWebsocketKey encoded)
  obtain ⟨ws₁, hsend, hqueue, hwritten⟩ := sendHandshake_fresh env (ws.setUrl parts) encoded htx
  change _ = (wsHttpUpgradeRequest parts.path parts.host
    (generateWebsocketKey ws.secWebsocketKey encoded)).take 511 at hqueue
  refine ⟨⟨ws₁, hsend, hwritten, ?_⟩, by omega⟩
  rw [hqueue, List.take_eq_self_iff, hlen, hkey]
  omega

/-- A connection with a fresh ring and a key of 24 characters. -/
def keyedWebSocket : WebSocket :=
  { websocketCreate true with
    txRing := ringbufferInit
    secWebsocketKey := Base64.encode (ascii "the sample nonce") }

theorem short_url_whole :
    ∃ ws₁ : WebSocket, sendHandshake (fun _ => { })
        (keyedWebSocket.setUrl ⟨ascii "h", ascii "/p", 80, false⟩) none =
          (0, ws₁.flush fun _ => { }) ∧
      ws₁.txRing.queue = wsHttpUpgradeRequest (ascii "/p") (ascii "h")
        (generateWebsocketKey keyedWebSocket.secWebsocketKey none) := by
  obtain ⟨⟨ws₁, hsend, -, hwhole⟩, -⟩ := upgrade_request_whole_iff (fun _ => { }) keyedWebSocket
    (ascii "ws://h/p") ⟨[], [], 0, false⟩ ⟨ascii "h", ascii "/p", 80, false⟩ none
    (by decide +kernel) rfl (by decide +kernel)
  exact ⟨ws₁, hsend, hwhole.mpr (by decide +kernel)⟩

/-- The path of a URL with a long query. -/
def longPath : List UInt8 := ascii "/?q=" ++ List.replicate 400 97

/-- A URL with a query of 400 bytes is accepted; the request in the ring stops inside of it and
has no blank line. -/
theorem long_query_cut :
    parseUrl (ascii "ws://h" ++ longPath) 256 1024 ⟨[], [], 0, false⟩ =
        (0, ⟨ascii "h", longPath, 80, false⟩) ∧
      (generateWebsocketKey keyedWebSocket.secWebsocketKey none).length = 24 ∧
      keyedWebSocket.txRing = ringbufferInit ∧
      ∃ ws₁ : WebSocket, sendHandshake (fun _ => { })
          (keyedWebSocket.setUrl ⟨ascii "h", longPath, 80, false⟩) none =
            (0, ws₁.flush fun _ => { }) ∧
        ws₁.txRing.queue = (wsHttpUpgradeRequest longPath (ascii "h")
          (generateWebsocketKey keyedWebSocket.secWebsocketKey none)).take 511 ∧
        ¬ascii "\r\n\r\n" <:+ ws₁.txRing.queue := by
  obtain ⟨ws₁, hsend, hqueue, -⟩ := sendHandshake_fresh (fun _ => { })
    (keyedWebSocket.setUrl ⟨ascii "h", longPath, 80, false⟩) none rfl
  change _ = (wsHttpUpgradeRequest longPath (ascii "h")
    (generateWebsocketKey keyedWebSocket.secWebsocketKey none)).take 511 at hqueue
  refine ⟨by decide +kernel, by decide +kernel, rfl, ws₁, hsend, hqueue, ?_⟩
  rw [hqueue]
  decide +kernel

end WebSocketHft
