import WebSocketHft.Model.Frames
import WebSocketHft.Model.Url
import WebSocketHft.Shared.Substring

/-! # The opening handshake

The upgrade request that goes out and the search through the response that
comes back. -/

namespace WebSocketHft

open WebSocketHft.Memory WebSocketHft.Substring

/-! ## The request -/

/-- `generate_websocket_key`: the new contents of the key buffer. `encoded` is everything
the Base64 encoder has written, `none` when it could not be created. -/
def generateWebsocketKey (key : List UInt8) (encoded : Option (List UInt8)) : List UInt8 :=
  match encoded with
  | none => key
  | some encoded =>
    if 0 < encoded.length ∧ encoded.length < 25 then
      if encoded.getLast? = some 10 then encoded.dropLast else encoded
    else key

/-- `ws_http_upgrade_template` with its three arguments filled in. -/
def wsHttpUpgradeRequest (path host key : List UInt8) : List UInt8 :=
  ascii "GET " ++ path ++ ascii " HTTP/1.1\r\n" ++
  ascii "Host: " ++ host ++ ascii "\r\n" ++
  ascii "Upgrade: websocket\r\n" ++
  ascii "Connection: Upgrade\r\n" ++
  ascii "Sec-WebSocket-Key: " ++ key ++ ascii "\r\n" ++
  ascii "Sec-WebSocket-Version: 13\r\n" ++
  ascii "\r\n"

/-- `WS_HTTP_UPGRADE_HEADER_SIZE`. -/
def wsHttpUpgradeHeaderSize : ℕ := 512

/-- `send_handshake`; `snprintf` keeps what fits before the terminator. -/
def sendHandshake (env : Env) (ws : WebSocket) (encoded : Option (List UInt8)) : ℤ × WebSocket :=
  let ws := { ws with secWebsocketKey := generateWebsocketKey ws.secWebsocketKey encoded }
  let handshake :=
    (wsHttpUpgradeRequest ws.path ws.host ws.secWebsocketKey).take (wsHttpUpgradeHeaderSize - 1)
  let r := ringbufferWrite ws.txRing (some handshake)
  let ws := { ws with txRing := r.ring }.record (.request (handshake.take r.ret))
  if r.ret ≠ handshake.length then (-1, ws) else (0, ws.flush env)

/-! ## The response -/

/-- `WS_MAX_HEADER_SIZE`. -/
def wsMaxHeaderSize : ℕ := 4096

/-- `tolower` in the C locale. -/
def toLower (c : UInt8) : UInt8 := if 65 ≤ c ∧ c ≤ 90 then c + 32 else c

/-- The C string in the ring's memory at address `a`. The allocation ends
`RINGBUFFER_ALIGNMENT` bytes behind the buffer. -/
def cStringAt (rb : RingBuffer) (a : ℕ) : List UInt8 :=
  stringAt rb.buf 0 a (rb.size + ringbufferAlignment - a)

/-- `strstr(s, pat) != NULL` for the C string that starts with the bytes `s`. -/
def containsText (s : List UInt8) (pat : String) : Bool :=
  (findInfix (ascii pat) (s.takeWhile (· ≠ 0))).isSome

/-- Does an HTTP response start at position `i`? -/
def httpStartsAt (response : List UInt8) (i : ℕ) : Bool :=
  12 ≤ response.length - i ∧
    (ascii "HTTP/1.1" <+: response.drop i ∨ ascii "HTTP/1.0" <+: response.drop i)

/-- The start of the response, looked for in the first hundred bytes. -/
def findHttpStart (response : List UInt8) : Option ℕ :=
  (List.range (min response.length 100)).find? (httpStartsAt response)

/-- The null-terminated copy that is searched for headers. -/
def responseCopy (response : List UInt8) (httpOffset : ℕ) : List UInt8 :=
  (response.drop httpOffset).take (wsMaxHeaderSize - 1)

/-- `http_valid`. -/
def httpValid (copy : List UInt8) : Bool :=
  12 ≤ copy.length ∧ (ascii "HTTP/1.1 101" <+: copy ∨ ascii "HTTP/1.0 101" <+: copy)

/-- `upgrade_valid && connection_valid`, on the lower-case copy. -/
def headersValid (copy : List UInt8) : Bool :=
  let lower := copy.map toLower
  (containsText lower "upgrade: websocket" || containsText lower "upgrade:websocket") &&
    (containsText lower "connection: upgrade" || containsText lower "connection:upgrade")

/-- The end of the header block, searched for in the ring's memory itself. -/
def headerEnd (rb : RingBuffer) (httpStart : ℕ) : Option ℕ :=
  findInfix (ascii "\r\n\r\n") (cStringAt rb httpStart)

/-- Taking an accepted response out of the ring. Skipping the bytes before it is a read
without a destination. -/
def consumeResponse (rb : RingBuffer) (httpOffset : ℕ) : RingBuffer :=
  match headerEnd rb (rb.readPtr + httpOffset) with
  | none => rb
  | some endPos =>
    let headerLen := endPos + 4
    let skipped := ringbufferRead rb false httpOffset
    if skipped.ret = httpOffset then
      (ringbufferRead skipped.ring true (if headerLen < 4096 then headerLen else 4096)).ring
    else skipped.ring

/-- `parse_handshake_response`; `allocated` is the outcome of its `malloc`. -/
def parseHandshakeResponse (rb : RingBuffer) (allocated : Bool) : ℤ × RingBuffer :=
  let view := ringbufferReadInline rb
  let response := load rb.buf view.data view.len
  if view.len = 0 then (1, rb)
  else if view.len < 12 then (1, rb)
  else
    match findHttpStart response with
    | none => if 200 < view.len then (-1, rb) else (1, rb)
    | some httpOffset =>
      let copy := responseCopy response httpOffset
      if httpValid copy = false then (-1, rb)
      else if allocated = false then (-1, rb)
      else if headersValid copy then (0, consumeResponse rb httpOffset)
      else (1, rb)

end WebSocketHft
