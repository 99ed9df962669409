import WebSocketHft.Shared.BigEndian
import WebSocketHft.Shared.Memory

/-! # The frame parser of `parser_neon.c`

A frame is parsed from a pointer and a length. The pointer is the memory seen
from it, so that reading past the length is expressible. -/

namespace WebSocketHft

open WebSocketHft.Memory WebSocketHft.BigEndian

/-- The four bytes behind a `uint32_t` key, in memory order. -/
@[ext]
structure MaskingKey where
  b0 : UInt8
  b1 : UInt8
  b2 : UInt8
  b3 : UInt8
  deriving DecidableEq, Repr

/-- `((uint8_t*)&key)[i % 4]`. -/
def MaskingKey.get (key : MaskingKey) (i : ℕ) : UInt8 :=
  match i % 4 with
  | 0 => key.b0
  | 1 => key.b1
  | 2 => key.b2
  | _ => key.b3

def MaskingKey.bytes (key : MaskingKey) : List UInt8 :=
  [key.b0, key.b1, key.b2, key.b3]

@[ext]
structure WSFrame where
  fin : UInt8
  opcode : UInt8
  mask : UInt8
  payloadLenType : ℕ
  payloadLen : ℕ
  maskingKey : MaskingKey
  payload : ℕ
  headerSize : ℕ
  deriving DecidableEq, Repr

/-- The return codes `-1`, `1` and `0`. -/
inductive ParseResult where
  | error
  | needMore
  | ok (frame : WSFrame)
  deriving DecidableEq, Repr

/-- Sizes are `size_t`. -/
def sizeMax : ℕ := 2 ^ 64

/-- `header_bytes + frame->payload_len`, in `size_t` arithmetic. -/
def WSFrame.frameSize (frame : WSFrame) : ℕ :=
  (frame.headerSize + frame.payloadLen) % sizeMax

/-- The last check of the parser: is the whole frame there? -/
def completeFrame (len : ℕ) (frame : WSFrame) : ParseResult :=
  if len < frame.frameSize then .needMore else .ok frame

/-- The masking key, if there is one, follows the length. -/
def maskedFrame (data : ℕ → UInt8) (len : ℕ) (frame : WSFrame) (headerBytes : ℕ) : ParseResult :=
  if frame.mask ≠ 0 then
    if len < headerBytes + 4 then .needMore
    else
      completeFrame len { frame with
        maskingKey := ⟨data headerBytes, data (headerBytes + 1), data (headerBytes + 2),
          data (headerBytes + 3)⟩
        payload := headerBytes + 4
        headerSize := headerBytes + 4 }
  else completeFrame len { frame with payload := headerBytes, headerSize := headerBytes }

def neonParseWsFrame (data : ℕ → UInt8) (len : ℕ) : ParseResult :=
  if len < 2 then .error
  else
    let byte0 := data 0
    let byte1 := data 1
    let frame : WSFrame :=
      { fin := (byte0 >>> 7) &&& 1
        opcode := byte0 &&& 0x0F
        mask := (byte1 >>> 7) &&& 1
        payloadLenType := 7
        payloadLen := (byte1 &&& 0x7F).toNat
        maskingKey := ⟨0, 0, 0, 0⟩
        payload := 0
        headerSize := 0 }
    if frame.payloadLen = 126 then
      if len < 4 then .needMore
      else
        maskedFrame data len
          { frame with payloadLen := ofBytes (load data 2 2), payloadLenType := 16 } 4
    else if frame.payloadLen = 127 then
      if len < 10 then .needMore
      else
        maskedFrame data len
          { frame with payloadLen := ofBytes (load data 2 8), payloadLenType := 64 } 10
    else maskedFrame data len frame 2

/-- XOR of a byte string with a rotating key. -/
def xorKey (key : MaskingKey) (bs : List UInt8) : List UInt8 :=
  bs.mapIdx fun i b => b ^^^ key.get i

/-- The unmasking loop: `payload[i] ^= key[i % 4]` for each `i` below `n`, in place. -/
def unmask (m : ℕ → UInt8) (a n : ℕ) (key : MaskingKey) : ℕ → UInt8 :=
  fun j => if a ≤ j ∧ j < a + n then m j ^^^ key.get (j - a) else m j

end WebSocketHft
