import WebSocketHft.Model.Ringbuffer

/-! # One producer and one consumer, step by step

`ringbuffer_write` and `ringbuffer_read` cut at every access to shared memory:
the load of the other side's pointer, the load of the own pointer, each copied
byte and the store that publishes the own pointer. The steps of the two sides
interleave freely. -/

namespace WebSocketHft.Spsc

open WebSocketHft

/-- Where a thread running `ringbuffer_write` stands. -/
inductive Producer where
  | idle
  | called (data : List UInt8)
  | loadedRead (data : List UInt8) (rp : ℕ)
  | copying (data : List UInt8) (wp toWrite copied : ℕ)
  | published (data : List UInt8) (toWrite : ℕ)

/-- Where a thread running `ringbuffer_read` stands. -/
inductive Consumer where
  | idle
  | called (len : ℕ)
  | loadedWrite (len wp : ℕ)
  | copying (rp toRead : ℕ) (out : List UInt8)
  | released (out : List UInt8)

/-- The shared ring and both threads. The histories are not part of the program:
bytes accepted by finished writes, published by a store to the write pointer,
copied out so far, released by a store to the read pointer, and returned by
finished reads. -/
structure State where
  ring : RingBuffer
  producer : Producer
  consumer : Consumer
  accepted : List UInt8
  published : List UInt8
  copied : List UInt8
  released : List UInt8
  returned : List UInt8

def State.initial (buf : ℕ → UInt8) (size : ℕ) : State where
  ring := ⟨buf, size, 0, 0⟩
  producer := .idle
  consumer := .idle
  accepted := []
  published := []
  copied := []
  released := []
  returned := []

/-- The cell of the `i`-th byte of a copy of `n` bytes that starts at `start`:
one linear piece, or two when the copy runs over the end. -/
def copyCell (size start n i : ℕ) : ℕ :=
  if start + n ≤ size then start + i
  else if i < size - start then start + i
  else i - (size - start)

/-- The cell the producer's next step stores into, if it is a store. -/
def Producer.nextStore (size : ℕ) : Producer → Option ℕ
  | .copying _ wp toWrite copied =>
    if copied < toWrite then some (copyCell size wp toWrite copied) else none
  | _ => none

inductive Step : State → State → Prop where
  | writeCall (s data) (h : s.producer = .idle) :
      Step s { s with producer := .called data }
  | writeNothing (s) (h : s.producer = .called []) :
      Step s { s with producer := .idle }
  | writeLoadRead (s data) (h : s.producer = .called data) (hlen : data.length ≠ 0) :
      Step s { s with producer := .loadedRead data s.ring.readPtr }
  | writeFull (s data rp) (h : s.producer = .loadedRead data rp)
      (hfull : spaceAvailable s.ring.size rp s.ring.writePtr = 0) :
      Step s { s with producer := .idle }
  | writeLoadWrite (s data rp) (h : s.producer = .loadedRead data rp)
      (hspace : spaceAvailable s.ring.size rp s.ring.writePtr ≠ 0) :
      Step s { s with
        producer := .copying data s.ring.writePtr
          (min data.length (spaceAvailable s.ring.size rp s.ring.writePtr)) 0 }
  | writeByte (s data wp n i b) (h : s.producer = .copying data wp n i) (hi : i < n)
      (hb : data[i]? = some b) :
      Step s { s with
        ring := { s.ring with buf := Function.update s.ring.buf (copyCell s.ring.size wp n i) b }
        producer := .copying data wp n (i + 1) }
  | writePublish (s data wp n) (h : s.producer = .copying data wp n n) :
      Step s { s with
        ring := { s.ring with writePtr := (wp + n) % s.ring.size }
        producer := .published data n
        published := s.published ++ data.take n }
  | writeReturn (s data n) (h : s.producer = .published data n) :
      Step s { s with producer := .idle, accepted := s.accepted ++ data.take n }
  | readCall (s len) (h : s.consumer = .idle) :
      Step s { s with consumer := .called len }
  | readNothing (s) (h : s.consumer = .called 0) :
      Step s { s with consumer := .idle }
  | readLoadWrite (s len) (h : s.consumer = .called len) (hlen : len ≠ 0) :
      Step s { s with consumer := .loadedWrite len s.ring.writePtr }
  | readEmpty (s len wp) (h : s.consumer = .loadedWrite len wp)
      (hempty : dataAvailable s.ring.size s.ring.readPtr wp = 0) :
      Step s { s with consumer := .idle }
  | readLoadRead (s len wp) (h : s.consumer = .loadedWrite len wp)
      (hdata : dataAvailable s.ring.size s.ring.readPtr wp ≠ 0) :
      Step s { s with
        consumer := .copying s.ring.readPtr
          (min len (dataAvailable s.ring.size s.ring.readPtr wp)) [] }
  | readByte (s rp n out) (h : s.consumer = .copying rp n out) (hout : out.length < n) :
      Step s { s with
        consumer := .copying rp n (out ++ [s.ring.buf (copyCell s.ring.size rp n out.length)])
        copied := s.copied ++ [s.ring.buf (copyCell s.ring.size rp n out.length)] }
  | readRelease (s rp n out) (h : s.consumer = .copying rp n out) (hout : out.length = n) :
      Step s { s with
        ring := { s.ring with readPtr := (rp + n) % s.ring.size }
        consumer := .released out
        released := s.released ++ out }
  | readReturn (s out) (h : s.consumer = .released out) :
      Step s { s with consumer := .idle, returned := s.returned ++ out }

end WebSocketHft.Spsc
