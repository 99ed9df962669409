import WebSocketHft.Model.Spsc

/-! # Batches beside single calls, step by step

`ringbuffer_batch_write` and `ringbuffer_batch_read` cut at every access to shared
memory. A batch loads the other side's pointer once, moves a private copy of its own
pointer from chunk to chunk, and publishes it once at the end if it has moved any byte.
Either thread may make single calls between its batches. -/

namespace WebSocketHft.SpscBatch

open WebSocketHft

/-- Where a thread running `ringbuffer_batch_write` stands: at the head of the loop, or
`copied` bytes into the copy of `toWrite` bytes of the chunk `data`. The code has only the
number of the bytes `written`. -/
inductive Writer where
  | idle
  | called (chunks : List (Option (List UInt8)))
  | loadedRead (chunks : List (Option (List UInt8))) (rp : ℕ)
  | looping (chunks : List (Option (List UInt8))) (rp wp : ℕ) (written : List UInt8)
  | copying (data : List UInt8) (toWrite copied : ℕ) (chunks : List (Option (List UInt8)))
      (rp wp : ℕ) (written : List UInt8)
  | published (written : List UInt8)

/-- Where a thread running `ringbuffer_batch_read` stands. `out` is what the destinations
have received, one after the other, and `piece` what the present one has. -/
inductive Reader where
  | idle
  | called (dests : List Destination)
  | loadedWrite (dests : List Destination) (wp : ℕ)
  | looping (dests : List Destination) (wp rp : ℕ) (out : List UInt8)
  | copying (toRead : ℕ) (piece : List UInt8) (dests : List Destination) (wp rp : ℕ)
      (out : List UInt8)
  | released (out : List UInt8)

/-- The shared ring, the histories and the single calls are in `base`. A thread in a batch is
idle there. -/
structure State where
  base : Spsc.State
  writer : Writer
  reader : Reader

def State.initial (buf : ℕ → UInt8) (size : ℕ) : State where
  base := .initial buf size
  writer := .idle
  reader := .idle

/-- The cell the batch's next step stores into, if it is a store. -/
def Writer.nextStore (size : ℕ) : Writer → Option ℕ
  | .copying _ toWrite copied _ _ wp _ =>
    if copied < toWrite then some (Spsc.copyCell size wp toWrite copied) else none
  | _ => none

/-- The cell the producer's next step stores into, in a single call or in a batch. -/
def State.nextStore (s : State) : Option ℕ :=
  match s.writer with
  | .idle => s.base.producer.nextStore s.base.ring.size
  | w => w.nextStore s.base.ring.size

/-- Is the chunk skipped: a `NULL` pointer, or no bytes? -/
def skipsChunk : Option (List UInt8) → Bool
  | none => true
  | some data => data.length = 0

def skipsDestination (d : Destination) : Bool :=
  d.dest = false ∨ d.len = 0

/-- The steps of a thread in `ringbuffer_batch_write`. -/
inductive WriteStep : State → State → Prop where
  | call (s chunks) (h : s.writer = .idle) (hp : s.base.producer = .idle) :
      WriteStep s { s with writer := .called chunks }
  | nothing (s) (h : s.writer = .called []) :
      WriteStep s { s with writer := .idle }
  | loadRead (s chunks) (h : s.writer = .called chunks) (hcount : chunks.length ≠ 0) :
      WriteStep s { s with writer := .loadedRead chunks s.base.ring.readPtr }
  | loadWrite (s chunks rp) (h : s.writer = .loadedRead chunks rp) :
      WriteStep s { s with writer := .looping chunks rp s.base.ring.writePtr [] }
  | skip (s chunk chunks rp wp written)
      (h : s.writer = .looping (chunk :: chunks) rp wp written) (hskip : skipsChunk chunk) :
      WriteStep s { s with writer := .looping chunks rp wp written }
  | chunk (s data chunks rp wp written)
      (h : s.writer = .looping (some data :: chunks) rp wp written) (hlen : data.length ≠ 0)
      (hspace : spaceAvailable s.base.ring.size rp wp ≠ 0) :
      WriteStep s { s with
        writer := .copying data (min data.length (spaceAvailable s.base.ring.size rp wp)) 0
          chunks rp wp written }
  | byte (s data n i b chunks rp wp written)
      (h : s.writer = .copying data n i chunks rp wp written) (hi : i < n)
      (hb : data[i]? = some b) :
      WriteStep s { s with
        base := { s.base with ring := { s.base.ring with
          buf := Function.update s.base.ring.buf (Spsc.copyCell s.base.ring.size wp n i) b } }
        writer := .copying data n (i + 1) chunks rp wp written }
  | next (s data n chunks rp wp written)
      (h : s.writer = .copying data n n chunks rp wp written) :
      WriteStep s { s with
        writer := .looping chunks rp ((wp + n) % s.base.ring.size) (written ++ data.take n) }
  | full (s data chunks rp wp written)
      (h : s.writer = .looping (some data :: chunks) rp wp written) (hlen : data.length ≠ 0)
      (hfull : spaceAvailable s.base.ring.size rp wp = 0) :
      WriteStep s { s with writer := .looping [] rp wp written }
  | publish (s rp wp written) (h : s.writer = .looping [] rp wp written)
      (htotal : 0 < written.length) :
      WriteStep s { s with
        base := { s.base with
          ring := { s.base.ring with writePtr := wp }
          published := s.base.published ++ written }
        writer := .published written }
  | finishNothing (s rp wp) (h : s.writer = .looping [] rp wp []) :
      WriteStep s { s with writer := .idle }
  | finish (s written) (h : s.writer = .published written) :
      WriteStep s { s with
        base := { s.base with accepted := s.base.accepted ++ written }
        writer := .idle }

/-- The steps of a thread in `ringbuffer_batch_read`. -/
inductive ReadStep : State → State → Prop where
  | call (s dests) (h : s.reader = .idle) (hc : s.base.consumer = .idle) :
      ReadStep s { s with reader := .called dests }
  | nothing (s) (h : s.reader = .called []) :
      ReadStep s { s with reader := .idle }
  | loadWrite (s dests) (h : s.reader = .called dests) (hcount : dests.length ≠ 0) :
      ReadStep s { s with reader := .loadedWrite dests s.base.ring.writePtr }
  | loadRead (s dests wp) (h : s.reader = .loadedWrite dests wp) :
      ReadStep s { s with reader := .looping dests wp s.base.ring.readPtr [] }
  | skip (s d dests wp rp out) (h : s.reader = .looping (d :: dests) wp rp out)
      (hskip : skipsDestination d) :
      ReadStep s { s with reader := .looping dests wp rp out }
  | chunk (s d dests wp rp out) (h : s.reader = .looping (d :: dests) wp rp out)
      (hdest : skipsDestination d = false)
      (hdata : dataAvailable s.base.ring.size rp wp ≠ 0) :
      ReadStep s { s with
        reader := .copying (min d.len (dataAvailable s.base.ring.size rp wp)) [] dests wp rp out }
  | byte (s n piece dests wp rp out) (h : s.reader = .copying n piece dests wp rp out)
      (hpiece : piece.length < n) :
      ReadStep s { s with
        base := { s.base with
          copied := s.base.copied ++
            [s.base.ring.buf (Spsc.copyCell s.base.ring.size rp n piece.length)] }
        reader := .copying n
          (piece ++ [s.base.ring.buf (Spsc.copyCell s.base.ring.size rp n piece.length)])
          dests wp rp out }
  | next (s n piece dests wp rp out) (h : s.reader = .copying n piece dests wp rp out)
      (hpiece : piece.length = n) :
      ReadStep s { s with
        reader := .looping dests wp ((rp + n) % s.base.ring.size) (out ++ piece) }
  | empty (s d dests wp rp out) (h : s.reader = .looping (d :: dests) wp rp out)
      (hdest : skipsDestination d = false)
      (hempty : dataAvailable s.base.ring.size rp wp = 0) :
      ReadStep s { s with reader := .looping [] wp rp out }
  | release (s wp rp out) (h : s.reader = .looping [] wp rp out) (htotal : 0 < out.length) :
      ReadStep s { s with
        base := { s.base with
          ring := { s.base.ring with readPtr := rp }
          released := s.base.released ++ out }
        reader := .released out }
  | finishNothing (s wp rp) (h : s.reader = .looping [] wp rp []) :
      ReadStep s { s with reader := .idle }
  | finish (s out) (h : s.reader = .released out) :
      ReadStep s { s with
        base := { s.base with returned := s.base.returned ++ out }
        reader := .idle }

/-- A step of a single call leaves the other thread where it is, and is made by a thread that
is in no batch. -/
inductive Step : State → State → Prop where
  | write (s t) (h : Spsc.Step s.base t) (hother : t.consumer = s.base.consumer)
      (hw : s.writer = .idle) : Step s { s with base := t }
  | read (s t) (h : Spsc.Step s.base t) (hother : t.producer = s.base.producer)
      (hr : s.reader = .idle) : Step s { s with base := t }
  | batchWrite {s t} (h : WriteStep s t) : Step s t
  | batchRead {s t} (h : ReadStep s t) : Step s t

end WebSocketHft.SpscBatch
