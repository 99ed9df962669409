import WebSocketHft.Model.IoKqueue
import WebSocketHft.Model.Ssl

/-! # Timestamps of received packets

`io_read` and `ssl_read_func` look for the time of a packet in the control messages
of `recvmsg` and convert it into ticks of `mach_absolute_time`. Everything is
`uint64_t` arithmetic; the parts of the timebase are `uint32_t`. -/

namespace WebSocketHft

/-- `mach_timebase_info_data_t`: so many nanoseconds are so many ticks. -/
structure Timebase where
  numer : UInt32
  denom : UInt32
  deriving DecidableEq, Repr

/-- `(ticks * numer) / denom`. -/
def Timebase.toNs (tb : Timebase) (ticks : UInt64) : UInt64 :=
  ticks * tb.numer.toUInt64 / tb.denom.toUInt64

/-- `(ns * denom) / numer`. -/
def Timebase.toTicks (tb : Timebase) (ns : UInt64) : UInt64 :=
  ns * tb.denom.toUInt64 / tb.numer.toUInt64

/-- The conversion of `nic_ns` in `io_read`. -/
def ioNicTicks (tb : Timebase) (nowTicks nicNs : UInt64) : UInt64 :=
  let nowNs := tb.toNs nowTicks
  if nicNs ≤ nowNs ∧ 0 < nowNs then
    let diffNs := nowNs - nicNs
    let diffTicks := tb.toTicks diffNs
    if diffTicks < nowTicks then nowTicks - diffTicks else 0
  else nowTicks

/-- The conversion of `nic_ns` in `ssl_read_func`, which tests the denominator as well. -/
def sslNicTicks (tb : Timebase) (nowTicks nicNs : UInt64) : UInt64 :=
  let nowNs := tb.toNs nowTicks
  if nicNs ≤ nowNs ∧ 0 < nowNs ∧ 0 < tb.denom then
    let diffNs := nowNs - nicNs
    let diffTicks := tb.toTicks diffNs
    if diffTicks < nowTicks then nowTicks - diffTicks else 0
  else nowTicks

/-! ## Control messages -/

/-- A control message of level `SOL_SOCKET` with a `timespec` or a `timeval`, or another one. -/
inductive ControlMessage where
  | timestampns (sec nsec : UInt64)
  | timestamp (sec usec : UInt64)
  | other
  deriving DecidableEq, Repr

/-- `nic_ns`. -/
def ControlMessage.nicNs? : ControlMessage → Option UInt64
  | .timestampns sec nsec => some (sec * 1000000000 + nsec)
  | .timestamp sec usec => some (sec * 1000000000 + usec * 1000)
  | .other => none

/-- `last_nic_timestamp_ns` and `last_nic_timestamp_ticks`. -/
structure NicTimestamp where
  ns : UInt64
  ticks : UInt64
  deriving DecidableEq, Repr

/-- The loop over the control messages: the first timestamp is stored, with the ticks it is
converted to. -/
def readTimestamp (toTicks : UInt64 → UInt64) (last : NicTimestamp) :
    List ControlMessage → NicTimestamp
  | [] => last
  | msg :: msgs =>
    match msg.nicNs? with
    | some nicNs => ⟨nicNs, toTicks nicNs⟩
    | none => readTimestamp toTicks last msgs

/-- The loop of `io_read`, at the time `nowTicks`; without a timestamp the last one stays. -/
def ioReadTimestamp (tb : Timebase) (nowTicks : UInt64) (last : NicTimestamp)
    (msgs : List ControlMessage) : NicTimestamp :=
  readTimestamp (ioNicTicks tb nowTicks) last msgs

/-- The loop of `ssl_read_func`; without a timestamp the time before `recvmsg` is stored. -/
def sslReadTimestamp (tb : Timebase) (packetArrivalTicks nowTicks : UInt64)
    (msgs : List ControlMessage) : NicTimestamp :=
  readTimestamp (sslNicTicks tb nowTicks) ⟨tb.toNs packetArrivalTicks, packetArrivalTicks⟩ msgs

end WebSocketHft
