import WebSocketHft.Verification.Frames.Delivery

/-! # Skipped bytes and the frames behind them

The loop of `process_frames` skips a byte where it finds no frame, and advances
its offset without counting the byte as consumed. No frame is acted on after
that: the bytes behind a skipped one are never accepted. -/

namespace WebSocketHft

open WebSocketHft.Memory

/-! ## The frames a pass acts on -/

/-- A frame that is acted on: the connection at that moment and the cell where the frame
starts. -/
structure Acting where
  ws : WebSocket
  start : ℕ
  frame : WSFrame

/-- The connection afterwards. -/
def Acting.after (env : Env) (a : Acting) : WebSocket := handleFrame env a.ws a.frame a.start

/-- The frames on which the loop of `process_frames` acts. The recursion is that of the loop,
with an entry wherever the loop comes to `handleFrame`. -/
def actedLoop (env : Env) (data len : ℕ) : ℕ → ℕ → WebSocket → List Acting
  | 0, _, _ => []
  | attempts + 1, offset, ws =>
    if offset < len then
      match neonParseWsFrame (fun i => ws.rxRing.buf (data + offset + i)) (len - offset) with
      | .needMore => []
      | .error => actedLoop env data len attempts (offset + 1) (parseError env ws offset)
      | .ok frame =>
        if frame.frameSize = 0 ∨ len - offset < frame.frameSize then
          actedLoop env data len attempts (offset + 1) ws.countFrameError
        else
          ⟨ws, data + offset, frame⟩ ::
            actedLoop env data len attempts (offset + frame.frameSize)
              (handleFrame env ws frame (data + offset))
    else []

/-- The connection when the loop starts. -/
def passStart (ws : WebSocket) : WebSocket :=
  if ringbufferReadable ws.rxRing = 0 then ws else ws.record (.frames ws.rxRing.linear)

/-- The frames on which one call of `process_frames` acts. -/
def actedFrames (env : Env) (ws : WebSocket) : List Acting :=
  actedLoop env ws.rxRing.readPtr (ringbufferReadable ws.rxRing) maxParseAttempts 0 (passStart ws)

/-- The frames lie back to back from the cell `start` on, and each is acted on in the state the
one before it has left behind. -/
def BackToBack (env : Env) : WebSocket → ℕ → List Acting → Prop
  | _, _, [] => True
  | ws, start, a :: rest =>
    a.ws = ws ∧ a.start = start ∧ BackToBack env (a.after env) (start + a.frame.frameSize) rest

/-- What the frames take up together. -/
def totalSize : List Acting → ℕ
  | [] => 0
  | a :: acted => a.frame.frameSize + totalSize acted

theorem totalSize_cons (a : Acting) (acted : List Acting) :
    totalSize (a :: acted) = a.frame.frameSize + totalSize acted := rfl

/-- The connection after the last of the frames. -/
def afterAll (env : Env) (ws : WebSocket) (acted : List Acting) : WebSocket :=
  acted.foldl (fun _ a => a.after env) ws

/-- After the frames, at most one byte is skipped and counted. -/
inductive Skips (env : Env) (ws : WebSocket) : WebSocket → Prop where
  | nothing : Skips env ws ws
  | error (offset : ℕ) : Skips env ws (parseError env ws offset)
  | empty : Skips env ws ws.countFrameError

/-- One pass of the loop. -/
structure Aligned (env : Env) (ws : WebSocket) (start room : ℕ) (acted : List Acting)
    (ws' : WebSocket) : Prop where
  backToBack : BackToBack env ws start acted
  size_le : totalSize acted ≤ room
  skips : Skips env (afterAll env ws acted) ws'

theorem actedLoop_end (env : Env) (data : ℕ) {len offset : ℕ} (h : len ≤ offset) (attempts : ℕ)
    (ws : WebSocket) : actedLoop env data len attempts offset ws = [] := by
  cases attempts with
  | zero => rfl
  | succ attempts => rw [actedLoop, if_neg (not_lt.mpr h)]

/-- Where the parser waits, the loop ends and nothing is acted on. -/
theorem loop_of_needMore (env : Env) (data len attempts offset total : ℕ) (ws : WebSocket)
    (h : neonParseWsFrame (fun i => ws.rxRing.buf (data + offset + i)) (len - offset) =
      .needMore) :
    actedLoop env data len attempts offset ws = [] ∧
      processFramesLoop env data len attempts offset total ws = (total, ws) := by
  cases attempts with
  | zero => exact ⟨rfl, rfl⟩
  | succ attempts =>
      unfold actedLoop processFramesLoop
      rw [h]
      split_ifs <;> exact ⟨rfl, rfl⟩

theorem loop_of_error (env : Env) (data len attempts offset total : ℕ) (ws : WebSocket)
    (hlt : offset < len)
    (h : neonParseWsFrame (fun i => ws.rxRing.buf (data + offset + i)) (len - offset) = .error) :
    actedLoop env data len (attempts + 1) offset ws = [] ∧
      processFramesLoop env data len (attempts + 1) offset total ws =
        (total, parseError env ws offset) := by
  have hend : len ≤ offset + 1 := by
    rw [neonParseWsFrame_eq_parseBytes] at h
    exact le_of_parse_error h
  rw [actedLoop, processFramesLoop, if_pos hlt, if_pos hlt, h]
  exact ⟨actedLoop_end env data hend _ _, processFramesLoop_end env data hend _ _ _⟩

/-- A frame whose size wraps to zero is skipped, and what follows is not accepted. -/
theorem loop_of_zero_size (env : Env) (data len attempts offset total : ℕ) (ws : WebSocket)
    (hlen : len < 2 ^ 63) (hlt : offset < len) {frame : WSFrame}
    (h : neonParseWsFrame (fun i => ws.rxRing.buf (data + offset + i)) (len - offset) = .ok frame)
    (hzero : frame.frameSize = 0) :
    actedLoop env data len (attempts + 1) offset ws = [] ∧
      processFramesLoop env data len (attempts + 1) offset total ws =
        (total, ws.countFrameError) := by
  have hwait : neonParseWsFrame (fun i => ws.countFrameError.rxRing.buf (data + (offset + 1) + i))
      (len - (offset + 1)) = .needMore := by
    have hshift := needMore_behind_zero_size h hzero (by omega)
    rw [Nat.sub_sub] at hshift
    rw [← hshift]
    refine congrArg (neonParseWsFrame · _) (funext fun i => ?_)
    exact congrArg ws.rxRing.buf (by omega)
  have hskip : frame.frameSize = 0 ∨ len - offset < frame.frameSize := Or.inl hzero
  rw [actedLoop, processFramesLoop, if_pos hlt, if_pos hlt, h]
  dsimp only
  rw [if_pos hskip, if_pos hskip]
  exact loop_of_needMore env data len attempts (offset + 1) total ws.countFrameError hwait

/-- A frame that fits is acted on, and the loop goes on behind it. -/
theorem loop_of_frame (env : Env) (data len attempts offset total : ℕ) (ws : WebSocket)
    (hlt : offset < len) {frame : WSFrame}
    (h : neonParseWsFrame (fun i => ws.rxRing.buf (data + offset + i)) (len - offset) = .ok frame)
    (hkeep : ¬(frame.frameSize = 0 ∨ len - offset < frame.frameSize)) :
    actedLoop env data len (attempts + 1) offset ws =
        ⟨ws, data + offset, frame⟩ :: actedLoop env data len attempts (offset + frame.frameSize)
          (handleFrame env ws frame (data + offset)) ∧
      processFramesLoop env data len (attempts + 1) offset total ws =
        processFramesLoop env data len attempts (offset + frame.frameSize)
          (total + frame.frameSize) (handleFrame env ws frame (data + offset)) := by
  refine ⟨?_, processFramesLoop_frame env data len attempts offset total ws hlt h hkeep⟩
  rw [actedLoop, if_pos hlt, h]
  exact if_neg hkeep

/-- Every case but a frame that fits ends the loop. -/
theorem aligned_of_end {env : Env} {data len attempts offset total : ℕ} {ws ws' : WebSocket}
    (hskips : Skips env ws ws')
    (hend : actedLoop env data len attempts offset ws = [] ∧
      processFramesLoop env data len attempts offset total ws = (total, ws')) :
    Aligned env ws (data + offset) (len - offset) (actedLoop env data len attempts offset ws)
        (processFramesLoop env data len attempts offset total ws).2 ∧
      (processFramesLoop env data len attempts offset total ws).1 =
        total + totalSize (actedLoop env data len attempts offset ws) := by
  rw [hend.1, hend.2]
  exact ⟨⟨trivial, Nat.zero_le _, hskips⟩, rfl⟩

/-- The loop acts on frames that lie back to back, counts what they take up, and skips at most
one byte after them. -/
theorem actedLoop_aligned (env : Env) (data len attempts offset total : ℕ) (ws : WebSocket)
    (hlen : len < 2 ^ 63) :
    Aligned env ws (data + offset) (len - offset) (actedLoop env data len attempts offset ws)
        (processFramesLoop env data len attempts offset total ws).2 ∧
      (processFramesLoop env data len attempts offset total ws).1 =
        total + totalSize (actedLoop env data len attempts offset ws) := by
  induction attempts generalizing offset total ws with
  | zero => exact aligned_of_end .nothing ⟨rfl, rfl⟩
  | succ attempts ih =>
      by_cases hlt : offset < len
      · cases hparse : neonParseWsFrame (fun i => ws.rxRing.buf (data + offset + i))
            (len - offset) with
        | needMore =>
            exact aligned_of_end .nothing (loop_of_needMore env data len _ offset total ws hparse)
        | error =>
            exact aligned_of_end (.error offset)
              (loop_of_error env data len attempts offset total ws hlt hparse)
        | ok frame =>
            by_cases hzero : frame.frameSize = 0
            · exact aligned_of_end .empty
                (loop_of_zero_size env data len attempts offset total ws hlen hlt hparse hzero)
            · obtain ⟨-, -, hfit, hframe⟩ := neonParseWsFrame_ok hparse
              have hle : frame.frameSize ≤ len - offset := by rwa [hframe]
              obtain ⟨hacted, hloop⟩ := loop_of_frame env data len attempts offset total ws hlt
                hparse (by omega)
              obtain ⟨haligned, hcount⟩ := ih (offset + frame.frameSize)
                (total + frame.frameSize) (handleFrame env ws frame (data + offset))
              have hroom := haligned.size_le
              rw [hacted, hloop]
              refine ⟨⟨⟨rfl, rfl, ?_⟩, ?_, haligned.skips⟩, ?_⟩
              · rw [Nat.add_assoc]
                exact haligned.backToBack
              · rw [totalSize_cons]
                dsimp only
                omega
              · rw [hcount, totalSize_cons, Nat.add_assoc]
      · exact aligned_of_end .nothing ⟨actedLoop_end env data (not_lt.mp hlt) _ _,
          processFramesLoop_end env data (not_lt.mp hlt) _ _ _⟩

/-- Every entry is a frame that the parser has accepted where it starts, whole and not empty. -/
theorem parse_of_mem_actedLoop {env : Env} {data len attempts offset : ℕ} {ws : WebSocket}
    {a : Acting} (h : a ∈ actedLoop env data len attempts offset ws) :
    ∃ n, neonParseWsFrame (fun i => a.ws.rxRing.buf (a.start + i)) n = .ok a.frame ∧
      0 < a.frame.frameSize ∧ a.frame.frameSize ≤ n := by
  induction attempts generalizing offset ws with
  | zero => cases h
  | succ attempts ih =>
      unfold actedLoop at h
      split_ifs at h with hlt
      · cases hparse : neonParseWsFrame (fun i => ws.rxRing.buf (data + offset + i))
            (len - offset) with
        | needMore =>
            rw [hparse] at h
            cases h
        | error =>
            rw [hparse] at h
            exact ih h
        | ok frame =>
            rw [hparse] at h
            dsimp only at h
            split_ifs at h with hskip
            · exact ih h
            · rcases List.mem_cons.mp h with rfl | h
              · refine ⟨len - offset, hparse, ?_, ?_⟩
                · dsimp only
                  omega
                · dsimp only
                  omega
              · exact ih h
      · cases h

/-! ## One call -/

theorem parseError_rxRing (env : Env) (ws : WebSocket) (offset : ℕ) :
    (parseError env ws offset).rxRing = ws.rxRing := by
  have hself := parseError_withRx env ws ws.rxRing offset
  rw [withRx_self] at hself
  rw [hself, withRx_rxRing]

theorem handleFrame_rxRing (env : Env) (ws : WebSocket) (frame : WSFrame) (start : ℕ) :
    ∃ buf, (handleFrame env ws frame start).rxRing = { ws.rxRing with buf := buf } := by
  obtain ⟨buf, heq, -⟩ := handleFrame_eq env ws frame start le_rfl
  exact ⟨buf, by rw [heq, withRx_rxRing]⟩

/-- The loop moves neither end of the receive ring. -/
theorem processFramesLoop_rxRing (env : Env) (data len attempts offset total : ℕ)
    (ws : WebSocket) :
    ∃ buf, (processFramesLoop env data len attempts offset total ws).2.rxRing =
      { ws.rxRing with buf := buf } := by
  induction attempts generalizing offset total ws with
  | zero => exact ⟨ws.rxRing.buf, rfl⟩
  | succ attempts ih =>
      unfold processFramesLoop
      by_cases hlt : offset < len
      · rw [if_pos hlt]
        cases neonParseWsFrame (fun i => ws.rxRing.buf (data + offset + i)) (len - offset) with
        | needMore => exact ⟨ws.rxRing.buf, rfl⟩
        | error =>
            obtain ⟨buf, heq⟩ := ih (offset + 1) total (parseError env ws offset)
            exact ⟨buf, by rw [heq, parseError_rxRing]⟩
        | ok frame =>
            dsimp only
            split_ifs
            · exact ih (offset + 1) total ws.countFrameError
            · obtain ⟨buf₁, heq₁⟩ := handleFrame_rxRing env ws frame (data + offset)
              obtain ⟨buf₂, heq₂⟩ := ih (offset + frame.frameSize) (total + frame.frameSize)
                (handleFrame env ws frame (data + offset))
              exact ⟨buf₂, by rw [heq₂, heq₁]⟩
      · rw [if_neg hlt]
        exact ⟨ws.rxRing.buf, rfl⟩

theorem advanceRx_zero {ws : WebSocket} (h : ws.rxRing.readPtr < ws.rxRing.size) :
    ws.advanceRx 0 = ws := by
  have hptr : (ws.rxRing.readPtr + 0) % ws.rxRing.size = ws.rxRing.readPtr := Nat.mod_eq_of_lt h
  rw [WebSocket.advanceRx, hptr]

theorem passStart_rxRing (ws : WebSocket) : (passStart ws).rxRing = ws.rxRing := by
  unfold passStart
  split_ifs <;> rfl

/-- A call is a pass of the loop, and a move of the read pointer over what the frames take up. -/
theorem processFrames_aligned (env : Env) (ws : WebSocket) (hvalid : ws.rxRing.Valid)
    (hsize : ws.rxRing.size < 2 ^ 63) :
    ∃ ws' buf, Aligned env (passStart ws) ws.rxRing.readPtr (ringbufferReadable ws.rxRing)
        (actedFrames env ws) ws' ∧
      ws'.rxRing = { ws.rxRing with buf := buf } ∧
      processFrames env ws = ws'.advanceRx (totalSize (actedFrames env ws)) := by
  have hread := hvalid.readable_lt
  obtain ⟨haligned, hcount⟩ := actedLoop_aligned env ws.rxRing.readPtr
    (ringbufferReadable ws.rxRing) maxParseAttempts 0 0 (passStart ws) (by omega)
  obtain ⟨buf, hring⟩ := processFramesLoop_rxRing env ws.rxRing.readPtr
    (ringbufferReadable ws.rxRing) maxParseAttempts 0 0 (passStart ws)
  rw [passStart_rxRing] at hring
  rw [Nat.zero_add] at hcount
  generalize hloop : processFramesLoop env ws.rxRing.readPtr (ringbufferReadable ws.rxRing)
    maxParseAttempts 0 0 (passStart ws) = r at haligned hcount hring
  have hptr : r.2.rxRing.readPtr < r.2.rxRing.size := by
    rw [hring]
    exact hvalid.readPtr_lt
  refine ⟨r.2, buf, haligned, hring, ?_⟩
  change r.1 = totalSize (actedFrames env ws) at hcount
  by_cases hempty : ringbufferReadable ws.rxRing = 0
  · have hself : r = (0, ws) := by
      rw [← hloop, processFramesLoop_end env _ hempty.le, passStart, if_pos hempty]
    rw [← hcount, hself]
    exact (if_pos hempty).trans (advanceRx_zero hvalid.readPtr_lt).symm
  · have hstart : passStart ws = ws.record (.frames ws.rxRing.linear) := if_neg hempty
    rw [processFrames_of_readable env ws hempty, ← hstart, hloop, ← hcount]
    dsimp only
    split_ifs with hpos
    · rfl
    · rw [Nat.eq_zero_of_not_pos hpos, advanceRx_zero hptr]

/-- For every content of the receive ring: the frames a call of `process_frames` acts on lie
back to back from the read pointer on, and the read pointer moves over exactly these. -/
theorem process_frames_back_to_back (env : Env) (ws : WebSocket) (hvalid : ws.rxRing.Valid)
    (hsize : ws.rxRing.size < 2 ^ 63) :
    BackToBack env (passStart ws) ws.rxRing.readPtr (actedFrames env ws) ∧
      totalSize (actedFrames env ws) ≤ ringbufferReadable ws.rxRing ∧
      (processFrames env ws).rxRing.readPtr =
        (ws.rxRing.readPtr + totalSize (actedFrames env ws)) % ws.rxRing.size ∧
      ∃ ws', Skips env (afterAll env (passStart ws) (actedFrames env ws)) ws' ∧
        processFrames env ws = ws'.advanceRx (totalSize (actedFrames env ws)) := by
  obtain ⟨ws', buf, ⟨hback, hle, hskips⟩, hring, hpass⟩ :=
    processFrames_aligned env ws hvalid hsize
  refine ⟨hback, hle, ?_, ws', hskips, hpass⟩
  rw [hpass, WebSocket.advanceRx, hring]

/-- A PONG, a header whose size comes to zero, and an empty TEXT frame behind it. -/
def skippingWebSocket : WebSocket :=
  { connectedWebSocket with
    rxRing := ringbufferInit.produce [0x8A, 0x00, 0x82, 0x7F, 0xFF, 0xFF, 0xFF, 0xFF, 0xFF, 0xFF,
      0xFF, 0xF6, 0x81, 0x00] }

/-- The header is skipped over by one byte; only the PONG is acted on and consumed. -/
theorem back_to_back_before_skip :
    (actedFrames (fun _ => {}) skippingWebSocket).map (fun a => (a.start, a.frame.opcode)) =
        [(0, wsOpcodePong)] ∧
      (processFrames (fun _ => {}) skippingWebSocket).frameParseErrors = 1 ∧
      BackToBack (fun _ => {}) (passStart skippingWebSocket) 0
        (actedFrames (fun _ => {}) skippingWebSocket) ∧
      (processFrames (fun _ => {}) skippingWebSocket).rxRing.readPtr =
        (0 + totalSize (actedFrames (fun _ => {}) skippingWebSocket)) % ringbufferSize := by
  obtain ⟨hback, -, hptr, -⟩ := process_frames_back_to_back (fun _ => {}) skippingWebSocket
    ⟨by decide, by decide⟩ (by decide)
  exact ⟨by decide +kernel, by decide +kernel, hback, hptr⟩

end WebSocketHft
