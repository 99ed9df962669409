import WebSocketHft.Verification.Frames.Separation
import WebSocketHft.Verification.Parser.Bounds
import WebSocketHft.Verification.Ringbuffer.Equations

/-! # `process_frames` on byte strings

What a pass over the receive ring does, told without the ring: frames are cut
off the front of a byte string and acted on one by one. The pass over the ring
refines this as long as the memory shows the byte string as far as the pass
looks, and no payload it takes has a length that wraps. -/

namespace WebSocketHft

open WebSocketHft.Memory WebSocketHft.Circular

/-! ## Frames of a byte string -/

/-- The payload the application sees. -/
def framePayload (frame : WSFrame) (bs : List UInt8) : List UInt8 :=
  let raw := (bs.drop frame.headerSize).take frame.payloadLen
  if frame.mask ≠ 0 then xorKey frame.maskingKey raw else raw

/-- What is done with a frame, given its payload. -/
def actOnFrame (env : Env) (ws : WebSocket) (frame : WSFrame) (payload : List UInt8) : WebSocket :=
  if frame.opcode = wsOpcodeText ∨ frame.opcode = wsOpcodeBinary then deliverMessage env ws payload
  else if frame.opcode = wsOpcodePing then (websocketSendPong env ws payload).2
  else if frame.opcode = wsOpcodePong then notePong env ws
  else if frame.opcode = wsOpcodeClose then ws.receiveClose
  else ws

/-- A pass over a byte string: how much of it is consumed, and the connection afterwards.
A skipped byte ends the pass. -/
def framesLoop (env : Env) : ℕ → ℕ → List UInt8 → WebSocket → ℕ × WebSocket
  | 0, _, _, ws => (0, ws)
  | attempts + 1, offset, bs, ws =>
    if bs = [] then (0, ws)
    else
      match parseBytes bs with
      | .needMore => (0, ws)
      | .error => (0, parseError env ws offset)
      | .ok frame =>
        if frame.frameSize = 0 then (0, ws.countFrameError)
        else
          let r := framesLoop env attempts (offset + frame.frameSize) (bs.drop frame.frameSize)
            (actOnFrame env ws frame (framePayload frame bs))
          (frame.frameSize + r.1, r.2)

/-- The byte strings at which a pass over `bs` looks for a frame. -/
inductive FrameStart (bs : List UInt8) : List UInt8 → Prop where
  | here : FrameStart bs bs
  | next {rest : List UInt8} {frame : WSFrame} (h : FrameStart bs rest)
      (hparse : parseBytes rest = .ok frame) : FrameStart bs (rest.drop frame.frameSize)

/-- No frame that a pass can reach announces a length that wraps. -/
def LengthsFit (bs : List UInt8) : Prop :=
  ∀ rest, FrameStart bs rest → ¬LengthWraps (bytesAt rest) rest.length

theorem FrameStart.trans {bs cs ds : List UInt8} (h : FrameStart bs cs) (h' : FrameStart cs ds) :
    FrameStart bs ds := by
  induction h' with
  | here => exact h
  | next _ hparse ih => exact ih.next hparse

theorem LengthsFit.next {bs : List UInt8} (h : LengthsFit bs) {frame : WSFrame}
    (hparse : parseBytes bs = .ok frame) : LengthsFit (bs.drop frame.frameSize) :=
  fun rest hrest => h rest ((FrameStart.here.next hparse).trans hrest)

/-- An accepted frame lies inside the byte string, and its size did not wrap. -/
theorem LengthsFit.frame_le {bs : List UInt8} (h : LengthsFit bs) {frame : WSFrame}
    (hparse : parseBytes bs = .ok frame) :
    frame.frameSize = frame.headerSize + frame.payloadLen ∧ 2 ≤ frame.headerSize ∧
      frame.frameSize ≤ bs.length := by
  obtain ⟨-, hheader, hfit, rfl⟩ := neonParseWsFrame_ok hparse
  have hsum : headerBytes (bytesAt bs) + announcedLength (bytesAt bs) < sizeMax := by
    by_contra hge
    exact h bs .here (lengthWraps_iff.mpr ⟨hheader, not_lt.mp hge⟩)
  exact ⟨Nat.mod_eq_of_lt hsum, two_le_headerBytes _, hfit⟩

theorem frameSize_le_of_parse {bs : List UInt8} {frame : WSFrame}
    (h : parseBytes bs = .ok frame) : frame.frameSize ≤ bs.length := by
  obtain ⟨-, -, hle, rfl⟩ := neonParseWsFrame_ok h
  exact hle

theorem framesLoop_le (env : Env) (attempts offset : ℕ) (bs : List UInt8) (ws : WebSocket) :
    (framesLoop env attempts offset bs ws).1 ≤ bs.length := by
  induction attempts generalizing offset bs ws with
  | zero => exact Nat.zero_le _
  | succ attempts ih =>
      unfold framesLoop
      by_cases hnil : bs = []
      · simp [hnil]
      · rw [if_neg hnil]
        cases hparse : parseBytes bs with
        | needMore => exact Nat.zero_le _
        | error => exact Nat.zero_le _
        | ok frame =>
            have hle := frameSize_le_of_parse hparse
            have hrest := ih (offset + frame.frameSize) (bs.drop frame.frameSize)
              (actOnFrame env ws frame (framePayload frame bs))
            rw [List.length_drop] at hrest
            dsimp only
            split_ifs
            · exact Nat.zero_le _
            · dsimp only
              omega

/-! ## How far a pass looks -/

/-- The payload is read where it lies, to be delivered or to be echoed. -/
def WSFrame.UsesPayload (frame : WSFrame) : Prop :=
  frame.opcode = wsOpcodeText ∨ frame.opcode = wsOpcodeBinary ∨ frame.opcode = wsOpcodePing

instance (frame : WSFrame) : Decidable frame.UsesPayload :=
  inferInstanceAs (Decidable (_ ∨ _ ∨ _))

/-- How far a pass looks that acts on the frame, counted with the true length. -/
def WSFrame.reach (frame : WSFrame) : ℕ :=
  if frame.UsesPayload then frame.headerSize + frame.payloadLen else frame.headerSize

/-- How far a pass over `bs` looks. The recursion is that of the loop. -/
def passReach : ℕ → List UInt8 → ℕ
  | 0, _ => 0
  | attempts + 1, bs =>
    match parseBytes bs with
    | .ok frame =>
      if frame.frameSize = 0 then max frame.headerSize (1 + passReach attempts (bs.drop 1))
      else max frame.reach (frame.frameSize + passReach attempts (bs.drop frame.frameSize))
    | _ => parserReach (bytesAt bs) bs.length

/-- No payload that a pass over `bs` reads has a length that wraps, and no frame is found
behind a skipped byte. -/
def PayloadsFit : ℕ → List UInt8 → Prop
  | 0, _ => True
  | attempts + 1, bs =>
    match parseBytes bs with
    | .ok frame =>
      if frame.frameSize = 0 then parseBytes (bs.drop 1) = .needMore
      else
        (frame.UsesPayload → frame.frameSize = frame.headerSize + frame.payloadLen) ∧
          PayloadsFit attempts (bs.drop frame.frameSize)
    | _ => True

theorem headerSize_le_reach (frame : WSFrame) : frame.headerSize ≤ frame.reach := by
  unfold WSFrame.reach
  split_ifs <;> omega

theorem headerSize_of_parse {bs : List UInt8} {frame : WSFrame} (h : parseBytes bs = .ok frame) :
    parserReach (bytesAt bs) bs.length = frame.headerSize := by
  obtain ⟨-, hheader, -, rfl⟩ := neonParseWsFrame_ok h
  exact parserReach_of_header hheader

theorem two_le_headerSize_of_parse {bs : List UInt8} {frame : WSFrame}
    (h : parseBytes bs = .ok frame) : 2 ≤ frame.headerSize := by
  obtain ⟨-, -, -, rfl⟩ := neonParseWsFrame_ok h
  exact two_le_headerBytes _

section Steps

variable {attempts : ℕ} {bs : List UInt8} {frame : WSFrame}

theorem passReach_of_skip (hparse : parseBytes bs = .ok frame) (hzero : frame.frameSize = 0) :
    passReach (attempts + 1) bs =
      max frame.headerSize (1 + passReach attempts (bs.drop 1)) := by
  simp only [passReach, hparse, hzero, if_true]

theorem passReach_of_frame (hparse : parseBytes bs = .ok frame) (hsize : frame.frameSize ≠ 0) :
    passReach (attempts + 1) bs =
      max frame.reach (frame.frameSize + passReach attempts (bs.drop frame.frameSize)) := by
  simp only [passReach, hparse, hsize, if_false]

theorem PayloadsFit.needMore (h : PayloadsFit (attempts + 1) bs)
    (hparse : parseBytes bs = .ok frame) (hzero : frame.frameSize = 0) :
    parseBytes (bs.drop 1) = .needMore := by
  simpa only [PayloadsFit, hparse, hzero, if_true] using h

theorem PayloadsFit.next (h : PayloadsFit (attempts + 1) bs) (hparse : parseBytes bs = .ok frame)
    (hsize : frame.frameSize ≠ 0) :
    (frame.UsesPayload → frame.frameSize = frame.headerSize + frame.payloadLen) ∧
      PayloadsFit attempts (bs.drop frame.frameSize) := by
  simpa only [PayloadsFit, hparse, hsize, if_false] using h

end Steps

theorem payloadsFit_of_needMore (attempts : ℕ) {bs : List UInt8}
    (h : parseBytes bs = .needMore) : PayloadsFit attempts bs := by
  cases attempts with
  | zero => trivial
  | succ attempts => simp only [PayloadsFit, h]

/-- A pass looks at least where its first call of the parser does. -/
theorem parserReach_le_passReach (attempts : ℕ) (bs : List UInt8) :
    parserReach (bytesAt bs) bs.length ≤ passReach (attempts + 1) bs := by
  cases hparse : parseBytes bs with
  | needMore => simp only [passReach, hparse, le_refl]
  | error => simp only [passReach, hparse, le_refl]
  | ok frame =>
      rw [headerSize_of_parse hparse]
      by_cases hzero : frame.frameSize = 0
      · rw [passReach_of_skip hparse hzero]
        exact le_max_left _ _
      · rw [passReach_of_frame hparse hzero]
        exact (headerSize_le_reach frame).trans (le_max_left _ _)

theorem bytesAt_drop (bs : List UInt8) (n i : ℕ) : bytesAt (bs.drop n) i = bytesAt bs (n + i) := by
  simp only [bytesAt, List.getD_eq_getElem?_getD, List.getElem?_drop]

/-- A payload that ends before `2 ^ 64` has a length that does not wrap. -/
theorem payloadsFit_of_reach {attempts : ℕ} {bs : List UInt8} (hlen : bs.length < 2 ^ 63)
    (h : passReach attempts bs < 2 ^ 64) : PayloadsFit attempts bs := by
  induction attempts generalizing bs with
  | zero => trivial
  | succ attempts ih =>
      cases hparse : parseBytes bs with
      | needMore => simp only [PayloadsFit, hparse]
      | error => simp only [PayloadsFit, hparse]
      | ok frame =>
          by_cases hzero : frame.frameSize = 0
          · simp only [PayloadsFit, hparse, hzero, if_true]
            rw [parseBytes, List.length_drop, funext (bytesAt_drop bs 1)]
            exact needMore_behind_zero_size hparse hzero hlen
          · rw [passReach_of_frame hparse hzero] at h
            simp only [PayloadsFit, hparse, hzero, if_false]
            refine ⟨fun huses => ?_, ih (by rw [List.length_drop]; omega) (by omega)⟩
            have hreach : frame.reach = frame.headerSize + frame.payloadLen := if_pos huses
            have hlt : frame.headerSize + frame.payloadLen < sizeMax := by
              rw [← hreach]
              exact (le_max_left _ _).trans_lt h
            exact Nat.mod_eq_of_lt hlt

/-- Where the payloads fit, a pass looks at nothing behind the byte string. -/
theorem PayloadsFit.passReach_le {attempts : ℕ} {bs : List UInt8} (h : PayloadsFit attempts bs) :
    passReach attempts bs ≤ bs.length := by
  induction attempts generalizing bs with
  | zero => exact Nat.zero_le _
  | succ attempts ih =>
      have hparser := parserReach_le (bytesAt bs) bs.length
      cases hparse : parseBytes bs with
      | needMore => simpa only [passReach, hparse] using hparser
      | error => simpa only [passReach, hparse] using hparser
      | ok frame =>
          have hheader := two_le_headerSize_of_parse hparse
          rw [headerSize_of_parse hparse] at hparser
          by_cases hzero : frame.frameSize = 0
          · have hrest := ih (payloadsFit_of_needMore attempts (h.needMore hparse hzero))
            rw [List.length_drop] at hrest
            rw [passReach_of_skip hparse hzero]
            omega
          · obtain ⟨hwhole, hfit⟩ := h.next hparse hzero
            have hle := frameSize_le_of_parse hparse
            have hrest := ih hfit
            have hreach : frame.reach ≤ bs.length := by
              unfold WSFrame.reach
              split_ifs with huses
              · rw [← hwhole huses]
                exact hle
              · exact hparser
            rw [List.length_drop] at hrest
            rw [passReach_of_frame hparse hzero]
            omega

theorem LengthsFit.payloadsFit {bs : List UInt8} (h : LengthsFit bs) (attempts : ℕ) :
    PayloadsFit attempts bs := by
  induction attempts generalizing bs with
  | zero => trivial
  | succ attempts ih =>
      cases hparse : parseBytes bs with
      | needMore => simp only [PayloadsFit, hparse]
      | error => simp only [PayloadsFit, hparse]
      | ok frame =>
          obtain ⟨hsize, htwo, -⟩ := h.frame_le hparse
          have hzero : frame.frameSize ≠ 0 := by omega
          simp only [PayloadsFit, hparse, hzero, if_false]
          exact ⟨fun _ => hsize, ih (h.next hparse)⟩

/-! ## Exchanging the ring -/

theorem actOnFrame_over (env : Env) (ws : WebSocket) (rx : RingBuffer) (past : List Event)
    (frame : WSFrame) (payload : List UInt8) :
    actOnFrame env (ws.over rx past) frame payload =
      (actOnFrame env ws frame payload).over rx past := by
  simp only [actOnFrame, deliverMessage_over, websocketSendPong_over, notePong_over,
    receiveClose_over]
  split_ifs <;> rfl

theorem framesLoop_over (env : Env) (attempts offset : ℕ) (bs : List UInt8) (ws : WebSocket)
    (rx : RingBuffer) (past : List Event) :
    framesLoop env attempts offset bs (ws.over rx past) =
      ((framesLoop env attempts offset bs ws).1,
        (framesLoop env attempts offset bs ws).2.over rx past) := by
  induction attempts generalizing offset bs ws with
  | zero => rfl
  | succ attempts ih =>
      unfold framesLoop
      by_cases hnil : bs = []
      · simp [hnil]
      · rw [if_neg hnil, if_neg hnil]
        cases hparse : parseBytes bs with
        | needMore => rfl
        | error => exact congrArg (Prod.mk 0) (parseError_over env ws rx past offset)
        | ok frame =>
            dsimp only
            by_cases hzero : frame.frameSize = 0
            · rw [if_pos hzero, if_pos hzero]
              rfl
            · rw [if_neg hzero, if_neg hzero, actOnFrame_over, ih]

theorem framesLoop_withRx (env : Env) (attempts offset : ℕ) (bs : List UInt8) (ws : WebSocket)
    (rx : RingBuffer) :
    framesLoop env attempts offset bs (ws.withRx rx) =
      ((framesLoop env attempts offset bs ws).1,
        (framesLoop env attempts offset bs ws).2.withRx rx) :=
  framesLoop_over env attempts offset bs ws rx []

/-! ## Unmasking in place -/

theorem unmask_apply_of_outside (m : ℕ → UInt8) {a n j : ℕ} (key : MaskingKey)
    (h : j < a ∨ a + n ≤ j) : unmask m a n key j = m j := by
  rw [unmask, if_neg (by omega)]

theorem load_unmask (m : ℕ → UInt8) (a n : ℕ) (key : MaskingKey) :
    load (unmask m a n key) a n = xorKey key (load m a n) := by
  apply List.ext_getElem? fun i => ?_
  rw [xorKey, List.getElem?_mapIdx]
  rcases Nat.lt_or_ge i n with hi | hi
  · rw [getElem?_load _ _ _ _ hi, getElem?_load _ _ _ _ hi, unmask, if_pos (by omega),
      Nat.add_sub_cancel_left]
    rfl
  · rw [List.getElem?_eq_none (by simpa using hi), List.getElem?_eq_none (by simpa using hi)]
    rfl

/-- Unmasking changes the payload in the ring and nothing else. -/
theorem unmaskFrame_eq (ws : WebSocket) (frame : WSFrame) (payload : ℕ) :
    ∃ buf, ws.unmaskFrame frame payload = ws.withRx { ws.rxRing with buf := buf } ∧
      load buf payload frame.payloadLen =
        (if frame.mask ≠ 0 then
          xorKey frame.maskingKey (load ws.rxRing.buf payload frame.payloadLen)
        else load ws.rxRing.buf payload frame.payloadLen) ∧
      ∀ j, j < payload ∨ payload + frame.payloadLen ≤ j → buf j = ws.rxRing.buf j := by
  by_cases hmask : frame.mask ≠ 0
  · refine ⟨unmask ws.rxRing.buf payload frame.payloadLen frame.maskingKey, ?_, ?_, ?_⟩
    · exact if_pos hmask
    · rw [if_pos hmask, load_unmask]
    · intro j hj
      exact unmask_apply_of_outside _ _ hj
  · exact ⟨ws.rxRing.buf, if_neg hmask, (if_neg hmask).symm, fun _ _ => rfl⟩

/-- Acting on a frame in the ring is acting on its payload, if the memory shows the payload
where it is used. The ring changes at most inside a payload that is used. -/
theorem handleFrame_shown (env : Env) (ws : WebSocket) (frame : WSFrame) (start : ℕ)
    {bs : List UInt8}
    (hshown : frame.UsesPayload → load ws.rxRing.buf (start + frame.headerSize) frame.payloadLen =
      (bs.drop frame.headerSize).take frame.payloadLen) :
    ∃ buf, handleFrame env ws frame start =
        (actOnFrame env ws frame (framePayload frame bs)).withRx
          { ws.rxRing with buf := buf } ∧
      ∀ j, (frame.UsesPayload → j < start ∨ start + (frame.headerSize + frame.payloadLen) ≤ j) →
        buf j = ws.rxRing.buf j := by
  obtain ⟨buf, hws, hload, hout⟩ := unmaskFrame_eq ws frame (start + frame.headerSize)
  have hused (huses : frame.UsesPayload) :
      load buf (start + frame.headerSize) frame.payloadLen = framePayload frame bs ∧
        ∀ j, (frame.UsesPayload → j < start ∨ start + (frame.headerSize + frame.payloadLen) ≤ j) →
          buf j = ws.rxRing.buf j := by
    rw [hload, hshown huses]
    refine ⟨rfl, fun j hj => hout j ?_⟩
    have := hj huses
    omega
  unfold handleFrame actOnFrame
  dsimp only
  by_cases hmsg : frame.opcode = wsOpcodeText ∨ frame.opcode = wsOpcodeBinary
  · obtain ⟨hpayload, hcells⟩ := hused (hmsg.imp_right Or.inl)
    refine ⟨buf, ?_, hcells⟩
    rw [if_pos hmsg, if_pos hmsg, hws, withRx_rxRing, deliverMessage_withRx]
    rw [hpayload]
  · rw [if_neg hmsg, if_neg hmsg]
    by_cases hping : frame.opcode = wsOpcodePing
    · obtain ⟨hpayload, hcells⟩ := hused (Or.inr (Or.inr hping))
      refine ⟨buf, ?_, hcells⟩
      rw [if_pos hping, if_pos hping, hws, withRx_rxRing, websocketSendPong_withRx]
      rw [hpayload]
    · rw [if_neg hping, if_neg hping]
      -- the other frames leave the ring alone
      refine ⟨ws.rxRing.buf, ?_, fun _ _ => rfl⟩
      change _ = WebSocket.withRx _ ws.rxRing
      split_ifs
      · have h := notePong_withRx env ws ws.rxRing
        rwa [withRx_self] at h
      · rfl
      · rfl

/-- The same for a frame that lies in the memory as a whole. -/
theorem handleFrame_eq (env : Env) (ws : WebSocket) (frame : WSFrame) (start : ℕ)
    {n : ℕ} (hin : frame.headerSize + frame.payloadLen ≤ n) :
    ∃ buf, handleFrame env ws frame start =
        (actOnFrame env ws frame (framePayload frame (load ws.rxRing.buf start n))).withRx
          { ws.rxRing with buf := buf } ∧
      ∀ j, (frame.UsesPayload → j < start ∨ start + (frame.headerSize + frame.payloadLen) ≤ j) →
        buf j = ws.rxRing.buf j := by
  have hshown : load ws.rxRing.buf (start + frame.headerSize) frame.payloadLen =
      ((load ws.rxRing.buf start n).drop frame.headerSize).take frame.payloadLen := by
    rw [load_drop, load_take _ _ _ _ (by omega)]
  exact handleFrame_shown env ws frame start fun _ => hshown

/-! ## The pass over the ring -/

theorem parseBytes_error {bs : List UInt8} (h : parseBytes bs = .error) : bs.length < 2 := by
  by_contra hge
  rw [parseBytes, neonParseWsFrame_eq _ (not_lt.mp hge)] at h
  split at h <;> cases h

/-- The parser fails on the last byte only, so skipping it ends a pass. -/
theorem le_of_parse_error {buf : ℕ → UInt8} {start len offset : ℕ}
    (h : parseBytes (load buf start (len - offset)) = .error) : len ≤ offset + 1 := by
  have hshort := parseBytes_error h
  rw [load_length] at hshort
  omega

/-- A block that agrees with a byte string cell by cell. -/
theorem load_eq_take {m : ℕ → UInt8} {a n k : ℕ} {bs : List UInt8} (hk : k + n ≤ bs.length)
    (h : ∀ i < n, m (a + i) = bytesAt bs (k + i)) : load m a n = (bs.drop k).take n := by
  have hbytes := load_bytesAt bs
  rw [load_congr h, ← hbytes, load_drop, load_take _ _ _ _ (by omega), Nat.zero_add, hbytes]

/-- A payload that is used, and that lies in front of what a pass looks at, is shown. -/
theorem payload_shown {m : ℕ → UInt8} {start n : ℕ} {bs : List UInt8} {frame : WSFrame}
    (hwhole : frame.UsesPayload → frame.frameSize = frame.headerSize + frame.payloadLen)
    (hle : frame.frameSize ≤ bs.length) (hreach : frame.reach ≤ n)
    (hshown : ∀ i < n, m (start + i) = bytesAt bs i) (huses : frame.UsesPayload) :
    load m (start + frame.headerSize) frame.payloadLen =
      (bs.drop frame.headerSize).take frame.payloadLen := by
  have htaken : frame.reach = frame.headerSize + frame.payloadLen := if_pos huses
  have hsize := hwhole huses
  refine load_eq_take (by omega) fun i hi => ?_
  rw [Nat.add_assoc, hshown _ (by omega)]

theorem framesLoop_of_needMore (env : Env) (attempts offset : ℕ) (ws : WebSocket)
    {bs : List UInt8} (h : parseBytes bs = .needMore) :
    framesLoop env attempts offset bs ws = (0, ws) := by
  cases attempts with
  | zero => rfl
  | succ attempts =>
      rw [framesLoop, h]
      split_ifs <;> rfl

theorem processFramesLoop_end (env : Env) (data : ℕ) {len offset : ℕ} (h : len ≤ offset)
    (attempts total : ℕ) (ws : WebSocket) :
    processFramesLoop env data len attempts offset total ws = (total, ws) := by
  cases attempts with
  | zero => rfl
  | succ attempts => rw [processFramesLoop, if_neg (not_lt.mpr h)]

/-- A frame that fits is acted on, and the loop goes on behind it. -/
theorem processFramesLoop_frame (env : Env) (data len attempts offset total : ℕ)
    (ws : WebSocket) (hlt : offset < len) {frame : WSFrame}
    (h : neonParseWsFrame (fun i => ws.rxRing.buf (data + offset + i)) (len - offset) = .ok frame)
    (hkeep : ¬(frame.frameSize = 0 ∨ len - offset < frame.frameSize)) :
    processFramesLoop env data len (attempts + 1) offset total ws =
      processFramesLoop env data len attempts (offset + frame.frameSize)
        (total + frame.frameSize) (handleFrame env ws frame (data + offset)) := by
  rw [processFramesLoop, if_pos hlt, h]
  exact if_neg hkeep

/-- The loop over the ring's memory refines the loop over a byte string that the memory shows
as far as the loop looks. Cells outside the consumed bytes keep their contents. -/
theorem processFramesLoop_eq (env : Env) (data len attempts offset total : ℕ) (ws : WebSocket)
    {bs : List UInt8} (hoff : offset ≤ len) (hlen : bs.length = len - offset)
    (hfit : PayloadsFit attempts bs)
    (hshown : ∀ i < passReach attempts bs, ws.rxRing.buf (data + offset + i) = bytesAt bs i) :
    ∃ buf,
      processFramesLoop env data len attempts offset total ws =
        (total + (framesLoop env attempts offset bs ws).1,
          (framesLoop env attempts offset bs ws).2.withRx { ws.rxRing with buf := buf }) ∧
      ∀ j, j < data + offset ∨ data + offset + (framesLoop env attempts offset bs ws).1 ≤ j →
        buf j = ws.rxRing.buf j := by
  induction attempts generalizing offset total bs ws with
  | zero => exact ⟨ws.rxRing.buf, rfl, fun _ _ => rfl⟩
  | succ attempts ih =>
      have hparser : neonParseWsFrame (fun i => ws.rxRing.buf (data + offset + i)) (len - offset) =
          parseBytes bs := by
        rw [parseBytes, hlen]
        refine (neonParseWsFrame_congr_reach fun i hi => (hshown i ?_).symm).symm
        rw [← hlen] at hi
        exact hi.trans_le (parserReach_le_passReach attempts bs)
      unfold processFramesLoop framesLoop
      by_cases hlt : offset < len
      · have hne : bs ≠ [] := by
          rw [← List.length_pos_iff]
          omega
        rw [if_pos hlt, if_neg hne, hparser]
        cases hparse : parseBytes bs with
        | needMore => exact ⟨ws.rxRing.buf, rfl, fun _ _ => rfl⟩
        | error =>
            have hself := parseError_withRx env ws ws.rxRing offset
            have hshort := parseBytes_error hparse
            rw [withRx_self] at hself
            refine ⟨ws.rxRing.buf, ?_, fun _ _ => rfl⟩
            dsimp only
            rw [processFramesLoop_end env data (by omega)]
            exact congrArg (Prod.mk total) hself
        | ok frame =>
            by_cases hzero : frame.frameSize = 0
            · -- a size that comes to zero: one byte is skipped, and the parser waits
              have hstep : passReach (attempts + 1) bs = _ := passReach_of_skip hparse hzero
              have hwait := hfit.needMore hparse hzero
              have hend := framesLoop_of_needMore env attempts (offset + 1) ws.countFrameError hwait
              have hnext : ∀ i < passReach attempts (bs.drop 1),
                  ws.countFrameError.rxRing.buf (data + (offset + 1) + i) =
                    bytesAt (bs.drop 1) i := by
                intro i hi
                rw [bytesAt_drop, ← hshown (1 + i) (by omega)]
                exact congrArg ws.rxRing.buf (by omega)
              obtain ⟨buf, hrun, hout⟩ := ih (offset + 1) total ws.countFrameError (by omega)
                (by rw [List.length_drop]; omega) (payloadsFit_of_needMore attempts hwait) hnext
              rw [hend] at hrun hout
              dsimp only at hout ⊢
              rw [if_pos (Or.inl hzero), if_pos hzero]
              exact ⟨buf, hrun, fun j _ => hout j (by omega)⟩
            · have hstep : passReach (attempts + 1) bs = _ := passReach_of_frame hparse hzero
              obtain ⟨hwhole, hrest⟩ := hfit.next hparse hzero
              have hle := frameSize_le_of_parse hparse
              have hskip : ¬(frame.frameSize = 0 ∨ len - offset < frame.frameSize) := by omega
              obtain ⟨buf₁, hact, hout₁⟩ := handleFrame_shown env ws frame (data + offset)
                (payload_shown hwhole hle (by omega) hshown)
              have hkept : ∀ j, j < data + offset ∨ data + offset + frame.frameSize ≤ j →
                  buf₁ j = ws.rxRing.buf j :=
                fun j hj => hout₁ j fun huses => by rwa [← hwhole huses]
              have hnext : ∀ i < passReach attempts (bs.drop frame.frameSize),
                  (handleFrame env ws frame (data + offset)).rxRing.buf
                    (data + (offset + frame.frameSize) + i) =
                      bytesAt (bs.drop frame.frameSize) i := by
                intro i hi
                rw [hact, withRx_rxRing, bytesAt_drop, ← hshown (frame.frameSize + i) (by omega)]
                dsimp only
                rw [hkept _ (by omega)]
                exact congrArg ws.rxRing.buf (by omega)
              obtain ⟨buf₂, hrun, hout₂⟩ := ih (offset + frame.frameSize) (total + frame.frameSize)
                (handleFrame env ws frame (data + offset)) (by omega)
                (by rw [List.length_drop]; omega) hrest hnext
              rw [hact, framesLoop_withRx, withRx_withRx, withRx_rxRing] at hrun
              rw [hact, framesLoop_withRx, withRx_rxRing] at hout₂
              dsimp only
              rw [if_neg hskip, if_neg hzero]
              refine ⟨buf₂, ?_, ?_⟩
              · rw [hact, hrun, Nat.add_assoc]
              · intro j hj
                dsimp only at hj hout₂
                rw [hout₂ j (by omega), hkept j (by omega)]
      · have hnil : bs = [] := by
          rw [← List.length_eq_zero_iff]
          omega
        rw [if_neg hlt, if_pos hnil]
        exact ⟨ws.rxRing.buf, rfl, fun _ _ => rfl⟩

/-- `process_frames` told on the bytes of the queue. -/
def framesPass (env : Env) (ws : WebSocket) (bs : List UInt8) : ℕ × WebSocket :=
  if bs = [] then (0, ws)
  else framesLoop env maxParseAttempts 0 bs (ws.record (.frames bs))

theorem framesPass_le (env : Env) (ws : WebSocket) (bs : List UInt8) :
    (framesPass env ws bs).1 ≤ bs.length := by
  unfold framesPass
  split_ifs
  · exact Nat.zero_le _
  · exact framesLoop_le env maxParseAttempts 0 bs _

/-- The ring after `n` bytes have been taken off an unwrapped queue. -/
structure Consumed (rb rb' : RingBuffer) (n : ℕ) : Prop where
  size_eq : rb'.size = rb.size
  valid : rb'.Valid
  unwrapped : rb'.Unwrapped
  queue_eq : rb'.queue = rb.queue.drop n
  readPtr_eq_iff : rb'.readPtr = rb.readPtr ↔ n = 0

theorem RingBuffer.Unwrapped.consume {rb : RingBuffer} (hvalid : rb.Valid) (h : rb.Unwrapped)
    {n : ℕ} (hn : n ≤ ringbufferReadable rb) : (rb.consume n).Unwrapped := by
  have hr := hvalid.readPtr_lt
  have hlt := hvalid.readable_lt
  unfold RingBuffer.Unwrapped at *
  rw [readable_consume hvalid hn]
  change (rb.readPtr + n) % rb.size + _ ≤ rb.size
  rw [add_mod_eq_ite hr (by omega)]
  split_ifs <;> omega

/-- Releasing bytes that have been rewritten in place. -/
theorem queue_consume_rewritten {rb : RingBuffer} (hvalid : rb.Valid) {buf : ℕ → UInt8} {n : ℕ}
    (hn : n ≤ ringbufferReadable rb)
    (hout : ∀ j, j < rb.readPtr ∨ rb.readPtr + n ≤ j → buf j = rb.buf j) :
    (RingBuffer.consume { rb with buf := buf } n).queue = rb.queue.drop n := by
  have hr := hvalid.readPtr_lt
  have hlt := hvalid.readable_lt
  rw [queue_consume (hvalid.withBuf buf) hn, RingBuffer.queue, RingBuffer.queue,
    window_drop _ _ _ _ _ hn]
  refine (window_drop _ _ _ _ _ hn).trans (window_congr fun i hi => hout _ ?_)
  -- the rest of the queue lies behind the released bytes or before the read pointer
  change (rb.readPtr + n + i) % rb.size < rb.readPtr ∨
    rb.readPtr + n ≤ (rb.readPtr + n + i) % rb.size
  rw [Nat.add_assoc, add_mod_eq_ite hr (by omega)]
  split_ifs <;> omega

theorem consumed_of_rewritten {rb : RingBuffer} (hvalid : rb.Valid) (hun : rb.Unwrapped)
    {buf : ℕ → UInt8} {n : ℕ} (hn : n ≤ ringbufferReadable rb)
    (hout : ∀ j, j < rb.readPtr ∨ rb.readPtr + n ≤ j → buf j = rb.buf j) :
    Consumed rb (RingBuffer.consume { rb with buf := buf } n) n := by
  have hvalid' := hvalid.withBuf buf
  have hun' : RingBuffer.Unwrapped { rb with buf := buf } := hun
  exact ⟨rfl, hvalid'.consume n, hun'.consume hvalid' hn, queue_consume_rewritten hvalid hn hout,
    readPtr_consume_eq_iff hvalid' hn⟩

theorem processFrames_of_readable (env : Env) (ws : WebSocket)
    (h : ringbufferReadable ws.rxRing ≠ 0) :
    processFrames env ws =
      let r := processFramesLoop env ws.rxRing.readPtr (ringbufferReadable ws.rxRing)
        maxParseAttempts 0 0 (ws.record (.frames ws.rxRing.linear))
      if 0 < r.1 then r.2.advanceRx r.1 else r.2 :=
  if_neg h

/-- One call of `process_frames` on a ring with something to read, wherever the ring wraps:
it acts on any byte string that the memory shows from the read pointer on, as far as the pass
looks. -/
theorem processFrames_shown (env : Env) (ws : WebSocket) (hvalid : ws.rxRing.Valid)
    {bs : List UInt8} (hlen : bs.length = ringbufferReadable ws.rxRing) (hne : bs ≠ [])
    (hfit : PayloadsFit maxParseAttempts bs)
    (hshown : ∀ i < passReach maxParseAttempts bs,
      ws.rxRing.buf (ws.rxRing.readPtr + i) = bytesAt bs i) :
    let r := framesLoop env maxParseAttempts 0 bs (ws.record (.frames ws.rxRing.linear))
    ∃ buf, processFrames env ws = r.2.withRx (RingBuffer.consume { ws.rxRing with buf := buf } r.1) ∧
      ∀ j, j < ws.rxRing.readPtr ∨ ws.rxRing.readPtr + r.1 ≤ j → buf j = ws.rxRing.buf j := by
  have hreadable : ringbufferReadable ws.rxRing ≠ 0 := by
    rw [← hlen]
    exact (List.length_pos_iff.mpr hne).ne'
  obtain ⟨buf, hloop, hout⟩ := processFramesLoop_eq env ws.rxRing.readPtr
    (ringbufferReadable ws.rxRing) maxParseAttempts 0 0 (ws.record (.frames ws.rxRing.linear))
    (Nat.zero_le _) hlen hfit hshown
  refine ⟨buf, ?_, hout⟩
  rw [processFrames_of_readable env ws hreadable]
  dsimp only
  rw [hloop, Nat.zero_add]
  split_ifs with hpos
  · rfl
  · have hzero := Nat.eq_zero_of_not_pos hpos
    refine congrArg (WebSocket.withRx _) ?_
    exact (consume_zero (hvalid.withBuf buf)).symm.trans (congrArg _ hzero.symm)

/-- Without a length that wraps, the byte string is what lies from the read pointer on, up to
the readable length and without a turn at the end of the buffer. -/
theorem processFrames_linear (env : Env) (ws : WebSocket) (hvalid : ws.rxRing.Valid)
    (hfit : LengthsFit ws.rxRing.linear) :
    ∃ buf,
      processFrames env ws =
        (framesPass env ws ws.rxRing.linear).2.withRx
          (RingBuffer.consume { ws.rxRing with buf := buf }
            (framesPass env ws ws.rxRing.linear).1) ∧
      ∀ j, j < ws.rxRing.readPtr ∨
          ws.rxRing.readPtr + (framesPass env ws ws.rxRing.linear).1 ≤ j →
        buf j = ws.rxRing.buf j := by
  have hlen : ws.rxRing.linear.length = ringbufferReadable ws.rxRing := load_length _ _ _
  by_cases hnil : ws.rxRing.linear = []
  · have hempty : ringbufferReadable ws.rxRing = 0 := by
      rw [← hlen, hnil, List.length_nil]
    refine ⟨ws.rxRing.buf, ?_, fun _ _ => rfl⟩
    rw [framesPass, if_pos hnil, consume_zero (hvalid.withBuf _)]
    exact if_pos hempty
  · have hpayloads := hfit.payloadsFit maxParseAttempts
    have hreach := hpayloads.passReach_le
    rw [framesPass, if_neg hnil]
    refine processFrames_shown env ws hvalid hlen hnil hpayloads fun i hi => ?_
    exact (bytesAt_load _ _ _ (by omega)).symm

/-- On an unwrapped queue the connection changes as the byte strings say, and the queue
loses what was consumed. -/
theorem processFrames_spec (env : Env) (ws : WebSocket) (hvalid : ws.rxRing.Valid)
    (hun : ws.rxRing.Unwrapped) (hfit : LengthsFit ws.rxRing.queue) :
    ∃ rx, processFrames env ws = (framesPass env ws ws.rxRing.queue).2.withRx rx ∧
      Consumed ws.rxRing rx (framesPass env ws ws.rxRing.queue).1 := by
  have hn := framesPass_le env ws ws.rxRing.queue
  rw [length_queue] at hn
  rw [queue_eq_linear hun] at hfit hn ⊢
  obtain ⟨buf, hpass, hout⟩ := processFrames_linear env ws hvalid hfit
  exact ⟨_, hpass, consumed_of_rewritten hvalid hun hn hout⟩

end WebSocketHft
