import WebSocketHft.Shared.Runs
import WebSocketHft.Verification.Frames.Delivery

/-! # Errors counted on well-formed traffic

The parser wants to see two bytes before it says anything but error. A pass that
comes to a tail of one byte counts an error, though the rest of the frame is only
on its way; other than that no pass over well-formed frames counts one. -/

namespace WebSocketHft

open WebSocketHft.Runs

/-! ## Tails of one byte -/

/-- Fewer than `n` whole frames and one byte more. -/
def LoneByte (n : ℕ) (bs : List UInt8) : Prop :=
  ∃ fs b, fs.length < n ∧ bs = encodeAll fs ++ [b]

theorem not_loneByte_nil (n : ℕ) : ¬LoneByte n [] := by
  rintro ⟨fs, b, -, heq⟩
  exact absurd heq.symm (by simp)

theorem loneByte_encode_append {n : ℕ} (f : WireFrame) (rest : List UInt8) :
    LoneByte (n + 1) (f.encode ++ rest) ↔ LoneByte n rest := by
  constructor
  · rintro ⟨fs, b, hlt, heq⟩
    cases fs with
    | nil =>
        have hlength := congrArg List.length heq
        have htwo := f.two_le_size
        simp at hlength
        omega
    | cons g fs =>
        rw [encodeAll_cons, List.append_assoc] at heq
        exact ⟨fs, b, Nat.lt_of_succ_lt_succ hlt, (encode_append_inj heq).2⟩
  · rintro ⟨fs, b, hlt, rfl⟩
    refine ⟨f :: fs, b, Nat.succ_lt_succ hlt, ?_⟩
    rw [encodeAll_cons, List.append_assoc]

theorem loneByte_unfinished {n : ℕ} {bs : List UInt8} {frames : List WireFrame}
    (h : Unfinished bs frames) : LoneByte (n + 1) bs ↔ bs.length = 1 := by
  constructor
  · rintro ⟨fs, b, -, rfl⟩
    cases fs with
    | nil => rfl
    | cons g fs =>
        -- a whole frame would be a proper front part of the unfinished one
        cases frames with
        | nil => exact absurd h (by simp [Unfinished])
        | cons f frames =>
            obtain ⟨hlt, zs, hzs⟩ := h
            rw [encodeAll_cons, List.append_assoc, List.append_assoc, ← List.append_nil f.encode]
              at hzs
            have hnil := (encode_append_inj hzs).2
            simp at hnil
  · intro hone
    obtain ⟨b, rfl⟩ := List.length_eq_one_iff.mp hone
    exact ⟨[], b, Nat.succ_pos n, rfl⟩

/-! ## What is counted -/

variable (env : Env) {ws : WebSocket}

theorem errorFigures_callback (ws : WebSocket) (e : Event) :
    (ws.callback env e).errorFigures = ws.errorFigures := by
  have hcalls : Aside (ws.record e).pass (ws.callback env e) := Aside.foldl_run _ _
  exact hcalls.errorFigures

theorem errorFigures_deliverMessage (ws : WebSocket) (payload : List UInt8) :
    (deliverMessage env ws payload).errorFigures = ws.errorFigures := by
  have hsampled : Quiet ws (sampleLatency env (ws.countReceived payload.length)) :=
    (Quiet.countReceived ws _).trans (Quiet.sampleLatency env _)
  unfold deliverMessage
  dsimp only
  generalize sampleLatency env (ws.countReceived payload.length) = ws₁ at hsampled ⊢
  split_ifs
  · exact (errorFigures_callback env ws₁ _).trans hsampled.errorFigures
  · exact hsampled.errorFigures

theorem errorFigures_actOnFrame (ws : WebSocket) (frame : WSFrame) (payload : List UInt8) :
    (actOnFrame env ws frame payload).errorFigures = ws.errorFigures := by
  unfold actOnFrame
  split_ifs
  · exact errorFigures_deliverMessage env ws payload
  · exact (Quiet.websocketSendPong env ws payload).errorFigures
  · exact (Aside.notePong ws).errorFigures
  · rfl
  · rfl

theorem errorFigures_parseError (ws : WebSocket) (offset : ℕ) :
    (parseError env ws offset).errorFigures =
      (ws.errorFigures.1 + 1, ws.errorFigures.2 + 1) := by
  have hlog : Aside ws.countFrameError.countError (parseError env ws offset) := Aside.wsLog _ _ _
  exact hlog.errorFigures

/-- The loop counts one error if it comes to a single byte, and none otherwise. -/
theorem errorFigures_framesLoop (attempts offset : ℕ) (bs : List UInt8) (ws : WebSocket)
    (frames : List WireFrame) (hfit : SizesFit frames) (hbs : bs <+: encodeAll frames) :
    LoneByte attempts bs ∧ (framesLoop env attempts offset bs ws).2.errorFigures =
        (ws.errorFigures.1 + 1, ws.errorFigures.2 + 1) ∨
      ¬LoneByte attempts bs ∧
        (framesLoop env attempts offset bs ws).2.errorFigures = ws.errorFigures := by
  induction attempts generalizing offset bs ws frames with
  | zero => exact Or.inr ⟨fun ⟨_, _, hlt, _⟩ => absurd hlt (Nat.not_lt_zero _), rfl⟩
  | succ attempts ih =>
      unfold framesLoop
      rcases stream_cases hbs with hun | ⟨f, fs, rest, rfl, rfl, hrest⟩
      · rw [loneByte_unfinished hun, parseBytes_unfinished hfit hun]
        by_cases hnil : bs = []
        · right
          rw [if_pos hnil, hnil]
          exact ⟨by decide, rfl⟩
        · have hpos := List.length_pos_iff.mpr hnil
          rw [if_neg hnil]
          by_cases hshort : bs.length < 2
          · left
            rw [if_pos hshort]
            exact ⟨by omega, errorFigures_parseError env ws offset⟩
          · right
            rw [if_neg hshort]
            exact ⟨by omega, rfl⟩
      · have hne : f.encode ++ rest ≠ [] := by
          rw [← List.length_pos_iff, List.length_append, f.encode_length]
          have := f.two_le_size
          omega
        have hrest' := ih (offset + f.size) rest (actOnFrame env ws f.parsed f.payload) fs
          hfit.tail hrest
        rw [errorFigures_actOnFrame] at hrest'
        rw [loneByte_encode_append, if_neg hne, parseBytes_encode hfit.head_lt]
        dsimp only
        rwa [framePayload_encode, frameSize_parsed hfit.head_lt, if_neg f.size_ne_zero,
          List.drop_left' f.encode_length]

/-- A pass over the ring does the same. -/
theorem errorFigures_processFrames (hvalid : ws.rxRing.Valid) (hun : ws.rxRing.Unwrapped)
    {frames : List WireFrame} (hfit : SizesFit frames)
    (hqueue : ws.rxRing.queue <+: encodeAll frames) :
    LoneByte maxParseAttempts ws.rxRing.queue ∧ (processFrames env ws).errorFigures =
        (ws.errorFigures.1 + 1, ws.errorFigures.2 + 1) ∨
      ¬LoneByte maxParseAttempts ws.rxRing.queue ∧
        (processFrames env ws).errorFigures = ws.errorFigures := by
  obtain ⟨rx, hpass, -⟩ := processFrames_spec env ws hvalid hun (lengthsFit_of_stream hfit hqueue)
  have hfigures : (processFrames env ws).errorFigures =
      (framesPass env ws ws.rxRing.queue).2.errorFigures := by
    rw [hpass]
    rfl
  rw [hfigures, framesPass]
  by_cases hnil : ws.rxRing.queue = []
  · rw [if_pos hnil, hnil]
    exact Or.inr ⟨not_loneByte_nil _, rfl⟩
  · rw [if_neg hnil]
    exact errorFigures_framesLoop env maxParseAttempts 0 ws.rxRing.queue _ frames hfit hqueue

/-! ## Reads and passes -/

/-- Bytes are read into the ring, or `process_frames` makes a pass over it. -/
inductive RxStep where
  | read (chunk : List UInt8)
  | pass

def RxStep.run (env : Env) (ws : WebSocket) : RxStep → WebSocket
  | .read chunk => ws.withRx (ws.rxRing.produce chunk)
  | .pass => processFrames env ws

/-- What a step reads. -/
def RxStep.bytes : RxStep → List UInt8
  | .read chunk => chunk
  | .pass => []

/-- A read fits in the writeable space and the readable region does not wrap. -/
def RxStep.Fits (ws : WebSocket) : RxStep → Prop
  | .read chunk =>
    chunk.length ≤ ringbufferWriteable ws.rxRing ∧ (ws.rxRing.produce chunk).Unwrapped
  | .pass => True

/-- A pass does not come to a single byte. -/
def RxStep.Clear (ws : WebSocket) : RxStep → Prop
  | .read _ => True
  | .pass => ¬LoneByte maxParseAttempts ws.rxRing.queue

/-- Nothing has been counted. -/
def WebSocket.Clean (ws : WebSocket) : Prop :=
  ws.frameParseErrors = 0 ∧ ws.metrics.errorsTotal = 0

theorem clean_iff : ws.Clean ↔ ws.errorFigures = (0, 0) := by
  rw [WebSocket.Clean, WebSocket.errorFigures, Prod.mk.injEq]

/-- From a clean state, a pass counts an error exactly if it comes to a single byte. -/
theorem clean_processFrames_iff (hclean : ws.Clean) (hvalid : ws.rxRing.Valid)
    (hun : ws.rxRing.Unwrapped) {frames : List WireFrame} (hfit : SizesFit frames)
    (hqueue : ws.rxRing.queue <+: encodeAll frames) :
    (processFrames env ws).Clean ↔ ¬LoneByte maxParseAttempts ws.rxRing.queue := by
  have hzero := clean_iff.mp hclean
  rw [clean_iff]
  rcases errorFigures_processFrames env hvalid hun hfit hqueue with
    ⟨hlone, hfigures⟩ | ⟨hnot, hfigures⟩
  · rw [hfigures, hzero]
    exact iff_of_false (by decide) (not_not.mpr hlone)
  · rw [hfigures]
    exact iff_of_true hzero hnot

theorem always_clean_iff (env : Env) {ws : WebSocket} {frames : List WireFrame}
    {steps : List RxStep} (hfit : SizesFit frames) (hclean : ws.Clean) (hvalid : ws.rxRing.Valid)
    (hun : ws.rxRing.Unwrapped)
    (hstream : ws.rxRing.queue ++ steps.flatMap RxStep.bytes <+: encodeAll frames)
    (hfits : Along (RxStep.run env) RxStep.Fits ws steps) :
    Always (RxStep.run env) WebSocket.Clean ws steps ↔
      Along (RxStep.run env) RxStep.Clear ws steps := by
  induction steps generalizing ws frames with
  | nil => exact iff_of_true (fun is his => by rwa [List.prefix_nil.mp his]) trivial
  | cons step steps ih =>
      rw [List.flatMap_cons, ← List.append_assoc] at hstream
      rw [always_cons, Along, and_iff_right hclean]
      cases step with
      | read chunk =>
          obtain ⟨⟨hroom, hun'⟩, hrest⟩ := hfits
          have hqueue := queue_produce hvalid chunk hroom
          rw [RxStep.bytes, ← hqueue] at hstream
          rw [RxStep.Clear, true_and]
          exact ih hfit hclean (hvalid.produce chunk) hun' hstream hrest
      | pass =>
          rw [RxStep.bytes, List.append_nil] at hstream
          have hqueue := (List.prefix_append _ _).trans hstream
          have hstep := clean_processFrames_iff env hclean hvalid hun hfit hqueue
          obtain ⟨done, pending, rfl, htakes, -, -⟩ :=
            processFrames_takes env hvalid hun hfit hqueue
          rw [htakes.queue_eq, List.append_assoc, encodeAll_append,
            List.prefix_append_right_inj] at hstream
          have hrest (hclean' : (processFrames env ws).Clean) :=
            ih hfit.right hclean' htakes.valid htakes.unwrapped hstream hfits.2
          constructor
          · intro halways
            have hclean' : (processFrames env ws).Clean := halways [] List.nil_prefix
            exact ⟨hstep.mp hclean', (hrest hclean').mp halways⟩
          · rintro ⟨hclear, halong⟩
            exact (hrest (hstep.mpr hclear)).mpr halong

/-- However well-formed frames are cut into reads that leave the readable region in one piece,
and whatever passes are made in between: no error is counted exactly if no pass comes to a
single byte, that is, finds fewer than a thousand whole frames and one byte more. The parser
asks for more of an incomplete frame exactly if that is not one byte. -/
theorem well_formed_traffic_clean_iff (env : Env) (ws : WebSocket) (frames : List WireFrame)
    (steps : List RxStep) (hsize : ∀ f ∈ frames, f.payload.length < 2 ^ 63) (hclean : ws.Clean)
    (hvalid : ws.rxRing.Valid) (hun : ws.rxRing.Unwrapped)
    (hcut : ws.rxRing.queue ++ steps.flatMap RxStep.bytes <+: encodeAll frames)
    (hfits : Along (RxStep.run env) RxStep.Fits ws steps) :
    (Always (RxStep.run env) (fun ws => ws.frameParseErrors = 0 ∧ ws.metrics.errorsTotal = 0) ws
        steps ↔
      Along (RxStep.run env) RxStep.Clear ws steps) ∧
      ∀ f ∈ frames, ∀ bs, bs ≠ [] → bs <+: f.encode → bs.length < f.size →
        (parseBytes bs = .needMore ↔ bs.length ≠ 1) := by
  have hfit := sizesFit_of_payload hsize
  refine ⟨always_clean_iff env hfit hclean hvalid hun hcut hfits, ?_⟩
  intro f hf bs hne hfront hlt
  have hpos := List.length_pos_iff.mpr hne
  rw [parseBytes_unfinished (sizesFit_singleton (hfit f hf)) ⟨hlt, hfront⟩]
  split_ifs with hshort
  · exact iff_of_false (by simp) (by omega)
  · exact iff_of_true rfl (by omega)

/-- The message `Hi`, cut behind its header, with two passes after each read. -/
theorem clean_cut_behind_header :
    Always (RxStep.run fun _ => {})
      (fun ws => ws.frameParseErrors = 0 ∧ ws.metrics.errorsTotal = 0) connectedWebSocket
      [.read [0x81, 0x02], .pass, .pass, .read [0x48, 0x69], .pass, .pass] := by
  let hi : WireFrame := ⟨true, 1, .short, none, [0x48, 0x69], by decide, by decide⟩
  have hbegun : Unfinished [0x81, 0x02] [hi] := ⟨by decide, [0x48, 0x69], rfl⟩
  have hheader : ¬LoneByte maxParseAttempts [0x81, 0x02] :=
    (loneByte_unfinished (n := 999) hbegun).not.mpr (by decide)
  have hwhole : ¬LoneByte maxParseAttempts [0x81, 0x02, 0x48, 0x69] :=
    (loneByte_encode_append (n := 999) hi []).not.mpr (not_loneByte_nil 999)
  refine (well_formed_traffic_clean_iff (fun _ => {}) connectedWebSocket [hi] _ (by decide)
    ⟨rfl, rfl⟩ ⟨by decide, by decide⟩ (by decide) ⟨[], rfl⟩ ?_).1.mpr ?_
  · exact ⟨⟨by decide, by decide⟩, trivial, trivial, ⟨by decide, by decide⟩, trivial, trivial,
      trivial⟩
  · exact ⟨trivial, hheader, hheader, trivial, hwhole, not_loneByte_nil _, trivial⟩

/-- The first byte of that message and two passes: each counts an error. -/
theorem first_byte_counts_as_error :
    let ws := [RxStep.read [0x81], .pass, .pass].foldl (RxStep.run fun _ => {}) connectedWebSocket
    parseBytes [0x81] = .error ∧ ws.frameParseErrors = 2 ∧ ws.metrics.errorsTotal = 2 := by
  decide

end WebSocketHft
