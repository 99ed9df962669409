import WebSocketHft.Shared.Fragments
import WebSocketHft.Verification.Frames.Delivery

/-! # Messages of several frames

A peer may send a message as a TEXT or BINARY frame followed by CONTINUATION frames, with
control frames between them. `process_frames` has no case for CONTINUATION, and none for a
missing FIN: every TEXT and BINARY frame is handed over as it is. -/

namespace WebSocketHft

open WebSocketHft.Fragments

/-- `WS_OPCODE_CONT`. -/
def wsOpcodeCont : UInt8 := 0x0

/-- What a frame is to the messages of its sender. -/
def WireFrame.fragment (f : WireFrame) : Fragment UInt8 :=
  if f.isMessage then .first f.fin f.payload
  else if f.opcode = wsOpcodeCont then .further f.fin f.payload
  else .other

/-- The messages a peer sends with these frames. -/
def messagesSent (frames : List WireFrame) : List (List UInt8) :=
  assemble none (frames.map WireFrame.fragment)

/-- The frames are those of whole messages, one after the other. -/
def WholeMessages (frames : List WireFrame) : Prop :=
  Orderly false (frames.map WireFrame.fragment)

theorem firsts_fragments (frames : List WireFrame) :
    firsts (frames.map WireFrame.fragment) = payloadsOf frames := by
  induction frames with
  | nil => rfl
  | cons f fs ih =>
      rw [List.map_cons, WireFrame.fragment]
      split_ifs with hmessage hcontinuation
      · simpa [firsts, payloadsOf, hmessage] using ih
      · simpa [firsts, payloadsOf, hmessage] using ih
      · simpa [firsts, payloadsOf, hmessage] using ih

theorem allInFirst_fragments {frames : List WireFrame} :
    AllInFirst (frames.map WireFrame.fragment) ↔
      ∀ f ∈ frames, f.opcode = wsOpcodeCont → f.payload = [] := by
  have hfragment (f : WireFrame) (last : Bool) (piece : List UInt8) :
      f.fragment = .further last piece ↔
        f.opcode = wsOpcodeCont ∧ f.fin = last ∧ f.payload = piece := by
    unfold WireFrame.fragment
    split_ifs with hmessage hcontinuation
    · have hother : f.opcode ≠ wsOpcodeCont := by
        rintro hzero
        simp [WireFrame.isMessage, hzero, wsOpcodeCont, wsOpcodeText,
          wsOpcodeBinary] at hmessage
      simp [hother]
    · simp [hcontinuation]
    · simp [hcontinuation]
  constructor
  · intro h f hf hcontinuation
    exact h f.fin f.payload (List.mem_map.mpr ⟨f, hf, (hfragment f _ _).mpr ⟨hcontinuation, rfl, rfl⟩⟩)
  · intro h last piece hmem
    obtain ⟨f, hf, heq⟩ := List.mem_map.mp hmem
    obtain ⟨hcontinuation, -, rfl⟩ := (hfragment f last piece).mp heq
    exact h f hf hcontinuation

/-- However the frames of whole messages are cut, the application gets for every message, in
order, the payload of its first frame, which is a front part of it; and it gets the messages
themselves exactly if no CONTINUATION frame carries a byte. -/
theorem fragments_not_joined (env : Env) (ws : WebSocket) (frames : List WireFrame)
    (chunks : List (List UInt8)) (henv : ∀ t, ApiCall.close ∉ (env t).calls)
    (hmsg : ws.onMessage = true) (hvalid : ws.rxRing.Valid) (hempty : ws.rxRing.queue = [])
    (hclose : ∀ f ∈ frames, f.opcode ≠ wsOpcodeClose) (hsize : SizesFit frames)
    (hwhole : WholeMessages frames) (hcut : chunks.flatten = encodeAll frames)
    (hchunks : ChunksFit env ws chunks) :
    messagesOf (chunks.foldl (arrive env) ws).trace = messagesOf ws.trace ++ payloadsOf frames ∧
      List.Forall₂ (· <+: ·) (payloadsOf frames) (messagesSent frames) ∧
      (payloadsOf frames = messagesSent frames ↔
        ∀ f ∈ frames, f.opcode = wsOpcodeCont → f.payload = []) := by
  have hstream : ws.rxRing.queue ++ chunks.flatten = encodeAll frames := by
    rw [hempty, List.nil_append, hcut]
  have hleft : Unfinished ws.rxRing.queue frames := by
    rw [hempty]
    exact unfinished_nil frames
  obtain ⟨hdelivers, -⟩ := run_handles henv chunks hmsg hvalid hsize hclose hstream hleft hchunks
  obtain ⟨hfront, heq⟩ := (firsts_spec (frames.map WireFrame.fragment)).1 hwhole
  rw [firsts_fragments] at hfront heq
  exact ⟨hdelivers.messages, hfront, heq.trans allInFirst_fragments⟩

/-- "Hello" in two frames with a PING between them: the application gets "Hel". -/
theorem fragments_of_hello :
    messagesOf ([[0x01, 3, 0x48, 0x65, 0x6C, 0x89, 0], [0x80, 2, 0x6C, 0x6F]].foldl
        (arrive fun _ => {}) connectedWebSocket).trace = [[0x48, 0x65, 0x6C]] ∧
      List.Forall₂ (· <+: ·) [([0x48, 0x65, 0x6C] : List UInt8)]
        [[0x48, 0x65, 0x6C, 0x6C, 0x6F]] := by
  have h := fragments_not_joined (fun _ => {}) connectedWebSocket
    [⟨false, 1, .short, none, [0x48, 0x65, 0x6C], by decide, by decide⟩,
      ⟨true, 9, .short, none, [], by decide, by decide⟩,
      ⟨true, 0, .short, none, [0x6C, 0x6F], by decide, by decide⟩]
    [[0x01, 3, 0x48, 0x65, 0x6C, 0x89, 0], [0x80, 2, 0x6C, 0x6F]] (by simp) rfl
    ⟨by decide, by decide⟩ (by decide) (by decide) (by unfold SizesFit; decide)
    ⟨rfl, rfl, rfl⟩ (by decide)
    (by refine ⟨by decide, by decide, by decide, by decide, trivial⟩)
  exact ⟨h.1, h.2.1⟩

end WebSocketHft
