import WebSocketHft.Verification.Frames.Semantics
import WebSocketHft.Verification.Parser.Wire

/-! # The front of a stream of frames

A peer sends encodings one after the other; what has arrived so far is some
front part of them. The front part is cut up by the parser at the borders of the
frames and nowhere else. -/

namespace WebSocketHft

open WebSocketHft.Memory

/-- The bytes of a list of frames. -/
def encodeAll (frames : List WireFrame) : List UInt8 := frames.flatMap WireFrame.encode

@[simp] theorem encodeAll_nil : encodeAll [] = [] := rfl

@[simp] theorem encodeAll_cons (f : WireFrame) (fs : List WireFrame) :
    encodeAll (f :: fs) = f.encode ++ encodeAll fs := List.flatMap_cons

theorem encodeAll_singleton (f : WireFrame) : encodeAll [f] = f.encode := by
  rw [encodeAll_cons, encodeAll_nil, List.append_nil]

theorem encodeAll_append (fs gs : List WireFrame) :
    encodeAll (fs ++ gs) = encodeAll fs ++ encodeAll gs := List.flatMap_append

theorem encodeAll_length_eq_zero {fs : List WireFrame} :
    (encodeAll fs).length = 0 ↔ fs = [] := by
  cases fs with
  | nil => simp
  | cons f fs =>
      have hsize := f.two_le_size
      rw [encodeAll_cons, List.length_append, f.encode_length]
      simp only [List.cons_ne_nil, iff_false]
      omega

/-- No frame of the list is too long for its size to be a `size_t`. -/
def SizesFit (frames : List WireFrame) : Prop := ∀ f ∈ frames, f.size < 2 ^ 64

theorem SizesFit.tail {f : WireFrame} {fs : List WireFrame} (h : SizesFit (f :: fs)) :
    SizesFit fs := fun g hg => h g (List.mem_cons_of_mem f hg)

theorem SizesFit.head_lt {f : WireFrame} {fs : List WireFrame} (h : SizesFit (f :: fs)) :
    f.size < 2 ^ 64 := h f List.mem_cons_self

theorem sizesFit_singleton {f : WireFrame} (h : f.size < 2 ^ 64) : SizesFit [f] := by
  intro g hg
  rwa [List.mem_singleton.mp hg]

theorem SizesFit.right {fs gs : List WireFrame} (h : SizesFit (fs ++ gs)) : SizesFit gs :=
  fun g hg => h g (List.mem_append_right fs hg)

/-- A frame is well formed if its length has the top bit clear. -/
theorem sizesFit_of_payload {fs : List WireFrame} (h : ∀ f ∈ fs, f.payload.length < 2 ^ 63) :
    SizesFit fs := by
  intro f hf
  have hpayload := h f hf
  have hwidth : f.form.width ≤ 8 := by cases f.form <;> decide
  have hheader : f.headerSize ≤ 14 := by
    unfold WireFrame.headerSize
    split_ifs <;> omega
  rw [WireFrame.size]
  omega

/-! ## Where the front part ends -/

/-- What has arrived does not hold the first frame yet. -/
def Unfinished (bs : List UInt8) : List WireFrame → Prop
  | [] => bs = []
  | f :: _ => bs.length < f.size ∧ bs <+: f.encode

theorem unfinished_nil (frames : List WireFrame) : Unfinished [] frames := by
  cases frames with
  | nil => rfl
  | cons f fs => exact ⟨Nat.lt_of_lt_of_le (by decide) f.two_le_size, List.nil_prefix⟩

/-- Either the first frame has arrived whole or it is unfinished. -/
theorem stream_cases {bs : List UInt8} {frames : List WireFrame} (h : bs <+: encodeAll frames) :
    Unfinished bs frames ∨
      ∃ f fs rest, frames = f :: fs ∧ bs = f.encode ++ rest ∧ rest <+: encodeAll fs := by
  cases frames with
  | nil => exact Or.inl (List.prefix_nil.mp h)
  | cons f fs =>
      rw [encodeAll_cons] at h
      have hfirst := List.prefix_append f.encode (encodeAll fs)
      rcases Nat.lt_or_ge bs.length f.size with hlt | hge
      · left
        refine ⟨hlt, List.prefix_of_prefix_length_le h hfirst ?_⟩
        rw [WireFrame.encode_length]
        exact hlt.le
      · right
        have hwhole : f.encode <+: bs := by
          apply List.prefix_of_prefix_length_le hfirst h
          rw [WireFrame.encode_length]
          exact hge
        obtain ⟨rest, rfl⟩ := hwhole
        exact ⟨f, fs, rest, rfl, rfl, (List.prefix_append_right_inj _).mp h⟩

/-! ## What the parser makes of it -/

theorem load_bytesAt_take (bs : List UInt8) {n : ℕ} (hn : n ≤ bs.length) :
    load (bytesAt bs) 0 n = bs.take n := by
  have h := load_take (bytesAt bs) 0 bs.length n hn
  rwa [load_bytesAt, eq_comm] at h

/-- A stream of frames can be cut into frames in one way only. -/
theorem encode_append_inj {f g : WireFrame} {xs ys : List UInt8}
    (h : f.encode ++ xs = g.encode ++ ys) :
    f.maskingKey.isSome = g.maskingKey.isSome ∧ xs = ys := by
  have hload {f : WireFrame} {xs bs : List UInt8} (h : f.encode ++ xs = bs) :
      load (bytesAt bs) 0 f.size = f.encode := by
    have hle : f.size ≤ bs.length := by
      rw [← h, List.length_append, f.encode_length]
      exact Nat.le_add_right _ _
    rw [load_bytesAt_take bs hle, ← h, List.take_left' f.encode_length]
  obtain ⟨hsize, hmask⟩ := WireFrame.size_unique (hload h) (hload rfl)
  refine ⟨hmask, (List.append_inj h ?_).2⟩
  rw [f.encode_length, g.encode_length, hsize]

theorem parseBytes_encode {f : WireFrame} (hsize : f.size < 2 ^ 64) (rest : List UInt8) :
    parseBytes (f.encode ++ rest) = .ok f.parsed := by
  have hle : f.size ≤ (f.encode ++ rest).length := by simp
  apply WireFrame.parse_encode _ hle hsize
  rw [load_bytesAt_take _ hle, List.take_left' f.encode_length]

theorem parseBytes_unfinished {bs : List UInt8} {frames : List WireFrame}
    (hfit : SizesFit frames) (h : Unfinished bs frames) :
    parseBytes bs = if bs.length < 2 then .error else .needMore := by
  cases frames with
  | nil =>
      obtain rfl : bs = [] := h
      rfl
  | cons f fs =>
      obtain ⟨hlt, hfront⟩ := h
      apply WireFrame.parse_partial _ hlt hfit.head_lt
      rw [load_bytesAt]
      exact List.prefix_iff_eq_take.mp hfront

@[simp] theorem frameSize_parsed {f : WireFrame} (hsize : f.size < 2 ^ 64) :
    f.parsed.frameSize = f.size := Nat.mod_eq_of_lt hsize

theorem xorKey_xorKey (key : MaskingKey) (bs : List UInt8) :
    xorKey key (xorKey key bs) = bs := by
  apply List.ext_getElem? fun i => ?_
  simp only [xorKey, List.getElem?_mapIdx, Option.map_map]
  cases bs[i]? with
  | none => rfl
  | some b =>
      simp only [Option.map_some, Function.comp_apply, UInt8.xor_assoc, UInt8.xor_self,
        UInt8.xor_zero]

/-- The application sees the payload that was sent, masked or not. -/
theorem framePayload_encode (f : WireFrame) (rest : List UInt8) :
    framePayload f.parsed (f.encode ++ rest) = f.payload := by
  have hraw : ((f.encode ++ rest).drop f.headerSize).take f.payload.length = f.body := by
    rw [WireFrame.encode, List.append_assoc, List.drop_left' f.header_length,
      List.take_left' f.body_length]
  change (if f.parsed.mask ≠ 0 then
    xorKey f.parsed.maskingKey (((f.encode ++ rest).drop f.headerSize).take f.payload.length)
    else ((f.encode ++ rest).drop f.headerSize).take f.payload.length) = f.payload
  rw [hraw]
  unfold WireFrame.parsed WireFrame.body
  cases f.maskingKey with
  | none => rfl
  | some key => exact xorKey_xorKey key f.payload

/-! ## No length wraps -/

theorem not_lengthWraps_of_agree {f : WireFrame} {bs : List UInt8} (hsize : f.size < 2 ^ 64)
    (h : bs.take f.size = f.encode.take bs.length) : ¬LengthWraps (bytesAt bs) bs.length := by
  intro hwraps
  obtain ⟨hheader, hge⟩ := lengthWraps_iff.mp hwraps
  have hload : load (bytesAt bs) 0 (min bs.length f.size) =
      f.encode.take (min bs.length f.size) := by
    rw [load_bytesAt_take _ (min_le_left _ _), ← List.take_take, ← List.take_take, h,
      List.take_take, min_self, List.take_of_length_le f.encode_length.le]
  have htwo := two_le_headerBytes (bytesAt bs)
  have hsizes : f.headerSize ≤ f.size := Nat.le_add_right _ _
  have h1 := WireFrame.data_one hload (lt_min (by omega) f.two_le_size)
  rw [WireFrame.headerBytes_eq h1] at hheader hge
  have hbytes := WireFrame.load_length_bytes hload
    (le_min (by unfold WireFrame.headerSize at hheader; omega)
      (by unfold WireFrame.headerSize at hsizes; omega))
  rw [WireFrame.announcedLength_eq h1 hbytes] at hge
  exact absurd hsize (not_lt.mpr hge)

theorem not_lengthWraps_of_stream {bs : List UInt8} {frames : List WireFrame}
    (hfit : SizesFit frames) (h : bs <+: encodeAll frames) :
    ¬LengthWraps (bytesAt bs) bs.length := by
  rcases stream_cases h with hun | ⟨f, fs, rest, rfl, rfl, -⟩
  · cases frames with
    | nil =>
        obtain rfl : bs = [] := hun
        rintro ⟨-, hheader, -⟩
        split_ifs at hheader <;> simp at hheader
    | cons f fs =>
        apply not_lengthWraps_of_agree hfit.head_lt
        rw [List.take_of_length_le hun.1.le]
        exact List.prefix_iff_eq_take.mp hun.2
  · apply not_lengthWraps_of_agree hfit.head_lt
    rw [List.take_left' f.encode_length, List.take_of_length_le (by simp)]

/-- Frame starts inside a front part are front parts of what the peer still has to say. -/
theorem FrameStart.stream {bs cs : List UInt8} (h : FrameStart bs cs) {frames : List WireFrame}
    (hfit : SizesFit frames) (hbs : bs <+: encodeAll frames) :
    ∃ pending, SizesFit pending ∧ cs <+: encodeAll pending := by
  induction h with
  | here => exact ⟨frames, hfit, hbs⟩
  | next _ hparse ih =>
      obtain ⟨pending, hpending, hfront⟩ := ih
      rcases stream_cases hfront with hun | ⟨f, fs, rest, rfl, rfl, hrest⟩
      · rw [parseBytes_unfinished hpending hun] at hparse
        split_ifs at hparse
      · rw [parseBytes_encode hpending.head_lt] at hparse
        cases hparse
        refine ⟨fs, hpending.tail, ?_⟩
        rwa [frameSize_parsed hpending.head_lt, List.drop_left' f.encode_length]

theorem lengthsFit_of_stream {bs : List UInt8} {frames : List WireFrame} (hfit : SizesFit frames)
    (h : bs <+: encodeAll frames) : LengthsFit bs := by
  intro rest hstart
  obtain ⟨pending, hpending, hfront⟩ := hstart.stream hfit h
  exact not_lengthWraps_of_stream hpending hfront

end WebSocketHft
