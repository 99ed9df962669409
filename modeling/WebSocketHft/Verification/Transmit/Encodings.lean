import WebSocketHft.Verification.Frames.Taking
import WebSocketHft.Verification.Transmit.Calls

/-! # The frames that are sent

The three functions that build frames write the encodings of final frames, each in the
shortest form. Only `websocket_send_pong` masks what it sends. -/

namespace WebSocketHft

open WebSocketHft.BigEndian

/-! ## Encodings -/

/-- The shortest form for a payload length. -/
def shortestForm (n : ℕ) : LengthForm :=
  if n < 126 then .short else if n < 65536 then .medium else .long

theorem lt_limit_shortestForm {n : ℕ} (h : n < 2 ^ 64) : n < (shortestForm n).limit := by
  unfold shortestForm
  split_ifs with hshort hmedium
  · exact hshort
  · exact hmedium
  · exact h

/-- The frame `websocket_send` sends. -/
def sentFrame (isText : Bool) (data : List UInt8) (h : data.length < 2 ^ 64) : WireFrame where
  fin := true
  opcode := if isText then wsOpcodeText else wsOpcodeBinary
  form := shortestForm data.length
  maskingKey := none
  payload := data
  opcode_lt := by cases isText <;> decide
  length_lt := lt_limit_shortestForm h

theorem encode_sentFrame (isText : Bool) (data : List UInt8) (h : data.length < 2 ^ 64) :
    (sentFrame isText data h).encode = sendHeader isText data.length ++ data := by
  have hbyte0 : (sentFrame isText data h).byte0 =
      0x80 ||| (if isText then wsOpcodeText else wsOpcodeBinary) := by
    cases isText with
    | false =>
        change UInt8.ofNat (128 + wsOpcodeBinary.toNat) = 0x80 ||| wsOpcodeBinary
        decide
    | true =>
        change UInt8.ofNat (128 + wsOpcodeText.toNat) = 0x80 ||| wsOpcodeText
        decide
  rw [WireFrame.encode_cons, hbyte0]
  change _ :: UInt8.ofNat (0 + (shortestForm data.length).code data.length) ::
    (toBytes (shortestForm data.length).width data.length ++ ([] ++ data)) = _
  unfold sendHeader shortestForm
  dsimp only
  split_ifs <;> simp [LengthForm.code, LengthForm.width, toBytes]

/-- The frame `websocket_send_pong` sends. -/
def pongFrame (key : MaskingKey) (payload : List UInt8) (h : payload.length < 2 ^ 64) :
    WireFrame where
  fin := true
  opcode := wsOpcodePong
  form := shortestForm payload.length
  maskingKey := some key
  payload := payload
  opcode_lt := by decide
  length_lt := lt_limit_shortestForm h

theorem highBit_or_ofNat {n : ℕ} (h : n < 128) :
    (0x80 : UInt8) ||| UInt8.ofNat n = UInt8.ofNat (128 + n) := by
  have hor := Nat.two_pow_add_eq_or_of_lt (i := 7) h 1
  rw [← UInt8.toNat_inj, UInt8.toNat_or]
  simp only [UInt8.toNat_ofNat', UInt8.reduceToNat]
  rw [Nat.mod_eq_of_lt (by omega), Nat.mod_eq_of_lt (by omega)]
  exact hor.symm

theorem encode_pongFrame (key : MaskingKey) (payload : List UInt8) (h : payload.length < 2 ^ 64) :
    (pongFrame key payload h).encode =
      pongHeader key payload.length ++ xorKey key payload := by
  have hbyte0 : (pongFrame key payload h).byte0 = 0x80 ||| wsOpcodePong := by
    change UInt8.ofNat (128 + wsOpcodePong.toNat) = 0x80 ||| wsOpcodePong
    decide
  rw [WireFrame.encode_cons, hbyte0]
  change _ :: UInt8.ofNat (128 + (shortestForm payload.length).code payload.length) ::
    (toBytes (shortestForm payload.length).width payload.length ++
      (key.bytes ++ xorKey key payload)) = _
  unfold pongHeader shortestForm
  dsimp only
  split_ifs with hshort hmedium
  · have hlow := highBit_or_ofNat (show payload.length < 128 by omega)
    simp [LengthForm.code, LengthForm.width, toBytes, hlow]
  · simp [LengthForm.code, LengthForm.width]
    rfl
  · simp [LengthForm.code, LengthForm.width]
    rfl

/-- The first byte of a pong. -/
def pongByte0 : UInt8 := 0x80 ||| wsOpcodePong

/-! ## Frames of a client -/

/-- The last frame of its message, and data, a ping or a pong. -/
structure WireFrame.FromClient (f : WireFrame) : Prop where
  fin : f.fin = true
  opcode : f.opcode = wsOpcodeText ∨ f.opcode = wsOpcodeBinary ∨ f.opcode = wsOpcodePing ∨
    f.opcode = wsOpcodePong

/-- A header that `websocket_send` builds. -/
def DataHeader (header : List UInt8) : Prop :=
  header.head? = some (0x80 ||| wsOpcodeText) ∨ header.head? = some (0x80 ||| wsOpcodeBinary)

instance (header : List UInt8) : Decidable (DataHeader header) := inferInstanceAs (Decidable (_ ∨ _))

theorem dataHeader_sendHeader (isText : Bool) (len : ℕ) : DataHeader (sendHeader isText len) := by
  have hhead : (sendHeader isText len).head? =
      some (0x80 ||| if isText then wsOpcodeText else wsOpcodeBinary) := by
    unfold sendHeader
    dsimp only
    split
    · rfl
    · split <;> rfl
  cases isText with
  | false => exact Or.inr hhead
  | true => exact Or.inl hhead

theorem head_pongHeader (key : MaskingKey) (len : ℕ) :
    (pongHeader key len).head? = some pongByte0 := by
  unfold pongHeader
  dsimp only
  split_ifs <;> rfl

theorem not_dataHeader_pongHeader (key : MaskingKey) (len : ℕ) :
    ¬DataHeader (pongHeader key len) := by
  rw [DataHeader, head_pongHeader]
  decide

/-- The bytes of a frame have the mask bit set and carry a key, with which each byte of the clear
payload has been combined. -/
def MaskedBytes (header payload clear : List UInt8) : Prop :=
  ∃ byte0 byte1 lengthBytes, ∃ key : MaskingKey,
    header = byte0 :: byte1 :: (lengthBytes ++ key.bytes) ∧ 0x80 ≤ byte1 ∧
      payload = xorKey key clear

theorem MaskedBytes.byte1 {byte0 byte1 : UInt8} {rest payload clear : List UInt8}
    (h : MaskedBytes (byte0 :: byte1 :: rest) payload clear) : 0x80 ≤ byte1 := by
  obtain ⟨_, _, _, _, hheader, hmask, -⟩ := h
  cases hheader
  exact hmask

/-- The frame that header and payload encode. -/
structure Encodes (header payload clear : List UInt8) (f : WireFrame) : Prop where
  encode_eq : header ++ payload = f.encode
  kind : f.FromClient
  clear_eq : f.payload = clear
  mask_iff : f.maskingKey.isSome ↔ header.head? = some pongByte0
  message : payloadsOf [f] = if DataHeader header then [payload] else []

/-- A frame as it is built: its bytes are masked exactly when it is a pong, and so is the frame
they encode. -/
structure Built (header payload clear : List UInt8) : Prop where
  masked_iff : MaskedBytes header payload clear ↔ header.head? = some pongByte0
  frame : payload.length < 2 ^ 64 → ∃ f, Encodes header payload clear f

theorem built_sendHeader (isText : Bool) (data : List UInt8) :
    Built (sendHeader isText data.length) data data := by
  have hhead : ¬(sendHeader isText data.length).head? = some pongByte0 := by
    unfold sendHeader
    cases isText <;> split_ifs <;> exact ne_of_beq_false rfl
  refine ⟨iff_of_false ?_ hhead, fun hlt => ⟨sentFrame isText data hlt, ?_⟩⟩
  · unfold sendHeader
    dsimp only
    generalize 0x80 ||| (if isText then wsOpcodeText else wsOpcodeBinary) = byte0
    split_ifs with hshort hmedium
    · intro hmasked
      have hbyte : 128 ≤ (UInt8.ofNat data.length).toNat := UInt8.le_iff_toNat_le.mp hmasked.byte1
      rw [UInt8.toNat_ofNat_of_lt' (by simp [UInt8.size]; omega)] at hbyte
      omega
    · exact fun hmasked => absurd hmasked.byte1 (by decide)
    · exact fun hmasked => absurd hmasked.byte1 (by decide)
  · refine ⟨(encode_sentFrame isText data hlt).symm, ?_, rfl,
      iff_of_false Bool.false_ne_true hhead, ?_⟩
    · cases isText with
      | false => exact ⟨rfl, Or.inr (Or.inl rfl)⟩
      | true => exact ⟨rfl, Or.inl rfl⟩
    · rw [if_pos (dataHeader_sendHeader isText data.length)]
      cases isText <;> rfl

theorem built_pongHeader (key : MaskingKey) (payload : List UInt8) :
    Built (pongHeader key payload.length) (xorKey key payload) payload := by
  have hhead := head_pongHeader key payload.length
  refine ⟨iff_of_true ?_ hhead, ?_⟩
  · unfold pongHeader
    dsimp only
    split_ifs with hshort hmedium
    · have hbyte : (0x80 : UInt8) ≤ 0x80 ||| UInt8.ofNat payload.length := by
        rw [highBit_or_ofNat (by omega), UInt8.le_iff_toNat_le,
          UInt8.toNat_ofNat_of_lt' (by simp [UInt8.size]; omega)]
        exact Nat.le_add_right _ _
      exact ⟨_, _, [], key, rfl, hbyte, rfl⟩
    · exact ⟨_, _, toBytes 2 payload.length, key, rfl, by decide, rfl⟩
    · exact ⟨_, _, toBytes 8 payload.length, key, rfl, by decide, rfl⟩
  · intro hlt
    rw [length_xorKey] at hlt
    refine ⟨pongFrame key payload hlt, (encode_pongFrame key payload hlt).symm,
      ⟨rfl, Or.inr (Or.inr (Or.inr rfl))⟩, rfl, iff_of_true rfl hhead, ?_⟩
    rw [if_neg (not_dataHeader_pongHeader key payload.length)]
    rfl

/-- The ping of the heartbeat. -/
def pingWireFrame : WireFrame :=
  ⟨true, wsOpcodePing, .short, none, [], by decide, LengthForm.limit_pos .short⟩

theorem built_pingFrame : Built pingFrame [] [] := by
  have hhead : ¬pingFrame.head? = some pongByte0 := by decide
  refine ⟨iff_of_false ?_ hhead, fun _ => ⟨pingWireFrame, rfl, ⟨rfl, Or.inr (Or.inr (Or.inl rfl))⟩,
    rfl, iff_of_false Bool.false_ne_true hhead, rfl⟩⟩
  exact fun hmasked => absurd hmasked.byte1 (by decide)

end WebSocketHft
