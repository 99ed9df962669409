import Mathlib.Data.List.Basic

/-! # Base64

Three bytes as four digits of six bits, with padding at the end, and back. -/

namespace WebSocketHft.Base64

/-- The character of a digit. -/
def digit (n : ℕ) : UInt8 :=
  if n < 26 then UInt8.ofNat (65 + n)
  else if n < 52 then UInt8.ofNat (71 + n)
  else if n < 62 then UInt8.ofNat (n - 4)
  else if n = 62 then 43
  else 47

/-- The character that fills up the last group. -/
def pad : UInt8 := 61

/-- The digit a character stands for. -/
def value (c : UInt8) : Option ℕ := (List.range 64).find? fun n => digit n = c

def encode : List UInt8 → List UInt8
  | [] => []
  | [a] => [digit (a.toNat / 4), digit (a.toNat % 4 * 16), pad, pad]
  | [a, b] =>
    [digit (a.toNat / 4), digit (a.toNat % 4 * 16 + b.toNat / 16), digit (b.toNat % 16 * 4), pad]
  | a :: b :: c :: rest =>
    digit (a.toNat / 4) :: digit (a.toNat % 4 * 16 + b.toNat / 16) ::
      digit (b.toNat % 16 * 4 + c.toNat / 64) :: digit (c.toNat % 64) :: encode rest

/-- The bytes of one group of four characters. -/
def decodeGroup (w x y z : UInt8) : Option (List UInt8) := do
  let w ← value w
  let x ← value x
  if y = pad ∧ z = pad then some [UInt8.ofNat (w * 4 + x / 16)]
  else
    let y ← value y
    if z = pad then some [UInt8.ofNat (w * 4 + x / 16), UInt8.ofNat (x % 16 * 16 + y / 4)]
    else
      let z ← value z
      some [UInt8.ofNat (w * 4 + x / 16), UInt8.ofNat (x % 16 * 16 + y / 4),
        UInt8.ofNat (y % 4 * 64 + z)]

def decode : List UInt8 → Option (List UInt8)
  | [] => some []
  | w :: x :: y :: z :: rest => do
    let bytes ← decodeGroup w x y z
    let more ← decode rest
    some (bytes ++ more)
  | _ => none

/-! ## Digits -/

theorem value_digit {n : ℕ} (h : n < 64) : value (digit n) = some n := by
  have hall : ∀ n < 64, value (digit n) = some n := by decide +kernel
  exact hall n h

theorem digit_ne_pad {n : ℕ} (h : n < 64) : digit n ≠ pad := by
  have hall : ∀ n < 64, digit n ≠ pad := by decide +kernel
  exact hall n h

/-! ## Groups -/

section Groups

variable {w x y z : ℕ} (hw : w < 64) (hx : x < 64)

include hw hx

theorem decodeGroup_pad_pad :
    decodeGroup (digit w) (digit x) pad pad = some [UInt8.ofNat (w * 4 + x / 16)] := by
  simp [decodeGroup, value_digit hw, value_digit hx]

theorem decodeGroup_pad (hy : y < 64) :
    decodeGroup (digit w) (digit x) (digit y) pad =
      some [UInt8.ofNat (w * 4 + x / 16), UInt8.ofNat (x % 16 * 16 + y / 4)] := by
  simp [decodeGroup, value_digit hw, value_digit hx, value_digit hy, digit_ne_pad hy]

theorem decodeGroup_digits (hy : y < 64) (hz : z < 64) :
    decodeGroup (digit w) (digit x) (digit y) (digit z) =
      some [UInt8.ofNat (w * 4 + x / 16), UInt8.ofNat (x % 16 * 16 + y / 4),
        UInt8.ofNat (y % 4 * 64 + z)] := by
  simp [decodeGroup, value_digit hw, value_digit hx, value_digit hy, value_digit hz,
    digit_ne_pad hz]

end Groups

theorem ofNat_eq {n : ℕ} {a : UInt8} (h : n = a.toNat) : UInt8.ofNat n = a := by
  rw [h, UInt8.ofNat_toNat]

/-- The group of a single last byte. -/
theorem decodeGroup_one (a : UInt8) :
    decodeGroup (digit (a.toNat / 4)) (digit (a.toNat % 4 * 16)) pad pad = some [a] := by
  have ha := a.toNat_lt
  rw [decodeGroup_pad_pad (by omega) (by omega), ofNat_eq (a := a) (by omega)]

/-- The group of two last bytes. -/
theorem decodeGroup_two (a b : UInt8) :
    decodeGroup (digit (a.toNat / 4)) (digit (a.toNat % 4 * 16 + b.toNat / 16))
      (digit (b.toNat % 16 * 4)) pad = some [a, b] := by
  have ha := a.toNat_lt
  have hb := b.toNat_lt
  rw [decodeGroup_pad (by omega) (by omega) (by omega), ofNat_eq (a := a) (by omega),
    ofNat_eq (a := b) (by omega)]

/-- A full group. -/
theorem decodeGroup_three (a b c : UInt8) :
    decodeGroup (digit (a.toNat / 4)) (digit (a.toNat % 4 * 16 + b.toNat / 16))
      (digit (b.toNat % 16 * 4 + c.toNat / 64)) (digit (c.toNat % 64)) = some [a, b, c] := by
  have ha := a.toNat_lt
  have hb := b.toNat_lt
  have hc := c.toNat_lt
  rw [decodeGroup_digits (by omega) (by omega) (by omega) (by omega), ofNat_eq (a := a) (by omega),
    ofNat_eq (a := b) (by omega), ofNat_eq (a := c) (by omega)]

/-! ## Whole strings -/

theorem length_encode (bs : List UInt8) : (encode bs).length = 4 * ((bs.length + 2) / 3) := by
  induction bs using encode.induct with
  | case1 => rfl
  | case2 a => simp [encode]
  | case3 a b => simp [encode]
  | case4 a b c rest ih =>
      simp only [encode, List.length_cons, ih]
      omega

/-- Decoding gives the bytes back. -/
theorem decode_encode (bs : List UInt8) : decode (encode bs) = some bs := by
  induction bs using encode.induct with
  | case1 => rfl
  | case2 a => simp [encode, decode, decodeGroup_one]
  | case3 a b => simp [encode, decode, decodeGroup_two]
  | case4 a b c rest ih => simp [encode, decode, decodeGroup_three, ih]

example : encode [0x4D, 0x61, 0x6E, 0x4D] = [84, 87, 70, 117, 84, 81, 61, 61] := by decide

end WebSocketHft.Base64
