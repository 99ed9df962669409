import Mathlib.Algebra.Group.Nat.Defs
import Mathlib.Data.List.Induction
import Mathlib.Order.MinMax

/-! # Big-endian numbers

Natural numbers as byte strings of a fixed width, most significant byte first. -/

namespace WebSocketHft.BigEndian

/-- The number a byte string spells. -/
def ofBytes (bs : List UInt8) : ℕ :=
  bs.foldl (fun acc b => acc * 256 + b.toNat) 0

/-- The `n` low-order bytes of `k`. -/
def toBytes : ℕ → ℕ → List UInt8
  | 0, _ => []
  | n + 1, k => toBytes n (k / 256) ++ [UInt8.ofNat k]

@[simp] theorem toBytes_length (n k : ℕ) : (toBytes n k).length = n := by
  induction n generalizing k with
  | zero => rfl
  | succ n ih => simp [toBytes, ih]

theorem ofBytes_concat (bs : List UInt8) (b : UInt8) :
    ofBytes (bs ++ [b]) = ofBytes bs * 256 + b.toNat := by
  simp [ofBytes, List.foldl_append]

/-- The most significant byte counts for a power of 256. -/
theorem ofBytes_cons (b : UInt8) (bs : List UInt8) :
    ofBytes (b :: bs) = b.toNat * 256 ^ bs.length + ofBytes bs := by
  induction bs using List.reverseRecOn with
  | nil => simp [ofBytes]
  | append_singleton bs c ih =>
      rw [← List.cons_append, ofBytes_concat, ofBytes_concat, ih, List.length_append,
        List.length_singleton, Nat.pow_succ, Nat.add_mul, Nat.mul_assoc, Nat.add_assoc]

theorem ofBytes_lt (bs : List UInt8) : ofBytes bs < 256 ^ bs.length := by
  induction bs using List.reverseRecOn with
  | nil => decide
  | append_singleton bs b ih =>
      have hb := b.toNat_lt
      rw [ofBytes_concat, List.length_append, List.length_singleton, Nat.pow_succ]
      omega

/-- Writing a number and reading it back keeps what fits in the width. -/
theorem ofBytes_toBytes (n k : ℕ) : ofBytes (toBytes n k) = k % 256 ^ n := by
  induction n generalizing k with
  | zero => simp [toBytes, ofBytes, Nat.mod_one]
  | succ n ih =>
      have hbyte : (UInt8.ofNat k).toNat = k % 256 := by simp
      have hsplit : k % 256 ^ (n + 1) = k % 256 + 256 * (k / 256 % 256 ^ n) := by
        rw [Nat.pow_succ', Nat.mod_mul]
      rw [toBytes, ofBytes_concat, ih, hbyte, hsplit]
      omega

/-- Reading a number and writing it back in the same width. -/
theorem toBytes_ofBytes (bs : List UInt8) : toBytes bs.length (ofBytes bs) = bs := by
  induction bs using List.reverseRecOn with
  | nil => rfl
  | append_singleton bs b ih =>
      have hb := b.toNat_lt
      have hhigh : (ofBytes bs * 256 + b.toNat) / 256 = ofBytes bs := by omega
      have hlow : UInt8.ofNat (ofBytes bs * 256 + b.toNat) = b := by
        rw [← UInt8.toNat_inj, UInt8.toNat_ofNat']
        omega
      rw [ofBytes_concat, List.length_append, List.length_singleton, toBytes, hhigh, ih, hlow]

end WebSocketHft.BigEndian
