import Mathlib.Data.Nat.Basic
import Mathlib.Tactic.Ring

/-! # Fixed-width little-endian numbers

`encode k n` is the `k`-byte little-endian form of `n`, and `decode` reads such a
form back.  A number that does not fit is cut to its low `k` bytes, as a store to
a `k`-byte unsigned integer does.
-/
namespace LittleEndian

/-- The low `k` bytes of `n`, least significant first. -/
def encode : Nat → Nat → List UInt8
  | 0, _ => []
  | k + 1, n => UInt8.ofNat n :: encode k (n / 256)

/-- The number a list of bytes stands for, least significant byte first. -/
def decode : List UInt8 → Nat
  | [] => 0
  | b :: bs => b.toNat + 256 * decode bs

@[simp] theorem length_encode (k n : Nat) : (encode k n).length = k := by
  induction k generalizing n with
  | zero => rfl
  | succ k ih => simp [encode, ih]

/-- **Reading back a stored number gives it modulo the width.** -/
theorem decode_encode (k n : Nat) : decode (encode k n) = n % 256 ^ k := by
  induction k generalizing n with
  | zero => simp [encode, decode, Nat.mod_one]
  | succ k ih =>
      have hlow : (UInt8.ofNat n).toNat = n % 256 := by simp
      rw [encode, decode, ih, hlow, Nat.pow_succ, Nat.mul_comm (256 ^ k) 256, Nat.mod_mul]

theorem decode_encode_of_lt {k n : Nat} (h : n < 256 ^ k) : decode (encode k n) = n := by
  rw [decode_encode, Nat.mod_eq_of_lt h]

theorem decode_lt (bs : List UInt8) : decode bs < 256 ^ bs.length := by
  induction bs with
  | nil => simp [decode]
  | cons b bs ih =>
      have hb : b.toNat < 256 := b.toNat_lt
      rw [decode, List.length_cons, Nat.pow_succ]
      omega

/-- **Storing a number that was read gives its bytes.** -/
theorem encode_decode (bs : List UInt8) : encode bs.length (decode bs) = bs := by
  induction bs with
  | nil => rfl
  | cons b bs ih =>
      have hb : b.toNat < 256 := b.toNat_lt
      have hlow : UInt8.ofNat (b.toNat + 256 * decode bs) = b := by
        apply UInt8.toNat_inj.mp
        rw [UInt8.toNat_ofNat']
        omega
      have hhigh : (b.toNat + 256 * decode bs) / 256 = decode bs := by omega
      rw [List.length_cons, decode, encode, hlow, hhigh, ih]

theorem encode_decode_of_length {k : Nat} {bs : List UInt8} (h : bs.length = k) :
    encode k (decode bs) = bs := by
  rw [← h, encode_decode]

/-- **Reading a stored number out of the middle of a buffer.** -/
theorem decode_at {k n : Nat} (h : n < 256 ^ k) (before after : List UInt8) :
    decode (((before ++ (encode k n ++ after)).drop before.length).take k) = n := by
  rw [List.drop_left, List.take_left' (length_encode k n), decode_encode_of_lt h]

end LittleEndian
