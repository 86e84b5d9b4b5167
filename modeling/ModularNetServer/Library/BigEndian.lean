import Mathlib.Data.UInt

/-!
# Big-endian numbers

Numbers in a fixed count of bytes, the most significant byte first.
-/

namespace BigEndian

/-- The last `count` bytes of a number. -/
def encode : Nat → Nat → List UInt8
  | 0, _ => []
  | count + 1, n => encode count (n / 256) ++ [UInt8.ofNat n]

/-- Reading on from the number `v`. -/
def decodeFrom (v : Nat) (bytes : List UInt8) : Nat := bytes.foldl (fun v b => v * 256 + b.toNat) v

/-- The number that bytes stand for. -/
def decode (bytes : List UInt8) : Nat := decodeFrom 0 bytes

@[simp] theorem encode_length (count n : Nat) : (encode count n).length = count := by
  induction count generalizing n with
  | zero => rfl
  | succ count ih => simp [encode, ih]

theorem decode_encode (count n : Nat) : decode (encode count n) = n % 256 ^ count := by
  induction count generalizing n with
  | zero => simp [decode, decodeFrom, encode, Nat.mod_one]
  | succ count ih =>
    have hstep : decode (encode (count + 1) n) = decode (encode count (n / 256)) * 256 + n % 256 := by
      simp [decode, decodeFrom, encode, List.foldl_append]
    rw [hstep, ih, Nat.pow_succ, Nat.mul_comm (256 ^ count) 256, Nat.mod_mul]
    omega

theorem decode_encode_of_lt {count n : Nat} (h : n < 256 ^ count) : decode (encode count n) = n := by
  rw [decode_encode, Nat.mod_eq_of_lt h]

theorem decodeFrom_lt (bytes : List UInt8) {v count : Nat} (hv : v < 256 ^ count) :
    decodeFrom v bytes < 256 ^ (count + bytes.length) := by
  induction bytes generalizing v count with
  | nil => simpa [decodeFrom] using hv
  | cons b bytes ih =>
    have hb : b.toNat < 256 := b.toNat_lt
    have hnext : v * 256 + b.toNat < 256 ^ (count + 1) := by
      rw [Nat.pow_succ]
      omega
    have h := ih hnext
    rw [List.length_cons, show count + (bytes.length + 1) = count + 1 + bytes.length by omega]
    exact h

theorem decode_lt (bytes : List UInt8) : decode bytes < 256 ^ bytes.length := by
  have h := @decodeFrom_lt bytes 0 0 (by simp)
  rwa [Nat.zero_add] at h

end BigEndian
