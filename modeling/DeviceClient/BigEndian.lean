import DeviceClient.Power

namespace DeviceClient.BigEndian

/-- The lowest `width` bytes of a number. -/
def encode : (width : Nat) → Nat → List UInt8
  | 0, _ => []
  | width + 1, n => UInt8.ofNat (n / 256 ^ width) :: encode width n

def decode (bs : List UInt8) : Nat := bs.foldl (fun n b => 256 * n + b.toNat) 0

@[simp] theorem length_encode (width n : Nat) : (encode width n).length = width := by
  induction width with
  | zero => rfl
  | succ width ih => simp [encode, ih]

theorem foldl_encode (width n start : Nat) :
    (encode width n).foldl (fun n b => 256 * n + b.toNat) start =
      start * 256 ^ width + n % 256 ^ width := by
  induction width generalizing start with
  | zero => simp [encode, Nat.mod_one]
  | succ width ih =>
    have hmod : n % 256 ^ (width + 1) =
        (n / 256 ^ width % 256) * 256 ^ width + n % 256 ^ width := by
      rw [Nat.pow_succ, Nat.mod_mul, Nat.mul_comm (256 ^ width), Nat.add_comm]
    simp only [encode, List.foldl_cons, ih, UInt8.toNat_ofNat', hmod]
    rw [show (2 : Nat) ^ 8 = 256 by decide, Nat.pow_succ, Nat.add_mul, Nat.mul_comm 256 start,
      Nat.mul_assoc, Nat.mul_comm 256 (256 ^ width), Nat.add_assoc]

theorem decode_encode {width n : Nat} (h : n < 256 ^ width) : decode (encode width n) = n := by
  simp [decode, foldl_encode, Nat.mod_eq_of_lt h]

end DeviceClient.BigEndian
