import Mathlib.Tactic.Ring
import Mathlib.Tactic.NormNum

/-!
# Fixed-width big-endian integers

One encoder at every width: the octets determine the value below `256 ^ width`, and the value the
octets once their number is known.
-/

namespace BigEndian

def toBytes : Nat → Nat → List UInt8
  | 0, _ => []
  | width + 1, value => UInt8.ofNat (value / 256 ^ width) :: toBytes width value

def ofBytes : List UInt8 → Nat
  | [] => 0
  | octet :: rest => octet.toNat * 256 ^ rest.length + ofBytes rest

@[simp]
theorem length_toBytes (width value : Nat) : (toBytes width value).length = width := by
  induction width with
  | zero => rfl
  | succ width ih => simp [toBytes, ih]

theorem ofBytes_lt (octets : List UInt8) : ofBytes octets < 256 ^ octets.length := by
  induction octets with
  | nil => simp [ofBytes]
  | cons octet rest ih =>
    have hoctet : octet.toNat ≤ 255 := Nat.lt_succ_iff.mp octet.toNat_lt
    have hmul : octet.toNat * 256 ^ rest.length ≤ 255 * 256 ^ rest.length :=
      Nat.mul_le_mul_right _ hoctet
    rw [ofBytes, List.length_cons, pow_succ]
    omega

theorem ofBytes_toBytes (width value : Nat) :
    ofBytes (toBytes width value) = value % 256 ^ width := by
  induction width with
  | zero => simp [toBytes, ofBytes, Nat.mod_one]
  | succ width ih =>
    rw [toBytes, ofBytes, ih, length_toBytes]
    have hdigit : (UInt8.ofNat (value / 256 ^ width)).toNat = value / 256 ^ width % 256 := by
      simp
    rw [hdigit, pow_succ, Nat.mod_mul, Nat.mul_comm, Nat.add_comm]

theorem ofBytes_toBytes_of_lt {width value : Nat} (h : value < 256 ^ width) :
    ofBytes (toBytes width value) = value := by
  rw [ofBytes_toBytes, Nat.mod_eq_of_lt h]

theorem toBytes_add_mul (width value extra : Nat) :
    toBytes width (extra * 256 ^ width + value) = toBytes width value := by
  induction width generalizing extra with
  | zero => rfl
  | succ width ih =>
    have hpow : 0 < 256 ^ width := by positivity
    have hsplit : extra * 256 ^ (width + 1) + value = extra * 256 * 256 ^ width + value := by
      rw [pow_succ]
      ring
    have hdiv : (extra * 256 * 256 ^ width + value) / 256 ^ width
        = extra * 256 + value / 256 ^ width := by
      rw [Nat.add_comm, Nat.add_mul_div_right _ _ hpow, Nat.add_comm]
    rw [toBytes, toBytes, hsplit, ih, hdiv]
    congr 1
    apply UInt8.toNat_inj.mp
    simp only [UInt8.toNat_ofNat']
    omega

theorem toBytes_ofBytes (octets : List UInt8) :
    toBytes octets.length (ofBytes octets) = octets := by
  induction octets with
  | nil => rfl
  | cons octet rest ih =>
    have hpow : 0 < 256 ^ rest.length := by positivity
    have hhead : (octet.toNat * 256 ^ rest.length + ofBytes rest) / 256 ^ rest.length
        = octet.toNat := by
      rw [Nat.add_comm, Nat.add_mul_div_right _ _ hpow,
        Nat.div_eq_of_lt (ofBytes_lt rest), Nat.zero_add]
    rw [List.length_cons, ofBytes, toBytes, hhead, toBytes_add_mul, ih]
    simp

end BigEndian
