import Mathlib.Data.List.Basic

/-!
# UTF-16

Characters as code units, and the decoder that replaces every surrogate that has no partner.
-/

namespace Utf16

def encodeChar (c : Char) : List UInt16 :=
  if c.toNat < 0x10000 then [UInt16.ofNat c.toNat]
  else
    [UInt16.ofNat (0xD800 + (c.toNat - 0x10000) / 0x400),
      UInt16.ofNat (0xDC00 + (c.toNat - 0x10000) % 0x400)]

def encode (s : List Char) : List UInt16 := s.flatMap encodeChar

def replacement : Char := Char.ofNat 0xFFFD

def basic (u : UInt16) : Bool := u.toNat < 0xD800 ∨ 0xDFFF < u.toNat

def lossy : List UInt16 → List Char
  | [] => []
  | [u] => [if basic u then Char.ofNat u.toNat else replacement]
  | u :: v :: rest =>
    if basic u then Char.ofNat u.toNat :: lossy (v :: rest)
    else if 0xDC00 ≤ u.toNat ∨ v.toNat < 0xDC00 ∨ 0xDFFF < v.toNat then
      replacement :: lossy (v :: rest)
    else Char.ofNat ((u.toNat - 0xD800) * 0x400 + (v.toNat - 0xDC00) + 0x10000) :: lossy rest

theorem lossy_cons {u : UInt16} (h : basic u = true) (rest : List UInt16) :
    lossy (u :: rest) = Char.ofNat u.toNat :: lossy rest := by
  cases rest with
  | nil => simp [lossy, h]
  | cons v rest => rw [lossy, if_pos h]

theorem lossy_encodeChar_append (c : Char) (rest : List UInt16) :
    lossy (encodeChar c ++ rest) = c :: lossy rest := by
  have hvalid : c.toNat < 0xD800 ∨ 0xDFFF < c.toNat ∧ c.toNat < 0x110000 := c.valid
  unfold encodeChar
  split_ifs with hbasic
  · have hunit : (UInt16.ofNat c.toNat).toNat = c.toNat := by
      rw [UInt16.toNat_ofNat', Nat.mod_eq_of_lt hbasic]
    rw [List.singleton_append, lossy_cons (decide_eq_true (by omega)), hunit, Char.ofNat_toNat]
  · have hhigh : (UInt16.ofNat (0xD800 + (c.toNat - 0x10000) / 0x400)).toNat
        = 0xD800 + (c.toNat - 0x10000) / 0x400 := by
      rw [UInt16.toNat_ofNat', Nat.mod_eq_of_lt (by omega)]
    have hlow : (UInt16.ofNat (0xDC00 + (c.toNat - 0x10000) % 0x400)).toNat
        = 0xDC00 + (c.toNat - 0x10000) % 0x400 := by
      rw [UInt16.toNat_ofNat', Nat.mod_eq_of_lt (by omega)]
    have hsum : (0xD800 + (c.toNat - 0x10000) / 0x400 - 0xD800) * 0x400
        + (0xDC00 + (c.toNat - 0x10000) % 0x400 - 0xDC00) + 0x10000 = c.toNat := by omega
    rw [List.cons_append, List.singleton_append, lossy, basic, hhigh, hlow,
      if_neg (by rw [decide_eq_true_eq]; omega), if_neg (by omega), hsum, Char.ofNat_toNat]

theorem lossy_encode (s : List Char) : lossy (encode s) = s := by
  induction s with
  | nil => rfl
  | cons c s ih =>
    rw [encode, List.flatMap_cons, lossy_encodeChar_append]
    exact congrArg (c :: ·) ih

end Utf16
