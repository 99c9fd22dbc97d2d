import Npamp.Crypto

/-!
# Plain primitives

A stand-in for the cryptographic library that keeps its documented contract and nothing of its
secrecy. The model is evaluated with it on concrete runs.
-/

namespace Npamp

open List

def pad (n : Nat) (b : Bytes) : Bytes := (b ++ replicate n 0).take n

def plain : Primitives where
  sha256 := id
  hmac key message := key ++ message
  hkdfExtract ikm salt := salt ++ ikm
  hkdfExpand secret info _ := secret ++ info
  gcmSeal _ _ plaintext _ := plaintext ++ replicate 16 0
  gcmOpen _ _ sealed _ :=
    if sealed.drop (sealed.length - 16) = replicate 16 0 then
      .ok (sealed.take (sealed.length - 16))
    else .error (errorf "cipher: message authentication failed")
  mlkemEncapsulationKey dk := pad 1184 dk
  mlkemEncapsulate ek rand := .ok (pad 64 ek, pad 64 ek ++ pad 1024 rand)
  mlkemDecapsulate dk _ := .ok dk
  x25519Public := id
  x25519 a b := .ok (zipWith (· + ·) a b)
  ed25519Public := id
  ed25519Sign key message := key ++ message
  ed25519Verify pub message sig := sig = pub ++ message

theorem length_pad (n : Nat) (b : Bytes) : (pad n b).length = n := by
  simp [pad]

theorem pad_pad {n m : Nat} {b : Bytes} (hb : b.length = m) (hm : m ≤ n) : pad m (pad n b) = b := by
  have htake : (pad n b).take m = b := by
    rw [pad, take_take, Nat.min_eq_left hm, ← hb, take_left]
  rw [pad, take_append_of_le_length (by rw [length_pad]; exact hm), htake]

theorem plain_correct : plain.Correct where
  open_seal key nonce plaintext aad := by
    simp only [plain, length_append, length_replicate, Nat.add_sub_cancel,
      drop_left, take_left, if_true]
  length_seal key nonce plaintext aad := by simp [plain]
  length_encapsulationKey dk _ := length_pad 1184 dk
  length_ciphertext ek rand ss ct h := by
    cases h
    rw [length_append, length_pad, length_pad]
  decapsulate dk rand hdk := by
    have hek : pad 64 (pad 1184 dk) = dk := pad_pad hdk (by decide)
    exact ⟨dk, dk ++ pad 1024 rand, by simp only [plain, hek], rfl⟩
  length_x25519Public sk hsk := hsk
  x25519_agree a b _ _ := by
    refine ⟨zipWith (· + ·) a b, rfl, ?_⟩
    simp only [plain, id_eq]
    rw [zipWith_comm]
    congr 2
    funext x y
    exact UInt8.add_comm y x

def ending (n : Nat) (b : Bytes) : Bytes := pad n b.reverse

def plainSigning : Primitives :=
  { plain with
    hmac := fun key message => ending 16 key ++ ending 16 message
    ed25519Public := pad 32
    ed25519Sign := fun key message => pad 32 key ++ ending 32 message
    ed25519Verify := fun pub message sig => sig = pub ++ ending 32 message }

theorem plainSigning_correct : plainSigning.Correct :=
  ⟨plain_correct.open_seal, plain_correct.length_seal, plain_correct.length_encapsulationKey,
    plain_correct.length_ciphertext, plain_correct.decapsulate, plain_correct.length_x25519Public,
    plain_correct.x25519_agree⟩

end Npamp
