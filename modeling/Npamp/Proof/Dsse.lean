import Npamp.Plain
import Npamp.SupplyChain.Dsse

/-!
# What an accepted envelope says

The lengths in the pre-authentication encoding say where the type and the body end, so it can be
read in one way only.
-/

namespace Npamp.SupplyChain

open List
open Text (decimal)

theorem space_notMem_decimal (n : Nat) : (0x20 : UInt8) ∉ decimal n := fun h =>
  absurd (Text.digit_of_mem_decimal h) (by decide)

theorem counted_inj {b b' r r' : Bytes}
    (h : decimal b.length ++ 0x20 :: (b ++ r) = decimal b'.length ++ 0x20 :: (b' ++ r')) :
    b = b' ∧ r = r' := by
  obtain ⟨hlength, htail⟩ :=
    Text.append_cons_inj (space_notMem_decimal _) (space_notMem_decimal _) h
  exact append_inj htail (Text.decimal_injective hlength)

theorem pae_eq (payloadType body : Bytes) :
    pae payloadType body = ascii "DSSEv1 " ++ (decimal payloadType.length ++ 0x20 :: (payloadType
      ++ 0x20 :: (decimal body.length ++ 0x20 :: (body ++ [])))) := by
  have hstart : ascii "DSSEv1 " = ascii "DSSEv1" ++ ascii " " := rfl
  have hspace : ascii " " = [0x20] := rfl
  simp only [pae, hstart, hspace, append_assoc, cons_append, nil_append,
    append_nil]

theorem pae_injective {t t' b b' : Bytes} (h : pae t b = pae t' b') : t = t' ∧ b = b' := by
  rw [pae_eq, pae_eq] at h
  obtain ⟨rfl, hrest⟩ := counted_inj (append_cancel_left h)
  exact ⟨rfl, (counted_inj (cons.inj hrest).2).1⟩

variable {P : Primitives} {E : Encodings} {pub : Bytes} {sigs : List Signature}

theorem exists_of_verified {m : Bytes} (h : verified P E pub m sigs = true) :
    ∃ raw, P.ed25519Verify pub m raw = true := by
  induction sigs with
  | nil => cases h
  | cons sig sigs ih =>
    rw [verified] at h
    split at h
    · exact ih h
    next raw _ =>
      split_ifs at h with hlength hverify
      · exact ih h
      · exact ⟨raw, hverify⟩
      · exact ih h

theorem verifyEnvelope_eq_ok {env : Option Envelope} {p : Bytes}
    (h : verifyEnvelope P E pub env p = .ok ()) :
    ∃ e, env = some e ∧ e.payloadType = inTotoPayloadType ∧ E.decode e.payload = some p
      ∧ verified P E pub (pae inTotoPayloadType p) e.signatures = true := by
  unfold verifyEnvelope at h
  split at h
  · cases h
  next e =>
    split_ifs at h with hmissing hpub htype
    split at h
    · cases h
    next payload hdecode =>
      split_ifs at h with hverified hpayload
      obtain rfl := not_not.mp hpayload
      rw [not_not] at htype
      rw [htype] at hverified
      exact ⟨e, rfl, htype, hdecode, hverified⟩

/-- **The encoding is injective, and an accepted envelope is signed.** `Signed pub m` says that the
holder of `pub` signed `m`. -/
theorem verifyEnvelope_binding (Signed : Bytes → Bytes → Prop)
    (hunforgeable : ∀ pub m sig, P.ed25519Verify pub m sig = true → Signed pub m) :
    (∀ t₁ b₁ t₂ b₂, pae t₁ b₁ = pae t₂ b₂ → t₁ = t₂ ∧ b₁ = b₂)
      ∧ ∀ pub env p, verifyEnvelope P E pub env p = .ok () →
        Signed pub (pae inTotoPayloadType p) := by
  refine ⟨fun _ _ _ _ => pae_injective, fun pub env p h => ?_⟩
  obtain ⟨e, -, -, -, hverified⟩ := verifyEnvelope_eq_ok h
  obtain ⟨raw, hraw⟩ := exists_of_verified hverified
  exact hunforgeable pub _ raw hraw

def alphabet : Bytes :=
  ascii "ABCDEFGHIJKLMNOPQRSTUVWXYZabcdefghijklmnopqrstuvwxyz0123456789+/"

/-- The digits of up to three octets, with the padding. -/
def encodeGroup (group : Bytes) : Bytes :=
  let n := BigEndian.ofBytes (pad 3 group)
  pad 4 <| ([18, 12, 6, 0].map fun shift => alphabet.getD (n / 2 ^ shift % 64) 0).take
    (group.length + 1) ++ ascii "=="

def encode64 : Bytes → Bytes
  | a :: b :: c :: rest => encodeGroup [a, b, c] ++ encode64 rest
  | [] => []
  | group => encodeGroup group

def decode64 : Bytes → Option Bytes
  | x :: y :: z :: w :: rest => do
      let digits := [x, y, z, w].takeWhile (· ≠ 0x3d)
      let values ← digits.mapM (alphabet.idxOf? ·)
      let tail ← decode64 rest
      let n := (values ++ replicate (4 - digits.length) 0).foldl (64 * · + ·) 0
      if digits.length < 2 ∨ digits.length < 4 ∧ rest ≠ [] then none
      else some ((BigEndian.toBytes 3 n).take (digits.length - 1) ++ tail)
  | [] => some []
  | _ => none

def base64 : Encodings := ⟨encode64, decode64⟩

example : encode64 (ascii "nz") = ascii "bno=" ∧ decode64 (ascii "bno=") = some (ascii "nz") := by
  decide

/-- The first signature of this envelope is not base64; the second is one `plainSigning` makes. -/
def twiceSigned : Envelope :=
  let s : ProvenanceSigner := ⟨replicate 32 7, replicate 32 7⟩
  let env := s.envelope plainSigning base64 (ascii "statement")
  { env with signatures := ⟨[], [1]⟩ :: env.signatures }

theorem verifyEnvelope_binding_twiceSigned :
    verifyEnvelope plainSigning base64 (List.replicate 32 7) (some twiceSigned) (ascii "statement")
        = .ok ()
      ∧ ∃ sig, plainSigning.ed25519Verify (List.replicate 32 7)
        (pae inTotoPayloadType (ascii "statement")) sig = true := by
  have haccepted : verifyEnvelope plainSigning base64 (List.replicate 32 7) (some twiceSigned)
      (ascii "statement") = .ok () := by decide +kernel
  exact ⟨haccepted, (verifyEnvelope_binding
    (fun pub m => ∃ sig, plainSigning.ed25519Verify pub m sig = true)
    fun _ _ sig hsig => ⟨sig, hsig⟩).2 _ _ _ haccepted⟩

end Npamp.SupplyChain
