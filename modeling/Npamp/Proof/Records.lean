import Npamp.Proof.HandshakeRuns
import Npamp.Proof.Ports
import Npamp.Proof.Read
import Npamp.Proof.RustHello

/-!
# Records, in Go and in Rust

`recordWire` is the record both implementations seal; each side's way of sealing and opening one is
an equation about it.
-/

namespace Npamp

def recordWire (P : Primitives) (base : Bytes) (dir : Direction) (ch : ChannelID) (seq : UInt64)
    (ft : FrameType) (pt : Bytes) : Bytes :=
  sealWith P { trafficKeys P base dir 0 ch with seq := seq } ch ft pt

section Go

variable {P : Primitives} {base pt : Bytes} {dir : Direction} {ch : ChannelID} {seq : UInt64}
  {ft : FrameType} {p : Profile}

theorem length_recordWire (hP : P.Correct) :
    (recordWire P base dir ch seq ft pt).length = headerSize + (pt.length + 16) := by
  rw [recordWire, sealWith, Frame.length_marshalBinary]
  exact congrArg (headerSize + ·) (hP.length_seal _ _ _ _)

theorem framed_recordWire (hP : P.Correct) (hsize : headerSize + (pt.length + 16) ≤ maxFrameSize) :
    Framed maxFrameSize (recordWire P base dir ch seq ft pt) := by
  have hfits : pt.length + 16 < 2 ^ 32 := by
    have hmax : maxFrameSize < 2 ^ 32 := by decide
    omega
  obtain ⟨f, hparse, -⟩ :=
    openWith_sealWith hP { trafficKeys P base dir 0 ch with seq := seq } ch ft hfits
  exact framed_of_unmarshalBinary hparse ((length_recordWire hP).trans_le hsize)

theorem handshakeKeyIV_eq (hp : hashForProfile p = .ok ()) : handshakeKeyIV P base dir ch p
      = .ok ((trafficKeys P base dir 0 ch).key, (trafficKeys P base dir 0 ch).iv) := by
  unfold handshakeKeyIV deriveTrafficSecret deriveKeyIV
  simp only [expandForProfile_eq hp]
  rfl

theorem sealFrame_eq (hp : hashForProfile p = .ok ()) :
    sealFrame P base dir ch seq ft pt p = .ok (recordWire P base dir ch seq ft pt) := by
  rw [sealFrame, handshakeKeyIV_eq hp]
  rfl

theorem openFrame_eq (hp : hashForProfile p = .ok ()) (f : Frame) : openFrame P f base dir p
      = openWith P { trafficKeys P base dir 0 f.channel with seq := seq } f := by
  rw [openFrame, handshakeKeyIV_eq hp]
  rfl

end Go

namespace Rust

instance : Coe Crates Primitives := ⟨Crates.toPrimitives⟩

/-- The crates keep the contract the Go library documents, agree with it on X25519, and take the
keys and signatures made by either. -/
structure Crates.Agrees (C : Crates) : Prop where
  correct : C.toPrimitives.Correct
  sized : C.toPrimitives.Sized
  length_hkdfExtract (ikm salt : Bytes) : (C.hkdfExtract ikm salt).length = hashLen
  length_hkdfExpand (secret info : Bytes) (length : Nat) (hlength : length ≤ 255 * hashLen) :
    (C.hkdfExpand secret info length).length = length
  verify_sign (key message : Bytes) :
    C.ed25519Verify (C.ed25519Public key) message (C.ed25519Sign key message) = true
  isVerifyingKey_public (key : Bytes) : C.isVerifyingKey (C.ed25519Public key) = true
  diffieHellman (a b ss : Bytes) (h : C.x25519 a b = .ok ss) :
    C.diffieHellman a b = ss ∧ ss.all (· == 0) = false

section Schedule

variable {C : Crates} (hC : C.Agrees)

include hC

theorem length_hkdfExpandLabel (secret : Bytes) (label : String) (context : Bytes) :
    (Npamp.hkdfExpandLabel C secret label context hashSize).length = hashLen :=
  hC.length_hkdfExpand _ _ _ (by decide)

omit hC in
/-- Below the limits of the crate both implementations expand a label alike. -/
theorem hkdfExpandLabel_eq (C : Crates) {secret : Bytes} (hsecret : hashLen ≤ secret.length) (label : String)
    (context : Bytes) {length : Nat} (hlength : length ≤ 255 * hashLen) :
    hkdfExpandLabel C secret label context length standard
      = .ok (Npamp.hkdfExpandLabel C secret label context length) := by
  change (if secret.length < hashLen then _
    else if length > 255 * hashLen then _ else _) = Except.ok _
  rw [if_neg (not_lt.mpr hsecret), if_neg (not_lt.mpr hlength)]
  rfl

variable {base : Bytes} (hbase : hashLen ≤ base.length) (dir : Direction) (ch : ChannelID)
  (seq : UInt64) (ft : FrameType) (pt : Bytes)

include hbase

theorem keyIv_eq : keyIv C base dir.octet ch
      = .ok ((trafficKeys C base dir 0 ch).key,
          (trafficKeys C base dir 0 ch).iv) := by
  have htraffic : deriveTrafficSecret C base dir.octet 0 aeadAES256GCM ch standard
      = .ok (Npamp.hkdfExpandLabel C base "traffic"
          (dir.octet :: (putUint64 0 ++ putUint16 aeadAES256GCM ++ putUint16 ch)) hashSize) :=
    hkdfExpandLabel_eq C hbase "traffic" _ (by decide)
  have hsecret := (length_hkdfExpandLabel hC base "traffic"
    (dir.octet :: (putUint64 0 ++ putUint16 aeadAES256GCM ++ putUint16 ch))).ge
  have hkey := hkdfExpandLabel_eq C hsecret "key" [] (show 32 ≤ 255 * hashLen by decide)
  have hiv := hkdfExpandLabel_eq C hsecret "iv" [] (show 12 ≤ 255 * hashLen by decide)
  rw [keyIv, htraffic]
  simp only [bind, Except.bind, deriveKeyIv, hkey, hiv]
  rfl

theorem sealFrame_eq : sealFrame C base dir.octet ch seq ft pt
      = .ok (recordWire C base dir ch seq ft pt) := by
  rw [sealFrame, keyIv_eq hC hbase]
  rfl

theorem openFrame_eq {f : Frame} {pt : Bytes} {seq : UInt64} (hopen : openWith C
      { trafficKeys C base dir 0 f.channel with seq := seq } f = .ok pt) :
    openFrame C f base dir.octet = .ok pt := by
  have hgcm : C.gcmOpen (trafficKeys C base dir 0 f.channel).key
      (deriveNonce (trafficKeys C base dir 0 f.channel).iv f.seq) f.payload
      (f.headerPrefix (UInt32.ofNat f.payload.length)) = .ok pt := hopen
  rw [openFrame, keyIv_eq hC hbase]
  simp only [bind, Except.bind, openAes256gcm, hgcm]
  rfl

end Schedule

end Rust

end Npamp
