import Npamp.Proof.CborDialect

/-!
# Decoding, then encoding

What the Go decoder accepts re-encodes to the octets it read: the Go encoder keeps the octets of
text as they are, so nothing is asked of them.
-/

namespace Npamp

open Cbor (Dialect)

theorem cborEncodeItems_eq_flatMap (items : List CborValue) :
    cborEncodeItems items = items.flatMap cborEncode := by
  induction items with
  | nil => rfl
  | cons item rest ih => rw [cborEncodeItems, ih, List.flatMap_cons]

theorem cborEncodeEntries_eq_flatMap {ι : Type} (keyEnc : ι → Bytes) (key val : ι → CborValue)
    (l : List ι) : cborEncodeEntries (l.map fun i => .mk (keyEnc i) (key i) (val i))
      = l.flatMap fun i => keyEnc i ++ cborEncode (val i) := by
  induction l with
  | nil => rfl
  | cons i rest ih => rw [List.map_cons, cborEncodeEntries, ih, List.flatMap_cons]

theorem cborDialect_encoder : cborDialect.Encoder cborEncode fun _ => True where
  uint _ := rfl
  nint {arg v} h := by
    dsimp only [cborDialect] at h
    split at h
    · cases h
    rename_i harg
    cases h
    rw [cborEncode, encodeSigned, if_pos (Cbor.neg_one_sub_toInt64_lt (Nat.not_lt.mp harg)),
      Cbor.neg_one_sub_neg_one_sub, UInt64.toUInt64_toInt64]
    rfl
  bytes _ := rfl
  text _ h := by
    cases h
    rfl
  array items := by
    change encodeHead 4 _ ++ cborEncodeItems items = _
    rw [cborEncodeItems_eq_flatMap]
    rfl
  map _ := by
    change encodeHead 5 _ ++ cborEncodeEntries _ = _
    rw [cborEncodeEntries_eq_flatMap, List.length_map]
    rfl
  bool b := by cases b <;> rfl
  null := rfl

theorem cborEncode_of_reads (levels : Nat) (octets : Bytes) (v : CborValue)
    (h : cborDialect.Reads (fun _ => True) levels octets v) : cborEncode v = octets :=
  h.encode_eq cborDialect_encoder

/-- **The decoder accepts only what the encoder writes.** -/
theorem cborEncode_of_cborDecodeTop {b : Bytes} {v : CborValue} (h : cborDecodeTop b = .ok v) :
    cborEncode v = b := by
  rw [cborDecodeTop_eq] at h
  exact Dialect.encode_of_decodeTop cborDialect_encoder (fun _ _ => trivial) h

end Npamp
