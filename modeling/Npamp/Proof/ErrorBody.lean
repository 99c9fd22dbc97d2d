import Npamp.ErrorFrame
import Npamp.Frame
import Npamp.Proof.CborRoundTrip
import Mathlib.Data.List.GetD

/-!
# The ERROR body is read back

`DecodeErrorBody` stops at two argument octets, so it agrees with the general codec on contexts of
fewer than `2 ^ 16` octets and refuses every longer one.
-/

namespace Npamp

open Cbor List UInt64

theorem readArg_cons (ai ib ib' : UInt8) (tail : Bytes) :
    readArg ai (ib :: tail) = readArg ai (ib' :: tail) := by
  simp [readArg, readWide]

variable {ib : UInt8} {tail : Bytes} {v : UInt64} {n : Nat} {b : Bytes}

theorem wide_argument_iff {width bound : Nat} (hwidth : width ≤ 2) :
    (if tail.length < width ∨ (uint64 (tail.take width)).toNat < bound then malformedErrorBody
      else .ok (uint64 (tail.take width), width + 1)) = Except.ok (v, n)
      ↔ readWide width bound (ib :: tail) = .ok (v, n) ∧ v.toNat < 2 ^ 16 := by
  have hshort : (tail.take width).length ≤ width := length_take_le _ _
  have hvalue : (uint64 (tail.take width)).toNat = BigEndian.ofBytes (tail.take width) :=
    toNat_ofNat_ofBytes (by omega)
  have hlt : (uint64 (tail.take width)).toNat < 2 ^ 16 := by
    calc (uint64 (tail.take width)).toNat
        = BigEndian.ofBytes (tail.take width) := hvalue
      _ < 256 ^ (tail.take width).length := BigEndian.ofBytes_lt _
      _ ≤ 256 ^ 2 := Nat.pow_le_pow_right (by decide) (hshort.trans hwidth)
      _ = 2 ^ 16 := by norm_num
  rw [readWide, take_succ_cons, drop_one, tail_cons, ← hvalue]
  simp only [length_cons, Nat.add_lt_add_iff_right]
  by_cases hlength : tail.length < width
  · simp [hlength, malformedErrorBody]
  by_cases hbound : (uint64 (tail.take width)).toNat < bound
  · simp [hlength, hbound, malformedErrorBody]
  rw [if_neg (not_or.mpr ⟨hlength, hbound⟩), if_neg hlength, if_neg hbound, hvalue]
  constructor
  · intro h
    cases h
    exact ⟨rfl, hlt⟩
  · rintro ⟨h, -⟩
    cases h
    rfl

/-- **The reader's integers are the general ones below `2 ^ 16`.** -/
theorem cborReadUint_cons_iff : cborReadUint (ib :: tail) = .ok (v, n)
      ↔ ib >>> 5 = 0 ∧ readArg (ib &&& 0x1f) (ib :: tail) = .ok (v, n)
        ∧ v.toNat < 2 ^ 16 := by
  rw [cborReadUint]
  by_cases hmajor : ib >>> 5 = 0
  swap
  · simp [hmajor, malformedErrorBody]
  simp only [hmajor, ne_eq, not_true_eq_false, if_false, true_and]
  generalize ib &&& 0x1f = ai
  by_cases hsmall : ai < 24
  · rw [if_pos hsmall, readArg, if_pos hsmall]
    have hlt : ai.toUInt64.toNat < 2 ^ 16 := by
      have := ai.toNat_lt
      simp
      omega
    constructor
    · intro h
      cases h
      exact ⟨rfl, hlt⟩
    · rintro ⟨h, -⟩
      cases h
      rfl
  rw [if_neg hsmall]
  by_cases h24 : ai = 24
  · subst h24
    rw [if_pos rfl, WideForm.octet.readArg_eq, ← wide_argument_iff (by decide)]
    cases tail with
    | nil => simp
    | cons x rest =>
      have hx : (uint64 [x]).toNat = x.toNat := by
        rw [show (uint64 [x]).toNat = BigEndian.ofBytes [x] from
          toNat_ofNat_ofBytes (by simp)]
        simp [BigEndian.ofBytes]
      have hx' : uint64 [x] = x.toUInt64 := UInt64.toNat_inj.mp (by simp [hx])
      have hlt : (x < 24) = (x.toNat < 24) := by simp [UInt8.lt_iff_toNat_lt]
      simp [hx', hlt]
  by_cases h25 : ai = 25
  · subst h25
    rw [if_neg h24, if_pos rfl, WideForm.double.readArg_eq, ← wide_argument_iff (by decide)]
    by_cases hlength : tail.length < 2
    · simp [hlength]
    · simp [hlength]
  rw [if_neg h24, if_neg h25]
  -- what is left has a longer argument, or none
  constructor
  · intro h
    cases h
  rintro ⟨hread, hlt⟩
  rcases readArg_eq_ok_cases hread with ⟨hlow, _, _⟩ | ⟨width, bound, hform, hwide⟩
  · exact absurd hlow hsmall
  have hbound := (readWide_eq_ok hform.width_le hwide).2.2.1
  cases hform with
  | octet => exact absurd rfl h24
  | double => exact absurd rfl h25
  | quad => omega
  | octuple => omega

theorem cborReadUint_head (hv : v.toNat < 2 ^ 16) (rest : Bytes) :
    cborReadUint (head 0 v ++ rest) = .ok (v, (head 0 v).length) := by
  obtain ⟨ib, tail, hhead, hmajor, hread⟩ := readArg_head (by decide : (0 : UInt8) < 8) v
  have hread' := hread rest
  rw [hhead, cons_append] at hread' ⊢
  exact cborReadUint_cons_iff.mpr ⟨hmajor, hread', hv⟩

theorem cborReadUint_eq_ok (h : cborReadUint b = .ok (v, n)) :
    v.toNat < 2 ^ 16 ∧ n = (head 0 v).length ∧ b = head 0 v ++ b.drop n := by
  cases b with
  | nil => cases h
  | cons ib tail =>
    obtain ⟨hmajor, hread, hv⟩ := cborReadUint_cons_iff.mp h
    obtain ⟨-, hn, hhead⟩ := head_of_readArg hread
    rw [hmajor] at hhead
    have hlength : n = (head 0 v).length := by
      rw [hhead, length_take, Nat.min_eq_left hn]
    refine ⟨hv, hlength, ?_⟩
    rw [hhead, take_append_drop]

theorem masked_octet (ib : UInt8) :
    (ib &&& 0x1f) >>> 5 = 0 ∧ ib &&& 0x1f &&& 0x1f = ib &&& 0x1f := by
  refine uint8_forall
    (p := fun ib => (ib &&& 0x1f) >>> 5 = 0 ∧ ib &&& 0x1f &&& 0x1f = ib &&& 0x1f) ?_ ib
  decide +kernel

theorem cborReadUint_masked_iff : cborReadUint ((ib &&& 0x1f) :: tail) = .ok (v, n)
      ↔ readArg (ib &&& 0x1f) (ib :: tail) = .ok (v, n) ∧ v.toNat < 2 ^ 16 := by
  obtain ⟨hmajor, hai⟩ := masked_octet ib
  rw [cborReadUint_cons_iff, hai, readArg_cons _ _ ib]
  exact and_iff_right hmajor

def bstr (payload : Bytes) : Bytes := head 2 (ofNat payload.length) ++ payload

theorem cborReadBstr_bstr {payload : Bytes} (hpayload : payload.length < 2 ^ 16) (rest : Bytes) :
    cborReadBstr (bstr payload ++ rest) = .ok (payload, (bstr payload).length) := by
  obtain ⟨ib, tail, hhead, hmajor, hread⟩ :=
    readArg_head (by decide : (2 : UInt8) < 8) (ofNat payload.length)
  have harg : (ofNat payload.length).toNat = payload.length :=
    toNat_ofNat_length (by omega)
  have hread' := hread (payload ++ rest)
  have hslice := Dialect.take_drop_payload (head 2 (ofNat payload.length)) payload
    rest
  have hfits : ¬ (head 2 (ofNat payload.length)).length + payload.length
      > (head 2 (ofNat payload.length) ++ (payload ++ rest)).length := by
    simp only [length_append]
    omega
  rw [bstr, append_assoc, length_append]
  generalize (head 2 (ofNat payload.length)).length = n at *
  rw [hhead, cons_append] at hread' hslice hfits ⊢
  have hmasked := cborReadUint_masked_iff.mpr ⟨hread', by omega⟩
  rw [cborReadBstr, if_neg (by simpa using hmajor), hmasked]
  dsimp only
  rw [harg, if_neg hfits, slice, hslice]

theorem cborReadBstr_eq_ok {payload : Bytes} (h : cborReadBstr b = .ok (payload, n)) :
    payload.length < 2 ^ 16 ∧ n = (bstr payload).length ∧ b = bstr payload ++ b.drop n := by
  cases b with
  | nil => cases h
  | cons ib tail =>
    rw [cborReadBstr] at h
    split at h
    · cases h
    rename_i hmajor
    cases hmasked : cborReadUint ((ib &&& 0x1f) :: tail) with
    | error e => simp [hmasked, malformedErrorBody] at h
    | ok r =>
      obtain ⟨ln, hn⟩ := r
      rw [hmasked] at h
      dsimp only at h
      split at h
      · cases h
      rename_i hfits
      obtain ⟨hread, hln⟩ := cborReadUint_masked_iff.mp hmasked
      obtain ⟨-, -, hhead⟩ := head_of_readArg hread
      obtain ⟨hpayload, rfl⟩ := Prod.mk.inj (Except.ok.inj h)
      have hlength : payload.length = ln.toNat := by
        rw [← hpayload, slice, length_drop, length_take]
        omega
      have hbstr : bstr payload = (ib :: tail).take (hn + ln.toNat) := by
        have hinit : (ib :: tail).take hn = ((ib :: tail).take (hn + ln.toNat)).take hn := by
          rw [take_take, Nat.min_eq_left (Nat.le_add_right _ _)]
        rw [bstr, hlength, UInt64.ofNat_toNat, ← of_not_not hmajor, hhead, ← hpayload, slice,
          hinit, take_append_drop]
      refine ⟨by omega, ?_, ?_⟩
      · rw [hbstr, length_take]
        omega
      · rw [hbstr, take_append_drop]

theorem encodeErrorBody_eq (code : SessionErrorCode) (context : Bytes) :
    encodeErrorBody code context
      = 0xa2 :: 0x01 :: (head 0 code.toUInt64 ++ 0x02 :: bstr context) := by
  have horder : keyEncLE ([0x01], encodeHead 0 code.toUInt64)
      ([0x02], encodeHead 2 (ofNat context.length) ++ context) :=
    show byteLess [0x02] [0x01] = false by decide
  have hmap : encodeHead 5 (ofNat 2) = [0xa2] := by decide
  have hone : encodeHead 0 1 = [0x01] := by decide
  have htwo : encodeHead 0 2 = [0x02] := by decide
  simp only [encodeErrorBody, cborEncode, cborEncodePairs, insertionSort, foldr_cons,
    foldr_nil, orderedInsert, if_pos horder, flatMap_cons, flatMap_nil,
    append_nil, length_cons, length_nil, Nat.zero_add, Nat.reduceAdd, hmap, hone,
    htwo]
  rfl

theorem drop_eq_cons_of_getD {i : Nat} {x : UInt8} (h : b.getD i 0 = x) (hx : x ≠ 0) :
    b.drop i = x :: b.drop (i + 1) := by
  by_cases hi : i < b.length
  · rw [drop_eq_getElem_cons hi]
    congr 1
    rwa [getD_eq_getElem _ _ hi] at h
  · rw [getD_eq_default _ _ (Nat.not_lt.mp hi)] at h
    exact absurd h.symm hx

theorem encodeErrorBody_of_decodeErrorBody {e : SessionError} (h : decodeErrorBody b = .ok e) :
    e.context.length < 2 ^ 16 ∧ b = encodeErrorBody e.code e.context := by
  rw [decodeErrorBody] at h
  split at h
  · cases h
  rename_i hkeys
  obtain ⟨hmap, hone⟩ := not_or.mp hkeys
  split at h
  · cases h
  rename_i code n hcode
  split at h
  · cases h
  rename_i hsmall
  split at h
  · cases h
  rename_i htwo
  split at h
  · cases h
  rename_i context m hcontext
  split at h
  · cases h
  rename_i hend
  cases h
  obtain ⟨-, -, hint⟩ := cborReadUint_eq_ok hcode
  obtain ⟨hlength, -, hstr⟩ := cborReadBstr_eq_ok hcontext
  have hcast : code.toUInt8.toUInt64 = code := by
    apply UInt64.toNat_inj.mp
    simp
    omega
  rw [drop_drop] at hint hstr
  have hdone : b.drop (3 + n + m) = [] := drop_eq_nil_of_le (by omega)
  have hthree : 2 + n + 1 = 3 + n := by omega
  refine ⟨hlength, ?_⟩
  calc b = b.drop 0 := rfl
    _ = 0xa2 :: b.drop 1 := drop_eq_cons_of_getD (of_not_not hmap) (by decide)
    _ = 0xa2 :: 0x01 :: b.drop 2 := by
        rw [drop_eq_cons_of_getD (of_not_not hone) (by decide)]
    _ = 0xa2 :: 0x01 :: (head 0 code ++ b.drop (2 + n)) := by rw [← hint]
    _ = 0xa2 :: 0x01 :: (head 0 code ++ 0x02 :: b.drop (3 + n)) := by
        rw [drop_eq_cons_of_getD (of_not_not htwo) (by decide), hthree]
    _ = 0xa2 :: 0x01 :: (head 0 code ++ 0x02 :: bstr context) := by
        rw [hstr, hdone, append_nil]
    _ = encodeErrorBody code.toUInt8 context := by rw [encodeErrorBody_eq, hcast]

theorem decodeErrorBody_encodeErrorBody (code : SessionErrorCode) {context : Bytes}
    (hcontext : context.length < 2 ^ 16) :
    decodeErrorBody (encodeErrorBody code context) = .ok { code := code, context := context } := by
  have hcode : code.toUInt64.toNat < 256 := by simpa using code.toNat_lt
  have hint := cborReadUint_head (hcode.trans (by norm_num)) (0x02 :: bstr context)
  have hstr := cborReadBstr_bstr hcontext []
  rw [append_nil] at hstr
  rw [encodeErrorBody_eq]
  generalize head 0 code.toUInt64 = hd at *
  have hkey : (0xa2 :: 0x01 :: (hd ++ 0x02 :: bstr context)).getD (2 + hd.length) 0 = 0x02 := by
    rw [Nat.add_comm, getD_cons_succ, getD_cons_succ, getD_append_right _ _ _ _ le_rfl,
      Nat.sub_self, getD_cons_zero]
  have hrest : (0xa2 :: 0x01 :: (hd ++ 0x02 :: bstr context)).drop (3 + hd.length)
      = bstr context := by
    rw [show 3 + hd.length = hd.length + 1 + 2 by omega, drop_succ_cons, drop_succ_cons,
      drop_append, Nat.add_sub_cancel_left, drop_eq_nil_of_le (Nat.le_add_right _ _)]
    rfl
  rw [decodeErrorBody, if_neg (by simp), drop_succ_cons, drop_succ_cons, drop_zero,
    hint]
  dsimp only
  rw [if_neg (by omega), if_neg (not_not.mpr hkey), hrest, hstr]
  dsimp only
  rw [if_neg]
  · simp
  · simp
    omega

/-- The map that stands for an ERROR body. -/
def SessionError.value (e : SessionError) : CborValue :=
  .cborMap [.mk [0x01] (.uint64 1) (.uint64 e.code.toUInt64),
    .mk [0x02] (.uint64 2) (.bytes e.context)]

theorem cborEncode_value (e : SessionError) :
    cborEncode e.value = encodeErrorBody e.code e.context := by
  have hmap : encodeHead 5 (ofNat 2) = [0xa2] := by decide
  rw [encodeErrorBody_eq, SessionError.value]
  simp only [cborEncode, cborEncodeEntries, append_nil, length_cons, length_nil,
    Nat.zero_add, Nat.reduceAdd, hmap]
  rfl

theorem canonical_errorMap (e : SessionError) :
    (CborValue.mapU [.mk 1 (.uint64 e.code.toUInt64), .mk 2 (.bytes e.context)]).canonical
      = e.value := by
  have hone : encodeHead 0 1 = [0x01] := by decide
  have htwo : encodeHead 0 2 = [0x02] := by decide
  have horder : byteLess [0x02] [0x01] = false := by decide
  simp [CborValue.canonical, canonicalPairs, newCBORMapU, CborPair.entry, CborPair.key,
    CborPair.val, CborEntry.keyEnc, cborEncode, insertionSort, orderedInsert, hone, htwo,
    horder, SessionError.value]

theorem cborDecodeTop_encodeErrorBody (e : SessionError) (hcontext : e.context.length < 2 ^ 63) :
    cborDecodeTop (encodeErrorBody e.code e.context) = .ok e.value := by
  rw [← canonical_errorMap]
  refine cborDecodeTop_cborEncode ?_ ?_
  · simpa [CborValue.Plain, PlainPairs, CborPair.key] using hcontext
  · simp [CborValue.depth, pairsDepth, cborMaxNestingDepth]

theorem length_encodeErrorBody (code : SessionErrorCode) (context : Bytes) :
    (encodeErrorBody code context).length = 3 + (head 0 code.toUInt64).length
      + (bstr context).length := by
  rw [encodeErrorBody_eq]
  simp
  omega

theorem decodeErrorBody_ok_or_malformed (b : Bytes) :
    (∃ e, decodeErrorBody b = .ok e) ∨ decodeErrorBody b = malformedErrorBody := by
  rw [decodeErrorBody]
  split
  · exact .inr rfl
  split
  · exact .inr rfl
  split
  · exact .inr rfl
  split
  · exact .inr rfl
  split
  · exact .inr rfl
  split
  · exact .inr rfl
  · exact .inl ⟨_, rfl⟩

theorem decodeErrorBody_long {e : SessionError} (hlong : 2 ^ 16 ≤ e.context.length)
    (hcontext : e.context.length < 2 ^ 63) :
    decodeErrorBody (encodeErrorBody e.code e.context) = malformedErrorBody := by
  refine (decodeErrorBody_ok_or_malformed _).resolve_left ?_
  rintro ⟨e', h⟩
  obtain ⟨hshort, hbody⟩ := encodeErrorBody_of_decodeErrorBody h
  have hread := cborDecodeTop_encodeErrorBody e hcontext
  rw [hbody, cborDecodeTop_encodeErrorBody e' (by omega)] at hread
  have hsame : e'.context = e.context := by
    simp only [SessionError.value, Except.ok.injEq, CborValue.cborMap.injEq, cons.injEq,
      CborEntry.mk.injEq, CborValue.bytes.injEq] at hread
    exact hread.2.1.2.2
  rw [hsame] at hshort
  omega

/-- **The ERROR body round trip.** A code comes back with exactly the contexts of fewer than
`2 ^ 16` octets, what is accepted is the encoding of what is returned, and the bodies accepted are
those the general decoder reads with such a context. -/
theorem errorBody_round_trip (code : SessionErrorCode) (context : Bytes) :
    (decodeErrorBody (encodeErrorBody code context) = .ok { code := code, context := context }
        ↔ context.length < 2 ^ 16)
      ∧ (∀ b e, decodeErrorBody b = .ok e → encodeErrorBody e.code e.context = b)
      ∧ ∀ b e, decodeErrorBody b = .ok e
          ↔ cborDecodeTop b = .ok e.value ∧ e.context.length < 2 ^ 16 := by
  refine ⟨⟨fun h => (encodeErrorBody_of_decodeErrorBody h).1,
    decodeErrorBody_encodeErrorBody code⟩, ?_, fun b e => ⟨?_, ?_⟩⟩
  · intro b e h
    exact (encodeErrorBody_of_decodeErrorBody h).2.symm
  · intro h
    obtain ⟨hshort, rfl⟩ := encodeErrorBody_of_decodeErrorBody h
    exact ⟨cborDecodeTop_encodeErrorBody e (by omega), hshort⟩
  · rintro ⟨h, hshort⟩
    have henc := cborEncode_of_cborDecodeTop h
    rw [cborEncode_value] at henc
    subst henc
    exact decodeErrorBody_encodeErrorBody e.code hshort

/-- **A context of `2 ^ 16` octets is not read back**, though its body is a small part of a frame
and the general decoder reads it. -/
theorem errorBody_context_too_long :
    headerSize + (encodeErrorBody errCodeDecryptFailed (List.replicate (2 ^ 16) 0)).length
        ≤ maxFrameSize
      ∧ cborDecodeTop (encodeErrorBody errCodeDecryptFailed (List.replicate (2 ^ 16) 0))
        = .ok (SessionError.value ⟨errCodeDecryptFailed, List.replicate (2 ^ 16) 0⟩)
      ∧ decodeErrorBody (encodeErrorBody errCodeDecryptFailed (List.replicate (2 ^ 16) 0))
        = malformedErrorBody := by
  have hlength : (List.replicate (2 ^ 16) (0 : UInt8)).length = 2 ^ 16 := List.length_replicate
  generalize List.replicate (2 ^ 16) (0 : UInt8) = context at hlength ⊢
  have hbound : context.length < 2 ^ 63 := by omega
  refine ⟨?_, cborDecodeTop_encodeErrorBody ⟨errCodeDecryptFailed, context⟩ hbound,
    decodeErrorBody_long (e := ⟨errCodeDecryptFailed, context⟩) hlength.ge hbound⟩
  rw [length_encodeErrorBody, bstr, List.length_append, hlength]
  decide

end Npamp
