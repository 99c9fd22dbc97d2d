import Npamp.Proof.CborDialect

/-!
# The accesses of the CBOR decoder

`cborDecode` once more, with every index, slice and allocation of `memory_cbor.go` checked where it
is made.
-/

namespace Npamp

open Sentinel List

/-- What ends a checked run: an access past the buffer, room made for more elements than the buffer
has octets, or an error the decoder itself returns. -/
inductive Halt where
  | outOfBounds
  | overAllocated
  | failed (e : GoError)

namespace Checked

def index (b : Bytes) (i : Nat) : Except Halt UInt8 :=
  match b[i]? with
  | some octet => .ok octet
  | none => .error .outOfBounds

def sliceOf (b : Bytes) (low high : Int) : Except Halt Bytes :=
  if 0 ≤ low ∧ low ≤ high ∧ high ≤ b.length then .ok (slice b low.toNat high.toNat)
  else .error .outOfBounds

def makeRoom (b : Bytes) (count : Nat) : Except Halt Unit :=
  if count ≤ b.length then .ok () else .error .overAllocated

def decodeWideArg (width bound : Nat) (b : Bytes) : Except Halt (UInt64 × Nat) :=
  if b.length < width + 1 then .error (.failed errCBORTruncated.err)
  else do
    let octets ← (range' 1 width).mapM (index b)
    if (uint64 octets).toNat < bound then .error (.failed errCBORNotShortest.err)
    else .ok (uint64 octets, width + 1)

def decodeArg (ai : UInt8) (b : Bytes) : Except Halt (UInt64 × Nat) :=
  if ai < 24 then .ok (ai.toUInt64, 1)
  else if ai = 24 then decodeWideArg 1 24 b
  else if ai = 25 then decodeWideArg 2 (2 ^ 8) b
  else if ai = 26 then decodeWideArg 4 (2 ^ 16) b
  else if ai = 27 then decodeWideArg 8 (2 ^ 32) b
  else if ai = 31 then .error (.failed errCBORIndefinite.err)
  else .error (.failed errCBORUnsupported.err)

section Loops

variable (decode : Bytes → Except Halt (CborValue × Nat)) (b : Bytes)

def decodeItems : Nat → Nat → Except Halt (List CborValue × Nat)
  | 0, off => .ok ([], off)
  | count + 1, off => do
      let (el, en) ← decode (← sliceOf b off b.length)
      let (rest, stop) ← decodeItems count (off + en)
      .ok (el :: rest, stop)

def decodeEntries : Nat → Option Bytes → Nat → Except Halt (List CborEntry × Nat)
  | 0, _, off => .ok ([], off)
  | count + 1, prevKeyEnc, off => do
      let (key, kn) ← decode (← sliceOf b off b.length)
      let keyEnc ← sliceOf b off (off + kn : Nat)
      if (prevKeyEnc.map fun prev => !byteLess prev keyEnc) = some true then
        .error (.failed errCBORMapOrder.err)
      else do
        let (val, vn) ← decode (← sliceOf b (off + kn : Nat) b.length)
        let (rest, stop) ← decodeEntries count (some keyEnc) (off + kn + vn)
        .ok (.mk keyEnc key val :: rest, stop)

/-- The switch on the major type. The end of a string is a Go `int` and may wrap, and so may the
octets left behind the header once they are a `uint64`. -/
def decodeBody (major : UInt8) (arg : UInt64) (n : Nat) : Except Halt (CborValue × Nat) :=
  let left : Nat := (((b.length : Int) - n) % 2 ^ 64).toNat
  if major = 0 then .ok (.uint64 arg, n)
  else if major = 1 then
    if arg.toNat > 2 ^ 63 - 1 then .error (.failed errCBORUnsupported.err)
    else .ok (.int64 (-1 - arg.toInt64), n)
  else if major = 2 ∨ major = 3 then
    let stop : Int := ((n : Int) + arg.toInt64.toInt).bmod (2 ^ 64)
    if arg.toNat > b.length ∨ stop > b.length ∨ stop < n then
      .error (.failed errCBORTruncated.err)
    else do
      let payload ← sliceOf b n stop
      .ok (if major = 2 then .bytes payload else .string payload, stop.toNat)
  else if major = 4 then
    if arg.toNat > left then .error (.failed errCBORTruncated.err)
    else do
      makeRoom b arg.toNat
      let (items, stop) ← decodeItems decode b arg.toNat n
      .ok (.array items, stop)
  else if major = 5 then
    if arg.toNat > left then .error (.failed errCBORTruncated.err)
    else do
      makeRoom b arg.toNat
      let (entries, stop) ← decodeEntries decode b arg.toNat none n
      .ok (.cborMap entries, stop)
  else .error (.failed errCBORUnsupported.err)

end Loops

def decodeLevels : Nat → Bytes → Except Halt (CborValue × Nat)
  | 0, _ => .error (.failed errCBORDepthExceeded.err)
  | levels + 1, b =>
    if b.length = 0 then .error (.failed errCBORTruncated.err) else do
      let ib ← index b 0
      let major := ib >>> 5
      let ai := ib &&& 0x1f
      if major = 7 then
        if ai = 20 then .ok (.bool false, 1)
        else if ai = 21 then .ok (.bool true, 1)
        else if ai = 22 then .ok (.null, 1)
        else .error (.failed errCBORUnsupported.err)
      else do
        let (arg, n) ← decodeArg ai b
        decodeBody (decodeLevels levels) b major arg n

def levelsAt (depth : Int) : Nat := ((cborMaxNestingDepth : Int) + 1 - depth).toNat

end Checked

def cborDecodeChecked (b : Bytes) (depth : Int) : Except Halt (CborValue × Nat) :=
  Checked.decodeLevels (Checked.levelsAt depth) b

/-- `cborDecode` at any depth, negative ones included. -/
def cborDecodeAt (b : Bytes) (depth : Int) : Except GoError (CborValue × Nat) :=
  cborDecodeLevels (Checked.levelsAt depth) b

theorem cborDecodeAt_natCast (b : Bytes) (depth : Nat) :
    cborDecodeAt b depth = cborDecode b depth := by
  have hlevels : Checked.levelsAt depth = cborMaxNestingDepth + 1 - depth := by
    unfold Checked.levelsAt
    omega
  rw [cborDecodeAt, cborDecode, hlevels]

namespace Checked

def lift {α : Type} : Except GoError α → Except Halt α
  | .error e => .error (.failed e)
  | .ok a => .ok a

variable {b : Bytes}

theorem sliceOf_eq {low high : Nat} (hle : low ≤ high) (hlength : high ≤ b.length) :
    sliceOf b low high = .ok (slice b low high) := by
  unfold sliceOf
  rw [if_pos (by omega), Int.toNat_natCast, Int.toNat_natCast]

theorem sliceOf_tail {off : Nat} (hoff : off ≤ b.length) :
    sliceOf b off b.length = .ok (b.drop off) := by
  rw [sliceOf_eq hoff le_rfl, slice, take_length]

theorem index_range (b : Bytes) (count : Nat) : ∀ start, start + count ≤ b.length →
      (range' start count).mapM (index b) = .ok (slice b start (start + count)) := by
  induction count with
  | zero =>
    intro start _
    simp [slice]
    rfl
  | succ count ih =>
    intro start hlength
    have hstart : start < b.length := by omega
    have hindex : index b start = .ok b[start] := by
      rw [index, getElem?_eq_getElem hstart]
    have hslice : slice b start (start + (count + 1))
        = b[start] :: slice b (start + 1) (start + 1 + count) := by
      rw [slice, slice, show start + (count + 1) = start + 1 + count by omega,
        drop_eq_getElem_cons (by rw [length_take]; omega), getElem_take]
    rw [range'_succ, mapM_cons, hindex, ih (start + 1) (by omega), hslice]
    rfl

theorem decodeWideArg_eq (width bound : Nat) (b : Bytes) :
    decodeWideArg width bound b = lift (Npamp.decodeWideArg width bound b) := by
  unfold decodeWideArg Npamp.decodeWideArg
  by_cases hlength : b.length < width + 1
  · rw [if_pos hlength, if_pos hlength]
    rfl
  rw [if_neg hlength, if_neg hlength, index_range b width 1 (by omega), Nat.add_comm 1 width]
  dsimp only [bind, Except.bind]
  split <;> rfl

theorem decodeArg_eq (ai : UInt8) (b : Bytes) : decodeArg ai b = lift (Npamp.decodeArg ai b) := by
  unfold decodeArg Npamp.decodeArg
  simp only [decodeWideArg_eq]
  repeat' split
  all_goals rfl

/-- The end of a string, computed in wrapping `int`s, passes its guard exactly when it is in the
buffer. -/
theorem string_stop (arg : UInt64) {n : Nat} (hb : b.length < 2 ^ 63) (hn : n ≤ b.length) :
    (arg.toNat > b.length ∨ ((n : Int) + arg.toInt64.toInt).bmod (2 ^ 64) > b.length
        ∨ ((n : Int) + arg.toInt64.toInt).bmod (2 ^ 64) < n
      ↔ arg.toNat > b.length ∨ n + arg.toNat > b.length)
      ∧ (¬ (arg.toNat > b.length ∨ n + arg.toNat > b.length) →
        ((n : Int) + arg.toInt64.toInt).bmod (2 ^ 64) = (n + arg.toNat : Nat)) := by
  by_cases harg : arg.toNat > b.length
  · simp [harg]
  have hint : arg.toInt64.toInt = arg.toNat := Cbor.toInt_toInt64_of_le (by omega)
  rw [hint]
  by_cases hsum : n + arg.toNat < 2 ^ 63
  · have hstop : ((n : Int) + (arg.toNat : Int)).bmod (2 ^ 64) = (n + arg.toNat : Nat) := by
      rw [Int.bmod_def]
      omega
    rw [hstop]
    omega
  · have hstop : ((n : Int) + (arg.toNat : Int)).bmod (2 ^ 64) < n := by
      rw [Int.bmod_def]
      omega
    omega

section Loops

variable {decode : Bytes → Except Halt (CborValue × Nat)}
  {plain : Bytes → Except GoError (CborValue × Nat)}
  (hdecode : ∀ b : Bytes, b.length < 2 ^ 63 → decode b = lift (plain b))
  (hbound : ∀ b v n, plain b = .ok (v, n) → n ≤ b.length)
include hdecode hbound

theorem decodeItems_eq (hb : b.length < 2 ^ 63) (count : Nat) :
    ∀ off ≤ b.length, decodeItems decode b count off
      = lift ((Npamp.decodeItems plain count (b.drop off)).map fun r => (r.1, off + r.2)) := by
  induction count with
  | zero => intro off _; rfl
  | succ count ih =>
    intro off hoff
    rw [decodeItems, Npamp.decodeItems, sliceOf_tail hoff]
    dsimp only [bind, Except.bind]
    rw [hdecode _ (by rw [length_drop]; omega)]
    cases hplain : plain (b.drop off) with
    | error e => rfl
    | ok r =>
      have hr := hbound _ _ _ hplain
      rw [length_drop] at hr
      dsimp only [lift]
      rw [ih (off + r.2) (by omega), drop_drop]
      cases Npamp.decodeItems plain count (b.drop (off + r.2)) with
      | error e => rfl
      | ok s => simp [lift, Except.map, Nat.add_assoc]

theorem decodeEntries_eq (hb : b.length < 2 ^ 63) (count : Nat) :
    ∀ prev, ∀ off ≤ b.length, decodeEntries decode b count prev off
      = lift ((Npamp.decodeEntries plain count prev (b.drop off)).map
          fun r => (r.1, off + r.2)) := by
  induction count with
  | zero => intro prev off _; rfl
  | succ count ih =>
    intro prev off hoff
    rw [decodeEntries, Npamp.decodeEntries, sliceOf_tail hoff]
    dsimp only [bind, Except.bind]
    rw [hdecode _ (by rw [length_drop]; omega)]
    cases hkey : plain (b.drop off) with
    | error e => rfl
    | ok r =>
      have hr := hbound _ _ _ hkey
      rw [length_drop] at hr
      have hkeyEnc : slice b off (off + r.2) = (b.drop off).take r.2 := by
        rw [slice, drop_take, Nat.add_sub_cancel_left]
      dsimp only [lift]
      rw [sliceOf_eq (Nat.le_add_right _ _) (by omega), hkeyEnc, drop_drop]
      dsimp only
      split
      · rfl
      rw [sliceOf_tail (by omega)]
      dsimp only
      rw [hdecode _ (by rw [length_drop]; omega)]
      cases hval : plain (b.drop (off + r.2)) with
      | error e => rfl
      | ok s =>
        have hs := hbound _ _ _ hval
        rw [length_drop] at hs
        dsimp only [lift]
        rw [ih _ (off + r.2 + s.2) (by omega), drop_drop, ← Nat.add_assoc]
        cases Npamp.decodeEntries plain count (some ((b.drop off).take r.2))
          (b.drop (off + r.2 + s.2)) with
        | error e => rfl
        | ok t => simp [lift, Except.map, Nat.add_assoc]

theorem decodeBody_eq (hb : b.length < 2 ^ 63) {n : Nat} (hn : n ≤ b.length) (major : UInt8)
    (arg : UInt64) :
    decodeBody decode b major arg n = lift (Npamp.decodeBody plain major b arg n) := by
  have hleft : (((b.length : Int) - n) % 2 ^ 64).toNat = b.length - n := by omega
  obtain ⟨hguard, hstop⟩ := string_stop arg hb hn
  unfold decodeBody Npamp.decodeBody
  simp only [hleft, hguard]
  split
  · rfl
  split
  · split <;> rfl
  split
  · split
    · rfl
    · rename_i hfits
      rw [hstop hfits, sliceOf_eq (Nat.le_add_right _ _) (by omega)]
      rfl
  split
  · split
    · rfl
    · have hroom : makeRoom b arg.toNat = .ok () := if_pos (by omega)
      rw [hroom, decodeItems_eq hdecode hbound hb _ n hn]
      cases Npamp.decodeItems plain arg.toNat (b.drop n) <;> rfl
  split
  · split
    · rfl
    · have hroom : makeRoom b arg.toNat = .ok () := if_pos (by omega)
      rw [hroom, decodeEntries_eq hdecode hbound hb _ _ n hn]
      cases Npamp.decodeEntries plain arg.toNat none (b.drop n) <;> rfl
  · rfl

end Loops

end Checked

theorem cborDecodeLevels_determined {levels : Nat} {b : Bytes} {v : CborValue} {n : Nat}
    (h : cborDecodeLevels levels b = .ok (v, n)) :
    1 ≤ n ∧ n ≤ b.length ∧ ∀ x, cborDecodeLevels levels (b.take n ++ x) = .ok (v, n) := by
  rw [cborDecodeLevels_eq] at h ⊢
  obtain ⟨hn, hreads⟩ :=
    cborDialect.reads_of_decode levels b v n (fun _ _ => trivial) h
  have hlength : (b.take n).length = n := length_take_of_le hn
  have hdecodes := hreads.decodes
  refine ⟨?_, hn, ?_⟩
  · have hone := cborDialect.one_le_of_decodes hdecodes
    rwa [hlength] at hone
  · intro x
    have hx := hdecodes x
    rwa [hlength] at hx

theorem Checked.decodeLevels_eq (levels : Nat) : ∀ b : Bytes, b.length < 2 ^ 63 →
      Checked.decodeLevels levels b = Checked.lift (cborDecodeLevels levels b) := by
  induction levels with
  | zero => intro b _; rfl
  | succ levels ih =>
    intro b hb
    cases b with
    | nil => rfl
    | cons ib tail =>
      have hindex : index (ib :: tail) 0 = .ok ib := rfl
      rw [Checked.decodeLevels, cborDecodeLevels, if_neg (by simp), hindex]
      dsimp only [bind, Except.bind]
      split
      · repeat' split
        all_goals rfl
      rw [Checked.decodeArg_eq]
      cases harg : Npamp.decodeArg (ib &&& 0x1f) (ib :: tail) with
      | error e => rfl
      | ok r =>
        obtain ⟨arg, n⟩ := r
        have hread : Cbor.readArg (ib &&& 0x1f) (ib :: tail) = .ok (arg, n) := by
          rw [decodeArg_eq_readArg] at harg
          cases hread : Cbor.readArg (ib &&& 0x1f) (ib :: tail) with
          | error f => rw [hread] at harg; cases harg
          | ok s => rw [hread] at harg; exact congrArg Except.ok (Except.ok.inj harg)
        exact Checked.decodeBody_eq ih (fun _ _ _ h => (cborDecodeLevels_determined h).2.1) hb
          (Cbor.head_of_readArg hread).2.1 _ _

/-- **A decoded item is determined by the octets it took**, at least one of them. No access is out
of bounds and no allocation is for more elements than there are octets. -/
theorem cborDecode_determined (b : Bytes) (depth : Int) (hb : b.length < 2 ^ 63) :
    (∀ v n, cborDecodeAt b depth = .ok (v, n) →
      1 ≤ n ∧ n ≤ b.length ∧ ∀ x, cborDecodeAt (b.take n ++ x) depth = .ok (v, n))
      ∧ cborDecodeChecked b depth ≠ .error .outOfBounds
      ∧ cborDecodeChecked b depth ≠ .error .overAllocated
      ∧ cborDecodeChecked b depth = Checked.lift (cborDecodeAt b depth) := by
  have hchecked : cborDecodeChecked b depth = Checked.lift (cborDecodeAt b depth) :=
    Checked.decodeLevels_eq (Checked.levelsAt depth) b hb
  refine ⟨fun v n h => cborDecodeLevels_determined h, ?_, ?_, hchecked⟩
  · rw [hchecked]
    cases cborDecodeAt b depth <;> rintro ⟨⟩
  · rw [hchecked]
    cases cborDecodeAt b depth <;> rintro ⟨⟩

theorem cborDecode_determined_map :
    ∃ v, cborDecode [0xa1, 0x61, 0x6b, 0x82, 0x01, 0x20, 0xff] 1 = .ok (v, 6)
      ∧ ∀ x, cborDecode ([0xa1, 0x61, 0x6b, 0x82, 0x01, 0x20] ++ x) 1 = .ok (v, 6) := by
  have h : cborDecodeAt [0xa1, 0x61, 0x6b, 0x82, 0x01, 0x20, 0xff] (1 : Nat) = .ok (_, 6) := rfl
  refine ⟨_, (cborDecodeAt_natCast _ 1).symm.trans h, fun x => ?_⟩
  have hx := ((cborDecode_determined _ (1 : Nat) (by decide)).1 _ _ h).2.2 x
  exact (cborDecodeAt_natCast _ 1).symm.trans hx

end Npamp
