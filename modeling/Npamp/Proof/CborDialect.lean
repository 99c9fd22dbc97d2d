import Npamp.Cbor
import Npamp.Lib.CborAgree

/-!
# The Go decoder as a dialect

`cborDecode` is the common CBOR recursion with Go's values, its sentinel errors and the bytewise
order of keys.
-/

namespace Npamp

open Sentinel
open Cbor

def cborFault : Fault → GoError
  | .trailing => errCBORTrailing.err
  | .truncated => errCBORTruncated.err
  | .notShortest => errCBORNotShortest.err
  | .indefinite => errCBORIndefinite.err
  | .reserved => errCBORUnsupported.err
  | .simple => errCBORUnsupported.err
  | .tag => errCBORUnsupported.err
  | .mapOrder => errCBORMapOrder.err
  | .depth => errCBORDepthExceeded.err

def cborDialect : Dialect GoError CborValue where
  fault := cborFault
  uint := .uint64
  nint arg :=
    if arg.toNat > 2 ^ 63 - 1 then .error errCBORUnsupported.err
    else .ok (.int64 (-1 - arg.toInt64))
  bytes := .bytes
  text payload := .ok (.string payload)
  array := .array
  map entries := .cborMap (entries.map fun e => .mk e.octets e.key e.val)
  bool := .bool
  null := .null
  less := byteLess

theorem encodeHead_eq_head (major : UInt8) (arg : UInt64) :
    encodeHead major arg = head major arg :=
  rfl

theorem decodeWideArg_eq {width : Nat} (hwidth : width ≤ 8) (bound : Nat) (b : Bytes) :
    decodeWideArg width bound b = (readWide width bound b).mapError cborFault := by
  unfold decodeWideArg readWide
  by_cases hlength : b.length < width + 1
  · rw [if_pos hlength, if_pos hlength]
    rfl
  rw [if_neg hlength, if_neg hlength]
  have hslice : ((b.take (width + 1)).drop 1).length ≤ 8 := by
    rw [List.length_drop, List.length_take]
    omega
  rw [show (uint64 (slice b 1 (width + 1))).toNat = BigEndian.ofBytes ((b.take (width + 1)).drop 1)
    from toNat_ofNat_ofBytes hslice]
  split <;> rfl

/-- The argument of a head is read as in every dialect, up to the texts of the errors. -/
theorem decodeArg_eq_readArg (ai : UInt8) (b : Bytes) :
    decodeArg ai b = (readArg ai b).mapError cborFault := by
  unfold decodeArg readArg
  split
  · rfl
  split
  · exact decodeWideArg_eq (by decide) _ b
  split
  · exact decodeWideArg_eq (by decide) _ b
  split
  · exact decodeWideArg_eq (by decide) _ b
  split
  · exact decodeWideArg_eq (by decide) _ b
  split <;> rfl

theorem decodeItems_eq (decode : Bytes → Except GoError (CborValue × Nat)) (count : Nat)
    (b : Bytes) : decodeItems decode count b = Cbor.decodeItems decode count b := by
  induction count generalizing b with
  | zero => rfl
  | succ count ih =>
    rw [decodeItems, Cbor.decodeItems]
    cases decode b with
    | error e => rfl
    | ok r =>
      dsimp only
      rw [ih]
      cases Cbor.decodeItems decode count (b.drop r.2) <;> rfl

theorem decodeEntries_eq (decode : Bytes → Except GoError (CborValue × Nat)) (count : Nat)
    (prev : Option Bytes) (b : Bytes) : decodeEntries decode count prev b
      = (cborDialect.decodeEntries decode count prev b).map
          fun r => (r.1.map fun e => CborEntry.mk e.octets e.key e.val, r.2) := by
  induction count generalizing prev b with
  | zero => rfl
  | succ count ih =>
    rw [decodeEntries, Dialect.decodeEntries]
    cases decode b with
    | error e => rfl
    | ok r =>
      have horder : ((prev.map fun p => !byteLess p (b.take r.2)) = some true)
          = (cborDialect.follows prev (b.take r.2) = false) := by
        cases prev with
        | none => simp [Dialect.follows]
        | some p => simp [Dialect.follows, cborDialect]
      dsimp only
      simp only [horder]
      split
      · rfl
      cases decode (b.drop r.2) with
      | error e => rfl
      | ok s =>
        dsimp only
        rw [ih]
        cases cborDialect.decodeEntries decode count (some (b.take r.2))
          (b.drop (r.2 + s.2)) <;> rfl

theorem decodeBody_eq (decode : Bytes → Except GoError (CborValue × Nat)) (major : UInt8)
    (b : Bytes) (arg : UInt64) (n : Nat) :
    decodeBody decode major b arg n = cborDialect.decodeBody decode major b arg n := by
  have hend : (arg.toNat > b.length ∨ n + arg.toNat > b.length) ↔ n + arg.toNat > b.length := by
    omega
  unfold decodeBody Dialect.decodeBody
  by_cases h0 : major = 0
  · rw [if_pos h0, if_pos h0]
    rfl
  rw [if_neg h0, if_neg h0]
  by_cases h1 : major = 1
  · rw [if_pos h1, if_pos h1]
    dsimp only [cborDialect]
    split <;> rfl
  rw [if_neg h1, if_neg h1]
  by_cases h2 : major = 2
  · subst h2
    simp only [hend, true_or, if_true]
    rfl
  by_cases h3 : major = 3
  · subst h3
    rw [if_pos (Or.inr rfl), if_neg h2, if_pos rfl]
    simp only [hend, if_neg h2]
    rfl
  rw [if_neg (not_or.mpr ⟨h2, h3⟩), if_neg h2, if_neg h3]
  by_cases h4 : major = 4
  · rw [if_pos h4, if_pos h4, decodeItems_eq]
    split
    · rfl
    · cases Cbor.decodeItems decode arg.toNat (b.drop n) <;> rfl
  rw [if_neg h4, if_neg h4]
  by_cases h5 : major = 5
  · rw [if_pos h5, if_pos h5, decodeEntries_eq]
    split
    · rfl
    · cases cborDialect.decodeEntries decode arg.toNat none (b.drop n) <;> rfl
  · rw [if_neg h5, if_neg h5]
    rfl

/-- The decoder is the one of its dialect. -/
theorem cborDecodeLevels_eq (levels : Nat) :
    cborDecodeLevels levels = cborDialect.decode levels := by
  induction levels with
  | zero => rfl
  | succ levels ih =>
    funext b
    cases b with
    | nil => rfl
    | cons ib tail =>
      rw [cborDecodeLevels, Dialect.decode, decodeArg_eq_readArg, ih]
      split
      · rfl
      · cases readArg (ib &&& 0x1f) (ib :: tail) with
        | error f => rfl
        | ok r => exact decodeBody_eq _ _ _ _ _

/-- **`cborDecodeTop` is the dialect's decoder** at nesting depth eight. -/
theorem cborDecodeTop_eq (b : Bytes) :
    cborDecodeTop b = cborDialect.decodeTop cborMaxNestingDepth b := by
  have hdecode : cborDecode b 1 = cborDialect.decode cborMaxNestingDepth b :=
    congrFun (cborDecodeLevels_eq cborMaxNestingDepth) b
  rw [cborDecodeTop, Dialect.decodeTop, hdecode]
  cases cborDialect.decode cborMaxNestingDepth b <;> rfl

theorem byteLess_eq : byteLess = lexLess := by
  funext a b
  induction a generalizing b with
  | nil => cases b <;> rfl
  | cons x a ih =>
    cases b with
    | nil => rfl
    | cons y b => rw [byteLess, lexLess, ih]

def cborVisits (b : Bytes) : List Visit := cborDialect.visits cborMaxNestingDepth b

mutual

/-- What a decoded value says. The decoder returns no `mapU`. -/
def CborValue.item : CborValue → Item
  | .uint64 v => .int v.toNat
  | .int v => .int v.toInt
  | .int64 v => .int v.toInt
  | .bytes b => .bytes b
  | .string s => .text s
  | .array items => .array (itemsOf items)
  | .cborMap entries => .map (entryItems entries)
  | .mapU _ => .map []
  | .bool b => .bool b
  | .null => .null

def itemsOf : List CborValue → List Item
  | [] => []
  | v :: rest => v.item :: itemsOf rest

def entryItems : List CborEntry → List (Item × Item)
  | [] => []
  | .mk _ key val :: rest => (key.item, val.item) :: entryItems rest

end

theorem itemsOf_eq_map : ∀ items, itemsOf items = items.map CborValue.item :=
  eq_map_of_cons rfl fun _ _ => rfl

theorem cborDialect_meaning : cborDialect.Meaning CborValue.item where
  uint _ := rfl
  bytes _ := rfl
  array items := congrArg Item.array (itemsOf_eq_map items)
  map entries := congrArg Item.map
    (eq_map_of_cons (g := fun es => entryItems (es.map _)) rfl (fun _ _ => rfl) entries)
  bool _ := rfl
  null := rfl

end Npamp
