import Npamp.Python.Cbor
import Npamp.TypeScript.Cbor
import Npamp.Proof.CborDialect

/-!
# The Python and TypeScript decoders against the Go one

What remains on maps keyed by unsigned integers are the conversions of text and of negative
integers.
-/

namespace Npamp

open Cbor

namespace Python

theorem cborDecodeTop_eq (b : Bytes) :
    cborDecodeTop b = dialect.decodeTop cborMaxNestingDepth b := by
  unfold cborDecodeTop Dialect.decodeTop
  rw [show decode b 1 = dialect.decode cborMaxNestingDepth b from rfl]
  cases dialect.decode cborMaxNestingDepth b <;> rfl

def visits (b : Bytes) : List Visit := dialect.visits cborMaxNestingDepth b

mutual

def CborValue.item : CborValue → Item
  | .int v => .int v
  | .bytes b => .bytes b
  | .str s => .text s.octets
  | .list items => .array (itemsOf items)
  | .map entries => .map (entryItems entries)
  | .bool b => .bool b
  | .none => .null

def itemsOf : List CborValue → List Item
  | [] => []
  | v :: rest => v.item :: itemsOf rest

def entryItems : List CborEntry → List (Item × Item)
  | [] => []
  | .mk key val :: rest => (key.item, val.item) :: entryItems rest

end

theorem dialect_meaning : dialect.Meaning CborValue.item where
  uint _ := rfl
  bytes _ := rfl
  array items := congrArg Item.array (eq_map_of_cons rfl (fun _ _ => rfl) items)
  map entries := congrArg Item.map
    (eq_map_of_cons (g := fun es => entryItems (es.map _)) rfl (fun _ _ => rfl) entries)
  bool _ := rfl
  null := rfl

theorem isCborError_raised (f : Fault) : (raised f).isCborError = true := by
  cases f <;> rfl

theorem stricter_of_unsignedKey {x : Visit} (hitem : Npamp.cborDialect.KeyIsItem x)
    (hkeys : x.unsignedKey = true) :
    Dialect.Stricter Npamp.cborDialect dialect (fun v w => v.item = w.item)
      (fun e => e.isCborError = true) (fun e => e.isCborError = false) (Visit.utf8 true) x := by
  cases x with
  | nint arg =>
    refine ⟨fun _ => ?_, fun hbad => by cases hbad⟩
    change Same _ _ (if _ then _ else _) (if _ then _ else _)
    split
    · exact .error _ rfl
    · rename_i harg
      exact .ok (congrArg Item.int (toInt_neg_one_sub_toInt64 (Nat.not_lt.mp harg)))
  | text payload =>
    have htext : dialect.text payload = (decodeUtf8 payload).map .str := rfl
    refine ⟨fun hvalid => ?_, fun hinvalid => ⟨.unicodeDecodeError, ?_, rfl⟩⟩
    · change Utf8.valid true payload = true at hvalid
      change Same _ _ _ (dialect.text payload)
      rw [htext, decodeUtf8, dif_pos hvalid]
      exact .ok rfl
    · change Utf8.valid true payload = false at hinvalid
      rw [htext, decodeUtf8, dif_neg (by rw [hinvalid]; exact Bool.false_ne_true)]
      rfl
  | key prev octets =>
    refine ⟨fun _ => ?_, fun hbad => by cases hbad⟩
    exact Dialect.follows_eq_of_oneKind Npamp.byteLess_eq rfl hitem
      (Visit.oneKind_of_unsignedKey hkeys)

theorem lockstep_cborDecodeTop {b : Bytes} (hkeys : ∀ x ∈ Npamp.cborVisits b, x.unsignedKey = true) :
    Lockstep (fun v w => v.item = w.item) (fun e => e.isCborError = true)
      (fun e => e.isCborError = false) (Visit.utf8 true) (Npamp.cborVisits b)
      (Npamp.cborDecodeTop b) (cborDecodeTop b) := by
  rw [Npamp.cborDecodeTop_eq, cborDecodeTop_eq]
  refine Dialect.lockstep_decodeTop
    (Npamp.cborDialect_meaning.related dialect_meaning isCborError_raised) fun x hx => ?_
  exact stricter_of_unsignedKey (Dialect.keyIsItem_visits _ _ x hx) (hkeys x hx)

theorem agrees_iff {b : Bytes} (hkeys : ∀ x ∈ Npamp.cborVisits b, x.unsignedKey = true) :
    ((Npamp.cborDecodeTop b).toOption.map Npamp.CborValue.item
          = (cborDecodeTop b).toOption.map CborValue.item
        ∧ ∀ e, cborDecodeTop b = .error e → e.isCborError = true)
      ↔ ∀ x ∈ Npamp.cborVisits b, x.utf8 true = true := by
  have hstep := lockstep_cborDecodeTop hkeys
  generalize Npamp.cborDecodeTop b = r, cborDecodeTop b = r' at hstep
  cases hstep with
  | same hok hsame =>
    exact iff_of_true ⟨hsame.toOption_eq, fun e he => hsame.error_of_eq he⟩ hok
  | refused hx hbad _ he =>
    refine iff_of_false (fun h => ?_) fun h => ?_
    · rw [h.2 _ rfl] at he
      cases he
    · rw [h _ hx] at hbad
      cases hbad

end Python

namespace TypeScript

theorem decodeTop_eq (b : Bytes) : decodeTop b = dialect.decodeTop cborMaxNestingDepth b := by
  unfold decodeTop Dialect.decodeTop
  rw [show decode b 1 = dialect.decode cborMaxNestingDepth b from rfl]
  cases dialect.decode cborMaxNestingDepth b <;> rfl

def visits (b : Bytes) : List Visit := dialect.visits cborMaxNestingDepth b

mutual

def CborValue.item : CborValue → Item
  | .bigint v => .int v
  | .buffer b => .bytes b
  | .string octets => .text octets
  | .array items => .array (itemsOf items)
  | .map entries => .map (entryItems entries)
  | .boolean b => .bool b
  | .null => .null

def itemsOf : List CborValue → List Item
  | [] => []
  | v :: rest => v.item :: itemsOf rest

def entryItems : List CborEntry → List (Item × Item)
  | [] => []
  | .mk _ key val :: rest => (key.item, val.item) :: entryItems rest

end

theorem dialect_meaning : dialect.Meaning CborValue.item where
  uint _ := rfl
  bytes _ := rfl
  array items := congrArg Item.array (eq_map_of_cons rfl (fun _ _ => rfl) items)
  map entries := congrArg Item.map
    (eq_map_of_cons (g := fun es => entryItems (es.map _)) rfl (fun _ _ => rfl) entries)
  bool _ := rfl
  null := rfl

theorem stricter_of_unsignedKey {x : Visit} (hitem : dialect.KeyIsItem x)
    (hkeys : x.unsignedKey = true) :
    Dialect.Stricter dialect Npamp.cborDialect (fun w v => w.item = v.item.lossy) (fun _ => True)
      (fun _ => True) Visit.int64 x := by
  cases x with
  | nint arg =>
    refine ⟨fun hok => ?_, fun hbad => ⟨_, if_pos ?_, trivial⟩⟩
    · have harg : arg.toNat ≤ 2 ^ 63 - 1 := by simpa [Visit.int64] using hok
      change Same _ _ _ (if _ then _ else _)
      rw [if_neg (Nat.not_lt.mpr harg)]
      exact .ok (congrArg Item.int (toInt_neg_one_sub_toInt64 harg).symm)
    · simpa [Visit.int64] using hbad
  | text payload => exact ⟨fun _ => .ok rfl, fun hbad => by cases hbad⟩
  | key prev octets =>
    refine ⟨fun _ => ?_, fun hbad => by cases hbad⟩
    exact (Dialect.follows_eq_of_oneKind Npamp.byteLess_eq rfl hitem
      (Visit.oneKind_of_unsignedKey hkeys)).symm

/-- **Go refuses of what TypeScript accepts** the integers out of its range, and only these. -/
theorem lossy_cborDecodeTop {b : Bytes} (hkeys : ∀ x ∈ visits b, x.unsignedKey = true) :
    (Npamp.cborDecodeTop b).toOption.map (fun v => v.item.lossy)
      = if ∀ x ∈ visits b, x.int64 = true then (decodeTop b).toOption.map CborValue.item
        else none := by
  rw [Npamp.cborDecodeTop_eq, decodeTop_eq]
  have hstep := Dialect.lockstep_decodeTop
    (dialect_meaning.related Npamp.cborDialect_meaning.lossy (P := fun _ => True)
      fun _ => trivial)
    fun x hx => stricter_of_unsignedKey (Dialect.keyIsItem_visits _ _ x hx) (hkeys x hx)
  change Lockstep _ _ _ _ (visits b) _
    (Npamp.cborDialect.decodeTop Npamp.cborMaxNestingDepth b) at hstep
  generalize dialect.decodeTop cborMaxNestingDepth b = r,
    Npamp.cborDialect.decodeTop Npamp.cborMaxNestingDepth b = r' at hstep ⊢
  cases hstep with
  | same hok hsame => rw [if_pos hok, hsame.toOption_eq]
  | refused hx hbad =>
    rw [if_neg fun hok => ?_]
    · rfl
    · rw [hok _ hx] at hbad
      cases hbad

theorem agrees_iff {b : Bytes} (hkeys : ∀ x ∈ visits b, x.unsignedKey = true) :
    (Npamp.cborDecodeTop b).toOption.map Npamp.CborValue.item
        = (decodeTop b).toOption.map CborValue.item
      ↔ ((decodeTop b).isOk = true → ∀ x ∈ visits b, x.int64 = true)
        ∧ ∀ v, Npamp.cborDecodeTop b = .ok v → v.item.lossy = v.item := by
  have hlossy := lossy_cborDecodeTop hkeys
  split at hlossy
  · rename_i hints
    rw [← hlossy]
    cases Npamp.cborDecodeTop b with
    | error e => exact iff_of_true rfl ⟨fun _ => hints, nofun⟩
    | ok v =>
      refine ⟨fun h => ⟨fun _ => hints, ?_⟩, fun h => congrArg some (h.2 v rfl).symm⟩
      rintro _ ⟨⟩
      exact (Option.some.inj h).symm
  · rename_i hints
    cases hgo : Npamp.cborDecodeTop b with
    | ok v =>
      rw [hgo] at hlossy
      cases hlossy
    | error e =>
      cases decodeTop b with
      | error e' => exact iff_of_true rfl ⟨nofun, nofun⟩
      | ok w => exact iff_of_false nofun fun h => hints (h.1 rfl)

end TypeScript

end Npamp
