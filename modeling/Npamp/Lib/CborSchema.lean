import Npamp.Lib.CborAgree

/-!
# Body schemas over CBOR items

A body is a map whose fields are described by a list. Keys a schema does not name are let through if
they are unsigned integers.
-/

namespace Cbor

open List

inductive Kind where
  | uint
  | text
  | bytes
  | array
  | map
  | bool
  | number
  deriving DecidableEq, Repr

structure Field where
  key : UInt64
  kind : Kind
  required : Bool
  deriving DecidableEq, Repr

namespace Item

def hasKind : Item → Kind → Bool
  | .int v, .uint => 0 ≤ v
  | .int _, .number => true
  | .text _, .text => true
  | .bytes _, .bytes => true
  | .array _, .array => true
  | .map _, .map => true
  | .bool _, .bool => true
  | _, _ => false

def isKey (key : UInt64) : Item → Bool
  | .int v => v = key.toNat
  | _ => false

def elements : Item → List Item
  | .array items => items
  | _ => []

def text? : Item → Option (List UInt8)
  | .text s => some s
  | _ => none

end Item

def get (entries : List (Item × Item)) (key : UInt64) : Option Item :=
  (entries.find? fun e => e.1.isKey key).map Prod.snd

def fieldOk (entries : List (Item × Item)) (f : Field) : Bool :=
  match get entries f.key with
  | none => !f.required
  | some v => v.hasKind f.kind

def keysOk (entries : List (Item × Item)) : Bool := entries.all fun e => e.1.hasKind .uint

def fieldsOk (schema : List Field) (entries : List (Item × Item)) : Bool :=
  schema.all (fieldOk entries) && keysOk entries

def mapOk (schema : List Field) : Item → Bool
  | .map entries => fieldsOk schema entries
  | _ => false

def arrayOk (schema : List Field) : Item → Bool
  | .array items => items.all (mapOk schema)
  | _ => false

def elementsAt (entries : List (Item × Item)) (key : UInt64) : List Item :=
  ((get entries key).map Item.elements).getD []

theorem get_map {ι : Type} {key val : ι → Item} {p : ι → Bool} {k : UInt64} {l : List ι}
    (h : ∀ i ∈ l, (key i).isKey k = p i) :
    get (l.map fun i => (key i, val i)) k = (l.find? p).map val := by
  induction l with
  | nil => rfl
  | cons i l ih =>
    have hi := h i mem_cons_self
    have hrest := ih fun j hj => h j (mem_cons_of_mem _ hj)
    rw [get, map_cons, find?_cons, find?_cons, hi]
    cases p i with
    | true => rfl
    | false => exact hrest

theorem hasKind_of_fieldsOk {schema : List Field} {entries : List (Item × Item)}
    (h : fieldsOk schema entries = true) {f : Field} (hf : f ∈ schema)
    (hrequired : f.required = true) : ∃ v, get entries f.key = some v ∧ v.hasKind f.kind = true := by
  have hfield := all_eq_true.mp (Bool.and_eq_true_iff.mp h).1 f hf
  unfold fieldOk at hfield
  split at hfield
  · rw [hrequired] at hfield
    cases hfield
  · rename_i v hv
    exact ⟨v, hv, hfield⟩

section Kinds

variable {v : Item}

theorem Item.exists_eq_array (h : v.hasKind .array = true) : ∃ items, v = .array items := by
  cases v <;> first | exact ⟨_, rfl⟩ | cases h

theorem Item.exists_eq_text (h : v.hasKind .text = true) : ∃ octets, v = .text octets := by
  cases v <;> first | exact ⟨_, rfl⟩ | cases h

theorem Item.exists_eq_int (h : v.hasKind .number = true) : ∃ n, v = .int n := by
  cases v <;> first | exact ⟨_, rfl⟩ | cases h

theorem Item.exists_eq_natCast (h : v.hasKind .uint = true) : ∃ n : Nat, v = .int n := by
  cases v with
  | int n => exact ⟨n.toNat, by rw [Int.toNat_of_nonneg (of_decide_eq_true h)]⟩
  | _ => cases h

end Kinds

theorem exists_of_mem_keys {entries : List (Item × Item)} (h : keysOk entries = true)
    {e : Item × Item} (he : e ∈ entries) : ∃ n : Nat, e.1 = .int n :=
  Item.exists_eq_natCast (all_eq_true.mp h e he)

theorem Item.isSome_text? (v : Item) : v.text?.isSome = v.hasKind .text := by
  cases v <;> rfl

section Checks

variable {ε α β ι : Type}

theorem isOk_seq (x : Except ε α) (y : Except ε β) :
    (x >>= fun _ => y).isOk = (x.isOk && y.isOk) := by
  cases x <;> rfl

theorem isOk_forM (f : ι → Except ε Unit) (l : List ι) :
    (l.forM f).isOk = l.all fun i => (f i).isOk := by
  induction l with
  | nil => rfl
  | cons i l ih =>
    change (f i >>= fun _ => l.forM f).isOk = _
    rw [isOk_seq, ih, all_cons]

theorem isOk_forM_of_mem {f : ι → Except ε Unit} {p : ι → Bool} {l : List ι}
    (h : ∀ i ∈ l, (f i).isOk = p i) : (l.forM f).isOk = l.all p := by
  rw [isOk_forM, Bool.eq_iff_iff, all_eq_true, all_eq_true]
  exact forall₂_congr fun i hi => by rw [h i hi]

theorem isOk_forM_zipIdx {f : Nat → ι → Except ε Unit} {p : ι → Bool} {l : List ι}
    (h : ∀ n, ∀ i ∈ l, (f n i).isOk = p i) :
    (l.zipIdx.forM fun el => f el.2 el.1).isOk = l.all p := by
  have hzip : (l.zipIdx.forM fun el => f el.2 el.1).isOk = l.zipIdx.all (p ∘ Prod.fst) :=
    isOk_forM_of_mem fun el hel => h el.2 el.1 (fst_mem_of_mem_zipIdx hel)
  rw [hzip, ← all_map, zipIdx_map_fst]

theorem mapM_cases {γ : Type} {f : ι → Except ε α} {g : ι → Option γ} {out : α → γ} {l : List ι}
    (h : ∀ i ∈ l, (∃ a, f i = .ok a ∧ g i = some (out a)) ∨ (f i).isOk = false ∧ g i = none) :
    (∃ as, l.mapM f = .ok as ∧ l.filterMap g = as.map out ∧ l.all (fun i => (g i).isSome) = true)
      ∨ (l.mapM f).isOk = false ∧ l.all (fun i => (g i).isSome) = false := by
  induction l with
  | nil => exact .inl ⟨[], rfl, rfl, rfl⟩
  | cons i l ih =>
    rw [mapM_cons, all_cons]
    rcases h i mem_cons_self with ⟨a, hf, hg⟩ | ⟨hf, hg⟩
    · rcases ih fun j hj => h j (mem_cons_of_mem _ hj) with ⟨as, hl, hfilter, hall⟩ | ⟨hl, hall⟩
      · refine .inl ⟨a :: as, ?_, ?_, ?_⟩
        · rw [hf, hl]
          rfl
        · rw [filterMap_cons_some hg, hfilter, map_cons]
        · rw [hg, hall]
          rfl
      · refine .inr ⟨?_, ?_⟩
        · rw [hf]
          cases hm : l.mapM f with
          | error e => rfl
          | ok as => rw [hm] at hl; cases hl
        · rw [hall, Bool.and_false]
    · refine .inr ⟨?_, ?_⟩
      · cases hi : f i with
        | error e => rfl
        | ok a => rw [hi] at hf; cases hf
      · rw [hg]
        rfl

theorem isOk_mapM_bind {f : ι → Except ε α} {item : ι → Item} {out : α → List UInt8} {l : List ι}
    {next : List α → Except ε β} (ok : List (List UInt8) → Bool)
    (h : ∀ i ∈ l, (∃ a, f i = .ok a ∧ (item i).text? = some (out a))
      ∨ (f i).isOk = false ∧ (item i).text? = none)
    (hnext : ∀ as, (next as).isOk = ok (as.map out)) : (l.mapM f >>= next).isOk
      = ((l.map item).all (fun v => v.hasKind .text) && ok ((l.map item).filterMap Item.text?)) := by
  have htexts : (l.map item).all (fun v => v.hasKind .text)
      = l.all fun i => (item i).text?.isSome := by
    rw [all_map]
    congr 1
    funext i
    exact ((item i).isSome_text?).symm
  have hfilterMap : (l.map item).filterMap Item.text? = l.filterMap fun i => (item i).text? := by
    rw [filterMap_map]
    rfl
  rw [htexts, hfilterMap]
  rcases mapM_cases h with ⟨as, hmap, hfilter, hall⟩ | ⟨hmap, hall⟩
  · rw [hmap, hfilter, hall, Bool.true_and]
    exact hnext as
  rw [hall, Bool.false_and]
  cases hm : l.mapM f with
  | error e => rfl
  | ok as => rw [hm] at hmap; cases hmap

theorem isOk_mapError {ε' : Type} (f : ε → ε') (x : Except ε α) : (x.mapError f).isOk = x.isOk := by
  cases x <;> rfl

end Checks

end Cbor
