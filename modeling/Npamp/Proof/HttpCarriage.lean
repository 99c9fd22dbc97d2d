import Npamp.Proxy.Http
import Npamp.Rust.Http
import Npamp.Proof.Memory
import Npamp.Proof.RustBodies

/-!
# HTTP-Carriage Objects survive the trip

Both receivers look at a map through the same four questions about a value, and answer them alike
for values that say the same.
-/

namespace Npamp

open HttpCarriageObject Option
open Cbor

variable {get : UInt64 → Option CborValue} {key : UInt64}

/-! ### Two receivers -/

def HeaderKV.map {σ τ : Type} (f : σ → τ) (kv : HeaderKV σ) : HeaderKV τ := ⟨f kv.name, kv.value⟩

def HttpCarriageObject.map {σ τ : Type} (f : σ → τ) (obj : HttpCarriageObject σ) :
    HttpCarriageObject τ :=
  { kind := obj.kind, method := obj.method.map f, target := obj.target.map f, status := obj.status
    headers := obj.headers.map (HeaderKV.map f), body := obj.body }

namespace Receiver

variable {α σ ε α' σ' ε' : Type}

/-- Two receivers read related values alike: every getter agrees on them, up to the text types. -/
structure Alike (R : Receiver α σ ε) (R' : Receiver α' σ' ε') (S : α → α' → Prop) : Prop where
  uint : ∀ {a b}, S a b → R.uint a = R'.uint b
  text : ∀ {a b}, S a b → Rel (fun s t => R.octets s = R'.octets t) (R.text a) (R'.text b)
  bytes : ∀ {a b}, S a b → R.bytes a = R'.bytes b
  array : ∀ {a b}, S a b → Rel (List.Forall₂ S) (R.array a) (R'.array b)

variable {R : Receiver α σ ε} {R' : Receiver α' σ' ε'} {S : α → α' → Prop}

abbrev SameUpTo {β β' γ : Type} (f : β → γ) (g : β' → γ) : Except ε β → Except ε' β' → Prop :=
  Same (fun x y => f x = g y) fun _ => True

theorem same_err {β β' : Type} {Q : β → β' → Prop} (reason reason' : String) :
    Same Q (fun _ => True) (R.err reason) (R'.err reason') :=
  .error _ trivial

section

variable (hR : R.Alike R' S)
include hR

theorem same_decodeHeaderEntry {a : α} {b : α'} (h : S a b) :
    SameUpTo (HeaderKV.map R.octets) (HeaderKV.map R'.octets) (R.decodeHeaderEntry a)
      (R'.decodeHeaderEntry b) := by
  have harray := hR.array h
  unfold decodeHeaderEntry
  generalize R.array a = x, R'.array b = y at harray
  cases harray with
  | none => exact same_err _ _
  | some hxs =>
    cases hxs with
    | nil => exact same_err _ _
    | cons hname hrest =>
      cases hrest with
      | nil => exact same_err _ _
      | cons hval hrest =>
        cases hrest with
        | cons _ _ => exact same_err _ _
        | nil =>
          dsimp only
          rw [← hR.bytes hval]
          have htext := hR.text hname
          generalize R.text _ = s, R'.text _ = t at htext
          cases htext with
          | none => exact same_err _ _
          | some hs =>
            dsimp only
            split
            · exact same_err _ _
            · exact .ok (by rw [HeaderKV.map, HeaderKV.map, hs])

theorem same_decodeHeaderEntries {xs : List α} {ys : List α'} (h : List.Forall₂ S xs ys) :
    SameUpTo (List.map (HeaderKV.map R.octets)) (List.map (HeaderKV.map R'.octets))
      (R.decodeHeaderEntries xs) (R'.decodeHeaderEntries ys) := by
  induction h with
  | nil => exact .ok rfl
  | cons hhead _ ih =>
    refine Same.bind (same_decodeHeaderEntry hR hhead) fun kv kv' hkv => ?_
    refine Same.bind ih fun out out' hout => ?_
    exact .ok (by rw [List.map_cons, List.map_cons, hkv, hout])

theorem same_decodeHeaderList {a : α} {b : α'} (h : S a b) :
    SameUpTo (List.map (HeaderKV.map R.octets)) (List.map (HeaderKV.map R'.octets))
      (R.decodeHeaderList a) (R'.decodeHeaderList b) := by
  have harray := hR.array h
  unfold decodeHeaderList
  generalize R.array a = x, R'.array b = y at harray
  cases harray with
  | none => exact same_err _ _
  | some hxs => exact same_decodeHeaderEntries hR hxs

variable {get : UInt64 → Option α} {get' : UInt64 → Option α'}
  (hget : ∀ key, Rel S (get key) (get' key))
include hget

theorem same_decodeKind (wantKind : UInt64) :
    SameUpTo id id (R.decodeKind get wantKind) (R'.decodeKind get' wantKind) := by
  have hone := hget 1
  unfold decodeKind
  generalize get 1 = x, get' 1 = y at hone
  cases hone with
  | none => exact same_err _ _
  | some h =>
    dsimp only
    rw [← hR.uint h]
    split
    · exact same_err _ _
    · split
      · exact same_err _ _
      · exact .ok rfl

theorem same_decodeText (key : UInt64) (reason : String) :
    SameUpTo R.octets R'.octets (R.decodeText get key reason) (R'.decodeText get' key reason) := by
  have hkey : Rel (fun s t => R.octets s = R'.octets t) ((get key).bind R.text)
      ((get' key).bind R'.text) := by
    have hkey := hget key
    generalize get key = x, get' key = y at hkey
    cases hkey with
    | none => exact .none
    | some h => exact hR.text h
  unfold decodeText
  generalize (get key).bind R.text = s, (get' key).bind R'.text = t at hkey
  cases hkey with
  | none => exact same_err _ _
  | some hs =>
    dsimp only
    rw [← hs]
    split
    · exact same_err _ _
    · exact .ok hs

theorem same_decodeStatus : SameUpTo id id (R.decodeStatus get) (R'.decodeStatus get') := by
  have hsix := hget 6
  unfold decodeStatus
  generalize get 6 = x, get' 6 = y at hsix
  cases hsix with
  | none => exact same_err _ _
  | some h =>
    dsimp only
    rw [← hR.uint h]
    split
    · exact same_err _ _
    · split
      · exact same_err _ _
      · exact .ok rfl

omit hR in
theorem same_absent (key : UInt64) (reason : String) :
    SameUpTo id id (R.absent get key reason) (R'.absent get' key reason) := by
  have hkey := hget key
  unfold absent
  generalize get key = x, get' key = y at hkey
  cases hkey with
  | none => exact .ok rfl
  | some h => exact same_err _ _

theorem same_decodeStart (kind : UInt64) :
    SameUpTo (fun s => (s.1.map R.octets, s.2.1.map R.octets, s.2.2))
      (fun s => (s.1.map R'.octets, s.2.1.map R'.octets, s.2.2))
      (R.decodeStart get kind) (R'.decodeStart get' kind) := by
  unfold decodeStart
  split_ifs
  · refine Same.bind (same_decodeText hR hget _ _) fun method method' hmethod => ?_
    refine Same.bind (same_decodeText hR hget _ _) fun target target' htarget => ?_
    refine Same.bind (same_absent hget _ _) fun _ _ _ => ?_
    exact .ok (by simp only [map_some, hmethod, htarget])
  · refine Same.bind (same_decodeStatus hR hget) fun status status' hstatus => ?_
    refine Same.bind (same_absent hget _ _) fun _ _ _ => ?_
    refine Same.bind (same_absent hget _ _) fun _ _ _ => ?_
    obtain rfl : status = status' := hstatus
    exact .ok rfl
  · exact same_err _ _

omit hR hget in
theorem find?_pseudoHeader {hdrs : List (HeaderKV σ)} {hdrs' : List (HeaderKV σ')}
    (h : hdrs.map (HeaderKV.map R.octets) = hdrs'.map (HeaderKV.map R'.octets)) :
    (hdrs.find? fun kv => R.isPseudoHeader kv.name).isSome
      = (hdrs'.find? fun kv => R'.isPseudoHeader kv.name).isSome := by
  have hany : ∀ {σ ε α : Type} (R : Receiver α σ ε) (l : List (HeaderKV σ)),
      (l.find? fun kv => R.isPseudoHeader kv.name).isSome
        = (l.map (HeaderKV.map R.octets)).any fun kv => kv.name ∈ pseudoHeaders := by
    intro σ ε α R l
    rw [Bool.eq_iff_iff, List.find?_isSome, List.any_map, List.any_eq_true]
    rfl
  rw [hany, hany, h]

theorem same_decodeHeaders :
    SameUpTo (List.map (HeaderKV.map R.octets)) (List.map (HeaderKV.map R'.octets))
      (R.decodeHeaders get) (R'.decodeHeaders get') := by
  have height := hget 8
  unfold decodeHeaders
  generalize get 8 = x, get' 8 = y at height
  cases height with
  | none => exact .ok rfl
  | some h =>
    refine Same.bind (same_decodeHeaderList hR h) fun hdrs hdrs' hhdrs => ?_
    have hfound := find?_pseudoHeader hhdrs
    generalize (hdrs.find? _) = x, (hdrs'.find? _) = y at hfound
    cases x with
    | none =>
      cases y with
      | none => exact .ok hhdrs
      | some _ => cases hfound
    | some _ =>
      cases y with
      | none => cases hfound
      | some _ => exact same_err _ _

theorem same_decodeBody : SameUpTo id id (R.decodeBody get) (R'.decodeBody get') := by
  have hnine := hget 9
  unfold decodeBody
  generalize get 9 = x, get' 9 = y at hnine
  cases hnine with
  | none => exact .ok rfl
  | some h =>
    dsimp only
    rw [← hR.bytes h]
    split
    · exact same_err _ _
    · exact .ok rfl

/-- **Receivers that look alike read alike.** -/
theorem same_decodeObject (wantKind : UInt64) :
    SameUpTo (map R.octets) (map R'.octets)
      (R.decodeObject get wantKind) (R'.decodeObject get' wantKind) := by
  refine Same.bind (same_decodeKind hR hget wantKind) fun kind kind' hkind => ?_
  cases hkind
  refine Same.bind (same_decodeStart hR hget kind) fun start start' hstart => ?_
  refine Same.bind (same_decodeHeaders hR hget) fun hdrs hdrs' hhdrs => ?_
  refine Same.bind (same_decodeBody hR hget) fun body body' hbody => ?_
  obtain ⟨method, target, status⟩ := start
  obtain ⟨method', target', status'⟩ := start'
  simp only [Prod.mk.injEq] at hstart
  obtain ⟨hmethod, htarget, rfl⟩ := hstart
  cases hbody
  exact .ok (by simp only [map, hmethod, htarget, hhdrs])

end

end Receiver

/-! ### Values of the two decoders -/

def itemUint : Item → Option UInt64
  | .int v => if 0 ≤ v then some (UInt64.ofNat v.toNat) else none
  | _ => none

def itemBytes : Item → Option Bytes
  | .bytes b => some b
  | _ => none

def itemArray : Item → Option (List Item)
  | .array items => some items
  | _ => none

theorem itemUint_toNat (v : UInt64) : itemUint (.int v.toNat) = some v := by
  simp [itemUint]

theorem itemUint_neg {v : Int64} (h : v < 0) : itemUint (.int v.toInt) = none :=
  if_neg (not_le.mpr (toInt_neg h))

section Go

variable {v : CborValue} (hv : v.Decoded)
include hv

theorem goReceiver_uint : goReceiver.uint (cborToGo v) = itemUint v.item := by
  cases hv with
  | uint64 v => exact (itemUint_toNat v).symm
  | int64 hneg => exact (itemUint_neg hneg).symm
  | _ => rfl

theorem goReceiver_text : goReceiver.text (cborToGo v) = v.item.text? := by
  cases hv <;> rfl

theorem goReceiver_bytes : goReceiver.bytes (cborToGo v) = itemBytes v.item := by
  cases hv <;> rfl

omit hv in
theorem cborToGoItems_eq_map (items : List CborValue) :
    cborToGoItems items = items.map cborToGo := by
  induction items with
  | nil => rfl
  | cons item rest ih => rw [cborToGoItems, ih, List.map_cons]

theorem goReceiver_array : (goReceiver.array (cborToGo v) = none ∧ itemArray v.item = none)
      ∨ ∃ items : List CborValue, (∀ w ∈ items, w.Decoded)
        ∧ goReceiver.array (cborToGo v) = some (items.map cborToGo)
        ∧ itemArray v.item = some (items.map CborValue.item) := by
  cases hv with
  | @array items hitems =>
    refine .inr ⟨items, hitems, ?_, ?_⟩
    · change some (cborToGoItems items) = _
      rw [cborToGoItems_eq_map]
    · rw [item_array]
      rfl
  | _ => exact .inl ⟨rfl, rfl⟩

end Go

namespace Rust

variable {v : CborValue} (hv : v.Decoded)
include hv

theorem receiver_uint : receiver.uint v = itemUint v.item := by
  cases hv with
  | uint v => exact (itemUint_toNat v).symm
  | nint hneg => exact (itemUint_neg hneg).symm
  | _ => rfl

theorem receiver_text : (receiver.text v).map Str.octets = v.item.text? := by
  cases hv <;> rfl

theorem receiver_bytes : receiver.bytes v = itemBytes v.item := by
  cases hv <;> rfl

theorem receiver_array : (receiver.array v = none ∧ itemArray v.item = none)
      ∨ ∃ items : List CborValue, (∀ w ∈ items, w.Decoded) ∧ receiver.array v = some items
        ∧ itemArray v.item = some (items.map CborValue.item) := by
  cases hv with
  | @array items hitems =>
    refine .inr ⟨items, hitems, rfl, ?_⟩
    rw [item_array]
    rfl
  | _ => exact .inl ⟨rfl, rfl⟩

end Rust

/-- The Go and the Rust value come from the same item. -/
def SaysTheSame (a : CborValue) (b : Rust.CborValue) : Prop :=
  ∃ v : CborValue, v.Decoded ∧ b.Decoded ∧ v.item = b.item ∧ a = cborToGo v

theorem forall₂_saysTheSame {items : List CborValue} {items' : List Rust.CborValue}
    (hitems : ∀ w ∈ items, w.Decoded) (hitems' : ∀ w ∈ items', w.Decoded)
    (h : items.map CborValue.item = items'.map Rust.CborValue.item) :
    List.Forall₂ SaysTheSame (items.map cborToGo) items' := by
  induction items generalizing items' with
  | nil =>
    cases items' with
    | nil => exact .nil
    | cons _ _ => cases h
  | cons v rest ih =>
    cases items' with
    | nil => cases h
    | cons w rest' =>
      obtain ⟨hhead, hrest⟩ := List.cons.inj h
      obtain ⟨hv, hitems⟩ := List.forall_mem_cons.mp hitems
      obtain ⟨hw, hitems'⟩ := List.forall_mem_cons.mp hitems'
      exact .cons ⟨v, hv, hw, hhead, rfl⟩ (ih hitems hitems' hrest)

theorem alike_receivers : goReceiver.Alike Rust.receiver SaysTheSame where
  uint := by
    rintro _ b ⟨v, hv, hb, hitem, rfl⟩
    rw [goReceiver_uint hv, Rust.receiver_uint hb, hitem]
  text := by
    rintro _ b ⟨v, hv, hb, hitem, rfl⟩
    have hgo := goReceiver_text hv
    have hrust := Rust.receiver_text hb
    rw [hitem, ← hrust] at hgo
    rw [hgo]
    cases Rust.receiver.text b with
    | none => exact .none
    | some s => exact .some rfl
  bytes := by
    rintro _ b ⟨v, hv, hb, hitem, rfl⟩
    rw [goReceiver_bytes hv, Rust.receiver_bytes hb, hitem]
  array := by
    rintro _ b ⟨v, hv, hb, hitem, rfl⟩
    rcases goReceiver_array hv with ⟨hgo, hnone⟩ | ⟨items, hitems, hgo, hsome⟩
    · rcases Rust.receiver_array hb with ⟨hrust, -⟩ | ⟨items', -, -, hsome'⟩
      · rw [hgo, hrust]
        exact .none
      · rw [hitem, hsome'] at hnone
        cases hnone
    · rcases Rust.receiver_array hb with ⟨-, hnone'⟩ | ⟨items', hitems', hrust, hsome'⟩
      · rw [hitem, hnone'] at hsome
        cases hsome
      · rw [hitem, hsome'] at hsome
        rw [hgo, hrust]
        exact .some (forall₂_saysTheSame hitems hitems' (some.inj hsome).symm)

/-! ### Looking up a key -/

theorem CborValue.Decoded.eq_uint64_iff {v : CborValue} (h : v.Decoded) (key : UInt64) :
    v.item.isKey key = true ↔ v = .uint64 key := by
  cases h with
  | uint64 v =>
    rw [isKey_uint64, decide_eq_true_iff]
    exact ⟨fun h => h ▸ rfl, fun h => CborValue.uint64.inj h⟩
  | int64 hneg =>
    rw [isKey_int64 hneg]
    exact ⟨nofun, nofun⟩
  | _ => exact ⟨nofun, nofun⟩

theorem CborValue.Decoded.eq_uint64_of_cborEncode {v : CborValue} (h : v.Decoded)
    (henc : cborEncode v = cborEncode (.uint64 key)) : v = .uint64 key :=
  (h.eq_uint64_iff key).mp ((h.cborEncode_eq_iff key).mp henc)

theorem cborMapGet_cons (keyEnc : Bytes) (k val : CborValue) (rest : List CborEntry)
    (key : UInt64) : cborMapGet (.mk keyEnc k val :: rest) key
      = if keyEnc = cborEncode (.uint64 key) then some val else cborMapGet rest key := by
  unfold cborMapGet
  split_ifs with h
  · rw [List.find?_cons_of_pos]
    · rfl
    · exact decide_eq_true h
  · rw [List.find?_cons_of_neg]
    exact fun hpos => h (of_decide_eq_true hpos)

theorem mapUGet_cons (uk : UInt64) (val : CborValue) (rest : List CborPair) (key : UInt64) :
    mapUGet (.mk uk val :: rest) key = if uk = key then some val else mapUGet rest key := by
  unfold mapUGet
  split_ifs with h
  · rw [List.find?_cons_of_pos]
    · rfl
    · exact decide_eq_true h
  · rw [List.find?_cons_of_neg]
    exact fun hpos => h (of_decide_eq_true hpos)

theorem mapUGet_filterMap {entries : List CborEntry}
    (hkeyEnc : ∀ e ∈ entries, cborEncode e.key = e.keyEnc)
    (hkey : ∀ e ∈ entries, e.key.Decoded) (key : UInt64) :
    mapUGet (entries.filterMap goPair?) key = (cborMapGet entries key).map cborToGo := by
  induction entries with
  | nil => rfl
  | cons e rest ih =>
    obtain ⟨keyEnc, k, val⟩ := e
    obtain ⟨henc, hkeyEnc⟩ := List.forall_mem_cons.mp hkeyEnc
    obtain ⟨hdecoded, hkey⟩ := List.forall_mem_cons.mp hkey
    have hrest := ih hkeyEnc hkey
    change cborEncode k = keyEnc at henc
    subst henc
    rw [cborMapGet_cons, apply_ite (Option.map cborToGo), ← hrest]
    by_cases hfound : cborEncode k = cborEncode (.uint64 key)
    · obtain rfl : k = .uint64 key := hdecoded.eq_uint64_of_cborEncode hfound
      rw [if_pos rfl, List.filterMap_cons_some (f := goPair?) rfl, mapUGet_cons,
        if_pos rfl]
      rfl
    · rw [if_neg hfound]
      cases k with
      | uint64 uk =>
        rw [List.filterMap_cons_some (f := goPair?) rfl, mapUGet_cons,
          if_neg fun h : uk = key => hfound (h ▸ rfl)]
      | _ => rw [List.filterMap_cons_none rfl]

theorem mapUGet_cborToGo {entries : List CborEntry} (hdecoded : DecodedEntries entries)
    (hordered : (CborValue.cborMap entries).Ordered) (key : UInt64) :
    mapUGet (cborToGoEntries entries []) key = (cborMapGet entries key).map cborToGo := by
  obtain ⟨-, hsorted, hentries⟩ := hordered
  rw [cborToGoEntries_eq [] hsorted hentries (fun p hp => absurd hp List.not_mem_nil),
    List.nil_append]
  cases hdecoded with
  | cborMap hkeyEnc hkey _ => exact mapUGet_filterMap hkeyEnc hkey key

theorem rel_get {m : List CborEntry} {m' : List Rust.CborEntry} (hm : DecodedEntries m)
    (hordered : (CborValue.cborMap m).Ordered) (hm' : Rust.DecodedEntries m')
    (hitems : entryItems m = Rust.entryItems m') (key : UInt64) :
    Rel SaysTheSame (mapUGet (cborToGoEntries m []) key) (Rust.mapGet m' key) := by
  rw [mapUGet_cborToGo hm hordered]
  rcases get_cases hm key with ⟨hget, hnone⟩ | ⟨v, hv, hget, hsome⟩
  · rcases Rust.get_cases hm' key with ⟨hget', -⟩ | ⟨w, -, -, hsome'⟩
    · rw [hget, hget']
      exact .none
    · rw [hitems, hsome'] at hnone
      cases hnone
  · rcases Rust.get_cases hm' key with ⟨-, hnone'⟩ | ⟨w, hw, hget', hsome'⟩
    · rw [hitems, hnone'] at hsome
      cases hsome
    · rw [hitems, hsome'] at hsome
      rw [hget, hget']
      exact .some ⟨v, hv, hw, (some.inj hsome).symm, rfl⟩

theorem CborValue.Decoded.map_cases {v : CborValue} (h : v.Decoded) :
    (∃ m, v = .cborMap m) ∨ (∀ entries, v.item ≠ .map entries) ∧ ∀ m, cborToGo v ≠ .mapU m := by
  cases h with
  | @cborMap entries _ _ _ => exact .inl ⟨entries, rfl⟩
  | _ => exact .inr ⟨nofun, nofun⟩

theorem Rust.CborValue.Decoded.map_cases {v : Rust.CborValue} (h : v.Decoded) :
    (∃ m, v = .map m) ∨ (∀ entries, v.item ≠ .map entries) ∧ ∀ m, v ≠ .map m := by
  cases h with
  | @map entries _ _ => exact .inl ⟨entries, rfl⟩
  | _ => exact .inr ⟨nofun, nofun⟩

theorem HttpCarriageObject.map_id (obj : HttpCarriageObject Bytes) :
    obj.map (fun s => s) = obj := by
  obtain ⟨kind, method, target, status, headers, body⟩ := obj
  have hheaders : headers.map (HeaderKV.map fun s => s) = headers := List.map_id'' (fun _ => rfl) _
  simp only [map, hheaders, map_id']

/-- **Go and Rust read the same objects**, where the two decoders agree. -/
theorem same_decodeHTTPCarriageObject {foreign : Bytes} (wantKind : UInt64)
    (hkeys : ∀ x ∈ cborVisits foreign, x.oneKind = true)
    (htexts : ∀ x ∈ cborVisits foreign, x.utf8 false = true) :
    Receiver.SameUpTo (fun obj => obj) (map Rust.Str.octets)
      (decodeHTTPCarriageObject foreign wantKind)
      (Rust.decodeHttpCarriageObject foreign wantKind) := by
  have hsame := Rust.same_decodeTop hkeys htexts
  unfold decodeHTTPCarriageObject decodeCanonicalCBOR Rust.decodeHttpCarriageObject
  cases hgo : cborDecodeTop foreign with
  | error e =>
    rw [hgo] at hsame
    cases hrust : Rust.decodeTop foreign with
    | error e' => exact .error _ trivial
    | ok w =>
      rw [hrust] at hsame
      cases hsame
  | ok v =>
    rw [hgo] at hsame
    cases hrust : Rust.decodeTop foreign with
    | error e' =>
      rw [hrust] at hsame
      cases hsame
    | ok w =>
      rw [hrust] at hsame
      cases hsame with
      | ok hitem =>
        have hv := decoded_of_cborDecodeTop hgo
        have hw := Rust.decoded_of_decodeTop hrust
        rcases hv.map_cases with ⟨m, rfl⟩ | ⟨hnot, hnotGo⟩
        · rcases hw.map_cases with ⟨m', rfl⟩ | ⟨hnot', -⟩
          · have hget := rel_get hv (ordered_of_cborDecodeTop hgo) hw (Item.map.inj hitem)
            have hread := Receiver.same_decodeObject alike_receivers hget wantKind
            exact hread.imp fun obj obj' h => (map_id obj).symm.trans h
          · exact absurd hitem.symm (hnot' _)
        · rcases hw.map_cases with ⟨m', rfl⟩ | ⟨-, hnotMap⟩
          · exact absurd hitem (hnot _)
          dsimp only
          split
          next h => cases h
          next m h => exact absurd (Except.ok.inj h) (hnotGo m)
          next =>
            split
            next h => cases h
            next m h => exact absurd (Except.ok.inj h) (hnotMap m)
            next => exact .error _ trivial

namespace Rust

/-! ### What Rust writes -/

theorem mapFromU64Keys_of_ascending {entries : List (UInt64 × CborValue)}
    (h : (entries.map Prod.fst).Pairwise (· < ·)) :
    mapFromU64Keys entries = .map (entries.map fun e => .mk (.uint e.1) e.2) := by
  unfold mapFromU64Keys
  refine congrArg CborValue.map (List.Pairwise.insertionSort_eq ?_)
  rw [List.pairwise_map] at h ⊢
  refine h.imp fun {a b} hlt => ?_
  change lexLess (head 0 b.1) (head 0 a.1) = false
  rw [lexLess_head (by decide)]
  exact decide_eq_false (UInt64.lt_asymm hlt)

/-- The requests the Rust side can carry: lengths that an item head holds, and no header that the
start line already is. -/
structure Carriable (headers : List (HeaderKV Str)) (body : Bytes) : Prop where
  count : headers.length < 2 ^ 63
  names : ∀ kv ∈ headers, kv.name.octets.length < 2 ^ 63
  values : ∀ kv ∈ headers, kv.value.length < 2 ^ 63
  body : body.length < 2 ^ 63
  noPseudo : ∀ kv ∈ headers, (toLowerAscii kv.name).octets ∉ pseudoHeaders

variable {headers : List (HeaderKV Str)} {body : Bytes}

theorem built_headersToCbor (h : Carriable headers body) : Built (headersToCbor headers) := by
  refine .array (by rw [List.length_map]; exact h.count) (List.forall_mem_map.mpr fun kv hkv => ?_)
  refine .array (by simp) fun v hv => ?_
  simp only [List.mem_cons, List.not_mem_nil, or_false] at hv
  rcases hv with rfl | rfl
  · refine .text ?_
    change (kv.name.octets.map lowerOctet).length < 2 ^ 63
    rw [List.length_map]
    exact h.names kv hkv
  · exact .bytes (h.values kv hkv)

theorem depth_headersToCbor (headers : List (HeaderKV Str)) :
    (headersToCbor headers).depth ≤ 3 := by
  have hitems : itemsDepth (headers.map fun kv =>
      .array [.text (toLowerAscii kv.name), .bytes kv.value]) ≤ 2 := by
    induction headers with
    | nil => simp [itemsDepth]
    | cons kv rest ih =>
      rw [List.map_cons, itemsDepth]
      exact max_le (by simp [CborValue.depth, itemsDepth]) ih
  rw [headersToCbor, CborValue.depth]
  omega

theorem mapGet_map (entries : List (UInt64 × CborValue)) (key : UInt64) :
    mapGet (entries.map fun e => .mk (.uint e.1) e.2) key = entries.lookup key := by
  induction entries with
  | nil => rfl
  | cons e rest ih =>
    unfold mapGet at ih ⊢
    rw [List.map_cons, List.lookup_cons]
    by_cases hkey : e.1 = key
    · rw [List.find?_cons_of_pos (by simp [CborEntry.key, hkey]), hkey, beq_self_eq_true]
      rfl
    · rw [List.find?_cons_of_neg (by simp [CborEntry.key, hkey]), ih,
        beq_eq_false_iff_ne.mpr (Ne.symm hkey)]

theorem lookup_headersAndBody_eight (headers : List (HeaderKV Str)) (body : Bytes) :
    (headersAndBody headers body).lookup 8
      = if headers = [] then none else some (headersToCbor headers) := by
  cases headers <;> cases body <;> simp [headersAndBody, List.lookup_cons]

theorem lookup_headersAndBody_nine (headers : List (HeaderKV Str)) (body : Bytes) :
    (headersAndBody headers body).lookup 9 = if body = [] then none else some (.bytes body) := by
  cases headers <;> cases body <;> simp [headersAndBody, List.lookup_cons]

theorem mem_headersAndBody {e : UInt64 × CborValue} (h : e ∈ headersAndBody headers body) :
    e = (8, headersToCbor headers) ∨ e = (9, .bytes body) := by
  rw [headersAndBody, List.mem_append] at h
  rcases h with h | h
  · split_ifs at h
    · cases h
    · exact .inl (List.mem_singleton.mp h)
  · split_ifs at h
    · cases h
    · exact .inr (List.mem_singleton.mp h)

theorem ascending_headersAndBody (headers : List (HeaderKV Str)) (body : Bytes) :
    ((headersAndBody headers body).map Prod.fst).Pairwise (· < ·) := by
  cases headers <;> cases body <;> simp [headersAndBody]

theorem entriesDepth_map_le {entries : List (UInt64 × CborValue)} {d : Nat} (hd : 1 ≤ d)
    (h : ∀ e ∈ entries, e.2.depth ≤ d) :
    entriesDepth (entries.map fun e => .mk (.uint e.1) e.2) ≤ d := by
  induction entries with
  | nil => exact Nat.zero_le d
  | cons e rest ih =>
    obtain ⟨he, hrest⟩ := List.forall_mem_cons.mp h
    rw [List.map_cons, entriesDepth]
    exact max_le (max_le hd he) (ih hrest)

theorem decodeHeaderEntries_map (headers : List (HeaderKV Str)) :
    receiver.decodeHeaderEntries (headers.map fun kv =>
        .array [.text (toLowerAscii kv.name), .bytes kv.value])
      = .ok (headers.map (HeaderKV.map toLowerAscii)) := by
  induction headers with
  | nil => rfl
  | cons kv rest ih =>
    rw [List.map_cons, Receiver.decodeHeaderEntries, ih]
    rfl

theorem decodeHeaders_of_lookup (h : Carriable headers body)
    (hget : get 8 = (headersAndBody headers body).lookup 8) :
    receiver.decodeHeaders get = .ok (headers.map (HeaderKV.map toLowerAscii)) := by
  rw [Receiver.decodeHeaders, hget, lookup_headersAndBody_eight]
  split_ifs with hempty
  · rw [hempty]
    rfl
  have hlist : receiver.decodeHeaderList (headersToCbor headers)
      = .ok (headers.map (HeaderKV.map toLowerAscii)) := decodeHeaderEntries_map headers
  have hnone : (headers.map (HeaderKV.map toLowerAscii)).find?
      (fun kv => receiver.isPseudoHeader kv.name) = none := by
    refine List.find?_eq_none.mpr (List.forall_mem_map.mpr fun kv hkv => ?_)
    exact fun hpseudo => h.noPseudo kv hkv (of_decide_eq_true hpseudo)
  simp only [hlist, bind, Except.bind, hnone]
  rfl

theorem decodeBody_of_lookup
    (hget : get 9 = (headersAndBody headers body).lookup 9) :
    receiver.decodeBody get = .ok body := by
  rw [Receiver.decodeBody, hget, lookup_headersAndBody_nine]
  split_ifs with hempty
  · rw [hempty]
  · rfl

/-- The entries of a start line: scalars under keys below those of the headers and the body, in
order. -/
structure Start (start : List (UInt64 × CborValue)) : Prop where
  ascending : (start.map Prod.fst).Pairwise (· < ·)
  below : ∀ e ∈ start, e.1 < 8
  count : start.length ≤ 3
  built : ∀ e ∈ start, Built e.2
  scalar : ∀ e ∈ start, e.2.depth = 1

variable {start : List (UInt64 × CborValue)}

theorem ascending_append (hstart : Start start) (headers : List (HeaderKV Str)) (body : Bytes) :
    ((start ++ headersAndBody headers body).map Prod.fst).Pairwise (· < ·) := by
  rw [List.map_append, List.pairwise_append]
  refine ⟨hstart.ascending, ascending_headersAndBody headers body, ?_⟩
  refine List.forall_mem_map.mpr fun e he => List.forall_mem_map.mpr fun e' he' => ?_
  rcases mem_headersAndBody he' with rfl | rfl
  · exact hstart.below e he
  · exact UInt64.lt_trans (hstart.below e he) (by decide : (8 : UInt64) < 9)

theorem decodeTop_object (hstart : Start start) (h : Carriable headers body) :
    decodeTop (encode (mapFromU64Keys (start ++ headersAndBody headers body)))
      = .ok (.map ((start ++ headersAndBody headers body).map fun e => .mk (.uint e.1) e.2)) := by
  have hascending := ascending_append hstart headers body
  have hvalues : ∀ e ∈ start ++ headersAndBody headers body, Built e.2 ∧ e.2.depth ≤ 3 := by
    intro e he
    rcases List.mem_append.mp he with he | he
    · exact ⟨hstart.built e he, (hstart.scalar e he).le.trans (by decide)⟩
    · rcases mem_headersAndBody he with rfl | rfl
      · exact ⟨built_headersToCbor h, depth_headersToCbor headers⟩
      · exact ⟨.bytes h.body, by simp [CborValue.depth]⟩
  have hlength : (start ++ headersAndBody headers body).length < 2 ^ 63 := by
    have hcount := hstart.count
    have hrest : (headersAndBody headers body).length ≤ 2 := by
      cases headers <;> cases body <;> simp [headersAndBody]
    rw [List.length_append]
    omega
  have hbuilt : Built (mapFromU64Keys (start ++ headersAndBody headers body)) :=
    .map hlength (hascending.imp UInt64.ne_of_lt) fun e he => (hvalues e he).1
  have hdepth : (mapFromU64Keys (start ++ headersAndBody headers body)).depth
      ≤ cborMaxNestingDepth := by
    have hentries := entriesDepth_map_le (by decide) fun e he => (hvalues e he).2
    rw [mapFromU64Keys_of_ascending hascending, CborValue.depth]
    exact (Nat.add_le_add_left hentries 1).trans (by decide)
  rw [decodeTop_encode hbuilt hdepth, mapFromU64Keys_of_ascending hascending]

theorem lookup_append_of_lt (hkey : key < 8) :
    (start ++ headersAndBody headers body).lookup key = start.lookup key := by
  have hnone : (headersAndBody headers body).lookup key = none := by
    refine List.lookup_eq_none_iff.mpr fun e he => ?_
    rcases mem_headersAndBody he with rfl | rfl
    · exact bne_iff_ne.mpr (UInt64.ne_of_lt hkey)
    · exact bne_iff_ne.mpr (UInt64.ne_of_lt (UInt64.lt_trans hkey (by decide : (8 : UInt64) < 9)))
  rw [List.lookup_append, hnone, or_none]

theorem lookup_append_of_ge (hstart : Start start) (hkey : 8 ≤ key) :
    (start ++ headersAndBody headers body).lookup key
      = (headersAndBody headers body).lookup key := by
  have hnone : start.lookup key = none := by
    refine List.lookup_eq_none_iff.mpr fun e he => bne_iff_ne.mpr ?_
    exact (UInt64.ne_of_lt (UInt64.lt_of_lt_of_le (hstart.below e he) hkey)).symm
  rw [List.lookup_append, hnone, none_or]

/-- **An object is decoded to what was encoded**, if its first keys are read as `method`, `target`
and `status`. -/
theorem decode_encode_object (hstart : Start start) (h : Carriable headers body) {kind : UInt64}
    {method target : Option Str} {status : Option Nat} (hkind : start.lookup 1 = some (.uint kind))
    (hread : ∀ get, (∀ key : UInt64, key < 8 → get key = start.lookup key) →
      receiver.decodeStart get kind = .ok (method, target, status)) :
    decodeHttpCarriageObject (encode (mapFromU64Keys (start ++ headersAndBody headers body))) kind
      = .ok { kind := kind, method := method, target := target, status := status
              headers := headers.map (HeaderKV.map toLowerAscii), body := body } := by
  rw [decodeHttpCarriageObject, decodeTop_object hstart h]
  have hget := mapGet_map (start ++ headersAndBody headers body)
  change receiver.decodeObject (mapGet _) kind = _
  generalize mapGet _ = get at hget ⊢
  have hone : get 1 = some (.uint kind) := by rw [hget, lookup_append_of_lt (by decide), hkind]
  have hkind' : receiver.decodeKind get kind = .ok kind := by
    rw [Receiver.decodeKind, hone]
    exact if_neg (not_not.mpr rfl)
  have hstart' := hread get fun key hkey => by rw [hget, lookup_append_of_lt hkey]
  have hheaders := decodeHeaders_of_lookup h
    ((hget 8).trans (lookup_append_of_ge hstart (by decide)))
  have hbody := decodeBody_of_lookup ((hget 9).trans (lookup_append_of_ge hstart (by decide)))
  simp only [Receiver.decodeObject, hkind', hstart', hheaders, hbody, bind, Except.bind]
  rfl

theorem decodeText_of_some {s : Str}
    (hget : get key = some (.text s)) (hs : s.octets ≠ []) (reason : String) :
    receiver.decodeText get key reason = .ok s := by
  rw [Receiver.decodeText, hget]
  exact if_neg hs

theorem absent_of_none (hget : get key = none)
    (reason : String) : receiver.absent get key reason = .ok () := by
  rw [Receiver.absent, hget]
  rfl

theorem decode_encode_request {method target : Str} (hmethod : method.octets.length < 2 ^ 63)
    (htarget : target.octets.length < 2 ^ 63) (hmethod' : method.octets ≠ [])
    (htarget' : target.octets ≠ []) (h : Carriable headers body) :
    decodeHttpCarriageObject (encodeHttpCarriageRequest method target headers body) httpKindRequest
      = .ok { kind := httpKindRequest, method := some method, target := some target, status := none
              headers := headers.map (HeaderKV.map toLowerAscii), body := body } := by
  have hstart : Start [(1, .uint httpKindRequest), (2, .text method), (3, .text target)] := by
    refine ⟨by simp, by simp, by simp, ?_, by simp [CborValue.depth]⟩
    simp only [List.forall_mem_cons]
    exact ⟨.uint _, .text hmethod, .text htarget, List.forall_mem_nil _⟩
  refine decode_encode_object hstart h rfl fun get hget => ?_
  have htwo := decodeText_of_some ((hget 2 (by decide)).trans rfl) hmethod'
  have hthree := decodeText_of_some ((hget 3 (by decide)).trans rfl) htarget'
  have hsix := absent_of_none ((hget 6 (by decide)).trans rfl)
  simp only [Receiver.decodeStart, htwo, hthree, hsix, bind, Except.bind]
  rfl

theorem decode_encode_response {status : UInt32} (hlow : 100 ≤ status.toNat)
    (hhigh : status.toNat ≤ 599) (h : Carriable headers body) :
    decodeHttpCarriageObject (encodeHttpCarriageResponse status headers body) httpKindResponse
      = .ok { kind := httpKindResponse, method := none, target := none, status := some status.toNat
              headers := headers.map (HeaderKV.map toLowerAscii), body := body } := by
  have hstart : Start [(1, .uint httpKindResponse), (6, .uint status.toUInt64)] := by
    refine ⟨by simp, by simp, by simp, ?_, by simp [CborValue.depth]⟩
    simp only [List.forall_mem_cons]
    exact ⟨.uint _, .uint _, List.forall_mem_nil _⟩
  refine decode_encode_object hstart h rfl fun get hget => ?_
  have hsix : receiver.decodeStatus get = .ok status.toNat := by
    rw [Receiver.decodeStatus, hget 6 (by decide)]
    have hnat : status.toUInt64.toNat = status.toNat := UInt32.toNat_toUInt64 status
    change (if status.toUInt64.toNat < 100 ∨ 599 < status.toUInt64.toNat then _ else _) = _
    rw [hnat, if_neg (by omega)]
  have htwo := absent_of_none ((hget 2 (by decide)).trans rfl)
  have hthree := absent_of_none ((hget 3 (by decide)).trans rfl)
  have hkind : ¬ httpKindResponse = httpKindRequest := by decide
  simp only [Receiver.decodeStart, if_neg hkind, if_true, htwo, hthree, hsix, bind, Except.bind]
  rfl

end Rust

/-- **HTTP-Carriage Objects survive the trip**, with header names in lower case, and on octets with
unsigned keys and UTF-8 text the Go and the Rust receiver read them alike. -/
theorem http_carriage_survives :
    (∀ (method target : Rust.Str) (headers : List (HeaderKV Rust.Str)) (body : Bytes),
      method.octets.length < 2 ^ 63 → target.octets.length < 2 ^ 63 →
      method.octets ≠ [] → target.octets ≠ [] → Rust.Carriable headers body →
      Rust.decodeHttpCarriageObject (Rust.encodeHttpCarriageRequest method target headers body)
          httpKindRequest
        = .ok { kind := httpKindRequest, method := some method, target := some target
                status := none, headers := headers.map (HeaderKV.map Rust.toLowerAscii)
                body := body })
      ∧ (∀ (status : UInt32) (headers : List (HeaderKV Rust.Str)) (body : Bytes),
        100 ≤ status.toNat → status.toNat ≤ 599 → Rust.Carriable headers body →
        Rust.decodeHttpCarriageObject (Rust.encodeHttpCarriageResponse status headers body)
            httpKindResponse
          = .ok { kind := httpKindResponse, method := none, target := none
                  status := some status.toNat
                  headers := headers.map (HeaderKV.map Rust.toLowerAscii), body := body })
      ∧ ∀ (foreign : Bytes) (wantKind : UInt64),
        (∀ x ∈ cborVisits foreign, x.unsignedKey = true ∧ x.utf8 false = true) →
        (decodeHTTPCarriageObject foreign wantKind).toOption
          = (Rust.decodeHttpCarriageObject foreign wantKind).toOption.map
              (HttpCarriageObject.map Rust.Str.octets) := by
  refine ⟨fun method target headers body hm ht hm' ht' h =>
      Rust.decode_encode_request hm ht hm' ht' h,
    fun status headers body hlow hhigh h => Rust.decode_encode_response hlow hhigh h,
    fun foreign wantKind hvisits => ?_⟩
  have hsame := same_decodeHTTPCarriageObject wantKind
    (fun x hx => Cbor.Visit.oneKind_of_unsignedKey (hvisits x hx).1)
    fun x hx => (hvisits x hx).2
  generalize decodeHTTPCarriageObject foreign wantKind = x,
    Rust.decodeHttpCarriageObject foreign wantKind = y at hsame ⊢
  cases hsame with
  | error e _ => rfl
  | ok hobj => exact congrArg some hobj

theorem http_carriage_survives_get :
    Rust.decodeHttpCarriageObject (Rust.encodeHttpCarriageRequest ⟨ascii "GET", by decide⟩
        ⟨ascii "/", by decide⟩ [⟨⟨ascii "A", by decide⟩, ascii "1"⟩] []) httpKindRequest
      = .ok { kind := httpKindRequest, method := some ⟨ascii "GET", by decide⟩
              target := some ⟨ascii "/", by decide⟩, status := none
              headers := [⟨⟨ascii "a", by decide⟩, ascii "1"⟩], body := [] }
      ∧ (decodeHTTPCarriageObject [0xa3, 0x01, 0x02, 0x06, 0x18, 0xc8, 0x07, 0x60]
          httpKindResponse).toOption
        = (Rust.decodeHttpCarriageObject [0xa3, 0x01, 0x02, 0x06, 0x18, 0xc8, 0x07, 0x60]
            httpKindResponse).toOption.map (HttpCarriageObject.map Rust.Str.octets) := by
  refine ⟨http_carriage_survives.1 _ _ _ _ (by decide) (by decide) (by decide) (by decide) ?_,
    http_carriage_survives.2.2 _ _ (by decide)⟩
  constructor <;> decide

end Npamp
