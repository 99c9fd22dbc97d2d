import Npamp.Proof.RustBodies

/-!
# Who a settlement leg names

A leg is checked against the texts its decoder made of `parties`. Go keeps their octets; Rust
replaces what is not UTF-8.
-/

namespace Npamp

open Cbor

def wireItem (payload : Bytes) : Option Item :=
  (wire.decodeTop cborMaxNestingDepth payload).toOption

structure AmountWellFormed (amount : BodyMap) : Prop where
  units : ∃ n, get amount 0 = some (.int n)
  scale : ∃ n : Nat, get amount 1 = some (.int n)
  currency : ∃ s, get amount 2 = some (.text s)
  keys : ∀ e ∈ amount, ∃ n : Nat, e.1 = .int n

/-- A leg whose two ends are among the parties. -/
structure LegNames (parties : List Item) (leg : BodyMap) : Prop where
  source : ∃ s, get leg 0 = some (.text s) ∧ .text s ∈ parties
  target : ∃ s, get leg 1 = some (.text s) ∧ .text s ∈ parties
  amount : ∃ amount, get leg 2 = some (.map amount) ∧ AmountWellFormed amount

/-- Every element of `legs` (3) is a leg between two elements of `parties` (2). -/
def NamesParties (v : Item) : Prop :=
  ∃ m parties legs, v = .map m ∧ get m 2 = some (.array parties)
    ∧ get m 3 = some (.array legs) ∧ ∀ leg ∈ legs, ∃ entries, leg = .map entries
      ∧ LegNames parties entries

variable {v : Item} {payload : Bytes}

theorem amountWellFormed_of_mapOk (h : mapOk amountSchema v = true) :
    ∃ amount, v = .map amount ∧ AmountWellFormed amount := by
  cases v with
  | map amount =>
    have hfield (f : Field) (hf : f ∈ amountSchema) (hrequired : f.required = true) :=
      hasKind_of_fieldsOk h hf hrequired
    obtain ⟨units, hunits, hkind⟩ := hfield ⟨0, .number, true⟩ (by decide) rfl
    obtain ⟨n, rfl⟩ := Item.exists_eq_int hkind
    obtain ⟨scale, hscale, hkind⟩ := hfield ⟨1, .uint, true⟩ (by decide) rfl
    obtain ⟨k, rfl⟩ := Item.exists_eq_natCast hkind
    obtain ⟨currency, hcurrency, hkind⟩ := hfield ⟨2, .text, true⟩ (by decide) rfl
    obtain ⟨s, rfl⟩ := Item.exists_eq_text hkind
    exact ⟨amount, rfl, ⟨n, hunits⟩, ⟨k, hscale⟩, ⟨s, hcurrency⟩,
      fun e he => exists_of_mem_keys (Bool.and_eq_true_iff.mp h).2 he⟩
  | _ => cases h

theorem mem_of_isParty {parties : List Item} (h : isParty (parties.filterMap Item.text?) v = true) :
    ∃ s, v = .text s ∧ .text s ∈ parties := by
  cases v with
  | text s =>
    obtain ⟨p, hp, htext⟩ := List.mem_filterMap.mp (of_decide_eq_true h)
    cases p with
    | text t => exact ⟨s, rfl, Option.some.inj htext ▸ hp⟩
    | _ => cases htext
  | _ => cases h

theorem legNames_of_legOk {parties : List Item} {leg : Item}
    (h : legOk (parties.filterMap Item.text?) leg = true) :
    ∃ entries, leg = .map entries ∧ LegNames parties entries := by
  cases leg with
  | map entries =>
    simp only [legOk, Bool.and_eq_true] at h
    obtain ⟨⟨⟨hfrom, hto⟩, hamount⟩, -⟩ := h
    obtain ⟨v, hget, hv⟩ := (Option.any_eq_true _ _).mp hfrom
    obtain ⟨s, rfl, hs⟩ := mem_of_isParty hv
    obtain ⟨w, hget', hw⟩ := (Option.any_eq_true _ _).mp hto
    obtain ⟨t, rfl, ht⟩ := mem_of_isParty hw
    obtain ⟨a, hget'', ha⟩ := (Option.any_eq_true _ _).mp hamount
    obtain ⟨amount, rfl, hwf⟩ := amountWellFormed_of_mapOk ha
    exact ⟨entries, rfl, ⟨s, hget, hs⟩, ⟨t, hget', ht⟩, amount, hget'', hwf⟩
  | _ => cases h

theorem namesParties_of_ok (h : BodyKind.commerce.rules.ok 0x0108 v = true) : NamesParties v := by
  cases v with
  | map m =>
    rw [BodyRules.ok] at h
    obtain ⟨schema, hschema, hok⟩ := (Option.any_eq_true _ _).mp h
    cases hschema
    simp only [Bool.and_eq_true] at hok
    obtain ⟨⟨-, hfields⟩, hnested⟩ := hok
    obtain ⟨v, hparties, hkind⟩ :=
      hasKind_of_fieldsOk hfields (f := ⟨2, .array, true⟩) (by decide) rfl
    obtain ⟨parties, rfl⟩ := Item.exists_eq_array hkind
    obtain ⟨w, hlegs, hkind⟩ :=
      hasKind_of_fieldsOk hfields (f := ⟨3, .array, true⟩) (by decide) rfl
    obtain ⟨legs, rfl⟩ := Item.exists_eq_array hkind
    refine ⟨m, parties, legs, rfl, hparties, hlegs, fun leg hleg => legNames_of_legOk ?_⟩
    have hproposal : proposalOk m = true := hnested
    rw [proposalOk, elementsAt, elementsAt, hparties, hlegs, Bool.and_eq_true]
      at hproposal
    exact List.all_eq_true.mp hproposal.2 leg hleg
  | _ => cases h

theorem wireItem_of_cborDecodeTop {v : CborValue} (h : cborDecodeTop payload = .ok v) :
    wireItem payload = some v.item := by
  have heq := Rust.toOption_cborDecodeTop payload
  rw [h] at heq
  split at heq
  · exact heq.symm
  · cases heq

theorem Rust.wireItem_of_decodeTop {v : Rust.CborValue} (h : Rust.decodeTop payload = .ok v) :
    ∃ raw, wireItem payload = some raw ∧ raw.lossy = v.item := by
  have heq := Rust.toOption_decodeTop payload
  rw [h] at heq
  split at heq
  · exact Option.map_eq_some_iff.mp heq.symm
  · cases heq

/-! ### What the replacement of octets leaves -/

section Lossy

variable {m : BodyMap} {key : UInt64} {w : Item}

theorem get_lossyEntries (m : BodyMap) (key : UInt64) :
    get (lossyEntries m) key = (get m key).map Item.lossy := by
  have hkey : ∀ e ∈ m, e.1.lossy.isKey key = e.1.isKey key := by
    rintro ⟨k, v⟩ -
    cases k <;> rfl
  rw [lossyEntries_eq_map, get_map hkey, Cbor.get, Option.map_map]
  rfl

theorem exists_get_of_lossy (h : get (lossyEntries m) key = some w) :
    ∃ v, get m key = some v ∧ v.lossy = w := by
  rw [get_lossyEntries] at h
  exact Option.map_eq_some_iff.mp h

theorem eq_int_of_lossy {n : Int} (h : v.lossy = .int n) : v = .int n := by
  cases v <;> simp_all [Item.lossy]

theorem exists_text_of_lossy {s : Bytes} (h : v.lossy = .text s) :
    ∃ t, v = .text t ∧ Utf8.lossy t = s := by
  cases v <;> simp_all [Item.lossy]

theorem exists_array_of_lossy {items : List Item} (h : v.lossy = .array items) :
    ∃ raw, v = .array raw ∧ raw.map Item.lossy = items := by
  cases v <;> simp_all [Item.lossy, lossyItems_eq_map]

theorem exists_map_of_lossy (h : v.lossy = .map m) : ∃ raw, v = .map raw ∧ lossyEntries raw = m := by
  cases v <;> simp_all [Item.lossy]

theorem amountWellFormed_of_lossy (h : AmountWellFormed (lossyEntries m)) : AmountWellFormed m := by
  obtain ⟨⟨n, hunits⟩, ⟨k, hscale⟩, ⟨s, hcurrency⟩, hkeys⟩ := h
  obtain ⟨units, hunits, hn⟩ := exists_get_of_lossy hunits
  obtain ⟨scale, hscale, hk⟩ := exists_get_of_lossy hscale
  obtain ⟨currency, hcurrency, hs⟩ := exists_get_of_lossy hcurrency
  obtain ⟨t, rfl, -⟩ := exists_text_of_lossy hs
  cases eq_int_of_lossy hn
  cases eq_int_of_lossy hk
  refine ⟨⟨n, hunits⟩, ⟨k, hscale⟩, ⟨t, hcurrency⟩, fun e he => ?_⟩
  obtain ⟨i, hi⟩ := hkeys (e.1.lossy, e.2.lossy) (lossyEntries_eq_map m ▸ List.mem_map_of_mem he)
  exact ⟨i, eq_int_of_lossy hi⟩

end Lossy

/-- A leg whose `from` (0) or `to` (1) is no party, while some party reads the same once what is not
UTF-8 in it is replaced. -/
def Impersonates (v : Item) : Prop :=
  ∃ m parties legs entries, v = .map m ∧ get m 2 = some (.array parties)
    ∧ get m 3 = some (.array legs) ∧ .map entries ∈ legs
    ∧ ∃ key ∈ [(0 : UInt64), 1], ∃ s, get entries key = some (.text s) ∧ .text s ∉ parties
      ∧ ∃ t, .text t ∈ parties ∧ Utf8.lossy t = Utf8.lossy s

theorem not_impersonates (h : NamesParties v) : ¬ Impersonates v := by
  obtain ⟨m, parties, legs, rfl, hparties, hlegs, hall⟩ := h
  rintro ⟨m', parties', legs', entries, ⟨⟩, hparties', hlegs', hleg, key, hkey, s, hs, hnone, -⟩
  cases hparties.symm.trans hparties'
  cases hlegs.symm.trans hlegs'
  obtain ⟨_, ⟨⟩, ⟨t, ht, hsource⟩, ⟨u, hu, htarget⟩, -⟩ := hall _ hleg
  simp only [List.mem_cons, List.not_mem_nil, or_false] at hkey
  rcases hkey with rfl | rfl
  · cases ht.symm.trans hs
    exact hnone hsource
  · cases hu.symm.trans hs
    exact hnone htarget

theorem namesParties_of_lossy (h : NamesParties v.lossy) (hnone : ¬ Impersonates v) :
    NamesParties v := by
  obtain ⟨m, parties, legs, hv, hp, hl, hall⟩ := h
  obtain ⟨m, rfl, rfl⟩ := exists_map_of_lossy hv
  obtain ⟨p, hparties, hp⟩ := exists_get_of_lossy hp
  obtain ⟨parties, rfl, rfl⟩ := exists_array_of_lossy hp
  obtain ⟨l, hlegs, hl⟩ := exists_get_of_lossy hl
  obtain ⟨legs, rfl, rfl⟩ := exists_array_of_lossy hl
  refine ⟨m, parties, legs, rfl, hparties, hlegs, fun leg hleg => ?_⟩
  obtain ⟨entries, hentries, hsource, htarget, amount, ha, hwf⟩ :=
    hall leg.lossy (List.mem_map_of_mem hleg)
  obtain ⟨entries, rfl, rfl⟩ := exists_map_of_lossy hentries
  have hparty (key : UInt64) (hkey : key ∈ [(0 : UInt64), 1])
      (h : ∃ s, get (lossyEntries entries) key = some (.text s)
        ∧ .text s ∈ parties.map Item.lossy) :
      ∃ s, get entries key = some (.text s) ∧ .text s ∈ parties := by
    obtain ⟨s, hs, hmem⟩ := h
    obtain ⟨w, hw, hws⟩ := exists_get_of_lossy hs
    obtain ⟨t, rfl, rfl⟩ := exists_text_of_lossy hws
    obtain ⟨party, hparty, hps⟩ := List.mem_map.mp hmem
    obtain ⟨u, rfl, hu⟩ := exists_text_of_lossy hps
    by_contra hno
    exact hnone ⟨m, parties, legs, entries, rfl, hparties, hlegs, hleg, key, hkey, t, hw,
      fun ht => hno ⟨t, hw, ht⟩, u, hparty, hu⟩
  obtain ⟨a, hamount, ha⟩ := exists_get_of_lossy ha
  obtain ⟨amount, rfl, rfl⟩ := exists_map_of_lossy ha
  exact ⟨entries, rfl, hparty 0 (by decide) hsource, hparty 1 (by decide) htarget, amount, hamount,
    amountWellFormed_of_lossy hwf⟩

theorem exists_of_toOption_any {ε α : Type} {x : Except ε α} {p : α → Bool}
    (h : x.toOption.any p = true) : ∃ a, x = .ok a ∧ p a = true := by
  cases x with
  | error e => cases h
  | ok a => exact ⟨a, rfl, h⟩

/-- **Legs name listed parties.** An accepted settlement proposal has legs between the parties it
lists, octet for octet: in Go always, in Rust exactly where no leg names by the replacement of
octets a party it does not name itself. -/
theorem legs_name_parties (payload : Bytes) :
    ((validateCommercePayload frameCommerceIntentProposeReq payload).isOk = true →
        ∃ v, wireItem payload = some v ∧ NamesParties v)
      ∧ ((Rust.validateCommerce 0x0108 payload).isOk = true →
          ∃ v, wireItem payload = some v ∧ (NamesParties v ↔ ¬ Impersonates v)) := by
  constructor
  · intro h
    have hok := (Rust.isOk_goValidate .commerce frameCommerceIntentProposeReq payload).symm.trans h
    obtain ⟨v, hdecode, hv⟩ := exists_of_toOption_any hok
    exact ⟨v.item, wireItem_of_cborDecodeTop hdecode, namesParties_of_ok hv⟩
  · intro h
    have hok := (Rust.isOk_rustValidate .commerce 0x0108 payload).symm.trans h
    obtain ⟨v, hdecode, hv⟩ := exists_of_toOption_any hok
    obtain ⟨raw, hraw, hlossy⟩ := Rust.wireItem_of_decodeTop hdecode
    have hnames : NamesParties raw.lossy := hlossy ▸ namesParties_of_ok hv
    exact ⟨raw, hraw, not_impersonates, namesParties_of_lossy hnames⟩

def strayProposal : Bytes :=
  [0xa5, 0x00, 0x19, 0x01, 0x08, 0x01, 0x41, 0x07, 0x02, 0x81, 0x61, 0xff, 0x03, 0x81, 0xa3, 0x00,
   0x61, 0xfe, 0x01, 0x61, 0xff, 0x02, 0xa3, 0x00, 0x00, 0x01, 0x00, 0x02, 0x60, 0x07, 0x00]

/-- Rust reads both texts as U+FFFD and accepts the proposal, which Go refuses. -/
theorem legs_name_unlisted_party : (Rust.validateCommerce 0x0108 strayProposal).isOk = true
      ∧ (validateCommercePayload frameCommerceIntentProposeReq strayProposal).isOk = false
      ∧ ∀ v, wireItem strayProposal = some v → ¬ NamesParties v := by
  have hwire : ∃ m leg, wireItem strayProposal = some (.map m)
      ∧ Cbor.get m 2 = some (.array [.text [0xff]]) ∧ Cbor.get m 3 = some (.array [.map leg])
      ∧ Cbor.get leg 0 = some (.text [0xfe]) :=
    ⟨_, _, rfl, rfl, rfl, rfl⟩
  obtain ⟨m, leg, hwire, hparties, hlegs, hfrom⟩ := hwire
  refine ⟨by decide, by decide, ?_⟩
  rintro v hv ⟨m', parties, legs, rfl, hparties', hlegs', hall⟩
  cases hwire.symm.trans hv
  cases hparties.symm.trans hparties'
  cases hlegs.symm.trans hlegs'
  obtain ⟨entries, hentries, ⟨s, hfrom', hmem⟩, -, -⟩ := hall _ List.mem_cons_self
  cases hentries
  cases hfrom.symm.trans hfrom'
  simp at hmem

end Npamp
