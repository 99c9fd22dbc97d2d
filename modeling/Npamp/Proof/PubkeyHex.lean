import Npamp.Proof.Plan

/-!
# Public-key annotations

`parse_pubkey_hex_annotation` slices its string by octets and leaves the digits to an integer parser
that takes a plus sign.
-/

namespace Npamp.Mesh

/-- The octets that pairs of hexadecimal digits spell. -/
def spelled : Str → Bytes
  | c :: d :: rest => UInt8.ofNat (16 * (hexDigit c).getD 0 + (hexDigit d).getD 0) :: spelled rest
  | _ => []

def IsHex (s : Str) : Prop := ∀ c ∈ s, (hexDigit c).isSome = true

instance (s : Str) : Decidable (IsHex s) := List.decidableBAll _ s

def strictPubkeyHex (s : Str) : Except ReconcileError Bytes :=
  if s.length = 64 ∧ IsHex s then .ok (spelled s) else .error (.badAnnotationPubkeyHex s)

/-- What the integer parser reads of a pair: a digit, and in front of it a digit or a plus sign. -/
def Accepted (c d : Char) : Prop := (IsHex [c] ∨ c = '+') ∧ IsHex [d]

/-- Of the pairs of octets, one is refused before any falls inside a character. -/
inductive Refused : Str → Prop
  | pair {c d : Char} {rest : Str} (hc : c.utf8Size = 1) (hd : d.utf8Size = 1)
      (h : ¬ Accepted c d) : Refused (c :: d :: rest)
  | wide {c : Char} {rest : Str} (hc : c.utf8Size = 2) : Refused (c :: rest)
  | next {c d : Char} {rest : Str} (h : Accepted c d) (hrest : Refused rest) :
      Refused (c :: d :: rest)

/-- The string has not 64 octets, is hexadecimal, or is refused at a pair. -/
def ReadStrictly (s : Str) : Prop := strLen s ≠ 64 ∨ IsHex s ∨ Refused s

theorem utf8Size_of_hexDigit {c : Char} (h : (hexDigit c).isSome = true) : c.utf8Size = 1 := by
  refine Char.utf8Size_eq_one_iff.mpr (UInt32.le_iff_toNat_le.mpr ?_)
  unfold hexDigit at h
  split at h
  · rename_i hdigit
    simp only [Char.isDigit, Bool.and_eq_true, decide_eq_true_eq] at hdigit
    exact Nat.le_trans (UInt32.le_iff_toNat_le.mp hdigit.2) (by decide)
  split at h
  · rename_i hlower
    exact Nat.le_trans (UInt32.le_iff_toNat_le.mp (Char.le_def.mp hlower.2)) (by decide)
  split at h
  · rename_i hupper
    exact Nat.le_trans (UInt32.le_iff_toNat_le.mp (Char.le_def.mp hupper.2)) (by decide)
  · cases h

theorem isHex_cons {c : Char} {s : Str} : IsHex (c :: s) ↔ IsHex [c] ∧ IsHex s := by
  simp [IsHex]

theorem utf8Size_of_isHex {c : Char} (h : IsHex [c]) : c.utf8Size = 1 :=
  utf8Size_of_hexDigit (h c List.mem_cons_self)

theorem Accepted.utf8Size {c d : Char} (h : Accepted c d) : c.utf8Size = 1 ∧ d.utf8Size = 1 := by
  refine ⟨?_, utf8Size_of_isHex h.2⟩
  rcases h.1 with hc | rfl
  · exact utf8Size_of_isHex hc
  · decide

theorem fromStrRadix16_pair {c d : Char} (hc : IsHex [c]) (hd : IsHex [d]) :
    fromStrRadix16 [c, d]
      = some (UInt8.ofNat (16 * (hexDigit c).getD 0 + (hexDigit d).getD 0)) := by
  obtain ⟨x, hx⟩ := Option.isSome_iff_exists.mp (hc c List.mem_cons_self)
  obtain ⟨y, hy⟩ := Option.isSome_iff_exists.mp (hd d List.mem_cons_self)
  have hne : c ≠ '+' := by
    rintro rfl
    cases hx
  simp [fromStrRadix16, hne, hx, hy]

theorem isSome_fromStrRadix16_pair {c d : Char} :
    (fromStrRadix16 [c, d]).isSome = true ↔ Accepted c d := by
  by_cases hc : c = '+'
  · subst hc
    cases hd : hexDigit d <;> simp [fromStrRadix16, Accepted, IsHex, hd]
  · cases hx : hexDigit c <;> cases hd : hexDigit d <;>
      simp [fromStrRadix16, Accepted, IsHex, hc, hx, hd]

theorem hexOctets_of_isHex (s : Str) (n : Nat) {rest : Str} (hhex : IsHex rest)
    (hlength : rest.length = 2 * n) : hexOctets s n rest = some (.ok (spelled rest)) := by
  induction n generalizing rest with
  | zero =>
    obtain rfl := List.length_eq_zero_iff.mp hlength
    rfl
  | succ n ih =>
    obtain ⟨c, d, rest, rfl⟩ : ∃ c d tail, rest = c :: d :: tail := by
      rcases rest with _ | ⟨c, _ | ⟨d, tail⟩⟩
      · cases hlength
      · simp only [List.length_cons, List.length_nil] at hlength
        omega
      · exact ⟨c, d, tail, rfl⟩
    obtain ⟨hc, htail⟩ := isHex_cons.mp hhex
    obtain ⟨hd, hrest⟩ := isHex_cons.mp htail
    rw [hexOctets, splitOctets_two (utf8Size_of_isHex hc) (utf8Size_of_isHex hd)]
    dsimp only
    rw [fromStrRadix16_pair hc hd, ih hrest (by simp only [List.length_cons] at hlength; omega)]
    rfl

theorem refused_pair_iff {c d : Char} {rest : Str} (hc : c.utf8Size = 1) (hd : d.utf8Size = 1) :
    Refused (c :: d :: rest) ↔ (Accepted c d → Refused rest) := by
  refine ⟨fun h haccepted => ?_, fun h => ?_⟩
  · cases h with
    | pair _ _ h => exact absurd haccepted h
    | wide h => omega
    | next _ hrest => exact hrest
  · by_cases haccepted : Accepted c d
    · exact .next haccepted (h haccepted)
    · exact .pair hc hd haccepted

theorem strLen_nil : strLen [] = 0 := rfl

theorem strLen_cons (c : Char) (s : Str) : strLen (c :: s) = c.utf8Size + strLen s := by
  rw [strLen, List.map_cons, List.sum_cons, strLen]

/-- **A string is refused at its first pair that is not accepted**, unless the cut in front of it
falls inside a character. -/
theorem hexOctets_eq_error_iff (s : Str) (n : Nat) {rest : Str} (hlen : strLen rest = 2 * n) :
    hexOctets s n rest = some (.error (.badAnnotationPubkeyHex s)) ↔ Refused rest := by
  induction n generalizing rest with
  | zero =>
    cases rest with
    | nil => exact iff_of_false (by simp [hexOctets]) fun h => by cases h
    | cons c rest =>
      have := c.utf8Size_pos
      rw [strLen_cons] at hlen
      omega
  | succ n ih =>
    cases rest with
    | nil => cases hlen
    | cons c tail =>
    rw [strLen_cons] at hlen
    rw [hexOctets]
    by_cases hone : c.utf8Size = 1
    · cases tail with
      | nil =>
        rw [strLen_nil] at hlen
        omega
      | cons d rest =>
      rw [strLen_cons] at hlen
      by_cases hd : d.utf8Size = 1
      · rw [splitOctets_two hone hd]
        dsimp only
        rw [refused_pair_iff hone hd, ← ih (by omega), ← isSome_fromStrRadix16_pair]
        cases fromStrRadix16 [c, d] with
        | none => simp
        | some octet =>
          rcases hexOctets s n rest with _ | (e | out) <;> simp
      · have hsplit : splitOctets 2 (c :: d :: rest) = none := by
          have := d.utf8Size_pos
          simp [splitOctets, hone, show ¬ d.utf8Size ≤ 1 by omega]
        rw [hsplit]
        refine iff_of_false (by simp) fun h => ?_
        cases h with
        | pair _ hd' => exact hd hd'
        | wide hc => omega
        | next h => exact hd h.utf8Size.2
    · by_cases htwo : c.utf8Size = 2
      · have hdigit : hexDigit c = none := by
          rw [← Option.not_isSome_iff_eq_none]
          exact fun h => hone (utf8Size_of_hexDigit h)
        refine iff_of_true ?_ (.wide htwo)
        simp [splitOctets, htwo, fromStrRadix16, hdigit]
      · have hsplit : splitOctets 2 (c :: tail) = none := by
          have := c.utf8Size_pos
          simp [splitOctets, show ¬ c.utf8Size ≤ 2 by omega]
        rw [hsplit]
        refine iff_of_false (by simp) fun h => ?_
        cases h with
        | pair hc => exact hone hc
        | wide hc => exact htwo hc
        | next h => exact hone h.utf8Size.1

theorem parsePubkeyHex_eq_iff {s : Str} :
    parsePubkeyHexAnnotation s = some (strictPubkeyHex s) ↔ ReadStrictly s := by
  unfold parsePubkeyHexAnnotation strictPubkeyHex ReadStrictly
  by_cases hlen : strLen s = 64
  · rw [if_neg (not_not.mpr hlen)]
    by_cases hhex : IsHex s
    · have hlength : s.length = 64 :=
        (strLen_eq_length fun c hc => utf8Size_of_hexDigit (hhex c hc)).symm.trans hlen
      rw [if_pos ⟨hlength, hhex⟩]
      exact iff_of_true (hexOctets_of_isHex s 32 hhex hlength) (.inr (.inl hhex))
    · rw [if_neg fun h => hhex h.2, hexOctets_eq_error_iff s 32 hlen]
      exact ⟨fun h => .inr (.inr h), fun h => (h.resolve_left (not_not.mpr hlen)).resolve_left hhex⟩
  · rw [if_pos hlen, if_neg]
    · exact iff_of_true rfl (.inl hlen)
    rintro ⟨hlength, hhex⟩
    exact hlen ((strLen_eq_length fun c hc => utf8Size_of_hexDigit (hhex c hc)).trans hlength)

/-- The key is spelled by an annotation of 64 hexadecimal digits. -/
def Annotated (serviceAnnotations : ServiceAnnotations) (pubkey : Bytes) : Prop :=
  ∃ service ∈ serviceAnnotations, ∃ entry ∈ service.2, entry.1 = svidPubkeyHexKey
    ∧ strictPubkeyHex entry.2 = .ok pubkey

variable {trustDomain : Str} {serviceAnnotations : ServiceAnnotations}
  (h : ∀ service ∈ serviceAnnotations, ∀ entry ∈ service.2, entry.1 = svidPubkeyHexKey →
    ReadStrictly entry.2)
include h

theorem annotated_of_registerService {peers peers' : PeerDirectory} {key : ServiceKey}
    (hregister : registerService trustDomain serviceAnnotations peers key = some peers')
    (hpeers : ∀ peer ∈ peers.table, Annotated serviceAnnotations peer.1) :
    ∀ peer ∈ peers'.table, Annotated serviceAnnotations peer.1 := by
  rw [registerService] at hregister
  split at hregister
  · cases hregister
    exact hpeers
  rename_i annotations hannotations
  split at hregister
  · cases hregister
    exact hpeers
  split at hregister
  · cases hregister
    exact hpeers
  rename_i pkHex hpkHex
  have hservice := Json.mem_of_lookup hannotations
  have hentry := Json.mem_of_lookup hpkHex
  rw [parsePubkeyHex_eq_iff.mpr (h _ hservice _ hentry rfl)] at hregister
  cases hstrict : strictPubkeyHex pkHex with
  | error e =>
    rw [hstrict] at hregister
    cases hregister
    exact hpeers
  | ok pubkey =>
    rw [hstrict] at hregister
    cases hregister
    exact List.forall_mem_cons.mpr ⟨⟨_, hservice, _, hentry, rfl, hstrict⟩, hpeers⟩

theorem annotated_of_registerServices {keys : List ServiceKey} {peers peers' : PeerDirectory}
    (hregister : keys.foldlM (registerService trustDomain serviceAnnotations) peers = some peers')
    (hpeers : ∀ peer ∈ peers.table, Annotated serviceAnnotations peer.1) :
    ∀ peer ∈ peers'.table, Annotated serviceAnnotations peer.1 := by
  induction keys generalizing peers with
  | nil =>
    cases hregister
    exact hpeers
  | cons key keys ih =>
    rw [List.foldlM_cons] at hregister
    obtain ⟨next, hnext, hrest⟩ := Option.bind_eq_some_iff.mp hregister
    exact ih hrest (annotated_of_registerService h hnext hpeers)

end Npamp.Mesh
