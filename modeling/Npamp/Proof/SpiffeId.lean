import Npamp.Proof.Plan
import Mathlib.Data.List.TakeWhile
import Npamp.Lib.Text

/-!
# The identities that are parsed

`SpiffeId::parse` strips every slash in front of the path at once, so a doubled or a lone slash
there goes unnoticed.
-/

namespace Npamp.Mesh.SpiffeId

open List

/-- The path segments that a SPIFFE ID may have. -/
structure IsSegment (seg : Str) : Prop where
  nonempty : seg ≠ []
  absolute : seg ≠ ['.'] ∧ seg ≠ ['.', '.']
  chars : ∀ c ∈ seg, isPathSegmentChar c = true

/-- A string of the form `spiffe://td/seg1/…/segn`. -/
def IsSpiffeId (s : Str) : Prop :=
  strLen s ≤ maxUriLen ∧ ∃ (td : Str) (segs : List Str),
    s = scheme ++ (td ++ segs.flatMap ('/' :: ·))
      ∧ td ≠ [] ∧ td.length ≤ maxTrustDomainLen ∧ (∀ c ∈ td, isPathSegmentChar c = true)
      ∧ ∀ seg ∈ segs, IsSegment seg

/-- The two strings are equal up to the letter case of their trust domains. -/
def SameUpToCase (s t : Str) : Prop :=
  ∃ a b path : Str, s = scheme ++ (a ++ path) ∧ t = scheme ++ (b ++ path)
    ∧ '/' ∉ a ∧ '/' ∉ b ∧ a.map Char.toLower = b.map Char.toLower

def pathOf (s : Str) : Str := (s.drop scheme.length).dropWhile (· ≠ '/')

/-- The run of slashes behind the trust domain. -/
def slashes (s : Str) : Str := (pathOf s).takeWhile (· = '/')

/-- `spiffe://td/seg1/…/segn` with `k` more slashes behind the trust domain. -/
def Spells (k : Nat) (s : Str) : Prop :=
  strLen s ≤ maxUriLen ∧ ∃ (td : Str) (segs : List Str),
    s = scheme ++ (td ++ (replicate k '/' ++ segs.flatMap ('/' :: ·))) ∧ (segs = [] → k ≤ 1)
      ∧ td ≠ [] ∧ td.length ≤ maxTrustDomainLen ∧ (∀ c ∈ td, isPathSegmentChar c = true)
      ∧ ∀ seg ∈ segs, IsSegment seg

/-- The path is not a lone slash and does not begin with two. -/
def Tight (s : Str) : Prop := pathOf s ≠ ['/'] ∧ (pathOf s).take 2 ≠ ['/', '/']

instance (s : Str) : Decidable (Tight s) := inferInstanceAs (Decidable (_ ∧ _))

variable {c : Char} {s : Str} {segs : List Str} {k : Nat}

theorem isAlphanum_eq (c : Char) : c.isAlphanum = (c.isUpper || c.isLower || c.isDigit) := rfl

theorem toNat_lt_of_isPathSegmentChar (h : isPathSegmentChar c = true) : c.toNat < 128 := by
  have hbelow {d : Char} (hd : d.toNat < 128) (h : c.val ≤ d.val) : c.toNat < 128 :=
    Nat.lt_of_le_of_lt (UInt32.le_iff_toNat_le.mp h) hd
  simp only [isPathSegmentChar, isAlphanum_eq, Bool.or_eq_true, beq_iff_eq] at h
  rcases h with ((((h | h) | h) | rfl) | rfl) | rfl
  · exact hbelow (d := 'Z') (by decide) (of_decide_eq_true h).2
  · exact hbelow (d := 'z') (by decide) (of_decide_eq_true (Bool.and_eq_true_iff.mp h).2)
  · exact hbelow (d := '9') (by decide) (of_decide_eq_true (Bool.and_eq_true_iff.mp h).2)
  all_goals decide

theorem isTrustDomainChar_toLower (c : Char) :
    isTrustDomainChar c.toLower = isPathSegmentChar c := by
  by_cases hascii : c.toNat < 128
  · have hall : ∀ n < 128, isTrustDomainChar (Char.ofNat n).toLower
        = isPathSegmentChar (Char.ofNat n) := by
      decide +kernel
    have hc := hall c.toNat hascii
    rwa [Char.ofNat_toNat] at hc
  · have hlower : c.toLower = c := by
      refine dif_neg ?_
      rintro ⟨-, hle⟩
      exact hascii (Nat.lt_of_le_of_lt (UInt32.le_iff_toNat_le.mp hle) (by decide))
    have hpath : isPathSegmentChar c = false := by
      rw [Bool.eq_false_iff]
      exact fun h => hascii (toNat_lt_of_isPathSegmentChar h)
    have hdomain : isTrustDomainChar c = true → isPathSegmentChar c = true := by
      simp only [isTrustDomainChar, isPathSegmentChar, isAlphanum_eq, Bool.or_eq_true]
      tauto
    rw [hlower, hpath, Bool.eq_false_iff]
    exact fun h => absurd (hdomain h) (by simp [hpath])

theorem utf8Size_of_isPathSegmentChar (h : isPathSegmentChar c = true) : c.utf8Size = 1 := by
  refine Char.utf8Size_eq_one_iff.mpr (UInt32.le_iff_toNat_le.mpr ?_)
  exact Nat.le_of_lt_succ (toNat_lt_of_isPathSegmentChar h)

theorem ne_of_isPathSegmentChar {d : Char} (h : isPathSegmentChar c = true)
    (hd : isPathSegmentChar d = false) : c ≠ d := by
  rintro rfl
  exact absurd h (by simp [hd])

theorem not_mem_of_chars (h : ∀ c ∈ s, isPathSegmentChar c = true) {d : Char}
    (hd : isPathSegmentChar d = false) : d ∉ s :=
  fun hmem => absurd (h d hmem) (by simp [hd])

theorem checkTrustDomain_lower {a : Str} : checkTrustDomain (a.map Char.toLower) = .ok ()
      ↔ a ≠ [] ∧ a.length ≤ maxTrustDomainLen ∧ ∀ c ∈ a, isPathSegmentChar c = true := by
  have hfind : (a.map Char.toLower).find? (fun c => !isTrustDomainChar c) = none
      ↔ ∀ c ∈ a, isPathSegmentChar c = true := by
    simp [isTrustDomainChar_toLower]
  have hlen : (∀ c ∈ a, isPathSegmentChar c = true) →
      strLen (a.map Char.toLower) = a.length := by
    intro h
    rw [strLen_eq_length, length_map]
    intro c hc
    obtain ⟨d, hd, rfl⟩ := mem_map.mp hc
    have hdomain : isTrustDomainChar d.toLower = true :=
      (isTrustDomainChar_toLower d).trans (h d hd)
    refine utf8Size_of_isPathSegmentChar ?_
    simp only [isTrustDomainChar, isPathSegmentChar, isAlphanum_eq, Bool.or_eq_true] at hdomain ⊢
    tauto
  unfold checkTrustDomain
  by_cases hnil : a = []
  · simp [hnil]
  rw [if_neg (by simpa using hnil)]
  cases hc : (a.map Char.toLower).find? (fun c => !isTrustDomainChar c) with
  | none =>
    have hchars := hfind.mp hc
    rw [hlen hchars]
    split
    · rename_i hlong
      simp only [reduceCtorEq, false_iff]
      exact fun h => absurd h.2.1 (not_le.mpr hlong)
    · rename_i hshort
      simp only [true_iff]
      exact ⟨hnil, not_lt.mp hshort, hchars⟩
  | some c =>
    have hchars : ¬ ∀ c ∈ a, isPathSegmentChar c = true := by
      rw [← hfind, hc]
      exact Option.some_ne_none c
    split <;> simp only [reduceCtorEq, false_iff] <;> exact fun h => hchars h.2.2

theorem checkSegment_eq_ok {seg : Str} : checkSegment seg = .ok () ↔ IsSegment seg := by
  unfold checkSegment
  split
  · rename_i hnil
    simp only [reduceCtorEq, false_iff]
    exact fun h => h.nonempty hnil
  split
  · rename_i hdots
    simp only [reduceCtorEq, false_iff]
    rintro ⟨-, ⟨hone, htwo⟩, -⟩
    exact hdots.elim hone htwo
  rename_i hnil hdots
  split
  · rename_i c hfind
    have hc := find?_some hfind
    simp only [reduceCtorEq, false_iff]
    exact fun h => absurd (h.chars c (mem_of_find?_eq_some hfind)) (by simpa using hc)
  · rename_i hfind
    simp only [true_iff]
    exact ⟨hnil, not_or.mp hdots, by simpa using hfind⟩

theorem checkSegments_eq_ok : checkSegments segs = .ok () ↔ ∀ seg ∈ segs, IsSegment seg := by
  induction segs with
  | nil => simp [checkSegments]
  | cons seg segs ih =>
    rw [checkSegments, forall_mem_cons, ← ih, ← checkSegment_eq_ok]
    cases checkSegment seg with
    | error e => simp
    | ok u => simp

theorem getLast_segments (h : ∀ seg ∈ segs, IsSegment seg) :
    (segs.flatMap ('/' :: ·)).getLast? ≠ some '/' := by
  rcases eq_nil_or_concat segs with rfl | ⟨init, seg, rfl⟩
  · simp
  have hseg := h seg (by simp)
  rcases eq_nil_or_concat seg with rfl | ⟨front, c, rfl⟩
  · exact absurd rfl hseg.nonempty
  have hc := hseg.chars c (by simp)
  have hlast : ((init.concat (front.concat c)).flatMap ('/' :: ·)).getLast? = some c := by
    simp only [concat_eq_append, flatMap_append, flatMap_singleton,
      ← cons_append, ← append_assoc, getLast?_concat]
  rw [hlast]
  simpa using ne_of_isPathSegmentChar hc (by decide)

theorem take_segments (h : ∀ seg ∈ segs, IsSegment seg) :
    segs.flatMap ('/' :: ·) ≠ ['/'] ∧ (segs.flatMap ('/' :: ·)).take 2 ≠ ['/', '/'] := by
  cases segs with
  | nil => simp
  | cons seg segs =>
    have hseg := h seg (by simp)
    cases seg with
    | nil => exact absurd rfl hseg.nonempty
    | cons c seg =>
      have hc := ne_of_isPathSegmentChar (hseg.chars c (by simp)) (d := '/') (by decide)
      simp [hc]

theorem pathOf_scheme (rest : Str) : pathOf (scheme ++ rest) = rest.dropWhile (· ≠ '/') := by
  rw [pathOf, drop_left]

theorem split_authority {td : Str} (htd : '/' ∉ td) {path : Str}
    (hpath : path = [] ∨ ∃ body, path = '/' :: body) :
    (td ++ path).takeWhile (· ≠ '/') = td ∧ (td ++ path).dropWhile (· ≠ '/') = path := by
  rcases hpath with rfl | ⟨body, rfl⟩
  · have hall : ∀ c ∈ td, decide (c ≠ '/') = true := fun c hc =>
      decide_eq_true (ne_of_mem_of_not_mem hc htd)
    rw [append_nil]
    exact ⟨takeWhile_eq_self_iff.mpr hall, dropWhile_eq_nil_iff.mpr hall⟩
  · exact takeWhile_of_slash htd

theorem eq_of_strip {initial rest : Str} (h : strip initial s = some rest) :
    s = initial ++ rest := by
  induction initial generalizing s with
  | nil => exact Option.some.inj h
  | cons x initial ih =>
    cases s with
    | nil => cases h
    | cons c s =>
      rw [strip] at h
      split at h
      · rename_i hx
        rw [hx, cons_append, ← ih h]
      · cases h

theorem dropWhile_segments (h : ∀ seg ∈ segs, IsSegment seg) :
    (segs.flatMap ('/' :: ·)).dropWhile (· = '/') = ['/'].intercalate segs := by
  by_cases hnil : segs = []
  · rw [hnil]
    rfl
  obtain ⟨seg, rest, rfl⟩ := exists_cons_of_ne_nil hnil
  have hseg := h seg mem_cons_self
  obtain ⟨c, seg, rfl⟩ := exists_cons_of_ne_nil hseg.nonempty
  have hc : c ≠ '/' := ne_of_isPathSegmentChar (hseg.chars c mem_cons_self) (by decide)
  have hcons : ['/'].intercalate ((c :: seg) :: rest) = c :: (seg ++ rest.flatMap ('/' :: ·)) :=
    (cons.inj (Text.flatMap_cons_eq (cons_ne_nil _ _)).symm).2
  rw [Text.flatMap_cons_eq hnil, dropWhile_cons_of_pos (by simp), hcons,
    dropWhile_cons_of_neg (by simpa using hc)]

theorem dropWhile_slash (rest : Str) :
    rest.dropWhile (· ≠ '/') = [] ∨ ∃ body, rest.dropWhile (· ≠ '/') = '/' :: body := by
  cases hpath : rest.dropWhile (· ≠ '/') with
  | nil => exact .inl rfl
  | cons c body =>
    have hc := head?_dropWhile_not (fun c : Char => decide (c ≠ '/')) rest
    rw [hpath] at hc
    right
    exact ⟨body, by simpa using hc⟩

theorem parse_scheme_iff {rest : Str} : (∃ id, parse (scheme ++ rest) = .ok id)
      ↔ strLen (scheme ++ rest) ≤ maxUriLen ∧ ¬ ('?' ∈ rest ∨ '#' ∈ rest)
        ∧ ¬ ('@' ∈ rest.takeWhile (· ≠ '/') ∨ ':' ∈ rest.takeWhile (· ≠ '/'))
        ∧ checkTrustDomain ((rest.takeWhile (· ≠ '/')).map Char.toLower) = .ok ()
        ∧ ¬ ((rest.dropWhile (· ≠ '/')).getLast? = some '/'
          ∧ (rest.dropWhile (· ≠ '/')).length > 1)
        ∧ checkPathBody ((rest.dropWhile (· ≠ '/')).dropWhile (· = '/')) = .ok () := by
  rw [parse, strip_append]
  dsimp only
  constructor
  · rintro ⟨id, h⟩
    split at h
    · cases h
    rename_i hlen
    split at h
    · cases h
    rename_i hquery
    split at h
    · cases h
    rename_i huser
    split at h
    · cases h
    rename_i hdomain
    split at h
    · cases h
    rename_i htrailing
    split at h
    · cases h
    rename_i hbody
    exact ⟨not_lt.mp hlen, hquery, huser, hdomain, htrailing, hbody⟩
  · rintro ⟨hlen, hquery, huser, hdomain, htrailing, hbody⟩
    rw [if_neg (not_lt.mpr hlen), if_neg hquery, if_neg huser]
    split
    · rename_i e he
      rw [hdomain] at he
      cases he
    rw [if_neg htrailing]
    split
    · rename_i e he
      rw [hbody] at he
      cases he
    exact ⟨_, rfl⟩

theorem spells_zero : Spells 0 s ↔ IsSpiffeId s := by
  simp [Spells, IsSpiffeId]

theorem Spells.parts (h : Spells k s) :
    ∃ (td : Str) (segs : List Str), s = scheme ++ (td ++ (replicate k '/' ++ segs.flatMap ('/' :: ·)))
      ∧ (segs = [] → k ≤ 1) ∧ td ≠ [] ∧ td.length ≤ maxTrustDomainLen
      ∧ (∀ c ∈ td, isPathSegmentChar c = true) ∧ (∀ seg ∈ segs, IsSegment seg)
      ∧ (td ++ (replicate k '/' ++ segs.flatMap ('/' :: ·))).takeWhile (· ≠ '/') = td
      ∧ (td ++ (replicate k '/' ++ segs.flatMap ('/' :: ·))).dropWhile (· ≠ '/')
        = replicate k '/' ++ segs.flatMap ('/' :: ·) := by
  obtain ⟨-, td, segs, hs, hk, hne, hlength, htd, hsegs⟩ := h
  have hpath : replicate k '/' ++ segs.flatMap ('/' :: ·) = []
      ∨ ∃ body, replicate k '/' ++ segs.flatMap ('/' :: ·) = '/' :: body := by
    cases k with
    | zero =>
      cases segs with
      | nil => exact .inl rfl
      | cons seg segs => exact .inr ⟨_, rfl⟩
    | succ k => exact .inr ⟨_, rfl⟩
  exact ⟨td, segs, hs, hk, hne, hlength, htd, hsegs,
    split_authority (not_mem_of_chars htd (by decide)) hpath⟩

theorem IsSpiffeId.tight (h : IsSpiffeId s) : Tight s := by
  obtain ⟨td, segs, rfl, -, -, -, -, hsegs, -, hdrop⟩ := (spells_zero.mpr h).parts
  rw [Tight, pathOf_scheme, hdrop]
  exact take_segments hsegs

theorem Spells.not_tight (h : Spells (k + 1) s) : ¬ Tight s := by
  obtain ⟨td, segs, rfl, hk, -, -, -, -, -, hdrop⟩ := h.parts
  rw [Tight, pathOf_scheme, hdrop]
  rintro ⟨hlone, htwo⟩
  cases segs with
  | nil =>
    obtain rfl : k = 0 := by
      have := hk rfl
      omega
    exact hlone rfl
  | cons seg segs => cases k <;> exact htwo rfl

theorem Spells.parse (h : Spells k s) : ∃ id, parse s = .ok id := by
  obtain ⟨td, segs, rfl, hk, hne, hlength, htd, hsegs, htake, hdrop⟩ := h.parts
  have hpathChars : ∀ c ∈ replicate k '/' ++ segs.flatMap ('/' :: ·),
      c = '/' ∨ isPathSegmentChar c = true := by
    intro c hc
    rcases mem_append.mp hc with hc | hc
    · exact .inl (eq_of_mem_replicate hc)
    obtain ⟨seg, hseg, hmem⟩ := mem_flatMap.mp hc
    rcases mem_cons.mp hmem with rfl | hmem
    · exact .inl rfl
    · exact .inr ((hsegs seg hseg).chars c hmem)
  have hchars : ∀ d, d ≠ '/' → isPathSegmentChar d = false →
      d ∉ td ++ (replicate k '/' ++ segs.flatMap ('/' :: ·)) := by
    intro d hslash hd hmem
    rcases mem_append.mp hmem with hmem | hmem
    · exact not_mem_of_chars htd hd hmem
    · rcases hpathChars d hmem with rfl | h
      · exact hslash rfl
      · exact absurd h (by simp [hd])
  rw [parse_scheme_iff, htake, hdrop]
  refine ⟨h.1, ?_, ?_, checkTrustDomain_lower.mpr ⟨hne, hlength, htd⟩, ?_, ?_⟩
  · exact not_or.mpr ⟨hchars '?' (by decide) (by decide), hchars '#' (by decide) (by decide)⟩
  · exact not_or.mpr ⟨not_mem_of_chars htd (by decide), not_mem_of_chars htd (by decide)⟩
  · rintro ⟨hlast, hlong⟩
    by_cases hnil : segs = []
    · rw [hnil, flatMap_nil, append_nil, length_replicate] at hlong
      exact absurd (hk hnil) (not_le.mpr hlong)
    · have hpath : segs.flatMap ('/' :: ·) ≠ [] := by
        rw [Text.flatMap_cons_eq hnil]
        exact cons_ne_nil _ _
      rw [getLast?_append_of_ne_nil _ hpath] at hlast
      exact getLast_segments hsegs hlast
  rw [dropWhile_append_of_pos (by simp), dropWhile_segments hsegs, checkPathBody]
  split
  · rfl
  rename_i hbody
  have hnil : segs ≠ [] := by
    rintro rfl
    exact hbody rfl
  rw [splitOn_intercalate '/'
    (fun seg hseg => not_mem_of_chars (hsegs seg hseg).chars (by decide)) hnil,
    checkSegments_eq_ok]
  exact hsegs

theorem exists_scheme {id : SpiffeId} (h : SpiffeId.parse s = .ok id) :
    ∃ rest, s = scheme ++ rest := by
  rw [SpiffeId.parse] at h
  split at h
  · cases h
  split at h
  · cases h
  · exact ⟨_, eq_of_strip ‹_›⟩

/-- The path is its run of slashes and what is left behind it. -/
theorem slashes_append (path : Str) :
    replicate (path.takeWhile (· = '/')).length '/' ++ path.dropWhile (· = '/') = path := by
  have hrun : path.takeWhile (· = '/') = replicate (path.takeWhile (· = '/')).length '/' :=
    eq_replicate_of_mem fun c hc => by simpa using mem_takeWhile_imp hc
  rw [← hrun, takeWhile_append_dropWhile]

theorem exists_spells {id : SpiffeId} (h : SpiffeId.parse s = .ok id) : ∃ k, Spells k s := by
  obtain ⟨rest, rfl⟩ := exists_scheme h
  obtain ⟨hlen, -, -, hdomain, htrailing, hbody⟩ := parse_scheme_iff.mp ⟨id, h⟩
  obtain ⟨hne, hlength, htd⟩ := checkTrustDomain_lower.mp hdomain
  have hrest := takeWhile_append_dropWhile (p := (· ≠ '/')) (l := rest)
  have hslash := dropWhile_slash rest
  generalize rest.dropWhile (· ≠ '/') = path at hrest hslash htrailing hbody
  have hpath := slashes_append path
  rw [checkPathBody] at hbody
  split at hbody
  · rename_i hnil
    rw [hnil, append_nil] at hpath
    refine ⟨(path.takeWhile (· = '/')).length, hlen, _, [], ?_, fun _ => ?_, hne, hlength, htd,
      fun _ hseg => absurd hseg not_mem_nil⟩
    · rw [flatMap_nil, append_nil, hpath, hrest]
    · by_contra hlong
      refine htrailing ⟨?_, ?_⟩
      · rw [← hpath, getLast?_replicate, if_neg (by omega)]
      · rw [← hpath, length_replicate]
        omega
  · rename_i hbody'
    obtain ⟨k, hk⟩ : ∃ k, (path.takeWhile (· = '/')).length = k + 1 := by
      rcases hslash with rfl | ⟨body, rfl⟩
      · exact absurd rfl hbody'
      · exact ⟨_, by rw [takeWhile_cons_of_pos (by simp), length_cons]⟩
    refine ⟨k, hlen, _, (path.dropWhile (· = '/')).splitOn '/', ?_,
      fun hnil => absurd hnil (splitOn_ne_nil _ _), hne, hlength, htd, checkSegments_eq_ok.mp hbody⟩
    have hsplit : ['/'].intercalate ((path.dropWhile (· = '/')).splitOn '/')
        = path.dropWhile (· = '/') := intercalate_splitOn '/'
    rw [hk, replicate_succ', append_assoc, singleton_append] at hpath
    rw [Text.flatMap_cons_eq (splitOn_ne_nil _ _), hsplit, hpath, hrest]

theorem pathOf_of_sameUpToCase {t : Str} (h : SameUpToCase s t) : pathOf s = pathOf t := by
  obtain ⟨a, b, path, rfl, rfl, ha, hb, -⟩ := h
  have hskip {td : Str} (htd : '/' ∉ td) :
      (td ++ path).dropWhile (· ≠ '/') = path.dropWhile (· ≠ '/') :=
    dropWhile_append_of_pos fun c hc => decide_eq_true (ne_of_mem_of_not_mem hc htd)
  rw [pathOf_scheme, pathOf_scheme, hskip ha, hskip hb]

theorem sameUpToCase_of_slashes {t : Str} {id : SpiffeId} (h : SpiffeId.parse s = .ok id)
    (h' : SpiffeId.parse t = .ok id) (hslashes : slashes s = slashes t) : SameUpToCase s t := by
  obtain ⟨rest, rfl⟩ := exists_scheme h
  obtain ⟨rest', rfl⟩ := exists_scheme h'
  obtain ⟨hdomain, hbody⟩ := of_parse h
  obtain ⟨hdomain', hbody'⟩ := of_parse h'
  rw [slashes, slashes, pathOf_scheme, pathOf_scheme] at hslashes
  have hpath : rest.dropWhile (· ≠ '/') = rest'.dropWhile (· ≠ '/') := by
    rw [← takeWhile_append_dropWhile (p := (· = '/')) (l := rest.dropWhile (· ≠ '/')), hslashes,
      ← hbody, hbody', takeWhile_append_dropWhile]
  have hdomain_slash (rest : Str) : '/' ∉ rest.takeWhile (· ≠ '/') :=
    fun hmem => absurd (mem_takeWhile_imp hmem) (by simp)
  refine ⟨rest.takeWhile (· ≠ '/'), rest'.takeWhile (· ≠ '/'), rest.dropWhile (· ≠ '/'), ?_, ?_,
    hdomain_slash rest, hdomain_slash rest', hdomain.symm.trans hdomain'⟩
  · rw [takeWhile_append_dropWhile]
  · rw [hpath, takeWhile_append_dropWhile]

/-- **When identities are parsed exactly.** `parse` accepts the grammar and, beside it, the grammar
with more slashes behind the trust domain; two strings of one identity differ in more than the case
of the trust domain exactly if they differ in those slashes. -/
theorem parse_exact (s : Str) :
    (((∃ id, parse s = .ok id) ↔ IsSpiffeId s) ↔ ¬ ∃ k, Spells (k + 1) s)
      ∧ ∀ t id, parse s = .ok id → parse t = .ok id →
        (SameUpToCase s t ↔ slashes s = slashes t) := by
  refine ⟨⟨?_, fun hnone => ⟨?_, fun h => (spells_zero.mpr h).parse⟩⟩, fun t id h h' => ⟨fun hcase =>
    ?_, sameUpToCase_of_slashes h h'⟩⟩
  · rintro hexact ⟨k, hk⟩
    exact hk.not_tight (hexact.mp hk.parse).tight
  · rintro ⟨id, h⟩
    obtain ⟨k, hk⟩ := exists_spells h
    cases k with
    | zero => exact spells_zero.mp hk
    | succ k => exact absurd ⟨k, hk⟩ hnone
  · rw [slashes, slashes, pathOf_of_sameUpToCase hcase]

/-- **Two spellings of one identity.** A doubled slash behind the trust domain is accepted, and so
is a lone one. -/
theorem parse_loose_slash :
    (∃ id, parse "spiffe://td//a".toList = .ok id ∧ parse "spiffe://td/a".toList = .ok id)
      ∧ ¬ IsSpiffeId "spiffe://td//a".toList
      ∧ ¬ SameUpToCase "spiffe://td//a".toList "spiffe://td/a".toList
      ∧ (∃ id, parse "spiffe://td/".toList = .ok id ∧ parse "spiffe://td".toList = .ok id)
      ∧ ¬ IsSpiffeId "spiffe://td/".toList := by
  refine ⟨⟨_, rfl, rfl⟩, fun h => absurd h.tight (by decide), ?_, ⟨_, rfl, rfl⟩,
    fun h => absurd h.tight (by decide)⟩
  rintro ⟨a, b, path, hs, ht, -, -, hcase⟩
  have hlength := congrArg List.length hcase
  have hs := congrArg List.length hs
  have ht := congrArg List.length ht
  simp only [List.length_map, List.length_append] at hlength hs ht
  have hsizes : "spiffe://td//a".toList.length = "spiffe://td/a".toList.length + 1 := by decide
  omega

end Npamp.Mesh.SpiffeId
