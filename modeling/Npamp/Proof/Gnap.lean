import Npamp.Gnap
import Npamp.Plain

/-!
# What a signature base says

A value is written as it is, so a newline in it can pass for a further line, and a string that is
not UTF-8 is written as another one.
-/

namespace Npamp.Gnap

open Utf8 Text List

theorem escape_char {p : Bytes} (hp : IsChar false p) :
    (if p = ascii "\\" ∨ p = ascii "\"" then ascii "\\" ++ p else p) = p.flatMap escaped := by
  have hslash : ascii "\\" = [0x5C] := rfl
  have hquote : ascii "\"" = [0x22] := rfl
  rw [hslash, hquote]
  rcases hp.ascii_or_high with ⟨a, -, rfl⟩ | hhigh
  · simp [escaped]
  have hsame : ∀ o ∈ p, escaped o = [o] := by
    intro o ho
    have hne : ∀ c : UInt8, ¬ 0x80 ≤ c → o ≠ c := fun c hc heq => hc (heq ▸ hhigh o ho)
    rw [escaped, if_neg (not_or.mpr ⟨hne _ (by decide), hne _ (by decide)⟩)]
  have hne : ∀ c : UInt8, ¬ 0x80 ≤ c → p ≠ [c] := fun c hc heq =>
    hc (hhigh c (heq ▸ mem_singleton_self c))
  rw [if_neg (not_or.mpr ⟨hne _ (by decide), hne _ (by decide)⟩), flatMap_congr hsame]
  exact (flatMap_singleton' p).symm

/-- What is written of a text: an octet that is not UTF-8 becomes the replacement character. -/
def written (s : Bytes) : Bytes := (runes s).flatten

theorem sfString_eq (s : Bytes) : sfString s = quoted (written s) := by
  have hchars : (runes s).flatMap
      (fun p => if p = ascii "\\" ∨ p = ascii "\"" then ascii "\\" ++ p else p)
        = (written s).flatMap escaped :=
    calc _ = (runes s).flatMap (·.flatMap escaped) :=
          flatMap_congr fun p hp => escape_char (isChar_of_mem_runesUpTo hp)
      _ = (written s).flatMap escaped := by
          rw [written, flatten_eq_flatMap, flatMap_assoc]; rfl
  rw [sfString, hchars]
  rfl

theorem sfString_append_inj {s t r r' : Bytes} (h : sfString s ++ r = sfString t ++ r') :
    written s = written t ∧ r = r' := by
  rw [sfString_eq, sfString_eq] at h
  exact quoted_append_inj h

/-- What may stand behind a parameter: nothing, or the next parameter with one of these initials. -/
def Behind (ls : List UInt8) (r : Bytes) : Prop := r = [] ∨ ∃ l t, r = 0x3B :: l :: t ∧ l ∈ ls

theorem Behind.ne {k : UInt8} {ls r t : Bytes} (h : Behind ls r) (hk : k ∉ ls) :
    r ≠ 0x3B :: k :: t := by
  rintro rfl
  rcases h with h | ⟨l, t', heq, hl⟩
  · cases h
  · exact hk ((cons.inj (cons.inj heq).2).1 ▸ hl)

theorem Behind.head {ls r : Bytes} (h : Behind ls r) : ∀ c ∈ r.head?, c = 0x3B := by
  rcases h with rfl | ⟨l, t, rfl, -⟩
  · simp
  · simp

section Param

variable {α : Type} [DecidableEq α] {key : String} {zero : α} {format : α → Bytes} {v w : α}
  {k : UInt8} {ks ls r r' : Bytes}

theorem Behind.param (hr : Behind ls r) (hkey : ascii key = 0x3B :: k :: ks) :
    Behind (k :: ls) (param key zero format v ++ r) := by
  unfold Gnap.param
  split_ifs
  · exact .inr ⟨k, ks ++ (format v ++ r), by rw [hkey, append_assoc]; rfl, mem_cons_self⟩
  · exact hr.imp_right fun ⟨l, t, ht, hl⟩ => ⟨l, t, ht, mem_cons_of_mem _ hl⟩

theorem param_append_inj {R : α → α → Prop} (hzero : R zero zero)
    (hkey : ascii key = 0x3B :: k :: ks) (hr : Behind ls r) (hr' : Behind ls r') (hk : k ∉ ls)
    (hformat : format v ++ r = format w ++ r' → R v w ∧ r = r')
    (h : param key zero format v ++ r = param key zero format w ++ r') : R v w ∧ r = r' := by
  unfold param at h
  rw [hkey] at h
  split_ifs at h with hv hw hw
  · rw [append_assoc, append_assoc] at h
    exact hformat (append_cancel_left h)
  · exact absurd h.symm (hr'.ne hk)
  · exact absurd h (hr.ne hk)
  · rw [not_not.mp hv, not_not.mp hw]
    exact ⟨hzero, h⟩

theorem infix_of_param (hkey : 0x0A ∉ ascii key)
    (hformat : [0x0A, 0x22, 0x40] <:+: format v ++ r → [0x0A, 0x22, 0x40] <:+: r)
    (h : [0x0A, 0x22, 0x40] <:+: param key zero format v ++ r) : [0x0A, 0x22, 0x40] <:+: r := by
  unfold param at h
  split_ifs at h
  · rw [append_assoc] at h
    exact hformat (infix_of_append hkey h)
  · exact h

end Param

theorem notMem_formatInt {o : UInt8} (h : o ≠ 0x2D ∧ ¬ (0x30 ≤ o ∧ o ≤ 0x39)) (n : Int64) :
    o ∉ formatInt n := fun hmem =>
  (minus_or_digit_of_mem_integer hmem).elim h.1 h.2

theorem formatInt_append_inj {v w : Int64} {ls r r' : Bytes} (hr : Behind ls r)
    (hr' : Behind ls r') (h : formatInt v ++ r = formatInt w ++ r') : v = w ∧ r = r' := by
  obtain ⟨hdigits, hrest⟩ := append_inj_of_head (notMem_formatInt (by decide) v)
    (notMem_formatInt (by decide) w) hr.head hr'.head h
  exact ⟨Int64.toInt_inj.mp (integer_injective hdigits), hrest⟩

/-- The parameters that are written between quotes. -/
def SignatureParams.texts (p : SignatureParams) : List Bytes := [p.nonce, p.alg, p.keyID, p.tag]

section Stages

variable (p : SignatureParams)

theorem behind_tag : Behind [0x74] (param ";tag=" [] sfString p.tag ++ []) :=
  Behind.param (.inl rfl) rfl

theorem behind_keyID : Behind [0x6B, 0x74] (param ";keyid=" [] sfString p.keyID
    ++ (param ";tag=" [] sfString p.tag ++ [])) :=
  (behind_tag p).param rfl

theorem behind_alg : Behind [0x61, 0x6B, 0x74] (param ";alg=" [] sfString p.alg
    ++ (param ";keyid=" [] sfString p.keyID ++ (param ";tag=" [] sfString p.tag ++ []))) :=
  (behind_keyID p).param rfl

theorem behind_nonce : Behind [0x6E, 0x61, 0x6B, 0x74] (param ";nonce=" [] sfString p.nonce
    ++ (param ";alg=" [] sfString p.alg ++ (param ";keyid=" [] sfString p.keyID
    ++ (param ";tag=" [] sfString p.tag ++ [])))) :=
  (behind_alg p).param rfl

theorem behind_expires : Behind [0x65, 0x6E, 0x61, 0x6B, 0x74]
    (param ";expires=" 0 formatInt p.expires ++ (param ";nonce=" [] sfString p.nonce
    ++ (param ";alg=" [] sfString p.alg ++ (param ";keyid=" [] sfString p.keyID
    ++ (param ";tag=" [] sfString p.tag ++ []))))) :=
  (behind_nonce p).param rfl

theorem serializeParams_eq : serializeParams p = param ";created=" 0 formatInt p.created
    ++ (param ";expires=" 0 formatInt p.expires ++ (param ";nonce=" [] sfString p.nonce
    ++ (param ";alg=" [] sfString p.alg ++ (param ";keyid=" [] sfString p.keyID
    ++ (param ";tag=" [] sfString p.tag ++ []))))) := by
  rw [append_nil, serializeParams]

end Stages

theorem serializeParams_inj {p q : SignatureParams} (h : serializeParams p = serializeParams q) :
    p.created = q.created ∧ p.expires = q.expires ∧ p.texts.map written = q.texts.map written := by
  rw [serializeParams_eq, serializeParams_eq] at h
  obtain ⟨hcreated, h⟩ := param_append_inj (R := Eq) rfl rfl (behind_expires p) (behind_expires q)
    (by decide) (formatInt_append_inj (behind_expires p) (behind_expires q)) h
  obtain ⟨hexpires, h⟩ := param_append_inj (R := Eq) rfl rfl (behind_nonce p) (behind_nonce q)
    (by decide) (formatInt_append_inj (behind_nonce p) (behind_nonce q)) h
  obtain ⟨hnonce, h⟩ := param_append_inj (R := fun s t => written s = written t) rfl rfl
    (behind_alg p) (behind_alg q) (by decide) sfString_append_inj h
  obtain ⟨halg, h⟩ := param_append_inj (R := fun s t => written s = written t) rfl rfl
    (behind_keyID p) (behind_keyID q) (by decide) sfString_append_inj h
  obtain ⟨hkeyID, h⟩ := param_append_inj (R := fun s t => written s = written t) rfl rfl
    (behind_tag p) (behind_tag q) (by decide) sfString_append_inj h
  have hend : Behind [] [] := .inl rfl
  obtain ⟨htag, -⟩ := param_append_inj (R := fun s t => written s = written t) rfl rfl hend hend
    (by decide) sfString_append_inj h
  exact ⟨hcreated, hexpires, by simp [SignatureParams.texts, hnonce, halg, hkeyID, htag]⟩

/-- Only at the last line does a quote and an at sign follow a newline. -/
theorem infix_of_sfString {s r : Bytes} (hr : r.head? ≠ some 0x40)
    (h : [0x0A, 0x22, 0x40] <:+: sfString s ++ r) : [0x0A, 0x22, 0x40] <:+: r := by
  rw [sfString_eq] at h
  exact infix_of_quoted_append (by decide) (by decide) hr h

theorem Behind.head_ne {ls r : Bytes} (h : Behind ls r) : r.head? ≠ some 0x40 := fun hhead =>
  absurd (h.head _ hhead) (by decide)

theorem not_infix_serializeParams {p : SignatureParams} :
    ¬ [0x0A, 0x22, 0x40] <:+: serializeParams p := by
  intro h
  rw [serializeParams_eq] at h
  replace h := infix_of_param (by decide)
    (infix_of_append (notMem_formatInt (by decide) _)) h
  replace h := infix_of_param (by decide)
    (infix_of_append (notMem_formatInt (by decide) _)) h
  replace h := infix_of_param (by decide) (infix_of_sfString (behind_alg p).head_ne) h
  replace h := infix_of_param (by decide) (infix_of_sfString (behind_keyID p).head_ne) h
  replace h := infix_of_param (by decide) (infix_of_sfString (behind_tag p).head_ne) h
  replace h := infix_of_param (by decide) (infix_of_sfString (by decide)) h
  exact absurd h (by decide)

theorem head_append_ne {a r : Bytes} (ha : a ≠ [] ∧ a.head? ≠ some 0x40) :
    (a ++ r).head? ≠ some 0x40 := by
  rw [head?_append_of_ne_nil a ha.1]
  exact ha.2

theorem infix_of_names {cs : List Bytes} {r : Bytes} (hr : r.head? ≠ some 0x40)
    (h : [0x0A, 0x22, 0x40] <:+: (ascii " ").intercalate (cs.map sfString) ++ r) :
    [0x0A, 0x22, 0x40] <:+: r := by
  induction cs with
  | nil => exact h
  | cons c cs ih =>
    cases cs with
    | nil =>
      refine infix_of_sfString (s := c) hr ?_
      simpa [intercalate] using h
    | cons d cs =>
      have hsplit : (ascii " ").intercalate ((c :: d :: cs).map sfString) ++ r
          = sfString c ++ (ascii " " ++ ((ascii " ").intercalate ((d :: cs).map sfString) ++ r)) := by
        simp [intercalate]
      rw [hsplit] at h
      exact ih (infix_of_append (by decide)
        (infix_of_sfString (head_append_ne (by decide)) h))

theorem not_infix_last {cs : List Bytes} {p : SignatureParams} :
    ¬ [0x0A, 0x22, 0x40] <:+: serializeComponentList cs ++ serializeParams p := by
  intro h
  rw [serializeComponentList, append_assoc, append_assoc] at h
  replace h := infix_of_names (head_append_ne (by decide)) (infix_of_append (by decide) h)
  exact not_infix_serializeParams (infix_of_append (by decide) h)

variable {values values' : Bytes → Option Bytes} {cs cs' : List Bytes} {c b b' last last' : Bytes}

theorem lines_cons (h : lines values (c :: cs) = .ok b) :
    ∃ v rest, values c = some v ∧ lines values cs = .ok rest
      ∧ b = sfString c ++ (0x3A :: 0x20 :: (v ++ 0x0A :: rest)) := by
  rw [lines] at h
  split at h
  · cases h
  next v hv =>
    split at h
    · cases h
    next rest hrest =>
      cases h
      refine ⟨v, rest, hv, hrest, ?_⟩
      simp [show ascii ": " = [0x3A, 0x20] from rfl, show ascii "\n" = [0x0A] from rfl]

def lastKey : Bytes := sfString (ascii "@signature-params") ++ ascii ": "

theorem infix_lines (h : lines values cs = .ok b) :
    [0x0A, 0x22, 0x40] <:+: 0x0A :: (b ++ (lastKey ++ last)) := by
  induction cs generalizing b with
  | nil =>
    cases h
    have hkey : lastKey = 0x22 :: 0x40 :: ascii "signature-params\": " := by decide +kernel
    rw [hkey]
    exact IsPrefix.isInfix ⟨_, rfl⟩
  | cons c cs ih =>
    obtain ⟨v, rest, -, hrest, rfl⟩ := lines_cons h
    refine (ih hrest).trans (IsSuffix.isInfix ⟨0x0A :: (sfString c ++ (0x3A :: 0x20 :: v)), ?_⟩)
    simp

theorem lastKey_append_inj {r r' : Bytes}
    (h : lastKey ++ r = sfString c ++ (0x3A :: 0x20 :: r')) : r = r' := by
  rw [lastKey, append_assoc] at h
  have htail := (sfString_append_inj h).2
  exact (cons.inj (cons.inj htail).2).2

/-- What the lines say: each name as it is written, with its value. -/
def said (values : Bytes → Option Bytes) (cs : List Bytes) : List (Bytes × Option Bytes) :=
  cs.map fun c => (written c, values c)

theorem lines_cons_append_inj {c' v v' rest rest' t t' : Bytes}
    (h : sfString c ++ (0x3A :: 0x20 :: (v ++ 0x0A :: rest)) ++ t
      = sfString c' ++ (0x3A :: 0x20 :: (v' ++ 0x0A :: rest')) ++ t') :
    written c = written c' ∧ v ++ 0x0A :: (rest ++ t) = v' ++ 0x0A :: (rest' ++ t') := by
  rw [append_assoc, append_assoc] at h
  obtain ⟨hname, htail⟩ := sfString_append_inj h
  simp only [cons_append, append_assoc, cons.injEq, true_and] at htail
  exact ⟨hname, htail⟩

/-- If one of the two bases ran out of lines first, what follows its last key would hold the other
one's last line. -/
theorem lines_append_inj (hvs : ∀ c ∈ cs, ∀ v ∈ values c, 0x0A ∉ v)
    (hvs' : ∀ c ∈ cs', ∀ v ∈ values' c, 0x0A ∉ v) (hb : lines values cs = .ok b)
    (hb' : lines values' cs' = .ok b') (hlast : ¬ [0x0A, 0x22, 0x40] <:+: last)
    (hlast' : ¬ [0x0A, 0x22, 0x40] <:+: last')
    (h : b ++ (lastKey ++ last) = b' ++ (lastKey ++ last')) :
    said values cs = said values' cs' ∧ last = last' := by
  have hshort : ∀ {values : Bytes → Option Bytes} {c cs b t t'},
      lines values (c :: cs) = .ok b → lastKey ++ t = b ++ (lastKey ++ t') →
      [0x0A, 0x22, 0x40] <:+: t := by
    intro values c cs b t t' hb h
    obtain ⟨v, rest, -, hrest, rfl⟩ := lines_cons hb
    simp only [append_assoc, cons_append] at h
    obtain rfl := lastKey_append_inj h
    exact (infix_lines hrest).trans (IsSuffix.isInfix ⟨v, rfl⟩)
  induction cs generalizing cs' b b' with
  | nil =>
    cases hb
    cases cs' with
    | nil =>
      cases hb'
      exact ⟨rfl, append_cancel_left h⟩
    | cons c' cs' => exact absurd (hshort hb' h) hlast
  | cons c cs ih =>
    cases cs' with
    | nil =>
      cases hb'
      exact absurd (hshort hb h.symm) hlast'
    | cons c' cs' =>
      obtain ⟨v, rest, hvalue, hrest, rfl⟩ := lines_cons hb
      obtain ⟨v', rest', hvalue', hrest', rfl⟩ := lines_cons hb'
      rw [forall_mem_cons] at hvs hvs'
      obtain ⟨hname, htail⟩ := lines_cons_append_inj h
      obtain ⟨rfl, hbases⟩ := append_cons_inj (hvs.1 v hvalue) (hvs'.1 v' hvalue') htail
      obtain ⟨hsame, hlasts⟩ := ih hvs.2 hvs'.2 hrest hrest' hbases
      exact ⟨congrArg₂ cons (Prod.ext hname (hvalue.trans hvalue'.symm)) hsame, hlasts⟩

/-- Where the lines are broken: how long the value of each component is. -/
def cuts (values : Bytes → Option Bytes) (cs : List Bytes) : List Nat :=
  cs.map fun c => ((values c).getD []).length

/-- As many lines, broken at the same places, can be read in one way only. -/
theorem lines_inj_of_cuts (hcuts : cuts values cs = cuts values' cs') (hb : lines values cs = .ok b)
    (hb' : lines values' cs' = .ok b') (h : b ++ last = b' ++ last') :
    said values cs = said values' cs' ∧ last = last' := by
  induction cs generalizing cs' b b' with
  | nil =>
    obtain rfl : cs' = [] := map_eq_nil_iff.mp hcuts.symm
    cases hb
    cases hb'
    exact ⟨rfl, h⟩
  | cons c cs ih =>
    cases cs' with
    | nil => cases hcuts
    | cons c' cs' =>
      obtain ⟨v, rest, hvalue, hrest, rfl⟩ := lines_cons hb
      obtain ⟨v', rest', hvalue', hrest', rfl⟩ := lines_cons hb'
      obtain ⟨hlength, hcuts⟩ := cons.inj hcuts
      simp only [hvalue, hvalue', Option.getD_some] at hlength
      obtain ⟨hname, htail⟩ := lines_cons_append_inj h
      obtain ⟨rfl, hbases⟩ := append_inj htail hlength
      obtain ⟨hsame, hlasts⟩ := ih hcuts hrest hrest' (cons.inj hbases).2
      exact ⟨congrArg₂ cons (Prod.ext hname (hvalue.trans hvalue'.symm)) hsame, hlasts⟩

/-- What a signature base is built from. -/
structure Input where
  components : List Bytes
  values : Bytes → Option Bytes
  params : SignatureParams

namespace Input

def base (i : Input) : Except GoError Bytes := buildSignatureBase i.components i.values i.params

/-- The names and the string parameters. -/
def texts (i : Input) : List Bytes := i.params.texts ++ i.components

/-- Names and string parameters are UTF-8, and no covered value holds a newline. -/
structure Clean (i : Input) : Prop where
  texts : ∀ s ∈ i.texts, valid false s = true
  values : ∀ c ∈ i.components, ∀ v ∈ i.values c, 0x0A ∉ v

/-- The same components with the same values and the same parameters. -/
def Agree (i j : Input) : Prop :=
  i.components = j.components ∧ (∀ c ∈ i.components, i.values c = j.values c) ∧ i.params = j.params

/-- Their texts are not different texts that are written the same. -/
def Distinct (i j : Input) : Prop := i.texts.map written = j.texts.map written → i.texts = j.texts

theorem base_eq_ok {i : Input} {b : Bytes} (h : i.base = .ok b) :
    ∃ ls, lines i.values i.components = .ok ls
      ∧ b = ls ++ (lastKey ++ (serializeComponentList i.components ++ serializeParams i.params)) := by
  rw [base, buildSignatureBase] at h
  split at h
  · cases h
  next ls hls =>
    cases h
    exact ⟨ls, hls, by simp only [lastKey, append_assoc]⟩

variable {i j : Input} {b : Bytes}

/-- Lines that say the same, before the same last line, are those of inputs that agree as far as
their texts can be told apart. -/
theorem Distinct.agree (h : i.Distinct j)
    (hsaid : said i.values i.components = said j.values j.components)
    (hlast : serializeComponentList i.components ++ serializeParams i.params
      = serializeComponentList j.components ++ serializeParams j.params) : i.Agree j := by
  have hnames : i.components.map written = j.components.map written := by
    simpa [said, Function.comp_def] using congrArg (map Prod.fst) hsaid
  have hlist : serializeComponentList i.components = serializeComponentList j.components := by
    have hquoted : sfString = quoted ∘ written := funext sfString_eq
    rw [serializeComponentList, serializeComponentList, hquoted, ← map_map, hnames, map_map]
  rw [hlist] at hlast
  obtain ⟨hcreated, hexpires, hparams⟩ := serializeParams_inj (append_cancel_left hlast)
  have htexts : i.texts = j.texts := h (by rw [texts, texts, map_append, map_append, hparams, hnames])
  obtain ⟨hfour, hcomponents⟩ := append_inj htexts rfl
  refine ⟨hcomponents, fun c hc => ?_, ?_⟩
  · rw [← hcomponents] at hsaid
    exact (Prod.mk.inj (map_inj_left.mp hsaid c hc)).2
  · simp only [SignatureParams.texts, cons.injEq] at hfour
    cases hi : i.params
    cases hj : j.params
    simp_all

theorem agree_iff (hib : i.base = .ok b) (hjb : j.base = .ok b) :
    i.Agree j ↔ cuts i.values i.components = cuts j.values j.components ∧ i.Distinct j := by
  constructor
  · rintro ⟨hcomponents, hvalues, hparams⟩
    refine ⟨?_, fun _ => by rw [texts, texts, hparams, hcomponents]⟩
    rw [← hcomponents]
    exact map_congr_left fun c hc => by rw [hvalues c hc]
  · rintro ⟨hcuts, hdistinct⟩
    obtain ⟨ls, hls, rfl⟩ := base_eq_ok hib
    obtain ⟨ls', hls', hsame⟩ := base_eq_ok hjb
    obtain ⟨hsaid, hlast⟩ := lines_inj_of_cuts hcuts hls hls' hsame
    exact hdistinct.agree hsaid (append_cancel_left hlast)

theorem Clean.map_written (h : i.Clean) : i.texts.map written = i.texts :=
  (map_congr_left fun s hs => flatten_runes (h.texts s hs)).trans (map_id _)

theorem agree_of_clean (hi : i.Clean) (hj : j.Clean) (hib : i.base = .ok b)
    (hjb : j.base = .ok b) : i.Agree j := by
  obtain ⟨ls, hls, rfl⟩ := base_eq_ok hib
  obtain ⟨ls', hls', hsame⟩ := base_eq_ok hjb
  obtain ⟨hsaid, hlast⟩ := lines_append_inj hi.values hj.values hls hls' not_infix_last
    not_infix_last hsame
  have hdistinct : i.Distinct j := fun h => by rwa [hi.map_written, hj.map_written] at h
  exact hdistinct.agree hsaid hlast

end Input

theorem verify_eq_ok {P : Primitives} {pub sig : Bytes} {i : Input}
    (h : verify P pub i.components i.values i.params sig = some (.ok ())) :
    ∃ b, i.base = .ok b ∧ P.ed25519Verify pub b sig = true := by
  unfold verify at h
  split at h
  · cases h
  next b hb =>
    split_ifs at h with hpub hverify
    · exact ⟨b, hb, hverify⟩
    · cases h

/-- The holder of `priv`, whose public key is `pub`, signs no input but those `signed`, and nobody
else makes a signature that verifies: its octets are a base that `Sign` returned. -/
def Unforgeable (P : Primitives) (priv pub : Bytes) (signed : Input → Prop) : Prop :=
  ∀ m sig, P.ed25519Verify pub m sig = true →
    ∃ s sig', signed s ∧ sign P priv s.components s.values s.params = .ok (m, sig')

theorem base_of_sign {P : Primitives} {priv b sig : Bytes} {i : Input}
    (h : sign P priv i.components i.values i.params = .ok (b, sig)) : i.base = .ok b := by
  rw [sign] at h
  split at h
  · cases h
  · cases h
    assumption

/-- **When a signature base stands for one input.** Two inputs with the same base agree exactly if
it is broken into lines at the same places and no two of their texts are written the same, as
between clean inputs; and an input that is accepted has the base of one that was signed. -/
theorem signatureBase_exact (i : Input) :
    (∀ j b, i.base = .ok b → j.base = .ok b →
        (i.Agree j ↔ cuts i.values i.components = cuts j.values j.components ∧ i.Distinct j)
        ∧ (i.Clean → j.Clean → i.Agree j))
      ∧ ∀ (P : Primitives) (priv pub : Bytes) (signed : Input → Prop),
        Unforgeable P priv pub signed →
        ∀ sig, verify P pub i.components i.values i.params sig = some (.ok ()) →
          ∃ s, signed s
            ∧ (s.Agree i ↔ cuts s.values s.components = cuts i.values i.components ∧ s.Distinct i)
            ∧ (s.Clean → i.Clean → s.Agree i) := by
  refine ⟨fun j b hib hjb =>
    ⟨Input.agree_iff hib hjb, fun hi hj => Input.agree_of_clean hi hj hib hjb⟩, ?_⟩
  intro P priv pub signed hunforgeable sig hverify
  obtain ⟨b, hb, hsig⟩ := verify_eq_ok hverify
  obtain ⟨s, _, hs, hsign⟩ := hunforgeable b sig hsig
  have hsb := base_of_sign hsign
  exact ⟨s, hs, Input.agree_iff hsb hb, fun hclean hi => Input.agree_of_clean hclean hi hsb hb⟩

def spliced (a b : String) : Input where
  components := [ascii "a", ascii "b"]
  values := fun c => if c = ascii "a" then some (ascii a) else some (ascii b)
  params := ⟨0, 0, [], [], [], []⟩

/-- **A newline in a value moves text to another component**, and a signature over one request is
accepted for the other. -/
theorem verify_spliced : let i := spliced "x\n\"b\": y" "z"
    let j := spliced "x" "y\n\"b\": z"
    let pub := List.replicate 32 7
    (∃ b, i.base = .ok b ∧ j.base = .ok b
      ∧ verify plain pub j.components j.values j.params (plain.ed25519Sign pub b) = some (.ok ()))
      ∧ i.values (ascii "a") ≠ j.values (ascii "a")
      ∧ serializeParams ⟨0, 0, [0xFF], [], [], []⟩
        = serializeParams ⟨0, 0, [0xEF, 0xBF, 0xBD], [], [], []⟩ := by
  refine ⟨⟨ascii "\"a\": x\n\"b\": y\n\"b\": z\n\"@signature-params\": (\"a\" \"b\")", ?_⟩, ?_⟩
  · decide +kernel
  · decide +kernel

end Npamp.Gnap
