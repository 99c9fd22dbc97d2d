import Npamp.Lib.CborRules
import Mathlib.Data.List.Sort

/-!
# Orders of encoded map keys

Bytewise lexicographic, and shorter first. The orders coincide on keys that are scalars of one major
type.
-/

namespace Cbor

open BigEndian List UInt64

variable {major : UInt8}

def lexLess : List UInt8 → List UInt8 → Bool
  | [], [] => false
  | [], _ :: _ => true
  | _ :: _, [] => false
  | a :: as, b :: bs => if a ≠ b then a < b else lexLess as bs

def lengthFirstLess (a b : List UInt8) : Bool :=
  if a.length ≠ b.length then a.length < b.length else lexLess a b

theorem lengthFirstLess_of_length_eq {a b : List UInt8} (h : a.length = b.length) :
    lengthFirstLess a b = lexLess a b :=
  if_neg (not_not_intro h)

inductive Before : List UInt8 → List UInt8 → Prop
  | here {a b : UInt8} (h : a < b) (s t : List UInt8) : Before (a :: s) (b :: t)
  | there (a : UInt8) {s t : List UInt8} (h : Before s t) : Before (a :: s) (a :: t)

namespace Before

variable {s t : List UInt8}

theorem append (h : Before s t) (u v : List UInt8) : Before (s ++ u) (t ++ v) := by
  induction h with
  | here h s t => exact .here h (s ++ u) (t ++ v)
  | there a _ ih => exact .there a ih

theorem lexLess_eq_true (h : Before s t) : lexLess s t = true := by
  induction h with
  | here h s t =>
    rw [lexLess, if_pos (UInt8.ne_of_lt h)]
    exact decide_eq_true h
  | there a _ ih => rwa [lexLess, if_neg (not_not_intro rfl)]

theorem lexLess_eq_false (h : Before s t) : lexLess t s = false := by
  induction h with
  | here h s t =>
    rw [lexLess, if_pos (UInt8.ne_of_lt h).symm]
    exact decide_eq_false (UInt8.lt_asymm h)
  | there a _ ih => rwa [lexLess, if_neg (not_not_intro rfl)]

end Before

theorem before_toBytes {width left right : Nat} (hlt : left < right) (h : right < 256 ^ width) :
    Before (toBytes width left) (toBytes width right) := by
  induction width generalizing left right with
  | zero => exact absurd hlt (by rw [pow_zero] at h; omega)
  | succ width ih =>
    have hpow : 0 < 256 ^ width := Nat.pos_of_ne_zero (by simp)
    have hright : right / 256 ^ width < 256 :=
      Nat.div_lt_of_lt_mul (by rw [Nat.mul_comm, ← Nat.pow_succ']; exact h)
    have hle : left / 256 ^ width ≤ right / 256 ^ width := Nat.div_le_div_right hlt.le
    rw [toBytes, toBytes]
    rcases hle.lt_or_eq with hdigit | hdigit
    · refine .here ?_ _ _
      rw [UInt8.lt_iff_toNat_lt, UInt8.toNat_ofNat', UInt8.toNat_ofNat',
        Nat.mod_eq_of_lt hright, Nat.mod_eq_of_lt (hle.trans_lt hright)]
      exact hdigit
    · rw [hdigit]
      refine .there _ ?_
      have hl : left / 256 ^ width * 256 ^ width + left % 256 ^ width = left :=
        Nat.div_add_mod' left _
      have hr : right / 256 ^ width * 256 ^ width + right % 256 ^ width = right :=
        Nat.div_add_mod' right _
      rw [← hl, ← hr, toBytes_add_mul, toBytes_add_mul]
      refine ih ?_ (Nat.mod_lt _ hpow)
      rw [hdigit] at hl
      omega

def ai (arg : UInt64) : UInt8 :=
  if arg < 24 then arg.toUInt8
  else if arg.toNat < 2 ^ 8 then 24
  else if arg.toNat < 2 ^ 16 then 25
  else if arg.toNat < 2 ^ 32 then 26
  else 27

def width (arg : UInt64) : Nat :=
  if arg < 24 then 0
  else if arg.toNat < 2 ^ 8 then 1
  else if arg.toNat < 2 ^ 16 then 2
  else if arg.toNat < 2 ^ 32 then 4
  else 8

theorem head_eq (major : UInt8) (arg : UInt64) :
    head major arg = (major <<< 5 ||| ai arg) :: toBytes (width arg) arg.toNat := by
  unfold head ai width
  dsimp only
  split_ifs <;> rfl

theorem length_head (major : UInt8) (arg : UInt64) : (head major arg).length = width arg + 1 := by
  rw [head_eq, length_cons, length_toBytes]

theorem lt_pow_width {arg : UInt64} (h : ¬ arg < 24) : arg.toNat < 256 ^ width arg := by
  have hlt := arg.toNat_lt
  unfold width
  rw [if_neg h]
  split_ifs <;> omega

theorem initial_octet_lt {major left right : UInt8} (hmajor : major < 8) (hright : right < 32)
    (h : left < right) : major <<< 5 ||| left < major <<< 5 ||| right := by
  obtain ⟨hshift, hmask⟩ := major_ai_of_initial_octet hmajor (UInt8.lt_trans h hright)
  obtain ⟨hshift', hmask'⟩ := major_ai_of_initial_octet hmajor hright
  have hsplit (x : UInt8) : x.toNat = (x >>> 5).toNat * 32 + (x &&& 0x1f).toNat := by
    refine uint8_forall (p := fun x => x.toNat = (x >>> 5).toNat * 32 + (x &&& 0x1f).toNat) ?_ x
    decide +kernel
  have hnat := UInt8.lt_iff_toNat_lt.mp h
  rw [UInt8.lt_iff_toNat_lt, hsplit, hsplit (major <<< 5 ||| right), hshift, hshift', hmask, hmask']
  omega

theorem ai_of_lt {arg : UInt64} (h : arg < 24) : (ai arg).toNat = arg.toNat := by
  have hnat : arg.toNat < 24 := lt_iff_toNat_lt.mp h
  rw [ai, if_pos h, toNat_toUInt8]
  exact Nat.mod_eq_of_lt (by omega)

theorem WideForm.ai_width_eq {width' bound : Nat} {ai' : UInt8} (h : WideForm width' bound ai')
    {arg : UInt64} (hbound : bound ≤ arg.toNat) (hlt : arg.toNat < 256 ^ width') :
    ai arg = ai' ∧ width arg = width' ∧ ¬ arg < 24 := by
  have h24 : ¬ arg < 24 := by
    have hle : 24 ≤ bound := by cases h <;> decide
    rw [lt_iff_toNat_lt, Nat.not_lt]
    exact hle.trans hbound
  refine ⟨?_, ?_, h24⟩
  · cases h with
    | octet => rw [ai, if_neg h24, if_pos (by omega)]
    | double => rw [ai, if_neg h24, if_neg (by omega), if_pos (by omega)]
    | quad => rw [ai, if_neg h24, if_neg (by omega), if_neg (by omega), if_pos (by omega)]
    | octuple => rw [ai, if_neg h24, if_neg (by omega), if_neg (by omega), if_neg (by omega)]
  · cases h with
    | octet => rw [width, if_neg h24, if_pos (by omega)]
    | double => rw [width, if_neg h24, if_neg (by omega), if_pos (by omega)]
    | quad => rw [width, if_neg h24, if_neg (by omega), if_neg (by omega), if_pos (by omega)]
    | octuple => rw [width, if_neg h24, if_neg (by omega), if_neg (by omega), if_neg (by omega)]

theorem ai_lt_or_same_form {left right : UInt64} (h : left < right) :
    ai right < 32 ∧ width left ≤ width right
      ∧ (ai left < ai right ∨ ai left = ai right ∧ width left = width right ∧ ¬ right < 24) := by
  have hlt : left.toNat < right.toNat := lt_iff_toNat_lt.mp h
  rcases lt_or_exists_wideForm right with hright | ⟨w, bound, a, hform, hb, hl⟩
  · have hleft : left < 24 := UInt64.lt_trans h hright
    have hnat : right.toNat < 24 := lt_iff_toNat_lt.mp hright
    have hwidth {x : UInt64} (hx : x < 24) : width x = 0 := if_pos hx
    refine ⟨?_, (hwidth hleft).trans_le (Nat.zero_le _), .inl ?_⟩
    · rw [UInt8.lt_iff_toNat_lt, ai_of_lt hright]
      exact hnat.trans (by decide)
    · rw [UInt8.lt_iff_toNat_lt, ai_of_lt hleft, ai_of_lt hright]
      exact hlt
  · obtain ⟨hai, hwidth, hright⟩ := hform.ai_width_eq hb hl
    rw [hai, hwidth]
    refine ⟨hform.ai_lt, ?_⟩
    rcases lt_or_exists_wideForm left with hleft | ⟨w', bound', a', hform', hb', hl'⟩
    · refine ⟨(if_pos hleft).trans_le (Nat.zero_le _), .inl ?_⟩
      have h24 : left.toNat < 24 := lt_iff_toNat_lt.mp hleft
      have ha : 24 ≤ a.toNat := by cases hform <;> decide
      rw [UInt8.lt_iff_toNat_lt, ai_of_lt hleft]
      omega
    · obtain ⟨hai', hwidth', -⟩ := hform'.ai_width_eq hb' hl'
      rw [hai', hwidth']
      -- a wider form on the left would put `left` above `right`
      cases hform <;> cases hform' <;> first
        | exact ⟨Nat.le_refl _, .inr ⟨rfl, rfl, hright⟩⟩
        | exact ⟨by decide, .inl (by decide)⟩
        | omega

theorem before_head (hmajor : major < 8) {left right : UInt64} (h : left < right) :
    Before (head major left) (head major right) := by
  obtain ⟨h32, -, hai | ⟨hai, hwidth, hwide⟩⟩ := ai_lt_or_same_form h
  · rw [head_eq, head_eq]
    exact .here (initial_octet_lt hmajor h32 hai) _ _
  · rw [head_eq, head_eq, hai, hwidth]
    exact .there _ (before_toBytes (lt_iff_toNat_lt.mp h) (lt_pow_width hwide))

theorem lexLess_self (a : List UInt8) : lexLess a a = false := by
  induction a with
  | nil => rfl
  | cons x a ih => rwa [lexLess, if_neg (not_not_intro rfl)]

/-- **Encoded arguments are in the order of the arguments.** -/
theorem lexLess_head (hmajor : major < 8) (left right : UInt64) :
    lexLess (head major left) (head major right) = decide (left < right) := by
  rcases lt_trichotomy left.toNat right.toNat with h | h | h
  · have hlt : left < right := lt_iff_toNat_lt.mpr h
    rw [(before_head hmajor hlt).lexLess_eq_true, decide_eq_true hlt]
  · obtain rfl := UInt64.toNat_inj.mp h
    rw [lexLess_self, decide_eq_false (UInt64.lt_irrefl _)]
  · have hlt : right < left := lt_iff_toNat_lt.mpr h
    rw [(before_head hmajor hlt).lexLess_eq_false, decide_eq_false (UInt64.lt_asymm hlt)]

section Sorting

variable {ι : Type} (key : ι → UInt64)

abbrev KeyLE (a b : ι) : Prop := lexLess (head 0 (key b)) (head 0 (key a)) = false

theorem keyLE_iff {a b : ι} : KeyLE key a b ↔ key a ≤ key b := by
  rw [KeyLE, lexLess_head (by decide), decide_eq_false_iff_not, UInt64.not_lt]

instance : Std.Total (KeyLE key) where
  total a b := by
    rw [keyLE_iff, keyLE_iff]
    exact UInt64.le_total _ _

instance : IsTrans ι (KeyLE key) where
  trans a b c hab hbc := by
    rw [keyLE_iff] at *
    exact UInt64.le_trans hab hbc

theorem pairwise_insertionSort_keyLE {l : List ι} (hkeys : (l.map key).Nodup) :
    (l.insertionSort (KeyLE key)).Pairwise fun a b => key a < key b := by
  have hperm : ((l.insertionSort (KeyLE key)).map key).Perm (l.map key) :=
    (perm_insertionSort _ _).map _
  have hne : (l.insertionSort (KeyLE key)).Pairwise fun a b => key a ≠ key b :=
    pairwise_map.mp (hperm.nodup_iff.mpr hkeys)
  have hle : (l.insertionSort (KeyLE key)).Pairwise (KeyLE key) := pairwise_insertionSort _ _
  refine (hle.and hne).imp ?_
  rintro a b ⟨hab, hkey⟩
  rw [keyLE_iff] at hab
  exact UInt64.lt_of_le_of_ne hab hkey

end Sorting

def majorOf (octets : List UInt8) : Option UInt8 := octets.head?.map fun (ib : UInt8) => ib >>> 5

theorem majorOf_head (hmajor : major < 8) (arg : UInt64) (rest : List UInt8) :
    majorOf (head major arg ++ rest) = some major := by
  obtain ⟨ib, tail, hhead, hib, -⟩ := readArg_head hmajor arg
  rw [hhead, cons_append, majorOf, head?_cons, Option.map_some, hib]

def IsScalar (major : UInt8) (octets : List UInt8) : Prop :=
  ∃ arg payload, octets = head major arg ++ payload
    ∧ payload.length = if major ≤ 1 then 0 else arg.toNat

/-- **Scalars of one major type are in the same order** by either rule. -/
theorem lengthFirstLess_eq_lexLess (hmajor : major < 8) {a b : List UInt8}
    (ha : IsScalar major a) (hb : IsScalar major b) : lengthFirstLess a b = lexLess a b := by
  obtain ⟨left, p, rfl, hp⟩ := ha
  obtain ⟨right, q, rfl, hq⟩ := hb
  have hlen (x y : UInt64) (s t : List UInt8) (h : x < y)
      (hs : s.length = if major ≤ 1 then 0 else x.toNat)
      (ht : t.length = if major ≤ 1 then 0 else y.toNat) :
      (head major x ++ s).length ≤ (head major y ++ t).length := by
    have hwidth := (ai_lt_or_same_form h).2.1
    have hlt := lt_iff_toNat_lt.mp h
    rw [length_append, length_append, length_head, length_head, hs, ht]
    split <;> omega
  unfold lengthFirstLess
  by_cases heq : (head major left ++ p).length = (head major right ++ q).length
  · exact if_neg (not_not_intro heq)
  rw [if_pos heq]
  rcases lt_trichotomy left.toNat right.toNat with h | h | h
  · have hlt : left < right := lt_iff_toNat_lt.mpr h
    rw [((before_head hmajor hlt).append p q).lexLess_eq_true]
    exact decide_eq_true (lt_of_le_of_ne (hlen _ _ _ _ hlt hp hq) heq)
  · have heq' : left = right := UInt64.toNat_inj.mp h
    subst heq'
    exact absurd (by rw [length_append, length_append, hp, hq]) heq
  · have hlt : right < left := lt_iff_toNat_lt.mpr h
    rw [((before_head hmajor hlt).append q p).lexLess_eq_false]
    exact decide_eq_false (Nat.not_lt.mpr (hlen _ _ _ _ hlt hq hp))

theorem isScalar_head (arg : UInt64) : IsScalar 0 (head 0 arg) :=
  ⟨arg, [], (append_nil _).symm, rfl⟩

variable {ε α : Type}

namespace Dialect

variable {D : Dialect ε α}

def IsItem (D : Dialect ε α) (octets : List UInt8) : Prop :=
  ∃ levels b v n, D.decode levels b = .ok (v, n) ∧ octets = b.take n

theorem isScalar_of_isItem {octets : List UInt8} (h : D.IsItem octets)
    (hmajor : majorOf octets = some major) (hscalar : major ≤ 3) : IsScalar major octets := by
  obtain ⟨levels, b, v, n, hdecode, rfl⟩ := h
  have hreads : D.Reads (fun _ => True) levels (b.take n) v :=
    (reads_of_decode levels b v n (fun _ _ => trivial) hdecode).2
  generalize b.take n = octets at hreads hmajor
  -- the header tells the major type
  have hhead {m : UInt8} (hm : m < 8) (arg : UInt64) (payload : List UInt8)
      (hocts : octets = head m arg ++ payload) : m = major :=
    Option.some.inj ((majorOf_head hm arg payload).symm.trans (hocts ▸ hmajor))
  cases hreads with
  | uint _ arg =>
    obtain rfl := hhead (m := 0) (by decide) arg [] (append_nil _).symm
    exact ⟨arg, [], (append_nil _).symm, rfl⟩
  | @nint _ arg _ _ =>
    obtain rfl := hhead (m := 1) (by decide) arg [] (append_nil _).symm
    exact ⟨arg, [], (append_nil _).symm, rfl⟩
  | @bytes _ p hlength =>
    obtain rfl := hhead (m := 2) (by decide) _ _ rfl
    exact ⟨_, p, rfl, (toNat_ofNat_length hlength).symm⟩
  | @text _ p _ hlength _ _ =>
    obtain rfl := hhead (m := 3) (by decide) _ _ rfl
    exact ⟨_, p, rfl, (toNat_ofNat_length hlength).symm⟩
  | array _ _ =>
    obtain rfl := hhead (m := 4) (by decide) _ _ rfl
    exact absurd hscalar (by decide)
  | map _ _ _ _ =>
    obtain rfl := hhead (m := 5) (by decide) _ _ rfl
    exact absurd hscalar (by decide)
  | bool _ x =>
    obtain rfl : 7 = major := by cases x <;> exact Option.some.inj hmajor
    exact absurd hscalar (by decide)
  | null _ =>
    obtain rfl : 7 = major := Option.some.inj hmajor
    exact absurd hscalar (by decide)

def KeyIsItem (D : Dialect ε α) : Visit → Prop
  | .key prev octets => D.IsItem octets ∧ ∀ p ∈ prev, D.IsItem p
  | _ => True

theorem keyIsItem_visitItems {decode : List UInt8 → Except ε (α × Nat)}
    {visits : List UInt8 → List Visit} (hvisits : ∀ b, ∀ x ∈ visits b, D.KeyIsItem x)
    (count : Nat) (b : List UInt8) : ∀ x ∈ visitItems decode visits count b, D.KeyIsItem x := by
  induction count generalizing b with
  | zero => intro x hx; cases hx
  | succ count ih =>
    intro x hx
    rw [visitItems] at hx
    rcases mem_append.mp hx with hx | hx
    · exact hvisits b x hx
    · split at hx
      · cases hx
      · exact ih _ x hx

theorem keyIsItem_visitEntries {decode : List UInt8 → Except ε (α × Nat)}
    {visits : List UInt8 → List Visit} (hvisits : ∀ b, ∀ x ∈ visits b, D.KeyIsItem x)
    (hitem : ∀ b v n, decode b = .ok (v, n) → D.IsItem (b.take n)) (count : Nat)
    {prev : Option (List UInt8)} (hprev : ∀ p ∈ prev, D.IsItem p) (b : List UInt8) :
    ∀ x ∈ D.visitEntries decode visits count prev b, D.KeyIsItem x := by
  induction count generalizing prev b with
  | zero => intro x hx; cases hx
  | succ count ih =>
    intro x hx
    rw [visitEntries] at hx
    rcases mem_append.mp hx with hx | hx
    · exact hvisits b x hx
    split at hx
    · cases hx
    rename_i k kn hkey
    have hk := hitem b k kn hkey
    rcases mem_cons.mp hx with rfl | hx
    · exact ⟨hk, hprev⟩
    split at hx
    · cases hx
    rcases mem_append.mp hx with hx | hx
    · exact hvisits _ x hx
    split at hx
    · cases hx
    · refine ih ?_ _ x hx
      rintro p ⟨⟩
      exact hk

/-- **Every key read, and the one before it, is an item** the decoder accepted. -/
theorem keyIsItem_visits (levels : Nat) : ∀ b, ∀ x ∈ D.visits levels b, D.KeyIsItem x := by
  induction levels with
  | zero => intro b x hx; cases hx
  | succ levels ih =>
    intro b x hx
    cases b with
    | nil => cases hx
    | cons ib tail =>
      rw [visits] at hx
      split at hx
      · cases hx
      split at hx
      · cases hx
      unfold visitBody at hx
      split at hx
      · obtain rfl := mem_singleton.mp hx
        trivial
      split at hx
      · split at hx
        · cases hx
        · obtain rfl := mem_singleton.mp hx
          trivial
      split at hx
      · split at hx
        · cases hx
        · exact keyIsItem_visitItems ih _ _ x hx
      split at hx
      · split at hx
        · cases hx
        refine keyIsItem_visitEntries ih ?_ _ ?_ _ x hx
        · intro b v n h
          exact ⟨levels, b, v, n, h, rfl⟩
        · rintro p ⟨⟩
      · cases hx

end Dialect

end Cbor
