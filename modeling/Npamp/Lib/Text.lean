import Mathlib.Data.List.Infix

/-!
# Delimited text

Parts of a text that say where they end: up to a separator, a decimal numeral, a quoted string.
-/

namespace Text

open List

variable {α : Type} {x y : α} {a b r r' : List α}

theorem append_cons_inj (ha : x ∉ a) (hb : x ∉ b) (h : a ++ x :: r = b ++ x :: r') :
    a = b ∧ r = r' := by
  induction a generalizing b with
  | nil =>
    cases b with
    | nil => exact ⟨rfl, (cons.inj h).2⟩
    | cons c b => exact absurd (cons.inj h).1 fun heq => hb (heq ▸ mem_cons_self)
  | cons c a ih =>
    cases b with
    | nil => exact absurd (cons.inj h).1 fun heq => ha (heq ▸ mem_cons_self)
    | cons d b =>
      obtain ⟨rfl, htail⟩ := cons.inj h
      obtain ⟨rfl, hr⟩ := ih (fun hx => ha (mem_cons_of_mem _ hx))
        (fun hx => hb (mem_cons_of_mem _ hx)) htail
      exact ⟨rfl, hr⟩

theorem append_inj_of_head (ha : x ∉ a) (hb : x ∉ b) (hr : ∀ c ∈ r.head?, c = x)
    (hr' : ∀ c ∈ r'.head?, c = x) (h : a ++ r = b ++ r') : a = b ∧ r = r' := by
  have hends : ∀ {s}, (∀ c ∈ s.head?, c = x) → s = [] ∨ ∃ t, s = x :: t := by
    intro s hs
    cases s with
    | nil => exact .inl rfl
    | cons c s => exact .inr ⟨s, by rw [hs c rfl]⟩
  rcases hends hr with rfl | ⟨r, rfl⟩ <;> rcases hends hr' with rfl | ⟨r', rfl⟩
  · exact ⟨by simpa using h, rfl⟩
  · rw [append_nil] at h
    exact absurd (h ▸ mem_append_right b mem_cons_self) ha
  · rw [append_nil] at h
    exact absurd (h ▸ mem_append_right a mem_cons_self) hb
  · obtain ⟨rfl, rfl⟩ := append_cons_inj ha hb h
    exact ⟨rfl, rfl⟩

theorem flatMap_cons_eq {xs : List (List α)} (h : xs ≠ []) :
    xs.flatMap (x :: ·) = x :: [x].intercalate xs := by
  induction xs with
  | nil => exact absurd rfl h
  | cons a xs ih =>
    cases xs with
    | nil => simp [intercalate]
    | cons b xs =>
      rw [flatMap_cons, ih (cons_ne_nil _ _)]
      simp [intercalate]

theorem infix_of_append {p : List α} (ha : x ∉ a) (h : x :: p <:+: a ++ r) : x :: p <:+: r := by
  induction a with
  | nil => exact h
  | cons c a ih =>
    refine ih (fun hx => ha (mem_cons_of_mem _ hx))
      ((infix_cons_iff.mp h).resolve_left fun hstart => ?_)
    exact ha ((cons_prefix_cons.mp hstart).1 ▸ mem_cons_self)

def decimal (n : Nat) : List UInt8 := (Nat.toDigits 10 n).map fun c => UInt8.ofNat c.toNat

def integer (n : Int) : List UInt8 :=
  if n < 0 then 0x2D :: decimal n.natAbs else decimal n.natAbs

theorem digit_of_mem {c : Char} {n : Nat} (h : c ∈ Nat.toDigits 10 n) :
    48 ≤ c.toNat ∧ c.toNat ≤ 57 := by
  have hdigit := Nat.isDigit_of_mem_toDigits (by decide) (by decide) h
  simp only [Char.isDigit, Bool.and_eq_true, decide_eq_true_eq, ge_iff_le,
    UInt32.le_iff_toNat_le] at hdigit
  exact hdigit

theorem digit_of_mem_decimal {n : Nat} {o : UInt8} (h : o ∈ decimal n) : 0x30 ≤ o ∧ o ≤ 0x39 := by
  obtain ⟨c, hc, rfl⟩ := mem_map.mp h
  obtain ⟨hlow, hhigh⟩ := digit_of_mem hc
  simp only [UInt8.le_iff_toNat_le, UInt8.toNat_ofNat']
  rw [Nat.mod_eq_of_lt (by omega)]
  exact ⟨hlow, hhigh⟩

theorem map_decimal (n : Nat) :
    (decimal n).map (fun o => Char.ofNat o.toNat) = Nat.toDigits 10 n := by
  rw [decimal, map_map]
  refine (map_congr_left fun c hc => ?_).trans (map_id _)
  have hlt : c.toNat < 256 := Nat.lt_of_le_of_lt (digit_of_mem hc).2 (by decide)
  rw [Function.comp_apply, UInt8.toNat_ofNat', Nat.mod_eq_of_lt hlt, Char.ofNat_toNat, id]

theorem decimal_injective {m n : Nat} (h : decimal m = decimal n) : m = n :=
  calc m = Nat.ofDigitChars 10 (Nat.toDigits 10 m) 0 := Nat.ofDigitChars_ten_toDigits.symm
    _ = Nat.ofDigitChars 10 (Nat.toDigits 10 n) 0 := by rw [← map_decimal, h, map_decimal]
    _ = n := Nat.ofDigitChars_ten_toDigits

theorem minus_or_digit_of_mem_integer {n : Int} {o : UInt8} (h : o ∈ integer n) :
    o = 0x2D ∨ 0x30 ≤ o ∧ o ≤ 0x39 := by
  unfold integer at h
  split_ifs at h
  · exact (mem_cons.mp h).imp_right digit_of_mem_decimal
  · exact .inr (digit_of_mem_decimal h)

theorem integer_injective {m n : Int} (h : integer m = integer n) : m = n := by
  have hminus : ∀ k, (0x2D : UInt8) ∉ decimal k := fun k hk =>
    absurd (digit_of_mem_decimal hk) (by decide)
  unfold integer at h
  split at h <;> split at h
  · have := decimal_injective (cons.inj h).2
    omega
  · exact absurd (h ▸ mem_cons_self) (hminus _)
  · exact absurd (h.symm ▸ mem_cons_self) (hminus _)
  · have := decimal_injective h
    omega

def escaped (o : UInt8) : List UInt8 := if o = 0x5C ∨ o = 0x22 then [0x5C, o] else [o]

def quoted (s : List UInt8) : List UInt8 := 0x22 :: (s.flatMap escaped ++ [0x22])

theorem escaped_append_inj {o p : UInt8} {r r' : List UInt8}
    (h : escaped o ++ r = escaped p ++ r') : o = p ∧ r = r' := by
  unfold escaped at h
  split_ifs at h with ho hp hp <;> simp only [cons_append, nil_append] at h
  · simpa using h
  · exact absurd (.inl (cons.inj h).1.symm) hp
  · exact absurd (.inl (cons.inj h).1) ho
  · exact cons.inj h

theorem escaped_append_ne (o : UInt8) (r r' : List UInt8) : escaped o ++ r ≠ 0x22 :: r' := by
  intro h
  unfold escaped at h
  split_ifs at h with ho
  · exact absurd (cons.inj h).1 (by decide)
  · exact ho (.inr (cons.inj h).1)

/-- A quoted string ends at its own closing quote. -/
theorem quoted_append_inj {s t r r' : List UInt8} (h : quoted s ++ r = quoted t ++ r') :
    s = t ∧ r = r' := by
  rw [quoted, quoted, cons_append, cons_append, append_assoc, append_assoc]
    at h
  replace h := (cons.inj h).2
  induction s generalizing t with
  | nil =>
    cases t with
    | nil => exact ⟨rfl, (cons.inj h).2⟩
    | cons p t =>
      rw [flatMap_cons, append_assoc] at h
      exact absurd h.symm (escaped_append_ne p _ _)
  | cons o s ih =>
    rw [flatMap_cons, append_assoc] at h
    cases t with
    | nil => exact absurd h (escaped_append_ne o _ _)
    | cons p t =>
      rw [flatMap_cons, append_assoc] at h
      obtain ⟨rfl, htail⟩ := escaped_append_inj h
      obtain ⟨rfl, hr⟩ := ih htail
      exact ⟨rfl, hr⟩

theorem head_of_closing {y : UInt8} {s r : List UInt8}
    (h : [0x22, y] <+: s.flatMap escaped ++ ([0x22] ++ r)) : r.head? = some y := by
  obtain ⟨t, ht⟩ := h
  cases s with
  | nil => exact congrArg head? (cons.inj ht).2.symm
  | cons o s =>
    rw [flatMap_cons, append_assoc] at ht
    exact absurd ht.symm (escaped_append_ne o _ _)

/-- Inside a quoted string a quote follows a backslash, so `x`, quote, `y` begins behind it. -/
theorem infix_of_quoted_append {x y : UInt8} {s r : List UInt8} (hx : x ≠ 0x5C) (hq : x ≠ 0x22)
    (hr : r.head? ≠ some y) (h : [x, 0x22, y] <:+: quoted s ++ r) : [x, 0x22, y] <:+: r := by
  rw [quoted, cons_append, append_assoc] at h
  replace h := (infix_cons_iff.mp h).resolve_left fun hstart =>
    hq (cons_prefix_cons.mp hstart).1
  induction s with
  | nil =>
    exact (infix_cons_iff.mp h).resolve_left fun hstart => hq (cons_prefix_cons.mp hstart).1
  | cons o s ih =>
    rw [flatMap_cons, append_assoc] at h
    refine ih ?_
    unfold escaped at h
    split_ifs at h with ho
    · replace h := (infix_cons_iff.mp h).resolve_left fun hstart =>
        hx (cons_prefix_cons.mp hstart).1
      refine (infix_cons_iff.mp h).resolve_left fun hstart => ?_
      exact ho.elim (fun hslash => hx ((cons_prefix_cons.mp hstart).1.trans hslash))
        fun hquote => hq ((cons_prefix_cons.mp hstart).1.trans hquote)
    · refine (infix_cons_iff.mp h).resolve_left fun hstart => ?_
      exact hr (head_of_closing (cons_prefix_cons.mp hstart).2)

end Text
