import Mathlib.Data.List.Basic

/-!
# Loops that accumulate

`collect` is a loop whose body adds items to a list and may fail; the first failure ends it.
-/

namespace Collect

variable {ε α β σ : Type}

def collect (body : α → Except ε (List β)) : List α → Except ε (List β)
  | [] => .ok []
  | a :: l =>
    match body a with
    | .error e => .error e
    | .ok items =>
      match collect body l with
      | .error e => .error e
      | .ok rest => .ok (items ++ rest)

variable {body : α → Except ε (List β)} {l : List α} {out : List β}

theorem collect_cons_eq_ok {a : α} (h : collect body (a :: l) = .ok out) :
    ∃ items rest, body a = .ok items ∧ collect body l = .ok rest ∧ out = items ++ rest := by
  rw [collect] at h
  split at h
  · cases h
  rename_i items hitems
  split at h
  · cases h
  · rename_i rest hrest
    cases h
    exact ⟨items, rest, hitems, hrest, rfl⟩

theorem mem_of_collect (h : collect body l = .ok out) (b : β) :
    b ∈ out ↔ ∃ a ∈ l, ∃ items, body a = .ok items ∧ b ∈ items := by
  induction l generalizing out with
  | nil =>
    cases h
    simp
  | cons a l ih =>
    obtain ⟨items, rest, hitems, hrest, rfl⟩ := collect_cons_eq_ok h
    rw [List.mem_append, ih hrest, List.exists_mem_cons_iff]
    refine or_congr_left ⟨fun hb => ⟨items, hitems, hb⟩, ?_⟩
    rintro ⟨items', hitems', hb⟩
    cases hitems.symm.trans hitems'
    exact hb

theorem exists_of_collect (h : collect body l = .ok out) {a : α} (ha : a ∈ l) :
    ∃ items, body a = .ok items := by
  induction l generalizing out with
  | nil => exact absurd ha List.not_mem_nil
  | cons b l ih =>
    obtain ⟨items, rest, hitems, hrest, -⟩ := collect_cons_eq_ok h
    rcases List.mem_cons.mp ha with rfl | ha
    · exact ⟨items, hitems⟩
    · exact ih hrest ha

theorem holds_foldl_iff (P : σ → Prop) (Q : α → Prop) {f : σ → α → σ}
    (hstep : ∀ s a, P (f s a) ↔ P s ∨ Q a) (l : List α) (s : σ) :
    P (l.foldl f s) ↔ P s ∨ ∃ a ∈ l, Q a := by
  induction l generalizing s with
  | nil => simp
  | cons a l ih => rw [List.foldl_cons, ih, hstep, or_assoc, List.exists_mem_cons_iff]

end Collect
