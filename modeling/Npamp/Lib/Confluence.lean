import Npamp.Lib.Run

/-!
# Systems whose steps commute

Where two steps of different labels can be taken in either order: if one run ends, every run ends,
in the same state and after as many steps.
-/

namespace Run

universe u v

variable {S : Type u} {L : Type v} {step : S → L → Option S} {s s' final : S} {m n : Nat}

def Commutes (step : S → L → Option S) : Prop :=
  ∀ s a b l m, l ≠ m → step s l = some a → step s m = some b →
    ∃ c, step a m = some c ∧ step b l = some c

inductive Steps (step : S → L → Option S) : Nat → S → S → Prop
  | nil (s : S) : Steps step 0 s s
  | cons {n : Nat} {s s' s'' : S} (l : L) (hstep : step s l = some s') (rest : Steps step n s' s'') :
      Steps step (n + 1) s s''

theorem Steps.trans {s'' : S} (h : Steps step m s s') (h' : Steps step n s' s'') :
    Steps step (m + n) s s'' := by
  induction h with
  | nil => rwa [Nat.zero_add]
  | cons l hstep _ ih =>
    rw [Nat.add_right_comm]
    exact .cons l hstep (ih h')

def Stuck (step : S → L → Option S) (s : S) : Prop := ∀ l, step s l = none

theorem Steps.after (hcomm : Commutes step) (hstuck : Stuck step final)
    (h : Steps step n s final) {l : L} (hstep : step s l = some s') :
    ∃ k, n = k + 1 ∧ Steps step k s' final := by
  induction h generalizing s' with
  | nil s =>
    rw [hstuck l] at hstep
    cases hstep
  | @cons n s b final l' hfirst rest ih =>
    by_cases hl : l = l'
    · subst hl
      obtain rfl : b = s' := Option.some.inj (hfirst.symm.trans hstep)
      exact ⟨n, rfl, rest⟩
    · obtain ⟨c, hc, hc'⟩ := hcomm s s' b l l' hl hstep hfirst
      obtain ⟨k, rfl, hrest⟩ := ih hstuck hc'
      exact ⟨k + 1, rfl, .cons l' hc hrest⟩

/-- Every run from `s` has at most `n` steps and can be continued to `final`, for some `n`. -/
def Settles (step : S → L → Option S) (s final : S) : Prop :=
  ∃ n, ∀ m s', Steps step m s s' → ∃ k, m + k = n ∧ Steps step k s' final

/-- **One run that ends decides them all.** -/
theorem Steps.settles (hcomm : Commutes step) (hstuck : Stuck step final)
    (h : Steps step n s final) : Settles step s final := by
  refine ⟨n, fun m s' hrun => ?_⟩
  induction hrun generalizing n with
  | nil s => exact ⟨n, Nat.zero_add n, h⟩
  | cons l hstep _ ih =>
    obtain ⟨k, rfl, hrest⟩ := h.after hcomm hstuck hstep
    obtain ⟨j, hj, hend⟩ := ih hrest
    exact ⟨j, by omega, hend⟩

end Run
