import Mathlib.Data.Option.Basic

/-!
# Runs with injected steps

A run with inert steps injected ends in a state related to the end of the run without them, and gets
stuck only if that run does.
-/

namespace Run

universe u v w

variable {S T : Type u} {L : Type v} {J : Type w}

def withInjected (step : S → L → Option S) (inject : S → J → Option S) (s : S) : L ⊕ J → Option S
  | .inl l => step s l
  | .inr j => inject s j

def inertAlong (step : S → L → Option S) (inject : S → J → Option S) (inert : S → J → Bool) :
    S → List (L ⊕ J) → Bool
  | _, [] => true
  | s, .inl l :: rest =>
    match step s l with
    | none => true
    | some s' => inertAlong step inject inert s' rest
  | s, .inr j :: rest =>
    inert s j &&
      match inject s j with
      | none => true
      | some s' => inertAlong step inject inert s' rest

variable {step : S → L → Option S} {stepT : T → L → Option T} {inject : S → J → Option S}
  {inert : S → J → Bool} {R : List J → S → T → Prop}

/-- **Inert steps can be erased.** -/
theorem rel_foldlM_of_inert
    (hstep : ∀ js s t l, R js s t → Option.Rel (R js) (step s l) (stepT t l))
    (hinject : ∀ js s t j, R js s t → inert s j = true →
      ∃ s', inject s j = some s' ∧ R (js ++ [j]) s' t)
    {js : List J} {s : S} {t : T} (hR : R js s t) {ls : List (L ⊕ J)}
    (hinert : inertAlong step inject inert s ls = true) :
    Option.Rel (R (js ++ ls.filterMap Sum.getRight?)) (ls.foldlM (withInjected step inject) s)
      ((ls.filterMap Sum.getLeft?).foldlM stepT t) := by
  induction ls generalizing js s t with
  | nil =>
    rw [List.filterMap_nil, List.append_nil]
    exact .some hR
  | cons label rest ih =>
    cases label with
    | inl l =>
      have hrel := hstep js s t l hR
      rw [inertAlong] at hinert
      change Option.Rel _ ((step s l).bind _) ((stepT t l).bind _)
      generalize step s l = s' at hrel hinert ⊢
      generalize stepT t l = t' at hrel ⊢
      cases hrel with
      | none => exact .none
      | some hR' => exact ih hR' hinert
    | inr j =>
      rw [inertAlong, Bool.and_eq_true] at hinert
      obtain ⟨s', hs', hR'⟩ := hinject js s t j hR hinert.1
      rw [hs'] at hinert
      change Option.Rel (R (js ++ j :: rest.filterMap Sum.getRight?)) ((inject s j).bind _) _
      rw [hs', List.append_cons]
      exact ih hR' hinert.2

end Run
