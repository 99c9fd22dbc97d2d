import Mathlib.Logic.Basic

/-!
# Runs of a labelled transition system

A system is a partial step function. `Reaches` collects the states of all runs whose steps meet a
condition on the state before the step and the label.
-/

namespace Run

universe u v

variable {S : Type u} {L : Type v} {step : S → L → Option S} {ok ok' : S → L → Prop}
  {start s s' : S}

/-- The states reached from `start` by steps that all meet `ok`. -/
inductive Reaches (step : S → L → Option S) (ok : S → L → Prop) (start : S) : S → Prop
  | start : Reaches step ok start start
  | next {s s' : S} {l : L} (before : Reaches step ok start s) (hok : ok s l)
      (hstep : step s l = some s') : Reaches step ok start s'

theorem Reaches.invariant {Inv : S → Prop} (hreach : Reaches step ok start s) (hstart : Inv start)
    (hstep : ∀ s l s', Inv s → ok s l → step s l = some s' → Inv s') : Inv s := by
  induction hreach with
  | start => exact hstart
  | next _ hok hs ih => exact hstep _ _ _ ih hok hs

theorem Reaches.mono (hreach : Reaches step ok start s) (h : ∀ s l, ok s l → ok' s l) :
    Reaches step ok' start s := by
  induction hreach with
  | start => exact .start
  | next _ hok hs ih => exact .next ih (h _ _ hok) hs

theorem Reaches.trans {middle : S} (hfirst : Reaches step ok start middle)
    (hsecond : Reaches step ok middle s) : Reaches step ok start s := by
  induction hsecond with
  | start => exact hfirst
  | next _ hok hs ih => exact .next ih hok hs

def exec (step : S → L → Option S) (ok : S → L → Bool) : S → List L → Option S
  | s, [] => some s
  | s, l :: ls =>
    if ok s l then
      match step s l with
      | none => none
      | some s' => exec step ok s' ls
    else none

theorem Reaches.of_exec {ok : S → L → Bool} {ls : List L} (hexec : exec step ok start ls = some s) :
    Reaches step (fun s l => ok s l = true) start s := by
  induction ls generalizing start with
  | nil =>
    cases hexec
    exact .start
  | cons l ls ih =>
    rw [exec] at hexec
    split at hexec
    · rename_i hok
      split at hexec
      · cases hexec
      rename_i middle hmiddle
      have hfirst : Reaches step (fun s l => ok s l = true) start middle :=
        .next .start hok hmiddle
      exact hfirst.trans (ih hexec)
    · cases hexec

theorem exists_reaches [∀ s l, Decidable (ok s l)] {p : S → Prop} [DecidablePred p] (ls : List L)
    (h : (exec step (fun s l => ok s l) start ls).any (p ·) = true) :
    ∃ s, Reaches step ok start s ∧ p s := by
  obtain ⟨s, hexec, hp⟩ := (Option.any_eq_true _ _).mp h
  exact ⟨s, (Reaches.of_exec hexec).mono fun _ _ => of_decide_eq_true, of_decide_eq_true hp⟩

end Run
