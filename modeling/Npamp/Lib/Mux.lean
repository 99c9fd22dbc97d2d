import Mathlib.Data.List.Basic

/-!
# Many streams over one FIFO

A sender puts signals on a FIFO: a stream starts, carries items, ends. `Carries` is what holds of
the signals under way at every moment.
-/

namespace Mux

open List

variable {κ β : Type} [DecidableEq κ]

inductive Signal (κ β : Type) where
  | opened (k : κ)
  | data (k : κ) (items : List β)
  | closed (k : κ)

def Signal.key : Signal κ β → κ
  | opened k => k
  | data k _ => k
  | closed k => k

def receive (k : κ) (state : Bool × List β) : Signal κ β → Bool × List β
  | .opened j => if j = k then (true, state.2) else state
  | .data j items => if j = k ∧ state.1 = true then (true, state.2 ++ items) else state
  | .closed j => if j = k then (false, state.2) else state

theorem receive_of_ne {k : κ} {s : Signal κ β} (h : s.key ≠ k) (state : Bool × List β) :
    receive k state s = state := by
  cases s with
  | opened j => exact if_neg h
  | data j items => exact if_neg fun hj => h hj.1
  | closed j => exact if_neg h

theorem prefix_receive (k : κ) (state : Bool × List β) (s : Signal κ β) :
    state.2 <+: (receive k state s).2 := by
  cases s with
  | data j items =>
    rw [receive]
    split
    · exact prefix_append _ _
    · exact prefix_rfl
  | _ =>
    rw [receive]
    split <;> exact prefix_rfl

theorem foldl_receive_of_ne {k : κ} {signals : List (Signal κ β)}
    (h : ∀ s ∈ signals, s.key ≠ k) (state : Bool × List β) :
    signals.foldl (receive k) state = state := by
  induction signals with
  | nil => rfl
  | cons s signals ih =>
    rw [foldl_cons, receive_of_ne (h s mem_cons_self)]
    exact ih fun s hs => h s (mem_cons_of_mem _ hs)

theorem prefix_foldl_receive (k : κ) (signals : List (Signal κ β)) (state : Bool × List β) :
    state.2 <+: (signals.foldl (receive k) state).2 := by
  induction signals generalizing state with
  | nil => exact prefix_rfl
  | cons s signals ih => exact (prefix_receive k state s).trans (ih _)

structure Sound (written : List β) (state : Bool × List β) : Prop where
  isPrefix : state.2 <+: written
  complete (hlive : state.1 = true) : state.2 = written

/-- The streams written, those that are live with what they were given, and the signals between. -/
def Carries (written : κ → List β) (live : κ → Bool) (given : κ → List β)
    (signals : List (Signal κ β)) : Prop :=
  ∀ k, Sound (written k) (signals.foldl (receive k) (live k, given k))

section Rules

variable {written written' : κ → List β} {live live' : κ → Bool} {given given' : κ → List β}
  {signals : List (Signal κ β)} {s : Signal κ β} {j : κ}

theorem carries_nil : Carries (fun _ => []) (fun _ => false) (fun _ => []) ([] : List (Signal κ β)) :=
  fun _ => ⟨prefix_rfl, fun _ => rfl⟩

namespace Carries

theorem isPrefix (h : Carries written live given signals) (k : κ) : given k <+: written k :=
  (prefix_foldl_receive k signals (live k, given k)).trans (h k).isPrefix

theorem next (h : Carries written live given (s :: signals))
    (hnext : ∀ k, (live' k, given' k) = receive k (live k, given k) s) :
    Carries written live' given' signals := by
  intro k
  rw [hnext]
  exact h k

theorem start (h : Carries written live given signals) (hwritten : written j = [])
    (hsignals : ∀ s ∈ signals, s.key ≠ j) :
    Carries written (Function.update live j true) given signals := by
  intro k
  by_cases hk : k = j
  · subst hk
    have hgiven : given k = [] := prefix_nil.mp (hwritten ▸ h.isPrefix k)
    rw [foldl_receive_of_ne hsignals, Function.update_self, hgiven, hwritten]
    exact ⟨prefix_rfl, fun _ => rfl⟩
  · rw [Function.update_of_ne hk]
    exact h k

theorem stop (h : Carries written live given []) : Carries written (fun _ => false) given [] :=
  fun k => ⟨h.isPrefix k, fun hlive => Bool.noConfusion hlive⟩

theorem put_opened (h : Carries written live given signals) (hwritten : written j = []) :
    Carries written live given (signals ++ [.opened j]) := by
  intro k
  rw [foldl_append, foldl_cons, foldl_nil]
  by_cases hk : j = k
  · subst hk
    have hempty := prefix_nil.mp (hwritten ▸ (h j).isPrefix)
    rw [receive, if_pos rfl, hempty, hwritten]
    exact ⟨prefix_rfl, fun _ => rfl⟩
  · rw [receive_of_ne (show (Signal.opened j : Signal κ β).key ≠ k from hk)]
    exact h k

theorem put_closed (h : Carries written live given signals) (j : κ) :
    Carries written live given (signals ++ [.closed j]) := by
  intro k
  rw [foldl_append, foldl_cons, foldl_nil]
  by_cases hk : j = k
  · subst hk
    rw [receive, if_pos rfl]
    exact ⟨(h j).isPrefix, fun hlive => Bool.noConfusion hlive⟩
  · rw [receive_of_ne (show (Signal.closed j : Signal κ β).key ≠ k from hk)]
    exact h k

theorem put_data (h : Carries written live given signals) (items : List β)
    (hj : written' j = written j ++ items) (hother : ∀ k, k ≠ j → written' k = written k) :
    Carries written' live given (signals ++ [.data j items]) := by
  intro k
  rw [foldl_append, foldl_cons, foldl_nil]
  by_cases hk : j = k
  · subst hk
    rw [hj, receive]
    split
    · rename_i hlive
      have hsame := (h j).complete hlive.2
      exact ⟨hsame ▸ prefix_rfl, fun _ => congrArg (· ++ items) hsame⟩
    · rename_i hdead
      exact ⟨(h j).isPrefix.trans (prefix_append _ _), fun hlive => absurd ⟨rfl, hlive⟩ hdead⟩
  · rw [receive_of_ne (show (Signal.data j items).key ≠ k from hk), hother k (Ne.symm hk)]
    exact h k

end Carries

end Rules

end Mux
