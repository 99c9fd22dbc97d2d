import Mathlib.Data.List.Infix

/-!
# Reading items off a stream

A reader takes one item off its input, or fails. Reading until it fails gives the longest list of
items that can be read.
-/

namespace Framing

universe u v

variable {S : Type u} {α : Type v}

def readAll (next : S → Option (α × S)) : Nat → S → List α × S
  | 0, s => ([], s)
  | fuel + 1, s =>
    match next s with
    | none => ([], s)
    | some (a, s') => (a :: (readAll next fuel s').1, (readAll next fuel s').2)

inductive Reads (next : S → Option (α × S)) : S → List α → S → Prop
  | nil (s : S) : Reads next s [] s
  | cons {s s' s'' : S} {a : α} {as : List α} (hnext : next s = some (a, s'))
      (hrest : Reads next s' as s'') : Reads next s (a :: as) s''

variable {next : S → Option (α × S)} {s s' s'' : S} {as as' : List α}

theorem reads_readAll (next : S → Option (α × S)) (fuel : Nat) (s : S) :
    Reads next s (readAll next fuel s).1 (readAll next fuel s).2 := by
  induction fuel generalizing s with
  | zero => exact .nil s
  | succ fuel ih =>
    rw [readAll]
    split
    · exact .nil s
    · rename_i a s' hnext
      exact .cons hnext (ih s')

theorem Reads.trans (h : Reads next s as s') (h' : Reads next s' as' s'') :
    Reads next s (as ++ as') s'' := by
  induction h with
  | nil => exact h'
  | cons hnext _ ih => exact .cons hnext (ih h')

theorem Reads.isInitial (h : Reads next s as s') (hstuck : next s' = none)
    (h' : Reads next s as' s'') : as' <+: as := by
  induction h' generalizing as with
  | nil => exact List.nil_prefix
  | cons hnext _ ih =>
    cases h with
    | nil =>
      rw [hstuck] at hnext
      cases hnext
    | cons hnext' hrest' =>
      rw [hnext'] at hnext
      obtain ⟨rfl, rfl⟩ := Prod.mk.inj (Option.some.inj hnext)
      exact List.cons_prefix_cons.mpr ⟨rfl, ih hrest'⟩

section Measure

variable {size : S → Nat} (hsize : ∀ s a s', next s = some (a, s') → size s' < size s)

include hsize

theorem next_readAll {fuel : Nat} (hfuel : size s ≤ fuel) :
    next (readAll next fuel s).2 = none := by
  induction fuel generalizing s with
  | zero =>
    cases hnext : next s with
    | none => exact hnext
    | some p => exact absurd (hsize s p.1 p.2 hnext) (by omega)
  | succ fuel ih =>
    rw [readAll]
    split
    · assumption
    · rename_i a s' hnext
      have hless := hsize s a s' hnext
      exact ih (by omega)

theorem readAll_of_reads (h : Reads next s as s') (hstuck : next s' = none) {fuel : Nat}
    (hfuel : size s ≤ fuel) : readAll next fuel s = (as, s') := by
  induction h generalizing fuel with
  | nil s =>
    cases fuel with
    | zero => rfl
    | succ fuel => rw [readAll, hstuck]
  | cons hnext _ ih =>
    have hless := hsize _ _ _ hnext
    cases fuel with
    | zero => omega
    | succ fuel =>
      have hrest := ih hstuck (show _ ≤ fuel by omega)
      simp only [readAll, hnext, hrest]

end Measure

end Framing
