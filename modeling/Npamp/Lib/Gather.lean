import Mathlib.Data.List.Nodup

/-!
# What a list holds under a key

`gather` collects the items under one key; where no two entries share a key it is the items of the
one entry that has it.
-/

namespace Gather

open List

variable {α κ β : Type} [DecidableEq κ] (key : α → κ) (items : α → List β) {l : List α} {a b : α}
  {i : Nat} {k : κ}

def gather (k : κ) (l : List α) : List β := (l.filter fun a => key a = k).flatMap items

variable {key items}

theorem mem_gather {b : β} : b ∈ gather key items k l ↔ ∃ a ∈ l, key a = k ∧ b ∈ items a := by
  simp only [gather, mem_flatMap, mem_filter, decide_eq_true_eq, and_assoc]

theorem gather_append (l l' : List α) :
    gather key items k (l ++ l') = gather key items k l ++ gather key items k l' := by
  rw [gather, filter_append, flatMap_append]
  rfl

theorem gather_concat_of_nil (h : items a = []) :
    gather key items k (l ++ [a]) = gather key items k l := by
  have hnew : gather key items k [a] = [] := by
    rw [gather, flatMap_eq_nil_iff]
    intro b hb
    rw [mem_singleton.mp (mem_of_mem_filter hb), h]
  rw [gather_append, hnew, append_nil]

theorem gather_of_not_mem (h : k ∉ l.map key) : gather key items k l = [] := by
  have hnone : (l.filter fun a => key a = k) = [] := by
    rw [filter_eq_nil_iff]
    intro a ha hk
    exact h (mem_map.mpr ⟨a, ha, of_decide_eq_true hk⟩)
  rw [gather, hnone, flatMap_nil]

theorem gather_cons_self (h : key a ∉ l.map key) : gather key items (key a) (a :: l) = items a := by
  have hself : decide (key a = key a) = true := decide_eq_true rfl
  change gather key items (key a) ([a] ++ l) = _
  rw [gather_append, gather_of_not_mem h, append_nil, gather, filter_cons, if_pos hself,
    filter_nil, flatMap_singleton]

theorem gather_cons_of_ne (h : key a ≠ k) : gather key items k (a :: l) = gather key items k l := by
  rw [gather, filter_cons_of_neg (by simpa using h)]
  rfl

theorem gather_of_mem (hkeys : (l.map key).Nodup) (ha : a ∈ l) :
    gather key items (key a) l = items a := by
  induction l with
  | nil => exact absurd ha not_mem_nil
  | cons b l ih =>
    rw [map_cons, nodup_cons] at hkeys
    rcases mem_cons.mp ha with rfl | hmem
    · exact gather_cons_self hkeys.1
    · have hne : key b ≠ key a := fun h => hkeys.1 (h ▸ mem_map_of_mem hmem)
      rw [gather_cons_of_ne hne, ih hkeys.2 hmem]

omit [DecidableEq κ] in
theorem map_key_set (hi : l[i]? = some a) (hkey : key b = key a) :
    (l.set i b).map key = l.map key := by
  obtain ⟨hlt, rfl⟩ := List.getElem?_eq_some_iff.mp hi
  have hlt' : i < (l.map key).length := by rwa [length_map]
  have hself : key l[i] = (l.map key)[i] := (getElem_map key).symm
  rw [map_set, hkey, hself, set_getElem_self hlt']

theorem gather_set (hkeys : (l.map key).Nodup) (hi : l[i]? = some a) (hkey : key b = key a) :
    gather key items k (l.set i b)
      = if k = key a then items b else gather key items k l := by
  induction l generalizing i with
  | nil => cases hi
  | cons c l ih =>
    rw [map_cons, nodup_cons] at hkeys
    cases i with
    | zero =>
      cases hi
      rw [set_cons_zero]
      split
      · rename_i hk
        rw [← hkey] at hkeys hk
        rw [hk, gather_cons_self hkeys.1]
      · rename_i hk
        rw [gather_cons_of_ne (hkey ▸ Ne.symm hk), gather_cons_of_ne (Ne.symm hk)]
    | succ i =>
      have hmem : a ∈ l := mem_of_getElem? hi
      have hca : key c ≠ key a := fun h => hkeys.1 (h ▸ mem_map_of_mem hmem)
      rw [set_cons_succ]
      by_cases hc : key c = k
      · have hka : k ≠ key a := hc ▸ hca
        have hi' : l[i]? = some a := hi
        have hset : key c ∉ (l.set i b).map key := by
          rw [map_key_set hi' hkey]
          exact hkeys.1
        rw [if_neg hka, ← hc, gather_cons_self hset, gather_cons_self hkeys.1]
      · rw [gather_cons_of_ne hc, gather_cons_of_ne hc, ih hkeys.2 hi]

theorem gather_set_of_eq (hi : l[i]? = some a) (hkey : key b = key a) (hitems : items b = items a) :
    gather key items k (l.set i b) = gather key items k l := by
  induction l generalizing i with
  | nil => cases hi
  | cons c l ih =>
    cases i with
    | zero =>
      cases hi
      rw [set_cons_zero, gather, gather, filter_cons, filter_cons, hkey]
      split
      · rw [flatMap_cons, flatMap_cons, hitems]
      · rfl
    | succ i =>
      rw [set_cons_succ, ← singleton_append, gather_append, ih hi, ← gather_append,
        singleton_append]

end Gather
