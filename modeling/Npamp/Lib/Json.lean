import Mathlib.Data.List.Nodup

/-!
# JSON values

A decoded document, over any type of numbers. `WellFormed` says that no object has two members with
one key.
-/

inductive Json (ν : Type) where
  | null
  | bool (b : Bool)
  | number (n : ν)
  | string (s : List Char)
  | array (items : List (Json ν))
  | object (members : List (List Char × Json ν))

namespace Json

variable {ν : Type} {key : List Char}

def get (key : List Char) : Json ν → Option (Json ν)
  | .object members => members.lookup key
  | _ => none

def asString : Json ν → Option (List Char)
  | .string s => some s
  | _ => none

def asObject : Json ν → Option (List (List Char × Json ν))
  | .object members => some members
  | _ => none

/-- No object has two members under one key. -/
inductive WellFormed : Json ν → Prop
  | null : WellFormed .null
  | bool (b : Bool) : WellFormed (.bool b)
  | number (n : ν) : WellFormed (.number n)
  | string (s : List Char) : WellFormed (.string s)
  | array {items : List (Json ν)} (hitems : ∀ v ∈ items, WellFormed v) : WellFormed (.array items)
  | object {members : List (List Char × Json ν)} (hkeys : (members.map Prod.fst).Nodup)
      (hmembers : ∀ m ∈ members, WellFormed m.2) : WellFormed (.object members)

theorem mem_of_lookup {κ β : Type} [BEq κ] [LawfulBEq κ] {key : κ}
    {members : List (κ × β)} {v : β} (h : members.lookup key = some v) : (key, v) ∈ members := by
  obtain ⟨before, after, rfl, -⟩ := List.lookup_eq_some_iff.mp h
  exact List.mem_append_right before List.mem_cons_self

theorem lookup_of_mem {β : Type} {members : List (List Char × β)} {v : β}
    (hkeys : (members.map Prod.fst).Nodup) (h : (key, v) ∈ members) :
    members.lookup key = some v := by
  induction members with
  | nil => cases h
  | cons m rest ih =>
    rw [List.map_cons, List.nodup_cons] at hkeys
    rw [List.lookup_cons]
    rcases List.mem_cons.mp h with rfl | h
    · rw [beq_self_eq_true]
    have hne : key ≠ m.1 := by
      rintro rfl
      exact hkeys.1 (List.mem_map.mpr ⟨_, h, rfl⟩)
    rw [beq_false_of_ne hne]
    exact ih hkeys.2 h

theorem lookup_eq_some_iff {β : Type} {members : List (List Char × β)} {v : β}
    (hkeys : (members.map Prod.fst).Nodup) : members.lookup key = some v ↔ (key, v) ∈ members :=
  ⟨mem_of_lookup, lookup_of_mem hkeys⟩

theorem WellFormed.get {v member : Json ν} (hv : v.WellFormed)
    (h : v.get key = some member) : member.WellFormed := by
  cases hv with
  | object hkeys hmembers => exact hmembers _ (mem_of_lookup h)
  | _ => cases h

end Json
