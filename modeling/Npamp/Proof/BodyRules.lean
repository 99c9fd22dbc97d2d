import Npamp.Rust.Bodies

/-!
# What a body must say

The rules of the ten channels over CBOR items, apart from any language's values and errors. The
tables are those of `bodies.rs`.
-/

namespace Npamp

open Cbor

abbrev BodyMap := List (Item × Item)

/-- What a body channel asks of a map, without the values of either language. -/
structure BodyRules where
  schema : UInt64 → Option (List Field)
  correlation : UInt64 → BodyMap → Bool
  nested : UInt64 → BodyMap → Bool

/-- What a body channel accepts. -/
def BodyRules.ok (r : BodyRules) (ft : UInt64) : Item → Bool
  | .map m =>
    (r.schema ft).any fun fields =>
      (get m 0).any (Item.isKey ft) && r.correlation ft m && fieldsOk fields m
        && r.nested ft m
  | _ => false

def isCorr : Item → Bool
  | .bytes b => 1 ≤ b.length ∧ b.length ≤ 64
  | _ => false

def corrOk (m : BodyMap) : Bool := (get m 1).any isCorr

def subStreamOk (m : BodyMap) : Bool := (get m 1).any fun v => v.hasKind .uint

/-- Keys 1 and 2 come together: a report has both, or neither. -/
def reportCorrOk (m : BodyMap) : Bool :=
  match get m 1, get m 2 with
  | some corr, some sub => isCorr corr && sub.hasKind .bytes
  | none, none => true
  | _, _ => false

def gossipOk (schema : List Field) (m : BodyMap) : Bool := (get m 2).any (arrayOk schema)

def reportOk (m : BodyMap) : Bool :=
  (get m 3).any (fun v => v.hasKind .uint)
    && Rust.reportContent.all (fun c => (get m c.1).all (arrayOk c.2.1))
    && Rust.reportContent.any (fun c => !(elementsAt m c.1).isEmpty)

def amountSchema : List Field := [⟨0, .number, true⟩, ⟨1, .uint, true⟩, ⟨2, .text, true⟩]

def isParty (parties : List Bytes) (v : Item) : Bool := v.text?.any fun s => s ∈ parties

/-- A leg goes between two of the parties and has an amount. -/
def legOk (parties : List Bytes) : Item → Bool
  | .map m =>
    (get m 0).any (isParty parties) && (get m 1).any (isParty parties)
      && (get m 2).any (mapOk amountSchema) && keysOk m
  | _ => false

/-- The parties are texts, and every leg goes between two of them. -/
def proposalOk (m : BodyMap) : Bool :=
  (elementsAt m 2).all (fun v => v.hasKind .text)
    && (elementsAt m 3).all (legOk ((elementsAt m 2).filterMap Item.text?))

inductive BodyKind where
  | memory
  | stream
  | capability
  | immune
  | settlement
  | telemetry
  | commerce
  | interaction
  | workflow
  | knowledge
  deriving DecidableEq, Repr

def plainRules (schema : UInt64 → Option (List Field)) : BodyRules where
  schema := schema
  correlation _ := corrOk
  nested _ _ := true

def BodyKind.rules : BodyKind → BodyRules
  | memory => plainRules Rust.memorySchema
  | stream => { plainRules Rust.streamSchema with correlation := fun _ => subStreamOk }
  | capability => plainRules Rust.capabilitySchema
  | immune =>
    { plainRules Rust.immuneSchema with
      nested := fun ft m =>
        if ft = 0x00C0 then gossipOk Rust.gossipDescriptorSchema m
        else if ft = 0x00C3 then gossipOk Rust.gossipItemSchema m
        else true }
  | settlement => plainRules Rust.settlementSchema
  | telemetry =>
    { schema := fun ft => if ft = 0x0100 then some [] else Rust.telemetrySchema ft
      correlation := fun ft m => if ft = 0x0100 then reportCorrOk m else corrOk m
      nested := fun ft m => if ft = 0x0100 then reportOk m else true }
  | commerce =>
    { plainRules Rust.commerceSchema with
      nested := fun ft m =>
        if ft = 0x0100 then (get m 4).all (mapOk amountSchema)
        else if ft = 0x0108 then proposalOk m
        else true }
  | interaction => plainRules Rust.interactionSchema
  | workflow =>
    { plainRules Rust.workflowSchema with
      correlation := fun ft m => if Rust.workflowHasCorr ft then corrOk m else true }
  | knowledge =>
    { plainRules Rust.knowledgeSchema with
      nested := fun ft m =>
        ft ≠ 0x0106 || (get m 4).isSome || (get m 5).isSome }

theorem BodyRules.ok_of_none {r : BodyRules} {ft : UInt64} (h : r.schema ft = none) (v : Item) :
    r.ok ft v = false := by
  cases v with
  | map m => rw [BodyRules.ok, h, Option.any_none]
  | _ => rfl

theorem BodyRules.ok_of_ne {r : BodyRules} {ft : UInt64} {v : Item} (h : ∀ m, v ≠ .map m) :
    r.ok ft v = false := by
  cases v with
  | map m => exact absurd rfl (h m)
  | _ => rfl

theorem telemetry_schema_cases (ft : UInt64) :
    (¬ (0x0100 ≤ ft ∧ ft ≤ 0x0105) ∧ BodyKind.telemetry.rules.schema ft = none)
      ∨ ft = 0x0100
      ∨ (0x0100 ≤ ft ∧ ft ≤ 0x0105) ∧ ft ≠ 0x0100
        ∧ ∃ schema, Rust.telemetrySchema ft = some schema := by
  by_cases hrange : 0x0100 ≤ ft ∧ ft ≤ 0x0105
  · have hft : ft = 0x0100 ∨ ft = 0x0101 ∨ ft = 0x0102 ∨ ft = 0x0103 ∨ ft = 0x0104
        ∨ ft = 0x0105 := by
      simp only [UInt64.le_iff_toNat_le, ← UInt64.toNat_inj] at hrange ⊢
      simp at hrange ⊢
      omega
    refine .inr (hft.imp_right fun hft => ⟨hrange, ?_⟩)
    rcases hft with rfl | rfl | rfl | rfl | rfl <;> exact ⟨by decide, _, rfl⟩
  · refine .inl ⟨hrange, ?_⟩
    have hne (c : UInt64) (hc : 0x0100 ≤ c ∧ c ≤ 0x0105) : ft ≠ c := by
      rintro rfl
      exact hrange hc
    change (if ft = 0x0100 then some [] else Rust.telemetrySchema ft) = none
    rw [if_neg (hne _ (by decide)), Rust.telemetrySchema, List.lookup_eq_none_iff]
    simp only [List.forall_mem_cons, List.not_mem_nil, false_implies, implies_true, and_true,
      bne_iff_ne, ne_eq]
    exact ⟨hne _ (by decide), hne _ (by decide), hne _ (by decide), hne _ (by decide),
      hne _ (by decide)⟩

end Npamp
