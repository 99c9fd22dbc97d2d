import Npamp.Lib.CborKeys
import Npamp.Lib.Utf8

/-!
# Where two CBOR decoders agree

Two dialects can only part at a negative integer, a text string, or a map key against the one before
it.
-/

namespace Cbor

open List

variable {ε ε' α β : Type}

/-- Two results: related values, or two failures of which the second is one `P` allows. -/
inductive Same (R : α → β → Prop) (P : ε' → Prop) : Except ε α → Except ε' β → Prop
  | error (e : ε) {e' : ε'} (h : P e') : Same R P (.error e) (.error e')
  | ok {x : α} {y : β} (h : R x y) : Same R P (.ok x) (.ok y)

theorem Same.imp {R S : α → β → Prop} {P : ε' → Prop} {x : Except ε α} {y : Except ε' β}
    (h : Same R P x y) (hRS : ∀ a b, R a b → S a b) : Same S P x y := by
  cases h with
  | error e he => exact .error e he
  | ok hab => exact .ok (hRS _ _ hab)

theorem Same.bind {γ δ : Type} {R : α → β → Prop} {S : γ → δ → Prop} {P : ε' → Prop}
    {x : Except ε α} {y : Except ε' β} {k : α → Except ε γ} {k' : β → Except ε' δ}
    (h : Same R P x y) (hk : ∀ a b, R a b → Same S P (k a) (k' b)) :
    Same S P (x >>= k) (y >>= k') := by
  cases h with
  | error e he => exact .error e he
  | ok hab => exact hk _ _ hab

def SameTaking (R : α → β → Prop) (x : α × Nat) (y : β × Nat) : Prop := R x.1 y.1 ∧ x.2 = y.2

structure SameEntry (R : α → β → Prop) (e : Entry α) (e' : Entry β) : Prop where
  octets : e.octets = e'.octets
  key : R e.key e'.key
  val : R e.val e'.val

namespace Dialect

/-- The values two dialects build from the same octets are related by `R`, conversions apart, and
`P` allows the faults of the second. -/
structure Related (D : Dialect ε α) (E : Dialect ε' β) (R : α → β → Prop) (P : ε' → Prop) :
    Prop where
  fault (f : Fault) : P (E.fault f)
  uint (arg : UInt64) : R (D.uint arg) (E.uint arg)
  bytes (b : List UInt8) : R (D.bytes b) (E.bytes b)
  array {xs : List α} {ys : List β} (h : Forall₂ R xs ys) : R (D.array xs) (E.array ys)
  map {xs : List (Entry α)} {ys : List (Entry β)} (h : Forall₂ (SameEntry R) xs ys) :
    R (D.map xs) (E.map ys)
  bool (b : Bool) : R (D.bool b) (E.bool b)
  null : R D.null E.null

def Alike (D : Dialect ε α) (E : Dialect ε' β) (R : α → β → Prop) (P : ε' → Prop) : Visit → Prop
  | .nint arg => Same R P (D.nint arg) (E.nint arg)
  | .text payload => Same R P (D.text payload) (E.text payload)
  | .key prev octets => D.follows prev octets = E.follows prev octets

/-- The dialect refuses what another one reads here, with an error `Q` allows. -/
def Refuses (E : Dialect ε' β) (Q : ε' → Prop) : Visit → Prop
  | .nint arg => ∃ e, E.nint arg = .error e ∧ Q e
  | .text payload => ∃ e, E.text payload = .error e ∧ Q e
  | .key prev octets => E.follows prev octets = false ∧ Q (E.fault .mapOrder)

/-- The second dialect treats what the first one reads as the first does where `ok` holds, and
refuses it elsewhere. -/
structure Stricter (D : Dialect ε α) (E : Dialect ε' β) (R : α → β → Prop) (P Q : ε' → Prop)
    (ok : Visit → Bool) (x : Visit) : Prop where
  alike (h : ok x = true) : Alike D E R P x
  refuses (h : ok x = false) : E.Refuses Q x

end Dialect

/-- Two decoders on the same octets, where the first one comes to the points `xs`: `ok` holds at all
of them and the results are the same, or it fails at one and the second decoder has refused it. -/
inductive Lockstep (R : α → β → Prop) (P Q : ε' → Prop) (ok : Visit → Bool) (xs : List Visit) :
    Except ε α → Except ε' β → Prop
  | same {r : Except ε α} {r' : Except ε' β} (hok : ∀ x ∈ xs, ok x = true) (h : Same R P r r') :
      Lockstep R P Q ok xs r r'
  | refused {x : Visit} (hx : x ∈ xs) (hbad : ok x = false) (r : Except ε α) {e : ε'} (he : Q e) :
      Lockstep R P Q ok xs r (.error e)

section Rules

variable {γ δ γ' δ' : Type} {S : γ → δ → Prop} {T : γ' → δ' → Prop} {xs ys : List Visit}
  {P Q : ε' → Prop} {ok : Visit → Bool} {r : Except ε γ} {r' : Except ε' δ}

/-- What both go on to do with a result, passing a fault on, keeps them in step. -/
theorem Lockstep.lift {F : Except ε γ → Except ε γ'} {G : Except ε' δ → Except ε' δ'}
    (h : Lockstep S P Q ok xs r r') (hF : ∀ e, F (.error e) = .error e := by intro; rfl)
    (hG : ∀ e, G (.error e) = .error e := by intro; rfl)
    (hok : ∀ a b, S a b → Same T P (F (.ok a)) (G (.ok b))) :
    Lockstep T P Q ok xs (F r) (G r') := by
  cases h with
  | refused hx hbad _ he =>
    rw [hG]
    exact .refused hx hbad _ he
  | same hall hsame =>
    refine .same hall ?_
    cases hsame with
    | error e he =>
      rw [hF, hG]
      exact .error e he
    | ok hab => exact hok _ _ hab

theorem Lockstep.prepend (h : Lockstep S P Q ok ys r r') (hok : ∀ x ∈ xs, ok x = true) :
    Lockstep S P Q ok (xs ++ ys) r r' := by
  cases h with
  | refused hx hbad _ he => exact .refused (mem_append_right _ hx) hbad _ he
  | same hok' hsame => exact .same (forall_mem_append.mpr ⟨hok, hok'⟩) hsame

/-- One point alone: a conversion that one of the two may refuse. -/
theorem Lockstep.point {x : Visit} (hrefuses : ok x = false → ∃ e, r' = .error e ∧ Q e)
    (halike : ok x = true → Same S P r r') : Lockstep S P Q ok [x] r r' := by
  cases hok : ok x with
  | false =>
    obtain ⟨e, rfl, he⟩ := hrefuses hok
    exact .refused (mem_singleton_self x) hok r he
  | true => exact .same (by simpa using hok) (halike hok)

end Rules

namespace Dialect

variable {D : Dialect ε α} {E : Dialect ε' β} {R : α → β → Prop} {P Q : ε' → Prop}
  {ok : Visit → Bool} {decode : List UInt8 → Except ε (α × Nat)}
  {decode' : List UInt8 → Except ε' (β × Nat)} {visits : List UInt8 → List Visit}

theorem lockstep_decodeItems
    (hstep : ∀ b, (∀ x ∈ visits b, Stricter D E R P Q ok x) →
      Lockstep (SameTaking R) P Q ok (visits b) (decode b) (decode' b))
    (count : Nat) (b : List UInt8)
    (h : ∀ x ∈ visitItems decode visits count b, Stricter D E R P Q ok x) :
    Lockstep (SameTaking (Forall₂ R)) P Q ok (visitItems decode visits count b)
      (decodeItems decode count b) (decodeItems decode' count b) := by
  induction count generalizing b with
  | zero => exact .same (forall_mem_nil _) (.ok ⟨.nil, rfl⟩)
  | succ count ih =>
    rw [visitItems] at h ⊢
    have hone := hstep b fun x hx => h x (mem_append_left _ hx)
    have hrest := fun x hx => h x (mem_append_right _ hx)
    rw [decodeItems, decodeItems]
    generalize decode b = r, decode' b = r' at hone hrest ⊢
    cases hone with
    | refused hx hbad _ he => exact .refused (mem_append_left _ hx) hbad _ he
    | same hok hsame =>
      cases hsame with
      | error e he => exact .same (by simpa using hok) (.error e he)
      | @ok x y hxy =>
        obtain ⟨x, n⟩ := x
        obtain ⟨y, m⟩ := y
        obtain ⟨hxy, rfl⟩ : R x y ∧ n = m := hxy
        have htail := ih (b.drop n) hrest
        dsimp only
        generalize decodeItems decode count (b.drop n) = s,
          decodeItems decode' count (b.drop n) = s' at htail
        refine Lockstep.prepend ?_ hok
        apply htail.lift
        exact fun _ _ hxs => .ok ⟨.cons hxy hxs.1, congrArg (n + ·) hxs.2⟩

theorem lockstep_decodeEntries (hR : D.Related E R P)
    (hstep : ∀ b, (∀ x ∈ visits b, Stricter D E R P Q ok x) →
      Lockstep (SameTaking R) P Q ok (visits b) (decode b) (decode' b))
    (count : Nat) (prev : Option (List UInt8)) (b : List UInt8)
    (h : ∀ x ∈ D.visitEntries decode visits count prev b, Stricter D E R P Q ok x) :
    Lockstep (SameTaking (Forall₂ (SameEntry R))) P Q ok
      (D.visitEntries decode visits count prev b)
      (D.decodeEntries decode count prev b) (E.decodeEntries decode' count prev b) := by
  induction count generalizing prev b with
  | zero => exact .same (forall_mem_nil _) (.ok ⟨.nil, rfl⟩)
  | succ count ih =>
    rw [visitEntries] at h ⊢
    have hkey := hstep b fun x hx => h x (mem_append_left _ hx)
    have hrest := fun x hx => h x (mem_append_right _ hx)
    rw [decodeEntries, decodeEntries]
    generalize decode b = r, decode' b = r' at hkey hrest ⊢
    cases hkey with
    | refused hx hbad _ he => exact .refused (mem_append_left _ hx) hbad _ he
    | same hok hsame =>
    cases hsame with
    | error e he => exact .same (by simpa using hok) (.error e he)
    | @ok k k' hk =>
      obtain ⟨k, kn⟩ := k
      obtain ⟨k', m⟩ := k'
      obtain ⟨hk, rfl⟩ : R k k' ∧ kn = m := hk
      have hpoint := hrest _ mem_cons_self
      have hrest' := fun x hx => hrest x (mem_cons_of_mem _ hx)
      dsimp only at hpoint hrest' ⊢
      cases hkeyOk : ok (.key prev (b.take kn)) with
      | false =>
        obtain ⟨hfollows, he⟩ := hpoint.refuses hkeyOk
        rw [if_pos hfollows]
        exact .refused (mem_append_right _ mem_cons_self) hkeyOk _ he
      | true =>
      have horder : D.follows prev (b.take kn) = E.follows prev (b.take kn) := hpoint.alike hkeyOk
      rw [← horder]
      by_cases hfollows : D.follows prev (b.take kn) = false
      · rw [if_pos hfollows, if_pos hfollows, if_pos hfollows]
        exact .same (forall_mem_append.mpr ⟨hok, by simpa using hkeyOk⟩) (.error _ (hR.fault _))
      rw [if_neg hfollows] at hrest'
      rw [if_neg hfollows, if_neg hfollows, if_neg hfollows]
      have hval := hstep (b.drop kn) fun x hx => hrest' x (mem_append_left _ hx)
      have hrest'' := fun x hx => hrest' x (mem_append_right _ hx)
      generalize decode (b.drop kn) = s, decode' (b.drop kn) = s' at hval hrest'' ⊢
      cases hval with
      | refused hx hbad _ he =>
        exact .refused (mem_append_right _ (mem_cons_of_mem _ (mem_append_left _ hx))) hbad _ he
      | same hokVal hsame =>
      cases hsame with
      | error e he =>
        refine .same (forall_mem_append.mpr ⟨hok, ?_⟩) (.error e he)
        exact forall_mem_cons.mpr ⟨hkeyOk, by simpa using hokVal⟩
      | @ok v v' hv =>
        obtain ⟨v, vn⟩ := v
        obtain ⟨v', m⟩ := v'
        obtain ⟨hv, rfl⟩ : R v v' ∧ vn = m := hv
        have htail := ih (some (b.take kn)) (b.drop (kn + vn)) hrest''
        dsimp only
        generalize D.decodeEntries decode count (some (b.take kn)) (b.drop (kn + vn)) = t,
          E.decodeEntries decode' count (some (b.take kn)) (b.drop (kn + vn)) = t' at htail
        rw [← cons_append, ← append_assoc]
        refine Lockstep.prepend ?_
          (forall_mem_append.mpr ⟨hok, forall_mem_cons.mpr ⟨hkeyOk, hokVal⟩⟩)
        apply htail.lift
        exact fun _ _ hes => .ok ⟨.cons ⟨rfl, hk, hv⟩ hes.1, congrArg (kn + vn + ·) hes.2⟩

theorem lockstep_decodeBody (hR : D.Related E R P)
    (hstep : ∀ b, (∀ x ∈ visits b, Stricter D E R P Q ok x) →
      Lockstep (SameTaking R) P Q ok (visits b) (decode b) (decode' b))
    (major : UInt8) (b : List UInt8) (arg : UInt64) (n : Nat)
    (h : ∀ x ∈ D.visitBody decode visits major b arg n, Stricter D E R P Q ok x) :
    Lockstep (SameTaking R) P Q ok (D.visitBody decode visits major b arg n)
      (D.decodeBody decode major b arg n) (E.decodeBody decode' major b arg n) := by
  -- where nothing is read, both go on alike
  have hfault (f : Fault) : Lockstep (SameTaking R) P Q ok []
      (.error (D.fault f) : Except ε (α × Nat)) (.error (E.fault f)) :=
    .same (forall_mem_nil _) (.error _ (hR.fault f))
  unfold decodeBody
  unfold visitBody at h ⊢
  by_cases h0 : major = 0
  · subst h0
    exact .same (forall_mem_nil _) (.ok ⟨hR.uint arg, rfl⟩)
  rw [if_neg h0, if_neg h0]
  by_cases h1 : major = 1
  · rw [if_pos h1] at h
    rw [if_pos h1, if_pos h1, if_pos h1]
    have hpoint := h _ (mem_singleton_self _)
    have hleaf := Lockstep.point hpoint.refuses hpoint.alike
    generalize D.nint arg = r, E.nint arg = r' at hleaf
    apply hleaf.lift
    exact fun _ _ hxy => .ok ⟨hxy, rfl⟩
  rw [if_neg h1] at h
  rw [if_neg h1, if_neg h1, if_neg h1]
  by_cases h2 : major = 2
  · subst h2
    rw [if_neg (by decide : ¬ (2 : UInt8) = 3), if_neg (by decide : ¬ (2 : UInt8) = 4),
      if_neg (by decide : ¬ (2 : UInt8) = 5), if_pos rfl, if_pos rfl]
    by_cases hend : n + arg.toNat > b.length
    · rw [if_pos hend, if_pos hend]
      exact hfault _
    · rw [if_neg hend, if_neg hend]
      exact .same (forall_mem_nil _) (.ok ⟨hR.bytes _, rfl⟩)
  rw [if_neg h2, if_neg h2]
  by_cases h3 : major = 3
  · rw [if_pos h3] at h
    rw [if_pos h3, if_pos h3, if_pos h3]
    by_cases hend : n + arg.toNat > b.length
    · rw [if_pos hend, if_pos hend, if_pos hend]
      exact hfault _
    rw [if_neg hend] at h
    rw [if_neg hend, if_neg hend, if_neg hend]
    have hpoint := h _ (mem_singleton_self _)
    have hleaf := Lockstep.point hpoint.refuses hpoint.alike
    generalize D.text ((b.take (n + arg.toNat)).drop n) = r,
      E.text ((b.take (n + arg.toNat)).drop n) = r' at hleaf
    apply hleaf.lift
    exact fun _ _ hxy => .ok ⟨hxy, rfl⟩
  rw [if_neg h3] at h
  rw [if_neg h3, if_neg h3, if_neg h3]
  by_cases h4 : major = 4
  · rw [if_pos h4] at h
    rw [if_pos h4, if_pos h4, if_pos h4]
    by_cases hcount : arg.toNat > b.length - n
    · rw [if_pos hcount, if_pos hcount, if_pos hcount]
      exact hfault _
    rw [if_neg hcount] at h
    rw [if_neg hcount, if_neg hcount, if_neg hcount]
    have hitems := lockstep_decodeItems hstep arg.toNat (b.drop n) h
    generalize decodeItems decode arg.toNat (b.drop n) = r,
      decodeItems decode' arg.toNat (b.drop n) = r' at hitems
    apply hitems.lift
    exact fun _ _ hxs => .ok ⟨hR.array hxs.1, congrArg (n + ·) hxs.2⟩
  rw [if_neg h4] at h
  rw [if_neg h4, if_neg h4, if_neg h4]
  by_cases h5 : major = 5
  · rw [if_pos h5] at h
    rw [if_pos h5, if_pos h5, if_pos h5]
    by_cases hcount : arg.toNat > b.length - n
    · rw [if_pos hcount, if_pos hcount, if_pos hcount]
      exact hfault _
    rw [if_neg hcount] at h
    rw [if_neg hcount, if_neg hcount, if_neg hcount]
    have hentries := lockstep_decodeEntries hR hstep arg.toNat none (b.drop n) h
    generalize D.decodeEntries decode arg.toNat none (b.drop n) = r,
      E.decodeEntries decode' arg.toNat none (b.drop n) = r' at hentries
    apply hentries.lift
    exact fun _ _ hes => .ok ⟨hR.map hes.1, congrArg (n + ·) hes.2⟩
  rw [if_neg h5, if_neg h5, if_neg h5]
  exact hfault _

theorem same_decodeSimple (hR : D.Related E R P) (ai : UInt8) :
    Same (SameTaking R) P (D.decodeSimple ai) (E.decodeSimple ai) := by
  unfold decodeSimple
  split
  · exact .ok ⟨hR.bool false, rfl⟩
  split
  · exact .ok ⟨hR.bool true, rfl⟩
  · split
    · exact .ok ⟨hR.null, rfl⟩
    · exact .error _ (hR.fault _)

/-- **A decoder that is stricter at some points** agrees with the first one until it comes to such a
point, and fails there. -/
theorem lockstep_decode (hR : D.Related E R P) (levels : Nat) :
    ∀ b, (∀ x ∈ D.visits levels b, Stricter D E R P Q ok x) →
      Lockstep (SameTaking R) P Q ok (D.visits levels b) (D.decode levels b)
        (E.decode levels b) := by
  induction levels with
  | zero => intro b _; exact .same (forall_mem_nil _) (.error _ (hR.fault _))
  | succ levels ih =>
    intro b h
    cases b with
    | nil => exact .same (forall_mem_nil _) (.error _ (hR.fault _))
    | cons ib tail =>
      rw [visits] at h ⊢
      rw [decode, decode]
      by_cases hmajor : ib >>> 5 = 7
      · rw [if_pos hmajor, if_pos hmajor, if_pos hmajor]
        exact .same (forall_mem_nil _) (same_decodeSimple hR _)
      rw [if_neg hmajor] at h
      rw [if_neg hmajor, if_neg hmajor, if_neg hmajor]
      cases harg : readArg (ib &&& 0x1f) (ib :: tail) with
      | error f => exact .same (forall_mem_nil _) (.error _ (hR.fault _))
      | ok r =>
        rw [harg] at h
        exact lockstep_decodeBody hR ih _ _ _ _ h

theorem lockstep_decodeTop (hR : D.Related E R P) {levels : Nat} {b : List UInt8}
    (h : ∀ x ∈ D.visits levels b, Stricter D E R P Q ok x) :
    Lockstep R P Q ok (D.visits levels b) (D.decodeTop levels b) (E.decodeTop levels b) := by
  have hstep := lockstep_decode hR levels b h
  unfold decodeTop
  generalize D.decode levels b = r, E.decode levels b = r' at hstep
  cases hstep with
  | refused hx hbad _ he => exact .refused hx hbad _ he
  | same hok hsame =>
    refine .same hok ?_
    cases hsame with
    | error e he => exact .error e he
    | @ok x y hxy =>
      obtain ⟨x, n⟩ := x
      obtain ⟨y, m⟩ := y
      obtain ⟨hxy, rfl⟩ : R x y ∧ n = m := hxy
      dsimp only
      by_cases htrailing : n ≠ b.length
      · rw [if_pos htrailing, if_pos htrailing]
        exact .error _ (hR.fault _)
      · rw [if_neg htrailing, if_neg htrailing]
        exact .ok hxy

/-- **Decoders that treat alike what the first of them reads agree on the item.** -/
theorem same_decodeTop (hR : D.Related E R P) {levels : Nat} {b : List UInt8}
    (h : ∀ x ∈ D.visits levels b, Alike D E R P x) :
    Same R P (D.decodeTop levels b) (E.decodeTop levels b) := by
  have hstep : Lockstep R P (fun _ => False) (fun _ => true) (D.visits levels b)
      (D.decodeTop levels b) (E.decodeTop levels b) :=
    lockstep_decodeTop hR fun x hx => ⟨fun _ => h x hx, nofun⟩
  generalize D.decodeTop levels b = r, E.decodeTop levels b = r' at hstep
  cases hstep with
  | same _ hsame => exact hsame
  | refused _ hbad => cases hbad

end Dialect

inductive Item where
  | int (v : Int)
  | bytes (b : List UInt8)
  | text (octets : List UInt8)
  | array (items : List Item)
  | map (entries : List (Item × Item))
  | bool (b : Bool)
  | null

/-- `item` reads the values a dialect builds, conversions apart. -/
structure Dialect.Meaning (D : Dialect ε α) (item : α → Item) : Prop where
  uint (arg : UInt64) : item (D.uint arg) = .int arg.toNat
  bytes (b : List UInt8) : item (D.bytes b) = .bytes b
  array (items : List α) : item (D.array items) = .array (items.map item)
  map (entries : List (Entry α)) :
    item (D.map entries) = .map (entries.map fun e => (item e.key, item e.val))
  bool (b : Bool) : item (D.bool b) = .bool b
  null : item D.null = .null

variable {D : Dialect ε α} {E : Dialect ε' β} {item : α → Item} {item' : β → Item}
  {P : ε' → Prop}

/-- How a function that recurses through a list next to the one on its elements is told apart. -/
theorem eq_map_of_cons {f : α → β} {g : List α → List β} (hnil : g [] = [])
    (hcons : ∀ x xs, g (x :: xs) = f x :: g xs) (xs : List α) : g xs = xs.map f := by
  induction xs with
  | nil => exact hnil
  | cons x xs ih => rw [hcons, ih, map_cons]

theorem le_of_max_cons {f : α → Nat} {g : List α → Nat}
    (hcons : ∀ x xs, g (x :: xs) = max (f x) (g xs)) {x : α} {xs : List α} (h : x ∈ xs) :
    f x ≤ g xs := by
  induction xs with
  | nil => cases h
  | cons y ys ih =>
    rw [hcons]
    rcases mem_cons.mp h with rfl | hmem
    · exact le_max_left _ _
    · exact (ih hmem).trans (le_max_right _ _)

theorem map_eq_map_of_forall₂ {γ : Type} {f : α → γ} {g : β → γ} {S : α → β → Prop}
    (hS : ∀ x y, S x y → f x = g y) {xs : List α} {ys : List β} (h : Forall₂ S xs ys) :
    xs.map f = ys.map g := by
  induction h with
  | nil => rfl
  | cons hxy _ ih => rw [map_cons, map_cons, hS _ _ hxy, ih]

theorem Dialect.Meaning.related (hD : D.Meaning item) (hE : E.Meaning item')
    (hP : ∀ f, P (E.fault f)) : D.Related E (fun x y => item x = item' y) P where
  fault := hP
  uint arg := (hD.uint arg).trans (hE.uint arg).symm
  bytes b := (hD.bytes b).trans (hE.bytes b).symm
  array {xs ys} h := by
    rw [hD.array, hE.array, map_eq_map_of_forall₂ (fun _ _ h => h) h]
  map {xs ys} h := by
    have hentry : ∀ (e : Entry α) (e' : Entry β), SameEntry (fun x y => item x = item' y) e e' →
        (item e.key, item e.val) = (item' e'.key, item' e'.val) := by
      intro e e' he
      rw [he.key, he.val]
    rw [hD.map, hE.map, map_eq_map_of_forall₂ hentry h]
  bool b := (hD.bool b).trans (hE.bool b).symm
  null := hD.null.trans hE.null.symm

theorem Same.toOption_eq {r : Except ε α} {r' : Except ε' β}
    (h : Same (fun x y => item x = item' y) P r r') :
    r.toOption.map item = r'.toOption.map item' := by
  cases h with
  | error e he => rfl
  | ok hxy => exact congrArg some hxy

theorem Same.error_of_eq {R : α → β → Prop} {r : Except ε α} {r' : Except ε' β}
    (h : Same R P r r') {e : ε'} (he : r' = .error e) : P e := by
  subst he
  cases h with
  | error _ h => exact h

/-- A decoder of items as they stand, with the keys of a map in any order. -/
def wire : Dialect Fault Item where
  fault := id
  uint arg := .int arg.toNat
  nint arg := .ok (.int (-1 - arg.toNat))
  bytes := .bytes
  text b := .ok (.text b)
  array := .array
  map entries := .map (entries.map fun e => (e.key, e.val))
  bool := .bool
  null := .null
  less _ _ := true

theorem wire_meaning : wire.Meaning id where
  uint _ := rfl
  bytes _ := rfl
  array items := by rw [map_id]; rfl
  map _ := rfl
  bool _ := rfl
  null := rfl

mutual

/-- The item as a decoder has it that replaces in a text what is not UTF-8. -/
def Item.lossy : Item → Item
  | .int v => .int v
  | .bytes b => .bytes b
  | .text octets => .text (Utf8.lossy octets)
  | .array items => .array (lossyItems items)
  | .map entries => .map (lossyEntries entries)
  | .bool b => .bool b
  | .null => .null

def lossyItems : List Item → List Item
  | [] => []
  | x :: rest => x.lossy :: lossyItems rest

def lossyEntries : List (Item × Item) → List (Item × Item)
  | [] => []
  | (key, val) :: rest => (key.lossy, val.lossy) :: lossyEntries rest

end

theorem lossyItems_eq_map : ∀ items, lossyItems items = items.map Item.lossy :=
  eq_map_of_cons rfl fun _ _ => rfl

theorem lossyEntries_eq_map :
    ∀ entries, lossyEntries entries = entries.map fun e => (e.1.lossy, e.2.lossy) :=
  eq_map_of_cons rfl fun _ _ => rfl

theorem Dialect.Meaning.lossy (hD : D.Meaning item) : D.Meaning fun v => (item v).lossy where
  uint arg := by rw [hD.uint, Item.lossy]
  bytes b := by rw [hD.bytes, Item.lossy]
  array items := by
    rw [hD.array, Item.lossy, lossyItems_eq_map, map_map]
    rfl
  map entries := by
    rw [hD.map, Item.lossy, lossyEntries_eq_map, map_map]
    rfl
  bool b := by rw [hD.bool, Item.lossy]
  null := by rw [hD.null, Item.lossy]

def Visit.oneKind : Visit → Bool
  | .key (some prev) octets =>
    prev.length == octets.length
      || majorOf prev == majorOf octets && (majorOf prev).any fun major => major ≤ 3
  | _ => true

def Visit.unsignedKey : Visit → Bool
  | .key prev octets =>
    majorOf octets == some 0 && prev.all fun octets => majorOf octets == some 0
  | _ => true

def Visit.utf8 (surrogates : Bool) : Visit → Bool
  | .text payload => Utf8.valid surrogates payload
  | _ => true

def Visit.int64 : Visit → Bool
  | .nint arg => arg.toNat ≤ 2 ^ 63 - 1
  | _ => true

def Visit.inOrder (less : List UInt8 → List UInt8 → Bool) : Visit → Bool
  | .key (some prev) octets => less prev octets
  | _ => true

/-- **A decoder accepts the items on the wire** whose negative integers have 64 bits and whose keys
are in its order, each as `conv` says. -/
theorem Dialect.toOption_decodeTop {conv : Item → Item} (hconv : Cbor.wire.Meaning conv)
    (hD : D.Meaning item)
    (hnint : ∀ arg : UInt64, arg.toNat ≤ 2 ^ 63 - 1 →
      ∃ v, D.nint arg = .ok v ∧ conv (.int (-1 - arg.toNat)) = item v)
    (hrange : ∀ arg : UInt64, ¬ arg.toNat ≤ 2 ^ 63 - 1 → ∃ e, D.nint arg = .error e)
    (htext : ∀ b, ∃ v, D.text b = .ok v ∧ conv (.text b) = item v) (levels : Nat)
    (b : List UInt8) : (D.decodeTop levels b).toOption.map item
      = if ∀ x ∈ Cbor.wire.visits levels b, x.int64 = true ∧ x.inOrder D.less = true then
          (Cbor.wire.decodeTop levels b).toOption.map conv
        else none := by
  have hstep : Lockstep (fun v w => conv v = item w) (fun _ => True) (fun _ => True)
      (fun x => x.int64 && x.inOrder D.less) (Cbor.wire.visits levels b)
      (Cbor.wire.decodeTop levels b) (D.decodeTop levels b) := by
    refine lockstep_decodeTop (hconv.related hD fun _ => trivial) fun x _ => ?_
    cases x with
    | nint arg =>
      refine ⟨fun hok => ?_, fun hbad => ?_⟩
      · obtain ⟨v, heq, hv⟩ := hnint arg (by simpa [Visit.int64, Visit.inOrder] using hok)
        change Same _ _ _ (D.nint arg)
        rw [heq]
        exact .ok hv
      · obtain ⟨e, he⟩ := hrange arg (by simpa [Visit.int64, Visit.inOrder] using hbad)
        exact ⟨e, he, trivial⟩
    | text payload =>
      refine ⟨fun _ => ?_, nofun⟩
      obtain ⟨v, heq, hv⟩ := htext payload
      change Same _ _ _ (D.text payload)
      rw [heq]
      exact .ok hv
    | key prev octets =>
      have hfollows : (Visit.key prev octets).inOrder D.less = D.follows prev octets := by
        cases prev <;> rfl
      refine ⟨fun hok => ?_, fun hbad => ⟨?_, trivial⟩⟩
      · change Cbor.wire.follows prev octets = D.follows prev octets
        rw [← hfollows, (Bool.and_eq_true_iff.mp hok).2]
        cases prev <;> rfl
      · rw [← hfollows]
        exact hbad
  generalize Cbor.wire.decodeTop levels b = r, D.decodeTop levels b = r' at hstep
  cases hstep with
  | same hok hsame =>
    rw [if_pos fun x hx => (Bool.and_eq_true_iff.mp (hok x hx)), hsame.toOption_eq]
  | refused hx hbad =>
    rw [if_neg fun hok => ?_]
    · rfl
    · rw [(hok _ hx).1, (hok _ hx).2] at hbad
      cases hbad

theorem Visit.oneKind_of_unsignedKey {x : Visit} (h : x.unsignedKey = true) : x.oneKind = true := by
  cases x with
  | nint | text => rfl
  | key prev octets =>
    cases prev with
    | none => rfl
    | some prev =>
      simp only [unsignedKey, Option.all_some, Bool.and_eq_true, beq_iff_eq] at h
      simp [oneKind, h.1, h.2]

/-- **The two orders of keys agree** where a key is compared with one of its own kind. -/
theorem Dialect.follows_eq_of_oneKind {γ δ : Type} {F : Dialect γ δ} (hD : D.less = lexLess)
    (hE : E.less = lengthFirstLess) {prev : Option (List UInt8)} {octets : List UInt8}
    (hitem : F.KeyIsItem (.key prev octets))
    (h : (Visit.key prev octets).oneKind = true) : D.follows prev octets = E.follows prev octets := by
  cases prev with
  | none => rfl
  | some prev =>
    change D.less prev octets = E.less prev octets
    rw [hD, hE]
    simp only [Visit.oneKind, Bool.or_eq_true, beq_iff_eq, Bool.and_eq_true] at h
    rcases h with hlength | ⟨hmajor, hscalar⟩
    · exact (lengthFirstLess_of_length_eq hlength).symm
    cases hm : majorOf prev with
    | none => rw [hm] at hscalar; cases hscalar
    | some major =>
      rw [hm] at hmajor hscalar
      have hle : major ≤ 3 := by simpa using hscalar
      have hlt : major < 8 := UInt8.lt_of_le_of_lt hle (by decide)
      exact (lengthFirstLess_eq_lexLess hlt
        (isScalar_of_isItem (hitem.2 prev rfl) hm hle)
        (isScalar_of_isItem hitem.1 hmajor.symm hle)).symm

end Cbor
