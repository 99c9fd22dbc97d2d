import Mathlib.Data.List.Basic

/-!
# UTF-8

Octets are cut into chunks: a whole encoded character, or the longest start of one that what follows
does not complete.
-/

namespace Utf8

open List Prod

/-- What a lead octet asks for: the range of the second octet, and how many continuation octets
follow that one. -/
structure Lead where
  low : UInt8
  high : UInt8
  more : Nat

def lead (surrogates : Bool) (a : UInt8) : Option Lead :=
  if 0xC2 ≤ a ∧ a ≤ 0xDF then some ⟨0x80, 0xBF, 0⟩
  else if a = 0xE0 then some ⟨0xA0, 0xBF, 1⟩
  else if a = 0xED ∧ surrogates = false then some ⟨0x80, 0x9F, 1⟩
  else if 0xE1 ≤ a ∧ a ≤ 0xEF then some ⟨0x80, 0xBF, 1⟩
  else if a = 0xF0 then some ⟨0x90, 0xBF, 2⟩
  else if 0xF1 ≤ a ∧ a ≤ 0xF3 then some ⟨0x80, 0xBF, 2⟩
  else if a = 0xF4 then some ⟨0x80, 0x8F, 2⟩
  else none

def tails : Nat → List UInt8 → Nat × Bool
  | 0, _ => (0, true)
  | _ + 1, [] => (0, false)
  | n + 1, c :: rest =>
    if 0x80 ≤ c ∧ c ≤ 0xBF then ((tails n rest).1 + 1, (tails n rest).2) else (0, false)

def leadChunk (l : Lead) : List UInt8 → Nat × Bool
  | [] => (1, false)
  | c :: rest =>
    if l.low ≤ c ∧ c ≤ l.high then ((tails l.more rest).1 + 2, (tails l.more rest).2)
    else (1, false)

def chunk (surrogates : Bool) (a : UInt8) (rest : List UInt8) : Nat × Bool :=
  if a < 0x80 then (1, true)
  else
    match lead surrogates a with
    | none => (1, false)
    | some l => leadChunk l rest

def chunksUpTo (surrogates : Bool) : Nat → List UInt8 → List (List UInt8 × Bool)
  | fuel + 1, a :: rest =>
    ((a :: rest).take (chunk surrogates a rest).1, (chunk surrogates a rest).2)
      :: chunksUpTo surrogates fuel ((a :: rest).drop (chunk surrogates a rest).1)
  | _, _ => []

def chunks (surrogates : Bool) (b : List UInt8) : List (List UInt8 × Bool) :=
  chunksUpTo surrogates b.length b

def valid (surrogates : Bool) (b : List UInt8) : Bool := (chunks surrogates b).all snd

def replacement : List UInt8 := [0xEF, 0xBF, 0xBD]

def lossy (b : List UInt8) : List UInt8 :=
  (chunks false b).flatMap fun c => if c.2 then c.1 else replacement

theorem tails_le (n : Nat) (b : List UInt8) : (tails n b).1 ≤ b.length := by
  induction n generalizing b with
  | zero => simp [tails]
  | succ n ih =>
    cases b with
    | nil => simp [tails]
    | cons c rest =>
      have hrest := ih rest
      rw [tails]
      split
      · simpa using hrest
      · simp

theorem leadChunk_le (l : Lead) (rest : List UInt8) :
    1 ≤ (leadChunk l rest).1 ∧ (leadChunk l rest).1 ≤ rest.length + 1 := by
  cases rest with
  | nil => simp [leadChunk]
  | cons c rest =>
    have htails := tails_le l.more rest
    rw [leadChunk]
    split
    · simpa using htails
    · simp

theorem chunk_le (surrogates : Bool) (a : UInt8) (rest : List UInt8) :
    1 ≤ (chunk surrogates a rest).1 ∧ (chunk surrogates a rest).1 ≤ (a :: rest).length := by
  unfold chunk
  split
  · simp
  · split
    · simp
    · exact leadChunk_le _ rest

variable {fuel : Nat} {b : List UInt8} {surrogates : Bool}

theorem flatMap_chunksUpTo (surrogates : Bool) (hfuel : b.length ≤ fuel) :
    (chunksUpTo surrogates fuel b).flatMap fst = b := by
  induction fuel generalizing b with
  | zero =>
    obtain rfl := length_eq_zero_iff.mp (Nat.le_zero.mp hfuel)
    rfl
  | succ fuel ih =>
    cases b with
    | nil => rfl
    | cons a rest =>
      obtain ⟨hpos, hle⟩ := chunk_le surrogates a rest
      have hrest : ((a :: rest).drop (chunk surrogates a rest).1).length ≤ fuel := by
        rw [length_drop]
        omega
      rw [chunksUpTo, flatMap_cons, ih hrest, take_append_drop]

/-- **A replacing decoder leaves valid UTF-8 alone.** -/
theorem lossy_of_valid (h : valid false b = true) : lossy b = b := by
  have hall : ∀ c ∈ chunks false b, (if c.2 then c.1 else replacement) = c.1 := by
    intro c hc
    rw [if_pos (all_eq_true.mp h c hc)]
  calc lossy b = (chunks false b).flatMap fst := flatMap_congr hall
    _ = b := flatMap_chunksUpTo false (Nat.le_refl _)

def IsChar (surrogates : Bool) : List UInt8 → Prop
  | [] => False
  | a :: rest => chunk surrogates a rest = (rest.length + 1, true)

theorem tails_append {n : Nat} (rest : List UInt8) (h : (tails n b).2 = true) :
    tails n (b ++ rest) = tails n b := by
  induction n generalizing b with
  | zero => simp [tails]
  | succ n ih =>
    cases b with
    | nil => simp [tails] at h
    | cons c b =>
      rw [tails] at h
      rw [cons_append, tails, tails]
      split
      · rename_i hc
        rw [if_pos hc] at h
        rw [ih h]
      · rfl

theorem leadChunk_append {l : Lead} (rest : List UInt8) (h : (leadChunk l b).2 = true) :
    leadChunk l (b ++ rest) = leadChunk l b := by
  cases b with
  | nil => cases h
  | cons c b =>
    rw [leadChunk] at h
    rw [cons_append, leadChunk, leadChunk]
    split
    · rename_i hc
      rw [if_pos hc] at h
      rw [tails_append rest h]
    · rfl

theorem chunk_append {a : UInt8} (rest : List UInt8) (h : (chunk surrogates a b).2 = true) :
    chunk surrogates a (b ++ rest) = chunk surrogates a b := by
  unfold chunk at h ⊢
  split
  · rfl
  rename_i ha
  rw [if_neg ha] at h
  cases hlead : lead surrogates a with
  | none => rfl
  | some l =>
    rw [hlead] at h
    exact leadChunk_append rest h

theorem chunksUpTo_append {p : List UInt8} (h : IsChar surrogates p) (fuel : Nat)
    (rest : List UInt8) :
    chunksUpTo surrogates (fuel + 1) (p ++ rest) = (p, true) :: chunksUpTo surrogates fuel rest := by
  cases p with
  | nil => exact h.elim
  | cons a p =>
    have hchunk : chunk surrogates a (p ++ rest) = ((a :: p).length, true) := by
      rw [chunk_append rest (congrArg snd h)]
      exact h
    rw [cons_append, chunksUpTo, hchunk, ← cons_append, take_left, drop_left]

theorem valid_of_isChar {pieces : List (List UInt8)} (h : ∀ p ∈ pieces, IsChar surrogates p)
    (hfuel : pieces.flatten.length ≤ fuel) :
    (chunksUpTo surrogates fuel pieces.flatten).all snd = true := by
  induction pieces generalizing fuel with
  | nil => cases fuel <;> rfl
  | cons p pieces ih =>
    have hp := h p mem_cons_self
    have hlength : 1 ≤ p.length := by
      cases p with
      | nil => exact hp.elim
      | cons a p => simp
    rw [flatten_cons, length_append] at hfuel
    obtain ⟨fuel, rfl⟩ : ∃ n, fuel = n + 1 := ⟨fuel - 1, by omega⟩
    rw [flatten_cons, chunksUpTo_append hp, all_cons, Bool.true_and]
    exact ih (fun q hq => h q (mem_cons_of_mem _ hq)) (by omega)

theorem tails_take {n : Nat} (h : (tails n b).2 = true) :
    tails n (b.take (tails n b).1) = tails n b := by
  induction n generalizing b with
  | zero => simp [tails]
  | succ n ih =>
    cases b with
    | nil => simp [tails] at h
    | cons c b =>
      by_cases hc : 0x80 ≤ c ∧ c ≤ 0xBF
      · simp only [tails, if_pos hc] at h
        simp only [tails, if_pos hc, take_succ_cons, ih h]
      · simp only [tails, if_neg hc] at h
        cases h

theorem leadChunk_take {l : Lead} (h : (leadChunk l b).2 = true) :
    leadChunk l (b.take ((leadChunk l b).1 - 1)) = leadChunk l b := by
  cases b with
  | nil => cases h
  | cons c b =>
    by_cases hc : l.low ≤ c ∧ c ≤ l.high
    · simp only [leadChunk, if_pos hc] at h
      have htake : (c :: b).take ((leadChunk l (c :: b)).1 - 1) = c :: b.take (tails l.more b).1 := by
        rw [leadChunk, if_pos hc]
        rfl
      rw [htake, leadChunk, leadChunk, if_pos hc, if_pos hc, tails_take h]
    · simp only [leadChunk, if_neg hc] at h
      cases h

theorem isChar_take_chunk {a : UInt8} (h : (chunk surrogates a b).2 = true) :
    IsChar surrogates ((a :: b).take (chunk surrogates a b).1) := by
  obtain ⟨hpos, hle⟩ := chunk_le surrogates a b
  obtain ⟨n, hn⟩ : ∃ n, (chunk surrogates a b).1 = n + 1 := ⟨(chunk surrogates a b).1 - 1, by omega⟩
  have hlength : (b.take n).length = n := by
    rw [length_take]
    rw [hn, length_cons] at hle
    omega
  have hsame : chunk surrogates a (b.take n) = chunk surrogates a b := by
    have hback : n = (chunk surrogates a b).1 - 1 := by omega
    unfold chunk at h hback ⊢
    split
    · rfl
    rename_i ha
    rw [if_neg ha] at h hback
    cases hlead : lead surrogates a with
    | none => rfl
    | some l =>
      rw [hlead] at h hback
      rw [hback]
      exact leadChunk_take h
  rw [hn, take_succ_cons]
  show chunk surrogates a (b.take n) = _
  rw [hsame, hlength]
  exact Prod.ext hn h

theorem isChar_of_mem_chunksUpTo {c : List UInt8 × Bool} (hc : c ∈ chunksUpTo surrogates fuel b)
    (h : c.2 = true) : IsChar surrogates c.1 := by
  induction fuel generalizing b with
  | zero => cases hc
  | succ fuel ih =>
    cases b with
    | nil => cases hc
    | cons a b =>
      rw [chunksUpTo] at hc
      rcases mem_cons.mp hc with rfl | hrest
      · exact isChar_take_chunk h
      · exact ih hrest

/-- **A replacing decoder returns valid UTF-8.** -/
theorem valid_lossy (b : List UInt8) : valid false (lossy b) = true := by
  rw [valid, chunks, lossy, flatMap_def]
  refine valid_of_isChar ?_ (Nat.le_refl _)
  intro p hp
  obtain ⟨c, hc, rfl⟩ := mem_map.mp hp
  split
  · rename_i htrue
    exact isChar_of_mem_chunksUpTo hc htrue
  · exact rfl

/-- A change of octets that keeps ASCII and leaves the other octets alone. -/
structure AsciiOnly (f : UInt8 → UInt8) : Prop where
  low : ∀ a, a < 0x80 → f a < 0x80
  high : ∀ a, ¬ a < 0x80 → f a = a

variable {f : UInt8 → UInt8}

theorem AsciiOnly.between (hf : AsciiOnly f) {low high : UInt8} (hlow : 0x80 ≤ low) (c : UInt8) :
    (low ≤ f c ∧ f c ≤ high) ↔ low ≤ c ∧ c ≤ high := by
  by_cases hc : c < 0x80
  · have hfc := hf.low c hc
    have hout : ∀ d : UInt8, d < 0x80 → ¬ low ≤ d := by
      intro d hd hle
      exact absurd (UInt8.lt_of_lt_of_le hd (UInt8.le_trans hlow hle)) (UInt8.lt_irrefl d)
    exact ⟨fun h => absurd h.1 (hout _ hfc), fun h => absurd h.1 (hout _ hc)⟩
  · rw [hf.high c hc]

theorem tails_map (hf : AsciiOnly f) (n : Nat) (b : List UInt8) :
    tails n (b.map f) = tails n b := by
  induction n generalizing b with
  | zero => rfl
  | succ n ih =>
    cases b with
    | nil => rfl
    | cons c rest =>
      have hlow : (0x80 : UInt8) ≤ 0x80 := by decide
      simp only [map_cons, tails, ih, hf.between hlow]

theorem lead_low {surrogates : Bool} {a : UInt8} {l : Lead} (h : lead surrogates a = some l) :
    0x80 ≤ l.low := by
  unfold lead at h
  split_ifs at h <;> cases h <;> decide

theorem chunk_map (hf : AsciiOnly f) (surrogates : Bool) (a : UInt8) (rest : List UInt8) :
    chunk surrogates (f a) (rest.map f) = chunk surrogates a rest := by
  unfold chunk
  by_cases ha : a < 0x80
  · rw [if_pos ha, if_pos (hf.low a ha)]
  rw [hf.high a ha, if_neg ha, if_neg ha]
  cases hlead : lead surrogates a with
  | none => rfl
  | some l =>
    cases rest with
    | nil => rfl
    | cons c rest =>
      simp only [map_cons, leadChunk, tails_map hf, hf.between (lead_low hlead)]

theorem chunksUpTo_map (hf : AsciiOnly f) (surrogates : Bool) (fuel : Nat) (b : List UInt8) :
    chunksUpTo surrogates fuel (b.map f)
      = (chunksUpTo surrogates fuel b).map fun c => (c.1.map f, c.2) := by
  induction fuel generalizing b with
  | zero => rfl
  | succ fuel ih =>
    cases b with
    | nil => rfl
    | cons a rest =>
      rw [map_cons, chunksUpTo, chunk_map hf, chunksUpTo, map_cons, ← map_cons,
        ← map_take, ← map_drop, ih]

theorem valid_map (hf : AsciiOnly f) (surrogates : Bool) (b : List UInt8) :
    valid surrogates (b.map f) = valid surrogates b := by
  unfold valid chunks
  rw [length_map, chunksUpTo_map hf, all_map]
  rfl

/-- The characters a loop over a Go string sees, an octet that starts none as the replacement
character. -/
def runesUpTo : Nat → List UInt8 → List (List UInt8)
  | fuel + 1, a :: rest =>
    if (chunk false a rest).2 then
      (a :: rest).take (chunk false a rest).1
        :: runesUpTo fuel ((a :: rest).drop (chunk false a rest).1)
    else replacement :: runesUpTo fuel rest
  | _, _ => []

def runes (b : List UInt8) : List (List UInt8) := runesUpTo b.length b

theorem runesUpTo_of_valid (h : (chunksUpTo false fuel b).all snd = true) :
    runesUpTo fuel b = (chunksUpTo false fuel b).map fst := by
  induction fuel generalizing b with
  | zero => rfl
  | succ fuel ih =>
    cases b with
    | nil => rfl
    | cons a rest =>
      rw [chunksUpTo, all_cons, Bool.and_eq_true] at h
      rw [runesUpTo, if_pos h.1, ih h.2, chunksUpTo, map_cons]

theorem flatten_runes (h : valid false b = true) : (runes b).flatten = b := by
  rw [runes, runesUpTo_of_valid h, ← flatMap_def]
  exact flatMap_chunksUpTo false (Nat.le_refl _)

theorem isChar_of_mem_runesUpTo {p : List UInt8} (hp : p ∈ runesUpTo fuel b) : IsChar false p := by
  induction fuel generalizing b with
  | zero => cases hp
  | succ fuel ih =>
    cases b with
    | nil => cases hp
    | cons a rest =>
      rw [runesUpTo] at hp
      split_ifs at hp with h
      · rcases mem_cons.mp hp with rfl | hrest
        · exact isChar_take_chunk h
        · exact ih hrest
      · rcases mem_cons.mp hp with rfl | hrest
        · exact rfl
        · exact ih hrest

theorem high_of_tails {n : Nat} (h : tails n b = (b.length, true)) : ∀ o ∈ b, 0x80 ≤ o := by
  induction n generalizing b with
  | zero =>
    obtain rfl := length_eq_zero_iff.mp (congrArg fst h).symm
    simp
  | succ n ih =>
    cases b with
    | nil => simp
    | cons c rest =>
      rw [tails] at h
      split_ifs at h with hc
      · have hrest : tails n rest = (rest.length, true) :=
          Prod.ext (Nat.succ.inj (congrArg fst h)) (mk.inj h).2
        exact forall_mem_cons.mpr ⟨hc.1, ih hrest⟩
      · cases congrArg snd h

theorem IsChar.ascii_or_high {p : List UInt8} (h : IsChar surrogates p) :
    (∃ a, a < 0x80 ∧ p = [a]) ∨ ∀ o ∈ p, 0x80 ≤ o := by
  obtain _ | ⟨a, rest⟩ := p
  · exact h.elim
  rw [IsChar, chunk] at h
  split_ifs at h with ha
  · have hrest : rest.length = 0 := (Nat.succ.inj (congrArg fst h)).symm
    exact .inl ⟨a, ha, by rw [length_eq_zero_iff.mp hrest]⟩
  refine .inr (forall_mem_cons.mpr ⟨UInt8.not_lt.mp ha, ?_⟩)
  split at h
  · cases congrArg snd h
  next l hlead =>
    obtain _ | ⟨c, rest⟩ := rest
    · simp
    rw [leadChunk] at h
    split_ifs at h with hc
    · have hrest : tails l.more rest = (rest.length, true) :=
        Prod.ext (by simpa using congrArg fst h) (mk.inj h).2
      exact forall_mem_cons.mpr
        ⟨UInt8.le_trans (lead_low hlead) hc.1, high_of_tails hrest⟩
    · cases congrArg snd h

end Utf8
