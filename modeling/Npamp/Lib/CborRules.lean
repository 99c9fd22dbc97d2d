import Npamp.Lib.Cbor
import Mathlib.Data.List.Chain

/-!
# Rules for CBOR decoders

What an encoder writes is read back, and what a decoder accepts re-encodes to the octets it took, at
every dialect and by induction on the nesting levels left.
-/

namespace Cbor

open BigEndian List UInt64

variable {major : UInt8} {arg : UInt64}

/-! ### The initial octet -/

theorem uint8_forall {p : UInt8 → Prop} (h : ∀ n : Fin 256, p (UInt8.ofNat n.val)) (b : UInt8) :
    p b := by
  have hb := h ⟨b.toNat, b.toNat_lt⟩
  simpa using hb

theorem initial_octet_split (ib : UInt8) :
    (ib >>> 5) <<< 5 ||| (ib &&& 0x1f).toUInt64.toUInt8 = ib := by
  refine uint8_forall (p := fun ib => (ib >>> 5) <<< 5 ||| (ib &&& 0x1f).toUInt64.toUInt8 = ib) ?_ ib
  decide +kernel

variable {ib ai : UInt8} {b : List UInt8} {width : Nat}

theorem initial_octet_of_ai (hai : ib &&& 0x1f = ai) : (ib >>> 5) <<< 5 ||| ai = ib := by
  subst hai
  refine uint8_forall (p := fun ib => (ib >>> 5) <<< 5 ||| (ib &&& 0x1f) = ib) ?_ ib
  decide +kernel

theorem major_ai_of_initial_octet (hmajor : major < 8) (hai : ai < 32) :
    (major <<< 5 ||| ai) >>> 5 = major ∧ (major <<< 5 ||| ai) &&& 0x1f = ai := by
  have key : ∀ (m : Fin 8) (a : Fin 32),
      (UInt8.ofNat m.val <<< 5 ||| UInt8.ofNat a.val) >>> 5 = UInt8.ofNat m.val
        ∧ (UInt8.ofNat m.val <<< 5 ||| UInt8.ofNat a.val) &&& 0x1f = UInt8.ofNat a.val := by
    decide +kernel
  have h := key ⟨major.toNat, by simpa using UInt8.lt_iff_toNat_lt.mp hmajor⟩
    ⟨ai.toNat, by simpa using UInt8.lt_iff_toNat_lt.mp hai⟩
  simpa using h

theorem initial_octet_of_simple (hmajor : ib >>> 5 = 7) (hai : ib &&& 0x1f = ai) :
    ib = (7 : UInt8) <<< 5 ||| ai := by
  rw [← hmajor, initial_octet_of_ai hai]

/-! ### Wide arguments -/

theorem toNat_ofNat_ofBytes (h : b.length ≤ 8) :
    (ofNat (ofBytes b)).toNat = ofBytes b := by
  have hlt : ofBytes b < 2 ^ 64 := by
    calc ofBytes b < 256 ^ b.length := ofBytes_lt b
      _ ≤ 256 ^ 8 := Nat.pow_le_pow_right (by decide) h
      _ = 2 ^ 64 := by norm_num
  simpa using Nat.mod_eq_of_lt hlt

theorem length_slice_wide (h : ¬ b.length < width + 1) :
    ((b.take (width + 1)).drop 1).length = width := by
  simp only [length_drop, length_take]
  omega

theorem readWide_eq_ok {bound : Nat} {n : Nat} (hwidth : width ≤ 8)
    (h : readWide width bound b = .ok (arg, n)) :
    n = width + 1 ∧ n ≤ b.length ∧ bound ≤ arg.toNat ∧ arg.toNat < 256 ^ width
      ∧ toBytes width arg.toNat = (b.take (width + 1)).drop 1 := by
  unfold readWide at h
  split at h
  · cases h
  rename_i hlength
  split at h
  · cases h
  rename_i hbound
  cases h
  have hslice := length_slice_wide hlength
  have hvalue := toNat_ofNat_ofBytes (b := (b.take (width + 1)).drop 1) (by omega)
  refine ⟨rfl, by omega, by omega, ?_, ?_⟩
  · rw [hvalue]
    calc ofBytes ((b.take (width + 1)).drop 1)
        < 256 ^ ((b.take (width + 1)).drop 1).length := ofBytes_lt _
      _ = 256 ^ width := by rw [hslice]
  · rw [hvalue]
    have hround := toBytes_ofBytes ((b.take (width + 1)).drop 1)
    rwa [hslice] at hround

theorem readWide_toBytes {bound : Nat} {rest : List UInt8}
    (hbound : bound ≤ arg.toNat) (hlt : arg.toNat < 256 ^ width) :
    readWide width bound (ib :: toBytes width arg.toNat ++ rest) = .ok (arg, width + 1) := by
  have hslice : ((ib :: toBytes width arg.toNat ++ rest).take (width + 1)).drop 1
      = toBytes width arg.toNat := by
    rw [cons_append, take_succ_cons, drop_succ_cons, drop_zero,
      take_left' (length_toBytes _ _)]
  have hvalue : ofBytes (toBytes width arg.toNat) = arg.toNat :=
    ofBytes_toBytes_of_lt hlt
  unfold readWide
  rw [hslice, hvalue, if_neg (by simp), if_neg (by omega), UInt64.ofNat_toNat]

/-- The four wide forms of an argument: its width in octets, the least argument that needs it, and
the additional information that announces it. -/
inductive WideForm : Nat → Nat → UInt8 → Prop
  | octet : WideForm 1 24 24
  | double : WideForm 2 (2 ^ 8) 25
  | quad : WideForm 4 (2 ^ 16) 26
  | octuple : WideForm 8 (2 ^ 32) 27

namespace WideForm

variable {width bound : Nat} {ai : UInt8}

theorem width_le (h : WideForm width bound ai) : width ≤ 8 := by cases h <;> decide

theorem ai_lt (h : WideForm width bound ai) : ai < 32 := by cases h <;> decide

theorem readArg_eq (h : WideForm width bound ai) (b : List UInt8) :
    readArg ai b = readWide width bound b := by
  cases h <;> rfl

theorem head_eq (h : WideForm width bound ai)
    (hbound : bound ≤ arg.toNat) (hlt : arg.toNat < 256 ^ width) :
    head major arg = (major <<< 5 ||| ai) :: toBytes width arg.toNat := by
  have h24 : ¬ arg < 24 := by
    have hle : 24 ≤ bound := by cases h <;> decide
    rw [lt_iff_toNat_lt, Nat.not_lt]
    exact hle.trans hbound
  cases h with
  | octet => simp only [head, if_neg h24, if_pos (show arg.toNat < 2 ^ 8 by omega)]
  | double =>
    simp only [head, if_neg h24, if_neg (show ¬ arg.toNat < 2 ^ 8 by omega),
      if_pos (show arg.toNat < 2 ^ 16 by omega)]
  | quad =>
    simp only [head, if_neg h24, if_neg (show ¬ arg.toNat < 2 ^ 8 by omega),
      if_neg (show ¬ arg.toNat < 2 ^ 16 by omega), if_pos (show arg.toNat < 2 ^ 32 by omega)]
  | octuple =>
    simp only [head, if_neg h24, if_neg (show ¬ arg.toNat < 2 ^ 8 by omega),
      if_neg (show ¬ arg.toNat < 2 ^ 16 by omega), if_neg (show ¬ arg.toNat < 2 ^ 32 by omega)]

end WideForm

theorem lt_or_exists_wideForm (arg : UInt64) :
    arg < 24 ∨ ∃ width bound ai, WideForm width bound ai ∧ bound ≤ arg.toNat
      ∧ arg.toNat < 256 ^ width := by
  by_cases h24 : arg < 24
  · exact Or.inl h24
  right
  have hle : 24 ≤ arg.toNat := by
    rw [lt_iff_toNat_lt, Nat.not_lt] at h24
    exact h24
  have hlt := arg.toNat_lt
  by_cases h8 : arg.toNat < 2 ^ 8
  · exact ⟨1, 24, 24, .octet, hle, by omega⟩
  by_cases h16 : arg.toNat < 2 ^ 16
  · exact ⟨2, 2 ^ 8, 25, .double, by omega, by omega⟩
  by_cases h32 : arg.toNat < 2 ^ 32
  · exact ⟨4, 2 ^ 16, 26, .quad, by omega, by omega⟩
  · exact ⟨8, 2 ^ 32, 27, .octuple, by omega, by omega⟩

variable {arg : UInt64} {n : Nat}

theorem readArg_eq_ok_cases {ai : UInt8} {b : List UInt8} (h : readArg ai b = .ok (arg, n)) :
    (ai < 24 ∧ arg = ai.toUInt64 ∧ n = 1)
      ∨ ∃ width bound, WideForm width bound ai ∧ readWide width bound b = .ok (arg, n) := by
  by_cases hsmall : ai < 24
  · rw [readArg, if_pos hsmall] at h
    obtain ⟨harg, hn⟩ := Prod.mk.inj (Except.ok.inj h)
    exact Or.inl ⟨hsmall, harg.symm, hn.symm⟩
  · right
    by_cases h24 : ai = 24
    · subst h24
      exact ⟨1, 24, .octet, h⟩
    by_cases h25 : ai = 25
    · subst h25
      exact ⟨2, 2 ^ 8, .double, h⟩
    by_cases h26 : ai = 26
    · subst h26
      exact ⟨4, 2 ^ 16, .quad, h⟩
    by_cases h27 : ai = 27
    · subst h27
      exact ⟨8, 2 ^ 32, .octuple, h⟩
    rw [readArg, if_neg hsmall, if_neg h24, if_neg h25, if_neg h26, if_neg h27] at h
    split at h <;> cases h

/-! ### Headers -/

/-- **A header that was read is written as it was.** -/
theorem head_of_readArg {ib : UInt8} {tail : List UInt8}
    (h : readArg (ib &&& 0x1f) (ib :: tail) = .ok (arg, n)) :
    1 ≤ n ∧ n ≤ (ib :: tail).length ∧ head (ib >>> 5) arg = (ib :: tail).take n := by
  rcases readArg_eq_ok_cases h with ⟨hsmall, rfl, rfl⟩ | ⟨width, bound, hform, hwide⟩
  · refine ⟨le_rfl, by simp, ?_⟩
    have harg : (ib &&& 0x1f).toUInt64 < 24 := by
      simpa [lt_iff_toNat_lt, UInt8.lt_iff_toNat_lt] using hsmall
    simp only [head, if_pos harg, initial_octet_split]
    rfl
  · obtain ⟨rfl, hlen, hbound, hlt, hbytes⟩ := readWide_eq_ok hform.width_le hwide
    refine ⟨by omega, hlen, ?_⟩
    rw [hform.head_eq hbound hlt, initial_octet_of_ai rfl, hbytes, take_succ_cons,
      drop_succ_cons, drop_zero]

/-- **A header that was written is read back**, whatever octets follow it. -/
theorem readArg_head (hmajor : major < 8) (arg : UInt64) :
    ∃ ib tail, head major arg = ib :: tail ∧ ib >>> 5 = major
      ∧ ∀ rest, readArg (ib &&& 0x1f) (head major arg ++ rest)
        = .ok (arg, (head major arg).length) := by
  rcases lt_or_exists_wideForm arg with hsmall | ⟨width, bound, ai, hform, hbound, hlt⟩
  · have hnat : arg.toNat < 24 := by simpa [lt_iff_toNat_lt] using hsmall
    have hoctet : arg.toUInt8 < 32 := by
      rw [UInt8.lt_iff_toNat_lt, UInt64.toNat_toUInt8]
      exact lt_of_le_of_lt (Nat.mod_le _ _) (hnat.trans (by decide))
    obtain ⟨hshift, hmask⟩ := major_ai_of_initial_octet hmajor hoctet
    have hhead : head major arg = [major <<< 5 ||| arg.toUInt8] := by
      simp only [head, if_pos hsmall]
    refine ⟨_, [], hhead, hshift, fun rest => ?_⟩
    have hlt24 : arg.toUInt8 < 24 := by
      rw [UInt8.lt_iff_toNat_lt, UInt64.toNat_toUInt8]
      exact lt_of_le_of_lt (Nat.mod_le _ _) hnat
    have hback : arg.toUInt8.toUInt64 = arg := by
      apply UInt64.toNat_inj.mp
      rw [UInt8.toNat_toUInt64, UInt64.toNat_toUInt8]
      exact Nat.mod_eq_of_lt (by omega)
    rw [hmask, readArg, if_pos hlt24, hback, hhead]
    rfl
  · obtain ⟨hshift, hmask⟩ := major_ai_of_initial_octet hmajor hform.ai_lt
    have hhead : head major arg = _ := hform.head_eq hbound hlt
    refine ⟨_, _, hhead, hshift, fun rest => ?_⟩
    rw [hmask, hform.readArg_eq, hhead, readWide_toBytes hbound hlt]
    simp

theorem length_head_pos (major : UInt8) (arg : UInt64) : 1 ≤ (head major arg).length := by
  unfold head
  dsimp only
  split
  · simp
  split
  · simp
  · split
    · simp
    · split <;> simp

theorem head_injective (hmajor : major < 8) {left right : UInt64}
    (h : head major left = head major right) : left = right := by
  obtain ⟨ib, tail, hleft, -, hdecode⟩ := readArg_head hmajor left
  obtain ⟨ib', tail', hright, -, hdecode'⟩ := readArg_head hmajor right
  have hib : ib = ib' := by
    have := hleft.symm.trans (h.trans hright)
    exact (cons.inj this).1
  have hone := hdecode []
  rw [h, hib, hdecode' []] at hone
  exact (Prod.mk.inj (Except.ok.inj hone)).1.symm

/-! ### Negative integers

A negative 64-bit integer `t` is written with the argument `-1 - t`, which the range check of a
decoder admits, and read back from it. -/

theorem toInt_toInt64_of_le (harg : arg.toNat ≤ 2 ^ 63 - 1) : arg.toInt64.toInt = arg.toNat := by
  rw [← Int64.toInt_toBitVec, toBitVec_toInt64, BitVec.toInt_eq_toNat_of_lt]
  · rfl
  · show 2 * arg.toNat < 2 ^ 64
    omega

theorem toInt_neg_one_sub_toInt64 (harg : arg.toNat ≤ 2 ^ 63 - 1) :
    (-1 - arg.toInt64 : Int64).toInt = -1 - arg.toNat := by
  rw [Int64.toInt_sub, toInt_toInt64_of_le harg]
  show Int.bmod (-1 - arg.toNat) (2 ^ 64) = _
  rw [Int.bmod_eq_of_le] <;> omega

theorem neg_one_sub_toInt64_lt (harg : arg.toNat ≤ 2 ^ 63 - 1) :
    (-1 - arg.toInt64 : Int64) < 0 := by
  rw [Int64.lt_iff_toInt_lt, toInt_neg_one_sub_toInt64 harg]
  show (-1 - arg.toNat : Int) < 0
  omega

theorem neg_one_sub_neg_one_sub (t : Int64) : -1 - (-1 - t) = t := by
  apply Int64.toBitVec_inj.1
  simp only [Int64.toBitVec_sub]
  bv_omega

theorem toNat_neg_one_sub_le {t : Int64} (ht : t < 0) : (-1 - t).toUInt64.toNat ≤ 2 ^ 63 - 1 := by
  rw [Int64.lt_iff_toInt_lt] at ht
  change t.toInt < 0 at ht
  have hlow := t.le_toInt
  have hvalue : (-1 - t).toInt = -1 - t.toInt := by
    rw [Int64.toInt_sub]
    show Int.bmod (-1 - t.toInt) (2 ^ 64) = _
    rw [Int.bmod_eq_of_le] <;> omega
  have hcond := BitVec.toInt_eq_toNat_cond (-1 - t).toBitVec
  rw [Int64.toInt_toBitVec, hvalue] at hcond
  show (-1 - t).toBitVec.toNat ≤ _
  split at hcond <;> omega

theorem toNat_ofNat_length (h : n < 2 ^ 64) : (ofNat n).toNat = n := by
  rw [toNat_ofNat']
  exact Nat.mod_eq_of_lt h

variable {ε α ι : Type}

/-! ### Encoded items are read back -/

def Decodes (decode : List UInt8 → Except ε (α × Nat)) (enc : List UInt8) (v : α) : Prop :=
  ∀ rest, decode (enc ++ rest) = .ok (v, enc.length)

theorem decodeItems_flatMap {decode : List UInt8 → Except ε (α × Nat)} {items : List ι}
    {enc : ι → List UInt8} {val : ι → α} (h : ∀ i ∈ items, Decodes decode (enc i) (val i))
    (rest : List UInt8) : decodeItems decode items.length (items.flatMap enc ++ rest)
      = .ok (items.map val, (items.flatMap enc).length) := by
  induction items with
  | nil => rfl
  | cons i items ih =>
    have hitem := h i mem_cons_self (items.flatMap enc ++ rest)
    have hrest := ih fun j hj => h j (mem_cons_of_mem _ hj)
    rw [flatMap_cons, append_assoc, length_cons, decodeItems, hitem]
    simp only [drop_left, hrest, map_cons, length_append]

namespace Dialect

variable (D : Dialect ε α)

variable {items : List ι} {enc : ι → List UInt8} {val : ι → α} {v : α} {levels : Nat}

theorem decodeEntries_flatMap {decode : List UInt8 → Except ε (α × Nat)} {keyEnc : ι → List UInt8}
    {key : ι → α} (hkeys : ∀ i ∈ items, Decodes decode (keyEnc i) (key i))
    (hvals : ∀ i ∈ items, Decodes decode (enc i) (val i))
    (hchain : items.IsChain fun i j => D.less (keyEnc i) (keyEnc j) = true)
    (prev : Option (List UInt8)) (hprev : ∀ i ∈ items.head?, D.follows prev (keyEnc i) = true)
    (rest : List UInt8) :
    D.decodeEntries decode items.length prev (items.flatMap (fun i => keyEnc i ++ enc i) ++ rest)
      = .ok (items.map fun i => ⟨keyEnc i, key i, val i⟩,
          (items.flatMap fun i => keyEnc i ++ enc i).length) := by
  induction items generalizing prev with
  | nil => rfl
  | cons i items ih =>
    obtain ⟨hnext, hchain⟩ := isChain_cons.mp hchain
    set tail := items.flatMap (fun i => keyEnc i ++ enc i) ++ rest with htail
    have hkey := hkeys i mem_cons_self (enc i ++ tail)
    have hval := hvals i mem_cons_self tail
    have hrest := ih (fun j hj => hkeys j (mem_cons_of_mem _ hj))
      (fun j hj => hvals j (mem_cons_of_mem _ hj)) hchain (some (keyEnc i)) hnext
    have hsplit : (i :: items).flatMap (fun i => keyEnc i ++ enc i) ++ rest
        = keyEnc i ++ (enc i ++ tail) := by
      rw [flatMap_cons, htail]
      simp only [append_assoc]
    have hdrop : (keyEnc i ++ (enc i ++ tail)).drop ((keyEnc i).length + (enc i).length)
        = tail := by
      rw [← append_assoc, ← length_append, drop_left]
    rw [hsplit, length_cons, decodeEntries, hkey]
    simp only [take_left, hprev i rfl, Bool.true_eq_false, if_false, drop_left, hval,
      hdrop, hrest, map_cons, flatMap_cons, length_append]

theorem decode_head (hmajor : major < 7) (arg : UInt64) (levels : Nat)
    (rest : List UInt8) : D.decode (levels + 1) (head major arg ++ rest)
      = D.decodeBody (D.decode levels) major (head major arg ++ rest) arg
          (head major arg).length := by
  have h8 : major < 8 := UInt8.lt_trans hmajor (by decide)
  obtain ⟨ib, tail, hhead, hib, hdecode⟩ := readArg_head h8 arg
  have h7 : major ≠ 7 := by
    rintro rfl
    exact absurd hmajor (by decide)
  have harg := hdecode rest
  rw [hhead, cons_append] at harg ⊢
  simp only [decode, hib, if_neg h7, harg]

theorem decodes_uint (levels : Nat) (arg : UInt64) :
    Decodes (D.decode (levels + 1)) (head 0 arg) (D.uint arg) := by
  intro rest
  rw [D.decode_head (by decide)]
  rfl

theorem decodes_nint (levels : Nat) (h : D.nint arg = .ok v) :
    Decodes (D.decode (levels + 1)) (head 1 arg) v := by
  intro rest
  rw [D.decode_head (by decide), decodeBody, if_neg (by decide), if_pos rfl, h]

theorem take_drop_payload (hd payload rest : List UInt8) :
    ((hd ++ (payload ++ rest)).take (hd.length + payload.length)).drop hd.length = payload := by
  rw [← append_assoc, ← length_append, take_left, drop_left]

theorem decodes_bytes (levels : Nat) {payload : List UInt8} (hlength : payload.length < 2 ^ 64) :
    Decodes (D.decode (levels + 1)) (head 2 (ofNat payload.length) ++ payload)
      (D.bytes payload) := by
  intro rest
  rw [append_assoc, D.decode_head (by decide), decodeBody, if_neg (by decide),
    if_neg (by decide), if_pos rfl, toNat_ofNat_length hlength,
    if_neg (by simp only [length_append]; omega), take_drop_payload, length_append]

theorem decodes_text (levels : Nat) {payload : List UInt8} (hlength : payload.length < 2 ^ 64)
    (h : D.text payload = .ok v) :
    Decodes (D.decode (levels + 1)) (head 3 (ofNat payload.length) ++ payload) v := by
  intro rest
  rw [append_assoc, D.decode_head (by decide), decodeBody, if_neg (by decide),
    if_neg (by decide), if_neg (by decide), if_pos rfl, toNat_ofNat_length hlength,
    if_neg (by simp only [length_append]; omega), take_drop_payload, h, length_append]

theorem length_le_length_flatMap (h : ∀ i ∈ items, 1 ≤ (enc i).length) :
    items.length ≤ (items.flatMap enc).length := by
  induction items with
  | nil => simp
  | cons i items ih =>
    have hi := h i mem_cons_self
    have hrest := ih fun j hj => h j (mem_cons_of_mem _ hj)
    rw [flatMap_cons, length_append, length_cons]
    omega

theorem one_le_of_decodes {enc : List UInt8} (h : Decodes (D.decode levels) enc v) :
    1 ≤ enc.length := by
  cases enc with
  | nil =>
    have hnil := h []
    cases levels <;> cases hnil
  | cons a rest => simp

theorem decodes_array (hlength : items.length < 2 ^ 64)
    (h : ∀ i ∈ items, Decodes (D.decode levels) (enc i) (val i)) :
    Decodes (D.decode (levels + 1)) (head 4 (ofNat items.length) ++ items.flatMap enc)
      (D.array (items.map val)) := by
  intro rest
  have hcount := length_le_length_flatMap fun i hi => D.one_le_of_decodes (h i hi)
  rw [append_assoc, D.decode_head (by decide), decodeBody, if_neg (by decide),
    if_neg (by decide), if_neg (by decide), if_neg (by decide), if_pos rfl,
    toNat_ofNat_length hlength, if_neg (by simp only [length_append]; omega), drop_left,
    decodeItems_flatMap h]
  simp only [length_append]

theorem decodes_map {keyEnc : ι → List UInt8} {key : ι → α} (hlength : items.length < 2 ^ 64)
    (hkeys : ∀ i ∈ items, Decodes (D.decode levels) (keyEnc i) (key i))
    (hvals : ∀ i ∈ items, Decodes (D.decode levels) (enc i) (val i))
    (hchain : items.IsChain fun i j => D.less (keyEnc i) (keyEnc j) = true) :
    Decodes (D.decode (levels + 1))
      (head 5 (ofNat items.length) ++ items.flatMap fun i => keyEnc i ++ enc i)
      (D.map (items.map fun i => ⟨keyEnc i, key i, val i⟩)) := by
  intro rest
  have hcount : items.length ≤ (items.flatMap fun i => keyEnc i ++ enc i).length := by
    refine length_le_length_flatMap fun i hi => ?_
    rw [length_append]
    exact (D.one_le_of_decodes (hkeys i hi)).trans (Nat.le_add_right _ _)
  rw [append_assoc, D.decode_head (by decide), decodeBody, if_neg (by decide),
    if_neg (by decide), if_neg (by decide), if_neg (by decide), if_neg (by decide), if_pos rfl,
    toNat_ofNat_length hlength, if_neg (by simp only [length_append]; omega), drop_left,
    D.decodeEntries_flatMap hkeys hvals hchain none fun _ _ => rfl]
  simp only [length_append]

theorem decodes_bool (levels : Nat) (b : Bool) :
    Decodes (D.decode (levels + 1)) [if b then 0xf5 else 0xf4] (D.bool b) := by
  intro rest
  cases b <;> rfl

theorem decodes_null (levels : Nat) : Decodes (D.decode (levels + 1)) [0xf6] D.null :=
  fun _ => rfl

theorem decodeTop_of_decodes {enc : List UInt8} (h : Decodes (D.decode levels) enc v) :
    D.decodeTop levels enc = .ok v := by
  have hdecode := h []
  rw [append_nil] at hdecode
  rw [decodeTop, hdecode]
  exact if_neg (not_not.mpr rfl)

end Dialect

/-! ### The grammar of a decoder -/

namespace Dialect

variable (D : Dialect ε α)

/-- The octets of an item of at most `levels` nested levels, and its value. Every text string in it
is one `okText` holds of. -/
inductive Reads (okText : List UInt8 → Prop) : Nat → List UInt8 → α → Prop
  | uint (levels : Nat) (arg : UInt64) : Reads okText (levels + 1) (head 0 arg) (D.uint arg)
  | nint (levels : Nat) {arg : UInt64} {v : α} (h : D.nint arg = .ok v) :
      Reads okText (levels + 1) (head 1 arg) v
  | bytes (levels : Nat) {b : List UInt8} (hlength : b.length < 2 ^ 64) :
      Reads okText (levels + 1) (head 2 (ofNat b.length) ++ b) (D.bytes b)
  | text (levels : Nat) {b : List UInt8} {v : α} (hlength : b.length < 2 ^ 64) (hok : okText b)
      (h : D.text b = .ok v) : Reads okText (levels + 1) (head 3 (ofNat b.length) ++ b) v
  | array {levels : Nat} {items : List (List UInt8 × α)} (hlength : items.length < 2 ^ 64)
      (h : ∀ i ∈ items, Reads okText levels i.1 i.2) :
      Reads okText (levels + 1) (head 4 (ofNat items.length) ++ items.flatMap Prod.fst)
        (D.array (items.map Prod.snd))
  | map {levels : Nat} {entries : List (Entry α × List UInt8)} (hlength : entries.length < 2 ^ 64)
      (hchain : entries.IsChain fun e e' => D.less e.1.octets e'.1.octets = true)
      (hkey : ∀ e ∈ entries, Reads okText levels e.1.octets e.1.key)
      (hval : ∀ e ∈ entries, Reads okText levels e.2 e.1.val) :
      Reads okText (levels + 1)
        (head 5 (ofNat entries.length) ++ entries.flatMap fun e => e.1.octets ++ e.2)
        (D.map (entries.map Prod.fst))
  | bool (levels : Nat) (b : Bool) :
      Reads okText (levels + 1) [if b then 0xf5 else 0xf4] (D.bool b)
  | null (levels : Nat) : Reads okText (levels + 1) [0xf6] D.null

/-- `enc` writes each of the dialect's values with its header. Text is written as it was read where
`okText` holds of its octets. -/
structure Encoder (enc : α → List UInt8) (okText : List UInt8 → Prop) : Prop where
  uint (arg : UInt64) : enc (D.uint arg) = head 0 arg
  nint {arg : UInt64} {v : α} (h : D.nint arg = .ok v) : enc v = head 1 arg
  bytes (b : List UInt8) : enc (D.bytes b) = head 2 (ofNat b.length) ++ b
  text {b : List UInt8} {v : α} (hb : okText b) (h : D.text b = .ok v) :
    enc v = head 3 (ofNat b.length) ++ b
  array (items : List α) :
    enc (D.array items) = head 4 (ofNat items.length) ++ items.flatMap enc
  map {entries : List (Entry α)} (h : ∀ e ∈ entries, enc e.key = e.octets) :
    enc (D.map entries) = head 5 (ofNat entries.length)
      ++ entries.flatMap fun e => e.octets ++ enc e.val
  bool (b : Bool) : enc (D.bool b) = [if b then 0xf5 else 0xf4]
  null : enc D.null = [0xf6]

/-- `V` holds of every value the dialect builds from values it holds of. The entries of a map are in
the order of their octets, and `K` relates each key to its own. -/
structure Invariant (K : α → List UInt8 → Prop) (V : α → Prop) : Prop where
  uint (arg : UInt64) : V (D.uint arg)
  nint {arg : UInt64} {v : α} (h : D.nint arg = .ok v) : V v
  bytes (b : List UInt8) : V (D.bytes b)
  text {b : List UInt8} {v : α} (h : D.text b = .ok v) : V v
  array {items : List α} (h : ∀ v ∈ items, V v) : V (D.array items)
  map {entries : List (Entry α)} (hlength : entries.length < 2 ^ 64)
    (hchain : entries.IsChain fun e e' => D.less e.octets e'.octets = true)
    (h : ∀ e ∈ entries, K e.key e.octets ∧ V e.key ∧ V e.val) : V (D.map entries)
  bool (b : Bool) : V (D.bool b)
  null : V D.null

variable {D} {enc : α → List UInt8} {okText : List UInt8 → Prop} {K : α → List UInt8 → Prop}
  {V : α → Prop} {levels : Nat} {octets : List UInt8} {v : α}

namespace Reads

theorem decodes (h : D.Reads okText levels octets v) : Decodes (D.decode levels) octets v := by
  induction h with
  | uint levels arg => exact D.decodes_uint levels arg
  | nint levels h => exact D.decodes_nint levels h
  | bytes levels hlength => exact D.decodes_bytes levels hlength
  | text levels hlength _ h => exact D.decodes_text levels hlength h
  | array hlength _ ih => exact D.decodes_array hlength ih
  | map hlength hchain _ _ hkey hval => exact D.decodes_map hlength hkey hval hchain
  | bool levels b => exact D.decodes_bool levels b
  | null levels => exact D.decodes_null levels

theorem decode_eq (h : D.Reads okText levels octets v) :
    D.decode levels octets = .ok (v, octets.length) := by
  have hdecode := h.decodes []
  rwa [append_nil] at hdecode

theorem encode_eq (hD : D.Encoder enc okText) (h : D.Reads okText levels octets v) :
    enc v = octets := by
  induction h with
  | uint _ arg => exact hD.uint arg
  | nint _ h => exact hD.nint h
  | bytes _ _ => exact hD.bytes _
  | text _ _ hok h => exact hD.text hok h
  | array _ _ ih =>
    rw [hD.array, length_map, flatMap_map, flatMap_congr ih]
  | map _ _ _ _ hkey hval =>
    rw [hD.map (forall_mem_map.mpr hkey), length_map, flatMap_map]
    congr 1
    exact flatMap_congr fun e he => by rw [hval e he]
  | bool _ b => exact hD.bool b
  | null _ => exact hD.null

theorem invariant (hV : D.Invariant K V)
    (hK : ∀ levels octets v, D.Reads okText levels octets v → K v octets)
    (h : D.Reads okText levels octets v) : V v := by
  induction h with
  | uint _ arg => exact hV.uint arg
  | nint _ h => exact hV.nint h
  | bytes _ _ => exact hV.bytes _
  | text _ _ _ h => exact hV.text h
  | array _ _ ih => exact hV.array (forall_mem_map.mpr ih)
  | map hlength hchain hkeys _ hkey hval =>
    refine hV.map (by rwa [length_map]) ((isChain_map _).mpr hchain) ?_
    exact forall_mem_map.mpr fun e he => ⟨hK _ _ _ (hkeys e he), hkey e he, hval e he⟩
  | bool _ b => exact hV.bool b
  | null _ => exact hV.null

end Reads

/-! ### What is decoded is in the grammar -/

def TextsOk (okText : List UInt8 → Prop) (read : List Visit) : Prop :=
  ∀ payload, Visit.text payload ∈ read → okText payload

theorem TextsOk.left {xs ys : List Visit} (h : TextsOk okText (xs ++ ys)) : TextsOk okText xs :=
  fun payload hmem => h payload (mem_append_left _ hmem)

theorem TextsOk.right {xs ys : List Visit} (h : TextsOk okText (xs ++ ys)) : TextsOk okText ys :=
  fun payload hmem => h payload (mem_append_right _ hmem)

theorem TextsOk.tail {x : Visit} {ys : List Visit} (h : TextsOk okText (x :: ys)) :
    TextsOk okText ys :=
  fun payload hmem => h payload (mem_cons_of_mem _ hmem)

section Loops

variable {decode : List UInt8 → Except ε (α × Nat)} {visits : List UInt8 → List Visit}
  {T : List UInt8 → α → Prop}
  (hread : ∀ b v n, TextsOk okText (visits b) → decode b = .ok (v, n) →
    n ≤ b.length ∧ T (b.take n) v)
include hread

theorem parts_of_decodeItems {count : Nat} {b : List UInt8} {items : List α} {n : Nat}
    (htexts : TextsOk okText (visitItems decode visits count b))
    (h : decodeItems decode count b = .ok (items, n)) :
    n ≤ b.length ∧ ∃ parts : List (List UInt8 × α), parts.length = count
      ∧ parts.map Prod.snd = items ∧ parts.flatMap Prod.fst = b.take n
      ∧ ∀ i ∈ parts, T i.1 i.2 := by
  induction count generalizing b items n with
  | zero =>
    cases h
    exact ⟨Nat.zero_le _, [], rfl, rfl, rfl, fun _ hi => absurd hi not_mem_nil⟩
  | succ count ih =>
    rw [visitItems] at htexts
    rw [decodeItems] at h
    cases hel : decode b with
    | error e => rw [hel] at h; cases h
    | ok r =>
      obtain ⟨el, en⟩ := r
      rw [hel] at h htexts
      obtain ⟨hen, hT⟩ := hread b el en htexts.left hel
      dsimp only at h
      split at h
      · cases h
      rename_i rest m hrest
      cases h
      obtain ⟨hm, parts, hcount, hvals, hocts, hparts⟩ := ih htexts.right hrest
      rw [length_drop] at hm
      refine ⟨by omega, (b.take en, el) :: parts, congrArg (· + 1) hcount,
        congrArg (el :: ·) hvals, ?_, forall_mem_cons.mpr ⟨hT, hparts⟩⟩
      rw [flatMap_cons, hocts, take_add]

theorem parts_of_decodeEntries {count : Nat} {prev : Option (List UInt8)} {b : List UInt8}
    {entries : List (Entry α)} {n : Nat}
    (htexts : TextsOk okText (D.visitEntries decode visits count prev b))
    (h : D.decodeEntries decode count prev b = .ok (entries, n)) :
    n ≤ b.length ∧ ∃ parts : List (Entry α × List UInt8), parts.length = count
      ∧ parts.map Prod.fst = entries ∧ (parts.flatMap fun e => e.1.octets ++ e.2) = b.take n
      ∧ (∀ e ∈ parts.head?, D.follows prev e.1.octets = true)
      ∧ (parts.IsChain fun e e' => D.less e.1.octets e'.1.octets = true)
      ∧ ∀ e ∈ parts, T e.1.octets e.1.key ∧ T e.2 e.1.val := by
  induction count generalizing prev b entries n with
  | zero =>
    cases h
    exact ⟨Nat.zero_le _, [], rfl, rfl, rfl, by rintro e ⟨⟩, .nil, by rintro e ⟨⟩⟩
  | succ count ih =>
    rw [visitEntries] at htexts
    rw [decodeEntries] at h
    cases hkey : decode b with
    | error e => rw [hkey] at h; cases h
    | ok r =>
      obtain ⟨key, kn⟩ := r
      rw [hkey] at h htexts
      obtain ⟨hkn, hTkey⟩ := hread b key kn htexts.left hkey
      have htexts' := htexts.right.tail
      dsimp only at h
      split at h
      · cases h
      rename_i hfollows
      rw [if_neg hfollows] at htexts'
      cases hval : decode (b.drop kn) with
      | error e => rw [hval] at h; cases h
      | ok r =>
        obtain ⟨val, vn⟩ := r
        rw [hval] at h htexts'
        obtain ⟨hvn, hTval⟩ := hread _ val vn htexts'.left hval
        dsimp only at h
        split at h
        · cases h
        rename_i rest m hrest
        cases h
        obtain ⟨hm, parts, hcount, hvals, hocts, hfirst, hchain, hparts⟩ :=
          ih htexts'.right hrest
        rw [length_drop] at hm hvn
        refine ⟨by omega, (⟨b.take kn, key, val⟩, (b.drop kn).take vn) :: parts,
          congrArg (· + 1) hcount, congrArg (_ :: ·) hvals, ?_, ?_,
          isChain_cons.mpr ⟨hfirst, hchain⟩,
          forall_mem_cons.mpr ⟨⟨hTkey, hTval⟩, hparts⟩⟩
        · rw [flatMap_cons, hocts, take_add, take_add]
        · rintro e ⟨⟩
          exact Bool.eq_true_of_not_eq_false hfollows

end Loops

variable {b : List UInt8} {n : Nat}

theorem length_payload (hend : ¬ n + arg.toNat > b.length) :
    ((b.take (n + arg.toNat)).drop n).length = arg.toNat := by
  simp only [length_drop, length_take]
  omega

theorem reads_of_decodeBody
    (hread : ∀ b v n, TextsOk okText (D.visits levels b) → D.decode levels b = .ok (v, n) →
      n ≤ b.length ∧ D.Reads okText levels (b.take n) v)
    {total : Nat} (hn : n ≤ b.length) (hhead : head major arg = b.take n)
    (htexts : TextsOk okText (D.visitBody (D.decode levels) (D.visits levels) major b arg n))
    (h : D.decodeBody (D.decode levels) major b arg n = .ok (v, total)) :
    total ≤ b.length ∧ D.Reads okText (levels + 1) (b.take total) v := by
  -- a string is its header and the octets the header counts
  have hpayload : head major arg ++ (b.take (n + arg.toNat)).drop n = b.take (n + arg.toNat) := by
    rw [hhead, drop_take, Nat.add_sub_cancel_left, ← take_add]
  unfold decodeBody at h
  by_cases h0 : major = 0
  · subst h0
    cases h
    exact ⟨hn, hhead ▸ .uint levels arg⟩
  rw [if_neg h0] at h
  by_cases h1 : major = 1
  · subst h1
    rw [if_pos rfl] at h
    cases hnint : D.nint arg with
    | error e => rw [hnint] at h; cases h
    | ok w =>
      rw [hnint] at h
      cases h
      exact ⟨hn, hhead ▸ .nint levels hnint⟩
  rw [if_neg h1] at h
  by_cases h2 : major = 2
  · subst h2
    rw [if_pos rfl] at h
    split at h
    · cases h
    rename_i hend
    cases h
    have hlength := length_payload hend
    have hreads : D.Reads okText (levels + 1) _ _ := .bytes levels (hlength.trans_lt arg.toNat_lt)
    rw [hlength, UInt64.ofNat_toNat, hpayload] at hreads
    exact ⟨Nat.le_of_not_lt hend, hreads⟩
  rw [if_neg h2] at h
  by_cases h3 : major = 3
  · subst h3
    rw [if_pos rfl] at h
    split at h
    · cases h
    rename_i hend
    cases htext : D.text ((b.take (n + arg.toNat)).drop n) with
    | error e => rw [htext] at h; cases h
    | ok w =>
      rw [htext] at h
      cases h
      have hok : okText ((b.take (n + arg.toNat)).drop n) := by
        refine htexts _ ?_
        rw [visitBody, if_neg (by decide), if_pos rfl, if_neg hend]
        exact mem_singleton_self _
      have hlength := length_payload hend
      have hreads : D.Reads okText (levels + 1) _ _ :=
        .text levels (hlength.trans_lt arg.toNat_lt) hok htext
      rw [hlength, UInt64.ofNat_toNat, hpayload] at hreads
      exact ⟨Nat.le_of_not_lt hend, hreads⟩
  rw [if_neg h3] at h
  by_cases h4 : major = 4
  · subst h4
    rw [if_pos rfl] at h
    split at h
    · cases h
    rename_i hcount
    rw [visitBody, if_neg (by decide), if_neg (by decide), if_pos rfl, if_neg hcount] at htexts
    split at h
    · cases h
    rename_i items m hitems
    cases h
    obtain ⟨hm, parts, hlength, rfl, hocts, hparts⟩ := parts_of_decodeItems hread htexts hitems
    have hreads : D.Reads okText (levels + 1) _ _ :=
      .array (hlength.trans_lt arg.toNat_lt) hparts
    rw [hlength, UInt64.ofNat_toNat, hocts, hhead, ← take_add] at hreads
    rw [length_drop] at hm
    exact ⟨by omega, hreads⟩
  rw [if_neg h4] at h
  by_cases h5 : major = 5
  · subst h5
    rw [if_pos rfl] at h
    split at h
    · cases h
    rename_i hcount
    rw [visitBody, if_neg (by decide), if_neg (by decide), if_neg (by decide), if_pos rfl,
      if_neg hcount] at htexts
    split at h
    · cases h
    rename_i entries m hentries
    cases h
    obtain ⟨hm, parts, hlength, rfl, hocts, -, hchain, hparts⟩ :=
      parts_of_decodeEntries hread htexts hentries
    have hreads : D.Reads okText (levels + 1) _ _ := .map (hlength.trans_lt arg.toNat_lt) hchain
      (fun e he => (hparts e he).1) fun e he => (hparts e he).2
    rw [hlength, UInt64.ofNat_toNat, hocts, hhead, ← take_add] at hreads
    rw [length_drop] at hm
    exact ⟨by omega, hreads⟩
  rw [if_neg h5] at h
  cases h

theorem reads_of_decodeSimple {ib : UInt8} (hmajor : ib >>> 5 = 7)
    (h : D.decodeSimple (ib &&& 0x1f) = .ok (v, n)) :
    n = 1 ∧ D.Reads okText (levels + 1) [ib] v := by
  unfold decodeSimple at h
  split at h
  · rename_i hai
    cases h
    exact ⟨rfl, initial_octet_of_simple hmajor hai ▸ .bool levels false⟩
  · split at h
    · rename_i hai
      cases h
      exact ⟨rfl, initial_octet_of_simple hmajor hai ▸ .bool levels true⟩
    · split at h
      · rename_i hai
        cases h
        exact ⟨rfl, initial_octet_of_simple hmajor hai ▸ .null levels⟩
      · cases h

/-- **A decoder accepts only what is in its grammar.** -/
theorem reads_of_decode (levels : Nat) :
    ∀ b v n, TextsOk okText (D.visits levels b) → D.decode levels b = .ok (v, n) →
      n ≤ b.length ∧ D.Reads okText levels (b.take n) v := by
  induction levels with
  | zero => intro b v n _ h; cases h
  | succ levels ih =>
    intro b v n htexts h
    cases b with
    | nil => cases h
    | cons ib tail =>
      rw [decode] at h
      rw [visits] at htexts
      by_cases hmajor : ib >>> 5 = 7
      · rw [if_pos hmajor] at h
        obtain ⟨rfl, hreads⟩ := reads_of_decodeSimple hmajor h
        exact ⟨Nat.succ_le_succ (Nat.zero_le _), hreads⟩
      · rw [if_neg hmajor] at h htexts
        cases harg : readArg (ib &&& 0x1f) (ib :: tail) with
        | error f => rw [harg] at h; cases h
        | ok r =>
          obtain ⟨arg, m⟩ := r
          rw [harg] at h htexts
          obtain ⟨-, hm, hhead⟩ := head_of_readArg harg
          exact reads_of_decodeBody ih hm hhead htexts h

theorem reads_of_decodeTop (htexts : TextsOk okText (D.visits levels b))
    (h : D.decodeTop levels b = .ok v) : D.Reads okText levels b v := by
  unfold decodeTop at h
  split at h
  · cases h
  rename_i w n hdecode
  split at h
  · cases h
  rename_i hn
  obtain rfl := Except.ok.inj h
  have hreads := (reads_of_decode levels b w n htexts hdecode).2
  rwa [not_not.mp hn, take_length] at hreads

theorem encode_of_decodeTop (hD : D.Encoder enc okText)
    (htexts : TextsOk okText (D.visits levels b)) (h : D.decodeTop levels b = .ok v) : enc v = b :=
  (reads_of_decodeTop htexts h).encode_eq hD

theorem invariant_decodeTop (hV : D.Invariant K V)
    (hK : ∀ levels octets v, D.Reads (fun _ => True) levels octets v → K v octets)
    (h : D.decodeTop levels b = .ok v) : V v :=
  (reads_of_decodeTop (fun _ _ => trivial) h).invariant hV hK

end Dialect

end Cbor
