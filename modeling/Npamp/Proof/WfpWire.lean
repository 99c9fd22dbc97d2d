import Npamp.Mesh.WfpWire

/-!
# Streams of callout records

Every access lies in the header that was checked first, or is made after the check that the note
fills the frame.
-/

namespace Npamp.Mesh.Wfp

open List

variable {α β : Type} {buf pre r b : Bytes} {lo n : Nat} {rec : WfpCalloutRecord}

@[simp]
theorem ok_bind (a : α) (f : α → Except Stop β) : (Except.ok a >>= f) = f a := rfl

@[simp]
theorem length_toLe (width value : Nat) : (toLe width value).length = width := by simp [toLe]

theorem fromLe_toLe {width value : Nat} (h : value < 256 ^ width) :
    fromLe (toLe width value) = value := by
  rw [fromLe, toLe, reverse_reverse, BigEndian.ofBytes_toBytes_of_lt h]

@[simp]
theorem length_addr16 (ip : IpAddr) : (addr16 ip).length = 16 := by
  cases ip with
  | v4 octets => simp [addr16, octets.property]
  | v6 octets => exact octets.property

theorem slice_append_right (h : pre.length ≤ lo) (hi : Nat) :
    slice (pre ++ r) lo hi = slice r (lo - pre.length) (hi - pre.length) := by
  rw [slice, take_append, drop_append, slice, drop_eq_nil_of_le, nil_append]
  · rw [length_take]
    by_cases hhi : pre.length ≤ hi
    · rw [Nat.min_eq_right hhi]
    · rw [Nat.sub_eq_zero_of_le (Nat.le_of_not_le hhi), take_zero, drop_nil, drop_nil]
  · exact (length_take_le' _ _).trans h

theorem slice_append_left (h : n = pre.length) : slice (pre ++ r) 0 n = pre := by
  rw [slice, drop_zero, h, take_left]

theorem arrayAt_append_right (h : pre.length ≤ lo) :
    arrayAt (pre ++ r) lo n = arrayAt r (lo - pre.length) n := by
  unfold arrayAt
  have hiff : lo + n ≤ (pre ++ r).length ↔ lo - pre.length + n ≤ r.length := by
    rw [length_append]
    omega
  have hslice := slice_append_right (r := r) h (lo + n)
  rw [show lo + n - pre.length = lo - pre.length + n by omega] at hslice
  by_cases hbound : lo + n ≤ (pre ++ r).length
  · rw [dif_pos hbound, dif_pos (hiff.mp hbound)]
    simp only [hslice]
  · rw [dif_neg hbound, dif_neg fun hr => hbound (hiff.mpr hr)]

theorem arrayAt_append_left (h : pre.length = n) : arrayAt (pre ++ r) 0 n = .ok ⟨pre, h⟩ := by
  rw [arrayAt, dif_pos (by rw [length_append]; omega)]
  simp only [Nat.zero_add, slice_append_left h.symm]

theorem leAt_append_right (h : pre.length ≤ lo) :
    leAt (pre ++ r) lo n = leAt r (lo - pre.length) n := by
  rw [leAt, leAt, arrayAt_append_right h]

theorem leAt_toLe {value : Nat} (h : value < 256 ^ n) :
    leAt (toLe n value ++ r) 0 n = .ok value := by
  rw [leAt, arrayAt_append_left (length_toLe n value), ok_bind, fromLe_toLe h]
  rfl

theorem index_append_right (h : pre.length ≤ lo) :
    index (pre ++ r) lo = index r (lo - pre.length) := by
  rw [index, index, getElem?_append_right h]

/-! ### Nothing is read out of bounds -/

def Ends (x : Except Stop α) : Prop := (∃ e, x = .error (.err e)) ∨ ∃ a, x = .ok a

theorem Ends.bind {x : Except Stop α} {f : α → Except Stop β} (hx : Ends x)
    (hf : ∀ a, x = .ok a → Ends (f a)) : Ends (x >>= f) := by
  rcases hx with ⟨e, rfl⟩ | ⟨a, rfl⟩
  · exact .inl ⟨e, rfl⟩
  · exact hf a rfl

theorem ends_check (cond : Bool) (e : WfpWireError) : Ends (check cond e) := by
  cases cond with
  | true => exact .inr ⟨(), rfl⟩
  | false => exact .inl ⟨e, rfl⟩

theorem ends_lift (x : Except WfpWireError α) : Ends (lift x) := by
  cases x with
  | error e => exact .inl ⟨e, rfl⟩
  | ok a => exact .inr ⟨a, rfl⟩

theorem ends_arrayAt (h : lo + n ≤ buf.length) : Ends (arrayAt buf lo n) := by
  rw [arrayAt, dif_pos h]
  exact .inr ⟨_, rfl⟩

theorem leAt_eq (h : lo + n ≤ buf.length) :
    leAt buf lo n = .ok (fromLe (slice buf lo (lo + n))) := by
  rw [leAt, arrayAt, dif_pos h]
  rfl

theorem ends_leAt (h : lo + n ≤ buf.length) : Ends (leAt buf lo n) := .inr ⟨_, leAt_eq h⟩

theorem ends_index (h : lo < buf.length) : Ends (index buf lo) := by
  rw [index, getElem?_eq_getElem h]
  exact .inr ⟨_, rfl⟩

theorem check_pos {p : Prop} [Decidable p] (h : p) (e : WfpWireError) : check p e = .ok () := by
  rw [check, decide_eq_true h, if_pos rfl]

theorem of_check {cond : Bool} {e : WfpWireError} {u : Unit} (h : check cond e = .ok u) :
    cond = true := by
  cases cond with
  | true => rfl
  | false => cases h

theorem ends_decodeFields (hlen : fixedHeaderLen ≤ buf.length) (totalLength : UInt32) :
    Ends (decodeFields buf totalLength) := by
  have hlen : 70 ≤ buf.length := hlen
  unfold decodeFields
  repeat refine Ends.bind (by
    first
      | exact ends_check _ _
      | exact ends_lift _
      | exact ends_leAt (by omega)
      | exact ends_arrayAt (by omega)
      | exact ends_index (by omega)) fun _ _ => ?_
  exact .inr ⟨_, rfl⟩

theorem totalLengthOf_cases (buf : Bytes) :
    (∃ e, totalLengthOf buf = .error (.err e))
      ∨ fixedHeaderLen ≤ buf.length ∧ ∃ t : UInt32, totalLengthOf buf = .ok t
        ∧ t = UInt32.ofNat (fromLe (slice buf 0 4)) ∧ fixedHeaderLen ≤ t.toNat
        ∧ t.toNat ≤ buf.length := by
  unfold totalLengthOf
  rcases ends_check (fixedHeaderLen ≤ buf.length)
    (.bufferShorterThanFixedHeader buf.length fixedHeaderLen) with ⟨e, hcheck⟩ | ⟨u, hcheck⟩
  · exact .inl ⟨e, by rw [hcheck]; rfl⟩
  have hlen : 70 ≤ buf.length := of_decide_eq_true (of_check hcheck)
  rw [hcheck, leAt_eq (by omega), leAt_eq (by omega)]
  simp only [ok_bind, Nat.zero_add]
  generalize UInt32.ofNat (fromLe (slice buf 0 4)) = t
  generalize UInt32.ofNat (fromLe (slice buf 4 (4 + 4))) = version
  rcases ends_check (version = schemaVersion) (.unsupportedSchemaVersion version schemaVersion)
    with ⟨e, hversion⟩ | ⟨u, hversion⟩ <;> rw [hversion]
  · exact .inl ⟨e, rfl⟩
  rcases ends_check (t.toNat ≤ buf.length) (.totalLengthExceedsBuffer t buf.length)
    with ⟨e, hfits⟩ | ⟨u, hfits⟩ <;> rw [ok_bind, hfits]
  · exact .inl ⟨e, rfl⟩
  rcases ends_check (fixedHeaderLen ≤ t.toNat) (.totalLengthTooSmall t fixedHeaderLen)
    with ⟨e, hsmall⟩ | ⟨u, hsmall⟩ <;> rw [ok_bind, hsmall]
  · exact .inl ⟨e, rfl⟩
  exact .inr ⟨hlen, t, rfl, rfl, of_decide_eq_true (of_check hsmall),
    of_decide_eq_true (of_check hfits)⟩

theorem decodeRecord_cases (buf : Bytes) :
    (∃ e, decodeRecord buf = .error (.err e))
      ∨ ∃ r t, decodeRecord buf = .ok (r, t) ∧ t = (UInt32.ofNat (fromLe (slice buf 0 4))).toNat
        ∧ fixedHeaderLen ≤ t ∧ t ≤ buf.length := by
  unfold decodeRecord
  rcases totalLengthOf_cases buf with ⟨e, htotal⟩ | ⟨hlen, t, htotal, rfl, hsmall, hfits⟩ <;>
    rw [htotal]
  · exact .inl ⟨e, rfl⟩
  rcases ends_decodeFields hlen (UInt32.ofNat (fromLe (slice buf 0 4)))
    with ⟨e, hfields⟩ | ⟨r, hfields⟩ <;> rw [ok_bind, hfields]
  · exact .inl ⟨e, rfl⟩
  · exact .inr ⟨r, _, rfl, rfl, hsmall, hfits⟩

/-! ### What is encoded is read back -/

theorem unitsOf_flatMap (units : List UInt16) :
    unitsOf (units.flatMap fun unit => toLe 2 unit.toNat) = units := by
  induction units with
  | nil => rfl
  | cons unit units ih =>
    have hunit : fromLe (toLe 2 unit.toNat) = unit.toNat := fromLe_toLe unit.toNat_lt
    rw [flatMap_cons]
    change UInt16.ofNat (fromLe (toLe 2 unit.toNat)) :: unitsOf _ = _
    rw [hunit, UInt16.ofNat_toNat]
    exact congrArg (unit :: ·) ih

theorem length_flatMap_toLe (units : List UInt16) :
    (units.flatMap fun unit => toLe 2 unit.toNat).length = units.length * 2 := by
  simp [length_flatMap]

/-- The endpoints a socket address of the decoder has. -/
def SocketAddr.Unscoped : SocketAddr → Prop
  | v4 _ _ => True
  | v6 _ _ flowinfo scopeId => flowinfo = 0 ∧ scopeId = 0

theorem SocketAddr.new_eq {a : SocketAddr} (h : a.Unscoped) : .new a.ip a.port = a := by
  cases a with
  | v4 ip port => rfl
  | v6 ip port flowinfo scopeId =>
    obtain ⟨rfl, rfl⟩ := h
    rfl

theorem readAddr16_addr16 {v : UInt8} {ip ip' : IpAddr}
    (h : ipVersionOf ip ip' = .ok v ∨ ipVersionOf ip' ip = .ok v) :
    readAddr16 ⟨addr16 ip, length_addr16 ip⟩ v = .ok ip := by
  cases ip <;> cases ip' <;> simp only [ipVersionOf, or_self, Except.ok.injEq, reduceCtorEq] at h
  next octets _ =>
    subst h
    refine congrArg (fun o => Except.ok (IpAddr.v4 o)) (Subtype.ext ?_)
    exact take_left' octets.property
  · subst h
    rfl

theorem decodeFields_frame {v : UInt8} {units : List UInt16}
    (hport : ¬ (rec.action ≠ .redirect ∧ rec.redirectedRemotePort ≠ 0))
    (hversion : ipVersionOf rec.localAddr.ip rec.remote.ip = .ok v) (hunits : units.length ≤ 0xFFFF)
    (hlocal : rec.localAddr.Unscoped) (hremote : rec.remote.Unscoped) {t : UInt32}
    (ht : t.toNat = fixedHeaderLen + units.length * 2) (rest : Bytes) :
    decodeFields (frame rec v units ++ rest) t = .ok { rec with note := Utf16.lossy units } := by
  have hu64 (x : UInt64) (r : Bytes) : leAt (toLe 8 x.toNat ++ r) 0 8 = .ok x.toNat :=
    leAt_toLe x.toNat_lt
  have hu16 (x : UInt16) (r : Bytes) : leAt (toLe 2 x.toNat ++ r) 0 2 = .ok x.toNat :=
    leAt_toLe x.toNat_lt
  have hzero (r : Bytes) : leAt (toLe 2 0 ++ r) 0 2 = .ok 0 := leAt_toLe (by decide)
  have hlength (r : Bytes) : leAt (toLe 2 units.length ++ r) 0 2 = .ok units.length :=
    leAt_toLe (by omega)
  have hlayer (l : WireLayer) : decodeLayer (encodeLayer l) = .ok l := by cases l <;> rfl
  have hdirection (d : WireDirection) : decodeDirection (encodeDirection d) = .ok d := by
    cases d <;> rfl
  have haction (a : WireAction) : decodeAction (encodeAction a) = .ok a := by cases a <;> rfl
  have hindex (a b c d : UInt8) (r : Bytes) : index ([a, b, c, d] ++ r) 0 = .ok a
      ∧ index ([a, b, c, d] ++ r) 1 = .ok b ∧ index ([a, b, c, d] ++ r) 2 = .ok c
      ∧ index ([a, b, c, d] ++ r) 3 = .ok d := ⟨rfl, rfl, rfl, rfl⟩
  have hcount : (UInt16.ofNat units.length).toNat = units.length := by
    rw [UInt16.toNat_ofNat', Nat.mod_eq_of_lt (by omega)]
  have hredirect : rec.action = .redirect ∨ rec.redirectedRemotePort = 0 := by
    by_contra h
    exact hport (not_or.mp h)
  unfold decodeFields frame
  simp only [append_assoc, leAt_append_right, index_append_right, arrayAt_append_right,
    length_toLe, length_addr16, length_cons, length_nil, Nat.reduceAdd, Nat.reduceSub,
    Nat.reduceLeDiff, hu64, hu16, hzero, hlength, hindex, arrayAt_append_left, ok_bind, hlayer,
    hdirection, haction, readAddr16_addr16 (.inl hversion), readAddr16_addr16 (.inr hversion), lift,
    UInt16.ofNat_toNat, UInt64.ofNat_toNat, hcount, SocketAddr.new_eq hlocal,
    SocketAddr.new_eq hremote]
  rw [check_pos (show UInt16.ofNat 0 = 0 from rfl), ok_bind, check_pos hredirect, ok_bind,
    check_pos ht.symm, ok_bind, check_pos, ok_bind]
  · simp only [slice_append_right, fixedHeaderLen, length_toLe, length_addr16, length_cons,
      length_nil, Nat.reduceAdd, Nat.reduceSub, Nat.reduceLeDiff]
    rw [slice_append_left (by rw [length_flatMap_toLe]; omega), unitsOf_flatMap]
    rfl
  · simp only [length_append, length_toLe, length_addr16, length_cons, length_nil,
      length_flatMap_toLe, fixedHeaderLen]
    omega

/-- A record whose endpoints the decoder can give back, and its encoding. -/
structure Encodes (rec : WfpCalloutRecord) (b : Bytes) : Prop where
  encode : encodeRecord rec = .ok b
  localAddr : rec.localAddr.Unscoped
  remote : rec.remote.Unscoped

theorem Encodes.eq_frame (h : Encodes rec b) :
    ¬ (rec.action ≠ .redirect ∧ rec.redirectedRemotePort ≠ 0)
      ∧ (Utf16.encode rec.note).length ≤ 0xFFFF
      ∧ ∃ v, ipVersionOf rec.localAddr.ip rec.remote.ip = .ok v
        ∧ b = frame rec v (Utf16.encode rec.note) := by
  have hencode := h.encode
  unfold encodeRecord at hencode
  split_ifs at hencode with hport
  split at hencode
  · cases hencode
  next v hversion =>
    dsimp only at hencode
    split_ifs at hencode with hunits
    cases hencode
    exact ⟨hport, Nat.not_lt.mp hunits, v, hversion, rfl⟩

theorem length_frame (rec : WfpCalloutRecord) (v : UInt8) (units : List UInt16) :
    (frame rec v units).length = fixedHeaderLen + units.length * 2 := by
  simp only [frame, length_append, length_toLe, length_addr16, length_cons,
    length_nil, length_flatMap_toLe, fixedHeaderLen]
  omega

theorem Encodes.total (h : Encodes rec b) (rest : Bytes) :
    fixedHeaderLen ≤ b.length
      ∧ (UInt32.ofNat (fromLe (slice (b ++ rest) 0 4))).toNat = b.length := by
  obtain ⟨-, hunits, v, -, rfl⟩ := h.eq_frame
  rw [length_frame]
  refine ⟨Nat.le_add_right _ _, ?_⟩
  have hlt : fixedHeaderLen + (Utf16.encode rec.note).length * 2 < 256 ^ 4 := by
    rw [fixedHeaderLen]
    omega
  rw [frame, append_assoc, slice_append_left (length_toLe _ _).symm, fromLe_toLe hlt,
    UInt32.toNat_ofNat']
  exact Nat.mod_eq_of_lt hlt

theorem Encodes.totalLengthOf_append (h : Encodes rec b) (rest : Bytes) :
    ∃ t, totalLengthOf (b ++ rest) = .ok t ∧ t.toNat = b.length := by
  obtain ⟨hlen, htotal⟩ := h.total rest
  have hbound : fixedHeaderLen ≤ (b ++ rest).length := by
    rw [length_append]
    exact Nat.le_add_right_of_le hlen
  have h8 : 8 ≤ (b ++ rest).length := Nat.le_trans (by decide) hbound
  have hversion : leAt (b ++ rest) 4 4 = .ok 1 := by
    obtain ⟨-, -, v, -, rfl⟩ := h.eq_frame
    rw [frame, append_assoc, leAt_append_right (length_toLe _ _).le, length_toLe,
      append_assoc]
    exact leAt_toLe (by decide)
  refine ⟨_, ?_, htotal⟩
  rw [totalLengthOf, leAt_eq (by omega), hversion, check_pos hbound]
  simp only [ok_bind, Nat.zero_add]
  rw [check_pos (show UInt32.ofNat 1 = schemaVersion from rfl), ok_bind, check_pos, ok_bind,
    check_pos (htotal.symm ▸ hlen)]
  · rfl
  · rw [htotal, length_append]
    exact Nat.le_add_right _ _

/-- **A record is read back from its encoding**, whatever follows. -/
theorem Encodes.decodeRecord_append (h : Encodes rec b) (rest : Bytes) :
    decodeRecord (b ++ rest) = .ok (rec, b.length) := by
  obtain ⟨t, htotal, ht⟩ := h.totalLengthOf_append rest
  obtain ⟨hport, hunits, v, hversion, rfl⟩ := h.eq_frame
  have hfields := decodeFields_frame hport hversion hunits h.localAddr h.remote
    (ht.trans (length_frame rec v _)) rest
  rw [Utf16.lossy_encode] at hfields
  rw [decodeRecord, htotal, ok_bind, hfields, ok_bind, ht]
  rfl

theorem Encodes.ne_nil (h : Encodes rec b) : b ≠ [] := by
  rintro rfl
  exact absurd (h.total []).1 (by decide)

/-- A proper beginning of an encoding is refused: it is shorter than the length it states. -/
theorem Encodes.exists_error (h : Encodes rec b) {p : Bytes}
    (hp : p <+: b) (hlt : p.length < b.length) : ∃ e, decodeRecord p = .error (.err e) := by
  rcases decodeRecord_cases p with herror | ⟨r, t, -, rfl, hsmall, hfits⟩
  · exact herror
  obtain ⟨q, rfl⟩ := hp
  obtain ⟨-, htotal⟩ := h.total []
  have hp4 : 4 ≤ p.length := Nat.le_trans (by decide) (hsmall.trans hfits)
  have hslice : slice (p ++ q ++ []) 0 4 = slice p 0 4 := by
    rw [slice, slice, append_assoc, take_append_of_le_length hp4]
  rw [hslice] at htotal
  omega

/-! ### Streams -/

theorem recordsUpTo_succ (hbuf : buf ≠ []) (fuel : Nat) :
    recordsUpTo (fuel + 1) buf = (decodeRecord buf >>= fun rc =>
      recordsUpTo fuel (buf.drop rc.2) >>= fun rs => .ok (rc.1 :: rs)) := by
  cases buf with
  | nil => exact absurd rfl hbuf
  | cons a buf => rfl

theorem recordsUpTo_nil (fuel : Nat) : recordsUpTo fuel [] = .ok [] := by
  cases fuel <;> rfl

theorem Encodes.recordsUpTo_append (h : Encodes rec b) (rest : Bytes)
    {fuel : Nat} (hfuel : (b ++ rest).length ≤ fuel) :
    ∃ fuel', rest.length ≤ fuel' ∧ recordsUpTo fuel (b ++ rest)
      = (recordsUpTo fuel' rest >>= fun rs => .ok (rec :: rs)) := by
  have hlen : 70 ≤ b.length := (h.total rest).1
  rw [length_append] at hfuel
  obtain ⟨fuel, rfl⟩ : ∃ k, fuel = k + 1 := ⟨fuel - 1, by omega⟩
  refine ⟨fuel, by omega, ?_⟩
  rw [recordsUpTo_succ (by simp [h.ne_nil]), h.decodeRecord_append rest, ok_bind, drop_left]

theorem recordsUpTo_flatten {rs : List WfpCalloutRecord} {bs : List Bytes}
    (h : Forall₂ Encodes rs bs) {fuel : Nat} (hfuel : bs.flatten.length ≤ fuel) :
    recordsUpTo fuel bs.flatten = .ok rs := by
  induction h generalizing fuel with
  | nil => exact recordsUpTo_nil fuel
  | cons h _ ih =>
    obtain ⟨fuel', hfuel', hstep⟩ := h.recordsUpTo_append _ hfuel
    rw [flatten_cons, hstep, ih hfuel']
    rfl

theorem recordsUpTo_prefix_error {rs : List WfpCalloutRecord} {bs : List Bytes}
    (h : Forall₂ Encodes rs bs) {p : Bytes} (hp : p <+: bs.flatten)
    (hcut : ∀ k, p ≠ (bs.take k).flatten) {fuel : Nat} (hfuel : p.length ≤ fuel) :
    ∃ e, recordsUpTo fuel p = .error (.err e) := by
  induction h generalizing p fuel with
  | nil => exact absurd (prefix_nil.mp hp) (hcut 0)
  | @cons rec b rs bs h _ ih =>
    rw [flatten_cons] at hp
    by_cases hlt : p.length < b.length
    · have hnil : p ≠ [] := hcut 0
      obtain ⟨fuel, rfl⟩ : ∃ k, fuel = k + 1 :=
        ⟨fuel - 1, by have := length_pos_of_ne_nil hnil; omega⟩
      obtain ⟨e, he⟩ := h.exists_error
        (prefix_of_prefix_length_le hp (prefix_append b _) hlt.le) hlt
      exact ⟨e, by rw [recordsUpTo_succ hnil, he]; rfl⟩
    · obtain ⟨p, rfl⟩ := prefix_of_prefix_length_le (prefix_append b _) hp
        (Nat.not_lt.mp hlt)
      obtain ⟨fuel', hfuel', hstep⟩ := h.recordsUpTo_append p hfuel
      obtain ⟨e, he⟩ := ih ((prefix_append_right_inj b).mp hp)
        (fun k heq => hcut (k + 1) (by rw [heq, take_succ_cons, flatten_cons])) hfuel'
      exact ⟨e, by rw [hstep, he]; rfl⟩

/-- A buffer cut into frames, each as long as its `total_length` says, and the records they hold. -/
inductive Partition : Bytes → List WfpCalloutRecord → Prop
  | nil : Partition [] []
  | cons {frame rest : Bytes} {rec : WfpCalloutRecord} {rs : List WfpCalloutRecord}
      (hlength : (UInt32.ofNat (fromLe (slice frame 0 4))).toNat = frame.length)
      (hdecode : decodeRecord (frame ++ rest) = .ok (rec, frame.length))
      (hrest : Partition rest rs) : Partition (frame ++ rest) (rec :: rs)

theorem recordsUpTo_cases {fuel : Nat} (hfuel : buf.length ≤ fuel) :
    (∃ e, recordsUpTo fuel buf = .error (.err e))
      ∨ ∃ rs, recordsUpTo fuel buf = .ok rs ∧ Partition buf rs := by
  induction fuel generalizing buf with
  | zero =>
    obtain rfl := length_eq_zero_iff.mp (Nat.le_zero.mp hfuel)
    exact .inr ⟨[], rfl, .nil⟩
  | succ fuel ih =>
    by_cases hnil : buf = []
    · subst hnil
      exact .inr ⟨[], rfl, .nil⟩
    rw [recordsUpTo_succ hnil]
    rcases decodeRecord_cases buf with ⟨e, he⟩ | ⟨rec, t, hdecode, htotal, hsmall, hfits⟩
    · exact .inl ⟨e, by rw [he]; rfl⟩
    have hsmall : 70 ≤ t := hsmall
    rw [hdecode, ok_bind]
    have hdrop : (buf.drop t).length ≤ fuel := by
      rw [length_drop]
      omega
    rcases ih hdrop with ⟨e, he⟩ | ⟨rs, hrs, hpartition⟩
    · exact .inl ⟨e, by rw [he]; rfl⟩
    refine .inr ⟨rec :: rs, by rw [hrs]; rfl, ?_⟩
    have htake : (buf.take t).length = t := length_take_of_le hfits
    have hslice : slice (buf.take t) 0 4 = slice buf 0 4 := by
      rw [slice, slice, take_take, Nat.min_eq_left (by omega)]
    rw [← take_append_drop t buf]
    refine .cons ?_ ?_ hpartition
    · rw [hslice, htake, ← htotal]
    · rw [take_append_drop, htake, hdecode]

/-- **Record streams decode exactly or not at all.** -/
theorem decodeRecords_exact :
    (∀ rs bs, List.Forall₂ Encodes rs bs → decodeRecords bs.flatten = .ok rs
      ∧ ∀ p, p <+: bs.flatten → (∀ k, p ≠ (bs.take k).flatten) →
        ∃ e, decodeRecords p = .error (.err e))
    ∧ ∀ buf, (∃ e, decodeRecords buf = .error (.err e))
      ∨ ∃ rs, decodeRecords buf = .ok rs ∧ Partition buf rs :=
  ⟨fun _ _ h => ⟨recordsUpTo_flatten h (Nat.le_refl _),
      fun _ hp hcut => recordsUpTo_prefix_error h hp hcut (Nat.le_refl _)⟩,
    fun _ => recordsUpTo_cases (Nat.le_refl _)⟩

def permitted : WfpCalloutRecord :=
  ⟨4, 9, .connectRedirectV4, .outbound, .permit, .v4 ⟨[10, 0, 0, 1], rfl⟩ 80,
    .v4 ⟨[10, 0, 0, 2], rfl⟩ 443, 0, "é".toList⟩

def redirected : WfpCalloutRecord :=
  ⟨5, 10, .connectRedirectV6, .inbound, .redirect, .v6 ⟨List.replicate 16 1, rfl⟩ 80 0 0,
    .v6 ⟨List.replicate 16 2, rfl⟩ 443 0 0, 8443, []⟩

theorem decodeRecords_exact_two : ∃ b b', encodeRecord permitted = .ok b
      ∧ encodeRecord redirected = .ok b'
      ∧ decodeRecords [b, b'].flatten = .ok [permitted, redirected] :=
  ⟨_, _, rfl, rfl, (decodeRecords_exact.1 [permitted, redirected] _
    (.cons ⟨rfl, trivial, trivial⟩ (.cons ⟨rfl, ⟨rfl, rfl⟩, rfl, rfl⟩ .nil))).1⟩

end Npamp.Mesh.Wfp
