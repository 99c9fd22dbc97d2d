import Npamp.Proof.Relay

/-!
# Where a stream ends

The relay's reader reports the end of the stream exactly if nothing is left behind the last whole
frame. The SDK's reader takes a short payload for the end too.
-/

namespace Npamp

open Framing Relay List

variable {read : Bytes → Except GoError (Bytes × Bytes)} {maxSize : Nat} {s rest : Bytes}
  {raws : List Bytes}

/-- The stream ends where a frame ends. -/
def AtBoundary (maxSize : Nat) (s : Bytes) : Prop :=
  ∃ raws : List Bytes, (∀ raw ∈ raws, Framed maxSize raw) ∧ s = raws.flatten

/-- Behind some whole frames the stream has the beginning of a header. -/
def EndsInHeader (maxSize : Nat) (s : Bytes) : Prop :=
  ∃ (raws : List Bytes) (cut : Bytes), (∀ raw ∈ raws, Framed maxSize raw) ∧
    s = raws.flatten ++ cut ∧ cut ≠ [] ∧ cut.length < headerSize

/-- A whole header that a reader accepts, with fewer octets behind it than it announces. -/
structure CutPayload (maxSize : Nat) (cut : Bytes) : Prop where
  header : headerSize ≤ cut.length
  magic : slice cut 0 4 = magic
  cap : headerSize + (uint32 (slice cut 17 21)).toNat ≤ maxSize
  short : cut.length < headerSize + (uint32 (slice cut 17 21)).toNat

/-- The stream ends inside the payload of a frame. -/
def EndsInPayload (maxSize : Nat) (s : Bytes) : Prop :=
  ∃ (raws : List Bytes) (cut : Bytes), (∀ raw ∈ raws, Framed maxSize raw) ∧
    s = raws.flatten ++ cut ∧ CutPayload maxSize cut

theorem Framed.ne_nil {raw : Bytes} (h : Framed maxSize raw) : raw ≠ [] := by
  rintro rfl
  exact absurd h.header (by decide)

theorem not_framed_of_short {cut : Bytes} (hshort : cut.length < headerSize) (raw tail : Bytes)
    (hcut : cut = raw ++ tail) : ¬ Framed maxSize raw := by
  intro hframed
  have hheader := hframed.header
  rw [hcut, length_append] at hshort
  omega

theorem CutPayload.not_framed {cut : Bytes} (h : CutPayload maxSize cut) (raw tail : Bytes)
    (hcut : cut = raw ++ tail) : ¬ Framed maxSize raw := by
  intro hframed
  subst hcut
  have hannounced : slice (raw ++ tail) 17 21 = slice raw 17 21 :=
    slice_append_left (le_trans (by decide) hframed.header)
  have hshort := h.short
  rw [hannounced, ← hframed.length, length_append] at hshort
  omega

section Reader

variable (hread : ∀ s raw rest, read s = .ok (raw, rest) ↔ s = raw ++ rest ∧ Framed maxSize raw)

include hread

theorem toOption_read_eq_some {raw : Bytes} :
    (read s).toOption = some (raw, rest) ↔ s = raw ++ rest ∧ Framed maxSize raw := by
  rw [← hread]
  cases read s with
  | error e => exact iff_of_false nofun nofun
  | ok p => exact ⟨fun h => congrArg Except.ok (Option.some.inj h),
      fun h => congrArg some (Except.ok.inj h)⟩

theorem read_shortens (s raw rest : Bytes) (h : (read s).toOption = some (raw, rest)) :
    rest.length < s.length := by
  obtain ⟨rfl, hframed⟩ := (toOption_read_eq_some hread).mp h
  rw [length_append]
  have hpos := length_pos_of_ne_nil hframed.ne_nil
  omega

theorem flatten_of_reads (h : Reads (fun s => (read s).toOption) s raws rest) :
    s = raws.flatten ++ rest ∧ ∀ raw ∈ raws, Framed maxSize raw := by
  induction h with
  | nil s => exact ⟨rfl, nofun⟩
  | cons hnext _ ih =>
    obtain ⟨rfl, hframed⟩ := (toOption_read_eq_some hread).mp hnext
    obtain ⟨rfl, hall⟩ := ih
    refine ⟨by rw [flatten_cons, append_assoc], ?_⟩
    exact forall_mem_cons.mpr ⟨hframed, hall⟩

theorem reads_of_flatten (hraws : ∀ raw ∈ raws, Framed maxSize raw) (rest : Bytes) :
    Reads (fun s => (read s).toOption) (raws.flatten ++ rest) raws rest := by
  induction raws with
  | nil => exact .nil rest
  | cons raw raws ih =>
    obtain ⟨hframed, hall⟩ := forall_mem_cons.mp hraws
    refine .cons ((toOption_read_eq_some hread).mpr ⟨?_, hframed⟩) (ih hall)
    rw [flatten_cons, append_assoc]

theorem readToEnd_flatten {e : GoError} (hraws : ∀ raw ∈ raws, Framed maxSize raw)
    (hrest : read rest = .error e) : readToEnd read (raws.flatten ++ rest) = (raws, .error e) := by
  have hstuck : (read rest).toOption = none := by
    rw [hrest]
    rfl
  have hframes := readAll_of_reads (read_shortens hread) (reads_of_flatten hread hraws rest) hstuck
    le_rfl
  rw [readToEnd]
  simp only [hframes, hrest]

theorem readToEnd_spec (s : Bytes) :
    ∃ raws rest e, readToEnd read s = (raws, .error e) ∧ read rest = .error e ∧
      s = raws.flatten ++ rest ∧ ∀ raw ∈ raws, Framed maxSize raw := by
  have hreads := reads_readAll (fun s => (read s).toOption) s.length s
  have hstuck := next_readAll (read_shortens hread) (le_refl s.length)
  obtain ⟨hs, hall⟩ := flatten_of_reads hread hreads
  cases hend : read (readAll (fun s => (read s).toOption) s.length s).2 with
  | error e => exact ⟨_, _, e, by rw [readToEnd, hend], hend, hs, hall⟩
  | ok p =>
    rw [hend] at hstuck
    cases hstuck

theorem exists_error_of_not_framed (hnot : ∀ raw rest', rest = raw ++ rest' → ¬ Framed maxSize raw) :
    ∃ e, read rest = .error e := by
  cases h : read rest with
  | error e => exact ⟨e, rfl⟩
  | ok p =>
    obtain ⟨hs, hframed⟩ := (hread _ _ _).mp h
    exact absurd hframed (hnot _ _ hs)

theorem rest_unique {rest' : Bytes} {raws' : List Bytes} {e : GoError}
    (hs : s = raws.flatten ++ rest) (hraws : ∀ raw ∈ raws, Framed maxSize raw)
    (herror : read rest = .error e) (hs' : s = raws'.flatten ++ rest')
    (hraws' : ∀ raw ∈ raws', Framed maxSize raw)
    (hnot : ∀ raw tail, rest' = raw ++ tail → ¬ Framed maxSize raw) : rest = rest' := by
  obtain ⟨e', herror'⟩ := exists_error_of_not_framed hread hnot
  have hfirst : readToEnd read s = (raws, .error e) := hs ▸ readToEnd_flatten hread hraws herror
  have hsecond : readToEnd read s = (raws', .error e') :=
    hs' ▸ readToEnd_flatten hread hraws' herror'
  obtain ⟨rfl, -⟩ := Prod.mk.inj (hfirst.symm.trans hsecond)
  exact append_cancel_left (hs.symm.trans hs')

theorem atBoundary_iff {e : GoError} (hs : s = raws.flatten ++ rest)
    (hraws : ∀ raw ∈ raws, Framed maxSize raw) (herror : read rest = .error e) :
    AtBoundary maxSize s ↔ rest = [] := by
  constructor
  · rintro ⟨raws', hraws', hs'⟩
    refine rest_unique hread hs hraws herror (by rw [append_nil]; exact hs') hraws' ?_
    intro raw tail hnil hframed
    exact hframed.ne_nil (append_eq_nil_iff.mp hnil.symm).1
  · rintro rfl
    exact ⟨raws, hraws, by rw [hs, append_nil]⟩

theorem endsInPayload_iff {e : GoError} (hs : s = raws.flatten ++ rest)
    (hraws : ∀ raw ∈ raws, Framed maxSize raw) (herror : read rest = .error e) :
    EndsInPayload maxSize s ↔ CutPayload maxSize rest := by
  constructor
  · rintro ⟨raws', cut, hraws', hs', hcut⟩
    rwa [rest_unique hread hs hraws herror hs' hraws' hcut.not_framed]
  · exact fun hcut => ⟨raws, rest, hraws, hs, hcut⟩

theorem not_atBoundary_of_endsInHeader (h : EndsInHeader maxSize s) : ¬ AtBoundary maxSize s := by
  obtain ⟨raws, cut, hraws, hs, hne, hshort⟩ := h
  obtain ⟨e, herror⟩ := exists_error_of_not_framed hread (not_framed_of_short hshort)
  rw [atBoundary_iff hread hs hraws herror]
  exact hne

theorem not_endsInPayload_of_endsInHeader (h : EndsInHeader maxSize s) :
    ¬ EndsInPayload maxSize s := by
  obtain ⟨raws, cut, hraws, hs, -, hshort⟩ := h
  obtain ⟨e, herror⟩ := exists_error_of_not_framed hread (not_framed_of_short hshort)
  rw [endsInPayload_iff hread hs hraws herror]
  exact fun hcut => absurd hcut.header (Nat.not_le.mpr hshort)

theorem not_atBoundary_of_endsInPayload (h : EndsInPayload maxSize s) : ¬ AtBoundary maxSize s := by
  obtain ⟨raws, cut, hraws, hs, hcut⟩ := h
  obtain ⟨e, herror⟩ := exists_error_of_not_framed hread hcut.not_framed
  rw [atBoundary_iff hread hs hraws herror]
  rintro rfl
  exact absurd hcut.header (by decide)

end Reader

/-- `sdk.readFrame` reports the end of the stream also if the stream ends inside a payload. -/
theorem errorsIs_eof_of_sdk_readFrame {e : GoError} (h : Sdk.readFrame s = .error e) :
    errorsIs e .eof = true ↔ s = [] ∨ CutPayload maxFrameSize s := by
  unfold Sdk.readFrame at h
  cases hfull : readFull s headerSize with
  | error e' =>
    rw [hfull] at h
    obtain rfl := Except.error.inj h
    rw [errorsIs_eof_of_readFull hfull]
    refine ⟨.inl, fun hend => hend.resolve_right fun hcut => ?_⟩
    rw [readFull, if_pos hcut.header] at hfull
    cases hfull
  | ok p =>
    obtain ⟨header, tail⟩ := p
    obtain ⟨hheader, rfl⟩ := readFull_eq_ok.mp hfull
    have hslice : ∀ {lo hi : Nat}, hi ≤ headerSize →
        slice (header ++ tail) lo hi = slice header lo hi :=
      fun hhi => slice_append_left (hheader ▸ hhi)
    have hne : header ++ tail ≠ [] := by
      intro hnil
      rw [(append_eq_nil_iff.mp hnil).1] at hheader
      cases hheader
    rw [hfull] at h
    simp only [bind, Except.bind] at h
    split at h
    · rename_i e' hcheck
      obtain rfl := Except.error.inj h
      rw [errorsIs_checkBoundary hcheck]
      refine iff_of_false Bool.false_ne_true ?_
      rintro (hnil | hcut)
      · exact hne hnil
      have hok : checkBoundary "sdk" maxFrameSize header = .ok () := by
        refine checkBoundary_eq_ok.mpr ⟨?_, ?_⟩
        · rw [← hslice (by decide)]
          exact hcut.magic
        · rw [← hslice (by decide)]
          exact hcut.cap
      rw [hok] at hcheck
      cases hcheck
    · rename_i hcheck
      obtain ⟨hmagic, hcap⟩ := checkBoundary_eq_ok.mp hcheck
      split at h
      · rename_i e' hcopy
        obtain rfl := Except.error.inj h
        unfold copyN at hcopy
        split_ifs at hcopy with hshort
        obtain rfl := Except.error.inj hcopy
        refine iff_of_true rfl (.inr ⟨?_, ?_, ?_, ?_⟩)
        · rw [length_append, hheader]
          exact Nat.le_add_right _ _
        · rw [hslice (by decide)]
          exact hmagic
        · rw [hslice (by decide)]
          exact hcap
        · rw [hslice (by decide), length_append, hheader]
          omega
      · cases h

/-- **Truncation.** The relay's reader reports the end of the stream exactly if it ended behind a
whole frame; so does the SDK's reader, except exactly where the stream ends inside a payload. -/
theorem truncation_not_eof (s : Bytes) (maxSize : UInt32) :
    (∃ raws e, readToEnd (readRawFrame · maxSize) s = (raws, .error e) ∧
      (errorsIs e .eof = true ↔ AtBoundary maxSize.toNat s) ∧
      (EndsInHeader maxSize.toNat s ∨ EndsInPayload maxSize.toNat s →
        errorsIs e .eof = false)) ∧
    (∃ raws e, readToEnd Sdk.readFrame s = (raws, .error e) ∧
      ((errorsIs e .eof = true ↔ AtBoundary maxFrameSize s) ↔ ¬ EndsInPayload maxFrameSize s) ∧
      (EndsInHeader maxFrameSize s → errorsIs e .eof = false)) := by
  have hrelay : ∀ s raw rest, readRawFrame s maxSize = .ok (raw, rest) ↔
      s = raw ++ rest ∧ Framed maxSize.toNat raw := fun _ _ _ => readRawFrame_eq_ok
  have hsdk : ∀ s raw rest, Sdk.readFrame s = .ok (raw, rest) ↔
      s = raw ++ rest ∧ Framed maxFrameSize raw := fun _ _ _ => Sdk.readFrame_eq_ok
  constructor
  · obtain ⟨raws, rest, e, hend, herror, hflat, hraws⟩ := readToEnd_spec hrelay s
    have hiff : errorsIs e .eof = true ↔ AtBoundary maxSize.toNat s := by
      rw [atBoundary_iff hrelay hflat hraws herror]
      exact errorsIs_eof_of_readRawFrame herror
    refine ⟨raws, e, hend, hiff, fun hcut => ?_⟩
    rw [Bool.eq_false_iff, Ne, hiff]
    exact hcut.elim (not_atBoundary_of_endsInHeader hrelay) (not_atBoundary_of_endsInPayload hrelay)
  · obtain ⟨raws, rest, e, hend, herror, hflat, hraws⟩ := readToEnd_spec hsdk s
    have hpayload := endsInPayload_iff hsdk hflat hraws herror
    have heof := errorsIs_eof_of_sdk_readFrame herror
    refine ⟨raws, e, hend, ?_, fun hcut => ?_⟩
    · have hempty : rest = [] → ¬ CutPayload maxFrameSize rest := by
        rintro rfl hcut
        exact absurd hcut.header (by decide)
      rw [atBoundary_iff hsdk hflat hraws herror, heof, hpayload]
      tauto
    · rw [Bool.eq_false_iff, Ne, heof, ← hpayload, ← atBoundary_iff hsdk hflat hraws herror, not_or]
      exact ⟨not_atBoundary_of_endsInHeader hsdk hcut, not_endsInPayload_of_endsInHeader hsdk hcut⟩

def fiveOctetHeader : Bytes := magic ++ replicate 16 0 ++ [5] ++ replicate 15 0

theorem cutPayload_fiveOctetHeader : CutPayload maxFrameSize (fiveOctetHeader ++ [1, 2]) := by
  constructor <;> decide +kernel

/-- **A cut payload looks like an orderly close.** -/
theorem sdk_reports_cut_payload_as_eof :
    ∃ e, readToEnd Sdk.readFrame (fiveOctetHeader ++ [1, 2]) = ([], .error e) ∧
      errorsIs e .eof = true ∧ EndsInPayload maxFrameSize (fiveOctetHeader ++ [1, 2]) ∧
      ¬ AtBoundary maxFrameSize (fiveOctetHeader ++ [1, 2]) := by
  have hsdk : ∀ s raw rest, Sdk.readFrame s = .ok (raw, rest) ↔
      s = raw ++ rest ∧ Framed maxFrameSize raw := fun _ _ _ => Sdk.readFrame_eq_ok
  have hends : EndsInPayload maxFrameSize (fiveOctetHeader ++ [1, 2]) :=
    ⟨[], _, nofun, rfl, cutPayload_fiveOctetHeader⟩
  obtain ⟨e, herror⟩ := exists_error_of_not_framed hsdk cutPayload_fiveOctetHeader.not_framed
  refine ⟨e, ?_, ?_, hends, not_atBoundary_of_endsInPayload hsdk hends⟩
  · have hnone : ∀ raw ∈ ([] : List Bytes), Framed maxFrameSize raw := by simp
    exact readToEnd_flatten hsdk hnone herror
  · exact (errorsIs_eof_of_sdk_readFrame herror).mpr (.inr cutPayload_fiveOctetHeader)

end Npamp
