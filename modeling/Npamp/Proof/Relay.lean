import Npamp.Relay
import Npamp.Proof.Framers

/-!
# What a firewalled relay forwards

A run forwards the longest list of frames that the validator and the policy accept, and ends without
error exactly if nothing is left behind them.
-/

namespace Npamp

open Framing Relay FrameHeader List Except

variable {σ : Type}

def pass (reg : Registries) (policy : Option (HookFunc σ)) (dir : Direction) (state : σ)
    (raw : Bytes) : Option σ :=
  match validateBytes reg raw, unmarshalBinary raw with
  | .ok (), .ok f =>
    match policy with
    | none => some state
    | some decide => (decide state dir (ofFrame raw f)).toOption
  | _, _ => none

def passAll (reg : Registries) (policy : Option (HookFunc σ)) (dir : Direction) :
    σ → List Bytes → Option σ
  | state, [] => some state
  | state, raw :: frames =>
    match pass reg policy dir state raw with
    | none => none
    | some state => passAll reg policy dir state frames

variable {raw : Bytes} {f : Frame} {reg : Registries} {dir : Direction} {state state' : σ}
  {policy : Option (HookFunc σ)} {e : GoError}

theorem payloadLen_ofFrame (hparse : unmarshalBinary raw = .ok f) :
    (ofFrame raw f).payloadLen.toNat = f.payload.length := by
  unfold unmarshalBinary unmarshalBinaryWith at hparse
  split_ifs at hparse with hlength hcrc hmagic hversion hflags hreserved hpayload
  cases hparse
  have hlen := not_not.mp hpayload
  have hlt := UInt32.toNat_lt (uint32 (slice raw 17 21))
  simp only [ofFrame, length_drop, UInt32.toNat_ofNat']
  exact Nat.mod_eq_of_lt (by omega)

theorem relayHook_eq_ok (hparse : unmarshalBinary raw = .ok f) :
    reg.relayHook state dir (ofFrame raw f) = .ok state' ↔
      reg.validate f = .ok () ∧ state' = state := by
  have hbounds := payloadLen_ofFrame hparse
  unfold Registries.relayHook Registries.validate
  have hchannel : (ofFrame raw f).channel = f.channel := rfl
  have htype : (ofFrame raw f).type = f.type := rfl
  rw [hbounds, hchannel, htype]
  cases reg.checkFrameType f.channel f.type with
  | error e => simp [bind, Except.bind]
  | ok _ =>
    cases checkBounds (headerSize + f.payload.length) with
    | error e => simp [bind, Except.bind]
    | ok _ => simp [bind, Except.bind, eq_comm]

theorem pass_eq_some : pass reg policy dir state raw = some state' ↔
      ∃ f, unmarshalBinary raw = .ok f ∧ reg.validate f = .ok ()
        ∧ (policy = none ∧ state' = state
          ∨ ∃ decide, policy = some decide
              ∧ decide state dir (ofFrame raw f) = .ok state') := by
  unfold pass validateBytes
  cases hparse : unmarshalBinary raw with
  | error e => simp
  | ok f =>
    cases hvalid : reg.validate f with
    | error e => simp [hvalid]
    | ok _ =>
      cases policy with
      | none => simp [hvalid, eq_comm]
      | some decide =>
        cases hdecide : decide state dir (ofFrame raw f) with
        | error e => simp [hvalid, hdecide, Except.toOption]
        | ok _ => simp [hvalid, hdecide, Except.toOption]

theorem length_le_of_validate (h : reg.validate f = .ok ()) :
    headerSize + f.payload.length ≤ maxFrameSize := by
  obtain ⟨_, _, hbounds⟩ := exists_of_bind_eq_ok h
  unfold checkBounds at hbounds
  split_ifs at hbounds with hcap
  exact Nat.not_lt.mp hcap

theorem Firewall.hook_eq_ok {hook : HookFunc σ}
    (h : Firewall.hook { registries := some reg, policy := policy } = .ok hook) :
    hook = firewallHook reg policy :=
  (ok.inj h).symm

theorem firewallHook_eq_ok (hparse : unmarshalBinary raw = .ok f) :
    firewallHook reg policy state dir (ofFrame raw f) = .ok state' ↔
      pass reg policy dir state raw = some state' := by
  rw [pass_eq_some, hparse]
  unfold firewallHook
  cases hregistry : reg.relayHook state dir (ofFrame raw f) with
  | error e =>
    refine iff_of_false (fun h => nomatch h) ?_
    rintro ⟨g, hg, hvalid, _⟩
    cases hg
    rw [(relayHook_eq_ok hparse).mpr ⟨hvalid, rfl⟩] at hregistry
    cases hregistry
  | ok middle =>
    obtain ⟨hvalid, rfl⟩ := (relayHook_eq_ok hparse).mp hregistry
    cases policy with
    | none => simp [hvalid, eq_comm]
    | some decide => simp [hvalid]

/-- A plain end of file is reported for an empty stream only. -/
theorem errorsIs_eof_of_readFull {s : Bytes} {n : Nat} (h : readFull s n = .error e) :
    errorsIs e .eof = true ↔ s = [] := by
  unfold readFull at h
  split_ifs at h with hn hempty
  · obtain rfl := error.inj h
    exact iff_of_true rfl (eq_nil_of_length_eq_zero hempty)
  obtain rfl := error.inj h
  refine iff_of_false (by decide) ?_
  rintro rfl
  exact hempty rfl

theorem errorsIs_checkBoundary {pkg : String} {maxSize : Nat} {header : Bytes}
    (h : checkBoundary pkg maxSize header = .error e) : errorsIs e .eof = false := by
  unfold checkBoundary at h
  dsimp only at h
  split_ifs at h with hmagic hcap
  · obtain rfl := error.inj h
    rfl
  · obtain rfl := error.inj h
    rfl

/-- A read ends the stream cleanly exactly at its end: a stream that stops inside a header or behind
one reports something else. -/
theorem errorsIs_eof_of_readRawFrame {s : Bytes} {maxSize : UInt32}
    (h : readRawFrame s maxSize = .error e) : errorsIs e .eof = true ↔ s = [] := by
  unfold readRawFrame at h
  cases hread : readFull s headerSize with
  | error e' =>
    rw [hread] at h
    obtain rfl := error.inj h
    exact errorsIs_eof_of_readFull hread
  | ok p =>
    obtain ⟨header, tail⟩ := p
    obtain ⟨hheader, hs⟩ := readFull_eq_ok.mp hread
    have hne : s ≠ [] := by
      rintro rfl
      have hlength := congrArg length hs
      rw [length_append, hheader] at hlength
      simp only [length_nil, headerSize] at hlength
      omega
    refine iff_of_false ?_ hne
    rw [hread] at h
    simp only [bind, Except.bind] at h
    split at h
    · rename_i e' hcheck
      obtain rfl := error.inj h
      rw [errorsIs_checkBoundary hcheck]
      exact Bool.false_ne_true
    · split_ifs at h with hpos
      · split at h
        · rename_i e' hpayload
          obtain rfl := error.inj h
          -- the end of the stream behind a header is reported as an unexpected one
          show ¬ errorsIs (errPayload _ _ _) _ = true
          unfold readFull at hpayload
          split_ifs at hpayload
          · obtain rfl := error.inj hpayload
            exact Bool.false_ne_true
          · obtain rfl := error.inj hpayload
            exact Bool.false_ne_true
        · cases h
      · cases h

section Forward

variable (reg : Registries) (policy : Option (HookFunc σ)) (dir : Direction)

def firewalledRelay : Relay σ := { hook := some (firewallHook reg policy), maxFrameSize := 0 }

theorem forwardStep_eq_ok {state state' : σ} {s raw rest : Bytes} :
    (firewalledRelay reg policy).forwardStep dir state s = .ok (raw, state', rest) ↔
      s = raw ++ rest ∧ pass reg policy dir state raw = some state' := by
  unfold Relay.forwardStep
  constructor
  · intro h
    split at h
    · split_ifs at h
    rename_i raw' rest' hread
    obtain ⟨hs, hframed⟩ := readRawFrame_eq_ok.mp hread
    split at h
    · cases h
    rename_i f hparse
    dsimp only [firewalledRelay] at h
    split at h
    · cases h
    rename_i middle hhook
    simp only [ok.injEq, Prod.mk.injEq] at h
    obtain ⟨rfl, rfl, rfl⟩ := h
    exact ⟨hs, (firewallHook_eq_ok hparse).mp hhook⟩
  · rintro ⟨rfl, hpass⟩
    obtain ⟨f, hparse, hvalid, _⟩ := pass_eq_some.mp hpass
    have hcap : raw.length ≤ maxFrameSize := by
      have hlength := length_le_of_validate hvalid
      rwa [← Frame.length_marshalBinary, Frame.marshalBinary,
        marshalBinaryWith_of_unmarshalBinaryWith hparse] at hlength
    have hread : readRawFrame (raw ++ rest) (firewalledRelay reg policy).cap = .ok (raw, rest) :=
      readRawFrame_eq_ok.mpr ⟨rfl, framed_of_unmarshalBinary hparse hcap⟩
    simp only [hread, hparse]
    simp only [firewalledRelay, (firewallHook_eq_ok hparse).mpr hpass]

theorem forwardStep_eq_error {state : σ} {s : Bytes} {ret : Option GoError}
    (h : (firewalledRelay reg policy).forwardStep dir state s = .error ret) :
    ret = none ↔ s = [] := by
  unfold Relay.forwardStep at h
  split at h
  · rename_i e hread
    rw [← errorsIs_eof_of_readRawFrame hread]
    split_ifs at h with heof
    · exact iff_of_true (error.inj h).symm heof
    · exact iff_of_false (by rw [← error.inj h]; simp) heof
  · rename_i raw rest hread
    obtain ⟨rfl, hframed⟩ := readRawFrame_eq_ok.mp hread
    have hne : raw ++ rest ≠ [] := by
      intro hempty
      have hheader := hframed.header
      rw [(append_eq_nil_iff.mp hempty).1] at hheader
      exact absurd hheader (by decide)
    refine iff_of_false ?_ hne
    split at h
    · rw [← error.inj h]
      simp
    dsimp only [firewalledRelay] at h
    split at h
    · rw [← error.inj h]
      simp
    · cases h

omit reg policy dir in
variable {state state' : σ} {frames : List Bytes}

theorem length_lt_of_pass {reg : Registries} {policy : Option (HookFunc σ)} {dir : Direction}
    {s raw rest : Bytes} (hpass : pass reg policy dir state raw = some state')
    (hs : s = raw ++ rest) : rest.length < s.length := by
  obtain ⟨f, hparse, hvalid, _⟩ := pass_eq_some.mp hpass
  have hheader : 36 ≤ raw.length := (framed_of_unmarshalBinary hparse le_rfl).header
  rw [hs, length_append]
  omega

def forwardNext (p : σ × Bytes) : Option (Bytes × σ × Bytes) :=
  ((firewalledRelay reg policy).forwardStep dir p.1 p.2).toOption

theorem forwardNext_eq_some {s raw rest : Bytes} :
    forwardNext reg policy dir (state, s) = some (raw, state', rest) ↔
      s = raw ++ rest ∧ pass reg policy dir state raw = some state' := by
  rw [← forwardStep_eq_ok, forwardNext]
  cases (firewalledRelay reg policy).forwardStep dir state s <;> simp [Except.toOption]

theorem reads_of_passAll (rest : Bytes) (h : passAll reg policy dir state frames = some state') :
    Reads (forwardNext reg policy dir) (state, frames.flatten ++ rest) frames (state', rest) := by
  induction frames generalizing state with
  | nil =>
    cases h
    exact .nil _
  | cons raw frames ih =>
    rw [passAll] at h
    split at h
    · cases h
    · rename_i middle hpass
      refine .cons ((forwardNext_eq_some reg policy dir).mpr ⟨?_, hpass⟩) (ih h)
      rw [flatten_cons, append_assoc]

theorem passAll_of_reads {p p' : σ × Bytes} (h : Reads (forwardNext reg policy dir) p frames p') :
    passAll reg policy dir p.1 frames = some p'.1 ∧ p.2 = frames.flatten ++ p'.2 := by
  induction h with
  | nil => exact ⟨rfl, rfl⟩
  | cons hnext _ ih =>
    obtain ⟨hs, hpass⟩ := (forwardNext_eq_some reg policy dir).mp hnext
    refine ⟨?_, ?_⟩
    · rw [passAll, hpass]
      exact ih.1
    · rw [hs, ih.2, flatten_cons, append_assoc]

theorem forwardLoop_of_reads {p p' : σ × Bytes} (h : Reads (forwardNext reg policy dir) p frames p')
    (hstuck : forwardNext reg policy dir p' = none) {fuel : Nat} (hfuel : p.2.length < fuel)
    (written : Bytes) : ∃ ret, (firewalledRelay reg policy).forwardLoop dir fuel p.1 p.2 written
        = some (written ++ frames.flatten, ret)
      ∧ (ret = none ↔ p'.2 = []) := by
  induction h generalizing fuel written with
  | nil p =>
    obtain ⟨fuel, rfl⟩ := Nat.exists_eq_add_of_lt hfuel
    cases hstep : (firewalledRelay reg policy).forwardStep dir p.1 p.2 with
    | error ret =>
      refine ⟨ret, ?_, forwardStep_eq_error reg policy dir hstep⟩
      rw [Relay.forwardLoop, hstep, flatten_nil, append_nil]
    | ok q =>
      rw [forwardNext, hstep] at hstuck
      cases hstuck
  | @cons p middle _ raw frames hnext _ ih =>
    obtain ⟨fuel, rfl⟩ := Nat.exists_eq_add_of_lt hfuel
    obtain ⟨hs, hpass⟩ := (forwardNext_eq_some reg policy dir).mp hnext
    have hshorter := length_lt_of_pass hpass hs
    obtain ⟨ret, hloop, hret⟩ := ih hstuck (show _ < p.2.length + fuel by omega) (written ++ raw)
    refine ⟨ret, ?_, hret⟩
    rw [Relay.forwardLoop, (forwardStep_eq_ok reg policy dir).mpr ⟨hs, hpass⟩]
    simp only [hloop, flatten_cons, append_assoc]

/-- **The firewalled relay forwards exactly the longest acceptable prefix** of frames, and returns
nil exactly if nothing is left behind them. -/
theorem firewalled_forward (state : σ) (s : Bytes) (hook : HookFunc σ)
    (hhook : Firewall.hook { registries := some reg, policy := policy } = .ok hook) :
    ∃ frames rest ret,
      Relay.forward { hook := some hook, maxFrameSize := 0 } dir state s
          = some (frames.flatten, ret)
        ∧ s = frames.flatten ++ rest
        ∧ (passAll reg policy dir state frames).isSome
        ∧ (∀ frames' rest', s = frames'.flatten ++ rest' →
            (passAll reg policy dir state frames').isSome → frames' <+: frames)
        ∧ (ret = none ↔ rest = []) := by
  obtain rfl := Firewall.hook_eq_ok hhook
  have hsize : ∀ (p : σ × Bytes) raw (p' : σ × Bytes),
      forwardNext reg policy dir p = some (raw, p') → p'.2.length < p.2.length := by
    intro p raw p' h
    obtain ⟨hs, hpass⟩ := (forwardNext_eq_some reg policy dir).mp h
    exact length_lt_of_pass hpass hs
  have hreads := reads_readAll (forwardNext reg policy dir) s.length (state, s)
  have hstuck : forwardNext reg policy dir
      (readAll (forwardNext reg policy dir) s.length (state, s)).2 = none :=
    next_readAll hsize le_rfl
  obtain ⟨hpass, hs⟩ := passAll_of_reads reg policy dir hreads
  obtain ⟨ret, hloop, hret⟩ :=
    forwardLoop_of_reads reg policy dir hreads hstuck (Nat.lt_succ_self s.length) []
  refine ⟨_, _, ret, hloop, hs, by rw [hpass]; rfl, ?_, hret⟩
  intro frames' rest' hs' hpass'
  obtain ⟨state', hstate'⟩ := Option.isSome_iff_exists.mp hpass'
  have hreads' := reads_of_passAll reg policy dir rest' hstate'
  rw [← hs'] at hreads'
  exact hreads.isInitial hstuck hreads'

theorem exists_reads (p : σ × Bytes) : ∃ frames p',
      Reads (forwardNext reg policy dir) p frames p' ∧ forwardNext reg policy dir p' = none := by
  have hsize : ∀ (p : σ × Bytes) raw (p' : σ × Bytes),
      forwardNext reg policy dir p = some (raw, p') → p'.2.length < p.2.length := by
    intro p raw p' h
    obtain ⟨hs, hpass⟩ := (forwardNext_eq_some reg policy dir).mp h
    exact length_lt_of_pass hpass hs
  exact ⟨_, _, reads_readAll _ p.2.length p, next_readAll hsize le_rfl⟩

theorem forward_of_reads {s : Bytes} {p' : σ × Bytes}
    (h : Reads (forwardNext reg policy dir) (state, s) frames p')
    (hstuck : forwardNext reg policy dir p' = none) : ∃ ret,
      (firewalledRelay reg policy).forward dir state s = some (frames.flatten, ret)
        ∧ (ret = none ↔ p'.2 = []) :=
  forwardLoop_of_reads reg policy dir h hstuck (Nat.lt_succ_self _) []

/-- **Forwarding streams**: more input only adds to what was written, and a second relay of the same
kind passes all of it on and ends cleanly. -/
theorem forward_streams (state : σ) (s t : Bytes) : ∃ out more ret ret',
      (firewalledRelay reg policy).forward dir state s = some (out, ret)
        ∧ (firewalledRelay reg policy).forward dir state (s ++ t) = some (out ++ more, ret')
        ∧ (firewalledRelay reg policy).forward dir state out = some (out, none) := by
  obtain ⟨frames, ⟨state', rest⟩, hreads, hstuck⟩ := exists_reads reg policy dir (state, s)
  obtain ⟨hpass, hs⟩ := passAll_of_reads reg policy dir hreads
  obtain ⟨more, p', hmore, hstuck'⟩ := exists_reads reg policy dir (state', rest ++ t)
  obtain ⟨ret, hret, -⟩ := forward_of_reads reg policy dir hreads hstuck
  have hlonger := (reads_of_passAll reg policy dir (rest ++ t) hpass).trans hmore
  rw [← append_assoc, show frames.flatten ++ rest = s from hs.symm] at hlonger
  obtain ⟨ret', hret', -⟩ := forward_of_reads reg policy dir hlonger hstuck'
  have hend : forwardNext reg policy dir (state', []) = none := by
    refine Option.eq_none_iff_forall_ne_some.mpr fun q hq => ?_
    obtain ⟨hs, hpass⟩ := (forwardNext_eq_some reg policy dir).mp hq
    exact absurd (length_lt_of_pass hpass hs) (Nat.not_lt_zero _)
  have hwhole := reads_of_passAll reg policy dir [] hpass
  rw [append_nil] at hwhole
  obtain ⟨ret'', hagain, hclean⟩ := forward_of_reads reg policy dir hwhole hend
  rw [hclean.mpr rfl] at hagain
  exact ⟨_, more.flatten, ret, ret', hret, flatten_append ▸ hret', hagain⟩

/-- The frame is valid and the policy denies neither its channel nor its type. -/
def ChannelPolicy.Allows (p : ChannelPolicy) (reg : Registries) (raw : Bytes) : Prop :=
  ∃ f, unmarshalBinary raw = .ok f ∧ reg.validate f = .ok ()
    ∧ p.deniedChannels.lookup f.channel = none
    ∧ p.deniedFrameTypes.lookup (f.channel, f.type) = none

theorem pass_decide {p : ChannelPolicy} {raw : Bytes} :
    pass reg (some p.decide) dir state raw = some state' ↔ state' = state ∧ p.Allows reg raw := by
  have hdecide (f : Frame) : p.decide state dir (ofFrame raw f) = .ok state' ↔ state' = state
      ∧ p.deniedChannels.lookup f.channel = none
      ∧ p.deniedFrameTypes.lookup (f.channel, f.type) = none := by
    unfold ChannelPolicy.decide
    simp only [show (ofFrame raw f).channel = f.channel from rfl,
      show (ofFrame raw f).type = f.type from rfl]
    split
    · simp [*]
    · split <;> simp [*, eq_comm]
  simp only [pass_eq_some, reduceCtorEq, false_and, false_or, Option.some.injEq, exists_eq_left',
    hdecide, ChannelPolicy.Allows]
  grind

/-- **A channel policy filters single frames**: the relay forwards the frames up to the first one
that is incomplete, invalid or denied. -/
theorem channelPolicy_forward (p : ChannelPolicy) (state : σ) (s : Bytes) :
    ∃ (frames : List Bytes) (rest : Bytes) (ret : Option GoError),
      (firewalledRelay reg (some p.decide)).forward dir state s = some (frames.flatten, ret)
        ∧ s = frames.flatten ++ rest ∧ (∀ raw ∈ frames, p.Allows reg raw)
        ∧ ∀ raw rest', rest = raw ++ rest' → ¬ p.Allows reg raw := by
  obtain ⟨frames, q, hreads, hstuck⟩ := exists_reads reg (some p.decide) dir (state, s)
  obtain ⟨ret, hret, -⟩ := forward_of_reads reg (some p.decide) dir hreads hstuck
  refine ⟨frames, q.2, ret, hret, (passAll_of_reads reg _ dir hreads).2, ?_, ?_⟩
  · clear hstuck hret
    generalize (state, s) = start at hreads
    induction hreads with
    | nil => exact forall_mem_nil _
    | cons hnext _ ih =>
      obtain ⟨-, hpass⟩ := (forwardNext_eq_some reg _ dir).mp hnext
      exact forall_mem_cons.mpr ⟨((pass_decide reg dir).mp hpass).2, ih⟩
  · intro raw rest' hrest hallows
    have hnext : forwardNext reg (some p.decide) dir q = some (raw, q.1, rest') :=
      (forwardNext_eq_some reg _ dir).mpr ⟨hrest, (pass_decide reg dir).mpr ⟨rfl, hallows⟩⟩
    cases hstuck.symm.trans hnext

end Forward

def pingRegistries : Registries :=
  { channels := [(0, "Control")], systemFrames := [(1, "PING")], chanFrames := [] }

def allowFrames : HookFunc Nat
  | 0, _, _ => .error (errorf "policy: no more frames")
  | n + 1, _, _ => .ok n

def pingOctets : Bytes :=
  Frame.marshalBinary { version := 2, flags := 0, type := 1, channel := 0, seq := 0, payload := [] }

def meteredRelay : Relay Nat :=
  { hook := some (firewallHook pingRegistries (some allowFrames)), maxFrameSize := 0 }

theorem firewalled_forward_one_of_two :
    ∃ (frames : List Bytes) (rest : Bytes) (ret : Option GoError),
      meteredRelay.forward .aToB 1 (pingOctets ++ pingOctets) = some (frames.flatten, ret)
        ∧ frames.flatten = pingOctets ∧ rest = pingOctets ∧ ret ≠ none := by
  obtain ⟨frames, rest, ret, hforward, hs, -, -, hret⟩ :=
    firewalled_forward pingRegistries (some allowFrames) .aToB 1 (pingOctets ++ pingOctets) _ rfl
  have hwritten : (meteredRelay.forward .aToB 1 (pingOctets ++ pingOctets)).map Prod.fst
      = some pingOctets := by
    decide +kernel
  have hframes : frames.flatten = pingOctets := by
    rw [show meteredRelay.forward .aToB 1 (pingOctets ++ pingOctets) = _ from hforward] at hwritten
    exact Option.some.inj hwritten
  have hrest : rest = pingOctets := by
    rw [hframes] at hs
    exact (List.append_cancel_left hs).symm
  refine ⟨frames, rest, ret, hforward, hframes, hrest, fun hnil => ?_⟩
  exact absurd (hrest.symm.trans (hret.mp hnil)) (by decide +kernel)

end Npamp
