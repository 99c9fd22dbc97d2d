import Npamp.Proxy.Calls
import Mathlib.Tactic

/-!
# The steps of the calls

What each step of a call or of the receive loop does, said once, and what the log says about a call
after one more frame.
-/

namespace Npamp

open Calls

variable {s s' : Calls} {i j n : Nat} {c c' : BridgeCall} {r : PendingReply}

theorem Calls.put_getElem? (hc : s.calls[i]? = some c) :
    (s.put i c').calls[j]? = if j = i then some c' else s.calls[j]? := by
  obtain ⟨hi, -⟩ := List.getElem?_eq_some_iff.mp hc
  simp [put, List.getElem?_set, hi, eq_comm]

theorem CallPhase.live_of_waits {p : CallPhase} (h : p.waits) : p.live := by
  cases p with
  | sending => rfl
  | waiting => rfl
  | leaving => rfl
  | returned => cases h

theorem CallPhase.not_waits_of_returns {p : CallPhase} (h : p.returns n r) : p.waits = false := by
  cases p with
  | sending => cases h
  | waiting => cases h
  | leaving => rfl
  | returned => rfl

theorem CallPhase.returns_unique {p : CallPhase} {m : Nat} {r' : PendingReply}
    (h : p.returns n r) (h' : p.returns m r') : n = m ∧ r = r' := by
  cases p with
  | sending => cases h
  | waiting => cases h
  | leaving outcome =>
    cases outcome <;> first | exact ⟨h.1.symm.trans h'.1, h.2.symm.trans h'.2⟩ | cases h
  | returned outcome =>
    cases outcome <;> first | exact ⟨h.1.symm.trans h'.1, h.2.symm.trans h'.2⟩ | cases h

@[simp]
theorem CallPhase.returns_returned {outcome : CallOutcome} :
    (CallPhase.returned outcome).returns n r ↔ (CallPhase.leaving outcome).returns n r := by
  cases outcome <;> rfl

theorem CallPhase.outcome_of_returns {outcome : CallOutcome}
    (h : (CallPhase.leaving outcome).returns n r) : outcome = .reply n r := by
  cases outcome with
  | reply m r' =>
    obtain ⟨rfl, rfl⟩ := h
    rfl
  | _ => cases h

namespace Calls

theorem sent_eq_some {err : Option GoError} (hstep : s.sent i err = some s') :
    ∃ c, s.calls[i]? = some c ∧ c.phase = .sending ∧
      (err = none ∧ s' = s.put i { c with phase := .waiting } ∨
        ∃ e, err = some e ∧ s' = s.put i { c with phase := .leaving (.sendFailed e) }) := by
  unfold sent at hstep
  split at hstep
  · cases hstep
  rename_i c hc
  split at hstep
  · cases hstep
    exact ⟨c, hc, ‹_›, .inl ⟨rfl, rfl⟩⟩
  · cases hstep
    exact ⟨c, hc, ‹_›, .inr ⟨_, rfl, rfl⟩⟩
  · cases hstep

theorem expire_eq_some (hstep : s.expire i = some s') :
    ∃ c, s.calls[i]? = some c ∧ s' = s.put i { c with ctxDone := true } := by
  unfold expire at hstep
  split at hstep
  · cases hstep
  · rename_i c hc
    cases hstep
    exact ⟨c, hc, rfl⟩

theorem takeReply_eq_some (hstep : s.takeReply i = some s') :
    ∃ c n r rest phase, s.calls[i]? = some c ∧ c.phase = .waiting ∧ c.replyCh = (n, r) :: rest ∧
      phase.returns n r ∧ phase.live = c.kind.isStream ∧
      s' = s.put i { c with replyCh := rest, phase := phase } := by
  unfold takeReply at hstep
  split at hstep
  · cases hstep
  rename_i c hc
  split at hstep
  · rename_i n r rest hphase hreply
    cases hstep
    refine ⟨c, n, r, rest, _, hc, hphase, hreply, ?_, ?_, rfl⟩
    · split <;> exact ⟨rfl, rfl⟩
    split
    · rename_i hstream
      exact hstream.symm
    · rename_i hstream
      exact (by simpa using hstream : c.kind.isStream = false).symm
  · cases hstep

theorem takeChunk_eq_some (hstep : s.takeChunk i = some s') :
    ∃ c chunk rest, s.calls[i]? = some c ∧ c.phase = .waiting ∧ c.dataCh = chunk :: rest ∧
      s' = s.put i (c.collect chunk rest) := by
  unfold takeChunk at hstep
  split at hstep
  · cases hstep
  rename_i c hc
  split at hstep
  · cases hstep
    exact ⟨c, _, _, hc, ‹_›, ‹_›, rfl⟩
  · cases hstep

theorem takeDone_eq_some (hstep : s.takeDone i = some s') :
    ∃ c, s.calls[i]? = some c ∧ c.phase = .waiting ∧ c.ctxDone = true ∧
      s' = s.put i { c with phase := .leaving .ctxErr } := by
  unfold takeDone at hstep
  split at hstep
  · cases hstep
  rename_i c hc
  split at hstep
  · cases hstep
    exact ⟨c, hc, ‹_›, ‹_›, rfl⟩
  · cases hstep

theorem cleanup_eq_some (hstep : s.cleanup i = some s') :
    ∃ c outcome, s.calls[i]? = some c ∧ c.phase = .leaving outcome ∧
      s' = { s.put i { c with phase := .returned outcome } with
        pending := Function.update s.pending c.corrID none
        streamPending :=
          if c.kind.isStream then Function.update s.streamPending c.corrID none
          else s.streamPending } := by
  unfold cleanup at hstep
  split at hstep
  · cases hstep
  rename_i c hc
  split at hstep
  · cases hstep
    exact ⟨c, _, hc, ‹_›, rfl⟩
  · cases hstep

/-- The receive loop sends what it holds on the channel of the call it found. -/
theorem hand_eq_some (hstep : s.hand = some s') :
    (∃ i n r c, s.handing = some (.reply i n r) ∧ s.calls[i]? = some c ∧
      s' = { s.put i { c with replyCh := [(n, r)] } with handing := none }) ∨
    (∃ i chunk c, s.handing = some (.chunk i chunk) ∧ s.calls[i]? = some c ∧
      (s' = { s.put i { c with dataCh := c.dataCh ++ [chunk] } with handing := none } ∨
        s' = { s with handing := none })) := by
  unfold hand at hstep
  split at hstep
  · cases hstep
  · rename_i i n r hhand
    split at hstep
    · cases hstep
    rename_i c hc
    split at hstep
    · cases hstep
      exact .inl ⟨i, n, r, c, hhand, hc, rfl⟩
    · cases hstep
  · rename_i i chunk hhand
    split at hstep
    · cases hstep
    rename_i c hc
    refine .inr ⟨i, chunk, c, hhand, hc, ?_⟩
    split at hstep
    · cases hstep
      exact .inl rfl
    · cases hstep
      exact .inr rfl

/-- A frame is ignored, or delivered by one of the two maps. -/
theorem frame_eq_some {p : BridgePacket} (hstep : s.frame p = some s') : s.handing = none ∧
      (s' = s ∨ ∃ r, p.received = some r ∧
        (r.isReply ∧ s' = s.deliverReply r ∨
          r.isReply = false ∧ r.isStream ∧ s' = s.handleInboundStreamFrame r)) := by
  unfold frame at hstep
  split at hstep
  · cases hstep
  rename_i hnone
  refine ⟨hnone, ?_⟩
  split at hstep
  · cases hstep
    exact .inl rfl
  rename_i r hr
  split at hstep
  · rename_i hreply
    cases hstep
    exact .inr ⟨r, hr, .inl ⟨hreply, rfl⟩⟩
  · rename_i hreply
    split at hstep
    · rename_i hstream
      cases hstep
      exact .inr ⟨r, hr, .inr ⟨by simpa using hreply, hstream, rfl⟩⟩
    · cases hstep
      exact .inl rfl

end Calls

theorem BridgeCall.collect_cases (c : BridgeCall) (chunk : StreamChunk) (rest : List StreamChunk) :
    ∃ tracker events phase,
      c.collect chunk rest
        = { c with dataCh := rest, tracker := tracker, events := events, phase := phase } ∧
      (phase = c.phase ∨ ∃ result, phase = .leaving (.collected result)) := by
  unfold BridgeCall.collect
  split
  · exact ⟨_, _, _, rfl, .inr ⟨_, rfl⟩⟩
  split
  · exact ⟨_, _, _, rfl, .inr ⟨_, rfl⟩⟩
  · split
    · exact ⟨_, _, _, rfl, .inr ⟨_, rfl⟩⟩
    · exact ⟨_, _, _, rfl, .inl rfl⟩

namespace Calls

theorem framesFor_append (hlog : s'.log = s.log ++ [r]) (hsince : c.since ≤ s.log.length) :
    s'.framesFor c = s.framesFor c ++ if r.env.correlationID = c.corrID then [r] else [] := by
  unfold framesFor
  rw [hlog, List.drop_append_of_le_length hsince, List.filter_append]
  congr 1
  by_cases h : r.env.correlationID = c.corrID <;> simp [h]

theorem answered_append (hlog : s'.log = s.log ++ [r]) (hsince : c.since ≤ s.log.length) :
    s'.answered c ↔ s.answered c ∨ r.isReply ∧ r.env.correlationID = c.corrID := by
  unfold answered
  rw [framesFor_append hlog hsince, List.any_append, Bool.or_eq_true]
  by_cases h : r.env.correlationID = c.corrID <;> simp [h]

theorem streamed_append (hlog : s'.log = s.log ++ [r]) (hsince : c.since ≤ s.log.length) :
    s'.streamed c ↔ s.streamed c ∨ r.isStream ∧ r.env.correlationID = c.corrID := by
  unfold streamed
  rw [framesFor_append hlog hsince, List.any_append, Bool.or_eq_true]
  by_cases h : r.env.correlationID = c.corrID <;> simp [h]

theorem answered_congr (hlog : s'.log = s.log) : s'.answered c = s.answered c := by
  unfold answered framesFor
  rw [hlog]

theorem streamed_congr (hlog : s'.log = s.log) : s'.streamed c = s.streamed c := by
  unfold streamed framesFor
  rw [hlog]

/-- The reply that call `c` has under number `n` came from the wire while `c` was out, under its
correlation_id. -/
structure Origin (s : Calls) (c : BridgeCall) (n : Nat) (r : PendingReply) : Prop where
  logged : s.log[n]? = some r
  since : c.since ≤ n
  isReply : r.isReply
  corrID : r.env.correlationID = c.corrID

theorem Origin.lt (h : s.Origin c n r) : n < s.log.length :=
  (List.getElem?_eq_some_iff.mp h.logged).1

theorem Origin.answered (h : s.Origin c n r) : s.answered c := by
  refine List.any_eq_true.mpr ⟨r, ?_, h.isReply⟩
  refine List.mem_filter.mpr ⟨?_, by simpa using h.corrID⟩
  refine List.mem_of_getElem? (i := n - c.since) ?_
  rw [List.getElem?_drop, Nat.add_sub_cancel' h.since]
  exact h.logged

theorem Origin.mono (h : s.Origin c n r) {rest : List PendingReply}
    (hlog : s'.log = s.log ++ rest) : s'.Origin c n r := by
  refine ⟨?_, h.since, h.isReply, h.corrID⟩
  rw [hlog, List.getElem?_append_left h.lt]
  exact h.logged

theorem Origin.congr (h : s.Origin c n r) (hlog : s'.log = s.log) : s'.Origin c n r :=
  ⟨hlog ▸ h.logged, h.since, h.isReply, h.corrID⟩

end Calls

end Npamp
