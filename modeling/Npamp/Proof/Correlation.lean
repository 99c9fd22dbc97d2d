import Npamp.Proof.Calls

/-!
# Reply correlation

A reply taken for a waiting call stays with it until the call returns it, unless there is a race for
its key.
-/

namespace Npamp

variable {s s' : Calls} {i j n : Nat} {c c' d : BridgeCall} {r : PendingReply}

namespace Calls

theorem Keeps.put (hkeeps : s.Keeps i n r) (hc : s.calls[j]? = some c) (hji : j ≠ i) :
    (s.put j c').Keeps i n r := by
  obtain ⟨d, hd, hrest⟩ := hkeeps
  exact ⟨d, by rw [put_getElem? hc, if_neg (Ne.symm hji)]; exact hd, hrest⟩

theorem Keeps.gets (hkeeps : s.Keeps i n r) : s.Gets i n r := by
  obtain ⟨c, hc, hreturns | ⟨-, -, -, ⟨hhand, -⟩ | hreply⟩⟩ := hkeeps
  · exact .inr ⟨c, hc, .inr hreturns⟩
  · exact .inl hhand
  · exact .inr ⟨c, hc, .inl (by simp [hreply])⟩

theorem Keeps.answered (hkeeps : s.Keeps i n r) (h : s.Inv) (hc : s.calls[i]? = some c) :
    s.answered c := by
  obtain ⟨d, hd, horigin⟩ := h.gets_origin hkeeps.gets
  cases hd.symm.trans hc
  exact horigin.answered

theorem call_calls (s : Calls) (kind : CallKind) (random : Vector UInt8 16) :
    (s.call kind random).handing = s.handing ∧ (s.call kind random).log = s.log ∧
      ∃ c, (s.call kind random).calls = s.calls ++ [c] := by
  unfold Calls.call
  dsimp only
  split
  · exact ⟨rfl, rfl, _, rfl⟩
  · split <;> exact ⟨rfl, rfl, _, rfl⟩

theorem Keeps.hand (hkeeps : s.Keeps i n r) (h : s.Inv) (hstep : s.hand = some s') :
    s'.Keeps i n r := by
  obtain ⟨d, hd, hrest⟩ := id hkeeps
  obtain ⟨j, m, r', c, hhand, hc, rfl⟩ | ⟨j, chunk, c, hhand, hc, hnext⟩ :=
    hand_eq_some hstep
  · by_cases hji : j = i
    · subst hji
      cases hd.symm.trans hc
      refine ⟨_, (put_getElem? hc).trans (if_pos rfl), ?_⟩
      rcases hrest with hreturns | ⟨hwaits, hctx, hdata, hreply⟩
      · exact .inl hreturns
      refine .inr ⟨hwaits, hctx, hdata, .inr ?_⟩
      rcases hreply with ⟨hmine, -⟩ | hreply
      · cases hhand.symm.trans hmine
        rfl
      obtain ⟨e, he, hempty, -⟩ := h.handed j m r' hhand
      cases he.symm.trans hc
      rw [hreply] at hempty
      cases hempty
    · refine ⟨d, ?_, ?_⟩
      · exact (put_getElem? hc).trans (by rw [if_neg (Ne.symm hji)]; exact hd)
      rcases hrest with hreturns | ⟨hwaits, hctx, hdata, ⟨hmine, -⟩ | hreply⟩
      · exact .inl hreturns
      · cases hhand.symm.trans hmine
        exact absurd rfl hji
      · exact .inr ⟨hwaits, hctx, hdata, .inr hreply⟩
  · -- a chunk never comes to a waiting call whose reply was taken
    have hother : ∀ e : BridgeCall, s.calls[i]? = some e → e.phase.waits → j ≠ i := by
      rintro e he hwaits rfl
      exact ((h.fits j e he).quiet (hkeeps.answered h he) hwaits).2.2 chunk hhand
    have hmine : s.handing ≠ some (.reply i n r) := by
      rw [hhand]
      exact nofun
    rcases hnext with rfl | rfl
    · by_cases hji : j = i
      · subst hji
        cases hd.symm.trans hc
        refine ⟨_, (put_getElem? hc).trans (if_pos rfl), ?_⟩
        rcases hrest with hreturns | ⟨hwaits, -⟩
        · exact .inl hreturns
        · exact absurd rfl (hother _ hc hwaits)
      · refine ⟨d, ?_, ?_⟩
        · exact (put_getElem? hc).trans (by rw [if_neg (Ne.symm hji)]; exact hd)
        · exact hrest.imp_right fun ⟨hwaits, hctx, hdata, hreply⟩ =>
            ⟨hwaits, hctx, hdata, hreply.imp_left fun hh => absurd hh.1 hmine⟩
    · exact ⟨d, hd, hrest.imp_right fun ⟨hwaits, hctx, hdata, hreply⟩ =>
        ⟨hwaits, hctx, hdata, hreply.imp_left fun hh => absurd hh.1 hmine⟩⟩

theorem Keeps.frame {p : BridgePacket} (hkeeps : s.Keeps i n r)
    (hstep : s.frame p = some s') : s'.Keeps i n r := by
  obtain ⟨d, hd, hrest⟩ := id hkeeps
  obtain ⟨hnone, rfl | ⟨r', -, ⟨-, rfl⟩ | ⟨-, -, rfl⟩⟩⟩ := frame_eq_some hstep
  · exact hkeeps
  all_goals
    have hcalls : s.calls[i]? = some d ∧ (d.phase.returns n r ∨
        d.phase.waits ∧ d.ctxDone = false ∧ d.dataCh = [] ∧ d.replyCh = [(n, r)]) := by
      refine ⟨hd, hrest.imp_right fun ⟨hwaits, hctx, hdata, hreply⟩ => ⟨hwaits, hctx, hdata, ?_⟩⟩
      rcases hreply with ⟨hhand, -⟩ | hreply
      · rw [hnone] at hhand
        cases hhand
      · exact hreply
    refine ⟨d, ?_, hcalls.2.imp_right fun ⟨hwaits, hctx, hdata, hreply⟩ =>
      ⟨hwaits, hctx, hdata, .inr hreply⟩⟩
  · unfold Calls.deliverReply
    split <;> exact hd
  · unfold Calls.handleInboundStreamFrame
    split <;> exact hd

/-- **No step takes a reply from its call.** -/
theorem Keeps.step {a : CallAction} (hkeeps : s.Keeps i n r) (h : s.Inv)
    (hok : s.Untroubled a) (hstep : s.step a = some s') : s'.Keeps i n r := by
  obtain ⟨d, hd, hrest⟩ := id hkeeps
  cases a with
  | call kind random =>
    cases hstep
    obtain ⟨hhanding, -, c, hcalls⟩ := s.call_calls kind random
    refine ⟨d, ?_, by rw [hhanding]; exact hrest⟩
    rw [hcalls, List.getElem?_append_left (List.getElem?_eq_some_iff.mp hd).1]
    exact hd
  | sent j err =>
    obtain ⟨c, hc, hphase, hnext⟩ := sent_eq_some hstep
    by_cases hji : j = i
    · subst hji
      cases hd.symm.trans hc
      rcases hrest with hreturns | ⟨hwaits, hctx, hdata, hreply⟩
      · rw [hphase] at hreturns
        cases hreturns
      obtain ⟨-, rfl⟩ | ⟨e, rfl, -⟩ := hnext
      · exact ⟨_, (put_getElem? hc).trans (if_pos rfl), .inr ⟨rfl, hctx, hdata, hreply⟩⟩
      · have hfree := hok d hc rfl
        rw [hkeeps.answered h hc] at hfree
        cases hfree
    · obtain ⟨-, rfl⟩ | ⟨e, -, rfl⟩ := hnext
      · exact hkeeps.put hc hji
      · exact hkeeps.put hc hji
  | expire j =>
    obtain ⟨c, hc, rfl⟩ := expire_eq_some hstep
    by_cases hji : j = i
    · subst hji
      cases hd.symm.trans hc
      refine ⟨_, (put_getElem? hc).trans (if_pos rfl), ?_⟩
      rcases hrest with hreturns | ⟨hwaits, -⟩
      · exact .inl hreturns
      · have hfree := hok d hc hwaits
        rw [hkeeps.answered h hc] at hfree
        cases hfree
    · exact hkeeps.put hc hji
  | takeReply j =>
    obtain ⟨c, m, r', rest, phase, hc, hphase, hch, hreturns', -, rfl⟩ :=
      takeReply_eq_some hstep
    by_cases hji : j = i
    · subst hji
      cases hd.symm.trans hc
      refine ⟨_, (put_getElem? hc).trans (if_pos rfl), .inl ?_⟩
      rcases hrest with hreturns | ⟨-, -, -, ⟨-, hempty⟩ | hreply⟩
      · rw [hphase] at hreturns
        cases hreturns
      · rw [hch] at hempty
        cases hempty
      · rw [hch] at hreply
        cases hreply
        exact hreturns'
    · exact hkeeps.put hc hji
  | takeChunk j =>
    obtain ⟨c, chunk, rest, hc, hphase, hch, rfl⟩ := takeChunk_eq_some hstep
    by_cases hji : j = i
    · subst hji
      cases hd.symm.trans hc
      rcases hrest with hreturns | ⟨-, -, hdata, -⟩
      · rw [hphase] at hreturns
        cases hreturns
      · rw [hch] at hdata
        cases hdata
    · exact hkeeps.put hc hji
  | takeDone j =>
    obtain ⟨c, hc, hphase, hdone, rfl⟩ := takeDone_eq_some hstep
    by_cases hji : j = i
    · subst hji
      cases hd.symm.trans hc
      rcases hrest with hreturns | ⟨-, hctx, -⟩
      · rw [hphase] at hreturns
        cases hreturns
      · rw [hdone] at hctx
        cases hctx
    · exact hkeeps.put hc hji
  | cleanup j =>
    obtain ⟨c, outcome, hc, hphase, rfl⟩ := cleanup_eq_some hstep
    by_cases hji : j = i
    · subst hji
      cases hd.symm.trans hc
      refine ⟨_, (put_getElem? hc).trans (if_pos rfl), .inl ?_⟩
      rcases hrest with hreturns | ⟨hwaits, -⟩
      · rw [hphase] at hreturns
        exact CallPhase.returns_returned.mpr hreturns
      · rw [hphase] at hwaits
        cases hwaits
    · exact hkeeps.put hc hji
  | frame p => exact hkeeps.frame hstep
  | hand => exact hkeeps.hand h hstep

theorem Keeps.run (hkeeps : s.Keeps i n r) (h : s.Inv)
    (hreach : Run.Reaches Calls.step Untroubled s s') : s'.Inv ∧ s'.Keeps i n r := by
  induction hreach with
  | start => exact ⟨h, hkeeps⟩
  | next _ hok hstep ih => exact ⟨ih.1.step hok hstep, ih.2.step ih.1 hok hstep⟩

theorem Inv.keeps_frame {p : BridgePacket} (h : s.Inv) (hc : s.calls[i]? = some c)
    (hwaits : c.phase.waits) (hfree : s.answered c = false) (hr : p.received = some r)
    (hreply : r.isReply) (hkey : r.env.correlationID = c.corrID) (hok : s.Untroubled (.frame p))
    (hstep : s.frame p = some s') : s'.Keeps i s.log.length r := by
  have hfits := h.fits i c hc
  obtain ⟨hctx, hnot⟩ := (hok r hr c (List.mem_of_getElem? hc) hkey.symm hwaits
    (holdsKey_of_free (CallPhase.live_of_waits hwaits) hfree)).1 hreply
  have hdata : c.dataCh = [] := by
    by_contra hne
    rw [hfits.begun (.inl hne)] at hnot
    cases hnot
  have hwaiter : s.pending r.env.correlationID = some i := by
    rw [hkey]
    exact hfits.registered hwaits hfree
  unfold Calls.frame at hstep
  split at hstep
  · cases hstep
  · simp only [hr, hreply, if_true, Calls.deliverReply, hwaiter] at hstep
    cases hstep
    exact ⟨c, hc, .inr ⟨hwaits, hctx, hdata, .inl ⟨rfl, hfits.replyCh_eq_nil hfree⟩⟩⟩

/-- Some untroubled continuation lets call `i` return this reply. -/
def Completes (s : Calls) (i n : Nat) (r : PendingReply) : Prop :=
  ∃ s', Run.Reaches Calls.step Untroubled s s' ∧
    ∃ c, s'.calls[i]? = some c ∧ c.phase = .returned (.reply n r)

theorem Completes.of_step {a : CallAction} (hstep : s.step a = some s')
    (hok : s.Untroubled a) (h : s'.Completes i n r) : s.Completes i n r := by
  obtain ⟨s'', hreach, hreturned⟩ := h
  exact ⟨s'', (Run.Reaches.next .start hok hstep).trans hreach, hreturned⟩

theorem put_getElem?_self (c' : BridgeCall) (hc : s.calls[i]? = some c) :
    (s.put i c').calls[i]? = some c' :=
  (put_getElem? hc).trans (if_pos rfl)

theorem completes_of_returns (hc : s.calls[i]? = some c) (hreturns : c.phase.returns n r) :
    s.Completes i n r := by
  cases hphase : c.phase with
  | leaving outcome =>
    have hreply : outcome = .reply n r := by
      rw [hphase] at hreturns
      exact CallPhase.outcome_of_returns hreturns
    have hclean : s.step (.cleanup i) = some
        { s.put i { c with phase := .returned outcome } with
          pending := Function.update s.pending c.corrID none
          streamPending :=
            if c.kind.isStream then Function.update s.streamPending c.corrID none
            else s.streamPending } := by
      simp only [Calls.step, cleanup, hc, hphase]
    have hdone := put_getElem?_self { c with phase := .returned outcome } hc
    exact Completes.of_step hclean trivial ⟨_, .start, _, hdone, by rw [hreply]⟩
  | returned outcome =>
    rw [hphase, CallPhase.returns_returned] at hreturns
    exact ⟨s, .start, c, hc, by rw [hphase, CallPhase.outcome_of_returns hreturns]⟩
  | _ =>
    rw [hphase] at hreturns
    cases hreturns

theorem completes_of_waiting (hc : s.calls[i]? = some c) (hphase : c.phase = .waiting)
    (hreply : c.replyCh = [(n, r)]) : s.Completes i n r := by
  have htake : s.step (.takeReply i) = some (s.put i
      { c with
        replyCh := []
        phase := if c.kind.isStream then .leaving (.reply n r) else .returned (.reply n r) }) := by
    simp only [Calls.step, takeReply, hc, hphase, hreply]
  refine Completes.of_step htake trivial
    (completes_of_returns (put_getElem?_self _ hc) ?_)
  dsimp only
  split <;> exact ⟨rfl, rfl⟩

theorem completes_of_waits (hc : s.calls[i]? = some c) (hwaits : c.phase.waits)
    (hreply : c.replyCh = [(n, r)]) : s.Completes i n r := by
  cases hphase : c.phase with
  | sending =>
    have hsent : s.step (.sent i none) = some (s.put i { c with phase := .waiting }) := by
      simp only [Calls.step, sent, hc, hphase]
    refine Completes.of_step hsent ?_
      (completes_of_waiting (put_getElem?_self _ hc) rfl hreply)
    rintro d - hfailed
    cases hfailed
  | waiting => exact completes_of_waiting hc hphase hreply
  | _ =>
    rw [hphase] at hwaits
    cases hwaits

theorem Keeps.completes (hkeeps : s.Keeps i n r) : s.Completes i n r := by
  obtain ⟨c, hc, hreturns | ⟨hwaits, -, -, ⟨hhand, hempty⟩ | hreply⟩⟩ := hkeeps
  · exact completes_of_returns hc hreturns
  · have hhanded : s.step .hand
        = some { s.put i { c with replyCh := [(n, r)] } with handing := none } := by
      simp only [Calls.step, Calls.hand, hhand, hc, hempty, if_true]
    exact Completes.of_step hhanded trivial
      (completes_of_waits (c := { c with replyCh := [(n, r)] })
        (put_getElem?_self _ hc) hwaits rfl)
  · exact completes_of_waits hc hwaits hreply

theorem inv_of_reaches (hreach : Run.Reaches Calls.step Untroubled Calls.start s) :
    s.Inv :=
  hreach.invariant inv_start fun _ _ _ h hok hstep => h.step hok hstep

end Calls

/-- **Reply correlation**, in a run without a race for a key: each reply is with at most one call
and that call returns it, and no call removes another's waiter. -/
theorem replies_undisturbed (hreach : Run.Reaches Calls.step Calls.Untroubled Calls.start s) :
    s.Undisturbed ∧
      ∀ (i : Nat) (c : BridgeCall) (p : BridgePacket) (r : PendingReply) (s' s'' : Calls),
        s.calls[i]? = some c → c.phase.waits → s.answered c = false →
        p.received = some r → r.isReply → r.env.correlationID = c.corrID →
        s.Untroubled (.frame p) → s.frame p = some s' →
        Run.Reaches Calls.step Calls.Untroubled s' s'' →
        s''.Keeps i s.log.length r ∧ s''.Completes i s.log.length r := by
  have hinv := Calls.inv_of_reaches hreach
  refine ⟨hinv.undisturbed, ?_⟩
  intro i c p r s' s'' hc hwaits hfree hr hreply hkey hok hstep hafter
  have htaken : s'.Keeps i s.log.length r :=
    hinv.keeps_frame hc hwaits hfree hr hreply hkey hok hstep
  have hkeeps : s''.Keeps i s.log.length r := (htaken.run (hinv.frame hok hstep) hafter).2
  exact ⟨hkeeps, hkeeps.completes⟩

def sampleRandom : Vector UInt8 16 := Vector.replicate 16 0

def callOne : CallAction := .call (.callJSONRPC [0x31] "'\\x01'") sampleRandom

def answerOne : BridgePacket :=
  { ft := frameBridgeResponse
    payload := [0, 16, 0, 8, 0, 1, 2, 1, 0, 1, 0x31, 0, 0x7b, 0x7d] }

theorem CallPhase.exists_leaving {p : CallPhase} (hlive : p.live) (hwaits : p.waits = false) :
    ∃ outcome, p = .leaving outcome := by
  cases p with
  | sending => cases hwaits
  | waiting => cases hwaits
  | leaving outcome => exact ⟨outcome, rfl⟩
  | returned => cases hlive

def lateAnswer : List CallAction :=
  [callOne, .sent 0 none, .expire 0, .takeDone 0, .frame answerOne, .hand, callOne, .sent 1 none]

/-- **A timeout takes the next call's waiter.** A reply is taken before the `cleanup` of its call,
which then removes the waiter of a second call under the same id. -/
theorem cleanup_removes_another_waiter :
    (∃ s, Run.Reaches Calls.step (fun _ _ => True) Calls.start s ∧ ¬ s.Undisturbed) ∧
      ∃ s s' c r, Run.Reaches Calls.step (fun _ _ => True) Calls.start s ∧
        s.calls[1]? = some c ∧ c.phase.waits ∧ c.ctxDone = false ∧ s.answered c = false ∧
        answerOne.received = some r ∧ r.isReply ∧ r.env.correlationID = c.corrID ∧
        s.frame answerOne = some s' ∧ ¬ s'.Keeps 1 s.log.length r := by
  constructor
  · obtain ⟨s, hreach, c, hc, hlive, hwaits, hwaiter⟩ :
        ∃ s, Run.Reaches Calls.step (fun _ _ => True) Calls.start s ∧ ∃ c ∈ s.calls[0]?,
          c.phase.live ∧ c.phase.waits = false ∧ s.pending c.corrID = some 1 :=
      Run.exists_reaches lateAnswer (by decide +kernel)
    refine ⟨s, hreach, fun h => ?_⟩
    obtain ⟨outcome, hphase⟩ := CallPhase.exists_leaving hlive hwaits
    exact absurd (h.ownWaiter 0 c outcome hc hphase 1 hwaiter) (by decide)
  · obtain ⟨s, hreach, s', hstep, c, hc, hwaits, hdone, hanswered, ⟨r, hr, hreply, hid⟩, hnone, c',
        hc', hwaits', hempty⟩ :
        ∃ s, Run.Reaches Calls.step (fun _ _ => True) Calls.start s ∧
          ∃ s' ∈ s.frame answerOne, ∃ c ∈ s.calls[1]?,
            c.phase.waits ∧ c.ctxDone = false ∧ s.answered c = false ∧
            (∃ r ∈ answerOne.received, r.isReply ∧ r.env.correlationID = c.corrID) ∧
            s'.handing.isSome = false ∧
            ∃ c' ∈ s'.calls[1]?, c'.phase.waits ∧ c'.replyCh.map Prod.fst = [] :=
      Run.exists_reaches (lateAnswer ++ [.cleanup 0]) (by decide +kernel)
    refine ⟨s, s', c, r, hreach, hc, hwaits, hdone, hanswered, hr, hreply, hid, hstep, ?_⟩
    rintro ⟨d, hd, hreturns | ⟨-, -, -, ⟨hhand, -⟩ | hch⟩⟩
    · cases hd.symm.trans hc'
      rw [CallPhase.not_waits_of_returns hreturns] at hwaits'
      cases hwaits'
    · rw [hhand] at hnone
      cases hnone
    · cases hd.symm.trans hc'
      rw [hch] at hempty
      cases hempty

theorem replies_undisturbed_one :
    ∃ s s' s'' c r, Run.Reaches Calls.step Calls.Untroubled Calls.start s ∧
      s.calls[0]? = some c ∧ s.frame answerOne = some s' ∧
      Run.Reaches Calls.step Calls.Untroubled s' s'' ∧
      s.Undisturbed ∧ s''.Keeps 0 s.log.length r ∧ s''.Completes 0 s.log.length r := by
  obtain ⟨s, hreach, hok, s', hstep, c, hc, hwaits, hanswered, ⟨r, hr, hreply, hid⟩, hrun⟩ :
      ∃ s, Run.Reaches Calls.step Calls.Untroubled Calls.start s ∧
        s.Untroubled (.frame answerOne) ∧ ∃ s' ∈ s.frame answerOne, ∃ c ∈ s.calls[0]?,
          c.phase.waits ∧ s.answered c = false ∧
          (∃ r ∈ answerOne.received, r.isReply ∧ r.env.correlationID = c.corrID) ∧
          (Run.exec Calls.step (fun s a => s.Untroubled a) s' [.hand, .takeReply 0]).any
            (fun _ => True) = true :=
    Run.exists_reaches [callOne, .sent 0 none] (by decide +kernel)
  obtain ⟨s'', hreach', -⟩ := Run.exists_reaches _ hrun
  have h := replies_undisturbed hreach
  exact ⟨s, s', s'', c, r, hreach, hc, hstep, hreach', h.1,
    h.2 0 c answerOne r s' s'' hc hwaits hanswered hr hreply hid hok hstep hreach'⟩

end Npamp
