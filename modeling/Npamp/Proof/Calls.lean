import Npamp.Proof.CallSteps

/-!
# The waiters of a proxy

The invariant ties each key of the two maps to the one unreturned call that has it.
-/

namespace Npamp

open Function BridgeCall

variable {s s' : Calls} {i j n : Nat} {c c' d : BridgeCall} {r : PendingReply}

namespace Calls

/-- What holds of one call: where its replies came from, and that it is registered as long as it
waits unanswered. -/
structure Fits (s : Calls) (i : Nat) (c : BridgeCall) : Prop where
  since : c.since ≤ s.log.length
  origin : ∀ n r, c.Has n r → s.Origin c n r
  quiet : s.answered c → c.phase.waits →
    c.ctxDone = false ∧ c.dataCh = [] ∧ ∀ chunk, s.handing ≠ some (.chunk i chunk)
  begun : (c.dataCh ≠ [] ∨ ∃ chunk, s.handing = some (.chunk i chunk)) → s.streamed c
  registered : c.phase.waits → s.answered c = false → s.pending c.corrID = some i

/-- The invariant of every untroubled run: calls that hold a key hold different ones, the maps point
at live calls, and no reply reaches two calls. -/
structure Inv (s : Calls) : Prop where
  fits : ∀ i c, s.calls[i]? = some c → s.Fits i c
  distinct : ∀ (i j : Nat) (c d : BridgeCall), s.calls[i]? = some c → s.calls[j]? = some d →
    s.holdsKey c → s.holdsKey d → c.corrID = d.corrID → i = j
  pending : ∀ k i, s.pending k = some i →
    ∃ c, s.calls[i]? = some c ∧ c.corrID = k ∧ c.phase.live ∧ s.answered c = false
  stream : ∀ k i, s.streamPending k = some i →
    ∃ c, s.calls[i]? = some c ∧ c.corrID = k ∧ c.phase.live ∧ c.kind.isStream
  handed : ∀ i n r, s.handing = some (.reply i n r) →
    ∃ c, s.calls[i]? = some c ∧ c.replyCh = [] ∧ s.Origin c n r
  chunked : ∀ i chunk, s.handing = some (.chunk i chunk) → ∃ c, s.calls[i]? = some c
  single : ∀ i j n r r', s.Gets i n r → s.Gets j n r' → i = j

theorem holdsKey_of_free (hlive : c.phase.live) (hfree : s.answered c = false) : s.holdsKey c := by
  simp [holdsKey, hlive, hfree]

theorem holdsKey_of_isStream (hlive : c.phase.live) (hstream : c.kind.isStream) :
    s.holdsKey c := by
  simp [holdsKey, hlive, hstream]

theorem holdsKey_of_not_waits (hlive : c.phase.live) (hwaits : c.phase.waits = false) :
    s.holdsKey c := by
  simp [holdsKey, hlive, hwaits]

theorem holdsKey_mono (hans : s.answered c → s'.answered c) (h : s'.holdsKey c) : s.holdsKey c := by
  cases hanswered : s.answered c with
  | false =>
    rw [holdsKey, Bool.and_eq_true] at h
    exact holdsKey_of_free h.1 hanswered
  | true =>
    rw [holdsKey, hans hanswered] at h
    rw [holdsKey, hanswered]
    exact h

theorem Fits.replyCh_eq_nil (h : s.Fits i c) (hans : s.answered c = false) :
    c.replyCh = [] := by
  refine List.eq_nil_iff_forall_not_mem.mpr fun ⟨n, r⟩ hmem => ?_
  have horigin := h.origin n r (.inl hmem)
  rw [horigin.answered] at hans
  cases hans

theorem Inv.pending_ne (h : s.Inv) (hc : s.calls[i]? = some c) (hans : s.answered c)
    (k : Bytes) : s.pending k ≠ some i := by
  intro hk
  obtain ⟨d, hd, -, -, hfree⟩ := h.pending k i hk
  cases hc.symm.trans hd
  rw [hans] at hfree
  cases hfree

theorem Inv.pending_own (h : s.Inv) (hc : s.calls[i]? = some c) (hholds : s.holdsKey c)
    (hj : s.pending c.corrID = some j) : j = i := by
  obtain ⟨d, hd, hkey, hdlive, hfree⟩ := h.pending _ j hj
  exact h.distinct j i d c hd hc (holdsKey_of_free hdlive hfree) hholds hkey

theorem Inv.stream_own (h : s.Inv) (hc : s.calls[i]? = some c) (hholds : s.holdsKey c)
    (hj : s.streamPending c.corrID = some j) : j = i := by
  obtain ⟨d, hd, hkey, hdlive, hstream⟩ := h.stream _ j hj
  exact h.distinct j i d c hd hc (holdsKey_of_isStream hdlive hstream) hholds hkey

theorem Inv.not_live_ne (h : s.Inv) (hc : s.calls[i]? = some c)
    (hgone : c.phase.live = false) :
    s.pending c.corrID ≠ some i ∧ s.streamPending c.corrID ≠ some i := by
  refine ⟨fun hk => ?_, fun hk => ?_⟩
  · obtain ⟨d, hd, -, hlive, -⟩ := h.pending _ i hk
    cases hd.symm.trans hc
    rw [hlive] at hgone
    cases hgone
  · obtain ⟨d, hd, -, hlive, -⟩ := h.stream _ i hk
    cases hd.symm.trans hc
    rw [hlive] at hgone
    cases hgone

theorem Inv.gets_origin (h : s.Inv) (hgets : s.Gets i n r) :
    ∃ c, s.calls[i]? = some c ∧ s.Origin c n r := by
  rcases hgets with hhand | ⟨c, hc, hhas⟩
  · obtain ⟨c, hc, -, horigin⟩ := h.handed i n r hhand
    exact ⟨c, hc, horigin⟩
  · exact ⟨c, hc, (h.fits i c hc).origin n r hhas⟩

theorem inv_start : start.Inv := by
  constructor <;> simp [Calls.start, Gets]

/-- The invariant gives the property claimed of all calls. -/
theorem Inv.undisturbed (h : s.Inv) : s.Undisturbed := by
  refine ⟨h.single, ?_, ?_, ?_⟩
  · intro i n r hgets
    obtain ⟨c, hc, horigin⟩ := h.gets_origin hgets
    exact ⟨horigin.logged, c, hc, horigin.corrID⟩
  · intro i c outcome hc hphase j hj
    exact h.pending_own hc (holdsKey_of_not_waits (by rw [hphase]; rfl) (by rw [hphase]; rfl)) hj
  · intro i c outcome hc hphase _ j hj
    exact h.stream_own hc (holdsKey_of_not_waits (by rw [hphase]; rfl) (by rw [hphase]; rfl)) hj

theorem Fits.congr (h : s.Fits i c) (hlog : s'.log = s.log)
    (hhanding : ∀ chunk, s'.handing = some (.chunk i chunk) → s.handing = some (.chunk i chunk))
    (hpending : c.phase.waits → s.pending c.corrID = some i → s'.pending c.corrID = some i) :
    s'.Fits i c := by
  have hans : s'.answered c = s.answered c := answered_congr hlog
  refine ⟨?_, ?_, ?_, ?_, ?_⟩
  · rw [hlog]
    exact h.since
  · intro n r hhas
    exact (h.origin n r hhas).congr hlog
  · intro hanswered hwaits
    rw [hans] at hanswered
    obtain ⟨hdone, hdata, hquiet⟩ := h.quiet hanswered hwaits
    exact ⟨hdone, hdata, fun chunk hchunk => hquiet chunk (hhanding chunk hchunk)⟩
  · intro hbegun
    rw [streamed_congr hlog]
    exact h.begun (hbegun.imp_right fun ⟨chunk, hchunk⟩ => ⟨chunk, hhanding chunk hchunk⟩)
  · intro hwaits hanswered
    rw [hans] at hanswered
    exact hpending hwaits (h.registered hwaits hanswered)

/-- **A call moves.** Nothing else changes, and the call keeps its key until it returns. -/
theorem Inv.put (h : s.Inv) (c' : BridgeCall) (hc : s.calls[i]? = some c)
    (hcorr : c'.corrID = c.corrID) (hkind : c'.kind = c.kind) (hsince : c'.since = c.since)
    (hholds : s.holdsKey c' → s.holdsKey c) (hfits : s.Fits i c')
    (hreturned : c'.phase.live = false →
      s.pending c.corrID ≠ some i ∧ s.streamPending c.corrID ≠ some i)
    (hhanded : ∀ n r, s.handing = some (.reply i n r) → c'.replyCh = [])
    (hown : ∀ n r j r', c'.Has n r → s.Gets j n r' → j = i) : (s.put i c').Inv := by
  have hget : ∀ j, (s.put i c').calls[j]? = if j = i then some c' else s.calls[j]? :=
    fun j => put_getElem? hc
  have hgets : ∀ j n r, (s.put i c').Gets j n r → s.Gets j n r ∨ j = i ∧ c'.Has n r := by
    rintro j n r (hhand | ⟨d, hd, hdhas⟩)
    · exact .inl (.inl hhand)
    rw [hget] at hd
    split at hd
    · rename_i hji
      cases hd
      exact .inr ⟨hji, hdhas⟩
    · exact .inl (.inr ⟨d, hd, hdhas⟩)
  have hans : s.answered c' = s.answered c := by
    unfold answered framesFor
    rw [hcorr, hsince]
  -- a call found in the new state is an old one with the same key, held no longer than before
  have hold : ∀ (j : Nat) (d : BridgeCall), (s.put i c').calls[j]? = some d →
      ∃ e : BridgeCall, s.calls[j]? = some e ∧ d.corrID = e.corrID ∧
        (s.holdsKey d → s.holdsKey e) := by
    intro j d hd
    rw [hget] at hd
    split at hd
    · rename_i hji
      cases hd
      subst hji
      exact ⟨c, hc, hcorr, hholds⟩
    · exact ⟨d, hd, rfl, id⟩
  refine ⟨?_, ?_, ?_, ?_, ?_, ?_, ?_⟩
  · intro j d hd
    rw [hget] at hd
    split at hd
    · rename_i hji
      cases hd
      subst hji
      exact hfits.congr rfl (fun _ => id) fun _ => id
    · exact (h.fits j d hd).congr rfl (fun _ => id) fun _ => id
  · intro j k d e hd he hdholds heholds hkey
    obtain ⟨d', hd', hdcorr, hd''⟩ := hold j d hd
    obtain ⟨e', he', hecorr, he''⟩ := hold k e he
    exact h.distinct j k d' e' hd' he' (hd'' hdholds) (he'' heholds)
      (by rw [← hdcorr, ← hecorr]; exact hkey)
  · intro k j hk
    obtain ⟨d, hd, hkey, hdlive, hfree⟩ := h.pending k j hk
    by_cases hji : j = i
    · subst hji
      cases hd.symm.trans hc
      refine ⟨c', by rw [hget]; simp, hcorr.trans hkey, ?_, hans.trans hfree⟩
      by_contra hreturn
      subst hkey
      exact (hreturned (by simpa using hreturn)).1 hk
    · exact ⟨d, by rw [hget, if_neg hji]; exact hd, hkey, hdlive, hfree⟩
  · intro k j hk
    obtain ⟨d, hd, hkey, hdlive, hstream⟩ := h.stream k j hk
    by_cases hji : j = i
    · subst hji
      cases hd.symm.trans hc
      refine ⟨c', by rw [hget]; simp, hcorr.trans hkey, ?_, by rw [hkind]; exact hstream⟩
      by_contra hreturn
      subst hkey
      exact (hreturned (by simpa using hreturn)).2 hk
    · exact ⟨d, by rw [hget, if_neg hji]; exact hd, hkey, hdlive, hstream⟩
  · intro j n r hhand
    obtain ⟨d, hd, hempty, horigin⟩ := h.handed j n r hhand
    by_cases hji : j = i
    · subst hji
      cases hd.symm.trans hc
      exact ⟨c', by rw [hget]; simp, hhanded n r hhand,
        ⟨horigin.logged, by rw [hsince]; exact horigin.since, horigin.isReply,
          horigin.corrID.trans hcorr.symm⟩⟩
    · exact ⟨d, by rw [hget, if_neg hji]; exact hd, hempty,
        ⟨horigin.logged, horigin.since, horigin.isReply, horigin.corrID⟩⟩
  · intro j chunk hhand
    obtain ⟨d, hd⟩ := h.chunked j chunk hhand
    by_cases hji : j = i
    · exact ⟨c', by rw [hget, if_pos hji]⟩
    · exact ⟨d, by rw [hget, if_neg hji]; exact hd⟩
  · intro j k n r r' hj hk
    rcases hgets j n r hj with hjold | ⟨rfl, hjnew⟩ <;>
      rcases hgets k n r' hk with hkold | ⟨rfl, hknew⟩
    · exact h.single j k n r r' hjold hkold
    · exact hown n r' j r hknew hjold
    · exact (hown n r k r' hjnew hkold).symm
    · rfl

section Register

variable {kind : CallKind} {random : Vector UInt8 16}

/-- **A call is made.** It comes after the others, with the keys that are new. -/
theorem Inv.append (h : s.Inv) (hcalls : s'.calls = s.calls ++ [c]) (hlog : s'.log = s.log)
    (hhanding : s'.handing = s.handing) (hsince : c.since = s.log.length) (hreply : c.replyCh = [])
    (hdata : c.dataCh = []) (hreturns : ∀ n r, ¬ c.phase.returns n r)
    (hfresh : c.phase.live → ∀ d ∈ s.calls, s.holdsKey d → d.corrID ≠ c.corrID)
    (hregistered : c.phase.waits → s'.pending c.corrID = some s.calls.length)
    (hkept : ∀ k j, s.pending k = some j → (c.phase.live → k ≠ c.corrID) → s'.pending k = some j)
    (hpending : ∀ k j, s'.pending k = some j →
      s.pending k = some j ∨ j = s.calls.length ∧ k = c.corrID ∧ c.phase.live)
    (hstream : ∀ k j, s'.streamPending k = some j → s.streamPending k = some j ∨
      j = s.calls.length ∧ k = c.corrID ∧ c.phase.live ∧ c.kind.isStream) : s'.Inv := by
  have hnew : s'.calls[s.calls.length]? = some c := by simp [hcalls]
  have hkeep : ∀ {j : Nat} {d : BridgeCall}, s.calls[j]? = some d → s'.calls[j]? = some d := by
    intro j d hd
    rw [hcalls, List.getElem?_append_left (List.getElem?_eq_some_iff.mp hd).1]
    exact hd
  have hold : ∀ {j : Nat} {d : BridgeCall}, s'.calls[j]? = some d →
      s.calls[j]? = some d ∨ j = s.calls.length ∧ d = c := by
    intro j d hd
    rw [hcalls, List.getElem?_append] at hd
    split at hd
    · exact .inl hd
    rename_i hlt
    obtain ⟨hj, hdc⟩ := List.getElem?_eq_some_iff.mp hd
    simp only [List.length_singleton] at hj
    exact .inr ⟨by omega, by simpa using hdc.symm⟩
  have hhas : ∀ n r, ¬ c.Has n r := by
    rintro n r (hmem | hphase)
    · rw [hreply] at hmem
      cases hmem
    · exact hreturns n r hphase
  have hgets : ∀ j n r, s'.Gets j n r → s.Gets j n r := by
    rintro j n r (hhand | ⟨d, hd, hdhas⟩)
    · exact .inl (hhanding ▸ hhand)
    · obtain hd | ⟨-, rfl⟩ := hold hd
      · exact .inr ⟨d, hd, hdhas⟩
      · exact absurd hdhas (hhas n r)
  have hunanswered : s'.answered c = false := by
    simp [answered, framesFor, hlog, hsince]
  refine ⟨?_, ?_, ?_, ?_, ?_, ?_, fun j k n r r' hj hk => h.single j k n r r' (hgets j n r hj)
    (hgets k n r' hk)⟩
  · intro j d hd
    obtain hd | ⟨rfl, rfl⟩ := hold hd
    · refine (h.fits j d hd).congr hlog (fun chunk hchunk => hhanding ▸ hchunk) ?_
      intro hwaits hkey
      obtain ⟨e, he, -, -, hfree⟩ := h.pending _ j hkey
      cases he.symm.trans hd
      exact hkept _ _ hkey fun hlive => hfresh hlive d (List.mem_of_getElem? hd)
        (holdsKey_of_free (CallPhase.live_of_waits hwaits) hfree)
    · refine ⟨by rw [hlog, hsince], fun n r hn => absurd hn (hhas n r), ?_, ?_,
        fun hwaits _ => hregistered hwaits⟩
      · intro hanswered
        rw [hunanswered] at hanswered
        cases hanswered
      · rintro (hbegun | ⟨chunk, hchunk⟩)
        · exact absurd hdata hbegun
        · rw [hhanding] at hchunk
          obtain ⟨e, he⟩ := h.chunked _ chunk hchunk
          simp at he
  · intro j k d e hd he hdholds heholds hkey
    have hlive {e : BridgeCall} (h : s'.holdsKey e) : e.phase.live := (Bool.and_eq_true_iff.mp h).1
    have hsame {e : BridgeCall} : s'.holdsKey e → s.holdsKey e :=
      holdsKey_mono fun hans => (answered_congr hlog).trans hans
    obtain hd | ⟨rfl, rfl⟩ := hold hd <;> obtain he | ⟨rfl, rfl⟩ := hold he
    · exact h.distinct j k d e hd he (hsame hdholds) (hsame heholds) hkey
    · exact absurd hkey (hfresh (hlive heholds) d (List.mem_of_getElem? hd) (hsame hdholds))
    · exact absurd hkey.symm (hfresh (hlive hdholds) e (List.mem_of_getElem? he) (hsame heholds))
    · rfl
  · intro k j hk
    obtain hk | ⟨rfl, rfl, hlive⟩ := hpending k j hk
    · obtain ⟨d, hd, hkey, hdlive, hfree⟩ := h.pending k j hk
      exact ⟨d, hkeep hd, hkey, hdlive, (answered_congr hlog).trans hfree⟩
    · exact ⟨c, hnew, rfl, hlive, hunanswered⟩
  · intro k j hk
    obtain hk | ⟨rfl, rfl, hlive, hkind⟩ := hstream k j hk
    · obtain ⟨d, hd, hrest⟩ := h.stream k j hk
      exact ⟨d, hkeep hd, hrest⟩
    · exact ⟨c, hnew, rfl, hlive, hkind⟩
  · intro j n r hhand
    rw [hhanding] at hhand
    obtain ⟨d, hd, hempty, horigin⟩ := h.handed j n r hhand
    exact ⟨d, hkeep hd, hempty, horigin.congr hlog⟩
  · intro j chunk hhand
    rw [hhanding] at hhand
    obtain ⟨d, hd⟩ := h.chunked j chunk hhand
    exact ⟨d, hkeep hd⟩

theorem Inv.refuse (h : s.Inv) (kind : CallKind) (err : GoError) :
    Inv { s with calls := s.calls ++
      [{ new kind [] s.log.length with phase := .returned (.refused err) }] } := by
  refine h.append rfl rfl rfl rfl rfl rfl (fun _ _ hr => hr) ?_ ?_ (fun _ _ hk _ => hk)
    (fun _ _ hk => .inl hk) fun _ _ hk => .inl hk
  · intro hlive
    cases hlive
  · intro hwaits
    cases hwaits

/-- A new call registers under a key that no call holds. -/
theorem Inv.call (h : s.Inv) (hok : s.Untroubled (.call kind random)) :
    (s.call kind random).Inv := by
  unfold Calls.call
  dsimp only
  split
  · exact h.refuse kind _
  rename_i corrID hcorr
  -- only a call that is refused may find its key held
  have hfresh : (kind.collision = none ∨ s.pending corrID = none) →
      ∀ d ∈ s.calls, s.holdsKey d → d.corrID ≠ corrID := by
    intro hfree d hd hholds hkey
    obtain ⟨hcollision, htaken⟩ := hok corrID (by rw [hcorr]; rfl) d hd hkey hholds
    rcases hfree with hfree | hfree
    · simp [hfree] at hcollision
    · simp [hfree] at htaken
  have hregister : (kind.collision = none ∨ s.pending corrID = none) →
      Inv { s with
        calls := s.calls ++ [new kind corrID s.log.length]
        pending := update s.pending corrID (some s.calls.length)
        streamPending :=
          if kind.isStream then update s.streamPending corrID (some s.calls.length)
          else s.streamPending } := by
    intro hfree
    refine h.append (c := new kind corrID s.log.length) rfl rfl rfl rfl rfl rfl
      (fun _ _ hr => hr) (fun _ => hfresh hfree) (fun _ => by simp [new]) ?_ ?_ ?_
    · intro k j hk hne
      exact (update_of_ne (hne rfl) _ _).trans hk
    · intro k j hk
      by_cases hkey : k = corrID
      · subst hkey
        exact .inr ⟨by simpa using hk.symm, rfl, rfl⟩
      · exact .inl ((update_of_ne hkey _ _).symm.trans hk)
    · intro k j hk
      dsimp only at hk
      split at hk
      · rename_i hstream
        by_cases hkey : k = corrID
        · subst hkey
          exact .inr ⟨by simpa using hk.symm, rfl, rfl, hstream⟩
        · exact .inl ((update_of_ne hkey _ _).symm.trans hk)
      · exact .inl hk
  cases hcollision : kind.collision with
  | none => exact hregister (.inl hcollision)
  | some err =>
    cases hkey : s.pending corrID with
    | none => exact hregister (.inr hkey)
    | some j => exact h.refuse kind err

end Register

/-- **A call goes on by itself.** It takes from its channels only, and its context does not end
while it waits with its reply taken. -/
theorem Inv.move (h : s.Inv) (hc : s.calls[i]? = some c) (hcorr : c'.corrID = c.corrID)
    (hkind : c'.kind = c.kind) (hsince : c'.since = c.since)
    (hholds : s.holdsKey c' → s.holdsKey c) (hreply : c'.replyCh ⊆ c.replyCh)
    (hdata : c.dataCh = [] → c'.dataCh = []) (hhas : ∀ n r, c'.Has n r → c.Has n r)
    (hwaits : c'.phase.waits → c.phase.waits ∧ (s.answered c → c'.ctxDone = c.ctxDone))
    (hreturned : c'.phase.live = false → c.phase.live →
      s.answered c ∧ c.kind.isStream = false) : (s.put i c').Inv := by
  have hfits := h.fits i c hc
  have hframes : s.framesFor c' = s.framesFor c := by
    unfold framesFor
    rw [hcorr, hsince]
  have hans : s.answered c' = s.answered c := congrArg (List.any · PendingReply.isReply) hframes
  have hstream : s.streamed c' = s.streamed c := congrArg (List.any · PendingReply.isStream) hframes
  refine h.put c' hc hcorr hkind hsince hholds ⟨hsince ▸ hfits.since, ?_, ?_, ?_, ?_⟩ ?_ ?_ ?_
  · intro n r hn
    obtain ⟨hlogged, hafter, hisReply, hkey⟩ := hfits.origin n r (hhas n r hn)
    exact ⟨hlogged, hsince ▸ hafter, hisReply, hkey.trans hcorr.symm⟩
  · intro hanswered hw
    rw [hans] at hanswered
    obtain ⟨hwait, hdone⟩ := hwaits hw
    obtain ⟨hctx, hempty, hquiet⟩ := hfits.quiet hanswered hwait
    exact ⟨(hdone hanswered).trans hctx, hdata hempty, hquiet⟩
  · intro hbegun
    rw [hstream]
    exact hfits.begun (hbegun.imp_left fun hne hempty => hne (hdata hempty))
  · intro hw hanswered
    rw [hans] at hanswered
    rw [hcorr]
    exact hfits.registered (hwaits hw).1 hanswered
  · intro hgone
    by_cases hwas : c.phase.live
    · obtain ⟨hanswered, hnot⟩ := hreturned hgone hwas
      refine ⟨h.pending_ne hc hanswered _, fun hk => ?_⟩
      obtain ⟨d, hd, -, -, hisStream⟩ := h.stream _ i hk
      cases hd.symm.trans hc
      rw [hnot] at hisStream
      cases hisStream
    · exact h.not_live_ne hc (by simpa using hwas)
  · intro n r hhand
    obtain ⟨d, hd, hempty, -⟩ := h.handed i n r hhand
    cases hd.symm.trans hc
    exact List.subset_nil.mp (hempty ▸ hreply)
  · intro n r j r' hn hj
    exact h.single j i n r' r hj (.inr ⟨c, hc, hhas n r hn⟩)

end Calls

theorem BridgeCall.has_of_replyCh (hreply : c'.replyCh = c.replyCh)
    (hreturns : ∀ n r, ¬ c'.phase.returns n r) (n : Nat) (r : PendingReply) (h : c'.Has n r) :
    c.Has n r := by
  rcases h with hmem | hr
  · exact .inl (hreply ▸ hmem)
  · exact absurd hr (hreturns n r)

namespace Calls

theorem Inv.sent {err : Option GoError} (h : s.Inv) (hok : s.Untroubled (.sent i err))
    (hstep : s.sent i err = some s') : s'.Inv := by
  obtain ⟨c, hc, hphase, ⟨-, rfl⟩ | ⟨e, rfl, rfl⟩⟩ := sent_eq_some hstep
  · refine h.move hc rfl rfl rfl (fun hholds => ?_) (List.Subset.refl _) id
      (has_of_replyCh rfl fun _ _ => id) (fun _ => ⟨?_, fun _ => rfl⟩) nofun
    · rw [holdsKey, hphase]
      exact hholds
    · rw [hphase]; rfl
  · refine h.move hc rfl rfl rfl (fun _ => holdsKey_of_free ?_ (hok c hc rfl)) (List.Subset.refl _)
      id (has_of_replyCh rfl fun _ _ => id) nofun nofun
    rw [hphase]; rfl

theorem Inv.expire (h : s.Inv) (hok : s.Untroubled (.expire i))
    (hstep : s.expire i = some s') : s'.Inv := by
  obtain ⟨c, hc, rfl⟩ := expire_eq_some hstep
  refine h.move hc rfl rfl rfl id (List.Subset.refl _) id (fun _ _ => id) ?_ ?_
  · intro hwaits
    refine ⟨hwaits, fun hanswered => ?_⟩
    rw [hok c hc hwaits] at hanswered
    cases hanswered
  · intro hgone hlive
    rw [hlive] at hgone
    cases hgone

theorem Inv.takeReply (h : s.Inv) (hstep : s.takeReply i = some s') : s'.Inv := by
  obtain ⟨c, n, r, rest, phase, hc, hphase, hreply, hreturns, hnext, rfl⟩ :=
    takeReply_eq_some hstep
  have hhas : c.Has n r := .inl (by simp [hreply])
  refine h.move hc rfl rfl rfl (fun hholds => ?_) ?_ id ?_ ?_ ?_
  · refine holdsKey_of_isStream (by rw [hphase]; rfl) ?_
    rw [← hnext]
    exact (Bool.and_eq_true_iff.mp hholds).1
  · rw [hreply]
    exact List.subset_cons_self _ _
  · rintro m r' (hmem | hr)
    · exact .inl (by rw [hreply]; exact List.mem_cons_of_mem _ hmem)
    · obtain ⟨rfl, rfl⟩ := CallPhase.returns_unique hreturns hr
      exact hhas
  · intro hwaits
    rw [CallPhase.not_waits_of_returns hreturns] at hwaits
    cases hwaits
  · intro hgone _
    exact ⟨((h.fits i c hc).origin n r hhas).answered, hnext.symm.trans hgone⟩

theorem Inv.takeChunk (h : s.Inv) (hstep : s.takeChunk i = some s') : s'.Inv := by
  obtain ⟨c, chunk, rest, hc, hphase, hdata, rfl⟩ := takeChunk_eq_some hstep
  obtain ⟨tracker, events, phase, hcollect, hnext⟩ := c.collect_cases chunk rest
  rw [hcollect]
  have hlive : c.phase.live := by rw [hphase]; rfl
  have hfree : s.answered c = false := by
    by_contra hans
    obtain ⟨-, hempty, -⟩ := (h.fits i c hc).quiet (by simpa using hans) (by rw [hphase]; rfl)
    cases hdata.symm.trans hempty
  refine h.move hc rfl rfl rfl (fun _ => holdsKey_of_free hlive hfree) (List.Subset.refl _)
    (fun hempty => ?_) (has_of_replyCh rfl ?_) (fun hwaits => ⟨?_, fun _ => rfl⟩) ?_
  · rw [hdata] at hempty
    cases hempty
  · rintro n r hr
    rcases hnext with rfl | ⟨result, rfl⟩
    · rw [hphase] at hr
      exact hr
    · exact hr
  · rw [hphase]; rfl
  · intro hgone
    rcases hnext with rfl | ⟨result, rfl⟩
    · rw [hlive] at hgone
      cases hgone
    · cases hgone

theorem Inv.takeDone (h : s.Inv) (hstep : s.takeDone i = some s') : s'.Inv := by
  obtain ⟨c, hc, hphase, hdone, rfl⟩ := takeDone_eq_some hstep
  have hfree : s.answered c = false := by
    by_contra hans
    obtain ⟨hctx, -⟩ := (h.fits i c hc).quiet (by simpa using hans) (by rw [hphase]; rfl)
    cases hdone.symm.trans hctx
  refine h.move hc rfl rfl rfl (fun _ => holdsKey_of_free ?_ hfree) (List.Subset.refl _) id
    (has_of_replyCh rfl fun _ _ => id) nofun nofun
  rw [hphase]; rfl

theorem Inv.unregister (h : s.Inv) (hc : s.calls[i]? = some c) (hlive : c.phase.live)
    (hwaits : c.phase.waits = false) : Inv { s with
      pending := update s.pending c.corrID none
      streamPending :=
        if c.kind.isStream then update s.streamPending c.corrID none
        else s.streamPending } := by
  refine ⟨?_, h.distinct, ?_, ?_, ?_, h.chunked, h.single⟩
  · intro j d hd
    refine (h.fits j d hd).congr rfl (fun _ => id) fun hdwaits hk => ?_
    have hkey : d.corrID ≠ c.corrID := by
      intro hkey
      have hji := h.pending_own hc (holdsKey_of_not_waits hlive hwaits) (hkey ▸ hk)
      subst hji
      cases hd.symm.trans hc
      rw [hwaits] at hdwaits
      cases hdwaits
    exact (update_of_ne hkey _ _).trans hk
  · intro k j hk
    have hkey : k ≠ c.corrID := by
      rintro rfl
      simp at hk
    exact h.pending k j ((update_of_ne hkey _ _).symm.trans hk)
  · intro k j hk
    dsimp only at hk
    split at hk
    · have hkey : k ≠ c.corrID := by
        rintro rfl
        simp at hk
      exact h.stream k j ((update_of_ne hkey _ _).symm.trans hk)
    · exact h.stream k j hk
  · intro j n r hhand
    obtain ⟨d, hd, hempty, horigin⟩ := h.handed j n r hhand
    exact ⟨d, hd, hempty, horigin.congr rfl⟩

theorem Inv.cleanup (h : s.Inv) (hstep : s.cleanup i = some s') : s'.Inv := by
  obtain ⟨c, outcome, hc, hphase, rfl⟩ := cleanup_eq_some hstep
  have hlive : c.phase.live := by rw [hphase]; rfl
  have hwaits : c.phase.waits = false := by rw [hphase]; rfl
  have hclear := h.unregister hc hlive hwaits
  have hhas : ∀ n r, Has { c with phase := .returned outcome } n r → c.Has n r := by
    rintro n r (hmem | hr)
    · exact .inl hmem
    · refine .inr ?_
      rw [hphase]
      exact CallPhase.returns_returned.mp hr
  have hfits := hclear.fits i c hc
  refine hclear.put { c with phase := .returned outcome } hc rfl rfl rfl nofun
    ⟨hfits.since, ?_, nofun, hfits.begun, nofun⟩ (fun _ => ⟨by simp, ?_⟩) ?_ ?_
  · intro n r hn
    obtain ⟨hlogged, hafter, hisReply, hkey⟩ := hfits.origin n r (hhas n r hn)
    exact ⟨hlogged, hafter, hisReply, hkey⟩
  · dsimp only
    split
    · simp
    rename_i hstream
    intro hk
    obtain ⟨d, hd, -, -, hisStream⟩ := h.stream _ i hk
    cases hd.symm.trans hc
    exact hstream hisStream
  · intro n r hhand
    obtain ⟨d, hd, hempty, -⟩ := hclear.handed i n r hhand
    cases hd.symm.trans hc
    exact hempty
  · intro n r j r' hn hj
    exact hclear.single j i n r' r hj (.inr ⟨c, hc, hhas n r hn⟩)

theorem gets_of_dropHanding (h : Gets { s with handing := none } i n r) :
    s.Gets i n r := by
  rcases h with hhand | hhas
  · cases hhand
  · exact .inr hhas

theorem Inv.dropHanding (h : s.Inv) : Inv { s with handing := none } := by
  refine ⟨?_, h.distinct, fun k i hk => h.pending k i hk, h.stream, nofun, nofun, ?_⟩
  · intro i c hc
    exact (h.fits i c hc).congr rfl nofun fun _ => id
  · intro i j n r r' hi hj
    exact h.single i j n r r' (gets_of_dropHanding hi) (gets_of_dropHanding hj)

/-- Handing over is where a reply reaches its call, and no other. -/
theorem Inv.hand (h : s.Inv) (hstep : s.hand = some s') : s'.Inv := by
  have hdrop := h.dropHanding
  obtain ⟨i, n, r, c, hhand, hc, rfl⟩ | ⟨i, chunk, c, hhand, hc, rfl | rfl⟩ :=
    hand_eq_some hstep
  · obtain ⟨d, hd, -, horigin⟩ := h.handed i n r hhand
    cases hd.symm.trans hc
    have hfits := hdrop.fits i c hc
    have hhas : ∀ m r', Has { c with replyCh := [(n, r)] } m r' →
        (m = n ∧ r' = r) ∨ c.Has m r' := by
      rintro m r' (hmem | hr)
      · simp only [List.mem_singleton, Prod.mk.injEq] at hmem
        exact .inl hmem
      · exact .inr (.inr hr)
    refine hdrop.put { c with replyCh := [(n, r)] } hc rfl rfl rfl id
      ⟨hfits.since, ?_, hfits.quiet, hfits.begun, hfits.registered⟩
      (fun hgone => h.not_live_ne hc hgone) nofun ?_
    · intro m r' hm
      rcases hhas m r' hm with ⟨rfl, rfl⟩ | hm
      · exact ⟨horigin.logged, horigin.since, horigin.isReply, horigin.corrID⟩
      · obtain ⟨hlogged, hafter, hisReply, hkey⟩ := hfits.origin m r' hm
        exact ⟨hlogged, hafter, hisReply, hkey⟩
    · intro m r' j r'' hm hj
      have hold : s.Gets j m r'' := gets_of_dropHanding hj
      rcases hhas m r' hm with ⟨rfl, rfl⟩ | hm
      · exact h.single j i m r'' r' hold (.inl hhand)
      · exact h.single j i m r'' r' hold (.inr ⟨c, hc, hm⟩)
  · have hfits := hdrop.fits i c hc
    refine hdrop.put { c with dataCh := c.dataCh ++ [chunk] } hc rfl rfl rfl id
      ⟨hfits.since, ?_, ?_, ?_, hfits.registered⟩ (fun hgone => h.not_live_ne hc hgone) nofun ?_
    · intro n r hn
      obtain ⟨hlogged, hafter, hisReply, hkey⟩ := hfits.origin n r hn
      exact ⟨hlogged, hafter, hisReply, hkey⟩
    · intro hanswered hwaits
      exact absurd hhand (((h.fits i c hc).quiet hanswered hwaits).2.2 chunk)
    · intro _
      exact (h.fits i c hc).begun (.inr ⟨chunk, hhand⟩)
    · intro n r j r' hn hj
      exact hdrop.single j i n r' r hj (.inr ⟨c, hc, hn⟩)
  · exact hdrop

/-- A frame more in the log makes no call hold its key again. -/
theorem Inv.distinct_of_append (h : s.Inv) (hcalls : s'.calls = s.calls)
    (hlog : s'.log = s.log ++ [r]) (i j : Nat) (c d : BridgeCall) (hc : s'.calls[i]? = some c)
    (hd : s'.calls[j]? = some d) (hcholds : s'.holdsKey c) (hdholds : s'.holdsKey d)
    (hkey : c.corrID = d.corrID) : i = j := by
  rw [hcalls] at hc hd
  have hbefore {i : Nat} {c : BridgeCall} (hc : s.calls[i]? = some c) :
      s'.holdsKey c → s.holdsKey c :=
    holdsKey_mono fun hans => (answered_append hlog (h.fits i c hc).since).mpr (.inl hans)
  exact h.distinct i j c d hc hd (hbefore hc hcholds) (hbefore hd hdholds) hkey

/-- **A reply is taken.** Its waiter leaves the map, whoever it is. -/
theorem Inv.deliverReply (h : s.Inv) (hnone : s.handing = none) (hreply : r.isReply)
    (hok : ∀ c ∈ s.calls, c.corrID = r.env.correlationID → c.phase.waits → s.holdsKey c →
      c.ctxDone = false ∧ s.streamed c = false) : (s.deliverReply r).Inv := by
  obtain ⟨hlog, hcalls, hstream⟩ : (s.deliverReply r).log = s.log ++ [r]
      ∧ (s.deliverReply r).calls = s.calls
      ∧ (s.deliverReply r).streamPending = s.streamPending := by
    unfold Calls.deliverReply
    split <;> exact ⟨rfl, rfl, rfl⟩
  have hpending : ∀ k, (s.deliverReply r).pending k
      = if k = r.env.correlationID then none else s.pending k := by
    intro k
    unfold Calls.deliverReply
    split
    · rename_i hk
      split
      · rename_i hkey
        rw [hkey]
        exact hk
      · rfl
    · exact update_apply _ _ _ _
  have hhanding : ∀ x, (s.deliverReply r).handing = some x →
      ∃ i, s.pending r.env.correlationID = some i ∧ x = .reply i s.log.length r := by
    intro x hx
    unfold Calls.deliverReply at hx
    split at hx
    · rw [hnone] at hx
      cases hx
    · rename_i i hi
      cases hx
      exact ⟨i, hi, rfl⟩
  refine ⟨?_, ?_, ?_, ?_, ?_, ?_, ?_⟩
  · intro i c hc
    rw [hcalls] at hc
    have hfits := h.fits i c hc
    have hans := answered_append hlog hfits.since
    have hnochunk : ∀ chunk, (s.deliverReply r).handing ≠ some (.chunk i chunk) := by
      intro chunk hchunk
      obtain ⟨j, -, hj⟩ := hhanding _ hchunk
      cases hj
    refine ⟨?_, fun n r' hn => (hfits.origin n r' hn).mono hlog, ?_, ?_, ?_⟩
    · rw [hlog, List.length_append]
      exact hfits.since.trans (Nat.le_add_right _ _)
    · intro hanswered hwaits
      by_cases hbefore : s.answered c
      · obtain ⟨hctx, hempty, -⟩ := hfits.quiet hbefore hwaits
        exact ⟨hctx, hempty, hnochunk⟩
      obtain ⟨-, hkey⟩ := (hans.mp hanswered).resolve_left hbefore
      obtain ⟨hctx, hnot⟩ := hok c (List.mem_of_getElem? hc) hkey.symm hwaits
        (holdsKey_of_free (CallPhase.live_of_waits hwaits) (by simpa using hbefore))
      refine ⟨hctx, ?_, hnochunk⟩
      by_contra hne
      rw [hfits.begun (.inl hne)] at hnot
      cases hnot
    · rintro (hne | ⟨chunk, hchunk⟩)
      · exact (streamed_append hlog hfits.since).mpr (.inl (hfits.begun (.inl hne)))
      · exact absurd hchunk (hnochunk chunk)
    · intro hwaits hfree
      have hnot : ¬ (s.deliverReply r).answered c := by simp [hfree]
      rw [hans] at hnot
      push Not at hnot
      rw [hpending, if_neg fun hkey => hnot.2 hreply hkey.symm]
      exact hfits.registered hwaits (by simpa using hnot.1)
  · exact h.distinct_of_append hcalls hlog
  · intro k i hk
    rw [hpending] at hk
    split at hk
    · cases hk
    rename_i hkey
    obtain ⟨c, hc, hcorr, hlive, hfree⟩ := h.pending k i hk
    refine ⟨c, by rw [hcalls]; exact hc, hcorr, hlive, ?_⟩
    have hans := answered_append (r := r) hlog (h.fits i c hc).since
    rw [Bool.eq_false_iff, Ne, hans, hfree, hcorr]
    rintro (hbefore | ⟨-, heq⟩)
    · cases hbefore
    · exact hkey heq.symm
  · intro k i hk
    rw [hstream] at hk
    rw [hcalls]
    exact h.stream k i hk
  · intro i n r' hhand
    obtain ⟨j, hj, hx⟩ := hhanding _ hhand
    cases hx
    obtain ⟨c, hc, hcorr, -, hfree⟩ := h.pending _ i hj
    refine ⟨c, by rw [hcalls]; exact hc, (h.fits i c hc).replyCh_eq_nil hfree, ?_⟩
    exact ⟨by simp [hlog], (h.fits i c hc).since, hreply, hcorr.symm⟩
  · intro i chunk hhand
    obtain ⟨j, -, hx⟩ := hhanding _ hhand
    cases hx
  · -- the number of the reply is new, so only the one it is handed to can have it
    have hgets : ∀ i n r', (s.deliverReply r).Gets i n r' →
        (n = s.log.length ∧ s.pending r.env.correlationID = some i) ∨
          n < s.log.length ∧ s.Gets i n r' := by
      rintro i n r' (hhand | ⟨c, hc, hn⟩)
      · obtain ⟨j, hj, hx⟩ := hhanding _ hhand
        cases hx
        exact .inl ⟨rfl, hj⟩
      · rw [hcalls] at hc
        exact .inr ⟨((h.fits i c hc).origin n r' hn).lt, .inr ⟨c, hc, hn⟩⟩
    intro i j n r₁ r₂ hi hj
    rcases hgets i n r₁ hi with ⟨hn, hi⟩ | ⟨hn, hi⟩ <;>
      rcases hgets j n r₂ hj with ⟨hm, hj⟩ | ⟨hm, hj⟩
    · exact Option.some.inj (hi.symm.trans hj)
    · omega
    · omega
    · exact h.single i j n r₁ r₂ hi hj

/-- The chunk goes to a stream that still waits, or nowhere. -/
theorem Inv.handleInboundStreamFrame (h : s.Inv) (hnone : s.handing = none)
    (hreply : r.isReply = false) (hisStream : r.isStream)
    (hok : ∀ c ∈ s.calls, c.corrID = r.env.correlationID → c.phase.waits → s.holdsKey c →
      s.answered c = false) : (s.handleInboundStreamFrame r).Inv := by
  obtain ⟨hlog, hcalls, hpending, hstream⟩ : (s.handleInboundStreamFrame r).log = s.log ++ [r]
      ∧ (s.handleInboundStreamFrame r).calls = s.calls
      ∧ (s.handleInboundStreamFrame r).pending = s.pending
      ∧ (s.handleInboundStreamFrame r).streamPending = s.streamPending := by
    unfold Calls.handleInboundStreamFrame
    split <;> exact ⟨rfl, rfl, rfl, rfl⟩
  have hhanding : ∀ x, (s.handleInboundStreamFrame r).handing = some x →
      ∃ i, s.streamPending r.env.correlationID = some i ∧ x = .chunk i r.chunk := by
    intro x hx
    unfold Calls.handleInboundStreamFrame at hx
    split at hx
    · rw [hnone] at hx
      cases hx
    · rename_i i hi
      cases hx
      exact ⟨i, hi, rfl⟩
  have hans : ∀ c : BridgeCall, c.since ≤ s.log.length →
      (s.handleInboundStreamFrame r).answered c = s.answered c := by
    intro c hsince
    have hiff := answered_append hlog hsince
    rw [hreply] at hiff
    rw [Bool.eq_iff_iff, hiff]
    simp
  have hgets : ∀ i n r', (s.handleInboundStreamFrame r).Gets i n r' → s.Gets i n r' := by
    rintro i n r' (hhand | ⟨c, hc, hn⟩)
    · obtain ⟨j, -, hx⟩ := hhanding _ hhand
      cases hx
    · exact .inr ⟨c, hcalls ▸ hc, hn⟩
  refine ⟨?_, ?_, ?_, ?_, ?_, ?_, fun i j n r₁ r₂ hi hj => h.single i j n r₁ r₂ (hgets i n r₁ hi)
    (hgets j n r₂ hj)⟩
  · intro i c hc
    rw [hcalls] at hc
    have hfits := h.fits i c hc
    refine ⟨?_, fun n r' hn => (hfits.origin n r' hn).mono hlog, ?_, ?_, ?_⟩
    · rw [hlog, List.length_append]
      exact hfits.since.trans (Nat.le_add_right _ _)
    · intro hanswered hwaits
      rw [hans c hfits.since] at hanswered
      obtain ⟨hctx, hempty, -⟩ := hfits.quiet hanswered hwaits
      refine ⟨hctx, hempty, fun chunk hchunk => ?_⟩
      obtain ⟨j, hj, hx⟩ := hhanding _ hchunk
      cases hx
      obtain ⟨d, hd, hkey, hlive, hstream⟩ := h.stream _ i hj
      cases hd.symm.trans hc
      rw [hok c (List.mem_of_getElem? hc) hkey hwaits (holdsKey_of_isStream hlive hstream)]
        at hanswered
      cases hanswered
    · intro hbegun
      refine (streamed_append hlog hfits.since).mpr ?_
      rcases hbegun with hne | ⟨chunk, hchunk⟩
      · exact .inl (hfits.begun (.inl hne))
      obtain ⟨j, hj, hx⟩ := hhanding _ hchunk
      cases hx
      obtain ⟨d, hd, hkey, -⟩ := h.stream _ i hj
      cases hd.symm.trans hc
      exact .inr ⟨hisStream, hkey.symm⟩
    · intro hwaits hfree
      rw [hans c hfits.since] at hfree
      rw [hpending]
      exact hfits.registered hwaits hfree
  · exact h.distinct_of_append hcalls hlog
  · intro k i hk
    rw [hpending] at hk
    obtain ⟨c, hc, hcorr, hlive, hfree⟩ := h.pending k i hk
    exact ⟨c, by rw [hcalls]; exact hc, hcorr, hlive, (hans c (h.fits i c hc).since).trans hfree⟩
  · intro k i hk
    rw [hstream] at hk
    rw [hcalls]
    exact h.stream k i hk
  · intro i n r' hhand
    obtain ⟨j, -, hx⟩ := hhanding _ hhand
    cases hx
  · intro i chunk hhand
    obtain ⟨j, hj, hx⟩ := hhanding _ hhand
    cases hx
    obtain ⟨c, hc, -⟩ := h.stream _ i hj
    exact ⟨c, by rw [hcalls]; exact hc⟩

theorem Inv.frame {p : BridgePacket} (h : s.Inv) (hok : s.Untroubled (.frame p))
    (hstep : s.frame p = some s') : s'.Inv := by
  obtain ⟨hnone, rfl | ⟨r, hr, ⟨hreply, rfl⟩ | ⟨hreply, hstream, rfl⟩⟩⟩ :=
    frame_eq_some hstep
  · exact h
  · exact h.deliverReply hnone hreply fun c hc hkey hwaits hholds =>
      (hok r hr c hc hkey hwaits hholds).1 hreply
  · exact h.handleInboundStreamFrame hnone hreply hstream fun c hc hkey hwaits hholds =>
      (hok r hr c hc hkey hwaits hholds).2 hstream

theorem Inv.step {a : CallAction} (h : s.Inv) (hok : s.Untroubled a)
    (hstep : s.step a = some s') : s'.Inv := by
  cases a with
  | call kind random =>
    cases hstep
    exact h.call hok
  | sent i err => exact h.sent hok hstep
  | expire i => exact h.expire hok hstep
  | takeReply i => exact h.takeReply hstep
  | takeChunk i => exact h.takeChunk hstep
  | takeDone i => exact h.takeDone hstep
  | cleanup i => exact h.cleanup hstep
  | frame p => exact h.frame hok hstep
  | hand => exact h.hand hstep

end Calls

end Npamp
