import Npamp.Proxy.Ingress
import Npamp.Proof.CallSteps

/-!
# Ingress calls and their waiters

A call that returns has left no entry in a map. But an envelope whose method is too long unwinds the
call with its waiter in place.
-/

namespace Npamp

open IngressRequest

variable {s s' : Calls} {i : Nat} {c c' : BridgeCall} {random : Vector UInt8 16}

/-- What the two maps point at: a call that is live and, in `pending`, has no reply yet. Unlike
`Inv`, this holds in every run. -/
structure Calls.Waits (s : Calls) : Prop where
  pending : ∀ key i, s.pending key = some i → ∃ c, s.calls[i]? = some c ∧ c.corrID = key
    ∧ c.phase.live ∧ c.replyCh = [] ∧ ∀ n r, s.handing ≠ some (.reply i n r)
  stream : ∀ key i, s.streamPending key = some i → ∃ c, s.calls[i]? = some c ∧ c.corrID = key
    ∧ c.phase.live ∧ c.kind.isStream
  handed : ∀ i n r, s.handing = some (.reply i n r) → i < s.calls.length

theorem Calls.Waits.start : Calls.start.Waits := ⟨nofun, nofun, nofun⟩

theorem Calls.Waits.forgotten (h : s.Waits) (hc : s.calls[i]? = some c)
    (hreturned : c.phase.live = false) : s.Forgotten i := by
  intro key
  refine ⟨fun hkey => ?_, fun hkey => ?_⟩
  · obtain ⟨d, hd, -, hlive, -⟩ := h.pending key i hkey
    cases hd.symm.trans hc
    rw [hlive] at hreturned
    cases hreturned
  · obtain ⟨d, hd, -, hlive, -⟩ := h.stream key i hkey
    cases hd.symm.trans hc
    rw [hlive] at hreturned
    cases hreturned

theorem Calls.Waits.put (h : s.Waits) (hc : s.calls[i]? = some c) (hcorr : c'.corrID = c.corrID)
    (hkind : c'.kind = c.kind) {pending streamPending : Bytes → Option Nat}
    {handing : Option Handover} {log : List PendingReply}
    (hpending : ∀ key j, pending key = some j → s.pending key = some j
      ∧ (∀ n r, handing ≠ some (.reply j n r)) ∧ (j = i → c'.phase.live ∧ c'.replyCh = []))
    (hstream : ∀ key j, streamPending key = some j → s.streamPending key = some j
      ∧ (j = i → c'.phase.live))
    (hhanded : ∀ j n r, handing = some (.reply j n r) → j < s.calls.length) :
    Calls.Waits { s.put i c' with pending := pending, streamPending := streamPending
                                  handing := handing, log := log } := by
  have hcall : ∀ (j : Nat) (d : BridgeCall), s.calls[j]? = some d →
      (s.put i c').calls[j]? = some (if j = i then c' else d) := by
    intro j d hd
    rw [Calls.put_getElem? hc]
    split_ifs
    · rfl
    · exact hd
  refine ⟨fun key j hkey => ?_, fun key j hkey => ?_, fun j n r hhand => ?_⟩
  · obtain ⟨hold, hhand, hown⟩ := hpending key j hkey
    obtain ⟨d, hd, hdcorr, hlive, hreply, -⟩ := h.pending key j hold
    refine ⟨_, hcall j d hd, ?_⟩
    split_ifs with hji
    · subst hji
      cases hd.symm.trans hc
      exact ⟨hcorr.trans hdcorr, (hown rfl).1, (hown rfl).2, hhand⟩
    · exact ⟨hdcorr, hlive, hreply, hhand⟩
  · obtain ⟨hold, hown⟩ := hstream key j hkey
    obtain ⟨d, hd, hdcorr, hlive, hisStream⟩ := h.stream key j hold
    refine ⟨_, hcall j d hd, ?_⟩
    split_ifs with hji
    · subst hji
      cases hd.symm.trans hc
      exact ⟨hcorr.trans hdcorr, hown rfl, hkind ▸ hisStream⟩
    · exact ⟨hdcorr, hlive, hisStream⟩
  · exact (hhanded j n r hhand).trans_eq (List.length_set ..).symm

theorem Calls.Waits.move (h : s.Waits) (hc : s.calls[i]? = some c) (hcorr : c'.corrID = c.corrID)
    (hkind : c'.kind = c.kind) (hreply : c'.replyCh = c.replyCh) (hlive : c'.phase.live) :
    (s.put i c').Waits := by
  refine h.put hc hcorr hkind (fun key j hkey => ?_) (fun key j hkey => ⟨hkey, fun _ => hlive⟩)
    h.handed
  obtain ⟨d, hd, -, -, hempty, hhand⟩ := h.pending key j hkey
  refine ⟨hkey, hhand, ?_⟩
  rintro rfl
  cases hd.symm.trans hc
  exact ⟨hlive, hreply.trans hempty⟩

theorem Calls.Waits.call (h : s.Waits) (kind : CallKind) (random : Vector UInt8 16) :
    (s.call kind random).Waits := by
  have hcall : ∀ (new : BridgeCall) (j : Nat) (d : BridgeCall), s.calls[j]? = some d →
      (s.calls ++ [new])[j]? = some d := by
    intro new j d hd
    rw [List.getElem?_append_left (List.getElem?_eq_some_iff.mp hd).1, hd]
  have hhanded : ∀ new j n r, s.handing = some (.reply j n r) → j < (s.calls ++ [new]).length := by
    intro new j n r hhand
    rw [List.length_append]
    exact Nat.lt_add_right _ (h.handed j n r hhand)
  have hrefused : ∀ new, Calls.Waits { s with calls := s.calls ++ [new] } := by
    refine fun new => ⟨fun key j hkey => ?_, fun key j hkey => ?_, hhanded new⟩
    · obtain ⟨d, hd, hrest⟩ := h.pending key j hkey
      exact ⟨d, hcall new j d hd, hrest⟩
    · obtain ⟨d, hd, hrest⟩ := h.stream key j hkey
      exact ⟨d, hcall new j d hd, hrest⟩
  unfold Calls.call
  dsimp only
  split
  · exact hrefused _
  rename_i corrID _
  split
  · exact hrefused _
  refine ⟨fun key j hkey => ?_, fun key j hkey => ?_, hhanded _⟩
  · dsimp only at hkey
    rw [Function.update_apply] at hkey
    split_ifs at hkey with hcorr
    · cases hkey
      refine ⟨BridgeCall.new kind corrID s.log.length, List.getElem?_concat_length, hcorr.symm,
        rfl, rfl, fun n r hhand => ?_⟩
      exact absurd (h.handed _ n r hhand) (Nat.lt_irrefl _)
    · obtain ⟨d, hd, hrest⟩ := h.pending key j hkey
      exact ⟨d, hcall _ j d hd, hrest⟩
  · have hold : s.streamPending key = some j → ∃ d,
        (s.calls ++ [BridgeCall.new kind corrID s.log.length])[j]? = some d ∧ d.corrID = key
          ∧ d.phase.live ∧ d.kind.isStream := by
      intro hkey
      obtain ⟨d, hd, hrest⟩ := h.stream key j hkey
      exact ⟨d, hcall _ j d hd, hrest⟩
    dsimp only at hkey
    split_ifs at hkey with hstream
    · rw [Function.update_apply] at hkey
      split_ifs at hkey with hcorr
      · cases hkey
        exact ⟨_, List.getElem?_concat_length, hcorr.symm, rfl, hstream⟩
      · exact hold hkey
    · exact hold hkey

theorem Calls.Waits.sent {err : Option GoError} (h : s.Waits) (hstep : s.sent i err = some s') :
    s'.Waits := by
  obtain ⟨c, hc, -, ⟨-, rfl⟩ | ⟨e, -, rfl⟩⟩ := Calls.sent_eq_some hstep
  · exact h.move hc rfl rfl rfl rfl
  · exact h.move hc rfl rfl rfl rfl

theorem Calls.Waits.expire (h : s.Waits) (hstep : s.expire i = some s') : s'.Waits := by
  obtain ⟨c, hc, rfl⟩ := Calls.expire_eq_some hstep
  refine h.put hc (by rfl) (by rfl) (fun key j hkey => ?_) (fun key j hkey => ⟨hkey, ?_⟩) h.handed
  · obtain ⟨d, hd, -, hlive, hempty, hhand⟩ := h.pending key j hkey
    refine ⟨hkey, hhand, ?_⟩
    rintro rfl
    cases hd.symm.trans hc
    exact ⟨hlive, hempty⟩
  · rintro rfl
    obtain ⟨d, hd, -, hlive, -⟩ := h.stream key j hkey
    cases hd.symm.trans hc
    exact hlive

theorem Calls.Waits.takeReply (h : s.Waits) (hstep : s.takeReply i = some s') : s'.Waits := by
  obtain ⟨c, n, r, rest, phase, hc, -, hreply, -, hnext, rfl⟩ := Calls.takeReply_eq_some hstep
  refine h.put hc (by rfl) (by rfl) (fun key j hkey => ?_) (fun key j hkey => ⟨hkey, ?_⟩) h.handed
  · -- the entry went when the reply was taken from the wire
    obtain ⟨d, hd, -, -, hempty, hhand⟩ := h.pending key j hkey
    refine ⟨hkey, hhand, ?_⟩
    rintro rfl
    cases hd.symm.trans hc
    rw [hreply] at hempty
    cases hempty
  · rintro rfl
    obtain ⟨d, hd, -, -, hisStream⟩ := h.stream key j hkey
    cases hd.symm.trans hc
    exact hnext.trans hisStream

theorem Calls.Waits.takeChunk (h : s.Waits) (hstep : s.takeChunk i = some s') : s'.Waits := by
  obtain ⟨c, chunk, rest, hc, hphase, -, rfl⟩ := Calls.takeChunk_eq_some hstep
  obtain ⟨tracker, events, phase, hcollect, hnext⟩ := c.collect_cases chunk rest
  rw [hcollect]
  refine h.move hc rfl rfl rfl ?_
  rcases hnext with rfl | ⟨result, rfl⟩
  · rw [hphase]
    rfl
  · rfl

theorem Calls.Waits.takeDone (h : s.Waits) (hstep : s.takeDone i = some s') : s'.Waits := by
  obtain ⟨c, hc, -, -, rfl⟩ := Calls.takeDone_eq_some hstep
  exact h.move hc rfl rfl rfl rfl

theorem Calls.Waits.cleanup (h : s.Waits) (hstep : s.cleanup i = some s') : s'.Waits := by
  obtain ⟨c, outcome, hc, -, rfl⟩ := Calls.cleanup_eq_some hstep
  refine h.put hc (by rfl) (by rfl) (fun key j hkey => ?_) (fun key j hkey => ?_) h.handed
  · rw [Function.update_apply] at hkey
    split_ifs at hkey with hcorr
    obtain ⟨d, hd, hdcorr, -, -, hhand⟩ := h.pending key j hkey
    refine ⟨hkey, hhand, ?_⟩
    rintro rfl
    cases hd.symm.trans hc
    exact absurd hdcorr.symm hcorr
  · split_ifs at hkey with hisStream
    · rw [Function.update_apply] at hkey
      split_ifs at hkey with hcorr
      obtain ⟨d, hd, hdcorr, -⟩ := h.stream key j hkey
      refine ⟨hkey, ?_⟩
      rintro rfl
      cases hd.symm.trans hc
      exact absurd hdcorr.symm hcorr
    · obtain ⟨d, hd, -, -, hdstream⟩ := h.stream key j hkey
      refine ⟨hkey, ?_⟩
      rintro rfl
      cases hd.symm.trans hc
      exact absurd hdstream hisStream

theorem Calls.Waits.deliverReply {r : PendingReply} (h : s.Waits) : (s.deliverReply r).Waits := by
  unfold Calls.deliverReply
  split
  · exact ⟨h.pending, h.stream, h.handed⟩
  rename_i i hi
  obtain ⟨c, hc, hcorr, hrest⟩ := h.pending _ i hi
  refine ⟨fun key j hkey => ?_, h.stream, fun j n r hhand => ?_⟩
  · dsimp only at hkey
    rw [Function.update_apply] at hkey
    split_ifs at hkey with hother
    obtain ⟨d, hd, hdcorr, hlive, hempty, -⟩ := h.pending key j hkey
    refine ⟨d, hd, hdcorr, hlive, hempty, fun n q hhand => ?_⟩
    cases hhand
    cases hd.symm.trans hc
    exact hother (hdcorr.symm.trans hcorr)
  · cases hhand
    exact (List.getElem?_eq_some_iff.mp hc).1

theorem Calls.Waits.frame {p : BridgePacket} (h : s.Waits) (hstep : s.frame p = some s') :
    s'.Waits := by
  obtain ⟨-, rfl | ⟨r, -, ⟨-, rfl⟩ | ⟨-, -, rfl⟩⟩⟩ := Calls.frame_eq_some hstep
  · exact h
  · exact h.deliverReply
  unfold Calls.handleInboundStreamFrame
  split
  · exact ⟨h.pending, h.stream, h.handed⟩
  · refine ⟨fun key j hkey => ?_, h.stream, nofun⟩
    obtain ⟨d, hd, hcorr, hlive, hempty, -⟩ := h.pending key j hkey
    exact ⟨d, hd, hcorr, hlive, hempty, nofun⟩

theorem Calls.Waits.hand (h : s.Waits) (hstep : s.hand = some s') : s'.Waits := by
  have hstream : ∀ {i : Nat} {c c' : BridgeCall}, s.calls[i]? = some c → c'.phase = c.phase →
      ∀ key j, s.streamPending key = some j → s.streamPending key = some j
        ∧ (j = i → c'.phase.live) := by
    intro i c c' hc hphase key j hkey
    refine ⟨hkey, ?_⟩
    rintro rfl
    obtain ⟨d, hd, -, hlive, -⟩ := h.stream key j hkey
    cases hd.symm.trans hc
    exact hphase ▸ hlive
  obtain ⟨i, n, r, c, hhand, hc, rfl⟩ | ⟨i, chunk, c, -, hc, rfl | rfl⟩ :=
    Calls.hand_eq_some hstep
  · refine h.put hc (by rfl) (by rfl) (fun key j hkey => ?_) (hstream hc (by rfl))
      fun j n r hhand => by cases hhand
    obtain ⟨-, -, -, -, -, hnot⟩ := h.pending key j hkey
    exact ⟨hkey, nofun, fun hji => absurd (hji ▸ hhand) (hnot n r)⟩
  · refine h.put hc (by rfl) (by rfl) (fun key j hkey => ?_) (hstream hc (by rfl))
      fun j n r hhand => by cases hhand
    obtain ⟨d, hd, -, hlive, hempty, -⟩ := h.pending key j hkey
    refine ⟨hkey, nofun, ?_⟩
    rintro rfl
    cases hd.symm.trans hc
    exact ⟨hlive, hempty⟩
  · refine ⟨fun key j hkey => ?_, h.stream, nofun⟩
    obtain ⟨d, hd, hcorr, hlive, hempty, -⟩ := h.pending key j hkey
    exact ⟨d, hd, hcorr, hlive, hempty, nofun⟩

/-- What one step of the calls preserves. -/
theorem Calls.Waits.step {a : CallAction} (h : s.Waits) (hstep : s.step a = some s') :
    s'.Waits := by
  cases a with
  | call kind random =>
    cases hstep
    exact h.call kind random
  | sent i err => exact h.sent hstep
  | expire i => exact h.expire hstep
  | takeReply i => exact h.takeReply hstep
  | takeChunk i => exact h.takeChunk hstep
  | takeDone i => exact h.takeDone hstep
  | cleanup i => exact h.cleanup hstep
  | frame p => exact h.frame hstep
  | hand => exact h.hand hstep

theorem jsonrpcCorrelationID_length {id corrID : Bytes}
    (h : jsonrpcCorrelationID random id = .ok corrID) : corrID.length ≤ 255 := by
  unfold jsonrpcCorrelationID at h
  split_ifs at h with _ hlength
  · cases h
    exact (Vector.length_toList ..).trans_le (by decide)
  · cases h
    omega

theorem encodeJSONRPCRequest_length {V : Type} {J : JsonCodec V}
    {method : Bytes} {params : Option V} {id : V} {wire corrID : Bytes}
    (h : encodeJSONRPCRequest J random method params id = .ok (wire, corrID)) :
    corrID.length ≤ 255 := by
  unfold encodeJSONRPCRequest at h
  split at h
  · cases h
  split at h
  · cases h
  split at h
  · cases h
  · rename_i hcorr
    cases h
    exact jsonrpcCorrelationID_length hcorr

def Prepared.envelope : Prepared → Option BridgeEnvelope
  | .returns => none
  | .registers _ env _ => some env
  | .encodes env _ => some env
  | .enters _ env => some env

variable {V : Type} {J : JsonCodec V} {quote : Bytes → String}

variable {env : BridgeEnvelope} {s : Ingress}

theorem IngressRequest.short_prepare {req : IngressRequest V}
    (hfits : req.methodField.length ≤ 255) (henv : (req.prepare J quote random).envelope = some env) :
    env.Short := by
  have hrandom : random.toList.length ≤ 255 := (Vector.length_toList ..).trans_le (by decide)
  cases req with
  | serveHTTP method path rawQuery header body =>
    unfold prepare at henv
    cases body with
    | error e => cases henv
    | ok body =>
      cases henv
      exact ⟨hrandom, hfits⟩
  | callJSONRPC protocol method params id quoted =>
    unfold prepare at henv
    dsimp only at henv
    split at henv
    · cases henv
    · rename_i wire corrID hencode
      cases henv
      exact ⟨encodeJSONRPCRequest_length hencode, hfits⟩
  | sendJSONRPCNotification protocol method params =>
    unfold prepare at henv
    dsimp only at henv
    split at henv
    · cases henv
    · cases henv
      exact ⟨Nat.zero_le _, hfits⟩
  | callGRPCUnary method req =>
    cases henv
    exact ⟨hrandom, hfits⟩
  | callWebSocketMessage msg =>
    cases henv
    exact ⟨hrandom, Nat.zero_le _⟩
  | callOpaque protocol mediaType raw =>
    unfold prepare at henv
    dsimp only at henv
    split_ifs at henv
    · cases henv
    · split at henv
      · cases henv
      · cases henv
        exact ⟨hrandom, Nat.zero_le _⟩

/-- An envelope that fits is encoded. -/
theorem BridgeEnvelope.Short.encodeBridgePayload (h : env.Short) (foreign : Bytes) :
    ∃ wire, Npamp.encodeBridgePayload env none foreign = .ok wire := by
  have henvelope : ∃ value, encodeEnvelopeValue env = .ok value := by
    unfold encodeEnvelopeValue
    rw [if_neg (Nat.not_lt.mpr h.1), if_neg (Nat.not_lt.mpr h.2)]
    exact ⟨_, rfl⟩
  obtain ⟨value, hvalue⟩ := henvelope
  exact ⟨_, by rw [Npamp.encodeBridgePayload, encodeBridgeFrame, hvalue]; rfl⟩

/-- The invariant of the ingress: every envelope, handed over or still to be, fits its two length
octets, so that no encoder has panicked. -/
structure Ingress.Inv (s : Ingress) : Prop where
  waits : s.calls.Waits
  handed : ∀ env ∈ s.handed, env.Short
  preparing : ∀ i env foreign, s.preparing i = some (env, foreign) → env.Short
  aborted : s.aborted = []

theorem Ingress.Inv.safe (h : s.Inv) : s.Safe := by
  refine ⟨h.handed, h.aborted, fun i c hc hgone => ?_⟩
  rcases hgone with hreturned | haborted
  · exact h.waits.forgotten hc hreturned
  · rw [h.aborted] at haborted
    cases haborted

theorem Ingress.Inv.hand (h : s.Inv) (henv : env.Short) :
    ∀ env' ∈ s.handed ++ [env], env'.Short := by
  intro env' henv'
  rcases List.mem_append.mp henv' with hold | hnew
  · exact h.handed env' hold
  · rw [List.mem_singleton.mp hnew]
    exact henv

theorem Ingress.Inv.register (h : s.Inv) (kind : CallKind) (random : Vector UInt8 16)
    (foreign : Bytes) (henv : env.Short) : (s.register kind random env foreign).Inv := by
  have hcall := h.waits.call kind random
  unfold Ingress.register
  dsimp only
  split_ifs
  · refine ⟨hcall, h.handed, fun i env' foreign' hi => ?_, h.aborted⟩
    dsimp only at hi
    rw [Function.update_apply] at hi
    split_ifs at hi
    · cases hi
      exact henv
    · exact h.preparing i env' foreign' hi
  · exact ⟨hcall, h.handed, h.preparing, h.aborted⟩

theorem Ingress.Inv.begin {req : IngressRequest V} (h : s.Inv)
    (hfits : req.methodField.length ≤ 255) : (s.begin J quote req random).Inv := by
  have hshort : ∀ env, (req.prepare J quote random).envelope = some env → env.Short :=
    fun _ henv => short_prepare hfits henv
  unfold Ingress.begin
  split_ifs
  · exact h
  generalize req.prepare J quote random = prepared at hshort
  cases prepared with
  | returns => exact h
  | registers kind env foreign => exact h.register kind random foreign (hshort env rfl)
  | encodes env foreign => exact ⟨h.waits, h.hand (hshort env rfl), h.preparing, h.aborted⟩
  | enters kind env =>
    exact ⟨h.waits.call kind random, h.hand (hshort env rfl), h.preparing, h.aborted⟩

theorem Ingress.Inv.encode {s' : Ingress} {i : Nat} (h : s.Inv) (hstep : s.encode i = some s') :
    s'.Inv := by
  unfold Ingress.encode at hstep
  split at hstep
  · cases hstep
  rename_i env foreign hi
  have henv := h.preparing i env foreign hi
  obtain ⟨wire, hwire⟩ := henv.encodeBridgePayload foreign
  rw [hwire] at hstep
  cases hstep
  refine ⟨h.waits, h.hand henv, fun j env' foreign' hj => ?_, h.aborted⟩
  dsimp only at hj
  rw [Function.update_apply] at hj
  split_ifs at hj
  exact h.preparing j env' foreign' hj

theorem Ingress.Inv.proceed {s' : Ingress} {a : CallAction} (h : s.Inv)
    (hstep : s.proceed a = some s') : s'.Inv := by
  obtain ⟨calls, hcalls, rfl⟩ : ∃ calls, s.calls.step a = some calls
      ∧ { s with calls := calls } = s' := by
    unfold Ingress.proceed at hstep
    split at hstep
    · cases hstep
    · split_ifs at hstep
      exact Option.map_eq_some_iff.mp hstep
    · exact Option.map_eq_some_iff.mp hstep
  exact ⟨h.waits.step hcalls, h.handed, h.preparing, h.aborted⟩

/-- **No ingress call panics in the envelope encoder or leaves a waiter behind**, in every run whose
requests ask for a method field of at most 255 octets. -/
theorem ingress_safe {connected : Bool} {s : Ingress}
    (hreach : Run.Reaches (Ingress.step J quote) Ingress.Fits (Ingress.start connected) s) :
    s.Safe := by
  refine Ingress.Inv.safe (hreach.invariant ?_ fun s a s' h hfits hstep => ?_)
  · exact ⟨Calls.Waits.start, nofun, nofun, rfl⟩
  cases a with
  | begin req random =>
    cases hstep
    exact h.begin hfits
  | encode i => exact h.encode hstep
  | proceed a => exact h.proceed hstep

def noCodec : JsonCodec Unit where
  object _ := .error ""
  string _ := .error ""
  rpcError _ := .error ""
  ofString _ := ()
  ofUint64 _ := ()
  marshal _ := .error ""

def getPath (path : Bytes) : IngressAction Unit :=
  .begin (.serveHTTP (ascii "GET") path [] [] (.ok [])) (Vector.replicate 16 7)

def getRun (path : Bytes) : List (IngressAction Unit) :=
  [getPath path, .encode 0, .proceed (.sent 0 (some Sentinel.errClosed.err)),
    .proceed (.cleanup 0)]

theorem ingress_safe_get : ∃ s : Ingress, s.Safe ∧ s.calls.pending (List.replicate 16 7) = none
      ∧ s.handed.map BridgeEnvelope.method = [ascii "GET /"]
      ∧ s.calls.calls.map (fun c => c.phase.live) = [false] := by
  obtain ⟨s, hreach, hs⟩ : ∃ s,
      Run.Reaches (Ingress.step noCodec goString) Ingress.Fits (Ingress.start true) s
      ∧ s.calls.pending (List.replicate 16 7) = none
      ∧ s.handed.map BridgeEnvelope.method = [ascii "GET /"]
      ∧ s.calls.calls.map (fun c => c.phase.live) = [false] :=
    Run.exists_reaches (getRun (ascii "/")) (by decide +kernel)
  exact ⟨s, ingress_safe hreach, hs⟩

/-- A path of 252 octets: the encoder panics, and the waiter stays. -/
theorem ingress_panics : ∃ s : Ingress,
      Run.Reaches (Ingress.step noCodec goString) (fun _ _ => True) (Ingress.start true) s
      ∧ s.handed.map (fun env => env.method.length) = [256] ∧ s.aborted = [0]
      ∧ s.calls.pending (List.replicate 16 7) = some 0 :=
  Run.exists_reaches [getPath (List.replicate 252 0x2f), .encode 0] (by decide +kernel)

end Npamp
