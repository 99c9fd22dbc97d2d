import Npamp.Proof.View

/-!
# Reading what the peer sealed

A frame sealed under the receiver's view is parsed, opened and dispatched; the outcome is stated on
the message.
-/

namespace Npamp

open Conn

theorem length_wire {P : Primitives} (hP : P.Correct) (st : EpochKeys) (m : Outgoing) :
    (m.wire P st).length = headerSize + (m.plaintext.length + 16) := by
  rw [Outgoing.wire, sealWith, Frame.length_marshalBinary]
  exact congrArg (headerSize + ·) (hP.length_seal _ _ _ _)

/-- A sealed frame parses, and opens under the keys it was sealed with. -/
theorem openWith_sealWith {P : Primitives} (hP : P.Correct) (st : EpochKeys) (ch : ChannelID)
    (ft : FrameType) {pt : Bytes} (hfits : pt.length + 16 < 2 ^ 32) :
    ∃ f, unmarshalBinary (sealWith P st ch ft pt) = .ok f ∧ f.channel = ch ∧ f.type = ft
      ∧ f.flags = flagENC ∧ f.seq = st.seq ∧ openWith P st f = .ok pt := by
  set sealed := sealAES256GCM P st.key st.iv st.seq (recordAAD st.seq ch ft pt) pt with hsealed
  have hlength : sealed.length = pt.length + 16 := hP.length_seal _ _ _ _
  have hparse : unmarshalBinary (sealWith P st ch ft pt)
      = .ok { recordFrame st.seq ch ft sealed with version := protocolVersion } := by
    have hflags : flagENC &&& ~~~(flagENC ||| flagCOMP) = 0 := by decide
    apply unmarshalBinary_marshalBinary
    exact ⟨Or.inl rfl, hflags, hlength.trans_lt hfits⟩
  have hopen : openWith P st { recordFrame st.seq ch ft sealed with version := protocolVersion }
      = .ok pt := by
    have haad : Frame.headerPrefix { recordFrame st.seq ch ft sealed with version := protocolVersion }
        (UInt32.ofNat sealed.length) = recordAAD st.seq ch ft pt := by
      rw [hlength]
      rfl
    change openAES256GCM P st.key st.iv st.seq _ sealed = .ok pt
    rw [show (recordFrame st.seq ch ft sealed).payload = sealed from rfl, haad]
    exact hP.open_seal _ _ _ _
  exact ⟨_, hparse, rfl, rfl, rfl, rfl, hopen⟩

namespace Conn

variable {P : Primitives} {c : Conn}

/-- Frame `f` is next on its channel and opens to `pt`. -/
structure Opens (P : Primitives) (c : Conn) (f : Frame) (pt : Bytes) : Prop where
  sealed : f.flags &&& flagENC ≠ 0
  seq : f.seq = ((c.recvView P).keys f.channel).seq
  opens : openWith P ((c.recvView P).keys f.channel) f = .ok pt

/-- A frame that opens is dispatched, with the sequence number moved on. -/
theorem recvOnce_opens (hc : c.closed = false) {wire pt : Bytes} {f : Frame}
    (hparse : unmarshalBinary wire = .ok f) (h : c.Opens P f pt) : c.recvOnce P wire
      = (c.opened P f.channel).dispatch P ((c.recvView P).keys f.channel).next f.channel f.type
          pt := by
  rw [recvOnce, hparse]
  dsimp only
  rw [if_neg h.sealed, recvState_eq hc]
  dsimp only
  rw [if_neg (not_not.mpr h.seq), h.opens]
  dsimp only
  rw [bumpRecv_cacheRecv]

theorem opens_sealWith (hP : P.Correct) (c : Conn) (ch : ChannelID) (ft : FrameType) {pt : Bytes}
    (hfits : pt.length + 16 < 2 ^ 32) :
    ∃ f, unmarshalBinary (sealWith P ((c.recvView P).keys ch) ch ft pt) = .ok f ∧ f.channel = ch
      ∧ f.type = ft ∧ c.Opens P f pt := by
  obtain ⟨f, hparse, rfl, rfl, hflags, hseq, hopen⟩ :=
    openWith_sealWith hP ((c.recvView P).keys ch) ch ft hfits
  have hsealed : f.flags &&& flagENC ≠ 0 := by
    rw [hflags]
    decide
  exact ⟨f, hparse, rfl, rfl, hsealed, hseq, hopen⟩

theorem recvOnce_sealWith (hP : P.Correct) (hc : c.closed = false) {ch : ChannelID} {ft : FrameType}
    {pt : Bytes} (hfits : pt.length + 16 < 2 ^ 32) :
    c.recvOnce P (sealWith P ((c.recvView P).keys ch) ch ft pt)
      = (c.opened P ch).dispatch P ((c.recvView P).keys ch).next ch ft pt := by
  obtain ⟨f, hparse, rfl, rfl, hopens⟩ := opens_sealWith hP c ch ft hfits
  exact recvOnce_opens hc hparse hopens

end Conn

/-- A message fit to be sealed under view `v`: it announces the next epoch or generation. -/
def Outgoing.Valid (P : Primitives) (v : View) : Outgoing → Prop
  | app ch ft _ => IsApplication ch ft
  | keyUpdate ch announced => announced = (v.keys ch).epoch + 1
  | masterRatchet target => target = v.gen + 1
  | reKEM client kemShare _ => kemShare = client.kemShare P
  | reKEMAck kemShare kemCT newSS th target =>
    target = v.gen + 1 ∧ th = rekemPoint P kemShare kemCT target
      ∧ ∃ rand ss, encapsulate P kemShare rand = .ok (kemCT, ss) ∧ newSS = ss.combined
  | _ => True

/-- An acknowledgement the connection has no record of asking for. -/
def Outgoing.Unsolicited (c : Conn) : Outgoing → Prop
  | keyUpdateAck ch epoch => c.pendingKUAck ch epoch = 0
  | masterRatchetAck gen => gen ∉ c.pendingMRAck
  | reKEMAck _ _ _ _ _ => c.pendingReKEM = none
  | closeAck => c.closing = false
  | _ => False

/-- The pending re-KEM, if there is one, is the one `m` answers. -/
def Outgoing.AnswersSlot (P : Primitives) (c : Conn) : Outgoing → Prop
  | reKEMAck kemShare _ _ _ target =>
    ∀ pend, c.pendingReKEM = some pend →
      pend.kemShare = kemShare ∧ pend.targetGen = target ∧ kemShare = pend.client.kemShare P
  | _ => True

/-- What the receive loop makes of each message the peer can have sealed. -/
inductive Endpoint.Reads (P : Primitives) (e : Endpoint) : Outgoing → Endpoint → Prop
  | app {ch : ChannelID} {ft : FrameType} {payload : Bytes} :
      Reads P e (.app ch ft payload)
        { e with conn := e.conn.opened P ch, delivered := e.delivered ++ [(ch, ft, payload)] }
  | keyUpdate {ch : ChannelID} {announced : UInt64} :
      Reads P e (.keyUpdate ch announced)
        { e with
          conn :=
            { e.conn with
              recvKeys := Function.update e.conn.recvKeys ch
                (some (trafficKeys P e.conn.masterRecv e.conn.recvDir announced ch)) }
          responders := e.responders ++ [.keyUpdateAck ch announced] }
  | keyUpdateAck {ch : ChannelID} {epoch : UInt64} (hpending : e.conn.pendingKUAck ch epoch ≠ 0) :
      Reads P e (.keyUpdateAck ch epoch)
        { e with conn := (e.conn.opened P ch).removePendingKeyUpdateAck ch epoch }
  | masterRatchet {target : UInt64} :
      Reads P e (.masterRatchet target)
        { e with
          conn := e.conn.adoptRecvRoot (tier1 P e.conn.masterRecv target) target
          responders := e.responders ++ [.masterRatchetAck target] }
  | masterRatchetAck {gen : UInt64} (hpending : gen ∈ e.conn.pendingMRAck) :
      Reads P e (.masterRatchetAck gen)
        { e with conn := (e.conn.opened P chanControl).removePendingRatchetAck gen }
  | reKEM {client : KEMClient} {kemShare : Bytes} {target : UInt64} :
      Reads P e (.reKEM client kemShare target)
        { e with
          conn := e.conn.opened P chanControl
          responders := e.responders ++ [.respondReKEM kemShare target] }
  | reKEMAck {kemShare kemCT newSS th : Bytes} {target : UInt64} {pend : PendingReKEM}
      (hpending : e.conn.pendingReKEM = some pend) :
      Reads P e (.reKEMAck kemShare kemCT newSS th target)
        { e with
          conn := adoptRecvRoot { e.conn with pendingReKEM := none }
            (tier2 P e.conn.masterRecv newSS th) target }
  | close {ackCh : Nat} :
      Reads P e (.close ackCh)
        { e with conn := e.conn.opened P chanControl, reaction := some (.due .closeAck) }
  | closeAck (hclosing : e.conn.closing = true) :
      Reads P e .closeAck
        { e with
          conn := (e.conn.opened P chanControl).signalCloseAck.1
          errors := e.errors ++ [Sentinel.errPeerClosed.err] }
  | sessionError {code : SessionErrorCode} :
      Reads P e (.sessionError code)
        { e with
          conn := e.conn.opened P chanControl
          reaction := some (.due (.peerError { code := code, context := [] })) }
  | unsolicited {m : Outgoing} {err : GoError} (h : m.Unsolicited e.conn) :
      Reads P e m
        { e with
          conn := e.conn.opened P m.channel
          reaction := some (.due (.emitError errCodeUnexpectedMessage err)) }

namespace Conn

variable {P : Primitives} (c : Conn) (st : EpochKeys) (pt : Bytes)

/-- What `dispatch` does, one premise for each handler. -/
theorem dispatch_cases {motive : RecvStep → Prop} (ch : ChannelID) (ft : FrameType)
    (hkeyUpdate : motive (c.keyUpdateReceived P ch st pt))
    (hkeyUpdateAck : motive (c.keyUpdateAckReceived ch pt))
    (hdeliver : ch ≠ chanControl → motive (.ret c ch ft pt (.deliver none)))
    (hmasterRatchet : motive (c.masterRatchetReceived P ch pt))
    (hmasterRatchetAck : motive (c.masterRatchetAckReceived pt))
    (hreKEM : motive (c.reKEMReceived ch pt)) (hreKEMAck : motive (c.reKEMAckReceived P pt))
    (hclose : motive (c.closeReceived pt)) (hcloseAck : motive c.closeAckReceived)
    (herror : motive (c.errorReceived pt))
    (hunhandled : ∀ err, motive (.act c (.emitError errCodeUnexpectedMessage err))) :
    motive (c.dispatch P st ch ft pt) := by
  unfold dispatch
  refine iteInduction (fun _ => hkeyUpdate) fun _ => ?_
  refine iteInduction (fun _ => hkeyUpdateAck) fun _ => ?_
  refine iteInduction hdeliver fun _ => ?_
  refine iteInduction (fun _ => hmasterRatchet) fun _ => ?_
  refine iteInduction (fun _ => hmasterRatchetAck) fun _ => ?_
  refine iteInduction (fun _ => hreKEM) fun _ => ?_
  refine iteInduction (fun _ => hreKEMAck) fun _ => ?_
  refine iteInduction (fun _ => hclose) fun _ => ?_
  refine iteInduction (fun _ => hcloseAck) fun _ => ?_
  exact iteInduction (fun _ => herror) fun _ => hunhandled _

theorem dispatch_application {ch : ChannelID} {ft : FrameType} (h : IsApplication ch ft) :
    c.dispatch P st ch ft pt = .ret c ch ft pt (.deliver none) := by
  obtain ⟨hch, hupdate, hack⟩ := h
  rw [dispatch, if_neg hupdate, if_neg hack, if_pos hch]

theorem dispatch_keyUpdate (ch : ChannelID) :
    c.dispatch P st ch frameKeyUpdate pt = c.keyUpdateReceived P ch st pt := by
  rw [dispatch, if_pos rfl]

theorem dispatch_keyUpdateAck (ch : ChannelID) :
    c.dispatch P st ch frameKeyUpdateAck pt = c.keyUpdateAckReceived ch pt := by
  rw [dispatch, if_neg (by decide), if_pos rfl]

theorem dispatch_masterRatchet :
    c.dispatch P st chanControl frameMasterRatchet pt = c.masterRatchetReceived P chanControl pt := by
  rw [dispatch, if_neg (by decide), if_neg (by decide), if_neg (by decide), if_pos rfl]

theorem dispatch_masterRatchetAck :
    c.dispatch P st chanControl frameMasterRatchetAck pt = c.masterRatchetAckReceived pt := by
  rw [dispatch, if_neg (by decide), if_neg (by decide), if_neg (by decide), if_neg (by decide),
    if_pos rfl]

theorem dispatch_reKEM :
    c.dispatch P st chanControl frameReKEM pt = c.reKEMReceived chanControl pt := by
  rw [dispatch, if_neg (by decide), if_neg (by decide), if_neg (by decide), if_neg (by decide),
    if_neg (by decide), if_pos rfl]

theorem dispatch_reKEMAck :
    c.dispatch P st chanControl frameReKEMAck pt = c.reKEMAckReceived P pt := by
  rw [dispatch, if_neg (by decide), if_neg (by decide), if_neg (by decide), if_neg (by decide),
    if_neg (by decide), if_neg (by decide), if_pos rfl]

theorem dispatch_close : c.dispatch P st chanControl frameClose pt = c.closeReceived pt := by
  rw [dispatch, if_neg (by decide), if_neg (by decide), if_neg (by decide), if_neg (by decide),
    if_neg (by decide), if_neg (by decide), if_neg (by decide), if_pos rfl]

theorem dispatch_closeAck : c.dispatch P st chanControl frameCloseAck pt = c.closeAckReceived := by
  rw [dispatch, if_neg (by decide), if_neg (by decide), if_neg (by decide), if_neg (by decide),
    if_neg (by decide), if_neg (by decide), if_neg (by decide), if_neg (by decide), if_pos rfl]

theorem dispatch_error : c.dispatch P st chanControl frameError pt = c.errorReceived pt := by
  rw [dispatch, if_neg (by decide), if_neg (by decide), if_neg (by decide), if_neg (by decide),
    if_neg (by decide), if_neg (by decide), if_neg (by decide), if_neg (by decide),
    if_neg (by decide), if_pos rfl]

variable {c st}

variable {pt : Bytes} {target : UInt64}

theorem keyUpdateReceived_next {announced : UInt64} (ch : ChannelID)
    (hparse : parseKeyUpdateMarker pt = .ok announced) (h : announced = st.epoch + 1) :
    c.keyUpdateReceived P ch st pt
      = .again
          { c with
            recvKeys := Function.update c.recvKeys ch
              (some (trafficKeys P c.masterRecv c.recvDir announced ch)) }
          (some (.keyUpdateAck ch announced)) := by
  rw [keyUpdateReceived, handleKeyUpdate, hparse]
  dsimp only
  rw [if_neg (not_not.mpr h), EpochKeys.advance_eq c.hasSuite, ← h]

theorem keyUpdateAckReceived_cases {epoch : UInt64} (ch : ChannelID)
    (hparse : parseKeyUpdateMarker pt = .ok epoch) :
    (c.pendingKUAck ch epoch = 0 ∧ ∃ err, c.keyUpdateAckReceived ch pt
        = .act c (.emitError errCodeUnexpectedMessage err))
      ∨ (c.pendingKUAck ch epoch ≠ 0 ∧ c.keyUpdateAckReceived ch pt
        = .again (c.removePendingKeyUpdateAck ch epoch) none) := by
  rw [keyUpdateAckReceived, hparse]
  by_cases hpending : c.pendingKUAck ch epoch = 0
  · left
    refine ⟨hpending, ?_⟩
    simp only [consumePendingKeyUpdateAck, if_pos hpending]
    exact ⟨_, rfl⟩
  · right
    refine ⟨hpending, ?_⟩
    simp only [consumePendingKeyUpdateAck, if_neg hpending]

theorem masterRatchetReceived_next (ch : ChannelID) (hparse : parseRatchetGenMarker pt = .ok target)
    (h : target = c.genRecv + 1) : c.masterRatchetReceived P ch pt
      = .again (c.adoptRecvRoot (tier1 P c.masterRecv target) target)
          (some (.masterRatchetAck target)) := by
  rw [masterRatchetReceived, handleMasterRatchet, hparse]
  dsimp only
  rw [if_neg (not_not.mpr h), ratchetMasterTier1_eq c.hasSuite]

theorem masterRatchetAckReceived_cases {gen : UInt64} (hparse : parseRatchetGenMarker pt = .ok gen)
    : (gen ∉ c.pendingMRAck ∧ ∃ err, c.masterRatchetAckReceived pt
        = .act c (.emitError errCodeUnexpectedMessage err))
      ∨ (gen ∈ c.pendingMRAck ∧ c.masterRatchetAckReceived pt
        = .again (c.removePendingRatchetAck gen) none) := by
  rw [masterRatchetAckReceived, hparse]
  by_cases hpending : gen ∈ c.pendingMRAck
  · right
    refine ⟨hpending, ?_⟩
    simp only [consumePendingRatchetAck, if_pos hpending]
  · left
    refine ⟨hpending, ?_⟩
    simp only [consumePendingRatchetAck, if_neg hpending]
    exact ⟨_, rfl⟩

theorem reKEMAckReceived_unsolicited {kemCT : Bytes}
    (hparse : parseReKEMAck pt = .ok (kemCT, target)) (hpending : c.pendingReKEM = none) :
    c.reKEMAckReceived P pt
      = .act c (.emitError errCodeUnexpectedMessage Sentinel.errUnsolicitedReKEMAck.err) := by
  rw [reKEMAckReceived, handleReKEMAck, hparse]
  simp only [hpending]
  rfl

theorem reKEMAckReceived_pending {pend : PendingReKEM} {kemCT : Bytes} {ss : SharedSecrets}
    (hsize : kemCT.length = kemCiphertextSize768) (hpending : c.pendingReKEM = some pend)
    (hgen : target = c.genRecv + 1) (htarget : target = pend.targetGen)
    (hshared : pend.client.sharedSecrets P kemCT = .ok ss) :
    c.reKEMAckReceived P (encodeReKEMAck kemCT target)
      = .again
          (adoptRecvRoot { c with pendingReKEM := none }
            (tier2 P c.masterRecv ss.combined (rekemPoint P pend.kemShare kemCT target)) target)
          none := by
  rw [reKEMAckReceived, handleReKEMAck, parseReKEMAck_encodeReKEMAck hsize]
  simp only [hpending, completeReKEM]
  rw [if_neg (not_or.mpr ⟨not_not.mpr hgen, not_not.mpr htarget⟩), hshared]
  dsimp only
  rw [thRekem_eq c.hasSuite]
  dsimp only
  rw [ratchetMasterTier2_eq c.hasSuite]

theorem closeAckReceived_cases : (c.closing = false ∧ ∃ err, c.closeAckReceived
        = .act c (.emitError errCodeUnexpectedMessage err))
      ∨ (c.closing = true ∧ c.closeAckReceived
        = .fail c.signalCloseAck.1 Sentinel.errPeerClosed.err) := by
  cases hclosing : c.closing with
  | false =>
    left
    refine ⟨rfl, ?_⟩
    simp only [closeAckReceived, signalCloseAck, hclosing]
    exact ⟨_, rfl⟩
  | true =>
    right
    refine ⟨rfl, ?_⟩
    simp only [closeAckReceived, signalCloseAck, hclosing, if_true]

end Conn

namespace Endpoint

variable {P : Primitives} {e : Endpoint}

theorem recv_eq {wire : Bytes} (hraw : e.rawClosed = false) (hreaction : e.reaction = none) :
    e.recv P wire = some (e.afterRecv (e.conn.recvOnce P wire)) := by
  rw [recv, if_neg (by simp [hraw, hreaction])]

theorem Reads.of_eq {m : Outgoing} {r r' : RecvStep} (heq : r = r')
    (h : Reads P e m (e.afterRecv r')) : Reads P e m (e.afterRecv r) := by
  rwa [heq]

theorem Reads.of_again {m : Outgoing} {r : RecvStep} {c : Conn} (heq : r = .again c none)
    (h : Reads P e m { e with conn := c }) : Reads P e m (e.afterRecv r) := by
  rw [heq]
  simpa [afterRecv] using h

/-- **A sealed message is read as what it is.** The frame opens, and the endpoint does what `Reads`
says, with no frame dropped. -/
theorem recv_reads (hP : P.Correct) {m : Outgoing} (hraw : e.rawClosed = false)
    (hreaction : e.reaction = none) (hclosed : e.conn.closed = false)
    (hvalid : m.Valid P (e.conn.recvView P)) (hslot : m.AnswersSlot P e.conn)
    (hfits : (m.wire P ((e.conn.recvView P).keys m.channel)).length ≤ maxFrameSize) :
    ∃ e', e.recv P (m.wire P ((e.conn.recvView P).keys m.channel)) = some e'
      ∧ Reads P e m e' := by
  have hlength : m.plaintext.length + 16 < 2 ^ 32 := by
    rw [length_wire hP] at hfits
    calc m.plaintext.length + 16 ≤ headerSize + (m.plaintext.length + 16) := Nat.le_add_left _ _
      _ ≤ maxFrameSize := hfits
      _ < 2 ^ 32 := by decide
  refine ⟨_, recv_eq hraw hreaction, ?_⟩
  rw [Outgoing.wire, recvOnce_sealWith hP hclosed hlength]
  cases m with
  | app ch ft payload =>
    exact Reads.of_eq (dispatch_application _ _ _ hvalid) .app
  | keyUpdate ch announced =>
    refine Reads.of_eq (dispatch_keyUpdate _ _ _ ch) ?_
    have hparse := parseKeyUpdateMarker_keyUpdateMarker announced
    refine Reads.of_eq (keyUpdateReceived_next ch hparse hvalid) ?_
    simp only [opened, Outgoing.channel, Function.update_idem]
    exact .keyUpdate
  | keyUpdateAck ch epoch =>
    refine Reads.of_eq (dispatch_keyUpdateAck _ _ _ ch) ?_
    rcases keyUpdateAckReceived_cases (c := e.conn.opened P ch) ch
        (parseKeyUpdateMarker_keyUpdateMarker epoch) with
      ⟨hpending, err, hstep⟩ | ⟨hpending, hstep⟩
    · exact Reads.of_eq hstep (.unsolicited hpending)
    · exact Reads.of_again hstep (.keyUpdateAck hpending)
  | masterRatchet target =>
    refine Reads.of_eq (dispatch_masterRatchet _ _ _) ?_
    have hparse := parseRatchetGenMarker_ratchetGenMarker target
    exact Reads.of_eq (masterRatchetReceived_next chanControl hparse hvalid) .masterRatchet
  | masterRatchetAck gen =>
    refine Reads.of_eq (dispatch_masterRatchetAck _ _ _) ?_
    rcases masterRatchetAckReceived_cases (c := e.conn.opened P chanControl)
        (parseRatchetGenMarker_ratchetGenMarker gen) with
      ⟨hpending, err, hstep⟩ | ⟨hpending, hstep⟩
    · exact Reads.of_eq hstep (.unsolicited hpending)
    · exact Reads.of_again hstep (.masterRatchetAck hpending)
  | reKEM client kemShare target =>
    have hsize : kemShare.length = kemShareSize768 := by
      change kemShare = client.kemShare P at hvalid
      rw [hvalid, length_kemShare hP]
    refine Reads.of_eq (dispatch_reKEM _ _ _) ?_
    have hstep : reKEMReceived (e.conn.opened P chanControl) chanControl
        (encodeReKEM kemShare target)
        = .again (e.conn.opened P chanControl) (some (.respondReKEM kemShare target)) := by
      rw [reKEMReceived, handleReKEM, parseReKEM_encodeReKEM hsize]
    exact Reads.of_eq hstep .reKEM
  | reKEMAck kemShare kemCT newSS th target =>
    obtain ⟨hgen, hth, rand, ss, hencapsulate, hss⟩ := hvalid
    refine Reads.of_eq (dispatch_reKEMAck _ _ _) ?_
    have hsize := length_encapsulate hP hencapsulate
    cases hpending : e.conn.pendingReKEM with
    | none =>
      have hparse := parseReKEMAck_encodeReKEMAck hsize target
      exact Reads.of_eq (reKEMAckReceived_unsolicited hparse hpending)
        (.unsolicited hpending)
    | some pend =>
      obtain ⟨hshare, htarget, hclient⟩ := hslot pend hpending
      rw [hclient] at hencapsulate
      have hshared := sharedSecrets_of_encapsulate hP hencapsulate
      have hstep := reKEMAckReceived_pending (c := e.conn.opened P chanControl) hsize
        hpending hgen htarget.symm hshared
      rw [hshare, ← hth, ← hss] at hstep
      exact Reads.of_again hstep (.reKEMAck hpending)
  | close ackCh =>
    exact Reads.of_eq (dispatch_close _ _ _) .close
  | closeAck =>
    refine Reads.of_eq (dispatch_closeAck _ _ _) ?_
    rcases closeAckReceived_cases (c := e.conn.opened P chanControl) with
      ⟨hclosing, err, hstep⟩ | ⟨hclosing, hstep⟩
    · exact Reads.of_eq hstep (.unsolicited hclosing)
    · exact Reads.of_eq hstep (.closeAck hclosing)
  | sessionError code =>
    refine Reads.of_eq (dispatch_error _ _ _) ?_
    have hstep : errorReceived (e.conn.opened P chanControl) (encodeErrorBody code [])
        = .act (e.conn.opened P chanControl) (.peerError { code := code, context := [] }) := by
      rw [errorReceived, decodeErrorBody_encodeErrorBody code (by decide)]
    exact Reads.of_eq hstep .sessionError

end Endpoint

end Npamp
