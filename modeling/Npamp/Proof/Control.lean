import Npamp.Plain
import Npamp.Proof.Read

/-!
# The Control channel's total default

What `Recv` does with a frame that opens on Control. An acknowledgement is fatal when it is well
formed and answers nothing.
-/

namespace Npamp

def controlTypes : List FrameType :=
  [frameKeyUpdate, frameKeyUpdateAck, frameMasterRatchet, frameMasterRatchetAck, frameReKEM,
    frameReKEMAck, frameClose, frameCloseAck, frameError]

namespace Conn

/-- The frames that are fatal with `unexpected_message`. -/
inductive Unexpected (c : Conn) : FrameType → Bytes → Prop
  | unhandled {ft : FrameType} {pt : Bytes} (htype : ft ∉ controlTypes) : Unexpected c ft pt
  | close {pt : Bytes} (hpayload : pt ≠ []) : Unexpected c frameClose pt
  | keyUpdateAck {pt : Bytes} {epoch : UInt64} (hparse : parseKeyUpdateMarker pt = .ok epoch)
      (hpending : c.pendingKUAck chanControl epoch = 0) : Unexpected c frameKeyUpdateAck pt
  | masterRatchetAck {pt : Bytes} {gen : UInt64} (hparse : parseRatchetGenMarker pt = .ok gen)
      (hpending : gen ∉ c.pendingMRAck) : Unexpected c frameMasterRatchetAck pt
  | reKEMAck {pt kemCT : Bytes} {gen : UInt64} (hparse : parseReKEMAck pt = .ok (kemCT, gen))
      (hpending : c.pendingReKEM = none) : Unexpected c frameReKEMAck pt
  | closeAck {pt : Bytes} (hclosing : c.closing = false) : Unexpected c frameCloseAck pt

/-- The frames that are fatal with `key_update_out_of_order`, at receive epoch `epoch`. -/
inductive OutOfOrder (epoch : UInt64) : FrameType → Bytes → Prop
  | update {pt : Bytes} (hparse : ∀ next, parseKeyUpdateMarker pt ≠ .ok next) :
      OutOfOrder epoch frameKeyUpdate pt
  | ack {pt : Bytes} (hparse : ∀ next, parseKeyUpdateMarker pt ≠ .ok next) :
      OutOfOrder epoch frameKeyUpdateAck pt
  | skipped {pt : Bytes} {next : UInt64} (hparse : parseKeyUpdateMarker pt = .ok next)
      (hnext : next ≠ epoch + 1) : OutOfOrder epoch frameKeyUpdate pt

/-- The acknowledgements that are reported to the caller only. -/
inductive Invalid (c : Conn) : FrameType → Bytes → Prop
  | masterRatchetAck {pt : Bytes} (hparse : ∀ gen, parseRatchetGenMarker pt ≠ .ok gen) :
      Invalid c frameMasterRatchetAck pt
  | reKEMAck {pt : Bytes} (hparse : ∀ result, parseReKEMAck pt ≠ .ok result) :
      Invalid c frameReKEMAck pt
  | generation {pt kemCT : Bytes} {gen : UInt64} {pend : PendingReKEM}
      (hparse : parseReKEMAck pt = .ok (kemCT, gen)) (hpending : c.pendingReKEM = some pend)
      (hgen : gen ≠ c.genRecv + 1 ∨ gen ≠ pend.targetGen) : Invalid c frameReKEMAck pt

theorem Unexpected.opened {c : Conn} {ft : FrameType} {pt : Bytes} (h : c.Unexpected ft pt)
    (P : Primitives) (ch : ChannelID) : (c.opened P ch).Unexpected ft pt := by
  cases h with
  | unhandled htype => exact .unhandled htype
  | close hpayload => exact .close hpayload
  | keyUpdateAck hparse hpending => exact .keyUpdateAck hparse hpending
  | masterRatchetAck hparse hpending => exact .masterRatchetAck hparse hpending
  | reKEMAck hparse hpending => exact .reKEMAck hparse hpending
  | closeAck hclosing => exact .closeAck hclosing

theorem Invalid.opened {c : Conn} {ft : FrameType} {pt : Bytes} (h : c.Invalid ft pt)
    (P : Primitives) (ch : ChannelID) : (c.opened P ch).Invalid ft pt := by
  cases h with
  | masterRatchetAck hparse => exact .masterRatchetAck hparse
  | reKEMAck hparse => exact .reKEMAck hparse
  | generation hparse hpending hgen => exact .generation hparse hpending hgen

section Outcomes

variable (P : Primitives) (c : Conn) (wire : Bytes)

/-- `Recv` hands exactly `sent` to the transport, tears the connection down and returns an error. No
receive epoch moves. -/
def TearsDown (sent : List Outgoing) : Prop :=
  ∀ written, ∃ c' err,
    c.recv P wire written
      = .error c' (sent.map fun m => ((c.sendView P).keys m.channel, m)) err
    ∧ c'.closed = true
    ∧ ∀ ch, ((c'.recvView P).keys ch).epoch = ((c.recvView P).keys ch).epoch

/-- `Recv` returns an error, hands nothing to the transport and leaves the connection open. -/
def Surfaces : Prop :=
  ∀ written, ∃ c' err, c.recv P wire written = .error c' [] err ∧ c'.closed = false

end Outcomes

variable {P : Primitives} {c : Conn} {wire : Bytes}

theorem epoch_zeroize (ch : ChannelID) :
    ((c.zeroize.recvView P).keys ch).epoch = ((c.recvView P).keys ch).epoch := by
  cases hkeys : c.recvKeys ch with
  | none => simp only [recvView, zeroize, hkeys, Option.map_none, Option.getD_none, trafficKeys]
  | some st =>
    simp only [recvView, zeroize, hkeys, Option.map_some, Option.getD_some, EpochKeys.zeroize]

theorem epoch_opened (ch other : ChannelID) :
    (((c.opened P ch).recvView P).keys other).epoch = ((c.recvView P).keys other).epoch := by
  rw [recvView_opened]
  by_cases hother : other = ch
  · subst hother
    simp [View.bump, EpochKeys.next]
  · simp [View.bump, hother]

theorem runCall_notify (hc : c.closed = false) {call : Call} {m : Outgoing}
    (hbegin : call.begin P c = c.notify P m) (written : Bool) : c.runCall P call written
      = ((c.cacheSend P m.channel).afterWrite P m written,
          [((c.sendView P).keys m.channel, m)]) := by
  rw [runCall, hbegin, notify, sendState_eq hc]

theorem tearsDown_of_notify (hc : c.closed = false) {act : RecvAction} {call : Call} {m : Outgoing}
    {err : GoError} (hstep : c.recvOnce P wire = .act (c.opened P chanControl) act)
    (hreact : ∀ (c : Conn) (written : Bool), c.react P act written
      = ((c.runCall P call written).1.zeroize, (c.runCall P call written).2, some err))
    (hbegin : ∀ c : Conn, call.begin P c = c.notify P m) : c.TearsDown P wire [m] := by
  intro written
  have hopen : (c.opened P chanControl).closed = false := hc
  have hrun := runCall_notify hopen (hbegin _) written
  refine ⟨(((c.opened P chanControl).cacheSend P m.channel).afterWrite P m written).zeroize, err,
    ?_, rfl, fun ch => ?_⟩
  · rw [recv, hstep]
    simp only [RecvStep.act, hreact, hrun]
    rfl
  · rw [epoch_zeroize, recvView_afterWrite, recvView_cacheSend, epoch_opened]

theorem tearsDown_of_emitError (hc : c.closed = false) {code : SessionErrorCode} {err : GoError}
    (hstep : c.recvOnce P wire = .act (c.opened P chanControl) (.emitError code err)) :
    c.TearsDown P wire [.sessionError code] :=
  tearsDown_of_notify hc hstep (fun _ _ => rfl) fun _ => rfl

theorem tearsDown_of_peerError {e : SessionError}
    (hstep : c.recvOnce P wire = .act (c.opened P chanControl) (.peerError e)) :
    c.TearsDown P wire [] := by
  intro written
  refine ⟨(c.opened P chanControl).zeroize, e.err, ?_, rfl,
    fun ch => (epoch_zeroize ch).trans (epoch_opened _ ch)⟩
  rw [recv, hstep]
  rfl

theorem surfaces_of_fail {c' : Conn} {err : GoError} (hc' : c'.closed = false)
    (hstep : c.recvOnce P wire = .fail c' err) : c.Surfaces P wire := by
  intro written
  refine ⟨c', err, ?_, hc'⟩
  rw [recv, hstep]
  rfl

section Dispatch

variable {st : EpochKeys} {ft : FrameType} {pt : Bytes}

theorem dispatch_of_unhandled (htype : ft ∉ controlTypes) :
    ∃ err, c.dispatch P st chanControl ft pt = .act c (.emitError errCodeUnexpectedMessage err) := by
  simp only [controlTypes, List.mem_cons, List.not_mem_nil, or_false, not_or] at htype
  obtain ⟨hku, hkua, hmr, hmra, hrk, hrka, hclose, hca, herr⟩ := htype
  rw [dispatch, if_neg hku, if_neg hkua, if_neg (not_not.mpr rfl), if_neg hmr, if_neg hmra,
    if_neg hrk, if_neg hrka, if_neg hclose, if_neg hca, if_neg herr]
  exact ⟨_, rfl⟩

theorem dispatch_of_unexpected (h : c.Unexpected ft pt) :
    ∃ err, c.dispatch P st chanControl ft pt = .act c (.emitError errCodeUnexpectedMessage err) := by
  cases h with
  | unhandled htype => exact dispatch_of_unhandled htype
  | close hpayload =>
    rw [dispatch_close, closeReceived, if_pos (List.length_eq_zero_iff.not.mpr hpayload)]
    exact ⟨_, rfl⟩
  | keyUpdateAck hparse hpending =>
    rw [dispatch_keyUpdateAck]
    rcases keyUpdateAckReceived_cases (c := c) chanControl hparse with ⟨-, hstep⟩ | ⟨hne, -⟩
    · exact hstep
    · exact absurd hpending hne
  | masterRatchetAck hparse hpending =>
    rw [dispatch_masterRatchetAck]
    rcases masterRatchetAckReceived_cases (c := c) hparse with ⟨-, hstep⟩ | ⟨hmem, -⟩
    · exact hstep
    · exact absurd hmem hpending
  | reKEMAck hparse hpending =>
    rw [dispatch_reKEMAck, reKEMAckReceived_unsolicited hparse hpending]
    exact ⟨_, rfl⟩
  | closeAck hclosing =>
    rw [dispatch_closeAck]
    rcases closeAckReceived_cases (c := c) with ⟨-, hstep⟩ | ⟨htrue, -⟩
    · exact hstep
    · rw [hclosing] at htrue
      cases htrue

theorem dispatch_of_outOfOrder (st : EpochKeys) (h : OutOfOrder st.epoch ft pt) :
    ∃ err, c.dispatch P st chanControl ft pt
      = .act c (.emitError errCodeKeyUpdateOutOfOrder err) := by
  cases h with
  | update hparse =>
    rw [dispatch_keyUpdate, keyUpdateReceived, handleKeyUpdate]
    cases hresult : parseKeyUpdateMarker pt with
    | ok next => exact absurd hresult (hparse next)
    | error e => exact ⟨_, rfl⟩
  | ack hparse =>
    rw [dispatch_keyUpdateAck, keyUpdateAckReceived]
    cases hresult : parseKeyUpdateMarker pt with
    | ok next => exact absurd hresult (hparse next)
    | error e => exact ⟨_, rfl⟩
  | skipped hparse hnext =>
    rw [dispatch_keyUpdate, keyUpdateReceived, handleKeyUpdate, hparse]
    dsimp only
    rw [if_pos hnext]
    exact ⟨_, rfl⟩

theorem errorsIs_parseReKEMAck {e : GoError} (h : parseReKEMAck pt = .error e) :
    errorsIs e .errUnsolicitedReKEMAck = false := by
  unfold parseReKEMAck parseWithGen at h
  split at h
  · rename_i hdecode
    cases h
    rcases decodeTLVs_error hdecode with rfl | rfl <;> rfl
  · split at h
    · cases h
      rfl
    split at h
    · cases h
      rfl
    split at h
    · cases h
      rfl
    · cases h
  · cases h
    rfl

theorem dispatch_of_invalid (h : c.Invalid ft pt) :
    ∃ c' err, c.dispatch P st chanControl ft pt = .fail c' err ∧ c'.closed = c.closed := by
  cases h with
  | masterRatchetAck hparse =>
    rw [dispatch_masterRatchetAck, masterRatchetAckReceived]
    cases hresult : parseRatchetGenMarker pt with
    | ok gen => exact absurd hresult (hparse gen)
    | error e => exact ⟨c, _, rfl, rfl⟩
  | reKEMAck hparse =>
    rw [dispatch_reKEMAck, reKEMAckReceived, handleReKEMAck]
    cases hresult : parseReKEMAck pt with
    | ok result => exact absurd hresult (hparse result)
    | error e =>
      have hmalformed : errorsIs e .errUnsolicitedReKEMAck = false :=
        errorsIs_parseReKEMAck hresult
      change errorsIs (wrapf "npamp/sdk: REKEM_ACK" e) .errUnsolicitedReKEMAck = false at hmalformed
      dsimp only
      rw [hmalformed]
      exact ⟨c, _, rfl, rfl⟩
  | generation hparse hpending hgen =>
    rw [dispatch_reKEMAck, reKEMAckReceived, handleReKEMAck, hparse]
    simp only [hpending, completeReKEM]
    rw [if_pos hgen]
    exact ⟨_, _, rfl, rfl⟩

end Dispatch

/-- `Recv` returns no message to the application. -/
def Withholds (r : RecvStep) : Prop := ∀ c ch ft pt, r ≠ .ret c ch ft pt (.deliver none)

theorem withholds_act {act : RecvAction} (h : act ≠ .deliver none) : Withholds (.act c act) := by
  intro c' ch ft pt heq
  cases heq
  exact h rfl

theorem withholds_keyUpdateReceived (c : Conn) (ch : ChannelID) (st : EpochKeys) (pt : Bytes) :
    Withholds (c.keyUpdateReceived P ch st pt) := by
  unfold keyUpdateReceived
  split
  · split <;> exact withholds_act nofun
  · exact fun _ _ _ _ => nofun

theorem withholds_keyUpdateAckReceived (c : Conn) (ch : ChannelID) (pt : Bytes) :
    Withholds (c.keyUpdateAckReceived ch pt) := by
  unfold keyUpdateAckReceived
  split
  · exact withholds_act nofun
  · split
    · exact fun _ _ _ _ => nofun
    · exact withholds_act nofun

/-- **What is not an application frame is not returned as one.** -/
theorem dispatch_withholds {ch : ChannelID} {ft : FrameType} (h : ¬ IsApplication ch ft) (c : Conn)
    (st : EpochKeys) (pt : Bytes) : Withholds (c.dispatch P st ch ft pt) := by
  by_cases hupdate : ft = frameKeyUpdate
  · rw [hupdate, dispatch_keyUpdate]
    exact withholds_keyUpdateReceived _ _ _ _
  by_cases hack : ft = frameKeyUpdateAck
  · rw [hack, dispatch_keyUpdateAck]
    exact withholds_keyUpdateAckReceived _ _ _
  obtain rfl : ch = chanControl := by_contra fun hch => h ⟨hch, hupdate, hack⟩
  refine dispatch_cases (motive := Withholds) c st pt chanControl ft
    (withholds_keyUpdateReceived _ _ _ _) (withholds_keyUpdateAckReceived _ _ _) (absurd rfl) ?_ ?_
    ?_ ?_ ?_ ?_ ?_ fun _ => withholds_act nofun
  · unfold masterRatchetReceived
    split
    · exact withholds_act nofun
    · exact fun _ _ _ _ => nofun
  · unfold masterRatchetAckReceived
    split
    · exact withholds_act nofun
    · split
      · exact fun _ _ _ _ => nofun
      · exact withholds_act nofun
  · unfold reKEMReceived
    split
    · exact withholds_act nofun
    · exact fun _ _ _ _ => nofun
  · unfold reKEMAckReceived
    split
    · exact fun _ _ _ _ => nofun
    · split <;> exact withholds_act nofun
  · unfold closeReceived
    split <;> exact withholds_act nofun
  · unfold closeAckReceived
    split <;> exact withholds_act nofun
  · unfold errorReceived
    split <;> exact withholds_act nofun

theorem react_eq_none {act : RecvAction} {written : Bool} {c' : Conn}
    {sent : List (EpochKeys × Outgoing)} (h : c.react P act written = (c', sent, none)) :
    act = .deliver none := by
  cases act with
  | deliver err =>
    obtain ⟨-, -, rfl⟩ := h
    rfl
  | _ => cases h

/-- A step that withholds the frame keeps it from the application, whatever the write of the answer
does. -/
theorem recv_ne_frame (h : Withholds (c.recvOnce P wire)) (written : Bool) (c' : Conn)
    (ch : ChannelID) (ft : FrameType) (pt : Bytes) :
    c.recv P wire written ≠ .frame c' ch ft pt := by
  intro hrecv
  unfold recv at hrecv
  split at hrecv
  · cases hrecv
  rename_i hret
  split at hrecv
  · rename_i hreact
    rw [react_eq_none hreact] at hret
    exact h _ _ _ _ hret
  · cases hrecv

/-- **The total default of the Control channel.** A frame that opens there is never returned as an
application frame; what nobody asked for is fatal, CLOSE is acknowledged, ERROR is not answered. -/
theorem control_total_default (hc : c.closed = false) {f : Frame} {pt : Bytes}
    (hparse : unmarshalBinary wire = .ok f) (hchannel : f.channel = chanControl)
    (hopens : c.Opens P f pt) :
    (∀ written c' ch ft' pt', c.recv P wire written ≠ .frame c' ch ft' pt')
    ∧ (c.Unexpected f.type pt → c.TearsDown P wire [.sessionError errCodeUnexpectedMessage])
    ∧ (OutOfOrder ((c.recvView P).keys chanControl).epoch f.type pt →
        c.TearsDown P wire [.sessionError errCodeKeyUpdateOutOfOrder])
    ∧ (c.Invalid f.type pt → c.Surfaces P wire)
    ∧ (f.type = frameClose → pt = [] → c.TearsDown P wire [.closeAck])
    ∧ (f.type = frameError → (∃ e, decodeErrorBody pt = .ok e) → c.TearsDown P wire []) := by
  have hstep := recvOnce_opens hc hparse hopens
  rw [hchannel] at hstep
  refine ⟨?_, ?_, ?_, ?_, ?_, ?_⟩
  · exact recv_ne_frame (hstep ▸ dispatch_withholds (fun h => h.1 rfl) _ _ _)
  · intro hunexpected
    obtain ⟨err, hdispatch⟩ := dispatch_of_unexpected (P := P) (hunexpected.opened P chanControl)
    exact tearsDown_of_emitError hc (hstep.trans hdispatch)
  · intro hepoch
    obtain ⟨err, hdispatch⟩ := dispatch_of_outOfOrder (P := P) (c := c.opened P chanControl)
      ((c.recvView P).keys chanControl).next hepoch
    exact tearsDown_of_emitError hc (hstep.trans hdispatch)
  · intro hinvalid
    obtain ⟨c', err, hdispatch, hclosed⟩ :=
      dispatch_of_invalid (P := P) (hinvalid.opened P chanControl)
    exact surfaces_of_fail (hclosed.trans hc) (hstep.trans hdispatch)
  · intro htype hpayload
    rw [htype, hpayload, dispatch_close] at hstep
    exact tearsDown_of_notify hc hstep (fun _ _ => rfl) fun _ => rfl
  · rintro htype ⟨e, hdecode⟩
    rw [htype, dispatch_error, errorReceived, hdecode] at hstep
    exact tearsDown_of_peerError hstep

def controlFrame (P : Primitives) (c : Conn) (ft : FrameType) (pt : Bytes) : Bytes :=
  sealWith P ((c.recvView P).keys chanControl) chanControl ft pt

theorem not_tearsDown_of_surfaces (h : c.Surfaces P wire) (m : Outgoing) :
    ¬c.TearsDown P wire [m] := by
  intro hdown
  obtain ⟨c₁, err₁, hsurfaced, -⟩ := h true
  obtain ⟨c₂, err₂, hsent, -⟩ := hdown true
  rw [hsurfaced] at hsent
  cases hsent

/-- The octets are a control frame of this type that opens to `pt`. -/
def Delivers (P : Primitives) (c : Conn) (wire : Bytes) (ft : FrameType) (pt : Bytes) : Prop :=
  ∃ f, unmarshalBinary wire = .ok f ∧ f.channel = chanControl ∧ f.type = ft ∧ c.Opens P f pt

theorem not_fatal_of_invalid (hP : P.Correct) (hc : c.closed = false) {ft : FrameType} {pt : Bytes}
    (hfits : pt.length + 16 < 2 ^ 32) (h : c.Invalid ft pt) (m : Outgoing) :
    c.Delivers P (controlFrame P c ft pt) ft pt
      ∧ ¬c.TearsDown P (controlFrame P c ft pt) [m] := by
  obtain ⟨c', err, hdispatch, hclosed⟩ := dispatch_of_invalid (P := P) (h.opened P chanControl)
  have hsurfaces : c.Surfaces P (controlFrame P c ft pt) :=
    surfaces_of_fail (hclosed.trans hc) ((recvOnce_sealWith hP hc hfits).trans hdispatch)
  exact ⟨opens_sealWith hP c chanControl ft hfits, not_tearsDown_of_surfaces hsurfaces m⟩

/-- A MASTER_RATCHET_ACK without a marker on a connection that awaits none, and a REKEM_ACK for
generation 2 on one that awaits generation 1, are not fatal. -/
theorem unmatched_ack_not_fatal :
    (∃ (c : Conn) (wire : Bytes), c.closed = false ∧ c.pendingMRAck = ∅
      ∧ c.Delivers plain wire frameMasterRatchetAck []
      ∧ ¬c.TearsDown plain wire [.sessionError errCodeUnexpectedMessage])
    ∧ ∃ (c : Conn) (pend : PendingReKEM) (wire kemCT : Bytes), c.closed = false
      ∧ c.pendingReKEM = some pend ∧ pend.targetGen = 1
      ∧ c.Delivers plain wire frameReKEMAck (encodeReKEMAck kemCT 2)
      ∧ ¬c.TearsDown plain wire [.sessionError errCodeUnexpectedMessage] := by
  refine ⟨?_, ?_⟩
  · have hinvalid : (newConn [7] .clientToServer .serverToClient).Invalid frameMasterRatchetAck [] :=
      .masterRatchetAck fun _ => nofun
    exact ⟨_, _, rfl, rfl, not_fatal_of_invalid plain_correct rfl (by decide) hinvalid _⟩
  · have hkey : (List.replicate 64 (0 : UInt8)).length = 64 := List.length_replicate
    have hscalar : (List.replicate 32 (0 : UInt8)).length = 32 := List.length_replicate
    have hsize : (List.replicate 1120 (0 : UInt8)).length = kemCiphertextSize768 :=
      List.length_replicate
    have hfits : (encodeReKEMAck (List.replicate 1120 0) 2).length + 16 < 2 ^ 32 := by
      rw [encodeReKEMAck, length_encodeWithGen, hsize]
      decide
    let client : KEMClient := ⟨_, _, hkey, hscalar⟩
    let pend : PendingReKEM := ⟨client, client.kemShare plain, 1⟩
    let c : Conn := { newConn [7] .clientToServer .serverToClient with pendingReKEM := some pend }
    have hother : (2 : UInt64) ≠ pend.targetGen := show (2 : UInt64) ≠ 1 by decide
    have hinvalid : c.Invalid frameReKEMAck (encodeReKEMAck (List.replicate 1120 0) 2) :=
      .generation (parseReKEMAck_encodeReKEMAck hsize 2) rfl (Or.inr hother)
    exact ⟨c, pend, _, _, rfl, rfl, rfl,
      not_fatal_of_invalid plain_correct rfl hfits hinvalid _⟩

theorem control_total_default_application :
    ∃ wire, (newConn [7] .clientToServer .serverToClient).Delivers plain wire 0x0020 [1]
      ∧ (newConn [7] .clientToServer .serverToClient).TearsDown plain wire
          [.sessionError errCodeUnexpectedMessage] := by
  have hfits : ([1] : Bytes).length + 16 < 2 ^ 32 := by decide
  obtain ⟨f, hparse, hchannel, htype, hopens⟩ := opens_sealWith plain_correct
    (newConn [7] .clientToServer .serverToClient) chanControl 0x0020 hfits
  have hunhandled : (newConn [7] .clientToServer .serverToClient).Unexpected f.type [1] :=
    .unhandled (by rw [htype]; decide)
  exact ⟨_, ⟨f, hparse, hchannel, htype, hopens⟩,
    (control_total_default rfl hparse hchannel hopens).2.1 hunhandled⟩

end Conn

end Npamp
