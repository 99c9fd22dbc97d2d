import Npamp.Proxy.Stream
import Npamp.Lib.Run
import Npamp.Proof.Bridge

/-!
# What stream carriage delivers

Every chunk is either taken by the consumer, in its buffer, on its way, or not yet sent, as long as
no chunk meets a full buffer. One that does is gone and nobody notices.
-/

namespace Npamp

open BridgePacket List

variable {p : BridgePacket}

/-! ### The control TLV -/

theorem decodeLeadingStreamControl_encode {sc : StreamControl}
    (hcontrol : sc.control ∈ [streamControlData, streamControlResume, streamControlCancel])
    (event : Bytes) : decodeLeadingStreamControl
        (TLV.encode { type := tlvStreamControl, value := encodeStreamControlValue sc } [] ++ event)
      = .ok (sc, event) := by
  obtain ⟨t, ht⟩ : ∃ t : TLV,
      t = { type := tlvStreamControl, value := encodeStreamControlValue sc } := ⟨_, rfl⟩
  have hlength : t.value.length = 11 := by
    rw [ht]
    simp [encodeStreamControlValue]
  have hfits : t.Fits := by
    show t.value.length < 2 ^ 16
    omega
  have hbuf : (t.encode [] ++ event).length = 4 + t.value.length + event.length := by
    rw [length_append, TLV.length_encode_nil]
  have htype : t.type = tlvStreamControl := by rw [ht]
  have hid : slice t.value 3 11 = putUint64 sc.eventID :=
    slice_eq_of_split (a := [streamControlVersion, sc.control, sc.flags]) (c := [])
      (by rw [ht]; simp [encodeStreamControlValue]) rfl (by simp)
  have hvalue : t.value = [streamControlVersion, sc.control, sc.flags] ++ putUint64 sc.eventID := by
    rw [ht]
    rfl
  rw [← ht]
  unfold decodeLeadingStreamControl
  simp only [tlvHeader_encode hfits, slice_encode_value, drop_encode_append, hid, uint64_putUint64]
  rw [if_neg (by omega), if_neg (not_not.mpr htype), if_neg (by omega),
    if_neg (not_not.mpr hlength), hvalue]
  simp only [cons_append, getD_cons_zero, getD_cons_succ]
  rw [if_neg (fun h => h rfl), if_neg (not_not.mpr hcontrol)]

def resumeHeader : Bytes := [0x00, 0x11, 0x00, 0x0b, 0x01, 0x01]

theorem resumeHeader_of_isResume {msg : Bytes} (h : isResume msg = true) :
    resumeHeader <+: msg ∧ 15 ≤ msg.length := by
  unfold isResume at h
  split at h
  · rename_i sc event hdecode
    unfold decodeLeadingStreamControl at hdecode
    dsimp only at hdecode
    split_ifs at hdecode with h4 htype hbuf hlength hversion hcontrol
    obtain ⟨rfl, -⟩ := Prod.mk.inj (Except.ok.inj hdecode)
    rw [not_not] at htype hlength hversion
    have hln : (tlvHeader msg).2 = 11 := by
      rwa [length_slice (Nat.not_lt.mp hbuf), Nat.add_sub_cancel_left] at hlength
    rw [hln] at hbuf hversion h
    match msg, h4, hbuf with
    | a :: b :: c :: d :: e :: f :: rest, _, hbuf =>
      have htypeOctets : [a, b] = putUint16 tlvStreamControl := by
        rw [← htype]
        exact (putUint16_uint16 rfl).symm
      have hlengthOctets : [c, d] = putUint16 11 := by
        have hheader : uint16 [c, d] = 11 := by
          apply UInt16.toNat_inj.mp
          exact hln
        rw [← hheader]
        exact (putUint16_uint16 rfl).symm
      have he : e = streamControlVersion := hversion
      have hf : f = streamControlResume := of_decide_eq_true h
      cases htypeOctets
      cases hlengthOctets
      subst he hf
      exact ⟨⟨rest, rfl⟩, by omega⟩
    | [], h4, _ => simp at h4
    | [_], h4, _ => simp at h4
    | [_, _], h4, _ => simp at h4
    | [_, _, _], h4, _ => simp at h4
    | [_, _, _, _], _, hbuf => simp at hbuf
    | [_, _, _, _, _], _, hbuf => simp at hbuf
  · cases h

/-! ### Frames of the stream -/

section Call

variable {corrID : Bytes}

def BridgePacket.chunkOf (corrID : Bytes) (p : BridgePacket) : Option StreamChunk :=
  if p.ft = frameBridgeStreamData ∨ p.ft = frameBridgeStreamEnd then
    (p.frameOf corrID).map fun f => f.chunk p.ft
  else none

theorem BridgePacket.chunkOf_of_frameOf (h : p.frameOf corrID = none) :
    p.chunkOf corrID = none := by
  rw [chunkOf, h]
  exact ite_self _

theorem BridgePacket.chunkOf_of_error (h : p.ft = frameBridgeError) :
    p.chunkOf corrID = none := by
  rw [chunkOf, h]
  exact if_neg (by decide)

def ValidID (corrID : Bytes) : Prop := corrID ≠ [] ∧ corrID.length ≤ 255

theorem frameOf_encode (env : BridgeEnvelope) (ft : FrameType) {foreign : Bytes}
    (hid : ValidID corrID) (henv : env.correlationID = corrID) (hmethod : env.method = [])
    (hkind : bridgeKindForFrame ft = some env.kind) (hft : ft ≠ frameBridgeNotify)
    (hlabel : ¬ StartsWith tlvSafetyLabel foreign) :
    ∃ payload, encodeBridgePayload env none foreign = .ok payload
      ∧ frameOf corrID { ft := ft, payload := payload }
          = some { envelope := env, safety := none, foreign := foreign } := by
  have hfits : env.Fits := ⟨by rw [henv]; exact hid.2, by rw [hmethod]; exact Nat.zero_le _⟩
  have hcorr : ft = frameBridgeNotify ↔ env.correlationID = [] :=
    iff_of_false hft (by rw [henv]; exact hid.1)
  have hdecode : decodeBridgeFrame ft (env.tlv.encode [] ++ labelled none foreign)
      = .ok { envelope := env, safety := none, foreign := foreign } :=
    validateBridgePayload_eq_ok.mpr
      ⟨⟨hkind, hcorr, hfits, by rintro s ⟨⟩⟩, rfl, .inr hlabel⟩
  refine ⟨_, encodeBridgeFrame_eq hfits (by rintro s ⟨⟩), ?_⟩
  rw [frameOf]
  simp only [hdecode, henv, if_true]

/-- The frame that opened the stream, as the producer keeps it. -/
structure Opens (corrID msg : Bytes) (f : BridgeFrame) : Prop where
  correlationID : f.envelope.correlationID = corrID
  foreign : f.foreign = msg

theorem streamPacket_spec {frame : BridgeFrame} {msg : Bytes} {ft : FrameType}
    {kind : BridgeMessageKind} (flags : UInt8) (sc : StreamControl) (event : Bytes)
    (hid : ValidID corrID) (hframe : Opens corrID msg frame)
    (hft : ft = frameBridgeStreamData ∨ ft = frameBridgeStreamEnd)
    (hkind : bridgeKindForFrame ft = some kind) (hcontrol : sc.control = streamControlData) :
    ∃ p, streamPacket frame ft kind flags sc event = .ok p
      ∧ p.chunkOf corrID = some { ft := ft, control := sc, event := event, err := none } := by
  have hlabel : ¬ StartsWith tlvSafetyLabel
      (TLV.encode { type := tlvStreamControl, value := encodeStreamControlValue sc } []
        ++ event) := by
    rintro ⟨-, htype⟩
    rw [tlvHeader_encode (by simp [TLV.Fits, encodeStreamControlValue])] at htype
    have hdistinct : tlvStreamControl ≠ tlvSafetyLabel := by decide
    exact hdistinct htype
  obtain ⟨payload, hpayload, hdecode⟩ := frameOf_encode
    { protocol := frame.envelope.protocol, kind := kind, contentType := bridgeContentCBOR
      flags := flags, correlationID := frame.envelope.correlationID, method := [] } ft
    hid hframe.correlationID rfl hkind (by rcases hft with rfl | rfl <;> decide) hlabel
  refine ⟨{ ft := ft, payload := payload }, ?_, ?_⟩
  · rw [streamPacket, encodeStreamFrame, hpayload]
    rfl
  · rw [chunkOf, if_pos hft, hdecode, Option.map_some, BridgeFrame.chunk,
      decodeLeadingStreamControl_encode (by rw [hcontrol]; exact mem_cons_self)]

theorem ft_of_sendBridgeError {frame : BridgeFrame} {code : BridgeErrorCode} {msg : Bytes}
    (h : sendBridgeError frame code msg = .ok p) : p.ft = frameBridgeError := by
  obtain ⟨foreign, -, hpayload⟩ := exists_of_bind_eq_ok h
  obtain ⟨payload, -, hp⟩ := exists_of_bind_eq_ok hpayload
  rw [← Except.ok.inj hp]

/-! ### The account -/

def dataChunk (eventID : UInt64) (event : Bytes) : StreamChunk where
  ft := frameBridgeStreamData
  control := { control := streamControlData, flags := 0, eventID := eventID }
  event := event
  err := none

def endChunk (eventID : UInt64) : StreamChunk where
  ft := frameBridgeStreamEnd
  control := { control := streamControlData, flags := 0, eventID := eventID }
  event := []
  err := none

def dataChunks (replies : List Bytes) : List StreamChunk :=
  replies.mapIdx fun i event => dataChunk (UInt64.ofNat (i + 1)) event

theorem dataChunks_concat (replies : List Bytes) (event : Bytes) : dataChunks (replies ++ [event])
      = dataChunks replies ++ [dataChunk (UInt64.ofNat (replies.length + 1)) event] :=
  mapIdx_concat

theorem map_event_dataChunks (replies : List Bytes) :
    (dataChunks replies).map StreamChunk.event = replies := by
  apply ext_getElem?
  intro i
  rw [getElem?_map, dataChunks, getElem?_mapIdx, Option.map_map]
  exact Option.map_id'

def NoEnd (chunks : List StreamChunk) : Prop := ∀ c ∈ chunks, c.ft ≠ frameBridgeStreamEnd

theorem noEnd_dataChunks (replies : List Bytes) : NoEnd (dataChunks replies) := by
  intro c hc
  obtain ⟨i, hi, rfl⟩ := mem_mapIdx.mp hc
  exact (by decide : frameBridgeStreamData ≠ frameBridgeStreamEnd)

/-- The chunks sent so far, by where the producer stands: the handler is called once, and its
replies are sent in order with the end behind them. -/
inductive Produced (corrID msg : Bytes) :
    Producer → List (Bytes × Except Bytes (List Bytes)) → List StreamChunk → Prop
  | idle : Produced corrID msg .idle [] []
  | opened {f : BridgeFrame} (hf : Opens corrID msg f) : Produced corrID msg (.opened f) [] []
  | calling {f : BridgeFrame} (hf : Opens corrID msg f) : Produced corrID msg (.calling f) [] []
  | emitting {f : BridgeFrame} (hf : Opens corrID msg f) (done events : List Bytes) :
      Produced corrID msg (.emitting f (UInt64.ofNat (done.length + 1)) events)
        [(msg, .ok (done ++ events))] (dataChunks done)
  | finished (replies : List Bytes) :
      Produced corrID msg .returned [(msg, .ok replies)]
        (dataChunks replies ++ [endChunk (UInt64.ofNat (replies.length + 1))])
  | stopped (done events : List Bytes) :
      Produced corrID msg .returned [(msg, .ok (done ++ events))] (dataChunks done)
  | failed (e : Bytes) : Produced corrID msg .returned [(msg, .error e)] []

/-- What the consumer has of the chunks sent: while it collects, it has taken all but those in
transit; a list it has returned is what the handler replied. -/
inductive Consumed (msg : Bytes) (calls : List (Bytes × Except Bytes (List Bytes))) :
    Consumer → Bool → List StreamChunk → List StreamChunk → Prop
  | collecting (tracker : StreamEventTracker) {taken : List StreamChunk} (htaken : NoEnd taken)
      (transit : List StreamChunk) :
      Consumed msg calls (.collecting tracker (taken.map StreamChunk.event)) true
        (taken ++ transit) transit
  | returned {result : Except GoError (List Bytes)} (sent transit : List StreamChunk)
      (hresult : ∀ events, result = .ok events → calls = [(msg, .ok events)]) :
      Consumed msg calls (.returned result) false sent transit

variable {msg : Bytes} {producer : Producer} {consumer : Consumer} {registered : Bool}
  {calls : List (Bytes × Except Bytes (List Bytes))} {sent transit : List StreamChunk}

theorem Consumed.send (h : Consumed msg calls consumer registered sent transit) (c : StreamChunk) :
    Consumed msg calls consumer registered (sent ++ [c]) (transit ++ [c]) := by
  cases h with
  | collecting tracker htaken transit =>
    rw [append_assoc]
    exact .collecting tracker htaken (transit ++ [c])
  | returned sent transit hresult => exact .returned _ _ hresult

theorem Consumed.called (h : Consumed msg [] consumer registered sent transit) :
    Consumed msg calls consumer registered sent transit := by
  cases h with
  | collecting tracker htaken transit => exact .collecting tracker htaken transit
  | returned sent transit hresult =>
    refine .returned _ _ fun events hevents => ?_
    exact absurd (hresult events hevents) (cons_ne_nil _ _).symm

theorem Consumed.returned_transit {result : Except GoError (List Bytes)}
    {transit' : List StreamChunk}
    (h : Consumed msg calls (.returned result) registered sent transit) :
    Consumed msg calls (.returned result) registered sent transit' := by
  cases h with
  | returned sent transit hresult => exact .returned _ _ hresult

theorem Consumed.take {tracker : StreamEventTracker} {events : List Bytes} {c : StreamChunk}
    (h : Consumed msg calls (.collecting tracker events) registered sent (c :: transit))
    (hc : c.ft ≠ frameBridgeStreamEnd) (tracker' : StreamEventTracker) :
    Consumed msg calls (.collecting tracker' (events ++ [c.event])) registered sent transit := by
  cases h with
  | collecting tracker htaken _ =>
    rename_i taken
    have hnoEnd : NoEnd (taken ++ [c]) := by
      intro c' hc'
      rcases mem_append.mp hc' with hc' | hc'
      · exact htaken c' hc'
      · exact mem_singleton.mp hc' ▸ hc
    have hcollecting : Consumed msg calls
        (.collecting tracker' ((taken ++ [c]).map StreamChunk.event)) true
        (taken ++ [c] ++ transit) transit := .collecting tracker' hnoEnd transit
    rwa [map_append, append_assoc] at hcollecting

/-- **The end comes last.** A consumer at the end of the stream has taken every reply. -/
theorem Produced.complete {tracker : StreamEventTracker} {events : List Bytes} {c : StreamChunk}
    (h : Produced corrID msg producer calls sent)
    (hconsumed : Consumed msg calls (.collecting tracker events) registered sent (c :: transit))
    (hend : c.ft = frameBridgeStreamEnd) : calls = [(msg, .ok events)] := by
  obtain ⟨taken, htaken, rfl, hsent⟩ : ∃ taken, NoEnd taken
      ∧ taken.map StreamChunk.event = events ∧ sent = taken ++ c :: transit := by
    cases hconsumed with
    | collecting tracker htaken _ => exact ⟨_, htaken, rfl, rfl⟩
  have hmem : c ∈ sent := by
    rw [hsent]
    exact mem_append_right _ mem_cons_self
  cases h with
  | emitting hf done events => exact absurd hend (noEnd_dataChunks done c hmem)
  | stopped done events => exact absurd hend (noEnd_dataChunks done c hmem)
  | finished replies =>
    -- both sides up to the first chunk that ends the stream
    have hfirst := congrArg
      (takeWhile fun c => decide (c.ft ≠ frameBridgeStreamEnd)) hsent
    rw [takeWhile_append_of_pos
        (fun c hc => decide_eq_true (noEnd_dataChunks replies c hc)),
      takeWhile_append_of_pos (fun c hc => decide_eq_true (htaken c hc))] at hfirst
    have heq : dataChunks replies = taken := by simpa [hend, endChunk] using hfirst
    rw [← heq, map_event_dataChunks]
  | _ => exact absurd hmem not_mem_nil

/-! ### What a step leaves of it -/

def owned (corrID : Bytes) (packets : List BridgePacket) : List BridgePacket :=
  packets.filter fun p => (p.frameOf corrID).isSome

theorem owned_concat (h : p.frameOf corrID = none)
    (packets : List BridgePacket) : owned corrID (packets ++ [p]) = owned corrID packets := by
  simp [owned, h]

def StreamSession.inTransit (corrID : Bytes) (s : StreamSession) : List StreamChunk :=
  s.dataCh ++ s.toCaller.filterMap (chunkOf corrID)

def Producer.outstanding (request : BridgePacket) : Producer → List BridgePacket
  | .idle => [request]
  | _ => []

/-- The invariant of a stream: one request, no cancellation, and one account of the chunks sent that
both ends agree on. -/
structure StreamSession.Sound (corrID msg : Bytes) (request : BridgePacket) (s : StreamSession) :
    Prop where
  outbound : owned corrID s.toPeer = s.producer.outstanding request
  uncancelled : s.cancelFlag = false
  account : ∃ sent, Produced corrID msg s.producer s.calls sent
    ∧ Consumed msg s.calls s.consumer s.streamPending sent (s.inTransit corrID)

variable {request : BridgePacket} {s s' : StreamSession} {p : BridgePacket}

/-! #### Receiving -/

theorem callerReceives_cases (corrID : Bytes) (s : StreamSession) (p : BridgePacket) :
    (p.chunkOf corrID = none
        ∧ ∃ pending errCh, s.callerReceives corrID p
            = { s with pending := pending, errCh := errCh })
      ∨ ∃ c, p.chunkOf corrID = some c
        ∧ s.callerReceives corrID p
            = if s.streamPending ∧ s.dataCh.length < streamBuffer then
                { s with dataCh := s.dataCh ++ [c] }
              else s := by
  unfold StreamSession.callerReceives
  by_cases hreply : p.ft = frameBridgeResponse ∨ p.ft = frameBridgeError
  · refine .inl ⟨?_, ?_⟩
    · rw [chunkOf]
      exact if_neg (by rcases hreply with h | h <;> rw [h] <;> decide)
    rw [if_pos hreply, StreamSession.deliverReply]
    split
    · exact ⟨_, _, rfl⟩
    · split
      · exact ⟨_, _, rfl⟩
      · exact ⟨_, _, rfl⟩
  · rw [if_neg hreply]
    by_cases hstream : p.ft = frameBridgeStreamData ∨ p.ft = frameBridgeStreamEnd
    · rw [if_pos hstream, chunkOf, if_pos hstream, StreamSession.deliverChunk]
      cases p.frameOf corrID with
      | none => exact .inl ⟨rfl, _, _, rfl⟩
      | some f => exact .inr ⟨_, rfl, rfl⟩
    · rw [if_neg hstream, chunkOf, if_neg hstream]
      exact .inl ⟨rfl, _, _, rfl⟩

namespace StreamSession

/-- The chunk at the head of what the caller receives finds room, or nobody waits for it. -/
def hasRoom (corrID : Bytes) (s : StreamSession) (a : StreamAction) : Bool :=
  match a, s.toCaller with
  | .callerRecv, p :: _ =>
    (p.chunkOf corrID).isNone || !s.streamPending || s.dataCh.length < streamBuffer
  | _, _ => true

/-- The only step that can lose a chunk, and does not while there is room. -/
theorem Sound.callerRecv {rest : List BridgePacket} (h : s.Sound corrID msg request)
    (hto : s.toCaller = p :: rest) (hroom : s.hasRoom corrID .callerRecv = true) :
    ({ s with toCaller := rest }.callerReceives corrID p).Sound corrID msg request := by
  obtain ⟨houtbound, huncancelled, sent, hproduced, hconsumed⟩ := h
  rw [inTransit, hto] at hconsumed
  rcases callerReceives_cases corrID { s with toCaller := rest } p
    with ⟨hnone, pending, errCh, heq⟩ | ⟨c, hsome, heq⟩
  · rw [heq]
    rw [filterMap_cons_none hnone] at hconsumed
    exact ⟨houtbound, huncancelled, sent, hproduced, hconsumed⟩
  · rw [heq]
    rw [filterMap_cons_some hsome] at hconsumed
    have hcase : s.streamPending = false ∨ s.dataCh.length < streamBuffer := by
      simpa [hasRoom, hto, hsome] using hroom
    split
    · refine ⟨houtbound, huncancelled, sent, hproduced, ?_⟩
      rw [inTransit, append_assoc]
      exact hconsumed
    · rename_i hfull
      refine ⟨houtbound, huncancelled, sent, hproduced, ?_⟩
      have hunregistered : s.streamPending = false :=
        hcase.elim id fun hlt => by
          by_contra hpending
          exact hfull ⟨by simpa using hpending, hlt⟩
      cases hconsumer : s.consumer with
      | returned result =>
        rw [hconsumer] at hconsumed
        exact hconsumed.returned_transit
      | collecting tracker events =>
        rw [hconsumer, hunregistered] at hconsumed
        nomatch hconsumed

theorem Sound.peerRecv {rest : List BridgePacket} {f : BridgeFrame}
    (h : s.Sound corrID msg request) (hto : s.toPeer = p :: rest)
    (hrequest : request.ft = frameBridgeRequest) (hframe : request.frameOf corrID = some f)
    (hf : Opens corrID msg f) (hprotocol : f.envelope.protocol = bridgeProtoWebSocket) :
    ({ s with toPeer := rest }.peerReceives corrID p).Sound corrID msg request := by
  obtain ⟨toPeer, toCaller, pending, streamPending, errCh, dataCh, consumer, producer, cancelFlag,
    calls⟩ := s
  obtain ⟨houtbound, huncancelled, sent, hproduced, hconsumed⟩ := h
  dsimp only at hto houtbound hproduced hconsumed ⊢
  rw [hto] at houtbound
  cases hown : p.frameOf corrID with
  | none =>
    have hrest : owned corrID rest = producer.outstanding request := by
      rw [← houtbound]
      simp [owned, hown]
    simp only [peerReceives, dispatchRequest,
      cancelStream, hown, ite_self]
    exact ⟨hrest, huncancelled, sent, hproduced, hconsumed⟩
  | some g =>
    have hcons : owned corrID (p :: rest) = p :: owned corrID rest := by
      simp [owned, hown]
    rw [hcons] at houtbound
    -- the only packet of the call on its way to the peer is the request
    cases hproduced with
    | idle =>
      obtain ⟨rfl, hrest⟩ := cons.inj houtbound
      simp only [peerReceives, dispatchRequest, hrequest, hframe,
        hprotocol, if_true]
      exact ⟨hrest, huncancelled, _, .opened hf, hconsumed⟩
    | _ => exact absurd houtbound (cons_ne_nil _ _)

/-! #### Producing -/

end StreamSession

theorem inTransit_send (s : StreamSession) (p : BridgePacket) :
    (s.send true p).inTransit corrID = s.inTransit corrID ++ (p.chunkOf corrID).toList := by
  simp only [StreamSession.inTransit, StreamSession.send, if_true, filterMap_append,
    append_assoc]
  cases hchunk : p.chunkOf corrID <;> simp [hchunk]

namespace StreamSession

theorem Sound.send_silent {sent : Bool} (h : s.Sound corrID msg request)
    (hp : sent = true → p.chunkOf corrID = none) : (s.send sent p).Sound corrID msg request := by
  cases sent with
  | false => exact h
  | true =>
    obtain ⟨houtbound, huncancelled, chunks, hproduced, hconsumed⟩ := h
    refine ⟨houtbound, huncancelled, chunks, hproduced, ?_⟩
    rw [inTransit_send, hp rfl, Option.toList_none, append_nil]
    exact hconsumed

theorem Sound.openStream {sent : Bool} (hmsg : isResume msg = false)
    (h : s.Sound corrID msg request) (hstep : s.openStream sent = some s') :
    s'.Sound corrID msg request := by
  obtain ⟨toPeer, toCaller, pending, streamPending, errCh, dataCh, consumer, producer, cancelFlag,
    calls⟩ := s
  obtain ⟨houtbound, huncancelled, chunks, hproduced, hconsumed⟩ := h
  cases hproduced with
  | opened hf =>
    simp only [openStream, hf.foreign, hmsg, Bool.false_eq_true, if_false] at hstep
    cases hstep
    exact ⟨houtbound, rfl, _, .calling hf, hconsumed⟩
  | _ => cases hstep

theorem Sound.handle {reply : Except Bytes (List Bytes)} {sent : Bool}
    (h : s.Sound corrID msg request) (hstep : s.handle true reply sent = some s') :
    s'.Sound corrID msg request := by
  obtain ⟨toPeer, toCaller, pending, streamPending, errCh, dataCh, consumer, producer, cancelFlag,
    calls⟩ := s
  obtain ⟨houtbound, huncancelled, chunks, hproduced, hconsumed⟩ := h
  cases hproduced with
  | calling hf =>
    simp only [StreamSession.handle, not_true_eq_false, if_false, nil_append,
      hf.foreign] at hstep
    cases reply with
    | error e =>
      dsimp only at hstep
      split at hstep
      · cases hstep
      rename_i packet hpacket
      cases hstep
      apply Sound.send_silent
      · exact ⟨houtbound, huncancelled, _, .failed e, hconsumed.called⟩
      · exact fun _ => chunkOf_of_error (ft_of_sendBridgeError hpacket)
    | ok events =>
      cases hstep
      exact ⟨houtbound, huncancelled, _, .emitting hf [] events, hconsumed.called⟩
  | _ => cases hstep

/-- One more reply is sent, or the end. -/
theorem Sound.emit {sent : Bool} (hid : ValidID corrID)
    (h : s.Sound corrID msg request) (hstep : s.emit sent = some s') :
    s'.Sound corrID msg request := by
  obtain ⟨toPeer, toCaller, pending, streamPending, errCh, dataCh, consumer, producer, cancelFlag,
    calls⟩ := s
  obtain ⟨houtbound, huncancelled, chunks, hproduced, hconsumed⟩ := h
  dsimp only at huncancelled
  subst huncancelled
  cases hproduced with
  | emitting hf done events =>
    cases events with
    | nil =>
      obtain ⟨packet, hpacket, hchunk⟩ := streamPacket_spec bridgeFlagFinal
        { control := streamControlData, flags := 0, eventID := UInt64.ofNat (done.length + 1) }
        [] hid hf (.inr rfl) rfl rfl
      simp only [StreamSession.emit, Bool.false_eq_true, if_false, hpacket] at hstep
      cases hstep
      rw [append_nil] at hconsumed ⊢
      cases sent with
      | false =>
        have hstopped : Produced corrID msg .returned [(msg, .ok (done ++ []))]
            (dataChunks done) := .stopped done []
        rw [append_nil] at hstopped
        exact ⟨houtbound, rfl, _, hstopped, hconsumed⟩
      | true =>
        refine ⟨houtbound, rfl, _, .finished done, ?_⟩
        rw [inTransit_send, hchunk]
        exact hconsumed.send _
    | cons event rest =>
      obtain ⟨packet, hpacket, hchunk⟩ := streamPacket_spec 0
        { control := streamControlData, flags := 0, eventID := UInt64.ofNat (done.length + 1) }
        event hid hf (.inl rfl) rfl rfl
      simp only [StreamSession.emit, hpacket] at hstep
      cases hstep
      cases sent with
      | false => exact ⟨houtbound, rfl, _, .stopped done (event :: rest), hconsumed⟩
      | true =>
        have hnext := Produced.emitting hf (done ++ [event]) rest
        rw [dataChunks_concat, append_assoc, singleton_append, length_append,
          length_singleton, UInt64.ofNat_add] at hnext
        refine ⟨houtbound, rfl, _, hnext, ?_⟩
        rw [inTransit_send, hchunk]
        exact hconsumed.send _
  | _ => cases hstep

/-! #### Consuming -/

theorem Sound.finish_error (h : s.Sound corrID msg request) (e : GoError)
    (errCh : List PendingReply) (dataCh : List StreamChunk) :
    ({ s with errCh := errCh, dataCh := dataCh }.finish (.error e)).Sound corrID msg request := by
  obtain ⟨houtbound, huncancelled, chunks, hproduced, -⟩ := h
  exact ⟨houtbound, huncancelled, chunks, hproduced, .returned _ _ fun events hevents => by
    cases hevents⟩

/-- The consumer takes one of what its channels offer. -/
theorem Sound.select {choice : Select} (h : s.Sound corrID msg request)
    (hstep : s.select choice = some s') : s'.Sound corrID msg request := by
  unfold StreamSession.select at hstep
  split at hstep
  · cases hstep
  rename_i tracker events hconsumer
  cases choice with
  | done err =>
    cases hstep
    exact h.finish_error err s.errCh s.dataCh
  | reply =>
    dsimp only at hstep
    split at hstep
    · cases hstep
    · cases hstep
      exact h.finish_error _ _ s.dataCh
  | chunk =>
    dsimp only at hstep
    split at hstep
    · cases hstep
    rename_i c rest hdata
    cases hstep
    unfold collect
    split
    · exact h.finish_error _ s.errCh rest
    split
    · exact h.finish_error _ s.errCh rest
    rename_i tracker' _
    obtain ⟨houtbound, huncancelled, chunks, hproduced, hconsumed⟩ := h
    rw [inTransit, hdata, cons_append, hconsumer] at hconsumed
    split
    · rename_i hend
      refine ⟨houtbound, huncancelled, _, hproduced, .returned _ _ ?_⟩
      rintro events ⟨⟩
      exact hproduced.complete hconsumed hend
    · rename_i hnoEnd
      exact ⟨houtbound, huncancelled, _, hproduced, hconsumed.take hnoEnd tracker'⟩

/-! ### Runs -/

end StreamSession

/-- A message the peer does not take for anything but a message: it starts neither like a safety
label nor like a request to resume. -/
structure Openable (msg : Bytes) : Prop where
  unlabelled : ¬ StartsWith tlvSafetyLabel msg
  fresh : ¬ (resumeHeader <+: msg ∧ 15 ≤ msg.length)

/-- The packet opens a stream of this message. -/
structure IsRequest (corrID msg : Bytes) (request : BridgePacket) : Prop where
  ft : request.ft = frameBridgeRequest
  frame : ∃ f, request.frameOf corrID = some f ∧ Opens corrID msg f
    ∧ f.envelope.protocol = bridgeProtoWebSocket

theorem sound_openConsumerStream (hid : ValidID corrID) (hmsg : Openable msg)
    (hopen : openConsumerStream corrID msg = .ok s) :
    ∃ request, IsRequest corrID msg request ∧ s.Sound corrID msg request := by
  obtain ⟨payload, hpayload, hframe⟩ := frameOf_encode
    { protocol := bridgeProtoWebSocket, kind := bridgeKindRequest
      contentType := bridgeContentCBOR, flags := 0, correlationID := corrID, method := [] }
    frameBridgeRequest hid rfl rfl rfl (by decide) hmsg.unlabelled
  simp only [openConsumerStream, hpayload] at hopen
  cases hopen
  refine ⟨{ ft := frameBridgeRequest, payload := payload }, ⟨rfl, _, hframe, ⟨rfl, rfl⟩, rfl⟩, ?_⟩
  refine ⟨?_, rfl, [], .idle, ?_⟩
  · simp [owned, hframe, Producer.outstanding]
  · exact .collecting _ (fun _ hc => absurd hc not_mem_nil) []

/-- What one step preserves, if it finds room. -/
theorem StreamSession.Sound.step {a : StreamAction} (hid : ValidID corrID) (hmsg : Openable msg)
    (hrequest : IsRequest corrID msg request) (h : s.Sound corrID msg request)
    (hroom : s.hasRoom corrID a = true) (hstep : s.step corrID true a = some s') :
    s'.Sound corrID msg request := by
  cases a with
  | otherToPeer p =>
    simp only [StreamSession.step] at hstep
    split at hstep
    · rename_i hother
      cases hstep
      exact ⟨(owned_concat hother s.toPeer).trans h.outbound, h.uncancelled, h.account⟩
    · cases hstep
  | otherToCaller p =>
    simp only [StreamSession.step] at hstep
    split at hstep
    · rename_i hother
      cases hstep
      show (s.send true p).Sound corrID msg request
      exact h.send_silent fun _ => chunkOf_of_frameOf hother
    · cases hstep
  | callerRecv =>
    simp only [StreamSession.step] at hstep
    split at hstep
    · cases hstep
    · rename_i p rest hto
      cases hstep
      exact h.callerRecv hto hroom
  | peerRecv =>
    simp only [StreamSession.step] at hstep
    split at hstep
    · cases hstep
    rename_i p rest hto
    cases hstep
    obtain ⟨f, hframe, hf, hprotocol⟩ := hrequest.frame
    exact h.peerRecv hto hrequest.ft hframe hf hprotocol
  | openStream sent =>
    have hfresh : isResume msg = false := by
      by_contra hresume
      exact hmsg.fresh (resumeHeader_of_isResume (by simpa using hresume))
    exact h.openStream hfresh hstep
  | handle reply sent => exact h.handle hstep
  | emit sent => exact h.emit hid hstep
  | select choice => exact h.select hstep

/-- The handler has not been called, and nothing but the peer's own steps is missing: the request is
on its way to it, or has been dispatched. -/
def StreamSession.OnItsWay (corrID msg : Bytes) (s : StreamSession) : Prop :=
  s.calls = []
    ∧ ((s.producer = .idle ∧ ∃ request ∈ s.toPeer, IsRequest corrID msg request)
      ∨ ∃ f, f.foreign = msg ∧ (s.producer = .opened f ∨ s.producer = .calling f))

theorem StreamSession.Sound.called (hrequest : IsRequest corrID msg request)
    (h : s.Sound corrID msg request) :
    s.OnItsWay corrID msg ∨ ∃ reply, s.calls = [(msg, reply)] := by
  obtain ⟨toPeer, toCaller, pending, streamPending, errCh, dataCh, consumer, producer, cancelFlag,
    calls⟩ := s
  obtain ⟨houtbound, -, sent, hproduced, -⟩ := h
  cases hproduced with
  | idle =>
    have hmem : request ∈ owned corrID toPeer := by
      rw [houtbound]
      exact mem_singleton_self request
    exact .inl ⟨rfl, .inl ⟨rfl, request, (mem_filter.mp hmem).1, hrequest⟩⟩
  | opened hf => exact .inl ⟨rfl, .inr ⟨_, hf.foreign, .inl rfl⟩⟩
  | calling hf => exact .inl ⟨rfl, .inr ⟨_, hf.foreign, .inr rfl⟩⟩
  | _ => exact .inr ⟨_, rfl⟩

theorem StreamSession.Sound.result (h : s.Sound corrID msg request) {events : List Bytes}
    (hresult : s.consumer = .returned (.ok events)) : s.calls = [(msg, .ok events)] := by
  obtain ⟨toPeer, toCaller, pending, streamPending, errCh, dataCh, consumer, producer, cancelFlag,
    calls⟩ := s
  obtain ⟨-, -, sent, -, hconsumed⟩ := h
  dsimp only at hresult
  subst hresult
  cases hconsumed with
  | returned sent transit hok => exact hok events rfl

/-- **Stream carriage.** In every run in which no chunk meets a full buffer, a list of events that
is returned is the list the handler replied. -/
theorem stream_carriage_complete {s₀ : StreamSession} (hid : corrID.length = 16)
    (hmsg : Openable msg) (hopen : openConsumerStream corrID msg = .ok s₀)
    (hrun : Run.Reaches (StreamSession.step corrID true) (fun s a => s.hasRoom corrID a = true)
      s₀ s) : (s.OnItsWay corrID msg ∨ ∃ reply, s.calls = [(msg, reply)])
      ∧ ∀ events, s.consumer = .returned (.ok events) → s.calls = [(msg, .ok events)] := by
  have hvalid : ValidID corrID := ⟨fun h => by simp [h] at hid, by omega⟩
  obtain ⟨request, hrequest, hstart⟩ := sound_openConsumerStream hvalid hmsg hopen
  have hsound : s.Sound corrID msg request :=
    hrun.invariant hstart fun _ _ _ h hroom hstep => h.step hvalid hmsg hrequest hroom hstep
  exact ⟨hsound.called hrequest, fun events => hsound.result⟩

/-! ### Up to 31 replies -/

/-- The handler has replied, if at all, with fewer events than the buffer holds: with the chunk that
ends the stream they all fit. -/
def StreamSession.RepliesFit (s : StreamSession) : Prop :=
  ∀ msg replies, (msg, .ok replies) ∈ s.calls → replies.length < streamBuffer

theorem length_dataChunks (replies : List Bytes) : (dataChunks replies).length = replies.length :=
  length_mapIdx

theorem Produced.length_sent_le (h : Produced corrID msg producer calls sent)
    (hfit : ∀ replies, (msg, .ok replies) ∈ calls → replies.length < streamBuffer) :
    sent.length ≤ streamBuffer := by
  cases h with
  | emitting hf done events =>
    have hlt := hfit _ mem_cons_self
    rw [length_append] at hlt
    rw [length_dataChunks]
    omega
  | finished replies =>
    have hlt := hfit _ mem_cons_self
    rw [length_append, length_dataChunks, length_singleton]
    omega
  | stopped done events =>
    have hlt := hfit _ mem_cons_self
    rw [length_append] at hlt
    rw [length_dataChunks]
    omega
  | _ => exact Nat.zero_le _

theorem Consumed.length_transit_le (h : Consumed msg calls consumer true sent transit) :
    transit.length ≤ sent.length := by
  cases h with
  | collecting tracker htaken transit =>
    rw [length_append]
    exact Nat.le_add_left _ _

theorem StreamSession.Sound.hasRoom (h : s.Sound corrID msg request) (hfit : s.RepliesFit)
    (a : StreamAction) : s.hasRoom corrID a = true := by
  obtain ⟨-, -, sent, hproduced, hconsumed⟩ := h
  unfold StreamSession.hasRoom
  split
  · rename_i p rest hto
    cases hchunk : p.chunkOf corrID with
    | none => rfl
    | some c =>
      cases hpending : s.streamPending with
      | false => rfl
      | true =>
        rw [hpending, inTransit, hto, filterMap_cons_some hchunk] at hconsumed
        have htransit := hconsumed.length_transit_le
        rw [length_append, length_cons] at htransit
        have hsent := hproduced.length_sent_le (hfit msg)
        have hlt : s.dataCh.length < streamBuffer := by omega
        simp [hlt]
  · rfl

/-- **Up to 31 replies always find room**: a run in which the handler replies with fewer than 32
events is a run in which no chunk meets a full buffer. -/
theorem StreamSession.reaches_hasRoom {s₀ : StreamSession} (hid : ValidID corrID)
    (hmsg : Openable msg) (hopen : openConsumerStream corrID msg = .ok s₀)
    (hrun : Run.Reaches (StreamSession.step corrID true) (fun s _ => s.RepliesFit) s₀ s) :
    Run.Reaches (StreamSession.step corrID true) (fun s a => s.hasRoom corrID a = true) s₀ s := by
  obtain ⟨request, hrequest, hstart⟩ := sound_openConsumerStream hid hmsg hopen
  -- the account of the chunks sent is what bounds the buffer, so it goes along
  suffices hboth : s.Sound corrID msg request ∧ Run.Reaches (StreamSession.step corrID true)
      (fun s a => s.hasRoom corrID a = true) s₀ s from hboth.2
  induction hrun with
  | start => exact ⟨hstart, .start⟩
  | @next _ _ a _ hfit hstep ih =>
    have hroom := ih.1.hasRoom hfit a
    exact ⟨ih.1.step hid hmsg hrequest hroom hstep, ih.2.next hroom hstep⟩

end Call

/-! ### Runs on fixed messages -/

def sampleID : Bytes := replicate 16 0x2a

def sampleStream (msg : Bytes) : StreamSession :=
  match openConsumerStream sampleID msg with
  | .ok s => s
  | .error _ =>
    { toPeer := [], toCaller := [], pending := false, streamPending := false, errCh := []
      dataCh := [], consumer := .returned (.ok []), producer := .idle, cancelFlag := false
      calls := [] }

structure StreamOutcome where
  calls : List (Bytes × Except Bytes (List Bytes))
  result : Option (Except GoError (List Bytes))
  deriving DecidableEq

def StreamSession.outcome (s : StreamSession) : StreamOutcome where
  calls := s.calls
  result :=
    match s.consumer with
    | .collecting .. => none
    | .returned result => some result

theorem consumer_of_outcome {s : StreamSession} {calls : List (Bytes × Except Bytes (List Bytes))}
    {result : Except GoError (List Bytes)}
    (h : s.outcome = { calls := calls, result := some result }) :
    s.consumer = .returned result := by
  have hresult := congrArg StreamOutcome.result h
  simp only [StreamSession.outcome] at hresult
  split at hresult
  · cases hresult
  · rename_i heq
    rw [heq, Option.some.inj hresult]

def produceAll (replies : List Bytes) : List StreamAction :=
  [.peerRecv, .openStream true, .handle (.ok replies) true]
    ++ replicate (replies.length + 1) (.emit true)

set_option maxRecDepth 100000 in
theorem stream_carriage_complete_two :
    ∃ s, Run.Reaches (StreamSession.step sampleID true) (fun s a => s.hasRoom sampleID a = true)
        (sampleStream [0x68, 0x69]) s
      ∧ s.consumer = .returned (.ok [[1], [2]])
      ∧ s.calls = [([0x68, 0x69], .ok [[1], [2]])] := by
  have hmsg : Openable [0x68, 0x69] := ⟨by decide, by decide⟩
  exact (Run.exists_reaches (p := fun s : StreamSession =>
      s.outcome = ⟨[([0x68, 0x69], .ok [[1], [2]])], some (.ok [[1], [2]])⟩)
    (produceAll [[1], [2]] ++ List.replicate 3 .callerRecv ++ List.replicate 3 (.select .chunk))
    (by decide +kernel)).imp fun s ⟨hreach, houtcome⟩ => ⟨hreach, consumer_of_outcome houtcome,
      (stream_carriage_complete rfl hmsg rfl hreach).2 _ (consumer_of_outcome houtcome)⟩

def manyReplies : List Bytes := (range 33).map fun i => [UInt8.ofNat i]

set_option maxRecDepth 100000 in
/-- **A full buffer loses a reply.** The last of 33 replies is dropped, and the call returns the
first 32 without an error. A message that starts like a safety label or a request to resume is not
carried as it is. -/
theorem full_buffer_loses_reply :
    (∃ s, Run.Reaches (StreamSession.step sampleID true) (fun _ _ => True)
        (sampleStream [0x68, 0x69]) s
      ∧ s.outcome = ⟨[([0x68, 0x69], .ok manyReplies)], some (.ok (manyReplies.take 32))⟩)
    ∧ (∃ s, Run.Reaches (StreamSession.step sampleID true) (fun _ _ => True)
        (sampleStream [0x00, 0x13, 0x00, 0x02, 0x00, 0x00, 0x68]) s
      ∧ s.outcome = ⟨[([0x68], .ok [])], some (.ok [])⟩)
    ∧ ∃ s, Run.Reaches (StreamSession.step sampleID true) (fun _ _ => True)
        (sampleStream (resumeHeader ++ List.replicate 9 0)) s
      ∧ s.outcome = ⟨[], some (.error (errorf ("npamp/proxy: peer reported carriage failure : "
        ++ "this proxy instance retains no per-stream state and cannot resume or restart (§6.3)")))⟩ :=
  ⟨Run.exists_reaches (produceAll manyReplies ++ List.replicate 33 .callerRecv
      ++ [.select .chunk, .callerRecv] ++ List.replicate 32 (.select .chunk)) (by decide +kernel),
    Run.exists_reaches (produceAll [] ++ [.callerRecv, .select .chunk]) (by decide +kernel),
    Run.exists_reaches [.peerRecv, .openStream true, .callerRecv, .select .reply]
      (by decide +kernel)⟩

end Npamp
