import Npamp.Bridge

/-!
# Stream carriage

One WebSocket message carried to the peer and its replies carried back (`carriage_stream.go`,
`stream.go`, `websocket.go`, the receive loop of `proxy.go`). The session is reliable and keeps the
order.
-/

namespace Npamp

def bridgeProtoWebSocket : BridgeProtocol := 0x0004

def bridgeFlagFinal : UInt8 := 0x01

abbrev BridgeErrorCode := UInt8

def bridgeErrMethodUnsupported : BridgeErrorCode := 3
def bridgeErrNotDelivered : BridgeErrorCode := 4
def bridgeErrNotResumable : BridgeErrorCode := 6

/-- `BridgeErrorCode.Name`, empty for a code outside the core table. -/
def BridgeErrorCode.name (c : BridgeErrorCode) : String :=
  if c = 1 then "EnvelopeMalformed"
  else if c = 2 then "ProtocolUnsupported"
  else if c = 3 then "MethodUnsupported"
  else if c = 4 then "NotDelivered"
  else if c = 5 then "SafetyPolicy"
  else ""

def utf8 (s : String) : Bytes := s.toUTF8.data.toList

/-- Octets as the text of an error; what is not UTF-8 has one character for each octet. -/
def goString (b : Bytes) : String :=
  (String.fromUTF8? (ByteArray.mk b.toArray)).getD
    (String.ofList (b.map fun o => Char.ofNat o.toNat))

/-- `EncodeBridgeTransportError`, whose panic is the error. -/
def encodeBridgeTransportError (code : BridgeErrorCode) (msg : Bytes) : Except GoError Bytes :=
  if msg.length > 255 then
    .error (errorf ("npamp/bridge: transport-error message " ++ toString msg.length
      ++ " octets exceeds u8 msg_len"))
  else .ok ([code, UInt8.ofNat msg.length] ++ msg)

def decodeBridgeTransportError (b : Bytes) : Except GoError (BridgeErrorCode × Bytes) :=
  let stop := 2 + (b.getD 1 0).toNat
  if b.length < 2 then
    .error (Sentinel.errBridgeMalformed.errorf
      ("transport-error truncated before msg_len (" ++ toString b.length ++ " < 2 octets)"))
  else if b.length ≠ stop then
    .error (Sentinel.errBridgeMalformed.errorf
      ("transport-error length mismatch (declared " ++ toString stop ++ ", have "
        ++ toString b.length ++ ")"))
  else .ok (b.getD 0 0, slice b 2 stop)

def decodeTransportErrorReply (foreign : Bytes) : GoError :=
  match decodeBridgeTransportError foreign with
  | .error e => wrapf "npamp/proxy: malformed BRIDGE_ERROR" e
  | .ok (code, msg) =>
    errorf ("npamp/proxy: peer reported carriage failure " ++ code.name ++ ": " ++ goString msg)

def tlvStreamControl : TLVType := 0x0011

def streamControlData : UInt8 := 0x00
def streamControlResume : UInt8 := 0x01
def streamControlCancel : UInt8 := 0x02

def streamFlagCancelAck : UInt8 := 0x02

def streamControlVersion : UInt8 := 0x01

structure StreamControl where
  control : UInt8
  flags : UInt8
  eventID : UInt64
  deriving DecidableEq, Repr

def errStreamMalformed (reason : String) : GoError :=
  errorf ("npamp/proxy: StreamControl TLV malformed: " ++ reason)

def encodeStreamControlValue (sc : StreamControl) : Bytes :=
  [streamControlVersion, sc.control, sc.flags] ++ putUint64 sc.eventID

/-- `decodeLeadingStreamControl`: the control, and the event behind it. -/
def decodeLeadingStreamControl (buf : Bytes) : Except GoError (StreamControl × Bytes) :=
  let (typ, ln) := tlvHeader buf
  let v := slice buf 4 (4 + ln)
  if buf.length < 4 then
    .error (errStreamMalformed
      ("payload " ++ toString buf.length ++ " octets, too short for a TLV header"))
  else if typ ≠ tlvStreamControl then
    .error (errStreamMalformed
      ("first TLV type 0x" ++ hexPad 4 typ.toNat ++ " is not StreamControl (0x0011)"))
  else if buf.length < 4 + ln then
    .error (errStreamMalformed "StreamControl TLV Length exceeds remaining payload")
  else if v.length ≠ 11 then
    .error (errStreamMalformed
      ("StreamControl TLV Length " ++ toString v.length ++ ", want 11 (§5.2)"))
  else if v.getD 0 0 ≠ streamControlVersion then
    .error (errStreamMalformed ("StreamControl version 0x" ++ hexPad 2 (v.getD 0 0).toNat
      ++ " not implemented (this build implements 0x01)"))
  else if v.getD 1 0 ∉ [streamControlData, streamControlResume, streamControlCancel] then
    .error (errStreamMalformed
      ("undefined StreamControl control value 0x" ++ hexPad 2 (v.getD 1 0).toNat))
  else
    .ok ({ control := v.getD 1 0, flags := v.getD 2 0, eventID := uint64 (slice v 3 11) },
      buf.drop (4 + ln))

def encodeStreamFrame (env : BridgeEnvelope) (sc : StreamControl) (event : Bytes) :
    Except GoError Bytes :=
  encodeBridgePayload env none
    (TLV.encode { type := tlvStreamControl, value := encodeStreamControlValue sc } [] ++ event)

structure StreamEventTracker where
  started : Bool
  last : UInt64
  deriving DecidableEq, Repr

def StreamEventTracker.accept (t : StreamEventTracker) (id : UInt64) :
    Except GoError StreamEventTracker :=
  if t.started ∧ id ≤ t.last then
    .error (errStreamMalformed ("event_id " ++ toString id.toNat
      ++ " does not strictly exceed the previous event_id " ++ toString t.last.toNat
      ++ " on this stream (§5.1)"))
  else .ok { started := true, last := id }

structure BridgePacket where
  ft : FrameType
  payload : Bytes
  deriving DecidableEq, Repr

structure StreamChunk where
  ft : FrameType
  control : StreamControl
  event : Bytes
  err : Option GoError
  deriving DecidableEq, Repr

structure PendingReply where
  ft : FrameType
  env : BridgeEnvelope
  foreign : Bytes
  deriving DecidableEq, Repr

inductive Consumer where
  | collecting (tracker : StreamEventTracker) (events : List Bytes)
  | returned (result : Except GoError (List Bytes))

inductive Producer where
  | idle
  | opened (frame : BridgeFrame)
  | calling (frame : BridgeFrame)
  | emitting (frame : BridgeFrame) (eventID : UInt64) (events : List Bytes)
  | returned

structure StreamSession where
  /-- sent and not yet received, oldest first, to the peer and to the caller -/
  toPeer : List BridgePacket
  toCaller : List BridgePacket
  pending : Bool
  streamPending : Bool
  errCh : List PendingReply
  dataCh : List StreamChunk
  consumer : Consumer
  producer : Producer
  cancelFlag : Bool
  /-- what the handler was called with, and what it returned -/
  calls : List (Bytes × Except Bytes (List Bytes))

def streamBuffer : Nat := 32

section Call

variable (corrID : Bytes)

def BridgePacket.frameOf (p : BridgePacket) : Option BridgeFrame :=
  match decodeBridgeFrame p.ft p.payload with
  | .error _ => none
  | .ok f => if f.envelope.correlationID = corrID then some f else none

def BridgeFrame.chunk (ft : FrameType) (f : BridgeFrame) : StreamChunk :=
  match decodeLeadingStreamControl f.foreign with
  | .error e =>
    { ft := ft, control := { control := 0, flags := 0, eventID := 0 }, event := []
      err := some e }
  | .ok (sc, event) => { ft := ft, control := sc, event := event, err := none }

def StreamSession.deliverReply (s : StreamSession) (p : BridgePacket) : StreamSession :=
  match p.frameOf corrID with
  | none => s
  | some f =>
    if s.pending then
      { s with pending := false
               errCh := s.errCh ++ [{ ft := p.ft, env := f.envelope, foreign := f.foreign }] }
    else s

/-- `handleInboundStreamFrame` for the consumer: a chunk that finds the buffer full is dropped. -/
def StreamSession.deliverChunk (s : StreamSession) (p : BridgePacket) : StreamSession :=
  match p.frameOf corrID with
  | none => s
  | some f =>
    if s.streamPending ∧ s.dataCh.length < streamBuffer then
      { s with dataCh := s.dataCh ++ [f.chunk p.ft] }
    else s

def StreamSession.callerReceives (s : StreamSession) (p : BridgePacket) : StreamSession :=
  if p.ft = frameBridgeResponse ∨ p.ft = frameBridgeError then s.deliverReply corrID p
  else if p.ft = frameBridgeStreamData ∨ p.ft = frameBridgeStreamEnd then s.deliverChunk corrID p
  else s

/-- `handleInboundBridgeRequest` up to the dispatch by protocol. -/
def StreamSession.dispatchRequest (s : StreamSession) (p : BridgePacket) : StreamSession :=
  match p.frameOf corrID with
  | none => s
  | some f =>
    if f.envelope.protocol = bridgeProtoWebSocket then { s with producer := .opened f } else s

def Producer.registered : Producer → Bool
  | .calling _ => true
  | .emitting .. => true
  | _ => false

def StreamSession.cancelStream (s : StreamSession) (p : BridgePacket) : StreamSession :=
  match p.frameOf corrID with
  | none => s
  | some f =>
    let chunk := f.chunk p.ft
    if s.producer.registered ∧ p.ft = frameBridgeStreamEnd ∧ chunk.err = none
        ∧ chunk.control.control = streamControlCancel then
      { s with cancelFlag := true }
    else s

def StreamSession.peerReceives (s : StreamSession) (p : BridgePacket) : StreamSession :=
  if p.ft = frameBridgeRequest then s.dispatchRequest corrID p
  else if p.ft = frameBridgeStreamData ∨ p.ft = frameBridgeStreamEnd then s.cancelStream corrID p
  else s

def StreamSession.send (s : StreamSession) (sent : Bool) (p : BridgePacket) : StreamSession :=
  if sent then { s with toCaller := s.toCaller ++ [p] } else s

def sendBridgeError (frame : BridgeFrame) (code : BridgeErrorCode) (msg : Bytes) :
    Except GoError BridgePacket := do
  let foreign ← encodeBridgeTransportError code (msg.take 255)
  let payload ← encodeBridgePayload
    { protocol := frame.envelope.protocol, kind := bridgeKindError, contentType := bridgeContentCBOR
      flags := 0, correlationID := frame.envelope.correlationID, method := [] } none foreign
  return { ft := frameBridgeError, payload := payload }

def streamPacket (frame : BridgeFrame) (ft : FrameType) (kind : BridgeMessageKind) (flags : UInt8)
    (sc : StreamControl) (event : Bytes) : Except GoError BridgePacket := do
  let payload ← encodeStreamFrame
    { protocol := frame.envelope.protocol, kind := kind, contentType := bridgeContentCBOR
      flags := flags, correlationID := frame.envelope.correlationID, method := [] } sc event
  return { ft := ft, payload := payload }

def isResume (foreign : Bytes) : Bool :=
  match decodeLeadingStreamControl foreign with
  | .ok (sc, _) => sc.control = streamControlResume
  | .error _ => false

/-- `handleInboundStreamRequest` up to the call of the handler. A panic has no successor. -/
def StreamSession.openStream (s : StreamSession) (sent : Bool) : Option StreamSession :=
  match s.producer with
  | .opened frame =>
    if isResume frame.foreign then
      match sendBridgeError frame bridgeErrNotResumable
          (utf8 "this proxy instance retains no per-stream state and cannot resume or restart (§6.3)")
      with
      | .error _ => none
      | .ok p => some ({ s with producer := .returned }.send sent p)
    else some { s with producer := .calling frame, cancelFlag := false }
  | _ => none

def StreamSession.handle (s : StreamSession) (handler : Bool) (reply : Except Bytes (List Bytes))
    (sent : Bool) : Option StreamSession :=
  match s.producer with
  | .calling frame =>
    if ¬ handler then
      match sendBridgeError frame bridgeErrMethodUnsupported
          (utf8 "this proxy instance carries no WebSocket egress backend")
      with
      | .error _ => none
      | .ok p => some ({ s with producer := .returned }.send sent p)
    else
      let s := { s with calls := s.calls ++ [(frame.foreign, reply)] }
      match reply with
      | .error e =>
        match sendBridgeError frame bridgeErrNotDelivered e with
        | .error _ => none
        | .ok p => some ({ s with producer := .returned }.send sent p)
      | .ok events => some { s with producer := .emitting frame 1 events }
  | _ => none

def StreamSession.emit (s : StreamSession) (sent : Bool) : Option StreamSession :=
  match s.producer with
  | .emitting frame eventID events =>
    match events, s.cancelFlag with
    | event :: rest, false =>
      match streamPacket frame frameBridgeStreamData bridgeKindStreamData 0
          { control := streamControlData, flags := 0, eventID := eventID } event with
      | .error _ => none
      | .ok p =>
        let next := if sent then .emitting frame (eventID + 1) rest else .returned
        some ({ s with producer := next }.send sent p)
    | _, cancelled =>
      let flags := if cancelled then streamFlagCancelAck else 0
      match streamPacket frame frameBridgeStreamEnd bridgeKindStreamEnd bridgeFlagFinal
          { control := streamControlData, flags := flags, eventID := eventID } [] with
      | .error _ => none
      | .ok p => some ({ s with producer := .returned }.send sent p)
  | _ => none

def StreamSession.finish (s : StreamSession) (result : Except GoError (List Bytes)) :
    StreamSession :=
  { s with consumer := .returned result, pending := false, streamPending := false }

/-- The branch of `collectStream` for a chunk. The channel is never closed. -/
def StreamSession.collect (s : StreamSession) (tracker : StreamEventTracker) (events : List Bytes)
    (chunk : StreamChunk) : StreamSession :=
  match chunk.err with
  | some e => s.finish (.error e)
  | none =>
    match tracker.accept chunk.control.eventID with
    | .error e => s.finish (.error e)
    | .ok tracker =>
      if chunk.ft = frameBridgeStreamEnd then s.finish (.ok events)
      else { s with consumer := .collecting tracker (events ++ [chunk.event]) }

inductive Select where
  | reply
  | chunk
  | done (err : GoError)

def StreamSession.select (s : StreamSession) (choice : Select) : Option StreamSession :=
  match s.consumer with
  | .returned _ => none
  | .collecting tracker events =>
    match choice with
    | .reply =>
      match s.errCh with
      | [] => none
      | reply :: rest =>
        some ({ s with errCh := rest }.finish
          (.error (decodeTransportErrorReply reply.foreign)))
    | .chunk =>
      match s.dataCh with
      | [] => none
      | chunk :: rest => some ({ s with dataCh := rest }.collect tracker events chunk)
    | .done err => some (s.finish (.error err))

inductive StreamAction where
  /-- the rest of the traffic of the session, to the peer or to the caller -/
  | otherToPeer (p : BridgePacket)
  | otherToCaller (p : BridgePacket)
  | callerRecv
  | peerRecv
  | openStream (sent : Bool)
  | handle (reply : Except Bytes (List Bytes)) (sent : Bool)
  | emit (sent : Bool)
  | select (choice : Select)

variable (handler : Bool)

def StreamSession.step (s : StreamSession) : StreamAction → Option StreamSession
  | .otherToPeer p =>
    if p.frameOf corrID = none then some { s with toPeer := s.toPeer ++ [p] } else none
  | .otherToCaller p =>
    if p.frameOf corrID = none then some { s with toCaller := s.toCaller ++ [p] } else none
  | .callerRecv =>
    match s.toCaller with
    | [] => none
    | p :: rest => some ({ s with toCaller := rest }.callerReceives corrID p)
  | .peerRecv =>
    match s.toPeer with
    | [] => none
    | p :: rest => some ({ s with toPeer := rest }.peerReceives corrID p)
  | .openStream sent => s.openStream sent
  | .handle reply sent => s.handle handler reply sent
  | .emit sent => s.emit sent
  | .select choice => s.select choice

/-- `openConsumerStream` as `CallWebSocketMessage` calls it: both waiters are registered and the
request is sent. -/
def openConsumerStream (msg : Bytes) : Except GoError StreamSession := do
  let payload ← encodeBridgePayload
    { protocol := bridgeProtoWebSocket, kind := bridgeKindRequest, contentType := bridgeContentCBOR
      flags := 0, correlationID := corrID, method := [] } none msg
  return { toPeer := [{ ft := frameBridgeRequest, payload := payload }]
           toCaller := []
           pending := true
           streamPending := true
           errCh := []
           dataCh := []
           consumer := .collecting { started := false, last := 0 } []
           producer := .idle
           cancelFlag := false
           calls := [] }

end Call

end Npamp
