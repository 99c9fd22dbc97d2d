import Npamp.Sdk.Conn

/-!
# The send side

Ten bodies seal a frame under `wmu`. Each is cut at its transport write: the peer and the endpoint's
own receive loop can act between the two halves.
-/

namespace Npamp

/-- The frame a body has sealed, with the local values it still needs after the write. -/
inductive Outgoing where
  | app (channel : ChannelID) (ft : FrameType) (payload : Bytes)
  | keyUpdate (channel : ChannelID) (announced : UInt64)
  | keyUpdateAck (channel : ChannelID) (epoch : UInt64)
  | masterRatchet (target : UInt64)
  | masterRatchetAck (gen : UInt64)
  | reKEM (client : KEMClient) (kemShare : Bytes) (target : UInt64)
  | reKEMAck (kemShare kemCT newSS th : Bytes) (target : UInt64)
  | close (ackCh : Nat)
  | closeAck
  | sessionError (code : SessionErrorCode)

namespace Outgoing

def channel : Outgoing → ChannelID
  | app ch _ _ => ch
  | keyUpdate ch _ => ch
  | keyUpdateAck ch _ => ch
  | _ => chanControl

def type : Outgoing → FrameType
  | app _ ft _ => ft
  | keyUpdate _ _ => frameKeyUpdate
  | keyUpdateAck _ _ => frameKeyUpdateAck
  | masterRatchet _ => frameMasterRatchet
  | masterRatchetAck _ => frameMasterRatchetAck
  | reKEM _ _ _ => frameReKEM
  | reKEMAck _ _ _ _ _ => frameReKEMAck
  | close _ => frameClose
  | closeAck => frameCloseAck
  | sessionError _ => frameError

def plaintext : Outgoing → Bytes
  | app _ _ payload => payload
  | keyUpdate _ announced => keyUpdateMarker announced
  | keyUpdateAck _ epoch => keyUpdateMarker epoch
  | masterRatchet target => ratchetGenMarker target
  | masterRatchetAck gen => ratchetGenMarker gen
  | reKEM _ kemShare target => encodeReKEM kemShare target
  | reKEMAck _ kemCT _ _ target => encodeReKEMAck kemCT target
  | close _ => []
  | closeAck => []
  | sessionError code => encodeErrorBody code []

def wire (P : Primitives) (st : EpochKeys) (m : Outgoing) : Bytes :=
  sealWith P st m.channel m.type m.plaintext

end Outgoing

/-- The outcome of a body before its write. A refusal without an error is a silent return. -/
inductive Attempt where
  | refused (err : Option GoError)
  | sealed (st : EpochKeys) (m : Outgoing)

namespace Conn

def sequenceExhausted (who : String) (epoch : UInt64) (advice : String) : GoError :=
  errorf ("npamp/sdk: " ++ who ++ " epoch " ++ toString epoch.toNat ++ " sequence space exhausted"
    ++ advice)

section Bodies

variable (P : Primitives)

def sendLocked (c : Conn) (channel : ChannelID) (ft : FrameType) (payload : Bytes) :
    Conn × Attempt :=
  match c.sendState P channel with
  | .error e => (c, .refused (wrapf "npamp/sdk: derive send key" e))
  | .ok (st, c) =>
    if st.seq = maxUint64 then
      (c, .refused (sequenceExhausted ("channel " ++ toString channel.toNat) st.epoch
        "; call KeyUpdate before sending more"))
    else (c, .sealed st (.app channel ft payload))

def keyUpdate (c : Conn) (channel : ChannelID) : Conn × Attempt :=
  match c.sendState P channel with
  | .error e => (c, .refused (wrapf "npamp/sdk: derive send key" e))
  | .ok (st, c) =>
    (c.addPendingKeyUpdateAck channel (st.epoch + 1),
      .sealed st (.keyUpdate channel (st.epoch + 1)))

def ratchetSend (c : Conn) : Conn × Attempt :=
  if c.closed then (c, .refused Sentinel.errClosed.err)
  else
    match c.sendState P chanControl with
    | .error e => (c, .refused (wrapf "npamp/sdk: derive Control send key" e))
    | .ok (st, c) =>
      if st.seq = maxUint64 then
        (c, .refused (sequenceExhausted "Control channel" st.epoch ""))
      else
        (c.addPendingRatchetAck (c.genSend + 1), .sealed st (.masterRatchet (c.genSend + 1)))

/-- The `wmu` section of `ReKEM`, after its in-flight check and key generation. -/
def reKEM (c : Conn) (client : KEMClient) : Conn × Attempt :=
  if c.closed then (c, .refused Sentinel.errClosed.err)
  else
    match c.sendState P chanControl with
    | .error e => (c, .refused (wrapf "npamp/sdk: derive Control send key" e))
    | .ok (st, c) =>
      if st.seq = maxUint64 then
        (c, .refused (sequenceExhausted "Control channel" st.epoch ""))
      else (c, .sealed st (.reKEM client (client.kemShare P) (c.genRecv + 1)))

/-- An acknowledgement or notice on `m.channel`: no sequence guard, errors skip it silently. -/
def notify (c : Conn) (m : Outgoing) : Conn × Attempt :=
  match c.sendState P m.channel with
  | .error _ => (c, .refused none)
  | .ok (st, c) => (c, .sealed st m)

def sendKeyUpdateAck (c : Conn) (channel : ChannelID) (epoch : UInt64) : Conn × Attempt :=
  c.notify P (.keyUpdateAck channel epoch)

def sendMasterRatchetAck (c : Conn) (gen : UInt64) : Conn × Attempt :=
  c.notify P (.masterRatchetAck gen)

def sendSessionError (c : Conn) (code : SessionErrorCode) : Conn × Attempt :=
  c.notify P (.sessionError code)

def sendCloseAck (c : Conn) : Conn × Attempt := c.notify P .closeAck

/-- The encapsulation comes first; the target generation is checked under `wmu`. -/
def respondReKEM (c : Conn) (kemShare : Bytes) (target : UInt64) (rand : KEMRandom) :
    Conn × Attempt :=
  match encapsulate P kemShare rand with
  | .error _ => (c, .refused none)
  | .ok (kemCT, ss) =>
    match thRekem P c.profile kemShare kemCT target with
    | .error _ => (c, .refused none)
    | .ok th =>
      if c.closed then (c, .refused none)
      else if target ≠ c.genSend + 1 then (c, .refused none)
      else c.notify P (.reKEMAck kemShare kemCT ss.combined th target)

/-- CLOSING is registered before the write, with the fresh channel `ackCh`. -/
def sendClose (c : Conn) (ackCh : Nat) : Conn × Attempt :=
  if c.closed then (c, .refused none)
  else
    match c.sendState P chanControl with
    | .error e => (c, .refused e)
    | .ok (st, c) =>
      if st.seq = maxUint64 then
        (c, .refused (sequenceExhausted "Control channel" st.epoch ""))
      else ({ c with closing := true, closeAckCh := some ackCh }, .sealed st (.close ackCh))

def bumpSend (c : Conn) (channel : ChannelID) : Conn :=
  { c with
    sendKeys := Function.update c.sendKeys channel ((c.sendKeys channel).map EpochKeys.next) }

def advanceSend (c : Conn) (channel : ChannelID) : Conn :=
  match c.sendKeys channel with
  | none => c
  | some st =>
    match st.advance P c.masterSend c.sendDir channel c.profile with
    | .error _ => c
    | .ok st => { c with sendKeys := Function.update c.sendKeys channel (some st) }

def adoptSendRoot (c : Conn) (root : Except GoError Bytes) (gen : UInt64) : Conn :=
  match root with
  | .error _ => c
  | .ok nr => dropSendKeys { c with masterSend := nr, genSend := gen }

/-- What each body does after its write, still under `wmu`. -/
def afterWrite (c : Conn) : Outgoing → (written : Bool) → Conn
  | .keyUpdate ch _, true => (c.bumpSend ch).advanceSend P ch
  | .keyUpdate ch announced, false => c.removePendingKeyUpdateAck ch announced
  | .masterRatchet target, true =>
    (c.bumpSend chanControl).adoptSendRoot
      (ratchetMasterTier1 P c.masterSend target c.profile) target
  | .masterRatchet target, false => c.removePendingRatchetAck target
  | .reKEM client kemShare target, true =>
    { c.bumpSend chanControl with
      pendingReKEM := some { client := client, kemShare := kemShare, targetGen := target } }
  | .reKEMAck _ _ newSS th target, true =>
    (c.bumpSend chanControl).adoptSendRoot
      (ratchetMasterTier2 P c.masterSend newSS th c.profile) target
  | .close _, false => c.clearClosing
  | m, true => c.bumpSend m.channel
  | _, false => c

end Bodies

end Conn

inductive Call where
  | send (channel : ChannelID) (ft : FrameType) (payload : Bytes)
  | keyUpdate (channel : ChannelID)
  | ratchetSend
  | reKEM (client : KEMClient)
  | sendKeyUpdateAck (channel : ChannelID) (epoch : UInt64)
  | sendMasterRatchetAck (gen : UInt64)
  | respondReKEM (kemShare : Bytes) (target : UInt64) (rand : KEMRandom)
  | sendClose (ackCh : Nat)
  | sendCloseAck
  | sendSessionError (code : SessionErrorCode)

def Call.begin (P : Primitives) (c : Conn) : Call → Conn × Attempt
  | send ch ft payload => c.sendLocked P ch ft payload
  | keyUpdate ch => c.keyUpdate P ch
  | ratchetSend => c.ratchetSend P
  | reKEM client => c.reKEM P client
  | sendKeyUpdateAck ch epoch => c.sendKeyUpdateAck P ch epoch
  | sendMasterRatchetAck gen => c.sendMasterRatchetAck P gen
  | respondReKEM kemShare target rand => c.respondReKEM P kemShare target rand
  | sendClose ackCh => c.sendClose P ackCh
  | sendCloseAck => c.sendCloseAck P
  | sendSessionError code => c.sendSessionError P code

end Npamp
