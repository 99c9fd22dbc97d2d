import Npamp.Sdk.Send

/-!
# The receive side

One iteration of the `recvLocked` loop: parse a frame, drop it or open it, and act on its type.
-/

namespace Npamp

inductive Responder where
  | keyUpdateAck (channel : ChannelID) (epoch : UInt64)
  | masterRatchetAck (gen : UInt64)
  | respondReKEM (kemShare : Bytes) (target : UInt64)
  deriving DecidableEq, Repr

inductive RecvAction where
  | deliver (err : Option GoError)
  | emitError (code : SessionErrorCode) (err : GoError)
  | closeAck
  | peerError (err : SessionError)
  deriving DecidableEq, Repr

inductive RecvStep where
  | again (c : Conn) (spawned : Option Responder)
  | ret (c : Conn) (channel : ChannelID) (ft : FrameType) (pt : Bytes) (act : RecvAction)

namespace RecvStep

def conn : RecvStep → Conn
  | again c _ => c
  | ret c _ _ _ _ => c

def act (c : Conn) (a : RecvAction) : RecvStep := ret c 0 0 [] a

def fail (c : Conn) (e : GoError) : RecvStep := act c (.deliver e)

end RecvStep

/-- What an inbound frame makes of a `Recv` call: it reads on, returns a frame, or returns an error
after it handed `sent` to the transport. -/
inductive RecvResult where
  | more (c : Conn) (spawned : Option Responder)
  | frame (c : Conn) (channel : ChannelID) (ft : FrameType) (pt : Bytes)
  | error (c : Conn) (sent : List (EpochKeys × Outgoing)) (err : GoError)

def outOfOrder (text : String) (reason : String) : GoError :=
  { text := text ++ ": " ++ Sentinel.errKeyUpdateOutOfOrder.text ++ reason
    chain := [.errKeyUpdateOutOfOrder] }

namespace Conn

def bumpRecv (c : Conn) (channel : ChannelID) (st : EpochKeys) : Conn :=
  { c with recvKeys := Function.update c.recvKeys channel (some st.next) }

def adoptRecvRoot (c : Conn) (nr : Bytes) (gen : UInt64) : Conn :=
  dropRecvKeys { c with masterRecv := nr, genRecv := gen }

section Handlers

variable (P : Primitives)

def handleKeyUpdate (c : Conn) (channel : ChannelID) (st : EpochKeys) (plaintext : Bytes) :
    Except GoError (Conn × Responder) :=
  match parseKeyUpdateMarker plaintext with
  | .error e =>
    .error (outOfOrder ("npamp/sdk: KEY_UPDATE on channel " ++ toString channel.toNat ++ " marker")
      (" (" ++ e.text ++ ")"))
  | .ok next =>
    if next ≠ st.epoch + 1 then
      .error (outOfOrder ("npamp/sdk: KEY_UPDATE on channel " ++ toString channel.toNat
        ++ " announced epoch " ++ toString next.toNat ++ ", want "
        ++ toString (st.epoch + 1).toNat) "")
    else
      match st.advance P c.masterRecv c.recvDir channel c.profile with
      | .error e => .error (wrapf "npamp/sdk: advance recv epoch" e)
      | .ok st =>
        .ok ({ c with recvKeys := Function.update c.recvKeys channel (some st) },
          .keyUpdateAck channel next)

def handleMasterRatchet (c : Conn) (channel : ChannelID) (plaintext : Bytes) :
    Except GoError (Conn × Responder) :=
  match parseRatchetGenMarker plaintext with
  | .error e =>
    .error (wrapf ("npamp/sdk: MASTER_RATCHET on channel " ++ toString channel.toNat) e)
  | .ok next =>
    if next ≠ c.genRecv + 1 then
      .error (errorf ("npamp/sdk: MASTER_RATCHET announced gen " ++ toString next.toNat
        ++ ", want " ++ toString (c.genRecv + 1).toNat))
    else
      match ratchetMasterTier1 P c.masterRecv next c.profile with
      | .error e => .error (wrapf "npamp/sdk: advance recv root" e)
      | .ok nr => .ok (c.adoptRecvRoot nr next, .masterRatchetAck next)

def handleReKEM (channel : ChannelID) (plaintext : Bytes) : Except GoError Responder :=
  match parseReKEM plaintext with
  | .error e => .error (wrapf ("npamp/sdk: REKEM on channel " ++ toString channel.toNat) e)
  | .ok (kemShare, target) => .ok (.respondReKEM kemShare target)

def completeReKEM (c : Conn) (pend : PendingReKEM) (kemCT : Bytes) (gen : UInt64) :
    Except GoError Conn :=
  if gen ≠ c.genRecv + 1 ∨ gen ≠ pend.targetGen then
    .error (errorf ("npamp/sdk: REKEM_ACK announced gen " ++ toString gen.toNat ++ ", want "
      ++ toString (c.genRecv + 1).toNat))
  else
    match pend.client.sharedSecrets P kemCT with
    | .error e => .error (wrapf "npamp/sdk: re-KEM decapsulate" e)
    | .ok ss =>
      match thRekem P c.profile pend.kemShare kemCT gen with
      | .error e => .error (wrapf "npamp/sdk: re-KEM transcript" e)
      | .ok th =>
        match ratchetMasterTier2 P c.masterRecv ss.combined th c.profile with
        | .error e => .error (wrapf "npamp/sdk: advance recv root" e)
        | .ok nr => .ok (c.adoptRecvRoot nr gen)

/-- The pending re-KEM is consumed whether or not the heal succeeds. -/
def handleReKEMAck (c : Conn) (plaintext : Bytes) : Conn × Option GoError :=
  match parseReKEMAck plaintext with
  | .error e => (c, some (wrapf "npamp/sdk: REKEM_ACK" e))
  | .ok (kemCT, gen) =>
    match c.pendingReKEM with
    | none => (c, some Sentinel.errUnsolicitedReKEMAck.err)
    | some pend =>
      let c : Conn := { c with pendingReKEM := none }
      match c.completeReKEM P pend kemCT gen with
      | .error e => (c, some e)
      | .ok c => (c, none)

def keyUpdateReceived (c : Conn) (channel : ChannelID) (st : EpochKeys) (plaintext : Bytes) :
    RecvStep :=
  match c.handleKeyUpdate P channel st plaintext with
  | .error e =>
    if errorsIs e .errKeyUpdateOutOfOrder then
      .act c (.emitError errCodeKeyUpdateOutOfOrder e)
    else .fail c e
  | .ok (c, task) => .again c (some task)

def keyUpdateAckReceived (c : Conn) (channel : ChannelID) (plaintext : Bytes) : RecvStep :=
  match parseKeyUpdateMarker plaintext with
  | .error e =>
    .act c (.emitError errCodeKeyUpdateOutOfOrder
      (outOfOrder ("npamp/sdk: KEY_UPDATE_ACK on channel " ++ toString channel.toNat ++ " marker")
        (" (" ++ e.text ++ ")")))
  | .ok epoch =>
    match c.consumePendingKeyUpdateAck channel epoch with
    | (c, true) => .again c none
    | (c, false) =>
      .act c (.emitError errCodeUnexpectedMessage
        (errorf ("npamp/sdk: unsolicited KEY_UPDATE_ACK on channel " ++ toString channel.toNat
          ++ " (epoch " ++ toString epoch.toNat ++ ")")))

def masterRatchetReceived (c : Conn) (channel : ChannelID) (plaintext : Bytes) : RecvStep :=
  match c.handleMasterRatchet P channel plaintext with
  | .error e => .fail c e
  | .ok (c, task) => .again c (some task)

def masterRatchetAckReceived (c : Conn) (plaintext : Bytes) : RecvStep :=
  match parseRatchetGenMarker plaintext with
  | .error e => .fail c (wrapf "npamp/sdk: MASTER_RATCHET_ACK" e)
  | .ok gen =>
    match c.consumePendingRatchetAck gen with
    | (c, true) => .again c none
    | (c, false) =>
      .act c (.emitError errCodeUnexpectedMessage
        (errorf ("npamp/sdk: unsolicited MASTER_RATCHET_ACK (gen " ++ toString gen.toNat
          ++ ")")))

def reKEMReceived (c : Conn) (channel : ChannelID) (plaintext : Bytes) : RecvStep :=
  match handleReKEM channel plaintext with
  | .error e => .fail c e
  | .ok task => .again c (some task)

def reKEMAckReceived (c : Conn) (plaintext : Bytes) : RecvStep :=
  match c.handleReKEMAck P plaintext with
  | (c, none) => .again c none
  | (c, some e) =>
    if errorsIs e .errUnsolicitedReKEMAck then .act c (.emitError errCodeUnexpectedMessage e)
    else .fail c e

def closeReceived (c : Conn) (plaintext : Bytes) : RecvStep :=
  if plaintext.length ≠ 0 then
    .act c (.emitError errCodeUnexpectedMessage
      (errorf ("npamp/sdk: CLOSE carried a " ++ toString plaintext.length ++ "-octet payload")))
  else .act c .closeAck

def closeAckReceived (c : Conn) : RecvStep :=
  match c.signalCloseAck with
  | (c, true) => .fail c Sentinel.errPeerClosed.err
  | (c, false) =>
    .act c (.emitError errCodeUnexpectedMessage (errorf "npamp/sdk: unsolicited CLOSE_ACK"))

def errorReceived (c : Conn) (plaintext : Bytes) : RecvStep :=
  match decodeErrorBody plaintext with
  | .error e => .fail c (wrapf "npamp/sdk: malformed ERROR frame from peer" e)
  | .ok e => .act c (.peerError e)

/-- The switch on the frame type, for a frame opened under `st`. KEY_UPDATE and its ACK are handled
on every channel, the other control types only on Control. -/
def dispatch (c : Conn) (st : EpochKeys) (ch : ChannelID) (ft : FrameType) (pt : Bytes) : RecvStep :=
  if ft = frameKeyUpdate then c.keyUpdateReceived P ch st pt
  else if ft = frameKeyUpdateAck then c.keyUpdateAckReceived ch pt
  else if ch ≠ chanControl then .ret c ch ft pt (.deliver none)
  else if ft = frameMasterRatchet then c.masterRatchetReceived P ch pt
  else if ft = frameMasterRatchetAck then c.masterRatchetAckReceived pt
  else if ft = frameReKEM then c.reKEMReceived ch pt
  else if ft = frameReKEMAck then c.reKEMAckReceived P pt
  else if ft = frameClose then c.closeReceived pt
  else if ft = frameCloseAck then c.closeAckReceived
  else if ft = frameError then c.errorReceived pt
  else
    .act c (.emitError errCodeUnexpectedMessage
      (errorf ("npamp/sdk: unexpected frame type 0x"
        ++ String.ofList (List.leftpad 4 '0' (Nat.toDigits 16 ft.toNat))
        ++ " on Control in ESTABLISHED")))

/-- One iteration of the loop in `recvLocked`. A cleartext frame is dropped before a key is derived
for its channel, a frame out of sequence before it is opened. -/
def recvOnce (c : Conn) (wire : Bytes) : RecvStep :=
  match unmarshalBinary wire with
  | .error e => .fail c (wrapf "npamp/sdk: parse frame" e)
  | .ok f =>
    if f.flags &&& flagENC = 0 then
      .again { c with droppedUnauthenticated := c.droppedUnauthenticated + 1 } none
    else
      match c.recvState P f.channel with
      | .error e => .fail c (wrapf "npamp/sdk: derive recv key" e)
      | .ok (st, c) =>
        if f.seq ≠ st.seq then
          .again { c with droppedOutOfSequence := c.droppedOutOfSequence + 1 } none
        else
          match openWith P st f with
          | .error _ =>
            .again { c with droppedUnauthenticated := c.droppedUnauthenticated + 1 } none
          | .ok pt =>
            (c.bumpRecv f.channel st).dispatch P st.next f.channel f.type pt

def runCall (c : Conn) (call : Call) (written : Bool) : Conn × List (EpochKeys × Outgoing) :=
  match call.begin P c with
  | (c, .refused _) => (c, [])
  | (c, .sealed st m) => (c.afterWrite P m written, [(st, m)])

/-- What `Recv` does after `recvLocked` returned: the reaction on the send direction, the teardown,
and the error it reports. -/
def react (c : Conn) (act : RecvAction) (written : Bool) :
    Conn × List (EpochKeys × Outgoing) × Option GoError :=
  match act with
  | .emitError code err =>
    let (c, sent) := c.runCall P (.sendSessionError code) written
    (c.zeroize, sent, some err)
  | .closeAck =>
    let (c, sent) := c.runCall P .sendCloseAck written
    (c.zeroize, sent, some Sentinel.errPeerClosed.err)
  | .peerError e => (c.zeroize, [], some e.err)
  | .deliver err => (c, [], err)

def recv (c : Conn) (wire : Bytes) (written : Bool) : RecvResult :=
  match c.recvOnce P wire with
  | .again c task => .more c task
  | .ret c ch ft pt act =>
    match c.react P act written with
    | (c, _, none) => .frame c ch ft pt
    | (c, sent, some err) => .error c sent err

end Handlers

end Conn

end Npamp
