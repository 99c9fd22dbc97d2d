import Npamp.Sdk.Endpoint

/-!
# Where key material is used

A connection with the body that holds `wmu` and a log of every derivation, seal and open. The
functions that list uses follow the functions they are named after.
-/

namespace Npamp

/-- A use of key material: `epochKeys.derive` and the two ratchet steps on a root, `sealWith` and
`openWith` on a cached key, decapsulation for a pending re-KEM. -/
inductive KeyUse where
  | derive (root : Bytes) (dir : Direction) (epoch : UInt64) (channel : ChannelID)
  | ratchet (root : Bytes)
  | sealed (st : EpochKeys) (channel : ChannelID)
  | opened (st : EpochKeys) (channel : ChannelID)
  | decapsulate (kemShare : Bytes)
  deriving DecidableEq, Repr

namespace Conn

def sendStateUses (c : Conn) (channel : ChannelID) : List KeyUse :=
  if c.closed then []
  else
    match c.sendKeys channel with
    | some _ => []
    | none => [.derive c.masterSend c.sendDir 0 channel]

def recvStateUses (c : Conn) (channel : ChannelID) : List KeyUse :=
  if c.closed then []
  else
    match c.recvKeys channel with
    | some _ => []
    | none => [.derive c.masterRecv c.recvDir 0 channel]

end Conn

/-- The channel whose send key a body asks `sendState` for, if it gets that far. -/
def Call.lookup (P : Primitives) (c : Conn) : Call → Option ChannelID
  | send ch _ _ => some ch
  | keyUpdate ch => some ch
  | ratchetSend => if c.closed then none else some chanControl
  | reKEM _ => if c.closed then none else some chanControl
  | sendKeyUpdateAck ch _ => some ch
  | sendMasterRatchetAck _ => some chanControl
  | respondReKEM kemShare target rand =>
    match encapsulate P kemShare rand with
    | .error _ => none
    | .ok (kemCT, _) =>
      match thRekem P c.profile kemShare kemCT target with
      | .error _ => none
      | .ok _ => if c.closed ∨ target ≠ c.genSend + 1 then none else some chanControl
  | sendClose _ => if c.closed then none else some chanControl
  | sendCloseAck => some chanControl
  | sendSessionError _ => some chanControl

def Attempt.message : Attempt → Option Outgoing
  | refused _ => none
  | sealed _ m => some m

def Attempt.uses : Attempt → List KeyUse
  | refused _ => []
  | sealed st m => [.sealed st m.channel]

def Call.uses (P : Primitives) (c : Conn) (call : Call) : List KeyUse :=
  (match call.lookup P c with
    | none => []
    | some ch => c.sendStateUses ch)
  ++ (call.begin P c).2.uses

namespace Conn

def afterWriteUses (c : Conn) : Outgoing → (written : Bool) → List KeyUse
  | .keyUpdate ch _, true =>
    match c.sendKeys ch with
    | none => []
    | some st => [.derive c.masterSend c.sendDir (st.epoch + 1) ch]
  | .masterRatchet _, true => [.ratchet c.masterSend]
  | .reKEMAck _ _ _ _ _, true => [.ratchet c.masterSend]
  | _, _ => []

def handleKeyUpdateUses (c : Conn) (channel : ChannelID) (st : EpochKeys) (plaintext : Bytes) :
    List KeyUse :=
  match parseKeyUpdateMarker plaintext with
  | .error _ => []
  | .ok next =>
    if next ≠ st.epoch + 1 then []
    else [.derive c.masterRecv c.recvDir (st.epoch + 1) channel]

def handleMasterRatchetUses (c : Conn) (plaintext : Bytes) : List KeyUse :=
  match parseRatchetGenMarker plaintext with
  | .error _ => []
  | .ok next => if next ≠ c.genRecv + 1 then [] else [.ratchet c.masterRecv]

section Receive

variable (P : Primitives)

def handleReKEMAckUses (c : Conn) (plaintext : Bytes) : List KeyUse :=
  match parseReKEMAck plaintext, c.pendingReKEM with
  | .ok (kemCT, gen), some pend =>
    if gen ≠ c.genRecv + 1 ∨ gen ≠ pend.targetGen then []
    else
      .decapsulate pend.kemShare ::
        match pend.client.sharedSecrets P kemCT, thRekem P c.profile pend.kemShare kemCT gen with
        | .ok _, .ok _ => [.ratchet c.masterRecv]
        | _, _ => []
  | _, _ => []

def dispatchUses (c : Conn) (st : EpochKeys) (ch : ChannelID) (ft : FrameType) (pt : Bytes) :
    List KeyUse :=
  if ft = frameKeyUpdate then c.handleKeyUpdateUses ch st pt
  else if ft = frameKeyUpdateAck then []
  else if ch ≠ chanControl then []
  else if ft = frameMasterRatchet then c.handleMasterRatchetUses pt
  else if ft = frameReKEMAck then c.handleReKEMAckUses P pt
  else []

def recvOnceUses (c : Conn) (wire : Bytes) : List KeyUse :=
  match unmarshalBinary wire with
  | .error _ => []
  | .ok f =>
    if f.flags &&& flagENC = 0 then []
    else
      c.recvStateUses f.channel ++
        match c.recvState P f.channel with
        | .error _ => []
        | .ok (st, c) =>
          if f.seq ≠ st.seq then []
          else
            .opened st f.channel ::
              match openWith P st f with
              | .error _ => []
              | .ok pt =>
                (c.bumpRecv f.channel st).dispatchUses P st.next f.channel f.type pt

end Receive

end Conn

structure Custody where
  conn : Conn
  holder : Option Outgoing
  log : List KeyUse

def newCustody (c : Conn) : Custody where
  conn := c
  holder := none
  log := []

/-- `call` takes `wmu` and runs a body up to its write, `finish` is the rest of it; `recv` is one
iteration of the receive loop. `Close` is `zeroize` as far as the connection goes. -/
inductive Op where
  | call (call : Call)
  | finish (written : Bool)
  | recv (wire : Bytes)
  | clearClosing
  | zeroize

def Custody.step (P : Primitives) (s : Custody) : Op → Option Custody
  | .call call =>
    match s.holder with
    | some _ => none
    | none =>
      some
        { conn := (call.begin P s.conn).1
          holder := (call.begin P s.conn).2.message
          log := s.log ++ call.uses P s.conn }
  | .finish written =>
    match s.holder with
    | none => none
    | some m =>
      some
        { conn := s.conn.afterWrite P m written
          holder := none
          log := s.log ++ s.conn.afterWriteUses m written }
  | .recv wire =>
    some
      { s with
        conn := (s.conn.recvOnce P wire).conn
        log := s.log ++ s.conn.recvOnceUses P wire }
  | .clearClosing => some { s with conn := s.conn.clearClosing }
  | .zeroize =>
    match s.holder with
    | some _ => none
    | none => some { s with conn := s.conn.zeroize }

end Npamp
