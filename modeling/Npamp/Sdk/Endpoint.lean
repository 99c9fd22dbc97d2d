import Npamp.Sdk.Recv

/-!
# One endpoint and its goroutines

Application calls, responder goroutines and the reactions of `Recv` compete for `wmu`. The body that
holds it is kept between its transport write and the bookkeeping behind the write.
-/

namespace Npamp

/-- How `writeWire` ended. A failed write may have put any prefix of the frame on the wire; a
refused one returned before the transport was asked. -/
inductive WriteResult where
  | ok
  | failed (octets : Nat)
  | refused
  deriving DecidableEq, Repr

/-- A body between its write and its bookkeeping. It holds `wmu`. -/
structure Hold where
  msg : Outgoing
  wire : Bytes
  written : Bool

/-- A `ReKEM` call that has passed its in-flight check, before and after key generation. -/
inductive ReKEMCall where
  | checked
  | keyed (client : KEMClient)

/-- `Recv` after it released `rmu`: a reaction to perform, then `Close`. -/
inductive Reaction where
  | due (act : RecvAction)
  | performed
  deriving DecidableEq, Repr

structure Handed where
  st : EpochKeys
  msg : Outgoing
  result : WriteResult

/-- An endpoint. `closers` are the `CloseGraceful` calls that wait, `abandoned` says that one of
them gave up. `handed`, `delivered` and `errors` are histories. -/
structure Endpoint where
  conn : Conn
  rawClosed : Bool
  hold : Option Hold
  responders : List Responder
  reKEMs : List ReKEMCall
  closers : List Nat
  abandoned : Bool
  nextCh : Nat
  reaction : Option Reaction
  handed : List Handed
  delivered : List (ChannelID × FrameType × Bytes)
  errors : List GoError

def newEndpoint (c : Conn) : Endpoint where
  conn := c
  rawClosed := false
  hold := none
  responders := []
  reKEMs := []
  closers := []
  abandoned := false
  nextCh := 0
  reaction := none
  handed := []
  delivered := []
  errors := []

def Responder.call (rand : KEMRandom) : Responder → Call
  | keyUpdateAck ch epoch => .sendKeyUpdateAck ch epoch
  | masterRatchetAck gen => .sendMasterRatchetAck gen
  | respondReKEM kemShare target => .respondReKEM kemShare target rand

inductive Event where
  | send (channel : ChannelID) (ft : FrameType) (payload : Bytes)
  | keyUpdate (channel : ChannelID)
  | ratchetSend
  | reKEMCheck
  | reKEMKeygen (i : Nat) (client : KEMClient)
  | reKEM (i : Nat)
  | respond (i : Nat) (rand : KEMRandom)
  | sendClose
  | closeAcked (ackCh : Nat)
  | closeAbandoned (ackCh : Nat)
  | react
  | finish
  | close
  | zeroize

namespace Endpoint

/-- `writeWire`: the size checks of `writeFrame` and a closed transport come before the transport's
own answer. -/
def writeWire (e : Endpoint) (wire : Bytes) (answer : WriteResult) : WriteResult :=
  if wire.length < headerSize ∨ wire.length > maxFrameSize then .refused
  else if e.rawClosed ∧ answer = .ok then .failed 0
  else answer

section Steps

variable (P : Primitives)

/-- A body takes `wmu` and runs up to its write. One that returns early releases `wmu` at once. -/
def begin (e : Endpoint) (call : Call) (answer : WriteResult) : Endpoint :=
  match call.begin P e.conn with
  | (c, .refused _) => { e with conn := c }
  | (c, .sealed st m) =>
    let result := e.writeWire (m.wire P st) answer
    { e with
      conn := c
      hold := some { msg := m, wire := m.wire P st, written := result = .ok }
      handed := if result = .refused then e.handed else e.handed ++ [⟨st, m, result⟩] }

def finish (e : Endpoint) (h : Hold) : Endpoint :=
  { e with
    conn := e.conn.afterWrite P h.msg h.written
    hold := none
    closers :=
      match h.msg, h.written with
      | .close ackCh, true => ackCh :: e.closers
      | _, _ => e.closers }

def reactionCall : RecvAction → Option Call
  | .emitError code _ => some (.sendSessionError code)
  | .closeAck => some .sendCloseAck
  | _ => none

/-- An event whose body takes `wmu`: the call it makes, and the endpoint without what it
consumes. -/
def request (e : Endpoint) : Event → Option (Call × Endpoint)
  | .send ch ft payload => some (.send ch ft payload, e)
  | .keyUpdate ch => some (.keyUpdate ch, e)
  | .ratchetSend => some (.ratchetSend, e)
  | .reKEM i =>
    match e.reKEMs[i]? with
    | some (.keyed client) => some (.reKEM client, { e with reKEMs := e.reKEMs.eraseIdx i })
    | _ => none
  | .respond i rand =>
    match e.responders[i]? with
    | some task => some (task.call rand, { e with responders := e.responders.eraseIdx i })
    | none => none
  | .sendClose => some (.sendClose e.nextCh, { e with nextCh := e.nextCh + 1 })
  | .react =>
    match e.reaction with
    | some (.due act) =>
      (reactionCall act).map fun call => (call, { e with reaction := some .performed })
    | _ => none
  | _ => none

/-- One step of the endpoint. Bodies that need `wmu` wait while another holds it. -/
def act (e : Endpoint) (ev : Event) (answer : WriteResult) : Option Endpoint :=
  match ev with
  | .reKEMCheck =>
    if e.conn.pendingReKEM.isSome then none
    else some { e with reKEMs := e.reKEMs ++ [.checked] }
  | .reKEMKeygen i client =>
    match e.reKEMs[i]? with
    | some .checked => some { e with reKEMs := e.reKEMs.set i (.keyed client) }
    | _ => none
  | .closeAcked ackCh =>
    if ackCh ∈ e.closers ∧ ackCh ∈ e.conn.signalled then
      some { e with closers := e.closers.erase ackCh }
    else none
  | .closeAbandoned ackCh =>
    if ackCh ∈ e.closers then
      some { e with
        conn := e.conn.clearClosing
        closers := e.closers.erase ackCh
        abandoned := true }
    else none
  | .finish =>
    match e.hold with
    | some h => some (e.finish P h)
    | none => none
  | .close => some { e with rawClosed := true }
  | .zeroize =>
    if e.rawClosed ∧ e.hold.isNone then some { e with conn := e.conn.zeroize } else none
  | ev =>
    if e.hold.isSome then none
    else
      match e.request ev with
      | some (call, e) => some (e.begin P call answer)
      | none => none

/-- What an iteration of the receive loop leaves: a responder to run, a frame or an error for the
caller, or a reaction. -/
def afterRecv (e : Endpoint) : RecvStep → Endpoint
  | .again c task => { e with conn := c, responders := e.responders ++ task.toList }
  | .ret c ch ft pt (.deliver none) =>
    { e with conn := c, delivered := e.delivered ++ [(ch, ft, pt)] }
  | .ret c _ _ _ (.deliver (some err)) => { e with conn := c, errors := e.errors ++ [err] }
  | .ret c _ _ _ act => { e with conn := c, reaction := some (.due act) }

/-- An inbound frame reaches the receive loop. It runs while the transport is open and no reaction
is under way. -/
def recv (e : Endpoint) (wire : Bytes) : Option Endpoint :=
  if e.rawClosed ∨ e.reaction.isSome then none
  else some (e.afterRecv (e.conn.recvOnce P wire))

end Steps

end Endpoint

end Npamp
