import Npamp.Proxy.Stream
import Npamp.Lib.Run

/-!
# The calls of one proxy

The calls that wait for a reply in the two maps of one `Proxy`. What a call does between two uses of
the mutex or of a channel is one step.
-/

namespace Npamp

/-- The characters of `unicode.IsSpace`, each as its octets. -/
def spaces : List Bytes :=
  [[0x09], [0x0a], [0x0b], [0x0c], [0x0d], [0x20], [0xc2, 0x85], [0xc2, 0xa0], [0xe1, 0x9a, 0x80]]
    ++ (List.range 11).map (fun i => [0xe2, 0x80, UInt8.ofNat (0x80 + i)])
    ++ [[0xe2, 0x80, 0xa8], [0xe2, 0x80, 0xa9], [0xe2, 0x80, 0xaf], [0xe2, 0x81, 0x9f],
      [0xe3, 0x80, 0x80]]

/-- One of the characters dropped from the front, if the octets start with one. -/
def dropSpace (chars : List Bytes) (b : Bytes) : Bytes :=
  match chars.find? (·.isPrefixOf b) with
  | some c => b.drop c.length
  | none => b

-- every character has an octet, so as many drops as there are octets reach the end
def trimLeft (chars : List Bytes) (b : Bytes) : Bytes := (dropSpace chars)^[b.length] b

/-- `bytes.TrimSpace`; at the end the octets of the characters are met in reverse. -/
def trimSpace (b : Bytes) : Bytes :=
  (trimLeft (spaces.map List.reverse) (trimLeft spaces b).reverse).reverse

def errJSONRPCMalformed (reason : String) : GoError :=
  errorf ("npamp/proxy: JSON-RPC object malformed: " ++ reason)

def nullToken : Bytes := [0x6e, 0x75, 0x6c, 0x6c]

/-- `jsonrpcCorrelationID`; `random` is what `newCorrelationID` draws. -/
def jsonrpcCorrelationID (random : Vector UInt8 16) (id : Bytes) : Except GoError Bytes :=
  if trimSpace id = nullToken then .ok random.toList
  else if id.length = 0 ∨ id.length > 255 then
    .error (errJSONRPCMalformed ("id token is " ++ toString id.length
      ++ " octets (0 or >255 cannot form a correlation_id)"))
  else .ok id

inductive CallKind where
  | callJSONRPC (id : Bytes) (quoted : String)
  | serveHTTP
  | callOpaque
  | openConsumerStream
  deriving DecidableEq, Repr

def CallKind.correlationID (random : Vector UInt8 16) : CallKind → Except GoError Bytes
  | .callJSONRPC id _ => jsonrpcCorrelationID random id
  | _ => .ok random.toList

/-- Only `CallJSONRPC` looks whether its key is taken. -/
def CallKind.collision : CallKind → Option GoError
  | .callJSONRPC _ quoted => some (errorf ("npamp/proxy: correlation_id derived from id " ++ quoted
      ++ " collides with an outstanding JSON-RPC request"))
  | _ => none

def CallKind.isStream : CallKind → Bool
  | .openConsumerStream => true
  | _ => false

inductive CallOutcome where
  | refused (err : GoError)
  | sendFailed (err : GoError)
  | ctxErr
  | reply (n : Nat) (reply : PendingReply)
  | collected (result : Except GoError (List Bytes))

inductive CallPhase where
  | sending
  | waiting
  | leaving (outcome : CallOutcome)
  | returned (outcome : CallOutcome)

structure BridgeCall where
  kind : CallKind
  corrID : Bytes
  /-- how many frames the receive loop had taken when the call registered -/
  since : Nat
  ctxDone : Bool
  /-- `replyCh` (`errCh` of a stream), of capacity 1, and `dataCh` -/
  replyCh : List (Nat × PendingReply)
  dataCh : List StreamChunk
  tracker : StreamEventTracker
  events : List Bytes
  phase : CallPhase

def BridgeCall.new (kind : CallKind) (corrID : Bytes) (since : Nat) : BridgeCall :=
  { kind := kind, corrID := corrID, since := since, ctxDone := false, replyCh := [], dataCh := []
    tracker := { started := false, last := 0 }, events := [], phase := .sending }

/-- What the receive loop found a waiter for and has not yet put on its channel. -/
inductive Handover where
  | reply (i n : Nat) (reply : PendingReply)
  | chunk (i : Nat) (chunk : StreamChunk)

/-- The calls are numbered in the order in which they were made. A map holds the number of the call
whose channel it points to. -/
structure Calls where
  calls : List BridgeCall
  pending : Bytes → Option Nat
  streamPending : Bytes → Option Nat
  handing : Option Handover
  /-- the frames of the receive loop that had an envelope, oldest first -/
  log : List PendingReply

def Calls.start : Calls :=
  { calls := [], pending := fun _ => none, streamPending := fun _ => none, handing := none
    log := [] }

def Calls.put (s : Calls) (i : Nat) (c : BridgeCall) : Calls := { s with calls := s.calls.set i c }

/-- The calls the registration under the mutex refuses are numbered too. -/
def Calls.call (s : Calls) (kind : CallKind) (random : Vector UInt8 16) : Calls :=
  let refuse (err : GoError) : Calls :=
    { s with calls := s.calls ++
        [{ BridgeCall.new kind [] s.log.length with phase := .returned (.refused err) }] }
  match kind.correlationID random with
  | .error err => refuse err
  | .ok corrID =>
    match kind.collision, s.pending corrID with
    | some err, some _ => refuse err
    | _, _ =>
      { s with
        calls := s.calls ++ [BridgeCall.new kind corrID s.log.length]
        pending := Function.update s.pending corrID (some s.calls.length)
        streamPending :=
          if kind.isStream then Function.update s.streamPending corrID (some s.calls.length)
          else s.streamPending }

def Calls.sent (s : Calls) (i : Nat) (err : Option GoError) : Option Calls :=
  match s.calls[i]? with
  | none => none
  | some c =>
    match c.phase, err with
    | .sending, none => some (s.put i { c with phase := .waiting })
    | .sending, some err => some (s.put i { c with phase := .leaving (.sendFailed err) })
    | _, _ => none

def Calls.expire (s : Calls) (i : Nat) : Option Calls :=
  match s.calls[i]? with
  | none => none
  | some c => some (s.put i { c with ctxDone := true })

def Calls.takeReply (s : Calls) (i : Nat) : Option Calls :=
  match s.calls[i]? with
  | none => none
  | some c =>
    match c.phase, c.replyCh with
    | .waiting, (n, r) :: rest =>
      let phase : CallPhase :=
        if c.kind.isStream then .leaving (.reply n r) else .returned (.reply n r)
      some (s.put i { c with replyCh := rest, phase := phase })
    | _, _ => none

def BridgeCall.collect (c : BridgeCall) (chunk : StreamChunk) (rest : List StreamChunk) :
    BridgeCall :=
  match chunk.err with
  | some e => { c with dataCh := rest, phase := .leaving (.collected (.error e)) }
  | none =>
    match c.tracker.accept chunk.control.eventID with
    | .error e => { c with dataCh := rest, phase := .leaving (.collected (.error e)) }
    | .ok tracker =>
      if chunk.ft = frameBridgeStreamEnd then
        { c with dataCh := rest, tracker := tracker
                 phase := .leaving (.collected (.ok c.events)) }
      else { c with dataCh := rest, tracker := tracker, events := c.events ++ [chunk.event] }

def Calls.takeChunk (s : Calls) (i : Nat) : Option Calls :=
  match s.calls[i]? with
  | none => none
  | some c =>
    match c.phase, c.dataCh with
    | .waiting, chunk :: rest => some (s.put i (c.collect chunk rest))
    | _, _ => none

def Calls.takeDone (s : Calls) (i : Nat) : Option Calls :=
  match s.calls[i]? with
  | none => none
  | some c =>
    match c.phase, c.ctxDone with
    | .waiting, true => some (s.put i { c with phase := .leaving .ctxErr })
    | _, _ => none

/-- `cleanup`: both keys go, whatever they point to. -/
def Calls.cleanup (s : Calls) (i : Nat) : Option Calls :=
  match s.calls[i]? with
  | none => none
  | some c =>
    match c.phase with
    | .leaving outcome =>
      some
        { s.put i { c with phase := .returned outcome } with
          pending := Function.update s.pending c.corrID none
          streamPending :=
            if c.kind.isStream then Function.update s.streamPending c.corrID none
            else s.streamPending }
    | _ => none

/-- What the receive loop makes of a packet that a call may wait for. -/
def BridgePacket.received (p : BridgePacket) : Option PendingReply :=
  match decodeBridgeFrame p.ft p.payload with
  | .error _ => none
  | .ok f => some { ft := p.ft, env := f.envelope, foreign := f.foreign }

def PendingReply.isReply (r : PendingReply) : Bool :=
  r.ft = frameBridgeResponse || r.ft = frameBridgeError

def PendingReply.isStream (r : PendingReply) : Bool :=
  r.ft = frameBridgeStreamData || r.ft = frameBridgeStreamEnd

def PendingReply.chunk (r : PendingReply) : StreamChunk :=
  BridgeFrame.chunk r.ft { envelope := r.env, safety := none, foreign := r.foreign }

def Calls.deliverReply (s : Calls) (r : PendingReply) : Calls :=
  match s.pending r.env.correlationID with
  | none => { s with log := s.log ++ [r] }
  | some i =>
    { s with log := s.log ++ [r]
             pending := Function.update s.pending r.env.correlationID none
             handing := some (.reply i s.log.length r) }

def Calls.handleInboundStreamFrame (s : Calls) (r : PendingReply) : Calls :=
  match s.streamPending r.env.correlationID with
  | none => { s with log := s.log ++ [r] }
  | some i => { s with log := s.log ++ [r], handing := some (.chunk i r.chunk) }

/-- `Run` takes the next packet. The other frame types start goroutines that use neither map. -/
def Calls.frame (s : Calls) (p : BridgePacket) : Option Calls :=
  match s.handing with
  | some _ => none
  | none =>
    match p.received with
    | none => some s
    | some r =>
      if r.isReply then some (s.deliverReply r)
      else if r.isStream then some (s.handleInboundStreamFrame r)
      else some s

/-- The send on the waiter's channel. A reply blocks while the channel is full, a chunk is
dropped. -/
def Calls.hand (s : Calls) : Option Calls :=
  match s.handing with
  | none => none
  | some (.reply i n r) =>
    match s.calls[i]? with
    | none => none
    | some c =>
      if c.replyCh = [] then
        some { s.put i { c with replyCh := [(n, r)] } with handing := none }
      else none
  | some (.chunk i chunk) =>
    match s.calls[i]? with
    | none => none
    | some c =>
      if c.dataCh.length < streamBuffer then
        some { s.put i { c with dataCh := c.dataCh ++ [chunk] } with handing := none }
      else some { s with handing := none }

inductive CallAction where
  | call (kind : CallKind) (random : Vector UInt8 16)
  | sent (i : Nat) (err : Option GoError)
  | expire (i : Nat)
  | takeReply (i : Nat)
  | takeChunk (i : Nat)
  | takeDone (i : Nat)
  | cleanup (i : Nat)
  | frame (p : BridgePacket)
  | hand

def Calls.step (s : Calls) : CallAction → Option Calls
  | .call kind random => some (s.call kind random)
  | .sent i err => s.sent i err
  | .expire i => s.expire i
  | .takeReply i => s.takeReply i
  | .takeChunk i => s.takeChunk i
  | .takeDone i => s.takeDone i
  | .cleanup i => s.cleanup i
  | .frame p => s.frame p
  | .hand => s.hand

def CallPhase.live : CallPhase → Bool
  | .returned _ => false
  | _ => true

def CallPhase.waits : CallPhase → Bool
  | .sending => true
  | .waiting => true
  | _ => false

/-- The frames taken since the call registered that bear its correlation_id. -/
def Calls.framesFor (s : Calls) (c : BridgeCall) : List PendingReply :=
  (s.log.drop c.since).filter fun r => r.env.correlationID = c.corrID

def Calls.answered (s : Calls) (c : BridgeCall) : Bool := (s.framesFor c).any PendingReply.isReply

def Calls.streamed (s : Calls) (c : BridgeCall) : Bool := (s.framesFor c).any PendingReply.isStream

def CallPhase.returns (n : Nat) (r : PendingReply) : CallPhase → Prop
  | .leaving (.reply m r') => m = n ∧ r' = r
  | .returned (.reply m r') => m = n ∧ r' = r
  | _ => False

def BridgeCall.Has (c : BridgeCall) (n : Nat) (r : PendingReply) : Prop :=
  (n, r) ∈ c.replyCh ∨ c.phase.returns n r

/-- The reply that was frame `n` is with call `i`: on the way to its channel, in it, or what the
call returns. -/
def Calls.Gets (s : Calls) (i n : Nat) (r : PendingReply) : Prop :=
  s.handing = some (.reply i n r) ∨ ∃ c, s.calls[i]? = some c ∧ c.Has n r

/-- **Replies and waiters.** Each reply taken is with at most one call, and that call has its
correlation_id; the waiters a call is about to remove are its own. -/
structure Calls.Undisturbed (s : Calls) : Prop where
  single : ∀ i j n r r', s.Gets i n r → s.Gets j n r' → i = j
  matched : ∀ i n r, s.Gets i n r →
    s.log[n]? = some r ∧ ∃ c, s.calls[i]? = some c ∧ r.env.correlationID = c.corrID
  ownWaiter : ∀ i c outcome, s.calls[i]? = some c → c.phase = .leaving outcome →
    ∀ j, s.pending c.corrID = some j → j = i
  ownStream : ∀ i c outcome, s.calls[i]? = some c → c.phase = .leaving outcome →
    c.kind.isStream → ∀ j, s.streamPending c.corrID = some j → j = i

/-- Call `i` returns the reply that was frame `n`, or still waits and it is all it can get. -/
def Calls.Keeps (s : Calls) (i n : Nat) (r : PendingReply) : Prop :=
  ∃ c, s.calls[i]? = some c ∧
    (c.phase.returns n r ∨
      c.phase.waits ∧ c.ctxDone = false ∧ c.dataCh = [] ∧
        (s.handing = some (.reply i n r) ∧ c.replyCh = [] ∨ c.replyCh = [(n, r)]))

/-- The call may still use the entries of its key. One that is no stream leaves them alone once its
reply was taken, as long as it waits to return it. -/
def Calls.holdsKey (s : Calls) (c : BridgeCall) : Bool :=
  c.phase.live && (c.kind.isStream || !c.phase.waits || !s.answered c)

/-- **Steps without a race for a key.** A call is made under a correlation_id that no call holds, no
reply is taken for a call whose context has ended or whose stream has begun, and after it the call's
context does not end. -/
def Calls.Untroubled (s : Calls) : CallAction → Prop
  | .call kind random => ∀ corrID ∈ (kind.correlationID random).toOption, ∀ c ∈ s.calls,
      c.corrID = corrID → s.holdsKey c → kind.collision.isSome ∧ (s.pending corrID).isSome
  | .sent i err => ∀ c ∈ s.calls[i]?, err.isSome → s.answered c = false
  | .expire i => ∀ c ∈ s.calls[i]?, c.phase.waits → s.answered c = false
  | .frame p => ∀ r ∈ p.received, ∀ c ∈ s.calls,
      c.corrID = r.env.correlationID → c.phase.waits → s.holdsKey c →
        (r.isReply → c.ctxDone = false ∧ s.streamed c = false) ∧
        (r.isStream → s.answered c = false)
  | _ => True

instance (s : Calls) : (a : CallAction) → Decidable (s.Untroubled a)
  | .call kind random => inferInstanceAs (Decidable
      (∀ corrID ∈ (kind.correlationID random).toOption, ∀ c ∈ s.calls,
        c.corrID = corrID → s.holdsKey c → kind.collision.isSome ∧ (s.pending corrID).isSome))
  | .sent i err => inferInstanceAs (Decidable
      (∀ c ∈ s.calls[i]?, err.isSome → s.answered c = false))
  | .expire i => inferInstanceAs (Decidable
      (∀ c ∈ s.calls[i]?, c.phase.waits → s.answered c = false))
  | .frame p => inferInstanceAs (Decidable
      (∀ r ∈ p.received, ∀ c ∈ s.calls, c.corrID = r.env.correlationID → c.phase.waits →
        s.holdsKey c → (r.isReply → c.ctxDone = false ∧ s.streamed c = false) ∧
        (r.isStream → s.answered c = false)))
  | .takeReply _ => inferInstanceAs (Decidable True)
  | .takeChunk _ => inferInstanceAs (Decidable True)
  | .takeDone _ => inferInstanceAs (Decidable True)
  | .cleanup _ => inferInstanceAs (Decidable True)
  | .hand => inferInstanceAs (Decidable True)

end Npamp
