import Npamp.Rust.Schedule

/-!
# The node-to-node tunnel

`tunnel.rs`. An octet carries the stream it was written to, which no function looks at; streams and
channels keep all that was written to them.
-/

namespace Npamp.Rust.Tunnel

def frameHeaderLen : Nat := 4 + 1 + 4

def maxMuxPayload : Nat := 16 <<< 20

def protoerr (msg : String) : IoError := ⟨"nz-agent/tunnel: " ++ msg⟩

inductive Side where
  | a
  | b
  deriving DecidableEq, Repr

def Side.other : Side → Side
  | a => b
  | b => a

/-- A stream: the end it is a handle of, whether `open_stream` or `accept_stream` returned it, and
its id. -/
structure Origin where
  side : Side
  opened : Bool
  id : UInt32
  deriving DecidableEq, Repr

def Origin.peer (o : Origin) : Origin := ⟨o.side.other, !o.opened, o.id⟩

structure Octet where
  value : UInt8
  origin : Option Origin
  deriving DecidableEq, Repr

def values (octets : List Octet) : Bytes := octets.map Octet.value

inductive FrameKind where
  | opened
  | data
  | closed
  deriving DecidableEq, Repr

def FrameKind.toU8 : FrameKind → UInt8
  | opened => 0
  | data => 1
  | closed => 2

def FrameKind.fromU8 (b : UInt8) : Except IoError FrameKind :=
  if b = 0 then .ok .opened
  else if b = 1 then .ok .data
  else if b = 2 then .ok .closed
  else .error (protoerr ("unknown mux frame kind " ++ toString b.toNat))

structure MuxFrame where
  streamId : UInt32
  kind : FrameKind
  payload : List Octet
  deriving DecidableEq, Repr

def MuxFrame.encode (f : MuxFrame) : List Octet :=
  (putUint32 f.streamId ++ f.kind.toU8 :: putUint32 (UInt32.ofNat f.payload.length)).map (⟨·, none⟩)
    ++ f.payload

def writeMuxFrame (w : List Octet) (f : MuxFrame) : Except IoError (List Octet) :=
  if f.payload.length > maxMuxPayload then
    .error (protoerr "outgoing mux frame exceeds MAX_MUX_PAYLOAD")
  else .ok (w ++ f.encode)

/-- `read_mux_frame` on the octets written and not yet read, `eof` when no more will follow: nothing
while it waits for octets, else its result with the octets behind. -/
def readMuxFrame (eof : Bool) (r : List Octet) :
    Option (Except IoError (Option (MuxFrame × List Octet))) :=
  if r.length < frameHeaderLen then
    if eof = false then none
    else if r = [] then some (.ok none)
    else some (.error (protoerr "truncated mux frame header"))
  else
    let hdr := values (r.take frameHeaderLen)
    let rest := r.drop frameHeaderLen
    match FrameKind.fromU8 (hdr.getD 4 0) with
    | .error e => some (.error e)
    | .ok kind =>
      let len := (uint32 (hdr.drop 5)).toNat
      if len > maxMuxPayload then
        some (.error (protoerr "incoming mux frame exceeds MAX_MUX_PAYLOAD"))
      else if rest.length < len then
        if eof = false then none else some (.error ⟨"failed to fill whole buffer"⟩)
      else some (.ok (some (⟨uint32 (hdr.take 4), kind, rest.take len⟩, rest.drop len)))

structure Channel where
  id : UInt32
  queue : List (List Octet)
  sent : List Octet
  deriving DecidableEq, Repr

inductive RouterEvent where
  | newStream (id : UInt32) (rx : Nat)
  | closed
  deriving DecidableEq, Repr

structure MuxStream where
  id : UInt32
  opened : Bool
  rx : Nat
  pending : List Octet
  closedWrite : Bool
  written : Bytes
  taken : List Octet
  deriving DecidableEq, Repr

def MuxStream.origin (side : Side) (s : MuxStream) : Origin := ⟨side, s.opened, s.id⟩

def MuxStream.tagged (side : Side) (s : MuxStream) (buf : Bytes) : List Octet :=
  buf.map (⟨·, some (s.origin side)⟩)

/-- How far a call of `open_stream` is: it has its id, its entry in the table, or has returned. -/
inductive OpenStage where
  | allocated
  | inserted (rx : Nat)
  | returned
  deriving DecidableEq, Repr

structure OpenCall where
  id : UInt32
  stage : OpenStage
  deriving DecidableEq, Repr

/-- `Multiplexer` with its demux thread, channels, calls of `open_stream` and handles. `outbound`
are the octets its writer took that the other end has not read. -/
structure Multiplexer where
  nextId : UInt32
  streams : UInt32 → Option Nat
  acceptRx : List RouterEvent
  channels : List Channel
  opening : List OpenCall
  handles : List MuxStream
  demuxing : Bool
  outbound : List Octet
  hungUp : Bool

def Multiplexer.new : Multiplexer where
  nextId := 1
  streams := fun _ => none
  acceptRx := []
  channels := []
  opening := []
  handles := []
  demuxing := true
  outbound := []
  hungUp := false

namespace Multiplexer

variable (m : Multiplexer)

def insertStream (id : UInt32) : Multiplexer :=
  { m with
    channels := m.channels ++ [⟨id, [], []⟩]
    streams := Function.update m.streams id (some m.channels.length) }

def addHandle (id : UInt32) (opened : Bool) (rx : Nat) : Multiplexer :=
  { m with handles := m.handles ++ [⟨id, opened, rx, [], false, [], []⟩] }

def allocate : Multiplexer :=
  { m with nextId := m.nextId + 1, opening := m.opening ++ [⟨m.nextId, .allocated⟩] }

def openInsert (call : Nat) : Option Multiplexer :=
  match m.opening[call]? with
  | some ⟨id, .allocated⟩ =>
    some { m.insertStream id with
      opening := m.opening.set call ⟨id, .inserted m.channels.length⟩ }
  | _ => none

def openWrite (call : Nat) : Option Multiplexer :=
  match m.opening[call]? with
  | some ⟨id, .inserted rx⟩ =>
    match writeMuxFrame m.outbound ⟨id, .opened, []⟩ with
    | .error _ => none
    | .ok outbound =>
      if m.hungUp then none
      else
        some { m.addHandle id true rx with
          outbound := outbound, opening := m.opening.set call ⟨id, .returned⟩ }
  | _ => none

def acceptStream : Option Multiplexer :=
  match m.acceptRx with
  | [] => none
  | .closed :: events => some { m with acceptRx := events }
  | .newStream id rx :: events => some { m.addHandle id false rx with acceptRx := events }

/-- `write`: a buffer that is too large changes nothing. -/
def write (side : Side) (stream : Nat) (buf : Bytes) : Option Multiplexer :=
  match m.handles[stream]? with
  | none => none
  | some s =>
    if m.hungUp then none
    else
      match writeMuxFrame m.outbound ⟨s.id, .data, s.tagged side buf⟩ with
      | .error _ => some m
      | .ok outbound =>
        some { m with
          outbound := outbound
          handles := m.handles.set stream { s with written := s.written ++ buf } }

def close (stream : Nat) : Option Multiplexer :=
  match m.handles[stream]? with
  | none => none
  | some s =>
    if s.closedWrite then some m
    else if m.hungUp then none
    else
      match writeMuxFrame m.outbound ⟨s.id, .closed, []⟩ with
      | .error _ => none
      | .ok outbound =>
        some { m with
          outbound := outbound, handles := m.handles.set stream { s with closedWrite := true } }

def recvPending : List (List Octet) → List Octet × List (List Octet)
  | [] => ([], [])
  | [] :: queue => recvPending queue
  | (octet :: chunk) :: queue => (octet :: chunk, queue)

/-- `read` with room for `len` octets. It waits while its channel is empty and has a sender. -/
def read (stream len : Nat) : Option Multiplexer :=
  match m.handles[stream]? with
  | none => none
  | some s =>
    match m.channels[s.rx]? with
    | none => none
    | some ch =>
      if len = 0 then some m
      else
        let (pending, queue) := if s.pending = [] then recvPending ch.queue
          else (s.pending, ch.queue)
        if pending = [] ∧ m.streams s.id = some s.rx then none
        else
          some { m with
            channels := m.channels.set s.rx { ch with queue := queue }
            handles := m.handles.set stream
              { s with
                pending := pending.drop len, taken := s.taken ++ pending.take len } }

def route (f : MuxFrame) : Multiplexer :=
  match f.kind with
  | .opened =>
    { m.insertStream f.streamId with
      acceptRx := m.acceptRx ++ [.newStream f.streamId m.channels.length] }
  | .data =>
    match m.streams f.streamId with
    | none => m
    | some tx =>
      { m with
        channels := m.channels.modify tx fun ch =>
          { ch with queue := ch.queue ++ [f.payload], sent := ch.sent ++ f.payload } }
  | .closed =>
    { m with
      streams := Function.update m.streams f.streamId none
      acceptRx := m.acceptRx ++ [.closed] }

def stopDemux : Multiplexer := { m with demuxing := false, streams := fun _ => none }

def demuxTurn (eof : Bool) (inbound : List Octet) : Option (Multiplexer × List Octet) :=
  if m.demuxing = false then none
  else
    match readMuxFrame eof inbound with
    | none => none
    | some (.ok (some (f, rest))) => some (m.route f, rest)
    | some (.ok none) => some (m.stopDemux, inbound)
    | some (.error _) => some (m.stopDemux, inbound)

end Multiplexer

inductive Op where
  | allocate
  | openInsert (call : Nat)
  | openWrite (call : Nat)
  | acceptStream
  | write (stream : Nat) (buf : Bytes)
  | close (stream : Nat)
  | read (stream len : Nat)
  | hangUp
  deriving DecidableEq, Repr

def Multiplexer.act (m : Multiplexer) (side : Side) : Op → Option Multiplexer
  | .allocate => some m.allocate
  | .openInsert call => m.openInsert call
  | .openWrite call => m.openWrite call
  | .acceptStream => m.acceptStream
  | .write stream buf => m.write side stream buf
  | .close stream => m.close stream
  | .read stream len => m.read stream len
  | .hangUp => some { m with hungUp := true }

abbrev Ends := Side → Multiplexer

def start : Ends := fun _ => .new

inductive Label where
  | act (side : Side) (op : Op)
  | demux (side : Side)
  deriving DecidableEq, Repr

def demux (t : Ends) (side : Side) : Option Ends :=
  ((t side).demuxTurn (t side.other).hungUp (t side.other).outbound).map fun p =>
    Function.update
      (Function.update t side.other { t side.other with outbound := p.2 }) side p.1

def step (t : Ends) : Label → Option Ends
  | .act side op => ((t side).act side op).map (Function.update t side)
  | .demux side => demux t side

/-- Fewer than `2 ^ 32 - 1` streams are opened on each end. -/
def FewOpens (t : Ends) (l : Label) : Prop :=
  ∀ side, l = .act side .allocate → (t side).opening.length + 1 < 2 ^ 32 - 1

/-- Only `opener` opens streams. -/
def OpensOnly (opener : Side) (l : Label) : Prop := ∀ side, l = .act side .allocate → side = opener

/-- A multiplexer with the octets that have arrived for its demux loop, whoever wrote them. -/
structure Lone where
  mux : Multiplexer
  inbound : List Octet
  eof : Bool

def Lone.start : Lone := ⟨.new, [], false⟩

inductive Lone.Label where
  | act (op : Op)
  | arrive (octets : Bytes)
  | hangUp
  | demux
  deriving DecidableEq, Repr

def Lone.step (w : Lone) : Lone.Label → Option Lone
  | .act op => (w.mux.act .a op).map fun m => { w with mux := m }
  | .arrive octets =>
    if w.eof then none else some { w with inbound := w.inbound ++ octets.map (⟨·, none⟩) }
  | .hangUp => some { w with eof := true }
  | .demux =>
    (w.mux.demuxTurn w.eof w.inbound).map fun p => { w with mux := p.1, inbound := p.2 }

def Multiplexer.buffered (m : Multiplexer) (s : MuxStream) : List Octet :=
  s.pending ++ (m.channels[s.rx]?.map fun ch => ch.queue.flatten).getD []

def Multiplexer.readTimes (stream len : Nat) : Nat → Multiplexer → Option Multiplexer
  | 0, m => some m
  | n + 1, m => (m.read stream len).bind (readTimes stream len n)

/-- No read waits: no sender is registered, and reads with room for `len` octets return what the
stream has received and then nothing more. -/
structure NoReadWaits (m : Multiplexer) : Prop where
  unregistered (k : UInt32) : m.streams k = none
  returns (stream : Nat) (s : MuxStream) (hs : m.handles[stream]? = some s) (len : Nat) :
    (m.read stream len).isSome = true
  drains (stream : Nat) (s : MuxStream) (hs : m.handles[stream]? = some s) (len : Nat)
    (hlen : 0 < len) :
    ∃ n m' s', Multiplexer.readTimes stream len n m = some m' ∧ m'.handles[stream]? = some s'
      ∧ s'.taken = s.taken ++ m.buffered s
      ∧ ∀ k m'', Multiplexer.readTimes stream len k m' = some m'' →
        m''.handles[stream]? = some s'

/-- `open_stream` inserts its entry while the demux loop runs. -/
def OpensInTime (w : Lone) (l : Lone.Label) : Prop :=
  ∀ call, l = .act (.openInsert call) → w.mux.demuxing = true

def counterparts (t : Ends) (side : Side) (s : MuxStream) : List MuxStream :=
  (t side.other).handles.filter fun s' => s'.origin side.other = (s.origin side).peer

/-- Streams are matched one to one, faithful and isolated. -/
structure Faithful (t : Ends) : Prop where
  /-- an opened stream is accepted at most once -/
  atMostOnce (side : Side) (s : MuxStream) (hs : s ∈ (t side).handles) :
    (counterparts t side s).length ≤ 1
  accepted (side : Side) (s : MuxStream) (hs : s ∈ (t side).handles) (hopened : s.opened = false) :
    (counterparts t side s).length = 1
  /-- an opened stream has been accepted, once the other end has read and accepted all there is -/
  opened (side : Side) (s : MuxStream) (hs : s ∈ (t side).handles) (hopened : s.opened = true)
    (hread : (t side).outbound = []) (haccepted : (t side.other).acceptRx = []) :
    (counterparts t side s).length = 1
  /-- the demux loop is never stuck on what was written -/
  alive (side : Side) (hwritten : (t side.other).outbound ≠ []) : (demux t side).isSome = true
  inOrder (side : Side) (s : MuxStream) (hs : s ∈ (t side).handles) (s' : MuxStream)
    (hs' : s' ∈ counterparts t side s) : values s.taken <+: s'.written
  isolated (side : Side) (s : MuxStream) (hs : s ∈ (t side).handles) (o : Octet)
    (ho : o ∈ s.taken) : o.origin = some (s.origin side).peer

end Npamp.Rust.Tunnel
