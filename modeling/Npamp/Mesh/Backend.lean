import Npamp.Interop
import Npamp.Mesh.Waypoint

/-!
# The backend socket

`gateway_backend.rs`. Each `write` seals its buffer as one frame under a counter of the socket's
own. The answers of the transport are arguments.
-/

namespace Npamp.Mesh

open Rust (Crates IoError Session)

def opaqueBackendChannel : ChannelID := 0

def opaqueBackendFtype : FrameType := 0

/-- `NpampBackendSocket`, without its transport. The counters wrap, as in a release build. -/
structure NpampBackendSocket where
  session : Session
  sendSeq : UInt64
  recvSeq : UInt64
  readBuf : Bytes
  deriving DecidableEq

def NpampBackendSocket.new (session : Session) : NpampBackendSocket := ⟨session, 0, 0, []⟩

/-- What a transport does with a frame: it takes all of it and is flushed, or fails when some octets
of it are on the wire. -/
inductive Delivery where
  | taken
  | failed (octets : Nat) (e : IoError)
  deriving DecidableEq

def writeFrame (wire frame : Bytes) : Delivery → Except IoError Unit × Bytes
  | .taken => (.ok (), wire ++ frame)
  | .failed octets e => (.error e, wire ++ frame.take octets)

namespace NpampBackendSocket

variable (C : Crates) (s : NpampBackendSocket)

def sealBuffer (buf : Bytes) : Except IoError Bytes :=
  Rust.sealFrame C s.session.master s.session.sendDir opaqueBackendChannel s.sendSeq
    opaqueBackendFtype buf

def write (wire buf : Bytes) (delivery : Delivery) :
    Except IoError Nat × NpampBackendSocket × Bytes :=
  match s.sealBuffer C buf with
  | .error e => (.error e, s, wire)
  | .ok frame =>
    match writeFrame wire frame delivery with
    | (.error e, wire) => (.error e, s, wire)
    | (.ok (), wire) => (.ok buf.length, { s with sendSeq := s.sendSeq + 1 }, wire)

end NpampBackendSocket

/-- `read_frame` on the octets that have arrived; with `eof` no more will. Nothing while it waits. -/
def readFrame (eof : Bool) (arrived : Bytes) : Option (Except IoError Bytes × Bytes) :=
  match awaitFrame Rust.readFrame arrived with
  | some r => some r
  | none => if eof then some (.error ⟨"failed to fill whole buffer"⟩, []) else none

namespace NpampBackendSocket

variable (C : Crates) (s : NpampBackendSocket)

def recv (eof : Bool) (arrived : Bytes) : Option (Except IoError Bytes × Bytes) :=
  match readFrame eof arrived with
  | none => none
  | some (.error e, rest) => some (.error e, rest)
  | some (.ok wire, rest) =>
    match s.session.openRecord C s.recvSeq wire with
    | .error e => some (.error e, rest)
    | .ok (_, _, payload) => some (.ok payload, rest)

def read (eof : Bool) (arrived : Bytes) (len : Nat) :
    Option (Except IoError Bytes × NpampBackendSocket × Bytes) :=
  if len = 0 then some (.ok [], s, arrived)
  else if s.readBuf ≠ [] then
    some (.ok (s.readBuf.take len), { s with readBuf := s.readBuf.drop len }, arrived)
  else
    match s.recv C eof arrived with
    | none => none
    | some (.error e, rest) => some (.error e, s, rest)
    | some (.ok payload, rest) =>
      some (.ok (payload.take len),
        { s with recvSeq := s.recvSeq + 1, readBuf := payload.drop len }, rest)

end NpampBackendSocket

/-- One direction of a connection over a reliable transport: the octets written and not read, those
of the writes that reported success, those that reads returned, and what reads into a non-empty
buffer returned. -/
structure Pipe where
  writer : NpampBackendSocket
  reader : NpampBackendSocket
  wire : Bytes
  closed : Bool
  written : Bytes
  readOut : Bytes
  results : List (Except IoError Bytes)
  deriving DecidableEq

namespace Pipe

def start (writer reader : Session) : Pipe := ⟨.new writer, .new reader, [], false, [], [], []⟩

inductive Label where
  | write (buf : Bytes)
  | read (len : Nat)
  | close
  deriving DecidableEq, Repr

def write (C : Crates) (t : Pipe) (buf : Bytes) : Option Pipe :=
  if t.closed then none
  else
    match t.writer.write C t.wire buf .taken with
    | (.error _, writer, wire) => some { t with writer := writer, wire := wire }
    | (.ok n, writer, wire) =>
      some { t with writer := writer, wire := wire, written := t.written ++ buf.take n }

def read (C : Crates) (t : Pipe) (len : Nat) : Option Pipe :=
  match t.reader.read C t.closed t.wire len with
  | none => none
  | some (result, reader, wire) =>
    some { t with
      reader := reader
      wire := wire
      readOut := t.readOut ++ result.toOption.getD []
      results := if len = 0 then t.results else t.results ++ [result] }

def step (C : Crates) (t : Pipe) : Label → Option Pipe
  | .write buf => t.write C buf
  | .read len => t.read C len
  | .close => some { t with closed := true }

def reads (C : Crates) (sizes : Nat → Nat) : Nat → Pipe → Option Pipe
  | 0, t => some t
  | n + 1, t => (reads C sizes n t).bind fun t => t.read C (sizes n)

structure Transparent (C : Crates) (t : Pipe) : Prop where
  inOrder : t.readOut <+: t.written
  delivered (sizes : Nat → Nat) (hsizes : ∀ i, 0 < sizes i) :
    ∃ n t', t.reads C sizes n = some t' ∧ t'.readOut = t.written
  zero (r : Except IoError Bytes) (hr : r ∈ t.results) (hzero : r = .ok []) : t.closed = true

def Fits (_ : Pipe) (l : Label) : Prop :=
  ∀ buf, l = .write buf → buf ≠ [] ∧ headerSize + (buf.length + Rust.gcmTagLen) ≤ maxFrameSize

instance (t : Pipe) (l : Label) : Decidable (Fits t l) :=
  match l with
  | .write buf =>
    decidable_of_iff (buf ≠ [] ∧ headerSize + (buf.length + Rust.gcmTagLen) ≤ maxFrameSize)
      ⟨fun h _ hbuf => Label.write.inj hbuf ▸ h, fun h => h buf rfl⟩
  | .read _ => isTrue fun _ h => by cases h
  | .close => isTrue fun _ h => by cases h

end Pipe

structure SessionEnds (dir : Direction) (writer reader : Session) : Prop where
  master : reader.master = writer.master
  length : writer.master.length = Rust.hashLen
  sendDir : writer.sendDir = dir.octet
  recvDir : reader.recvDir = dir.octet

/-- A socket on a transport that may fail, with the buffers handed to it, how many calls succeeded,
and the buffer of a call that failed since. -/
structure Sender where
  socket : NpampBackendSocket
  wire : Bytes
  handed : List (UInt64 × Bytes)
  sent : Nat
  failed : Option Bytes
  deriving DecidableEq

namespace Sender

def start (session : Session) : Sender := ⟨.new session, [], [], 0, none⟩

inductive Label where
  | write (buf : Bytes) (delivery : Delivery)
  | writeAuthorized (objectAudience : Str) (objectEffect : EffectClass) (payload : Bytes)
      (delivery : Delivery)

def write (C : Crates) (t : Sender) (buf : Bytes) (delivery : Delivery) : Sender :=
  match t.socket.sealBuffer C buf with
  | .error _ => t
  | .ok _ =>
    let handed := t.handed ++ [(t.socket.sendSeq, buf)]
    match t.socket.write C t.wire buf delivery with
    | (.error _, socket, wire) => ⟨socket, wire, handed, t.sent, some buf⟩
    | (.ok _, socket, wire) => ⟨socket, wire, handed, t.sent + 1, none⟩

def step (C : Crates) (hook : AuthzHook) (signerId : Str) (t : Sender) : Label → Option Sender
  | .write buf delivery => some (t.write C buf delivery)
  | .writeAuthorized objectAudience objectEffect payload delivery =>
    match authorize hook signerId objectAudience objectEffect with
    | .error _ => some t
    | .ok () => some (t.write C payload delivery)

def Label.buf : Label → Bytes
  | .write buf _ => buf
  | .writeAuthorized _ _ payload _ => payload

/-- A call that failed is repeated with the same buffer, and fewer than `2 ^ 64` calls have
succeeded. -/
def Repeats (t : Sender) (l : Label) : Prop :=
  (∀ buf, t.failed = some buf → l.buf = buf) ∧ t.sent < 2 ^ 64

instance (t : Sender) (l : Label) : Decidable (Repeats t l) :=
  inferInstanceAs (Decidable ((∀ buf ∈ t.failed, l.buf = buf) ∧ t.sent < 2 ^ 64))

def NonceUnique (t : Sender) : Prop :=
  ∀ e ∈ t.handed, ∀ e' ∈ t.handed, e.1 = e'.1 → e.2 = e'.2

end Sender

end Npamp.Mesh
