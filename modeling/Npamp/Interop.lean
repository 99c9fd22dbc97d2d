import Npamp.Framers
import Npamp.Lib.Duplex
import Npamp.Sdk.Handshake
import Npamp.Sdk.Recv
import Npamp.Rust.Session

/-!
# A Go endpoint and a Rust endpoint

Each endpoint runs the handshake on a fresh transport, sends some application frames, then receives
as many as the peer sends.
-/

namespace Npamp

open Dialogue (ofExcept fail receive send)

/-- The octets a frame reader needs to see: the header, and the payload of a header it accepts. -/
def frameOctets (s : Bytes) : Nat :=
  let total := headerSize + (uint32 (slice s 17 21)).toNat
  if slice s 0 4 ≠ magic ∨ total > maxFrameSize then headerSize else total

/-- A frame reader on a transport that stays open: what it returns once enough octets are there, and
the octets behind. A reader that refuses a header has read the header. -/
def awaitFrame {ε : Type} (read : Bytes → Except ε (Bytes × Bytes)) (s : Bytes) :
    Option (Except ε Bytes × Bytes) :=
  if s.length < headerSize ∨ s.length < frameOctets s then none
  else
    match read s with
    | .ok (raw, rest) => some (.ok raw, rest)
    | .error e => some (.error e, s.drop headerSize)

abbrev AppFrame := FrameType × Bytes

structure Outcome where
  master : Bytes
  peer : Bytes
  sent : List AppFrame
  received : List (ChannelID × AppFrame)
  deriving DecidableEq, Repr

section Go

variable (P : Primitives)

def Conn.sendRecord (c : Conn) (channel : ChannelID) (frame : AppFrame) : Handshake Conn :=
  match c.sendLocked P channel frame.1 frame.2 with
  | (c, .refused none) => return c
  | (_, .refused (some e)) => fail e
  | (c, .sealed st m) => do
      writeFrame (m.wire P st)
      return c.afterWrite P m true

def Conn.sendRecords (channel : ChannelID) : List AppFrame → Conn → Handshake (Conn × List AppFrame)
  | [], c => return (c, [])
  | frame :: frames, c =>
    (c.sendRecord P channel frame).andThen fun result =>
      match result with
      | .error _ => return (c, [])
      | .ok c => do
          let (c, sent) ← Conn.sendRecords channel frames c
          return (c, frame :: sent)

def writeReactions {α : Type} (e : GoError) : List (EpochKeys × Outgoing) → Handshake α
  | [] => fail e
  | (st, m) :: rest => (writeFrame (m.wire P st)).andThen fun _ => writeReactions e rest

/-- `Recv`, for at most `fuel` frames that it does not deliver. The goroutines a control frame
starts are not part of the call. -/
def Conn.recvRecord : Nat → Conn → Handshake (Conn × ChannelID × AppFrame)
  | 0, _ => fail (errorf "frames exhausted")
  | fuel + 1, c => do
      let wire ← receive
      match c.recv P wire true with
      | .more c _ => Conn.recvRecord fuel c
      | .frame c channel ft pt => return (c, channel, ft, pt)
      | .error _ sent e => writeReactions P e sent

def Conn.recvRecords (fuel : Nat) : Nat → Conn → Handshake (List (ChannelID × AppFrame))
  | 0, _ => return []
  | count + 1, c => do
      let (c, frame) ← Conn.recvRecord P fuel c
      let frames ← Conn.recvRecords fuel count c
      return frame :: frames

end Go

def Party.sendDir {P : Primitives} : Party P → Direction
  | client .. => .clientToServer
  | server .. => .serverToClient

def Party.recvDir {P : Primitives} : Party P → Direction
  | client .. => .serverToClient
  | server .. => .clientToServer

def Party.session {P : Primitives} (party : Party P) (channel : ChannelID) (frames : List AppFrame)
    (fuel count : Nat) : Handshake Outcome := do
  let (master, peer, _) ← party.run
  let (c, sent) ← (newConn master party.sendDir party.recvDir).sendRecords P channel frames
  let received ← c.recvRecords P fuel count
  return { master := master, peer := peer, sent := sent, received := received }

namespace Rust

variable (C : Crates)

def Session.sendRecords (s : Session) (channel : ChannelID) : UInt64 → List AppFrame → Call Unit
  | _, [] => return ()
  | seq, frame :: frames => do
      s.sendRecord C channel frame.1 seq frame.2
      s.sendRecords channel (seq + 1) frames

def Session.recvRecords (s : Session) : UInt64 → Nat → Call (List (ChannelID × AppFrame))
  | _, 0 => return []
  | seq, count + 1 => do
      let frame ← s.recvRecord C seq
      let frames ← s.recvRecords (seq + 1) count
      return frame :: frames

inductive Peer where
  | client (identity : Bytes) (expectedPeer : Option Bytes) (kem : KEMClient)
  | server (identity : Bytes) (expectedPeer : Option Bytes) (rand : KEMRandom)

def Peer.run : Peer → Call Session
  | client identity expectedPeer kem => dialWithEphemeral C identity expectedPeer kem
  | server identity expectedPeer rand => acceptWithEphemeral C identity expectedPeer rand

def Peer.session (peer : Peer) (channel : ChannelID) (frames : List AppFrame) (count : Nat) :
    Call Outcome := do
  let s ← peer.run C
  s.sendRecords C channel 0 frames
  let received ← s.recvRecords C 0 count
  return { master := s.master, peer := s.peerIdentity, sent := frames, received := received }

end Rust

end Npamp
