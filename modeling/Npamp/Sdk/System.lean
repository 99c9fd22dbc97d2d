import Npamp.Lib.Run
import Npamp.Sdk.Endpoint

/-!
# Two endpoints over reliable streams

A client and a server joined by one FIFO stream of frames in each direction. The message a frame was
sealed from is kept beside its octets as a history.
-/

namespace Npamp

inductive Side where
  | client
  | server
  deriving DecidableEq, Repr

def Side.peer : Side → Side
  | client => server
  | server => client

structure Flight where
  msg : Outgoing
  wire : Bytes

/-- `net s` holds the frames written by `s` that its peer has not read yet. -/
structure System where
  ep : Side → Endpoint
  net : Side → List Flight

def Side.dir : Side → Direction
  | client => .clientToServer
  | server => .serverToClient

def newSystem (master : Bytes) : System where
  ep s := newEndpoint (newConn master s.dir s.peer.dir)
  net _ := []

/-- A frame type and channel an application may use with `Send`: not a record-layer control
frame. -/
def IsApplication (channel : ChannelID) (ft : FrameType) : Prop :=
  channel ≠ chanControl ∧ ft ≠ frameKeyUpdate ∧ ft ≠ frameKeyUpdateAck

instance (channel : ChannelID) (ft : FrameType) : Decidable (IsApplication channel ft) :=
  inferInstanceAs (Decidable (_ ∧ _ ∧ _))

def Event.honest : Event → Bool
  | send channel ft _ => IsApplication channel ft
  | _ => true

inductive Move where
  | act (side : Side) (ev : Event)
  | recv (receiver : Side)

namespace System

def written (before after : Endpoint) : List Flight :=
  match before.hold, after.hold with
  | none, some h => if h.written then [⟨h.msg, h.wire⟩] else []
  | _, _ => []

def act (P : Primitives) (σ : System) (s : Side) (ev : Event) : Option System :=
  if ev.honest then
    match (σ.ep s).act P ev .ok with
    | none => none
    | some e =>
      some { ep := Function.update σ.ep s e
             net := Function.update σ.net s (σ.net s ++ written (σ.ep s) e) }
  else none

def recv (P : Primitives) (σ : System) (r : Side) : Option System :=
  match σ.net r.peer with
  | [] => none
  | f :: rest =>
    match (σ.ep r).recv P f.wire with
    | none => none
    | some e =>
      some { ep := Function.update σ.ep r e, net := Function.update σ.net r.peer rest }

def step (P : Primitives) (σ : System) : Move → Option System
  | .act s ev => σ.act P s ev
  | .recv r => σ.recv P r

end System

end Npamp
