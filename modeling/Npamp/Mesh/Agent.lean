import Npamp.Mesh.Identity
import Npamp.Rust.Session

/-!
# The node agent

`agent.rs` and `authz.rs`. What `open_stream` or `accept_stream` returns is an argument, and so is
the randomness of a handshake.
-/

namespace Npamp.Mesh

open Rust (Crates IoError Session Call dialWithEphemeral acceptWithEphemeral)

inductive Decision where
  | allow
  | deny
  deriving DecidableEq, Repr

inductive DenyReason where
  | noEntryForPair
  deriving DecidableEq, Repr

structure AuthzTable where
  allowed : List (SpiffeId × SpiffeId)

namespace AuthzTable

def new : AuthzTable := ⟨[]⟩

variable (t : AuthzTable)

def allow (source destination : SpiffeId) : AuthzTable := ⟨t.allowed.insert (source, destination)⟩

def check (source destination : SpiffeId) : Decision × Option DenyReason :=
  if (source, destination) ∈ t.allowed then (.allow, none) else (.deny, some .noEntryForPair)

def Allows (source destination : SpiffeId) : Prop := (t.check source destination).1 = .allow

variable {t} {source destination : SpiffeId}

theorem allows_iff : t.Allows source destination ↔ (source, destination) ∈ t.allowed := by
  rw [Allows, check]
  split_ifs with hmem <;> simp [hmem]

theorem mem_allow {pair : SpiffeId × SpiffeId} : pair ∈ (t.allow source destination).allowed
      ↔ pair ∈ t.allowed ∨ pair = (source, destination) := by
  rw [allow, List.mem_insert_iff, or_comm]

end AuthzTable

/-- `PeerDirectory`: the latest binding of a key comes first. -/
structure PeerDirectory where
  table : List (Bytes × SpiffeId)

namespace PeerDirectory

def new : PeerDirectory := ⟨[]⟩

variable (d : PeerDirectory)

def register (pubkey : Bytes) (id : SpiffeId) : PeerDirectory := ⟨(pubkey, id) :: d.table⟩

def resolve (pubkey : Bytes) : Option SpiffeId := d.table.lookup pubkey

end PeerDirectory

inductive AgentError where
  | identity (e : IdentityError)
  | authzDenied (source destination : SpiffeId)
  | unknownPeerIdentity (pubkey : Bytes)
  | peerNotAuthorized (source destination : SpiffeId)
  | handshake (e : IoError)
  | tunnel (e : IoError)
  deriving DecidableEq

structure WorkloadSession where
  localSvid : Svid
  peer : SpiffeId
  session : Session
  stream : UInt32
  deriving DecidableEq

structure NodeAgent where
  identitySource : IdentitySource
  l4 : AuthzTable
  peers : PeerDirectory

namespace NodeAgent

variable (C : Crates) (agent : NodeAgent)

def originate (sourcePid : UInt32) (destination : SpiffeId) (destinationPubkey : Option Bytes)
    (openStream : Except IoError UInt32) (kem : KEMClient) :
    Call (Except AgentError WorkloadSession) :=
  match agent.identitySource sourcePid with
  | .error e => return .error (.identity e)
  | .ok localSvid =>
    if (agent.l4.check localSvid.id destination).1 ≠ .allow then
      return .error (.authzDenied localSvid.id destination)
    else
      match openStream with
      | .error e => return .error (.tunnel e)
      | .ok stream => do
          match ← (dialWithEphemeral C localSvid.signingKey destinationPubkey kem).attempt with
          | .error e => return .error (.handshake e)
          | .ok session => return .ok ⟨localSvid, destination, session, stream⟩

def checkPeer (localSvid : Svid) (stream : UInt32) (session : Session) :
    Except AgentError WorkloadSession :=
  match agent.peers.resolve session.peerIdentity with
  | none => .error (.unknownPeerIdentity session.peerIdentity)
  | some source =>
    if (agent.l4.check source localSvid.id).1 ≠ .allow then
      .error (.peerNotAuthorized source localSvid.id)
    else .ok ⟨localSvid, source, session, stream⟩

def accept (destPid : UInt32) (acceptStream : Except IoError UInt32) (rand : KEMRandom) :
    Call (Except AgentError WorkloadSession) :=
  match agent.identitySource destPid with
  | .error e => return .error (.identity e)
  | .ok localSvid =>
    match acceptStream with
    | .error e => return .error (.tunnel e)
    | .ok stream => do
        match ← (acceptWithEphemeral C localSvid.signingKey none rand).attempt with
        | .error e => return .error (.handshake e)
        | .ok session => return agent.checkPeer localSvid stream session

end NodeAgent

inductive AgentCall where
  | originate (sourcePid : UInt32) (destination : SpiffeId) (destinationPubkey : Option Bytes)
      (openStream : Except IoError UInt32) (kem : KEMClient)
  | accept (destPid : UInt32) (acceptStream : Except IoError UInt32) (rand : KEMRandom)

def AgentCall.run (C : Crates) (agent : NodeAgent) :
    AgentCall → Call (Except AgentError WorkloadSession)
  | .originate sourcePid destination destinationPubkey openStream kem =>
    agent.originate C sourcePid destination destinationPubkey openStream kem
  | .accept destPid acceptStream rand => agent.accept C destPid acceptStream rand

def AgentCall.direction (ws : WorkloadSession) : AgentCall → SpiffeId × SpiffeId
  | .originate .. => (ws.localSvid.id, ws.peer)
  | .accept .. => (ws.peer, ws.localSvid.id)

structure AgentCall.Names (agent : NodeAgent) (call : AgentCall) (ws : WorkloadSession) : Prop where
  bound : agent.peers.resolve ws.session.peerIdentity = some ws.peer
  allowed : agent.l4.Allows (call.direction ws).1 (call.direction ws).2

/-- A session is originated only with a pin the directory binds to the destination. -/
def AgentCall.Pinned (agent : NodeAgent) : AgentCall → Prop
  | .originate _ destination destinationPubkey _ _ =>
    ∃ pubkey, destinationPubkey = some pubkey ∧ agent.peers.resolve pubkey = some destination
  | .accept .. => True

/-- Calls of one agent that run at the same time, each answered by whoever is at the other end. -/
abbrev AgentCalls :=
  List (Dialogue.Session AgentCall IoError Bytes Bytes Empty (Except AgentError WorkloadSession))

def PinnedMove (agent : NodeAgent) (_ : AgentCalls) : Dialogue.Move AgentCall IoError Bytes → Prop
  | .start call => call.Pinned agent
  | .answer .. => True

end Npamp.Mesh
