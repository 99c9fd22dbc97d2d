import Npamp.Mesh.Agent
import Npamp.Proof.Interop

/-!
# Whom a workload session names

`accept` takes the peer's name from the directory. `originate` returns the destination it was asked
for.
-/

open Dialogue

namespace Npamp.Rust

theorem eq_of_checkPin {expectedPeer : Option Bytes} {peer : Bytes} {name : String}
    (h : checkPin expectedPeer peer name = .ok ()) : ∀ key ∈ expectedPeer, peer = key := by
  rintro key hkey
  cases hkey
  rw [checkPin] at h
  by_contra hne
  rw [if_pos hne] at h
  cases h

variable {C : Crates} {identity : Bytes} {expectedPeer : Option Bytes}

theorem returns_recvAuth (side : AuthSide) (secret t : Bytes) :
    Returns (fun r => ∀ key ∈ expectedPeer, r.1 = key)
      (recvAuth C side secret t expectedPeer) := by
  unfold recvAuth
  refine returns_bind fun wire => returns_ofExcept_bind fun f _ => ?_
  refine returns_ofExcept_bind fun pt _ => returns_ofExcept_bind fun auth _ => ?_
  refine returns_ofExcept_bind fun vk _ => returns_ofExcept_bind fun thId _ => ?_
  split
  · exact returns_fail _
  refine returns_ofExcept_bind fun finKey _ => returns_ofExcept_bind fun thCv _ => ?_
  refine returns_ofExcept_bind fun verified _ => ?_
  split
  · exact returns_fail _
  refine returns_ofExcept_bind fun peer _ => returns_ofExcept_bind fun _ hpin => ?_
  exact returns_pure (eq_of_checkPin hpin)

theorem returns_dialWithEphemeral (kem : KEMClient) :
    Returns (fun session => ∀ key ∈ expectedPeer, session.peerIdentity = key)
      (dialWithEphemeral C identity expectedPeer kem) := by
  unfold dialWithEphemeral
  refine returns_bind fun _ => returns_bind fun shWire => returns_ofExcept_bind fun shVals _ => ?_
  refine returns_ofExcept_bind fun ss _ => returns_ofExcept_bind fun secrets _ => ?_
  refine (returns_recvAuth _ _ _).bind fun auth hauth => returns_bind fun _ => ?_
  refine returns_ofExcept_bind fun thCcv _ => returns_ofExcept_bind fun master _ => ?_
  exact returns_pure hauth

end Npamp.Rust

namespace Npamp.Mesh

open Rust

variable {C : Crates} {agent : NodeAgent}

theorem names_of_checkPeer {localSvid : Svid} {stream : UInt32} {session : Session}
    {ws : WorkloadSession} {destPid : UInt32} {acceptStream : Except IoError UInt32}
    {rand : KEMRandom} (h : agent.checkPeer localSvid stream session = .ok ws) :
    (AgentCall.accept destPid acceptStream rand).Names agent ws := by
  rw [NodeAgent.checkPeer] at h
  split at h
  · cases h
  rename_i source hsource
  split at h
  · cases h
  rename_i hallow
  cases h
  exact ⟨hsource, of_not_not hallow⟩

theorem returns_call {call : AgentCall} (hpinned : call.Pinned agent) :
    Returns (fun r => ∀ ws, r = .ok ws → call.Names agent ws) (call.run C agent) := by
  cases call with
  | originate sourcePid destination destinationPubkey openStream kem =>
    obtain ⟨pubkey, rfl, hbound⟩ := hpinned
    rw [AgentCall.run, NodeAgent.originate]
    split
    · exact returns_pure nofun
    rename_i localSvid _
    split
    · exact returns_pure nofun
    rename_i hallow
    split
    · exact returns_pure nofun
    refine (returns_dialWithEphemeral kem).attempt.bind fun r hr => ?_
    cases r with
    | error e => exact returns_pure nofun
    | ok session =>
      apply returns_pure
      intro ws hws
      cases hws
      refine ⟨?_, of_not_not hallow⟩
      rw [hr session rfl pubkey rfl]
      exact hbound
  | accept destPid acceptStream rand =>
    rw [AgentCall.run, NodeAgent.accept]
    split
    · exact returns_pure nofun
    split
    · exact returns_pure nofun
    refine returns_bind fun r => ?_
    cases r with
    | error e => exact returns_pure nofun
    | ok session => exact returns_pure fun ws hws => names_of_checkPeer hws

/-- **A workload session names a proven and authorized peer**, if every session is originated with a
pin the directory binds to its destination. -/
theorem workload_session_names_proven_peer {w : AgentCalls}
    (hreach : Run.Reaches (Dialogue.step (AgentCall.run C agent)) (PinnedMove agent) [] w) :
    ∀ s ∈ w, ∀ ws, s.outcome = some (.ok (.ok ws)) → s.party.Names agent ws := by
  intro s hs ws houtcome
  exact Dialogue.returns_of_reaches (fun _ hparty => returns_call hparty) (fun _ _ h => h) hreach
    s hs _ houtcome ws rfl

theorem follows_originate {sourcePid : UInt32} {destination : SpiffeId} {pin : Option Bytes}
    {stream : UInt32} {kem : KEMClient} {svid : Svid} {session : Session}
    {script : List (Exchange Bytes Bytes)}
    (hsvid : agent.identitySource sourcePid = .ok svid) (hallow : agent.l4.Allows svid.id destination)
    (hdial : Follows (dialWithEphemeral C svid.signingKey pin kem) script (.ok session)) :
    Follows (AgentCall.run C agent (.originate sourcePid destination pin (.ok stream) kem))
      script (.ok (.ok ⟨svid, destination, session, stream⟩)) := by
  have hcheck : ¬ (agent.l4.check svid.id destination).1 ≠ .allow := not_not_intro hallow
  rw [AgentCall.run, NodeAgent.originate, hsvid]
  dsimp only
  rw [if_neg hcheck, ← List.append_nil script]
  exact hdial.attempt.bind (follows_pure _)

def clientId : SpiffeId :=
  ⟨"cluster.local".toList, "ns/prod/sa/client".toList, by decide +kernel, by decide +kernel⟩

def backendId : SpiffeId :=
  ⟨"cluster.local".toList, "ns/prod/sa/backend".toList, by decide +kernel, by decide +kernel⟩

def clientAgent : NodeAgent where
  identitySource _ := .ok ⟨clientId, [2]⟩
  l4 := AuthzTable.new.allow clientId backendId
  peers := PeerDirectory.new.register (pad 32 [1]) backendId

def dialBackend (pin : Option Bytes) : AgentCall :=
  .originate 100 backendId pin (.ok 1) ⟨List.replicate 64 4, List.replicate 32 5, rfl, rfl⟩

theorem clientAgent_originates (ok : AgentCalls → Dialogue.Move AgentCall IoError Bytes → Prop)
    (serverKey : Bytes) (pin : Option Bytes) (hpin : ∀ key ∈ pin, key = pad 32 serverKey)
    (hstart : ok [] (.start (dialBackend pin))) (hanswer : ∀ w i a, ok w (.answer i a)) :
    ∃ s ws, Run.Reaches (step (AgentCall.run plainCrates clientAgent)) ok [] [s]
      ∧ s.party = dialBackend pin ∧ s.outcome = some (.ok (.ok ws)) ∧ ws.peer = backendId
      ∧ ws.session.peerIdentity = pad 32 serverKey := by
  obtain ⟨x, hx, hprofiles, hclient, rfl, hshare, hss, -⟩ :=
    exists_flow plainCrates_agrees standardOnly_default (by decide)
      ⟨List.replicate 64 4, List.replicate 32 5, rfl, rfl⟩ ⟨[], List.replicate 32 3, rfl⟩ [2]
      serverKey
  have hdial := follows_dialWithEphemeral plainCrates_agrees hx hprofiles hshare hss hclient.symm
    hpin
  have hallow : (clientAgent.l4.check clientId backendId).1 = .allow := by decide +kernel
  have hcall : Follows (AgentCall.run plainCrates clientAgent (dialBackend pin)) _ _ :=
    follows_originate rfl hallow hdial
  obtain ⟨s, hreach, hparty, houtcome⟩ := hcall.reaches hstart hanswer
  exact ⟨s, _, hreach, hparty, houtcome, rfl, rfl⟩

theorem workload_session_names_proven_peer_pinned :
    ∃ w : AgentCalls, Run.Reaches (Dialogue.step (AgentCall.run plainCrates clientAgent))
        (PinnedMove clientAgent) [] w
      ∧ ∃ s ∈ w, ∃ ws, s.outcome = some (.ok (.ok ws)) ∧ s.party.Names clientAgent ws := by
  have hpinned : (dialBackend (some (pad 32 [1]))).Pinned clientAgent :=
    ⟨_, rfl, by decide +kernel⟩
  obtain ⟨s, ws, hreach, -, houtcome, -, -⟩ :=
    clientAgent_originates (PinnedMove clientAgent) [1] (some (pad 32 [1]))
      (fun key hkey => (Option.mem_some_iff.mp hkey).symm) hpinned fun _ _ _ => trivial
  exact ⟨[s], hreach, s, List.mem_singleton_self s, ws, houtcome,
    workload_session_names_proven_peer hreach s (List.mem_singleton_self s) ws houtcome⟩

/-- **Without a pin anyone is the destination.** The directory binds no identity to the key that was
proven, and the session is returned with the backend's name. -/
theorem unpinned_session_names_unproven_peer :
    ∃ w : AgentCalls, Run.Reaches (Dialogue.step (AgentCall.run plainCrates clientAgent))
        (fun _ _ => True) [] w
      ∧ ∃ s ∈ w, ∃ ws, s.party = dialBackend none ∧ s.outcome = some (.ok (.ok ws))
        ∧ ws.peer = backendId ∧ clientAgent.peers.resolve ws.session.peerIdentity = none := by
  obtain ⟨s, ws, hreach, hparty, houtcome, hpeer, hkey⟩ :=
    clientAgent_originates (fun _ _ => True) [3] none nofun trivial fun _ _ _ => trivial
  refine ⟨[s], hreach, s, List.mem_singleton_self s, ws, hparty, houtcome, hpeer, ?_⟩
  rw [hkey]
  decide +kernel

end Npamp.Mesh
