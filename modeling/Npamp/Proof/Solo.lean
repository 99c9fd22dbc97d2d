import Npamp.Proof.Step

/-!
# One endpoint on its own

The endpoint with an arbitrary transport: each write ends as the transport likes, and any octets may
arrive.
-/

namespace Npamp

/-- What an endpoint is exposed to: a step of its own with the transport's answer to the write in
it, or an inbound frame. -/
inductive Input where
  | act (ev : Event) (answer : WriteResult)
  | recv (wire : Bytes)

def Endpoint.step (P : Primitives) (e : Endpoint) : Input → Option Endpoint
  | .act ev answer => e.act P ev answer
  | .recv wire => e.recv P wire

namespace Conn

variable {P : Primitives}

/-- The effects of the type switch on a connection, for a frame on `ch`. -/
inductive Handled (P : Primitives) (c : Conn) (ch : ChannelID) : Conn → Prop
  | same : Handled P c ch c
  | keyUpdate (epoch : UInt64) :
      Handled P c ch
        { c with
          recvKeys := Function.update c.recvKeys ch
            (some (trafficKeys P c.masterRecv c.recvDir epoch ch)) }
  | keyUpdateAck (epoch : UInt64) : Handled P c ch (c.removePendingKeyUpdateAck ch epoch)
  | masterRatchet (root : Bytes) (gen : UInt64) : Handled P c ch (c.adoptRecvRoot root gen)
  | masterRatchetAck (gen : UInt64) : Handled P c ch (c.removePendingRatchetAck gen)
  | reKEMConsumed : Handled P c ch { c with pendingReKEM := none }
  | reKEMHealed (root : Bytes) (gen : UInt64) :
      Handled P c ch (adoptRecvRoot { c with pendingReKEM := none } root gen)
  | closeAck :
      Handled P c ch
        { c with
          closing := false
          closeAckCh := none
          signalled := c.closeAckCh.toList ++ c.signalled }

theorem keyUpdateReceived_handled (c : Conn) (ch : ChannelID) (st : EpochKeys) (pt : Bytes) :
    c.Handled P ch (c.keyUpdateReceived P ch st pt).conn := by
  unfold keyUpdateReceived
  split
  · split <;> exact .same
  rename_i c' task hhandled
  unfold handleKeyUpdate at hhandled
  split at hhandled
  · cases hhandled
  split at hhandled
  · cases hhandled
  rw [EpochKeys.advance_eq c.hasSuite] at hhandled
  cases hhandled
  exact .keyUpdate _

theorem keyUpdateAckReceived_handled (c : Conn) (ch : ChannelID) (pt : Bytes) :
    c.Handled P ch (c.keyUpdateAckReceived ch pt).conn := by
  cases hparse : parseKeyUpdateMarker pt with
  | error e =>
    rw [keyUpdateAckReceived, hparse]
    exact .same
  | ok epoch =>
    rcases keyUpdateAckReceived_cases (c := c) ch hparse with ⟨-, err, hstep⟩ | ⟨-, hstep⟩
    · rw [hstep]
      exact .same
    · rw [hstep]
      exact .keyUpdateAck epoch

theorem masterRatchetReceived_handled (c : Conn) (ch : ChannelID) (pt : Bytes) :
    c.Handled P ch (c.masterRatchetReceived P ch pt).conn := by
  unfold masterRatchetReceived
  split
  · exact .same
  rename_i c' task hhandled
  unfold handleMasterRatchet at hhandled
  split at hhandled
  · cases hhandled
  split at hhandled
  · cases hhandled
  split at hhandled
  · cases hhandled
  cases hhandled
  exact .masterRatchet _ _

theorem masterRatchetAckReceived_handled (c : Conn) (ch : ChannelID) (pt : Bytes) :
    c.Handled P ch (c.masterRatchetAckReceived pt).conn := by
  cases hparse : parseRatchetGenMarker pt with
  | error e =>
    rw [masterRatchetAckReceived, hparse]
    exact .same
  | ok gen =>
    rcases masterRatchetAckReceived_cases (c := c) hparse with ⟨-, err, hstep⟩ | ⟨-, hstep⟩
    · rw [hstep]
      exact .same
    · rw [hstep]
      exact .masterRatchetAck gen

theorem completeReKEM_eq_ok {c c' : Conn} {pend : PendingReKEM} {kemCT : Bytes} {gen : UInt64}
    (h : c.completeReKEM P pend kemCT gen = .ok c') : ∃ root, c' = c.adoptRecvRoot root gen := by
  unfold completeReKEM at h
  split at h
  · cases h
  split at h
  · cases h
  split at h
  · cases h
  split at h
  · cases h
  cases h
  exact ⟨_, rfl⟩

theorem handleReKEMAck_handled (c : Conn) (ch : ChannelID) (pt : Bytes) :
    c.Handled P ch (c.handleReKEMAck P pt).1 := by
  unfold handleReKEMAck
  split
  · exact .same
  split
  · exact .same
  dsimp only
  split
  · exact .reKEMConsumed
  · rename_i c' hcompleted
    obtain ⟨root, rfl⟩ := completeReKEM_eq_ok hcompleted
    exact .reKEMHealed root _

theorem reKEMAckReceived_handled (c : Conn) (ch : ChannelID) (pt : Bytes) :
    c.Handled P ch (c.reKEMAckReceived P pt).conn := by
  have hhandled := handleReKEMAck_handled (P := P) c ch pt
  unfold reKEMAckReceived
  generalize c.handleReKEMAck P pt = result at hhandled
  obtain ⟨c', err⟩ := result
  cases err with
  | none => exact hhandled
  | some err =>
    dsimp only
    split <;> exact hhandled

theorem closeAckReceived_handled (c : Conn) (ch : ChannelID) :
    c.Handled P ch c.closeAckReceived.conn := by
  rcases closeAckReceived_cases (c := c) with ⟨hclosing, err, hstep⟩ | ⟨hclosing, hstep⟩
  · rw [hstep]
    exact .same
  · rw [hstep, signalCloseAck, if_pos hclosing]
    exact .closeAck

/-- **The type switch does one of these things to the connection.** -/
theorem dispatch_handled (c : Conn) (st : EpochKeys) (ch : ChannelID) (ft : FrameType)
    (pt : Bytes) : c.Handled P ch (c.dispatch P st ch ft pt).conn := by
  refine dispatch_cases (motive := fun r => c.Handled P ch r.conn) c st pt ch ft
    (keyUpdateReceived_handled c ch st pt) (keyUpdateAckReceived_handled c ch pt) (fun _ => .same)
    (masterRatchetReceived_handled c ch pt) (masterRatchetAckReceived_handled c ch pt) ?_
    (reKEMAckReceived_handled c ch pt) ?_ (closeAckReceived_handled c ch) ?_ fun _ => .same
  · unfold reKEMReceived
    split <;> exact .same
  · unfold closeReceived
    split <;> exact .same
  · unfold errorReceived
    split <;> exact .same

def sendSide (c : Conn) : Bytes × UInt64 × Direction × (ChannelID → Option EpochKeys) × Bool :=
  (c.masterSend, c.genSend, c.sendDir, c.sendKeys, c.closed)

theorem Handled.sendSide_eq {c c' : Conn} {ch : ChannelID} (h : c.Handled P ch c') :
    c'.sendSide = c.sendSide := by
  cases h <;> rfl

/-- **The receive path leaves the send direction alone**, whatever arrives. -/
theorem recvOnce_sendSide (c : Conn) (wire : Bytes) :
    (c.recvOnce P wire).conn.sendSide = c.sendSide := by
  unfold recvOnce
  split
  · rfl
  split
  · rfl
  cases hclosed : c.closed with
  | true =>
    rw [recvState, if_pos hclosed]
    rfl
  | false =>
    rw [recvState_eq hclosed]
    dsimp only
    split
    · rfl
    split
    · rfl
    · rw [bumpRecv_cacheRecv]
      exact (dispatch_handled _ _ _ _ _).sendSide_eq

end Conn

namespace Endpoint

variable {P : Primitives} {e e' : Endpoint}

/-- What receiving leaves as it was. -/
theorem recv_frame {wire : Bytes} (h : e.recv P wire = some e') :
    e.Receiving ∧ e'.conn = (e.conn.recvOnce P wire).conn ∧ e'.rawClosed = e.rawClosed
      ∧ e'.hold = e.hold ∧ e'.nextCh = e.nextCh ∧ e'.handed = e.handed := by
  unfold recv at h
  split at h
  · cases h
  rename_i hbusy
  have hreceiving : e.Receiving := by simpa [Receiving] using hbusy
  cases h
  refine ⟨hreceiving, ?_⟩
  generalize e.conn.recvOnce P wire = r
  cases r with
  | again c task => exact ⟨rfl, rfl, rfl, rfl, rfl⟩
  | ret c ch ft pt act =>
    cases act with
    | deliver err => cases err <;> exact ⟨rfl, rfl, rfl, rfl, rfl⟩
    | _ => exact ⟨rfl, rfl, rfl, rfl, rfl⟩

theorem sendView_of_recv {wire : Bytes} (h : e.recv P wire = some e') :
    e'.conn.sendView P = e.conn.sendView P ∧ e'.conn.sendKeys = e.conn.sendKeys
      ∧ e'.conn.closed = e.conn.closed := by
  obtain ⟨-, hconn, -⟩ := recv_frame h
  have hside := Conn.recvOnce_sendSide (P := P) e.conn wire
  rw [← hconn] at hside
  simp only [Conn.sendSide, Prod.mk.injEq] at hside
  obtain ⟨hroot, hgen, hdir, hkeys, hclosed⟩ := hside
  exact ⟨by simp only [Conn.sendView, hroot, hgen, hdir, hkeys], hkeys, hclosed⟩

end Endpoint

end Npamp
