import Npamp.Proof.Control
import Npamp.Proof.Framers

/-!
# From `Send` to the peer's `Recv`

`Send` checks neither channel nor frame type, while the receive loop keeps the Control channel and
the key-update types to itself.
-/

namespace Npamp

namespace Conn

section Calls

variable (P : Primitives) (c : Conn)

def writeWire (wire : Bytes) (fault : Option GoError) : Option GoError :=
  if wire.length < headerSize then
    errorf ("npamp/sdk: frame too short (" ++ toString wire.length ++ " < " ++ toString headerSize
      ++ ")")
  else if wire.length > maxFrameSize then
    errorf ("npamp/sdk: frame size " ++ toString wire.length ++ " exceeds max "
      ++ toString maxFrameSize)
  else fault

def send (ch : ChannelID) (ft : FrameType) (payload : Bytes) (fault : Option GoError) :
    Conn × Except GoError Bytes :=
  match c.sendLocked P ch ft payload with
  | (c, .refused none) => (c, .ok [])
  | (c, .refused (some e)) => (c, .error e)
  | (c, .sealed st m) =>
    match writeWire (m.wire P st) fault with
    | some e => (c.afterWrite P m false, .error e)
    | none => (c.afterWrite P m true, .ok (m.wire P st))

def recvNext (arrived : Bytes) (written : Bool) : RecvResult × Bytes :=
  match Sdk.readFrame arrived with
  | .error e => (.error c [] e, [])
  | .ok (wire, rest) => (c.recv P wire written, rest)

/-- `c'` is `c`, but for epoch-0 keys that were derived and cached in between. -/
def Unchanged (c' : Conn) : Prop :=
  c' = { c with sendKeys := c'.sendKeys } ∧ c'.sendView P = c.sendView P

/-- Both ends are open, and `receiver` expects the frame that `sender` seals next. -/
structure InSync (sender receiver : Conn) : Prop where
  sender_open : sender.closed = false
  receiver_open : receiver.closed = false
  views : sender.sendView P = receiver.recvView P

end Calls

variable {P : Primitives} {s r : Conn} {ch : ChannelID} {ft : FrameType} {payload : Bytes}

theorem unchanged_cacheSend (c : Conn) (ch : ChannelID) : c.Unchanged P (c.cacheSend P ch) :=
  ⟨rfl, sendView_cacheSend c ch⟩

theorem cacheSend_of_exhausted {c : Conn} (hseq : ((c.sendView P).keys ch).seq = maxUint64) :
    c.cacheSend P ch = c := by
  cases hkeys : c.sendKeys ch with
  | none =>
    simp only [sendView, hkeys, Option.getD_none] at hseq
    exact absurd hseq (by decide : (0 : UInt64) ≠ maxUint64)
  | some st =>
    have hself : Function.update c.sendKeys ch (some st) = c.sendKeys := by
      rw [← hkeys, Function.update_eq_self]
    simp only [cacheSend, sendView, hkeys, Option.getD_some, hself]

theorem send_exhausted (hs : s.closed = false) (hseq : ((s.sendView P).keys ch).seq = maxUint64)
    (ft : FrameType) (payload : Bytes) (fault : Option GoError) :
    ∃ e, s.send P ch ft payload fault = (s, .error e) := by
  simp only [send, sendLocked, sendState_eq hs, if_pos hseq, cacheSend_of_exhausted hseq]
  exact ⟨_, rfl⟩

theorem send_sealed (hs : s.closed = false) (hseq : ((s.sendView P).keys ch).seq ≠ maxUint64)
    (ft : FrameType) (payload : Bytes) (fault : Option GoError) : s.send P ch ft payload fault
      = match writeWire (sealWith P ((s.sendView P).keys ch) ch ft payload) fault with
        | some e => (s.cacheSend P ch, .error e)
        | none => ((s.cacheSend P ch).afterWrite P (.app ch ft payload) true,
            .ok (sealWith P ((s.sendView P).keys ch) ch ft payload)) := by
  simp only [send, sendLocked, sendState_eq hs, if_neg hseq]
  rfl

/-- The reasons for which `Send` refuses what it is given: the sequence space of the channel is used
up, the frame is too long, or the transport fails. -/
def Refuses (P : Primitives) (c : Conn) (ch : ChannelID) (payload : Bytes)
    (fault : Option GoError) : Prop :=
  ((c.sendView P).keys ch).seq = maxUint64 ∨ maxFrameSize < headerSize + (payload.length + 16)
    ∨ fault ≠ none

theorem writeWire_sealWith (hP : P.Correct) (st : EpochKeys) {fault : Option GoError} :
    writeWire (sealWith P st ch ft payload) fault = none
      ↔ headerSize + (payload.length + 16) ≤ maxFrameSize ∧ fault = none := by
  have hlength : (sealWith P st ch ft payload).length = headerSize + (payload.length + 16) :=
    length_wire hP st (.app ch ft payload)
  rw [writeWire, hlength, if_neg (by omega)]
  split_ifs with hlong
  · exact iff_of_false nofun fun h => absurd h.1 (Nat.not_le.mpr hlong)
  · exact (and_iff_right (Nat.not_lt.mp hlong)).symm

theorem length_le_of_writeWire {wire : Bytes} {fault : Option GoError}
    (h : writeWire wire fault = none) : wire.length ≤ maxFrameSize := by
  unfold writeWire at h
  split_ifs at h with hshort hlong
  exact Nat.not_lt.mp hlong

theorem recvNext_sealWith (hP : P.Correct) (hr : r.closed = false)
    (hsize : (sealWith P ((r.recvView P).keys ch) ch ft payload).length ≤ maxFrameSize)
    (rest : Bytes) (written : Bool) :
    r.recvNext P (sealWith P ((r.recvView P).keys ch) ch ft payload ++ rest) written
      = (r.recv P (sealWith P ((r.recvView P).keys ch) ch ft payload) written, rest)
    ∧ r.recvOnce P (sealWith P ((r.recvView P).keys ch) ch ft payload)
      = (r.opened P ch).dispatch P ((r.recvView P).keys ch).next ch ft payload := by
  have hfits : payload.length + 16 < 2 ^ 32 := by
    have hlength := length_wire hP ((r.recvView P).keys ch) (.app ch ft payload)
    have hmax : maxFrameSize < 2 ^ 32 := by decide
    dsimp only [Outgoing.wire, Outgoing.channel, Outgoing.type, Outgoing.plaintext] at hlength
    omega
  obtain ⟨f, hparse, -⟩ := opens_sealWith hP r ch ft hfits
  have hframed := framed_of_unmarshalBinary hparse hsize
  rw [recvNext, Sdk.readFrame_eq_ok.mpr ⟨rfl, hframed⟩]
  exact ⟨rfl, recvOnce_sealWith hP hr hfits⟩

/-- **What `Send` accepts the peer delivers, exactly if it is an application channel and type or
`Send` refuses it**: then the two ends are in step again, or the sender is as it was. -/
theorem send_delivers (hP : P.Correct) (h : InSync P s r) (ch : ChannelID) (ft : FrameType)
    (payload : Bytes) (fault : Option GoError) (rest : Bytes) (written : Bool) :
    ((∃ s' e, s.send P ch ft payload fault = (s', .error e) ∧ s.Unchanged P s')
      ∨ ∃ s' wire r', s.send P ch ft payload fault = (s', .ok wire)
          ∧ r.recvNext P (wire ++ rest) written = (.frame r' ch ft payload, rest)
          ∧ InSync P s' r')
      ↔ s.Refuses P ch payload fault ∨ IsApplication ch ft := by
  by_cases hseq : ((s.sendView P).keys ch).seq = maxUint64
  · obtain ⟨e, heq⟩ := send_exhausted h.sender_open hseq ft payload fault
    exact iff_of_true (.inl ⟨s, e, heq, rfl, rfl⟩) (.inl (.inl hseq))
  rw [send_sealed h.sender_open hseq]
  cases hwrite : writeWire (sealWith P ((s.sendView P).keys ch) ch ft payload) fault with
  | some e =>
    refine iff_of_true (.inl ⟨_, e, rfl, unchanged_cacheSend s ch⟩) (.inl (.inr ?_))
    by_contra hnone
    rw [not_or, not_lt, not_not, ← writeWire_sealWith hP, hwrite] at hnone
    cases hnone
  | none =>
    have haccepted : ¬ s.Refuses P ch payload fault := by
      obtain ⟨hshort, hfault⟩ := (writeWire_sealWith hP _).mp hwrite
      exact not_or.mpr ⟨hseq, not_or.mpr ⟨not_lt.mpr hshort, not_not.mpr hfault⟩⟩
    rw [h.views] at hwrite ⊢
    obtain ⟨hnext, honce⟩ :=
      recvNext_sealWith hP h.receiver_open (length_le_of_writeWire hwrite) rest written
    rw [or_iff_right haccepted]
    constructor
    · rintro (⟨_, _, heq, -⟩ | ⟨_, _, r', heq, hrecv, -⟩)
      · cases heq
      · cases heq
        by_contra hcontrol
        rw [hnext] at hrecv
        exact recv_ne_frame (honce ▸ dispatch_withholds hcontrol _ _ _) _ _ _ _ _
          (congrArg Prod.fst hrecv)
    · intro happlication
      rw [dispatch_application _ _ _ happlication] at honce
      refine .inr ⟨_, _, r.opened P ch, rfl, ?_, ?_, h.receiver_open, ?_⟩
      · rw [hnext, recv, honce]
        rfl
      · rw [closed_afterWrite]
        exact h.sender_open
      · rw [sendView_afterWrite (m := .app ch ft payload) (sendKeys_cacheSend_self s ch),
          sendView_cacheSend, recvView_opened, ← h.views]
        rfl

theorem inSync_newConn (P : Primitives) (master : Bytes) (there back : Direction) :
    InSync P (newConn master there back) (newConn master back there) :=
  ⟨rfl, rfl, rfl⟩

theorem send_delivers_greeting : IsApplication 1 0x0100
      ∧ ∃ s' wire r', (newConn [7] .clientToServer .serverToClient).send plain 1 0x0100 [104, 105]
            none = (s', .ok wire)
          ∧ (newConn [7] .serverToClient .clientToServer).recvNext plain (wire ++ []) true
            = (.frame r' 1 0x0100 [104, 105], [])
          ∧ InSync plain s' r' := by
  refine ⟨by decide, ?_⟩
  have hsync := inSync_newConn plain [7] .clientToServer .serverToClient
  rcases (send_delivers plain_correct hsync 1 0x0100 [104, 105] none [] true).mpr
    (.inr (by decide)) with ⟨s', e, heq, -⟩ | hdelivered
  · have hok : (((newConn [7] .clientToServer .serverToClient).send plain 1 0x0100 [104, 105]
        none).2.isOk) = true := by decide +kernel
    rw [heq] at hok
    cases hok
  · exact hdelivered

theorem recvNext_close (hP : P.Correct) (hr : r.closed = false)
    (hsize : (sealWith P ((r.recvView P).keys chanControl) chanControl frameClose []).length
      ≤ maxFrameSize) (rest : Bytes) (written : Bool) : ∃ r' sent, r.recvNext P
        (sealWith P ((r.recvView P).keys chanControl) chanControl frameClose [] ++ rest) written
          = (.error r' sent Sentinel.errPeerClosed.err, rest)
      ∧ r'.closed = true := by
  obtain ⟨hnext, honce⟩ := recvNext_sealWith hP hr hsize rest written
  rw [dispatch_close] at honce
  rw [hnext, recv, honce]
  exact ⟨_, _, rfl, rfl⟩

/-- **A caller of `Send` can end the association.** `Send` writes a CLOSE on the Control channel
like any other frame; the peer takes it for the end of the session, answers it and wipes its keys. -/
theorem send_closes_peer : ∃ s r s' wire r' sent, InSync plain s r
      ∧ s.send plain chanControl frameClose [] none = (s', .ok wire)
      ∧ r.recvNext plain (wire ++ []) true = (.error r' sent Sentinel.errPeerClosed.err, [])
      ∧ r'.closed = true := by
  have hsync := inSync_newConn plain [7] .clientToServer .serverToClient
  have hwrite : writeWire (sealWith plain (((newConn [7] .clientToServer .serverToClient).sendView
      plain).keys chanControl) chanControl frameClose []) none = none := by decide +kernel
  obtain ⟨r', sent, hrecv, hclosed⟩ :=
    recvNext_close plain_correct hsync.receiver_open (length_le_of_writeWire hwrite) [] true
  have hseq : (((newConn [7] .clientToServer .serverToClient).sendView plain).keys chanControl).seq
      ≠ maxUint64 := by decide +kernel
  have hsend := send_sealed hsync.sender_open hseq frameClose [] none
  rw [hwrite] at hsend
  exact ⟨_, _, _, _, r', sent, hsync, hsend, hrecv, hclosed⟩

end Conn

end Npamp
