import Npamp.Plain
import Npamp.Proof.Solo

/-!
# What may follow CLOSE and CLOSE_ACK

Neither frame stops the other senders of an endpoint, so what may follow depends on when the
application and the reactions of `Recv` take the write lock.
-/

namespace Npamp

namespace Outgoing

def isCloseFrame (m : Outgoing) : Bool := m.channel = chanControl && m.type = frameClose

def isCloseAckFrame (m : Outgoing) : Bool := m.channel = chanControl && m.type = frameCloseAck

def isApp : Outgoing → Bool
  | app _ _ _ => true
  | _ => false

theorem cases_of_isCloseFrame {m : Outgoing} (h : m.isCloseFrame = true) :
    (∃ ackCh, m = .close ackCh) ∨ ∃ ft payload, m = .app chanControl ft payload := by
  cases m with
  | close ackCh => exact .inl ⟨ackCh, rfl⟩
  | app ch ft payload =>
    simp only [isCloseFrame, Bool.and_eq_true, decide_eq_true_eq] at h
    obtain ⟨hch, -⟩ := h
    change ch = chanControl at hch
    exact .inr ⟨ft, payload, by rw [hch]⟩
  | _ => simp [isCloseFrame, type, frameClose, frameKeyUpdate, frameKeyUpdateAck, frameMasterRatchet,
      frameMasterRatchetAck, frameReKEM, frameReKEMAck, frameCloseAck, frameError] at h

theorem cases_of_isCloseAckFrame {m : Outgoing} (h : m.isCloseAckFrame = true) :
    m = .closeAck ∨ ∃ ft payload, m = .app chanControl ft payload := by
  cases m with
  | closeAck => exact .inl rfl
  | app ch ft payload =>
    simp only [isCloseAckFrame, Bool.and_eq_true, decide_eq_true_eq] at h
    obtain ⟨hch, -⟩ := h
    change ch = chanControl at hch
    exact .inr ⟨ft, payload, by rw [hch]⟩
  | _ => simp [isCloseAckFrame, type, frameClose, frameKeyUpdate, frameKeyUpdateAck, frameMasterRatchet,
      frameMasterRatchetAck, frameReKEM, frameReKEMAck, frameCloseAck, frameError] at h

end Outgoing

/-- A `Send` is for an application frame, and comes before any `CloseGraceful`. -/
def Call.yields (e : Endpoint) : Call → Bool
  | send ch ft _ => e.nextCh = 0 && IsApplication ch ft
  | _ => true

/-- On an open transport no body takes `wmu` between a reaction of `Recv` and its `Close`, and no
`Send` takes it once a `CloseGraceful` has. -/
def Endpoint.yields (e : Endpoint) : Input → Bool
  | .act ev _ =>
    match e.request ev with
    | some (call, _) => e.rawClosed || (e.reaction ≠ some .performed && call.yields e)
    | none => true
  | .recv _ => true

/-- What may follow a message that was written: nothing of the application after a close, nothing at
all after its acknowledgement. -/
def Handed.Allows (a b : Handed) : Prop :=
  a.result = .ok → b.result = .ok →
    (a.msg.isCloseFrame = true → b.msg.isApp = false) ∧ a.msg.isCloseAckFrame = false

variable {P : Primitives} {e e₁ e' : Endpoint}

namespace Endpoint

/-- A written CLOSE was sent by a `CloseGraceful`, a written CLOSE_ACK by a reaction of `Recv`. -/
structure Final (e : Endpoint) : Prop where
  close : ∀ a ∈ e.handed, a.result = .ok → a.msg.isCloseFrame = true → e.nextCh ≠ 0
  closeAck : ∀ a ∈ e.handed, a.result = .ok → a.msg.isCloseAckFrame = true →
    e.reaction = some .performed
  ordered : e.handed.Pairwise Handed.Allows

variable {ev : Event} {call : Call} {m : Outgoing}

theorem Requests.nextCh_le (h : e.Requests ev call e₁) : e.nextCh ≤ e₁.nextCh := by
  cases h with
  | sendClose => exact Nat.le_succ _
  | _ => exact Nat.le_refl _

theorem Requests.performed (h : e.Requests ev call e₁) (hperformed : e.reaction = some .performed) :
    e₁.reaction = some .performed := by
  cases h with
  | react hdue hcall => rfl
  | _ => exact hperformed

theorem not_yields_of_control {ft : FrameType} {payload : Bytes}
    (hmakes : call.Makes P e.conn (.app chanControl ft payload)) : call.yields e = false := by
  cases hmakes
  simp [Call.yields, IsApplication]

theorem Requests.of_isCloseFrame (h : e.Requests ev call e₁) (hmakes : call.Makes P e.conn m)
    (hyields : call.yields e = true) (hclose : m.isCloseFrame = true) : e₁.nextCh ≠ 0 := by
  rcases Outgoing.cases_of_isCloseFrame hclose with ⟨ackCh, rfl⟩ | ⟨ft, payload, rfl⟩
  · cases h with
    | sendClose => exact Nat.succ_ne_zero _
    | @respond i rand task htask => cases task <;> cases hmakes
    | @react act call hdue hcall => cases act <;> cases hcall <;> cases hmakes
    | _ => cases hmakes
  · rw [not_yields_of_control hmakes] at hyields
    cases hyields

theorem Requests.of_isCloseAckFrame (h : e.Requests ev call e₁) (hmakes : call.Makes P e.conn m)
    (hyields : call.yields e = true) (hcloseAck : m.isCloseAckFrame = true) :
    e₁.reaction = some .performed := by
  rcases Outgoing.cases_of_isCloseAckFrame hcloseAck with rfl | ⟨ft, payload, rfl⟩
  · exact (h.of_closeAck hmakes).2
  · rw [not_yields_of_control hmakes] at hyields
    cases hyields

theorem Final.keep (h : e.Final) (hhanded : e'.handed = e.handed) (hnextCh : e.nextCh ≤ e'.nextCh)
    (hreaction : e.reaction = some .performed → e'.reaction = some .performed) : e'.Final where
  close a ha hok hclose := by
    have hbefore := h.close a (hhanded ▸ ha) hok hclose
    omega
  closeAck a ha hok hcloseAck := hreaction (h.closeAck a (hhanded ▸ ha) hok hcloseAck)
  ordered := hhanded ▸ h.ordered

theorem writeWire_eq_ok {wire : Bytes} {answer : WriteResult}
    (h : e.writeWire wire answer = .ok) : e.rawClosed = false := by
  unfold writeWire at h
  split at h
  · cases h
  split at h
  · cases h
  · rename_i hraw
    rw [h] at hraw
    simpa using hraw

/-- **A frame sealed by a yielding call may follow all frames before it.** -/
theorem Final.sealing (h : e.Final) {answer : WriteResult} (hrequest : e.Requests ev call e₁)
    (hmakes : call.Makes P e.conn m) (hyields : e.yields (.act ev answer) = true) :
    (e₁.sealing P m answer).Final := by
  obtain ⟨hraw, hhanded⟩ : e₁.rawClosed = e.rawClosed ∧ e₁.handed = e.handed := by
    obtain ⟨_, _, _, _, rfl⟩ := hrequest.eq
    exact ⟨rfl, rfl⟩
  have hkept : ({ e₁ with handed := e.handed } : Endpoint).Final :=
    h.keep rfl hrequest.nextCh_le hrequest.performed
  simp only [yields, hrequest.request, Bool.or_eq_true, Bool.and_eq_true, decide_eq_true_eq]
    at hyields
  -- a frame that reached the transport found it open, so the call had to yield
  have hopen : e₁.writeWire (m.wire P ((e₁.conn.sendView P).keys m.channel)) answer = .ok →
      e.reaction ≠ some .performed ∧ call.yields e = true := by
    intro hok
    have hraw₁ := writeWire_eq_ok hok
    rw [hraw] at hraw₁
    rcases hyields with hclosed | hyields
    · rw [hraw₁] at hclosed
      cases hclosed
    · exact hyields
  simp only [Endpoint.sealing, hhanded]
  generalize e₁.writeWire (m.wire P ((e₁.conn.sendView P).keys m.channel)) answer = result
    at hopen ⊢
  split
  · exact ⟨hkept.close, hkept.closeAck, hkept.ordered⟩
  refine ⟨?_, ?_, ?_⟩
  · intro a ha hok hclose
    rcases List.mem_append.mp ha with ha | ha
    · exact hkept.close a ha hok hclose
    · obtain rfl := List.mem_singleton.mp ha
      exact hrequest.of_isCloseFrame hmakes (hopen hok).2 hclose
  · intro a ha hok hcloseAck
    rcases List.mem_append.mp ha with ha | ha
    · exact hkept.closeAck a ha hok hcloseAck
    · obtain rfl := List.mem_singleton.mp ha
      exact hrequest.of_isCloseAckFrame hmakes (hopen hok).2 hcloseAck
  · refine List.pairwise_append.mpr ⟨h.ordered, List.pairwise_singleton _ _, ?_⟩
    intro a ha b hb hok hok'
    obtain rfl := List.mem_singleton.mp hb
    obtain ⟨hreaction, hcall⟩ := hopen hok'
    refine ⟨fun hclose => ?_, ?_⟩
    · cases hmakes with
      | send hseq =>
        simp only [Call.yields, Bool.and_eq_true, decide_eq_true_eq] at hcall
        exact absurd hcall.1 (h.close a ha hok hclose)
      | _ => rfl
    · by_contra hcloseAck
      exact hreaction (h.closeAck a ha hok (Bool.not_eq_false _ ▸ hcloseAck))

/-- No step writes past what `Allows` permits. -/
theorem Final.step (h : e.Final) {input : Input} (hyields : e.yields input = true)
    (hstep : e.step P input = some e') : e'.Final := by
  cases input with
  | recv wire =>
    obtain ⟨hreceiving, -, -, -, hnextCh, hhanded⟩ := recv_frame hstep
    refine h.keep hhanded hnextCh.ge fun hperformed => ?_
    rw [hreceiving.2] at hperformed
    cases hperformed
  | act ev answer =>
    cases act_does hstep with
    | refused hhold hrequest hc hwhy =>
      have hhanded := hrequest.eq
      obtain ⟨_, _, _, _, heq⟩ := hhanded
      exact h.keep (by rw [heq]) hrequest.nextCh_le hrequest.performed
    | sealed hhold hrequest hopen hmakes => exact h.sealing hrequest hmakes hyields
    | _ => exact h.keep rfl (Nat.le_refl _) id

theorem final_start (c : Conn) : (newEndpoint c).Final where
  close := nofun
  closeAck := nofun
  ordered := List.Pairwise.nil

end Endpoint

/-- **CLOSE and CLOSE_ACK are final**, in every run of an endpoint whose senders yield to them. -/
theorem Endpoint.close_and_closeAck_final {c : Conn} {e : Endpoint}
    (hreach : Run.Reaches (Endpoint.step P) (fun e input => e.yields input = true)
      (newEndpoint c) e) : ∀ before a after, e.handed = before ++ a :: after → a.result = .ok →
      (a.msg.isCloseFrame = true → ∀ b ∈ after, b.result = .ok → b.msg.isApp = false)
        ∧ (a.msg.isCloseAckFrame = true → ∀ b ∈ after, b.result ≠ .ok) := by
  have hfinal : e.Final := hreach.invariant (Endpoint.final_start c)
    fun e input e' ih hyields hstep => ih.step hyields hstep
  intro before a after hhanded hok
  have hordered := hfinal.ordered
  rw [hhanded] at hordered
  have hafter : ∀ b ∈ after, a.Allows b :=
    (List.pairwise_cons.mp (List.pairwise_append.mp hordered).2.1).1
  refine ⟨fun hclose b hb hok' => (hafter b hb hok hok').1 hclose, fun hcloseAck b hb hok' => ?_⟩
  rw [(hafter b hb hok hok').2] at hcloseAck
  cases hcloseAck

def serverFrame (m : Outgoing) : Bytes :=
  m.wire plain (trafficKeys plain [7] .serverToClient 0 m.channel)

def Endpoint.writtenKinds (e : Endpoint) : List (Bool × Bool × Bool) :=
  (e.handed.filter (·.result = .ok)).map fun a =>
    (a.msg.isCloseFrame, a.msg.isCloseAckFrame, a.msg.isApp)

set_option maxRecDepth 100000 in
/-- A `Send` still writes behind the CLOSE of a `CloseGraceful`, and behind the CLOSE_ACK of `Recv`
until its `Close`. -/
theorem Endpoint.written_behind_close : (∃ e, Run.Reaches (Endpoint.step plain) (fun _ _ => True)
        (newEndpoint (newConn [7] .clientToServer .serverToClient)) e
      ∧ e.writtenKinds = [(true, false, false), (false, false, true)])
    ∧ ∃ e, Run.Reaches (Endpoint.step plain) (fun _ _ => True)
        (newEndpoint (newConn [7] .clientToServer .serverToClient)) e
      ∧ e.writtenKinds = [(false, true, false), (false, false, true)] :=
  ⟨Run.exists_reaches [.act .sendClose .ok, .act .finish .ok, .act (.send 5 32 [1]) .ok]
      (by decide +kernel),
    Run.exists_reaches [.recv (serverFrame (.close 0)), .act .react .ok, .act .finish .ok,
      .act (.send 5 32 [1]) .ok] (by decide +kernel)⟩

set_option maxRecDepth 100000 in
theorem Endpoint.close_and_closeAck_final_yielding :
    ∃ e, Run.Reaches (Endpoint.step plain) (fun e input => e.yields input = true)
        (newEndpoint (newConn [7] .clientToServer .serverToClient)) e
      ∧ e.writtenKinds = [(false, false, true), (true, false, false), (false, false, false),
          (false, true, false)]
      ∧ ∀ before a after, e.handed = before ++ a :: after → a.result = .ok →
        (a.msg.isCloseFrame = true → ∀ b ∈ after, b.result = .ok → b.msg.isApp = false)
          ∧ (a.msg.isCloseAckFrame = true → ∀ b ∈ after, b.result ≠ .ok) :=
  (Run.exists_reaches
    [.act (.send 5 32 [1]) .ok, .act .finish .ok, .act .sendClose .ok, .act .finish .ok,
      .act (.keyUpdate 5) .ok, .act .finish .ok, .recv (serverFrame (.close 0)), .act .react .ok,
      .act .finish .ok, .act .close .ok, .act (.send 5 32 [2]) .ok] (by decide +kernel)).imp
    fun _ ⟨hreach, he⟩ => ⟨hreach, he, Endpoint.close_and_closeAck_final hreach⟩

end Npamp
