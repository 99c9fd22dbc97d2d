import Npamp.Proof.Read

/-!
# What a step can do

One inversion lemma for the steps of an endpoint and one for those of the system. Every invariant is
derived from them.
-/

namespace Npamp

open Conn

namespace Endpoint

variable (P : Primitives)

def sealing (e : Endpoint) (m : Outgoing) (answer : WriteResult) : Endpoint :=
  let st := (e.conn.sendView P).keys m.channel
  let result := e.writeWire (m.wire P st) answer
  { e with
    conn := (e.conn.cacheSend P m.channel).register m
    hold := some { msg := m, wire := m.wire P st, written := result = .ok }
    handed := if result = .refused then e.handed else e.handed ++ [⟨st, m, result⟩] }

theorem exists_hold_sealing (e : Endpoint) (m : Outgoing) (answer : WriteResult) :
    ∃ h, (e.sealing P m answer).hold = some h ∧ h.msg = m
      ∧ (h.written = true
        ↔ e.writeWire (m.wire P ((e.conn.sendView P).keys m.channel)) answer = .ok) :=
  ⟨_, rfl, rfl, by simp only [decide_eq_true_eq]⟩

theorem handed_sealing (e : Endpoint) (m : Outgoing) {answer : WriteResult}
    (hasked : e.writeWire (m.wire P ((e.conn.sendView P).keys m.channel)) answer ≠ .refused) :
    (e.sealing P m answer).handed
      = e.handed ++ [⟨(e.conn.sendView P).keys m.channel, m,
          e.writeWire (m.wire P ((e.conn.sendView P).keys m.channel)) answer⟩] := by
  simp only [sealing, if_neg hasked]

/-- Which call on the connection an event makes, and what it takes from the endpoint. -/
inductive Requests (e : Endpoint) : Event → Call → Endpoint → Prop
  | send {ch : ChannelID} {ft : FrameType} {payload : Bytes} :
      Requests e (.send ch ft payload) (.send ch ft payload) e
  | keyUpdate {ch : ChannelID} : Requests e (.keyUpdate ch) (.keyUpdate ch) e
  | ratchetSend : Requests e .ratchetSend .ratchetSend e
  | reKEM {i : Nat} {client : KEMClient} (hkeyed : e.reKEMs[i]? = some (.keyed client)) :
      Requests e (.reKEM i) (.reKEM client) { e with reKEMs := e.reKEMs.eraseIdx i }
  | respond {i : Nat} {rand : KEMRandom} {task : Responder} (htask : e.responders[i]? = some task) :
      Requests e (.respond i rand) (task.call rand)
        { e with responders := e.responders.eraseIdx i }
  | sendClose : Requests e .sendClose (.sendClose e.nextCh) { e with nextCh := e.nextCh + 1 }
  | react {act : RecvAction} {call : Call} (hdue : e.reaction = some (.due act))
      (hcall : reactionCall act = some call) :
      Requests e .react call { e with reaction := some .performed }

/-- **The steps of an endpoint.** `e₁` is the endpoint without what the call consumes. -/
inductive Does (e : Endpoint) (answer : WriteResult) : Event → Endpoint → Prop
  | refused {ev : Event} {call : Call} {e₁ : Endpoint} {c : Conn} (hhold : e.hold = none)
      (hrequest : e.Requests ev call e₁)
      (hc : c = e.conn ∨ ∃ ch, c = e.conn.cacheSend P ch)
      (hwhy : e.conn.closed = false → call.Refusable P e.conn) :
      Does e answer ev { e₁ with conn := c }
  | sealed {ev : Event} {call : Call} {e₁ : Endpoint} {m : Outgoing} (hhold : e.hold = none)
      (hrequest : e.Requests ev call e₁) (hopen : e.conn.closed = false)
      (hmakes : call.Makes P e.conn m) :
      Does e answer ev (e₁.sealing P m answer)
  | finished {h : Hold} (hhold : e.hold = some h) : Does e answer .finish (e.finish P h)
  | reKEMCheck (hpending : e.conn.pendingReKEM = none) :
      Does e answer .reKEMCheck { e with reKEMs := e.reKEMs ++ [.checked] }
  | reKEMKeygen {i : Nat} {client : KEMClient} (hcall : e.reKEMs[i]? = some .checked) :
      Does e answer (.reKEMKeygen i client) { e with reKEMs := e.reKEMs.set i (.keyed client) }
  | closeAcked {ackCh : Nat} (hwaiting : ackCh ∈ e.closers)
      (hsignalled : ackCh ∈ e.conn.signalled) :
      Does e answer (.closeAcked ackCh) { e with closers := e.closers.erase ackCh }
  | closeAbandoned {ackCh : Nat} (hwaiting : ackCh ∈ e.closers) :
      Does e answer (.closeAbandoned ackCh)
        { e with
          conn := e.conn.clearClosing
          closers := e.closers.erase ackCh
          abandoned := true }
  | close : Does e answer .close { e with rawClosed := true }
  | zeroize (hraw : e.rawClosed = true) (hhold : e.hold = none) :
      Does e answer .zeroize { e with conn := e.conn.zeroize }

variable {P}

variable {e e₁ : Endpoint} {ev : Event} {call : Call}

theorem requests_of_request (h : e.request ev = some (call, e₁)) : e.Requests ev call e₁ := by
  unfold request at h
  split at h
  · cases h
    exact .send
  · cases h
    exact .keyUpdate
  · cases h
    exact .ratchetSend
  · split at h
    · cases h
      exact .reKEM ‹_›
    · cases h
  · split at h
    · cases h
      exact .respond ‹_›
    · cases h
  · cases h
    exact .sendClose
  · split at h
    · rename_i act hdue
      obtain ⟨call, hcall, hpair⟩ := Option.map_eq_some_iff.mp h
      cases hpair
      exact .react hdue hcall
    · cases h
  · cases h

theorem Requests.request (h : e.Requests ev call e₁) : e.request ev = some (call, e₁) := by
  cases h with
  | reKEM hkeyed => simp only [Endpoint.request, hkeyed]
  | respond htask => simp only [Endpoint.request, htask]
  | react hdue hcall => simp only [Endpoint.request, hdue, hcall, Option.map_some]
  | _ => rfl

theorem Requests.eq (h : e.Requests ev call e₁) : ∃ reKEMs responders nextCh reaction,
      e₁ = { e with
        reKEMs := reKEMs, responders := responders, nextCh := nextCh, reaction := reaction } := by
  cases h <;> exact ⟨_, _, _, _, rfl⟩

theorem does_begin {answer : WriteResult} (hhold : e.hold = none) (hrequest : e.Requests ev call e₁)
    : e.Does P answer ev (e₁.begin P call answer) := by
  obtain ⟨reKEMs, responders, nextCh, reaction, heq⟩ := hrequest.eq
  have hconn : e₁.conn = e.conn := by rw [heq]
  have hbegan := Call.began P e₁.conn call
  rw [begin]
  generalize call.begin P e₁.conn = result at hbegan
  cases hbegan with
  | refused hc hwhy =>
    rw [hconn] at hc hwhy
    exact .refused hhold hrequest hc hwhy
  | sealed hopen hmakes =>
    rw [hconn] at hopen hmakes
    exact .sealed hhold hrequest hopen hmakes

theorem act_does {e' : Endpoint} {answer : WriteResult} (h : e.act P ev answer = some e') :
    e.Does P answer ev e' := by
  cases ev with
  | reKEMCheck =>
    rw [act] at h
    split at h
    · cases h
    · rename_i hpending
      cases h
      exact .reKEMCheck (by simpa using hpending)
  | reKEMKeygen i client =>
    rw [act] at h
    split at h
    · rename_i hcall
      cases h
      exact .reKEMKeygen hcall
    · cases h
  | closeAcked ackCh =>
    rw [act] at h
    split at h
    · rename_i hack
      cases h
      exact .closeAcked hack.1 hack.2
    · cases h
  | closeAbandoned ackCh =>
    rw [act] at h
    split at h
    · rename_i hwaiting
      cases h
      exact .closeAbandoned hwaiting
    · cases h
  | finish =>
    rw [act] at h
    split at h
    · rename_i hold hhold
      cases h
      exact .finished hhold
    · cases h
  | close =>
    cases h
    exact .close
  | zeroize =>
    rw [act] at h
    split at h
    · rename_i hidle
      cases h
      exact .zeroize hidle.1 (by simpa using hidle.2)
    · cases h
  | _ =>
    -- the events that take `wmu`
    unfold act at h
    dsimp only at h
    split at h
    · cases h
    rename_i hhold
    split at h
    · rename_i call e₁ hrequest
      cases h
      exact does_begin (by simpa using hhold) (requests_of_request hrequest)
    · cases h

/-- The receive loop is about to read. -/
def Receiving (e : Endpoint) : Prop := e.rawClosed = false ∧ e.reaction = none

section Does

variable {e e' : Endpoint} {ev : Event} {answer : WriteResult}

theorem Does.rawClosed (h : e.Does P answer ev e') (hraw : e'.rawClosed = false) :
    e.rawClosed = false := by
  cases h with
  | refused hhold hrequest hc =>
    obtain ⟨_, _, _, _, rfl⟩ := hrequest.eq
    exact hraw
  | sealed hhold hrequest hopen hmakes =>
    obtain ⟨_, _, _, _, rfl⟩ := hrequest.eq
    exact hraw
  | close => cases hraw
  | _ => exact hraw

theorem Does.recvView (h : e.Does P answer ev e') (hraw : e'.rawClosed = false) :
    e'.conn.recvView P = e.conn.recvView P := by
  cases h with
  | refused hhold hrequest hc =>
    rcases hc with rfl | ⟨ch, rfl⟩
    · rfl
    · exact recvView_cacheSend e.conn ch
  | sealed hhold hrequest hopen hmakes =>
    obtain ⟨_, _, _, _, rfl⟩ := hrequest.eq
    exact recvView_register _ _
  | finished hhold => exact recvView_afterWrite _ _ _
  | zeroize hclosed hhold =>
    rw [hclosed] at hraw
    cases hraw
  | _ => rfl

theorem Requests.reaction {call : Call} {e₁ : Endpoint} (h : e.Requests ev call e₁)
    (hnone : e₁.reaction = none) : e.reaction = none := by
  cases h with
  | react hdue hcall => cases hnone
  | _ => exact hnone

theorem Requests.of_closeAck {call : Call} {e₁ : Endpoint} {c : Conn} (h : e.Requests ev call e₁)
    (hmakes : call.Makes P c .closeAck) :
    e.reaction = some (.due .closeAck) ∧ e₁.reaction = some .performed := by
  cases h with
  | @respond i rand task htask => cases task <;> cases hmakes
  | @react act call hdue hcall =>
    cases act with
    | closeAck => exact ⟨hdue, rfl⟩
    | emitError code err =>
      cases hcall
      cases hmakes
    | _ => cases hcall
  | _ => cases hmakes

theorem Does.reaction (h : e.Does P answer ev e') (hnone : e'.reaction = none) :
    e.reaction = none := by
  cases h with
  | refused hhold hrequest hc => exact hrequest.reaction hnone
  | sealed hhold hrequest hopen hmakes => exact hrequest.reaction hnone
  | _ => exact hnone

theorem Does.receiving (h : e.Does P answer ev e') (hreceiving : e'.Receiving) : e.Receiving :=
  ⟨h.rawClosed hreceiving.1, h.reaction hreceiving.2⟩

end Does

section Reads

variable {e e' : Endpoint} {m : Outgoing}

theorem Reads.rawClosed (h : e.Reads P m e') : e'.rawClosed = e.rawClosed := by
  cases h <;> rfl

theorem Reads.hold (h : e.Reads P m e') : e'.hold = e.hold := by
  cases h <;> rfl

theorem Reads.closed (h : e.Reads P m e') : e'.conn.closed = e.conn.closed := by
  cases h with
  | closeAck hclosing => simp only [signalCloseAck, opened, hclosing, if_true]
  | _ => rfl

theorem Reads.sendView (h : e.Reads P m e') : e'.conn.sendView P = e.conn.sendView P := by
  cases h with
  | closeAck hclosing =>
    simp only [signalCloseAck, opened, hclosing, if_true]
    rfl
  | _ => rfl

theorem Reads.sendKeys (h : e.Reads P m e') : e'.conn.sendKeys = e.conn.sendKeys := by
  cases h with
  | closeAck hclosing => simp only [signalCloseAck, opened, hclosing, if_true]
  | _ => rfl

theorem Reads.recvView (h : e.Reads P m e') (hvalid : m.Valid P (e.conn.recvView P))
    (hreaction : e'.reaction = none) : e'.conn.recvView P = (e.conn.recvView P).after P m := by
  cases h with
  | keyUpdate =>
    change _ = _ at hvalid
    simp only [recvView, View.after, getD_update_some, hvalid]
  | masterRatchet => rfl
  | reKEMAck hpending => rfl
  | close => cases hreaction
  | closeAck hclosing =>
    have hview : ((e.conn.opened P chanControl).signalCloseAck.1).recvView P
        = (e.conn.opened P chanControl).recvView P := by
      simp only [signalCloseAck, opened, hclosing, if_true]
      rfl
    exact hview.trans (recvView_opened e.conn _)
  | sessionError => cases hreaction
  | unsolicited hunsolicited => cases hreaction
  | _ => exact recvView_opened e.conn _

end Reads

end Endpoint

@[simp]
theorem Side.peer_peer (s : Side) : s.peer.peer = s := by cases s <;> rfl

theorem Side.peer_ne (s : Side) : s.peer ≠ s := by cases s <;> decide

theorem Side.ne_peer (s : Side) : s ≠ s.peer := by cases s <;> decide

theorem Side.eq_or_eq_peer (s t : Side) : t = s ∨ t = s.peer := by
  cases s <;> cases t <;> decide

namespace System

def acted (σ : System) (s : Side) (e : Endpoint) : System :=
  { ep := Function.update σ.ep s e
    net := Function.update σ.net s (σ.net s ++ written (σ.ep s) e) }

def received (σ : System) (r : Side) (e : Endpoint) (rest : List Flight) : System :=
  { ep := Function.update σ.ep r e, net := Function.update σ.net r.peer rest }

section Fields

variable (σ : System) (s : Side) (e : Endpoint) (rest : List Flight)

@[simp]
theorem ep_acted_self : (σ.acted s e).ep s = e := by simp [acted]

@[simp]
theorem ep_acted_peer : (σ.acted s e).ep s.peer = σ.ep s.peer := by simp [acted, s.peer_ne]

@[simp]
theorem net_acted_self : (σ.acted s e).net s = σ.net s ++ written (σ.ep s) e := by simp [acted]

@[simp]
theorem net_acted_peer : (σ.acted s e).net s.peer = σ.net s.peer := by simp [acted, s.peer_ne]

@[simp]
theorem ep_received_self : (σ.received s e rest).ep s = e := by simp [received]

@[simp]
theorem ep_received_peer : (σ.received s e rest).ep s.peer = σ.ep s.peer := by
  simp [received, s.peer_ne]

@[simp]
theorem net_received_self : (σ.received s e rest).net s = σ.net s := by
  simp [received, s.ne_peer]

@[simp]
theorem net_received_peer : (σ.received s e rest).net s.peer = rest := by simp [received]

end Fields

end System

/-- The moves of the system when every write succeeds. -/
inductive System.Does (P : Primitives) (σ : System) : Move → System → Prop
  | act {s : Side} {ev : Event} {e : Endpoint} (hhonest : ev.honest = true)
      (hdoes : (σ.ep s).Does P .ok ev e) : Does P σ (.act s ev) (σ.acted s e)
  | recv {r : Side} {f : Flight} {rest : List Flight} {e : Endpoint}
      (hnet : σ.net r.peer = f :: rest) (hrecv : (σ.ep r).recv P f.wire = some e) :
      Does P σ (.recv r) (σ.received r e rest)

/-- The step function does what `Does` says. -/
theorem System.step_does {P : Primitives} {σ σ' : System} {move : Move}
    (h : σ.step P move = some σ') : σ.Does P move σ' := by
  cases move with
  | act s ev =>
    rw [System.step, System.act] at h
    split at h
    · rename_i hhonest
      split at h
      · cases h
      · rename_i e hact
        cases h
        exact .act hhonest (Endpoint.act_does hact)
    · cases h
  | recv r =>
    rw [System.step, System.recv] at h
    split at h
    · cases h
    rename_i f rest hnet
    split at h
    · cases h
    · rename_i e hrecv
      cases h
      exact .recv hnet hrecv

end Npamp
