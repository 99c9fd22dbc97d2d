import Npamp.Proof.Step

/-!
# The two ends of a stream

The frames in flight from a sender lead the receiver's view to the sender's.
-/

namespace Npamp

open Conn

variable {m : Outgoing} {e : Endpoint}

section Streams

variable (P : Primitives)

/-- The flights are, one after the other, what a sender with this view would have sealed. -/
def Chain : View → List Flight → Prop
  | _, [] => True
  | v, f :: rest =>
    (f.wire = f.msg.wire P (v.keys f.msg.channel) ∧ f.wire.length ≤ maxFrameSize
      ∧ f.msg.Valid P v) ∧ Chain (v.after P f.msg) rest

def View.afterAll (v : View) (flights : List Flight) : View :=
  flights.foldl (fun v f => v.after P f.msg) v

/-- The sender's view once the body that holds `wmu` is done. -/
def Endpoint.settled (e : Endpoint) : View :=
  match e.hold with
  | some h => if h.written then (e.conn.sendView P).after P h.msg else e.conn.sendView P
  | none => e.conn.sendView P

end Streams

variable {P : Primitives}

theorem View.afterAll_append (v : View) (fs gs : List Flight) :
    v.afterAll P (fs ++ gs) = (v.afterAll P fs).afterAll P gs :=
  List.foldl_append

theorem Chain.append {v : View} {fs gs : List Flight} (hfs : Chain P v fs)
    (hgs : Chain P (v.afterAll P fs) gs) : Chain P v (fs ++ gs) := by
  induction fs generalizing v with
  | nil => exact hgs
  | cons f fs ih => exact ⟨hfs.1, ih hfs.2 hgs⟩

theorem Chain.of_eq_nil {v : View} {fs : List Flight} (h : fs = []) : Chain P v fs := by
  rw [h]
  trivial

/-- The application sends under its own channels and types only. -/
def Call.Honest : Call → Prop
  | send ch ft _ => IsApplication ch ft
  | _ => True

theorem Call.Makes.valid {c : Conn} {call : Call} (h : call.Makes P c m)
    (hhonest : call.Honest) : m.Valid P (c.sendView P) := by
  cases h with
  | send hseq => exact hhonest
  | keyUpdate => rfl
  | ratchetSend hseq => rfl
  | reKEM hseq => rfl
  | respondReKEM hencapsulate htarget => exact ⟨htarget, rfl, _, _, hencapsulate, rfl⟩
  | _ => trivial

theorem length_wire_of_control (hP : P.Correct) {v : View} (hvalid : m.Valid P v)
    (hcontrol : ∀ ch ft payload, m ≠ .app ch ft payload) (st : EpochKeys) :
    (m.wire P st).length ≤ maxFrameSize := by
  have hplain : m.plaintext.length ≤ 4096 := by
    cases m with
    | app ch ft payload => exact absurd rfl (hcontrol ch ft payload)
    | reKEM client kemShare target =>
      change kemShare = client.kemShare P at hvalid
      have hlength := length_encodeWithGen tlvKEMShare kemShare target
      rw [hvalid, length_kemShare hP] at hlength
      rw [hvalid]
      exact hlength.trans_le (by decide)
    | reKEMAck kemShare kemCT newSS th target =>
      obtain ⟨-, -, rand, ss, hencapsulate, -⟩ := hvalid
      have hlength := length_encodeWithGen tlvKEMCiphertext kemCT target
      rw [length_encapsulate hP hencapsulate] at hlength
      exact hlength.trans_le (by decide)
    | close ackCh => exact Nat.zero_le _
    | closeAck => exact Nat.zero_le _
    | sessionError code => exact (length_encodeErrorBody_nil code).trans (by decide)
    | _ => exact (length_marker _ _).trans_le (by decide)
  rw [length_wire hP]
  calc headerSize + (m.plaintext.length + 16) ≤ headerSize + (4096 + 16) := by omega
    _ ≤ maxFrameSize := by decide

namespace Endpoint

/-- What the steps keep true of one endpoint on its own. Only application frames can be too long to
be written on an open transport. -/
structure WF (P : Primitives) (e : Endpoint) : Prop where
  closed : e.rawClosed = false → e.conn.closed = false
  held : ∀ h, e.hold = some h → ∃ st, e.conn.sendKeys h.msg.channel = some st
  unwritten : e.rawClosed = false → ∀ h, e.hold = some h → h.written = false →
    ∃ ch ft payload, h.msg = .app ch ft payload
  slot : ∀ pend, e.conn.pendingReKEM = some pend → pend.kemShare = pend.client.kemShare P
  heldSlot : ∀ h, e.hold = some h → ∀ pend, h.msg.slot = some pend →
    pend.kemShare = pend.client.kemShare P

theorem Requests.honest {e e₁ : Endpoint} {ev : Event} {call : Call} (h : e.Requests ev call e₁)
    (hhonest : ev.honest = true) : call.Honest := by
  cases h with
  | @send ch ft payload =>
    have happlication : IsApplication ch ft := of_decide_eq_true hhonest
    exact happlication
  | @respond i rand task htask => cases task <;> trivial
  | @react act call hdue hcall =>
    cases act <;> cases hcall <;> trivial
  | _ => trivial

theorem writeWire_ok {wire : Bytes} (h : e.writeWire wire .ok = .ok) :
    wire.length ≤ maxFrameSize := by
  unfold writeWire at h
  split at h
  · cases h
  · rename_i hlength
    omega

theorem writeWire_open {wire : Bytes} (hraw : e.rawClosed = false)
    (hshort : headerSize ≤ wire.length) (hlong : wire.length ≤ maxFrameSize) :
    e.writeWire wire .ok = .ok := by
  rw [writeWire, if_neg (by omega), if_neg (by simp [hraw])]

theorem written_of_hold_eq {e e' : Endpoint} (h : e'.hold = e.hold) : System.written e e' = [] := by
  rw [System.written, h]
  cases e.hold <;> rfl

theorem written_sealing {e e₁ : Endpoint} (hhold : e.hold = none) :
    System.written e (e₁.sealing P m .ok)
      = if e₁.writeWire (m.wire P ((e₁.conn.sendView P).keys m.channel)) .ok = .ok then
          [⟨m, m.wire P ((e₁.conn.sendView P).keys m.channel)⟩] else [] := by
  simp only [System.written, hhold, sealing, decide_eq_true_eq]

theorem written_finish {h h' : Hold} (hhold : e.hold = some h) :
    System.written e (e.finish P h') = [] := by
  simp only [System.written, hhold]

theorem settled_of_hold_eq {e e' : Endpoint} (hhold : e'.hold = e.hold)
    (hview : e'.conn.sendView P = e.conn.sendView P) :
    e'.settled P = (e.settled P).afterAll P (System.written e e') := by
  rw [written_of_hold_eq hhold]
  simp only [settled, hhold, hview]
  rfl

section Does

variable {e e' : Endpoint} {ev : Event}

/-- **The sender's side of the invariant.** What a step writes leads from the settled view before it
to the one behind it. -/
theorem Does.settled (h : e.Does P .ok ev e') (hwf : e.WF P) (hopen : e'.conn.closed = false) :
    e'.settled P = (e.settled P).afterAll P (System.written e e') := by
  cases h with
  | refused hhold hrequest hc =>
    obtain ⟨_, _, _, _, rfl⟩ := hrequest.eq
    refine settled_of_hold_eq rfl ?_
    rcases hc with rfl | ⟨ch, rfl⟩
    · rfl
    · exact sendView_cacheSend e.conn ch
  | sealed hhold hrequest _ hmakes =>
    obtain ⟨_, _, _, _, rfl⟩ := hrequest.eq
    rw [written_sealing hhold]
    simp only [Endpoint.settled, Endpoint.sealing, hhold, sendView_register,
      sendView_cacheSend, decide_eq_true_eq]
    split <;> rfl
  | @finished h hhold =>
    obtain ⟨st, hst⟩ := hwf.held h hhold
    rw [written_finish hhold]
    simp only [Endpoint.settled, Endpoint.finish, hhold, View.afterAll, List.foldl_nil]
    cases h.written with
    | true => exact sendView_afterWrite hst
    | false => exact sendView_afterWrite_unwritten _ _
  | zeroize hraw hhold => cases hopen
  | _ => exact settled_of_hold_eq rfl rfl

theorem Does.chain (h : e.Does P .ok ev e') (hhonest : ev.honest = true) :
    Chain P (e.settled P) (System.written e e') := by
  cases h with
  | sealed hhold hrequest hopen hmakes =>
    have hvalid := hmakes.valid (hrequest.honest hhonest)
    obtain ⟨_, _, _, _, rfl⟩ := hrequest.eq
    have hsettled : e.settled P = e.conn.sendView P := by
      simp only [Endpoint.settled, hhold]
    rw [written_sealing hhold, hsettled]
    split
    · rename_i hwritten
      exact ⟨⟨rfl, writeWire_ok hwritten, hvalid⟩, trivial⟩
    · trivial
  | refused hhold hrequest hc =>
    obtain ⟨_, _, _, _, rfl⟩ := hrequest.eq
    exact .of_eq_nil (written_of_hold_eq rfl)
  | finished hhold => exact .of_eq_nil (written_finish hhold)
  | _ => exact .of_eq_nil (written_of_hold_eq rfl)

end Does

theorem WF.newEndpoint (c : Conn) (hclosed : c.closed = false) (hslot : c.pendingReKEM = none) :
    (newEndpoint c).WF P where
  closed _ := hclosed
  held h hhold := by cases hhold
  unwritten _ h hhold := by cases hhold
  slot pend hpend := by
    rw [show (Npamp.newEndpoint c).conn.pendingReKEM = none from hslot] at hpend
    cases hpend
  heldSlot h hhold := by cases hhold

theorem WF.of_hold_eq {e e' : Endpoint} (hwf : e.WF P) (hhold : e'.hold = e.hold)
    (hraw : e'.rawClosed = false → e.rawClosed = false) (hclosed : e'.conn.closed = e.conn.closed)
    (hkeys : e'.conn.sendKeys = e.conn.sendKeys)
    (hslot : e'.conn.pendingReKEM = e.conn.pendingReKEM ∨ e'.conn.pendingReKEM = none) :
    e'.WF P where
  closed hopen := hclosed.trans (hwf.closed (hraw hopen))
  held h hh := by
    rw [hkeys]
    exact hwf.held h (hhold ▸ hh)
  unwritten hopen h hh := hwf.unwritten (hraw hopen) h (hhold ▸ hh)
  slot pend hpend := by
    rcases hslot with hsame | hnone
    · exact hwf.slot pend (hsame ▸ hpend)
    · rw [hnone] at hpend
      cases hpend
  heldSlot h hh := hwf.heldSlot h (hhold ▸ hh)

theorem WF.of_hold_none {e' : Endpoint} (hhold : e'.hold = none)
    (hclosed : e'.rawClosed = false → e'.conn.closed = false)
    (hslot : ∀ pend, e'.conn.pendingReKEM = some pend → pend.kemShare = pend.client.kemShare P) :
    e'.WF P where
  closed := hclosed
  held h hh := by
    rw [hhold] at hh
    cases hh
  unwritten _ h hh := by
    rw [hhold] at hh
    cases hh
  slot := hslot
  heldSlot h hh := by
    rw [hhold] at hh
    cases hh

section Wf

variable {e e' : Endpoint} {ev : Event}

theorem WF.sealing (hP : P.Correct) (hwf : e.WF P)
    (hvalid : m.Valid P (e.conn.sendView P)) : (e.sealing P m .ok).WF P where
  closed hopen := by
    simp only [Endpoint.sealing, closed_register]
    exact hwf.closed hopen
  held h hh := by
    cases hh
    have hcached := sendKeys_cacheSend_self (P := P) e.conn m.channel
    exact ⟨_, (congrFun (sendKeys_register _ m) m.channel).trans hcached⟩
  unwritten hopen h hh hwritten := by
    obtain ⟨held, hheld, hmsg, hok⟩ := exists_hold_sealing P e m .ok
    obtain rfl := Option.some.inj (hheld.symm.trans hh)
    by_contra happ
    have hcontrol : ∀ ch ft payload, m ≠ .app ch ft payload :=
      fun ch ft payload heq => happ ⟨ch, ft, payload, hmsg.trans heq⟩
    have hlong := length_wire_of_control hP hvalid hcontrol
      ((e.conn.sendView P).keys m.channel)
    have hshort : headerSize ≤ (m.wire P ((e.conn.sendView P).keys m.channel)).length := by
      rw [length_wire hP]
      exact Nat.le_add_right _ _
    rw [hok.mpr (writeWire_open hopen hshort hlong)] at hwritten
    cases hwritten
  slot pend hpend := by
    simp only [Endpoint.sealing, pendingReKEM_register] at hpend
    exact hwf.slot pend hpend
  heldSlot h hh pend hpend := by
    cases hh
    cases m with
    | reKEM client kemShare target =>
      cases hpend
      exact hvalid
    | _ => cases hpend

theorem WF.writes (hwf : (e.sealing P m .ok).WF P) (hraw : e.rawClosed = false)
    (hcontrol : ∀ ch ft payload, m ≠ .app ch ft payload) :
    e.writeWire (m.wire P ((e.conn.sendView P).keys m.channel)) .ok = .ok := by
  obtain ⟨held, hheld, hmsg, hok⟩ := exists_hold_sealing P e m .ok
  by_contra hfailed
  have hunwritten : held.written = false := by simpa using mt hok.mp hfailed
  obtain ⟨ch, ft, payload, happ⟩ := hwf.unwritten hraw held hheld hunwritten
  exact hcontrol ch ft payload (hmsg.symm.trans happ)

theorem Does.wf (hP : P.Correct) (h : e.Does P .ok ev e') (hhonest : ev.honest = true)
    (hwf : e.WF P) : e'.WF P := by
  cases h with
  | refused hhold hrequest hc =>
    obtain ⟨_, _, _, _, rfl⟩ := hrequest.eq
    rcases hc with rfl | ⟨ch, rfl⟩
    · exact WF.of_hold_none hhold hwf.closed hwf.slot
    · exact WF.of_hold_none hhold hwf.closed hwf.slot
  | sealed hhold hrequest hopen hmakes =>
    have hvalid := hmakes.valid (hrequest.honest hhonest)
    obtain ⟨_, _, _, _, rfl⟩ := hrequest.eq
    refine WF.sealing hP ?_ hvalid
    exact hwf.of_hold_eq rfl id rfl rfl (.inl rfl)
  | @finished h hhold =>
    refine WF.of_hold_none rfl ?_ ?_
    · intro hopen
      exact (closed_afterWrite _ _ _).trans (hwf.closed hopen)
    intro pend hpend
    have hslot := pendingReKEM_afterWrite (P := P) e.conn h.msg h.written
    rw [Endpoint.finish, hslot] at hpend
    split at hpend
    · rcases Option.or_eq_some_iff.mp hpend with hheld | ⟨-, hbefore⟩
      · exact hwf.heldSlot h hhold pend hheld
      · exact hwf.slot pend hbefore
    · exact hwf.slot pend hpend
  | zeroize hraw hhold =>
    refine WF.of_hold_none hhold ?_ ?_
    · intro hopen
      exact absurd hraw (by simpa using hopen)
    · intro pend hpend
      cases hpend
  | close => exact hwf.of_hold_eq rfl (by intro hopen; cases hopen) rfl rfl (.inl rfl)
  | _ => exact hwf.of_hold_eq rfl id rfl rfl (.inl rfl)

theorem Reads.pendingReKEM (h : e.Reads P m e') :
    e'.conn.pendingReKEM = e.conn.pendingReKEM ∨ e'.conn.pendingReKEM = none := by
  cases h with
  | reKEMAck hpending => exact .inr rfl
  | closeAck hclosing =>
    left
    simp only [signalCloseAck, opened, hclosing, if_true]
  | _ => exact .inl rfl

theorem Reads.wf (h : e.Reads P m e') (hwf : e.WF P) : e'.WF P :=
  hwf.of_hold_eq h.hold (fun hopen => h.rawClosed ▸ hopen) h.closed h.sendKeys h.pendingReKEM

end Wf

end Endpoint

namespace Endpoint

variable {e e' : Endpoint} {ev : Event}

theorem Does.closed (h : e.Does P .ok ev e') (hopen : e'.conn.closed = false) :
    e.conn.closed = false := by
  cases h with
  | refused hhold hrequest hc =>
    rcases hc with rfl | ⟨ch, rfl⟩
    · exact hopen
    · exact hopen
  | sealed hhold hrequest hsealed hmakes => exact hsealed
  | finished hhold => exact (closed_afterWrite _ _ _).symm.trans hopen
  | zeroize hraw hhold => cases hopen
  | _ => exact hopen

/-- An event puts nothing on the wire, or the one message its call makes. -/
theorem Does.written_cases (h : e.Does P .ok ev e') :
    System.written e e' = [] ∨ ∃ call e₁ m, e.hold = none ∧ e.Requests ev call e₁
      ∧ e.conn.closed = false ∧ call.Makes P e.conn m ∧ e' = e₁.sealing P m .ok
      ∧ e₁.writeWire (m.wire P ((e₁.conn.sendView P).keys m.channel)) .ok = .ok
      ∧ System.written e e' = [⟨m, m.wire P ((e₁.conn.sendView P).keys m.channel)⟩] := by
  cases h with
  | refused hhold hrequest hc =>
    obtain ⟨_, _, _, _, rfl⟩ := hrequest.eq
    exact .inl (written_of_hold_eq rfl)
  | @sealed _ call e₁ m hhold hrequest hopen hmakes =>
    have hwritten : System.written e (e₁.sealing P m .ok) = _ := written_sealing hhold
    split at hwritten
    · rename_i hok
      exact .inr ⟨call, e₁, m, hhold, hrequest, hopen, hmakes, rfl, hok, hwritten⟩
    · exact .inl hwritten
  | finished hhold => exact .inl (written_finish hhold)
  | _ => exact .inl (written_of_hold_eq rfl)

theorem Does.written_of_closed (h : e.Does P .ok ev e') (hclosed : e.conn.closed = true) :
    System.written e e' = [] := by
  rcases h.written_cases with hnone | ⟨call, e₁, m, hhold, hrequest, hopen, -⟩
  · exact hnone
  · rw [hclosed] at hopen
    cases hopen

theorem Reads.settled (h : e.Reads P m e') : e'.settled P = e.settled P := by
  simp only [Endpoint.settled, h.hold, h.sendView]

theorem receiving_of_recv {wire : Bytes} (h : e.recv P wire = some e') : e.Receiving := by
  unfold recv at h
  split at h
  · cases h
  · rename_i hbusy
    simpa [Receiving] using hbusy

end Endpoint

namespace System

/-- What is on the wire towards `r` takes the keys of `r` to those of its peer. -/
structure Stream (P : Primitives) (σ : System) (r : Side) : Prop where
  chain : (σ.ep r).Receiving → Chain P ((σ.ep r).conn.recvView P) (σ.net r.peer)
  agree : (σ.ep r).Receiving → (σ.ep r.peer).conn.closed = false →
    ((σ.ep r).conn.recvView P).afterAll P (σ.net r.peer) = (σ.ep r.peer).settled P

/-- The invariant of the two endpoints and the wires between them. -/
structure Sound (P : Primitives) (σ : System) : Prop where
  wf : ∀ s, (σ.ep s).WF P
  stream : ∀ r, σ.Stream P r

/-- The steps of the system on messages: what is read is what was sealed. -/
inductive Takes (P : Primitives) (σ : System) : Move → System → Prop
  | act {s : Side} {ev : Event} {e : Endpoint} (hhonest : ev.honest = true)
      (hdoes : (σ.ep s).Does P .ok ev e) : Takes P σ (.act s ev) (σ.acted s e)
  | recv {r : Side} {f : Flight} {rest : List Flight} {e : Endpoint}
      (hnet : σ.net r.peer = f :: rest) (hreceiving : (σ.ep r).Receiving)
      (hvalid : f.msg.Valid P ((σ.ep r).conn.recvView P)) (hreads : (σ.ep r).Reads P f.msg e) :
      Takes P σ (.recv r) (σ.received r e rest)

variable {σ σ' : System} {move : Move}

theorem Sound.newSystem (master : Bytes) : (newSystem master).Sound P where
  wf s := Endpoint.WF.newEndpoint _ rfl rfl
  stream r := ⟨fun _ => trivial, fun _ _ => by cases r <;> rfl⟩

/-- No frame that is read answers another re-KEM than the pending one. -/
def SlotsMatch (P : Primitives) (σ : System) : Prop :=
  ∀ r f rest, σ.net r.peer = f :: rest → (σ.ep r).Receiving → f.msg.AnswersSlot P (σ.ep r).conn

/-- **What is read is what was sealed.** -/
theorem Sound.takes (hP : P.Correct) (hsound : σ.Sound P) (hslots : σ.SlotsMatch P)
    (hstep : σ.step P move = some σ') : σ.Takes P move σ' := by
  cases step_does hstep with
  | act hhonest hdoes => exact .act hhonest hdoes
  | @recv r f rest e hnet hrecv =>
    have hreceiving := Endpoint.receiving_of_recv hrecv
    have hchain := (hsound.stream r).chain hreceiving
    rw [hnet] at hchain
    obtain ⟨⟨hwire, hfits, hvalid⟩, -⟩ := hchain
    rw [hwire] at hfits hrecv
    obtain ⟨e', hrecv', hreads⟩ := Endpoint.recv_reads hP hreceiving.1 hreceiving.2
      ((hsound.wf r).closed hreceiving.1) hvalid (hslots r f rest hnet hreceiving) hfits
    obtain rfl := Option.some.inj (hrecv.symm.trans hrecv')
    exact .recv hnet hreceiving hvalid hreads

theorem progress {r : Side} {f : Flight} {rest : List Flight} (hnet : σ.net r.peer = f :: rest)
    (hreceiving : (σ.ep r).Receiving) : ∃ σ', σ.step P (.recv r) = some σ' := by
  have hrecv : (σ.ep r).recv P f.wire = _ := Endpoint.recv_eq hreceiving.1 hreceiving.2
  rw [step, recv, hnet]
  dsimp only
  rw [hrecv]
  exact ⟨_, rfl⟩

theorem Sound.acted (hP : P.Correct) (hsound : σ.Sound P) {s : Side} {ev : Event}
    (hhonest : ev.honest = true) (hdoes : (σ.ep s).Does P .ok ev e) : (σ.acted s e).Sound P := by
  refine ⟨fun t => ?_, fun r => ?_⟩
  · rcases Side.eq_or_eq_peer s t with rfl | rfl
    · rw [ep_acted_self]
      exact hdoes.wf hP hhonest (hsound.wf t)
    · rw [ep_acted_peer]
      exact hsound.wf s.peer
  · rcases Side.eq_or_eq_peer s r with rfl | rfl
    · -- the step of the receiver itself
      obtain ⟨hchain, hagree⟩ := hsound.stream r
      refine ⟨?_, ?_⟩
      · rw [ep_acted_self, net_acted_peer]
        intro hreceiving
        rw [hdoes.recvView hreceiving.1]
        exact hchain (hdoes.receiving hreceiving)
      · rw [ep_acted_self, ep_acted_peer, net_acted_peer]
        intro hreceiving hopen
        rw [hdoes.recvView hreceiving.1]
        exact hagree (hdoes.receiving hreceiving) hopen
    · -- a step of the sender, which may write
      obtain ⟨hchain, hagree⟩ := hsound.stream s.peer
      rw [Side.peer_peer] at hchain hagree
      refine ⟨?_, ?_⟩
      · rw [ep_acted_peer, Side.peer_peer, net_acted_self]
        intro hreceiving
        cases hclosed : (σ.ep s).conn.closed with
        | true =>
          rw [hdoes.written_of_closed hclosed, List.append_nil]
          exact hchain hreceiving
        | false =>
          refine (hchain hreceiving).append ?_
          rw [hagree hreceiving hclosed]
          exact hdoes.chain hhonest
      · rw [ep_acted_peer, Side.peer_peer, ep_acted_self, net_acted_self]
        intro hreceiving hopen
        rw [View.afterAll_append, hagree hreceiving (hdoes.closed hopen),
          hdoes.settled (hsound.wf s) hopen]

/-- Taking the first flight off the wire moves the view of the receiver past it. -/
theorem Sound.received (hsound : σ.Sound P) {r : Side} {f : Flight} {rest : List Flight}
    (hnet : σ.net r.peer = f :: rest) (hreceiving : (σ.ep r).Receiving)
    (hvalid : f.msg.Valid P ((σ.ep r).conn.recvView P)) (hreads : (σ.ep r).Reads P f.msg e) :
    (σ.received r e rest).Sound P := by
  refine ⟨fun t => ?_, fun t => ?_⟩
  · rcases Side.eq_or_eq_peer r t with rfl | rfl
    · rw [ep_received_self]
      exact hreads.wf (hsound.wf t)
    · rw [ep_received_peer]
      exact hsound.wf r.peer
  · rcases Side.eq_or_eq_peer r t with rfl | rfl
    · obtain ⟨hchain, hagree⟩ := hsound.stream t
      rw [hnet] at hchain hagree
      refine ⟨?_, ?_⟩
      · rw [ep_received_self, net_received_peer]
        intro hreceiving'
        rw [hreads.recvView hvalid hreceiving'.2]
        exact (hchain hreceiving).2
      · rw [ep_received_self, ep_received_peer, net_received_peer]
        intro hreceiving' hopen
        rw [hreads.recvView hvalid hreceiving'.2]
        exact hagree hreceiving hopen
    · -- the other direction: the reader's send state is untouched
      obtain ⟨hchain, hagree⟩ := hsound.stream r.peer
      rw [Side.peer_peer] at hchain hagree
      refine ⟨?_, ?_⟩
      · rw [ep_received_peer, Side.peer_peer, net_received_self]
        exact hchain
      rw [ep_received_peer, Side.peer_peer, ep_received_self, net_received_self]
      intro hreceiving' hopen
      rw [hreads.settled]
      exact hagree hreceiving' (hreads.closed.symm.trans hopen)

theorem Takes.sound (hP : P.Correct) (hsound : σ.Sound P) (h : σ.Takes P move σ') : σ'.Sound P := by
  cases h with
  | act hhonest hdoes => exact hsound.acted hP hhonest hdoes
  | recv hnet hreceiving hvalid hreads => exact hsound.received hnet hreceiving hvalid hreads

end System

end Npamp
