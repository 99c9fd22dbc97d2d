import Npamp.Plain
import Npamp.Proof.Accounts

/-!
# Healed roots

A run of the system with a history of its re-KEMs. Both sides adopt the same roots in the same order
as long as no REKEM is written over a pending one.
-/

namespace Npamp

open Function Side Conn List

def Outgoing.isReKEM : Outgoing → Bool
  | reKEM _ _ _ => true
  | _ => false

def Outgoing.isReKEMAck : Outgoing → Bool
  | reKEMAck _ _ _ _ _ => true
  | _ => false

namespace Endpoint

def sendRoot (e : Endpoint) : Bytes × UInt64 := (e.conn.masterSend, e.conn.genSend)

def recvRoot (e : Endpoint) : Bytes × UInt64 := (e.conn.masterRecv, e.conn.genRecv)

/-- In the receive step from `e` to `e'`, `handleReKEMAck` returned nil: the pending re-KEM was
taken and no error surfaced. -/
def healed (e e' : Endpoint) : Bool :=
  e.conn.pendingReKEM.isSome && e'.conn.pendingReKEM.isNone && e'.errors.length == e.errors.length

def offer (P : Primitives) (e : Endpoint) : List (Bytes × UInt64) :=
  match e.hold with
  | some h => if h.written && h.msg.isReKEMAck then [(e.finish P h).sendRoot] else []
  | none => []

def completes (P : Primitives) (e : Endpoint) : Event → List (Bytes × UInt64)
  | .finish => e.offer P
  | _ => []

end Endpoint

/-- A system with the re-KEMs of each side counted, and the shares offered and adopted listed in
order. -/
structure Healing where
  sys : System
  sent : Side → Nat
  answers : Side → Nat
  offered : Side → List (Bytes × UInt64)
  adopted : Side → List (Bytes × UInt64)

namespace Healing

def start (master : Bytes) : Healing where
  sys := newSystem master
  sent _ := 0
  answers _ := 0
  offered _ := []
  adopted _ := []

def record (P : Primitives) (H : Healing) (σ : System) : Move → Healing
  | .act s ev =>
    { H with
      sys := σ
      sent := update H.sent s
        (H.sent s + (System.written (H.sys.ep s) (σ.ep s)).countP (·.msg.isReKEM))
      offered := update H.offered s (H.offered s ++ (H.sys.ep s).completes P ev) }
  | .recv r =>
    { H with
      sys := σ
      answers := update H.answers r
        (H.answers r + ((H.sys.net r.peer).take 1).countP (·.msg.isReKEMAck))
      adopted := update H.adopted r
        (H.adopted r ++ if (H.sys.ep r).healed (σ.ep r) then [(σ.ep r).recvRoot] else []) }

def step (P : Primitives) (H : Healing) (move : Move) : Option Healing :=
  match H.sys.step P move with
  | none => none
  | some σ => some (H.record P σ move)

end Healing

variable {P : Primitives}

def View.heals (P : Primitives) : View → List Flight → List (Bytes × UInt64)
  | _, [] => []
  | v, f :: rest =>
    (if f.msg.isReKEMAck then [((v.after P f.msg).root, (v.after P f.msg).gen)] else [])
      ++ View.heals P (v.after P f.msg) rest

theorem View.heals_append (v : View) (fs gs : List Flight) :
    v.heals P (fs ++ gs) = v.heals P fs ++ (v.afterAll P fs).heals P gs := by
  induction fs generalizing v with
  | nil => rfl
  | cons f fs ih =>
    rw [cons_append, heals, heals, ih, append_assoc]
    rfl

namespace Endpoint

variable {e e' : Endpoint} {ev : Event} {m : Outgoing}

theorem offer_of_hold_none (hhold : e.hold = none) : e.offer P = [] := by
  simp only [offer, hhold]

theorem offer_eq (hwf : e.WF P) {h : Hold} (hhold : e.hold = some h) : e.offer P
      = if h.written && h.msg.isReKEMAck then
          [(((e.conn.sendView P).after P h.msg).root, ((e.conn.sendView P).after P h.msg).gen)]
        else [] := by
  obtain ⟨st, hst⟩ := hwf.held h hhold
  simp only [offer, hhold]
  split
  · rename_i hack
    rw [Bool.and_eq_true] at hack
    rw [← sendView_afterWrite hst, finish, hack.1]
    rfl
  · rfl

theorem offer_congr (hwf : e.WF P) (hwf' : e'.WF P) (hhold : e'.hold = e.hold)
    (hview : e'.conn.sendView P = e.conn.sendView P) : e'.offer P = e.offer P := by
  cases h : e.hold with
  | none => rw [offer_of_hold_none h, offer_of_hold_none (hhold.trans h)]
  | some held => rw [offer_eq hwf h, offer_eq hwf' (hhold.trans h), hview]

theorem Requests.completes {call : Call} {e₁ : Endpoint} (h : e.Requests ev call e₁) :
    e.completes P ev = [] := by
  cases h <;> rfl

theorem offer_of_hold_eq (hhold : e'.hold = e.hold) (hoffer : e'.offer P = e.offer P) :
    e'.offer P = e.offer P ++ (e.settled P).heals P (System.written e e') := by
  rw [written_of_hold_eq hhold, hoffer]
  exact (append_nil _).symm

/-- **The sender's heals.** What a step writes is offered, now or when its body is done. -/
theorem Does.offer (hP : P.Correct) (h : e.Does P .ok ev e') (hhonest : ev.honest = true)
    (hwf : e.WF P) : e.completes P ev ++ e'.offer P
      = e.offer P ++ (e.settled P).heals P (System.written e e') := by
  have hwf' := h.wf hP hhonest hwf
  cases h with
  | refused hhold hrequest hc =>
    rw [hrequest.completes, nil_append]
    obtain ⟨_, _, _, _, rfl⟩ := hrequest.eq
    refine offer_of_hold_eq rfl (offer_congr hwf hwf' rfl ?_)
    rcases hc with rfl | ⟨ch, rfl⟩
    · rfl
    · exact sendView_cacheSend e.conn ch
  | @sealed _ call e₁ m hhold hrequest hopen hmakes =>
    have hsettled : e.settled P = e₁.conn.sendView P := by
      obtain ⟨_, _, _, _, rfl⟩ := hrequest.eq
      simp only [Endpoint.settled, hhold]
    have hview : (e₁.sealing P m .ok).conn.sendView P = e₁.conn.sendView P := by
      simp only [Endpoint.sealing, sendView_register, sendView_cacheSend]
    obtain ⟨held, hheld, hmsg, hok⟩ := exists_hold_sealing P e₁ m .ok
    rw [hrequest.completes, offer_of_hold_none hhold, written_sealing hhold, offer_eq hwf' hheld,
      hview, hsettled, hmsg]
    split
    · rename_i hack
      obtain ⟨hwritten, hack⟩ := (Bool.and_eq_true _ _).mp hack
      rw [if_pos (hok.mp hwritten)]
      simp [View.heals, hack]
    · rename_i hack
      split
      · rename_i hwritten
        have hnot : m.isReKEMAck = false := by
          simpa [hok.mpr hwritten] using hack
        simp [View.heals, hnot]
      · rfl
  | @finished h hhold =>
    rw [written_finish hhold, offer_of_hold_none rfl]
    rfl
  | zeroize hraw hhold =>
    refine offer_of_hold_eq rfl ?_
    rw [offer_of_hold_none hhold]
    exact offer_of_hold_none hhold
  | _ => exact offer_of_hold_eq rfl (offer_congr hwf hwf' rfl rfl)

theorem Reads.offer (h : e.Reads P m e') (hwf : e.WF P) : e'.offer P = e.offer P :=
  offer_congr hwf (h.wf hwf) h.hold h.sendView

theorem Reads.healed (h : e.Reads P m e') (hreaction : e.reaction = none) :
    e.healed e' = (m.isReKEMAck && e'.reaction.isNone) := by
  have hsame : ∀ slot : Option PendingReKEM, (slot.isSome && slot.isNone) = false := by
    intro slot
    cases slot <;> rfl
  cases h with
  | reKEMAck hpending => simp [Endpoint.healed, hpending, hreaction, Outgoing.isReKEMAck,
      adoptRecvRoot, dropRecvKeys]
  | closeAck hclosing =>
    simp only [Endpoint.healed, signalCloseAck, opened, hclosing, if_true, hsame,
      Bool.false_and]
    rfl
  | unsolicited hunsolicited =>
    have hslot : (e.conn.opened P m.channel).pendingReKEM = e.conn.pendingReKEM := rfl
    simp only [Endpoint.healed, hslot, hsame, Bool.false_and, Option.isNone_some, Bool.and_false]
  | _ =>
    simp only [Endpoint.healed, Outgoing.isReKEMAck, Bool.false_and]
    exact (congrArg (· && _) (hsame e.conn.pendingReKEM)).trans (Bool.false_and _)

/-- No re-KEM of this endpoint is pending or about to be. -/
def ReKEMFree (e : Endpoint) : Prop :=
  e.conn.closed = false ∧ e.conn.pendingReKEM = none ∧ e.heldSlot = none

theorem Does.pendingReKEM_none (h : e.Does P .ok ev e') (hopen : e'.conn.closed = false)
    (hnone : e'.conn.pendingReKEM = none) : e.conn.pendingReKEM = none := by
  cases h with
  | refused hhold hrequest hc => rcases hc with rfl | ⟨ch, rfl⟩ <;> exact hnone
  | @sealed _ call e₁ m hhold hrequest _ hmakes =>
    obtain ⟨_, _, _, _, rfl⟩ := hrequest.eq
    exact (pendingReKEM_register (e.conn.cacheSend P m.channel) m).symm.trans hnone
  | @finished h hhold =>
    have hslot := pendingReKEM_afterWrite (P := P) e.conn h.msg h.written
    rw [show (e.conn.afterWrite P h.msg h.written).pendingReKEM = none from hnone] at hslot
    split at hslot
    · exact (Option.or_eq_none_iff.mp hslot.symm).2
    · exact hslot.symm
  | zeroize hraw hhold => cases hopen
  | _ => exact hnone

theorem Does.heldSlot_none (h : e.Does P .ok ev e') (hopen : e'.conn.closed = false)
    (hnone : e'.conn.pendingReKEM = none) (hheld : e'.heldSlot = none) : e.heldSlot = none := by
  cases h with
  | refused hhold hrequest hc => simp only [Endpoint.heldSlot, hhold]
  | sealed hhold hrequest _ hmakes => simp only [Endpoint.heldSlot, hhold]
  | @finished h hhold =>
    have hslot := pendingReKEM_afterWrite (P := P) e.conn h.msg h.written
    rw [show (e.conn.afterWrite P h.msg h.written).pendingReKEM = none from hnone] at hslot
    simp only [Endpoint.heldSlot, hhold]
    split
    · rename_i hwritten
      rw [if_pos hwritten] at hslot
      exact (Option.or_eq_none_iff.mp hslot.symm).1
    · rfl
  | zeroize hraw hhold => cases hopen
  | _ => exact hheld

theorem Does.reKEMFree (h : e.Does P .ok ev e') (hfree : e'.ReKEMFree) :
    e.ReKEMFree ∧ (System.written e e').countP (·.msg.isReKEM) = 0 := by
  obtain ⟨hopen, hslot, hheld⟩ := hfree
  refine ⟨⟨h.closed hopen, h.pendingReKEM_none hopen hslot, h.heldSlot_none hopen hslot hheld⟩, ?_⟩
  rcases h.written_cases with hnone | ⟨call, e₁, m, hhold, hrequest, -, hmakes, rfl, hok, hwritten⟩
  · rw [hnone]
    rfl
  have hslot : m.slot = none := by
    simpa only [Endpoint.heldSlot, Endpoint.sealing, hok, decide_true, if_true] using hheld
  rw [hwritten]
  cases m with
  | reKEM client kemShare target => cases hslot
  | _ => rfl

theorem Does.sent_le (h : e.Does P .ok ev e')
    (hadmits : ∀ i, ev = .reKEM i → e.conn.pendingReKEM = none) :
    (System.written e e').countP (·.msg.isReKEM) = 0
      ∨ (e.ReKEMFree ∧ (System.written e e').countP (·.msg.isReKEM) = 1) := by
  rcases h.written_cases with hnone | ⟨call, e₁, m, hhold, hrequest, hopen, hmakes, -, -, hwritten⟩
  · rw [hnone]
    exact .inl rfl
  rw [hwritten]
  cases m with
  | reKEM client kemShare target =>
    right
    obtain ⟨i, hev⟩ := hrequest.of_slot hmakes rfl
    exact ⟨⟨hopen, hadmits i hev, by simp only [Endpoint.heldSlot, hhold]⟩, rfl⟩
  | _ => exact .inl rfl

theorem Reads.reKEMFree (h : e.Reads P m e') (hfree : e'.ReKEMFree) :
    e.ReKEMFree ∨ m.isReKEMAck = true := by
  obtain ⟨hopen, hslot, hheld⟩ := hfree
  have hheld' : e.heldSlot = none := by
    simpa only [Endpoint.heldSlot, h.hold] using hheld
  have hopen' : e.conn.closed = false := h.closed.symm.trans hopen
  cases h with
  | reKEMAck hpending => exact .inr rfl
  | closeAck hclosing =>
    left
    simp only [signalCloseAck, opened, hclosing, if_true] at hslot
    exact ⟨hopen', hslot, hheld'⟩
  | _ => exact .inl ⟨hopen', hslot, hheld'⟩

end Endpoint

def Token.IsReKEM (t : Token) : Prop := ∃ kemShare target, t = .reKEM kemShare target

namespace Healing

/-- At most one re-KEM of a side is unanswered, and what one side adopts is, in order, what the
other offered. -/
structure Inv (P : Primitives) (H : Healing) : Prop where
  tracked : H.sys.Tracked P Token.IsReKEM
  bounded : ∀ i, H.sent i ≤ H.answers i + 1
  idle : ∀ i, (H.sys.ep i).ReKEMFree → H.sent i ≤ H.answers i
  inFlight : ∀ i, (H.sys.ep i).Receiving →
    H.adopted i ++ ((H.sys.ep i).conn.recvView P).heals P (H.sys.net i.peer)
      = H.offered i.peer ++ (H.sys.ep i.peer).offer P
  agreed : ∀ i, H.adopted i <+: H.offered i.peer ++ (H.sys.ep i.peer).offer P

theorem Inv.start (master : Bytes) : (start master).Inv P where
  tracked := System.Tracked.newSystem master
  bounded _ := Nat.zero_le _
  idle _ _ := le_rfl
  inFlight _ _ := rfl
  agreed _ := nil_prefix

variable {H H' : Healing}

theorem Inv.acted (hP : P.Correct) (hinv : H.Inv P) {s : Side} {ev : Event} {e : Endpoint}
    (hhonest : ev.honest = true) (hdoes : (H.sys.ep s).Does P .ok ev e)
    (hadmits : H.sys.admitsReKEM (.act s ev) = true)
    (htracked : (H.sys.acted s e).Tracked P Token.IsReKEM) :
    (H.record P (H.sys.acted s e) (.act s ev)).Inv P := by
  have hadmits' : ∀ i, ev = .reKEM i → (H.sys.ep s).conn.pendingReKEM = none := by
    rintro i rfl
    exact Option.isNone_iff_eq_none.mp hadmits
  have hoffer := hdoes.offer hP hhonest (hinv.tracked.wf s)
  refine ⟨htracked, fun i => ?_, fun i => ?_, fun i => ?_, fun i => ?_⟩
  · simp only [record, System.ep_acted_self]
    rcases eq_or_eq_peer s i with rfl | rfl
    · have hbounded := hinv.bounded i
      rw [update_self]
      rcases hdoes.sent_le hadmits' with hnone | ⟨hfree, hone⟩
      · omega
      · have hidle := hinv.idle i hfree
        omega
    · rw [update_of_ne s.peer_ne]
      exact hinv.bounded s.peer
  · simp only [record, System.ep_acted_self]
    rcases eq_or_eq_peer s i with rfl | rfl
    · rw [System.ep_acted_self, update_self]
      intro hfree
      obtain ⟨hfree', hnone⟩ := hdoes.reKEMFree hfree
      have hidle := hinv.idle i hfree'
      omega
    · rw [System.ep_acted_peer, update_of_ne s.peer_ne]
      exact hinv.idle s.peer
  · simp only [record]
    rcases eq_or_eq_peer s i with rfl | rfl
    · rw [System.ep_acted_self, System.ep_acted_peer, System.net_acted_peer,
        update_of_ne i.peer_ne]
      intro hreceiving
      rw [hdoes.recvView hreceiving.1]
      exact hinv.inFlight i (hdoes.receiving hreceiving)
    · rw [System.ep_acted_peer, peer_peer, System.ep_acted_self, System.net_acted_self,
        update_self]
      intro hreceiving
      have hbefore := hinv.inFlight s.peer hreceiving
      have hagree := (hinv.tracked.stream s.peer).agree hreceiving
      rw [peer_peer] at hbefore hagree
      -- a closed endpoint writes nothing, an open one seals under the view the stream leads to
      have hwritten : ((((H.sys.ep s.peer).conn.recvView P).afterAll P (H.sys.net s)).heals P
          (System.written (H.sys.ep s) e))
          = ((H.sys.ep s).settled P).heals P (System.written (H.sys.ep s) e) := by
        cases hclosed : (H.sys.ep s).conn.closed with
        | true =>
          rw [hdoes.written_of_closed hclosed]
          rfl
        | false => rw [hagree hclosed]
      rw [View.heals_append, hwritten, ← append_assoc, hbefore, append_assoc, ← hoffer,
        append_assoc]
  · simp only [record]
    rcases eq_or_eq_peer s i with rfl | rfl
    · rw [System.ep_acted_peer, update_of_ne i.peer_ne]
      exact hinv.agreed i
    have hbefore := hinv.agreed s.peer
    rw [peer_peer] at hbefore ⊢
    rw [System.ep_acted_self, update_self, append_assoc, hoffer,
      ← append_assoc]
    exact hbefore.trans (prefix_append _ _)

/-- A frame is taken from the wire, and a re-KEM in it moves to what was adopted. -/
theorem Inv.received (hinv : H.Inv P) {r : Side} {f : Flight} {rest : List Flight} {e : Endpoint}
    (hnet : H.sys.net r.peer = f :: rest) (hreceiving : (H.sys.ep r).Receiving)
    (hvalid : f.msg.Valid P ((H.sys.ep r).conn.recvView P)) (hreads : (H.sys.ep r).Reads P f.msg e)
    (htracked : (H.sys.received r e rest).Tracked P Token.IsReKEM) :
    (H.record P (H.sys.received r e rest) (.recv r)).Inv P := by
  have hread : ((H.sys.net r.peer).take 1).countP (·.msg.isReKEMAck)
      = if f.msg.isReKEMAck then 1 else 0 := by
    rw [hnet]
    exact countP_singleton
  have hhealed := hreads.healed hreceiving.2
  refine ⟨htracked, fun i => ?_, fun i => ?_, fun i => ?_, fun i => ?_⟩
  · simp only [record]
    rcases eq_or_eq_peer r i with rfl | rfl
    · rw [update_self]
      exact (hinv.bounded i).trans (by omega)
    · rw [update_of_ne r.peer_ne]
      exact hinv.bounded r.peer
  · simp only [record]
    rcases eq_or_eq_peer r i with rfl | rfl
    · rw [System.ep_received_self, update_self, hread]
      intro hfree
      rcases hreads.reKEMFree hfree with hbefore | hack
      · exact (hinv.idle i hbefore).trans (Nat.le_add_right _ _)
      · rw [if_pos hack]
        exact hinv.bounded i
    · rw [System.ep_received_peer, update_of_ne r.peer_ne]
      exact hinv.idle r.peer
  · simp only [record]
    rcases eq_or_eq_peer r i with rfl | rfl
    · rw [System.ep_received_self, System.ep_received_peer, System.net_received_peer,
        update_self, hhealed]
      intro hreceiving'
      have hbefore := hinv.inFlight i hreceiving
      rw [hnet, View.heals] at hbefore
      have hview := hreads.recvView hvalid hreceiving'.2
      rw [← hbefore, hview, hreceiving'.2, ← hview, append_assoc]
      simp only [Option.isNone_none, Bool.and_true]
      rfl
    · rw [System.ep_received_peer, peer_peer, System.ep_received_self,
        System.net_received_self, update_of_ne r.peer_ne,
        hreads.offer (hinv.tracked.wf r)]
      have hbefore := hinv.inFlight r.peer
      rwa [peer_peer] at hbefore
  · simp only [record]
    rcases eq_or_eq_peer r i with rfl | rfl
    · rw [System.ep_received_self, System.ep_received_peer, update_self, hhealed]
      have hbefore := hinv.inFlight i hreceiving
      split
      · rename_i hack
        obtain ⟨hack, hreaction⟩ := (Bool.and_eq_true _ _).mp hack
        have hview := hreads.recvView hvalid (Option.isNone_iff_eq_none.mp hreaction)
        rw [← hbefore, hnet, View.heals, if_pos hack, ← hview, ← append_assoc]
        exact prefix_append _ _
      · rw [append_nil]
        exact hinv.agreed i
    · rw [update_of_ne r.peer_ne]
      have hbefore := hinv.agreed r.peer
      rw [peer_peer] at hbefore ⊢
      rw [System.ep_received_self, hreads.offer (hinv.tracked.wf r)]
      exact hbefore

/-- What one move of the system preserves. -/
theorem Inv.step {move : Move} (hP : P.Correct) (hinv : H.Inv P)
    (hadmits : H.sys.admitsReKEM move = true) (hstep : H.step P move = some H') : H'.Inv P := by
  rw [Healing.step] at hstep
  split at hstep
  · cases hstep
  rename_i σ hsys
  cases hstep
  have hslots := hinv.tracked.slotsMatch fun kemShare target => ⟨kemShare, target, rfl⟩
  have htracked := hinv.tracked.step hP (fun kemShare target => ⟨kemShare, target, rfl⟩) hadmits
    (by rintro gen ⟨_, _, h⟩; cases h) hsys
  cases hinv.tracked.takes hP hslots hsys with
  | act hhonest hdoes => exact hinv.acted hP hhonest hdoes hadmits htracked
  | recv hnet hreceiving hvalid hreads =>
    exact hinv.received hnet hreceiving hvalid hreads htracked

/-- **At most one REKEM is unanswered, and both sides heal to the same roots**, in every run in
which no `ReKEM` call enters its `wmu` section over a pending re-KEM. -/
theorem reKEM_single_and_agreed (hP : P.Correct) (master : Bytes)
    (hreach : Run.Reaches (Healing.step P) (fun H move => H.sys.admitsReKEM move = true)
      (Healing.start master) H) (i : Side) : H.sent i ≤ H.answers i + 1
      ∧ H.adopted i <+: H.offered i.peer ++ (H.sys.ep i.peer).offer P := by
  have hinv : H.Inv P :=
    hreach.invariant (Inv.start master) fun _ _ _ hinv hadmits hstep => hinv.step hP hadmits hstep
  exact ⟨hinv.bounded i, hinv.agreed i⟩

def clientKey (n : UInt8) : KEMClient :=
  ⟨replicate 64 n, replicate 32 n, length_replicate, length_replicate⟩

def serverRandom : KEMRandom := ⟨[], replicate 32 7, length_replicate⟩

def twoReKEMs : List Move :=
  [.act .client .reKEMCheck, .act .client .reKEMCheck,
    .act .client (.reKEMKeygen 0 (clientKey 1)), .act .client (.reKEMKeygen 1 (clientKey 2)),
    .act .client (.reKEM 0), .act .client .finish, .act .client (.reKEM 0), .act .client .finish,
    .recv .server, .act .server (.respond 0 serverRandom), .act .server .finish, .recv .client]

def oneReKEM : List Move :=
  [.act .client .reKEMCheck, .act .client (.reKEMKeygen 0 (clientKey 1)), .act .client (.reKEM 0),
    .act .client .finish, .recv .server, .act .server (.respond 0 serverRandom),
    .act .server .finish, .recv .client]

set_option maxRecDepth 100000 in
/-- Two REKEMs are out with no REKEM_ACK read, and the first REKEM_ACK, taken for an answer to the
second REKEM, heals the client to a root the server does not have. -/
theorem reKEM_overwritten :
    ((Run.exec (Healing.step plain) (fun _ _ => true) (Healing.start [1, 2]) (twoReKEMs.take 8)).map
        fun H => (H.sent .client, H.answers .client)) = some (2, 0)
      ∧ ((Run.exec (Healing.step plain) (fun _ _ => true) (Healing.start [1, 2]) twoReKEMs).map
        fun H => decide ((H.adopted .client).length = 1 ∧ (H.offered .server).length = 1
          ∧ (H.sys.ep .server).hold.isNone ∧ H.adopted .client ≠ H.offered .server)) = some true := by
  decide +kernel

set_option maxRecDepth 100000 in
theorem reKEM_single_and_agreed_answered :
    ∃ H, Run.exec (Healing.step plain) (fun H move => H.sys.admitsReKEM move) (Healing.start [1, 2])
        oneReKEM = some H
      ∧ (H.adopted .client).length = 1 ∧ H.sent .client ≤ H.answers .client + 1
      ∧ H.adopted .client <+: H.offered .server ++ (H.sys.ep .server).offer plain := by
  have hrun : (Run.exec (Healing.step plain) (fun H move => H.sys.admitsReKEM move)
      (Healing.start [1, 2]) oneReKEM).map (fun H => (H.adopted .client).length) = some 1 := by
    decide +kernel
  obtain ⟨H, hexec, hlength⟩ := Option.map_eq_some_iff.mp hrun
  exact ⟨H, hexec, hlength,
    reKEM_single_and_agreed plain_correct [1, 2] (Run.Reaches.of_exec hexec) .client⟩

end Healing

end Npamp
