import Npamp.Proof.Solicited

/-!
# Associations that stay up

Runs of the data and key exchanges, without a close: nothing is dropped, no error surfaces, and what
was sent is what is given.
-/

namespace Npamp

open Side List

def Event.isExchange : Event → Bool
  | send _ _ _ => true
  | keyUpdate _ => true
  | ratchetSend => true
  | reKEMCheck => true
  | reKEMKeygen _ _ => true
  | reKEM _ => true
  | respond _ _ => true
  | finish => true
  | _ => false

def Move.isExchange : Move → Bool
  | act _ ev => ev.isExchange
  | recv _ => true

def Outgoing.isExchange : Outgoing → Bool
  | close _ => false
  | closeAck => false
  | sessionError _ => false
  | _ => true

def Outgoing.app? : Outgoing → Option (ChannelID × FrameType × Bytes)
  | app ch ft payload => some (ch, ft, payload)
  | _ => none

def apps (fs : List Flight) : List (ChannelID × FrameType × Bytes) := fs.filterMap (·.msg.app?)

namespace Endpoint

def sentApps (e : Endpoint) : List (ChannelID × FrameType × Bytes) :=
  (e.handed.filter (·.result = .ok)).filterMap (·.msg.app?)

def holdsReKEM (e : Endpoint) : Bool := e.hold.any (·.msg.isReKEM)

/-- At most one `ReKEM` call is running, and it has passed its check. -/
def Sequential (e : Endpoint) : Prop :=
  e.reKEMs = []
    ∨ (e.reKEMs.length = 1 ∧ e.conn.pendingReKEM = none ∧ e.holdsReKEM = false)

/-- Nothing went wrong at this endpoint so far. -/
def Clean (e : Endpoint) : Prop :=
  e.errors = [] ∧ e.conn.droppedUnauthenticated = 0 ∧ e.conn.droppedOutOfSequence = 0

end Endpoint

namespace System

/-- A `ReKEM` call starts only when no other one of its endpoint is running. -/
def sequentialReKEM (σ : System) : Move → Bool
  | .act s .reKEMCheck => (σ.ep s).reKEMs.isEmpty && !(σ.ep s).holdsReKEM
  | _ => true

end System

variable {P : Primitives}

theorem Outgoing.slot_of_isReKEM {m : Outgoing} (h : m.isReKEM = false) : m.slot = none := by
  cases m with
  | reKEM client kemShare target => cases h
  | _ => rfl

theorem Outgoing.slot_isSome {m : Outgoing} (h : m.isReKEM = true) : m.slot.isSome := by
  cases m with
  | reKEM client kemShare target => rfl
  | _ => cases h

namespace Conn

theorem dropped_register (c : Conn) (m : Outgoing) :
    (c.register m).droppedUnauthenticated = c.droppedUnauthenticated
      ∧ (c.register m).droppedOutOfSequence = c.droppedOutOfSequence := by
  cases m <;> exact ⟨rfl, rfl⟩

theorem dropped_afterWrite (c : Conn) (m : Outgoing) (written : Bool) :
    (c.afterWrite P m written).droppedUnauthenticated = c.droppedUnauthenticated
      ∧ (c.afterWrite P m written).droppedOutOfSequence = c.droppedOutOfSequence := by
  cases written with
  | false => cases m <;> exact ⟨rfl, rfl⟩
  | true =>
    obtain ⟨root, gen, keys, heq⟩ := afterWrite_eq (P := P) c m
    rw [heq]
    exact ⟨rfl, rfl⟩

end Conn

namespace Endpoint

variable {e e' : Endpoint} {ev : Event} {m : Outgoing}

theorem Does.keepsReceiving (h : e.Does P .ok ev e') (hev : ev.isExchange = true)
    (hreceiving : e.Receiving) : e'.Receiving := by
  have hrequests : ∀ {call : Call} {e₁ : Endpoint}, e.Requests ev call e₁ → e₁.Receiving := by
    intro call e₁ hrequest
    cases hrequest with
    | react hdue hcall => cases hev
    | _ => exact hreceiving
  cases h with
  | refused hhold hrequest hc =>
    have hkept := hrequests hrequest
    exact hkept
  | sealed hhold hrequest hopen hmakes =>
    have hkept := hrequests hrequest
    exact hkept
  | close => cases hev
  | _ => exact hreceiving

theorem Does.exchange_written (h : e.Does P .ok ev e') (hev : ev.isExchange = true) :
    ∀ f ∈ System.written e e', f.msg.isExchange = true := by
  intro f hf
  rcases h.written_cases with hnone | ⟨call, e₁, m, -, hrequest, -, hmakes, -, -, hwritten⟩
  · rw [hnone] at hf
    cases hf
  rw [hwritten, mem_singleton] at hf
  subst hf
  cases hrequest with
  | @respond i rand task htask => cases task <;> cases hmakes <;> rfl
  | react hdue hcall => cases hev
  | sendClose => cases hev
  | _ =>
    cases hmakes
    rfl

theorem Does.clean (h : e.Does P .ok ev e') (hclean : e.Clean) : e'.Clean := by
  obtain ⟨herrors, hunauthenticated, hsequence⟩ := hclean
  cases h with
  | refused hhold hrequest hc =>
    obtain ⟨_, _, _, _, rfl⟩ := hrequest.eq
    rcases hc with rfl | ⟨ch, rfl⟩ <;> exact ⟨herrors, hunauthenticated, hsequence⟩
  | @sealed _ call e₁ m hhold hrequest hopen hmakes =>
    obtain ⟨_, _, _, _, rfl⟩ := hrequest.eq
    obtain ⟨hfirst, hsecond⟩ := Conn.dropped_register (e.conn.cacheSend P m.channel) m
    exact ⟨herrors, hfirst.trans hunauthenticated, hsecond.trans hsequence⟩
  | @finished h hhold =>
    obtain ⟨hfirst, hsecond⟩ := Conn.dropped_afterWrite (P := P) e.conn h.msg h.written
    exact ⟨herrors, hfirst.trans hunauthenticated, hsecond.trans hsequence⟩
  | _ => exact ⟨herrors, hunauthenticated, hsequence⟩

theorem Requests.reKEMs {call : Call} {e₁ : Endpoint} (h : e.Requests ev call e₁)
    (hsequential : e.Sequential) :
    e₁.reKEMs = [] ∨ (e₁.reKEMs = e.reKEMs ∧ ∀ i, ev ≠ .reKEM i) := by
  cases h with
  | @reKEM i client hkeyed =>
    left
    rcases hsequential with hnone | ⟨hone, -⟩
    · rw [hnone] at hkeyed
      cases hkeyed
    obtain ⟨running, hrunning⟩ := length_eq_one_iff.mp hone
    rw [hrunning] at hkeyed
    cases i with
    | zero => simp [hrunning]
    | succ i => cases hkeyed
  | _ => exact .inr ⟨rfl, fun _ => Event.noConfusion⟩

theorem Does.sequential (h : e.Does P .ok ev e') (hsequential : e.Sequential)
    (hcheck : ev = .reKEMCheck → e.reKEMs = [] ∧ e.holdsReKEM = false) : e'.Sequential := by
  cases h with
  | @refused _ call e₁ c hhold hrequest hc =>
    have hslot : c.pendingReKEM = e.conn.pendingReKEM := by
      rcases hc with rfl | ⟨ch, rfl⟩ <;> rfl
    rcases hrequest.reKEMs hsequential with hnone | ⟨hsame, -⟩
    · exact .inl hnone
    obtain ⟨_, _, _, _, rfl⟩ := hrequest.eq
    rcases hsequential with hnone | ⟨hone, hfree, hhold'⟩
    · exact .inl (hsame.trans hnone)
    · exact .inr ⟨(congrArg length hsame).trans hone, hslot.trans hfree, hhold'⟩
  | @sealed _ call e₁ m hhold hrequest hopen hmakes =>
    rcases hrequest.reKEMs hsequential with hnone | ⟨hsame, hother⟩
    · exact .inl hnone
    have hmsg : m.isReKEM = false := by
      by_contra hreKEM
      obtain ⟨i, hev⟩ := hrequest.of_slot hmakes
        (Outgoing.slot_isSome (by simpa using hreKEM))
      exact hother i hev
    obtain ⟨_, _, _, _, rfl⟩ := hrequest.eq
    rcases hsequential with hnone | ⟨hone, hfree, -⟩
    · exact .inl (hsame.trans hnone)
    · refine .inr ⟨(congrArg length hsame).trans hone, ?_, hmsg⟩
      exact (Conn.pendingReKEM_register (e.conn.cacheSend P m.channel) m).trans hfree
  | @finished h hhold =>
    rcases hsequential with hnone | ⟨hone, hfree, hother⟩
    · exact .inl hnone
    have hmsg : h.msg.isReKEM = false := by
      simpa [holdsReKEM, hhold] using hother
    refine .inr ⟨hone, ?_, rfl⟩
    have hslot := Conn.pendingReKEM_afterWrite (P := P) e.conn h.msg h.written
    rw [Outgoing.slot_of_isReKEM hmsg, Option.none_or, ite_self] at hslot
    exact hslot.trans hfree
  | reKEMCheck hpending =>
    obtain ⟨hnone, hother⟩ := hcheck rfl
    refine .inr ⟨?_, hpending, hother⟩
    simp only [hnone, nil_append, length_singleton]
  | reKEMKeygen hcall =>
    rcases hsequential with hnone | ⟨hone, hfree, hother⟩
    · rw [hnone] at hcall
      cases hcall
    · exact .inr ⟨(length_set).trans hone, hfree, hother⟩
  | zeroize hraw hhold =>
    rcases hsequential with hnone | ⟨hone, -, hother⟩
    · exact .inl hnone
    · exact .inr ⟨hone, rfl, hother⟩
  | _ => exact hsequential

theorem Does.admitsReKEM {i : Nat} (h : e.Does P .ok (.reKEM i) e') (hsequential : e.Sequential) :
    e.conn.pendingReKEM = none := by
  have hrunning : ∀ {call : Call} {e₁ : Endpoint}, e.Requests (.reKEM i) call e₁ →
      e.conn.pendingReKEM = none := by
    intro call e₁ hrequest
    cases hrequest with
    | reKEM hkeyed =>
      rcases hsequential with hnone | ⟨-, hfree, -⟩
      · rw [hnone] at hkeyed
        cases hkeyed
      · exact hfree
  cases h with
  | refused hhold hrequest hc => exact hrunning hrequest
  | sealed hhold hrequest hopen hmakes => exact hrunning hrequest

theorem Reads.sequential (h : e.Reads P m e') (hsequential : e.Sequential) : e'.Sequential := by
  have hreKEMs : e'.reKEMs = e.reKEMs := by cases h <;> rfl
  rcases hsequential with hnone | ⟨hone, hfree, hother⟩
  · exact .inl (hreKEMs.trans hnone)
  refine .inr ⟨(congrArg length hreKEMs).trans hone, ?_, ?_⟩
  · rcases h.pendingReKEM with hsame | hnone
    · exact hsame.trans hfree
    · exact hnone
  · simpa only [holdsReKEM, h.hold] using hother

/-- A solicited message of the exchange neither stops the receive loop nor counts as an error. -/
theorem Reads.undisturbed (h : e.Reads P m e') (hexchange : m.isExchange = true)
    (hsolicited : ¬ m.Unsolicited e.conn) (hreceiving : e.Receiving) (hclean : e.Clean) :
    e'.Receiving ∧ e'.Clean := by
  cases h with
  | close => cases hexchange
  | closeAck hclosing => cases hexchange
  | sessionError => cases hexchange
  | unsolicited hunsolicited => exact absurd hunsolicited hsolicited
  | _ => exact ⟨hreceiving, hclean⟩

theorem sentApps_of_handed_eq (hhanded : e'.handed = e.handed) (hhold : e'.hold = e.hold) :
    e'.sentApps = e.sentApps ++ apps (System.written e e') := by
  rw [written_of_hold_eq hhold, sentApps, sentApps, hhanded]
  exact (append_nil _).symm

theorem Does.sentApps (h : e.Does P .ok ev e') :
    e'.sentApps = e.sentApps ++ apps (System.written e e') := by
  cases h with
  | refused hhold hrequest hc =>
    obtain ⟨_, _, _, _, rfl⟩ := hrequest.eq
    exact sentApps_of_handed_eq rfl rfl
  | @sealed _ call e₁ m hhold hrequest hopen hmakes =>
    have hsame : e₁.handed = e.handed := by
      obtain ⟨_, _, _, _, rfl⟩ := hrequest.eq
      rfl
    rw [written_sealing hhold]
    simp only [Endpoint.sentApps, Endpoint.sealing, hsame]
    generalize e₁.writeWire (m.wire P ((e₁.conn.sendView P).keys m.channel)) .ok = result
    cases result with
    | ok => simp [apps, filterMap_cons]
    | _ => simp [apps]
  | @finished h hhold =>
    rw [written_finish hhold]
    exact (append_nil _).symm
  | _ => exact sentApps_of_handed_eq rfl rfl

theorem Does.delivered (h : e.Does P .ok ev e') : e'.delivered = e.delivered := by
  cases h with
  | refused hhold hrequest hc =>
    obtain ⟨_, _, _, _, rfl⟩ := hrequest.eq
    rfl
  | sealed hhold hrequest hopen hmakes =>
    obtain ⟨_, _, _, _, rfl⟩ := hrequest.eq
    rfl
  | _ => rfl

theorem Reads.delivered (h : e.Reads P m e') : e'.delivered = e.delivered ++ m.app?.toList := by
  cases h with
  | app => rfl
  | unsolicited hunsolicited => cases m <;> first | cases hunsolicited | exact (append_nil _).symm
  | _ => exact (append_nil _).symm

end Endpoint

namespace System

variable {σ σ' : System} {move : Move}

/-- The invariant of a system whose writes succeed: nobody has stopped, nothing was dropped, and
each side has delivered or still has on the wire what the other sent. -/
structure Running (P : Primitives) (σ : System) : Prop
    extends Tracked P (fun _ => True) σ where
  receiving : ∀ s, (σ.ep s).Receiving
  exchange : ∀ s, ∀ f ∈ σ.net s, f.msg.isExchange = true
  sequential : ∀ s, (σ.ep s).Sequential
  clean : ∀ s, (σ.ep s).Clean
  delivery : ∀ r, (σ.ep r).delivered ++ apps (σ.net r.peer) = (σ.ep r.peer).sentApps

theorem Running.newSystem (master : Bytes) : (newSystem master).Running P where
  toTracked := Tracked.newSystem master
  receiving _ := ⟨rfl, rfl⟩
  exchange _ _ hf := by cases hf
  sequential _ := .inl rfl
  clean _ := ⟨rfl, rfl, rfl⟩
  delivery _ := rfl

theorem Running.solicited (hrunning : σ.Running P) {r : Side} {f : Flight} {rest : List Flight}
    (hnet : σ.net r.peer = f :: rest) (hregisters : σ.registersFirst (.recv r) = true) :
    ¬ f.msg.Unsolicited (σ.ep r).conn := by
  have hexchange := hrunning.exchange r.peer f (by rw [hnet]; exact mem_cons_self)
  refine hrunning.toTracked.solicited hnet (hrunning.receiving r).1 hregisters fun hack => ?_
  generalize f.msg = m at hexchange hack
  cases m with
  | closeAck => cases hexchange
  | _ => cases hack

theorem Running.acted (hrunning : σ.Running P) {s : Side} {ev : Event} {e : Endpoint}
    (hdoes : (σ.ep s).Does P .ok ev e) (hev : ev.isExchange = true)
    (hcheck : σ.sequentialReKEM (.act s ev) = true)
    (htracked : (σ.acted s e).Tracked P (fun _ => True)) : (σ.acted s e).Running P := by
  refine ⟨htracked, fun t => ?_, fun t => ?_, fun t => ?_, fun t => ?_, fun t => ?_⟩
  · rcases eq_or_eq_peer s t with rfl | rfl
    · rw [ep_acted_self]
      exact hdoes.keepsReceiving hev (hrunning.receiving t)
    · rw [ep_acted_peer]
      exact hrunning.receiving s.peer
  · rcases eq_or_eq_peer s t with rfl | rfl
    · rw [net_acted_self]
      intro f hf
      rcases mem_append.mp hf with hbefore | hwritten
      · exact hrunning.exchange t f hbefore
      · exact hdoes.exchange_written hev f hwritten
    · rw [net_acted_peer]
      exact hrunning.exchange s.peer
  · rcases eq_or_eq_peer s t with rfl | rfl
    · rw [ep_acted_self]
      refine hdoes.sequential (hrunning.sequential t) ?_
      rintro rfl
      simpa [sequentialReKEM] using hcheck
    · rw [ep_acted_peer]
      exact hrunning.sequential s.peer
  · rcases eq_or_eq_peer s t with rfl | rfl
    · rw [ep_acted_self]
      exact hdoes.clean (hrunning.clean t)
    · rw [ep_acted_peer]
      exact hrunning.clean s.peer
  · rcases eq_or_eq_peer s t with rfl | rfl
    · rw [ep_acted_self, ep_acted_peer, net_acted_peer, hdoes.delivered]
      exact hrunning.delivery t
    have hbefore := hrunning.delivery s.peer
    rw [peer_peer] at hbefore ⊢
    rw [ep_acted_peer, ep_acted_self, net_acted_self, hdoes.sentApps, ← hbefore, apps,
      filterMap_append, append_assoc]
    rfl

theorem Running.received (hrunning : σ.Running P) {r : Side} {f : Flight} {rest : List Flight}
    {e : Endpoint} (hnet : σ.net r.peer = f :: rest) (hreads : (σ.ep r).Reads P f.msg e)
    (hregisters : σ.registersFirst (.recv r) = true)
    (htracked : (σ.received r e rest).Tracked P (fun _ => True)) :
    (σ.received r e rest).Running P := by
  have hexchange := hrunning.exchange r.peer
  rw [hnet] at hexchange
  obtain ⟨hreceiving, hclean⟩ := hreads.undisturbed (hexchange f mem_cons_self)
    (hrunning.solicited hnet hregisters) (hrunning.receiving r) (hrunning.clean r)
  refine ⟨htracked, fun t => ?_, fun t => ?_, fun t => ?_, fun t => ?_, fun t => ?_⟩
  · rcases eq_or_eq_peer r t with rfl | rfl
    · rw [ep_received_self]
      exact hreceiving
    · rw [ep_received_peer]
      exact hrunning.receiving r.peer
  · rcases eq_or_eq_peer r t with rfl | rfl
    · rw [net_received_self]
      exact hrunning.exchange t
    · rw [net_received_peer]
      exact fun g hg => hexchange g (mem_cons_of_mem f hg)
  · rcases eq_or_eq_peer r t with rfl | rfl
    · rw [ep_received_self]
      exact hreads.sequential (hrunning.sequential t)
    · rw [ep_received_peer]
      exact hrunning.sequential r.peer
  · rcases eq_or_eq_peer r t with rfl | rfl
    · rw [ep_received_self]
      exact hclean
    · rw [ep_received_peer]
      exact hrunning.clean r.peer
  · rcases eq_or_eq_peer r t with rfl | rfl
    · have hbefore := hrunning.delivery t
      rw [ep_received_self, ep_received_peer, net_received_peer, hreads.delivered, ← hbefore, hnet,
        append_assoc]
      congr 1
      cases happ : f.msg.app? with
      | none => simp [apps, happ]
      | some sent => simp [apps, happ]
    · have hbefore := hrunning.delivery r.peer
      rw [peer_peer] at hbefore ⊢
      have hsent : e.sentApps = (σ.ep r).sentApps := by
        rw [Endpoint.sentApps, Endpoint.sentApps, hreads.handed]
      rw [ep_received_peer, ep_received_self, net_received_self, hsent]
      exact hbefore

def steady (σ : System) (move : Move) : Bool :=
  move.isExchange && σ.sequentialReKEM move && σ.freshRatchet move && σ.registersFirst move

theorem Running.admitsReKEM (hrunning : σ.Running P) (hstep : σ.step P move = some σ') :
    σ.admitsReKEM move = true := by
  cases step_does hstep with
  | recv hnet hrecv => rfl
  | @act s ev e hhonest hdoes =>
    cases ev with
    | reKEM i => exact Option.isNone_iff_eq_none.mpr (hdoes.admitsReKEM (hrunning.sequential s))
    | _ => rfl

theorem Running.takes (hP : P.Correct) (hrunning : σ.Running P)
    (hstep : σ.step P move = some σ') : σ.Takes P move σ' :=
  hrunning.toSound.takes hP (hrunning.toTracked.slotsMatch fun _ _ => trivial) hstep

/-- What one move preserves: the two endpoints go on. -/
theorem Running.step (hP : P.Correct) (hrunning : σ.Running P) (hsteady : σ.steady move = true)
    (hstep : σ.step P move = some σ') : σ'.Running P := by
  simp only [steady, Bool.and_eq_true] at hsteady
  obtain ⟨⟨⟨hexchange, hsequential⟩, hfresh⟩, hregisters⟩ := hsteady
  have htracked := hrunning.toTracked.step hP (fun _ _ => trivial) (hrunning.admitsReKEM hstep)
    (fun _ _ => hfresh) hstep
  cases hrunning.takes hP hstep with
  | act hhonest hdoes => exact hrunning.acted hdoes hexchange hsequential htracked
  | recv hnet hreceiving hvalid hreads => exact hrunning.received hnet hreads hregisters htracked

end System

end Npamp
