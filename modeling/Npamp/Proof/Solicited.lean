import Npamp.Proof.Heal

/-!
# Every acknowledgement is solicited

Most acknowledgements are covered by the accounts. An endpoint stays CLOSING from the write of its
CLOSE until the one CLOSE_ACK its peer can send is read.
-/

namespace Npamp

open Side

def Outgoing.isClose : Outgoing → Bool
  | close _ => true
  | _ => false

def Outgoing.isCloseAck : Outgoing → Bool
  | closeAck => true
  | _ => false

def Outgoing.isSessionError : Outgoing → Bool
  | sessionError _ => true
  | _ => false

def closes (fs : List Flight) : Nat := fs.countP (·.msg.isClose)

def closeAcks (fs : List Flight) : Nat := fs.countP (·.msg.isCloseAck)

def Reaction.isError : Reaction → Bool
  | due (.emitError _ _) => true
  | _ => false

namespace System

/-- No REKEM_ACK is read between the write of its REKEM and the registration of `pendingReKEM`. -/
def registersFirst (σ : System) : Move → Bool
  | .recv r =>
    match σ.net r.peer with
    | f :: _ => !(f.msg.isReKEMAck && (σ.ep r).heldSlot.isSome)
    | [] => true
  | _ => true

/-- No CLOSE_ACK is read between the moment a `CloseGraceful` gives up and its `Close`. -/
def awaitsClose (σ : System) : Move → Bool
  | .recv r =>
    match σ.net r.peer with
    | f :: _ => !(f.msg.isCloseAck && (σ.ep r).abandoned)
    | [] => true
  | _ => true

def orderly (σ : System) (move : Move) : Bool :=
  σ.admitsReKEM move && σ.freshRatchet move && σ.registersFirst move && σ.awaitsClose move

end System

variable {P : Primitives}

theorem closes_append (fs gs : List Flight) : closes (fs ++ gs) = closes fs + closes gs :=
  List.countP_append

theorem closeAcks_append (fs gs : List Flight) :
    closeAcks (fs ++ gs) = closeAcks fs + closeAcks gs :=
  List.countP_append

theorem closes_cons (f : Flight) (fs : List Flight) :
    closes (f :: fs) = closes fs + if f.msg.isClose then 1 else 0 :=
  List.countP_cons

theorem closeAcks_cons (f : Flight) (fs : List Flight) :
    closeAcks (f :: fs) = closeAcks fs + if f.msg.isCloseAck then 1 else 0 :=
  List.countP_cons

namespace Endpoint

variable {e e' : Endpoint} {ev : Event} {m : Outgoing}

theorem Does.abandoned (h : e.Does P .ok ev e') (hwaiting : e'.abandoned = false) :
    e.abandoned = false := by
  cases h with
  | refused hhold hrequest hc =>
    obtain ⟨_, _, _, _, rfl⟩ := hrequest.eq
    exact hwaiting
  | sealed hhold hrequest hopen hmakes =>
    obtain ⟨_, _, _, _, rfl⟩ := hrequest.eq
    exact hwaiting
  | closeAbandoned hclosers => cases hwaiting
  | _ => exact hwaiting

theorem Does.closing (h : e.Does P .ok ev e') (hwf : e.WF P) (hraw : e'.rawClosed = false)
    (hwaiting : e'.abandoned = false) (hclosing : e.conn.closing = true) :
    e'.conn.closing = true := by
  cases h with
  | refused hhold hrequest hc => rcases hc with rfl | ⟨ch, rfl⟩ <;> exact hclosing
  | @sealed _ call e₁ m hhold hrequest hopen hmakes =>
    obtain ⟨_, _, _, _, rfl⟩ := hrequest.eq
    cases m with
    | close ackCh => rfl
    | _ => exact hclosing
  | @finished h hhold =>
    cases hwritten : h.written with
    | true =>
      obtain ⟨root, gen, keys, hafter⟩ := Conn.afterWrite_eq (P := P) e.conn h.msg
      simp only [Endpoint.finish, hwritten, hafter, hclosing]
    | false =>
      obtain ⟨ch, ft, payload, hmsg⟩ := hwf.unwritten hraw h hhold hwritten
      simp only [Endpoint.finish, hwritten, hmsg]
      exact hclosing
  | closeAbandoned hclosers => cases hwaiting
  | zeroize hclosed hhold =>
    rw [hclosed] at hraw
    cases hraw
  | _ => exact hclosing

theorem Does.closes_written (h : e.Does P .ok ev e') :
    closes (System.written e e') = 0 ∨ e'.conn.closing = true := by
  rcases h.written_cases with hnone | ⟨call, e₁, m, -, -, -, -, rfl, -, hwritten⟩
  · rw [hnone]
    exact .inl rfl
  rw [hwritten]
  cases m with
  | close ackCh => exact .inr rfl
  | _ => exact .inl rfl

theorem Requests.reaction_cases {call : Call} {e₁ : Endpoint} (h : e.Requests ev call e₁) :
    e₁.reaction = e.reaction
      ∨ ∃ act, e.reaction = some (.due act) ∧ e₁.reaction = some .performed := by
  cases h with
  | react hdue hcall => exact .inr ⟨_, hdue, rfl⟩
  | _ => exact .inl rfl

theorem Does.reaction_cases (h : e.Does P .ok ev e') : e'.reaction = e.reaction
      ∨ ∃ act, e.reaction = some (.due act) ∧ e'.reaction = some .performed := by
  cases h with
  | refused hhold hrequest hc =>
    have hreaction := hrequest.reaction_cases
    exact hreaction
  | sealed hhold hrequest hopen hmakes =>
    have hreaction := hrequest.reaction_cases
    exact hreaction
  | _ => exact .inl rfl

theorem Requests.of_sessionError {call : Call} {e₁ : Endpoint} {c : Conn}
    (h : e.Requests ev call e₁) (hmakes : call.Makes P c m) (herror : m.isSessionError = true) :
    ∃ r, e.reaction = some r ∧ r.isError = true := by
  cases h with
  | @respond i rand task htask => cases task <;> cases hmakes <;> cases herror
  | @react act call hdue hcall =>
    cases act with
    | emitError code err => exact ⟨_, hdue, rfl⟩
    | closeAck =>
      cases hcall
      cases hmakes
      cases herror
    | _ => cases hcall
  | _ =>
    cases hmakes
    cases herror

theorem Does.closeAcks_written (h : e.Does P .ok ev e') : closeAcks (System.written e e') = 0
      ∨ (closeAcks (System.written e e') = 1 ∧ e.reaction = some (.due .closeAck)
        ∧ e'.reaction = some .performed) := by
  rcases h.written_cases with hnone | ⟨call, e₁, m, -, hrequest, -, hmakes, rfl, -, hwritten⟩
  · rw [hnone]
    exact .inl rfl
  rw [hwritten]
  cases m with
  | closeAck => exact .inr ⟨rfl, hrequest.of_closeAck hmakes⟩
  | _ => exact .inl rfl

theorem Does.handed_cases (h : e.Does P .ok ev e') :
    e'.handed = e.handed ∨ ∃ call e₁ m st result, e.Requests ev call e₁ ∧ call.Makes P e.conn m
      ∧ e'.handed = e.handed ++ [⟨st, m, result⟩] := by
  cases h with
  | refused hhold hrequest hc =>
    obtain ⟨_, _, _, _, rfl⟩ := hrequest.eq
    exact .inl rfl
  | @sealed _ call e₁ m hhold hrequest hopen hmakes =>
    have hsame : e₁.handed = e.handed := by
      obtain ⟨_, _, _, _, rfl⟩ := hrequest.eq
      rfl
    simp only [Endpoint.sealing, hsame]
    split
    · exact .inl rfl
    · exact .inr ⟨call, e₁, m, _, _, hrequest, hmakes, rfl⟩
  | _ => exact .inl rfl

theorem Reads.abandoned (h : e.Reads P m e') : e'.abandoned = e.abandoned := by
  cases h <;> rfl

theorem Reads.handed (h : e.Reads P m e') : e'.handed = e.handed := by
  cases h <;> rfl

theorem Reads.closing (h : e.Reads P m e') (hack : m.isCloseAck = false) :
    e'.conn.closing = e.conn.closing := by
  cases h with
  | closeAck hclosing => cases hack
  | _ => rfl

theorem Reads.reaction_cases (h : e.Reads P m e') (hsolicited : ¬ m.Unsolicited e.conn) :
    e'.reaction = e.reaction
      ∨ (m.isClose = true ∧ e'.reaction = some (.due .closeAck))
      ∨ ∃ err, e'.reaction = some (.due (.peerError err)) := by
  cases h with
  | close => exact .inr (.inl ⟨rfl, rfl⟩)
  | sessionError => exact .inr (.inr ⟨_, rfl⟩)
  | unsolicited hunsolicited => exact absurd hunsolicited hsolicited
  | _ => exact .inl rfl

end Endpoint

namespace System

variable {σ σ' : System} {move : Move}

/-- A close of side `i` is on its way to be acknowledged. -/
def CloseOpen (σ : System) (i : Side) : Prop :=
  closeAcks (σ.net i.peer) ≠ 0 ∨ (σ.ep i.peer).reaction = some (.due .closeAck)
    ∨ ((σ.ep i.peer).Receiving ∧ closes (σ.net i) ≠ 0)

/-- What holds as long as every acknowledgement is solicited. -/
structure Solicited (P : Primitives) (σ : System) : Prop
    extends Tracked P (fun _ => True) σ where
  oneAck : ∀ j, closeAcks (σ.net j) ≤ 1
  ackLast : ∀ j, closeAcks (σ.net j) ≠ 0 → (σ.ep j).reaction = some .performed
  closing : ∀ i, (σ.ep i).Receiving → (σ.ep i).abandoned = false → σ.CloseOpen i →
    (σ.ep i).conn.closing = true
  noError : ∀ s r, (σ.ep s).reaction = some r → r.isError = false
  handed : ∀ s, ∀ h ∈ (σ.ep s).handed, h.msg.isSessionError = false

theorem Solicited.newSystem (master : Bytes) : (newSystem master).Solicited P where
  toTracked := Tracked.newSystem master
  oneAck _ := Nat.zero_le _
  ackLast _ h := absurd rfl h
  closing i _ _ hopen := by
    rcases hopen with h | h | ⟨-, h⟩
    · exact absurd rfl h
    · cases h
    · exact absurd rfl h
  noError s r h := by cases h
  handed s h hmem := by cases hmem

variable {r : Side} {f : Flight} {rest : List Flight}

/-- **The next acknowledgement is solicited**, a CLOSE_ACK if the endpoint is CLOSING. -/
theorem Tracked.solicited (htracked : σ.Tracked P (fun _ => True)) (hnet : σ.net r.peer = f :: rest)
    (hraw : (σ.ep r).rawClosed = false) (hregisters : σ.registersFirst (.recv r) = true)
    (hclosing : f.msg.isCloseAck = true → (σ.ep r).conn.closing = true) :
    ¬ f.msg.Unsolicited (σ.ep r).conn := by
  simp only [registersFirst, hnet] at hregisters
  have hpos : ∀ t, f.msg.answers = some t → 0 < (σ.ep r).awaits t := fun t hanswers =>
    htracked.awaits_pos trivial hnet hraw hanswers
  generalize f.msg = m at hpos hregisters hclosing ⊢
  intro hunsolicited
  cases m with
  | keyUpdateAck ch epoch => exact absurd hunsolicited (hpos (.keyUpdate ch epoch) rfl).ne'
  | masterRatchetAck gen =>
    have hawaits := hpos (.masterRatchet gen) rfl
    simp only [Endpoint.awaits, if_neg hunsolicited] at hawaits
    exact absurd hawaits (lt_irrefl 0)
  | reKEMAck kemShare kemCT newSS th target =>
    change (σ.ep r).conn.pendingReKEM = none at hunsolicited
    have hheld : (σ.ep r).heldSlot = none := by
      simpa [Outgoing.isReKEMAck] using hregisters
    have hawaits := hpos (.reKEM kemShare target) rfl
    simp [Endpoint.awaits, hunsolicited, hheld] at hawaits
  | closeAck =>
    change (σ.ep r).conn.closing = false at hunsolicited
    rw [hclosing rfl] at hunsolicited
    cases hunsolicited
  | _ => exact hunsolicited

theorem Solicited.solicited (hsolicited : σ.Solicited P) (hnet : σ.net r.peer = f :: rest)
    (hreceiving : (σ.ep r).Receiving) (hregisters : σ.registersFirst (.recv r) = true)
    (hawaits : σ.awaitsClose (.recv r) = true) : ¬ f.msg.Unsolicited (σ.ep r).conn := by
  refine hsolicited.toTracked.solicited hnet hreceiving.1 hregisters fun hack => ?_
  simp only [awaitsClose, hnet, hack, Bool.true_and, Bool.not_eq_true'] at hawaits
  refine hsolicited.closing r hreceiving hawaits (.inl ?_)
  rw [hnet, closeAcks_cons, if_pos hack]
  exact Nat.succ_ne_zero _

theorem Solicited.acted (hsolicited : σ.Solicited P) {s : Side} {ev : Event} {e : Endpoint}
    (hdoes : (σ.ep s).Does P .ok ev e) (htracked : (σ.acted s e).Tracked P (fun _ => True)) :
    (σ.acted s e).Solicited P := by
  refine ⟨htracked, fun j => ?_, fun j => ?_, fun i => ?_, fun t => ?_, fun t => ?_⟩
  · rcases eq_or_eq_peer s j with rfl | rfl
    · have hone := hsolicited.oneAck j
      rw [net_acted_self, closeAcks_append]
      rcases hdoes.closeAcks_written with hnone | ⟨hwrote, hdue, -⟩
      · omega
      have hzero : closeAcks (σ.net j) = 0 := by
        by_contra hsome
        rw [hsolicited.ackLast j hsome] at hdue
        cases hdue
      omega
    · rw [net_acted_peer]
      exact hsolicited.oneAck s.peer
  · rcases eq_or_eq_peer s j with rfl | rfl
    · rw [net_acted_self, ep_acted_self, closeAcks_append]
      intro hsome
      rcases hdoes.closeAcks_written with hnone | ⟨-, -, hperformed⟩
      · have hbefore := hsolicited.ackLast j (by omega)
        rcases hdoes.reaction_cases with hsame | ⟨act, hdue, -⟩
        · rw [hsame]
          exact hbefore
        · rw [hbefore] at hdue
          cases hdue
      · exact hperformed
    · rw [net_acted_peer, ep_acted_peer]
      exact hsolicited.ackLast s.peer
  · rcases eq_or_eq_peer s i with rfl | rfl
    · rw [CloseOpen, ep_acted_self, ep_acted_peer, net_acted_peer, net_acted_self, closes_append]
      intro hreceiving hwaiting hopen
      have hkeeps := hdoes.closing (hsolicited.wf i) hreceiving.1 hwaiting
      have hbefore := hsolicited.closing i (hdoes.receiving hreceiving) (hdoes.abandoned hwaiting)
      rcases hdoes.closes_written with hnone | hclosing
      · rw [hnone] at hopen
        exact hkeeps (hbefore hopen)
      · exact hclosing
    · rw [CloseOpen, ep_acted_peer, peer_peer, ep_acted_self, net_acted_peer, net_acted_self,
        closeAcks_append]
      intro hreceiving hwaiting hopen
      refine hsolicited.closing s.peer hreceiving hwaiting ?_
      rw [CloseOpen, peer_peer]
      rcases hopen with hack | hdue | ⟨hrunning, hclose⟩
      · rcases hdoes.closeAcks_written with hnone | ⟨-, hdue, -⟩
        · exact .inl (by omega)
        · exact .inr (.inl hdue)
      · rcases hdoes.reaction_cases with hsame | ⟨act, -, hperformed⟩
        · exact .inr (.inl (hsame.symm.trans hdue))
        · rw [hperformed] at hdue
          cases hdue
      · exact .inr (.inr ⟨hdoes.receiving hrunning, hclose⟩)
  · rcases eq_or_eq_peer s t with rfl | rfl
    · rw [ep_acted_self]
      intro r hr
      rcases hdoes.reaction_cases with hsame | ⟨act, -, hperformed⟩
      · exact hsolicited.noError t r (hsame.symm.trans hr)
      · rw [hperformed] at hr
        cases hr
        rfl
    · rw [ep_acted_peer]
      exact hsolicited.noError s.peer
  · rcases eq_or_eq_peer s t with rfl | rfl
    · rw [ep_acted_self]
      intro h hmem
      rcases hdoes.handed_cases with hsame | ⟨call, e₁, m, st, result, hrequest, hmakes, hhanded⟩
      · rw [hsame] at hmem
        exact hsolicited.handed t h hmem
      rw [hhanded, List.mem_append, List.mem_singleton] at hmem
      rcases hmem with hold | rfl
      · exact hsolicited.handed t h hold
      by_contra herror
      obtain ⟨r, hreaction, hisError⟩ :=
        hrequest.of_sessionError hmakes (Bool.not_eq_false _ ▸ herror)
      rw [hsolicited.noError t r hreaction] at hisError
      cases hisError
    · rw [ep_acted_peer]
      exact hsolicited.handed s.peer

theorem Solicited.received (hsolicited : σ.Solicited P) {e : Endpoint}
    (hnet : σ.net r.peer = f :: rest) (hreceiving : (σ.ep r).Receiving)
    (hreads : (σ.ep r).Reads P f.msg e) (hmsg : ¬ f.msg.Unsolicited (σ.ep r).conn)
    (htracked : (σ.received r e rest).Tracked P (fun _ => True)) :
    (σ.received r e rest).Solicited P := by
  have hacks : closeAcks (σ.net r.peer) = closeAcks rest + if f.msg.isCloseAck then 1 else 0 := by
    rw [hnet, closeAcks_cons]
  have hcloses : closes (σ.net r.peer) = closes rest + if f.msg.isClose then 1 else 0 := by
    rw [hnet, closes_cons]
  refine ⟨htracked, fun j => ?_, fun j => ?_, fun i => ?_, fun t => ?_, fun t => ?_⟩
  · rcases eq_or_eq_peer r j with rfl | rfl
    · rw [net_received_self]
      exact hsolicited.oneAck j
    · rw [net_received_peer]
      have hone := hsolicited.oneAck r.peer
      omega
  · rcases eq_or_eq_peer r j with rfl | rfl
    · rw [net_received_self]
      intro hsome
      have hperformed := hsolicited.ackLast j hsome
      rw [hreceiving.2] at hperformed
      cases hperformed
    · rw [net_received_peer, ep_received_peer]
      intro hsome
      exact hsolicited.ackLast r.peer (by omega)
  · rcases eq_or_eq_peer r i with rfl | rfl
    · rw [CloseOpen, ep_received_self, ep_received_peer, net_received_peer, net_received_self]
      intro hreceiving' hwaiting hopen
      cases hack : f.msg.isCloseAck with
      | true =>
        -- the one CLOSE_ACK of the peer has been read, and the peer reads nothing any more
        rw [hack, if_pos rfl] at hacks
        have hone := hsolicited.oneAck i.peer
        have hperformed := hsolicited.ackLast i.peer (by omega)
        rcases hopen with hrest | hdue | ⟨hrunning, -⟩
        · omega
        · rw [hperformed] at hdue
          cases hdue
        · rw [hrunning.2] at hperformed
          cases hperformed
      | false =>
        rw [hreads.closing hack]
        refine hsolicited.closing i hreceiving (hreads.abandoned.symm.trans hwaiting) ?_
        rcases hopen with hrest | hother
        · exact .inl (by omega)
        · exact .inr hother
    · rw [CloseOpen, ep_received_peer, peer_peer, ep_received_self, net_received_self,
        net_received_peer]
      intro hreceiving' hwaiting hopen
      refine hsolicited.closing r.peer hreceiving' hwaiting ?_
      rw [CloseOpen, peer_peer]
      rcases hopen with hack | hdue | ⟨hrunning, hclose⟩
      · exact .inl hack
      · rcases hreads.reaction_cases hmsg with hsame | ⟨hisClose, -⟩ | ⟨err, hpeer⟩
        · exact .inr (.inl (hsame.symm.trans hdue))
        · rw [hisClose, if_pos rfl] at hcloses
          exact .inr (.inr ⟨hreceiving, by omega⟩)
        · rw [hpeer] at hdue
          cases hdue
      · exact .inr (.inr ⟨hreceiving, by omega⟩)
  · rcases eq_or_eq_peer r t with rfl | rfl
    · rw [ep_received_self]
      intro reaction hreaction
      rcases hreads.reaction_cases hmsg with hsame | ⟨-, hdue⟩ | ⟨err, hpeer⟩
      · exact hsolicited.noError t reaction (hsame.symm.trans hreaction)
      · rw [hdue] at hreaction
        cases hreaction
        rfl
      · rw [hpeer] at hreaction
        cases hreaction
        rfl
    · rw [ep_received_peer]
      exact hsolicited.noError r.peer
  · rcases eq_or_eq_peer r t with rfl | rfl
    · rw [ep_received_self, hreads.handed]
      exact hsolicited.handed t
    · rw [ep_received_peer]
      exact hsolicited.handed r.peer

/-- What one move preserves. -/
theorem Solicited.step (hP : P.Correct) (hsolicited : σ.Solicited P)
    (horderly : σ.orderly move = true) (hstep : σ.step P move = some σ') : σ'.Solicited P := by
  simp only [orderly, Bool.and_eq_true] at horderly
  obtain ⟨⟨⟨hadmits, hfresh⟩, hregisters⟩, hawaits⟩ := horderly
  have hslots := hsolicited.slotsMatch fun _ _ => trivial
  have htracked := hsolicited.toTracked.step hP (fun _ _ => trivial) hadmits (fun _ _ => hfresh) hstep
  cases hsolicited.takes hP hslots hstep with
  | act hhonest hdoes => exact hsolicited.acted hdoes htracked
  | recv hnet hreceiving hvalid hreads =>
    have hmsg := hsolicited.solicited hnet hreceiving hregisters hawaits
    exact hsolicited.received hnet hreceiving hreads hmsg htracked

/-- **No acknowledgement of an honest peer is called unsolicited.** In every orderly run of two
endpoints no receive loop is left with an ERROR to send, and none was sent. -/
theorem acks_solicited (hP : P.Correct) (master : Bytes)
    (hreach : Run.Reaches (System.step P) (fun σ move => σ.orderly move = true)
      (Npamp.newSystem master) σ) (s : Side) :
    (∀ code err, (σ.ep s).reaction ≠ some (.due (.emitError code err)))
      ∧ ∀ h ∈ (σ.ep s).handed, ∀ code, h.msg ≠ .sessionError code := by
  have hsolicited : σ.Solicited P :=
    hreach.invariant (Solicited.newSystem master) fun _ _ _ hinv horderly hstep =>
      hinv.step hP horderly hstep
  refine ⟨fun code err hreaction => ?_, fun h hmem code hmsg => ?_⟩
  · have := hsolicited.noError s _ hreaction
    cases this
  · have := hsolicited.handed s h hmem
    rw [hmsg] at this
    cases this

def earlyReKEMAck : List Move :=
  [.act .client .reKEMCheck, .act .client (.reKEMKeygen 0 (Healing.clientKey 1)),
    .act .client (.reKEM 0), .recv .server, .act .server (.respond 0 Healing.serverRandom),
    .act .server .finish, .recv .client]

set_option maxRecDepth 100000 in
theorem reKEMAck_unsolicited :
    (Run.exec (System.step plain) (fun _ _ => true) (Npamp.newSystem [1, 2]) earlyReKEMAck).map
        (fun σ => (σ.ep .client).reaction)
      = some (some (.due (.emitError errCodeUnexpectedMessage
          Sentinel.errUnsolicitedReKEMAck.err))) := by
  decide +kernel

def allExchanges : List Move :=
  [.act .client (.keyUpdate 1), .act .client .finish, .act .client .ratchetSend,
    .act .client .finish, .act .client .reKEMCheck,
    .act .client (.reKEMKeygen 0 (Healing.clientKey 1)), .act .client (.reKEM 0),
    .act .client .finish, .recv .server, .recv .server, .recv .server,
    .act .server (.respond 2 Healing.serverRandom), .act .server .finish,
    .act .server (.respond 1 Healing.serverRandom), .act .server .finish,
    .act .server (.respond 0 Healing.serverRandom), .act .server .finish,
    .recv .client, .recv .client, .recv .client,
    .act .client .sendClose, .act .client .finish, .recv .server, .act .server .react,
    .act .server .finish, .recv .client]

set_option maxRecDepth 100000 in
theorem acks_solicited_all :
    ∃ σ, Run.exec (System.step plain) orderly (Npamp.newSystem [1, 2]) allExchanges = some σ
      ∧ (σ.ep .client).errors = [Sentinel.errPeerClosed.err]
      ∧ (∀ code err, (σ.ep .client).reaction ≠ some (.due (.emitError code err)))
      ∧ ∀ h ∈ (σ.ep .client).handed, ∀ code, h.msg ≠ .sessionError code := by
  have hrun : (Run.exec (System.step plain) orderly (Npamp.newSystem [1, 2]) allExchanges).map
      (fun σ => (σ.ep .client).errors) = some [Sentinel.errPeerClosed.err] := by
    decide +kernel
  obtain ⟨σ, hexec, herrors⟩ := Option.map_eq_some_iff.mp hrun
  exact ⟨σ, hexec, herrors,
    acks_solicited plain_correct [1, 2] (Run.Reaches.of_exec hexec) .client⟩

end System

end Npamp
