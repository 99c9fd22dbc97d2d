import Npamp.Proof.Running

/-!
# Nothing is left outstanding

As long as REKEM and MASTER_RATCHET do not cross, what an endpoint awaits is exactly what is
outstanding.
-/

namespace Npamp

open Endpoint Side List

def Outgoing.isMasterRatchet : Outgoing → Bool
  | masterRatchet _ => true
  | _ => false

def Responder.isReKEM : Responder → Bool
  | respondReKEM _ _ => true
  | _ => false

namespace System

/-- No `ReKEM` names its target generation while a MASTER_RATCHET of the peer is in flight. -/
def reKEMUncrossed (σ : System) : Move → Bool
  | .act s (.reKEM _) => (σ.net s.peer).all (!·.msg.isMasterRatchet)
  | _ => true

/-- No `RatchetSend` announces a generation while a REKEM of the peer is in flight or waits for its
responder. -/
def ratchetUncrossed (σ : System) : Move → Bool
  | .act s .ratchetSend =>
    (σ.net s.peer).all (!·.msg.isReKEM) && (σ.ep s).responders.all (!·.isReKEM)
  | _ => true

def uncrossed (σ : System) (move : Move) : Bool :=
  σ.steady move && σ.reKEMUncrossed move && σ.ratchetUncrossed move

end System

variable {P : Primitives}

theorem View.gen_afterAll {fs : List Flight} (h : ∀ f ∈ fs, f.msg.ratchets = false) (v : View) :
    (v.afterAll P fs).gen = v.gen := by
  induction fs generalizing v with
  | nil => rfl
  | cons f fs ih =>
    calc (v.afterAll P (f :: fs)).gen = ((v.after P f.msg).afterAll P fs).gen := rfl
      _ = (v.after P f.msg).gen := ih (fun g hg => h g (mem_cons_of_mem f hg)) _
      _ = v.gen := View.gen_after (h f mem_cons_self) v

namespace Endpoint

variable {e e' : Endpoint} {ev : Event}

theorem awaits_reKEM (hsingle : e.Single) :
    ∃ slot : Option PendingReKEM, ∀ kemShare target, e.awaits (.reKEM kemShare target)
      = if slot.map PendingReKEM.token = some (.reKEM kemShare target) then 1 else 0 := by
  have hcount : ∀ (slot : Option PendingReKEM) kemShare target,
      (slot.toList.countP fun pend => pend.token = .reKEM kemShare target)
        = if slot.map PendingReKEM.token = some (.reKEM kemShare target) then 1 else 0 := by
    intro slot kemShare target
    cases slot with
    | none => rfl
    | some pend => simp [countP_cons]
  cases hheld : e.heldSlot with
  | none =>
    refine ⟨e.conn.pendingReKEM, fun kemShare target => ?_⟩
    simp only [awaits, hheld, Option.toList_none, append_nil, hcount]
  | some pend =>
    have hslot : e.conn.pendingReKEM = none := by
      unfold heldSlot at hheld
      split at hheld
      · rename_i h hhold
        split at hheld
        · exact hsingle h hhold (by rw [hheld]; rfl)
        · cases hheld
      · cases hheld
    refine ⟨some pend, fun kemShare target => ?_⟩
    simp only [awaits, hheld, hslot, Option.toList_none, nil_append, hcount]

theorem awaits_reKEM_le (hsingle : e.Single) (kemShare : Bytes) (target : UInt64) :
    e.awaits (.reKEM kemShare target) ≤ 1 := by
  obtain ⟨slot, hslot⟩ := awaits_reKEM hsingle
  rw [hslot]
  split <;> omega

theorem awaits_reKEM_unique (hsingle : e.Single) {share share' : Bytes} {target target' : UInt64}
    (h : 0 < e.awaits (.reKEM share target)) (h' : 0 < e.awaits (.reKEM share' target')) :
    Token.reKEM share target = .reKEM share' target' := by
  obtain ⟨slot, hslot⟩ := awaits_reKEM hsingle
  rw [hslot] at h h'
  split at h
  · split at h'
    · rename_i hfirst hsecond
      exact Option.some.inj (hfirst.symm.trans hsecond)
    · exact absurd h' (lt_irrefl 0)
  · exact absurd h (lt_irrefl 0)

theorem owes_eq_of_hold_eq (hhold : e'.hold = e.hold) {t : Token} (howes : e'.owes t = e.owes t) :
    e'.owes t + answered t (System.written e e') = e.owes t := by
  rw [written_of_hold_eq hhold]
  exact howes

/-- **A responder that is ready answers.** -/
theorem Does.owes_eq (hP : P.Correct) (h : e.Does P .ok ev e') (hhonest : ev.honest = true)
    (hwf : e.WF P) (hraw : e'.rawClosed = false)
    (hready : e.hold = none → ∀ task ∈ e.responders, ∀ rand, ¬ (task.call rand).Refusable P e.conn)
    (t : Token) : e'.owes t + answered t (System.written e e') = e.owes t := by
  have hwf' := h.wf hP hhonest hwf
  have hopen := hwf.closed (h.rawClosed hraw)
  cases h with
  | @refused _ call e₁ c hhold hrequest hc hwhy =>
    have howes : e₁.owes t = e.owes t := by
      cases hrequest with
      | @respond i rand task htask =>
        exact absurd (hwhy hopen) (hready hhold task (mem_of_getElem? htask) rand)
      | _ => rfl
    have hhold₁ : e₁.hold = e.hold := by
      obtain ⟨_, _, _, _, rfl⟩ := hrequest.eq
      rfl
    exact owes_eq_of_hold_eq hhold₁ howes
  | @sealed _ call e₁ m hhold hrequest _ hmakes =>
    have hanswered : answered t (System.written e (e₁.sealing P m .ok))
        = if m.answers = some t then 1 else 0 := by
      rw [written_sealing hhold]
      cases hanswers : m.answers with
      | none => split <;> simp [answered, hanswers]
      | some t' =>
        have hcontrol : ∀ ch ft payload, m ≠ .app ch ft payload := by
          rintro ch ft payload rfl
          cases hanswers
        rw [if_pos (hwf'.writes hraw hcontrol)]
        simp [answered, hanswers, countP_cons]
    rw [hanswered]
    exact hrequest.owes hmakes t
  | @finished h hhold =>
    rw [written_finish hhold]
    rfl
  | _ => exact owes_eq_of_hold_eq rfl rfl

theorem Does.responders_subset (h : e.Does P .ok ev e') : e'.responders ⊆ e.responders := by
  have hrequests : ∀ {call : Call} {e₁ : Endpoint}, e.Requests ev call e₁ →
      e₁.responders ⊆ e.responders := by
    intro call e₁ hrequest
    cases hrequest with
    | respond htask => exact (eraseIdx_sublist _ _).subset
    | _ => exact Subset.refl _
  cases h with
  | refused hhold hrequest hc =>
    have hsubset := hrequests hrequest
    exact hsubset
  | sealed hhold hrequest hopen hmakes =>
    have hsubset := hrequests hrequest
    exact hsubset
  | _ => exact Subset.refl _

theorem Reads.responders {m : Outgoing} (h : e.Reads P m e') {kemShare : Bytes} {target : UInt64}
    (hmem : .respondReKEM kemShare target ∈ e'.responders) :
    .respondReKEM kemShare target ∈ e.responders ∨ ∃ client, m = .reKEM client kemShare target := by
  cases h with
  | keyUpdate => simpa using hmem
  | masterRatchet => simpa using hmem
  | @reKEM client share gen =>
    rcases mem_append.mp hmem with hbefore | hnew
    · exact .inl hbefore
    · obtain ⟨rfl, rfl⟩ := Responder.respondReKEM.inj (mem_singleton.mp hnew)
      exact .inr ⟨client, rfl⟩
  | _ => exact .inl hmem

end Endpoint

namespace System

variable {σ σ' : System} {move : Move}

/-- Every REKEM on its way to a responder names the responder's next generation. -/
structure Settling (P : Primitives) (σ : System) : Prop extends Running P σ where
  targets : ∀ j, ∀ f ∈ σ.net j.peer, ∀ client kemShare target,
    f.msg = .reKEM client kemShare target → target = ((σ.ep j).settled P).gen + 1
  tasks : ∀ j kemShare target, .respondReKEM kemShare target ∈ (σ.ep j).responders →
    target = ((σ.ep j).settled P).gen + 1 ∧ ∃ client : KEMClient, kemShare = client.kemShare P
  exact : ∀ i t, (σ.ep i).awaits t = σ.outstanding i t

theorem Settling.newSystem (master : Bytes) : (newSystem master).Settling P where
  toRunning := Running.newSystem master
  targets _ _ hf := by cases hf
  tasks _ _ _ hmem := by cases hmem
  exact _ t := by cases t <;> rfl

variable {f : Flight} {e : Endpoint} {task : Responder} {target : UInt64} {s : Side} {ev : Event}

theorem asked_pos {fs : List Flight} {t : Token} (hf : f ∈ fs) (hasks : f.msg.asks = some t) :
    0 < asked t fs :=
  countP_pos_iff.mpr ⟨f, hf, decide_eq_true hasks⟩

theorem owes_pos (htask : task ∈ e.responders) : 0 < e.owes task.token :=
  countP_pos_iff.mpr ⟨task, htask, decide_eq_true rfl⟩

theorem Settling.not_asked_of_owed (hsettling : σ.Settling P) {j : Side} {share : Bytes}
    (howes : 0 < (σ.ep j).owes (.reKEM share target)) (hf : f ∈ σ.net j.peer) :
    f.msg.isReKEM = false := by
  by_contra hreKEM
  cases hmsg : f.msg with
  | reKEM client share' target' =>
    have hasked : 0 < asked (.reKEM share' target') (σ.net j.peer) :=
      asked_pos hf (by rw [hmsg]; rfl)
    have hfirst := hsettling.exact j.peer (.reKEM share target)
    have hsecond := hsettling.exact j.peer (.reKEM share' target')
    rw [outstanding, peer_peer] at hfirst hsecond
    have hsame : Token.reKEM share target = .reKEM share' target' :=
      awaits_reKEM_unique (hsettling.single j.peer) (by omega) (by omega)
    rw [← hsame] at hasked
    have hle := awaits_reKEM_le (hsettling.single j.peer) share target
    omega
  | _ =>
    rw [hmsg] at hreKEM
    exact hreKEM rfl

theorem Settling.owed_once (hsettling : σ.Settling P) {j : Side} {share : Bytes} {e₁ : Endpoint}
    (howes : e₁.owes (.reKEM share target) + 1 = (σ.ep j).owes (.reKEM share target))
    (hle : ∀ t, e₁.owes t ≤ (σ.ep j).owes t) (htask : task ∈ e₁.responders) :
    task.isReKEM = false := by
  by_contra hreKEM
  cases task with
  | respondReKEM share' target' =>
    have hpos : 0 < e₁.owes (.reKEM share' target') := owes_pos htask
    have hle' := hle (.reKEM share' target')
    have hfirst := hsettling.exact j.peer (.reKEM share target)
    have hsecond := hsettling.exact j.peer (.reKEM share' target')
    rw [outstanding, peer_peer] at hfirst hsecond
    have hsame : Token.reKEM share target = .reKEM share' target' :=
      awaits_reKEM_unique (hsettling.single j.peer) (by omega) (by omega)
    rw [← hsame] at hpos
    have hone := awaits_reKEM_le (hsettling.single j.peer) share target
    omega
  | _ => exact hreKEM rfl

theorem Settling.gen_or_unasked (hsettling : σ.Settling P) (hdoes : (σ.ep s).Does P .ok ev e)
    (hopen : e.conn.closed = false) (hratchet : σ.ratchetUncrossed (.act s ev) = true) :
    (e.settled P).gen = ((σ.ep s).settled P).gen
      ∨ ((∀ f ∈ σ.net s.peer, f.msg.isReKEM = false) ∧ ∀ task ∈ e.responders, task.isReKEM = false) := by
  rw [hdoes.settled (hsettling.wf s) hopen]
  have hsubset := hdoes.responders_subset
  rcases hdoes.written_cases with hnone | ⟨call, e₁, m, -, hrequest, -, hmakes, rfl, -, hwritten⟩
  · rw [hnone]
    exact .inl rfl
  rw [hwritten]
  cases m with
  | masterRatchet target =>
    right
    obtain ⟨rfl, -⟩ := hrequest.of_masterRatchet hmakes
    simp only [ratchetUncrossed, Bool.and_eq_true, all_eq_true, Bool.not_eq_true'] at hratchet
    exact ⟨hratchet.1, fun task htask => hratchet.2 task (hsubset htask)⟩
  | reKEMAck share kemCT newSS th target =>
    right
    have howes := hrequest.owes hmakes (.reKEM share target)
    rw [Outgoing.answers, if_pos rfl] at howes
    have hpos : 0 < (σ.ep s).owes (.reKEM share target) := by omega
    refine ⟨fun f hf => hsettling.not_asked_of_owed hpos hf, fun task htask => ?_⟩
    exact hsettling.owed_once howes hrequest.owes_le htask
  | _ => exact .inl rfl

theorem Settling.target_of_reKEM (hsettling : σ.Settling P) (hdoes : (σ.ep s).Does P .ok ev e)
    (hreKEM : σ.reKEMUncrossed (.act s ev) = true) (hf : f ∈ written (σ.ep s) e)
    {client : KEMClient} {kemShare : Bytes} (hmsg : f.msg = .reKEM client kemShare target) :
    target = ((σ.ep s.peer).settled P).gen + 1 := by
  rcases hdoes.written_cases with hnone | ⟨call, e₁, m, hhold, hrequest, -, hmakes, -, -, hwritten⟩
  · rw [hnone] at hf
    cases hf
  rw [hwritten, mem_singleton] at hf
  subst hf
  change m = .reKEM client kemShare target at hmsg
  subst hmsg
  obtain ⟨i, rfl⟩ := hrequest.of_slot hmakes rfl
  have hfree := hdoes.admitsReKEM (hsettling.sequential s)
  have htarget : target = ((σ.ep s).conn.recvView P).gen + 1 := by
    cases hrequest with
    | reKEM hkeyed =>
      cases hmakes
      rfl
  -- nothing in flight to `s` moves the generation
  have hstill : ∀ g ∈ σ.net s.peer, g.msg.ratchets = false := by
    intro g hg
    simp only [reKEMUncrossed, all_eq_true, Bool.not_eq_true'] at hreKEM
    have hnoRatchet := hreKEM g hg
    cases hgmsg : g.msg with
    | masterRatchet gen =>
      rw [hgmsg] at hnoRatchet
      cases hnoRatchet
    | reKEMAck share kemCT newSS th gen =>
      have hanswered : 0 < answered (.reKEM share gen) (σ.net s.peer) :=
        countP_pos_iff.mpr ⟨g, hg, decide_eq_true (by rw [hgmsg]; rfl)⟩
      have hexact := hsettling.exact s (.reKEM share gen)
      have hzero : (σ.ep s).awaits (.reKEM share gen) = 0 := by
        simp [awaits, hfree, heldSlot, hhold]
      rw [outstanding] at hexact
      omega
    | _ => rfl
  have hagree := (hsettling.stream s).agree (hsettling.receiving s)
    ((hsettling.wf s.peer).closed (hsettling.receiving s.peer).1)
  rw [← hagree, View.gen_afterAll hstill]
  exact htarget

theorem Settling.ready (hP : P.Correct) (hsettling : σ.Settling P) (hhold : (σ.ep s).hold = none)
    (htask : task ∈ (σ.ep s).responders) (rand : KEMRandom) :
    ¬ (task.call rand).Refusable P (σ.ep s).conn := by
  cases task with
  | respondReKEM kemShare target =>
    obtain ⟨htarget, client, hshare⟩ := hsettling.tasks s kemShare target htask
    have hgen : ((σ.ep s).settled P).gen = (σ.ep s).conn.genSend := by
      simp only [settled, hhold]
      rfl
    rw [hgen] at htarget
    rintro (hfails | hstale)
    · obtain ⟨kemCT, ss, hencapsulate, -⟩ := encapsulate_kemShare hP client rand
      rw [← hshare] at hencapsulate
      exact hfails kemCT ss hencapsulate
    · exact hstale htarget
  | _ => exact id

theorem Settling.acted (hP : P.Correct) (hsettling : σ.Settling P) (hhonest : ev.honest = true)
    (hdoes : (σ.ep s).Does P .ok ev e) (hfresh : σ.freshRatchet (.act s ev) = true)
    (hreKEM : σ.reKEMUncrossed (.act s ev) = true)
    (hratchet : σ.ratchetUncrossed (.act s ev) = true) (hrunning : (σ.acted s e).Running P) :
    (σ.acted s e).Settling P := by
  have hreceiving := hrunning.receiving s
  have hopen := (hrunning.wf s).closed hreceiving.1
  rw [ep_acted_self] at hreceiving hopen
  have hmoved := hsettling.gen_or_unasked hdoes hopen hratchet
  refine ⟨hrunning, fun j => ?_, fun j => ?_, fun i => ?_⟩
  · rcases eq_or_eq_peer s j with rfl | rfl
    · rw [net_acted_peer, ep_acted_self]
      intro f hf client kemShare target hmsg
      rcases hmoved with hgen | ⟨hunasked, -⟩
      · rw [hgen]
        exact hsettling.targets j f hf client kemShare target hmsg
      · have := hunasked f hf
        rw [hmsg] at this
        cases this
    · rw [peer_peer, net_acted_self, ep_acted_peer]
      intro f hf client kemShare target hmsg
      rcases mem_append.mp hf with hbefore | hwritten
      · have htargets := hsettling.targets s.peer f
        rw [peer_peer] at htargets
        exact htargets hbefore client kemShare target hmsg
      · exact hsettling.target_of_reKEM hdoes hreKEM hwritten hmsg
  · rcases eq_or_eq_peer s j with rfl | rfl
    · rw [ep_acted_self]
      intro kemShare target hmem
      rcases hmoved with hgen | ⟨-, hunasked⟩
      · rw [hgen]
        exact hsettling.tasks j kemShare target (hdoes.responders_subset hmem)
      · have := hunasked _ hmem
        cases this
    · rw [ep_acted_peer]
      exact hsettling.tasks s.peer
  · intro t
    rcases eq_or_eq_peer s i with rfl | rfl
    · have hbefore := hsettling.exact i t
      have hawaits := hdoes.awaits hP hhonest (hsettling.wf i) (hsettling.single i) hreceiving.1
        (t := t) (by
          rintro gen rfl rfl rfl
          exact of_decide_eq_true hfresh)
      simp only [outstanding, ep_acted_self, ep_acted_peer, net_acted_self, net_acted_peer,
        asked_append] at hbefore ⊢
      omega
    · have hbefore := hsettling.exact s.peer t
      have howes := hdoes.owes_eq hP hhonest (hsettling.wf s) hreceiving.1
        (fun hhold task htask rand => hsettling.ready hP hhold htask rand) t
      simp only [outstanding, peer_peer, ep_acted_self, ep_acted_peer, net_acted_self,
        net_acted_peer, answered_append] at hbefore ⊢
      omega

theorem Settling.received (hsettling : σ.Settling P) {r : Side} {rest : List Flight}
    (hnet : σ.net r.peer = f :: rest) (hvalid : f.msg.Valid P ((σ.ep r).conn.recvView P))
    (hreads : (σ.ep r).Reads P f.msg e) (hregisters : σ.registersFirst (.recv r) = true)
    (hrunning : (σ.received r e rest).Running P) : (σ.received r e rest).Settling P := by
  have hmem : f ∈ σ.net r.peer := by
    rw [hnet]
    exact mem_cons_self
  refine ⟨hrunning, fun j => ?_, fun j => ?_, fun i => ?_⟩
  · rcases eq_or_eq_peer r j with rfl | rfl
    · rw [net_received_peer, ep_received_self, hreads.settled]
      intro g hg
      exact hsettling.targets j g (by rw [hnet]; exact mem_cons_of_mem f hg)
    · rw [peer_peer, net_received_self, ep_received_peer]
      have htargets := hsettling.targets r.peer
      rwa [peer_peer] at htargets
  · rcases eq_or_eq_peer r j with rfl | rfl
    · rw [ep_received_self, hreads.settled]
      intro kemShare target htask
      rcases hreads.responders htask with hbefore | ⟨client, hmsg⟩
      · exact hsettling.tasks j kemShare target hbefore
      · rw [hmsg] at hvalid
        exact ⟨hsettling.targets j f hmem client kemShare target hmsg, client, hvalid⟩
    · rw [ep_received_peer]
      exact hsettling.tasks r.peer
  · intro t
    rcases eq_or_eq_peer r i with rfl | rfl
    · have hbefore := hsettling.exact i t
      have hslots := hsettling.toTracked.slotsMatch (fun _ _ => trivial) i f rest hnet
        (hsettling.receiving i)
      rcases hreads.awaits hslots t with ⟨hunsolicited, -⟩ | hawaits
      · exact absurd hunsolicited (hsettling.solicited hnet hregisters)
      · simp only [outstanding, ep_received_self, ep_received_peer, net_received_self,
          net_received_peer, hnet, answered_cons] at hbefore ⊢
        omega
    · have hbefore := hsettling.exact r.peer t
      have howes := hreads.owes t
      simp only [outstanding, peer_peer, ep_received_self, ep_received_peer,
        net_received_self, net_received_peer, hnet, asked_cons] at hbefore ⊢
      omega

/-- What one step of the settling system preserves. -/
theorem Settling.step (hP : P.Correct) (hsettling : σ.Settling P)
    (huncrossed : σ.uncrossed move = true) (hstep : σ.step P move = some σ') : σ'.Settling P := by
  simp only [uncrossed, Bool.and_eq_true] at huncrossed
  obtain ⟨⟨hsteady, hreKEM⟩, hratchet⟩ := huncrossed
  have hrunning := hsettling.toRunning.step hP hsteady hstep
  simp only [steady, Bool.and_eq_true] at hsteady
  cases hsettling.takes hP hstep with
  | act hhonest hdoes =>
    exact hsettling.acted hP hhonest hdoes hsteady.1.2 hreKEM hratchet hrunning
  | recv hnet hreceiving hvalid hreads =>
    exact hsettling.received hnet hvalid hreads hsteady.2 hrunning

def quiescent (σ : System) : Bool :=
  (σ.net .client).isEmpty && (σ.net .server).isEmpty && (σ.ep .client).responders.isEmpty
    && (σ.ep .server).responders.isEmpty

/-- **No exchange is left outstanding**, in every run of the exchanges in which REKEM and
MASTER_RATCHET do not cross. -/
theorem nothing_outstanding (hP : P.Correct) (master : Bytes)
    (hreach : Run.Reaches (System.step P) (fun σ move => σ.uncrossed move = true)
      (Npamp.newSystem master) σ) (hquiescent : σ.quiescent = true) (s : Side) :
    (σ.ep s).conn.pendingReKEM = none ∧ (∀ ch epoch, (σ.ep s).conn.pendingKUAck ch epoch = 0)
      ∧ (σ.ep s).conn.pendingMRAck = ∅ ∧ ((σ.ep s).act P .reKEMCheck .ok).isSome := by
  have hsettling : σ.Settling P :=
    hreach.invariant (Settling.newSystem master) fun _ _ _ hinv huncrossed hstep =>
      hinv.step hP huncrossed hstep
  have hnet : ∀ t : Side, σ.net t = [] ∧ (σ.ep t).responders = [] := by
    simp only [quiescent, Bool.and_eq_true, List.isEmpty_iff] at hquiescent
    intro t
    cases t with
    | client => exact ⟨hquiescent.1.1.1, hquiescent.1.2⟩
    | server => exact ⟨hquiescent.1.1.2, hquiescent.2⟩
  have hawaits : ∀ t, (σ.ep s).awaits t = 0 := by
    intro t
    rw [hsettling.exact s t, outstanding, Endpoint.owes, (hnet s).1, (hnet s.peer).1,
      (hnet s.peer).2]
    rfl
  have hslot : (σ.ep s).conn.pendingReKEM = none := by
    cases hpend : (σ.ep s).conn.pendingReKEM with
    | none => rfl
    | some pend =>
      have hzero := hawaits (.reKEM pend.kemShare pend.targetGen)
      simp [Endpoint.awaits, hpend, PendingReKEM.token] at hzero
  refine ⟨hslot, fun ch epoch => hawaits (.keyUpdate ch epoch), ?_, ?_⟩
  · refine Finset.eq_empty_of_forall_notMem fun gen hgen => ?_
    have hzero := hawaits (.masterRatchet gen)
    simp only [Endpoint.awaits, if_pos hgen] at hzero
    cases hzero
  · rw [Endpoint.act, hslot]
    rfl

def crossing : List Move :=
  [.act .client .reKEMCheck, .act .client (.reKEMKeygen 0 (Healing.clientKey 1)),
    .act .server .ratchetSend, .act .server .finish, .act .client (.reKEM 0), .act .client .finish,
    .recv .server, .act .server (.respond 0 Healing.serverRandom), .recv .client,
    .act .client (.respond 0 Healing.serverRandom), .act .client .finish, .recv .server]

set_option maxRecDepth 100000 in
/-- The server refuses the stale REKEM in silence: nothing is in flight, and the client's re-KEM
stays pending. -/
theorem crossing_strands_reKEM :
    (Run.exec (System.step plain) steady (Npamp.newSystem [1, 2]) crossing).map
        (fun σ => (σ.quiescent, (σ.ep .client).conn.pendingReKEM.isSome,
          ((σ.ep .client).act plain .reKEMCheck .ok).isSome))
      = some (true, true, false) := by
  decide +kernel

set_option maxRecDepth 100000 in
theorem nothing_outstanding_all :
    ∃ σ, Run.exec (System.step plain) uncrossed (Npamp.newSystem [1, 2]) (allExchanges.take 20)
        = some σ
      ∧ σ.quiescent = true ∧ (σ.ep .client).conn.pendingReKEM = none
      ∧ (∀ ch epoch, (σ.ep .client).conn.pendingKUAck ch epoch = 0)
      ∧ (σ.ep .client).conn.pendingMRAck = ∅ ∧ ((σ.ep .client).act plain .reKEMCheck .ok).isSome := by
  have hrun : (Run.exec (System.step plain) uncrossed (Npamp.newSystem [1, 2])
      (allExchanges.take 20)).map quiescent = some true := by
    decide +kernel
  obtain ⟨σ, hexec, hquiescent⟩ := Option.map_eq_some_iff.mp hrun
  exact ⟨σ, hexec, hquiescent,
    nothing_outstanding plain_correct [1, 2] (Run.Reaches.of_exec hexec) hquiescent .client⟩

end System

end Npamp
