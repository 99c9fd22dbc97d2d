import Npamp.Proof.Running

/-!
# Key agreement and delivery

Each call is one step here. Reading the frames in flight brings the receiver to the sender's root,
generation and traffic keys.
-/

namespace Npamp

namespace System

def atomic (P : Primitives) (σ : System) : Move → Option System
  | .act s ev =>
    match σ.act P s ev with
    | none => none
    | some σ' => if (σ'.ep s).hold.isSome then σ'.act P s .finish else some σ'
  | .recv r => σ.recv P r

def gensBelow (σ : System) : Move → Bool
  | .act s .ratchetSend => (σ.ep s).conn.genSend ≠ maxUint64
  | .act s (.respond _ _) => (σ.ep s).conn.genSend ≠ maxUint64
  | _ => true

def calls (σ : System) (move : Move) : Bool :=
  move.isExchange && σ.sequentialReKEM move && σ.gensBelow move

end System

variable {P : Primitives}

namespace Endpoint

variable {e e' : Endpoint} {ev : Event}

/-- No acknowledgement is awaited of a generation beyond the endpoint's own. -/
def Announced (P : Primitives) (e : Endpoint) : Prop :=
  ∀ gen ∈ e.conn.pendingMRAck, gen ≤ (e.settled P).gen

theorem Requests.of_reKEMAck {call : Call} {e₁ : Endpoint} {c : Conn}
    {kemShare kemCT newSS th : Bytes} {target : UInt64} (h : e.Requests ev call e₁)
    (hmakes : call.Makes P c (.reKEMAck kemShare kemCT newSS th target)) :
    (∃ i rand, ev = .respond i rand) ∧ target = c.genSend + 1 := by
  cases h with
  | @respond i rand task htask =>
    refine ⟨⟨i, rand, rfl⟩, ?_⟩
    cases task with
    | respondReKEM share gen =>
      cases hmakes with
      | respondReKEM hencapsulate htarget => exact htarget
    | _ => cases hmakes
  | @react act call hdue hcall => cases act <;> cases hcall <;> cases hmakes
  | _ => cases hmakes

def Ratcheting (ev : Event) : Prop := ev = .ratchetSend ∨ ∃ i rand, ev = .respond i rand

theorem Does.gen_le (h : e.Does P .ok ev e') (hwf : e.WF P) (hopen : e'.conn.closed = false)
    (hbelow : Ratcheting ev → e.conn.genSend ≠ maxUint64) :
    (e.settled P).gen ≤ (e'.settled P).gen := by
  rw [h.settled hwf hopen]
  rcases h.written_cases with hnone | ⟨call, e₁, m, hhold, hrequest, -, hmakes, -, -, hwritten⟩
  · rw [hnone]
    exact UInt64.le_refl _
  have hsettled : e.settled P = e.conn.sendView P := by simp only [Endpoint.settled, hhold]
  rw [hwritten, hsettled]
  cases m with
  | masterRatchet target =>
    obtain ⟨hev, rfl⟩ := hrequest.of_masterRatchet hmakes
    exact UInt64.le_of_lt (uint64_lt_succ (hbelow (Or.inl hev)))
  | reKEMAck kemShare kemCT newSS th target =>
    obtain ⟨hev, rfl⟩ := hrequest.of_reKEMAck hmakes
    exact UInt64.le_of_lt (uint64_lt_succ (hbelow (Or.inr hev)))
  | _ => exact UInt64.le_refl _

theorem Announced.of_subset (hannounced : e.Announced P)
    (hsubset : e'.conn.pendingMRAck ⊆ e.conn.pendingMRAck)
    (hgen : (e.settled P).gen ≤ (e'.settled P).gen) : e'.Announced P :=
  fun gen hmem => UInt64.le_trans (hannounced gen (hsubset hmem)) hgen

theorem Does.announced (hP : P.Correct) (h : e.Does P .ok ev e') (hhonest : ev.honest = true)
    (hwf : e.WF P) (hraw : e'.rawClosed = false)
    (hbelow : Ratcheting ev → e.conn.genSend ≠ maxUint64) (hannounced : e.Announced P) :
    e'.Announced P := by
  have hwf' := h.wf hP hhonest hwf
  have hopen := hwf'.closed hraw
  have hgen := h.gen_le hwf hopen hbelow
  have hsettled := h.settled hwf hopen
  cases h with
  | refused hhold hrequest hc =>
    refine hannounced.of_subset ?_ hgen
    rcases hc with rfl | ⟨ch, rfl⟩ <;> exact Finset.Subset.refl _
  | @sealed _ call e₁ m hhold hrequest _ hmakes =>
    have hconn : e₁.conn = e.conn := by
      obtain ⟨_, _, _, _, rfl⟩ := hrequest.eq
      rfl
    cases m with
    | masterRatchet target =>
      have hwritten := hwf'.writes hraw (fun _ _ _ => Outgoing.noConfusion)
      rw [written_sealing hhold, if_pos hwritten] at hsettled
      have htarget : ((e₁.sealing P (.masterRatchet target) .ok).settled P).gen = target := by
        rw [hsettled]
        rfl
      intro gen hmem
      rcases Finset.mem_insert.mp hmem with rfl | hbefore
      · rw [htarget]
        exact UInt64.le_refl _
      · exact UInt64.le_trans (hannounced gen (hconn ▸ hbefore)) hgen
    | _ =>
      refine hannounced.of_subset ?_ hgen
      simp only [Endpoint.sealing, hconn]
      exact Finset.Subset.refl _
  | @finished h hhold =>
    refine hannounced.of_subset ?_ hgen
    cases hwritten : h.written with
    | true =>
      obtain ⟨root, gen, keys, hafter⟩ := Conn.afterWrite_eq (P := P) e.conn h.msg
      simp only [Endpoint.finish, hwritten, hafter]
      exact Finset.Subset.refl _
    | false =>
      obtain ⟨ch, ft, payload, hmsg⟩ := hwf.unwritten hraw h hhold hwritten
      simp only [Endpoint.finish, hwritten, hmsg]
      exact Finset.Subset.refl _
  | zeroize hclosed hhold =>
    rw [hclosed] at hraw
    cases hraw
  | _ => exact hannounced.of_subset (Finset.Subset.refl _) hgen

theorem Reads.announced {m : Outgoing} (h : e.Reads P m e') (hannounced : e.Announced P) :
    e'.Announced P := by
  refine hannounced.of_subset ?_ (by rw [h.settled]; exact UInt64.le_refl _)
  cases h with
  | masterRatchetAck hpending => exact Finset.erase_subset _ _
  | closeAck hclosing =>
    simp only [Conn.signalCloseAck, Conn.opened, hclosing, if_true]
    exact Finset.Subset.refl _
  | _ => exact Finset.Subset.refl _

theorem Announced.fresh (hannounced : e.Announced P) (hhold : e.hold = none)
    (hbelow : e.conn.genSend ≠ maxUint64) : e.conn.genSend + 1 ∉ e.conn.pendingMRAck := by
  intro hmem
  have hle := hannounced _ hmem
  have hsettled : (e.settled P).gen = e.conn.genSend := by
    simp only [settled, hhold]
    rfl
  rw [hsettled] at hle
  exact UInt64.not_le.mpr (uint64_lt_succ hbelow) hle

end Endpoint

namespace System

variable {σ σ' : System} {move : Move}

/-- A running system whose endpoints await only what they announced. -/
structure Counted (P : Primitives) (σ : System) : Prop extends Running P σ where
  announced : ∀ s, (σ.ep s).Announced P

theorem Counted.step (hP : P.Correct) (hcounted : σ.Counted P) (hsteady : σ.steady move = true)
    (hbelow : σ.gensBelow move = true) (hstep : σ.step P move = some σ') : σ'.Counted P := by
  have hrunning := hcounted.toRunning.step hP hsteady hstep
  refine ⟨hrunning, fun t => ?_⟩
  cases hcounted.takes hP hstep with
  | @act s ev e hhonest hdoes =>
    rcases Side.eq_or_eq_peer s t with rfl | rfl
    · have hraw := (hrunning.receiving t).1
      rw [ep_acted_self] at hraw ⊢
      refine hdoes.announced hP hhonest (hcounted.wf t) hraw ?_ (hcounted.announced t)
      rintro (rfl | ⟨i, rand, rfl⟩)
      · exact of_decide_eq_true hbelow
      · exact of_decide_eq_true hbelow
    · rw [ep_acted_peer]
      exact hcounted.announced s.peer
  | @recv r f rest e hnet hreceiving hvalid hreads =>
    rcases Side.eq_or_eq_peer r t with rfl | rfl
    · rw [ep_received_self]
      exact hreads.announced (hcounted.announced t)
    · rw [ep_received_peer]
      exact hcounted.announced r.peer

/-- A counted system in which no write is under way. -/
structure Joined (P : Primitives) (σ : System) : Prop extends Counted P σ where
  idle : ∀ s, (σ.ep s).hold = none

theorem Joined.newSystem (master : Bytes) : (newSystem master).Joined P where
  toRunning := Running.newSystem master
  announced _ _ hmem := absurd hmem (Finset.notMem_empty _)
  idle _ := rfl

theorem Joined.steady (hjoined : σ.Joined P) (hcalls : σ.calls move = true) :
    σ.steady move = true ∧ σ.gensBelow move = true := by
  simp only [calls, Bool.and_eq_true] at hcalls
  obtain ⟨⟨hexchange, hsequential⟩, hbelow⟩ := hcalls
  have hfresh : σ.freshRatchet move = true := by
    unfold freshRatchet
    split
    · rename_i s
      refine decide_eq_true ((hjoined.announced s).fresh (hjoined.idle s) ?_)
      exact of_decide_eq_true hbelow
    · rfl
  have hregisters : σ.registersFirst move = true := by
    unfold registersFirst
    split
    · rename_i r
      have hheld : (σ.ep r).heldSlot = none := by simp only [Endpoint.heldSlot, hjoined.idle r]
      split
      · rw [hheld, Option.isSome_none, Bool.and_false, Bool.not_false]
      · rfl
    · rfl
  simp only [System.steady, Bool.and_eq_true]
  exact ⟨⟨⟨⟨hexchange, hsequential⟩, hfresh⟩, hregisters⟩, hbelow⟩

theorem Joined.recv (hP : P.Correct) (hjoined : σ.Joined P) {r : Side}
    (hstep : σ.step P (.recv r) = some σ') : σ'.Joined P ∧ σ'.ep r.peer = σ.ep r.peer
      ∧ ∃ f, σ.net r.peer = f :: σ'.net r.peer := by
  have hcalls : σ.calls (.recv r) = true := rfl
  obtain ⟨hsteady, hbelow⟩ := hjoined.steady hcalls
  have hcounted := hjoined.toCounted.step hP hsteady hbelow hstep
  cases hjoined.takes hP hstep with
  | @recv _ f rest e hnet hreceiving hvalid hreads =>
    refine ⟨⟨hcounted, fun t => ?_⟩, ep_received_peer σ r e rest, f, ?_⟩
    · rcases Side.eq_or_eq_peer r t with rfl | rfl
      · rw [ep_received_self, hreads.hold]
        exact hjoined.idle t
      · rw [ep_received_peer]
        exact hjoined.idle r.peer
    · rw [net_received_peer]
      exact hnet

theorem hold_peer_of_act {s : Side} {ev : Event} (hstep : σ.step P (.act s ev) = some σ') :
    (σ'.ep s.peer).hold = (σ.ep s.peer).hold := by
  cases step_does hstep with
  | act hhonest hdoes => rw [ep_acted_peer]

theorem Joined.call (hP : P.Correct) (hjoined : σ.Joined P) {s : Side} {ev : Event}
    (hcalls : σ.calls (.act s ev) = true) (hstep : σ.atomic P (.act s ev) = some σ') :
    σ'.Joined P := by
  rw [atomic] at hstep
  split at hstep
  · cases hstep
  rename_i σ₁ hbegan
  obtain ⟨hsteady, hbelow⟩ := hjoined.steady hcalls
  have hbegan' : σ.step P (.act s ev) = some σ₁ := hbegan
  have hcounted := hjoined.toCounted.step hP hsteady hbelow hbegan'
  have hpeer : (σ₁.ep s.peer).hold = none :=
    (hold_peer_of_act hbegan').trans (hjoined.idle s.peer)
  split at hstep
  · -- the body has written: its bookkeeping follows at once
    have hfinished : σ₁.step P (.act s .finish) = some σ' := hstep
    refine ⟨hcounted.step hP rfl rfl hfinished, fun t => ?_⟩
    rcases Side.eq_or_eq_peer s t with rfl | rfl
    · cases step_does hfinished with
      | act hhonest hdoes =>
        rw [ep_acted_self]
        cases hdoes with
        | refused hhold hrequest hc => cases hrequest
        | sealed hhold hrequest hopen hmakes => cases hrequest
        | finished hhold => rfl
    · exact (hold_peer_of_act hfinished).trans hpeer
  · rename_i hhold
    cases hstep
    refine ⟨hcounted, fun t => ?_⟩
    rcases Side.eq_or_eq_peer s t with rfl | rfl
    · simpa using hhold
    · exact hpeer

/-- Every step of a joined system, a write with its finish taken as one, leaves it joined. -/
theorem Joined.step (hP : P.Correct) (hjoined : σ.Joined P) (hcalls : σ.calls move = true)
    (hstep : σ.atomic P move = some σ') : σ'.Joined P := by
  cases move with
  | act s ev => exact hjoined.call hP hcalls hstep
  | recv r => exact (hjoined.recv hP hstep).1

/-- **The receiver catches up.** It can read everything in flight, and then has its peer's keys. -/
theorem Joined.catchesUp (hP : P.Correct) (r : Side) (n : Nat) :
    ∀ σ : System, σ.Joined P → (σ.net r.peer).length = n →
      ∃ σ', Run.Reaches (System.atomic P) (fun _ move => move = .recv r) σ σ'
        ∧ σ'.Joined P ∧ σ'.ep r.peer = σ.ep r.peer ∧ σ'.net r.peer = [] := by
  induction n with
  | zero =>
    intro σ hjoined hlength
    exact ⟨σ, .start, hjoined, rfl, List.length_eq_zero_iff.mp hlength⟩
  | succ n ih =>
    intro σ hjoined hlength
    obtain ⟨f, rest, hnet⟩ := List.exists_cons_of_length_eq_add_one hlength
    obtain ⟨σ₁, hstep⟩ := progress (P := P) hnet (hjoined.receiving r)
    obtain ⟨hjoined₁, hpeer, g, hcons⟩ := hjoined.recv hP hstep
    have hlength₁ : (σ₁.net r.peer).length = n := by
      rw [hcons] at hlength
      exact Nat.succ.inj hlength
    obtain ⟨σ', hreaches, hjoined', hpeer', hempty⟩ := ih σ₁ hjoined₁ hlength₁
    have hfirst : Run.Reaches (System.atomic P) (fun _ move => move = .recv r) σ σ₁ :=
      .next .start rfl hstep
    exact ⟨σ', hfirst.trans hreaches, hjoined', hpeer'.trans hpeer, hempty⟩

/-- **Two-endpoint key agreement and exactly-once delivery**, after any interleaving of calls and
receive steps: once `r` has read what is in flight, its receive root, generation and keys are its
peer's, and it was given every application frame its peer sent, once and in order. -/
theorem keys_agree_and_frames_arrive (hP : P.Correct) (master : Bytes)
    (hreach : Run.Reaches (System.atomic P) (fun σ move => σ.calls move = true)
      (Npamp.newSystem master) σ) (r : Side) : (σ.ep r).Clean ∧ (σ.ep r).reaction = none
      ∧ (σ.ep r).delivered ++ apps (σ.net r.peer) = (σ.ep r.peer).sentApps
      ∧ ∃ σ', Run.Reaches (System.atomic P) (fun _ move => move = .recv r) σ σ'
        ∧ σ'.ep r.peer = σ.ep r.peer ∧ σ'.net r.peer = []
        ∧ (σ'.ep r).conn.recvView P = (σ.ep r.peer).conn.sendView P
        ∧ (σ'.ep r).Clean ∧ (σ'.ep r).delivered = (σ.ep r.peer).sentApps := by
  have hjoined : σ.Joined P :=
    hreach.invariant (Joined.newSystem master) fun _ _ _ hinv hcalls hstep =>
      hinv.step hP hcalls hstep
  obtain ⟨σ', hreaches, hjoined', hpeer, hempty⟩ := Joined.catchesUp hP r _ σ hjoined rfl
  refine ⟨hjoined.clean r, (hjoined.receiving r).2, hjoined.delivery r, σ', hreaches, hpeer, hempty,
    ?_, hjoined'.clean r, ?_⟩
  · have hagree := (hjoined'.stream r).agree (hjoined'.receiving r)
      ((hjoined'.wf r.peer).closed (hjoined'.receiving r.peer).1)
    have hsettled : (σ.ep r.peer).settled P = (σ.ep r.peer).conn.sendView P := by
      simp only [Endpoint.settled, hjoined.idle r.peer]
    rw [hempty, hpeer, hsettled] at hagree
    exact hagree
  · have hdelivery := hjoined'.delivery r
    rw [hempty, hpeer] at hdelivery
    exact (List.append_nil _).symm.trans hdelivery

def mixedCalls : List Move :=
  [.act .client (.send 5 32 [1]), .act .client (.keyUpdate 5), .act .client (.send 5 32 [2]),
    .act .server .reKEMCheck, .act .server (.reKEMKeygen 0 (Healing.clientKey 1)),
    .act .server (.reKEM 0), .recv .client, .act .client (.respond 0 Healing.serverRandom),
    .act .client (.send 5 32 [3]), .act .client .ratchetSend, .act .client (.send 5 32 [4]),
    .recv .server]

set_option maxRecDepth 100000 in
theorem keys_agree_and_frames_arrive_mixed :
    ∃ σ, Run.exec (System.atomic plain) calls (Npamp.newSystem [1, 2]) mixedCalls = some σ
      ∧ (σ.net .client).length = 6
      ∧ ∃ σ', Run.Reaches (System.atomic plain) (fun _ move => move = .recv .server) σ σ'
        ∧ (σ'.ep .server).conn.recvView plain = (σ.ep .client).conn.sendView plain
        ∧ (σ'.ep .server).delivered = (σ.ep .client).sentApps := by
  have hrun : (Run.exec (System.atomic plain) calls (Npamp.newSystem [1, 2]) mixedCalls).map
      (fun σ => (σ.net .client).length) = some 6 := by
    decide +kernel
  obtain ⟨σ, hexec, hlength⟩ := Option.map_eq_some_iff.mp hrun
  obtain ⟨-, -, -, σ', hreaches, -, -, hkeys, -, hdelivered⟩ :=
    keys_agree_and_frames_arrive plain_correct [1, 2] (Run.Reaches.of_exec hexec) .server
  exact ⟨σ, hexec, hlength, σ', hreaches, hkeys, hdelivered⟩

end System

end Npamp
