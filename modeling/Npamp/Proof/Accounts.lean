import Npamp.Proof.Stream

/-!
# Requests and their acknowledgements

What an endpoint has registered is compared with what is outstanding, one `Token` at a time.
-/

namespace Npamp

open Conn List

/-- A request, by what its acknowledgement repeats of it. -/
inductive Token where
  | keyUpdate (channel : ChannelID) (epoch : UInt64)
  | masterRatchet (gen : UInt64)
  | reKEM (kemShare : Bytes) (target : UInt64)
  deriving DecidableEq

def Outgoing.asks : Outgoing → Option Token
  | keyUpdate ch announced => some (.keyUpdate ch announced)
  | masterRatchet target => some (.masterRatchet target)
  | reKEM _ kemShare target => some (.reKEM kemShare target)
  | _ => none

def Outgoing.answers : Outgoing → Option Token
  | keyUpdateAck ch epoch => some (.keyUpdate ch epoch)
  | masterRatchetAck gen => some (.masterRatchet gen)
  | reKEMAck kemShare _ _ _ target => some (.reKEM kemShare target)
  | _ => none

def Responder.token : Responder → Token
  | keyUpdateAck ch epoch => .keyUpdate ch epoch
  | masterRatchetAck gen => .masterRatchet gen
  | respondReKEM kemShare target => .reKEM kemShare target

def PendingReKEM.token (pend : PendingReKEM) : Token := .reKEM pend.kemShare pend.targetGen

def asked (t : Token) (fs : List Flight) : Nat := fs.countP fun f => f.msg.asks = some t

def answered (t : Token) (fs : List Flight) : Nat := fs.countP fun f => f.msg.answers = some t

namespace Endpoint

def owes (e : Endpoint) (t : Token) : Nat := e.responders.countP fun task => task.token = t

def heldSlot (e : Endpoint) : Option PendingReKEM :=
  match e.hold with
  | some h => if h.written then h.msg.slot else none
  | none => none

def awaits (e : Endpoint) : Token → Nat
  | .keyUpdate ch epoch => e.conn.pendingKUAck ch epoch
  | .masterRatchet gen => if gen ∈ e.conn.pendingMRAck then 1 else 0
  | .reKEM kemShare target =>
    (e.conn.pendingReKEM.toList ++ e.heldSlot.toList).countP
      fun pend => pend.token = .reKEM kemShare target

/-- No REKEM is written over one that is pending. -/
def Single (e : Endpoint) : Prop :=
  ∀ h, e.hold = some h → h.msg.slot.isSome → e.conn.pendingReKEM = none

end Endpoint

variable {P : Primitives}

theorem asked_append (t : Token) (fs gs : List Flight) :
    asked t (fs ++ gs) = asked t fs + asked t gs :=
  countP_append

theorem answered_append (t : Token) (fs gs : List Flight) :
    answered t (fs ++ gs) = answered t fs + answered t gs :=
  countP_append

theorem asked_cons (t : Token) (f : Flight) (fs : List Flight) :
    asked t (f :: fs) = asked t fs + if f.msg.asks = some t then 1 else 0 := by
  simp [asked, countP_cons]

theorem answered_cons (t : Token) (f : Flight) (fs : List Flight) :
    answered t (f :: fs) = answered t fs + if f.msg.answers = some t then 1 else 0 := by
  simp [answered, countP_cons]

theorem Conn.pendingKUAck_register (c : Conn) (m : Outgoing) (ch : ChannelID) (epoch : UInt64) :
    (c.register m).pendingKUAck ch epoch
      = c.pendingKUAck ch epoch + if m.asks = some (.keyUpdate ch epoch) then 1 else 0 := by
  cases m with
  | keyUpdate ch' announced =>
    simp only [register, addPendingKeyUpdateAck, Outgoing.asks, Option.some.injEq,
      Token.keyUpdate.injEq]
    by_cases heq : ch = ch' ∧ epoch = announced
    · obtain ⟨rfl, rfl⟩ := heq
      simp
    · rw [if_neg heq, if_neg (fun h => heq ⟨h.1.symm, h.2.symm⟩), Nat.add_zero]
  | _ => rfl

theorem Conn.pendingMRAck_register (c : Conn) (m : Outgoing) (gen : UInt64)
    (hfresh : m = .masterRatchet gen → gen ∉ c.pendingMRAck) :
    (if gen ∈ (c.register m).pendingMRAck then 1 else 0)
      = (if gen ∈ c.pendingMRAck then 1 else 0)
        + if m.asks = some (.masterRatchet gen) then 1 else 0 := by
  cases m with
  | masterRatchet target =>
    simp only [register, addPendingRatchetAck, Outgoing.asks, Option.some.injEq,
      Token.masterRatchet.injEq, Finset.mem_insert]
    by_cases heq : gen = target
    · subst heq
      simp [hfresh rfl]
    · simp [heq, Ne.symm heq]
  | _ => rfl

theorem Outgoing.countP_slot (m : Outgoing) (kemShare : Bytes) (target : UInt64) :
    (m.slot.toList.countP fun pend => pend.token = .reKEM kemShare target)
      = if m.asks = some (.reKEM kemShare target) then 1 else 0 := by
  cases m with
  | reKEM client share gen => simp [slot, asks, PendingReKEM.token, countP_cons]
  | _ => simp [slot, asks]

namespace Endpoint

variable {e e' : Endpoint} {ev : Event}

theorem awaits_congr (hku : e'.conn.pendingKUAck = e.conn.pendingKUAck)
    (hmr : e'.conn.pendingMRAck = e.conn.pendingMRAck)
    (hslot : e'.conn.pendingReKEM = e.conn.pendingReKEM) (hhold : e'.hold = e.hold)
    (t : Token) : e'.awaits t = e.awaits t := by
  have hheld : e'.heldSlot = e.heldSlot := by simp only [heldSlot, hhold]
  cases t with
  | keyUpdate ch epoch => simp only [awaits, hku]
  | masterRatchet gen => simp only [awaits, hmr]
  | reKEM kemShare target => simp only [awaits, hslot, hheld]

theorem asked_written_of_hold_eq (hhold : e'.hold = e.hold) (t : Token) :
    asked t (System.written e e') = 0 := by
  rw [written_of_hold_eq hhold]
  rfl

theorem awaits_of_hold_eq (hku : e'.conn.pendingKUAck = e.conn.pendingKUAck)
    (hmr : e'.conn.pendingMRAck = e.conn.pendingMRAck)
    (hslot : e'.conn.pendingReKEM = e.conn.pendingReKEM) (hhold : e'.hold = e.hold)
    (t : Token) : e'.awaits t = e.awaits t + asked t (System.written e e') := by
  rw [asked_written_of_hold_eq hhold, awaits_congr hku hmr hslot hhold t, Nat.add_zero]

/-- **Sealing a request registers it.** -/
theorem awaits_sealing (hhold : e.hold = none) {m : Outgoing} (hwritten : m.asks.isSome →
      e.writeWire (m.wire P ((e.conn.sendView P).keys m.channel)) .ok = .ok) {t : Token}
    (hfresh : ∀ gen, t = .masterRatchet gen → m = .masterRatchet gen → gen ∉ e.conn.pendingMRAck) :
    (e.sealing P m .ok).awaits t = e.awaits t + if m.asks = some t then 1 else 0 := by
  cases t with
  | keyUpdate ch epoch =>
    exact pendingKUAck_register (e.conn.cacheSend P m.channel) m ch epoch
  | masterRatchet gen =>
    exact pendingMRAck_register (e.conn.cacheSend P m.channel) m gen (hfresh gen rfl)
  | reKEM kemShare target =>
    have hbefore : e.heldSlot = none := by simp only [heldSlot, hhold]
    have hafter : (e.sealing P m .ok).heldSlot = m.slot := by
      simp only [heldSlot, sealing, decide_eq_true_eq]
      cases m with
      | reKEM client share gen => rw [if_pos (hwritten rfl)]
      | _ => simp [Outgoing.slot]
    have hslot : (e.sealing P m .ok).conn.pendingReKEM = e.conn.pendingReKEM :=
      pendingReKEM_register _ m
    simp only [awaits, hslot, hbefore, hafter, countP_append, Outgoing.countP_slot]
    rfl

theorem awaits_finish {h : Hold} (hhold : e.hold = some h) (hsingle : e.Single)
    (hunwritten : h.written = false → ∃ ch ft payload, h.msg = .app ch ft payload) (t : Token) :
    (e.finish P h).awaits t = e.awaits t := by
  have hnone : (e.finish P h).heldSlot = none := rfl
  cases hwritten : h.written with
  | false =>
    obtain ⟨ch, ft, payload, hmsg⟩ := hunwritten hwritten
    have hheld : e.heldSlot = none := by simp [heldSlot, hhold, hwritten]
    have hconn : (e.finish P h).conn = e.conn := by
      simp only [finish, hmsg, hwritten]
      rfl
    cases t with
    | reKEM kemShare target => simp only [awaits, hconn, hheld, hnone]
    | _ => simp only [awaits, hconn]
  | true =>
    obtain ⟨root, gen, keys, hafter⟩ := afterWrite_eq (P := P) e.conn h.msg
    have hconn : (e.finish P h).conn = e.conn.afterWrite P h.msg true := by
      rw [finish, hwritten]
    have hheld : e.heldSlot = h.msg.slot := by simp [heldSlot, hhold, hwritten]
    cases t with
    | reKEM kemShare target =>
      simp only [awaits, hconn, hafter, hheld, hnone]
      cases hslot : h.msg.slot with
      | none => simp
      | some pend => simp [hsingle h hhold (by simp [hslot])]
    | _ => simp only [awaits, hconn, hafter]

section Requests

variable {e₁ : Endpoint} {call : Call} {c : Conn} {m : Outgoing}

theorem Requests.of_masterRatchet {gen : UInt64} (h : e.Requests ev call e₁)
    (hmakes : call.Makes P c (.masterRatchet gen)) : ev = .ratchetSend ∧ gen = c.genSend + 1 := by
  cases h with
  | ratchetSend =>
    cases hmakes
    exact ⟨rfl, rfl⟩
  | @respond i rand task htask => cases task <;> cases hmakes
  | @react act call hdue hcall => cases act <;> cases hcall <;> cases hmakes
  | _ => cases hmakes

theorem Requests.of_slot (h : e.Requests ev call e₁) (hmakes : call.Makes P c m)
    (hslot : m.slot.isSome) : ∃ i, ev = .reKEM i := by
  cases h with
  | @reKEM i client hkeyed => exact ⟨i, rfl⟩
  | @respond i rand task htask => cases task <;> cases hmakes <;> cases hslot
  | @react act call hdue hcall => cases act <;> cases hcall <;> cases hmakes <;> cases hslot
  | _ =>
    cases hmakes
    cases hslot

theorem countP_eraseIdx {α : Type} {p : α → Bool} {l : List α} {i : Nat} {a : α}
    (h : l[i]? = some a) : (l.eraseIdx i).countP p + (if p a then 1 else 0) = l.countP p := by
  obtain ⟨hi, rfl⟩ := List.getElem?_eq_some_iff.mp h
  rw [← countP_cons]
  exact (getElem_cons_eraseIdx_perm hi).countP_eq p

theorem Requests.owes (h : e.Requests ev call e₁) (hmakes : call.Makes P c m) (t : Token) :
    e₁.owes t + (if m.answers = some t then 1 else 0) = e.owes t := by
  cases h with
  | @respond i rand task htask =>
    have hanswers : m.answers = some task.token := by
      cases task <;> cases hmakes <;> rfl
    rw [hanswers, Endpoint.owes, Endpoint.owes, ← countP_eraseIdx htask]
    simp
  | @react act call hdue hcall => cases act <;> cases hcall <;> cases hmakes <;> rfl
  | _ =>
    cases hmakes
    rfl

theorem Requests.owes_le (h : e.Requests ev call e₁) (t : Token) : e₁.owes t ≤ e.owes t := by
  cases h with
  | respond htask => exact (eraseIdx_sublist _ _).countP_le
  | _ => exact le_rfl

end Requests

/-- **What a step registers is what it asks for**, on an open transport. -/
theorem Does.awaits (hP : P.Correct) (h : e.Does P .ok ev e') (hhonest : ev.honest = true)
    (hwf : e.WF P) (hsingle : e.Single) (hraw : e'.rawClosed = false) {t : Token}
    (hfresh : ∀ gen, t = .masterRatchet gen → ev = .ratchetSend → gen = e.conn.genSend + 1 →
      gen ∉ e.conn.pendingMRAck) : e'.awaits t = e.awaits t + asked t (System.written e e') := by
  have hwf' := h.wf hP hhonest hwf
  cases h with
  | refused hhold hrequest hc =>
    obtain ⟨_, _, _, _, rfl⟩ := hrequest.eq
    rcases hc with rfl | ⟨ch, rfl⟩
    · exact awaits_of_hold_eq rfl rfl rfl rfl t
    · exact awaits_of_hold_eq rfl rfl rfl rfl t
  | @sealed _ call e₁ m hhold hrequest hopen hmakes =>
    have hfreshMR : ∀ gen, t = .masterRatchet gen → m = .masterRatchet gen →
        gen ∉ e.conn.pendingMRAck := by
      intro gen ht hm
      subst hm
      obtain ⟨hev, hgen⟩ := hrequest.of_masterRatchet hmakes
      exact hfresh gen ht hev hgen
    have hwritten : m.asks.isSome →
        e₁.writeWire (m.wire P ((e₁.conn.sendView P).keys m.channel)) .ok = .ok := by
      intro hasks
      refine hwf'.writes hraw ?_
      rintro ch ft payload rfl
      cases hasks
    have hasked : asked t (System.written e (e₁.sealing P m .ok))
        = if m.asks = some t then 1 else 0 := by
      rw [written_sealing hhold]
      cases hasks : m.asks with
      | none => split <;> simp [asked, hasks]
      | some t' =>
        rw [if_pos (hwritten (by simp [hasks]))]
        simp [asked, hasks, countP_cons]
    obtain ⟨_, _, _, _, rfl⟩ := hrequest.eq
    rw [hasked]
    exact awaits_sealing hhold hwritten hfreshMR
  | @finished h hhold =>
    rw [written_finish hhold]
    exact awaits_finish hhold hsingle (hwf.unwritten hraw h hhold) t
  | zeroize hclosed hhold =>
    rw [hclosed] at hraw
    cases hraw
  | _ => exact awaits_of_hold_eq rfl rfl rfl rfl t

theorem owes_of_hold_eq (hhold : e'.hold = e.hold) (hresponders : e'.responders = e.responders)
    (t : Token) : e'.owes t + answered t (System.written e e') ≤ e.owes t := by
  rw [written_of_hold_eq hhold, owes, owes, hresponders]
  exact le_rfl

theorem Does.owes (h : e.Does P .ok ev e') (t : Token) :
    e'.owes t + answered t (System.written e e') ≤ e.owes t := by
  cases h with
  | refused hhold hrequest hc =>
    have hle := hrequest.owes_le t
    obtain ⟨_, _, _, _, rfl⟩ := hrequest.eq
    exact (owes_of_hold_eq rfl rfl t).trans hle
  | @sealed _ call e₁ m hhold hrequest hopen hmakes =>
    rw [written_sealing hhold, ← hrequest.owes hmakes t]
    change e₁.owes t + _ ≤ _
    split
    · simp [answered, countP_cons]
    · exact Nat.le_add_right _ _
  | @finished h hhold =>
    rw [written_finish hhold]
    exact le_rfl
  | _ => exact owes_of_hold_eq rfl rfl t

section Reads

variable {m : Outgoing}

theorem countP_token_append_singleton (tasks : List Responder) (task : Responder) (t : Token) :
    ((tasks ++ [task]).countP fun task => task.token = t)
      = (tasks.countP fun task => task.token = t) + if some task.token = some t then 1 else 0 := by
  rw [countP_append, countP_singleton]
  by_cases htoken : task.token = t
  · simp [htoken]
  · simp [htoken]

theorem Reads.owes (h : e.Reads P m e') (t : Token) :
    e'.owes t = e.owes t + if m.asks = some t then 1 else 0 := by
  cases h with
  | keyUpdate => exact countP_token_append_singleton _ _ t
  | masterRatchet => exact countP_token_append_singleton _ _ t
  | reKEM => exact countP_token_append_singleton _ _ t
  | unsolicited hunsolicited => cases m <;> first | rfl | cases hunsolicited
  | _ => rfl

/-- **An acknowledgement that is read settles one registration**, unless nothing is registered. -/
theorem Reads.awaits (h : e.Reads P m e') (hslot : m.AnswersSlot P e.conn) (t : Token) :
    (m.Unsolicited e.conn ∧ e'.awaits t = e.awaits t)
      ∨ e'.awaits t + (if m.answers = some t then 1 else 0) = e.awaits t := by
  cases h with
  | @keyUpdateAck ch epoch hpending =>
    right
    cases t with
    | keyUpdate ch' epoch' =>
      simp only [Endpoint.awaits, removePendingKeyUpdateAck, opened, Outgoing.answers,
        Option.some.injEq, Token.keyUpdate.injEq]
      by_cases heq : ch' = ch ∧ epoch' = epoch
      · obtain ⟨rfl, rfl⟩ := heq
        simp only [and_self, if_true]
        omega
      · rw [if_neg heq, if_neg (fun h => heq ⟨h.1.symm, h.2.symm⟩), Nat.add_zero]
    | _ => rfl
  | @masterRatchetAck gen hpending =>
    right
    cases t with
    | masterRatchet gen' =>
      simp only [Endpoint.awaits, removePendingRatchetAck, opened, Outgoing.answers,
        Option.some.injEq, Token.masterRatchet.injEq, Finset.mem_erase]
      by_cases heq : gen' = gen
      · subst heq
        simp [hpending]
      · simp [heq, Ne.symm heq]
    | _ => rfl
  | @reKEMAck kemShare kemCT newSS th target pend hpending =>
    right
    obtain ⟨hshare, htarget, -⟩ := hslot pend hpending
    cases t with
    | reKEM share gen =>
      have htoken : pend.token = .reKEM kemShare target := by
        rw [PendingReKEM.token, hshare, htarget]
      simp only [Endpoint.awaits, adoptRecvRoot, dropRecvKeys, hpending,
        countP_append, Outgoing.answers]
      simp [countP_cons, htoken, heldSlot, Nat.add_comm]
    | _ => rfl
  | closeAck hclosing =>
    right
    simp only [signalCloseAck, opened, hclosing, if_true]
    exact awaits_congr rfl rfl rfl rfl t
  | unsolicited hunsolicited => exact Or.inl ⟨hunsolicited, awaits_congr rfl rfl rfl rfl t⟩
  | _ => exact Or.inr (awaits_congr rfl rfl rfl rfl t)

end Reads

theorem Does.single (h : e.Does P .ok ev e') (hsingle : e.Single)
    (hadmits : ∀ i, ev = .reKEM i → e.conn.pendingReKEM = none) : e'.Single := by
  cases h with
  | refused hhold hrequest hc =>
    obtain ⟨_, _, _, _, rfl⟩ := hrequest.eq
    intro h hh
    cases hhold.symm.trans hh
  | @sealed _ call e₁ m hhold hrequest hopen hmakes =>
    intro h hh hslot
    cases hh
    obtain ⟨i, hev⟩ := hrequest.of_slot hmakes hslot
    obtain ⟨_, _, _, _, rfl⟩ := hrequest.eq
    exact (pendingReKEM_register _ m).trans (hadmits i hev)
  | finished hhold =>
    intro h hh
    cases hh
  | zeroize hraw hhold => exact fun _ _ _ => rfl
  | _ => exact hsingle

theorem Reads.single {m : Outgoing} (h : e.Reads P m e') (hsingle : e.Single) : e'.Single := by
  intro hold hhold hslot
  rcases h.pendingReKEM with hsame | hnone
  · rw [hsame]
    exact hsingle hold (h.hold ▸ hhold) hslot
  · exact hnone

end Endpoint

namespace System

variable {σ σ' : System} {move : Move} {tracks : Token → Prop}

/-- The requests of `i` for `t` whose acknowledgement it has not read yet. -/
def outstanding (σ : System) (i : Side) (t : Token) : Nat :=
  asked t (σ.net i) + (σ.ep i.peer).owes t + answered t (σ.net i.peer)

/-- No `ReKEM` call enters its `wmu` section while a re-KEM of its endpoint is pending. -/
def admitsReKEM (σ : System) : Move → Bool
  | .act s (.reKEM _) => (σ.ep s).conn.pendingReKEM.isNone
  | _ => true

/-- No `RatchetSend` announces a generation whose acknowledgement is still outstanding. -/
def freshRatchet (σ : System) : Move → Bool
  | .act s .ratchetSend => (σ.ep s).conn.genSend + 1 ∉ (σ.ep s).conn.pendingMRAck
  | _ => true

/-- No more acknowledgements of a tracked request can arrive than are awaited. -/
structure Tracked (P : Primitives) (tracks : Token → Prop) (σ : System) : Prop
    extends Sound P σ where
  single : ∀ s, (σ.ep s).Single
  accounted : ∀ i t, tracks t → (σ.ep i).rawClosed = false →
    σ.outstanding i t ≤ (σ.ep i).awaits t

theorem Tracked.newSystem (master : Bytes) : (newSystem master).Tracked P tracks where
  toSound := Sound.newSystem master
  single s := fun h hh => by cases hh
  accounted i t _ _ := Nat.zero_le _

/-- An acknowledgement that arrives is awaited. -/
theorem Tracked.awaits_pos (htracked : σ.Tracked P tracks) {r : Side} {f : Flight}
    {rest : List Flight} {t : Token} (ht : tracks t) (hnet : σ.net r.peer = f :: rest)
    (hraw : (σ.ep r).rawClosed = false) (hanswers : f.msg.answers = some t) :
    0 < (σ.ep r).awaits t := by
  refine lt_of_lt_of_le ?_ (htracked.accounted r t ht hraw)
  rw [outstanding, hnet, answered_cons, if_pos hanswers]
  omega

theorem Tracked.slotsMatch (htracked : σ.Tracked P tracks)
    (htracks : ∀ kemShare target, tracks (.reKEM kemShare target)) : σ.SlotsMatch P := by
  intro r f rest hnet hreceiving
  cases hmsg : f.msg with
  | reKEMAck kemShare kemCT newSS th target =>
    intro pend hpend
    have hpos := htracked.awaits_pos (htracks kemShare target) hnet hreceiving.1 (by rw [hmsg]; rfl)
    have hheld : (σ.ep r).heldSlot = none := by
      unfold Endpoint.heldSlot
      split
      · rename_i h hhold
        by_contra hslot
        have hsome : h.msg.slot.isSome := by
          split at hslot
          · exact Option.isSome_iff_ne_none.mpr hslot
          · exact absurd rfl hslot
        rw [htracked.single r h hhold hsome] at hpend
        cases hpend
      · rfl
    have htoken : pend.token = .reKEM kemShare target := by
      by_contra hother
      simp [Endpoint.awaits, hpend, hheld, hother] at hpos
    obtain ⟨hshare, htarget⟩ := Token.reKEM.inj htoken
    exact ⟨hshare, htarget, hshare ▸ (htracked.wf r).slot pend hpend⟩
  | _ => trivial

theorem Takes.single (h : σ.Takes P move σ') (hsingle : ∀ s, (σ.ep s).Single)
    (hadmits : σ.admitsReKEM move = true) (t : Side) : (σ'.ep t).Single := by
  cases h with
  | @act s ev e hhonest hdoes =>
    rcases Side.eq_or_eq_peer s t with rfl | rfl
    · rw [ep_acted_self]
      refine hdoes.single (hsingle t) ?_
      rintro i rfl
      exact Option.isNone_iff_eq_none.mp hadmits
    · rw [ep_acted_peer]
      exact hsingle s.peer
  | @recv r f rest e hnet hreceiving hvalid hreads =>
    rcases Side.eq_or_eq_peer r t with rfl | rfl
    · rw [ep_received_self]
      exact hreads.single (hsingle t)
    · rw [ep_received_peer]
      exact hsingle r.peer

/-- **One step of the accounts.** -/
theorem Takes.accounted (hP : P.Correct) (h : σ.Takes P move σ') (htracked : σ.Tracked P tracks)
    (hslots : σ.SlotsMatch P)
    (hfresh : ∀ gen, tracks (.masterRatchet gen) → σ.freshRatchet move = true) {i : Side} {t : Token}
    (ht : tracks t) (hraw : (σ'.ep i).rawClosed = false) :
    σ'.outstanding i t ≤ (σ'.ep i).awaits t := by
  cases h with
  | @act s ev e hhonest hdoes =>
    rcases Side.eq_or_eq_peer s i with rfl | rfl
    · rw [ep_acted_self] at hraw
      have hbefore := htracked.accounted i t ht (hdoes.rawClosed hraw)
      have hawaits := hdoes.awaits hP hhonest (htracked.wf i) (htracked.single i) hraw (t := t)
        (by
          rintro gen rfl rfl rfl
          exact of_decide_eq_true (hfresh _ ht))
      simp only [outstanding, ep_acted_self, ep_acted_peer, net_acted_self, net_acted_peer,
        asked_append] at hbefore ⊢
      omega
    · rw [ep_acted_peer] at hraw
      have hbefore := htracked.accounted s.peer t ht hraw
      have howes := hdoes.owes t
      simp only [outstanding, Side.peer_peer, ep_acted_self, ep_acted_peer, net_acted_self,
        net_acted_peer, answered_append] at hbefore ⊢
      omega
  | @recv r f rest e hnet hreceiving hvalid hreads =>
    rcases Side.eq_or_eq_peer r i with rfl | rfl
    · have hbefore := htracked.accounted i t ht hreceiving.1
      have hawaits := hreads.awaits (hslots i f rest hnet hreceiving) t
      simp only [outstanding, ep_received_self, ep_received_peer, net_received_self,
        net_received_peer, hnet, answered_cons] at hbefore ⊢
      omega
    · rw [ep_received_peer] at hraw
      have hbefore := htracked.accounted r.peer t ht hraw
      have howes := hreads.owes t
      simp only [outstanding, Side.peer_peer, ep_received_self, ep_received_peer,
        net_received_self, net_received_peer, hnet, asked_cons] at hbefore ⊢
      omega

theorem Tracked.step (hP : P.Correct) (htracked : σ.Tracked P tracks)
    (htracks : ∀ kemShare target, tracks (.reKEM kemShare target)) (hadmits : σ.admitsReKEM move = true)
    (hfresh : ∀ gen, tracks (.masterRatchet gen) → σ.freshRatchet move = true)
    (hstep : σ.step P move = some σ') : σ'.Tracked P tracks := by
  have hslots := htracked.slotsMatch htracks
  have htakes := htracked.takes hP hslots hstep
  exact ⟨htakes.sound hP htracked.toSound, htakes.single htracked.single hadmits,
    fun i t ht hraw => htakes.accounted hP htracked hslots hfresh ht hraw⟩

end System

end Npamp
