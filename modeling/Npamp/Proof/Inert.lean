import Npamp.Plain
import Npamp.Lib.Inject
import Npamp.Proof.Solo

/-!
# Unauthenticated input is inert

A frame that is dropped leaves two traces, a drop counter and a cached epoch-0 receive key. Neither
is ever read by a step of the endpoint.
-/

namespace Npamp

open Option

/-- The two reasons for which `Recv` drops a frame and counts it. -/
inductive Drop where
  | unauthenticated
  | outOfSequence
  deriving DecidableEq, Repr

def Drop.count (k counter : Drop) : UInt64 := if k = counter then 1 else 0

namespace Conn

/-- The drop a frame meets, if any: it is in the clear, or its sequence number is not the expected
one, or it does not open under the current key of its channel. -/
def dropKind (P : Primitives) (c : Conn) (wire : Bytes) : Option Drop :=
  match unmarshalBinary wire with
  | .error _ => none
  | .ok f =>
    if f.flags &&& flagENC = 0 then some .unauthenticated
    else if c.closed then none
    else if f.seq ≠ ((c.recvView P).keys f.channel).seq then some .outOfSequence
    else
      match openWith P ((c.recvView P).keys f.channel) f with
      | .error _ => some .unauthenticated
      | .ok _ => none

def lookedUp (P : Primitives) (c : Conn) (wire : Bytes) : Conn :=
  match unmarshalBinary wire with
  | .error _ => c
  | .ok f => if f.flags &&& flagENC = 0 then c else c.cacheRecv P f.channel

def counted (c : Conn) : Drop → Conn
  | .unauthenticated => { c with droppedUnauthenticated := c.droppedUnauthenticated + 1 }
  | .outOfSequence => { c with droppedOutOfSequence := c.droppedOutOfSequence + 1 }

def lazyKey (P : Primitives) (c : Conn) (ch : ChannelID) : EpochKeys :=
  if c.closed then .new else trafficKeys P c.masterRecv c.recvDir 0 ch

/-- `keys` is the receive cache with some epoch-0 keys added. -/
def Caches (P : Primitives) (c : Conn) (keys : ChannelID → Option EpochKeys) : Prop :=
  ∀ ch, keys ch = c.recvKeys ch ∨ c.recvKeys ch = none ∧ keys ch = some (c.lazyKey P ch)

def withDrops (c : Conn) (keys : ChannelID → Option EpochKeys) (n m : UInt64) : Conn :=
  { c with
    recvKeys := keys
    droppedUnauthenticated := c.droppedUnauthenticated + n
    droppedOutOfSequence := c.droppedOutOfSequence + m }

def recvSide (c : Conn) : Bytes × Direction × (ChannelID → Option EpochKeys) × Bool :=
  (c.masterRecv, c.recvDir, c.recvKeys, c.closed)

variable {P : Primitives} {c c' : Conn} {keys : ChannelID → Option EpochKeys} {n m : UInt64}

theorem Caches.congr (h : c.Caches P keys) (hside : c'.recvSide = c.recvSide) :
    c'.Caches P keys := by
  simp only [recvSide, Prod.mk.injEq] at hside
  obtain ⟨hroot, hdir, hkeys, hclosed⟩ := hside
  intro ch
  simp only [hkeys, lazyKey, hroot, hdir, hclosed]
  exact h ch

/-! ### The send direction does not see them -/

theorem sendState_withDrops (ch : ChannelID) : (c.withDrops keys n m).sendState P ch
      = (c.sendState P ch).map fun r => (r.1, r.2.withDrops keys n m) := by
  cases hc : c.closed with
  | true =>
    rw [sendState_closed hc, sendState_closed (c := c.withDrops keys n m) hc]
    rfl
  | false =>
    rw [sendState_eq hc, sendState_eq (c := c.withDrops keys n m) hc]
    rfl

theorem notify_withDrops (msg : Outgoing) : (c.withDrops keys n m).notify P msg
      = ((c.notify P msg).1.withDrops keys n m, (c.notify P msg).2) := by
  rw [notify, sendState_withDrops, notify]
  cases c.sendState P msg.channel <;> rfl

theorem begin_withDrops (call : Call) : call.begin P (c.withDrops keys n m)
      = ((call.begin P c).1.withDrops keys n m, (call.begin P c).2) := by
  cases call with
  | send ch ft payload =>
    rw [Call.begin, sendLocked, sendState_withDrops, Call.begin, sendLocked]
    cases c.sendState P ch with
    | error e => rfl
    | ok r =>
      dsimp only [Except.map]
      split <;> rfl
  | keyUpdate ch =>
    rw [Call.begin, Conn.keyUpdate, sendState_withDrops, Call.begin, Conn.keyUpdate]
    cases c.sendState P ch <;> rfl
  | ratchetSend | reKEM client | sendClose ackCh =>
    simp only [Call.begin, ratchetSend, reKEM, sendClose, sendState_withDrops]
    change (if c.closed = true then _ else _) = _
    by_cases hc : c.closed = true
    · rw [if_pos hc, if_pos hc]
    rw [if_neg hc, if_neg hc]
    cases c.sendState P chanControl with
    | error e => rfl
    | ok r =>
      dsimp only [Except.map]
      split <;> rfl
  | respondReKEM kemShare target rand =>
    rw [Call.begin, respondReKEM, Call.begin, respondReKEM]
    cases encapsulate P kemShare rand with
    | error e => rfl
    | ok result =>
      change (match thRekem P c.profile kemShare result.1 target with
        | .error _ => _
        | .ok th => if c.closed = true then _ else if target ≠ c.genSend + 1 then _ else _) = _
      dsimp only
      cases thRekem P c.profile kemShare result.1 target with
      | error e => rfl
      | ok th =>
        dsimp only
        by_cases hc : c.closed = true
        · rw [if_pos hc, if_pos hc]
        rw [if_neg hc, if_neg hc]
        by_cases htarget : target ≠ c.genSend + 1
        · rw [if_pos htarget, if_pos htarget]
        · rw [if_neg htarget, if_neg htarget]
          exact notify_withDrops _
  | _ => exact notify_withDrops _

theorem advanceSend_withDrops (ch : ChannelID) :
    (c.withDrops keys n m).advanceSend P ch = (c.advanceSend P ch).withDrops keys n m := by
  have hsame : (c.withDrops keys n m).sendKeys = c.sendKeys := rfl
  cases hst : c.sendKeys ch with
  | none => simp only [advanceSend, hsame, hst]
  | some st =>
    simp only [advanceSend, hsame, hst, EpochKeys.advance_eq c.hasSuite]
    rw [EpochKeys.advance_eq (c.withDrops keys n m).hasSuite]
    rfl

theorem adoptSendRoot_withDrops (root : Except GoError Bytes) (gen : UInt64) :
    (c.withDrops keys n m).adoptSendRoot root gen
      = (c.adoptSendRoot root gen).withDrops keys n m := by
  cases root <;> rfl

theorem afterWrite_withDrops (msg : Outgoing) (written : Bool) :
    (c.withDrops keys n m).afterWrite P msg written
      = (c.afterWrite P msg written).withDrops keys n m := by
  cases written with
  | false => cases msg <;> rfl
  | true =>
    cases msg with
    | keyUpdate ch announced => exact advanceSend_withDrops (c := c.bumpSend ch) ch
    | masterRatchet target => exact adoptSendRoot_withDrops (c := c.bumpSend chanControl) _ _
    | reKEMAck kemShare kemCT newSS th target =>
      exact adoptSendRoot_withDrops (c := c.bumpSend chanControl) _ _
    | _ => rfl

end Conn

namespace Endpoint

variable {P : Primitives} {e e' : Endpoint} {keys : ChannelID → Option EpochKeys} {n m : UInt64}

def withDrops (e : Endpoint) (keys : ChannelID → Option EpochKeys) (n m : UInt64) : Endpoint :=
  { e with conn := e.conn.withDrops keys n m }

theorem begin_withDrops (call : Call) (answer : WriteResult) :
    (e.withDrops keys n m).begin P call answer = (e.begin P call answer).withDrops keys n m := by
  have hbegin : call.begin P (e.withDrops keys n m).conn
      = ((call.begin P e.conn).1.withDrops keys n m, (call.begin P e.conn).2) :=
    Conn.begin_withDrops call
  rw [begin, begin, hbegin]
  generalize call.begin P e.conn = result
  obtain ⟨c, attempt⟩ := result
  cases attempt with
  | refused err => rfl
  | sealed st msg =>
    have hwrite : ∀ wire, (e.withDrops keys n m).writeWire wire answer = e.writeWire wire answer :=
      fun _ => rfl
    simp only [hwrite]
    generalize e.writeWire (msg.wire P st) answer = result
    rfl

theorem request_withDrops (ev : Event) : (e.withDrops keys n m).request ev
      = (e.request ev).map fun r => (r.1, r.2.withDrops keys n m) := by
  cases ev with
  | reKEM i =>
    have hsame : (e.withDrops keys n m).reKEMs = e.reKEMs := rfl
    rw [request, request, hsame]
    cases e.reKEMs[i]? with
    | none => rfl
    | some call => cases call <;> rfl
  | respond i rand =>
    have hsame : (e.withDrops keys n m).responders = e.responders := rfl
    rw [request, request, hsame]
    cases e.responders[i]? <;> rfl
  | react =>
    have hsame : (e.withDrops keys n m).reaction = e.reaction := rfl
    rw [request, request, hsame]
    cases e.reaction with
    | none => rfl
    | some reaction =>
      cases reaction with
      | due act => cases act <;> rfl
      | performed => rfl
  | _ => rfl

theorem finish_withDrops (h : Hold) :
    (e.withDrops keys n m).finish P h = (e.finish P h).withDrops keys n m := by
  simp only [finish, withDrops, Conn.afterWrite_withDrops]

/-- **No step of the endpoint's own but the teardown sees the traces of dropped frames.** -/
theorem act_withDrops {ev : Event} (hev : ev ≠ .zeroize) (answer : WriteResult) :
    (e.withDrops keys n m).act P ev answer
      = (e.act P ev answer).map fun e => e.withDrops keys n m := by
  have hhold : (e.withDrops keys n m).hold = e.hold := rfl
  cases ev with
  | zeroize => exact absurd rfl hev
  | close => rfl
  | finish =>
    rw [act, act, hhold]
    cases e.hold with
    | none => rfl
    | some h => exact congrArg some (finish_withDrops h)
  | reKEMCheck =>
    change (if e.conn.pendingReKEM.isSome = true then _ else _) = _
    rw [act]
    split <;> rfl
  | reKEMKeygen i client =>
    have hsame : (e.withDrops keys n m).reKEMs = e.reKEMs := rfl
    rw [act, act, hsame]
    cases e.reKEMs[i]? with
    | none => rfl
    | some call => cases call <;> rfl
  | closeAcked ackCh =>
    change (if ackCh ∈ e.closers ∧ ackCh ∈ e.conn.signalled then _ else _) = _
    rw [act]
    split <;> rfl
  | closeAbandoned ackCh =>
    change (if ackCh ∈ e.closers then _ else _) = _
    rw [act]
    split <;> rfl
  | _ =>
    -- the events that take `wmu`
    unfold act
    dsimp only
    rw [hhold, request_withDrops]
    by_cases hheld : e.hold.isSome = true
    · rw [if_pos hheld, if_pos hheld]
      rfl
    rw [if_neg hheld, if_neg hheld]
    cases e.request _ with
    | none => rfl
    | some r => exact congrArg some (begin_withDrops r.1 answer)

theorem act_recvSide {ev : Event} {answer : WriteResult} (hev : ev ≠ .zeroize)
    (h : e.act P ev answer = some e') : e'.conn.recvSide = e.conn.recvSide := by
  cases act_does h with
  | refused hhold hrequest hc hwhy =>
    rcases hc with rfl | ⟨ch, rfl⟩ <;> rfl
  | @sealed _ call e₁ msg hhold hrequest hopen hmakes =>
    obtain ⟨_, _, _, _, rfl⟩ := hrequest.eq
    cases msg <;> rfl
  | @finished held hhold =>
    cases hwritten : held.written with
    | false =>
      simp only [finish, hwritten]
      cases held.msg <;> rfl
    | true =>
      obtain ⟨root, gen, keys, heq⟩ := Conn.afterWrite_eq (P := P) e.conn held.msg
      simp only [finish, hwritten, heq]
      rfl
  | zeroize hraw hhold => exact absurd rfl hev
  | _ => rfl

/-- `e` is `e'` with the traces of `n` unauthenticated and `m` out-of-sequence frames. -/
def Polluted (P : Primitives) (n m : UInt64) (e e' : Endpoint) : Prop :=
  ∃ keys, e'.conn.Caches P keys ∧ e = e'.withDrops keys n m

theorem caches_zeroize {c : Conn} (h : c.Caches P keys) :
    c.zeroize.Caches P fun ch => (keys ch).map EpochKeys.zeroize := by
  intro ch
  rcases h ch with hsame | ⟨hnone, hlazy⟩
  · exact .inl (congrArg (Option.map EpochKeys.zeroize) hsame)
  refine .inr ⟨congrArg (Option.map EpochKeys.zeroize) hnone,
    (congrArg (Option.map EpochKeys.zeroize) hlazy).trans ?_⟩
  cases hclosed : c.closed with
  | true =>
    simp only [Conn.lazyKey, hclosed]
    rfl
  | false =>
    simp only [Conn.lazyKey, hclosed]
    rfl

theorem Polluted.act (h : e.Polluted P n m e') (ev : Event) (answer : WriteResult) :
    Rel (Polluted P n m) (e.act P ev answer) (e'.act P ev answer) := by
  obtain ⟨keys, hkeys, rfl⟩ := h
  by_cases hev : ev = .zeroize
  · subst hev
    change Rel _ (if e'.rawClosed = true ∧ e'.hold.isNone = true then _ else _)
      (if e'.rawClosed = true ∧ e'.hold.isNone = true then _ else _)
    split
    · exact .some ⟨_, caches_zeroize hkeys, rfl⟩
    · exact .none
  · rw [act_withDrops hev]
    cases hact : e'.act P ev answer with
    | none => exact .none
    | some e₁ => exact .some ⟨keys, hkeys.congr (act_recvSide hev hact), rfl⟩

end Endpoint

/-! ### The receive direction -/

/-- The two steps differ in the drop counters and in keys derived early, and in nothing else. -/
inductive RecvStep.Polluted (P : Primitives) (n m : UInt64) : RecvStep → RecvStep → Prop
  | again {c : Conn} {keys : ChannelID → Option EpochKeys} {task : Option Responder}
      (h : c.Caches P keys) : Polluted P n m (.again (c.withDrops keys n m) task) (.again c task)
  | ret {c : Conn} {keys : ChannelID → Option EpochKeys} {ch : ChannelID} {ft : FrameType}
      {pt : Bytes} {act : RecvAction} (h : c.Caches P keys) :
      Polluted P n m (.ret (c.withDrops keys n m) ch ft pt act) (.ret c ch ft pt act)

theorem rel_ite {α : Type} {R : α → α → Prop} {p : Prop} [Decidable p] {a b a' b' : α}
    (ha : R a a') (hb : R b b') : R (if p then a else b) (if p then a' else b') := by
  split
  · exact ha
  · exact hb

namespace Conn

variable {P : Primitives} {c : Conn} {keys : ChannelID → Option EpochKeys} {n m : UInt64}

theorem Caches.update (h : c.Caches P keys) (ch : ChannelID) (st : Option EpochKeys) :
    Caches P { c with recvKeys := Function.update c.recvKeys ch st }
      (Function.update keys ch st) := by
  intro other
  by_cases hother : other = ch
  · subst hother
    exact .inl (by simp only [Function.update_self])
  · simp only [Function.update_of_ne hother]
    exact h other

theorem caches_adoptRecvRoot (c : Conn) (root : Bytes) (gen : UInt64) :
    (c.adoptRecvRoot root gen).Caches P fun _ => none :=
  fun _ => .inl rfl

theorem completeReKEM_withDrops (c : Conn) (keys : ChannelID → Option EpochKeys)
    (pend : PendingReKEM) (kemCT : Bytes) (gen : UInt64) :
    (∃ e, c.completeReKEM P pend kemCT gen = .error e
        ∧ (c.withDrops keys n m).completeReKEM P pend kemCT gen = .error e)
      ∨ ∃ root, c.completeReKEM P pend kemCT gen = .ok (c.adoptRecvRoot root gen)
        ∧ (c.withDrops keys n m).completeReKEM P pend kemCT gen
          = .ok ((c.withDrops keys n m).adoptRecvRoot root gen) := by
  have hth : thRekem P (c.withDrops keys n m).profile pend.kemShare kemCT gen
      = .ok (rekemPoint P pend.kemShare kemCT gen) := thRekem_eq c.hasSuite _ _ _
  unfold completeReKEM
  by_cases hgen : gen ≠ c.genRecv + 1 ∨ gen ≠ pend.targetGen
  · have hgen' : gen ≠ (c.withDrops keys n m).genRecv + 1 ∨ gen ≠ pend.targetGen := hgen
    left
    rw [if_pos hgen, if_pos hgen']
    exact ⟨_, rfl, rfl⟩
  · have hgen' : ¬(gen ≠ (c.withDrops keys n m).genRecv + 1 ∨ gen ≠ pend.targetGen) := hgen
    rw [if_neg hgen, if_neg hgen']
    cases pend.client.sharedSecrets P kemCT with
    | error e => exact .inl ⟨_, rfl, rfl⟩
    | ok ss =>
      have htier : ratchetMasterTier2 P (c.withDrops keys n m).masterRecv ss.combined
          (rekemPoint P pend.kemShare kemCT gen) (c.withDrops keys n m).profile
          = .ok (tier2 P c.masterRecv ss.combined (rekemPoint P pend.kemShare kemCT gen)) :=
        ratchetMasterTier2_eq c.hasSuite _ _ _
      right
      refine ⟨tier2 P c.masterRecv ss.combined (rekemPoint P pend.kemShare kemCT gen), ?_, ?_⟩
      · dsimp only
        rw [thRekem_eq c.hasSuite]
        dsimp only
        rw [ratchetMasterTier2_eq c.hasSuite]
      · dsimp only
        rw [hth]
        dsimp only
        rw [htier]

theorem handleReKEMAck_pending {pt kemCT : Bytes} {gen : UInt64} {pend : PendingReKEM}
    (hparse : parseReKEMAck pt = .ok (kemCT, gen)) (hpending : c.pendingReKEM = some pend) :
    c.handleReKEMAck P pt
      = match completeReKEM P { c with pendingReKEM := none } pend kemCT gen with
        | .error e => ({ c with pendingReKEM := none }, some e)
        | .ok c => (c, none) := by
  rw [handleReKEMAck, hparse]
  dsimp only
  split
  · rename_i hnone
    rw [hpending] at hnone
    cases hnone
  · rename_i pend' hsome
    obtain rfl := some.inj (hpending.symm.trans hsome)
    rfl

section Handlers

variable (h : c.Caches P keys)

include h

theorem keyUpdateReceived_polluted (ch : ChannelID) (st : EpochKeys) (pt : Bytes) :
    RecvStep.Polluted P n m ((c.withDrops keys n m).keyUpdateReceived P ch st pt)
      (c.keyUpdateReceived P ch st pt) := by
  cases hparse : parseKeyUpdateMarker pt with
  | error e =>
    rw [keyUpdateReceived, handleKeyUpdate, keyUpdateReceived, handleKeyUpdate, hparse]
    exact .ret h
  | ok next =>
    by_cases hnext : next = st.epoch + 1
    · rw [keyUpdateReceived_next ch hparse hnext, keyUpdateReceived_next ch hparse hnext]
      exact .again (h.update ch _)
    · rw [keyUpdateReceived, handleKeyUpdate, keyUpdateReceived, handleKeyUpdate, hparse]
      dsimp only
      rw [if_pos hnext, if_pos hnext]
      exact .ret h

theorem keyUpdateAckReceived_polluted (ch : ChannelID) (pt : Bytes) :
    RecvStep.Polluted P n m ((c.withDrops keys n m).keyUpdateAckReceived ch pt)
      (c.keyUpdateAckReceived ch pt) := by
  unfold keyUpdateAckReceived consumePendingKeyUpdateAck
  cases parseKeyUpdateMarker pt with
  | error e => exact .ret h
  | ok epoch =>
    dsimp only
    by_cases hpending : c.pendingKUAck ch epoch = 0
    · have hpending' : (c.withDrops keys n m).pendingKUAck ch epoch = 0 := hpending
      rw [if_pos hpending, if_pos hpending']
      exact .ret h
    · have hpending' : ¬(c.withDrops keys n m).pendingKUAck ch epoch = 0 := hpending
      rw [if_neg hpending, if_neg hpending']
      exact .again (c := c.removePendingKeyUpdateAck ch epoch) (h.congr rfl)

theorem masterRatchetReceived_polluted (ch : ChannelID) (pt : Bytes) :
    RecvStep.Polluted P n m ((c.withDrops keys n m).masterRatchetReceived P ch pt)
      (c.masterRatchetReceived P ch pt) := by
  cases hparse : parseRatchetGenMarker pt with
  | error e =>
    rw [masterRatchetReceived, handleMasterRatchet, masterRatchetReceived, handleMasterRatchet,
      hparse]
    exact .ret h
  | ok next =>
    by_cases hnext : next = c.genRecv + 1
    · rw [masterRatchetReceived_next ch hparse hnext,
        masterRatchetReceived_next (c := c.withDrops keys n m) ch hparse hnext]
      exact .again (caches_adoptRecvRoot c _ next)
    · have hnext' : ¬next = (c.withDrops keys n m).genRecv + 1 := hnext
      rw [masterRatchetReceived, handleMasterRatchet, masterRatchetReceived, handleMasterRatchet,
        hparse]
      dsimp only
      rw [if_pos hnext, if_pos hnext']
      exact .ret h

theorem masterRatchetAckReceived_polluted (pt : Bytes) :
    RecvStep.Polluted P n m ((c.withDrops keys n m).masterRatchetAckReceived pt)
      (c.masterRatchetAckReceived pt) := by
  unfold masterRatchetAckReceived consumePendingRatchetAck
  cases parseRatchetGenMarker pt with
  | error e => exact .ret h
  | ok gen =>
    dsimp only
    by_cases hpending : gen ∈ c.pendingMRAck
    · have hpending' : gen ∈ (c.withDrops keys n m).pendingMRAck := hpending
      rw [if_pos hpending, if_pos hpending']
      exact .again (c := c.removePendingRatchetAck gen) (h.congr rfl)
    · have hpending' : gen ∉ (c.withDrops keys n m).pendingMRAck := hpending
      rw [if_neg hpending, if_neg hpending']
      exact .ret h

theorem handleReKEMAck_polluted (pt : Bytes) :
    ∃ c₁ keys₁ err, c₁.Caches P keys₁ ∧ c.handleReKEMAck P pt = (c₁, err)
      ∧ (c.withDrops keys n m).handleReKEMAck P pt = (c₁.withDrops keys₁ n m, err) := by
  cases hparse : parseReKEMAck pt with
  | error e =>
    rw [handleReKEMAck, handleReKEMAck, hparse]
    exact ⟨c, keys, _, h, rfl, rfl⟩
  | ok result =>
    obtain ⟨kemCT, gen⟩ := result
    cases hpending : c.pendingReKEM with
    | none =>
      have hpending' : (c.withDrops keys n m).pendingReKEM = none := hpending
      refine ⟨c, keys, some Sentinel.errUnsolicitedReKEMAck.err, h, ?_, ?_⟩
      · rw [handleReKEMAck, hparse]
        dsimp only
        rw [hpending]
      · rw [handleReKEMAck, hparse]
        dsimp only
        rw [hpending']
    | some pend =>
      have hpending' : (c.withDrops keys n m).pendingReKEM = some pend := hpending
      have hcomplete := completeReKEM_withDrops (P := P) (n := n) (m := m)
        { c with pendingReKEM := none } keys pend kemCT gen
      rw [handleReKEMAck_pending hparse hpending, handleReKEMAck_pending hparse hpending']
      change ∃ c₁ keys₁ err, _ ∧ _ ∧
        (match completeReKEM P (withDrops { c with pendingReKEM := none } keys n m) pend kemCT gen with
          | .error e => (withDrops { c with pendingReKEM := none } keys n m, some e)
          | .ok c => (c, none)) = _
      rcases hcomplete with ⟨e, he, he'⟩ | ⟨root, hroot, hroot'⟩
      · rw [he, he']
        exact ⟨{ c with pendingReKEM := none }, keys, some e, h.congr rfl, rfl, rfl⟩
      · rw [hroot, hroot']
        exact ⟨adoptRecvRoot { c with pendingReKEM := none } root gen, _, none,
          caches_adoptRecvRoot _ root gen, rfl, rfl⟩

theorem reKEMAckReceived_polluted (pt : Bytes) :
    RecvStep.Polluted P n m ((c.withDrops keys n m).reKEMAckReceived P pt)
      (c.reKEMAckReceived P pt) := by
  obtain ⟨c₁, keys₁, err, hcaches, hhandled, hhandled'⟩ :=
    handleReKEMAck_polluted (P := P) (n := n) (m := m) h pt
  unfold reKEMAckReceived
  rw [hhandled, hhandled']
  cases err with
  | none => exact .again hcaches
  | some e =>
    dsimp only
    split
    · exact .ret hcaches
    · exact .ret hcaches

theorem closeAckReceived_polluted :
    RecvStep.Polluted P n m (c.withDrops keys n m).closeAckReceived c.closeAckReceived := by
  unfold closeAckReceived signalCloseAck
  by_cases hclosing : c.closing = true
  · have hclosing' : (c.withDrops keys n m).closing = true := hclosing
    rw [if_pos hclosing, if_pos hclosing']
    exact .ret (c := { c with
      closing := false, closeAckCh := none
      signalled := c.closeAckCh.toList ++ c.signalled }) (h.congr rfl)
  · have hclosing' : ¬(c.withDrops keys n m).closing = true := hclosing
    rw [if_neg hclosing, if_neg hclosing']
    exact .ret h

theorem dispatch_polluted (st : EpochKeys) (ch : ChannelID) (ft : FrameType) (pt : Bytes) :
    RecvStep.Polluted P n m ((c.withDrops keys n m).dispatch P st ch ft pt)
      (c.dispatch P st ch ft pt) := by
  unfold dispatch
  refine rel_ite (keyUpdateReceived_polluted h ch st pt) ?_
  refine rel_ite (keyUpdateAckReceived_polluted h ch pt) ?_
  refine rel_ite (.ret h) ?_
  refine rel_ite (masterRatchetReceived_polluted h ch pt) ?_
  refine rel_ite (masterRatchetAckReceived_polluted h pt) ?_
  refine rel_ite ?_ ?_
  · unfold reKEMReceived
    cases handleReKEM ch pt with
    | error e => exact .ret h
    | ok task => exact .again h
  refine rel_ite (reKEMAckReceived_polluted h pt) ?_
  refine rel_ite ?_ ?_
  · exact rel_ite (.ret h) (.ret h)
  refine rel_ite (closeAckReceived_polluted h) ?_
  refine rel_ite ?_ (.ret h)
  unfold errorReceived
  cases decodeErrorBody pt with
  | error e => exact .ret h
  | ok e => exact .ret h

end Handlers

theorem recvView_withDrops (hc : c.closed = false) (h : c.Caches P keys) :
    (c.withDrops keys n m).recvView P = c.recvView P := by
  have hkeys : ∀ ch, (keys ch).getD (trafficKeys P c.masterRecv c.recvDir 0 ch)
      = (c.recvKeys ch).getD (trafficKeys P c.masterRecv c.recvDir 0 ch) := by
    intro ch
    rcases h ch with hsame | ⟨hnone, hlazy⟩
    · rw [hsame]
    · rw [hnone, hlazy, lazyKey, hc]
      rfl
  simp only [recvView, withDrops, hkeys]

theorem Caches.present (hc : c.closed = false) (h : c.Caches P keys) (ch : ChannelID) :
    c.Caches P (Function.update keys ch (some ((c.recvView P).keys ch))) := by
  intro other
  by_cases hother : other = ch
  · subst hother
    rw [Function.update_self]
    cases hkeys : c.recvKeys other with
    | none =>
      right
      refine ⟨rfl, ?_⟩
      simp only [recvView, hkeys, lazyKey, hc, getD_none]
      rfl
    | some st =>
      left
      simp only [recvView, hkeys, getD_some]
  · rw [Function.update_of_ne hother]
    exact h other

/-! ### One inbound frame -/

variable {wire : Bytes}

/-- **A dropped frame is counted, and nothing else happens.** -/
theorem recvOnce_dropped {k : Drop} (hdrop : c.dropKind P wire = some k) :
    c.recvOnce P wire = .again ((c.lookedUp P wire).counted k) none := by
  unfold dropKind at hdrop
  unfold recvOnce lookedUp
  cases hparse : unmarshalBinary wire with
  | error e =>
    rw [hparse] at hdrop
    cases hdrop
  | ok f =>
    rw [hparse] at hdrop
    dsimp only at hdrop ⊢
    by_cases hclear : f.flags &&& flagENC = 0
    · rw [if_pos hclear] at hdrop
      cases hdrop
      rw [if_pos hclear, if_pos hclear]
      rfl
    · rw [if_neg hclear] at hdrop
      rw [if_neg hclear, if_neg hclear]
      by_cases hc : c.closed = true
      · rw [if_pos hc] at hdrop
        cases hdrop
      rw [if_neg hc] at hdrop
      rw [recvState_eq (Bool.not_eq_true _ ▸ hc)]
      dsimp only
      by_cases hseq : f.seq ≠ ((c.recvView P).keys f.channel).seq
      · rw [if_pos hseq] at hdrop ⊢
        cases hdrop
        rfl
      · rw [if_neg hseq] at hdrop ⊢
        cases hopen : openWith P ((c.recvView P).keys f.channel) f with
        | error e =>
          rw [hopen] at hdrop
          cases hdrop
          rfl
        | ok pt =>
          rw [hopen] at hdrop
          cases hdrop

theorem recvOnce_split (P : Primitives) (c : Conn) (wire : Bytes) :
    (∃ e, unmarshalBinary wire = .error e)
      ∨ (c.closed = true ∧ ∃ f, unmarshalBinary wire = .ok f ∧ f.flags &&& flagENC ≠ 0)
      ∨ (∃ k, c.dropKind P wire = some k)
      ∨ (c.closed = false ∧ ∃ f pt, unmarshalBinary wire = .ok f ∧ c.Opens P f pt) := by
  cases hparse : unmarshalBinary wire with
  | error e => exact .inl ⟨e, rfl⟩
  | ok f =>
    right
    by_cases hclear : f.flags &&& flagENC = 0
    · exact .inr (.inl ⟨.unauthenticated, by simp only [dropKind, hparse, hclear, if_true]⟩)
    cases hc : c.closed with
    | true => exact .inl ⟨rfl, f, rfl, hclear⟩
    | false =>
      right
      by_cases hseq : f.seq = ((c.recvView P).keys f.channel).seq
      · cases hopen : openWith P ((c.recvView P).keys f.channel) f with
        | error e =>
          exact .inl ⟨.unauthenticated, by simp [dropKind, hparse, hclear, hc, hseq, hopen]⟩
        | ok pt => exact .inr ⟨rfl, f, pt, rfl, ⟨hclear, hseq, hopen⟩⟩
      · exact .inl ⟨.outOfSequence, by simp [dropKind, hparse, hclear, hc, hseq]⟩

theorem recvOnce_closed (hc : c.closed = true) {f : Frame} (hparse : unmarshalBinary wire = .ok f)
    (hsealed : f.flags &&& flagENC ≠ 0) : c.recvOnce P wire
      = .fail c (wrapf "npamp/sdk: derive recv key" Sentinel.errClosed.err) := by
  rw [recvOnce, hparse]
  dsimp only
  rw [if_neg hsealed, recvState_closed hc]

/-! ### The two runs see the same frame -/

theorem dropKind_withDrops (h : c.Caches P keys) :
    (c.withDrops keys n m).dropKind P wire = c.dropKind P wire := by
  unfold dropKind
  cases unmarshalBinary wire with
  | error e => rfl
  | ok f =>
    change (if _ then _ else if c.closed = true then _ else _) = _
    cases hc : c.closed with
    | true => rfl
    | false => rw [recvView_withDrops hc h]

theorem uint64_add_right_comm (a b c : UInt64) : a + b + c = a + c + b := by
  rw [UInt64.add_assoc, UInt64.add_comm b c, ← UInt64.add_assoc]

theorem Caches.counted (h : c.Caches P keys) (k : Drop) : (c.counted k).Caches P keys := by
  cases k with
  | unauthenticated => exact h.congr rfl
  | outOfSequence => exact h.congr rfl

theorem counted_withDrops (k : Drop) :
    (c.withDrops keys n m).counted k = (c.counted k).withDrops keys n m := by
  cases k with
  | unauthenticated =>
    simp only [counted, withDrops, uint64_add_right_comm _ _ n]
  | outOfSequence =>
    simp only [counted, withDrops, uint64_add_right_comm _ _ m]

theorem lookedUp_cases {k : Drop} (hdrop : c.dropKind P wire = some k) :
    (∀ c : Conn, c.lookedUp P wire = c)
      ∨ c.closed = false ∧ ∃ ch, ∀ c : Conn, c.lookedUp P wire = c.cacheRecv P ch := by
  unfold dropKind at hdrop
  unfold lookedUp
  cases hparse : unmarshalBinary wire with
  | error e =>
    rw [hparse] at hdrop
    cases hdrop
  | ok f =>
    rw [hparse] at hdrop
    dsimp only at hdrop ⊢
    by_cases hclear : f.flags &&& flagENC = 0
    · exact .inl fun c => if_pos hclear
    rw [if_neg hclear] at hdrop
    refine .inr ⟨?_, f.channel, fun c => if_neg hclear⟩
    cases hc : c.closed with
    | false => rfl
    | true =>
      rw [if_pos hc] at hdrop
      cases hdrop

theorem cacheRecv_withDrops (hc : c.closed = false) (h : c.Caches P keys) (ch : ChannelID) :
    (c.withDrops keys n m).cacheRecv P ch
      = c.withDrops (Function.update keys ch (some ((c.recvView P).keys ch))) n m := by
  rw [cacheRecv, recvView_withDrops hc h]
  rfl

/-- **The receive path does the same** with or without the traces of dropped frames. -/
theorem recvOnce_polluted (h : c.Caches P keys) (wire : Bytes) :
    RecvStep.Polluted P n m ((c.withDrops keys n m).recvOnce P wire) (c.recvOnce P wire) := by
  rcases recvOnce_split P c wire with ⟨e, hparse⟩ | ⟨hc, f, hparse, hsealed⟩ | ⟨k, hdrop⟩
    | ⟨hc, f, pt, hparse, hopens⟩
  · rw [recvOnce, recvOnce, hparse]
    exact .ret h
  · rw [recvOnce_closed hc hparse hsealed,
      recvOnce_closed (c := c.withDrops keys n m) hc hparse hsealed]
    exact .ret h
  · have hdrop' : (c.withDrops keys n m).dropKind P wire = some k := (dropKind_withDrops h).trans hdrop
    rw [recvOnce_dropped hdrop, recvOnce_dropped hdrop']
    rcases lookedUp_cases hdrop with hsame | ⟨hc, ch, hlooked⟩
    · rw [hsame, hsame, counted_withDrops]
      exact .again (h.counted k)
    rw [hlooked, hlooked, cacheRecv_withDrops hc h]
    have hcached : (c.cacheRecv P ch).Caches P
        (Function.update keys ch (some ((c.recvView P).keys ch))) := h.update ch _
    change RecvStep.Polluted P n m
      (.again (((c.cacheRecv P ch).withDrops _ n m).counted k) none) _
    rw [counted_withDrops]
    exact .again (hcached.counted k)
  · have hview := recvView_withDrops (n := n) (m := m) hc h
    have hopens' : (c.withDrops keys n m).Opens P f pt :=
      ⟨hopens.sealed, hview ▸ hopens.seq, hview ▸ hopens.opens⟩
    rw [recvOnce_opens hc hparse hopens,
      recvOnce_opens (c := c.withDrops keys n m) hc hparse hopens', hview]
    have hopened : (c.opened P f.channel).Caches P
        (Function.update keys f.channel (some ((c.recvView P).keys f.channel).next)) :=
      h.update f.channel _
    have hconn : (c.withDrops keys n m).opened P f.channel
        = (c.opened P f.channel).withDrops
            (Function.update keys f.channel (some ((c.recvView P).keys f.channel).next)) n m := by
      rw [opened, hview]
      rfl
    rw [hconn]
    exact dispatch_polluted hopened _ _ _ _

/-- **A dropped frame only adds to the traces.** -/
theorem recvOnce_injected (h : c.Caches P keys) {k : Drop}
    (hdrop : (c.withDrops keys n m).dropKind P wire = some k) :
    ∃ keys₁, c.Caches P keys₁ ∧ (c.withDrops keys n m).recvOnce P wire
      = .again (c.withDrops keys₁ (n + k.count .unauthenticated) (m + k.count .outOfSequence))
          none := by
  have hcounted : ∀ keys, (c.withDrops keys n m).counted k
      = c.withDrops keys (n + k.count .unauthenticated) (m + k.count .outOfSequence) := by
    intro keys
    cases k with
    | unauthenticated =>
      simp [counted, withDrops, Drop.count, UInt64.add_assoc]
    | outOfSequence =>
      simp [counted, withDrops, Drop.count, UInt64.add_assoc]
  rw [recvOnce_dropped hdrop]
  rcases lookedUp_cases hdrop with hsame | ⟨hc, ch, hlooked⟩
  · exact ⟨keys, h, by rw [hsame, hcounted]⟩
  · change c.closed = false at hc
    exact ⟨_, h.present hc ch, by rw [hlooked, cacheRecv_withDrops hc h, hcounted]⟩

end Conn

/-! ### Runs -/

/-- Octets put on the wire by somebody else, and why they are dropped. -/
structure Injected where
  kind : Drop
  wire : Bytes

def tally (k : Drop) (js : List Injected) : UInt64 := UInt64.ofNat (js.countP (·.kind = k))

theorem tally_append (k : Drop) (js : List Injected) (j : Injected) :
    tally k (js ++ [j]) = tally k js + j.kind.count k := by
  rw [tally, List.countP_append, UInt64.ofNat_add, tally, Drop.count]
  by_cases hkind : j.kind = k
  · rw [List.countP_singleton, if_pos (decide_eq_true hkind), if_pos hkind]
    rfl
  · rw [List.countP_singleton, if_neg (by simpa using hkind), if_neg hkind]
    rfl

namespace Endpoint

variable {P : Primitives} {e e' : Endpoint} {n m : UInt64}

def inject (P : Primitives) (e : Endpoint) (j : Injected) : Option Endpoint := e.recv P j.wire

def inert (P : Primitives) (e : Endpoint) (j : Injected) : Bool :=
  !e.rawClosed && e.reaction = none && e.conn.dropKind P j.wire = some j.kind

theorem afterRecv_polluted {keys : ChannelID → Option EpochKeys} {r r' : RecvStep}
    (hr : RecvStep.Polluted P n m r r') :
    ((e.withDrops keys n m).afterRecv r).Polluted P n m (e.afterRecv r') := by
  cases hr with
  | again h => exact ⟨_, h, rfl⟩
  | @ret c keys ch ft pt act h =>
    cases act with
    | deliver err => cases err <;> exact ⟨_, h, rfl⟩
    | _ => exact ⟨_, h, rfl⟩

/-- The same input moves both endpoints or neither, and they differ afterwards as before. -/
theorem Polluted.step (h : e.Polluted P n m e') (input : Input) :
    Rel (Polluted P n m) (e.step P input) (e'.step P input) := by
  cases input with
  | act ev answer => exact h.act ev answer
  | recv wire =>
    obtain ⟨keys, hkeys, rfl⟩ := h
    change Rel (Polluted P n m)
      (if e'.rawClosed = true ∨ e'.reaction.isSome = true then none else some _)
      (if e'.rawClosed = true ∨ e'.reaction.isSome = true then none else some _)
    exact rel_ite .none (.some (afterRecv_polluted (Conn.recvOnce_polluted hkeys wire)))

theorem Polluted.inject {js : List Injected} {j : Injected}
    (h : e.Polluted P (tally .unauthenticated js) (tally .outOfSequence js) e')
    (hinert : e.inert P j = true) : ∃ e₁, e.inject P j = some e₁
      ∧ e₁.Polluted P (tally .unauthenticated (js ++ [j])) (tally .outOfSequence (js ++ [j])) e' := by
  obtain ⟨keys, hkeys, rfl⟩ := h
  simp only [inert, Bool.and_eq_true, Bool.not_eq_true', decide_eq_true_eq] at hinert
  obtain ⟨⟨hraw, hreaction⟩, hdrop⟩ := hinert
  obtain ⟨keys₁, hkeys₁, hstep⟩ := Conn.recvOnce_injected hkeys hdrop
  refine ⟨_, recv_eq hraw hreaction, keys₁, hkeys₁, ?_⟩
  rw [tally_append, tally_append]
  change afterRecv _ (Conn.recvOnce P (e'.conn.withDrops keys _ _) j.wire) = _
  rw [hstep]
  simp only [afterRecv, toList_none, List.append_nil]
  rfl

end Endpoint

/-- **Unauthenticated input is inert.** Frames that are dropped where they arrive can be erased from
any run, which ends in the same endpoint but for epoch-0 receive keys cached early and the two drop
counters. -/
theorem Endpoint.injected_frames_inert {P : Primitives} {e : Endpoint}
    {inputs : List (Input ⊕ Injected)}
    (hinert : Run.inertAlong (Endpoint.step P) (Endpoint.inject P) (Endpoint.inert P) e inputs
      = true) : Option.Rel
      (Endpoint.Polluted P (tally .unauthenticated (inputs.filterMap Sum.getRight?))
        (tally .outOfSequence (inputs.filterMap Sum.getRight?)))
      (inputs.foldlM (Run.withInjected (Endpoint.step P) (Endpoint.inject P)) e)
      ((inputs.filterMap Sum.getLeft?).foldlM (Endpoint.step P) e) := by
  have hstart : e.Polluted P (tally .unauthenticated []) (tally .outOfSequence []) e := by
    refine ⟨e.conn.recvKeys, fun _ => Or.inl rfl, ?_⟩
    simp [Endpoint.withDrops, Conn.withDrops, tally]
  exact Run.rel_foldlM_of_inert
    (R := fun js => Endpoint.Polluted P (tally .unauthenticated js) (tally .outOfSequence js))
    (fun js e e' input h => h.step input) (fun js e e' j h hj => h.inject hj) hstart hinert

def mixedInputs : List (Input ⊕ Injected) :=
  let st := trafficKeys plain [7] .serverToClient 0 5
  let first := (Outgoing.app 5 32 [1]).wire plain st
  let update := (Outgoing.keyUpdate 5 1).wire plain st.next
  let second := (Outgoing.app 5 32 [2]).wire plain (trafficKeys plain [7] .serverToClient 1 5)
  [.inr ⟨.unauthenticated, ({ recordFrame 0 chanControl frameClose [] with flags := 0 }).marshalBinary⟩,
    .inr ⟨.unauthenticated, (recordFrame 0 5 32 (List.replicate 17 1)).marshalBinary⟩,
    .inl (.recv first), .inr ⟨.outOfSequence, first⟩, .inl (.recv update),
    .inr ⟨.outOfSequence, update⟩, .inl (.act (.send 5 32 [9]) .ok), .inl (.recv second),
    .inr ⟨.outOfSequence, (recordFrame 3 9 32 []).marshalBinary⟩]

set_option maxRecDepth 100000 in
theorem Endpoint.injected_frames_inert_mixed :
    (mixedInputs.foldlM (Run.withInjected (Endpoint.step plain) (Endpoint.inject plain))
        (newEndpoint (newConn [7] .clientToServer .serverToClient))).map (·.delivered)
      = some [(5, 32, [1]), (5, 32, [2])]
    ∧ Option.Rel (Endpoint.Polluted plain 2 3)
        (mixedInputs.foldlM (Run.withInjected (Endpoint.step plain) (Endpoint.inject plain))
          (newEndpoint (newConn [7] .clientToServer .serverToClient)))
        ((mixedInputs.filterMap Sum.getLeft?).foldlM (Endpoint.step plain)
          (newEndpoint (newConn [7] .clientToServer .serverToClient))) := by
  have hinert : Run.inertAlong (Endpoint.step plain) (Endpoint.inject plain) (Endpoint.inert plain)
      (newEndpoint (newConn [7] .clientToServer .serverToClient)) mixedInputs = true := by
    decide +kernel
  have hdelivered :
      (mixedInputs.foldlM (Run.withInjected (Endpoint.step plain) (Endpoint.inject plain))
        (newEndpoint (newConn [7] .clientToServer .serverToClient))).map (·.delivered)
      = some [(5, 32, [1]), (5, 32, [2])] := by
    decide +kernel
  exact ⟨hdelivered, Endpoint.injected_frames_inert hinert⟩

end Npamp
