import Npamp.Proof.Nonce
import Npamp.Proof.Final

/-!
# The send sequence counter

The counter values under one generation, epoch and channel increase as long as nothing is counted
past its end. The acknowledgement bodies have no guard: one of them wraps the counter.
-/

namespace Npamp

open Conn List Option

variable {m : Outgoing}

/-- Under which generation and keys one message was sealed. -/
structure Stamp where
  gen : UInt64
  channel : ChannelID
  st : EpochKeys

/-- The later of two frames under one generation, epoch and channel has the greater number. -/
def Stamp.Increases (a b : Stamp) : Prop :=
  a.gen = b.gen → a.st.epoch = b.st.epoch → a.channel = b.channel → a.st.seq < b.st.seq

/-- An endpoint with the record of all it has sealed. -/
structure Counting where
  ep : Endpoint
  seals : List Stamp

def Call.ratchets : Call → Bool
  | ratchetSend => true
  | respondReKEM _ _ _ => true
  | _ => false

def Call.isKeyUpdate : Call → Bool
  | keyUpdate _ => true
  | _ => false

namespace Counting

def start (master : Bytes) (sendDir recvDir : Direction) : Counting where
  ep := newEndpoint (newConn master sendDir recvDir)
  seals := []

def record (S : Counting) (e : Endpoint) : Counting where
  ep := e
  seals := S.seals ++ (e.handed.drop S.ep.handed.length).map fun a =>
    { gen := S.ep.conn.genSend, channel := a.msg.channel, st := a.st }

def step (P : Primitives) (S : Counting) (input : Input) : Option Counting :=
  match S.ep.step P input with
  | none => none
  | some e => some (S.record e)

def writes (P : Primitives) (S : Counting) (input : Input) : Bool :=
  (S.ep.step P input).all fun e => e.hold.all (·.written)

/-- No body takes a counter past its end: one without a guard of its own the sequence number,
`KeyUpdate` the epoch, a ratchet the generation. -/
def fits (P : Primitives) (S : Counting) : Input → Bool
  | .act ev _ =>
    match S.ep.request ev with
    | some (call, _) =>
      call.fits ((S.ep.conn.sendView P).keys call.channel)
        && !(call.ratchets && S.ep.conn.genSend = maxUint64)
    | none => true
  | .recv _ => true

end Counting

variable {P : Primitives}

/-- A message that moves the generation names the next one, which exists. -/
def Outgoing.Targets (gen : UInt64) : Outgoing → Prop
  | masterRatchet target => target = gen + 1 ∧ gen ≠ maxUint64
  | reKEMAck _ _ _ _ target => target = gen + 1 ∧ gen ≠ maxUint64
  | _ => True

theorem Call.Makes.targets {c : Conn} {call : Call} (h : call.Makes P c m)
    (hgen : call.ratchets = true → c.genSend ≠ maxUint64) : m.Targets c.genSend := by
  cases h with
  | ratchetSend hseq => exact ⟨rfl, hgen rfl⟩
  | respondReKEM hencapsulate htarget => exact ⟨htarget, hgen rfl⟩
  | _ => trivial

theorem View.gen_lt_after {v : View} (hratchets : m.ratchets = true)
    (htargets : m.Targets v.gen) : v.gen < (v.after P m).gen := by
  cases m with
  | masterRatchet target =>
    obtain ⟨rfl, hgen⟩ := htargets
    exact uint64_lt_succ hgen
  | reKEMAck kemShare kemCT newSS th target =>
    obtain ⟨rfl, hgen⟩ := htargets
    exact uint64_lt_succ hgen
  | _ => cases hratchets

namespace Counting

variable {S : Counting}

/-- What holds until the connection is zeroized. A frame of the present generation was sealed before
the channel's present key state, or is the one just written. -/
structure Live (P : Primitives) (S : Counting) : Prop where
  held : ∀ h, S.ep.hold = some h →
    (∃ st, S.ep.conn.sendKeys h.msg.channel = some st)
      ∧ h.msg.Advances ((S.ep.conn.sendView P).keys h.msg.channel)
      ∧ h.msg.Targets S.ep.conn.genSend
  below : ∀ a ∈ S.seals, a.gen < S.ep.conn.genSend ∨
    a.gen = S.ep.conn.genSend ∧
      (a.st.before ((S.ep.conn.sendView P).keys a.channel) ∨
        ∃ h, S.ep.hold = some h ∧ h.msg.channel = a.channel
          ∧ a.st = (S.ep.conn.sendView P).keys a.channel)

/-- The record only increases, and as long as the connection is open no entry is ahead of the
keys. -/
structure Inv (P : Primitives) (S : Counting) : Prop where
  written : ∀ h, S.ep.hold = some h → h.written = true
  increasing : S.seals.Pairwise Stamp.Increases
  live : S.ep.conn.closed = false → S.Live P

variable {e : Endpoint} {answer : WriteResult}

theorem record_of_handed (hhanded : e.handed = S.ep.handed) : S.record e = { S with ep := e } := by
  simp only [record, hhanded, drop_length, map_nil, append_nil]

theorem Inv.quiet (h : S.Inv P) (hhold : e.hold = S.ep.hold) (hhanded : e.handed = S.ep.handed)
    (hconn : e.conn.closed = false → S.ep.conn.closed = false
      ∧ e.conn.sendView P = S.ep.conn.sendView P
      ∧ (S.ep.hold = none ∨ e.conn.sendKeys = S.ep.conn.sendKeys)) : (S.record e).Inv P := by
  rw [record_of_handed hhanded]
  refine ⟨?_, h.increasing, ?_⟩
  · intro held hheld
    exact h.written held (hhold ▸ hheld)
  intro hclosed
  obtain ⟨hopen, hview, hkeys⟩ := hconn hclosed
  have hlive := h.live hopen
  have hgen : e.conn.genSend = S.ep.conn.genSend := congrArg View.gen hview
  constructor
  · intro held hheld
    change e.hold = some held at hheld
    rw [hhold] at hheld
    rcases hkeys with hnone | hkeys
    · rw [hnone] at hheld
      cases hheld
    change (∃ st, e.conn.sendKeys _ = some st) ∧ held.msg.Advances ((e.conn.sendView P).keys _)
      ∧ held.msg.Targets e.conn.genSend
    rw [hkeys, hview, hgen]
    exact hlive.held held hheld
  · intro a ha
    have hbelow := hlive.below a ha
    rwa [← hgen, ← hview, ← hhold] at hbelow

theorem sendView_sealing (e : Endpoint) (m : Outgoing) (answer : WriteResult) :
    (e.sealing P m answer).conn.sendView P = e.conn.sendView P := by
  simp only [Endpoint.sealing, sendView_register, sendView_cacheSend]

theorem sendKeys_sealing (e : Endpoint) (m : Outgoing) (answer : WriteResult) :
    (e.sealing P m answer).conn.sendKeys m.channel = some ((e.conn.sendView P).keys m.channel) := by
  simp only [Endpoint.sealing, sendKeys_register]
  exact sendKeys_cacheSend_self e.conn m.channel

theorem seals_record_sealing {e₁ : Endpoint} (hconn : e₁.conn = S.ep.conn)
    (hhanded : e₁.handed = S.ep.handed)
    (hok : e₁.writeWire (m.wire P ((e₁.conn.sendView P).keys m.channel)) answer = .ok) :
    (S.record (e₁.sealing P m answer)).seals = S.seals ++
      [{ gen := S.ep.conn.genSend, channel := m.channel
         st := (S.ep.conn.sendView P).keys m.channel }] := by
  have hasked :
      e₁.writeWire (m.wire P ((e₁.conn.sendView P).keys m.channel)) answer ≠ .refused := by
    rw [hok]
    exact nofun
  have hnew := Endpoint.handed_sealing P e₁ m hasked
  rw [hhanded] at hnew
  simp only [record, hnew, drop_left, map_cons, map_nil, hconn]

/-- **Sealing takes the next number.** -/
theorem Inv.sealing (h : S.Inv P) {e₁ : Endpoint} (hhold : S.ep.hold = none)
    (hopen : S.ep.conn.closed = false) (hconn : e₁.conn = S.ep.conn)
    (hhanded : e₁.handed = S.ep.handed)
    (hadvances : m.Advances ((S.ep.conn.sendView P).keys m.channel))
    (htargets : m.Targets S.ep.conn.genSend)
    (hwritten : (e₁.sealing P m answer).hold.all (·.written) = true) :
    (S.record (e₁.sealing P m answer)).Inv P := by
  have hlive := h.live hopen
  obtain ⟨held, hheld, hmsg, hiff⟩ := Endpoint.exists_hold_sealing P e₁ m answer
  rw [hheld, all_some] at hwritten
  have hok := hiff.mp hwritten
  have hview : (e₁.sealing P m answer).conn.sendView P = S.ep.conn.sendView P :=
    hconn ▸ sendView_sealing e₁ m answer
  have hgen : (e₁.sealing P m answer).conn.genSend = S.ep.conn.genSend := congrArg View.gen hview
  have hseals := seals_record_sealing hconn hhanded hok
  -- nothing sealed before has the number of the new frame
  have hbefore : ∀ a ∈ S.seals, a.gen < S.ep.conn.genSend ∨
      a.gen = S.ep.conn.genSend ∧ a.st.before ((S.ep.conn.sendView P).keys a.channel) := by
    intro a ha
    rcases hlive.below a ha with hgen | ⟨hgen, hbefore | ⟨held, hheld, -⟩⟩
    · exact .inl hgen
    · exact .inr ⟨hgen, hbefore⟩
    · rw [hhold] at hheld
      cases hheld
  refine ⟨?_, ?_, fun _ => ⟨?_, ?_⟩⟩
  · intro other hother
    change (e₁.sealing P m answer).hold = some other at hother
    obtain rfl := some.inj (hheld.symm.trans hother)
    exact hwritten
  · rw [hseals]
    refine pairwise_append.mpr ⟨h.increasing, pairwise_singleton _ _, ?_⟩
    intro a ha b hb hsameGen hepoch hchannel
    obtain rfl := mem_singleton.mp hb
    dsimp only at hsameGen hepoch hchannel
    rcases hbefore a ha with hlt | ⟨-, hlt | ⟨-, hlt⟩⟩
    · rw [hsameGen] at hlt
      exact absurd hlt (UInt64.lt_irrefl _)
    · rw [hchannel, hepoch] at hlt
      exact absurd hlt (UInt64.lt_irrefl _)
    · rw [hchannel] at hlt
      exact hlt
  · intro other hother
    change (e₁.sealing P m answer).hold = some other at hother
    obtain rfl := some.inj (hheld.symm.trans hother)
    change (∃ st, (e₁.sealing P m answer).conn.sendKeys _ = some st) ∧
      held.msg.Advances (((e₁.sealing P m answer).conn.sendView P).keys _) ∧
        held.msg.Targets (e₁.sealing P m answer).conn.genSend
    rw [hview, hgen, hmsg]
    exact ⟨⟨_, sendKeys_sealing e₁ m answer⟩, hadvances, htargets⟩
  · intro a ha
    change _ < (e₁.sealing P m answer).conn.genSend ∨ _ = (e₁.sealing P m answer).conn.genSend ∧
      (a.st.before (((e₁.sealing P m answer).conn.sendView P).keys _) ∨
        ∃ other, (e₁.sealing P m answer).hold = some other ∧ _ ∧
          a.st = ((e₁.sealing P m answer).conn.sendView P).keys _)
    rw [hview, hgen]
    rw [hseals] at ha
    rcases mem_append.mp ha with hold | hnew
    · exact (hbefore a hold).imp_right fun ⟨hsame, hlt⟩ => ⟨hsame, .inl hlt⟩
    · obtain rfl := mem_singleton.mp hnew
      exact .inr ⟨rfl, .inr ⟨held, hheld, congrArg Outgoing.channel hmsg, rfl⟩⟩

/-- **A written frame leaves its number behind.** -/
theorem Inv.finish (h : S.Inv P) {held : Hold} (hhold : S.ep.hold = some held) :
    (S.record (S.ep.finish P held)).Inv P := by
  have hclosed : (S.ep.finish P held).conn.closed = S.ep.conn.closed :=
    closed_afterWrite S.ep.conn held.msg held.written
  rw [record_of_handed (e := S.ep.finish P held) rfl]
  refine ⟨by rintro _ ⟨⟩, h.increasing, fun hopen => ⟨by rintro _ ⟨⟩, ?_⟩⟩
  have hlive := h.live (hclosed ▸ hopen)
  obtain ⟨⟨st, hst⟩, hadvances, htargets⟩ := hlive.held held hhold
  have hview : (S.ep.finish P held).conn.sendView P = (S.ep.conn.sendView P).after P held.msg := by
    simp only [Endpoint.finish, h.written held hhold]
    exact sendView_afterWrite hst
  have hgen : (S.ep.finish P held).conn.genSend = ((S.ep.conn.sendView P).after P held.msg).gen :=
    congrArg View.gen hview
  intro a ha
  change _ < (S.ep.finish P held).conn.genSend ∨ _ = (S.ep.finish P held).conn.genSend ∧
    (a.st.before (((S.ep.finish P held).conn.sendView P).keys _) ∨ _)
  rw [hview, hgen]
  have hbelow := hlive.below a ha
  cases hratchets : held.msg.ratchets with
  | true =>
    have hlater := View.gen_lt_after (P := P) (v := S.ep.conn.sendView P) hratchets htargets
    rcases hbelow with hlt | ⟨hsame, -⟩
    · exact .inl (UInt64.lt_trans hlt hlater)
    · exact .inl (hsame ▸ hlater)
  | false =>
    rw [View.gen_after hratchets]
    have hmoved := View.after_keys (P := P) hratchets hadvances a.channel
    refine hbelow.imp_right ?_
    rintro ⟨hsame, hbelow⟩
    refine ⟨hsame, .inl ?_⟩
    rcases hbelow with hbefore | ⟨held', hheld', hchannel, hcurrent⟩
    · rcases hmoved with ⟨-, hkeys⟩ | ⟨-, hlater⟩
      · exact hkeys ▸ hbefore
      · exact EpochKeys.before_trans hbefore hlater
    · obtain rfl := some.inj (hhold.symm.trans hheld')
      rcases hmoved with ⟨hne, -⟩ | ⟨-, hlater⟩
      · exact absurd hchannel.symm hne
      · exact hcurrent ▸ hlater

theorem Inv.act (h : S.Inv P) {ev : Event} (hdoes : S.ep.Does P answer ev e)
    (hwritten : e.hold.all (·.written) = true) (hfits : S.fits P (.act ev answer) = true) :
    (S.record e).Inv P := by
  cases hdoes with
  | refused hhold hrequest hc hwhy =>
    obtain ⟨_, _, _, _, rfl⟩ := hrequest.eq
    refine h.quiet rfl rfl fun hopen => ?_
    rcases hc with rfl | ⟨ch, rfl⟩
    · exact ⟨hopen, rfl, .inl hhold⟩
    · exact ⟨hopen, sendView_cacheSend _ ch, .inl hhold⟩
  | @sealed ev call e₁ m hhold hrequest hopen hmakes =>
    simp only [fits, hrequest.request, Bool.and_eq_true, Bool.not_eq_true', Bool.and_eq_false_iff,
      decide_eq_false_iff_not] at hfits
    obtain ⟨hseq, hgen⟩ := hfits
    obtain ⟨hconn, hhanded⟩ : e₁.conn = S.ep.conn ∧ e₁.handed = S.ep.handed := by
      obtain ⟨_, _, _, _, rfl⟩ := hrequest.eq
      exact ⟨rfl, rfl⟩
    refine h.sealing hhold hopen hconn hhanded (hmakes.advances hseq) (hmakes.targets ?_) hwritten
    intro hratchets
    exact hgen.resolve_left (by rw [hratchets]; exact nofun)
  | finished hhold => exact h.finish hhold
  | zeroize hraw hhold => exact h.quiet rfl rfl nofun
  | _ => exact h.quiet rfl rfl fun hopen => ⟨hopen, rfl, .inr rfl⟩

/-- What one input preserves, if its write succeeds. -/
theorem Inv.step (h : S.Inv P) {S' : Counting} {input : Input} (hwrites : S.writes P input = true)
    (hfits : S.fits P input = true) (hstep : S.step P input = some S') : S'.Inv P := by
  rw [Counting.step] at hstep
  split at hstep
  · cases hstep
  rename_i e he
  cases hstep
  cases input with
  | act ev answer =>
    rw [writes, he, all_some] at hwrites
    exact h.act (Endpoint.act_does he) hwrites hfits
  | recv wire =>
    obtain ⟨-, -, -, hhold, -, hhanded⟩ := Endpoint.recv_frame he
    obtain ⟨hview, hsend, hclosed⟩ := Endpoint.sendView_of_recv he
    exact h.quiet hhold hhanded fun hopen => ⟨hclosed ▸ hopen, hview, .inr hsend⟩

theorem inv_start (master : Bytes) (sendDir recvDir : Direction) :
    (start master sendDir recvDir).Inv P where
  written := nofun
  increasing := Pairwise.nil
  live _ := ⟨nofun, nofun⟩

end Counting

/-- The body returns before it seals, or drops every cached send key once its frame is written. -/
def Call.RefusesOrRetires (P : Primitives) (c : Conn) (call : Call) : Prop :=
  (∃ c' err, call.begin P c = (c', .refused err)) ∨
    ∃ c' st m, call.begin P c = (c', .sealed st m) ∧
      ∀ ch, (c'.afterWrite P m true).sendKeys ch = none

theorem Conn.sendKeys_afterWrite_ratchets {c : Conn} (h : m.ratchets = true)
    (ch : ChannelID) : (c.afterWrite P m true).sendKeys ch = none := by
  cases m with
  | masterRatchet target =>
    rw [afterWrite, ratchetMasterTier1_eq c.hasSuite]
    rfl
  | reKEMAck kemShare kemCT newSS th target =>
    rw [afterWrite, ratchetMasterTier2_eq c.hasSuite]
    rfl
  | _ => cases h

theorem Call.Makes.ratchets_of_last {c : Conn} {call : Call} (h : call.Makes P c m)
    (hkeyUpdate : call.isKeyUpdate = false)
    (hfits : call.fits ((c.sendView P).keys call.channel) = true)
    (hlast : ((c.sendView P).keys call.channel).seq = maxUint64) : m.ratchets = true := by
  cases h with
  | send hseq => exact absurd hlast hseq
  | reKEM hseq => exact absurd hlast hseq
  | sendClose hseq => exact absurd hlast hseq
  | ratchetSend hseq => rfl
  | respondReKEM hencapsulate htarget => rfl
  | keyUpdate => cases hkeyUpdate
  | _ => exact absurd hlast (by simpa [Call.fits] using hfits)

theorem Call.refusesOrRetires_of_last {c : Conn} {call : Call}
    (hkeyUpdate : call.isKeyUpdate = false)
    (hfits : call.fits ((c.sendView P).keys call.channel) = true)
    (hlast : ((c.sendView P).keys call.channel).seq = maxUint64) : call.RefusesOrRetires P c := by
  have hbegan := Call.began P c call
  generalize hresult : call.begin P c = result at hbegan
  cases hbegan with
  | refused hc hwhy => exact .inl ⟨_, _, hresult⟩
  | sealed hopen hmakes =>
    refine .inr ⟨_, _, _, hresult, sendKeys_afterWrite_ratchets ?_⟩
    exact hmakes.ratchets_of_last hkeyUpdate hfits hlast

/-- **The send counter does not wrap**, in any run of one endpoint in which every write succeeds and
no body takes a counter past its end. -/
theorem Counting.send_counter_never_wraps {master : Bytes} {sendDir recvDir : Direction}
    {S : Counting} (hreach : Run.Reaches (Counting.step P)
      (fun S input => S.writes P input = true ∧ S.fits P input = true)
      (Counting.start master sendDir recvDir) S) : S.seals.Pairwise Stamp.Increases ∧
      ∀ (ev : Event) (answer : WriteResult) (call : Call) (e₁ : Endpoint),
        S.ep.request ev = some (call, e₁) → S.fits P (.act ev answer) = true →
        call.isKeyUpdate = false →
        ((S.ep.conn.sendView P).keys call.channel).seq = maxUint64 →
        call.RefusesOrRetires P S.ep.conn := by
  have hinv : S.Inv P :=
    hreach.invariant (Counting.inv_start master sendDir recvDir)
      fun _ _ _ h hok hstep => h.step hok.1 hok.2 hstep
  refine ⟨hinv.increasing, ?_⟩
  intro ev answer call e₁ hrequest hfits hkeyUpdate hlast
  simp only [Counting.fits, hrequest, Bool.and_eq_true] at hfits
  exact Call.refusesOrRetires_of_last hkeyUpdate hfits.1 hlast

namespace Counting

/-- No write is under way and none would fail. -/
structure Idle (S : Counting) : Prop where
  hold : S.ep.hold = none
  opened : S.ep.conn.closed = false
  raw : S.ep.rawClosed = false

/-- A run of successful writes from `S` to `S'` that seals `m` and nothing else. -/
structure Sealed (P : Primitives) (S : Counting) (m : Outgoing) (S' : Counting) : Prop where
  reaches : Run.Reaches (Counting.step P) (fun S input => S.writes P input = true) S S'
  idle : S'.Idle
  view : S'.ep.conn.sendView P = (S.ep.conn.sendView P).after P m
  seals : S'.seals = S.seals ++
    [{ gen := S.ep.conn.genSend, channel := m.channel
       st := (S.ep.conn.sendView P).keys m.channel }]

variable {S : Counting}

theorem exists_sealed (hP : P.Correct) (hidle : S.Idle) (ev : Event)
    {responders : List Responder} (hact : S.ep.act P ev .ok
      = some (Endpoint.sealing P { S.ep with responders := responders } m .ok))
    (hsmall : m.plaintext.length ≤ 1000) :
    ∃ S', S.Sealed P m S' ∧ S'.ep.responders = responders := by
  set e₁ : Endpoint := { S.ep with responders := responders } with he₁
  have hok : e₁.writeWire (m.wire P ((e₁.conn.sendView P).keys m.channel)) .ok = .ok := by
    have hlength := length_wire hP ((e₁.conn.sendView P).keys m.channel) m
    have hmax : maxFrameSize = 16777216 := rfl
    have hheader : headerSize = 36 := rfl
    have hraw : e₁.rawClosed = false := hidle.raw
    rw [Endpoint.writeWire, if_neg (by omega), if_neg (by simp [hraw])]
  obtain ⟨held, hheld, hmsg, hiff⟩ := Endpoint.exists_hold_sealing P e₁ m .ok
  have hwritten := hiff.mpr hok
  have hbegin : S.step P (.act ev .ok) = some (S.record (e₁.sealing P m .ok)) := by
    rw [Counting.step, Endpoint.step, hact]
  have hwrites : S.writes P (.act ev .ok) = true := by
    rw [writes, Endpoint.step, hact, all_some, hheld, all_some, hwritten]
  set S₁ := S.record (e₁.sealing P m .ok) with hS₁
  have hfinish : S₁.step P (.act .finish .ok) = some (S₁.record (S₁.ep.finish P held)) := by
    have hhold : S₁.ep.hold = some held := hheld
    rw [Counting.step, Endpoint.step, Endpoint.act, hhold]
  have hwrites' : S₁.writes P (.act .finish .ok) = true := by
    have hhold : S₁.ep.hold = some held := hheld
    rw [writes, Endpoint.step, Endpoint.act, hhold, all_some]
    rfl
  have hclosed : (S₁.ep.finish P held).conn.closed = false := by
    rw [Endpoint.finish, closed_afterWrite]
    simp only [hS₁, record, Endpoint.sealing, closed_register]
    exact hidle.opened
  refine ⟨S₁.record (S₁.ep.finish P held), ⟨?_, ⟨rfl, hclosed, hidle.raw⟩, ?_, ?_⟩, rfl⟩
  · have hfirst : Run.Reaches (Counting.step P) (fun S input => S.writes P input = true) S S₁ :=
      .next .start hwrites hbegin
    exact .next hfirst hwrites' hfinish
  · have hkeys : S₁.ep.conn.sendKeys held.msg.channel
        = some ((e₁.conn.sendView P).keys m.channel) := by
      rw [hmsg]
      exact sendKeys_sealing e₁ m .ok
    have hview : S₁.ep.conn.sendView P = S.ep.conn.sendView P := sendView_sealing e₁ m .ok
    change (S₁.ep.conn.afterWrite P held.msg held.written).sendView P = _
    rw [hwritten, sendView_afterWrite hkeys, hview, hmsg]
  · rw [record_of_handed (S := S₁) (e := S₁.ep.finish P held) rfl]
    exact seals_record_sealing rfl rfl hok

theorem exists_sent (hP : P.Correct) (hidle : S.Idle)
    (hseq : ((S.ep.conn.sendView P).keys 5).seq ≠ maxUint64) :
    ∃ S', S.Sealed P (.app 5 32 []) S' ∧ S'.ep.responders = S.ep.responders := by
  refine exists_sealed hP hidle (.send 5 32 []) ?_ (by decide)
  simp only [Endpoint.act, hidle.hold, isSome_none, Endpoint.request, Endpoint.begin,
    Call.begin, sendLocked, sendState_eq hidle.opened, if_neg hseq]
  rfl

theorem Sealed.next {S' : Counting} (h : S.Sealed P m S')
    (hafter : ∀ v : View, v.after P m = v.bump 5) : S'.ep.conn.genSend = S.ep.conn.genSend ∧
      (S'.ep.conn.sendView P).keys 5 = ((S.ep.conn.sendView P).keys 5).next := by
  have hview := h.view
  rw [hafter] at hview
  refine ⟨congrArg View.gen hview, ?_⟩
  rw [hview]
  simp only [View.bump, Function.update_self]

theorem exists_sent_many (hP : P.Correct) (n : Nat) {S : Counting} (hidle : S.Idle)
    (hroom : ((S.ep.conn.sendView P).keys 5).seq.toNat + n < 2 ^ 64) :
    ∃ S', Run.Reaches (Counting.step P) (fun S input => S.writes P input = true) S S' ∧ S'.Idle ∧
      S'.ep.responders = S.ep.responders ∧ S'.ep.conn.genSend = S.ep.conn.genSend ∧
      ((S'.ep.conn.sendView P).keys 5).epoch = ((S.ep.conn.sendView P).keys 5).epoch ∧
      ((S'.ep.conn.sendView P).keys 5).seq.toNat = ((S.ep.conn.sendView P).keys 5).seq.toNat + n ∧
      S.seals <+: S'.seals := by
  induction n generalizing S with
  | zero => exact ⟨S, .start, hidle, rfl, rfl, rfl, rfl, prefix_refl _⟩
  | succ n ih =>
    have hmax : maxUint64.toNat = 2 ^ 64 - 1 := rfl
    have hseq : ((S.ep.conn.sendView P).keys 5).seq ≠ maxUint64 := by
      intro heq
      rw [heq, hmax] at hroom
      omega
    obtain ⟨S₁, hsealed, hresponders⟩ := exists_sent hP hidle hseq
    obtain ⟨hgen₁, hnext⟩ := hsealed.next fun _ => rfl
    have hsucc : ((S₁.ep.conn.sendView P).keys 5).seq.toNat
        = ((S.ep.conn.sendView P).keys 5).seq.toNat + 1 := by
      rw [hnext, EpochKeys.next, UInt64.toNat_add, Nat.mod_eq_of_lt]
      · rfl
      · have hone : (1 : UInt64).toNat = 1 := rfl
        omega
    obtain ⟨S', hreach, hidle', hresponders', hgen, hepoch, hcount, hinitial⟩ :=
      ih hsealed.idle (by omega)
    refine ⟨S', hsealed.reaches.trans hreach, hidle', hresponders'.trans hresponders,
      hgen.trans hgen₁, ?_, ?_, ?_⟩
    · rw [hepoch, hnext]
      rfl
    · rw [hcount, hsucc]
      omega
    · rw [hsealed.seals] at hinitial
      exact (prefix_append _ _).trans hinitial

theorem exists_acknowledged (hP : P.Correct) (hidle : S.Idle)
    (hresponders : S.ep.responders = [.keyUpdateAck 5 1]) (rand : KEMRandom) :
    ∃ S', S.Sealed P (.keyUpdateAck 5 1) S' ∧ S'.ep.responders = [] := by
  refine exists_sealed hP hidle (.respond 0 rand) ?_ (by decide)
  simp only [Endpoint.act, hidle.hold, isSome_none, Endpoint.request, hresponders,
    getElem?_cons_zero, Responder.call, Endpoint.begin, Call.begin, sendKeyUpdateAck,
    notify, Outgoing.channel, sendState_eq hidle.opened]
  rfl

theorem not_refusesOrRetires_keyUpdateAck (hidle : S.Idle) (ch : ChannelID) (epoch : UInt64) :
    ¬ (Call.sendKeyUpdateAck ch epoch).RefusesOrRetires P S.ep.conn := by
  have hbegin : (Call.sendKeyUpdateAck ch epoch).begin P S.ep.conn
      = (S.ep.conn.cacheSend P ch,
          .sealed ((S.ep.conn.sendView P).keys ch) (.keyUpdateAck ch epoch)) := by
    simp only [Call.begin, sendKeyUpdateAck, notify, Outgoing.channel,
      sendState_eq hidle.opened]
  rintro (⟨c', err, h⟩ | ⟨c', st, m, h, hnone⟩)
  · rw [hbegin] at h
    cases h
  rw [hbegin] at h
  cases h
  have hkey := hnone ch
  simp only [afterWrite, bumpSend, Outgoing.channel, Function.update_self,
    sendKeys_cacheSend_self, map_some] at hkey
  cases hkey

/-- What the runs on fixed inputs compare of a state. -/
structure Sketch where
  responders : List Responder
  held : Bool
  closed : Bool
  rawClosed : Bool
  keys : EpochKeys
  deriving DecidableEq

def sketch (S : Counting) : Sketch where
  responders := S.ep.responders
  held := S.ep.hold.isSome
  closed := S.ep.conn.closed
  rawClosed := S.ep.rawClosed
  keys := (S.ep.conn.sendView plain).keys 5

def blankRandom : KEMRandom where
  mlkem := []
  x25519Key := replicate 32 0
  length_x25519Key := length_replicate

set_option maxRecDepth 100000 in
/-- **An acknowledgement wraps the counter.** It is sealed under the last number of the channel, and
the next `Send` under 0 again, with the same key. -/
theorem keyUpdateAck_wraps_counter :
    (∃ S, Run.Reaches (Counting.step plain) (fun S input => S.writes plain input = true)
        (start [7] .clientToServer .serverToClient) S ∧
      ((S.ep.conn.sendView plain).keys 5).seq = maxUint64 ∧
      S.ep.responders = [.keyUpdateAck 5 1] ∧
      ¬ (Call.sendKeyUpdateAck 5 1).RefusesOrRetires plain S.ep.conn) ∧
    ∃ S, Run.Reaches (Counting.step plain) (fun S input => S.writes plain input = true)
        (start [7] .clientToServer .serverToClient) S ∧
      ¬ S.seals.Pairwise Stamp.Increases := by
  have hrun : (Run.exec (Counting.step plain) (Counting.writes plain)
      (start [7] .clientToServer .serverToClient)
      [.recv (serverFrame (.keyUpdate 5 1))]).map sketch
      = some ⟨[.keyUpdateAck 5 1], false, false, false,
          trafficKeys plain [7] .clientToServer 0 5⟩ := by
    decide +kernel
  obtain ⟨S₀, hexec, hsketch⟩ := Option.map_eq_some_iff.mp hrun
  have hidle₀ : S₀.Idle := by
    refine ⟨?_, congrArg Sketch.closed hsketch, congrArg Sketch.rawClosed hsketch⟩
    have hheld : S₀.ep.hold.isSome = false := congrArg Sketch.held hsketch
    simpa using hheld
  have hzero : ((S₀.ep.conn.sendView plain).keys 5).seq = 0 := by
    rw [show (S₀.ep.conn.sendView plain).keys 5 = _ from congrArg Sketch.keys hsketch]
    rfl
  -- the first frame, under number 0
  obtain ⟨S₁, hfirst, hresponders₁⟩ := exists_sent plain_correct hidle₀ (by rw [hzero]; decide)
  obtain ⟨hgen₁, hkeys₁⟩ := hfirst.next fun _ => rfl
  have hone : ((S₁.ep.conn.sendView plain).keys 5).seq.toNat = 1 := by
    rw [hkeys₁, EpochKeys.next, hzero]
    rfl
  -- the others, up to the last number
  obtain ⟨S₂, hmany, hidle₂, hresponders₂, hgen₂, hepoch₂, hcount, hinitial⟩ :=
    exists_sent_many plain_correct (2 ^ 64 - 2) hfirst.idle (by rw [hone]; norm_num)
  have hlast : ((S₂.ep.conn.sendView plain).keys 5).seq = maxUint64 := by
    apply UInt64.toNat_inj.mp
    rw [hcount, hone]
    rfl
  have hresponders : S₂.ep.responders = [.keyUpdateAck 5 1] :=
    (hresponders₂.trans hresponders₁).trans (congrArg Sketch.responders hsketch)
  have hreach₂ := ((Run.Reaches.of_exec hexec).trans hfirst.reaches).trans hmany
  refine ⟨⟨S₂, hreach₂, hlast, hresponders, not_refusesOrRetires_keyUpdateAck hidle₂ 5 1⟩, ?_⟩
  -- the acknowledgement, and one more frame
  obtain ⟨S₃, hack, -⟩ := exists_acknowledged plain_correct hidle₂ hresponders blankRandom
  obtain ⟨hgen₃, hkeys₃⟩ := hack.next fun _ => rfl
  have hwrapped : ((S₃.ep.conn.sendView plain).keys 5).seq = 0 := by
    rw [hkeys₃, EpochKeys.next, hlast]
    rfl
  obtain ⟨S₄, hagain, -⟩ := exists_sent plain_correct hack.idle (by rw [hwrapped]; decide)
  refine ⟨S₄, (hreach₂.trans hack.reaches).trans hagain.reaches, fun hincreasing => ?_⟩
  rw [hagain.seals] at hincreasing
  have hfirstSeal : { gen := S₀.ep.conn.genSend, channel := 5
                      st := (S₀.ep.conn.sendView plain).keys 5 } ∈ S₃.seals := by
    rw [hack.seals]
    refine List.mem_append_left _ (hinitial.subset ?_)
    rw [hfirst.seals]
    exact List.mem_append_right _ (List.mem_singleton_self _)
  have hless := (List.pairwise_append.mp hincreasing).2.2 _ hfirstSeal _
    (List.mem_singleton_self _) ?_ ?_ rfl
  · change ((S₀.ep.conn.sendView plain).keys 5).seq < ((S₃.ep.conn.sendView plain).keys 5).seq
      at hless
    rw [hzero, hwrapped] at hless
    exact absurd hless (by decide)
  · exact (hgen₃.trans (hgen₂.trans hgen₁)).symm
  · change ((S₀.ep.conn.sendView plain).keys 5).epoch = ((S₃.ep.conn.sendView plain).keys 5).epoch
    rw [hkeys₃, EpochKeys.next, hepoch₂, hkeys₁, EpochKeys.next]

set_option maxRecDepth 100000 in
theorem send_counter_never_wraps_ratcheted : ∃ S, Run.Reaches (Counting.step plain)
        (fun S input => S.writes plain input = true ∧ S.fits plain input = true)
        (start [7] .clientToServer .serverToClient) S ∧
      S.seals.map (fun a => (a.gen, a.st.epoch, a.st.seq))
        = [(0, 0, 0), (0, 0, 1), (0, 0, 2), (0, 1, 0), (0, 0, 0), (1, 0, 0)] ∧
      S.seals.Pairwise Stamp.Increases :=
  (Run.exists_reaches
    [.act (.send 5 32 [1]) .ok, .act .finish .ok, .recv (serverFrame (.keyUpdate 5 1)),
      .act (.respond 0 blankRandom) .ok, .act .finish .ok, .act (.keyUpdate 5) .ok,
      .act .finish .ok, .act (.send 5 32 [2]) .ok, .act .finish .ok, .act .ratchetSend .ok,
      .act .finish .ok, .act (.send 5 32 [3]) .ok] (by decide +kernel)).imp
    fun _ ⟨hreach, hseals⟩ => ⟨hreach, hseals, (send_counter_never_wraps hreach).1⟩

end Counting

end Npamp
