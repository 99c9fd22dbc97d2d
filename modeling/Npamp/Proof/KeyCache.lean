import Npamp.Sdk.KeyUse
import Npamp.Plain
import Npamp.Proof.Solo

/-!
# The key caches over whole runs

While a connection is open a cached entry is what deriving it afresh would give; once it is closed
everything is zero, and stays out of use for good.
-/

namespace Npamp

open Function List

variable {ch : ChannelID}

/-- Every cached entry is what its own epoch derives from the root. -/
def Derived (P : Primitives) (p : Profile) (root : Bytes) (dir : Direction)
    (keys : ChannelID → Option EpochKeys) : Prop :=
  ∀ ch st, keys ch = some st → st.derive P root dir ch p = .ok st

section Caches

variable {P : Primitives} {p : Profile} {root : Bytes} {dir : Direction}
  {keys : ChannelID → Option EpochKeys} {ch : ChannelID} {st : EpochKeys}

theorem derived_empty : Derived P p root dir fun _ => none := nofun

theorem Derived.update (h : Derived P p root dir keys) (hst : st.derive P root dir ch p = .ok st) :
    Derived P p root dir (update keys ch (some st)) := by
  intro other st' hkey
  by_cases hother : other = ch
  · subst hother
    rw [update_self] at hkey
    cases hkey
    exact hst
  · rw [update_of_ne hother] at hkey
    exact h other st' hkey

variable (hp : hashForProfile p = .ok ())

include hp

theorem derive_trafficKeys (root : Bytes) (dir : Direction) (epoch : UInt64) (ch : ChannelID) :
    (trafficKeys P root dir epoch ch).derive P root dir ch p
      = .ok (trafficKeys P root dir epoch ch) :=
  EpochKeys.derive_eq hp _ root dir ch

theorem derive_next_of_derived (hst : st.derive P root dir ch p = .ok st) :
    st.next.derive P root dir ch p = .ok st.next := by
  rw [EpochKeys.derive_eq hp] at hst ⊢
  exact congrArg (fun st : EpochKeys => Except.ok st.next) (Except.ok.inj hst)

theorem Derived.lookup (h : Derived P p root dir keys) (ch : ChannelID) :
    ((keys ch).getD (trafficKeys P root dir 0 ch)).derive P root dir ch p
      = .ok ((keys ch).getD (trafficKeys P root dir 0 ch)) := by
  cases hkey : keys ch with
  | none => exact derive_trafficKeys hp root dir 0 ch
  | some st => exact h ch st hkey

end Caches

namespace Conn

/-- Every cached key is the one its root, direction, epoch and channel derive. -/
structure KeysCurrent (P : Primitives) (c : Conn) : Prop where
  send : Derived P c.profile c.masterSend c.sendDir c.sendKeys
  recv : Derived P c.profile c.masterRecv c.recvDir c.recvKeys

end Conn

def AllZero (b : Bytes) : Prop := ∀ octet ∈ b, octet = 0

/-- Every secret the connection still has is zeroes. -/
structure Conn.Wiped (c : Conn) : Prop where
  masterSend : AllZero c.masterSend
  masterRecv : AllZero c.masterRecv
  sendKeys : ∀ ch st, c.sendKeys ch = some st → AllZero st.key ∧ AllZero st.iv
  recvKeys : ∀ ch st, c.recvKeys ch = some st → AllZero st.key ∧ AllZero st.iv

namespace Conn

variable {P : Primitives} {c : Conn}

theorem keysCurrent_newConn (master : Bytes) (sendDir recvDir : Direction) :
    (newConn master sendDir recvDir).KeysCurrent P :=
  ⟨derived_empty, derived_empty⟩

namespace KeysCurrent

variable (h : c.KeysCurrent P)

include h

theorem sendKey (ch : ChannelID) :
    ((c.sendView P).keys ch).derive P c.masterSend c.sendDir ch c.profile
      = .ok ((c.sendView P).keys ch) :=
  h.send.lookup c.hasSuite ch

theorem recvKey (ch : ChannelID) :
    ((c.recvView P).keys ch).derive P c.masterRecv c.recvDir ch c.profile
      = .ok ((c.recvView P).keys ch) :=
  h.recv.lookup c.hasSuite ch

theorem cacheSend (ch : ChannelID) : (c.cacheSend P ch).KeysCurrent P :=
  ⟨h.send.update (h.sendKey ch), h.recv⟩

theorem cacheRecv (ch : ChannelID) : (c.cacheRecv P ch).KeysCurrent P :=
  ⟨h.send, h.recv.update (h.recvKey ch)⟩

theorem opened (ch : ChannelID) : (c.opened P ch).KeysCurrent P :=
  ⟨h.send, h.recv.update (derive_next_of_derived c.hasSuite (h.recvKey ch))⟩

theorem register (m : Outgoing) : (c.register m).KeysCurrent P := by
  cases m <;> exact ⟨h.send, h.recv⟩

theorem bumpSend (ch : ChannelID) : (c.bumpSend ch).KeysCurrent P := by
  refine ⟨?_, h.recv⟩
  change Derived P c.profile c.masterSend c.sendDir (update c.sendKeys ch _)
  cases hkey : c.sendKeys ch with
  | none =>
    rw [Option.map_none, ← hkey, update_eq_self]
    exact h.send
  | some st => exact h.send.update (derive_next_of_derived c.hasSuite (h.send ch st hkey))

theorem advanceSend (ch : ChannelID) : (c.advanceSend P ch).KeysCurrent P := by
  unfold Conn.advanceSend
  cases hkey : c.sendKeys ch with
  | none => exact h
  | some st =>
    dsimp only
    rw [EpochKeys.advance_eq c.hasSuite]
    exact ⟨h.send.update (derive_trafficKeys c.hasSuite _ _ _ ch), h.recv⟩

theorem adoptSendRoot (root : Except GoError Bytes) (gen : UInt64) :
    (c.adoptSendRoot root gen).KeysCurrent P := by
  cases root with
  | error e => exact h
  | ok nr => exact ⟨derived_empty, h.recv⟩

/-- **A body keeps the caches current up to its write.** -/
theorem begin (call : Call) : (call.begin P c).1.KeysCurrent P := by
  have hbegan := Call.began P c call
  generalize call.begin P c = result at hbegan
  cases hbegan with
  | refused hc' hwhy =>
    rcases hc' with rfl | ⟨ch, rfl⟩
    · exact h
    · exact h.cacheSend ch
  | sealed hopen hmakes => exact (h.cacheSend _).register _

/-- **So does the rest of it**, however the write ended. -/
theorem afterWrite (m : Outgoing) (written : Bool) : (c.afterWrite P m written).KeysCurrent P := by
  cases written with
  | false => cases m <;> exact ⟨h.send, h.recv⟩
  | true =>
    cases m with
    | keyUpdate ch announced => exact (h.bumpSend ch).advanceSend ch
    | masterRatchet target => exact (h.bumpSend chanControl).adoptSendRoot _ target
    | reKEMAck kemShare kemCT newSS th target =>
      exact (h.bumpSend chanControl).adoptSendRoot _ target
    | reKEM client kemShare target =>
      exact ⟨(h.bumpSend chanControl).send, (h.bumpSend chanControl).recv⟩
    | app ch ft payload => exact h.bumpSend ch
    | keyUpdateAck ch epoch => exact h.bumpSend ch
    | _ => exact h.bumpSend chanControl

theorem handled {c' : Conn} (hhandled : c.Handled P ch c') : c'.KeysCurrent P := by
  cases hhandled with
  | keyUpdate epoch =>
    exact ⟨h.send, h.recv.update (derive_trafficKeys c.hasSuite _ _ epoch ch)⟩
  | masterRatchet root gen => exact ⟨h.send, derived_empty⟩
  | reKEMHealed root gen => exact ⟨h.send, derived_empty⟩
  | _ => exact ⟨h.send, h.recv⟩

/-- **And so does an inbound frame**, whatever it holds. -/
theorem recvOnce (hc : c.closed = false) (wire : Bytes) :
    (c.recvOnce P wire).conn.KeysCurrent P := by
  unfold Conn.recvOnce
  split
  · exact h
  split
  · exact ⟨h.send, h.recv⟩
  rw [recvState_eq hc]
  dsimp only
  rename_i f hparse hsealed
  have hcached := h.cacheRecv f.channel
  split
  · exact ⟨hcached.send, hcached.recv⟩
  split
  · exact ⟨hcached.send, hcached.recv⟩
  · rw [bumpRecv_cacheRecv]
    exact (h.opened _).handled (dispatch_handled _ _ _ _ _)

end KeysCurrent

end Conn

/-- The key used belongs to a root the connection has now. -/
def KeyUse.Current (P : Primitives) (c : Conn) : KeyUse → Prop
  | derive root dir _ _ =>
    (root = c.masterSend ∧ dir = c.sendDir) ∨ (root = c.masterRecv ∧ dir = c.recvDir)
  | ratchet root => root = c.masterSend ∨ root = c.masterRecv
  | sealed st ch => st.derive P c.masterSend c.sendDir ch c.profile = .ok st
  | opened st ch => st.derive P c.masterRecv c.recvDir ch c.profile = .ok st
  | decapsulate kemShare => ∃ pend, c.pendingReKEM = some pend ∧ pend.kemShare = kemShare

namespace Conn

variable {P : Primitives} {c : Conn} {u : KeyUse}

theorem current_of_sendStateUses (hu : u ∈ c.sendStateUses ch) :
    c.closed = false ∧ u.Current P c := by
  unfold sendStateUses at hu
  split at hu
  · cases hu
  rename_i hc
  refine ⟨by simpa using hc, ?_⟩
  split at hu
  · cases hu
  · obtain rfl := mem_singleton.mp hu
    exact .inl ⟨rfl, rfl⟩

theorem current_of_recvStateUses (hu : u ∈ c.recvStateUses ch) :
    c.closed = false ∧ u.Current P c := by
  unfold recvStateUses at hu
  split at hu
  · cases hu
  rename_i hc
  refine ⟨by simpa using hc, ?_⟩
  split at hu
  · cases hu
  · obtain rfl := mem_singleton.mp hu
    exact .inr ⟨rfl, rfl⟩

theorem current_of_callUses (h : c.closed = false → c.KeysCurrent P) {call : Call}
    (hu : u ∈ call.uses P c) : c.closed = false ∧ u.Current P c := by
  rcases mem_append.mp hu with hlookup | hsealed
  · split at hlookup
    · cases hlookup
    · exact current_of_sendStateUses hlookup
  · have hbegan := Call.began P c call
    generalize call.begin P c = result at hbegan hsealed
    cases hbegan with
    | refused hc' hwhy => cases hsealed
    | sealed hopen hmakes =>
      obtain rfl := mem_singleton.mp hsealed
      exact ⟨hopen, (h hopen).sendKey _⟩

theorem current_of_afterWriteUses {m : Outgoing} {written : Bool}
    (hu : u ∈ c.afterWriteUses m written) : u.Current P c := by
  unfold afterWriteUses at hu
  split at hu
  · split at hu
    · cases hu
    · obtain rfl := mem_singleton.mp hu
      exact .inl ⟨rfl, rfl⟩
  · obtain rfl := mem_singleton.mp hu
    exact .inl rfl
  · obtain rfl := mem_singleton.mp hu
    exact .inl rfl
  · cases hu

theorem current_of_dispatchUses {st : EpochKeys} {ft : FrameType} {pt : Bytes}
    (hu : u ∈ c.dispatchUses P st ch ft pt) : u.Current P c := by
  unfold dispatchUses at hu
  split at hu
  · unfold handleKeyUpdateUses at hu
    split at hu
    · cases hu
    split at hu
    · cases hu
    obtain rfl := mem_singleton.mp hu
    exact .inr ⟨rfl, rfl⟩
  split at hu
  · cases hu
  split at hu
  · cases hu
  split at hu
  · unfold handleMasterRatchetUses at hu
    split at hu
    · cases hu
    split at hu
    · cases hu
    obtain rfl := mem_singleton.mp hu
    exact .inr rfl
  split at hu
  · unfold handleReKEMAckUses at hu
    split at hu
    · rename_i pend hparse hpending
      split at hu
      · cases hu
      rcases mem_cons.mp hu with rfl | hratchet
      · exact ⟨pend, hpending, rfl⟩
      split at hratchet
      · obtain rfl := mem_singleton.mp hratchet
        exact .inr rfl
      · cases hratchet
    · cases hu
  · cases hu

theorem current_of_recvOnceUses (h : c.closed = false → c.KeysCurrent P) {wire : Bytes}
    (hu : u ∈ c.recvOnceUses P wire) : c.closed = false ∧ u.Current P c := by
  unfold recvOnceUses at hu
  split at hu
  · cases hu
  split at hu
  · cases hu
  rcases mem_append.mp hu with hlookup | hopened
  · exact current_of_recvStateUses hlookup
  cases hc : c.closed with
  | true =>
    rw [recvState_closed hc] at hopened
    cases hopened
  | false =>
    refine ⟨rfl, ?_⟩
    rw [recvState_eq hc] at hopened
    dsimp only at hopened
    split at hopened
    · cases hopened
    rcases mem_cons.mp hopened with rfl | hdispatched
    · exact (h hc).recvKey _
    split at hdispatched
    · cases hdispatched
    · rw [bumpRecv_cacheRecv] at hdispatched
      have hcurrent := current_of_dispatchUses hdispatched
      cases u <;> exact hcurrent

theorem notify_closed (hc : c.closed = true) (m : Outgoing) (P : Primitives) :
    c.notify P m = (c, .refused none) := by
  rw [notify, sendState_closed hc]

/-- **Every body of a closed connection returns before it touches a key**, whatever the primitives
are. -/
theorem begin_closed (hc : c.closed = true) (call : Call) :
    ∃ err, ∀ P, call.begin P c = (c, .refused err) := by
  cases call with
  | send ch ft payload =>
    exact ⟨_, fun P => by rw [Call.begin, sendLocked, sendState_closed hc]⟩
  | keyUpdate ch =>
    exact ⟨_, fun P => by rw [Call.begin, keyUpdate, sendState_closed hc]⟩
  | ratchetSend => exact ⟨_, fun P => if_pos hc⟩
  | reKEM client => exact ⟨_, fun P => if_pos hc⟩
  | sendClose ackCh => exact ⟨_, fun P => if_pos hc⟩
  | respondReKEM kemShare target rand =>
    refine ⟨none, fun P => ?_⟩
    rw [Call.begin, respondReKEM]
    split
    · rfl
    split
    · rfl
    · exact if_pos hc
  | _ => exact ⟨none, notify_closed hc _⟩

/-- **An inbound frame is dropped or refused**; at most a drop is counted. -/
theorem recvOnce_of_closed (hc : c.closed = true) (wire : Bytes) :
    ∃ r, (∀ P, c.recvOnce P wire = r) ∧ ∃ n, r.conn = { c with droppedUnauthenticated := n } := by
  unfold recvOnce
  cases unmarshalBinary wire with
  | error e =>
    exact ⟨.fail c (wrapf "npamp/sdk: parse frame" e), fun P => rfl, c.droppedUnauthenticated,
      rfl⟩
  | ok f =>
    dsimp only
    by_cases hclear : f.flags &&& flagENC = 0
    · exact ⟨.again { c with droppedUnauthenticated := c.droppedUnauthenticated + 1 } none,
        fun P => if_pos hclear, _, rfl⟩
    · refine ⟨.fail c (wrapf "npamp/sdk: derive recv key" Sentinel.errClosed.err), fun P => ?_,
        c.droppedUnauthenticated, rfl⟩
      rw [if_neg hclear, recvState_closed hc]

theorem allZero_replicate (n : Nat) : AllZero (replicate n 0) :=
  fun _ h => eq_of_mem_replicate h

theorem wiped_zeroize (c : Conn) : c.zeroize.Wiped := by
  have hzero : ∀ {keys : ChannelID → Option EpochKeys} (ch : ChannelID) (st : EpochKeys),
      (keys ch).map EpochKeys.zeroize = some st → AllZero st.key ∧ AllZero st.iv := by
    intro keys ch st hkey
    obtain ⟨before, -, rfl⟩ := Option.map_eq_some_iff.mp hkey
    exact ⟨allZero_replicate 32, allZero_replicate 12⟩
  exact ⟨allZero_replicate _, allZero_replicate _, hzero, hzero⟩

end Conn

namespace Custody

variable {P : Primitives} {s s' : Custody} {op : Op}

/-- Until it is closed the connection has only current keys; from then on it has none, and nobody
holds one. -/
structure Sound (P : Primitives) (s : Custody) : Prop where
  current : s.conn.closed = false → s.conn.KeysCurrent P
  wiped : s.conn.closed = true → s.conn.Wiped ∧ s.holder = none

theorem sound_newCustody (master : Bytes) (sendDir recvDir : Direction) :
    (newCustody (newConn master sendDir recvDir)).Sound P :=
  ⟨fun _ => Conn.keysCurrent_newConn master sendDir recvDir, nofun⟩

theorem Sound.of_open (hc : s.conn.closed = false) (h : s.conn.KeysCurrent P) : s.Sound P :=
  ⟨fun _ => h, fun hclosed => absurd hclosed (by simp [hc])⟩

theorem Sound.of_wiped (hc : s.conn.closed = true) (h : s.conn.Wiped) (hfree : s.holder = none) :
    s.Sound P :=
  ⟨fun hopen => absurd hopen (by simp [hc]), fun _ => ⟨h, hfree⟩⟩

theorem closed_begin (P : Primitives) (c : Conn) (call : Call) :
    (call.begin P c).1.closed = c.closed := by
  have hbegan := Call.began P c call
  generalize call.begin P c = result at hbegan
  cases hbegan with
  | refused hc' hwhy => rcases hc' with rfl | ⟨ch, rfl⟩ <;> rfl
  | sealed hopen hmakes => exact Conn.closed_register _ _

theorem closed_recvOnce (P : Primitives) (c : Conn) (wire : Bytes) :
    (c.recvOnce P wire).conn.closed = c.closed :=
  congrArg (·.2.2.2.2) (Conn.recvOnce_sendSide (P := P) c wire)

/-- What one operation does to the connection, to the message held and to the log of key uses. -/
inductive Does (P : Primitives) (s : Custody) : Op → Custody → Prop
  | call {call : Call} (hfree : s.holder = none) :
      Does P s (.call call)
        { conn := (call.begin P s.conn).1
          holder := (call.begin P s.conn).2.message
          log := s.log ++ call.uses P s.conn }
  | finish {written : Bool} {m : Outgoing} (hheld : s.holder = some m) :
      Does P s (.finish written)
        { conn := s.conn.afterWrite P m written
          holder := none
          log := s.log ++ s.conn.afterWriteUses m written }
  | recv {wire : Bytes} :
      Does P s (.recv wire)
        { s with
          conn := (s.conn.recvOnce P wire).conn
          log := s.log ++ s.conn.recvOnceUses P wire }
  | clearClosing : Does P s .clearClosing { s with conn := s.conn.clearClosing }
  | zeroize (hfree : s.holder = none) : Does P s .zeroize { s with conn := s.conn.zeroize }

theorem step_does (hstep : s.step P op = some s') : s.Does P op s' := by
  cases op with
  | call call =>
    rw [Custody.step] at hstep
    split at hstep
    · cases hstep
    · cases hstep
      exact .call ‹_›
  | finish written =>
    rw [Custody.step] at hstep
    split at hstep
    · cases hstep
    · cases hstep
      exact .finish ‹_›
  | recv wire =>
    cases hstep
    exact .recv
  | clearClosing =>
    cases hstep
    exact .clearClosing
  | zeroize =>
    rw [Custody.step] at hstep
    split at hstep
    · cases hstep
    · cases hstep
      exact .zeroize ‹_›

/-- **The step lemma.** -/
theorem Sound.step (h : s.Sound P) (hstep : s.step P op = some s') : s'.Sound P := by
  cases hc : s.conn.closed with
  | false =>
    have hcurrent := h.current hc
    cases step_does hstep with
    | call hfree => exact .of_open ((closed_begin P s.conn _).trans hc) (hcurrent.begin _)
    | finish hheld =>
      exact .of_open ((Conn.closed_afterWrite s.conn _ _).trans hc) (hcurrent.afterWrite _ _)
    | recv => exact .of_open ((closed_recvOnce P s.conn _).trans hc) (hcurrent.recvOnce hc _)
    | clearClosing => exact .of_open hc ⟨hcurrent.send, hcurrent.recv⟩
    | zeroize hfree => exact .of_wiped rfl (Conn.wiped_zeroize s.conn) hfree
  | true =>
    obtain ⟨hwiped, hfree⟩ := h.wiped hc
    cases step_does hstep with
    | @call call _ =>
      obtain ⟨err, hbegin⟩ := Conn.begin_closed hc call
      rw [hbegin P]
      exact .of_wiped hc hwiped rfl
    | finish hheld => exact absurd (hfree.symm.trans hheld) nofun
    | @recv wire =>
      obtain ⟨r, hrecv, n, hconn⟩ := Conn.recvOnce_of_closed hc wire
      rw [hrecv P, hconn]
      exact .of_wiped hc ⟨hwiped.1, hwiped.2, hwiped.3, hwiped.4⟩ hfree
    | clearClosing => exact .of_wiped hc ⟨hwiped.1, hwiped.2, hwiped.3, hwiped.4⟩ hfree
    | zeroize _ => exact .of_wiped rfl (Conn.wiped_zeroize s.conn) hfree

/-- **What a step adds to the log.** Every derivation, seal and open is made on an open connection,
from its present roots or under a key they derive. -/
theorem Sound.step_log (h : s.Sound P) (hstep : s.step P op = some s') :
    ∃ uses, s'.log = s.log ++ uses ∧ ∀ u ∈ uses, s.conn.closed = false ∧ u.Current P s.conn := by
  cases step_does hstep with
  | call hfree => exact ⟨_, rfl, fun u hu => Conn.current_of_callUses h.current hu⟩
  | finish hheld =>
    refine ⟨_, rfl, fun u hu => ⟨?_, Conn.current_of_afterWriteUses hu⟩⟩
    cases hc : s.conn.closed with
    | false => rfl
    | true => exact absurd ((h.wiped hc).2.symm.trans hheld) nofun
  | recv => exact ⟨_, rfl, fun u hu => Conn.current_of_recvOnceUses h.current hu⟩
  | _ => exact ⟨[], (append_nil _).symm, nofun⟩

/-- **A step of a closed connection** leaves it closed and uses no key. -/
theorem Sound.step_closed (h : s.Sound P) (hc : s.conn.closed = true)
    (hstep : s.step P op = some s') : s'.conn.closed = true ∧ s'.log = s.log := by
  constructor
  · cases step_does hstep with
    | call hfree => exact (closed_begin P s.conn _).trans hc
    | finish hheld => exact (Conn.closed_afterWrite s.conn _ _).trans hc
    | recv => exact (closed_recvOnce P s.conn _).trans hc
    | clearClosing => exact hc
    | zeroize hfree => rfl
  · obtain ⟨uses, hlog, huses⟩ := h.step_log hstep
    have hnone : uses = [] := by
      refine eq_nil_iff_forall_not_mem.mpr fun u hu => ?_
      exact absurd (huses u hu).1 (by simp [hc])
    rw [hlog, hnone, append_nil]

theorem Sound.step_blind (h : s.Sound P) (hc : s.conn.closed = true) (Q : Primitives) (op : Op) :
    s.step Q op = s.step P op := by
  have hvacuous : ∀ R, s.conn.closed = false → s.conn.KeysCurrent R :=
    fun R hopen => absurd hopen (by simp [hc])
  cases op with
  | call call =>
    have huses : ∀ R, call.uses R s.conn = [] := by
      refine fun R => eq_nil_iff_forall_not_mem.mpr fun u hu => ?_
      exact absurd (Conn.current_of_callUses (hvacuous R) hu).1 (by simp [hc])
    obtain ⟨err, hbegin⟩ := Conn.begin_closed hc call
    simp only [Custody.step, hbegin, huses]
  | recv wire =>
    have huses : ∀ R, s.conn.recvOnceUses R wire = [] := by
      refine fun R => eq_nil_iff_forall_not_mem.mpr fun u hu => ?_
      exact absurd (Conn.current_of_recvOnceUses (hvacuous R) hu).1 (by simp [hc])
    obtain ⟨r, hrecv, -⟩ := Conn.recvOnce_of_closed hc wire
    simp only [Custody.step, hrecv, huses]
  | finish written => simp only [Custody.step, (h.wiped hc).2]
  | _ => rfl

abbrev Reached (P : Primitives) : Custody → Custody → Prop :=
  Run.Reaches (Custody.step P) fun _ _ => True

/-- What holds at the start holds at the end of every run. -/
theorem Sound.reached (h : s.Sound P) (hreach : Reached P s s') : s'.Sound P :=
  hreach.invariant h fun _ _ _ hsound _ hstep => hsound.step hstep

theorem Sound.reached_closed (h : s.Sound P) (hc : s.conn.closed = true)
    (hreach : Reached P s s') : s'.conn.closed = true ∧ s'.log = s.log := by
  induction hreach with
  | start => exact ⟨hc, rfl⟩
  | next hbefore _ hstep ih =>
    obtain ⟨hclosed, hlog⟩ := ih
    obtain ⟨hclosed', hlog'⟩ := (h.reached hbefore).step_closed hclosed hstep
    exact ⟨hclosed', hlog'.trans hlog⟩

end Custody

def inUse : List Op :=
  [.call (.send 7 0x0100 [1]), .finish true, .call (.keyUpdate 7), .finish true,
   .recv (sealWith plain EpochKeys.new 9 0x0100 [2])]

def tornDown : List Op :=
  inUse ++ [.call .ratchetSend, .finish true, .zeroize, .call (.send 7 0x0100 [3]),
    .call (.sendKeyUpdateAck 7 1), .recv (sealWith plain EpochKeys.new 9 0x0100 [2])]

namespace Endpoint

variable {P : Primitives} {e e' : Endpoint}

def custody (e : Endpoint) (log : List KeyUse) : Custody where
  conn := e.conn
  holder := e.hold.map Hold.msg
  log := log

theorem custody_begin (log : List KeyUse) (hfree : e.hold = none) (call : Call)
    (answer : WriteResult) : (e.custody log).step P (.call call)
      = some ((e.begin P call answer).custody (log ++ call.uses P e.conn)) := by
  rw [begin]
  simp only [Custody.step, custody, hfree, Option.map_none]
  generalize call.begin P e.conn = result
  obtain ⟨c, attempt⟩ := result
  cases attempt with
  | refused err => simp only [Attempt.message, Option.map_none]
  | sealed st m => rfl

theorem act_of_requests {ev : Event} {call : Call} {e₁ : Endpoint} (hfree : e.hold = none)
    (hrequest : e.Requests ev call e₁) (answer : WriteResult) :
    e.act P ev answer = some (e₁.begin P call answer) := by
  have hfind := hrequest.request
  cases hrequest <;> simp only [act, hfree, hfind, Option.isSome_none, Bool.false_eq_true, if_false]

theorem custody_request {ev : Event} {call : Call} {e₁ : Endpoint} {answer : WriteResult}
    (hfree : e.hold = none) (hrequest : e.Requests ev call e₁)
    (hact : e.act P ev answer = some e') (log : List KeyUse) :
    ∃ op log', (e.custody log).step P op = some (e'.custody log') := by
  rw [act_of_requests hfree hrequest] at hact
  cases hact
  obtain ⟨reKEMs, responders, nextCh, reaction, heq⟩ := hrequest.eq
  have hsame : e₁.custody log = e.custody log := by
    rw [heq]
    rfl
  have hfree₁ : e₁.hold = none := by rw [heq, hfree]
  exact ⟨.call call, _, hsame ▸ custody_begin log hfree₁ call answer⟩

/-- **An endpoint only does what `Custody` allows**: each of its steps is an operation, or leaves
the connection and `wmu` alone. -/
theorem step_custody {input : Input} (hstep : e.step P input = some e') (log : List KeyUse) :
    e'.custody log = e.custody log
      ∨ ∃ op log', (e.custody log).step P op = some (e'.custody log') := by
  cases input with
  | recv wire =>
    obtain ⟨-, hconn, -, hhold, -⟩ := recv_frame hstep
    refine .inr ⟨.recv wire, log ++ e.conn.recvOnceUses P wire, ?_⟩
    simp only [Custody.step, custody, hconn, hhold]
  | act ev answer =>
    change e.act P ev answer = some e' at hstep
    have hdoes := act_does hstep
    cases hdoes with
    | refused hfree hrequest hc hwhy =>
      exact .inr (custody_request hfree hrequest hstep log)
    | sealed hfree hrequest hopen hmakes =>
      exact .inr (custody_request hfree hrequest hstep log)
    | @finished h hheld =>
      refine .inr ⟨.finish h.written, log ++ e.conn.afterWriteUses h.msg h.written, ?_⟩
      simp only [Custody.step, custody, hheld, Option.map_some]
      rfl
    | zeroize hraw hfree =>
      refine .inr ⟨.zeroize, log, ?_⟩
      simp only [Custody.step, custody, hfree, Option.map_none]
    | closeAbandoned hwaiting => exact .inr ⟨.clearClosing, log, rfl⟩
    | _ => exact .inl rfl

theorem reached_custody (hreach : Run.Reaches (step P) (fun _ _ => True) e e')
    (log : List KeyUse) : ∃ log', Custody.Reached P (e.custody log) (e'.custody log') := by
  induction hreach with
  | start => exact ⟨log, .start⟩
  | next _ _ hstep ih =>
    obtain ⟨log', hbefore⟩ := ih
    rcases step_custody hstep log' with hsame | ⟨op, log'', hop⟩
    · exact ⟨log', hsame ▸ hbefore⟩
    · exact ⟨log'', .next hbefore trivial hop⟩

end Endpoint

end Npamp
