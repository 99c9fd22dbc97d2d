import Npamp.Sdk.System
import Npamp.Proof.Schedule

/-!
# What both ends of a direction agree on

A `View` is the key state of one direction, whether or not its keys are cached yet. Sealing and
reading a message move it in the same way.
-/

namespace Npamp

open Function

variable {c : Conn}

theorem uint64_lt_succ {n : UInt64} (h : n ≠ maxUint64) : n < n + 1 := by
  rw [UInt64.lt_iff_toNat_lt, UInt64.toNat_add]
  have hlt := n.toNat_lt
  have hne : n.toNat ≠ maxUint64.toNat := fun heq => h (UInt64.toNat_inj.mp heq)
  have hmax : maxUint64.toNat = 2 ^ 64 - 1 := rfl
  have hone : (1 : UInt64).toNat = 1 := rfl
  omega

/-- One direction of a connection without its cache: the keys of every channel are there, derived or
not. -/
structure View where
  dir : Direction
  root : Bytes
  gen : UInt64
  keys : ChannelID → EpochKeys

namespace View

variable (P : Primitives)

def fresh (dir : Direction) (root : Bytes) (gen : UInt64) : View :=
  { dir := dir, root := root, gen := gen, keys := trafficKeys P root dir 0 }

def bump (v : View) (ch : ChannelID) : View :=
  { v with keys := update v.keys ch (v.keys ch).next }

def after (v : View) : Outgoing → View
  | .keyUpdate ch _ =>
    { v with
      keys := update v.keys ch
        (trafficKeys P v.root v.dir ((v.keys ch).epoch + 1) ch) }
  | .masterRatchet target => fresh P v.dir (tier1 P v.root target) target
  | .reKEMAck _ _ newSS th target => fresh P v.dir (tier2 P v.root newSS th) target
  | m => v.bump m.channel

end View

namespace Conn

variable (P : Primitives)

def sendView (c : Conn) : View :=
  { dir := c.sendDir, root := c.masterSend, gen := c.genSend
    keys := fun ch => (c.sendKeys ch).getD (trafficKeys P c.masterSend c.sendDir 0 ch) }

def recvView (c : Conn) : View :=
  { dir := c.recvDir, root := c.masterRecv, gen := c.genRecv
    keys := fun ch => (c.recvKeys ch).getD (trafficKeys P c.masterRecv c.recvDir 0 ch) }

def cacheSend (c : Conn) (ch : ChannelID) : Conn :=
  { c with sendKeys := update c.sendKeys ch (some ((c.sendView P).keys ch)) }

def cacheRecv (c : Conn) (ch : ChannelID) : Conn :=
  { c with recvKeys := update c.recvKeys ch (some ((c.recvView P).keys ch)) }

def opened (c : Conn) (ch : ChannelID) : Conn :=
  { c with recvKeys := update c.recvKeys ch (some ((c.recvView P).keys ch).next) }

def register (c : Conn) : Outgoing → Conn
  | .keyUpdate ch announced => c.addPendingKeyUpdateAck ch announced
  | .masterRatchet target => c.addPendingRatchetAck target
  | .close ackCh => { c with closing := true, closeAckCh := some ackCh }
  | _ => c

variable {P}

theorem getD_update_some (keys : ChannelID → Option EpochKeys) (fallback : ChannelID → EpochKeys)
    (ch : ChannelID) (st : EpochKeys) :
    (fun other => (update keys ch (some st) other).getD (fallback other))
      = update (fun other => (keys other).getD (fallback other)) ch st := by
  funext other
  by_cases hother : other = ch
  · subst hother
    simp
  · simp [hother]

theorem derive_new (c : Conn) (root : Bytes) (dir : Direction) (ch : ChannelID) :
    EpochKeys.new.derive P root dir ch c.profile = .ok (trafficKeys P root dir 0 ch) :=
  EpochKeys.derive_eq c.hasSuite EpochKeys.new root dir ch

/-- Whether or not the keys are cached, `sendState` returns those of the view and caches them. -/
theorem sendState_eq (hc : c.closed = false) (ch : ChannelID) :
    c.sendState P ch = .ok ((c.sendView P).keys ch, c.cacheSend P ch) := by
  rw [sendState, if_neg (by simp [hc])]
  cases hkeys : c.sendKeys ch with
  | none =>
    simp only [derive_new, cacheSend, sendView, hkeys, Option.getD_none]
  | some st =>
    have hself : update c.sendKeys ch (some st) = c.sendKeys := by
      rw [← hkeys, update_eq_self]
    simp only [cacheSend, sendView, hkeys, Option.getD_some, hself]

theorem recvState_eq (hc : c.closed = false) (ch : ChannelID) :
    c.recvState P ch = .ok ((c.recvView P).keys ch, c.cacheRecv P ch) := by
  rw [recvState, if_neg (by simp [hc])]
  cases hkeys : c.recvKeys ch with
  | none =>
    simp only [derive_new, cacheRecv, recvView, hkeys, Option.getD_none]
  | some st =>
    have hself : update c.recvKeys ch (some st) = c.recvKeys := by
      rw [← hkeys, update_eq_self]
    simp only [cacheRecv, recvView, hkeys, Option.getD_some, hself]

theorem bumpRecv_cacheRecv (c : Conn) (ch : ChannelID) :
    (c.cacheRecv P ch).bumpRecv ch ((c.recvView P).keys ch) = c.opened P ch := by
  simp only [bumpRecv, cacheRecv, opened, update_idem]

@[simp]
theorem sendView_cacheSend (c : Conn) (ch : ChannelID) :
    (c.cacheSend P ch).sendView P = c.sendView P := by
  have hkeys := getD_update_some c.sendKeys (trafficKeys P c.masterSend c.sendDir 0) ch
    ((c.sendView P).keys ch)
  simp only [sendView, cacheSend] at hkeys ⊢
  rw [hkeys]
  congr
  exact update_eq_self ch _

@[simp]
theorem recvView_opened (c : Conn) (ch : ChannelID) :
    (c.opened P ch).recvView P = (c.recvView P).bump ch := by
  simp only [recvView, opened, View.bump, getD_update_some]

theorem recvState_closed (hc : c.closed = true) (ch : ChannelID) :
    c.recvState P ch = .error Sentinel.errClosed.err := by
  rw [recvState, if_pos hc]

theorem sendState_closed (hc : c.closed = true) (ch : ChannelID) :
    c.sendState P ch = .error Sentinel.errClosed.err := by
  rw [sendState, if_pos hc]

end Conn

/-- The message each body seals, and what it has checked by then. -/
inductive Call.Makes (P : Primitives) (c : Conn) : Call → Outgoing → Prop
  | send {ch : ChannelID} {ft : FrameType} {payload : Bytes}
      (hseq : ((c.sendView P).keys ch).seq ≠ maxUint64) :
      Makes P c (.send ch ft payload) (.app ch ft payload)
  | keyUpdate {ch : ChannelID} :
      Makes P c (.keyUpdate ch) (.keyUpdate ch (((c.sendView P).keys ch).epoch + 1))
  | ratchetSend (hseq : ((c.sendView P).keys chanControl).seq ≠ maxUint64) :
      Makes P c .ratchetSend (.masterRatchet (c.genSend + 1))
  | reKEM {client : KEMClient} (hseq : ((c.sendView P).keys chanControl).seq ≠ maxUint64) :
      Makes P c (.reKEM client) (.reKEM client (client.kemShare P) (c.genRecv + 1))
  | keyUpdateAck {ch : ChannelID} {epoch : UInt64} :
      Makes P c (.sendKeyUpdateAck ch epoch) (.keyUpdateAck ch epoch)
  | masterRatchetAck {gen : UInt64} : Makes P c (.sendMasterRatchetAck gen) (.masterRatchetAck gen)
  | respondReKEM {kemShare kemCT : Bytes} {target : UInt64} {rand : KEMRandom} {ss : SharedSecrets}
      (hencapsulate : encapsulate P kemShare rand = .ok (kemCT, ss))
      (htarget : target = c.genSend + 1) :
      Makes P c (.respondReKEM kemShare target rand)
        (.reKEMAck kemShare kemCT ss.combined (rekemPoint P kemShare kemCT target) target)
  | sendClose {ackCh : Nat} (hseq : ((c.sendView P).keys chanControl).seq ≠ maxUint64) :
      Makes P c (.sendClose ackCh) (.close ackCh)
  | closeAck : Makes P c .sendCloseAck .closeAck
  | sessionError {code : SessionErrorCode} : Makes P c (.sendSessionError code) (.sessionError code)

/-- Why a body on an open connection can return before its write. -/
def Call.Refusable (P : Primitives) (c : Conn) : Call → Prop
  | send ch _ _ => ((c.sendView P).keys ch).seq = maxUint64
  | respondReKEM kemShare target rand =>
    (∀ kemCT ss, encapsulate P kemShare rand ≠ .ok (kemCT, ss)) ∨ target ≠ c.genSend + 1
  | ratchetSend => ((c.sendView P).keys chanControl).seq = maxUint64
  | reKEM _ => ((c.sendView P).keys chanControl).seq = maxUint64
  | sendClose _ => ((c.sendView P).keys chanControl).seq = maxUint64
  | _ => False

/-- What a call does before its write: it is refused, or it seals the message that it makes. -/
inductive Call.Began (P : Primitives) (c : Conn) (call : Call) : Conn × Attempt → Prop
  | refused {c' : Conn} {err : Option GoError} (hc' : c' = c ∨ ∃ ch, c' = c.cacheSend P ch)
      (hwhy : c.closed = false → call.Refusable P c) :
      Began P c call (c', .refused err)
  | sealed {m : Outgoing} (hopen : c.closed = false) (hmakes : call.Makes P c m) :
      Began P c call
        ((c.cacheSend P m.channel).register m, .sealed ((c.sendView P).keys m.channel) m)

namespace Conn

variable {P : Primitives}

theorem notify_began {call : Call} {m : Outgoing} (hmakes : call.Makes P c m)
    (hregister : ∀ c : Conn, c.register m = c) : call.Began P c (c.notify P m) := by
  cases hc : c.closed with
  | true =>
    rw [notify, sendState_closed hc]
    exact .refused (.inl rfl) (by rw [hc]; exact nofun)
  | false =>
    rw [notify, sendState_eq hc]
    have h := Call.Began.sealed hc hmakes
    rwa [hregister] at h

end Conn

/-- **Every body, up to its write.** -/
theorem Call.began (P : Primitives) (c : Conn) (call : Call) : call.Began P c (call.begin P c) := by
  cases call with
  | send ch ft payload =>
    rw [Call.begin, Conn.sendLocked]
    cases hc : c.closed with
    | true =>
      rw [Conn.sendState_closed hc]
      exact .refused (.inl rfl) (by rw [hc]; exact nofun)
    | false =>
      rw [Conn.sendState_eq hc]
      dsimp only
      split
      · exact .refused (.inr ⟨ch, rfl⟩) fun _ => ‹_›
      · exact .sealed hc (.send ‹_›)
  | keyUpdate ch =>
    rw [Call.begin, Conn.keyUpdate]
    cases hc : c.closed with
    | true =>
      rw [Conn.sendState_closed hc]
      exact .refused (.inl rfl) (by rw [hc]; exact nofun)
    | false =>
      rw [Conn.sendState_eq hc]
      exact .sealed hc .keyUpdate
  | sendKeyUpdateAck ch epoch => exact Conn.notify_began .keyUpdateAck fun _ => rfl
  | sendMasterRatchetAck gen => exact Conn.notify_began .masterRatchetAck fun _ => rfl
  | respondReKEM kemShare target rand =>
    rw [Call.begin, Conn.respondReKEM]
    cases hencapsulate : encapsulate P kemShare rand with
    | error e =>
      refine .refused (.inl rfl) fun _ => .inl fun kemCT ss hok => ?_
      rw [hencapsulate] at hok
      cases hok
    | ok result =>
      obtain ⟨kemCT, ss⟩ := result
      dsimp only
      rw [thRekem_eq c.hasSuite]
      dsimp only
      split
      · rename_i hc
        exact .refused (.inl rfl) (by rw [hc]; exact nofun)
      split
      · exact .refused (.inl rfl) fun _ => .inr ‹_›
      · rename_i htarget
        exact Conn.notify_began (.respondReKEM hencapsulate (not_not.mp htarget)) fun _ => rfl
  | ratchetSend | reKEM client | sendClose ackCh =>
    simp only [Call.begin, Conn.ratchetSend, Conn.reKEM, Conn.sendClose]
    cases hc : c.closed with
    | true => exact .refused (.inl rfl) (by rw [hc]; exact nofun)
    | false =>
      rw [Conn.sendState_eq hc, if_neg (by simp)]
      dsimp only
      split
      · exact .refused (.inr ⟨chanControl, rfl⟩) fun _ => ‹_›
      · first
          | exact .sealed hc (.ratchetSend ‹_›)
          | exact .sealed hc (.reKEM ‹_›)
          | exact .sealed hc (.sendClose ‹_›)
  | sendCloseAck => exact Conn.notify_began .closeAck fun _ => rfl
  | sendSessionError code => exact Conn.notify_began .sessionError fun _ => rfl

def Outgoing.slot : Outgoing → Option PendingReKEM
  | reKEM client kemShare target =>
    some { client := client, kemShare := kemShare, targetGen := target }
  | _ => none

def Outgoing.ratchets : Outgoing → Bool
  | masterRatchet _ => true
  | reKEMAck _ _ _ _ _ => true
  | _ => false

theorem View.gen_after {P : Primitives} {m : Outgoing} (h : m.ratchets = false) (v : View) :
    (v.after P m).gen = v.gen := by
  cases m with
  | masterRatchet target => cases h
  | reKEMAck kemShare kemCT newSS th target => cases h
  | _ => rfl

namespace Conn

variable {P : Primitives}

@[simp]
theorem sendView_register (c : Conn) (m : Outgoing) : (c.register m).sendView P = c.sendView P := by
  cases m <;> rfl

@[simp]
theorem recvView_register (c : Conn) (m : Outgoing) : (c.register m).recvView P = c.recvView P := by
  cases m <;> rfl

@[simp]
theorem recvView_cacheSend (c : Conn) (ch : ChannelID) :
    (c.cacheSend P ch).recvView P = c.recvView P := rfl

@[simp]
theorem sendKeys_register (c : Conn) (m : Outgoing) : (c.register m).sendKeys = c.sendKeys := by
  cases m <;> rfl

@[simp]
theorem closed_register (c : Conn) (m : Outgoing) : (c.register m).closed = c.closed := by
  cases m <;> rfl

@[simp]
theorem pendingReKEM_register (c : Conn) (m : Outgoing) :
    (c.register m).pendingReKEM = c.pendingReKEM := by
  cases m <;> rfl

theorem sendKeys_cacheSend_self (c : Conn) (ch : ChannelID) :
    (c.cacheSend P ch).sendKeys ch = some ((c.sendView P).keys ch) :=
  update_self ch _ _

theorem sendView_bumpSend {ch : ChannelID} {st : EpochKeys}
    (hst : c.sendKeys ch = some st) : (c.bumpSend ch).sendView P = (c.sendView P).bump ch := by
  simp only [sendView, bumpSend, View.bump, hst, Option.map_some, getD_update_some,
    Option.getD_some]

theorem sendView_advanceSend {ch : ChannelID} {st : EpochKeys}
    (hst : c.sendKeys ch = some st) : (c.advanceSend P ch).sendView P
      = { c.sendView P with
          keys := update (c.sendView P).keys ch
            (trafficKeys P c.masterSend c.sendDir (st.epoch + 1) ch) } := by
  simp only [advanceSend, hst, EpochKeys.advance_eq c.hasSuite]
  simp only [sendView, getD_update_some]

theorem sendView_adoptSendRoot (c : Conn) (root : Bytes) (gen : UInt64) :
    (c.adoptSendRoot (.ok root) gen).sendView P = View.fresh P c.sendDir root gen := rfl

/-- **A written message moves the sender's view as it will move the receiver's.** -/
theorem sendView_afterWrite {m : Outgoing} {st : EpochKeys}
    (hst : c.sendKeys m.channel = some st) :
    (c.afterWrite P m true).sendView P = (c.sendView P).after P m := by
  cases m with
  | keyUpdate ch announced =>
    have hbumped : (c.bumpSend ch).sendKeys ch = some st.next := by
      change c.sendKeys ch = some st at hst
      simp only [bumpSend, update_self, hst, Option.map_some]
    change c.sendKeys ch = some st at hst
    rw [afterWrite, sendView_advanceSend hbumped, sendView_bumpSend hst]
    simp only [View.bump, View.after, update_idem]
    simp only [sendView, hst, Option.getD_some, bumpSend, EpochKeys.next]
  | masterRatchet target =>
    rw [afterWrite, ratchetMasterTier1_eq c.hasSuite, sendView_adoptSendRoot]
    rfl
  | reKEMAck kemShare kemCT newSS th target =>
    rw [afterWrite, ratchetMasterTier2_eq c.hasSuite, sendView_adoptSendRoot]
    rfl
  | _ => exact sendView_bumpSend hst

theorem sendView_afterWrite_unwritten (c : Conn) (m : Outgoing) :
    (c.afterWrite P m false).sendView P = c.sendView P := by
  cases m <;> rfl

theorem advanceSend_eq (c : Conn) (ch : ChannelID) :
    ∃ keys, c.advanceSend P ch = { c with sendKeys := keys } := by
  unfold advanceSend
  split
  · exact ⟨c.sendKeys, rfl⟩
  · split
    · exact ⟨c.sendKeys, rfl⟩
    · exact ⟨_, rfl⟩

/-- What a write changes: what the connection sends with, and the pending re-KEM. -/
theorem afterWrite_eq (c : Conn) (m : Outgoing) : ∃ root gen keys, c.afterWrite P m true
      = { c with
          masterSend := root
          genSend := gen
          sendKeys := keys
          pendingReKEM := m.slot.or c.pendingReKEM } := by
  cases m with
  | keyUpdate ch announced =>
    obtain ⟨keys, hkeys⟩ := advanceSend_eq (P := P) (c.bumpSend ch) ch
    exact ⟨c.masterSend, c.genSend, keys, hkeys⟩
  | masterRatchet target =>
    rw [afterWrite, ratchetMasterTier1_eq c.hasSuite]
    exact ⟨_, _, _, rfl⟩
  | reKEMAck kemShare kemCT newSS th target =>
    rw [afterWrite, ratchetMasterTier2_eq c.hasSuite]
    exact ⟨_, _, _, rfl⟩
  | _ => exact ⟨_, _, _, rfl⟩

@[simp]
theorem recvView_afterWrite (c : Conn) (m : Outgoing) (written : Bool) :
    (c.afterWrite P m written).recvView P = c.recvView P := by
  cases written with
  | false => cases m <;> rfl
  | true =>
    obtain ⟨root, gen, keys, heq⟩ := afterWrite_eq (P := P) c m
    rw [heq]
    rfl

theorem pendingReKEM_afterWrite (c : Conn) (m : Outgoing) (written : Bool) :
    (c.afterWrite P m written).pendingReKEM
      = if written then m.slot.or c.pendingReKEM else c.pendingReKEM := by
  cases written with
  | false => cases m <;> rfl
  | true =>
    obtain ⟨root, gen, keys, heq⟩ := afterWrite_eq (P := P) c m
    rw [heq]
    rfl

@[simp]
theorem closed_afterWrite (c : Conn) (m : Outgoing) (written : Bool) :
    (c.afterWrite P m written).closed = c.closed := by
  cases written with
  | false => cases m <;> rfl
  | true =>
    obtain ⟨root, gen, keys, heq⟩ := afterWrite_eq (P := P) c m
    rw [heq]

end Conn

end Npamp
