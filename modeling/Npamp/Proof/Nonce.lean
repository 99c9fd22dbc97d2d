import Npamp.Plain
import Npamp.Proof.Solo

/-!
# Sequence numbers under one key

A channel is spoiled if a write on it failed since the current root was adopted. As long as none is,
no two frames share key and sequence number.
-/

namespace Npamp

open List

def Call.channel : Call → ChannelID
  | send ch _ _ => ch
  | keyUpdate ch => ch
  | sendKeyUpdateAck ch _ => ch
  | _ => chanControl

/-- The call does not take a counter past its end: `KeyUpdate` the epoch, a body without a sequence
guard of its own the sequence number. -/
def Call.fits (st : EpochKeys) : Call → Bool
  | keyUpdate _ => st.epoch ≠ maxUint64
  | sendKeyUpdateAck _ _ => st.seq ≠ maxUint64
  | sendMasterRatchetAck _ => st.seq ≠ maxUint64
  | sendCloseAck => st.seq ≠ maxUint64
  | sendSessionError _ => st.seq ≠ maxUint64
  | _ => true

/-- A run of one endpoint with the roots it has sent under, oldest first, and the channels on which
a write has failed since the last of them was adopted. -/
structure Sealing where
  ep : Endpoint
  roots : List Bytes
  spoiled : List ChannelID

namespace Sealing

def start (master : Bytes) (sendDir recvDir : Direction) : Sealing where
  ep := newEndpoint (newConn master sendDir recvDir)
  roots := [master]
  spoiled := []

def adopts (S : Sealing) : Input → Bool
  | .act .finish _ => S.ep.hold.any fun h => h.written && h.msg.ratchets
  | _ => false

def record (S : Sealing) (input : Input) (e : Endpoint) : Sealing :=
  if S.adopts input then
    { ep := e, roots := S.roots ++ [e.conn.masterSend], spoiled := [] }
  else
    { ep := e
      roots := S.roots
      spoiled := S.spoiled ++
        ((e.handed.drop S.ep.handed.length).filter (·.result ≠ .ok)).map (·.msg.channel) }

def step (P : Primitives) (S : Sealing) (input : Input) : Option Sealing :=
  match S.ep.step P input with
  | none => none
  | some e => some (S.record input e)

/-- No body seals on a spoiled channel or takes a counter past its end. -/
def careful (P : Primitives) (S : Sealing) : Input → Bool
  | .act ev _ =>
    match S.ep.request ev with
    | some (call, _) =>
      call.channel ∉ S.spoiled && call.fits ((S.ep.conn.sendView P).keys call.channel)
    | none => true
  | .recv _ => true

end Sealing

/-- What is assumed of the key schedule on the roots of a run: they are distinct, and distinct
roots, epochs and channels have distinct traffic keys. -/
structure DistinctKeys (P : Primitives) (dir : Direction) (roots : List Bytes) : Prop where
  nodup : roots.Nodup
  keys : ∀ root ∈ roots, ∀ root' ∈ roots, ∀ epoch epoch' ch ch',
    (trafficKeys P root dir epoch ch).key = (trafficKeys P root' dir epoch' ch').key →
      root = root' ∧ epoch = epoch' ∧ ch = ch'

variable {P : Primitives}

theorem DistinctKeys.of_append {dir : Direction} {roots more : List Bytes}
    (h : DistinctKeys P dir (roots ++ more)) : DistinctKeys P dir roots where
  nodup := h.nodup.of_append_left
  keys root hroot root' hroot' :=
    h.keys root (mem_append_left more hroot) root' (mem_append_left more hroot')

/-- The order in which one direction of a channel uses its pairs of epoch and sequence number. -/
def EpochKeys.before (a b : EpochKeys) : Prop :=
  a.epoch < b.epoch ∨ (a.epoch = b.epoch ∧ a.seq < b.seq)

theorem EpochKeys.before_trans {a b c : EpochKeys} (hab : a.before b) (hbc : b.before c) :
    a.before c := by
  rcases hab with hab | ⟨hab, hseq⟩ <;> rcases hbc with hbc | ⟨hbc, hseq'⟩
  · exact .inl (UInt64.lt_trans hab hbc)
  · exact .inl (hbc ▸ hab)
  · exact .inl (hab ▸ hbc)
  · exact .inr ⟨hab.trans hbc, UInt64.lt_trans hseq hseq'⟩

/-- The counter a message moves has not reached its end. -/
def Outgoing.Advances (st : EpochKeys) : Outgoing → Prop
  | keyUpdate _ _ => st.epoch ≠ maxUint64
  | masterRatchet _ => True
  | reKEMAck _ _ _ _ _ => True
  | _ => st.seq ≠ maxUint64

theorem Call.Makes.channel_eq {c : Conn} {call : Call} {m : Outgoing} (h : call.Makes P c m) :
    m.channel = call.channel := by
  cases h <;> rfl

theorem Call.Makes.advances {c : Conn} {call : Call} {m : Outgoing} (h : call.Makes P c m)
    (hfits : call.fits ((c.sendView P).keys call.channel) = true) :
    m.Advances ((c.sendView P).keys m.channel) := by
  rw [h.channel_eq]
  cases h with
  | send hseq => exact hseq
  | reKEM hseq => exact hseq
  | sendClose hseq => exact hseq
  | ratchetSend hseq => trivial
  | respondReKEM hencapsulate htarget => trivial
  | _ => simpa [Call.fits, Outgoing.Advances] using hfits

namespace View

def Derived (P : Primitives) (v : View) : Prop :=
  ∀ ch, (v.keys ch).key = (trafficKeys P v.root v.dir (v.keys ch).epoch ch).key

theorem Derived.after {v : View} (h : v.Derived P) (m : Outgoing) : (v.after P m).Derived P := by
  have hbump : ∀ ch, (v.bump ch).Derived P := by
    intro ch other
    by_cases hother : other = ch
    · subst hother
      simpa [bump, EpochKeys.next] using h other
    · simpa [bump, hother] using h other
  cases m with
  | keyUpdate ch announced =>
    intro other
    by_cases hother : other = ch
    · subst hother
      simp [View.after, trafficKeys]
    · simpa [View.after, hother] using h other
  | masterRatchet target => exact fun _ => rfl
  | reKEMAck kemShare kemCT newSS th target => exact fun _ => rfl
  | _ => exact hbump _

/-- A message that does not ratchet moves the keys of its own channel forward and no others. -/
theorem after_keys {v : View} {m : Outgoing} (hratchets : m.ratchets = false)
    (hadvances : m.Advances (v.keys m.channel)) (ch : ChannelID) :
    (ch ≠ m.channel ∧ (v.after P m).keys ch = v.keys ch)
      ∨ (ch = m.channel ∧ (v.keys ch).before ((v.after P m).keys ch)) := by
  by_cases hch : ch = m.channel
  · subst hch
    right
    refine ⟨rfl, ?_⟩
    cases m with
    | masterRatchet target => cases hratchets
    | reKEMAck kemShare kemCT newSS th target => cases hratchets
    | keyUpdate ch announced =>
      left
      simpa [View.after, trafficKeys, Outgoing.channel] using uint64_lt_succ hadvances
    | _ =>
      right
      simpa [View.after, bump, EpochKeys.next, Outgoing.channel] using uint64_lt_succ hadvances
  · left
    refine ⟨hch, ?_⟩
    cases m with
    | masterRatchet target => cases hratchets
    | reKEMAck kemShare kemCT newSS th target => cases hratchets
    | keyUpdate ch' announced => exact Function.update_of_ne hch _ _
    | _ => exact Function.update_of_ne hch _ _

theorem root_after {v : View} {m : Outgoing} (hratchets : m.ratchets = false) :
    (v.after P m).root = v.root := by
  cases m with
  | masterRatchet target => cases hratchets
  | reKEMAck kemShare kemCT newSS th target => cases hratchets
  | _ => rfl

theorem dir_after (v : View) (m : Outgoing) : (v.after P m).dir = v.dir := by
  cases m <;> rfl

end View

/-- The two were not sealed under one key and nonce. -/
def Handed.Apart (a b : Handed) : Prop := ¬(a.st.key = b.st.key ∧ a.st.seq = b.st.seq)

instance : Std.Symm Handed.Apart where
  symm _ _ h := fun ⟨hkey, hseq⟩ => h ⟨hkey.symm, hseq.symm⟩

namespace Sealing

variable {dir : Direction} {S : Sealing}

/-- What holds until the connection is zeroized. A frame handed over under the current root lies on
a spoiled channel, or before the channel's present key state, or is the one just written. -/
structure Live (P : Primitives) (dir : Direction) (S : Sealing) : Prop where
  sendDir : S.ep.conn.sendDir = dir
  root : S.ep.conn.masterSend ∈ S.roots
  derived : (S.ep.conn.sendView P).Derived P
  held : ∀ h, S.ep.hold = some h →
    (∃ st, S.ep.conn.sendKeys h.msg.channel = some st)
      ∧ h.msg.Advances ((S.ep.conn.sendView P).keys h.msg.channel)
  below : ∀ a ∈ S.ep.handed,
    a.st.key = (trafficKeys P S.ep.conn.masterSend dir a.st.epoch a.msg.channel).key →
      a.msg.channel ∈ S.spoiled
        ∨ a.st.before ((S.ep.conn.sendView P).keys a.msg.channel)
        ∨ ∃ h, S.ep.hold = some h ∧ h.written = true ∧ h.msg.channel = a.msg.channel
            ∧ a.st = (S.ep.conn.sendView P).keys a.msg.channel

/-- Every frame was sealed under a key of a root sent under, and no two share key and sequence
number. -/
structure Inv (P : Primitives) (dir : Direction) (S : Sealing) : Prop where
  stamped : ∀ a ∈ S.ep.handed, ∃ root ∈ S.roots,
    a.st.key = (trafficKeys P root dir a.st.epoch a.msg.channel).key
  distinct : S.ep.handed.Pairwise Handed.Apart
  live : S.ep.conn.closed = false → S.Live P dir

variable {e : Endpoint} {input : Input} {m : Outgoing} {answer : WriteResult} {e₁ : Endpoint}
  {ev : Event} {call : Call} {held : Hold}

theorem Live.quiet (h : S.Live P dir) (hhold : e.hold = S.ep.hold)
    (hhanded : e.handed = S.ep.handed) (hview : e.conn.sendView P = S.ep.conn.sendView P)
    (hkeys : S.ep.hold = none ∨ e.conn.sendKeys = S.ep.conn.sendKeys) :
    ({ S with ep := e } : Sealing).Live P dir := by
  have hroot : e.conn.masterSend = S.ep.conn.masterSend := congrArg View.root hview
  refine ⟨?_, ?_, ?_, ?_, ?_⟩
  · exact (congrArg View.dir hview).trans h.sendDir
  · exact hroot ▸ h.root
  · exact hview ▸ h.derived
  · intro held hheld
    change e.hold = some held at hheld
    rw [hhold] at hheld
    rcases hkeys with hnone | hkeys
    · rw [hnone] at hheld
      cases hheld
    · change (∃ st, e.conn.sendKeys _ = some st) ∧ held.msg.Advances ((e.conn.sendView P).keys _)
      rw [hkeys, hview]
      exact h.held held hheld
  · intro a ha hkey
    change a ∈ e.handed at ha
    change _ = (trafficKeys P e.conn.masterSend dir _ _).key at hkey
    rw [hhanded] at ha
    rw [hroot] at hkey
    have hbelow := h.below a ha hkey
    rwa [← hhold, ← hview] at hbelow

theorem record_of_handed (hadopts : S.adopts input = false) (hhanded : e.handed = S.ep.handed) :
    S.record input e = { S with ep := e } := by
  simp only [record, hadopts, hhanded, drop_length, filter_nil, map_nil,
    append_nil]
  rfl

theorem Inv.quiet (h : S.Inv P dir) (hadopts : S.adopts input = false) (hhold : e.hold = S.ep.hold)
    (hhanded : e.handed = S.ep.handed) (hconn : e.conn.closed = false → S.ep.conn.closed = false
      ∧ e.conn.sendView P = S.ep.conn.sendView P
      ∧ (S.ep.hold = none ∨ e.conn.sendKeys = S.ep.conn.sendKeys)) :
    (S.record input e).Inv P dir := by
  rw [record_of_handed hadopts hhanded]
  refine ⟨?_, ?_, ?_⟩
  · intro a ha
    exact h.stamped a (hhanded ▸ ha)
  · exact hhanded ▸ h.distinct
  · intro hclosed
    obtain ⟨hopen, hview, hkeys⟩ := hconn hclosed
    exact (h.live hopen).quiet hhold hhanded hview hkeys

def outcome (P : Primitives) (e : Endpoint) (m : Outgoing) (answer : WriteResult) : WriteResult :=
  e.writeWire (m.wire P ((e.conn.sendView P).keys m.channel)) answer

theorem mem_handed_sealing {a : Handed} (ha : a ∈ (e.sealing P m answer).handed) :
    a ∈ e.handed ∨ outcome P e m answer ≠ .refused
      ∧ a = ⟨(e.conn.sendView P).keys m.channel, m, outcome P e m answer⟩ := by
  simp only [Endpoint.sealing] at ha
  split at ha
  · exact .inl ha
  rename_i hasked
  rcases mem_append.mp ha with hold | hnew
  · exact .inl hold
  · exact .inr ⟨hasked, mem_singleton.mp hnew⟩

theorem adopts_of_requests (h : S.ep.Requests ev call e₁) : S.adopts (.act ev answer) = false := by
  cases h <;> rfl

theorem record_sealing (hrequest : S.ep.Requests ev call e₁) (m : Outgoing) (answer : WriteResult) :
    ∃ spoiled, S.record (.act ev answer) (e₁.sealing P m answer)
        = { ep := e₁.sealing P m answer, roots := S.roots, spoiled := S.spoiled ++ spoiled }
      ∧ (outcome P e₁ m answer ≠ .refused → outcome P e₁ m answer ≠ .ok → m.channel ∈ spoiled) := by
  have hhanded : e₁.handed = S.ep.handed := by
    obtain ⟨_, _, _, _, rfl⟩ := hrequest.eq
    rfl
  refine ⟨_, by rw [record, adopts_of_requests hrequest]; rfl, ?_⟩
  intro hasked hfailed
  have hnew : (e₁.sealing P m answer).handed
      = S.ep.handed ++ [⟨(e₁.conn.sendView P).keys m.channel, m, outcome P e₁ m answer⟩] := by
    rw [← hhanded]
    exact Endpoint.handed_sealing P e₁ m hasked
  rw [hnew, drop_left, filter_cons_of_pos (by simpa using hfailed)]
  exact mem_cons_self

/-- **Sealing keeps the order of the key states**: the new frame is the one just written, or its
channel is spoiled. -/
theorem Live.sealing (h : S.Live P dir) (hhold : S.ep.hold = none) (hconn : e₁.conn = S.ep.conn)
    (hhanded : e₁.handed = S.ep.handed)
    (hadvances : m.Advances ((S.ep.conn.sendView P).keys m.channel)) {spoiled : List ChannelID}
    (hspoiled : outcome P e₁ m answer ≠ .refused → outcome P e₁ m answer ≠ .ok →
      m.channel ∈ spoiled) :
    ({ ep := e₁.sealing P m answer, roots := S.roots
       spoiled := S.spoiled ++ spoiled } : Sealing).Live P dir := by
  have hview : (e₁.sealing P m answer).conn.sendView P = S.ep.conn.sendView P := by
    rw [← hconn]
    simp only [Endpoint.sealing, Conn.sendView_register, Conn.sendView_cacheSend]
  have hroot : (e₁.sealing P m answer).conn.masterSend = S.ep.conn.masterSend :=
    congrArg View.root hview
  refine ⟨(congrArg View.dir hview).trans h.sendDir, hroot ▸ h.root, hview ▸ h.derived, ?_, ?_⟩
  · intro held hheld
    cases hheld
    refine ⟨⟨(e₁.conn.sendView P).keys m.channel, ?_⟩, hview ▸ hadvances⟩
    simp only [Endpoint.sealing, Conn.sendKeys_register]
    exact Conn.sendKeys_cacheSend_self e₁.conn m.channel
  · intro a ha hkey
    change _ = (trafficKeys P (e₁.sealing P m answer).conn.masterSend dir _ _).key at hkey
    change _ ∈ S.spoiled ++ spoiled ∨ a.st.before (((e₁.sealing P m answer).conn.sendView P).keys _)
      ∨ ∃ held, (e₁.sealing P m answer).hold = some held ∧ _ ∧ _
        ∧ a.st = ((e₁.sealing P m answer).conn.sendView P).keys _
    rw [hroot] at hkey
    rw [hview]
    rcases mem_handed_sealing ha with hold | ⟨hasked, rfl⟩
    · rw [hhanded] at hold
      rcases h.below a hold hkey with hspoiled | hbefore | ⟨held, hheld, -⟩
      · exact .inl (mem_append_left _ hspoiled)
      · exact .inr (.inl hbefore)
      · rw [hhold] at hheld
        cases hheld
    · by_cases hok : outcome P e₁ m answer = .ok
      · obtain ⟨held, hheld, hmsg, hwritten⟩ := Endpoint.exists_hold_sealing P e₁ m answer
        exact .inr (.inr ⟨held, hheld, hwritten.mpr hok, congrArg Outgoing.channel hmsg,
          by rw [hconn]⟩)
      · exact .inl (mem_append_right _ (hspoiled hasked hok))

/-- **A new frame clashes with none before it**, if its channel is not spoiled. -/
theorem Inv.fresh (h : S.Inv P dir) (hkeys : DistinctKeys P dir S.roots)
    (hopen : S.ep.conn.closed = false) (hhold : S.ep.hold = none) (hclean : m.channel ∉ S.spoiled)
    {a : Handed} (ha : a ∈ S.ep.handed) : ¬(a.st.key = ((S.ep.conn.sendView P).keys m.channel).key
      ∧ a.st.seq = ((S.ep.conn.sendView P).keys m.channel).seq) := by
  rintro ⟨hkey, hseq⟩
  have hlive := h.live hopen
  obtain ⟨root, hroot, hstamp⟩ := h.stamped a ha
  have hderived := hlive.derived m.channel
  change _ = (trafficKeys P S.ep.conn.masterSend S.ep.conn.sendDir _ _).key at hderived
  rw [hlive.sendDir] at hderived
  obtain ⟨rfl, hepoch, hchannel⟩ := hkeys.keys root hroot _ hlive.root _ _ _ _
    (hstamp.symm.trans (hkey.trans hderived))
  rcases hlive.below a ha hstamp with hspoiled | hbefore | ⟨held, hheld, -⟩
  · exact hclean (hchannel ▸ hspoiled)
  · rw [hchannel] at hbefore
    rcases hbefore with hlt | ⟨-, hlt⟩
    · rw [hepoch] at hlt
      exact UInt64.lt_irrefl _ hlt
    · rw [hseq] at hlt
      exact UInt64.lt_irrefl _ hlt
  · rw [hhold] at hheld
    cases hheld

/-- The step that hands a sealed message over: its nonce is ahead of all that the key has sealed. -/
theorem Inv.sealing (h : S.Inv P dir) (hkeys : DistinctKeys P dir S.roots)
    (hhold : S.ep.hold = none) (hrequest : S.ep.Requests ev call e₁)
    (hopen : S.ep.conn.closed = false) (hmakes : call.Makes P S.ep.conn m)
    (hcareful : S.careful P (.act ev answer) = true) :
    (S.record (.act ev answer) (e₁.sealing P m answer)).Inv P dir := by
  simp only [careful, hrequest.request, Bool.and_eq_true, decide_eq_true_eq] at hcareful
  obtain ⟨hclean, hfits⟩ := hcareful
  rw [← hmakes.channel_eq] at hclean
  obtain ⟨spoiled, hrecord, hspoiled⟩ := record_sealing (P := P) hrequest m answer
  obtain ⟨hconn, hhanded⟩ : e₁.conn = S.ep.conn ∧ e₁.handed = S.ep.handed := by
    obtain ⟨_, _, _, _, rfl⟩ := hrequest.eq
    exact ⟨rfl, rfl⟩
  rw [hrecord]
  refine ⟨?_, ?_, ?_⟩
  · intro a ha
    rcases mem_handed_sealing ha with hold | ⟨-, rfl⟩
    · exact h.stamped a (hhanded ▸ hold)
    have hlive := h.live hopen
    refine ⟨_, hlive.root, ?_⟩
    rw [hconn, ← hlive.sendDir]
    exact hlive.derived m.channel
  · simp only [Endpoint.sealing]
    rw [hhanded]
    split
    · exact h.distinct
    refine pairwise_append.mpr ⟨h.distinct, pairwise_singleton _ _, ?_⟩
    intro a ha b hb
    obtain rfl := mem_singleton.mp hb
    rw [hconn]
    exact h.fresh hkeys hopen hhold hclean ha
  · intro _
    exact (h.live hopen).sealing hhold hconn hhanded (hmakes.advances hfits) hspoiled

theorem Live.written (h : S.Live P dir) (hhold : S.ep.hold = some held)
    (hwritten : held.written = true) (hratchets : held.msg.ratchets = false) :
    ({ S with ep := S.ep.finish P held } : Sealing).Live P dir := by
  obtain ⟨⟨st, hst⟩, hadvances⟩ := h.held held hhold
  have hview : (S.ep.finish P held).conn.sendView P = (S.ep.conn.sendView P).after P held.msg := by
    simp only [Endpoint.finish, hwritten]
    exact Conn.sendView_afterWrite hst
  have hroot : (S.ep.finish P held).conn.masterSend = S.ep.conn.masterSend :=
    (congrArg View.root hview).trans (View.root_after hratchets)
  refine ⟨?_, hroot ▸ h.root, hview ▸ h.derived.after held.msg, nofun, ?_⟩
  · exact ((congrArg View.dir hview).trans (View.dir_after _ _)).trans h.sendDir
  intro a ha hkey
  change _ = (trafficKeys P (S.ep.finish P held).conn.masterSend dir _ _).key at hkey
  rw [hroot] at hkey
  change _ ∨ a.st.before (((S.ep.finish P held).conn.sendView P).keys a.msg.channel) ∨ _
  rw [hview]
  have hmoved := View.after_keys (P := P) hratchets hadvances a.msg.channel
  rcases h.below a ha hkey with hspoiled | hbefore | ⟨held', hheld', -, hchannel, hcurrent⟩
  · exact .inl hspoiled
  · rcases hmoved with ⟨-, hsame⟩ | ⟨-, hlater⟩
    · exact .inr (.inl (hsame ▸ hbefore))
    · exact .inr (.inl (EpochKeys.before_trans hbefore hlater))
  · obtain rfl := Option.some.inj (hhold.symm.trans hheld')
    rcases hmoved with ⟨hne, -⟩ | ⟨-, hlater⟩
    · exact absurd hchannel.symm hne
    · exact .inr (.inl (hcurrent ▸ hlater))

theorem Live.unwritten (h : S.Live P dir) (hhold : S.ep.hold = some held)
    (hwritten : held.written = false) :
    ({ S with ep := S.ep.finish P held } : Sealing).Live P dir := by
  have hview : (S.ep.finish P held).conn.sendView P = S.ep.conn.sendView P := by
    simp only [Endpoint.finish, hwritten]
    exact Conn.sendView_afterWrite_unwritten S.ep.conn held.msg
  have hroot : (S.ep.finish P held).conn.masterSend = S.ep.conn.masterSend :=
    congrArg View.root hview
  refine ⟨(congrArg View.dir hview).trans h.sendDir, hroot ▸ h.root, hview ▸ h.derived, nofun, ?_⟩
  intro a ha hkey
  change _ = (trafficKeys P (S.ep.finish P held).conn.masterSend dir _ _).key at hkey
  rw [hroot] at hkey
  change _ ∨ a.st.before (((S.ep.finish P held).conn.sendView P).keys a.msg.channel) ∨ _
  rw [hview]
  rcases h.below a ha hkey with hspoiled | hbefore | ⟨held', hheld', hwritten', -⟩
  · exact .inl hspoiled
  · exact .inr (.inl hbefore)
  · obtain rfl := Option.some.inj (hhold.symm.trans hheld')
    rw [hwritten] at hwritten'
    cases hwritten'

theorem Inv.adopted (h : S.Inv P dir) (hopen : S.ep.conn.closed = false)
    (hhold : S.ep.hold = some held) (hwritten : held.written = true)
    (hkeys : DistinctKeys P dir (S.roots ++ [(S.ep.finish P held).conn.masterSend])) :
    ({ ep := S.ep.finish P held
       roots := S.roots ++ [(S.ep.finish P held).conn.masterSend]
       spoiled := [] } : Sealing).Live P dir := by
  have hlive := h.live hopen
  obtain ⟨⟨st, hst⟩, -⟩ := hlive.held held hhold
  have hview : (S.ep.finish P held).conn.sendView P = (S.ep.conn.sendView P).after P held.msg := by
    simp only [Endpoint.finish, hwritten]
    exact Conn.sendView_afterWrite hst
  have hlast : (S.ep.finish P held).conn.masterSend
      ∈ S.roots ++ [(S.ep.finish P held).conn.masterSend] :=
    mem_append_right _ (mem_singleton_self _)
  refine ⟨?_, hlast, hview ▸ hlive.derived.after held.msg, nofun, ?_⟩
  · exact ((congrArg View.dir hview).trans (View.dir_after _ _)).trans hlive.sendDir
  intro a ha hkey
  obtain ⟨root, hroot, hstamp⟩ := h.stamped a ha
  obtain ⟨hsame, -⟩ := hkeys.keys root (mem_append_left _ hroot) _ hlast _ _ _ _
    (hstamp.symm.trans hkey)
  have hnew : (S.ep.finish P held).conn.masterSend ∉ S.roots :=
    disjoint_singleton.mp (disjoint_of_nodup_append hkeys.nodup)
  exact absurd (hsame ▸ hroot) hnew

theorem Inv.finish (h : S.Inv P dir) (hhold : S.ep.hold = some held)
    (hkeys : DistinctKeys P dir (S.record (.act .finish answer) (S.ep.finish P held)).roots) :
    (S.record (.act .finish answer) (S.ep.finish P held)).Inv P dir := by
  have hclosed : (S.ep.finish P held).conn.closed = S.ep.conn.closed :=
    Conn.closed_afterWrite S.ep.conn held.msg held.written
  cases hadopts : S.adopts (.act .finish answer) with
  | true =>
    have hwritten : held.written = true := by
      simp only [adopts, hhold, Option.any_some, Bool.and_eq_true] at hadopts
      exact hadopts.1
    simp only [record, hadopts, if_true] at hkeys ⊢
    refine ⟨?_, h.distinct, fun hopen => ?_⟩
    · intro a ha
      obtain ⟨root, hroot, hstamp⟩ := h.stamped a ha
      exact ⟨root, mem_append_left _ hroot, hstamp⟩
    · exact h.adopted (hclosed ▸ hopen) hhold hwritten hkeys
  | false =>
    rw [record_of_handed (e := S.ep.finish P held) hadopts rfl]
    refine ⟨h.stamped, h.distinct, fun hopen => ?_⟩
    have hlive := h.live (hclosed ▸ hopen)
    cases hwritten : held.written with
    | true =>
      simp only [adopts, hhold, Option.any_some, hwritten, Bool.true_and] at hadopts
      exact hlive.written hhold hwritten hadopts
    | false => exact hlive.unwritten hhold hwritten

theorem roots_record (input : Input) (e : Endpoint) :
    ∃ more, (S.record input e).roots = S.roots ++ more := by
  unfold record
  split
  · exact ⟨_, rfl⟩
  · exact ⟨[], (append_nil _).symm⟩

theorem Inv.act (h : S.Inv P dir) (hdoes : S.ep.Does P answer ev e)
    (hkeys : DistinctKeys P dir (S.record (.act ev answer) e).roots)
    (hcareful : S.careful P (.act ev answer) = true) : (S.record (.act ev answer) e).Inv P dir := by
  obtain ⟨more, hmore⟩ := S.roots_record (.act ev answer) e
  have hbefore : DistinctKeys P dir S.roots := (hmore ▸ hkeys).of_append
  cases hdoes with
  | refused hhold hrequest hc hwhy =>
    have hadopts : S.adopts (.act ev answer) = false := adopts_of_requests hrequest
    obtain ⟨_, _, _, _, rfl⟩ := hrequest.eq
    refine h.quiet hadopts rfl rfl fun hopen => ?_
    rcases hc with rfl | ⟨ch, rfl⟩
    · exact ⟨hopen, rfl, .inl hhold⟩
    · exact ⟨hopen, Conn.sendView_cacheSend _ ch, .inl hhold⟩
  | sealed hhold hrequest hopen hmakes =>
    exact h.sealing hbefore hhold hrequest hopen hmakes hcareful
  | finished hhold => exact h.finish hhold hkeys
  | zeroize hraw hhold => exact h.quiet rfl rfl rfl nofun
  | _ => exact h.quiet rfl rfl rfl fun hopen => ⟨hopen, rfl, .inr rfl⟩

/-- What one input preserves. -/
theorem Inv.step (h : DistinctKeys P dir S.roots → S.Inv P dir) {S' : Sealing}
    (hcareful : S.careful P input = true) (hstep : S.step P input = some S')
    (hkeys : DistinctKeys P dir S'.roots) : S'.Inv P dir := by
  rw [Sealing.step] at hstep
  split at hstep
  · cases hstep
  rename_i e he
  cases hstep
  obtain ⟨more, hmore⟩ := S.roots_record input e
  have hinv := h (hmore ▸ hkeys).of_append
  cases input with
  | act ev answer => exact hinv.act (Endpoint.act_does he) hkeys hcareful
  | recv wire =>
    obtain ⟨-, -, -, hhold, -, hhanded⟩ := Endpoint.recv_frame he
    obtain ⟨hview, hsend, hclosed⟩ := Endpoint.sendView_of_recv he
    exact hinv.quiet rfl hhold hhanded fun hopen => ⟨hclosed ▸ hopen, hview, .inr hsend⟩

theorem inv_start (master : Bytes) (sendDir recvDir : Direction) :
    (start master sendDir recvDir).Inv P sendDir where
  stamped := nofun
  distinct := Pairwise.nil
  live _ := {
    sendDir := rfl
    root := mem_singleton_self master
    derived := fun _ => rfl
    held := nofun
    below := nofun }

end Sealing

def Handed.aad (a : Handed) : Bytes := recordAAD a.st.seq a.msg.channel a.msg.type a.msg.plaintext

/-- **No nonce is used for two plaintexts**, in any run of one endpoint in which nothing is sealed
on a channel behind a failed write and no counter wraps. -/
theorem Sealing.nonce_seals_one_plaintext {master : Bytes} {sendDir recvDir : Direction} {S : Sealing}
    (hreach : Run.Reaches (Sealing.step P) (fun S input => S.careful P input = true)
      (Sealing.start master sendDir recvDir) S) (hkeys : DistinctKeys P sendDir S.roots) :
    ∀ a ∈ S.ep.handed, ∀ b ∈ S.ep.handed, a.st.key = b.st.key → a.st.seq = b.st.seq →
      a.aad = b.aad ∧ a.msg.plaintext = b.msg.plaintext := by
  have hinv : DistinctKeys P sendDir S.roots → S.Inv P sendDir :=
    hreach.invariant (fun _ => Sealing.inv_start master sendDir recvDir)
      fun S input S' ih hcareful hstep => Sealing.Inv.step ih hcareful hstep
  intro a ha b hb hkey hseq
  by_cases hab : a = b
  · subst hab
    exact ⟨rfl, rfl⟩
  · exact absurd ⟨hkey, hseq⟩ ((hinv hkeys).distinct.forall ha hb hab)

section Context

variable {master s root root' : Bytes} {dir dir' : Direction} {epoch epoch' : UInt64}
  {suite suite' : AEADID} {ch ch' : ChannelID} {p p' : Profile}

theorem context_inj (h : dir.octet :: (putUint64 epoch ++ putUint16 suite ++ putUint16 ch)
      = dir'.octet :: (putUint64 epoch' ++ putUint16 suite' ++ putUint16 ch')) :
    dir = dir' ∧ epoch = epoch' ∧ suite = suite' ∧ ch = ch' := by
  obtain ⟨hdir, h⟩ := cons.inj h
  obtain ⟨h, hch⟩ := append_inj' h (by simp)
  obtain ⟨hepoch, hsuite⟩ := append_inj' h (by simp)
  have hdir : dir = dir' := by revert hdir; cases dir <;> cases dir' <;> decide
  have hepoch := congrArg uint64 hepoch
  have hsuite := congrArg uint16 hsuite
  have hch := congrArg uint16 hch
  simp only [uint64_putUint64, uint16_putUint16] at hepoch hsuite hch
  exact ⟨hdir, hepoch, hsuite, hch⟩

/-- **Traffic secrets are separate**: below one master secret each belongs to one direction, epoch,
suite and channel, if HKDF has no collision on infos of this length. -/
theorem traffic_secrets_separate
    (hexpand : ∀ a b : Bytes, a.length = 31 → b.length = 31 →
      P.hkdfExpand master a hashSize = P.hkdfExpand master b hashSize → a = b)
    (h : deriveTrafficSecret P master dir epoch suite ch p = .ok s)
    (h' : deriveTrafficSecret P master dir' epoch' suite' ch' p' = .ok s) :
    dir = dir' ∧ epoch = epoch' ∧ suite = suite' ∧ ch = ch' := by
  have hvalue {p : Profile} {context : Bytes}
      (h : expandForProfile P p master "traffic" context hashSize = .ok s) :
      hkdfExpandLabel P master "traffic" context hashSize = s := by
    unfold expandForProfile at h
    split at h
    · cases h
    · exact Except.ok.inj h
  have hinfo := hexpand _ _ (by simp [ascii]) (by simp [ascii]) ((hvalue h).trans (hvalue h').symm)
  exact context_inj (append_inj' hinfo (by simp)).2

theorem traffic_secrets_separate_plain :
    deriveTrafficSecret plain [7] .clientToServer 0 1 0 1
      ≠ deriveTrafficSecret plain [7] .serverToClient 0 1 0 1 := by
  intro h
  have h' : deriveTrafficSecret plain [7] .serverToClient 0 1 0 1 = .ok _ := rfl
  exact absurd (traffic_secrets_separate (fun _ _ _ _ => append_cancel_left) h h').1 (by decide)

theorem plain_key_inj
    (h : (trafficKeys plain root dir epoch ch).key = (trafficKeys plain root' dir epoch' ch').key) :
    root = root' ∧ epoch = epoch' ∧ ch = ch' := by
  have hsecret := append_cancel_right h
  obtain ⟨hroot, hinfo⟩ := append_inj' hsecret (by simp)
  obtain ⟨-, hepoch, -, hch⟩ := context_inj (append_inj' hinfo (by simp)).2
  exact ⟨hroot, hepoch, hch⟩

end Context

theorem plain_distinctKeys {dir : Direction} {roots : List Bytes} (hroots : roots.Nodup) :
    DistinctKeys plain dir roots where
  nodup := hroots
  keys _ _ _ _ _ _ _ _ h := plain_key_inj h

set_option maxRecDepth 100000 in
/-- A `Send` whose write fails leaves the counter as it was: the next `Send` seals another payload
under the same key and sequence number. -/
theorem Sealing.failed_write_reuses_nonce : ∃ S, Run.Reaches (Sealing.step plain) (fun _ _ => True)
        (Sealing.start [7] .clientToServer .serverToClient) S
      ∧ DistinctKeys plain .clientToServer S.roots
      ∧ ∃ a ∈ S.ep.handed, ∃ b ∈ S.ep.handed, a.st.key = b.st.key ∧ a.st.seq = b.st.seq
        ∧ a.msg.plaintext ≠ b.msg.plaintext :=
  (Run.exists_reaches (p := fun S : Sealing => S.roots.Nodup ∧ ∃ a ∈ S.ep.handed,
      ∃ b ∈ S.ep.handed, a.st.key = b.st.key ∧ a.st.seq = b.st.seq
        ∧ a.msg.plaintext ≠ b.msg.plaintext)
    [.act (.send 5 32 [1]) (.failed 40), .act .finish .ok, .act (.send 5 32 [2]) .ok]
    (by decide +kernel)).imp fun _ ⟨hreach, hnodup, hclash⟩ =>
      ⟨hreach, plain_distinctKeys hnodup, hclash⟩

set_option maxRecDepth 100000 in
theorem Sealing.nonce_seals_one_plaintext_ratcheted :
    ∃ S, Run.Reaches (Sealing.step plain) (fun S input => S.careful plain input = true)
        (Sealing.start [7] .clientToServer .serverToClient) S
      ∧ S.ep.handed.length = 5
      ∧ ∀ a ∈ S.ep.handed, ∀ b ∈ S.ep.handed, a.st.key = b.st.key → a.st.seq = b.st.seq →
        a.aad = b.aad ∧ a.msg.plaintext = b.msg.plaintext :=
  (Run.exists_reaches (p := fun S : Sealing => S.roots.Nodup ∧ S.ep.handed.length = 5)
    [.act (.send 5 32 [1]) (.failed 40), .act .finish .ok, .act .ratchetSend .ok,
      .act .finish .ok, .act (.send 5 32 [2]) .ok, .recv [1, 2, 3], .act .finish .ok,
      .act (.keyUpdate 5) .ok, .act .finish .ok, .act (.send 5 32 [3]) .ok]
    (by decide +kernel)).imp fun _ ⟨hreach, hnodup, hlength⟩ =>
      ⟨hreach, hlength, Sealing.nonce_seals_one_plaintext hreach (plain_distinctKeys hnodup)⟩

end Npamp
