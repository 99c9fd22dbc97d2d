import Npamp.Proof.GoFlow
import Npamp.Proof.RustFlow

/-!
# Go and Rust endpoints interoperate

The records of a direction are the same octets whichever side seals them, so a session is two
scripts that fit together.
-/

namespace Npamp

open Conn List
open Dialogue (Exchange Follows Joint follows_ofExcept_bind follows_pure)

theorem standardOnly_default : Rust.StandardOnly [profileStandard] :=
  ⟨cons_ne_nil _ _, fun _ hp => mem_singleton.mp hp⟩

theorem standardOnly_profilesOrDefault {profiles : List Profile}
    (h : ∀ p ∈ profiles, p = profileStandard) : Rust.StandardOnly (profilesOrDefault profiles) := by
  cases profiles with
  | nil => exact standardOnly_default
  | cons p rest => exact ⟨cons_ne_nil _ _, h⟩

theorem length_profilesOrDefault {profiles : List Profile} (h : profiles.length < 2 ^ 16) :
    (profilesOrDefault profiles).length < 2 ^ 16 := by
  cases profiles with
  | nil => decide
  | cons p rest => exact h

def recordWires (P : Primitives) (root : Bytes) (dir : Direction) (ch : ChannelID) :
    UInt64 → List AppFrame → List Bytes
  | _, [] => []
  | seq, frame :: frames =>
    recordWire P root dir ch seq frame.1 frame.2 :: recordWires P root dir ch (seq + 1) frames

/-- The frames an application can send: not those of the key update, and within the frame size. -/
structure Sendable (frame : AppFrame) : Prop where
  not_keyUpdate : frame.1 ≠ frameKeyUpdate
  not_keyUpdateAck : frame.1 ≠ frameKeyUpdateAck
  size : headerSize + (frame.2.length + 16) ≤ maxFrameSize

section Records

variable {P : Primitives} {root : Bytes} {dir : Direction} {ch : ChannelID}

theorem Sendable.fits {frame : AppFrame} (h : Sendable frame) : frame.2.length + 16 < 2 ^ 32 := by
  have hmax : maxFrameSize < 2 ^ 32 := by decide
  have hsize := h.size
  omega

theorem framed_recordWires (hP : P.Correct) {frames : List AppFrame}
    (hframes : ∀ f ∈ frames, Sendable f) (seq : UInt64) :
    ∀ raw ∈ recordWires P root dir ch seq frames, Framed maxFrameSize raw := by
  induction frames generalizing seq with
  | nil => exact fun raw hraw => absurd hraw not_mem_nil
  | cons frame frames ih =>
    intro raw hraw
    rcases mem_cons.mp hraw with rfl | hraw
    · exact framed_recordWire hP (hframes frame mem_cons_self).size
    · exact ih (fun f hf => hframes f (mem_cons_of_mem _ hf)) (seq + 1) raw hraw

end Records

section Go

variable {P : Primitives} (hP : P.Correct) {root : Bytes} {dir : Direction} {ch : ChannelID}

def keysAt (P : Primitives) (root : Bytes) (dir : Direction) (ch : ChannelID) (seq : UInt64) :
    EpochKeys :=
  { trafficKeys P root dir 0 ch with seq := seq }

include hP

theorem follows_sendRecord {c : Conn} (hc : c.closed = false) {seq : UInt64}
    (hkeys : (c.sendView P).keys ch = keysAt P root dir ch seq) (hseq : seq ≠ maxUint64)
    {frame : AppFrame} (hframe : Sendable frame) :
    ∃ c', Follows (c.sendRecord P ch frame) [.put (recordWire P root dir ch seq frame.1 frame.2)]
        (.ok c')
      ∧ c'.closed = false ∧ c'.recvView P = c.recvView P
      ∧ (c'.sendView P).keys ch = keysAt P root dir ch (seq + 1) := by
  have hlocked : c.sendLocked P ch frame.1 frame.2
      = (c.cacheSend P ch, .sealed (keysAt P root dir ch seq) (.app ch frame.1 frame.2)) := by
    rw [sendLocked, sendState_eq hc, hkeys]
    exact if_neg hseq
  have hcached : (c.cacheSend P ch).sendKeys ch = some (keysAt P root dir ch seq) := by
    rw [sendKeys_cacheSend_self, hkeys]
  refine ⟨(c.cacheSend P ch).afterWrite P (.app ch frame.1 frame.2) true, ?_, ?_, ?_, ?_⟩
  · rw [sendRecord, hlocked]
    exact (follows_writeFrame (framed_recordWire hP hframe.size)).cons (follows_pure _)
  · rw [closed_afterWrite]
    exact hc
  · rw [recvView_afterWrite, recvView_cacheSend]
  rw [sendView_afterWrite hcached, sendView_cacheSend]
  change (Function.update (c.sendView P).keys ch ((c.sendView P).keys ch).next) ch = _
  rw [Function.update_self, hkeys]
  rfl

/-- The frames `Send` takes from sequence number `seq` on: the last number is never used. -/
def taken (seq : UInt64) (frames : List AppFrame) : List AppFrame :=
  frames.take (maxUint64.toNat - seq.toNat)

omit hP in
theorem taken_cons {seq : UInt64} (hseq : seq ≠ maxUint64) (frame : AppFrame)
    (frames : List AppFrame) : taken seq (frame :: frames) = frame :: taken (seq + 1) frames := by
  have hlt : seq.toNat < maxUint64.toNat := by
    have hbound := seq.toNat_lt
    have hne : seq.toNat ≠ maxUint64.toNat := fun h => hseq (UInt64.toNat_inj.mp h)
    have hmax : maxUint64.toNat = 2 ^ 64 - 1 := rfl
    omega
  have hnext : (seq + 1).toNat = seq.toNat + 1 := by
    have hmax : maxUint64.toNat = 2 ^ 64 - 1 := rfl
    rw [UInt64.toNat_add]
    exact Nat.mod_eq_of_lt (by simp; omega)
  rw [taken, taken, hnext, show maxUint64.toNat - seq.toNat
    = (maxUint64.toNat - (seq.toNat + 1)) + 1 by omega, take_succ_cons]

omit hP in
theorem taken_zero {frames : List AppFrame} (h : frames.length < 2 ^ 64) :
    taken 0 frames = frames :=
  take_of_length_le (Nat.le_sub_one_of_lt h)

variable {frames : List AppFrame} {c : Conn} {seq : UInt64}

theorem follows_sendRecords (hframes : ∀ f ∈ frames, Sendable f) (hc : c.closed = false)
    (hkeys : (c.sendView P).keys ch = keysAt P root dir ch seq) :
    ∃ c', Follows (sendRecords P ch frames c)
        ((recordWires P root dir ch seq (taken seq frames)).map .put) (.ok (c', taken seq frames))
      ∧ c'.closed = false ∧ c'.recvView P = c.recvView P := by
  induction frames generalizing c seq with
  | nil =>
    rw [show taken seq [] = [] from take_nil]
    exact ⟨c, follows_pure _, hc, rfl⟩
  | cons frame frames ih =>
    by_cases hseq : seq = maxUint64
    · have hnone : taken seq (frame :: frames) = [] := by
        rw [taken, hseq, Nat.sub_self, take_zero]
      have hlocked : ∃ e c', c.sendLocked P ch frame.1 frame.2 = (c', .refused (some e)) := by
        rw [sendLocked, sendState_eq hc, hkeys]
        exact ⟨_, _, if_pos hseq⟩
      obtain ⟨e, c', hlocked⟩ := hlocked
      refine ⟨c, ?_, hc, rfl⟩
      rw [hnone, sendRecords, sendRecord, hlocked]
      exact follows_pure _
    · obtain ⟨c', hsend, hc', hrecv, hkeys'⟩ :=
        follows_sendRecord hP hc hkeys hseq (hframes frame mem_cons_self)
      obtain ⟨c'', hrest, hc'', hrecv'⟩ :=
        ih (fun f hf => hframes f (mem_cons_of_mem _ hf)) hc' hkeys'
      refine ⟨c'', ?_, hc'', hrecv'.trans hrecv⟩
      rw [taken_cons hseq, sendRecords]
      exact hsend.andThen (hrest.map fun p => (p.1, frame :: p.2))

theorem follows_recvRecord (hc : c.closed = false) (hch : ch ≠ chanControl)
    (hkeys : (c.recvView P).keys ch = keysAt P root dir ch seq) {frame : AppFrame}
    (hframe : Sendable frame) (fuel : Nat) : Follows (recvRecord P (fuel + 1) c)
      [.got (recordWire P root dir ch seq frame.1 frame.2)] (.ok (c.opened P ch, ch, frame)) := by
  have honce : c.recvOnce P (recordWire P root dir ch seq frame.1 frame.2)
      = .ret (c.opened P ch) ch frame.1 frame.2 (.deliver none) := by
    have hopens : c.recvOnce P (sealWith P ((c.recvView P).keys ch) ch frame.1 frame.2) = _ :=
      recvOnce_sealWith hP hc hframe.fits
    rw [hkeys] at hopens
    rw [recordWire, ← keysAt, hopens, dispatch, if_neg hframe.not_keyUpdate,
      if_neg hframe.not_keyUpdateAck, if_pos hch]
  have hrecv : c.recv P (recordWire P root dir ch seq frame.1 frame.2) true
      = .frame (c.opened P ch) ch frame.1 frame.2 := by
    rw [recv, honce]
    rfl
  rw [recvRecord]
  refine (Dialogue.follows_receive _).cons ?_
  rw [hrecv]
  exact follows_pure _

theorem follows_recvRecords (hframes : ∀ f ∈ frames, Sendable f) (hc : c.closed = false)
    (hch : ch ≠ chanControl) (hkeys : (c.recvView P).keys ch = keysAt P root dir ch seq)
    (fuel : Nat) : Follows (recvRecords P (fuel + 1) frames.length c)
      ((recordWires P root dir ch seq frames).map .got) (.ok (frames.map (ch, ·))) := by
  induction frames generalizing c seq with
  | nil => exact follows_pure _
  | cons frame frames ih =>
    have hnext : ((c.opened P ch).recvView P).keys ch = keysAt P root dir ch (seq + 1) := by
      rw [recvView_opened]
      change (Function.update (c.recvView P).keys ch ((c.recvView P).keys ch).next) ch = _
      rw [Function.update_self, hkeys]
      rfl
    have hrest := ih (fun f hf => hframes f (mem_cons_of_mem _ hf)) (c := c.opened P ch) hc
      hnext
    refine (follows_recvRecord hP hc hch hkeys (hframes frame mem_cons_self) fuel).cons ?_
    exact hrest.map fun received => (ch, frame) :: received

theorem follows_session {party : Party P} {script : List (Exchange Bytes Bytes)} {peer : Bytes}
    {profile : Profile} (hrun : Follows party.run script (.ok (root, peer, profile)))
    {theirs : List AppFrame} (hframes : ∀ f ∈ frames, Sendable f)
    (htheirs : ∀ f ∈ theirs, Sendable f) (mine : ChannelID) {other : ChannelID}
    (hother : other ≠ chanControl) (fuel : Nat) :
    Follows (party.session mine frames (fuel + 1) theirs.length)
      (script ++ ((recordWires P root party.sendDir mine 0 (taken 0 frames)).map .put
        ++ (recordWires P root party.recvDir other 0 theirs).map .got))
      (.ok
        { master := root, peer := peer, sent := taken 0 frames
          received := theirs.map (other, ·) }) := by
  have hfresh : ((newConn root party.sendDir party.recvDir).sendView P).keys mine
      = keysAt P root party.sendDir mine 0 := rfl
  obtain ⟨c, hsend, hc, hrecv⟩ := follows_sendRecords hP hframes rfl hfresh
  have hkeys : (c.recvView P).keys other = keysAt P root party.recvDir other 0 := by
    rw [hrecv]
    rfl
  have hreceive := follows_recvRecords hP htheirs hc hother hkeys fuel
  refine hrun.bind (hsend.bind ?_)
  exact hreceive.map fun received => Outcome.mk root peer (taken 0 frames) received

end Go

namespace Rust

section Traffic

variable {C : Crates} (hC : C.Agrees) {s : Session} (hmaster : hashLen ≤ s.master.length)
  {dir : Direction} {ch : ChannelID}

include hC hmaster

theorem follows_sendRecords (hdir : s.sendDir = dir.octet) (frames : List AppFrame) (seq : UInt64) :
    Dialogue.Follows (s.sendRecords C ch seq frames)
      ((recordWires C s.master dir ch seq frames).map .put) (.ok ()) := by
  induction frames generalizing seq with
  | nil => exact follows_pure _
  | cons frame frames ih =>
    have hsend : Dialogue.Follows (s.sendRecord C ch frame.1 seq frame.2)
        [.put (recordWire C s.master dir ch seq frame.1 frame.2)] (.ok ()) := by
      rw [Session.sendRecord, hdir]
      exact follows_ofExcept_bind (sealFrame_eq hC hmaster dir ch seq frame.1 frame.2)
        (Dialogue.follows_send _)
    exact hsend.cons (ih (seq + 1))

/-- The Rust session opens a record that either implementation sealed. -/
theorem openRecord_recordWire (hdir : s.recvDir = dir.octet) {frame : AppFrame}
    (hframe : Sendable frame) (seq : UInt64) :
    s.openRecord C seq (recordWire C s.master dir ch seq frame.1 frame.2)
      = .ok (ch, frame) := by
  obtain ⟨f, hparse, hchannel, htype, hflags, hseq, hopen⟩ := openWith_sealWith hC.correct
    (keysAt C s.master dir ch seq) ch frame.1 hframe.fits
  have hrust : unmarshal (recordWire C s.master dir ch seq frame.1 frame.2) = .ok f :=
    ((unmarshalBinaryWith_eq_ok_iff crc32c _ f).mp hparse).1
  have henc : f.flags &&& flagENC ≠ 0 := by
    rw [hflags]
    decide
  rw [keysAt, ← hchannel] at hopen
  rw [Session.openRecord, hrust]
  dsimp only
  rw [if_neg henc, if_neg (not_not_intro (show f.seq = seq from hseq)), hdir,
    openFrame_eq hC hmaster dir hopen, hchannel,
    htype]

theorem follows_recvRecords (hdir : s.recvDir = dir.octet) {frames : List AppFrame}
    (hframes : ∀ f ∈ frames, Sendable f) (seq : UInt64) :
    Dialogue.Follows (s.recvRecords C seq frames.length)
      ((recordWires C s.master dir ch seq frames).map .got)
      (.ok (frames.map (ch, ·))) := by
  induction frames generalizing seq with
  | nil => exact follows_pure _
  | cons frame frames ih =>
    have hrest := ih (fun f hf => hframes f (mem_cons_of_mem _ hf)) (seq + 1)
    have hrecv : Dialogue.Follows (s.recvRecord C seq)
        [.got (recordWire C s.master dir ch seq frame.1 frame.2)]
        (.ok (ch, frame)) := by
      refine (Dialogue.follows_receive _).cons ?_
      rw [openRecord_recordWire hC hmaster hdir (hframes frame mem_cons_self)]
      exact follows_pure _
    exact hrecv.cons (hrest.map fun received => (ch, frame) :: received)

theorem follows_session {peer : Peer} {script : List (Exchange Bytes Bytes)}
    (hrun : Dialogue.Follows (peer.run C) script (.ok s)) {dir' : Direction}
    (hdir : s.sendDir = dir.octet)
    (hdir' : s.recvDir = dir'.octet) (frames : List AppFrame) {theirs : List AppFrame}
    (htheirs : ∀ f ∈ theirs, Sendable f) (mine other : ChannelID) :
    Dialogue.Follows (peer.session C mine frames theirs.length)
      (script ++ ((recordWires C s.master dir mine 0 frames).map .put
        ++ (recordWires C s.master dir' other 0 theirs).map .got))
      (.ok
        { master := s.master, peer := s.peerIdentity, sent := frames
          received := theirs.map (other, ·) }) := by
  have hsend : Dialogue.Follows (s.sendRecords C mine 0 frames) _ _ :=
    follows_sendRecords hC hmaster hdir frames 0
  have hreceive : Dialogue.Follows _
      ((recordWires C s.master dir' other 0 theirs).map .got) _ :=
    follows_recvRecords hC hmaster hdir' htheirs 0
  refine hrun.bind (hsend.bind ?_)
  exact hreceive.map fun received => Outcome.mk s.master s.peerIdentity frames received

end Traffic

end Rust

def Flow.script (P : Primitives) (x : Flow) : Direction → List (Exchange Bytes Bytes)
  | .clientToServer => x.clientScript P
  | .serverToClient => x.serverScript P

theorem Flow.joint_scripts {P : Primitives} (x : Flow) (a b : List Bytes) :
    Joint [] [] (x.clientScript P ++ (a.map .put ++ b.map .got))
      (x.serverScript P ++ (b.map .put ++ a.map .got)) := by
  refine .putLeft (.gotRight (.putRight (.putRight (.gotLeft (.gotLeft (.putLeft (.gotRight ?_)))))))
  exact Dialogue.joint_exchange [] [] a b

theorem Flow.framed_script {P : Primitives} (hP : P.Correct) (hsize : P.Sized) {x : Flow}
    (hx : x.Valid) (dir : Direction) {raw : Bytes} (hraw : .got raw ∈ x.script P dir) :
    Framed maxFrameSize raw := by
  cases dir with
  | clientToServer =>
    simp only [script, clientScript, mem_cons, Exchange.got.injEq, reduceCtorEq,
      not_mem_nil, false_or, or_false] at hraw
    rcases hraw with rfl | rfl
    · exact framed_shWire hx
    · exact framed_authWire hP hsize _ _
  | serverToClient =>
    simp only [script, serverScript, mem_cons, Exchange.got.injEq, reduceCtorEq,
      not_mem_nil, false_or, or_false] at hraw
    rcases hraw with rfl | rfl
    · exact framed_chWire hx
    · exact framed_authWire hP hsize _ _

namespace Rust

variable {C : Crates} {id : LocalIdentity C} {identity : Bytes}
  {go : Party C} {rust : Peer}

/-- A Go endpoint with the identity `id` and a Rust endpoint with the key `identity`, in opposite
roles. A pin, where there is one, is the peer's key. -/
inductive Pair (C : Crates) (id : LocalIdentity C) (identity : Bytes) :
    Party C → Peer → Prop
  | goClient {pin pin' : Option Bytes} (kem : KEMClient) (rand : KEMRandom)
      (hpin : ∀ key ∈ pin, key = C.ed25519Public identity) (hpin' : ∀ key ∈ pin', key = id.edPub) :
      Pair C id identity (.client id pin kem) (.server identity pin' rand)
  | rustClient {pin pin' : Option Bytes} (kem : KEMClient) (rand : KEMRandom)
      (hpin : ∀ key ∈ pin, key = C.ed25519Public identity) (hpin' : ∀ key ∈ pin', key = id.edPub) :
      Pair C id identity (.server id pin rand) (.client identity pin' kem)

theorem exists_flow (hC : C.Agrees) {profiles : List Profile} (hstandard : StandardOnly profiles)
    (hlength : profiles.length < 2 ^ 16) (kem : KEMClient) (rand : KEMRandom)
    (clientKey serverKey : Bytes) :
    ∃ x : Flow, x.Valid ∧ x.profiles = profiles ∧ x.clientKey = clientKey
      ∧ x.serverKey = serverKey ∧ kem.kemShare C = x.kemShare
      ∧ kem.sharedSecrets C x.kemCT = .ok x.ss
      ∧ Npamp.encapsulate C x.kemShare rand = .ok (x.kemCT, x.ss) := by
  obtain ⟨kemCT, ss, hkem, hss⟩ := encapsulate_kemShare hC.correct kem rand
  exact ⟨⟨profiles, kem.kemShare C, kemCT, ss, clientKey, serverKey⟩,
    ⟨hstandard, hlength, length_kemShare hC.correct kem, length_encapsulate hC.correct hkem⟩,
    rfl, rfl, rfl, rfl, hss, hkem⟩

theorem Pair.flow (hC : C.Agrees) (hpair : Pair C id identity go rust) (hpriv : id.edPriv ≠ [])
    (hstandard : ∀ p ∈ id.profiles, p = profileStandard) (hlength : id.profiles.length < 2 ^ 16) :
    ∃ x : Flow, x.Valid
      ∧ Dialogue.Follows go.run (x.script C go.sendDir)
          (.ok (x.master C, C.ed25519Public identity, profileStandard))
      ∧ Dialogue.Follows (rust.run C) (x.script C go.recvDir)
          (.ok
            { master := x.master C, peerIdentity := id.edPub
              sendDir := go.recvDir.octet, recvDir := go.sendDir.octet }) := by
  have hprofiles := standardOnly_profilesOrDefault hstandard
  rw [id.edPub_eq]
  cases hpair with
  | goClient kem rand hpin hpin' =>
    rw [id.edPub_eq] at hpin'
    obtain ⟨x, hx, hoffer, hclient, hserver, hshare, hss, hkem⟩ :=
      exists_flow hC hprofiles (length_profilesOrDefault hlength) kem rand id.edPriv identity
    subst hserver
    rw [← hclient] at hpin' ⊢
    exact ⟨x, hx,
      Flow.follows_runClientHandshake hC.correct hC.sized hC.verify_sign hx hpriv hoffer.symm
        hshare hss hclient.symm hpin,
      follows_acceptWithEphemeral hC hx hkem rfl hpin'⟩
  | rustClient kem rand hpin hpin' =>
    rw [id.edPub_eq] at hpin'
    obtain ⟨x, hx, hoffer, hclient, hserver, hshare, hss, hkem⟩ :=
      exists_flow hC standardOnly_default (by decide) kem rand identity id.edPriv
    subst hclient
    rw [← hserver] at hpin' ⊢
    exact ⟨x, hx,
      Flow.follows_runServerHandshake hC.correct hC.sized hC.verify_sign hx hpriv hprofiles hkem
        hserver.symm hpin,
      follows_dialWithEphemeral hC hx hoffer hshare hss rfl hpin'⟩

theorem joint_sessions (go : Party C) (x : Flow) (a b : List Bytes) :
    Joint [] [] (x.script C go.sendDir ++ (a.map .put ++ b.map .got))
      (x.script C go.recvDir ++ (b.map .put ++ a.map .got)) := by
  cases go with
  | client => exact x.joint_scripts a b
  | server => exact (x.joint_scripts b a).symm

theorem framed_session (hC : C.Agrees) {x : Flow} (hx : x.Valid) {dir : Direction}
    {a b : List Bytes} (hb : ∀ raw ∈ b, Framed maxFrameSize raw) {raw : Bytes}
    (hraw : .got raw ∈ x.script C dir ++ (a.map .put ++ b.map .got)) :
    Framed maxFrameSize raw := by
  rcases mem_append.mp hraw with hscript | hraw
  · exact Flow.framed_script hC.correct hC.sized hx dir hscript
  rcases mem_append.mp hraw with hput | hgot
  · obtain ⟨_, _, heq⟩ := mem_map.mp hput
    cases heq
  · obtain ⟨_, hmem, heq⟩ := mem_map.mp hgot
    cases heq
    exact hb raw hmem

/-- **A Go endpoint and a Rust endpoint interoperate**, in either role and under every schedule:
both end with one master secret and receive the frames the other one sent. -/
theorem go_rust_interoperate (hC : C.Agrees) (hpair : Pair C id identity go rust)
    (hpriv : id.edPriv ≠ []) (hstandard : ∀ p ∈ id.profiles, p = profileStandard)
    (hlength : id.profiles.length < 2 ^ 16) {goFrames rustFrames : List AppFrame}
    (hgoFrames : ∀ f ∈ goFrames, Sendable f) (hrustFrames : ∀ f ∈ rustFrames, Sendable f)
    (goChannel : ChannelID) {rustChannel : ChannelID} (hchannel : rustChannel ≠ Npamp.chanControl)
    (fuel : Nat) : ∃ master,
      Run.Settles (Dialogue.duplexStep goPort port)
        (⟨go.session goChannel goFrames (fuel + 1) rustFrames.length, [], []⟩,
          ⟨rust.session C rustChannel rustFrames (taken 0 goFrames).length, [], []⟩)
        (⟨.done (.ok
            { master := master, peer := C.ed25519Public identity, sent := taken 0 goFrames
              received := rustFrames.map (rustChannel, ·) }), [], []⟩,
          ⟨.done (.ok
            { master := master, peer := id.edPub, sent := rustFrames
              received := (taken 0 goFrames).map (goChannel, ·) }), [], []⟩) := by
  have htaken : ∀ f ∈ taken 0 goFrames, Sendable f :=
    fun f hf => hgoFrames f (List.mem_of_mem_take hf)
  obtain ⟨x, hx, hgo, hrust⟩ := hpair.flow hC hpriv hstandard hlength
  have hmaster : hashLen ≤ (x.master C.toPrimitives).length :=
    (length_hkdfExpandLabel hC _ "master" _).ge
  have hleft := Npamp.follows_session hC.correct hgo hgoFrames hrustFrames goChannel hchannel fuel
  have hright := follows_session hC hmaster hrust rfl rfl rustFrames htaken rustChannel goChannel
  refine ⟨x.master C.toPrimitives, ?_⟩
  refine Dialogue.settles_of_joint (joint_sessions go x _ _) hleft hright ?_ ?_
  · exact fun raw hraw =>
      goPort_takes (framed_session hC hx (framed_recordWires hC.correct hrustFrames 0) hraw)
  · exact fun raw hraw =>
      port_takes (framed_session hC hx (framed_recordWires hC.correct htaken 0) hraw)

def plainCrates : Crates :=
  { plainSigning with
    hkdfExtract := fun ikm salt => pad hashLen (ikm ++ salt)
    hkdfExpand := fun secret info length => pad length (info ++ secret)
    x25519 := fun a b => .ok (1 :: zipWith (· + ·) a b)
    diffieHellman := fun a b => 1 :: zipWith (· + ·) a b
    isVerifyingKey := fun key => key.length = 32 }

theorem plainCrates_agrees : plainCrates.Agrees where
  correct :=
    { plainSigning_correct with
      x25519_agree := fun a b _ _ => by
        refine ⟨1 :: zipWith (· + ·) a b, rfl, ?_⟩
        change Except.ok (1 :: zipWith (· + ·) b a) = _
        rw [zipWith_comm, funext₂ fun x y : UInt8 => UInt8.add_comm y x] }
  sized :=
    ⟨plainSigning_sized.length_hmac, plainSigning_sized.length_ed25519Public,
      plainSigning_sized.length_ed25519Sign⟩
  length_hkdfExtract ikm salt := length_pad hashLen _
  length_hkdfExpand secret info length _ := length_pad length _
  verify_sign key message := decide_eq_true rfl
  isVerifyingKey_public key := decide_eq_true (length_pad 32 key)
  diffieHellman a b ss h := by
    cases h
    exact ⟨rfl, rfl⟩

theorem go_rust_interoperate_plain : ∃ master,
      Run.Settles (Dialogue.duplexStep goPort port)
        (⟨Party.session (P := plainCrates.toPrimitives)
            (.server ⟨[1], pad 32 [1], [], rfl⟩ none ⟨[], List.replicate 32 3, rfl⟩) 1
            [(0x0100, [1, 2]), (0x0101, [])] 1 1, [], []⟩,
          ⟨Peer.session plainCrates
            (.client [2] (some (pad 32 [1]))
              ⟨List.replicate 64 4, List.replicate 32 5, rfl, rfl⟩) 2 [(0x0100, [6])] 2, [], []⟩)
        (⟨.done (.ok
            { master := master, peer := pad 32 [2], sent := [(0x0100, [1, 2]), (0x0101, [])]
              received := [(2, 0x0100, [6])] }), [], []⟩,
          ⟨.done (.ok
            { master := master, peer := pad 32 [1], sent := [(0x0100, [6])]
              received := [(1, 0x0100, [1, 2]), (1, 0x0101, [])] }), [], []⟩) := by
  have hgo : ∀ f ∈ ([(0x0100, [1, 2]), (0x0101, [])] : List AppFrame), Sendable f := by
    simp only [List.forall_mem_cons]
    exact ⟨⟨by decide, by decide, by decide⟩, ⟨by decide, by decide, by decide⟩,
      List.forall_mem_nil _⟩
  have hrust : ∀ f ∈ ([(0x0100, [6])] : List AppFrame), Sendable f := by
    simp only [List.forall_mem_cons]
    exact ⟨⟨by decide, by decide, by decide⟩, List.forall_mem_nil _⟩
  have hpair : Pair plainCrates ⟨[1], pad 32 [1], [], rfl⟩ [2]
      (.server ⟨[1], pad 32 [1], [], rfl⟩ none ⟨[], List.replicate 32 3, rfl⟩)
      (.client [2] (some (pad 32 [1]))
        ⟨List.replicate 64 4, List.replicate 32 5, rfl, rfl⟩) :=
    .rustClient _ _ (fun _ h => by cases h) (fun _ h => by cases h; rfl)
  have hsettles := go_rust_interoperate plainCrates_agrees hpair (List.cons_ne_nil _ _)
    (fun _ h => absurd h List.not_mem_nil) (by decide) hgo hrust 1
    (by decide : (2 : ChannelID) ≠ Npamp.chanControl) 0
  rw [taken_zero (by simp)] at hsettles
  exact hsettles

/-- **Two Rust endpoints interoperate** under every schedule. -/
theorem rust_rust_interoperate (hC : C.Agrees) {clientKey serverKey : Bytes}
    {pin pin' : Option Bytes} (hpin : ∀ key ∈ pin, key = C.ed25519Public serverKey)
    (hpin' : ∀ key ∈ pin', key = C.ed25519Public clientKey) (kem : KEMClient) (rand : KEMRandom)
    {asked answered : List AppFrame} (hasked : ∀ f ∈ asked, Sendable f)
    (hanswered : ∀ f ∈ answered, Sendable f) (ch ch' : ChannelID) : ∃ master,
      Run.Settles (Dialogue.duplexStep port port)
        (⟨Peer.session C (.client clientKey pin kem) ch asked answered.length, [], []⟩,
          ⟨Peer.session C (.server serverKey pin' rand) ch' answered asked.length, [], []⟩)
        (⟨.done (.ok ⟨master, C.ed25519Public serverKey, asked, answered.map (ch', ·)⟩), [], []⟩,
          ⟨.done (.ok ⟨master, C.ed25519Public clientKey, answered, asked.map (ch, ·)⟩),
            [], []⟩) := by
  obtain ⟨x, hx, hoffer, rfl, rfl, hshare, hss, hkem⟩ :=
    exists_flow hC standardOnly_default (by decide) kem rand clientKey serverKey
  have hmaster : hashLen ≤ (x.master C).length := (length_hkdfExpandLabel hC _ "master" _).ge
  have hclient : Dialogue.Follows (Peer.run C (.client x.clientKey pin kem))
      (x.script C .clientToServer) _ :=
    follows_dialWithEphemeral hC hx hoffer hshare hss rfl hpin
  have hserver : Dialogue.Follows (Peer.run C (.server x.serverKey pin' rand))
      (x.script C .serverToClient) _ :=
    follows_acceptWithEphemeral hC hx hkem rfl hpin'
  have toServer : dirC2s = Direction.octet .clientToServer := rfl
  have toClient : dirS2c = Direction.octet .serverToClient := rfl
  have hleft := follows_session hC hmaster hclient toServer toClient asked hanswered ch ch'
  have hright := follows_session hC hmaster hserver toClient toServer answered hasked ch' ch
  refine ⟨x.master C, Dialogue.settles_of_joint (x.joint_scripts _ _) hleft hright ?_ ?_⟩
  · exact fun raw hraw => port_takes (@framed_session C hC x hx .clientToServer _ _
      (framed_recordWires hC.correct hanswered 0) raw hraw)
  · exact fun raw hraw => port_takes (@framed_session C hC x hx .serverToClient _ _
      (framed_recordWires hC.correct hasked 0) raw hraw)

theorem rust_rust_interoperate_plain : ∃ master,
      Run.Settles (Dialogue.duplexStep port port)
        (⟨Peer.session plainCrates
            (.client [1] none ⟨replicate 64 4, replicate 32 5, rfl, rfl⟩) 1 [(0x0100, [6])] 0,
            [], []⟩,
          ⟨Peer.session plainCrates
            (.server [2] (some (pad 32 [1])) ⟨[], replicate 32 3, rfl⟩) 2 [] 1, [], []⟩)
        (⟨.done (.ok ⟨master, pad 32 [2], [(0x0100, [6])], []⟩), [], []⟩,
          ⟨.done (.ok ⟨master, pad 32 [1], [], [(1, 0x0100, [6])]⟩), [], []⟩) :=
  rust_rust_interoperate plainCrates_agrees (fun _ h => by cases h) (fun _ h => by cases h; rfl)
    _ _ (forall_mem_singleton.mpr ⟨by decide, by decide, by decide⟩) (forall_mem_nil _) 1 2

end Rust

/-- **Two Go endpoints complete the handshake** under every schedule. -/
theorem go_go_handshake {P : Primitives} (hP : P.Correct) (hsize : P.Sized)
    (hverify : ∀ key message,
      P.ed25519Verify (P.ed25519Public key) message (P.ed25519Sign key message) = true)
    {client server : LocalIdentity P} (hpriv : client.edPriv ≠ []) (hpriv' : server.edPriv ≠ [])
    (hstandard : ∀ p ∈ client.profiles, p = profileStandard)
    (hstandard' : ∀ p ∈ server.profiles, p = profileStandard)
    (hlength : client.profiles.length < 2 ^ 16) {pin pin' : Option Bytes}
    (hpin : ∀ key ∈ pin, key = server.edPub) (hpin' : ∀ key ∈ pin', key = client.edPub)
    (kem : KEMClient) (rand : KEMRandom) : ∃ master,
      Run.Settles (Dialogue.duplexStep goPort goPort)
        (⟨runClientHandshake P client pin kem, [], []⟩,
          ⟨runServerHandshake P server pin' rand, [], []⟩)
        (⟨.done (.ok (master, server.edPub, profileStandard)), [], []⟩,
          ⟨.done (.ok (master, client.edPub, profileStandard)), [], []⟩) := by
  rw [client.edPub_eq, server.edPub_eq] at *
  obtain ⟨kemCT, ss, hkem, hss⟩ := encapsulate_kemShare hP kem rand
  let x : Flow :=
    ⟨profilesOrDefault client.profiles, kem.kemShare P, kemCT, ss, client.edPriv, server.edPriv⟩
  have hx : x.Valid := ⟨standardOnly_profilesOrDefault hstandard,
    length_profilesOrDefault hlength, length_kemShare hP kem, length_encapsulate hP hkem⟩
  have hleft := Flow.follows_runClientHandshake hP hsize hverify hx hpriv rfl rfl hss rfl hpin
  have hright := Flow.follows_runServerHandshake hP hsize hverify hx hpriv'
    (standardOnly_profilesOrDefault hstandard') hkem rfl hpin'
  have hjoint : Joint [] [] (x.clientScript P ++ []) (x.serverScript P ++ []) :=
    x.joint_scripts [] []
  rw [append_nil, append_nil] at hjoint
  refine ⟨_, Dialogue.settles_of_joint hjoint hleft hright ?_ ?_⟩
  · exact fun raw hraw => goPort_takes (Flow.framed_script hP hsize hx .clientToServer hraw)
  · exact fun raw hraw => goPort_takes (Flow.framed_script hP hsize hx .serverToClient hraw)

theorem go_go_handshake_plain : ∃ master,
      Run.Settles (Dialogue.duplexStep goPort goPort)
        (⟨runClientHandshake plainSigning ⟨[1], pad 32 [1], [], rfl⟩ (some (pad 32 [2]))
            ⟨replicate 64 4, replicate 32 5, rfl, rfl⟩, [], []⟩,
          ⟨runServerHandshake plainSigning ⟨[2], pad 32 [2], [], rfl⟩ none
            ⟨[], replicate 32 3, rfl⟩, [], []⟩)
        (⟨.done (.ok (master, pad 32 [2], profileStandard)), [], []⟩,
          ⟨.done (.ok (master, pad 32 [1], profileStandard)), [], []⟩) :=
  go_go_handshake plainSigning_correct plainSigning_sized (fun _ _ => decide_eq_true rfl)
    (cons_ne_nil _ _) (cons_ne_nil _ _) (forall_mem_nil _) (forall_mem_nil _) (by decide)
    (fun _ h => by cases h; rfl) (fun _ h => by cases h) _ _

end Npamp
