import Npamp.Lib.Gather
import Npamp.Proof.Frame
import Npamp.Rust.Tunnel

/-!
# One end of a tunnel

The codec of the mux frames, and what the steps of one end do to its table, its channels and its
streams.
-/

namespace Npamp.Rust.Tunnel

open List
open Gather

theorem FrameKind.fromU8_toU8 (kind : FrameKind) : fromU8 kind.toU8 = .ok kind := by
  cases kind <;> rfl

theorem values_plain (b : Bytes) : values (b.map (⟨·, none⟩)) = b := by
  rw [values, map_map]
  exact map_id b

/-- A frame is read back from its octets, with what follows left on the stream. -/
theorem readMuxFrame_encode {f : MuxFrame} (hfits : f.payload.length ≤ maxMuxPayload) (eof : Bool)
    (rest : List Octet) : readMuxFrame eof (f.encode ++ rest) = some (.ok (some (f, rest))) := by
  set header : Bytes := putUint32 f.streamId
    ++ f.kind.toU8 :: putUint32 (UInt32.ofNat f.payload.length) with hheader
  have hlength : (header.map fun b => (⟨b, none⟩ : Octet)).length = frameHeaderLen := by
    rw [length_map, hheader, length_append, length_cons, length_putUint32,
      length_putUint32]
    rfl
  have hoctets : f.encode ++ rest = header.map (⟨·, none⟩) ++ (f.payload ++ rest) := by
    rw [MuxFrame.encode, append_assoc]
  have hlong : ¬ (f.encode ++ rest).length < frameHeaderLen := by
    rw [hoctets, length_append, hlength]
    omega
  have hid : header.take 4 = putUint32 f.streamId :=
    take_left' (length_putUint32 _)
  have hkind : header.getD 4 0 = f.kind.toU8 := by
    rw [getD_eq_getElem?_getD, hheader,
      List.getElem?_append_right (length_putUint32 f.streamId).le, length_putUint32]
    rfl
  have hlen : header.drop 5 = putUint32 (UInt32.ofNat f.payload.length) := by
    rw [hheader, drop_append, length_putUint32,
      drop_eq_nil_of_le (by rw [length_putUint32]; decide)]
    rfl
  have hnat : (UInt32.ofNat f.payload.length).toNat = f.payload.length := by
    have hmax : maxMuxPayload < 2 ^ 32 := by decide
    exact UInt32.toNat_ofNat_of_lt' (hfits.trans_lt hmax)
  rw [readMuxFrame, if_neg hlong, hoctets, take_left' hlength, drop_left' hlength,
    values_plain]
  dsimp only
  rw [hkind, FrameKind.fromU8_toU8]
  dsimp only
  rw [hlen, uint32_putUint32, hnat, if_neg (not_lt.mpr hfits), if_neg (by simp), hid,
    uint32_putUint32, take_left, drop_left]

def encodeAll (fs : List MuxFrame) : List Octet := fs.flatMap MuxFrame.encode

theorem encodeAll_concat (fs : List MuxFrame) (f : MuxFrame) :
    encodeAll (fs ++ [f]) = encodeAll fs ++ f.encode := by
  rw [encodeAll, flatMap_append, flatMap_singleton]
  rfl

theorem encode_ne_nil (f : MuxFrame) : f.encode ≠ [] := by
  intro h
  have hlength := congrArg List.length h
  rw [MuxFrame.encode, length_append, length_map, length_append, length_cons]
    at hlength
  simp at hlength

theorem getElem?_concat_of_some {α : Type} {l : List α} {c : Nat} {a : α} (h : l[c]? = some a) (b : α) :
    (l ++ [b])[c]? = some a := by
  rw [List.getElem?_append_left (List.getElem?_eq_some_iff.mp h).1, h]

theorem of_getElem?_concat {α : Type} {l : List α} {c : Nat} {a b : α}
    (h : (l ++ [a])[c]? = some b) : l[c]? = some b ∨ (c = l.length ∧ a = b) := by
  rcases lt_trichotomy c l.length with hlt | rfl | hgt
  · rw [List.getElem?_append_left hlt] at h
    exact .inl h
  · rw [List.getElem?_concat_length] at h
    exact .inr ⟨rfl, Option.some.inj h⟩
  · rw [List.getElem?_eq_none (by rw [length_append, length_singleton]; omega)] at h
    cases h

namespace Multiplexer

variable {m m' : Multiplexer} {s s' : MuxStream} {i c : Nat} {k : UInt32}

def ids (m : Multiplexer) : List UInt32 := m.handles.map MuxStream.id

def channelIds (m : Multiplexer) : List UInt32 := m.channels.map Channel.id

def writes (side : Side) (m : Multiplexer) (k : UInt32) : List Octet :=
  gather MuxStream.id (fun s => s.tagged side s.written) k m.handles

def given (m : Multiplexer) (k : UInt32) : List Octet := gather Channel.id Channel.sent k m.channels

def live (m : Multiplexer) (k : UInt32) : Bool := (m.streams k).isSome

def received (m : Multiplexer) (c : Nat) : List Octet :=
  gather MuxStream.rx (fun s => s.taken ++ s.pending) c m.handles

/-- The invariant of one multiplexer alone: table, handles and channels belong together, and a
channel holds what was sent on it less what was received. -/
structure Local (m : Multiplexer) : Prop where
  table (k : UInt32) (c : Nat) (h : m.streams k = some c) : m.channelIds[c]? = some k
  readers (s : MuxStream) (h : s ∈ m.handles) : m.channelIds[s.rx]? = some s.id
  balance (c : Nat) (ch : Channel) (h : m.channels[c]? = some ch) :
    m.received c ++ ch.queue.flatten = ch.sent

theorem local_new : Local .new where
  table _ _ h := by cases h
  readers _ h := absurd h not_mem_nil
  balance _ _ h := by cases h

theorem Local.nodup_rx (h : m.Local) (hids : m.ids.Nodup) : (m.handles.map MuxStream.rx).Nodup := by
  refine Nodup.of_map (fun c => m.channelIds[c]?) ?_
  have hmap : (m.handles.map MuxStream.rx).map (fun c => m.channelIds[c]?) = m.ids.map some := by
    rw [ids, map_map, map_map]
    exact map_congr_left h.readers
  rw [hmap]
  exact hids.map (Option.some_injective _)

theorem length_channelIds (m : Multiplexer) : m.channelIds.length = m.channels.length :=
  length_map _

theorem exists_of_channelIds (h : m.channelIds[c]? = some k) :
    ∃ ch, m.channels[c]? = some ch ∧ ch.id = k := by
  rw [channelIds, List.getElem?_map] at h
  exact Option.map_eq_some_iff.mp h

theorem channelIds_insertStream (m : Multiplexer) (k : UInt32) :
    (m.insertStream k).channelIds = m.channelIds ++ [k] := map_append

theorem given_insertStream (m : Multiplexer) (k : UInt32) : (m.insertStream k).given = m.given :=
  funext fun _ => gather_concat_of_nil rfl

theorem live_insertStream (m : Multiplexer) (k : UInt32) :
    (m.insertStream k).live = Function.update m.live k true := by
  funext j
  by_cases hj : j = k
  · subst hj
    simp [live, insertStream]
  · simp [live, insertStream, hj]

theorem Local.received_length (h : m.Local) : m.received m.channels.length = [] := by
  refine gather_of_not_mem fun hmem => ?_
  obtain ⟨s, hs, hrx⟩ := mem_map.mp hmem
  have hlt := (List.getElem?_eq_some_iff.mp (h.readers s hs)).1
  rw [length_channelIds, hrx] at hlt
  exact lt_irrefl _ hlt

theorem Local.insertStream (h : m.Local) (k : UInt32) : (m.insertStream k).Local where
  table j c hj := by
    rw [channelIds_insertStream]
    by_cases hjk : j = k
    · subst hjk
      have hc : some m.channels.length = some c := (Function.update_self j _ m.streams).symm.trans hj
      cases hc
      rw [← m.length_channelIds]
      exact List.getElem?_concat_length
    · have hold : m.streams j = some c := (Function.update_of_ne hjk _ m.streams).symm.trans hj
      exact getElem?_concat_of_some (h.table j c hold) k
  readers s hs := by
    rw [channelIds_insertStream]
    exact getElem?_concat_of_some (h.readers s hs) k
  balance c ch hch := by
    rcases of_getElem?_concat hch with hold | ⟨rfl, rfl⟩
    · exact h.balance c ch hold
    · rw [flatten_nil, append_nil]
      exact h.received_length

theorem ids_addHandle (m : Multiplexer) (k : UInt32) (opened : Bool) (rx : Nat) :
    (m.addHandle k opened rx).ids = m.ids ++ [k] := map_append

theorem writes_addHandle (side : Side) (m : Multiplexer) (k : UInt32) (opened : Bool) (rx : Nat) :
    (m.addHandle k opened rx).writes side = m.writes side :=
  funext fun _ => gather_concat_of_nil rfl

theorem Local.addHandle (h : m.Local) {rx : Nat} (hrx : m.channelIds[rx]? = some k)
    (opened : Bool) : (m.addHandle k opened rx).Local where
  table := h.table
  readers s hs := by
    rcases mem_append.mp hs with hold | hnew
    · exact h.readers s hold
    · obtain rfl := mem_singleton.mp hnew
      exact hrx
  balance c ch hch := by
    have hsame : (m.addHandle k opened rx).received c = m.received c := gather_concat_of_nil rfl
    rw [hsame]
    exact h.balance c ch hch

def setHandle (m : Multiplexer) (i : Nat) (s' : MuxStream) : Multiplexer :=
  { m with handles := m.handles.set i s' }

theorem ids_setHandle (hi : m.handles[i]? = some s) (hid : s'.id = s.id) :
    (m.setHandle i s').ids = m.ids := map_key_set hi hid

theorem opened_setHandle {opened : Bool} (hall : ∀ s ∈ m.handles, s.opened = opened)
    (hi : m.handles[i]? = some s) (hopened : s'.opened = s.opened) :
    ∀ s ∈ (m.setHandle i s').handles, s.opened = opened := by
  intro r hr
  rcases mem_or_eq_of_mem_set hr with hold | rfl
  · exact hall r hold
  · exact hopened.trans (hall s (mem_of_getElem? hi))

theorem Local.setHandle (h : m.Local) (hi : m.handles[i]? = some s) (hid : s'.id = s.id)
    (hrx : s'.rx = s.rx) (htaken : s'.taken ++ s'.pending = s.taken ++ s.pending) :
    (m.setHandle i s').Local where
  table := h.table
  readers r hr := by
    rcases mem_or_eq_of_mem_set hr with hold | rfl
    · exact h.readers r hold
    · rw [hrx, hid]
      exact h.readers s (mem_of_getElem? hi)
  balance c ch hch := by
    have hsame : (m.setHandle i s').received c = m.received c := gather_set_of_eq hi hrx htaken
    rw [hsame]
    exact h.balance c ch hch

theorem flatten_recvPending (queue : List (List Octet)) :
    (recvPending queue).1 ++ (recvPending queue).2.flatten = queue.flatten := by
  induction queue with
  | nil => rfl
  | cons chunk queue ih =>
    cases chunk with
    | nil => exact ih
    | cons octet chunk => rfl

def setChannel (m : Multiplexer) (c : Nat) (ch' : Channel) : Multiplexer :=
  { m with channels := m.channels.set c ch' }

variable {ch ch' : Channel}

theorem channelIds_setChannel (hc : m.channels[c]? = some ch) (hid : ch'.id = ch.id) :
    (m.setChannel c ch').channelIds = m.channelIds := map_key_set hc hid

theorem given_setChannel (hc : m.channels[c]? = some ch) (hid : ch'.id = ch.id)
    (hsent : ch'.sent = ch.sent) : (m.setChannel c ch').given = m.given :=
  funext fun _ => gather_set_of_eq hc hid hsent

theorem getElem?_setChannel (hc : m.channels[c]? = some ch) (j : Nat) :
    (m.setChannel c ch').channels[j]? = if j = c then some ch' else m.channels[j]? := by
  have hlt := (List.getElem?_eq_some_iff.mp hc).1
  change (m.channels.set c ch')[j]? = _
  rw [List.getElem?_set]
  by_cases hj : c = j
  · rw [if_pos hj, if_pos hlt, if_pos hj.symm]
  · rw [if_neg hj, if_neg (Ne.symm hj)]

theorem Local.take (h : m.Local) (hids : m.ids.Nodup) (hi : m.handles[i]? = some s)
    (hc : m.channels[s.rx]? = some ch) (hid : s'.id = s.id) (hrx : s'.rx = s.rx)
    (hchannel : ch'.id = ch.id) (hsent : ch'.sent = ch.sent)
    (hmoved : s'.taken ++ s'.pending ++ ch'.queue.flatten
      = s.taken ++ s.pending ++ ch.queue.flatten) :
    ((m.setChannel s.rx ch').setHandle i s').Local where
  table k c hk := by
    change (m.setChannel s.rx ch').channelIds[c]? = _
    rw [channelIds_setChannel hc hchannel]
    exact h.table k c hk
  readers r hr := by
    change (m.setChannel s.rx ch').channelIds[r.rx]? = _
    rw [channelIds_setChannel hc hchannel]
    rcases mem_or_eq_of_mem_set hr with hold | rfl
    · exact h.readers r hold
    · rw [hrx, hid]
      exact h.readers s (mem_of_getElem? hi)
  balance c ch₀ hch₀ := by
    have hnodup := h.nodup_rx hids
    have hold := h.balance s.rx ch hc
    have hmine : m.received s.rx = s.taken ++ s.pending :=
      gather_of_mem hnodup (mem_of_getElem? hi)
    have hnew : ((m.setChannel s.rx ch').setHandle i s').received c
        = if c = s.rx then s'.taken ++ s'.pending else m.received c :=
      gather_set hnodup hi hrx
    have hcase : (if c = s.rx then some ch' else m.channels[c]?) = some ch₀ :=
      (getElem?_setChannel hc c).symm.trans hch₀
    by_cases hcs : c = s.rx
    · rw [if_pos hcs] at hcase hnew
      cases hcase
      rw [hnew, hmoved, hsent, ← hmine, hold]
    · rw [if_neg hcs] at hcase hnew
      rw [hnew]
      exact h.balance c ch₀ hcase

def push (m : Multiplexer) (c : Nat) (ch : Channel) (payload : List Octet) : Multiplexer :=
  m.setChannel c { ch with queue := ch.queue ++ [payload], sent := ch.sent ++ payload }

theorem channelIds_push (hc : m.channels[c]? = some ch) (payload : List Octet) :
    (m.push c ch payload).channelIds = m.channelIds := channelIds_setChannel hc rfl

theorem given_push (hchannels : m.channelIds.Nodup) (hc : m.channels[c]? = some ch)
    (payload : List Octet) (k : UInt32) :
    (m.push c ch payload).given k = if k = ch.id then m.given k ++ payload else m.given k := by
  have hset : (m.push c ch payload).given k
      = if k = ch.id then ch.sent ++ payload else m.given k := gather_set hchannels hc rfl
  rw [hset]
  by_cases hk : k = ch.id
  · have hmine : m.given k = ch.sent := hk ▸ gather_of_mem hchannels (mem_of_getElem? hc)
    rw [if_pos hk, if_pos hk, hmine]
  · rw [if_neg hk, if_neg hk]

theorem Local.push (h : m.Local) (hc : m.channels[c]? = some ch) (payload : List Octet) :
    (m.push c ch payload).Local where
  table k c' hk := by
    rw [channelIds_push hc]
    exact h.table k c' hk
  readers r hr := by
    rw [channelIds_push hc]
    exact h.readers r hr
  balance c' ch₀ hch₀ := by
    have hcase := (getElem?_setChannel hc c').symm.trans hch₀
    change m.received c' ++ _ = _
    by_cases hcs : c' = c
    · rw [if_pos hcs] at hcase
      cases hcase
      rw [flatten_append, flatten_singleton, ← append_assoc, hcs, h.balance c ch hc]
    · rw [if_neg hcs] at hcase
      exact h.balance c' ch₀ hcase

theorem Local.remove (h : m.Local) (k : UInt32) :
    Local { m with streams := Function.update m.streams k none } where
  table j c hj := by
    by_cases hjk : j = k
    · subst hjk
      have hnone : (none : Option Nat) = some c :=
        (Function.update_self j none m.streams).symm.trans hj
      cases hnone
    · exact h.table j c ((Function.update_of_ne hjk none m.streams).symm.trans hj)
  readers := h.readers
  balance := h.balance

theorem Local.stopDemux (h : m.Local) : m.stopDemux.Local where
  table _ _ hk := by cases hk
  readers := h.readers
  balance := h.balance

theorem Local.taken_isPrefix (h : m.Local) (hids : m.ids.Nodup) (hchannels : m.channelIds.Nodup)
    (hs : s ∈ m.handles) : s.taken <+: m.given s.id := by
  obtain ⟨ch, hc, hid⟩ := exists_of_channelIds (h.readers s hs)
  have hgiven : m.given s.id = ch.sent := by
    rw [← hid]
    exact gather_of_mem hchannels (mem_of_getElem? hc)
  have hmine : m.received s.rx = s.taken ++ s.pending := gather_of_mem (h.nodup_rx hids) hs
  rw [hgiven, ← h.balance s.rx ch hc, hmine, append_assoc]
  exact prefix_append _ _

end Multiplexer

/-- The frame a write or a close of a stream puts out. -/
inductive Emits (side : Side) (s : MuxStream) : MuxStream → MuxFrame → Prop
  | data (buf : Bytes) (hfits : (s.tagged side buf).length ≤ maxMuxPayload) :
      Emits side s { s with written := s.written ++ buf } ⟨s.id, .data, s.tagged side buf⟩
  | closed : Emits side s { s with closedWrite := true } ⟨s.id, .closed, []⟩

/-- Handle `i` sends frame `f`. -/
structure Sends (side : Side) (m m' : Multiplexer) (i : Nat) (s s' : MuxStream) (f : MuxFrame) :
    Prop where
  handle : m.handles[i]? = some s
  emits : Emits side s s' f
  writable : m.hungUp = false
  after : m' = { m.setHandle i s' with outbound := m.outbound ++ f.encode }

/-- Handle `i` reads from its channel: octets move, none is lost. -/
structure Takes (m m' : Multiplexer) (i : Nat) (s s' : MuxStream) (ch ch' : Channel) : Prop where
  handle : m.handles[i]? = some s
  channel : m.channels[s.rx]? = some ch
  stream : s' = { s with pending := s'.pending, taken := s'.taken }
  queue : ch' = { ch with queue := ch'.queue }
  moved : s'.taken ++ s'.pending ++ ch'.queue.flatten = s.taken ++ s.pending ++ ch.queue.flatten
  after : m' = (m.setChannel s.rx ch').setHandle i s'

theorem writeMuxFrame_eq_ok {w out : List Octet} {f : MuxFrame} :
    writeMuxFrame w f = .ok out ↔ f.payload.length ≤ maxMuxPayload ∧ out = w ++ f.encode := by
  unfold writeMuxFrame
  split
  · rename_i hlarge
    refine ⟨fun h => ?_, fun h => absurd h.1 (not_le.mpr hlarge)⟩
    cases h
  · rename_i hfits
    exact ⟨fun h => ⟨not_lt.mp hfits, (Except.ok.inj h).symm⟩, fun h => congrArg Except.ok h.2.symm⟩

section Inversion

variable {side : Side} {m m' : Multiplexer} {i : Nat}

theorem openInsert_eq_some (h : m.openInsert i = some m') :
    ∃ id, m.opening[i]? = some ⟨id, .allocated⟩
      ∧ m' = { m.insertStream id with
          opening := m.opening.set i ⟨id, .inserted m.channels.length⟩ } := by
  unfold Multiplexer.openInsert at h
  split at h
  · rename_i id hcall
    exact ⟨id, hcall, (Option.some.inj h).symm⟩
  · cases h

theorem openWrite_eq_some (h : m.openWrite i = some m') :
    ∃ id rx, m.opening[i]? = some ⟨id, .inserted rx⟩ ∧ m.hungUp = false
      ∧ m' = { m.addHandle id true rx with
          outbound := m.outbound ++ MuxFrame.encode ⟨id, .opened, []⟩
          opening := m.opening.set i ⟨id, .returned⟩ } := by
  unfold Multiplexer.openWrite at h
  split at h
  · rename_i id rx hcall
    split at h
    · cases h
    rename_i out hout
    obtain ⟨-, rfl⟩ := writeMuxFrame_eq_ok.mp hout
    split at h
    · cases h
    · rename_i hhung
      exact ⟨id, rx, hcall, eq_false_of_ne_true hhung, (Option.some.inj h).symm⟩
  · cases h

theorem write_eq_some {buf : Bytes} (h : m.write side i buf = some m') :
    m' = m ∨ ∃ s s' f, Sends side m m' i s s' f := by
  unfold Multiplexer.write at h
  split at h
  · cases h
  rename_i s hs
  split at h
  · cases h
  rename_i hhung
  split at h
  · exact .inl (Option.some.inj h).symm
  rename_i out hout
  obtain ⟨hfits, rfl⟩ := writeMuxFrame_eq_ok.mp hout
  exact .inr ⟨s, _, _, hs, .data buf hfits, eq_false_of_ne_true hhung,
    (Option.some.inj h).symm⟩

theorem close_eq_some (side : Side) (h : m.close i = some m') :
    m' = m ∨ ∃ s s' f, Sends side m m' i s s' f := by
  unfold Multiplexer.close at h
  split at h
  · cases h
  rename_i s hs
  split at h
  · exact .inl (Option.some.inj h).symm
  split at h
  · cases h
  rename_i hhung
  split at h
  · cases h
  · rename_i out hout
    obtain ⟨-, rfl⟩ := writeMuxFrame_eq_ok.mp hout
    exact .inr ⟨s, _, _, hs, .closed, eq_false_of_ne_true hhung, (Option.some.inj h).symm⟩

theorem read_eq_some {len : Nat} (h : m.read i len = some m') :
    m' = m ∨ ∃ s s' ch ch', Takes m m' i s s' ch ch' := by
  unfold Multiplexer.read at h
  split at h
  · cases h
  rename_i s hs
  split at h
  · cases h
  rename_i ch hch
  split at h
  · exact .inl (Option.some.inj h).symm
  obtain ⟨pending, queue, hnext, hflatten⟩ : ∃ pending queue,
      (if s.pending = [] then Multiplexer.recvPending ch.queue else (s.pending, ch.queue))
        = (pending, queue)
      ∧ pending ++ queue.flatten = s.pending ++ ch.queue.flatten := by
    split
    · rename_i hempty
      refine ⟨_, _, rfl, ?_⟩
      rw [hempty]
      exact Multiplexer.flatten_recvPending ch.queue
    · exact ⟨_, _, rfl, rfl⟩
  rw [hnext] at h
  dsimp only at h
  split at h
  · cases h
  · refine .inr ⟨s, _, ch, _, hs, hch, rfl, rfl, ?_, (Option.some.inj h).symm⟩
    rw [append_assoc s.taken, take_append_drop, append_assoc, hflatten,
      append_assoc]

end Inversion

section Frame

variable {side : Side} {m m' : Multiplexer} {i : Nat} {s s' : MuxStream} {f : MuxFrame}
  {ch ch' : Channel}

theorem Emits.same (h : Emits side s s' f) : s'.id = s.id ∧ s'.rx = s.rx ∧ s'.opened = s.opened
      ∧ s'.taken ++ s'.pending = s.taken ++ s.pending := by
  cases h <;> exact ⟨rfl, rfl, rfl, rfl⟩

theorem Emits.frame (h : Emits side s s' f) :
    f.streamId = s.id ∧ f.kind ≠ .opened ∧ f.payload.length ≤ maxMuxPayload := by
  cases h with
  | data buf hfits => exact ⟨rfl, FrameKind.noConfusion, hfits⟩
  | closed => exact ⟨rfl, FrameKind.noConfusion, Nat.zero_le _⟩

namespace Sends

variable (h : Sends side m m' i s s' f)

include h

theorem isLocal (hlocal : m.Local) : m'.Local := by
  obtain ⟨hid, hrx, -, htaken⟩ := h.emits.same
  obtain ⟨htable, hreaders, hbalance⟩ := hlocal.setHandle h.handle hid hrx htaken
  rw [h.after]
  exact ⟨htable, hreaders, hbalance⟩

theorem ids_eq : m'.ids = m.ids := by
  rw [h.after]
  exact Multiplexer.ids_setHandle h.handle h.emits.same.1

theorem all_opened {opened : Bool} (hall : ∀ s ∈ m.handles, s.opened = opened) :
    ∀ s ∈ m'.handles, s.opened = opened := by
  rw [h.after]
  exact Multiplexer.opened_setHandle hall h.handle h.emits.same.2.2.1

end Sends

namespace Takes

variable (h : Takes m m' i s s' ch ch')

include h

theorem id_eq : s'.id = s.id := by rw [h.stream]

theorem isLocal (hlocal : m.Local) (hids : m.ids.Nodup) : m'.Local := by
  have hrx : s'.rx = s.rx := by rw [h.stream]
  have hchannel : ch'.id = ch.id := by rw [h.queue]
  have hsent : ch'.sent = ch.sent := by rw [h.queue]
  rw [h.after]
  exact hlocal.take hids h.handle h.channel h.id_eq hrx hchannel hsent h.moved

theorem ids_eq : m'.ids = m.ids := by
  rw [h.after]
  exact Multiplexer.ids_setHandle (m := m.setChannel s.rx ch') h.handle h.id_eq

theorem channelIds_eq : m'.channelIds = m.channelIds := by
  rw [h.after]
  exact Multiplexer.channelIds_setChannel h.channel (by rw [h.queue])

theorem given_eq : m'.given = m.given := by
  rw [h.after]
  exact Multiplexer.given_setChannel h.channel (by rw [h.queue]) (by rw [h.queue])

theorem writes_eq (side : Side) : m'.writes side = m.writes side := by
  have htagged : s'.tagged side s'.written = s.tagged side s.written := by rw [h.stream]; rfl
  rw [h.after]
  exact funext fun _ => gather_set_of_eq h.handle h.id_eq htagged

theorem all_opened {opened : Bool} (hall : ∀ s ∈ m.handles, s.opened = opened) :
    ∀ s ∈ m'.handles, s.opened = opened := by
  rw [h.after]
  exact Multiplexer.opened_setHandle (m := m.setChannel s.rx ch') hall h.handle (by rw [h.stream])

end Takes

end Frame

/-- Routing a frame concerns the channels and the table only. -/
theorem route_frame (r : Multiplexer) (f : MuxFrame) :
    (r.route f).handles = r.handles ∧ (r.route f).opening = r.opening
      ∧ (r.route f).nextId = r.nextId ∧ (r.route f).outbound = r.outbound
      ∧ (r.route f).hungUp = r.hungUp ∧ (r.route f).demuxing = r.demuxing := by
  obtain ⟨id, kind, payload⟩ := f
  cases kind with
  | opened => exact ⟨rfl, rfl, rfl, rfl, rfl, rfl⟩
  | data =>
    unfold Multiplexer.route
    dsimp only
    split <;> exact ⟨rfl, rfl, rfl, rfl, rfl, rfl⟩
  | closed => exact ⟨rfl, rfl, rfl, rfl, rfl, rfl⟩

end Npamp.Rust.Tunnel
