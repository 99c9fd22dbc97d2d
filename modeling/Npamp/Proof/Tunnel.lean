import Mathlib.Data.Fintype.Basic
import Npamp.Lib.Mux
import Npamp.Lib.Run
import Npamp.Proof.TunnelEnd

/-!
# The tunnel with one end that opens

Where only one end opens streams, every stream has an id of its own and each direction is a
multiplexed FIFO.
-/

namespace Npamp.Rust.Tunnel

open Function Multiplexer List
open Gather
open Mux

variable {s s' : MuxStream}

/-! ### Frames as signals -/

/-- What a frame says of its stream. -/
def MuxFrame.signal (f : MuxFrame) : Signal UInt32 Octet :=
  match f.kind with
  | .opened => .opened f.streamId
  | .data => .data f.streamId f.payload
  | .closed => .closed f.streamId

theorem MuxFrame.key_signal (f : MuxFrame) : f.signal.key = f.streamId := by
  unfold signal
  cases f.kind <;> rfl

/-- The streams that the frames open, in order. -/
def openedIds (fs : List MuxFrame) : List UInt32 :=
  (fs.filter fun f => f.kind = .opened).map MuxFrame.streamId

def newIds (events : List RouterEvent) : List UInt32 :=
  events.filterMap fun e =>
    match e with
    | .newStream id _ => some id
    | .closed => none

/-! ### One direction -/

/-- One direction of the tunnel: the octets written are those of the frames `fs` still on the way,
and with these the receiver has, stream by stream, what the sender wrote. -/
structure Link (side : Side) (s r : Multiplexer) (fs : List MuxFrame) : Prop where
  outbound : s.outbound = encodeAll fs
  fits (f : MuxFrame) (hf : f ∈ fs) : f.payload.length ≤ maxMuxPayload
  carries : Carries (s.writes side) r.live r.given (fs.map MuxFrame.signal)
  stopped (h : r.demuxing = false) : fs = [] ∧ s.hungUp = true

theorem link_new (side : Side) : Link side .new .new [] where
  outbound := rfl
  fits _ hf := absurd hf not_mem_nil
  carries := carries_nil
  stopped h := by cases h

namespace Link

variable {side : Side} {s s' r r' : Multiplexer} {fs : List MuxFrame} {f : MuxFrame}

theorem sender (h : Link side s r fs) (hout : s'.outbound = s.outbound)
    (hwrites : s'.writes side = s.writes side) (hhung : s.hungUp = true → s'.hungUp = true) :
    Link side s' r fs where
  outbound := hout.trans h.outbound
  fits := h.fits
  carries := hwrites ▸ h.carries
  stopped hr := ⟨(h.stopped hr).1, hhung (h.stopped hr).2⟩

theorem receiver (h : Link side s r fs) (hlive : r'.live = r.live) (hgiven : r'.given = r.given)
    (hdemux : r'.demuxing = r.demuxing) : Link side s r' fs where
  outbound := h.outbound
  fits := h.fits
  carries := hlive ▸ hgiven ▸ h.carries
  stopped hr := h.stopped (hdemux ▸ hr)

theorem put (h : Link side s r fs) (hhung : s.hungUp = false)
    (hfits : f.payload.length ≤ maxMuxPayload) (hout : s'.outbound = s.outbound ++ f.encode)
    (hcarries : Carries (s'.writes side) r.live r.given (fs.map MuxFrame.signal ++ [f.signal])) :
    Link side s' r (fs ++ [f]) where
  outbound := by rw [hout, h.outbound, encodeAll_concat]
  fits g hg := by
    rcases mem_append.mp hg with hold | hnew
    · exact h.fits g hold
    · exact mem_singleton.mp hnew ▸ hfits
  carries := by
    rw [map_append]
    exact hcarries
  stopped hr := by
    have hup := (h.stopped hr).2
    rw [hhung] at hup
    cases hup

/-- What a reader has taken is the beginning of what the other end wrote on the stream. -/
theorem taken_isPrefix (h : Link side s r fs) (hlocal : r.Local) (hids : r.ids.Nodup)
    (hchannels : r.channelIds.Nodup) {x : MuxStream} (hx : x ∈ r.handles) :
    x.taken <+: s.writes side x.id :=
  (hlocal.taken_isPrefix hids hchannels hx).trans (h.carries.isPrefix x.id)

theorem send (h : Link side s r fs) (hids : s.ids.Nodup) {i : Nat} {x x' : MuxStream}
    (hsends : Sends side s s' i x x' f) : Link side s' r (fs ++ [f]) := by
  have hout : s'.outbound = s.outbound ++ f.encode := by rw [hsends.after]
  refine h.put hsends.writable hsends.emits.frame.2.2 hout ?_
  have hwrites (k : UInt32) : s'.writes side k
      = if k = x.id then x'.tagged side x'.written else s.writes side k := by
    rw [hsends.after]
    exact gather_set hids hsends.handle hsends.emits.same.1
  have hmine : s.writes side x.id = x.tagged side x.written :=
    gather_of_mem hids (mem_of_getElem? hsends.handle)
  cases hsends.emits with
  | data buf hfits =>
    refine h.carries.put_data _ ?_ fun k hk => ?_
    · rw [hwrites, if_pos rfl, hmine]
      exact map_append
    · rw [hwrites, if_neg hk]
  | closed =>
    have hsame : s'.writes side = s.writes side := by
      funext k
      rw [hwrites]
      split
      · rename_i hk
        rw [hk, hmine]
        rfl
      · rfl
    rw [hsame]
    exact h.carries.put_closed x.id

end Link

/-! ### The demux loop -/

section Route

variable {r : Multiplexer} {id : UInt32} {c : Nat} {ch : Channel} {payload : List Octet}

theorem route_data_none (hstream : r.streams id = none) : r.route ⟨id, .data, payload⟩ = r := by
  simp only [route, hstream]

theorem route_data_some (hstream : r.streams id = some c) (hc : r.channels[c]? = some ch) :
    r.route ⟨id, .data, payload⟩ = r.push c ch payload := by
  simp only [route, hstream]
  rw [push, setChannel, modify_eq_set_getElem?, hc]
  rfl

theorem route_receive (h : r.Local) (hchannels : r.channelIds.Nodup) (f : MuxFrame) (k : UInt32) :
    ((r.route f).live k, (r.route f).given k) = receive k (r.live k, r.given k) f.signal := by
  obtain ⟨id, kind, payload⟩ := f
  cases kind with
  | opened =>
    change ((r.insertStream id).live k, (r.insertStream id).given k)
      = if id = k then (true, r.given k) else (r.live k, r.given k)
    rw [live_insertStream, given_insertStream]
    by_cases hk : id = k
    · rw [if_pos hk, hk, update_self]
    · rw [if_neg hk, update_of_ne (Ne.symm hk)]
  | data =>
    change _ = if id = k ∧ r.live k = true then (true, r.given k ++ payload)
      else (r.live k, r.given k)
    cases hstream : r.streams id with
    | none =>
      rw [route_data_none hstream, if_neg]
      rintro ⟨rfl, hlive⟩
      rw [live, hstream] at hlive
      cases hlive
    | some c =>
      obtain ⟨ch, hc, hid⟩ := exists_of_channelIds (h.table id c hstream)
      rw [route_data_some hstream hc, given_push hchannels hc, hid]
      change (r.live k, _) = _
      by_cases hk : id = k
      · subst hk
        have hlive : r.live id = true := by rw [live, hstream]; rfl
        rw [if_pos rfl, if_pos ⟨rfl, hlive⟩, hlive]
      · rw [if_neg (Ne.symm hk), if_neg fun h => hk h.1]
  | closed =>
    change ((update r.streams id none k).isSome, r.given k)
      = if id = k then (false, r.given k) else (r.live k, r.given k)
    by_cases hk : id = k
    · rw [if_pos hk, hk, update_self]
      rfl
    · rw [if_neg hk, update_of_ne (Ne.symm hk)]
      rfl

theorem Multiplexer.Local.route (h : r.Local) (f : MuxFrame) : (r.route f).Local := by
  obtain ⟨id, kind, payload⟩ := f
  cases kind with
  | opened =>
    obtain ⟨htable, hreaders, hbalance⟩ := h.insertStream id
    exact ⟨htable, hreaders, hbalance⟩
  | data =>
    cases hstream : r.streams id with
    | none => rwa [route_data_none hstream]
    | some c =>
      obtain ⟨ch, hc, -⟩ := exists_of_channelIds (h.table id c hstream)
      rw [route_data_some hstream hc]
      exact h.push hc payload
  | closed =>
    obtain ⟨htable, hreaders, hbalance⟩ := h.remove id
    exact ⟨htable, hreaders, hbalance⟩

theorem channelIds_route (h : r.Local) (f : MuxFrame) :
    (r.route f).channelIds = r.channelIds ++ openedIds [f] := by
  obtain ⟨id, kind, payload⟩ := f
  cases kind with
  | opened => exact r.channelIds_insertStream id
  | data =>
    change _ = r.channelIds ++ []
    rw [append_nil]
    cases hstream : r.streams id with
    | none => rw [route_data_none hstream]
    | some c =>
      obtain ⟨ch, hc, -⟩ := exists_of_channelIds (h.table id c hstream)
      rw [route_data_some hstream hc, channelIds_push hc]
  | closed => exact (append_nil _).symm

theorem newIds_route (r : Multiplexer) (f : MuxFrame) :
    newIds (r.route f).acceptRx = newIds r.acceptRx ++ openedIds [f] := by
  obtain ⟨id, kind, payload⟩ := f
  cases kind with
  | opened => exact filterMap_append
  | data =>
    change _ = newIds r.acceptRx ++ []
    rw [append_nil]
    unfold route
    dsimp only
    split <;> rfl
  | closed => exact filterMap_append

theorem of_mem_acceptRx_route {f : MuxFrame} {k : UInt32}
    (h : .newStream k c ∈ (r.route f).acceptRx) :
    .newStream k c ∈ r.acceptRx ∨ (openedIds [f] = [k] ∧ c = r.channels.length) := by
  obtain ⟨id, kind, payload⟩ := f
  cases kind with
  | opened =>
    rcases mem_append.mp h with hold | hnew
    · exact .inl hold
    · cases mem_singleton.mp hnew
      exact .inr ⟨rfl, rfl⟩
  | data =>
    unfold route at h
    dsimp only at h
    split at h <;> exact .inl h
  | closed =>
    rcases mem_append.mp h with hold | hnew
    · exact .inl hold
    · cases mem_singleton.mp hnew

theorem acceptRx_route {f : MuxFrame} (hf : f.kind ≠ .opened) :
    ∀ e ∈ (r.route f).acceptRx, e ∈ r.acceptRx ∨ e = .closed := by
  obtain ⟨id, kind, payload⟩ := f
  cases kind with
  | opened => exact absurd rfl hf
  | data =>
    intro e he
    unfold route at he
    dsimp only at he
    split at he <;> exact .inl he
  | closed =>
    intro e he
    exact (mem_append.mp he).imp_right mem_singleton.mp

end Route

namespace Link

variable {side : Side} {s s' r : Multiplexer} {fs : List MuxFrame} {f : MuxFrame}

theorem next (h : Link side s r (f :: fs)) (hlocal : r.Local) (hchannels : r.channelIds.Nodup) :
    Link side { s with outbound := encodeAll fs } (r.route f) fs where
  outbound := rfl
  fits g hg := h.fits g (mem_cons_of_mem _ hg)
  carries := h.carries.next (route_receive hlocal hchannels f)
  stopped hr := by
    rw [(route_frame r f).2.2.2.2.2] at hr
    cases (h.stopped hr).1

theorem stop (h : Link side s r []) (hhung : s.hungUp = true) : Link side s r.stopDemux [] where
  outbound := h.outbound
  fits := h.fits
  carries := h.carries.stop
  stopped _ := ⟨rfl, hhung⟩

theorem readMuxFrame_eq (h : Link side s r (f :: fs)) :
    readMuxFrame s.hungUp s.outbound = some (.ok (some (f, encodeAll fs))) := by
  rw [h.outbound]
  exact readMuxFrame_encode (h.fits f mem_cons_self) _ _

theorem readMuxFrame_nil (h : Link side s r []) :
    readMuxFrame s.hungUp s.outbound = if s.hungUp = false then none else some (.ok none) := by
  rw [h.outbound]
  rfl

end Link

/-! ### The end that opens streams -/

/-- The calls have the identifiers from 1 on, in order. -/
structure Numbered (opening : List OpenCall) (nextId : UInt32) : Prop where
  callIds (i : Nat) (call : OpenCall) (h : opening[i]? = some call) : call.id.toNat = i + 1
  nextId_eq : nextId.toNat = opening.length + 1
  few : opening.length < 2 ^ 32 - 1

namespace Numbered

variable {opening : List OpenCall} {nextId id : UInt32} {i j : Nat} {call call' : OpenCall}

theorem ne_of_ne (h : Numbered opening nextId) (hi : opening[i]? = some call)
    (hj : opening[j]? = some call') (hij : i ≠ j) : call'.id ≠ call.id := by
  intro hid
  have hi' := h.callIds i call hi
  have hj' := h.callIds j call' hj
  rw [hid] at hj'
  omega

theorem nextId_ne (h : Numbered opening nextId) (hcall : call ∈ opening) : call.id ≠ nextId := by
  intro hid
  obtain ⟨j, hj⟩ := List.getElem?_of_mem hcall
  have hlt := (List.getElem?_eq_some_iff.mp hj).1
  have hnumber := h.callIds j call hj
  have hnext := h.nextId_eq
  rw [hid] at hnumber
  omega

theorem allocate (h : Numbered opening nextId) (hfew : opening.length + 1 < 2 ^ 32 - 1)
    (stage : OpenStage) : Numbered (opening ++ [⟨nextId, stage⟩]) (nextId + 1) where
  callIds j call hj := by
    rcases of_getElem?_concat hj with hold | ⟨rfl, rfl⟩
    · exact h.callIds j call hold
    · exact h.nextId_eq
  nextId_eq := by
    have hnext := h.nextId_eq
    rw [UInt32.toNat_add, hnext, length_append, length_singleton]
    exact Nat.mod_eq_of_lt (by simp; omega)
  few := by
    rw [length_append, length_singleton]
    exact hfew

theorem of_getElem?_set (hi : opening[i]? = some call) {next : OpenCall}
    (hj : (opening.set i next)[j]? = some call') :
    (i = j ∧ call' = next) ∨ (i ≠ j ∧ opening[j]? = some call') := by
  have hlt := (List.getElem?_eq_some_iff.mp hi).1
  rw [List.getElem?_set] at hj
  by_cases hij : i = j
  · rw [if_pos hij, if_pos hlt] at hj
    exact .inl ⟨hij, (Option.some.inj hj).symm⟩
  · rw [if_neg hij] at hj
    exact .inr ⟨hij, hj⟩

theorem map_id_set (hi : opening[i]? = some call) (stage : OpenStage) :
    (opening.set i ⟨call.id, stage⟩).map OpenCall.id = opening.map OpenCall.id :=
  map_key_set hi rfl

theorem set (h : Numbered opening nextId) (hi : opening[i]? = some call) (stage : OpenStage) :
    Numbered (opening.set i ⟨call.id, stage⟩) nextId where
  callIds j call' hj := by
    rcases of_getElem?_set hi hj with ⟨rfl, rfl⟩ | ⟨-, hold⟩
    · exact h.callIds i call hi
    · exact h.callIds j call' hold
  nextId_eq := by rw [length_set, h.nextId_eq]
  few := by
    rw [length_set]
    exact h.few

end Numbered

/-- The channels and handles of the end belong to its calls of `open_stream`. -/
structure Opener (m : Multiplexer) : Prop where
  numbered : Numbered m.opening m.nextId
  allocated (i : Nat) (id : UInt32) (h : m.opening[i]? = some ⟨id, .allocated⟩) :
    id ∉ m.channelIds
  inserted (i : Nat) (id : UInt32) (rx : Nat) (h : m.opening[i]? = some ⟨id, .inserted rx⟩) :
    m.channelIds[rx]? = some id ∧ id ∉ m.ids
  known (k : UInt32) (hk : k ∈ m.channelIds) : k ∈ m.opening.map OpenCall.id
  nodup_channelIds : m.channelIds.Nodup
  nodup_ids : m.ids.Nodup
  opened (s : MuxStream) (hs : s ∈ m.handles) : s.opened = true
  events (e : RouterEvent) (he : e ∈ m.acceptRx) : e = .closed

theorem opener_new : Opener .new where
  numbered := ⟨fun _ _ h => (by cases h), rfl, by decide⟩
  allocated _ _ h := by cases h
  inserted _ _ _ h := by cases h
  known _ hk := absurd hk not_mem_nil
  nodup_channelIds := nodup_nil
  nodup_ids := nodup_nil
  opened _ hs := absurd hs not_mem_nil
  events _ he := absurd he not_mem_nil

theorem nodup_concat {α : Type} {l : List α} {a : α} (hl : l.Nodup) (ha : a ∉ l) :
    (l ++ [a]).Nodup :=
  nodup_append.mpr ⟨hl, nodup_singleton a, fun _ hb _ hb' heq =>
    ha (mem_singleton.mp hb' ▸ heq ▸ hb)⟩

namespace Opener

variable {m m' : Multiplexer} {i : Nat} {id : UInt32}

theorem congr (h : Opener m) (hopening : m'.opening = m.opening) (hnext : m'.nextId = m.nextId)
    (hchannels : m'.channelIds = m.channelIds) (hids : m'.ids = m.ids)
    (hopened : ∀ s ∈ m'.handles, s.opened = true) (hevents : ∀ e ∈ m'.acceptRx, e = .closed) :
    Opener m' where
  numbered := by rw [hopening, hnext]; exact h.numbered
  allocated := by rw [hopening, hchannels]; exact h.allocated
  inserted := by rw [hopening, hchannels, hids]; exact h.inserted
  known := by rw [hopening, hchannels]; exact h.known
  nodup_channelIds := hchannels ▸ h.nodup_channelIds
  nodup_ids := hids ▸ h.nodup_ids
  opened := hopened
  events := hevents

theorem allocate (h : Opener m) (hfew : m.opening.length + 1 < 2 ^ 32 - 1) : Opener m.allocate where
  numbered := h.numbered.allocate hfew .allocated
  allocated j id' hj := by
    rcases of_getElem?_concat hj with hold | ⟨-, hnew⟩
    · exact h.allocated j id' hold
    cases hnew
    intro hmem
    obtain ⟨call, hcall, hid⟩ := mem_map.mp (h.known _ hmem)
    exact h.numbered.nextId_ne hcall hid
  inserted j id' rx hj := by
    rcases of_getElem?_concat hj with hold | ⟨-, hnew⟩
    · exact h.inserted j id' rx hold
    · cases hnew
  known k hk := by
    rw [show m.allocate.opening = m.opening ++ [⟨m.nextId, .allocated⟩] from rfl, map_append]
    exact mem_append_left _ (h.known k hk)
  nodup_channelIds := h.nodup_channelIds
  nodup_ids := h.nodup_ids
  opened := h.opened
  events := h.events

theorem openInsert (h : Opener m) (hlocal : m.Local) (hi : m.opening[i]? = some ⟨id, .allocated⟩) :
    Opener { m.insertStream id with
      opening := m.opening.set i ⟨id, .inserted m.channels.length⟩ } := by
  have hfresh := h.allocated i id hi
  have hchannels : (m.insertStream id).channelIds = m.channelIds ++ [id] :=
    m.channelIds_insertStream id
  refine ⟨h.numbered.set hi _, ?_, ?_, ?_, ?_, h.nodup_ids, h.opened, h.events⟩
  · intro j id' hj
    rcases Numbered.of_getElem?_set hi hj with ⟨-, hnew⟩ | ⟨hij, hold⟩
    · cases hnew
    · change id' ∉ (m.insertStream id).channelIds
      rw [hchannels, mem_append, mem_singleton, not_or]
      exact ⟨h.allocated j id' hold, h.numbered.ne_of_ne hi hold hij⟩
  · intro j id' rx hj
    change (m.insertStream id).channelIds[rx]? = some id' ∧ id' ∉ m.ids
    rw [hchannels]
    rcases Numbered.of_getElem?_set hi hj with ⟨-, hnew⟩ | ⟨-, hold⟩
    · cases hnew
      refine ⟨?_, fun hmem => ?_⟩
      · rw [← m.length_channelIds]
        exact List.getElem?_concat_length
      · obtain ⟨s, hs, hid⟩ := mem_map.mp hmem
        exact hfresh (hid ▸ mem_of_getElem? (hlocal.readers s hs))
    · obtain ⟨hrx, hids⟩ := h.inserted j id' rx hold
      exact ⟨getElem?_concat_of_some hrx id, hids⟩
  · intro k hk
    change k ∈ (m.insertStream id).channelIds at hk
    rw [hchannels] at hk
    change k ∈ (m.opening.set i _).map OpenCall.id
    rw [Numbered.map_id_set hi]
    rcases mem_append.mp hk with hold | hnew
    · exact h.known k hold
    · rw [mem_singleton.mp hnew]
      exact mem_map_of_mem (mem_of_getElem? hi)
  · change (m.insertStream id).channelIds.Nodup
    rw [hchannels]
    exact nodup_concat h.nodup_channelIds hfresh

theorem openWrite (h : Opener m) {rx : Nat} (hi : m.opening[i]? = some ⟨id, .inserted rx⟩)
    (outbound : List Octet) : Opener { m.addHandle id true rx with
      outbound := outbound, opening := m.opening.set i ⟨id, .returned⟩ } := by
  obtain ⟨-, hfresh⟩ := h.inserted i id rx hi
  refine ⟨h.numbered.set hi _, ?_, ?_, ?_, h.nodup_channelIds, ?_, ?_, h.events⟩
  · intro j id' hj
    rcases Numbered.of_getElem?_set hi hj with ⟨-, hnew⟩ | ⟨-, hold⟩
    · cases hnew
    · exact h.allocated j id' hold
  · intro j id' rx' hj
    rcases Numbered.of_getElem?_set hi hj with ⟨-, hnew⟩ | ⟨hij, hold⟩
    · cases hnew
    obtain ⟨hrx, hids⟩ := h.inserted j id' rx' hold
    refine ⟨hrx, ?_⟩
    change id' ∉ (m.addHandle id true rx).ids
    rw [m.ids_addHandle, mem_append, mem_singleton, not_or]
    exact ⟨hids, h.numbered.ne_of_ne hi hold hij⟩
  · intro k hk
    change k ∈ (m.opening.set i _).map OpenCall.id
    rw [Numbered.map_id_set hi]
    exact h.known k hk
  · change (m.addHandle id true rx).ids.Nodup
    rw [m.ids_addHandle]
    exact nodup_concat h.nodup_ids hfresh
  · intro s hs
    rcases mem_append.mp hs with hold | hnew
    · exact h.opened s hold
    · rw [mem_singleton.mp hnew]

end Opener

/-! ### The end that accepts streams -/

/-- The ids of the opened streams, in the order they were opened: those the end has accepted, those
it is about to accept, and those it has not read yet. -/
structure Acceptor (n : Multiplexer) (ids : List UInt32) (fs : List MuxFrame) : Prop where
  noCalls : n.opening = []
  pairing : n.channelIds ++ openedIds fs = ids
  accepting : n.ids ++ newIds n.acceptRx = n.channelIds
  events (k : UInt32) (c : Nat) (h : .newStream k c ∈ n.acceptRx) : n.channelIds[c]? = some k
  accepted (s : MuxStream) (hs : s ∈ n.handles) : s.opened = false

theorem acceptor_new : Acceptor .new [] [] :=
  ⟨rfl, rfl, rfl, fun _ _ h => absurd h not_mem_nil, fun _ h => absurd h not_mem_nil⟩

theorem openedIds_append (fs gs : List MuxFrame) :
    openedIds (fs ++ gs) = openedIds fs ++ openedIds gs := by
  rw [openedIds, filter_append, map_append]
  rfl

namespace Acceptor

variable {n n' : Multiplexer} {ids : List UInt32} {fs : List MuxFrame} {f : MuxFrame}

theorem congr (h : Acceptor n ids fs) (hopening : n'.opening = n.opening)
    (hchannels : n'.channelIds = n.channelIds) (hids : n'.ids = n.ids)
    (haccept : n'.acceptRx = n.acceptRx) (haccepted : ∀ s ∈ n'.handles, s.opened = false) :
    Acceptor n' ids fs where
  noCalls := hopening.trans h.noCalls
  pairing := hchannels ▸ h.pairing
  accepting := by rw [hids, haccept, hchannels, h.accepting]
  events := by rw [haccept, hchannels]; exact h.events
  accepted := haccepted

theorem nodup_channelIds (h : Acceptor n ids fs) (hids : ids.Nodup) : n.channelIds.Nodup :=
  (h.pairing ▸ hids).of_append_left

theorem nodup_ids (h : Acceptor n ids fs) (hids : ids.Nodup) : n.ids.Nodup :=
  (h.accepting ▸ h.nodup_channelIds hids).of_append_left

theorem ids_subset (h : Acceptor n ids fs) : n.ids ⊆ ids := by
  rw [← h.pairing, ← h.accepting]
  exact fun k hk => mem_append_left _ (mem_append_left _ hk)

theorem put (h : Acceptor n ids fs) (f : MuxFrame) : Acceptor n (ids ++ openedIds [f]) (fs ++ [f]) where
  noCalls := h.noCalls
  pairing := by rw [openedIds_append, ← append_assoc, h.pairing]
  accepting := h.accepting
  events := h.events
  accepted := h.accepted

theorem route (h : Acceptor n ids (f :: fs)) (hlocal : n.Local) : Acceptor (n.route f) ids fs := by
  obtain ⟨hhandles, hopening, -⟩ := route_frame n f
  have hids : (n.route f).ids = n.ids := congrArg (map MuxStream.id) hhandles
  refine ⟨hopening.trans h.noCalls, ?_, ?_, ?_, hhandles ▸ h.accepted⟩
  · rw [channelIds_route hlocal, append_assoc, ← openedIds_append]
    exact h.pairing
  · rw [hids, channelIds_route hlocal, newIds_route, ← append_assoc, h.accepting]
  intro k c hevent
  rw [channelIds_route hlocal]
  rcases of_mem_acceptRx_route hevent with hold | ⟨hnew, rfl⟩
  · rw [List.getElem?_append_left (List.getElem?_eq_some_iff.mp (h.events k c hold)).1]
    exact h.events k c hold
  · rw [hnew, ← n.length_channelIds]
    exact List.getElem?_concat_length

theorem accept (h : Acceptor n ids fs) {k : UInt32} {rx : Nat} {events : List RouterEvent}
    (hevents : n.acceptRx = .newStream k rx :: events) :
    Acceptor { n.addHandle k false rx with acceptRx := events } ids fs where
  noCalls := h.noCalls
  pairing := h.pairing
  accepting := by
    have haccepting := h.accepting
    rw [hevents] at haccepting
    change (n.addHandle k false rx).ids ++ newIds events = n.channelIds
    rw [n.ids_addHandle, append_assoc]
    exact haccepting
  events j c hevent := h.events j c (hevents ▸ mem_cons_of_mem _ hevent)
  accepted s hs := by
    rcases mem_append.mp hs with hold | hnew
    · exact h.accepted s hold
    · rw [mem_singleton.mp hnew]

theorem skip (h : Acceptor n ids fs) {events : List RouterEvent}
    (hevents : n.acceptRx = .closed :: events) : Acceptor { n with acceptRx := events } ids fs where
  noCalls := h.noCalls
  pairing := h.pairing
  accepting := by
    have haccepting := h.accepting
    rw [hevents] at haccepting
    exact haccepting
  events j c hevent := h.events j c (hevents ▸ mem_cons_of_mem _ hevent)
  accepted := h.accepted

end Acceptor

/-! ### Both ends -/

/-- What holds in every run in which only the end `o` opens streams: `m` is that end, `n` the other
one, `fs` and `gs` are the frames under way from `m` and from `n`. -/
structure Inv (o : Side) (m n : Multiplexer) (fs gs : List MuxFrame) : Prop where
  forth : Link o m n fs
  back : Link o.other n m gs
  localOpener : m.Local
  localAcceptor : n.Local
  opener : Opener m
  acceptor : Acceptor n m.ids fs
  replies (g : MuxFrame) (hg : g ∈ gs) : g.kind ≠ .opened ∧ g.streamId ∈ n.ids

theorem inv_new (o : Side) : Inv o .new .new [] [] :=
  ⟨link_new o, link_new o.other, local_new, local_new, opener_new,
    acceptor_new, fun _ hg => absurd hg not_mem_nil⟩

namespace Inv

variable {o : Side} {m m' n n' : Multiplexer} {fs gs : List MuxFrame} {f : MuxFrame} {i : Nat}

section Opener

theorem of_opener (h : Inv o m n fs gs) (hlocal : m'.Local) (hopener : Opener m')
    (hids : m'.ids = m.ids) (hout : m'.outbound = m.outbound)
    (hwrites : m'.writes o = m.writes o) (hhung : m.hungUp = true → m'.hungUp = true)
    (hlive : m'.live = m.live) (hgiven : m'.given = m.given) (hdemux : m'.demuxing = m.demuxing) :
    Inv o m' n fs gs :=
  ⟨h.forth.sender hout hwrites hhung, h.back.receiver hlive hgiven hdemux, hlocal, h.localAcceptor,
    hopener, hids ▸ h.acceptor, h.replies⟩

theorem openInsert (h : Inv o m n fs gs) (hstep : m.openInsert i = some m') : Inv o m' n fs gs := by
  obtain ⟨id, hi, rfl⟩ := openInsert_eq_some hstep
  -- nothing of the new stream has come from the other end
  have hunknown : id ∉ n.ids := by
    intro hmem
    obtain ⟨s, hs, hid⟩ := mem_map.mp (h.acceptor.ids_subset hmem)
    refine h.opener.allocated i id hi ?_
    exact hid ▸ mem_of_getElem? (h.localOpener.readers s hs)
  have hcarries : Carries (n.writes o.other) (m.insertStream id).live (m.insertStream id).given
      (gs.map MuxFrame.signal) := by
    rw [m.live_insertStream, m.given_insertStream]
    refine h.back.carries.start (gather_of_not_mem hunknown) fun s hs => ?_
    obtain ⟨g, hg, rfl⟩ := mem_map.mp hs
    rw [g.key_signal]
    exact fun hid => hunknown (hid ▸ (h.replies g hg).2)
  obtain ⟨htable, hreaders, hbalance⟩ := h.localOpener.insertStream id
  exact ⟨h.forth.sender rfl rfl fun hh => hh,
    ⟨h.back.outbound, h.back.fits, hcarries, h.back.stopped⟩, ⟨htable, hreaders, hbalance⟩,
    h.localAcceptor, h.opener.openInsert h.localOpener hi, h.acceptor, h.replies⟩

theorem openWrite (h : Inv o m n fs gs) (hstep : m.openWrite i = some m') :
    ∃ fs', Inv o m' n fs' gs := by
  obtain ⟨id, rx, hi, hhung, rfl⟩ := openWrite_eq_some hstep
  obtain ⟨hrx, hfresh⟩ := h.opener.inserted i id rx hi
  have hcarries : Carries ((m.addHandle id true rx).writes o) n.live n.given
      (fs.map MuxFrame.signal ++ [.opened id]) := by
    rw [m.writes_addHandle]
    exact h.forth.carries.put_opened (gather_of_not_mem hfresh)
  have hacceptor := h.acceptor.put ⟨id, .opened, []⟩
  obtain ⟨htable, hreaders, hbalance⟩ := h.localOpener.addHandle hrx true
  refine ⟨fs ++ [⟨id, .opened, []⟩], ?_, h.back.receiver rfl rfl rfl,
    ⟨htable, hreaders, hbalance⟩, h.localAcceptor, h.opener.openWrite hi _, ?_, h.replies⟩
  · exact Link.put (f := ⟨id, .opened, []⟩) h.forth hhung (Nat.zero_le _) rfl hcarries
  · change Acceptor n (m.addHandle id true rx).ids _
    rw [m.ids_addHandle]
    exact hacceptor

theorem opener_accept (h : Inv o m n fs gs) (hstep : m.acceptStream = some m') :
    Inv o m' n fs gs := by
  unfold acceptStream at hstep
  split at hstep
  · cases hstep
  · rename_i events hevents
    cases hstep
    refine h.of_opener ⟨h.localOpener.table, h.localOpener.readers, h.localOpener.balance⟩
      (h.opener.congr rfl rfl rfl rfl h.opener.opened fun e he => ?_) rfl rfl rfl (fun hh => hh)
      rfl rfl rfl
    exact h.opener.events e (hevents ▸ mem_cons_of_mem _ he)
  · rename_i id rx events hevents
    have hclosed := h.opener.events (.newStream id rx) (hevents ▸ mem_cons_self)
    cases hclosed

theorem opener_send (h : Inv o m n fs gs) (hsends : Sends o m m' i s s' f) :
    Inv o m' n (fs ++ [f]) gs := by
  have hnone : openedIds [f] = [] := by simp [openedIds, hsends.emits.frame.2.1]
  have hacceptor := h.acceptor.put f
  rw [hnone, append_nil, ← hsends.ids_eq] at hacceptor
  refine ⟨h.forth.send h.opener.nodup_ids hsends, ?_, hsends.isLocal h.localOpener,
    h.localAcceptor, ?_, hacceptor, h.replies⟩
  · rw [hsends.after]
    exact h.back.receiver rfl rfl rfl
  have hopened := hsends.all_opened h.opener.opened
  have hids := hsends.ids_eq
  rw [hsends.after] at hopened hids ⊢
  exact h.opener.congr rfl rfl rfl hids hopened h.opener.events

theorem opener_take (h : Inv o m n fs gs) {ch ch' : Channel}
    (htakes : Takes m m' i s s' ch ch') : Inv o m' n fs gs := by
  have hopened := htakes.all_opened h.opener.opened
  have hids := htakes.ids_eq
  have hchannels := htakes.channelIds_eq
  have hlocal := htakes.isLocal h.localOpener h.opener.nodup_ids
  have hwrites := htakes.writes_eq o
  have hgiven := htakes.given_eq
  rw [htakes.after] at hopened hids hchannels hlocal hwrites hgiven ⊢
  exact h.of_opener hlocal (h.opener.congr rfl rfl hchannels hids hopened h.opener.events) hids rfl
    hwrites (fun hh => hh) rfl hgiven rfl

theorem opener_act (h : Inv o m n fs gs) {op : Op}
    (hfew : op = .allocate → m.opening.length + 1 < 2 ^ 32 - 1)
    (hstep : m.act o op = some m') : ∃ fs', Inv o m' n fs' gs := by
  cases op with
  | allocate =>
    cases hstep
    exact ⟨fs, h.of_opener ⟨h.localOpener.table, h.localOpener.readers, h.localOpener.balance⟩
      (h.opener.allocate (hfew rfl)) rfl rfl rfl (fun hh => hh) rfl rfl rfl⟩
  | openInsert call => exact ⟨fs, h.openInsert hstep⟩
  | openWrite call => exact h.openWrite hstep
  | acceptStream => exact ⟨fs, h.opener_accept hstep⟩
  | write stream buf =>
    rcases write_eq_some hstep with rfl | ⟨s, s', f, hsends⟩
    · exact ⟨fs, h⟩
    · exact ⟨_, h.opener_send hsends⟩
  | close stream =>
    rcases close_eq_some o hstep with rfl | ⟨s, s', f, hsends⟩
    · exact ⟨fs, h⟩
    · exact ⟨_, h.opener_send hsends⟩
  | read stream len =>
    rcases read_eq_some hstep with rfl | ⟨s, s', ch, ch', htakes⟩
    · exact ⟨fs, h⟩
    · exact ⟨fs, h.opener_take htakes⟩
  | hangUp =>
    cases hstep
    exact ⟨fs, h.of_opener ⟨h.localOpener.table, h.localOpener.readers, h.localOpener.balance⟩
      (h.opener.congr rfl rfl rfl rfl h.opener.opened h.opener.events) rfl rfl rfl
      (fun _ => rfl) rfl rfl rfl⟩

end Opener

section Acceptor

theorem of_acceptor (h : Inv o m n fs gs) (hlocal : n'.Local) (hacceptor : Acceptor n' m.ids fs)
    (hids : n.ids ⊆ n'.ids) (hout : n'.outbound = n.outbound)
    (hwrites : n'.writes o.other = n.writes o.other) (hhung : n.hungUp = true → n'.hungUp = true)
    (hlive : n'.live = n.live) (hgiven : n'.given = n.given) (hdemux : n'.demuxing = n.demuxing) :
    Inv o m n' fs gs :=
  ⟨h.forth.receiver hlive hgiven hdemux, h.back.sender hout hwrites hhung, h.localOpener, hlocal,
    h.opener, hacceptor, fun g hg => ⟨(h.replies g hg).1, hids (h.replies g hg).2⟩⟩

theorem acceptor_accept (h : Inv o m n fs gs) (hstep : n.acceptStream = some n') :
    Inv o m n' fs gs := by
  unfold acceptStream at hstep
  split at hstep
  · cases hstep
  · rename_i events hevents
    cases hstep
    exact h.of_acceptor ⟨h.localAcceptor.table, h.localAcceptor.readers, h.localAcceptor.balance⟩
      (h.acceptor.skip hevents) (fun _ hk => hk) rfl rfl (fun hh => hh) rfl rfl rfl
  · rename_i id rx events hevents
    cases hstep
    have hrx := h.acceptor.events id rx (hevents ▸ mem_cons_self)
    obtain ⟨htable, hreaders, hbalance⟩ := h.localAcceptor.addHandle hrx false
    refine h.of_acceptor ⟨htable, hreaders, hbalance⟩ (h.acceptor.accept hevents) ?_ rfl
      (n.writes_addHandle _ id false rx) (fun hh => hh) rfl rfl rfl
    change n.ids ⊆ (n.addHandle id false rx).ids
    rw [n.ids_addHandle]
    exact subset_append_left _ _

theorem acceptor_send (h : Inv o m n fs gs)
    (hsends : Sends o.other n n' i s s' f) : Inv o m n' fs (gs ++ [f]) := by
  have hids := hsends.ids_eq
  obtain ⟨hid, hkind, -⟩ := hsends.emits.frame
  refine ⟨?_, h.back.send (h.acceptor.nodup_ids h.opener.nodup_ids) hsends, h.localOpener,
    hsends.isLocal h.localAcceptor, h.opener, ?_, fun g hg => ?_⟩
  · rw [hsends.after]
    exact h.forth.receiver rfl rfl rfl
  · have haccepted := hsends.all_opened h.acceptor.accepted
    rw [hsends.after] at haccepted hids ⊢
    exact h.acceptor.congr rfl rfl hids rfl haccepted
  · rw [hids]
    rcases mem_append.mp hg with hold | hnew
    · exact h.replies g hold
    · rw [mem_singleton.mp hnew]
      exact ⟨hkind, hid ▸ mem_map_of_mem (mem_of_getElem? hsends.handle)⟩

theorem acceptor_take (h : Inv o m n fs gs) {ch ch' : Channel}
    (htakes : Takes n n' i s s' ch ch') : Inv o m n' fs gs := by
  have haccepted := htakes.all_opened h.acceptor.accepted
  have hids := htakes.ids_eq
  have hchannels := htakes.channelIds_eq
  have hlocal := htakes.isLocal h.localAcceptor (h.acceptor.nodup_ids h.opener.nodup_ids)
  have hwrites := htakes.writes_eq o.other
  have hgiven := htakes.given_eq
  rw [htakes.after] at haccepted hids hchannels hlocal hwrites hgiven ⊢
  exact h.of_acceptor hlocal (h.acceptor.congr rfl hchannels hids rfl haccepted)
    (fun _ hk => hids ▸ hk) rfl hwrites (fun hh => hh) rfl hgiven rfl

theorem acceptor_act (h : Inv o m n fs gs) {op : Op} (hop : op ≠ .allocate)
    (hstep : n.act o.other op = some n') : ∃ gs', Inv o m n' fs gs' := by
  cases op with
  | allocate => exact absurd rfl hop
  | openInsert call =>
    obtain ⟨id, hcall, -⟩ := openInsert_eq_some hstep
    rw [h.acceptor.noCalls] at hcall
    cases hcall
  | openWrite call =>
    obtain ⟨id, rx, hcall, -⟩ := openWrite_eq_some hstep
    rw [h.acceptor.noCalls] at hcall
    cases hcall
  | acceptStream => exact ⟨gs, h.acceptor_accept hstep⟩
  | write stream buf =>
    rcases write_eq_some hstep with rfl | ⟨s, s', f, hsends⟩
    · exact ⟨gs, h⟩
    · exact ⟨_, h.acceptor_send hsends⟩
  | close stream =>
    rcases close_eq_some o.other hstep with rfl | ⟨s, s', f, hsends⟩
    · exact ⟨gs, h⟩
    · exact ⟨_, h.acceptor_send hsends⟩
  | read stream len =>
    rcases read_eq_some hstep with rfl | ⟨s, s', ch, ch', htakes⟩
    · exact ⟨gs, h⟩
    · exact ⟨gs, h.acceptor_take htakes⟩
  | hangUp =>
    cases hstep
    exact ⟨gs, h.of_acceptor
      ⟨h.localAcceptor.table, h.localAcceptor.readers, h.localAcceptor.balance⟩
      (h.acceptor.congr rfl rfl rfl rfl h.acceptor.accepted) (fun _ hk => hk) rfl rfl
      (fun _ => rfl) rfl rfl rfl⟩

end Acceptor

section Demux

theorem acceptor_next (h : Inv o m n (f :: fs) gs) :
    Inv o { m with outbound := encodeAll fs } (n.route f) fs gs := by
  obtain ⟨hhandles, -, -, hout, hhung, -⟩ := route_frame n f
  have hids : (n.route f).ids = n.ids := congrArg (map MuxStream.id) hhandles
  have hwrites : (n.route f).writes o.other = n.writes o.other := by
    funext k
    exact congrArg (gather MuxStream.id _ k) hhandles
  have hchannels := h.acceptor.nodup_channelIds h.opener.nodup_ids
  refine ⟨h.forth.next h.localAcceptor hchannels, ?_,
    ⟨h.localOpener.table, h.localOpener.readers, h.localOpener.balance⟩, h.localAcceptor.route f,
    h.opener.congr rfl rfl rfl rfl h.opener.opened h.opener.events,
    h.acceptor.route h.localAcceptor, fun g hg => hids ▸ h.replies g hg⟩
  exact (h.back.sender hout hwrites fun hh => hhung.trans hh).receiver rfl rfl rfl

theorem opener_next (h : Inv o m n fs (f :: gs)) :
    Inv o (m.route f) { n with outbound := encodeAll gs } fs gs := by
  obtain ⟨hhandles, hopening, hnext, hout, hhung, -⟩ := route_frame m f
  have hkind := (h.replies f mem_cons_self).1
  have hids : (m.route f).ids = m.ids := congrArg (map MuxStream.id) hhandles
  have hwrites : (m.route f).writes o = m.writes o := by
    funext k
    exact congrArg (gather MuxStream.id _ k) hhandles
  have hchannels : (m.route f).channelIds = m.channelIds := by
    have hnone : openedIds [f] = [] := by simp [openedIds, hkind]
    rw [channelIds_route h.localOpener, hnone, append_nil]
  have hacceptor : Acceptor { n with outbound := encodeAll gs } m.ids fs :=
    h.acceptor.congr rfl rfl rfl rfl h.acceptor.accepted
  refine ⟨?_, h.back.next h.localOpener h.opener.nodup_channelIds, h.localOpener.route f,
    ⟨h.localAcceptor.table, h.localAcceptor.readers, h.localAcceptor.balance⟩, ?_,
    hids ▸ hacceptor, fun g hg => h.replies g (mem_cons_of_mem _ hg)⟩
  · exact (h.forth.sender hout hwrites fun hh => hhung.trans hh).receiver rfl rfl rfl
  · refine h.opener.congr hopening hnext hchannels hids (hhandles ▸ h.opener.opened) fun e he => ?_
    exact (acceptRx_route hkind e he).elim (h.opener.events e) fun hclosed => hclosed

theorem acceptor_stop (h : Inv o m n [] gs) (hhung : m.hungUp = true) : Inv o m n.stopDemux [] gs :=
  ⟨h.forth.stop hhung, h.back.sender rfl rfl fun hh => hh, h.localOpener, h.localAcceptor.stopDemux,
    h.opener, h.acceptor.congr rfl rfl rfl rfl h.acceptor.accepted, h.replies⟩

theorem opener_stop (h : Inv o m n fs []) (hhung : n.hungUp = true) : Inv o m.stopDemux n fs [] :=
  ⟨h.forth.sender rfl rfl fun hh => hh, h.back.stop hhung, h.localOpener.stopDemux, h.localAcceptor,
    h.opener.congr rfl rfl rfl rfl h.opener.opened h.opener.events, h.acceptor, h.replies⟩

end Demux

end Inv

/-! ### Runs -/

theorem Side.other_other (side : Side) : side.other.other = side := by cases side <;> rfl

theorem Side.other_ne (side : Side) : side.other ≠ side := by cases side <;> decide

theorem Side.eq_or_eq_other (side o : Side) : side = o ∨ side = o.other := by
  cases side <;> cases o <;> decide

/-- The invariant, for some frames on the way. -/
def Holds (o : Side) (t : Ends) : Prop := ∃ fs gs, Inv o (t o) (t o.other) fs gs

theorem holds_start (o : Side) : Holds o start := ⟨[], [], inv_new o⟩

variable {t : Ends} {side : Side} {fs : List MuxFrame} {t' : Ends} {o : Side} {s : MuxStream}

theorem demux_eq_next {f : MuxFrame} (hlink : Link side.other (t side.other) (t side) (f :: fs)) :
    demux t side = some (update
      (update t side.other { t side.other with outbound := encodeAll fs }) side
      ((t side).route f)) := by
  have hdemuxing : (t side).demuxing ≠ false := fun h => cons_ne_nil _ _ (hlink.stopped h).1
  rw [demux, demuxTurn, if_neg hdemuxing, hlink.readMuxFrame_eq]
  rfl

theorem demux_eq_some (hlink : Link side.other (t side.other) (t side) fs)
    (h : demux t side = some t') : (∃ f fs', fs = f :: fs' ∧ t' = update
        (update t side.other { t side.other with outbound := encodeAll fs' }) side
        ((t side).route f))
      ∨ (fs = [] ∧ (t side.other).hungUp = true
        ∧ t' = update t side (t side).stopDemux) := by
  cases fs with
  | cons f fs =>
    rw [demux_eq_next hlink] at h
    exact .inl ⟨f, fs, rfl, (Option.some.inj h).symm⟩
  | nil =>
    rw [demux, demuxTurn, hlink.readMuxFrame_nil] at h
    split at h
    · cases h
    by_cases hhung : (t side.other).hungUp = false
    · rw [if_pos hhung] at h
      cases h
    rw [if_neg hhung] at h
    refine .inr ⟨rfl, eq_true_of_ne_false hhung, ?_⟩
    have hsame : update t side.other (t side.other) = t := update_eq_self _ t
    exact (Option.some.inj h).symm.trans
      (congrArg (fun u => update u side (t side).stopDemux) hsame)

theorem Holds.act {op : Op} {m : Multiplexer} (h : Holds o t)
    (hfew : op = .allocate → (t side).opening.length + 1 < 2 ^ 32 - 1)
    (hopener : op = .allocate → side = o) (hstep : (t side).act side op = some m) :
    Holds o (update t side m) := by
  obtain ⟨fs, gs, hinv⟩ := h
  rcases side.eq_or_eq_other o with rfl | rfl
  · obtain ⟨fs', hinv'⟩ := hinv.opener_act hfew hstep
    refine ⟨fs', gs, ?_⟩
    rwa [update_self, update_of_ne side.other_ne]
  · have hop : op ≠ .allocate := fun h => o.other_ne (hopener h)
    obtain ⟨gs', hinv'⟩ := hinv.acceptor_act hop hstep
    refine ⟨fs, gs', ?_⟩
    rwa [update_self, update_of_ne o.other_ne.symm]

theorem Holds.demux (h : Holds o t) (hstep : Tunnel.demux t side = some t') : Holds o t' := by
  obtain ⟨fs, gs, hinv⟩ := h
  rcases side.eq_or_eq_other o with rfl | rfl
  · rcases demux_eq_some hinv.back hstep with ⟨f, gs', rfl, rfl⟩ | ⟨rfl, hhung, rfl⟩
    · refine ⟨fs, gs', ?_⟩
      rw [update_self, update_of_ne side.other_ne, update_self]
      exact hinv.opener_next
    · refine ⟨fs, [], ?_⟩
      rw [update_self, update_of_ne side.other_ne]
      exact hinv.opener_stop hhung
  · have hlink : Link o.other.other (t o.other.other) (t o.other) fs := by
      rw [o.other_other]
      exact hinv.forth
    rcases demux_eq_some hlink hstep with ⟨f, fs', rfl, rfl⟩ | ⟨rfl, hhung, rfl⟩
    · refine ⟨fs', gs, ?_⟩
      rw [o.other_other, update_self, update_of_ne o.other_ne.symm,
        update_self]
      exact hinv.acceptor_next
    · refine ⟨[], gs, ?_⟩
      rw [o.other_other] at hhung
      rw [update_self, update_of_ne o.other_ne.symm]
      exact hinv.acceptor_stop hhung

/-- What one step of either end preserves. -/
theorem Holds.step {l : Label} (h : Holds o t) (hfew : FewOpens t l) (hopens : OpensOnly o l)
    (hstep : Tunnel.step t l = some t') : Holds o t' := by
  cases l with
  | act side op =>
    obtain ⟨m, hm, rfl⟩ := Option.map_eq_some_iff.mp hstep
    exact h.act (fun hop => hfew side (hop ▸ rfl)) (fun hop => hopens side (hop ▸ rfl)) hm
  | demux side => exact h.demux hstep

/-! ### The streams of a tunnel -/

theorem length_counterparts (hroles : ∀ s' ∈ (t side.other).handles, s'.opened = !s.opened) :
    (counterparts t side s).length = (t side.other).ids.count s.id := by
  rw [counterparts, ← countP_eq_length_filter, ids, count_eq_countP,
    countP_map]
  refine countP_congr fun s' hs' => ?_
  simp [MuxStream.origin, Origin.peer, hroles s' hs']

theorem mem_counterparts {s' : MuxStream} (h : s' ∈ counterparts t side s) :
    s' ∈ (t side.other).handles ∧ s'.id = s.id := by
  obtain ⟨hmem, horigin⟩ := mem_filter.mp h
  exact ⟨hmem, congrArg Origin.id (of_decide_eq_true horigin)⟩

theorem values_tagged (side : Side) (s : MuxStream) (buf : Bytes) :
    values (s.tagged side buf) = buf := by
  rw [values, MuxStream.tagged, map_map]
  exact map_id buf

theorem inOrder_of_link {s' : MuxStream} (hlink : Link side.other (t side.other) (t side) fs)
    (hlocal : (t side).Local) (hids : (t side).ids.Nodup) (hchannels : (t side).channelIds.Nodup)
    (hother : (t side.other).ids.Nodup) (hs : s ∈ (t side).handles)
    (hs' : s' ∈ counterparts t side s) : values s.taken <+: s'.written := by
  obtain ⟨hmem, hid⟩ := mem_counterparts hs'
  have hwrites : (t side.other).writes side.other s.id = s'.tagged side.other s'.written := by
    rw [← hid]
    exact gather_of_mem hother hmem
  have hinitial := hlink.taken_isPrefix hlocal hids hchannels hs
  rw [hwrites] at hinitial
  have hvalues : values s.taken <+: values (s'.tagged side.other s'.written) := hinitial.map _
  rwa [values_tagged] at hvalues

theorem isolated_of_link (hlink : Link side.other (t side.other) (t side) fs)
    (hlocal : (t side).Local) (hids : (t side).ids.Nodup) (hchannels : (t side).channelIds.Nodup)
    (hroles : ∀ s' ∈ (t side.other).handles, s'.opened = !s.opened) (hs : s ∈ (t side).handles)
    {octet : Octet} (hoctet : octet ∈ s.taken) : octet.origin = some (s.origin side).peer := by
  have hinitial := hlink.taken_isPrefix hlocal hids hchannels hs
  obtain ⟨s', hs', hid, hwritten⟩ := mem_gather.mp (hinitial.subset hoctet)
  obtain ⟨value, -, rfl⟩ := mem_map.mp hwritten
  have hrole := hroles s' hs'
  change some (s'.origin side.other) = _
  rw [MuxStream.origin, hid, hrole]
  rfl

theorem encodeAll_eq_nil (h : encodeAll fs = []) : fs = [] := by
  cases fs with
  | nil => rfl
  | cons f fs => exact absurd (append_eq_nil_iff.mp h).1 (encode_ne_nil f)

theorem alive_of_link (hlink : Link side.other (t side.other) (t side) fs)
    (hwritten : (t side.other).outbound ≠ []) : (demux t side).isSome = true := by
  cases fs with
  | nil => exact absurd hlink.outbound hwritten
  | cons f fs => rw [demux_eq_next hlink, Option.isSome_some]

theorem Holds.faithful (h : Holds o t) : Faithful t := by
  obtain ⟨fs, gs, hinv⟩ := h
  have hnodup := hinv.opener.nodup_ids
  have hnodup' := hinv.acceptor.nodup_ids hnodup
  have hchannels' := hinv.acceptor.nodup_channelIds hnodup
  have hforth : Link o.other.other (t o.other.other) (t o.other) fs := by
    rw [o.other_other]
    exact hinv.forth
  -- on the opening end every handle was opened, on the other one every handle was accepted
  have hopener (s : MuxStream) (hs : s ∈ (t o).handles) :
      ∀ s' ∈ (t o.other).handles, s'.opened = !s.opened := by
    rw [hinv.opener.opened s hs]
    exact hinv.acceptor.accepted
  have hacceptor (s : MuxStream) (hs : s ∈ (t o.other).handles) :
      ∀ s' ∈ (t o.other.other).handles, s'.opened = !s.opened := by
    rw [hinv.acceptor.accepted s hs, o.other_other]
    exact hinv.opener.opened
  have hone (s : MuxStream) (hs : s ∈ (t o.other).handles) :
      (counterparts t o.other s).length = 1 := by
    rw [length_counterparts (hacceptor s hs), o.other_other]
    exact count_eq_one_of_mem hnodup (hinv.acceptor.ids_subset (mem_map_of_mem hs))
  refine ⟨fun side s hs => ?_, fun side s hs hopened => ?_, fun side s hs hopened hread hacc => ?_,
    fun side hwritten => ?_, fun side s hs s' hs' => ?_, fun side s hs octet hoctet => ?_⟩
  · rcases side.eq_or_eq_other o with rfl | rfl
    · rw [length_counterparts (hopener s hs)]
      exact nodup_iff_count_le_one.mp hnodup' s.id
    · exact (hone s hs).le
  · rcases side.eq_or_eq_other o with rfl | rfl
    · rw [hinv.opener.opened s hs] at hopened
      cases hopened
    · exact hone s hs
  · rcases side.eq_or_eq_other o with rfl | rfl
    · have hfs : fs = [] := encodeAll_eq_nil (hinv.forth.outbound.symm.trans hread)
      have hsame : (t side.other).ids = (t side).ids := by
        rw [← hinv.acceptor.pairing, ← hinv.acceptor.accepting, hfs, hacc]
        simp [newIds, openedIds]
      rw [length_counterparts (hopener s hs), hsame]
      exact count_eq_one_of_mem hnodup (mem_map_of_mem hs)
    · rw [hinv.acceptor.accepted s hs] at hopened
      cases hopened
  · rcases side.eq_or_eq_other o with rfl | rfl
    · exact alive_of_link hinv.back hwritten
    · exact alive_of_link hforth hwritten
  · rcases side.eq_or_eq_other o with rfl | rfl
    · exact inOrder_of_link hinv.back hinv.localOpener hnodup hinv.opener.nodup_channelIds hnodup'
        hs hs'
    have hother : (t o.other.other).ids.Nodup := by
      rw [o.other_other]
      exact hnodup
    exact inOrder_of_link hforth hinv.localAcceptor hnodup' hchannels' hother hs hs'
  · rcases side.eq_or_eq_other o with rfl | rfl
    · exact isolated_of_link hinv.back hinv.localOpener hnodup hinv.opener.nodup_channelIds
        (hopener s hs) hs hoctet
    · exact isolated_of_link hforth hinv.localAcceptor hnodup' hchannels' (hacceptor s hs) hs hoctet

/-- **A tunnel is faithful as long as only one end opens streams**, in every state of every run. -/
theorem tunnel_faithful {opener : Side} {t : Ends}
    (hreach : Run.Reaches step (fun t l => FewOpens t l ∧ OpensOnly opener l) start t) :
    Faithful t := by
  have hholds : Holds opener t :=
    hreach.invariant (holds_start opener) fun _ _ _ h hok hstep => h.step hok.1 hok.2 hstep
  exact hholds.faithful

instance : Fintype Side := ⟨{.a, .b}, fun side => by cases side <;> decide⟩

instance (t : Ends) (l : Label) : Decidable (FewOpens t l) :=
  inferInstanceAs (Decidable (∀ side, l = .act side .allocate → _ < _))

instance (opener : Side) (l : Label) : Decidable (OpensOnly opener l) :=
  inferInstanceAs (Decidable (∀ side, l = .act side .allocate → side = opener))

def openStream (side : Side) (call : Nat) : List Label :=
  [.act side .allocate, .act side (.openInsert call), .act side (.openWrite call)]

def oneOpener : List Label :=
  openStream .a 0 ++ [.demux .b, .act .b .acceptStream, .act .a (.write 0 [7, 8]), .demux .b,
    .act .b (.read 0 1), .act .b (.write 0 [9]), .demux .a, .act .a (.read 0 4)]

theorem tunnel_faithful_one_opener :
    ∃ t, Run.Reaches step (fun t l => FewOpens t l ∧ OpensOnly .a l) start t
      ∧ (t .a).handles.map (fun s => values s.taken) = [[9]]
      ∧ (t .b).handles.map (fun s => values s.taken) = [[7]] ∧ Faithful t :=
  (Run.exists_reaches (p := fun t => (t .a).handles.map (fun s => values s.taken) = [[9]]
    ∧ (t .b).handles.map (fun s => values s.taken) = [[7]]) oneOpener (by decide +kernel)).imp
    fun _ ⟨hreach, ha, hb⟩ => ⟨hreach, ha, hb, tunnel_faithful hreach⟩

/-- Both ends open their first stream before they read the other one's Open frame, and `b` writes to
the stream it accepted. -/
def crossedOpens : List Label :=
  openStream .a 0 ++ openStream .b 0
    ++ [.demux .a, .demux .b, .act .a .acceptStream, .act .b .acceptStream,
      .act .b (.write 1 [7]), .demux .a, .act .a (.read 1 1)]

/-- The octet written to the stream `b` accepted, which `a` opened, is read from the stream `a`
accepted. -/
theorem crossed_opens_mix_streams : ∃ t, Run.Reaches step FewOpens start t
      ∧ (∃ s ∈ (t .a).handles, s.opened = false ∧ s.taken = [⟨7, some ⟨.b, false, 1⟩⟩])
      ∧ ¬Faithful t := by
  refine (Run.exists_reaches (p := fun t => ∃ s ∈ (t .a).handles, s.id = 1 ∧ s.opened = false
    ∧ s.taken = [⟨7, some ⟨.b, false, 1⟩⟩]) crossedOpens (by decide +kernel)).imp
    fun t ⟨hreach, s, hs, hid, hopened, htaken⟩ =>
      ⟨hreach, ⟨s, hs, hopened, htaken⟩, fun hfaithful => ?_⟩
  have horigin := hfaithful.isolated .a s hs _ (htaken ▸ List.mem_cons_self)
  rw [MuxStream.origin, hid, hopened] at horigin
  revert horigin
  decide

end Npamp.Rust.Tunnel
