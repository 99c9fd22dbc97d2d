import Npamp.Lib.Run
import Npamp.Proof.TunnelEnd

/-!
# The end of the demux loop

When the demux loop ends it drops every sender, and a channel without a sender never makes a reader
wait. `open_stream` may register one afterwards.
-/

namespace Npamp.Rust.Tunnel

open Multiplexer List

namespace Multiplexer

variable {m m' : Multiplexer} {i len : Nat} {s : MuxStream} {ch : Channel}

theorem buffered_eq (hch : m.channels[s.rx]? = some ch) :
    m.buffered s = s.pending ++ ch.queue.flatten := by
  rw [buffered, hch]
  rfl

def incoming (s : MuxStream) (ch : Channel) : List Octet × List (List Octet) :=
  if s.pending = [] then recvPending ch.queue else (s.pending, ch.queue)

theorem incoming_flatten (s : MuxStream) (ch : Channel) :
    (incoming s ch).1 ++ (incoming s ch).2.flatten = s.pending ++ ch.queue.flatten := by
  unfold incoming
  split
  · rename_i hempty
    rw [hempty]
    exact flatten_recvPending ch.queue
  · rfl

theorem recvPending_eq_nil {queue : List (List Octet)} (h : (recvPending queue).1 = []) :
    (recvPending queue).2 = [] := by
  induction queue with
  | nil => rfl
  | cons chunk queue ih =>
    cases chunk with
    | nil => exact ih h
    | cons octet chunk => cases h

theorem incoming_eq_nil (h : (incoming s ch).1 = []) : (incoming s ch).2 = [] := by
  unfold incoming at h ⊢
  split at h
  · rename_i hempty
    rw [if_pos hempty]
    exact recvPending_eq_nil h
  · rename_i hpending
    exact absurd h hpending

def afterRead (len : Nat) (s : MuxStream) (ch : Channel) : MuxStream :=
  { s with
    pending := (incoming s ch).1.drop len, taken := s.taken ++ (incoming s ch).1.take len }

theorem read_eq (hs : m.handles[i]? = some s) (hch : m.channels[s.rx]? = some ch)
    (hnone : m.streams s.id = none) (hlen : 0 < len) : m.read i len = some { m with
      channels := m.channels.set s.rx { ch with queue := (incoming s ch).2 }
      handles := m.handles.set i (afterRead len s ch) } := by
  have hwait : ¬ ((incoming s ch).1 = [] ∧ m.streams s.id = some s.rx) := by
    rw [hnone]
    rintro ⟨-, hsender⟩
    cases hsender
  unfold read
  rw [hs]
  dsimp only
  rw [hch]
  dsimp only
  rw [if_neg hlen.ne']
  exact if_neg hwait

theorem exists_read (hs : m.handles[i]? = some s) (hch : m.channels[s.rx]? = some ch)
    (hnone : ∀ k, m.streams k = none) (hlen : 0 < len) :
    ∃ m' s' ch', m.read i len = some m' ∧ m'.handles[i]? = some s' ∧ m'.channels[s'.rx]? = some ch'
      ∧ (∀ k, m'.streams k = none)
      ∧ s'.taken ++ m'.buffered s' = s.taken ++ m.buffered s
      ∧ (m.buffered s = [] → s' = s)
      ∧ (m.buffered s ≠ [] → (m'.buffered s').length < (m.buffered s).length) := by
  set m' : Multiplexer := { m with
    channels := m.channels.set s.rx { ch with queue := (incoming s ch).2 }
    handles := m.handles.set i (afterRead len s ch) }
  have hch' : m'.channels[(afterRead len s ch).rx]?
      = some { ch with queue := (incoming s ch).2 } :=
    List.getElem?_set_self (List.getElem?_eq_some_iff.mp hch).1
  have hbuffered : m.buffered s = (incoming s ch).1 ++ (incoming s ch).2.flatten :=
    (buffered_eq hch).trans (incoming_flatten s ch).symm
  have hbuffered' : m'.buffered (afterRead len s ch)
      = (incoming s ch).1.drop len ++ (incoming s ch).2.flatten := buffered_eq hch'
  refine ⟨m', afterRead len s ch, _, read_eq hs hch (hnone s.id) hlen,
    List.getElem?_set_self (List.getElem?_eq_some_iff.mp hs).1, hch', hnone, ?_, fun hempty => ?_,
    fun hsome => ?_⟩
  · rw [hbuffered', hbuffered]
    change s.taken ++ (incoming s ch).1.take len ++ _ = _
    rw [append_assoc, ← append_assoc ((incoming s ch).1.take len),
      take_append_drop]
  · have hpending : s.pending = [] :=
      (append_eq_nil_iff.mp ((buffered_eq hch).symm.trans hempty)).1
    have hincoming : (incoming s ch).1 = [] :=
      (append_eq_nil_iff.mp (hbuffered.symm.trans hempty)).1
    rw [afterRead, hincoming, drop_nil, take_nil, append_nil, ← hpending]
  · have hincoming : 0 < (incoming s ch).1.length := by
      refine length_pos_of_ne_nil fun hnil => hsome ?_
      rw [hbuffered, hnil, incoming_eq_nil hnil]
      rfl
    rw [hbuffered', hbuffered, length_append, length_append, length_drop]
    omega

theorem readTimes_of_empty (hs : m.handles[i]? = some s) (hch : m.channels[s.rx]? = some ch)
    (hnone : ∀ k, m.streams k = none) (hlen : 0 < len) (hempty : m.buffered s = []) {n : Nat}
    (h : readTimes i len n m = some m') : m'.handles[i]? = some s := by
  induction n generalizing m ch with
  | zero =>
    cases h
    exact hs
  | succ n ih =>
    obtain ⟨m₁, s₁, ch₁, hread, hs₁, hch₁, hnone₁, hsame, hend, -⟩ :=
      exists_read hs hch hnone hlen
    obtain rfl := hend hempty
    rw [hempty] at hsame
    rw [readTimes, hread, Option.bind_some] at h
    exact ih hs₁ hch₁ hnone₁ (append_cancel_left hsame) h

theorem exists_readTimes (hs : m.handles[i]? = some s) (hch : m.channels[s.rx]? = some ch)
    (hnone : ∀ k, m.streams k = none) (hlen : 0 < len) :
    ∃ n m' s' ch', readTimes i len n m = some m' ∧ m'.handles[i]? = some s'
      ∧ m'.channels[s'.rx]? = some ch' ∧ (∀ k, m'.streams k = none)
      ∧ s'.taken = s.taken ++ m.buffered s ∧ m'.buffered s' = [] := by
  -- each read of a stream that has octets leaves it fewer
  induction hsize : (m.buffered s).length using Nat.strong_induction_on generalizing m s ch with
  | _ size ih =>
    by_cases hempty : m.buffered s = []
    · refine ⟨0, m, s, ch, rfl, hs, hch, hnone, ?_, hempty⟩
      rw [hempty, append_nil]
    obtain ⟨m₁, s₁, ch₁, hread, hs₁, hch₁, hnone₁, hsame, -, hless⟩ :=
      exists_read hs hch hnone hlen
    obtain ⟨n, m', s', ch', hrest, hs', hch', hnone', htaken, hend⟩ :=
      ih _ (hsize ▸ hless hempty) hs₁ hch₁ hnone₁ rfl
    refine ⟨n + 1, m', s', ch', ?_, hs', hch', hnone', htaken.trans hsame, hend⟩
    rw [readTimes, hread, Option.bind_some, hrest]

/-- Every channel that something names exists. -/
structure Wired (m : Multiplexer) : Prop where
  handles (s : MuxStream) (hs : s ∈ m.handles) : s.rx < m.channels.length
  events (k : UInt32) (c : Nat) (h : .newStream k c ∈ m.acceptRx) : c < m.channels.length
  calls (call : OpenCall) (h : call ∈ m.opening) (c : Nat) (hstage : call.stage = .inserted c) :
    c < m.channels.length

theorem wired_new : Wired .new where
  handles _ hs := absurd hs not_mem_nil
  events _ _ h := absurd h not_mem_nil
  calls _ h := absurd h not_mem_nil

theorem Wired.noReadWaits (h : m.Wired) (hnone : ∀ k, m.streams k = none) : NoReadWaits m where
  unregistered := hnone
  returns i s hs len := by
    obtain ⟨ch, hch⟩ : ∃ ch, m.channels[s.rx]? = some ch :=
      ⟨_, List.getElem?_eq_getElem (h.handles s (mem_of_getElem? hs))⟩
    rcases Nat.eq_zero_or_pos len with rfl | hlen
    · simp [read, hs, hch]
    · rw [read_eq hs hch (hnone s.id) hlen, Option.isSome_some]
  drains i s hs len hlen := by
    obtain ⟨ch, hch⟩ : ∃ ch, m.channels[s.rx]? = some ch :=
      ⟨_, List.getElem?_eq_getElem (h.handles s (mem_of_getElem? hs))⟩
    obtain ⟨n, m', s', ch', hreads, hs', hch', hnone', htaken, hend⟩ :=
      exists_readTimes hs hch hnone hlen
    exact ⟨n, m', s', hreads, hs', htaken, fun k m'' hmore =>
      readTimes_of_empty hs' hch' hnone' hlen hend hmore⟩

theorem Wired.setHandle (h : m.Wired) {s s' : MuxStream} (hi : m.handles[i]? = some s)
    (hrx : s'.rx = s.rx) : (m.setHandle i s').Wired where
  handles r hr := by
    rcases mem_or_eq_of_mem_set hr with hold | rfl
    · exact h.handles r hold
    · exact hrx ▸ h.handles s (mem_of_getElem? hi)
  events := h.events
  calls := h.calls

theorem length_lt_insertStream (m : Multiplexer) (id : UInt32) :
    m.channels.length < (m.insertStream id).channels.length := by
  simp [insertStream]

theorem Wired.insertStream (h : m.Wired) (id : UInt32) : (m.insertStream id).Wired := by
  have hgrows := m.length_lt_insertStream id
  exact ⟨fun s hs => (h.handles s hs).trans hgrows,
    fun k c hevent => (h.events k c hevent).trans hgrows,
    fun call hcall c hstage => (h.calls call hcall c hstage).trans hgrows⟩

end Multiplexer

section Steps

variable {m m' : Multiplexer} {side : Side} {op : Op}

theorem act_frame (hop : ∀ call, op ≠ .openInsert call) (h : m.act side op = some m') :
    m'.streams = m.streams ∧ m'.demuxing = m.demuxing := by
  cases op with
  | allocate =>
    cases h
    exact ⟨rfl, rfl⟩
  | openInsert call => exact absurd rfl (hop call)
  | openWrite call =>
    obtain ⟨id, rx, -, -, rfl⟩ := openWrite_eq_some h
    exact ⟨rfl, rfl⟩
  | acceptStream =>
    change m.acceptStream = some m' at h
    unfold acceptStream at h
    split at h <;> cases h <;> exact ⟨rfl, rfl⟩
  | write stream buf =>
    rcases write_eq_some h with rfl | ⟨s, s', f, hsends⟩
    · exact ⟨rfl, rfl⟩
    · rw [hsends.after]
      exact ⟨rfl, rfl⟩
  | close stream =>
    rcases close_eq_some side h with rfl | ⟨s, s', f, hsends⟩
    · exact ⟨rfl, rfl⟩
    · rw [hsends.after]
      exact ⟨rfl, rfl⟩
  | read stream len =>
    rcases read_eq_some h with rfl | ⟨s, s', ch, ch', htakes⟩
    · exact ⟨rfl, rfl⟩
    · rw [htakes.after]
      exact ⟨rfl, rfl⟩
  | hangUp =>
    cases h
    exact ⟨rfl, rfl⟩

theorem wired_act (hwired : m.Wired) (h : m.act side op = some m') : m'.Wired := by
  cases op with
  | allocate =>
    cases h
    refine ⟨hwired.handles, hwired.events, fun call hcall c hstage => ?_⟩
    rcases mem_append.mp hcall with hold | hnew
    · exact hwired.calls call hold c hstage
    · rw [mem_singleton.mp hnew] at hstage
      cases hstage
  | openInsert call =>
    obtain ⟨id, hcall, rfl⟩ := openInsert_eq_some h
    obtain ⟨hhandles, hevents, hcalls⟩ := hwired.insertStream id
    refine ⟨hhandles, hevents, fun call' hcall' c hstage => ?_⟩
    rcases mem_or_eq_of_mem_set hcall' with hold | rfl
    · exact hcalls call' hold c hstage
    · cases hstage
      exact m.length_lt_insertStream id
  | openWrite call =>
    obtain ⟨id, rx, hcall, -, rfl⟩ := openWrite_eq_some h
    refine ⟨fun s hs => ?_, hwired.events, fun call' hcall' c hstage => ?_⟩
    · rcases mem_append.mp hs with hold | hnew
      · exact hwired.handles s hold
      · rw [mem_singleton.mp hnew]
        exact hwired.calls _ (mem_of_getElem? hcall) rx rfl
    · rcases mem_or_eq_of_mem_set hcall' with hold | rfl
      · exact hwired.calls call' hold c hstage
      · cases hstage
  | acceptStream =>
    change m.acceptStream = some m' at h
    unfold acceptStream at h
    split at h
    · cases h
    · rename_i events hevents
      cases h
      exact ⟨hwired.handles,
        fun k c hevent => hwired.events k c (hevents ▸ mem_cons_of_mem _ hevent),
        hwired.calls⟩
    · rename_i id rx events hevents
      cases h
      refine ⟨fun s hs => ?_,
        fun k c hevent => hwired.events k c (hevents ▸ mem_cons_of_mem _ hevent),
        hwired.calls⟩
      rcases mem_append.mp hs with hold | hnew
      · exact hwired.handles s hold
      · rw [mem_singleton.mp hnew]
        exact hwired.events id rx (hevents ▸ mem_cons_self)
  | write stream buf =>
    rcases write_eq_some h with rfl | ⟨s, s', f, hsends⟩
    · exact hwired
    · obtain ⟨hhandles, hevents, hcalls⟩ := hwired.setHandle hsends.handle hsends.emits.same.2.1
      rw [hsends.after]
      exact ⟨hhandles, hevents, hcalls⟩
  | close stream =>
    rcases close_eq_some side h with rfl | ⟨s, s', f, hsends⟩
    · exact hwired
    · obtain ⟨hhandles, hevents, hcalls⟩ := hwired.setHandle hsends.handle hsends.emits.same.2.1
      rw [hsends.after]
      exact ⟨hhandles, hevents, hcalls⟩
  | read stream len =>
    rcases read_eq_some h with rfl | ⟨s, s', ch, ch', htakes⟩
    · exact hwired
    have hlength : (m.setChannel s.rx ch').channels.length = m.channels.length :=
      length_set
    have hset : (m.setChannel s.rx ch').Wired :=
      ⟨hlength ▸ hwired.handles, hlength ▸ hwired.events, hlength ▸ hwired.calls⟩
    rw [htakes.after]
    exact hset.setHandle htakes.handle (by rw [htakes.stream])
  | hangUp =>
    cases h
    exact ⟨hwired.handles, hwired.events, hwired.calls⟩

theorem wired_route (hwired : m.Wired) (f : MuxFrame) : (m.route f).Wired := by
  obtain ⟨id, kind, payload⟩ := f
  cases kind with
  | opened =>
    obtain ⟨hhandles, hevents, hcalls⟩ := hwired.insertStream id
    refine ⟨hhandles, fun k c hevent => ?_, hcalls⟩
    rcases mem_append.mp hevent with hold | hnew
    · exact hevents k c hold
    · cases mem_singleton.mp hnew
      exact m.length_lt_insertStream id
  | data =>
    unfold route
    dsimp only
    split
    · exact hwired
    refine ⟨fun s hs => ?_, fun k c hevent => ?_, fun call hcall c hstage => ?_⟩
    · exact (length_modify _ _ _).symm ▸ hwired.handles s hs
    · exact (length_modify _ _ _).symm ▸ hwired.events k c hevent
    · exact (length_modify _ _ _).symm ▸ hwired.calls call hcall c hstage
  | closed =>
    refine ⟨hwired.handles, fun k c hevent => ?_, hwired.calls⟩
    rcases mem_append.mp hevent with hold | hnew
    · exact hwired.events k c hold
    · cases mem_singleton.mp hnew

end Steps

/-- Once the demultiplexer has exited, no stream is left in the table. -/
structure Lone.Inv (w : Lone) : Prop where
  wired : w.mux.Wired
  exited (h : w.mux.demuxing = false) (k : UInt32) : w.mux.streams k = none

/-- What one step of the lone end preserves. -/
theorem Lone.Inv.step {w w' : Lone} {l : Lone.Label} (h : w.Inv) (hok : OpensInTime w l)
    (hstep : w.step l = some w') : w'.Inv := by
  cases l with
  | act op =>
    obtain ⟨m, hact, rfl⟩ := Option.map_eq_some_iff.mp hstep
    refine ⟨wired_act h.wired hact, fun hexit k => ?_⟩
    by_cases hop : ∃ call, op = .openInsert call
    · obtain ⟨call, rfl⟩ := hop
      obtain ⟨id, -, rfl⟩ := openInsert_eq_some hact
      have hrunning : w.mux.demuxing = true := hok call rfl
      rw [show w.mux.demuxing = false from hexit] at hrunning
      cases hrunning
    · obtain ⟨hstreams, hdemuxing⟩ := act_frame (fun call hcall => hop ⟨call, hcall⟩) hact
      change m.streams k = none
      rw [hstreams]
      exact h.exited (hdemuxing.symm.trans hexit) k
  | arrive octets =>
    change (if w.eof then none else some _) = some w' at hstep
    split at hstep
    · cases hstep
    · cases hstep
      exact ⟨h.wired, h.exited⟩
  | hangUp =>
    cases hstep
    exact ⟨h.wired, h.exited⟩
  | demux =>
    obtain ⟨⟨m, rest⟩, hturn, rfl⟩ := Option.map_eq_some_iff.mp hstep
    unfold demuxTurn at hturn
    split at hturn
    · cases hturn
    rename_i hrunning
    split at hturn
    · cases hturn
    · rename_i f rest' _
      cases hturn
      refine ⟨wired_route h.wired f, fun hexit => absurd ?_ hrunning⟩
      exact (route_frame w.mux f).2.2.2.2.2.symm.trans hexit
    · cases hturn
      exact ⟨⟨h.wired.handles, h.wired.events, h.wired.calls⟩, fun _ _ => rfl⟩
    · cases hturn
      exact ⟨⟨h.wired.handles, h.wired.events, h.wired.calls⟩, fun _ _ => rfl⟩

/-- **No read waits after the demux loop has ended**, where `open_stream` registers its sender while
the loop runs. -/
theorem no_read_waits_after_exit {w : Lone}
    (hreach : Run.Reaches Lone.step OpensInTime .start w) (hexit : w.mux.demuxing = false) :
    NoReadWaits w.mux := by
  have hinv : w.Inv := hreach.invariant
    ⟨Multiplexer.wired_new, fun h => Bool.noConfusion h⟩ fun _ _ _ h hok hstep => h.step hok hstep
  exact hinv.wired.noReadWaits (hinv.exited hexit)

instance (w : Lone) (l : Lone.Label) : Decidable (OpensInTime w l) :=
  match l with
  | .act (.openInsert call) =>
    decidable_of_iff (w.mux.demuxing = true)
      ⟨fun h _ _ => h, fun h => h call rfl⟩
  | .act .allocate => .isTrue fun _ h => nomatch h
  | .act (.openWrite _) => .isTrue fun _ h => nomatch h
  | .act .acceptStream => .isTrue fun _ h => nomatch h
  | .act (.write ..) => .isTrue fun _ h => nomatch h
  | .act (.close _) => .isTrue fun _ h => nomatch h
  | .act (.read ..) => .isTrue fun _ h => nomatch h
  | .act .hangUp => .isTrue fun _ h => nomatch h
  | .arrive _ => .isTrue fun _ h => nomatch h
  | .hangUp => .isTrue fun _ h => nomatch h
  | .demux => .isTrue fun _ h => nomatch h

def openStreamAlone : List Lone.Label :=
  [.act .allocate, .act (.openInsert 0), .act (.openWrite 0)]

theorem no_read_waits_after_exit_buffered :
    ∃ w, Run.Reaches Lone.step OpensInTime .start w ∧ w.mux.demuxing = false
      ∧ w.mux.handles.map (fun s => values (w.mux.buffered s)) = [[5, 6]]
      ∧ NoReadWaits w.mux :=
  (Run.exists_reaches (p := fun w : Lone => w.mux.demuxing = false
      ∧ w.mux.handles.map (fun s => values (w.mux.buffered s)) = [[5, 6]])
    (openStreamAlone ++ [.arrive [0, 0, 0, 1, 1, 0, 0, 0, 2, 5, 6], .hangUp, .demux, .demux])
    (by decide +kernel)).imp fun _ ⟨hreach, hexit, hbuffered⟩ =>
      ⟨hreach, hexit, hbuffered, no_read_waits_after_exit hreach hexit⟩

/-- The transport ends, then a stream is opened: its sender stays in the table, and a read of it
waits. -/
theorem open_after_exit_waits :
    ∃ w, Run.Reaches Lone.step (fun _ _ => True) .start w ∧ w.mux.demuxing = false
      ∧ w.mux.streams 1 = some 0 ∧ w.mux.handles.length = 1
      ∧ w.mux.read 0 1 = none ∧ ¬NoReadWaits w.mux := by
  refine (Run.exists_reaches (p := fun w : Lone => w.mux.demuxing = false
    ∧ w.mux.streams 1 = some 0 ∧ w.mux.handles.length = 1 ∧ (w.mux.read 0 1).isNone)
    ([.hangUp, .demux] ++ openStreamAlone) (by decide +kernel)).imp
    fun w ⟨hreach, hexit, hentry, hone, hwaits⟩ =>
      ⟨hreach, hexit, hentry, hone, Option.isNone_iff_eq_none.mp hwaits, fun hnever => ?_⟩
  rw [hnever.unregistered 1] at hentry
  cases hentry

end Npamp.Rust.Tunnel
