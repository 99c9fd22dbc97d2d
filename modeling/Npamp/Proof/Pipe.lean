import Npamp.Mesh.Backend
import Npamp.Proof.Interop

/-!
# The backend socket as a byte stream

On the wire are the records of the buffers written and not yet read. A read takes octets out of the
record it opened last, or opens the next one.
-/

namespace Npamp.Mesh.Pipe

open Rust List

variable {C : Crates} {dir : Direction} {t t' : Pipe} {queue : List Bytes} {len : Nat} {buf : Bytes}
  {writer reader : Session} {s : NpampBackendSocket}

/-- What one write of the pipe can carry. -/
structure Chunk (buf : Bytes) : Prop where
  nonempty : buf ≠ []
  fits : headerSize + (buf.length + gcmTagLen) ≤ maxFrameSize

theorem Chunk.sendable (h : Chunk buf) : Sendable (opaqueBackendFtype, buf) :=
  ⟨show opaqueBackendFtype ≠ frameKeyUpdate by decide,
    show opaqueBackendFtype ≠ frameKeyUpdateAck by decide, h.fits⟩

/-- The chunks in the queue as they lie on the wire. -/
def records (C : Crates) (dir : Direction) (master : Bytes) (seq : UInt64) (queue : List Bytes) :
    List Bytes :=
  recordWires C master dir opaqueBackendChannel seq
    (queue.map fun buf => (opaqueBackendFtype, buf))

theorem records_append (master : Bytes) (seq : UInt64) (queue : List Bytes) (buf : Bytes) :
    records C dir master seq (queue ++ [buf])
      = records C dir master seq queue
        ++ [recordWire C master dir opaqueBackendChannel
          (seq + UInt64.ofNat queue.length) opaqueBackendFtype buf] := by
  induction queue generalizing seq with
  | nil =>
    change [recordWire C master dir opaqueBackendChannel seq _ buf] = _
    rw [length_nil, show UInt64.ofNat 0 = 0 from rfl, UInt64.add_zero]
    rfl
  | cons head queue ih =>
    have hnext : seq + 1 + UInt64.ofNat queue.length
        = seq + UInt64.ofNat (head :: queue).length := by
      rw [length_cons, UInt64.ofNat_add, UInt64.add_assoc, UInt64.add_comm 1]
      rfl
    change _ :: records C dir master (seq + 1) (queue ++ [buf]) = _
    rw [ih, hnext]
    rfl

/-- The wire holds the records of `queue`, and `queue` with what the reader has opened is all that
was written and not read. -/
structure Holds (C : Crates) (dir : Direction) (t : Pipe) (queue : List Bytes) : Prop where
  ends : SessionEnds dir t.writer.session t.reader.session
  seq : t.writer.sendSeq = t.reader.recvSeq + UInt64.ofNat queue.length
  wire : t.wire = (records C dir t.writer.session.master t.reader.recvSeq queue).flatten
  chunks : ∀ buf ∈ queue, Chunk buf
  written : t.written = t.readOut ++ t.reader.readBuf ++ queue.flatten
  zero : ∀ r ∈ t.results, r ≠ .ok []

theorem holds_start (hends : SessionEnds dir writer reader) :
    Holds C dir (start writer reader) [] :=
  ⟨hends, rfl, rfl, fun _ h => absurd h not_mem_nil, rfl,
    fun _ h => absurd h not_mem_nil⟩

section Steps

variable (hC : C.Agrees)

include hC

theorem sealBuffer_eq (hmaster : hashLen ≤ s.session.master.length)
    (hdir : s.session.sendDir = dir.octet) (buf : Bytes) : s.sealBuffer C buf
      = .ok (recordWire C s.session.master dir opaqueBackendChannel s.sendSeq
        opaqueBackendFtype buf) := by
  rw [NpampBackendSocket.sealBuffer, hdir]
  exact Rust.sealFrame_eq hC hmaster dir _ _ _ _

omit hC in
theorem write_sealed {buf raw : Bytes} (hopen : t.closed = false)
    (hseal : t.writer.sealBuffer C buf = .ok raw) : t.write C buf = some { t with
      writer := { t.writer with sendSeq := t.writer.sendSeq + 1 }
      wire := t.wire ++ raw
      written := t.written ++ buf } := by
  rw [Pipe.write, hopen, if_neg Bool.false_ne_true, NpampBackendSocket.write, hseal]
  dsimp only [writeFrame]
  rw [take_length]

theorem Holds.write (h : Holds C dir t queue) (hbuf : Chunk buf)
    (hwrite : t.write C buf = some t') : Holds C dir t' (queue ++ [buf]) := by
  have hopen : t.closed = false := by
    by_contra hclosed
    rw [Pipe.write, if_pos (Bool.eq_true_of_not_eq_false hclosed)] at hwrite
    cases hwrite
  rw [write_sealed hopen (sealBuffer_eq hC h.ends.length.ge h.ends.sendDir buf)] at hwrite
  cases hwrite
  refine ⟨h.ends, ?_, ?_, ?_, ?_, h.zero⟩
  · change t.writer.sendSeq + 1 = _
    rw [h.seq, length_append, UInt64.ofNat_add, UInt64.add_assoc]
    rfl
  · change t.wire ++ _ = (records C dir t.writer.session.master t.reader.recvSeq _).flatten
    rw [records_append, flatten_append, ← h.wire, ← h.seq, flatten_singleton]
  · intro chunk hchunk
    rcases mem_append.mp hchunk with hchunk | hchunk
    · exact h.chunks chunk hchunk
    · rw [mem_singleton.mp hchunk]
      exact hbuf
  · change t.written ++ buf = t.readOut ++ t.reader.readBuf ++ (queue ++ [buf]).flatten
    rw [h.written, flatten_append, flatten_singleton, append_assoc _ queue.flatten]

omit hC in
theorem recv_of_error {eof : Bool} {arrived rest : Bytes} {e : IoError}
    (hframe : Mesh.readFrame eof arrived = some (.error e, rest)) :
    s.recv C eof arrived = some (.error e, rest) := by
  rw [NpampBackendSocket.recv, hframe]

omit hC in
theorem recv_of_openRecord {eof : Bool} {arrived raw rest payload : Bytes}
    {channel : ChannelID} {ftype : FrameType}
    (hframe : Mesh.readFrame eof arrived = some (.ok raw, rest))
    (hopen : s.session.openRecord C s.recvSeq raw = .ok (channel, ftype, payload)) :
    s.recv C eof arrived = some (.ok payload, rest) := by
  rw [NpampBackendSocket.recv, hframe]
  dsimp only
  rw [hopen]

theorem recv_record (hmaster : hashLen ≤ s.session.master.length)
    (hdir : s.session.recvDir = dir.octet) (hbuf : Chunk buf) (eof : Bool)
    (rest : Bytes) :
    s.recv C eof (recordWire C s.session.master dir opaqueBackendChannel s.recvSeq
      opaqueBackendFtype buf ++ rest) = some (.ok buf, rest) := by
  have hopen : s.session.openRecord C s.recvSeq
      (recordWire C s.session.master dir opaqueBackendChannel s.recvSeq
        opaqueBackendFtype buf) = .ok (opaqueBackendChannel, opaqueBackendFtype, buf) :=
    openRecord_recordWire hC hmaster hdir hbuf.sendable s.recvSeq
  have hframed : Framed maxFrameSize (recordWire C s.session.master dir
      opaqueBackendChannel s.recvSeq opaqueBackendFtype buf) :=
    framed_recordWire hC.correct hbuf.sendable.size
  generalize recordWire C s.session.master dir opaqueBackendChannel s.recvSeq
    opaqueBackendFtype buf = raw at hopen hframed ⊢
  have hawait : awaitFrame Rust.readFrame (raw ++ rest) = some (.ok raw, rest) :=
    port_takes hframed rest
  have hframe : Mesh.readFrame eof (raw ++ rest) = some (.ok raw, rest) := by
    rw [Mesh.readFrame, hawait]
  exact recv_of_openRecord hframe hopen

end Steps

theorem read_zero : t.read C 0 = some t := by
  change some { t with readOut := t.readOut ++ [] } = some t
  rw [append_nil]

theorem read_buffered (hlen : len ≠ 0) (hbuf : t.reader.readBuf ≠ []) : t.read C len = some { t with
      reader := { t.reader with readBuf := t.reader.readBuf.drop len }
      readOut := t.readOut ++ t.reader.readBuf.take len
      results := t.results ++ [.ok (t.reader.readBuf.take len)] } := by
  rw [Pipe.read, NpampBackendSocket.read, if_neg hlen, if_pos hbuf]
  dsimp only
  rw [if_neg hlen]
  rfl

theorem read_opened (hlen : len ≠ 0) (hbuf : t.reader.readBuf = []) {payload rest : Bytes}
    (hrecv : t.reader.recv C t.closed t.wire = some (.ok payload, rest)) :
    t.read C len = some { t with
      reader := { t.reader with
        recvSeq := t.reader.recvSeq + 1, readBuf := payload.drop len }
      wire := rest
      readOut := t.readOut ++ payload.take len
      results := t.results ++ [.ok (payload.take len)] } := by
  rw [Pipe.read, NpampBackendSocket.read, if_neg hlen, if_neg (not_not_intro hbuf), hrecv]
  dsimp only
  rw [if_neg hlen]
  rfl

theorem read_refused (hlen : len ≠ 0) (hbuf : t.reader.readBuf = []) {e : IoError} {rest : Bytes}
    (hrecv : t.reader.recv C t.closed t.wire = some (.error e, rest)) :
    t.read C len = some { t with wire := rest, results := t.results ++ [.error e] } := by
  rw [Pipe.read, NpampBackendSocket.read, if_neg hlen, if_neg (not_not_intro hbuf), hrecv]
  dsimp only
  rw [if_neg hlen]
  change some { t with wire := rest, readOut := t.readOut ++ [], results := _ } = _
  rw [append_nil]

theorem read_waits (hlen : len ≠ 0) (hbuf : t.reader.readBuf = [])
    (hrecv : t.reader.recv C t.closed t.wire = none) : t.read C len = none := by
  rw [Pipe.read, NpampBackendSocket.read, if_neg hlen, if_neg (not_not_intro hbuf), hrecv]

theorem take_ne_nil (hlen : len ≠ 0) (hbuf : buf ≠ []) : buf.take len ≠ [] := by
  intro hnil
  rcases take_eq_nil_iff.mp hnil with hzero | hnil
  · exact hlen hzero
  · exact hbuf hnil

theorem zero_append {results : List (Except IoError Bytes)} {r : Except IoError Bytes}
    (h : ∀ r ∈ results, r ≠ .ok []) (hr : r ≠ .ok []) : ∀ r' ∈ results ++ [r], r' ≠ .ok [] := by
  intro r' hr'
  rcases mem_append.mp hr' with hr' | hr'
  · exact h r' hr'
  · rw [mem_singleton.mp hr']
    exact hr

theorem ok_ne_ok_nil (h : buf ≠ []) :
    (Except.ok buf : Except IoError Bytes) ≠ .ok [] :=
  fun heq => h (Except.ok.inj heq)

theorem Holds.buffered (h : Holds C dir t queue) (hlen : len ≠ 0) (hbuf : t.reader.readBuf ≠ []) :
    Holds C dir { t with
      reader := { t.reader with readBuf := t.reader.readBuf.drop len }
      readOut := t.readOut ++ t.reader.readBuf.take len
      results := t.results ++ [.ok (t.reader.readBuf.take len)] } queue := by
  refine ⟨h.ends, h.seq, h.wire, h.chunks, ?_,
    zero_append h.zero (ok_ne_ok_nil (take_ne_nil hlen hbuf))⟩
  change t.written = t.readOut ++ t.reader.readBuf.take len ++ t.reader.readBuf.drop len
    ++ queue.flatten
  rw [append_assoc t.readOut, take_append_drop, h.written]

theorem Holds.opened (h : Holds C dir t (buf :: queue)) (hlen : len ≠ 0)
    (hbuf : t.reader.readBuf = []) : Holds C dir { t with
      reader := { t.reader with recvSeq := t.reader.recvSeq + 1, readBuf := buf.drop len }
      wire := (records C dir t.writer.session.master (t.reader.recvSeq + 1) queue).flatten
      readOut := t.readOut ++ buf.take len
      results := t.results ++ [.ok (buf.take len)] } queue := by
  have hchunk := h.chunks buf mem_cons_self
  refine ⟨h.ends, ?_, rfl, fun b hb => h.chunks b (mem_cons_of_mem buf hb), ?_,
    zero_append h.zero (ok_ne_ok_nil (take_ne_nil hlen hchunk.nonempty))⟩
  · change t.writer.sendSeq = t.reader.recvSeq + 1 + UInt64.ofNat queue.length
    rw [h.seq, length_cons, UInt64.ofNat_add, UInt64.add_assoc, UInt64.add_comm 1]
    rfl
  · change t.written = t.readOut ++ buf.take len ++ buf.drop len ++ queue.flatten
    rw [h.written, hbuf, append_nil, flatten_cons, append_assoc t.readOut,
      take_append_drop, append_assoc]

theorem Holds.drained (h : Holds C dir t []) (hlen : len ≠ 0) (hbuf : t.reader.readBuf = [])
    (hread : t.read C len = some t') : Holds C dir t' [] := by
  have hwire : t.wire = [] := h.wire
  cases hclosed : t.closed with
  | false =>
    have hrecv : t.reader.recv C t.closed t.wire = none := by
      rw [hwire, hclosed]
      rfl
    rw [read_waits hlen hbuf hrecv] at hread
    cases hread
  | true =>
    have hrecv : t.reader.recv C t.closed t.wire
        = some (.error ⟨"failed to fill whole buffer"⟩, []) := by
      rw [hwire, hclosed]
      rfl
    rw [read_refused hlen hbuf hrecv] at hread
    cases hread
    exact ⟨h.ends, h.seq, rfl, h.chunks, h.written, zero_append h.zero (by rintro ⟨⟩)⟩

theorem Holds.queue_eq_nil (h : Holds C dir t queue) (hflat : queue.flatten = []) : queue = [] := by
  cases queue with
  | nil => rfl
  | cons buf queue =>
    obtain ⟨hbuf, _⟩ := append_eq_nil_iff.mp hflat
    exact absurd hbuf (h.chunks buf mem_cons_self).nonempty

theorem reads_succ (sizes : Nat → Nat) (n : Nat) : t.reads C sizes (n + 1)
      = (t.read C (sizes 0)).bind (reads C (fun i => sizes (i + 1)) n) := by
  induction n with
  | zero => exact (Option.bind_fun_some _).symm
  | succ n ih =>
    rw [reads, ih]
    cases t.read C (sizes 0) <;> rfl

section Runs

variable (hC : C.Agrees)

include hC

theorem Holds.recv (h : Holds C dir t (buf :: queue)) :
    t.reader.recv C t.closed t.wire
      = some (.ok buf,
          (records C dir t.writer.session.master (t.reader.recvSeq + 1) queue).flatten) := by
  have hmaster : hashLen ≤ t.reader.session.master.length := by
    rw [h.ends.master]
    exact h.ends.length.ge
  have hwire : t.wire = recordWire C t.reader.session.master dir opaqueBackendChannel
      t.reader.recvSeq opaqueBackendFtype buf
    ++ (records C dir t.writer.session.master (t.reader.recvSeq + 1) queue).flatten := by
    rw [h.wire, h.ends.master]
    rfl
  rw [hwire]
  exact recv_record hC hmaster h.ends.recvDir (h.chunks buf mem_cons_self) t.closed _

theorem Holds.read (h : Holds C dir t queue) (hlen : len ≠ 0)
    (hleft : t.reader.readBuf ++ queue.flatten ≠ []) :
    ∃ t' octets queue', t.read C len = some t' ∧ Holds C dir t' queue' ∧ octets ≠ []
      ∧ t'.readOut = t.readOut ++ octets ∧ t'.written = t.written := by
  by_cases hbuf : t.reader.readBuf = []
  · cases queue with
    | nil => exact absurd hbuf (by simpa using hleft)
    | cons buf queue =>
      exact ⟨_, buf.take len, queue, read_opened hlen hbuf (h.recv hC), h.opened hlen hbuf,
        take_ne_nil hlen (h.chunks buf mem_cons_self).nonempty, rfl, rfl⟩
  · exact ⟨_, t.reader.readBuf.take len, queue, read_buffered hlen hbuf, h.buffered hlen hbuf,
      take_ne_nil hlen hbuf, rfl, rfl⟩

/-- What one step of the pipe does to the chunks on the way. -/
theorem Holds.step (h : Holds C dir t queue) {l : Label} (hfits : Fits t l)
    (hstep : step C t l = some t') : ∃ queue', Holds C dir t' queue' := by
  cases l with
  | write buf =>
    obtain ⟨hnonempty, hsize⟩ := hfits buf rfl
    exact ⟨queue ++ [buf], h.write hC ⟨hnonempty, hsize⟩ hstep⟩
  | close =>
    cases hstep
    exact ⟨queue, h.ends, h.seq, h.wire, h.chunks, h.written, h.zero⟩
  | read len =>
    change t.read C len = some t' at hstep
    by_cases hlen : len = 0
    · subst hlen
      rw [read_zero] at hstep
      cases hstep
      exact ⟨queue, h⟩
    by_cases hleft : t.reader.readBuf ++ queue.flatten = []
    · obtain ⟨hbuf, hflat⟩ := append_eq_nil_iff.mp hleft
      have hnil := h.queue_eq_nil hflat
      subst hnil
      exact ⟨[], h.drained hlen hbuf hstep⟩
    · obtain ⟨_, _, queue', hread, hholds, _⟩ := h.read hC hlen hleft
      rw [hread] at hstep
      cases hstep
      exact ⟨queue', hholds⟩

theorem holds_of_reaches (hends : SessionEnds dir writer reader)
    (hreach : Run.Reaches (step C) Fits (start writer reader) t) :
    ∃ queue, Holds C dir t queue := by
  induction hreach with
  | start => exact ⟨[], holds_start hends⟩
  | next _ hfits hstep ih =>
    obtain ⟨queue, h⟩ := ih
    exact h.step hC hfits hstep

theorem Holds.drain (h : Holds C dir t queue) (sizes : Nat → Nat) (hsizes : ∀ i, 0 < sizes i) :
    ∃ n t', t.reads C sizes n = some t' ∧ t'.readOut = t.written := by
  induction hleft : (t.reader.readBuf ++ queue.flatten).length using Nat.strong_induction_on
    generalizing t queue sizes with
  | _ left ih =>
    have hwritten := h.written
    rw [append_assoc] at hwritten
    by_cases hnil : t.reader.readBuf ++ queue.flatten = []
    · rw [hnil, append_nil] at hwritten
      exact ⟨0, t, rfl, hwritten.symm⟩
    obtain ⟨t₁, octets, queue₁, hread, h₁, hoctets, hout, hsame⟩ :=
      h.read hC (hsizes 0).ne' hnil
    have hwritten₁ := h₁.written
    rw [hsame, hwritten, hout, append_assoc, append_assoc] at hwritten₁
    have hless : (t₁.reader.readBuf ++ queue₁.flatten).length < left := by
      have hlength := congrArg length hwritten₁
      have hpos := length_pos_iff.mpr hoctets
      simp only [length_append] at hlength hleft ⊢
      omega
    obtain ⟨n, t₂, hreads, hall⟩ := ih _ hless h₁ (fun i => sizes (i + 1))
      (fun i => hsizes (i + 1)) rfl
    refine ⟨n + 1, t₂, ?_, hall.trans hsame⟩
    rw [reads_succ, hread]
    exact hreads

end Runs

/-- **The backend socket is a byte stream**, when every buffer written is non-empty and fits in a
frame: what is read is what was written, in order. -/
theorem backend_is_byte_stream (hC : C.Agrees) {writer reader : Session}
    (hends : SessionEnds dir writer reader)
    (hreach : Run.Reaches (step C) Fits (start writer reader) t) : Transparent C t := by
  obtain ⟨queue, h⟩ := holds_of_reaches hC hends hreach
  refine ⟨?_, h.drain hC, fun r hr hzero => absurd hzero (h.zero r hr)⟩
  rw [h.written, List.append_assoc]
  exact List.prefix_append _ _

def writerEnd : Session := ⟨replicate 32 7, pad 32 [2], dirC2s, dirS2c⟩

def readerEnd : Session := ⟨replicate 32 7, pad 32 [1], dirS2c, dirC2s⟩

theorem sessionEnds_ends : SessionEnds .clientToServer writerEnd readerEnd := by
  constructor <;> decide

theorem backend_is_byte_stream_short :
    ∃ t, Run.Reaches (step plainCrates) Fits (start writerEnd readerEnd) t ∧ t.written = [1, 2]
      ∧ t.readOut = [1] ∧ Transparent plainCrates t :=
  (Run.exists_reaches (p := fun t : Pipe => t.written = [1, 2] ∧ t.readOut = [1])
    [.write [1, 2], .read 1] (by decide +kernel)).imp fun _ ⟨hreach, hwritten, hread⟩ =>
      ⟨hreach, hwritten, hread, backend_is_byte_stream plainCrates_agrees sessionEnds_ends hreach⟩

theorem readFrame_oversized {maxSize : Nat} {raw : Bytes} (hraw : Framed maxSize raw)
    (hlong : maxFrameSize < raw.length) (eof : Bool) : Mesh.readFrame eof raw
      = some (.error (proto "frame exceeds max size"), raw.drop headerSize) := by
  have htotal : headerSize + (uint32 (slice raw 17 21)).toNat > maxFrameSize := by
    rw [← hraw.length]
    exact hlong
  have hoctets : frameOctets raw = headerSize := if_pos (Or.inr htotal)
  have hread : Rust.readFrame raw = .error (proto "frame exceeds max size") := by
    unfold Rust.readFrame
    rw [readExact_of_le hraw.header]
    simp only [bind, Except.bind]
    rw [slice_take (by decide), slice_take (by decide), if_neg (not_not_intro hraw.magic),
      if_pos htotal]
  rw [Mesh.readFrame, awaitFrame, hoctets, if_neg (by simp [hraw.header]), hread]

theorem oversized_write_is_lost (hC : C.Agrees)
    (hends : SessionEnds dir writer reader)
    (hlong : maxFrameSize < headerSize + (buf.length + gcmTagLen))
    (hfits : buf.length + gcmTagLen < 2 ^ 32) (hlen : len ≠ 0) :
    ∃ t t', (start writer reader).write C buf = some t ∧ t.read C len = some t'
      ∧ t.written = buf ∧ t'.readOut = []
      ∧ t'.results = [.error (proto "frame exceeds max size")] := by
  have hseal : (start writer reader).writer.sealBuffer C buf = .ok _ :=
    sealBuffer_eq hC hends.length.ge hends.sendDir buf
  obtain ⟨f, hparse, -⟩ := openWith_sealWith hC.correct
    { trafficKeys C writer.master dir 0 opaqueBackendChannel with seq := 0 }
    opaqueBackendChannel opaqueBackendFtype hfits
  have hlength : (recordWire C writer.master dir opaqueBackendChannel 0
      opaqueBackendFtype buf).length = headerSize + (buf.length + gcmTagLen) :=
    length_recordWire hC.correct
  have hframe := readFrame_oversized (framed_of_unmarshalBinary hparse le_rfl)
    (hlong.trans_eq hlength.symm) false
  exact ⟨_, _, write_sealed rfl hseal, read_refused hlen rfl (recv_of_error hframe), rfl, rfl, rfl⟩

/-- An empty write makes a read return nothing on an open transport, and 16 MiB that were written
are not delivered. -/
theorem backend_not_byte_stream :
    (∃ t, Run.Reaches (step plainCrates) (fun _ _ => True) (start writerEnd readerEnd) t
      ∧ t.results = [.ok []] ∧ t.closed = false ∧ ¬ Transparent plainCrates t)
      ∧ ∃ t t', step plainCrates (start writerEnd readerEnd) (.write (List.replicate (2 ^ 24) 0))
          = some t ∧ step plainCrates t (.read 1) = some t'
        ∧ t.written = List.replicate (2 ^ 24) 0 ∧ t'.readOut = []
        ∧ t'.results = [.error (proto "frame exceeds max size")] := by
  constructor
  · obtain ⟨t, hreach, hresults, hopen⟩ :
        ∃ t, Run.Reaches (step plainCrates) (fun _ _ => True) (start writerEnd readerEnd) t
          ∧ t.results = [.ok []] ∧ t.closed = false :=
      Run.exists_reaches [.write [], .read 1] (by decide +kernel)
    refine ⟨t, hreach, hresults, hopen, fun h => ?_⟩
    have hclosed := h.zero (.ok []) (by rw [hresults]; exact List.mem_singleton_self _) rfl
    exact Bool.false_ne_true (hopen.symm.trans hclosed)
  · have hlength : (List.replicate (2 ^ 24) (0 : UInt8)).length = 2 ^ 24 := List.length_replicate
    generalize List.replicate (2 ^ 24) (0 : UInt8) = buf at hlength ⊢
    exact oversized_write_is_lost plainCrates_agrees sessionEnds_ends
      (by rw [hlength]; decide) (by rw [hlength]; decide) one_ne_zero

end Npamp.Mesh.Pipe
