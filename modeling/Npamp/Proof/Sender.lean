import Npamp.Proof.Pipe

/-!
# Sequence numbers of the backend socket

The counter advances when a call succeeds, so the number of a failed call is used again by the next
one.
-/

namespace Npamp.Mesh.Sender

open List
open Rust

variable {C : Crates} {t : Sender}

/-- What one `write` leaves: nothing was tried, or the buffer was sealed under the current number,
which moves with a success only. -/
inductive Wrote (t : Sender) (buf : Bytes) : Sender → Prop where
  | nothing : Wrote t buf t
  | failed (socket : NpampBackendSocket) (wire : Bytes) (hseq : socket.sendSeq = t.socket.sendSeq) :
      Wrote t buf ⟨socket, wire, t.handed ++ [(t.socket.sendSeq, buf)], t.sent, some buf⟩
  | succeeded (socket : NpampBackendSocket) (wire : Bytes)
      (hseq : socket.sendSeq = t.socket.sendSeq + 1) :
      Wrote t buf ⟨socket, wire, t.handed ++ [(t.socket.sendSeq, buf)], t.sent + 1, none⟩

theorem wrote_write (buf : Bytes) (delivery : Delivery) : Wrote t buf (t.write C buf delivery) := by
  unfold Sender.write NpampBackendSocket.write
  cases hseal : t.socket.sealBuffer C buf with
  | error e => exact .nothing
  | ok frame =>
    cases delivery with
    | taken => exact .succeeded _ _ rfl
    | failed octets e => exact .failed _ _ rfl

theorem wrote_step {hook : AuthzHook} {signerId : Str} {l : Label} {t' : Sender}
    (hstep : step C hook signerId t l = some t') : Wrote t l.buf t' := by
  cases l with
  | write buf delivery =>
    cases hstep
    exact wrote_write buf delivery
  | writeAuthorized objectAudience objectEffect payload delivery =>
    rw [step] at hstep
    split at hstep
    · cases hstep
      exact .nothing
    · cases hstep
      exact wrote_write payload delivery

/-- Numbers below the counter are spent; the counter's own has only the buffer of the call that
failed. -/
structure Counted (t : Sender) : Prop where
  seq : t.socket.sendSeq = UInt64.ofNat t.sent
  spent : ∀ e ∈ t.handed, e.1.toNat < t.sent ∨ e.1.toNat = t.sent ∧ t.failed = some e.2
  unique : NonceUnique t

theorem counted_start (session : Session) : Counted (start session) :=
  ⟨rfl, fun _ h => absurd h not_mem_nil, fun _ h => absurd h not_mem_nil⟩

section Step

variable (h : Counted t) {buf : Bytes} (hsent : t.sent < 2 ^ 64)
  (hrepeat : ∀ failed, t.failed = some failed → buf = failed)

include h hsent

theorem Counted.toNat_sendSeq : t.socket.sendSeq.toNat = t.sent := by
  rw [h.seq]
  exact UInt64.toNat_ofNat_of_lt' hsent

include hrepeat

theorem Counted.buf_eq {e : UInt64 × Bytes} (he : e ∈ t.handed) (hseq : e.1 = t.socket.sendSeq) :
    e.2 = buf := by
  rcases h.spent e he with hless | ⟨-, hfailed⟩
  · rw [hseq, h.toNat_sendSeq hsent] at hless
    exact absurd hless (lt_irrefl _)
  · exact (hrepeat e.2 hfailed).symm

theorem Counted.unique_append :
    ∀ e ∈ t.handed ++ [(t.socket.sendSeq, buf)], ∀ e' ∈ t.handed ++ [(t.socket.sendSeq, buf)],
      e.1 = e'.1 → e.2 = e'.2 := by
  intro e he e' he' heq
  rcases mem_append.mp he with he | he <;> rcases mem_append.mp he' with he' | he'
  · exact h.unique e he e' he' heq
  · cases mem_singleton.mp he'
    exact h.buf_eq hsent hrepeat he heq
  · cases mem_singleton.mp he
    exact (h.buf_eq hsent hrepeat he' heq.symm).symm
  · rw [mem_singleton.mp he, mem_singleton.mp he']

theorem Counted.wrote {t' : Sender} (hwrote : Wrote t buf t') : Counted t' := by
  have hunique := h.unique_append hsent hrepeat
  cases hwrote with
  | nothing => exact h
  | failed socket wire hseq =>
    refine ⟨hseq.trans h.seq, fun e he => ?_, hunique⟩
    rcases mem_append.mp he with he | he
    · refine (h.spent e he).imp_right fun ⟨hlast, hfailed⟩ => ⟨hlast, ?_⟩
      exact congrArg some (hrepeat e.2 hfailed)
    · cases mem_singleton.mp he
      exact .inr ⟨h.toNat_sendSeq hsent, rfl⟩
  | succeeded socket wire hseq =>
    refine ⟨?_, fun e he => .inl ?_, hunique⟩
    · change socket.sendSeq = UInt64.ofNat (t.sent + 1)
      rw [hseq, h.seq, UInt64.ofNat_add]
      rfl
    · change e.1.toNat < t.sent + 1
      rcases mem_append.mp he with he | he
      · rcases h.spent e he with hless | ⟨hlast, -⟩
        · exact Nat.lt_succ_of_lt hless
        · exact Nat.lt_succ_of_le hlast.le
      · cases mem_singleton.mp he
        exact Nat.lt_succ_of_le (h.toNat_sendSeq hsent).le

end Step

/-- **The backend socket reuses no sequence number**, when a call that failed is repeated with the
same buffer and the counter does not wrap. -/
theorem backend_nonces_unique {hook : AuthzHook} {signerId : Str} {session : Session}
    (hreach : Run.Reaches (step C hook signerId) Repeats (start session) t) : NonceUnique t := by
  have hcounted : Counted t := by
    refine hreach.invariant (counted_start session) ?_
    intro t l t' h hrepeats hstep
    exact h.wrote hrepeats.2 hrepeats.1 (wrote_step hstep)
  exact hcounted.unique

theorem backend_nonces_unique_repeated :
    ∃ t, Run.Reaches (step plainCrates (tableAuthzHook [] []) []) Repeats (start Pipe.writerEnd) t
      ∧ t.handed = [(0, [1]), (0, [1]), (1, [2])] ∧ NonceUnique t :=
  (Run.exists_reaches
    [.write [1] (.failed 20 ⟨"broken pipe"⟩), .write [1] .taken, .write [2] .taken]
    (by decide +kernel)).imp fun _ ⟨hreach, h⟩ => ⟨hreach, h, backend_nonces_unique hreach⟩

/-- The flush of a record fails, and the next buffer is sealed under its number: both records are on
the wire. -/
theorem backend_reuses_nonce :
    ∃ t, Run.Reaches (step plainCrates (tableAuthzHook [] []) []) (fun _ _ => True)
        (start Pipe.writerEnd) t
      ∧ t.handed = [(0, [1]), (0, [2])] ∧ t.wire.length = 2 * (headerSize + 17)
      ∧ ¬ NonceUnique t := by
  refine (Run.exists_reaches (p := fun t : Sender => t.handed = [(0, [1]), (0, [2])]
    ∧ t.wire.length = 2 * (headerSize + 17))
    [.write [1] (.failed 53 ⟨"flush failed"⟩), .writeAuthorized [] .readOnly [2] .taken]
    (by decide +kernel)).imp fun t ⟨hreach, hhanded, hlength⟩ =>
      ⟨hreach, hhanded, hlength, fun h => ?_⟩
  have heq := h (0, [1]) (by simp [hhanded]) (0, [2]) (by simp [hhanded]) rfl
  exact absurd heq (by decide)

end Npamp.Mesh.Sender
