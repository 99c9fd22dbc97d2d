import Npamp.Proxy.Stdio
import Npamp.Transcript

/-!
# Who answers a call

A reply is made from a line, for the call whose waiter the line's id finds. Whether the line is a
Response the loop never asks.
-/

namespace Npamp

variable {V : Type} {J : JsonCodec V} {s s' : StdioBackend}

theorem parseJSONRPCObject_eq_ok {raw : Bytes} {parsed : JSONRPCParsed}
    (h : parseJSONRPCObject J raw = .ok parsed) :
    ∃ fields, J.object raw = .ok fields ∧ parsed.id = fields "id"
      ∧ parsed.result = fields "result" ∧ parsed.error = fields "error" := by
  unfold parseJSONRPCObject at h
  split at h
  · cases h
  next fields hfields =>
    split at h
    · cases h
    next verRaw hver =>
      split_ifs at h
      refine ⟨fields, hfields, ?_⟩
      dsimp only at h
      split at h
      · cases h
        exact ⟨rfl, rfl, rfl⟩
      · split at h <;> cases h
        exact ⟨rfl, rfl, rfl⟩

namespace StdioBackend

variable {i : Nat} {c c' : StdioCall}

theorem put_getElem? {j : Nat} (hc : s.calls[i]? = some c) :
    (s.put i c').calls[j]? = if j = i then some c' else s.calls[j]? := by
  obtain ⟨hi, -⟩ := List.getElem?_eq_some_iff.mp hc
  simp [put, List.getElem?_set, hi, eq_comm]

theorem exists_put {j : Nat} {d : StdioCall} (hc : s.calls[i]? = some c)
    (hid : c'.localID = c.localID) (hd : s.calls[j]? = some d) :
    ∃ d', (s.put i c').calls[j]? = some d' ∧ d'.localID = d.localID := by
  rw [put_getElem? hc]
  split_ifs with hji
  · subst hji
    rw [hc] at hd
    cases hd
    exact ⟨c', rfl, hid⟩
  · exact ⟨d, hd, rfl⟩

/-- What every state has: replies are with calls they are for, each with one, and a waiter is under
the id of its call. -/
structure Sound (J : JsonCodec V) (s : StdioBackend) : Prop where
  matched : ∀ i n r, s.Gets i n r → ∃ c line, s.calls[i]? = some c ∧ s.lines[n]? = some line
    ∧ Answers J line (formatUint c.localID) r
  single : ∀ i j n r r', s.Gets i n r → s.Gets j n r' → i = j
  waiter : ∀ key i, s.pending key = some i →
    ∃ c, s.calls[i]? = some c ∧ formatUint c.localID = key

theorem Sound.start : Sound J StdioBackend.start where
  matched := by
    rintro i n r (h | ⟨c, hc, -⟩)
    · cases h
    · cases hc
  single := by
    rintro i j n r r' (h | ⟨c, hc, -⟩)
    · cases h
    · cases hc
  waiter := nofun

/-- What every step keeps but a line that answers a call: lines stay, no call gets another reply,
identifiers stay with their calls, and new waiters wait under their own identifier. -/
structure Carries (s s' : StdioBackend) : Prop where
  lines : s.lines <+: s'.lines
  gets : ∀ i n r, s'.Gets i n r → s.Gets i n r
  ids : ∀ (i : Nat) (c : StdioCall), s.calls[i]? = some c →
    ∃ c', s'.calls[i]? = some c' ∧ c'.localID = c.localID
  waiter : ∀ key i, s'.pending key = some i → s.pending key = some i
    ∨ ∃ c, s'.calls[i]? = some c ∧ formatUint c.localID = key

theorem Sound.carries (h : Sound J s) (hc : Carries s s') : Sound J s' where
  matched := by
    intro i n r hgets
    obtain ⟨c, line, hi, hline, hanswers⟩ := h.matched i n r (hc.gets i n r hgets)
    obtain ⟨c', hi', hid⟩ := hc.ids i c hi
    refine ⟨c', line, hi', ?_, hid ▸ hanswers⟩
    obtain ⟨more, hmore⟩ := hc.lines
    rw [← hmore, List.getElem?_append_left (List.getElem?_eq_some_iff.mp hline).1, hline]
  single := fun i j n r r' hi hj => h.single i j n r r' (hc.gets _ _ _ hi) (hc.gets _ _ _ hj)
  waiter := by
    intro key i hkey
    rcases hc.waiter key i hkey with hold | hnew
    · obtain ⟨c, hi, hid⟩ := h.waiter key i hold
      obtain ⟨c', hi', hid'⟩ := hc.ids i c hi
      exact ⟨c', hi', hid'.symm ▸ hid⟩
    · exact hnew

theorem carries_put {pending : Bytes → Option Nat} (hc : s.calls[i]? = some c)
    (hid : c'.localID = c.localID) (hch : ∀ n r, c'.ch = some (n, r) → c.ch = some (n, r))
    (hphase : ∀ n r, c'.phase = .returned (.reply n r) →
      c.ch = some (n, r) ∨ c.phase = .returned (.reply n r))
    (hpending : ∀ key j, pending key = some j →
      s.pending key = some j ∨ j = i ∧ formatUint c.localID = key) :
    Carries s { s.put i c' with pending := pending } where
  lines := List.prefix_rfl
  gets := by
    rintro j n r (hhand | ⟨d, hd, hget⟩)
    · exact .inl hhand
    change (s.put i c').calls[j]? = some d at hd
    rw [put_getElem? hc] at hd
    split_ifs at hd with hji
    · cases hd
      refine .inr ⟨c, hji ▸ hc, ?_⟩
      rcases hget with hget | hget
      · exact .inl (hch n r hget)
      · exact hphase n r hget
    · exact .inr ⟨d, hd, hget⟩
  ids := fun j d hd => exists_put hc hid hd
  waiter := by
    intro key j hkey
    rcases hpending key j hkey with hold | ⟨rfl, hown⟩
    · exact .inl hold
    · refine .inr ⟨c', ?_, hid.symm ▸ hown⟩
      change (s.put j c').calls[j]? = _
      rw [put_getElem? hc, if_pos rfl]

theorem carries_call (random : Vector UInt8 16) (method : Bytes) (params : Option V) :
    Carries s (s.call J random method params) where
  lines := List.prefix_rfl
  gets := by
    rintro i n r (hhand | ⟨c, hc, hget⟩)
    · exact .inl hhand
    simp only [call, List.getElem?_append] at hc
    split_ifs at hc with hi
    · exact .inr ⟨c, hc, hget⟩
    obtain ⟨-, rfl⟩ : i - s.calls.length = 0 ∧ _ = c := by
      simpa [List.getElem?_singleton] using hc
    -- the new call has neither an answer in its channel nor one it returned
    rcases hget with hget | hget
    · cases hget
    · dsimp only at hget
      split at hget <;> cases hget
  ids := fun i c hc => ⟨c, by
    simp only [call]
    exact List.getElem?_append_left (List.getElem?_eq_some_iff.mp hc).1 ▸ hc, rfl⟩
  waiter := fun key i hkey => .inl hkey

theorem carries_register (hstep : s.register i = some s') : Carries s s' := by
  unfold register at hstep
  split at hstep
  · cases hstep
  next c hc =>
    split at hstep
    next hphase =>
      cases hstep
      refine carries_put hc rfl (fun n r h => h) nofun fun key j hkey => ?_
      rw [Function.update_apply] at hkey
      split_ifs at hkey with hid
      · cases hkey
        exact .inr ⟨rfl, hid.symm⟩
      · exact .inl hkey
    · cases hstep

theorem carries_written {werr : Option String} (hstep : s.written i werr = some s') :
    Carries s s' := by
  unfold written at hstep
  split at hstep
  · cases hstep
  next c hc =>
    split at hstep <;> cases hstep
    · exact carries_put hc rfl (fun n r h => h) nofun fun key j hkey => .inl hkey
    · exact carries_put hc rfl (fun n r h => h) nofun fun key j hkey => .inl hkey

theorem carries_takeReply (hstep : s.takeReply i = some s') : Carries s s' := by
  unfold takeReply at hstep
  split at hstep
  · cases hstep
  next c hc =>
    split at hstep
    next n r hphase hch =>
      cases hstep
      refine carries_put hc rfl nofun (fun m q h => ?_) fun key j hkey => .inl hkey
      cases h
      exact .inl hch
    · cases hstep

theorem carries_takeDone {ctxErr : GoError} (hstep : s.takeDone i ctxErr = some s') :
    Carries s s' := by
  unfold takeDone at hstep
  split at hstep
  · cases hstep
  next c hc =>
    split at hstep <;> cases hstep
    exact carries_put hc rfl (fun n r h => h) nofun fun key j hkey => .inl hkey

theorem carries_leave (hstep : s.leave i = some s') : Carries s s' := by
  unfold leave at hstep
  split at hstep
  · cases hstep
  next c hc =>
    split at hstep
    next e hphase =>
      cases hstep
      refine carries_put hc rfl (fun n r h => h) nofun fun key j hkey => ?_
      rw [Function.update_apply] at hkey
      split_ifs at hkey
      exact .inl hkey
    · cases hstep

theorem carries_hand (hstep : s.hand = some s') : Carries s s' := by
  unfold hand at hstep
  split at hstep
  · cases hstep
  next i n reply hhanding =>
    split at hstep
    · cases hstep
    next c hc =>
      split at hstep
      · cases hstep
      next hch =>
        cases hstep
        refine ⟨List.prefix_rfl, ?_, fun j d hd => exists_put hc rfl hd,
          fun key j hkey => .inl hkey⟩
        rintro j m r (hhand | ⟨d, hd, hget⟩)
        · cases hhand
        change (s.put i _).calls[j]? = some d at hd
        rw [put_getElem? hc] at hd
        split_ifs at hd with hji
        · cases hd
          subst hji
          rcases hget with hget | hget
          · cases hget
            exact .inl hhanding
          · exact .inr ⟨c, hc, .inr hget⟩
        · exact .inr ⟨d, hd, hget⟩

theorem match?_eq_some {line key : Bytes} {reply : StdioReply}
    (h : s.match? J line = some (key, i, reply)) :
    ∃ parsed, parseJSONRPCObject J line = .ok parsed ∧ parsed.id = some key
      ∧ s.pending key = some i ∧ reply = stdioReply J parsed.error parsed.result := by
  unfold match? at h
  split_ifs at h
  split at h
  · cases h
  next parsed hparsed =>
    split at h
    · cases h
    next key' hid =>
      split at h
      · cases h
      next j hpending =>
        cases h
        exact ⟨parsed, hparsed, hid, hpending, rfl⟩

theorem carries_scan_of_none {line : Bytes} (h : s.match? J line = none) :
    Carries s (s.scan J line) := by
  rw [scan, h]
  exact ⟨List.prefix_append _ _, fun i n r hgets => hgets, fun i c hc => ⟨c, hc, rfl⟩,
    fun key i hkey => .inl hkey⟩

/-- A line that answers a waiting call is handed to it and to no other. -/
theorem Sound.scan_of_some {line key : Bytes} {reply : StdioReply} (h : Sound J s)
    (hmatch : s.match? J line = some (key, i, reply)) (hresponse : IsResponse J line key) :
    Sound J (s.scan J line) := by
  obtain ⟨parsed, hparsed, hid, hpending, rfl⟩ := match?_eq_some hmatch
  obtain ⟨c, hc, hkey⟩ := h.waiter key i hpending
  obtain ⟨fields, hfields, -, hresult, herror⟩ := parseJSONRPCObject_eq_ok hparsed
  have hgets : ∀ j n r, (s.scan J line).Gets j n r →
      s.Gets j n r ∧ n < s.lines.length
        ∨ j = i ∧ n = s.lines.length ∧ r = stdioReply J parsed.error parsed.result := by
    intro j n r hgets
    rw [scan, hmatch] at hgets
    rcases hgets with hhand | hget
    · cases hhand
      exact .inr ⟨rfl, rfl, rfl⟩
    · obtain ⟨-, line', -, hline', -⟩ := h.matched j n r (.inr hget)
      exact .inl ⟨.inr hget, (List.getElem?_eq_some_iff.mp hline').1⟩
  have hlines : (s.scan J line).lines = s.lines ++ [line] := by
    rw [scan, hmatch]
  have hcalls : (s.scan J line).calls = s.calls := by
    rw [scan, hmatch]
  refine ⟨fun j n r hj => ?_, fun j k n r r' hj hk => ?_, fun key' j hj => ?_⟩
  · rcases hgets j n r hj with ⟨hold, hn⟩ | ⟨rfl, rfl, rfl⟩
    · obtain ⟨c', line', hc', hline', hanswers⟩ := h.matched j n r hold
      refine ⟨c', line', hcalls ▸ hc', ?_, hanswers⟩
      rw [hlines, List.getElem?_append_left hn, hline']
    · refine ⟨c, line, hcalls ▸ hc, ?_, hkey ▸ hresponse, fields, hfields, ?_⟩
      · rw [hlines, List.getElem?_concat_length]
      · rw [hresult, herror]
  · rcases hgets j n r hj with ⟨hold, hn⟩ | ⟨rfl, hn, -⟩
    · rcases hgets k n r' hk with ⟨hold', -⟩ | ⟨-, hn', -⟩
      · exact h.single j k n r r' hold hold'
      · omega
    · rcases hgets k n r' hk with ⟨-, hn'⟩ | ⟨rfl, -, -⟩
      · omega
      · rfl
  · rw [hcalls]
    refine h.waiter key' j ?_
    rw [scan, hmatch] at hj
    dsimp only at hj
    rw [Function.update_apply] at hj
    split_ifs at hj
    exact hj

theorem Sound.line {raw : Bytes} (h : Sound J s) (hkeeps : s.KeepsOut J (.line raw))
    (hstep : s.line J raw = some s') : Sound J s' := by
  unfold StdioBackend.line at hstep
  split_ifs at hstep with hbusy hlong <;> cases hstep
  · exact h.carries ⟨List.prefix_rfl, fun i n r hgets => hgets, fun i c hc => ⟨c, hc, rfl⟩,
      fun key i hkey => .inl hkey⟩
  cases hmatch : s.match? J (dropCR raw) with
  | none => exact h.carries (carries_scan_of_none hmatch)
  | some found =>
    obtain ⟨key, i, reply⟩ := found
    obtain ⟨parsed, hparsed, hid, hpending, -⟩ := match?_eq_some hmatch
    exact h.scan_of_some hmatch
      (hkeeps parsed key hparsed hid (hpending ▸ Option.isSome_some))

/-- What one step of the backend preserves. -/
theorem Sound.step {a : StdioAction V} (h : Sound J s) (hkeeps : s.KeepsOut J a)
    (hstep : s.step J a = some s') : Sound J s' := by
  cases a with
  | call random method params =>
    cases hstep
    exact h.carries (carries_call random method params)
  | register i => exact h.carries (carries_register hstep)
  | written i werr => exact h.carries (carries_written hstep)
  | takeReply i => exact h.carries (carries_takeReply hstep)
  | takeDone i ctxErr => exact h.carries (carries_takeDone hstep)
  | leave i => exact h.carries (carries_leave hstep)
  | line raw => exact h.line hkeeps hstep
  | hand => exact h.carries (carries_hand hstep)

theorem Sound.answered (h : Sound J s) : s.Answered J where
  own := by
    intro i c n r hc hphase
    obtain ⟨c', line, hc', hline, hanswers⟩ := h.matched i n r (.inr ⟨c, hc, .inr hphase⟩)
    rw [hc] at hc'
    cases hc'
    exact ⟨line, hline, hanswers⟩
  once := fun i j c c' n r r' hi hj hphase hphase' =>
    h.single i j n r r' (.inr ⟨c, hi, .inr hphase⟩) (.inr ⟨c', hj, .inr hphase'⟩)
  notRequest := by
    intro i c n r line fields hc hphase hline hfields
    obtain ⟨c', line', hc', hline', ⟨fields', hfields', -, hmethod, -⟩, -⟩ :=
      h.matched i n r (.inr ⟨c, hc, .inr hphase⟩)
    rw [hline] at hline'
    cases hline'
    rw [hfields] at hfields'
    cases hfields'
    exact hmethod

end StdioBackend

/-- **A call to the child returns what a Response under its id says**, in every run in which the
child keeps out of the ids under way. -/
theorem stdio_call_answered
    (hreach : Run.Reaches (StdioBackend.step J) (StdioBackend.KeepsOut J) StdioBackend.start s) :
    s.Answered J :=
  (hreach.invariant StdioBackend.Sound.start fun _ _ _ h hkeeps hstep =>
    h.step hkeeps hstep).answered

def pingLine : Bytes := ascii "\x7b\"id\":1,\"jsonrpc\":\"2.0\",\"method\":\"ping\"\x7d"

def pongLine : Bytes := ascii "\x7b\"id\":1,\"jsonrpc\":\"2.0\",\"result\":true\x7d"

def pingFields (key : String) : Option Bytes :=
  if key = "jsonrpc" then some (ascii "\"2.0\"")
  else if key = "id" then some (ascii "1")
  else if key = "method" then some (ascii "\"ping\"")
  else none

def pongFields (key : String) : Option Bytes :=
  if key = "jsonrpc" then some (ascii "\"2.0\"")
  else if key = "id" then some (ascii "1")
  else if key = "result" then some (ascii "true")
  else none

def pingCodec : JsonCodec Unit where
  object b :=
    if b = pingLine then .ok pingFields
    else if b = pongLine then .ok pongFields
    else .error "invalid character"
  string b :=
    if b = ascii "\"2.0\"" then .ok (ascii "2.0")
    else if b = ascii "\"ping\"" then .ok (ascii "ping")
    else .error "invalid character"
  rpcError _ := .error "invalid character"
  ofString _ := ()
  ofUint64 _ := ()
  marshal _ := .ok pingLine

def pingRun (line : Bytes) : List (StdioAction Unit) :=
  [.call (Vector.replicate 16 0) (ascii "ping") none, .register 0, .written 0 none, .line line,
    .hand, .takeReply 0]

def pinged (reply : StdioReply) : StdioCall :=
  { localID := 1, ch := none, phase := .returned (.reply 0 reply) }

theorem keepsOut_pongLine (s : StdioBackend) : s.KeepsOut pingCodec (.line pongLine) := by
  intro parsed id hparsed hid _
  obtain ⟨fields, hfields, hfield, -, -⟩ := parseJSONRPCObject_eq_ok hparsed
  rw [hid] at hfield
  exact ⟨fields, hfields, hfield.symm, by cases hfields; decide, by cases hfields; decide⟩

def pongOnly : StdioAction Unit → Bool
  | .line raw => raw = pongLine
  | _ => true

theorem keepsOut_of_pongOnly (s : StdioBackend) {a : StdioAction Unit} (h : pongOnly a = true) :
    s.KeepsOut pingCodec a := by
  cases a with
  | line raw =>
    obtain rfl : raw = pongLine := of_decide_eq_true h
    exact keepsOut_pongLine s
  | _ => trivial

theorem stdio_call_answered_pong : ∃ s : StdioBackend, s.Answered pingCodec ∧ s.lines = [pongLine]
      ∧ s.calls = [pinged (.result (some (ascii "true")))] := by
  obtain ⟨s, hreach, hlines, hcalls⟩ : ∃ s,
      Run.Reaches (StdioBackend.step pingCodec) (fun _ a => pongOnly a = true) .start s
      ∧ s.lines = [pongLine] ∧ s.calls = [pinged (.result (some (ascii "true")))] :=
    Run.exists_reaches (pingRun pongLine) (by decide +kernel)
  exact ⟨s, stdio_call_answered (hreach.mono fun t a => keepsOut_of_pongOnly t), hlines, hcalls⟩

/-- A request of the child's own, under id 1, ends call 1. -/
theorem stdio_call_answered_by_request : ∃ s : StdioBackend,
      Run.Reaches (StdioBackend.step pingCodec) (fun _ _ => True) .start s
      ∧ s.lines = [pingLine]
      ∧ s.calls = [pinged (.result none)]
      ∧ pingCodec.object pingLine = .ok pingFields
      ∧ (pingFields "method").isSome ∧ pingFields "result" = none ∧ pingFields "error" = none := by
  have hfields : pingCodec.object pingLine = .ok pingFields ∧ (pingFields "method").isSome
      ∧ pingFields "result" = none ∧ pingFields "error" = none :=
    ⟨rfl, by decide, by decide, by decide⟩
  simpa only [hfields, and_true] using
    Run.exists_reaches (p := fun s : StdioBackend => s.lines = [pingLine]
      ∧ s.calls = [pinged (.result none)]) (pingRun pingLine) (by decide +kernel)

end Npamp
