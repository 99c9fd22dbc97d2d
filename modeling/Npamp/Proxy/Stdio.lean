import Npamp.Proxy.JsonRpc

/-!
# The stdio backend

`stdio.go`. What a `Call` or `readLoop` does between two uses of the mutex, of a channel or of the
pipes is one step. The child may write any lines.
-/

namespace Npamp

def formatUint (id : UInt64) : Bytes :=
  (Nat.toDigits 10 id.toNat).map fun c => UInt8.ofNat c.toNat

inductive StdioReply where
  | result (raw : Option Bytes)
  | rpcErr (err : JSONRPCError)
  | err (err : GoError)
  deriving DecidableEq

inductive StdioOutcome where
  | failed (err : GoError)
  | reply (n : Nat) (reply : StdioReply)
  deriving DecidableEq

inductive StdioPhase where
  | encoded
  | writing
  | waiting
  | leaving (err : GoError)
  | returned (outcome : StdioOutcome)
  deriving DecidableEq

structure StdioCall where
  localID : UInt64
  ch : Option (Nat × StdioReply)
  phase : StdioPhase
  deriving DecidableEq

/-- The calls are numbered in the order in which they took their ids; `pending` holds the number of
the call whose channel it points to. -/
structure StdioBackend where
  nextID : UInt64
  calls : List StdioCall
  pending : Bytes → Option Nat
  /-- what `readLoop` has taken a waiter for and not yet sent: its call, the line, the reply -/
  handing : Option (Nat × Nat × StdioReply)
  reading : Bool
  /-- the lines `readLoop` has scanned, oldest first -/
  lines : List Bytes

def StdioBackend.start : StdioBackend :=
  { nextID := 0, calls := [], pending := fun _ => none, handing := none, reading := true
    lines := [] }

def StdioBackend.put (s : StdioBackend) (i : Nat) (c : StdioCall) : StdioBackend :=
  { s with calls := s.calls.set i c }

variable {V : Type} (J : JsonCodec V)

def StdioBackend.call (s : StdioBackend) (random : Vector UInt8 16) (method : Bytes)
    (params : Option V) : StdioBackend :=
  let localID := s.nextID + 1
  let phase : StdioPhase :=
    match encodeJSONRPCRequest J random method params (J.ofUint64 localID) with
    | .error e => .returned (.failed e)
    | .ok _ => .encoded
  { s with nextID := localID
           calls := s.calls ++ [{ localID := localID, ch := none, phase := phase }] }

def StdioBackend.register (s : StdioBackend) (i : Nat) : Option StdioBackend :=
  match s.calls[i]? with
  | none => none
  | some c =>
    match c.phase with
    | .encoded =>
      some { s.put i { c with phase := .writing } with
        pending := Function.update s.pending (formatUint c.localID) (some i) }
    | _ => none

def StdioBackend.written (s : StdioBackend) (i : Nat) (werr : Option String) :
    Option StdioBackend :=
  match s.calls[i]? with
  | none => none
  | some c =>
    match c.phase, werr with
    | .writing, none => some (s.put i { c with phase := .waiting })
    | .writing, some e =>
      some (s.put i { c with phase := .leaving (errorf
        ("npamp/proxy: writing to stdio-local-MCP child stdin: " ++ e)) })
    | _, _ => none

def StdioBackend.takeReply (s : StdioBackend) (i : Nat) : Option StdioBackend :=
  match s.calls[i]? with
  | none => none
  | some c =>
    match c.phase, c.ch with
    | .waiting, some (n, r) =>
      some (s.put i { c with ch := none, phase := .returned (.reply n r) })
    | _, _ => none

def StdioBackend.takeDone (s : StdioBackend) (i : Nat) (ctxErr : GoError) : Option StdioBackend :=
  match s.calls[i]? with
  | none => none
  | some c =>
    match c.phase with
    | .waiting => some (s.put i { c with phase := .leaving ctxErr })
    | _ => none

/-- The waiter is deleted, whosever it is. -/
def StdioBackend.leave (s : StdioBackend) (i : Nat) : Option StdioBackend :=
  match s.calls[i]? with
  | none => none
  | some c =>
    match c.phase with
    | .leaving e =>
      some { s.put i { c with phase := .returned (.failed e) } with
        pending := Function.update s.pending (formatUint c.localID) none }
    | _ => none

/-- A line that fills the scanner's buffer without its newline ends the loop. -/
def maxStdioLine : Nat := 16 * 1024 * 1024

def dropCR (line : Bytes) : Bytes :=
  if line.getLast? = some 0x0d then line.dropLast else line

def stdioReply (error result : Option Bytes) : StdioReply :=
  match error with
  | none => .result result
  | some raw =>
    match J.rpcError raw with
    | .error e => .err (errorf ("npamp/proxy: malformed stdio-local-MCP error object: " ++ e))
    | .ok je => .rpcErr je

/-- The waiter a line is for, under its key, and the reply made from the line. -/
def StdioBackend.match? (s : StdioBackend) (line : Bytes) : Option (Bytes × Nat × StdioReply) :=
  if line.length = 0 then none
  else
    match parseJSONRPCObject J line with
    | .error _ => none
    | .ok parsed =>
      match parsed.id with
      | none => none
      | some key =>
        match s.pending key with
        | none => none
        | some i => some (key, i, stdioReply J parsed.error parsed.result)

def StdioBackend.scan (s : StdioBackend) (line : Bytes) : StdioBackend :=
  match s.match? J line with
  | none => { s with lines := s.lines ++ [line] }
  | some (key, i, reply) =>
    { s with lines := s.lines ++ [line]
             pending := Function.update s.pending key none
             handing := some (i, s.lines.length, reply) }

def StdioBackend.line (s : StdioBackend) (raw : Bytes) : Option StdioBackend :=
  if s.reading = false ∨ s.handing.isSome then none
  else if raw.length ≥ maxStdioLine then some { s with reading := false }
  else some (s.scan J (dropCR raw))

def StdioBackend.hand (s : StdioBackend) : Option StdioBackend :=
  match s.handing with
  | none => none
  | some (i, n, reply) =>
    match s.calls[i]? with
    | none => none
    | some c =>
      match c.ch with
      | some _ => none
      | none => some { s.put i { c with ch := some (n, reply) } with handing := none }

inductive StdioAction (V : Type) where
  | call (random : Vector UInt8 16) (method : Bytes) (params : Option V)
  | register (i : Nat)
  | written (i : Nat) (werr : Option String)
  | takeReply (i : Nat)
  | takeDone (i : Nat) (ctxErr : GoError)
  | leave (i : Nat)
  | line (raw : Bytes)
  | hand

def StdioBackend.step (s : StdioBackend) : StdioAction V → Option StdioBackend
  | .call random method params => some (s.call J random method params)
  | .register i => s.register i
  | .written i werr => s.written i werr
  | .takeReply i => s.takeReply i
  | .takeDone i ctxErr => s.takeDone i ctxErr
  | .leave i => s.leave i
  | .line raw => s.line J raw
  | .hand => s.hand

/-- The line is a Response object under the id: a `result` or an `error` member, no `method`. -/
def IsResponse (line id : Bytes) : Prop :=
  ∃ fields, J.object line = .ok fields ∧ fields "id" = some id ∧ fields "method" = none
    ∧ ((fields "result").isSome ∨ (fields "error").isSome)

/-- The reply is taken from a Response under the id. -/
def Answers (line id : Bytes) (reply : StdioReply) : Prop :=
  IsResponse J line id ∧
    ∃ fields, J.object line = .ok fields
      ∧ reply = stdioReply J (fields "error") (fields "result")

/-- The reply made from line `n` is with call `i`: on the way to its channel, in it, or what the
call returns. -/
def StdioBackend.Gets (s : StdioBackend) (i n : Nat) (r : StdioReply) : Prop :=
  s.handing = some (i, n, r)
    ∨ ∃ c, s.calls[i]? = some c ∧ (c.ch = some (n, r) ∨ c.phase = .returned (.reply n r))

/-- **Each call is answered by its own Response**, and a Response answers one call. -/
structure StdioBackend.Answered (s : StdioBackend) : Prop where
  own : ∀ (i : Nat) (c : StdioCall) (n : Nat) (r : StdioReply), s.calls[i]? = some c →
    c.phase = .returned (.reply n r) →
    ∃ line, s.lines[n]? = some line ∧ Answers J line (formatUint c.localID) r
  once : ∀ (i j : Nat) (c c' : StdioCall) (n : Nat) (r r' : StdioReply), s.calls[i]? = some c →
    s.calls[j]? = some c' → c.phase = .returned (.reply n r) → c'.phase = .returned (.reply n r') →
    i = j
  notRequest : ∀ (i : Nat) (c : StdioCall) (n : Nat) (r : StdioReply) (line : Bytes)
    (fields : String → Option Bytes), s.calls[i]? = some c → c.phase = .returned (.reply n r) →
    s.lines[n]? = some line → J.object line = .ok fields → fields "method" = none

/-- **The child keeps out of the ids under way**: of its objects only a Response bears the id of a
call that waits. -/
def StdioBackend.KeepsOut (s : StdioBackend) : StdioAction V → Prop
  | .line raw => ∀ parsed id, parseJSONRPCObject J (dropCR raw) = .ok parsed →
      parsed.id = some id → (s.pending id).isSome → IsResponse J (dropCR raw) id
  | _ => True

end Npamp
