import Npamp.Transcript

/-!
# HTTP-Carriage Objects, as a receiver reads them

`carriage_http.go` and `carriage/http.rs` look at a decoded map in the same way; `Receiver` is what
sets the two apart.
-/

namespace Npamp

def httpKindRequest : UInt64 := 1
def httpKindResponse : UInt64 := 2

structure HeaderKV (σ : Type) where
  name : σ
  value : Bytes

/-- The decoded object. Of a response, method and target are absent, of a request the status. -/
structure HttpCarriageObject (σ : Type) where
  kind : UInt64
  method : Option σ
  target : Option σ
  status : Option Nat
  headers : List (HeaderKV σ)
  body : Bytes

def lowerOctet (c : UInt8) : UInt8 := if 0x41 ≤ c ∧ c ≤ 0x5a then c + 0x20 else c

def pseudoHeaders : List Bytes :=
  [ascii ":method", ascii ":scheme", ascii ":authority", ascii ":path", ascii ":status"]

structure Receiver (α σ ε : Type) where
  uint : α → Option UInt64
  text : α → Option σ
  bytes : α → Option Bytes
  array : α → Option (List α)
  octets : σ → Bytes
  malformed : String → ε
  quote : σ → String

namespace Receiver

variable {α σ ε : Type} (R : Receiver α σ ε)

def err {β : Type} (reason : String) : Except ε β := .error (R.malformed reason)

def isPseudoHeader (name : σ) : Bool := R.octets name ∈ pseudoHeaders

def decodeHeaderEntry (entryRaw : α) : Except ε (HeaderKV σ) :=
  match R.array entryRaw with
  | some [nameRaw, valRaw] =>
    match R.text nameRaw with
    | none => R.err "a headers entry's name is not a text string"
    | some name =>
      match R.bytes valRaw with
      | none => R.err "a headers entry's value is not a byte string"
      | some val => .ok ⟨name, val⟩
  | _ => R.err "a headers entry is not a 2-element [name, value] array"

def decodeHeaderEntries : List α → Except ε (List (HeaderKV σ))
  | [] => .ok []
  | entryRaw :: rest => do
      let kv ← R.decodeHeaderEntry entryRaw
      let out ← decodeHeaderEntries rest
      return kv :: out

def decodeHeaderList (raw : α) : Except ε (List (HeaderKV σ)) :=
  match R.array raw with
  | none => R.err "key 8 (headers) is not an array"
  | some arr => R.decodeHeaderEntries arr

variable (get : UInt64 → Option α)

def decodeKind (wantKind : UInt64) : Except ε UInt64 :=
  match get 1 with
  | none => R.err "missing REQUIRED key 1 (kind)"
  | some kindRaw =>
    match R.uint kindRaw with
    | none => R.err "key 1 (kind) is not an unsigned integer"
    | some kind =>
      if kind ≠ wantKind then
        R.err ("object kind " ++ toString kind ++ " disagrees with frame type (want "
          ++ toString wantKind ++ ")")
      else .ok kind

def decodeText (key : UInt64) (reason : String) : Except ε σ :=
  match (get key).bind R.text with
  | none => R.err reason
  | some s => if R.octets s = [] then R.err reason else .ok s

def decodeStatus : Except ε Nat :=
  match get 6 with
  | none => R.err "response missing REQUIRED key 6 (status)"
  | some statusRaw =>
    match R.uint statusRaw with
    | none => R.err "key 6 (status) is not a valid HTTP status code"
    | some status =>
      if status.toNat < 100 ∨ 599 < status.toNat then
        R.err "key 6 (status) is not a valid HTTP status code"
      else .ok status.toNat

def absent (key : UInt64) (reason : String) : Except ε Unit :=
  if (get key).isSome then R.err reason else .ok ()

def decodeStart (kind : UInt64) : Except ε (Option σ × Option σ × Option Nat) :=
  if kind = httpKindRequest then do
    let method ← R.decodeText get 2 "request missing REQUIRED key 2 (method)"
    let target ← R.decodeText get 3 "request missing REQUIRED key 3 (target)"
    R.absent get 6 "request MUST NOT carry key 6 (status)"
    return (some method, some target, none)
  else if kind = httpKindResponse then do
    let status ← R.decodeStatus get
    R.absent get 2 "response MUST NOT carry key 2 (method)"
    R.absent get 3 "response MUST NOT carry key 3 (target)"
    return (none, none, some status)
  else
    R.err ("unsupported object kind " ++ toString kind ++ " (streaming kinds 3/4 not yet built)")

def decodeHeaders : Except ε (List (HeaderKV σ)) :=
  match get 8 with
  | none => .ok []
  | some hdrsRaw => do
      let hdrs ← R.decodeHeaderList hdrsRaw
      match hdrs.find? fun kv => R.isPseudoHeader kv.name with
      | some kv => R.err ("pseudo-header " ++ R.quote kv.name ++ " present in headers array")
      | none => return hdrs

def decodeBody : Except ε Bytes :=
  match get 9 with
  | none => .ok []
  | some bodyRaw =>
    match R.bytes bodyRaw with
    | none => R.err "key 9 (body) is not a byte string"
    | some body => .ok body

def decodeObject (wantKind : UInt64) : Except ε (HttpCarriageObject σ) := do
  let kind ← R.decodeKind get wantKind
  let (method, target, status) ← R.decodeStart get kind
  let headers ← R.decodeHeaders get
  let body ← R.decodeBody get
  return { kind := kind, method := method, target := target, status := status
           headers := headers, body := body }

end Receiver

end Npamp
