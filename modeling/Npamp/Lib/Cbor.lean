import Npamp.Lib.BigEndian
import Mathlib.Data.List.Basic

/-!
# Deterministic CBOR decoders

Decoders of the core-deterministic subset of CBOR share one recursion. A `Dialect` is what they
differ in.
-/

namespace Cbor

inductive Fault where
  | trailing
  | truncated
  | notShortest
  | indefinite
  | reserved
  /-- a float, or a simple value other than `false`, `true` and `null` -/
  | simple
  | tag
  | mapOrder
  | depth
  deriving DecidableEq, Repr

def head (major : UInt8) (arg : UInt64) : List UInt8 :=
  let mb := major <<< 5
  if arg < 24 then [mb ||| arg.toUInt8]
  else if arg.toNat < 2 ^ 8 then (mb ||| 24) :: BigEndian.toBytes 1 arg.toNat
  else if arg.toNat < 2 ^ 16 then (mb ||| 25) :: BigEndian.toBytes 2 arg.toNat
  else if arg.toNat < 2 ^ 32 then (mb ||| 26) :: BigEndian.toBytes 4 arg.toNat
  else (mb ||| 27) :: BigEndian.toBytes 8 arg.toNat

def readWide (width bound : Nat) (b : List UInt8) : Except Fault (UInt64 × Nat) :=
  if b.length < width + 1 then .error .truncated
  else if BigEndian.ofBytes ((b.take (width + 1)).drop 1) < bound then .error .notShortest
  else .ok (UInt64.ofNat (BigEndian.ofBytes ((b.take (width + 1)).drop 1)), width + 1)

def readArg (ai : UInt8) (b : List UInt8) : Except Fault (UInt64 × Nat) :=
  if ai < 24 then .ok (ai.toUInt64, 1)
  else if ai = 24 then readWide 1 24 b
  else if ai = 25 then readWide 2 (2 ^ 8) b
  else if ai = 26 then readWide 4 (2 ^ 16) b
  else if ai = 27 then readWide 8 (2 ^ 32) b
  else if ai = 31 then .error .indefinite
  else .error .reserved

structure Entry (α : Type) where
  octets : List UInt8
  key : α
  val : α

/-- What sets one decoder apart from another: its errors `ε`, its values `α`, and its order of
encoded keys. -/
structure Dialect (ε α : Type) where
  fault : Fault → ε
  uint : UInt64 → α
  nint : UInt64 → Except ε α
  bytes : List UInt8 → α
  text : List UInt8 → Except ε α
  array : List α → α
  map : List (Entry α) → α
  bool : Bool → α
  null : α
  less : List UInt8 → List UInt8 → Bool

variable {ε α : Type}

def decodeItems (decode : List UInt8 → Except ε (α × Nat)) :
    Nat → List UInt8 → Except ε (List α × Nat)
  | 0, _ => .ok ([], 0)
  | count + 1, b =>
    match decode b with
    | .error e => .error e
    | .ok (el, en) =>
      match decodeItems decode count (b.drop en) with
      | .error e => .error e
      | .ok (rest, n) => .ok (el :: rest, en + n)

namespace Dialect

variable (D : Dialect ε α)

def follows (prev : Option (List UInt8)) (octets : List UInt8) : Bool :=
  match prev with
  | none => true
  | some p => D.less p octets

def decodeEntries (decode : List UInt8 → Except ε (α × Nat)) :
    Nat → Option (List UInt8) → List UInt8 → Except ε (List (Entry α) × Nat)
  | 0, _, _ => .ok ([], 0)
  | count + 1, prev, b =>
    match decode b with
    | .error e => .error e
    | .ok (key, kn) =>
      if D.follows prev (b.take kn) = false then .error (D.fault .mapOrder)
      else
        match decode (b.drop kn) with
        | .error e => .error e
        | .ok (val, vn) =>
          match decodeEntries decode count (some (b.take kn)) (b.drop (kn + vn)) with
          | .error e => .error e
          | .ok (rest, n) => .ok (⟨b.take kn, key, val⟩ :: rest, kn + vn + n)

def decodeSimple (ai : UInt8) : Except ε (α × Nat) :=
  if ai = 20 then .ok (D.bool false, 1)
  else if ai = 21 then .ok (D.bool true, 1)
  else if ai = 22 then .ok (D.null, 1)
  else .error (D.fault .simple)

def decodeBody (decode : List UInt8 → Except ε (α × Nat)) (major : UInt8) (b : List UInt8)
    (arg : UInt64) (n : Nat) : Except ε (α × Nat) :=
  if major = 0 then .ok (D.uint arg, n)
  else if major = 1 then
    match D.nint arg with
    | .error e => .error e
    | .ok v => .ok (v, n)
  else if major = 2 then
    if n + arg.toNat > b.length then .error (D.fault .truncated)
    else .ok (D.bytes ((b.take (n + arg.toNat)).drop n), n + arg.toNat)
  else if major = 3 then
    if n + arg.toNat > b.length then .error (D.fault .truncated)
    else
      match D.text ((b.take (n + arg.toNat)).drop n) with
      | .error e => .error e
      | .ok v => .ok (v, n + arg.toNat)
  else if major = 4 then
    if arg.toNat > b.length - n then .error (D.fault .truncated)
    else
      match decodeItems decode arg.toNat (b.drop n) with
      | .error e => .error e
      | .ok (items, m) => .ok (D.array items, n + m)
  else if major = 5 then
    if arg.toNat > b.length - n then .error (D.fault .truncated)
    else
      match D.decodeEntries decode arg.toNat none (b.drop n) with
      | .error e => .error e
      | .ok (entries, m) => .ok (D.map entries, n + m)
  else .error (D.fault .tag)

def decode : Nat → List UInt8 → Except ε (α × Nat)
  | 0, _ => .error (D.fault .depth)
  | _ + 1, [] => .error (D.fault .truncated)
  | levels + 1, ib :: tail =>
    if ib >>> 5 = 7 then D.decodeSimple (ib &&& 0x1f) else
      match readArg (ib &&& 0x1f) (ib :: tail) with
      | .error f => .error (D.fault f)
      | .ok (arg, n) => D.decodeBody (decode levels) (ib >>> 5) (ib :: tail) arg n

def decodeTop (levels : Nat) (b : List UInt8) : Except ε α :=
  match D.decode levels b with
  | .error e => .error e
  | .ok (v, n) => if n ≠ b.length then .error (D.fault .trailing) else .ok v

end Dialect

/-- The points at which decoders may part: a negative integer, a text string, and a map key with the
key before it in the same map. -/
inductive Visit where
  | nint (arg : UInt64)
  | text (payload : List UInt8)
  | key (prev : Option (List UInt8)) (octets : List UInt8)
  deriving DecidableEq, Repr

def visitItems (decode : List UInt8 → Except ε (α × Nat)) (visits : List UInt8 → List Visit) :
    Nat → List UInt8 → List Visit
  | 0, _ => []
  | count + 1, b =>
    visits b ++
      match decode b with
      | .error _ => []
      | .ok (_, en) => visitItems decode visits count (b.drop en)

namespace Dialect

variable (D : Dialect ε α)

/-- What is read in the entries of a map, up to the first key out of order or item that fails. -/
def visitEntries (decode : List UInt8 → Except ε (α × Nat)) (visits : List UInt8 → List Visit) :
    Nat → Option (List UInt8) → List UInt8 → List Visit
  | 0, _, _ => []
  | count + 1, prev, b =>
    visits b ++
      match decode b with
      | .error _ => []
      | .ok (_, kn) =>
        .key prev (b.take kn) ::
          if D.follows prev (b.take kn) = false then []
          else
            visits (b.drop kn) ++
              match decode (b.drop kn) with
              | .error _ => []
              | .ok (_, vn) =>
                visitEntries decode visits count (some (b.take kn)) (b.drop (kn + vn))

def visitBody (decode : List UInt8 → Except ε (α × Nat)) (visits : List UInt8 → List Visit)
    (major : UInt8) (b : List UInt8) (arg : UInt64) (n : Nat) : List Visit :=
  if major = 1 then [.nint arg]
  else if major = 3 then
    if n + arg.toNat > b.length then [] else [.text ((b.take (n + arg.toNat)).drop n)]
  else if major = 4 then
    if arg.toNat > b.length - n then [] else visitItems decode visits arg.toNat (b.drop n)
  else if major = 5 then
    if arg.toNat > b.length - n then []
    else D.visitEntries decode visits arg.toNat none (b.drop n)
  else []

def visits : Nat → List UInt8 → List Visit
  | levels + 1, ib :: tail =>
    if ib >>> 5 = 7 then [] else
      match readArg (ib &&& 0x1f) (ib :: tail) with
      | .error _ => []
      | .ok (arg, n) =>
        D.visitBody (D.decode levels) (visits levels) (ib >>> 5) (ib :: tail) arg n
  | _, _ => []

end Dialect

end Cbor
