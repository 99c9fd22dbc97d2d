import Npamp.Cbor

/-!
# The ERROR frame body

`errorframe.go` writes the map `{1: code, 2: context}` with the general encoder and parses it with a
small reader of its own.
-/

namespace Npamp

abbrev SessionErrorCode := UInt8

def errCodeUnexpectedMessage : SessionErrorCode := 1
def errCodeDecryptFailed : SessionErrorCode := 2
def errCodeKeyUpdateOutOfOrder : SessionErrorCode := 9

def errCodeNames : List String :=
  ["unexpected_message", "decrypt_failed", "replay_detected", "unknown_channel",
    "unknown_critical_tlv", "handshake_timeout", "downgrade_detected", "close_incomplete",
    "key_update_out_of_order", "flow_control_error"]

def itoaHex (v : UInt64) : String := "0x" ++ String.ofList (Nat.toDigits 16 v.toNat)

def errCodeString (code : SessionErrorCode) : String :=
  if code = 0 then "error_code(" ++ itoaHex code.toUInt64 ++ ")"
  else (errCodeNames[code.toNat - 1]?).getD ("error_code(" ++ itoaHex code.toUInt64 ++ ")")

structure SessionError where
  code : SessionErrorCode
  context : Bytes
  deriving DecidableEq, Repr

def SessionError.err (e : SessionError) : GoError :=
  errorf ("npamp: peer aborted the association with " ++ errCodeString e.code)

/-- `EncodeErrorBody`. A nil context is the empty list. -/
def encodeErrorBody (code : SessionErrorCode) (context : Bytes) : Bytes :=
  cborEncode (.mapU [.mk 1 (.uint64 code.toUInt64), .mk 2 (.bytes context)])

def malformedErrorBody {α : Type} : Except GoError α := .error Sentinel.errMalformedErrorBody.err

def cborReadUint : Bytes → Except GoError (UInt64 × Nat)
  | [] => malformedErrorBody
  | ib :: tail =>
    if ib >>> 5 ≠ 0 then malformedErrorBody
    else
      let ai := ib &&& 0x1f
      if ai < 24 then .ok (ai.toUInt64, 1)
      else if ai = 24 then
        if tail.length < 1 ∨ tail.getD 0 0 < 24 then malformedErrorBody
        else .ok ((tail.getD 0 0).toUInt64, 2)
      else if ai = 25 then
        if tail.length < 2 then malformedErrorBody
        else if (uint64 (tail.take 2)).toNat < 256 then malformedErrorBody
        else .ok (uint64 (tail.take 2), 3)
      else malformedErrorBody

/-- `cborReadBstr`: the header is read as an unsigned integer with the major type masked off. -/
def cborReadBstr : Bytes → Except GoError (Bytes × Nat)
  | [] => malformedErrorBody
  | ib :: tail =>
    if ib >>> 5 ≠ 2 then malformedErrorBody
    else
      match cborReadUint ((ib &&& 0x1f) :: tail) with
      | .error _ => malformedErrorBody
      | .ok (ln, hn) =>
        if hn + ln.toNat > (ib :: tail).length then malformedErrorBody
        else .ok (slice (ib :: tail) hn (hn + ln.toNat), hn + ln.toNat)

def decodeErrorBody (b : Bytes) : Except GoError SessionError :=
  if b.getD 0 0 ≠ 0xa2 ∨ b.getD 1 0 ≠ 0x01 then malformedErrorBody
  else
    match cborReadUint (b.drop 2) with
    | .error _ => malformedErrorBody
    | .ok (code, n) =>
      if code.toNat > 255 then malformedErrorBody
      else if b.getD (2 + n) 0 ≠ 0x02 then malformedErrorBody
      else
        match cborReadBstr (b.drop (3 + n)) with
        | .error _ => malformedErrorBody
        | .ok (context, m) =>
          if 3 + n + m ≠ b.length then malformedErrorBody
          else .ok { code := code.toUInt8, context := context }

end Npamp
