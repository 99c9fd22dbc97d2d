import Npamp.Lib.Text
import Npamp.Lib.Utf8
import Npamp.Transcript

/-!
# Signed grant requests

`gnapsig.go`: the signature base of an HTTP message and the Ed25519 signature over it.
-/

namespace Npamp.Gnap

open Text (integer)

def errKeyProofMismatch : GoError :=
  errorf "npamp/gnap: RFC 9421 HTTP message signature does not verify"

def errUnknownComponent : GoError :=
  errorf "npamp/gnap: no value supplied for a covered signature component"

structure SignatureParams where
  created : Int64
  expires : Int64
  nonce : Bytes
  alg : Bytes
  keyID : Bytes
  tag : Bytes
  deriving DecidableEq

def sfString (s : Bytes) : Bytes :=
  ascii "\"" ++ (Utf8.runes s).flatMap
    (fun r => if r = ascii "\\" ∨ r = ascii "\"" then ascii "\\" ++ r else r) ++ ascii "\""

def formatInt (n : Int64) : Bytes := integer n.toInt

/-- A parameter is written unless it has the zero value of its type. -/
def param {α : Type} [DecidableEq α] (key : String) (zero : α) (format : α → Bytes) (v : α) :
    Bytes :=
  if v ≠ zero then ascii key ++ format v else []

def serializeParams (p : SignatureParams) : Bytes :=
  param ";created=" 0 formatInt p.created ++ (param ";expires=" 0 formatInt p.expires
    ++ (param ";nonce=" [] sfString p.nonce ++ (param ";alg=" [] sfString p.alg
    ++ (param ";keyid=" [] sfString p.keyID ++ param ";tag=" [] sfString p.tag))))

def serializeComponentList (components : List Bytes) : Bytes :=
  ascii "(" ++ (ascii " ").intercalate (components.map sfString) ++ ascii ")"

def lines (values : Bytes → Option Bytes) : List Bytes → Except GoError Bytes
  | [] => .ok []
  | c :: cs =>
    match values c with
    | none => .error errUnknownComponent
    | some v =>
      match lines values cs with
      | .error err => .error err
      | .ok rest => .ok (sfString c ++ ascii ": " ++ v ++ ascii "\n" ++ rest)

def buildSignatureBase (components : List Bytes) (values : Bytes → Option Bytes)
    (params : SignatureParams) : Except GoError Bytes :=
  match lines values components with
  | .error err => .error err
  | .ok b => .ok (b ++ (sfString (ascii "@signature-params") ++ ascii ": "
      ++ serializeComponentList components ++ serializeParams params))

variable (P : Primitives)

def sign (priv : Bytes) (components : List Bytes) (values : Bytes → Option Bytes)
    (params : SignatureParams) : Except GoError (Bytes × Bytes) :=
  match buildSignatureBase components values params with
  | .error err => .error err
  | .ok base => .ok (base, P.ed25519Sign priv base)

/-- `none` is the panic of `ed25519.Verify`. -/
def verify (pub : Bytes) (components : List Bytes) (values : Bytes → Option Bytes)
    (params : SignatureParams) (sig : Bytes) : Option (Except GoError Unit) :=
  match buildSignatureBase components values params with
  | .error err => some (.error err)
  | .ok base =>
    if pub.length ≠ 32 then none
    else if P.ed25519Verify pub base sig then some (.ok ())
    else some (.error errKeyProofMismatch)

end Npamp.Gnap
