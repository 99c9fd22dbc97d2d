import Npamp.Error

/-!
# SPIFFE identities

`identity.rs`. A `SpiffeId` has no constructor but `parse`, so it carries the checks `parse` makes.
A Rust string is the list of its characters.
-/

namespace Npamp.Mesh

abbrev Str := List Char

def strLen (s : Str) : Nat := (s.map Char.utf8Size).sum

inductive SpiffeIdError where
  | tooLong (n : Nat)
  | wrongScheme
  | hasQueryOrFragment
  | emptyTrustDomain
  | trustDomainTooLong (n : Nat)
  | invalidTrustDomainChar (c : Char)
  | nonEmptyUserinfoOrPort
  | emptyPathSegment
  | relativePathSegment (seg : Str)
  | invalidPathSegmentChar (c : Char)
  | trailingSlash
  deriving DecidableEq, Repr

def maxUriLen : Nat := 2048

def maxTrustDomainLen : Nat := 255

def isTrustDomainChar (c : Char) : Bool :=
  c.isLower || c.isDigit || c == '.' || c == '-' || c == '_'

def isPathSegmentChar (c : Char) : Bool :=
  c.isAlphanum || c == '.' || c == '-' || c == '_'

def checkTrustDomain (trustDomain : Str) : Except SpiffeIdError Unit :=
  if trustDomain = [] then .error .emptyTrustDomain
  else if strLen trustDomain > maxTrustDomainLen then
    .error (.trustDomainTooLong (strLen trustDomain))
  else
    match trustDomain.find? fun c => !isTrustDomainChar c with
    | some c => .error (.invalidTrustDomainChar c)
    | none => .ok ()

def checkSegment (seg : Str) : Except SpiffeIdError Unit :=
  if seg = [] then .error .emptyPathSegment
  else if seg = ['.'] ∨ seg = ['.', '.'] then .error (.relativePathSegment seg)
  else
    match seg.find? fun c => !isPathSegmentChar c with
    | some c => .error (.invalidPathSegmentChar c)
    | none => .ok ()

def checkSegments : List Str → Except SpiffeIdError Unit
  | [] => .ok ()
  | seg :: segs =>
    match checkSegment seg with
    | .error e => .error e
    | .ok () => checkSegments segs

def checkPathBody (pathBody : Str) : Except SpiffeIdError Unit :=
  if pathBody = [] then .ok () else checkSegments (pathBody.splitOn '/')

structure SpiffeId where
  trustDomain : Str
  pathBody : Str
  trustDomain_checked : checkTrustDomain trustDomain = .ok ()
  pathBody_checked : checkPathBody pathBody = .ok ()
  deriving DecidableEq

namespace SpiffeId

def path (id : SpiffeId) : Str := '/' :: id.pathBody

def scheme : Str := "spiffe://".toList

def strip : Str → Str → Option Str
  | [], s => some s
  | _ :: _, [] => none
  | x :: initial, c :: s => if x = c then strip initial s else none

def parse (s : Str) : Except SpiffeIdError SpiffeId :=
  if strLen s > maxUriLen then .error (.tooLong (strLen s))
  else
    match strip scheme s with
    | none => .error .wrongScheme
    | some rest =>
      let authority := rest.takeWhile (· ≠ '/')
      let path := rest.dropWhile (· ≠ '/')
      let pathBody := path.dropWhile (· = '/')
      if '?' ∈ rest ∨ '#' ∈ rest then .error .hasQueryOrFragment
      else if '@' ∈ authority ∨ ':' ∈ authority then .error .nonEmptyUserinfoOrPort
      else
        match hdomain : checkTrustDomain (authority.map Char.toLower) with
        | .error e => .error e
        | .ok () =>
          if path.getLast? = some '/' ∧ path.length > 1 then .error .trailingSlash
          else
            match hpath : checkPathBody pathBody with
            | .error e => .error e
            | .ok () => .ok ⟨authority.map Char.toLower, pathBody, hdomain, hpath⟩

end SpiffeId

structure Svid where
  id : SpiffeId
  signingKey : Bytes
  deriving DecidableEq

inductive IdentityError where
  | unknownWorkload (pid : UInt32)
  | malformed (msg : Str)
  | unreachable (msg : Str)
  | expired (pid : UInt32) (expiresAtUnix : Int64)
  deriving DecidableEq, Repr

abbrev IdentitySource := UInt32 → Except IdentityError Svid

end Npamp.Mesh
