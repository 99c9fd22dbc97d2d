import Npamp.Crypto
import Npamp.ErrorFrame
import Mathlib.Data.Finset.Basic

/-!
# The state of a connection

`sdk/conn.go`, `sdk/ratchet.go` and `sdk/pendingack.go`. A Go map is a total function into `Option`,
the pending-ACK multiset a function into `Nat`.
-/

namespace Npamp

def chanControl : ChannelID := 0x0000

def frameClose : FrameType := 0x0003
def frameCloseAck : FrameType := 0x0004
def frameError : FrameType := 0x0005
def frameKeyUpdate : FrameType := 0x0006
def frameKeyUpdateAck : FrameType := 0x0007
def frameMasterRatchet : FrameType := 0x0104
def frameMasterRatchetAck : FrameType := 0x0105
def frameReKEM : FrameType := 0x0106
def frameReKEMAck : FrameType := 0x0107

def maxUint64 : UInt64 := 0xFFFFFFFFFFFFFFFF

def marker (t : TLVType) (v : UInt64) : Bytes := (TLV.mk t (putUint64 v)).encode []

def parseMarker (t : TLVType) (name : String) (payload : Bytes) : Except GoError UInt64 :=
  match decodeTLVs payload with
  | .error e => .error e
  | .ok [tlv] =>
    if tlv.type ≠ t then .error (errorf ("expected a single " ++ name ++ " TLV"))
    else if tlv.value.length ≠ 8 then
      .error (errorf (name ++ " is " ++ toString tlv.value.length ++ " octets, want 8"))
    else .ok (uint64 tlv.value)
  | .ok _ => .error (errorf ("expected a single " ++ name ++ " TLV"))

def keyUpdateMarker (epoch : UInt64) : Bytes := marker tlvKeyUpdateMarker epoch

def parseKeyUpdateMarker (payload : Bytes) : Except GoError UInt64 :=
  parseMarker tlvKeyUpdateMarker "KeyUpdateMarker" payload

def ratchetGenMarker (gen : UInt64) : Bytes := marker tlvRatchetGeneration gen

def parseRatchetGenMarker (payload : Bytes) : Except GoError UInt64 :=
  parseMarker tlvRatchetGeneration "RatchetGeneration" payload

def encodeWithGen (t : TLVType) (value : Bytes) (gen : UInt64) : Bytes :=
  (TLV.mk tlvRatchetGeneration (putUint64 gen)).encode ((TLV.mk t value).encode [])

def parseWithGen (t : TLVType) (name : String) (size : Nat) (sizeErr : Sentinel) (payload : Bytes) :
    Except GoError (Bytes × UInt64) :=
  match decodeTLVs payload with
  | .error e => .error e
  | .ok [value, gen] =>
    if value.type ≠ t ∨ gen.type ≠ tlvRatchetGeneration then
      .error (errorf ("expected " ++ name ++ " + RatchetGeneration TLVs"))
    else if value.value.length ≠ size then .error sizeErr.err
    else if gen.value.length ≠ 8 then
      .error (errorf ("RatchetGeneration is " ++ toString gen.value.length ++ " octets, want 8"))
    else .ok (value.value, uint64 gen.value)
  | .ok _ => .error (errorf ("expected " ++ name ++ " + RatchetGeneration TLVs"))

def encodeReKEM (kemShare : Bytes) (gen : UInt64) : Bytes := encodeWithGen tlvKEMShare kemShare gen

def parseReKEM (payload : Bytes) : Except GoError (Bytes × UInt64) :=
  parseWithGen tlvKEMShare "KEMShare" kemShareSize768 .errKEMShareSize payload

def encodeReKEMAck (kemCT : Bytes) (gen : UInt64) : Bytes :=
  encodeWithGen tlvKEMCiphertext kemCT gen

def parseReKEMAck (payload : Bytes) : Except GoError (Bytes × UInt64) :=
  parseWithGen tlvKEMCiphertext "KEMCiphertext" kemCiphertextSize768 .errKEMCiphertextSize payload

/-- `thRekem`: the transcript point over the REKEM / REKEM_ACK exchange. -/
def thRekem (P : Primitives) (p : Profile) (kemShare kemCT : Bytes) (gen : UInt64) :
    Except GoError Bytes :=
  match newTranscript p with
  | .error e => .error e
  | .ok tr =>
    let g : TLV := { type := tlvRatchetGeneration, value := putUint64 gen }
    .ok <| Transcript.sum P <|
      (((((tr.addFrameType frameReKEM).addTLV { type := tlvKEMShare, value := kemShare }).addTLV
        g).addFrameType frameReKEMAck).addTLV
          { type := tlvKEMCiphertext, value := kemCT }).addTLV g

structure EpochKeys where
  epoch : UInt64
  key : Bytes
  iv : Bytes
  seq : UInt64
  deriving DecidableEq, Repr

def EpochKeys.zeroize (k : EpochKeys) : EpochKeys :=
  { k with key := List.replicate 32 0, iv := List.replicate 12 0 }

def EpochKeys.new : EpochKeys :=
  { epoch := 0, key := List.replicate 32 0, iv := List.replicate 12 0, seq := 0 }

def EpochKeys.next (k : EpochKeys) : EpochKeys := { k with seq := k.seq + 1 }

section Derive

variable (P : Primitives)

def EpochKeys.derive (k : EpochKeys) (master : Bytes) (dir : Direction) (channel : ChannelID)
    (p : Profile) : Except GoError EpochKeys :=
  match deriveTrafficSecret P master dir k.epoch aeadAES256GCM channel p with
  | .error e => .error e
  | .ok ts =>
    match deriveKeyIV P ts p with
    | .error e => .error e
    | .ok (key, iv) => .ok { k with key := key, iv := iv }

def EpochKeys.advance (k : EpochKeys) (master : Bytes) (dir : Direction) (channel : ChannelID)
    (p : Profile) : Except GoError EpochKeys :=
  EpochKeys.derive P { k.zeroize with epoch := k.epoch + 1, seq := 0 } master dir channel p

end Derive

/-- `pendingReKEM`: the initiator's side of a re-KEM in flight. -/
structure PendingReKEM where
  client : KEMClient
  kemShare : Bytes
  targetGen : UInt64

/-- `Conn`. The profile is one with a cipher suite, so no key derivation fails. A close-ACK channel
is its number; `signalled` lists those closed by the receive path. -/
structure Conn where
  profile : Profile
  hasSuite : hashForProfile profile = .ok ()
  masterSend : Bytes
  masterRecv : Bytes
  genSend : UInt64
  genRecv : UInt64
  sendDir : Direction
  recvDir : Direction
  sendKeys : ChannelID → Option EpochKeys
  recvKeys : ChannelID → Option EpochKeys
  pendingReKEM : Option PendingReKEM
  pendingKUAck : ChannelID → UInt64 → Nat
  pendingMRAck : Finset UInt64
  droppedUnauthenticated : UInt64
  droppedOutOfSequence : UInt64
  closing : Bool
  closeAckCh : Option Nat
  signalled : List Nat
  closed : Bool

def newConn (master : Bytes) (sendDir recvDir : Direction) : Conn where
  profile := profileStandard
  hasSuite := rfl
  masterSend := master
  masterRecv := master
  genSend := 0
  genRecv := 0
  sendDir := sendDir
  recvDir := recvDir
  sendKeys := fun _ => none
  recvKeys := fun _ => none
  pendingReKEM := none
  pendingKUAck := fun _ _ => 0
  pendingMRAck := ∅
  droppedUnauthenticated := 0
  droppedOutOfSequence := 0
  closing := false
  closeAckCh := none
  signalled := []
  closed := false

namespace Conn

def addPendingKeyUpdateAck (c : Conn) (channel : ChannelID) (epoch : UInt64) : Conn :=
  { c with
    pendingKUAck := fun ch e =>
      if ch = channel ∧ e = epoch then c.pendingKUAck ch e + 1 else c.pendingKUAck ch e }

def removePendingKeyUpdateAck (c : Conn) (channel : ChannelID) (epoch : UInt64) : Conn :=
  { c with
    pendingKUAck := fun ch e =>
      if ch = channel ∧ e = epoch then c.pendingKUAck ch e - 1 else c.pendingKUAck ch e }

/-- Reports whether the acknowledgement was solicited, and then forgets one such entry. -/
def consumePendingKeyUpdateAck (c : Conn) (channel : ChannelID) (epoch : UInt64) : Conn × Bool :=
  if c.pendingKUAck channel epoch = 0 then (c, false)
  else (c.removePendingKeyUpdateAck channel epoch, true)

def addPendingRatchetAck (c : Conn) (gen : UInt64) : Conn :=
  { c with pendingMRAck := insert gen c.pendingMRAck }

def removePendingRatchetAck (c : Conn) (gen : UInt64) : Conn :=
  { c with pendingMRAck := c.pendingMRAck.erase gen }

def consumePendingRatchetAck (c : Conn) (gen : UInt64) : Conn × Bool :=
  if gen ∈ c.pendingMRAck then (c.removePendingRatchetAck gen, true) else (c, false)

def clearClosing (c : Conn) : Conn := { c with closing := false, closeAckCh := none }

def signalCloseAck (c : Conn) : Conn × Bool :=
  if c.closing then
    ({ c with
        closing := false
        closeAckCh := none
        signalled := c.closeAckCh.toList ++ c.signalled }, true)
  else (c, false)

def wipeRoot (b : Bytes) : Bytes := List.replicate b.length 0

def zeroize (c : Conn) : Conn :=
  { c with
    closed := true
    masterSend := wipeRoot c.masterSend
    masterRecv := wipeRoot c.masterRecv
    sendKeys := fun ch => (c.sendKeys ch).map EpochKeys.zeroize
    recvKeys := fun ch => (c.recvKeys ch).map EpochKeys.zeroize
    pendingReKEM := none
    pendingKUAck := fun _ _ => 0
    pendingMRAck := ∅ }

def dropSendKeys (c : Conn) : Conn := { c with sendKeys := fun _ => none }

def dropRecvKeys (c : Conn) : Conn := { c with recvKeys := fun _ => none }

/-- `sendState`: the send key of `channel`, derived at epoch 0 and cached on first use. -/
def sendState (P : Primitives) (c : Conn) (channel : ChannelID) : Except GoError (EpochKeys × Conn) :=
  if c.closed then .error Sentinel.errClosed.err
  else
    match c.sendKeys channel with
    | some st => .ok (st, c)
    | none =>
      match EpochKeys.new.derive P c.masterSend c.sendDir channel c.profile with
      | .error e => .error e
      | .ok st => .ok (st, { c with sendKeys := Function.update c.sendKeys channel (some st) })

def recvState (P : Primitives) (c : Conn) (channel : ChannelID) : Except GoError (EpochKeys × Conn) :=
  if c.closed then .error Sentinel.errClosed.err
  else
    match c.recvKeys channel with
    | some st => .ok (st, c)
    | none =>
      match EpochKeys.new.derive P c.masterRecv c.recvDir channel c.profile with
      | .error e => .error e
      | .ok st => .ok (st, { c with recvKeys := Function.update c.recvKeys channel (some st) })

end Conn

def recordFrame (seq : UInt64) (channel : ChannelID) (ft : FrameType) (payload : Bytes) : Frame :=
  { version := 0, flags := flagENC, type := ft, channel := channel, seq := seq, payload := payload }

def recordAAD (seq : UInt64) (channel : ChannelID) (ft : FrameType) (plaintext : Bytes) : Bytes :=
  (recordFrame seq channel ft []).headerPrefix (UInt32.ofNat (plaintext.length + 16))

def sealWith (P : Primitives) (st : EpochKeys) (channel : ChannelID) (ft : FrameType)
    (plaintext : Bytes) : Bytes :=
  (recordFrame st.seq channel ft
    (sealAES256GCM P st.key st.iv st.seq (recordAAD st.seq channel ft plaintext)
      plaintext)).marshalBinary

def openWith (P : Primitives) (st : EpochKeys) (f : Frame) : Except GoError Bytes :=
  openAES256GCM P st.key st.iv f.seq (f.headerPrefix (UInt32.ofNat f.payload.length)) f.payload

end Npamp
