import Npamp.Framers

/-!
# The firewalled relay

`relay.go`, and the firewall's hook: the registry check of the wire validator, then the deployment's
policy, which may keep state of a type `σ`. Writes to the other leg succeed.
-/

namespace Npamp

namespace Relay

inductive Direction where
  | aToB
  | bToA
  deriving DecidableEq, Repr

def Direction.string : Direction → String
  | aToB => "A->B"
  | bToA => "B->A"

structure FrameHeader where
  raw : Bytes
  version : UInt8
  flags : UInt8
  type : UInt16
  channel : UInt16
  seq : UInt64
  payloadLen : UInt32
  deriving DecidableEq, Repr

/-- The header `forward` hands to the hook for a frame read as `raw`. -/
def FrameHeader.ofFrame (raw : Bytes) (f : Frame) : FrameHeader :=
  { raw := slice raw 0 headerSize
    version := f.version
    flags := f.flags
    type := f.type
    channel := f.channel
    seq := f.seq
    payloadLen := UInt32.ofNat f.payload.length }

abbrev HookFunc (σ : Type) := σ → Direction → FrameHeader → Except GoError σ

end Relay

open Relay

def systemFrameMax : UInt16 := 0x000A

structure Registries where
  channels : List (UInt16 × String)
  systemFrames : List (UInt16 × String)
  chanFrames : List ((UInt16 × UInt16) × String)
  deriving DecidableEq, Repr

def rejectError (reason detail : String) : GoError :=
  errorf ("wirevalidator: reject [" ++ reason ++ "]: " ++ detail)

def Registries.checkFrameType (reg : Registries) (channel frameType : UInt16) :
    Except GoError Unit :=
  if frameType = 0 then
    .error (rejectError "frame_type_reserved"
      "frame type 0x0000 is reserved and MUST NOT be used (registries/frame_types_reserved.csv)")
  else if (reg.channels.lookup channel).isNone then
    .error (rejectError "channel_not_registered"
      ("channel 0x" ++ hexPadUpper 4 channel.toNat
        ++ " is not a registered channel (registries/channels.csv)"))
  else if frameType ≤ systemFrameMax then
    if (reg.systemFrames.lookup frameType).isNone then
      .error (rejectError "frame_type_not_registered_for_channel"
        ("frame type 0x" ++ hexPadUpper 4 frameType.toNat
          ++ " is in the system band but not a registered system frame type"))
    else .ok ()
  else if (reg.chanFrames.lookup (channel, frameType)).isNone then
    .error (rejectError "frame_type_not_registered_for_channel"
      ("frame type 0x" ++ hexPadUpper 4 frameType.toNat ++ " is not registered for channel 0x"
        ++ hexPadUpper 4 channel.toNat ++ " (registries/frame_types_channel.csv)"))
  else .ok ()

/-- `checkBounds` with the TLV count skipped, as both callers below skip it. -/
def checkBounds (totalSize : Nat) : Except GoError Unit :=
  if totalSize > maxFrameSize then
    .error (rejectError "frame_exceeds_max_frame_size"
      ("frame size " ++ toString totalSize ++ " octets exceeds MaxFrameSize ("
        ++ toString maxFrameSize ++ " octets)"))
  else .ok ()

def Registries.validate (reg : Registries) (f : Frame) : Except GoError Unit := do
  reg.checkFrameType f.channel f.type
  checkBounds (headerSize + f.payload.length)

def validateBytes (reg : Registries) (buf : Bytes) : Except GoError Unit :=
  match unmarshalBinary buf with
  | .error e => .error e
  | .ok f => reg.validate f

/-- `RelayHook`: the checks that need header fields alone. It keeps no state. -/
def Registries.relayHook (reg : Registries) {σ : Type} : HookFunc σ := fun state dir header =>
  match reg.checkFrameType header.channel header.type with
  | .error e => .error (wrapf ("wirevalidator: " ++ dir.string) e)
  | .ok () =>
    match checkBounds (headerSize + header.payloadLen.toNat) with
    | .error e => .error (wrapf ("wirevalidator: " ++ dir.string) e)
    | .ok () => .ok state

structure Firewall (σ : Type) where
  registries : Option Registries
  policy : Option (HookFunc σ)

/-- The function `Firewall.Hook` returns: the registry check, then the policy if there is one. -/
def firewallHook {σ : Type} (reg : Registries) (policy : Option (HookFunc σ)) : HookFunc σ :=
  fun state dir header =>
    match reg.relayHook state dir header with
    | .error e => .error e
    | .ok state =>
      match policy with
      | none => .ok state
      | some decide => decide state dir header

def Firewall.hook {σ : Type} (f : Firewall σ) : Except GoError (HookFunc σ) :=
  match f.registries with
  | none => .error Sentinel.errNoRegistries.err
  | some reg => .ok (firewallHook reg f.policy)

/-- `ChannelPolicy`: the denied channels and frame types, each with the reason to report. -/
structure ChannelPolicy where
  deniedChannels : List (UInt16 × String)
  deniedFrameTypes : List ((UInt16 × UInt16) × String)
  deriving DecidableEq, Repr

def reasonOrDefault (reason default : String) : String := if reason ≠ "" then reason else default

def policyRejectError (dir : Direction) (header : FrameHeader) (reason : String) : GoError :=
  errorf ("firewall: policy denied " ++ dir.string ++ " frame type=0x"
    ++ hexPadUpper 4 header.type.toNat ++ " channel=0x" ++ hexPadUpper 4 header.channel.toNat ++ ": "
    ++ reason)

def ChannelPolicy.decide (p : ChannelPolicy) {σ : Type} : HookFunc σ := fun state dir header =>
  match p.deniedChannels.lookup header.channel with
  | some reason =>
    .error (policyRejectError dir header (reasonOrDefault reason
      ("channel 0x" ++ hexPadUpper 4 header.channel.toNat ++ " is denied by firewall policy")))
  | none =>
    match p.deniedFrameTypes.lookup (header.channel, header.type) with
    | some reason =>
      .error (policyRejectError dir header (reasonOrDefault reason
        ("frame type 0x" ++ hexPadUpper 4 header.type.toNat ++ " on channel 0x"
          ++ hexPadUpper 4 header.channel.toNat ++ " is denied by firewall policy")))
    | none => .ok state

structure Relay (σ : Type) where
  hook : Option (HookFunc σ)
  maxFrameSize : UInt32

def Relay.cap {σ : Type} (r : Relay σ) : UInt32 :=
  if r.maxFrameSize = 0 then UInt32.ofNat Npamp.maxFrameSize else r.maxFrameSize

/-- One pass of the loop of `forward` up to the write: the frame to write with the state and stream
behind it, or what `forward` returns. -/
def Relay.forwardStep {σ : Type} (r : Relay σ) (dir : Direction) (state : σ) (s : Bytes) :
    Except (Option GoError) (Bytes × σ × Bytes) :=
  match readRawFrame s r.cap with
  | .error e =>
    if errorsIs e .eof then .error none
    else .error (some (wrapf ("npamp/relay: " ++ dir.string ++ ": read frame") e))
  | .ok (raw, rest) =>
    match unmarshalBinary raw with
    | .error e => .error (some (wrapf ("npamp/relay: " ++ dir.string ++ ": malformed frame") e))
    | .ok f =>
      match r.hook with
      | none => .ok (raw, state, rest)
      | some hook =>
        match hook state dir (FrameHeader.ofFrame raw f) with
        | .error e =>
          .error (some (wrapf ("npamp/relay: " ++ dir.string ++ ": frame rejected") e))
        | .ok state => .ok (raw, state, rest)

/-- The loop of `forward`: what it has written, and the error it returns. -/
def Relay.forwardLoop {σ : Type} (r : Relay σ) (dir : Direction) :
    Nat → σ → Bytes → Bytes → Option (Bytes × Option GoError)
  | 0, _, _, _ => none
  | fuel + 1, state, s, written =>
    match r.forwardStep dir state s with
    | .error ret => some (written, ret)
    | .ok (raw, state, rest) => forwardLoop r dir fuel state rest (written ++ raw)

def Relay.forward {σ : Type} (r : Relay σ) (dir : Direction) (state : σ) (s : Bytes) :
    Option (Bytes × Option GoError) :=
  r.forwardLoop dir (s.length + 1) state s []

end Npamp
