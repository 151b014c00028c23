import ToyTcpip.Bgp.Parse
import ToyTcpip.Bgp.Rib

/-! Capabilities of an OPEN and their negotiation, from `bgp_caps.rs`. -/
namespace ToyTcpip.Bgp

open Checked (index slice)

def bgpOptParamCapability : UInt8 := 2

@[match_pattern] def bgpCapMultiprotocol : UInt8 := 1

@[match_pattern] def bgpCapRouteRefresh : UInt8 := 2

@[match_pattern] def bgpCapGracefulRestart : UInt8 := 64

@[match_pattern] def bgpCapFourOctetAs : UInt8 := 65

@[match_pattern] def bgpCapEnhancedRouteRefresh : UInt8 := 70

def bgpGrRestartState : UInt16 := 0x8000

def bgpGrMaxRestartTime : UInt16 := 0x0fff

def bgpGrForwardingState : UInt8 := 0x80

def maxCapabilities : ℕ := 64

structure BgpGracefulRestartFamily where
  family : AfiSafi
  forwardingState : Bool
  deriving DecidableEq, Repr

structure BgpGracefulRestartCapability where
  restarting : Bool
  restartTime : UInt16
  families : List BgpGracefulRestartFamily
  deriving DecidableEq, Repr

/-- `if !v.contains(x) { v.push(x) }`. -/
def pushNew {α : Type} [DecidableEq α] (l : List α) (a : α) : List α :=
  if a ∈ l then l else l ++ [a]

namespace BgpGracefulRestartCapability

def new (restartTime : UInt16) (restarting : Bool) (families : List BgpGracefulRestartFamily) :
    BgpGracefulRestartCapability :=
  ⟨restarting, min restartTime bgpGrMaxRestartTime, families⟩

def encodeValue (gr : BgpGracefulRestartCapability) : List UInt8 :=
  let word := (gr.restartTime &&& bgpGrMaxRestartTime) |||
    (if gr.restarting then bgpGrRestartState else 0)
  toBeBytes16 word.toNat ++ gr.families.flatMap fun f =>
    toBeBytes16 f.family.afi.toNat ++
      [f.family.safi, if f.forwardingState then bgpGrForwardingState else 0]

/-- `chunks_exact(4)`, each family entered once. -/
def familiesOf : List UInt8 → List BgpGracefulRestartFamily → List BgpGracefulRestartFamily
  | a :: b :: safi :: flags :: rest, families =>
    familiesOf rest (pushNew families
      ⟨⟨UInt16.ofNat (beWord a b), safi⟩, flags &&& bgpGrForwardingState ≠ 0⟩)
  | _, families => families

def decodeValue (value : List UInt8) : Parsed BgpGracefulRestartCapability :=
  if value.length < 2 ∨ (value.length - 2) % 4 ≠ 0 then
    .error (.open bgpSubUnsupportedOptParam
      s!"Graceful Restart capability is {value.length} bytes; expected 2 + 4*N")
  else do
    let hi ← index value 0
    let lo ← index value 1
    let word := UInt16.ofNat (beWord hi lo)
    let rest ← slice value 2 value.length
    .ok ⟨word &&& bgpGrRestartState ≠ 0, word &&& bgpGrMaxRestartTime, familiesOf rest []⟩

end BgpGracefulRestartCapability

inductive BgpCapability where
  | multiProtocol (family : AfiSafi)
  | fourOctetAs (asn : UInt32)
  | routeRefresh
  | enhancedRouteRefresh
  | gracefulRestart (gr : BgpGracefulRestartCapability)
  | unknown (code : UInt8) (value : List UInt8)
  deriving DecidableEq, Repr

namespace BgpCapability

def code : BgpCapability → UInt8
  | .multiProtocol _ => bgpCapMultiprotocol
  | .fourOctetAs _ => bgpCapFourOctetAs
  | .routeRefresh => bgpCapRouteRefresh
  | .enhancedRouteRefresh => bgpCapEnhancedRouteRefresh
  | .gracefulRestart _ => bgpCapGracefulRestart
  | .unknown code _ => code

def value : BgpCapability → List UInt8
  | .multiProtocol af => toBeBytes16 af.afi.toNat ++ [0, af.safi]
  | .fourOctetAs asn => toBeBytes32 asn.toNat
  | .routeRefresh => []
  | .enhancedRouteRefresh => []
  | .gracefulRestart gr => gr.encodeValue
  | .unknown _ value => value

def encode (c : BgpCapability) : List UInt8 :=
  [c.code, UInt8.ofNat c.value.length] ++ c.value

/-- A known code whose value has the wrong length is an error. -/
def decode (code : UInt8) (value : List UInt8) : Parsed BgpCapability :=
  match code with
  | bgpCapMultiprotocol =>
    if value.length ≠ 4 then
      .error (.open bgpSubUnsupportedOptParam
        s!"Multiprotocol capability is {value.length} bytes, must be 4")
    else do
      let a ← index value 0
      let b ← index value 1
      let safi ← index value 3
      .ok (.multiProtocol ⟨UInt16.ofNat (beWord a b), safi⟩)
  | bgpCapFourOctetAs =>
    if value.length ≠ 4 then
      .error (.open bgpSubUnsupportedOptParam
        s!"Four-Octet AS capability is {value.length} bytes, must be 4")
    else (readLong value).bind fun asn => .ok (.fourOctetAs asn)
  | bgpCapRouteRefresh =>
    if ¬ value.isEmpty then
      .error (.open bgpSubUnsupportedOptParam "Route Refresh capability must carry no value")
    else .ok .routeRefresh
  | bgpCapEnhancedRouteRefresh =>
    if ¬ value.isEmpty then
      .error (.open bgpSubUnsupportedOptParam
        "Enhanced Route Refresh capability must carry no value")
    else .ok .enhancedRouteRefresh
  | bgpCapGracefulRestart =>
    (BgpGracefulRestartCapability.decodeValue value).bind fun gr => .ok (.gracefulRestart gr)
  | other => .ok (.unknown other value)

end BgpCapability

/-- The capability list of one OPEN. -/
structure BgpCapabilitySet where
  capabilities : List BgpCapability
  deriving DecidableEq, Repr

namespace BgpCapabilitySet

def new : BgpCapabilitySet := ⟨[]⟩

def push (s : BgpCapabilitySet) (cap : BgpCapability) : BgpCapabilitySet :=
  ⟨pushNew s.capabilities cap⟩

def advertise (s : BgpCapabilitySet) (family : AfiSafi) : BgpCapabilitySet :=
  s.push (.multiProtocol family)

def families (s : BgpCapabilitySet) : Std.TreeSet AfiSafi :=
  Std.TreeSet.ofList (s.capabilities.filterMap fun
    | .multiProtocol af => some af
    | _ => none)

def fourOctetAs (s : BgpCapabilitySet) : Option UInt32 :=
  s.capabilities.findSome? fun
    | .fourOctetAs asn => some asn
    | _ => none

def supportsFourOctetAs (s : BgpCapabilitySet) : Bool := s.fourOctetAs.isSome

def supportsRouteRefresh (s : BgpCapabilitySet) : Bool := .routeRefresh ∈ s.capabilities

def supportsEnhancedRouteRefresh (s : BgpCapabilitySet) : Bool :=
  .enhancedRouteRefresh ∈ s.capabilities

def gracefulRestart (s : BgpCapabilitySet) : Option BgpGracefulRestartCapability :=
  s.capabilities.findSome? fun
    | .gracefulRestart gr => some gr
    | _ => none

def supportsGracefulRestart (s : BgpCapabilitySet) : Bool := s.gracefulRestart.isSome

/-- All capabilities go into one parameter; an empty set encodes to nothing. -/
def encodeOptParams (s : BgpCapabilitySet) : List UInt8 :=
  if s.capabilities.isEmpty then []
  else
    let caps := s.capabilities.flatMap BgpCapability.encode
    [bgpOptParamCapability, UInt8.ofNat caps.length] ++ caps

def parseCapabilityBlock (s : BgpCapabilitySet) : List UInt8 → Parsed BgpCapabilitySet
  | [] => .ok s
  | [_] => .error (.open bgpSubUnsupportedOptParam "truncated capability header")
  | code :: len :: rest =>
    if len.toNat > rest.length then
      .error (.open bgpSubUnsupportedOptParam
        s!"capability {code} claims {len} bytes but only {rest.length} remain")
    else if s.capabilities.length ≥ maxCapabilities then
      .error (.open bgpSubUnsupportedOptParam
        s!"OPEN carries more than {maxCapabilities} capabilities")
    else
      (BgpCapability.decode code (rest.take len.toNat)).bind fun cap =>
        (s.push cap).parseCapabilityBlock (rest.drop len.toNat)
termination_by data => data.length
decreasing_by simp; omega

/-- A parameter of another type is skipped. -/
def parseOptParamsFrom (s : BgpCapabilitySet) : List UInt8 → Parsed BgpCapabilitySet
  | [] => .ok s
  | [_] => .error (.open bgpSubUnsupportedOptParam "truncated optional parameter header")
  | paramType :: len :: rest =>
    if len.toNat > rest.length then
      .error (.open bgpSubUnsupportedOptParam
        s!"optional parameter claims {len} bytes but only {rest.length} remain")
    else if paramType = bgpOptParamCapability then
      (s.parseCapabilityBlock (rest.take len.toNat)).bind fun s =>
        s.parseOptParamsFrom (rest.drop len.toNat)
    else s.parseOptParamsFrom (rest.drop len.toNat)
termination_by data => data.length
decreasing_by all_goals simp; omega

def parseOptParams (data : List UInt8) : Parsed BgpCapabilitySet := new.parseOptParamsFrom data

end BgpCapabilitySet

def bgpVersion : UInt8 := 4

def BgpOpenMessage.withCapabilities (myAs : UInt32) (holdTime : UInt16) (bgpId : Ipv4Address)
    (capabilities : BgpCapabilitySet) : BgpOpenMessage :=
  ⟨bgpVersion, (narrowAsn myAs).toUInt16, holdTime, bgpId, capabilities.encodeOptParams⟩

def BgpOpenMessage.capabilities (o : BgpOpenMessage) : Parsed BgpCapabilitySet :=
  BgpCapabilitySet.parseOptParams o.optParams

/-- The Four-Octet AS capability wins when present. -/
def BgpOpenMessage.effectiveAs (o : BgpOpenMessage) (capabilities : BgpCapabilitySet) : UInt32 :=
  capabilities.fourOctetAs.getD o.myAs.toUInt32

/-- What two OPENs agreed on. -/
structure NegotiatedCapabilities where
  families : Std.TreeSet AfiSafi
  fourOctetAs : Bool
  routeRefresh : Bool
  enhancedRouteRefresh : Bool
  peer : BgpCapabilitySet

namespace NegotiatedCapabilities

def default : NegotiatedCapabilities := ⟨∅, false, false, false, .new⟩

def supports (n : NegotiatedCapabilities) (family : AfiSafi) : Bool := n.families.contains family

end NegotiatedCapabilities

/-- A speaker without Multiprotocol capability means IPv4 Unicast. -/
def familiesWithDefault (s : BgpCapabilitySet) : Std.TreeSet AfiSafi :=
  if s.families.isEmpty then {AfiSafi.ipv4Unicast} else s.families

def negotiate (ours peer : BgpCapabilitySet) : NegotiatedCapabilities :=
  let routeRefresh := ours.supportsRouteRefresh && peer.supportsRouteRefresh
  { families := (familiesWithDefault ours).filter (familiesWithDefault peer).contains
    fourOctetAs := ours.supportsFourOctetAs && peer.supportsFourOctetAs
    routeRefresh
    enhancedRouteRefresh := routeRefresh && ours.supportsEnhancedRouteRefresh &&
      peer.supportsEnhancedRouteRefresh
    peer }

end ToyTcpip.Bgp
