import ToyTcpip.Bgp.Evpn

/-! The VXLAN tunnel endpoint of `evpn_vtep.rs`: EVPN instances, MAC learning and overlay
forwarding. -/
namespace ToyTcpip

open Bgp

def MacAddress.rank (mac : MacAddress) : List ℕ := mac.octets.map UInt8.toNat

theorem MacAddress.rank_injective : Function.Injective MacAddress.rank := by
  intro a b h
  have h := List.map_injective_iff.mpr (fun _ _ h => UInt8.toNat_inj.mp h) h
  cases a
  cases b
  simpa [MacAddress.octets, Vector.toList_inj] using h

instance : Ord MacAddress := ⟨compareOn MacAddress.rank⟩

instance : Std.TransOrd MacAddress := inferInstanceAs (Std.TransCmp (compareOn MacAddress.rank))

instance : Std.LawfulEqOrd MacAddress := Std.LawfulEqOrd.of_injective MacAddress.rank_injective

namespace Bgp.EvpnRoute

def vni (r : EvpnRoute) : UInt32 :=
  match r.nlri with
  | .macIpAdv m => m.vni
  | .inclusiveMulticast im => im.ethTag

def mac (r : EvpnRoute) : Option MacAddress :=
  match r.nlri with
  | .macIpAdv m => some m.mac
  | .inclusiveMulticast _ => none

def hostIp (r : EvpnRoute) : Option Ipv4Address :=
  match r.nlri with
  | .macIpAdv m => m.ip
  | .inclusiveMulticast _ => none

end Bgp.EvpnRoute

def Bgp.EvpnLocRib.remotePaths (rib : EvpnLocRib) : List EvpnPath :=
  rib.values.filter fun p => !p.isLocal

def maxLocalMacsPerInstance : ℕ := 1024

def maxMacMoves : UInt32 := 5

def maxVni : UInt32 := 0x00FFFFFF

/-- A MAC learned on one of this VTEP's own access ports. -/
structure LocalMac where
  mac : MacAddress
  ip : Option Ipv4Address
  accessInterface : String
  sequence : UInt32
  deriving DecidableEq, Repr

/-- A MAC learned through a Type 2 route from another VTEP. -/
structure RemoteMac where
  mac : MacAddress
  ip : Option Ipv4Address
  vtep : Ipv4Address
  sequence : UInt32
  learnedFrom : Ipv4Address
  deriving DecidableEq, Repr

/-- How a frame leaving an access port is forwarded. -/
inductive OverlayDecision where
  | «local» (accessInterface : String)
  | unicast (vni : UInt32) (vtep : Ipv4Address)
  | flood (vni : UInt32) (vteps : List Ipv4Address)
  | drop
  deriving DecidableEq, Repr

/-- One tenant broadcast domain. -/
structure EvpnInstance where
  vni : UInt32
  rd : RouteDistinguisher
  importRts : Std.TreeSet RouteTarget
  exportRts : Std.TreeSet RouteTarget
  accessInterfaces : Std.TreeSet String
  localMacs : Std.TreeMap MacAddress LocalMac
  remoteMacs : Std.TreeMap MacAddress RemoteMac
  remoteVteps : Std.TreeSet Ipv4Address
  learnLimitHits : ℕ
  duplicateMacs : Std.TreeSet MacAddress

namespace EvpnInstance

def new (vni : UInt32) (rd : RouteDistinguisher) : EvpnInstance :=
  { vni, rd, importRts := ∅, exportRts := ∅, accessInterfaces := ∅, localMacs := ∅,
    remoteMacs := ∅, remoteVteps := ∅, learnLimitHits := 0, duplicateMacs := ∅ }

def imports (inst : EvpnInstance) (targets : List RouteTarget) : Bool :=
  targets.any fun rt => inst.importRts.contains rt

end EvpnInstance

structure Vtep where
  sourceIp : Ipv4Address
  underlayInterface : String
  instances : Std.TreeMap UInt32 EvpnInstance
  accessToVni : Std.TreeMap String UInt32

def saturatingSucc (n : UInt32) : UInt32 := if n = 0xFFFFFFFF then n else n + 1

namespace Vtep

def new (sourceIp : Ipv4Address) (underlayInterface : String) : Vtep :=
  { sourceIp, underlayInterface, instances := ∅, accessToVni := ∅ }

/-- Re-adding a VNI replaces its distinguisher and extends its Route Targets. -/
def addInstance (v : Vtep) (vni : UInt32) (rd : RouteDistinguisher)
    (importRts exportRts : List RouteTarget) : Vtep × Bool :=
  if vni > maxVni then (v, false)
  else
    let inst := (v.instances[vni]?).getD (.new vni rd)
    let updated := { inst with
      rd
      importRts := inst.importRts.insertMany importRts
      exportRts := inst.exportRts.insertMany exportRts }
    ({ v with instances := v.instances.insert vni updated }, true)

def attachAccessPort (v : Vtep) (vni : UInt32) (interface : String) : Vtep :=
  let detached := match v.accessToVni[interface]? with
    | some previous =>
      if previous ≠ vni then
        v.instances.modify previous fun old =>
          { old with accessInterfaces := old.accessInterfaces.erase interface }
      else v.instances
    | none => v.instances
  { v with
    accessToVni := v.accessToVni.insert interface vni
    instances := detached.modify vni fun inst =>
      { inst with accessInterfaces := inst.accessInterfaces.insert interface } }

def vniForAccess (v : Vtep) (interface : String) : Option UInt32 := v.accessToVni[interface]?

def hasVni (v : Vtep) (vni : UInt32) : Bool := v.instances.contains vni

end Vtep

namespace EvpnInstance

/-- The mobility sequence a binding learned here takes: above any remote claim, never below the one
it already has. -/
def nextSequence (inst : EvpnInstance) (mac : MacAddress) : UInt32 :=
  match inst.localMacs[mac]?, (inst.remoteMacs[mac]?).map (·.sequence) with
  | some l, none => l.sequence
  | some l, some r => max l.sequence (saturatingSucc r)
  | none, some r => saturatingSucc r
  | none, none => 0

/-- The instance's share of `Vtep.learnLocal`. -/
def learn (inst : EvpnInstance) (interface : String) (mac : MacAddress)
    (ip : Option Ipv4Address) : EvpnInstance × Bool :=
  if mac.isBroadcast || mac.isMulticast then (inst, false)
  else if inst.duplicateMacs.contains mac then (inst, false)
  else
    let existing := inst.localMacs[mac]?
    let sequence := inst.nextSequence mac
    if sequence > maxMacMoves then
      ({ inst with duplicateMacs := inst.duplicateMacs.insert mac,
                   localMacs := inst.localMacs.erase mac }, false)
    else
      let binding : LocalMac :=
        { mac, ip := ip.or (existing.bind (·.ip)), accessInterface := interface, sequence }
      if existing = some binding then (inst, false)
      else if existing.isNone && inst.localMacs.size ≥ maxLocalMacsPerInstance then
        ({ inst with learnLimitHits := inst.learnLimitHits + 1 }, false)
      else ({ inst with localMacs := inst.localMacs.insert mac binding }, true)

/-- One remote path of the Loc-RIB, already matched to this instance by its VNI. -/
def program (inst : EvpnInstance) (sourceIp : Ipv4Address) (path : EvpnPath) : EvpnInstance :=
  let route := path.route
  if !inst.imports route.routeTargets then inst
  else if route.nextHop = sourceIp then inst
  else
    let joined := { inst with remoteVteps := inst.remoteVteps.insert route.nextHop }
    match route.mac with
    | some mac =>
      let remote : RemoteMac :=
        { mac, ip := route.hostIp, vtep := route.nextHop,
          sequence := route.mobilitySeq.getD 0, learnedFrom := path.peerAddr }
      { joined with remoteMacs := joined.remoteMacs.insert mac remote }
    | none => joined

/-- A remote claim with a higher sequence number: the host has moved away. -/
def movedAway (inst : EvpnInstance) (mac : MacAddress) (l : LocalMac) : Bool :=
  (inst.remoteMacs[mac]?).any fun r => r.sequence > l.sequence

def dropMoved (inst : EvpnInstance) : EvpnInstance :=
  { inst with localMacs := inst.localMacs.filter fun mac l => !inst.movedAway mac l }

/-- The routes to withdraw for the bindings `dropMoved` removes. -/
def movedKeys (inst : EvpnInstance) : List EvpnRouteKey :=
  ((inst.localMacs.filter inst.movedAway).toList).map fun (_, l) =>
    .macIp inst.rd 0 l.mac l.ip

end EvpnInstance

namespace Vtep

def learnLocal (v : Vtep) (interface : String) (mac : MacAddress) (ip : Option Ipv4Address) :
    Vtep × Bool :=
  match v.vniForAccess interface with
  | none => (v, false)
  | some vni =>
    match v.instances[vni]? with
    | none => (v, false)
    | some inst =>
      let (inst, changed) := inst.learn interface mac ip
      ({ v with instances := v.instances.insert vni inst }, changed)

def forgetLocal (v : Vtep) (vni : UInt32) (mac : MacAddress) : Vtep × Bool :=
  match v.instances[vni]? with
  | none => (v, false)
  | some inst =>
    let forgot := { inst with localMacs := inst.localMacs.erase mac }
    ({ v with instances := v.instances.insert vni forgot }, inst.localMacs.contains mac)

def clearRemote (v : Vtep) : Vtep :=
  { v with instances := v.instances.map fun _ inst =>
      { inst with remoteMacs := ∅, remoteVteps := ∅ } }

def programPath (v : Vtep) (path : EvpnPath) : Vtep :=
  { v with instances := v.instances.modify path.route.vni fun inst =>
      inst.program v.sourceIp path }

/-- Rebuilds all remote state; returns the keys of the routes to withdraw. -/
def programFromRib (v : Vtep) (rib : EvpnLocRib) : Vtep × List EvpnRouteKey :=
  let programmed := rib.remotePaths.foldl programPath v.clearRemote
  ({ programmed with instances := programmed.instances.map fun _ inst => inst.dropMoved },
    programmed.instances.values.flatMap EvpnInstance.movedKeys)

def flood (inst : EvpnInstance) : OverlayDecision :=
  let vteps := inst.remoteVteps.toList
  if vteps.isEmpty then .drop else .flood inst.vni vteps

def forward (v : Vtep) (interface : String) (dst : MacAddress) : OverlayDecision :=
  match v.vniForAccess interface with
  | none => .drop
  | some vni =>
    match v.instances[vni]? with
    | none => .drop
    | some inst =>
      if dst.isBroadcast || dst.isMulticast then flood inst
      else match inst.localMacs[dst]? with
        | some l => if l.accessInterface = interface then .drop else .local l.accessInterface
        | none =>
          match inst.remoteMacs[dst]? with
          | some remote => .unicast vni remote.vtep
          | none => flood inst

def accessPortsFor (v : Vtep) (vni : UInt32) (dst : MacAddress) : List String :=
  match v.instances[vni]? with
  | none => []
  | some inst =>
    if !dst.isBroadcast && !dst.isMulticast then
      match inst.localMacs[dst]? with
      | some l => [l.accessInterface]
      | none => inst.accessInterfaces.toList
    else inst.accessInterfaces.toList

end Vtep

/-! ### Runs -/

inductive VtepCall where
  | addInstance (vni : UInt32) (rd : RouteDistinguisher) (importRts exportRts : List RouteTarget)
  | attachAccessPort (vni : UInt32) (interface : String)
  | learnLocal (interface : String) (mac : MacAddress) (ip : Option Ipv4Address)
  | forgetLocal (vni : UInt32) (mac : MacAddress)
  | programFromRib (rib : EvpnLocRib)

namespace Vtep

def apply (v : Vtep) : VtepCall → Vtep
  | .addInstance vni rd importRts exportRts => (v.addInstance vni rd importRts exportRts).1
  | .attachAccessPort vni interface => v.attachAccessPort vni interface
  | .learnLocal interface mac ip => (v.learnLocal interface mac ip).1
  | .forgetLocal vni mac => (v.forgetLocal vni mac).1
  | .programFromRib rib => (v.programFromRib rib).1

end Vtep

end ToyTcpip
