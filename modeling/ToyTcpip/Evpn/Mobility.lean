import ToyTcpip.Evpn.Vtep

/-! Which location of a moving host the overlay ends up with. -/
namespace ToyTcpip

open Bgp

variable {v : Vtep} {inst : EvpnInstance} {paths : List EvpnPath} {sourceIp : Ipv4Address}
  {vni : UInt32} {mac : MacAddress}

namespace Bgp.EvpnPath

/-- The MAC Mobility sequence number, zero where the route carries none. -/
def sequence (p : EvpnPath) : UInt32 := p.route.mobilitySeq.getD 0

/-- What an instance remembers of a path for a MAC. -/
def remoteMac (p : EvpnPath) (mac : MacAddress) : RemoteMac :=
  { mac, ip := p.route.hostIp, vtep := p.route.nextHop, sequence := p.sequence,
    learnedFrom := p.peerAddr }

end Bgp.EvpnPath

/-- The path puts the MAC behind another VTEP, in a route this instance imports. -/
def EvpnInstance.Claims (inst : EvpnInstance) (sourceIp : Ipv4Address) (mac : MacAddress)
    (p : EvpnPath) : Bool :=
  p.route.mac = some mac ∧ inst.imports p.route.routeTargets ∧ p.route.nextHop ≠ sourceIp

namespace Vtep

/-- The paths that name the VNI and claim the MAC there, in the order in which they are read. -/
def claims (v : Vtep) (inst : EvpnInstance) (vni : UInt32) (mac : MacAddress)
    (paths : List EvpnPath) : List EvpnPath :=
  paths.filter fun p => p.route.vni = vni ∧ inst.Claims v.sourceIp mac p

/-- The VTEP after it read these paths. -/
def programPaths (v : Vtep) (paths : List EvpnPath) : Vtep :=
  let programmed := paths.foldl programPath v.clearRemote
  { programmed with instances := programmed.instances.map fun _ inst => inst.dropMoved }

theorem programFromRib_eq (v : Vtep) (rib : EvpnLocRib) :
    (v.programFromRib rib).1 = v.programPaths rib.remotePaths := rfl

def lookupRemote (v : Vtep) (vni : UInt32) (mac : MacAddress) : Option Ipv4Address :=
  ((v.instances[vni]?).bind fun inst => inst.remoteMacs[mac]?).map RemoteMac.vtep

/-- The binding of a MAC to a port of this VTEP. -/
def lookupLocal (v : Vtep) (vni : UInt32) (mac : MacAddress) : Option LocalMac :=
  (v.instances[vni]?).bind fun inst => inst.localMacs[mac]?

end Vtep

/-! ### The last claim wins -/

namespace EvpnInstance

theorem imports_program (p : EvpnPath) : (inst.program sourceIp p).imports = inst.imports := by
  fun_cases program <;> rfl

theorem localMacs_program (p : EvpnPath) :
    (inst.program sourceIp p).localMacs = inst.localMacs := by
  fun_cases program <;> rfl

theorem remoteMacs_program (p : EvpnPath) : (inst.program sourceIp p).remoteMacs[mac]? =
    if inst.Claims sourceIp mac p then some (p.remoteMac mac) else inst.remoteMacs[mac]? := by
  unfold program
  extract_lets route joined
  by_cases himports : inst.imports route.routeTargets = true
  swap
  · simp [Claims, himports, route]
  by_cases hown : route.nextHop = sourceIp
  · simp [Claims, hown, route]
  have hclaims : inst.Claims sourceIp mac p = true ↔ route.mac = some mac := by
    simp [Claims, himports, hown, route]
  rw [if_neg (by simp [himports]), if_neg hown]
  cases hmac : route.mac with
  | none => simp [hclaims, hmac, joined]
  | some other =>
    simp only [joined, hclaims, hmac, Option.some.injEq, Std.TreeMap.getElem?_insert,
      Std.LawfulEqOrd.compare_eq_iff_eq]
    by_cases heq : other = mac
    · subst heq
      simp [EvpnPath.remoteMac, EvpnPath.sequence, route]
    · simp [heq]

theorem claims_congr {inst' : EvpnInstance} (h : inst'.imports = inst.imports) (p : EvpnPath) :
    inst'.Claims sourceIp mac p = inst.Claims sourceIp mac p := by
  rw [Claims, Claims, h]

/-- Of all the paths that claim a MAC the one read last is remembered. -/
theorem program_paths (paths : List EvpnPath) :
    let inst' := paths.foldl (fun i p => i.program sourceIp p) inst
    inst'.imports = inst.imports ∧ inst'.localMacs = inst.localMacs ∧
      inst'.remoteMacs[mac]? = (((paths.filter (inst.Claims sourceIp mac)).getLast?).map
        fun p => p.remoteMac mac).or inst.remoteMacs[mac]? := by
  induction paths using List.reverseRecOn with
  | nil => simp
  | append_singleton paths p ih =>
    obtain ⟨himports, hlocal, hremote⟩ := ih
    rw [List.foldl_append, List.foldl_cons, List.foldl_nil]
    refine ⟨(imports_program p).trans himports, (localMacs_program p).trans hlocal, ?_⟩
    rw [remoteMacs_program, claims_congr himports, hremote, List.filter_append]
    by_cases hp : inst.Claims sourceIp mac p = true
    · simp [hp]
    · simp [hp]

end EvpnInstance

namespace Vtep

/-- Each instance is programmed by the paths of its VNI alone. -/
theorem instances_programPath_foldl (paths : List EvpnPath) (v : Vtep) :
    (paths.foldl programPath v).instances[vni]? = (v.instances[vni]?).map fun inst =>
      (paths.filter fun p => p.route.vni = vni).foldl (fun i p => i.program v.sourceIp p) inst := by
  induction paths generalizing v with
  | nil => simp
  | cons p paths ih =>
    rw [List.foldl_cons, ih (v.programPath p), programPath, Std.TreeMap.getElem?_modify]
    by_cases hvni : p.route.vni = vni
    · simp [hvni, Function.comp_def]
    · simp [hvni]

/-- What an instance holds after it was programmed: for each MAC the last claim, and those of its
own bindings that the claim does not outrun. -/
theorem instance_programPaths (hinst : v.instances[vni]? = some inst) (paths : List EvpnPath)
    (mac : MacAddress) :
    (v.programPaths paths).lookupRemote vni mac =
        ((v.claims inst vni mac paths).getLast?).map (fun p => p.route.nextHop) ∧
      (v.programPaths paths).lookupLocal vni mac = (inst.localMacs[mac]?).filter fun l =>
        !((v.claims inst vni mac paths).getLast?).any fun p => p.sequence > l.sequence := by
  let reset : EvpnInstance := { inst with remoteMacs := ∅, remoteVteps := ∅ }
  let own := paths.filter fun p => p.route.vni = vni
  let programmed := own.foldl (fun i p => i.program v.sourceIp p) reset
  have hget : (v.programPaths paths).instances[vni]? = some programmed.dropMoved := by
    rw [programPaths, Std.TreeMap.getElem?_map, instances_programPath_foldl, clearRemote,
      Std.TreeMap.getElem?_map, hinst]
    rfl
  obtain ⟨himports, hlocal, hremote⟩ :=
    @EvpnInstance.program_paths reset v.sourceIp mac own
  have hclaims : own.filter (reset.Claims v.sourceIp mac) = v.claims inst vni mac paths := by
    rw [List.filter_filter, claims]
    refine List.filter_congr fun p _ => ?_
    have hreset : reset.Claims v.sourceIp mac p = inst.Claims v.sourceIp mac p := rfl
    simp [hreset, and_comm]
  have hnone : reset.remoteMacs[mac]? = none := by simp [reset]
  rw [hclaims, hnone, Option.or_none] at hremote
  constructor
  · rw [lookupRemote, hget, Option.bind_some]
    change (programmed.remoteMacs[mac]?).map RemoteMac.vtep = _
    rw [hremote, Option.map_map]
    rfl
  · rw [lookupLocal, hget, Option.bind_some, EvpnInstance.dropMoved, Std.TreeMap.getElem?_filter']
    rw [hlocal]
    simp only [EvpnInstance.movedAway]
    rw [hremote]
    simp [Option.any_map, EvpnPath.remoteMac, reset]

/-! ### Following the newest location -/

/-- A claim that no other one has a higher sequence number than. -/
def Newest (claims : List EvpnPath) (p : EvpnPath) : Prop :=
  p ∈ claims ∧ ∀ q ∈ claims, q.sequence ≤ p.sequence

/-- A MAC that is claimed is looked for behind the VTEP of a newest claim. -/
def NamesNewest (v : Vtep) (inst : EvpnInstance) (paths : List EvpnPath) (vni : UInt32)
    (mac : MacAddress) : Prop :=
  ((v.programPaths paths).lookupRemote vni mac = none ↔ v.claims inst vni mac paths = []) ∧
    ∀ vtep, (v.programPaths paths).lookupRemote vni mac = some vtep →
      ∃ p, Newest (v.claims inst vni mac paths) p ∧ p.route.nextHop = vtep

/-- The order in which the paths are read does not matter. -/
def OrderFree (v : Vtep) (paths : List EvpnPath) (vni : UInt32) (mac : MacAddress) : Prop :=
  ∀ paths', paths'.Perm paths →
    (v.programPaths paths').lookupRemote vni mac = (v.programPaths paths).lookupRemote vni mac

/-- A binding of this VTEP stays exactly while no claim is newer. -/
def KeepsUnlessNewer (v : Vtep) (inst : EvpnInstance) (paths : List EvpnPath) (vni : UInt32)
    (mac : MacAddress) : Prop :=
  ∀ l, inst.localMacs[mac]? = some l →
    ((v.programPaths paths).lookupLocal vni mac = some l ↔
      ∀ q ∈ v.claims inst vni mac paths, q.sequence ≤ l.sequence)

theorem mem_claims {p : EvpnPath} : p ∈ v.claims inst vni mac paths ↔
    p ∈ paths ∧ p.route.vni = vni ∧ inst.Claims v.sourceIp mac p = true := by
  simp [claims]

/-- Any claim can be the one that is read last. -/
theorem exists_last {p : EvpnPath} (h : p ∈ v.claims inst vni mac paths) :
    ∃ paths', paths'.Perm paths ∧ (v.claims inst vni mac paths').getLast? = some p := by
  obtain ⟨hp, hvni, hclaims⟩ := mem_claims.mp h
  refine ⟨paths.erase p ++ [p], ?_, ?_⟩
  · exact (List.perm_append_singleton _ _).trans (List.perm_cons_erase hp).symm
  · simp [claims, hvni, hclaims]

theorem namesNewest_iff (hinst : v.instances[vni]? = some inst) :
    v.NamesNewest inst paths vni mac ↔
      ∀ p ∈ (v.claims inst vni mac paths).getLast?,
        ∃ q, Newest (v.claims inst vni mac paths) q ∧ q.route.nextHop = p.route.nextHop := by
  rw [NamesNewest, (instance_programPaths hinst paths mac).1]
  have hnone : ((v.claims inst vni mac paths).getLast?).map (fun p => p.route.nextHop) = none ↔
      v.claims inst vni mac paths = [] := by
    rw [Option.map_eq_none_iff, List.getLast?_eq_none_iff]
  rw [and_iff_right hnone]
  constructor
  · intro h p hp
    exact h p.route.nextHop (by rw [Option.mem_def.mp hp, Option.map_some])
  · intro h vtep hvtep
    obtain ⟨p, hp, rfl⟩ := Option.map_eq_some_iff.mp hvtep
    exact h p hp

theorem orderFree_iff (hinst : v.instances[vni]? = some inst) :
    v.OrderFree paths vni mac ↔ ∀ p ∈ v.claims inst vni mac paths,
      ∀ q ∈ v.claims inst vni mac paths, p.route.nextHop = q.route.nextHop := by
  constructor
  · intro h p hp q hq
    have hfound : ∀ r ∈ v.claims inst vni mac paths,
        (v.programPaths paths).lookupRemote vni mac = some r.route.nextHop := by
      intro r hr
      obtain ⟨paths', hperm, hlast⟩ := exists_last hr
      rw [← h paths' hperm, (instance_programPaths hinst paths' mac).1, hlast, Option.map_some]
    exact Option.some.inj ((hfound p hp).symm.trans (hfound q hq))
  · intro h paths' hperm
    have hmem : ∀ p, p ∈ v.claims inst vni mac paths' ↔ p ∈ v.claims inst vni mac paths := fun p =>
      (hperm.filter _).mem_iff
    rw [(instance_programPaths hinst paths' mac).1, (instance_programPaths hinst paths mac).1]
    cases hlast : (v.claims inst vni mac paths').getLast? with
    | none =>
      rw [List.getLast?_eq_none_iff] at hlast
      have hnil : v.claims inst vni mac paths = [] := by
        rw [List.eq_nil_iff_forall_not_mem]
        exact fun p hp => List.eq_nil_iff_forall_not_mem.mp hlast p ((hmem p).mpr hp)
      rw [hnil]
      rfl
    | some p =>
      have hp := (hmem p).mp (List.mem_of_getLast? hlast)
      obtain ⟨q, hq⟩ := Option.isSome_iff_exists.mp
        (List.getLast?_isSome.mpr (List.ne_nil_of_mem hp))
      rw [hq, Option.map_some, Option.map_some, h p hp q (List.mem_of_getLast? hq)]

theorem keepsUnlessNewer_iff (hinst : v.instances[vni]? = some inst) :
    v.KeepsUnlessNewer inst paths vni mac ↔ ∀ l, inst.localMacs[mac]? = some l →
      ∀ q ∈ v.claims inst vni mac paths, l.sequence < q.sequence →
        ∃ p ∈ (v.claims inst vni mac paths).getLast?, l.sequence < p.sequence := by
  refine forall₂_congr fun l hl => ?_
  have hkept : (v.programPaths paths).lookupLocal vni mac = some l ↔
      ¬ ∃ p ∈ (v.claims inst vni mac paths).getLast?, l.sequence < p.sequence := by
    rw [(instance_programPaths hinst paths mac).2, hl, Option.filter_eq_some_iff,
      and_iff_right rfl, Bool.not_eq_true', ← Bool.not_eq_true, Option.any_eq_true]
    simp
  rw [hkept]
  constructor
  · intro h q hq hlt
    by_contra hno
    exact UInt32.not_le.mpr hlt (h.mp hno q hq)
  · intro h
    constructor
    · intro hno q hq
      by_contra hlt
      exact hno (h q hq (UInt32.not_le.mp hlt))
    · rintro hle ⟨p, hp, hlt⟩
      exact UInt32.not_le.mpr hlt (hle p (List.mem_of_getLast? hp))

/-- The overlay follows the newest location of a MAC as far as the claim that is read last does. -/
theorem overlay_follows_newest (rib : EvpnLocRib) (hinst : v.instances[vni]? = some inst)
    (mac : MacAddress) :
    let paths := rib.remotePaths
    let claims := v.claims inst vni mac paths
    (v.programFromRib rib).1 = v.programPaths paths ∧
    (v.NamesNewest inst paths vni mac ↔ ∀ p ∈ claims.getLast?,
      ∃ q, Newest claims q ∧ q.route.nextHop = p.route.nextHop) ∧
    (v.OrderFree paths vni mac ↔ ∀ p ∈ claims, ∀ q ∈ claims, p.route.nextHop = q.route.nextHop) ∧
    (v.KeepsUnlessNewer inst paths vni mac ↔ ∀ l, inst.localMacs[mac]? = some l →
      ∀ q ∈ claims, l.sequence < q.sequence → ∃ p ∈ claims.getLast?, l.sequence < p.sequence) :=
  ⟨programFromRib_eq v rib, namesNewest_iff hinst, orderFree_iff hinst, keepsUnlessNewer_iff hinst⟩

/-! ### A host that moved to a leaf whose distinguisher sorts first -/

def movingHost : MacAddress := ⟨#v[2, 0, 0, 0, 0, 0xBB]⟩

/-- The leaf's advertisement of the host, with its own address in the distinguisher. -/
def hostRoute (leaf : Ipv4Address) (seq : Option UInt32) : EvpnPath :=
  { EvpnPath.local
      { nlri := .macIpAdv ⟨⟨UInt32.ofNat leaf.toU32.toNat, 5001⟩, Vector.replicate 10 0,
          0, movingHost, none, 5001⟩
        nextHop := leaf, routeTargets := [.as2 65001 5001], mobilitySeq := seq,
        otherCommunities := [] } leaf 0 with
    peerAddr := leaf, isLocal := false }

def ribOf (paths : List EvpnPath) : EvpnLocRib :=
  paths.foldl (fun rib p => rib.insert p.key p) ∅

/-- A leaf with the host on one of its own ports. -/
def oldLeaf : Vtep :=
  ((((Vtep.new ⟨10, 0, 0, 1⟩ "eth2").addInstance 5001 ⟨1, 5001⟩ [.as2 65001 5001]
    [.as2 65001 5001]).1.attachAccessPort 5001 "eth0").learnLocal "eth0" movingHost none).1

def oldInstance : EvpnInstance := (oldLeaf.instances[(5001 : UInt32)]?).get (by decide +kernel)

theorem oldLeaf_instance : oldLeaf.instances[(5001 : UInt32)]? = some oldInstance :=
  (Option.some_get _).symm

/-- The host went from this leaf to 10.0.0.3, and 10.0.0.2 still tells of it without a number: it is
looked for behind 10.0.0.3, and no longer here. -/
theorem overlay_follows_newest_moved :
    let paths :=
  (ribOf [hostRoute ⟨10, 0, 0, 2⟩ none, hostRoute ⟨10, 0, 0, 3⟩ (some 1)]).remotePaths
    oldLeaf.NamesNewest oldInstance paths 5001 movingHost ∧
      ¬ oldLeaf.OrderFree paths 5001 movingHost ∧
      oldLeaf.KeepsUnlessNewer oldInstance paths 5001 movingHost := by
  intro paths
  have hclaims : oldLeaf.claims oldInstance 5001 movingHost paths =
      [hostRoute ⟨10, 0, 0, 2⟩ none, hostRoute ⟨10, 0, 0, 3⟩ (some 1)] := by decide +kernel
  obtain ⟨-, hnames, horder, hkeeps⟩ := overlay_follows_newest
    (ribOf [hostRoute ⟨10, 0, 0, 2⟩ none, hostRoute ⟨10, 0, 0, 3⟩ (some 1)])
      oldLeaf_instance movingHost
  have hlast : (oldLeaf.claims oldInstance 5001 movingHost paths).getLast? =
      some (hostRoute ⟨10, 0, 0, 3⟩ (some 1)) := by
    rw [hclaims]
    rfl
  refine ⟨hnames.mpr fun p hp => ?_, fun h => ?_, hkeeps.mpr fun l hl q hq hlt => ?_⟩
  · rw [hlast, Option.mem_some_iff] at hp
    subst hp
    refine ⟨_, ⟨?_, fun q hq => ?_⟩, rfl⟩
    · rw [hclaims]
      simp
    · rw [hclaims] at hq
      rcases List.mem_pair.mp hq with rfl | rfl <;> decide +kernel
  · have hhops := horder.mp h _ (hclaims ▸ List.mem_cons_self) _
      (hclaims ▸ List.mem_cons_of_mem _ List.mem_cons_self)
    exact absurd hhops (by decide +kernel)
  · have hseq : (oldInstance.localMacs[movingHost]?).map LocalMac.sequence = some 0 := by
      decide +kernel
    have hzero : l.sequence = 0 := by simpa [hl] using hseq
    refine ⟨_, hlast, ?_⟩
    rw [hzero]
    decide +kernel

/-- The host is at 10.0.0.2 by now, but it is still looked for behind 10.0.0.3, where it was before,
and the leaf that had it first still holds it to be local. -/
theorem stale_location_wins :
    let rib := ribOf [hostRoute ⟨10, 0, 0, 2⟩ (some 1), hostRoute ⟨10, 0, 0, 3⟩ none]
    (oldLeaf.programFromRib rib).1.lookupRemote 5001 movingHost = some ⟨10, 0, 0, 3⟩ ∧
      ¬ oldLeaf.NamesNewest oldInstance rib.remotePaths 5001 movingHost ∧
      ¬ oldLeaf.KeepsUnlessNewer oldInstance rib.remotePaths 5001 movingHost := by
  intro rib
  have hclaims : oldLeaf.claims oldInstance 5001 movingHost rib.remotePaths =
      [hostRoute ⟨10, 0, 0, 2⟩ (some 1), hostRoute ⟨10, 0, 0, 3⟩ none] := by decide +kernel
  refine ⟨by decide +kernel, fun h => ?_, fun h => ?_⟩
  · obtain ⟨p, ⟨hp, hnewest⟩, hhop⟩ := h.2 ⟨10, 0, 0, 3⟩ (by decide +kernel)
    rw [hclaims] at hp hnewest
    rcases List.mem_pair.mp hp with rfl | rfl
    · exact absurd hhop (by decide +kernel)
    · exact absurd (hnewest _ List.mem_cons_self) (by decide +kernel)
  · have hbound : (oldInstance.localMacs[movingHost]?).isSome := by decide +kernel
    obtain ⟨l, hl⟩ := Option.isSome_iff_exists.mp hbound
    have hseq : (oldInstance.localMacs[movingHost]?).map LocalMac.sequence = some 0 := by
      decide +kernel
    have hkept : ((oldLeaf.programPaths rib.remotePaths).lookupLocal 5001 movingHost) =
        oldInstance.localMacs[movingHost]? := by decide +kernel
    have hnone := (h l hl).mp (hkept.trans hl) _ (hclaims ▸ List.mem_cons_self)
    have hzero : l.sequence = 0 := by simpa [hl] using hseq
    rw [hzero] at hnone
    exact absurd hnone (by decide +kernel)

end Vtep

end ToyTcpip
