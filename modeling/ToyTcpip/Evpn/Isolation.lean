import ToyTcpip.Evpn.Vtep

/-! Tenant isolation: which runs of a VTEP keep every access port inside its own instance. -/
namespace ToyTcpip

open Bgp

variable {v : Vtep} {c : VtepCall} {calls : List VtepCall} {rib : Option EvpnLocRib}
  {vni other : UInt32} {inst : EvpnInstance} {interface : String} {mac : MacAddress}

def MacAddress.IsHost (mac : MacAddress) : Prop := mac.isBroadcast = false ∧ mac.isMulticast = false

def VtepCall.rib? : VtepCall → Option EvpnLocRib
  | .programFromRib rib => some rib
  | _ => none

/-- The Loc-RIB the VTEP was last programmed from. -/
def lastRib (calls : List VtepCall) : Option EvpnLocRib := calls.reverse.findSome? VtepCall.rib?

theorem lastRib_concat : lastRib (calls ++ [c]) = c.rib?.or (lastRib calls) := by
  cases h : c.rib? <;> simp [lastRib, h]

/-- `vtep` is the next hop of a remote route of `rib` that names `vni` and that the instance
imports. -/
def EvpnInstance.Learned (inst : EvpnInstance) (rib : Option EvpnLocRib) (vni : UInt32)
    (vtep : Ipv4Address) : Prop :=
  ∃ table, rib = some table ∧ ∃ path ∈ table.remotePaths,
    path.route.vni = vni ∧ path.route.nextHop = vtep ∧ inst.imports path.route.routeTargets

/-- No frame crosses from one tenant to another. `rib` is what the remote state was learned from. -/
structure Isolated (rib : Option EvpnLocRib) (v : Vtep) : Prop where
  listed : ∀ i vni, v.vniForAccess i = some vni →
    ∃ inst, v.instances[vni]? = some inst ∧ i ∈ inst.accessInterfaces
  only : ∀ vni inst i, v.instances[vni]? = some inst → i ∈ inst.accessInterfaces →
    v.vniForAccess i = some vni
  «local» : ∀ i dst port, v.forward i dst = .local port →
    ∃ vni, v.vniForAccess i = some vni ∧ v.vniForAccess port = some vni
  unicast : ∀ i dst vni vtep, v.forward i dst = .unicast vni vtep →
    v.vniForAccess i = some vni ∧
      ∃ inst, v.instances[vni]? = some inst ∧ inst.Learned rib vni vtep
  flood : ∀ i dst vni vteps, v.forward i dst = .flood vni vteps →
    v.vniForAccess i = some vni ∧
      ∃ inst, v.instances[vni]? = some inst ∧ ∀ vtep ∈ vteps, inst.Learned rib vni vtep
  ports : ∀ vni dst, ∀ port ∈ v.accessPortsFor vni dst, v.vniForAccess port = some vni

/-! ### What every run keeps -/

structure EvpnInstance.Sound (rib : Option EvpnLocRib) (vni : UInt32) (inst : EvpnInstance) :
    Prop where
  named : inst.vni = vni
  hosts : ∀ (mac : MacAddress) (l : LocalMac), inst.localMacs[mac]? = some l → mac.IsHost
  vteps : ∀ vtep, vtep ∈ inst.remoteVteps → inst.Learned rib vni vtep
  remote : ∀ (mac : MacAddress) (r : RemoteMac), inst.remoteMacs[mac]? = some r →
    r.vtep ∈ inst.remoteVteps

def Vtep.Sound (rib : Option EvpnLocRib) (v : Vtep) : Prop :=
  ∀ (vni : UInt32) (inst : EvpnInstance), v.instances[vni]? = some inst → inst.Sound rib vni

namespace EvpnInstance

theorem sound_new (rd : RouteDistinguisher) : (EvpnInstance.new vni rd).Sound rib vni :=
  ⟨rfl, by simp [new], by simp [new], by simp [new]⟩

theorem Sound.retarget (h : inst.Sound rib vni) (rd : RouteDistinguisher)
    (importRts exportRts : List RouteTarget) :
    ({ inst with rd, importRts := inst.importRts.insertMany importRts,
                 exportRts := inst.exportRts.insertMany exportRts } :
                 EvpnInstance).Sound rib vni := by
  refine ⟨h.named, h.hosts, fun vtep hvtep => ?_, h.remote⟩
  obtain ⟨table, htable, path, hpath, hvni, hhop, himports⟩ := h.vteps vtep hvtep
  refine ⟨table, htable, path, hpath, hvni, hhop, ?_⟩
  simp only [imports, List.any_eq_true] at himports ⊢
  obtain ⟨rt, hrt, hmem⟩ := himports
  exact ⟨rt, hrt, by simp_all⟩

theorem localMacs_learn {ip : Option Ipv4Address} {k : MacAddress} {l : LocalMac}
    (h : (inst.learn interface mac ip).1.localMacs[k]? = some l) :
    inst.localMacs[k]? = some l ∨ (k.IsHost ∧ l.accessInterface = interface) := by
  unfold learn at h
  split at h
  · exact .inl h
  rename_i hhost
  split at h
  · exact .inl h
  simp only at h
  split at h
  · refine .inl ?_
    simp only [Std.TreeMap.getElem?_erase] at h
    split at h
    · cases h
    · exact h
  split at h
  · exact .inl h
  split at h
  · exact .inl h
  simp only [Std.TreeMap.getElem?_insert] at h
  split at h
  · rename_i heq
    rw [Std.LawfulEqOrd.compare_eq_iff_eq] at heq
    subst heq
    cases h
    refine .inr ⟨?_, rfl⟩
    simpa [MacAddress.IsHost] using hhost
  · exact .inl h

/-- Learning changes bindings and counters only. -/
theorem learn_frame (inst : EvpnInstance) (interface : String) (mac : MacAddress)
    (ip : Option Ipv4Address) :
    ∃ macs hits dups, (inst.learn interface mac ip).1 =
      { inst with localMacs := macs, learnLimitHits := hits, duplicateMacs := dups } := by
  fun_cases learn <;> exact ⟨_, _, _, rfl⟩

theorem Sound.learn (h : inst.Sound rib vni) (ip : Option Ipv4Address) :
    (inst.learn interface mac ip).1.Sound rib vni := by
  have hhosts : ∀ (k : MacAddress) (l : LocalMac),
      (inst.learn interface mac ip).1.localMacs[k]? = some l → k.IsHost := by
    intro k l hl
    rcases localMacs_learn hl with hl | ⟨hk, -⟩
    · exact h.hosts k l hl
    · exact hk
  obtain ⟨macs, hits, dups, heq⟩ := inst.learn_frame interface mac ip
  rw [heq] at hhosts ⊢
  exact ⟨h.named, hhosts, h.vteps, h.remote⟩

theorem Sound.forget (h : inst.Sound rib vni) (mac : MacAddress) :
    ({ inst with localMacs := inst.localMacs.erase mac } : EvpnInstance).Sound rib vni := by
  refine ⟨h.named, fun k l hl => h.hosts k l ?_, h.vteps, h.remote⟩
  rw [Std.TreeMap.getElem?_erase] at hl
  split at hl
  · cases hl
  · exact hl

theorem Sound.dropMoved (h : inst.Sound rib vni) : inst.dropMoved.Sound rib vni := by
  refine ⟨h.named, fun k l hl => ?_, h.vteps, h.remote⟩
  simp only [EvpnInstance.dropMoved, Std.TreeMap.getElem?_filter', Option.filter_eq_some_iff] at hl
  exact h.hosts k l hl.1

theorem Sound.reset (h : inst.Sound rib vni) (rib' : Option EvpnLocRib) :
    ({ inst with remoteMacs := ∅, remoteVteps := ∅ } : EvpnInstance).Sound rib' vni :=
  ⟨h.named, h.hosts, by simp, by simp⟩

/-- The Route Target check and the VNI match are what makes a programmed VTEP a learned one. -/
theorem Sound.program {table : EvpnLocRib} {path : EvpnPath} {sourceIp : Ipv4Address}
    (h : inst.Sound (some table) path.route.vni) (hp : path ∈ table.remotePaths) :
    (inst.program sourceIp path).Sound (some table) path.route.vni := by
  unfold EvpnInstance.program
  dsimp only
  split
  · exact h
  rename_i himports
  split
  · exact h
  have hvteps : ∀ vtep, vtep ∈ inst.remoteVteps.insert path.route.nextHop →
      inst.Learned (some table) path.route.vni vtep := by
    intro vtep hvtep
    rw [Std.TreeSet.mem_insert, Std.LawfulEqOrd.compare_eq_iff_eq] at hvtep
    rcases hvtep with rfl | hvtep
    · exact ⟨table, rfl, path, hp, rfl, rfl, by simpa using himports⟩
    · exact h.vteps vtep hvtep
  split
  · rename_i hostMac hmac
    refine ⟨h.named, h.hosts, hvteps, fun k r hr => ?_⟩
    rw [Std.TreeSet.mem_insert, Std.LawfulEqOrd.compare_eq_iff_eq]
    rw [Std.TreeMap.getElem?_insert] at hr
    split at hr
    · cases hr
      exact .inl rfl
    · exact .inr (h.remote k r hr)
  · refine ⟨h.named, h.hosts, hvteps, fun k r hr => ?_⟩
    rw [Std.TreeSet.mem_insert]
    exact .inr (h.remote k r hr)

end EvpnInstance

namespace Vtep

/-- Attaching a port takes it off the instance it was in and lists it in the new one. -/
theorem instances_attachAccessPort (v : Vtep) (vni : UInt32) (interface : String) (k : UInt32) :
    (v.attachAccessPort vni interface).instances[k]? = (v.instances[k]?).map fun inst =>
      if k = vni then { inst with accessInterfaces := inst.accessInterfaces.insert interface }
      else if v.vniForAccess interface = some k then
        { inst with accessInterfaces := inst.accessInterfaces.erase interface }
      else inst := by
  have hget : ∀ (m : Std.TreeMap UInt32 EvpnInstance) (a : UInt32)
      (f : EvpnInstance → EvpnInstance),
      (m.modify a f)[k]? = (m[k]?).map fun inst => if k = a then f inst else inst := by
    intro m a f
    rw [Std.TreeMap.getElem?_modify]
    by_cases h : k = a
    · simp [h]
    · simp [h, Ne.symm h]
  unfold attachAccessPort vniForAccess
  dsimp only
  cases hprev : v.accessToVni[interface]? with
  | none => simp [hget]
  | some previous =>
    by_cases hne : previous = vni
    · subst hne
      simp only [ne_eq, not_true, if_false, hget, Option.some.injEq]
      congr 1
      funext inst
      by_cases hk : k = previous
      · simp [hk]
      · simp [hk, Ne.symm hk]
    · simp only [ne_eq, hne, not_false_eq_true, if_true, hget, Option.map_map, Option.some.injEq]
      congr 1
      funext inst
      by_cases hk : k = vni
      · simp [hk, Ne.symm hne]
      · simp [hk, eq_comm]

theorem sound_insert (h : v.Sound rib) (hi : inst.Sound rib vni) :
    ({ v with instances := v.instances.insert vni inst } : Vtep).Sound rib := by
  intro k i hk
  rw [Std.TreeMap.getElem?_insert] at hk
  split at hk
  · rename_i heq
    rw [Std.LawfulEqOrd.compare_eq_iff_eq] at heq
    cases hk
    exact heq ▸ hi
  · exact h k i hk

theorem sound_map {f : EvpnInstance → EvpnInstance} {rib' : Option EvpnLocRib} (h : v.Sound rib)
    (hf : ∀ vni inst, inst.Sound rib vni → (f inst).Sound rib' vni) :
    ({ v with instances := v.instances.map fun _ inst => f inst } : Vtep).Sound rib' := by
  intro k i hk
  simp only [Std.TreeMap.getElem?_map, Option.map_eq_some_iff] at hk
  obtain ⟨old, hold, rfl⟩ := hk
  exact hf k old (h k old hold)

theorem sound_programPath {table : EvpnLocRib} {path : EvpnPath} (h : v.Sound (some table))
    (hp : path ∈ table.remotePaths) : (v.programPath path).Sound (some table) := by
  intro k i hk
  simp only [programPath, Std.TreeMap.getElem?_modify] at hk
  split at hk
  · rename_i heq
    rw [Std.LawfulEqOrd.compare_eq_iff_eq] at heq
    subst heq
    obtain ⟨old, hold, rfl⟩ := Option.map_eq_some_iff.mp hk
    exact (h _ old hold).program hp
  · exact h k i hk

theorem sound_programPaths {table : EvpnLocRib} (paths : List EvpnPath) (h : v.Sound (some table))
    (hp : ∀ path ∈ paths, path ∈ table.remotePaths) :
    (paths.foldl programPath v).Sound (some table) := by
  induction paths generalizing v with
  | nil => exact h
  | cons path paths ih =>
    exact ih (sound_programPath h (hp path (by simp))) fun p hpath => hp p (by simp [hpath])

theorem Sound.apply (h : v.Sound rib) (c : VtepCall) : (v.apply c).Sound (c.rib?.or rib) := by
  cases c with
  | addInstance vni rd importRts exportRts =>
    change (v.addInstance vni rd importRts exportRts).1.Sound rib
    unfold addInstance
    split
    · exact h
    refine sound_insert h (EvpnInstance.Sound.retarget ?_ _ _ _)
    cases hinst : v.instances[vni]? with
    | none => exact EvpnInstance.sound_new rd
    | some inst => exact h vni inst hinst
  | attachAccessPort vni interface =>
    intro k i hk
    change (v.attachAccessPort vni interface).instances[k]? = some i at hk
    rw [instances_attachAccessPort, Option.map_eq_some_iff] at hk
    obtain ⟨old, hold, rfl⟩ := hk
    have hold := h k old hold
    split
    · exact ⟨hold.named, hold.hosts, hold.vteps, hold.remote⟩
    split
    · exact ⟨hold.named, hold.hosts, hold.vteps, hold.remote⟩
    · exact hold
  | learnLocal interface mac ip =>
    change (v.learnLocal interface mac ip).1.Sound rib
    unfold learnLocal
    split
    · exact h
    split
    · exact h
    · rename_i inst hinst
      exact sound_insert h ((h _ inst hinst).learn ip)
  | forgetLocal vni mac =>
    change (v.forgetLocal vni mac).1.Sound rib
    unfold forgetLocal
    split
    · exact h
    · rename_i inst hinst
      exact sound_insert h ((h _ inst hinst).forget mac)
  | programFromRib table =>
    change (v.programFromRib table).1.Sound (some table)
    have hclear : v.clearRemote.Sound (some table) := sound_map h fun _ _ hi => hi.reset _
    exact sound_map (sound_programPaths _ hclear fun _ hp => hp) fun _ _ hi => hi.dropMoved

end Vtep

/-! ### Ports and bindings in their place -/

/-- Every port is listed where the map says, and every binding is on a port of its instance. -/
structure Placed (v : Vtep) : Prop where
  listed : ∀ i vni, v.vniForAccess i = some vni →
    ∃ inst, v.instances[vni]? = some inst ∧ i ∈ inst.accessInterfaces
  only : ∀ vni inst i, v.instances[vni]? = some inst → i ∈ inst.accessInterfaces →
    v.vniForAccess i = some vni
  bound : ∀ (vni : UInt32) (inst : EvpnInstance) (mac : MacAddress) (l : LocalMac),
    v.instances[vni]? = some inst → inst.localMacs[mac]? = some l →
      v.vniForAccess l.accessInterface = some vni

namespace Vtep

/-- The states in which a call keeps ports and bindings in their place: a port is attached to an
instance that exists, and no other instance still has a host on it. -/
def Safe (v : Vtep) : VtepCall → Prop
  | .attachAccessPort vni interface =>
    v.hasVni vni ∧ ∀ (other : UInt32) (inst : EvpnInstance), v.instances[other]? = some inst →
      other ≠ vni → ∀ (mac : MacAddress) (l : LocalMac), inst.localMacs[mac]? = some l →
        l.accessInterface ≠ interface
  | _ => True

theorem forward_local {dst : MacAddress} {port : String}
    (h : v.forward interface dst = .local port) :
    ∃ vni inst l, v.vniForAccess interface = some vni ∧ v.instances[vni]? = some inst ∧
      inst.localMacs[dst]? = some l ∧ l.accessInterface = port := by
  unfold forward flood at h
  grind

theorem forward_unicast {dst : MacAddress} {vtep : Ipv4Address}
    (h : v.forward interface dst = .unicast vni vtep) :
    ∃ inst r, v.vniForAccess interface = some vni ∧ v.instances[vni]? = some inst ∧
      inst.remoteMacs[dst]? = some r ∧ r.vtep = vtep := by
  unfold forward flood at h
  grind

theorem forward_flood {dst : MacAddress} {vteps : List Ipv4Address}
    (h : v.forward interface dst = .flood vni vteps) :
    ∃ k inst, v.vniForAccess interface = some k ∧ v.instances[k]? = some inst ∧
      inst.vni = vni ∧ vteps = inst.remoteVteps.toList := by
  unfold forward flood at h
  grind

theorem mem_accessPortsFor {dst : MacAddress} {port : String}
    (h : port ∈ v.accessPortsFor vni dst) :
    ∃ inst, v.instances[vni]? = some inst ∧
      (port ∈ inst.accessInterfaces ∨
        ∃ l, inst.localMacs[dst]? = some l ∧ l.accessInterface = port) := by
  unfold accessPortsFor at h
  grind

theorem accessPortsFor_of_local {l : LocalMac} (h : v.instances[vni]? = some inst)
    (hl : inst.localMacs[mac]? = some l) (hhost : mac.IsHost) :
    v.accessPortsFor vni mac = [l.accessInterface] := by
  simp [accessPortsFor, h, hl, hhost.1, hhost.2]

end Vtep

theorem Placed.isolated (h : Placed v) (hs : v.Sound rib) : Isolated rib v := by
  refine ⟨h.listed, h.only, fun i dst port hf => ?_, fun i dst vni vtep hf => ?_,
    fun i dst vni vteps hf => ?_, fun vni dst port hp => ?_⟩
  · obtain ⟨vni, inst, l, hi, hinst, hl, rfl⟩ := Vtep.forward_local hf
    exact ⟨vni, hi, h.bound vni inst dst l hinst hl⟩
  · obtain ⟨inst, r, hi, hinst, hr, rfl⟩ := Vtep.forward_unicast hf
    exact ⟨hi, inst, hinst, (hs vni inst hinst).vteps _ ((hs vni inst hinst).remote dst r hr)⟩
  · obtain ⟨k, inst, hi, hinst, rfl, rfl⟩ := Vtep.forward_flood hf
    have hk := (hs k inst hinst).named
    rw [hk]
    exact ⟨hi, inst, hinst, fun vtep hv =>
      (hs k inst hinst).vteps vtep (Std.TreeSet.mem_toList.mp hv)⟩
  · obtain ⟨inst, hinst, hport | ⟨l, hl, rfl⟩⟩ := Vtep.mem_accessPortsFor hp
    · exact h.only vni inst port hinst hport
    · exact h.bound vni inst dst l hinst hl

theorem Isolated.placed (h : Isolated rib v) (hs : v.Sound rib) : Placed v := by
  refine ⟨h.listed, h.only, fun vni inst mac l hinst hl => h.ports vni mac _ ?_⟩
  rw [Vtep.accessPortsFor_of_local hinst hl ((hs vni inst hinst).hosts mac l hl)]
  simp

/-- Enough for a call that moves no port. -/
theorem Placed.update {v' : Vtep} (h : Placed v) (hmap : v'.accessToVni = v.accessToVni)
    (hdom : ∀ k : UInt32, (v.instances[k]?).isSome → (v'.instances[k]?).isSome)
    (hkeep : ∀ (k : UInt32) (new : EvpnInstance), v'.instances[k]? = some new →
      new.accessInterfaces = ((v.instances[k]?).map (·.accessInterfaces)).getD ∅ ∧
      ∀ (mac : MacAddress) (l : LocalMac), new.localMacs[mac]? = some l →
        v.vniForAccess l.accessInterface = some k ∨
          ∃ inst, v.instances[k]? = some inst ∧ inst.localMacs[mac]? = some l) :
    Placed v' := by
  have hvni : ∀ i, v'.vniForAccess i = v.vniForAccess i := fun i => by
    simp [Vtep.vniForAccess, hmap]
  refine ⟨fun i vni hi => ?_, fun vni new i hnew hi => ?_, fun vni new mac l hnew hl => ?_⟩
  · obtain ⟨inst, hinst, hmem⟩ := h.listed i vni (hvni i ▸ hi)
    obtain ⟨new, hnew⟩ := Option.isSome_iff_exists.mp (hdom vni (by simp [hinst]))
    refine ⟨new, hnew, ?_⟩
    simpa [(hkeep vni new hnew).1, hinst] using hmem
  · rw [(hkeep vni new hnew).1] at hi
    cases hinst : v.instances[vni]? with
    | none => simp [hinst] at hi
    | some inst => exact hvni i ▸ h.only vni inst i hinst (by simpa [hinst] using hi)
  · rw [hvni]
    rcases (hkeep vni new hnew).2 mac l hl with hvia | ⟨inst, hinst, hold⟩
    · exact hvia
    · exact h.bound vni inst mac l hinst hold

/-- What `Placed` reads of an instance. -/
def Vtep.tenant (v : Vtep) (k : UInt32) :
    Option (Std.TreeSet String × Std.TreeMap MacAddress LocalMac) :=
  (v.instances[k]?).map fun inst => (inst.accessInterfaces, inst.localMacs)

theorem EvpnInstance.program_frame (inst : EvpnInstance) (sourceIp : Ipv4Address)
    (path : EvpnPath) :
    ∃ macs vteps, inst.program sourceIp path =
      { inst with remoteMacs := macs, remoteVteps := vteps } := by
  fun_cases EvpnInstance.program <;> exact ⟨_, _, rfl⟩

theorem Vtep.tenant_programPaths (paths : List EvpnPath) (v : Vtep) :
    (paths.foldl programPath v).tenant = v.tenant ∧
      (paths.foldl programPath v).accessToVni = v.accessToVni := by
  induction paths generalizing v with
  | nil => exact ⟨rfl, rfl⟩
  | cons path paths ih =>
    obtain ⟨htenant, hmap⟩ := ih (v.programPath path)
    refine ⟨htenant.trans (funext fun k => ?_), hmap⟩
    simp only [tenant, programPath, Std.TreeMap.getElem?_modify]
    split
    · rename_i heq
      rw [Std.LawfulEqOrd.compare_eq_iff_eq] at heq
      subst heq
      rw [Option.map_map]
      congr 1
      funext inst
      obtain ⟨macs, vteps, heq⟩ := inst.program_frame v.sourceIp path
      simp [heq]
    · rfl

theorem Placed.programFromRib (h : Placed v) (table : EvpnLocRib) :
    Placed (v.programFromRib table).1 := by
  obtain ⟨htenant, hmap⟩ := Vtep.tenant_programPaths table.remotePaths v.clearRemote
  have htenant : (table.remotePaths.foldl Vtep.programPath v.clearRemote).tenant = v.tenant := by
    rw [htenant]
    funext k
    simp [Vtep.tenant, Vtep.clearRemote, Function.comp_def]
  have hget : ∀ (k : UInt32), (table.remotePaths.foldl Vtep.programPath v.clearRemote).tenant k =
      v.tenant k := fun k => congrFun htenant k
  simp only [Vtep.tenant] at hget
  refine h.update hmap (fun k hk => ?_) (fun k new hnew => ?_)
  · have hsome := congrArg Option.isSome (hget k)
    rw [Option.isSome_map, Option.isSome_map] at hsome
    rw [Vtep.programFromRib, Std.TreeMap.getElem?_map, Option.isSome_map, hsome]
    exact hk
  · simp only [Vtep.programFromRib, Std.TreeMap.getElem?_map, Option.map_eq_some_iff] at hnew
    obtain ⟨mid, hmid, rfl⟩ := hnew
    have hk := hget k
    rw [hmid, Option.map_some, eq_comm, Option.map_eq_some_iff] at hk
    obtain ⟨inst, hinst, heq⟩ := hk
    simp only [Prod.mk.injEq] at heq
    refine ⟨by simp [hinst, heq.1, EvpnInstance.dropMoved], fun mac l hl => .inr ⟨inst, hinst, ?_⟩⟩
    simp only [EvpnInstance.dropMoved, Std.TreeMap.getElem?_filter',
      Option.filter_eq_some_iff] at hl
    rw [heq.2]
    exact hl.1

theorem Placed.attachAccessPort (h : Placed v) (hs : v.Safe (.attachAccessPort vni interface)) :
    Placed (v.attachAccessPort vni interface) := by
  obtain ⟨hvni, hfree⟩ := hs
  have hmap : ∀ i, (v.attachAccessPort vni interface).vniForAccess i =
      if interface = i then some vni else v.vniForAccess i := fun i => by
    simp [Vtep.attachAccessPort, Vtep.vniForAccess, Std.TreeMap.getElem?_insert]
  refine ⟨fun i k hi => ?_, fun k new i hnew hi => ?_, fun k new mac l hnew hl => ?_⟩
  · rw [hmap] at hi
    split at hi
    · rename_i heq
      subst heq
      cases hi
      obtain ⟨inst, hinst⟩ := Option.isSome_iff_exists.mp
        (Std.TreeMap.mem_iff_isSome_getElem?.mp (Std.TreeMap.mem_iff_contains.mpr hvni))
      exact ⟨_, by rw [Vtep.instances_attachAccessPort, hinst, Option.map_some], by simp⟩
    · rename_i hne
      obtain ⟨inst, hinst, hmem⟩ := h.listed i k hi
      refine ⟨_, by rw [Vtep.instances_attachAccessPort, hinst, Option.map_some], ?_⟩
      split
      · simp [hmem]
      split
      · simp [hmem, hne]
      · exact hmem
  · rw [Vtep.instances_attachAccessPort, Option.map_eq_some_iff] at hnew
    obtain ⟨inst, hinst, rfl⟩ := hnew
    rw [hmap]
    split at hi
    · rename_i hk
      subst hk
      simp only [Std.TreeSet.mem_insert, Std.LawfulEqOrd.compare_eq_iff_eq] at hi
      split
      · rfl
      · rename_i hne
        exact h.only k inst i hinst (hi.resolve_left hne)
    · rename_i hk
      by_cases heq : interface = i
      · -- a port that is moved leaves the instance it was in
        subst heq
        split at hi
        · simp at hi
        · rename_i hprev
          exact absurd (h.only k inst interface hinst hi) hprev
      · rw [if_neg heq]
        refine h.only k inst i hinst ?_
        split at hi
        · simp_all
        · exact hi
  · rw [Vtep.instances_attachAccessPort, Option.map_eq_some_iff] at hnew
    obtain ⟨inst, hinst, rfl⟩ := hnew
    have hl : inst.localMacs[mac]? = some l := by
      split at hl
      · exact hl
      · split at hl <;> exact hl
    rw [hmap]
    split
    · rename_i heq
      by_cases hk : k = vni
      · rw [hk]
      · exact absurd heq.symm (hfree k inst hinst hk mac l hl)
    · exact h.bound k inst mac l hinst hl

theorem Placed.apply (h : Placed v) (hs : v.Safe c) : Placed (v.apply c) := by
  cases c with
  | attachAccessPort vni interface => exact h.attachAccessPort hs
  | programFromRib table => exact h.programFromRib table
  | addInstance vni rd importRts exportRts =>
    change Placed (v.addInstance vni rd importRts exportRts).1
    unfold Vtep.addInstance
    split
    · exact h
    refine h.update rfl (fun k hk => ?_) (fun k new hnew => ?_)
    · simp only [Std.TreeMap.getElem?_insert]
      split <;> simp_all
    · simp only [Std.TreeMap.getElem?_insert] at hnew
      split at hnew
      · rename_i heq
        rw [Std.LawfulEqOrd.compare_eq_iff_eq] at heq
        subst heq
        cases hnew
        cases hinst : v.instances[vni]? with
        | none => simp [EvpnInstance.new]
        | some inst => exact ⟨by simp, fun mac l hl => .inr ⟨inst, rfl, by simpa using hl⟩⟩
      · exact ⟨by simp [hnew], fun mac l hl => .inr ⟨new, hnew, hl⟩⟩
  | learnLocal interface mac ip =>
    change Placed (v.learnLocal interface mac ip).1
    unfold Vtep.learnLocal
    split
    · exact h
    rename_i vni hvni
    split
    · exact h
    rename_i inst hinst
    refine h.update rfl (fun k hk => ?_) (fun k new hnew => ?_)
    · simp only [Std.TreeMap.getElem?_insert]
      split <;> simp_all
    · simp only [Std.TreeMap.getElem?_insert] at hnew
      split at hnew
      · rename_i heq
        rw [Std.LawfulEqOrd.compare_eq_iff_eq] at heq
        subst heq
        cases hnew
        refine ⟨?_, fun k l hl => ?_⟩
        · obtain ⟨macs, hits, dups, heq⟩ := inst.learn_frame interface mac ip
          simp [hinst, heq]
        · rcases EvpnInstance.localMacs_learn hl with hold | ⟨-, hport⟩
          · exact .inr ⟨inst, hinst, hold⟩
          · exact .inl (hport ▸ hvni)
      · exact ⟨by simp [hnew], fun mac l hl => .inr ⟨new, hnew, hl⟩⟩
  | forgetLocal vni mac =>
    change Placed (v.forgetLocal vni mac).1
    unfold Vtep.forgetLocal
    split
    · exact h
    rename_i inst hinst
    refine h.update rfl (fun k hk => ?_) (fun k new hnew => ?_)
    · simp only [Std.TreeMap.getElem?_insert]
      split <;> simp_all
    · simp only [Std.TreeMap.getElem?_insert] at hnew
      split at hnew
      · rename_i heq
        rw [Std.LawfulEqOrd.compare_eq_iff_eq] at heq
        subst heq
        cases hnew
        refine ⟨by simp [hinst], fun k l hl => .inr ⟨inst, hinst, ?_⟩⟩
        rw [Std.TreeMap.getElem?_erase] at hl
        split at hl
        · cases hl
        · exact hl
      · exact ⟨by simp [hnew], fun mac l hl => .inr ⟨new, hnew, hl⟩⟩

/-- An attachment that is not safe breaks the placement at once. -/
theorem Placed.safe (h : Placed (v.apply c)) : v.Safe c := by
  cases c with
  | attachAccessPort vni interface =>
    have hmap : (v.attachAccessPort vni interface).vniForAccess interface = some vni := by
      simp [Vtep.attachAccessPort, Vtep.vniForAccess]
    refine ⟨?_, fun other inst hinst hne mac l hl heq => ?_⟩
    · obtain ⟨inst, hinst, -⟩ := h.listed interface vni hmap
      change (v.attachAccessPort vni interface).instances[vni]? = some inst at hinst
      rw [Vtep.instances_attachAccessPort, Option.map_eq_some_iff] at hinst
      obtain ⟨old, hold, -⟩ := hinst
      rw [Vtep.hasVni, ← Std.TreeMap.mem_iff_contains, Std.TreeMap.mem_iff_isSome_getElem?, hold]
      rfl
    · have hbound := h.bound other _ mac l
        ((v.instances_attachAccessPort vni interface other).trans (by rw [hinst, Option.map_some]))
        (by split <;> [exact hl; (split <;> exact hl)])
      rw [heq] at hbound
      exact hne (Option.some.inj (hbound.symm.trans hmap))
  | _ => trivial

/-! ### Runs -/

def Vtep.run (v : Vtep) (calls : List VtepCall) : Vtep := calls.foldl Vtep.apply v

theorem Vtep.run_concat (calls : List VtepCall) (c : VtepCall) :
    v.run (calls ++ [c]) = (v.run calls).apply c := by
  simp [Vtep.run]

theorem sound_run (sourceIp : Ipv4Address) (underlay : String) (calls : List VtepCall) :
    ((Vtep.new sourceIp underlay).run calls).Sound (lastRib calls) := by
  induction calls using List.reverseRecOn with
  | nil => exact fun vni inst hinst => by simp [Vtep.run, Vtep.new] at hinst
  | append_singleton calls c ih =>
    rw [Vtep.run_concat, lastRib_concat]
    exact ih.apply c

/-- A run keeps the tenants apart in all its states exactly when each port it attaches goes to an
instance that exists and no other instance has a host bound to that port. -/
theorem isolated_run_iff (sourceIp : Ipv4Address) (underlay : String) (calls : List VtepCall) :
    (∀ done rest, calls = done ++ rest →
      Isolated (lastRib done) ((Vtep.new sourceIp underlay).run done)) ↔
    ∀ done c rest, calls = done ++ c :: rest → ((Vtep.new sourceIp underlay).run done).Safe c := by
  constructor
  · intro h done c rest heq
    have hplaced := (h (done ++ [c]) rest (by simp [heq])).placed (sound_run sourceIp underlay _)
    rw [Vtep.run_concat] at hplaced
    exact hplaced.safe
  · intro h done rest heq
    refine Placed.isolated ?_ (sound_run sourceIp underlay done)
    induction done using List.reverseRecOn generalizing rest with
    | nil => constructor <;> simp [Vtep.run, Vtep.new, Vtep.vniForAccess]
    | append_singleton done c ih =>
      rw [Vtep.run_concat]
      have heq : calls = done ++ c :: rest := by simp [heq]
      exact (ih (c :: rest) heq).apply (h done c rest heq)

def tenantHost : MacAddress := ⟨#v[2, 0, 0, 0, 0, 0xAA]⟩

/-- A host is learned on `eth0`, and then `eth0` is given to another tenant. -/
def movedPort : List VtepCall :=
  [.addInstance 5001 ⟨1, 5001⟩ [.as2 65001 5001] [.as2 65001 5001],
   .addInstance 5002 ⟨1, 5002⟩ [.as2 65001 5002] [.as2 65001 5002],
   .attachAccessPort 5001 "eth0", .attachAccessPort 5001 "eth1",
   .learnLocal "eth0" tenantHost none, .attachAccessPort 5002 "eth0"]

/-- Frames of the first tenant keep being delivered to the port, which is now the second's. -/
theorem not_isolated_movedPort :
    ((Vtep.new ⟨10, 0, 0, 1⟩ "eth2").run movedPort).forward "eth1" tenantHost = .local "eth0" ∧
      ((Vtep.new ⟨10, 0, 0, 1⟩ "eth2").run movedPort).vniForAccess "eth1" = some 5001 ∧
      ((Vtep.new ⟨10, 0, 0, 1⟩ "eth2").run movedPort).vniForAccess "eth0" = some 5002 ∧
      ¬Isolated (lastRib movedPort) ((Vtep.new ⟨10, 0, 0, 1⟩ "eth2").run movedPort) := by
  have hlocal : ((Vtep.new ⟨10, 0, 0, 1⟩ "eth2").run movedPort).forward "eth1" tenantHost =
      .local "eth0" := by decide +kernel
  have heth1 : ((Vtep.new ⟨10, 0, 0, 1⟩ "eth2").run movedPort).vniForAccess "eth1" = some 5001 := by
    decide +kernel
  have heth0 : ((Vtep.new ⟨10, 0, 0, 1⟩ "eth2").run movedPort).vniForAccess "eth0" = some 5002 := by
    decide +kernel
  refine ⟨hlocal, heth1, heth0, fun h => ?_⟩
  obtain ⟨vni, h1, h0⟩ := h.local "eth1" tenantHost "eth0" hlocal
  rw [heth1] at h1
  rw [heth0] at h0
  cases h1
  exact absurd h0 (by decide)

end ToyTcpip
