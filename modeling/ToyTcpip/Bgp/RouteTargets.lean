import ToyTcpip.Bgp.Currency

/-! Route Target import follows the configured targets. -/
namespace ToyTcpip.Bgp

/-! ### Runs whose configuration calls meet a condition -/

section runs

variable {ok : BgpRouter → Config → Prop} {σ : Type} {io : SocketRuntime σ} {w : World σ} {t : ℕ}

/-- The induction over such runs, for a property that no step and no such call breaks. -/
theorem ReachableBy.keeps {I : BgpRouter → Prop}
    (hstart : ∀ localAs routerId, I (.new localAs routerId))
    (hstep : ∀ {r cs r' t}, Step t r cs r' → I r → I r')
    (hconfigure : ∀ {r c}, Stored r → r.addrs.Nodup → ok r c → I r → I (c.apply r))
    (h : ReachableBy ok io w t) : I w.router := by
  have hrun : ∀ {w w' : World σ} {t}, Reaches t w w' → I w.router → I w'.router := by
    rintro w w' t ⟨cs, hrun, -⟩ hw
    exact hrun.keeps (fun hs hr => hstep hs hr) hw
  induction h with
  | start localAs routerId => exact hstart localAs routerId
  | network _ _ ih => exact ih
  | configure c hc hw ih => exact hconfigure hw.reachable.stored hw.nodup hc ih
  | @poll w t nowMs _ _ ih =>
    have hr : Reaches nowMs w (w.poll io nowMs) := World.poll_reaches
    exact hrun hr ih
  | @shutdownPeer w t nowMs addr _ _ ih =>
    have hr : Reaches nowMs w (w.shutdownPeer io addr nowMs) := World.shutdownPeer_reaches
    exact hrun hr ih
  | @requestRouteRefresh w t addr family _ ih =>
    have hr : Reaches t w (w.requestRouteRefresh io addr family) :=
      World.requestRouteRefresh_reaches
    exact hrun hr ih
  | @beginGracefulRestart w t nowMs _ _ ih =>
    have hr : Reaches nowMs w (w.beginGracefulRestart io nowMs) :=
      World.beginGracefulRestart_reaches
    exact hrun hr ih

end runs

/-! ### What a removal takes -/

section removal

variable {r : BgpRouter} {rt : RouteTarget}

theorem get?_foldl_erase_placed (l : List (Ipv4Address × EvpnRouteKey × EvpnPath))
    (t : EvpnAdjRibIn) (a : Ipv4Address) (k : EvpnRouteKey) :
    (l.foldl (fun (t : EvpnAdjRibIn) e => t.erase e.2.2.peerAddr e.2.2.key) t).get? a k =
      if ∃ e ∈ l, e.2.2.peerAddr = a ∧ e.2.2.key = k then none else t.get? a k := by
  induction l generalizing t with
  | nil => simp
  | cons e rest ih =>
    rw [List.foldl_cons, ih, Nested.get?_erase]
    by_cases he : e.2.2.peerAddr = a ∧ e.2.2.key = k
    · simp [he]
    · by_cases hrest : ∃ e ∈ rest, e.2.2.peerAddr = a ∧ e.2.2.key = k
      · rw [if_pos hrest, if_pos]
        obtain ⟨e', he', heq⟩ := hrest
        exact ⟨e', List.mem_cons_of_mem _ he', heq⟩
      · rw [if_neg hrest, if_neg he, if_neg]
        rintro ⟨e', he', heq⟩
        rcases List.mem_cons.mp he' with rfl | he'
        · exact he heq
        · exact hrest ⟨e', he', heq⟩

/-- A removal takes the paths that match none of the targets left. -/
theorem get?_removeImportRouteTarget (h : RibPlaced r.evpn) (hrt : r.importRts.contains rt = true)
    (a : Ipv4Address) (k : EvpnRouteKey) :
    (r.removeImportRouteTarget rt).evpn.adjRibIn.get? a k =
      (r.evpn.adjRibIn.get? a k).filter fun p => p.route.matchesImport (r.importRts.erase rt) := by
  rw [BgpRouter.removeImportRouteTarget, if_pos hrt]
  refine (get?_foldl_erase_placed _ r.evpn.adjRibIn a k).trans ?_
  have hfound : (∃ e ∈ r.evpn.adjRibIn.entries.filter fun e =>
      !e.2.2.route.matchesImport (r.importRts.erase rt), e.2.2.peerAddr = a ∧ e.2.2.key = k) ↔
      ∃ p, r.evpn.adjRibIn.get? a k = some p ∧
        p.route.matchesImport (r.importRts.erase rt) = false := by
    constructor
    · rintro ⟨⟨a', k', p⟩, he, rfl, rfl⟩
      obtain ⟨hin, hno⟩ := List.mem_filter.mp he
      have hp := Nested.mem_entries.mp hin
      obtain ⟨hk, ha⟩ := h a' k' p hp
      refine ⟨p, ?_, by simpa using hno⟩
      rw [← hk, ← ha] at hp
      exact hp
    · rintro ⟨p, hp, hno⟩
      refine ⟨(a, k, p), List.mem_filter.mpr ⟨Nested.mem_entries.mpr hp, by simpa using hno⟩, ?_⟩
      exact ⟨(h a k p hp).2, (h a k p hp).1⟩
  simp only [hfound]
  cases hp : r.evpn.adjRibIn.get? a k with
  | none => simp
  | some p => cases hm : p.route.matchesImport (r.importRts.erase rt) <;> simp [hm, Option.filter]

end removal

/-! ### The mark of each path tells whether it is imported -/

/-- Every stored path is marked by the targets imported now. -/
def Stamped (r : BgpRouter) : Prop :=
  ∀ a k p, r.evpn.adjRibIn.get? a k = some p →
    p.importable = p.route.matchesImport r.importRts ∧ p.isLocal = false

/-- A target is added while no stored path waits for it; a speaker that retains all targets removes
one only if what it has stored matches the others. -/
def TargetsOk (r : BgpRouter) : Config → Prop
  | .addImportRouteTarget rt => ∀ a k p, r.evpn.adjRibIn.get? a k = some p → p.importable = false →
      rt ∉ p.route.routeTargets
  | .removeImportRouteTarget rt => r.retainsAllRouteTargets = true →
      r.importRts.contains rt = true → ∀ a k p, r.evpn.adjRibIn.get? a k = some p →
        p.route.matchesImport (r.importRts.erase rt) = true
  | _ => True

section stamped

variable {r r' : BgpRouter} {nowMs : ℕ} {cs : List Call} {rt : RouteTarget}

theorem Stamped.step (h : Stamped r) (hs : Step nowMs r cs r') : Stamped r' := by
  have hrts : r'.importRts = r.importRts := congrArg Settings.importRts hs.sameOriginated.settings
  intro a k p hp
  rw [hrts]
  rcases hs.came.evpn a k p hp with hp | ⟨-, hstamp, hlearned⟩
  · exact h a k p hp
  · exact ⟨hstamp, hlearned⟩

theorem Stamped.of_paths (h : Stamped r) (hrts : r'.importRts = r.importRts)
    (hpaths : ∀ a k p, r'.evpn.adjRibIn.get? a k = some p → ∃ q, r.evpn.adjRibIn.get? a k = some q ∧
      (p = q ∨ ∃ on, p = RoutePath.setFromClient on q)) : Stamped r' := by
  intro a k p hp
  obtain ⟨q, hq, rfl | ⟨on, rfl⟩⟩ := hpaths a k p hp
  · rw [hrts]
    exact h a k p hq
  · rw [hrts]
    exact h a k q hq

theorem matchesImport_insert {route : EvpnRoute} {imports : Std.TreeSet RouteTarget} :
    route.matchesImport (imports.insert rt) =
      (decide (rt ∈ route.routeTargets) || route.matchesImport imports) := by
  rw [Bool.eq_iff_iff, Bool.or_eq_true, decide_eq_true_iff]
  simp only [EvpnRoute.matchesImport, List.any_eq_true, Std.TreeSet.contains_insert,
    Bool.or_eq_true, beq_iff_eq, Std.compare_eq_iff_eq]
  constructor
  · rintro ⟨x, hx, rfl | hin⟩
    · exact .inl hx
    · exact .inr ⟨x, hx, hin⟩
  · rintro (hin | ⟨x, hx, hin⟩)
    · exact ⟨rt, hin, .inl rfl⟩
    · exact ⟨x, hx, .inr hin⟩

theorem Stamped.add (h : Stamped r) (hok : TargetsOk r (.addImportRouteTarget rt)) :
    Stamped (r.addImportRouteTarget rt) := by
  unfold BgpRouter.addImportRouteTarget
  split
  · exact h
  · intro a k p hp
    obtain ⟨hstamp, hlearned⟩ := h a k p hp
    refine ⟨?_, hlearned⟩
    rw [matchesImport_insert, ← hstamp]
    cases himp : p.importable
    · simp [hok a k p hp himp]
    · simp

theorem Stamped.remove (h : Stamped r) (hplaced : RibPlaced r.evpn) :
    Stamped (r.removeImportRouteTarget rt) := by
  by_cases hrt : r.importRts.contains rt = true
  · intro a k p hp
    rw [get?_removeImportRouteTarget hplaced hrt, Option.filter_eq_some_iff] at hp
    obtain ⟨hstamp, hlearned⟩ := h a k p hp.1
    have hrts : (r.removeImportRouteTarget rt).importRts = r.importRts.erase rt := by
      rw [BgpRouter.removeImportRouteTarget, if_pos hrt]
    refine ⟨?_, hlearned⟩
    -- what matches the targets left matched them before
    have hbefore : p.route.matchesImport r.importRts = true := by
      obtain ⟨x, hx, hin⟩ := List.any_eq_true.mp hp.2
      exact List.any_eq_true.mpr ⟨x, hx, (Std.TreeSet.contains_of_contains_erase hin)⟩
    rw [hstamp, hrts, hp.2, hbefore]
  · rwa [BgpRouter.removeImportRouteTarget, if_neg hrt]

theorem importRts_updateNamed {addr : Ipv4Address} {f : BgpPeer → BgpPeer} :
    (r.updateNamed addr f).importRts = r.importRts := by
  unfold BgpRouter.updateNamed
  split <;> rfl

/-- The calls that are not about targets leave them alone. -/
theorem importRts_apply (c : Config) : (c.apply r).importRts = r.importRts ∨
    (∃ rt, c = .addImportRouteTarget rt) ∨ ∃ rt, c = .removeImportRouteTarget rt := by
  cases c with
  | addImportRouteTarget rt => exact .inr (.inl ⟨rt, rfl⟩)
  | removeImportRouteTarget rt => exact .inr (.inr ⟨rt, rfl⟩)
  | setImportPolicy | setExportPolicy | setNextHopSelf | setMaxPrefixes | setEnforceFirstAs
  | enablePeer => exact .inl importRts_updateNamed
  | setClusterId id =>
    left
    unfold Config.apply BgpRouter.setClusterId
    simp only
    split <;> rfl
  | setRouteReflectorClient addr on =>
    left
    unfold Config.apply BgpRouter.setRouteReflectorClient
    simp only
    repeat' split
    all_goals rfl
  | setRetainAllRouteTargets on =>
    left
    unfold Config.apply BgpRouter.setRetainAllRouteTargets
    simp only
    split <;> rfl
  | markGracefulRestartFamilyRecovered family =>
    exact .inl (congrArg Settings.importRts World.quiet_markRecovered.settings)
  | addPeer addr remoteAs localAddr mode =>
    left
    unfold Config.apply BgpRouter.addPeer
    simp only
    split <;> rfl
  | originateEvpn route =>
    left
    unfold Config.apply BgpRouter.originateEvpn
    simp only
    split <;> rfl
  | _ => exact .inl rfl

theorem Stamped.configure {c : Config} (h : Stamped r) (hs : Stored r) (hn : r.addrs.Nodup)
    (hok : TargetsOk r c) : Stamped (c.apply r) := by
  rcases importRts_apply (r := r) c with hrts | ⟨rt, rfl⟩ | ⟨rt, rfl⟩
  · exact h.of_paths hrts (configured_apply hn c).evpn.paths
  · exact h.add hok
  · exact h.remove hs.evpn

theorem ReachableBy.stamped {σ : Type} {io : SocketRuntime σ} {w : World σ} {t : ℕ}
    (h : ReachableBy TargetsOk io w t) : Stamped w.router :=
  h.keeps (fun _ _ a k p hp => by simp [BgpRouter.new] at hp) (fun hs hr => hr.step hs)
    (fun hs hn hok hr => hr.configure hs hn hok)

end stamped

/-! ### The choice among what is imported -/

namespace BgpRouter

variable (r : BgpRouter) (k : EvpnRouteKey)

def evpnStale (p : EvpnPath) : Bool :=
  r.routeIsGracefulRestartStale p.peerAddr .l2vpnEvpn p.receivedAtMs

/-- The received paths whose Route Targets intersect the import set. -/
def imported : List EvpnPath :=
  (r.evpn.adjRibIn.candidates k).filter fun p => p.route.matchesImport r.importRts

/-- The best of them, the stale ones last, or of what this speaker originates. -/
def bestImported (nowMs : ℕ) : Option EvpnPath :=
  let fresh := (r.imported k).filter fun p => !r.evpnStale p
  selectBestEvpn ((if fresh.isEmpty then r.imported k else fresh) ++
    (r.evpn.originated[k]?.map fun route => EvpnPath.local route r.routerId nowMs).toList)

/-- A fresh path that is not imported never stands beside a stale one that is, unless a fresh one is
imported too. -/
def Unmixed : Prop :=
  ∀ k, (∃ p ∈ r.evpn.adjRibIn.candidates k, r.evpnStale p = false) →
    (∃ p ∈ r.imported k, r.evpnStale p = false) ∨ r.imported k = []

end BgpRouter

/-- The EVPN Loc-RIB has the best of the imported paths under each key, and the advertisement RIB
the best of all. -/
structure TracksTargets (r : BgpRouter) (nowMs : ℕ) : Prop where
  locRib : ∀ k : EvpnRouteKey, r.evpn.locRib[k]?.map EvpnPath.undated =
    (r.bestImported k nowMs).map EvpnPath.undated
  advertised : ∀ k : EvpnRouteKey, r.evpnAdvertiseRib[k]?.map EvpnPath.undated =
    (selectBestEvpn (r.evpnContenders nowMs k)).map EvpnPath.undated

/-- What a speaker that retains all targets would advertise does not depend on importing this
one. -/
def LosesNothing (r : BgpRouter) (rt : RouteTarget) (nowMs : ℕ) : Prop :=
  r.retainsAllRouteTargets = true → ∀ k : EvpnRouteKey,
    ((r.removeImportRouteTarget rt).evpnAdvertiseDecision nowMs)[k]?.map EvpnPath.undated =
      (r.evpnAdvertiseDecision nowMs)[k]?.map EvpnPath.undated

section choice

variable {r : BgpRouter} {nowMs : ℕ} {k : EvpnRouteKey}

theorem filter_contenders (h : Stamped r) (hmix : r.Unmixed) :
    selectBestEvpn ((r.evpnContenders nowMs k).filter fun p => p.isLocal || p.importable) =
      r.bestImported k nowMs := by
  have hmark : ∀ p ∈ r.evpn.adjRibIn.candidates k,
      (p.isLocal || p.importable) = p.route.matchesImport r.importRts := by
    intro p hp
    obtain ⟨a, hget⟩ := Nested.mem_candidates.mp hp
    obtain ⟨hstamp, hlearned⟩ := h a k p hget
    rw [hstamp, hlearned, Bool.false_or]
  have himported : (r.evpn.adjRibIn.candidates k).filter (fun p => p.isLocal || p.importable) =
      r.imported k := List.filter_congr hmark
  have hfresh : ((r.evpn.adjRibIn.candidates k).filter fun p => !r.evpnStale p).filter
      (fun p => p.isLocal || p.importable) = (r.imported k).filter fun p => !r.evpnStale p := by
    rw [← himported, List.filter_filter, List.filter_filter]
    exact List.filter_congr fun p _ => Bool.and_comm _ _
  have hlocal : (r.evpn.originated[k]?.map fun route =>
    EvpnPath.local route r.routerId nowMs).toList.filter
      (fun p => p.isLocal || p.importable) =
      (r.evpn.originated[k]?.map fun route => EvpnPath.local route r.routerId nowMs).toList := by
    cases r.evpn.originated[k]? <;> rfl
  have hsplit : r.evpnContenders nowMs k =
      (if ((r.evpn.adjRibIn.candidates k).filter fun p => !r.evpnStale p).isEmpty then
        r.evpn.adjRibIn.candidates k
      else (r.evpn.adjRibIn.candidates k).filter fun p => !r.evpnStale p) ++
      (r.evpn.originated[k]?.map fun route => EvpnPath.local route r.routerId nowMs).toList := rfl
  rw [hsplit, List.filter_append, hlocal, BgpRouter.bestImported]
  congr 2
  split
  · -- every path is stale
    rename_i hnone
    have hnone : ((r.imported k).filter fun p => !r.evpnStale p) = [] := by
      rw [← hfresh, List.isEmpty_iff.mp hnone, List.filter_nil]
    rw [himported, hnone]
    rfl
  · rename_i hsome
    rw [hfresh]
    split
    · -- no fresh path is imported, so no path is
      rename_i hempty
      obtain ⟨p, hp⟩ := List.exists_mem_of_ne_nil _ (mt List.isEmpty_iff.mpr hsome)
      obtain ⟨hin, hstale⟩ := List.mem_filter.mp hp
      rw [List.isEmpty_iff.mp hempty]
      rcases hmix k ⟨p, hin, by simpa using hstale⟩ with ⟨q, hq, hqs⟩ | hnil
      · have hmem : q ∈ (r.imported k).filter fun p => !r.evpnStale p :=
          List.mem_filter.mpr ⟨hq, by simp [hqs]⟩
        rw [List.isEmpty_iff.mp hempty] at hmem
        cases hmem
      · exact hnil.symm
    · rfl

/-- A removal keeps every received route exactly if all of them match the targets left. -/
theorem keeps_all_iff {rt : RouteTarget} (hs : Stored r) (hrt : r.importRts.contains rt = true) :
    (∀ a k, (r.removeImportRouteTarget rt).evpn.adjRibIn.get? a k = r.evpn.adjRibIn.get? a k) ↔
      ∀ a k p, r.evpn.adjRibIn.get? a k = some p →
        p.route.matchesImport (r.importRts.erase rt) = true := by
  constructor
  · intro h a k p hp
    have hkept := h a k
    rw [get?_removeImportRouteTarget hs.evpn hrt, hp] at hkept
    exact (Option.filter_eq_some_iff.mp hkept).2
  · intro h a k
    rw [get?_removeImportRouteTarget hs.evpn hrt]
    cases hp : r.evpn.adjRibIn.get? a k with
    | none => rfl
    | some p => simp [Option.filter, h a k p hp]

theorem losesNothing_of_ok {rt : RouteTarget} (hs : Stored r) (hn : r.addrs.Nodup)
    (hok : TargetsOk r (.removeImportRouteTarget rt)) : LosesNothing r rt nowMs := by
  intro hall k
  by_cases hrt : r.importRts.contains rt = true
  · have hs' : Stored (r.removeImportRouteTarget rt) :=
      hs.configured (configured_apply hn (.removeImportRouteTarget rt))
    have hkept := (keeps_all_iff hs hrt).mpr (hok hall hrt)
    rw [BgpRouter.getElem?_evpnAdvertiseDecision hs.evpn hs.keyed,
      BgpRouter.getElem?_evpnAdvertiseDecision hs'.evpn hs'.keyed, ← selectBestEvpn_undated,
      ← selectBestEvpn_undated]
    refine congrArg selectBestEvpn (map_contenders (fun a => ?_) ?_ fun _ => ?_)
    · rw [hkept, BgpRouter.removeImportRouteTarget, if_pos hrt]
      rfl
    all_goals rw [BgpRouter.removeImportRouteTarget, if_pos hrt]
  · rw [BgpRouter.removeImportRouteTarget, if_neg hrt]

end choice

/-- While targets are added and removed with care, the flags notice every change and fresh paths do
not hide stale ones that are imported, the Loc-RIB follows the targets and a reflector loses
nothing. -/
theorem evpn_import_tracks {σ : Type} {io : SocketRuntime σ} {w : World σ} {t nowMs : ℕ}
    (h : ReachableBy TargetsOk io w t) (ht : t ≤ nowMs)
    (hok : ∀ c ∈ (w.poll io nowMs).calls, c.Noticed) (hmix : (w.poll io nowMs).router.Unmixed) :
    TracksTargets (w.poll io nowMs).router nowMs ∧
      ∀ rt, TargetsOk (w.poll io nowMs).router (.removeImportRouteTarget rt) →
        LosesNothing (w.poll io nowMs).router rt nowMs := by
  have hpolled : ReachableBy TargetsOk io (w.poll io nowMs) nowMs := h.poll ht
  have hstored : Stored (w.poll io nowMs).router := hpolled.reachable.stored
  have hcurrent := locRib_current h.reachable ht hok
  refine ⟨⟨fun k => ?_, fun k => ?_⟩, fun rt hrt => ?_⟩
  · rw [hcurrent.evpn, BgpRouter.getElem?_evpnDecision hstored.evpn hstored.keyed,
      filter_contenders hpolled.stamped hmix]
  · rw [hcurrent.advertise, BgpRouter.getElem?_evpnAdvertiseDecision hstored.evpn hstored.keyed]
  · exact losesNothing_of_ok hstored hpolled.reachable.nodup hrt

/-! ### Two runs -/

def tenant : RouteTarget := .as2 65001 100

def tenantRoute : EvpnAdvertisedRoute where
  route :=
    { nlri := .inclusiveMulticast ⟨⟨1, 1⟩, 0, ⟨10, 0, 0, 2⟩⟩
      nextHop := ⟨10, 0, 0, 2⟩
      routeTargets := [tenant]
      mobilitySeq := none
      otherCommunities := [] }
  origin := .igp
  asPath := .sequence [65002]
  localPref := none
  originatorId := none
  clusterList := []

/-- A neighbour brings its session up and announces a route of the tenant. -/
def tenantUp : List (Move Script) :=
  let caps := ((BgpRouter.new 65002 ⟨10, 0, 0, 9⟩).enableFamily .l2vpnEvpn).localCapabilities
  [.configure (.enableFamily .l2vpnEvpn),
    .configure (.addPeer neighbour 65002 ⟨10, 0, 0, 1⟩ .active), .poll 0, .poll 1,
    .network { inbox := [(2, handshake 65002 ⟨10, 0, 0, 9⟩ caps ++
      (BgpPdu.update (evpnPlane.announcement true tenantRoute
        [(tenantRoute.key, tenantRoute)])).serialize)] }]

def noTargets : World Script := ⟨.new 65001 ⟨10, 0, 0, 1⟩, {}, []⟩

def withTarget : World Script := noTargets.withRouter (Config.addImportRouteTarget tenant).apply

theorem unmixed_of_imported {r : BgpRouter} (h : ∀ e ∈ r.evpn.adjRibIn.entries,
    e.2.2.route.matchesImport r.importRts = true) : r.Unmixed := by
  rintro k ⟨p, hp, hfresh⟩
  obtain ⟨a, hget⟩ := Nested.mem_candidates.mp hp
  exact .inl ⟨p, List.mem_filter.mpr ⟨hp, h (a, k, p) (Nested.mem_entries.mpr hget)⟩, hfresh⟩

theorem evpn_import_tracks_tenant :
    (World.play scripted tenantUp (withTarget, 0)).2 ≤ 2 ∧
    TracksTargets ((World.play scripted tenantUp (withTarget, 0)).1.poll scripted 2).router 2 ∧
    ((World.play scripted tenantUp (withTarget, 0)).1.poll scripted 2).router.evpn.locRib.size =
      1 := by
  have hstart : ReachableBy TargetsOk scripted withTarget 0 := by
    refine .configure _ ?_ (.start _ _ _)
    intro a k p hp
    have hempty : (BgpRouter.new 65001 ⟨10, 0, 0, 1⟩).evpn.adjRibIn.get? a k = some p := hp
    simp [BgpRouter.new] at hempty
  have hr := hstart.play tenantUp fun c hc r => by
    simp only [tenantUp, List.mem_cons, reduceCtorEq, Move.configure.injEq, List.not_mem_nil,
      or_false] at hc
    rcases hc with rfl | rfl <;> trivial
  have hcalm : ∀ c ∈ ((World.play scripted tenantUp (withTarget, 0)).1.poll scripted 2).calls,
      c.calm = true := by decide +kernel
  have hmix := unmixed_of_imported
    (r := ((World.play scripted tenantUp (withTarget, 0)).1.poll scripted 2).router)
      (by decide +kernel)
  exact ⟨by decide +kernel,
    (evpn_import_tracks hr (by decide +kernel) (fun c hc =>
      Call.noticed_of_calm (hcalm c hc)) hmix).1,
    by decide +kernel⟩

/-- A speaker that retains all targets holds the route before the tenant is imported. -/
def lateTarget : World Script × ℕ :=
  World.play scripted (.configure (.setRetainAllRouteTargets true) :: tenantUp ++
    [.poll 2, .configure (.addImportRouteTarget tenant)]) (noTargets, 0)

/-- A speaker that retains all targets imports one of another tenant and drops it again. -/
def droppedTarget : World Script × ℕ :=
  World.play scripted (.configure (.setRetainAllRouteTargets true) ::
    .configure (.addImportRouteTarget (.as2 65001 200)) :: tenantUp) (noTargets, 0)

/-- The mark made at arrival is never made again, and a removal takes what was only retained. -/
theorem not_tracks_lateTarget :
    (∃ w t, Reachable scripted w t ∧ t ≤ 3 ∧ ¬ TracksTargets (w.poll scripted 3).router 3) ∧
    ∃ w t, Reachable scripted w t ∧ t ≤ 2 ∧
      ¬ LosesNothing (w.poll scripted 2).router (.as2 65001 200) 2 := by
  have hstart : Reachable scripted noTargets 0 := .start _ _ _
  have hlate : Reachable scripted lateTarget.1 lateTarget.2 := hstart.play _
  have hdropped : Reachable scripted droppedTarget.1 droppedTarget.2 := hstart.play _
  refine ⟨⟨lateTarget.1, lateTarget.2, hlate, by decide +kernel, fun h => ?_⟩,
    droppedTarget.1, droppedTarget.2, hdropped, by decide +kernel, fun h => ?_⟩
  · have hchoice := h.locRib tenantRoute.key
    revert hchoice
    decide +kernel
  · have hkept := h (by decide +kernel) tenantRoute.key
    revert hkept
    decide +kernel

end ToyTcpip.Bgp
