import ToyTcpip.Bgp.Decided
import ToyTcpip.Bgp.Fib

/-! The forwarding tables mirror the Loc-RIBs after every poll. -/
namespace ToyTcpip.Bgp

open Routing Reconcile

/-! ### The IPv4 table -/

theorem Ipv4Prefix.Canonical.length_le {p : Ipv4Prefix} (h : p.Canonical) :
    p.length.toNat ≤ 32 := by
  have hlen : (min p.length 32 : UInt8) = p.length := congrArg Ipv4Prefix.length h
  have hmin : (min p.length 32 : UInt8) = if p.length ≤ 32 then p.length else 32 := rfl
  rw [hmin] at hlen
  split at hlen
  · rename_i hle
    exact UInt8.le_iff_toNat_le.mp hle
  · rw [← hlen]
    decide

theorem Ipv4Prefix.Canonical.mask {p : Ipv4Prefix} (h : p.Canonical) :
    p.address.mask p.length.toNat = p.address := by
  have hlen : (min p.length 32 : UInt8) = p.length := congrArg Ipv4Prefix.length h
  have haddr : p.address.mask (min p.length 32 : UInt8).toNat = p.address :=
    congrArg Ipv4Prefix.address h
  rwa [hlen] at haddr

/-- Entries are in order, and those of BGP are for canonical prefixes. -/
structure Orderly (t : RoutingTable) : Prop extends Ordered t where
  masked : ∀ e ∈ t.routes, e.source = .bgp → e.destination.mask e.prefixLen = e.destination

def bgpEntry (p : Ipv4Prefix) (via : Ipv4Address × String) : RouteEntry :=
  .withSource p.address p.length.toNat (some via.1) via.2 .bgp

theorem key_bgpEntry {p : Ipv4Prefix} (h : p.Canonical) (via : Ipv4Address × String) :
    (bgpEntry p via).key = (p.address, p.length.toNat) := by
  simp [bgpEntry, RouteEntry.withSource, RouteEntry.key, min_eq_left h.length_le, h.mask]

theorem put_addRouteFrom {t : RoutingTable} {p : Ipv4Prefix} (via : Ipv4Address × String)
    (h : Orderly t) (hp : p.Canonical)
    (hu : Unique (fun e : RouteEntry => decide (e.source = .bgp)) RouteEntry.key t.routes) :
    Orderly (ipv4FibOps.add t p via) ∧
      Put (fun e => decide (e.source = .bgp)) RouteEntry.key t.routes (bgpEntry p via)
        (ipv4FibOps.add t p via).routes := by
  have hput : Put (fun e => decide (e.source = .bgp)) RouteEntry.key t.routes (bgpEntry p via)
      (ipv4FibOps.add t p via).routes :=
    put_arrange (put_replaceOrPush (fun r => by rw [decide_eq_true_iff, decide_eq_true_iff]; rfl) hu
      (by simp [bgpEntry, RouteEntry.withSource])) h.sorted
  refine ⟨⟨h.toOrdered.step (.addRouteFrom p.address p.length.toNat (some via.1) via.2 .bgp), ?_⟩,
    hput⟩
  intro e he hs
  rcases (hput.mem e (by simpa using hs)).mp he with rfl | ⟨hin, -⟩
  · simp [bgpEntry, RouteEntry.withSource, min_eq_left hp.length_le, hp.mask]
  · exact h.masked e hin hs

theorem already_iff {t : RoutingTable} {p : Ipv4Prefix} {via : Ipv4Address × String} (h : Orderly t)
    (hp : p.Canonical)
    (hu : Unique (fun e : RouteEntry => decide (e.source = .bgp)) RouteEntry.key t.routes) :
    ipv4FibOps.already t p via = true ↔ bgpEntry p via ∈ t.routes := by
  refine any_find?_iff hu (by simp [bgpEntry, RouteEntry.withSource]) ?_ ?_
  · intro r hr hown
    rw [key_bgpEntry hp, RouteEntry.key, h.masked r hr (by simpa using hown), decide_eq_true_iff,
      Prod.mk.injEq]
  · intro r hr hown hkey
    have hkey : r.destination = p.address ∧ r.prefixLen = p.length.toNat := by
      rwa [key_bgpEntry hp, RouteEntry.key, h.masked r hr (by simpa using hown),
        Prod.mk.injEq] at hkey
    obtain ⟨-, hmask⟩ := h.built r hr
    cases r
    simp_all [bgpEntry, RouteEntry.withSource, min_eq_left hp.length_le]

theorem resolveNextHop_eq (t : RoutingTable) (nextHop : Ipv4Address) :
    resolveNextHop t nextHop =
      ((others (fun e : RouteEntry => decide (e.source = .bgp)) t.routes).find? fun r =>
        r.matchesAddr nextHop).map fun route => (route.gateway.getD nextHop, route.interface) := by
  rw [← find?_others, resolveNextHop]
  congr 2
  funext r
  simp [Bool.decide_and]

/-- The IPv4 table keeps the laws of reconciliation. -/
def ipv4Laws : FibLaws RoutingTable Ipv4Prefix Ipv4Address RouteEntry (Ipv4Address × ℕ) where
  ops := ipv4FibOps
  routes := RoutingTable.routes
  own e := e.source = .bgp
  key := RouteEntry.key
  entry := bgpEntry
  pfxKey p := (p.address, p.length.toNat)
  Canon := Ipv4Prefix.Canonical
  Good := Orderly
  own_entry _ _ := by simp [bgpEntry, RouteEntry.withSource]
  key_entry _ via h := key_bgpEntry h via
  pfxKey_inj p q _ _ h := by
    obtain ⟨haddr, hlen⟩ := Prod.mk.inj h
    cases p
    cases q
    simp_all [UInt8.toNat_inj]
  mem_remove t p r h := by
    simp only [ipv4FibOps, RoutingTable.removeRoute, h.mask, List.mem_filter, decide_eq_true_eq]
  remove t p h := by
    refine ⟨⟨h.toOrdered.filter _, fun e he => h.masked e (List.mem_of_mem_filter he)⟩,
      List.filter_sublist, others_filter fun e he => ?_⟩
    simp_all
  add t p via h hp hu := put_addRouteFrom via h hp hu
  already t p via h hp hu := already_iff h hp hu
  resolve t t' a h := by
    change resolveNextHop t a = resolveNextHop t' a
    rw [resolveNextHop_eq, resolveNextHop_eq, h]

/-! ### The IPv6 table -/

def bgpEntry6 (p : Ipv6Prefix) (via : Ipv6Address × String) : Ipv6RouteEntry :=
  .withSource p.address p.length.toNat (some via.1) via.2 .bgp

theorem key_bgpEntry6 (p : Ipv6Prefix) (via : Ipv6Address × String) :
    (bgpEntry6 p via).key = (p.address, p.length.toNat) := by
  simp [bgpEntry6, Ipv6RouteEntry.withSource, Ipv6RouteEntry.key,
    min_eq_left p.length_le, p.cleared]

theorem put_addRouteFrom6 {t : Ipv6RoutingTable} (p : Ipv6Prefix) (via : Ipv6Address × String)
    (h : Ordered6 t)
    (hu : Unique (fun e : Ipv6RouteEntry => decide (e.source = .bgp)) Ipv6RouteEntry.key t.routes) :
    Ordered6 (ipv6FibOps.add t p via) ∧
      Put (fun e => decide (e.source = .bgp)) Ipv6RouteEntry.key t.routes (bgpEntry6 p via)
        (ipv6FibOps.add t p via).routes := by
  refine ⟨h.step (.addRouteFrom p.address p.length.toNat (some via.1) via.2 .bgp), ?_⟩
  have hiff (r : Ipv6RouteEntry) :
      decide (r.key = (bgpEntry6 p via).key ∧ r.source = .bgp) = true ↔
        r.key = (bgpEntry6 p via).key ∧ decide (r.source = .bgp) = true := by
    rw [decide_eq_true_iff, decide_eq_true_iff]
  exact put_arrange (put_replaceOrPush hiff hu (by simp [bgpEntry6, Ipv6RouteEntry.withSource]))
    h.sorted

theorem already_iff6 {t : Ipv6RoutingTable} {p : Ipv6Prefix} {via : Ipv6Address × String}
    (hu : Unique (fun e : Ipv6RouteEntry => decide (e.source = .bgp)) Ipv6RouteEntry.key t.routes) :
    ipv6FibOps.already t p via = true ↔ bgpEntry6 p via ∈ t.routes := by
  refine any_find?_iff hu (by simp [bgpEntry6, Ipv6RouteEntry.withSource]) ?_ ?_
  · intro r hr hown
    rw [key_bgpEntry6, Ipv6RouteEntry.key, decide_eq_true_iff, Prod.mk.injEq]
  · intro r hr hown hkey
    rw [key_bgpEntry6, Ipv6RouteEntry.key, Prod.mk.injEq] at hkey
    cases r
    simp_all [bgpEntry6, Ipv6RouteEntry.withSource, min_eq_left p.length_le, p.cleared]

theorem resolveIpv6NextHop_eq (t : Ipv6RoutingTable) (nextHop : Ipv6Address) :
    resolveIpv6NextHop t nextHop =
      ((others (fun e : Ipv6RouteEntry => decide (e.source = .bgp)) t.routes).find? fun r =>
        r.matchesAddr nextHop).map fun route => (route.gateway.getD nextHop, route.interface) := by
  rw [← find?_others, resolveIpv6NextHop]
  congr 2
  funext r
  simp [Bool.decide_and]

/-- An IPv6 prefix is canonical by its type. -/
def ipv6Laws : FibLaws Ipv6RoutingTable Ipv6Prefix Ipv6Address Ipv6RouteEntry
    (Ipv6Address × ℕ) where
  ops := ipv6FibOps
  routes := Ipv6RoutingTable.routes
  own e := e.source = .bgp
  key := Ipv6RouteEntry.key
  entry := bgpEntry6
  pfxKey p := (p.address, p.length.toNat)
  Canon _ := True
  Good := Ordered6
  own_entry _ _ := by simp [bgpEntry6, Ipv6RouteEntry.withSource]
  key_entry p via _ := key_bgpEntry6 p via
  pfxKey_inj p q _ _ h := by
    obtain ⟨haddr, hlen⟩ := Prod.mk.inj h
    cases p
    cases q
    simp_all [UInt8.toNat_inj]
  mem_remove t p r _ := by
    simp only [ipv6FibOps, Ipv6RoutingTable.removeRoute, p.cleared, min_eq_left p.length_le,
      List.mem_filter, decide_eq_true_eq]
  remove t p h := by
    refine ⟨h.filter _, List.filter_sublist, others_filter fun e he => ?_⟩
    simp_all
  add t p via h _ hu := put_addRouteFrom6 p via h hu
  already t p via _ _ hu := already_iff6 hu
  resolve t t' a h := by
    change resolveIpv6NextHop t a = resolveIpv6NextHop t' a
    rw [resolveIpv6NextHop_eq, resolveIpv6NextHop_eq, h]

/-! ### Next hops resolve through the longest route that is not BGP's -/

/-- The gateway and interface of a best route among those of other sources, if any matches. -/
structure Resolves (t : RoutingTable) (nextHop : Ipv4Address) : Prop where
  some : ∀ via, resolveNextHop t nextHop = some via →
    ∃ r, Ranked.Best RouteEntry.prefixLen RouteEntry.distance
      (fun r => r.source ≠ .bgp ∧ InPrefix r nextHop) t.routes r ∧
      via = (r.gateway.getD nextHop, r.interface)
  none : resolveNextHop t nextHop = none ↔ ∀ r ∈ t.routes, r.source ≠ .bgp → ¬ InPrefix r nextHop

structure Resolves6 (t : Ipv6RoutingTable) (nextHop : Ipv6Address) : Prop where
  some : ∀ via, resolveIpv6NextHop t nextHop = some via →
    ∃ r, Ranked.Best Ipv6RouteEntry.prefixLen Ipv6RouteEntry.distance
      (fun r => r.source ≠ .bgp ∧ InPrefix6 r nextHop) t.routes r ∧
      via = (r.gateway.getD nextHop, r.interface)
  none : resolveIpv6NextHop t nextHop = none ↔
    ∀ r ∈ t.routes, r.source ≠ .bgp → ¬ InPrefix6 r nextHop

theorem resolves {t : RoutingTable} (h : Ordered t) (nextHop : Ipv4Address) :
    Resolves t nextHop := by
  have hmatch : ∀ r ∈ t.routes, (decide (r.source ≠ .bgp ∧ r.matchesAddr nextHop = true) = true ↔
      r.source ≠ .bgp ∧ InPrefix r nextHop) := fun r hr => by
    rw [decide_eq_true_iff, matchesAddr_iff (h.built r hr).1 (h.built r hr).2]
  constructor
  · intro via hvia
    obtain ⟨r, hr, rfl⟩ := Option.map_eq_some_iff.mp hvia
    exact ⟨r, (best_congr hmatch).mp (Ranked.find?_best h.sorted hr), rfl⟩
  · rw [resolveNextHop, Option.map_eq_none_iff, List.find?_eq_none]
    refine forall₂_congr fun r hr => ?_
    rw [hmatch r hr, not_and]

theorem resolves6 {t : Ipv6RoutingTable} (h : Ordered6 t) (nextHop : Ipv6Address) :
    Resolves6 t nextHop := by
  have hmatch : ∀ r ∈ t.routes, (decide (r.source ≠ .bgp ∧ r.matchesAddr nextHop = true) = true ↔
      r.source ≠ .bgp ∧ InPrefix6 r nextHop) := fun r hr => by
    rw [decide_eq_true_iff, h.matches_iff hr]
  constructor
  · intro via hvia
    obtain ⟨r, hr, rfl⟩ := Option.map_eq_some_iff.mp hvia
    exact ⟨r, (best_congr hmatch).mp (Ranked.find?_best h.sorted hr), rfl⟩
  · rw [resolveIpv6NextHop, Option.map_eq_none_iff, List.find?_eq_none]
    refine forall₂_congr fun r hr => ?_
    rw [hmatch r hr, not_and]

/-! ### Histories of a table -/

/-- A call of somebody else: it adds no BGP route. -/
def Foreign {A : Type} : RouteCall A → Prop
  | .addRouteFrom _ _ _ _ source => source ≠ .bgp
  | .addMultipathRouteFrom _ _ _ _ source => source ≠ .bgp
  | _ => True

theorem filter_replaceOrPush {E : Type} {own p : E → Bool} {new : E} {l : List E}
    (hnew : own new = false) (hp : ∀ r, p r = true → own r = false) :
    (replaceOrPush p new l).filter own = l.filter own := by
  induction l with
  | nil => simp [replaceOrPush, hnew]
  | cons a l ih =>
    rw [replaceOrPush_cons]
    by_cases ha : p a = true
    · simp [ha, hnew, hp a ha]
    · simp [ha, List.filter_cons, ih]

theorem subperm_arrange {E : Type} {own : E → Bool} {len dist : E → ℕ} {l l' : List E}
    (h : l'.filter own = l.filter own) :
    ((Ranked.arrange len dist l').filter own).Subperm (l.filter own) := by
  rw [← h]
  exact ((List.perm_insertionSort _ l').filter own).subperm

theorem subperm_foreign {t : RoutingTable} {c : RouteCall Ipv4Address} (hc : Foreign c) :
    ((t.step c).routes.filter fun e => decide (e.source = .bgp)).Subperm
      (t.routes.filter fun e => decide (e.source = .bgp)) := by
  cases c with
  | addRouteFrom d len gw i s =>
    refine subperm_arrange (filter_replaceOrPush (decide_eq_false hc) fun r hr => ?_)
    rw [decide_eq_true_iff] at hr
    exact decide_eq_false (hr.2 ▸ hc)
  | addMultipathRouteFrom d len gw i s =>
    simp only [RoutingTable.step, RoutingTable.addMultipathRouteFrom]
    split
    · exact .refl _
    · refine subperm_arrange ?_
      have hs : ¬ s = .bgp := hc
      simp [RouteEntry.withSource, hs]
  | removeRoute | removeRouteVia | removeAllFrom => exact (List.filter_sublist.filter _).subperm

theorem subperm_foreign6 {t : Ipv6RoutingTable} {c : RouteCall Ipv6Address} (hc : Foreign c) :
    ((t.step c).routes.filter fun e => decide (e.source = .bgp)).Subperm
      (t.routes.filter fun e => decide (e.source = .bgp)) := by
  cases c with
  | addRouteFrom d len gw i s =>
    refine subperm_arrange (filter_replaceOrPush (decide_eq_false hc) fun r hr => ?_)
    rw [decide_eq_true_iff] at hr
    exact decide_eq_false (hr.2 ▸ hc)
  | addMultipathRouteFrom d len gw i s =>
    simp only [Ipv6RoutingTable.step, Ipv6RoutingTable.addMultipathRouteFrom]
    split
    · exact .refl _
    · refine subperm_arrange ?_
      have hs : ¬ s = .bgp := hc
      simp [Ipv6RouteEntry.withSource, hs]
  | removeRoute | removeRouteVia | removeAllFrom => exact (List.filter_sublist.filter _).subperm

/-- Others can only take BGP entries away. -/
theorem Fib.Owned.subperm {T P A E κ : Type} [Ord P] {L : FibLaws T P A E κ} {s : Fib T P} {t : T}
    (h : s.Owned L) (hgood : L.Good t)
    (hs : ((L.routes t).filter L.own).Subperm ((L.routes s.table).filter L.own)) :
    Fib.Owned L { s with table := t } := by
  refine ⟨hgood, h.unique.subperm hs, h.canon, fun e he ho => ?_⟩
  have hin := hs.subset (List.mem_filter.mpr ⟨he, ho⟩)
  exact h.ours e (List.mem_of_mem_filter hin) ho

/-- The tables in which BGP entries were only written by the polls of a speaker. -/
inductive FibHistory {σ : Type} (io : SocketRuntime σ) : Ipv4Fib → Prop
  | start : FibHistory io ⟨.new, ∅, ∅⟩
  | foreign {fib : Ipv4Fib} (c : RouteCall Ipv4Address) (hc : Foreign c) (h : FibHistory io fib) :
      FibHistory io { fib with table := fib.table.step c }
  | poll {fib : Ipv4Fib} {w : World σ} {t nowMs : ℕ} (h : FibHistory io fib)
      (hw : Reachable io w t) :
      FibHistory io (w.pollWithFib io nowMs fib).2

/-- The IPv6 tables in which BGP entries were only written by `sync_ipv6_fib`. -/
inductive Fib6History : Ipv6Fib → Prop
  | start : Fib6History ⟨.new, ∅, ∅⟩
  | foreign {fib : Ipv6Fib} (c : RouteCall Ipv6Address) (hc : Foreign c) (h : Fib6History fib) :
      Fib6History { fib with table := fib.table.step c }
  | sync {fib : Ipv6Fib} (rib : Ipv6LocRib) (h : Fib6History fib) :
      Fib6History (syncIpv6Fib fib rib)

section

variable {σ : Type} {io : SocketRuntime σ} {w : World σ} {t nowMs : ℕ} {fib : Ipv4Fib}

theorem LocCanonical.nextHops {r : BgpRouter} (h : LocCanonical r) :
    ∀ p, p ∈ LocRib.nextHops r.ipv4.locRib → p.Canonical := by
  intro p hp
  rw [Std.TreeMap.mem_iff_isSome_getElem?, LocRib.nextHops, Std.TreeMap.getElem?_filterMap'] at hp
  obtain ⟨nextHop, hp⟩ := Option.isSome_iff_exists.mp hp
  obtain ⟨path, hpath, hhop⟩ := Option.bind_eq_some_iff.mp hp
  refine h p path hpath ?_
  by_contra hlocal
  simp [hlocal] at hhop

/-- The Loc-RIB that a poll hands to the forwarding table. -/
theorem locCanonical_poll (hw : Reachable io w t) :
    LocCanonical ((w.pollSessions io nowMs).withRouter fun r =>
      r.decideWhereDirty nowMs).router := by
  have hbefore := hw.invariant locCanonical_invariant fun _ _ => trivial
  have hreach : Reaches nowMs w ((w.pollSessions io nowMs).withRouter fun r =>
      r.decideWhereDirty nowMs) := World.pollSessions_reaches.trans World.decideWhereDirty_reaches
  exact (hreach.invariant locCanonical_invariant hw.nodup (fun _ _ => trivial) hbefore).2

theorem pollWithFib_locRib (io : SocketRuntime σ) (w : World σ) (nowMs : ℕ) (fib : Ipv4Fib) :
    (w.pollWithFib io nowMs fib).2 =
      syncFib fib (w.pollWithFib io nowMs fib).1.router.ipv4.locRib := by
  have htold : OnlyTold ((w.pollSessions io nowMs).withRouter fun r =>
    r.decideWhereDirty nowMs).router
      (w.pollWithFib io nowMs fib).1.router := World.pollAdvertise_talks.onlyTold
  rw [htold.ipv4.locRib]
  rfl

theorem locCanonical_pollWithFib (hw : Reachable io w t) (fib : Ipv4Fib) :
    ∀ p, p ∈ LocRib.nextHops (w.pollWithFib io nowMs fib).1.router.ipv4.locRib → p.Canonical := by
  have htold : OnlyTold ((w.pollSessions io nowMs).withRouter fun r =>
    r.decideWhereDirty nowMs).router
      (w.pollWithFib io nowMs fib).1.router := World.pollAdvertise_talks.onlyTold
  rw [htold.ipv4.locRib]
  exact (locCanonical_poll hw).nextHops

theorem FibHistory.owned (h : FibHistory io fib) : fib.Owned ipv4Laws := by
  induction h with
  | start =>
    refine ⟨⟨⟨List.Pairwise.nil, by simp [RoutingTable.new]⟩, by simp [RoutingTable.new]⟩,
      unique_nil, ?_, ?_⟩
    · intro p hp
      exact absurd hp Std.TreeSet.not_mem_emptyc
    · intro e he
      simp [ipv4Laws, RoutingTable.new] at he
  | @foreign fib c hc _ ih =>
    have hsub := subperm_foreign (t := fib.table) hc
    refine ih.subperm ⟨ih.good.toOrdered.step c, fun e he hs => ?_⟩ hsub
    have hin := hsub.subset (List.mem_filter.mpr ⟨he, decide_eq_true hs⟩)
    exact ih.good.masked e (List.mem_of_mem_filter hin) hs
  | poll _ hw ih =>
    rw [pollWithFib_locRib]
    exact Fib.owned_sync ih (locCanonical_pollWithFib hw _)

theorem Fib6History.owned {fib : Ipv6Fib} (h : Fib6History fib) : fib.Owned ipv6Laws := by
  induction h with
  | start =>
    refine ⟨⟨List.Pairwise.nil, by simp [Ipv6RoutingTable.new]⟩, unique_nil, fun _ _ => trivial, ?_⟩
    intro e he
    simp [ipv6Laws, Ipv6RoutingTable.new] at he
  | @foreign fib c hc _ ih => exact ih.subperm (ih.good.step c) (subperm_foreign6 hc)
  | sync rib _ ih => exact Fib.owned_sync ih fun _ _ => trivial

end

theorem syncFib_mirrors {fib : Ipv4Fib} {rib : LocRib} (h : fib.Owned ipv4Laws)
    (hcanon : ∀ p, p ∈ LocRib.nextHops rib → p.Canonical) :
    Fib.Mirrors ipv4Laws (LocRib.nextHops rib) fib (syncFib fib rib) ∧
      (syncFib (syncFib fib rib) rib).Same (syncFib fib rib) :=
  ⟨(Fib.sync_spec h hcanon).2, Fib.sync_sync h hcanon⟩

theorem syncIpv6Fib_mirrors {fib : Ipv6Fib} (h : fib.Owned ipv6Laws) (rib : Ipv6LocRib) :
    Fib.Mirrors ipv6Laws (Ipv6LocRib.nextHops rib) fib (syncIpv6Fib fib rib) ∧
      (syncIpv6Fib (syncIpv6Fib fib rib) rib).Same (syncIpv6Fib fib rib) :=
  ⟨(Fib.sync_spec h fun _ _ => trivial).2, Fib.sync_sync h fun _ _ => trivial⟩

/-- After every poll the BGP entries of the forwarding table are the resolvable best paths that were
learned, the entries of others are untouched, and a second reconciliation changes nothing. -/
theorem fib_mirrors_locRib {σ : Type} (io : SocketRuntime σ) :
    (∀ (fib fib' : Ipv4Fib) (w w' : World σ) (t nowMs : ℕ), FibHistory io fib → Reachable io w t →
      w.pollWithFib io nowMs fib = (w', fib') →
      w' = w.poll io nowMs ∧
        Fib.Mirrors ipv4Laws (LocRib.nextHops w'.router.ipv4.locRib) fib fib' ∧
        (∀ nextHop, Resolves fib.table nextHop) ∧
        (syncFib fib' w'.router.ipv4.locRib).Same fib') ∧
    ∀ (fib : Ipv6Fib) (rib : Ipv6LocRib), Fib6History fib →
      Fib.Mirrors ipv6Laws (Ipv6LocRib.nextHops rib) fib (syncIpv6Fib fib rib) ∧
        (∀ nextHop, Resolves6 fib.table nextHop) ∧
        (syncIpv6Fib (syncIpv6Fib fib rib) rib).Same (syncIpv6Fib fib rib) := by
  constructor
  · intro fib fib' w w' t nowMs hfib hw hpoll
    obtain ⟨rfl, rfl⟩ := Prod.ext_iff.mp hpoll
    have howned := hfib.owned
    have hcanon : ∀ p, p ∈ LocRib.nextHops (w.pollWithFib io nowMs fib).1.router.ipv4.locRib →
        p.Canonical := locCanonical_pollWithFib hw fib
    have hsync := pollWithFib_locRib io w nowMs fib
    obtain ⟨hmirrors, hsame⟩ := syncFib_mirrors howned hcanon
    rw [hsync]
    exact ⟨rfl, hmirrors, resolves howned.good.toOrdered, hsame⟩
  · intro fib rib hfib
    obtain ⟨hmirrors, hsame⟩ := syncIpv6Fib_mirrors hfib.owned rib
    exact ⟨hmirrors, resolves6 hfib.owned.good, hsame⟩

/-- A table with a connected network. -/
def connectedFib : Ipv4Fib :=
  { table := RoutingTable.new.step (.addRouteFrom ⟨10, 0, 0, 0⟩ 8 none "eth0" .connected)
    installed := ∅
    unresolved := ∅ }

def connectedFib6 : Ipv6Fib :=
  { table := Ipv6RoutingTable.new.step (.addRouteFrom .unspecified 0 none "eth0" .static)
    installed := ∅
    unresolved := ∅ }

def samplePrefix6 : Ipv6Prefix := .new .unspecified 64

/-- One best path that was learned. -/
def sampleRib6 : Ipv6LocRib :=
  (∅ : Ipv6LocRib).insert samplePrefix6
    { Ipv6Path.local samplePrefix6 .unspecified ⟨1, 1, 1, 1⟩ with source := .ebgp }

/-- A neighbour is about to bring its session up and to announce 192.0.2.0/24 behind itself. -/
def routeAnnounced : World Script × ℕ :=
  World.play scripted
    [.configure (.addPeer ⟨10, 0, 0, 2⟩ 65002 ⟨10, 0, 0, 1⟩ .active), .poll 0, .poll 1,
      .network { inbox := [(2, handshake 65002 ⟨10, 0, 0, 9⟩
        (BgpRouter.new 65002 ⟨10, 0, 0, 9⟩).localCapabilities ++ (BgpPdu.update
          { withdrawn := []
            attributes := some { BgpPathAttributes.new .igp (.sequence [65002]) ⟨10, 0, 0, 2⟩ with
              fourOctetAs := true }
            nlri := [.new ⟨192, 0, 2, 0⟩ 24] }).serialize)] }]
    (⟨.new 65001 ⟨10, 0, 0, 1⟩, {}, []⟩, 0)

/-- The poll that learns the route, with a connected network, installs it; and so does the IPv6
side. -/
theorem fib_mirrors_locRib_learned :
    Fib.Mirrors ipv4Laws (LocRib.nextHops
        (World.pollWithFib scripted routeAnnounced.1 2 connectedFib).1.router.ipv4.locRib)
        connectedFib (World.pollWithFib scripted routeAnnounced.1 2 connectedFib).2 ∧
      (World.pollWithFib scripted routeAnnounced.1 2 connectedFib).2.installed.contains
        (.new ⟨192, 0, 2, 0⟩ 24) = true ∧
      Fib.Mirrors ipv6Laws (Ipv6LocRib.nextHops sampleRib6) connectedFib6
        (syncIpv6Fib connectedFib6 sampleRib6) ∧
      (syncIpv6Fib connectedFib6 sampleRib6).installed.contains samplePrefix6 = true := by
  have hr : Reachable scripted routeAnnounced.1 routeAnnounced.2 := .play (.start _ _ _) _
  have hconnected : FibHistory scripted connectedFib := .foreign _ (by simp [Foreign]) .start
  have h4 := (fib_mirrors_locRib scripted).1 _ _ _ _ _ 2 hconnected hr Prod.mk.eta.symm
  have h6 := (fib_mirrors_locRib scripted).2 connectedFib6 sampleRib6
    (.foreign _ (by simp [Foreign]) .start)
  exact ⟨h4.2.1, by decide +kernel, h6.1, by decide +kernel⟩

end ToyTcpip.Bgp
