import ToyTcpip.Bgp.Poll
import ToyTcpip.Lib.Reconcile
import ToyTcpip.Routing.Lookup

/-! The Loc-RIB in the forwarding table: `sync_fib` and `sync_ipv6_fib` of `bgp_router.rs`. -/
namespace ToyTcpip.Bgp

open Routing Reconcile

/-! ### Reconciliation, for either family -/

section family

variable {T P A : Type} [Ord P]

/-- What reconciliation uses of a routing table. -/
structure FibOps (T P A : Type) where
  resolve : T → A → Option (A × String)
  remove : T → P → T
  already : T → P → A × String → Bool
  add : T → P → A × String → T

/-- A forwarding table with the prefixes this router has put there. -/
structure Fib (T P : Type) [Ord P] where
  table : T
  installed : Std.TreeSet P
  unresolved : Std.TreeSet P

/-- The routes the table should have: one for each next hop that resolves. -/
def Fib.desired (ops : FibOps T P A) (s : Fib T P) (nextHops : Std.TreeMap P A) :
    Std.TreeMap P (A × String) :=
  nextHops.filterMap fun _ nextHop => ops.resolve s.table nextHop

def Fib.stale (ops : FibOps T P A) (s : Fib T P) (nextHops : Std.TreeMap P A) : List P :=
  s.installed.toList.filter fun p => !(s.desired ops nextHops).contains p

/-- `nextHops` are those of the best paths that are not local. -/
def Fib.sync (ops : FibOps T P A) (s : Fib T P) (nextHops : Std.TreeMap P A) : Fib T P where
  table := (s.desired ops nextHops).toList.foldl
    (fun t e => if ops.already t e.1 e.2 then t else ops.add t e.1 e.2)
    ((s.stale ops nextHops).foldl ops.remove s.table)
  installed := (s.desired ops nextHops).keys.foldl Std.TreeSet.insert
    ((s.stale ops nextHops).foldl Std.TreeSet.erase s.installed)
  unresolved := .ofList ((nextHops.toList.filter fun e =>
    (ops.resolve s.table e.2).isNone).map Prod.fst)

end family

/-! ### The two tables -/

/-- Only routes that are not BGP's own can resolve a next hop. -/
def resolveNextHop (fib : RoutingTable) (nextHop : Ipv4Address) : Option (Ipv4Address × String) :=
  (fib.routes.find? fun r => r.source ≠ .bgp ∧ r.matchesAddr nextHop).map fun route =>
    (route.gateway.getD nextHop, route.interface)

def ipv4FibOps : FibOps RoutingTable Ipv4Prefix Ipv4Address where
  resolve := resolveNextHop
  remove fib pfx := fib.removeRoute pfx.address pfx.length.toNat .bgp
  already fib pfx via :=
    ((fib.routes.filter fun r => r.source = .bgp).find? fun r =>
      r.destination = pfx.address ∧ r.prefixLen = pfx.length.toNat).any fun r =>
        r.gateway = some via.1 ∧ r.interface = via.2
  add fib pfx via := fib.addRouteFrom pfx.address pfx.length.toNat (some via.1) via.2 .bgp

def resolveIpv6NextHop (fib : Ipv6RoutingTable) (nextHop : Ipv6Address) :
    Option (Ipv6Address × String) :=
  (fib.routes.find? fun r => r.source ≠ .bgp ∧ r.matchesAddr nextHop).map fun route =>
    (route.gateway.getD nextHop, route.interface)

def ipv6FibOps : FibOps Ipv6RoutingTable Ipv6Prefix Ipv6Address where
  resolve := resolveIpv6NextHop
  remove fib pfx := fib.removeRoute pfx.address pfx.length.toNat .bgp
  already fib pfx via :=
    ((fib.routes.filter fun r => r.source = .bgp).find? fun r =>
      r.destination = pfx.address ∧ r.prefixLen = pfx.length.toNat).any fun r =>
        r.gateway = some via.1 ∧ r.interface = via.2
  add fib pfx via := fib.addRouteFrom pfx.address pfx.length.toNat (some via.1) via.2 .bgp

def LocRib.nextHops (rib : LocRib) : Std.TreeMap Ipv4Prefix Ipv4Address :=
  rib.filterMap fun _ path => if path.isLocal then none else some path.nextHop

def Ipv6LocRib.nextHops (rib : Ipv6LocRib) : Std.TreeMap Ipv6Prefix Ipv6Address :=
  rib.filterMap fun _ path => if path.isLocal then none else some path.nextHop

abbrev Ipv4Fib : Type := Fib RoutingTable Ipv4Prefix

abbrev Ipv6Fib : Type := Fib Ipv6RoutingTable Ipv6Prefix

def syncFib (fib : Ipv4Fib) (rib : LocRib) : Ipv4Fib := fib.sync ipv4FibOps rib.nextHops

def syncIpv6Fib (fib : Ipv6Fib) (rib : Ipv6LocRib) : Ipv6Fib := fib.sync ipv6FibOps rib.nextHops

/-- The poll with its forwarding table: reconciliation stands between the decisions and the
advertisements. -/
def World.pollWithFib {σ : Type} (io : SocketRuntime σ) (w : World σ) (nowMs : ℕ) (fib : Ipv4Fib) :
    World σ × Ipv4Fib :=
  let w := w.pollSessions io nowMs
  let w := w.withRouter fun r => r.decideWhereDirty nowMs
  (w.pollAdvertise io, syncFib fib w.router.ipv4.locRib)

/-! ### What reconciliation achieves -/

section family

variable {T P A E κ : Type}

/-- How the operations act on the table's list of entries. -/
structure FibLaws (T P A E κ : Type) where
  ops : FibOps T P A
  routes : T → List E
  own : E → Bool
  key : E → κ
  entry : P → A × String → E
  pfxKey : P → κ
  Canon : P → Prop
  Good : T → Prop
  own_entry : ∀ p v, own (entry p v) = true
  key_entry : ∀ p v, Canon p → key (entry p v) = pfxKey p
  pfxKey_inj : ∀ p q, Canon p → Canon q → pfxKey p = pfxKey q → p = q
  mem_remove : ∀ t p r, Canon p →
    (r ∈ routes (ops.remove t p) ↔ r ∈ routes t ∧ ¬(key r = pfxKey p ∧ own r = true))
  remove : ∀ t p, Good t → Good (ops.remove t p) ∧ (routes (ops.remove t p)).Sublist (routes t) ∧
    others own (routes (ops.remove t p)) = others own (routes t)
  add : ∀ t p v, Good t → Canon p → Unique own key (routes t) →
    Good (ops.add t p v) ∧ Put own key (routes t) (entry p v) (routes (ops.add t p v))
  already : ∀ t p v, Good t → Canon p → Unique own key (routes t) →
    (ops.already t p v = true ↔ entry p v ∈ routes t)
  resolve : ∀ t t' a, others own (routes t) = others own (routes t') →
    ops.resolve t a = ops.resolve t' a

variable {L : FibLaws T P A E κ}

theorem foldl_remove (ps : List P) (hps : ∀ p ∈ ps, L.Canon p) (t : T) (hgood : L.Good t) :
    L.Good (ps.foldl L.ops.remove t) ∧
      (L.routes (ps.foldl L.ops.remove t)).Sublist (L.routes t) ∧
      others L.own (L.routes (ps.foldl L.ops.remove t)) = others L.own (L.routes t) ∧
      ∀ r, r ∈ L.routes (ps.foldl L.ops.remove t) ↔
        r ∈ L.routes t ∧ ∀ p ∈ ps, ¬(L.key r = L.pfxKey p ∧ L.own r = true) := by
  induction ps generalizing t with
  | nil => exact ⟨hgood, .refl _, rfl, by simp⟩
  | cons p ps ih =>
    obtain ⟨hgood₁, hsub₁, hothers₁⟩ := L.remove t p hgood
    obtain ⟨hgood₂, hsub₂, hothers₂, hmem⟩ :=
      ih (fun q hq => hps q (by simp [hq])) (L.ops.remove t p) hgood₁
    refine ⟨hgood₂, hsub₂.trans hsub₁, hothers₂.trans hothers₁, fun r => ?_⟩
    rw [List.foldl_cons, hmem, L.mem_remove t p r (hps p (by simp))]
    simp only [List.mem_cons, forall_eq_or_imp, and_assoc]

variable [Ord P]

variable (L) in
/-- The BGP entries of the table are this router's: one for each prefix, all of them installed. -/
structure Fib.Owned (s : Fib T P) : Prop where
  good : L.Good s.table
  unique : Unique L.own L.key (L.routes s.table)
  canon : ∀ p, p ∈ s.installed → L.Canon p
  ours : ∀ e, e ∈ L.routes s.table → L.own e = true → ∃ p, p ∈ s.installed ∧ L.key e = L.pfxKey p

variable (L) in
/-- The table after a reconciliation with `nextHops`, against the one before. -/
structure Fib.Mirrors (nextHops : Std.TreeMap P A) (before after : Fib T P) : Prop where
  entries : ∀ e, L.own e = true → (e ∈ L.routes after.table ↔ ∃ p nextHop via,
    nextHops[p]? = some nextHop ∧ L.ops.resolve before.table nextHop = some via ∧ e = L.entry p via)
  once : Unique L.own L.key (L.routes after.table)
  installed : ∀ p, p ∈ after.installed ↔ ∃ nextHop via,
    nextHops[p]? = some nextHop ∧ L.ops.resolve before.table nextHop = some via
  others : others L.own (L.routes after.table) = others L.own (L.routes before.table)

/-- Two states no reader can tell apart. -/
structure Fib.Same (s s' : Fib T P) : Prop where
  table : s.table = s'.table
  installed : ∀ p, p ∈ s.installed ↔ p ∈ s'.installed
  unresolved : s.unresolved = s'.unresolved

variable [Std.TransOrd P] {s : Fib T P} {nextHops : Std.TreeMap P A}

theorem Fib.getElem?_desired (p : P) :
    (s.desired L.ops nextHops)[p]? = (nextHops[p]?).bind fun a => L.ops.resolve s.table a := by
  simp [Fib.desired]

theorem Fib.mem_desired {p : P} : p ∈ s.desired L.ops nextHops ↔
    ∃ nextHop via, nextHops[p]? = some nextHop ∧ L.ops.resolve s.table nextHop = some via := by
  rw [Std.TreeMap.mem_iff_isSome_getElem?, Fib.getElem?_desired, Option.isSome_iff_exists]
  simp only [Option.bind_eq_some_iff]
  constructor
  · rintro ⟨via, nextHop, hhop, hvia⟩
    exact ⟨nextHop, via, hhop, hvia⟩
  · rintro ⟨nextHop, via, hhop, hvia⟩
    exact ⟨via, nextHop, hhop, hvia⟩

theorem Fib.canon_desired (hcanon : ∀ p, p ∈ nextHops → L.Canon p) {p : P}
    (hp : p ∈ s.desired L.ops nextHops) : L.Canon p := by
  obtain ⟨nextHop, _, hhop, -⟩ := Fib.mem_desired.mp hp
  exact hcanon p (Std.TreeMap.mem_iff_isSome_getElem?.mpr (by rw [hhop]; rfl))

variable [Std.LawfulEqOrd P]

theorem Fib.mem_stale {p : P} :
    p ∈ s.stale L.ops nextHops ↔ p ∈ s.installed ∧ p ∉ s.desired L.ops nextHops := by
  rw [Fib.stale, List.mem_filter, Std.TreeSet.mem_toList, Bool.not_eq_true', ← Bool.not_eq_true,
    Std.TreeMap.contains_iff_mem]

theorem mem_foldl_erase (ps : List P) (set : Std.TreeSet P) (p : P) :
    p ∈ ps.foldl Std.TreeSet.erase set ↔ p ∈ set ∧ p ∉ ps := by
  induction ps generalizing set with
  | nil => simp
  | cons q ps ih =>
    rw [List.foldl_cons, ih, Std.TreeSet.mem_erase]
    have : compare q p ≠ .eq ↔ p ≠ q := by
      rw [ne_eq, Std.LawfulEqOrd.compare_eq_iff_eq]
      exact ⟨fun h heq => h heq.symm, fun h heq => h heq.symm⟩
    rw [this, List.mem_cons]
    tauto

theorem mem_foldl_insert (ps : List P) (set : Std.TreeSet P) (p : P) :
    p ∈ ps.foldl Std.TreeSet.insert set ↔ p ∈ ps ∨ p ∈ set := by
  induction ps generalizing set with
  | nil => simp
  | cons q ps ih =>
    rw [List.foldl_cons, ih, Std.TreeSet.mem_insert, Std.LawfulEqOrd.compare_eq_iff_eq,
      List.mem_cons, eq_comm]
    tauto

/-- Stale prefixes leave the installed set and the wanted ones join it: what is left is the wanted
set. -/
theorem Fib.mem_installed_sync {p : P} :
    p ∈ (s.sync L.ops nextHops).installed ↔ p ∈ s.desired L.ops nextHops := by
  simp only [Fib.sync, mem_foldl_insert, mem_foldl_erase, Std.TreeMap.mem_keys, Fib.mem_stale]
  tauto

/-- Every BGP entry that survives the removals is for a wanted prefix. -/
theorem Fib.owned_removals (h : s.Owned L) {e : E} (ho : L.own e = true)
    (he : e ∈ L.routes ((s.stale L.ops nextHops).foldl L.ops.remove s.table)) :
    ∃ p, p ∈ s.desired L.ops nextHops ∧ L.key e = L.pfxKey p := by
  obtain ⟨-, -, -, hmem⟩ := foldl_remove (s.stale L.ops nextHops)
    (fun p hp => h.canon p (Fib.mem_stale.mp hp).1) s.table h.good
  obtain ⟨hin, hkept⟩ := (hmem e).mp he
  obtain ⟨p, hp, hk⟩ := h.ours e hin ho
  refine ⟨p, ?_, hk⟩
  by_contra hnot
  exact hkept p (Fib.mem_stale.mpr ⟨hp, hnot⟩) ⟨hk, ho⟩

theorem Fib.mem_toList_desired {p : P} {via : A × String} :
    (p, via) ∈ (s.desired L.ops nextHops).toList ↔
      ∃ nextHop, nextHops[p]? = some nextHop ∧ L.ops.resolve s.table nextHop = some via := by
  rw [Std.TreeMap.mem_toList_iff_getElem?_eq_some, Fib.getElem?_desired, Option.bind_eq_some_iff]

theorem Fib.canon_of_mem_toList (hcanon : ∀ p, p ∈ nextHops → L.Canon p) {e : P × A × String}
    (he : e ∈ (s.desired L.ops nextHops).toList) : L.Canon e.1 := by
  obtain ⟨nextHop, hhop, hvia⟩ := Fib.mem_toList_desired.mp he
  exact Fib.canon_desired hcanon (Fib.mem_desired.mpr ⟨nextHop, e.2, hhop, hvia⟩)

theorem Fib.nodup_keys (hcanon : ∀ p, p ∈ nextHops → L.Canon p) :
    ((s.desired L.ops nextHops).toList.map fun e => L.key (L.entry e.1 e.2)).Nodup := by
  have hmem : ∀ e ∈ (s.desired L.ops nextHops).toList, L.Canon e.1 := fun _ he =>
    Fib.canon_of_mem_toList hcanon he
  have hdistinct := Std.TreeMap.distinct_keys_toList (t := s.desired L.ops nextHops)
  rw [List.Nodup, List.pairwise_map]
  refine hdistinct.imp_of_mem fun {a b} ha hb hne heq => hne ?_
  rw [L.key_entry _ _ (hmem a ha), L.key_entry _ _ (hmem b hb)] at heq
  rw [Std.LawfulEqOrd.compare_eq_iff_eq]
  exact L.pfxKey_inj _ _ (hmem a ha) (hmem b hb) heq

theorem Fib.sync_spec (h : s.Owned L) (hcanon : ∀ p, p ∈ nextHops → L.Canon p) :
    L.Good (s.sync L.ops nextHops).table ∧ Mirrors L nextHops s (s.sync L.ops nextHops) := by
  have hkeep : ∀ e ∈ (s.desired L.ops nextHops).toList, L.Canon e.1 := fun _ he =>
    Fib.canon_of_mem_toList hcanon he
  obtain ⟨hgood, hsub, hothers, -⟩ := foldl_remove (s.stale L.ops nextHops)
    (fun p hp => h.canon p (Fib.mem_stale.mp hp).1) s.table h.good
  obtain ⟨hgood', huniq, hothers', hmem⟩ := settle (fun e : P × A × String => L.entry e.1 e.2)
    (fun t e => L.ops.add t e.1 e.2) (fun t e => L.ops.already t e.1 e.2)
    (s.desired L.ops nextHops).toList
    (fun t e he hg hu => L.add t e.1 e.2 hg (hkeep e he) hu)
    (fun t e he hg hu => L.already t e.1 e.2 hg (hkeep e he) hu)
    (Fib.nodup_keys hcanon) (fun e _ => L.own_entry e.1 e.2) _ hgood (h.unique.sublist hsub)
  refine ⟨hgood', ?_, huniq, fun p => Fib.mem_installed_sync.trans Fib.mem_desired,
    hothers'.trans hothers⟩
  intro e ho
  refine (hmem e ho).trans ?_
  constructor
  · rintro (⟨⟨p, via⟩, he, rfl⟩ | ⟨he, hnot⟩)
    · obtain ⟨nextHop, hhop, hvia⟩ := Fib.mem_toList_desired.mp he
      exact ⟨p, nextHop, via, hhop, hvia, rfl⟩
    · obtain ⟨p, hp, hk⟩ := Fib.owned_removals h ho he
      obtain ⟨nextHop, via, hhop, hvia⟩ := Fib.mem_desired.mp hp
      have hin : (p, via) ∈ (s.desired L.ops nextHops).toList :=
        Fib.mem_toList_desired.mpr ⟨nextHop, hhop, hvia⟩
      refine absurd ?_ (hnot (p, via) hin)
      rw [hk, L.key_entry p via (hkeep _ hin)]
  · rintro ⟨p, nextHop, via, hhop, hvia, rfl⟩
    exact .inl ⟨(p, via), Fib.mem_toList_desired.mpr ⟨nextHop, hhop, hvia⟩, rfl⟩

theorem Fib.owned_sync (h : s.Owned L) (hcanon : ∀ p, p ∈ nextHops → L.Canon p) :
    (s.sync L.ops nextHops).Owned L := by
  obtain ⟨hgood, hm⟩ := Fib.sync_spec h hcanon
  refine ⟨hgood, hm.once, ?_, ?_⟩
  · intro p hp
    exact Fib.canon_desired hcanon (Fib.mem_installed_sync.mp hp)
  · intro e he ho
    obtain ⟨p, nextHop, via, hhop, hvia, rfl⟩ := (hm.entries e ho).mp he
    have hp := (hm.installed p).mpr ⟨nextHop, via, hhop, hvia⟩
    exact ⟨p, hp, L.key_entry p via (Fib.canon_desired hcanon (Fib.mem_installed_sync.mp hp))⟩

/-- Reconciliation is at its fixed point after one pass. -/
theorem Fib.sync_sync (h : s.Owned L) (hcanon : ∀ p, p ∈ nextHops → L.Canon p) :
    ((s.sync L.ops nextHops).sync L.ops nextHops).Same (s.sync L.ops nextHops) := by
  obtain ⟨hgood, hm⟩ := Fib.sync_spec h hcanon
  have hresolve : ∀ a, L.ops.resolve (s.sync L.ops nextHops).table a = L.ops.resolve s.table a :=
    fun a => L.resolve _ _ a hm.others
  have hdesired : (s.sync L.ops nextHops).desired L.ops nextHops = s.desired L.ops nextHops := by
    simp only [Fib.desired, hresolve]
  have hstale : (s.sync L.ops nextHops).stale L.ops nextHops = [] := by
    rw [List.eq_nil_iff_forall_not_mem]
    intro p hp
    rw [Fib.mem_stale, Fib.mem_installed_sync, hdesired] at hp
    exact hp.2 hp.1
  refine ⟨?_, ?_, ?_⟩
  · have hthere : ∀ e ∈ (s.desired L.ops nextHops).toList,
        L.ops.already (s.sync L.ops nextHops).table e.1 e.2 = true := by
      rintro ⟨p, via⟩ he
      obtain ⟨nextHop, hhop, hvia⟩ := Fib.mem_toList_desired.mp he
      have hp := Fib.canon_of_mem_toList hcanon he
      rw [L.already _ p via hgood hp hm.once]
      exact (hm.entries _ (L.own_entry p via)).mpr ⟨p, nextHop, via, hhop, hvia, rfl⟩
    conv_lhs => rw [Fib.sync]
    simp only [hstale, hdesired, List.foldl_nil]
    generalize (s.desired L.ops nextHops).toList = wanted at hthere
    induction wanted with
    | nil => rfl
    | cons e rest ih =>
      rw [List.foldl_cons, if_pos (hthere e (by simp))]
      exact ih fun e he => hthere e (by simp [he])
  · intro p
    rw [Fib.mem_installed_sync, Fib.mem_installed_sync, hdesired]
  · rw [Fib.sync]
    simp only [hresolve]
    rfl

end family

end ToyTcpip.Bgp
