import ToyTcpip.Lib.Machine
import ToyTcpip.Routing.Lookup

/-! Removing a route undoes what adding it did. -/
namespace ToyTcpip.Routing

open Reconcile

/-! ### The lists behind a table -/

section lists

variable {E : Type} {p : E → Bool} {l : List E} {e : E} {len dist : E → ℕ}

theorem others_replaceOrPush (he : p e = true) : others p (replaceOrPush p e l) = others p l := by
  induction l with
  | nil => simp [replaceOrPush, others, he]
  | cons a l ih =>
    rw [replaceOrPush_cons]
    by_cases ha : p a = true
    · simp [others, he, ha]
    · rw [others, others] at ih
      simp [others, ha, ih]

/-- Sorting by preference moves none of the entries that were already in order. -/
theorem others_arrange_replaceOrPush (h : l.Pairwise (Ranked.Precedes len dist)) (he : p e = true) :
    others p (Ranked.arrange len dist (replaceOrPush p e l)) = others p l := by
  have hothers := others_replaceOrPush (l := l) he
  rw [Ranked.arrange, others_insertionSort, hothers]
  rw [hothers]
  exact h.sublist List.filter_sublist

theorem nodup_arrange : (Ranked.arrange len dist l).Nodup ↔ l.Nodup :=
  (List.perm_insertionSort _ l).nodup_iff

theorem mem_replaceOrPush_self : e ∈ replaceOrPush p e l := by
  induction l with
  | nil => simp [replaceOrPush]
  | cons a l ih =>
    rw [replaceOrPush_cons]
    split
    · exact List.mem_cons_self
    · exact List.mem_cons_of_mem _ ih

/-- The new entry is a second one exactly if it is stored apart from the one it replaces. -/
theorem nodup_replaceOrPush (h : l.Nodup) : (replaceOrPush p e l).Nodup ↔ e ∉ l.eraseP p := by
  induction l with
  | nil => simp [replaceOrPush]
  | cons a l ih =>
    obtain ⟨ha, hl⟩ := List.nodup_cons.mp h
    rw [replaceOrPush_cons]
    by_cases hp : p a = true
    · simp [hp, hl]
    · simp only [hp, Bool.false_eq_true, ↓reduceIte, List.nodup_cons, ih hl, not_false_eq_true,
        List.eraseP_cons_of_neg, List.mem_cons, not_or]
      constructor
      · rintro ⟨hnew, hrest⟩
        refine ⟨?_, hrest⟩
        rintro rfl
        exact hnew mem_replaceOrPush_self
      · rintro ⟨hne, hrest⟩
        refine ⟨fun hin => ?_, hrest⟩
        rcases mem_replaceOrPush hin with hin | rfl
        · exact ha hin
        · exact hne rfl

end lists

/-! ### The entries of one prefix and source -/

/-- The entry is for that prefix and from that source. -/
def RouteEntry.Under (key : Ipv4Address × ℕ) (source : RouteSource) (r : RouteEntry) : Bool :=
  r.key = key ∧ r.source = source

def Ipv6RouteEntry.Under (key : Ipv6Address × ℕ) (source : RouteSource) (r : Ipv6RouteEntry) :
    Bool :=
  r.key = key ∧ r.source = source

/-- Removing what was added leaves no trace of it, and every entry of another prefix, length or
source where it was. -/
def RoutingTable.AddThenRemoveExact (t : RoutingTable) (destination : Ipv4Address) (len : ℕ)
    (gateway : Option Ipv4Address) (interface : String) (source : RouteSource) : Prop :=
  let added := RouteEntry.withSource destination len gateway interface source
  let t' := (t.addRouteFrom destination len gateway interface source).removeRoute destination len
    source
  added ∉ t'.routes ∧
    others (RouteEntry.Under added.key source) t'.routes =
      others (RouteEntry.Under added.key source) t.routes

def Ipv6RoutingTable.AddThenRemoveExact (t : Ipv6RoutingTable) (destination : Ipv6Address)
    (len : ℕ) (gateway : Option Ipv6Address) (interface : String) (source : RouteSource) : Prop :=
  let added := Ipv6RouteEntry.withSource destination len gateway interface source
  let t' := (t.addRouteFrom destination len gateway interface source).removeRoute destination len
    source
  added ∉ t'.routes ∧
    others (Ipv6RouteEntry.Under added.key source) t'.routes =
      others (Ipv6RouteEntry.Under added.key source) t.routes

section removal

variable {interface : String} {source : RouteSource} {len : ℕ}

theorem removeRoute_routes (t : RoutingTable) (destination : Ipv4Address) :
    (t.removeRoute destination len source).routes =
      others (RouteEntry.Under (destination.mask len, len) source) t.routes :=
  List.filter_congr fun r _ => by simp [RouteEntry.Under]

theorem removeRoute6_routes (t : Ipv6RoutingTable) (destination : Ipv6Address) :
    (t.removeRoute destination len source).routes =
      others (Ipv6RouteEntry.Under (destination.mask len, min len 128) source) t.routes :=
  List.filter_congr fun r _ => by simp [Ipv6RouteEntry.Under]

theorem others_others {E : Type} {p : E → Bool} {l : List E} :
    others p (others p l) = others p l := by
  simp [others, List.filter_filter]

theorem not_mem_others {E : Type} {p : E → Bool} {l : List E} {e : E} (he : p e = true) :
    e ∉ others p l := by
  simp [others, he]

/-- The masks agree only up to the length that adding clamps to: beyond it no stored entry has
the length that removing looks for. -/
theorem Ordered.addThenRemoveExact {t : RoutingTable} (h : Ordered t) (destination : Ipv4Address)
    (gateway : Option Ipv4Address) :
    t.AddThenRemoveExact destination len gateway interface source ↔ len ≤ 32 := by
  unfold RoutingTable.AddThenRemoveExact
  extract_lets added t'
  have hadded : RouteEntry.Under added.key source added = true := by
    simp [RouteEntry.Under, added, RouteEntry.withSource]
  constructor
  · rintro ⟨hgone, -⟩
    by_contra hlen
    apply hgone
    rw [removeRoute_routes]
    refine List.mem_filter.mpr ⟨Ranked.mem_arrange.mpr mem_replaceOrPush_self, ?_⟩
    have hclamped : added.prefixLen ≠ len := by
      simp only [added, RouteEntry.withSource]
      omega
    simp [RouteEntry.Under, RouteEntry.key, hclamped]
  · intro hlen
    have hkey : added.key = (destination.mask len, len) := by
      simp [added, RouteEntry.withSource, RouteEntry.key, min_eq_left hlen]
    have hroutes : t'.routes = others (RouteEntry.Under added.key source) t.routes := by
      rw [hkey, ← others_arrange_replaceOrPush (e := added) h.sorted (hkey ▸ hadded), ← hkey]
      exact (removeRoute_routes _ _).trans (by rw [← hkey]; rfl)
    rw [hroutes]
    exact ⟨not_mem_others hadded, others_others⟩

theorem Ordered6.addThenRemoveExact {t : Ipv6RoutingTable} (h : Ordered6 t)
    (destination : Ipv6Address) (gateway : Option Ipv6Address) :
    t.AddThenRemoveExact destination len gateway interface source := by
  unfold Ipv6RoutingTable.AddThenRemoveExact
  extract_lets added t'
  have hadded : Ipv6RouteEntry.Under added.key source added = true := by
    simp [Ipv6RouteEntry.Under, added, Ipv6RouteEntry.withSource]
  have hmask : destination.mask (min len 128) = destination.mask len := by
    simp [Ipv6Address.mask]
  have hkey : added.key = (destination.mask len, min len 128) := by
    rw [← hmask]
    rfl
  have hroutes : t'.routes = others (Ipv6RouteEntry.Under added.key source) t.routes := by
    rw [← others_arrange_replaceOrPush (e := added) h.sorted hadded]
    exact (removeRoute6_routes _ _).trans (by rw [← hkey]; rfl)
  rw [hroutes]
  exact ⟨not_mem_others hadded, others_others⟩

end removal

/-! ### No route twice -/

/-- No route but the one it replaces is the same as a route that is added. -/
def RoutingTable.Fresh (t : RoutingTable) : RouteCall Ipv4Address → Prop
  | .addRouteFrom d len gw i s =>
    let entry := RouteEntry.withSource d len gw i s
    entry ∉ t.routes.eraseP (RouteEntry.Under entry.key s)
  | _ => True

def Ipv6RoutingTable.Fresh (t : Ipv6RoutingTable) : RouteCall Ipv6Address → Prop
  | .addRouteFrom d len gw i s =>
    let entry := Ipv6RouteEntry.withSource d len gw i s
    entry ∉ t.routes.eraseP (Ipv6RouteEntry.Under entry.key s)
  | _ => True

theorem RoutingTable.nodup_step {t : RoutingTable} (h : t.routes.Nodup)
    (call : RouteCall Ipv4Address) : (t.step call).routes.Nodup ↔ t.Fresh call := by
  cases call with
  | addRouteFrom d len gw i s => exact nodup_arrange.trans (nodup_replaceOrPush h)
  | addMultipathRouteFrom d len gw i s =>
    simp only [step, addMultipathRouteFrom, Fresh, iff_true]
    split
    · exact h
    · rename_i hdup
      refine nodup_arrange.mpr (List.nodup_append'.mpr ⟨h, List.nodup_singleton _, ?_⟩)
      rw [List.disjoint_singleton]
      exact fun hin => hdup (List.any_eq_true.mpr ⟨_, hin, by simp⟩)
  | removeRoute d len s => exact iff_of_true (h.filter _) trivial
  | removeRouteVia d len gw i s => exact iff_of_true (h.filter _) trivial
  | removeAllFrom s => exact iff_of_true (h.filter _) trivial

theorem Ipv6RoutingTable.nodup_step {t : Ipv6RoutingTable} (h : t.routes.Nodup)
    (call : RouteCall Ipv6Address) : (t.step call).routes.Nodup ↔ t.Fresh call := by
  cases call with
  | addRouteFrom d len gw i s => exact nodup_arrange.trans (nodup_replaceOrPush h)
  | addMultipathRouteFrom d len gw i s =>
    simp only [step, addMultipathRouteFrom, Fresh, iff_true]
    split
    · exact h
    · rename_i hdup
      refine nodup_arrange.mpr (List.nodup_append'.mpr ⟨h, List.nodup_singleton _, ?_⟩)
      rw [List.disjoint_singleton]
      exact fun hin => hdup (List.any_eq_true.mpr ⟨_, hin, by simp⟩)
  | removeRoute d len s => exact iff_of_true (h.filter _) trivial
  | removeRouteVia d len gw i s => exact iff_of_true (h.filter _) trivial
  | removeAllFrom s => exact iff_of_true (h.filter _) trivial

/-- Adding and removing is exact up to the longest IPv4 prefix and always for IPv6, and no two
routes are the same while no replacement brings in a route that is stored besides. -/
theorem add_remove_exact {calls : List (RouteCall Ipv4Address)}
    {calls6 : List (RouteCall Ipv6Address)}
    (h : Machine.Along RoutingTable.step RoutingTable.Fresh .new calls)
    (h6 : Machine.Along Ipv6RoutingTable.step Ipv6RoutingTable.Fresh .new calls6) :
    (∀ built destination len gateway interface source,
      (RoutingTable.run built).AddThenRemoveExact destination len gateway interface source ↔
        len ≤ 32) ∧
    (∀ built destination len gateway interface source,
      (Ipv6RoutingTable.run built).AddThenRemoveExact destination len gateway interface source) ∧
    ((RoutingTable.run calls).routes.Nodup ∧ ∀ next,
      ((RoutingTable.run calls).step next).routes.Nodup ↔ (RoutingTable.run calls).Fresh next) ∧
    (Ipv6RoutingTable.run calls6).routes.Nodup ∧ ∀ next,
      ((Ipv6RoutingTable.run calls6).step next).routes.Nodup ↔
        (Ipv6RoutingTable.run calls6).Fresh next := by
  have hrun : (RoutingTable.run calls).routes.Nodup :=
    h.keeps (I := fun t => t.routes.Nodup)
      (fun _ call hnodup => (RoutingTable.nodup_step hnodup call).mpr) List.nodup_nil
  have hrun6 : (Ipv6RoutingTable.run calls6).routes.Nodup :=
    h6.keeps (I := fun t => t.routes.Nodup)
      (fun _ call hnodup => (Ipv6RoutingTable.nodup_step hnodup call).mpr) List.nodup_nil
  refine ⟨fun built d len gw i s => (ordered_run built).addThenRemoveExact d gw,
    fun built d len gw i s => (ordered6_run built).addThenRemoveExact d gw,
    ⟨hrun, RoutingTable.nodup_step hrun⟩, hrun6, Ipv6RoutingTable.nodup_step hrun6⟩

/-- A route replaced by one through another gateway, in both families. -/
theorem add_remove_exact_replaced :
    (RoutingTable.run [.addRouteFrom ⟨10, 1, 0, 0⟩ 16 (some ⟨10, 0, 0, 1⟩) "eth0" .static,
      .addRouteFrom ⟨10, 1, 0, 0⟩ 16 (some ⟨10, 0, 0, 2⟩) "eth0" .static]).routes.Nodup ∧
    (Ipv6RoutingTable.run [.addRouteFrom .loopback 128 none "eth0" .static]).routes.Nodup := by
  have hexact := @add_remove_exact
    [.addRouteFrom ⟨10, 1, 0, 0⟩ 16 (some ⟨10, 0, 0, 1⟩) "eth0" .static,
      .addRouteFrom ⟨10, 1, 0, 0⟩ 16 (some ⟨10, 0, 0, 2⟩) "eth0" .static]
    [.addRouteFrom .loopback 128 none "eth0" .static]
    ⟨by unfold RoutingTable.Fresh; decide +kernel,
      by unfold RoutingTable.Fresh; decide +kernel, trivial⟩
    ⟨by unfold Ipv6RoutingTable.Fresh; decide +kernel, trivial⟩
  exact ⟨hexact.2.2.1.1, hexact.2.2.2.1⟩

/-- A host route given with a length beyond 32 outlives its removal, and replacing the first of two
next hops by the second leaves the second twice. -/
theorem removal_misses_long_prefix :
    ¬ RoutingTable.new.AddThenRemoveExact ⟨10, 0, 0, 1⟩ 33 none "eth0" .static ∧
    ¬ (RoutingTable.run [
      .addMultipathRouteFrom ⟨10, 1, 0, 0⟩ 16 (some ⟨10, 0, 0, 1⟩) "eth0" .static,
      .addMultipathRouteFrom ⟨10, 1, 0, 0⟩ 16 (some ⟨10, 0, 0, 2⟩) "eth0" .static,
      .addRouteFrom ⟨10, 1, 0, 0⟩ 16 (some ⟨10, 0, 0, 2⟩) "eth0" .static]).routes.Nodup := by
  constructor
  · unfold RoutingTable.AddThenRemoveExact
    decide +kernel
  · decide +kernel

end ToyTcpip.Routing
