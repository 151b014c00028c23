import ToyTcpip.Lib.Machine
import ToyTcpip.Rip.Engine

/-! What the RIP engine keeps of the advertisements it hears. -/
namespace ToyTcpip.Rip

open Routing Reconcile
open Machine (run Along)

/-- The prefix without host bits. -/
def masked (p : Net) : Net := (p.1.mask p.2, p.2)

/-- The mask is ones and then zeros. -/
def Contiguous (entry : RipEntry) : Prop :=
  entry.subnetMask = RipEngine.subnetMask (RipEngine.netOf entry).2

instance (entry : RipEntry) : Decidable (Contiguous entry) := inferInstanceAs (Decidable (_ = _))

/-- A call at the engine; advertisements come entry by entry. -/
inductive Call where
  | addLocal (p : Net) (interface : String)
  | hear (neighborIp : Ipv4Address) (interface : String) (entry : RipEntry)

inductive Event where
  | addLocal (p : Net) (interface : String)
  | advertisement (neighborIp : Ipv4Address) (pkt : RipPacket) (interface : String)

def Event.calls : Event → List Call
  | .addLocal p interface => [.addLocal p interface]
  | .advertisement neighborIp pkt interface => pkt.entries.map (.hear neighborIp interface)

namespace RipEngine

def apply (e : RipEngine) : Call → RipEngine
  | .addLocal p interface => e.addLocalNetwork p interface
  | .hear neighborIp interface entry => (processEntry neighborIp interface e entry).getD e

def handle (e : RipEngine) : Event → RipEngine
  | .addLocal p interface => e.addLocalNetwork p interface
  | .advertisement neighborIp pkt interface => (e.processAdvertisement neighborIp pkt interface).1

variable {e e' : RipEngine} {p q : Net} {k : ℕ} {neighborIp : Ipv4Address} {interface : String}
  {entry : RipEntry} {entries : List RipEntry} {history : List Call} {call : Call} {r : RouteEntry}

theorem processAdvertisement_eq (pkt : RipPacket) :
    (e.processAdvertisement neighborIp pkt interface).1 =
      run apply e (Event.advertisement neighborIp pkt interface).calls := by
  rw [processAdvertisement, Event.calls, run, List.foldl_map]
  generalize 0 = updated
  induction pkt.entries generalizing e updated with
  | nil => rfl
  | cons entry rest ih =>
    rw [List.foldl_cons, List.foldl_cons]
    cases h : processEntry neighborIp interface e entry with
    | none =>
      rw [ih]
      simp [apply, h]
    | some e' =>
      rw [ih]
      simp [apply, h]

theorem handle_eq (event : Event) : e.handle event = run apply e event.calls := by
  cases event with
  | addLocal p interface => rfl
  | advertisement neighborIp pkt interface => exact processAdvertisement_eq pkt

theorem run_handle (events : List Event) :
    run handle e events = run apply e (events.flatMap Event.calls) := by
  induction events generalizing e with
  | nil => rfl
  | cons event rest ih =>
    rw [List.flatMap_cons, Machine.run_append, ← handle_eq, ← ih]
    rfl

/-! ### What should be kept -/

/-- The metric `m` of a prefix came with the route `r`: from the network itself, or from a neighbour
that advertised it for one less. -/
def Gave (history : List Call) (m : Net × ℕ) (r : RouteEntry) : Prop :=
  (m.2 = 1 ∧ r.gateway = none ∧ .addLocal m.1 r.interface ∈ history) ∨
  ∃ neighborIp entry, r.gateway = some neighborIp ∧ .hear neighborIp r.interface entry ∈ history ∧
    entry.addressFamily = ripAfiIpv4 ∧ Contiguous entry ∧ masked (netOf entry) = masked m.1 ∧
    m.2 = entry.metric + 1

/-- One metric from 1 to 15 for each prefix, and one route, which gave it. -/
structure Follows (history : List Call) (e : RipEngine) : Prop where
  apart : (e.routeMetrics.map fun m => masked m.1).Nodup
  bounded : ∀ m ∈ e.routeMetrics, m.1.2 ≤ 32 ∧ 1 ≤ m.2 ∧ m.2 ≤ 15
  single : (e.routes.routes.map RouteEntry.key).Nodup
  given : ∀ m ∈ e.routeMetrics, ∃ r ∈ e.routes.routes, r.key = masked m.1 ∧ Gave history m r
  known : ∀ r ∈ e.routes.routes, ∃ m ∈ e.routeMetrics, masked m.1 = r.key

/-- The entry comes from the neighbour that the route of its prefix leads to. -/
def FromGateway (e : RipEngine) (neighborIp : Ipv4Address) (entry : RipEntry)
    (m : Net × ℕ) : Prop :=
  m ∈ e.routeMetrics ∧ masked m.1 = masked (netOf entry) ∧
    ∃ r ∈ e.routes.routes, r.key = masked (netOf entry) ∧ r.gateway = some neighborIp

/-- An entry is added up without overflow, and a worse metric from the gateway is taken over. -/
def Heeds (e : RipEngine) : Call → Prop
  | .addLocal _ _ => True
  | .hear neighborIp interface entry => entry.addressFamily = ripAfiIpv4 →
    entry.metric + 1 < 2 ^ 32 ∧
    ∀ m, Contiguous entry → FromGateway e neighborIp entry m → m.2 < entry.metric + 1 →
      if entry.metric + 1 < ripInfinityMetric then
        ∃ m' ∈ (e.apply (.hear neighborIp interface entry)).routeMetrics,
          masked m'.1 = masked (netOf entry) ∧ m'.2 = entry.metric + 1
      else ∀ r ∈ (e.apply (.hear neighborIp interface entry)).routes.routes,
        r.key ≠ masked (netOf entry)

/-- The metric can be added to, a prefix that is new has a contiguous mask and the address under
which it is known, and a gateway does not make its route worse. -/
def Harmless (e : RipEngine) : Call → Prop
  | .addLocal p _ => p.2 ≤ 32 ∧ ∀ m ∈ e.routeMetrics, masked m.1 ≠ masked p
  | .hear neighborIp _ entry => entry.addressFamily = ripAfiIpv4 →
    entry.metric + 1 < 2 ^ 32 ∧
    (entry.metric + 1 < ripInfinityMetric →
      (∀ m ∈ e.routeMetrics, m.1 = netOf entry → entry.metric + 1 < m.2) →
      Contiguous entry ∧
        ∀ m ∈ e.routeMetrics, masked m.1 = masked (netOf entry) → m.1 = netOf entry) ∧
    ∀ m, Contiguous entry → FromGateway e neighborIp entry m → entry.metric + 1 ≤ m.2

/-! ### What is kept -/

/-- What is kept along a run, with the order of the table. -/
structure Kept (history : List Call) (e : RipEngine) : Prop extends Follows history e where
  sorted : e.routes.routes.Pairwise (Ranked.Precedes RouteEntry.prefixLen RouteEntry.distance)
  static : ∀ r ∈ e.routes.routes, isStatic r = true

theorem Gave.mono {history' : List Call} {m : Net × ℕ} (h : Gave history m r)
    (hsub : history ⊆ history') : Gave history' m r := by
  rcases h with ⟨hone, hgateway, hmem⟩ | ⟨neighborIp, entry, hgateway, hmem, hrest⟩
  · exact .inl ⟨hone, hgateway, hsub hmem⟩
  · exact .inr ⟨neighborIp, entry, hgateway, hsub hmem, hrest⟩

theorem Kept.mono {history' : List Call} (h : Kept history e) (hsub : history ⊆ history') :
    Kept history' e where
  __ := h
  given m hm := by
    obtain ⟨r, hr, hkey, hgave⟩ := h.given m hm
    exact ⟨r, hr, hkey, hgave.mono hsub⟩

theorem key_masked (hp : p.2 ≤ 32) {gateway : Option Ipv4Address} :
    (routeOf p gateway interface).key = masked p := by
  simp [routeOf, RouteEntry.withSource, RouteEntry.key, masked, min_eq_left hp]

theorem unique_of_static {routes : List RouteEntry} (h : ∀ r ∈ routes, isStatic r = true) :
    Reconcile.Unique isStatic RouteEntry.key routes ↔ (routes.map RouteEntry.key).Nodup := by
  rw [Reconcile.Unique, List.filter_eq_self.mpr h]

/-- The new route takes the place of the one for its prefix. -/
theorem Kept.addRoute (h : Kept history e) (hp : p.2 ≤ 32) (gateway : Option Ipv4Address)
    (interface : String) :
    (∀ r ∈ (addRoute e.routes p gateway interface).routes, isStatic r = true) ∧
      (addRoute e.routes p gateway interface).routes.Pairwise
        (Ranked.Precedes RouteEntry.prefixLen RouteEntry.distance) ∧
      ((addRoute e.routes p gateway interface).routes.map RouteEntry.key).Nodup ∧
      ∀ r, r ∈ (addRoute e.routes p gateway interface).routes ↔
        r = routeOf p gateway interface ∨ r ∈ e.routes.routes ∧ r.key ≠ masked p := by
  have hunique := (unique_of_static h.static).mpr h.single
  have hput : Put isStatic RouteEntry.key e.routes.routes (routeOf p gateway interface)
      (RipEngine.addRoute e.routes p gateway interface).routes := by
    refine put_arrange (put_replaceOrPush (fun r => ?_) hunique rfl) h.sorted
    rw [decide_eq_true_iff, isStatic, decide_eq_true_iff]
    exact Iff.rfl
  have hstatic : ∀ r ∈ (RipEngine.addRoute e.routes p gateway interface).routes,
      isStatic r = true := by
    intro r hr
    rcases mem_replaceOrPush (Ranked.mem_arrange.mp hr) with hr | rfl
    · exact h.static r hr
    · rfl
  refine ⟨hstatic, Ranked.pairwise_arrange _,
    (unique_of_static hstatic).mp hput.unique, fun r => ?_⟩
  have hkey := @key_masked p interface hp gateway
  constructor
  · intro hr
    have := (hput.mem r (hstatic r hr)).mp hr
    rwa [hkey] at this
  · rintro (rfl | ⟨hr, hne⟩)
    · exact (hput.mem _ rfl).mpr (.inl rfl)
    · exact (hput.mem r (h.static r hr)).mpr (.inr ⟨hr, by rwa [hkey]⟩)

/-- A prefix is taken up with its route. -/
theorem Kept.put {gateway : Option Ipv4Address} {metrics : List (Net × ℕ)} (h : Kept history e)
    (hp : p.2 ≤ 32) (hk : 1 ≤ k ∧ k ≤ 15)
    (hown : ∀ m ∈ e.routeMetrics, masked m.1 = masked p → m.1 = p)
    (hmetrics : (metrics.map Prod.fst).Nodup ∧
      ∀ m, m ∈ metrics ↔ m = (p, k) ∨ m ∈ e.routeMetrics ∧ m.1 ≠ p)
    (hgave : Gave history (p, k) (routeOf p gateway interface)) :
    Kept history ⟨RipEngine.addRoute e.routes p gateway interface, metrics⟩ := by
  obtain ⟨hstatic, hsorted, hsingle, hmem⟩ := h.addRoute hp gateway interface
  obtain ⟨hnodup, hiff⟩ := hmetrics
  have hkey := @key_masked p interface hp gateway
  -- among the prefixes kept, the masked ones differ
  have hdiffer : ∀ m ∈ metrics, ∀ m' ∈ metrics, masked m.1 = masked m'.1 → m.1 = m'.1 := by
    intro m hm m' hm' heq
    rcases (hiff m).mp hm with rfl | ⟨hold, hne⟩
    · rcases (hiff m').mp hm' with rfl | ⟨hold', -⟩
      · rfl
      · exact (hown m' hold' heq.symm).symm
    · rcases (hiff m').mp hm' with rfl | ⟨hold', -⟩
      · exact hown m hold heq
      · exact congrArg Prod.fst (List.inj_on_of_nodup_map h.apart hold hold' heq)
  refine ⟨⟨?_, ?_, hsingle, ?_, ?_⟩, hsorted, hstatic⟩
  · have hmap := List.Nodup.map_on (f := masked) ?_ hnodup
    · rwa [List.map_map] at hmap
    · intro q hq q' hq' heq
      obtain ⟨m, hm, rfl⟩ := List.mem_map.mp hq
      obtain ⟨m', hm', rfl⟩ := List.mem_map.mp hq'
      exact hdiffer m hm m' hm' heq
  · intro m hm
    rcases (hiff m).mp hm with rfl | ⟨hold, -⟩
    · exact ⟨hp, hk⟩
    · exact h.bounded m hold
  · intro m hm
    rcases (hiff m).mp hm with rfl | ⟨hold, hne⟩
    · exact ⟨_, (hmem _).mpr (.inl rfl), hkey, hgave⟩
    · obtain ⟨r, hr, hrkey, hgiven⟩ := h.given m hold
      refine ⟨r, (hmem r).mpr (.inr ⟨hr, fun heq => hne ?_⟩), hrkey, hgiven⟩
      exact hown m hold (hrkey.symm.trans heq)
  · intro r hr
    rcases (hmem r).mp hr with rfl | ⟨hold, hne⟩
    · exact ⟨(p, k), (hiff _).mpr (.inl rfl), hkey.symm⟩
    · obtain ⟨m, hm, hmkey⟩ := h.known r hold
      refine ⟨m, (hiff m).mpr (.inr ⟨hm, ?_⟩), hmkey⟩
      rintro rfl
      exact hne hmkey.symm

theorem Follows.nodup_fst (h : Follows history e) : (e.routeMetrics.map Prod.fst).Nodup := by
  have hmap := h.apart
  rw [show (fun m : Net × ℕ => masked m.1) = masked ∘ Prod.fst from rfl, ← List.map_map] at hmap
  exact hmap.of_map

/-- Overwriting the metric of a prefix, or pushing a first one. -/
theorem nodup_replace {metrics : List (Net × ℕ)} (h : (metrics.map Prod.fst).Nodup) :
    ((replaceOrPush (fun m => m.1 = p) (p, k) metrics).map Prod.fst).Nodup ∧
      ∀ m, m ∈ replaceOrPush (fun m => m.1 = p) (p, k) metrics ↔
        m = (p, k) ∨ m ∈ metrics ∧ m.1 ≠ p := by
  have hall : ∀ l : List (Net × ℕ), l.filter (fun _ => true) = l := fun l => by simp
  have hput : Put (fun _ => true) Prod.fst metrics (p, k)
      (replaceOrPush (fun m => m.1 = p) (p, k) metrics) :=
    put_replaceOrPush (fun m => by simp) (by rwa [Reconcile.Unique, hall]) rfl
  refine ⟨?_, fun m => hput.mem m rfl⟩
  have hunique := hput.unique
  rwa [Reconcile.Unique, hall] at hunique

theorem Kept.addLocal (h : Kept history e) (hok : Harmless e (.addLocal p interface)) :
    Kept (history ++ [.addLocal p interface]) (e.addLocalNetwork p interface) := by
  obtain ⟨hlen, hfresh⟩ := hok
  have hne : ∀ m ∈ e.routeMetrics, m.1 ≠ p := by
    rintro m hm rfl
    exact hfresh m hm rfl
  have hmono : Kept (history ++ [.addLocal p interface]) e := h.mono (List.subset_append_left _ _)
  refine hmono.put hlen (by omega) (fun m hm heq => absurd heq (hfresh m hm)) ⟨?_, fun m => ?_⟩
    (.inl ⟨rfl, rfl, by simp [routeOf, RouteEntry.withSource]⟩)
  · rw [List.map_append]
    refine List.Nodup.append h.nodup_fst (by simp) ?_
    simp only [List.map_cons, List.map_nil, List.disjoint_singleton]
    intro hmem
    obtain ⟨m, hm, hmp⟩ := List.mem_map.mp hmem
    exact hne m hm hmp
  · rw [List.mem_append, List.mem_singleton]
    constructor
    · rintro (hm | rfl)
      · exact .inr ⟨hm, hne m hm⟩
      · exact .inl rfl
    · rintro (rfl | ⟨hm, -⟩)
      · exact .inr rfl
      · exact .inl hm

/-- What is learnt is new or better. -/
theorem learn_eq_some (h : (e.routeMetrics.map Prod.fst).Nodup) :
    e.learn p k neighborIp interface = some e' ↔
      e' = e.install p k neighborIp interface ∧ ∀ m ∈ e.routeMetrics, m.1 = p → k < m.2 := by
  rw [learn]
  split
  · next m hm =>
    have hmem := List.mem_of_find?_eq_some hm
    have hp : m.1 = p := by simpa using List.find?_some hm
    have hbetter : (∀ m' ∈ e.routeMetrics, m'.1 = p → k < m'.2) ↔ k < m.2 := by
      constructor
      · intro hall
        exact hall m hmem hp
      · intro hlt m' hm' hp'
        rwa [List.inj_on_of_nodup_map h hm' hmem (hp'.trans hp.symm)]
    rw [hbetter]
    by_cases hlt : k < m.2
    · simp [hlt, eq_comm]
    · simp [hlt]
  · next hnone =>
    have hall : ∀ m ∈ e.routeMetrics, m.1 = p → k < m.2 := by
      intro m hm hp
      have := List.find?_eq_none.mp hnone m hm
      simp [hp] at this
    simp only [Option.some.injEq]
    constructor
    · intro h
      exact ⟨h.symm, hall⟩
    · intro h
      exact h.1.symm

/-- An entry that is taken up: readable, below infinity and new or better. -/
theorem processEntry_eq_some (h : (e.routeMetrics.map Prod.fst).Nodup)
    (hfits : entry.metric + 1 < 2 ^ 32) :
    processEntry neighborIp interface e entry = some e' ↔
      entry.addressFamily = ripAfiIpv4 ∧ entry.metric + 1 < ripInfinityMetric ∧
        e' = e.install (netOf entry) (entry.metric + 1) neighborIp interface ∧
        ∀ m ∈ e.routeMetrics, m.1 = netOf entry → entry.metric + 1 < m.2 := by
  rw [processEntry, Nat.mod_eq_of_lt hfits]
  by_cases hfamily : entry.addressFamily = ripAfiIpv4
  case neg => simp [hfamily]
  by_cases hfar : entry.metric + 1 < ripInfinityMetric
  · rw [if_neg (not_not.mpr hfamily), min_eq_left hfar.le, if_neg (by omega), learn_eq_some h]
    simp [hfamily, hfar]
  · rw [if_neg (not_not.mpr hfamily), min_eq_right (by omega), if_pos le_rfl]
    simp [hfar]

theorem netOf_le : (netOf entry).2 ≤ 32 := BitVec.toNat_cpop_le _

theorem Kept.hear (h : Kept history e) (hok : Harmless e (.hear neighborIp interface entry)) :
    Kept (history ++ [.hear neighborIp interface entry])
      (e.apply (.hear neighborIp interface entry)) := by
  have hmono : Kept (history ++ [.hear neighborIp interface entry]) e :=
    h.mono (List.subset_append_left _ _)
  rw [apply]
  cases hprocess : processEntry neighborIp interface e entry with
  | none => exact hmono
  | some e' =>
    have hfamily : entry.addressFamily = ripAfiIpv4 := by
      by_contra hne
      simp [processEntry, hne] at hprocess
    obtain ⟨hfits, hnew, -⟩ := hok hfamily
    obtain ⟨-, hfar, rfl, hbetter⟩ := (processEntry_eq_some h.nodup_fst hfits).mp hprocess
    obtain ⟨hcontiguous, hown⟩ := hnew hfar hbetter
    refine hmono.put netOf_le ⟨by omega, by rw [ripInfinityMetric] at hfar; omega⟩ hown
      (nodup_replace h.nodup_fst)
        (.inr ⟨neighborIp, entry, rfl, ?_, hfamily, hcontiguous, rfl, rfl⟩)
    simp [routeOf, RouteEntry.withSource]

theorem heeds_of_harmless (hok : Harmless e call) : Heeds e call := by
  cases call with
  | addLocal => trivial
  | hear neighborIp interface entry =>
    intro hfamily
    obtain ⟨hfits, -, hgateway⟩ := hok hfamily
    refine ⟨hfits, fun m hcontiguous hfrom hworse => ?_⟩
    have := hgateway m hcontiguous hfrom
    omega

theorem kept_new : Kept [] .new := by
  refine ⟨⟨?_, ?_, ?_, ?_, ?_⟩, ?_, ?_⟩ <;> simp [new, RoutingTable.new]

theorem kept_run {calls : List Call} (h : Kept history e) (hrun : Along apply Harmless e calls) :
    Kept (history ++ calls) (run apply e calls) := by
  induction calls generalizing history e with
  | nil => rwa [List.append_nil]
  | cons call rest ih =>
    have hstep : Kept (history ++ [call]) (e.apply call) := by
      cases call with
      | addLocal => exact h.addLocal hrun.1
      | hear => exact h.hear hrun.1
    have hrest := ih hstep hrun.2
    rwa [List.append_assoc] at hrest

/-- While advertisements are harmless the engine follows them. -/
theorem advertisements_followed (events : List Event)
    (h : Along apply Harmless new (events.flatMap Event.calls)) :
    Follows (events.flatMap Event.calls) (run handle new events) ∧
      ∀ before call after, events.flatMap Event.calls = before ++ call :: after →
        Heeds (run apply new before) call := by
  constructor
  · rw [run_handle]
    exact (kept_run kept_new h).toFollows
  · intro before call after hsplit
    rw [hsplit] at h
    exact heeds_of_harmless (Machine.along_append.mp h).2.1

/-- An entry for 10.0.0.0/8. -/
def tenNet (metric : ℕ) : RipEntry :=
  ⟨ripAfiIpv4, 0, ⟨10, 0, 0, 0⟩, ⟨255, 0, 0, 0⟩, ⟨0, 0, 0, 0⟩, metric⟩

/-- The neighbours 192.168.0.2 and 192.168.0.3 on one interface. -/
def heardFrom (host : UInt8) (metric : ℕ) : Event :=
  .advertisement ⟨192, 168, 0, host⟩ ⟨ripCmdResponse, ripVersion2, 0, [tenNet metric]⟩ "eth0"

example : (run handle new [heardFrom 2 3, heardFrom 3 1]).routeMetrics =
    [((⟨10, 0, 0, 0⟩, 8), 2)] := by
  decide +kernel

theorem advertisements_followed_improving :
    Follows ([heardFrom 2 3, heardFrom 3 1].flatMap Event.calls)
      (run handle new [heardFrom 2 3, heardFrom 3 1]) ∧
    ∀ before call after, [heardFrom 2 3, heardFrom 3 1].flatMap Event.calls =
      before ++ call :: after →
      Heeds (run apply new before) call := by
  refine advertisements_followed [heardFrom 2 3, heardFrom 3 1] ⟨?_, ?_, trivial⟩
  · intro _
    refine ⟨by decide, fun _ _ => ⟨by decide +kernel, by simp [new]⟩, ?_⟩
    rintro m - ⟨hm, -⟩
    cases hm
  · intro _
    have hstate : (new.apply (.hear ⟨192, 168, 0, 2⟩ "eth0" (tenNet 3))).routeMetrics =
        [((⟨10, 0, 0, 0⟩, 8), 4)] := by decide +kernel
    refine ⟨by decide, fun _ _ => ⟨by decide +kernel, ?_⟩, ?_⟩
    · rw [hstate]
      intro m hm _
      obtain rfl := List.mem_singleton.mp hm
      decide +kernel
    · rintro m - ⟨hm, -⟩
      rw [hstate] at hm
      obtain rfl := List.mem_singleton.mp hm
      decide

/-- The gateway's worse metric is not heard, and the greatest metric of all wraps to zero. -/
theorem worse_metric_unheard :
    [heardFrom 2 2, heardFrom 2 10].flatMap Event.calls =
      [.hear ⟨192, 168, 0, 2⟩ "eth0" (tenNet 2), .hear ⟨192, 168, 0, 2⟩ "eth0" (tenNet 10)] ∧
    ¬ Heeds (run apply new [.hear ⟨192, 168, 0, 2⟩ "eth0" (tenNet 2)])
      (.hear ⟨192, 168, 0, 2⟩ "eth0" (tenNet 10)) ∧
    (run handle new [heardFrom 2 (2 ^ 32 - 1)]).routeMetrics = [((⟨10, 0, 0, 0⟩, 8), 0)] := by
  refine ⟨rfl, fun hheeds => ?_, by decide +kernel⟩
  have hstate : (new.apply (.hear ⟨192, 168, 0, 2⟩ "eth0" (tenNet 2))).routeMetrics =
      [((⟨10, 0, 0, 0⟩, 8), 3)] := by decide +kernel
  have hafter : ((new.apply (.hear ⟨192, 168, 0, 2⟩ "eth0" (tenNet 2))).apply
      (.hear ⟨192, 168, 0, 2⟩ "eth0" (tenNet 10))).routeMetrics = [((⟨10, 0, 0, 0⟩, 8), 3)] := by
    decide +kernel
  have hroute : ∃ r ∈ (new.apply (.hear ⟨192, 168, 0, 2⟩ "eth0" (tenNet 2))).routes.routes,
      r.key = masked (netOf (tenNet 10)) ∧ r.gateway = some ⟨192, 168, 0, 2⟩ := by
    decide +kernel
  have hworse := (hheeds rfl).2 ((⟨10, 0, 0, 0⟩, 8), 3) (by decide +kernel)
    ⟨hstate.symm ▸ List.mem_cons_self, by decide +kernel, hroute⟩
    (by decide)
  rw [if_pos (by decide)] at hworse
  obtain ⟨m, hm, -, hmetric⟩ := hworse
  change m ∈ ((new.apply (.hear ⟨192, 168, 0, 2⟩ "eth0" (tenNet 2))).apply
    (.hear ⟨192, 168, 0, 2⟩ "eth0" (tenNet 10))).routeMetrics at hm
  rw [hafter] at hm
  obtain rfl := List.mem_singleton.mp hm
  revert hmetric
  decide

end RipEngine

end ToyTcpip.Rip
