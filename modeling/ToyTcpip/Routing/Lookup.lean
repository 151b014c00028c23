import ToyTcpip.Lib.BitPrefix
import ToyTcpip.Lib.Reconcile
import ToyTcpip.Routing.Table6

/-! Lookups in a routing table find the best match, whatever calls built the table. -/
namespace ToyTcpip.Routing

open Ranked (Best Precedes)
open Reconcile

/-! ### Matching is agreement on the prefix -/

/-- The address agrees with the entry's destination on the entry's prefix. -/
def InPrefix (e : RouteEntry) (ip : Ipv4Address) : Prop :=
  BitPrefix.Same e.prefixLen ip.toU32 e.destination.toU32

theorem matchesAddr_iff {e : RouteEntry} {ip : Ipv4Address} (hlen : e.prefixLen ≤ 32)
    (hmask : e.netmask = netmaskOf e.prefixLen) : e.matchesAddr ip = true ↔ InPrefix e ip := by
  rw [RouteEntry.matchesAddr, decide_eq_true_iff, hmask, netmaskOf_eq hlen,
    BitPrefix.and_allOnes_shiftLeft_eq_iff, Nat.sub_sub_self hlen]
  rfl

/-- Bit `i` of an IPv6 address, counted from the most significant one. -/
def addressBit (ip : Ipv6Address) (i : ℕ) : Bool :=
  if h : i / 8 < 16 then (ip.bytes[i / 8]).toBitVec.getMsbD (i % 8) else false

def InPrefix6 (e : Ipv6RouteEntry) (ip : Ipv6Address) : Prop :=
  ∀ i < e.prefixLen, addressBit ip i = addressBit e.destination i

theorem byte_eq_iff {x y : UInt8} : x = y ↔ BitPrefix.Same 8 x.toBitVec y.toBitVec := by
  constructor
  · rintro rfl i _
    rfl
  · intro h
    apply UInt8.toBitVec_inj.mp
    apply BitVec.eq_of_getMsbD_eq
    exact h

theorem byte_mask_eq_iff {x y : UInt8} {rem : ℕ} (h₀ : 0 < rem) (h : rem < 8) :
    x &&& ((0xff : UInt8) <<< UInt8.ofNat (8 - rem)) =
      y &&& ((0xff : UInt8) <<< UInt8.ofNat (8 - rem)) ↔
    BitPrefix.Same rem x.toBitVec y.toBitVec := by
  have hmask : ((0xff : UInt8) <<< UInt8.ofNat (8 - rem)).toBitVec =
      BitVec.allOnes 8 <<< (8 - rem) := by
    interval_cases rem <;> rfl
  rw [← UInt8.toBitVec_inj, UInt8.toBitVec_and, UInt8.toBitVec_and, hmask,
    BitPrefix.and_allOnes_shiftLeft_eq_iff, Nat.sub_sub_self h.le]

theorem mask_eq_mask_iff {len : ℕ} (h : len ≤ 128) (x y : Ipv6Address) :
    x.mask len = y.mask len ↔ ∀ i < len, addressBit x i = addressBit y i := by
  have hbytes : x.mask len = y.mask len ↔ ∀ j (hj : j < 16),
      (x.mask len).bytes[j] = (y.mask len).bytes[j] := by
    constructor
    · intro heq j hj
      rw [heq]
    · intro heq
      have hvec : (x.mask len).bytes = (y.mask len).bytes := Vector.ext heq
      calc x.mask len = ⟨(x.mask len).bytes⟩ := rfl
        _ = y.mask len := by rw [hvec]
  rw [hbytes]
  simp only [Ipv6Address.mask, Vector.getElem_ofFn, Nat.min_eq_left h, Fin.getElem_fin]
  constructor
  · intro heq i hi
    have hdiv : i / 8 < 16 := by omega
    have hj := heq (i / 8) hdiv
    simp only [addressBit, hdiv, dif_pos]
    split at hj
    · exact byte_eq_iff.mp hj (i % 8) (by omega)
    · rw [if_pos (by omega), if_pos (by omega)] at hj
      exact (byte_mask_eq_iff (by omega) (by omega)).mp hj (i % 8) (by omega)
  · intro hbits j hj
    have hbit : ∀ k < 8, 8 * j + k < len →
        (x.bytes[j]).toBitVec.getMsbD k = (y.bytes[j]).toBitVec.getMsbD k := by
      intro k hk hlt
      have hb := hbits (8 * j + k) hlt
      have hdiv : (8 * j + k) / 8 = j := by omega
      have hmod : (8 * j + k) % 8 = k := by omega
      simpa [addressBit, hdiv, hmod, hj] using hb
    split_ifs with hwhole hlast
    · exact byte_eq_iff.mpr fun k hk => hbit k hk (by omega)
    · exact (byte_mask_eq_iff (by omega) (by omega)).mpr fun k hk => hbit k (by omega) (by omega)
    · rfl

/-! ### What every call keeps -/

/-- Entries are in order of preference and built by the constructor. -/
structure Ordered (t : RoutingTable) : Prop where
  sorted : t.routes.Pairwise (Precedes RouteEntry.prefixLen RouteEntry.distance)
  built : ∀ e ∈ t.routes, e.prefixLen ≤ 32 ∧ e.netmask = netmaskOf e.prefixLen

structure Ordered6 (t : Ipv6RoutingTable) : Prop where
  sorted : t.routes.Pairwise (Precedes Ipv6RouteEntry.prefixLen Ipv6RouteEntry.distance)
  built : ∀ e ∈ t.routes, e.prefixLen ≤ 128 ∧ e.destination.mask e.prefixLen = e.destination

theorem mem_replaceOrPush {α : Type} {p : α → Bool} {a new : α} {l : List α}
    (h : a ∈ replaceOrPush p new l) : a ∈ l ∨ a = new := by
  unfold replaceOrPush at h
  split at h
  · exact List.mem_or_eq_of_mem_set h
  · simpa using h

theorem Ordered.filter {t : RoutingTable} (h : Ordered t) (p : RouteEntry → Bool) :
    Ordered ⟨t.routes.filter p⟩ :=
  ⟨h.sorted.filter p, fun e he => h.built e (List.mem_of_mem_filter he)⟩

theorem ordered_sort {routes : List RouteEntry}
    (h : ∀ e ∈ routes, e.prefixLen ≤ 32 ∧ e.netmask = netmaskOf e.prefixLen) :
    Ordered (RoutingTable.sort ⟨routes⟩) :=
  ⟨Ranked.pairwise_arrange _, fun e he => h e (Ranked.mem_arrange.mp he)⟩

theorem Ordered.step {t : RoutingTable} (h : Ordered t) (call : RouteCall Ipv4Address) :
    Ordered (t.step call) := by
  cases call with
  | addRouteFrom d len gw i s =>
    refine ordered_sort fun e he => ?_
    rcases mem_replaceOrPush he with he | rfl
    · exact h.built e he
    · exact ⟨min_le_right _ _, rfl⟩
  | addMultipathRouteFrom d len gw i s =>
    simp only [RoutingTable.step, RoutingTable.addMultipathRouteFrom]
    split
    · exact h
    · refine ordered_sort fun e he => ?_
      rcases List.mem_append.mp he with he | he
      · exact h.built e he
      · obtain rfl := List.mem_singleton.mp he
        exact ⟨min_le_right _ _, rfl⟩
  | removeRoute d len s => exact h.filter _
  | removeRouteVia d len gw i s => exact h.filter _
  | removeAllFrom s => exact h.filter _

theorem Ordered6.filter {t : Ipv6RoutingTable} (h : Ordered6 t) (p : Ipv6RouteEntry → Bool) :
    Ordered6 ⟨t.routes.filter p⟩ :=
  ⟨h.sorted.filter p, fun e he => h.built e (List.mem_of_mem_filter he)⟩

theorem ordered6_sort {routes : List Ipv6RouteEntry}
    (h : ∀ e ∈ routes, e.prefixLen ≤ 128 ∧ e.destination.mask e.prefixLen = e.destination) :
    Ordered6 (Ipv6RoutingTable.sort ⟨routes⟩) :=
  ⟨Ranked.pairwise_arrange _, fun e he => h e (Ranked.mem_arrange.mp he)⟩

theorem Ordered6.step {t : Ipv6RoutingTable} (h : Ordered6 t) (call : RouteCall Ipv6Address) :
    Ordered6 (t.step call) := by
  cases call with
  | addRouteFrom d len gw i s =>
    refine ordered6_sort fun e he => ?_
    rcases mem_replaceOrPush he with he | rfl
    · exact h.built e he
    · exact ⟨min_le_right _ _, Ipv6Address.mask_mask _ _⟩
  | addMultipathRouteFrom d len gw i s =>
    simp only [Ipv6RoutingTable.step, Ipv6RoutingTable.addMultipathRouteFrom]
    split
    · exact h
    · refine ordered6_sort fun e he => ?_
      rcases List.mem_append.mp he with he | he
      · exact h.built e he
      · obtain rfl := List.mem_singleton.mp he
        exact ⟨min_le_right _ _, Ipv6Address.mask_mask _ _⟩
  | removeRoute d len s => exact h.filter _
  | removeRouteVia d len gw i s => exact h.filter _
  | removeAllFrom s => exact h.filter _

/-! ### Adding a route -/

theorem replaceOrPush_cons {α : Type} {p : α → Bool} {new a : α} {l : List α} :
    replaceOrPush p new (a :: l) = if p a then new :: l else a :: replaceOrPush p new l := by
  simp only [replaceOrPush, List.findIdx?_cons]
  by_cases ha : p a = true
  · simp [ha]
  · cases hf : l.findIdx? p <;> simp [ha]

section put

variable {E κ : Type} {own : E → Bool} {key : E → κ} {l : List E} {e : E}

theorem put_replaceOrPush {p : E → Bool} (hp : ∀ r, p r = true ↔ key r = key e ∧ own r = true)
    (h : Unique own key l) (he : own e = true) : Put own key l e (replaceOrPush p e l) := by
  induction l with
  | nil =>
    refine ⟨fun r _ => by simp [replaceOrPush], by simp [replaceOrPush, others, he], ?_⟩
    exact unique_cons.mpr ⟨by simp, unique_nil⟩
  | cons a l ih =>
    obtain ⟨hfresh, hl⟩ := unique_cons.mp h
    have ih := ih hl
    rw [replaceOrPush_cons]
    by_cases ha : p a = true
    · obtain ⟨hkey, hown⟩ := (hp a).mp ha
      have hfresh : ∀ r ∈ l, own r = true → key r ≠ key e := hkey ▸ hfresh hown
      rw [if_pos ha]
      refine ⟨fun r hr => ?_, by simp [others, he, hown], unique_cons.mpr ⟨fun _ => hfresh, hl⟩⟩
      simp only [List.mem_cons]
      constructor
      · rintro (rfl | hin)
        · exact .inl rfl
        · exact .inr ⟨.inr hin, hfresh r hin hr⟩
      · rintro (rfl | ⟨rfl | hin, hne⟩)
        · exact .inl rfl
        · exact absurd hkey hne
        · exact .inr hin
    · have hnot : ¬(key a = key e ∧ own a = true) := fun hk => ha ((hp a).mpr hk)
      rw [if_neg ha]
      refine ⟨fun r hr => ?_, ?_, unique_cons.mpr ⟨fun hown r hr hor => ?_, ih.unique⟩⟩
      · simp only [List.mem_cons, ih.mem r hr]
        constructor
        · rintro (rfl | rfl | ⟨hin, hne⟩)
          · exact .inr ⟨.inl rfl, fun hk => hnot ⟨hk, hr⟩⟩
          · exact .inl rfl
          · exact .inr ⟨.inr hin, hne⟩
        · rintro (rfl | ⟨rfl | hin, hne⟩)
          · exact .inr (.inl rfl)
          · exact .inl rfl
          · exact .inr (.inr ⟨hin, hne⟩)
      · have hothers := ih.others
        simp only [others, List.filter_cons] at hothers ⊢
        rw [hothers]
      · rcases (ih.mem r hor).mp hr with rfl | ⟨hin, -⟩
        · exact fun hk => hnot ⟨hk.symm, hown⟩
        · exact hfresh hown r hin hor

/-- Sorting by preference afterwards moves none of the other entries. -/
theorem put_arrange {len dist : E → ℕ} {l' : List E} (h : Put own key l e l')
    (hsorted : l.Pairwise (Ranked.Precedes len dist)) :
    Put own key l e (Ranked.arrange len dist l') where
  mem r hr := by rw [Ranked.mem_arrange, h.mem r hr]
  others := by
    rw [← h.others]
    refine others_insertionSort ?_
    rw [h.others]
    exact hsorted.sublist List.filter_sublist
  unique := unique_insertionSort h.unique

end put

/-! ### Lookups -/

/-- The route is a best one for the address: it matches, no matching route has a longer prefix,
and none with the same prefix length a smaller distance. -/
def BestRoute (t : RoutingTable) (ip : Ipv4Address) (e : RouteEntry) : Prop :=
  Best RouteEntry.prefixLen RouteEntry.distance (fun r => InPrefix r ip) t.routes e

def BestRoute6 (t : Ipv6RoutingTable) (ip : Ipv6Address) (e : Ipv6RouteEntry) : Prop :=
  Best Ipv6RouteEntry.prefixLen Ipv6RouteEntry.distance (fun r => InPrefix6 r ip) t.routes e

theorem best_congr {α : Type} {len dist : α → ℕ} {p q : α → Prop} {l : List α} {a : α}
    (h : ∀ b ∈ l, p b ↔ q b) : Best len dist p l a ↔ Best len dist q l a := by
  constructor
  · rintro ⟨hmem, hfits, hlong, hnear⟩
    exact ⟨hmem, (h a hmem).mp hfits, fun b hb hq => hlong b hb ((h b hb).mpr hq),
      fun b hb hq => hnear b hb ((h b hb).mpr hq)⟩
  · rintro ⟨hmem, hfits, hlong, hnear⟩
    exact ⟨hmem, (h a hmem).mpr hfits, fun b hb hp => hlong b hb ((h b hb).mp hp),
      fun b hb hp => hnear b hb ((h b hb).mp hp)⟩

section ipv4

variable {t : RoutingTable} {ip : Ipv4Address} {e : RouteEntry}

theorem Ordered.bestRoute_iff (h : Ordered t) : BestRoute t ip e ↔
    Best RouteEntry.prefixLen RouteEntry.distance (fun r => r.matchesAddr ip = true) t.routes e :=
  best_congr fun r hr => (matchesAddr_iff (h.built r hr).1 (h.built r hr).2).symm

theorem Ordered.lookup_best (h : Ordered t) (he : t.lookup ip = some e) : BestRoute t ip e :=
  h.bestRoute_iff.mpr (Ranked.find?_best h.sorted he)

theorem Ordered.lookup_none (h : Ordered t) :
    t.lookup ip = none ↔ ∀ r ∈ t.routes, ¬ InPrefix r ip := by
  rw [RoutingTable.lookup, List.find?_eq_none]
  exact forall₂_congr fun r hr => not_congr (matchesAddr_iff (h.built r hr).1 (h.built r hr).2)

theorem Ordered.mem_candidates (h : Ordered t) {best : RouteEntry} (hb : BestRoute t ip best) :
    e ∈ t.candidates ip best ↔ BestRoute t ip e := by
  rw [h.bestRoute_iff]
  exact Ranked.mem_tied (h.bestRoute_iff.mp hb)

theorem Ordered.mem_lookupBestRoutes (h : Ordered t) :
    e ∈ t.lookupBestRoutes ip ↔ BestRoute t ip e := by
  unfold RoutingTable.lookupBestRoutes
  split
  · rename_i hnone
    have hno := h.lookup_none.mp hnone
    simp only [List.not_mem_nil, false_iff]
    exact fun hb => hno e hb.mem hb.fits
  · rename_i best hbest
    exact h.mem_candidates (h.lookup_best hbest)

theorem Ordered.lookupBestRouteByHash (h : Ordered t) (hash : UInt64) :
    (t.lookupBestRouteByHash ip hash = none ↔ t.lookup ip = none) ∧
    ∀ e, t.lookupBestRouteByHash ip hash = some e → BestRoute t ip e := by
  unfold RoutingTable.lookupBestRouteByHash
  cases hl : t.lookup ip with
  | none => simp
  | some best =>
    have hb := h.lookup_best hl
    refine ⟨?_, fun e he => (h.mem_candidates hb).mp (Ranked.mem_of_nth he)⟩
    have hne := List.ne_nil_of_mem ((h.mem_candidates hb).mpr hb)
    simpa [Ranked.nth_eq_none] using hne

theorem Ordered.lookupResilientRouteByHash (h : Ordered t) (hash : UInt64) :
    (t.lookupResilientRouteByHash ip hash = none ↔ t.lookup ip = none) ∧
    ∀ e, t.lookupResilientRouteByHash ip hash = some e → BestRoute t ip e := by
  refine ⟨?_, fun e he => h.mem_lookupBestRoutes.mp (Ranked.mem_of_maxBy he)⟩
  rw [RoutingTable.lookupResilientRouteByHash, Ranked.maxBy_eq_none]
  constructor
  · intro hnil
    by_contra hsome
    obtain ⟨best, hbest⟩ := Option.ne_none_iff_exists'.mp hsome
    have hmem := h.mem_lookupBestRoutes.mpr (h.lookup_best hbest)
    simp [hnil] at hmem
  · intro hnone
    simp [RoutingTable.lookupBestRoutes, hnone]

end ipv4

section ipv6

variable {t : Ipv6RoutingTable} {ip : Ipv6Address} {e : Ipv6RouteEntry}

theorem Ordered6.matches_iff (h : Ordered6 t) {r : Ipv6RouteEntry} (hr : r ∈ t.routes) :
    r.matchesAddr ip = true ↔ InPrefix6 r ip := by
  obtain ⟨hlen, hmask⟩ := h.built r hr
  rw [Ipv6RouteEntry.matchesAddr, decide_eq_true_iff]
  conv_lhs => rw [← hmask]
  exact mask_eq_mask_iff hlen _ _

theorem Ordered6.bestRoute_iff (h : Ordered6 t) : BestRoute6 t ip e ↔
    Best Ipv6RouteEntry.prefixLen Ipv6RouteEntry.distance (fun r => r.matchesAddr ip = true)
      t.routes e :=
  best_congr fun _ hr => (h.matches_iff hr).symm

theorem Ordered6.mem_candidates (h : Ordered6 t) {best : Ipv6RouteEntry}
    (hb : BestRoute6 t ip best) : e ∈ t.candidates ip best ↔ BestRoute6 t ip e := by
  rw [h.bestRoute_iff]
  exact Ranked.mem_tied (h.bestRoute_iff.mp hb)

theorem Ordered6.nth_candidates (h : Ordered6 t) {best : Ipv6RouteEntry}
    (hb : BestRoute6 t ip best) (hash : ℕ) :
    Ranked.nth (t.candidates ip best) hash ≠ none ∧
    ∀ e, Ranked.nth (t.candidates ip best) hash = some e → BestRoute6 t ip e := by
  refine ⟨?_, fun e he => (h.mem_candidates hb).mp (Ranked.mem_of_nth he)⟩
  rw [ne_eq, Ranked.nth_eq_none]
  exact List.ne_nil_of_mem ((h.mem_candidates hb).mpr hb)

theorem Ordered6.lookup (h : Ordered6 t) :
    (t.lookup ip = none ↔ ∀ r ∈ t.routes, ¬ InPrefix6 r ip) ∧
    ∀ e, t.lookup ip = some e → BestRoute6 t ip e := by
  unfold Ipv6RoutingTable.lookup
  cases hf : t.routes.find? fun r => r.matchesAddr ip with
  | none =>
    have hno := List.find?_eq_none.mp hf
    simp only [Option.bind_none, true_iff, reduceCtorEq, false_implies, implies_true, and_true]
    exact fun r hr => mt (h.matches_iff hr).mpr (hno r hr)
  | some best =>
    have hb := h.bestRoute_iff.mpr (Ranked.find?_best h.sorted hf)
    obtain ⟨hne, hbest⟩ := h.nth_candidates hb (destinationAffinityHash ip).toNat
    refine ⟨iff_of_false hne fun hno => hno best hb.mem hb.fits, hbest⟩

theorem Ordered6.mem_lookupBestRoutes (h : Ordered6 t) :
    e ∈ t.lookupBestRoutes ip ↔ BestRoute6 t ip e := by
  unfold Ipv6RoutingTable.lookupBestRoutes
  split
  · rename_i hnone
    have hno := h.lookup.1.mp hnone
    simp only [List.not_mem_nil, false_iff]
    exact fun hb => hno e hb.mem hb.fits
  · rename_i best hbest
    exact h.mem_candidates (h.lookup.2 best hbest)

theorem Ordered6.lookupBestRouteByHash (h : Ordered6 t) (hash : UInt64) :
    (t.lookupBestRouteByHash ip hash = none ↔ t.lookup ip = none) ∧
    ∀ e, t.lookupBestRouteByHash ip hash = some e → BestRoute6 t ip e := by
  unfold Ipv6RoutingTable.lookupBestRouteByHash
  cases hl : t.lookup ip with
  | none => simp
  | some best =>
    obtain ⟨hne, hbest⟩ := h.nth_candidates (h.lookup.2 best hl) hash.toNat
    exact ⟨iff_of_false hne nofun, hbest⟩

end ipv6

/-- The answer is a best route for the address, or nothing where no route matches it. -/
def Answers (t : RoutingTable) (ip : Ipv4Address) (answer : Option RouteEntry) : Prop :=
  (∀ e, answer = some e → BestRoute t ip e) ∧
    (answer = none ↔ ∀ r ∈ t.routes, ¬ InPrefix r ip)

def Answers6 (t : Ipv6RoutingTable) (ip : Ipv6Address) (answer : Option Ipv6RouteEntry) : Prop :=
  (∀ e, answer = some e → BestRoute6 t ip e) ∧
    (answer = none ↔ ∀ r ∈ t.routes, ¬ InPrefix6 r ip)

def RoutingTable.run (calls : List (RouteCall Ipv4Address)) : RoutingTable :=
  calls.foldl RoutingTable.step .new

def Ipv6RoutingTable.run (calls : List (RouteCall Ipv6Address)) : Ipv6RoutingTable :=
  calls.foldl Ipv6RoutingTable.step .new

theorem ordered_run (calls : List (RouteCall Ipv4Address)) : Ordered (.run calls) := by
  induction calls using List.reverseRecOn with
  | nil => exact ⟨.nil, by simp [RoutingTable.run, RoutingTable.new]⟩
  | append_singleton calls call ih =>
    rw [RoutingTable.run, List.foldl_append]
    exact ih.step call

theorem ordered6_run (calls : List (RouteCall Ipv6Address)) : Ordered6 (.run calls) := by
  induction calls using List.reverseRecOn with
  | nil => exact ⟨.nil, by simp [Ipv6RoutingTable.run, Ipv6RoutingTable.new]⟩
  | append_singleton calls call ih =>
    rw [Ipv6RoutingTable.run, List.foldl_append]
    exact ih.step call

/-- Whatever calls built the tables, every lookup is a longest-prefix match of least distance,
and the multipath lookups range over exactly the routes tied for it. -/
theorem lookups_find_best :
    (∀ calls ip, let t := RoutingTable.run calls
      Answers t ip (t.lookup ip) ∧ (∀ e, e ∈ t.lookupBestRoutes ip ↔ BestRoute t ip e) ∧
      (∀ hash, Answers t ip (t.lookupBestRouteByHash ip hash)) ∧
      (∀ flow, Answers t flow.destination (t.lookupBestRouteForFlow flow)) ∧
      (∀ flow, Answers t flow.destination (t.lookupResilientRouteForFlow flow)) ∧
      ∀ source protocol identification,
        Answers t ip (t.lookupResilientRouteForFragment source ip protocol identification)) ∧
    (∀ calls ip, let t := Ipv6RoutingTable.run calls
      Answers6 t ip (t.lookup ip) ∧ (∀ e, e ∈ t.lookupBestRoutes ip ↔ BestRoute6 t ip e) ∧
      (∀ hash, Answers6 t ip (t.lookupBestRouteByHash ip hash)) ∧
      ∀ flow, Answers6 t flow.destination (t.lookupBestRouteForFlow flow)) := by
  constructor
  · intro calls ip t
    have h : Ordered t := ordered_run calls
    have hash : ∀ ip hash, Answers t ip (t.lookupBestRouteByHash ip hash) := fun ip hash =>
      ⟨(h.lookupBestRouteByHash hash).2, (h.lookupBestRouteByHash hash).1.trans h.lookup_none⟩
    have resilient : ∀ ip hash, Answers t ip (t.lookupResilientRouteByHash ip hash) :=
      fun ip hash => ⟨(h.lookupResilientRouteByHash hash).2,
        (h.lookupResilientRouteByHash hash).1.trans h.lookup_none⟩
    exact ⟨⟨fun e => h.lookup_best, h.lookup_none⟩, fun e => h.mem_lookupBestRoutes, hash ip,
      fun flow => hash _ _, fun flow => resilient _ _, fun _ _ _ => resilient _ _⟩
  · intro calls ip t
    have h : Ordered6 t := ordered6_run calls
    have hash : ∀ ip hash, Answers6 t ip (t.lookupBestRouteByHash ip hash) := fun ip hash =>
      ⟨(h.lookupBestRouteByHash hash).2, (h.lookupBestRouteByHash hash).1.trans h.lookup.1⟩
    exact ⟨⟨h.lookup.2, h.lookup.1⟩, fun e => h.mem_lookupBestRoutes, hash ip, fun flow => hash _ _⟩

/-- The longer of two matching prefixes wins over the nearer source. -/
example : ((RoutingTable.run [
    .addRouteFrom ⟨10, 0, 0, 0⟩ 8 none "eth0" .connected,
    .addRouteFrom ⟨10, 1, 0, 0⟩ 16 (some ⟨10, 0, 0, 9⟩) "eth1" .rip]).lookup ⟨10, 1, 2, 3⟩).map
      RouteEntry.interface = some "eth1" := by decide +kernel

end ToyTcpip.Routing
