import ToyTcpip.Bgp.Stored

/-! What the decision processes choose. -/
namespace ToyTcpip.Bgp

theorem mem_of_selectBest {l : List BgpPath} {p : BgpPath} (h : selectBest l = some p) : p ∈ l := by
  rw [selectBest_eq_winner] at h
  exact Knockout.mem_of_winner h

theorem selectBestIpv6_eq_winner (l : List Ipv6Path) :
    selectBestIpv6 l = Knockout.winner (fun a b => compareIpv6Paths a b = .lt) l := by
  cases l <;> rfl

theorem mem_of_selectBestIpv6 {l : List Ipv6Path} {p : Ipv6Path} (h : selectBestIpv6 l = some p) :
    p ∈ l := by
  rw [selectBestIpv6_eq_winner] at h
  exact Knockout.mem_of_winner h

theorem selectBestEvpn_eq_winner (l : List EvpnPath) :
    selectBestEvpn l = Knockout.winner (fun a b => compareEvpnPaths a b = .lt) l := by
  cases l <;> rfl

theorem mem_of_selectBestEvpn {l : List EvpnPath} {p : EvpnPath} (h : selectBestEvpn l = some p) :
    p ∈ l := by
  rw [selectBestEvpn_eq_winner] at h
  exact Knockout.mem_of_winner h

namespace Rib

variable {κ π ρ ο : Type} [Ord κ] [Std.TransOrd κ] {rib : Rib κ π ρ ο} {k : κ} {p : π}
  {stale : π → Bool} {mkLocal : κ → ο → π}

/-- A contender was learned from a peer or is the route this speaker originates. -/
theorem of_mem_contenders (h : p ∈ rib.contenders stale mkLocal k) :
    (∃ a, rib.adjRibIn.get? a k = some p) ∨
      ∃ route, rib.originated[k]? = some route ∧ p = mkLocal k route := by
  simp only [contenders, List.mem_append, Option.mem_toList, Option.map_eq_some_iff] at h
  rcases h with h | ⟨route, hroute, rfl⟩
  · left
    apply Nested.mem_candidates.mp
    split at h
    · exact h
    · exact List.mem_of_mem_filter h
  · exact .inr ⟨route, hroute, rfl⟩

variable [Std.LawfulEqOrd κ] [DecidableEq κ]

theorem mem_decisionKeys : k ∈ rib.decisionKeys ↔
    (∃ a p, rib.adjRibIn.get? a k = some p) ∨ k ∈ rib.originated := by
  rw [decisionKeys, Std.TreeSet.mem_toList, Std.TreeSet.mem_insertMany_list, List.contains_iff_mem,
    Std.TreeMap.mem_keys, Nested.mem_keys]

theorem contenders_of_not_mem (h : k ∉ rib.decisionKeys) : rib.contenders stale mkLocal k = [] := by
  rw [mem_decisionKeys, not_or] at h
  apply List.eq_nil_iff_forall_not_mem.mpr
  intro p hp
  rcases of_mem_contenders hp with ⟨a, hget⟩ | ⟨route, hroute, -⟩
  · exact h.1 ⟨a, p, hget⟩
  · exact h.2 (Std.TreeMap.mem_iff_isSome_getElem?.mpr (by rw [hroute]; rfl))

theorem getElem?_winners [RoutePath π κ] {keys : List κ} {best : κ → Option π}
    (hbest : ∀ k p, best k = some p → RoutePath.key p = k) :
    (winners keys best)[k]? = if k ∈ keys then best k else none := by
  have hfold : ∀ f : Std.TreeMap κ π → κ → Std.TreeMap κ π,
      (∀ m k, f m k = (best k).elim m fun p => m.insert (RoutePath.key p) p) →
      ∀ (keys : List κ) (m : Std.TreeMap κ π),
        (keys.foldl f m)[k]? = if k ∈ keys then (best k).or m[k]? else m[k]? := by
    intro f hf keys
    induction keys with
    | nil => simp
    | cons k' rest ih =>
      intro m
      rw [List.foldl_cons, ih, hf]
      by_cases hk : k = k'
      · subst hk
        cases hb : best k with
        | none => simp
        | some p => simp [hbest k p hb]
      · cases hb : best k' with
        | none => simp [hk]
        | some p =>
          simp only [Option.elim_some, hbest k' p hb, Std.TreeMap.getElem?_insert,
            Std.compare_eq_iff_eq, Ne.symm hk, ↓reduceIte, List.mem_cons, hk, false_or]
  refine (hfold _ ?_ keys ∅).trans ?_
  · intro m k
    cases best k with
    | some p => rfl
    | none => rfl
  · simp

end Rib

namespace BgpRouter

variable {r : BgpRouter} {nowMs : ℕ}

/-- The paths that compete for a prefix. -/
def ipv4Contenders (r : BgpRouter) (k : Ipv4Prefix) : List BgpPath :=
  r.ipv4.contenders (fun p => r.routeIsGracefulRestartStale p.peerAddr .ipv4Unicast p.receivedAtMs)
    (fun pfx nextHop => .local pfx nextHop r.routerId) k

def ipv6Contenders (r : BgpRouter) (k : Ipv6Prefix) : List Ipv6Path :=
  r.ipv6.contenders (fun p => r.routeIsGracefulRestartStale p.peerAddr .ipv6Unicast p.receivedAtMs)
    (fun pfx nextHop => .local pfx nextHop r.routerId) k

theorem getElem?_decision (h : RibPlaced r.ipv4) (k : Ipv4Prefix) :
    r.decision[k]? = selectBest (r.ipv4Contenders k) := by
  rw [decision, Rib.getElem?_winners]
  · split
    · rfl
    · rename_i hk
      rw [ipv4Contenders, Rib.contenders_of_not_mem hk]
      rfl
  · intro k p hp
    rcases Rib.of_mem_contenders (mem_of_selectBest hp) with ⟨a, hget⟩ | ⟨route, -, rfl⟩
    · exact (h a k p hget).1
    · rfl

theorem getElem?_ipv6Decision (h : RibPlaced r.ipv6) (k : Ipv6Prefix) :
    r.ipv6Decision[k]? = selectBestIpv6 (r.ipv6Contenders k) := by
  rw [ipv6Decision, Rib.getElem?_winners]
  · split
    · rfl
    · rename_i hk
      rw [ipv6Contenders, Rib.contenders_of_not_mem hk]
      rfl
  · intro k p hp
    rcases Rib.of_mem_contenders (mem_of_selectBestIpv6 hp) with ⟨a, hget⟩ | ⟨route, -, rfl⟩
    · exact (h a k p hget).1
    · rfl

theorem key_of_mem_evpnContenders (h : RibPlaced r.evpn) (hkeyed : EvpnKeyed r) {k : EvpnRouteKey}
    {p : EvpnPath} (hp : p ∈ r.evpnContenders nowMs k) : p.key = k := by
  rcases Rib.of_mem_contenders hp with ⟨a, hget⟩ | ⟨route, hroute, rfl⟩
  · exact (h a k p hget).1
  · exact hkeyed k route hroute

theorem getElem?_evpnDecision (h : RibPlaced r.evpn) (hkeyed : EvpnKeyed r) (nowMs : ℕ)
    (k : EvpnRouteKey) : (r.evpnDecision nowMs)[k]? =
      selectBestEvpn ((r.evpnContenders nowMs k).filter fun p => p.isLocal || p.importable) := by
  rw [evpnDecision, Rib.getElem?_winners]
  · split
    · rfl
    · rename_i hk
      rw [evpnContenders, Rib.contenders_of_not_mem hk]
      rfl
  · intro k p hp
    exact key_of_mem_evpnContenders h hkeyed (List.mem_of_mem_filter (mem_of_selectBestEvpn hp))

theorem getElem?_evpnAdvertiseDecision (h : RibPlaced r.evpn) (hkeyed : EvpnKeyed r) (nowMs : ℕ)
    (k : EvpnRouteKey) :
    (r.evpnAdvertiseDecision nowMs)[k]? = selectBestEvpn (r.evpnContenders nowMs k) := by
  rw [evpnAdvertiseDecision, Rib.getElem?_winners]
  · split
    · rfl
    · rename_i hk
      rw [evpnContenders, Rib.contenders_of_not_mem hk]
      rfl
  · intro k p hp
    exact key_of_mem_evpnContenders h hkeyed (mem_of_selectBestEvpn hp)

end BgpRouter

/-! ### Only a decision changes the choice -/

structure SameChoice (r r' : BgpRouter) : Prop where
  ipv4 : r'.ipv4.locRib = r.ipv4.locRib
  ipv6 : r'.ipv6.locRib = r.ipv6.locRib
  evpn : r'.evpn.locRib = r.evpn.locRib
  evpnAdvertiseRib : r'.evpnAdvertiseRib = r.evpnAdvertiseRib

section

variable {nowMs idx : ℕ} {r r' : BgpRouter} {cs : List Call}

theorem SameChoice.refl : SameChoice r r := ⟨rfl, rfl, rfl, rfl⟩

theorem OnlyTold.sameChoice (h : OnlyTold r r') : SameChoice r r' :=
  ⟨h.ipv4.locRib, h.ipv6.locRib, h.evpn.locRib, h.evpnAdvertiseRib⟩

theorem Retired.sameChoice {families : AfiSafi → Bool} {stale : Std.TreeSet AfiSafi}
    {deadline cutoff : Option ℕ} (h : Retired r idx families stale deadline cutoff r') :
    SameChoice r r' := by
  obtain ⟨r₁, hpurged, rfl⟩ := h
  exact ⟨hpurged.ipv4.locRib, hpurged.ipv6.locRib, hpurged.evpn.locRib, hpurged.evpnAdvertiseRib⟩

theorem locRib_downRib {κ π ρ ο : Type} [Ord κ] [RoutePath π κ] {rib : Rib κ π ρ ο}
    {addr : Ipv4Address} {preserve : Bool} :
    (BgpRouter.downRib rib addr preserve).locRib = rib.locRib := by
  cases preserve <;> rfl

theorem Step.choice (h : Step nowMs r cs r') : SameChoice r r' ∨ r' = r.decideWhereDirty nowMs := by
  cases h with
  | talk h => exact .inl h.onlyTold.sameChoice
  | moved | confirmed | established | adopted | storedIpv4 | storedIpv6 | storedEvpn =>
    exact .inl ⟨rfl, rfl, rfl, rfl⟩
  | @reconciled idx negotiated peerCaps hidx hstate =>
    left
    by_cases h : (r.peerAt idx).gracefulRestartActive
    · obtain ⟨left, -, hretired⟩ : BgpRouter.Reconciled r idx nowMs _ _ :=
        BgpRouter.reconciled_reconcile negotiated peerCaps hidx h
      exact hretired.sameChoice
    · simpa [BgpRouter.reconcileGracefulRestartOpen, h] using SameChoice.refl
  | torn => exact .inl ⟨locRib_downRib, locRib_downRib, locRib_downRib, rfl⟩
  | droppedIpv4 => exact .inl ⟨Rib.withdrawAll_locRib, rfl, rfl, rfl⟩
  | droppedIpv6 => exact .inl ⟨rfl, Rib.withdrawAll_locRib, rfl, rfl⟩
  | droppedEvpn => exact .inl ⟨rfl, rfl, Rib.withdrawAll_locRib, rfl⟩
  | @completed idx family hidx hstate =>
    left
    by_cases h : (r.peerAt idx).gracefulRestartStale.contains family
    · exact (BgpRouter.retired_complete hidx h).sameChoice
    · simpa [BgpRouter.completeGracefulRestartFamily, h] using SameChoice.refl
  | flushed => exact .inl BgpRouter.retired_flush.sameChoice
  | decided => exact .inr rfl

theorem Configured.sameChoice (h : Configured r r') : SameChoice r r' :=
  ⟨h.ipv4.locRib, h.ipv6.locRib, h.evpn.locRib, h.evpnAdvertiseRib⟩

end

/-! ### Learned prefixes are canonical -/

/-- A best path that was learned is for a canonical prefix. -/
def LocCanonical (r : BgpRouter) : Prop :=
  ∀ (k : Ipv4Prefix) (p : BgpPath), r.ipv4.locRib[k]? = some p → p.isLocal = false → k.Canonical

theorem locCanonical_decide {r : BgpRouter} {nowMs : ℕ} (h : Stored r) (hloc : LocCanonical r) :
    LocCanonical (r.decideWhereDirty nowMs) := by
  intro k p hp hlocal
  rw [decideWhereDirty_eq] at hp
  simp only at hp
  split at hp
  · have hp : r.decision[k]? = some p := hp
    rw [BgpRouter.getElem?_decision h.ipv4] at hp
    rcases Rib.of_mem_contenders (mem_of_selectBest hp) with ⟨a, hget⟩ | ⟨route, -, rfl⟩
    · exact h.canonical a k p hget
    · simp [BgpPath.isLocal, BgpPath.local] at hlocal
  · exact hloc k p hp hlocal

theorem locCanonical_invariant :
    StepInvariant (fun _ => True) fun r _ _ => Stored r ∧ LocCanonical r where
  start localAs routerId := by
    refine ⟨stored_new localAs routerId, fun k p hp => ?_⟩
    simp [BgpRouter.new] at hp
  later h _ := h
  step := by
    intro r cs r' log t _ hs _ h
    refine ⟨h.1.step hs, ?_⟩
    rcases hs.choice with hsame | rfl
    · intro k p hp
      rw [hsame.ipv4] at hp
      exact h.2 k p hp
    · exact locCanonical_decide h.1 h.2
  configure := by
    intro r r' log t hc h
    refine ⟨h.1.configured hc, fun k p hp => ?_⟩
    rw [hc.ipv4.locRib] at hp
    exact h.2 k p hp

end ToyTcpip.Bgp
