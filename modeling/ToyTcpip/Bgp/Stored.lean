import ToyTcpip.Bgp.Reachable

/-! Which paths the tables of a reachable speaker hold. -/
namespace ToyTcpip.Bgp

/-! ### Speaking changes no path -/

/-- The tables are the same but for what was advertised. -/
structure RibTold {κ π ρ ο : Type} [Ord κ] (rib rib' : Rib κ π ρ ο) : Prop where
  adjRibIn : rib'.adjRibIn = rib.adjRibIn
  locRib : rib'.locRib = rib.locRib
  originated : rib'.originated = rib.originated
  dirty : rib'.dirty = rib.dirty

theorem RibTold.refl {κ π ρ ο : Type} [Ord κ] {rib : Rib κ π ρ ο} : RibTold rib rib :=
  ⟨rfl, rfl, rfl, rfl⟩

theorem RibTold.trans {κ π ρ ο : Type} [Ord κ] {rib rib' rib'' : Rib κ π ρ ο} (h : RibTold rib rib')
    (h' : RibTold rib' rib'') : RibTold rib rib'' :=
  ⟨h'.adjRibIn.trans h.adjRibIn, h'.locRib.trans h.locRib, h'.originated.trans h.originated,
    h'.dirty.trans h.dirty⟩

structure OnlyTold (r r' : BgpRouter) : Prop where
  settings : r'.settings = r.settings
  ipv4 : RibTold r.ipv4 r'.ipv4
  ipv6 : RibTold r.ipv6 r'.ipv6
  evpn : RibTold r.evpn r'.evpn
  evpnAdvertiseRib : r'.evpnAdvertiseRib = r.evpnAdvertiseRib

section

variable {nowMs : ℕ} {r r' r'' : BgpRouter} {cs : List Call}

theorem OnlyTold.refl : OnlyTold r r := ⟨rfl, .refl, .refl, .refl, rfl⟩

theorem OnlyTold.trans (h : OnlyTold r r') (h' : OnlyTold r' r'') : OnlyTold r r'' :=
  ⟨h'.settings.trans h.settings, h.ipv4.trans h'.ipv4, h.ipv6.trans h'.ipv6, h.evpn.trans h'.evpn,
    h'.evpnAdvertiseRib.trans h.evpnAdvertiseRib⟩

theorem Plane.Replays.onlyTold {κ π ρ ο : Type} [Ord κ] {plane : Plane κ π ρ ο} {idx : ℕ}
    {family : AfiSafi} (h : plane.Replays r idx cs r')
    (hrib : ∀ (r : BgpRouter) (table : Nested Ipv4Address κ ρ),
      OnlyTold r (plane.setRib r { plane.rib r with adjRibOut := table })) :
    OnlyTold r (r'.setPhase idx family .needEorr) := by
  obtain ⟨ks, htells, -⟩ := h.tells
  have htold : OnlyTold r r' := by
    clear h
    induction htells with
    | done => exact .refl
    | tell _ _ ih => exact (hrib _ _).trans ih
  exact htold.trans ⟨rfl, .refl, .refl, .refl, rfl⟩

theorem Talk.onlyTold (h : Talk r cs r') : OnlyTold r r' := by
  cases h with
  | quiet h => exact ⟨h.settings, h.ipv4 ▸ .refl, h.ipv6 ▸ .refl, h.evpn ▸ .refl,
    h.evpnAdvertiseRib⟩
  | sent => exact .refl
  | refreshed | began | ended | marked => exact ⟨rfl, .refl, .refl, .refl, rfl⟩
  | replayedIpv4 h =>
    refine h.onlyTold (fun r rib => ?_)
    exact ⟨rfl, ⟨rfl, rfl, rfl, rfl⟩, .refl, .refl, rfl⟩
  | replayedIpv6 h =>
    refine h.onlyTold (fun r rib => ?_)
    exact ⟨rfl, .refl, ⟨rfl, rfl, rfl, rfl⟩, .refl, rfl⟩
  | replayedEvpn h =>
    refine h.onlyTold (fun r rib => ?_)
    exact ⟨rfl, .refl, .refl, ⟨rfl, rfl, rfl, rfl⟩, rfl⟩
  | announcedIpv4 | withdrewIpv4 => exact ⟨rfl, ⟨rfl, rfl, rfl, rfl⟩, .refl, .refl, rfl⟩
  | announcedIpv6 | withdrewIpv6 => exact ⟨rfl, .refl, ⟨rfl, rfl, rfl, rfl⟩, .refl, rfl⟩
  | announcedEvpn | withdrewEvpn => exact ⟨rfl, .refl, .refl, ⟨rfl, rfl, rfl, rfl⟩, rfl⟩

theorem Talks.onlyTold {σ : Type} {w w' : World σ} (h : Talks w w') :
    OnlyTold w.router w'.router := by
  obtain ⟨cs, hrun, -⟩ := h
  exact hrun.keeps (fun hs hr => hr.trans hs.onlyTold) .refl

end

/-! ### Where a path comes from -/

/-- A step keeps the paths of a family, drops some of them, or stores one. -/
def RibCame {κ π ρ ο : Type} [Ord κ] (rib rib' : Rib κ π ρ ο)
    (stored : Ipv4Address → κ → π → Prop) : Prop :=
  ∀ a k p, rib'.adjRibIn.get? a k = some p → rib.adjRibIn.get? a k = some p ∨ stored a k p

section

variable {κ π ρ ο : Type} [Ord κ] {rib rib' : Rib κ π ρ ο} {addr : Ipv4Address}
  {stored : Ipv4Address → κ → π → Prop}

theorem RibCame.of_eq (h : rib'.adjRibIn = rib.adjRibIn) : RibCame rib rib' stored :=
  fun _ _ _ hp => .inl (by rwa [← h])

section

variable [Std.TransOrd κ] [Std.LawfulEqOrd κ] [DecidableEq κ]

theorem RibCame.withdrawAll {ks : List κ} : RibCame rib (rib.withdrawAll addr ks) stored := by
  intro a k p hp
  rw [Rib.get?_withdrawAll] at hp
  split at hp
  · cases hp
  · exact .inl hp

end

variable [RoutePath π κ]

theorem RibPurged.came {on : Bool} {cutoff : Option ℕ} (h : RibPurged rib rib' addr on cutoff) :
    RibCame rib rib' stored := by
  intro a k p hp
  rw [h.get?, Option.filter_eq_some_iff] at hp
  exact .inl hp.1

variable [Std.TransOrd κ]

theorem RibCame.down {preserve : Bool} :
    RibCame rib (BgpRouter.downRib rib addr preserve) stored := by
  intro a k p hp
  left
  cases preserve
  · have hp : (rib.clearIn addr).adjRibIn.get? a k = some p := hp
    rw [Rib.get?_clearIn] at hp
    split at hp
    · cases hp
    · exact hp
  · exact hp

variable [Std.LawfulEqOrd κ] [DecidableEq κ]

theorem RibCame.receive {path : π} (h : stored addr (RoutePath.key path) path) :
    RibCame rib (rib.receive addr path) stored := by
  intro a k p hp
  rw [Rib.get?_receive] at hp
  split at hp
  · rename_i heq
    obtain ⟨rfl, rfl⟩ := heq
    obtain rfl := Option.some.inj hp
    exact .inr h
  · exact .inl hp

end

/-- What is known of a path at the moment a peer's UPDATE brings it. -/
structure StoredAt {κ π : Type} [RoutePath π κ] (nowMs : ℕ) (r : BgpRouter) (cs : List Call)
    (toAny : π → AnyPath) (a : Ipv4Address) (k : κ) (p : π) : Prop where
  key : RoutePath.key p = k
  peerAddr : RoutePath.peerAddr p = a
  receivedAtMs : RoutePath.receivedAtMs p = nowMs
  call : ∃ idx, idx < r.peers.length ∧ (r.peerAt idx).addr = a ∧ cs = [.store r idx (toAny p)]

/-- The three families, a step at a time. -/
structure Came (nowMs : ℕ) (r : BgpRouter) (cs : List Call) (r' : BgpRouter) : Prop where
  ipv4 : RibCame r.ipv4 r'.ipv4 fun a k p => StoredAt nowMs r cs .ipv4 a k p ∧ p.pfx.Canonical
  ipv6 : RibCame r.ipv6 r'.ipv6 (StoredAt nowMs r cs .ipv6)
  evpn : RibCame r.evpn r'.evpn fun a k p => StoredAt nowMs r cs .evpn a k p ∧
    p.importable = p.route.matchesImport r.importRts ∧ p.isLocal = false

section

variable {nowMs idx : ℕ} {r r' : BgpRouter} {cs : List Call}

theorem Came.of_eq (h4 : r'.ipv4.adjRibIn = r.ipv4.adjRibIn)
    (h6 : r'.ipv6.adjRibIn = r.ipv6.adjRibIn) (he : r'.evpn.adjRibIn = r.evpn.adjRibIn) :
    Came nowMs r cs r' :=
  ⟨.of_eq h4, .of_eq h6, .of_eq he⟩

theorem Retired.came {families : AfiSafi → Bool} {stale : Std.TreeSet AfiSafi}
    {deadline cutoff : Option ℕ} (h : Retired r idx families stale deadline cutoff r') :
    Came nowMs r cs r' := by
  obtain ⟨r₁, hpurged, rfl⟩ := h
  exact ⟨hpurged.ipv4.came, hpurged.ipv6.came, hpurged.evpn.came⟩

theorem Step.came (h : Step nowMs r cs r') : Came nowMs r cs r' := by
  have hsame : Came nowMs r cs r := .of_eq rfl rfl rfl
  cases h with
  | talk h =>
    exact .of_eq h.onlyTold.ipv4.adjRibIn h.onlyTold.ipv6.adjRibIn h.onlyTold.evpn.adjRibIn
  | moved | confirmed | established | adopted => exact .of_eq rfl rfl rfl
  | @reconciled idx negotiated peerCaps hidx hstate =>
    by_cases h : (r.peerAt idx).gracefulRestartActive
    · obtain ⟨left, -, hretired⟩ : BgpRouter.Reconciled r idx nowMs _ _ :=
        BgpRouter.reconciled_reconcile negotiated peerCaps hidx h
      exact hretired.came
    · simpa [BgpRouter.reconcileGracefulRestartOpen, h] using hsame
  | torn hidx => exact ⟨.down, .down, .down⟩
  | @storedIpv4 idx path hidx hstate htime hpeer hcanon =>
    exact ⟨.receive ⟨⟨rfl, hpeer, htime, idx, hidx, rfl, rfl⟩, hcanon⟩, .of_eq rfl, .of_eq rfl⟩
  | @storedIpv6 idx path hidx hstate htime hpeer =>
    exact ⟨.of_eq rfl, .receive ⟨rfl, hpeer, htime, idx, hidx, rfl, rfl⟩, .of_eq rfl⟩
  | @storedEvpn idx path hidx hstate htime hpeer hstamp hlearned =>
    exact ⟨.of_eq rfl, .of_eq rfl,
      .receive ⟨⟨rfl, hpeer, htime, idx, hidx, rfl, rfl⟩, hstamp, hlearned⟩⟩
  | droppedIpv4 => exact ⟨.withdrawAll, .of_eq rfl, .of_eq rfl⟩
  | droppedIpv6 => exact ⟨.of_eq rfl, .withdrawAll, .of_eq rfl⟩
  | droppedEvpn => exact ⟨.of_eq rfl, .of_eq rfl, .withdrawAll⟩
  | @completed idx family hidx hstate =>
    by_cases h : (r.peerAt idx).gracefulRestartStale.contains family
    · exact (BgpRouter.retired_complete hidx h).came
    · simpa [BgpRouter.completeGracefulRestartFamily, h] using hsame
  | flushed hidx => exact BgpRouter.retired_flush.came
  | decided =>
    rw [decideWhereDirty_eq]
    refine .of_eq ?_ ?_ ?_ <;> simp only <;> split <;> rfl

end

/-- No step changes a setting, or originates or withdraws a route of this speaker. -/
structure SameOriginated (r r' : BgpRouter) : Prop where
  settings : r'.settings = r.settings
  ipv4 : r'.ipv4.originated = r.ipv4.originated
  ipv6 : r'.ipv6.originated = r.ipv6.originated
  evpn : r'.evpn.originated = r.evpn.originated

section

variable {nowMs idx : ℕ} {r r' : BgpRouter} {cs : List Call}

theorem SameOriginated.refl : SameOriginated r r := ⟨rfl, rfl, rfl, rfl⟩

theorem Retired.sameOriginated {families : AfiSafi → Bool} {stale : Std.TreeSet AfiSafi}
    {deadline cutoff : Option ℕ} (h : Retired r idx families stale deadline cutoff r') :
    SameOriginated r r' := by
  obtain ⟨r₁, hpurged, rfl⟩ := h
  exact ⟨hpurged.settings, hpurged.ipv4.originated, hpurged.ipv6.originated,
    hpurged.evpn.originated⟩

theorem originated_downRib {κ π ρ ο : Type} [Ord κ] [RoutePath π κ] {rib : Rib κ π ρ ο}
    {addr : Ipv4Address} {preserve : Bool} :
    (BgpRouter.downRib rib addr preserve).originated = rib.originated := by
  cases preserve <;> rfl

theorem Step.sameOriginated (h : Step nowMs r cs r') : SameOriginated r r' := by
  cases h with
  | talk h =>
    have htold := h.onlyTold
    exact ⟨htold.settings, htold.ipv4.originated, htold.ipv6.originated, htold.evpn.originated⟩
  | moved | confirmed | established | adopted | storedIpv4 | storedIpv6 | storedEvpn =>
    exact ⟨rfl, rfl, rfl, rfl⟩
  | @reconciled idx negotiated peerCaps hidx hstate =>
    by_cases h : (r.peerAt idx).gracefulRestartActive
    · obtain ⟨left, -, hretired⟩ : BgpRouter.Reconciled r idx nowMs _ _ :=
        BgpRouter.reconciled_reconcile negotiated peerCaps hidx h
      exact hretired.sameOriginated
    · simpa [BgpRouter.reconcileGracefulRestartOpen, h] using SameOriginated.refl
  | torn => exact ⟨rfl, originated_downRib, originated_downRib, originated_downRib⟩
  | droppedIpv4 => exact ⟨rfl, Rib.withdrawAll_originated, rfl, rfl⟩
  | droppedIpv6 => exact ⟨rfl, rfl, Rib.withdrawAll_originated, rfl⟩
  | droppedEvpn => exact ⟨rfl, rfl, rfl, Rib.withdrawAll_originated⟩
  | @completed idx family hidx hstate =>
    by_cases h : (r.peerAt idx).gracefulRestartStale.contains family
    · exact (BgpRouter.retired_complete hidx h).sameOriginated
    · simpa [BgpRouter.completeGracefulRestartFamily, h] using SameOriginated.refl
  | flushed => exact BgpRouter.retired_flush.sameOriginated
  | decided =>
    rw [decideWhereDirty_eq]
    refine ⟨rfl, ?_, ?_, ?_⟩ <;> simp only <;> split <;> rfl

end

/-! ### Every stored path is where it belongs -/

def RibPlaced {κ π ρ ο : Type} [Ord κ] [RoutePath π κ] (rib : Rib κ π ρ ο) : Prop :=
  ∀ a k p, rib.adjRibIn.get? a k = some p → RoutePath.key p = k ∧ RoutePath.peerAddr p = a

structure Stored (r : BgpRouter) : Prop where
  ipv4 : RibPlaced r.ipv4
  ipv6 : RibPlaced r.ipv6
  evpn : RibPlaced r.evpn
  canonical : ∀ a k p, r.ipv4.adjRibIn.get? a k = some p → k.Canonical
  keyed : EvpnKeyed r

section

variable {κ π ρ ο : Type} [Ord κ] [RoutePath π κ] {rib rib' : Rib κ π ρ ο}

theorem RibPlaced.came {stored : Ipv4Address → κ → π → Prop} (h : RibPlaced rib)
    (hcame : RibCame rib rib' stored)
    (hs : ∀ a k p, stored a k p → RoutePath.key p = k ∧ RoutePath.peerAddr p = a) :
    RibPlaced rib' := by
  intro a k p hp
  rcases hcame a k p hp with hp | hp
  · exact h a k p hp
  · exact hs a k p hp

theorem RibPlaced.configured (h : RibPlaced rib) (hc : RibConfigured rib rib')
    (hset : ∀ on (p : π), RoutePath.key (RoutePath.setFromClient on p) = RoutePath.key p ∧
      RoutePath.peerAddr (RoutePath.setFromClient on p) = RoutePath.peerAddr p) :
    RibPlaced rib' := by
  intro a k p hp
  obtain ⟨q, hq, rfl | ⟨on, rfl⟩⟩ := hc.paths a k p hp
  · exact h a k p hq
  · rw [(hset on q).1, (hset on q).2]
    exact h a k q hq

end

theorem Stored.step {r r' : BgpRouter} {cs : List Call} {nowMs : ℕ} (h : Stored r)
    (hs : Step nowMs r cs r') : Stored r' := by
  have hcame := hs.came
  refine ⟨h.ipv4.came hcame.ipv4 fun _ _ _ hp => ⟨hp.1.key, hp.1.peerAddr⟩,
    h.ipv6.came hcame.ipv6 fun _ _ _ hp => ⟨hp.key, hp.peerAddr⟩,
    h.evpn.came hcame.evpn fun _ _ _ hp => ⟨hp.1.key, hp.1.peerAddr⟩, fun a k p hp => ?_,
    by rw [EvpnKeyed, hs.sameOriginated.evpn]; exact h.keyed⟩
  rcases hcame.ipv4 a k p hp with hp | ⟨hp, hcanon⟩
  · exact h.canonical a k p hp
  · exact hp.key ▸ hcanon

theorem Stored.configured {r r' : BgpRouter} (h : Stored r) (hc : Configured r r') : Stored r' := by
  refine ⟨h.ipv4.configured hc.ipv4 fun _ _ => ⟨rfl, rfl⟩,
    h.ipv6.configured hc.ipv6 fun _ _ => ⟨rfl, rfl⟩,
    h.evpn.configured hc.evpn fun _ _ => ⟨rfl, rfl⟩, fun a k p hp => ?_, hc.keyed h.keyed⟩
  obtain ⟨q, hq, -⟩ := hc.ipv4.paths a k p hp
  exact h.canonical a k q hq

theorem stored_new (localAs : UInt32) (routerId : Ipv4Address) :
    Stored (.new localAs routerId) := by
  refine ⟨?_, ?_, ?_, ?_, ?_⟩
  · intro a k p hp
    simp [BgpRouter.new] at hp
  · intro a k p hp
    simp [BgpRouter.new] at hp
  · intro a k p hp
    simp [BgpRouter.new] at hp
  · intro a k p hp
    simp [BgpRouter.new] at hp
  · intro k route hr
    simp [BgpRouter.new] at hr

theorem stored_invariant : StepInvariant (fun _ => True) fun r _ _ => Stored r where
  start := stored_new
  later h _ := h
  step _ hs _ h := h.step hs
  configure hc h := h.configured hc

theorem Reachable.stored {σ : Type} {io : SocketRuntime σ} {w : World σ} {t : ℕ}
    (h : Reachable io w t) : Stored w.router :=
  h.invariant stored_invariant fun _ _ => trivial

end ToyTcpip.Bgp
