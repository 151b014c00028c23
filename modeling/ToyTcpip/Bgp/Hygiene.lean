import ToyTcpip.Bgp.Tidy

/-! What is left of a session when it is over, and which paths graceful restart keeps and purges. -/
namespace ToyTcpip.Bgp

/-! ### Session hygiene -/

/-- A session that needs a stream has one, and a session that is not up has nothing outstanding: no
route it was told of, no path but what graceful restart retains, no refresh under way. -/
structure Hygienic (r : BgpRouter) (p : BgpPeer) : Prop where
  stream : p.state = .openSent ∨ p.state = .openConfirm ∨ p.state = .established → p.stream.isSome
  adjRibOut : p.state ≠ .established → ∀ k, r.told p.addr k = false
  adjRibIn : p.state ≠ .established → ∀ k, (r.held p.addr k).isSome →
    p.gracefulRestartActive = true ∧ p.gracefulRestartStale.contains k.family = true
  refreshPending : p.state ≠ .established →
    p.refreshPending.isEmpty ∧ p.enhancedRefreshOutbound.isEmpty ∧ p.enhancedRefreshInbound.isEmpty
  refreshStale : p.state ≠ .established → p.enhancedRefreshStaleIpv4.isEmpty ∧
    p.enhancedRefreshStaleIpv6.isEmpty ∧ p.enhancedRefreshStaleEvpn.isEmpty

section

variable {σ : Type} {io : SocketRuntime σ} {w w' : World σ} {t nowMs idx : ℕ}

theorem Tidy.hygienic {r : BgpRouter} {p : BgpPeer} {fresh : RouteKey → Bool}
    (h : Tidy p.session (r.held p.addr) (r.told p.addr) fresh t) : Hygienic r p := by
  have hrefresh : p.state ≠ .established → p.refresh = {} := h.refresh
  have hfields : p.state ≠ .established → p.refreshPending = ∅ ∧ p.enhancedRefreshOutbound = ∅ ∧
      p.enhancedRefreshInbound = ∅ ∧ p.enhancedRefreshStaleIpv4 = ∅ ∧
      p.enhancedRefreshStaleIpv6 = ∅ ∧ p.enhancedRefreshStaleEvpn = ∅ := by
    intro hs
    simpa [BgpPeer.refresh] using hrefresh hs
  refine ⟨h.live, h.untold, ?_, ?_, ?_⟩
  · intro hs k hk
    obtain ⟨t', ht⟩ := Option.isSome_iff_exists.mp hk
    obtain ⟨hin, -⟩ := Restart.isStale_iff.mp (h.old k t' ht (h.unheard hs k))
    have hne := Restart.not_isEmpty hin
    have hdeadline := h.deadline hne
    simp only [BgpPeer.session, BgpPeer.restart] at hin hne hdeadline
    exact ⟨by simp [BgpPeer.gracefulRestartActive, hne, hdeadline], hin⟩
  · intro hs
    obtain ⟨h1, h2, h3, -⟩ := hfields hs
    simp [h1, h2, h3]
  · intro hs
    obtain ⟨-, -, -, h4, h5, h6⟩ := hfields hs
    simp [h4, h5, h6]

/-- In every state reached by orderly steps, every session is hygienic. -/
theorem hygienic_reachable (h : Reachable io w t) (hok : ∀ c ∈ w.calls, c.Orderly) :
    ∀ p ∈ w.router.peers, Hygienic w.router p := by
  intro p hp
  have htidy := h.invariant allTidy_invariant hok p.addr
  rw [BgpRouter.sessionOf_eq h.nodup hp] at htidy
  exact htidy.hygienic

end

/-- The neighbour of the runs below. -/
def neighbour : Ipv4Address := ⟨10, 0, 0, 2⟩

/-- What the neighbour sends to bring a session up. -/
def neighbourUp : List UInt8 :=
  handshake 65002 ⟨10, 0, 0, 9⟩ (BgpRouter.new 65002 ⟨10, 0, 0, 9⟩).localCapabilities

/-- Both ends dial. The neighbour's connection is held, the session comes up on the other one and
routes are advertised on it; then the neighbour's OPEN arrives on the connection that was held. -/
def lateCollision : World Script × ℕ :=
  World.play scripted
    [.configure (.addPeer neighbour 65002 ⟨10, 0, 0, 1⟩ .active),
      .configure (.originate (.new ⟨10, 9, 0, 0⟩ 16) ⟨10, 0, 0, 1⟩),
      .poll 0, .poll 1,
      .network { accepts := [(3, neighbour)], inbox := [(2, neighbourUp)] }, .poll 2,
      .network { inbox := [(3, neighbourUp)] }, .poll 3]
    (⟨.new 65001 ⟨10, 0, 0, 1⟩, {}, []⟩, 0)

/-- Adopting the neighbour's connection while the session is up leaves its Adj-RIB-Out behind. -/
theorem not_hygienic_lateCollision : ∃ w t, Reachable scripted w t ∧
    ∃ p ∈ w.router.peers, ¬ Hygienic w.router p := by
  refine ⟨lateCollision.1, lateCollision.2, .play (.start _ _ _) _, lateCollision.1.router.peerAt 0,
    BgpRouter.peerAt_mem (by decide +kernel), fun h => ?_⟩
  have htold := h.adjRibOut (by decide +kernel) (.ipv4 (.new ⟨10, 9, 0, 0⟩ 16))
  revert htold
  decide +kernel

example : (lateCollision.1.router.peerAt 0).state ≠ .idle := by decide +kernel

/-- The same run without the neighbour's connection is orderly. -/
def plainSession : World Script × ℕ :=
  World.play scripted
    [.configure (.addPeer neighbour 65002 ⟨10, 0, 0, 1⟩ .active),
      .configure (.originate (.new ⟨10, 9, 0, 0⟩ 16) ⟨10, 0, 0, 1⟩),
      .poll 0, .poll 1, .network { inbox := [(2, neighbourUp)] }, .poll 2, .network { dead := [2] },
      .poll 3]
    (⟨.new 65001 ⟨10, 0, 0, 1⟩, {}, []⟩, 0)

/-- An entry of the log that meets no retained route and replaces no session that is up. -/
def Call.plain : Call → Bool
  | .teardown before idx _ => !(before.peerAt idx).gracefulRestartActive
  | .reconcile before idx _ _ => !(before.peerAt idx).gracefulRestartActive
  | .adopt before idx => (before.peerAt idx).state ≠ .established
  | _ => true

theorem Call.orderly_of_plain {c : Call} (h : c.plain = true) : c.Orderly := by
  cases c with
  | teardown before idx why =>
    intro _ hactive
    simp [plain, hactive] at h
  | reconcile before idx nowMs kept =>
    intro hactive
    simp [plain, hactive] at h
  | adopt before idx => exact .inl (by simpa [plain] using h)
  | _ => trivial

theorem hygienic_plainSession : Reachable scripted plainSession.1 plainSession.2 ∧
    ∀ p ∈ plainSession.1.router.peers, Hygienic plainSession.1.router p := by
  have hr : Reachable scripted plainSession.1 plainSession.2 := .play (.start _ _ _) _
  have hplain : ∀ c ∈ plainSession.1.calls, c.plain = true := by decide +kernel
  exact ⟨hr, hygienic_reachable hr fun c hc => Call.orderly_of_plain (hplain c hc)⟩

/-! ### What graceful restart purges -/

/-- A purge of the retained families, or of one, leaves what the current session brought. -/
theorem Tidy.purge_eq {s : Session} {held : RouteKey → Option ℕ} {told fresh : RouteKey → Bool}
    {clock : ℕ} {k : RouteKey} {on : Bool} (h : Tidy s held told fresh clock)
    (hon : on = s.restart.stale.contains k.family) :
    ((held k).filter fun t => !(on && s.restart.cutoff.all fun c => t < c)) =
      if fresh k then held k else none := by
  cases hk : held k with
  | none => simp
  | some t =>
    cases hf : fresh k with
    | false =>
      obtain ⟨hin, -⟩ := Restart.isStale_iff.mp (h.old k t hk hf)
      have hall := (h.purge_iff hk hin).mpr hf
      simp [hon, hin, hall]
    | true =>
      cases hin : s.restart.stale.contains k.family with
      | false => simp [hon, hin, Option.filter]
      | true =>
        have hall : (s.restart.cutoff.all fun c => t < c) = false := by
          by_contra hne
          rw [Bool.not_eq_false] at hne
          rw [(h.purge_iff hk hin).mp hne] at hf
          cases hf
        simp [hall, Option.filter]

/-- What becomes of the paths of one peer at the three moments that end a family's retention. -/
structure PurgesStale {σ : Type} (w : World σ) (idx nowMs : ℕ) : Prop where
  /-- A family that is not retained has paths of the current session only. -/
  settled : ∀ k, (w.router.held (w.peerAt idx).addr k).isSome →
    (w.peerAt idx).gracefulRestartStale.contains k.family = false →
    receivedInSession (w.peerAt idx).addr k w.calls = true
  /-- The End-of-RIB marker of a family. -/
  endOfRib : ∀ family,
    ((w.router.completeGracefulRestartFamily idx family).peerAt idx).gracefulRestartStale.contains
      family = false ∧
    ∀ k, k.family = family →
      (w.router.completeGracefulRestartFamily idx family).held (w.peerAt idx).addr k =
        if receivedInSession (w.peerAt idx).addr k w.calls then
          w.router.held (w.peerAt idx).addr k else none
  /-- The deadline of the restart. -/
  expiry : ((w.peerAt idx).gracefulRestartDeadline.any fun d => d ≤ nowMs) →
    ((w.router.expireGracefulRestarts nowMs).peerAt idx).gracefulRestartStale.isEmpty = true ∧
    ∀ k, (w.router.expireGracefulRestarts nowMs).held (w.peerAt idx).addr k =
      if receivedInSession (w.peerAt idx).addr k w.calls then
        w.router.held (w.peerAt idx).addr k else none
  /-- The OPEN of a peer that does not preserve a family. -/
  reconnect : (w.peerAt idx).state = .openSent → ∀ negotiated peerCaps family,
    (BgpRouter.familiesKept negotiated peerCaps).contains family = false →
    ((w.router.reconcileGracefulRestartOpen idx nowMs negotiated peerCaps).peerAt
      idx).gracefulRestartStale.contains family = false ∧
    ∀ k, k.family = family →
      (w.router.reconcileGracefulRestartOpen idx nowMs negotiated peerCaps).held
          (w.peerAt idx).addr k =
        if receivedInSession (w.peerAt idx).addr k w.calls then
          w.router.held (w.peerAt idx).addr k else none

section purges

variable {r r' : BgpRouter} {log : List Call} {t idx nowMs : ℕ}

theorem Retired.peerAt {families : AfiSafi → Bool} {stale : Std.TreeSet AfiSafi}
    {deadline cutoff : Option ℕ} (h : Retired r idx families stale deadline cutoff r')
    (hidx : idx < r.peers.length) : (r'.peerAt idx).gracefulRestartStale = stale := by
  obtain ⟨r₁, hpurged, rfl⟩ := h
  rw [BgpRouter.peerAt_updatePeer (by rwa [hpurged.peers]), if_pos rfl]
  rfl

theorem AllTidy.held_of_not_stale (h : AllTidy r log t) (hn : r.addrs.Nodup)
    (hidx : idx < r.peers.length) {k : RouteKey}
    (hk : (r.peerAt idx).gracefulRestartStale.contains k.family = false) :
    r.held (r.peerAt idx).addr k = if receivedInSession (r.peerAt idx).addr k log then
      r.held (r.peerAt idx).addr k else none := by
  have heq := (h.peer hn hidx).purge_eq (k := k) hk.symm
  rw [← heq]
  exact (option_filter_true _).symm

theorem AllTidy.held_retired {families : AfiSafi → Bool} {stale : Std.TreeSet AfiSafi}
    {deadline cutoff : Option ℕ} (h : AllTidy r log t) (hn : r.addrs.Nodup)
    (hidx : idx < r.peers.length) (hr : Retired r idx families stale deadline cutoff r')
    {k : RouteKey} (hk : families k.family =
      (r.peerAt idx).gracefulRestartStale.contains k.family) :
    r'.held (r.peerAt idx).addr k = if receivedInSession (r.peerAt idx).addr k log then
      r.held (r.peerAt idx).addr k else none := by
  rw [hr.held, ← (h.peer hn hidx).purge_eq hk]
  simp [BgpPeer.session, BgpPeer.restart]

theorem AllTidy.endOfRib (h : AllTidy r log t) (hn : r.addrs.Nodup) (hidx : idx < r.peers.length)
    (family : AfiSafi) :
    ((r.completeGracefulRestartFamily idx family).peerAt idx).gracefulRestartStale.contains
      family = false ∧
    ∀ k, k.family = family → (r.completeGracefulRestartFamily idx family).held
      (r.peerAt idx).addr k =
      if receivedInSession (r.peerAt idx).addr k log then
        r.held (r.peerAt idx).addr k else none := by
  by_cases hc : (r.peerAt idx).gracefulRestartStale.contains family
  · have hr := BgpRouter.retired_complete hidx hc
    refine ⟨by rw [hr.peerAt hidx]; simp, ?_⟩
    rintro k rfl
    exact h.held_retired hn hidx hr (by rw [hc]; simp)
  · rw [BgpRouter.completeGracefulRestartFamily, if_neg hc]
    refine ⟨Bool.eq_false_of_not_eq_true hc, ?_⟩
    rintro k rfl
    exact h.held_of_not_stale hn hidx (Bool.eq_false_of_not_eq_true hc)

theorem AllTidy.reconnect (h : AllTidy r log t) (hn : r.addrs.Nodup) (hidx : idx < r.peers.length)
    (negotiated : NegotiatedCapabilities) (peerCaps : BgpCapabilitySet) {family : AfiSafi}
    (hkept : (BgpRouter.familiesKept negotiated peerCaps).contains family = false) :
    ((r.reconcileGracefulRestartOpen idx nowMs negotiated peerCaps).peerAt
      idx).gracefulRestartStale.contains family = false ∧
    ∀ k, k.family = family →
      (r.reconcileGracefulRestartOpen idx nowMs negotiated peerCaps).held (r.peerAt idx).addr k =
        if receivedInSession (r.peerAt idx).addr k log then
          r.held (r.peerAt idx).addr k else none := by
  by_cases hactive : (r.peerAt idx).gracefulRestartActive
  · obtain ⟨left, hleft, hr⟩ : BgpRouter.Reconciled r idx nowMs _ _ :=
      BgpRouter.reconciled_reconcile negotiated peerCaps hidx hactive
    refine ⟨by rw [hr.peerAt hidx, hleft, hkept, Bool.and_false], ?_⟩
    rintro k rfl
    exact h.held_retired hn hidx hr (by simp [hkept])
  · have hempty : (r.peerAt idx).gracefulRestartStale.isEmpty = true := by
      by_contra he
      rw [Bool.not_eq_true] at he
      have hdeadline := (h.peer hn hidx).deadline he
      simp only [BgpPeer.session, BgpPeer.restart] at hdeadline
      exact hactive (by simp [BgpPeer.gracefulRestartActive, he, hdeadline])
    have hnone : ∀ f, (r.peerAt idx).gracefulRestartStale.contains f = false := by
      intro f
      by_contra hf
      rw [Bool.not_eq_false] at hf
      rw [Std.TreeSet.isEmpty_iff_forall_not_mem] at hempty
      exact hempty f hf
    have hsame : r.reconcileGracefulRestartOpen idx nowMs negotiated peerCaps = r := by
      simp [BgpRouter.reconcileGracefulRestartOpen, hactive]
    rw [hsame]
    exact ⟨hnone family, fun k _ => h.held_of_not_stale hn hidx (hnone k.family)⟩

/-- What flushing some peers does to the one at an index. -/
structure Flushed (r r' : BgpRouter) (log : List Call) (t idx : ℕ) (hit : Prop) : Prop where
  tidy : AllTidy r' log t
  addrs : r'.addrs = r.addrs
  addr : (r'.peerAt idx).addr = (r.peerAt idx).addr
  kept : ∀ k, receivedInSession (r.peerAt idx).addr k log = true →
    r'.held (r.peerAt idx).addr k = r.held (r.peerAt idx).addr k
  stale : hit ∨ (r.peerAt idx).gracefulRestartStale.isEmpty = true →
    (r'.peerAt idx).gracefulRestartStale.isEmpty = true

theorem AllTidy.flushOne {i : ℕ} (h : AllTidy r log t) (hn : r.addrs.Nodup)
    (hi : i < r.peers.length) (idx : ℕ) :
    Flushed r (r.flushGracefulRestart i) log t idx (idx = i) := by
  have hr : Retired r i _ ∅ none none (r.flushGracefulRestart i) := BgpRouter.retired_flush
  obtain ⟨r₁, hpurged, hr₁⟩ := id hr
  have hpeer : (r.flushGracefulRestart i).peerAt idx =
      if i = idx then (r.peerAt idx).setRestart ∅ none none else r.peerAt idx := by
    rw [hr₁, BgpRouter.peerAt_updatePeer (by rwa [hpurged.peers]), hpurged.peerAt]
  refine ⟨h.flushed hn hi, hr.addrs hi, ?_, ?_, ?_⟩
  · rw [hpeer]
    split <;> rfl
  · intro k hk
    by_cases ha : (r.peerAt i).addr = (r.peerAt idx).addr
    · rw [← ha, h.held_retired hn hi hr rfl, ha, if_pos hk]
    · rw [hr.held]
      simp only [ha, decide_false, Bool.and_false, Bool.false_and, Bool.not_false]
      exact option_filter_true _
  · intro hs
    rw [hpeer]
    split
    · rfl
    · rename_i hne
      exact hs.resolve_left (Ne.symm hne)

theorem AllTidy.flushEach {idxs : List ℕ} (h : AllTidy r log t) (hn : r.addrs.Nodup)
    (hidxs : ∀ i ∈ idxs, i < r.peers.length) (idx : ℕ) :
    Flushed r (idxs.foldl (fun r i => r.flushGracefulRestart i) r) log t idx (idx ∈ idxs) := by
  induction idxs generalizing r with
  | nil => exact ⟨h, rfl, rfl, fun _ _ => rfl, fun hs => hs.resolve_left (by simp)⟩
  | cons i rest ih =>
    have hfirst := h.flushOne hn (hidxs i List.mem_cons_self) idx
    have hlen := congrArg List.length hfirst.addrs
    simp only [BgpRouter.addrs, List.length_map] at hlen
    have hrest := ih hfirst.tidy (by rwa [hfirst.addrs]) fun j hj => by
      rw [hlen]
      exact hidxs j (List.mem_cons_of_mem _ hj)
    refine ⟨hrest.tidy, hrest.addrs.trans hfirst.addrs, hrest.addr.trans hfirst.addr, ?_, ?_⟩
    · intro k hk
      have hkept := hrest.kept k (by rwa [hfirst.addr])
      rw [hfirst.addr, hfirst.kept k hk] at hkept
      exact hkept
    · intro hs
      apply hrest.stale
      rcases hs with hs | hs
      · rcases List.mem_cons.mp hs with rfl | hs
        · exact .inr (hfirst.stale (.inl rfl))
        · exact .inl hs
      · exact .inr (hfirst.stale (.inr hs))

theorem AllTidy.expiry (h : AllTidy r log t) (hn : r.addrs.Nodup) (hidx : idx < r.peers.length)
    (hd : ((r.peerAt idx).gracefulRestartDeadline.any fun d => d ≤ nowMs) = true) :
    ((r.expireGracefulRestarts nowMs).peerAt idx).gracefulRestartStale.isEmpty = true ∧
    ∀ k, (r.expireGracefulRestarts nowMs).held (r.peerAt idx).addr k =
      if receivedInSession (r.peerAt idx).addr k log then
        r.held (r.peerAt idx).addr k else none := by
  have hf : Flushed r (r.expireGracefulRestarts nowMs) log t idx _ :=
    h.flushEach hn (fun i hi => List.mem_range.mp (List.mem_filter.mp hi).1) idx
  have hlen := congrArg List.length hf.addrs
  simp only [BgpRouter.addrs, List.length_map] at hlen
  have hempty := hf.stale (.inl (List.mem_filter.mpr ⟨List.mem_range.mpr hidx, hd⟩))
  refine ⟨hempty, fun k => ?_⟩
  have hstale : ((r.expireGracefulRestarts nowMs).peerAt idx).gracefulRestartStale.contains
      k.family = false := by
    by_contra hc
    rw [Bool.not_eq_false] at hc
    rw [Std.TreeSet.isEmpty_iff_forall_not_mem] at hempty
    exact hempty _ hc
  have hheld := hf.tidy.held_of_not_stale (by rwa [hf.addrs]) (by rwa [hlen]) hstale
  rw [hf.addr] at hheld
  rw [hheld]
  split
  · rename_i hk
    exact hf.kept k hk
  · rfl

end purges

/-- Anywhere in a run of orderly steps, the moments that end a family's retention purge exactly what
was received before the current session. -/
theorem purgesStale_reachable {σ : Type} {io : SocketRuntime σ} {w w' : World σ} {t nowMs idx : ℕ}
    (h : Reachable io w t) (ht : t ≤ nowMs) (hr : Reaches nowMs w w')
    (hok : ∀ c ∈ w'.calls, c.Orderly) (hidx : idx < w'.router.peers.length) :
    PurgesStale w' idx nowMs := by
  have hbefore := h.invariant allTidy_invariant fun c hc => hok c (hr.calls_subset c hc)
  have htidy : AllTidy w'.router w'.calls nowMs :=
    hr.invariant allTidy_invariant h.nodup hok (allTidy_invariant.later hbefore ht)
  have hn : w'.router.addrs.Nodup := by
    rw [hr.addrs]
    exact h.nodup
  refine ⟨?_, htidy.endOfRib hn hidx, htidy.expiry hn hidx, ?_⟩
  · intro k hk hstale
    obtain ⟨t', ht'⟩ := Option.isSome_iff_exists.mp hk
    by_contra hf
    rw [Bool.not_eq_true] at hf
    obtain ⟨hin, -⟩ := Restart.isStale_iff.mp ((htidy.peer hn hidx).old k t' ht' hf)
    rw [show (w'.router.peerAt idx).session.restart.stale.contains k.family =
      false from hstale] at hin
    cases hin
  · exact fun _ negotiated peerCaps family hkept =>
      htidy.reconnect hn hidx negotiated peerCaps hkept

/-- One IPv4 route of the neighbour. -/
def neighbourAnnounces (pfx : Ipv4Prefix) : List UInt8 :=
  (BgpPdu.update (.announce { BgpPathAttributes.new .igp ⟨[⟨.sequence, [65002]⟩]⟩ neighbour with
    fourOctetAs := true } [pfx])).serialize

/-- The neighbour announces a route, and its transport fails. -/
def retainedRoute : World Script × ℕ :=
  World.play scripted
    [.configure (.addPeer neighbour 65002 ⟨10, 0, 0, 1⟩ .active), .poll 0, .poll 1,
      .network { inbox := [(2, neighbourUp ++ neighbourAnnounces (.new ⟨10, 1, 0, 0⟩ 16))] },
      .poll 2, .network { dead := [2] }, .poll 3]
    (⟨.new 65001 ⟨10, 0, 0, 1⟩, {}, []⟩, 0)

theorem purgesStale_retainedRoute :
    (retainedRoute.1.router.held neighbour (.ipv4 (.new ⟨10, 1, 0, 0⟩ 16))).isSome ∧
      PurgesStale retainedRoute.1 0 130000 := by
  have hr : Reachable scripted retainedRoute.1 retainedRoute.2 := .play (.start _ _ _) _
  have hplain : ∀ c ∈ retainedRoute.1.calls, c.plain = true := by decide +kernel
  exact ⟨by decide +kernel, purgesStale_reachable hr (by decide +kernel) (.refl _)
    (fun c hc => Call.orderly_of_plain (hplain c hc)) (by decide +kernel)⟩

/-- What the neighbour sends when it comes back from a restart with its forwarding state. -/
def neighbourBack : List UInt8 :=
  handshake 65002 ⟨10, 0, 0, 9⟩
    { BgpRouter.new 65002 ⟨10, 0, 0, 9⟩ with gracefulRestartRestarting := true }.localCapabilities

/-- The neighbour's transport fails, it comes back and announces another route, and its transport
fails again before its End-of-RIB; then the restart runs out. -/
def failedRecovery : World Script × ℕ :=
  World.play scripted
    [.configure (.addPeer neighbour 65002 ⟨10, 0, 0, 1⟩ .active), .poll 0, .poll 1,
      .network { inbox := [(2, neighbourUp ++ neighbourAnnounces (.new ⟨10, 1, 0, 0⟩ 16))] },
      .poll 2, .network { dead := [2] }, .poll 3, .network {}, .poll 6000, .poll 6001,
      .network { inbox := [(2, neighbourBack ++ neighbourAnnounces (.new ⟨10, 2, 0, 0⟩ 16))] },
      .poll 6002, .network { dead := [2] }, .poll 6003, .poll 130000]
    (⟨.new 65001 ⟨10, 0, 0, 1⟩, {}, []⟩, 0)

/-- The route of the failed recovery outlives the deadline of the restart. -/
theorem not_purgesStale_failedRecovery : ∃ w t, Reachable scripted w t ∧ 0 < w.router.peers.length ∧
    ¬ PurgesStale w 0 t := by
  refine ⟨failedRecovery.1, failedRecovery.2,
    .play (.start _ _ _) _, by decide +kernel, fun h => ?_⟩
  have hsession := h.settled (.ipv4 (.new ⟨10, 2, 0, 0⟩ 16)) (by decide +kernel) (by decide +kernel)
  revert hsession
  decide +kernel

end ToyTcpip.Bgp
