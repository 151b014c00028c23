import ToyTcpip.Bgp.Decided
import ToyTcpip.Bgp.Hygiene

/-! The Loc-RIBs are what the decision processes would compute, while the flags notice every
change. -/
namespace ToyTcpip.Bgp

/-! ### Paths without their dates -/

def BgpPath.undated (p : BgpPath) : BgpPath := { p with receivedAtMs := 0 }

def Ipv6Path.undated (p : Ipv6Path) : Ipv6Path := { p with receivedAtMs := 0 }

def EvpnPath.undated (p : EvpnPath) : EvpnPath := { p with receivedAtMs := 0 }

theorem BgpPath.sameRouteAs_iff {p q : BgpPath} : p.sameRouteAs q = true ↔
    p.undated = q.undated := by
  cases p
  cases q
  simp [sameRouteAs, undated]

theorem Ipv6Path.sameRouteAs_iff {p q : Ipv6Path} :
    p.sameRouteAs q = true ↔ p.undated = q.undated := by
  cases p
  cases q
  simp [sameRouteAs, undated]

theorem EvpnPath.sameRouteAs_iff {p q : EvpnPath} :
    p.sameRouteAs q = true ↔ p.undated = q.undated := by
  cases p
  cases q
  simp [sameRouteAs, undated]

/-- Comparisons do not look at dates. -/
theorem selectBest_undated (l : List BgpPath) :
    selectBest (l.map BgpPath.undated) = (selectBest l).map BgpPath.undated := by
  have hwin (l) : selectBest l = Knockout.winner (fun a b => comparePaths a b = .lt) l := by
    cases l <;> rfl
  rw [hwin, hwin]
  exact Knockout.winner_map (fun _ _ => Iff.rfl) l

theorem selectBestIpv6_undated (l : List Ipv6Path) :
    selectBestIpv6 (l.map Ipv6Path.undated) = (selectBestIpv6 l).map Ipv6Path.undated := by
  rw [selectBestIpv6_eq_winner, selectBestIpv6_eq_winner]
  exact Knockout.winner_map (fun _ _ => Iff.rfl) l

theorem selectBestEvpn_undated (l : List EvpnPath) :
    selectBestEvpn (l.map EvpnPath.undated) = (selectBestEvpn l).map EvpnPath.undated := by
  rw [selectBestEvpn_eq_winner, selectBestEvpn_eq_winner]
  exact Knockout.winner_map (fun _ _ => Iff.rfl) l

/-! ### What a decision depends on -/

section view

variable {κ π ρ ο : Type} [Ord κ] {undated : π → π} {rib rib' : Rib κ π ρ ο} {k : κ}

/-- Each owner's path and whether it is stale decide who competes. -/
theorem map_contenders [Std.TransOrd κ] {stale stale' : π → Bool} {mkLocal mkLocal' : κ → ο → π}
    (hin : ∀ a, (rib'.adjRibIn.get? a k).map (fun p => (undated p, stale' p)) =
      (rib.adjRibIn.get? a k).map (fun p => (undated p, stale p)))
    (horiginated : rib'.originated = rib.originated)
    (hlocal : ∀ route, undated (mkLocal' k route) = undated (mkLocal k route)) :
    (rib'.contenders stale' mkLocal' k).map undated =
      (rib.contenders stale mkLocal k).map undated := by
  have hlearned := Nested.map_candidates hin
  have hsplit : ∀ (l : List π) (s : π → Bool), (if (l.filter fun p => !s p).isEmpty then l
      else l.filter fun p => !s p).map undated =
      (let v := l.map fun p => (undated p, s p)
      (if (v.filter fun e => !e.2).isEmpty then v else v.filter fun e => !e.2).map Prod.fst) := by
    intro l s
    have hfresh : (l.map fun p => (undated p, s p)).filter (fun e => !e.2) =
        (l.filter fun p => !s p).map fun p => (undated p, s p) := by
      rw [List.filter_map]
      rfl
    simp only [hfresh, List.isEmpty_map]
    split <;> simp
  simp only [Rib.contenders, List.map_append, hsplit, hlearned, horiginated]
  congr 1
  cases rib.originated[k]? with
  | none => rfl
  | some route => simp [hlocal]

/-- Paths that are all stale, or all fresh, compete all together. -/
theorem contenders_of_alike {stale : π → Bool} {mkLocal : κ → ο → π} {b : Bool}
    (h : ∀ p ∈ rib.adjRibIn.candidates k, stale p = b) :
    rib.contenders stale mkLocal k =
      rib.adjRibIn.candidates k ++ (rib.originated[k]?.map (mkLocal k)).toList := by
  have hfilter : rib.adjRibIn.candidates k =
      if ((rib.adjRibIn.candidates k).filter fun p => !stale p).isEmpty then
        rib.adjRibIn.candidates k
      else (rib.adjRibIn.candidates k).filter fun p => !stale p := by
    split
    · rfl
    · rename_i hsome
      cases b with
      | false => exact (List.filter_eq_self.mpr fun p hp => by rw [h p hp]; rfl).symm
      | true =>
        refine absurd ?_ hsome
        rw [List.isEmpty_iff]
        exact List.filter_eq_nil_iff.mpr fun p hp => by simp [h p hp]
  exact congrArg (· ++ _) hfilter.symm

/-- Another peer has a path under the key too. -/
def Rib.Contested (rib : Rib κ π ρ ο) (addr : Ipv4Address) (k : κ) : Prop :=
  ∃ a, a ≠ addr ∧ (rib.adjRibIn.get? a k).isSome

variable [RoutePath π κ]

/-- Without a mark nothing that a decision depends on has changed: the paths, dates aside, and which
of several under one key are stale. -/
structure RibUnmoved (undated : π → π) (stale stale' : Ipv4Address → ℕ → Bool)
    (rib rib' : Rib κ π ρ ο) : Prop where
  clean : rib.dirty = false
  originated : rib'.originated = rib.originated
  paths : ∀ a k, (rib'.adjRibIn.get? a k).map undated = (rib.adjRibIn.get? a k).map undated
  stale : ∀ a k p p', rib.adjRibIn.get? a k = some p → rib'.adjRibIn.get? a k = some p' →
    rib.Contested a k →
      stale' a (RoutePath.receivedAtMs p') = stale a (RoutePath.receivedAtMs p)

def RibNoticed (undated : π → π) (stale stale' : Ipv4Address → ℕ → Bool)
    (rib rib' : Rib κ π ρ ο) : Prop :=
  rib'.dirty = false → RibUnmoved undated stale stale' rib rib'

variable {stale stale' : Ipv4Address → ℕ → Bool} {addr : Ipv4Address}

/-- The same paths, as stale as before where it matters. -/
theorem RibUnmoved.of_get (hclean : rib.dirty = false)
    (horiginated : rib'.originated = rib.originated)
    (hget : ∀ a k, rib'.adjRibIn.get? a k = rib.adjRibIn.get? a k)
    (hstale : ∀ a k p, rib'.adjRibIn.get? a k = some p → rib.Contested a k →
      stale' a (RoutePath.receivedAtMs p) = stale a (RoutePath.receivedAtMs p)) :
    RibUnmoved undated stale stale' rib rib' := by
  refine ⟨hclean, horiginated, fun a k => by rw [hget], fun a k p p' hp hp' hother => ?_⟩
  obtain rfl : p = p' := by
    rw [hget, hp] at hp'
    exact Option.some.inj hp'
  exact hstale a k p hp' hother

theorem RibNoticed.of_eq (hin : rib'.adjRibIn = rib.adjRibIn)
    (horiginated : rib'.originated = rib.originated) (hdirty : rib'.dirty = rib.dirty)
    (hstale : ∀ a t, stale' a t = stale a t) : RibNoticed undated stale stale' rib rib' := by
  intro hclean
  exact .of_get (by rwa [← hdirty]) horiginated (fun _ _ => by rw [hin]) fun a _ _ _ _ => hstale a _

theorem RibNoticed.of_told (h : RibTold rib rib') (hstale : ∀ a t, stale' a t = stale a t) :
    RibNoticed undated stale stale' rib rib' :=
  .of_eq h.adjRibIn h.originated h.dirty hstale

theorem RibNoticed.of_marked (h : rib'.dirty = true) :
    RibNoticed undated stale stale' rib rib' := by
  intro hclean
  rw [h] at hclean
  cases hclean

theorem RibNoticed.withdrawAll {ks : List κ} :
    RibNoticed undated stale stale rib (rib.withdrawAll addr ks) := by
  intro hclean
  have hsame := Rib.withdrawAll_of_clean hclean
  rw [hsame] at hclean ⊢
  exact .of_get hclean rfl (fun _ _ => rfl) fun _ _ _ _ _ => rfl

/-- A purge leaves only what is not stale, and what is left must not become so. -/
theorem RibPurged.noticed {on : Bool} {cutoff : Option ℕ} (h : RibPurged rib rib' addr on cutoff)
    (hstale : rib.dirty = true ∨ ∀ a k p, rib'.adjRibIn.get? a k = some p → rib.Contested a k →
      stale' a (RoutePath.receivedAtMs p) = stale a (RoutePath.receivedAtMs p)) :
    RibNoticed undated stale stale' rib rib' := by
  intro hclean
  have hsame := h.clean hclean
  have hrib : rib.dirty = false := by rwa [hsame] at hclean
  exact .of_get hrib h.originated (fun _ _ => by rw [hsame]) (hstale.resolve_left (by simp [hrib]))

variable [Std.TransOrd κ]

theorem RibNoticed.down {keep : Bool} (hstale : rib.dirty = true ∨ ∀ a k p,
      (BgpRouter.downRib rib addr keep).adjRibIn.get? a k = some p → rib.Contested a k →
      stale' a (RoutePath.receivedAtMs p) = stale a (RoutePath.receivedAtMs p)) :
    RibNoticed undated stale stale' rib (BgpRouter.downRib rib addr keep) := by
  intro hclean
  have hrib : rib.dirty = false := by
    cases keep
    · have hor : (rib.dirty || decide (rib.adjRibIn.count addr > 0)) = false := hclean
      exact (Bool.or_eq_false_iff.mp hor).1
    · exact hclean
  have hget : ∀ a k, (BgpRouter.downRib rib addr keep).adjRibIn.get? a k =
      rib.adjRibIn.get? a k := by
    intro a k
    cases keep
    · exact Rib.get?_clearIn_of_clean hclean
    · rfl
  exact .of_get hrib (by cases keep <;> rfl) hget (hstale.resolve_left (by simp [hrib]))

variable [Std.LawfulEqOrd κ] [DecidableEq κ]

/-- An unmarked repetition must be as stale as what it repeats. -/
theorem RibNoticed.receive {path : π}
    (hsame : ∀ p : π, RoutePath.sameRouteAs p path = true → undated p = undated path)
    (hstale : rib.dirty = true ∨ ∀ p, rib.adjRibIn.get? addr (RoutePath.key path) = some p →
      RoutePath.sameRouteAs p path = true → rib.Contested addr (RoutePath.key path) →
      stale addr (RoutePath.receivedAtMs p) = stale addr (RoutePath.receivedAtMs path)) :
    RibNoticed undated stale stale rib (rib.receive addr path) := by
  intro hclean
  have hparts : rib.dirty = false ∧ ∃ p, rib.adjRibIn.get? addr (RoutePath.key path) = some p ∧
      RoutePath.sameRouteAs p path = true := by
    simp only [Rib.receive, Bool.or_eq_false_iff] at hclean
    refine ⟨hclean.1, ?_⟩
    cases hp : rib.adjRibIn.get? addr (RoutePath.key path) with
    | none => simp [hp] at hclean
    | some p => exact ⟨p, rfl, by simpa [hp] using hclean.2⟩
  obtain ⟨hrib, p, hp, hroute⟩ := hparts
  have hstale := (hstale.resolve_left (by simp [hrib])) p hp hroute
  refine ⟨hrib, rfl, fun a k => ?_, fun a k q q' hq hq' hother => ?_⟩
  · rw [Rib.get?_receive]
    split
    · rename_i h
      obtain ⟨rfl, rfl⟩ := h
      simp [hp, hsame p hroute]
    · rfl
  · rw [Rib.get?_receive] at hq'
    split at hq'
    · rename_i h
      obtain ⟨rfl, rfl⟩ := h
      obtain rfl : p = q := Option.some.inj (hp.symm.trans hq)
      obtain rfl := Option.some.inj hq'
      exact (hstale hother).symm
    · obtain rfl : q = q' := Option.some.inj (hq.symm.trans hq')
      rfl

end view

/-! ### What each call must not do behind the flags -/

def BgpRouter.dirtyOf (r : BgpRouter) : RouteKey → Bool
  | .ipv4 _ => r.ipv4.dirty
  | .ipv6 _ => r.ipv6.dirty
  | .evpn _ => r.evpn.dirty

/-- Another peer has a path under the key too. -/
def BgpRouter.contested (r : BgpRouter) (addr : Ipv4Address) : RouteKey → Prop
  | .ipv4 k => r.ipv4.Contested addr k
  | .ipv6 k => r.ipv6.Contested addr k
  | .evpn k => r.evpn.Contested addr k

/-- The peer has announced the same route before, and it is still there. -/
def BgpRouter.repeats (r : BgpRouter) (addr : Ipv4Address) : AnyPath → Bool
  | .ipv4 path => (r.ipv4.adjRibIn.get? addr path.pfx).any fun p => p.sameRouteAs path
  | .ipv6 path => (r.ipv6.adjRibIn.get? addr path.pfx).any fun p => p.sameRouteAs path
  | .evpn path => (r.evpn.adjRibIn.get? addr path.key).any fun p => p.sameRouteAs path

def AnyPath.receivedAtMs : AnyPath → ℕ
  | .ipv4 p => p.receivedAtMs
  | .ipv6 p => p.receivedAtMs
  | .evpn p => p.receivedAtMs

/-- Where a family is not marked, a call makes no stored path stale or fresh that competes with
another one. -/
def Call.Noticed : Call → Prop
  | .teardown before idx why =>
    let addr := (before.peerAt idx).addr
    ∀ k t, before.held addr k = some t → before.contested addr k → k.family ≠ .ipv4Unicast →
      (before.retention idx 0 why).1.contains k.family = true → before.dirtyOf k = false →
      before.routeIsGracefulRestartStale addr k.family t = true
  | .reconcile before idx nowMs kept =>
    let addr := (before.peerAt idx).addr
    ∀ k t, before.held addr k = some t → before.contested addr k →
      kept.contains k.family = true →
      (before.peerAt idx).gracefulRestartStale.contains k.family = true → before.dirtyOf k = false →
      before.routeIsGracefulRestartStale addr k.family t = decide (t < nowMs)
  | .store before idx path =>
    let addr := (before.peerAt idx).addr
    before.repeats addr path = true → before.contested addr path.key →
      before.dirtyOf path.key = false →
      ∀ t, before.held addr path.key = some t →
        before.routeIsGracefulRestartStale addr path.key.family t =
          before.routeIsGracefulRestartStale addr path.key.family path.receivedAtMs
  | _ => True

/-- All three families after a step. -/
structure Noticed (r r' : BgpRouter) : Prop where
  ipv4 : RibNoticed BgpPath.undated (fun a t => (r.sessionOf a).restart.isStale .ipv4Unicast t)
    (fun a t => (r'.sessionOf a).restart.isStale .ipv4Unicast t) r.ipv4 r'.ipv4
  ipv6 : RibNoticed Ipv6Path.undated (fun a t => (r.sessionOf a).restart.isStale .ipv6Unicast t)
    (fun a t => (r'.sessionOf a).restart.isStale .ipv6Unicast t) r.ipv6 r'.ipv6
  evpn : RibNoticed EvpnPath.undated (fun a t => (r.sessionOf a).restart.isStale .l2vpnEvpn t)
    (fun a t => (r'.sessionOf a).restart.isStale .l2vpnEvpn t) r.evpn r'.evpn

section steps

variable {nowMs idx : ℕ} {r r' : BgpRouter} {cs : List Call} {f : BgpPeer → BgpPeer}

theorem OnlyTold.noticed (h : OnlyTold r r')
    (hrestart : ∀ a, (r'.sessionOf a).restart = (r.sessionOf a).restart) : Noticed r r' :=
  ⟨.of_told h.ipv4 fun a _ => by rw [hrestart a], .of_told h.ipv6 fun a _ => by rw [hrestart a],
    .of_told h.evpn fun a _ => by rw [hrestart a]⟩

theorem restart_updatePeer (hn : r.addrs.Nodup) (hidx : idx < r.peers.length)
    (haddr : (f (r.peerAt idx)).addr = (r.peerAt idx).addr)
    (hrestart : (f (r.peerAt idx)).restart = (r.peerAt idx).restart) (a : Ipv4Address) :
    ((r.updatePeer idx f).sessionOf a).restart = (r.sessionOf a).restart := by
  rw [BgpRouter.sessionOf_updatePeer hn hidx haddr]
  split
  · rename_i ha
    rw [← ha, BgpRouter.sessionOf_peerAt hn hidx]
    exact hrestart
  · rfl

theorem Plane.Replays.restart {κ π ρ ο : Type} [Ord κ] {plane : Plane κ π ρ ο} {family : AfiSafi}
    (h : plane.Replays r idx cs r') (hn : r.addrs.Nodup)
    (hpeers : ∀ r rib, (plane.setRib r rib).peers = r.peers) (a : Ipv4Address) :
    ((r'.setPhase idx family .needEorr).sessionOf a).restart = (r.sessionOf a).restart := by
  obtain ⟨ks, htells, -⟩ := h.tells
  have hp := htells.peers hpeers
  have hsame : r'.sessionOf a = r.sessionOf a := BgpRouter.sessionOf_of_sessions (by rw [hp])
  rw [← hsame]
  refine restart_updatePeer ?_ ?_ rfl rfl a
  · rwa [BgpRouter.addrs, hp]
  · rw [hp]
    exact h.inRange

theorem Talk.restart (hn : r.addrs.Nodup) (h : Talk r cs r') (a : Ipv4Address) :
    (r'.sessionOf a).restart = (r.sessionOf a).restart := by
  cases h with
  | quiet h => rw [BgpRouter.sessionOf_of_sessions h.sessions]
  | refreshed hidx h => exact restart_updatePeer hn hidx h.addr h.restart a
  | began hidx | ended hidx => exact restart_updatePeer hn hidx rfl rfl a
  | replayedIpv4 h | replayedIpv6 h | replayedEvpn h => exact h.restart hn (fun _ _ => rfl) a
  | _ => rfl

theorem noticed_updatePeer (hn : r.addrs.Nodup) (hidx : idx < r.peers.length)
    (haddr : (f (r.peerAt idx)).addr = (r.peerAt idx).addr)
    (hrestart : (f (r.peerAt idx)).restart = (r.peerAt idx).restart) :
    Noticed r (r.updatePeer idx f) :=
  OnlyTold.noticed ⟨rfl, .refl, .refl, .refl, rfl⟩ (restart_updatePeer hn hidx haddr hrestart)

/-- A purge of some families that leaves the staleness of everything else. -/
theorem Retired.noticed {families : AfiSafi → Bool} {stale : Std.TreeSet AfiSafi}
    {deadline cutoff : Option ℕ} (hn : r.addrs.Nodup) (hidx : idx < r.peers.length)
    (h : Retired r idx families stale deadline cutoff r')
    (hsame : ∀ k t, r.held (r.peerAt idx).addr k = some t → r.contested (r.peerAt idx).addr k →
      r.dirtyOf k = false →
      (families k.family && ((r.peerAt idx).restart.cutoff.all fun c => t < c)) = false →
      (Restart.mk stale deadline cutoff).isStale k.family t =
        (r.peerAt idx).restart.isStale k.family t) : Noticed r r' := by
  obtain ⟨r₁, hpurged, rfl⟩ := h
  have hn₁ : r₁.addrs.Nodup := by rwa [hpurged.addrs]
  have hidx₁ : idx < r₁.peers.length := by rwa [hpurged.peers]
  have hsession :
      ∀ a, ((r₁.updatePeer idx (.setRestart stale deadline cutoff)).sessionOf a).restart =
      if (r.peerAt idx).addr = a then ⟨stale, deadline, cutoff⟩ else (r.sessionOf a).restart := by
    intro a
    have hold : r₁.sessionOf a = r.sessionOf a :=
      BgpRouter.sessionOf_of_sessions (by rw [hpurged.peers])
    rw [BgpRouter.sessionOf_updatePeer hn₁ hidx₁ rfl, hpurged.peerAt, hold]
    split <;> rfl
  -- what is left of a family is as stale as it was
  have hkeep : ∀ a (k : RouteKey) t, r.contested a k → r.dirtyOf k = false →
      (r₁.updatePeer idx (.setRestart stale deadline cutoff)).held a k = some t →
      ((r₁.updatePeer idx (.setRestart stale deadline cutoff)).sessionOf
        a).restart.isStale k.family t =
        (r.sessionOf a).restart.isStale k.family t := by
    intro a k t hother hdirty hheld
    have hheld : r₁.held a k = some t := hheld
    rw [hsession]
    split
    · rename_i ha
      subst ha
      rw [BgpRouter.sessionOf_peerAt hn hidx]
      rw [hpurged.held, Option.filter_eq_some_iff] at hheld
      refine hsame k t hheld.1 hother hdirty ?_
      rw [Bool.and_eq_false_iff]
      have hsurvive := hheld.2
      simp only [decide_true, Bool.and_true, Bool.not_eq_eq_eq_not, Bool.not_true,
        Bool.and_eq_false_iff] at hsurvive
      exact hsurvive
    · rfl
  refine ⟨hpurged.ipv4.noticed ?_, hpurged.ipv6.noticed ?_, hpurged.evpn.noticed ?_⟩
  · refine (em (r.ipv4.dirty = true)).imp id fun hd a k p hp hother => ?_
    exact hkeep a (.ipv4 k) _ hother (Bool.eq_false_iff.mpr hd)
      (congrArg (Option.map BgpPath.receivedAtMs) hp)
  · refine (em (r.ipv6.dirty = true)).imp id fun hd a k p hp hother => ?_
    exact hkeep a (.ipv6 k) _ hother (Bool.eq_false_iff.mpr hd)
      (congrArg (Option.map Ipv6Path.receivedAtMs) hp)
  · refine (em (r.evpn.dirty = true)).imp id fun hd a k p hp hother => ?_
    exact hkeep a (.evpn k) _ hother (Bool.eq_false_iff.mpr hd)
      (congrArg (Option.map EvpnPath.receivedAtMs) hp)

/-- A family is retired with everything stale in it. -/
theorem isStale_of_survivor {s : Restart} {F : AfiSafi} {t : ℕ} {on : Bool}
    (hon : s.stale.contains F = true → on = true)
    (h : (on && s.cutoff.all fun c => t < c) = false) : s.isStale F t = false := by
  rw [Restart.isStale]
  cases hc : s.stale.contains F
  · rfl
  · rw [hon hc] at h
    simpa using h

theorem noticed_flush (hn : r.addrs.Nodup) (hidx : idx < r.peers.length) :
    Noticed r (r.flushGracefulRestart idx) := by
  refine BgpRouter.retired_flush.noticed hn hidx fun k t _ _ _ hsurvive => ?_
  have hnone : (r.peerAt idx).restart.isStale k.family t = false :=
    isStale_of_survivor (fun h => h) hsurvive
  rw [hnone]
  simp [Restart.isStale]

theorem noticed_complete {family : AfiSafi} (hn : r.addrs.Nodup) (hidx : idx < r.peers.length) :
    Noticed r (r.completeGracefulRestartFamily idx family) := by
  by_cases h : (r.peerAt idx).gracefulRestartStale.contains family
  · refine (BgpRouter.retired_complete hidx h).noticed hn hidx fun k t _ _ _ hsurvive => ?_
    by_cases hf : k.family = family
    · rw [isStale_of_survivor (fun _ => decide_eq_true hf) hsurvive]
      simp [Restart.isStale, hf]
    · -- another family keeps its cutoff while it is retained
      cases hc : (r.peerAt idx).gracefulRestartStale.contains k.family
      · simp [Restart.isStale, BgpPeer.restart, hc]
      · have hleft : ((r.peerAt idx).gracefulRestartStale.erase family).contains k.family =
            true := by
          simp [Ne.symm hf, hc]
        have hne : ((r.peerAt idx).gracefulRestartStale.erase family).isEmpty = false := by
          by_contra he
          rw [Bool.not_eq_false, Std.TreeSet.isEmpty_iff_forall_not_mem] at he
          exact he k.family hleft
        simp [Restart.isStale, BgpPeer.restart, hne, hc, Ne.symm hf]
  · rw [BgpRouter.completeGracefulRestartFamily, if_neg h]
    exact OnlyTold.refl.noticed fun _ => rfl

theorem noticed_reconcile {negotiated : NegotiatedCapabilities} {peerCaps : BgpCapabilitySet}
    (hn : r.addrs.Nodup) (hidx : idx < r.peers.length)
    (hok : (Call.reconcile r idx nowMs (BgpRouter.familiesKept negotiated peerCaps)).Noticed) :
    Noticed r (r.reconcileGracefulRestartOpen idx nowMs negotiated peerCaps) := by
  by_cases h : (r.peerAt idx).gracefulRestartActive
  · obtain ⟨left, hleft, hretired⟩ : BgpRouter.Reconciled r idx nowMs _ _ :=
      BgpRouter.reconciled_reconcile negotiated peerCaps hidx h
    refine hretired.noticed hn hidx fun k t hheld hother hdirty hsurvive => ?_
    have hstale : r.routeIsGracefulRestartStale (r.peerAt idx).addr k.family t =
        (r.peerAt idx).restart.isStale k.family t := by
      rw [BgpRouter.isStale_sessionOf, BgpRouter.sessionOf_peerAt hn hidx]
      rfl
    cases hk : (BgpRouter.familiesKept negotiated peerCaps).contains k.family
    · rw [isStale_of_survivor (fun hc => by rw [hk]; simpa [BgpPeer.restart] using hc) hsurvive]
      simp [Restart.isStale, hleft, hk]
    · cases hc : (r.peerAt idx).gracefulRestartStale.contains k.family
      · simp [Restart.isStale, BgpPeer.restart, hleft, hc]
      · have hin : left.contains k.family = true := by simp [hleft, hc, hk]
        have hne : left.isEmpty = false := by
          by_contra he
          rw [Bool.not_eq_false, Std.TreeSet.isEmpty_iff_forall_not_mem] at he
          exact he k.family hin
        rw [← hstale, hok k t hheld hother hk hc hdirty]
        simp [Restart.isStale, hne, hin]
  · rw [BgpRouter.reconcileGracefulRestartOpen, if_pos (by simpa using h)]
    exact OnlyTold.refl.noticed fun _ => rfl

theorem retention_now (r : BgpRouter) (idx t t' : ℕ) (why : Teardown) :
    (r.retention idx t why).1 = (r.retention idx t' why).1 := by
  unfold BgpRouter.retention
  simp only
  repeat' split
  all_goals rfl

theorem noticed_down {why : Teardown} (hn : r.addrs.Nodup) (hidx : idx < r.peers.length)
    (hok : (Call.teardown r idx why).Noticed) : Noticed r (r.sessionDown idx nowMs why) := by
  -- what is retained is stale from now on, and has been if nothing marks it
  have hkeep : ∀ a (k : RouteKey) t, r.contested a k → k.family ≠ .ipv4Unicast →
      r.dirtyOf k = false →
      (r.sessionDown idx nowMs why).held a k = some t →
      ((r.sessionDown idx nowMs why).sessionOf a).restart.isStale k.family t =
        (r.sessionOf a).restart.isStale k.family t := by
    intro a k t hother hk hdirty hheld
    rw [sessionOf_sessionDown hn hidx]
    split
    · rename_i ha
      subst ha
      rw [held_sessionDown] at hheld
      split at hheld
      · cases hheld
      · rename_i hin
        have hin : (r.retention idx nowMs why).1.contains k.family = true := by simpa using hin
        rcases retention_cases r idx nowMs why with ⟨-, -, hret⟩ | ⟨hnone, -⟩
        · rw [hret, BgpRouter.sessionOf_peerAt hn hidx]
          rfl
        · rw [← BgpRouter.isStale_sessionOf]
          rw [hok k t hheld hother hk (by rwa [retention_now r idx 0 nowMs]) hdirty]
          simp [Restart.isStale, hin, hnone]
    · rfl
  refine ⟨.of_marked rfl, .down ?_, .down ?_⟩
  · refine (em (r.ipv6.dirty = true)).imp id fun hd a k p hp hother => ?_
    exact hkeep a (.ipv6 k) _ hother (show AfiSafi.ipv6Unicast ≠ .ipv4Unicast by decide)
      (Bool.eq_false_iff.mpr hd)
      (congrArg (Option.map Ipv6Path.receivedAtMs) hp)
  · refine (em (r.evpn.dirty = true)).imp id fun hd a k p hp hother => ?_
    exact hkeep a (.evpn k) _ hother (show AfiSafi.l2vpnEvpn ≠ .ipv4Unicast by decide)
      (Bool.eq_false_iff.mpr hd)
      (congrArg (Option.map EvpnPath.receivedAtMs) hp)

theorem any_of_get {π : Type} {o : Option π} {p : π} {q : π → Bool} (ho : o = some p)
    (hq : q p = true) : o.any q = true := by
  rw [ho]
  exact hq

/-- Every step but the decision. -/
theorem Step.noticed (hn : r.addrs.Nodup) (h : Step nowMs r cs r') (hok : ∀ c ∈ cs, c.Noticed) :
    Noticed r r' ∨ r' = r.decideWhereDirty nowMs := by
  cases h with
  | talk h => exact .inl (h.onlyTold.noticed (h.restart hn))
  | moved hidx h => exact .inl (noticed_updatePeer hn hidx h.addr h.restart)
  | reconciled hidx => exact .inl (noticed_reconcile hn hidx (hok _ List.mem_cons_self))
  | confirmed hidx => exact .inl (noticed_updatePeer hn hidx rfl rfl)
  | @established idx hidx hstate =>
    have hup : Noticed r (r.updatePeer idx fun p => { p with state := .established }) :=
      noticed_updatePeer hn hidx rfl rfl
    exact .inl ⟨.of_marked rfl, hup.ipv6, hup.evpn⟩
  | torn hidx => exact .inl (noticed_down hn hidx (hok _ List.mem_cons_self))
  | adopted hidx h => exact .inl (noticed_updatePeer hn hidx h.addr h.restart)
  | @storedIpv4 idx path hidx =>
    have hcall := hok _ List.mem_cons_self
    have hsame : Noticed r r := OnlyTold.refl.noticed fun _ => rfl
    refine .inl ⟨.receive (fun p => BgpPath.sameRouteAs_iff.mp) ?_, hsame.ipv6, hsame.evpn⟩
    refine (em (r.ipv4.dirty = true)).imp id fun hd p hp hroute hother => ?_
    rw [← BgpRouter.isStale_sessionOf, ← BgpRouter.isStale_sessionOf]
    exact hcall (any_of_get hp hroute) hother (Bool.eq_false_iff.mpr hd) _
      (congrArg (Option.map BgpPath.receivedAtMs) hp)
  | @storedIpv6 idx path hidx =>
    have hcall := hok _ List.mem_cons_self
    have hsame : Noticed r r := OnlyTold.refl.noticed fun _ => rfl
    refine .inl ⟨hsame.ipv4, .receive (fun p => Ipv6Path.sameRouteAs_iff.mp) ?_, hsame.evpn⟩
    refine (em (r.ipv6.dirty = true)).imp id fun hd p hp hroute hother => ?_
    rw [← BgpRouter.isStale_sessionOf, ← BgpRouter.isStale_sessionOf]
    exact hcall (any_of_get hp hroute) hother (Bool.eq_false_iff.mpr hd) _
      (congrArg (Option.map Ipv6Path.receivedAtMs) hp)
  | @storedEvpn idx path hidx =>
    have hcall := hok _ List.mem_cons_self
    have hsame : Noticed r r := OnlyTold.refl.noticed fun _ => rfl
    refine .inl ⟨hsame.ipv4, hsame.ipv6, .receive (fun p => EvpnPath.sameRouteAs_iff.mp) ?_⟩
    refine (em (r.evpn.dirty = true)).imp id fun hd p hp hroute hother => ?_
    rw [← BgpRouter.isStale_sessionOf, ← BgpRouter.isStale_sessionOf]
    exact hcall (any_of_get hp hroute) hother (Bool.eq_false_iff.mpr hd) _
      (congrArg (Option.map EvpnPath.receivedAtMs) hp)
  | droppedIpv4 =>
    have hsame : Noticed r r := OnlyTold.refl.noticed fun _ => rfl
    exact .inl ⟨.withdrawAll, hsame.ipv6, hsame.evpn⟩
  | droppedIpv6 =>
    have hsame : Noticed r r := OnlyTold.refl.noticed fun _ => rfl
    exact .inl ⟨hsame.ipv4, .withdrawAll, hsame.evpn⟩
  | droppedEvpn =>
    have hsame : Noticed r r := OnlyTold.refl.noticed fun _ => rfl
    exact .inl ⟨hsame.ipv4, hsame.ipv6, .withdrawAll⟩
  | completed hidx => exact .inl (noticed_complete hn hidx)
  | flushed hidx => exact .inl (noticed_flush hn hidx)
  | decided => exact .inr rfl

end steps

/-! ### The choice is current -/

/-- The Loc-RIBs, dates aside, are what the decision processes would compute. -/
structure Current (r : BgpRouter) (nowMs : ℕ) : Prop where
  ipv4 : ∀ k : Ipv4Prefix,
    r.ipv4.locRib[k]?.map BgpPath.undated = r.decision[k]?.map BgpPath.undated
  ipv6 : ∀ k : Ipv6Prefix,
    r.ipv6.locRib[k]?.map Ipv6Path.undated = r.ipv6Decision[k]?.map Ipv6Path.undated
  evpn : ∀ k : EvpnRouteKey,
    r.evpn.locRib[k]?.map EvpnPath.undated = (r.evpnDecision nowMs)[k]?.map EvpnPath.undated
  advertise : ∀ k : EvpnRouteKey, r.evpnAdvertiseRib[k]?.map EvpnPath.undated =
    (r.evpnAdvertiseDecision nowMs)[k]?.map EvpnPath.undated

/-- The same of the families that are not marked, in terms of who competes. -/
structure CurrentWhereClean (r : BgpRouter) : Prop where
  ipv4 : r.ipv4.dirty = false → ∀ k : Ipv4Prefix, r.ipv4.locRib[k]?.map BgpPath.undated =
    selectBest ((r.ipv4Contenders k).map BgpPath.undated)
  ipv6 : r.ipv6.dirty = false → ∀ k : Ipv6Prefix, r.ipv6.locRib[k]?.map Ipv6Path.undated =
    selectBestIpv6 ((r.ipv6Contenders k).map Ipv6Path.undated)
  evpn : r.evpn.dirty = false → ∀ k : EvpnRouteKey, r.evpn.locRib[k]?.map EvpnPath.undated =
    selectBestEvpn (((r.evpnContenders 0 k).map EvpnPath.undated).filter fun p =>
      p.isLocal || p.importable)
  advertise : r.evpn.dirty = false → ∀ k : EvpnRouteKey,
    r.evpnAdvertiseRib[k]?.map EvpnPath.undated =
      selectBestEvpn ((r.evpnContenders 0 k).map EvpnPath.undated)

section current

variable {nowMs : ℕ} {r r' : BgpRouter}

/-- The stale test of a decision, owner by owner. -/
theorem RibUnmoved.contenders {κ π ρ ο : Type} [Ord κ] [DecidableEq κ] [Std.TransOrd κ]
    [Std.LawfulEqOrd κ] [RoutePath π κ] {undated : π → π} {rib rib' : Rib κ π ρ ο} {F : AfiSafi}
    {mkLocal mkLocal' : κ → ο → π}
    (h : RibUnmoved undated (fun a t => (r.sessionOf a).restart.isStale F t)
      (fun a t => (r'.sessionOf a).restart.isStale F t) rib rib')
    (hplaced : RibPlaced rib) (hplaced' : RibPlaced rib')
    (hlocal : ∀ k route, undated (mkLocal' k route) = undated (mkLocal k route)) (k : κ) :
    (rib'.contenders (fun p => r'.routeIsGracefulRestartStale (RoutePath.peerAddr p) F
        (RoutePath.receivedAtMs p)) mkLocal' k).map undated =
      (rib.contenders (fun p => r.routeIsGracefulRestartStale (RoutePath.peerAddr p) F
        (RoutePath.receivedAtMs p)) mkLocal k).map undated := by
  have hview : ∀ (r : BgpRouter) (rib : Rib κ π ρ ο), RibPlaced rib → ∀ a,
      (rib.adjRibIn.get? a k).map (fun p => (undated p,
        r.routeIsGracefulRestartStale (RoutePath.peerAddr p) F (RoutePath.receivedAtMs p))) =
      (rib.adjRibIn.get? a k).map fun p => (undated p,
        (r.sessionOf a).restart.isStale F (RoutePath.receivedAtMs p)) := by
    intro r rib hplaced a
    cases hp : rib.adjRibIn.get? a k with
    | none => rfl
    | some p => simp [BgpRouter.isStale_sessionOf, (hplaced a k p hp).2]
  by_cases hmany : ∃ a b, a ≠ b ∧ (rib.adjRibIn.get? a k).isSome ∧ (rib.adjRibIn.get? b k).isSome
  · -- every path has a rival, so all are as stale as before
    have hother : ∀ c, rib.Contested c k := by
      obtain ⟨a, b, hab, ha, hb⟩ := hmany
      intro c
      by_cases hc : a = c
      · exact ⟨b, by rw [← hc]; exact hab.symm, hb⟩
      · exact ⟨a, hc, ha⟩
    refine map_contenders (fun a => ?_) h.originated (hlocal k)
    rw [hview r' rib' hplaced', hview r rib hplaced]
    have hpaths := h.paths a k
    cases hp : rib.adjRibIn.get? a k with
    | none =>
      rw [hp, Option.map_none, Option.map_eq_none_iff] at hpaths
      rw [hpaths]
      rfl
    | some p =>
      rw [hp, Option.map_some, Option.map_eq_some_iff] at hpaths
      obtain ⟨p', hp', hundated⟩ := hpaths
      simp [hp', hundated, h.stale a k p p' hp hp' (hother a)]
  · -- a path without a rival is chosen whether it is stale or not
    have hsole : ∀ (rib : Rib κ π ρ ο) (stale : π → Bool),
        (∀ a b, (rib.adjRibIn.get? a k).isSome → (rib.adjRibIn.get? b k).isSome → a = b) →
        ∃ b, ∀ p ∈ rib.adjRibIn.candidates k, stale p = b := by
      intro rib stale hone
      by_cases hnone : ∃ p, p ∈ rib.adjRibIn.candidates k
      · obtain ⟨p, hp⟩ := hnone
        refine ⟨stale p, fun q hq => ?_⟩
        obtain ⟨a, ha⟩ := Nested.mem_candidates.mp hp
        obtain ⟨b, hb⟩ := Nested.mem_candidates.mp hq
        obtain rfl := hone a b (by simp [ha]) (by simp [hb])
        rw [Option.some.inj (ha.symm.trans hb)]
      · exact ⟨false, fun p hp => absurd ⟨p, hp⟩ hnone⟩
    have hone : ∀ a b, (rib.adjRibIn.get? a k).isSome → (rib.adjRibIn.get? b k).isSome → a = b := by
      intro a b ha hb
      by_contra hab
      exact hmany ⟨a, b, hab, ha, hb⟩
    have hsome : ∀ a, (rib'.adjRibIn.get? a k).isSome = (rib.adjRibIn.get? a k).isSome := by
      intro a
      rw [← Option.isSome_map (f := undated), h.paths, Option.isSome_map]
    obtain ⟨b, hb⟩ := hsole rib _ hone
    obtain ⟨b', hb'⟩ := hsole rib' _ fun a b ha hb => hone a b (by rwa [← hsome]) (by rwa [← hsome])
    rw [contenders_of_alike hb, contenders_of_alike hb', List.map_append, List.map_append,
      Nested.map_candidates (fun a => h.paths a k), h.originated]
    congr 1
    cases rib.originated[k]? with
    | none => rfl
    | some route => simp [hlocal]

theorem CurrentWhereClean.keep (h : CurrentWhereClean r) (hn : Noticed r r') (hc : SameChoice r r')
    (hid : r'.routerId = r.routerId) (hs : Stored r) (hs' : Stored r') : CurrentWhereClean r' := by
  refine ⟨?_, ?_, ?_, ?_⟩
  · intro hclean k
    have hsame := hn.ipv4 hclean
    rw [hc.ipv4, h.ipv4 hsame.clean]
    exact congrArg selectBest (hsame.contenders hs.ipv4 hs'.ipv4 (fun _ _ => by rw [hid]) k).symm
  · intro hclean k
    have hsame := hn.ipv6 hclean
    rw [hc.ipv6, h.ipv6 hsame.clean]
    exact congrArg selectBestIpv6 (hsame.contenders hs.ipv6 hs'.ipv6
      (fun _ _ => by rw [hid]) k).symm
  · intro hclean k
    have hsame := hn.evpn hclean
    rw [hc.evpn, h.evpn hsame.clean]
    have hcontenders : (r'.evpnContenders 0 k).map EvpnPath.undated =
        (r.evpnContenders 0 k).map EvpnPath.undated :=
      hsame.contenders hs.evpn hs'.evpn (fun _ _ => by rw [hid]) k
    rw [hcontenders]
  · intro hclean k
    have hsame := hn.evpn hclean
    rw [hc.evpnAdvertiseRib, h.advertise hsame.clean]
    have hcontenders : (r'.evpnContenders 0 k).map EvpnPath.undated =
        (r.evpnContenders 0 k).map EvpnPath.undated :=
      hsame.contenders hs.evpn hs'.evpn (fun _ _ => by rw [hid]) k
    rw [hcontenders]

/-- The date of a decision only dates what this speaker originates. -/
theorem evpnContenders_undated (r : BgpRouter) (t t' : ℕ) (k : EvpnRouteKey) :
    (r.evpnContenders t k).map EvpnPath.undated = (r.evpnContenders t' k).map EvpnPath.undated :=
  map_contenders (fun _ => rfl) rfl fun _ => rfl

theorem filter_undated (l : List EvpnPath) :
    (l.map EvpnPath.undated).filter (fun p => p.isLocal || p.importable) =
      (l.filter fun p => p.isLocal || p.importable).map EvpnPath.undated := by
  rw [List.filter_map]
  rfl

theorem CurrentWhereClean.current (h : CurrentWhereClean r) (hs : Stored r)
    (h4 : r.ipv4.dirty = false) (h6 : r.ipv6.dirty = false)
    (he : r.evpn.dirty = false) (nowMs : ℕ) : Current r nowMs := by
  refine ⟨fun k => ?_, fun k => ?_, fun k => ?_, fun k => ?_⟩
  · rw [h.ipv4 h4, BgpRouter.getElem?_decision hs.ipv4, selectBest_undated]
  · rw [h.ipv6 h6, BgpRouter.getElem?_ipv6Decision hs.ipv6, selectBestIpv6_undated]
  · rw [h.evpn he, BgpRouter.getElem?_evpnDecision hs.evpn hs.keyed, ← selectBestEvpn_undated,
      ← filter_undated, evpnContenders_undated r nowMs 0]
  · rw [h.advertise he, BgpRouter.getElem?_evpnAdvertiseDecision hs.evpn hs.keyed,
      ← selectBestEvpn_undated, evpnContenders_undated r nowMs 0]

/-- A decision changes nothing that it depends on. -/
theorem contenders_decide (r : BgpRouter) (nowMs : ℕ) :
    (∀ k, (r.decideWhereDirty nowMs).ipv4Contenders k = r.ipv4Contenders k) ∧
    (∀ k, (r.decideWhereDirty nowMs).ipv6Contenders k = r.ipv6Contenders k) ∧
    ∀ t k, (r.decideWhereDirty nowMs).evpnContenders t k = r.evpnContenders t k := by
  rw [decideWhereDirty_eq]
  refine ⟨fun k => ?_, fun k => ?_, fun t k => ?_⟩
  · simp only [BgpRouter.ipv4Contenders, Rib.contenders, apply_ite Rib.adjRibIn,
      apply_ite Rib.originated, ite_self]
    rfl
  · simp only [BgpRouter.ipv6Contenders, Rib.contenders, apply_ite Rib.adjRibIn,
      apply_ite Rib.originated, ite_self]
    rfl
  · simp only [BgpRouter.evpnContenders, Rib.contenders, apply_ite Rib.adjRibIn,
      apply_ite Rib.originated, ite_self]
    rfl

theorem CurrentWhereClean.decide (h : CurrentWhereClean r) (hs : Stored r) :
    CurrentWhereClean (r.decideWhereDirty nowMs) := by
  obtain ⟨h4, h6, he⟩ := contenders_decide r nowMs
  refine ⟨fun _ k => ?_, fun _ k => ?_, fun _ k => ?_, fun _ k => ?_⟩
  · rw [h4, decideWhereDirty_eq]
    cases hd : r.ipv4.dirty
    · exact h.ipv4 hd k
    · rw [selectBest_undated, ← BgpRouter.getElem?_decision hs.ipv4]
      rfl
  · rw [h6, decideWhereDirty_eq]
    cases hd : r.ipv6.dirty
    · exact h.ipv6 hd k
    · rw [selectBestIpv6_undated, ← BgpRouter.getElem?_ipv6Decision hs.ipv6]
      rfl
  · rw [he, decideWhereDirty_eq]
    cases hd : r.evpn.dirty
    · exact h.evpn hd k
    · rw [evpnContenders_undated r 0 nowMs, filter_undated, selectBestEvpn_undated,
        ← BgpRouter.getElem?_evpnDecision hs.evpn hs.keyed]
      rfl
  · rw [he, decideWhereDirty_eq]
    cases hd : r.evpn.dirty
    · exact h.advertise hd k
    · rw [evpnContenders_undated r 0 nowMs, selectBestEvpn_undated,
        ← BgpRouter.getElem?_evpnAdvertiseDecision hs.evpn hs.keyed]
      rfl

theorem clean_decide (r : BgpRouter) (nowMs : ℕ) : (r.decideWhereDirty nowMs).ipv4.dirty = false ∧
    (r.decideWhereDirty nowMs).ipv6.dirty = false ∧
    (r.decideWhereDirty nowMs).evpn.dirty = false := by
  rw [decideWhereDirty_eq]
  refine ⟨?_, ?_, ?_⟩
  · cases hd : r.ipv4.dirty <;> simp [hd]
  · cases hd : r.ipv6.dirty <;> simp [hd]
  · cases hd : r.evpn.dirty <;> simp [hd]

theorem RibConfigured.noticed {κ π ρ ο : Type} [Ord κ] [RoutePath π κ] {undated : π → π}
    {rib rib' : Rib κ π ρ ο} {stale stale' : Ipv4Address → ℕ → Bool} (h : RibConfigured rib rib')
    (hstale : ∀ a t, stale' a t = stale a t) : RibNoticed undated stale stale' rib rib' := by
  intro hclean
  have hsame := h.clean hclean
  rw [hsame] at hclean ⊢
  exact .of_get hclean rfl (fun _ _ => rfl) fun a _ _ _ _ => hstale a _

theorem Configured.noticed (h : Configured r r') : Noticed r r' :=
  ⟨h.ipv4.noticed fun a _ => by rw [h.sessions a], h.ipv6.noticed fun a _ => by rw [h.sessions a],
    h.evpn.noticed fun a _ => by rw [h.sessions a]⟩

theorem current_invariant :
    StepInvariant Call.Noticed fun r _ _ => Stored r ∧ CurrentWhereClean r where
  start localAs routerId := by
    refine ⟨stored_new localAs routerId, ?_⟩
    constructor <;> intro _ k <;> rfl
  later h _ := h
  step := by
    intro r cs r' log t hn hs hok h
    refine ⟨h.1.step hs, ?_⟩
    rcases hs.noticed hn hok with hnoticed | rfl
    · rcases hs.choice with hchoice | rfl
      · exact h.2.keep hnoticed hchoice (congrArg Settings.routerId hs.sameOriginated.settings) h.1
          (h.1.step hs)
      · exact h.2.decide h.1
    · exact h.2.decide h.1
  configure := by
    intro r r' log t hc h
    exact ⟨h.1.configured hc,
      h.2.keep hc.noticed hc.sameChoice hc.routerId h.1 (h.1.configured hc)⟩

end current

/-- After a poll every Loc-RIB is current, whatever came before, if no call made a stored path of an
unmarked family stale or fresh. -/
theorem locRib_current {σ : Type} {io : SocketRuntime σ} {w : World σ} {t nowMs : ℕ}
    (h : Reachable io w t) (ht : t ≤ nowMs) (hok : ∀ c ∈ (w.poll io nowMs).calls, c.Noticed) :
    Current (w.poll io nowMs).router nowMs := by
  have hpolled : Reachable io (w.poll io nowMs) nowMs := h.poll ht
  obtain ⟨hstored, hcurrent⟩ := hpolled.invariant current_invariant hok
  -- advertising marks nothing, so the flags are as the decisions left them
  have htold : OnlyTold ((w.pollSessions io nowMs).withRouter fun r =>
    r.decideWhereDirty nowMs).router
      (w.poll io nowMs).router := World.pollAdvertise_talks.onlyTold
  obtain ⟨h4, h6, he⟩ := clean_decide (w.pollSessions io nowMs).router nowMs
  exact hcurrent.current hstored (htold.ipv4.dirty.trans h4) (htold.ipv6.dirty.trans h6)
    (htold.evpn.dirty.trans he) nowMs

/-! ### Two runs -/

def otherNeighbour : Ipv4Address := ⟨10, 0, 0, 3⟩

def contested : Ipv6Prefix := .new ⟨#v[0x20, 1, 0xd, 0xb8, 0, 0, 0, 0, 0, 0, 0, 0, 0, 0, 0, 0]⟩ 32

/-- A neighbour that speaks IPv6 brings its session up and announces the contested prefix. -/
def ipv6Up (peerAs : UInt32) (id : Ipv4Address) : List UInt8 :=
  handshake peerAs id ((BgpRouter.new peerAs id).enableFamily .ipv6Unicast).localCapabilities ++
    (BgpPdu.update
      { withdrawn := []
        attributes := some { BgpPathAttributes.new .igp (.sequence [peerAs]) .unspecified with
          mpReach := some ⟨2, 1, List.replicate 16 1, contested.encode⟩
          fourOctetAs := true }
        nlri := [] }).serialize

/-- Two sessions are about to bring the same prefix. -/
def twoAnnouncements : World Script × ℕ :=
  World.play scripted
    [.configure (.enableFamily .ipv6Unicast),
      .configure (.addPeer neighbour 65002 ⟨10, 0, 0, 1⟩ .active),
      .configure (.addPeer otherNeighbour 65003 ⟨10, 0, 0, 1⟩ .passive), .poll 0, .poll 1,
      .network { accepts := [(3, otherNeighbour)] }, .poll 2,
      .network { inbox := [(2, ipv6Up 65002 ⟨10, 0, 0, 9⟩), (3, ipv6Up 65003 ⟨10, 0, 0, 10⟩)] }]
    (⟨.new 65001 ⟨10, 0, 0, 1⟩, {}, []⟩, 0)

/-- An entry of the log that retains no path, meets no retained one and repeats no route. -/
def Call.calm : Call → Bool
  | .teardown before idx _ => before.ipv6.adjRibIn.count (before.peerAt idx).addr = 0 ∧
      before.evpn.adjRibIn.count (before.peerAt idx).addr = 0
  | .reconcile before idx _ _ => (before.peerAt idx).gracefulRestartStale.isEmpty
  | .store before idx path => !before.repeats (before.peerAt idx).addr path
  | _ => true

theorem Call.noticed_of_calm {c : Call} (h : c.calm = true) : c.Noticed := by
  cases c with
  | teardown before idx why =>
    obtain ⟨h6, he⟩ := of_decide_eq_true h
    intro k t hheld _ hk
    cases k with
    | ipv4 k => exact absurd rfl hk
    | ipv6 k => simp [BgpRouter.held, Nested.count_eq_zero_iff.mp h6 k] at hheld
    | evpn k => simp [BgpRouter.held, Nested.count_eq_zero_iff.mp he k] at hheld
  | reconcile before idx nowMs kept =>
    intro k t _ _ _ hin
    have hempty := Std.TreeSet.isEmpty_iff_forall_not_mem.mp h
    exact absurd hin (hempty k.family)
  | store before idx path =>
    intro hrepeats
    simp [calm, hrepeats] at h
  | _ => trivial

example : twoAnnouncements.1.router.peers.map (·.addr) = [neighbour, otherNeighbour] := by
  decide +kernel

theorem locRib_current_twoAnnouncements :
    Reachable scripted twoAnnouncements.1 twoAnnouncements.2 ∧
      Current (twoAnnouncements.1.poll scripted 3).router 3 := by
  have hr : Reachable scripted twoAnnouncements.1 twoAnnouncements.2 := .play (.start _ _ _) _
  have hcalm : ∀ c ∈ (twoAnnouncements.1.poll scripted 3).calls, c.calm = true := by decide +kernel
  exact ⟨hr, locRib_current hr (by decide +kernel) fun c hc => Call.noticed_of_calm (hcalm c hc)⟩

/-- The transport of the preferred neighbour fails. -/
def preferredLost : World Script × ℕ :=
  World.play scripted [.poll 3, .network { dead := [2] }] twoAnnouncements

/-- Its path is retained and stale, and the other one would be chosen; but nothing marks the IPv6
tables, so the stale path stays. -/
theorem not_current_preferredLost : ∃ w t, Reachable scripted w t ∧ t ≤ 4 ∧
    ¬ Current (w.poll scripted 4).router 4 := by
  have hr : Reachable scripted twoAnnouncements.1 twoAnnouncements.2 := .play (.start _ _ _) _
  have hlost : Reachable scripted preferredLost.1 preferredLost.2 := hr.play _
  refine ⟨preferredLost.1, preferredLost.2, hlost, by decide +kernel, fun h => ?_⟩
  have hchoice := h.ipv6 contested
  revert hchoice
  decide +kernel

end ToyTcpip.Bgp
