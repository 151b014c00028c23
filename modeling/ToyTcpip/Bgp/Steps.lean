import ToyTcpip.Bgp.Poll
import ToyTcpip.Bgp.Tables
import ToyTcpip.Lib.Machine

/-! The speaker as a transition system: what its calls can do to sessions and tables. -/
namespace ToyTcpip.Bgp

/-- What is left to do of route refreshes, in both directions. -/
structure Refresh where
  pending : Std.TreeSet AfiSafi := ∅
  outbound : Std.TreeMap AfiSafi EnhancedRefreshPhase := ∅
  inbound : Std.TreeSet AfiSafi := ∅
  staleIpv4 : Std.TreeSet Ipv4Prefix := ∅
  staleIpv6 : Std.TreeSet Ipv6Prefix := ∅
  staleEvpn : Std.TreeSet EvpnRouteKey := ∅

/-- The routes retained while a peer restarts. -/
structure Restart where
  stale : Std.TreeSet AfiSafi := ∅
  deadline : Option ℕ := none
  cutoff : Option ℕ := none

def BgpPeer.refresh (p : BgpPeer) : Refresh :=
  ⟨p.refreshPending, p.enhancedRefreshOutbound, p.enhancedRefreshInbound,
    p.enhancedRefreshStaleIpv4, p.enhancedRefreshStaleIpv6, p.enhancedRefreshStaleEvpn⟩

def BgpPeer.restart (p : BgpPeer) : Restart :=
  ⟨p.gracefulRestartStale, p.gracefulRestartDeadline, p.gracefulRestartRefreshStartedMs⟩

/-- A session without its timers, buffers and negotiated parameters. -/
structure Session where
  addr : Ipv4Address
  state : BgpState
  live : Bool
  refresh : Refresh
  restart : Restart

def BgpPeer.session (p : BgpPeer) : Session :=
  ⟨p.addr, p.state, p.stream.isSome, p.refresh, p.restart⟩

/-- Nothing but timers, buffers, connections and configuration changes. -/
structure Quiet (r r' : BgpRouter) : Prop where
  sessions : r'.peers.map BgpPeer.session = r.peers.map BgpPeer.session
  settings : r'.settings = r.settings
  ipv4 : r'.ipv4 = r.ipv4
  ipv6 : r'.ipv6 = r.ipv6
  evpn : r'.evpn = r.evpn
  evpnAdvertiseRib : r'.evpnAdvertiseRib = r.evpnAdvertiseRib

theorem Quiet.refl (r : BgpRouter) : Quiet r r := ⟨rfl, rfl, rfl, rfl, rfl, rfl⟩

theorem Quiet.trans {r r' r'' : BgpRouter} (h : Quiet r r') (h' : Quiet r' r'') : Quiet r r'' :=
  ⟨h'.sessions.trans h.sessions, h'.settings.trans h.settings, h'.ipv4.trans h.ipv4,
    h'.ipv6.trans h.ipv6, h'.evpn.trans h.evpn, h'.evpnAdvertiseRib.trans h.evpnAdvertiseRib⟩

theorem quiet_updatePeer {r : BgpRouter} {idx : ℕ} {f : BgpPeer → BgpPeer}
    (h : ∀ p, (f p).session = p.session) : Quiet r (r.updatePeer idx f) :=
  ⟨BgpRouter.map_peers_updatePeer h, rfl, rfl, rfl, rfl, rfl⟩

/-- A session on its way up, short of the peer's OPEN. -/
structure Moved (p q : BgpPeer) : Prop where
  addr : q.addr = p.addr
  refresh : q.refresh = p.refresh
  restart : q.restart = p.restart
  before : p.state ≠ .established
  state : q.state = .active ∨ q.state = .connect ∨ q.state = .openSent ∧ q.stream.isSome

/-- Only the work left of route refreshes changes, and no replay is begun or finished. -/
structure Refreshed (p q : BgpPeer) : Prop where
  addr : q.addr = p.addr
  state : q.state = p.state
  live : q.stream.isSome = p.stream.isSome
  restart : q.restart = p.restart
  established : p.state = .established
  phase : ∀ F : AfiSafi, q.enhancedRefreshOutbound[F]? = p.enhancedRefreshOutbound[F]? ∨
    q.enhancedRefreshOutbound[F]? = some .needBorr

/-- The peer's connection has taken the place of the one the session ran on. -/
structure Adopted (p q : BgpPeer) : Prop where
  addr : q.addr = p.addr
  refresh : q.refresh = p.refresh
  restart : q.restart = p.restart
  state : q.state = .active

/-- The host bits below the length are cleared. -/
def Ipv4Prefix.Canonical (p : Ipv4Prefix) : Prop := Ipv4Prefix.new p.address p.length = p

def BgpPdu.Canonical : BgpPdu → Prop
  | .update u => ∀ p ∈ u.nlri, p.Canonical
  | _ => True

/-- A message that tells the peer of no route and marks no end. -/
def BgpPdu.Silent : BgpPdu → Prop
  | .update _ => False
  | .routeRefresh m => m.subtype = .normal
  | _ => True

/-- One message of announcements, as `advertise` sends it. -/
structure Plane.Announces {κ π ρ ο : Type} [Ord κ] (plane : Plane κ π ρ ο) (r : BgpRouter) (idx : ℕ)
    (route : ρ) (members : List (κ × ρ)) : Prop where
  inRange : idx < r.peers.length
  established : (r.peerAt idx).state = .established
  wanted : ∀ m ∈ members, (plane.desired r idx)[m.1]? = some m.2
  alike : ∀ m ∈ members, plane.groupKey (r.peerAt idx).negotiated.fourOctetAs m.2 =
    plane.groupKey (r.peerAt idx).negotiated.fourOctetAs route
  leader : ∃ k, (k, route) ∈ members

def Plane.announceCall {κ π ρ ο : Type} [Ord κ] (plane : Plane κ π ρ ο) (r : BgpRouter) (idx : ℕ)
    (route : ρ) (members : List (κ × ρ)) : Call :=
  .send r idx
    (.update (plane.announcement (r.peerAt idx).negotiated.fourOctetAs route members)) true

def Plane.afterAnnounce {κ π ρ ο : Type} [Ord κ] (plane : Plane κ π ρ ο) (r : BgpRouter) (idx : ℕ)
    (route : ρ) (members : List (κ × ρ)) : BgpRouter :=
  plane.record r idx (members.map fun m => (m.1, plane.recorded route m.2))

/-- One message of withdrawals, as `advertise` sends it. -/
structure Plane.Withdraws {κ π ρ ο : Type} [Ord κ] (plane : Plane κ π ρ ο) (r : BgpRouter) (idx : ℕ)
    (gone : List (κ × ρ)) : Prop where
  inRange : idx < r.peers.length
  established : (r.peerAt idx).state = .established
  told : ∀ m ∈ gone, (plane.rib r).adjRibOut.get? (r.peerAt idx).addr m.1 = some m.2

def Plane.withdrawCall {κ π ρ ο : Type} [Ord κ] (plane : Plane κ π ρ ο) (r : BgpRouter) (idx : ℕ)
    (gone : List (κ × ρ)) : Call :=
  .send r idx (.update (plane.withdrawal gone)) true

/-- Messages of announcements one after the other, and the keys they announce. -/
inductive Plane.Tells {κ π ρ ο : Type} [Ord κ] (plane : Plane κ π ρ ο) (idx : ℕ) :
    BgpRouter → List Call → List κ → BgpRouter → Prop
  | done (r : BgpRouter) : Tells plane idx r [] [] r
  | tell {r r' : BgpRouter} {route : ρ} {members : List (κ × ρ)} {cs : List Call} {ks : List κ}
      (h : plane.Announces r idx route members)
      (hrest : Tells plane idx (plane.afterAnnounce r idx route members) cs ks r') :
      Tells plane idx r (cs ++ [plane.announceCall r idx route members])
        (members.map Prod.fst ++ ks) r'

/-- The messages that complete a replay: everything the peer is then told of is in them. -/
structure Plane.Replays {κ π ρ ο : Type} [Ord κ] (plane : Plane κ π ρ ο) (r : BgpRouter) (idx : ℕ)
    (cs : List Call) (r' : BgpRouter) : Prop where
  inRange : idx < r.peers.length
  established : (r.peerAt idx).state = .established
  tells : ∃ ks, plane.Tells idx r cs ks r' ∧
    ∀ k, ((plane.rib r').adjRibOut.get? (r.peerAt idx).addr k).isSome → k ∈ ks

def BgpRouter.setPhase (r : BgpRouter) (idx : ℕ) (family : AfiSafi) (phase : EnhancedRefreshPhase) :
    BgpRouter :=
  r.updatePeer idx fun p =>
    { p with enhancedRefreshOutbound := p.enhancedRefreshOutbound.insert family phase }

def BgpRouter.clearPhase (r : BgpRouter) (idx : ℕ) (family : AfiSafi) : BgpRouter :=
  r.updatePeer idx fun p =>
    { p with enhancedRefreshOutbound := p.enhancedRefreshOutbound.erase family }

/-- What speaking to the peers can do: no path is learned and no route is chosen. -/
inductive Talk : BgpRouter → List Call → BgpRouter → Prop
  | quiet {r r' : BgpRouter} (h : Quiet r r') : Talk r [] r'
  | sent {r : BgpRouter} {idx : ℕ} {pdu : BgpPdu} {written : Bool}
      (h : written = true → pdu.Silent) : Talk r [.send r idx pdu written] r
  | refreshed {r : BgpRouter} {idx : ℕ} {f : BgpPeer → BgpPeer} (hidx : idx < r.peers.length)
      (h : Refreshed (r.peerAt idx) (f (r.peerAt idx))) : Talk r [] (r.updatePeer idx f)
  | began {r : BgpRouter} {idx : ℕ} {family : AfiSafi} (hidx : idx < r.peers.length)
      (hstate : (r.peerAt idx).state = .established) :
      Talk r [.send r idx (.routeRefresh ⟨family, .beginning⟩) true]
        (r.setPhase idx family .replaying)
  | ended {r : BgpRouter} {idx : ℕ} {family : AfiSafi} (hidx : idx < r.peers.length)
      (hstate : (r.peerAt idx).state = .established)
      (hphase : (r.peerAt idx).enhancedRefreshOutbound[family]? = some .needEorr) :
      Talk r [.send r idx (.routeRefresh ⟨family, .end⟩) true] (r.clearPhase idx family)
  | marked {r : BgpRouter} {idx : ℕ} {family : AfiSafi} {eor : BgpUpdateMessage}
      (hidx : idx < r.peers.length) (hstate : (r.peerAt idx).state = .established)
      (heor : World.endOfRibFor family = some eor) : Talk r [.send r idx (.update eor) true] r
  | replayedIpv4 {r r' : BgpRouter} {idx : ℕ} {cs : List Call} (h : ipv4Plane.Replays r idx cs r') :
      Talk r cs (r'.setPhase idx .ipv4Unicast .needEorr)
  | replayedIpv6 {r r' : BgpRouter} {idx : ℕ} {cs : List Call} (h : ipv6Plane.Replays r idx cs r') :
      Talk r cs (r'.setPhase idx .ipv6Unicast .needEorr)
  | replayedEvpn {r r' : BgpRouter} {idx : ℕ} {cs : List Call} (h : evpnPlane.Replays r idx cs r') :
      Talk r cs (r'.setPhase idx .l2vpnEvpn .needEorr)
  | announcedIpv4 {r : BgpRouter} {idx : ℕ} {route : AdvertisedRoute}
      {members : List (Ipv4Prefix × AdvertisedRoute)}
      (h : ipv4Plane.Announces r idx route members) :
      Talk r [ipv4Plane.announceCall r idx route members]
        (ipv4Plane.afterAnnounce r idx route members)
  | announcedIpv6 {r : BgpRouter} {idx : ℕ} {route : Ipv6AdvertisedRoute}
      {members : List (Ipv6Prefix × Ipv6AdvertisedRoute)}
      (h : ipv6Plane.Announces r idx route members) :
      Talk r [ipv6Plane.announceCall r idx route members]
        (ipv6Plane.afterAnnounce r idx route members)
  | announcedEvpn {r : BgpRouter} {idx : ℕ} {route : EvpnAdvertisedRoute}
      {members : List (EvpnRouteKey × EvpnAdvertisedRoute)}
      (h : evpnPlane.Announces r idx route members) :
      Talk r [evpnPlane.announceCall r idx route members]
        (evpnPlane.afterAnnounce r idx route members)
  | withdrewIpv4 {r : BgpRouter} {idx : ℕ} {gone : List (Ipv4Prefix × AdvertisedRoute)}
      (h : ipv4Plane.Withdraws r idx gone) :
      Talk r [ipv4Plane.withdrawCall r idx gone] (ipv4Plane.forget r idx (gone.map Prod.fst))
  | withdrewIpv6 {r : BgpRouter} {idx : ℕ} {gone : List (Ipv6Prefix × Ipv6AdvertisedRoute)}
      (h : ipv6Plane.Withdraws r idx gone) :
      Talk r [ipv6Plane.withdrawCall r idx gone] (ipv6Plane.forget r idx (gone.map Prod.fst))
  | withdrewEvpn {r : BgpRouter} {idx : ℕ} {gone : List (EvpnRouteKey × EvpnAdvertisedRoute)}
      (h : evpnPlane.Withdraws r idx gone) :
      Talk r [evpnPlane.withdrawCall r idx gone] (evpnPlane.forget r idx (gone.map Prod.fst))

/-- The session with a peer has come up. -/
def BgpRouter.sessionUp (r : BgpRouter) (idx : ℕ) : BgpRouter :=
  let r := r.updatePeer idx fun p => { p with state := .established }
  { r with ipv4 := { r.ipv4 with dirty := true } }

/-- Everything the speaker can do at a time. -/
inductive Step (nowMs : ℕ) : BgpRouter → List Call → BgpRouter → Prop
  | talk {r r' : BgpRouter} {cs : List Call} (h : Talk r cs r') : Step nowMs r cs r'
  | moved {r : BgpRouter} {idx : ℕ} {f : BgpPeer → BgpPeer} (hidx : idx < r.peers.length)
      (h : Moved (r.peerAt idx) (f (r.peerAt idx))) : Step nowMs r [] (r.updatePeer idx f)
  | reconciled {r : BgpRouter} {idx : ℕ} {negotiated : NegotiatedCapabilities}
      {peerCaps : BgpCapabilitySet} (hidx : idx < r.peers.length)
      (hstate : (r.peerAt idx).state = .openSent) :
      Step nowMs r [.reconcile r idx nowMs (BgpRouter.familiesKept negotiated peerCaps)]
        (r.reconcileGracefulRestartOpen idx nowMs negotiated peerCaps)
  | confirmed {r : BgpRouter} {idx : ℕ} (hidx : idx < r.peers.length)
      (hstate : (r.peerAt idx).state = .openSent)
      (hcutoff : (r.peerAt idx).gracefulRestartActive →
        (r.peerAt idx).gracefulRestartRefreshStartedMs.isSome) :
      Step nowMs r [] (r.updatePeer idx fun p => { p with state := .openConfirm })
  | established {r : BgpRouter} {idx : ℕ} (hidx : idx < r.peers.length)
      (hstate : (r.peerAt idx).state = .openConfirm) :
      Step nowMs r [.established r idx] (r.sessionUp idx)
  | torn {r : BgpRouter} {idx : ℕ} {why : Teardown} (hidx : idx < r.peers.length) :
      Step nowMs r [.teardown r idx why] (r.sessionDown idx nowMs why)
  | adopted {r : BgpRouter} {idx : ℕ} {f : BgpPeer → BgpPeer} (hidx : idx < r.peers.length)
      (h : Adopted (r.peerAt idx) (f (r.peerAt idx))) :
      Step nowMs r [.adopt r idx] (r.updatePeer idx f)
  | storedIpv4 {r : BgpRouter} {idx : ℕ} {path : BgpPath} (hidx : idx < r.peers.length)
      (hstate : (r.peerAt idx).state = .established) (htime : path.receivedAtMs = nowMs)
      (hpeer : path.peerAddr = (r.peerAt idx).addr) (hcanon : path.pfx.Canonical) :
      Step nowMs r [.store r idx (.ipv4 path)]
        { r with ipv4 := r.ipv4.receive (r.peerAt idx).addr path }
  | storedIpv6 {r : BgpRouter} {idx : ℕ} {path : Ipv6Path} (hidx : idx < r.peers.length)
      (hstate : (r.peerAt idx).state = .established) (htime : path.receivedAtMs = nowMs)
      (hpeer : path.peerAddr = (r.peerAt idx).addr) :
      Step nowMs r [.store r idx (.ipv6 path)]
        { r with ipv6 := r.ipv6.receive (r.peerAt idx).addr path }
  | storedEvpn {r : BgpRouter} {idx : ℕ} {path : EvpnPath} (hidx : idx < r.peers.length)
      (hstate : (r.peerAt idx).state = .established) (htime : path.receivedAtMs = nowMs)
      (hpeer : path.peerAddr = (r.peerAt idx).addr)
      (hstamp : path.importable = path.route.matchesImport r.importRts)
      (hlearned : path.isLocal = false) :
      Step nowMs r [.store r idx (.evpn path)]
        { r with evpn := r.evpn.receive (r.peerAt idx).addr path }
  | droppedIpv4 {r : BgpRouter} (addr : Ipv4Address) (ks : List Ipv4Prefix) :
      Step nowMs r [] { r with ipv4 := r.ipv4.withdrawAll addr ks }
  | droppedIpv6 {r : BgpRouter} (addr : Ipv4Address) (ks : List Ipv6Prefix) :
      Step nowMs r [] { r with ipv6 := r.ipv6.withdrawAll addr ks }
  | droppedEvpn {r : BgpRouter} (addr : Ipv4Address) (ks : List EvpnRouteKey) :
      Step nowMs r [] { r with evpn := r.evpn.withdrawAll addr ks }
  | completed {r : BgpRouter} {idx : ℕ} {family : AfiSafi} (hidx : idx < r.peers.length)
      (hstate : (r.peerAt idx).state = .established) :
      Step nowMs r [] (r.completeGracefulRestartFamily idx family)
  | flushed {r : BgpRouter} {idx : ℕ} (hidx : idx < r.peers.length) :
      Step nowMs r [] (r.flushGracefulRestart idx)
  | decided {r : BgpRouter} : Step nowMs r [] (r.decideWhereDirty nowMs)

/-- The second world comes out of the first by speaking to the peers. -/
def Talks {σ : Type} (w w' : World σ) : Prop :=
  ∃ cs, LogRun Talk w.router cs w'.router ∧ w'.calls = cs ++ w.calls

/-- The second world comes out of the first by steps at a time. -/
def Reaches {σ : Type} (nowMs : ℕ) (w w' : World σ) : Prop :=
  ∃ cs, LogRun (Step nowMs) w.router cs w'.router ∧ w'.calls = cs ++ w.calls

section

variable {σ : Type} {nowMs : ℕ} {w w' w'' : World σ}

theorem Talks.refl (w : World σ) : Talks w w := ⟨[], .refl _, rfl⟩

theorem Talks.trans (h : Talks w w') (h' : Talks w' w'') : Talks w w'' := by
  obtain ⟨cs, hrun, hcalls⟩ := h
  obtain ⟨cs', hrun', hcalls'⟩ := h'
  exact ⟨cs' ++ cs, hrun.trans hrun', by simp [hcalls, hcalls']⟩

theorem Talks.single {cs : List Call} (h : Talk w.router cs w'.router)
    (hcalls : w'.calls = cs ++ w.calls) : Talks w w' :=
  ⟨cs, .single h, hcalls⟩

theorem Talks.reaches (h : Talks w w') : Reaches nowMs w w' := by
  obtain ⟨cs, hrun, hcalls⟩ := h
  exact ⟨cs, hrun.mono .talk, hcalls⟩

theorem Reaches.refl (w : World σ) : Reaches nowMs w w := ⟨[], .refl _, rfl⟩

theorem Reaches.trans (h : Reaches nowMs w w') (h' : Reaches nowMs w' w'') :
    Reaches nowMs w w'' := by
  obtain ⟨cs, hrun, hcalls⟩ := h
  obtain ⟨cs', hrun', hcalls'⟩ := h'
  exact ⟨cs' ++ cs, hrun.trans hrun', by simp [hcalls, hcalls']⟩

theorem Reaches.single (cs : List Call) (h : Step nowMs w.router cs w'.router)
    (hcalls : w'.calls = cs ++ w.calls) : Reaches nowMs w w' :=
  ⟨cs, .single h, hcalls⟩

/-- A silent step of the speaker. -/
theorem Reaches.step (h : Step nowMs w.router [] w'.router) (hcalls : w'.calls = w.calls) :
    Reaches nowMs w w' :=
  .single [] h hcalls

theorem Talks.quiet (h : Quiet w.router w'.router) (hcalls : w'.calls = w.calls) : Talks w w' :=
  .single (.quiet h) hcalls

theorem Reaches.quiet (h : Quiet w.router w'.router) (hcalls : w'.calls = w.calls) :
    Reaches nowMs w w' :=
  (Talks.quiet h hcalls).reaches

end

/-! ### What becomes of addresses -/

section

variable {nowMs : ℕ} {r r' : BgpRouter} {cs : List Call} {idx : ℕ} {f : BgpPeer → BgpPeer}

/-- The neighbours' addresses, in order. -/
def BgpRouter.addrs (r : BgpRouter) : List Ipv4Address := r.peers.map BgpPeer.addr

theorem Quiet.addrs (h : Quiet r r') : r'.addrs = r.addrs := by
  have hmap := congrArg (List.map Session.addr) h.sessions
  simpa [BgpRouter.addrs, Function.comp_def, BgpPeer.session] using hmap

theorem addrs_updatePeer (hidx : idx < r.peers.length)
    (h : (f (r.peerAt idx)).addr = (r.peerAt idx).addr) : (r.updatePeer idx f).addrs = r.addrs := by
  apply List.ext_getElem?
  intro i
  simp only [BgpRouter.addrs, BgpRouter.updatePeer, List.getElem?_map, List.getElem?_modify]
  by_cases hi : idx = i
  · subst hi
    simpa [hidx, BgpRouter.peerAt] using h
  · simp [hi]

theorem Purged.addrs {addr : Ipv4Address} {families : AfiSafi → Bool} {cutoff : Option ℕ}
    (h : Purged r r' addr families cutoff) : r'.addrs = r.addrs := by
  simp [BgpRouter.addrs, h.peers]

theorem Retired.addrs {families : AfiSafi → Bool} {stale : Std.TreeSet AfiSafi}
    {deadline cutoff : Option ℕ} (hidx : idx < r.peers.length)
    (h : Retired r idx families stale deadline cutoff r') : r'.addrs = r.addrs := by
  obtain ⟨r₁, hpurged, rfl⟩ := h
  rw [addrs_updatePeer (by rwa [hpurged.peers]) rfl, hpurged.addrs]

theorem addrs_complete {family : AfiSafi} (hidx : idx < r.peers.length) :
    (r.completeGracefulRestartFamily idx family).addrs = r.addrs := by
  by_cases h : (r.peerAt idx).gracefulRestartStale.contains family
  · exact (BgpRouter.retired_complete hidx h).addrs hidx
  · simp [BgpRouter.completeGracefulRestartFamily, h]

theorem addrs_reconcile {negotiated : NegotiatedCapabilities} {peerCaps : BgpCapabilitySet}
    (hidx : idx < r.peers.length) :
    (r.reconcileGracefulRestartOpen idx nowMs negotiated peerCaps).addrs = r.addrs := by
  by_cases h : (r.peerAt idx).gracefulRestartActive
  · obtain ⟨left, -, hretired⟩ : BgpRouter.Reconciled r idx nowMs _ _ :=
      BgpRouter.reconciled_reconcile negotiated peerCaps hidx h
    exact hretired.addrs hidx
  · simp [BgpRouter.reconcileGracefulRestartOpen, h]

theorem length_reconcile {negotiated : NegotiatedCapabilities} {peerCaps : BgpCapabilitySet}
    (hidx : idx < r.peers.length) :
    (r.reconcileGracefulRestartOpen idx nowMs negotiated peerCaps).peers.length =
      r.peers.length := by
  simpa [BgpRouter.addrs] using congrArg List.length (addrs_reconcile hidx)

/-- Each family is decided from its own tables. -/
theorem decideWhereDirty_eq : r.decideWhereDirty nowMs =
    { r with
      ipv4 := if r.ipv4.dirty then { r.ipv4 with locRib := r.decision, dirty := false } else r.ipv4
      ipv6 := if r.ipv6.dirty then { r.ipv6 with locRib := r.ipv6Decision, dirty := false }
        else r.ipv6
      evpn := if r.evpn.dirty then { r.evpn with locRib := r.evpnDecision nowMs, dirty := false }
        else r.evpn
      evpnAdvertiseRib :=
        if r.evpn.dirty then r.evpnAdvertiseDecision nowMs else r.evpnAdvertiseRib } := by
  unfold BgpRouter.decideWhereDirty
  by_cases h4 : r.ipv4.dirty <;> by_cases h6 : r.ipv6.dirty <;> by_cases he : r.evpn.dirty <;>
    simp only [h4, h6, he, ↓reduceIte, Bool.false_eq_true, BgpRouter.runDecisionProcess,
      BgpRouter.runIpv6DecisionProcess, BgpRouter.runEvpnDecisionProcess] <;> rfl

theorem peers_decide : (r.decideWhereDirty nowMs).peers = r.peers := by
  rw [decideWhereDirty_eq]

/-- Telling a peer of routes changes what it was told. -/
theorem Plane.Tells.peers {κ π ρ ο : Type} [Ord κ] {plane : Plane κ π ρ ο} {ks : List κ}
    (hpeers : ∀ r rib, (plane.setRib r rib).peers = r.peers) (h : plane.Tells idx r cs ks r') :
    r'.peers = r.peers := by
  induction h with
  | done => rfl
  | tell _ _ ih => exact ih.trans (hpeers _ _)

theorem addrs_setPhase {family : AfiSafi} {phase : EnhancedRefreshPhase}
    (hidx : idx < r.peers.length) : (r.setPhase idx family phase).addrs = r.addrs :=
  addrs_updatePeer hidx rfl

theorem Plane.Replays.addrs {κ π ρ ο : Type} [Ord κ] {plane : Plane κ π ρ ο} {family : AfiSafi}
    (hpeers : ∀ r rib, (plane.setRib r rib).peers = r.peers) (h : plane.Replays r idx cs r') :
    (r'.setPhase idx family .needEorr).addrs = r.addrs := by
  obtain ⟨ks, htells, -⟩ := h.tells
  have hp := htells.peers hpeers
  rw [addrs_setPhase (by rw [hp]; exact h.inRange), BgpRouter.addrs, hp, BgpRouter.addrs]

theorem Talk.addrs (h : Talk r cs r') : r'.addrs = r.addrs := by
  cases h with
  | quiet h => exact h.addrs
  | refreshed hidx h => exact addrs_updatePeer hidx h.addr
  | began hidx => exact addrs_setPhase hidx
  | ended hidx => exact addrs_updatePeer hidx rfl
  | replayedIpv4 h | replayedIpv6 h | replayedEvpn h => exact h.addrs fun _ _ => rfl
  | _ => rfl

theorem Step.addrs (h : Step nowMs r cs r') : r'.addrs = r.addrs := by
  cases h with
  | talk h => exact h.addrs
  | moved hidx h => exact addrs_updatePeer hidx h.addr
  | reconciled hidx => exact addrs_reconcile hidx
  | confirmed hidx => exact addrs_updatePeer hidx rfl
  | established hidx => exact addrs_updatePeer (r := r) hidx rfl
  | torn hidx => exact addrs_updatePeer (r := r) hidx rfl
  | adopted hidx h => exact addrs_updatePeer hidx h.addr
  | completed hidx => exact addrs_complete hidx
  | flushed hidx => exact BgpRouter.retired_flush.addrs hidx
  | decided => simp [BgpRouter.addrs, peers_decide]
  | _ => rfl

end

section

variable {σ : Type} {nowMs : ℕ} {w w' : World σ}

theorem Reaches.addrs (h : Reaches nowMs w w') : w'.router.addrs = w.router.addrs := by
  obtain ⟨cs, hrun, -⟩ := h
  exact hrun.keeps (P := fun r => r.addrs = w.router.addrs) (fun hs ha => hs.addrs.trans ha) rfl

theorem Reaches.length (h : Reaches nowMs w w') :
    w'.router.peers.length = w.router.peers.length := by
  simpa [BgpRouter.addrs] using congrArg List.length h.addrs

theorem Talks.length (h : Talks w w') : w'.router.peers.length = w.router.peers.length :=
  have hr : Reaches 0 w w' := h.reaches
  hr.length

end

end ToyTcpip.Bgp
