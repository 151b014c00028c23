import ToyTcpip.Bgp.Router

/-! Sessions of `bgp_router.rs`: writing messages, graceful restart, route refresh and the end of a
session. -/
namespace ToyTcpip.Bgp

/-- What a read of a stream gives: some bytes, the end of the stream, nothing yet, or an error. -/
inductive ReadOutcome where
  | data (bytes : List UInt8)
  | endOfStream
  | wouldBlock
  | failed
  deriving DecidableEq, Repr

/-- The calls the speaker makes of the socket runtime, on a runtime state of any type. -/
structure SocketRuntime (σ : Type) where
  tcpListenAny : σ → ℕ → Option ℕ × σ
  tcpAccept : σ → ℕ → Option (ℕ × Ipv4Address) × σ
  /-- The connections that wait in a listener's accept queue. -/
  backlog : σ → ℕ → ℕ
  tcpConnectFrom : σ → Ipv4Address × ℕ → Ipv4Address × ℕ → ℕ → Option ℕ × σ
  tcpIsLive : σ → ℕ → Bool
  /-- `tcp_state(stream) == Ok(TcpState::Established)`. -/
  tcpEstablished : σ → ℕ → Bool
  tcpRead : σ → ℕ → ReadOutcome × σ
  tcpReadable : σ → ℕ → ℕ
  tcpWritable : σ → ℕ → ℕ
  tcpWrite : σ → ℕ → List UInt8 → Option ℕ × σ
  tcpAbort : σ → ℕ → ℕ → σ

/-- Why a session is being torn down. -/
inductive Teardown where
  | transport
  | protocol (note : BgpNotificationMessage)
  | peerNotification
  deriving DecidableEq, Repr

/-- A route of any family. -/
inductive RouteKey where
  | ipv4 (pfx : Ipv4Prefix)
  | ipv6 (pfx : Ipv6Prefix)
  | evpn (key : EvpnRouteKey)
  deriving DecidableEq, Repr

inductive AnyPath where
  | ipv4 (path : BgpPath)
  | ipv6 (path : Ipv6Path)
  | evpn (path : EvpnPath)
  deriving DecidableEq, Repr

def AnyPath.key : AnyPath → RouteKey
  | .ipv4 path => .ipv4 path.pfx
  | .ipv6 path => .ipv6 path.pfx
  | .evpn path => .evpn path.key

/-- What the speaker did, with the speaker as it was just before. -/
inductive Call where
  /-- `teardown` of the session with a peer. -/
  | teardown (before : BgpRouter) (idx : ℕ) (why : Teardown)
  /-- `reconcile_graceful_restart_open` on the peer's OPEN, which keeps some families. -/
  | reconcile (before : BgpRouter) (idx : ℕ) (nowMs : ℕ) (kept : Std.TreeSet AfiSafi)
  /-- `resolve_collision` adopted the connection the peer opened. -/
  | adopt (before : BgpRouter) (idx : ℕ)
  /-- A received path went into the Adj-RIB-In. -/
  | store (before : BgpRouter) (idx : ℕ) (path : AnyPath)
  /-- The session with a peer came up. -/
  | established (before : BgpRouter) (idx : ℕ)
  /-- `send_pdu`, and what it reported. -/
  | send (before : BgpRouter) (idx : ℕ) (pdu : BgpPdu) (written : Bool)

/-- The speaker, the socket runtime, and what the speaker did so far, latest first. -/
structure World (σ : Type) where
  router : BgpRouter
  sockets : σ
  calls : List Call := []

def bgpErrOpenMessage : UInt8 := 2

def bgpErrUpdateMessage : UInt8 := 3

def bgpErrHoldTimerExpired : UInt8 := 4

def bgpErrFsm : UInt8 := 5

def bgpErrCease : UInt8 := 6

def bgpErrRouteRefresh : UInt8 := 7

def BgpNotificationMessage.new (errorCode errorSubcode : UInt8) : BgpNotificationMessage :=
  ⟨errorCode, errorSubcode, []⟩

section pure

variable (r : BgpRouter)

namespace BgpRouter

/-! ### Graceful restart -/

def routeIsGracefulRestartStale (addr : Ipv4Address) (family : AfiSafi) (receivedAtMs : ℕ) : Bool :=
  match r.peer addr with
  | none => false
  | some p =>
    p.gracefulRestartStale.contains family &&
      p.gracefulRestartRefreshStartedMs.all fun cutoff => receivedAtMs < cutoff

/-- Drops the paths received before the replacement OPEN, or all of them when there was none. -/
def purgeGracefulRestartStaleFamily (idx : ℕ) (family : AfiSafi) : BgpRouter :=
  let addr := (r.peerAt idx).addr
  let cutoff := (r.peerAt idx).gracefulRestartRefreshStartedMs
  if family = .ipv4Unicast then { r with ipv4 := r.ipv4.purge addr cutoff }
  else if family = .ipv6Unicast then { r with ipv6 := r.ipv6.purge addr cutoff }
  else if family = .l2vpnEvpn then { r with evpn := r.evpn.purge addr cutoff }
  else r

/-- The deadline and the cutoff go with the last retained family. -/
def endRestartIfNoneLeft (idx : ℕ) : BgpRouter :=
  if (r.peerAt idx).gracefulRestartStale.isEmpty then
    r.updatePeer idx fun p =>
      { p with gracefulRestartDeadline := none, gracefulRestartRefreshStartedMs := none }
  else r

/-- One family purged and no longer retained. -/
def dropStaleFamily (idx : ℕ) (family : AfiSafi) : BgpRouter :=
  (r.purgeGracefulRestartStaleFamily idx family).updatePeer idx fun p =>
    { p with gracefulRestartStale := p.gracefulRestartStale.erase family }

def completeGracefulRestartFamily (idx : ℕ) (family : AfiSafi) : BgpRouter :=
  if (r.peerAt idx).gracefulRestartStale.contains family then
    (r.dropStaleFamily idx family).endRestartIfNoneLeft idx
  else r

def flushGracefulRestart (idx : ℕ) : BgpRouter :=
  let families := (r.peerAt idx).gracefulRestartStale.toList
  let r := families.foldl (fun r family => r.purgeGracefulRestartStaleFamily idx family) r
  r.updatePeer idx fun p =>
    { p with
      gracefulRestartStale := ∅
      gracefulRestartDeadline := none
      gracefulRestartRefreshStartedMs := none }

/-- The families whose forwarding state the peer preserved, among those both ends carry. -/
def preservedFamilies (gr : BgpGracefulRestartCapability) (negotiated : NegotiatedCapabilities) :
    Std.TreeSet AfiSafi :=
  Std.TreeSet.ofList (((gr.families.filter fun f => f.forwardingState).map fun f => f.family).filter
    negotiated.supports)

/-- A peer that did not restart, or no longer speaks graceful restart, keeps no family. -/
def familiesKept (negotiated : NegotiatedCapabilities) (peerCaps : BgpCapabilitySet) :
    Std.TreeSet AfiSafi :=
  match peerCaps.gracefulRestart with
  | none => ∅
  | some gr => if gr.restarting then preservedFamilies gr negotiated else ∅

/-- The OPEN of a peer whose routes are retained. -/
def reconcileGracefulRestartOpen (idx nowMs : ℕ) (negotiated : NegotiatedCapabilities)
    (peerCaps : BgpCapabilitySet) : BgpRouter :=
  if !(r.peerAt idx).gracefulRestartActive then r
  else
    match peerCaps.gracefulRestart with
    | none => r.flushGracefulRestart idx
    | some gr =>
      if !gr.restarting then r.flushGracefulRestart idx
      else
        let supported := preservedFamilies gr negotiated
        let dropped := (r.peerAt idx).gracefulRestartStale.toList.filter fun f =>
          !supported.contains f
        let r := dropped.foldl (fun r family => r.dropStaleFamily idx family) r
        (r.updatePeer idx fun p =>
          { p with gracefulRestartRefreshStartedMs := some nowMs }).endRestartIfNoneLeft idx

def expireGracefulRestarts (nowMs : ℕ) : BgpRouter :=
  let expired := (List.range r.peers.length).filter fun idx =>
    (r.peerAt idx).gracefulRestartDeadline.any fun d => d ≤ nowMs
  expired.foldl (fun r idx => r.flushGracefulRestart idx) r

def clearEorPending : BgpRouter :=
  { r with peers := r.peers.map fun p => { p with localRestartEorPending := ∅ } }

def maybeFinishLocalGracefulRestart : BgpRouter :=
  if !r.gracefulRestartRestarting || !r.gracefulRestartRecoveryPending.isEmpty then r
  else if (r.peers.filter fun p => p.adminUp).any fun p => !p.localRestartEorPending.isEmpty then r
  else
    { r with
      gracefulRestartRestarting := false,
      gracefulRestartLocalDeadline := none }.clearEorPending

def expireLocalGracefulRestart (nowMs : ℕ) : BgpRouter :=
  if !r.gracefulRestartRestarting || !(r.gracefulRestartLocalDeadline.any fun d => d ≤ nowMs) then r
  else
    { r with
      gracefulRestartRestarting := false
      gracefulRestartRecoveryPending := ∅
      gracefulRestartLocalDeadline := none }.clearEorPending

def oweEor (family : AfiSafi) (p : BgpPeer) : BgpPeer :=
  if p.adminUp then { p with localRestartEorPending := p.localRestartEorPending.insert family }
    else p

def markGracefulRestartFamilyRecovered (family : AfiSafi) : BgpRouter :=
  if !r.gracefulRestartRestarting || !r.gracefulRestartRecoveryPending.contains family then r
  else
    { r with
      gracefulRestartRecoveryPending := r.gracefulRestartRecoveryPending.erase family
      peers := r.peers.map (oweEor family) }.maybeFinishLocalGracefulRestart

/-! ### Route refresh asked for by this speaker -/

/-- The peer begins a replay: what it has announced so far is stale until it is announced again. -/
def beginEnhancedRefreshInbound (idx : ℕ) (family : AfiSafi) : BgpRouter :=
  let addr := (r.peerAt idx).addr
  (if family = .ipv4Unicast then
    r.updatePeer idx fun p => { p with enhancedRefreshStaleIpv4 := r.ipv4.heldKeys addr }
  else if family = .ipv6Unicast then
    r.updatePeer idx fun p => { p with enhancedRefreshStaleIpv6 := r.ipv6.heldKeys addr }
  else if family = .l2vpnEvpn then
    r.updatePeer idx fun p => { p with enhancedRefreshStaleEvpn := r.evpn.heldKeys addr }
  else r).updatePeer idx fun p =>
    { p with enhancedRefreshInbound := p.enhancedRefreshInbound.insert family }

/-- The peer has ended its replay: what it did not announce again goes. -/
def completeEnhancedRefreshInbound (idx : ℕ) (family : AfiSafi) : BgpRouter :=
  let p := r.peerAt idx
  if !p.enhancedRefreshInbound.contains family then r
  else
    let r := r.updatePeer idx fun p =>
      { p with enhancedRefreshInbound := p.enhancedRefreshInbound.erase family }
    if family = .ipv4Unicast then
      { r.updatePeer idx fun p => { p with enhancedRefreshStaleIpv4 := ∅ } with
        ipv4 := r.ipv4.withdrawAll p.addr p.enhancedRefreshStaleIpv4.toList }
    else if family = .ipv6Unicast then
      { r.updatePeer idx fun p => { p with enhancedRefreshStaleIpv6 := ∅ } with
        ipv6 := r.ipv6.withdrawAll p.addr p.enhancedRefreshStaleIpv6.toList }
    else if family = .l2vpnEvpn then
      { r.updatePeer idx fun p => { p with enhancedRefreshStaleEvpn := ∅ } with
        evpn := r.evpn.withdrawAll p.addr p.enhancedRefreshStaleEvpn.toList }
    else r

def finishEnhancedRefreshReplay (idx : ℕ) (family : AfiSafi) : BgpRouter :=
  if (r.peerAt idx).enhancedRefreshOutbound[family]? = some .replaying then
    r.updatePeer idx fun p =>
      { p with enhancedRefreshOutbound := p.enhancedRefreshOutbound.insert family .needEorr }
  else r

/-! ### The end of a session -/

/-- The families a transport failure leaves retained, until when, and since when they are fresh. -/
def retention (idx nowMs : ℕ) (why : Teardown) :
    Std.TreeSet AfiSafi × Option ℕ × Option ℕ :=
  let p := r.peerAt idx
  if why = .transport ∧ p.gracefulRestartActive then
    (p.gracefulRestartStale, p.gracefulRestartDeadline, p.gracefulRestartRefreshStartedMs)
  else if why = .transport ∧ p.state = .established ∧ r.gracefulRestartEnabled then
    match p.negotiated.peer.gracefulRestart with
    | some gr =>
      if gr.restartTime > 0 then
        let preserve := Std.TreeSet.ofList (((gr.families.map fun f => f.family).filter
          p.negotiated.supports).filter fun f =>
            f = .ipv4Unicast ∨ f = .ipv6Unicast ∨ f = .l2vpnEvpn)
        (preserve,
          if preserve.isEmpty then none else some (nowMs + gr.restartTime.toNat * 1000), none)
      else (∅, none, none)
    | none => (∅, none, none)
  else (∅, none, none)

/-- The peer after its session has ended. -/
def downPeer (retryAt : ℕ) (kept : Std.TreeSet AfiSafi × Option ℕ × Option ℕ) (p : BgpPeer) :
    BgpPeer :=
  { p with
    stream := none
    collision := none
    framer := p.framer.reset
    state := .idle
    streamInbound := false
    holdDeadline := none
    keepaliveDeadline := none
    negotiatedHoldMs := 0
    keepaliveIntervalMs := 0
    negotiated := .default
    refreshPending := ∅
    enhancedRefreshOutbound := ∅
    enhancedRefreshInbound := ∅
    enhancedRefreshStaleIpv4 := ∅
    enhancedRefreshStaleIpv6 := ∅
    enhancedRefreshStaleEvpn := ∅
    remoteRouterId := none
    txDesynced := false
    connectRetryDeadline := some retryAt
    gracefulRestartStale := kept.1
    gracefulRestartDeadline := kept.2.1
    gracefulRestartRefreshStartedMs := kept.2.2 }

/-- The tables of a family when a session ends. -/
def downRib {κ π ρ ο : Type} [Ord κ] [RoutePath π κ] (rib : Rib κ π ρ ο) (addr : Ipv4Address)
    (preserve : Bool) : Rib κ π ρ ο :=
  (if preserve then rib else rib.clearIn addr).clearOut addr

/-- What `teardown` leaves of the speaker, its transports aside. -/
def sessionDown (idx nowMs : ℕ) (why : Teardown) : BgpRouter :=
  let addr := (r.peerAt idx).addr
  let kept := r.retention idx nowMs why
  { r.updatePeer idx (downPeer (nowMs + r.connectRetryMs) kept) with
    ipv4 := { downRib r.ipv4 addr (kept.1.contains .ipv4Unicast) with dirty := true }
    ipv6 := downRib r.ipv6 addr (kept.1.contains .ipv6Unicast)
    evpn := downRib r.evpn addr (kept.1.contains .l2vpnEvpn) }

end BgpRouter

end pure

namespace World

variable {σ : Type} (io : SocketRuntime σ) (w : World σ)

def log (c : Call) : World σ := { w with calls := c :: w.calls }

def updatePeer (idx : ℕ) (f : BgpPeer → BgpPeer) : World σ :=
  { w with router := w.router.updatePeer idx f }

def peerAt (idx : ℕ) : BgpPeer := w.router.peerAt idx

/-- Writes a message, but only if the send buffer can take all of it. -/
def sendPdu (idx : ℕ) (pdu : BgpPdu) : Bool × World σ :=
  match (w.peerAt idx).stream with
  | none => (false, w.log (.send w.router idx pdu false))
  | some stream =>
    let bytes := pdu.serialize
    if io.tcpWritable w.sockets stream < bytes.length then
      (false, w.log (.send w.router idx pdu false))
    else
      match io.tcpWrite w.sockets stream bytes with
      | (some n, sockets) =>
        if n = bytes.length then
          (true, { w with sockets }.log (.send w.router idx pdu true))
        else
          -- half a message is on the wire: the session will be reset
          (false, ({ w with sockets }.log (.send w.router idx pdu false)).updatePeer idx fun p =>
            { p with txDesynced := true })
      | (none, sockets) => (false, { w with sockets }.log (.send w.router idx pdu false))

def abort (stream : Option ℕ) (nowMs : ℕ) : World σ :=
  match stream with
  | some stream => { w with sockets := io.tcpAbort w.sockets stream nowMs }
  | none => w

/-- Ends a session. A transport loss of a peer that announced graceful restart retains its
routes. -/
def teardown (idx nowMs : ℕ) (why : Teardown) : World σ :=
  let w :=
    match why with
    | .protocol note =>
      if (w.peerAt idx).stream.isSome then (w.sendPdu io idx (.notification note)).2 else w
    | _ => w
  let p := w.peerAt idx
  let w := (w.abort io p.stream nowMs).abort io (p.collision.map CollisionConn.stream) nowMs
  { w.log (.teardown w.router idx why) with router := w.router.sessionDown idx nowMs why }

end World

end ToyTcpip.Bgp
