import ToyTcpip.Bgp.Export

/-! The per-peer state machine of `bgp_router.rs` and the pump that drives it. -/
namespace ToyTcpip.Bgp

def bgpPort : ℕ := 179

def bgpSubUnsupportedVersion : UInt8 := 1

def bgpSubBadPeerAs : UInt8 := 2

def bgpSubBadBgpIdentifier : UInt8 := 3

def bgpSubUnacceptableHoldTime : UInt8 := 6

def bgpSubUnsupportedCapability : UInt8 := 7

def bgpSubInvalidRouteRefreshLength : UInt8 := 1

namespace BgpRouter

variable (r : BgpRouter)

/-- The capability set of every OPEN. -/
def localCapabilities : BgpCapabilitySet :=
  let caps := r.families.toList.foldl BgpCapabilitySet.advertise .new
  let caps := (caps.push (.fourOctetAs r.localAs)).push .routeRefresh
  let caps := if r.enhancedRouteRefreshEnabled then caps.push .enhancedRouteRefresh else caps
  if r.gracefulRestartEnabled then
    caps.push (.gracefulRestart (.new r.gracefulRestartTime r.gracefulRestartRestarting
      (r.families.toList.map fun family => ⟨family, r.gracefulRestartRestarting &&
        r.gracefulRestartForwardingPreserved.contains family⟩)))
  else caps

/-- What is wrong with a peer's OPEN, if anything. -/
def validateOpen (idx : ℕ) (o : BgpOpenMessage) (peerCaps : BgpCapabilitySet) :
    Option BgpNotificationMessage :=
  let remoteAs := (r.peerAt idx).remoteAs
  if o.version ≠ bgpVersion then
    some ⟨bgpErrOpenMessage, bgpSubUnsupportedVersion, toBeBytes16 bgpVersion.toNat⟩
  else if o.effectiveAs peerCaps ≠ remoteAs then some (.new bgpErrOpenMessage bgpSubBadPeerAs)
  else if 65535 < remoteAs.toNat ∧ !peerCaps.supportsFourOctetAs then
    some (.new bgpErrOpenMessage bgpSubUnsupportedCapability)
  else if o.bgpId.isUnspecified || o.bgpId.isMulticast || o.bgpId.isBroadcast ||
      o.bgpId = r.routerId then
    some (.new bgpErrOpenMessage bgpSubBadBgpIdentifier)
  else if o.holdTime ≠ 0 ∧ o.holdTime < bgpMinHoldTime then
    some (.new bgpErrOpenMessage bgpSubUnacceptableHoldTime)
  else none

def armHoldTimer (idx nowMs : ℕ) : BgpRouter :=
  r.updatePeer idx fun p =>
    { p with
      holdDeadline := if p.negotiatedHoldMs = 0 then none else some (nowMs + p.negotiatedHoldMs) }

def armKeepaliveTimer (idx nowMs : ℕ) : BgpRouter :=
  r.updatePeer idx fun p =>
    { p with
      keepaliveDeadline :=
        if p.keepaliveIntervalMs = 0 then none else some (nowMs + p.keepaliveIntervalMs) }

/-- The peer asked for a replay. -/
def refreshAsked (idx : ℕ) (family : AfiSafi) : BgpRouter :=
  r.updatePeer idx fun p =>
    { p with
      refreshPending := p.refreshPending.insert family
      enhancedRefreshOutbound :=
        if p.negotiated.enhancedRouteRefresh then
          p.enhancedRefreshOutbound.insert family .needBorr
        else p.enhancedRefreshOutbound }

def handleRouteRefresh (idx : ℕ) (refresh : BgpRouteRefreshMessage) : BgpRouter :=
  let negotiated := (r.peerAt idx).negotiated
  if !negotiated.routeRefresh || !negotiated.supports refresh.family then r
  else
    -- the octet is a subtype only when both OPENs negotiated it
    match if negotiated.enhancedRouteRefresh then refresh.subtype else .normal with
    | .normal => r.refreshAsked idx refresh.family
    | .beginning => r.beginEnhancedRefreshInbound idx refresh.family
    | .end => r.completeEnhancedRefreshInbound idx refresh.family
    | .unknown _ => r

end BgpRouter

namespace World

variable {σ : Type} (io : SocketRuntime σ) (w : World σ)

def withRouter (f : BgpRouter → BgpRouter) : World σ := { w with router := f w.router }

/-! ### Connections -/

def ensureListener : World σ :=
  match w.router.listener with
  | some _ => w
  | none =>
    let (listener, sockets) := io.tcpListenAny w.sockets bgpPort
    { w with router := { w.router with listener }, sockets }

/-- One connection that waits in the accept queue. -/
def acceptOne (nowMs stream : ℕ) (remote : Ipv4Address) : World σ :=
  match w.router.position remote with
  | none => w.abort io (some stream) nowMs
  | some idx =>
    let p := w.peerAt idx
    if !p.adminUp then w.abort io (some stream) nowMs
    else if p.stream.isNone ∧ (p.state = .idle ∨ p.state = .active) then
      w.updatePeer idx fun p =>
        { p with
          stream := some stream
          streamInbound := true
          framer := p.framer.reset
          state := .active
          connectRetryDeadline := some (nowMs + w.router.connectRetryMs) }
    else if p.collision.isNone ∧ p.state ≠ .established ∧ p.stream.isSome then
      -- held until the peer's OPEN says which of the two connections survives
      w.updatePeer idx fun p => { p with collision := some ⟨stream, .new⟩ }
    else w.abort io (some stream) nowMs

def acceptLoop (nowMs listener : ℕ) : ℕ → World σ → World σ
  | 0, w => w
  | n + 1, w =>
    match io.tcpAccept w.sockets listener with
    | (none, sockets) => { w with sockets }
    | (some (stream, remote), sockets) =>
      acceptLoop nowMs listener n ({ w with sockets }.acceptOne io nowMs stream remote)

/-- Each turn of the loop takes one connection out of the queue. -/
def acceptInbound (nowMs : ℕ) : World σ :=
  match w.router.listener with
  | none => w
  | some listener => acceptLoop io nowMs listener (io.backlog w.sockets listener + 1) w

/-- Reads everything a stream has into a framer: what is left there, and whether the stream is still
open. -/
def drain (stream : ℕ) : ℕ → BgpFramer → σ → Parsed (BgpFramer × Bool) × σ
  | 0, framer, sockets => (.ok (framer, true), sockets)
  | n + 1, framer, sockets =>
    match io.tcpRead sockets stream with
    | (.data bytes, sockets) =>
      match framer.push bytes with
      | .ok framer => drain stream n framer sockets
      | .error e => (.error e, sockets)
      | .panic => (.panic, sockets)
    | (.wouldBlock, sockets) => (.ok (framer, true), sockets)
    | (.endOfStream, sockets) => (.ok (framer, false), sockets)
    | (.failed, sockets) => (.ok (framer, false), sockets)

def dropCollision (idx stream nowMs : ℕ) : World σ :=
  (w.updatePeer idx fun p => { p with collision := none }).abort io (some stream) nowMs

/-- The speaker with the higher identifier keeps the connection it initiated. -/
def keepInbound (idx : ℕ) (remoteId : Ipv4Address) : Bool :=
  !(w.peerAt idx).streamInbound && w.router.routerId.toU32.toNat < remoteId.toU32.toNat

/-- The peer's connection takes the place of ours, with its OPEN still unread. -/
def adoptCollision (idx nowMs : ℕ) (c : CollisionConn) : World σ :=
  let before := w.router
  ((w.abort io (w.peerAt idx).stream nowMs).updatePeer idx fun p =>
    { p with
      collision := none
      stream := some c.stream
      streamInbound := true
      framer := c.framer
      state := .active
      holdDeadline := none
      keepaliveDeadline := none
      negotiated := .default
      connectRetryDeadline := some (nowMs + before.connectRetryMs) }).log (.adopt before idx)

def resolveCollision (idx nowMs : ℕ) (remoteId : Ipv4Address) : World σ :=
  match (w.peerAt idx).collision with
  | none => w
  | some c =>
    if !w.keepInbound idx remoteId then w.dropCollision io idx c.stream nowMs
    else w.adoptCollision io idx nowMs c

/-- Runs the held connection: nothing is wanted from it but the identifier in the peer's OPEN. -/
def serviceCollision (idx nowMs : ℕ) : World σ :=
  match (w.peerAt idx).collision with
  | none => w
  | some c =>
    if !io.tcpIsLive w.sockets c.stream then w.dropCollision io idx c.stream nowMs
    else
      match drain io c.stream (io.tcpReadable w.sockets c.stream + 1) c.framer w.sockets with
      | (.ok (framer, _), sockets) =>
        let w := { w with sockets }.updatePeer idx fun p =>
          { p with collision := some { c with framer } }
        match framer.peekFrame with
        | .ok none => w
        | .ok (some frame) =>
          match BgpPdu.parseWidth frame false with
          | .ok (.open o) => w.resolveCollision io idx nowMs o.bgpId
          | _ => w.dropCollision io idx c.stream nowMs
        | _ => w.dropCollision io idx c.stream nowMs
      | (_, sockets) => { w with sockets }.dropCollision io idx c.stream nowMs

/-! ### The state machine -/

def dial (idx nowMs : ℕ) : World σ :=
  let p := w.peerAt idx
  match io.tcpConnectFrom w.sockets (p.localAddr, 0) (p.addr, bgpPort)
      (1000 + nowMs % 100000 * 7) with
  | (some stream, sockets) =>
    { w with sockets }.updatePeer idx fun p =>
      { p with
        stream := some stream
        streamInbound := false
        framer := p.framer.reset
        state := .connect
        connectRetryDeadline := some (nowMs + w.router.connectRetryMs) }
  | (none, sockets) =>
    { w with sockets }.updatePeer idx fun p =>
      { p with
        state := .active
        connectRetryDeadline := some (nowMs + w.router.connectRetryMs) }

def startPeer (idx nowMs : ℕ) : World σ :=
  if !((w.peerAt idx).connectRetryDeadline.all fun d => d ≤ nowMs) then w
  else
    match (w.peerAt idx).mode with
    | .passive =>
      w.updatePeer idx fun p =>
        { p with
          state := .active
          connectRetryDeadline := some (nowMs + w.router.connectRetryMs) }
    | .active => w.dial io idx nowMs

def sendOpen (idx nowMs : ℕ) : World σ :=
  let r := w.router
  match w.sendPdu io idx
      (.open (.withCapabilities r.localAs r.holdTime r.routerId r.localCapabilities)) with
  | (false, w) => w
  | (true, w) =>
    w.updatePeer idx fun p =>
      { p with
        state := .openSent
        connectRetryDeadline := none
        holdDeadline := some (nowMs + initialHoldMs) }

/-- Connect and Active: waiting for the handshake. -/
def progressTransport (idx nowMs : ℕ) : World σ :=
  let p := w.peerAt idx
  let due := p.connectRetryDeadline.any fun d => d ≤ nowMs
  match p.stream with
  | some stream =>
    if io.tcpEstablished w.sockets stream then w.sendOpen io idx nowMs
    else if due then w.teardown io idx nowMs .transport
    else w
  | none =>
    if p.mode = .active ∧ (p.connectRetryDeadline.isNone ∨ due) then w.dial io idx nowMs
    else if due then
      w.updatePeer idx fun p =>
        { p with connectRetryDeadline := some (nowMs + w.router.connectRetryMs) }
    else w

/-- What an acceptable OPEN settles: the retained families, the capabilities and the timers. -/
def openNegotiated (idx nowMs : ℕ) (o : BgpOpenMessage) (peerCaps : BgpCapabilitySet) : World σ :=
  let negotiated := negotiate w.router.localCapabilities peerCaps
  let hold := min w.router.holdTime o.holdTime
  (w.log (.reconcile w.router idx nowMs (BgpRouter.familiesKept negotiated peerCaps))).withRouter
    fun r => (r.reconcileGracefulRestartOpen idx nowMs negotiated peerCaps).updatePeer idx fun p =>
      { p with
        negotiated
        remoteRouterId := some o.bgpId
        negotiatedHoldMs := hold.toNat * 1000
        keepaliveIntervalMs := if hold = 0 then 0 else hold.toNat * 1000 / 3 }

def confirmOpen (idx nowMs : ℕ) : World σ × Option Teardown :=
  match w.sendPdu io idx .keepalive with
  | (false, w) => (w, some .transport)
  | (true, w) =>
    (w.withRouter fun r => ((r.updatePeer idx fun p =>
      { p with state := .openConfirm }).armHoldTimer idx nowMs).armKeepaliveTimer idx nowMs, none)

/-- The OPEN of a peer in OpenSent. -/
def handleOpen (idx nowMs : ℕ) (o : BgpOpenMessage) : World σ × Option Teardown :=
  match o.capabilities with
  | .error e => (w, some (.protocol (.new bgpErrOpenMessage e.subcode)))
  | .panic => (w, none)
  | .ok peerCaps =>
    match w.router.validateOpen idx o peerCaps with
    | some note => (w, some (.protocol note))
    | none => (w.openNegotiated idx nowMs o peerCaps).confirmOpen io idx nowMs

/-- The markers that close a family's initial routes. -/
def eorFamilies (update : BgpUpdateMessage) : List AfiSafi :=
  (if update.isEndOfRib then [AfiSafi.ipv4Unicast] else []) ++
  (if update.mpUnreach.any fun m => m.family = .ipv6Unicast && m.nlri.isEmpty then
    [AfiSafi.ipv6Unicast] else []) ++
  (if update.mpUnreach.any fun m => m.family = .l2vpnEvpn && m.nlri.isEmpty then
    [AfiSafi.l2vpnEvpn] else [])

def handleUpdate (idx nowMs : ℕ) (update : BgpUpdateMessage) : World σ × Option Teardown :=
  match w.importMpUpdate idx nowMs update with
  | (w, some t) => (w, some t)
  | (w, none) =>
    match w.importUpdate idx nowMs update with
    | (w, some note) => (w, some (.protocol note))
    | (w, none) =>
      (w.withRouter fun r => (eorFamilies update).foldl
        (fun r family => r.completeGracefulRestartFamily idx family) r, none)

/-- One decoded message, in the current state. -/
def handlePdu (idx nowMs : ℕ) (pdu : BgpPdu) : World σ × Option Teardown :=
  let state := (w.peerAt idx).state
  let w := if state = .established ∨ state = .openConfirm then
      w.withRouter fun r => r.armHoldTimer idx nowMs
    else w
  match state, pdu with
  | .openSent, .open o => w.handleOpen io idx nowMs o
  | .openConfirm, .keepalive =>
    ((w.log (.established w.router idx)).withRouter fun r =>
      let r := r.updatePeer idx fun p => { p with state := .established }
      { r with ipv4 := { r.ipv4 with dirty := true } }, none)
  | .established, .keepalive => (w, none)
  | .established, .update u => w.handleUpdate idx nowMs u
  | .established, .routeRefresh refresh =>
    (w.withRouter fun r => r.handleRouteRefresh idx refresh, none)
  | _, .notification _ => (w, some .peerNotification)
  | _, _ => (w, some (.protocol (.new bgpErrFsm 0)))

/-- What becomes of a frame before it is decoded: handed on, skipped, or refused. -/
inductive FrameCheck where
  | decode
  | skip
  | refuse (note : BgpNotificationMessage)

/-- Enhanced ROUTE-REFRESH frames are looked at undecoded: an unknown subtype is skipped, a wrong
length refused. -/
def checkFrame (p : BgpPeer) (frame : List UInt8) : FrameCheck :=
  if p.state = .established ∧ frame[18]? = some bgpMsgRouteRefresh ∧
      p.negotiated.enhancedRouteRefresh ∧ bgpHeaderLen + 3 ≤ frame.length then
    let subtype := frame.getD (bgpHeaderLen + 2) 0
    if subtype > 2 then .skip
    else if (subtype = 1 ∨ subtype = 2) ∧ frame.length ≠ bgpHeaderLen + 4 then
      .refuse ⟨bgpErrRouteRefresh, bgpSubInvalidRouteRefreshLength, frame⟩
    else .decode
  else .decode

/-- The loop over the buffered messages, and whether the session survived it. A frame is never
empty, so the buffer bounds the loop. -/
def handleFrames (idx nowMs : ℕ) : ℕ → World σ → World σ × Bool
  | 0, w => (w, true)
  | n + 1, w =>
    match (w.peerAt idx).framer.nextFrame with
    | .error e => (w.teardown io idx nowMs (.protocol (.new e.code e.subcode)), false)
    | .panic => (w, false)
    | .ok (none, _) => (w, true)
    | .ok (some frame, framer) =>
      let w := w.updatePeer idx fun p => { p with framer }
      match checkFrame (w.peerAt idx) frame with
      | .skip => handleFrames idx nowMs n w
      | .refuse note => (w.teardown io idx nowMs (.protocol note), false)
      | .decode =>
        match BgpPdu.parseWidth frame (w.peerAt idx).negotiated.fourOctetAs with
        | .error e => (w.teardown io idx nowMs (.protocol (.new e.code e.subcode)), false)
        | .panic => (w, false)
        | .ok pdu =>
          match w.handlePdu io idx nowMs pdu with
          | (w, some t) => (w.teardown io idx nowMs t, false)
          | (w, none) => handleFrames idx nowMs n w

def runTimers (idx nowMs : ℕ) : World σ :=
  let p := w.peerAt idx
  if p.holdDeadline.any fun d => d ≤ nowMs then
    w.teardown io idx nowMs (.protocol (.new bgpErrHoldTimerExpired 0))
  else if (p.state = .openConfirm ∨ p.state = .established) ∧
      (p.keepaliveDeadline.any fun d => d ≤ nowMs) then
    (w.sendPdu io idx .keepalive).2.withRouter fun r => r.armKeepaliveTimer idx nowMs
  else w

/-- Reads everything available. -/
def readStream (idx : ℕ) : Parsed Bool × World σ :=
  match (w.peerAt idx).stream with
  | none => (.ok false, w)
  | some stream =>
    match drain io stream (io.tcpReadable w.sockets stream + 1) (w.peerAt idx).framer w.sockets with
    | (.ok (framer, live), sockets) =>
      (.ok live, { w with sockets }.updatePeer idx fun p => { p with framer })
    | (.error e, sockets) => (.error e, { w with sockets })
    | (.panic, sockets) => (.panic, { w with sockets })

/-- OpenSent, OpenConfirm and Established. What was delivered before the end of the stream is acted
on before the end is. -/
def runSession (idx nowMs : ℕ) : World σ :=
  match w.readStream io idx with
  | (.error e, w) => w.teardown io idx nowMs (.protocol (.new e.code e.subcode))
  | (.panic, w) => w
  | (.ok live, w) =>
    match handleFrames io idx nowMs ((w.peerAt idx).framer.buf.length + 1) w with
    | (w, false) => w
    | (w, true) =>
      if !live then w.teardown io idx nowMs .transport else w.runTimers io idx nowMs

def servicePeer (idx nowMs : ℕ) : World σ :=
  if !(w.peerAt idx).adminUp then
    if (w.peerAt idx).state ≠ .idle then w.teardown io idx nowMs .transport else w
  else if (w.peerAt idx).txDesynced then w.teardown io idx nowMs .transport
  else
    let w := w.serviceCollision io idx nowMs
    if (w.peerAt idx).stream.any fun stream => !io.tcpIsLive w.sockets stream then
      w.teardown io idx nowMs .transport
    else
      match (w.peerAt idx).state with
      | .idle => w.startPeer io idx nowMs
      | .connect | .active => w.progressTransport io idx nowMs
      | .openSent | .openConfirm | .established => w.runSession io idx nowMs

/-! ### The pump -/

def advertiseAll (idx : ℕ) : World σ :=
  let w := w.advertiseToPeer io idx
  let w := w.advertiseIpv6ToPeer io idx
  let w := w.advertiseEvpnToPeer io idx
  let w := w.sendEnhancedRefreshEorrs io idx
  w.sendLocalRestartEors io idx

/-- The first half of a poll: connections, sessions and deadlines. -/
def pollSessions (nowMs : ℕ) : World σ :=
  let w := w.withRouter fun r => r.expireLocalGracefulRestart nowMs
  let w := w.ensureListener io
  let w := w.acceptInbound io nowMs
  let w := (List.range w.router.peers.length).foldl (fun w idx => w.servicePeer io idx nowMs) w
  w.withRouter fun r => r.expireGracefulRestarts nowMs

/-- The second half: what the peers are owed. -/
def pollAdvertise : World σ :=
  let w := (List.range w.router.peers.length).foldl (fun w idx => w.advertiseAll io idx) w
  w.withRouter BgpRouter.maybeFinishLocalGracefulRestart

/-- Advances the control plane one step; the forwarding table is left out. -/
def poll (nowMs : ℕ) : World σ :=
  let w := w.pollSessions io nowMs
  let w := w.withRouter fun r => r.decideWhereDirty nowMs
  w.pollAdvertise io

/-! ### Calls from outside that touch a session -/

def shutdownPeer (addr : Ipv4Address) (nowMs : ℕ) : World σ :=
  match w.router.position addr with
  | none => w
  | some idx =>
    let w := (w.updatePeer idx fun p => { p with adminUp := false }).teardown io idx nowMs
      (.protocol (.new bgpErrCease 0))
    w.updatePeer idx fun p => { p with connectRetryDeadline := none }

def requestRouteRefresh (addr : Ipv4Address) (family : AfiSafi) : World σ :=
  match w.router.position addr with
  | none => w
  | some idx =>
    let p := w.peerAt idx
    if p.isEstablished && p.negotiated.routeRefresh && p.negotiated.supports family then
      (w.sendPdu io idx (.routeRefresh ⟨family, .normal⟩)).2
    else w

/-- Existing transports are dropped as transport failures. -/
def beginGracefulRestart (nowMs : ℕ) : World σ :=
  if !w.router.gracefulRestartEnabled || w.router.gracefulRestartRestarting then w
  else
    let w := w.withRouter fun r =>
      { r with
        gracefulRestartRestarting := true
        gracefulRestartRecoveryPending := r.families
        gracefulRestartLocalDeadline :=
          some (nowMs + r.gracefulRestartTime.toNat * 1000) }.clearEorPending
    let live := (List.range w.router.peers.length).filter fun idx =>
      (w.peerAt idx).stream.isSome || (w.peerAt idx).state ≠ .idle
    live.foldl (fun w idx => w.teardown io idx nowMs .transport) w

end World

end ToyTcpip.Bgp
