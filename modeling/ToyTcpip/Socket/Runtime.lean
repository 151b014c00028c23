import ToyTcpip.Bgp.Rib
import ToyTcpip.Tcp.Machine

/-! The socket runtime of `socket.rs`: handles, ports, listeners and the connection table. -/
namespace ToyTcpip.Socket

open Tcp

def maxClosedStreamHistory : ℕ := 256

structure UdpSocketHandle where
  id : UInt32
  deriving DecidableEq, Repr

structure TcpListenerHandle where
  id : UInt32
  deriving DecidableEq, Repr

structure TcpStreamHandle where
  id : UInt32
  deriving DecidableEq, Repr

theorem UdpSocketHandle.id_injective : Function.Injective UdpSocketHandle.id := by
  rintro ⟨a⟩ ⟨b⟩ h
  exact congrArg _ h

theorem TcpListenerHandle.id_injective : Function.Injective TcpListenerHandle.id := by
  rintro ⟨a⟩ ⟨b⟩ h
  exact congrArg _ h

theorem TcpStreamHandle.id_injective : Function.Injective TcpStreamHandle.id := by
  rintro ⟨a⟩ ⟨b⟩ h
  exact congrArg _ h

instance : Ord UdpSocketHandle := ⟨compareOn UdpSocketHandle.id⟩

instance : Std.TransOrd UdpSocketHandle :=
  inferInstanceAs (Std.TransCmp (compareOn UdpSocketHandle.id))

instance : Std.LawfulEqOrd UdpSocketHandle :=
  Std.LawfulEqOrd.of_injective UdpSocketHandle.id_injective

instance : Ord TcpListenerHandle := ⟨compareOn TcpListenerHandle.id⟩

instance : Std.TransOrd TcpListenerHandle :=
  inferInstanceAs (Std.TransCmp (compareOn TcpListenerHandle.id))

instance : Std.LawfulEqOrd TcpListenerHandle :=
  Std.LawfulEqOrd.of_injective TcpListenerHandle.id_injective

instance : Ord TcpStreamHandle := ⟨compareOn TcpStreamHandle.id⟩

instance : Std.TransOrd TcpStreamHandle :=
  inferInstanceAs (Std.TransCmp (compareOn TcpStreamHandle.id))

instance : Std.LawfulEqOrd TcpStreamHandle :=
  Std.LawfulEqOrd.of_injective TcpStreamHandle.id_injective

inductive SocketError where
  | addressInUse
  | addressNotAvailable
  | notConnected
  | connectionReset
  | invalidSocket
  | wouldBlock
  | invalidInput (msg : String)
  deriving DecidableEq, Repr

structure TcpConnectionKey where
  localAddr : SocketAddrV4
  remoteAddr : SocketAddrV4
  deriving DecidableEq, Repr

/-- The order `step_timers` visits connections in: local address first. -/
def TcpConnectionKey.rank (k : TcpConnectionKey) : List ℕ :=
  [k.localAddr.ip.toU32.toNat, k.localAddr.port.toNat, k.remoteAddr.ip.toU32.toNat,
    k.remoteAddr.port.toNat]

theorem TcpConnectionKey.rank_injective : Function.Injective rank := by
  rintro ⟨⟨a, p⟩, ⟨b, q⟩⟩ ⟨⟨a', p'⟩, ⟨b', q'⟩⟩ h
  simp only [rank, List.cons.injEq, and_true] at h
  obtain ⟨ha, hp, hb, hq⟩ := h
  rw [Ipv4Address.toU32_toNat_injective ha, Ipv4Address.toU32_toNat_injective hb,
    BitVec.eq_of_toNat_eq hp, BitVec.eq_of_toNat_eq hq]

instance : Ord TcpConnectionKey := ⟨compareOn TcpConnectionKey.rank⟩

instance : Std.TransOrd TcpConnectionKey :=
  inferInstanceAs (Std.TransCmp (compareOn TcpConnectionKey.rank))

instance : Std.LawfulEqOrd TcpConnectionKey :=
  Std.LawfulEqOrd.of_injective TcpConnectionKey.rank_injective

structure UdpSocketEntry where
  handle : UdpSocketHandle
  localAddr : SocketAddrV4
  rxQueue : List (List UInt8 × SocketAddrV4)

structure TcpListenerEntry where
  handle : TcpListenerHandle
  localAddr : SocketAddrV4
  backlog : ℕ
  nextIsn : SeqNum
  acceptQueue : List TcpStreamHandle

structure TcpStreamEntry where
  handle : TcpStreamHandle
  connectionKey : TcpConnectionKey

structure TcpSocketOptions where
  nodelay : Bool := false
  nonblocking : Bool := false
  readTimeoutMs : Option ℕ := none

structure UdpSocketOptions where
  broadcast : Bool := false
  nonblocking : Bool := false
  multicastTtl : UInt8 := 1
  multicastLoopback : Bool := true

/-- A transport PDU on its way to the wire, before serialization. -/
inductive Pdu where
  | tcp (seg : TcpSegment)
  | udp (payload : List UInt8)

structure SocketTx where
  localAddr : SocketAddrV4
  remoteAddr : SocketAddrV4
  pdu : Pdu

/-- What is left of a reaped connection. -/
structure Remains where
  state : TcpState
  stats : TcpStats
  residual : List UInt8

structure SocketRuntime (ρ : Type) where
  defaultIp : Ipv4Address
  nextSocketId : UInt32
  nextEphemeralPort : BitVec 16
  udpSockets : Std.TreeMap UdpSocketHandle UdpSocketEntry
  udpPortMap : Std.TreeMap (BitVec 16) UdpSocketHandle
  tcpListeners : Std.TreeMap TcpListenerHandle TcpListenerEntry
  tcpListenerPorts : Std.TreeMap (BitVec 16) TcpListenerHandle
  tcpStreams : Std.TreeMap TcpStreamHandle TcpStreamEntry
  tcpConnections : Std.TreeMap TcpConnectionKey (TcpStreamHandle × TcpConnection ρ)
  currentTimeMs : ℕ
  tcpTx : List SocketTx
  udpTx : List SocketTx
  closedStreams : Std.TreeMap TcpStreamHandle Remains
  closedOrder : List TcpStreamHandle
  defaultMss : BitVec 16
  isnCounter : SeqNum
  tcpOptions : Std.TreeMap TcpStreamHandle TcpSocketOptions
  udpOptions : Std.TreeMap UdpSocketHandle UdpSocketOptions

/-- `TcpConnection::is_reapable`. -/
def isReapable {ρ : Type} (c : TcpConnection ρ) (now : ℕ) : Bool :=
  c.aborted || match c.state with
    | .closed => true
    | .timeWait => c.timeWaitEnteredMs.any fun t => timeWaitMs ≤ now - t
    | _ => false

namespace SocketRuntime

variable {ρ : Type} [RttEstimator ρ]

def new (defaultIp : Ipv4Address) : SocketRuntime ρ :=
  { defaultIp, nextSocketId := 1, nextEphemeralPort := 49152, udpSockets := ∅, udpPortMap := ∅,
    tcpListeners := ∅, tcpListenerPorts := ∅, tcpStreams := ∅, tcpConnections := ∅,
    currentTimeMs := 0, tcpTx := [], udpTx := [], closedStreams := ∅, closedOrder := [],
    defaultMss := 1460, isnCounter := 1000, tcpOptions := ∅, udpOptions := ∅ }

def setDefaultMss (rt : SocketRuntime ρ) (mss : BitVec 16) : SocketRuntime ρ :=
  { rt with defaultMss := if mss < 88 then 88 else if 1460 < mss then 1460 else mss }

/-- Ids wrap; nothing checks that the next one is free. -/
def nextId (rt : SocketRuntime ρ) : SocketRuntime ρ × UInt32 :=
  ({ rt with nextSocketId := rt.nextSocketId + 1 }, rt.nextSocketId)

def portInUse (rt : SocketRuntime ρ) (port : BitVec 16) : Bool :=
  rt.udpPortMap.contains port || rt.tcpListenerPorts.contains port ||
    rt.tcpConnections.keys.any fun k => k.localAddr.port = port

/-- The ephemeral port after this one: the range 49152..=65535 wraps. -/
def followingPort (port : BitVec 16) : BitVec 16 := if port = 65535 then 49152 else port + 1

/-- One lap of the ephemeral range. -/
def allocateFrom (start : BitVec 16) :
    ℕ → SocketRuntime ρ → SocketRuntime ρ × Except SocketError (BitVec 16)
  | 0, rt => (rt, .error .addressNotAvailable)
  | rounds + 1, rt =>
    let port := rt.nextEphemeralPort
    let rt := { rt with nextEphemeralPort := followingPort port }
    if !rt.portInUse port then (rt, .ok port)
    else if rt.nextEphemeralPort = start then (rt, .error .addressNotAvailable)
    else allocateFrom start rounds rt

/-- The range has 16384 ports, so a lap has at most that many rounds. -/
def allocateEphemeralPort (rt : SocketRuntime ρ) :
    SocketRuntime ρ × Except SocketError (BitVec 16) :=
  allocateFrom rt.nextEphemeralPort 16384 rt

def resolveIp (rt : SocketRuntime ρ) (addr : SocketAddrV4) : SocketAddrV4 :=
  if addr.ip.isUnspecified then { addr with ip := rt.defaultIp } else addr

/-! ### UDP sockets -/

def addUdpSocket (rt : SocketRuntime ρ) (addr : SocketAddrV4) :
    SocketRuntime ρ × Except SocketError UdpSocketHandle :=
  let (rt, id) := rt.nextId
  let handle : UdpSocketHandle := ⟨id⟩
  ({ rt with
      udpPortMap := rt.udpPortMap.insert addr.port handle
      udpSockets := rt.udpSockets.insert handle ⟨handle, addr, []⟩ }, .ok handle)

def udpBind (rt : SocketRuntime ρ) (addr : SocketAddrV4) :
    SocketRuntime ρ × Except SocketError UdpSocketHandle :=
  let addr := rt.resolveIp addr
  if addr.port = 0 then
    match rt.allocateEphemeralPort with
    | (rt, .error e) => (rt, .error e)
    | (rt, .ok port) => rt.addUdpSocket { addr with port }
  else if rt.udpPortMap.contains addr.port then (rt, .error .addressInUse)
  else rt.addUdpSocket addr

def udpSendTo (rt : SocketRuntime ρ) (handle : UdpSocketHandle) (data : List UInt8)
    (remoteAddr : SocketAddrV4) : SocketRuntime ρ × Except SocketError ℕ :=
  match rt.udpSockets[handle]? with
  | none => (rt, .error .invalidSocket)
  | some entry =>
    if data.length > 65507 then
      (rt, .error (.invalidInput "datagram exceeds maximum UDP payload"))
    else
      ({ rt with udpTx := rt.udpTx ++ [⟨entry.localAddr, remoteAddr, .udp data⟩] }, .ok data.length)

def udpRecvFrom (rt : SocketRuntime ρ) (handle : UdpSocketHandle) :
    SocketRuntime ρ × Except SocketError (List UInt8 × SocketAddrV4) :=
  match rt.udpSockets[handle]? with
  | none => (rt, .error .invalidSocket)
  | some entry =>
    match entry.rxQueue with
    | [] => (rt, .error .wouldBlock)
    | first :: rest =>
      let entry := { entry with rxQueue := rest }
      ({ rt with udpSockets := rt.udpSockets.insert handle entry }, .ok first)

def udpClose (rt : SocketRuntime ρ) (handle : UdpSocketHandle) :
    SocketRuntime ρ × Except SocketError Unit :=
  match rt.udpSockets[handle]? with
  | none => (rt, .error .invalidSocket)
  | some entry =>
    ({ rt with
        udpSockets := rt.udpSockets.erase handle
        udpPortMap := rt.udpPortMap.erase entry.localAddr.port
        udpOptions := rt.udpOptions.erase handle }, .ok ())

/-- The setters of the UDP socket options differ in the field they write. -/
def setUdpOption (rt : SocketRuntime ρ) (handle : UdpSocketHandle)
    (f : UdpSocketOptions → UdpSocketOptions) : SocketRuntime ρ × Except SocketError Unit :=
  if !rt.udpSockets.contains handle then (rt, .error .invalidSocket)
  else ({ rt with udpOptions := rt.udpOptions.insert handle (f (rt.udpOptions.getD handle {})) },
    .ok ())

def udpSetBroadcast (rt : SocketRuntime ρ) (handle : UdpSocketHandle) (broadcast : Bool) :
    SocketRuntime ρ × Except SocketError Unit :=
  rt.setUdpOption handle fun o => { o with broadcast }

def udpSetNonblocking (rt : SocketRuntime ρ) (handle : UdpSocketHandle) (nonblocking : Bool) :
    SocketRuntime ρ × Except SocketError Unit :=
  rt.setUdpOption handle fun o => { o with nonblocking }

def udpSetMulticastTtl (rt : SocketRuntime ρ) (handle : UdpSocketHandle) (multicastTtl : UInt8) :
    SocketRuntime ρ × Except SocketError Unit :=
  rt.setUdpOption handle fun o => { o with multicastTtl }

def udpSetMulticastLoopV4 (rt : SocketRuntime ρ) (handle : UdpSocketHandle)
    (multicastLoopback : Bool) : SocketRuntime ρ × Except SocketError Unit :=
  rt.setUdpOption handle fun o => { o with multicastLoopback }

/-! ### TCP listeners -/

def addListener (rt : SocketRuntime ρ) (addr : SocketAddrV4) :
    SocketRuntime ρ × Except SocketError TcpListenerHandle :=
  let (rt, id) := rt.nextId
  let handle : TcpListenerHandle := ⟨id⟩
  ({ rt with
      tcpListenerPorts := rt.tcpListenerPorts.insert addr.port handle
      tcpListeners := rt.tcpListeners.insert handle ⟨handle, addr, 128, 1000, []⟩ }, .ok handle)

def tcpListen (rt : SocketRuntime ρ) (addr : SocketAddrV4) :
    SocketRuntime ρ × Except SocketError TcpListenerHandle :=
  let addr := rt.resolveIp addr
  if addr.port = 0 then
    match rt.allocateEphemeralPort with
    | (rt, .error e) => (rt, .error e)
    | (rt, .ok port) => rt.addListener { addr with port }
  else if rt.tcpListenerPorts.contains addr.port then (rt, .error .addressInUse)
  else rt.addListener addr

def tcpListenAny (rt : SocketRuntime ρ) (port : BitVec 16) :
    SocketRuntime ρ × Except SocketError TcpListenerHandle :=
  if port = 0 then (rt, .error (.invalidInput "wildcard listen requires an explicit port"))
  else if rt.tcpListenerPorts.contains port then (rt, .error .addressInUse)
  else rt.addListener ⟨.unspecified, port⟩

/-- Handles that are gone are skipped. -/
def popAcceptable (streams : Std.TreeMap TcpStreamHandle TcpStreamEntry) :
    List TcpStreamHandle → List TcpStreamHandle × Option (TcpStreamHandle × SocketAddrV4)
  | [] => ([], none)
  | handle :: rest =>
    match streams[handle]? with
    | some stream => (rest, some (handle, stream.connectionKey.remoteAddr))
    | none => popAcceptable streams rest

def tcpAccept (rt : SocketRuntime ρ) (handle : TcpListenerHandle) :
    SocketRuntime ρ × Except SocketError (TcpStreamHandle × SocketAddrV4) :=
  match rt.tcpListeners[handle]? with
  | none => (rt, .error .invalidSocket)
  | some listener =>
    let (queue, found) := popAcceptable rt.tcpStreams listener.acceptQueue
    let rt := { rt with
      tcpListeners := rt.tcpListeners.insert handle { listener with acceptQueue := queue } }
    match found with
    | some accepted => (rt, .ok accepted)
    | none => (rt, .error .wouldBlock)

/-- A connection still in the backlog of a listener that closes. -/
def abandon (rt : SocketRuntime ρ) (pending : TcpStreamHandle) : SocketRuntime ρ :=
  match rt.tcpStreams[pending]? with
  | some stream =>
    { rt with
      tcpConnections := rt.tcpConnections.erase stream.connectionKey
      tcpStreams := rt.tcpStreams.erase pending }
  | none => rt

def tcpListenerClose (rt : SocketRuntime ρ) (handle : TcpListenerHandle) :
    SocketRuntime ρ × Except SocketError Unit :=
  match rt.tcpListeners[handle]? with
  | none => (rt, .error .invalidSocket)
  | some entry =>
    let rt := { rt with
      tcpListeners := rt.tcpListeners.erase handle
      tcpListenerPorts := rt.tcpListenerPorts.erase entry.localAddr.port }
    (entry.acceptQueue.foldl abandon rt, .ok ())

/-! ### TCP streams -/

/-- A connection gets the runtime's MSS before it is used. -/
def withDefaultMss (rt : SocketRuntime ρ) (c : TcpConnection ρ) : TcpConnection ρ :=
  { c with localMss := rt.defaultMss, congestion.mss := rt.defaultMss.toNat }

def nextIsn (rt : SocketRuntime ρ) : SocketRuntime ρ × SeqNum :=
  ({ rt with isnCounter := rt.isnCounter + 64000 }, rt.isnCounter + 64000)

/-- Puts a connection and the stream that owns it in the tables. -/
def openStream (rt : SocketRuntime ρ) (key : TcpConnectionKey) (conn : TcpConnection ρ) :
    SocketRuntime ρ × TcpStreamHandle :=
  let (rt, id) := rt.nextId
  let handle : TcpStreamHandle := ⟨id⟩
  ({ rt with
      tcpConnections := rt.tcpConnections.insert key (handle, conn)
      tcpStreams := rt.tcpStreams.insert handle ⟨handle, key⟩ }, handle)

/-- The active open once the local address is settled. -/
def connectOn (rt : SocketRuntime ρ) (localAddr remoteAddr : SocketAddrV4) (isn : SeqNum) :
    SocketRuntime ρ × Except SocketError TcpStreamHandle :=
  let key : TcpConnectionKey := ⟨localAddr, remoteAddr⟩
  if rt.tcpConnections.contains key then (rt, .error .addressInUse)
  else
    let conn := rt.withDefaultMss (.newClient localAddr remoteAddr isn)
    let (conn, syn) := conn.initiateSynAt rt.currentTimeMs
    let (rt, handle) := rt.openStream key conn
    ({ rt with tcpTx := rt.tcpTx ++ [⟨localAddr, remoteAddr, .tcp syn⟩] }, .ok handle)

def tcpConnectFrom (rt : SocketRuntime ρ) (localAddr remoteAddr : SocketAddrV4) (isn : SeqNum) :
    SocketRuntime ρ × Except SocketError TcpStreamHandle :=
  let localAddr := rt.resolveIp localAddr
  if localAddr.port = 0 then
    match rt.allocateEphemeralPort with
    | (rt, .error e) => (rt, .error e)
    | (rt, .ok port) => rt.connectOn { localAddr with port } remoteAddr isn
  else rt.connectOn localAddr remoteAddr isn

def tcpConnect (rt : SocketRuntime ρ) (remoteAddr : SocketAddrV4) :
    SocketRuntime ρ × Except SocketError TcpStreamHandle :=
  match rt.allocateEphemeralPort with
  | (rt, .error e) => (rt, .error e)
  | (rt, .ok port) =>
    let (rt, isn) := rt.nextIsn
    rt.tcpConnectFrom ⟨rt.defaultIp, port⟩ remoteAddr isn

def keyOf (rt : SocketRuntime ρ) (handle : TcpStreamHandle) : Except SocketError TcpConnectionKey :=
  match rt.tcpStreams[handle]? with
  | some s => .ok s.connectionKey
  | none => .error .invalidSocket

/-- The connection at a 4-tuple, updated in place. -/
def setConnection (rt : SocketRuntime ρ) (key : TcpConnectionKey) (owner : TcpStreamHandle)
    (conn : TcpConnection ρ) : SocketRuntime ρ :=
  { rt with tcpConnections := rt.tcpConnections.insert key (owner, conn) }

def tcpWrite (rt : SocketRuntime ρ) (handle : TcpStreamHandle) (data : List UInt8) :
    SocketRuntime ρ × Except SocketError ℕ :=
  match rt.keyOf handle with
  | .error e => (rt, .error e)
  | .ok key =>
    match rt.tcpConnections[key]? with
    | none => (rt, .error .invalidSocket)
    | some (owner, conn) =>
      if ¬(conn.state = .established ∨ conn.state = .closeWait) then (rt, .error .notConnected)
      else if conn.closeRequested then (rt, .error .notConnected)
      else
        let (conn, accepted) := conn.write data
        let rt := rt.setConnection key owner conn
        if accepted = 0 ∧ data ≠ [] then (rt, .error .wouldBlock) else (rt, .ok accepted)

def tcpWritable (rt : SocketRuntime ρ) (handle : TcpStreamHandle) : ℕ :=
  match rt.keyOf handle with
  | .error _ => 0
  | .ok key =>
    match rt.tcpConnections[key]? with
    | none => 0
    | some (_, conn) => sndBufferCapacity - conn.txBuffer.length

/-- The bytes read; none of them at end of stream. -/
def tcpRead (rt : SocketRuntime ρ) (handle : TcpStreamHandle) (len : ℕ) :
    SocketRuntime ρ × Except SocketError (List UInt8) :=
  match rt.keyOf handle with
  | .error e => (rt, .error e)
  | .ok key =>
    match rt.tcpConnections[key]? with
    | none =>
      match rt.closedStreams[handle]? with
      | none => (rt, .error .invalidSocket)
      | some remains =>
        let n := min len remains.residual.length
        let rest := { remains with residual := remains.residual.drop n }
        ({ rt with closedStreams := rt.closedStreams.insert handle rest },
          .ok (remains.residual.take n))
    | some (owner, conn) =>
      let (conn, bytes) := conn.read len
      let rt := rt.setConnection key owner conn
      if bytes ≠ [] then (rt, .ok bytes)
      else if conn.aborted then (rt, .error .connectionReset)
      else if conn.finReceived ∨ conn.state = .closed ∨ conn.state = .timeWait ∨
          conn.state = .lastAck ∨ conn.state = .closeWait then (rt, .ok [])
      else (rt, .error .wouldBlock)

def tcpReadable (rt : SocketRuntime ρ) (handle : TcpStreamHandle) : ℕ :=
  match rt.keyOf handle with
  | .error _ => 0
  | .ok key =>
    match rt.tcpConnections[key]? with
    | some (_, conn) => conn.rxBuffer.length
    | none => (rt.closedStreams[handle]?).elim 0 fun r => r.residual.length

def tcpShutdown (rt : SocketRuntime ρ) (handle : TcpStreamHandle) :
    SocketRuntime ρ × Except SocketError Unit :=
  match rt.keyOf handle with
  | .error e => (rt, .error e)
  | .ok key =>
    match rt.tcpConnections[key]? with
    | none => (rt, .error .notConnected)
    | some (owner, conn) =>
      let (conn, fin) := conn.initiateCloseAt rt.currentTimeMs
      let rt := rt.setConnection key owner conn
      ({ rt with
          tcpTx := rt.tcpTx ++ fin.toList.map fun s => ⟨key.localAddr, key.remoteAddr, .tcp s⟩ },
        .ok ())

def tcpClose (rt : SocketRuntime ρ) (handle : TcpStreamHandle) :
    SocketRuntime ρ × Except SocketError Unit :=
  rt.tcpShutdown handle

def tcpRelease (rt : SocketRuntime ρ) (handle : TcpStreamHandle) : SocketRuntime ρ :=
  { rt with
    closedStreams := rt.closedStreams.erase handle
    closedOrder := rt.closedOrder.filter fun h => h ≠ handle
    tcpStreams := rt.tcpStreams.erase handle
    tcpOptions := rt.tcpOptions.erase handle }

/-- The last segments of a connection that is aborted: what is queued, and a RST. -/
def abortSegments (key : TcpConnectionKey) (conn : TcpConnection ρ) (now : ℕ) : List TcpSegment :=
  let (conn, out) := conn.pollOutput now
  out ++ if !conn.aborted ∧ conn.state ≠ .closed then
    [{ srcPort := key.localAddr.port, dstPort := key.remoteAddr.port, seqNum := conn.sndNxt,
       ackNum := conn.rcvNxt, flags := { rst := true, ack := true }, windowSize := 0,
       options := [], payload := [] }]
  else []

def tcpAbort (rt : SocketRuntime ρ) (handle : TcpStreamHandle) (now : ℕ) : SocketRuntime ρ :=
  match rt.keyOf handle with
  | .error _ => rt.tcpRelease handle
  | .ok key =>
    match rt.tcpConnections[key]? with
    | none => rt.tcpRelease handle
    | some (_, conn) =>
      let last := (abortSegments key conn now).map fun s =>
        (⟨key.localAddr, key.remoteAddr, .tcp s⟩ : SocketTx)
      let rt := { rt with
        tcpConnections := rt.tcpConnections.erase key, tcpTx := rt.tcpTx ++ last }
      rt.tcpRelease handle

def tcpState (rt : SocketRuntime ρ) (handle : TcpStreamHandle) : Except SocketError TcpState :=
  match rt.keyOf handle with
  | .error e => .error e
  | .ok key =>
    match rt.tcpConnections[key]? with
    | some (_, conn) => .ok conn.state
    | none =>
      match rt.closedStreams[handle]? with
      | some r => .ok r.state
      | none => .error .invalidSocket

def tcpIsLive (rt : SocketRuntime ρ) (handle : TcpStreamHandle) : Bool :=
  match rt.keyOf handle with
  | .error _ => false
  | .ok key =>
    match rt.tcpConnections[key]? with
    | some (_, conn) => !conn.aborted ∧ conn.state ≠ .closed
    | none => false

/-- The setters of the TCP stream options differ in the field they write. -/
def setTcpOption (rt : SocketRuntime ρ) (handle : TcpStreamHandle)
    (f : TcpSocketOptions → TcpSocketOptions) : SocketRuntime ρ × Except SocketError Unit :=
  match rt.keyOf handle with
  | .error e => (rt, .error e)
  | .ok _ =>
    ({ rt with tcpOptions := rt.tcpOptions.insert handle (f (rt.tcpOptions.getD handle {})) },
      .ok ())

def tcpSetNodelay (rt : SocketRuntime ρ) (handle : TcpStreamHandle) (nodelay : Bool) :
    SocketRuntime ρ × Except SocketError Unit :=
  rt.setTcpOption handle fun o => { o with nodelay }

def tcpSetNonblocking (rt : SocketRuntime ρ) (handle : TcpStreamHandle) (nonblocking : Bool) :
    SocketRuntime ρ × Except SocketError Unit :=
  rt.setTcpOption handle fun o => { o with nonblocking }

def tcpSetReadTimeout (rt : SocketRuntime ρ) (handle : TcpStreamHandle)
    (readTimeoutMs : Option ℕ) : SocketRuntime ρ × Except SocketError Unit :=
  rt.setTcpOption handle fun o => { o with readTimeoutMs }

/-! ### Arriving packets and timers -/

def dispatchUdp (rt : SocketRuntime ρ) (src dst : SocketAddrV4) (payload : List UInt8) :
    SocketRuntime ρ × Bool :=
  match rt.udpPortMap[dst.port]? with
  | none => (rt, false)
  | some handle =>
    match rt.udpSockets[handle]? with
    | none => (rt, false)
    | some sock =>
      let sock := { sock with rxQueue := sock.rxQueue ++ [(payload, src)] }
      ({ rt with udpSockets := rt.udpSockets.insert handle sock }, true)

/-- The RST that answers a segment nobody owns. -/
def buildReset (seg : TcpSegment) : TcpSegment :=
  { srcPort := seg.dstPort, dstPort := seg.srcPort
    seqNum := if seg.flags.ack then seg.ackNum else 0
    ackNum := seg.seqNum + (if seg.flags.syn then 1 else 0) + (if seg.flags.fin then 1 else 0) +
      BitVec.ofNat 32 seg.payload.length
    flags := { rst := true, ack := !seg.flags.ack }
    windowSize := 0, options := [], payload := [] }

/-- A SYN for a listening port with room in its backlog becomes a connection. -/
def acceptSyn (rt : SocketRuntime ρ) (key : TcpConnectionKey) (seg : TcpSegment) (now : ℕ)
    (handle : TcpListenerHandle) : SocketRuntime ρ × List TcpSegment :=
  match rt.tcpListeners[handle]? with
  | none => (rt, [])
  | some listener =>
    if listener.acceptQueue.length ≥ listener.backlog then (rt, [])
    else
      let conn := rt.withDefaultMss (.newServer key.localAddr key.remoteAddr listener.nextIsn)
      let (conn, resp) := conn.handleSegmentAt seg now
      let (rt, stream) := rt.openStream key conn
      let listener := { listener with
        nextIsn := listener.nextIsn + 64000
        acceptQueue := listener.acceptQueue ++ [stream] }
      ({ rt with tcpListeners := rt.tcpListeners.insert handle listener }, resp.toList)

def dispatchTcpSegment (rt : SocketRuntime ρ) (srcIp dstIp : Ipv4Address) (seg : TcpSegment)
    (now : ℕ) : SocketRuntime ρ × List TcpSegment :=
  let rt := { rt with currentTimeMs := now }
  let key : TcpConnectionKey := ⟨⟨dstIp, seg.dstPort⟩, ⟨srcIp, seg.srcPort⟩⟩
  let refuse := (rt, if seg.flags.rst then [] else [buildReset seg])
  match rt.tcpConnections[key]? with
  | some (owner, conn) =>
    let (conn, reply) := conn.handleSegmentAt seg now
    let (conn, out) := conn.pollOutput now
    (rt.setConnection key owner conn, reply.toList ++ out)
  | none =>
    if seg.flags.syn ∧ !seg.flags.ack then
      match rt.tcpListenerPorts[seg.dstPort]? with
      | some handle => rt.acceptSyn key seg now handle
      | none => refuse
    else refuse

/-- Every connection's output pump, in key order. -/
def pump (rt : SocketRuntime ρ) (now : ℕ) : SocketRuntime ρ × List SocketTx :=
  ({ rt with tcpConnections := rt.tcpConnections.map fun _ e => (e.1, (e.2.pollOutput now).1) },
    rt.tcpConnections.toList.flatMap fun (key, e) =>
      (e.2.pollOutput now).2.map fun s => ⟨key.localAddr, key.remoteAddr, .tcp s⟩)

/-- One finished connection goes from the table to the history. -/
def reapOne (rt : SocketRuntime ρ) (key : TcpConnectionKey) : SocketRuntime ρ :=
  match rt.tcpConnections[key]? with
  | none => rt
  | some (handle, conn) =>
    { rt with
      tcpConnections := rt.tcpConnections.erase key
      closedStreams := rt.closedStreams.insert handle ⟨conn.state, conn.stats, conn.rxBuffer⟩
      closedOrder :=
        if rt.closedStreams.contains handle then rt.closedOrder else rt.closedOrder ++ [handle] }

/-- The oldest finished stream is forgotten. -/
def evictOne (rt : SocketRuntime ρ) : SocketRuntime ρ :=
  match rt.closedOrder with
  | [] => rt
  | old :: rest =>
    { rt with
      closedOrder := rest
      closedStreams := rt.closedStreams.erase old
      tcpStreams := rt.tcpStreams.erase old }

/-- The reaped connections in the order the table yields them, whatever that order is. -/
def reapable (rt : SocketRuntime ρ) (now : ℕ) (order : List TcpConnectionKey) :
    List TcpConnectionKey :=
  order.filter fun key => (rt.tcpConnections[key]?).any fun e => isReapable e.2 now

def reapClosed (rt : SocketRuntime ρ) (now : ℕ) (order : List TcpConnectionKey) :
    SocketRuntime ρ :=
  let rt := (rt.reapable now order).foldl reapOne rt
  evictOne^[rt.closedOrder.length - maxClosedStreamHistory] rt

/-- `order` is the order in which the connection table enumerates its keys. -/
def stepTimers (rt : SocketRuntime ρ) (now : ℕ) (order : List TcpConnectionKey) :
    SocketRuntime ρ × List SocketTx :=
  let queued := rt.udpTx ++ rt.tcpTx
  let (rt, sent) := { rt with currentTimeMs := now, udpTx := [], tcpTx := [] }.pump now
  (rt.reapClosed now order, queued ++ sent)

end SocketRuntime

end ToyTcpip.Socket
