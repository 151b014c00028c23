import ToyTcpip.Lib.View
import ToyTcpip.Socket.Runtime

/-! Which table refers to which: the handles and keys of the runtime, and what each call does to
them. -/
namespace ToyTcpip.Socket

open Tcp View

/-- The references between the tables, without what the entries carry. -/
@[ext]
structure Tables where
  nextId : UInt32
  /-- The stream a connection was created with. -/
  owner : TcpConnectionKey → Option TcpStreamHandle
  /-- The 4-tuple a stream handle resolves to. -/
  streamKey : TcpStreamHandle → Option TcpConnectionKey
  closed : TcpStreamHandle → Option Unit
  order : List TcpStreamHandle
  options : TcpStreamHandle → Option Unit
  udpPort : BitVec 16 → Option UdpSocketHandle
  udpAddr : UdpSocketHandle → Option (BitVec 16)
  listenPort : BitVec 16 → Option TcpListenerHandle
  listenAddr : TcpListenerHandle → Option (BitVec 16)

namespace Tables

open Function (update)

def bindUdp (t : Tables) (port : BitVec 16) : Tables :=
  { t with
    nextId := t.nextId + 1
    udpPort := update t.udpPort port (some ⟨t.nextId⟩)
    udpAddr := update t.udpAddr ⟨t.nextId⟩ (some port) }

def unbindUdp (t : Tables) (handle : UdpSocketHandle) (port : BitVec 16) : Tables :=
  { t with udpAddr := update t.udpAddr handle none, udpPort := update t.udpPort port none }

def listen (t : Tables) (port : BitVec 16) : Tables :=
  { t with
    nextId := t.nextId + 1
    listenPort := update t.listenPort port (some ⟨t.nextId⟩)
    listenAddr := update t.listenAddr ⟨t.nextId⟩ (some port) }

def unlisten (t : Tables) (handle : TcpListenerHandle) (port : BitVec 16) : Tables :=
  { t with
    listenAddr := update t.listenAddr handle none, listenPort := update t.listenPort port none }

def openStream (t : Tables) (key : TcpConnectionKey) : Tables :=
  { t with
    nextId := t.nextId + 1
    owner := update t.owner key (some ⟨t.nextId⟩)
    streamKey := update t.streamKey ⟨t.nextId⟩ (some key) }

def dropConnection (t : Tables) (key : TcpConnectionKey) : Tables :=
  { t with owner := update t.owner key none }

def release (t : Tables) (handle : TcpStreamHandle) : Tables :=
  { t with
    closed := update t.closed handle none
    order := t.order.filter fun h => h ≠ handle
    streamKey := update t.streamKey handle none
    options := update t.options handle none }

def abandon (t : Tables) (handle : TcpStreamHandle) : Tables :=
  match t.streamKey handle with
  | some key => { t.dropConnection key with streamKey := update t.streamKey handle none }
  | none => t

def abort (t : Tables) (handle : TcpStreamHandle) : Tables :=
  match t.streamKey handle with
  | some key => (t.dropConnection key).release handle
  | none => t.release handle

def reap (t : Tables) (key : TcpConnectionKey) : Tables :=
  match t.owner key with
  | none => t
  | some handle =>
    { t.dropConnection key with
      closed := update t.closed handle (some ())
      order := if (t.closed handle).isSome then t.order else t.order ++ [handle] }

def evict (t : Tables) : Tables :=
  match t.order with
  | [] => t
  | old :: rest =>
    { t with
      order := rest
      closed := update t.closed old none
      streamKey := update t.streamKey old none }

def setOption (t : Tables) (handle : TcpStreamHandle) : Tables :=
  { t with options := update t.options handle (some ()) }

end Tables

namespace SocketRuntime

variable {ρ : Type} {rt : SocketRuntime ρ}

def tables (rt : SocketRuntime ρ) : Tables where
  nextId := rt.nextSocketId
  owner := view rt.tcpConnections Prod.fst
  streamKey := view rt.tcpStreams TcpStreamEntry.connectionKey
  closed := view rt.closedStreams fun _ => ()
  order := rt.closedOrder
  options := view rt.tcpOptions fun _ => ()
  udpPort := view rt.udpPortMap id
  udpAddr := view rt.udpSockets fun e => e.localAddr.port
  listenPort := view rt.tcpListenerPorts id
  listenAddr := view rt.tcpListeners fun e => e.localAddr.port

/-! ### Port allocation -/

theorem tables_allocateFrom (start : BitVec 16) (rounds : ℕ) (rt : SocketRuntime ρ) :
    (allocateFrom start rounds rt).1.tables = rt.tables := by
  induction rounds generalizing rt with
  | zero => rfl
  | succ rounds ih =>
    unfold allocateFrom
    dsimp only
    split
    · rfl
    split
    · rfl
    · exact ih _

theorem tables_allocateEphemeralPort (rt : SocketRuntime ρ) :
    rt.allocateEphemeralPort.1.tables = rt.tables :=
  tables_allocateFrom _ _ _

theorem portInUse_congr {rt' : SocketRuntime ρ} {port : BitVec 16}
    (h : rt'.portInUse port = false) :
    rt'.tables.udpPort port = none ∧ rt'.tables.listenPort port = none := by
  simp only [portInUse, Bool.or_eq_false_iff] at h
  exact ⟨by simpa [tables, contains_eq_view (g := id)] using h.1.1,
    by simpa [tables, contains_eq_view (g := id)] using h.1.2⟩

/-- A port that is handed out is free. -/
theorem free_of_allocateFrom {start port : BitVec 16} {rounds : ℕ} {rt rt' : SocketRuntime ρ}
    (h : allocateFrom start rounds rt = (rt', .ok port)) :
    rt'.tables.udpPort port = none ∧ rt'.tables.listenPort port = none := by
  induction rounds generalizing rt with
  | zero => cases h
  | succ rounds ih =>
    unfold allocateFrom at h
    dsimp only at h
    split at h
    · rename_i hfree
      cases h
      exact portInUse_congr (by simpa using hfree)
    split at h
    · cases h
    · exact ih h

theorem allocateEphemeralPort_ok {rt' : SocketRuntime ρ} {port : BitVec 16}
    (h : rt.allocateEphemeralPort = (rt', .ok port)) :
    rt'.tables = rt.tables ∧ rt.tables.udpPort port = none ∧ rt.tables.listenPort port = none := by
  have htables := tables_allocateEphemeralPort rt
  rw [h] at htables
  exact ⟨htables, htables ▸ free_of_allocateFrom h⟩

theorem allocateEphemeralPort_error {rt' : SocketRuntime ρ} {e : SocketError}
    (h : rt.allocateEphemeralPort = (rt', .error e)) : rt'.tables = rt.tables := by
  have htables := tables_allocateEphemeralPort rt
  rwa [h] at htables

/-! ### UDP -/

theorem tables_addUdpSocket (rt : SocketRuntime ρ) (addr : SocketAddrV4) :
    (rt.addUdpSocket addr).1.tables = rt.tables.bindUdp addr.port := by
  simp [addUdpSocket, nextId, tables, Tables.bindUdp, view_insert]

theorem tables_udpBind (rt : SocketRuntime ρ) (addr : SocketAddrV4) :
    (rt.udpBind addr).1.tables = rt.tables ∨
      ∃ port, rt.tables.udpPort port = none ∧ (rt.udpBind addr).1.tables =
        rt.tables.bindUdp port := by
  unfold udpBind
  dsimp only
  split
  · split
    · rename_i h
      exact .inl (allocateEphemeralPort_error h)
    · rename_i rt' port h
      obtain ⟨htables, hfree, -⟩ := allocateEphemeralPort_ok h
      exact .inr ⟨port, hfree, by rw [tables_addUdpSocket, htables]⟩
  split
  · exact .inl rfl
  · rename_i hfree
    exact .inr ⟨_, by simpa [tables, view] using hfree, tables_addUdpSocket _ _⟩

theorem tables_udpSendTo (rt : SocketRuntime ρ) (handle : UdpSocketHandle) (data : List UInt8)
    (remote : SocketAddrV4) : (rt.udpSendTo handle data remote).1.tables = rt.tables := by
  fun_cases udpSendTo <;> rfl

theorem tables_udpRecvFrom (rt : SocketRuntime ρ) (handle : UdpSocketHandle) :
    (rt.udpRecvFrom handle).1.tables = rt.tables := by
  unfold udpRecvFrom
  split
  · rfl
  rename_i entry hentry
  split
  · rfl
  · simp only [tables]
    rw [view_insert_self hentry]
    rfl

theorem tables_udpClose (rt : SocketRuntime ρ) (handle : UdpSocketHandle) :
    (rt.udpClose handle).1.tables = rt.tables ∨
      ∃ port, rt.tables.udpAddr handle = some port ∧
        (rt.udpClose handle).1.tables = rt.tables.unbindUdp handle port := by
  unfold udpClose
  split
  · exact .inl rfl
  · rename_i entry hentry
    refine .inr ⟨entry.localAddr.port, by simp [tables, view, hentry], ?_⟩
    simp [tables, Tables.unbindUdp, view_erase]

theorem tables_setUdpOption (rt : SocketRuntime ρ) (handle : UdpSocketHandle)
    (f : UdpSocketOptions → UdpSocketOptions) :
    (rt.setUdpOption handle f).1.tables = rt.tables := by
  unfold setUdpOption
  split <;> rfl

theorem tables_dispatchUdp (rt : SocketRuntime ρ) (src dst : SocketAddrV4) (payload : List UInt8) :
    (rt.dispatchUdp src dst payload).1.tables = rt.tables := by
  unfold dispatchUdp
  split
  · rfl
  split
  · rfl
  · rename_i sock hsock
    simp only [tables]
    rw [view_insert_self hsock]
    rfl

/-! ### Listeners -/

theorem tables_addListener (rt : SocketRuntime ρ) (addr : SocketAddrV4) :
    (rt.addListener addr).1.tables = rt.tables.listen addr.port := by
  simp [addListener, nextId, tables, Tables.listen, view_insert]

theorem tables_tcpListen (rt : SocketRuntime ρ) (addr : SocketAddrV4) :
    (rt.tcpListen addr).1.tables = rt.tables ∨
      ∃ port, rt.tables.listenPort port = none ∧
        (rt.tcpListen addr).1.tables = rt.tables.listen port := by
  unfold tcpListen
  dsimp only
  split
  · split
    · rename_i h
      exact .inl (allocateEphemeralPort_error h)
    · rename_i rt' port h
      obtain ⟨htables, -, hfree⟩ := allocateEphemeralPort_ok h
      exact .inr ⟨port, hfree, by rw [tables_addListener, htables]⟩
  split
  · exact .inl rfl
  · rename_i hfree
    exact .inr ⟨_, by simpa [tables, view] using hfree, tables_addListener _ _⟩

theorem tables_tcpListenAny (rt : SocketRuntime ρ) (port : BitVec 16) :
    (rt.tcpListenAny port).1.tables = rt.tables ∨
      (rt.tables.listenPort port = none ∧
        (rt.tcpListenAny port).1.tables = rt.tables.listen port) := by
  unfold tcpListenAny
  split
  · exact .inl rfl
  split
  · exact .inl rfl
  · rename_i hfree
    exact .inr ⟨by simpa [tables, view] using hfree, tables_addListener _ _⟩

theorem tables_setListener {handle : TcpListenerHandle} {listener : TcpListenerEntry}
    (h : rt.tcpListeners[handle]? = some listener) {entry : TcpListenerEntry}
    (haddr : entry.localAddr = listener.localAddr) :
    { rt with tcpListeners := rt.tcpListeners.insert handle entry }.tables = rt.tables := by
  simp only [tables]
  rw [view_insert_self h (by rw [haddr])]

theorem tables_tcpAccept (rt : SocketRuntime ρ) (handle : TcpListenerHandle) :
    (rt.tcpAccept handle).1.tables = rt.tables := by
  unfold tcpAccept
  split
  · rfl
  rename_i listener hlistener
  dsimp only
  split <;> exact tables_setListener hlistener rfl

theorem tables_abandon (rt : SocketRuntime ρ) (pending : TcpStreamHandle) :
    (rt.abandon pending).tables = rt.tables.abandon pending := by
  cases h : rt.tcpStreams[pending]? with
  | none => simp [abandon, Tables.abandon, tables, view, h]
  | some stream =>
    have hkey : rt.tables.streamKey pending = some stream.connectionKey := by
      simp [tables, view, h]
    simp only [abandon, h, Tables.abandon, hkey]
    simp [tables, Tables.dropConnection, view_erase]

theorem tables_foldl_abandon (queue : List TcpStreamHandle) (rt : SocketRuntime ρ) :
    (queue.foldl abandon rt).tables = queue.foldl Tables.abandon rt.tables := by
  induction queue generalizing rt with
  | nil => rfl
  | cons pending queue ih => rw [List.foldl_cons, ih, tables_abandon, List.foldl_cons]

theorem tables_tcpListenerClose (rt : SocketRuntime ρ) (handle : TcpListenerHandle) :
    (rt.tcpListenerClose handle).1.tables = rt.tables ∨
      ∃ entry, rt.tcpListeners[handle]? = some entry ∧
        (rt.tcpListenerClose handle).1.tables = entry.acceptQueue.foldl Tables.abandon
          (rt.tables.unlisten handle entry.localAddr.port) := by
  unfold tcpListenerClose
  split
  · exact .inl rfl
  · rename_i entry hentry
    refine .inr ⟨entry, hentry, ?_⟩
    rw [tables_foldl_abandon]
    simp [tables, Tables.unlisten, view_erase]

/-! ### Streams -/

theorem tables_openStream (rt : SocketRuntime ρ) (key : TcpConnectionKey) (conn : TcpConnection ρ) :
    (rt.openStream key conn).1.tables = rt.tables.openStream key := by
  simp [openStream, nextId, tables, Tables.openStream, view_insert]

theorem tables_connectOn [RttEstimator ρ] (rt : SocketRuntime ρ)
    (localAddr remoteAddr : SocketAddrV4) (isn : SeqNum) :
    (rt.connectOn localAddr remoteAddr isn).1.tables = rt.tables ∨
      ∃ key, rt.tables.owner key = none ∧
        (rt.connectOn localAddr remoteAddr isn).1.tables = rt.tables.openStream key := by
  unfold connectOn
  dsimp only
  split
  · exact .inl rfl
  · rename_i hfree
    refine .inr ⟨⟨localAddr, remoteAddr⟩, by simpa [tables, view] using hfree, ?_⟩
    rw [← tables_openStream]
    rfl

theorem tables_tcpConnectFrom [RttEstimator ρ] (rt : SocketRuntime ρ)
    (localAddr remoteAddr : SocketAddrV4) (isn : SeqNum) :
    (rt.tcpConnectFrom localAddr remoteAddr isn).1.tables = rt.tables ∨
      ∃ key, rt.tables.owner key = none ∧
        (rt.tcpConnectFrom localAddr remoteAddr isn).1.tables = rt.tables.openStream key := by
  unfold tcpConnectFrom
  dsimp only
  split
  · split
    · rename_i h
      exact .inl (allocateEphemeralPort_error h)
    · rename_i rt' port h
      obtain ⟨htables, -⟩ := allocateEphemeralPort_ok h
      rw [← htables]
      exact tables_connectOn _ _ _ _
  · exact tables_connectOn _ _ _ _

theorem tables_isnCounter (n : SeqNum) : tables { rt with isnCounter := n } = rt.tables := rfl

theorem tables_tcpConnect [RttEstimator ρ] (rt : SocketRuntime ρ) (remoteAddr : SocketAddrV4) :
    (rt.tcpConnect remoteAddr).1.tables = rt.tables ∨
      ∃ key, rt.tables.owner key = none ∧
        (rt.tcpConnect remoteAddr).1.tables = rt.tables.openStream key := by
  unfold tcpConnect
  split
  · rename_i h
    exact .inl (allocateEphemeralPort_error h)
  · rename_i rt' port h
    obtain ⟨htables, -⟩ := allocateEphemeralPort_ok h
    have hisn : rt'.nextIsn.1.tables = rt.tables := (tables_isnCounter _).trans htables
    cases hnext : rt'.nextIsn with
    | mk rt'' isn =>
      rw [hnext] at hisn
      rw [← hisn]
      exact tables_tcpConnectFrom rt'' ⟨rt''.defaultIp, port⟩ remoteAddr isn

theorem tables_setConnection {key : TcpConnectionKey} {owner : TcpStreamHandle}
    {conn : TcpConnection ρ} (h : rt.tcpConnections[key]? = some (owner, conn))
    (conn' : TcpConnection ρ) : (rt.setConnection key owner conn').tables = rt.tables := by
  simp only [setConnection, tables]
  rw [view_insert_self h]
  rfl

theorem tables_tcpWrite (rt : SocketRuntime ρ) (handle : TcpStreamHandle) (data : List UInt8) :
    (rt.tcpWrite handle data).1.tables = rt.tables := by
  unfold tcpWrite
  split
  · rfl
  split
  · rfl
  rename_i owner conn hconn
  split
  · rfl
  split
  · rfl
  dsimp only
  split <;> exact tables_setConnection hconn _

theorem tables_tcpRead (rt : SocketRuntime ρ) (handle : TcpStreamHandle) (len : ℕ) :
    (rt.tcpRead handle len).1.tables = rt.tables := by
  unfold tcpRead
  split
  · rfl
  split
  · split
    · rfl
    · rename_i remains hremains
      simp only [tables]
      rw [view_insert_self hremains]
      rfl
  · rename_i owner conn hconn
    dsimp only
    split
    · exact tables_setConnection hconn _
    split
    · exact tables_setConnection hconn _
    split <;> exact tables_setConnection hconn _

theorem tables_tcpShutdown (rt : SocketRuntime ρ) (handle : TcpStreamHandle) :
    (rt.tcpShutdown handle).1.tables = rt.tables := by
  unfold tcpShutdown
  split
  · rfl
  split
  · rfl
  · rename_i owner conn hconn
    exact tables_setConnection hconn _

theorem tables_tcpRelease (rt : SocketRuntime ρ) (handle : TcpStreamHandle) :
    (rt.tcpRelease handle).tables = rt.tables.release handle := by
  simp [tcpRelease, tables, Tables.release, view_erase]

theorem keyOf_eq (rt : SocketRuntime ρ) (handle : TcpStreamHandle) :
    rt.keyOf handle = match rt.tables.streamKey handle with
      | some key => .ok key
      | none => .error .invalidSocket := by
  cases h : rt.tcpStreams[handle]? <;> simp [keyOf, tables, view, h]

theorem keyOf_ok {handle : TcpStreamHandle} {key : TcpConnectionKey}
    (h : rt.keyOf handle = .ok key) : rt.tables.streamKey handle = some key := by
  rw [keyOf_eq] at h
  cases hkey : rt.tables.streamKey handle <;> simp_all

theorem keyOf_error {handle : TcpStreamHandle} {e : SocketError} (h : rt.keyOf handle = .error e) :
    rt.tables.streamKey handle = none := by
  rw [keyOf_eq] at h
  cases hkey : rt.tables.streamKey handle <;> simp_all

theorem tables_tcpAbort [RttEstimator ρ] (rt : SocketRuntime ρ)
    (handle : TcpStreamHandle) (now : ℕ) :
    (rt.tcpAbort handle now).tables = rt.tables.abort handle := by
  unfold tcpAbort Tables.abort
  split
  · rename_i h
    rw [tables_tcpRelease, keyOf_error h]
  rename_i key h
  rw [keyOf_ok h]
  split
  · rename_i hnone
    have : rt.tables.dropConnection key = rt.tables := by
      refine Tables.ext rfl ?_ rfl rfl rfl rfl rfl rfl rfl rfl
      exact Function.update_eq_self_iff.mpr (by simp [tables, view, hnone])
    dsimp only
    rw [tables_tcpRelease, this]
  · dsimp only
    rw [tables_tcpRelease]
    congr 1
    simp [tables, Tables.dropConnection, view_erase]

theorem tables_setTcpOption (rt : SocketRuntime ρ) (handle : TcpStreamHandle)
    (f : TcpSocketOptions → TcpSocketOptions) :
    (rt.setTcpOption handle f).1.tables = rt.tables ∨
      (rt.tables.streamKey handle).isSome ∧
        (rt.setTcpOption handle f).1.tables = rt.tables.setOption handle := by
  unfold setTcpOption
  split
  · exact .inl rfl
  · rename_i key h
    refine .inr ⟨by simp [keyOf_ok h], ?_⟩
    simp [tables, Tables.setOption, view_insert]

/-! ### Arriving segments and timers -/

theorem tables_acceptSyn [RttEstimator ρ] (rt : SocketRuntime ρ) (key : TcpConnectionKey)
    (seg : TcpSegment) (now : ℕ) (handle : TcpListenerHandle) :
    (rt.acceptSyn key seg now handle).1.tables = rt.tables ∨
      (rt.acceptSyn key seg now handle).1.tables = rt.tables.openStream key := by
  unfold acceptSyn
  split
  · exact .inl rfl
  rename_i listener hlistener
  split
  · exact .inl rfl
  · refine .inr ?_
    rw [← tables_openStream]
    have hsame : ∀ conn, (rt.openStream key conn).1.tcpListeners[handle]? = some listener :=
      fun _ => hlistener
    exact tables_setListener (hsame _) rfl

theorem tables_dispatchTcpSegment [RttEstimator ρ] (rt : SocketRuntime ρ)
    (srcIp dstIp : Ipv4Address) (seg : TcpSegment) (now : ℕ) :
    (rt.dispatchTcpSegment srcIp dstIp seg now).1.tables = rt.tables ∨
      ∃ key, rt.tables.owner key = none ∧
        (rt.dispatchTcpSegment srcIp dstIp seg now).1.tables = rt.tables.openStream key := by
  unfold dispatchTcpSegment
  dsimp only
  split
  · rename_i owner conn hconn
    have hsame : ({ rt with currentTimeMs := now } : SocketRuntime ρ).tcpConnections[_]? =
        some (owner, conn) := hconn
    exact .inl (tables_setConnection hsame _)
  rename_i hnone
  split
  · split
    · rename_i handle _
      refine (tables_acceptSyn { rt with currentTimeMs := now } _ seg now handle).imp id fun h =>
        ⟨_, ?_, h⟩
      simpa [tables, view] using hnone
    · exact .inl rfl
  · exact .inl rfl

theorem tables_pump [RttEstimator ρ] (rt : SocketRuntime ρ) (now : ℕ) :
    (rt.pump now).1.tables = rt.tables := by
  simp only [pump, tables]
  rw [view_map]
  exact fun _ _ => rfl

theorem tables_reapOne (rt : SocketRuntime ρ) (key : TcpConnectionKey) :
    (rt.reapOne key).tables = rt.tables.reap key := by
  cases h : rt.tcpConnections[key]? with
  | none => simp [reapOne, Tables.reap, tables, view, h]
  | some entry =>
    have howner : rt.tables.owner key = some entry.1 := by simp [tables, view, h]
    simp only [reapOne, h, Tables.reap, howner]
    simp [tables, Tables.dropConnection, view_erase, view_insert,
      contains_eq_view (g := fun _ : Remains => ())]
    congr

theorem tables_evictOne (rt : SocketRuntime ρ) : rt.evictOne.tables = rt.tables.evict := by
  cases h : rt.closedOrder with
  | nil => simp [evictOne, Tables.evict, tables, h]
  | cons old rest => simp [evictOne, Tables.evict, tables, h, view_erase]

theorem tables_foldl_reapOne (keys : List TcpConnectionKey) (rt : SocketRuntime ρ) :
    (keys.foldl reapOne rt).tables = keys.foldl Tables.reap rt.tables := by
  induction keys generalizing rt with
  | nil => rfl
  | cons key keys ih => rw [List.foldl_cons, ih, tables_reapOne, List.foldl_cons]

theorem tables_iterate_evictOne (n : ℕ) (rt : SocketRuntime ρ) :
    (evictOne^[n] rt).tables = Tables.evict^[n] rt.tables := by
  induction n generalizing rt with
  | zero => rfl
  | succ n ih => rw [Function.iterate_succ_apply, ih, tables_evictOne, Function.iterate_succ_apply]

/-- The connections a timer step reaps, in order. -/
def reaped [RttEstimator ρ] (rt : SocketRuntime ρ) (now : ℕ) (order : List TcpConnectionKey) :
    List TcpConnectionKey :=
  ({ rt with currentTimeMs := now, udpTx := [], tcpTx := [] }.pump now).1.reapable now order

/-- The tables of a timer step after the reaping and before the eviction. -/
def afterReap [RttEstimator ρ] (rt : SocketRuntime ρ) (now : ℕ)
    (order : List TcpConnectionKey) : Tables :=
  (rt.reaped now order).foldl Tables.reap rt.tables

theorem tables_stepTimers [RttEstimator ρ] (rt : SocketRuntime ρ) (now : ℕ)
    (order : List TcpConnectionKey) :
    (rt.stepTimers now order).1.tables =
      Tables.evict^[(rt.afterReap now order).order.length - maxClosedStreamHistory]
        (rt.afterReap now order) := by
  simp only [stepTimers, reapClosed, tables_iterate_evictOne]
  have h := tables_foldl_reapOne (rt.reaped now order)
    ({ rt with currentTimeMs := now, udpTx := [], tcpTx := [] }.pump now).1
  rw [tables_pump] at h
  have hlen := congrArg (fun t => t.order.length) h
  simp only [reaped] at h hlen
  rw [h]
  exact congrArg (fun n => Tables.evict^[n - _] _) hlen

end SocketRuntime

/-! ### Calls -/

inductive SocketCall where
  | setDefaultMss (mss : BitVec 16)
  | udpBind (addr : SocketAddrV4)
  | udpSendTo (handle : UdpSocketHandle) (data : List UInt8) (remote : SocketAddrV4)
  | udpRecvFrom (handle : UdpSocketHandle)
  | udpClose (handle : UdpSocketHandle)
  | udpSetBroadcast (handle : UdpSocketHandle) (broadcast : Bool)
  | udpSetNonblocking (handle : UdpSocketHandle) (nonblocking : Bool)
  | udpSetMulticastTtl (handle : UdpSocketHandle) (ttl : UInt8)
  | udpSetMulticastLoopV4 (handle : UdpSocketHandle) (loopback : Bool)
  | tcpListen (addr : SocketAddrV4)
  | tcpListenAny (port : BitVec 16)
  | tcpAccept (handle : TcpListenerHandle)
  | tcpListenerClose (handle : TcpListenerHandle)
  | tcpConnect (remote : SocketAddrV4)
  | tcpConnectFrom (localAddr remoteAddr : SocketAddrV4) (isn : SeqNum)
  | tcpWrite (handle : TcpStreamHandle) (data : List UInt8)
  | tcpRead (handle : TcpStreamHandle) (len : ℕ)
  | tcpShutdown (handle : TcpStreamHandle)
  | tcpClose (handle : TcpStreamHandle)
  | tcpAbort (handle : TcpStreamHandle) (now : ℕ)
  | tcpSetNodelay (handle : TcpStreamHandle) (nodelay : Bool)
  | tcpSetNonblocking (handle : TcpStreamHandle) (nonblocking : Bool)
  | tcpSetReadTimeout (handle : TcpStreamHandle) (timeoutMs : Option ℕ)
  | tcpRelease (handle : TcpStreamHandle)
  | dispatchUdp (src dst : SocketAddrV4) (payload : List UInt8)
  | dispatchTcpSegment (srcIp dstIp : Ipv4Address) (seg : TcpSegment) (now : ℕ)
  | stepTimers (now : ℕ) (order : List TcpConnectionKey)

/-- The calls that can create a listener. -/
def SocketCall.listens : SocketCall → Bool
  | .tcpListen _ | .tcpListenAny _ => true
  | _ => false

/-- The calls that can create a connection. -/
def SocketCall.opens : SocketCall → Bool
  | .tcpConnect _ | .tcpConnectFrom .. | .dispatchTcpSegment .. => true
  | _ => false

namespace SocketRuntime

variable {ρ : Type} [RttEstimator ρ] {rt : SocketRuntime ρ}

def apply (rt : SocketRuntime ρ) : SocketCall → SocketRuntime ρ
  | .setDefaultMss mss => rt.setDefaultMss mss
  | .udpBind addr => (rt.udpBind addr).1
  | .udpSendTo handle data remote => (rt.udpSendTo handle data remote).1
  | .udpRecvFrom handle => (rt.udpRecvFrom handle).1
  | .udpClose handle => (rt.udpClose handle).1
  | .udpSetBroadcast handle broadcast => (rt.udpSetBroadcast handle broadcast).1
  | .udpSetNonblocking handle nonblocking => (rt.udpSetNonblocking handle nonblocking).1
  | .udpSetMulticastTtl handle ttl => (rt.udpSetMulticastTtl handle ttl).1
  | .udpSetMulticastLoopV4 handle loopback => (rt.udpSetMulticastLoopV4 handle loopback).1
  | .tcpListen addr => (rt.tcpListen addr).1
  | .tcpListenAny port => (rt.tcpListenAny port).1
  | .tcpAccept handle => (rt.tcpAccept handle).1
  | .tcpListenerClose handle => (rt.tcpListenerClose handle).1
  | .tcpConnect remote => (rt.tcpConnect remote).1
  | .tcpConnectFrom localAddr remoteAddr isn => (rt.tcpConnectFrom localAddr remoteAddr isn).1
  | .tcpWrite handle data => (rt.tcpWrite handle data).1
  | .tcpRead handle len => (rt.tcpRead handle len).1
  | .tcpShutdown handle => (rt.tcpShutdown handle).1
  | .tcpClose handle => (rt.tcpClose handle).1
  | .tcpAbort handle now => rt.tcpAbort handle now
  | .tcpSetNodelay handle nodelay => (rt.tcpSetNodelay handle nodelay).1
  | .tcpSetNonblocking handle nonblocking => (rt.tcpSetNonblocking handle nonblocking).1
  | .tcpSetReadTimeout handle timeoutMs => (rt.tcpSetReadTimeout handle timeoutMs).1
  | .tcpRelease handle => rt.tcpRelease handle
  | .dispatchUdp src dst payload => (rt.dispatchUdp src dst payload).1
  | .dispatchTcpSegment srcIp dstIp seg now => (rt.dispatchTcpSegment srcIp dstIp seg now).1
  | .stepTimers now order => (rt.stepTimers now order).1

def run (rt : SocketRuntime ρ) (calls : List SocketCall) : SocketRuntime ρ := calls.foldl apply rt

/-- All that a call can do to the tables. -/
inductive Changes (rt : SocketRuntime ρ) : SocketCall → Tables → Prop
  | same (c) : Changes rt c rt.tables
  | bound (addr) {port} (hfree : rt.tables.udpPort port = none) :
      Changes rt (.udpBind addr) (rt.tables.bindUdp port)
  | unbound {handle port} (haddr : rt.tables.udpAddr handle = some port) :
      Changes rt (.udpClose handle) (rt.tables.unbindUdp handle port)
  | listening (c) {port} (hc : c.listens = true) (hfree : rt.tables.listenPort port = none) :
      Changes rt c (rt.tables.listen port)
  | unlistened {handle entry} (hentry : rt.tcpListeners[handle]? = some entry) :
      Changes rt (.tcpListenerClose handle) (entry.acceptQueue.foldl Tables.abandon
        (rt.tables.unlisten handle entry.localAddr.port))
  | opened (c) {key} (hc : c.opens = true) (hfree : rt.tables.owner key = none) :
      Changes rt c (rt.tables.openStream key)
  | released (handle) : Changes rt (.tcpRelease handle) (rt.tables.release handle)
  | aborted (handle now) : Changes rt (.tcpAbort handle now) (rt.tables.abort handle)
  | optionSet (c) {handle} (hstream : (rt.tables.streamKey handle).isSome) :
      Changes rt c (rt.tables.setOption handle)
  | timers (now order) : Changes rt (.stepTimers now order)
      (Tables.evict^[(rt.afterReap now order).order.length - maxClosedStreamHistory]
        (rt.afterReap now order))

theorem Changes.of_same {c : SocketCall} {t : Tables} (h : t = rt.tables) : Changes rt c t :=
  h ▸ .same c

theorem changes_setTcpOption (rt : SocketRuntime ρ) (c : SocketCall) (handle : TcpStreamHandle)
    (f : TcpSocketOptions → TcpSocketOptions) :
    Changes rt c (rt.setTcpOption handle f).1.tables := by
  rcases tables_setTcpOption rt handle f with h | ⟨hstream, h⟩
  · exact .of_same h
  · exact h ▸ .optionSet c hstream

theorem changes_apply (rt : SocketRuntime ρ) (c : SocketCall) :
    Changes rt c (rt.apply c).tables := by
  cases c with
  | setDefaultMss mss => exact .of_same rfl
  | udpBind addr =>
    rcases tables_udpBind rt addr with h | ⟨port, hfree, h⟩
    · exact .of_same h
    · exact h ▸ .bound addr hfree
  | udpSendTo handle data remote => exact .of_same (tables_udpSendTo rt handle data remote)
  | udpRecvFrom handle => exact .of_same (tables_udpRecvFrom rt handle)
  | udpClose handle =>
    rcases tables_udpClose rt handle with h | ⟨port, haddr, h⟩
    · exact .of_same h
    · exact h ▸ .unbound haddr
  | udpSetBroadcast handle _ => exact .of_same (tables_setUdpOption rt handle _)
  | udpSetNonblocking handle _ => exact .of_same (tables_setUdpOption rt handle _)
  | udpSetMulticastTtl handle _ => exact .of_same (tables_setUdpOption rt handle _)
  | udpSetMulticastLoopV4 handle _ => exact .of_same (tables_setUdpOption rt handle _)
  | tcpListen addr =>
    rcases tables_tcpListen rt addr with h | ⟨port, hfree, h⟩
    · exact .of_same h
    · exact h ▸ .listening _ rfl hfree
  | tcpListenAny port =>
    rcases tables_tcpListenAny rt port with h | ⟨hfree, h⟩
    · exact .of_same h
    · exact h ▸ .listening _ rfl hfree
  | tcpAccept handle => exact .of_same (tables_tcpAccept rt handle)
  | tcpListenerClose handle =>
    rcases tables_tcpListenerClose rt handle with h | ⟨entry, hentry, h⟩
    · exact .of_same h
    · exact h ▸ .unlistened hentry
  | tcpConnect remote =>
    rcases tables_tcpConnect rt remote with h | ⟨key, hfree, h⟩
    · exact .of_same h
    · exact h ▸ .opened _ rfl hfree
  | tcpConnectFrom localAddr remoteAddr isn =>
    rcases tables_tcpConnectFrom rt localAddr remoteAddr isn with h | ⟨key, hfree, h⟩
    · exact .of_same h
    · exact h ▸ .opened _ rfl hfree
  | tcpWrite handle data => exact .of_same (tables_tcpWrite rt handle data)
  | tcpRead handle len => exact .of_same (tables_tcpRead rt handle len)
  | tcpShutdown handle => exact .of_same (tables_tcpShutdown rt handle)
  | tcpClose handle => exact .of_same (tables_tcpShutdown rt handle)
  | tcpAbort handle now => exact tables_tcpAbort rt handle now ▸ .aborted handle now
  | tcpSetNodelay handle _ => exact changes_setTcpOption rt _ handle _
  | tcpSetNonblocking handle _ => exact changes_setTcpOption rt _ handle _
  | tcpSetReadTimeout handle _ => exact changes_setTcpOption rt _ handle _
  | tcpRelease handle => exact tables_tcpRelease rt handle ▸ .released handle
  | dispatchUdp src dst payload => exact .of_same (tables_dispatchUdp rt src dst payload)
  | dispatchTcpSegment srcIp dstIp seg now =>
    rcases tables_dispatchTcpSegment rt srcIp dstIp seg now with h | ⟨key, hfree, h⟩
    · exact .of_same h
    · exact h ▸ .opened _ rfl hfree
  | stepTimers now order => exact tables_stepTimers rt now order ▸ .timers now order

end SocketRuntime

end ToyTcpip.Socket
