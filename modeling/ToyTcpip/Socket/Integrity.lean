import ToyTcpip.Socket.Tables

/-! Referential integrity of the socket tables. -/
namespace ToyTcpip.Socket

open Tcp View

variable {ρ : Type} {rt : SocketRuntime ρ} {t : Tables} {c : SocketCall}

/-- No table of the runtime refers to an entry that another table does not have. -/
structure Integrity (rt : SocketRuntime ρ) : Prop where
  connections : ∀ (key : TcpConnectionKey) (handle : TcpStreamHandle) (conn : TcpConnection ρ),
    rt.tcpConnections[key]? = some (handle, conn) →
    ∃ stream : TcpStreamEntry,
      rt.tcpStreams[handle]? = some stream ∧ stream.connectionKey = key
  udp : ∀ (port : BitVec 16) (handle : UdpSocketHandle), rt.udpPortMap[port]? = some handle ↔
    ∃ entry : UdpSocketEntry, rt.udpSockets[handle]? = some entry ∧ entry.localAddr.port = port
  listeners : ∀ (port : BitVec 16) (handle : TcpListenerHandle),
    rt.tcpListenerPorts[port]? = some handle ↔
      ∃ entry : TcpListenerEntry,
        rt.tcpListeners[handle]? = some entry ∧ entry.localAddr.port = port
  closed : ∀ handle, handle ∈ rt.closedOrder ↔ handle ∈ rt.closedStreams
  once : rt.closedOrder.Nodup
  bounded : rt.closedOrder.length ≤ maxClosedStreamHistory
  options : ∀ handle, handle ∈ rt.tcpOptions → handle ∈ rt.tcpStreams

/-! ### The invariant on the references -/

structure Linked (t : Tables) : Prop where
  owned : ∀ key h, t.owner key = some h → t.streamKey h = some key
  live : ∀ key h, t.owner key = some h → t.closed h = none
  udp : Inverse t.udpPort t.udpAddr
  listen : Inverse t.listenPort t.listenAddr
  closed : ∀ h, h ∈ t.order ↔ (t.closed h).isSome
  once : t.order.Nodup
  options : ∀ h, (t.options h).isSome → (t.streamKey h).isSome

theorem Linked.integrity (h : Linked rt.tables)
    (hlen : rt.closedOrder.length ≤ maxClosedStreamHistory) : Integrity rt := by
  refine ⟨fun key handle conn hconn => ?_, fun port handle => ?_, fun port handle => ?_,
    fun handle => ?_, h.once, hlen, fun handle ho => ?_⟩
  · have := h.owned key handle (by simp [SocketRuntime.tables, view, hconn])
    simpa [SocketRuntime.tables, view] using this
  · simpa [SocketRuntime.tables, view] using h.udp port handle
  · simpa [SocketRuntime.tables, view] using h.listen port handle
  · simpa [SocketRuntime.tables, view] using h.closed handle
  · simpa [SocketRuntime.tables, view] using h.options handle
      (by simpa [SocketRuntime.tables, view] using ho)

namespace Linked

theorem bindUdp (h : Linked t) {port : BitVec 16} (hport : t.udpPort port = none)
    (hfresh : t.udpAddr ⟨t.nextId⟩ = none) : Linked (t.bindUdp port) :=
  { h with udp := h.udp.insert hport hfresh }

theorem unbindUdp (h : Linked t) {handle : UdpSocketHandle} {port : BitVec 16}
    (haddr : t.udpAddr handle = some port) : Linked (t.unbindUdp handle port) :=
  { h with udp := h.udp.erase ((h.udp port handle).mpr haddr) }

theorem listening (h : Linked t) {port : BitVec 16} (hport : t.listenPort port = none)
    (hfresh : t.listenAddr ⟨t.nextId⟩ = none) : Linked (t.listen port) :=
  { h with listen := h.listen.insert hport hfresh }

theorem unlisten (h : Linked t) {handle : TcpListenerHandle} {port : BitVec 16}
    (haddr : t.listenAddr handle = some port) : Linked (t.unlisten handle port) :=
  { h with listen := h.listen.erase ((h.listen port handle).mpr haddr) }

theorem dropConnection (h : Linked t) (key : TcpConnectionKey) : Linked (t.dropConnection key) := by
  have hold : ∀ k handle, (t.dropConnection key).owner k = some handle →
      t.owner k = some handle := by
    intro k handle hk
    simp only [Tables.dropConnection, Function.update_apply] at hk
    split at hk
    · cases hk
    · exact hk
  exact { h with
    owned := fun k handle hk => h.owned k handle (hold k handle hk)
    live := fun k handle hk => h.live k handle (hold k handle hk) }

/-- A handle names one 4-tuple, so it owns at most the connection there. -/
theorem owner_dropConnection (h : Linked t) {handle : TcpStreamHandle} {key : TcpConnectionKey}
    (hkey : t.streamKey handle = some key) (k : TcpConnectionKey) :
    (t.dropConnection key).owner k ≠ some handle := by
  intro hk
  simp only [Tables.dropConnection, Function.update_apply] at hk
  split at hk
  · cases hk
  · rename_i hne
    have := h.owned k handle hk
    rw [hkey] at this
    exact hne (Option.some.inj this).symm

theorem openStream (h : Linked t) {key : TcpConnectionKey} (hkey : t.owner key = none)
    (hstream : t.streamKey ⟨t.nextId⟩ = none) (hclosed : t.closed ⟨t.nextId⟩ = none) :
    Linked (t.openStream key) := by
  refine { h with owned := fun k handle hk => ?_, live := fun k handle hk => ?_,
                  options := fun handle ho => ?_ }
  · simp only [Tables.openStream, Function.update_apply] at hk ⊢
    split at hk
    · rename_i hk'
      subst hk'
      cases hk
      rw [if_pos rfl]
    · have hold := h.owned k handle hk
      split
      · simp_all
      · exact hold
  · simp only [Tables.openStream, Function.update_apply] at hk ⊢
    split at hk
    · cases hk
      exact hclosed
    · exact h.live k handle hk
  · simp only [Tables.openStream, Function.update_apply] at ho ⊢
    split
    · rfl
    · exact h.options handle ho

theorem release (h : Linked t) {handle : TcpStreamHandle} (hfree : ∀ k, t.owner k ≠ some handle) :
    Linked (t.release handle) := by
  refine { h with owned := fun k other hk => ?_, live := fun k other hk => ?_,
                  closed := fun other => ?_, once := h.once.filter _, options :=
                fun other ho => ?_ }
  · have hne : other ≠ handle := fun heq => hfree k (heq ▸ hk)
    simpa [Tables.release, Function.update_apply, hne] using h.owned k other hk
  · have hne : other ≠ handle := fun heq => hfree k (heq ▸ hk)
    simpa [Tables.release, Function.update_apply, hne] using h.live k other hk
  · have hclosed := h.closed other
    by_cases heq : other = handle <;> simp_all [Tables.release]
  · have hoptions := h.options other
    by_cases heq : other = handle <;> simp_all [Tables.release]

theorem abort (h : Linked t) (handle : TcpStreamHandle) : Linked (t.abort handle) := by
  unfold Tables.abort
  split
  · rename_i key hkey
    exact (h.dropConnection key).release (h.owner_dropConnection hkey)
  · rename_i hnone
    refine h.release fun k hk => ?_
    have := h.owned k handle hk
    rw [hnone] at this
    cases this

theorem abandon (h : Linked t) {handle : TcpStreamHandle} (hoptions : t.options handle = none) :
    Linked (t.abandon handle) := by
  unfold Tables.abandon
  split
  · rename_i key hkey
    have hdrop := h.dropConnection key
    refine { hdrop with owned := fun k other hk => ?_, options := fun other ho => ?_ }
    · have hne : other ≠ handle := fun heq => h.owner_dropConnection hkey k (heq ▸ hk)
      simpa [Tables.dropConnection, hne] using hdrop.owned k other hk
    · have hne : other ≠ handle := by
        rintro rfl
        change (t.options other).isSome at ho
        rw [hoptions] at ho
        cases ho
      simpa [Tables.dropConnection, hne] using hdrop.options other ho
  · exact h

theorem options_abandon (t : Tables) (handle : TcpStreamHandle) :
    (t.abandon handle).options = t.options := by
  unfold Tables.abandon
  split <;> rfl

theorem foldl_abandon (queue : List TcpStreamHandle) (h : Linked t)
    (hoptions : ∀ p ∈ queue, t.options p = none) : Linked (queue.foldl Tables.abandon t) := by
  induction queue generalizing t with
  | nil => exact h
  | cons p queue ih =>
    refine ih (h.abandon (hoptions p (by simp))) fun q hq => ?_
    rw [options_abandon]
    exact hoptions q (by simp [hq])

theorem reap (h : Linked t) (key : TcpConnectionKey) : Linked (t.reap key) := by
  unfold Tables.reap
  split
  · exact h
  rename_i handle hkey
  have hdrop := h.dropConnection key
  have hgone := h.owner_dropConnection (h.owned key handle hkey)
  have hlive := h.live key handle hkey
  refine { hdrop with live := fun k other hk => ?_, closed := fun other => ?_, once := ?_ }
  · have hne : other ≠ handle := fun heq => hgone k (heq ▸ hk)
    simpa [Tables.dropConnection, hne] using hdrop.live k other hk
  · have hclosed := h.closed other
    by_cases heq : other = handle <;> simp_all
  · have hclosed := h.closed handle
    simp_all [List.nodup_append, h.once]
    rintro a ha rfl
    exact hclosed ha

theorem foldl_reap (keys : List TcpConnectionKey) (h : Linked t) :
    Linked (keys.foldl Tables.reap t) := by
  induction keys generalizing t with
  | nil => exact h
  | cons key keys ih => exact ih (h.reap key)

theorem evict (h : Linked t) (hoptions : ∀ p ∈ t.order.take 1, t.options p = none) :
    Linked t.evict := by
  unfold Tables.evict
  split
  · exact h
  rename_i old rest horder
  have hclosed : (t.closed old).isSome := (h.closed old).mp (by simp [horder])
  have hnodup := h.once
  rw [horder, List.nodup_cons] at hnodup
  refine { h with owned := fun k other hk => ?_, live := fun k other hk => ?_,
                  closed := fun other => ?_, once := hnodup.2, options := fun other ho => ?_ }
  · have hne : other ≠ old := by
      rintro rfl
      simp [h.live k other hk] at hclosed
    simpa [Function.update_apply, hne] using h.owned k other hk
  · have := h.live k other hk
    by_cases heq : other = old <;> simp_all
  · have hother := h.closed other
    rw [horder] at hother
    by_cases heq : other = old <;> simp_all
  · have hne : other ≠ old := by
      rintro rfl
      have := hoptions other (by simp [horder])
      simp_all
    simpa [Function.update_apply, hne] using h.options other ho

theorem order_evict (t : Tables) : t.evict.order = t.order.drop 1 := by
  unfold Tables.evict
  split <;> simp_all

theorem options_evict (t : Tables) : t.evict.options = t.options := by
  unfold Tables.evict
  split <;> rfl

theorem iterate_evict (n : ℕ) (h : Linked t) (hoptions : ∀ p ∈ t.order.take n, t.options p = none) :
    Linked (Tables.evict^[n] t) := by
  induction n generalizing t with
  | zero => exact h
  | succ n ih =>
    rw [Function.iterate_succ_apply]
    refine ih (h.evict fun p hp => hoptions p ?_) fun p hp => ?_
    · exact List.take_subset_take_left _ (by omega) hp
    · rw [options_evict]
      refine hoptions p ?_
      rw [order_evict] at hp
      rw [Nat.add_comm, List.take_add]
      exact List.mem_append_right _ hp

theorem setOption (h : Linked t) {handle : TcpStreamHandle}
    (hstream : (t.streamKey handle).isSome) : Linked (t.setOption handle) := by
  refine { h with options := fun other ho => ?_ }
  by_cases heq : other = handle
  · exact heq ▸ hstream
  · exact h.options other (by simpa [Tables.setOption, Function.update_apply, heq] using ho)

end Linked

theorem linked_new (ip : Ipv4Address) : Linked (SocketRuntime.new ip : SocketRuntime ρ).tables := by
  constructor <;> simp [SocketRuntime.new, SocketRuntime.tables, view, Inverse]

variable [RttEstimator ρ]

/-! ### Runs -/

namespace SocketRuntime

/-- The finished streams a timer step evicts from the history. -/
def evicted (rt : SocketRuntime ρ) (now : ℕ) (order : List TcpConnectionKey) :
    List TcpStreamHandle :=
  (rt.afterReap now order).order.take
    ((rt.afterReap now order).order.length - maxClosedStreamHistory)

/-- The call gives out the next id. -/
def Allocates (rt : SocketRuntime ρ) (c : SocketCall) : Prop :=
  (rt.apply c).nextSocketId ≠ rt.nextSocketId

/-- What a call has to meet to leave the tables consistent: a handle it gives out is not in use, a
stream it releases has no connection, and no stream is dropped with its options still set. -/
def Orderly (rt : SocketRuntime ρ) (c : SocketCall) : Prop :=
  match c with
  | .udpBind _ => rt.Allocates c → (⟨rt.nextSocketId⟩ : UdpSocketHandle) ∉ rt.udpSockets
  | .tcpListen _ | .tcpListenAny _ =>
    rt.Allocates c → (⟨rt.nextSocketId⟩ : TcpListenerHandle) ∉ rt.tcpListeners
  | .tcpConnect _ | .tcpConnectFrom .. | .dispatchTcpSegment .. =>
    rt.Allocates c → (⟨rt.nextSocketId⟩ : TcpStreamHandle) ∉ rt.tcpStreams ∧
      (⟨rt.nextSocketId⟩ : TcpStreamHandle) ∉ rt.closedStreams
  | .tcpRelease handle => ∀ (key : TcpConnectionKey) (conn : TcpConnection ρ),
    rt.tcpConnections[key]? ≠ some (handle, conn)
  | .tcpListenerClose handle => ∀ entry, rt.tcpListeners[handle]? = some entry →
    ∀ pending ∈ entry.acceptQueue, pending ∉ rt.tcpOptions
  | .stepTimers now order => ∀ handle ∈ rt.evicted now order, handle ∉ rt.tcpOptions
  | _ => True

end SocketRuntime

open SocketRuntime

theorem options_afterReap (rt : SocketRuntime ρ) (now : ℕ) (order : List TcpConnectionKey) :
    (rt.afterReap now order).options = rt.tables.options := by
  have hreap : ∀ (t : Tables) (key : TcpConnectionKey), (t.reap key).options = t.options := by
    intro t key
    unfold Tables.reap
    split <;> rfl
  unfold afterReap
  generalize rt.tables = t
  induction rt.reaped now order generalizing t with
  | nil => rfl
  | cons key keys ih => rw [List.foldl_cons, ih, hreap]

theorem allocates_of_tables {t : Tables} (ht : (rt.apply c).tables = t)
    (hid : t.nextId = rt.nextSocketId + 1) : rt.Allocates c := by
  have hid : (rt.apply c).nextSocketId = rt.nextSocketId + 1 :=
    (congrArg Tables.nextId ht).trans hid
  simp [Allocates, hid]

theorem Linked.apply (h : Linked rt.tables) (ho : rt.Orderly c) : Linked (rt.apply c).tables := by
  have hchange := changes_apply rt c
  generalize ht : (rt.apply c).tables = t' at hchange
  cases hchange with
  | same => exact h
  | bound addr hfree =>
    exact h.bindUdp hfree (view_eq_none.mpr (ho (allocates_of_tables ht rfl)))
  | unbound haddr => exact h.unbindUdp haddr
  | listening _ hc hfree =>
    refine h.listening hfree (view_eq_none.mpr ?_)
    have halloc := allocates_of_tables ht rfl
    cases c <;> first | exact ho halloc | cases hc
  | @unlistened handle entry hentry =>
    have haddr : rt.tables.listenAddr handle = some entry.localAddr.port := by
      simp [tables, view, hentry]
    refine (h.unlisten haddr).foldl_abandon _ fun p hp => ?_
    exact view_eq_none.mpr (ho entry hentry p hp)
  | opened _ hc hfree =>
    have halloc := allocates_of_tables ht rfl
    have hfresh : (⟨rt.nextSocketId⟩ : TcpStreamHandle) ∉ rt.tcpStreams ∧
        (⟨rt.nextSocketId⟩ : TcpStreamHandle) ∉ rt.closedStreams := by
      cases c <;> first | exact ho halloc | cases hc
    exact h.openStream hfree (view_eq_none.mpr hfresh.1) (view_eq_none.mpr hfresh.2)
  | released handle =>
    refine h.release fun key hkey => ?_
    obtain ⟨⟨_, conn⟩, hconn, rfl⟩ := Option.map_eq_some_iff.mp hkey
    exact ho key conn hconn
  | aborted handle now => exact h.abort handle
  | optionSet _ hstream => exact h.setOption hstream
  | timers now order =>
    refine (h.foldl_reap _).iterate_evict _ fun p hp => ?_
    rw [← afterReap, options_afterReap]
    exact view_eq_none.mpr (ho p hp)

theorem order_iterate_evict (n : ℕ) (t : Tables) : (Tables.evict^[n] t).order = t.order.drop n := by
  induction n generalizing t with
  | zero => rfl
  | succ n ih => rw [Function.iterate_succ_apply, ih, Linked.order_evict,
    List.drop_drop, Nat.add_comm]

theorem order_foldl_abandon (queue : List TcpStreamHandle) (t : Tables) :
    (queue.foldl Tables.abandon t).order = t.order := by
  induction queue generalizing t with
  | nil => rfl
  | cons p queue ih =>
    rw [List.foldl_cons, ih]
    unfold Tables.abandon
    split <;> rfl

/-- The history never grows past its bound, whatever the calls. -/
theorem bounded_apply (rt : SocketRuntime ρ) (c : SocketCall)
    (h : rt.tables.order.length ≤ maxClosedStreamHistory) :
    (rt.apply c).tables.order.length ≤ maxClosedStreamHistory := by
  have hrelease : ∀ (t : Tables) (handle : TcpStreamHandle),
      (t.release handle).order.length ≤ t.order.length := fun t handle => List.length_filter_le _ _
  have hchange := changes_apply rt c
  generalize (rt.apply c).tables = t' at hchange
  cases hchange with
  | unlistened => rwa [order_foldl_abandon]
  | released handle => exact (hrelease _ handle).trans h
  | aborted handle now =>
    refine le_trans ?_ h
    unfold Tables.abort
    split <;> exact hrelease _ handle
  | timers now order =>
    rw [order_iterate_evict, List.length_drop]
    omega
  | _ => exact h

/-- Every call of the run is orderly in the state it is made in. -/
def SocketRuntime.OrderlyRun (rt : SocketRuntime ρ) : List SocketCall → Prop
  | [] => True
  | c :: rest => rt.Orderly c ∧ (rt.apply c).OrderlyRun rest

theorem linked_run {calls : List SocketCall} (hlinked : Linked rt.tables)
    (hbounded : rt.tables.order.length ≤ maxClosedStreamHistory) (h : rt.OrderlyRun calls) :
    ∀ done rest, calls = done ++ rest → Linked (rt.run done).tables ∧
      (rt.run done).tables.order.length ≤ maxClosedStreamHistory := by
  intro done
  induction done generalizing rt calls with
  | nil => exact fun _ _ => ⟨hlinked, hbounded⟩
  | cons c done ih =>
    rintro rest rfl
    exact ih (hlinked.apply h.1) (bounded_apply rt c hbounded) h.2 rest rfl

/-- A run whose calls are all orderly keeps the tables consistent in all its states. -/
theorem integrity_run (ip : Ipv4Address) (calls : List SocketCall)
    (h : (SocketRuntime.new ip : SocketRuntime ρ).OrderlyRun calls) :
    ∀ done rest, calls = done ++ rest →
      Integrity ((SocketRuntime.new ip : SocketRuntime ρ).run done) := by
  intro done rest heq
  obtain ⟨hlinked, hbounded⟩ := linked_run (linked_new ip) (Nat.zero_le _) h done rest heq
  exact hlinked.integrity hbounded

def dialed : TcpConnectionKey := ⟨⟨⟨10, 0, 0, 1⟩, 40000⟩, ⟨⟨10, 0, 0, 2⟩, 80⟩⟩

/-- A connection is dialled, gets an option and is aborted. -/
def abortedDial : List SocketCall :=
  [.tcpConnectFrom dialed.localAddr dialed.remoteAddr 1, .tcpSetNodelay ⟨1⟩ true,
    .udpBind ⟨.unspecified, 0⟩, .tcpAbort ⟨1⟩ 5, .stepTimers 10 []]

example : (((SocketRuntime.new ⟨10, 0, 0, 1⟩ : SocketRuntime JacobsonRtt).run
    (abortedDial.take 1)).tcpConnections[dialed]?).map Prod.fst = some ⟨1⟩ := by decide +kernel

theorem integrity_abortedDial :
    (SocketRuntime.new ⟨10, 0, 0, 1⟩ : SocketRuntime JacobsonRtt).OrderlyRun abortedDial ∧
      Integrity
        ((SocketRuntime.new ⟨10, 0, 0, 1⟩ : SocketRuntime JacobsonRtt).run abortedDial) := by
  have h :
      (SocketRuntime.new ⟨10, 0, 0, 1⟩ : SocketRuntime JacobsonRtt).OrderlyRun abortedDial := by
    refine ⟨fun _ => ⟨by decide +kernel, by decide +kernel⟩, trivial, fun _ => by decide +kernel,
      trivial, ?_, trivial⟩
    intro handle hmem
    change handle ∈ ((SocketRuntime.new ⟨10, 0, 0, 1⟩ : SocketRuntime JacobsonRtt).run
      (abortedDial.take 4)).evicted 10 [] at hmem
    have hnone : ((SocketRuntime.new ⟨10, 0, 0, 1⟩ : SocketRuntime JacobsonRtt).run
        (abortedDial.take 4)).evicted 10 [] = [] := by decide +kernel
    rw [hnone] at hmem
    cases hmem
  exact ⟨h, integrity_run ⟨10, 0, 0, 1⟩ abortedDial h abortedDial [] (by simp)⟩

/-- The handle of a connection that is still open is released. -/
def releasedLive : List SocketCall :=
  [.tcpConnectFrom dialed.localAddr dialed.remoteAddr 1, .tcpRelease ⟨1⟩]

/-- The connection stays in the table, owned by a stream that no longer exists. -/
theorem not_integrity_releasedLive :
    ¬Integrity
      ((SocketRuntime.new ⟨10, 0, 0, 1⟩ : SocketRuntime JacobsonRtt).run releasedLive) := by
  intro h
  have howner : ((((SocketRuntime.new ⟨10, 0, 0, 1⟩ : SocketRuntime JacobsonRtt).run
      releasedLive).tcpConnections[dialed]?).map Prod.fst) = some ⟨1⟩ := by decide +kernel
  have hgone : (⟨1⟩ : TcpStreamHandle) ∉ ((SocketRuntime.new ⟨10, 0, 0, 1⟩ :
      SocketRuntime JacobsonRtt).run releasedLive).tcpStreams := by decide +kernel
  obtain ⟨⟨_, conn⟩, hconn, rfl⟩ := Option.map_eq_some_iff.mp howner
  obtain ⟨stream, hstream, -⟩ := h.connections dialed _ conn hconn
  rw [Std.TreeMap.getElem?_eq_none hgone] at hstream
  cases hstream

end ToyTcpip.Socket
