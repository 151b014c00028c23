import ToyTcpip.Socket.Integrity

/-! What the calls on a stream handle can see and change. -/
namespace ToyTcpip.Socket

open Tcp View SocketRuntime

variable {ρ : Type} {rt : SocketRuntime ρ} {t : Tables} {c : SocketCall}
  {handle : TcpStreamHandle} {past : List TcpStreamHandle}

/-! ### The connection created with a handle -/

inductive Held (ρ : Type) where
  | live (key : TcpConnectionKey) (conn : TcpConnection ρ)
  | finished (remains : Remains)
  | gone

namespace SocketRuntime

/-- The connection in the table that was created together with `handle`, wherever it stands. -/
def owned (rt : SocketRuntime ρ) (handle : TcpStreamHandle) :
    Option (TcpConnectionKey × TcpConnection ρ) :=
  rt.tcpConnections.toList.findSome? fun (key, owner, conn) =>
    if owner = handle then some (key, conn) else none

/-- What there is of the connection created with `handle`, for a handle that is still valid. -/
def held (rt : SocketRuntime ρ) (handle : TcpStreamHandle) : Option (Held ρ) :=
  if rt.tcpStreams.contains handle then
    match rt.owned handle with
    | some (key, conn) => some (.live key conn)
    | none => some ((rt.closedStreams[handle]?).elim .gone .finished)
  else none

end SocketRuntime

/-! ### What each call should answer, from that connection alone -/

def stateOf : Option (Held ρ) → Except SocketError TcpState
  | some (.live _ conn) => .ok conn.state
  | some (.finished remains) => .ok remains.state
  | some .gone | none => .error .invalidSocket

def readOf (len : ℕ) : Option (Held ρ) → Except SocketError (List UInt8)
  | some (.live _ conn) =>
    let (conn, bytes) := conn.read len
    if bytes ≠ [] then .ok bytes
    else if conn.aborted then .error .connectionReset
    else if conn.finReceived ∨ conn.state = .closed ∨ conn.state = .timeWait ∨
        conn.state = .lastAck ∨ conn.state = .closeWait then .ok []
    else .error .wouldBlock
  | some (.finished remains) => .ok (remains.residual.take (min len remains.residual.length))
  | some .gone | none => .error .invalidSocket

def writeOf (data : List UInt8) : Option (Held ρ) → Except SocketError ℕ
  | some (.live _ conn) =>
    if ¬(conn.state = .established ∨ conn.state = .closeWait) then .error .notConnected
    else if conn.closeRequested then .error .notConnected
    else if (conn.write data).2 = 0 ∧ data ≠ [] then .error .wouldBlock
    else .ok (conn.write data).2
  | _ => .error .invalidSocket

def closeOf : Option (Held ρ) → Except SocketError Unit
  | some (.live _ _) => .ok ()
  | some (.finished _) | some .gone => .error .notConnected
  | none => .error .invalidSocket

def toTx (key : TcpConnectionKey) (seg : TcpSegment) : SocketTx :=
  ⟨key.localAddr, key.remoteAddr, .tcp seg⟩

/-- What closing puts on the wire. -/
def closeSends (now : ℕ) : Option (Held ρ) → List SocketTx
  | some (.live key conn) => (conn.initiateCloseAt now).2.toList.map (toTx key)
  | _ => []

def abortSends [RttEstimator ρ] (now : ℕ) : Option (Held ρ) → List SocketTx
  | some (.live key conn) => (abortSegments key conn now).map (toTx key)
  | _ => []

/-- Nothing that belongs to another handle has changed. -/
structure Frame (handle : TcpStreamHandle) (rt rt' : SocketRuntime ρ) : Prop where
  connections : ∀ (key : TcpConnectionKey) (e : TcpStreamHandle × TcpConnection ρ), e.1 ≠ handle →
    (rt'.tcpConnections[key]? = some e ↔ rt.tcpConnections[key]? = some e)
  streams : ∀ h, h ≠ handle → rt'.tcpStreams[h]? = rt.tcpStreams[h]?
  closed : ∀ h, h ≠ handle → rt'.closedStreams[h]? = rt.closedStreams[h]?

/-- The calls on `handle` observe and change the connection created with it and no other; they
fail once it is gone. -/
structure Confined [RttEstimator ρ] (rt : SocketRuntime ρ) (handle : TcpStreamHandle) : Prop where
  state : rt.tcpState handle = stateOf (rt.held handle)
  read : ∀ len, (rt.tcpRead handle len).2 = readOf len (rt.held handle) ∧
    Frame handle rt (rt.tcpRead handle len).1 ∧ (rt.tcpRead handle len).1.tcpTx = rt.tcpTx
  write : ∀ data, (rt.tcpWrite handle data).2 = writeOf data (rt.held handle) ∧
    Frame handle rt (rt.tcpWrite handle data).1 ∧ (rt.tcpWrite handle data).1.tcpTx = rt.tcpTx
  close : (rt.tcpClose handle).2 = closeOf (rt.held handle) ∧
    Frame handle rt (rt.tcpClose handle).1 ∧
    (rt.tcpClose handle).1.tcpTx = rt.tcpTx ++ closeSends rt.currentTimeMs (rt.held handle)
  abort : ∀ now, Frame handle rt (rt.tcpAbort handle now) ∧
    (rt.tcpAbort handle now).tcpTx = rt.tcpTx ++ abortSends now (rt.held handle)

/-! ### Handles and 4-tuples apart -/

/-- Every 4-tuple a handle resolves to is free or holds that handle's own connection. -/
structure Apart (past : List TcpStreamHandle) (t : Tables) : Prop where
  issued : ∀ key h, t.owner key = some h → h ∈ past
  known : ∀ key h, t.streamKey h = some key → h ∈ past
  own : ∀ key h h', t.streamKey h = some key → t.owner key = some h' → h' = h
  single : ∀ key key' h, t.owner key = some h → t.owner key' = some h → key' = key
  same : ∀ key key' h, t.owner key = some h → t.streamKey h = some key' → key' = key

/-- A change that only takes entries away. -/
structure Shrinks (t t' : Tables) : Prop where
  owner : ∀ key h, t'.owner key = some h → t.owner key = some h
  streamKey : ∀ key h, t'.streamKey h = some key → t.streamKey h = some key

namespace Shrinks

theorem refl (t : Tables) : Shrinks t t := ⟨fun _ _ h => h, fun _ _ h => h⟩

theorem trans {t t' t'' : Tables} (h : Shrinks t t') (h' : Shrinks t' t'') : Shrinks t t'' :=
  ⟨fun key o ho => h.owner key o (h'.owner key o ho),
    fun key o ho => h.streamKey key o (h'.streamKey key o ho)⟩

theorem dropConnection (t : Tables) (key : TcpConnectionKey) :
    Shrinks t (t.dropConnection key) := by
  refine ⟨fun k h hk => ?_, fun _ _ hk => hk⟩
  simp only [Tables.dropConnection, Function.update_apply] at hk
  split at hk
  · cases hk
  · exact hk

theorem dropStream (t : Tables) (handle : TcpStreamHandle) :
    Shrinks t { t with streamKey := Function.update t.streamKey handle none } := by
  refine ⟨fun _ _ hk => hk, fun k h hk => ?_⟩
  simp only [Function.update_apply] at hk
  split at hk
  · cases hk
  · exact hk

theorem release (t : Tables) (handle : TcpStreamHandle) : Shrinks t (t.release handle) :=
  ⟨(dropStream t handle).owner, (dropStream t handle).streamKey⟩

theorem abort (t : Tables) (handle : TcpStreamHandle) : Shrinks t (t.abort handle) := by
  unfold Tables.abort
  split
  · exact (dropConnection t _).trans (release _ handle)
  · exact release t handle

theorem abandon (t : Tables) (handle : TcpStreamHandle) : Shrinks t (t.abandon handle) := by
  unfold Tables.abandon
  split
  · exact (dropConnection t _).trans (dropStream (t.dropConnection _) handle)
  · exact refl t

theorem reap (t : Tables) (key : TcpConnectionKey) : Shrinks t (t.reap key) := by
  unfold Tables.reap
  split
  · exact refl t
  · exact ⟨(dropConnection t key).owner, (dropConnection t key).streamKey⟩

theorem evict (t : Tables) : Shrinks t t.evict := by
  unfold Tables.evict
  split
  · exact refl t
  · rename_i old rest horder
    exact ⟨(dropStream t old).owner, (dropStream t old).streamKey⟩

theorem foldl {α : Type*} {f : Tables → α → Tables} (hf : ∀ t a, Shrinks t (f t a)) (l : List α)
    (t : Tables) : Shrinks t (l.foldl f t) := by
  induction l generalizing t with
  | nil => exact refl t
  | cons a l ih => exact (hf t a).trans (ih (f t a))

theorem iterate (n : ℕ) (t : Tables) : Shrinks t (Tables.evict^[n] t) := by
  induction n generalizing t with
  | zero => exact refl t
  | succ n ih =>
    rw [Function.iterate_succ_apply]
    exact (evict t).trans (ih t.evict)

end Shrinks

/-- A call opens a stream or only takes handles and connections away. -/
theorem opened_or_shrinks [RttEstimator ρ] (rt : SocketRuntime ρ) (c : SocketCall) :
    (∃ key, c.opens = true ∧ rt.tables.owner key = none ∧
      (rt.apply c).tables = rt.tables.openStream key) ∨ Shrinks rt.tables (rt.apply c).tables := by
  have hchange := changes_apply rt c
  generalize (rt.apply c).tables = t' at hchange
  cases hchange with
  | opened _ hc hfree => exact .inl ⟨_, hc, hfree, rfl⟩
  | @unlistened handle entry hentry =>
    have hunlisten : Shrinks rt.tables (rt.tables.unlisten handle entry.localAddr.port) :=
      ⟨fun _ _ h => h, fun _ _ h => h⟩
    exact .inr (hunlisten.trans (Shrinks.foldl Shrinks.abandon _ _))
  | released handle => exact .inr (Shrinks.release _ handle)
  | aborted handle now => exact .inr (Shrinks.abort _ handle)
  | timers now order =>
    exact .inr ((Shrinks.foldl Shrinks.reap _ _).trans (Shrinks.iterate _ _))
  | _ => exact .inr ⟨fun _ _ h => h, fun _ _ h => h⟩

theorem Apart.shrink {t' : Tables} (h : Apart past t) (hs : Shrinks t t') : Apart past t' where
  issued key o ho := h.issued key o (hs.owner key o ho)
  known key o ho := h.known key o (hs.streamKey key o ho)
  own key o o' hk ho := h.own key o o' (hs.streamKey key o hk) (hs.owner key o' ho)
  single key key' o ho ho' := h.single key key' o (hs.owner key o ho) (hs.owner key' o ho')
  same key key' o ho hk := h.same key key' o (hs.owner key o ho) (hs.streamKey key' o hk)

theorem Apart.openStream (h : Apart past t) {key : TcpConnectionKey}
    (hfresh : (⟨t.nextId⟩ : TcpStreamHandle) ∉ past) (hfree : t.owner key = none)
    (hnamed : ∀ o, t.streamKey o ≠ some key) : Apart (past ++ [⟨t.nextId⟩]) (t.openStream key) := by
  have howner : ∀ k o, (t.openStream key).owner k = some o →
      (k = key ∧ o = ⟨t.nextId⟩) ∨ (k ≠ key ∧ o ≠ ⟨t.nextId⟩ ∧ t.owner k = some o) := by
    intro k o ho
    simp only [Tables.openStream, Function.update_apply] at ho
    split at ho
    · cases ho
      exact .inl ⟨‹_›, rfl⟩
    · exact .inr ⟨‹_›, fun heq => hfresh (heq ▸ h.issued k o ho), ho⟩
  have hstream : ∀ k o, (t.openStream key).streamKey o = some k →
      (k = key ∧ o = ⟨t.nextId⟩) ∨ (k ≠ key ∧ o ≠ ⟨t.nextId⟩ ∧ t.streamKey o = some k) := by
    intro k o ho
    simp only [Tables.openStream, Function.update_apply] at ho
    split at ho
    · cases ho
      exact .inl ⟨rfl, ‹_›⟩
    · exact .inr ⟨fun heq => hnamed o (heq ▸ ho), ‹_›, ho⟩
  refine ⟨fun k o ho => ?_, fun k o ho => ?_, fun k o o' hk ho => ?_, fun k k' o ho ho' => ?_,
    fun k k' o ho hk => ?_⟩
  · rcases howner k o ho with ⟨-, rfl⟩ | ⟨-, -, ho⟩
    · simp
    · simp [h.issued k o ho]
  · rcases hstream k o ho with ⟨-, rfl⟩ | ⟨-, -, ho⟩
    · simp
    · simp [h.known k o ho]
  · rcases hstream k o hk with ⟨rfl, rfl⟩ | ⟨hne, -, hk⟩
    · rcases howner k o' ho with ⟨-, rfl⟩ | ⟨hne, -⟩
      · rfl
      · exact absurd rfl hne
    · rcases howner k o' ho with ⟨rfl, -⟩ | ⟨-, -, ho⟩
      · exact absurd rfl hne
      · exact h.own k o o' hk ho
  · rcases howner k o ho with ⟨rfl, rfl⟩ | ⟨-, hne, ho⟩
    · rcases howner k' _ ho' with ⟨rfl, -⟩ | ⟨-, hne, -⟩
      · rfl
      · exact absurd rfl hne
    · rcases howner k' o ho' with ⟨-, rfl⟩ | ⟨-, -, ho'⟩
      · exact absurd rfl hne
      · exact h.single k k' o ho ho'
  · rcases howner k o ho with ⟨rfl, rfl⟩ | ⟨-, hne, ho⟩
    · rcases hstream k' _ hk with ⟨rfl, -⟩ | ⟨-, hne, -⟩
      · rfl
      · exact absurd rfl hne
    · rcases hstream k' o hk with ⟨-, rfl⟩ | ⟨-, -, hk⟩
      · exact absurd rfl hne
      · exact h.same k k' o ho hk

/-! ### Confinement -/

theorem owned_eq_some (h : Apart past rt.tables) {key : TcpConnectionKey} {conn : TcpConnection ρ}
    (hconn : rt.tcpConnections[key]? = some (handle, conn)) :
    rt.owned handle = some (key, conn) := by
  have hmem := Std.TreeMap.mem_toList_iff_getElem?_eq_some.mpr hconn
  unfold owned
  rcases hfind : List.findSome? _ rt.tcpConnections.toList with _ | ⟨key', conn'⟩
  · have := List.findSome?_eq_none_iff.mp hfind _ hmem
    simp at this
  · obtain ⟨⟨k, o, c⟩, hk, heq⟩ := List.exists_of_findSome?_eq_some hfind
    dsimp only at heq
    split at heq
    · rename_i ho
      cases heq
      subst ho
      have hk := Std.TreeMap.mem_toList_iff_getElem?_eq_some.mp hk
      have : key' = key := h.single key key' o (by simp [tables, view, hconn])
        (by simp [tables, view, hk])
      subst this
      rw [hconn] at hk
      cases hk
      rfl
    · cases heq

theorem owned_eq_none (h : ∀ (key : TcpConnectionKey) (conn : TcpConnection ρ),
    rt.tcpConnections[key]? ≠ some (handle, conn)) : rt.owned handle = none := by
  unfold owned
  refine List.findSome?_eq_none_iff.mpr fun ⟨key, owner, conn⟩ hmem => ?_
  dsimp only
  split
  · rename_i ho
    exact absurd (ho ▸ Std.TreeMap.mem_toList_iff_getElem?_eq_some.mp hmem) (h key conn)
  · rfl

/-- The three things a handle can resolve to, and what it holds in each. -/
theorem Apart.resolve (h : Apart past rt.tables) (handle : TcpStreamHandle) :
    (rt.keyOf handle = .error .invalidSocket ∧ rt.held handle = none) ∨
    (∃ key conn, rt.keyOf handle = .ok key ∧ rt.tcpConnections[key]? = some (handle, conn) ∧
      rt.held handle = some (.live key conn)) ∨
    (∃ key, rt.keyOf handle = .ok key ∧ rt.tcpConnections[key]? = none ∧
      rt.held handle = some ((rt.closedStreams[handle]?).elim .gone .finished)) := by
  cases hstream : rt.tcpStreams[handle]? with
  | none => exact .inl ⟨by simp [keyOf, hstream], by simp_all [held]⟩
  | some stream =>
    have hkey : rt.keyOf handle = .ok stream.connectionKey := by simp [keyOf, hstream]
    have hmem : rt.tcpStreams.contains handle = true := by
      rw [← Std.TreeMap.isSome_getElem?_eq_contains, hstream]
      rfl
    cases hconn : rt.tcpConnections[stream.connectionKey]? with
    | none =>
      refine .inr (.inr ⟨_, hkey, hconn, ?_⟩)
      have hnone : rt.owned handle = none := by
        refine owned_eq_none fun key conn hother => ?_
        have : stream.connectionKey = key :=
          h.same key stream.connectionKey handle (by simp [tables, view, hother]) (keyOf_ok hkey)
        rw [this, hother] at hconn
        cases hconn
      simp [held, hmem, hnone]
    | some entry =>
      obtain ⟨owner, conn⟩ := entry
      have : owner = handle :=
        h.own stream.connectionKey handle owner (keyOf_ok hkey) (by simp [tables, view, hconn])
      subst this
      exact .inr (.inl ⟨_, conn, hkey, hconn, by simp [held, hmem, owned_eq_some h hconn]⟩)

theorem Frame.refl (handle : TcpStreamHandle) (rt : SocketRuntime ρ) : Frame handle rt rt :=
  ⟨fun _ _ _ => Iff.rfl, fun _ _ => rfl, fun _ _ => rfl⟩

theorem frame_setConnection {key : TcpConnectionKey} {conn : TcpConnection ρ}
    (h : rt.tcpConnections[key]? = some (handle, conn)) (conn' : TcpConnection ρ) :
    Frame handle rt (rt.setConnection key handle conn') := by
  refine ⟨fun k e he => ?_, fun _ _ => rfl, fun _ _ => rfl⟩
  simp only [setConnection, Std.TreeMap.getElem?_insert]
  split
  · rename_i heq
    rw [Std.LawfulEqOrd.compare_eq_iff_eq] at heq
    subst heq
    rw [h]
    constructor <;> rintro ⟨⟩ <;> exact absurd rfl he
  · rfl

theorem frame_tcpRelease (handle : TcpStreamHandle) (rt : SocketRuntime ρ) :
    Frame handle rt (rt.tcpRelease handle) := by
  refine ⟨fun _ _ _ => Iff.rfl, fun h hne => ?_, fun h hne => ?_⟩ <;>
    simp [tcpRelease, Std.TreeMap.getElem?_erase, Ne.symm hne]

theorem frame_eraseConnection {key : TcpConnectionKey} {conn : TcpConnection ρ}
    (h : rt.tcpConnections[key]? = some (handle, conn)) {tx : List SocketTx} :
    Frame handle rt { rt with tcpConnections := rt.tcpConnections.erase key, tcpTx := tx } := by
  refine ⟨fun k e he => ?_, fun _ _ => rfl, fun _ _ => rfl⟩
  simp only [Std.TreeMap.getElem?_erase]
  split
  · rename_i heq
    rw [Std.LawfulEqOrd.compare_eq_iff_eq] at heq
    subst heq
    rw [h]
    constructor
    · rintro ⟨⟩
    · rintro ⟨⟩
      exact absurd rfl he
  · rfl

theorem Frame.trans {rt' rt'' : SocketRuntime ρ} (h : Frame handle rt rt')
    (h' : Frame handle rt' rt'') : Frame handle rt rt'' :=
  ⟨fun key e he => (h'.connections key e he).trans (h.connections key e he),
    fun o ho => (h'.streams o ho).trans (h.streams o ho),
    fun o ho => (h'.closed o ho).trans (h.closed o ho)⟩

theorem frame_tcpTx {rt' : SocketRuntime ρ} (h : Frame handle rt rt') (tx : List SocketTx) :
    Frame handle rt { rt' with tcpTx := tx } :=
  ⟨h.connections, h.streams, h.closed⟩

variable [RttEstimator ρ]

theorem confined_of_invalid (hkey : rt.keyOf handle = .error .invalidSocket)
    (hheld : rt.held handle = none) : Confined rt handle := by
  refine ⟨?_, fun len => ?_, fun data => ?_, ?_, fun now => ?_⟩
  · simp [tcpState, hkey, hheld, stateOf]
  · simp [tcpRead, hkey, hheld, readOf, Frame.refl]
  · simp [tcpWrite, hkey, hheld, writeOf, Frame.refl]
  · simp [tcpClose, tcpShutdown, hkey, hheld, closeOf, closeSends, Frame.refl]
  · simp only [tcpAbort, hkey, hheld, abortSends]
    exact ⟨frame_tcpRelease handle rt, by simp [tcpRelease]⟩

theorem confined_of_live {key : TcpConnectionKey} {conn : TcpConnection ρ}
    (hkey : rt.keyOf handle = .ok key) (hconn : rt.tcpConnections[key]? = some (handle, conn))
    (hheld : rt.held handle = some (.live key conn)) : Confined rt handle := by
  refine ⟨?_, fun len => ?_, fun data => ?_, ?_, fun now => ?_⟩
  · simp [tcpState, hkey, hheld, hconn, stateOf]
  · have hframe := frame_setConnection hconn (conn.read len).1
    simp only [tcpRead, hkey, hconn, hheld, readOf]
    split_ifs <;> exact ⟨rfl, hframe, rfl⟩
  · have hframe := frame_setConnection hconn (conn.write data).1
    simp only [tcpWrite, hkey, hconn, hheld, writeOf]
    split_ifs <;> first | exact ⟨rfl, hframe, rfl⟩ | exact ⟨rfl, Frame.refl _ _, rfl⟩
  · have hframe := frame_setConnection hconn (conn.initiateCloseAt rt.currentTimeMs).1
    simp only [tcpClose, tcpShutdown, hkey, hconn, hheld, closeOf, closeSends, true_and]
    exact ⟨frame_tcpTx hframe _, rfl⟩
  · simp only [tcpAbort, hkey, hconn, hheld, abortSends]
    exact ⟨(frame_eraseConnection hconn).trans (frame_tcpRelease handle _), rfl⟩

theorem confined_of_reaped {key : TcpConnectionKey} (hkey : rt.keyOf handle = .ok key)
    (hnone : rt.tcpConnections[key]? = none)
    (hheld : rt.held handle = some ((rt.closedStreams[handle]?).elim .gone .finished)) :
    Confined rt handle := by
  have hsends : ∀ now, closeSends now (rt.held handle) = [] ∧
      abortSends now (rt.held handle) = [] := by
    intro now
    cases hclosed : rt.closedStreams[handle]? <;> simp [hheld, hclosed, closeSends, abortSends]
  refine ⟨?_, fun len => ?_, fun data => ?_, ?_, fun now => ?_⟩
  · cases hclosed : rt.closedStreams[handle]? <;>
      simp [tcpState, hkey, hheld, hnone, hclosed, stateOf]
  · cases hclosed : rt.closedStreams[handle]? with
    | none => simp [tcpRead, hkey, hheld, hnone, hclosed, readOf, Frame.refl]
    | some r =>
      simp only [tcpRead, hkey, hheld, hnone, hclosed, readOf, Option.elim_some, true_and, and_true]
      refine ⟨fun _ _ _ => Iff.rfl, fun _ _ => rfl, fun o ho => ?_⟩
      simp [Std.TreeMap.getElem?_insert, Ne.symm ho]
  · cases hclosed : rt.closedStreams[handle]? <;>
      simp [tcpWrite, hkey, hheld, hnone, hclosed, writeOf, Frame.refl]
  · rw [(hsends _).1]
    cases hclosed : rt.closedStreams[handle]? <;>
      simp [tcpClose, tcpShutdown, hkey, hheld, hnone, hclosed, closeOf, Frame.refl]
  · rw [(hsends _).2, tcpAbort, hkey]
    simp only [hnone]
    exact ⟨frame_tcpRelease handle rt, by simp [tcpRelease]⟩

theorem Apart.confined (h : Apart past rt.tables) (handle : TcpStreamHandle) :
    Confined rt handle := by
  rcases h.resolve handle with ⟨hkey, hheld⟩ | ⟨key, conn, hkey, hconn, hheld⟩ |
    ⟨key, hkey, hnone, hheld⟩
  · exact confined_of_invalid hkey hheld
  · exact confined_of_live hkey hconn hheld
  · exact confined_of_reaped hkey hnone hheld

/-! ### Runs -/

namespace SocketRuntime

/-- The handle a call creates a connection with. -/
def issues (rt : SocketRuntime ρ) (c : SocketCall) : List TcpStreamHandle :=
  if c.opens ∧ (rt.apply c).nextSocketId ≠ rt.nextSocketId then [⟨rt.nextSocketId⟩] else []

/-- All the handles a run creates connections with, in order. -/
def issuedIn (rt : SocketRuntime ρ) : List SocketCall → List TcpStreamHandle
  | [] => []
  | c :: rest => rt.issues c ++ (rt.apply c).issuedIn rest

/-- A call opens a connection with a handle never used before and on a 4-tuple that no stream
handle still names. -/
def Clean (past : List TcpStreamHandle) (rt : SocketRuntime ρ) (c : SocketCall) : Prop :=
  (∀ h ∈ rt.issues c, h ∉ past) ∧
    ∀ (key : TcpConnectionKey), key ∉ rt.tcpConnections → key ∈ (rt.apply c).tcpConnections →
      ∀ (h : TcpStreamHandle) (stream : TcpStreamEntry), rt.tcpStreams[h]? = some stream →
        stream.connectionKey ≠ key

def CleanRun (past : List TcpStreamHandle) (rt : SocketRuntime ρ) : List SocketCall → Prop
  | [] => True
  | c :: rest => Clean past rt c ∧ CleanRun (past ++ rt.issues c) (rt.apply c) rest

end SocketRuntime

theorem Apart.apply (h : Apart past rt.tables) (hc : Clean past rt c) :
    Apart (past ++ rt.issues c) (rt.apply c).tables := by
  rcases opened_or_shrinks rt c with ⟨key, hopens, hfree, heq⟩ | hshrinks
  · have hissues : rt.issues c = [⟨rt.nextSocketId⟩] :=
      if_pos ⟨hopens, allocates_of_tables heq rfl⟩
    have hkey : key ∈ (rt.apply c).tcpConnections := by
      have : (rt.apply c).tables.owner key = some ⟨rt.nextSocketId⟩ := by
        rw [heq]
        simp [Tables.openStream, tables]
      simp only [tables, view, Option.map_eq_some_iff] at this
      obtain ⟨e, he, -⟩ := this
      exact Std.TreeMap.mem_iff_isSome_getElem?.mpr (by simp [he])
    rw [heq, hissues]
    refine h.openStream (hc.1 _ (hissues ▸ List.mem_singleton.mpr rfl)) hfree fun o ho => ?_
    obtain ⟨stream, hstream, rfl⟩ := Option.map_eq_some_iff.mp ho
    exact hc.2 _ (view_eq_none.mp hfree) hkey o stream hstream rfl
  · have happ : ∀ o, o ∈ past → o ∈ past ++ rt.issues c := fun o ho => List.mem_append_left _ ho
    have h := h.shrink hshrinks
    exact { h with
      issued := fun key o ho => happ o (h.issued key o ho)
      known := fun key o ho => happ o (h.known key o ho) }

theorem apart_run {calls : List SocketCall} (h : Apart past rt.tables) (hpast : past.Nodup)
    (hc : CleanRun past rt calls) :
    ∀ done rest, calls = done ++ rest →
      Apart (past ++ rt.issuedIn done) (rt.run done).tables ∧ (past ++ rt.issuedIn done).Nodup := by
  intro done
  induction done generalizing rt past calls with
  | nil => simp [issuedIn, run, h, hpast]
  | cons c done ih =>
    rintro rest rfl
    have hnodup : (past ++ rt.issues c).Nodup := by
      refine List.nodup_append.mpr ⟨hpast, ?_, fun a ha b hb heq => ?_⟩
      · unfold issues
        split <;> simp
      · exact hc.1.1 b hb (heq ▸ ha)
    have := ih (h.apply hc.1) hnodup hc.2 rest rfl
    rw [List.append_assoc] at this
    exact this

/-- In a run that opens connections only with fresh handles and on 4-tuples no handle names, every
handle is given out once and the calls on it reach its own connection only. -/
theorem confined_run (ip : Ipv4Address) (calls : List SocketCall)
    (h : CleanRun [] (SocketRuntime.new ip : SocketRuntime ρ) calls) :
    ∀ done rest, calls = done ++ rest →
      ((SocketRuntime.new ip : SocketRuntime ρ).issuedIn done).Nodup ∧
        ∀ handle, Confined ((SocketRuntime.new ip : SocketRuntime ρ).run done) handle := by
  intro done rest heq
  have hstart : Apart [] (SocketRuntime.new ip : SocketRuntime ρ).tables := by
    constructor <;> simp [SocketRuntime.new, tables, view]
  obtain ⟨hapart, hnodup⟩ := apart_run hstart List.nodup_nil h done rest heq
  exact ⟨hnodup, hapart.confined⟩

/-- A call that adds no connection is clean, -/
theorem clean_of_keys {past : List TcpStreamHandle} {rt : SocketRuntime ρ} {c : SocketCall}
    (hfresh : ∀ h ∈ rt.issues c, h ∉ past)
    (hkeys : ((rt.apply c).tcpConnections.keys.all fun k => rt.tcpConnections.contains k) = true) :
    Clean past rt c := by
  refine ⟨hfresh, fun key hnew hkey => absurd ?_ hnew⟩
  rw [List.all_eq_true] at hkeys
  exact hkeys key (Std.TreeMap.mem_keys.mpr hkey)

/-- and one made while nobody holds a handle. -/
theorem clean_of_noStreams {past : List TcpStreamHandle} {rt : SocketRuntime ρ} {c : SocketCall}
    (hfresh : ∀ h ∈ rt.issues c, h ∉ past) (hnone : rt.tcpStreams.isEmpty = true) :
    Clean past rt c :=
  ⟨hfresh, fun _ _ _ h stream hstream => by simp [Std.TreeMap.getElem?_of_isEmpty hnone] at hstream⟩

/-- The peer refuses a connection. -/
def refusal : TcpSegment :=
  { srcPort := 80, dstPort := 40000, seqNum := 0, ackNum := 2,
    flags := { rst := true, ack := true }, windowSize := 0, options := [], payload := [] }

/-- A refused connection is reaped and its handle released, and its 4-tuple dialled again. -/
def releasedAndRedialed : List SocketCall :=
  [.tcpConnectFrom dialed.localAddr dialed.remoteAddr 1,
    .dispatchTcpSegment ⟨10, 0, 0, 2⟩ ⟨10, 0, 0, 1⟩ refusal 5, .stepTimers 6 [dialed],
    .tcpRelease ⟨1⟩, .tcpConnectFrom dialed.localAddr dialed.remoteAddr 9]

theorem confined_releasedAndRedialed :
    CleanRun [] (SocketRuntime.new ⟨10, 0, 0, 1⟩ : SocketRuntime JacobsonRtt) releasedAndRedialed ∧
      ((SocketRuntime.new ⟨10, 0, 0, 1⟩ : SocketRuntime JacobsonRtt).issuedIn
        releasedAndRedialed).Nodup ∧
      ∀ handle, Confined
        ((SocketRuntime.new ⟨10, 0, 0, 1⟩ : SocketRuntime JacobsonRtt).run releasedAndRedialed)
        handle := by
  have h : CleanRun [] (SocketRuntime.new ⟨10, 0, 0, 1⟩ : SocketRuntime JacobsonRtt)
      releasedAndRedialed := by
    refine ⟨clean_of_noStreams ?_ ?_, clean_of_keys ?_ ?_, clean_of_keys ?_ ?_,
      clean_of_keys ?_ ?_, clean_of_noStreams ?_ ?_, trivial⟩
    all_goals decide +kernel
  exact ⟨h, confined_run ⟨10, 0, 0, 1⟩ releasedAndRedialed h releasedAndRedialed [] (by simp)⟩

/-- A refused connection is reaped, and its 4-tuple dialled again while its handle is still held. -/
def redialed : List SocketCall :=
  [.tcpConnectFrom dialed.localAddr dialed.remoteAddr 1,
    .dispatchTcpSegment ⟨10, 0, 0, 2⟩ ⟨10, 0, 0, 1⟩ refusal 5, .stepTimers 6 [dialed],
    .tcpConnectFrom dialed.localAddr dialed.remoteAddr 9]

/-- The first handle reports the state of the second connection, and aborting it removes that
connection from the table. -/
theorem not_confined_redialed :
    ((SocketRuntime.new ⟨10, 0, 0, 1⟩ : SocketRuntime JacobsonRtt).run redialed).tcpState ⟨1⟩ =
        .ok .synSent ∧
      (((SocketRuntime.new ⟨10, 0, 0, 1⟩ : SocketRuntime JacobsonRtt).run
        redialed).tcpConnections[dialed]?).map Prod.fst = some ⟨2⟩ ∧
      dialed ∉ (((SocketRuntime.new ⟨10, 0, 0, 1⟩ : SocketRuntime JacobsonRtt).run
        redialed).tcpAbort ⟨1⟩ 7).tcpConnections ∧
      ¬Confined ((SocketRuntime.new ⟨10, 0, 0, 1⟩ : SocketRuntime JacobsonRtt).run redialed)
          ⟨1⟩ := by
  have hstate : ((SocketRuntime.new ⟨10, 0, 0, 1⟩ : SocketRuntime JacobsonRtt).run
      redialed).tcpState ⟨1⟩ = .ok .synSent := by decide +kernel
  have hheld : stateOf (((SocketRuntime.new ⟨10, 0, 0, 1⟩ : SocketRuntime JacobsonRtt).run
      redialed).held ⟨1⟩) = .ok .closed := by decide +kernel
  refine ⟨hstate, by decide +kernel, by decide +kernel, fun h => ?_⟩
  have := h.state
  rw [hstate, hheld] at this
  cases this

end ToyTcpip.Socket
