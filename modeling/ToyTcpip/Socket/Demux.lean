import ToyTcpip.Socket.Tables
import ToyTcpip.Tcp.Arrivals

/-! The two lookups of `socket.rs` that decide whom a TCP segment belongs to. -/
namespace ToyTcpip.Socket

open ToyTcpip.Tcp

variable {ρ : Type}

namespace SocketRuntime

/-- The listener of a port, if the port has one. -/
def listenerOn (rt : SocketRuntime ρ) (port : BitVec 16) : Option TcpListenerEntry :=
  rt.tcpListenerPorts[port]?.bind fun handle => rt.tcpListeners[handle]?

def hasEndpoint (rt : SocketRuntime ρ) (localIp : Ipv4Address) (localPort : BitVec 16)
    (remoteIp : Ipv4Address) (remotePort : BitVec 16) : Bool :=
  rt.tcpConnections.contains ⟨⟨localIp, localPort⟩, ⟨remoteIp, remotePort⟩⟩ ||
    (rt.listenerOn localPort).any fun l => l.localAddr.ip = localIp || l.localAddr.ip.isUnspecified

end SocketRuntime

/-- The 4-tuple of a segment as the receiver names it. -/
def keyFor (srcIp dstIp : Ipv4Address) (seg : TcpSegment) : TcpConnectionKey :=
  ⟨⟨dstIp, seg.dstPort⟩, ⟨srcIp, seg.srcPort⟩⟩

section Demux

variable [RttEstimator ρ] (rt : SocketRuntime ρ) (srcIp dstIp : Ipv4Address) (seg : TcpSegment)
  (now : ℕ)

/-- Some connection is new, or is not what it was. -/
def Touches : Prop :=
  ∃ key : TcpConnectionKey,
    ((rt.dispatchTcpSegment srcIp dstIp seg now).1.tcpConnections[key]?).isSome ∧
    (rt.dispatchTcpSegment srcIp dstIp seg now).1.tcpConnections[key]? ≠ rt.tcpConnections[key]?

/-- No connection answers, and a reset goes out. -/
def Resets : Prop :=
  rt.tcpConnections[keyFor srcIp dstIp seg]? = none ∧
    ∃ reply ∈ (rt.dispatchTcpSegment srcIp dstIp seg now).2, reply.flags.rst = true

/-- Both lookups give the same answer about a segment. -/
def Agrees : Prop :=
  (Touches rt srcIp dstIp seg now →
    rt.hasEndpoint dstIp seg.dstPort srcIp seg.srcPort = true) ∧
  (seg.flags.rst = false → Resets rt srcIp dstIp seg now →
    rt.hasEndpoint dstIp seg.dstPort srcIp seg.srcPort = false)

/-- A listener of the port, bound to this address or to any. -/
def BoundTo (l : TcpListenerEntry) (ip : Ipv4Address) : Prop :=
  l.localAddr.ip = ip ∨ l.localAddr.ip.isUnspecified = true

/-- A segment for a connection, or for a port whose listener has either no room for its SYN or the
address it is for; other segments find no listener with that address. -/
def Unambiguous : Prop :=
  (rt.tcpConnections[keyFor srcIp dstIp seg]?).isSome ∨
  ∀ l, rt.listenerOn seg.dstPort = some l →
    if seg.flags.syn ∧ !seg.flags.ack then l.backlog ≤ l.acceptQueue.length ∨ BoundTo l dstIp
    else seg.flags.rst = true ∨ ¬ BoundTo l dstIp

end Demux

variable {rt : SocketRuntime ρ} {srcIp dstIp : Ipv4Address} {seg : TcpSegment} {now : ℕ}

theorem hasEndpoint_of_connection (h : (rt.tcpConnections[keyFor srcIp dstIp seg]?).isSome) :
    rt.hasEndpoint dstIp seg.dstPort srcIp seg.srcPort = true := by
  unfold SocketRuntime.hasEndpoint
  rw [Std.TreeMap.contains_eq_isSome_getElem?]
  simp only [keyFor] at h
  rw [h, Bool.true_or]

theorem hasEndpoint_of_none (h : rt.tcpConnections[keyFor srcIp dstIp seg]? = none) :
    rt.hasEndpoint dstIp seg.dstPort srcIp seg.srcPort = true ↔
      ∃ l, rt.listenerOn seg.dstPort = some l ∧ BoundTo l dstIp := by
  unfold SocketRuntime.hasEndpoint
  rw [Std.TreeMap.contains_eq_isSome_getElem?]
  simp only [keyFor] at h
  rw [h]
  simp [Option.any_eq_true, BoundTo]

variable [RttEstimator ρ]

/-- A connection that only listens never answers with a reset. -/
theorem reply_of_listening {c : TcpConnection ρ} (hc : c.state = .listen) {reply : TcpSegment}
    (h : reply ∈ (c.handleSegmentAt seg now).2) : reply.flags.rst = false := by
  obtain ⟨c₁, hp, hr⟩ := c.handleSegmentAt_arrival seg now
  rw [← hp.state] at hc
  generalize (c.handleSegmentAt seg now).2 = out at h hr
  cases hr with
  | ignore => simp at h
  | answer live => simp [TcpConnection.synchronized, hc] at live
  | reset => simp at h
  | passiveOpen =>
    obtain rfl : _ = reply := by simpa using h
    rfl
  | activeOpen before | crossing before | handshake before | closeWait before =>
    simp [hc] at before
  | transfer before => rcases before with h | h | h <;> simp [hc] at h
  | finAcked => simp at h

/-- What becomes of a segment without a connection. -/
theorem dispatch_of_none (h : rt.tcpConnections[keyFor srcIp dstIp seg]? = none) :
    rt.dispatchTcpSegment srcIp dstIp seg now =
      if seg.flags.syn ∧ !seg.flags.ack then
        match rt.tcpListenerPorts[seg.dstPort]? with
        | some handle => { rt with currentTimeMs := now }.acceptSyn
          (keyFor srcIp dstIp seg) seg now handle
        | none => ({ rt with currentTimeMs := now }, if seg.flags.rst then
          [] else [SocketRuntime.buildReset seg])
      else ({ rt with currentTimeMs := now }, if seg.flags.rst then
          [] else [SocketRuntime.buildReset seg]) := by
  simp only [keyFor] at h
  simp only [SocketRuntime.dispatchTcpSegment, h]
  rfl

theorem not_touches (h : (rt.dispatchTcpSegment srcIp dstIp seg now).1.tcpConnections =
    rt.tcpConnections) : ¬ Touches rt srcIp dstIp seg now := by
  rintro ⟨key, -, hne⟩
  rw [h] at hne
  exact hne rfl

/-- A segment that is refused changes no connection, and is reset unless it is a reset. -/
theorem agrees_of_refused (h : rt.tcpConnections[keyFor srcIp dstIp seg]? = none)
    (hout : rt.dispatchTcpSegment srcIp dstIp seg now =
      ({ rt with currentTimeMs := now }, if seg.flags.rst then
        [] else [SocketRuntime.buildReset seg])) :
    Agrees rt srcIp dstIp seg now ↔
      ∀ l, rt.listenerOn seg.dstPort = some l → seg.flags.rst = true ∨ ¬ BoundTo l dstIp := by
  have hquiet : ¬ Touches rt srcIp dstIp seg now := not_touches (by rw [hout])
  have hends := hasEndpoint_of_none h
  have hreset : seg.flags.rst = false → Resets rt srcIp dstIp seg now := by
    intro hrst
    refine ⟨h, SocketRuntime.buildReset seg, ?_, rfl⟩
    rw [hout]
    simp [hrst]
  constructor
  · rintro ⟨-, hagree⟩ l hl
    cases hrst : seg.flags.rst with
    | true => exact .inl rfl
    | false =>
      refine .inr fun hbound => ?_
      have hno := hagree hrst (hreset hrst)
      rw [hends.mpr ⟨l, hl, hbound⟩] at hno
      cases hno
  · intro hall
    refine ⟨fun ht => absurd ht hquiet, fun hrst _ => ?_⟩
    rw [← Bool.not_eq_true, hends]
    rintro ⟨l, hl, hbound⟩
    rcases hall l hl with hr | hn
    · rw [hrst] at hr
      cases hr
    · exact hn hbound

/-- A SYN for a port with a listener is accepted whatever the address of the listener. -/
theorem agrees_of_syn (h : rt.tcpConnections[keyFor srcIp dstIp seg]? = none)
    {handle : TcpListenerHandle} (hport : rt.tcpListenerPorts[seg.dstPort]? = some handle)
    (hout : rt.dispatchTcpSegment srcIp dstIp seg now =
      { rt with currentTimeMs := now }.acceptSyn (keyFor srcIp dstIp seg) seg now handle) :
    Agrees rt srcIp dstIp seg now ↔
      ∀ l, rt.listenerOn seg.dstPort = some l → l.backlog ≤ l.acceptQueue.length ∨
      BoundTo l dstIp := by
  have hends := hasEndpoint_of_none h
  have hon : rt.listenerOn seg.dstPort = rt.tcpListeners[handle]? := by
    simp [SocketRuntime.listenerOn, hport]
  unfold SocketRuntime.acceptSyn at hout
  cases hl : rt.tcpListeners[handle]? with
  | none =>
    simp only [hl] at hout
    have hquiet : ¬ Touches rt srcIp dstIp seg now := not_touches (by rw [hout])
    have hsilent : ¬ Resets rt srcIp dstIp seg now := by
      rintro ⟨-, reply, hreply, -⟩
      simp [hout] at hreply
    simp [Agrees, hquiet, hsilent, hon, hl]
  | some l =>
    simp only [hl] at hout
    rw [hon, hl]
    by_cases hfull : l.acceptQueue.length ≥ l.backlog
    · rw [if_pos hfull] at hout
      have hquiet : ¬ Touches rt srcIp dstIp seg now := not_touches (by rw [hout])
      have hsilent : ¬ Resets rt srcIp dstIp seg now := by
        rintro ⟨-, reply, hreply, -⟩
        simp [hout] at hreply
      simp [Agrees, hquiet, hsilent, hfull]
    · rw [if_neg hfull] at hout
      have hsilent : ¬ Resets rt srcIp dstIp seg now := by
        rintro ⟨-, reply, hreply, hrst⟩
        rw [hout, Option.mem_toList] at hreply
        rw [reply_of_listening rfl hreply] at hrst
        cases hrst
      have htouch : Touches rt srcIp dstIp seg now := by
        refine ⟨keyFor srcIp dstIp seg, ?_⟩
        rw [h, hout]
        simp [SocketRuntime.openStream, SocketRuntime.nextId]
      have hbound : rt.hasEndpoint dstIp seg.dstPort srcIp seg.srcPort = true ↔
          BoundTo l dstIp := by
        rw [hends, hon, hl]
        simp
      simp only [Agrees, htouch, hsilent, forall_const, IsEmpty.forall_iff, implies_true, and_true,
        hbound, Option.some.injEq, forall_eq', show ¬ l.backlog ≤ l.acceptQueue.length from hfull,
        false_or]

/-- When `dispatch_tcp_segment` does what `has_endpoint` says. -/
theorem lookups_agree_iff (rt : SocketRuntime ρ) (srcIp dstIp : Ipv4Address) (seg : TcpSegment)
    (now : ℕ) : Agrees rt srcIp dstIp seg now ↔ Unambiguous rt srcIp dstIp seg := by
  unfold Unambiguous
  cases h : rt.tcpConnections[keyFor srcIp dstIp seg]? with
  | some e =>
    have hends := @hasEndpoint_of_connection _ rt srcIp dstIp seg (by rw [h]; rfl)
    have hsilent : ¬ Resets rt srcIp dstIp seg now := by
      rintro ⟨hnone, -⟩
      rw [h] at hnone
      cases hnone
    simp [Agrees, hends, hsilent]
  | none =>
    have hout := @dispatch_of_none _ rt srcIp dstIp seg now _ h
    simp only [Option.isSome_none, Bool.false_eq_true, false_or]
    by_cases hsyn : seg.flags.syn ∧ !seg.flags.ack
    · rw [if_pos hsyn] at hout
      simp only [hsyn, and_self, ↓reduceIte]
      cases hport : rt.tcpListenerPorts[seg.dstPort]? with
      | none =>
        simp only [hport] at hout
        rw [agrees_of_refused h hout]
        simp [SocketRuntime.listenerOn, hport]
      | some handle =>
        simp only [hport] at hout
        exact agrees_of_syn h hport hout
    · rw [if_neg hsyn] at hout
      simp only [hsyn, ↓reduceIte]
      exact agrees_of_refused h hout

/-- A host that listens on one of its addresses. -/
def boundListener : SocketRuntime JacobsonRtt :=
  ((SocketRuntime.new ⟨10, 0, 0, 1⟩ : SocketRuntime JacobsonRtt).tcpListen ⟨⟨10, 0, 0, 1⟩, 80⟩).1

def toPort80 (flags : TcpFlags) : TcpSegment :=
  { srcPort := 40000, dstPort := 80, seqNum := 5, ackNum := 0, flags, windowSize := 1000
    options := [], payload := [] }

/-- A SYN for another address is accepted, and an ACK for the listener's own address is reset. -/
theorem listener_accepts_other_address :
    ¬ Agrees boundListener ⟨10, 0, 0, 9⟩ ⟨10, 0, 0, 2⟩ (toPort80 { syn := true }) 0 ∧
    boundListener.hasEndpoint ⟨10, 0, 0, 2⟩ 80 ⟨10, 0, 0, 9⟩ 40000 = false ∧
    (boundListener.dispatchTcpSegment ⟨10, 0, 0, 9⟩ ⟨10, 0, 0, 2⟩ (toPort80 { syn := true })
      0).1.tcpConnections.contains ⟨⟨⟨10, 0, 0, 2⟩, 80⟩, ⟨⟨10, 0, 0, 9⟩, 40000⟩⟩ = true ∧
    boundListener.hasEndpoint ⟨10, 0, 0, 1⟩ 80 ⟨10, 0, 0, 9⟩ 40000 = true ∧
    (boundListener.dispatchTcpSegment ⟨10, 0, 0, 9⟩ ⟨10, 0, 0, 1⟩ (toPort80 { ack := true })
      0).2.map (·.flags.rst) = [true] := by
  have hno : boundListener.hasEndpoint ⟨10, 0, 0, 2⟩ 80 ⟨10, 0, 0, 9⟩ 40000 = false := by
    decide +kernel
  have hnew : (boundListener.dispatchTcpSegment ⟨10, 0, 0, 9⟩ ⟨10, 0, 0, 2⟩
      (toPort80 { syn := true }) 0).1.tcpConnections.contains
        ⟨⟨⟨10, 0, 0, 2⟩, 80⟩, ⟨⟨10, 0, 0, 9⟩, 40000⟩⟩ = true := by decide +kernel
  refine ⟨fun h => ?_, hno, hnew, by decide +kernel, by decide +kernel⟩
  have hends := h.1 ⟨⟨⟨⟨10, 0, 0, 2⟩, 80⟩, ⟨⟨10, 0, 0, 9⟩, 40000⟩⟩, ?_, ?_⟩
  · exact absurd (hends.symm.trans hno) (by decide)
  · rwa [← Std.TreeMap.contains_eq_isSome_getElem?]
  · intro heq
    rw [Std.TreeMap.contains_eq_isSome_getElem?, heq] at hnew
    exact absurd hnew (by decide +kernel)

end ToyTcpip.Socket
