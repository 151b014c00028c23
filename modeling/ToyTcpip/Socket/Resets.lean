import ToyTcpip.Socket.Demux
import ToyTcpip.Tcp.Answers

/-! The three places that build a reset: the sockets, `TcpManager` and the frame path of the
stack. -/
namespace ToyTcpip.Socket

open ToyTcpip.Tcp

variable {ρ : Type}

/-- `TcpManager`: a listener is a port and its next initial sequence number. -/
structure TcpManager (ρ : Type) where
  listeners : Std.TreeMap (BitVec 16) SeqNum
  connections : Std.TreeMap TcpConnectionKey (TcpConnection ρ)
  currentTimeMs : ℕ

/-- The part of the stack a TCP segment is handed to. -/
structure TcpHost (ρ : Type) where
  sockets : SocketRuntime ρ
  tcpManager : TcpManager ρ
  currentTimeMs : ℕ

/-- A reset for a segment that is taken to occupy `occupied` sequence numbers. -/
def resetFor (seg : TcpSegment) (occupied : SeqNum) : TcpSegment :=
  { srcPort := seg.dstPort, dstPort := seg.srcPort
    seqNum := if seg.flags.ack then seg.ackNum else 0
    ackNum := seg.seqNum + occupied
    flags := { rst := true, ack := !seg.flags.ack }
    windowSize := 0, options := [], payload := [] }

/-- A SYN or a FIN counts once, and instead of the payload. -/
def flagOrPayload (seg : TcpSegment) : SeqNum :=
  if seg.flags.syn || seg.flags.fin then 1 else BitVec.ofNat 32 seg.payload.length

namespace TcpManager

def new : TcpManager ρ := ⟨∅, ∅, 0⟩

def listen (m : TcpManager ρ) (port : BitVec 16) : TcpManager ρ :=
  { m with listeners := m.listeners.insert port 1000 }

def hasEndpoint (m : TcpManager ρ) (localIp : Ipv4Address) (localPort : BitVec 16)
    (remoteIp : Ipv4Address) (remotePort : BitVec 16) : Bool :=
  m.connections.contains ⟨⟨localIp, localPort⟩, ⟨remoteIp, remotePort⟩⟩ ||
    m.listeners.contains localPort

def closedPortReset (seg : TcpSegment) : TcpSegment := resetFor seg (flagOrPayload seg)

variable [RttEstimator ρ]

/-- A SYN for a listening port. -/
def acceptSyn (m : TcpManager ρ) (key : TcpConnectionKey) (seg : TcpSegment) (now : ℕ)
    (isn : SeqNum) : TcpManager ρ × Option TcpSegment :=
  let (conn, resp) :=
    (TcpConnection.newServer key.localAddr key.remoteAddr isn).handleSegmentAt seg now
  ({ m with
     listeners := m.listeners.insert seg.dstPort (isn + 1000)
     connections := m.connections.insert key conn }, resp)

def processSegmentAt (m : TcpManager ρ) (srcIp dstIp : Ipv4Address) (seg : TcpSegment) (now : ℕ) :
    TcpManager ρ × Option TcpSegment :=
  let m := { m with currentTimeMs := now }
  let key := keyFor srcIp dstIp seg
  let refuse := (m, if seg.flags.rst then none else some (closedPortReset seg))
  match m.connections[key]? with
  | some conn =>
    let (conn, reply) := conn.handleSegmentAt seg now
    ({ m with connections := m.connections.insert key conn }, reply)
  | none =>
    match m.listeners[seg.dstPort]? with
    | some isn => if seg.flags.syn then m.acceptSyn key seg now isn else refuse
    | none => refuse

end TcpManager

namespace TcpHost

def portReset (seg : TcpSegment) : TcpSegment := resetFor seg (flagOrPayload seg)

variable [RttEstimator ρ]

/-- `process_frame`, from the parsed segment on. -/
def receiveTcp (s : TcpHost ρ) (srcIp dstIp : Ipv4Address) (seg : TcpSegment) :
    TcpHost ρ × List TcpSegment :=
  if s.sockets.hasEndpoint dstIp seg.dstPort srcIp seg.srcPort then
    let (sockets, out) := s.sockets.dispatchTcpSegment srcIp dstIp seg s.currentTimeMs
    ({ s with sockets }, out)
  else if s.tcpManager.hasEndpoint dstIp seg.dstPort srcIp seg.srcPort then
    let (tcpManager, reply) := s.tcpManager.processSegmentAt srcIp dstIp seg s.currentTimeMs
    ({ s with tcpManager }, reply.toList)
  else (s, if seg.flags.rst then [] else [portReset seg])

/-- The resets that a segment gets, whichever of the three it is handed to. -/
def resets (s : TcpHost ρ) (srcIp dstIp : Ipv4Address) (seg : TcpSegment) : List TcpSegment :=
  ((s.sockets.dispatchTcpSegment srcIp dstIp seg s.currentTimeMs).2 ++
    (s.tcpManager.processSegmentAt srcIp dstIp seg s.currentTimeMs).2.toList ++
    (s.receiveTcp srcIp dstIp seg).2).filter fun r => r.flags.rst

/-- No connection has the 4-tuple of the segment. -/
def Unmatched (s : TcpHost ρ) (srcIp dstIp : Ipv4Address) (seg : TcpSegment) : Prop :=
  s.sockets.tcpConnections[keyFor srcIp dstIp seg]? = none ∧
    s.tcpManager.connections[keyFor srcIp dstIp seg]? = none

end TcpHost

/-- The numbers of a reset: the acknowledgement it answers as its sequence number, or else an
acknowledgement of everything the segment occupies. -/
def FollowsRule (seg r : TcpSegment) : Prop :=
  if seg.flags.ack then r.seqNum = seg.ackNum ∧ r.flags.ack = false
  else r.seqNum = 0 ∧ r.flags.ack = true ∧ r.ackNum = seg.seqNum + BitVec.ofNat 32 seg.span

/-- The segment carries no SYN and no FIN, or one of them and nothing else (modulo the sequence
space). -/
def CountedOnce (seg : TcpSegment) : Prop :=
  (seg.flags.syn = false ∧ seg.flags.fin = false) ∨ BitVec.ofNat 32 seg.span = 1

theorem buildReset_eq (seg : TcpSegment) :
    SocketRuntime.buildReset seg = resetFor seg (BitVec.ofNat 32 seg.span) := by
  have hone : ∀ b : Bool, (if b then 1 else 0 : SeqNum) = BitVec.ofNat 32 (if b then 1 else 0) := by
    intro b
    cases b <;> rfl
  unfold SocketRuntime.buildReset resetFor TcpSegment.span
  rw [hone, hone, BitVec.ofNat_add, BitVec.ofNat_add]
  congr 1
  ac_rfl

theorem flagOrPayload_eq_iff (seg : TcpSegment) :
    flagOrPayload seg = BitVec.ofNat 32 seg.span ↔ CountedOnce seg := by
  unfold flagOrPayload CountedOnce
  cases hsyn : seg.flags.syn <;> cases hfin : seg.flags.fin
  · simp [TcpSegment.span, hsyn, hfin]
  all_goals simp [eq_comm]

theorem resetFor_followsRule {seg : TcpSegment} {occupied : SeqNum} :
    FollowsRule seg (resetFor seg occupied) ↔
      seg.flags.ack = true ∨ occupied = BitVec.ofNat 32 seg.span := by
  unfold FollowsRule resetFor
  cases hack : seg.flags.ack with
  | true => simp
  | false => simp

section resets

variable [RttEstimator ρ] {s : TcpHost ρ} {srcIp dstIp : Ipv4Address} {seg r : TcpSegment}

theorem refused_reset {build : TcpSegment → TcpSegment}
    (h : r ∈ if seg.flags.rst then [] else [build seg]) :
    seg.flags.rst = false ∧ r = build seg := by
  cases hrst : seg.flags.rst with
  | true => simp [hrst] at h
  | false => exact ⟨rfl, by simpa [hrst] using h⟩

theorem dispatch_reset {rt : SocketRuntime ρ}
    (h : rt.tcpConnections[keyFor srcIp dstIp seg]? = none) {now : ℕ}
    (hr : r ∈ (rt.dispatchTcpSegment srcIp dstIp seg now).2) (hrst : r.flags.rst = true) :
    seg.flags.rst = false ∧ r = SocketRuntime.buildReset seg := by
  rw [dispatch_of_none h] at hr
  split at hr
  · split at hr
    · -- What a listener answers is no reset.
      unfold SocketRuntime.acceptSyn at hr
      split at hr
      · simp at hr
      · split at hr
        · simp at hr
        · rw [Option.mem_toList] at hr
          rw [reply_of_listening rfl hr] at hrst
          cases hrst
    · exact refused_reset hr
  · exact refused_reset hr

theorem process_reset {m : TcpManager ρ} (h : m.connections[keyFor srcIp dstIp seg]? = none)
    {now : ℕ} (hr : r ∈ (m.processSegmentAt srcIp dstIp seg now).2) (hrst : r.flags.rst = true) :
    seg.flags.rst = false ∧ r = TcpManager.closedPortReset seg := by
  have hrefused : ∀ o : Option TcpSegment, r ∈ o →
      o = (if seg.flags.rst then none else some (TcpManager.closedPortReset seg)) →
      seg.flags.rst = false ∧ r = TcpManager.closedPortReset seg := by
    rintro o ho rfl
    refine refused_reset ?_
    cases hs : seg.flags.rst <;> simp_all
  simp only [TcpManager.processSegmentAt, h] at hr
  split at hr
  · split at hr
    · unfold TcpManager.acceptSyn at hr
      rw [reply_of_listening rfl hr] at hrst
      cases hrst
    · exact hrefused _ hr rfl
  · exact hrefused _ hr rfl

/-- A reset for a segment without a connection is one of two. -/
theorem mem_resets (h : s.Unmatched srcIp dstIp seg) (hr : r ∈ s.resets srcIp dstIp seg) :
    seg.flags.rst = false ∧
      (r = resetFor seg (BitVec.ofNat 32 seg.span) ∨ r = resetFor seg (flagOrPayload seg)) := by
  obtain ⟨hr, hrst⟩ := List.mem_filter.mp hr
  have hsockets : r ∈ (s.sockets.dispatchTcpSegment srcIp dstIp seg s.currentTimeMs).2 →
      seg.flags.rst = false ∧ (r = resetFor seg (BitVec.ofNat 32 seg.span) ∨
        r = resetFor seg (flagOrPayload seg)) := by
    intro hmem
    obtain ⟨hseg, heq⟩ := dispatch_reset h.1 hmem hrst
    exact ⟨hseg, .inl (heq.trans (buildReset_eq seg))⟩
  have hmanager : r ∈ (s.tcpManager.processSegmentAt srcIp dstIp seg s.currentTimeMs).2 →
      seg.flags.rst = false ∧ (r = resetFor seg (BitVec.ofNat 32 seg.span) ∨
        r = resetFor seg (flagOrPayload seg)) := by
    intro hmem
    obtain ⟨hseg, heq⟩ := process_reset h.2 hmem hrst
    exact ⟨hseg, .inr heq⟩
  rcases List.mem_append.mp hr with hr | hr
  · rcases List.mem_append.mp hr with hr | hr
    · exact hsockets hr
    · exact hmanager (Option.mem_toList.mp hr)
  · unfold TcpHost.receiveTcp at hr
    split at hr
    · exact hsockets hr
    · split at hr
      · exact hmanager (Option.mem_toList.mp hr)
      · obtain ⟨hseg, heq⟩ := refused_reset hr
        exact ⟨hseg, .inr heq⟩

/-- A host that nothing is open on. -/
def TcpHost.idle : TcpHost ρ := ⟨.new ⟨10, 0, 0, 1⟩, .new, 0⟩

omit [RttEstimator ρ] in
theorem idle_unmatched : (TcpHost.idle : TcpHost ρ).Unmatched srcIp dstIp seg := by
  simp [TcpHost.Unmatched, TcpHost.idle, SocketRuntime.new, TcpManager.new]

/-- On a host that nothing is open on, all three build a reset. -/
theorem idle_resets (hrst : seg.flags.rst = false) :
    (TcpHost.idle : TcpHost ρ).resets srcIp dstIp seg =
      [SocketRuntime.buildReset seg, TcpManager.closedPortReset seg, TcpHost.portReset seg] := by
  have hdispatch : ((TcpHost.idle : TcpHost ρ).sockets.dispatchTcpSegment srcIp dstIp seg 0).2 =
      [SocketRuntime.buildReset seg] := by
    rw [dispatch_of_none idle_unmatched.1]
    simp [TcpHost.idle, SocketRuntime.new, hrst]
  have hprocess : ((TcpHost.idle : TcpHost ρ).tcpManager.processSegmentAt srcIp dstIp seg 0).2 =
      some (TcpManager.closedPortReset seg) := by
    simp [TcpManager.processSegmentAt, TcpHost.idle, TcpManager.new, hrst]
  have hreceive : ((TcpHost.idle : TcpHost ρ).receiveTcp srcIp dstIp seg).2 =
      [TcpHost.portReset seg] := by
    simp [TcpHost.receiveTcp, TcpHost.idle, SocketRuntime.new, TcpManager.new, hrst,
      SocketRuntime.hasEndpoint, SocketRuntime.listenerOn, TcpManager.hasEndpoint]
  have hclock : (TcpHost.idle : TcpHost ρ).currentTimeMs = 0 := rfl
  rw [TcpHost.resets, hclock, hdispatch, hprocess, hreceive]
  rfl

end resets

/-- All resets that a segment without a connection can get have the same numbers, those of the
rule, exactly if it is a reset itself or occupies what a single flag or its payload does; where it
carries an acknowledgement they all follow the rule. -/
theorem resets_agree_iff {ρ : Type} [RttEstimator ρ] (srcIp dstIp : Ipv4Address)
    (seg : TcpSegment) :
    ((∀ s : TcpHost ρ, s.Unmatched srcIp dstIp seg → ∀ r ∈ s.resets srcIp dstIp seg,
        FollowsRule seg r ∧ ∀ r' ∈ s.resets srcIp dstIp seg,
          r.seqNum = r'.seqNum ∧ r.ackNum = r'.ackNum) ↔
      seg.flags.rst = true ∨ CountedOnce seg) ∧
    ((∀ s : TcpHost ρ, s.Unmatched srcIp dstIp seg → ∀ r ∈ s.resets srcIp dstIp seg,
        FollowsRule seg r) ↔
      seg.flags.rst = true ∨ seg.flags.ack = true ∨ CountedOnce seg) := by
  rw [← flagOrPayload_eq_iff]
  refine ⟨⟨fun h => ?_, ?_⟩, fun h => ?_, ?_⟩
  · cases hrst : seg.flags.rst with
    | true => exact .inl rfl
    | false =>
      have hidle := h .idle idle_unmatched
      simp only [idle_resets hrst] at hidle
      obtain ⟨-, hsame⟩ := hidle (SocketRuntime.buildReset seg) (by simp)
      have hack := (hsame (TcpManager.closedPortReset seg) (by simp)).2
      rw [buildReset_eq] at hack
      exact .inr (add_left_cancel hack).symm
  · rintro (hrst | honce) s hs r hr
    · rw [(mem_resets hs hr).1] at hrst
      cases hrst
    · have hone : ∀ r ∈ s.resets srcIp dstIp seg, r = resetFor seg (BitVec.ofNat 32 seg.span) := by
        intro r hr
        have heq := (mem_resets hs hr).2
        rw [honce, or_self] at heq
        exact heq
      refine ⟨?_, fun r' hr' => ?_⟩
      · rw [hone r hr]
        exact resetFor_followsRule.mpr (.inr rfl)
      · rw [hone r hr, hone r' hr']
        exact ⟨rfl, rfl⟩
  · cases hrst : seg.flags.rst with
    | true => exact .inl rfl
    | false =>
      have hidle := h .idle idle_unmatched
      simp only [idle_resets hrst] at hidle
      exact .inr (resetFor_followsRule.mp (hidle (TcpManager.closedPortReset seg) (by simp)))
  · rintro (hrst | hrule) s hs r hr
    · rw [(mem_resets hs hr).1] at hrst
      cases hrst
    · rcases (mem_resets hs hr).2 with rfl | rfl
      · exact resetFor_followsRule.mpr (.inr rfl)
      · exact resetFor_followsRule.mpr hrule

/-- A FIN with three bytes of data. -/
def finWithData : TcpSegment :=
  { srcPort := 40000, dstPort := 80, seqNum := 100, ackNum := 0, flags := { fin := true }
    windowSize := 1000, options := [], payload := [1, 2, 3] }

/-- The sockets acknowledge the FIN and its data, `TcpManager` and the stack one number. -/
theorem resets_differ_finWithData :
    (SocketRuntime.buildReset finWithData).ackNum = 104 ∧
      (TcpManager.closedPortReset finWithData).ackNum = 101 ∧
      (TcpHost.portReset finWithData).ackNum = 101 ∧
      ¬ (∀ s : TcpHost JacobsonRtt, s.Unmatched ⟨10, 0, 0, 2⟩ ⟨10, 0, 0, 1⟩ finWithData →
        ∀ r ∈ s.resets ⟨10, 0, 0, 2⟩ ⟨10, 0, 0, 1⟩ finWithData, FollowsRule finWithData r) := by
  refine ⟨by decide, by decide, by decide, fun h => ?_⟩
  have hidle := h .idle idle_unmatched
  simp only [idle_resets (show finWithData.flags.rst = false from rfl)] at hidle
  have hrule := hidle (TcpManager.closedPortReset finWithData) (by simp)
  exact absurd hrule.2.2 (by decide)

end ToyTcpip.Socket
