import ToyTcpip.Tcp.Reassembly
import ToyTcpip.Tcp.Runs

/-! What the segments a connection sends acknowledge, and what it takes from those it gets. -/
namespace ToyTcpip.Tcp

variable {ρ : Type} {c c' : TcpConnection ρ} {seg : TcpSegment} {out : List TcpSegment}
  {reply : Option TcpSegment}

/-- The acknowledgement and the window of a segment are the connection's own. -/
structure Advertises (c : TcpConnection ρ) (seg : TcpSegment) : Prop where
  ackNum : seg.ackNum = c.rcvNxt
  window : seg.windowSize = c.currentRcvWnd

theorem PureAck.advertises (h : PureAck c seg) : Advertises c seg := ⟨h.ackNum, h.window⟩

theorem Resent.advertises {r : SentRange} (h : Resent c seg r) : Advertises c seg :=
  ⟨h.ackNum, h.window⟩

theorem advertises_of_recv {v : RecvView} (hv : c'.recv = v) (hn : seg.ackNum = v.rcvNxt)
    (hcap : v.rcvCapacity = c.rcvCapacity) (hrx : v.rxBuffer = c.rxBuffer)
    (hw : seg.windowSize = c.currentRcvWnd) : Advertises c' seg := by
  have hcap' : c'.rcvCapacity = c.rcvCapacity := (congrArg RecvView.rcvCapacity hv).trans hcap
  have hrx' : c'.rxBuffer = c.rxBuffer := (congrArg RecvView.rxBuffer hv).trans hrx
  refine ⟨hn.trans (congrArg RecvView.rcvNxt hv).symm, ?_⟩
  simp only [hw, TcpConnection.currentRcvWnd, hcap', hrx']

/-- Whatever a connection sends advertises its receive window; with the ACK flag set it
is synchronized, or repeats an entry that had the flag. -/
theorem localStep_advertises (h : LocalStep c c' out) (hseg : seg ∈ out) :
    Advertises c' seg ∧ (seg.flags.ack = true → c.mayAdvertise = true ∨
      ∃ r ∈ c.send.queue, r.flags.ack = true) := by
  cases h with
  | quiet | expire => cases hseg
  | ack due same reply =>
    obtain rfl := List.mem_singleton.mp hseg
    exact ⟨reply.advertises, fun _ => .inl due⟩
  | resend same again =>
    obtain rfl := List.mem_singleton.mp hseg
    exact ⟨again.advertises, fun ha => .inr ⟨_, same.send ▸ again.mem, again.flags ▸ ha⟩⟩
  | chunk sending _ _ _ _ recv _ _ _ out =>
    obtain rfl := List.mem_singleton.mp hseg
    refine ⟨?_, fun _ => .inl ?_⟩
    · subst out
      exact advertises_of_recv recv rfl rfl rfl rfl
    · have hs : c.state = .established ∨ c.state = .closeWait := by
        simpa [TcpConnection.sending] using sending
      rcases hs with hs | hs <;> simp [TcpConnection.mayAdvertise, TcpConnection.synchronized, hs]
  | fin state _ _ recv _ _ _ out =>
    obtain rfl := List.mem_singleton.mp hseg
    refine ⟨?_, fun _ => .inl ?_⟩
    · subst out
      exact advertises_of_recv recv rfl rfl rfl rfl
    · rcases state with ⟨hs, -⟩ | ⟨hs, -⟩ <;>
        simp [TcpConnection.mayAdvertise, TcpConnection.synchronized, hs]

theorem localStep_recv (h : LocalStep c c' out) : c'.recv = c.recv := by
  cases h with
  | quiet same | ack _ same _ | resend same _ => exact same.recv
  | chunk _ _ _ _ _ recv | fin _ _ _ recv | expire _ _ recv => exact recv

theorem localStep_sndUna (h : LocalStep c c' out) : c'.sndUna = c.sndUna := by
  cases h with
  | quiet same | ack _ same _ | resend same _ => exact congrArg SendView.sndUna same.send
  | chunk _ _ _ _ _ _ _ send | fin _ _ _ _ _ send | expire _ _ _ _ send =>
    exact congrArg SendView.sndUna send

/-- Before synchronization a connection only repeats itself. -/
theorem localStep_unsynchronized (h : LocalStep c c' out) (hs : c.synchronized = false) :
    SameViews c c' := by
  cases h with
  | quiet same | ack _ same _ | resend same _ => exact same
  | chunk sending =>
    simp only [TcpConnection.sending, decide_eq_true_eq] at sending
    rcases sending with h | h <;> simp [TcpConnection.synchronized, h] at hs
  | fin state => rcases state with ⟨h, -⟩ | ⟨h, -⟩ <;> simp [TcpConnection.synchronized, h] at hs
  | expire before => simp [TcpConnection.synchronized, before] at hs

theorem arrival_advertises (h : Arrival c seg c' reply) :
    ∀ r ∈ reply, Advertises c' r ∧ (c.synchronized = true ∨ c'.synchronized = true) := by
  obtain ⟨c₁, hp, hr⟩ := h
  have hsync : c₁.synchronized = c.synchronized := by
    simp only [TcpConnection.synchronized, hp.state]
  rw [← hsync]
  cases hr with
  | ignore | reset | finAcked => simp
  | answer live same ack => simpa using ⟨ack.advertises, .inl live⟩
  | passiveOpen _ _ _ state recv =>
    intro r hr
    obtain rfl := Option.some.inj hr
    exact ⟨advertises_of_recv recv rfl rfl rfl rfl,
      .inr (by simp [TcpConnection.synchronized, state])⟩
  | activeOpen _ _ _ _ state _ _ _ _ reply =>
    simpa using ⟨reply.advertises, .inr (by simp [TcpConnection.synchronized, state])⟩
  | crossing _ _ _ state recv =>
    intro r hr
    obtain rfl := Option.some.inj hr
    exact ⟨advertises_of_recv recv rfl rfl rfl rfl,
      .inr (by simp [TcpConnection.synchronized, state])⟩
  | handshake _ _ _ state _ _ _ _ acks =>
    exact fun r hr => ⟨(acks r hr).advertises, .inr (by simp [TcpConnection.synchronized, state])⟩
  | transfer before _ _ _ _ _ acks =>
    intro r hr
    refine ⟨?_, .inl (by rcases before with hb | hb | hb <;> simp [TcpConnection.synchronized, hb])⟩
    rcases acks r hr with ha | ⟨-, q, ha⟩
    · exact ha.advertises
    · exact ha.advertises
  | closeWait before _ _ _ _ _ _ _ acks =>
    exact fun r hr => ⟨(acks r hr).advertises, .inl (by simp [TcpConnection.synchronized, before])⟩

theorem arrival_unsynchronized (h : Arrival c seg c' reply) (hrst : seg.flags.rst = false)
    (hs : c.synchronized = false) (hs' : c'.synchronized = false) :
    c'.send = c.send ∧ (c'.lastAdvertisedWnd = c.lastAdvertisedWnd ∨ c.mayAdvertise = true) := by
  obtain ⟨c₁, hp, hr⟩ := h
  have hsync : c₁.synchronized = false := by
    simpa only [TcpConnection.synchronized, hp.state] using hs
  have hmay : c₁.mayAdvertise = c.mayAdvertise := mayAdvertise_congr hp.state hp.mss hp.advertised
  cases hr with
  | ignore same =>
    exact ⟨same.send.trans hp.send, by rw [← hp.advertised, ← hmay]; exact same.advertised⟩
  | answer live => simp [hsync] at live
  | reset rst => simp [hrst] at rst
  | passiveOpen _ _ _ state | activeOpen _ _ _ _ state | crossing _ _ _ state
  | handshake _ _ _ state => simp [TcpConnection.synchronized, state] at hs'
  | transfer before =>
    rcases before with hb | hb | hb <;> simp [TcpConnection.synchronized, hb] at hsync
  | closeWait before => simp [TcpConnection.synchronized, before] at hsync
  | finAcked states =>
    rcases states with ⟨hb, -⟩ | ⟨hb, -⟩ <;> simp [TcpConnection.synchronized, hb] at hsync

/-- The lower edge of the send window only moves to an acknowledgement that came in. -/
theorem arrival_sndUna (h : Arrival c seg c' reply) :
    c'.sndUna = c.sndUna ∨ (seg.flags.ack = true ∧ c'.sndUna = seg.ackNum) := by
  obtain ⟨c₁, hp, hr⟩ := h
  have hu : c₁.sndUna = c.sndUna := congrArg SendView.sndUna hp.send
  rw [← hu]
  cases hr with
  | ignore same | answer _ same => exact .inl (congrArg SendView.sndUna same.send)
  | reset _ _ _ _ send | passiveOpen _ _ _ _ _ send | crossing _ _ _ _ _ send =>
    exact .inl (congrArg SendView.sndUna send)
  | activeOpen _ _ ack _ _ _ send | handshake _ ack _ _ _ send | closeWait _ ack _ _ _ send
  | finAcked _ ack _ _ send =>
    exact .inr ⟨ack, congrArg SendView.sndUna send⟩
  | transfer _ _ _ send =>
    generalize hv : c'.send = v at send
    have hv' : c'.sndUna = v.sndUna := congrArg SendView.sndUna hv
    rw [hv']
    cases send with
    | advance ack => exact .inr ⟨ack, rfl⟩
    | stale | absent => exact .inl rfl

theorem arrival_delivers (h : Arrival c seg c' reply) :
    c.rxBuffer <+: c'.rxBuffer ∧ (c.finReceived = true → c'.finReceived = true) := by
  obtain ⟨c₁, hp, hr⟩ := h
  have hrx : c₁.rxBuffer = c.rxBuffer := congrArg RecvView.rxBuffer hp.recv
  have hfin : c₁.finReceived = c.finReceived := congrArg RecvView.finReceived hp.recv
  rw [← hrx, ← hfin]
  have hsame : ∀ {v : RecvView}, c'.recv = v → v.rxBuffer = c₁.rxBuffer →
      v.finReceived = c₁.finReceived →
      c₁.rxBuffer <+: c'.rxBuffer ∧ (c₁.finReceived = true → c'.finReceived = true) := by
    intro v hv hx hf
    have hx' : c'.rxBuffer = c₁.rxBuffer := (congrArg RecvView.rxBuffer hv).trans hx
    have hf' : c'.finReceived = c₁.finReceived := (congrArg RecvView.finReceived hv).trans hf
    rw [hx', hf']
    exact ⟨List.prefix_rfl, id⟩
  cases hr with
  | ignore same | answer _ same => exact hsame same.recv rfl rfl
  | reset _ _ _ recv | passiveOpen _ _ _ _ recv | activeOpen _ _ _ _ _ recv
  | crossing _ _ _ _ recv | closeWait _ _ _ _ recv | finAcked _ _ _ recv =>
    exact hsame recv rfl rfl
  | handshake _ _ _ _ recv =>
    have hx : c'.rxBuffer = (c₁.acceptPayload seg).rxBuffer := congrArg RecvView.rxBuffer recv
    have hf : c'.finReceived = (c₁.acceptPayload seg).finReceived :=
      congrArg RecvView.finReceived recv
    rw [hx, hf, c₁.acceptPayload_finReceived]
    exact ⟨c₁.acceptPayload_rxBuffer seg, id⟩
  | transfer _ recv =>
    have hx : c'.rxBuffer = (c₁.acceptPayload seg).rxBuffer := by
      refine (congrArg RecvView.rxBuffer recv).trans ?_
      unfold RecvView.afterFin
      split <;> rfl
    have hf : c₁.finReceived = true → c'.finReceived = true := by
      intro hfr
      refine (congrArg RecvView.finReceived recv).trans ?_
      unfold RecvView.afterFin
      split
      · rfl
      · exact (c₁.acceptPayload_finReceived seg).trans hfr
    rw [hx]
    exact ⟨c₁.acceptPayload_rxBuffer seg, hf⟩

/-- What an arrival leaves in the out-of-order queue. -/
theorem arrival_oooSegments (arrival : Arrival c seg c' reply) :
    c'.oooSegments = c.oooSegments ∨ c'.oooSegments = [] ∨
      (taking c.state = true ∧ c'.oooSegments = (c.acceptPayload seg).oooSegments) := by
  obtain ⟨c₁, hp, hr⟩ := arrival
  have hooo : c₁.oooSegments = c.oooSegments := congrArg RecvView.oooSegments hp.recv
  have hacc : (c₁.acceptPayload seg).oooSegments = (c.acceptPayload seg).oooSegments :=
    congrArg RecvView.oooSegments (TcpConnection.acceptPayload_congr hp.recv seg)
  rw [← hooo, ← hacc, ← hp.state]
  cases hr with
  | ignore same | answer _ same => exact .inl (congrArg RecvView.oooSegments same.recv)
  | reset _ _ _ recv => exact .inr (.inl (congrArg RecvView.oooSegments recv))
  | passiveOpen _ _ _ _ recv | activeOpen _ _ _ _ _ recv | crossing _ _ _ _ recv
  | closeWait _ _ _ _ recv | finAcked _ _ _ recv =>
    exact .inl (congrArg RecvView.oooSegments recv)
  | handshake before _ _ _ recv =>
    exact .inr (.inr ⟨by simp [before, taking], congrArg RecvView.oooSegments recv⟩)
  | transfer before recv =>
    refine .inr (.inr ⟨by rcases before with hb | hb | hb <;> simp [hb, taking], ?_⟩)
    refine (congrArg RecvView.oooSegments recv).trans ?_
    unfold RecvView.afterFin
    split <;> rfl

/-! ### Options and states -/

namespace TcpConnection

/-- Whether SACK is permitted once the options of a segment are taken in. -/
def sackAfter (c : TcpConnection ρ) (seg : TcpSegment) : Bool := c.sackPermitted || seg.offersSack

/-- Whether timestamps are in use once the options of a segment are taken in. -/
def timestampsAfter (c : TcpConnection ρ) (seg : TcpSegment) : Bool :=
  if seg.flags.syn ∧ ¬ c.synchronized then seg.carriesTimestamp else c.tsEnabled

end TcpConnection

theorem arrival_opts (arrival : Arrival c seg c' reply) :
    c'.opts = ⟨c.sackAfter seg, c.peerSackPermitted || seg.offersSack, c.timestampsAfter seg⟩ := by
  obtain ⟨c₁, hp, hr⟩ := arrival
  have hopts : c'.opts = c₁.opts := by
    cases hr with
    | ignore same | answer _ same => exact same.opts
    | reset _ _ _ _ _ opts | passiveOpen _ _ _ _ _ _ opts | activeOpen _ _ _ _ _ _ _ opts
    | crossing _ _ _ _ _ _ opts | handshake _ _ _ _ _ _ opts | transfer _ _ _ _ opts
    | closeWait _ _ _ _ _ _ opts | finAcked _ _ _ _ _ opts => exact opts
  rw [hopts]
  simp only [TcpConnection.opts, hp.sack, hp.peerSack, hp.timestamps, TcpConnection.sackAfter,
    TcpConnection.timestampsAfter]

theorem localStep_opts (h : LocalStep c c' out) : c'.opts = c.opts := by
  cases h with
  | quiet same | ack _ same _ | resend same _ => exact same.opts
  | chunk _ _ _ _ _ _ opts | fin _ _ _ _ opts | expire _ _ _ opts => exact opts

/-- On its own a connection only moves on from synchronization. -/
theorem localStep_state (h : LocalStep c c' out) :
    c'.state = c.state ∨ (c.synchronized = true ∧
      (c'.synchronized = true ∨ c'.state = .closed)) := by
  cases h with
  | quiet same | ack _ same _ | resend same _ => exact .inl same.state
  | chunk _ _ _ _ state => exact .inl state
  | fin state =>
    rcases state with ⟨hb, ha⟩ | ⟨hb, ha⟩ <;> simp [TcpConnection.synchronized, hb, ha]
  | expire before after => simp [TcpConnection.synchronized, before, after]

/-- Only a SYN synchronizes a connection. -/
theorem arrival_state (arrival : Arrival c seg c' reply) :
    c'.state = c.state ∨ c'.state = .closed ∨
      (c'.synchronized = true ∧ c.state ≠ .closed ∧
        (c.synchronized = true ∨ seg.flags.syn = true)) := by
  obtain ⟨c₁, hp, hr⟩ := arrival
  have hsync : c₁.synchronized = c.synchronized := by
    simp only [TcpConnection.synchronized, hp.state]
  rw [← hsync, ← hp.state]
  cases hr with
  | ignore same | answer _ same => exact .inl same.state
  | reset _ _ state => exact .inr (.inl state)
  | passiveOpen _ before syn state | activeOpen before syn _ _ state
  | crossing before syn _ state =>
    simp [TcpConnection.synchronized, before, syn, state]
  | handshake before _ _ state => simp [TcpConnection.synchronized, before, state]
  | transfer before _ state =>
    refine .inr (.inr ⟨synchronized_transfer before state, ?_⟩)
    rcases before with hb | hb | hb <;> simp [TcpConnection.synchronized, hb]
  | closeWait before _ _ state => exact .inl (state.trans before.symm)
  | finAcked states =>
    rcases states with ⟨hb, ha⟩ | ⟨hb, ha⟩ <;> simp [TcpConnection.synchronized, hb, ha]

/-- A segment that leaves a connection listening has no effect on what it sends. -/
theorem arrival_listen (arrival : Arrival c seg c' reply) (hb : c.state = .listen)
    (ha : c'.state = .listen) : reply = none ∧ c'.send = c.send := by
  obtain ⟨c₁, hp, hr⟩ := arrival
  rw [← hp.state] at hb
  rw [← hp.send]
  cases hr with
  | ignore same => exact ⟨rfl, same.send⟩
  | answer live => simp [TcpConnection.synchronized, hb] at live
  | reset _ _ state | passiveOpen _ _ _ state | activeOpen _ _ _ _ state | crossing _ _ _ state
  | handshake _ _ _ state | closeWait _ _ _ state => simp [state] at ha
  | transfer before => rcases before with h | h | h <;> simp [hb] at h
  | finAcked states => rcases states with ⟨h, -⟩ | ⟨h, -⟩ <;> simp [hb] at h

end ToyTcpip.Tcp
