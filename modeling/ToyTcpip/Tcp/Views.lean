import ToyTcpip.Tcp.Machine

/-! Views of a connection, and which of them the small operations leave alone. -/
namespace ToyTcpip.Tcp

/-- What the receive path works on. -/
structure RecvView where
  rcvNxt : SeqNum
  rcvCapacity : ℕ
  rxBuffer : List UInt8
  oooSegments : List OooSegment
  oooQueue : Std.TreeMap SeqNum (List UInt8)
  finReceived : Bool
  bytesReceived : ℕ

/-- Receive window of a receive view. -/
def RecvView.window (v : RecvView) : ℕ := min (v.rcvCapacity - v.rxBuffer.length) 65535

/-- The part of a retransmission entry that goes on the wire. -/
structure SentRange where
  seqNum : SeqNum
  endSeq : SeqNum
  flags : TcpFlags
  payload : List UInt8

def RetransmitSegment.range (e : RetransmitSegment) : SentRange :=
  ⟨e.seqNum, e.endSeq, e.flags, e.payload⟩

/-- What the send path works on. Retransmission timers and SACK marks are left out. -/
structure SendView where
  sndUna : SeqNum
  sndNxt : SeqNum
  sndWnd : BitVec 16
  txBuffer : List UInt8
  finSent : Bool
  inFlight : BitVec 32
  queue : List SentRange

namespace SendView

/-- An acknowledgement up to `a`. -/
def ackTo (v : SendView) (a : SeqNum) : SendView :=
  { v with
    sndUna := a
    inFlight := if seqDiff a v.sndUna ≤ v.inFlight then v.inFlight - seqDiff a v.sndUna else 0
    queue := v.queue.filter fun r => !seqLe r.endSeq a }

/-- A transmission of `len` sequence numbers that is tracked for retransmission. -/
def push (v : SendView) (len : SeqNum) (flags : TcpFlags) (payload : List UInt8) : SendView :=
  { v with
    sndNxt := v.sndNxt + len
    inFlight := v.inFlight + len
    queue := v.queue ++ [⟨v.sndNxt, v.sndNxt + len, flags, payload⟩] }

/-- A transmission of the first `n` queued bytes. -/
def pushChunk (v : SendView) (n : ℕ) (flags : TcpFlags) : SendView :=
  { v.push (BitVec.ofNat 32 (v.txBuffer.take n).length) flags (v.txBuffer.take n) with
    txBuffer := v.txBuffer.drop n }

/-- The transmission of the FIN. -/
def pushFin (v : SendView) : SendView := { v.push 1 .finAck [] with finSent := true }

/-- A torn-down connection forgets what it has sent and what it had to send. -/
def tearDown (v : SendView) : SendView := { v with txBuffer := [], queue := [] }

end SendView

/-- The negotiated options. -/
structure OptView where
  sackPermitted : Bool
  peerSackPermitted : Bool
  tsEnabled : Bool

namespace TcpConnection

variable {ρ : Type}

def recv (c : TcpConnection ρ) : RecvView :=
  ⟨c.rcvNxt, c.rcvCapacity, c.rxBuffer, c.oooSegments, c.oooQueue, c.finReceived,
    c.stats.bytesReceived⟩

def send (c : TcpConnection ρ) : SendView :=
  ⟨c.sndUna, c.sndNxt, c.sndWnd, c.txBuffer, c.finSent, c.congestion.inFlight,
    c.retransmitQueue.map (·.range)⟩

def opts (c : TcpConnection ρ) : OptView :=
  ⟨c.sackPermitted, c.peerSackPermitted, c.tsEnabled⟩

theorem currentRcvWnd_toNat (c : TcpConnection ρ) : c.currentRcvWnd.toNat = c.recv.window := by
  simp only [currentRcvWnd, RecvView.window, recv, BitVec.toNat_ofNat]
  omega

theorem currentRcvWnd_congr {c c' : TcpConnection ρ} (h : c'.recv = c.recv) :
    c'.currentRcvWnd = c.currentRcvWnd := by
  apply BitVec.eq_of_toNat_eq
  rw [currentRcvWnd_toNat, currentRcvWnd_toNat, h]

theorem rcvNxt_congr {c c' : TcpConnection ρ} (h : c'.recv = c.recv) : c'.rcvNxt = c.rcvNxt :=
  congrArg RecvView.rcvNxt h

theorem sndNxt_congr {c c' : TcpConnection ρ} (h : c'.send = c.send) : c'.sndNxt = c.sndNxt :=
  congrArg SendView.sndNxt h

theorem tsEnabled_congr {c c' : TcpConnection ρ} (h : c'.opts = c.opts) :
    c'.tsEnabled = c.tsEnabled :=
  congrArg OptView.tsEnabled h

theorem sackOptions_congr {c c' : TcpConnection ρ} (hr : c'.recv = c.recv)
    (ho : c'.opts = c.opts) : c'.sackOptions = c.sackOptions := by
  have hooo : c'.oooSegments = c.oooSegments := congrArg RecvView.oooSegments hr
  have hsack : c'.sackPermitted = c.sackPermitted := congrArg OptView.sackPermitted ho
  simp [sackOptions, buildSackBlocks, hooo, hsack]

theorem rstAcceptable_congr {c c' : TcpConnection ρ} (hs : c'.state = c.state)
    (hr : c'.recv = c.recv) (hv : c'.send = c.send) (seg : TcpSegment) :
    c'.rstAcceptable seg = c.rstAcceptable seg := by
  simp only [rstAcceptable, hs, sndNxt_congr hv, rcvNxt_congr hr, currentRcvWnd_congr hr]

theorem trimToWindow_congr {c c' : TcpConnection ρ} (h : c'.recv = c.recv) (seq : SeqNum)
    (payload : List UInt8) : c'.trimToWindow seq payload = c.trimToWindow seq payload := by
  have hr : c'.trimRight = c.trimRight := by
    funext e
    simp only [trimRight, rcvNxt_congr h, currentRcvWnd_congr h]
  simp only [trimToWindow, trimLeft, rcvNxt_congr h, hr]

theorem bufferOoo_recv (c : TcpConnection ρ) (e : OooSegment) :
    (c.bufferOoo e).recv = { c.recv with oooSegments := (c.bufferOoo e).oooSegments } := by
  unfold bufferOoo
  split
  · rfl
  · dsimp only
    split <;> rfl

theorem acceptData_congr {c c' : TcpConnection ρ} (h : c'.recv = c.recv) (seq : SeqNum)
    (payload : List UInt8) :
    (c'.acceptData seq payload).recv = (c.acceptData seq payload).recv := by
  have hn : c'.rcvNxt = c.rcvNxt := rcvNxt_congr h
  have hcap : c'.rcvCapacity = c.rcvCapacity := congrArg RecvView.rcvCapacity h
  have hrx : c'.rxBuffer = c.rxBuffer := congrArg RecvView.rxBuffer h
  have hooo : c'.oooSegments = c.oooSegments := congrArg RecvView.oooSegments h
  have hq : c'.oooQueue = c.oooQueue := congrArg RecvView.oooQueue h
  have hfin : c'.finReceived = c.finReceived := congrArg RecvView.finReceived h
  have hb : c'.stats.bytesReceived = c.stats.bytesReceived := congrArg RecvView.bytesReceived h
  unfold acceptData
  rw [trimToWindow_congr h]
  split
  · exact h
  · rename_i e _
    rw [hn]
    split
    · simp only [recv, syncLegacyOooView, acceptInOrder, drainOoo, hn, hcap, hrx, hooo, hfin, hb]
    · have hbuf : (c'.bufferOoo e).oooSegments = (c.bufferOoo e).oooSegments := by
        simp only [bufferOoo, hooo]
        split_ifs <;> simp_all
      have hsync : ∀ d : TcpConnection ρ, d.syncLegacyOooView.recv =
          { d.recv with oooQueue := d.oooSegments.foldl (fun m e => m.insert e.1 e.2) ∅ } :=
        fun d => rfl
      rw [hsync, hsync, bufferOoo_recv, bufferOoo_recv, hbuf, h]

end TcpConnection

/-- Every SACK mark of the second queue was already there in the first. -/
def MarksFrom {ρ : Type} (c c' : TcpConnection ρ) : Prop :=
  ∀ e' ∈ c'.retransmitQueue, e'.sacked = true →
    ∃ e ∈ c.retransmitQueue, e.sacked = true ∧ e.range = e'.range

theorem MarksFrom.refl {ρ : Type} (c : TcpConnection ρ) : MarksFrom c c :=
  fun e he hs => ⟨e, he, hs, rfl⟩

theorem MarksFrom.trans {ρ : Type} {c₁ c₂ c₃ : TcpConnection ρ} (h : MarksFrom c₁ c₂)
    (h' : MarksFrom c₂ c₃) : MarksFrom c₁ c₃ := by
  intro e he hs
  obtain ⟨e', he', hs', hr'⟩ := h' e he hs
  obtain ⟨e'', he'', hs'', hr''⟩ := h e' he' hs'
  exact ⟨e'', he'', hs'', hr''.trans hr'⟩

/-- The states and windows in which an acknowledgement can be due. -/
def TcpConnection.mayAdvertise {ρ : Type} (c : TcpConnection ρ) : Bool :=
  c.synchronized || c.lastAdvertisedWnd < c.localMss

/-- The connections differ at most in statistics, timers and acknowledgement bookkeeping. -/
structure SameViews {ρ : Type} (c c' : TcpConnection ρ) : Prop where
  state : c'.state = c.state
  recv : c'.recv = c.recv
  send : c'.send = c.send
  opts : c'.opts = c.opts
  marks : MarksFrom c c'
  mss : c'.localMss = c.localMss
  /-- Before synchronization no window is advertised, unless one was advertised as closed. -/
  advertised : c'.lastAdvertisedWnd = c.lastAdvertisedWnd ∨ c.mayAdvertise = true

theorem SameViews.refl {ρ : Type} (c : TcpConnection ρ) : SameViews c c :=
  ⟨rfl, rfl, rfl, rfl, .refl c, rfl, .inl rfl⟩

theorem mayAdvertise_congr {ρ : Type} {c c' : TcpConnection ρ} (hs : c'.state = c.state)
    (hm : c'.localMss = c.localMss) (ha : c'.lastAdvertisedWnd = c.lastAdvertisedWnd) :
    c'.mayAdvertise = c.mayAdvertise := by
  simp only [TcpConnection.mayAdvertise, TcpConnection.synchronized, hs, hm, ha]

theorem SameViews.trans {ρ : Type} {c₁ c₂ c₃ : TcpConnection ρ} (h : SameViews c₁ c₂)
    (h' : SameViews c₂ c₃) : SameViews c₁ c₃ :=
  ⟨h'.state.trans h.state, h'.recv.trans h.recv, h'.send.trans h.send, h'.opts.trans h.opts,
    h.marks.trans h'.marks, h'.mss.trans h.mss, by
      rcases h.advertised with ha | ha
      · rw [← ha, ← mayAdvertise_congr h.state h.mss ha]
        exact h'.advertised
      · exact .inr ha⟩

/-- A reply that carries no sequence space: what it says is read off the connection. -/
structure PureAck {ρ : Type} (c : TcpConnection ρ) (seg : TcpSegment) : Prop where
  flags : seg.flags = .ackOnly
  payload : seg.payload = []
  seqNum : seg.seqNum = c.sndNxt
  ackNum : seg.ackNum = c.rcvNxt
  window : seg.windowSize = c.currentRcvWnd
  options : seg.options = [] ∨ ∃ val ecr, seg.options =
    c.sackOptions ++ if c.tsEnabled then [.timestamp val ecr] else []

/-- A repetition of a queued range. -/
structure Resent {ρ : Type} (c : TcpConnection ρ) (seg : TcpSegment) (r : SentRange) : Prop where
  mem : r ∈ c.send.queue
  flags : seg.flags = r.flags
  payload : seg.payload = r.payload
  seqNum : seg.seqNum = r.seqNum
  ackNum : seg.ackNum = c.rcvNxt
  window : seg.windowSize = c.currentRcvWnd
  options : ∃ mss val ecr, seg.options =
    if r.flags.syn then [.mss mss] ++ if c.sackPermitted then [.sackPermitted] else []
    else c.sackOptions ++ if c.tsEnabled then [.timestamp val ecr] else []

theorem PureAck.congr {ρ : Type} {c c' : TcpConnection ρ} {seg : TcpSegment}
    (h : PureAck c seg) (hr : c'.recv = c.recv) (hs : c'.send = c.send) (ho : c'.opts = c.opts) :
    PureAck c' seg := by
  refine ⟨h.flags, h.payload, ?_, ?_, ?_, ?_⟩
  · rw [h.seqNum, TcpConnection.sndNxt_congr hs]
  · rw [h.ackNum, TcpConnection.rcvNxt_congr hr]
  · rw [h.window, TcpConnection.currentRcvWnd_congr hr]
  · rw [TcpConnection.sackOptions_congr hr ho, TcpConnection.tsEnabled_congr ho]
    exact h.options

theorem Resent.congr {ρ : Type} {c c' : TcpConnection ρ} {seg : TcpSegment} {r : SentRange}
    (h : Resent c seg r) (hr : c'.recv = c.recv) (hs : c'.send = c.send) (ho : c'.opts = c.opts) :
    Resent c' seg r := by
  refine ⟨hs ▸ h.mem, h.flags, h.payload, h.seqNum, ?_, ?_, ?_⟩
  · rw [h.ackNum, TcpConnection.rcvNxt_congr hr]
  · rw [h.window, TcpConnection.currentRcvWnd_congr hr]
  · have hsack : c'.sackPermitted = c.sackPermitted := congrArg OptView.sackPermitted ho
    rw [TcpConnection.sackOptions_congr hr ho, TcpConnection.tsEnabled_congr ho, hsack]
    exact h.options

namespace TcpConnection

variable {ρ : Type}

theorem buildAck_sameViews {c : TcpConnection ρ} (h : c.mayAdvertise = true) :
    SameViews c c.buildAck.1 :=
  ⟨rfl, rfl, rfl, rfl, .refl c, rfl, .inr h⟩

theorem buildAck_pureAck (c : TcpConnection ρ) : PureAck c.buildAck.1 c.buildAck.2 :=
  ⟨rfl, rfl, rfl, rfl, rfl, .inr ⟨_, _, rfl⟩⟩

theorem plainReply_sameViews (c : TcpConnection ρ) (f : TcpFlags) :
    SameViews c (c.plainReply f).1 :=
  ⟨rfl, rfl, rfl, rfl, .refl c, rfl, .inl rfl⟩

theorem plainReply_pureAck (c : TcpConnection ρ) :
    ∀ seg ∈ (c.plainReply .ackOnly).2, PureAck (c.plainReply .ackOnly).1 seg := by
  intro seg hseg
  obtain rfl := Option.some.inj hseg
  exact ⟨rfl, rfl, rfl, rfl, rfl, .inl rfl⟩

theorem touchOldest_spec {now : ℕ} {q q' : List RetransmitSegment} {e : RetransmitSegment}
    (h : touchOldest now q = some (e, q')) :
    e ∈ q ∧ q'.map (·.range) = q.map (·.range) ∧
      ∀ x ∈ q', x.sacked = true → ∃ y ∈ q, y.sacked = true ∧ y.range = x.range := by
  induction q generalizing q' with
  | nil => simp [touchOldest] at h
  | cons y rest ih =>
    simp only [touchOldest] at h
    split_ifs at h with hs
    · obtain ⟨⟨z, r⟩, hz, heq⟩ := Option.map_eq_some_iff.mp h
      simp only [Prod.mk.injEq] at heq
      obtain ⟨rfl, rfl⟩ := heq
      obtain ⟨hm, hr, hk⟩ := ih hz
      refine ⟨List.mem_cons_of_mem _ hm, by simp [hr], ?_⟩
      intro x hx hxs
      rcases List.mem_cons.mp hx with rfl | hx
      · exact ⟨x, List.mem_cons_self, hxs, rfl⟩
      · obtain ⟨w, hw, hws, hwr⟩ := hk x hx hxs
        exact ⟨w, List.mem_cons_of_mem _ hw, hws, hwr⟩
    · simp only [Option.some.injEq, Prod.mk.injEq] at h
      obtain ⟨rfl, rfl⟩ := h
      refine ⟨List.mem_cons_self, by simp [RetransmitSegment.range], ?_⟩
      intro x hx hxs
      rcases List.mem_cons.mp hx with rfl | hx
      · exact absurd hxs hs
      · exact ⟨x, List.mem_cons_of_mem _ hx, hxs, rfl⟩

/-- A retransmission changes nothing but timers, and repeats an entry of the queue. -/
theorem retransmitOldest_spec (c : TcpConnection ρ) (now : ℕ) (fast : Bool) :
    SameViews c (c.retransmitOldest now fast).1 ∧
    ∀ seg ∈ (c.retransmitOldest now fast).2,
      ∃ r, Resent (c.retransmitOldest now fast).1 seg r := by
  unfold retransmitOldest
  split
  · exact ⟨.refl c, by simp⟩
  · rename_i e q h
    obtain ⟨hm, hr, hk⟩ := touchOldest_spec h
    split
    · exact ⟨.refl c, by simp⟩
    · refine ⟨⟨rfl, rfl, by simp only [send, hr], rfl, hk, rfl, .inl rfl⟩, ?_⟩
      intro seg hseg
      obtain rfl := Option.some.inj hseg
      refine ⟨e.range, ?_, rfl, rfl, rfl, rfl, rfl, _, _, _, rfl⟩
      simp only [send, hr]
      exact List.mem_map_of_mem hm

variable [RttEstimator ρ]

theorem acknowledge_send (c : TcpConnection ρ) (a : SeqNum) (now : ℕ) :
    (c.acknowledge a now).send = c.send.ackTo a := by
  simp only [acknowledge, retireAcked, send, SendView.ackTo, CongestionControl.onAck_inFlight,
    CongestionControl.release]
  congr 1
  rw [List.filter_map]
  rfl

theorem acknowledge_marks (c : TcpConnection ρ) (a : SeqNum) (now : ℕ) :
    MarksFrom c (c.acknowledge a now) :=
  fun e he hs => ⟨e, List.mem_of_mem_filter he, hs, rfl⟩

omit [RttEstimator ρ] in
theorem trackForRetransmit_marks (c : TcpConnection ρ) (seq len : SeqNum) (flags : TcpFlags)
    (payload : List UInt8) (now : ℕ) :
    MarksFrom c (c.trackForRetransmit seq len flags payload now) := by
  intro e he hs
  rcases List.mem_append.mp he with he | he
  · exact ⟨e, he, hs, rfl⟩
  · obtain rfl := List.mem_singleton.mp he
    exact absurd hs (by simp)

end TcpConnection

end ToyTcpip.Tcp
