import ToyTcpip.Tcp.Views

/-! Everything an incoming segment can do to a connection, said once. -/
namespace ToyTcpip.Tcp

namespace TcpOption

def isSackPermitted : TcpOption → Bool
  | .sackPermitted => true
  | _ => false

def isTimestamp : TcpOption → Bool
  | .timestamp .. => true
  | _ => false

def sackRanges : TcpOption → List (SeqNum × SeqNum)
  | .sack blocks => blocks
  | _ => []

end TcpOption

namespace TcpSegment

def offersSack (seg : TcpSegment) : Bool := seg.options.any (·.isSackPermitted)

def carriesTimestamp (seg : TcpSegment) : Bool := seg.options.any (·.isTimestamp)

/-- The ranges a segment reports as received out of order. -/
def sackRanges (seg : TcpSegment) : List (SeqNum × SeqNum) := seg.options.flatMap (·.sackRanges)

end TcpSegment

/-- A queued entry lies inside a reported range. -/
def inRange (e : RetransmitSegment) (b : SeqNum × SeqNum) : Prop :=
  seqGe e.seqNum b.1 = true ∧ seqLe e.endSeq b.2 = true

/-- Marks of the second queue are old ones, or lie inside one of the ranges. -/
def MarksWithin {ρ : Type} (c c' : TcpConnection ρ) (ranges : List (SeqNum × SeqNum)) : Prop :=
  ∀ e' ∈ c'.retransmitQueue, e'.sacked = true →
    (∃ e ∈ c.retransmitQueue, e.sacked = true ∧ e.range = e'.range) ∨ ∃ b ∈ ranges, inRange e' b

theorem MarksWithin.trans {ρ : Type} {c₁ c₂ c₃ : TcpConnection ρ} {bs bs' : List (SeqNum × SeqNum)}
    (h : MarksWithin c₁ c₂ bs) (h' : MarksWithin c₂ c₃ bs') : MarksWithin c₁ c₃ (bs ++ bs') := by
  intro e he hs
  rcases h' e he hs with ⟨e', he', hs', hr'⟩ | ⟨b, hb, hin⟩
  · rcases h e' he' hs' with ⟨e'', he'', hs'', hr''⟩ | ⟨b, hb, hin⟩
    · exact .inl ⟨e'', he'', hs'', hr''.trans hr'⟩
    · refine .inr ⟨b, List.mem_append_left _ hb, ?_⟩
      have hseq : e'.seqNum = e.seqNum := congrArg SentRange.seqNum hr'
      have hend : e'.endSeq = e.endSeq := congrArg SentRange.endSeq hr'
      rwa [inRange, hseq, hend] at hin
  · exact .inr ⟨b, List.mem_append_right _ hb, hin⟩

theorem MarksWithin.trans_marksFrom {ρ : Type} {c₁ c₂ c₃ : TcpConnection ρ}
    {bs : List (SeqNum × SeqNum)} (h : MarksWithin c₁ c₂ bs) (h' : MarksFrom c₂ c₃) :
    MarksWithin c₁ c₃ bs := by
  have hm : MarksWithin c₂ c₃ [] := fun e he hs => .inl (h' e he hs)
  simpa using h.trans hm

/-- What the options of a segment do before the connection state is looked at. -/
structure Prologue {ρ : Type} (c : TcpConnection ρ) (seg : TcpSegment) (c' : TcpConnection ρ) :
    Prop where
  state : c'.state = c.state
  recv : c'.recv = c.recv
  send : c'.send = c.send
  sack : c'.sackPermitted = (c.sackPermitted || seg.offersSack)
  peerSack : c'.peerSackPermitted = (c.peerSackPermitted || seg.offersSack)
  timestamps : c'.tsEnabled =
    if seg.flags.syn ∧ ¬ c.synchronized then seg.carriesTimestamp else c.tsEnabled
  marks : MarksWithin c c' seg.sackRanges
  mss : c'.localMss = c.localMss
  advertised : c'.lastAdvertisedWnd = c.lastAdvertisedWnd

theorem Prologue.trans {ρ : Type} {c c₁ c₂ : TcpConnection ρ} {seg : TcpSegment}
    (h : Prologue c seg c₁) (h' : SameViews c₁ c₂)
    (ha : c₂.lastAdvertisedWnd = c₁.lastAdvertisedWnd) : Prologue c seg c₂ where
  state := h'.state.trans h.state
  recv := h'.recv.trans h.recv
  send := h'.send.trans h.send
  sack := (congrArg OptView.sackPermitted h'.opts).trans h.sack
  peerSack := (congrArg OptView.peerSackPermitted h'.opts).trans h.peerSack
  timestamps := (congrArg OptView.tsEnabled h'.opts).trans h.timestamps
  marks := h.marks.trans_marksFrom h'.marks
  mss := h'.mss.trans h.mss
  advertised := ha.trans h.advertised

/-- The states in which a payload or a FIN can still be taken. -/
def taking : TcpState → Bool
  | .synReceived | .established | .finWait1 | .finWait2 => true
  | _ => false

namespace TcpState

def onFin : TcpState → TcpState
  | .established => .closeWait
  | .finWait1 => .closing
  | .finWait2 => .timeWait
  | s => s

def onFinAcked : TcpState → TcpState
  | .finWait1 => .finWait2
  | .closing => .timeWait
  | s => s

end TcpState

namespace RecvView

/-- The FIN of a segment stands exactly at `rcv_nxt`. -/
def takesFin (v : RecvView) (seg : TcpSegment) : Bool :=
  seg.flags.fin ∧ seg.finSeq = v.rcvNxt ∧ ¬ v.finReceived

def afterFin (v : RecvView) (seg : TcpSegment) : RecvView :=
  if v.takesFin seg then { v with rcvNxt := v.rcvNxt + 1, finReceived := true } else v

def afterReset (v : RecvView) : RecvView := { v with oooSegments := [], oooQueue := ∅ }

def synced (v : RecvView) (seq : SeqNum) : RecvView := { v with rcvNxt := seq + 1 }

end RecvView

/-- The state of data transfer once the payload and the FIN of a segment are taken. -/
def TcpConnection.stateAfter {ρ : Type} (c : TcpConnection ρ) (seg : TcpSegment) : TcpState :=
  if (c.acceptPayload seg).recv.takesFin seg then c.state.onFin else c.state

/-- The send window a segment announces. -/
def SendView.withWnd (v : SendView) (wnd : BitVec 16) : SendView := { v with sndWnd := wnd }

/-- What the acknowledgement field of a segment does to the send side in data transfer. -/
inductive AckEffect {ρ : Type} (c : TcpConnection ρ) (seg : TcpSegment) : SendView → Prop where
  | advance (ack : seg.flags.ack = true) (new : c.ackAdvances seg = true) :
      AckEffect c seg ((c.send.withWnd seg.windowSize).ackTo seg.ackNum)
  | stale (ack : seg.flags.ack = true) (old : c.ackAdvances seg = false)
      (sent : seqGt seg.ackNum c.sndNxt = false) :
      AckEffect c seg (c.send.withWnd seg.windowSize)
  | absent (ack : seg.flags.ack = false) : AckEffect c seg c.send

/-- An acknowledgement moves the lower edge and the window; nothing new is sent. -/
theorem AckEffect.keeps {ρ : Type} {c : TcpConnection ρ} {seg : TcpSegment} {v : SendView}
    (h : AckEffect c seg v) : v.sndNxt = c.sndNxt ∧ v.txBuffer = c.txBuffer ∧
      v.finSent = c.finSent ∧ ∀ r ∈ v.queue, r ∈ c.send.queue := by
  cases h with
  | advance => exact ⟨rfl, rfl, rfl, fun _ hr => List.mem_of_mem_filter hr⟩
  | stale => exact ⟨rfl, rfl, rfl, fun _ hr => hr⟩
  | absent => exact ⟨rfl, rfl, rfl, fun _ hr => hr⟩

/-- What a connection past the prologue does with a segment. -/
inductive Reaction {ρ : Type} (c : TcpConnection ρ) (seg : TcpSegment) (c' : TcpConnection ρ) :
    Option TcpSegment → Prop where
  | ignore (same : SameViews c c') : Reaction c seg c' none
  | answer {r : TcpSegment} (live : c.synchronized = true) (same : SameViews c c')
      (reply : PureAck c' r) :
      Reaction c seg c' (some r)
  | reset (rst : seg.flags.rst = true) (ok : c.rstAcceptable seg = true)
      (state : c'.state = .closed) (recv : c'.recv = c.recv.afterReset)
      (send : c'.send = c.send.tearDown) (opts : c'.opts = c.opts) (marks : MarksFrom c c')
      (mss : c'.localMss = c.localMss) (advertised : c'.lastAdvertisedWnd = c.lastAdvertisedWnd) :
      Reaction c seg c' none
  | passiveOpen (now : ℕ) (before : c.state = .listen) (syn : seg.flags.syn = true)
      (state : c'.state = .synReceived) (recv : c'.recv = c.recv.synced seg.seqNum)
      (send : c'.send = (c.send.withWnd seg.windowSize).push 1 .synAck [])
      (opts : c'.opts = c.opts) (marks : MarksFrom c c') :
      Reaction c seg c' (some (c.segment c.sndNxt (seg.seqNum + 1) .synAck c.currentRcvWnd
        ([.mss c.localMss] ++ (if c.peerSackPermitted then [.sackPermitted] else []) ++
          c.timestampOptions now) []))
  | activeOpen {r : TcpSegment} (before : c.state = .synSent) (syn : seg.flags.syn = true)
      (ack : seg.flags.ack = true) (acked : seg.ackNum = c.sndNxt)
      (state : c'.state = .established) (recv : c'.recv = c.recv.synced seg.seqNum)
      (send : c'.send = (c.send.withWnd seg.windowSize).ackTo seg.ackNum)
      (opts : c'.opts = c.opts) (marks : MarksFrom c c') (reply : PureAck c' r) :
      Reaction c seg c' (some r)
  | crossing (before : c.state = .synSent) (syn : seg.flags.syn = true)
      (ack : seg.flags.ack = false)
      (state : c'.state = .synReceived) (recv : c'.recv = c.recv.synced seg.seqNum)
      (send : c'.send = c.send) (opts : c'.opts = c.opts) (marks : MarksFrom c c') :
      Reaction c seg c' (some (c.segment c.sndNxt (seg.seqNum + 1) .synAck c.currentRcvWnd [] []))
  | handshake {reply : Option TcpSegment} (before : c.state = .synReceived)
      (ack : seg.flags.ack = true) (acked : seg.ackNum = c.sndNxt)
      (state : c'.state = .established) (recv : c'.recv = (c.acceptPayload seg).recv)
      (send : c'.send = (c.send.withWnd seg.windowSize).ackTo seg.ackNum)
      (opts : c'.opts = c.opts) (marks : MarksFrom c c') (acks : ∀ r ∈ reply, PureAck c' r)
      (answered : seg.payload ≠ [] → reply ≠ none) :
      Reaction c seg c' reply
  | transfer {reply : Option TcpSegment}
      (before : c.state = .established ∨ c.state = .finWait1 ∨ c.state = .finWait2)
      (recv : c'.recv = (c.acceptPayload seg).recv.afterFin seg)
      (state : c'.state = c.stateAfter seg ∨
        (c.finSent = true ∧ c'.state = (c.stateAfter seg).onFinAcked))
      (send : AckEffect c seg c'.send)
      (opts : c'.opts = c.opts) (marks : MarksFrom c c')
      (acks : ∀ r ∈ reply, PureAck c' r ∨ (c'.recv = c.recv ∧ ∃ q, Resent c' r q))
      (answered : seg.payload ≠ [] ∨ (c.acceptPayload seg).recv.takesFin seg = true →
        ∃ r ∈ reply, PureAck c' r) :
      Reaction c seg c' reply
  | closeWait {reply : Option TcpSegment} (before : c.state = .closeWait)
      (ack : seg.flags.ack = true) (new : c.ackAdvances seg = true)
      (state : c'.state = .closeWait) (recv : c'.recv = c.recv)
      (send : c'.send = (c.send.withWnd seg.windowSize).ackTo seg.ackNum)
      (opts : c'.opts = c.opts) (marks : MarksFrom c c') (acks : ∀ r ∈ reply, PureAck c' r) :
      Reaction c seg c' reply
  | finAcked (states : (c.state = .closing ∧ c'.state = .timeWait) ∨
        (c.state = .lastAck ∧ c'.state = .closed))
      (ack : seg.flags.ack = true) (acked : seqGe seg.ackNum c.sndNxt = true)
      (recv : c'.recv = c.recv) (send : c'.send = c.send.ackTo seg.ackNum)
      (opts : c'.opts = c.opts) (marks : MarksFrom c c') :
      Reaction c seg c' none

/-- Data transfer never leaves the synchronized states. -/
theorem synchronized_transfer {ρ : Type} {c c' : TcpConnection ρ} {seg : TcpSegment}
    (before : c.state = .established ∨ c.state = .finWait1 ∨ c.state = .finWait2)
    (state : c'.state = c.stateAfter seg ∨
      (c.finSent = true ∧ c'.state = (c.stateAfter seg).onFinAcked)) :
    c'.synchronized = true := by
  have hafter : c.stateAfter seg = c.state ∨ c.stateAfter seg = c.state.onFin := by
    unfold TcpConnection.stateAfter
    split <;> simp
  rcases before with hb | hb | hb <;> rcases hafter with ha | ha <;>
    rcases state with hs | ⟨-, hs⟩ <;>
    simp [TcpConnection.synchronized, hs, ha, hb, TcpState.onFin, TcpState.onFinAcked]

/-- An incoming segment: first its options, then what the connection state makes of it. -/
def Arrival {ρ : Type} (c : TcpConnection ρ) (seg : TcpSegment) (c' : TcpConnection ρ)
    (reply : Option TcpSegment) : Prop :=
  ∃ c₁, Prologue c seg c₁ ∧ Reaction c₁ seg c' reply

namespace TcpConnection

variable {ρ : Type}

/-! ### The prologue -/

theorem markSacked_marks (c : TcpConnection ρ) (b : SeqNum × SeqNum) :
    MarksWithin c (c.markSacked b) [b] := by
  intro e' he' hs
  obtain ⟨e, he, rfl⟩ := List.mem_map.mp he'
  split at hs
  · rename_i h
    right
    simp only [Bool.and_eq_true] at h
    simp [h, inRange]
  · rename_i h
    left
    simp only [h]
    exact ⟨e, he, hs, rfl⟩

theorem markSacked_send (c : TcpConnection ρ) (b : SeqNum × SeqNum) :
    (c.markSacked b).send = c.send := by
  simp only [markSacked, send, List.map_map]
  congr 2
  funext e
  simp only [Function.comp]
  split <;> rfl

/-- The option loop so far: which flags the options seen have raised. -/
structure Inspected (c c' : TcpConnection ρ) (options : List TcpOption) : Prop where
  state : c'.state = c.state
  recv : c'.recv = c.recv
  send : c'.send = c.send
  sack : c'.sackPermitted = (c.sackPermitted || options.any (·.isSackPermitted))
  peerSack : c'.peerSackPermitted = (c.peerSackPermitted || options.any (·.isSackPermitted))
  timestamps : c'.tsEnabled = c.tsEnabled
  marks : MarksWithin c c' (options.flatMap (·.sackRanges))
  mss : c'.localMss = c.localMss
  advertised : c'.lastAdvertisedWnd = c.lastAdvertisedWnd

theorem Inspected.refl (c : TcpConnection ρ) : Inspected c c [] :=
  ⟨rfl, rfl, rfl, by simp, by simp, rfl, fun e he hs => .inl ⟨e, he, hs, rfl⟩, rfl, rfl⟩

theorem Inspected.trans {c₁ c₂ c₃ : TcpConnection ρ} {os os' : List TcpOption}
    (h : Inspected c₁ c₂ os) (h' : Inspected c₂ c₃ os') : Inspected c₁ c₃ (os ++ os') where
  state := h'.state.trans h.state
  recv := h'.recv.trans h.recv
  send := h'.send.trans h.send
  sack := by rw [h'.sack, h.sack, List.any_append, Bool.or_assoc]
  peerSack := by rw [h'.peerSack, h.peerSack, List.any_append, Bool.or_assoc]
  timestamps := h'.timestamps.trans h.timestamps
  marks := by
    rw [List.flatMap_append]
    exact h.marks.trans h'.marks
  mss := h'.mss.trans h.mss
  advertised := h'.advertised.trans h.advertised

theorem foldl_markSacked (c : TcpConnection ρ) (blocks : List (SeqNum × SeqNum)) :
    Inspected c (blocks.foldl markSacked c) [.sack blocks] := by
  induction blocks generalizing c with
  | nil =>
    exact ⟨rfl, rfl, rfl, (Bool.or_false _).symm, (Bool.or_false _).symm, rfl,
      fun e he hs => .inl ⟨e, he, hs, rfl⟩, rfl, rfl⟩
  | cons b rest ih =>
    have hr := ih (c.markSacked b)
    refine ⟨hr.state, hr.recv, hr.send.trans (markSacked_send c b), hr.sack, hr.peerSack,
      hr.timestamps, ?_, hr.mss, hr.advertised⟩
    simpa [TcpOption.sackRanges] using (markSacked_marks c b).trans hr.marks

theorem inspectOption_spec (c : TcpConnection ρ) (ts : Option (BitVec 32 × BitVec 32))
    (opt : TcpOption) :
    Inspected c (inspectOption (c, ts) opt).1 [opt] ∧
      (inspectOption (c, ts) opt).2.isSome = (ts.isSome || opt.isTimestamp) := by
  have hid : ∀ e ∈ c.retransmitQueue, e.sacked = true →
      (∃ e' ∈ c.retransmitQueue, e'.sacked = true ∧ e'.range = e.range) ∨
        ∃ b ∈ ([opt].flatMap (·.sackRanges)), inRange e b :=
    fun e he hs => .inl ⟨e, he, hs, rfl⟩
  cases opt with
  | sack blocks => exact ⟨foldl_markSacked c blocks, (Bool.or_false _).symm⟩
  | sackPermitted =>
    exact ⟨⟨rfl, rfl, rfl, (Bool.or_true _).symm, (Bool.or_true _).symm, rfl, hid, rfl, rfl⟩,
      (Bool.or_false _).symm⟩
  | timestamp val ecr =>
    exact ⟨⟨rfl, rfl, rfl, (Bool.or_false _).symm, (Bool.or_false _).symm, rfl, hid, rfl, rfl⟩,
      (Bool.or_true _).symm⟩
  | _ =>
    exact ⟨⟨rfl, rfl, rfl, (Bool.or_false _).symm, (Bool.or_false _).symm, rfl, hid, rfl, rfl⟩,
      (Bool.or_false _).symm⟩

theorem inspectOptions_spec (c : TcpConnection ρ) (options : List TcpOption) :
    Inspected c (c.inspectOptions options).1 options ∧
      (c.inspectOptions options).2.isSome = options.any (·.isTimestamp) := by
  suffices h : ∀ ts : Option (BitVec 32 × BitVec 32),
      Inspected c (options.foldl inspectOption (c, ts)).1 options ∧
        (options.foldl inspectOption (c, ts)).2.isSome =
          (ts.isSome || options.any (·.isTimestamp)) by
    simpa [inspectOptions] using h none
  induction options generalizing c with
  | nil => exact fun ts => ⟨.refl c, by simp⟩
  | cons opt rest ih =>
    intro ts
    obtain ⟨h, hts⟩ := inspectOption_spec c ts opt
    obtain ⟨h', hts'⟩ := ih (inspectOption (c, ts) opt).1 (inspectOption (c, ts) opt).2
    exact ⟨h.trans h', by simpa [hts, Bool.or_assoc] using hts'⟩

/-- Counting the segment and setting the clock. -/
def countReceived (c : TcpConnection ρ) (now : ℕ) : TcpConnection ρ :=
  { c with
    currentTimeMs := now, stats.segmentsReceived := c.stats.segmentsReceived + 1 }

theorem negotiateTimestamps_spec (c : TcpConnection ρ) (seg : TcpSegment)
    (ts : Option (BitVec 32 × BitVec 32)) :
    SameViews c { c.negotiateTimestamps seg ts with tsEnabled := c.tsEnabled } ∧
      (c.negotiateTimestamps seg ts).lastAdvertisedWnd = c.lastAdvertisedWnd ∧
      (c.negotiateTimestamps seg ts).tsEnabled =
        if seg.flags.syn ∧ ¬ c.synchronized then ts.isSome else c.tsEnabled := by
  unfold negotiateTimestamps
  split
  · split <;> exact ⟨⟨rfl, rfl, rfl, rfl, .refl c, rfl, .inl rfl⟩, rfl, rfl⟩
  · exact ⟨.refl c, rfl, rfl⟩

theorem receiveOptions_prologue (c : TcpConnection ρ) (seg : TcpSegment) (now : ℕ) :
    Prologue c seg (c.receiveOptions seg now).1 := by
  obtain ⟨hi, hts⟩ := inspectOptions_spec (c.countReceived now) seg.options
  obtain ⟨hn, hadv, hen⟩ := negotiateTimestamps_spec
    ((c.countReceived now).inspectOptions seg.options).1
    seg ((c.countReceived now).inspectOptions seg.options).2
  have hsync : ((c.countReceived now).inspectOptions seg.options).1.synchronized =
      c.synchronized := by
    simp only [synchronized, hi.state]
    rfl
  have hdef : (c.receiveOptions seg now).1 =
      ((c.countReceived now).inspectOptions seg.options).1.negotiateTimestamps seg
        ((c.countReceived now).inspectOptions seg.options).2 := rfl
  rw [hdef]
  refine ⟨hn.state.trans hi.state, hn.recv.trans hi.recv, hn.send.trans hi.send,
    (congrArg OptView.sackPermitted hn.opts).trans hi.sack,
    (congrArg OptView.peerSackPermitted hn.opts).trans hi.peerSack, ?_, ?_, hn.mss.trans hi.mss,
    hadv.trans hi.advertised⟩
  · rw [hen, hsync, hts, hi.timestamps]
    rfl
  · exact hi.marks.trans_marksFrom hn.marks

/-! ### The reactions -/

theorem handleRst_reaction (c : TcpConnection ρ) {seg : TcpSegment} (h : seg.flags.rst = true) :
    Reaction c seg (c.handleRst seg) none := by
  unfold handleRst
  split
  · rename_i hok
    exact .reset h hok rfl rfl rfl rfl (by intro e he; cases he) rfl rfl
  · exact .ignore ⟨rfl, rfl, rfl, rfl, .refl c, rfl, .inl rfl⟩

theorem handleListen_reaction {c : TcpConnection ρ} (hs : c.state = .listen) (seg : TcpSegment)
    (now : ℕ) : Reaction c seg (c.handleListen seg now).1 (c.handleListen seg now).2 := by
  unfold handleListen
  split
  · rename_i hsyn
    refine .passiveOpen now hs hsyn rfl rfl ?_ rfl
      (trackForRetransmit_marks { c with .. } _ _ _ _ now)
    simp only [trackForRetransmit, send, SendView.withWnd, SendView.push,
      CongestionControl.recordSent, List.map_append, List.map_cons, List.map_nil]
    rfl
  · exact .ignore (.refl c)

/-- Only the receive side differs. -/
structure RecvOnly (c c' : TcpConnection ρ) : Prop where
  state : c'.state = c.state
  send : c'.send = c.send
  opts : c'.opts = c.opts
  marks : MarksFrom c c'

theorem bufferOoo_recvOnly (c : TcpConnection ρ) (e : OooSegment) :
    RecvOnly c (c.bufferOoo e) := by
  unfold bufferOoo
  split
  · exact ⟨rfl, rfl, rfl, .refl c⟩
  · dsimp only
    split <;> exact ⟨rfl, rfl, rfl, .refl c⟩

theorem acceptData_recvOnly (c : TcpConnection ρ) (seq : SeqNum) (payload : List UInt8) :
    RecvOnly c (c.acceptData seq payload) := by
  unfold acceptData
  split
  · exact ⟨rfl, rfl, rfl, .refl c⟩
  · split
    · exact ⟨rfl, rfl, rfl, .refl c⟩
    · have h := bufferOoo_recvOnly c ‹_›
      exact ⟨h.state, h.send, h.opts, h.marks⟩

theorem acceptPayload_recvOnly (c : TcpConnection ρ) (seg : TcpSegment) :
    RecvOnly c (c.acceptPayload seg) := by
  unfold acceptPayload
  split
  · exact acceptData_recvOnly c _ _
  · exact ⟨rfl, rfl, rfl, .refl c⟩

theorem acceptPayload_congr {c c' : TcpConnection ρ} (h : c'.recv = c.recv) (seg : TcpSegment) :
    (c'.acceptPayload seg).recv = (c.acceptPayload seg).recv := by
  unfold acceptPayload
  split
  · exact acceptData_congr h _ _
  · exact h

variable [RttEstimator ρ]

theorem handleSynSent_reaction {c : TcpConnection ρ} (hs : c.state = .synSent) (seg : TcpSegment)
    (now : ℕ) : Reaction c seg (c.handleSynSent seg now).1 (c.handleSynSent seg now).2 := by
  unfold handleSynSent
  split
  · rename_i hflags
    split
    · rename_i hack
      refine .activeOpen hs hflags.1 hflags.2 hack rfl rfl ?_ rfl ?_
        (plainReply_pureAck _ _ rfl)
      · exact acknowledge_send { c with
          rcvNxt := seg.seqNum + 1, sndWnd := seg.windowSize, state := .established } _ now
      · exact acknowledge_marks { c with .. } _ now
    · exact .ignore (.refl c)
  · rename_i hflags
    split
    · rename_i hsyn
      exact .crossing hs hsyn (by simpa [hsyn] using hflags) rfl rfl rfl rfl (.refl c)
    · exact .ignore (.refl c)

/-- The connection after the acknowledgement that ends the passive handshake. -/
def establish (c : TcpConnection ρ) (seg : TcpSegment) (now : ℕ) : TcpConnection ρ :=
  { c with sndWnd := seg.windowSize, state := .established }.acknowledge seg.ackNum now

theorem handleSynReceived_reaction {c : TcpConnection ρ} (hs : c.state = .synReceived)
    (seg : TcpSegment) (now : ℕ) :
    Reaction c seg (c.handleSynReceived seg now).1 (c.handleSynReceived seg now).2 := by
  have hsend : (c.establish seg now).send = (c.send.withWnd seg.windowSize).ackTo seg.ackNum :=
    acknowledge_send { c with sndWnd := seg.windowSize, state := .established } _ now
  have hrecv : (c.establish seg now).recv = c.recv := rfl
  have hmarks : MarksFrom c (c.establish seg now) := acknowledge_marks { c with .. } _ now
  unfold handleSynReceived
  split
  · rename_i hack
    dsimp only
    split
    · rename_i hp
      have hf := acceptData_recvOnly (c.establish seg now) seg.seqNum seg.payload
      refine .handshake hs hack.1 hack.2 hf.state ?_ (hf.send.trans hsend) hf.opts
        (hmarks.trans hf.marks) ?_ (fun _ => by simp [replyAck])
      · rw [acceptPayload, if_pos hp]
        exact acceptData_congr hrecv _ _
      · intro r hr
        obtain rfl := Option.some.inj hr
        exact buildAck_pureAck _
    · rename_i hp
      refine .handshake hs hack.1 hack.2 rfl ?_ hsend rfl hmarks (by simp) (fun h => absurd h hp)
      rw [acceptPayload, if_neg hp]
      exact hrecv
  · exact .ignore (.refl c)

theorem handleCloseWait_reaction {c : TcpConnection ρ} (hs : c.state = .closeWait)
    (seg : TcpSegment) (now : ℕ) :
    Reaction c seg (c.handleCloseWait seg now).1 (c.handleCloseWait seg now).2 := by
  unfold handleCloseWait
  by_cases hack : seg.flags.ack = true ∧ c.ackAdvances seg = true
  · have hsend := acknowledge_send { c with sndWnd := seg.windowSize } seg.ackNum now
    have hmarks := acknowledge_marks { c with sndWnd := seg.windowSize } seg.ackNum now
    simp only [hack, and_self, if_true]
    split
    · refine .closeWait hs hack.1 hack.2 hs rfl hsend rfl hmarks ?_
      intro r hr
      obtain rfl := Option.some.inj hr
      exact buildAck_pureAck _
    · exact .closeWait hs hack.1 hack.2 hs rfl hsend rfl hmarks (by simp)
  · simp only [hack, if_false]
    split
    · have hlive : c.synchronized = true := by simp [synchronized, hs]
      exact .answer hlive (buildAck_sameViews (by simp [mayAdvertise, hlive])) (buildAck_pureAck c)
    · exact .ignore (.refl c)

theorem handleClosing_reaction {c : TcpConnection ρ} (hs : c.state = .closing)
    (seg : TcpSegment) (now : ℕ) :
    Reaction c seg (c.handleClosing seg now).1 (c.handleClosing seg now).2 := by
  unfold handleClosing handleFinAcked
  split
  · rename_i hack
    exact .finAcked (.inl ⟨hs, rfl⟩) hack.1 hack.2 rfl (acknowledge_send c _ now) rfl
      (acknowledge_marks c _ now)
  · exact .ignore (.refl c)

theorem handleLastAck_reaction {c : TcpConnection ρ} (hs : c.state = .lastAck)
    (seg : TcpSegment) (now : ℕ) :
    Reaction c seg (c.handleLastAck seg now).1 (c.handleLastAck seg now).2 := by
  unfold handleLastAck handleFinAcked
  split
  · rename_i hack
    exact .finAcked (.inr ⟨hs, rfl⟩) hack.1 hack.2 rfl (acknowledge_send c _ now) rfl
      (acknowledge_marks c _ now)
  · exact .ignore (.refl c)

omit [RttEstimator ρ] in
theorem handleTimeWait_reaction {c : TcpConnection ρ} (hs : c.state = .timeWait)
    (seg : TcpSegment) :
    Reaction c seg (c.handleTimeWait seg).1 (c.handleTimeWait seg).2 := by
  unfold handleTimeWait
  split
  · exact .answer (by simp [synchronized, hs]) (plainReply_sameViews c _)
      (plainReply_pureAck c _ rfl)
  · exact .ignore (.refl c)

/-! ### Data transfer -/

/-- The dup-ACK bookkeeping of the data-transfer arm. -/
def countDupAck (c : TcpConnection ρ) (seg : TcpSegment) : TcpConnection ρ :=
  { c with
    sndWnd := seg.windowSize, congestion := c.congestion.onDupAck.1
    stats.duplicateAcks := c.stats.duplicateAcks + 1 }

/-- The first step of the data-transfer arm leaves the receive side alone; only a bare
duplicate acknowledgement makes it retransmit. -/
structure Slid (c : TcpConnection ρ) (seg : TcpSegment) (c' : TcpConnection ρ)
    (reply : Option TcpSegment) : Prop where
  state : c'.state = c.state
  recv : c'.recv = c.recv
  send : AckEffect c seg c'.send
  opts : c'.opts = c.opts
  marks : MarksFrom c c'
  bare : reply ≠ none → seg.payload = [] ∧ seg.flags.fin = false
  resent : ∀ r ∈ reply, ∃ q, Resent c' r q

theorem slideWindow_slid {c : TcpConnection ρ} {seg : TcpSegment} (now : ℕ)
    (h : ¬ (seg.flags.ack ∧ ¬ c.ackAdvances seg ∧ seqGt seg.ackNum c.sndNxt)) :
    Slid c seg (c.slideWindow seg now).1 (c.slideWindow seg now).2 := by
  unfold slideWindow
  split
  · rename_i hack
    exact ⟨rfl, rfl, .absent (by simpa using hack), rfl, .refl c, by simp, by simp⟩
  rename_i hack
  have hack' : seg.flags.ack = true := by simpa using hack
  split
  · rename_i hadv
    refine ⟨rfl, rfl, ?_, rfl, acknowledge_marks { c with .. } _ now, by simp, by simp⟩
    have hsend := acknowledge_send { c with sndWnd := seg.windowSize } seg.ackNum now
    rw [hsend]
    exact .advance hack' hadv
  rename_i hadv
  have hadv' : c.ackAdvances seg = false := by simpa using hadv
  have hsent : seqGt seg.ackNum c.sndNxt = false := by simpa [hack', hadv'] using h
  split
  · rename_i hdup
    have hsend : (c.countDupAck seg).send = c.send.withWnd seg.windowSize := by
      simp only [countDupAck, send, SendView.withWnd, CongestionControl.onDupAck_inFlight]
    have hresent := retransmitOldest_spec (c.countDupAck seg) now true
    have heff : AckEffect c seg (c.countDupAck seg).send := hsend ▸ .stale hack' hadv' hsent
    dsimp only
    split
    · have heff' : AckEffect c seg ((c.countDupAck seg).retransmitOldest now true).1.send :=
        hresent.1.send ▸ heff
      exact ⟨hresent.1.state, hresent.1.recv, heff', hresent.1.opts, hresent.1.marks,
        fun _ => ⟨hdup.2.1, by simpa using hdup.2.2.2.1⟩, hresent.2⟩
    · exact ⟨rfl, rfl, heff, rfl, .refl c, by simp, by simp⟩
  · exact ⟨rfl, rfl, .stale hack' hadv' hsent, rfl, .refl c, by simp, by simp⟩

omit [RttEstimator ρ] in
theorem consumeFin_spec (c : TcpConnection ρ) (seg : TcpSegment) (now : ℕ) :
    (c.consumeFin seg now).1.recv = c.recv.afterFin seg ∧
    (c.consumeFin seg now).2 = c.recv.takesFin seg ∧
    (c.consumeFin seg now).1.state = (if c.recv.takesFin seg then c.state.onFin else c.state) ∧
    RecvOnly { c with state := (c.consumeFin seg now).1.state } (c.consumeFin seg now).1 := by
  unfold consumeFin
  split
  · rename_i h
    have ht : c.recv.takesFin seg = true := by simpa [RecvView.takesFin, recv] using h
    rw [RecvView.afterFin, ht]
    cases hs : c.state <;> exact ⟨rfl, rfl, rfl, ⟨rfl, rfl, rfl, .refl c⟩⟩
  · rename_i h
    have ht : c.recv.takesFin seg = false := by simpa [RecvView.takesFin, recv] using h
    rw [RecvView.afterFin, ht]
    exact ⟨rfl, rfl, rfl, ⟨rfl, rfl, rfl, .refl c⟩⟩

omit [RttEstimator ρ] in
theorem settleFin_spec (c : TcpConnection ρ) (now : ℕ) :
    SameViews { c with state := (c.settleFin now).state } (c.settleFin now) ∧
      ((c.settleFin now).state = c.state ∨
        (c.finSent = true ∧ (c.settleFin now).state = c.state.onFinAcked)) := by
  unfold settleFin
  split
  · rename_i h
    exact ⟨⟨rfl, rfl, rfl, rfl, .refl c, rfl, .inl rfl⟩, .inr ⟨h.2.1, by rw [h.1]; rfl⟩⟩
  · split
    · rename_i h
      exact ⟨⟨rfl, rfl, rfl, rfl, .refl c, rfl, .inl rfl⟩, .inr ⟨h.2.1, by rw [h.1]; rfl⟩⟩
    · exact ⟨⟨rfl, rfl, rfl, rfl, .refl c, rfl, .inl rfl⟩, .inl rfl⟩

omit [RttEstimator ρ] in
/-- Steps 2 to 4 of the data-transfer arm, after the send window has moved. -/
theorem takeSegment_spec {c c₁ : TcpConnection ρ} {seg : TcpSegment} {resp : Option TcpSegment}
    (now : ℕ) (h : Slid c seg c₁ resp) :
    ∃ c₂ fin, (c₁.acceptPayload seg).consumeFin seg now = (c₂, fin) ∧
      c₂.recv = (c.acceptPayload seg).recv.afterFin seg ∧
      fin = (c.acceptPayload seg).recv.takesFin seg ∧
      c₂.state = c.stateAfter seg ∧ c₂.send = c₁.send ∧ c₂.opts = c.opts ∧ MarksFrom c c₂ := by
  obtain ⟨hr, hf, hs, hv⟩ := consumeFin_spec (c₁.acceptPayload seg) seg now
  have ha := acceptPayload_recvOnly c₁ seg
  have hc := acceptPayload_congr h.recv seg
  generalize (c₁.acceptPayload seg).consumeFin seg now = r at hr hf hs hv ⊢
  refine ⟨r.1, r.2, rfl, by rw [hr, hc], by rw [hf, hc], ?_, hv.send.trans ha.send,
    (hv.opts.trans ha.opts).trans h.opts, (h.marks.trans ha.marks).trans hv.marks⟩
  rw [hs, hc, ha.state, h.state]
  rfl

omit [RttEstimator ρ] in
theorem bare_recv (c : TcpConnection ρ) {seg : TcpSegment} (hp : seg.payload = [])
    (hf : seg.flags.fin = false) : (c.acceptPayload seg).recv.afterFin seg = c.recv := by
  simp [acceptPayload, hp, RecvView.afterFin, RecvView.takesFin, hf]

theorem handleEstablished_reaction {c : TcpConnection ρ}
    (hs : c.state = .established ∨ c.state = .finWait1 ∨ c.state = .finWait2) (seg : TcpSegment)
    (now : ℕ) : Reaction c seg (c.handleEstablished seg now).1 (c.handleEstablished seg now).2 := by
  unfold handleEstablished
  split
  · have hlive : c.synchronized = true := by
      rcases hs with hs | hs | hs <;> simp [synchronized, hs]
    exact .answer hlive ⟨rfl, rfl, rfl, rfl, .refl c, rfl, .inr (by simp [mayAdvertise, hlive])⟩
      (buildAck_pureAck _)
  rename_i hacc
  have hslid := slideWindow_slid now hacc
  generalize c.slideWindow seg now = slid at hslid ⊢
  obtain ⟨c₁, resp⟩ := slid
  obtain ⟨c₂, fin, hc₂, hrecv, hfin, hstate, hsend, hopts, hmarks⟩ := takeSegment_spec now hslid
  have hfinSent : c₂.finSent = c.finSent := by
    have h₂ : c₂.finSent = c₁.finSent := congrArg SendView.finSent hsend
    have h₁ : c₁.send.finSent = c.finSent := hslid.send.keeps.2.2.1
    exact h₂.trans h₁
  dsimp only
  rw [hc₂]
  dsimp only
  split
  · rename_i hreply
    obtain ⟨hv, hnext⟩ := settleFin_spec c₂.buildAck.1 now
    have hack : PureAck (c₂.buildAck.1.settleFin now) c₂.buildAck.2 :=
      (buildAck_pureAck c₂).congr hv.recv hv.send hv.opts
    refine .transfer hs (hv.recv.trans hrecv) ?_ ?_ (hv.opts.trans hopts)
      (hmarks.trans hv.marks) ?_ ?_
    · rwa [← hstate, ← hfinSent]
    · exact (hv.send.trans hsend).symm ▸ hslid.send
    · intro r hr
      obtain rfl := Option.some.inj hr
      exact .inl hack
    · exact fun _ => ⟨_, rfl, hack⟩
  · rename_i hreply
    obtain ⟨hv, hnext⟩ := settleFin_spec c₂ now
    refine .transfer hs (hv.recv.trans hrecv) ?_ ?_ (hv.opts.trans hopts)
      (hmarks.trans hv.marks) ?_ ?_
    · rwa [← hstate, ← hfinSent]
    · rw [hv.send.trans hsend]
      exact hslid.send
    · intro r hr
      obtain ⟨hp, hf⟩ := hslid.bare (by rw [hr]; simp)
      have hsame : (c₂.settleFin now).recv = c.recv := by
        rw [hv.recv]
        exact hrecv.trans (bare_recv c hp hf)
      obtain ⟨q, hq⟩ := hslid.resent r hr
      exact .inr ⟨hsame, q, hq.congr (hsame.trans hslid.recv.symm) (hv.send.trans hsend)
        ((hv.opts.trans hopts).trans hslid.opts.symm)⟩
    · intro hp
      have hresp : resp ≠ none := fun h => hreply ⟨by rwa [hfin], h⟩
      obtain ⟨hbare, hf⟩ := hslid.bare hresp
      simp [hbare, RecvView.takesFin, hf] at hp

theorem dispatch_reaction (c : TcpConnection ρ) (seg : TcpSegment) (now : ℕ) :
    Reaction c seg (c.dispatch seg now).1 (c.dispatch seg now).2 := by
  unfold dispatch
  split <;> rename_i hs
  · exact handleListen_reaction hs seg now
  · exact handleSynSent_reaction hs seg now
  · exact handleSynReceived_reaction hs seg now
  · exact handleEstablished_reaction (.inl hs) seg now
  · exact handleEstablished_reaction (.inr (.inl hs)) seg now
  · exact handleEstablished_reaction (.inr (.inr hs)) seg now
  · exact handleCloseWait_reaction hs seg now
  · exact handleClosing_reaction hs seg now
  · exact handleLastAck_reaction hs seg now
  · exact handleTimeWait_reaction hs seg
  · exact .ignore (.refl c)

theorem recordTimestamp_sameViews (c : TcpConnection ρ) (seg : TcpSegment)
    (ts : Option (BitVec 32 × BitVec 32)) (now : ℕ) :
    SameViews c (c.recordTimestamp seg ts now) := by
  unfold recordTimestamp
  split
  · exact .refl c
  · exact ⟨rfl, rfl, rfl, rfl, .refl c, rfl, .inl rfl⟩

theorem recordTimestamp_advertised (c : TcpConnection ρ) (seg : TcpSegment)
    (ts : Option (BitVec 32 × BitVec 32)) (now : ℕ) :
    (c.recordTimestamp seg ts now).lastAdvertisedWnd = c.lastAdvertisedWnd := by
  unfold recordTimestamp
  split <;> rfl

omit [RttEstimator ρ] in
theorem pawsRejects_synchronized {c : TcpConnection ρ} {seg : TcpSegment}
    {ts : Option (BitVec 32 × BitVec 32)} (h : c.pawsRejects seg ts = true) :
    c.synchronized = true := by
  unfold pawsRejects at h
  split at h
  · simp only [Bool.and_eq_true] at h
    exact h.1.1.1
  · cases h

/-- Every way a segment can be handled is one of the arrivals. -/
theorem handleSegmentAt_arrival (c : TcpConnection ρ) (seg : TcpSegment) (now : ℕ) :
    Arrival c seg (c.handleSegmentAt seg now).1 (c.handleSegmentAt seg now).2 := by
  have hp := receiveOptions_prologue c seg now
  unfold handleSegmentAt
  generalize c.receiveOptions seg now = r at hp ⊢
  obtain ⟨c₁, ts⟩ := r
  dsimp only at hp ⊢
  split
  · rename_i hpaws
    have hlive := pawsRejects_synchronized hpaws
    exact ⟨c₁, hp, .answer hlive
      ⟨rfl, rfl, rfl, rfl, .refl c₁, rfl, .inr (by simp [mayAdvertise, hlive])⟩
      (buildAck_pureAck _)⟩
  · have hp' := hp.trans (recordTimestamp_sameViews c₁ seg ts now)
      (recordTimestamp_advertised c₁ seg ts now)
    split
    · rename_i hrst
      exact ⟨_, hp', handleRst_reaction _ hrst⟩
    · exact ⟨_, hp', dispatch_reaction _ seg now⟩

end TcpConnection

end ToyTcpip.Tcp
