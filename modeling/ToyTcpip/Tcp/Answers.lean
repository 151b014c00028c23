import ToyTcpip.Tcp.Replies
import ToyTcpip.Tcp.Runs

/-! Which segments that occupy sequence space are answered once the handshake is past. -/
namespace ToyTcpip.Tcp

/-- The timestamp an option carries. -/
def TcpOption.captured : TcpOption → Option (BitVec 32 × BitVec 32)
  | .timestamp val ecr => some (val, ecr)
  | _ => none

namespace TcpSegment

/-- The sequence numbers a segment occupies. -/
def span (seg : TcpSegment) : ℕ :=
  seg.payload.length + (if seg.flags.syn then 1 else 0) + if seg.flags.fin then 1 else 0

def occupies (seg : TcpSegment) : Bool := seg.payload ≠ [] ∨ seg.flags.syn ∨ seg.flags.fin

/-- The timestamp the option loop ends with: the last one. -/
def lastTimestamp (seg : TcpSegment) : Option (BitVec 32 × BitVec 32) :=
  seg.options.foldl (fun ts opt => opt.captured.or ts) none

end TcpSegment

namespace TcpConnection

variable {ρ : Type}

/-- The seven states past the handshake. -/
def pastHandshake (c : TcpConnection ρ) : Bool := c.synchronized ∧ c.state ≠ .synReceived

def inWindow (c : TcpConnection ρ) (n : SeqNum) : Bool :=
  (n - c.rcvNxt).toNat < c.currentRcvWnd.toNat

/-- The acceptance test for a segment that occupies sequence space: its first or its last sequence
number lies in the receive window. -/
def acceptable (c : TcpConnection ρ) (seg : TcpSegment) : Bool :=
  c.inWindow seg.seqNum ∨ c.inWindow (seg.seqNum + BitVec.ofNat 32 (seg.span - 1))

/-- Everything the segment occupies was received before. -/
def receivedBefore (c : TcpConnection ρ) (seg : TcpSegment) : Bool :=
  seqLe (seg.seqNum + BitVec.ofNat 32 seg.span) c.rcvNxt

/-- A segment that occupies sequence space and can only be answered, not taken. -/
def OwesAnswer (c : TcpConnection ρ) (seg : TcpSegment) : Prop :=
  c.pastHandshake ∧ seg.flags.rst = false ∧ seg.occupies ∧
    (c.acceptable seg = false ∨ c.receivedBefore seg)

/-- Timestamps are in use and the one of the segment is older than the last one taken. -/
def outdated (c : TcpConnection ρ) (seg : TcpSegment) : Bool :=
  match seg.lastTimestamp with
  | some (val, _) => c.tsEnabled && !seg.flags.syn && seqLt val c.tsRecent
  | none => false

/-- The acknowledgement is above everything sent. -/
def acksUnsent (c : TcpConnection ρ) (seg : TcpSegment) : Bool :=
  seg.flags.ack ∧ ¬ c.ackAdvances seg ∧ seqGt seg.ackNum c.sndNxt

/-- What the arm of the connection state answers. -/
def armAnswers (c : TcpConnection ρ) (seg : TcpSegment) : Bool :=
  match c.state with
  | .established | .finWait1 | .finWait2 =>
    seg.payload ≠ [] ∨ c.acksUnsent seg ∨ c.recv.takesFin seg
  | .closeWait | .timeWait => seg.flags.fin
  | _ => false

def answering (c : TcpConnection ρ) (seg : TcpSegment) : Bool := c.outdated seg || c.armAnswers seg

variable [RttEstimator ρ]

/-- The segment draws an acknowledgement of everything received so far. -/
def Answers (c : TcpConnection ρ) (seg : TcpSegment) (now : ℕ) : Prop :=
  ∃ r, (c.handleSegmentAt seg now).2 = some r ∧ r.flags.ack = true ∧
    r.ackNum = (c.handleSegmentAt seg now).1.rcvNxt

/-! ### Options -/

omit [RttEstimator ρ] in
theorem foldl_markSacked_tsRecent (c : TcpConnection ρ) (blocks : List (SeqNum × SeqNum)) :
    (blocks.foldl markSacked c).tsRecent = c.tsRecent := by
  induction blocks generalizing c with
  | nil => rfl
  | cons b rest ih => exact ih (c.markSacked b)

omit [RttEstimator ρ] in
theorem inspectOption_captured (c : TcpConnection ρ) (ts : Option (BitVec 32 × BitVec 32))
    (opt : TcpOption) :
    (inspectOption (c, ts) opt).2 = opt.captured.or ts ∧
      (inspectOption (c, ts) opt).1.tsRecent = c.tsRecent := by
  cases opt with
  | sack blocks => exact ⟨rfl, foldl_markSacked_tsRecent c blocks⟩
  | _ => exact ⟨rfl, rfl⟩

omit [RttEstimator ρ] in
theorem inspectOptions_captured (c : TcpConnection ρ) (options : List TcpOption) :
    (c.inspectOptions options).2 = options.foldl (fun ts opt => opt.captured.or ts) none ∧
      (c.inspectOptions options).1.tsRecent = c.tsRecent := by
  suffices h : ∀ ts : Option (BitVec 32 × BitVec 32),
      (options.foldl inspectOption (c, ts)).2 =
          options.foldl (fun ts opt => opt.captured.or ts) ts ∧
        (options.foldl inspectOption (c, ts)).1.tsRecent = c.tsRecent from h none
  induction options generalizing c with
  | nil => exact fun ts => ⟨rfl, rfl⟩
  | cons opt rest ih =>
    intro ts
    obtain ⟨hts, hrecent⟩ := inspectOption_captured c ts opt
    obtain ⟨hts', hrecent'⟩ := ih (inspectOption (c, ts) opt).1 (inspectOption (c, ts) opt).2
    refine ⟨?_, hrecent'.trans hrecent⟩
    rw [List.foldl_cons, List.foldl_cons, ← hts]
    exact hts'

omit [RttEstimator ρ] in
/-- On a synchronized connection the PAWS test sees the last timestamp and the fields it came
with. -/
theorem pawsRejects_receiveOptions {c : TcpConnection ρ} {seg : TcpSegment} (now : ℕ)
    (hsync : c.synchronized = true) (hrst : seg.flags.rst = false) :
    (c.receiveOptions seg now).1.pawsRejects seg (c.receiveOptions seg now).2 = c.outdated seg := by
  obtain ⟨hi, -⟩ := inspectOptions_spec (c.countReceived now) seg.options
  obtain ⟨hts, hrecent⟩ := inspectOptions_captured (c.countReceived now) seg.options
  generalize hc : ((c.countReceived now).inspectOptions seg.options) = r at hi hts hrecent
  have hsync' : r.1.synchronized = true := by
    rw [← hsync]
    simp only [synchronized, hi.state]
    rfl
  have hkeep : r.1.negotiateTimestamps seg r.2 = r.1 := by
    unfold negotiateTimestamps
    rw [if_neg (by simp [hsync'])]
  have hdef : c.receiveOptions seg now = (r.1, if r.1.tsEnabled then r.2 else none) := by
    have : c.receiveOptions seg now = (r.1.negotiateTimestamps seg r.2,
        if (r.1.negotiateTimestamps seg r.2).tsEnabled then r.2 else none) := by
      rw [← hc]
      rfl
    rw [this, hkeep]
  have hts' : r.2 = seg.lastTimestamp := hts
  have hen : r.1.tsEnabled = c.tsEnabled := hi.timestamps
  have hrec : r.1.tsRecent = c.tsRecent := hrecent
  rw [hdef]
  simp only [pawsRejects, outdated, hen, hts', hsync', hrst, hrec]
  cases c.tsEnabled <;> cases seg.lastTimestamp <;> simp

/-! ### The arms -/

/-- A reply is given exactly when `b` says so, and it is a bare acknowledgement. -/
def RepliesIf (b : Bool) (reply : Option TcpSegment) : Prop :=
  reply.isSome = b ∧ ∀ r ∈ reply, r.flags = .ackOnly

omit [RttEstimator ρ] in
theorem repliesIf_replyAck (c : TcpConnection ρ) : RepliesIf true c.replyAck.2 :=
  ⟨rfl, fun _ hr => by cases hr; rfl⟩

theorem repliesIf_none : RepliesIf false none := ⟨rfl, by simp⟩

theorem slideWindow_reply {c : TcpConnection ρ} {seg : TcpSegment} (now : ℕ)
    (h : seg.occupies = true) : (c.slideWindow seg now).2 = none := by
  have hbare : ¬ (seg.payload = [] ∧ ¬ seg.flags.syn ∧ ¬ seg.flags.fin) := by
    simp only [TcpSegment.occupies, decide_eq_true_eq] at h
    tauto
  unfold slideWindow
  split
  · rfl
  split
  · rfl
  split
  · rename_i hdup
    exact absurd ⟨hdup.2.1, hdup.2.2.1, hdup.2.2.2.1⟩ hbare
  · rfl

theorem handleEstablished_replies {c : TcpConnection ρ} {seg : TcpSegment} (now : ℕ)
    (hocc : seg.occupies = true) :
    RepliesIf (seg.payload ≠ [] ∨ c.acksUnsent seg ∨ c.recv.takesFin seg)
      (c.handleEstablished seg now).2 := by
  by_cases hunsent : seg.flags.ack ∧ ¬ c.ackAdvances seg ∧ seqGt seg.ackNum c.sndNxt
  · have hacks : c.acksUnsent seg = true := by simpa [acksUnsent] using hunsent
    rw [handleEstablished, if_pos hunsent]
    simpa [hacks] using repliesIf_replyAck _
  have hacks : c.acksUnsent seg = false := by simpa [acksUnsent] using hunsent
  have hslid := slideWindow_slid now hunsent
  have hresp := slideWindow_reply (c := c) now hocc
  obtain ⟨c₂, fin, hc₂, -, hfin, -⟩ := takeSegment_spec now hslid
  have htaken : (seg.payload ≠ [] ∨ fin = true) ↔
      (seg.payload ≠ [] ∨ c.recv.takesFin seg = true) := by
    by_cases hp : seg.payload = []
    · simp [hp, hfin, acceptPayload]
    · simp [hp]
  have hsnd : (c.handleEstablished seg now).2 =
      if seg.payload ≠ [] ∨ fin = true then c₂.replyAck.2 else none := by
    unfold handleEstablished
    rw [if_neg hunsent]
    dsimp only
    rw [hc₂, hresp]
    dsimp only
    split_ifs <;> simp_all
  rw [hsnd]
  split
  · rename_i htake
    have hall : seg.payload ≠ [] ∨ c.acksUnsent seg = true ∨ c.recv.takesFin seg = true := by
      have := htaken.mp htake
      tauto
    rw [decide_eq_true hall]
    exact repliesIf_replyAck _
  · rename_i htake
    have hnone : ¬ (seg.payload ≠ [] ∨ c.acksUnsent seg = true ∨ c.recv.takesFin seg = true) := by
      rw [hacks]
      have := mt htaken.mpr htake
      simpa using this
    rw [decide_eq_false hnone]
    exact repliesIf_none

theorem handleFinAcked_replies {c : TcpConnection ρ} {seg : TcpSegment} (now : ℕ)
    (finish : TcpConnection ρ → TcpConnection ρ) :
    RepliesIf false (c.handleFinAcked seg now finish).2 := by
  unfold handleFinAcked
  split <;> exact repliesIf_none

theorem dispatch_replies {c : TcpConnection ρ} {seg : TcpSegment} (now : ℕ)
    (hpast : c.pastHandshake = true) (hocc : seg.occupies = true) :
    RepliesIf (c.armAnswers seg) (c.dispatch seg now).2 := by
  simp only [pastHandshake, synchronized, decide_eq_true_eq] at hpast
  unfold dispatch armAnswers
  cases hs : c.state with
  | closed | listen | synSent | synReceived => simp_all
  | established | finWait1 | finWait2 => exact handleEstablished_replies now hocc
  | closeWait =>
    unfold handleCloseWait
    cases hf : seg.flags.fin with
    | false => exact repliesIf_none
    | true => exact repliesIf_replyAck _
  | closing => exact handleFinAcked_replies now _
  | lastAck => exact handleFinAcked_replies now _
  | timeWait =>
    unfold handleTimeWait
    cases hf : seg.flags.fin with
    | false => exact repliesIf_none
    | true => exact ⟨rfl, fun _ hr => by cases hr; rfl⟩

omit [RttEstimator ρ] in
theorem armAnswers_congr {c c' : TcpConnection ρ} {seg : TcpSegment} (hs : c'.state = c.state)
    (hr : c'.recv = c.recv) (hv : c'.send = c.send) : c'.armAnswers seg = c.armAnswers seg := by
  have hnxt : c'.sndNxt = c.sndNxt := sndNxt_congr hv
  have huna : c'.sndUna = c.sndUna := congrArg SendView.sndUna hv
  unfold armAnswers acksUnsent ackAdvances
  rw [hs, hr, hnxt, huna]

theorem handleSegmentAt_replies {c : TcpConnection ρ} {seg : TcpSegment} (now : ℕ)
    (hpast : c.pastHandshake = true) (hrst : seg.flags.rst = false) (hocc : seg.occupies = true) :
    RepliesIf (c.answering seg) (c.handleSegmentAt seg now).2 := by
  have hsync : c.synchronized = true := by
    simp only [pastHandshake, decide_eq_true_eq] at hpast
    exact hpast.1
  have hpaws := pawsRejects_receiveOptions now hsync hrst
  have hp := receiveOptions_prologue c seg now
  unfold handleSegmentAt answering
  generalize c.receiveOptions seg now = r at hpaws hp ⊢
  obtain ⟨c₁, ts⟩ := r
  dsimp only at hpaws hp ⊢
  rw [hpaws]
  cases hout : c.outdated seg with
  | true => exact repliesIf_replyAck _
  | false =>
    have hp' := hp.trans (recordTimestamp_sameViews c₁ seg ts now)
      (recordTimestamp_advertised c₁ seg ts now)
    have hpast' : (c₁.recordTimestamp seg ts now).pastHandshake = true := by
      unfold pastHandshake synchronized at hpast ⊢
      rwa [hp'.state]
    have hd := dispatch_replies now hpast' hocc
    rw [armAnswers_congr hp'.state hp'.recv hp'.send] at hd
    simpa [hrst] using hd

/-- Past the handshake a segment that occupies sequence space is acknowledged exactly when the
conditions above hold. -/
theorem answers_iff {c : TcpConnection ρ} {seg : TcpSegment} (now : ℕ)
    (hpast : c.pastHandshake = true) (hrst : seg.flags.rst = false) (hocc : seg.occupies = true) :
    c.Answers seg now ↔ c.answering seg = true := by
  obtain ⟨hsome, hflags⟩ := handleSegmentAt_replies now hpast hrst hocc
  constructor
  · rintro ⟨r, hr, -⟩
    rw [← hsome, hr]
    rfl
  · intro h
    obtain ⟨r, hr⟩ := Option.isSome_iff_exists.mp (hsome.trans h)
    have hadv := (arrival_advertises (c.handleSegmentAt_arrival seg now) r hr).1
    exact ⟨r, hr, by rw [hflags r hr]; rfl, hadv.ackNum⟩

end TcpConnection

section runs

variable {ρ : Type} [RttEstimator ρ]

/-- A segment that has to be answered is one that is answered. -/
def Answerable (c : TcpConnection ρ) : Call → Prop
  | .handleSegmentAt seg _ => c.OwesAnswer seg → c.answering seg = true
  | _ => True

instance (c : TcpConnection ρ) (seg : TcpSegment) : Decidable (c.OwesAnswer seg) :=
  inferInstanceAs (Decidable (_ ∧ _ ∧ _ ∧ (_ ∨ _)))

instance decidableAnswerable (c : TcpConnection ρ) : ∀ k, Decidable (Answerable c k)
  | .handleSegmentAt seg _ => inferInstanceAs
    (Decidable (c.OwesAnswer seg → c.answering seg = true))
  | .write _ | .read _ | .pollOutput _ | .initiateSynAt _ | .initiateCloseAt _ => isTrue trivial

/-- Past the handshake a segment that occupies sequence space is acknowledged exactly when its
timestamp is outdated or the arm of the state answers it; in a run in which every segment that has
to be answered is of this kind, all of them are. -/
theorem occupying_segments_answered :
    (∀ (c : TcpConnection ρ) (seg : TcpSegment) (now : ℕ), c.pastHandshake = true →
      seg.flags.rst = false → seg.occupies = true →
      (c.Answers seg now ↔ c.answering seg = true)) ∧
    (∀ (st : Start) (r : Run ρ) (calls rest : List Call) (seg : TcpSegment) (now : ℕ),
      r.Opened st → r.Admits Answerable (calls ++ .handleSegmentAt seg now :: rest) →
      (r.run calls).conn.OwesAnswer seg → (r.run calls).conn.Answers seg now) := by
  refine ⟨fun c seg now hpast hrst hocc => TcpConnection.answers_iff now hpast hrst hocc, ?_⟩
  intro st r calls rest seg now _ hadmits howes
  have hhere := hadmits.append.2.1
  exact (TcpConnection.answers_iff now howes.1 howes.2.1 howes.2.2.1).mpr (hhere howes)

end runs

/-! ### A peer that closes, and a simultaneous close -/

def peerCloses : List Call :=
  [.handleSegmentAt (peerSegment 1000 0 .synOnly []) 0,
    .handleSegmentAt (peerSegment 1001 5001 .ackOnly []) 1,
    .handleSegmentAt (peerSegment 1001 5001 .finAck []) 3]

example : ((Run.start host.listening : Run JacobsonRtt).run peerCloses).conn.state =
    .closeWait := by decide +kernel

/-- The handshake of a peer, and a close of our own that it has not seen yet. -/
def crossedFins : List Call :=
  [.handleSegmentAt (peerSegment 1000 0 .synOnly []) 0,
    .handleSegmentAt (peerSegment 1001 5001 .ackOnly []) 1,
    .initiateCloseAt 2,
    .handleSegmentAt (peerSegment 1001 5001 .finAck []) 3]

theorem occupying_segments_answered_inCloseWait :
    let c : TcpConnection JacobsonRtt := ((Run.start host.listening).run peerCloses).conn
    c.state = .closeWait ∧ c.OwesAnswer (peerSegment 1001 5001 .finAck []) ∧
      c.Answers (peerSegment 1001 5001 .finAck []) 4 ∧
      c.answering (peerSegment 1001 5001 .finAck []) = true := by
  intro c
  have howes : c.OwesAnswer (peerSegment 1001 5001 .finAck []) := by decide +kernel
  have hanswers := occupying_segments_answered.2 host (Run.start host.listening) peerCloses []
    (peerSegment 1001 5001 .finAck []) 4 (.inl rfl) (by decide +kernel) howes
  exact ⟨by decide +kernel, howes, hanswers,
    (occupying_segments_answered.1 c _ 4 howes.1 howes.2.1 howes.2.2.1).mp hanswers⟩

/-- In CLOSING the FIN that is sent again, because its acknowledgement was lost, goes unanswered. -/
theorem not_answered_inClosing :
    let c : TcpConnection JacobsonRtt := ((Run.start host.listening).run crossedFins).conn
    c.state = .closing ∧ c.OwesAnswer (peerSegment 1001 5001 .finAck []) ∧
      ¬ c.Answers (peerSegment 1001 5001 .finAck []) 4 := by
  intro c
  have howes : c.OwesAnswer (peerSegment 1001 5001 .finAck []) := by decide +kernel
  have hnone : (c.handleSegmentAt (peerSegment 1001 5001 .finAck []) 4).2 = none := by
    decide +kernel
  refine ⟨by decide +kernel, howes, ?_⟩
  rintro ⟨r, hr, -⟩
  rw [hnone] at hr
  cases hr

end ToyTcpip.Tcp
