import ToyTcpip.Tcp.Answers

/-! What a segment that is rejected leaves behind. -/
namespace ToyTcpip.Tcp

/-- The MSS an option announces. -/
def TcpOption.announced : TcpOption → Option (BitVec 16)
  | .mss m => some m
  | _ => none

/-- The MSS the option loop ends with: the last one. -/
def TcpSegment.lastMss (seg : TcpSegment) : Option (BitVec 16) :=
  seg.options.foldl (fun m opt => opt.announced.or m) none

/-- An entry after the ranges of a segment's SACK options were gone through. -/
def markedBy (ranges : List (SeqNum × SeqNum)) (e : RetransmitSegment) : RetransmitSegment :=
  if ranges.any fun b => seqGe e.seqNum b.1 && seqLe e.endSeq b.2 then
    { e with sacked := true } else e

theorem markedBy_append (ranges ranges' : List (SeqNum × SeqNum)) (e : RetransmitSegment) :
    markedBy ranges' (markedBy ranges e) = markedBy (ranges ++ ranges') e := by
  unfold markedBy
  rw [List.any_append]
  cases h : ranges.any fun b => seqGe e.seqNum b.1 && seqLe e.endSeq b.2 with
  | false => simp
  | true => cases h' : ranges'.any fun b => seqGe e.seqNum b.1 && seqLe e.endSeq b.2 <;> simp [h']

theorem map_markedBy_eq_iff {queue : List RetransmitSegment} {ranges : List (SeqNum × SeqNum)} :
    queue.map (markedBy ranges) = queue ↔
      ∀ e ∈ queue, ∀ b ∈ ranges, inRange e b → e.sacked = true := by
  have hone : ∀ e, markedBy ranges e = e ↔ ∀ b ∈ ranges, inRange e b → e.sacked = true := by
    intro e
    unfold markedBy inRange
    split
    · rename_i h
      obtain ⟨b, hb, hin⟩ := List.any_eq_true.mp h
      rw [Bool.and_eq_true] at hin
      constructor
      · intro heq _ _ _
        rw [← heq]
      · intro hall
        rw [← hall b hb hin]
    · rename_i h
      simp only [true_iff]
      intro b hb hin
      exact absurd (List.any_eq_true.mpr ⟨b, hb, by rw [hin.1, hin.2]; rfl⟩) h
  simp only [← hone]
  constructor
  · intro h e he
    exact (List.map_inj_left.mp (h.trans (List.map_id queue).symm)) e he
  · intro h
    exact (List.map_congr_left h).trans (List.map_id queue)

namespace TcpConnection

variable {ρ : Type}

/-- What options that end with an MSS, permit SACK and report ranges do to a connection. -/
def withOptions (c : TcpConnection ρ) (mss : Option (BitVec 16)) (sack : Bool)
    (ranges : List (SeqNum × SeqNum)) : TcpConnection ρ :=
  { c with
    peerMss := mss.getD c.peerMss
    congestion.mss := (mss.map BitVec.toNat).getD c.congestion.mss
    peerSackPermitted := if sack then true else c.peerSackPermitted
    sackPermitted := if sack then true else c.sackPermitted
    retransmitQueue := c.retransmitQueue.map (markedBy ranges)
    stats.sackBlocksReceived := c.stats.sackBlocksReceived + ranges.length }

theorem map_markedBy_nil (queue : List RetransmitSegment) : queue.map (markedBy []) = queue := by
  rw [map_markedBy_eq_iff]
  simp

theorem withOptions_none (c : TcpConnection ρ) : c.withOptions none false [] = c := by
  unfold withOptions
  rw [map_markedBy_nil]
  rfl

theorem withOptions_withOptions (c : TcpConnection ρ) (mss mss' : Option (BitVec 16))
    (sack sack' : Bool) (ranges ranges' : List (SeqNum × SeqNum)) :
    (c.withOptions mss sack ranges).withOptions mss' sack' ranges' =
      c.withOptions (mss'.or mss) (sack || sack') (ranges ++ ranges') := by
  have hqueue : (c.retransmitQueue.map (markedBy ranges)).map (markedBy ranges') =
      c.retransmitQueue.map (markedBy (ranges ++ ranges')) := by
    rw [List.map_map]
    exact List.map_congr_left fun e _ => markedBy_append ranges ranges' e
  have hcount : c.stats.sackBlocksReceived + ranges.length + ranges'.length =
      c.stats.sackBlocksReceived + (ranges ++ ranges').length := by
    rw [List.length_append, Nat.add_assoc]
  unfold withOptions
  simp only [hqueue, hcount]
  cases mss' <;> cases sack <;> cases sack' <;> rfl

theorem foldl_markSacked_eq (c : TcpConnection ρ) (blocks : List (SeqNum × SeqNum)) :
    blocks.foldl markSacked c = c.withOptions none false blocks := by
  induction blocks generalizing c with
  | nil => rw [withOptions_none]; rfl
  | cons b rest ih =>
    have hone : ∀ e, (if seqGe e.seqNum b.1 && seqLe e.endSeq b.2 then { e with sacked := true }
        else e) = markedBy [b] e := by
      intro e
      simp [markedBy]
    have hmark : c.markSacked b = c.withOptions none false [b] := by
      simp only [markSacked, hone]
      rfl
    rw [List.foldl_cons, ih, hmark, withOptions_withOptions]
    rfl

theorem inspectOption_eq (c : TcpConnection ρ) (ts : Option (BitVec 32 × BitVec 32))
    (opt : TcpOption) : (inspectOption (c, ts) opt).1 =
      c.withOptions opt.announced opt.isSackPermitted opt.sackRanges := by
  cases opt with
  | sack blocks => exact foldl_markSacked_eq c blocks
  | _ =>
    unfold withOptions
    simp only [TcpOption.sackRanges, map_markedBy_nil]
    rfl

theorem inspectOptions_eq (c : TcpConnection ρ) (seg : TcpSegment) :
    (c.inspectOptions seg.options).1 = c.withOptions seg.lastMss seg.offersSack seg.sackRanges := by
  suffices h : ∀ (options : List TcpOption) (ts : Option (BitVec 32 × BitVec 32))
      (mss : Option (BitVec 16)) (sack : Bool) (ranges : List (SeqNum × SeqNum)),
      (options.foldl inspectOption (c.withOptions mss sack ranges, ts)).1 =
        c.withOptions (options.foldl (fun m opt => opt.announced.or m) mss)
          (sack || options.any (·.isSackPermitted)) (ranges ++ options.flatMap (·.sackRanges)) by
    have hall := h seg.options none none false []
    rw [withOptions_none] at hall
    exact hall
  intro options
  induction options with
  | nil =>
    intro ts mss sack ranges
    simp
  | cons opt rest ih =>
    intro ts mss sack ranges
    have hstep := inspectOption_eq (c.withOptions mss sack ranges) ts opt
    rw [withOptions_withOptions] at hstep
    rw [List.foldl_cons, ← Prod.eta (inspectOption (c.withOptions mss sack ranges, ts) opt), hstep,
      ih, List.foldl_cons, List.any_cons, List.flatMap_cons, Bool.or_assoc, List.append_assoc]

end TcpConnection

/-- The part of a connection that options are read into. -/
structure OptionState (ρ : Type) where
  peerMss : BitVec 16
  congestion : CongestionControl
  peerSackPermitted : Bool
  sackPermitted : Bool
  retransmitQueue : List RetransmitSegment
  tsEnabled : Bool
  tsRecent : BitVec 32
  lastAckSent : SeqNum
  lastTsAck : BitVec 32
  rtt : ρ

namespace TcpConnection

variable {ρ : Type} {c c₁ c₂ c' : TcpConnection ρ} {seg : TcpSegment} {now : ℕ}

def options (c : TcpConnection ρ) : OptionState ρ :=
  ⟨c.peerMss, c.congestion, c.peerSackPermitted, c.sackPermitted, c.retransmitQueue, c.tsEnabled,
    c.tsRecent, c.lastAckSent, c.lastTsAck, c.rtt⟩

/-- The connection with other options, at another time and with other statistics. -/
def setOptions (c : TcpConnection ρ) (o : OptionState ρ) (now : ℕ) (stats : TcpStats) :
    TcpConnection ρ :=
  { c with
    peerMss := o.peerMss, congestion := o.congestion, peerSackPermitted := o.peerSackPermitted
    sackPermitted := o.sackPermitted, retransmitQueue := o.retransmitQueue, tsEnabled := o.tsEnabled
    tsRecent := o.tsRecent, lastAckSent := o.lastAckSent, lastTsAck := o.lastTsAck, rtt := o.rtt
    currentTimeMs := now, stats }

/-- Only the clock, the statistics and the options may differ. -/
def OptionsOnly (c c' : TcpConnection ρ) : Prop :=
  c' = c.setOptions c'.options c'.currentTimeMs c'.stats

theorem OptionsOnly.trans (h : OptionsOnly c c₁) (h' : OptionsOnly c₁ c₂) : OptionsOnly c c₂ := by
  unfold OptionsOnly at h h' ⊢
  rw [h] at h'
  exact h'

/-- The connection is as it was, apart from the clock, the statistics and what was last acknowledged
and advertised, and from the latter two only if there is a reply. -/
def Unmoved (c c' : TcpConnection ρ) (now : ℕ) (reply : Option TcpSegment) : Prop :=
  ∃ stats ack wnd, c' = { c with
      currentTimeMs := now, stats, lastAckSent := ack, lastAdvertisedWnd := wnd } ∧
    (reply = none → ack = c.lastAckSent ∧ wnd = c.lastAdvertisedWnd)

/-! ### Rejected segments -/

/-- The PAWS discard. -/
def discards (c : TcpConnection ρ) (seg : TcpSegment) : Bool :=
  c.synchronized && !seg.flags.rst && c.outdated seg

/-- An acknowledgement number the state of the connection does not take. -/
def refusesAck (c : TcpConnection ρ) (seg : TcpSegment) : Bool :=
  match c.state with
  | .synSent | .synReceived => seg.flags.ack && seg.ackNum ≠ c.sndNxt
  | .established | .finWait1 | .finWait2 | .closeWait => c.acksUnsent seg
  | _ => false

/-- `handle_segment_at` rejects the segment. -/
def Rejects (c : TcpConnection ρ) (seg : TcpSegment) : Prop :=
  c.discards seg = true ∨
  (seg.flags.rst = true ∧ c.rstAcceptable seg = false) ∨
  (seg.flags.rst = false ∧ c.refusesAck seg = true)

variable [RttEstimator ρ]

/-- The options of a segment say nothing the connection does not hold already. -/
structure Inert (c : TcpConnection ρ) (seg : TcpSegment) (now : ℕ) : Prop where
  mss : ∀ m, seg.lastMss = some m → m = c.peerMss ∧ m.toNat = c.congestion.mss
  sack : seg.offersSack = true → c.peerSackPermitted = true ∧ c.sackPermitted = true
  marks : ∀ e ∈ c.retransmitQueue, ∀ b ∈ seg.sackRanges, inRange e b → e.sacked = true
  syn : seg.flags.syn = true → c.synchronized = false → c.tsEnabled = seg.lastTimestamp.isSome ∧
    ∀ val ecr, seg.lastTimestamp = some (val, ecr) → c.tsRecent = val ∧
      c.lastAckSent = seg.seqNum + 1
  timestamp : c.discards seg = false → c.tsEnabled = true →
    ∀ val ecr, seg.lastTimestamp = some (val, ecr) →
      (seqGe val c.tsRecent = true → seqLe seg.seqNum c.lastAckSent = true → c.tsRecent = val) ∧
      c.lastTsAck = ecr ∧
      (ecr ≠ 0 → 0 < (BitVec.ofNat 32 now).toNat - ecr.toNat →
        RttEstimator.updateSample c.rtt ((BitVec.ofNat 32 now).toNat - ecr.toNat) = c.rtt)

omit [RttEstimator ρ] in
theorem receiveOptions_eq (c : TcpConnection ρ) (seg : TcpSegment) (now : ℕ) :
    c.receiveOptions seg now =
      let c₁ := ((c.countReceived now).withOptions seg.lastMss seg.offersSack
        seg.sackRanges).negotiateTimestamps seg seg.lastTimestamp
      (c₁, if c₁.tsEnabled then seg.lastTimestamp else none) := by
  obtain ⟨hts, -⟩ := inspectOptions_captured (c.countReceived now) seg.options
  have hopts := inspectOptions_eq (c.countReceived now) seg
  unfold receiveOptions
  dsimp only
  rw [show
    ({ c with currentTimeMs := now, stats.segmentsReceived := c.stats.segmentsReceived + 1 } :
    TcpConnection ρ) = c.countReceived now from rfl, hopts, hts]
  rfl

omit [RttEstimator ρ] in
theorem receiveOptions_optionsOnly (c : TcpConnection ρ) (seg : TcpSegment) (now : ℕ) :
    OptionsOnly c (c.receiveOptions seg now).1 ∧
    (c.receiveOptions seg now).1.currentTimeMs = now := by
  rw [receiveOptions_eq]
  dsimp only
  unfold negotiateTimestamps
  split
  · split <;> exact ⟨rfl, rfl⟩
  · exact ⟨rfl, rfl⟩

theorem recordTimestamp_optionsOnly (c : TcpConnection ρ) (seg : TcpSegment)
    (ts : Option (BitVec 32 × BitVec 32)) (now : ℕ) : OptionsOnly c (c.recordTimestamp seg ts now) ∧
      (c.recordTimestamp seg ts now).currentTimeMs = c.currentTimeMs := by
  unfold recordTimestamp
  split <;> exact ⟨rfl, rfl⟩

/-- The connection the rejection of a segment starts from. -/
def beforeRejection (c : TcpConnection ρ) (seg : TcpSegment) (now : ℕ) : TcpConnection ρ :=
  let (c₁, ts) := c.receiveOptions seg now
  if c.discards seg then c₁ else c₁.recordTimestamp seg ts now

theorem beforeRejection_optionsOnly (c : TcpConnection ρ) (seg : TcpSegment) (now : ℕ) :
    OptionsOnly c (c.beforeRejection seg now) ∧
    (c.beforeRejection seg now).currentTimeMs = now := by
  obtain ⟨honly, hclock⟩ := receiveOptions_optionsOnly c seg now
  unfold beforeRejection
  dsimp only
  split
  · exact ⟨honly, hclock⟩
  · obtain ⟨honly', hclock'⟩ := recordTimestamp_optionsOnly (c.receiveOptions seg now).1 seg
      (c.receiveOptions seg now).2 now
    exact ⟨honly.trans honly', hclock'.trans hclock⟩

omit [RttEstimator ρ] in
theorem pawsRejects_eq_discards (c : TcpConnection ρ) (seg : TcpSegment) (now : ℕ) :
    (c.receiveOptions seg now).1.pawsRejects seg (c.receiveOptions seg now).2 = c.discards seg := by
  unfold discards
  cases hsync : c.synchronized with
  | false =>
    have hstate := (receiveOptions_prologue c seg now).state
    have hsync' : (c.receiveOptions seg now).1.synchronized = false := by
      simpa only [synchronized, hstate] using hsync
    unfold pawsRejects
    split <;> simp [hsync']
  | true =>
    cases hrst : seg.flags.rst with
    | true =>
      unfold pawsRejects
      split <;> simp [hrst]
    | false => simp [pawsRejects_receiveOptions now hsync hrst]

/-- The statistics and the bookkeeping of a reply, if there is one. -/
def Replied (b c' : TcpConnection ρ) (reply : Option TcpSegment) : Prop :=
  ∃ stats ack wnd, c' = { b with stats, lastAckSent := ack, lastAdvertisedWnd := wnd } ∧
    (reply = none → ack = b.lastAckSent ∧ wnd = b.lastAdvertisedWnd)

omit [RttEstimator ρ] in
theorem replied_none {b : TcpConnection ρ} (stats : TcpStats) :
    Replied b { b with stats } none :=
  ⟨stats, b.lastAckSent, b.lastAdvertisedWnd, rfl, fun _ => ⟨rfl, rfl⟩⟩

omit [RttEstimator ρ] in
theorem replied_replyAck {b : TcpConnection ρ} (stats : TcpStats) :
    Replied b ({ b with stats } : TcpConnection ρ).replyAck.1
      ({ b with stats } : TcpConnection ρ).replyAck.2 :=
  ⟨_, _, _, rfl, nofun⟩

/-- What the arm of the state makes of an acknowledgement it refuses. -/
theorem dispatch_refused (hsame : OptionsOnly c c') (h : c.refusesAck seg = true) :
    Replied c' (c'.dispatch seg now).1 (c'.dispatch seg now).2 ∧
      ((c'.dispatch seg now).2 ≠ none → c.synchronized = true) := by
  unfold OptionsOnly at hsame
  generalize c'.options = o at hsame
  generalize c'.currentTimeMs = t at hsame
  generalize c'.stats = stats at hsame
  subst hsame
  have hquiet : Replied (c.setOptions o t stats) (c.setOptions o t stats) none := replied_none _
  unfold refusesAck at h
  cases hstate : c.state with
  | synSent =>
    simp only [hstate, Bool.and_eq_true, decide_eq_true_eq] at h
    have hdrop : (c.setOptions o t stats).dispatch seg now = (c.setOptions o t stats, none) := by
      cases hsyn : seg.flags.syn <;>
        simp [dispatch, handleSynSent, setOptions, hstate, hsyn, h.1, h.2]
    rw [hdrop]
    exact ⟨hquiet, nofun⟩
  | synReceived =>
    simp only [hstate, Bool.and_eq_true, decide_eq_true_eq] at h
    have hdrop : (c.setOptions o t stats).dispatch seg now = (c.setOptions o t stats, none) := by
      simp [dispatch, handleSynReceived, setOptions, hstate, h.1, h.2]
    rw [hdrop]
    exact ⟨hquiet, nofun⟩
  | established | finWait1 | finWait2 =>
    simp only [hstate, acksUnsent, decide_eq_true_eq] at h
    refine ⟨?_, fun _ => by simp [synchronized, hstate]⟩
    have hanswer : (c.setOptions o t stats).dispatch seg now =
        ({ c.setOptions o t stats with
          stats.invalidSegments := stats.invalidSegments + 1 } : TcpConnection ρ).replyAck := by
      have hdispatch : (c.setOptions o t stats).dispatch seg now =
          (c.setOptions o t stats).handleEstablished seg now := by
        simp [dispatch, setOptions, hstate]
      have habove : seg.flags.ack = true ∧ ¬ (c.setOptions o t stats).ackAdvances seg = true ∧
          seqGt seg.ackNum (c.setOptions o t stats).sndNxt = true := h
      rw [hdispatch, handleEstablished, if_pos habove]
      rfl
    rw [hanswer]
    exact replied_replyAck _
  | closeWait =>
    simp only [hstate, acksUnsent, decide_eq_true_eq] at h
    refine ⟨?_, fun _ => by simp [synchronized, hstate]⟩
    have hdispatch : (c.setOptions o t stats).dispatch seg now =
        if seg.flags.fin then (c.setOptions o t stats).replyAck
          else (c.setOptions o t stats, none) := by
      have harm : (c.setOptions o t stats).dispatch seg now =
          (c.setOptions o t stats).handleCloseWait seg now := by
        simp [dispatch, setOptions, hstate]
      have hold : ¬ (seg.flags.ack = true ∧ (c.setOptions o t stats).ackAdvances seg = true) :=
        fun hadv => h.2.1 hadv.2
      rw [harm, handleCloseWait, if_neg hold]
    rw [hdispatch]
    split
    · exact replied_replyAck _
    · exact hquiet
  | closed | listen | closing | lastAck | timeWait => simp [hstate] at h

/-- A rejected segment does nothing beyond its options but count and answer. -/
theorem rejected_replied (now : ℕ) (h : c.Rejects seg) :
    Replied (c.beforeRejection seg now) (c.handleSegmentAt seg now).1
      (c.handleSegmentAt seg now).2 ∧
      ((c.handleSegmentAt seg now).2 ≠ none → c.synchronized = true) := by
  have hpaws := pawsRejects_eq_discards c seg now
  have honly := (beforeRejection_optionsOnly c seg now).1
  unfold handleSegmentAt
  unfold beforeRejection at honly ⊢
  generalize c.receiveOptions seg now = r at hpaws honly ⊢
  obtain ⟨c₁, ts⟩ := r
  dsimp only at hpaws honly ⊢
  rw [hpaws]
  cases hd : c.discards seg with
  | true =>
    simp only [↓reduceIte]
    refine ⟨replied_replyAck _, fun _ => ?_⟩
    simp only [discards, Bool.and_eq_true] at hd
    exact hd.1.1
  | false =>
    simp only [hd, Bool.false_eq_true, ↓reduceIte] at honly ⊢
    rcases h with h | ⟨hrst, hout⟩ | ⟨hrst, hack⟩
    · rw [hd] at h
      cases h
    · have hout' : (c₁.recordTimestamp seg ts now).rstAcceptable seg = false := by
        rw [← hout, honly]
        rfl
      simp only [hrst, ↓reduceIte, handleRst, hout', Bool.false_eq_true]
      exact ⟨replied_none _, nofun⟩
    · simp only [hrst, Bool.false_eq_true, ↓reduceIte]
      exact dispatch_refused honly hack

omit [RttEstimator ρ] in
theorem flag_eq_iff {sack old : Bool} : (if sack then true else old) = old ↔
    (sack = true → old = true) := by
  cases sack <;> simp [eq_comm]

omit [RttEstimator ρ] in
theorem mss_eq_iff (mss : Option (BitVec 16)) (congestion : CongestionControl) (old : BitVec 16) :
    mss.getD old = old ∧ ({ congestion with
        mss := (mss.map BitVec.toNat).getD congestion.mss } : CongestionControl) = congestion ↔
      ∀ m, mss = some m → m = old ∧ m.toNat = congestion.mss := by
  cases mss with
  | none => simp
  | some m =>
    simp only [Option.getD_some, Option.map_some, Option.some.injEq, forall_eq']
    constructor
    · rintro ⟨hold, hcongestion⟩
      exact ⟨hold, congrArg CongestionControl.mss hcongestion⟩
    · rintro ⟨hold, hcongestion⟩
      refine ⟨hold, ?_⟩
      rw [hcongestion]

omit [RttEstimator ρ] in
theorem stamped_options_iff (c : TcpConnection ρ) (now : ℕ) (mss : Option (BitVec 16)) (sack : Bool)
    (ranges : List (SeqNum × SeqNum)) (tsEnabled : Bool) (tsRecent : BitVec 32)
    (lastAckSent : SeqNum) (lastTsAck : BitVec 32) (rtt : ρ) :
    ({ (c.countReceived now).withOptions mss sack ranges with
        tsEnabled, tsRecent, lastAckSent, lastTsAck, rtt } : TcpConnection ρ).options = c.options ↔
      ((∀ m, mss = some m → m = c.peerMss ∧ m.toNat = c.congestion.mss) ∧
        (sack = true → c.peerSackPermitted = true ∧ c.sackPermitted = true) ∧
        ∀ e ∈ c.retransmitQueue, ∀ b ∈ ranges, inRange e b → e.sacked = true) ∧
      tsEnabled = c.tsEnabled ∧ tsRecent = c.tsRecent ∧ lastAckSent = c.lastAckSent ∧
        lastTsAck = c.lastTsAck ∧ rtt = c.rtt := by
  have hmss := mss_eq_iff mss c.congestion c.peerMss
  have hsack : (sack = true → c.peerSackPermitted = true ∧ c.sackPermitted = true) ↔
      (sack = true → c.peerSackPermitted = true) ∧ (sack = true → c.sackPermitted = true) := imp_and
  simp only [options, withOptions, countReceived, OptionState.mk.injEq, flag_eq_iff,
    map_markedBy_eq_iff]
  rw [← hmss, hsack]
  tauto

omit [RttEstimator ρ] in
theorem discards_of_unsynchronized (h : c.synchronized = false) : c.discards seg = false := by
  simp [discards, h]

/-- The estimate after a timestamp that echoes `ecr`. -/
def sampled (c : TcpConnection ρ) (ecr : BitVec 32) (now : ℕ) : ρ :=
  if ecr ≠ 0 ∧ 0 < (BitVec.ofNat 32 now).toNat - ecr.toNat then
    RttEstimator.updateSample c.rtt ((BitVec.ofNat 32 now).toNat - ecr.toNat)
  else c.rtt

theorem sampled_eq_iff {ecr : BitVec 32} : c.sampled ecr now = c.rtt ↔
    (ecr ≠ 0 → 0 < (BitVec.ofNat 32 now).toNat - ecr.toNat →
      RttEstimator.updateSample c.rtt ((BitVec.ofNat 32 now).toNat - ecr.toNat) = c.rtt) := by
  unfold sampled
  rw [ite_eq_right_iff, and_imp]

/-- A first SYN settles whether timestamps are in use; there is no PAWS test yet. -/
theorem syn_options_eq_iff (hsyn : seg.flags.syn = true) (hsync : c.synchronized = false) :
    (c.beforeRejection seg now).options = c.options ↔ c.Inert seg now := by
  have hd : c.discards seg = false := discards_of_unsynchronized hsync
  have hneg : ∀ ts, ((c.countReceived now).withOptions seg.lastMss seg.offersSack
      seg.sackRanges).negotiateTimestamps seg ts = _ :=
    fun ts => if_pos ⟨hsyn, Bool.eq_false_iff.mp hsync⟩
  unfold beforeRejection
  rw [receiveOptions_eq]
  dsimp only
  rw [hd, hneg]
  cases hts : seg.lastTimestamp with
  | none =>
    refine (stamped_options_iff c now seg.lastMss seg.offersSack seg.sackRanges false c.tsRecent
      c.lastAckSent c.lastTsAck c.rtt).trans ⟨?_, ?_⟩
    · rintro ⟨⟨hmss, hsack, hmarks⟩, henabled, -⟩
      exact ⟨hmss, hsack, hmarks, fun _ _ => by simp [hts, ← henabled], by simp [hts]⟩
    · intro h
      have henabled := (h.syn hsyn hsync).1
      rw [hts] at henabled
      exact ⟨⟨h.mss, h.sack, h.marks⟩, henabled.symm, rfl, rfl, rfl, rfl⟩
  | some ts =>
    obtain ⟨val, ecr⟩ := ts
    have hstamped := stamped_options_iff c now seg.lastMss seg.offersSack seg.sackRanges true
      (if seqGe val val && seqLe seg.seqNum (seg.seqNum + 1) then val else val) (seg.seqNum + 1) ecr
      (c.sampled ecr now)
    have hsame : (if seqGe val val && seqLe seg.seqNum (seg.seqNum + 1) then val else val) = val :=
      ite_self val
    refine hstamped.trans ⟨?_, ?_⟩ <;> rw [hsame, sampled_eq_iff]
    · rintro ⟨⟨hmss, hsack, hmarks⟩, henabled, hrecent, hsent, hecho, hsample⟩
      refine ⟨hmss, hsack, hmarks, fun _ _ => ?_, fun _ _ val' ecr' heq => ?_⟩
      · rw [hts, ← henabled]
        refine ⟨rfl, fun val' ecr' heq => ?_⟩
        cases heq
        exact ⟨hrecent.symm, hsent.symm⟩
      · rw [hts] at heq
        cases heq
        exact ⟨fun _ _ => hrecent.symm, hecho.symm, hsample⟩
    · intro h
      obtain ⟨henabled, hseed⟩ := h.syn hsyn hsync
      rw [hts] at henabled
      obtain ⟨hrecent, hsent⟩ := hseed val ecr hts
      obtain ⟨-, hecho, hsample⟩ := h.timestamp hd henabled val ecr hts
      exact ⟨⟨h.mss, h.sack, h.marks⟩, henabled.symm, hrecent.symm, hsent.symm, hecho.symm, hsample⟩

theorem later_options_eq_iff (hlater : ¬(seg.flags.syn = true ∧ ¬ c.synchronized = true)) :
    (c.beforeRejection seg now).options = c.options ↔ c.Inert seg now := by
  have hneg : ∀ ts, ((c.countReceived now).withOptions seg.lastMss seg.offersSack
      seg.sackRanges).negotiateTimestamps seg ts = _ := fun ts => if_neg hlater
  have hsettled : ∀ {p : Prop}, seg.flags.syn = true → c.synchronized = false → p :=
    fun hsyn hsync => absurd ⟨hsyn, Bool.eq_false_iff.mp hsync⟩ hlater
  have hquiet := stamped_options_iff c now seg.lastMss seg.offersSack seg.sackRanges c.tsEnabled
    c.tsRecent c.lastAckSent c.lastTsAck c.rtt
  simp only [and_self, and_true] at hquiet
  have hopts : ∀ h : (c.discards seg = false → c.tsEnabled = true → seg.lastTimestamp = none),
      ((∀ m, seg.lastMss = some m → m = c.peerMss ∧ m.toNat = c.congestion.mss) ∧
        (seg.offersSack = true → c.peerSackPermitted = true ∧ c.sackPermitted = true) ∧
        ∀ e ∈ c.retransmitQueue, ∀ b ∈ seg.sackRanges, inRange e b → e.sacked = true) ↔
      c.Inert seg now := by
    intro h
    constructor
    · rintro ⟨hmss, hsack, hmarks⟩
      refine ⟨hmss, hsack, hmarks, hsettled, fun hd henabled => ?_⟩
      rw [h hd henabled]
      simp
    · intro h
      exact ⟨h.mss, h.sack, h.marks⟩
  unfold beforeRejection
  rw [receiveOptions_eq]
  dsimp only
  rw [hneg]
  cases hd : c.discards seg with
  | true => exact hquiet.trans (hopts (by simp [hd]))
  | false =>
    have hif : (if ((c.countReceived now).withOptions seg.lastMss seg.offersSack
        seg.sackRanges).tsEnabled then seg.lastTimestamp else none) =
        if c.tsEnabled then seg.lastTimestamp else none := rfl
    rw [hif]
    cases hts : (if c.tsEnabled then seg.lastTimestamp else none) with
    | none =>
      refine hquiet.trans (hopts fun _ henabled => ?_)
      rw [henabled] at hts
      exact hts
    | some ts =>
      obtain ⟨val, ecr⟩ := ts
      have henabled : c.tsEnabled = true := by
        by_contra h
        rw [if_neg h] at hts
        cases hts
      rw [if_pos henabled] at hts
      have hstamped := stamped_options_iff c now seg.lastMss seg.offersSack
        seg.sackRanges c.tsEnabled
        (if seqGe val c.tsRecent && seqLe seg.seqNum c.lastAckSent then val else c.tsRecent)
        c.lastAckSent ecr (c.sampled ecr now)
      have hrecent : (if seqGe val c.tsRecent && seqLe seg.seqNum c.lastAckSent then val
          else c.tsRecent) = c.tsRecent ↔
          (seqGe val c.tsRecent = true → seqLe seg.seqNum c.lastAckSent = true →
            c.tsRecent = val) := by
        rw [ite_eq_right_iff, Bool.and_eq_true, and_imp, @eq_comm _ val]
      refine hstamped.trans ⟨?_, ?_⟩ <;> rw [hrecent, sampled_eq_iff]
      · rintro ⟨⟨hmss, hsack, hmarks⟩, -, hkept, -, hecho, hsample⟩
        refine ⟨hmss, hsack, hmarks, hsettled, fun _ _ val' ecr' heq => ?_⟩
        rw [hts] at heq
        cases heq
        exact ⟨hkept, hecho.symm, hsample⟩
      · intro h
        obtain ⟨hkept, hecho, hsample⟩ := h.timestamp hd henabled val ecr hts
        exact ⟨⟨h.mss, h.sack, h.marks⟩, rfl, hkept, rfl, hecho.symm, hsample⟩

/-- The options before the rejection are the old ones exactly if the segment's say nothing new. -/
theorem options_eq_iff (c : TcpConnection ρ) (seg : TcpSegment) (now : ℕ) :
    (c.beforeRejection seg now).options = c.options ↔ c.Inert seg now := by
  by_cases hsyn : seg.flags.syn = true ∧ ¬ c.synchronized = true
  · exact syn_options_eq_iff hsyn.1 (Bool.eq_false_iff.mpr hsyn.2)
  · exact later_options_eq_iff hsyn

theorem beforeRejection_lastAckSent (h : c.synchronized = true) :
    (c.beforeRejection seg now).lastAckSent = c.lastAckSent := by
  have hneg : ∀ ts, ((c.countReceived now).withOptions seg.lastMss seg.offersSack
      seg.sackRanges).negotiateTimestamps seg ts = _ := fun ts => if_neg fun hsyn => hsyn.2 h
  unfold beforeRejection
  rw [receiveOptions_eq]
  dsimp only
  rw [hneg]
  split
  · rfl
  · unfold recordTimestamp
    split <;> rfl

omit [RttEstimator ρ] in
/-- Counting and answering keep what the options left, apart from the acknowledgement sent. -/
theorem unmoved_iff_options {b : TcpConnection ρ} {reply : Option TcpSegment}
    (honly : OptionsOnly c b) (hclock : b.currentTimeMs = now) (hreply : Replied b c' reply)
    (hsent : reply ≠ none → b.lastAckSent = c.lastAckSent) :
    Unmoved c c' now reply ↔ b.options = c.options := by
  obtain ⟨stats, ack, wnd, hc', hquiet⟩ := hreply
  constructor
  · rintro ⟨stats', ack', wnd', hmoved, hkept⟩
    have hlast : b.lastAckSent = c.lastAckSent := by
      by_cases h : reply = none
      · have hack : c'.lastAckSent = ack' := by rw [hmoved]
        rw [← (hquiet h).1, ← (hkept h).1, ← hack, hc']
      · exact hsent h
    have hall := congrArg (fun c => { c.options with lastAckSent := b.lastAckSent })
      (hc'.symm.trans hmoved)
    have hoptions : b.options = { c.options with lastAckSent := b.lastAckSent } := hall
    rw [hoptions, hlast]
    rfl
  · intro hoptions
    have hwnd : b.lastAdvertisedWnd = c.lastAdvertisedWnd := by rw [honly]; rfl
    have hlast : b.lastAckSent = c.lastAckSent := congrArg OptionState.lastAckSent hoptions
    refine ⟨stats, ack, wnd, ?_, fun h => ?_⟩
    · rw [hc', honly, hoptions, hclock]
      rfl
    · rw [← hlast, ← hwnd]
      exact hquiet h

/-- A rejected segment leaves the connection as it was exactly if its options say nothing new. -/
theorem unmoved_iff_inert (h : c.Rejects seg) :
    Unmoved c (c.handleSegmentAt seg now).1 now (c.handleSegmentAt seg now).2 ↔
    c.Inert seg now := by
  obtain ⟨hreplied, hsync⟩ := rejected_replied now h
  obtain ⟨honly, hclock⟩ := beforeRejection_optionsOnly c seg now
  rw [← options_eq_iff, unmoved_iff_options honly hclock hreplied]
  intro hreply
  exact beforeRejection_lastAckSent (hsync hreply)

omit [RttEstimator ρ] in
instance (c : TcpConnection ρ) (seg : TcpSegment) : Decidable (c.Rejects seg) :=
  inferInstanceAs (Decidable (_ ∨ (_ ∧ _) ∨ (_ ∧ _)))

/-- A segment that is rejected carries only options that are held already. -/
def Harmless (c : TcpConnection ρ) : Call → Prop
  | .handleSegmentAt seg now => c.Rejects seg → c.Inert seg now
  | _ => True

end TcpConnection

open TcpConnection

/-- A rejected segment has no effect exactly if its options are held already; in a run in which all
rejected segments are such, none has an effect. -/
theorem rejected_segments_unmoving {ρ : Type} [RttEstimator ρ] :
    (∀ (c : TcpConnection ρ) (seg : TcpSegment) (now : ℕ), c.Rejects seg →
      (c.Unmoved (c.handleSegmentAt seg now).1 now (c.handleSegmentAt seg now).2 ↔
        c.Inert seg now)) ∧
    (∀ (st : Start) (r : Run ρ) (calls rest : List Call) (seg : TcpSegment) (now : ℕ),
      r.Opened st → r.Admits Harmless (calls ++ .handleSegmentAt seg now :: rest) →
      (r.run calls).conn.Rejects seg →
      (r.run calls).conn.Unmoved ((r.run calls).conn.handleSegmentAt seg now).1 now
        ((r.run calls).conn.handleSegmentAt seg now).2) := by
  refine ⟨fun c seg now h => unmoved_iff_inert h, ?_⟩
  intro st r calls rest seg now _ hadmits hrejects
  have hhere := hadmits.append.2.1
  exact (unmoved_iff_inert hrejects).mpr (hhere hrejects)

/-! ### Resets outside the window -/

/-- The handshake of a peer that negotiates nothing. -/
def opened : List Call :=
  [.handleSegmentAt (peerSegment 1000 0 .synOnly []) 0,
    .handleSegmentAt (peerSegment 1001 5001 .ackOnly []) 1]

def blindReset (options : List TcpOption) : TcpSegment :=
  { peerSegment 900000 0 { rst := true } [] with options }

example : ((Run.start host.listening : Run JacobsonRtt).run opened).conn.state = .established := by
  decide +kernel

theorem rejected_segments_unmoving_blindReset :
    let c : TcpConnection JacobsonRtt := ((Run.start host.listening).run opened).conn
    c.Rejects (blindReset []) ∧
      c.Unmoved (c.handleSegmentAt (blindReset []) 2).1 2
        (c.handleSegmentAt (blindReset []) 2).2 := by
  intro c
  have hrejects : c.Rejects (blindReset []) := by decide +kernel
  have hinert : c.Inert (blindReset []) 2 := by
    refine ⟨nofun, nofun, ?_, nofun, fun _ _ => nofun⟩
    intro e _ b hb
    cases hb
  have hadmits : (Run.start host.listening : Run JacobsonRtt).Admits Harmless
      (opened ++ [.handleSegmentAt (blindReset []) 2]) :=
    ⟨fun h => absurd h (by decide +kernel), fun h => absurd h (by decide +kernel),
      fun _ => hinert, trivial⟩
  exact ⟨hrejects, rejected_segments_unmoving.2 host (Run.start host.listening) opened []
    (blindReset []) 2 (.inl rfl) hadmits hrejects⟩

/-- A reset that is discarded sets the MSS of the connection and turns SACK on. -/
theorem blind_reset_renegotiates :
    let c : TcpConnection JacobsonRtt := ((Run.start host.listening).run opened).conn
    let c' := (c.handleSegmentAt (blindReset [.mss 1, .sackPermitted]) 2).1
    c.state = .established ∧ c.Rejects (blindReset [.mss 1, .sackPermitted]) ∧
      (c.peerMss, c.peerSackPermitted) = (1460, false) ∧
      (c'.peerMss, c'.peerSackPermitted) = (1, true) ∧
      ¬ c.Unmoved c' 2 (c.handleSegmentAt (blindReset [.mss 1, .sackPermitted]) 2).2 := by
  intro c c'
  have hbefore : (c.peerMss, c.peerSackPermitted) = (1460, false) := by decide +kernel
  have hafter : (c'.peerMss, c'.peerSackPermitted) = (1, true) := by decide +kernel
  refine ⟨by decide +kernel, by decide +kernel, hbefore, hafter, ?_⟩
  rintro ⟨stats, ack, wnd, hmoved, -⟩
  have hsame : (c'.peerMss, c'.peerSackPermitted) = (c.peerMss, c.peerSackPermitted) := by
    rw [hmoved]
  rw [hbefore, hafter] at hsame
  cases hsame

end ToyTcpip.Tcp
