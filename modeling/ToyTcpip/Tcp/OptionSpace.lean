import ToyTcpip.Tcp.Replies

/-! Which segments fit the option area of a TCP header. -/
namespace ToyTcpip.Tcp

namespace TcpOption

/-- The bytes an option takes in the header. -/
def wireLength : TcpOption → ℕ
  | .endOfOptions | .nop => 1
  | .mss _ => 4
  | .windowScale _ => 3
  | .sackPermitted => 2
  | .sack blocks => 2 + 8 * min blocks.length 4
  | .timestamp .. => 10
  | .unknown _ data => 2 + data.length

/-- Options whose length field cannot overflow. -/
def known : TcpOption → Bool
  | .unknown .. => false
  | _ => true

theorem flatMap_blocks_length (blocks : List (SeqNum × SeqNum)) :
    (blocks.flatMap fun b => toBeBytes32 b.1.toNat ++ toBeBytes32 b.2.toNat).length =
      8 * blocks.length := by
  induction blocks with
  | nil => rfl
  | cons b rest ih =>
    rw [List.flatMap_cons, List.length_append, ih, List.length_cons]
    have hb : (toBeBytes32 b.1.toNat ++ toBeBytes32 b.2.toNat).length = 8 := rfl
    omega

theorem encode_known {opt : TcpOption} (h : opt.known = true) :
    ∃ bytes, opt.encode = .ok bytes ∧ bytes.length = opt.wireLength := by
  cases opt with
  | sack blocks =>
    refine ⟨_, rfl, ?_⟩
    rw [List.length_append, flatMap_blocks_length, List.length_take]
    simp only [wireLength, List.length_cons, List.length_nil]
    omega
  | unknown => cases h
  | _ => exact ⟨_, rfl, rfl⟩

end TcpOption

def optionsLength (options : List TcpOption) : ℕ := (options.map (·.wireLength)).sum

/-- The option loop accepts known options exactly up to the size of the option area. -/
theorem encodeOptionsFrom_known {options : List TcpOption} (hk : ∀ o ∈ options, o.known = true)
    (acc : List UInt8) (hacc : acc.length ≤ tcpMaxOptionsLen) :
    (acc.length + optionsLength options ≤ tcpMaxOptionsLen →
      ∃ bytes, encodeOptionsFrom acc options = .ok bytes ∧
        bytes.length = acc.length + optionsLength options) ∧
    (tcpMaxOptionsLen < acc.length + optionsLength options →
      ∃ n, encodeOptionsFrom acc options = .error (.optionsTooLong n tcpMaxOptionsLen)) := by
  induction options generalizing acc with
  | nil => exact ⟨fun _ => ⟨acc, rfl, rfl⟩, fun h => by simp [optionsLength] at h; omega⟩
  | cons opt rest ih =>
    obtain ⟨bytes, henc, hlen⟩ := opt.encode_known (hk opt List.mem_cons_self)
    have hsum : optionsLength (opt :: rest) = opt.wireLength + optionsLength rest := by
      simp [optionsLength]
    have happ : (acc ++ bytes).length = acc.length + opt.wireLength := by simp [hlen]
    by_cases hfit : tcpMaxOptionsLen < (acc ++ bytes).length
    · refine ⟨fun h => by omega, fun _ => ⟨(acc ++ bytes).length, ?_⟩⟩
      simp only [encodeOptionsFrom, henc, hfit, if_true]
    · obtain ⟨hok, herr⟩ := ih (fun o ho => hk o (List.mem_cons_of_mem _ ho)) _
        (Nat.le_of_not_lt hfit)
      simp only [encodeOptionsFrom, henc, hfit, if_false, hsum]
      rw [happ, Nat.add_assoc] at hok herr
      exact ⟨hok, herr⟩

/-- The serializer accepts the segment, between any two addresses. -/
def Serializes (seg : TcpSegment) : Prop :=
  ∀ srcIp dstIp, ∃ bytes, seg.trySerializeWithOptions srcIp dstIp = .ok bytes

theorem padOptions_length {bytes : List UInt8} (h : bytes.length ≤ tcpMaxOptionsLen) :
    (padOptions bytes).length ≤ tcpMaxOptionsLen := by
  simp only [padOptions, List.length_append, List.length_replicate, tcpMaxOptionsLen] at *
  omega

/-- A segment with known options serializes exactly when they fit the option area. -/
theorem serializes_iff {seg : TcpSegment} (hk : ∀ o ∈ seg.options, o.known = true) :
    Serializes seg ↔ optionsLength seg.options ≤ tcpMaxOptionsLen := by
  obtain ⟨hok, herr⟩ := encodeOptionsFrom_known hk [] (Nat.zero_le _)
  simp only [List.length_nil, Nat.zero_add] at hok herr
  constructor
  · intro h
    by_contra hlong
    obtain ⟨n, hn⟩ := herr (Nat.lt_of_not_le hlong)
    obtain ⟨bytes, hb⟩ := h ⟨0, 0, 0, 0⟩ ⟨0, 0, 0, 0⟩
    simp [TcpSegment.trySerializeWithOptions, hn] at hb
  · intro h srcIp dstIp
    obtain ⟨bytes, hb, hlen⟩ := hok h
    have hpad : ¬ tcpMaxOptionsLen < (padOptions bytes).length :=
      Nat.not_lt_of_le (padOptions_length (hlen.trans_le h))
    simp only [TcpSegment.trySerializeWithOptions, hb, hpad, if_false]
    exact ⟨_, rfl⟩

/-! ### Along runs -/

/-- SACK and timestamps are both in use and the queue has four separate blocks to report. -/
def crowded (sack timestamps : Bool) (ooo : List OooSegment) : Bool :=
  sack && timestamps && 4 ≤ (ooo.foldl pushBlock []).length

theorem crowded_nil (sack timestamps : Bool) : crowded sack timestamps [] = false := by
  simp [crowded]

variable {ρ : Type}

namespace TcpConnection

def isCrowded (c : TcpConnection ρ) : Bool := crowded c.sackPermitted c.tsEnabled c.oooSegments

/-- The SACK and timestamp options a connection that is not crowded sends fit. -/
theorem ackOptions_fit {c : TcpConnection ρ} (h : c.isCrowded = false) (val ecr : BitVec 32) :
    (∀ o ∈ c.sackOptions ++ (if c.tsEnabled then [.timestamp val ecr] else []), o.known = true) ∧
      optionsLength (c.sackOptions ++ if c.tsEnabled then [.timestamp val ecr] else []) ≤ 40 := by
  have hsack : c.sackOptions = [] ∨ (c.sackPermitted = true ∧
      c.sackOptions = [.sack c.buildSackBlocks]) := by
    unfold sackOptions
    split
    · rename_i hs
      exact .inr ⟨hs.1, rfl⟩
    · exact .inl rfl
  have hlen : c.buildSackBlocks.length = min 4 (c.oooSegments.foldl pushBlock []).length :=
    List.length_take
  rcases hsack with hs | ⟨hp, hs⟩
  · rw [hs]
    split <;> simp [TcpOption.known, optionsLength, TcpOption.wireLength]
  · rw [hs]
    by_cases ht : c.tsEnabled = true
    · have hfew : (c.oooSegments.foldl pushBlock []).length < 4 := by
        simpa [isCrowded, crowded, hp, ht] using h
      simp [ht, TcpOption.known, optionsLength, TcpOption.wireLength, hlen]
      omega
    · simp [ht, TcpOption.known, optionsLength, TcpOption.wireLength, hlen]
      omega

end TcpConnection

theorem PureAck.serializes {c : TcpConnection ρ} {seg : TcpSegment} (h : PureAck c seg)
    (hc : c.isCrowded = false) : Serializes seg := by
  rcases h.options with ho | ⟨val, ecr, ho⟩
  · rw [serializes_iff] <;> simp [ho, optionsLength]
  · obtain ⟨hk, hl⟩ := TcpConnection.ackOptions_fit hc val ecr
    rw [serializes_iff] <;> rw [ho]
    · exact hl
    · exact hk

theorem Resent.serializes {c : TcpConnection ρ} {seg : TcpSegment} {r : SentRange}
    (h : Resent c seg r) (hc : c.isCrowded = false) : Serializes seg := by
  obtain ⟨mss, val, ecr, ho⟩ := h.options
  obtain ⟨hk, hl⟩ := TcpConnection.ackOptions_fit hc val ecr
  rw [serializes_iff] <;> rw [ho] <;> split
  · split <;> simp [optionsLength, TcpOption.wireLength, tcpMaxOptionsLen]
  · exact hl
  · split <;> simp [TcpOption.known]
  · exact hk

theorem serializes_bare {seg : TcpSegment} (h : seg.options = []) : Serializes seg := by
  rw [serializes_iff] <;> simp [h, optionsLength]

/-- A segment does not leave the connection with more blocks to report than the option area
takes: neither its options alone, nor with its payload taken in. -/
def Roomy (c : TcpConnection ρ) : Call → Prop
  | .handleSegmentAt seg _ =>
    crowded (c.sackAfter seg) (c.timestampsAfter seg) c.oooSegments = false ∧
    (taking c.state = true →
      crowded (c.sackAfter seg) (c.timestampsAfter seg) (c.acceptPayload seg).oooSegments = false)
  | _ => True

instance (c : TcpConnection ρ) : ∀ k, Decidable (Roomy c k)
  | .handleSegmentAt .. => inferInstanceAs (Decidable (_ ∧ (_ → _)))
  | .write _ | .read _ | .pollOutput _ | .initiateSynAt _ | .initiateCloseAt _ => isTrue trivial

theorem isCrowded_congr {c c' : TcpConnection ρ} (hr : c'.recv = c.recv) (ho : c'.opts = c.opts) :
    c'.isCrowded = c.isCrowded := by
  have hooo : c'.oooSegments = c.oooSegments := congrArg RecvView.oooSegments hr
  have hsack : c'.sackPermitted = c.sackPermitted := congrArg OptView.sackPermitted ho
  simp only [TcpConnection.isCrowded, hooo, hsack, TcpConnection.tsEnabled_congr ho]

theorem act_serializes {c c' : TcpConnection ρ} {out : List TcpSegment}
    (h : c.isCrowded = false) (step : LocalStep c c' out) :
    c'.isCrowded = false ∧ ∀ seg ∈ out, Serializes seg := by
  have hsame : ∀ {c' : TcpConnection ρ}, c'.recv = c.recv → c'.opts = c.opts →
      c'.isCrowded = false := fun hr ho => (isCrowded_congr hr ho).trans h
  cases step with
  | quiet same => exact ⟨hsame same.recv same.opts, by simp⟩
  | ack _ same reply =>
    have hc := hsame same.recv same.opts
    exact ⟨hc, by simpa using reply.serializes hc⟩
  | resend same again =>
    have hc := hsame same.recv same.opts
    exact ⟨hc, by simpa using again.serializes hc⟩
  | chunk _ _ _ _ _ recv opts _ _ out =>
    exact ⟨hsame recv opts, by simpa [out] using serializes_bare rfl⟩
  | fin _ _ _ recv opts _ _ out =>
    exact ⟨hsame recv opts, by simpa [out] using serializes_bare rfl⟩
  | expire _ _ recv opts => exact ⟨hsame recv opts, by simp⟩

theorem receive_serializes {c c' : TcpConnection ρ} {seg : TcpSegment} {reply : Option TcpSegment}
    {now : ℕ} (hok : Roomy c (.handleSegmentAt seg now)) (arrival : Arrival c seg c' reply) :
    c'.isCrowded = false ∧ ∀ r ∈ reply.toList, Serializes r := by
  have hopts := arrival_opts arrival
  have hsack : c'.sackPermitted = c.sackAfter seg := congrArg OptView.sackPermitted hopts
  have hts : c'.tsEnabled = c.timestampsAfter seg := congrArg OptView.tsEnabled hopts
  have hc : c'.isCrowded = false := by
    rw [TcpConnection.isCrowded, hsack, hts]
    rcases arrival_oooSegments arrival with ho | ho | ⟨ht, ho⟩
    · rw [ho]
      exact hok.1
    · rw [ho, crowded_nil]
    · rw [ho]
      exact hok.2 ht
  refine ⟨hc, ?_⟩
  obtain ⟨c₁, hp, hr⟩ := arrival
  intro r hmem
  rw [Option.mem_toList] at hmem
  cases hr with
  | ignore | reset | finAcked => cases hmem
  | answer _ same ack | activeOpen _ _ _ _ _ _ _ _ _ ack =>
    obtain rfl := Option.some.inj hmem
    exact ack.serializes hc
  | passiveOpen =>
    obtain rfl := Option.some.inj hmem
    rw [serializes_iff]
    · simp only [TcpConnection.segment, TcpConnection.timestampOptions]
      split <;> split <;> simp [optionsLength, TcpOption.wireLength, tcpMaxOptionsLen]
    · simp only [TcpConnection.segment, TcpConnection.timestampOptions]
      split <;> split <;> simp [TcpOption.known]
  | crossing =>
    obtain rfl := Option.some.inj hmem
    exact serializes_bare rfl
  | handshake _ _ _ _ _ _ _ _ acks | closeWait _ _ _ _ _ _ _ _ acks =>
    exact (acks r hmem).serializes hc
  | transfer _ _ _ _ _ _ acks =>
    rcases acks r hmem with ha | ⟨-, q, ha⟩
    · exact ha.serializes hc
    · exact ha.serializes hc

section runs

variable [RttEstimator ρ]

omit [RttEstimator ρ] in
theorem dial_serializes (c : TcpConnection ρ) (now : ℕ) :
    Serializes (c.initiateSynAt now).2 := by
  have ho : (c.initiateSynAt now).2.options = [.mss c.localMss, .sackPermitted] ++
      if c.tsEnabled then [.timestamp (BitVec.ofNat 32 now) 0] else [] := rfl
  rw [serializes_iff] <;> rw [ho] <;> split <;>
    simp [optionsLength, TcpOption.wireLength, tcpMaxOptionsLen, TcpOption.known]

theorem serializes_invariant :
    Run.Invariant (Roomy (ρ := ρ))
      (fun c sent => c.isCrowded = false ∧ ∀ seg ∈ sent, Serializes seg) where
  write := fun _ h => h
  read := fun len h => by
    refine ⟨?_, h.2⟩
    unfold TcpConnection.read
    split <;> exact h.1
  act := fun h step => by
    obtain ⟨hc, hout⟩ := act_serializes h.1 step
    exact ⟨hc, fun seg hseg => (List.mem_append.mp hseg).elim (h.2 seg) (hout seg)⟩
  abort := fun _ _ h => h
  receive := fun h hok arrival => by
    obtain ⟨hc, hout⟩ := receive_serializes hok arrival
    exact ⟨hc, fun seg hseg => (List.mem_append.mp hseg).elim (h.2 seg) (hout seg)⟩
  dial := fun h _ => ⟨h.1, fun seg hseg => (List.mem_append.mp hseg).elim (h.2 seg) fun hs => by
    rw [List.mem_singleton.mp hs]
    exact dial_serializes _ _⟩

/-- Every segment of every run serializes, as long as no arrival leaves the connection with
SACK and timestamps both in use and four separate blocks to report. -/
theorem sent_serializes (st : Start) {c : TcpConnection ρ}
    (hc : c = st.listening ∨ c = st.idle) (calls : List Call)
    (hok : Run.Admits Roomy (Run.start c) calls) :
    ∀ seg ∈ ((Run.start c).run calls).sent, Serializes seg := by
  refine (serializes_invariant.run ⟨?_, by simp [Run.start]⟩ hok).2
  rcases hc with rfl | rfl <;> exact crowded_nil _ _

end runs

/-- A peer's segment, with timestamp `val`. -/
def stampedSegment (seq ack : SeqNum) (flags : TcpFlags) (options : List TcpOption)
    (val : BitVec 32) (payload : List UInt8) : TcpSegment :=
  { peerSegment seq ack flags payload with options := options ++ [.timestamp val 0] }

/-- A passive open with SACK and timestamps, then `n` segments with a gap before each. -/
def gaps (n : ℕ) : List Call :=
  [.handleSegmentAt (stampedSegment 1000 0 .synOnly [.mss 1460, .sackPermitted] 1 []) 1,
    .handleSegmentAt (stampedSegment 1001 5001 .ackOnly [] 2 []) 2] ++
  (List.range n).map fun i =>
    .handleSegmentAt (stampedSegment (BitVec.ofNat 32 (1011 + 10 * i)) 5001 .ackOnly [] 3 [7]) 3

theorem sent_serializes_gaps :
    let r : Run JacobsonRtt := (Run.start host.listening).run (gaps 3)
    (r.sent.map fun seg => optionsLength seg.options) = [16, 20, 28, 36] ∧
      ∀ seg ∈ r.sent, Serializes seg :=
  ⟨by decide +kernel, sent_serializes host (.inl rfl) (gaps 3) (by decide +kernel)⟩

/-- The fourth gap makes the acknowledgement carry four SACK blocks and a timestamp: 44 bytes. -/
theorem four_gaps_overflow :
    ∃ seg ∈ ((Run.start (host.listening : TcpConnection JacobsonRtt)).run (gaps 4)).sent,
      seg.trySerializeWithOptions ⟨10, 0, 0, 2⟩ ⟨10, 0, 0, 1⟩ = .error (.optionsTooLong 44 40) := by
  decide +kernel

end ToyTcpip.Tcp
