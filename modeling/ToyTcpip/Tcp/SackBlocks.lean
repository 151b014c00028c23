import ToyTcpip.Tcp.ReceiveWindow

/-! What a SACK block promises: the bytes it covers stay queued until they are delivered. -/
namespace ToyTcpip.Tcp

open Serial

variable {ρ : Type} {c c' : TcpConnection ρ} {seg : TcpSegment} {out sent : List TcpSegment}
  {reply : Option TcpSegment} {b x : SeqNum} {lo w : ℕ} {ooo ooo' : List OooSegment}
  {e new : OooSegment}

/-! ### Sequence numbers in the queue -/

/-- A queued segment holds the byte with sequence number `x`. -/
def Holds (ooo : List OooSegment) (x : SeqNum) : Prop := ∃ e ∈ ooo, (x - e.1).toNat < e.2.length

/-- The sequence numbers a SACK block covers. -/
def inBlock (block : SeqNum × SeqNum) (x : SeqNum) : Prop :=
  (x - block.1).toNat < (block.2 - block.1).toNat

theorem mem_iff_offset (h : offset b e + e.2.length ≤ 65535) :
    (x - e.1).toNat < e.2.length ↔
      offset b e ≤ (x - b).toNat ∧ (x - b).toNat < offset b e + e.2.length := by
  simp only [offset, BitVec.toNat_sub] at h ⊢
  omega

/-- A block that starts and ends inside the window and is covered by queued segments. -/
structure Backed (b : SeqNum) (w : ℕ) (ooo : List OooSegment) (block : SeqNum × SeqNum) (i j : ℕ) :
    Prop where
  start : block.1 = pos b i
  stop : block.2 = pos b j
  lt : i < j
  last : ∃ e ∈ ooo, j = offset b e + e.2.length
  held : ∀ k, i ≤ k → k < j → ∃ e ∈ ooo, offset b e ≤ k ∧ k < offset b e + e.2.length

theorem pushBlock_backed (hw : w ≤ 65535) (h : Queued b lo w ooo) (he : e ∈ ooo)
    {blocks : List (SeqNum × SeqNum)} (hb : ∀ block ∈ blocks, ∃ i j, Backed b w ooo block i j) :
    ∀ block ∈ pushBlock blocks e, ∃ i j, Backed b w ooo block i j := by
  have hin := h.inside e he
  have hlen := List.length_pos_of_ne_nil hin.2.1
  have hsingle : Backed b w ooo (e.1, oooEnd e) (offset b e) (offset b e + e.2.length) :=
    ⟨seq_eq_pos b e, oooEnd_pos (seq_eq_pos b e), by omega, ⟨e, he, rfl⟩,
      fun k hlo hhi => ⟨e, he, hlo, hhi⟩⟩
  unfold pushBlock
  split
  · rename_i last hlast
    have hmem : last ∈ blocks := List.mem_of_getLast? hlast
    split
    · rename_i hadjacent
      intro block hblock
      rcases List.mem_append.mp hblock with hblock | hblock
      · exact hb block (List.mem_of_mem_dropLast hblock)
      · obtain rfl := List.mem_singleton.mp hblock
        obtain ⟨i, j, hlb⟩ := hb last hmem
        -- The last block ends where the new segment starts.
        have hj : j = offset b e := by
          obtain ⟨e', he', hj⟩ := hlb.last
          have hin' := h.inside e' he'
          rw [hlb.stop, seq_eq_pos b e] at hadjacent
          rcases Nat.le_total j (offset b e) with hle | hle
          · exact (pos_inj b hle (by omega)).mp hadjacent
          · exact ((pos_inj b hle (by omega)).mp hadjacent.symm).symm
        refine ⟨i, offset b e + e.2.length, hlb.start, hsingle.stop, ?_, ⟨e, he, rfl⟩, ?_⟩
        · have := hlb.lt
          omega
        · intro k hlo hhi
          by_cases hk : k < j
          · exact hlb.held k hlo hk
          · exact hsingle.held k (by omega) hhi
    · intro block hblock
      rcases List.mem_append.mp hblock with hblock | hblock
      · exact hb block hblock
      · obtain rfl := List.mem_singleton.mp hblock
        exact ⟨_, _, hsingle⟩
  · intro block hblock
    obtain rfl := List.mem_singleton.mp hblock
    exact ⟨_, _, hsingle⟩

theorem buildSackBlocks_backed (hw : w ≤ 65535) (h : Queued b lo w c.oooSegments) :
    ∀ block ∈ c.buildSackBlocks, ∃ i j, Backed b w c.oooSegments block i j := by
  suffices hgen : ∀ (rest : List OooSegment) (blocks : List (SeqNum × SeqNum)),
      (∀ e ∈ rest, e ∈ c.oooSegments) →
      (∀ block ∈ blocks, ∃ i j, Backed b w c.oooSegments block i j) →
      ∀ block ∈ rest.foldl pushBlock blocks, ∃ i j, Backed b w c.oooSegments block i j by
    intro block hblock
    exact hgen c.oooSegments [] (fun _ he => he) (by simp) block (List.mem_of_mem_take hblock)
  intro rest
  induction rest with
  | nil => exact fun blocks _ hb => hb
  | cons e rest ih =>
    intro blocks hrest hb
    exact ih _ (fun x hx => hrest x (List.mem_cons_of_mem _ hx))
      (pushBlock_backed hw h (hrest e List.mem_cons_self) hb)

/-- Every sequence number of a backed block is queued. -/
theorem Backed.holds {block : SeqNum × SeqNum} {i j : ℕ} (h : Backed b w ooo block i j)
    (hw : w ≤ 65535) (hq : Queued b lo w ooo) (hx : inBlock block x) : Holds ooo x := by
  obtain ⟨e', he', hj⟩ := h.last
  have hlt := h.lt
  have hin' := hq.inside e' he'
  have hx' : i ≤ (x - b).toNat ∧ (x - b).toNat < j := by
    rw [inBlock, h.start, h.stop, toNat_pos_sub_pos b hlt.le (by omega)] at hx
    simp only [pos, BitVec.toNat_sub, BitVec.toNat_add, BitVec.toNat_ofNat] at hx ⊢
    omega
  obtain ⟨e, he, hle, hhi⟩ := h.held _ hx'.1 hx'.2
  have hin := hq.inside e he
  exact ⟨e, he, (mem_iff_offset (by omega)).mpr ⟨hle, hhi⟩⟩

/-! ### What arrivals keep -/

/-- A segment that would be queued and covers queued ones fits the budget once these are gone.
The covered segments are dropped before the budget is looked at. -/
def Budgeted (c : TcpConnection ρ) (seg : TcpSegment) : Prop :=
  taking c.state = true → ∀ new ∈ c.trimToWindow seg.seqNum seg.payload, new.1 ≠ c.rcvNxt →
    TcpConnection.retainUncovered c.oooSegments new = c.oooSegments ∨
    TcpConnection.oooBytes (TcpConnection.retainUncovered c.oooSegments new) + new.2.length ≤
      maxOooBytes

instance (c : TcpConnection ρ) (seg : TcpSegment) : Decidable (Budgeted c seg) :=
  inferInstanceAs (Decidable (_ → ∀ new ∈ c.trimToWindow seg.seqNum seg.payload, _ → _ ∨ _))

theorem bufferOoo_holds (hw : w ≤ 65535) (h : Queued b lo w c.oooSegments)
    (hnew : offset b new + new.2.length ≤ w)
    (hbudget : TcpConnection.retainUncovered c.oooSegments new = c.oooSegments ∨
      TcpConnection.oooBytes (TcpConnection.retainUncovered c.oooSegments new) + new.2.length ≤
        maxOooBytes)
    (hx : Holds c.oooSegments x) : Holds (c.bufferOoo new).oooSegments x := by
  unfold TcpConnection.bufferOoo
  split
  · exact hx
  · dsimp only
    split
    · rename_i hover
      rcases hbudget with hall | hfits
      · rw [hall]
        exact hx
      · omega
    · obtain ⟨e, he, hxe⟩ := hx
      by_cases hkept : e ∈ TcpConnection.retainUncovered c.oooSegments new
      · refine ⟨e, ?_, hxe⟩
        rw [List.mem_insertionSort]
        exact List.mem_append_left _ hkept
      · -- A dropped segment lies inside the new one.
        have hin := h.inside e he
        have hcov : TcpConnection.coveredBy new e.1 (oooEnd e) = true := by
          rw [TcpConnection.retainUncovered, List.mem_filter, not_and] at hkept
          simpa only [TcpConnection.coveredBy, Bool.not_eq_true', Bool.not_eq_false] using hkept he
        rw [Queued.covered_iff hw hnew hin.2.2] at hcov
        rw [mem_iff_offset (b := b) (by omega)] at hxe
        refine ⟨new, ?_, (mem_iff_offset (b := b) (by omega)).mpr (by omega)⟩
        rw [List.mem_insertionSort]
        exact List.mem_append_right _ (List.mem_singleton.mpr rfl)

/-- A queued byte stays queued, or the receive position moves past it inside the window. -/
theorem acceptPayload_holds (hc : c.recv.Held) (hf : c.finReceived = false)
    (hstate : taking c.state = true) (hbudget : Budgeted c seg) (hx : Holds c.oooSegments x) :
    Holds (c.acceptPayload seg).oooSegments x ∨
      ∃ k r, x = pos c.rcvNxt k ∧ (c.acceptPayload seg).rcvNxt = pos c.rcvNxt r ∧ k < r ∧
        r ≤ 65535 := by
  have hlow : c.recv.lowest = 1 := by simp [RecvView.lowest, TcpConnection.recv, hf]
  have hq : Queued c.rcvNxt 1 c.recv.window c.oooSegments := hlow ▸ hc.queued
  have hle := c.recv.window_le
  unfold TcpConnection.acceptPayload
  split
  swap
  · exact .inl hx
  unfold TcpConnection.acceptData
  split
  · exact .inl hx
  rename_i e htrim
  obtain ⟨-, -, -, -, hne, hwin⟩ := TcpConnection.trimToWindow_spec htrim
  have hwin : offset c.rcvNxt e + e.2.length ≤ c.recv.window := hwin
  split
  · rename_i hat
    have hzero : offset c.rcvNxt e = 0 := by simp [offset, hat]
    obtain ⟨r, -, hr, hn, -, -, hall⟩ := hq.drain hle
      (d := ⟨c.rcvNxt + BitVec.ofNat 32 e.2.length, c.rxBuffer ++ e.2,
        c.stats.bytesReceived + e.2.length⟩) (k := e.2.length) rfl (by omega)
    obtain ⟨q, hqmem, hxq⟩ := hx
    rcases hall q hqmem with hleft | hbelow
    · exact .inl ⟨q, hleft, hxq⟩
    · have hin := hq.inside q hqmem
      rw [mem_iff_offset (b := c.rcvNxt) (by omega)] at hxq
      exact .inr ⟨(x - c.rcvNxt).toNat, r, eq_pos _ _, hn, by omega, by omega⟩
  · rename_i hgap
    exact .inl (bufferOoo_holds hle hq hwin (hbudget hstate e htrim hgap) hx)

/-- A reset: the peer's RST is accepted. -/
def TcpConnection.resetBy (c : TcpConnection ρ) : Call → Bool
  | .handleSegmentAt seg _ => seg.flags.rst && c.rstAcceptable seg
  | _ => false

theorem seqLt_of_lt {k r : ℕ} (hx : x = pos b k) (hkr : k < r) (hr : r ≤ 65536) :
    seqLt x (pos b r) = true := by
  rw [hx]
  exact (seqLt_pos (by omega) (by omega)).mpr hkr

theorem arrival_holds (h : Receiving c sent) (hbudget : Budgeted c seg) (now : ℕ)
    (arrival : Arrival c seg c' reply) (hx : Holds c.oooSegments x) :
    Holds c'.oooSegments x ∨ seqLt x c'.rcvNxt = true ∨
      c.resetBy (.handleSegmentAt seg now) = true := by
  obtain ⟨c₁, hp, hr⟩ := arrival
  have hooo : c₁.oooSegments = c.oooSegments := congrArg RecvView.oooSegments hp.recv
  have hheld : c₁.recv.Held := hp.recv ▸ h.windowed.held
  have hsame : c'.oooSegments = c₁.oooSegments → Holds c'.oooSegments x := by
    intro heq
    rw [heq, hooo]
    exact hx
  have hpayload : taking c₁.state = true → Holds (c₁.acceptPayload seg).oooSegments x ∨
      ∃ k r, x = pos c₁.rcvNxt k ∧ (c₁.acceptPayload seg).rcvNxt = pos c₁.rcvNxt r ∧ k < r ∧
        r ≤ 65535 := by
    intro ht
    have hf : c₁.finReceived = false :=
      (congrArg RecvView.finReceived hp.recv).trans (h.taken (hp.state ▸ ht))
    have hb₁ : Budgeted c₁ seg := by
      rw [Budgeted, hp.state, hooo, TcpConnection.trimToWindow_congr hp.recv,
        TcpConnection.rcvNxt_congr hp.recv]
      exact hbudget
    exact acceptPayload_holds hheld hf ht hb₁ (hooo ▸ hx)
  cases hr with
  | ignore same | answer _ same => exact .inl (hsame (congrArg RecvView.oooSegments same.recv))
  | reset rst ok =>
    refine .inr (.inr ?_)
    rw [TcpConnection.rstAcceptable_congr hp.state hp.recv hp.send] at ok
    simp [TcpConnection.resetBy, rst, ok]
  | passiveOpen _ _ _ _ recv | activeOpen _ _ _ _ _ recv | crossing _ _ _ _ recv
  | closeWait _ _ _ _ recv | finAcked _ _ _ recv =>
    exact .inl (hsame (congrArg RecvView.oooSegments recv))
  | handshake before _ _ _ recv =>
    rcases hpayload (by simp [before, taking]) with hk | ⟨k, r, hxk, hn, hkr, hr⟩
    · left
      rwa [show c'.oooSegments = (c₁.acceptPayload seg).oooSegments from
        congrArg RecvView.oooSegments recv]
    · right
      left
      rw [show c'.rcvNxt = (c₁.acceptPayload seg).rcvNxt from congrArg RecvView.rcvNxt recv, hn]
      exact seqLt_of_lt hxk hkr (by omega)
  | transfer before recv =>
    have ht : taking c₁.state = true := by rcases before with hb | hb | hb <;> simp [hb, taking]
    rcases hpayload ht with hk | ⟨k, r, hxk, hn, hkr, hr⟩
    · left
      rw [show c'.oooSegments = (c₁.acceptPayload seg).oooSegments by
        refine (congrArg RecvView.oooSegments recv).trans ?_
        unfold RecvView.afterFin
        split <;> rfl]
      exact hk
    · -- A FIN moves the position one further.
      right
      left
      have hn' : c'.rcvNxt = (((c₁.acceptPayload seg).recv).afterFin seg).rcvNxt :=
        congrArg RecvView.rcvNxt recv
      rw [hn', RecvView.afterFin]
      split
      · rw [show (c₁.acceptPayload seg).recv.rcvNxt = pos c₁.rcvNxt r from hn]
        change seqLt x (pos c₁.rcvNxt r + BitVec.ofNat 32 1) = true
        rw [pos_add_ofNat]
        exact seqLt_of_lt hxk (by omega) (by omega)
      · change seqLt x (c₁.acceptPayload seg).rcvNxt = true
        rw [hn]
        exact seqLt_of_lt hxk hkr (by omega)

/-! ### What is reported -/

theorem buildSackBlocks_congr (h : c'.oooSegments = c.oooSegments) :
    c'.buildSackBlocks = c.buildSackBlocks := by
  rw [TcpConnection.buildSackBlocks, TcpConnection.buildSackBlocks, h]

theorem ackOptions_ranges (val ecr : BitVec 32) (h : seg.options =
    c.sackOptions ++ if c.tsEnabled then [.timestamp val ecr] else []) :
    ∀ block ∈ seg.sackRanges, block ∈ c.buildSackBlocks := by
  intro block hblock
  rw [TcpSegment.sackRanges, h, TcpConnection.sackOptions] at hblock
  split at hblock
  · split at hblock <;> simpa [TcpOption.sackRanges] using hblock
  · split at hblock <;> simp [TcpOption.sackRanges] at hblock

theorem PureAck.ranges (h : PureAck c seg) : ∀ block ∈ seg.sackRanges, block ∈
    c.buildSackBlocks := by
  rcases h.options with ho | ⟨val, ecr, ho⟩
  · simp [TcpSegment.sackRanges, ho]
  · exact ackOptions_ranges val ecr ho

theorem Resent.ranges {r : SentRange} (h : Resent c seg r) :
    ∀ block ∈ seg.sackRanges, block ∈ c.buildSackBlocks := by
  obtain ⟨mss, val, ecr, ho⟩ := h.options
  by_cases hsyn : r.flags.syn = true
  · rw [if_pos hsyn] at ho
    cases hs : c.sackPermitted <;> simp [TcpSegment.sackRanges, ho, hs, TcpOption.sackRanges]
  · rw [if_neg hsyn] at ho
    exact ackOptions_ranges val ecr ho

theorem localStep_ranges (h : LocalStep c c' out) :
    ∀ seg ∈ out, ∀ block ∈ seg.sackRanges, block ∈ c'.buildSackBlocks := by
  cases h with
  | quiet | expire => simp
  | ack _ _ reply => simpa using reply.ranges
  | resend _ again => simpa using again.ranges
  | chunk _ _ _ _ _ _ _ _ _ out | fin _ _ _ _ _ _ _ out =>
    subst out
    simp [TcpConnection.segment, TcpSegment.sackRanges]

theorem localChain_ranges (h : LocalChain c c' out) : c'.oooSegments = c.oooSegments ∧
    ∀ seg ∈ out, ∀ block ∈ seg.sackRanges, block ∈ c'.buildSackBlocks := by
  induction h with
  | refl => simp
  | tail _ step ih =>
    have hooo := congrArg RecvView.oooSegments (localStep_recv step)
    refine ⟨hooo.trans ih.1, fun seg hseg block hblock => ?_⟩
    rcases List.mem_append.mp hseg with hseg | hseg
    · rw [buildSackBlocks_congr hooo]
      exact ih.2 seg hseg block hblock
    · exact localStep_ranges step seg hseg block hblock

theorem arrival_ranges (h : Arrival c seg c' reply) :
    ∀ r ∈ reply, ∀ block ∈ r.sackRanges, block ∈ c'.buildSackBlocks := by
  obtain ⟨c₁, hp, hr⟩ := h
  cases hr with
  | ignore | reset | finAcked => simp
  | answer _ _ ack => simpa using ack.ranges
  | passiveOpen =>
    intro r hr
    obtain rfl := Option.some.inj hr
    simp only [TcpConnection.segment, TcpSegment.sackRanges, TcpConnection.timestampOptions]
    split <;> split <;> simp [TcpOption.sackRanges]
  | activeOpen _ _ _ _ _ _ _ _ _ reply => simpa using reply.ranges
  | crossing =>
    intro r hr
    obtain rfl := Option.some.inj hr
    simp [TcpConnection.segment, TcpSegment.sackRanges]
  | handshake _ _ _ _ _ _ _ _ acks | closeWait _ _ _ _ _ _ _ _ acks =>
    exact fun r hr => (acks r hr).ranges
  | transfer _ _ _ _ _ _ acks =>
    intro r hr
    rcases acks r hr with ha | ⟨-, q, ha⟩
    · exact ha.ranges
    · exact ha.ranges

/-- The connection is opened once, and arrivals respect the budget of the queue. -/
def Careful (c : TcpConnection ρ) : Call → Prop
  | .handleSegmentAt seg _ => Budgeted c seg
  | .initiateSynAt _ => False
  | _ => True

instance (c : TcpConnection ρ) : ∀ k, Decidable (Careful c k)
  | .handleSegmentAt seg _ => inferInstanceAs (Decidable (Budgeted c seg))
  | .initiateSynAt _ => isFalse id
  | .write _ | .read _ | .pollOutput _ | .initiateCloseAt _ => isTrue trivial

theorem Careful.dials {k : Call} (h : Careful c k) : k.dials = false := by
  cases k <;> first | rfl | exact h.elim

theorem dial_ranges (c : TcpConnection ρ) (now : ℕ) : (c.initiateSynAt now).2.sackRanges = [] := by
  have ho : (c.initiateSynAt now).2.options = [.mss c.localMss, .sackPermitted] ++
      if c.tsEnabled then [.timestamp (BitVec.ofNat 32 now) 0] else [] := rfl
  rw [TcpSegment.sackRanges, ho]
  split <;> simp [TcpOption.sackRanges]

section runs

variable [RttEstimator ρ]

/-- Every block a call reports is one of the queue it leaves behind. -/
theorem call_ranges (c : TcpConnection ρ) {k : Call} (hk : k.dials = false) :
    ∀ seg ∈ (c.call k).2, ∀ block ∈ seg.sackRanges, block ∈ (c.call k).1.buildSackBlocks := by
  cases k with
  | write | read => simp [TcpConnection.call]
  | pollOutput now =>
    obtain ⟨c₁, hchain, ⟨-, heq⟩ | ⟨-, -, heq⟩⟩ := c.pollOutput_chain now
    · simp only [TcpConnection.call, heq]
      exact (localChain_ranges hchain).2
    · simp only [TcpConnection.call, heq]
      exact (localChain_ranges hchain).2
  | handleSegmentAt seg now =>
    intro r hr
    exact arrival_ranges (c.handleSegmentAt_arrival seg now) r (Option.mem_toList.mp hr)
  | initiateSynAt now => simp [Call.dials] at hk
  | initiateCloseAt now => exact (localChain_ranges (c.initiateCloseAt_chain now)).2

theorem call_holds (h : Receiving c sent) {k : Call} (hk : Careful c k)
    (hx : Holds c.oooSegments x) :
    Holds (c.call k).1.oooSegments x ∨ seqLt x (c.call k).1.rcvNxt = true ∨
      c.resetBy k = true := by
  cases k with
  | write => exact .inl hx
  | read len =>
    refine .inl ?_
    simp only [TcpConnection.call, TcpConnection.read]
    split <;> exact hx
  | pollOutput now =>
    obtain ⟨c₁, hchain, ⟨-, heq⟩ | ⟨-, -, heq⟩⟩ := c.pollOutput_chain now
    · simp only [TcpConnection.call, heq]
      exact .inl ((localChain_ranges hchain).1 ▸ hx)
    · simp only [TcpConnection.call, heq]
      exact .inl (show Holds c₁.oooSegments x from (localChain_ranges hchain).1 ▸ hx)
  | handleSegmentAt seg now => exact arrival_holds h hk now (c.handleSegmentAt_arrival seg now) hx
  | initiateSynAt now => exact hk.elim
  | initiateCloseAt now =>
    exact .inl ((localChain_ranges (c.initiateCloseAt_chain now)).1 ▸ hx)

/-- The byte `x` is queued now and after each call, until it falls below `rcv_nxt` or the
connection is reset. -/
def HeldUntil (x : SeqNum) : Run ρ → List Call → Prop
  | r, [] => Holds r.conn.oooSegments x
  | r, k :: rest => Holds r.conn.oooSegments x ∧
    (seqLt x (r.step k).conn.rcvNxt = true ∨ r.conn.resetBy k = true ∨ HeldUntil x (r.step k) rest)

theorem heldUntil {r : Run ρ} (h : Receiving r.conn r.sent) {calls : List Call}
    (hok : Run.Admits Careful r calls) (hx : Holds r.conn.oooSegments x) : HeldUntil x r calls := by
  induction calls generalizing r with
  | nil => exact hx
  | cons k rest ih =>
    refine ⟨hx, ?_⟩
    rcases call_holds h hok.1 hx with hx' | hbelow | hreset
    · refine .inr (.inr (ih ?_ hok.2 hx'))
      rcases receiving_invariant.step (.inr h) hok.1.dials with hf | hr
      · -- A connection with something queued is past its peer's SYN.
        obtain ⟨e, he, -⟩ := hx'
        have hempty : (r.conn.call k).1.oooSegments = [] := hf.oooSegments
        simp [hempty] at he
      · exact hr
    · exact .inl hbelow
    · exact .inr (.inl hreset)

/-- Whatever a call of the run reports as received out of order stays queued from then on, until
it falls below `rcv_nxt` or the connection is reset. -/
def SacksHeld (r : Run ρ) (calls : List Call) : Prop :=
  ∀ before k rest, calls = before ++ k :: rest → ∀ seg ∈ ((r.run before).conn.call k).2,
    ∀ block ∈ seg.sackRanges, ∀ x, inBlock block x → HeldUntil x ((r.run before).step k) rest

theorem sacksHeld {st : Start} {r : Run ρ} (hr : r.Opened st) {calls : List Call}
    (hok : Run.Admits Careful r calls) : SacksHeld r calls := by
  rintro before k rest rfl seg hseg block hblock x hx
  obtain ⟨hbefore, hk, hrest⟩ := hok.append
  have hbuilt := call_ranges (r.run before).conn hk.dials seg hseg block hblock
  have hinv := receiving_invariant.step
    (receiving_invariant.run (.inl (fresh_opened st hr))
      (hbefore.mono fun _ _ h => h.dials)) hk.dials
  rcases hinv with hf | h
  · have hempty : ((r.run before).conn.call k).1.oooSegments = [] := hf.oooSegments
    simp [TcpConnection.buildSackBlocks, hempty] at hbuilt
  · have hq := h.windowed.held.queued
    have hle := ((r.run before).step k).conn.recv.window_le
    obtain ⟨i, j, hback⟩ := buildSackBlocks_backed hle hq block hbuilt
    exact heldUntil h hrest (hback.holds hle hq hx)

end runs

end ToyTcpip.Tcp
