import ToyTcpip.Network.Streams
import ToyTcpip.Tcp.SackBlocks

/-! What a sender skips as selectively acknowledged is what its receiver still holds. -/
namespace ToyTcpip.Network

open Tcp Serial

variable {ρ : Type} {isn : SeqNum} {stream : List UInt8} {n bound : ℕ} {finAt : Option ℕ}
  {e e' : Endpoint ρ} {net out : List TcpSegment}

/-! ### The receiver's reports, in positions of the stream -/

/-- A block stands for a range of positions that have been received or are queued. -/
def Reports (isn : SeqNum) (bound : ℕ) (e : Endpoint ρ) (block : SeqNum × SeqNum) : Prop :=
  ∃ i j, block = (pos isn i, pos isn j) ∧ i < j ∧ j ≤ bound + 1 ∧
    ∀ p, i ≤ p → p < j → p < e.heard ∨ Holds e.conn.oooSegments (pos isn p)

/-- Everything ever reported is still held or has been received. -/
def Reported (isn : SeqNum) (bound : ℕ) (e : Endpoint ρ) (net : List TcpSegment) : Prop :=
  ∀ seg ∈ net, ∀ block ∈ seg.sackRanges, Reports isn bound e block

/-- The receive side as one connection sees it. -/
def Steady (c : TcpConnection ρ) (sent : List TcpSegment) : Prop := Fresh c sent ∨ Receiving c sent

theorem built_reports (h : RecvOk isn stream n finAt e) (hn : n < 2 ^ 31) (hb : n ≤ bound)
    (hs : Steady e.conn net) {block : SeqNum × SeqNum} (hblock : block ∈ e.conn.buildSackBlocks) :
    Reports isn bound e block := by
  rcases hs with hf | hr
  · simp [TcpConnection.buildSackBlocks, hf.oooSegments] at hblock
  have hq : Queued e.conn.rcvNxt e.conn.recv.lowest e.conn.recv.window e.conn.oooSegments :=
    hr.windowed.held.queued
  have hle := e.conn.recv.window_le
  obtain ⟨i, j, hback⟩ := buildSackBlocks_backed hle hq block hblock
  obtain ⟨q, hqmem, hj⟩ := hback.last
  have hin := hq.inside q hqmem
  have hsync : e.synced = true := by
    by_contra hs
    have hempty := (h.fresh (by simpa using hs)).2.1
    simp [hempty] at hqmem
  have hnxt := AckOk.nxt_heard h hsync
  have hheard := h.heard_le
  -- The last segment of the block lies in the stream, so the block ends there.
  obtain ⟨p, hp, -, hpn⟩ := h.placed q hqmem
  have hpos : e.heard + offset e.conn.rcvNxt q = 1 + p := by
    have hseq := seq_eq_pos e.conn.rcvNxt q
    rw [hp] at hseq
    generalize offset e.conn.rcvNxt q = o at hseq hin
    rw [hnxt, pos_pos] at hseq
    rcases Nat.le_total (1 + p) (e.heard + o) with hle | hle
    · exact ((pos_inj isn hle (by omega)).mp hseq).symm
    · exact (pos_inj isn hle (by omega)).mp hseq.symm
  have hlt := hback.lt
  refine ⟨e.heard + i, e.heard + j, ?_, by omega, by omega, fun k hlo hhi => .inr ?_⟩
  · rw [← pos_pos, ← pos_pos, ← hnxt, ← hback.start, ← hback.stop]
  · obtain ⟨q', hq', hk⟩ := hback.held (k - e.heard) (by omega) (by omega)
    have hin' := hq.inside q' hq'
    refine ⟨q', hq', (mem_iff_offset (b := e.conn.rcvNxt) (by omega)).mpr ?_⟩
    have hk' : (pos isn k - e.conn.rcvNxt).toNat = k - e.heard := by
      rw [hnxt, toNat_pos_sub_pos isn (by omega) (by omega)]
    rw [hk']
    exact hk

namespace Reported

theorem extend (h : Reported isn bound e net)
    (hkeep : ∀ p ≤ bound, p < e.heard ∨ Holds e.conn.oooSegments (pos isn p) →
      p < e'.heard ∨ Holds e'.conn.oooSegments (pos isn p))
    (hnew : ∀ seg ∈ out, ∀ block ∈ seg.sackRanges, Reports isn bound e' block) :
    Reported isn bound e' (net ++ out) := by
  intro seg hseg block hblock
  rcases List.mem_append.mp hseg with hseg | hseg
  · obtain ⟨i, j, heq, hij, hj, hall⟩ := h seg hseg block hblock
    exact ⟨i, j, heq, hij, hj, fun p hlo hhi => hkeep p (by omega) (hall p hlo hhi)⟩
  · exact hnew seg hseg block hblock

theorem mono {bound' : ℕ} (h : Reported isn bound e net) (hb : bound ≤ bound') :
    Reported isn bound' e net := by
  intro seg hseg block hblock
  obtain ⟨i, j, heq, hij, hj, hall⟩ := h seg hseg block hblock
  exact ⟨i, j, heq, hij, by omega, hall⟩

/-- The queue and the receive position are where they were, and nothing is sent. -/
theorem same (h : Reported isn bound e net) (hheard : e'.heard = e.heard)
    (hooo : e'.conn.oooSegments = e.conn.oooSegments) : Reported isn bound e' net := by
  rw [← List.append_nil net]
  refine h.extend (fun p _ hp => ?_) (by simp)
  rwa [hheard, hooo]

theorem act {c' : TcpConnection ρ} (h : Reported isn bound e net)
    (hr : RecvOk isn stream n finAt e) (hn : n < 2 ^ 31) (hb : n ≤ bound) (hs : Steady e.conn net)
    (step : LocalStep e.conn c' out) : Reported isn bound (e.act c') (net ++ out) := by
  have hooo : (e.act c').conn.oooSegments = e.conn.oooSegments :=
    congrArg RecvView.oooSegments (localStep_recv step)
  refine h.extend (fun p _ hp => ?_) fun seg hseg block hblock => ?_
  · rwa [heard_act step, hooo]
  · have hbuilt := localStep_ranges step seg hseg block hblock
    rw [(buildSackBlocks_congr hooo : c'.buildSackBlocks = e.conn.buildSackBlocks)] at hbuilt
    obtain ⟨i, j, heq, hij, hj, hall⟩ := built_reports hr hn hb hs hbuilt
    refine ⟨i, j, heq, hij, hj, fun p hlo hhi => ?_⟩
    rw [heard_act step, hooo]
    exact hall p hlo hhi

theorem receive {c' : TcpConnection ρ} {seg : TcpSegment} {reply : Option TcpSegment} {n' : ℕ}
    (h : Reported isn bound e net) (hr : RecvOk isn stream n finAt e)
    (hr' : RecvOk isn stream n' finAt (e.receive c')) (hb : n' ≤ bound) (hbound : bound < 2 ^ 31)
    (hs : Steady e.conn net) (hs' : Steady c' (net ++ reply.toList)) (hrst : seg.flags.rst = false)
    (hbudget : Budgeted e.conn seg) (arrival : Arrival e.conn seg c' reply) :
    Reported isn bound (e.receive c') (net ++ reply.toList) := by
  have hmono : e.heard ≤ (e.receive c').heard := AckOk.heard_receive arrival
  refine h.extend (fun p hp hor => ?_) fun r hmem block hblock => ?_
  · rcases hor with hlt | hx
    · exact .inl (by omega)
    · rcases hs with hf | hrec
      · obtain ⟨q, hq, -⟩ := hx
        simp [hf.oooSegments] at hq
      · rcases arrival_holds hrec hbudget 0 arrival hx with hx' | hbelow | hreset
        · exact .inr hx'
        · left
          have hsync : e.synced = true := by
            by_contra hns
            obtain ⟨q, hq, -⟩ := hx
            simp [(hr.fresh (by simpa using hns)).2.1] at hq
          have hnxt : c'.rcvNxt = pos isn (e.receive c').heard :=
            AckOk.nxt_heard hr' (by simp [Endpoint.receive, hsync])
          -- The position is one of the stream, so the comparison means what it says.
          by_contra hge
          rw [hnxt, seqLt_pos (by omega) (by omega)] at hbelow
          exact hge hbelow
        · simp [TcpConnection.resetBy, hrst] at hreset
  · exact built_reports hr' (by omega) hb hs'
      (arrival_ranges arrival r (Option.mem_toList.mp hmem) block hblock)

end Reported

/-! ### The sender's marks -/

/-- Every entry the sender skips lies inside a range its peer has reported, and the range of an
entry with data is that of the data. -/
structure Marked (c : TcpConnection ρ) (peer : List TcpSegment) : Prop where
  marks : ∀ r ∈ c.retransmitQueue, r.sacked = true →
    ∃ seg ∈ peer, ∃ block ∈ seg.sackRanges, inRange r block
  ends : ∀ r ∈ c.send.queue, r.payload ≠ [] →
    r.endSeq = r.seqNum + BitVec.ofNat 32 r.payload.length

namespace Marked

variable {c c' : TcpConnection ρ} {peer : List TcpSegment} {seg : TcpSegment}
  {reply : Option TcpSegment}

theorem inRange_congr {r r' : RetransmitSegment} (h : r.range = r'.range)
    (block : SeqNum × SeqNum) : inRange r block ↔ inRange r' block := by
  have hseq : r.seqNum = r'.seqNum := congrArg SentRange.seqNum h
  have hend : r.endSeq = r'.endSeq := congrArg SentRange.endSeq h
  rw [inRange, inRange, hseq, hend]

theorem mono (h : Marked c peer) (out : List TcpSegment) : Marked c (peer ++ out) where
  marks := fun r hr hs => by
    obtain ⟨seg, hseg, hblock⟩ := h.marks r hr hs
    exact ⟨seg, List.mem_append_left _ hseg, hblock⟩
  ends := h.ends

theorem keep (h : Marked c peer) (hm : MarksFrom c c')
    (he : ∀ r ∈ c'.send.queue, r ∈ c.send.queue ∨
      (r.payload ≠ [] → r.endSeq = r.seqNum + BitVec.ofNat 32 r.payload.length)) :
    Marked c' peer where
  marks := fun r hr hs => by
    obtain ⟨r', hr', hs', hrange⟩ := hm r hr hs
    obtain ⟨seg, hseg, block, hblock, hin⟩ := h.marks r' hr' hs'
    exact ⟨seg, hseg, block, hblock, (inRange_congr hrange block).mp hin⟩
  ends := fun r hr hp => (he r hr).elim (fun hr => h.ends r hr hp) fun hend => hend hp

theorem act (h : Marked c peer) (step : LocalStep c c' out) : Marked c' peer := by
  cases step with
  | quiet same | ack _ same _ | resend same _ =>
    exact h.keep same.marks fun r hr => .inl (same.send ▸ hr)
  | chunk _ _ _ _ _ _ _ send marks =>
    refine h.keep marks fun r hr => ?_
    rw [send] at hr
    rcases List.mem_append.mp hr with hr | hr
    · exact .inl hr
    · obtain rfl := List.mem_singleton.mp hr
      exact .inr fun _ => rfl
  | fin _ _ _ _ _ send marks =>
    refine h.keep marks fun r hr => ?_
    rw [send] at hr
    rcases List.mem_append.mp hr with hr | hr
    · exact .inl hr
    · obtain rfl := List.mem_singleton.mp hr
      exact .inr fun hne => absurd rfl hne
  | expire _ _ _ _ send marks => exact h.keep marks fun r hr => .inl (send ▸ hr)

theorem receive (h : Marked c peer) (hseg : seg ∈ peer) (arrival : Arrival c seg c' reply) :
    Marked c' peer := by
  obtain ⟨c₁, hp, hr⟩ := arrival
  have h₁ : Marked c₁ peer := by
    refine ⟨fun r hr hs => ?_, by rw [hp.send]; exact h.ends⟩
    rcases hp.marks r hr hs with ⟨r', hr', hs', hrange⟩ | ⟨block, hblock, hin⟩
    · obtain ⟨seg', hseg', block, hblock, hin⟩ := h.marks r' hr' hs'
      exact ⟨seg', hseg', block, hblock, (inRange_congr hrange block).mp hin⟩
    · exact ⟨seg, hseg, block, hblock, hin⟩
  cases hr with
  | ignore same | answer _ same => exact h₁.keep same.marks fun r hr => .inl (same.send ▸ hr)
  | reset _ _ _ _ send _ marks =>
    refine h₁.keep marks fun r hr => ?_
    rw [send] at hr
    cases hr
  | passiveOpen _ _ _ _ _ send _ marks =>
    refine h₁.keep marks fun r hr => ?_
    rw [send] at hr
    rcases List.mem_append.mp hr with hr | hr
    · exact .inl hr
    · obtain rfl := List.mem_singleton.mp hr
      exact .inr fun hne => absurd rfl hne
  | crossing _ _ _ _ _ send _ marks => exact h₁.keep marks fun r hr => .inl (send ▸ hr)
  | activeOpen _ _ _ _ _ _ send _ marks | handshake _ _ _ _ _ send _ marks
  | closeWait _ _ _ _ _ send _ marks | finAcked _ _ _ _ send _ marks =>
    exact h₁.keep marks fun r hr => .inl (List.mem_of_mem_filter (send ▸ hr))
  | transfer _ _ _ send _ marks => exact h₁.keep marks fun r hr => .inl (send.keeps.2.2.2 r hr)

end Marked

/-! ### Both ends -/

/-- The invariant of a system in which reports are kept. -/
structure SackOk (isn : Side → SeqNum) (passive : Side → Bool) (s : System ρ) : Prop where
  steady : ∀ z, Steady (s.conn z) (s.net z)
  marked : ∀ z, Marked (s.conn z) (s.net z.peer)
  joint : Short s → Coherent isn passive s ∧
    ∀ z, Reported (isn z.peer) (s.ends z.peer).accepted.length (s.ends z) (s.net z)

section system

variable {s : System ρ} {x : Side} {isn : Side → SeqNum} {passive : Side → Bool}

theorem SackOk.put (h : SackOk isn passive s) {e : Endpoint ρ} {out : List TcpSegment}
    (hsteady : Steady e.conn (s.net x ++ out)) (hmarked : Marked e.conn (s.net x.peer))
    (hgrow : (s.ends x).accepted.length ≤ e.accepted.length)
    (hco : Short (s.put x e out) → Coherent isn passive (s.put x e out))
    (hrep : Short s → Coherent isn passive s →
      Reported (isn x.peer) (s.ends x.peer).accepted.length (s.ends x) (s.net x) →
      Coherent isn passive (s.put x e out) →
      Reported (isn x.peer) (s.ends x.peer).accepted.length e (s.net x ++ out)) :
    SackOk isn passive (s.put x e out) := by
  refine ⟨fun z => ?_, fun z => ?_, fun hshort => ⟨hco hshort, fun z => ?_⟩⟩
  · rcases x.eq_or_peer z with rfl | rfl
    · simpa [System.conn] using hsteady
    · simpa [System.conn] using h.steady x.peer
  · rcases x.eq_or_peer z with rfl | rfl
    · simpa [System.conn] using hmarked
    · have hm := (h.marked x.peer).mono out
      simpa [System.conn] using hm
  · obtain ⟨hcoh, hall⟩ := h.joint (hshort.before hgrow)
    rcases x.eq_or_peer z with rfl | rfl
    · simpa using hrep (hshort.before hgrow) hcoh (hall z) (hco hshort)
    · have hr := hall x.peer
      simp only [Side.peer_peer] at hr
      simpa using hr.mono hgrow

/-- The network delivers no segment that would make a receiver drop queued ones for nothing. -/
def BudgetedAll (s : System ρ) (x : Side) (seg : TcpSegment) : Prop := Budgeted (s.conn x) seg

instance (s : System ρ) (x : Side) (seg : TcpSegment) : Decidable (BudgetedAll s x seg) :=
  inferInstanceAs (Decidable (Budgeted (s.conn x) seg))

theorem sackOk_invariant [RttEstimator ρ] (isn : Side → SeqNum) {passive : Side → Bool}
    (hp : ∀ x, passive x = false → passive x.peer = true) :
    System.Invariant (BudgetedAll (ρ := ρ)) (SackOk isn passive) where
  write := fun {s x} data h => by
    have hco := (coherent_invariant_of_passive (ρ := ρ) isn hp).write (x := x) data
      fun hs => (h.joint hs).1
    refine h.put ?_ ?_ (by simp [Endpoint.write]) hco fun _ _ hr _ => ?_
    · rw [List.append_nil]
      exact receiving_invariant.write data (h.steady x)
    · exact (h.marked x).keep (.refl _) fun r hr => .inl hr
    · rw [List.append_nil]
      exact hr.same rfl rfl
  read := fun {s x} len h => by
    have hco := (coherent_invariant_of_passive (ρ := ρ) isn hp).read (x := x) len
      fun hs => (h.joint hs).1
    have hv := (s.ends x).read_views len
    refine h.put ?_ ?_ le_rfl hco fun _ _ hr _ => ?_
    · rw [List.append_nil]
      exact receiving_invariant.read len (h.steady x)
    · have hm := h.marked x
      simp only [Endpoint.read, TcpConnection.read]
      split
      · exact hm
      · exact hm.keep (.refl _) fun r hr => .inl hr
    · rw [List.append_nil]
      refine hr.same hv.1 ?_
      simp only [Endpoint.read, TcpConnection.read]
      split <;> rfl
  act := fun {s x c' out} h step => by
    have hco := (coherent_invariant_of_passive (ρ := ρ) isn hp).act (x := x)
      (fun hs => (h.joint hs).1) step
    refine h.put (receiving_invariant.act (h.steady x) step) ((h.marked x).act step) le_rfl hco
      fun hshort hcoh hr _ => ?_
    obtain ⟨n, hn⟩ := hcoh
    have hle := (hn x.peer).send.le
    exact hr.act (hn x).recv (hle.trans_lt (hshort _)) hle (h.steady x) step
  abort := fun {s x} h hq => by
    have hco := (coherent_invariant_of_passive (ρ := ρ) isn hp).abort (x := x)
      (fun hs => (h.joint hs).1) hq
    refine h.put ?_ ?_ le_rfl hco fun _ _ hr _ => ?_
    · rw [List.append_nil]
      exact (h.steady x).imp (·.abort) (·.abort)
    · exact (h.marked x).keep (fun r hr => by cases hr) fun r hr => by cases hr
    · rw [List.append_nil]
      exact hr.same rfl rfl
  receive := fun {s x seg c' reply} h hseg hok arrival => by
    have hco := (coherent_invariant_of_passive (ρ := ρ) isn hp).receive (x := x)
      (fun hs => (h.joint hs).1) hseg trivial arrival
    have hsteady : Steady c' (s.net x ++ reply.toList) :=
      receiving_invariant.receive (h.steady x) (rfl : (Call.handleSegmentAt seg 0).dials =
        false) arrival
    refine h.put hsteady ((h.marked x).receive hseg arrival) le_rfl hco
      fun hshort hcoh hr hcoh' => ?_
    obtain ⟨n, hn⟩ := hcoh
    obtain ⟨n', hn'⟩ := hcoh'
    have hgen := (hn x.peer).send.net seg hseg
    have hr' := (hn' x).recv
    have hle' := (hn' x.peer).send.le
    rw [System.put_ends_self, System.put_ends_peer] at hr'
    rw [System.put_ends_peer] at hle'
    exact hr.receive (hn x).recv hr' hle' (hshort x.peer) (h.steady x) hsteady hgen.rst hok arrival

/-- A skipped entry lies inside a reported range, so its bytes are accounted for. -/
theorem SackOk.skipped (h : SackOk isn passive s) (hshort : Short s) {r : RetransmitSegment}
    (hr : r ∈ (s.conn x).retransmitQueue) (hs : r.sacked = true) {k : ℕ}
    (hk : k < r.payload.length) :
    seqLt (r.seqNum + BitVec.ofNat 32 k) (s.conn x.peer).rcvNxt = true ∨
      Holds (s.conn x.peer).oooSegments (r.seqNum + BitVec.ofNat 32 k) := by
  obtain ⟨⟨n, hn⟩, hrep⟩ := h.joint hshort
  obtain ⟨seg, hseg, block, hblock, hge, hle⟩ := (h.marked x).marks r hr hs
  obtain ⟨i, j, rfl, hij, hj, hall⟩ := hrep x.peer seg hseg block hblock
  rw [Side.peer_peer] at hge hle hj hall
  have hbound := hshort x
  have hn' := (hn x).send.le
  have hmem : r.range ∈ (s.ends x).conn.send.queue := List.mem_map_of_mem hr
  have hne : r.payload ≠ [] := List.ne_nil_of_length_pos (by omega)
  have hend : r.endSeq = r.seqNum + BitVec.ofNat 32 r.payload.length :=
    (h.marked x).ends r.range hmem hne
  -- An entry with data is a piece of the stream.
  obtain ⟨p, hp, hpn⟩ : ∃ p, r.seqNum = pos (isn x) (1 + p) ∧ p + r.payload.length ≤ n x := by
    have hgen := (hn x).send.queue r.range hmem
    change Genuine _ _ _ _ r.seqNum r.flags r.payload at hgen
    generalize r.seqNum = seq, r.payload = payload at hgen hne
    cases hgen with
    | data _ _ _ _ sent => exact ⟨_, rfl, sent⟩
    | empty | last | first | crossed => exact absurd rfl hne
  rw [hend, hp, pos_add_ofNat, seqLe_pos (by omega) (by omega)] at hle
  rw [hp, seqGe_pos (by omega) (by omega)] at hge
  rw [hp, pos_add_ofNat]
  have hr' := (hn x.peer).recv
  have hheard := hr'.heard_le
  rw [Side.peer_peer] at hheard hr'
  rcases hall (1 + p + k) (by omega) (by omega) with hlt | hheld
  · left
    have hsync : (s.ends x.peer).synced = true := by
      by_contra hns
      simp [Endpoint.heard, hns] at hlt
    rw [show (s.conn x.peer).rcvNxt = _ from AckOk.nxt_heard hr' hsync]
    exact (seqLt_pos (by omega) (by omega)).mpr hlt
  · exact .inr hheld

end system

section runs

variable [RttEstimator ρ]

theorem sackOk_connecting (sides : Side → Start) :
    SackOk (fun x => (sides x).isn) (· = .right) (System.connecting sides : System ρ) := by
  refine ⟨fun z => .inl ?_, fun z => ?_, fun _ => ⟨start_coherent _ sides, fun z => ?_⟩⟩
  · cases z with
    | left => exact fresh_opened (sides .left) (r := ⟨_, _⟩) (.inr rfl)
    | right => exact fresh_opened (sides .right) (r := ⟨_, _⟩) (.inl rfl)
  · cases z with
    | left =>
      refine ⟨fun r hr hs => ?_, fun r hr hne => ?_⟩
      · obtain rfl := List.mem_singleton.mp hr
        cases hs
      · obtain rfl := List.mem_singleton.mp hr
        exact absurd rfl hne
    | right =>
      refine ⟨fun r hr => ?_, fun r hr => ?_⟩
      · cases hr
      · cases hr
  · cases z with
    | left =>
      intro seg hseg block hblock
      obtain rfl := List.mem_singleton.mp hseg
      rw [Start.dialing, dial_ranges] at hblock
      cases hblock
    | right =>
      intro seg hseg
      cases hseg

/-- Every byte of an entry that `retransmit_oldest` skips has been received or is queued. -/
def SkipsHeld (s : System ρ) : Prop :=
  ∀ x, ∀ r ∈ (s.conn x).retransmitQueue, r.sacked = true → ∀ k < r.payload.length,
    seqLt (r.seqNum + BitVec.ofNat 32 k) (s.conn x.peer).rcvNxt = true ∨
      Holds (s.conn x.peer).oooSegments (r.seqNum + BitVec.ofNat 32 k)

/-- Nothing that was reported as received out of order is given up, so long as no segment that
covers queued ones arrives beyond the budget: neither by one connection under any segments, nor
by the receiver of a sender that skips what was reported. -/
theorem sack_no_reneging :
    (∀ (st : Start) (r : Run ρ) (calls : List Call), r.Opened st → Run.Admits Careful r calls →
      SacksHeld r calls) ∧
    ∀ (sides : Side → Start) (actions : List Action),
      System.AdmitsAll BudgetedAll (System.connecting sides : System ρ) actions →
      Short ((System.connecting sides : System ρ).run actions) →
      SkipsHeld ((System.connecting sides : System ρ).run actions) := by
  refine ⟨fun st r calls hr hok => sacksHeld hr hok, fun sides actions hok hshort => ?_⟩
  have hroles : ∀ z : Side, decide (z = .right) = false → decide (z.peer = .right) = true := by
    intro z
    cases z <;> simp [Side.peer]
  intro x r hr hs k hk
  exact ((sackOk_invariant _ hroles).run (sackOk_connecting sides) hok).skipped hshort hr hs hk

end runs

/-- A passive open that permits SACK, and ten bytes far ahead. -/
def farAhead : List Call :=
  [.handleSegmentAt { peerSegment 1000 0 .synOnly [] with options := [.sackPermitted] } 1,
    .handleSegmentAt (peerSegment 1001 5001 .ackOnly []) 2,
    .handleSegmentAt (peerSegment 61001 5001 .ackOnly (List.replicate 10 0)) 3]

example : ((Run.start host.listening : Run JacobsonRtt).run farAhead).conn.rcvNxt = 1001 := by
  decide +kernel

/-- A handshake, two bytes in separate segments of which the second arrives alone, and the
acknowledgement that reports it. -/
def secondFirst : List Action :=
  [.deliver .right 0 1, .deliver .left 0 2, .deliver .right 1 3, .write .left [1],
    .pollOutput .left 4, .write .left [2], .pollOutput .left 5, .deliver .right 3 6,
    .deliver .left 1 7]

theorem short_secondFirst :
    Short ((System.connecting loopback : System JacobsonRtt).run secondFirst) := by
  intro x
  cases x <;> decide +kernel

theorem sack_no_reneging_secondFirst :
    let r : Run JacobsonRtt := Run.start host.listening
    let s : System JacobsonRtt := (System.connecting loopback).run secondFirst
    (∃ seg ∈ (r.run farAhead).sent, seg.sackRanges = [(61001, 61011)]) ∧ SacksHeld r farAhead ∧
      ((s.conn .left).retransmitQueue.map fun e => e.sacked) = [false, true] ∧ SkipsHeld s :=
  ⟨by decide +kernel, sack_no_reneging.1 host _ farAhead (.inl rfl) (by decide +kernel),
    by decide +kernel, sack_no_reneging.2 loopback secondFirst
      (by decide +kernel) short_secondFirst⟩

/-! ### A reported segment that is given up -/

section reneging

variable [RttEstimator ρ] {c : TcpConnection ρ} {ooo ooo' : List OooSegment} {seq : SeqNum}
  {payload : List UInt8}

/-- A connection in data transfer that waits for byte 1001, with these segments queued. -/
structure Waiting (c : TcpConnection ρ) (ooo : List OooSegment) : Prop where
  state : c.state = .established
  timestamps : c.tsEnabled = false
  una : c.sndUna = 5001
  nxt : c.sndNxt = 5001
  rcvNxt : c.rcvNxt = 1001
  capacity : c.rcvCapacity = 65535
  rxBuffer : c.rxBuffer = []
  queue : c.oooSegments = ooo

omit [RttEstimator ρ] in
theorem trimToWindow_inside (hne : payload ≠ [])
    (hin : offset c.rcvNxt (seq, payload) + payload.length ≤ c.recv.window) :
    c.trimToWindow seq payload = some (seq, payload) := by
  have hle := c.recv.window_le
  have hpos := List.length_pos_of_ne_nil hne
  have hseq : seq = pos c.rcvNxt (offset c.rcvNxt (seq, payload)) := seq_eq_pos _ (seq, payload)
  have hoff : (seqDiff seq c.rcvNxt).toNat = offset c.rcvNxt (seq, payload) := rfl
  generalize offset c.rcvNxt (seq, payload) = o at hin hseq hoff
  have hnew : seqLe (seq + BitVec.ofNat 32 payload.length) (pos c.rcvNxt 0) = false := by
    rw [← Bool.not_eq_true, hseq, pos_add_ofNat, seqLe_pos (by omega) (by omega)]
    omega
  have hlt : seqLt seq (pos c.rcvNxt 0) = false := by
    rw [← Bool.not_eq_true, hseq, seqLt_pos (by omega) (by omega)]
    omega
  rw [pos_zero] at hnew hlt
  have hleft : c.trimLeft seq payload = some (seq, payload) := by
    simp [TcpConnection.trimLeft, hne, hnew, hlt]
  have hfit : ¬ c.recv.window - o < payload.length := by omega
  rw [TcpConnection.trimToWindow, hleft, Option.bind_some, TcpConnection.trimRight,
    c.currentRcvWnd_toNat, hoff]
  dsimp only
  rw [if_neg (by omega), if_neg (by omega), if_neg hfit, if_neg hne]

/-- A data segment that repeats `snd_una` is reassembled and acknowledged. -/
theorem handleSegmentAt_data (seq : SeqNum) (hs : c.state = .established) (hu : c.sndUna = 5001)
    (hn : c.sndNxt = 5001) (hne : payload ≠ []) (now : ℕ) :
    ∃ c₂ : TcpConnection ρ, c₂.state = c.state ∧ c₂.recv = c.recv ∧ c₂.opts = c.opts ∧
      c₂.sndUna = c.sndUna ∧ c₂.sndNxt = c.sndNxt ∧
      (c.handleSegmentAt (peerSegment seq 5001 .ackOnly payload) now).1 =
        (c₂.acceptPayload (peerSegment seq 5001 .ackOnly payload)).buildAck.1 := by
  let seg := peerSegment seq 5001 .ackOnly payload
  let c₁ : TcpConnection ρ := { c with
    currentTimeMs := now, stats.segmentsReceived := c.stats.segmentsReceived + 1 }
  let c₂ : TcpConnection ρ := { c₁ with sndWnd := 65535 }
  have hpay : seg.payload = payload := rfl
  have hflags : seg.flags = .ackOnly := rfl
  have hwnd : seg.windowSize = 65535 := rfl
  have hopts : c.receiveOptions seg now = (c₁, none) := by
    simp [TcpConnection.receiveOptions, TcpConnection.inspectOptions, seg, peerSegment,
      TcpConnection.negotiateTimestamps, TcpFlags.ackOnly, c₁]
  have hslide : c₁.slideWindow seg now = (c₂, none) := by
    have hold : c₁.ackAdvances seg = false := by
      simp [TcpConnection.ackAdvances, c₁, hu, seg, peerSegment, seqGt]
    simp [TcpConnection.slideWindow, hflags, TcpFlags.ackOnly, hold, hpay, hne, hwnd, c₂]
  have hsent : seqGt seg.ackNum c₁.sndNxt = false := by simp [c₁, hn, seg, peerSegment, seqGt]
  have hstate : ((c₂.acceptPayload seg).buildAck.1).state = .established :=
    (c₂.acceptPayload_recvOnly seg).state.trans hs
  have hsettled : ((c₂.acceptPayload seg).buildAck.1).settleFin now =
      (c₂.acceptPayload seg).buildAck.1 := by
    simp [TcpConnection.settleFin, hstate]
  refine ⟨c₂, rfl, rfl, rfl, rfl, rfl, ?_⟩
  rw [← hsettled]
  change (c.handleSegmentAt seg now).1 = _
  simp [TcpConnection.handleSegmentAt, hopts, TcpConnection.pawsRejects,
    TcpConnection.recordTimestamp, hflags, TcpFlags.ackOnly, TcpConnection.dispatch,
    show c₁.state = .established from hs, TcpConnection.handleEstablished, hsent, hslide,
    TcpConnection.consumeFin, hpay, hne, TcpConnection.replyAck]

/-- A data segment beyond the gap goes to the queue and changes nothing else. -/
theorem Waiting.data (h : Waiting c ooo) (hne : payload ≠ []) (hgap : seq ≠ 1001)
    (hin : offset 1001 (seq, payload) + payload.length ≤ 65535) (now : ℕ) :
    Waiting (c.handleSegmentAt (peerSegment seq 5001 .ackOnly payload) now).1
      (c.bufferOoo (seq, payload)).oooSegments := by
  have hwin : c.recv.window = 65535 := by
    simp [RecvView.window, TcpConnection.recv, h.capacity, h.rxBuffer]
  have htrim := trimToWindow_inside (c := c) hne (by rw [h.rcvNxt, hwin]; exact hin)
  have hgap' : seq ≠ c.rcvNxt := h.rcvNxt ▸ hgap
  obtain ⟨c₂, hs, hr, ho, hu, hn, heq⟩ := handleSegmentAt_data seq h.state h.una h.nxt hne now
  have honly := c₂.acceptPayload_recvOnly (peerSegment seq 5001 .ackOnly payload)
  have hrecv := TcpConnection.acceptPayload_congr hr (peerSegment seq 5001 .ackOnly payload)
  have haccept : c.acceptPayload (peerSegment seq 5001 .ackOnly payload) =
      (c.bufferOoo (seq, payload)).syncLegacyOooView := by
    simp [TcpConnection.acceptPayload, TcpConnection.acceptData, peerSegment, hne, htrim, hgap']
  have hkept := TcpConnection.bufferOoo_recv c (seq, payload)
  rw [haccept] at hrecv
  rw [heq]
  exact ⟨honly.state.trans (hs.trans h.state),
    (congrArg OptView.tsEnabled (honly.opts.trans ho)).trans h.timestamps,
    (congrArg SendView.sndUna honly.send).trans (hu.trans h.una),
    (congrArg SendView.sndNxt honly.send).trans (hn.trans h.nxt),
    (congrArg RecvView.rcvNxt hrecv).trans ((congrArg RecvView.rcvNxt hkept).trans h.rcvNxt),
    (congrArg RecvView.rcvCapacity hrecv).trans
      ((congrArg RecvView.rcvCapacity hkept).trans h.capacity),
    (congrArg RecvView.rxBuffer hrecv).trans ((congrArg RecvView.rxBuffer hkept).trans h.rxBuffer),
    congrArg RecvView.oooSegments hrecv⟩

/-- While the connection waits, the promise for byte 61001 stands. -/
theorem Waiting.next {r : Run ρ} (h : Waiting r.conn ooo) (ooo' : List OooSegment)
    {rest : List Call} {now : ℕ}
    (hu : HeldUntil 61001 r (.handleSegmentAt (peerSegment seq 5001 .ackOnly payload) now :: rest))
    (hne : payload ≠ []) (hgap : seq ≠ 1001)
    (hin : offset 1001 (seq, payload) + payload.length ≤ 65535)
    (hbuf : ∀ c : TcpConnection ρ, c.oooSegments = ooo →
      (c.bufferOoo (seq, payload)).oooSegments = ooo') :
    ∃ r' : Run ρ, Waiting r'.conn ooo' ∧ HeldUntil 61001 r' rest := by
  have hw := h.data hne hgap hin now
  rw [hbuf r.conn h.queue] at hw
  refine ⟨r.step (.handleSegmentAt (peerSegment seq 5001 .ackOnly payload) now), hw, ?_⟩
  obtain ⟨-, hbelow | hreset | hnext⟩ := hu
  · have hnxt :
        (r.step (.handleSegmentAt (peerSegment seq 5001 .ackOnly payload) now)).conn.rcvNxt =
        1001 := hw.rcvNxt
    rw [hnxt] at hbelow
    exact absurd hbelow (by decide)
  · simp [TcpConnection.resetBy, peerSegment, TcpFlags.ackOnly] at hreset
  · exact hnext

end reneging

/-- Four long segments that start one byte after each other, and one that covers the ten bytes. -/
def overlapping (long longest : List UInt8) : List Call :=
  [.handleSegmentAt (peerSegment 1002 5001 .ackOnly long) 4,
    .handleSegmentAt (peerSegment 1003 5001 .ackOnly long) 5,
    .handleSegmentAt (peerSegment 1004 5001 .ackOnly long) 6,
    .handleSegmentAt (peerSegment 1005 5001 .ackOnly long) 7,
    .handleSegmentAt (peerSegment 1006 5001 .ackOnly longest) 8]

theorem overlapping_reneges {long longest : List UInt8} (hl : long.length = 50000)
    (hm : longest.length = 65000) :
    ¬ SacksHeld (Run.start (host.listening : TcpConnection JacobsonRtt))
      (farAhead ++ overlapping long longest) := by
  intro h
  have hne : long ≠ [] := by
    rintro rfl
    simp at hl
  have hne' : longest ≠ [] := by
    rintro rfl
    simp at hm
  -- The third call reports the ten bytes.
  have hreport : ∃ seg ∈ (((Run.start (host.listening : TcpConnection JacobsonRtt)).run
      (farAhead.take 2)).conn.call (.handleSegmentAt
        (peerSegment 61001 5001 .ackOnly (List.replicate 10 0)) 3)).2,
      ((61001, 61011) : SeqNum × SeqNum) ∈ seg.sackRanges := by
    decide +kernel
  obtain ⟨seg, hseg, hblock⟩ := hreport
  have h₀ := h (farAhead.take 2) _ (overlapping long longest) rfl seg hseg _ hblock 61001
    (by unfold inBlock; decide)
  have hw : Waiting (((Run.start (host.listening : TcpConnection JacobsonRtt)).run
      (farAhead.take 2)).step (.handleSegmentAt
        (peerSegment 61001 5001 .ackOnly (List.replicate 10 0)) 3)).conn
      [(61001, List.replicate 10 0)] := by
    constructor <;> decide +kernel
  generalize ((Run.start (host.listening : TcpConnection JacobsonRtt)).run
    (farAhead.take 2)).step _ = r₀ at h₀ hw
  obtain ⟨r₁, hw₁, h₁⟩ := hw.next [(1002, long), (61001, List.replicate 10 0)] h₀ hne (by decide)
    (by simp [offset, hl]) fun c hc => by
      simp [TcpConnection.bufferOoo, TcpConnection.retainUncovered, TcpConnection.oooBytes,
        maxOooBytes, TcpConnection.coveredBy, oooEnd, seqLe, seqLt, hc, hl]
  obtain ⟨r₂, hw₂, h₂⟩ := hw₁.next [(1002, long), (1003, long),
    (61001, List.replicate 10 0)] h₁ hne (by decide)
    (by simp [offset, hl]) fun c hc => by
      simp [TcpConnection.bufferOoo, TcpConnection.retainUncovered, TcpConnection.oooBytes,
        maxOooBytes, TcpConnection.coveredBy, oooEnd, seqLe, seqLt, hc, hl]
  obtain ⟨r₃, hw₃, h₃⟩ := hw₂.next [(1002, long), (1003, long), (1004, long),
    (61001, List.replicate 10 0)] h₂ hne (by decide)
    (by simp [offset, hl]) fun c hc => by
      simp [TcpConnection.bufferOoo, TcpConnection.retainUncovered, TcpConnection.oooBytes,
        maxOooBytes, TcpConnection.coveredBy, oooEnd, seqLe, seqLt, hc, hl]
  obtain ⟨r₄, hw₄, h₄⟩ := hw₃.next [(1002, long), (1003, long), (1004, long), (1005, long),
    (61001, List.replicate 10 0)] h₃ hne (by decide)
    (by simp [offset, hl]) fun c hc => by
      simp [TcpConnection.bufferOoo, TcpConnection.retainUncovered, TcpConnection.oooBytes,
        maxOooBytes, TcpConnection.coveredBy, oooEnd, seqLe, seqLt, hc, hl]
  -- The last segment covers the ten bytes, which are dropped before it is refused.
  obtain ⟨r₅, hw₅, h₅⟩ := hw₄.next [(1002, long), (1003, long), (1004, long),
    (1005, long)] h₄ hne' (by decide)
    (by simp [offset, hm]) fun c hc => by
      simp [TcpConnection.bufferOoo, TcpConnection.retainUncovered, TcpConnection.oooBytes,
        maxOooBytes, TcpConnection.coveredBy, oooEnd, seqLe, hc, hl, hm]
  obtain ⟨e, he, hx⟩ : Holds r₅.conn.oooSegments 61001 := h₅
  rw [hw₅.queue] at he
  simp only [List.mem_cons, List.not_mem_nil, or_false] at he
  rcases he with rfl | rfl | rfl | rfl <;> rw [hl] at hx <;> dsimp only at hx <;>
    exact absurd hx (by decide)

/-- The ten bytes were reported, are not below `rcv_nxt` and are gone. -/
theorem reported_bytes_dropped :
    ¬ SacksHeld (Run.start (host.listening : TcpConnection JacobsonRtt))
      (farAhead ++ overlapping (List.replicate 50000 0) (List.replicate 65000 0)) :=
  overlapping_reneges List.length_replicate List.length_replicate

end ToyTcpip.Network
