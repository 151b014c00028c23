import ToyTcpip.Tcp.Runs

/-! The send side keeps books: the retransmission queue tiles what is outstanding. -/
namespace ToyTcpip.Tcp

open Serial

variable {b : SeqNum} {i j k u n a : ℕ} {q : List SentRange}

/-- Consecutive ranges from position `i` to position `j`. -/
inductive Tiles (b : SeqNum) : ℕ → ℕ → List SentRange → Prop where
  | nil (i : ℕ) : Tiles b i i []
  | cons {i k j : ℕ} {r : SentRange} {q : List SentRange} (start : r.seqNum = pos b i)
      (stop : r.endSeq = pos b k) (lt : i < k) (short : k ≤ i + 2 ^ 16) (rest : Tiles b k j q) :
      Tiles b i j (r :: q)

theorem Tiles.le (h : Tiles b i j q) : i ≤ j := by
  induction h with
  | nil => exact le_rfl
  | cons _ _ lt _ _ ih => omega

theorem Tiles.push (h : Tiles b i j q) {r : SentRange} (start : r.seqNum = pos b j)
    (stop : r.endSeq = pos b k) (lt : j < k) (short : k ≤ j + 2 ^ 16) :
    Tiles b i k (q ++ [r]) := by
  induction h with
  | nil i => exact .cons start stop lt short (.nil k)
  | cons hs ht hl hk _ ih => exact .cons hs ht hl hk (ih start lt short)

/-- The queue against the lower edge `u`: its first range contains it. -/
inductive Outstanding (b : SeqNum) (u n : ℕ) : List SentRange → Prop where
  | none (done : u = n) : Outstanding b u n []
  | some {i k : ℕ} {r : SentRange} {q : List SentRange} (start : r.seqNum = pos b i)
      (stop : r.endSeq = pos b k) (le : i ≤ u) (lt : u < k) (short : k ≤ i + 2 ^ 16)
      (rest : Tiles b k n q) : Outstanding b u n (r :: q)

theorem Outstanding.le (h : Outstanding b u n q) : u ≤ n := by
  cases h with
  | none done => exact done.le
  | some _ _ _ lt _ rest =>
    have := rest.le
    omega

theorem Outstanding.push (h : Outstanding b u n q) {r : SentRange} (start : r.seqNum = pos b n)
    (stop : r.endSeq = pos b k) (lt : n < k) (short : k ≤ n + 2 ^ 16) :
    Outstanding b u k (q ++ [r]) := by
  cases h with
  | none done => exact .some start stop done.ge (by omega) short (.nil k)
  | some hs ht hle hlt hk rest => exact .some hs ht hle hlt hk (rest.push start stop lt short)

theorem seqLe_endSeq {r : SentRange} (stop : r.endSeq = pos b k) (h₁ : a ≤ k + 2 ^ 31)
    (h₂ : k < a + 2 ^ 31) : seqLe r.endSeq (pos b a) = decide (k ≤ a) := by
  rw [stop, Bool.eq_iff_iff, seqLe_pos h₁ h₂, decide_eq_true_iff]

/-- Ranges at or above an acknowledgement stay. -/
theorem Tiles.keep (h : Tiles b i j q) (hi : a ≤ i) (hj : j < a + 2 ^ 31) :
    q.filter (fun r => !seqLe r.endSeq (pos b a)) = q := by
  induction h with
  | nil => rfl
  | @cons i k j r q start stop lt short rest ih =>
    have hle := rest.le
    have hr := seqLe_endSeq (a := a) stop (by omega) (by omega)
    rw [List.filter_cons_of_pos (by simp [hr]; omega), ih (by omega) hj]

/-- An acknowledgement takes the ranges below it off the queue. -/
theorem Tiles.retire (h : Tiles b i j q) (hi : i ≤ a) (ha : a ≤ j) (hj : j < i + 2 ^ 31) :
    Outstanding b a j (q.filter fun r => !seqLe r.endSeq (pos b a)) := by
  induction h with
  | nil i => exact .none (by omega)
  | @cons i k j r q start stop lt short rest ih =>
    have hle := rest.le
    have hr := seqLe_endSeq (a := a) stop (by omega) (by omega)
    by_cases hk : k ≤ a
    · rw [List.filter_cons_of_neg (by simp [hr, hk])]
      exact ih hk ha (by omega)
    · rw [List.filter_cons_of_pos (by simp [hr, hk]), rest.keep (by omega) (by omega)]
      exact .some start stop hi (by omega) short rest

theorem Outstanding.retire (h : Outstanding b u n q) (hu : u ≤ a) (ha : a ≤ n)
    (hn : n < u + 2 ^ 31) : Outstanding b a n (q.filter fun r => !seqLe r.endSeq (pos b a)) := by
  cases h with
  | none done => exact .none (by omega)
  | @some i k r q start stop le lt short rest =>
    have hle := rest.le
    have hr := seqLe_endSeq (a := a) stop (by omega) (by omega)
    by_cases hk : k ≤ a
    · rw [List.filter_cons_of_neg (by simp [hr, hk])]
      exact rest.retire hk ha (by omega)
    · rw [List.filter_cons_of_pos (by simp [hr, hk]), rest.keep (by omega) (by omega)]
      exact .some start stop (by omega) (by omega) short rest

/-- The books of a send side, relative to its first sequence number `b`; at most `cap` sequence
numbers are in flight. -/
structure Books (b : SeqNum) (cap : ℕ) (v : SendView) (u n : ℕ) : Prop where
  una : v.sndUna = pos b u
  nxt : v.sndNxt = pos b n
  cap : n ≤ u + cap
  queue : Outstanding b u n v.queue
  inFlight : v.inFlight = BitVec.ofNat 32 (n - u)

namespace Books

variable {cap cap' : ℕ} {v : SendView}

theorem mono (h : Books b cap v u n) (hc : cap ≤ cap') : Books b cap' v u n :=
  ⟨h.una, h.nxt, h.cap.trans (by omega), h.queue, h.inFlight⟩

theorem inFlight_toNat (h : Books b cap v u n) (hc : cap < 2 ^ 31) :
    v.inFlight.toNat = n - u := by
  have := h.cap
  rw [h.inFlight, BitVec.toNat_ofNat]
  omega

/-- A tracked transmission of `len` sequence numbers. -/
theorem push (h : Books b cap v u n) {len : ℕ} (hpos : 0 < len) (hlen : len ≤ 2 ^ 16)
    (hcap : n + len ≤ u + cap') (flags : TcpFlags) (payload : List UInt8) :
    Books b cap' (v.push (BitVec.ofNat 32 len) flags payload) u (n + len) := by
  have hle := h.queue.le
  have hnxt : v.sndNxt + BitVec.ofNat 32 len = pos b (n + len) := by rw [h.nxt, pos_add_ofNat]
  refine ⟨h.una, hnxt, hcap, h.queue.push h.nxt hnxt (by omega) (by omega), ?_⟩
  change v.inFlight + BitVec.ofNat 32 len = BitVec.ofNat 32 (n + len - u)
  rw [h.inFlight, ← BitVec.ofNat_add, Nat.sub_add_comm hle]

/-- An acknowledgement between the two edges. -/
theorem ackTo (h : Books b cap v u n) (hc : cap < 2 ^ 31) (hu : u ≤ a) (ha : a ≤ n) :
    Books b cap (v.ackTo (pos b a)) a n := by
  have hcap := h.cap
  have hdiff : (seqDiff (pos b a) v.sndUna) = BitVec.ofNat 32 (a - u) := by
    rw [h.una, seqDiff, pos_sub_pos_of_le b hu]
  have hfit : BitVec.ofNat 32 (a - u) ≤ v.inFlight := by
    rw [BitVec.le_def, h.inFlight_toNat hc, BitVec.toNat_ofNat]
    omega
  refine ⟨rfl, h.nxt, by omega, h.queue.retire hu ha (by omega), ?_⟩
  rw [SendView.ackTo, hdiff, if_pos hfit]
  apply BitVec.eq_of_toNat_eq
  rw [BitVec.toNat_sub_of_le hfit, h.inFlight_toNat hc, BitVec.toNat_ofNat, BitVec.toNat_ofNat]
  omega

/-- A new acknowledgement of something that was sent stands between the two edges. -/
theorem advance (h : Books b cap v u n) (hc : cap < 2 ^ 31) {ack : SeqNum}
    (hgt : seqGt ack v.sndUna = true) (hle : seqLe ack v.sndNxt = true) :
    ∃ a, ack = pos b a ∧ u ≤ a ∧ a ≤ n := by
  have hcap := h.cap
  have hun := h.queue.le
  have hack := eq_pos_add b ack u
  have hd : (ack - pos b u).toNat < 2 ^ 31 := by
    rw [h.una, seqGt, decide_eq_true_eq, BitVec.toInt_eq_toNat_cond] at hgt
    split at hgt
    · omega
    · have := (ack - pos b u).isLt
      omega
  refine ⟨u + (ack - pos b u).toNat, hack, Nat.le_add_right _ _, ?_⟩
  rw [hack, h.nxt, seqLe_pos (by omega) (by omega)] at hle
  exact hle

theorem congr {w : SendView} (h : Books b cap v u n) (una : w.sndUna = v.sndUna)
    (nxt : w.sndNxt = v.sndNxt) (queue : w.queue = v.queue) (inFlight : w.inFlight = v.inFlight) :
    Books b cap w u n :=
  ⟨una.trans h.una, nxt.trans h.nxt, h.cap, queue ▸ h.queue, inFlight.trans h.inFlight⟩

end Books

/-! ### Along runs -/

variable {ρ : Type}

/-- A SYN of a listener and a FIN are sent once each; `initiate_syn_at` may add to the flight
up to `2 ^ 30`. -/
def flightCap (c : TcpConnection ρ) : ℕ :=
  2 ^ 30 + (if c.finSent then 1 else 0) + if c.state = .listen then 0 else 1

def Balanced (b : SeqNum) (c : TcpConnection ρ) : Prop :=
  ∃ u n, Books b (flightCap c) c.send u n

theorem flightCap_lt (c : TcpConnection ρ) : flightCap c < 2 ^ 31 := by
  unfold flightCap
  split_ifs <;> omega

theorem flightCap_mono {c c' : TcpConnection ρ} (hf : c'.finSent = c.finSent)
    (hl : c'.state = .listen → c.state = .listen) : flightCap c ≤ flightCap c' := by
  unfold flightCap
  rw [hf]
  split_ifs <;> simp_all

theorem Balanced.same {c c' : TcpConnection ρ} (h : Balanced b c) (send : c'.send = c.send)
    (hl : c'.state = .listen → c.state = .listen) : Balanced b c' := by
  obtain ⟨u, n, h⟩ := h
  refine ⟨u, n, ?_⟩
  rw [send]
  exact h.mono (flightCap_mono (congrArg SendView.finSent send) hl)

theorem Balanced.act {c c' : TcpConnection ρ} {out : List TcpSegment} (h : Balanced b c)
    (step : LocalStep c c' out) : Balanced b c' := by
  cases step with
  | quiet same | ack _ same _ | resend same _ => exact h.same same.send (by simp [same.state])
  | expire before after _ _ send => exact h.same send (by simp [after])
  | @chunk seg k flags _ pos le kind state _ _ send =>
    obtain ⟨u, n, h⟩ := h
    have hle := h.queue.le
    have hlen : (c.send.txBuffer.take k).length = k := List.length_take_of_le le
    have hroom : n + k ≤ u + 2 ^ 16 ∧ k ≤ 2 ^ 16 := by
      rcases kind with ⟨-, hw⟩ | ⟨-, hk, hq⟩
      · rw [h.inFlight_toNat (flightCap_lt c)] at hw
        have := c.sndWnd.isLt
        omega
      · have hdone := h.queue
        rw [hq] at hdone
        cases hdone
        omega
    have hcap : 2 ^ 30 ≤ flightCap c' := by unfold flightCap; omega
    refine ⟨u, n + k, ?_⟩
    rw [send, SendView.pushChunk, hlen]
    exact (h.push pos hroom.2 (by omega) flags _).congr rfl rfl rfl rfl
  | fin state unsent _ _ _ send =>
    obtain ⟨u, n, h⟩ := h
    have hcap : flightCap c + 1 ≤ flightCap c' := by
      have hf : c'.finSent = true := congrArg SendView.finSent send
      unfold flightCap
      rcases state with ⟨hb, ha⟩ | ⟨hb, ha⟩ <;> simp [hb, ha, hf, unsent]
    have hn := h.cap
    refine ⟨u, n + 1, ?_⟩
    rw [send]
    exact (h.push Nat.one_pos (by omega) (by omega) .finAck []).congr rfl rfl rfl rfl

theorem Balanced.acked {c c' : TcpConnection ρ} {w : BitVec 16} {ack : SeqNum} {u n : ℕ}
    (h : Books b (flightCap c) c.send u n) (send : c'.send = (c.send.withWnd w).ackTo ack)
    (hack : ∃ a, ack = pos b a ∧ u ≤ a ∧ a ≤ n) (hl : c'.state ≠ .listen) : Balanced b c' := by
  obtain ⟨a, rfl, hu, ha⟩ := hack
  refine ⟨a, n, ?_⟩
  rw [send]
  have hw : Books b (flightCap c) (c.send.withWnd w) u n := h.congr rfl rfl rfl rfl
  exact (hw.ackTo (flightCap_lt c) hu ha).mono
    (flightCap_mono (congrArg SendView.finSent send) (fun hc => absurd hc hl))

/-- A call that neither tears the connection down nor acknowledges what was never sent. -/
def Undisturbed [RttEstimator ρ] (c : TcpConnection ρ) : Call → Prop
  | .pollOutput now => c.aborts now = false
  | .handleSegmentAt seg _ =>
    ¬ (seg.flags.rst = true ∧ c.rstAcceptable seg = true) ∧
    ¬ ((c.state = .closing ∨ c.state = .lastAck) ∧ seg.flags.ack = true ∧
      seqGt seg.ackNum c.sndNxt = true)
  | .initiateSynAt _ => c.congestion.inFlight.toNat < 2 ^ 30
  | _ => True

theorem Balanced.receive {c c' : TcpConnection ρ} {seg : TcpSegment} {reply : Option TcpSegment}
    (h : Balanced b c)
    (hrst : c'.state = .closed → ¬ (seg.flags.rst = true ∧ c.rstAcceptable seg = true))
    (hclose : ¬ ((c.state = .closing ∨ c.state = .lastAck) ∧ seg.flags.ack = true ∧
      seqGt seg.ackNum c.sndNxt = true))
    (arrival : Arrival c seg c' reply) : Balanced b c' := by
  obtain ⟨c₁, hp, hr⟩ := arrival
  have h₁ : Balanced b c₁ := h.same hp.send (by simp [hp.state])
  have hnxt : c₁.sndNxt = c.sndNxt := TcpConnection.sndNxt_congr hp.send
  cases hr with
  | ignore same | answer _ same => exact h₁.same same.send (by simp [same.state])
  | reset rst ok state =>
    exact absurd ⟨rst, TcpConnection.rstAcceptable_congr hp.state hp.recv hp.send seg ▸ ok⟩
      (hrst state)
  | passiveOpen _ before _ state _ send =>
    obtain ⟨u, n, hb⟩ := h₁
    have hcap : flightCap c₁ + 1 ≤ flightCap c' := by
      have hf : c'.finSent = c₁.finSent := congrArg SendView.finSent send
      unfold flightCap
      simp [before, state, hf]
    have hn := hb.cap
    refine ⟨u, n + 1, ?_⟩
    rw [send]
    exact (hb.push Nat.one_pos (by omega) (by omega) .synAck []).congr rfl rfl rfl rfl
  | crossing _ _ _ state _ send => exact h₁.same send (by simp [state])
  | activeOpen _ _ _ acked state _ send | handshake _ _ acked state _ send =>
    obtain ⟨u, n, hb⟩ := h₁
    exact .acked hb send ⟨n, acked.trans hb.nxt, hb.queue.le, le_rfl⟩ (by simp [state])
  | closeWait _ _ new state _ send =>
    obtain ⟨u, n, hb⟩ := h₁
    simp only [TcpConnection.ackAdvances, Bool.and_eq_true] at new
    exact .acked hb send (hb.advance (flightCap_lt c₁) new.1 new.2) (by simp [state])
  | transfer before _ state send =>
    have hl : c'.state ≠ .listen := by
      intro hs
      have hsync := synchronized_transfer before state
      simp [TcpConnection.synchronized, hs] at hsync
    obtain ⟨u, n, hb⟩ := h₁
    generalize hv : c'.send = v at send
    cases send with
    | advance _ new =>
      simp only [TcpConnection.ackAdvances, Bool.and_eq_true] at new
      exact .acked hb hv (hb.advance (flightCap_lt c₁) new.1 new.2) hl
    | stale | absent =>
      refine ⟨u, n, ?_⟩
      rw [hv]
      exact (hb.mono (flightCap_mono (congrArg SendView.finSent hv)
        (fun hs => absurd hs hl))).congr rfl rfl rfl rfl
  | finAcked states ack acked _ send =>
    obtain ⟨u, n, hb⟩ := h₁
    have heq : seg.ackNum = c₁.sndNxt := by
      have hst : c.state = .closing ∨ c.state = .lastAck := by
        rw [← hp.state]
        exact states.imp And.left And.left
      have hgt : seqGt seg.ackNum c₁.sndNxt = false := by
        rw [hnxt]
        by_contra hc
        exact hclose ⟨hst, ack, by simpa using hc⟩
      exact eq_of_seqGe_of_not_seqGt acked hgt
    refine .acked (w := c₁.sndWnd) hb send ⟨n, heq.trans hb.nxt, hb.queue.le, le_rfl⟩ ?_
    rcases states with ⟨-, hs⟩ | ⟨-, hs⟩ <;> simp [hs]

theorem Balanced.dial [RttEstimator ρ] {c : TcpConnection ρ} (h : Balanced b c) (now : ℕ)
    (hroom : c.congestion.inFlight.toNat < 2 ^ 30) : Balanced b (c.initiateSynAt now).1 := by
  obtain ⟨u, n, h⟩ := h
  have hflight : c.send.inFlight.toNat = n - u := h.inFlight_toNat (flightCap_lt c)
  change c.congestion.inFlight.toNat = n - u at hflight
  have hle := h.queue.le
  have hsend : (c.initiateSynAt now).1.send = c.send.push 1 .synOnly [] := by
    simp only [TcpConnection.initiateSynAt, TcpConnection.trackForRetransmit, TcpConnection.send,
      SendView.push, CongestionControl.recordSent, List.map_append, List.map_cons, List.map_nil]
    rfl
  have hcap : 2 ^ 30 ≤ flightCap (c.initiateSynAt now).1 := by unfold flightCap; omega
  refine ⟨u, n + 1, ?_⟩
  rw [hsend]
  exact h.push Nat.one_pos (by omega) (by omega) .synOnly []

theorem balanced_invariant [RttEstimator ρ] (b : SeqNum) :
    Run.Invariant (Undisturbed (ρ := ρ)) (fun c _ => Balanced b c) where
  write := fun _ h => by
    obtain ⟨u, n, h⟩ := h
    exact ⟨u, n, h.congr rfl rfl rfl rfl⟩
  read := fun len h => by
    refine h.same ?_ ?_ <;> unfold TcpConnection.read <;> split <;> first | rfl | exact id
  act := fun h step => h.act step
  abort := fun hok habort => by simp [Undisturbed, habort] at hok
  receive := fun h hok arrival => h.receive (fun _ => hok.1) hok.2 arrival
  dial := fun h hok => h.dial _ hok

/-- The send side's books in the connection's own terms. -/
structure SendAccounted (c : TcpConnection ρ) : Prop where
  ordered : seqLe c.sndUna c.sndNxt = true
  contiguous : c.retransmitQueue.IsChain fun e f => e.endSeq = f.seqNum
  forward : ∀ e ∈ c.retransmitQueue, seqLt e.seqNum e.endSeq = true
  last : ∀ e ∈ c.retransmitQueue.getLast?, e.endSeq = c.sndNxt
  first : ∀ e ∈ c.retransmitQueue.head?,
    seqLe e.seqNum c.sndUna = true ∧ seqLt c.sndUna e.endSeq = true
  empty : c.retransmitQueue = [] ↔ c.sndUna = c.sndNxt
  inFlight : c.congestion.inFlight = c.sndNxt - c.sndUna

theorem Tiles.forward (h : Tiles b i j q) : ∀ r ∈ q, seqLt r.seqNum r.endSeq = true := by
  induction h with
  | nil => simp
  | cons start stop lt short rest ih =>
    intro r hr
    rcases List.mem_cons.mp hr with rfl | hr
    · rw [start, stop, seqLt_pos (by omega) (by omega)]
      exact lt
    · exact ih r hr

theorem Tiles.contiguous (h : Tiles b i j q) :
    q.IsChain (fun r s => r.endSeq = s.seqNum) ∧ (∀ r ∈ q.head?, r.seqNum = pos b i) ∧
      ∀ r ∈ q.getLast?, r.endSeq = pos b j := by
  induction h with
  | nil => simp
  | @cons i k j r q start stop lt short rest ih =>
    obtain ⟨hchain, hhead, hlast⟩ := ih
    refine ⟨List.isChain_cons.mpr ⟨fun s hs => ?_, hchain⟩, by simpa using start, ?_⟩
    · rw [stop, hhead s hs]
    · intro s hs
      cases rest with
      | nil =>
        obtain rfl : r = s := by simpa using hs
        exact stop
      | cons => exact hlast s (by simpa using hs)

/-- An outstanding queue tiles a range that starts at or below the lower edge. -/
theorem Outstanding.tiles (h : Outstanding b u n q) : ∃ i, i ≤ u ∧ Tiles b i n q := by
  cases h with
  | none done => exact ⟨n, done.ge, .nil n⟩
  | some start stop le lt short rest => exact ⟨_, le, .cons start stop (by omega) short rest⟩

theorem Outstanding.eq_nil_iff (h : Outstanding b u n q) : q = [] ↔ u = n := by
  cases h with
  | none done => simpa using done
  | some start stop le lt short rest =>
    have := rest.le
    simp only [reduceCtorEq, false_iff]
    omega

theorem Balanced.accounted {c : TcpConnection ρ} (h : Balanced b c) : SendAccounted c := by
  obtain ⟨u, n, h⟩ := h
  have hcap := h.cap
  have hlt := flightCap_lt c
  have hle := h.queue.le
  have huna : c.sndUna = pos b u := h.una
  have hnxt : c.sndNxt = pos b n := h.nxt
  obtain ⟨i, hi, htiles⟩ := h.queue.tiles
  obtain ⟨hchain, -, hlast⟩ := htiles.contiguous
  refine ⟨?_, ?_, ?_, ?_, ?_, ?_, ?_⟩
  · rw [huna, hnxt, seqLe_pos (by omega) (by omega)]
    exact hle
  · exact List.isChain_map _ |>.mp hchain
  · exact fun e he => htiles.forward e.range (List.mem_map_of_mem he)
  · intro e he
    rw [hnxt]
    exact hlast e.range (by simp [TcpConnection.send, List.getLast?_map, Option.mem_def.mp he])
  · intro e he
    obtain ⟨rest, hq⟩ : ∃ rest, c.retransmitQueue = e :: rest := by
      cases hq : c.retransmitQueue with
      | nil => simp [hq] at he
      | cons e' rest => exact ⟨rest, by simpa [hq] using he⟩
    have hout := h.queue
    rw [show c.send.queue = e.range :: rest.map (·.range) by simp [TcpConnection.send, hq]] at hout
    cases hout with
    | some start stop le lt short tiles =>
      have := tiles.le
      have hs : e.seqNum = pos b _ := start
      have ht : e.endSeq = pos b _ := stop
      rw [hs, ht, huna, seqLe_pos (by omega) (by omega), seqLt_pos (by omega) (by omega)]
      exact ⟨le, lt⟩
  · rw [huna, hnxt, pos_inj b hle (by omega), ← h.queue.eq_nil_iff]
    simp [TcpConnection.send]
  · change c.send.inFlight = _
    rw [h.inFlight, huna, hnxt, pos_sub_pos_of_le b hle]

section runs

variable [RttEstimator ρ]

theorem balanced_start (st : Start) {c : TcpConnection ρ} (hc : c = st.listening ∨ c = st.idle) :
    Balanced st.isn c := by
  refine ⟨0, 0, ?_⟩
  rcases hc with rfl | rfl <;>
    exact ⟨(pos_zero _).symm, (pos_zero _).symm, Nat.zero_le _, .none rfl, rfl⟩

/-- Along every run of calls and segments that does not tear the connection down, the queue
tiles what is between `snd_una` and `snd_nxt` and `in_flight` is its size. -/
theorem send_accounting (st : Start) {c : TcpConnection ρ}
    (hc : c = st.listening ∨ c = st.idle) (calls : List Call)
    (hok : Run.Admits Undisturbed (Run.start c) calls) :
    SendAccounted ((Run.start c).run calls).conn :=
  ((balanced_invariant st.isn).run (balanced_start st hc) hok).accounted

instance (c : TcpConnection ρ) : ∀ k, Decidable (Undisturbed c k)
  | .pollOutput now => inferInstanceAs (Decidable (c.aborts now = false))
  | .handleSegmentAt .. => inferInstanceAs (Decidable (¬ _ ∧ ¬ _))
  | .initiateSynAt _ => inferInstanceAs (Decidable (c.congestion.inFlight.toNat < 2 ^ 30))
  | .write _ | .read _ | .initiateCloseAt _ => isTrue trivial

end runs

/-- A passive open, two bytes sent and one of them acknowledged. -/
def partlyAcked : List Call :=
  [.handleSegmentAt (peerSegment 1000 0 .synOnly []) 1,
    .handleSegmentAt (peerSegment 1001 5001 .ackOnly []) 2, .write [7, 8], .pollOutput 3,
    .handleSegmentAt (peerSegment 1001 5002 .ackOnly []) 4]

example : ((Run.start host.listening : Run JacobsonRtt).run partlyAcked).conn.congestion.inFlight =
    1 := by
  decide +kernel

theorem send_accounting_partlyAcked :
    let c : TcpConnection JacobsonRtt := ((Run.start host.listening).run partlyAcked).conn
    c.sndUna = 5002 ∧ c.sndNxt = 5003 ∧ SendAccounted c :=
  ⟨by decide +kernel, by decide +kernel,
    send_accounting host (.inl rfl) partlyAcked (by decide +kernel)⟩

/-- An accepted RST empties the queue and leaves both edges where they were. -/
theorem reset_not_accounted :
    ¬ SendAccounted ((Run.start (host.listening : TcpConnection JacobsonRtt)).run
      (partlyAcked ++ [.handleSegmentAt (peerSegment 1001 0 { rst := true } []) 5])).conn := by
  intro h
  have hempty := h.empty
  revert hempty
  decide +kernel

end ToyTcpip.Tcp
