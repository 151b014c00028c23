import ToyTcpip.Network.System
import ToyTcpip.Tcp.Replies
import ToyTcpip.Tcp.SendAccounting

/-! New data stays inside a window that the receiver has offered. -/
namespace ToyTcpip.Network

open Tcp Serial

variable {ρ : Type} {c c' : TcpConnection ρ} {seg : TcpSegment} {own peer out : List TcpSegment}
  {reply : Option TcpSegment} {b : SeqNum}

/-- A sequence number lies below the right edge that an advertisement sets, counted from the
acknowledgement of that same advertisement. -/
def Offered (adv : TcpSegment) (seq : SeqNum) : Prop :=
  adv.flags.ack = true ∧ (seq - adv.ackNum).toNat < adv.windowSize.toNat

/-- Every byte of a range lies in a window that was advertised. -/
def Covered (peer : List TcpSegment) (seq : SeqNum) (len : ℕ) : Prop :=
  ∀ k < len, ∃ adv ∈ peer, Offered adv (seq + BitVec.ofNat 32 k)

theorem Covered.mono {seq : SeqNum} {len : ℕ} (h : Covered peer seq len) (out : List TcpSegment) :
    Covered (peer ++ out) seq len := by
  intro k hk
  obtain ⟨adv, hmem, hadv⟩ := h k hk
  exact ⟨adv, List.mem_append_left _ hmem, hadv⟩

/-- The states in which no new data is sent and none will be. -/
def finished : TcpState → Bool
  | .closed | .closing | .lastAck | .timeWait => true
  | _ => false

/-- The send side against what its peer has advertised. Data segments carry PSH and ACK; a
window probe carries only ACK. -/
structure FlowOk (b : SeqNum) (c : TcpConnection ρ) (own peer : List TcpSegment) : Prop where
  books : finished c.state = true ∨ Balanced b c
  window : c.sending = true → ∃ adv ∈ peer, adv.flags.ack = true ∧ adv.ackNum = c.sndUna ∧
    c.sndWnd.toNat ≤ adv.windowSize.toNat
  queue : ∀ r ∈ c.send.queue, r.flags = .pshAck → Covered peer r.seqNum r.payload.length
  sent : ∀ seg ∈ own, seg.flags = .pshAck → Covered peer seg.seqNum seg.payload.length

theorem finished_act (h : finished c.state = true) (step : LocalStep c c' out) :
    finished c'.state = true := by
  cases step with
  | quiet same | ack _ same _ | resend same _ => rwa [same.state]
  | chunk _ _ _ _ state => rwa [state]
  | fin state => rcases state with ⟨hb, -⟩ | ⟨hb, -⟩ <;> simp [hb, finished] at h
  | expire _ after => simp [after, finished]

theorem finished_receive (h : finished c.state = true) (arrival : Arrival c seg c' reply) :
    finished c'.state = true := by
  obtain ⟨c₁, hp, hr⟩ := arrival
  rw [← hp.state] at h
  cases hr with
  | ignore same | answer _ same => rwa [same.state]
  | reset _ _ state => simp [state, finished]
  | passiveOpen _ before | activeOpen before | crossing before | handshake before
  | closeWait before => simp [before, finished] at h
  | transfer before => rcases before with hb | hb | hb <;> simp [hb, finished] at h
  | finAcked states => rcases states with ⟨-, ha⟩ | ⟨-, ha⟩ <;> simp [ha, finished]

theorem not_sending_of_finished (h : finished c.state = true) : c.sending = false := by
  cases hs : c.state <;> simp [hs, finished, TcpConnection.sending] at h ⊢

/-- Data is sent after data transfer only if it was sent before. -/
theorem established_of_transfer
    (before : c.state = .established ∨ c.state = .finWait1 ∨ c.state = .finWait2)
    (state : c'.state = c.stateAfter seg ∨
      (c.finSent = true ∧ c'.state = (c.stateAfter seg).onFinAcked))
    (hs : c'.sending = true) : c.state = .established := by
  have hafter : c.stateAfter seg = c.state ∨ c.stateAfter seg = c.state.onFin := by
    unfold TcpConnection.stateAfter
    split <;> simp
  rcases before with hb | hb | hb
  · exact hb
  all_goals
    rcases hafter with ha | ha <;> rcases state with h | ⟨-, h⟩ <;>
      simp [TcpConnection.sending, h, ha, hb, TcpState.onFin, TcpState.onFinAcked] at hs

/-- An acknowledgement that neither advances `snd_una` nor lies beyond `snd_nxt` repeats
`snd_una` or lies before it. -/
theorem stale_ack (hold : c.ackAdvances seg = false) (hsent : seqGt seg.ackNum c.sndNxt = false) :
    seg.ackNum = c.sndUna ∨ seqLt seg.ackNum c.sndUna = true := by
  have hle : seqLe seg.ackNum c.sndNxt = true := by simpa [seqGt_eq_not_seqLe] using hsent
  have hgt : seqGt seg.ackNum c.sndUna = false := by
    simpa [TcpConnection.ackAdvances, hle] using hold
  by_cases hlt : seqLt seg.ackNum c.sndUna = true
  · exact .inr hlt
  · refine .inl (eq_of_seqGe_of_not_seqGt ?_ hgt)
    simpa [seqLt, seqGe] using hlt

namespace FlowOk

theorem mono (h : FlowOk b c own peer) (out : List TcpSegment) : FlowOk b c own (peer ++ out) where
  books := h.books
  window := fun hs => by
    obtain ⟨adv, hmem, hadv⟩ := h.window hs
    exact ⟨adv, List.mem_append_left _ hmem, hadv⟩
  queue := fun r hr hf => (h.queue r hr hf).mono out
  sent := fun seg hseg hf => (h.sent seg hseg hf).mono out

/-- Nothing new is sent, and the window is an offered one. -/
theorem keep (h : FlowOk b c own peer) (hbooks : finished c'.state = true ∨ Balanced b c')
    (hwindow : c'.sending = true → ∃ adv ∈ peer, adv.flags.ack = true ∧ adv.ackNum = c'.sndUna ∧
      c'.sndWnd.toNat ≤ adv.windowSize.toNat)
    (hqueue : ∀ r ∈ c'.send.queue, r.flags = .pshAck → r ∈ c.send.queue)
    (hout : ∀ seg ∈ out, seg.flags = .pshAck → ∃ r ∈ c.send.queue, r.flags = .pshAck ∧
      seg.seqNum = r.seqNum ∧ seg.payload = r.payload) : FlowOk b c' (own ++ out) peer where
  books := hbooks
  window := hwindow
  queue := fun r hr hf => h.queue r (hqueue r hr hf) hf
  sent := fun seg hseg hf => by
    rcases List.mem_append.mp hseg with hseg | hseg
    · exact h.sent seg hseg hf
    · obtain ⟨r, hr, hrf, hs, hp⟩ := hout seg hseg hf
      rw [hs, hp]
      exact h.queue r hr hrf

theorem window_congr (h : FlowOk b c own peer) (hs : c'.state = c.state) (hu : c'.sndUna = c.sndUna)
    (hw : c'.sndWnd = c.sndWnd) (hc : c'.sending = true) :
    ∃ adv ∈ peer, adv.flags.ack = true ∧ adv.ackNum = c'.sndUna ∧
      c'.sndWnd.toNat ≤ adv.windowSize.toNat := by
  rw [hu, hw]
  exact h.window (by simpa only [TcpConnection.sending, hs] using hc)

/-- The bytes of a new chunk lie between `snd_nxt` and the right edge of the send window. -/
theorem chunk (h : FlowOk b c own peer) (hs : c.sending = true) {n : ℕ}
    (hn : c.send.inFlight.toNat + n ≤ c.sndWnd.toNat) : Covered peer c.sndNxt n := by
  obtain ⟨u, m, hb⟩ : Balanced b c := by
    refine h.books.resolve_left fun hf => ?_
    simp [not_sending_of_finished hf] at hs
  obtain ⟨adv, hmem, hack, hnum, hwnd⟩ := h.window hs
  have hle := hb.queue.le
  have hcap := hb.cap
  have hlt := flightCap_lt c
  rw [hb.inFlight_toNat hlt] at hn
  intro k hk
  refine ⟨adv, hmem, hack, ?_⟩
  have hnxt : c.sndNxt = pos b m := hb.nxt
  have huna : c.sndUna = pos b u := hb.una
  rw [hnum, huna, hnxt, pos_add_ofNat, toNat_pos_sub_pos b (by omega) (by omega)]
  omega

theorem act (h : FlowOk b c own peer) (step : LocalStep c c' out) :
    FlowOk b c' (own ++ out) peer := by
  have hbooks : finished c'.state = true ∨ Balanced b c' :=
    h.books.imp (finished_act · step) (·.act step)
  cases step with
  | quiet same =>
    exact h.keep hbooks (h.window_congr same.state (congrArg SendView.sndUna same.send)
      (congrArg SendView.sndWnd same.send)) (fun r hr _ => same.send ▸ hr) (by simp)
  | ack _ same reply =>
    refine h.keep hbooks (h.window_congr same.state (congrArg SendView.sndUna same.send)
      (congrArg SendView.sndWnd same.send)) (fun r hr _ => same.send ▸ hr) ?_
    simp [reply.flags, TcpFlags.ackOnly, TcpFlags.pshAck]
  | resend same again =>
    refine h.keep hbooks (h.window_congr same.state (congrArg SendView.sndUna same.send)
      (congrArg SendView.sndWnd same.send)) (fun r hr _ => same.send ▸ hr) fun seg hseg hf => ?_
    obtain rfl := List.mem_singleton.mp hseg
    exact ⟨_, same.send ▸ again.mem, again.flags ▸ hf, again.seqNum, again.payload⟩
  | @chunk seg n flags sending hpos le kind state _ _ send _ hseg =>
    have hlen : (c.txBuffer.take n).length = n := List.length_take_of_le le
    -- A probe carries ACK alone; everything else fits the send window.
    have hnew : flags = .pshAck → Covered peer c.sndNxt (c.txBuffer.take n).length := by
      intro hf
      rw [hlen]
      rcases kind with ⟨-, hn⟩ | ⟨rfl, -⟩
      · exact h.chunk sending hn
      · simp [TcpFlags.ackOnly, TcpFlags.pshAck] at hf
    refine ⟨hbooks, ?_, fun r hr hf => ?_, fun s hs hf => ?_⟩
    · exact h.window_congr state (congrArg SendView.sndUna send) (congrArg SendView.sndWnd send)
    · rw [send] at hr
      rcases List.mem_append.mp hr with hr | hr
      · exact h.queue r hr hf
      · obtain rfl := List.mem_singleton.mp hr
        exact hnew hf
    · rcases List.mem_append.mp hs with hs | hs
      · exact h.sent s hs hf
      · obtain rfl := List.mem_singleton.mp hs
        subst hseg
        exact hnew hf
  | fin state _ _ _ _ send _ hseg =>
    subst hseg
    refine h.keep hbooks ?_ ?_ (by simp [TcpConnection.segment, TcpFlags.finAck, TcpFlags.pshAck])
    · rcases state with ⟨-, ha⟩ | ⟨-, ha⟩ <;> simp [TcpConnection.sending, ha]
    · intro r hr hf
      rw [send] at hr
      rcases List.mem_append.mp hr with hr | hr
      · exact hr
      · obtain rfl := List.mem_singleton.mp hr
        simp [TcpFlags.finAck, TcpFlags.pshAck] at hf
  | expire _ after _ _ send =>
    exact h.keep hbooks (by simp [TcpConnection.sending, after]) (fun r hr _ => send ▸ hr) (by simp)

theorem receive_books (h : FlowOk b c own peer) (arrival : Arrival c seg c' reply) :
    finished c'.state = true ∨ Balanced b c' := by
  by_cases hf : finished c.state = true
  · exact .inl (finished_receive hf arrival)
  by_cases hclosed : c'.state = .closed
  · exact .inl (by simp [hclosed, finished])
  · refine .inr ((h.books.resolve_left hf).receive (fun hc => absurd hc hclosed) ?_ arrival)
    rintro ⟨hs | hs, -⟩ <;> simp [hs, finished] at hf

theorem receive (h : FlowOk b c own peer) (hseg : seg ∈ peer)
    (hok : ¬ (c.state = .established ∧ seg.flags.ack = true ∧ seqLt seg.ackNum c.sndUna = true ∧
      c.sndWnd < seg.windowSize))
    (arrival : Arrival c seg c' reply) : FlowOk b c' (own ++ reply.toList) peer := by
  have hbooks := h.receive_books arrival
  obtain ⟨c₁, hp, hr⟩ := arrival
  have hq : ∀ r ∈ c₁.send.queue, r ∈ c.send.queue := fun r hr => hp.send ▸ hr
  have huna : c₁.sndUna = c.sndUna := congrArg SendView.sndUna hp.send
  have hwnd : c₁.sndWnd = c.sndWnd := congrArg SendView.sndWnd hp.send
  have hplain : ∀ {f : TcpFlags}, f = .ackOnly ∨ f = .synAck → f ≠ .pshAck := by
    rintro f (rfl | rfl) <;> simp [TcpFlags.ackOnly, TcpFlags.synAck, TcpFlags.pshAck]
  have hacks : (∀ r ∈ reply, PureAck c' r) → ∀ r ∈ reply.toList, r.flags = .pshAck →
      ∃ q ∈ c.send.queue, q.flags = .pshAck ∧ r.seqNum = q.seqNum ∧ r.payload = q.payload :=
    fun ha r hr hf => absurd hf (hplain (.inl (ha r (Option.mem_toList.mp hr)).flags))
  -- The acknowledgement that moved `snd_una` is the advertisement in force.
  have hself : ∀ {v : SendView}, c'.send = v → v.sndUna = seg.ackNum → v.sndWnd = seg.windowSize →
      seg.flags.ack = true → ∃ adv ∈ peer, adv.flags.ack = true ∧ adv.ackNum = c'.sndUna ∧
        c'.sndWnd.toNat ≤ adv.windowSize.toNat := by
    rintro v rfl hu hw hack
    have hw' : c'.sndWnd = seg.windowSize := hw
    exact ⟨seg, hseg, hack, hu.symm, by rw [hw']⟩
  cases hr with
  | ignore same =>
    exact h.keep hbooks (h.window_congr (same.state.trans hp.state)
      ((congrArg SendView.sndUna same.send).trans huna)
      ((congrArg SendView.sndWnd same.send).trans hwnd))
      (fun r hr _ => hq r (same.send ▸ hr)) (by simp)
  | answer _ same ack =>
    exact h.keep hbooks (h.window_congr (same.state.trans hp.state)
      ((congrArg SendView.sndUna same.send).trans huna)
      ((congrArg SendView.sndWnd same.send).trans hwnd))
      (fun r hr _ => hq r (same.send ▸ hr)) (hacks (by simpa using ack))
  | reset _ _ state _ send =>
    refine h.keep hbooks (by simp [TcpConnection.sending, state]) ?_ (by simp)
    simp [send, SendView.tearDown]
  | passiveOpen _ _ _ state _ send =>
    refine h.keep hbooks (by simp [TcpConnection.sending, state]) (fun r hr hf => ?_) ?_
    · rw [send] at hr
      rcases List.mem_append.mp hr with hr | hr
      · exact hq r hr
      · obtain rfl := List.mem_singleton.mp hr
        exact absurd hf (hplain (.inr rfl))
    · intro r hr hf
      obtain rfl := List.mem_singleton.mp hr
      exact absurd hf (hplain (.inr rfl))
  | activeOpen _ _ ack _ _ _ send _ _ reply =>
    exact h.keep hbooks (fun _ => hself send rfl rfl ack)
      (fun r hr _ => hq r (List.mem_of_mem_filter (send ▸ hr))) (hacks (by simpa using reply))
  | crossing _ _ _ state _ send =>
    refine h.keep hbooks (by simp [TcpConnection.sending, state])
      (fun r hr _ => hq r (send ▸ hr)) ?_
    intro r hr hf
    obtain rfl := List.mem_singleton.mp hr
    exact absurd hf (hplain (.inr rfl))
  | handshake _ ack _ _ _ send _ _ acks | closeWait _ ack _ _ _ send _ _ acks =>
    exact h.keep hbooks (fun _ => hself send rfl rfl ack)
      (fun r hr _ => hq r (List.mem_of_mem_filter (send ▸ hr))) (hacks acks)
  | finAcked states _ _ _ send =>
    refine h.keep hbooks ?_ (fun r hr _ => hq r (List.mem_of_mem_filter (send ▸ hr))) (by simp)
    rcases states with ⟨-, hs⟩ | ⟨-, hs⟩ <;> simp [TcpConnection.sending, hs]
  | transfer before _ state send _ _ acks =>
    refine h.keep hbooks (fun hs => ?_) (fun r hr _ => hq r (send.keeps.2.2.2 r hr)) ?_
    · have hest : c.state = .established := by
        rw [← hp.state]
        exact established_of_transfer before state hs
      generalize hv : c'.send = v at send
      cases send with
      | advance ack => exact hself hv rfl rfl ack
      | stale ack old hsent =>
        have hu' : c'.sndUna = c.sndUna := (congrArg SendView.sndUna hv).trans huna
        have hw' : c'.sndWnd = seg.windowSize := congrArg SendView.sndWnd hv
        rcases stale_ack old hsent with heq | hlt
        · exact hself hv heq.symm rfl ack
        · obtain ⟨adv, hmem, hack, hnum, hle⟩ :=
            h.window (by simp [TcpConnection.sending, hest])
          refine ⟨adv, hmem, hack, hnum.trans hu'.symm, ?_⟩
          have hsmall : ¬ c.sndWnd < seg.windowSize := fun hc => hok ⟨hest, ack, huna ▸ hlt, hc⟩
          rw [BitVec.lt_def] at hsmall
          rw [hw']
          omega
      | absent =>
        obtain ⟨adv, hmem, hack, hnum, hle⟩ := h.window (by simp [TcpConnection.sending, hest])
        have hu' : c'.sndUna = c.sndUna := (congrArg SendView.sndUna hv).trans huna
        have hw' : c'.sndWnd = c.sndWnd := (congrArg SendView.sndWnd hv).trans hwnd
        exact ⟨adv, hmem, hack, hnum.trans hu'.symm, by rw [hw']; exact hle⟩
    · intro r hr hf
      rcases acks r (Option.mem_toList.mp hr) with ha | ⟨-, q, ha⟩
      · exact absurd hf (hplain (.inl ha.flags))
      · exact ⟨q, hq q (send.keeps.2.2.2 q ha.mem), ha.flags ▸ hf, ha.seqNum, ha.payload⟩

end FlowOk

/-! ### Along runs -/

/-- No acknowledgement from before `snd_una` reaches the sender `x` in Established with a larger
window than the one in force. -/
def Timely (x : Side) (s : System ρ) (y : Side) (seg : TcpSegment) : Prop :=
  y = x → ¬ ((s.conn x).state = .established ∧ seg.flags.ack = true ∧
    seqLt seg.ackNum (s.conn x).sndUna = true ∧ (s.conn x).sndWnd < seg.windowSize)

instance (x : Side) (s : System ρ) (y : Side) (seg : TcpSegment) : Decidable (Timely x s y seg) :=
  inferInstanceAs (Decidable (_ → ¬ _))

/-- Every data byte that `x` has put on the wire was below the right edge of a window that its
peer had advertised. Data carries PSH and ACK, unlike window probes and the FIN. -/
def FlowControlled (x : Side) (s : System ρ) : Prop :=
  ∀ seg ∈ s.net x, seg.flags = .pshAck → Covered (s.net x.peer) seg.seqNum seg.payload.length

def SystemFlowOk (b : SeqNum) (x : Side) (s : System ρ) : Prop :=
  FlowOk b (s.conn x) (s.net x) (s.net x.peer)

theorem SystemFlowOk.put {x : Side} {s : System ρ} (h : SystemFlowOk b x s) (y : Side)
    {e : Endpoint ρ}
    (hself : y = x → FlowOk b e.conn (s.net x ++ out) (s.net x.peer)) :
    SystemFlowOk b x (s.put y e out) := by
  rcases Side.eq_or_peer x y with rfl | rfl
  · have hf := hself rfl
    simpa [SystemFlowOk, System.conn, System.put] using hf
  · have hm := FlowOk.mono h out
    simpa [SystemFlowOk, System.conn, System.put] using hm

theorem flowOk_invariant (b : SeqNum) (x : Side) :
    System.Invariant (Timely (ρ := ρ) x) (SystemFlowOk b x) where
  write := fun {s y} data h => h.put y fun hy => by
    subst hy
    rw [List.append_nil]
    exact ⟨h.books.imp id fun ⟨u, n, hb⟩ => ⟨u, n, hb.congr rfl rfl rfl rfl⟩, h.window, h.queue,
      h.sent⟩
  read := fun {s y} len h => h.put y fun hy => by
    subst hy
    rw [List.append_nil]
    simp only [Endpoint.read, TcpConnection.read]
    split
    · exact h
    · exact ⟨h.books.imp id fun hb => hb.same rfl id, h.window, h.queue, h.sent⟩
  act := fun {s y c' out} h step => h.put y fun hy => by
    subst hy
    exact FlowOk.act h step
  abort := fun {s y} h _ => h.put y fun hy => by
    subst hy
    refine FlowOk.keep h (.inl rfl) (by simp [Endpoint.act, TcpConnection.sending,
      TcpConnection.abort]) ?_ (by simp)
    simp [Endpoint.act, TcpConnection.abort, TcpConnection.send]
  receive := fun {s y seg c' reply} h hseg hok arrival => h.put y fun hy => by
    subst hy
    exact FlowOk.receive h hseg (hok rfl) arrival

section runs

variable [RttEstimator ρ]

theorem flowOk_start (passive : Side → Bool) (sides : Side → Start) (x : Side) :
    SystemFlowOk (sides x).isn x (System.start passive sides : System ρ) := by
  unfold SystemFlowOk
  generalize hp : passive x = p
  have hconn : (System.start passive sides : System ρ).conn x = (endpoint (sides x) p).conn := by
    rw [← hp]
    rfl
  have hnet : (System.start passive sides : System ρ).net x = sent ρ (sides x) p := by
    rw [← hp]
    rfl
  rw [hconn, hnet]
  cases p with
  | true => exact ⟨.inr (balanced_start _ (.inl rfl)), nofun, nofun, nofun⟩
  | false =>
    have hb : Balanced (sides x).isn ((sides x).idle : TcpConnection ρ) :=
      balanced_start _ (.inr rfl)
    refine ⟨.inr (hb.dial _ (show (0 : ℕ) < 2 ^ 30 by norm_num)), nofun, ?_, ?_⟩
    · intro r hr hf
      obtain rfl := List.mem_singleton.mp hr
      cases hf
    · intro r hr hf
      obtain rfl := List.mem_singleton.mp hr
      cases hf

/-- Every data byte of every run lies in a window the receiver has offered, as long as no old
acknowledgement raises the sender's window. -/
theorem flow_control (passive : Side → Bool) (sides : Side → Start) (x : Side)
    (actions : List Action)
    (hok : System.AdmitsAll (Timely x) (System.start passive sides : System ρ) actions) :
    FlowControlled x ((System.start passive sides : System ρ).run actions) :=
  ((flowOk_invariant _ x).run (flowOk_start passive sides x) hok).sent

end runs

/-- Two hosts, the listening one with a receive buffer of ten bytes. -/
def smallBuffer : Side → Start
  | .left => loopback .left
  | .right => { loopback .right with config := { Config.default with rcvCapacity := 10 } }

/-- A handshake, then five bytes that fill half of the receiver's buffer. -/
def halfFilled : List Action :=
  [.deliver .right 0 1, .deliver .left 0 2, .deliver .right 1 3, .write .left [1, 2, 3, 4, 5],
    .pollOutput .left 4, .deliver .right 2 5, .deliver .left 1 6]

/-- Ten more bytes to send. -/
def tenMore : List Action :=
  [.write .left [1, 2, 3, 4, 5, 6, 7, 8, 9, 10], .pollOutput .left 8]

theorem flow_control_halfFilled :
    let s : System JacobsonRtt := (System.connecting smallBuffer).run (halfFilled ++ tenMore)
    ((s.net .left).map fun seg => seg.payload.length) = [0, 0, 5, 5] ∧ FlowControlled .left s :=
  ⟨by decide +kernel, flow_control (· = .right) smallBuffer .left _ (by decide +kernel)⟩

instance (peer : List TcpSegment) (seq : SeqNum) (len : ℕ) : Decidable (Covered peer seq len) :=
  inferInstanceAs (Decidable (∀ k < len, ∃ adv ∈ peer, _ ∧ _))

instance (x : Side) (s : System ρ) : Decidable (FlowControlled x s) :=
  inferInstanceAs (Decidable (∀ seg ∈ s.net x, _ → Covered _ _ _))

/-- The SYN-ACK arrives once more: its ten bytes of window now count from the sixth byte, and
all ten new bytes are sent although the receiver has offered five. -/
theorem stale_window_overrun :
    ¬ FlowControlled .left ((System.connecting smallBuffer : System JacobsonRtt).run
      (halfFilled ++ [.deliver .left 0 7] ++ tenMore)) := by
  decide +kernel

end ToyTcpip.Network
