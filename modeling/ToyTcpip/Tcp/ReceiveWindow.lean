import ToyTcpip.Tcp.ReceiveQueue
import ToyTcpip.Tcp.Replies

/-! The receive buffer, the out-of-order queue and the advertised window along every run. -/
namespace ToyTcpip.Tcp

open Serial

variable {ρ : Type} {c c' : TcpConnection ρ} {seg : TcpSegment} {out sent : List TcpSegment}
  {reply : Option TcpSegment}

/-! ### The advertised edges -/

/-- The right edge of the receive window that a segment advertises. -/
def TcpSegment.rightEdge (seg : TcpSegment) : SeqNum := seg.ackNum + seg.windowSize.setWidth 32

/-- The right edges advertised so far, in the order they were sent. -/
def rightEdges (sent : List TcpSegment) : List SeqNum :=
  (sent.filter (·.flags.ack)).map (·.rightEdge)

theorem rightEdges_append (sent out : List TcpSegment) :
    rightEdges (sent ++ out) = rightEdges sent ++ rightEdges out := by
  simp [rightEdges]

theorem rightEdges_single (h : seg.flags.ack = true) : rightEdges [seg] = [seg.rightEdge] := by
  simp [rightEdges, h]

theorem rightEdges_of_forall (h : ∀ seg ∈ out, seg.flags.ack = false) : rightEdges out = [] := by
  rw [rightEdges, List.map_eq_nil_iff, List.filter_eq_nil_iff]
  exact fun seg hseg => by simp [h seg hseg]

theorem Advertises.rightEdge (h : Advertises c seg) :
    seg.rightEdge = pos c.rcvNxt c.recv.window := by
  rw [TcpSegment.rightEdge, h.ackNum, h.window, ← c.currentRcvWnd_toNat, pos, BitVec.ofNat_toNat]

/-- The last edge is at most the right edge of the current window, and the queue ends below it. -/
structure Windowed (v : RecvView) (sent : List TcpSegment) : Prop where
  held : v.Held
  last : ∃ w ≤ v.window, (rightEdges sent).getLast? = some (pos v.rcvNxt w) ∧
    ∀ e ∈ v.oooSegments, offset v.rcvNxt e + e.2.length ≤ w
  chain : (rightEdges sent).IsChain fun x y => seqLe x y = true

namespace Windowed

/-- An advertisement after the window has moved to the right. -/
theorem shift {v : RecvView} (h : Windowed v sent) (hheld : c.recv.Held)
    (hs : RecvView.Shifts 65536 v c.recv) (hseg : Advertises c seg)
    (hack : seg.flags.ack = true) : Windowed c.recv (sent ++ [seg]) := by
  obtain ⟨w, hw, hlast, -⟩ := h.last
  obtain ⟨r, hr, hn, hle⟩ := hs
  have hedges : rightEdges (sent ++ [seg]) = rightEdges sent ++ [pos c.rcvNxt c.recv.window] := by
    rw [rightEdges_append, rightEdges_single hack, hseg.rightEdge]
  refine ⟨hheld, ⟨c.recv.window, le_rfl, by simp [hedges, TcpConnection.recv], ?_⟩, ?_⟩
  · exact fun e he => (hheld.queued.inside e he).2.2
  · rw [hedges, List.isChain_append]
    refine ⟨h.chain, .singleton _, fun x hx y hy => ?_⟩
    obtain rfl : pos v.rcvNxt w = x := by simpa [hlast] using hx
    obtain rfl : pos c.rcvNxt c.recv.window = y := by simpa using hy
    have h₁ := v.window_le
    have h₂ := c.recv.window_le
    rw [show c.rcvNxt = pos v.rcvNxt r from hn, pos_pos, seqLe_pos (by omega) (by omega)]
    omega

theorem advertise (h : Windowed c.recv sent) (hseg : Advertises c seg) :
    Windowed c.recv (sent ++ [seg]) := by
  by_cases hack : seg.flags.ack = true
  · exact h.shift h.held (.refl _ _) hseg hack
  · have hedges : rightEdges (sent ++ [seg]) = rightEdges sent := by
      rw [rightEdges_append, @rightEdges_of_forall [seg] (by simpa using hack),
        List.append_nil]
    exact ⟨h.held, by rw [hedges]; exact h.last, by rw [hedges]; exact h.chain⟩

theorem advertise_reply (h : Windowed c.recv sent) (hseg : ∀ r ∈ reply, Advertises c r) :
    Windowed c.recv (sent ++ reply.toList) := by
  cases reply with
  | none => simpa using h
  | some r => exact h.advertise (hseg r rfl)

end Windowed

/-- A connection that has not seen its peer's SYN. -/
structure Fresh (c : TcpConnection ρ) (sent : List TcpSegment) : Prop where
  state : c.synchronized = false
  rxBuffer : c.rxBuffer = []
  oooSegments : c.oooSegments = []
  mirror : ∀ k p, c.oooQueue[k]? = some p ↔ (k, p) ∈ c.oooSegments
  finReceived : c.finReceived = false
  unadvertised : rightEdges sent = []
  quiet : c.lastAdvertisedWnd = 65535
  queue : ∀ r ∈ c.send.queue, r.flags.ack = false

namespace Fresh

theorem mayAdvertise (h : Fresh c sent) : c.mayAdvertise = false := by
  have hle : c.localMss ≤ 65535 := by bv_omega
  simpa [TcpConnection.mayAdvertise, h.state, h.quiet] using hle

theorem congr (h : Fresh c sent) (hs : c'.state = c.state) (hr : c'.recv = c.recv)
    (hv : c'.send = c.send) (ha : c'.lastAdvertisedWnd = c.lastAdvertisedWnd) : Fresh c' sent where
  state := by simpa only [TcpConnection.synchronized, hs] using h.state
  rxBuffer := (congrArg RecvView.rxBuffer hr).trans h.rxBuffer
  oooSegments := (congrArg RecvView.oooSegments hr).trans h.oooSegments
  mirror := by
    have hooo : c'.oooSegments = c.oooSegments := congrArg RecvView.oooSegments hr
    have hmap : c'.oooQueue = c.oooQueue := congrArg RecvView.oooQueue hr
    rw [hooo, hmap]
    exact h.mirror
  finReceived := (congrArg RecvView.finReceived hr).trans h.finReceived
  unadvertised := h.unadvertised
  quiet := ha.trans h.quiet
  queue := by
    rw [hv]
    exact h.queue

theorem same (h : Fresh c sent) (hs : SameViews c c') : Fresh c' sent := by
  refine h.congr hs.state hs.recv hs.send ?_
  rcases hs.advertised with ha | ha
  · exact ha
  · simp [h.mayAdvertise] at ha

theorem tornDown (h : Fresh c sent) (hs : c'.state = .closed) (hr : c'.recv = c.recv.afterReset)
    (hv : c'.send = c.send.tearDown) (ha : c'.lastAdvertisedWnd = c.lastAdvertisedWnd) :
    Fresh c' sent where
  state := by simp [TcpConnection.synchronized, hs]
  rxBuffer := (congrArg RecvView.rxBuffer hr).trans h.rxBuffer
  oooSegments := congrArg RecvView.oooSegments hr
  mirror := by
    have hooo : c'.oooSegments = [] := congrArg RecvView.oooSegments hr
    have hmap : c'.oooQueue = ∅ := congrArg RecvView.oooQueue hr
    simp [hooo, hmap]
  finReceived := (congrArg RecvView.finReceived hr).trans h.finReceived
  unadvertised := h.unadvertised
  quiet := ha.trans h.quiet
  queue := by simp [hv, SendView.tearDown]

theorem abort (h : Fresh c sent) : Fresh c.abort sent where
  state := rfl
  rxBuffer := h.rxBuffer
  oooSegments := h.oooSegments
  mirror := h.mirror
  finReceived := h.finReceived
  unadvertised := h.unadvertised
  quiet := h.quiet
  queue := by simp [TcpConnection.abort, TcpConnection.send]

theorem act (h : Fresh c sent) (step : LocalStep c c' out) : Fresh c' (sent ++ out) := by
  have hsame := h.same (localStep_unsynchronized step h.state)
  suffices hout : ∀ seg ∈ out, seg.flags.ack = false by
    refine { hsame with unadvertised := ?_ }
    rw [rightEdges_append, h.unadvertised, rightEdges_of_forall hout, List.append_nil]
  intro seg hseg
  by_contra hack
  rcases (localStep_advertises step hseg).2 (by simpa using hack) with hmay | ⟨r, hr, hflag⟩
  · simp [h.mayAdvertise] at hmay
  · simp [h.queue r hr] at hflag

/-- The first advertisement answers the peer's SYN. -/
theorem synced (h : Fresh c sent) (hr : c'.recv = c.recv.synced seg.seqNum)
    {r : TcpSegment} (hreply : Advertises c' r) (hack : r.flags.ack = true) :
    Windowed c'.recv (sent ++ [r]) := by
  have hedges : rightEdges (sent ++ [r]) = [pos c'.rcvNxt c'.recv.window] := by
    rw [rightEdges_append, h.unadvertised, rightEdges_single hack, hreply.rightEdge]
    rfl
  have hempty : c'.recv.oooSegments = [] := by
    rw [hr]
    exact h.oooSegments
  refine ⟨⟨?_, ?_, ?_⟩, ⟨c'.recv.window, le_rfl, by rw [hedges]; rfl, by simp [hempty]⟩, ?_⟩
  · rw [hr]
    exact (congrArg List.length h.rxBuffer).trans_le (Nat.zero_le _)
  · rw [hempty]
    exact queued_nil _ _ _
  · rw [hr]
    exact h.mirror
  · rw [hedges]
    exact .singleton _

end Fresh

/-- A connection past its peer's SYN. -/
structure Receiving (c : TcpConnection ρ) (sent : List TcpSegment) : Prop where
  windowed : Windowed c.recv sent
  opened : c.state ≠ .listen ∧ c.state ≠ .synSent
  taken : taking c.state = true → c.finReceived = false

namespace Receiving

theorem of_synchronized (hw : Windowed c.recv sent) (hs : c.synchronized = true)
    (ht : taking c.state = true → c.finReceived = false) : Receiving c sent := by
  simp only [TcpConnection.synchronized, decide_eq_true_eq] at hs
  exact ⟨hw, hs.2, ht⟩

/-- Nothing was received. -/
theorem keep (h : Receiving c sent) (hr : c'.recv = c.recv) (hout : ∀ seg ∈ out, Advertises c' seg)
    (hlen : out.length ≤ 1) (hopen : c'.state ≠ .listen ∧ c'.state ≠ .synSent)
    (ht : taking c'.state = true → taking c.state = true) : Receiving c' (sent ++ out) := by
  have hf : c'.finReceived = c.finReceived := congrArg RecvView.finReceived hr
  have hw : Windowed c'.recv sent := hr ▸ h.windowed
  refine ⟨?_, hopen, fun hs => hf.trans (h.taken (ht hs))⟩
  match out with
  | [] => simpa using hw
  | [seg] => exact hw.advertise (hout seg (by simp))

theorem act (h : Receiving c sent) (step : LocalStep c c' out) : Receiving c' (sent ++ out) := by
  have hlen : out.length ≤ 1 := by cases step <;> simp
  have hopen := h.opened
  refine h.keep (localStep_recv step) (fun seg hseg =>
    (localStep_advertises step hseg).1) hlen ?_ ?_
  · cases step with
    | quiet same | ack _ same _ | resend same _ => rwa [same.state]
    | chunk _ _ _ _ state => rwa [state]
    | fin state => rcases state with ⟨-, hs⟩ | ⟨-, hs⟩ <;> simp [hs]
    | expire _ after => simp [after]
  · cases step with
    | quiet same | ack _ same _ | resend same _ => simp [same.state]
    | chunk _ _ _ _ state => simp [state]
    | fin state => rcases state with ⟨hb, hs⟩ | ⟨hb, hs⟩ <;> simp [hb, hs, taking]
    | expire _ after => simp [after, taking]

theorem reset (h : Receiving c sent) (hs : c'.state = .closed) (hr : c'.recv = c.recv.afterReset) :
    Receiving c' sent := by
  obtain ⟨w, hw, hlast, -⟩ := h.windowed.last
  refine ⟨?_, by simp [hs], by simp [hs, taking]⟩
  rw [hr]
  exact ⟨⟨h.windowed.held.room, queued_nil _ _ _, by simp [RecvView.afterReset]⟩,
    ⟨w, hw, hlast, by simp [RecvView.afterReset]⟩, h.windowed.chain⟩

/-- In data transfer, what is received is acknowledged at once. -/
theorem transfer (h : Receiving c sent)
    (before : c.state = .established ∨ c.state = .finWait1 ∨ c.state = .finWait2)
    (recv : c'.recv = (c.acceptPayload seg).recv.afterFin seg)
    (state : c'.state = c.stateAfter seg ∨
      (c.finSent = true ∧ c'.state = (c.stateAfter seg).onFinAcked))
    (acks : ∀ r ∈ reply, Advertises c' r)
    (answered : seg.payload ≠ [] ∨ (c.acceptPayload seg).recv.takesFin seg = true →
      ∃ r ∈ reply, PureAck c' r) : Receiving c' (sent ++ reply.toList) := by
  have hf : c.finReceived = false :=
    h.taken (by rcases before with hb | hb | hb <;> simp [hb, taking])
  refine of_synchronized ?_ (synchronized_transfer before state) ?_
  · by_cases hnew : seg.payload ≠ [] ∨ (c.acceptPayload seg).recv.takesFin seg = true
    · obtain ⟨r, hmem, hr⟩ := answered hnew
      obtain ⟨hheld, hshift⟩ := c.acceptPayload_held h.windowed.held hf seg
      obtain ⟨hheld', hshift'⟩ := hheld.afterFin seg hshift
      rw [← recv] at hheld' hshift'
      obtain rfl := Option.mem_def.mp hmem
      exact h.windowed.shift hheld' hshift' hr.advertises (by simp [hr.flags, TcpFlags.ackOnly])
    · rw [not_or, not_not] at hnew
      have hsame : c.acceptPayload seg = c := by simp [TcpConnection.acceptPayload, hnew.1]
      rw [RecvView.afterFin, if_neg hnew.2, hsame] at recv
      have hw : Windowed c'.recv sent := recv ▸ h.windowed
      exact hw.advertise_reply acks
  · intro ht
    have hf' : (c.acceptPayload seg).recv.finReceived = false :=
      (c.acceptPayload_finReceived seg).trans hf
    by_cases hfin : (c.acceptPayload seg).recv.takesFin seg = true
    · simp only [TcpConnection.stateAfter, hfin, if_true] at state
      rcases before with hb | hb | hb <;> rcases state with hs | ⟨-, hs⟩ <;> rw [hb] at hs <;>
        simp [hs, taking, TcpState.onFin, TcpState.onFinAcked] at ht
    · rw [RecvView.afterFin, if_neg hfin] at recv
      exact (congrArg RecvView.finReceived recv).trans hf'

end Receiving

theorem fresh_receive (h : Fresh c sent) (arrival : Arrival c seg c' reply) :
    Fresh c' (sent ++ reply.toList) ∨ Receiving c' (sent ++ reply.toList) := by
  have hadv := arrival_advertises arrival
  obtain ⟨c₁, hp, hr⟩ := arrival
  have h₁ : Fresh c₁ sent := h.congr hp.state hp.recv hp.send hp.advertised
  have hlive := h₁.state
  have hfin : c₁.finReceived = false := h₁.finReceived
  -- The three ways to consume a SYN differ only in the state that follows.
  have hopen : ∀ r, reply = some r → r.flags.ack = true → c'.recv = c₁.recv.synced seg.seqNum →
      c'.synchronized = true → Receiving c' (sent ++ reply.toList) := by
    rintro r rfl hack hv hs
    exact .of_synchronized (h₁.synced hv (hadv r rfl).1 hack) hs
      fun _ => (congrArg RecvView.finReceived hv).trans hfin
  cases hr with
  | ignore same => exact .inl (by simpa using h₁.same same)
  | answer live => simp [hlive] at live
  | reset rst ok state recv send opts marks mss advertised =>
    exact .inl (by simpa using h₁.tornDown state recv send advertised)
  | passiveOpen now before syn state recv =>
    exact .inr (hopen _ rfl rfl recv (by simp [TcpConnection.synchronized, state]))
  | activeOpen before syn ack acked state recv _ _ _ reply =>
    exact .inr (hopen _ rfl (by rw [reply.flags]; rfl) recv
      (by simp [TcpConnection.synchronized, state]))
  | crossing before syn ack state recv =>
    exact .inr (hopen _ rfl rfl recv (by simp [TcpConnection.synchronized, state]))
  | handshake before => simp [TcpConnection.synchronized, before] at hlive
  | transfer before =>
    rcases before with hb | hb | hb <;> simp [TcpConnection.synchronized, hb] at hlive
  | closeWait before => simp [TcpConnection.synchronized, before] at hlive
  | finAcked states =>
    rcases states with ⟨hb, -⟩ | ⟨hb, -⟩ <;> simp [TcpConnection.synchronized, hb] at hlive

theorem receiving_receive (h : Receiving c sent) (arrival : Arrival c seg c' reply) :
    Receiving c' (sent ++ reply.toList) := by
  have hadv := arrival_advertises arrival
  obtain ⟨c₁, hp, hr⟩ := arrival
  have h₁ : Receiving c₁ sent := by
    have hk := h.keep hp.recv (List.forall_mem_nil _) (by simp) (hp.state ▸ h.opened)
      (by simp [hp.state])
    simpa using hk
  have hout : ∀ r ∈ reply.toList, Advertises c' r :=
    fun r hr => (hadv r (Option.mem_toList.mp hr)).1
  have hlen : reply.toList.length ≤ 1 := by cases reply <;> simp
  have hsame : c'.recv = c₁.recv → c'.state = c₁.state → Receiving c' (sent ++ reply.toList) :=
    fun hv hs => h₁.keep hv hout hlen (hs ▸ h₁.opened) (by simp [hs])
  cases hr with
  | ignore same => exact hsame same.recv same.state
  | answer live same => exact hsame same.recv same.state
  | reset rst ok state recv => simpa using h₁.reset state recv
  | passiveOpen now before => exact absurd before h₁.opened.1
  | activeOpen before => exact absurd before h₁.opened.2
  | crossing before => exact absurd before h₁.opened.2
  | handshake before ack acked state recv _ _ _ acks answered =>
    -- The handshake arm takes no FIN, and is otherwise the same as data transfer.
    have hf : c₁.finReceived = false := h₁.taken (by simp [before, taking])
    have hf' : c'.finReceived = false :=
      (congrArg RecvView.finReceived recv).trans ((c₁.acceptPayload_finReceived seg).trans hf)
    refine .of_synchronized ?_ (by simp [TcpConnection.synchronized, state]) fun _ => hf'
    by_cases hpay : seg.payload = []
    · rw [show c₁.acceptPayload seg = c₁ by simp [TcpConnection.acceptPayload, hpay]] at recv
      have hw : Windowed c'.recv sent := recv ▸ h₁.windowed
      exact hw.advertise_reply fun r hr => (acks r hr).advertises
    · obtain ⟨r, rfl⟩ := Option.ne_none_iff_exists'.mp (answered hpay)
      obtain ⟨hheld, t, ht, hn, hw⟩ := c₁.acceptPayload_held h₁.windowed.held hf seg
      rw [← recv] at hheld hn hw
      exact h₁.windowed.shift hheld ⟨t, by omega, hn, hw⟩ (acks r rfl).advertises
        (by simp [(acks r rfl).flags, TcpFlags.ackOnly])
  | transfer before recv state send opts marks acks answered =>
    exact h₁.transfer before recv state (fun r hr => (hadv r hr).1) answered
  | closeWait before ack new state recv => exact hsame recv (state.trans before.symm)
  | finAcked states ack acked recv =>
    refine h₁.keep recv hout hlen ?_ ?_ <;> rcases states with ⟨hb, ha⟩ | ⟨hb, ha⟩ <;>
      simp [hb, ha, taking]

theorem Receiving.read (h : Receiving c sent) (len : ℕ) : Receiving (c.read len).1 sent := by
  unfold TcpConnection.read
  split
  · exact h
  · obtain ⟨w, hw, hlast, hends⟩ := h.windowed.last
    have hroom : c.rxBuffer.length ≤ c.rcvCapacity := h.windowed.held.room
    have hwindow : c.recv.window ≤
        ({ c.recv with rxBuffer := c.rxBuffer.drop (min len c.rxBuffer.length) }).window := by
      simp only [RecvView.window, TcpConnection.recv, List.length_drop]
      omega
    refine ⟨⟨⟨?_, h.windowed.held.queued.mono hwindow, h.windowed.held.mirror⟩,
      ⟨w, hw.trans hwindow, hlast, hends⟩, h.windowed.chain⟩, h.opened, h.taken⟩
    simp only [TcpConnection.recv, List.length_drop]
    omega

theorem Receiving.abort (h : Receiving c sent) : Receiving c.abort sent :=
  ⟨h.windowed, by simp [TcpConnection.abort], by simp [TcpConnection.abort, taking]⟩

/-- A connection is opened once: the run itself does not dial. -/
theorem receiving_invariant [RttEstimator ρ] :
    Run.Invariant (fun (_ : TcpConnection ρ) k => k.dials = false)
      (fun c sent => Fresh c sent ∨ Receiving c sent) where
  write := fun _ h => h.imp (fun h => ⟨h.1, h.2, h.3, h.4, h.5, h.6, h.7, h.8⟩)
    fun h => ⟨h.1, h.2, h.3⟩
  read := fun {c sent} len h => by
    rcases h with h | h
    · refine .inl ?_
      rw [TcpConnection.read, if_pos h.rxBuffer]
      exact h
    · exact .inr (h.read len)
  act := fun h step => h.imp (·.act step) (·.act step)
  abort := fun _ _ h => h.imp (·.abort) (·.abort)
  receive := fun h _ arrival => by
    rcases h with h | h
    · exact fresh_receive h arrival
    · exact .inr (receiving_receive h arrival)
  dial := fun _ hdial => by simp [Call.dials] at hdial

/-! ### The receive side of every reachable state -/

/-- What the receive buffer, the out-of-order queue and the advertisements satisfy. -/
structure ReceiveOk (c : TcpConnection ρ) (sent : List TcpSegment) : Prop where
  room : c.rxBuffer.length ≤ c.rcvCapacity
  sorted : c.oooSegments.Pairwise fun x y => seqLt x.1 y.1 = true
  above : ∀ e ∈ c.oooSegments, seqGt e.1 c.rcvNxt = true ∨ (c.finReceived = true ∧ e.1 = c.rcvNxt)
  /-- The edges never move left, so the last one is the highest. -/
  below : ∀ e ∈ c.oooSegments, ∃ edge ∈ (rightEdges sent).getLast?, seqLe (oooEnd e) edge = true
  apart : c.oooSegments.Pairwise fun x y =>
    TcpConnection.coveredBy x y.1 (oooEnd y) = false ∧
      TcpConnection.coveredBy y x.1 (oooEnd x) = false
  bytes : TcpConnection.oooBytes c.oooSegments ≤ maxOooBytes
  mirror : ∀ k p, c.oooQueue[k]? = some p ↔ (k, p) ∈ c.oooSegments
  edges : (rightEdges sent).IsChain fun x y => seqLe x y = true

theorem Fresh.receiveOk (h : Fresh c sent) : ReceiveOk c sent := by
  refine ⟨by simp [h.rxBuffer], ?_, ?_, ?_, ?_, ?_, h.mirror, ?_⟩
  · simp [h.oooSegments]
  · simp [h.oooSegments]
  · simp [h.oooSegments]
  · simp [h.oooSegments]
  · simp [h.oooSegments, TcpConnection.oooBytes]
  · simp [h.unadvertised]

theorem Receiving.receiveOk (h : Receiving c sent) : ReceiveOk c sent := by
  have hq := h.windowed.held.queued
  have hle := c.recv.window_le
  obtain ⟨w, hw, hlast, hends⟩ := h.windowed.last
  have hq' : Queued c.rcvNxt c.recv.lowest c.recv.window c.oooSegments := hq
  refine ⟨h.windowed.held.room, ?_, ?_, ?_, ?_, hq.bytes, h.windowed.held.mirror, h.windowed.chain⟩
  · exact hq'.apart.imp_of_mem fun hx hy hxy => (hq'.seqLt_iff hle hx hy).mpr hxy.1
  · intro e he
    have hin := hq'.inside e he
    rcases Nat.eq_zero_or_pos (offset c.rcvNxt e) with hz | hpos
    · refine .inr ⟨?_, by rw [seq_eq_pos c.rcvNxt e, hz, pos_zero]⟩
      by_contra hf
      have hlow : c.recv.lowest = 1 := by simp [RecvView.lowest, TcpConnection.recv, hf]
      omega
    · refine .inl ?_
      have hgt : seqGt (pos c.rcvNxt (offset c.rcvNxt e)) (pos c.rcvNxt 0) = true := by
        rw [seqGt_pos (by omega) (by omega)]
        exact hpos
      rwa [← seq_eq_pos, pos_zero] at hgt
  · intro e he
    have hend : offset c.rcvNxt e + e.2.length ≤ w := hends e he
    refine ⟨_, Option.mem_def.mpr hlast, ?_⟩
    rw [oooEnd_pos (seq_eq_pos c.rcvNxt e)]
    exact (seqLe_pos (by omega) (by omega)).mpr hend
  · refine hq'.apart.imp_of_mem fun hx hy hxy => ?_
    have hix := (hq'.inside _ hx).2.2
    have hiy := (hq'.inside _ hy).2.2
    rw [← Bool.not_eq_true, ← Bool.not_eq_true, Queued.covered_iff hle hix hiy,
      Queued.covered_iff hle hiy hix]
    omega

section runs

variable [RttEstimator ρ]

theorem fresh_opened (st : Start) {r : Run ρ} (h : r.Opened st) : Fresh r.conn r.sent := by
  rcases h with rfl | rfl
  · refine ⟨rfl, rfl, rfl, ?_, rfl, rfl, rfl, ?_⟩
    · simp [Run.start, Start.listening, Config.apply, TcpConnection.newServer, TcpConnection.newIn]
    · simp [Run.start, Start.listening, Config.apply, TcpConnection.newServer, TcpConnection.newIn,
        TcpConnection.send]
  · refine ⟨rfl, rfl, rfl, ?_, rfl, rfl, rfl, ?_⟩
    · simp [Start.dialing, Start.idle, Config.apply, TcpConnection.newClient, TcpConnection.newIn,
        TcpConnection.initiateSynAt, TcpConnection.trackForRetransmit]
    · simp [Start.dialing, Start.idle, Config.apply, TcpConnection.newClient, TcpConnection.newIn,
        TcpConnection.initiateSynAt, TcpConnection.trackForRetransmit, TcpConnection.send,
        RetransmitSegment.range, TcpFlags.synOnly]

/-- In every state of every run the receive side is in order, and the right edge of the
advertised window has never moved left. -/
theorem receive_window (st : Start) {r : Run ρ} (hr : r.Opened st) (calls : List Call)
    (hcalls : ∀ k ∈ calls, k.dials = false) :
    ReceiveOk (r.run calls).conn (r.run calls).sent := by
  rcases receiving_invariant.run (.inl (fresh_opened st hr))
    (Run.admits_of_forall hcalls) with h | h
  · exact h.receiveOk
  · exact h.receiveOk

end runs

/-- A passive open, a byte beyond a gap of one, and a FIN where the gap is. -/
def finInGap : List Call :=
  [.handleSegmentAt (peerSegment 1000 0 .synOnly []) 1,
    .handleSegmentAt (peerSegment 1001 5001 .ackOnly []) 2,
    .handleSegmentAt (peerSegment 1002 5001 .pshAck [7]) 3,
    .handleSegmentAt (peerSegment 1001 5001 .finAck []) 4]

example : ((Run.start host.listening : Run JacobsonRtt).run finInGap).conn.rcvNxt = 1002 := by
  decide +kernel

theorem receive_window_finInGap :
    let r : Run JacobsonRtt := (Run.start host.listening).run finInGap
    r.conn.oooSegments = [(1002, [7])] ∧ ReceiveOk r.conn r.sent :=
  ⟨by decide +kernel, receive_window host (.inl rfl) finInGap (by decide)⟩

/-- The FIN moves `rcv_nxt` onto the queued byte. -/
theorem queued_at_rcvNxt :
    ¬ ∀ e ∈ ((Run.start (host.listening : TcpConnection JacobsonRtt)).run
      finInGap).conn.oooSegments,
      seqGt e.1 ((Run.start (host.listening : TcpConnection JacobsonRtt)).run
        finInGap).conn.rcvNxt =
        true := by
  decide +kernel

end ToyTcpip.Tcp
