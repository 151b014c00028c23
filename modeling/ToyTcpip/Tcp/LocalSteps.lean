import ToyTcpip.Tcp.Views

/-! What a connection can do without input: every poll is a chain of such steps. -/
namespace ToyTcpip.Tcp

variable {ρ : Type}

/-- One thing the output pump or a close can do, with the segments it puts on the wire. -/
inductive LocalStep (c c' : TcpConnection ρ) : List TcpSegment → Prop where
  | quiet (same : SameViews c c') : LocalStep c c' []
  | ack {seg : TcpSegment} (due : c.mayAdvertise = true) (same : SameViews c c')
      (reply : PureAck c' seg) : LocalStep c c' [seg]
  | resend {seg : TcpSegment} {r : SentRange} (same : SameViews c c') (again : Resent c' seg r) :
      LocalStep c c' [seg]
  | chunk {seg : TcpSegment} {n : ℕ} {flags : TcpFlags} (sending : c.sending = true)
      (pos : 0 < n) (le : n ≤ c.txBuffer.length)
      (kind : (flags = .pshAck ∧ c.send.inFlight.toNat + n ≤ c.sndWnd.toNat) ∨
        (flags = .ackOnly ∧ n = 1 ∧ c.send.queue = []))
      (state : c'.state = c.state) (recv : c'.recv = c.recv) (opts : c'.opts = c.opts)
      (send : c'.send = c.send.pushChunk n flags) (marks : MarksFrom c c')
      (out : seg = c.segment c.sndNxt c.rcvNxt flags c.currentRcvWnd [] (c.txBuffer.take n)) :
      LocalStep c c' [seg]
  | fin {seg : TcpSegment}
      (state : (c.state = .established ∧ c'.state = .finWait1) ∨
        (c.state = .closeWait ∧ c'.state = .lastAck))
      (unsent : c.finSent = false) (drained : c.txBuffer = [])
      (recv : c'.recv = c.recv) (opts : c'.opts = c.opts)
      (send : c'.send = c.send.pushFin) (marks : MarksFrom c c')
      (out : seg = c.segment c.sndNxt c.rcvNxt .finAck c.currentRcvWnd [] []) :
      LocalStep c c' [seg]
  | expire (before : c.state = .timeWait) (after : c'.state = .closed) (recv : c'.recv = c.recv)
      (opts : c'.opts = c.opts) (send : c'.send = c.send) (marks : MarksFrom c c') :
      LocalStep c c' []

/-- Local steps in sequence; the segments stand in the order they are sent. -/
inductive LocalChain (c : TcpConnection ρ) : TcpConnection ρ → List TcpSegment → Prop where
  | refl : LocalChain c c []
  | tail {c' c'' : TcpConnection ρ} {out out' : List TcpSegment} (chain : LocalChain c c' out)
      (step : LocalStep c' c'' out') : LocalChain c c'' (out ++ out')

theorem LocalChain.single {c c' : TcpConnection ρ} {out : List TcpSegment}
    (h : LocalStep c c' out) : LocalChain c c' out := by
  simpa using LocalChain.tail .refl h

theorem LocalChain.trans {c c' c'' : TcpConnection ρ} {out out' : List TcpSegment}
    (h : LocalChain c c' out) (h' : LocalChain c' c'' out') : LocalChain c c'' (out ++ out') := by
  induction h' with
  | refl => simpa using h
  | tail _ step ih => rw [← List.append_assoc]; exact ih.tail step

theorem LocalStep.finSent_mono {c c' : TcpConnection ρ} {out : List TcpSegment}
    (h : LocalStep c c' out) (hf : c.finSent = true) : c'.finSent = true := by
  have hview : c'.send.finSent = true := by
    cases h with
    | quiet same | ack _ same _ | resend same _ => rw [same.send]; exact hf
    | chunk _ _ _ _ _ _ _ send | expire _ _ _ _ send => rw [send]; exact hf
    | fin _ _ _ _ _ send => rw [send]; rfl
  exact hview

theorem LocalChain.finSent_mono {c c' : TcpConnection ρ} {out : List TcpSegment}
    (h : LocalChain c c' out) (hf : c.finSent = true) : c'.finSent = true := by
  induction h with
  | refl => exact hf
  | tail _ step ih => exact step.finSent_mono ih

namespace TcpConnection

theorem sendChunk_step {c : TcpConnection ρ} {n : ℕ} {flags : TcpFlags} (now : ℕ)
    (hs : c.sending = true) (hpos : 0 < n) (hle : n ≤ c.txBuffer.length)
    (hk : (flags = .pshAck ∧ c.send.inFlight.toNat + n ≤ c.sndWnd.toNat) ∨
      (flags = .ackOnly ∧ n = 1 ∧ c.send.queue = [])) :
    LocalStep c (c.sendChunk n flags now).1 [(c.sendChunk n flags now).2] := by
  refine .chunk hs hpos hle hk rfl rfl rfl ?_
    (trackForRetransmit_marks { c with .. } _ _ _ _ now) rfl
  simp only [sendChunk, trackForRetransmit, send, SendView.pushChunk, SendView.push,
    CongestionControl.recordSent, List.map_append, List.map_cons, List.map_nil]
  rfl

theorem sending_sendChunk (c : TcpConnection ρ) (n : ℕ) (flags : TcpFlags) (now : ℕ) :
    (c.sendChunk n flags now).1.sending = c.sending := rfl

theorem sendQueued_chain (now rounds : ℕ) {c : TcpConnection ρ} (hs : c.sending = true) :
    LocalChain c (sendQueued now rounds c).1 (sendQueued now rounds c).2 := by
  induction rounds generalizing c with
  | zero => exact .refl
  | succ rounds ih =>
    simp only [sendQueued]
    split
    · exact .refl
    · rename_i hn
      have hw : c.nextChunk ≤ c.congestion.sendWindowAvailable c.sndWnd := by
        simp only [nextChunk]
        omega
      have hl : c.nextChunk ≤ c.txBuffer.length := by
        simp only [nextChunk]
        omega
      have hk : c.send.inFlight.toNat + c.nextChunk ≤ c.sndWnd.toNat := by
        simp only [CongestionControl.sendWindowAvailable] at hw
        simp only [send]
        omega
      exact (LocalChain.single (sendChunk_step now hs (by omega) hl (.inl ⟨rfl, hk⟩))).trans
        (ih (by rwa [sending_sendChunk]))

theorem sendFin_step {c : TcpConnection ρ} {next : TcpState} (now : ℕ)
    (hs : (c.state = .established ∧ next = .finWait1) ∨ (c.state = .closeWait ∧ next = .lastAck))
    (hf : c.finSent = false) (ht : c.txBuffer = []) :
    LocalStep c (c.sendFin next now).1 [(c.sendFin next now).2] := by
  refine .fin hs hf ht rfl rfl ?_ (trackForRetransmit_marks { c with .. } _ _ _ _ now) rfl
  simp only [sendFin, trackForRetransmit, send, SendView.pushFin, SendView.push,
    CongestionControl.recordSent, List.map_append, List.map_cons, List.map_nil]
  rfl

theorem emitFin_chain (c : TcpConnection ρ) (now : ℕ) (ht : c.txBuffer = []) :
    LocalChain c (c.emitFin now).1 (c.emitFin now).2.toList := by
  unfold emitFin
  split
  · exact .refl
  · rename_i hf
    have hf' : c.finSent = false := by simpa using hf
    split
    · rename_i hs
      exact .single (sendFin_step now (.inl ⟨hs, rfl⟩) hf' ht)
    · rename_i hs
      exact .single (sendFin_step now (.inr ⟨hs, rfl⟩) hf' ht)
    · exact .refl

theorem setClock_quiet (c : TcpConnection ρ) (now : ℕ) :
    LocalStep c { c with currentTimeMs := now } [] :=
  .quiet ⟨rfl, rfl, rfl, rfl, .refl c, rfl, .inl rfl⟩

theorem initiateCloseAt_chain (c : TcpConnection ρ) (now : ℕ) :
    LocalChain c (c.initiateCloseAt now).1 (c.initiateCloseAt now).2.toList := by
  have hq : LocalStep c { c with currentTimeMs := now, closeRequested := true } [] :=
    .quiet ⟨rfl, rfl, rfl, rfl, .refl c, rfl, .inl rfl⟩
  dsimp only [initiateCloseAt]
  split
  · split
    · rename_i ht
      exact (LocalChain.single hq).trans (emitFin_chain _ now ht)
    · exact .single hq
  · exact .single (setClock_quiet c now)

theorem emitDeferredFin_chain (c : TcpConnection ρ) (now : ℕ) :
    LocalChain c (c.emitDeferredFin now).1 (c.emitDeferredFin now).2 := by
  unfold emitDeferredFin
  split
  · rename_i h
    exact emitFin_chain c now h.2.2.1
  · exact .refl

theorem sendNew_chain (c : TcpConnection ρ) (now : ℕ) :
    LocalChain c (c.sendNew now).1 (c.sendNew now).2 := by
  unfold sendNew
  split
  rename_i c₁ data heq
  split_ifs at heq with hs
  · have h := sendQueued_chain now c.txBuffer.length hs
    rw [heq] at h
    exact h.trans (emitDeferredFin_chain c₁ now)
  · obtain ⟨rfl, rfl⟩ := Prod.mk.inj heq
    exact emitDeferredFin_chain c now

theorem updateWindow_chain (c : TcpConnection ρ) :
    LocalChain c c.updateWindow.1 c.updateWindow.2 := by
  unfold updateWindow
  split
  · rename_i h
    have hdue : c.mayAdvertise = true := by simp [mayAdvertise, h.1]
    exact .single (.ack hdue (buildAck_sameViews hdue) (buildAck_pureAck c))
  · exact .refl

theorem retransmitOldest_chain (c : TcpConnection ρ) (now : ℕ) (fast : Bool) :
    LocalChain c (c.retransmitOldest now fast).1 (c.retransmitOldest now fast).2.toList := by
  obtain ⟨hv, hr⟩ := retransmitOldest_spec c now fast
  cases h : (c.retransmitOldest now fast).2 with
  | none => exact .single (.quiet hv)
  | some seg =>
    obtain ⟨r, hr⟩ := hr seg h
    exact .single (.resend hv hr)

theorem probe_chain (c : TcpConnection ρ) (wasSending : Bool) (now : ℕ)
    (hs : wasSending = true → c.txBuffer ≠ [] → c.sending = true) :
    LocalChain c (c.probe wasSending now).1 (c.probe wasSending now).2 := by
  dsimp only [probe]
  split
  · rename_i h
    have hpos : 0 < c.txBuffer.length := List.length_pos_of_ne_nil h.2.1
    have hqueue : c.send.queue = [] := by
      simp only [send, h.2.2.2, List.map_nil]
    split
    · exact .single (.quiet ⟨rfl, rfl, rfl, rfl, .refl c, rfl, .inl rfl⟩)
    · split
      · have hq : LocalStep c (c.armPersist now).countProbe [] :=
          .quiet ⟨rfl, rfl, rfl, rfl, .refl c, rfl, .inl rfl⟩
        have hp : LocalStep (c.armPersist now).countProbe _ _ :=
          sendChunk_step now (hs h.1 h.2.1) Nat.one_pos hpos (.inr ⟨rfl, rfl, hqueue⟩)
        exact (LocalChain.single hq).trans (.single hp)
      · exact .refl
  · exact .single (.quiet ⟨rfl, rfl, rfl, rfl, .refl c, rfl, .inl rfl⟩)

theorem expireTimeWait_step (c : TcpConnection ρ) (now : ℕ) :
    LocalStep c (c.expireTimeWait now) [] := by
  unfold expireTimeWait
  split
  · split
    · rename_i h
      exact .expire h.1 rfl rfl rfl rfl (.refl c)
    · exact .quiet (.refl c)
  · exact .quiet (.refl c)

theorem sending_congr {c c' : TcpConnection ρ} (h : c'.state = c.state) :
    c'.sending = c.sending := by
  simp only [sending, h]

theorem txBuffer_congr {c c' : TcpConnection ρ} (h : c'.send = c.send) :
    c'.txBuffer = c.txBuffer :=
  congrArg SendView.txBuffer h

theorem updateWindow_sameViews (c : TcpConnection ρ) : SameViews c c.updateWindow.1 := by
  unfold updateWindow
  split
  · rename_i h
    exact buildAck_sameViews (by simp [mayAdvertise, h.1])
  · exact .refl c

theorem sendQueued_state (now rounds : ℕ) (c : TcpConnection ρ) :
    (sendQueued now rounds c).1.state = c.state := by
  induction rounds generalizing c with
  | zero => rfl
  | succ rounds ih =>
    simp only [sendQueued]
    split
    · rfl
    · rw [ih]
      rfl

/-- A deferred FIN leaves only with an empty send buffer, so whoever still has data is sending. -/
theorem emitDeferredFin_sending (c : TcpConnection ρ) (now : ℕ)
    (ht : (c.emitDeferredFin now).1.txBuffer ≠ []) :
    (c.emitDeferredFin now).1.sending = c.sending := by
  unfold emitDeferredFin at ht ⊢
  split
  · rename_i h
    simp only [h] at ht
    simp only [emitFin] at ht ⊢
    split
    · rfl
    · split
      · simp_all [sendFin, trackForRetransmit]
      · simp_all [sendFin, trackForRetransmit]
      · rfl
  · rfl

theorem sendNew_sending (c : TcpConnection ρ) (now : ℕ) (hs : c.sending = true)
    (ht : (c.sendNew now).1.txBuffer ≠ []) : (c.sendNew now).1.sending = true := by
  simp only [sendNew, hs, if_true] at ht ⊢
  rw [emitDeferredFin_sending _ now ht, sending_congr (sendQueued_state now _ c), hs]

variable [RttEstimator ρ]

theorem retransmitExpired_chain (c : TcpConnection ρ) (now : ℕ) :
    LocalChain c (c.retransmitExpired now).1 (c.retransmitExpired now).2 := by
  unfold retransmitExpired
  split
  · have hq : LocalStep c c.backOff [] := .quiet ⟨rfl, rfl, rfl, rfl, .refl c, rfl, .inl rfl⟩
    exact (LocalChain.single hq).trans (retransmitOldest_chain c.backOff now false)
  · exact .refl

theorem retransmitExpired_sameViews (c : TcpConnection ρ) (now : ℕ) :
    SameViews c (c.retransmitExpired now).1 := by
  unfold retransmitExpired
  split
  · have hq : SameViews c c.backOff := ⟨rfl, rfl, rfl, rfl, .refl c, rfl, .inl rfl⟩
    exact hq.trans (retransmitOldest_spec c.backOff now false).1
  · exact .refl c

theorem maintain_chain (c : TcpConnection ρ) (wasSending : Bool) (now : ℕ)
    (hs : wasSending = true → c.txBuffer ≠ [] → c.sending = true) :
    LocalChain c (c.maintain wasSending now).1 (c.maintain wasSending now).2 := by
  have hv : SameViews c (c.retransmitExpired now).1.updateWindow.1 :=
    (retransmitExpired_sameViews c now).trans (updateWindow_sameViews _)
  have hp := probe_chain (c.retransmitExpired now).1.updateWindow.1 wasSending now
    (by rwa [txBuffer_congr hv.send, sending_congr hv.state])
  have hall := (((retransmitExpired_chain c now).trans (updateWindow_chain _)).trans hp).trans
    (.single (expireTimeWait_step _ now))
  rw [List.append_nil] at hall
  exact hall

/-- The retransmission limit is reached: the poll tears the connection down. -/
def aborts (c : TcpConnection ρ) (now : ℕ) : Bool :=
  let c := { c with currentTimeMs := now }
  !(c.aborted || c.state = .closed) &&
    (c.sendNew now).1.rtoExpired now && (c.sendNew now).1.rtoExhausted

omit [RttEstimator ρ] in
theorem retransmitQueue_ne_nil {c : TcpConnection ρ} (h : c.rtoExhausted = true) :
    c.retransmitQueue ≠ [] := by
  intro hq
  simp [rtoExhausted, hq] at h

/-- A poll is a chain of local steps, and ends in the abort when the limit is reached. -/
theorem pollOutput_chain (c : TcpConnection ρ) (now : ℕ) :
    ∃ c₁, LocalChain c c₁ (c.pollOutput now).2 ∧
      ((c.aborts now = false ∧ (c.pollOutput now).1 = c₁) ∨
        (c.aborts now = true ∧ c₁.retransmitQueue ≠ [] ∧ (c.pollOutput now).1 = c₁.abort)) := by
  have hclock := LocalChain.single (setClock_quiet c now)
  unfold pollOutput aborts
  generalize { c with currentTimeMs := now } = c₀ at hclock ⊢
  by_cases hdead : c₀.aborted = true ∨ c₀.state = .closed
  · refine ⟨c₀, ?_, .inl ⟨?_, ?_⟩⟩
    · simpa only [hdead, if_true] using hclock
    · rcases hdead with h | h <;> simp [h]
    · simp only [hdead, if_true]
  have hdead' : (c₀.aborted || decide (c₀.state = .closed)) = false := by simpa using hdead
  have hsent : LocalChain c (c₀.sendNew now).1 (c₀.sendNew now).2 :=
    hclock.trans (sendNew_chain c₀ now)
  simp only [hdead, hdead', if_false, Bool.not_false, Bool.true_and, Bool.and_eq_true]
  by_cases hx : (c₀.sendNew now).1.rtoExpired now = true ∧ (c₀.sendNew now).1.rtoExhausted = true
  · exact ⟨_, by simpa only [hx, and_self, if_true] using hsent,
      .inr ⟨by simp [hx], retransmitQueue_ne_nil hx.2, by simp [hx]⟩⟩
  · have hm := maintain_chain (c₀.sendNew now).1 c₀.sending now
      (fun hs ht => sendNew_sending c₀ now hs ht)
    refine ⟨_, by simpa only [hx, if_false] using hsent.trans hm, .inl ⟨?_, ?_⟩⟩
    · simpa using hx
    · simp only [hx, if_false]

end TcpConnection

end ToyTcpip.Tcp
