import ToyTcpip.Lib.Piece
import ToyTcpip.Tcp.Views

/-! What trimming keeps of a segment, and rules for the drain of the out-of-order queue. -/
namespace ToyTcpip.Tcp

open Serial

/-! ### The drain -/

section drain

variable {P : DrainState → List OooSegment → Prop}

/-- A property of the receive position and the queue that each move of the drain keeps. -/
structure DrainRule (P : DrainState → List OooSegment → Prop) : Prop where
  superseded : ∀ {d pre e post}, P d (pre ++ e :: post) → seqLe (oooEnd e) d.rcvNxt = true →
    P d (pre ++ post)
  contiguous : ∀ {d pre e post}, P d (pre ++ e :: post) → seqLe (oooEnd e) d.rcvNxt = false →
    seqLe e.1 d.rcvNxt = true → P (d.consume e) (pre ++ post)

theorem DrainRule.pass (h : DrainRule P) (pre : List OooSegment) {ooo : List OooSegment}
    {d : DrainState} (hd : P d (pre ++ ooo)) :
    P (drainPass d ooo).1 (pre ++ (drainPass d ooo).2.1) := by
  induction ooo generalizing pre d with
  | nil => exact hd
  | cons e rest ih =>
    unfold drainPass
    split
    · rename_i hold
      exact ih pre (h.superseded hd hold)
    · rename_i hnew
      split
      · rename_i hmeet
        exact ih pre (h.contiguous hd (by simpa using hnew) hmeet)
      · have hgo := ih (pre ++ [e]) (by simpa using hd)
        simpa using hgo

theorem DrainRule.loop (h : DrainRule P) {rounds : ℕ} {ooo : List OooSegment} {d : DrainState}
    (hd : P d ooo) : P (drainLoop rounds d ooo).1 (drainLoop rounds d ooo).2 := by
  induction rounds generalizing d ooo with
  | zero => exact hd
  | succ rounds ih =>
    have hp := h.pass [] hd
    unfold drainLoop
    generalize drainPass d ooo = r at hp ⊢
    obtain ⟨d', left, _ | _⟩ := r
    · exact hp
    · exact ih hp

end drain

/-- Nothing queued can be delivered or dropped. -/
def Settled (r : SeqNum) (ooo : List OooSegment) : Prop :=
  ∀ e ∈ ooo, seqLe (oooEnd e) r = false ∧ seqLe e.1 r = false

/-- A pass either finds the queue settled or shortens it. -/
theorem drainPass_progress (d : DrainState) (ooo : List OooSegment) :
    ((drainPass d ooo).2.2 = false → drainPass d ooo = (d, ooo, false) ∧ Settled d.rcvNxt ooo) ∧
    (drainPass d ooo).2.1.length ≤ ooo.length ∧
    ((drainPass d ooo).2.2 = true → (drainPass d ooo).2.1.length < ooo.length) := by
  induction ooo generalizing d with
  | nil => simp [drainPass, Settled]
  | cons e rest ih =>
    unfold drainPass
    split
    · have hr := (ih d).2.1
      exact ⟨nofun, Nat.le_succ_of_le hr, fun _ => Nat.lt_succ_of_le hr⟩
    · rename_i hnew
      split
      · have hr := (ih (d.consume e)).2.1
        exact ⟨nofun, Nat.le_succ_of_le hr, fun _ => Nat.lt_succ_of_le hr⟩
      · rename_i hgap
        obtain ⟨hf, hle, ht⟩ := ih d
        refine ⟨fun h => ?_, by simpa using hle, fun h => by simpa using ht h⟩
        obtain ⟨heq, hs⟩ := hf h
        refine ⟨by rw [heq], ?_⟩
        intro a ha
        rcases List.mem_cons.mp ha with rfl | ha
        · exact ⟨by simpa using hnew, by simpa using hgap⟩
        · exact hs a ha

theorem drainLoop_settled {rounds : ℕ} {d : DrainState} {ooo : List OooSegment}
    (h : ooo.length ≤ rounds) :
    Settled (drainLoop rounds d ooo).1.rcvNxt (drainLoop rounds d ooo).2 := by
  induction rounds generalizing d ooo with
  | zero =>
    obtain rfl := List.eq_nil_of_length_eq_zero (Nat.le_zero.mp h)
    simp [drainLoop, Settled]
  | succ rounds ih =>
    obtain ⟨hf, -, ht⟩ := drainPass_progress d ooo
    unfold drainLoop
    generalize drainPass d ooo = r at hf ht ⊢
    obtain ⟨d', left, _ | _⟩ := r
    · obtain ⟨heq, hs⟩ := hf rfl
      obtain ⟨rfl, rfl⟩ : d' = d ∧ left = ooo := by simpa using heq
      exact hs
    · have hlt : left.length < ooo.length := ht rfl
      exact ih (by omega)

section positions

variable {b : SeqNum} {r p : ℕ} {e : OooSegment} {d : DrainState}

theorem oooEnd_pos (he : e.1 = pos b p) : oooEnd e = pos b (p + e.2.length) := by
  rw [oooEnd, he, pos_add_ofNat]

/-- A contiguous segment moves the receive position to its own end. -/
theorem consume_pos (hd : d.rcvNxt = pos b r) (he : e.1 = pos b p) (hle : p ≤ r)
    (hend : r ≤ p + e.2.length) (hw : r - p < 2 ^ 32) :
    (d.consume e).rcvNxt = pos b (p + e.2.length) ∧
      (d.consume e).rxBuffer = d.rxBuffer ++ e.2.drop (r - p) := by
  have hoff : (seqDiff d.rcvNxt e.1).toNat = r - p := by rw [hd, he, seqDiff_pos hle hw]
  refine ⟨?_, by rw [DrainState.consume, hoff]⟩
  simp only [DrainState.consume, hoff, List.length_drop]
  rw [hd, pos_add_ofNat]
  congr 1
  omega

end positions

/-! ### Trimming -/

namespace TcpConnection

variable {ρ : Type} {c : TcpConnection ρ} {seq : SeqNum} {payload : List UInt8} {e : OooSegment}

/-- Trimming on the left drops the first `k` bytes, and at least one byte is left. -/
theorem trimLeft_spec (h : c.trimLeft seq payload = some e) :
    ∃ k < payload.length, e = (pos seq k, payload.drop k) := by
  unfold trimLeft at h
  split at h
  · cases h
  rename_i hne
  split at h
  · cases h
  split at h
  · dsimp only at h
    split at h
    · cases h
    · rename_i hlt
      obtain rfl := Option.some.inj h
      exact ⟨(seqDiff c.rcvNxt seq).toNat, by omega, by rw [seqDiff, ← eq_pos]⟩
  · obtain rfl := Option.some.inj h
    exact ⟨0, List.length_pos_of_ne_nil hne, by simp⟩

/-- Trimming on the right keeps a first part that lies inside the window. -/
theorem trimRight_spec {e' : OooSegment} (h : c.trimRight e = some e') :
    e'.1 = e.1 ∧ e'.2 <+: e.2 ∧ e'.2 ≠ [] ∧
      (seqDiff e.1 c.rcvNxt).toNat + e'.2.length ≤ c.recv.window := by
  unfold trimRight at h
  rw [currentRcvWnd_toNat] at h
  dsimp only at h
  split at h
  · cases h
  split at h
  · cases h
  rename_i hin
  -- The kept part is a first part of `e`, no longer than what is left of the window.
  generalize hkept : (if c.recv.window - (seqDiff e.1 c.rcvNxt).toNat < e.2.length then
    e.2.take (c.recv.window - (seqDiff e.1 c.rcvNxt).toNat) else e.2) = kept at h
  have hprefix : kept <+: e.2 := by
    rw [← hkept]
    split
    · exact List.take_prefix _ _
    · exact List.prefix_rfl
  have hlen : kept.length ≤ c.recv.window - (seqDiff e.1 c.rcvNxt).toNat := by
    rw [← hkept]
    split
    · exact List.length_take_le _ _
    · omega
  split at h
  · cases h
  · rename_i hne
    obtain rfl := Option.some.inj h
    refine ⟨rfl, hprefix, hne, ?_⟩
    dsimp only
    omega

/-- What `accept_data` keeps is a non-empty piece of the segment inside the window. -/
theorem trimToWindow_spec (h : c.trimToWindow seq payload = some e) :
    ∃ k < payload.length, e.1 = pos seq k ∧ e.2 <+: payload.drop k ∧ e.2 ≠ [] ∧
      (seqDiff e.1 c.rcvNxt).toNat + e.2.length ≤ c.recv.window := by
  obtain ⟨e₁, hl, hr⟩ := Option.bind_eq_some_iff.mp h
  obtain ⟨k, hk, rfl⟩ := trimLeft_spec hl
  obtain ⟨hseq, hpre, hne, hwin⟩ := trimRight_spec hr
  exact ⟨k, hk, hseq, hpre, hne, hseq ▸ hwin⟩

theorem acceptData_rxBuffer (c : TcpConnection ρ) (seq : SeqNum) (payload : List UInt8) :
    c.rxBuffer <+: (c.acceptData seq payload).rxBuffer := by
  have hrule : DrainRule fun d _ => c.rxBuffer <+: d.rxBuffer :=
    ⟨fun h _ => h, fun h _ _ => h.trans (List.prefix_append _ _)⟩
  unfold acceptData
  split
  · exact List.prefix_rfl
  · split
    · exact hrule.loop (List.prefix_append _ _)
    · rw [show (c.bufferOoo _).syncLegacyOooView.rxBuffer = c.rxBuffer from
        congrArg RecvView.rxBuffer (bufferOoo_recv c _)]

theorem acceptPayload_rxBuffer (c : TcpConnection ρ) (seg : TcpSegment) :
    c.rxBuffer <+: (c.acceptPayload seg).rxBuffer := by
  unfold acceptPayload
  split
  · exact acceptData_rxBuffer c _ _
  · exact List.prefix_rfl

theorem acceptPayload_finReceived (c : TcpConnection ρ) (seg : TcpSegment) :
    (c.acceptPayload seg).finReceived = c.finReceived := by
  unfold acceptPayload acceptData
  split
  · split
    · rfl
    · split
      · rfl
      · exact congrArg RecvView.finReceived (bufferOoo_recv c _)
  · rfl

theorem mem_bufferOoo {x : OooSegment} (h : x ∈ (c.bufferOoo e).oooSegments) :
    x ∈ c.oooSegments ∨ x = e := by
  unfold bufferOoo at h
  split at h
  · exact .inl h
  · dsimp only at h
    split at h
    · exact .inl (List.mem_of_mem_filter h)
    · rcases List.mem_append.mp ((List.mem_insertionSort _).mp h) with h | h
      · exact .inl (List.mem_of_mem_filter h)
      · exact .inr (List.mem_singleton.mp h)

end TcpConnection

end ToyTcpip.Tcp
