import ToyTcpip.Lib.Keyed
import ToyTcpip.Tcp.Reassembly
import ToyTcpip.Tcp.Arrivals

/-! What arrivals do to the out-of-order queue: order, containment, budget and mirror. -/
namespace ToyTcpip.Tcp

open Serial

/-! ### The queue, in offsets from the receive position -/

/-- How far above `b` an out-of-order segment starts. -/
def offset (b : SeqNum) (e : OooSegment) : ℕ := (e.1 - b).toNat

theorem seq_eq_pos (b : SeqNum) (e : OooSegment) : e.1 = pos b (offset b e) := eq_pos b e.1

theorem offset_eq {b : SeqNum} {e : OooSegment} {k : ℕ} (h : e.1 = pos b k) (hk : k < 2 ^ 32) :
    offset b e = k := by
  have hs := toNat_pos_sub_pos b (Nat.zero_le k) (by omega)
  rw [pos_zero] at hs
  rw [offset, h, hs, Nat.sub_zero]

/-- The queue lies between `lo` and `w` places above `b`, in order and without containment. -/
structure Queued (b : SeqNum) (lo w : ℕ) (ooo : List OooSegment) : Prop where
  inside : ∀ e ∈ ooo, lo ≤ offset b e ∧ e.2 ≠ [] ∧ offset b e + e.2.length ≤ w
  apart : ooo.Pairwise fun x y =>
    offset b x < offset b y ∧ offset b x + x.2.length < offset b y + y.2.length
  bytes : TcpConnection.oooBytes ooo ≤ maxOooBytes

variable {ρ : Type} {c : TcpConnection ρ} {seg : TcpSegment} {b : SeqNum} {lo w w' k : ℕ}
  {ooo ooo' : List OooSegment} {new x y : OooSegment}

theorem queued_nil (b : SeqNum) (lo w : ℕ) : Queued b lo w [] :=
  ⟨by simp, List.Pairwise.nil, Nat.zero_le _⟩

theorem oooBytes_sublist (h : ooo'.Sublist ooo) :
    TcpConnection.oooBytes ooo' ≤ TcpConnection.oooBytes ooo :=
  (h.map _).sum_le_sum (by simp)

namespace Queued

theorem mono (h : Queued b lo w ooo) (hw : w ≤ w') : Queued b lo w' ooo :=
  ⟨fun e he => ⟨(h.inside e he).1, (h.inside e he).2.1, (h.inside e he).2.2.trans hw⟩, h.apart,
    h.bytes⟩

theorem sublist (h : Queued b lo w ooo) (hs : ooo'.Sublist ooo) : Queued b lo w ooo' :=
  ⟨fun e he => h.inside e (hs.subset he), h.apart.sublist hs, (oooBytes_sublist hs).trans h.bytes⟩

/-- Counted from `k` places further on. -/
theorem advance (h : Queued b lo w ooo) (hw : w < 2 ^ 32) (hk : k ≤ w)
    (hlo : ∀ e ∈ ooo, k + lo ≤ offset b e) : Queued (pos b k) lo (w - k) ooo := by
  have hoff : ∀ e ∈ ooo, offset (pos b k) e = offset b e - k := by
    intro e he
    have hin := h.inside e he
    have hge := hlo e he
    refine offset_eq ?_ (by omega)
    rw [pos_pos, seq_eq_pos b e]
    congr 1
    omega
  refine ⟨fun e he => ?_, ?_, h.bytes⟩
  · have hin := h.inside e he
    have hge := hlo e he
    rw [hoff e he]
    exact ⟨by omega, hin.2.1, by omega⟩
  · refine h.apart.imp_of_mem fun {x y} hx hy hxy => ?_
    have hgx := hlo x hx
    have hgy := hlo y hy
    rw [hoff x hx, hoff y hy]
    omega

theorem keys_ne (h : Queued b lo w ooo) : ooo.Pairwise fun x y => x.1 ≠ y.1 := by
  refine h.apart.imp fun {x y} hxy heq => ?_
  have : offset b x = offset b y := by rw [offset, offset, heq]
  omega

section bounded

variable (hw : w ≤ 65535)

include hw

theorem seqLt_iff (h : Queued b lo w ooo) (hx : x ∈ ooo) (hy : y ∈ ooo) :
    seqLt x.1 y.1 = true ↔ offset b x < offset b y := by
  have hix := h.inside x hx
  have hiy := h.inside y hy
  rw [seq_eq_pos b x, seq_eq_pos b y, seqLt_pos (by omega) (by omega)]

theorem covered_iff (hx : offset b x + x.2.length ≤ w) (hy : offset b y + y.2.length ≤ w) :
    TcpConnection.coveredBy x y.1 (oooEnd y) = true ↔
      offset b x ≤ offset b y ∧ offset b y + y.2.length ≤ offset b x + x.2.length := by
  rw [TcpConnection.coveredBy, Bool.and_eq_true, oooEnd_pos (seq_eq_pos b x),
    oooEnd_pos (seq_eq_pos b y), seqLe_pos (by omega) (by omega)]
  conv_lhs => rw [seq_eq_pos b x, seq_eq_pos b y]
  rw [seqLe_pos (by omega) (by omega)]

/-- Neither of two segments spans the other, and they do not start together. -/
def Apart (b : SeqNum) (x y : OooSegment) : Prop :=
  (offset b x < offset b y ∧ offset b x + x.2.length < offset b y + y.2.length) ∨
  (offset b y < offset b x ∧ offset b y + y.2.length < offset b x + x.2.length)

theorem insert (h : Queued b lo w ooo) (hnew : lo ≤ offset b new ∧ new.2 ≠ [] ∧
    offset b new + new.2.length ≤ w) (hapart : ∀ e ∈ ooo, Apart b e new)
    (hfits : TcpConnection.oooBytes ooo + new.2.length ≤ maxOooBytes) :
    Queued b lo w ((ooo ++ [new]).insertionSort fun x y => seqLt x.1 y.1 = true) := by
  have hall : ∀ e ∈ ooo ++ [new], lo ≤ offset b e ∧ e.2 ≠ [] ∧ offset b e + e.2.length ≤ w := by
    intro e he
    rcases List.mem_append.mp he with he | he
    · exact h.inside e he
    · rw [List.mem_singleton.mp he]
      exact hnew
  have hpairs : (ooo ++ [new]).Pairwise (Apart b) := by
    refine List.pairwise_append.mpr ⟨h.apart.imp .inl, by simp, fun x hx y hy => ?_⟩
    rw [List.mem_singleton.mp hy]
    exact hapart x hx
  have hsort : ((ooo ++ [new]).insertionSort fun x y => seqLt x.1 y.1 = true).Pairwise
      fun x y => offset b x < offset b y := by
    apply Keyed.pairwise_insertionSort
    · intro x hx y hy
      have hix := hall x hx
      have hiy := hall y hy
      rw [seq_eq_pos b x, seq_eq_pos b y, seqLt_pos (by omega) (by omega)]
    · exact hpairs.imp fun hxy => by rcases hxy with hxy | hxy <;> omega
  have hperm := List.perm_insertionSort (fun x y : OooSegment => seqLt x.1 y.1 = true)
    (ooo ++ [new])
  have hpairs' := hperm.symm.pairwise hpairs fun hxy => hxy.symm
  refine ⟨fun e he => hall e (hperm.mem_iff.mp he), ?_, ?_⟩
  · refine (hsort.and hpairs').imp fun ⟨hlt, hxy⟩ => ?_
    rcases hxy with hxy | hxy
    · exact hxy
    · omega
  · rw [TcpConnection.oooBytes, (hperm.map _).sum_eq]
    simpa [TcpConnection.oooBytes] using hfits

/-- A segment inside the window goes into the queue, or the queue stays within its budget. -/
theorem bufferOoo (h : Queued b lo w c.oooSegments) (hnew : lo ≤ offset b new ∧ new.2 ≠ [] ∧
    offset b new + new.2.length ≤ w) : Queued b lo w (c.bufferOoo new).oooSegments := by
  unfold TcpConnection.bufferOoo
  split
  · exact h
  · rename_i hany
    have hkept : Queued _ _ _ (TcpConnection.retainUncovered c.oooSegments new) :=
      h.sublist List.filter_sublist
    dsimp only
    split
    · exact hkept
    · rename_i hfits
      refine hkept.insert hw hnew (fun e he => ?_) (by omega)
      obtain ⟨hmem, hout⟩ := List.mem_filter.mp he
      have hin := h.inside e hmem
      have h₁ : ¬ TcpConnection.coveredBy e new.1 (oooEnd new) = true :=
        fun hc => hany (List.any_eq_true.mpr ⟨e, hmem, hc⟩)
      have h₂ : ¬ TcpConnection.coveredBy new e.1 (oooEnd e) = true := by
        simpa only [TcpConnection.coveredBy, Bool.not_eq_true', Bool.not_eq_true] using hout
      rw [covered_iff hw hin.2.2 hnew.2.2] at h₁
      rw [covered_iff hw hnew.2.2 hin.2.2] at h₂
      unfold Apart
      omega

/-- The drain moves the receive position inside the window and leaves a queue above it; what
left the queue lies below. -/
theorem drain (h : Queued b 1 w ooo) {d : DrainState} (hd : d.rcvNxt = pos b k) (hk : k ≤ w) :
    ∃ r, k ≤ r ∧ r ≤ w ∧ (drainLoop ooo.length d ooo).1.rcvNxt = pos b r ∧
      (drainLoop ooo.length d ooo).1.rxBuffer.length + k = d.rxBuffer.length + r ∧
      Queued (pos b r) 1 (w - r) (drainLoop ooo.length d ooo).2 ∧
      ∀ e ∈ ooo, e ∈ (drainLoop ooo.length d ooo).2 ∨ offset b e + e.2.length ≤ r := by
  have hrule : DrainRule fun d' q => ∃ r, k ≤ r ∧ r ≤ w ∧ d'.rcvNxt = pos b r ∧
      d'.rxBuffer.length + k = d.rxBuffer.length + r ∧ q.Sublist ooo ∧
      ∀ e ∈ ooo, e ∈ q ∨ offset b e + e.2.length ≤ r := by
    have hdrop : ∀ {pre post : List OooSegment} {e : OooSegment} {r r' : ℕ}, r ≤ r' →
        offset b e + e.2.length ≤ r' →
        (∀ x ∈ ooo, x ∈ pre ++ e :: post ∨ offset b x + x.2.length ≤ r) →
        ∀ x ∈ ooo, x ∈ pre ++ post ∨ offset b x + x.2.length ≤ r' := by
      intro pre post e r r' hrr hend hall x hx
      rcases hall x hx with hmem | hle
      · rcases List.mem_append.mp hmem with hmem | hmem
        · exact .inl (List.mem_append_left _ hmem)
        · rcases List.mem_cons.mp hmem with rfl | hmem
          · exact .inr hend
          · exact .inl (List.mem_append_right _ hmem)
      · exact .inr (hle.trans hrr)
    refine ⟨?_, ?_⟩
    · rintro d' pre e post ⟨r, hkr, hrw, hn, hl, hs, hall⟩ hold
      have hin := h.inside e (hs.subset (by simp))
      rw [hn, oooEnd_pos (seq_eq_pos b e), seqLe_pos (by omega) (by omega)] at hold
      exact ⟨r, hkr, hrw, hn, hl, ((List.sublist_cons_self e post).append_left pre).trans hs,
        hdrop le_rfl hold hall⟩
    · rintro d' pre e post ⟨r, hkr, hrw, hn, hl, hs, hall⟩ hnew hmeet
      have hin := h.inside e (hs.subset (by simp))
      rw [hn, oooEnd_pos (seq_eq_pos b e), ← Bool.not_eq_true, seqLe_pos (by omega) (by omega)]
        at hnew
      rw [hn, seq_eq_pos b e, seqLe_pos (by omega) (by omega)] at hmeet
      obtain ⟨hn', hx'⟩ := consume_pos hn (seq_eq_pos b e) hmeet (by omega) (by omega)
      refine ⟨offset b e + e.2.length, by omega, hin.2.2, hn', ?_,
        ((List.sublist_cons_self e post).append_left pre).trans hs,
        hdrop (by omega) le_rfl hall⟩
      rw [hx', List.length_append, List.length_drop]
      omega
  obtain ⟨r, hkr, hrw, hn, hl, hs, hall⟩ := @DrainRule.loop _ hrule ooo.length _ _
    ⟨k, le_rfl, hk, hd, by omega, List.Sublist.refl ooo, fun e he => .inl he⟩
  refine ⟨r, hkr, hrw, hn, hl, (h.sublist hs).advance (by omega) hrw fun e he => ?_, hall⟩
  have hin := h.inside e (hs.subset he)
  have hgap := (drainLoop_settled (d := d) le_rfl e he).2
  rw [hn, seq_eq_pos b e, ← Bool.not_eq_true, seqLe_pos (by omega) (by omega)] at hgap
  omega

end bounded

end Queued

/-! ### The receive view -/

namespace RecvView

/-- Once the FIN is consumed a queued segment may stand at the receive position itself. -/
def lowest (v : RecvView) : ℕ := if v.finReceived then 0 else 1

/-- The buffer has room, the queue lies in the window and the legacy view mirrors it. -/
structure Held (v : RecvView) : Prop where
  room : v.rxBuffer.length ≤ v.rcvCapacity
  queued : Queued v.rcvNxt v.lowest v.window v.oooSegments
  mirror : ∀ k p, v.oooQueue[k]? = some p ↔ (k, p) ∈ v.oooSegments

/-- The receive position moves by at most `n`, and the right edge of the window not to the left. -/
def Shifts (n : ℕ) (v v' : RecvView) : Prop :=
  ∃ r ≤ n, v'.rcvNxt = pos v.rcvNxt r ∧ v.window ≤ r + v'.window

variable {v v' : RecvView} {n : ℕ}

theorem window_le (v : RecvView) : v.window ≤ 65535 := min_le_right _ _

theorem Shifts.refl (n : ℕ) (v : RecvView) : Shifts n v v := ⟨0, Nat.zero_le n, by simp, by omega⟩

theorem Held.afterFin (h : v'.Held) (seg : TcpSegment) (hs : Shifts 65535 v v') :
    (v'.afterFin seg).Held ∧ Shifts 65536 v (v'.afterFin seg) := by
  obtain ⟨r, hr, hn, hw⟩ := hs
  unfold RecvView.afterFin
  split
  · rename_i hfin
    have hfr : v'.finReceived = false := by
      simp only [takesFin, decide_eq_true_eq] at hfin
      simpa using hfin.2.2
    have hq := h.queued
    have hle := v'.window_le
    rw [lowest, hfr] at hq
    refine ⟨⟨h.room, ?_, h.mirror⟩, r + 1, by omega, ?_, ?_⟩
    · -- What was at least one place above is at least at the new position.
      rcases Nat.eq_zero_or_pos v'.window with hz | hpos
      · have hnil : v'.oooSegments = [] := by
          rw [List.eq_nil_iff_forall_not_mem]
          intro e he
          have := hq.inside e he
          simp only [Bool.false_eq_true, if_false] at this
          omega
        simpa [hnil] using queued_nil _ _ _
      · have hmoved : Queued (pos v'.rcvNxt 1) 0 (v'.window - 1) v'.oooSegments :=
          Queued.advance ⟨fun e he => ⟨Nat.zero_le _, (hq.inside e he).2⟩, hq.apart, hq.bytes⟩
            (by omega) hpos fun e he => by simpa using (hq.inside e he).1
        exact hmoved.mono (Nat.sub_le _ _)
    · dsimp only
      rw [hn, ← pos_pos]
      rfl
    · simp only [window] at hw ⊢
      omega
  · exact ⟨h, r, by omega, hn, hw⟩

end RecvView

namespace TcpConnection

theorem syncLegacyOooView_mirror (h : Queued b lo w c.oooSegments) (k : SeqNum) (p : List UInt8) :
    c.syncLegacyOooView.oooQueue[k]? = some p ↔ (k, p) ∈ c.oooSegments :=
  Keyed.getElem?_foldl_insert h.keys_ne

/-- Whatever arrives, the data kept of it leaves the receive side in order. -/
theorem acceptData_held (h : c.recv.Held) (hf : c.finReceived = false) (seq : SeqNum)
    (payload : List UInt8) : (c.acceptData seq payload).recv.Held ∧
      RecvView.Shifts 65535 c.recv (c.acceptData seq payload).recv := by
  have hlow : c.recv.lowest = 1 := by simp [RecvView.lowest, recv, hf]
  have hq : Queued c.rcvNxt 1 c.recv.window c.oooSegments := hlow ▸ h.queued
  have hle := c.recv.window_le
  unfold acceptData
  split
  · exact ⟨h, .refl _ _⟩
  rename_i e htrim
  obtain ⟨-, -, -, -, hne, hwin⟩ := trimToWindow_spec htrim
  have hwin : offset c.rcvNxt e + e.2.length ≤ c.recv.window := hwin
  split
  · -- In order: everything drained still lies inside the window.
    rename_i hat
    have hzero : offset c.rcvNxt e = 0 := by simp [offset, hat]
    obtain ⟨r, -, hr, hn, hlen, hleft, -⟩ := hq.drain hle
      (d := ⟨c.rcvNxt + BitVec.ofNat 32 e.2.length, c.rxBuffer ++ e.2,
        c.stats.bytesReceived + e.2.length⟩) (k := e.2.length) rfl (by omega)
    rw [List.length_append, Nat.add_right_comm, Nat.add_right_cancel_iff] at hlen
    have hlen' : (c.acceptInOrder e.2).rxBuffer.length = c.rxBuffer.length + r := hlen
    have hroom : c.rxBuffer.length ≤ c.rcvCapacity := h.room
    have hw' : c.recv.window ≤ r + (c.acceptInOrder e.2).recv.window := by
      simp only [RecvView.window, recv] at hr ⊢
      rw [hlen']
      change _ ≤ r + min (c.rcvCapacity - _) _
      omega
    have hqueue : Queued (c.acceptInOrder e.2).rcvNxt 1 (c.acceptInOrder e.2).recv.window
        (c.acceptInOrder e.2).oooSegments := by
      change Queued (drainLoop _ _ _).1.rcvNxt 1 _ (drainLoop _ _ _).2
      rw [hn]
      exact hleft.mono (by omega)
    refine ⟨⟨?_, ?_, syncLegacyOooView_mirror hqueue⟩, r, by omega, hn, hw'⟩
    · change (c.acceptInOrder e.2).rxBuffer.length ≤ c.rcvCapacity
      rw [hlen']
      simp only [RecvView.window, recv] at hr
      omega
    · rw [show (c.acceptInOrder e.2).syncLegacyOooView.recv.lowest = 1 from hlow]
      exact hqueue
  · rename_i hgap
    have hpos : 1 ≤ offset c.rcvNxt e := by
      by_contra hz
      apply hgap
      rw [seq_eq_pos c.rcvNxt e, show offset c.rcvNxt e = 0 by omega, pos_zero]
    have hqueue := hq.bufferOoo hle (show _ ∧ e.2 ≠ [] ∧ _ from ⟨hpos, hne, hwin⟩)
    have hrecv : (c.bufferOoo e).syncLegacyOooView.recv = { c.recv with
        oooSegments := (c.bufferOoo e).oooSegments
        oooQueue := (c.bufferOoo e).syncLegacyOooView.oooQueue } := by
      have hsync : (c.bufferOoo e).syncLegacyOooView.recv = { (c.bufferOoo e).recv with
        oooQueue := (c.bufferOoo e).syncLegacyOooView.oooQueue } := rfl
      rw [hsync, bufferOoo_recv]
    have hmirror := syncLegacyOooView_mirror hqueue
    rw [hrecv]
    refine ⟨⟨h.room, ?_, hmirror⟩, .refl 65535 c.recv⟩
    change Queued c.rcvNxt c.recv.lowest c.recv.window _
    rw [hlow]
    exact hqueue

theorem acceptPayload_held (h : c.recv.Held) (hf : c.finReceived = false) (seg : TcpSegment) :
    (c.acceptPayload seg).recv.Held ∧
      RecvView.Shifts 65535 c.recv (c.acceptPayload seg).recv := by
  unfold acceptPayload
  split
  · exact acceptData_held h hf _ _
  · exact ⟨h, .refl _ _⟩

end TcpConnection

end ToyTcpip.Tcp
