import ToyTcpip.Lib.Spans
import ToyTcpip.Tcp.SackBlocks

/-! When the SACK blocks are the maximal runs of the bytes received out of order. -/
namespace ToyTcpip.Tcp

open Serial

variable {ρ : Type} {c c' : TcpConnection ρ} {seg : TcpSegment} {out sent : List TcpSegment}
  {reply : Option TcpSegment} {b x : SeqNum} {lo w n : ℕ} {ooo : List OooSegment}
    {e new : OooSegment}

/-! ### Blocks as joined spans -/

/-- What a queued segment spans. -/
def span (e : OooSegment) : SeqNum × SeqNum := (e.1, oooEnd e)

/-- The same, in offsets from `b`. -/
def offsets (b : SeqNum) (e : OooSegment) : ℕ × ℕ := (offset b e, offset b e + e.2.length)

/-- A span of offsets, in sequence numbers. -/
def located (b : SeqNum) (s : ℕ × ℕ) : SeqNum × SeqNum := s.map (pos b) (pos b)

theorem located_offsets (b : SeqNum) (e : OooSegment) : located b (offsets b e) = span e :=
  Prod.ext (seq_eq_pos b e).symm (oooEnd_pos (seq_eq_pos b e)).symm

theorem pushBlock_eq (blocks : List (SeqNum × SeqNum)) (e : OooSegment) :
    pushBlock blocks e = Spans.push blocks (span e) := by
  unfold pushBlock Spans.push
  cases blocks.getLast? <;> rfl

theorem buildSackBlocks_eq_join (c : TcpConnection ρ) :
    c.buildSackBlocks = (Spans.join (c.oooSegments.map span)).take 4 := by
  rw [← Spans.foldl_push_eq, List.foldl_map, TcpConnection.buildSackBlocks]
  simp only [← pushBlock_eq]

/-- Up to the end of the `n`-th run of adjacent segments, none starts before the one ahead of it
ends. -/
def apartFor : ℕ → List OooSegment → Bool
  | 0, _ => true
  | _ + 1, [] => true
  | _ + 1, [_] => true
  | n + 1, e :: e' :: rest =>
    seqLe (oooEnd e) e'.1 &&
      if oooEnd e = e'.1 then apartFor (n + 1) (e' :: rest) else apartFor n (e' :: rest)

namespace Queued

theorem sorted (h : Queued b lo w ooo) : Spans.Sorted (ooo.map (offsets b)) := by
  refine ⟨?_, ?_⟩
  · rw [List.forall_mem_map]
    intro e he
    have hlen := List.length_pos_of_ne_nil (h.inside e he).2.1
    simp only [offsets]
    omega
  · exact List.pairwise_map.mpr h.apart

variable (hw : w ≤ 65535)

include hw

theorem join_located (h : Queued b lo w ooo) :
    Spans.join (ooo.map span) = (Spans.join (ooo.map (offsets b))).map (located b) := by
  cases ooo with
  | nil => rfl
  | cons e rest =>
    have hspan : ∀ e : OooSegment, span e = (offsets b e).map (pos b) (pos b) :=
      fun e => (located_offsets b e).symm
    have hmap : rest.map span = (rest.map (offsets b)).map (Prod.map (pos b) (pos b)) := by
      rw [List.map_map]
      exact List.map_congr_left fun e _ => hspan e
    rw [List.map_cons, List.map_cons, Spans.join, Spans.join, hspan, hmap]
    refine Spans.joinFrom_map fun s hs t ht => ?_
    rw [← List.map_cons] at hs
    obtain ⟨e₁, he₁, rfl⟩ := List.mem_map.mp hs
    obtain ⟨e₂, he₂, rfl⟩ := List.mem_map.mp ht
    have h₁ := h.inside e₁ he₁
    have h₂ := h.inside e₂ (List.mem_cons_of_mem _ he₂)
    simp only [offsets]
    rcases Nat.le_total (offset b e₁ + e₁.2.length) (offset b e₂) with hle | hle
    · exact pos_inj b hle (by omega)
    · exact eq_comm.trans ((pos_inj b hle (by omega)).trans eq_comm)

theorem apartFor_iff (h : Queued b lo w (e :: ooo)) :
    apartFor n (e :: ooo) = true ↔ Spans.ApartFor n (offsets b e) (ooo.map (offsets b)) := by
  induction ooo generalizing e n with
  | nil => cases n <;> simp [apartFor, Spans.ApartFor]
  | cons e' rest ih =>
    cases n with
    | zero => simp [apartFor, Spans.ApartFor]
    | succ n =>
      have htail : Queued b lo w (e' :: rest) := h.sublist (List.sublist_cons_self e _)
      have h₁ := h.inside e (by simp)
      have h₂ := h.inside e' (by simp)
      have hle : seqLe (oooEnd e) e'.1 = true ↔ offset b e + e.2.length ≤ offset b e' := by
        rw [oooEnd_pos (seq_eq_pos b e), seq_eq_pos b e', seqLe_pos (by omega) (by omega)]
      have hmeet : oooEnd e = e'.1 ↔ offset b e + e.2.length = offset b e' := by
        rw [oooEnd_pos (seq_eq_pos b e), seq_eq_pos b e']
        rcases Nat.le_total (offset b e + e.2.length) (offset b e') with hle | hle
        · rw [pos_inj b hle (by omega)]
        · rw [eq_comm, pos_inj b hle (by omega), eq_comm]
      rw [apartFor, List.map_cons, Spans.ApartFor, Bool.and_eq_true, hle]
      refine and_congr_right fun _ => ?_
      simp only [offsets, ← hmeet]
      split
      · exact ih htail
      · exact ih htail

omit hw in
theorem run_bounds (h : Queued b lo w ooo) :
    ∀ r ∈ Spans.join (ooo.map (offsets b)), r.1 < r.2 ∧ r.2 ≤ w := by
  cases ooo with
  | nil => simp [Spans.join]
  | cons e rest =>
    intro r hr
    rw [List.map_cons, Spans.join] at hr
    have hsorted : Spans.Sorted (offsets b e :: rest.map (offsets b)) := h.sorted
    refine ⟨hsorted.joinFrom_nonempty r hr, ?_⟩
    obtain ⟨s, hs, heq⟩ := Spans.joinFrom_end hr
    rw [← List.map_cons] at hs
    obtain ⟨e', he', rfl⟩ := List.mem_map.mp hs
    rw [heq]
    exact (h.inside e' he').2.2

/-- A byte is queued if its offset is. -/
theorem holds_iff (h : Queued b lo w ooo) :
    Holds ooo x ↔ Spans.Covered (ooo.map (offsets b)) (x - b).toNat := by
  simp only [Holds, Spans.Covered, List.mem_map, exists_exists_and_eq_and]
  refine exists_congr fun e => and_congr_right fun he => ?_
  have hin := h.inside e he
  exact mem_iff_offset (by omega)

end Queued

/-! ### Canonical blocks -/

/-- The blocks are disjoint, in order and with gaps between them; each is a maximal run of queued
bytes above `rcv_nxt`; and fewer than four are all there is. -/
structure CanonicalBlocks (c : TcpConnection ρ) : Prop where
  ordered : c.buildSackBlocks.Pairwise fun x y => seqLt x.2 y.1 = true
  disjoint : c.buildSackBlocks.Pairwise fun x y => ∀ n, inBlock x n → ¬ inBlock y n
  above : ∀ block ∈ c.buildSackBlocks, seqGt block.1 c.rcvNxt = true
  inside : ∀ block ∈ c.buildSackBlocks, seqLt block.1 block.2 = true ∧
    ∀ x, inBlock block x → Holds c.oooSegments x
  maximal : ∀ block ∈ c.buildSackBlocks,
    ¬ Holds c.oooSegments (block.1 - 1) ∧ ¬ Holds c.oooSegments block.2
  all : c.buildSackBlocks.length < 4 →
    ∀ x, Holds c.oooSegments x ↔ ∃ block ∈ c.buildSackBlocks, inBlock block x

/-- No queued segment stands at `rcv_nxt`, and the segments of the first four runs do not
overlap. -/
def Parted (c : TcpConnection ρ) : Prop :=
  (∀ e ∈ c.oooSegments, e.1 ≠ c.rcvNxt) ∧ apartFor 4 c.oooSegments = true

theorem inBlock_located {r : ℕ × ℕ} (hr : r.1 < r.2) (hw : r.2 ≤ 65535) :
    inBlock (located b r) x ↔ Spans.Within (x - b).toNat r := by
  change (x - pos b r.1).toNat < (pos b r.2 - pos b r.1).toNat ↔ _
  rw [toNat_pos_sub_pos b hr.le (by omega), Spans.Within]
  simp only [pos, BitVec.toNat_sub, BitVec.toNat_add, BitVec.toNat_ofNat]
  omega

theorem toNat_pos_sub {k : ℕ} (hk : k < 2 ^ 32) : (pos b k - b).toNat = k := by
  have h := toNat_pos_sub_pos b (Nat.zero_le k) hk
  rwa [pos_zero, Nat.sub_zero] at h

/-- The position ahead of a run above `b`, or the one below `b`. -/
theorem holds_before_iff (hw : w ≤ 65535) (h : Queued b lo w ooo) {k : ℕ} (hk : k ≤ w) :
    Holds ooo (pos b k - 1) ↔ ∃ i, i + 1 = k ∧ Spans.Covered (ooo.map (offsets b)) i := by
  rw [h.holds_iff hw]
  cases k with
  | zero =>
    refine iff_of_false ?_ (by simp)
    rintro ⟨s, hs, -, hhi⟩
    obtain ⟨e, he, rfl⟩ := List.mem_map.mp hs
    have hin := h.inside e he
    have hlast : (pos b 0 - 1 - b).toNat = 2 ^ 32 - 1 := by
      rw [pos_zero, sub_sub_cancel_left]
      rfl
    simp only [offsets] at hhi
    omega
  | succ k =>
    have hpred : pos b (k + 1) - 1 = pos b k := by
      rw [← pos_add_ofNat]
      exact add_sub_cancel_right _ _
    rw [hpred, toNat_pos_sub (by omega)]
    simp

/-- In offsets from `rcv_nxt`, the blocks are the first four joined spans. -/
theorem canonicalBlocks_iff_offsets (hw : w ≤ 65535) (h : Queued c.rcvNxt lo w c.oooSegments) :
    CanonicalBlocks c ↔
      Spans.Canonical 4 ((Spans.join (c.oooSegments.map (offsets c.rcvNxt))).take 4)
        (Spans.Covered (c.oooSegments.map (offsets c.rcvNxt))) ∧
      ∀ r ∈ (Spans.join (c.oooSegments.map (offsets c.rcvNxt))).take 4, 0 < r.1 := by
  have hblocks : c.buildSackBlocks =
      ((Spans.join (c.oooSegments.map (offsets c.rcvNxt))).take 4).map (located c.rcvNxt) := by
    rw [buildSackBlocks_eq_join, h.join_located hw, List.map_take]
  have hbounds : ∀ r ∈ (Spans.join (c.oooSegments.map (offsets c.rcvNxt))).take 4,
      r.1 < r.2 ∧ r.2 ≤ w := fun r hr => h.run_bounds r (List.mem_of_mem_take hr)
  generalize (Spans.join (c.oooSegments.map (offsets c.rcvNxt))).take 4 = runs at hblocks hbounds ⊢
  have hin : ∀ r ∈ runs, ∀ x, inBlock (located c.rcvNxt r) x ↔
      Spans.Within (x - c.rcvNxt).toNat r :=
    fun r hr x => inBlock_located (hbounds r hr).1 ((hbounds r hr).2.trans hw)
  have hlt : ∀ r ∈ runs, ∀ t ∈ runs,
      seqLt (located c.rcvNxt r).2 (located c.rcvNxt t).1 = true ↔ r.2 < t.1 := by
    intro r hr t ht
    have h₁ := hbounds r hr
    have h₂ := hbounds t ht
    exact seqLt_pos (by omega) (by omega)
  have hgt : ∀ r ∈ runs, seqGt (located c.rcvNxt r).1 c.rcvNxt = true ↔ 0 < r.1 := by
    intro r hr
    have hb := hbounds r hr
    change seqGt (pos c.rcvNxt r.1) c.rcvNxt = true ↔ 0 < r.1
    conv_lhs => rw [← pos_zero c.rcvNxt, pos_pos, Nat.zero_add]
    exact seqGt_pos (by omega) (by omega)
  have hheld : ∀ k, k ≤ w → (Holds c.oooSegments (pos c.rcvNxt k) ↔
      Spans.Covered (c.oooSegments.map (offsets c.rcvNxt)) k) := by
    intro k hk
    rw [h.holds_iff hw, toNat_pos_sub (by omega)]
  constructor
  · intro hc
    have habove := hc.above
    have hordered := hc.ordered
    rw [hblocks, List.forall_mem_map] at habove
    rw [hblocks, List.pairwise_map] at hordered
    refine ⟨⟨?_, fun r hr => ?_, fun r hr => ?_, fun hlen k hk => ?_⟩, fun r hr => ?_⟩
    · exact hordered.imp_of_mem fun hr ht hrt => (hlt _ hr _ ht).mp hrt
    · obtain ⟨hne, hle⟩ := hbounds r hr
      refine ⟨hne, fun k hk => (hheld k (hk.2.le.trans hle)).mp ?_⟩
      refine (hc.inside _ (hblocks ▸ List.mem_map_of_mem hr)).2 _ ((hin r hr _).mpr ?_)
      have hk2 := hk.2
      rwa [toNat_pos_sub (by omega)]
    · obtain ⟨hne, hle⟩ := hbounds r hr
      obtain ⟨hstart, hend⟩ := hc.maximal _ (hblocks ▸ List.mem_map_of_mem hr)
      refine ⟨fun hcov => hend ((hheld _ hle).mpr hcov), fun k hk hcov => hstart ?_⟩
      exact (holds_before_iff hw h (hne.le.trans hle)).mpr ⟨k, hk, hcov⟩
    · have hkw : k ≤ w := by
        obtain ⟨s, hs, -, hhi⟩ := hk
        obtain ⟨e, he, rfl⟩ := List.mem_map.mp hs
        exact hhi.le.trans (h.inside e he).2.2
      have hlen' : c.buildSackBlocks.length < 4 := by rwa [hblocks, List.length_map]
      obtain ⟨block, hblock, hx⟩ := (hc.all hlen' _).mp ((hheld k hkw).mpr hk)
      rw [hblocks] at hblock
      obtain ⟨r, hr, rfl⟩ := List.mem_map.mp hblock
      rw [hin r hr, toNat_pos_sub (by omega)] at hx
      exact ⟨r, hr, hx⟩
    · exact (hgt r hr).mp (habove r hr)
  · rintro ⟨hc, hpos⟩
    have hordered : c.buildSackBlocks.Pairwise fun x y => seqLt x.2 y.1 = true := by
      rw [hblocks, List.pairwise_map]
      exact hc.apart.imp_of_mem fun hr ht hrt => (hlt _ hr _ ht).mpr hrt
    refine ⟨hordered, ?_, ?_, ?_, ?_, fun hlen x => ?_⟩
    · rw [hblocks, List.pairwise_map]
      refine hc.apart.imp_of_mem fun hr ht hrt k hk hk' => ?_
      rw [hin _ hr] at hk
      rw [hin _ ht] at hk'
      have h₁ := hk.2
      have h₂ := hk'.1
      omega
    · rw [hblocks, List.forall_mem_map]
      exact fun r hr => (hgt r hr).mpr (hpos r hr)
    · rw [hblocks, List.forall_mem_map]
      intro r hr
      obtain ⟨hne, hle⟩ := hbounds r hr
      refine ⟨(seqLt_pos (by omega) (by omega)).mpr hne, fun x hx => ?_⟩
      exact (h.holds_iff hw).mpr ((hc.inside r hr).2 _ ((hin r hr x).mp hx))
    · rw [hblocks, List.forall_mem_map]
      intro r hr
      obtain ⟨hne, hle⟩ := hbounds r hr
      refine ⟨fun hx => ?_, fun hx => (hc.maximal r hr).1 ((hheld _ hle).mp hx)⟩
      obtain ⟨k, hk, hcov⟩ := (holds_before_iff hw h (hne.le.trans hle)).mp hx
      exact (hc.maximal r hr).2 k hk hcov
    · rw [hblocks, List.length_map] at hlen
      simp only [hblocks, List.mem_map, exists_exists_and_eq_and]
      constructor
      · intro hx
        obtain ⟨r, hr, hk⟩ := hc.all hlen _ ((h.holds_iff hw).mp hx)
        exact ⟨r, hr, (hin r hr x).mpr hk⟩
      · rintro ⟨r, hr, hx⟩
        exact (h.holds_iff hw).mpr ((hc.inside r hr).2 _ ((hin r hr x).mp hx))

theorem canonicalBlocks_iff (hw : w ≤ 65535) (h : Queued c.rcvNxt lo w c.oooSegments) :
    CanonicalBlocks c ↔ Parted c := by
  rw [canonicalBlocks_iff_offsets hw h, Parted, and_comm]
  have hzero : ∀ e : OooSegment, e.1 ≠ c.rcvNxt ↔ 0 < offset c.rcvNxt e := by
    intro e
    rw [Nat.pos_iff_ne_zero, not_iff_not]
    exact ⟨fun he => by simp [offset, he], fun he => by rw [seq_eq_pos c.rcvNxt e, he, pos_zero]⟩
  simp only [hzero]
  generalize c.oooSegments = ooo at h ⊢
  cases ooo with
  | nil => exact iff_of_true ⟨by simp [Spans.join], by simp [Spans.join], by simp [Spans.join],
      by simp [Spans.join], by simp [Spans.Covered]⟩ ⟨by simp, rfl⟩
  | cons e rest =>
    have hsorted : Spans.Sorted (offsets c.rcvNxt e :: rest.map (offsets c.rcvNxt)) := h.sorted
    rw [List.map_cons, Spans.join, Spans.canonical_joinFrom_iff hsorted, h.apartFor_iff hw]
    refine and_congr_left fun _ => ?_
    -- The first run starts where the first segment does, and no run or segment starts earlier.
    constructor
    · intro hruns e' he'
      obtain ⟨r, runs, heq, hstart⟩ :=
        Spans.joinFrom_head (offsets c.rcvNxt e) (rest.map (offsets c.rcvNxt))
      have hfirst : 0 < offset c.rcvNxt e := by
        have hpos := hruns r (by simp [heq])
        rwa [hstart] at hpos
      rcases List.mem_cons.mp he' with rfl | he'
      · exact hfirst
      · exact hfirst.trans ((List.pairwise_cons.mp h.apart).1 e' he').1
    · intro hall r hr
      exact (hall e (by simp)).trans_le (hsorted.joinFrom_start r (List.mem_of_mem_take hr))

/-! ### What keeps the queue without overlaps -/

/-- Every queued segment starts at or after the end of the ones ahead of it. -/
def Disjoint (ooo : List OooSegment) : Prop := ooo.Pairwise fun x y => seqLe (oooEnd x) y.1 = true

theorem Disjoint.apartFor (h : Disjoint ooo) (n : ℕ) : apartFor n ooo = true := by
  induction ooo generalizing n with
  | nil => cases n <;> rfl
  | cons e rest ih =>
    obtain ⟨hfirst, hrest⟩ := List.pairwise_cons.mp h
    cases rest with
    | nil => cases n <;> rfl
    | cons e' rest =>
      cases n with
      | zero => rfl
      | succ n =>
        rw [Tcp.apartFor, hfirst e' (by simp), Bool.true_and]
        split
        · exact ih hrest (n + 1)
        · exact ih hrest n

/-- `buffer_ooo` puts the segment into the queue. -/
def parks (c : TcpConnection ρ) (new : OooSegment) : Bool :=
  !c.oooSegments.any (TcpConnection.coveredBy · new.1 (oooEnd new)) &&
    TcpConnection.oooBytes (TcpConnection.retainUncovered c.oooSegments new) +
      new.2.length ≤ maxOooBytes

/-- A segment that is parked overlaps none that stay beside it, and a FIN is not taken right below
a queued segment. -/
def Separate (c : TcpConnection ρ) (seg : TcpSegment) : Prop :=
  (taking c.state = true → ∀ new ∈ c.trimToWindow seg.seqNum seg.payload, new.1 ≠ c.rcvNxt →
    parks c new = true → ∀ e ∈ TcpConnection.retainUncovered c.oooSegments new,
      seqLe (oooEnd e) new.1 = true ∨ seqLe (oooEnd new) e.1 = true) ∧
  (c.state = .established ∨ c.state = .finWait1 ∨ c.state = .finWait2 →
    (c.acceptPayload seg).recv.takesFin seg = true →
      ∀ e ∈ (c.acceptPayload seg).oooSegments, e.1 ≠ (c.acceptPayload seg).rcvNxt + 1)

theorem drainLoop_sublist (rounds : ℕ) (d : DrainState) (ooo : List OooSegment) :
    (drainLoop rounds d ooo).2.Sublist ooo := by
  have hrule : DrainRule fun _ q => q.Sublist ooo := by
    have hdrop : ∀ {pre post : List OooSegment} {e : OooSegment}, (pre ++ e :: post).Sublist ooo →
        (pre ++ post).Sublist ooo :=
      fun h => ((List.sublist_cons_self _ _).append_left _).trans h
    exact ⟨fun h _ => hdrop h, fun h _ _ => hdrop h⟩
  exact hrule.loop (List.Sublist.refl ooo)

/-- Parking beside segments it does not overlap. -/
theorem bufferOoo_disjoint (hw : w ≤ 65535) (h : Queued b lo w c.oooSegments)
    (hd : Disjoint c.oooSegments) (hnew : lo ≤ offset b new ∧ new.2 ≠ [] ∧
      offset b new + new.2.length ≤ w)
    (hclear : parks c new = true → ∀ e ∈ TcpConnection.retainUncovered c.oooSegments new,
      seqLe (oooEnd e) new.1 = true ∨ seqLe (oooEnd new) e.1 = true) :
    Disjoint (c.bufferOoo new).oooSegments := by
  have hq := h.bufferOoo hw hnew
  unfold TcpConnection.bufferOoo at hq ⊢
  split at hq
  · rename_i hcov
    rw [if_pos hcov]
    exact hd
  rename_i hcov
  rw [if_neg hcov]
  dsimp only at hq ⊢
  split at hq
  · rename_i hover
    rw [if_pos hover]
    exact hd.sublist List.filter_sublist
  rename_i hfits
  rw [if_neg hfits]
  have hparks : parks c new = true := by
    simp only [parks, Bool.and_eq_true, Bool.not_eq_true', decide_eq_true_eq]
    exact ⟨Bool.eq_false_iff.mpr hcov, not_lt.mp hfits⟩
  have hbeside : (TcpConnection.retainUncovered c.oooSegments new ++ [new]).Pairwise fun x y =>
      seqLe (oooEnd x) y.1 = true ∨ seqLe (oooEnd y) x.1 = true := by
    refine List.pairwise_append.mpr ⟨(hd.sublist List.filter_sublist).imp .inl, by simp, ?_⟩
    intro x hx y hy
    rw [List.mem_singleton.mp hy]
    exact hclear hparks x hx
  have hperm := List.perm_insertionSort (fun x y : OooSegment => seqLt x.1 y.1 = true)
    (TcpConnection.retainUncovered c.oooSegments new ++ [new])
  have hsorted := hperm.symm.pairwise hbeside fun hxy => hxy.symm
  -- Of two segments in order, the second cannot be the one that ends first.
  refine (hq.apart.and hsorted).imp_of_mem fun {x y} hx hy ⟨⟨hlt, _⟩, hxy⟩ => ?_
  rcases hxy with hxy | hxy
  · exact hxy
  · have hix := hq.inside x hx
    have hiy := hq.inside y hy
    rw [oooEnd_pos (seq_eq_pos b y), seq_eq_pos b x, seqLe_pos (by omega) (by omega)] at hxy
    omega

theorem acceptPayload_disjoint (hc : c.recv.Held) (hf : c.finReceived = false)
    (hd : Disjoint c.oooSegments) (ht : taking c.state = true) (hsep : Separate c seg) :
    Disjoint (c.acceptPayload seg).oooSegments := by
  have hlow : c.recv.lowest = 1 := by simp [RecvView.lowest, TcpConnection.recv, hf]
  have hq : Queued c.rcvNxt 1 c.recv.window c.oooSegments := hlow ▸ hc.queued
  have hle := c.recv.window_le
  unfold TcpConnection.acceptPayload
  split
  swap
  · exact hd
  unfold TcpConnection.acceptData
  split
  · exact hd
  rename_i e htrim
  obtain ⟨-, -, -, -, hne, hwin⟩ := TcpConnection.trimToWindow_spec htrim
  have hwin : offset c.rcvNxt e + e.2.length ≤ c.recv.window := hwin
  split
  · exact hd.sublist (drainLoop_sublist _ _ _)
  · rename_i hgap
    have hpos : 1 ≤ offset c.rcvNxt e := by
      by_contra hz
      apply hgap
      rw [seq_eq_pos c.rcvNxt e, show offset c.rcvNxt e = 0 by omega, pos_zero]
    exact bufferOoo_disjoint hle hq hd ⟨hpos, hne, hwin⟩ (hsep.1 ht e htrim hgap)

/-- The queue has no overlaps and nothing in it stands at `rcv_nxt`. -/
structure Clear (c : TcpConnection ρ) : Prop where
  disjoint : Disjoint c.oooSegments
  above : ∀ e ∈ c.oooSegments, e.1 ≠ c.rcvNxt

theorem Clear.parted (h : Clear c) : Parted c := ⟨h.above, h.disjoint.apartFor 4⟩

theorem Clear.congr (h : Clear c) (hooo : c'.oooSegments = c.oooSegments)
    (hn : c'.rcvNxt = c.rcvNxt) : Clear c' := by
  refine ⟨?_, ?_⟩
  · rw [hooo]
    exact h.disjoint
  · rw [hooo, hn]
    exact h.above

theorem clear_of_nil (h : c.oooSegments = []) : Clear c :=
  ⟨by simp [h, Disjoint], by simp [h]⟩

/-- Before the FIN, a queued segment never stands at `rcv_nxt`. -/
theorem Receiving.above (h : Receiving c sent) (hf : c.finReceived = false) :
    ∀ e ∈ c.oooSegments, e.1 ≠ c.rcvNxt := by
  intro e he heq
  have hlow : c.recv.lowest = 1 := by simp [RecvView.lowest, TcpConnection.recv, hf]
  have hin : c.recv.lowest ≤ offset c.rcvNxt e := (h.windowed.held.queued.inside e he).1
  have hzero : offset c.rcvNxt e = 0 := by simp [offset, heq]
  omega

theorem arrival_clear (h : Receiving c sent) (hclear : Clear c) (hsep : Separate c seg)
    (arrival : Arrival c seg c' reply) : Clear c' := by
  have hafter := receiving_receive h arrival
  obtain ⟨c₁, hp, hr⟩ := arrival
  have hooo : c₁.oooSegments = c.oooSegments := congrArg RecvView.oooSegments hp.recv
  have hn : c₁.rcvNxt = c.rcvNxt := congrArg RecvView.rcvNxt hp.recv
  have hclear₁ : Clear c₁ := hclear.congr hooo hn
  have hsame : c'.recv = c₁.recv → Clear c' := fun heq =>
    hclear₁.congr (congrArg RecvView.oooSegments heq) (congrArg RecvView.rcvNxt heq)
  have hpayload : taking c.state = true → Disjoint (c₁.acceptPayload seg).oooSegments := by
    intro ht
    have heq : (c₁.acceptPayload seg).oooSegments = (c.acceptPayload seg).oooSegments :=
      congrArg RecvView.oooSegments (TcpConnection.acceptPayload_congr hp.recv seg)
    rw [heq]
    exact acceptPayload_disjoint h.windowed.held (h.taken ht) hclear.disjoint ht hsep
  cases hr with
  | ignore same | answer _ same => exact hsame same.recv
  | reset _ _ _ recv => exact clear_of_nil (congrArg RecvView.oooSegments recv)
  | passiveOpen _ before => exact absurd (hp.state ▸ before) h.opened.1
  | activeOpen before | crossing before => exact absurd (hp.state ▸ before) h.opened.2
  | closeWait _ _ _ _ recv | finAcked _ _ _ recv => exact hsame recv
  | handshake before _ _ _ recv =>
    have ht : taking c.state = true := by simp [← hp.state, before, taking]
    have hq : c'.oooSegments = (c₁.acceptPayload seg).oooSegments :=
      congrArg RecvView.oooSegments recv
    have hf : c'.finReceived = false := by
      rw [show c'.finReceived = (c₁.acceptPayload seg).finReceived from
        congrArg RecvView.finReceived recv, TcpConnection.acceptPayload_finReceived]
      exact (congrArg RecvView.finReceived hp.recv).trans (h.taken ht)
    exact ⟨hq ▸ hpayload ht, hafter.above hf⟩
  | transfer before recv =>
    rw [hp.state] at before
    have ht : taking c.state = true := by rcases before with hb | hb | hb <;> simp [hb, taking]
    have hq : c'.oooSegments = (c₁.acceptPayload seg).oooSegments := by
      refine (congrArg RecvView.oooSegments recv).trans ?_
      unfold RecvView.afterFin
      split <;> rfl
    refine ⟨hq ▸ hpayload ht, ?_⟩
    have hview := TcpConnection.acceptPayload_congr hp.recv seg
    rw [hview] at recv
    by_cases hfin : (c.acceptPayload seg).recv.takesFin seg = true
    · -- The position moves past the FIN.
      rw [RecvView.afterFin, if_pos hfin] at recv
      have hn' : c'.rcvNxt = (c.acceptPayload seg).rcvNxt + 1 := congrArg RecvView.rcvNxt recv
      have hq' : c'.oooSegments = (c.acceptPayload seg).oooSegments :=
        congrArg RecvView.oooSegments recv
      rw [hn', hq']
      exact hsep.2 before hfin
    · rw [RecvView.afterFin, if_neg hfin] at recv
      have hf : c'.finReceived = (c.acceptPayload seg).finReceived :=
        congrArg RecvView.finReceived recv
      rw [TcpConnection.acceptPayload_finReceived, h.taken ht] at hf
      exact hafter.above hf

/-- The connection is opened once, and arrivals do not make the queue overlap. -/
def Separating (c : TcpConnection ρ) : Call → Prop
  | .handleSegmentAt seg _ => Separate c seg
  | .initiateSynAt _ => False
  | _ => True

theorem Separating.dials {k : Call} (h : Separating c k) : k.dials = false := by
  cases k <;> first | rfl | exact h.elim

section runs

variable [RttEstimator ρ]

omit [RttEstimator ρ] in
theorem fresh_arrival_clear (h : Fresh c sent) (arrival : Arrival c seg c' reply) : Clear c' := by
  obtain ⟨c₁, hp, hr⟩ := arrival
  have hnil : c₁.recv.oooSegments = [] :=
    (congrArg RecvView.oooSegments hp.recv).trans h.oooSegments
  have hlive : c₁.synchronized = false := by
    simpa only [TcpConnection.synchronized, hp.state] using h.state
  have hkeep : c'.recv.oooSegments = c₁.recv.oooSegments → Clear c' :=
    fun heq => clear_of_nil (heq.trans hnil)
  cases hr with
  | ignore same => exact hkeep (congrArg RecvView.oooSegments same.recv)
  | answer live => simp [hlive] at live
  | reset _ _ _ recv => exact clear_of_nil (congrArg RecvView.oooSegments recv)
  | passiveOpen _ _ _ _ recv | activeOpen _ _ _ _ _ recv | crossing _ _ _ _ recv =>
    exact hkeep ((congrArg RecvView.oooSegments recv).trans rfl)
  | handshake before => simp [TcpConnection.synchronized, before] at hlive
  | transfer before =>
    rcases before with hb | hb | hb <;> simp [TcpConnection.synchronized, hb] at hlive
  | closeWait before => simp [TcpConnection.synchronized, before] at hlive
  | finAcked states =>
    rcases states with ⟨hb, -⟩ | ⟨hb, -⟩ <;> simp [TcpConnection.synchronized, hb] at hlive

theorem clear_invariant : Run.Invariant Separating fun (c : TcpConnection ρ) sent =>
    (Fresh c sent ∨ Receiving c sent) ∧ Clear c where
  write := fun data h => ⟨receiving_invariant.write data h.1, h.2.congr rfl rfl⟩
  read := fun {c sent} len h => by
    refine ⟨receiving_invariant.read len h.1, ?_⟩
    unfold TcpConnection.read
    split <;> exact h.2.congr rfl rfl
  act := fun h step => by
    have hrecv := localStep_recv step
    exact ⟨receiving_invariant.act h.1 step,
      h.2.congr (congrArg RecvView.oooSegments hrecv) (congrArg RecvView.rcvNxt hrecv)⟩
  abort := fun hk habort h =>
    ⟨receiving_invariant.abort (Separating.dials hk) habort h.1, h.2.congr rfl rfl⟩
  receive := fun {c c' sent seg now reply} h hk arrival => by
    have hdials : (Call.handleSegmentAt seg now).dials = false := rfl
    refine ⟨receiving_invariant.receive h.1 hdials arrival, ?_⟩
    rcases h.1 with hfresh | hrecv
    · exact fresh_arrival_clear hfresh arrival
    · exact arrival_clear hrecv h.2 hk arrival
  dial := fun _ hk => hk.elim

/-- The blocks of a reachable state are canonical exactly if its queue is parted; and they are
in every state of a run whose arrivals do not make the queue overlap. -/
theorem sack_blocks_canonical :
    (∀ (st : Start) (r : Run ρ) (calls : List Call), r.Opened st →
      r.Admits (fun _ k => k.dials = false) calls →
      (CanonicalBlocks (r.run calls).conn ↔ Parted (r.run calls).conn)) ∧
    (∀ (st : Start) (r : Run ρ) (calls : List Call), r.Opened st → r.Admits Separating calls →
      CanonicalBlocks (r.run calls).conn) := by
  have hreach : ∀ (st : Start) (r : Run ρ) (calls : List Call), r.Opened st →
      r.Admits (fun _ k => k.dials = false) calls →
      (CanonicalBlocks (r.run calls).conn ↔ Parted (r.run calls).conn) := by
    intro st r calls hopen hok
    rcases receiving_invariant.run (.inl (fresh_opened st hopen)) hok with hf | h
    · have hq : Queued (r.run calls).conn.rcvNxt 0 0 (r.run calls).conn.oooSegments := by
        rw [hf.oooSegments]
        exact queued_nil _ _ _
      exact canonicalBlocks_iff (by omega) hq
    · exact canonicalBlocks_iff (r.run calls).conn.recv.window_le h.windowed.held.queued
  refine ⟨hreach, fun st r calls hopen hok => ?_⟩
  have hdials : r.Admits (fun _ k => k.dials = false) calls := hok.mono fun _ _ h => h.dials
  have hfresh := fresh_opened st hopen
  obtain ⟨-, hclear⟩ := clear_invariant.run ⟨.inl hfresh, clear_of_nil hfresh.oooSegments⟩ hok
  exact (hreach st r calls hopen hdials).mpr hclear.parted

end runs

instance (c : TcpConnection ρ) (seg : TcpSegment) : Decidable (Separate c seg) :=
  inferInstanceAs (Decidable ((_ → ∀ new ∈ c.trimToWindow seg.seqNum seg.payload, _ →
    _ → ∀ e ∈ _, _) ∧
    (_ → _ → ∀ e ∈ _, _)))

instance decidableSeparating (c : TcpConnection ρ) : ∀ k, Decidable (Separating c k)
  | .handleSegmentAt seg _ => inferInstanceAs (Decidable (Separate c seg))
  | .initiateSynAt _ => isFalse id
  | .write _ | .read _ | .pollOutput _ | .initiateCloseAt _ => isTrue trivial

/-! ### Segments with a gap, with an overlap and past a FIN -/

/-- The handshake of a peer and then its segments. -/
def peerSends (segs : List TcpSegment) : List Call :=
  .handleSegmentAt (peerSegment 1000 0 .synOnly []) 0 ::
    (peerSegment 1001 5001 .ackOnly [] :: segs).map fun seg => .handleSegmentAt seg 1

theorem sack_blocks_canonical_gaps :
    CanonicalBlocks ((Run.start host.listening : Run JacobsonRtt).run
      (peerSends [peerSegment 1011 5001 .ackOnly [1, 2, 3, 4],
        peerSegment 1015 5001 .ackOnly [5, 6], peerSegment 1030 5001 .ackOnly [7]])).conn :=
  sack_blocks_canonical.2 host _ _ (.inl rfl) (by decide +kernel)

/-- Two segments that overlap give two blocks that overlap; a segment past a FIN gives a block at
`rcv_nxt`. -/
theorem sack_blocks_overlap :
    let c : TcpConnection JacobsonRtt := ((Run.start host.listening).run
      (peerSends [peerSegment 1011 5001 .ackOnly [1, 2, 3, 4],
        peerSegment 1013 5001 .ackOnly [3, 4, 5, 6]])).conn
    let d : TcpConnection JacobsonRtt := ((Run.start host.listening).run
      (peerSends [peerSegment 1002 5001 .ackOnly [1], peerSegment 1001 5001 .finAck []])).conn
    c.buildSackBlocks = [(1011, 1015), (1013, 1017)] ∧ ¬ CanonicalBlocks c ∧
      d.rcvNxt = 1002 ∧ d.buildSackBlocks = [(1002, 1003)] ∧ ¬ CanonicalBlocks d := by
  intro c d
  have hc : c.buildSackBlocks = [(1011, 1015), (1013, 1017)] := by decide +kernel
  have hn : d.rcvNxt = 1002 := by decide +kernel
  have hd : d.buildSackBlocks = [(1002, 1003)] := by decide +kernel
  refine ⟨hc, fun h => ?_, hn, hd, fun h => ?_⟩
  · have hordered := h.ordered
    rw [hc] at hordered
    revert hordered
    decide +kernel
  · have habove := h.above
    rw [hd, hn, List.forall_mem_singleton] at habove
    revert habove
    decide +kernel

end ToyTcpip.Tcp
