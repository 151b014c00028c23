import ToyTcpip.Ipv4
import ToyTcpip.Lib.Machine
import ToyTcpip.Lib.Window

/-! The anti-replay window of an ESP security association (`ipsec.rs`). -/
namespace ToyTcpip

open Window

structure SecurityAssociation where
  spi : BitVec 32
  srcIp : Ipv4Address
  dstIp : Ipv4Address
  key : List UInt8
  nextSeq : BitVec 32
  highestSeqSeen : BitVec 32
  replayBitmap : BitVec 64

namespace SecurityAssociation

def new (spi : BitVec 32) (srcIp dstIp : Ipv4Address) (key : List UInt8) : SecurityAssociation where
  spi := spi
  srcIp := srcIp
  dstIp := dstIp
  key := key
  nextSeq := 1
  highestSeqSeen := 0
  replayBitmap := 0

/-- The association after a number was offered, and whether it was accepted. -/
def checkAntiReplay (sa : SecurityAssociation) (seq : BitVec 32) : SecurityAssociation × Bool :=
  if seq = 0 then (sa, false)
  else if seq > sa.highestSeqSeen then
    let diff := (seq - sa.highestSeqSeen).toNat
    let bitmap := if diff < 64 then sa.replayBitmap <<< diff ||| 1#64 else 1#64
    ({ sa with replayBitmap := bitmap, highestSeqSeen := seq }, true)
  else
    let diff := (sa.highestSeqSeen - seq).toNat
    if diff ≥ 64 then (sa, false)
    else if sa.replayBitmap &&& 1#64 <<< diff ≠ 0 then (sa, false)
    else ({ sa with replayBitmap := sa.replayBitmap ||| 1#64 <<< diff }, true)

variable {sa : SecurityAssociation} {seq : BitVec 32} {accepted : List (BitVec 32)}

def marks (sa : SecurityAssociation) (i : ℕ) : Bool := sa.replayBitmap.getLsbD i

theorem getLsbD_one_shift {d i : ℕ} (hd : d < 64) :
    (1#64 <<< d).getLsbD i = true ↔ i = d := by
  simp only [BitVec.getLsbD_shiftLeft, BitVec.getLsbD_one, Bool.and_eq_true, decide_eq_true_eq,
    Bool.not_eq_true', decide_eq_false_iff_not]
  omega

theorem and_one_shift {bitmap : BitVec 64} {d : ℕ} (hd : d < 64) :
    bitmap &&& 1#64 <<< d ≠ 0 ↔ bitmap.getLsbD d = true := by
  have hbit := @getLsbD_one_shift d d hd
  constructor
  · intro h
    by_contra hmark
    apply h
    apply BitVec.eq_of_getLsbD_eq
    intro i hi
    rw [BitVec.getLsbD_and]
    by_cases hid : i = d
    · subst hid
      simp_all
    · have := (getLsbD_one_shift hd).not.mpr hid
      simp_all
  · intro h hzero
    have := congrArg (fun b => b.getLsbD d) hzero
    rw [BitVec.getLsbD_and, h, hbit.mpr rfl] at this
    simp at this

/-- The numbers accepted so far, as the window sees them. -/
def taken (accepted : List (BitVec 32)) : Set ℤ := {t | ∃ seq ∈ accepted, t = seq.toNat}

theorem taken_concat : taken (accepted ++ [seq]) = insert (seq.toNat : ℤ) (taken accepted) := by
  ext t
  simp [taken, or_and_right, exists_or, or_comm]

theorem mem_taken : (seq.toNat : ℤ) ∈ taken accepted ↔ seq ∈ accepted := by
  constructor
  · rintro ⟨seq', hmem, heq⟩
    have : seq = seq' := BitVec.eq_of_toNat_eq (by omega)
    rwa [this]
  · intro hmem
    exact ⟨seq, hmem, rfl⟩

/-- The highest accepted number, and zero before there is one. -/
def highest (accepted : List (BitVec 32)) : ℕ := (accepted.map BitVec.toNat).foldr max 0

theorem le_highest (h : seq ∈ accepted) : seq.toNat ≤ highest accepted := by
  induction accepted with
  | nil => simp at h
  | cons a rest ih =>
    simp only [highest, List.map_cons, List.foldr_cons]
    rcases List.mem_cons.mp h with rfl | h
    · exact le_max_left _ _
    · exact (ih h).trans (le_max_right _ _)

theorem highest_le {n : ℕ} (h : ∀ seq ∈ accepted, seq.toNat ≤ n) : highest accepted ≤ n := by
  induction accepted with
  | nil => exact Nat.zero_le n
  | cons a rest ih =>
    simp only [highest, List.map_cons, List.foldr_cons]
    exact max_le (h a List.mem_cons_self) (ih fun seq hseq => h seq (List.mem_cons_of_mem a hseq))

/-- The association agrees with the numbers it accepted. -/
structure Tracks (sa : SecurityAssociation) (accepted : List (BitVec 32)) : Prop where
  records : Records 64 sa.highestSeqSeen.toNat (taken accepted) sa.marks
  newest : sa.highestSeqSeen = 0 ∨ sa.highestSeqSeen ∈ accepted
  nodup : accepted.Nodup

theorem Tracks.highest_eq (h : Tracks sa accepted) :
    highest accepted = sa.highestSeqSeen.toNat := by
  have hle : highest accepted ≤ sa.highestSeqSeen.toNat := by
    refine highest_le fun seq hseq => ?_
    have := h.records.le_newest seq.toNat (mem_taken.mpr hseq)
    omega
  rcases h.newest with hzero | hmem
  · simp_all
  · have := le_highest hmem
    omega

theorem tracks_new (spi : BitVec 32) (srcIp dstIp : Ipv4Address) (key : List UInt8) :
    Tracks (new spi srcIp dstIp key) [] := by
  refine ⟨⟨?_, ?_⟩, .inl rfl, List.nodup_nil⟩
  · simp [taken]
  · simp [taken, marks, new]

/-- What a call that accepts its number records. -/
theorem Tracks.accept (h : Tracks sa accepted) {sa' : SecurityAssociation}
    (hfresh : Fresh 64 sa.highestSeqSeen.toNat (taken accepted) seq.toNat)
    (hrecords : Records 64 sa'.highestSeqSeen.toNat (insert (seq.toNat : ℤ) (taken accepted))
      sa'.marks)
    (hnewest : sa'.highestSeqSeen = seq ∨ sa'.highestSeqSeen = sa.highestSeqSeen) :
    Tracks sa' (accepted ++ [seq]) := by
  refine ⟨?_, ?_, ?_⟩
  · rwa [taken_concat]
  · rcases hnewest with heq | heq
    · right
      simp [heq]
    · rw [heq]
      exact h.newest.imp_right (List.mem_append_left _)
  · rw [← List.concat_eq_append, List.nodup_concat]
    exact ⟨fun hmem => hfresh.1 (mem_taken.mpr hmem), h.nodup⟩

theorem Tracks.ahead (h : Tracks sa accepted) (hgt : seq > sa.highestSeqSeen) :
    Fresh 64 sa.highestSeqSeen.toNat (taken accepted) seq.toNat ∧
      Tracks (sa.checkAntiReplay seq).1 (accepted ++ [seq]) ∧
      (sa.checkAntiReplay seq).2 = true := by
  have hlt : sa.highestSeqSeen.toNat < seq.toNat := BitVec.lt_def.mp hgt
  have hzero : seq ≠ 0 := by
    rintro rfl
    simp at hlt
  have hd : (seq - sa.highestSeqSeen).toNat = seq.toNat - sa.highestSeqSeen.toNat :=
    BitVec.toNat_sub_of_le (BitVec.le_def.mpr hlt.le)
  have hfresh := h.records.fresh_of_lt (t := seq.toNat) (by omega)
  rw [checkAntiReplay, if_neg hzero, if_pos hgt]
  refine ⟨hfresh, h.accept hfresh ?_ (.inl rfl), rfl⟩
  refine h.records.advance (d := (seq - sa.highestSeqSeen).toNat) ?_ (by omega) ?_
  · simp only
    omega
  · intro i hi
    simp only [marks]
    have hone : (1#64).getLsbD i = true ↔ i = 0 := @getLsbD_one_shift 0 i (by omega)
    generalize (seq - sa.highestSeqSeen).toNat = d at hd ⊢
    by_cases hdiff : d < 64
    · rw [if_pos hdiff, BitVec.getLsbD_or, Bool.or_eq_true, hone, BitVec.getLsbD_shiftLeft, or_comm]
      simp [hi]
    · rw [if_neg hdiff, hone]
      constructor
      · exact .inl
      · rintro (hzero | ⟨hdi, -⟩)
        · exact hzero
        · omega

theorem Tracks.behind (h : Tracks sa accepted) (hzero : seq ≠ 0)
    (hle : ¬ seq > sa.highestSeqSeen) :
    ((sa.checkAntiReplay seq).2 = true ↔
      Fresh 64 sa.highestSeqSeen.toNat (taken accepted) seq.toNat) ∧
    Tracks (sa.checkAntiReplay seq).1
      (if (sa.checkAntiReplay seq).2 then accepted ++ [seq] else accepted) := by
  have hle' : seq.toNat ≤ sa.highestSeqSeen.toNat := Nat.le_of_not_lt (BitVec.lt_def.not.mp hle)
  have hd : (sa.highestSeqSeen - seq).toNat = sa.highestSeqSeen.toNat - seq.toNat :=
    BitVec.toNat_sub_of_le (BitVec.le_def.mpr hle')
  rw [checkAntiReplay, if_neg hzero, if_neg hle]
  simp only
  generalize (sa.highestSeqSeen - seq).toNat = d at hd ⊢
  have hfresh := h.records.fresh_behind (t := seq.toNat) (d := d) (by omega)
  by_cases hold : d ≥ 64
  · rw [if_pos hold]
    refine ⟨?_, by simpa using h⟩
    rw [hfresh]
    simp
    omega
  · rw [if_neg hold]
    by_cases hmark : sa.marks d = true
    · rw [if_pos ((and_one_shift (by omega)).mpr hmark)]
      refine ⟨?_, by simpa using h⟩
      rw [hfresh]
      simp [hmark]
    · rw [if_neg ((and_one_shift (by omega)).not.mpr hmark)]
      have hyes := hfresh.mpr ⟨by omega, by simpa using hmark⟩
      refine ⟨by simp [hyes], ?_⟩
      refine h.accept hyes (h.records.fill (d := d) ?_ ?_) (.inr rfl)
      · simp only
        omega
      intro i hi
      rw [marks, BitVec.getLsbD_or, Bool.or_eq_true, getLsbD_one_shift (by omega)]
      exact or_comm

/-- What one call does: a fresh number is accepted, and then recorded. -/
theorem Tracks.check (h : Tracks sa accepted) (seq : BitVec 32) :
    ((sa.checkAntiReplay seq).2 = true ↔
      seq ≠ 0 ∧ Fresh 64 sa.highestSeqSeen.toNat (taken accepted) seq.toNat) ∧
    Tracks (sa.checkAntiReplay seq).1
      (if (sa.checkAntiReplay seq).2 then accepted ++ [seq] else accepted) := by
  by_cases hzero : seq = 0
  · rw [checkAntiReplay, if_pos hzero]
    simp [hzero, h]
  · by_cases hgt : seq > sa.highestSeqSeen
    · obtain ⟨hfresh, htracks, hok⟩ := h.ahead hgt
      rw [hok]
      exact ⟨⟨fun _ => ⟨hzero, hfresh⟩, fun _ => rfl⟩, htracks⟩
    · obtain ⟨hiff, htracks⟩ := h.behind hzero hgt
      exact ⟨hiff.trans ⟨fun hfresh => ⟨hzero, hfresh⟩, And.right⟩, htracks⟩

/-- A number is offered, and listed when it is accepted. -/
def offer (s : SecurityAssociation × List (BitVec 32)) (seq : BitVec 32) :
    SecurityAssociation × List (BitVec 32) :=
  let checked := s.1.checkAntiReplay seq
  (checked.1, if checked.2 then s.2 ++ [seq] else s.2)

theorem anti_replay_exact (spi : BitVec 32) (srcIp dstIp : Ipv4Address) (key : List UInt8)
    (seqs : List (BitVec 32)) :
    let s := Machine.run offer (new spi srcIp dstIp key, []) seqs
    s.2.Nodup ∧
    (∀ seq, (s.1.checkAntiReplay seq).2 = true ↔
      seq ≠ 0 ∧ seq ∉ s.2 ∧ (highest s.2 : ℤ) - 64 < seq.toNat) ∧
    ∀ i < 64, s.1.replayBitmap.getLsbD i = true ↔ ∃ seq ∈ s.2, seq.toNat + i = highest s.2 := by
  intro s
  have h : Tracks s.1 s.2 := @Machine.run_keeps _ _ offer (fun s => Tracks s.1 s.2) _
    (fun s seq hs => (hs.check seq).2) seqs (tracks_new spi srcIp dstIp key)
  refine ⟨h.nodup, ?_, ?_⟩
  · intro seq
    rw [(h.check seq).1, Fresh, mem_taken, h.highest_eq]
    rfl
  · intro i hi
    have hmark := h.records.mark_iff i hi
    rw [marks] at hmark
    rw [hmark, h.highest_eq]
    constructor
    · rintro ⟨seq, hseq, heq⟩
      exact ⟨seq, hseq, by omega⟩
    · rintro ⟨seq, hseq, heq⟩
      exact ⟨seq, hseq, by omega⟩

example : (Machine.run offer (new 0x1000 ⟨1, 1, 1, 1⟩ ⟨2, 2, 2, 2⟩ [], [])
    [1, 2, 3, 2, 10, 4, 4]).2 = [1, 2, 3, 10, 4] := by decide

end SecurityAssociation

end ToyTcpip
