import Mathlib.Data.BitVec
import ToyTcpip.Lib.Machine
import ToyTcpip.Lib.Window

/-! The sequence recovery function of `frer_srf.rs`. -/
namespace ToyTcpip.Frer

open Window

/-- The signed distance from `a` to `b`. -/
def seqDistance (a b : BitVec 16) : ℤ :=
  let d := (b - a).toNat
  if d ≤ 0x7FFF then d else d - 0x10000

structure SequenceHistory where
  seen : List Bool
  deriving DecidableEq, Repr

namespace SequenceHistory

def new (historyLength : ℕ) : SequenceHistory := ⟨.replicate historyLength false⟩

def len (h : SequenceHistory) : ℕ := h.seen.length

def get (h : SequenceHistory) (idx : ℕ) : Bool := h.seen.getD idx false

def set (h : SequenceHistory) (idx : ℕ) : SequenceHistory :=
  if idx < h.seen.length then ⟨h.seen.set idx true⟩ else h

/-- `seen[i] = seen[i - count]`. -/
def moveUp (count : ℕ) (seen : List Bool) (i : ℕ) : List Bool :=
  seen.set i (seen.getD (i - count) false)

def shiftRight (h : SequenceHistory) (count : ℕ) : SequenceHistory :=
  let n := h.seen.length
  if count ≥ n then ⟨.replicate n false⟩
  else
    let moved := (List.range' count (n - count)).reverse.foldl (moveUp count) h.seen
    ⟨(List.range count).foldl (fun seen i => seen.set i false) moved⟩

end SequenceHistory

structure SrfStats where
  accepted : ℕ
  outOfOrderAccepted : ℕ
  duplicatesEliminated : ℕ
  rogueDropped : ℕ
  deriving DecidableEq, Repr

inductive SrfVerdict where
  | accept
  | acceptOutOfOrder
  | eliminateDuplicate
  | dropRogue
  deriving DecidableEq, Repr

structure SrfInstance where
  recvSeq : BitVec 16
  history : SequenceHistory
  takeAny : Bool
  stats : SrfStats
  deriving DecidableEq, Repr

namespace SrfInstance

def new (historyLength : ℕ) : SrfInstance := ⟨0, .new historyLength, true, ⟨0, 0, 0, 0⟩⟩

def process (s : SrfInstance) (seq : BitVec 16) : SrfInstance × SrfVerdict :=
  if s.takeAny then
    ({ recvSeq := seq + 1
       history := (SequenceHistory.new s.history.len).set 0
       takeAny := false
       stats := { s.stats with accepted := s.stats.accepted + 1 } }, .accept)
  else
    let delta := seqDistance s.recvSeq seq
    if delta ≥ 0 then
      let history := (s.history.shiftRight (delta.toNat + 1)).set 0
      let stats := { s.stats with accepted := s.stats.accepted + 1 }
      if delta > 0 then
        let stats := { stats with outOfOrderAccepted := stats.outOfOrderAccepted + 1 }
        ({ s with recvSeq := seq + 1, history := history, stats := stats }, .acceptOutOfOrder)
      else ({ s with recvSeq := seq + 1, history := history, stats := stats }, .accept)
    else
      let idx := (-delta).toNat - 1
      if idx ≥ s.history.len then
        ({ s with stats := { s.stats with rogueDropped := s.stats.rogueDropped + 1 } }, .dropRogue)
      else if s.history.get idx then
        ({ s with stats :=
            { s.stats with duplicatesEliminated := s.stats.duplicatesEliminated + 1 } },
          .eliminateDuplicate)
      else
        ({ s with
            history := s.history.set idx
            stats :=
              { s.stats with
                accepted := s.stats.accepted + 1
                outOfOrderAccepted := s.stats.outOfOrderAccepted + 1 } }, .acceptOutOfOrder)

end SrfInstance

/-! ### The history -/

namespace SequenceHistory

variable {h : SequenceHistory} {count i j k m : ℕ} {seen : List Bool}

theorem length_moveUp : (moveUp count seen i).length = seen.length := List.length_set

theorem getD_moveUp (hk : k < seen.length) :
    (moveUp count seen k).getD i false =
      if i = k then seen.getD (k - count) false else seen.getD i false := by
  rw [moveUp, List.getD_eq_getElem?_getD, List.getElem?_set]
  by_cases hik : k = i
  · subst hik
    simp [hk]
  · simp [hik, Ne.symm hik]

/-- From the top down every place reads one that was not written yet. -/
theorem foldl_moveUp (hcount : 0 < count) (hk : count ≤ k) (hm : k + m = seen.length) :
    ((List.range' k m).reverse.foldl (moveUp count) seen).length = seen.length ∧
      ∀ i, ((List.range' k m).reverse.foldl (moveUp count) seen).getD i false =
        if k ≤ i ∧ i < seen.length then seen.getD (i - count) false else seen.getD i false := by
  induction m generalizing k with
  | zero =>
    refine ⟨rfl, fun i => ?_⟩
    rw [if_neg (by omega)]
    rfl
  | succ m ih =>
    obtain ⟨hlength, hget⟩ := ih (k := k + 1) (by omega) (by omega)
    rw [List.range'_succ, List.reverse_cons, List.foldl_append, List.foldl_cons, List.foldl_nil]
    refine ⟨length_moveUp.trans hlength, fun i => ?_⟩
    rw [getD_moveUp (by omega), hget, hget]
    by_cases hik : i = k
    · subst hik
      rw [if_pos rfl, if_neg (by omega), if_pos (by omega)]
    · rw [if_neg hik]
      by_cases hlow : k ≤ i ∧ i < seen.length
      · rw [if_pos (by omega), if_pos hlow]
      · rw [if_neg (by omega), if_neg hlow]

theorem foldl_clear :
    ((List.range count).foldl (fun seen i => seen.set i false) seen).length = seen.length ∧
      ∀ i, ((List.range count).foldl (fun seen i => seen.set i false) seen).getD i false =
        if i < count then false else seen.getD i false := by
  induction count with
  | zero => simp
  | succ count ih =>
    obtain ⟨hlength, hget⟩ := ih
    rw [List.range_succ, List.foldl_append, List.foldl_cons, List.foldl_nil]
    refine ⟨List.length_set.trans hlength, fun i => ?_⟩
    rw [List.getD_eq_getElem?_getD, List.getElem?_set]
    by_cases hi : count = i
    · subst hi
      rw [if_pos rfl, if_pos (Nat.lt_succ_self count)]
      split <;> rfl
    · rw [if_neg hi, ← List.getD_eq_getElem?_getD, hget]
      by_cases hlt : i < count
      · rw [if_pos hlt, if_pos (by omega)]
      · rw [if_neg hlt, if_neg (by omega)]

@[simp] theorem len_new (n : ℕ) : (new n).len = n := List.length_replicate

@[simp] theorem get_new (n i : ℕ) : (new n).get i = false := by
  simp [new, get, List.getD_eq_getElem?_getD, List.getElem?_replicate]
  split <;> rfl

@[simp] theorem len_set (idx : ℕ) : (h.set idx).len = h.len := by
  unfold set
  split <;> simp [len]

theorem get_set (hj : j < h.len) : (h.set j).get i = true ↔ i = j ∨ h.get i = true := by
  rw [len] at hj
  rw [set, if_pos hj, get, get, List.getD_eq_getElem?_getD, List.getElem?_set]
  by_cases hij : j = i
  · subst hij
    simp [hj]
  · simp [hij, Ne.symm hij]

theorem shiftRight_spec (hcount : 0 < count) :
    (h.shiftRight count).len = h.len ∧ ∀ i < h.len,
      (h.shiftRight count).get i = true ↔ count ≤ i ∧ h.get (i - count) = true := by
  unfold shiftRight
  simp only
  split
  · next hge =>
    refine ⟨List.length_replicate, fun i hi => ?_⟩
    rw [len] at hi
    have hnew := get_new h.seen.length i
    rw [new] at hnew
    simp only [hnew, Bool.false_eq_true, false_iff]
    omega
  · next hlt =>
    have hup := @foldl_moveUp count count (h.seen.length - count) h.seen hcount le_rfl (by omega)
    obtain ⟨hmoved, hget⟩ := hup
    obtain ⟨hlength, hclear⟩ := @foldl_clear count
      ((List.range' count (h.seen.length - count)).reverse.foldl (moveUp count) h.seen)
    refine ⟨hlength.trans hmoved, fun i hi => ?_⟩
    rw [len] at hi
    rw [get, hclear, hget]
    by_cases hic : i < count
    · rw [if_pos hic]
      simp only [Bool.false_eq_true, false_iff]
      omega
    · rw [if_neg hic, if_pos (by omega)]
      simp only [get, Nat.le_of_not_lt hic, true_and]

end SequenceHistory

/-! ### Numbers on the wire -/

/-- The sixteen bits that are sent of a true number. -/
def wire (t : ℤ) : BitVec 16 := .ofInt 16 t

theorem seqDistance_eq (a b : BitVec 16) : seqDistance a b = (b - a).toInt := by
  have := (b - a).isLt
  rw [seqDistance, BitVec.toInt_eq_toNat_cond]
  split <;> split <;> simp_all <;> omega

theorem wire_succ (t : ℤ) : wire t + 1 = wire (t + 1) := by
  rw [wire, wire, BitVec.ofInt_add]
  rfl

theorem wire_sub (s t : ℤ) : wire t - wire s = wire (t - s) := by
  rw [sub_eq_iff_eq_add, wire, wire, wire, ← BitVec.ofInt_add, sub_add_cancel]

/-- Numbers less than half the space apart keep their distance. -/
theorem seqDistance_wire {s t : ℤ} (hlow : -2 ^ 15 ≤ t - s) (hhigh : t - s < 2 ^ 15) :
    seqDistance (wire s) (wire t) = t - s := by
  rw [seqDistance_eq, wire_sub, wire, BitVec.toInt_ofInt]
  apply Int.bmod_eq_of_le <;> norm_num <;> omega

namespace SrfVerdict

/-- The verdicts that hand the frame on. -/
def accepts : SrfVerdict → Bool
  | accept | acceptOutOfOrder => true
  | eliminateDuplicate | dropRogue => false

end SrfVerdict

/-! ### What a stream leaves accepted -/

/-- The number of frames a receiver has counted. -/
def SrfStats.total (s : SrfStats) : ℕ := s.accepted + s.duplicatesEliminated + s.rogueDropped

/-- A frame is processed, and its number listed when it is accepted. -/
def deliver (s : SrfInstance × List ℤ) (t : ℤ) : SrfInstance × List ℤ :=
  let processed := s.1.process (wire t)
  (processed.1, if processed.2.accepts then s.2 ++ [t] else s.2)

/-- Every number arrives close enough to the newest one before it. -/
def NearNewest (ts : List ℤ) : Prop :=
  ∀ before t after, ts = before ++ t :: after → ∀ newest ∈ before.max?,
    newest - 2 ^ 15 < t ∧ t ≤ newest + 2 ^ 15

namespace SrfInstance

variable {s : SrfInstance} {ts accepted : List ℤ} {newest t : ℤ} {len : ℕ}

/-- The instance agrees with the numbers that arrived and those it accepted. -/
structure Follows (len : ℕ) (s : SrfInstance) (ts accepted : List ℤ) : Prop where
  total : s.stats.total = ts.length
  length : s.history.len = len
  fresh : s.takeAny = true → ts = [] ∧ accepted = []
  window : s.takeAny = false → ∃ newest, ts.max? = some newest ∧ s.recvSeq = wire (newest + 1) ∧
    Records len newest {u | u ∈ accepted} s.history.get

theorem follows_new (len : ℕ) : Follows len (new len) [] [] := by
  refine ⟨rfl, SequenceHistory.len_new len, fun _ => ⟨rfl, rfl⟩, ?_⟩
  intro h
  simp [new] at h

theorem setOf_concat : {u | u ∈ accepted ++ [t]} = insert t {u | u ∈ accepted} := by
  ext u
  simp [or_comm]

theorem max?_concat (h : ts.max? = some newest) : (ts ++ [t]).max? = some (max newest t) := by
  obtain ⟨hmem, hle⟩ := List.max?_eq_some_iff.mp h
  refine List.max?_eq_some_iff.mpr ⟨?_, ?_⟩
  · rcases max_choice newest t with heq | heq
    · rw [heq]
      exact List.mem_append_left _ hmem
    · rw [heq]
      simp
  · intro u hu
    rcases List.mem_append.mp hu with hu | hu
    · exact (hle u hu).trans (le_max_left _ _)
    · obtain rfl : u = t := by simpa using hu
      exact le_max_right _ _

/-- The first frame is taken whatever its number. -/
theorem Follows.first (h : Follows len s ts accepted) (hany : s.takeAny = true) :
    (s.process (wire t)).2 = .accept ∧ Follows len (s.process (wire t)).1 (ts ++ [t]) [t] := by
  obtain ⟨rfl, rfl⟩ := h.fresh hany
  rw [process, if_pos hany]
  refine ⟨rfl, ⟨?_, ?_, ?_, ?_⟩⟩
  · have := h.total
    simp only [SrfStats.total, List.nil_append, List.length_singleton, List.length_nil] at this ⊢
    omega
  · simp [h.length]
  · intro hfalse
    simp at hfalse
  · rintro -
    refine ⟨t, rfl, wire_succ t, ⟨?_, ?_⟩⟩
    · simp
    · intro i hi
      rw [h.length, SequenceHistory.get_set (by simpa using Nat.zero_lt_of_lt hi)]
      simp

/-- A frame that is ahead moves the window. -/
theorem Follows.ahead (h : Follows len s ts accepted) (hany : s.takeAny = false)
    (hmax : ts.max? = some newest) (hlt : newest < t) (hnear : t ≤ newest + 2 ^ 15)
    (hseq : s.recvSeq = wire (newest + 1))
    (hrec : Records len newest {u | u ∈ accepted} s.history.get) :
    (s.process (wire t)).2.accepts = true ∧
      Follows len (s.process (wire t)).1 (ts ++ [t]) (accepted ++ [t]) := by
  have hdelta : seqDistance s.recvSeq (wire t) = t - (newest + 1) := by
    rw [hseq]
    exact seqDistance_wire (by omega) (by omega)
  have hcount : 0 < (t - (newest + 1)).toNat + 1 := Nat.succ_pos _
  obtain ⟨hlen, hget⟩ := s.history.shiftRight_spec hcount
  have hwindow : Records len t {u | u ∈ accepted ++ [t]}
      ((s.history.shiftRight ((t - (newest + 1)).toNat + 1)).set 0).get := by
    rw [setOf_concat]
    refine hrec.advance (d := (t - (newest + 1)).toNat + 1) (by omega) (by omega) ?_
    intro i hi
    rw [SequenceHistory.get_set (by rw [hlen, h.length]; omega), hget i (by rw [h.length]; omega)]
  have hmax' : (ts ++ [t]).max? = some t := by rw [max?_concat hmax, max_eq_right hlt.le]
  have htotal := h.total
  rw [process, if_neg (by simp [hany]), hdelta]
  simp only
  rw [if_pos (by omega)]
  split <;>
  · refine ⟨rfl, ⟨?_, ?_, ?_, ?_⟩⟩
    · simp only [SrfStats.total, List.length_append, List.length_singleton] at htotal ⊢
      omega
    · simp only [SequenceHistory.len_set, hlen, h.length]
    · intro hfalse
      simp [hany] at hfalse
    · intro _
      exact ⟨t, hmax', wire_succ t, hwindow⟩

/-- A frame that is behind is looked up in the history. -/
theorem Follows.behind (h : Follows len s ts accepted) (hany : s.takeAny = false)
    (hmax : ts.max? = some newest) (hle : t ≤ newest) (hnear : newest - 2 ^ 15 < t)
    (hseq : s.recvSeq = wire (newest + 1))
    (hrec : Records len newest {u | u ∈ accepted} s.history.get) :
    ((s.process (wire t)).2.accepts = true ↔ Fresh len newest {u | u ∈ accepted} t) ∧
      Follows len (s.process (wire t)).1 (ts ++ [t])
        (if (s.process (wire t)).2.accepts then accepted ++ [t] else accepted) := by
  have hdelta : seqDistance s.recvSeq (wire t) = t - (newest + 1) := by
    rw [hseq]
    exact seqDistance_wire (by omega) (by omega)
  have hidx : (-(t - (newest + 1))).toNat - 1 = (newest - t).toNat := by omega
  have hmax' : (ts ++ [t]).max? = some newest := by rw [max?_concat hmax, max_eq_left hle]
  have hfresh := hrec.fresh_behind (t := t) (d := (newest - t).toNat) (by omega)
  have htotal := h.total
  rw [process, if_neg (by simp [hany]), hdelta]
  simp only
  rw [if_neg (by omega), hidx, h.length, hfresh]
  by_cases hold : (newest - t).toNat ≥ len
  · rw [if_pos hold]
    refine ⟨?_, ⟨?_, h.length, ?_, ?_⟩⟩
    · simp [SrfVerdict.accepts]
      omega
    · simp only [SrfStats.total, List.length_append, List.length_singleton] at htotal ⊢
      omega
    · intro hfalse
      simp [hany] at hfalse
    · intro _
      exact ⟨newest, hmax', hseq, hrec⟩
  · rw [if_neg hold]
    by_cases hseen : s.history.get (newest - t).toNat = true
    · rw [if_pos hseen]
      refine ⟨?_, ⟨?_, h.length, ?_, ?_⟩⟩
      · simp [SrfVerdict.accepts, hseen]
      · simp only [SrfStats.total, List.length_append, List.length_singleton] at htotal ⊢
        omega
      · intro hfalse
        simp [hany] at hfalse
      · intro _
        exact ⟨newest, hmax', hseq, hrec⟩
    · rw [if_neg hseen]
      refine ⟨?_, ⟨?_, ?_, ?_, ?_⟩⟩
      · simp [SrfVerdict.accepts, hseen]
        omega
      · simp only [SrfStats.total, List.length_append, List.length_singleton] at htotal ⊢
        omega
      · simp [h.length]
      · intro hfalse
        simp [hany] at hfalse
      · intro _
        refine ⟨newest, hmax', hseq, ?_⟩
        simp only [SrfVerdict.accepts, if_true]
        rw [setOf_concat]
        refine hrec.fill (d := (newest - t).toNat) (by omega) ?_
        intro i hi
        exact SequenceHistory.get_set (by rw [h.length]; omega)

/-- What one arrival does: a number is accepted when it is fresh, and then recorded. -/
theorem Follows.deliver (h : Follows len s ts accepted)
    (hnear : ∀ newest ∈ ts.max?, newest - 2 ^ 15 < t ∧ t ≤ newest + 2 ^ 15) :
    ((s.process (wire t)).2.accepts = true ↔
      t ∉ accepted ∧ ∀ newest ∈ ts.max?, newest - len < t) ∧
    Follows len (deliver (s, accepted) t).1 (ts ++ [t]) (deliver (s, accepted) t).2 := by
  cases hany : s.takeAny with
  | true =>
    obtain ⟨hverdict, hfollows⟩ := h.first (t := t) hany
    obtain ⟨rfl, rfl⟩ := h.fresh hany
    rw [Frer.deliver, hverdict]
    exact ⟨by simp [SrfVerdict.accepts], hfollows⟩
  | false =>
    obtain ⟨newest, hmax, hseq, hrec⟩ := h.window hany
    obtain ⟨hlow, hhigh⟩ := hnear newest hmax
    have hfresh : (t ∉ accepted ∧ ∀ newest ∈ ts.max?, newest - len < t) ↔
        Fresh len newest {u | u ∈ accepted} t := by simp [hmax, Fresh]
    rw [hfresh]
    by_cases hlt : newest < t
    · obtain ⟨haccepts, hfollows⟩ := h.ahead hany hmax hlt hhigh hseq hrec
      rw [Frer.deliver, haccepts]
      exact ⟨⟨fun _ => hrec.fresh_of_lt hlt, fun _ => rfl⟩, hfollows⟩
    · exact h.behind hany hmax (by omega) hlow hseq hrec

theorem follows_run (len : ℕ) (ts : List ℤ) (hnear : NearNewest ts) :
    Follows len (Machine.run Frer.deliver (new len, []) ts).1 ts
      (Machine.run Frer.deliver (new len, []) ts).2 := by
  induction ts using List.reverseRecOn with
  | nil => exact follows_new len
  | append_singleton ts t ih =>
    have hbefore : NearNewest ts := by
      rintro before u after rfl
      exact hnear before u (after ++ [t]) (by simp)
    rw [Machine.run_append]
    exact ((ih hbefore).deliver (hnear ts t [] rfl)).2

/-- A frame is accepted exactly when its true number is new and inside the window. -/
theorem srf_exact (len : ℕ) (ts : List ℤ) (hnear : NearNewest ts) :
    (Machine.run Frer.deliver (new len, []) ts).1.stats.total = ts.length ∧
    ∀ before t after, ts = before ++ t :: after →
      let s := Machine.run Frer.deliver (new len, []) before
      ((s.1.process (wire t)).2.accepts = true ↔
        t ∉ s.2 ∧ ∀ newest ∈ before.max?, newest - len < t) := by
  refine ⟨(follows_run len ts hnear).total, ?_⟩
  rintro before t after rfl
  have hbefore : NearNewest before := by
    rintro first u rest rfl
    exact hnear first u (rest ++ t :: after) (by simp)
  exact ((follows_run len before hbefore).deliver (hnear before t after rfl)).1

/-- A stream that wraps, with a late frame and a copy of it. -/
theorem srf_exact_wrapping :
    (Machine.run Frer.deliver (new 2, []) [65535, 65537, 65536, 65536]).1.stats.total = 4 := by
  refine (srf_exact 2 [65535, 65537, 65536, 65536] ?_).1
  intro before t after heq newest hmax
  match before, heq, hmax with
  | [], _, hmax => simp at hmax
  | [a], heq, hmax =>
    obtain ⟨rfl, rfl, -⟩ := by simpa using heq
    obtain rfl : 65535 = newest := by simpa using hmax
    omega
  | [a, b], heq, hmax =>
    obtain ⟨rfl, rfl, rfl, -⟩ := by simpa using heq
    obtain rfl : 65537 = newest := by simpa [List.max?] using hmax
    omega
  | [a, b, c], heq, hmax =>
    obtain ⟨rfl, rfl, rfl, rfl, -⟩ := by simpa using heq
    obtain rfl : 65537 = newest := by simpa [List.max?] using hmax
    omega
  | _ :: _ :: _ :: _ :: _, heq, _ => simp at heq

end SrfInstance

end ToyTcpip.Frer
