import ToyTcpip.Rlc.Pdu
import ToyTcpip.Lib.Coverage
import ToyTcpip.Lib.Hashed
import ToyTcpip.Lib.Machine
import Std.Data.TreeMap

/-! RLC entities in acknowledged mode: segmentation, reassembly and status reports (`rlc_5g.rs`). -/
namespace ToyTcpip.Rlc

open Hashed (HashMap)

inductive RlcUmSnSize where
  | um6Bits
  | um12Bits
  deriving DecidableEq

inductive RlcEntityMode where
  | tm
  | um (snSize : RlcUmSnSize)
  | am (snSize : RlcAmSnSize)
  deriving DecidableEq

structure RlcSegment where
  offset : ℕ
  data : List UInt8
  deriving DecidableEq

def RlcSegment.piece (s : RlcSegment) : ℕ × List UInt8 := (s.offset, s.data)

structure SduReassembly where
  segments : List RlcSegment
  totalLength : Option ℕ
  deriving DecidableEq

namespace SduReassembly

def new : SduReassembly := ⟨[], none⟩

def insertSegment (r : SduReassembly) (offset : ℕ) (data : List UInt8)
    (isLast : Bool) : SduReassembly :=
  { segments := List.insertionSort (fun a b : RlcSegment => a.offset ≤ b.offset)
      (r.segments ++ [⟨offset, data⟩])
    totalLength := if isLast then some (offset + data.length) else r.totalLength }

def isComplete (r : SduReassembly) : Bool :=
  match r.totalLength with
  | none => false
  | some total =>
    match Piece.reach (r.segments.map RlcSegment.piece) 0 with
    | none => false
    | some currentOffset => total ≤ currentOffset

/-- A segment that would not fit is left out. -/
def assemble (r : SduReassembly) : Option (List UInt8) :=
  r.totalLength.map fun total =>
    r.segments.foldl (fun full s => (Piece.put full s.offset s.data).getD full)
      (List.replicate total 0)

end SduReassembly

structure RlcEntity where
  mode : RlcEntityMode
  txNext : ℕ
  txBuffer : HashMap ℕ (List RlcAmDataPdu)
  retransmitQueue : List RlcAmDataPdu
  rxNext : ℕ
  rxReassembly : Std.TreeMap ℕ SduReassembly
  deliveredSdus : List (List UInt8)

/-- The PDU for the part of an SDU that starts at an offset. -/
def segmentPdu (snSize : RlcAmSnSize) (sn : ℕ) (sdu : List UInt8) (grantSize : ℕ) (poll : Bool)
    (offset : ℕ) : RlcAmDataPdu :=
  let chunkSize := min (sdu.length - offset) grantSize
  let isLast : Bool := offset + chunkSize = sdu.length
  { snSize
    poll := isLast && poll
    si := if offset = 0 then .firstSegment else if isLast then .lastSegment else .middleSegment
    sn
    so := if offset = 0 then none else some (offset % 2 ^ 16)
    payload := (sdu.drop offset).take chunkSize }

/-- The loop over the segments, at most `fuel` times round. -/
def segmentsFrom (snSize : RlcAmSnSize) (sn : ℕ) (sdu : List UInt8) (grantSize : ℕ) (poll : Bool) :
    ℕ → ℕ → Option (List RlcAmDataPdu)
  | 0, offset => if offset < sdu.length then none else some []
  | fuel + 1, offset =>
    if offset < sdu.length then
      (segmentsFrom snSize sn sdu grantSize poll fuel
        (offset + min (sdu.length - offset) grantSize)).map
          (segmentPdu snSize sn sdu grantSize poll offset :: ·)
    else some []

namespace RlcEntity

def new (mode : RlcEntityMode) : RlcEntity := ⟨mode, 0, ∅, [], 0, ∅, []⟩

def snSize (e : RlcEntity) : RlcAmSnSize :=
  match e.mode with
  | .am snSize => snSize
  | _ => .am18Bits

/-- Nothing when the loop is still running after `fuel` rounds. -/
def segmentAndSend (fuel : ℕ) (e : RlcEntity) (sdu : List UInt8) (grantSize : ℕ) (poll : Bool) :
    Option (RlcEntity × List RlcAmDataPdu) :=
  let sn := e.txNext
  let pdus :=
    if sdu.length ≤ grantSize then some [⟨e.snSize, poll, .full, sn, none, sdu⟩]
    else segmentsFrom e.snSize sn sdu grantSize poll fuel 0
  pdus.map fun pdus =>
    ({ e with txNext := (sn + 1) &&& e.snSize.maxSn, txBuffer := e.txBuffer.insert sn pdus }, pdus)

def receiveAmPdu (e : RlcEntity) (pdu : RlcAmDataPdu) : RlcEntity × Option (List UInt8) :=
  let rxNext := if e.rxNext ≤ pdu.sn then pdu.sn + 1 else e.rxNext
  if pdu.si = .full then
    ({ e with rxNext, deliveredSdus := e.deliveredSdus ++ [pdu.payload] }, some pdu.payload)
  else
    let reassembly := (e.rxReassembly.getD pdu.sn .new).insertSegment (pdu.so.getD 0) pdu.payload
      (pdu.si = .lastSegment)
    if reassembly.isComplete then
      match reassembly.assemble with
      | some sdu =>
        ({ e with
            rxNext
            rxReassembly := e.rxReassembly.erase pdu.sn
            deliveredSdus := e.deliveredSdus ++ [sdu] }, some sdu)
      | none => ({ e with rxNext, rxReassembly := e.rxReassembly.erase pdu.sn }, none)
    else ({ e with rxNext, rxReassembly := e.rxReassembly.insert pdu.sn reassembly }, none)

def generateStatusPdu (e : RlcEntity) : RlcStatusPdu :=
  { ackSn := e.rxNext
    nacks := (e.rxReassembly.keys.filter (· < e.rxNext)).map fun sn => ⟨sn, none, none⟩ }

def processStatusPdu (e : RlcEntity) (status : RlcStatusPdu) : RlcEntity :=
  let nackSns := status.nacks.map (·.nackSn)
  let txBuffer := Hashed.retain (fun sn _ =>
    !(sn < status.ackSn && !nackSns.contains sn)) e.txBuffer
  { e with
    txBuffer
    retransmitQueue := e.retransmitQueue ++ nackSns.flatMap fun sn => (txBuffer.lookup sn).getD [] }

end RlcEntity

/-! ### Segmentation -/

section segmentation

variable {snSize : RlcAmSnSize} {sn grantSize fuel offset k : ℕ} {sdu : List UInt8} {poll : Bool}
  {p : RlcAmDataPdu} {pdus : List RlcAmDataPdu}

/-- With a grant the loop ends, after at most one round for each byte, with the segments at the
multiples of the grant. -/
theorem segmentsFrom_eq_some (hgrant : 1 ≤ grantSize) (hfuel : sdu.length - k * grantSize ≤ fuel) :
    ∃ pdus, segmentsFrom snSize sn sdu grantSize poll fuel (min
      (k * grantSize) sdu.length) = some pdus ∧
      ∀ p, p ∈ pdus ↔ ∃ j, k ≤ j ∧ j * grantSize < sdu.length ∧
        p = segmentPdu snSize sn sdu grantSize poll (j * grantSize) := by
  induction fuel generalizing k with
  | zero =>
    rw [segmentsFrom, if_neg (by omega)]
    refine ⟨[], rfl, fun p => ?_⟩
    simp only [List.not_mem_nil, false_iff, not_exists, not_and]
    intro j hkj hj
    have := Nat.mul_le_mul_right grantSize hkj
    omega
  | succ fuel ih =>
    rw [segmentsFrom]
    by_cases hlt : k * grantSize < sdu.length
    · have hsucc : (k + 1) * grantSize = k * grantSize + grantSize := Nat.succ_mul k grantSize
      have hnext : min (k * grantSize) sdu.length + min (sdu.length -
          min (k * grantSize) sdu.length) grantSize =
          min ((k + 1) * grantSize) sdu.length := by omega
      obtain ⟨pdus, heq, hmem⟩ := ih (k := k + 1) (by omega)
      rw [if_pos (by omega), hnext, heq, min_eq_left hlt.le]
      refine ⟨_, rfl, fun p => ?_⟩
      rw [List.mem_cons, hmem]
      constructor
      · rintro (rfl | ⟨j, hkj, hj, rfl⟩)
        · exact ⟨k, le_rfl, hlt, rfl⟩
        · exact ⟨j, by omega, hj, rfl⟩
      · rintro ⟨j, hkj, hj, rfl⟩
        rcases Nat.lt_or_eq_of_le hkj with hkj | rfl
        · exact .inr ⟨j, hkj, hj, rfl⟩
        · exact .inl rfl
    · rw [if_neg (by omega)]
      refine ⟨[], rfl, fun p => ?_⟩
      simp only [List.not_mem_nil, false_iff, not_exists, not_and]
      intro j hkj hj
      have := Nat.mul_le_mul_right grantSize hkj
      omega

theorem segmentsFrom_mono (h : segmentsFrom snSize sn sdu grantSize poll fuel offset = some pdus)
    {fuel' : ℕ} (hle : fuel ≤ fuel') :
    segmentsFrom snSize sn sdu grantSize poll fuel' offset = some pdus := by
  induction fuel generalizing fuel' offset pdus with
  | zero =>
    rw [segmentsFrom] at h
    split at h
    · cases h
    · rename_i hend
      cases fuel' <;> simpa [segmentsFrom, hend] using h
  | succ fuel ih =>
    obtain ⟨fuel', rfl⟩ : ∃ n, fuel' = n + 1 := ⟨fuel' - 1, by omega⟩
    rw [segmentsFrom] at h ⊢
    split at h
    · rename_i hlt
      obtain ⟨rest, hrest, rfl⟩ := Option.map_eq_some_iff.mp h
      rw [if_pos hlt, ih hrest (by omega), Option.map_some]
    · rename_i hend
      rwa [if_neg hend]

/-- Every segment starts where sixteen bits can say. -/
def Addressable (sdu : List UInt8) (grantSize : ℕ) : Prop :=
  ∀ k, k * grantSize < sdu.length → k * grantSize < 2 ^ 16

/-- The segments of an SDU longer than the grant. -/
structure Segments (snSize : RlcAmSnSize) (sn : ℕ) (sdu : List UInt8) (grantSize : ℕ) (poll : Bool)
    (pdus : List RlcAmDataPdu) : Prop where
  grant : 1 ≤ grantSize
  long : grantSize < sdu.length
  fit : Addressable sdu grantSize
  mem : ∀ p, p ∈ pdus ↔ ∃ k, k * grantSize < sdu.length ∧
    p = segmentPdu snSize sn sdu grantSize poll (k * grantSize)

/-- The PDUs that carry an SDU: one, or the segments at the multiples of a grant. -/
inductive Carries (snSize : RlcAmSnSize) (sn : ℕ) (sdu : List UInt8) : List RlcAmDataPdu → Prop
  | full (poll : Bool) : Carries snSize sn sdu [⟨snSize, poll, .full, sn, none, sdu⟩]
  | segments {grantSize : ℕ} {poll : Bool} {pdus : List RlcAmDataPdu}
      (h : Segments snSize sn sdu grantSize poll pdus) : Carries snSize sn sdu pdus

variable {e : RlcEntity}

theorem segmentAndSend_eq_some (e : RlcEntity) (poll : Bool)
    (h : sdu.length ≤ grantSize ∨ 1 ≤ grantSize ∧ Addressable sdu grantSize) :
    ∃ pdus, Carries e.snSize e.txNext sdu pdus ∧ (∀ p ∈ pdus, p.payload.length ≤ grantSize) ∧
      ∀ fuel ≥ sdu.length, e.segmentAndSend fuel sdu grantSize poll = some ({ e with
        txNext := (e.txNext + 1) &&& e.snSize.maxSn
        txBuffer := e.txBuffer.insert e.txNext pdus }, pdus) := by
  by_cases hle : sdu.length ≤ grantSize
  · refine ⟨_, .full poll, by simpa using hle, fun fuel _ => ?_⟩
    simp [RlcEntity.segmentAndSend, hle]
  · obtain ⟨hgrant, hfit⟩ := h.resolve_left hle
    obtain ⟨pdus, heq, hmem⟩ :=
      @segmentsFrom_eq_some e.snSize e.txNext grantSize sdu.length 0 sdu poll
      hgrant (by omega)
    rw [Nat.zero_mul, Nat.zero_min] at heq
    refine ⟨pdus, .segments (@Segments.mk _ _ _ grantSize poll _ hgrant (by omega) hfit ?_), ?_,
      fun fuel hfuel => ?_⟩
    · intro p
      simp [hmem]
    · intro p hp
      obtain ⟨j, -, -, rfl⟩ := (hmem p).mp hp
      simp [segmentPdu]
    · simp [RlcEntity.segmentAndSend, hle, segmentsFrom_mono heq hfuel]

/-- Without a grant the loop stays where it is. -/
theorem segmentAndSend_zero (hsdu : 0 < sdu.length) : e.segmentAndSend fuel sdu 0 poll = none := by
  have hloop : ∀ fuel, segmentsFrom e.snSize e.txNext sdu 0 poll fuel 0 = none := by
    intro fuel
    induction fuel with
    | zero => simp [segmentsFrom, hsdu]
    | succ fuel ih => simp [segmentsFrom, hsdu, ih]
  simp [RlcEntity.segmentAndSend, hloop, List.ne_nil_of_length_pos hsdu]

theorem Carries.ne_nil (h : Carries snSize sn sdu pdus) : pdus ≠ [] := by
  cases h with
  | full poll => simp
  | segments hs => exact List.ne_nil_of_mem ((hs.mem _).mpr ⟨0, by have := hs.long; omega, rfl⟩)

theorem Carries.fits (h : Carries snSize sn sdu pdus) (hsn : sn ≤ snSize.maxSn) (hp : p ∈ pdus) :
    p.snSize = snSize ∧ p.sn = sn ∧ p.Fits := by
  cases h with
  | full poll =>
    rw [List.mem_singleton.mp hp]
    exact ⟨rfl, rfl, hsn, by simp, rfl⟩
  | segments hs =>
    obtain ⟨k, hk, rfl⟩ := (hs.mem p).mp hp
    refine ⟨rfl, rfl, hsn, ?_, ?_⟩
    · intro o ho
      simp only [segmentPdu] at ho
      split at ho
      · cases ho
      · obtain rfl := Option.some.inj ho
        exact Nat.mod_lt _ (by decide)
    · simp only [segmentPdu]
      split
      · rfl
      · split <;> rfl

end segmentation

/-! ### Reassembly -/

section reassembly

variable {snSize : RlcAmSnSize} {sn grantSize k : ℕ} {sdu : List UInt8} {poll : Bool}
  {p : RlcAmDataPdu} {pdus seen : List RlcAmDataPdu} {r : SduReassembly}

/-- A segment, by what the receiver makes of it. -/
theorem segmentPdu_spec (snSize : RlcAmSnSize) (sn : ℕ) (poll : Bool)
    (hlong : grantSize < sdu.length) (hfit : Addressable sdu grantSize)
    (hk : k * grantSize < sdu.length) :
    let p := segmentPdu snSize sn sdu grantSize poll (k * grantSize)
    p.so.getD 0 = k * grantSize ∧ p.payload.length = min (sdu.length - k * grantSize) grantSize ∧
      Piece.At sdu (k * grantSize) p.payload ∧ p.si ≠ .full ∧
      (p.si = .lastSegment ↔ sdu.length ≤ (k + 1) * grantSize) := by
  have hsucc : (k + 1) * grantSize = k * grantSize + grantSize := Nat.succ_mul k grantSize
  refine ⟨?_, by simp [segmentPdu], Piece.at_take_drop sdu _ _, ?_, ?_⟩
  · simp only [segmentPdu]
    split
    · rename_i hzero
      exact hzero.symm
    · exact Nat.mod_eq_of_lt (hfit k hk)
  · simp only [segmentPdu]
    split_ifs <;> simp
  · simp only [segmentPdu, decide_eq_true_eq]
    split_ifs <;> simp <;> omega

/-- What a reassembly holds when some of the PDUs of an SDU came in. -/
structure Holds (r : SduReassembly) (sdu : List UInt8) (seen : List RlcAmDataPdu) : Prop where
  sorted : r.segments.Pairwise fun a b => a.offset ≤ b.offset
  mem : ∀ s, s ∈ r.segments ↔ ∃ p ∈ seen, s = ⟨p.so.getD 0, p.payload⟩
  total : r.totalLength = if ∃ p ∈ seen, p.si = .lastSegment then some sdu.length else none

theorem holds_new (sdu : List UInt8) : Holds .new sdu [] :=
  ⟨List.Pairwise.nil, by simp [SduReassembly.new], by simp [SduReassembly.new]⟩

theorem Holds.insert (h : Holds r sdu seen)
    (hlast : p.si = .lastSegment → p.so.getD 0 + p.payload.length = sdu.length) :
    Holds (r.insertSegment (p.so.getD 0) p.payload (p.si = .lastSegment)) sdu (p :: seen) := by
  refine ⟨List.pairwise_insertionSort _ _, fun s => ?_, ?_⟩
  · rw [SduReassembly.insertSegment, (List.perm_insertionSort _ _).mem_iff, List.mem_append, h.mem,
      List.mem_singleton]
    simp only [List.mem_cons, exists_eq_or_imp]
    exact or_comm
  · simp only [SduReassembly.insertSegment, decide_eq_true_eq, h.total, List.mem_cons,
      exists_eq_or_imp]
    by_cases hp : p.si = .lastSegment
    · simp [hp, hlast hp]
    · simp [hp]

theorem Holds.piece_mem (h : Holds r sdu seen) (q : ℕ × List UInt8) :
    q ∈ r.segments.map RlcSegment.piece ↔ ∃ p ∈ seen, q = (p.so.getD 0, p.payload) := by
  simp only [List.mem_map, h.mem, RlcSegment.piece]
  constructor
  · rintro ⟨s, ⟨p, hp, rfl⟩, rfl⟩
    exact ⟨p, hp, rfl⟩
  · rintro ⟨p, hp, rfl⟩
    exact ⟨_, ⟨p, hp, rfl⟩, rfl⟩

variable (hs : Segments snSize sn sdu grantSize poll pdus) (h : Holds r sdu seen)
  (hseen : seen ⊆ pdus)
include hs

theorem Segments.cover {i : ℕ} (hi : i < sdu.length) : ∃ p ∈ pdus,
    Piece.Covers (p.so.getD 0, p.payload) i := by
  have hdiv : i / grantSize * grantSize ≤ i := Nat.div_mul_le_self i grantSize
  have hmod := Nat.lt_div_mul_add hs.grant (a := i)
  have hk : i / grantSize * grantSize < sdu.length := by omega
  obtain ⟨hso, hlen, -⟩ := segmentPdu_spec snSize sn poll hs.long hs.fit hk
  refine ⟨_, (hs.mem _).mpr ⟨_, hk, rfl⟩, ?_, ?_⟩
  · rw [hso]
    exact hdiv
  · dsimp only
    rw [hso, hlen]
    omega

theorem Segments.exists_last : ∃ p ∈ pdus, p.si = .lastSegment := by
  obtain ⟨p, hp, -, hcov⟩ := hs.cover (i := sdu.length - 1) (by have := hs.long; omega)
  refine ⟨p, hp, ?_⟩
  obtain ⟨k, hk, rfl⟩ := (hs.mem p).mp hp
  obtain ⟨hso, hlen, -, -, hlast⟩ := segmentPdu_spec snSize sn poll hs.long hs.fit hk
  dsimp only at hcov
  rw [hso, hlen] at hcov
  rw [hlast, Nat.succ_mul]
  omega

theorem Segments.last_end (hp : p ∈ pdus) (hlast : p.si = .lastSegment) :
    p.so.getD 0 + p.payload.length = sdu.length := by
  obtain ⟨k, hk, rfl⟩ := (hs.mem p).mp hp
  obtain ⟨hso, hlen, -, -, hiff⟩ := segmentPdu_spec snSize sn poll hs.long hs.fit hk
  have hend := hiff.mp hlast
  rw [Nat.succ_mul] at hend
  rw [hso, hlen]
  omega

theorem Segments.at (hp : p ∈ pdus) : Piece.At sdu (p.so.getD 0) p.payload ∧ p.payload ≠ [] ∧
    p.si ≠ .full := by
  obtain ⟨k, hk, rfl⟩ := (hs.mem p).mp hp
  obtain ⟨hso, hlen, hat, hfull, -⟩ := segmentPdu_spec snSize sn poll hs.long hs.fit hk
  refine ⟨by rwa [hso], ?_, hfull⟩
  have := hs.grant
  exact List.ne_nil_of_length_pos (by omega)

include h hseen

/-- A reassembly is complete when every segment was seen. -/
theorem Segments.isComplete_iff : r.isComplete = true ↔ pdus ⊆ seen := by
  constructor
  · intro hcomplete p hp
    unfold SduReassembly.isComplete at hcomplete
    split at hcomplete
    · cases hcomplete
    · rename_i total htotal
      split at hcomplete
      · cases hcomplete
      · rename_i reached hreach
        have hlen : total = sdu.length := by
          rw [h.total] at htotal
          split at htotal
          · exact (Option.some.inj htotal).symm
          · cases htotal
        obtain ⟨k, hk, rfl⟩ := (hs.mem p).mp hp
        have hle : total ≤ reached := by simpa using hcomplete
        obtain ⟨q, hq, hqk⟩ := Piece.covered_of_reach hreach (k * grantSize)
          (Nat.zero_le _) (by omega)
        obtain ⟨p, hp, rfl⟩ := (h.piece_mem q).mp hq
        obtain ⟨j, hj, rfl⟩ := (hs.mem p).mp (hseen hp)
        obtain ⟨hso, hlen', -⟩ := segmentPdu_spec snSize sn poll hs.long hs.fit hj
        obtain ⟨hlow, hhigh⟩ := hqk
        dsimp only at hlow hhigh
        rw [hso] at hlow hhigh
        rw [hlen'] at hhigh
        -- two multiples of the grant less than a grant apart
        have hjk : j = k := by
          have hle' : j ≤ k := Nat.le_of_mul_le_mul_right hlow hs.grant
          have hlt : k < j + 1 := by
            refine Nat.lt_of_mul_lt_mul_right (a := grantSize) ?_
            rw [Nat.succ_mul]
            omega
          omega
        rwa [← hjk]
  · intro hall
    obtain ⟨last, hlast, hsi⟩ := hs.exists_last
    have htotal : r.totalLength = some sdu.length := by
      rw [h.total, if_pos ⟨last, hall hlast, hsi⟩]
    obtain ⟨reached, hreach, hle⟩ := @Piece.reach_of_covered _
      (r.segments.map RlcSegment.piece) 0 sdu.length
      (List.pairwise_map.mpr h.sorted) (by
        intro q hq
        obtain ⟨p, hp, rfl⟩ := (h.piece_mem q).mp hq
        obtain ⟨hat, hne, -⟩ := hs.at (hseen hp)
        have := hat.length_le hne
        have := List.length_pos_of_ne_nil hne
        dsimp only
        omega) (by
        intro i _ hi
        obtain ⟨p, hp, hcov⟩ := hs.cover hi
        exact ⟨_, (h.piece_mem _).mpr ⟨p, hall hp, rfl⟩, hcov⟩)
    simp [SduReassembly.isComplete, htotal, hreach, hle]

theorem Segments.assemble_eq (hall : pdus ⊆ seen) : r.assemble = some sdu := by
  obtain ⟨last, hlast, hsi⟩ := hs.exists_last
  rw [SduReassembly.assemble, h.total, if_pos ⟨last, hall hlast, hsi⟩, Option.map_some]
  have hat : ∀ q ∈ r.segments.map RlcSegment.piece, Piece.At sdu q.1 q.2 ∧ q.2 ≠ [] := by
    intro q hq
    obtain ⟨p, hp, rfl⟩ := (h.piece_mem q).mp hq
    exact ⟨(hs.at (hseen hp)).1, (hs.at (hseen hp)).2.1⟩
  obtain ⟨full, hfull, hlen, hfullAt⟩ := @Piece.overlay_at _ (List.replicate sdu.length 0)
    (r.segments.map RlcSegment.piece)
    (fun q hq => by simpa using (hat q hq).1.length_le (hat q hq).2)
    (fun q hq q' hq' => (hat q hq).1.agree (hat q' hq').1)
  have hfold := Piece.foldl_put_of_overlay hfull
  rw [List.foldl_map] at hfold
  refine congrArg some (hfold.trans ?_)
  refine Piece.eq_of_covered hfullAt (fun q hq => (hat q hq).1) (by simpa using hlen) fun i hi => ?_
  obtain ⟨p, hp, hcov⟩ := hs.cover (show i < sdu.length by simpa [hlen] using hi)
  exact ⟨_, (h.piece_mem _).mpr ⟨p, hall hp, rfl⟩, hcov⟩

end reassembly

/-! ### Receiving -/

section receiving

variable {snSize : RlcAmSnSize} {sn grantSize : ℕ} {sdu : List UInt8} {poll : Bool}
  {p : RlcAmDataPdu} {pdus seen : List RlcAmDataPdu} {e : RlcEntity}

theorem receiveAmPdu_full (hp : p.si = .full) : (e.receiveAmPdu p).2 = some p.payload ∧
    (e.receiveAmPdu p).1.deliveredSdus = e.deliveredSdus ++ [p.payload] ∧
    (e.receiveAmPdu p).1.rxReassembly = e.rxReassembly := by
  simp [RlcEntity.receiveAmPdu, hp]

theorem receiveAmPdu_other (e : RlcEntity) (p : RlcAmDataPdu) {k : ℕ} (hk : k ≠ p.sn) :
    (e.receiveAmPdu p).1.rxReassembly[k]? = e.rxReassembly[k]? := by
  have hcompare : compare p.sn k ≠ .eq := fun h => hk (Nat.compare_eq_eq.mp h).symm
  by_cases hfull : p.si = .full
  · rw [(receiveAmPdu_full hfull).2.2]
  · unfold RlcEntity.receiveAmPdu
    rw [if_neg hfull]
    dsimp only
    generalize (e.rxReassembly.getD p.sn .new).insertSegment (p.so.getD 0) p.payload
      (p.si = .lastSegment) = r
    by_cases hcomplete : r.isComplete = true
    · rw [if_pos hcomplete]
      cases r.assemble <;> simp [Std.TreeMap.getElem?_erase, hcompare]
    · rw [if_neg hcomplete]
      simp [Std.TreeMap.getElem?_insert, hcompare]

theorem receiveAmPdu_rxNext (e : RlcEntity) (p : RlcAmDataPdu) :
    (e.receiveAmPdu p).1.rxNext = if e.rxNext ≤ p.sn then p.sn + 1 else e.rxNext := by
  unfold RlcEntity.receiveAmPdu
  dsimp only
  generalize (e.rxReassembly.getD p.sn .new).insertSegment (p.so.getD 0) p.payload
    (p.si = .lastSegment) = r
  by_cases hfull : p.si = .full
  · rw [if_pos hfull]
  · rw [if_neg hfull]
    by_cases hcomplete : r.isComplete = true
    · rw [if_pos hcomplete]
      cases r.assemble <;> rfl
    · rw [if_neg hcomplete]

/-- A segment that completes its SDU delivers it, and the next one starts anew; any other is
kept. -/
theorem receiveAmPdu_segment (hs : Segments snSize sn sdu grantSize poll pdus) (hp : p ∈ pdus)
    (h : Holds (e.rxReassembly.getD sn .new) sdu seen) (hseen : seen ⊆ pdus) :
    (pdus ⊆ p :: seen → (e.receiveAmPdu p).2 = some sdu ∧
      (e.receiveAmPdu p).1.deliveredSdus = e.deliveredSdus ++ [sdu] ∧
      (e.receiveAmPdu p).1.rxReassembly[sn]? = none) ∧
    (¬ pdus ⊆ p :: seen → (e.receiveAmPdu p).2 = none ∧
      (e.receiveAmPdu p).1.deliveredSdus = e.deliveredSdus ∧
      ∃ r, (e.receiveAmPdu p).1.rxReassembly[sn]? = some r ∧ Holds r sdu (p :: seen)) := by
  obtain ⟨-, -, hfull⟩ := hs.at hp
  have hsn : p.sn = sn := by
    obtain ⟨k, -, rfl⟩ := (hs.mem p).mp hp
    rfl
  have hsub : p :: seen ⊆ pdus := List.cons_subset.mpr ⟨hp, hseen⟩
  have hnext := h.insert fun hlast => hs.last_end hp hlast
  have hcomplete := hs.isComplete_iff hnext hsub
  unfold RlcEntity.receiveAmPdu
  rw [if_neg hfull, hsn]
  dsimp only
  generalize (e.rxReassembly.getD sn .new).insertSegment (p.so.getD 0) p.payload
    (p.si = .lastSegment) = r at hnext hcomplete
  constructor
  · intro hall
    rw [if_pos (hcomplete.mpr hall), hs.assemble_eq hnext hsub hall]
    simp
  · intro hall
    rw [if_neg (fun h => hall (hcomplete.mp h))]
    exact ⟨rfl, rfl, r, by simp, hnext⟩

/-- A PDU that completes its SDU delivers it. -/
theorem receiveAmPdu_carries (hc : Carries snSize sn sdu pdus) (hp : p ∈ pdus)
    (h : Holds (e.rxReassembly.getD sn .new) sdu seen) (hseen : seen ⊆ pdus)
    (hnot : ¬ pdus ⊆ seen) :
    (pdus ⊆ p :: seen → (e.receiveAmPdu p).1.deliveredSdus = e.deliveredSdus ++ [sdu] ∧
      Holds ((e.receiveAmPdu p).1.rxReassembly.getD sn .new) sdu []) ∧
    (¬ pdus ⊆ p :: seen → (e.receiveAmPdu p).1.deliveredSdus = e.deliveredSdus ∧
      Holds ((e.receiveAmPdu p).1.rxReassembly.getD sn .new) sdu (p :: seen)) := by
  cases hc with
  | full poll =>
    obtain rfl := List.mem_singleton.mp hp
    obtain ⟨-, hdelivered, hreassembly⟩ :=
      @receiveAmPdu_full ⟨snSize, poll, .full, sn, none, sdu⟩ e rfl
    have hnone : seen = [] := by
      cases seen with
      | nil => rfl
      | cons q seen =>
        obtain rfl := List.mem_singleton.mp (hseen List.mem_cons_self)
        exact absurd (by simp) hnot
    subst hnone
    rw [hdelivered, hreassembly]
    exact ⟨fun _ => ⟨rfl, h⟩, fun hall => absurd (by simp) hall⟩
  | segments hs =>
    obtain ⟨hall, hpart⟩ := receiveAmPdu_segment hs hp h hseen
    constructor
    · intro hcomplete
      obtain ⟨-, hdelivered, hnone⟩ := hall hcomplete
      refine ⟨hdelivered, ?_⟩
      rw [Std.TreeMap.getD_eq_getD_getElem?, hnone]
      exact holds_new sdu
    · intro hincomplete
      obtain ⟨-, hdelivered, r, hr, hholds⟩ := hpart hincomplete
      refine ⟨hdelivered, ?_⟩
      rw [Std.TreeMap.getD_eq_getD_getElem?, hr]
      exact hholds

end receiving

/-! ### One SDU, its PDUs in any order -/

inductive Call where
  | segmentAndSend (sdu : List UInt8) (grantSize : ℕ) (poll : Bool)
  | receiveAmPdu (pdu : RlcAmDataPdu)
  | processStatusPdu (status : RlcStatusPdu)

namespace RlcEntity

/-- A call that does not return leaves the entity as it is. -/
def step (e : RlcEntity) : Call → RlcEntity
  | .segmentAndSend sdu grantSize poll =>
    ((e.segmentAndSend sdu.length sdu grantSize poll).map (·.1)).getD e
  | .receiveAmPdu pdu => (e.receiveAmPdu pdu).1
  | .processStatusPdu status => e.processStatusPdu status

def run : RlcEntity → List Call → RlcEntity := Machine.run step

/-- The bytes of a PDU come in. -/
def receiveWire (e : RlcEntity) (data : List UInt8) : RlcEntity :=
  match RlcAmDataPdu.parse e.snSize data with
  | .ok pdu => (e.receiveAmPdu pdu).1
  | .error _ => e

variable {e : RlcEntity} {pdu : RlcAmDataPdu} {status : RlcStatusPdu} {fuel grantSize : ℕ}
  {sdu : List UInt8} {poll : Bool}

theorem receiveAmPdu_same (e : RlcEntity) (pdu : RlcAmDataPdu) :
    (e.receiveAmPdu pdu).1.mode = e.mode ∧ (e.receiveAmPdu pdu).1.txNext = e.txNext ∧
      (e.receiveAmPdu pdu).1.txBuffer = e.txBuffer := by
  unfold receiveAmPdu
  dsimp only
  generalize (e.rxReassembly.getD pdu.sn .new).insertSegment (pdu.so.getD 0) pdu.payload
    (pdu.si = .lastSegment) = r
  by_cases hfull : pdu.si = .full
  · simp [hfull]
  · by_cases hcomplete : r.isComplete = true
    · simp only [if_neg hfull, if_pos hcomplete]
      cases r.assemble <;> simp
    · simp [hfull, hcomplete]

theorem and_maxSn_le (n : ℕ) (snSize : RlcAmSnSize) : n &&& snSize.maxSn ≤ snSize.maxSn :=
  Nat.and_le_right

/-- The next sequence number always fits its field. -/
theorem txNext_run (mode : RlcEntityMode) (calls : List Call) :
    ((new mode).run calls).txNext ≤ ((new mode).run calls).snSize.maxSn := by
  refine Machine.run_keeps (I := fun e : RlcEntity => e.txNext ≤ e.snSize.maxSn) ?_ calls
    (Nat.zero_le _)
  intro e call h
  cases call with
  | segmentAndSend sdu grantSize poll =>
    rw [step]
    cases hsend : e.segmentAndSend sdu.length sdu grantSize poll with
    | none => exact h
    | some x =>
      obtain ⟨pdus, -, rfl⟩ := Option.map_eq_some_iff.mp hsend
      exact and_maxSn_le _ e.snSize
  | receiveAmPdu pdu =>
    obtain ⟨hmode, hnext, -⟩ := receiveAmPdu_same e pdu
    rw [step, snSize, hmode, hnext]
    exact h
  | processStatusPdu status => exact h

/-- After any arrivals of its PDUs an SDU was delivered once for each round of them. -/
theorem delivered_rounds {sn : ℕ} {pdus seen arrivals : List RlcAmDataPdu}
    (hc : Carries e.snSize sn sdu pdus) (hsn : sn ≤ e.snSize.maxSn) (harrivals : arrivals ⊆ pdus)
    (h : Holds (e.rxReassembly.getD sn .new) sdu seen) (hseen : seen ⊆ pdus)
    (hnot : ¬ pdus ⊆ seen) :
    ((arrivals.map RlcAmDataPdu.serialize).foldl receiveWire e).deliveredSdus =
      e.deliveredSdus ++ List.replicate (Rounds.rounds pdus seen arrivals) sdu := by
  induction arrivals generalizing e seen with
  | nil => simp [Rounds.rounds]
  | cons p rest ih =>
    obtain ⟨hp, hrest⟩ := List.cons_subset.mp harrivals
    obtain ⟨hsize, -, hfits⟩ := hc.fits hsn hp
    have hwire : e.receiveWire p.serialize = (e.receiveAmPdu p).1 := by
      rw [receiveWire, ← hsize, RlcAmDataPdu.parse_serialize hfits]
    have hmode : (e.receiveAmPdu p).1.snSize = e.snSize := by
      rw [snSize, snSize, (receiveAmPdu_same e p).1]
    obtain ⟨hall, hpart⟩ := receiveAmPdu_carries hc hp h hseen hnot
    rw [List.map_cons, List.foldl_cons, hwire, Rounds.rounds]
    rw [← hmode] at hc hsn
    by_cases hround : pdus ⊆ p :: seen
    · obtain ⟨hdelivered, hholds⟩ := hall hround
      rw [if_pos hround, ih hc hsn hrest hholds (List.nil_subset _)
        (fun hnil => hc.ne_nil (List.subset_nil.mp hnil)), hdelivered, List.replicate_succ,
        List.append_assoc]
      rfl
    · obtain ⟨hdelivered, hholds⟩ := hpart hround
      rw [if_neg hround, ih hc hsn hrest hholds (List.cons_subset.mpr ⟨hp, hseen⟩) hround,
        hdelivered]

theorem addressable_of_length_le (hlen : sdu.length ≤ 65535) (grantSize : ℕ) :
    Addressable sdu grantSize := by
  intro k hk
  omega

/-- The segments of an SDU are within the grant and read back; given to a receiver in any order and
any number of times, they deliver the SDU once exactly when no two parts of what came in both hold
all of them. -/
theorem segments_delivered_once (mode : RlcEntityMode) (calls : List Call)
    (hlen : sdu.length ≤ 65535) (hgrant : 1 ≤ grantSize) (poll : Bool) :
    let e := (new mode).run calls
    ∃ e' pdus, (∀ fuel ≥ sdu.length, e.segmentAndSend fuel sdu grantSize poll = some (e', pdus)) ∧
      (∀ p ∈ pdus, p.payload.length ≤ grantSize ∧ RlcAmDataPdu.parse e.snSize p.serialize = .ok p) ∧
      ∀ r : RlcEntity, r.snSize = e.snSize → r.rxReassembly[e.txNext]? = none → ∀ arrivals,
        arrivals ⊆ pdus → pdus ⊆ arrivals →
        (((arrivals.map RlcAmDataPdu.serialize).foldl receiveWire r).deliveredSdus =
          r.deliveredSdus ++ [sdu] ↔
          ¬ ∃ first rest, arrivals = first ++ rest ∧ pdus ⊆ first ∧ pdus ⊆ rest) := by
  intro e
  have hsn : e.txNext ≤ e.snSize.maxSn := txNext_run mode calls
  obtain ⟨pdus, hc, hgrants, heq⟩ := segmentAndSend_eq_some e poll
    (.inr ⟨hgrant, addressable_of_length_le hlen grantSize⟩)
  refine ⟨_, pdus, heq, fun p hp => ⟨hgrants p hp, ?_⟩, ?_⟩
  · obtain ⟨hsize, -, hfits⟩ := hc.fits hsn hp
    rw [← hsize, RlcAmDataPdu.parse_serialize hfits]
  · intro r hmode hnone arrivals harrivals hall
    rw [← hmode] at hc hsn
    have hholds : Holds (r.rxReassembly.getD e.txNext .new) sdu [] := by
      rw [Std.TreeMap.getD_eq_getD_getElem?, hnone]
      exact holds_new sdu
    rw [delivered_rounds hc hsn harrivals hholds (List.nil_subset _)
      (fun hnil => hc.ne_nil (List.subset_nil.mp hnil)), ← Rounds.rounds_eq_one_iff hc.ne_nil hall]
    constructor
    · intro hdelivered
      simpa using congrArg List.length (List.append_cancel_left hdelivered)
    · intro hone
      rw [hone]
      rfl

/-- Three segments, the last one first and the middle one twice. -/
theorem segments_delivered_once_run : ∃ e' p q r,
    (new (.am .am12Bits)).segmentAndSend 3 [1, 2, 3] 1 true = some (e', [p, q, r]) ∧
    (([r, q, q, p].map RlcAmDataPdu.serialize).foldl receiveWire
      (new (.am .am12Bits))).deliveredSdus =
      [[1, 2, 3]] := by
  obtain ⟨e', pdus, heq, -, h⟩ := segments_delivered_once (.am .am12Bits) []
    (show ([1, 2, 3] : List UInt8).length ≤ 65535 by decide) (le_refl 1) true
  have hsend := heq 3 le_rfl
  obtain rfl : [0, 1, 2].map (segmentPdu .am12Bits 0 [1, 2, 3] 1 true) = pdus :=
    (Prod.mk.inj (Option.some.inj hsend)).2
  refine ⟨e', _, _, _, hsend, (h (new _) rfl (by simp [new]) _ (by simp) (by simp)).mpr ?_⟩
  rw [← Rounds.rounds_eq_one_iff (by simp) (by simp)]
  decide

/-- A copy of a PDU that carries a whole SDU delivers it again. -/
theorem copy_delivered_again : ∃ e' p,
    (new (.am .am12Bits)).segmentAndSend 1 [1] 1 true = some (e', [p]) ∧
    (([p, p].map RlcAmDataPdu.serialize).foldl receiveWire (new (.am .am12Bits))).deliveredSdus ≠
      [[1]] :=
  ⟨_, _, rfl, by decide⟩

end RlcEntity

end ToyTcpip.Rlc
