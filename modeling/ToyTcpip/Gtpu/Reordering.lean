import Mathlib.Data.UInt
import ToyTcpip.Lib.Btree
import ToyTcpip.Lib.Machine

/-! Reordering of GTP-U packets by sequence number (`gtpu_reordering.rs`). -/
namespace ToyTcpip.Gtpu

def seqLt (a b : UInt16) : Bool := 0 < (b - a).toNat ∧ (b - a).toNat < 32768

def seqGt (a b : UInt16) : Bool := 0 < (a - b).toNat ∧ (a - b).toNat < 32768

structure GtpuBufferedPacket where
  sequenceNumber : UInt16
  payload : List UInt8
  deriving DecidableEq

structure GtpuReorderingEngine where
  teid : UInt32
  nextExpectedSeq : UInt16
  windowSize : UInt16
  buffer : List (UInt16 × List UInt8)
  deriving DecidableEq

namespace GtpuReorderingEngine

def new (teid : UInt32) (initialSeq windowSize : UInt16) : GtpuReorderingEngine :=
  ⟨teid, initialSeq, windowSize, []⟩

def packet (x : UInt16 × List UInt8) : GtpuBufferedPacket := ⟨x.1, x.2⟩

/-- Takes packets out while the next one expected is in the buffer, at most `fuel` of them. -/
def drain : ℕ → GtpuReorderingEngine → GtpuReorderingEngine × List GtpuBufferedPacket
  | 0, e => (e, [])
  | fuel + 1, e =>
    match Btree.get UInt16.toNat e.buffer e.nextExpectedSeq with
    | none => (e, [])
    | some payload =>
      let (e', delivered) := drain fuel
        { e with
          buffer := Btree.remove UInt16.toNat e.buffer e.nextExpectedSeq
          nextExpectedSeq := e.nextExpectedSeq + 1 }
      (e', ⟨e.nextExpectedSeq, payload⟩ :: delivered)

def ingestPacket (e : GtpuReorderingEngine) (seq : UInt16) (payload : List UInt8) :
    GtpuReorderingEngine × List GtpuBufferedPacket :=
  if seqLt seq e.nextExpectedSeq then (e, [])
  else if seq = e.nextExpectedSeq then
    let (e', delivered) := drain e.buffer.length { e with nextExpectedSeq := e.nextExpectedSeq + 1 }
    (e', ⟨seq, payload⟩ :: delivered)
  else if seq - e.nextExpectedSeq ≤ e.windowSize then
    ({ e with buffer := Btree.insert UInt16.toNat seq payload e.buffer }, [])
  else
    let next := seq - e.windowSize
    ({ e with
        nextExpectedSeq := next
        buffer := Btree.insert UInt16.toNat seq payload (e.buffer.dropWhile fun x =>
          !seqGt x.1 next) },
      (e.buffer.takeWhile fun x => !seqGt x.1 next).map packet)

def forceFlush (e : GtpuReorderingEngine) : GtpuReorderingEngine × List GtpuBufferedPacket :=
  ({ e with
      nextExpectedSeq :=
        match e.buffer.getLast? with
        | none => e.nextExpectedSeq
        | some x => x.1 + 1
      buffer := [] }, e.buffer.map packet)

end GtpuReorderingEngine

/-! ### An engine and what it released -/

open GtpuReorderingEngine

inductive Call where
  | ingestPacket (seq : UInt16) (payload : List UInt8)
  | forceFlush

/-- An engine, the sequence numbers it released, in order, and, once there are any, how far the
number expected is ahead of the last of them, by the calls. -/
structure Flow where
  engine : GtpuReorderingEngine
  released : List UInt16
  lead : Option UInt16

namespace Flow

def start (teid : UInt32) (initialSeq windowSize : UInt16) : Flow :=
  ⟨.new teid initialSeq windowSize, [], none⟩

def apply (s : Flow) : Call → GtpuReorderingEngine × List GtpuBufferedPacket
  | .ingestPacket seq payload => s.engine.ingestPacket seq payload
  | .forceFlush => s.engine.forceFlush

/-- Where a packet beyond the window moves the number expected, the buffered packets that are
due. -/
def due (s : Flow) (seq : UInt16) (x : UInt16 × List UInt8) : Bool :=
  !seqGt x.1 (seq - s.engine.windowSize)

/-- The packet expected and a flush put the lead at one. A gap skip adds the gap to it, unless
packets are due: it then counts from the last of those, and is 0 when that one has the new number
expected. -/
def leadAfter (s : Flow) : Call → Option UInt16
  | .ingestPacket seq _ =>
    if seqLt seq s.engine.nextExpectedSeq then s.lead
    else if seq = s.engine.nextExpectedSeq then some 1
    else if seq - s.engine.nextExpectedSeq ≤ s.engine.windowSize then s.lead
    else
      let next := seq - s.engine.windowSize
      match (s.engine.buffer.filter (s.due seq)).getLast? with
      | some x => some (next - x.1)
      | none => s.lead.map fun lead => next - s.engine.nextExpectedSeq + lead
  | .forceFlush => if s.engine.buffer = [] then s.lead else some 1

def step (s : Flow) (c : Call) : Flow :=
  ⟨(s.apply c).1, s.released ++ (s.apply c).2.map (·.sequenceNumber), s.leadAfter c⟩

def run : Flow → List Call → Flow := Machine.run step

/-- The numbers released increase, and every buffered packet is ahead, within the window. -/
structure Ordered (s : Flow) : Prop where
  released : s.released.IsChain fun a b => seqLt a b
  window : ∀ x ∈ s.engine.buffer, 0 < (x.1 - s.engine.nextExpectedSeq).toNat ∧
    (x.1 - s.engine.nextExpectedSeq).toNat ≤ s.engine.windowSize.toNat

/-- Everything the engine holds or is handed is released or buffered, unless it is older than the
number expected or another packet with its number comes in. -/
def Conserves (s : Flow) (c : Call) : Prop :=
  (∀ x ∈ s.engine.buffer, packet x ∈ (s.apply c).2 ∨ x ∈ (s.step c).engine.buffer ∨
    ∃ payload, c = .ingestPacket x.1 payload) ∧
  ∀ seq payload, c = .ingestPacket seq payload → ⟨seq, payload⟩ ∈ (s.apply c).2 ∨
    (seq, payload) ∈ (s.step c).engine.buffer ∨ seqLt seq s.engine.nextExpectedSeq

/-- By the lead, the number is less than half the space ahead of what was released last. -/
def Ahead (s : Flow) (seq : UInt16) : Prop :=
  ∀ lead ∈ s.lead, 0 < (seq - s.engine.nextExpectedSeq + lead).toNat ∧
    (seq - s.engine.nextExpectedSeq + lead).toNat < 32768

/-- The buffered numbers do not lie on both sides of the wrap, and the first of them is ahead. -/
def Ready (s : Flow) : Prop :=
  (∀ a ∈ s.engine.buffer, ∀ b ∈ s.engine.buffer,
    ¬ (a.1 < s.engine.nextExpectedSeq ∧ s.engine.nextExpectedSeq < b.1)) ∧
  ∀ first ∈ s.engine.buffer.head?, s.Ahead first.1

/-- What keeps the order: the number expected, when it comes, has a lead below half the space that
is not 0; a gap is skipped only with a window, and over packets that are due only when the buffer is
ready; so is a flush. -/
def InOrder (s : Flow) : Call → Prop
  | .ingestPacket seq _ =>
    if seqLt seq s.engine.nextExpectedSeq then True
    else if seq = s.engine.nextExpectedSeq then s.Ahead seq
    else if seq - s.engine.nextExpectedSeq ≤ s.engine.windowSize then True
    else 0 < s.engine.windowSize ∧ ((∃ x ∈ s.engine.buffer, s.due seq x = true) → s.Ready)
  | .forceFlush => s.Ready

instance (s : Flow) (seq : UInt16) : Decidable (s.Ahead seq) :=
  Option.decidableForallMem s.lead

instance (s : Flow) : Decidable s.Ready :=
  inferInstanceAs (Decidable (_ ∧ ∀ first ∈ s.engine.buffer.head?, s.Ahead first.1))

instance (s : Flow) (c : Call) : Decidable (s.InOrder c) :=
  match c with
  | .ingestPacket _ _ => by
    dsimp only [InOrder]
    infer_instance
  | .forceFlush => inferInstanceAs (Decidable s.Ready)

/-- The lead is that of the number expected over the number released last. -/
def Tracks (s : Flow) : Prop :=
  s.lead = s.released.getLast?.map fun last => s.engine.nextExpectedSeq - last

/-! ### Numbers ahead of the one expected -/

section numbers

variable {a b next : UInt16} {w : ℕ}

theorem toNat_ahead (a b : UInt16) : (b - a).toNat = (65536 - a.toNat + b.toNat) % 65536 := by
  rw [UInt16.toNat_sub]

theorem seqLt_iff : seqLt a b = true ↔ 0 < (b - a).toNat ∧ (b - a).toNat < 32768 := by simp [seqLt]

theorem seqGt_iff : seqGt a b = true ↔ 0 < (a - b).toNat ∧ (a - b).toNat < 32768 := by simp [seqGt]

/-- Within half the space, serial order is the order of the distances ahead. -/
theorem seqLt_iff_ahead (ha : (a - next).toNat < 32768) (hb : (b - next).toNat < 32768) :
    seqLt a b = true ↔ (a - next).toNat < (b - next).toNat := by
  rw [seqLt_iff]
  simp only [toNat_ahead] at *
  have := a.toNat_lt
  have := b.toNat_lt
  have := next.toNat_lt
  omega

/-- Serial order and numeric order differ exactly for numbers on both sides of the wrap. -/
theorem ahead_lt_iff (hb : b ≠ next) (hab : a.toNat < b.toNat) :
    (a - next).toNat < (b - next).toNat ↔ ¬ (a < next ∧ next < b) := by
  rw [UInt16.lt_iff_toNat_lt, UInt16.lt_iff_toNat_lt]
  rw [ne_eq, ← UInt16.toNat_inj] at hb
  simp only [toNat_ahead]
  have := a.toNat_lt
  have := b.toNat_lt
  have := next.toNat_lt
  omega

theorem ne_of_ahead (h : 0 < (a - next).toNat) : a ≠ next := by
  rintro rfl
  simp at h

theorem ahead_succ (ha : a ≠ next) (h : (a - next).toNat ≤ w) : (a - (next + 1)).toNat ≤ w := by
  rw [ne_eq, ← UInt16.toNat_inj] at ha
  simp only [toNat_ahead, UInt16.toNat_add] at *
  have := a.toNat_lt
  have := next.toNat_lt
  have : (1 : UInt16).toNat = 1 := rfl
  omega

theorem seqLt_succ (a : UInt16) : seqLt a (a + 1) = true := by
  rw [seqLt_iff]
  simp only [toNat_ahead, UInt16.toNat_add]
  have := a.toNat_lt
  have : (1 : UInt16).toNat = 1 := rfl
  omega

/-! A packet beyond the window moves the number expected to `size` before its own. -/

variable {seq size : UInt16}

theorem le_of_not_seqLt (h : ¬ seqLt seq next) : (seq - next).toNat ≤ 32768 := by
  rw [seqLt_iff] at h
  simp only [toNat_ahead] at *
  have := seq.toNat_lt
  have := next.toNat_lt
  omega

theorem seqGt_skip_iff (ha : (a - next).toNat ≤ size.toNat) (hw : size.toNat < 32768)
    (hbeyond : size.toNat < (seq - next).toNat) (hseq : (seq - next).toNat ≤ 32768) :
    seqGt a (seq - size) = true ↔ (seq - next).toNat < (a - next).toNat + size.toNat := by
  rw [seqGt_iff]
  simp only [toNat_ahead] at *
  have := a.toNat_lt
  have := next.toNat_lt
  have := seq.toNat_lt
  omega

theorem ahead_skip (ha : (a - next).toNat ≤ size.toNat) (hw : size.toNat < 32768)
    (hbeyond : size.toNat < (seq - next).toNat) (hseq : (seq - next).toNat ≤ 32768)
    (h : seqGt a (seq - size) = true) :
    0 < (a - (seq - size)).toNat ∧ (a - (seq - size)).toNat ≤ size.toNat := by
  rw [seqGt_skip_iff ha hw hbeyond hseq] at h
  simp only [toNat_ahead] at *
  have := a.toNat_lt
  have := next.toNat_lt
  have := seq.toNat_lt
  omega

theorem sub_sub_toNat : (seq - (seq - size)).toNat = size.toNat := by
  simp only [toNat_ahead]
  have := seq.toNat_lt
  have := size.toNat_lt
  omega

end numbers

variable {s : Flow} {e : GtpuReorderingEngine} {seq : UInt16} {payload : List UInt8} {c : Call}
  {x : UInt16 × List UInt8}

/-- The buffer lists the packets in the order of their numbers. -/
def Sorted (e : GtpuReorderingEngine) : Prop := Btree.Sorted UInt16.toNat e.buffer

theorem toNat_injective : Function.Injective UInt16.toNat := fun _ _ => UInt16.toNat_inj.mp

/-! ### Draining -/

/-- What draining does to an engine that holds at most `fuel` packets, none beyond `w` ahead. -/
structure Drained (w : ℕ) (e e' : GtpuReorderingEngine)
    (delivered : List GtpuBufferedPacket) : Prop where
  sorted : Sorted e'
  windowSize : e'.windowSize = e.windowSize
  window : ∀ x ∈ e'.buffer, 0 < (x.1 - e'.nextExpectedSeq).toNat ∧
    (x.1 - e'.nextExpectedSeq).toNat ≤ w
  kept : ∀ x ∈ e.buffer, packet x ∈ delivered ∨ x ∈ e'.buffer
  chain : ∀ last, last + 1 = e.nextExpectedSeq →
    (last :: delivered.map (·.sequenceNumber)).IsChain fun a b => seqLt a b
  next : e'.nextExpectedSeq =
    (delivered.getLast?.map fun x => x.sequenceNumber + 1).getD e.nextExpectedSeq

theorem drained_drain {w fuel : ℕ} (hsorted : Sorted e)
    (hw : ∀ x ∈ e.buffer, (x.1 - e.nextExpectedSeq).toNat ≤ w) (hfuel : e.buffer.length ≤ fuel) :
    Drained w e (drain fuel e).1 (drain fuel e).2 := by
  induction fuel generalizing e with
  | zero =>
    have hnil : e.buffer = [] := List.length_eq_zero_iff.mp (by omega)
    exact ⟨hsorted, rfl, by simp [drain, hnil], by simp [hnil], by simp [drain], rfl⟩
  | succ fuel ih =>
    rw [drain]
    cases hget : Btree.get UInt16.toNat e.buffer e.nextExpectedSeq with
    | none =>
      refine ⟨hsorted, rfl, ?_, fun x hx => .inr hx, by simp, rfl⟩
      intro x hx
      refine ⟨?_, hw x hx⟩
      have hne := Btree.get_eq_none.mp hget x hx
      change 0 < (x.1 - e.nextExpectedSeq).toNat
      rw [toNat_ahead]
      have := x.1.toNat_lt
      have := e.nextExpectedSeq.toNat_lt
      omega
    | some payload =>
      dsimp only
      have hmem := (Btree.get_eq_some hsorted toNat_injective).mp hget
      generalize hnext : ({ e with
        buffer := Btree.remove UInt16.toNat e.buffer e.nextExpectedSeq
        nextExpectedSeq := e.nextExpectedSeq + 1 } : GtpuReorderingEngine) = e₁
      have hbuffer : e₁.buffer = Btree.remove UInt16.toNat e.buffer e.nextExpectedSeq := by
        rw [← hnext]
      have hseq : e₁.nextExpectedSeq = e.nextExpectedSeq + 1 := by rw [← hnext]
      have hwindow : e₁.windowSize = e.windowSize := by rw [← hnext]
      have hlen := Btree.length_remove_lt hget
      have hdrained := @ih e₁ (by rw [Sorted, hbuffer]; exact Btree.sorted_remove hsorted)
        (by
          intro x hx
          rw [hbuffer, Btree.mem_remove hsorted] at hx
          rw [hseq]
          exact ahead_succ (fun he => hx.2 (by rw [he])) (hw x hx.1))
        (by rw [hbuffer]; omega)
      refine ⟨hdrained.sorted, hdrained.windowSize.trans hwindow, hdrained.window, ?_, ?_, ?_⟩
      · intro x hx
        by_cases hkey : x.1.toNat = e.nextExpectedSeq.toNat
        · rw [hsorted.eq_of_rank_eq hx hmem hkey]
          exact .inl List.mem_cons_self
        · rcases hdrained.kept x
              (by rw [hbuffer]; exact (Btree.mem_remove hsorted).mpr ⟨hx, hkey⟩) with h | h
          · exact .inl (List.mem_cons_of_mem _ h)
          · exact .inr h
      · intro last hlast
        rw [List.map_cons, List.isChain_cons_cons]
        refine ⟨?_, hdrained.chain _ hseq.symm⟩
        rw [← hlast]
        exact seqLt_succ last
      · rw [hdrained.next, hseq, List.getLast?_cons]
        cases (drain fuel e₁).2.getLast? <;> rfl

/-! ### Serial order of the buffer -/

/-- Ahead of `next` and at most `w` ahead. -/
def InWindow (next : UInt16) (w : ℕ) (l : List (UInt16 × List UInt8)) : Prop :=
  ∀ x ∈ l, 0 < (x.1 - next).toNat ∧ (x.1 - next).toNat ≤ w

section serial

variable {next : UInt16} {w : ℕ} {l : List (UInt16 × List UInt8)}

theorem isChain_iff_pairwise (hw : w < 32768) (hin : InWindow next w l) :
    (l.map (·.1)).IsChain (fun a b => seqLt a b) ↔
      l.Pairwise fun x y => (x.1 - next).toNat < (y.1 - next).toNat := by
  rw [List.isChain_map]
  have hiff : ∀ x y, x ∈ l → y ∈ l →
      (seqLt x.1 y.1 = true ↔ (x.1 - next).toNat < (y.1 - next).toNat) := by
    intro x y hx hy
    exact seqLt_iff_ahead ((hin x hx).2.trans_lt hw) ((hin y hy).2.trans_lt hw)
  rw [List.IsChain.iff_of_mem_imp fun x y hx hy => hiff x y hx hy]
  rw [← List.isChain_map (R := (· < ·)) fun x : UInt16 × List UInt8 => (x.1 - next).toNat,
    List.isChain_iff_pairwise, List.pairwise_map]

/-- A buffer in numeric order is in serial order when it does not straddle the wrap. -/
theorem pairwise_iff_unbroken (hsorted : Btree.Sorted UInt16.toNat l) (hin : InWindow next w l) :
    (l.Pairwise fun x y => (x.1 - next).toNat < (y.1 - next).toNat) ↔
      ∀ a ∈ l, ∀ b ∈ l, ¬ (a.1 < next ∧ next < b.1) := by
  constructor
  · rintro hpair a ha b hb ⟨han, hnb⟩
    have hlt : a.1.toNat < b.1.toNat := by
      rw [UInt16.lt_iff_toNat_lt] at han hnb
      omega
    have hahead := hsorted.rel_of_lt hpair ha hb hlt
    rw [ahead_lt_iff (ne_of_ahead (hin b hb).1) hlt] at hahead
    exact hahead ⟨han, hnb⟩
  · intro h
    refine List.Pairwise.imp_of_mem ?_ hsorted
    intro a b ha hb hlt
    exact (ahead_lt_iff (ne_of_ahead (hin b hb).1) hlt).mpr (h a ha b hb)

/-- What follows the first entries with a property has it nowhere, when earlier entries inherit
it. -/
theorem not_of_mem_dropWhile {α : Type*} {R : α → α → Prop} {p : α → Bool} {l : List α}
    (hR : l.Pairwise R) (hp : ∀ a ∈ l, ∀ b ∈ l, R a b → p b = true → p a = true) :
    ∀ x ∈ l.dropWhile p, p x = false := by
  induction l with
  | nil => simp
  | cons a l ih =>
    obtain ⟨ha, hl⟩ := List.pairwise_cons.mp hR
    intro x hx
    cases hpa : p a with
    | true =>
      rw [List.dropWhile_cons_of_pos hpa] at hx
      exact ih hl (fun b hb c hc => hp b (List.mem_cons_of_mem a hb) c
        (List.mem_cons_of_mem a hc)) x hx
    | false =>
      rw [List.dropWhile_cons_of_neg (by simp [hpa])] at hx
      rcases List.mem_cons.mp hx with rfl | hx
      · exact hpa
      · by_contra hpx
        rw [hp a List.mem_cons_self x (List.mem_cons_of_mem a hx) (ha x hx)
          (by simpa using hpx)] at hpa
        cases hpa

end serial

/-! ### One call -/

theorem Tracks.ahead_iff (h : s.Tracks) :
    s.Ahead seq ↔ ∀ last ∈ s.released.getLast?, seqLt last seq = true := by
  rw [Ahead, h]
  cases s.released.getLast? with
  | none => simp
  | some last =>
    simp only [Option.map_some, Option.mem_def, Option.some.injEq, forall_eq',
      sub_add_sub_cancel, seqLt_iff]

theorem ordered_flush_iff (h : s.Ordered) (ht : s.Tracks) (hsorted : Sorted s.engine)
    (hw : s.engine.windowSize.toNat < 32768) : (s.step .forceFlush).Ordered ↔ s.Ready := by
  have hmap : (s.engine.buffer.map packet).map (·.sequenceNumber) = s.engine.buffer.map (·.1) := by
    simp [packet]
  have hchain := isChain_iff_pairwise hw h.window
  rw [pairwise_iff_unbroken hsorted h.window] at hchain
  constructor
  · rintro ⟨hreleased, -⟩
    simp only [step, apply, forceFlush, hmap, List.isChain_append] at hreleased
    refine ⟨hchain.mp hreleased.2.1, fun first hfirst => ht.ahead_iff.mpr fun last hlast => ?_⟩
    refine hreleased.2.2 last hlast first.1 ?_
    rw [List.head?_map, Option.mem_def, Option.map_eq_some_iff]
    exact ⟨first, hfirst, rfl⟩
  · rintro ⟨hunbroken, hlast⟩
    refine ⟨?_, by simp [step, apply, forceFlush]⟩
    simp only [step, apply, forceFlush, hmap, List.isChain_append]
    refine ⟨h.released, hchain.mpr hunbroken, fun last hl first hf => ?_⟩
    rw [List.head?_map, Option.mem_def, Option.map_eq_some_iff] at hf
    obtain ⟨x, hx, rfl⟩ := hf
    exact ht.ahead_iff.mp (hlast x hx) last hl

/-- An engine as its calls leave it: buffer in order, a window below half the space. -/
structure Sound (size : UInt16) (e : GtpuReorderingEngine) : Prop where
  sorted : Sorted e
  windowSize : e.windowSize = size
  small : size.toNat < 32768

variable {size : UInt16}

/-- The number expected comes: it is released with what follows it in the buffer. -/
theorem step_expected (h : s.Ordered) (ht : s.Tracks) (hs : Sound size s.engine)
    (payload : List UInt8) : (s.step (.ingestPacket s.engine.nextExpectedSeq payload)).Tracks ∧
      Sound size (s.step (.ingestPacket s.engine.nextExpectedSeq payload)).engine ∧
      s.Conserves (.ingestPacket s.engine.nextExpectedSeq payload) ∧
      ((s.step (.ingestPacket s.engine.nextExpectedSeq payload)).Ordered ↔
        s.Ahead s.engine.nextExpectedSeq) := by
  generalize hnext : ({ s.engine with nextExpectedSeq := s.engine.nextExpectedSeq + 1 } :
    GtpuReorderingEngine) = e₁
  have hbuffer : e₁.buffer = s.engine.buffer := by rw [← hnext]
  have hseq : e₁.nextExpectedSeq = s.engine.nextExpectedSeq + 1 := by rw [← hnext]
  have hwindow : e₁.windowSize = s.engine.windowSize := by rw [← hnext]
  have hdrained := @drained_drain e₁ s.engine.windowSize.toNat e₁.buffer.length
    (by rw [Sorted, hbuffer]; exact hs.sorted)
    (by
      intro x hx
      rw [hbuffer] at hx
      rw [hseq]
      exact ahead_succ (ne_of_ahead (h.window x hx).1) (h.window x hx).2) le_rfl
  have hnot : ¬ seqLt s.engine.nextExpectedSeq s.engine.nextExpectedSeq = true := by
    simp [seqLt]
  have happly : s.apply (.ingestPacket s.engine.nextExpectedSeq payload) =
      ((drain e₁.buffer.length e₁).1,
        ⟨s.engine.nextExpectedSeq, payload⟩ :: (drain e₁.buffer.length e₁).2) := by
    rw [apply, ingestPacket, if_neg hnot, if_pos rfl, hnext, hbuffer]
  have hlead : s.leadAfter (.ingestPacket s.engine.nextExpectedSeq payload) = some 1 := by
    rw [leadAfter, if_neg hnot, if_pos rfl]
  generalize drain e₁.buffer.length e₁ = r at hdrained happly
  rw [ht.ahead_iff]
  refine ⟨?_, ?_, ⟨?_, ?_⟩, ?_⟩
  · rw [Tracks, step, happly, hlead]
    dsimp only
    rw [hdrained.next, hseq, List.map_cons, List.getLast?_append, List.getLast?_cons,
      List.getLast?_map]
    cases r.2.getLast? <;> simp
  · rw [step, happly]
    exact ⟨hdrained.sorted, hdrained.windowSize.trans (hwindow.trans hs.windowSize), hs.small⟩
  · intro x hx
    rw [step, happly]
    rcases hdrained.kept x (by rwa [hbuffer]) with hx | hx
    · exact .inl (List.mem_cons_of_mem _ hx)
    · exact .inr (.inl hx)
  · rintro seq' payload' heq
    cases heq
    rw [happly]
    exact .inl List.mem_cons_self
  · have hchain := hdrained.chain _ hseq.symm
    have hwin : ∀ x ∈ r.1.buffer, 0 < (x.1 - r.1.nextExpectedSeq).toNat ∧
        (x.1 - r.1.nextExpectedSeq).toNat ≤ r.1.windowSize.toNat := by
      rw [hdrained.windowSize, hwindow]
      exact hdrained.window
    constructor
    · rintro ⟨hreleased, -⟩
      rw [step, happly, List.map_cons, List.isChain_append] at hreleased
      intro last hlast
      exact hreleased.2.2 last hlast _ (by simp)
    · intro hlast
      refine ⟨?_, by rw [step, happly]; exact hwin⟩
      rw [step, happly, List.map_cons, List.isChain_append]
      refine ⟨h.released, hchain, ?_⟩
      intro last hl first hf
      obtain rfl : s.engine.nextExpectedSeq = first := by simpa using hf
      exact hlast last hl

/-- A packet within the window is buffered. -/
theorem step_buffered (h : s.Ordered) (hs : Sound size s.engine)
    (hlt : ¬ seqLt seq s.engine.nextExpectedSeq) (hne : seq ≠ s.engine.nextExpectedSeq)
    (hle : seq - s.engine.nextExpectedSeq ≤ s.engine.windowSize) (payload : List UInt8) :
    Sound size (s.step (.ingestPacket seq payload)).engine ∧
      s.Conserves (.ingestPacket seq payload) ∧ (s.step (.ingestPacket seq payload)).Ordered ∧
      ((s.step (.ingestPacket seq payload)).Tracks ↔ s.Tracks) := by
  have happly : s.apply (.ingestPacket seq payload) =
      ({ s.engine with buffer := Btree.insert UInt16.toNat seq payload s.engine.buffer }, []) := by
    rw [apply, ingestPacket, if_neg hlt, if_neg hne, if_pos hle]
  have hmem := fun x => @Btree.mem_insert _ _ UInt16.toNat s.engine.buffer x seq payload hs.sorted
  refine ⟨?_, ⟨?_, ?_⟩, ⟨?_, ?_⟩, ?_⟩
  · rw [step, happly]
    exact ⟨Btree.sorted_insert hs.sorted, hs.windowSize, hs.small⟩
  · intro x hx
    rw [step, happly]
    by_cases hkey : x.1.toNat = seq.toNat
    · exact .inr (.inr ⟨payload, by rw [UInt16.toNat_inj.mp hkey]⟩)
    · exact .inr (.inl ((hmem x).mpr (.inr ⟨hx, hkey⟩)))
  · rintro seq' payload' heq
    cases heq
    rw [step, happly]
    exact .inr (.inl ((hmem _).mpr (.inl rfl)))
  · rw [step, happly]
    simpa using h.released
  · rw [step, happly]
    intro x hx
    rcases (hmem x).mp hx with rfl | ⟨hx, -⟩
    · refine ⟨?_, UInt16.le_iff_toNat_le.mp hle⟩
      rw [ne_eq, ← UInt16.toNat_inj] at hne
      rw [toNat_ahead]
      have := seq.toNat_lt
      have := s.engine.nextExpectedSeq.toNat_lt
      dsimp only
      omega
    · exact h.window x hx
  · rw [Tracks, Tracks, step, happly, leadAfter, if_neg hlt, if_neg hne, if_pos hle]
    simp

/-- When the buffer does not straddle the wrap, the packets that are due come first in it. -/
theorem not_due_of_mem_dropWhile (h : s.Ordered) (hs : Sound size s.engine)
    (hbeyond : s.engine.windowSize.toNat < (seq - s.engine.nextExpectedSeq).toNat)
    (hseq : (seq - s.engine.nextExpectedSeq).toNat ≤ 32768)
    (hready : (∃ x ∈ s.engine.buffer, s.due seq x = true) → s.Ready) :
    ∀ x ∈ s.engine.buffer.dropWhile (s.due seq), s.due seq x = false := by
  by_cases hany : ∃ x ∈ s.engine.buffer, s.due seq x = true
  · refine not_of_mem_dropWhile ((pairwise_iff_unbroken hs.sorted h.window).mpr (hready hany).1) ?_
    have hw : s.engine.windowSize.toNat < 32768 := hs.windowSize ▸ hs.small
    intro a ha b hb hab hdue
    simp only [due, Bool.not_eq_true', ← Bool.not_eq_true] at hdue ⊢
    rw [seqGt_skip_iff (h.window a ha).2 hw hbeyond hseq]
    rw [seqGt_skip_iff (h.window b hb).2 hw hbeyond hseq] at hdue
    omega
  · intro x hx
    by_contra hdue
    exact hany ⟨x, (List.dropWhile_sublist _).subset hx, by simpa using hdue⟩

/-- When a skip releases due packets in order and leaves none of them, the buffer was ready. -/
theorem ready_of_released (h : s.Ordered) (ht : s.Tracks) (hs : Sound size s.engine)
    (hbeyond : s.engine.windowSize.toNat < (seq - s.engine.nextExpectedSeq).toNat)
    (hseq : (seq - s.engine.nextExpectedSeq).toNat ≤ 32768)
    (hleft : ∀ y ∈ s.engine.buffer.dropWhile (s.due seq), s.due seq y = false)
    (hreleased : s.released.IsChain (fun a b => seqLt a b) ∧
      ((s.engine.buffer.takeWhile (s.due seq)).map (·.1)).IsChain (fun a b => seqLt a b) ∧
      ∀ last ∈ s.released.getLast?,
        ∀ first ∈ ((s.engine.buffer.takeWhile (s.due seq)).map (·.1)).head?, seqLt last first)
    (hx : x ∈ s.engine.buffer) (hxdue : s.due seq x = true) : s.Ready := by
  have hw : s.engine.windowSize.toNat < 32768 := hs.windowSize ▸ hs.small
  have hwtake : InWindow s.engine.nextExpectedSeq s.engine.windowSize.toNat
      (s.engine.buffer.takeWhile (s.due seq)) := fun x hx =>
    h.window x ((List.takeWhile_sublist _).subset hx)
  have hsplit : ∀ x, x ∈ s.engine.buffer ↔
      x ∈ s.engine.buffer.takeWhile (s.due seq) ∨ x ∈ s.engine.buffer.dropWhile (s.due seq) := by
    intro x
    rw [← List.mem_append, List.takeWhile_append_dropWhile]
  have hxtake : x ∈ s.engine.buffer.takeWhile (s.due seq) := by
    rcases (hsplit x).mp hx with h | h
    · exact h
    · rw [hleft x h] at hxdue
      cases hxdue
  obtain ⟨first, rest, hcons⟩ : ∃ first rest, s.engine.buffer = first :: rest := by
    cases hbuffer : s.engine.buffer with
    | nil => rw [hbuffer] at hx; cases hx
    | cons first rest => exact ⟨first, rest, rfl⟩
  have hfirst : s.due seq first = true := by
    by_contra hfirst
    rw [hcons, List.takeWhile_cons_of_neg hfirst] at hxtake
    cases hxtake
  have htakecons : s.engine.buffer.takeWhile (s.due seq) =
      first :: rest.takeWhile (s.due seq) := by
    rw [hcons, List.takeWhile_cons_of_pos hfirst]
  have hpair := (isChain_iff_pairwise hw hwtake).mp hreleased.2.1
  have hfirstmem : first ∈ s.engine.buffer := by simp [hcons]
  constructor
  · rintro a ha b hb ⟨han, hnb⟩
    -- the first packet lies numerically before `b`, and is ahead less than `b`
    have hle : first.1.toNat ≤ a.1.toNat := by
      rcases List.mem_cons.mp (hcons ▸ ha) with rfl | ha
      · exact le_rfl
      · have hsorted := hs.sorted
        rw [Sorted, hcons] at hsorted
        exact ((List.pairwise_cons.mp hsorted).1 a ha).le
    rw [UInt16.lt_iff_toNat_lt] at han hnb
    have hlt : first.1.toNat < b.1.toNat := by omega
    have hahead : (first.1 - s.engine.nextExpectedSeq).toNat <
        (b.1 - s.engine.nextExpectedSeq).toNat := by
      rcases (hsplit b).mp hb with hb' | hb'
      · rw [htakecons] at hb' hpair
        rcases List.mem_cons.mp hb' with rfl | hb'
        · omega
        · exact (List.pairwise_cons.mp hpair).1 b hb'
      · have hbdue := hleft b hb'
        simp only [due, Bool.not_eq_true', ← Bool.not_eq_true] at hbdue hfirst
        rw [seqGt_skip_iff (h.window b hb).2 hw hbeyond hseq] at hbdue
        rw [seqGt_skip_iff (h.window first hfirstmem).2 hw hbeyond hseq] at hfirst
        omega
    rw [ahead_lt_iff (ne_of_ahead (h.window b hb).1) hlt] at hahead
    refine hahead ⟨?_, ?_⟩ <;> rw [UInt16.lt_iff_toNat_lt] <;> omega
  · refine fun first' hfirst' => ht.ahead_iff.mpr fun last hlast => ?_
    rw [hcons] at hfirst'
    obtain rfl : first = first' := by simpa using hfirst'
    exact hreleased.2.2 last hlast first.1 (by simp [htakecons])

/-- A packet beyond the window: the gap before its window is skipped. -/
theorem step_skip (h : s.Ordered) (ht : s.Tracks) (hs : Sound size s.engine)
    (hlt : ¬ seqLt seq s.engine.nextExpectedSeq) (hne : seq ≠ s.engine.nextExpectedSeq)
    (hle : ¬ seq - s.engine.nextExpectedSeq ≤ s.engine.windowSize) (payload : List UInt8) :
    Sound size (s.step (.ingestPacket seq payload)).engine ∧
      s.Conserves (.ingestPacket seq payload) ∧
      ((s.step (.ingestPacket seq payload)).Ordered ↔ 0 < s.engine.windowSize ∧
        ((∃ x ∈ s.engine.buffer, s.due seq x = true) → s.Ready)) ∧
      (((∃ x ∈ s.engine.buffer, s.due seq x = true) → s.Ready) →
        (s.step (.ingestPacket seq payload)).Tracks) := by
  have hw : s.engine.windowSize.toNat < 32768 := hs.windowSize ▸ hs.small
  have hbeyond : s.engine.windowSize.toNat < (seq - s.engine.nextExpectedSeq).toNat := by
    rw [UInt16.le_iff_toNat_le] at hle
    omega
  have hseq := le_of_not_seqLt hlt
  have happly : s.apply (.ingestPacket seq payload) =
      ({ s.engine with
          nextExpectedSeq := seq - s.engine.windowSize
          buffer := Btree.insert UInt16.toNat seq payload (s.engine.buffer.dropWhile (s.due seq)) },
        (s.engine.buffer.takeWhile (s.due seq)).map packet) := by
    rw [apply, ingestPacket, if_neg hlt, if_neg hne, if_neg hle]
    rfl
  have hdrop : Btree.Sorted UInt16.toNat (s.engine.buffer.dropWhile (s.due seq)) :=
    Btree.Sorted.sublist hs.sorted (List.dropWhile_sublist _)
  have hmem := fun x => @Btree.mem_insert _ _ UInt16.toNat _ x seq payload hdrop
  have htake : ((s.engine.buffer.takeWhile (s.due seq)).map packet).map (·.sequenceNumber) =
      (s.engine.buffer.takeWhile (s.due seq)).map (·.1) := by simp [packet]
  have hwtake : InWindow s.engine.nextExpectedSeq s.engine.windowSize.toNat
      (s.engine.buffer.takeWhile (s.due seq)) := fun x hx =>
    h.window x ((List.takeWhile_sublist _).subset hx)
  have hsplit : ∀ x, x ∈ s.engine.buffer ↔
      x ∈ s.engine.buffer.takeWhile (s.due seq) ∨ x ∈ s.engine.buffer.dropWhile (s.due seq) := by
    intro x
    rw [← List.mem_append, List.takeWhile_append_dropWhile]
  refine ⟨?_, ⟨?_, ?_⟩, ⟨?_, ?_⟩, fun hready => ?_⟩
  · rw [step, happly]
    exact ⟨Btree.sorted_insert hdrop, hs.windowSize, hs.small⟩
  · intro x hx
    rw [step, happly]
    rcases (hsplit x).mp hx with hx | hx
    · exact .inl (List.mem_map.mpr ⟨x, hx, rfl⟩)
    · by_cases hkey : x.1.toNat = seq.toNat
      · exact .inr (.inr ⟨payload, by rw [UInt16.toNat_inj.mp hkey]⟩)
      · exact .inr (.inl ((hmem x).mpr (.inr ⟨hx, hkey⟩)))
  · rintro seq' payload' heq
    cases heq
    rw [step, happly]
    exact .inr (.inl ((hmem _).mpr (.inl rfl)))
  · rintro ⟨hreleased, hwindow⟩
    rw [step, happly] at hreleased hwindow
    dsimp only at hreleased hwindow
    rw [htake, List.isChain_append] at hreleased
    constructor
    · have := hwindow (seq, payload) ((hmem _).mpr (.inl rfl))
      rw [sub_sub_toNat] at this
      exact UInt16.lt_iff_toNat_lt.mpr this.1
    · rintro ⟨x, hx, hxdue⟩
      -- whatever is left is not due, so the due packets are those released
      have hleft : ∀ y ∈ s.engine.buffer.dropWhile (s.due seq), s.due seq y = false := by
        intro y hy
        by_cases hkey : y.1.toNat = seq.toNat
        · have := (h.window y ((hsplit y).mpr (.inr hy))).2
          rw [UInt16.toNat_inj.mp hkey] at this
          omega
        · have := hwindow y ((hmem y).mpr (.inr ⟨hy, hkey⟩))
          rw [due, Bool.not_eq_false', seqGt_iff]
          omega
      exact ready_of_released h ht hs hbeyond hseq hleft hreleased hx hxdue
  · rintro ⟨hpos, hready⟩
    have hleft := not_due_of_mem_dropWhile h hs hbeyond hseq hready
    constructor
    · rw [step, happly]
      dsimp only
      rw [htake, List.isChain_append, isChain_iff_pairwise hw hwtake]
      by_cases hany : ∃ x ∈ s.engine.buffer, s.due seq x = true
      · obtain ⟨hunbroken, hlast⟩ := hready hany
        have hpair := (pairwise_iff_unbroken hs.sorted h.window).mpr hunbroken
        refine ⟨h.released, hpair.sublist (List.takeWhile_sublist _), ?_⟩
        intro last hl first hf
        rw [List.head?_map, Option.mem_def, Option.map_eq_some_iff] at hf
        obtain ⟨x, hx, rfl⟩ := hf
        refine ht.ahead_iff.mp (hlast x ?_) last hl
        cases hbuffer : s.engine.buffer with
        | nil => rw [hbuffer] at hx; cases hx
        | cons y rest =>
          rw [hbuffer, List.takeWhile_cons] at hx
          split at hx
          · exact hx
          · cases hx
      · have hnil : s.engine.buffer.takeWhile (s.due seq) = [] := by
          rw [List.eq_nil_iff_forall_not_mem]
          intro x hx
          exact hany ⟨x, (List.takeWhile_sublist _).subset hx,
            List.all_eq_true.mp List.all_takeWhile x hx⟩
        rw [hnil]
        exact ⟨h.released, .nil, by simp⟩
    · rw [step, happly]
      intro x hx
      rcases (hmem x).mp hx with rfl | ⟨hx, -⟩
      · dsimp only
        rw [sub_sub_toNat]
        exact ⟨UInt16.lt_iff_toNat_lt.mp hpos, le_rfl⟩
      · have hxdue := hleft x hx
        rw [due, Bool.not_eq_false'] at hxdue
        exact ahead_skip (h.window x ((hsplit x).mpr (.inr hx))).2 hw hbeyond hseq hxdue
  · have hleft := not_due_of_mem_dropWhile h hs hbeyond hseq hready
    have hfilter : s.engine.buffer.filter (s.due seq) = s.engine.buffer.takeWhile (s.due seq) := by
      conv_lhs => rw [← List.takeWhile_append_dropWhile (p := s.due seq) (l := s.engine.buffer)]
      rw [List.filter_append, List.filter_eq_self.mpr fun x hx =>
          List.all_eq_true.mp List.all_takeWhile x hx,
        List.filter_eq_nil_iff.mpr fun x hx => by simp [hleft x hx], List.append_nil]
    rw [Tracks, step, happly, leadAfter, if_neg hlt, if_neg hne, if_neg hle]
    dsimp only
    rw [htake, hfilter, List.getLast?_append, List.getLast?_map, ht]
    cases (s.engine.buffer.takeWhile (s.due seq)).getLast? with
    | some x => rfl
    | none =>
      cases s.released.getLast? with
      | none => rfl
      | some last => simp

theorem step_flush (h : s.Ordered) (ht : s.Tracks) (hs : Sound size s.engine) :
    (s.step .forceFlush).Tracks ∧ Sound size (s.step .forceFlush).engine ∧ s.Conserves .forceFlush ∧
      ((s.step .forceFlush).Ordered ↔ s.Ready) := by
  refine ⟨?_, ⟨List.Pairwise.nil, hs.windowSize, hs.small⟩, ⟨?_, by simp⟩, ?_⟩
  · simp only [Tracks, step, apply, forceFlush, leadAfter, List.getLast?_append, List.getLast?_map]
    cases hlast : s.engine.buffer.getLast? with
    | none =>
      rw [List.getLast?_eq_none_iff.mp hlast, if_pos rfl]
      exact ht
    | some x =>
      have hne : s.engine.buffer ≠ [] := by
        rintro hnil
        rw [hnil] at hlast
        cases hlast
      rw [if_neg hne]
      simp [packet]
  · intro x hx
    exact .inl (List.mem_map.mpr ⟨x, hx, rfl⟩)
  · exact ordered_flush_iff h ht hs.sorted (hs.windowSize ▸ hs.small)

/-- Every call conserves the packets, and keeps the order exactly when it meets the condition; the
lead then stays right. -/
theorem step_spec (h : s.Ordered) (ht : s.Tracks) (hs : Sound size s.engine) (c : Call) :
    (s.InOrder c → (s.step c).Tracks) ∧ Sound size (s.step c).engine ∧ s.Conserves c ∧
      ((s.step c).Ordered ↔ s.InOrder c) := by
  cases c with
  | forceFlush =>
    obtain ⟨htracks, hrest⟩ := step_flush h ht hs
    exact ⟨fun _ => htracks, hrest⟩
  | ingestPacket seq payload =>
    unfold InOrder
    dsimp only
    split_ifs with hlt hne hle
    · have happly : s.apply (.ingestPacket seq payload) = (s.engine, []) := by
        rw [apply, ingestPacket, if_pos hlt]
      refine ⟨fun _ => ?_, ?_, ⟨?_, ?_⟩, ?_⟩
      · rw [Tracks, step, happly, leadAfter, if_pos hlt, List.map_nil, List.append_nil]
        exact ht
      · rw [step, happly]
        exact hs
      · intro x hx
        rw [step, happly]
        exact .inr (.inl hx)
      · rintro seq' payload' heq
        cases heq
        exact .inr (.inr hlt)
      · rw [step, happly]
        exact iff_of_true ⟨by simpa using h.released, h.window⟩ trivial
    · subst hne
      obtain ⟨htracks, hrest⟩ := step_expected h ht hs payload
      exact ⟨fun _ => htracks, hrest⟩
    · obtain ⟨hsound, hconserves, hordered, htracks⟩ := step_buffered h hs hlt hne hle payload
      exact ⟨fun _ => htracks.mpr ht, hsound, hconserves, iff_of_true hordered trivial⟩
    · obtain ⟨hsound, hconserves, hordered, htracks⟩ :=
        step_skip h ht hs hlt hne hle payload
      exact ⟨fun hc => htracks hc.2, hsound, hconserves, hordered⟩

/-- Under the condition the numbers released increase and the buffer stays within the window; a call
keeps this exactly when it meets the condition; no call discards a packet that is neither older than
the number expected nor a duplicate. -/
theorem gtpu_reordering {teid : UInt32} {initialSeq windowSize : UInt16} {calls : List Call}
    (hw : windowSize.toNat < 2 ^ 15)
    (h : Machine.Along step InOrder (start teid initialSeq windowSize) calls) :
    let s := (start teid initialSeq windowSize).run calls
    s.Ordered ∧ ∀ c, s.Conserves c ∧ ((s.step c).Ordered ↔ s.InOrder c) := by
  intro s
  have hstart : (start teid initialSeq windowSize).Ordered ∧
      (start teid initialSeq windowSize).Tracks ∧
      Sound windowSize (start teid initialSeq windowSize).engine :=
    ⟨⟨.nil, by simp [start, new]⟩, rfl, List.Pairwise.nil, rfl, hw⟩
  have hrun := h.keeps (I := fun s : Flow => s.Ordered ∧ s.Tracks ∧ Sound windowSize s.engine)
    (fun s c hs hc => by
      obtain ⟨htracks, hsound, -, hordered⟩ := step_spec hs.1 hs.2.1 hs.2.2 c
      exact ⟨hordered.mpr hc, htracks hc, hsound⟩) hstart
  exact ⟨hrun.1, fun c => (step_spec hrun.1 hrun.2.1 hrun.2.2 c).2.2⟩

/-- Packets come in the wrong order, across the wrap; a gap is skipped, and the rest is flushed. -/
theorem gtpu_reordering_swapped :
    ((start 1 65535 8).run [.ingestPacket 0 [2], .ingestPacket 65535 [1],
      .ingestPacket 20 [5], .ingestPacket 12 [3], .ingestPacket 14 [4], .forceFlush]).Ordered := by
  have h : Machine.Along step InOrder (start 1 65535 8)
      [.ingestPacket 0 [2], .ingestPacket 65535 [1],
      .ingestPacket 20 [5], .ingestPacket 12 [3], .ingestPacket 14 [4], .forceFlush] :=
    ⟨by decide, by decide, by decide, by decide, by decide, by decide, trivial⟩
  exact (gtpu_reordering (by decide) h).1

/-- A flush releases what lies after the wrap first. -/
theorem gtpu_flush_reorders :
    ¬ ((start 1 65534 8).run [.ingestPacket 65535 [1], .ingestPacket 0 [2],
      .forceFlush]).Ordered := by
  intro h
  exact absurd h.released (by decide)

end Flow

end ToyTcpip.Gtpu
