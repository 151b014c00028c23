import Mathlib.Tactic
import Std.Data.TreeMap

/-! The PDCP entity of `pdcp_5g.rs`: counts, the reordering buffer and the status report. -/
namespace ToyTcpip.Pdcp

inductive PdcpSnSize where
  | sn12Bits
  | sn18Bits
  deriving DecidableEq, Repr

namespace PdcpSnSize

def numBits : PdcpSnSize → ℕ
  | .sn12Bits => 12
  | .sn18Bits => 18

/-- `max_sn`, the mask of a sequence number, is one less. -/
def snSpace (s : PdcpSnSize) : ℕ := 2 ^ s.numBits

def windowSize (s : PdcpSnSize) : ℕ := 2 ^ (s.numBits - 1)

theorem snSpace_eq (s : PdcpSnSize) : s.snSpace = 2 * s.windowSize := by cases s <;> rfl

theorem windowSize_bounds (s : PdcpSnSize) : 2048 ≤ s.windowSize ∧ s.windowSize ≤ 131072 := by
  cases s <;> decide

end PdcpSnSize

structure PdcpDataPdu where
  sn : ℕ
  payload : List UInt8
  deriving DecidableEq, Repr

inductive PdcpControlPdu where
  | statusReport (fmc : ℕ) (bitmap : List UInt8)
  deriving DecidableEq, Repr

/-- `u32` arithmetic wraps, as in a release build. -/
def wrap (n : ℕ) : ℕ := n % 2 ^ 32

structure PdcpEntity where
  snSize : PdcpSnSize
  txNext : ℕ
  rxNext : ℕ
  rxDeliv : ℕ
  rxReord : ℕ
  reorderingBuffer : Std.TreeMap ℕ (List UInt8)
  deliveredSdus : List (List UInt8)

namespace PdcpEntity

def new (snSize : PdcpSnSize) : PdcpEntity := ⟨snSize, 0, 0, 0, 0, ∅, []⟩

def transmitSdu (e : PdcpEntity) (sdu : List UInt8) : PdcpEntity × PdcpDataPdu :=
  ({ e with txNext := wrap (e.txNext + 1) }, ⟨e.txNext % e.snSize.snSpace, sdu⟩)

/-- The hyper-frame number that a sequence number belongs to, seen from `rx_next`. -/
def derivedHfn (e : PdcpEntity) (sn : ℕ) : ℕ :=
  let hfn := e.rxNext / e.snSize.snSpace
  let nextSn := e.rxNext % e.snSize.snSpace
  if wrap (sn + e.snSize.windowSize) < nextSn then hfn + 1
  else if nextSn + e.snSize.windowSize ≤ sn then hfn - 1
  else hfn

def deriveRxCount (e : PdcpEntity) (sn : ℕ) : ℕ :=
  wrap (e.derivedHfn sn * e.snSize.snSpace) ||| sn

/-- The count at the edge is delivered. -/
def deliverNext (e : PdcpEntity) (sdu : List UInt8) : PdcpEntity :=
  { e with
    deliveredSdus := e.deliveredSdus ++ [sdu]
    reorderingBuffer := e.reorderingBuffer.erase e.rxDeliv
    rxDeliv := wrap (e.rxDeliv + 1) }

/-- The loop that delivers what is consecutive. -/
def deliverConsecutive (e : PdcpEntity) : PdcpEntity :=
  match _h : e.reorderingBuffer[e.rxDeliv]? with
  | some sdu => deliverConsecutive (e.deliverNext sdu)
  | none => e
termination_by e.reorderingBuffer.size
decreasing_by
  have hsize := Std.TreeMap.size_erase (t := e.reorderingBuffer) (k := e.rxDeliv)
  have hmem : e.rxDeliv ∈ e.reorderingBuffer :=
    Std.TreeMap.mem_iff_isSome_getElem?.mpr (by simp [_h])
  have hpos : e.reorderingBuffer.size ≠ 0 := by
    intro hzero
    have hempty : e.reorderingBuffer.isEmpty = true := by
      rw [Std.TreeMap.isEmpty_eq_size_eq_zero]
      simpa using hzero
    exact Std.TreeMap.not_mem_of_isEmpty hempty hmem
  rw [if_pos (Std.TreeMap.contains_iff_mem.mpr hmem)] at hsize
  simp only [deliverNext]
  omega

/-- A count that is not below the edge and not buffered. -/
def IsNew (e : PdcpEntity) (count : ℕ) : Prop := e.rxDeliv ≤ count ∧ count ∉ e.reorderingBuffer

instance (e : PdcpEntity) (count : ℕ) : Decidable (e.IsNew count) :=
  inferInstanceAs (Decidable (_ ∧ _))

/-- A count is stored, and `rx_next` kept above it. -/
def store (e : PdcpEntity) (count : ℕ) (sdu : List UInt8) : PdcpEntity :=
  { e with
    reorderingBuffer := e.reorderingBuffer.insert count sdu
    rxNext := if e.rxNext ≤ count then wrap (count + 1) else e.rxNext }

/-- The end of a gap opens the next one. -/
def advanceReord (e : PdcpEntity) : PdcpEntity :=
  if e.rxReord ≤ e.rxDeliv ∧ e.rxDeliv < e.rxNext then { e with rxReord := e.rxNext } else e

def receivePdu (e : PdcpEntity) (pdu : PdcpDataPdu) : PdcpEntity :=
  let count := e.deriveRxCount pdu.sn
  if e.IsNew count then (e.store count pdu.payload).deliverConsecutive.advanceReord else e

/-- One round of the flush. -/
def flush (e : PdcpEntity) (count : ℕ) : PdcpEntity :=
  match e.reorderingBuffer[count]? with
  | some sdu =>
    { e with
      reorderingBuffer := e.reorderingBuffer.erase count
      deliveredSdus := e.deliveredSdus ++ [sdu] }
  | none => e

def handleTReorderingExpiry (e : PdcpEntity) : PdcpEntity :=
  let due := e.reorderingBuffer.keys.filter fun c => c < e.rxReord
  let e := due.foldl flush e
  { e with
    rxDeliv := e.rxReord
    rxReord := if e.rxReord < e.rxNext then e.rxNext else e.rxReord }

/-- Bit `i` of a bitmap within its byte, the highest first. -/
def bitMask (i : ℕ) : UInt8 := 1 <<< UInt8.ofNat (7 - i % 8)

def setBit (bitmap : List UInt8) (i : ℕ) : List UInt8 := bitmap.modify (i / 8) (· ||| bitMask i)

/-- A bit for each count from `first` on that is buffered. -/
def bitmapOf (e : PdcpEntity) (first bits : ℕ) : List UInt8 :=
  (List.range bits).foldl
    (fun bitmap i => if first + i ∈ e.reorderingBuffer then setBit bitmap i else bitmap)
    (List.replicate ((bits + 7) / 8) 0)

def generateStatusReport (e : PdcpEntity) : Option PdcpControlPdu :=
  if e.rxNext ≤ e.rxDeliv then none
  else some (.statusReport e.rxDeliv (e.bitmapOf (e.rxDeliv + 1) (e.rxNext - e.rxDeliv - 1)))

/-! ### Counts -/

variable {e : PdcpEntity} {c : ℕ}

theorem wrap_eq {n : ℕ} (h : n < 2 ^ 32) : wrap n = n := Nat.mod_eq_of_lt h

/-- Less than half a space away from `next`, the quotient is found from the remainder alone. -/
theorem hfn_eq {space window next : ℕ} (hspace : space = 2 * window) (hpos : 0 < window)
    (hwindow : window ≤ 131072) (hlo : next < c + window) (hhi : c < next + window) :
    (if wrap (c % space + window) < next % space then next / space + 1
      else if next % space + window ≤ c % space then next / space - 1
      else next / space) = c / space := by
  subst hspace
  have hc := Nat.div_add_mod c (2 * window)
  have hnext := Nat.div_add_mod next (2 * window)
  have hcmod := Nat.mod_lt c (show 0 < 2 * window by omega)
  have hnextmod := Nat.mod_lt next (show 0 < 2 * window by omega)
  rw [wrap, Nat.mod_eq_of_lt (by omega)]
  generalize c % (2 * window) = cmod at *
  generalize next % (2 * window) = nextmod at *
  generalize c / (2 * window) = cdiv at *
  generalize next / (2 * window) = nextdiv at *
  have habove : cdiv ≤ nextdiv + 1 := by
    by_contra h
    have := Nat.mul_le_mul_left (2 * window) (show nextdiv + 2 ≤ cdiv by omega)
    rw [Nat.mul_add] at this
    omega
  have hbelow : nextdiv ≤ cdiv + 1 := by
    by_contra h
    have := Nat.mul_le_mul_left (2 * window) (show cdiv + 2 ≤ nextdiv by omega)
    rw [Nat.mul_add] at this
    omega
  obtain h | h | h : cdiv = nextdiv + 1 ∨ cdiv = nextdiv ∨ nextdiv = cdiv + 1 := by omega
  · subst h
    rw [Nat.mul_add] at hc
    rw [if_pos (by omega)]
  · subst h
    rw [if_neg (by omega), if_neg (by omega)]
  · subst h
    rw [Nat.mul_add] at hnext
    rw [if_neg (by omega), if_pos (by omega)]
    omega

theorem derivedHfn_eq (hlo : e.rxNext < c + e.snSize.windowSize)
    (hhi : c < e.rxNext + e.snSize.windowSize) :
    e.derivedHfn (c % e.snSize.snSpace) = c / e.snSize.snSpace := by
  obtain ⟨hpos, hwindow⟩ := e.snSize.windowSize_bounds
  exact hfn_eq e.snSize.snSpace_eq (by omega) hwindow hlo hhi

theorem deriveRxCount_eq (hc : c < 2 ^ 32) (hlo : e.rxNext < c + e.snSize.windowSize)
    (hhi : c < e.rxNext + e.snSize.windowSize) :
    e.deriveRxCount (c % e.snSize.snSpace) = c := by
  rw [deriveRxCount, derivedHfn_eq hlo hhi]
  have hspace : e.snSize.snSpace = 2 ^ e.snSize.numBits := rfl
  have hdiv := Nat.div_add_mod c e.snSize.snSpace
  have hmod : c % e.snSize.snSpace < 2 ^ e.snSize.numBits := Nat.mod_lt _ (by simp [hspace])
  have hor := Nat.two_pow_add_eq_or_of_lt hmod (c / e.snSize.snSpace)
  rw [wrap_eq (by rw [Nat.mul_comm]; omega), Nat.mul_comm, hspace, ← hspace]
  rw [← hspace] at hor
  omega

/-! ### The loops -/

/-- What a delivery at the edge keeps, the loop keeps, and it stops at a count that is missing. -/
theorem deliverConsecutive_rule {P : PdcpEntity → Prop}
    (hnext : ∀ e sdu, e.reorderingBuffer[e.rxDeliv]? = some sdu → P e → P (e.deliverNext sdu))
    (he : P e) :
    P e.deliverConsecutive ∧
      e.deliverConsecutive.rxDeliv ∉ e.deliverConsecutive.reorderingBuffer := by
  induction e using deliverConsecutive.induct with
  | case1 e sdu h ih =>
    rw [deliverConsecutive]
    split
    · next sdu' h' =>
      rw [h] at h'
      cases h'
      exact ih (hnext e sdu h he)
    · next h' => simp [h] at h'
  | case2 e h =>
    rw [deliverConsecutive]
    split
    · next h' => simp [h] at h'
    · exact ⟨he, by simpa using h⟩

theorem getElem?_foldl_flush (due : List ℕ) (e : PdcpEntity) (k : ℕ) :
    (due.foldl flush e).reorderingBuffer[k]? =
      if k ∈ due then none else e.reorderingBuffer[k]? := by
  induction due generalizing e with
  | nil => simp
  | cons c rest ih =>
    rw [List.foldl_cons, ih]
    have hflush : (e.flush c).reorderingBuffer[k]? =
        if c = k then none else e.reorderingBuffer[k]? := by
      rw [flush]
      split
      · simp [Std.TreeMap.getElem?_erase]
      · next h =>
        split
        · next hck => rw [← hck, h]
        · rfl
    simp only [hflush, List.mem_cons]
    split_ifs <;> simp_all

theorem foldl_flush_rest (due : List ℕ) (e : PdcpEntity) :
    (due.foldl flush e).snSize = e.snSize ∧ (due.foldl flush e).rxNext = e.rxNext ∧
      (due.foldl flush e).rxReord = e.rxReord := by
  induction due generalizing e with
  | nil => exact ⟨rfl, rfl, rfl⟩
  | cons c rest ih =>
    rw [List.foldl_cons, (ih _).1, (ih _).2.1, (ih _).2.2, flush]
    split <;> exact ⟨rfl, rfl, rfl⟩

/-- The counts that an expiry flushes, in order. -/
theorem mem_due : c ∈ e.reorderingBuffer.keys.filter (fun c => c < e.rxReord) ↔
    c ∈ e.reorderingBuffer ∧ c < e.rxReord := by
  simp [List.mem_filter]

@[simp] theorem rxDeliv_expiry (e : PdcpEntity) : e.handleTReorderingExpiry.rxDeliv = e.rxReord :=
  (foldl_flush_rest _ e).2.2

@[simp] theorem rxNext_expiry (e : PdcpEntity) : e.handleTReorderingExpiry.rxNext = e.rxNext :=
  (foldl_flush_rest _ e).2.1

@[simp] theorem snSize_expiry (e : PdcpEntity) : e.handleTReorderingExpiry.snSize = e.snSize :=
  (foldl_flush_rest _ e).1

theorem rxReord_expiry (e : PdcpEntity) : e.handleTReorderingExpiry.rxReord =
    if e.rxReord < e.rxNext then e.rxNext else e.rxReord := by
  obtain ⟨-, hnext, hreord⟩ :=
    foldl_flush_rest (e.reorderingBuffer.keys.filter (fun c => c < e.rxReord)) e
  simp only [handleTReorderingExpiry, hnext, hreord]

theorem getElem?_expiry (e : PdcpEntity) (k : ℕ) :
    e.handleTReorderingExpiry.reorderingBuffer[k]? =
      if k < e.rxReord then none else e.reorderingBuffer[k]? := by
  have h := getElem?_foldl_flush (e.reorderingBuffer.keys.filter (fun c => c < e.rxReord)) e k
  simp only [mem_due] at h
  simp only [handleTReorderingExpiry, h]
  by_cases hk : k ∈ e.reorderingBuffer
  · simp [hk]
  · simp [hk]

theorem mem_expiry {k : ℕ} : k ∈ e.handleTReorderingExpiry.reorderingBuffer ↔
    e.rxReord ≤ k ∧ k ∈ e.reorderingBuffer := by
  rw [Std.TreeMap.mem_iff_isSome_getElem?, getElem?_expiry, Std.TreeMap.mem_iff_isSome_getElem?]
  split_ifs with hk
  · simp [hk]
  · simp [not_lt.mp hk]

end PdcpEntity

end ToyTcpip.Pdcp
