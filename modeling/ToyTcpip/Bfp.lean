import Mathlib.Data.Nat.Bitwise
import ToyTcpip.Lib.BitBuffer

/-! Block floating point compression of I/Q samples, of `oran_bfp_compression.rs`. The `i32` and
`u32` values of the source stay far inside their types and are kept as numbers. -/
namespace ToyTcpip.Bfp

open BitBuffer

structure ComplexIq where
  i : Int16
  q : Int16
  deriving DecidableEq

structure CompressedPrbBlock where
  prbIndex : UInt16
  exponent : ℕ
  bitWidth : ℕ
  packedBytes : List UInt8
  deriving DecidableEq

inductive BfpError where
  | invalidSampleCount (expected actual : ℕ)
  | invalidBitWidth (bitWidth : ℕ)
  | corruptBuffer
  deriving DecidableEq

def rePerPrb : ℕ := 12

def maxVal (samples : List ComplexIq) : ℕ :=
  samples.foldl (fun m s => max (max m s.i.toInt.natAbs) s.q.toInt.natAbs) 0

/-- The loop that raises the exponent. -/
def findExponent (maxVal maxMantissa exponent : ℕ) : ℕ :=
  if exponent < 15 ∧ maxMantissa < maxVal >>> exponent then
    findExponent maxVal maxMantissa (exponent + 1)
  else exponent
termination_by 15 - exponent

/-- The mantissa, clamped to the width. -/
def quantize (bitWidth exponent : ℕ) (x : ℤ) : ℤ :=
  min (max (x >>> exponent) (-2 ^ (bitWidth - 1))) (2 ^ (bitWidth - 1) - 1)

def components (samples : List ComplexIq) : List ℤ :=
  samples.flatMap fun s => [s.i.toInt, s.q.toInt]

/-- `(q as i32 as u32) & mask`. -/
def maskedBits (bitWidth : ℕ) (q : ℤ) : ℕ :=
  (BitVec.ofInt 32 q &&& (1#32 <<< bitWidth - 1#32)).toNat

def packMantissas (bitWidth : ℕ) : List ℤ → ℕ → List UInt8 → Checked BfpError (List UInt8)
  | [], _, buf => .ok buf
  | q :: rest, bitPos, buf =>
    (write buf bitPos bitWidth (maskedBits bitWidth q)).bind
      (packMantissas bitWidth rest (bitPos + bitWidth))

def totalBytes (bitWidth : ℕ) : ℕ := (4 + 24 * bitWidth + 7) / 8

def compressPrb (prbIndex : UInt16) (samples : List ComplexIq) (bitWidth : ℕ) :
    Checked BfpError CompressedPrbBlock :=
  if samples.length ≠ rePerPrb then .error (.invalidSampleCount rePerPrb samples.length)
  else if bitWidth < 6 ∨ 15 < bitWidth then .error (.invalidBitWidth bitWidth)
  else
    let exponent := findExponent (maxVal samples) (2 ^ (bitWidth - 1) - 1) 0
    let quantized := (components samples).map (quantize bitWidth exponent)
    (write (List.replicate (totalBytes bitWidth) 0) 0 4 (exponent &&& 0x0F)).bind fun buf =>
    (packMantissas bitWidth quantized 4 buf).bind fun packed =>
      .ok ⟨prbIndex, exponent, bitWidth, packed⟩

def signExtend (bitWidth raw : ℕ) : ℤ :=
  let raw := BitVec.ofNat 32 raw
  if raw &&& 1#32 <<< (bitWidth - 1) ≠ 0#32 then (raw ||| ~~~(1#32 <<< bitWidth - 1#32)).toInt
  else raw.toInt

/-- A mantissa shifted back, clamped to sixteen bits. -/
def reconstruct (exponent : ℕ) (mant : ℤ) : Int16 :=
  .ofInt (min (max (mant * 2 ^ exponent) (-32768)) 32767)

def readSamples (buf : List UInt8) (bitWidth exponent : ℕ) :
    ℕ → ℕ → Checked BfpError (List ComplexIq)
  | 0, _ => .ok []
  | n + 1, bitPos =>
    (read buf bitPos bitWidth).bind fun iRaw =>
    (read buf (bitPos + bitWidth) bitWidth).bind fun qRaw =>
    (readSamples buf bitWidth exponent n (bitPos + bitWidth + bitWidth)).bind fun rest =>
      .ok (⟨reconstruct exponent (signExtend bitWidth iRaw),
        reconstruct exponent (signExtend bitWidth qRaw)⟩ :: rest)

def decompressPrb (block : CompressedPrbBlock) : Checked BfpError (List ComplexIq) :=
  if block.bitWidth < 6 ∨ 15 < block.bitWidth then .error (.invalidBitWidth block.bitWidth)
  else if block.packedBytes.length < totalBytes block.bitWidth then .error .corruptBuffer
  else (read block.packedBytes 0 4).bind fun exponent =>
    readSamples block.packedBytes block.bitWidth exponent rePerPrb 4

/-! ### The exponent -/

section

variable {samples : List ComplexIq} {bitWidth exponent e c : ℕ} {x : ℤ} {prbIndex : UInt16}

theorem foldl_max_lt (samples : List ComplexIq) (m : ℕ) :
    samples.foldl (fun m s => max (max m s.i.toInt.natAbs) s.q.toInt.natAbs) m < c ↔
      m < c ∧ ∀ x ∈ components samples, x.natAbs < c := by
  induction samples generalizing m with
  | nil => simp [components]
  | cons s rest ih =>
    rw [List.foldl_cons, ih]
    simp [components, and_assoc]

theorem maxVal_shiftRight_le {m : ℕ} : maxVal samples >>> e ≤ m ↔
    ∀ x ∈ components samples, x.natAbs >>> e ≤ m := by
  have hlt : ∀ n, n >>> e ≤ m ↔ n < (m + 1) * 2 ^ e := by
    intro n
    rw [Nat.shiftRight_eq_div_pow, ← Nat.lt_succ_iff, Nat.div_lt_iff_lt_mul (Nat.two_pow_pos e)]
  simp only [hlt, maxVal, foldl_max_lt]
  exact and_iff_right (by positivity)

/-- The loop stops at the first exponent that is large enough, if fifteen is. -/
theorem findExponent_spec {v m : ℕ} (he : e ≤ 15) (hlast : v >>> 15 ≤ m)
    (hbefore : ∀ k < e, m < v >>> k) : IsLeast {k | v >>> k ≤ m} (findExponent v m e) := by
  fun_induction findExponent v m e with
  | case1 e hcond ih =>
    refine ih (by omega) fun k hk => ?_
    rcases Nat.lt_succ_iff_lt_or_eq.mp hk with hk | rfl
    · exact hbefore k hk
    · exact hcond.2
  | case2 e hcond =>
    constructor
    · by_contra hgt
      have h15 : e = 15 := by
        by_contra hne
        exact hcond ⟨by omega, not_le.mp hgt⟩
      exact hgt (h15 ▸ hlast)
    · intro k hk
      by_contra hlt
      exact absurd hk (not_le.mpr (hbefore k (not_le.mp hlt)))

theorem mem_components (h : x ∈ components samples) : -32768 ≤ x ∧ x < 32768 := by
  obtain ⟨s, -, hx⟩ := List.mem_flatMap.mp h
  rcases List.mem_cons.mp hx with rfl | hx
  · exact ⟨s.i.le_toInt, s.i.toInt_lt⟩
  · obtain rfl := List.mem_singleton.mp hx
    exact ⟨s.q.le_toInt, s.q.toInt_lt⟩

theorem exponent_spec (hw : 6 ≤ bitWidth)
    (he : exponent = findExponent (maxVal samples) (2 ^ (bitWidth - 1) - 1) 0) :
    IsLeast {k | ∀ x ∈ components samples, x.natAbs >>> k ≤ 2 ^ (bitWidth - 1) - 1} exponent ∧
      exponent ≤ 15 := by
  have hmant : 2 ^ 5 ≤ 2 ^ (bitWidth - 1) := Nat.pow_le_pow_right (by decide) (by omega)
  have hmax : maxVal samples < 32769 := by
    rw [maxVal, foldl_max_lt]
    refine ⟨by decide, fun x hx => ?_⟩
    obtain ⟨hlow, hhigh⟩ := mem_components hx
    omega
  have hlast : maxVal samples >>> 15 ≤ 2 ^ (bitWidth - 1) - 1 := by
    rw [Nat.shiftRight_eq_div_pow]
    omega
  have hleast := findExponent_spec (by decide) hlast (fun k hk => absurd hk (Nat.not_lt_zero k))
  rw [← he] at hleast
  refine ⟨?_, hleast.2 hlast⟩
  simpa only [maxVal_shiftRight_le] using hleast

/-! ### One mantissa -/

/-- The multiple of `2 ^ e` below a sample. -/
def roundDown (e : ℕ) (x : ℤ) : ℤ := x / 2 ^ e * 2 ^ e

/-- A sample whose magnitude fits after the shift needs no clamping, on the way there or back. -/
theorem shifted_bounds (hx : -32768 ≤ x ∧ x < 32768)
    (hfit : x.natAbs >>> e ≤ 2 ^ (bitWidth - 1) - 1) (he : e ≤ 15) :
    (0 ≤ x - roundDown e x ∧ x - roundDown e x < 2 ^ e) ∧
      (-2 ^ (bitWidth - 1) ≤ x / 2 ^ e ∧ x / 2 ^ e ≤ 2 ^ (bitWidth - 1) - 1) ∧
      -32768 ≤ roundDown e x ∧ roundDown e x ≤ 32767 := by
  have hpos : (0 : ℤ) < 2 ^ e := by positivity
  have hle : roundDown e x ≤ x := Int.ediv_mul_le _ hpos.ne'
  have hlt : x < roundDown e x + 2 ^ e := by
    have := Int.lt_ediv_add_one_mul_self x hpos
    rwa [add_mul, one_mul] at this
  have hmag : x.natAbs < 2 ^ (bitWidth - 1) * 2 ^ e := by
    rw [Nat.shiftRight_eq_div_pow, Nat.le_sub_one_iff_lt (Nat.two_pow_pos _),
      Nat.div_lt_iff_lt_mul (Nat.two_pow_pos e)] at hfit
    exact hfit
  have hmag' : |x| < 2 ^ (bitWidth - 1) * 2 ^ e := by
    rw [← Int.natCast_natAbs]
    exact_mod_cast hmag
  rw [abs_lt] at hmag'
  obtain ⟨k, hk⟩ : (2 : ℤ) ^ e ∣ 32768 :=
    ⟨2 ^ (15 - e), by rw [← pow_add, Nat.add_sub_cancel' he]; rfl⟩
  refine ⟨⟨by omega, by omega⟩, ⟨Int.le_ediv_of_mul_le hpos (by linarith), ?_⟩, ?_, by omega⟩
  · have := Int.ediv_lt_of_lt_mul hpos hmag'.2
    omega
  · have hdiv : -k ≤ x / 2 ^ e := Int.le_ediv_of_mul_le hpos (by linarith)
    have := mul_le_mul_of_nonneg_right hdiv hpos.le
    rw [roundDown]
    linarith

theorem quantize_eq (h : -2 ^ (bitWidth - 1) ≤ x / 2 ^ e ∧ x / 2 ^ e ≤ 2 ^ (bitWidth - 1) - 1) :
    quantize bitWidth e x = x / 2 ^ e := by
  rw [quantize, Int.shiftRight_eq_div_pow]
  push_cast
  rw [max_eq_left h.1, min_eq_left h.2]

theorem toNat_mask (hw : bitWidth ≤ 15) : (1#32 <<< bitWidth - 1#32).toNat = 2 ^ bitWidth - 1 := by
  have hle : 2 ^ bitWidth ≤ 2 ^ 15 := Nat.pow_le_pow_right (by decide) hw
  have hpos := Nat.two_pow_pos bitWidth
  rw [BitVec.toNat_sub, BitVec.toNat_shiftLeft, BitVec.toNat_ofNat, Nat.shiftLeft_eq]
  norm_num only
  omega

theorem maskedBits_eq {q : ℤ} (hw : bitWidth ≤ 15) :
    (maskedBits bitWidth q : ℤ) = q % 2 ^ bitWidth := by
  have hnonneg : 0 ≤ q % (2 ^ 32 : ℕ) := Int.emod_nonneg _ (by decide)
  have hdvd : (2 : ℤ) ^ bitWidth ∣ 2 ^ 32 := pow_dvd_pow 2 (by omega)
  rw [maskedBits, BitVec.toNat_and, toNat_mask hw, Nat.and_two_pow_sub_one_eq_mod,
    BitVec.toNat_ofInt, Int.natCast_emod, Int.toNat_of_nonneg hnonneg]
  push_cast
  exact Int.emod_emod_of_dvd q hdvd

theorem maskedBits_lt {q : ℤ} (hw : bitWidth ≤ 15) : maskedBits bitWidth q < 2 ^ bitWidth := by
  have heq := @maskedBits_eq bitWidth q hw
  have hlt := Int.emod_lt_of_pos q (by positivity : (0 : ℤ) < 2 ^ bitWidth)
  rw [← heq] at hlt
  exact_mod_cast hlt

theorem and_signBit_ne_zero {raw k : ℕ} (hk : k < 32) (hraw : raw < 2 ^ (k + 1)) :
    BitVec.ofNat 32 raw &&& 1#32 <<< k ≠ 0#32 ↔ 2 ^ k ≤ raw := by
  have hpow : 2 ^ (k + 1) ≤ 2 ^ 32 := Nat.pow_le_pow_right (by decide) hk
  have hbit : ((1#32 <<< k).toNat : ℕ) = 2 ^ k := by
    have hlt : 2 ^ k < 2 ^ 32 := Nat.pow_lt_pow_right (by decide) hk
    rw [BitVec.toNat_shiftLeft, BitVec.toNat_ofNat, Nat.shiftLeft_eq]
    norm_num only
    omega
  rw [ne_eq, ← BitVec.toNat_inj, BitVec.toNat_and, BitVec.toNat_ofNat,
    Nat.mod_eq_of_lt (by omega), hbit, Nat.and_two_pow, Nat.testBit_eq_decide_div_mod_eq,
    BitVec.toNat_ofNat, Nat.zero_mod]
  have hdiv : raw / 2 ^ k < 2 := by
    rw [Nat.div_lt_iff_lt_mul (Nat.two_pow_pos k), mul_comm, ← pow_succ]
    exact hraw
  have hone := @Nat.one_le_div_iff raw (2 ^ k) (Nat.two_pow_pos k)
  rw [← hone]
  generalize raw / 2 ^ k = d at *
  obtain rfl | rfl : d = 0 ∨ d = 1 := by omega
  · simp
  · simp

theorem toNat_or_not_mask {raw k : ℕ} (hk : k ≤ 15) (hraw : raw < 2 ^ k) :
    (BitVec.ofNat 32 raw ||| ~~~(1#32 <<< k - 1#32)).toNat = 2 ^ 32 - 2 ^ k + raw := by
  have hle : 2 ^ k ≤ 2 ^ 15 := Nat.pow_le_pow_right (by decide) hk
  have hhigh : 2 ^ k * (2 ^ (32 - k) - 1) = 2 ^ 32 - 2 ^ k := by
    rw [Nat.mul_sub, ← pow_add, Nat.add_sub_cancel' (by omega), mul_one]
  have hnot : 2 ^ 32 - 1 - (2 ^ k - 1) = 2 ^ 32 - 2 ^ k := by
    have := Nat.two_pow_pos k
    omega
  rw [BitVec.toNat_or, BitVec.toNat_not, toNat_mask hk, BitVec.toNat_ofNat,
    Nat.mod_eq_of_lt (by omega), hnot, ← hhigh, Nat.or_comm, ← Nat.two_pow_add_eq_or_of_lt hraw]

theorem signExtend_eq {raw : ℕ} (hw : 6 ≤ bitWidth ∧ bitWidth ≤ 15) (hraw : raw < 2 ^ bitWidth) :
    signExtend bitWidth raw = if 2 ^ (bitWidth - 1) ≤ raw then
      (raw : ℤ) - 2 ^ bitWidth else raw := by
  obtain ⟨k, rfl⟩ : ∃ k, bitWidth = k + 1 := ⟨bitWidth - 1, by omega⟩
  have hle : 2 ^ (k + 1) ≤ 2 ^ 15 := Nat.pow_le_pow_right (by decide) hw.2
  have hsign := @and_signBit_ne_zero raw k (by omega) hraw
  rw [signExtend, Nat.add_sub_cancel]
  by_cases hneg : 2 ^ k ≤ raw
  · have hnat := toNat_or_not_mask hw.2 hraw
    rw [if_pos (hsign.mpr hneg), if_pos hneg, BitVec.toInt_eq_toNat_cond, hnat, if_neg (by omega),
      Nat.cast_add, Nat.cast_sub (by omega)]
    push_cast
    ring
  · have hnat : (BitVec.ofNat 32 raw).toNat = raw := by
      rw [BitVec.toNat_ofNat]
      omega
    rw [if_neg (mt hsign.mp hneg), if_neg hneg, BitVec.toInt_eq_toNat_of_lt
      (by rw [hnat]; omega), hnat]

/-- A mantissa that fits its width is read back from its bits. -/
theorem signExtend_maskedBits {q : ℤ} (hw : 6 ≤ bitWidth ∧ bitWidth ≤ 15)
    (hq : -2 ^ (bitWidth - 1) ≤ q ∧ q ≤ 2 ^ (bitWidth - 1) - 1) :
    signExtend bitWidth (maskedBits bitWidth q) = q := by
  have heq := @maskedBits_eq bitWidth q hw.2
  have hlt := @maskedBits_lt bitWidth q hw.2
  obtain ⟨k, rfl⟩ : ∃ k, bitWidth = k + 1 := ⟨bitWidth - 1, by omega⟩
  rw [signExtend_eq hw hlt]
  rw [Nat.add_sub_cancel] at hq ⊢
  have hpos : (0 : ℤ) < 2 ^ k := by positivity
  rw [pow_succ] at heq ⊢
  have hcast : 2 ^ k ≤ maskedBits (k + 1) q ↔ (2 : ℤ) ^ k ≤ maskedBits (k + 1) q := by norm_cast
  rcases lt_or_ge q 0 with hneg | hnonneg
  · have hmod : q % (2 ^ k * 2) = q + 2 ^ k * 2 := by
      rw [← Int.add_emod_right]
      exact Int.emod_eq_of_lt (by linarith) (by linarith)
    rw [if_pos (hcast.mpr (by rw [heq, hmod]; linarith)), heq, hmod]
    ring
  · have hmod : q % (2 ^ k * 2) = q := Int.emod_eq_of_lt hnonneg (by linarith)
    rw [if_neg (mt hcast.mp (by rw [heq, hmod]; linarith)), heq, hmod]

theorem toInt_reconstruct (h : -32768 ≤ roundDown e x ∧ roundDown e x ≤ 32767) :
    (reconstruct e (x / 2 ^ e)).toInt = roundDown e x := by
  change (Int16.ofInt (min (max (roundDown e x) (-32768)) 32767)).toInt = _
  rw [max_eq_left h.1, min_eq_left h.2]
  exact Int16.toInt_ofInt_of_le h.1 (Int.lt_add_one_of_le h.2)

/-! ### The packed block -/

variable {buf : List UInt8} {bits : List Bool} {pos : ℕ}

def packedBits (bitWidth : ℕ) (qs : List ℤ) : List Bool :=
  qs.flatMap fun q => field bitWidth (maskedBits bitWidth q)

theorem length_packedBits (qs : List ℤ) : (packedBits bitWidth qs).length =
    qs.length * bitWidth := by
  simp [packedBits, List.length_flatMap]

theorem packMantissas_spec (qs : List ℤ) (hold : Holds buf bits)
    (hfit : bits.length + qs.length * bitWidth ≤ 8 * buf.length) :
    ∃ packed, packMantissas bitWidth qs bits.length buf = .ok packed ∧ packed.length = buf.length ∧
      Holds packed (bits ++ packedBits bitWidth qs) := by
  induction qs generalizing buf bits with
  | nil => exact ⟨buf, rfl, rfl, by simpa [packedBits] using hold⟩
  | cons q rest ih =>
    rw [List.length_cons, Nat.succ_mul] at hfit
    obtain ⟨next, hwrite, hlen, hnext⟩ := @write_spec BfpError buf bits bitWidth hold (by omega)
      (maskedBits bitWidth q)
    obtain ⟨packed, hpack, hlen', hpacked⟩ := ih hnext (by
      rw [List.length_append, length_field]
      omega)
    rw [List.length_append, length_field] at hpack
    refine ⟨packed, ?_, hlen'.trans hlen, ?_⟩
    · rw [packMantissas, hwrite, Checked.ok_bind, hpack]
    · rwa [List.append_assoc] at hpacked

theorem readSamples_spec (f : ℤ → ℤ) (hw : 6 ≤ bitWidth ∧ bitWidth ≤ 15) (hold : Holds buf bits)
    (hfit : bits.length ≤ 8 * buf.length)
    (hf : ∀ x ∈ components samples, -2 ^ (bitWidth - 1) ≤ f x ∧ f x ≤ 2 ^ (bitWidth - 1) - 1)
    (hdrop : bits.drop pos = packedBits bitWidth ((components samples).map f)) :
    readSamples buf bitWidth e samples.length pos =
      .ok (samples.map fun s => ⟨reconstruct e (f s.i.toInt), reconstruct e (f s.q.toInt)⟩) := by
  induction samples generalizing pos with
  | nil => rfl
  | cons s rest ih =>
    have hcomponents : components (s :: rest) = s.i.toInt :: s.q.toInt :: components rest := rfl
    rw [hcomponents] at hf hdrop
    rw [List.map_cons, List.map_cons, packedBits, List.flatMap_cons, List.flatMap_cons] at hdrop
    have hi := @read_of_drop BfpError _ _ _ _ _ _ hold hfit hdrop
    have hdrop' := congrArg (List.drop bitWidth) hdrop
    rw [List.drop_drop, List.drop_left' length_field] at hdrop'
    have hq := @read_of_drop BfpError _ _ _ _ _ _ hold hfit hdrop'
    have hdrop'' := congrArg (List.drop bitWidth) hdrop'
    rw [List.drop_drop, List.drop_left' length_field] at hdrop''
    rw [Nat.mod_eq_of_lt (maskedBits_lt hw.2)] at hi hq
    rw [List.length_cons, readSamples, hi, Checked.ok_bind, hq, Checked.ok_bind,
      ih (fun x hx => hf x (List.mem_cons_of_mem _ (List.mem_cons_of_mem _ hx))) hdrop'',
      Checked.ok_bind, signExtend_maskedBits hw (hf _ List.mem_cons_self),
      signExtend_maskedBits hw (hf _ (List.mem_cons_of_mem _ List.mem_cons_self)), List.map_cons]

theorem holds_replicate (n : ℕ) : Holds (List.replicate n 0) [] := fun t b h => by cases h

theorem components_restored
    (h : ∀ x ∈ components samples, -32768 ≤ roundDown e x ∧ roundDown e x ≤ 32767) :
    components (samples.map fun s => ⟨reconstruct e (s.i.toInt / 2 ^ e),
      reconstruct e (s.q.toInt / 2 ^ e)⟩) =
      (components samples).map (roundDown e) := by
  induction samples with
  | nil => rfl
  | cons s rest ih =>
    have hcomponents : ∀ (s : ComplexIq) rest, components (s :: rest) = s.i.toInt :: s.q.toInt ::
        components rest :=
      fun _ _ => rfl
    rw [hcomponents] at h ⊢
    rw [List.map_cons, hcomponents, ih fun x hx =>
      h x (List.mem_cons_of_mem _ (List.mem_cons_of_mem _ hx)),
      toInt_reconstruct (h _ List.mem_cons_self),
      toInt_reconstruct (h _ (List.mem_cons_of_mem _ List.mem_cons_self))]
    rfl

/-- Packing the mantissas and reading them again. -/
theorem compress_unpack (hlen : samples.length = 12) (hw : 6 ≤ bitWidth ∧ bitWidth ≤ 15)
    (hfit : ∀ x ∈ components samples, x.natAbs >>> e ≤ 2 ^ (bitWidth - 1) - 1) (he : e ≤ 15) :
    ∃ buf packed, write (List.replicate (totalBytes bitWidth) 0) 0 4 (e &&& 0x0F) =
      (.ok buf : Checked BfpError _) ∧
      packMantissas bitWidth ((components samples).map (quantize bitWidth e)) 4 buf = .ok packed ∧
      packed.length = totalBytes bitWidth ∧ (read packed 0 4 : Checked BfpError ℕ) = .ok e ∧
      readSamples packed bitWidth e rePerPrb 4 =
        .ok (samples.map fun s => ⟨reconstruct e (s.i.toInt / 2 ^ e),
          reconstruct e (s.q.toInt / 2 ^ e)⟩) := by
  have hbounds : ∀ x ∈ components samples, -2 ^ (bitWidth - 1) ≤ x / 2 ^ e ∧
      x / 2 ^ e ≤ 2 ^ (bitWidth - 1) - 1 :=
    fun x hx => (shifted_bounds (mem_components hx) (hfit x hx) he).2.1
  have hquantize : (components samples).map (quantize bitWidth e) =
      (components samples).map (· / 2 ^ e) :=
    List.map_congr_left fun x hx => quantize_eq (hbounds x hx)
  have hcount : (components samples).length = 24 := by
    simp [components, List.length_flatMap, hlen]
  have hbytes : 4 + 24 * bitWidth ≤ 8 * totalBytes bitWidth := by
    unfold totalBytes
    omega
  have hexp : e &&& 0x0F = e := by
    rw [show 0x0F = 2 ^ 4 - 1 from rfl, Nat.and_two_pow_sub_one_eq_mod]
    omega
  obtain ⟨buf, hwrite, hbuf, hhold⟩ := @write_spec BfpError
    (List.replicate (totalBytes bitWidth) 0) [] 4
    (holds_replicate _) (by simp; omega) e
  rw [List.length_replicate] at hbuf
  rw [List.nil_append] at hhold
  have hsize : (field 4 e).length + ((components samples).map (· / 2 ^ e)).length * bitWidth ≤
      8 * buf.length := by
    rw [length_field, List.length_map, hcount, hbuf]
    omega
  obtain ⟨packed, hpack, hlen', hpacked⟩ := @packMantissas_spec bitWidth buf (field 4 e)
    ((components samples).map (· / 2 ^ e)) hhold hsize
  rw [length_field] at hpack
  have htotal : (field 4 e ++ packedBits bitWidth ((components samples).map (· / 2 ^ e))).length ≤
      8 * packed.length := by
    rw [List.length_append, length_packedBits, hlen']
    exact hsize
  rw [hexp, hquantize]
  refine ⟨buf, packed, hwrite, hpack, hlen'.trans hbuf, ?_, ?_⟩
  · rw [read_of_drop hpacked htotal List.drop_zero, Nat.mod_eq_of_lt (by omega)]
  · rw [rePerPrb, ← hlen]
    exact readSamples_spec (· / 2 ^ e) hw hpacked htotal hbounds (List.drop_left' length_field)

/-- A block of twelve samples comes back with every component rounded down to a multiple of the
power of two whose exponent is the least that makes all magnitudes fit the mantissa; nothing is
clamped and no bit lies outside the buffer. -/
theorem compress_roundtrip (prbIndex : UInt16) (hlen : samples.length = 12)
    (hw : 6 ≤ bitWidth ∧ bitWidth ≤ 15) :
    ∃ block restored, compressPrb prbIndex samples bitWidth = .ok block ∧
      decompressPrb block = .ok restored ∧
      IsLeast {k | ∀ x ∈ components samples, x.natAbs >>> k ≤
        2 ^ (bitWidth - 1) - 1} block.exponent ∧
      components restored = (components samples).map (roundDown block.exponent) ∧
      ∀ x ∈ components samples,
        (0 ≤ x - roundDown block.exponent x ∧ x - roundDown block.exponent x < 2 ^ block.exponent) ∧
        (-2 ^ (bitWidth - 1) ≤ x >>> block.exponent ∧
          x >>> block.exponent ≤ 2 ^ (bitWidth - 1) - 1) ∧
        -32768 ≤ roundDown block.exponent x ∧ roundDown block.exponent x ≤ 32767 := by
  obtain ⟨hleast, he⟩ := @exponent_spec samples bitWidth _ hw.1 rfl
  generalize hexp : findExponent (maxVal samples) (2 ^ (bitWidth - 1) - 1) 0 = e at hleast he
  have hbounds : ∀ x ∈ components samples, _ := fun x hx =>
    shifted_bounds (mem_components hx) (hleast.1 x hx) he
  have hwidth : ¬ (bitWidth < 6 ∨ 15 < bitWidth) := by omega
  obtain ⟨buf, packed, hwrite, hpack, hbytes, hread, hunpack⟩ := compress_unpack hlen hw hleast.1 he
  refine ⟨⟨prbIndex, e, bitWidth, packed⟩, _, ?_, ?_, hleast, components_restored fun x hx =>
    (hbounds x hx).2.2, ?_⟩
  · have hcount : ¬ samples.length ≠ rePerPrb := not_not.mpr hlen
    rw [compressPrb, if_neg hcount, if_neg hwidth]
    dsimp only
    rw [hexp, hwrite, Checked.ok_bind, hpack, Checked.ok_bind]
  · rw [decompressPrb, if_neg hwidth, if_neg (by rw [hbytes]; exact lt_irrefl _), hread,
      Checked.ok_bind]
    exact hunpack
  · intro x hx
    rw [Int.shiftRight_eq_div_pow]
    exact_mod_cast hbounds x hx

/-- The largest magnitude, at the narrowest width. -/
theorem compress_roundtrip_lowest :
    ∃ block restored, compressPrb 0 (List.replicate 12 ⟨-32768, 5⟩) 6 = .ok block ∧
      decompressPrb block = .ok restored ∧
      components restored = (components (List.replicate 12 ⟨-32768, 5⟩)).map
        (roundDown block.exponent) := by
  obtain ⟨block, restored, hcompress, hdecompress, -, hrestored, -⟩ :=
    @compress_roundtrip (List.replicate 12 ⟨-32768, 5⟩) 6 0 List.length_replicate (by decide)
  exact ⟨block, restored, hcompress, hdecompress, hrestored⟩

end

end ToyTcpip.Bfp
