import Mathlib.Tactic

/-! RFC 1071 checksum of `checksum.rs`. Sums are `u32` values kept as naturals below `2 ^ 32`. -/
namespace ToyTcpip

/-- `u32::wrapping_add`. -/
def wrappingAdd (a b : ℕ) : ℕ := (a + b) % 2 ^ 32

/-- `u16::from_be_bytes`. -/
def beWord (hi lo : UInt8) : ℕ := hi.toNat * 256 + lo.toNat

/-- `u16::to_be_bytes`. -/
def toBeBytes16 (n : ℕ) : List UInt8 := [UInt8.ofNat (n / 256), UInt8.ofNat n]

/-- `u32::to_be_bytes`. -/
def toBeBytes32 (n : ℕ) : List UInt8 :=
  [UInt8.ofNat (n / 2 ^ 24), UInt8.ofNat (n / 2 ^ 16), UInt8.ofNat (n / 2 ^ 8), UInt8.ofNat n]

/-- The sum of the big-endian words of a buffer, an odd last byte padded with zero. -/
def rawChecksumFrom (sum : ℕ) : List UInt8 → ℕ
  | [] => sum
  | [a] => wrappingAdd sum (beWord a 0)
  | a :: b :: rest => rawChecksumFrom (wrappingAdd sum (beWord a b)) rest

def rawChecksum (data : List UInt8) : ℕ := rawChecksumFrom 0 data

/-- The carry-folding loop. A `u32` folds to 16 bits in two rounds (`foldCarry_lt`), so the
loop's exit test is met by the time the rounds run out. -/
def foldCarry : ℕ → ℕ → ℕ
  | 0, sum => sum
  | rounds + 1, sum =>
    if sum / 2 ^ 16 = 0 then sum else foldCarry rounds (sum % 2 ^ 16 + sum / 2 ^ 16)

/-- `!(sum as u16)` after folding. -/
def finalizeChecksum (sum : ℕ) : ℕ := 65535 - foldCarry 2 sum % 2 ^ 16

def computeChecksum (data : List UInt8) : ℕ := finalizeChecksum (rawChecksum data)

def verifyChecksum (data : List UInt8) : Bool :=
  let sum := foldCarry 2 (rawChecksum data)
  sum = 0xFFFF || sum = 0

/-- The pseudo-header sum the transport checksums start from. -/
def pseudoHeaderSum (srcIp dstIp : List UInt8) (protocol : UInt8) (len : ℕ) : ℕ :=
  let sum := rawChecksumFrom 0 srcIp
  let sum := rawChecksumFrom sum dstIp
  wrappingAdd (wrappingAdd sum protocol.toNat) (len % 2 ^ 16)

def computeIpv4TransportChecksum (srcIp dstIp : List UInt8) (protocol : UInt8)
    (segment : List UInt8) : ℕ :=
  let sum := wrappingAdd (pseudoHeaderSum srcIp dstIp protocol segment.length) (rawChecksum segment)
  let result := finalizeChecksum sum
  if protocol = 17 ∧ result = 0 then 0xFFFF else result

def verifyIpv4TransportChecksum (srcIp dstIp : List UInt8) (protocol : UInt8)
    (segment : List UInt8) : Bool :=
  let sum := wrappingAdd (pseudoHeaderSum srcIp dstIp protocol segment.length) (rawChecksum segment)
  let sum := foldCarry 2 sum
  sum = 0xFFFF || sum = 0

/-- Two folding rounds bring every `u32` below `2 ^ 16`. -/
theorem foldCarry_lt {sum : ℕ} (h : sum < 2 ^ 32) : foldCarry 2 sum < 2 ^ 16 := by
  simp only [foldCarry]
  split_ifs <;> omega

/-- Folding keeps the sum modulo `65535` and does not lose it to zero. -/
theorem foldCarry_mod {sum : ℕ} (h : sum < 2 ^ 32) (hpos : 0 < sum) :
    foldCarry 2 sum % 65535 = sum % 65535 ∧ 0 < foldCarry 2 sum := by
  simp only [foldCarry]
  split_ifs <;> omega

theorem finalizeChecksum_lt (sum : ℕ) : finalizeChecksum sum < 65536 := by
  unfold finalizeChecksum
  omega

/-- The words of a buffer and their checksum fold to all ones. -/
theorem foldCarry_add_finalizeChecksum {sum : ℕ} (hpos : 0 < sum) (h : sum + 65535 < 2 ^ 32) :
    foldCarry 2 (sum + finalizeChecksum sum) = 65535 := by
  have hsum : sum < 2 ^ 32 := by omega
  have hall : sum + finalizeChecksum sum < 2 ^ 32 := by
    have := finalizeChecksum_lt sum
    omega
  have hlt := foldCarry_lt hsum
  have hlt' := foldCarry_lt hall
  obtain ⟨hmod, hp⟩ := foldCarry_mod hsum hpos
  obtain ⟨hmod', hp'⟩ := foldCarry_mod hall (by omega)
  unfold finalizeChecksum at *
  omega

theorem beWord_toBeBytes16 {n : ℕ} (h : n < 65536) :
    beWord (UInt8.ofNat (n / 256)) (UInt8.ofNat n) = n := by
  simp [beWord]
  omega

theorem beWord_lt (hi lo : UInt8) : beWord hi lo < 65536 := by
  have := hi.toNat_lt
  have := lo.toNat_lt
  unfold beWord
  omega

theorem toBeBytes16_of_beWord (hi lo : UInt8) : toBeBytes16 (beWord hi lo) = [hi, lo] := by
  have := hi.toNat_lt
  have := lo.toNat_lt
  simp only [toBeBytes16, beWord, List.cons.injEq, and_true]
  constructor <;> apply UInt8.toNat_inj.mp <;> rw [UInt8.toNat_ofNat'] <;> omega

/-! ### The sum of the words -/

/-- `rawChecksum` before it is reduced to a `u32`. -/
def wordSum : List UInt8 → ℕ
  | [] => 0
  | [a] => beWord a 0
  | a :: b :: rest => beWord a b + wordSum rest

theorem rawChecksumFrom_eq {sum : ℕ} (h : sum < 2 ^ 32) (data : List UInt8) :
    rawChecksumFrom sum data = (sum + wordSum data) % 2 ^ 32 := by
  fun_induction rawChecksumFrom sum data with
  | case1 sum => rw [wordSum, Nat.add_zero, Nat.mod_eq_of_lt h]
  | case2 sum a => rfl
  | case3 sum a b rest ih =>
    rw [ih (Nat.mod_lt _ (by decide)), wordSum, wrappingAdd]
    omega

theorem wordSum_append (pre post : List UInt8) (h : pre.length % 2 = 0) :
    wordSum (pre ++ post) = wordSum pre + wordSum post := by
  fun_induction wordSum pre with
  | case1 => simp
  | case2 a => simp at h
  | case3 a b rest ih =>
    have hrest : rest.length % 2 = 0 := by
      simp at h
      omega
    rw [List.cons_append, List.cons_append, wordSum, ih hrest, Nat.add_assoc]

theorem wordSum_le (data : List UInt8) : wordSum data ≤ 65535 * data.length := by
  fun_induction wordSum data with
  | case1 => simp
  | case2 a =>
    have := beWord_lt a 0
    simp
    omega
  | case3 a b rest ih =>
    have := beWord_lt a b
    simp only [List.length_cons]
    omega

theorem pseudoHeaderSum_eq (a b c d a' b' c' d' protocol : UInt8) (len : ℕ) :
    pseudoHeaderSum [a, b, c, d] [a', b', c', d'] protocol len =
      beWord a b + beWord c d + beWord a' b' + beWord c' d' + protocol.toNat + len % 2 ^ 16 := by
  have h₁ := beWord_lt a b
  have h₂ := beWord_lt c d
  have h₃ := beWord_lt a' b'
  have h₄ := beWord_lt c' d'
  have h₅ := protocol.toNat_lt
  simp only [pseudoHeaderSum, rawChecksumFrom, wrappingAdd]
  omega

/-- A transport checksum written where it was computed as zero verifies. -/
theorem verifyIpv4TransportChecksum_computed (a b c d a' b' c' d' : UInt8) {protocol : UInt8}
    (hpos : 0 < protocol.toNat) (hudp : protocol ≠ 17) (pre post : List UInt8)
    (heven : pre.length % 2 = 0) (hlen : pre.length + 2 + post.length ≤ 65515) :
    let csum := computeIpv4TransportChecksum [a, b, c, d] [a', b', c', d'] protocol
      (pre ++ (toBeBytes16 0 ++ post))
    verifyIpv4TransportChecksum [a, b, c, d] [a', b', c', d'] protocol
      (pre ++ (toBeBytes16 csum ++ post)) = true := by
  intro csum
  have hword : ∀ n < 65536, wordSum (pre ++ (toBeBytes16 n ++ post)) =
      wordSum pre + (n + wordSum post) := by
    intro n hn
    rw [wordSum_append _ _ heven, toBeBytes16, List.cons_append, List.cons_append, List.nil_append,
      wordSum, beWord_toBeBytes16 hn]
  have hlength : ∀ n, (pre ++ (toBeBytes16 n ++ post)).length = pre.length + 2 + post.length := by
    intro n
    simp [toBeBytes16]
    omega
  have h₁ := beWord_lt a b
  have h₂ := beWord_lt c d
  have h₃ := beWord_lt a' b'
  have h₄ := beWord_lt c' d'
  have h₅ := protocol.toNat_lt
  have hpre := wordSum_le pre
  have hpost := wordSum_le post
  -- the sum the checksum is computed from
  generalize hs : beWord a b + beWord c d + beWord a' b' + beWord c' d' + protocol.toNat +
    (pre.length + 2 + post.length) + wordSum pre + wordSum post = sum
  have hsum : sum + 65535 < 2 ^ 32 := by omega
  have hcsum : csum = finalizeChecksum sum := by
    simp only [csum, computeIpv4TransportChecksum, pseudoHeaderSum_eq, hlength, rawChecksum,
      @rawChecksumFrom_eq 0 (by decide), hword 0 (by decide), wrappingAdd, hudp, false_and,
      if_false]
    congr 1
    omega
  have hlt := finalizeChecksum_lt sum
  have hall := @foldCarry_add_finalizeChecksum sum (by omega) hsum
  have hfold : foldCarry 2 (wrappingAdd (pseudoHeaderSum [a, b, c, d] [a', b', c', d'] protocol
      (pre.length + 2 + post.length)) (rawChecksum
        (pre ++ (toBeBytes16 csum ++ post)))) = 65535 := by
    rw [← hall, pseudoHeaderSum_eq, rawChecksum, rawChecksumFrom_eq (by decide),
      hword csum (hcsum ▸ hlt), hcsum, wrappingAdd]
    congr 1
    omega
  simp only [verifyIpv4TransportChecksum, hlength, hfold]
  rfl

end ToyTcpip
