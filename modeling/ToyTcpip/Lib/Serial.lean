import Mathlib.Data.BitVec
import Mathlib.Tactic

/-! Serial numbers: `w`-bit counters read relative to an unbounded position. -/
namespace Serial

variable {w : ℕ}

/-- The serial number `k` places after `base`. -/
def pos (base : BitVec w) (k : ℕ) : BitVec w := base + BitVec.ofNat w k

@[simp] theorem pos_zero (b : BitVec w) : pos b 0 = b := by simp [pos]

theorem pos_add_ofNat (b : BitVec w) (i j : ℕ) : pos b i + BitVec.ofNat w j = pos b (i + j) := by
  simp [pos, BitVec.ofNat_add, BitVec.add_assoc]

theorem pos_pos (b : BitVec w) (i j : ℕ) : pos (pos b i) j = pos b (i + j) :=
  pos_add_ofNat b i j

theorem pos_sub_pos_of_le (b : BitVec w) {i j : ℕ} (h : j ≤ i) :
    pos b i - pos b j = BitVec.ofNat w (i - j) := by
  obtain ⟨k, rfl⟩ := Nat.exists_eq_add_of_le h
  rw [← pos_add_ofNat, Nat.add_sub_cancel_left]
  exact add_sub_cancel_left _ _

theorem toNat_pos_sub_pos (b : BitVec w) {i j : ℕ} (h : j ≤ i) (hw : i - j < 2 ^ w) :
    (pos b i - pos b j).toNat = i - j := by
  rw [pos_sub_pos_of_le b h, BitVec.toNat_ofNat, Nat.mod_eq_of_lt hw]

/-- Every serial number is a position, counted forward from any other one. -/
theorem eq_pos (b x : BitVec w) : x = pos b (x - b).toNat := by
  rw [pos, BitVec.ofNat_toNat, BitVec.setWidth_eq]
  exact (add_sub_cancel b x).symm

theorem eq_pos_add (b x : BitVec w) (j : ℕ) : x = pos b (j + (x - pos b j).toNat) := by
  rw [← pos_pos]
  exact eq_pos (pos b j) x

/-- Signed distance recovers the order of two positions at most half the space apart. -/
theorem toInt_pos_sub_pos (hw : 0 < w) (b : BitVec w) {i j : ℕ}
    (hlo : (j : ℤ) - i ≤ 2 ^ (w - 1)) (hhi : (i : ℤ) - j < 2 ^ (w - 1)) :
    (pos b i - pos b j).toInt = i - j := by
  have hsub : pos b i - pos b j = BitVec.ofInt w (i - j) := by
    apply sub_eq_of_eq_add
    have hi : (BitVec.ofNat w i) = BitVec.ofInt w i := (BitVec.ofInt_natCast w i).symm
    have hj : (BitVec.ofNat w j) = BitVec.ofInt w j := (BitVec.ofInt_natCast w j).symm
    rw [pos, pos, hi, hj, add_left_comm, ← BitVec.ofInt_add]
    simp
  obtain ⟨v, rfl⟩ := Nat.exists_eq_add_of_lt hw
  simp only [Nat.zero_add, Nat.add_sub_cancel] at hlo hhi
  rw [hsub, BitVec.toInt_ofInt]
  apply Int.bmod_eq_of_le
  · rw [Nat.zero_add, Nat.pow_succ]
    push_cast
    omega
  · rw [Nat.zero_add, Nat.pow_succ]
    push_cast
    omega

theorem pos_inj (b : BitVec w) {i j : ℕ} (h : i ≤ j) (hw : j - i < 2 ^ w) :
    pos b i = pos b j ↔ i = j := by
  refine ⟨fun he => ?_, fun he => he ▸ rfl⟩
  have hs := toNat_pos_sub_pos b h hw
  rw [← he, sub_self] at hs
  simp at hs
  omega

end Serial
