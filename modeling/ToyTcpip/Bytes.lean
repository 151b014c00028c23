import ToyTcpip.Checksum
import ToyTcpip.Lib.Checked

/-! Big-endian numbers in a buffer, with every read checked. -/
namespace ToyTcpip

open Checked (index Safe safe_ok safe_index index_append_right)

variable {ε : Type} {data : List UInt8} {off : ℕ}

def read16 (data : List UInt8) (off : ℕ) : Checked ε (BitVec 16) := do
  let a ← index data off
  let b ← index data (off + 1)
  .ok (BitVec.ofNat 16 (beWord a b))

def read32 (data : List UInt8) (off : ℕ) : Checked ε (BitVec 32) := do
  let a ← index data off
  let b ← index data (off + 1)
  let c ← index data (off + 2)
  let d ← index data (off + 3)
  .ok (BitVec.ofNat 32 (beWord a b * 65536 + beWord c d))

theorem safe_read16 (h : off + 2 ≤ data.length) :
    Safe (read16 data off : Checked ε (BitVec 16)) := by
  simp only [read16, Checked.bind_def]
  refine (safe_index (by omega)).bind fun a _ => ?_
  exact (safe_index (by omega)).bind fun b _ => safe_ok _

theorem safe_read32 (h : off + 4 ≤ data.length) :
    Safe (read32 data off : Checked ε (BitVec 32)) := by
  simp only [read32, Checked.bind_def]
  refine (safe_index (by omega)).bind fun a _ => ?_
  refine (safe_index (by omega)).bind fun b _ => ?_
  refine (safe_index (by omega)).bind fun c _ => ?_
  exact (safe_index (by omega)).bind fun d _ => safe_ok _

theorem index_at (pre post : List UInt8) (b : UInt8) :
    (index (pre ++ b :: post) pre.length : Checked ε UInt8) = .ok b :=
  index_append_right pre (b :: post) 0

theorem ofNat_beWord (n : BitVec 16) :
    BitVec.ofNat 16 (beWord (UInt8.ofNat (n.toNat / 256)) (UInt8.ofNat n.toNat)) = n := by
  rw [beWord_toBeBytes16 n.isLt, BitVec.ofNat_toNat, BitVec.setWidth_eq]

theorem ofNat_beWords (n : BitVec 32) :
    BitVec.ofNat 32 (beWord (UInt8.ofNat (n.toNat / 2 ^ 24))
      (UInt8.ofNat (n.toNat / 2 ^ 16)) * 65536 +
      beWord (UInt8.ofNat (n.toNat / 2 ^ 8)) (UInt8.ofNat n.toNat)) = n := by
  have hlt := n.isLt
  apply BitVec.eq_of_toNat_eq
  simp only [beWord, UInt8.toNat_ofNat', BitVec.toNat_ofNat]
  omega

theorem read16_at (pre post : List UInt8) (n : BitVec 16) :
    (read16 (pre ++ (toBeBytes16 n.toNat ++ post)) pre.length : Checked ε (BitVec 16)) = .ok n := by
  simp only [read16, toBeBytes16, List.cons_append, List.nil_append, index_at, Checked.bind_def,
    index_append_right pre _ 1, Checked.index_cons_succ, Checked.index_cons_zero, Checked.ok_bind,
    ofNat_beWord]

theorem read32_at (pre post : List UInt8) (n : BitVec 32) :
    (read32 (pre ++ (toBeBytes32 n.toNat ++ post)) pre.length : Checked ε (BitVec 32)) = .ok n := by
  simp only [read32, toBeBytes32, List.cons_append, List.nil_append, index_at, Checked.bind_def,
    index_append_right pre _ 1, index_append_right pre _ 2, index_append_right pre _ 3,
    Checked.index_cons_succ, Checked.index_cons_zero, Checked.ok_bind, ofNat_beWords]

theorem read16_toBeBytes16 {ε : Type} (n : BitVec 16) :
    (read16 (toBeBytes16 n.toNat) 0 : Checked ε _) = .ok n := by
  simpa using read16_at (ε := ε) [] [] n

theorem read32_toBeBytes32 {ε : Type} (n : BitVec 32) :
    (read32 (toBeBytes32 n.toNat) 0 : Checked ε _) = .ok n := by
  simpa using read32_at (ε := ε) [] [] n

theorem toBeBytes16_beWord (a b : UInt8) :
    toBeBytes16 (BitVec.ofNat 16 (beWord a b)).toNat = [a, b] := by
  rw [BitVec.toNat_ofNat, Nat.mod_eq_of_lt (beWord_lt a b), toBeBytes16_of_beWord]

theorem toBeBytes32_beWords (a b c d : UInt8) :
    toBeBytes32 (BitVec.ofNat 32 (beWord a b * 65536 + beWord c d)).toNat = [a, b, c, d] := by
  have ha := a.toNat_lt
  have hb := b.toNat_lt
  have hc := c.toNat_lt
  have hd := d.toNat_lt
  simp only [toBeBytes32, beWord, BitVec.toNat_ofNat, List.cons.injEq, and_true]
  refine ⟨?_, ?_, ?_, ?_⟩ <;> apply UInt8.toNat_inj.mp <;> rw [UInt8.toNat_ofNat'] <;> omega

theorem length_eq_four {α : Type} {l : List α} (h : l.length = 4) :
    ∃ a b c d, l = [a, b, c, d] := by
  match l, h with
  | [a, b, c, d], _ => exact ⟨a, b, c, d, rfl⟩

theorem drop_add_length {i : ℕ} {a b : List UInt8} (h : data.drop i = a ++ b) :
    data.drop (i + a.length) = b := by
  rw [← List.drop_drop, h, List.drop_left]

theorem read16_of_drop {post : List UInt8} {n : BitVec 16}
    (h : data.drop off = toBeBytes16 n.toNat ++ post) :
    (read16 data off : Checked ε _) = .ok n := by
  have hle : off ≤ data.length := by
    by_contra hlt
    rw [List.drop_eq_nil_of_le (by omega)] at h
    simp [toBeBytes16] at h
  have hread := read16_at (ε := ε) (data.take off) post n
  rwa [← h, List.take_append_drop, List.length_take_of_le hle] at hread

theorem read32_of_drop {post : List UInt8} {n : BitVec 32}
    (h : data.drop off = toBeBytes32 n.toNat ++ post) :
    (read32 data off : Checked ε _) = .ok n := by
  have hle : off ≤ data.length := by
    by_contra hlt
    rw [List.drop_eq_nil_of_le (by omega)] at h
    simp [toBeBytes32] at h
  have hread := read32_at (ε := ε) (data.take off) post n
  rwa [← h, List.take_append_drop, List.length_take_of_le hle] at hread

theorem drop_of_read16 {n : BitVec 16} (h : (read16 data off : Checked ε _) = .ok n) :
    off + 2 ≤ data.length ∧ data.drop off = toBeBytes16 n.toNat ++ data.drop (off + 2) := by
  simp only [read16, Checked.bind_def, Checked.bind_eq_ok] at h
  obtain ⟨a, ha, b, hb, h⟩ := h
  cases h
  obtain ⟨h₀, rfl⟩ := List.getElem?_eq_some_iff.mp (Checked.index_eq_ok.mp ha)
  obtain ⟨h₁, rfl⟩ := List.getElem?_eq_some_iff.mp (Checked.index_eq_ok.mp hb)
  refine ⟨by omega, ?_⟩
  rw [toBeBytes16_beWord, List.drop_eq_getElem_cons h₀, List.drop_eq_getElem_cons h₁]
  rfl

/-! ### The high bit of a byte -/

/-- What holds of all 256 bytes, tried one by one. -/
theorem forall_uint8 {P : UInt8 → Prop} (h : ∀ n : Fin 256, P (UInt8.ofNat n))
    (b : UInt8) : P b := by
  have hb := h ⟨b.toNat, b.toNat_lt⟩
  simpa using hb

theorem toNat_and_127 (b : UInt8) : (b &&& 0x7F).toNat = b.toNat % 128 := by
  rw [UInt8.toNat_and]
  exact Nat.and_two_pow_sub_one_eq_mod b.toNat 7

theorem and_128_eq_zero (b : UInt8) : b &&& 0x80 = 0 ↔ b.toNat < 128 :=
  forall_uint8 (P := fun b => b &&& 0x80 = 0 ↔ b.toNat < 128) (by decide +kernel) b

theorem toNat_or_128 {b : UInt8} (h : b.toNat < 128) : (b ||| 0x80).toNat = b.toNat + 128 :=
  forall_uint8 (P := fun b => b.toNat < 128 → (b ||| 0x80).toNat = b.toNat + 128)
    (by decide +kernel) b h

end ToyTcpip
