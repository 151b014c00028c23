import ToyTcpip.Lib.Checked

/-! Least significant bits in windows, of `nr_rohc_engine.rs`. -/
namespace ToyTcpip.Rohc

/-- Shifting by 32 or more is a fault. -/
def wlsbEncode (val : UInt32) (k : UInt8) : Checked Empty UInt32 :=
  if k.toNat < 32 then
    let mask : UInt32 := (1 <<< k.toUInt32) - 1
    .ok (val &&& mask)
  else .panic

/-- Shifting by 64 or more is a fault, and so is an offset that exceeds the window. -/
def wlsbDecode (vRef lsb : UInt32) (k : UInt8) (p : UInt32) : Checked Empty UInt32 :=
  if k.toNat < 64 then
    let m : UInt64 := 1 <<< k.toUInt64
    let vRefMod := vRef.toUInt64 &&& (m - 1)
    let delta := (lsb.toUInt64 - vRefMod) &&& (m - 1)
    if m - 1 < p.toUInt64 then .panic
    else if m - 1 - p.toUInt64 < delta then .ok (vRef.toUInt64 + delta - m).toUInt32
    else .ok (vRef.toUInt64 + delta).toUInt32
  else .panic

section

variable {k : UInt8} {v vRef p : UInt32} {d : ℕ}

theorem toNat_mask (hk : k.toNat < 32) :
    (((1 : UInt32) <<< k.toUInt32) - 1).toNat = 2 ^ k.toNat - 1 := by
  have hpow : 2 ^ k.toNat < 2 ^ 32 := Nat.pow_lt_pow_right (by decide) hk
  have hone : 1 ≤ 2 ^ k.toNat := Nat.one_le_two_pow
  rw [UInt32.toNat_sub, UInt32.toNat_shiftLeft, UInt8.toNat_toUInt32, Nat.mod_eq_of_lt hk,
    Nat.shiftLeft_eq]
  simp only [UInt32.reduceToNat, one_mul]
  omega

theorem toNat_window (hk : k.toNat < 32) : ((1 : UInt64) <<< k.toUInt64).toNat = 2 ^ k.toNat := by
  have hpow : 2 ^ k.toNat < 2 ^ 32 := Nat.pow_lt_pow_right (by decide) hk
  rw [UInt64.toNat_shiftLeft, UInt8.toNat_toUInt64, Nat.mod_eq_of_lt (by omega : k.toNat < 64),
    Nat.shiftLeft_eq, UInt64.toNat_one, one_mul, Nat.mod_eq_of_lt (hpow.trans (by decide))]

theorem wlsbEncode_eq (hk : k.toNat < 32) :
    ∃ lsb, wlsbEncode v k = .ok lsb ∧ lsb.toNat = v.toNat % 2 ^ k.toNat := by
  refine ⟨_, if_pos hk, ?_⟩
  rw [UInt32.toNat_and, toNat_mask hk, Nat.and_two_pow_sub_one_eq_mod]

/-- The distance from the reference, cut to the window, is that from the window's start less the
offset. -/
theorem delta_add_offset {A B m delta r p d : ℕ} (hA : m ∣ A) (hB : m ∣ B)
    (hmA : m ≤ A) (hpB : p ≤ B) (hp : p < m) (hd : d < m)
    (hdelta : delta = (A - r % m + (B - p + r + d) % B % m) % A % m) :
    delta + p = d ∨ delta + p = d + m := by
  have hr := Nat.mod_lt r (by omega : 0 < m)
  have hcast : ((A - r % m + (B - p + r + d) + p : ℕ) : ℤ) ≡ d [ZMOD m] := by
    have hA0 : (A : ℤ) ≡ 0 [ZMOD m] := Int.modEq_zero_iff_dvd.mpr (by exact_mod_cast hA)
    have hB0 : (B : ℤ) ≡ 0 [ZMOD m] := Int.modEq_zero_iff_dvd.mpr (by exact_mod_cast hB)
    push_cast [Nat.cast_sub hpB, Nat.cast_sub (hr.le.trans hmA)]
    calc ((A : ℤ) - r % m + (B - p + r + d) + p)
        ≡ 0 - r + (0 - p + r + d) + p [ZMOD m] :=
          ((hA0.sub (Int.mod_modEq _ _)).add (((hB0.sub rfl).add rfl).add rfl)).add rfl
      _ = d := by ring
  have hmod : (delta + p) % m = d := by
    have hnat := Int.natCast_modEq_iff.mp hcast
    rw [Nat.ModEq, Nat.mod_eq_of_lt hd] at hnat
    rw [hdelta, Nat.mod_mod_of_dvd _ hA, Nat.mod_mod_of_dvd _ hB, Nat.add_mod_mod,
      Nat.mod_add_mod, hnat]
  have hlt : delta < m := hdelta ▸ Nat.mod_lt _ (by omega)
  rcases lt_or_ge (delta + p) m with h | h
  · exact .inl ((Nat.mod_eq_of_lt h).symm.trans hmod)
  · rw [Nat.mod_eq_sub_mod h, Nat.mod_eq_of_lt (by omega)] at hmod
    omega

/-- A value inside the window around the reference is decoded from its last bits, also where the
window wraps round. -/
theorem wlsb_roundtrip (hk : 1 ≤ k.toNat ∧ k.toNat ≤ 31) (hp : p.toNat < 2 ^ k.toNat)
    (hd : d < 2 ^ k.toNat) (hv : v = vRef - p + UInt32.ofNat d) :
    (wlsbEncode v k).bind (fun lsb => wlsbDecode vRef lsb k p) = .ok v := by
  obtain ⟨lsb, hlsb, hlow⟩ := @wlsbEncode_eq k v (by omega)
  have hm := toNat_window (by omega : k.toNat < 32)
  have hpow : 2 ^ k.toNat ≤ 2 ^ 31 := Nat.pow_le_pow_right (by decide) hk.2
  have hmask : ((1 : UInt64) <<< k.toUInt64 - 1).toNat = 2 ^ k.toNat - 1 := by
    have hone : 1 ≤ 2 ^ k.toNat := Nat.one_le_two_pow
    rw [UInt64.toNat_sub_of_le, hm, UInt64.toNat_one]
    rw [UInt64.le_iff_toNat_le, hm]
    exact hone
  have hB : 2 ^ k.toNat ∣ 2 ^ 32 := Nat.pow_dvd_pow 2 (by omega)
  have hA : 2 ^ k.toNat ∣ 2 ^ 64 := Nat.pow_dvd_pow 2 (by omega)
  have hvnat : v.toNat = (2 ^ 32 - p.toNat + vRef.toNat + d) % 2 ^ 32 := by
    rw [hv, UInt32.toNat_add, UInt32.toNat_sub, UInt32.toNat_ofNat']
    omega
  rw [hlsb, Checked.ok_bind, wlsbDecode, if_pos (by omega)]
  dsimp only
  generalize hdel : (lsb.toUInt64 - (vRef.toUInt64 &&& ((1 : UInt64) <<< k.toUInt64 - 1))) &&&
    ((1 : UInt64) <<< k.toUInt64 - 1) = delta
  have hdelta : delta.toNat = (2 ^ 64 - vRef.toNat % 2 ^ k.toNat + v.toNat % 2 ^ k.toNat) % 2 ^ 64 %
      2 ^ k.toNat := by
    rw [← hdel, UInt64.toNat_and, hmask, Nat.and_two_pow_sub_one_eq_mod, UInt64.toNat_sub,
      UInt64.toNat_and, hmask, Nat.and_two_pow_sub_one_eq_mod, UInt32.toNat_toUInt64,
      UInt32.toNat_toUInt64, hlow]
  have hsum := delta_add_offset hA hB (by omega) (by omega) hp hd (hvnat ▸ hdelta)
  have hlt : delta.toNat < 2 ^ k.toNat := hdelta ▸ Nat.mod_lt _ (by omega)
  have hp64 : p.toUInt64.toNat = p.toNat := UInt32.toNat_toUInt64 p
  have hvlt := vRef.toNat_lt
  have hwindow : ((1 : UInt64) <<< k.toUInt64 - 1 - p.toUInt64).toNat =
      2 ^ k.toNat - 1 - p.toNat := by
    rw [UInt64.toNat_sub_of_le, hmask, hp64]
    rw [UInt64.le_iff_toNat_le, hmask, hp64]
    omega
  rw [if_neg (by rw [UInt64.lt_iff_toNat_lt, hmask, hp64]; omega)]
  split_ifs with hback
  · rw [UInt64.lt_iff_toNat_lt, hwindow] at hback
    congr 1
    apply UInt32.toNat_inj.mp
    rw [UInt64.toNat_toUInt32, UInt64.toNat_sub, UInt64.toNat_add, UInt32.toNat_toUInt64, hm, hvnat]
    omega
  · rw [UInt64.lt_iff_toNat_lt, hwindow] at hback
    congr 1
    apply UInt32.toNat_inj.mp
    rw [UInt64.toNat_toUInt32, UInt64.toNat_add, UInt32.toNat_toUInt64, hvnat]
    omega

/-- A window that wraps round: the reference is 3, the value four below it. -/
theorem wlsb_roundtrip_wrapped :
    (wlsbEncode 0xFFFFFFFF 4).bind (fun lsb => wlsbDecode 3 lsb 4 6) = .ok 0xFFFFFFFF :=
  @wlsb_roundtrip 4 0xFFFFFFFF 3 6 2 (by decide) (by decide) (by decide) (by decide)

end

end ToyTcpip.Rohc
