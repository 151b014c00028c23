import ToyTcpip.Lib.Checked

/-! Fields of bits in a buffer of bytes, the most significant bit first. -/
namespace BitBuffer

open Checked (index)

variable {ε : Type} {buf buf' : List UInt8} {bits rest : List Bool} {t n pos : ℕ} {v : ℕ} {b : Bool}

/-- The bit at a position. -/
def bitAt (buf : List UInt8) (t : ℕ) : Bool := (buf.getD (t / 8) 0).toBitVec.getLsbD (7 - t % 8)

def putBit (buf : List UInt8) (t : ℕ) (b : Bool) : Checked ε (List UInt8) :=
  (index buf (t / 8)).bind fun byte =>
    let mask : UInt8 := 1 <<< UInt8.ofNat (7 - t % 8)
    .ok (buf.set (t / 8) (if b then byte ||| mask else byte &&& ~~~mask))

def getBit (buf : List UInt8) (t : ℕ) : Checked ε Bool :=
  (index buf (t / 8)).bind fun byte => .ok ((byte >>> UInt8.ofNat (7 - t % 8)) &&& 1 = 1)

/-- The bits of the last `n` places of a number, from position `pos` on. -/
def write (buf : List UInt8) (pos n v : ℕ) : Checked ε (List UInt8) :=
  (List.range n).foldl (fun buf i => buf.bind fun buf =>
    putBit buf (pos + i) (v.testBit (n - 1 - i)))
    (.ok buf)

/-- The number that `n` bits from position `pos` on spell. -/
def read (buf : List UInt8) (pos n : ℕ) : Checked ε ℕ :=
  (List.range n).foldl (fun value i => value.bind fun value =>
    (getBit buf (pos + i)).bind fun b => .ok (2 * value + b.toNat)) (.ok 0)

/-- The bits of the last `n` places of a number. -/
def field (n v : ℕ) : List Bool := (List.range n).map fun i => v.testBit (n - 1 - i)

def value (bits : List Bool) : ℕ := bits.foldl (fun v b => 2 * v + b.toNat) 0

/-- The buffer begins with these bits. -/
def Holds (buf : List UInt8) (bits : List Bool) : Prop := ∀ t b, bits[t]? = some b → bitAt buf t = b

@[simp] theorem length_field : (field n v).length = n := by simp [field]

theorem field_succ : field (n + 1) v = field n (v / 2) ++ [v.testBit 0] := by
  rw [field, List.range_succ, List.map_append, field]
  congr 1
  · refine List.map_congr_left fun i hi => ?_
    have hlt := List.mem_range.mp hi
    rw [← Nat.testBit_succ]
    congr 1
    omega
  · simp

theorem value_append_singleton : value (bits ++ [b]) = 2 * value bits + b.toNat := List.foldl_append

theorem value_field (n v : ℕ) : value (field n v) = v % 2 ^ n := by
  induction n generalizing v with
  | zero => simp [field, value, Nat.mod_one]
  | succ n ih =>
    rw [field_succ, value_append_singleton, ih, pow_succ', Nat.mod_mul, Nat.toNat_testBit, pow_zero,
      Nat.div_one]
    omega

/-! ### One bit -/

theorem bit_or (byte : UInt8) {k j : ℕ} (hk : k < 8) (hj : j < 8) :
    (byte ||| (1 <<< UInt8.ofNat k)).toBitVec.getLsbD j =
      (decide (j = k) || byte.toBitVec.getLsbD j) := by
  have hmask : ∀ k < 8, ∀ j < 8, ((1 : UInt8) <<< UInt8.ofNat k).toBitVec.getLsbD j =
      decide (j = k) := by
    decide
  rw [UInt8.toBitVec_or, BitVec.getLsbD_or, hmask k hk j hj, Bool.or_comm]

theorem bit_and_not (byte : UInt8) {k j : ℕ} (hk : k < 8) (hj : j < 8) :
    (byte &&& ~~~(1 <<< UInt8.ofNat k)).toBitVec.getLsbD j =
      (!decide (j = k) && byte.toBitVec.getLsbD j) := by
  have hmask : ∀ k < 8, ∀ j < 8, (~~~((1 : UInt8) <<< UInt8.ofNat k)).toBitVec.getLsbD j =
      !decide (j = k) := by
    decide
  rw [UInt8.toBitVec_and, BitVec.getLsbD_and, hmask k hk j hj, Bool.and_comm]

theorem shiftRight_and_one (byte : UInt8) {k : ℕ} (hk : k < 8) :
    decide ((byte >>> UInt8.ofNat k) &&& 1 = 1) = byte.toBitVec.getLsbD k := by
  have hnat : ((byte >>> UInt8.ofNat k) &&& 1).toNat = byte.toNat / 2 ^ k % 2 := by
    rw [UInt8.toNat_and, UInt8.toNat_shiftRight, UInt8.toNat_ofNat',
      Nat.mod_mod_of_dvd k (by decide), Nat.mod_eq_of_lt hk, Nat.shiftRight_eq_div_pow]
    exact Nat.and_one_is_mod _
  rw [BitVec.getLsbD, Nat.testBit_eq_decide_div_mod_eq]
  exact decide_eq_decide.2 (by rw [← UInt8.toNat_inj, hnat]; rfl)

theorem index_byte (h : t < 8 * buf.length) :
    (index buf (t / 8) : Checked ε UInt8) = .ok (buf.getD (t / 8) 0) := by
  have hi : t / 8 < buf.length := by omega
  rw [Checked.index_eq_ok, List.getD_eq_getElem?_getD, List.getElem?_eq_getElem hi,
    Option.getD_some]

theorem putBit_spec (b : Bool) (h : t < 8 * buf.length) :
    ∃ buf', (putBit buf t b : Checked ε _) = .ok buf' ∧ buf'.length = buf.length ∧
      ∀ s, bitAt buf' s = if s = t then b else bitAt buf s := by
  refine ⟨_, by rw [putBit, index_byte h, Checked.ok_bind], by simp, fun s => ?_⟩
  by_cases hbyte : s / 8 = t / 8
  · have hset : ∀ x, (buf.set (t / 8) x).getD (s / 8) 0 = x := by
      intro x
      rw [hbyte, List.getD_eq_getElem?_getD, List.getElem?_set_self (by omega), Option.getD_some]
    have hst : s = t ↔ 7 - s % 8 = 7 - t % 8 := by omega
    rw [bitAt, hset, bitAt, hbyte]
    simp only [hst]
    cases b with
    | true =>
      rw [if_pos rfl, bit_or _ (by omega) (by omega)]
      split_ifs with heq <;> simp [heq]
    | false =>
      rw [if_neg (by decide), bit_and_not _ (by omega) (by omega)]
      split_ifs with heq <;> simp [heq]
  · have hne : s ≠ t := fun heq => hbyte (by rw [heq])
    rw [if_neg hne, bitAt, bitAt, List.getD_eq_getElem?_getD, List.getElem?_set_ne (Ne.symm hbyte),
      List.getD_eq_getElem?_getD]

theorem getBit_eq (h : t < 8 * buf.length) : (getBit buf t : Checked ε _) = .ok (bitAt buf t) := by
  rw [getBit, index_byte h, Checked.ok_bind, shiftRight_and_one _ (by omega), bitAt]

/-! ### Fields -/

theorem foldl_putBit (f : ℕ → Bool) (k : ℕ) (h : pos + k ≤ 8 * buf.length) :
    ∃ buf', (List.range k).foldl (fun buf i => buf.bind fun buf => putBit buf (pos + i) (f i))
        (.ok buf : Checked ε _) = .ok buf' ∧ buf'.length = buf.length ∧
      ∀ s, bitAt buf' s = if pos ≤ s ∧ s < pos + k then f (s - pos) else bitAt buf s := by
  induction k with
  | zero =>
    refine ⟨buf, rfl, rfl, fun s => ?_⟩
    rw [if_neg (by omega)]
  | succ k ih =>
    obtain ⟨mid, hmid, hlen, hbits⟩ := ih (by omega)
    obtain ⟨buf', hput, hlen', hbits'⟩ := @putBit_spec ε mid (pos + k) (f k) (by omega)
    refine ⟨buf', ?_, hlen'.trans hlen, fun s => ?_⟩
    · rw [List.range_succ, List.foldl_append, hmid]
      exact hput
    · rw [hbits', hbits]
      by_cases hs : s = pos + k
      · rw [if_pos hs, if_pos (by omega), hs, Nat.add_sub_cancel_left]
      · rw [if_neg hs]
        refine if_congr (by omega) rfl rfl

/-- A field written after what the buffer holds. -/
theorem write_spec (hold : Holds buf bits) (hfit : bits.length + n ≤ 8 * buf.length) (v : ℕ) :
    ∃ buf', (write buf bits.length n v : Checked ε _) = .ok buf' ∧ buf'.length = buf.length ∧
      Holds buf' (bits ++ field n v) := by
  obtain ⟨buf', hwrite, hlen, hbits⟩ := @foldl_putBit ε buf bits.length
    (fun i => v.testBit (n - 1 - i)) n hfit
  refine ⟨buf', hwrite, hlen, fun t b ht => ?_⟩
  rw [hbits]
  rcases lt_or_ge t bits.length with hlt | hge
  · rw [List.getElem?_append_left hlt] at ht
    rw [if_neg (by omega), hold t b ht]
  · rw [List.getElem?_append_right hge, field, List.getElem?_map] at ht
    obtain ⟨i, hi, rfl⟩ := Option.map_eq_some_iff.mp ht
    obtain ⟨hlt, rfl⟩ := List.getElem?_eq_some_iff.mp hi
    rw [List.length_range] at hlt
    rw [if_pos (by omega), List.getElem_range]

theorem read_eq (h : pos + n ≤ 8 * buf.length) :
    (read buf pos n : Checked ε _) =
      .ok (value ((List.range n).map fun i => bitAt buf (pos + i))) := by
  rw [read]
  induction n with
  | zero => rfl
  | succ n ih =>
    rw [List.range_succ, List.foldl_append, ih (by omega), List.map_append, List.map_singleton,
      value_append_singleton, List.foldl_cons, List.foldl_nil, Checked.ok_bind,
      getBit_eq (by omega), Checked.ok_bind]

/-- A field is read back from where it was written. -/
theorem read_of_drop (hold : Holds buf bits) (hfit : bits.length ≤ 8 * buf.length)
    (hdrop : bits.drop pos = field n v ++ rest) :
    (read buf pos n : Checked ε _) = .ok (v % 2 ^ n) := by
  have hlen := congrArg List.length hdrop
  rw [List.length_drop, List.length_append, length_field] at hlen
  rcases Nat.eq_zero_or_pos n with rfl | hn
  · rw [pow_zero, Nat.mod_one]
    rfl
  rw [read_eq (by omega), ← value_field, field]
  congr 2
  refine List.map_congr_left fun i hi => hold _ _ ?_
  have hlt := List.mem_range.mp hi
  rw [← List.getElem?_drop, hdrop, List.getElem?_append_left (by simpa), field, List.getElem?_map,
    List.getElem?_range hlt]
  rfl

end BitBuffer
