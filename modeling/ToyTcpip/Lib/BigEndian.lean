import Mathlib.Tactic

/-! Numbers as big-endian bytes, with and without leading bytes that say nothing. -/
namespace BigEndian

variable {bs : List UInt8} {k n : ℕ}

/-- The number a list of bytes spells. -/
def value (bs : List UInt8) : ℕ := bs.foldl (fun v b => v * 256 + b.toNat) 0

/-- The last `k` bytes of a number. -/
def bytes : ℕ → ℕ → List UInt8
  | 0, _ => []
  | k + 1, n => bytes k (n / 256) ++ [UInt8.ofNat n]

@[simp] theorem length_bytes (k n : ℕ) : (bytes k n).length = k := by
  induction k generalizing n with
  | zero => rfl
  | succ k ih => simp [bytes, ih]

theorem foldl_eq (v : ℕ) (bs : List UInt8) :
    bs.foldl (fun v b => v * 256 + b.toNat) v = v * 256 ^ bs.length + value bs := by
  induction bs generalizing v with
  | nil => simp [value]
  | cons b rest ih =>
    have hvalue : value (b :: rest) = (0 * 256 + b.toNat) * 256 ^ rest.length + value rest := ih _
    rw [List.foldl_cons, ih, hvalue, List.length_cons, pow_succ]
    ring

@[simp] theorem value_nil : value [] = 0 := rfl

theorem value_cons (b : UInt8) (bs : List UInt8) :
    value (b :: bs) = b.toNat * 256 ^ bs.length + value bs := by
  rw [value, List.foldl_cons, foldl_eq, Nat.zero_mul, Nat.zero_add]

theorem value_append_singleton (bs : List UInt8) (b : UInt8) :
    value (bs ++ [b]) = value bs * 256 + b.toNat := by
  rw [value, List.foldl_append]
  rfl

theorem value_lt (bs : List UInt8) : value bs < 256 ^ bs.length := by
  induction bs with
  | nil => simp
  | cons b rest ih =>
    have hb := b.toNat_lt
    rw [value_cons, List.length_cons, pow_succ]
    have : b.toNat * 256 ^ rest.length ≤ 255 * 256 ^ rest.length :=
      Nat.mul_le_mul_right _ (by omega)
    omega

theorem value_bytes (k n : ℕ) : value (bytes k n) = n % 256 ^ k := by
  induction k generalizing n with
  | zero => simp [bytes, Nat.mod_one]
  | succ k ih =>
    have hlow : (UInt8.ofNat n).toNat = n % 256 := by rw [UInt8.toNat_ofNat']
    rw [bytes, value_append_singleton, ih, hlow, pow_succ, Nat.mul_comm (256 ^ k) 256,
      Nat.mod_mul, Nat.mul_comm, Nat.add_comm]

/-- A number that ends in the bytes `bs` has them as its last bytes. -/
theorem bytes_append (j m : ℕ) (bs : List UInt8) :
    bytes (j + bs.length) (m * 256 ^ bs.length + value bs) = bytes j m ++ bs := by
  induction bs using List.reverseRecOn with
  | nil => simp
  | append_singleton rest b ih =>
    have hb := b.toNat_lt
    have hdiv : (m * 256 ^ (rest.length + 1) + (value rest * 256 + b.toNat)) / 256 =
        m * 256 ^ rest.length + value rest := by
      rw [pow_succ, ← Nat.mul_assoc]
      omega
    have hlow : UInt8.ofNat (m * 256 ^ (rest.length + 1) + (value rest * 256 + b.toNat)) = b := by
      apply UInt8.toNat_inj.mp
      rw [UInt8.toNat_ofNat', pow_succ, ← Nat.mul_assoc]
      omega
    rw [List.length_append, List.length_singleton, ← Nat.add_assoc, bytes, value_append_singleton,
      hdiv, hlow, ih, List.append_assoc]

theorem bytes_value (bs : List UInt8) : bytes bs.length (value bs) = bs := by
  simpa [bytes] using bytes_append 0 0 bs

theorem bytes_zero (k : ℕ) : bytes k 0 = List.replicate k 0 := by
  induction k with
  | zero => rfl
  | succ k ih =>
    rw [bytes, Nat.zero_div, ih, List.replicate_succ']
    rfl

theorem bytes_max (k : ℕ) : bytes k (256 ^ k - 1) = List.replicate k 255 := by
  induction k with
  | zero => rfl
  | succ k ih =>
    have hpos : 0 < 256 ^ k := Nat.pow_pos (by decide)
    have hdiv : (256 ^ (k + 1) - 1) / 256 = 256 ^ k - 1 := by
      rw [pow_succ]
      omega
    have hlow : UInt8.ofNat (256 ^ (k + 1) - 1) = 255 := by
      apply UInt8.toNat_inj.mp
      rw [UInt8.toNat_ofNat', pow_succ]
      simp
      omega
    rw [bytes, hdiv, hlow, ih, List.replicate_succ']

/-! ### Leading bytes -/

section trim

variable {red : UInt8 → UInt8 → Bool}

/-- Without the leading bytes that are redundant before the byte that follows them. -/
def trim (red : UInt8 → UInt8 → Bool) : List UInt8 → List UInt8
  | b :: c :: rest => if red b c then trim red (c :: rest) else b :: c :: rest
  | bs => bs

/-- The first byte is needed. -/
def Trimmed (red : UInt8 → UInt8 → Bool) : List UInt8 → Prop
  | b :: c :: _ => red b c = false
  | _ => True

theorem trimmed_trim (red : UInt8 → UInt8 → Bool) (bs : List UInt8) :
    Trimmed red (trim red bs) := by
  fun_induction trim red bs with
  | case1 b c rest h ih => exact ih
  | case2 b c rest h => simpa [Trimmed] using h
  | case3 bs h =>
    match bs, h with
    | [], _ => trivial
    | [_], _ => trivial
    | b :: c :: rest, h => exact absurd rfl (h b c rest)

theorem trim_of_trimmed (h : Trimmed red bs) : trim red bs = bs := by
  match bs, h with
  | [], _ => rfl
  | [_], _ => rfl
  | b :: c :: rest, h => rw [trim, if_neg (by simpa [Trimmed] using h)]

/-- Fill bytes that are redundant before one another and before the list go. -/
theorem trim_replicate_append {b : UInt8} {bs : List UInt8} (hself : red b b = true)
    (hhead : ∀ c ∈ bs.head?, red b c = true) (hne : bs ≠ []) (k : ℕ) :
    trim red (List.replicate k b ++ bs) = trim red bs := by
  obtain ⟨c, rest, rfl⟩ := List.exists_cons_of_ne_nil hne
  induction k with
  | zero => rfl
  | succ k ih =>
    cases k with
    | zero =>
      change trim red (b :: c :: rest) = _
      rw [trim, if_pos (hhead c rfl)]
    | succ k =>
      rw [← ih, List.replicate_succ, List.replicate_succ, List.cons_append, List.cons_append, trim,
        if_pos hself]

theorem trim_ne_nil (h : bs ≠ []) : trim red bs ≠ [] := by
  fun_induction trim red bs with
  | case1 b c rest hred ih => exact ih (by simp)
  | case2 b c rest hred => simp
  | case3 bs hb => exact h

theorem length_trim_le (red : UInt8 → UInt8 → Bool) (bs : List UInt8) :
    (trim red bs).length ≤ bs.length := by
  fun_induction trim red bs with
  | case1 b c rest h ih => exact ih.trans (by simp)
  | case2 b c rest h => exact le_rfl
  | case3 bs h => exact le_rfl

/-- What does not change when a redundant byte is dropped is the same of the trimmed list. -/
theorem trim_invariant {α : Type*} {f : List UInt8 → α}
    (hf : ∀ b c rest, red b c = true → f (b :: c :: rest) = f (c :: rest)) (bs : List UInt8) :
    f (trim red bs) = f bs := by
  fun_induction trim red bs with
  | case1 b c rest h ih => rw [ih, hf b c rest h]
  | case2 b c rest h => rfl
  | case3 bs h => rfl

example : trim (fun b c => b = 0 ∧ c < 128) [0, 0, 5, 7] = [5, 7] := by decide +kernel

end trim

end BigEndian
