import Mathlib.Data.Nat.Bitwise
import ToyTcpip.Lib.Kronecker

/-! Sums of numbers under exclusive or, and the leading bits such sums reach. -/
namespace XorSpan

section sums

variable {b c : Bool} {bs : List Bool} {vs : List ℕ} {k l n v w x y : ℕ}

/-- The sum of the numbers that `bs` selects. -/
def sum (bs : List Bool) (vs : List ℕ) : ℕ :=
  (List.zipWith (fun b v => bif b then v else 0) bs vs).foldr (· ^^^ ·) 0

@[simp] theorem sum_nil_left : sum [] vs = 0 := rfl

@[simp] theorem sum_nil_right : sum bs [] = 0 := by rw [sum, List.zipWith_nil_right, List.foldr_nil]

theorem sum_cons : sum (b :: bs) (v :: vs) = (bif b then v else 0) ^^^ sum bs vs := rfl

theorem sum_append {cs : List Bool} {ws : List ℕ} (h : bs.length = vs.length) :
    sum (bs ++ cs) (vs ++ ws) = sum bs vs ^^^ sum cs ws := by
  induction bs generalizing vs with
  | nil => rw [List.length_eq_zero_iff.1 h.symm, List.nil_append, List.nil_append,
    sum_nil_left, Nat.zero_xor]
  | cons b bs ih =>
    obtain ⟨v, vs, rfl⟩ := List.exists_cons_of_length_eq_add_one h.symm
    rw [List.cons_append, List.cons_append, sum_cons, sum_cons, ih (Nat.succ.inj h), Nat.xor_assoc]

theorem sum_replicate_false : sum (List.replicate n false) vs = 0 := by
  induction n generalizing vs with
  | zero => rfl
  | succ n ih =>
    cases vs with
    | nil => exact sum_nil_right
    | cons v vs => rw [List.replicate_succ, sum_cons, ih, cond_false, Nat.xor_zero]

theorem sum_take (h : bs.length ≤ n) : sum bs (vs.take n) = sum bs vs := by
  induction bs generalizing vs n with
  | nil => rfl
  | cons b bs ih =>
    cases vs with
    | nil => rw [List.take_nil]
    | cons v vs =>
      obtain ⟨n, rfl⟩ := Nat.exists_eq_add_of_lt (Nat.lt_of_lt_of_le (Nat.succ_pos _) h)
      rw [Nat.zero_add, List.take_succ_cons, sum_cons, sum_cons, ih (by simpa using h)]

theorem sum_append_replicate_false : sum (bs ++ List.replicate n false) vs = sum bs vs := by
  induction bs generalizing vs with
  | nil => exact sum_replicate_false
  | cons b bs ih =>
    cases vs with
    | nil => rw [sum_nil_right, sum_nil_right]
    | cons v vs => rw [List.cons_append, sum_cons, sum_cons, ih]

/-- A sum does not depend on the order of its terms. -/
theorem sum_perm {zs zs' : List (Bool × ℕ)} (h : zs.Perm zs') :
    sum (zs.map Prod.fst) (zs.map Prod.snd) = sum (zs'.map Prod.fst) (zs'.map Prod.snd) := by
  have hmap : ∀ zs : List (Bool × ℕ), List.zipWith (fun b v => bif b then v else 0)
    (zs.map Prod.fst)
      (zs.map Prod.snd) = zs.map fun z => bif z.1 then z.2 else 0 := by
    intro zs
    rw [List.zipWith_map, List.zipWith_self]
  rw [sum, sum, hmap, hmap]
  exact (h.map _).foldr_eq' (fun x _ y _ z => by rw [← Nat.xor_assoc, Nat.xor_comm y,
    Nat.xor_assoc]) 0

theorem sum_reverse (h : bs.length = vs.length) : sum bs.reverse vs.reverse = sum bs vs := by
  have hperm := sum_perm (List.reverse_perm (bs.zip vs))
  rwa [List.map_reverse, List.map_reverse, List.map_fst_zip h.le, List.map_snd_zip h.ge] at hperm

theorem sum_xor_left {cs : List Bool} (h : bs.length = cs.length) :
    sum (List.zipWith xor bs cs) vs = sum bs vs ^^^ sum cs vs := by
  induction bs generalizing cs vs with
  | nil => rw [List.length_eq_zero_iff.1 h.symm, List.zipWith_nil_left, sum_nil_left, Nat.xor_self]
  | cons b bs ih =>
    obtain ⟨c, cs, rfl⟩ := List.exists_cons_of_length_eq_add_one h.symm
    cases vs with
    | nil => rw [sum_nil_right, sum_nil_right, sum_nil_right, Nat.xor_self]
    | cons v vs =>
      rw [List.zipWith_cons_cons, sum_cons, sum_cons, sum_cons, ih (Nat.succ.inj h)]
      cases b <;> cases c <;> simp <;> grind

theorem sum_xor_right {ws : List ℕ} (h : vs.length = ws.length) :
    sum bs (List.zipWith (· ^^^ ·) vs ws) = sum bs vs ^^^ sum bs ws := by
  induction bs generalizing vs ws with
  | nil => rw [sum_nil_left, sum_nil_left, sum_nil_left, Nat.xor_self]
  | cons b bs ih =>
    cases vs with
    | nil => rw [List.length_eq_zero_iff.1 h.symm, List.zipWith_nil_left,
      sum_nil_right, Nat.xor_self]
    | cons v vs =>
      obtain ⟨w, ws, rfl⟩ := List.exists_cons_of_length_eq_add_one h.symm
      rw [List.zipWith_cons_cons, sum_cons, sum_cons, sum_cons, ih (Nat.succ.inj h)]
      cases b with
      | false => simp
      | true => simp only [cond_true]; grind

/-- What the transform does to a selection, the transposed one does to the numbers. -/
theorem sum_transform {m : ℕ} (hbs : bs.length = 2 ^ m) (hvs : vs.length = 2 ^ m) :
    sum (Kronecker.transform xor m bs) vs = sum bs (Kronecker.transposed (· ^^^ ·) m vs) := by
  induction m generalizing bs vs with
  | zero => rfl
  | succ m ih =>
    obtain ⟨a, b, rfl, ha, hb⟩ := Kronecker.exists_halves hbs
    obtain ⟨p, q, rfl, hp, hq⟩ := Kronecker.exists_halves hvs
    have hla := Kronecker.length_transform (f := xor) ha
    have hlb := Kronecker.length_transform (f := xor) hb
    have hlp := Kronecker.length_transposed (f := (· ^^^ · : ℕ → ℕ → ℕ)) hp
    have hlq := Kronecker.length_transposed (f := (· ^^^ · : ℕ → ℕ → ℕ)) hq
    rw [Kronecker.transform_append ha, Kronecker.transposed_append hp,
      sum_append (by simp [hla, hlb, hp]), sum_append (by rw [ha, hlp]),
      sum_xor_left (by rw [hla, hlb]), sum_xor_right (by rw [hlp, hlq]),
      ih ha hp, ih hb hp, ih hb hq, Nat.xor_assoc]

/-- Where one number alone has bit `k`, the bit of the sum tells whether it was selected. -/
theorem testBit_sum (hlen : bs.length = vs.length)
    (h : ∀ i < vs.length, (vs.getD i 0).testBit k = decide (i = n)) :
    (sum bs vs).testBit k = bs.getD n false := by
  induction bs generalizing vs n with
  | nil => rw [sum_nil_left, Nat.zero_testBit, List.getD_nil]
  | cons b bs ih =>
    obtain ⟨v, vs, rfl⟩ := List.exists_cons_of_length_eq_add_one hlen.symm
    have hhead := h 0 (by simp)
    rw [sum_cons, Nat.testBit_xor]
    cases n with
    | zero =>
      have hrest := ih (n := vs.length) (Nat.succ.inj hlen) fun i hi => by
        have := h (i + 1) (by simpa using hi)
        simp_all
        omega
      rw [hrest, List.getD_eq_default _ _ (Nat.succ.inj hlen).le, List.getD_cons_zero,
        Bool.xor_false]
      cases b with
      | false => rw [cond_false, Nat.zero_testBit]
      | true => simpa using hhead
    | succ n =>
      have hrest := ih (n := n) (Nat.succ.inj hlen) fun i hi => by
        have := h (i + 1) (by simpa using hi)
        simpa using this
      rw [hrest, List.getD_cons_succ]
      have hbit : (bif b then v else 0).testBit k = false := by
        cases b with
        | false => rw [cond_false, Nat.zero_testBit]
        | true => simpa using hhead
      rw [hbit, Bool.false_xor]

/-- The leading bit of `v` cleared with `v` itself. -/
def reduce (v w : ℕ) : ℕ := if w.testBit v.log2 then w ^^^ v else w

theorem testBit_reduce (hv : v ≠ 0) : (reduce v w).testBit v.log2 = false := by
  unfold reduce
  split_ifs with h
  · rw [Nat.testBit_xor, h, Nat.testBit_log2 hv, Bool.xor_self]
  · exact Bool.eq_false_iff.2 h

/-- Reduced numbers have the sums of the others, up to one more `v`. -/
theorem sum_map_reduce (v : ℕ) (bs : List Bool) (vs : List ℕ) :
    ∃ c, sum bs (vs.map (reduce v)) = (bif c then v else 0) ^^^ sum bs vs := by
  induction bs generalizing vs with
  | nil => exact ⟨false, by rw [sum_nil_left, sum_nil_left, cond_false, Nat.zero_xor]⟩
  | cons b bs ih =>
    cases vs with
    | nil => exact ⟨false, by rw [List.map_nil, sum_nil_right, cond_false, Nat.zero_xor]⟩
    | cons w vs =>
      obtain ⟨c, hc⟩ := ih vs
      rw [List.map_cons, sum_cons, sum_cons, hc]
      cases b with
      | false => exact ⟨c, by rw [cond_false, cond_false, Nat.zero_xor, Nat.zero_xor]⟩
      | true =>
        rw [cond_true, cond_true, reduce]
        split_ifs with h
        · refine ⟨!c, ?_⟩
          cases c with
          | false => rw [cond_false, Nat.zero_xor, Bool.not_false, cond_true, Nat.xor_comm w,
            Nat.xor_assoc]
          | true =>
            rw [cond_true, Bool.not_true, cond_false, Nat.zero_xor, Nat.xor_assoc,
              ← Nat.xor_assoc v, Nat.xor_self, Nat.zero_xor]
        · exact ⟨c, by rw [← Nat.xor_assoc, Nat.xor_comm w, Nat.xor_assoc]⟩

theorem testBit_sum_eq_false (h : ∀ w ∈ vs, w.testBit l = false) (bs : List Bool) :
    (sum bs vs).testBit l = false := by
  induction bs generalizing vs with
  | nil => rw [sum_nil_left, Nat.zero_testBit]
  | cons b bs ih =>
    cases vs with
    | nil => rw [sum_nil_right, Nat.zero_testBit]
    | cons w vs =>
      rw [sum_cons, Nat.testBit_xor, ih fun w hw => h w (List.mem_cons_of_mem _ hw)]
      cases b with
      | false => rw [cond_false, Nat.zero_testBit, Bool.xor_false]
      | true => rw [cond_true, h w List.mem_cons_self, Bool.xor_false]

theorem sum_lt (h : ∀ v ∈ vs, v < 2 ^ l) (bs : List Bool) : sum bs vs < 2 ^ l := by
  induction bs generalizing vs with
  | nil => exact Nat.two_pow_pos l
  | cons b bs ih =>
    cases vs with
    | nil => rw [sum_nil_right]; exact Nat.two_pow_pos l
    | cons v vs =>
      rw [sum_cons]
      refine Nat.xor_lt_two_pow ?_ (ih fun v hv => h v (List.mem_cons_of_mem _ hv))
      cases b with
      | false => exact Nat.two_pow_pos l
      | true => exact h v List.mem_cons_self

/-- The leading bit of a sum is the leading bit of a part. -/
theorem log2_xor_of_lt (hx : x ≠ 0) (h : y.log2 < x.log2) : (x ^^^ y).log2 = x.log2 := by
  have hbit : (x ^^^ y).testBit x.log2 = true := by
    have hy : y < 2 ^ x.log2 := by
      rcases Nat.eq_zero_or_pos y with rfl | hpos
      · exact Nat.two_pow_pos _
      · exact (Nat.log2_lt (by omega)).1 h
    rw [Nat.testBit_xor, Nat.testBit_log2 hx, Nat.testBit_lt_two_pow hy, Bool.xor_false]
  have hne : x ^^^ y ≠ 0 := by
    intro hzero
    rw [hzero, Nat.zero_testBit] at hbit
    exact absurd hbit (by decide)
  refine (Nat.log2_eq_iff hne).2 ⟨Nat.ge_two_pow_of_testBit hbit,
    Nat.xor_lt_two_pow Nat.lt_log2_self ?_⟩
  exact Nat.lt_log2_self.trans_le (Nat.pow_le_pow_right (by omega) (by omega))

/-- The leading bits that `n` rounds of elimination find. -/
def leads : ℕ → List ℕ → List ℕ
  | 0, _ => []
  | _ + 1, [] => []
  | n + 1, v :: vs => v.log2 :: leads n (vs.map (reduce v))

theorem log2_mem_leads (bs : List Bool) (vs : List ℕ) (h : sum bs vs ≠ 0) :
    (sum bs vs).log2 ∈ leads bs.length vs := by
  induction bs generalizing vs with
  | nil => exact absurd rfl h
  | cons b bs ih =>
    cases vs with
    | nil => exact absurd sum_nil_right h
    | cons v vs =>
      obtain ⟨c, hc⟩ := sum_map_reduce v bs vs
      have hsum : sum (b :: bs) (v :: vs) = (bif xor b c then v else 0) ^^^
          sum bs (vs.map (reduce v)) := by
        have hxor : (bif xor b c then v else 0) = (bif b then v else 0) ^^^
            (bif c then v else 0) := by
          cases b <;> cases c <;> simp
        rw [hc, sum_cons, hxor, Nat.xor_assoc, ← Nat.xor_assoc _ _ (sum bs vs),
          Nat.xor_self, Nat.zero_xor]
      rw [hsum] at h ⊢
      rw [List.length_cons, leads]
      by_cases hv : v = 0
      · subst hv
        rw [Bool.cond_self, Nat.zero_xor] at h ⊢
        exact List.mem_cons_of_mem _ (ih _ h)
      have hbit : (sum bs (vs.map (reduce v))).testBit v.log2 = false := by
        refine testBit_sum_eq_false (fun w hw => ?_) bs
        obtain ⟨w', -, rfl⟩ := List.mem_map.1 hw
        exact testBit_reduce hv
      by_cases hy : sum bs (vs.map (reduce v)) = 0
      · rw [hy, Nat.xor_zero] at h ⊢
        cases hbc : xor b c with
        | false => rw [hbc] at h; exact absurd rfl h
        | true => exact List.mem_cons_self
      · have hrest := ih (vs.map (reduce v)) hy
        cases xor b c with
        | false =>
          rw [cond_false, Nat.zero_xor]
          exact List.mem_cons_of_mem _ hrest
        | true =>
          rw [cond_true]
          rcases lt_trichotomy (sum bs (vs.map (reduce v))).log2 v.log2 with hlt | heq | hgt
          · rw [log2_xor_of_lt hv hlt]
            exact List.mem_cons_self
          · rw [← heq, Nat.testBit_log2 hy] at hbit
            exact absurd hbit (by decide)
          · rw [Nat.xor_comm, log2_xor_of_lt hy hgt]
            exact List.mem_cons_of_mem _ hrest

theorem exists_of_mem_leads (hl : l ∈ leads n vs) : ∃ bs : List Bool, bs.length = n ∧
    (sum bs vs).log2 = l := by
  induction n generalizing vs with
  | zero => exact absurd hl List.not_mem_nil
  | succ n ih =>
    cases vs with
    | nil => exact absurd hl List.not_mem_nil
    | cons v vs =>
      rcases List.mem_cons.1 hl with rfl | hl
      · refine ⟨true :: List.replicate n false, by simp, ?_⟩
        rw [sum_cons, sum_replicate_false, cond_true, Nat.xor_zero]
      · obtain ⟨bs, hlen, hlog⟩ := ih hl
        obtain ⟨c, hc⟩ := sum_map_reduce v bs vs
        exact ⟨c :: bs, by rw [List.length_cons, hlen], by rw [sum_cons, ← hc, hlog]⟩

/-- No sum but zero is below `2 ^ k` when no lead is below `k`. -/
theorem forall_leads_iff (hne : 0 ∉ leads n vs) :
    (∀ bs : List Bool, bs.length = n → sum bs vs < 2 ^ k → sum bs vs = 0) ↔
    ∀ l ∈ leads n vs, k ≤ l := by
  constructor
  · intro h l hl
    obtain ⟨bs, hlen, hlog⟩ := exists_of_mem_leads hl
    by_contra hlt
    have hpos : sum bs vs ≠ 0 := by
      intro hzero
      rw [hzero, Nat.log2_zero] at hlog
      exact hne (hlog ▸ hl)
    exact hpos (h bs hlen ((Nat.log2_lt hpos).1 (by omega)))
  · intro h bs hlen hlt
    by_contra hpos
    have hlead := h _ (hlen ▸ log2_mem_leads bs vs hpos)
    have := (Nat.log2_lt hpos).2 hlt
    omega

/-- Exclusive or with shifted copies, which leaves the leading bit in place. -/
def spread (ss : List ℕ) (v : ℕ) : ℕ := ss.foldl (fun v s => v ^^^ v >>> s) v

theorem spread_lt_iff {ss : List ℕ} (hss : 0 ∉ ss) : spread ss v < 2 ^ k ↔ v < 2 ^ k := by
  unfold spread
  induction ss generalizing v with
  | nil => rfl
  | cons s ss ih =>
    obtain ⟨hs, hss⟩ := not_or.1 (mt List.mem_cons.2 hss)
    rw [List.foldl_cons, ih hss]
    constructor
    · intro h
      by_contra hge
      have hv : v ≠ 0 := by
        rintro rfl
        exact hge (Nat.two_pow_pos k)
      have hbit : (v ^^^ v >>> s).testBit v.log2 = true := by
        have hhigh : v.testBit (s + v.log2) = false :=
          Nat.testBit_lt_two_pow (Nat.lt_log2_self.trans_le
            (Nat.pow_le_pow_right (by omega) (by omega)))
        rw [Nat.testBit_xor, Nat.testBit_log2 hv, Nat.testBit_shiftRight, hhigh, Bool.xor_false]
      have hk : k ≤ v.log2 := (Nat.le_log2 hv).2 (by omega)
      exact absurd (h.trans_le (Nat.pow_le_pow_right (by omega) hk))
        (Nat.not_lt.2 (Nat.ge_two_pow_of_testBit hbit))
    · exact fun h => Nat.xor_lt_two_pow h ((Nat.shiftRight_le v s).trans_lt h)

theorem spread_xor (ss : List ℕ) : spread ss (v ^^^ w) = spread ss v ^^^ spread ss w := by
  unfold spread
  induction ss generalizing v w with
  | nil => rfl
  | cons s ss ih =>
    rw [List.foldl_cons, List.foldl_cons, List.foldl_cons, ← ih, Nat.shiftRight_xor_distrib]
    congr 1
    grind

theorem sum_map_spread (ss : List ℕ) : sum bs (vs.map (spread ss)) = spread ss (sum bs vs) := by
  have hzero : spread ss 0 = 0 := by
    have := spread_xor ss (v := 0) (w := 0)
    rwa [Nat.xor_self, Nat.xor_self] at this
  induction bs generalizing vs with
  | nil => exact hzero.symm
  | cons b bs ih =>
    cases vs with
    | nil => rw [List.map_nil, sum_nil_right, hzero]
    | cons v vs =>
      rw [List.map_cons, sum_cons, sum_cons, ih, spread_xor]
      cases b with
      | false => rw [cond_false, cond_false, hzero]
      | true => rfl

/-- The same elimination on spread numbers. -/
theorem forall_leads_spread_iff {ss : List ℕ} (hss : 0 ∉ ss)
    (hne : 0 ∉ leads n (vs.map (spread ss))) :
    (∀ bs : List Bool, bs.length = n → sum bs vs < 2 ^ k → sum bs vs = 0) ↔
      ∀ l ∈ leads n (vs.map (spread ss)), k ≤ l := by
  have hzero : ∀ v, spread ss v = 0 ↔ v = 0 := by
    intro v
    have := spread_lt_iff (v := v) (k := 0) hss
    rw [pow_zero] at this
    omega
  rw [← forall_leads_iff hne]
  simp only [sum_map_spread, spread_lt_iff hss, hzero]

/-- Each of `cs` is the least of `a` and the elements of `ls` so far. -/
def isMinima : ℕ → List ℕ → List ℕ → Bool
  | _, [], [] => true
  | a, l :: ls, c :: cs => min a l == c && isMinima c ls cs
  | _, _, _ => false

theorem le_minima {a t : ℕ} {ls cs : List ℕ} (h : isMinima a ls cs = true) (ht : t < cs.length) :
    k ≤ cs.getD t 0 ↔ k ≤ a ∧ ∀ l ∈ ls.take (t + 1), k ≤ l := by
  induction cs generalizing a t ls with
  | nil => exact absurd ht (by simp)
  | cons c cs ih =>
    cases ls with
    | nil => exact absurd h (by simp [isMinima])
    | cons l ls =>
      rw [isMinima, Bool.and_eq_true, beq_iff_eq] at h
      obtain ⟨rfl, hrest⟩ := h
      cases t with
      | zero => simp
      | succ t =>
        rw [List.getD_cons_succ, ih hrest (by simpa using ht), List.take_succ_cons,
          List.forall_mem_cons, le_min_iff, and_assoc]

theorem take_leads {t : ℕ} (h : t ≤ n) : (leads n vs).take t = leads t vs := by
  induction t generalizing n vs with
  | zero => rw [List.take_zero, leads]
  | succ t ih =>
    obtain ⟨n, rfl⟩ := Nat.exists_eq_add_of_lt (Nat.lt_of_lt_of_le (Nat.succ_pos t) h)
    cases vs with
    | nil => simp [leads]
    | cons v vs => rw [Nat.zero_add, leads, List.take_succ_cons, ih (by omega), leads]

end sums

/-! ### Numbers packed side by side -/

section packed

variable {us vs : List ℕ} {a b i k l m n u v w : ℕ}

/-- The numbers of a list in fields of `w` bits. -/
def pack (w : ℕ) : List ℕ → ℕ
  | [] => 0
  | v :: vs => 2 ^ w * pack w vs + v

theorem pack_lt (h : ∀ v ∈ vs, v < 2 ^ w) : pack w vs < 2 ^ (w * vs.length) := by
  induction vs with
  | nil => exact Nat.two_pow_pos _
  | cons v vs ih =>
    have hv := h v List.mem_cons_self
    have hle := Nat.mul_le_mul_left (2 ^ w) (ih fun u hu => h u (List.mem_cons_of_mem _ hu))
    rw [Nat.mul_succ] at hle
    rw [pack, List.length_cons, Nat.mul_succ, Nat.add_comm (w * _), pow_add]
    omega

theorem pack_append : pack w (us ++ vs) = pack w us + 2 ^ (w * us.length) * pack w vs := by
  induction us with
  | nil => rw [List.nil_append, pack, List.length_nil, Nat.mul_zero, pow_zero,
    one_mul, Nat.zero_add]
  | cons u us ih =>
    rw [List.cons_append, pack, pack, ih, List.length_cons, Nat.mul_succ, pow_add]
    ring

theorem pack_take (h : ∀ v ∈ vs, v < 2 ^ w) (hn : n ≤ vs.length) :
    pack w (vs.take n) = pack w vs % 2 ^ (w * n) := by
  have hlen : (vs.take n).length = n := List.length_take_of_le hn
  have hlt : pack w (vs.take n) < 2 ^ (w * (vs.take n).length) :=
    pack_lt fun v hv => h v (List.mem_of_mem_take hv)
  conv_rhs => rw [← List.take_append_drop n vs, pack_append, hlen, Nat.add_mul_mod_self_left]
  rw [hlen] at hlt
  exact (Nat.mod_eq_of_lt hlt).symm

theorem pack_drop (h : ∀ v ∈ vs, v < 2 ^ w) (hn : n ≤ vs.length) :
    pack w (vs.drop n) = pack w vs >>> (w * n) := by
  have hlen : (vs.take n).length = n := List.length_take_of_le hn
  have hlt : pack w (vs.take n) < 2 ^ (w * (vs.take n).length) :=
    pack_lt fun v hv => h v (List.mem_of_mem_take hv)
  rw [hlen] at hlt
  conv_rhs => rw [← List.take_append_drop n vs, pack_append, hlen, Nat.shiftRight_eq_div_pow,
    Nat.add_mul_div_left _ _ (Nat.two_pow_pos _), Nat.div_eq_of_lt hlt, Nat.zero_add]

theorem pack_flatMap {α : Type} {f : α → List ℕ} {xs : List α} (h : ∀ x ∈ xs, (f x).length = n) :
    pack w (xs.flatMap f) = pack (w * n) (xs.map fun x => pack w (f x)) := by
  induction xs with
  | nil => rfl
  | cons x xs ih =>
    rw [List.flatMap_cons, pack_append, h x List.mem_cons_self,
      ih fun y hy => h y (List.mem_cons_of_mem _ hy), List.map_cons, pack, Nat.add_comm]

theorem pack_map_range (f : ℕ → ℕ) :
    pack w ((List.range n).map f) = ((List.range n).map fun i => f i * 2 ^ (w * i)).sum := by
  induction n with
  | zero => rfl
  | succ n ih =>
    rw [List.range_succ, List.map_append, List.map_append, List.sum_append, pack_append, ih,
      List.length_map, List.length_range]
    simp [pack, Nat.mul_comm]

theorem pack_map_mul (c : ℕ) : pack w (vs.map (· * c)) = pack w vs * c := by
  induction vs with
  | nil => exact (Nat.zero_mul c).symm
  | cons v vs ih =>
    rw [List.map_cons, pack, pack, ih]
    ring

/-- The packed list of `n` ones. -/
def ones (w n : ℕ) : ℕ := (2 ^ (w * n) - 1) / (2 ^ w - 1)

theorem ones_eq (hw : 0 < w) : ones w n = pack w (List.replicate n 1) := by
  have hgt : 1 < 2 ^ w := Nat.one_lt_two_pow (by omega)
  have hmul : pack w (List.replicate n 1) * (2 ^ w - 1) = 2 ^ (w * n) - 1 := by
    induction n with
    | zero => exact Nat.zero_mul _
    | succ n ih =>
      have hpos := Nat.two_pow_pos (w * n)
      rw [List.replicate_succ, pack, Nat.add_mul, Nat.mul_assoc, ih, Nat.mul_succ,
        Nat.add_comm (w * n), pow_add, Nat.mul_sub, Nat.mul_one, Nat.one_mul]
      have := Nat.le_mul_of_pos_right (2 ^ w) hpos
      omega
  rw [ones, ← hmul, Nat.mul_div_cancel _ (by omega)]

/-- The number of bits below the leading one, found by halving. -/
def topBit : ℕ → ℕ → ℕ
  | 0, _ => 0
  | k + 1, v => if v >>> 2 ^ k = 0 then topBit k v else 2 ^ k + topBit k (v >>> 2 ^ k)

theorem topBit_eq_log2 (h : v < 2 ^ 2 ^ k) : topBit k v = v.log2 := by
  induction k generalizing v with
  | zero =>
    have : v < 2 := by simpa using h
    interval_cases v <;> rfl
  | succ k ih =>
    have hsplit : 2 ^ 2 ^ (k + 1) = 2 ^ 2 ^ k * 2 ^ 2 ^ k := by rw [← pow_add, pow_succ]; ring_nf
    rw [topBit, Nat.shiftRight_eq_div_pow]
    split_ifs with hzero
    · exact ih ((Nat.div_eq_zero_iff_lt (Nat.two_pow_pos _)).1 hzero)
    · have hv : v ≠ 0 := by
        rintro rfl
        exact hzero (Nat.zero_div _)
      have hhigh : v / 2 ^ 2 ^ k < 2 ^ 2 ^ k := Nat.div_lt_of_lt_mul (hsplit ▸ h)
      rw [ih hhigh, eq_comm, Nat.log2_eq_iff hv, pow_add, pow_add, pow_add]
      obtain ⟨hle, hlt⟩ := (Nat.log2_eq_iff hzero).1 rfl
      rw [Nat.le_div_iff_mul_le (Nat.two_pow_pos _)] at hle
      rw [Nat.div_lt_iff_lt_mul (Nat.two_pow_pos _), pow_add] at hlt
      constructor
      · linarith
      · linarith

/-- One round on the packed list. -/
theorem xor_fields (hv : v < 2 ^ w) (hu : u < 2 ^ w) :
    (2 ^ w * a + v) ^^^ (2 ^ w * b + u) = 2 ^ w * (a ^^^ b) + (v ^^^ u) := by
  refine Nat.eq_of_testBit_eq fun j => ?_
  rw [Nat.testBit_xor, Nat.testBit_two_pow_mul_add _ hv, Nat.testBit_two_pow_mul_add _ hu,
    Nat.testBit_two_pow_mul_add _ (Nat.xor_lt_two_pow hv hu), Nat.testBit_xor, Nat.testBit_xor]
  split_ifs <;> rfl

theorem select_fields (hv : v < 2 ^ w) (hl : l < w) :
    (2 ^ w * a + v) >>> l &&& (2 ^ w * b + 1) = 2 ^ w * (a >>> l &&& b) + (v.testBit l).toNat := by
  have hone : 1 < 2 ^ w := Nat.one_lt_two_pow (by omega)
  have hbit : (v.testBit l).toNat < 2 ^ w := lt_of_le_of_lt (Bool.toNat_le _) hone
  refine Nat.eq_of_testBit_eq fun j => ?_
  rw [Nat.testBit_and, Nat.testBit_shiftRight, Nat.testBit_two_pow_mul_add _ hv,
    Nat.testBit_two_pow_mul_add _ hone, Nat.testBit_two_pow_mul_add _ hbit, Nat.testBit_and,
    Nat.testBit_shiftRight]
  by_cases hj : j < w
  · rw [if_pos hj, if_pos hj]
    rcases Nat.eq_zero_or_pos j with rfl | hpos
    · rw [Nat.add_zero, if_pos hl]
      cases v.testBit l <;> rfl
    · have hhigh : ∀ c : Bool, c.toNat.testBit j = false := by
        intro c
        exact Nat.testBit_lt_two_pow (lt_of_le_of_lt (Bool.toNat_le c)
          (Nat.one_lt_two_pow (by omega)))
      rw [show (1 : ℕ) = true.toNat from rfl, hhigh, hhigh, Bool.and_false]
  · rw [if_neg hj, if_neg hj, if_neg (by omega), show l + j - w = l + (j - w) by omega]

theorem reduce_eq (l : ℕ) (hl : l = b.log2) : v ^^^ ((v.testBit l).toNat * b) = reduce b v := by
  subst hl
  rw [reduce]
  cases v.testBit b.log2 <;> simp

theorem reduce_lt (hb : b < 2 ^ w) (hv : v < 2 ^ w) : reduce b v < 2 ^ w := by
  unfold reduce
  split_ifs
  · exact Nat.xor_lt_two_pow hv hb
  · exact hv

/-- All the fields are reduced at once. -/
theorem pack_map_reduce (hb : b < 2 ^ w) (hl : b.log2 < w) (hvs : ∀ v ∈ vs, v < 2 ^ w)
    (hn : vs.length ≤ n) :
    pack w vs ^^^ ((pack w vs >>> b.log2 &&& pack w (List.replicate n 1)) * b) =
      pack w (vs.map (reduce b)) := by
  induction vs generalizing n with
  | nil => simp [pack]
  | cons v vs ih =>
    obtain ⟨n, rfl⟩ := Nat.exists_eq_add_of_lt (Nat.lt_of_lt_of_le (Nat.succ_pos _) hn)
    have hv := hvs v List.mem_cons_self
    have hbit : (v.testBit b.log2).toNat * b < 2 ^ w :=
      by
      have := Nat.mul_le_mul_right b (Bool.toNat_le (v.testBit b.log2))
      omega
    rw [Nat.zero_add, List.replicate_succ, pack, pack, select_fields hv hl, add_mul, Nat.mul_assoc,
      xor_fields hv hbit, ih (fun v h => hvs v (List.mem_cons_of_mem _ h))
        (Nat.le_of_succ_le_succ (by simpa using hn)),
      reduce_eq _ rfl, List.map_cons, pack]

theorem shift_fields {s : ℕ} (hv : v < 2 ^ w) :
    (2 ^ w * a + v) >>> s &&& (2 ^ w * b + (2 ^ (w - s) - 1)) =
    2 ^ w * (a >>> s &&& b) + v >>> s := by
  have hmask : 2 ^ (w - s) - 1 < 2 ^ w := by
    have := Nat.pow_le_pow_right (n := 2) (by omega) (Nat.sub_le w s)
    have := Nat.two_pow_pos (w - s)
    omega
  have hshift : v >>> s < 2 ^ w := lt_of_le_of_lt (Nat.shiftRight_le v s) hv
  refine Nat.eq_of_testBit_eq fun j => ?_
  rw [Nat.testBit_and, Nat.testBit_shiftRight, Nat.testBit_two_pow_mul_add _ hv,
    Nat.testBit_two_pow_mul_add _ hmask, Nat.testBit_two_pow_mul_add _ hshift, Nat.testBit_and,
    Nat.testBit_shiftRight, Nat.testBit_shiftRight, Nat.testBit_two_pow_sub_one]
  by_cases hj : j < w
  · rw [if_pos hj, if_pos hj]
    by_cases hs : s + j < w
    · rw [if_pos hs, decide_eq_true (by omega), Bool.and_true]
    · rw [decide_eq_false (by omega), Bool.and_false]
      exact (Nat.testBit_lt_two_pow (hv.trans_le (Nat.pow_le_pow_right (by omega) (by omega)))).symm
  · rw [if_neg hj, if_neg hj, if_neg (by omega), show s + j - w = s + (j - w) by omega]

/-- All the fields are spread at once. -/
def packedSpread (w n : ℕ) (ss : List ℕ) (a : ℕ) : ℕ :=
  ss.foldl (fun a s => a ^^^ (a >>> s &&& (ones w n * (2 ^ (w - s) - 1)))) a

theorem pack_map_shift {s : ℕ} (hvs : ∀ v ∈ vs, v < 2 ^ w) :
    pack w vs ^^^ (pack w vs >>> s &&& pack w (List.replicate vs.length (2 ^ (w - s) - 1))) =
      pack w (vs.map fun v => v ^^^ v >>> s) := by
  induction vs with
  | nil => simp [pack]
  | cons v vs ih =>
    have hv := hvs v List.mem_cons_self
    rw [List.length_cons, List.replicate_succ, pack, pack, shift_fields hv,
      xor_fields hv (lt_of_le_of_lt (Nat.shiftRight_le v s) hv), ih fun u hu =>
        hvs u (List.mem_cons_of_mem _ hu),
      List.map_cons, pack]

theorem packedSpread_eq (ss : List ℕ) (hw : 0 < w) (hvs : ∀ v ∈ vs, v < 2 ^ w) :
    packedSpread w vs.length ss (pack w vs) = pack w (vs.map (spread ss)) := by
  induction ss generalizing vs with
  | nil => exact congrArg (pack w) (List.map_id vs).symm
  | cons s ss ih =>
    have hmask : ones w vs.length * (2 ^ (w - s) - 1) =
        pack w (List.replicate vs.length (2 ^ (w - s) - 1)) := by
      rw [ones_eq hw, ← pack_map_mul, List.map_replicate, Nat.one_mul]
    have hstep : ∀ u ∈ vs.map (fun v => v ^^^ v >>> s), u < 2 ^ w := by
      intro u hu
      obtain ⟨v, hv, rfl⟩ := List.mem_map.1 hu
      exact Nat.xor_lt_two_pow (hvs v hv) (lt_of_le_of_lt (Nat.shiftRight_le v s) (hvs v hv))
    have hspread := ih hstep
    rw [List.length_map, List.map_map] at hspread
    unfold packedSpread at hspread ⊢
    rw [List.foldl_cons, hmask, pack_map_shift hvs, hspread]
    rfl

theorem pack_zipWith_xor (hus : ∀ u ∈ us, u < 2 ^ w) (hvs : ∀ v ∈ vs, v < 2 ^ w)
    (h : us.length = vs.length) :
    pack w (List.zipWith (· ^^^ ·) us vs) = pack w us ^^^ pack w vs := by
  induction us generalizing vs with
  | nil =>
    rw [List.length_eq_zero_iff.1 h.symm, List.zipWith_nil_left, pack, Nat.xor_self]
  | cons u us ih =>
    obtain ⟨v, vs, rfl⟩ := List.exists_cons_of_length_eq_add_one h.symm
    rw [List.zipWith_cons_cons, pack, pack, pack, xor_fields (hus u List.mem_cons_self)
      (hvs v List.mem_cons_self),
      ih (fun u h => hus u (List.mem_cons_of_mem _ h)) (fun v h => hvs v (List.mem_cons_of_mem _ h))
        (Nat.succ.inj h)]

/-- The transform by the transposed kernel, on the packed list. -/
def packedTransposed (w : ℕ) : ℕ → ℕ → ℕ
  | 0, a => a
  | k + 1, a =>
    let b := packedTransposed w k (a % 2 ^ (w * 2 ^ k))
    let c := packedTransposed w k (a >>> (w * 2 ^ k))
    b + 2 ^ (w * 2 ^ k) * (b ^^^ c)

theorem packedTransposed_eq (hlen : vs.length = 2 ^ k) (hvs : ∀ v ∈ vs, v < 2 ^ w) :
    packedTransposed w k (pack w vs) = pack w (Kronecker.transposed (· ^^^ ·) k vs) := by
  induction k generalizing vs with
  | zero => rfl
  | succ k ih =>
    obtain ⟨htake, hdrop⟩ := Kronecker.halves_length hlen
    have hle : 2 ^ k ≤ vs.length := hlen ▸ Nat.pow_le_pow_right (by omega) (by omega)
    have hfst : ∀ v ∈ vs.take (2 ^ k), v < 2 ^ w := fun v hv => hvs v (List.mem_of_mem_take hv)
    have hsnd : ∀ v ∈ vs.drop (2 ^ k), v < 2 ^ w := fun v hv => hvs v (List.mem_of_mem_drop hv)
    have hxor : ∀ a b : ℕ, a < 2 ^ w → b < 2 ^ w → a ^^^ b < 2 ^ w := fun _ _ => Nat.xor_lt_two_pow
    rw [packedTransposed, Kronecker.transposed, ← pack_take hvs hle, ← pack_drop hvs hle,
      ih htake hfst, ih hdrop hsnd, pack_append, Kronecker.length_transposed htake,
      pack_zipWith_xor (Kronecker.forall_mem_transposed hxor hfst)
        (Kronecker.forall_mem_transposed hxor hsnd)
          ((Kronecker.length_transposed htake).trans (Kronecker.length_transposed hdrop).symm)]

def packedReverse (w : ℕ) : ℕ → ℕ → ℕ
  | 0, a => a
  | k + 1, a =>
    packedReverse w k (a >>> (w * 2 ^ k)) + 2 ^ (w * 2 ^ k) *
      packedReverse w k (a % 2 ^ (w * 2 ^ k))

theorem packedReverse_eq (hlen : vs.length = 2 ^ k) (hvs : ∀ v ∈ vs, v < 2 ^ w) :
    packedReverse w k (pack w vs) = pack w vs.reverse := by
  induction k generalizing vs with
  | zero =>
    obtain ⟨v, rfl⟩ := List.length_eq_one_iff.1 hlen
    rfl
  | succ k ih =>
    obtain ⟨htake, hdrop⟩ := Kronecker.halves_length hlen
    have hle : 2 ^ k ≤ vs.length := hlen ▸ Nat.pow_le_pow_right (by omega) (by omega)
    conv_rhs => rw [← List.take_append_drop (2 ^ k) vs, List.reverse_append]
    rw [packedReverse, ← pack_take hvs hle, ← pack_drop hvs hle,
      ih htake fun v hv => hvs v (List.mem_of_mem_take hv), ih hdrop fun v hv =>
        hvs v (List.mem_of_mem_drop hv),
      pack_append, List.length_reverse, hdrop]

/-- The powers of two of packed exponents. -/
def packedPow (w m : ℕ) : ℕ → ℕ → ℕ
  | 0, a => 2 ^ a
  | k + 1, a => packedPow w m k (a % 2 ^ (m * 2 ^ k)) + 2 ^ (w * 2 ^ k) *
    packedPow w m k (a >>> (m * 2 ^ k))

theorem packedPow_eq (hlen : vs.length = 2 ^ k) (hvs : ∀ v ∈ vs, v < 2 ^ m) :
    packedPow w m k (pack m vs) = pack w (vs.map (2 ^ ·)) := by
  induction k generalizing vs with
  | zero =>
    obtain ⟨v, rfl⟩ := List.length_eq_one_iff.1 hlen
    simp [pack, packedPow]
  | succ k ih =>
    obtain ⟨htake, hdrop⟩ := Kronecker.halves_length hlen
    have hle : 2 ^ k ≤ vs.length := hlen ▸ Nat.pow_le_pow_right (by omega) (by omega)
    conv_rhs => rw [← List.take_append_drop (2 ^ k) vs, List.map_append]
    rw [packedPow, ← pack_take hvs hle, ← pack_drop hvs hle,
      ih htake fun v hv => hvs v (List.mem_of_mem_take hv), ih hdrop fun v hv =>
        hvs v (List.mem_of_mem_drop hv),
      pack_append, List.length_map, htake]

/-- The elimination on the packed list; it matches on the packed list so that each round is
evaluated before the next. -/
def packedLeads (k ones : ℕ) : ℕ → ℕ → List ℕ
  | 0, _ => []
  | n + 1, 0 => 0 :: packedLeads k ones n 0
  | n + 1, a + 1 =>
    let b := (a + 1) % 2 ^ 2 ^ k
    let rest := (a + 1) / 2 ^ 2 ^ k
    let l := topBit k b
    l :: packedLeads k ones n (rest ^^^ ((rest >>> l &&& ones) * b))

theorem packedLeads_succ (k m n a : ℕ) : packedLeads k m (n + 1) a =
    topBit k (a % 2 ^ 2 ^ k) :: packedLeads k m n (a / 2 ^ 2 ^ k ^^^
      (((a / 2 ^ 2 ^ k) >>> topBit k (a % 2 ^ 2 ^ k) &&& m) * (a % 2 ^ 2 ^ k))) := by
  cases a with
  | zero => simp [packedLeads, topBit_eq_log2 (Nat.two_pow_pos (2 ^ k))]
  | succ a => rw [packedLeads]

theorem packedLeads_eq (hvs : ∀ v ∈ vs, v < 2 ^ 2 ^ k) (hn : n ≤ vs.length) (hm : vs.length ≤ m) :
    packedLeads k (pack (2 ^ k) (List.replicate m 1)) n (pack (2 ^ k) vs) = leads n vs := by
  induction n generalizing vs with
  | zero => rfl
  | succ n ih =>
    obtain ⟨v, vs, rfl⟩ := List.exists_cons_of_length_pos (Nat.lt_of_lt_of_le (Nat.succ_pos n) hn)
    have hv := hvs v List.mem_cons_self
    have hrest := fun u (hu : u ∈ vs) => hvs u (List.mem_cons_of_mem _ hu)
    have hlog : v.log2 < 2 ^ k := by
      rcases Nat.eq_zero_or_pos v with rfl | hpos
      · exact Nat.two_pow_pos k
      · exact (Nat.log2_lt (by omega)).2 hv
    have hdiv : (2 ^ 2 ^ k * pack (2 ^ k) vs + v) / 2 ^ 2 ^ k = pack (2 ^ k) vs := by
      rw [Nat.mul_add_div (Nat.two_pow_pos _), Nat.div_eq_of_lt hv, Nat.add_zero]
    simp only [List.length_cons] at hn hm
    rw [packedLeads_succ, pack, hdiv, Nat.mul_add_mod, Nat.mod_eq_of_lt hv, topBit_eq_log2 hv,
      pack_map_reduce (n := m) hv hlog hrest (by omega),
      ih _ (by simpa using hn) (by simp; omega), leads]
    intro u hu
    obtain ⟨u, hmem, rfl⟩ := List.mem_map.1 hu
    exact reduce_lt hv (hrest u hmem)

end packed

end XorSpan
