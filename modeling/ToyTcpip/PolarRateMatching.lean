import ToyTcpip.Polar
import ToyTcpip.Lib.Checked
import ToyTcpip.Lib.XorSpan

/-! The rate matching of `nr_polar_codec.rs`: which messages survive the bits it drops. -/
namespace ToyTcpip.Polar

/-- The place of each sub-block after interleaving. -/
def polarInterleaverPattern : List ℕ :=
  [0, 1, 2, 4, 3, 5, 6, 7, 8, 16, 9, 17, 10, 18, 11, 19, 12, 20, 13, 21, 14, 22, 15, 23, 24, 25, 26,
    28, 27, 29, 30, 31]

/-- The loop that grows `n` until `k_bits` fit. -/
def growSize (kBits n : ℕ) : ℕ := if 2 ^ n < kBits ∧ n < 10 then growSize kBits (n + 1) else n
termination_by 10 - n

/-- The ceiling of the logarithm is exact here; the arithmetic is that of `u32` and a 64-bit
`usize`. -/
def determineMotherCodeSize (kBits eBits : ℕ) : Checked PolarError ℕ :=
  if kBits = 0 ∨ 1024 < kBits then .error (.payloadTooLarge kBits 1024)
  else if eBits = 0 then .error (.invalidRateMatchedLength eBits)
  else
    let n1 := Nat.clog 2 eBits
    if n1 = 0 ∨ 2 ^ 64 ≤ 9 * 2 ^ (n1 - 1) then .panic
    else
      let nTentative := if eBits ≤ 9 * 2 ^ (n1 - 1) / 8 ∧ 16 * kBits ≤ 9 * eBits then n1 - 1 else n1
      .ok (2 ^ growSize kBits (min (max nTentative 5) 10))

/-- The sub-blocks in the order of the pattern; what no sub-block fills stays `zero`. -/
def interleave {α : Type} (zero : α) (codedBits : List α) : List α :=
  let subblockSize := codedBits.length / 32
  polarInterleaverPattern.flatMap (fun inSb =>
    (codedBits.drop (inSb * subblockSize)).take subblockSize) ++
    List.replicate (codedBits.length - 32 * subblockSize) zero

def polarRateMatch (codedBits : List UInt8) (eBits kBits : ℕ) : Except PolarError (List UInt8) :=
  let n := codedBits.length
  if n = 0 ∨ isPowerOfTwo n = false then .error (.invalidMotherCodeSize n)
  else if eBits = 0 then .error (.invalidRateMatchedLength eBits)
  else
    let interleaved := interleave 0 codedBits
    if n ≤ eBits then .ok ((List.range eBits).map fun i => interleaved.getD (i % n) 0)
    else if 16 * kBits ≤ 7 * eBits then .ok (interleaved.drop (n - eBits))
    else .ok (interleaved.take eBits)

/-- What is sent for a message. -/
def sent (infoBits : List UInt8) (nMother eBits : ℕ) : Except PolarError (List UInt8) :=
  match polarEncode infoBits nMother with
  | .ok coded => polarRateMatch coded eBits infoBits.length
  | .error e => .error e

/-- Different messages are sent as different bits. -/
def Injective (nMother kBits eBits : ℕ) : Prop :=
  ∀ info info' : List UInt8, (∀ b ∈ info, b = 0 ∨ b = 1) → (∀ b ∈ info', b = 0 ∨ b = 1) →
    info.length = kBits → info'.length = kBits →
    sent info nMother eBits = sent info' nMother eBits → info = info'

/-- A mother code is found without a fault, has room for the message, and nothing of the message is
lost. -/
def Lossless (kBits eBits : ℕ) : Prop :=
  ∃ n, determineMotherCodeSize kBits eBits = .ok n ∧ kBits ≤ n ∧ Injective n kBits eBits

/-- The capacities for `0`, `1`, `2`, … sent bits: how often each comes, and its value. -/
def capacityRuns : List (ℕ × ℕ) :=
  [(1, 0), (1, 1), (1, 2), (1, 3), (5, 4), (1, 5), (1, 7), (2, 10), (1, 12), (3, 13), (1, 14),
    (7, 15), (1, 22), (1, 24), (1, 25), (1, 28), (1, 29), (1, 30), (1, 31), (1, 32), (2, 21),
    (14, 23), (1, 37), (1, 39), (2, 42), (2, 43), (1, 53), (1, 54), (2, 55), (2, 56), (1, 61),
    (1, 62), (1, 63), (1, 64), (4, 33), (28, 38), (1, 60), (1, 64), (2, 68), (4, 72), (4, 74),
    (1, 97), (1, 99), (2, 100), (4, 103), (4, 105), (1, 116), (1, 119), (2, 120), (1, 125),
    (1, 126), (1, 127), (1, 128), (8, 52), (56, 62), (1, 98), (1, 105), (2, 113), (4, 121),
    (8, 127), (8, 135), (1, 173), (1, 178), (6, 182), (8, 190), (8, 193), (1, 222), (1, 224),
    (2, 229), (4, 232), (1, 244), (1, 247), (2, 248), (1, 253), (1, 254), (1, 255), (1, 256),
    (16, 103), (112, 104), (1, 164), (1, 177), (2, 187), (4, 198), (8, 211), (16, 225), (16, 245),
    (1, 312), (1, 324), (2, 333), (12, 342), (16, 356), (16, 369), (1, 418), (1, 423), (2, 431),
    (4, 438), (8, 442), (1, 477), (1, 479), (2, 484), (4, 487), (1, 500), (1, 503), (2, 504),
    (1, 509), (1, 510), (1, 511), (1, 512), (32, 177), (224, 193), (1, 280), (1, 309), (6, 328),
    (8, 352), (16, 382), (32, 440), (32, 441), (1, 563), (1, 589), (2, 604), (4, 620), (24, 628),
    (32, 666), (32, 696), (1, 787), (1, 805), (2, 815), (4, 837), (8, 848), (16, 863), (1, 922),
    (1, 928), (2, 936), (4, 943), (8, 947), (1, 988), (1, 990), (2, 995), (4, 999), (1, 1012),
    (1, 1015), (2, 1016), (1, 1021), (1, 1022), (1, 1023)]

def capacities : List ℕ := capacityRuns.flatMap fun x => List.replicate x.1 x.2

/-- The most information bits that `eBits` sent bits carry when some coded bits are dropped. -/
def capacity (eBits : ℕ) : ℕ := capacities.getD eBits maxPolarN

/-! ### Sub-blocks -/

section interleaving

variable {α β γ : Type} {m n s : ℕ} {z : α} {l : List α}

theorem pattern_perm : polarInterleaverPattern.Perm (List.range 32) := by decide

/-- The blocks of a list in their own order make it up. -/
theorem flatMap_blocks (l : List α) (s c : ℕ) :
    (List.range c).flatMap (fun b => (l.drop (b * s)).take s) = l.take (c * s) := by
  induction c with
  | zero => simp
  | succ c ih => rw [List.range_succ, List.flatMap_append, ih, List.flatMap_singleton, Nat.succ_mul,
    List.take_add]

theorem interleave_eq (h : l.length = 32 * s) : interleave z l =
    polarInterleaverPattern.flatMap fun b => (l.drop (b * s)).take s := by
  have hs : l.length / 32 = s := by omega
  unfold interleave
  simp only [hs]
  rw [h, Nat.sub_self, List.replicate_zero, List.append_nil]

theorem interleave_perm (h : l.length = 32 * s) : (interleave z l).Perm l := by
  rw [interleave_eq h]
  have hall := flatMap_blocks l s 32
  rw [← h, List.take_length] at hall
  exact (pattern_perm.flatMap_right _).trans (List.Perm.of_eq hall)

example : interleave 0 (List.range 32) = polarInterleaverPattern := by decide +kernel

theorem length_interleave (h : l.length = 32 * s) : (interleave z l).length = 32 * s :=
  (interleave_perm h).length_eq.trans h

theorem interleave_map (f : α → β) (z₁ : β) (h : l.length = 32 * s) :
    interleave z₁ (l.map f) = (interleave z l).map f := by
  rw [interleave_eq h, interleave_eq (by rw [List.length_map, h]), List.map_flatMap]
  simp only [List.map_take, List.map_drop]

theorem interleave_zipWith {z₁ : β} {z₂ : γ} {l' : List β} (f : α → β → γ) (h : l.length = 32 * s)
    (h' : l'.length = 32 * s) : interleave z₂ (List.zipWith f l l') =
      List.zipWith f (interleave z l) (interleave z₁ l') := by
  have hzip : (l.zip l').length = 32 * s := by simp [h, h']
  have hfst := interleave_map (z := (z, z₁)) Prod.fst z hzip
  have hsnd := interleave_map (z := (z, z₁)) Prod.snd z₁ hzip
  rw [List.map_fst_zip (by omega)] at hfst
  rw [List.map_snd_zip (by omega)] at hsnd
  rw [hfst, hsnd, List.zipWith_map, List.zipWith_self, ← List.map_uncurry_zip_eq_zipWith,
    interleave_map _ _ hzip]
  rfl

/-- Every list is the interleaving of another. -/
theorem exists_interleave (h : l.length = 32 * s) : ∃ l' : List α, l'.length = 32 * s ∧
    interleave z l' = l := by
  have hrange : (List.range (32 * s)).length = 32 * s := List.length_range
  have hperm := interleave_perm (z := 0) hrange
  have hnodup := hperm.nodup_iff.2 List.nodup_range
  refine ⟨(List.range (32 * s)).map fun i =>
    l.getD ((interleave 0 (List.range (32 * s))).idxOf i) z, by simp, ?_⟩
  rw [interleave_map (z := 0) _ _ hrange]
  refine List.ext_getElem (by rw [List.length_map, length_interleave hrange, h]) fun i hi hi' => ?_
  rw [List.getElem_map, List.Nodup.idxOf_getElem hnodup, List.getD_eq_getElem _ _ hi']

theorem sum_interleave {bs : List Bool} {vs : List ℕ} (hbs : bs.length = 32 * s)
    (hvs : vs.length = 32 * s) :
    XorSpan.sum (interleave false bs) (interleave 0 vs) = XorSpan.sum bs vs := by
  have hzip : (bs.zip vs).length = 32 * s := by simp [hbs, hvs]
  have hperm := XorSpan.sum_perm (interleave_perm (z := (false, 0)) hzip)
  rw [← interleave_map Prod.fst false hzip, ← interleave_map Prod.snd 0 hzip,
    List.map_fst_zip (by omega), List.map_snd_zip (by omega)] at hperm
  exact hperm

end interleaving

/-! ### Words and their weights -/

section weights

variable {i j k m n r : ℕ} {u : List Bool}

/-- The channels of a mother code, the most reliable first. -/
def ranking (n : ℕ) : List ℕ := (polarReliabilitySequence1024.filter (· < n)).reverse

theorem ranking_perm (hn : n ≤ maxPolarN) : (ranking n).Perm (List.range n) :=
  (List.reverse_perm _).trans (filtered_perm hn)

theorem length_ranking (hn : n ≤ maxPolarN) : (ranking n).length = n := by
  rw [(ranking_perm hn).length_eq, List.length_range]

/-- The information goes into the channels that rank first. -/
theorem mem_informationSet (hn : n ≤ maxPolarN) :
    j ∈ getInformationSubchannelSet n k ↔ ∃ r < k, (ranking n)[r]? = some j := by
  have hlen := length_ranking hn
  rw [ranking, List.length_reverse] at hlen
  rw [informationSet_eq hn, ← List.mem_reverse, List.reverse_drop, hlen, List.mem_iff_getElem?]
  change (∃ r, ((ranking n).take (n - (n - k)))[r]? = some j) ↔ _
  constructor
  · rintro ⟨r, hr⟩
    rw [List.getElem?_take] at hr
    split_ifs at hr with hlt
    exact ⟨r, by omega, hr⟩
  · rintro ⟨r, hlt, hr⟩
    have hrn := (List.getElem?_eq_some_iff.1 hr).1
    rw [length_ranking hn] at hrn
    exact ⟨r, by rw [List.getElem?_take, if_pos (by omega), hr]⟩

/-- Channel `j` weighs `2 ^ r` where `r` is its rank. -/
def weights (m : ℕ) : List ℕ := (List.range (2 ^ m)).map fun j => 2 ^ (ranking (2 ^ m)).idxOf j

@[simp] theorem length_weights : (weights m).length = 2 ^ m := by
  rw [weights, List.length_map, List.length_range]

theorem idxOf_ranking_lt (hm : 2 ^ m ≤ maxPolarN) (hj : j < 2 ^ m) :
    (ranking (2 ^ m)).idxOf j < 2 ^ m := by
  have hlt := List.idxOf_lt_length_of_mem ((ranking_perm hm).mem_iff.2 (List.mem_range.2 hj))
  rwa [length_ranking hm] at hlt

theorem lt_of_mem_weights (hm : 2 ^ m ≤ maxPolarN) : ∀ v ∈ weights m, v < 2 ^ 2 ^ m := by
  intro v hv
  obtain ⟨j, hj, rfl⟩ := List.mem_map.1 hv
  exact Nat.pow_lt_pow_right (by omega) (idxOf_ranking_lt hm (List.mem_range.1 hj))

theorem testBit_weights (hm : 2 ^ m ≤ maxPolarN) (hj : j < 2 ^ m) :
    ((weights m).getD j 0).testBit r = decide ((ranking (2 ^ m))[r]? = some j) := by
  have hmem := (ranking_perm hm).mem_iff.2 (List.mem_range.2 hj)
  have hnodup := (ranking_perm hm).nodup_iff.2 List.nodup_range
  rw [weights, List.getD_eq_getElem _ 0 (by simpa using hj), List.getElem_map, List.getElem_range,
    Nat.testBit_two_pow]
  refine decide_eq_decide.2 ⟨fun h => ?_, fun h => ?_⟩
  · rw [← h]
    exact List.getElem?_idxOf hmem
  · obtain ⟨hr, rfl⟩ := List.getElem?_eq_some_iff.1 h
    exact hnodup.idxOf_getElem r hr

/-- The weight of a word. -/
def weight (m : ℕ) (u : List Bool) : ℕ := XorSpan.sum u (weights m)

theorem testBit_weight (hm : 2 ^ m ≤ maxPolarN) (hu : u.length = 2 ^ m)
    (hj : (ranking (2 ^ m))[r]? = some j) : (weight m u).testBit r = u.getD j false := by
  refine XorSpan.testBit_sum (by rw [hu, length_weights]) fun i hi => ?_
  rw [testBit_weights hm (by simpa using hi), hj]
  exact decide_eq_decide.2 (by rw [Option.some_inj, eq_comm])

theorem weight_lt (hm : 2 ^ m ≤ maxPolarN) (u : List Bool) : weight m u < 2 ^ 2 ^ m :=
  XorSpan.sum_lt (lt_of_mem_weights hm) u

/-- A word of small weight is one that only the best channels carry. -/
theorem weight_lt_iff (hm : 2 ^ m ≤ maxPolarN) (hu : u.length = 2 ^ m) : weight m u < 2 ^ k ↔
    ∀ j < 2 ^ m, j ∉ getInformationSubchannelSet (2 ^ m) k → u.getD j false = false := by
  constructor
  · intro h j hj hout
    obtain ⟨r, hr, hrank⟩ := List.getElem_of_mem ((ranking_perm hm).mem_iff.2 (List.mem_range.2 hj))
    have hsome : (ranking (2 ^ m))[r]? = some j := by rw [List.getElem?_eq_getElem hr, hrank]
    have hk : k ≤ r := by
      by_contra hlt
      exact hout ((mem_informationSet hm).2 ⟨r, by omega, hsome⟩)
    rw [length_ranking hm] at hr
    rw [← testBit_weight hm hu hsome]
    exact Nat.testBit_lt_two_pow (h.trans_le (Nat.pow_le_pow_right (by omega) hk))
  · intro h
    refine Nat.lt_pow_two_of_testBit _ fun r hr => ?_
    rcases lt_or_ge r (2 ^ m) with hlt | hge
    · have hlen := length_ranking hm
      have hsome := List.getElem?_eq_getElem (l := ranking (2 ^ m)) (i := r) (by omega)
      have hmem := (ranking_perm hm).mem_iff.1 (List.mem_of_getElem? hsome)
      rw [testBit_weight hm hu hsome]
      refine h _ (List.mem_range.1 hmem) fun hin => ?_
      obtain ⟨r', hr', hsome'⟩ := (mem_informationSet hm).1 hin
      have hnodup := (ranking_perm hm).nodup_iff.2 List.nodup_range
      have := (List.getElem?_inj (by omega) hnodup).1 (hsome.trans hsome'.symm)
      omega
    · exact Nat.testBit_lt_two_pow ((weight_lt hm u).trans_le (Nat.pow_le_pow_right (by omega) hge))

end weights

/-! ### The dropped columns -/

section columns

variable {α : Type} {backward : Bool} {d w y : List Bool} {e k m n : ℕ}
  {info info' u u' : List UInt8}

/-- The order in which more and more bits are dropped. -/
def dropOrder (backward : Bool) (l : List α) : List α := if backward then l.reverse else l

/-- What is left when all but `e` bits are dropped. -/
def kept (backward : Bool) (e : ℕ) (l : List α) : List α :=
  if backward then l.take e else l.drop (l.length - e)

@[simp] theorem length_dropOrder {l : List α} : (dropOrder backward l).length = l.length := by
  cases backward with
  | false => rfl
  | true => exact List.length_reverse

@[simp] theorem dropOrder_dropOrder {l : List α} :
    dropOrder backward (dropOrder backward l) = l := by
  cases backward with
  | false => rfl
  | true => exact List.reverse_reverse l

theorem drop_dropOrder (backward : Bool) {l : List α} (he : e ≤ l.length) :
    (dropOrder backward l).drop (l.length - e) = dropOrder backward (kept backward e l) := by
  cases backward with
  | false => rfl
  | true =>
    change l.reverse.drop _ = (l.take e).reverse
    rw [List.drop_reverse, Nat.sub_sub_self he]

theorem kept_zipWith {β γ : Type} (f : α → β → γ) {l : List α} {l' : List β}
    (h : l.length = l'.length) :
    kept backward e (List.zipWith f l l') =
      List.zipWith f (kept backward e l) (kept backward e l') := by
  cases backward with
  | false =>
    change (List.zipWith f l l').drop _ = List.zipWith f (l.drop _) (l'.drop _)
    rw [List.drop_zipWith, List.length_zipWith, ← h, Nat.min_self]
  | true => exact List.take_zipWith

theorem zipWith_xor_self (l : List Bool) : List.zipWith xor l l =
    List.replicate l.length false := by
  simp only [List.zipWith_self, Bool.xor_self, List.map_const']

theorem kept_replicate {a : α} (he : e ≤ n) : kept backward e (List.replicate n a) =
    List.replicate e a := by
  cases backward with
  | false =>
    change (List.replicate n a).drop _ = _
    rw [List.drop_replicate, List.length_replicate, Nat.sub_sub_self he]
  | true =>
    change (List.replicate n a).take e = _
    rw [List.take_replicate, Nat.min_eq_left he]

theorem length_kept {l : List α} (he : e ≤ l.length) : (kept backward e l).length = e := by
  cases backward with
  | false => exact (List.length_drop).trans (by omega)
  | true => exact (List.length_take).trans (by omega)

theorem kept_map {β : Type} (f : α → β) (l : List α) :
    kept backward e (l.map f) = (kept backward e l).map f := by
  cases backward with
  | false =>
    change (l.map f).drop _ = (l.drop _).map f
    rw [List.map_drop, List.length_map]
  | true => exact (List.map_take).symm

/-- What each coded bit adds to the weight of the word. -/
def columns (m : ℕ) (backward : Bool) : List ℕ :=
  dropOrder backward (interleave 0 (Kronecker.transposed (· ^^^ ·) m (weights m)))

theorem two_pow_eq (hm : 5 ≤ m) : 2 ^ m = 32 * 2 ^ (m - 5) := by
  rw [show (32 : ℕ) = 2 ^ 5 from rfl, ← pow_add, Nat.add_sub_cancel' hm]

theorem length_columns (hm : 5 ≤ m) : (columns m backward).length = 2 ^ m := by
  have h := Kronecker.length_transposed (f := (· ^^^ · : ℕ → ℕ → ℕ)) (length_weights (m := m))
  rw [columns, length_dropOrder, length_interleave (h.trans (two_pow_eq hm)), ← two_pow_eq hm]

/-- The weight of a word, by the bits it is coded as. -/
theorem weight_transform (backward : Bool) (hm : 5 ≤ m) (hd : d.length = 2 ^ m) :
    weight m (Kronecker.transform xor m d) =
      XorSpan.sum (dropOrder backward (interleave false d)) (columns m backward) := by
  have h := Kronecker.length_transposed (f := (· ^^^ · : ℕ → ℕ → ℕ)) (length_weights (m := m))
  have hd' := hd.trans (two_pow_eq hm)
  have h' := h.trans (two_pow_eq hm)
  rw [weight, XorSpan.sum_transform hd length_weights, ← sum_interleave hd' h', columns]
  cases backward with
  | false => rfl
  | true => exact (XorSpan.sum_reverse (by rw [length_interleave hd', length_interleave h'])).symm

/-- The low bit of a byte. -/
def odd (b : UInt8) : Bool := b.toNat.testBit 0

theorem odd_xor (a b : UInt8) : odd (a ^^^ b) = xor (odd a) (odd b) := by
  rw [odd, UInt8.toNat_xor, Nat.testBit_xor, odd, odd]

theorem eq_of_odd_eq {a b : UInt8} (ha : a = 0 ∨ a = 1) (hb : b = 0 ∨ b = 1)
    (h : odd a = odd b) : a = b := by
  rcases ha with rfl | rfl <;> rcases hb with rfl | rfl <;> first | rfl | exact absurd h (by decide)

/-- Where two words differ. -/
def diff (u u' : List UInt8) : List Bool := List.zipWith xor (u.map odd) (u'.map odd)

theorem getD_diff (hlen : u.length = u'.length) (j : ℕ) :
    (diff u u').getD j false = xor (odd (u.getD j 0)) (odd (u'.getD j 0)) := by
  rcases lt_or_ge j u.length with hlt | hge
  · rw [List.getD_eq_getElem _ _ (by simp [diff, ← hlen, hlt]), List.getD_eq_getElem _ _ hlt,
      List.getD_eq_getElem _ _ (hlen ▸ hlt)]
    simp [diff]
  · rw [List.getD_eq_default _ _ (by simp [diff, ← hlen, hge]), List.getD_eq_default _ _ hge,
      List.getD_eq_default _ _ (hlen ▸ hge), Bool.xor_self]

/-- The transform of a difference is the difference of the transforms, and the other way round. -/
theorem transform_diff (hu : u.length = 2 ^ m) (hu' : u'.length = 2 ^ m) :
    Kronecker.transform xor m (diff (Kronecker.transform (· ^^^ ·) m u)
      (Kronecker.transform (· ^^^ ·) m u')) =
      diff u u' := by
  have h : (u.map odd).length = 2 ^ m := by rw [List.length_map, hu]
  have h' : (u'.map odd).length = 2 ^ m := by rw [List.length_map, hu']
  have : Std.Commutative xor := ⟨Bool.xor_comm⟩
  rw [diff, Kronecker.map_transform odd odd_xor, Kronecker.map_transform odd odd_xor,
    ← Kronecker.transform_zipWith h h', Kronecker.transform_transform (by decide)
      (by simp [hu, hu'])]
  rfl

@[simp] theorem length_channelWord : (channelWord n info).length = n := by simp [channelWord]

theorem getD_channelWord_of_notMem {j : ℕ} (hj : j ∉ getInformationSubchannelSet n info.length) :
    (channelWord n info).getD j 0 = 0 := by
  rw [channelWord, getD_placeBits_of_notMem hj, List.getD_eq_getElem?_getD,
    List.getElem?_getD_replicate_default_eq]

/-- The information positions of a word hold the message. -/
theorem map_channelWord (hn : n ≤ maxPolarN) (hk : info.length ≤ n)
    (hbits : ∀ b ∈ info, b = 0 ∨ b = 1) :
    (getInformationSubchannelSet n info.length).map (fun j =>
      (channelWord n info).getD j 0) = info := by
  rw [channelWord, map_placeBits (informationSet_nodup hn) (fun j hj => by
    simpa using lt_of_mem_informationSet hn hj) (informationSet_length hn hk).symm]
  have hkeep : ∀ b ∈ info, b &&& 1 = b := by
    intro b hb
    rcases hbits b hb with rfl | rfl <;> rfl
  exact (List.map_congr_left hkeep).trans (List.map_id _)

theorem weight_diff_lt (hm : 2 ^ m ≤ maxPolarN) (hinfo : info.length = k)
    (hinfo' : info'.length = k) :
    weight m (diff (channelWord (2 ^ m) info) (channelWord (2 ^ m) info')) < 2 ^ k := by
  refine (weight_lt_iff hm (by simp [diff])).2 fun j _ hj => ?_
  rw [getD_diff (by simp), getD_channelWord_of_notMem (by rwa [hinfo]),
    getD_channelWord_of_notMem (by rwa [hinfo']), Bool.xor_self]

/-- Messages whose words differ by no weight are the same. -/
theorem eq_of_weight_diff (hm : 2 ^ m ≤ maxPolarN) (hk : k ≤ 2 ^ m) (hinfo : info.length = k)
    (hinfo' : info'.length = k) (hbits : ∀ b ∈ info, b = 0 ∨ b = 1)
    (hbits' : ∀ b ∈ info', b = 0 ∨ b = 1)
    (h : weight m (diff (channelWord (2 ^ m) info) (channelWord (2 ^ m) info')) = 0) :
    info = info' := by
  have hread := map_channelWord hm (by omega) hbits
  have hread' := map_channelWord hm (by omega) hbits'
  rw [hinfo] at hread
  rw [hinfo'] at hread'
  refine hread.symm.trans ((List.map_congr_left fun j hj => ?_).trans hread')
  have hmem := List.mem_map_of_mem (f := fun j => (channelWord (2 ^ m) info).getD j 0) hj
  have hmem' := List.mem_map_of_mem (f := fun j => (channelWord (2 ^ m) info').getD j 0) hj
  rw [hread] at hmem
  rw [hread'] at hmem'
  have hlen : (diff (channelWord (2 ^ m) info) (channelWord (2 ^ m) info')).length = 2 ^ m := by
    simp [diff]
  have hfalse := (weight_lt_iff (k := 0) hm hlen).1 (by rw [h]; exact Nat.one_pos) j
    (lt_of_mem_informationSet hm hj) (fun hin => by
      obtain ⟨r, hr, -⟩ := (mem_informationSet hm).1 hin
      exact absurd hr (Nat.not_lt_zero r))
  rw [getD_diff (by simp)] at hfalse
  exact eq_of_odd_eq (hbits _ hmem) (hbits' _ hmem') (by simpa using hfalse)

/-- The message in the information channels of a word. -/
def message (n k : ℕ) (w : List Bool) : List UInt8 :=
  (getInformationSubchannelSet n k).map fun j => (w.getD j false).toUInt8

theorem length_message (hn : n ≤ maxPolarN) (hk : k ≤ n) : (message n k w).length = k :=
  (List.length_map _).trans (informationSet_length hn hk)

theorem message_bits : ∀ b ∈ message n k w, b = 0 ∨ b = 1 := by
  intro b hb
  obtain ⟨j, -, rfl⟩ := List.mem_map.1 hb
  cases w.getD j false <;> decide

/-- A word of small weight comes from its message. -/
theorem channelWord_message (hm : 2 ^ m ≤ maxPolarN) (hk : k ≤ 2 ^ m) (hw : w.length = 2 ^ m)
    (h : weight m w < 2 ^ k) : channelWord (2 ^ m) (message (2 ^ m) k w) = w.map Bool.toUInt8 := by
  have hlen := length_message (w := w) hm hk
  have hread := map_channelWord hm (by rwa [hlen]) (message_bits (n := 2 ^ m) (k := k) (w := w))
  rw [hlen, message, List.map_inj_left, ← message] at hread
  refine List.ext_getElem (by simp [hw]) fun j hj hj' => ?_
  rw [← List.getD_eq_getElem _ 0 hj, List.getElem_map,
    ← List.getD_eq_getElem _ false (by simpa using hj')]
  by_cases hin : j ∈ getInformationSubchannelSet (2 ^ m) k
  · exact hread j hin
  · rw [getD_channelWord_of_notMem (by rwa [hlen]),
      (weight_lt_iff hm hw).1 h j (by simpa [hw] using hj') hin]
    rfl

/-- Bits whose kept part is false are the dropped ones. -/
theorem dropOrder_eq_of_kept {y : List Bool} (he : e ≤ y.length)
    (h : kept backward e y = List.replicate e false) :
    dropOrder backward y = (dropOrder backward y).take (y.length - e) ++
      List.replicate e false := by
  have hdrop := drop_dropOrder backward he
  have hrep : dropOrder backward (List.replicate e false) = List.replicate e false := by
    cases backward with
    | false => rfl
    | true => exact List.reverse_replicate
  rw [h, hrep] at hdrop
  rw [← hdrop, List.take_append_drop]

theorem kept_dropOrder (bs : List Bool) :
    kept backward e (dropOrder backward (bs ++ List.replicate e false)) =
      List.replicate e false := by
  cases backward with
  | false =>
    change (bs ++ List.replicate e false).drop ((bs ++ List.replicate e false).length - e) = _
    rw [List.length_append, List.length_replicate, Nat.add_sub_cancel, List.drop_left]
  | true =>
    change (bs ++ List.replicate e false).reverse.take e = _
    rw [List.reverse_append, List.reverse_replicate, List.take_left' List.length_replicate]

/-- The bits a message is coded as. -/
def codedWord (m : ℕ) (info : List UInt8) : List UInt8 :=
  Kronecker.transform (· ^^^ ·) m (channelWord (2 ^ m) info)

@[simp] theorem length_codedWord : (codedWord m info).length = 2 ^ m :=
  Kronecker.length_transform length_channelWord

theorem sent_eq (hm : 5 ≤ m) (hmax : 2 ^ m ≤ maxPolarN) (hpos : 0 < info.length)
    (hk : info.length ≤ 2 ^ m) (he : 0 < e) :
    sent info (2 ^ m) e = .ok (if 2 ^ m ≤ e
      then (List.range e).map fun i => (interleave 0 (codedWord m info)).getD (i % 2 ^ m) 0
      else kept (decide (7 * e < 16 * info.length)) e (interleave 0 (codedWord m info))) := by
  have hmin : minPolarN ≤ 2 ^ m :=
    (two_pow_eq hm).symm ▸ Nat.le_mul_of_pos_right 32 (Nat.two_pow_pos _)
  have hpow : isPowerOfTwo (2 ^ m) = true := isPowerOfTwo_iff.2 ⟨m, rfl⟩
  have hlen : (interleave 0 (codedWord m info)).length = 2 ^ m := by
    rw [length_interleave (length_codedWord.trans (two_pow_eq hm)), ← two_pow_eq hm]
  unfold sent
  rw [polarEncode_ok hmin hmax hpos hk]
  change polarRateMatch (codedWord m info) e info.length = _
  unfold polarRateMatch
  simp only [length_codedWord, hpow, Bool.true_eq_false, or_false]
  rw [if_neg (Nat.two_pow_pos m).ne', if_neg (by omega)]
  split_ifs with hle hratio
  · rfl
  · rw [kept, decide_eq_false (by omega), if_neg (by decide), hlen]
  · rw [kept, decide_eq_true (by omega), if_pos rfl]

theorem transform_replicate_false :
    Kronecker.transform xor m (List.replicate (2 ^ m) false) = List.replicate (2 ^ m) false := by
  have : Std.Commutative xor := ⟨Bool.xor_comm⟩
  have hlen : (List.replicate (2 ^ m) false).length = 2 ^ m := List.length_replicate
  have h := Kronecker.transform_zipWith (f := xor) hlen hlen
  rwa [zipWith_xor_self, zipWith_xor_self, hlen, Kronecker.length_transform hlen] at h

/-- The message of a word of small weight is coded as the transform of the word. -/
theorem codedWord_message (hm : 2 ^ m ≤ maxPolarN) (hk : k ≤ 2 ^ m) (hd : d.length = 2 ^ m)
    (h : weight m (Kronecker.transform xor m d) < 2 ^ k) :
    codedWord m (message (2 ^ m) k (Kronecker.transform xor m d)) = d.map Bool.toUInt8 := by
  have : Std.Commutative xor := ⟨Bool.xor_comm⟩
  rw [codedWord, channelWord_message hm hk (Kronecker.length_transform hd) h,
    ← Kronecker.map_transform (f := xor) (g := (· ^^^ ·)) Bool.toUInt8 (by decide),
    Kronecker.transform_transform (by decide) hd]

/-- Messages whose coded bits sum to no weight where they differ are the same. -/
theorem eq_of_sum_eq_zero (backward : Bool) (hm : 5 ≤ m) (hmax : 2 ^ m ≤ maxPolarN) (hk : k ≤ 2 ^ m)
    (hinfo : info.length = k) (hinfo' : info'.length = k) (hbits : ∀ b ∈ info, b = 0 ∨ b = 1)
    (hbits' : ∀ b ∈ info', b = 0 ∨ b = 1)
    (h : XorSpan.sum (dropOrder backward (interleave false
      (diff (codedWord m info) (codedWord m info'))))
      (columns m backward) < 2 ^ k → XorSpan.sum (dropOrder backward
        (interleave false (diff (codedWord m info) (codedWord m info'))))
        (columns m backward) = 0) :
    info = info' := by
  have hlen : (diff (codedWord m info) (codedWord m info')).length = 2 ^ m := by simp [diff]
  rw [← weight_transform backward hm hlen, codedWord, codedWord,
    transform_diff length_channelWord length_channelWord] at h
  exact eq_of_weight_diff hmax hk hinfo hinfo' hbits hbits' (h (weight_diff_lt hmax hinfo hinfo'))

theorem interleave_diff (hm : 5 ≤ m) (hu : u.length = 2 ^ m) (hu' : u'.length = 2 ^ m) :
    interleave false (diff u u') = List.zipWith xor ((interleave 0 u).map odd)
      ((interleave 0 u').map odd) := by
  have h := hu.trans (two_pow_eq hm)
  have h' := hu'.trans (two_pow_eq hm)
  rw [diff, interleave_zipWith (z := false) xor (by rwa [List.length_map])
    (by rwa [List.length_map]), interleave_map odd false h, interleave_map odd false h']

/-- Nothing is lost where every coded bit is sent. -/
theorem injective_of_repetition (hm : 5 ≤ m) (hmax : 2 ^ m ≤ maxPolarN) (hk : 0 < k)
    (hkn : k ≤ 2 ^ m) (he : 2 ^ m ≤ e) : Injective (2 ^ m) k e := by
  intro info info' hbits hbits' hinfo hinfo' hsent
  have hpos : 0 < e := (Nat.two_pow_pos m).trans_le he
  rw [sent_eq hm hmax (by omega) (by omega) hpos,
    sent_eq hm hmax (by omega) (by omega) hpos, if_pos he, if_pos he, Except.ok.injEq,
    List.map_inj_left] at hsent
  refine eq_of_sum_eq_zero false hm hmax hkn hinfo hinfo' hbits hbits' fun _ => ?_
  have hlen : ∀ info, (interleave 0 (codedWord m info)).length = 2 ^ m := fun info => by
    rw [length_interleave (length_codedWord.trans (two_pow_eq hm)), ← two_pow_eq hm]
  have heq : interleave 0 (codedWord m info) = interleave 0 (codedWord m info') := by
    refine List.ext_getElem (by rw [hlen, hlen]) fun i hi hi' => ?_
    have hread := hsent i (List.mem_range.2 ((hlen info ▸ hi).trans_le he))
    rwa [Nat.mod_eq_of_lt (hlen info ▸ hi), List.getD_eq_getElem _ _ hi,
      List.getD_eq_getElem _ _ hi'] at hread
  rw [interleave_diff hm length_codedWord length_codedWord, heq, zipWith_xor_self]
  exact XorSpan.sum_replicate_false

/-- Nothing is lost where some bits are dropped exactly when the dropped columns have no sum of
small weight. -/
theorem injective_iff_sum (hm : 5 ≤ m) (hmax : 2 ^ m ≤ maxPolarN) (hk : 0 < k)
    (hkn : k ≤ 2 ^ m) (he : 0 < e) (hlt : e < 2 ^ m) :
    Injective (2 ^ m) k e ↔
    ∀ bs : List Bool, bs.length = 2 ^ m - e →
      XorSpan.sum bs (columns m (decide (7 * e < 16 * k))) < 2 ^ k →
        XorSpan.sum bs (columns m (decide (7 * e < 16 * k))) = 0 := by
  generalize hback : decide (7 * e < 16 * k) = backward
  have hlen : ∀ info, (interleave 0 (codedWord m info)).length = 2 ^ m := fun info => by
    rw [length_interleave (length_codedWord.trans (two_pow_eq hm)), ← two_pow_eq hm]
  constructor
  · intro h bs hbs hsum
    have hsplit : (bs ++ List.replicate e false).length = 2 ^ m := by
      rw [List.length_append, List.length_replicate, hbs, Nat.sub_add_cancel hlt.le]
    obtain ⟨d, hd, hy⟩ := exists_interleave (z := false)
      (l := dropOrder backward (bs ++ List.replicate e false))
      (length_dropOrder.trans (hsplit.trans (two_pow_eq hm)))
    rw [← two_pow_eq hm] at hd
    have hweight := weight_transform backward hm hd
    rw [hy, dropOrder_dropOrder, XorSpan.sum_append_replicate_false] at hweight
    rw [← hweight] at hsum ⊢
    have hzero : weight m (Kronecker.transform xor m (List.replicate (2 ^ m) false)) = 0 := by
      rw [transform_replicate_false]
      exact XorSpan.sum_replicate_false
    have hzeros : interleave false (List.replicate (2 ^ m) false) = List.replicate (2 ^ m) false :=
      List.perm_replicate.1 (interleave_perm (s := 2 ^ (m - 5))
        (by rw [List.length_replicate, two_pow_eq hm]))
    -- the word and the zero word are sent alike
    have hsame := h (message (2 ^ m) k (Kronecker.transform xor m d))
      (message (2 ^ m) k (Kronecker.transform xor m (List.replicate (2 ^ m) false)))
        message_bits message_bits
      (length_message hmax hkn) (length_message hmax hkn) (by
        rw [sent_eq hm hmax (by rwa [length_message hmax hkn])
          (by rwa [length_message hmax hkn]) he,
          sent_eq hm hmax (by rwa [length_message hmax hkn]) (by rwa [length_message hmax hkn]) he,
          if_neg (by omega), if_neg (by omega), codedWord_message hmax hkn hd hsum,
          codedWord_message hmax hkn
          List.length_replicate (hzero ▸ Nat.two_pow_pos k), length_message hmax hkn,
            length_message hmax hkn, hback,
          interleave_map (z := false) _ 0 (hd.trans (two_pow_eq hm)),
            interleave_map (z := false) _ 0
          (List.length_replicate.trans (two_pow_eq hm)), kept_map, kept_map, hy,
            kept_dropOrder, hzeros,
          kept_replicate hlt.le])
    have hcoded := congrArg (codedWord m) hsame
    rw [codedWord_message hmax hkn hd hsum, codedWord_message hmax hkn List.length_replicate
      (hzero ▸ Nat.two_pow_pos k)] at hcoded
    have hinj : Function.Injective Bool.toUInt8 := by decide
    rw [List.map_injective_iff.2 hinj hcoded, hzero]
  · intro h info info' hbits hbits' hinfo hinfo' hsent
    rw [sent_eq hm hmax (by omega) (by omega) he, sent_eq hm hmax (by omega) (by omega) he,
      if_neg (by omega), if_neg (by omega), hinfo, hinfo', hback, Except.ok.injEq] at hsent
    refine eq_of_sum_eq_zero backward hm hmax hkn hinfo hinfo' hbits hbits' ?_
    have hkept : kept backward e (interleave false (diff (codedWord m info) (codedWord m info'))) =
        List.replicate e false := by
      rw [interleave_diff hm length_codedWord length_codedWord,
        kept_zipWith _ (by simp [hlen]), kept_map, kept_map, hsent, zipWith_xor_self,
        List.length_map, length_kept (by rw [hlen]; omega)]
    have hlen' : (interleave false (diff (codedWord m info) (codedWord m info'))).length =
        2 ^ m := by
      rw [length_interleave (s := 2 ^ (m - 5)) (by simp [diff, two_pow_eq hm]), ← two_pow_eq hm]
    rw [dropOrder_eq_of_kept (by omega) hkept, XorSpan.sum_append_replicate_false]
    exact h _ (by rw [List.length_take, length_dropOrder, hlen']; omega)

end columns

/-! ### The capacities -/

section capacities

variable {backward : Bool} {e k m t : ℕ}

/-- How many bits may be dropped from a mother code that was not chosen too large. -/
def mostDropped (m : ℕ) : ℕ := if m = 5 then 31 else 2 ^ (m - 1) - 1

/-- The shifts tell numbers apart by their low bits. -/
def shifts : List ℕ := [3, 10, 29, 88, 265, 600]

def dropped (m : ℕ) (backward : Bool) : List ℕ :=
  ((columns m backward).take (mostDropped m)).map (XorSpan.spread shifts)

/-- The ranks of the channels, packed. -/
def packedRanks (m : ℕ) : ℕ := ((ranking (2 ^ m)).zipIdx.map fun x => x.2 * 2 ^ (m * x.1)).sum

/-- The sub-blocks of `w` bits in their places. -/
def packedInterleave (w a : ℕ) : ℕ :=
  XorSpan.pack w (polarInterleaverPattern.map fun i => a >>> (w * i) % 2 ^ w)

def packedColumns (m : ℕ) (backward : Bool) : ℕ :=
  let a := packedInterleave (2 ^ m * 2 ^ (m - 5))
    (XorSpan.packedTransposed (2 ^ m) m (XorSpan.packedPow (2 ^ m) m m (packedRanks m)))
  if backward then XorSpan.packedReverse (2 ^ m) m a else a

def packedDropped (m : ℕ) (backward : Bool) : ℕ :=
  XorSpan.packedSpread (2 ^ m) (mostDropped m) shifts
    (packedColumns m backward % 2 ^ (2 ^ m * mostDropped m))

/-- The capacities are the least leading bits of the columns dropped so far. -/
def capacitiesHold (m : ℕ) (backward : Bool) : Bool :=
  XorSpan.isMinima (2 ^ m) (XorSpan.packedLeads m (XorSpan.ones (2 ^ m) (mostDropped m))
    (mostDropped m)
    (packedDropped m backward)) (((capacities.take (2 ^ m)).reverse).take (mostDropped m))

theorem length_capacities : capacities.length = 1024 := by decide +kernel

theorem capacities_pos : ∀ c ∈ capacities.drop 1, 0 < c := by decide +kernel

example : capacity 40 = 23 ∧ capacity 100 = 68 := by decide +kernel

theorem capacities_hold_forward (hmin : 5 ≤ m) (hmax : m ≤ 10) : capacitiesHold m false = true := by
  interval_cases m
  all_goals decide +kernel

theorem capacities_hold_backward (hmin : 5 ≤ m) (hmax : m ≤ 10) : capacitiesHold m true = true := by
  interval_cases m
  all_goals decide +kernel

theorem capacities_hold (backward : Bool) (hmin : 5 ≤ m) (hmax : m ≤ 10) :
    capacitiesHold m backward = true := by
  cases backward with
  | false => exact capacities_hold_forward hmin hmax
  | true => exact capacities_hold_backward hmin hmax

theorem mostDropped_lt (hmin : 5 ≤ m) : mostDropped m < 2 ^ m := by
  unfold mostDropped
  have hlt := Nat.pow_lt_pow_right (a := 2) (by omega) (show m - 1 < m by omega)
  split_ifs with h
  · subst h
    decide
  · have := Nat.two_pow_pos (m - 1)
    omega

theorem two_pow_le_maxPolarN (hmax : m ≤ 10) : 2 ^ m ≤ maxPolarN :=
  Nat.pow_le_pow_right (by omega) hmax

theorem lt_of_mem_transposed (hmax : m ≤ 10) :
    ∀ v ∈ Kronecker.transposed (· ^^^ ·) m (weights m), v < 2 ^ 2 ^ m :=
  Kronecker.forall_mem_transposed (fun _ _ => Nat.xor_lt_two_pow)
    (lt_of_mem_weights (two_pow_le_maxPolarN hmax))

theorem lt_of_mem_interleave (hmin : 5 ≤ m) (hmax : m ≤ 10) :
    ∀ v ∈ interleave 0 (Kronecker.transposed (· ^^^ ·) m (weights m)), v < 2 ^ 2 ^ m := by
  have hlen := Kronecker.length_transposed (f := (· ^^^ · : ℕ → ℕ → ℕ)) (length_weights (m := m))
  exact fun v hv => lt_of_mem_transposed hmax v
    ((interleave_perm (hlen.trans (two_pow_eq hmin))).mem_iff.1 hv)

theorem lt_of_mem_columns (hmin : 5 ≤ m) (hmax : m ≤ 10) :
    ∀ v ∈ columns m backward, v < 2 ^ 2 ^ m := by
  intro v hv
  refine lt_of_mem_interleave hmin hmax v ?_
  cases backward with
  | false => exact hv
  | true => exact List.mem_reverse.1 hv

theorem packedRanks_eq (hm : 2 ^ m ≤ maxPolarN) :
    packedRanks m = XorSpan.pack m ((List.range (2 ^ m)).map fun j =>
      (ranking (2 ^ m)).idxOf j) := by
  have hnodup := (ranking_perm hm).nodup_iff.2 List.nodup_range
  have hzip : (ranking (2 ^ m)).zipIdx = (ranking (2 ^ m)).map fun j =>
    (j, (ranking (2 ^ m)).idxOf j) := by
    refine List.ext_getElem (by rw [List.length_zipIdx, List.length_map]) fun r hr hr' => ?_
    rw [List.getElem_zipIdx, List.getElem_map, hnodup.idxOf_getElem, Nat.zero_add]
  rw [packedRanks, hzip, List.map_map, XorSpan.pack_map_range]
  exact ((ranking_perm hm).map _).sum_eq

theorem packedInterleave_eq {l : List ℕ} {s w : ℕ} (h : l.length = 32 * s)
    (hl : ∀ v ∈ l, v < 2 ^ w) :
    packedInterleave (w * s) (XorSpan.pack w l) = XorSpan.pack w (interleave 0 l) := by
  have hle : ∀ i ∈ polarInterleaverPattern, i * s + s ≤ l.length := by
    intro i hi
    have hlt : ∀ i ∈ polarInterleaverPattern, i + 1 ≤ 32 := by decide
    rw [h, ← Nat.succ_mul]
    exact Nat.mul_le_mul_right s (hlt i hi)
  have hlen : ∀ i ∈ polarInterleaverPattern, ((l.drop (i * s)).take s).length = s := by
    intro i hi
    have := hle i hi
    rw [List.length_take, List.length_drop]
    omega
  rw [packedInterleave, interleave_eq h, XorSpan.pack_flatMap hlen]
  refine congrArg _ (List.map_congr_left fun i hi => ?_)
  have := hle i hi
  rw [XorSpan.pack_take (fun v hv => hl v (List.mem_of_mem_drop hv))
    (by rw [List.length_drop]; omega),
    XorSpan.pack_drop hl (by omega), Nat.mul_assoc, Nat.mul_comm s i]

theorem packedColumns_eq (hmin : 5 ≤ m) (hmax : m ≤ 10) :
    packedColumns m backward = XorSpan.pack (2 ^ m) (columns m backward) := by
  have hm := two_pow_le_maxPolarN hmax
  have hlen := Kronecker.length_transposed (f := (· ^^^ · : ℕ → ℕ → ℕ)) (length_weights (m := m))
  have hpow : XorSpan.packedPow (2 ^ m) m m (packedRanks m) = XorSpan.pack (2 ^ m) (weights m) := by
    rw [packedRanks_eq hm, XorSpan.packedPow_eq (by simp), List.map_map]
    · rfl
    · intro r hr
      obtain ⟨j, hj, rfl⟩ := List.mem_map.1 hr
      exact idxOf_ranking_lt hm (List.mem_range.1 hj)
  unfold packedColumns columns
  rw [hpow, XorSpan.packedTransposed_eq length_weights (lt_of_mem_weights hm),
    packedInterleave_eq (hlen.trans (two_pow_eq hmin)) (lt_of_mem_transposed hmax)]
  cases backward with
  | false => rfl
  | true =>
    exact XorSpan.packedReverse_eq ((length_interleave (hlen.trans (two_pow_eq hmin))).trans
      (two_pow_eq hmin).symm) (lt_of_mem_interleave hmin hmax)

theorem packedDropped_eq (hmin : 5 ≤ m) (hmax : m ≤ 10) :
    packedDropped m backward = XorSpan.pack (2 ^ m) (dropped m backward) := by
  have hmost := mostDropped_lt hmin
  have hlen : ((columns m backward).take (mostDropped m)).length = mostDropped m := by
    rw [List.length_take, length_columns hmin, Nat.min_eq_left hmost.le]
  have hbound : ∀ v ∈ (columns m backward).take (mostDropped m), v < 2 ^ 2 ^ m :=
    fun v hv => lt_of_mem_columns hmin hmax v (List.mem_of_mem_take hv)
  have hspread := XorSpan.packedSpread_eq shifts (Nat.two_pow_pos m) hbound
  rw [hlen] at hspread
  rw [packedDropped, packedColumns_eq hmin hmax, dropped, ← hspread,
    XorSpan.pack_take (lt_of_mem_columns hmin hmax) (by rw [length_columns hmin]; exact hmost.le)]

theorem capacity_eq {c : ℕ} (ht : 0 < t) (htc : t ≤ c) (hc : c < 2 ^ m) (hm : 2 ^ m ≤ 1024) :
    (((capacities.take (2 ^ m)).reverse).take c).getD (t - 1) 0 = capacity (2 ^ m - t) := by
  have hlen := length_capacities
  have htake : (capacities.take (2 ^ m)).length = 2 ^ m := by rw [List.length_take]; omega
  rw [capacity, List.getD_eq_getElem _ _ (by rw [List.length_take, List.length_reverse]; omega),
    List.getD_eq_getElem _ _ (by omega), List.getElem_take, List.getElem_reverse, List.getElem_take]
  congr 1
  omega

theorem capacity_pos (he : 0 < e) (hlt : e < 1024) : 0 < capacity e := by
  have hlen := length_capacities
  refine capacities_pos _ (List.mem_iff_getElem.2 ⟨e - 1, by rw [List.length_drop]; omega, ?_⟩)
  rw [List.getElem_drop, capacity, List.getD_eq_getElem _ _ (by omega)]
  congr 1
  omega

/-- The columns have no sum of small weight as long as the message is no longer than the
capacity. -/
theorem sum_columns_iff (hmin : 5 ≤ m) (hmax : m ≤ 10) (ht : 0 < t) (htc : t ≤ mostDropped m)
    (hk : k ≤ 2 ^ m) :
    (∀ bs : List Bool, bs.length = t → XorSpan.sum bs (columns m backward) < 2 ^ k →
      XorSpan.sum bs (columns m backward) = 0) ↔ k ≤ capacity (2 ^ m - t) := by
  have hpow : 2 ^ m ≤ 1024 := Nat.pow_le_pow_right (n := 2) (by omega) hmax
  have hmost := mostDropped_lt hmin
  have hlen : ((columns m backward).take (mostDropped m)).length = mostDropped m := by
    rw [List.length_take, length_columns hmin, Nat.min_eq_left hmost.le]
  have hspread : 0 ∉ shifts := by decide
  have hbound : ∀ v ∈ dropped m backward, v < 2 ^ 2 ^ m := by
    intro v hv
    obtain ⟨c, hc, rfl⟩ := List.mem_map.1 hv
    exact (XorSpan.spread_lt_iff hspread).2 (lt_of_mem_columns hmin hmax c
      (List.mem_of_mem_take hc))
  have hhold := capacities_hold backward hmin hmax
  have hdropped : (dropped m backward).length = mostDropped m := (List.length_map _).trans hlen
  rw [capacitiesHold, packedDropped_eq hmin hmax, XorSpan.ones_eq (Nat.two_pow_pos m),
    XorSpan.packedLeads_eq hbound hdropped.ge hdropped.le] at hhold
  have hminima : ∀ k ≤ 2 ^ m, k ≤ capacity (2 ^ m - t) ↔
      ∀ l ∈ XorSpan.leads t (dropped m backward), k ≤ l := by
    intro k hk
    have hle := XorSpan.le_minima (k := k) (t := t - 1) hhold (by
      rw [List.length_take, List.length_reverse, List.length_take, length_capacities]
      omega)
    rw [capacity_eq ht htc hmost hpow, Nat.sub_add_cancel ht, XorSpan.take_leads htc] at hle
    rw [hle, and_iff_right hk]
  have hne : 0 ∉ XorSpan.leads t (dropped m backward) := fun hzero =>
    absurd ((hminima 1 Nat.one_le_two_pow).1 (capacity_pos (by omega) (by omega)) 0 hzero)
      (by decide)
  rw [hminima k hk, dropped, ← XorSpan.forall_leads_spread_iff hspread hne]
  refine forall_congr' fun bs => imp_congr_right fun hbs => ?_
  rw [XorSpan.sum_take (hbs.trans_le htc)]

/-! ### The mother code -/

theorem growSize_eq {n : ℕ} (h : k ≤ 2 ^ n) : growSize k n = n := by
  rw [growSize, if_neg (by omega)]

theorem growSize_le {n : ℕ} (h : 10 ≤ n) : growSize k n = n := by
  rw [growSize, if_neg (by omega)]

/-- `e` is at most nine eighths of the power of two below it, and the rate is low. -/
def Smaller (k e : ℕ) : Prop := 8 * e ≤ 9 * 2 ^ (Nat.clog 2 e - 1) ∧ 16 * k ≤ 9 * e

instance : Decidable (Smaller k e) := inferInstanceAs (Decidable (_ ∧ _))

theorem determine_one (hk : 0 < k) (hk' : k ≤ 1024) : determineMotherCodeSize k 1 = .panic := by
  rw [determineMotherCodeSize, if_neg (by omega), if_neg (by omega)]
  rfl

theorem determine_huge (hk : 0 < k) (hk' : k ≤ 1024) (he : 2 ^ 61 < e) :
    determineMotherCodeSize k e = .panic := by
  have hclog : 61 < Nat.clog 2 e := (Nat.lt_clog_iff_pow_lt (by omega)).2 he
  have hpow : 2 ^ 61 ≤ 2 ^ (Nat.clog 2 e - 1) := Nat.pow_le_pow_right (by omega) (by omega)
  rw [determineMotherCodeSize, if_neg (by omega), if_neg (by omega)]
  exact if_pos (Or.inr (by omega))

theorem clog_bounds (he : 2 ≤ e) : 0 < Nat.clog 2 e ∧ 2 ^ (Nat.clog 2 e - 1) < e ∧
    e ≤ 2 ^ Nat.clog 2 e := by
  have hpos : 0 < Nat.clog 2 e := Nat.clog_pos (by omega) he
  exact ⟨hpos, (Nat.lt_clog_iff_pow_lt (by omega)).1 (by omega), Nat.le_pow_clog (by omega) e⟩

/-- The mother code there is for every message that is sent in two bits or more. -/
theorem determine_eq (hk : 0 < k) (hk' : k ≤ 1024) (hke : k ≤ e) (he : 2 ≤ e) (he' : e ≤ 2 ^ 61) :
    determineMotherCodeSize k e = .ok (2 ^ if e ≤ 32 then 5 else if 1024 < e then 10
      else if Smaller k e then Nat.clog 2 e - 1 else Nat.clog 2 e) := by
  obtain ⟨hpos, hlow, hhigh⟩ := clog_bounds he
  have hclog : Nat.clog 2 e ≤ 61 := (Nat.clog_le_iff_le_pow (by omega)).2 he'
  have hpow : 2 ^ (Nat.clog 2 e - 1) ≤ 2 ^ 60 := Nat.pow_le_pow_right (by omega) (by omega)
  rw [determineMotherCodeSize, if_neg (by omega), if_neg (by omega)]
  simp only []
  rw [if_neg (by omega)]
  have hsmaller : (e ≤ 9 * 2 ^ (Nat.clog 2 e - 1) / 8 ∧ 16 * k ≤ 9 * e) ↔ Smaller k e := by
    rw [Smaller, Nat.le_div_iff_mul_le (by omega), Nat.mul_comm e]
  simp only [hsmaller]
  congr 2
  by_cases hsmall : e ≤ 32
  · have hj : Nat.clog 2 e ≤ 5 := (Nat.clog_le_iff_le_pow (by omega)).2 hsmall
    have hmax : max (if Smaller k e then Nat.clog 2 e - 1 else Nat.clog 2 e) 5 = 5 := by
      split_ifs <;> omega
    rw [if_pos hsmall, hmax]
    exact growSize_eq (n := 5) (by omega)
  · rw [if_neg hsmall]
    by_cases hlarge : 1024 < e
    · have hj : 10 < Nat.clog 2 e := (Nat.lt_clog_iff_pow_lt (by omega)).2 hlarge
      rw [if_pos hlarge, growSize_le (by split_ifs <;> omega)]
      split_ifs <;> omega
    · have hj : 5 < Nat.clog 2 e := (Nat.lt_clog_iff_pow_lt (by omega)).2 (by omega)
      have hj' : Nat.clog 2 e ≤ 10 := (Nat.clog_le_iff_le_pow (by omega)).2 (by omega)
      rw [if_neg hlarge]
      by_cases h : Smaller k e
      · rw [if_pos h, Nat.max_eq_left (by omega), Nat.min_eq_left (by omega), growSize_eq]
        have := h.1
        have := h.2
        omega
      · rw [if_neg h, Nat.max_eq_left (by omega), Nat.min_eq_left hj',
          growSize_eq (hke.trans hhigh)]

/-- A message of `k` bits fits in `e` sent bits. -/
def Fits (k e : ℕ) : Prop := 2 ≤ e ∧ e ≤ 2 ^ 61 ∧ (k ≤ capacity e ∨ 32 < e ∧ Smaller k e)

instance : Decidable (Fits k e) := inferInstanceAs (Decidable (_ ∧ _ ∧ _))

theorem capacity_large (he : 1024 ≤ e) : capacity e = 1024 :=
  List.getD_eq_default _ _ (by rw [length_capacities]; exact he)

theorem capacity_two_pow (hmin : 5 ≤ m) (hmax : m ≤ 10) : capacity (2 ^ m) = 2 ^ m := by
  interval_cases m
  all_goals decide +kernel

/-- Nothing is lost with a mother code of the right size when the message is no longer than the
capacity. -/
theorem injective_iff_capacity (hmin : 5 ≤ m) (hmax : m ≤ 10) (hk : 0 < k) (hke : k ≤ e)
    (he : e ≤ 2 ^ m) (hlow : m = 5 ∨ 2 ^ (m - 1) < e) : Injective (2 ^ m) k e ↔ k ≤ capacity e := by
  have hpow : 2 ^ m ≤ maxPolarN := Nat.pow_le_pow_right (n := 2) (by omega) hmax
  rcases Nat.eq_or_lt_of_le he with rfl | hlt
  · rw [capacity_two_pow hmin hmax]
    exact ⟨fun _ => hke, fun _ => injective_of_repetition hmin hpow hk hke le_rfl⟩
  · have hmost : 2 ^ m - e ≤ mostDropped m := by
      unfold mostDropped
      rcases hlow with rfl | hlow
      · rw [if_pos rfl]
        omega
      · have := pow_succ 2 (m - 1)
        rw [Nat.sub_add_cancel (by omega)] at this
        split_ifs with h
        · subst h
          omega
        · omega
    rw [injective_iff_sum hmin hpow hk (hke.trans he) (by omega) hlt,
      sum_columns_iff hmin hmax (by omega) hmost (hke.trans he), Nat.sub_sub_self he]

/-- Rate matching loses nothing exactly when the message fits. -/
theorem lossless_iff (hk : 0 < k) (hk' : k ≤ 1024) (hke : k ≤ e) : Lossless k e ↔ Fits k e := by
  by_cases hone : e = 1
  · subst hone
    refine iff_of_false (fun h => ?_) fun h => absurd h.1 (by decide)
    obtain ⟨n, hn, -⟩ := h
    rw [determine_one hk hk'] at hn
    cases hn
  by_cases hhuge : 2 ^ 61 < e
  · refine iff_of_false (fun h => ?_) fun h => absurd h.2.1 (by omega)
    obtain ⟨n, hn, -⟩ := h
    rw [determine_huge hk hk' hhuge] at hn
    cases hn
  obtain ⟨hpos, hlow, hhigh⟩ := clog_bounds (e := e) (by omega)
  have hdet := determine_eq hk hk' hke (by omega) (by omega)
  have hlossless : ∀ n, determineMotherCodeSize k e = .ok n → k ≤ n →
      (Lossless k e ↔ Injective n k e) := by
    intro n hn hkn
    refine ⟨fun ⟨n', hn', _, h⟩ => ?_, fun h => ⟨n, hn, hkn, h⟩⟩
    rw [hn, Checked.ok.injEq] at hn'
    exact hn' ▸ h
  rw [Fits, and_iff_right (show 2 ≤ e by omega), and_iff_right (show e ≤ 2 ^ 61 by omega)]
  by_cases hsmall : e ≤ 32
  · rw [if_pos hsmall] at hdet
    rw [hlossless _ hdet (by omega), injective_iff_capacity le_rfl
      (by omega) hk hke hsmall (Or.inl rfl)]
    exact ⟨Or.inl, fun h => h.resolve_right fun h => absurd hsmall (by omega)⟩
  rw [if_neg hsmall] at hdet
  by_cases hlarge : 1024 < e
  · rw [if_pos hlarge] at hdet
    rw [hlossless _ hdet (by omega), capacity_large hlarge.le]
    exact iff_of_true (injective_of_repetition (by omega) le_rfl hk (by omega) hlarge.le)
      (Or.inl hk')
  rw [if_neg hlarge] at hdet
  have hj : 5 < Nat.clog 2 e := (Nat.lt_clog_iff_pow_lt (by omega)).2 (by omega)
  have hj' : Nat.clog 2 e ≤ 10 := (Nat.clog_le_iff_le_pow (by omega)).2 (by omega)
  by_cases hsmaller : Smaller k e
  · rw [if_pos hsmaller] at hdet
    have hfit : k ≤ 2 ^ (Nat.clog 2 e - 1) := by
      have := hsmaller.1
      have := hsmaller.2
      omega
    have hpow : 2 ^ (Nat.clog 2 e - 1) ≤ maxPolarN :=
      Nat.pow_le_pow_right (n := 2) (by omega) (show Nat.clog 2 e - 1 ≤ 10 by omega)
    rw [hlossless _ hdet hfit]
    exact iff_of_true (injective_of_repetition (by omega) hpow hk hfit hlow.le)
      (Or.inr ⟨by omega, hsmaller⟩)
  · rw [if_neg hsmaller] at hdet
    rw [hlossless _ hdet (hke.trans hhigh), injective_iff_capacity (by omega) hj' hk hke hhigh
      (Or.inr hlow)]
    exact ⟨Or.inl, fun h => h.resolve_right fun h => hsmaller h.2⟩

theorem lossless_iff_half_rate : Lossless 20 40 ↔ Fits 20 40 :=
  lossless_iff (by decide) (by decide) (by decide)

example : Fits 20 40 ∧ ¬ Fits 5 5 := by decide +kernel

/-- One bit cannot be sent as one bit, and two messages of five bits are sent alike. -/
theorem loses : ¬ Lossless 1 1 ∧ ¬ Lossless 5 5 := by
  constructor
  · rintro ⟨n, hn, -⟩
    rw [determine_one (by decide) (by decide)] at hn
    cases hn
  · rintro ⟨n, hn, -, h⟩
    rw [determine_eq (by decide) (by decide) (by decide) (by decide) (by decide),
      if_pos (by decide)] at hn
    obtain rfl := Checked.ok.inj hn
    have hsame := h [0, 0, 0, 0, 0] [1, 0, 0, 0, 1] (by simp) (by simp) rfl rfl (by
      rw [sent_eq le_rfl (by decide) (by decide) (by decide) (by decide),
        sent_eq le_rfl (by decide) (by decide) (by decide) (by decide)]
      decide +kernel)
    exact absurd hsame (by decide)

end capacities

end ToyTcpip.Polar
