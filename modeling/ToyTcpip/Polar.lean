import ToyTcpip.Lib.Kronecker

/-! The polar encoder of `nr_polar_codec.rs` and the transform its decoder uses. -/
namespace ToyTcpip.Polar

def minPolarN : ℕ := 32

def maxPolarN : ℕ := 1024

/-- The channels from the least to the most reliable. -/
def polarReliabilitySequence1024 : List ℕ :=
  [0, 1, 2, 4, 8, 16, 32, 3, 5, 64, 9, 6, 17, 10, 18, 128, 12, 33, 65, 20, 256, 34, 24, 36, 7, 129,
    66, 512, 11, 40, 68, 130, 19, 13, 48, 14, 72, 257, 21, 132, 35, 258, 26, 513, 80, 37, 25, 22,
    136, 260, 264, 38, 514, 96, 67, 41, 144, 28, 69, 42, 516, 49, 74, 272, 160, 520, 288, 528, 192,
    544, 70, 44, 131, 81, 50, 73, 15, 320, 133, 52, 23, 134, 384, 76, 137, 82, 56, 27, 97, 39, 259,
    84, 138, 145, 261, 29, 43, 98, 515, 88, 140, 30, 146, 71, 262, 265, 161, 576, 45, 100, 640, 51,
    148, 46, 75, 266, 273, 517, 104, 162, 53, 193, 152, 77, 164, 768, 268, 274, 518, 54, 83, 57,
    521, 112, 135, 78, 289, 194, 85, 276, 522, 58, 168, 139, 99, 86, 60, 280, 89, 290, 529, 524,
    196, 141, 101, 147, 176, 142, 530, 321, 31, 200, 90, 545, 292, 322, 532, 263, 149, 102, 105,
    304, 296, 163, 92, 47, 267, 385, 546, 324, 208, 386, 150, 153, 165, 106, 55, 328, 536, 577, 548,
    113, 154, 79, 269, 108, 578, 224, 166, 519, 552, 195, 270, 641, 523, 275, 580, 291, 59, 169,
    560, 114, 277, 156, 87, 197, 116, 170, 61, 531, 525, 642, 281, 278, 526, 177, 293, 388, 91, 584,
    769, 198, 172, 120, 201, 336, 62, 282, 143, 103, 178, 294, 93, 644, 202, 592, 323, 392, 297,
    770, 107, 180, 151, 209, 284, 648, 94, 204, 298, 400, 608, 352, 325, 533, 155, 210, 305, 547,
    300, 109, 184, 534, 537, 115, 167, 225, 326, 306, 772, 157, 656, 329, 110, 117, 212, 171, 776,
    330, 226, 549, 538, 387, 308, 216, 416, 271, 279, 158, 337, 550, 672, 118, 332, 579, 540, 389,
    173, 121, 553, 199, 784, 179, 228, 338, 312, 704, 390, 174, 554, 581, 393, 283, 122, 448, 353,
    561, 203, 63, 340, 394, 527, 582, 556, 181, 295, 285, 232, 124, 205, 182, 643, 562, 286, 585,
    299, 354, 211, 401, 185, 396, 344, 586, 645, 593, 535, 240, 206, 95, 327, 564, 800, 402, 356,
    307, 301, 417, 213, 568, 832, 588, 186, 646, 404, 227, 896, 594, 418, 302, 649, 771, 360, 539,
    111, 331, 214, 309, 188, 449, 217, 408, 609, 596, 551, 650, 229, 159, 420, 310, 541, 773, 610,
    657, 333, 119, 600, 339, 218, 368, 652, 230, 391, 313, 450, 542, 334, 233, 555, 774, 175, 123,
    658, 612, 341, 777, 220, 314, 424, 395, 673, 583, 355, 287, 183, 234, 125, 557, 660, 616, 342,
    316, 241, 778, 563, 345, 452, 397, 403, 207, 674, 558, 785, 432, 357, 187, 236, 664, 624, 587,
    780, 705, 126, 242, 565, 398, 346, 456, 358, 405, 303, 569, 244, 595, 189, 566, 676, 361, 706,
    589, 215, 786, 647, 348, 419, 406, 464, 680, 801, 362, 590, 409, 570, 788, 597, 572, 219, 311,
    708, 598, 601, 651, 421, 792, 802, 611, 602, 410, 231, 688, 653, 248, 369, 190, 364, 654, 659,
    335, 480, 315, 221, 370, 613, 422, 425, 451, 614, 543, 235, 412, 343, 372, 775, 317, 222, 426,
    453, 237, 559, 833, 804, 712, 834, 661, 808, 779, 617, 604, 433, 720, 816, 836, 347, 897, 243,
    662, 454, 318, 675, 618, 898, 781, 376, 428, 665, 736, 567, 840, 625, 238, 359, 457, 399, 787,
    591, 678, 434, 677, 349, 245, 458, 666, 620, 363, 127, 191, 782, 407, 436, 626, 571, 465, 681,
    246, 707, 350, 599, 668, 790, 460, 249, 682, 573, 411, 803, 789, 709, 365, 440, 628, 689, 374,
    423, 466, 793, 250, 371, 481, 574, 413, 603, 366, 468, 655, 900, 805, 615, 684, 710, 429, 794,
    252, 373, 605, 848, 690, 713, 632, 482, 806, 427, 904, 414, 223, 663, 692, 835, 619, 472, 455,
    796, 809, 714, 721, 837, 716, 864, 810, 606, 912, 722, 696, 377, 435, 817, 319, 621, 812, 484,
    430, 838, 667, 488, 239, 378, 459, 622, 627, 437, 380, 818, 461, 496, 669, 679, 724, 841, 629,
    351, 467, 438, 737, 251, 462, 442, 441, 469, 247, 683, 842, 738, 899, 670, 783, 849, 820, 728,
    928, 791, 367, 901, 630, 685, 844, 633, 711, 253, 691, 824, 902, 686, 740, 850, 375, 444, 470,
    483, 415, 485, 905, 795, 473, 634, 744, 852, 960, 865, 693, 797, 906, 715, 807, 474, 636, 694,
    254, 717, 575, 913, 798, 811, 379, 697, 431, 607, 489, 866, 723, 486, 908, 718, 813, 476, 856,
    839, 725, 698, 914, 752, 868, 819, 814, 439, 929, 490, 623, 671, 739, 916, 463, 843, 381, 497,
    930, 821, 726, 961, 872, 492, 631, 729, 700, 443, 741, 845, 920, 382, 822, 851, 730, 498, 880,
    742, 445, 471, 635, 932, 687, 903, 825, 500, 846, 745, 826, 732, 446, 962, 936, 475, 853, 867,
    637, 907, 487, 695, 746, 828, 753, 854, 857, 504, 799, 255, 964, 909, 719, 477, 915, 638, 748,
    944, 869, 491, 699, 754, 858, 478, 968, 383, 910, 815, 976, 870, 917, 727, 493, 873, 701, 931,
    756, 860, 499, 731, 823, 922, 874, 918, 502, 933, 743, 760, 881, 494, 702, 921, 501, 876, 847,
    992, 447, 733, 827, 934, 882, 937, 963, 747, 505, 855, 924, 734, 829, 965, 938, 884, 506, 749,
    945, 966, 755, 859, 940, 830, 911, 871, 639, 888, 479, 946, 750, 969, 508, 861, 757, 970, 919,
    875, 862, 758, 948, 977, 923, 972, 761, 877, 952, 495, 703, 935, 978, 883, 762, 503, 925, 878,
    735, 993, 885, 939, 994, 980, 926, 764, 941, 967, 886, 831, 947, 507, 889, 984, 751, 942, 996,
    971, 890, 509, 949, 973, 1000, 892, 950, 863, 759, 1008, 510, 979, 953, 763, 974, 954, 879, 981,
    982, 927, 995, 765, 956, 887, 985, 997, 986, 943, 891, 998, 766, 511, 988, 1001, 951, 1002, 893,
    975, 894, 1009, 955, 1004, 1010, 957, 983, 958, 987, 1012, 999, 1016, 767, 989, 1003, 990, 1005,
    959, 1011, 1013, 895, 1006, 1014, 1017, 1018, 991, 1020, 1007, 1015, 1019, 1021, 1022, 1023]

inductive PolarError where
  | payloadTooLarge (k maxK : ℕ)
  | invalidRateMatchedLength (e : ℕ)
  | invalidMotherCodeSize (n : ℕ)
  deriving DecidableEq

/-- `is_power_of_two`. -/
def isPowerOfTwo (n : ℕ) : Bool := n = 2 ^ Nat.log2 n

def getInformationSubchannelSet (nMother kBits : ℕ) : List ℕ :=
  let filteredIndices := polarReliabilitySequence1024.filter (· < nMother)
  let total := filteredIndices.length
  if total ≤ kBits then filteredIndices else filteredIndices.drop (total - kBits)

/-- `d[i] ^= d[j]`. -/
def xorInto (d : List UInt8) (i j : ℕ) : List UInt8 := d.set i (d.getD i 0 ^^^ d.getD j 0)

/-- The loop over `j`. -/
def butterflies (step i : ℕ) (d : List UInt8) : List UInt8 :=
  (List.range step).foldl (fun d j => xorInto d (i + j) (i + j + step)) d

/-- The loop over `i`, which takes every second multiple of `step` below `n`. -/
def butterflyBlocks (n step : ℕ) (d : List UInt8) : List UInt8 :=
  (List.range' 0 ((n + step * 2 - 1) / (step * 2)) (step * 2)).foldl
    (fun d i => butterflies step i d) d

/-- The loop that doubles `step`. -/
def butterflyLoop (n step : ℕ) (d : List UInt8) : List UInt8 :=
  if 0 < step ∧ step < n then butterflyLoop n (step * 2) (butterflyBlocks n step d) else d
termination_by n - step

/-- The information bits put in their channels, the others frozen to zero. -/
def placeBits (infoSet : List ℕ) (infoBits u : List UInt8) : List UInt8 :=
  (infoSet.zip infoBits).foldl (fun u x => u.set x.1 (x.2 &&& 1)) u

def polarEncode (infoBits : List UInt8) (nMother : ℕ) : Except PolarError (List UInt8) :=
  let k := infoBits.length
  if k = 0 ∨ nMother < k then .error (.payloadTooLarge k nMother)
  else if isPowerOfTwo nMother = false ∨ nMother < minPolarN ∨ maxPolarN < nMother then
    .error (.invalidMotherCodeSize nMother)
  else
    let infoSet := getInformationSubchannelSet nMother k
    .ok (butterflyLoop nMother 1 (placeBits infoSet infoBits (List.replicate nMother 0)))

/-- The decoder's transform; an odd element, which a power of two never leaves, stays zero. -/
def polarTransformInternal (u : List UInt8) : List UInt8 :=
  if u.length ≤ 1 then u
  else
    let half := u.length / 2
    let dA := polarTransformInternal (u.take half)
    let dB := polarTransformInternal (u.drop half)
    List.zipWith (· ^^^ ·) dA dB ++ dB.take half ++ List.replicate (u.length - 2 * half) 0
termination_by u.length
decreasing_by
  · simp
    omega
  · simp
    omega

/-! ### The loops -/

section loops

variable {d u : List UInt8} {i j m n x step : ℕ}

/-- A loop whose body keeps the length keeps it. -/
theorem length_foldl {β : Type} {f : List UInt8 → β → List UInt8}
    (hf : ∀ d b, (f d b).length = d.length) (bs : List β) (d : List UInt8) :
    (bs.foldl f d).length = d.length := by
  induction bs generalizing d with
  | nil => rfl
  | cons b bs ih => rw [List.foldl_cons, ih, hf]

theorem getD_set (v : UInt8) :
    (d.set i v).getD x 0 = if i = x ∧ x < d.length then v else d.getD x 0 := by
  simp only [List.getD_eq_getElem?_getD, List.getElem?_set]
  grind

@[simp] theorem length_xorInto : (xorInto d i j).length = d.length := List.length_set

theorem getD_xorInto (hi : i < d.length) :
    (xorInto d i j).getD x 0 = if x = i then d.getD i 0 ^^^ d.getD j 0 else d.getD x 0 := by
  rw [xorInto, getD_set]
  grind

@[simp] theorem length_butterflies : (butterflies step i d).length = d.length :=
  length_foldl (fun _ _ => length_xorInto) _ _

/-- What the loop over `j` has done after `k` rounds. -/
theorem getD_butterflies_round {k : ℕ} (hk : k ≤ step) (hfit : i + 2 * step ≤ d.length) :
    ((List.range k).foldl (fun d j => xorInto d (i + j) (i + j + step)) d).getD x 0 =
      if i ≤ x ∧ x < i + k then d.getD x 0 ^^^ d.getD (x + step) 0 else d.getD x 0 := by
  induction k generalizing x with
  | zero => rw [List.range_zero, List.foldl_nil, if_neg (by omega)]
  | succ k ih =>
    have hlen := length_foldl (f := fun d j => xorInto d (i + j) (i + j + step))
      (fun _ _ => length_xorInto) (List.range k) d
    rw [List.range_succ, List.foldl_append, List.foldl_cons, List.foldl_nil,
      getD_xorInto (by omega), ih (by omega), ih (by omega), ih (by omega)]
    grind

theorem getD_butterflies (hfit : i + 2 * step ≤ d.length) : (butterflies step i d).getD x 0 =
    if i ≤ x ∧ x < i + step then d.getD x 0 ^^^ d.getD (x + step) 0 else d.getD x 0 :=
  getD_butterflies_round le_rfl hfit

@[simp] theorem length_butterflyBlocks : (butterflyBlocks n step d).length = d.length :=
  length_foldl (fun _ _ => length_butterflies) _ _

/-- What the loop over `i` has done after `c` rounds. -/
theorem getD_butterflyBlocks_round {c : ℕ} (hstep : 0 < step) (hfit : c * (step * 2) ≤ d.length) :
    ((List.range' 0 c (step * 2)).foldl (fun d i => butterflies step i d) d).getD x 0 =
      if x < c * (step * 2) ∧ x / step % 2 = 0 then
        d.getD x 0 ^^^ d.getD (x + step) 0 else d.getD x 0 := by
  induction c generalizing x with
  | zero => simp
  | succ c ih =>
    have hlen := length_foldl (f := fun d i => butterflies step i d) (fun _ _ => length_butterflies)
      (List.range' 0 c (step * 2)) d
    have hsucc : (c + 1) * (step * 2) = c * (step * 2) + 2 * step := by ring
    rw [List.range'_concat, List.foldl_append, List.foldl_cons, List.foldl_nil, Nat.zero_add,
      getD_butterflies (by rw [hlen, Nat.mul_comm]; omega), ih (by omega), ih (by omega),
      Nat.mul_comm _ c]
    by_cases hin : c * (step * 2) ≤ x ∧ x < c * (step * 2) + step
    · have heven : x / step = 2 * c :=
        Nat.div_eq_of_lt_le (by linarith [hin.1]) (by linarith [hin.2])
      rw [if_pos hin, if_neg (by omega), if_neg (by omega), heven, if_pos (by omega)]
    · rw [if_neg hin]
      rcases lt_or_ge x (c * (step * 2)) with hlt | hge
      · simp only [hlt, true_and, show x < (c + 1) * (step * 2) by omega]
      · rw [if_neg (by omega)]
        by_cases hnext : x < (c + 1) * (step * 2)
        · have hodd : x / step = 2 * c + 1 :=
            Nat.div_eq_of_lt_le (by rw [add_mul]; linarith
              [show c * (step * 2) + step ≤ x by omega])
              (by linarith)
          rw [if_neg (by omega)]
        · rw [if_neg (by omega)]

theorem butterflyBlocks_eq_pass (hstep : 0 < step) (hd : d.length = n) (hn : step * 2 ∣ n) :
    butterflyBlocks n step d = Kronecker.pass (· ^^^ ·) step d := by
  obtain ⟨c, hc⟩ := hn
  have hrounds : (n + step * 2 - 1) / (step * 2) = c := by
    rw [hc]
    exact Nat.div_eq_of_lt_le (by rw [Nat.mul_comm c]; omega)
      (by rw [add_mul, Nat.mul_comm c]; omega)
  refine List.ext_getElem (by simp) fun x hx hx' => ?_
  rw [← List.getD_eq_getElem _ 0 hx, butterflyBlocks, hrounds,
    getD_butterflyBlocks_round hstep (by rw [hd, hc, Nat.mul_comm])]
  have hlt : x < c * (step * 2) := by
    rw [Nat.mul_comm, ← hc, ← hd]
    simpa using hx
  simp only [Kronecker.pass, List.getElem_mapIdx, hlt, true_and]
  rw [List.getD_eq_getElem _ 0 (by simpa using hx)]
  rfl

/-- The loop that doubles `step` goes through the passes. -/
theorem butterflyLoop_passes {k : ℕ} (hk : k ≤ m) (hd : d.length = 2 ^ m) :
    butterflyLoop (2 ^ m) (2 ^ k) (Kronecker.passes (· ^^^ ·) k d) =
      Kronecker.passes (· ^^^ ·) m d := by
  induction hm : m - k generalizing k with
  | zero =>
    obtain rfl : k = m := by omega
    rw [butterflyLoop, if_neg (by omega)]
  | succ r ih =>
    have hlt : 2 ^ k < 2 ^ m := Nat.pow_lt_pow_right (by omega) (by omega)
    rw [butterflyLoop, if_pos ⟨Nat.two_pow_pos k, hlt⟩, butterflyBlocks_eq_pass (Nat.two_pow_pos k)
      (by simpa using hd) (by rw [← pow_succ]; exact pow_dvd_pow 2 (by omega)), ← pow_succ]
    exact ih (by omega) (by omega)

/-- The loop nest of the encoder is the transform. -/
theorem butterflyLoop_eq (hd : d.length = 2 ^ m) :
    butterflyLoop (2 ^ m) 1 d = Kronecker.transform (· ^^^ ·) m d := by
  rw [← Kronecker.passes_eq_transform hd, ← butterflyLoop_passes (Nat.zero_le m) hd]
  rfl

/-- So is the recursion of the decoder. -/
theorem polarTransformInternal_eq (hu : u.length = 2 ^ m) :
    polarTransformInternal u = Kronecker.transform (· ^^^ ·) m u := by
  induction m generalizing u with
  | zero => rw [polarTransformInternal, if_pos (by simp [hu]), Kronecker.transform]
  | succ m ih =>
    obtain ⟨ha, hb⟩ := Kronecker.halves_length hu
    have hpos := Nat.two_pow_pos m
    have hhalf : u.length / 2 = 2 ^ m := by rw [hu, pow_succ]; omega
    rw [polarTransformInternal, if_neg (by rw [hu, pow_succ]; omega)]
    simp only [hhalf]
    rw [ih ha, ih hb, List.take_of_length_le (Kronecker.length_transform hb).le, hu,
      pow_succ, Nat.mul_comm, Nat.sub_self, List.replicate_zero, List.append_nil,
      Kronecker.transform]

theorem xor_xor_self (a b : UInt8) : a ^^^ b ^^^ b = a := by
  rw [UInt8.xor_assoc, UInt8.xor_self, UInt8.xor_zero]

end loops

/-! ### The channels -/

section channels

variable {i n k m : ℕ} {is : List ℕ} {bits u : List UInt8}

/-- A mask collects its bits. -/
theorem testBit_foldl_or (qs : List ℕ) (a : ℕ) :
    (qs.foldl (fun a q => a ||| 2 ^ q) a).testBit i = (a.testBit i || decide (i ∈ qs)) := by
  induction qs generalizing a with
  | nil => simp
  | cons q qs ih =>
    rw [List.foldl_cons, ih, Nat.testBit_or, Nat.testBit_two_pow]
    by_cases h : q = i
    · simp [h]
    · simp [h, Ne.symm h]

theorem mem_of_full_mask {qs : List ℕ} (h : qs.foldl (fun a q => a ||| 2 ^ q) 0 = 2 ^ n - 1)
    (hi : i < n) : i ∈ qs := by
  have hbit := testBit_foldl_or (i := i) qs 0
  rw [h, Nat.zero_testBit, Bool.false_or, Nat.testBit_two_pow_sub_one, decide_eq_true hi] at hbit
  exact of_decide_eq_true hbit.symm

theorem reliability_mask :
    polarReliabilitySequence1024.foldl (fun a q => a ||| 2 ^ q) 0 = 2 ^ maxPolarN - 1 := by
  decide +kernel

theorem reliability_length : polarReliabilitySequence1024.length = maxPolarN := by decide +kernel

/-- The table names every channel, once. -/
theorem reliability_perm : polarReliabilitySequence1024.Perm (List.range maxPolarN) := by
  have hsub : List.range maxPolarN ⊆ polarReliabilitySequence1024 :=
    fun _ hi => mem_of_full_mask reliability_mask (List.mem_range.1 hi)
  have hsubperm := List.nodup_range.subperm hsub
  exact (hsubperm.perm_of_length_le (by rw [reliability_length, List.length_range])).symm

theorem filtered_perm (hn : n ≤ maxPolarN) :
    (polarReliabilitySequence1024.filter (· < n)).Perm (List.range n) := by
  have hnodup := (reliability_perm.nodup_iff.2 List.nodup_range).filter (· < n)
  rw [List.perm_ext_iff_of_nodup hnodup List.nodup_range]
  intro i
  have := reliability_perm.mem_iff (a := i)
  simp only [List.mem_filter, this, List.mem_range, decide_eq_true_eq]
  omega

theorem informationSet_eq (hn : n ≤ maxPolarN) : getInformationSubchannelSet n k =
    (polarReliabilitySequence1024.filter (· < n)).drop (n - k) := by
  have hlen : (polarReliabilitySequence1024.filter (· < n)).length = n := by
    rw [(filtered_perm hn).length_eq, List.length_range]
  unfold getInformationSubchannelSet
  simp only [hlen]
  by_cases hle : n ≤ k
  · rw [if_pos hle, Nat.sub_eq_zero_of_le hle, List.drop_zero]
  · rw [if_neg hle]

theorem informationSet_length (hn : n ≤ maxPolarN) (hk : k ≤ n) :
    (getInformationSubchannelSet n k).length = k := by
  rw [informationSet_eq hn, List.length_drop, (filtered_perm hn).length_eq, List.length_range]
  omega

theorem informationSet_nodup (hn : n ≤ maxPolarN) : (getInformationSubchannelSet n k).Nodup := by
  rw [informationSet_eq hn]
  exact ((filtered_perm hn).nodup_iff.2 List.nodup_range).sublist (List.drop_sublist _ _)

theorem lt_of_mem_informationSet (hn : n ≤ maxPolarN)
    (hi : i ∈ getInformationSubchannelSet n k) : i < n := by
  rw [informationSet_eq hn] at hi
  exact List.mem_range.1 ((filtered_perm hn).mem_iff.1 (List.mem_of_mem_drop hi))

@[simp] theorem length_placeBits : (placeBits is bits u).length = u.length :=
  length_foldl (fun _ _ => List.length_set) _ _

theorem placeBits_cons (b : UInt8) :
    placeBits (i :: is) (b :: bits) u = placeBits is bits (u.set i (b &&& 1)) := rfl

/-- A channel outside the set keeps its bit. -/
theorem getD_placeBits_of_notMem (hi : i ∉ is) : (placeBits is bits u).getD i 0 = u.getD i 0 := by
  induction is generalizing bits u with
  | nil => rfl
  | cons j is ih =>
    cases bits with
    | nil => rfl
    | cons b bits =>
      rw [placeBits_cons, ih (fun h => hi (List.mem_cons_of_mem _ h)), getD_set, if_neg]
      rintro ⟨rfl, -⟩
      exact hi List.mem_cons_self

/-- The channels of the set read back the bits put there. -/
theorem map_placeBits (hnodup : is.Nodup) (hlt : ∀ i ∈ is, i < u.length)
    (hlen : bits.length = is.length) :
    is.map (fun i => (placeBits is bits u).getD i 0) = bits.map (· &&& 1) := by
  induction is generalizing bits u with
  | nil => rw [List.length_eq_zero_iff.1 hlen, List.map_nil, List.map_nil]
  | cons i is ih =>
    obtain ⟨b, bits, rfl⟩ := List.exists_cons_of_length_eq_add_one hlen
    obtain ⟨hi, hnodup⟩ := List.nodup_cons.1 hnodup
    have hrest := ih (u := u.set i (b &&& 1)) hnodup
      (fun j hj => by rw [List.length_set]; exact hlt j (List.mem_cons_of_mem _ hj))
        (Nat.succ.inj hlen)
    rw [placeBits_cons, List.map_cons, List.map_cons, hrest, getD_placeBits_of_notMem hi, getD_set,
      if_pos ⟨rfl, hlt i List.mem_cons_self⟩]

theorem isPowerOfTwo_iff : isPowerOfTwo n = true ↔ ∃ m, n = 2 ^ m := by
  unfold isPowerOfTwo
  rw [decide_eq_true_eq]
  constructor
  · exact fun h => ⟨_, h⟩
  · rintro ⟨m, rfl⟩
    rw [Nat.log2_two_pow]

/-- The word the encoder transforms. -/
def channelWord (n : ℕ) (info : List UInt8) : List UInt8 :=
  placeBits (getInformationSubchannelSet n info.length) info (List.replicate n 0)

theorem polarEncode_ok (hmin : minPolarN ≤ 2 ^ m) (hmax : 2 ^ m ≤ maxPolarN)
    (hpos : 0 < bits.length) (hk : bits.length ≤ 2 ^ m) :
    polarEncode bits (2 ^ m) = .ok (Kronecker.transform (· ^^^ ·) m
      (channelWord (2 ^ m) bits)) := by
  have hpow : isPowerOfTwo (2 ^ m) = true := isPowerOfTwo_iff.2 ⟨m, rfl⟩
  unfold polarEncode
  simp only []
  rw [if_neg (by omega), if_neg (by rw [hpow]; simp only [Bool.true_eq_false, false_or]; omega)]
  exact congrArg Except.ok (butterflyLoop_eq (by simp))

/-- The two transforms agree, undo themselves, and give back what the encoder was given. -/
theorem transforms_agree (hn : isPowerOfTwo n = true) (hmin : minPolarN ≤ n)
    (hmax : n ≤ maxPolarN) :
    (∀ d : List UInt8, d.length = n → butterflyLoop n 1 d = polarTransformInternal d ∧
      polarTransformInternal (polarTransformInternal d) = d) ∧
    ∀ infoBits : List UInt8, (∀ b ∈ infoBits, b = 0 ∨ b = 1) → 0 < infoBits.length →
      infoBits.length ≤ n →
      ∃ coded, polarEncode infoBits n = .ok coded ∧
      (getInformationSubchannelSet n infoBits.length).map
        (fun i => (polarTransformInternal coded).getD i 0) = infoBits := by
  obtain ⟨m, rfl⟩ := isPowerOfTwo_iff.1 hn
  have htwice : ∀ d : List UInt8, d.length = 2 ^ m →
      polarTransformInternal (Kronecker.transform (· ^^^ ·) m d) = d := by
    intro d hd
    rw [polarTransformInternal_eq (Kronecker.length_transform hd),
      Kronecker.transform_transform xor_xor_self hd]
  refine ⟨fun d hd => ⟨?_, ?_⟩, fun infoBits hbits hpos hk =>
    ⟨_, polarEncode_ok hmin hmax hpos hk, ?_⟩⟩
  · rw [butterflyLoop_eq hd, polarTransformInternal_eq hd]
  · rw [polarTransformInternal_eq hd, htwice d hd]
  · have hlt := fun i hi => lt_of_mem_informationSet (i := i) (k := infoBits.length) hmax hi
    rw [htwice _ (by simp [channelWord]), channelWord, map_placeBits (informationSet_nodup hmax)
      (by simpa using hlt) (informationSet_length hmax hk).symm]
    have hkeep : ∀ b ∈ infoBits, b &&& 1 = b := by
      intro b hb
      rcases hbits b hb with rfl | rfl <;> rfl
    exact (List.map_congr_left hkeep).trans (List.map_id _)

theorem transforms_agree_shortest : ∃ coded, polarEncode [1, 0, 1, 1] 32 = .ok coded ∧
    (getInformationSubchannelSet 32 4).map (fun i => (polarTransformInternal coded).getD i 0) =
      [1, 0, 1, 1] :=
  (transforms_agree (by decide) (by decide) (by decide)).2 [1, 0, 1, 1] (by simp)
    (by decide) (by decide)

end channels

end ToyTcpip.Polar
