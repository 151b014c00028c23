import ToyTcpip.Snmp.Ber

/-! Object identifiers: dotted text and base-128 sub-identifiers, of `snmp.rs`. -/
namespace ToyTcpip.Snmp

open Checked (bind_eq_ok bind_of_eq_ok ite_error_eq_ok)

def berTagOid : UInt8 := 0x06

/-! ### Decimal text -/

def digitChar (d : ℕ) : Char := Char.ofNat (48 + d)

/-- `u64::to_string`. -/
def decimal (n : ℕ) : List Char :=
  if n < 10 then [digitChar n] else decimal (n / 10) ++ [digitChar (n % 10)]

/-- The digits of `str::parse::<u64>`, with every step checked for overflow. -/
def parseDigits : ℕ → List Char → Option ℕ
  | acc, [] => some acc
  | acc, c :: rest =>
    if 48 ≤ c.toNat ∧ c.toNat < 58 ∧ acc * 10 + (c.toNat - 48) < 2 ^ 64 then
      parseDigits (acc * 10 + (c.toNat - 48)) rest
    else none

/-- `str::parse::<u64>`: digits, possibly after a plus sign. -/
def parseU64 : List Char → Option ℕ
  | [] => none
  | '+' :: rest => if rest = [] then none else parseDigits 0 rest
  | text => parseDigits 0 text

/-- `join(".")` of the decimal arcs. -/
def dotted (arcs : List ℕ) : String := String.ofList (['.'].intercalate (arcs.map decimal))

/-! ### Sub-identifiers -/

/-- The groups above the last, lowest first, in front of `out`. -/
def highGroups (val : ℕ) (out : List UInt8) : List UInt8 :=
  if val = 0 then out else highGroups (val / 128) ((UInt8.ofNat (val % 128) ||| 0x80) :: out)
termination_by val

def encodeOidSubidentifier (val : ℕ) : List UInt8 :=
  highGroups (val / 128) [UInt8.ofNat (val % 128)]

/-- The contents of an object identifier with these arcs. -/
def encodeArcs (arcs : List ℕ) : Parsed (List UInt8) :=
  match arcs with
  | first :: second :: rest =>
    if first > 2 ∨ (first < 2 ∧ second ≥ 40) then .error .invalidBerEncoding
    else if first * 40 + second ≥ 2 ^ 64 then .error .invalidBerEncoding
    else .ok (((first * 40 + second) :: rest).flatMap encodeOidSubidentifier)
  | _ => .error .invalidBerEncoding

def encodeBerOid (oid : String) : Parsed (List UInt8) :=
  match (oid.toList.splitOn '.').mapM parseU64 with
  | none => .error .invalidBerEncoding
  | some arcs => (encodeArcs arcs).bind fun body => .ok (encodeTlv berTagOid body)

/-- The loop of `decode_ber_oid`, from the number read so far. -/
def decodeSubids : List UInt8 → ℕ → Bool → Parsed (List ℕ)
  | [], _, atStart => if !atStart then .error .invalidBerEncoding else .ok []
  | byte :: rest, val, atStart =>
    if atStart ∧ byte = 0x80 then .error .invalidBerEncoding
    else if val > (2 ^ 64 - 1) / 128 then .error .invalidBerEncoding
    else
      let val := val * 128 + (byte &&& 0x7f).toNat
      if byte &&& 0x80 = 0 then (decodeSubids rest 0 true).bind fun more => .ok (val :: more)
      else decodeSubids rest val false

/-- The two arcs packed in the first sub-identifier. -/
def firstArcs (first : ℕ) : ℕ × ℕ :=
  if first < 40 then (0, first) else if first < 80 then (1, first - 40) else (2, first - 80)

def decodeBerOid (bytes : List UInt8) : Parsed String :=
  if bytes = [] then .error .invalidBerEncoding
  else
    (decodeSubids bytes 0 true).bind fun subids =>
      match subids with
      | [] => .error .invalidBerEncoding
      | first :: rest => .ok (dotted ((firstArcs first).1 :: (firstArcs first).2 :: rest))

/-! ### Text -/

theorem digitChar_toNat {d : ℕ} (h : d < 10) : (digitChar d).toNat = 48 + d := by
  have hall : ∀ d < 10, (digitChar d).toNat = 48 + d := by decide
  exact hall d h

theorem digitChar_range {n : ℕ} {c : Char} (h : c ∈ decimal n) : 48 ≤ c.toNat ∧ c.toNat < 58 := by
  fun_induction decimal n with
  | case1 n hn =>
    obtain rfl := List.mem_singleton.mp h
    rw [digitChar_toNat hn]
    omega
  | case2 n hn ih =>
    rcases List.mem_append.mp h with h | h
    · exact ih h
    · obtain rfl := List.mem_singleton.mp h
      rw [digitChar_toNat (by omega)]
      omega

theorem decimal_ne_nil (n : ℕ) : decimal n ≠ [] := by
  rw [decimal]
  split <;> simp

theorem parseDigits_append (acc : ℕ) (xs ys : List Char) :
    parseDigits acc (xs ++ ys) = (parseDigits acc xs).bind fun v => parseDigits v ys := by
  induction xs generalizing acc with
  | nil => rfl
  | cons c rest ih =>
    simp only [List.cons_append, parseDigits]
    split
    · exact ih _
    · rfl

theorem parseDigits_decimal {n v : ℕ} : parseDigits 0 (decimal n) = some v ↔
    v = n ∧ n < 2 ^ 64 := by
  fun_induction decimal n generalizing v with
  | case1 n hn =>
    have hc := digitChar_toNat hn
    simp only [parseDigits, hc]
    rw [if_pos (by omega)]
    simp only [Nat.zero_mul, Nat.zero_add, Nat.add_sub_cancel_left, Option.some.injEq]
    omega
  | case2 n hn ih =>
    have hc := digitChar_toNat (Nat.mod_lt n (show 0 < 10 by decide))
    rw [parseDigits_append, Option.bind_eq_some_iff]
    simp only [ih, parseDigits, hc, Nat.add_sub_cancel_left]
    constructor
    · rintro ⟨w, ⟨rfl, -⟩, h⟩
      split at h
      · simp only [Option.some.injEq] at h
        omega
      · cases h
    · rintro ⟨rfl, hlt⟩
      refine ⟨v / 10, ⟨rfl, by omega⟩, ?_⟩
      rw [if_pos (by omega)]
      congr 1
      omega

theorem parseU64_decimal {n v : ℕ} : parseU64 (decimal n) = some v ↔ v = n ∧ n < 2 ^ 64 := by
  rw [← parseDigits_decimal]
  obtain ⟨c, rest, hcons⟩ := List.exists_cons_of_ne_nil (decimal_ne_nil n)
  have hc := (digitChar_range (n := n) (c := c) (by simp [hcons])).1
  rw [hcons]
  unfold parseU64
  split
  · simp_all
  · rename_i heq
    cases heq
    exact absurd hc (by decide)
  · rfl

theorem mapM_parseU64_decimal {arcs vs : List ℕ} :
    (arcs.map decimal).mapM parseU64 = some vs ↔ vs = arcs ∧ ∀ a ∈ arcs, a < 2 ^ 64 := by
  induction arcs generalizing vs with
  | nil => simp [eq_comm]
  | cons a rest ih =>
    simp only [List.map_cons, List.mapM_cons, Option.bind_eq_bind, Option.bind_eq_some_iff,
      parseU64_decimal, ih, List.forall_mem_cons]
    constructor
    · rintro ⟨v, ⟨rfl, hv⟩, ws, ⟨rfl, hws⟩, h⟩
      cases h
      exact ⟨rfl, hv, hws⟩
    · rintro ⟨rfl, hv, hws⟩
      exact ⟨a, ⟨rfl, hv⟩, rest, ⟨rfl, hws⟩, rfl⟩

/-- The arcs of a dotted text are the ones it was made of. -/
theorem arcs_dotted {arcs vs : List ℕ} (hne : arcs ≠ []) :
    ((dotted arcs).toList.splitOn '.').mapM parseU64 = some vs ↔
      vs = arcs ∧ ∀ a ∈ arcs, a < 2 ^ 64 := by
  have hdot : ∀ l ∈ arcs.map decimal, '.' ∉ l := by
    intro l hl hmem
    obtain ⟨n, -, rfl⟩ := List.mem_map.mp hl
    exact absurd (digitChar_range hmem).1 (by decide)
  rw [dotted, String.toList_ofList, List.splitOn_intercalate '.' hdot (by simpa using hne),
    mapM_parseU64_decimal]

/-! ### Base 128 -/

/-- The groups of a number above its last, highest first, all marked. -/
def markedGroups (val : ℕ) : List UInt8 :=
  if val = 0 then [] else markedGroups (val / 128) ++ [UInt8.ofNat (val % 128 + 128)]
termination_by val

theorem highGroups_eq (val : ℕ) (out : List UInt8) :
    highGroups val out = markedGroups val ++ out := by
  fun_induction highGroups val out with
  | case1 out =>
    rw [markedGroups, if_pos rfl]
    rfl
  | case2 val out hne ih =>
    have hlow : (UInt8.ofNat (val % 128)).toNat = val % 128 := by
      rw [UInt8.toNat_ofNat']
      omega
    have hmark : UInt8.ofNat (val % 128) ||| 0x80 = UInt8.ofNat (val % 128 + 128) := by
      apply UInt8.toNat_inj.mp
      rw [toNat_or_128 (by omega), hlow, UInt8.toNat_ofNat']
      omega
    rw [ih, markedGroups.eq_def val, if_neg hne, hmark, List.append_assoc]
    rfl

theorem encodeOidSubidentifier_eq (val : ℕ) :
    encodeOidSubidentifier val = markedGroups (val / 128) ++ [UInt8.ofNat (val % 128)] :=
  highGroups_eq _ _

theorem toNat_marked (n : ℕ) : (UInt8.ofNat (n % 128 + 128)).toNat = n % 128 + 128 := by
  rw [UInt8.toNat_ofNat']
  omega

/-- The loop reads the marked groups of a number into it. -/
theorem decodeSubids_markedGroups {val : ℕ} (h : val ≤ (2 ^ 64 - 1) / 128) (rest : List UInt8) :
    decodeSubids (markedGroups val ++ rest) 0 true = decodeSubids rest val (decide (val = 0)) := by
  fun_induction markedGroups val generalizing rest with
  | case1 => rfl
  | case2 val hne ih =>
    have hbyte := toNat_marked val
    have hmore : ¬ UInt8.ofNat (val % 128 + 128) &&& 0x80 = 0 := fun h0 => by
      have := (and_128_eq_zero _).mp h0
      omega
    have hlow : (UInt8.ofNat (val % 128 + 128) &&& 0x7f).toNat = val % 128 := by
      rw [toNat_and_127, hbyte]
      omega
    have hfirst : ¬ (decide (val / 128 = 0) = true ∧ UInt8.ofNat (val % 128 + 128) = 0x80) := by
      rintro ⟨hzero, hmark⟩
      have hzero : val / 128 = 0 := by simpa using hzero
      rw [hmark] at hbyte
      simp at hbyte
      omega
    rw [List.append_assoc, ih (by omega), List.singleton_append, decodeSubids, if_neg hfirst,
      if_neg (by omega)]
    simp only [hmore, hlow, if_false, hne, decide_false]
    congr 1
    omega

theorem decodeSubids_encode {vals : List ℕ} (h : ∀ v ∈ vals, v < 2 ^ 64) :
    decodeSubids (vals.flatMap encodeOidSubidentifier) 0 true = .ok vals := by
  induction vals with
  | nil => rfl
  | cons v rest ih =>
    have hv := h v List.mem_cons_self
    have hlast : (UInt8.ofNat (v % 128)).toNat = v % 128 := by
      rw [UInt8.toNat_ofNat']
      omega
    have hend : UInt8.ofNat (v % 128) &&& 0x80 = 0 := (and_128_eq_zero _).mpr (by omega)
    have hlow : (UInt8.ofNat (v % 128) &&& 0x7f).toNat = v % 128 := by
      rw [toNat_and_127, hlast]
      omega
    have hfirst : ¬ (decide (v / 128 = 0) = true ∧ UInt8.ofNat (v % 128) = 0x80) := by
      rintro ⟨-, hmark⟩
      rw [hmark] at hlast
      simp at hlast
      omega
    rw [List.flatMap_cons, encodeOidSubidentifier_eq, List.append_assoc,
      decodeSubids_markedGroups (by omega), List.singleton_append, decodeSubids, if_neg hfirst,
      if_neg (by omega)]
    simp only [hend, hlow, if_true]
    rw [ih fun w hw => h w (List.mem_cons_of_mem _ hw), Checked.ok_bind]
    congr 2
    omega

/-- Sub-identifiers that were read stand there in their one encoding. -/
theorem decodeSubids_eq_ok {bytes : List UInt8} {val : ℕ} {vals : List ℕ}
    (h : decodeSubids bytes val (decide (val = 0)) = .ok vals) :
    markedGroups val ++ bytes = vals.flatMap encodeOidSubidentifier ∧ ∀ v ∈ vals, v < 2 ^ 64 := by
  induction bytes generalizing val vals with
  | nil =>
    unfold decodeSubids at h
    obtain ⟨hstart, h⟩ := ite_error_eq_ok.mp h
    cases h
    obtain rfl : val = 0 := by simpa using hstart
    rw [markedGroups, if_pos rfl]
    simp
  | cons byte rest ih =>
    unfold decodeSubids at h
    obtain ⟨hfirst, h⟩ := ite_error_eq_ok.mp h
    obtain ⟨hroom, h⟩ := ite_error_eq_ok.mp h
    have hbyte := byte.toNat_lt
    rw [toNat_and_127] at h
    have hdiv : (val * 128 + byte.toNat % 128) / 128 = val := by omega
    have hmod : (val * 128 + byte.toNat % 128) % 128 = byte.toNat % 128 := by omega
    dsimp only at h
    split at h
    · rename_i hend
      have hsmall := (and_128_eq_zero byte).mp hend
      obtain ⟨more, hmore, h⟩ := bind_eq_ok.mp h
      cases h
      obtain ⟨hrest, hlt⟩ := @ih 0 more hmore
      rw [markedGroups, if_pos rfl, List.nil_append] at hrest
      refine ⟨?_, List.forall_mem_cons.mpr ⟨by omega, hlt⟩⟩
      rw [List.flatMap_cons, encodeOidSubidentifier_eq, hdiv, hmod, ← hrest,
        Nat.mod_eq_of_lt hsmall, UInt8.ofNat_toNat, List.append_assoc]
      rfl
    · rename_i hmore
      have hlarge : 128 ≤ byte.toNat := by
        by_contra hsmall
        exact hmore ((and_128_eq_zero byte).mpr (by omega))
      have hne : val * 128 + byte.toNat % 128 ≠ 0 := by
        intro hzero
        refine hfirst ⟨by simp; omega, UInt8.toNat_inj.mp ?_⟩
        simp
        omega
      obtain ⟨hrest, hlt⟩ := @ih (val * 128 + byte.toNat % 128) vals
        (by rwa [decide_eq_false hne])
      refine ⟨?_, hlt⟩
      rw [← hrest, markedGroups.eq_def (val * 128 + _), if_neg hne, hdiv, hmod,
        show byte.toNat % 128 + 128 = byte.toNat by omega, UInt8.ofNat_toNat, List.append_assoc]
      rfl

/-! ### Identifiers -/

/-- Decimal arcs without leading zeros or signs, joined by dots. -/
def CanonicalOid (oid : String) : Prop := ∃ arcs, oid = dotted arcs

theorem firstArcs_packed {first second : ℕ} (h : ¬ (first > 2 ∨ (first < 2 ∧ second ≥ 40))) :
    firstArcs (first * 40 + second) = (first, second) := by
  have hcases : (first = 0 ∧ second < 40) ∨ (first = 1 ∧ second < 40) ∨ first = 2 := by omega
  unfold firstArcs
  obtain ⟨rfl, hs⟩ | ⟨rfl, hs⟩ | rfl := hcases
  · rw [if_pos (by omega)]
    simp
  · rw [if_neg (by omega), if_pos (by omega)]
    simp
  · rw [if_neg (by omega), if_neg (by omega)]
    simp

theorem firstArcs_unpacked (first : ℕ) :
    ¬ ((firstArcs first).1 > 2 ∨ ((firstArcs first).1 < 2 ∧ (firstArcs first).2 ≥ 40)) ∧
      (firstArcs first).1 * 40 + (firstArcs first).2 = first ∧ (firstArcs first).2 ≤ first := by
  unfold firstArcs
  split_ifs <;> simp <;> omega

/-- What was encoded from canonical text decodes to it. -/
theorem decodeBerOid_encode {oid : String} {bytes : List UInt8} (hcan : CanonicalOid oid)
    (h : encodeBerOid oid = .ok bytes) :
    ∃ body, bytes = encodeTlv berTagOid body ∧ decodeBerOid body = .ok oid := by
  obtain ⟨arcs, rfl⟩ := hcan
  have hne : arcs ≠ [] := by
    rintro rfl
    have hnone : (dotted []).toList.splitOn '.' = [[]] := by
      rw [dotted, String.toList_ofList]
      rfl
    simp [encodeBerOid, hnone, parseU64] at h
  unfold encodeBerOid at h
  split at h
  · cases h
  rename_i vs hvs
  obtain ⟨rfl, hlt⟩ := (arcs_dotted hne).mp hvs
  obtain ⟨body, hbody, h⟩ := bind_eq_ok.mp h
  cases h
  refine ⟨body, rfl, ?_⟩
  unfold encodeArcs at hbody
  split at hbody
  · rename_i first second rest
    obtain ⟨hpack, hbody⟩ := ite_error_eq_ok.mp hbody
    obtain ⟨hsum, hbody⟩ := ite_error_eq_ok.mp hbody
    cases hbody
    have hall : ∀ v ∈ (first * 40 + second) :: rest, v < 2 ^ 64 :=
      List.forall_mem_cons.mpr ⟨by omega, fun v hv => hlt v (by simp [hv])⟩
    have hcons : (((first * 40 + second) :: rest).flatMap encodeOidSubidentifier) ≠ [] := by
      rw [List.flatMap_cons, encodeOidSubidentifier_eq]
      simp
    rw [decodeBerOid, if_neg hcons, decodeSubids_encode hall, Checked.ok_bind]
    simp only [firstArcs_packed hpack]
  · cases hbody

/-- What decodes is encoded again from its text. -/
theorem encodeBerOid_of_decode {body : List UInt8} {oid : String}
    (h : decodeBerOid body = .ok oid) :
    CanonicalOid oid ∧ encodeBerOid oid = .ok (encodeTlv berTagOid body) := by
  obtain ⟨-, h⟩ := ite_error_eq_ok.mp h
  obtain ⟨subids, hsub, h⟩ := bind_eq_ok.mp h
  obtain ⟨henc, hlt⟩ := @decodeSubids_eq_ok body 0 subids hsub
  rw [markedGroups, if_pos rfl, List.nil_append] at henc
  cases subids with
  | nil => cases h
  | cons first rest =>
    obtain ⟨hfirst, hrest⟩ := List.forall_mem_cons.mp hlt
    obtain ⟨hpack, hsum, hle⟩ := firstArcs_unpacked first
    cases h
    refine ⟨⟨_, rfl⟩, ?_⟩
    have hall : ∀ a ∈ (firstArcs first).1 :: (firstArcs first).2 :: rest, a < 2 ^ 64 :=
      List.forall_mem_cons.mpr ⟨by omega, List.forall_mem_cons.mpr ⟨by omega, hrest⟩⟩
    rw [encodeBerOid, (arcs_dotted (by simp)).mpr ⟨rfl, hall⟩]
    simp only [encodeArcs]
    rw [if_neg hpack, hsum, if_neg (by omega), Checked.ok_bind, henc]

end ToyTcpip.Snmp
