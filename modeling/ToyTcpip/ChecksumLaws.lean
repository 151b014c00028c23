import ToyTcpip.Ipv4

/-! Laws of the RFC 1071 checksum, and the time to live counted down in place. -/
namespace ToyTcpip

variable {data data' pre post : List UInt8} {sum : ℕ}

/-- Addition of words with the carry brought round. -/
def onesAdd (a b : ℕ) : ℕ := if a + b < 65536 then a + b else a + b - 65535

/-- What a checksum of a valid buffer stands for: its words add up to a multiple of 65535. -/
def SumsToOnes (sum : ℕ) : Prop := sum % 65535 = 0

theorem wordSum_le_words (data : List UInt8) : wordSum data ≤ 65535 * ((data.length + 1) / 2) := by
  fun_induction wordSum data with
  | case1 => simp
  | case2 a =>
    have := beWord_lt a 0
    simp
    omega
  | case3 a b rest ih =>
    have := beWord_lt a b
    simp only [List.length_cons]
    omega

theorem wordSum_lt (h : data.length < 131072) : wordSum data < 2 ^ 32 := by
  have := wordSum_le_words data
  omega

theorem rawChecksum_eq (h : data.length < 131072) : rawChecksum data = wordSum data := by
  rw [rawChecksum, rawChecksumFrom_eq (by decide), Nat.zero_add, Nat.mod_eq_of_lt (wordSum_lt h)]

theorem foldCarry_spec (h : sum < 2 ^ 32) : foldCarry 2 sum < 65536 ∧
    foldCarry 2 sum % 65535 = sum % 65535 ∧ (foldCarry 2 sum = 0 ↔ sum = 0) := by
  rcases Nat.eq_zero_or_pos sum with rfl | hpos
  · simp [foldCarry]
  · obtain ⟨hmod, hfold⟩ := foldCarry_mod h hpos
    exact ⟨foldCarry_lt h, hmod, by omega⟩

theorem folded_iff (h : sum < 2 ^ 32) :
    (foldCarry 2 sum = 0xFFFF || foldCarry 2 sum = 0) = true ↔ SumsToOnes sum := by
  obtain ⟨hlt, hmod, -⟩ := foldCarry_spec h
  rw [Bool.or_eq_true, decide_eq_true_eq, decide_eq_true_eq, SumsToOnes]
  omega

theorem sumsToOnes_add_finalizeChecksum (h : sum < 2 ^ 32) :
    SumsToOnes (sum + finalizeChecksum sum) := by
  obtain ⟨hlt, hmod, -⟩ := foldCarry_spec h
  unfold SumsToOnes finalizeChecksum
  omega

theorem verifyChecksum_iff (h : data.length < 131072) :
    verifyChecksum data = true ↔ SumsToOnes (wordSum data) := by
  rw [verifyChecksum, rawChecksum_eq h]
  exact folded_iff (wordSum_lt h)

/-- The words around a field at an even offset and the field itself. -/
theorem wordSum_field {n : ℕ} (heven : pre.length % 2 = 0) (hn : n < 65536) :
    wordSum (pre ++ (toBeBytes16 n ++ post)) = wordSum pre + wordSum post + n := by
  rw [wordSum_append _ _ heven, toBeBytes16, List.cons_append, List.cons_append,
    List.nil_append, wordSum, beWord_toBeBytes16 hn]
  omega

theorem length_around (n : ℕ) :
    (pre ++ (toBeBytes16 n ++ post)).length = pre.length + 2 + post.length := by
  rw [List.length_append, List.length_append, Nat.add_assoc]
  rfl

theorem verifyChecksum_computed (heven : pre.length % 2 = 0)
    (hlen : pre.length + 2 + post.length < 131072) :
    verifyChecksum (pre ++ (toBeBytes16 (computeChecksum (pre ++ (toBeBytes16 0 ++ post))) ++
      post)) =
      true := by
  have hzero : (pre ++ (toBeBytes16 0 ++ post)).length < 131072 := by rwa [length_around]
  have hcsum : computeChecksum (pre ++ (toBeBytes16 0 ++ post)) < 65536 := finalizeChecksum_lt _
  have hones := sumsToOnes_add_finalizeChecksum (wordSum_lt hzero)
  rw [wordSum_field heven (by decide), Nat.add_zero] at hones
  rw [verifyChecksum_iff (by rwa [length_around]), wordSum_field heven hcsum, computeChecksum,
    rawChecksum_eq hzero, wordSum_field heven (by decide), Nat.add_zero]
  exact hones

theorem onesAdd_spec {a b : ℕ} (ha : a < 65536) (hb : b < 65536) : onesAdd a b < 65536 ∧
    onesAdd a b % 65535 = (a + b) % 65535 ∧ (onesAdd a b = 0 ↔ a + b = 0) := by
  unfold onesAdd
  split_ifs <;> omega

/-- Folding sums one by one and bringing the carry round is folding them together. -/
theorem foldCarry_add {a b : ℕ} (h : a + b < 2 ^ 32) :
    foldCarry 2 (a + b) = onesAdd (foldCarry 2 a) (foldCarry 2 b) := by
  obtain ⟨ha, hamod, hazero⟩ := foldCarry_spec (by omega : a < 2 ^ 32)
  obtain ⟨hb, hbmod, hbzero⟩ := foldCarry_spec (by omega : b < 2 ^ 32)
  obtain ⟨hall, hallmod, hallzero⟩ := foldCarry_spec h
  obtain ⟨hones, honesmod, honeszero⟩ := onesAdd_spec ha hb
  have hmod : foldCarry 2 (a + b) % 65535 = onesAdd (foldCarry 2 a) (foldCarry 2 b) % 65535 := by
    rw [hallmod, honesmod, Nat.add_mod, ← hamod, ← hbmod, ← Nat.add_mod]
  have hzero : foldCarry 2 (a + b) = 0 ↔ onesAdd (foldCarry 2 a) (foldCarry 2 b) = 0 := by
    rw [hallzero, honeszero, Nat.add_eq_zero_iff, Nat.add_eq_zero_iff, hazero, hbzero]
  clear hamod hbmod hallmod honesmod hazero hbzero hallzero honeszero
  omega

theorem sub_finalizeChecksum (h : sum < 2 ^ 32) :
    65535 - finalizeChecksum sum = foldCarry 2 sum := by
  have hlt := (foldCarry_spec h).1
  unfold finalizeChecksum
  omega

/-- The checksum of a buffer cut at an even offset is that of the parts' sums, added with the carry
brought round. -/
theorem computeChecksum_append (heven : pre.length % 2 = 0) (hlen : (pre ++ post).length < 131072) :
    65535 - computeChecksum (pre ++ post) =
      onesAdd (65535 - computeChecksum pre) (65535 - computeChecksum post) := by
  have hsum := wordSum_lt hlen
  rw [wordSum_append _ _ heven] at hsum
  rw [List.length_append] at hlen
  rw [computeChecksum, computeChecksum, computeChecksum,
    rawChecksum_eq (by rwa [List.length_append]), rawChecksum_eq (by omega),
    rawChecksum_eq (by omega), wordSum_append _ _ heven,
    sub_finalizeChecksum hsum, sub_finalizeChecksum (by omega), sub_finalizeChecksum (by omega),
    foldCarry_add hsum]

/-! ### Transport checksums -/

section transport

variable {srcIp dstIp srcIp' dstIp' : Ipv4Address} {protocol : UInt8}
  {segment segment' : List UInt8}

/-- The words that a transport checksum covers. -/
def transportSum (srcIp dstIp : Ipv4Address) (protocol : UInt8) (segment : List UInt8) : ℕ :=
  wordSum srcIp.octets + wordSum dstIp.octets + protocol.toNat + segment.length + wordSum segment

theorem transportSum_lt (h : segment.length ≤ 65535) :
    transportSum srcIp dstIp protocol segment < 2 ^ 32 - 65536 := by
  have hsrc := wordSum_le srcIp.octets
  have hdst := wordSum_le dstIp.octets
  have hprotocol := protocol.toNat_lt
  have hseg := wordSum_le_words segment
  have hsrc4 : srcIp.octets.length = 4 := rfl
  have hdst4 : dstIp.octets.length = 4 := rfl
  unfold transportSum
  omega

theorem pseudoHeaderSum_add (h : segment.length ≤ 65535) :
    wrappingAdd (pseudoHeaderSum srcIp.octets dstIp.octets protocol segment.length)
      (rawChecksum segment) =
      transportSum srcIp dstIp protocol segment := by
  have hlt := @transportSum_lt srcIp dstIp protocol segment h
  rw [rawChecksum_eq (by omega), Ipv4Address.octets, Ipv4Address.octets,
    pseudoHeaderSum_eq, wrappingAdd]
  simp only [transportSum, Ipv4Address.octets, wordSum] at hlt ⊢
  omega

theorem verifyIpv4TransportChecksum_iff (h : segment.length ≤ 65535) :
    verifyIpv4TransportChecksum srcIp.octets dstIp.octets protocol segment = true ↔
      SumsToOnes (transportSum srcIp dstIp protocol segment) := by
  have hlt := @transportSum_lt srcIp dstIp protocol segment h
  rw [verifyIpv4TransportChecksum, pseudoHeaderSum_add h]
  exact folded_iff (by omega)

theorem computeIpv4TransportChecksum_spec (h : segment.length ≤ 65535) :
    let csum := computeIpv4TransportChecksum srcIp.octets dstIp.octets protocol segment
    csum < 65536 ∧ SumsToOnes (transportSum srcIp dstIp protocol segment + csum) ∧
      (protocol = 17 → csum ≠ 0) := by
  intro csum
  have hlt := @transportSum_lt srcIp dstIp protocol segment h
  have hones := sumsToOnes_add_finalizeChecksum
    (by omega : transportSum srcIp dstIp protocol segment < 2 ^ 32)
  have hcsum := finalizeChecksum_lt (transportSum srcIp dstIp protocol segment)
  simp only [csum, computeIpv4TransportChecksum, pseudoHeaderSum_add h]
  unfold SumsToOnes at *
  split_ifs with hudp
  · omega
  · exact ⟨hcsum, hones, fun hprotocol hzero => hudp ⟨hprotocol, hzero⟩⟩

/-- A transport checksum written where a zeroed field stood verifies; for UDP it is not zero. -/
theorem verifyIpv4TransportChecksum_field (heven : pre.length % 2 = 0)
    (hlen : pre.length + 2 + post.length ≤ 65535) :
    let csum := computeIpv4TransportChecksum srcIp.octets dstIp.octets protocol
      (pre ++ (toBeBytes16 0 ++ post))
    verifyIpv4TransportChecksum srcIp.octets dstIp.octets protocol (pre ++
      (toBeBytes16 csum ++ post)) =
      true ∧ (protocol = 17 → csum ≠ 0) := by
  intro csum
  obtain ⟨hlt, hones, hudp⟩ := @computeIpv4TransportChecksum_spec srcIp dstIp protocol
    (pre ++ (toBeBytes16 0 ++ post)) (by rwa [length_around])
  refine ⟨?_, hudp⟩
  rw [verifyIpv4TransportChecksum_iff (by rwa [length_around])]
  simp only [transportSum, length_around, wordSum_field heven (by decide : 0 < 65536)] at hones
  have hfield := @wordSum_field pre post csum heven hlt
  rw [transportSum, length_around, hfield]
  unfold SumsToOnes at hones ⊢
  omega

end transport

/-! ### The time to live -/

namespace Ipv4Packet

/-- `data[i..i + 2].copy_from_slice`. -/
def putWord (data : List UInt8) (i n : ℕ) : List UInt8 :=
  (data.set i (.ofNat (n / 256))).set (i + 1) (.ofNat n)

/-- The result, and the buffer after the call. -/
def decrementTtlInPlace (data : List UInt8) : Except Ipv4Error Bool × List UInt8 :=
  match parse data true with
  | .error e => (.error e, data)
  | .ok parsed =>
    let headerLen := parsed.header.ihl * 4
    let ttl := parsed.header.ttl
    if ttl ≤ 1 then (.ok false, data)
    else
      let data := putWord (data.set 8 (ttl - 1)) 10 0
      (.ok true, putWord data 10 (computeChecksum (data.take headerLen)))

theorem ite_error_eq_ok {ε α : Type} {c : Prop} [Decidable c] {e : ε} {x : Except ε α} {a : α} :
    (if c then .error e else x) = .ok a ↔ ¬ c ∧ x = .ok a := by
  split <;> simp_all

/-- What the parser checks before it gives a packet. -/
theorem parse_eq_ok {p : Ipv4Packet} : parse data true = .ok p ↔
    ¬ data.length < 20 ∧ ¬ (Ipv4Header.read data).version ≠ 4 ∧ ¬ (Ipv4Header.read data).ihl < 5 ∧
      ¬ data.length < (Ipv4Header.read data).ihl * 4 ∧
      ¬ (Ipv4Header.read data).totalLength < (Ipv4Header.read data).ihl * 4 ∧
      ¬ data.length < (Ipv4Header.read data).totalLength ∧ ¬ wordAt data 6 &&& 0x8000 ≠ 0 ∧
      ¬ ((Ipv4Header.read data).moreFragments ∧
        ((Ipv4Header.read data).totalLength - (Ipv4Header.read data).ihl * 4) % 8 ≠ 0) ∧
      verifyChecksum (data.take ((Ipv4Header.read data).ihl * 4)) = true ∧
      ⟨Ipv4Header.read data, (data.take (Ipv4Header.read data).totalLength).drop
        ((Ipv4Header.read data).ihl * 4)⟩ = p := by
  rw [parse, ite_error_eq_ok, ite_error_eq_ok, ite_error_eq_ok, ite_error_eq_ok, ite_error_eq_ok,
    ite_error_eq_ok, ite_error_eq_ok, ite_error_eq_ok, ite_error_eq_ok, Except.ok.injEq]
  simp only [true_and, not_not]
  rfl

/-- Twelve bytes that a header of at least twenty begins with. -/
theorem eq_cons_of_length {l : List UInt8} (h : 20 ≤ l.length) :
    ∃ b₀ b₁ b₂ b₃ b₄ b₅ b₆ b₇ b₈ b₉ b₁₀ b₁₁ rest,
      l = b₀ :: b₁ :: b₂ :: b₃ :: b₄ :: b₅ :: b₆ :: b₇ :: b₈ :: b₉ :: b₁₀ :: b₁₁ :: rest := by
  match l, h with
  | b₀ :: b₁ :: b₂ :: b₃ :: b₄ :: b₅ :: b₆ :: b₇ :: b₈ :: b₉ :: b₁₀ :: b₁₁ :: rest, _ =>
    exact ⟨b₀, b₁, b₂, b₃, b₄, b₅, b₆, b₇, b₈, b₉, b₁₀, b₁₁, rest, rfl⟩

/-- A packet with other bytes for the time to live and the checksum. -/
theorem putTtl_spec {ttl : UInt8} {csum : ℕ} (hlen : 20 ≤ data.length) (hcsum : csum < 65536)
    (hdata : data' = putWord (data.set 8 ttl) 10 csum) :
    data'.length = data.length ∧
      Ipv4Header.read data' = { Ipv4Header.read data with ttl := ttl, checksum := csum } ∧
      wordAt data' 6 = wordAt data 6 ∧
      (∀ i, i ≠ 8 → i ≠ 10 → i ≠ 11 → data'[i]? = data[i]?) ∧
      ∀ n, 12 ≤ n → data'.drop n = data.drop n ∧
        data'.take n = (data.set 8 ttl).take 10 ++ (toBeBytes16 csum ++ (data.take n).drop 12) := by
  refine ⟨by simp [hdata, putWord], ?_, ?_, ?_, ?_⟩
  · obtain ⟨b₀, b₁, b₂, b₃, b₄, b₅, b₆, b₇, b₈, b₉, b₁₀, b₁₁, rest, rfl⟩ := eq_cons_of_length hlen
    have hword : wordAt data' 10 = csum := by
      rw [hdata]
      exact beWord_toBeBytes16 hcsum
    rw [Ipv4Header.read, hword, hdata]
    rfl
  · obtain ⟨b₀, b₁, b₂, b₃, b₄, b₅, b₆, b₇, b₈, b₉, b₁₀, b₁₁, rest, rfl⟩ := eq_cons_of_length hlen
    rw [hdata]
    rfl
  · intro i h₈ h₁₀ h₁₁
    rw [hdata, putWord, List.getElem?_set_ne (by omega), List.getElem?_set_ne (by omega),
      List.getElem?_set_ne (by omega)]
  · intro n hn
    obtain ⟨b₀, b₁, b₂, b₃, b₄, b₅, b₆, b₇, b₈, b₉, b₁₀, b₁₁, rest, rfl⟩ := eq_cons_of_length hlen
    obtain ⟨m, rfl⟩ := Nat.exists_eq_add_of_le' hn
    rw [hdata]
    exact ⟨rfl, rfl⟩

/-- A packet with another time to live and a checksum that verifies is still parsed. -/
theorem parse_putTtl {p : Ipv4Packet} {ttl : UInt8} {csum : ℕ} (h : parse data true = .ok p)
    (hcsum : csum < 65536) (hdata : data' = putWord (data.set 8 ttl) 10 csum)
    (hver : verifyChecksum (data'.take (p.header.ihl * 4)) = true) :
    parse data' true = .ok { p with header := { p.header with ttl := ttl, checksum := csum } } := by
  obtain ⟨hlen, hversion, hihl, hheader, hsmall, htotal, hflag, hmore, -, rfl⟩ := parse_eq_ok.mp h
  obtain ⟨hlen', hread', hword', -, hdrop⟩ := putTtl_spec (by omega) hcsum hdata
  refine parse_eq_ok.mpr ?_
  rw [hread', hlen', hword', List.drop_take, (hdrop _ (by dsimp only; omega)).1, ← List.drop_take]
  exact ⟨hlen, hversion, hihl, hheader, hsmall, htotal, hflag, hmore, hver, rfl⟩

theorem decrementTtlInPlace_eq {p : Ipv4Packet} (h : parse data true = .ok p)
    (httl : ¬ p.header.ttl ≤ 1) :
    ∃ csum < 65536, decrementTtlInPlace data = (.ok true,
      putWord (data.set 8 (p.header.ttl - 1)) 10 csum) ∧
      verifyChecksum ((putWord (data.set 8 (p.header.ttl - 1)) 10 csum).take (p.header.ihl * 4)) =
        true := by
  obtain ⟨hshort, -, hihl, -, -, -, -, -, -, hp⟩ := parse_eq_ok.mp h
  have hlen : 20 ≤ data.length := not_lt.mp hshort
  have hihl' : 5 ≤ p.header.ihl ∧ p.header.ihl < 16 := by
    rw [← hp]
    exact ⟨not_lt.mp hihl, Nat.mod_lt _ (by decide)⟩
  have htake : ∀ csum < 65536, _ := fun csum hcsum =>
    ((putTtl_spec hlen hcsum (@rfl _ (putWord (data.set 8 (p.header.ttl - 1)) 10 csum))).2.2.2.2
      (p.header.ihl * 4) (by omega)).2
  have hcsum : computeChecksum ((putWord (data.set 8 (p.header.ttl - 1)) 10 0).take
      (p.header.ihl * 4)) <
      65536 := finalizeChecksum_lt _
  refine ⟨_, hcsum, ?_, ?_⟩
  · obtain ⟨b₀, b₁, b₂, b₃, b₄, b₅, b₆, b₇, b₈, b₉, b₁₀, b₁₁, rest, rfl⟩ := eq_cons_of_length hlen
    rw [decrementTtlInPlace, h]
    exact if_neg httl
  · rw [htake _ hcsum, htake 0 (by decide)]
    refine verifyChecksum_computed ?_ ?_
    · simp
      omega
    · simp
      omega

/-- A count taken down leaves a packet that still parses, with nothing changed but the time to live
and the checksum; any other outcome leaves the buffer as it was. -/
theorem decrement_ttl_in_place (data : List UInt8) :
    ((decrementTtlInPlace data).1 = .ok true → ∃ p csum, parse data true = .ok p ∧
      parse (decrementTtlInPlace data).2 true =
        .ok { p with header := { p.header with ttl := p.header.ttl - 1, checksum := csum } } ∧
      (p.header.ttl - 1).toNat + 1 = p.header.ttl.toNat ∧
      (decrementTtlInPlace data).2.length = data.length ∧
      ∀ i, i ≠ 8 → i ≠ 10 → i ≠ 11 → (decrementTtlInPlace data).2[i]? = data[i]?) ∧
    ((decrementTtlInPlace data).1 ≠ .ok true → (decrementTtlInPlace data).2 = data) := by
  cases h : parse data true with
  | error e =>
    have heq : decrementTtlInPlace data = (.error e, data) := by rw [decrementTtlInPlace, h]
    rw [heq]
    exact ⟨nofun, fun _ => rfl⟩
  | ok p =>
    by_cases httl : p.header.ttl ≤ 1
    · have heq : decrementTtlInPlace data = (.ok false, data) := by
        rw [decrementTtlInPlace, h]
        exact if_pos httl
      rw [heq]
      exact ⟨nofun, fun _ => rfl⟩
    · obtain ⟨csum, hcsum, heq, hver⟩ := decrementTtlInPlace_eq h httl
      obtain ⟨hlen, -, -, hsame, -⟩ := putTtl_spec (not_lt.mp (parse_eq_ok.mp h).1) hcsum
        (@rfl _ (putWord (data.set 8 (p.header.ttl - 1)) 10 csum))
      rw [heq]
      refine ⟨fun _ => ⟨p, csum, rfl, parse_putTtl h hcsum rfl hver, ?_, hlen, hsame⟩,
        fun hne => absurd rfl hne⟩
      rw [UInt8.le_iff_toNat_le, UInt8.toNat_one] at httl
      rw [UInt8.toNat_sub_of_le _ _ (UInt8.le_iff_toNat_le.mpr (by rw [UInt8.toNat_one]; omega)),
        UInt8.toNat_one]
      omega

end Ipv4Packet

end ToyTcpip
