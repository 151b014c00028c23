import ToyTcpip.Firewall
import ToyTcpip.Fragment.Split

/-! What the firewall decides about a datagram and about its fragments. -/
namespace ToyTcpip.Fragment

/-! ### What the rules look at -/

/-- Addresses and protocol of a packet, and the ports where it is long enough to have them. -/
structure Flow where
  srcIp : Ipv4Address
  dstIp : Ipv4Address
  protocol : UInt8
  ports : Option (ℕ × ℕ)
  deriving DecidableEq

/-- The first four bytes as two ports. -/
def portsOf (bytes : List UInt8) : Option (ℕ × ℕ) :=
  if bytes.length < 4 then none else some (wordAt bytes 0, wordAt bytes 2)

def flowOf (p : Ipv4Packet) : Flow :=
  ⟨p.header.srcIp, p.header.dstIp, p.header.protocol.toU8, portsOf p.payload⟩

/-- A rule covers a flow: its addresses, its protocol, and its ports where the rule names any. -/
def Covers (rule : FirewallRule) (f : Flow) : Prop :=
  (∀ cidr ∈ rule.srcCidr, cidr.matchesAddr f.srcIp = true) ∧
  (∀ cidr ∈ rule.dstCidr, cidr.matchesAddr f.dstIp = true) ∧
  (∀ p ∈ rule.protocol, f.protocol = p) ∧
  (rule.srcPortRange.isSome ∨ rule.dstPortRange.isSome →
    (f.protocol = 6 ∨ f.protocol = 17) ∧ ∃ ports ∈ f.ports,
      FirewallRule.portIn rule.srcPortRange ports.1 = true ∧
      FirewallRule.portIn rule.dstPortRange ports.2 = true)

/-- The first rule that covers the flow accepts it, or no rule covers it and the policy does. -/
def Passes (fw : Firewall) (f : Flow) : Prop :=
  (∃ before rule after, fw.inputRules = before ++ rule :: after ∧ (∀ r ∈ before, ¬ Covers r f) ∧
    Covers rule f ∧ rule.action = .accept) ∨
  (∀ r ∈ fw.inputRules, ¬ Covers r f) ∧ fw.defaultInputPolicy = .accept

variable {fw : Firewall} {p q : Ipv4Packet} {f : Flow}

theorem matchesPacket_iff (rule : FirewallRule) (p : Ipv4Packet) :
    rule.matchesPacket p = true ↔ Covers rule (flowOf p) := by
  have hall : ∀ {α : Type} (o : Option α) (b : α → Bool), o.all b = true ↔ ∀ a ∈ o, b a = true := by
    intro α o b
    cases o <;> simp
  unfold FirewallRule.matchesPacket Covers
  simp only [flowOf]
  rw [← hall, ← hall]
  by_cases hsrc : rule.srcCidr.all (fun cidr => cidr.matchesAddr p.header.srcIp) = true
  case neg => simp [hsrc]
  by_cases hdst : rule.dstCidr.all (fun cidr => cidr.matchesAddr p.header.dstIp) = true
  case neg => simp [hsrc, hdst]
  have hproto := hall rule.protocol fun x => decide (p.header.protocol.toU8 = x)
  simp only [decide_eq_true_eq] at hproto
  rw [← hproto]
  by_cases hp : rule.protocol.all (fun x => decide (p.header.protocol.toU8 = x)) = true
  case neg => simp [hsrc, hdst, hp]
  by_cases hports : rule.srcPortRange.isSome ∨ rule.dstPortRange.isSome
  case neg => simp [hsrc, hdst, hp, hports]
  by_cases htcp : p.header.protocol.toU8 = 6 ∨ p.header.protocol.toU8 = 17
  case neg => simp [hsrc, hdst, hp, hports, htcp]
  by_cases hlen : p.payload.length < 4
  · simp [hsrc, hdst, hp, hports, htcp, hlen, portsOf]
  · simp [hsrc, hdst, hp, hports, htcp, hlen, portsOf]

theorem evaluate_iff : fw.evaluate p = .accept ↔ Passes fw (flowOf p) := by
  unfold Firewall.evaluate Passes
  simp only [← matchesPacket_iff]
  cases hfind : fw.inputRules.find? fun rule => rule.matchesPacket p with
  | none =>
    rw [List.find?_eq_none] at hfind
    constructor
    · intro hpolicy
      exact .inr ⟨hfind, hpolicy⟩
    · rintro (⟨before, rule, after, hrules, -, hrule, -⟩ | ⟨-, hpolicy⟩)
      · exact absurd hrule (hfind rule (by simp [hrules]))
      · exact hpolicy
  | some rule =>
    obtain ⟨hrule, before, after, hrules, hbefore⟩ := List.find?_eq_some_iff_append.mp hfind
    constructor
    · intro haction
      exact .inl ⟨before, rule, after, hrules, by simpa using hbefore, hrule, haction⟩
    · rintro (⟨before', rule', after', hrules', hbefore', hrule', haction⟩ | ⟨hnone, -⟩)
      · have hfind' : fw.inputRules.find? (fun rule => rule.matchesPacket p) = some rule' :=
          List.find?_eq_some_iff_append.mpr ⟨hrule', before', after',
            hrules', by simpa using hbefore'⟩
        rw [hfind] at hfind'
        cases hfind'
        exact haction
      · exact absurd hrule (hnone rule (by simp [hrules]))

/-! ### Fragments -/

/-- The bytes of a packet are read and accepted. -/
def Accepts (fw : Firewall) (bytes : List UInt8) : Prop :=
  ∃ p, Ipv4Packet.parse bytes true = .ok p ∧ fw.evaluate p = .accept

/-- The fragments of a datagram for an MTU. -/
def fragmentsOf (p : Ipv4Packet) (mtu : ℕ) : List (List UInt8) :=
  fragmentPayload p.header.srcIp p.header.dstIp p.header.protocol.toU8
    (.ofNat p.header.identification) p.header.ttl mtu p.payload

/-- The datagram as the rules see it when they take the bytes at `offset` for its ports. -/
def flowAt (p : Ipv4Packet) (offset : ℕ) : Flow :=
  { flowOf p with ports := portsOf (p.payload.drop offset) }

variable {maxPayload offset mtu : ℕ} {payload : List UInt8} {e : FragmentEntry}

/-- A chunk with another behind it is full. -/
theorem chunk_full {n j : ℕ} (h : offset + min (n - offset) maxPayload + j < n) :
    min (n - offset) maxPayload = maxPayload := by
  omega

theorem mem_chunksFrom (hmax : 0 < maxPayload) :
    e ∈ chunksFrom maxPayload hmax payload offset ↔
      ∃ k, offset + k * maxPayload < payload.length ∧
        e = chunkAt maxPayload payload (offset + k * maxPayload) := by
  fun_induction chunksFrom maxPayload hmax payload offset with
  | case1 offset hlt ih =>
    have hstep : ∀ k, offset + (k + 1) * maxPayload = offset + maxPayload + k * maxPayload := by
      intro k
      ring
    rw [List.mem_cons, ih]
    constructor
    · rintro (rfl | ⟨k, hk, rfl⟩)
      · exact ⟨0, by omega, by simp⟩
      · have hfull := chunk_full hk
        rw [hfull, ← hstep] at hk
        rw [hfull, ← hstep]
        exact ⟨k + 1, hk, rfl⟩
    · rintro ⟨k, hk, rfl⟩
      cases k with
      | zero => exact .inl (by simp)
      | succ k =>
        rw [hstep] at hk ⊢
        have hfull : min (payload.length - offset) maxPayload = maxPayload := by
          have hle : offset + maxPayload < payload.length := (Nat.le_add_right _ _).trans_lt hk
          omega
        rw [hfull]
        exact .inr ⟨k, hk, rfl⟩
  | case2 offset hge =>
    simp only [List.not_mem_nil, false_iff, not_exists, not_and]
    intro k hk
    exact absurd ((Nat.le_add_right _ _).trans_lt hk) hge

/-- Eight bytes are enough to see the ports. -/
theorem portsOf_chunkAt (hmax : 8 ≤ maxPayload) :
    portsOf (chunkAt maxPayload payload offset).data = portsOf (payload.drop offset) := by
  simp only [chunkAt]
  generalize hn : min (payload.length - offset) maxPayload = n
  have hlen : (payload.drop offset).length = payload.length - offset := List.length_drop
  generalize payload.drop offset = bytes at hlen ⊢
  have htake : (bytes.take n).length < 4 ↔ bytes.length < 4 := by
    rw [List.length_take]
    omega
  unfold portsOf
  by_cases hshort : bytes.length < 4
  · rw [if_pos (htake.mpr hshort), if_pos hshort]
  · have hbyte : ∀ i < 4, byteAt (bytes.take n) i = byteAt bytes i := by
      intro i hi
      rw [byteAt, byteAt, List.getD_eq_getElem?_getD, List.getD_eq_getElem?_getD,
        List.getElem?_take_of_lt (by omega)]
    rw [if_neg (htake.not.mpr hshort), if_neg hshort]
    simp only [wordAt]
    rw [hbyte 0 (by omega), hbyte 1 (by omega), hbyte 2 (by omega), hbyte 3 (by omega)]

/-- A fragment is judged by its own first four bytes. -/
theorem accepts_fragment (hmax : 8 ≤ maxPayload) (h8 : maxPayload % 8 = 0) (ho : offset % 8 = 0)
    (hlt : offset < p.payload.length) (hlen : p.payload.length ≤ ipv4MaxPayloadLen) :
    let e := chunkAt maxPayload p.payload offset
    Accepts fw (fragmentBytes p.header.srcIp p.header.dstIp p.header.protocol.toU8
      (.ofNat p.header.identification) p.header.ttl e.offset e.moreFragments e.data) ↔
      Passes fw (flowAt p offset) := by
  intro e
  have hpos : 0 < maxPayload := by omega
  have hstop := (chunkAt_sliceOf hpos hlt).stop_le
  have hemit : Emittable maxPayload (chunkAt maxPayload p.payload offset) := chunkAt_emittable h8 ho
  obtain ⟨q, hparse, hkey, hentry⟩ := parse_fragmentBytes p.header.srcIp p.header.dstIp
    p.header.protocol.toU8 (.ofNat p.header.identification) p.header.ttl hemit (hstop.trans hlen)
  have hflow : flowOf q = flowAt p offset := by
    have hdata := congrArg FragmentEntry.data hentry
    simp only [packetKey, FragmentKey.mk.injEq] at hkey
    obtain ⟨hsrc, hdst, hproto, -⟩ := hkey
    rw [flowAt, ← portsOf_chunkAt hmax, ← hdata]
    simp only [flowOf, hsrc, hdst, hproto, packetEntry]
  rw [Accepts, ← hflow, ← evaluate_iff]
  constructor
  · rintro ⟨q', hparse', haccept⟩
    rw [hparse] at hparse'
    cases hparse'
    exact haccept
  · intro haccept
    exact ⟨q, hparse, haccept⟩

/-- The most payload that a fragment for this MTU carries. -/
def maxPayloadOf (mtu : ℕ) : ℕ := (mtu - ipv4MinHeaderLen) / 8 * 8

theorem mem_fragmentsOf (hmtu : 28 ≤ mtu) {bytes : List UInt8} :
    bytes ∈ fragmentsOf p mtu ↔ ∃ k, k * maxPayloadOf mtu < p.payload.length ∧
      let e := chunkAt (maxPayloadOf mtu) p.payload (k * maxPayloadOf mtu)
      bytes = fragmentBytes p.header.srcIp p.header.dstIp p.header.protocol.toU8
        (.ofNat p.header.identification) p.header.ttl e.offset e.moreFragments e.data := by
  have hmax : 0 < maxPayloadOf mtu := by
    simp only [maxPayloadOf, ipv4MinHeaderLen]
    omega
  unfold fragmentsOf fragmentPayload
  rw [if_neg (by simp only [ipv4MinHeaderLen]; omega)]
  simp only
  rw [dif_neg (show ¬ (mtu - ipv4MinHeaderLen) / 8 * 8 = 0 from Nat.pos_iff_ne_zero.mp hmax),
    fragmentLoop_eq_map, List.mem_map]
  constructor
  · rintro ⟨e, he, rfl⟩
    obtain ⟨k, hk, rfl⟩ := (mem_chunksFrom hmax).mp he
    rw [Nat.zero_add] at hk ⊢
    exact ⟨k, hk, rfl⟩
  · rintro ⟨k, hk, rfl⟩
    refine ⟨_, (mem_chunksFrom hmax).mpr ⟨k, by rwa [Nat.zero_add], rfl⟩, ?_⟩
    rw [Nat.zero_add]

theorem fragments_accepted_iff (hmtu : 28 ≤ mtu) (hlen : p.payload.length ≤ ipv4MaxPayloadLen) :
    (∀ bytes ∈ fragmentsOf p mtu, Accepts fw bytes) ↔
      ∀ k, k * maxPayloadOf mtu < p.payload.length →
      Passes fw (flowAt p (k * maxPayloadOf mtu)) := by
  have hmax : 8 ≤ maxPayloadOf mtu ∧ maxPayloadOf mtu % 8 = 0 := by
    simp only [maxPayloadOf, ipv4MinHeaderLen]
    omega
  have haligned : ∀ k, k * maxPayloadOf mtu % 8 = 0 := by
    intro k
    rw [Nat.mul_mod, hmax.2]
    simp
  have hpiece := fun k (hk : k * maxPayloadOf mtu < p.payload.length) =>
    @accepts_fragment fw p _ _ hmax.1 hmax.2 (haligned k) hk hlen
  constructor
  · intro h k hk
    exact (hpiece k hk).mp (h _ ((mem_fragmentsOf hmtu).mpr ⟨k, hk, rfl⟩))
  · intro h bytes hbytes
    obtain ⟨k, hk, rfl⟩ := (mem_fragmentsOf hmtu).mp hbytes
    exact (hpiece k hk).mpr (h k hk)

/-- Fragmenting keeps the decision exactly when no later fragment is taken for another flow that the
rules stop. -/
theorem fragments_decided_iff (fw : Firewall) (p : Ipv4Packet) (mtu : ℕ) (hmtu : 28 ≤ mtu)
    (hlen : p.payload.length ≤ ipv4MaxPayloadLen) :
    (fw.evaluate p = .accept ↔ ∀ bytes ∈ fragmentsOf p mtu, Accepts fw bytes) ↔
      (p.payload = [] → Passes fw (flowOf p)) ∧
      (Passes fw (flowOf p) → ∀ k, 0 < k → k * maxPayloadOf mtu < p.payload.length →
        Passes fw (flowAt p (k * maxPayloadOf mtu))) := by
  have hfirst : flowAt p (0 * maxPayloadOf mtu) = flowOf p := by
    rw [Nat.zero_mul]
    rfl
  rw [evaluate_iff, fragments_accepted_iff hmtu hlen]
  constructor
  · intro h
    refine ⟨?_, fun hpass k _ hk => h.mp hpass k hk⟩
    intro hempty
    refine h.mpr fun k hk => ?_
    simp [hempty] at hk
  · rintro ⟨hempty, hlater⟩
    constructor
    · intro hpass k hk
      rcases Nat.eq_zero_or_pos k with rfl | hpos
      · rwa [hfirst]
      · exact hlater hpass k hpos hk
    · intro hall
      rcases eq_or_ne p.payload [] with hnil | hne
      · exact hempty hnil
      · have hpos : 0 * maxPayloadOf mtu < p.payload.length := by
          rw [Nat.zero_mul]
          exact List.length_pos_iff.mpr hne
        rw [← hfirst]
        exact hall 0 hpos

/-- Only datagrams to port 53 are let in. -/
def resolverOnly : Firewall :=
  ⟨[{ protocol := some 17, dstPortRange := some (53, 53) }], .drop⟩

/-- A query to port 53 with eight more bytes of data than fit an MTU of 28. -/
def longQuery : Ipv4Packet :=
  ⟨⟨4, 5, 0, 36, 7, false, false, 0, 64, .udp, 0, ⟨10, 0, 0, 1⟩, ⟨10, 0, 0, 2⟩⟩,
    [4, 0, 0, 53, 0, 16, 0, 0, 0, 1, 2, 3, 4, 5, 6, 7]⟩

theorem fragments_decided_longQuery :
    (resolverOnly.evaluate longQuery = .accept ↔
      ∀ bytes ∈ fragmentsOf longQuery 28, Accepts resolverOnly bytes) ↔
      (longQuery.payload = [] → Passes resolverOnly (flowOf longQuery)) ∧
      (Passes resolverOnly (flowOf longQuery) →
        ∀ k, 0 < k → k * maxPayloadOf 28 < longQuery.payload.length →
          Passes resolverOnly (flowAt longQuery (k * maxPayloadOf 28))) :=
  fragments_decided_iff resolverOnly longQuery 28 (by decide) (by decide)

/-- The query is accepted and its second fragment is not. -/
theorem longQuery_fragment_lost : ¬ (resolverOnly.evaluate longQuery = .accept ↔
    ∀ bytes ∈ fragmentsOf longQuery 28, Accepts resolverOnly bytes) := by
  intro h
  have haccept : resolverOnly.evaluate longQuery = .accept := by decide
  have hall := (fragments_accepted_iff (by decide) (by decide)).mp (h.mp haccept)
  have hsecond : Passes resolverOnly
      (flowOf { longQuery with payload := longQuery.payload.drop 8 }) :=
    hall 1 (by decide)
  rw [← evaluate_iff] at hsecond
  revert hsecond
  decide

/-- Rules that name no ports look at nothing a fragment lacks. -/
theorem passes_flowAt (hports : ∀ rule ∈ fw.inputRules,
    rule.srcPortRange = none ∧ rule.dstPortRange = none) :
    Passes fw (flowAt p offset) ↔ Passes fw (flowOf p) := by
  have hcovers : ∀ rule ∈ fw.inputRules, (Covers rule (flowAt p offset) ↔
      Covers rule (flowOf p)) := by
    intro rule hrule
    obtain ⟨hsrc, hdst⟩ := hports rule hrule
    simp [Covers, flowAt, hsrc, hdst]
  constructor
  · rintro (⟨before, rule, after, hrules, hbefore, hrule, haction⟩ | ⟨hnone, hpolicy⟩)
    · refine .inl ⟨before, rule, after, hrules, ?_,
        (hcovers rule (by simp [hrules])).mp hrule, haction⟩
      intro r hr
      exact (hcovers r (by simp [hrules, hr])).not.mp (hbefore r hr)
    · exact .inr ⟨fun r hr => (hcovers r hr).not.mp (hnone r hr), hpolicy⟩
  · rintro (⟨before, rule, after, hrules, hbefore, hrule, haction⟩ | ⟨hnone, hpolicy⟩)
    · refine .inl ⟨before, rule, after, hrules, ?_,
        (hcovers rule (by simp [hrules])).mpr hrule, haction⟩
      intro r hr
      exact (hcovers r (by simp [hrules, hr])).not.mpr (hbefore r hr)
    · exact .inr ⟨fun r hr => (hcovers r hr).not.mpr (hnone r hr), hpolicy⟩

/-- Without port rules a datagram is filtered as its fragments are. -/
theorem fragments_decided_portless (hmtu : 28 ≤ mtu) (hlen : p.payload.length ≤ ipv4MaxPayloadLen)
    (hne : p.payload ≠ []) (hports : ∀ rule ∈ fw.inputRules,
      rule.srcPortRange = none ∧ rule.dstPortRange = none) :
    fw.evaluate p = .accept ↔ ∀ bytes ∈ fragmentsOf p mtu, Accepts fw bytes := by
  rw [evaluate_iff, fragments_accepted_iff hmtu hlen]
  constructor
  · intro hpass k _
    exact (passes_flowAt hports).mpr hpass
  · intro hall
    have hpos : 0 * maxPayloadOf mtu < p.payload.length := by
      rw [Nat.zero_mul]
      exact List.length_pos_iff.mpr hne
    exact (passes_flowAt hports).mp (hall 0 hpos)

/-- Only UDP is let in. -/
def udpOnly : Firewall := ⟨[{ protocol := some 17 }], .drop⟩

theorem fragments_decided_portless_udpOnly :
    udpOnly.evaluate longQuery = .accept ↔ ∀ bytes ∈ fragmentsOf longQuery 28,
      Accepts udpOnly bytes :=
  fragments_decided_portless (by decide) (by decide) (by decide) (by decide)

end ToyTcpip.Fragment
