import ToyTcpip.Ipv6Ext.Chain
import ToyTcpip.Ipv6Packet

/-! The guard of `lab.rs` before an ICMPv6 error, against the chain parser of `ipv6_ext.rs`. -/
namespace ToyTcpip.Lab

open Ipv6Ext
open Checked (index slice bind_eq_ok ite_error_eq_ok index_eq_ok)

/-- Where a walk stopped: its answer, the type it stopped at and what is left of the payload. -/
structure Stop where
  isError : Bool
  nextHeader : UInt8
  rest : List UInt8
  deriving DecidableEq, Repr

inductive Round where
  | answer (stop : Stop)
  | undetermined
  | next (nextHeader : UInt8) (rest : List UInt8)
  deriving DecidableEq, Repr

/-- One round of the loop. -/
def walkRound (nextHeader : UInt8) (payload : List UInt8) : Round :=
  if nextHeader = nextHeaderIcmpv6 then
    match payload with
    | [] => .undetermined
    | msgType :: _ => .answer ⟨msgType < 128, nextHeader, payload⟩
  else if nextHeader = ipv6ExtHopByHop ∨ nextHeader = ipv6ExtRouting ∨
      nextHeader = ipv6ExtDestOptions then
    if payload.length < 2 then .undetermined
    else if payload.length < ((byteAt payload 1).toNat + 1) * 8 then .undetermined
    else .next (byteAt payload 0) (payload.drop (((byteAt payload 1).toNat + 1) * 8))
  else if nextHeader = ipv6ExtFragment then
    if payload.length < 8 then .undetermined
    else if wordAt payload 2 / 8 ≠ 0 then
      if byteAt payload 0 ∈ [nextHeaderIcmpv6, ipv6ExtHopByHop, ipv6ExtRouting, ipv6ExtFragment,
          ipv6ExtDestOptions, ipv6ExtAh] then .undetermined
      else .answer ⟨false, byteAt payload 0, payload.drop 8⟩
    else .next (byteAt payload 0) (payload.drop 8)
  else if nextHeader = ipv6ExtAh then
    if payload.length < 2 then .undetermined
    else if payload.length < ((byteAt payload 1).toNat + 2) * 4 then .undetermined
    else .next (byteAt payload 0) (payload.drop (((byteAt payload 1).toNat + 2) * 4))
  else .answer ⟨false, nextHeader, payload⟩

/-- Every round takes at least eight bytes. -/
theorem length_of_next {nh nh' : UInt8} {payload rest : List UInt8}
    (h : walkRound nh payload = .next nh' rest) : rest.length + 8 ≤ payload.length := by
  unfold walkRound at h
  split_ifs at h
  · split at h <;> cases h
  all_goals
    cases h
    simp only [List.length_drop]
    omega

def walk (nextHeader : UInt8) (payload : List UInt8) : Option Stop :=
  match _h : walkRound nextHeader payload with
  | .answer stop => some stop
  | .undetermined => none
  | .next nh rest => walk nh rest
termination_by payload.length
decreasing_by
  have := length_of_next _h
  omega

/-- The loop cut off after so many rounds, `none` when it has not come to its end. -/
def walkWithin : ℕ → UInt8 → List UInt8 → Option (Option Stop)
  | 0, _, _ => none
  | rounds + 1, nextHeader, payload =>
    match walkRound nextHeader payload with
    | .answer stop => some (some stop)
    | .undetermined => some none
    | .next nh rest => walkWithin rounds nh rest

def invokingContainsIcmpv6Error (invoking : Ipv6Packet) : Option Bool :=
  (walk invoking.header.nextHeader invoking.payload).map Stop.isError

/-- Where the walk finds the upper-layer header of a packet that it answers for. -/
def upperLayerStart (invoking : Ipv6Packet) : Option ℕ :=
  (walk invoking.header.nextHeader invoking.payload).map fun stop =>
    invoking.payload.length - stop.rest.length

def shouldSendIcmpv6Error (invoking : Ipv6Packet) (linkDestination : MacAddress)
    (allowMulticastException : Bool) : Bool :=
  if invoking.header.srcIp.isUnspecified || invoking.header.srcIp.isMulticast then false
  else if invokingContainsIcmpv6Error invoking ≠ some false then false
  else allowMulticastException ||
    (!invoking.header.dstIp.isMulticast && linkDestination.isUnicast)

/-! ### The walk round by round -/

variable {nh nh' final : UInt8} {payload rest : List UInt8} {stop : Stop}

theorem walk_answer (h : walkRound nh payload = .answer stop) : walk nh payload = some stop := by
  rw [walk]
  split <;> simp_all

theorem walk_undetermined (h : walkRound nh payload = .undetermined) : walk nh payload = none := by
  rw [walk]
  split <;> simp_all

theorem walk_next (h : walkRound nh payload = .next nh' rest) :
    walk nh payload = walk nh' rest := by
  rw [walk]
  split <;> simp_all

theorem walkWithin_enough {rounds : ℕ} (h : payload.length / 8 < rounds) :
    walkWithin rounds nh payload = some (walk nh payload) := by
  induction rounds generalizing nh payload with
  | zero => omega
  | succ rounds ih =>
    rw [walkWithin]
    cases hround : walkRound nh payload with
    | answer stop => rw [walk_answer hround]
    | undetermined => rw [walk_undetermined hround]
    | next nh' rest =>
      have hshorter := length_of_next hround
      rw [walk_next hround]
      exact ih (by omega)

theorem walk_icmpv6 (h : walk nh payload = some stop) (hicmp : stop.nextHeader = nextHeaderIcmpv6) :
    ∃ msgType tail, stop.rest = msgType :: tail ∧ stop.isError = decide (msgType < 128) := by
  fun_induction walk nh payload with
  | case1 nh payload found hround =>
    obtain rfl := Option.some.inj h
    unfold walkRound at hround
    split_ifs at hround with hnh hopt hshort hlong hfrag hshort' hoff hlist
    · split at hround
      · cases hround
      · cases hround
        exact ⟨_, _, rfl, rfl⟩
    · obtain rfl := Round.answer.inj hround
      simp only at hicmp
      simp [hicmp] at hlist
    · obtain rfl := Round.answer.inj hround
      exact absurd hicmp hnh
  | case2 => cases h
  | case3 nh payload nh' rest hround ih => exact ih h

theorem length_of_walk (h : walk nh payload = some stop) : stop.rest.length ≤ payload.length := by
  fun_induction walk nh payload with
  | case1 nh payload found hround =>
    obtain rfl := Option.some.inj h
    unfold walkRound at hround
    split_ifs at hround
    · split at hround <;> cases hround
      exact le_rfl
    · cases hround
      exact (List.drop_sublist 8 payload).length_le
    · cases hround
      exact le_rfl
  | case2 => cases h
  | case3 nh payload nh' rest hround ih =>
    have hshorter := length_of_next hround
    have hrest := ih h
    omega

/-! ### The headers of a chain -/

/-- The bytes that a header of type `nh` takes. -/
def headerLen (nh : UInt8) (payload : List UInt8) : ℕ :=
  if nh = ipv6ExtFragment then 8
  else if nh = ipv6ExtAh then ((byteAt payload 1).toNat + 2) * 4
  else ((byteAt payload 1).toNat + 1) * 8

theorem headerLen_ge (nh : UInt8) (payload : List UInt8) : 8 ≤ headerLen nh payload := by
  unfold headerLen
  split_ifs <;> omega

/-- A fragment header of a fragment other than the first. -/
def LaterFragment (nh : UInt8) (payload : List UInt8) : Prop :=
  nh = ipv6ExtFragment ∧ wordAt payload 2 / 8 ≠ 0

/-- The headers from a type and a payload on lead to the upper-layer header. -/
inductive Chained : UInt8 → List UInt8 → UInt8 → List UInt8 → Prop where
  | done {nh : UInt8} {payload : List UInt8} (h : isExtensionHeader nh = false ∨
      nh = ipv6ExtNoNextHeader) :
      Chained nh payload nh payload
  | header {nh final : UInt8} {payload rest : List UInt8} (hext : isExtensionHeader nh = true)
      (hnext : nh ≠ ipv6ExtNoNextHeader) (hlen : headerLen nh payload ≤ payload.length)
      (h : Chained (byteAt payload 0) (payload.drop (headerLen nh payload)) final rest) :
      Chained nh payload final rest

/-- The chain has a Mobility header: before any fragment header that is not of the first fragment,
or named by such a fragment header. -/
inductive MobilityMet : UInt8 → List UInt8 → Prop where
  | here {payload : List UInt8} : MobilityMet ipv6ExtMobility payload
  | after {nh : UInt8} {payload : List UInt8}
      (hnh : nh ∈ [ipv6ExtHopByHop, ipv6ExtRouting, ipv6ExtDestOptions, ipv6ExtFragment, ipv6ExtAh])
      (hlen : headerLen nh payload ≤ payload.length) (hfirst : ¬ LaterFragment nh payload)
      (h : MobilityMet (byteAt payload 0) (payload.drop (headerLen nh payload))) :
      MobilityMet nh payload
  | named {payload : List UInt8} (hlen : 8 ≤ payload.length)
    (hlater : LaterFragment ipv6ExtFragment payload)
      (h : byteAt payload 0 = ipv6ExtMobility) : MobilityMet ipv6ExtFragment payload

theorem isExtensionHeader_cases (h : isExtensionHeader nh = true)
    (hnext : nh ≠ ipv6ExtNoNextHeader) :
    nh = ipv6ExtMobility ∨
      nh ∈ [ipv6ExtHopByHop, ipv6ExtRouting, ipv6ExtDestOptions, ipv6ExtFragment, ipv6ExtAh] := by
  simp only [isExtensionHeader, List.mem_cons, List.not_mem_nil, or_false, decide_eq_true_eq] at h
  simp only [List.mem_cons, List.not_mem_nil, or_false]
  tauto

/-- The parser and the walk take the same bytes for a header that both know. -/
theorem walkRound_header
    (hnh : nh ∈ [ipv6ExtHopByHop, ipv6ExtRouting, ipv6ExtDestOptions, ipv6ExtFragment, ipv6ExtAh])
    (hlen : headerLen nh payload ≤ payload.length) (hfirst : ¬ LaterFragment nh payload) :
    walkRound nh payload = .next (byteAt payload 0) (payload.drop (headerLen nh payload)) := by
  have hge := headerLen_ge nh payload
  unfold LaterFragment at hfirst
  unfold headerLen at hlen ⊢
  simp only [List.mem_cons, List.not_mem_nil, or_false] at hnh
  rcases hnh with rfl | rfl | rfl | rfl | rfl
  · rw [if_neg (by decide), if_neg (by decide)] at hlen ⊢
    unfold walkRound
    rw [if_neg (by decide), if_pos (by decide), if_neg (by omega), if_neg (by omega)]
  · rw [if_neg (by decide), if_neg (by decide)] at hlen ⊢
    unfold walkRound
    rw [if_neg (by decide), if_pos (by decide), if_neg (by omega), if_neg (by omega)]
  · rw [if_neg (by decide), if_neg (by decide)] at hlen ⊢
    unfold walkRound
    rw [if_neg (by decide), if_pos (by decide), if_neg (by omega), if_neg (by omega)]
  · rw [if_pos rfl] at hlen ⊢
    unfold walkRound
    rw [if_neg (by decide), if_neg (by decide), if_pos rfl, if_neg (by omega),
      if_neg fun h => hfirst ⟨rfl, h⟩]
  · rw [if_neg (by decide), if_pos rfl] at hlen ⊢
    unfold walkRound
    rw [if_neg (by decide), if_neg (by decide), if_neg (by decide), if_pos rfl,
      if_neg (by omega), if_neg (by omega)]

theorem Chained.length_le (h : Chained nh payload final rest) : rest.length ≤ payload.length := by
  induction h with
  | done => exact le_rfl
  | header hext hnext hlen h ih =>
    rw [List.length_drop] at ih
    omega

theorem Chained.of_not_extension (h : Chained nh payload final rest)
    (hnh : isExtensionHeader nh = false ∨ nh = ipv6ExtNoNextHeader) :
    nh = final ∧ payload = rest := by
  cases h with
  | done => exact ⟨rfl, rfl⟩
  | header hext hnext =>
    rcases hnh with hnot | heq
    · simp [hext] at hnot
    · exact absurd heq hnext

/-- The parser goes on behind a Mobility header. -/
theorem Chained.past_mobility (h : Chained ipv6ExtMobility payload final rest) :
    rest.length < payload.length := by
  cases h with
  | done h => simp [isExtensionHeader, ipv6ExtMobility, ipv6ExtNoNextHeader] at h
  | header hext hnext hlen h =>
    have hle := h.length_le
    have hge := headerLen_ge ipv6ExtMobility payload
    rw [List.length_drop] at hle
    omega

theorem walkRound_mobility (payload : List UInt8) :
    walkRound ipv6ExtMobility payload = .answer ⟨false, ipv6ExtMobility, payload⟩ := by
  simp [walkRound, ipv6ExtMobility, nextHeaderIcmpv6, ipv6ExtHopByHop, ipv6ExtRouting,
    ipv6ExtDestOptions, ipv6ExtFragment, ipv6ExtAh]

/-- The walk takes a Mobility header for the upper-layer header. -/
theorem walk_of_mobility (h : Chained nh payload final rest) (hmet : MobilityMet nh payload) :
    ∃ stop, walk nh payload = some stop ∧ rest.length < stop.rest.length := by
  induction h with
  | done hnh =>
    cases hmet with
    | here => simp [isExtensionHeader, ipv6ExtMobility, ipv6ExtNoNextHeader] at hnh
    | after hknown =>
      simp only [List.mem_cons, List.not_mem_nil, or_false] at hknown
      rcases hknown with rfl | rfl | rfl | rfl | rfl <;> exact absurd hnh (by decide)
    | named => exact absurd hnh (by decide)
  | @header nh final payload rest hext hnext hlen h ih =>
    cases hmet with
    | here =>
      exact ⟨_, walk_answer (walkRound_mobility _),
        (Chained.header hext hnext hlen h).past_mobility⟩
    | after hknown _ hfirst hrest =>
      rw [walk_next (walkRound_header hknown hlen hfirst)]
      exact ih hrest
    | named hlong hlater hnamed =>
      refine ⟨⟨false, ipv6ExtMobility, payload.drop 8⟩, walk_answer ?_, ?_⟩
      · unfold walkRound
        rw [if_neg (by decide), if_neg (by decide), if_pos rfl, if_neg (by omega), if_pos hlater.2,
          hnamed, if_neg (by decide)]
      · rw [hnamed] at h
        exact h.past_mobility

/-- Otherwise a walk that answers stops where the parser does. -/
theorem walk_of_chained (h : Chained nh payload final rest) (hmet : ¬ MobilityMet nh payload)
    (hstop : walk nh payload = some stop) : stop.nextHeader = final ∧ stop.rest = rest := by
  induction h with
  | @done nh payload hnh =>
    have hknown : ∀ t, t ∈ [ipv6ExtHopByHop, ipv6ExtRouting, ipv6ExtDestOptions, ipv6ExtFragment,
        ipv6ExtAh] → nh ≠ t := by
      rintro t ht rfl
      simp only [List.mem_cons, List.not_mem_nil, or_false] at ht
      rcases ht with rfl | rfl | rfl | rfl | rfl <;> exact absurd hnh (by decide)
    have hnot : ¬ (nh = ipv6ExtHopByHop ∨ nh = ipv6ExtRouting ∨ nh = ipv6ExtDestOptions) := by
      rintro (h | h | h) <;> exact hknown _ (by decide) h
    by_cases hicmp : nh = nextHeaderIcmpv6
    · cases payload with
      | nil =>
        rw [walk_undetermined (by unfold walkRound; rw [if_pos hicmp])] at hstop
        cases hstop
      | cons t tail =>
        rw [walk_answer (by unfold walkRound; rw [if_pos hicmp])] at hstop
        cases hstop
        exact ⟨rfl, rfl⟩
    · have hround : walkRound nh payload = .answer ⟨false, nh, payload⟩ := by
        unfold walkRound
        rw [if_neg hicmp, if_neg hnot, if_neg (hknown _ (by decide)), if_neg (hknown _ (by decide))]
      rw [walk_answer hround] at hstop
      cases hstop
      exact ⟨rfl, rfl⟩
  | @header nh final payload rest hext hnext hlen h ih =>
    rcases isExtensionHeader_cases hext hnext with rfl | hknown
    · exact absurd .here hmet
    · by_cases hfirst : LaterFragment nh payload
      · obtain ⟨rfl, hoff⟩ := hfirst
        have hlong : 8 ≤ payload.length := hlen
        by_cases hnext' : byteAt payload 0 ∈ [nextHeaderIcmpv6, ipv6ExtHopByHop, ipv6ExtRouting,
            ipv6ExtFragment, ipv6ExtDestOptions, ipv6ExtAh]
        · have hround : walkRound ipv6ExtFragment payload = .undetermined := by
            unfold walkRound
            rw [if_neg (by decide), if_neg (by decide), if_pos rfl, if_neg (by omega), if_pos hoff,
              if_pos hnext']
          rw [walk_undetermined hround] at hstop
          cases hstop
        · have hround : walkRound ipv6ExtFragment payload =
              .answer ⟨false, byteAt payload 0, payload.drop 8⟩ := by
            unfold walkRound
            rw [if_neg (by decide), if_neg (by decide), if_pos rfl, if_neg (by omega), if_pos hoff,
              if_neg hnext']
          rw [walk_answer hround] at hstop
          cases hstop
          -- What the fragment names is no header that the parser would go on with.
          refine h.of_not_extension ?_
          by_contra hgoes
          rw [not_or, Bool.not_eq_false] at hgoes
          rcases isExtensionHeader_cases hgoes.1 hgoes.2 with hmob | hin
          · exact hmet (.named hlong ⟨rfl, hoff⟩ hmob)
          · simp only [List.mem_cons, List.not_mem_nil, or_false] at hin hnext'
            tauto
      · rw [walk_next (walkRound_header hknown hlen hfirst)] at hstop
        exact ih (fun hrest => hmet (.after hknown hlen hfirst hrest)) hstop

/-! ### The chain that the parser accepts -/

theorem headerLen_of_parseHeader {data : List UInt8} {offset len : ℕ} {header : Ipv6ExtensionHeader}
    (h : parseHeader data nh offset = .ok (header, len)) :
    len = headerLen nh (data.drop offset) ∧ offset + len ≤ data.length := by
  have hsecond : byteAt (data.drop offset) 1 = byteAt data (offset + 1) := by
    simp [byteAt, List.getD_eq_getElem?_getD]
  unfold parseHeader at h
  unfold headerLen
  by_cases hfrag : nh = ipv6ExtFragment
  · rw [if_pos hfrag, ite_error_eq_ok] at h
    obtain ⟨hlong, h⟩ := h
    obtain ⟨offMf, -, h⟩ := bind_eq_ok.mp h
    obtain ⟨identification, -, h⟩ := bind_eq_ok.mp h
    cases h
    exact ⟨(if_pos hfrag).symm, by omega⟩
  · rw [if_neg hfrag, ite_error_eq_ok] at h
    obtain ⟨hlong, h⟩ := h
    obtain ⟨hdrExtLen, hidx, h⟩ := bind_eq_ok.mp h
    have hbyte : byteAt (data.drop offset) 1 = hdrExtLen := by
      rw [hsecond, byteAt, List.getD_eq_getElem?_getD, index_eq_ok.mp hidx, Option.getD_some]
    rw [ite_error_eq_ok] at h
    obtain ⟨hfits, h⟩ := h
    obtain ⟨extPayload, -, h⟩ := bind_eq_ok.mp h
    obtain ⟨read, -, h⟩ := bind_eq_ok.mp h
    cases h
    rw [if_neg hfrag, hbyte]
    exact ⟨rfl, by omega⟩

theorem chained_of_parseFrom {data : List UInt8} {chain : Ipv6ExtensionChain} {off : ℕ}
    (headers : List Ipv6ExtensionHeader) (nh : UInt8) (offset : ℕ)
    (h : parseFrom data headers nh offset = .ok (chain, off)) (hle : offset ≤ data.length) :
    Chained nh (data.drop offset) chain.finalNextHeader (data.drop off) ∧ off ≤ data.length := by
  rw [parseFrom] at h
  split at h
  · rename_i hext
    rw [ite_error_eq_ok, ite_error_eq_ok] at h
    obtain ⟨-, hroom, h⟩ := h
    split at h
    · rename_i hnone
      cases h
      subst hnone
      exact ⟨.done (.inr rfl), hle⟩
    · rename_i hnext
      rw [ite_error_eq_ok] at h
      obtain ⟨hin, h⟩ := h
      obtain ⟨nextNh, hidx, h⟩ := bind_eq_ok.mp h
      obtain ⟨⟨header, len⟩, hheader, h⟩ := bind_eq_ok.mp h
      obtain ⟨hlen, hfits⟩ := headerLen_of_parseHeader hheader
      have hfirst : byteAt (data.drop offset) 0 = nextNh := by
        rw [byteAt, List.getD_eq_getElem?_getD, List.getElem?_drop, Nat.add_zero,
          index_eq_ok.mp hidx, Option.getD_some]
      obtain ⟨hrest, hoff⟩ := chained_of_parseFrom (headers ++ [header]) nextNh
        (offset + len) h hfits
      refine ⟨.header hext hnext (by rw [← hlen, List.length_drop]; omega) ?_, hoff⟩
      rw [hfirst, ← hlen, List.drop_drop]
      exact hrest
  · rename_i hext
    cases h
    exact ⟨.done (.inl (by simpa using hext)), hle⟩
termination_by maxExtensionHeaders - headers.length
decreasing_by
  simp only [List.length_append, List.length_cons, List.length_nil]
  omega

/-! ### The guard -/

variable {invoking : Ipv6Packet} {chain : Ipv6ExtensionChain} {off : ℕ}

/-- The chain ends in an ICMPv6 error message. -/
def EndsInError (invoking : Ipv6Packet) (chain : Ipv6ExtensionChain) (off : ℕ) : Prop :=
  chain.finalNextHeader = nextHeaderIcmpv6 ∧
    ∃ msgType, invoking.payload[off]? = some msgType ∧ msgType < 128

/-- No answer that lets an error through, and hence no error. -/
def Suppressed (invoking : Ipv6Packet) : Prop :=
  invokingContainsIcmpv6Error invoking ≠ some false ∧
    ∀ linkDestination allow, shouldSendIcmpv6Error invoking linkDestination allow = false

theorem suppressed_of_ne (h : invokingContainsIcmpv6Error invoking ≠ some false) :
    Suppressed invoking := by
  refine ⟨h, fun linkDestination allow => ?_⟩
  unfold shouldSendIcmpv6Error
  rw [if_pos h, ite_self]

theorem suppressed_of_no_mobility
    (hchain : Chained invoking.header.nextHeader invoking.payload chain.finalNextHeader
      (invoking.payload.drop off))
    (hmet : ¬ MobilityMet invoking.header.nextHeader invoking.payload)
    (herror : EndsInError invoking chain off) : Suppressed invoking := by
  obtain ⟨hfinal, msgType, hget, hlt⟩ := herror
  refine suppressed_of_ne fun hanswer => ?_
  obtain ⟨stop, hstop, hfalse⟩ := Option.map_eq_some_iff.mp hanswer
  obtain ⟨hnext, hrest⟩ := walk_of_chained hchain hmet hstop
  obtain ⟨first, tail, hfirst, hiserror⟩ := walk_icmpv6 hstop (hnext.trans hfinal)
  have hhead : (invoking.payload.drop off).head? = some msgType := by rw [List.head?_drop, hget]
  rw [← hrest, hfirst, List.head?_cons, Option.some.injEq] at hhead
  rw [hiserror, hhead] at hfalse
  simp [hlt] at hfalse

/-- For a packet that the parser accepts: an error message is never answered and the two walks find
the upper-layer header at one place exactly if the walk of the guard does not meet a Mobility
header, which it does not know. Both come to their end on every input. -/
theorem errors_unanswered_iff
    (h : Ipv6ExtensionChain.parse invoking.header.nextHeader invoking.payload = .ok (chain, off)) :
    ((EndsInError invoking chain off → Suppressed invoking) ∧
      (∀ start, upperLayerStart invoking = some start → start = off) ∧
      ∀ nh payload, walkWithin (payload.length / 8 + 1) nh payload = some (walk nh payload)) ↔
    ¬ MobilityMet invoking.header.nextHeader invoking.payload := by
  obtain ⟨hchain, hoff⟩ := chained_of_parseFrom [] _ 0 h (Nat.zero_le _)
  rw [List.drop_zero] at hchain
  constructor
  · rintro ⟨-, hstart, -⟩ hmet
    obtain ⟨stop, hstop, hshort⟩ := walk_of_mobility hchain hmet
    have heq := hstart (invoking.payload.length - stop.rest.length)
      (by simp [upperLayerStart, hstop])
    have hle := length_of_walk hstop
    rw [List.length_drop] at hshort
    omega
  · intro hmet
    refine ⟨suppressed_of_no_mobility hchain hmet, fun start hstart => ?_, fun nh payload =>
      walkWithin_enough (by omega)⟩
    obtain ⟨stop, hstop, rfl⟩ := Option.map_eq_some_iff.mp hstart
    rw [(walk_of_chained hchain hmet hstop).2, List.length_drop]
    omega

/-- A packet from `2001:db8::1` to `2001:db8::2`. -/
def probePacket (nextHeader : UInt8) (payload : List UInt8) : Ipv6Packet :=
  ⟨⟨payload.length, nextHeader, 64,
    ⟨#v[0x20, 0x01, 0x0d, 0xb8, 0, 0, 0, 0, 0, 0, 0, 0, 0, 0, 0, 1]⟩,
    ⟨#v[0x20, 0x01, 0x0d, 0xb8, 0, 0, 0, 0, 0, 0, 0, 0, 0, 0, 0, 2]⟩⟩, payload⟩

/-- Destination Unreachable. -/
def unreachable : List UInt8 := [1, 0, 0, 0, 0, 0, 0, 0]

theorem parse_unreachable : Ipv6ExtensionChain.parse nextHeaderIcmpv6 unreachable =
    .ok (⟨[], nextHeaderIcmpv6⟩, 0) := by
  unfold Ipv6ExtensionChain.parse
  rw [parseFrom, if_neg (by decide)]

theorem errors_unanswered_iff_unreachable :
    (EndsInError (probePacket nextHeaderIcmpv6 unreachable) ⟨[], nextHeaderIcmpv6⟩ 0 →
      Suppressed (probePacket nextHeaderIcmpv6 unreachable)) ∧
      (∀ start, upperLayerStart (probePacket nextHeaderIcmpv6 unreachable) = some start →
        start = 0) ∧
      ∀ nh payload, walkWithin (payload.length / 8 + 1) nh payload = some (walk nh payload) := by
  refine (@errors_unanswered_iff (probePacket nextHeaderIcmpv6 unreachable) _ _
    parse_unreachable).mpr ?_
  intro hmet
  change MobilityMet nextHeaderIcmpv6 _ at hmet
  generalize hnh : nextHeaderIcmpv6 = nh at hmet
  cases hmet with
  | here => exact absurd hnh (by decide)
  | after hknown => exact absurd hknown (by rw [← hnh]; decide)
  | named => exact absurd hnh (by decide)

/-- The same error behind a Mobility header. -/
def hidden : List UInt8 := [nextHeaderIcmpv6, 0, 0, 0, 0, 0, 0, 0] ++ unreachable

theorem parse_hidden : Ipv6ExtensionChain.parse ipv6ExtMobility hidden =
    .ok (⟨[.unknown ipv6ExtMobility [0, 0, 0, 0, 0, 0]], nextHeaderIcmpv6⟩, 8) := by
  have hnext : (index hidden 0 : Parsed UInt8) = .ok nextHeaderIcmpv6 := rfl
  have hheader : parseHeader hidden ipv6ExtMobility 0 =
      .ok (.unknown ipv6ExtMobility [0, 0, 0, 0, 0, 0], 8) := by decide +kernel
  unfold Ipv6ExtensionChain.parse
  rw [parseFrom, if_pos (by decide), if_neg (by decide), if_neg (by decide), if_neg (by decide),
    if_neg (by decide), hnext, Checked.ok_bind, hheader, Checked.ok_bind, parseFrom,
    if_neg (by decide)]
  rfl

/-- A router answers an error message behind a Mobility header with an error. -/
theorem hidden_error_answered :
    Ipv6ExtensionChain.parse (probePacket ipv6ExtMobility hidden).header.nextHeader
        (probePacket ipv6ExtMobility hidden).payload =
      .ok (⟨[.unknown ipv6ExtMobility [0, 0, 0, 0, 0, 0]], nextHeaderIcmpv6⟩, 8) ∧
    EndsInError (probePacket ipv6ExtMobility hidden)
      ⟨[.unknown ipv6ExtMobility [0, 0, 0, 0, 0, 0]], nextHeaderIcmpv6⟩ 8 ∧
    invokingContainsIcmpv6Error (probePacket ipv6ExtMobility hidden) = some false ∧
    shouldSendIcmpv6Error (probePacket ipv6ExtMobility hidden) ⟨#v[2, 0, 0, 0, 0, 1]⟩ false = true ∧
    upperLayerStart (probePacket ipv6ExtMobility hidden) = some 0 := by
  have hwalk : walk (probePacket ipv6ExtMobility hidden).header.nextHeader
      (probePacket ipv6ExtMobility hidden).payload = some ⟨false, ipv6ExtMobility, hidden⟩ :=
    walk_answer (walkRound_mobility hidden)
  have hanswer : invokingContainsIcmpv6Error (probePacket ipv6ExtMobility hidden) = some false := by
    rw [invokingContainsIcmpv6Error, hwalk, Option.map_some]
  refine ⟨parse_hidden, ⟨rfl, 1, rfl, by decide⟩, hanswer, ?_, ?_⟩
  · rw [shouldSendIcmpv6Error, hanswer]
    decide
  · rw [upperLayerStart, hwalk]
    decide

end ToyTcpip.Lab
