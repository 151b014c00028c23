import ToyTcpip.Ipv6Ext.Options

/-! Extension chains, written and read back. -/
namespace ToyTcpip.Ipv6Ext

open Checked (index slice Safe bind_of_eq_ok bind_eq_ok ite_error_eq_ok)

namespace Ipv6ExtensionHeader

/-- The options of a header that has them. -/
def options : Ipv6ExtensionHeader → List Ipv6Option
  | .hopByHop options | .destinationOptions options => options
  | _ => []

/-- The header read back is the one written, with padding after its options or its data. -/
inductive Padded : Ipv6ExtensionHeader → Ipv6ExtensionHeader → Prop
  | hopByHop (options pad) : (∀ p ∈ pad, Ipv6Option.IsPad p) →
      Padded (.hopByHop options) (.hopByHop (options ++ pad))
  | routing (routingType segmentsLeft data n) : Padded (.routing routingType segmentsLeft data)
      (.routing routingType segmentsLeft (data ++ List.replicate n 0))
  | fragment (off more ident) : Padded (.fragment off more ident) (.fragment off more ident)
  | destinationOptions (options pad) : (∀ p ∈ pad, Ipv6Option.IsPad p) →
      Padded (.destinationOptions options) (.destinationOptions (options ++ pad))
  | authenticationHeader (spi seq icv n) : Padded (.authenticationHeader spi seq icv)
      (.authenticationHeader spi seq (icv ++ List.replicate n 0))
  | unknown (nextHeaderType data n) :
      Padded (.unknown nextHeaderType data) (.unknown nextHeaderType (data ++ List.replicate n 0))

/-- What survives the wire: no option or header under a foreign type, a fragment offset of thirteen
bits, an ICV of whole words that the length byte can count, and an unknown header of whole
octets. -/
def Canonical : Ipv6ExtensionHeader → Prop
  | .hopByHop options | .destinationOptions options => ∀ opt ∈ options, opt.Canonical
  | .routing .. => True
  | .fragment off _ _ => off.toNat < 8192
  | .authenticationHeader _ _ icv => icv.length % 4 = 0 ∧ icv.length ≤ 1016
  | .unknown nextHeaderType data =>
    (nextHeaderType = ipv6ExtMobility ∧ data.length % 8 = 6) ∨
      (nextHeaderType = ipv6ExtAh ∧ data.length = 6)

instance : ∀ h : Ipv6ExtensionHeader, Decidable h.Canonical
  | .hopByHop _ | .destinationOptions _ => inferInstanceAs (Decidable (∀ _ ∈ _, _))
  | .routing .. => isTrue trivial
  | .fragment .. => inferInstanceAs (Decidable (_ < _))
  | .authenticationHeader .. => inferInstanceAs (Decidable (_ ∧ _))
  | .unknown .. => inferInstanceAs (Decidable (_ ∨ _))

/-- The bytes a header was read from. -/
def contentLength : Ipv6ExtensionHeader → ℕ
  | .hopByHop options | .destinationOptions options =>
    2 + (options.flatMap Ipv6Option.serialize).length
  | .routing _ _ data => 4 + data.length
  | .fragment .. => 8
  | .authenticationHeader _ _ icv => 12 + icv.length
  | .unknown _ data => 2 + data.length

/-- The unit in which the length of a header counts. -/
def unit : Ipv6ExtensionHeader → ℕ
  | .authenticationHeader .. => 4
  | _ => 8

end Ipv6ExtensionHeader

open Ipv6ExtensionHeader

variable {h h' : Ipv6ExtensionHeader} {nh : UInt8} {offset : ℕ} {data : List UInt8}

/-! ### What the parser can return -/

theorem readPayload_eq_ok {extPayload : List UInt8} (hnh : isExtensionHeader nh = true)
    (hne : nh ≠ ipv6ExtNoNextHeader) (hfrag : nh ≠ ipv6ExtFragment)
    (halign : (2 + extPayload.length) % (if nh = ipv6ExtAh then 4 else 8) = 0)
    (hmin : 6 ≤ extPayload.length) (hmax : nh = ipv6ExtAh → extPayload.length ≤ 1026)
    (hread : readPayload nh extPayload = .ok h') :
    h'.Canonical ∧ h'.contentLength = 2 + extPayload.length ∧ h'.contentLength % h'.unit = 0 := by
  unfold readPayload at hread
  split_ifs at hread with h₁ h₂ h₃ h₄
  · obtain ⟨options, hopts, hread⟩ := bind_eq_ok.mp hread
    cases hread
    obtain ⟨hcan, hser⟩ := parseAll_eq_ok hopts
    subst h₁
    exact ⟨hcan, by rw [contentLength, hser], by rw [contentLength, hser]; exact halign⟩
  · obtain ⟨options, hopts, hread⟩ := bind_eq_ok.mp hread
    cases hread
    obtain ⟨hcan, hser⟩ := parseAll_eq_ok hopts
    subst h₂
    exact ⟨hcan, by rw [contentLength, hser], by rw [contentLength, hser]; exact halign⟩
  · obtain ⟨rfl, h₃⟩ := h₃
    obtain ⟨_, -, hread⟩ := bind_eq_ok.mp hread
    obtain ⟨_, -, hread⟩ := bind_eq_ok.mp hread
    obtain ⟨data, hslice, hread⟩ := bind_eq_ok.mp hread
    cases hread
    have hlen := Checked.length_of_slice hslice
    have hcount : 4 + data.length = 2 + extPayload.length := by omega
    exact ⟨trivial, hcount, by rw [contentLength, hcount]; exact halign⟩
  · obtain ⟨rfl, h₄⟩ := h₄
    obtain ⟨_, -, hread⟩ := bind_eq_ok.mp hread
    obtain ⟨_, -, hread⟩ := bind_eq_ok.mp hread
    obtain ⟨icv, hslice, hread⟩ := bind_eq_ok.mp hread
    cases hread
    have hlen := Checked.length_of_slice hslice
    have hcount : 12 + icv.length = 2 + extPayload.length := by omega
    have hmax := hmax rfl
    rw [if_pos rfl] at halign
    exact ⟨⟨by omega, by omega⟩, hcount, by rw [contentLength, hcount]; exact halign⟩
  · cases hread
    simp only [isExtensionHeader, List.mem_cons, List.not_mem_nil, or_false,
      decide_eq_true_eq] at hnh
    have hkind : nh = ipv6ExtMobility ∨ nh = ipv6ExtAh := by
      rcases hnh with h | h | h | h | h | h | h
      · exact absurd h h₁
      · exact absurd ⟨h, by omega⟩ h₃
      · exact absurd h hfrag
      · exact .inr h
      · exact absurd h h₂
      · exact .inl h
      · exact absurd h hne
    rcases hkind with rfl | rfl
    · rw [if_neg (by decide)] at halign
      exact ⟨.inl ⟨rfl, by omega⟩, rfl, halign⟩
    · have hsix : extPayload.length = 6 := by
        rw [if_pos rfl] at halign
        have : ¬ 10 ≤ extPayload.length := fun h => h₄ ⟨rfl, h⟩
        omega
      exact ⟨.inr ⟨rfl, hsix⟩, rfl, by simp [contentLength, unit, hsix]⟩

theorem parseHeader_eq_ok {len : ℕ} (hnh : isExtensionHeader nh = true)
    (hne : nh ≠ ipv6ExtNoNextHeader) (hparse : parseHeader data nh offset = .ok (h', len)) :
    h'.Canonical ∧ len = h'.contentLength ∧ h'.contentLength % h'.unit = 0 := by
  unfold parseHeader at hparse
  split at hparse
  · obtain ⟨-, hparse⟩ := ite_error_eq_ok.mp hparse
    obtain ⟨offMf, -, hparse⟩ := bind_eq_ok.mp hparse
    obtain ⟨ident, -, hparse⟩ := bind_eq_ok.mp hparse
    cases hparse
    refine ⟨?_, rfl, by simp [contentLength, unit]⟩
    have := offMf.isLt
    simp [Canonical, BitVec.toNat_ushiftRight, Nat.shiftRight_eq_div_pow]
    omega
  · rename_i hfrag
    obtain ⟨-, hparse⟩ := ite_error_eq_ok.mp hparse
    obtain ⟨hdrExtLen, -, hparse⟩ := bind_eq_ok.mp hparse
    dsimp only at hparse
    obtain ⟨-, hparse⟩ := ite_error_eq_ok.mp hparse
    obtain ⟨extPayload, hslice, hparse⟩ := bind_eq_ok.mp hparse
    obtain ⟨header, hread, hparse⟩ := bind_eq_ok.mp hparse
    cases hparse
    have hlen := Checked.length_of_slice hslice
    have hbyte := hdrExtLen.toNat_lt
    by_cases hah : nh = ipv6ExtAh
    · simp only [hah, if_true] at hlen ⊢
      have hcount : 2 + extPayload.length = (hdrExtLen.toNat + 2) * 4 := by omega
      have := readPayload_eq_ok hnh hne hfrag (by rw [if_pos hah]; omega) (by omega)
        (fun _ => by omega) hread
      exact ⟨this.1, by rw [this.2.1, hcount], this.2.2⟩
    · simp only [hah, if_false] at hlen ⊢
      have hcount : 2 + extPayload.length = (hdrExtLen.toNat + 1) * 8 := by omega
      have := readPayload_eq_ok hnh hne hfrag (by rw [if_neg hah]; omega) (by omega)
        (fun h => absurd h hah) hread
      exact ⟨this.1, by rw [this.2.1, hcount], this.2.2⟩

/-- The loop adds canonical headers, and its end is as far on as they are long. -/
theorem parseFrom_eq_ok {headers : List Ipv6ExtensionHeader} {nh : UInt8} {offset n : ℕ}
    {chain : Ipv6ExtensionChain}
    (hparse : parseFrom data headers nh offset = .ok (chain, n)) :
    (chain.headers.length = maxExtensionHeaders → chain.finalNextHeader ≠ ipv6ExtNoNextHeader) ∧
    ∃ tail, chain.headers = headers ++ tail ∧
      (∀ h ∈ tail, h.Canonical ∧ h.contentLength % h.unit = 0) ∧
      n = offset + (tail.map contentLength).sum := by
  rw [parseFrom] at hparse
  split at hparse
  · rename_i hnh
    obtain ⟨-, hparse⟩ := ite_error_eq_ok.mp hparse
    obtain ⟨hroom, hparse⟩ := ite_error_eq_ok.mp hparse
    split at hparse
    · cases hparse
      exact ⟨fun hfull => absurd hfull.ge hroom, [], by simp, by simp, by simp⟩
    · rename_i hne
      obtain ⟨-, hparse⟩ := ite_error_eq_ok.mp hparse
      obtain ⟨nextNh, -, hparse⟩ := bind_eq_ok.mp hparse
      obtain ⟨⟨header, len⟩, hheader, hparse⟩ := bind_eq_ok.mp hparse
      obtain ⟨hcan, rfl, halign⟩ := parseHeader_eq_ok hnh hne hheader
      obtain ⟨hlast, tail, htail, hall, hn⟩ := parseFrom_eq_ok hparse
      refine ⟨hlast, header :: tail, ?_, List.forall_mem_cons.mpr ⟨⟨hcan, halign⟩, hall⟩, ?_⟩
      · simpa using htail
      · rw [hn]
        simp
        omega
  · rename_i hnh
    cases hparse
    refine ⟨fun _ hlast => hnh ?_, [], by simp, by simp, by simp⟩
    change nh = ipv6ExtNoNextHeader at hlast
    subst hlast
    rfl
termination_by maxExtensionHeaders - headers.length
decreasing_by
  simp only [List.length_append, List.length_cons, List.length_nil]
  omega

/-! ### What the serializer writes -/

theorem length_serialize (h : Ipv6ExtensionHeader) (next : UInt8) :
    (h.serialize next).length = 2 + h.serializeBody.1.length := by
  simp [serialize]
  omega

theorem length_serializeHeaders (final : UInt8) (headers : List Ipv6ExtensionHeader) :
    (serializeHeaders final headers).length =
      (headers.map fun h => 2 + h.serializeBody.1.length).sum := by
  induction headers with
  | nil => rfl
  | cons h rest ih => simp [serializeHeaders, ih, length_serialize]

/-- A header read back with padding takes at least the bytes that were written for it, and no more
only if it is canonical. -/
theorem Ipv6ExtensionHeader.Padded.length_le (hpad : Padded h h') (hcan : h'.Canonical)
    (halign : h'.contentLength % h'.unit = 0) :
    2 + h.serializeBody.1.length ≤ h'.contentLength ∧
      (2 + h.serializeBody.1.length = h'.contentLength → h.Canonical) := by
  cases hpad with
  | hopByHop options pad _ | destinationOptions options pad _ =>
    have hlen := length_padOptions (options.flatMap Ipv6Option.serialize)
    simp only [contentLength, unit, List.flatMap_append, List.length_append] at halign
    simp only [serializeBody, contentLength, List.flatMap_append, List.length_append]
    exact ⟨by omega, fun _ opt hopt => hcan opt (List.mem_append_left _ hopt)⟩
  | routing t l d n =>
    simp only [contentLength, unit, List.length_append, List.length_replicate] at halign
    simp only [serializeBody, contentLength, List.length_append, List.length_replicate,
      List.length_cons]
    exact ⟨by omega, fun _ => trivial⟩
  | fragment off more ident => exact ⟨le_rfl, fun _ => hcan⟩
  | authenticationHeader spi seq icv n =>
    simp only [Canonical, List.length_append, List.length_replicate] at hcan
    simp only [serializeBody, contentLength, toBeBytes32, List.length_append, List.length_cons,
      List.length_nil, List.length_replicate, Canonical]
    omega
  | unknown t d n =>
    simp only [Canonical, List.length_append, List.length_replicate] at hcan
    simp only [serializeBody, contentLength, List.length_append, List.length_replicate, Canonical]
    refine ⟨by omega, fun heq => ?_⟩
    obtain rfl : n = 0 := by omega
    exact hcan

/-- Headers read back with padding from as many bytes as were written are canonical. -/
theorem canonical_of_padded {headers headers' : List Ipv6ExtensionHeader}
    (hpad : List.Forall₂ Padded headers headers')
    (hcan : ∀ h ∈ headers', h.Canonical ∧ h.contentLength % h.unit = 0) :
    (headers.map fun h => 2 + h.serializeBody.1.length).sum ≤ (headers'.map contentLength).sum ∧
      ((headers.map fun h => 2 + h.serializeBody.1.length).sum = (headers'.map contentLength).sum →
        ∀ h ∈ headers, h.Canonical) := by
  induction hpad with
  | nil => simp
  | cons hfirst _ ih =>
    obtain ⟨⟨hc, ha⟩, hcan⟩ := List.forall_mem_cons.mp hcan
    obtain ⟨hle, heq⟩ := hfirst.length_le hc ha
    obtain ⟨ihle, iheq⟩ := ih hcan
    simp only [List.map_cons, List.sum_cons]
    refine ⟨by omega, fun hsum => List.forall_mem_cons.mpr ⟨heq (by omega), iheq (by omega)⟩⟩

/-! ### Reading what was written -/

theorem parseHeader_at {lenByte : UInt8} {body : List UInt8} (pre post : List UInt8) (next : UInt8)
    (hfrag : nh ≠ ipv6ExtFragment)
    (htotal : (if nh = ipv6ExtAh then (lenByte.toNat + 2) * 4 else (lenByte.toNat + 1) * 8) =
      2 + body.length)
    (hread : readPayload nh body = .ok h') :
    parseHeader (pre ++ (next :: lenByte :: (body ++ post))) nh pre.length =
      .ok (h', 2 + body.length) := by
  have hlen : (pre ++ (next :: lenByte :: (body ++ post))).length =
      pre.length + 2 + body.length + post.length := by
    simp
    omega
  have hbyte : (index (pre ++ (next :: lenByte :: (body ++ post)))
      (pre.length + 1) : Parsed UInt8) =
      .ok lenByte := Checked.index_append_right pre _ 1
  have hslice := Checked.slice_middle (ε := Ipv6ExtError) (pre ++ [next, lenByte]) body post
  simp only [List.append_assoc, List.length_append, List.cons_append, List.nil_append,
    List.length_cons, List.length_nil, Nat.zero_add, Nat.reduceAdd] at hslice
  rw [parseHeader, if_neg hfrag, if_neg (by omega), hbyte, Checked.ok_bind]
  simp only [htotal]
  rw [if_neg (by omega), ← Nat.add_assoc, hslice, Checked.ok_bind, hread, Checked.ok_bind]

/-- The length byte of a body of whole octets. -/
theorem hdrExtLenOf_spec {body : List UInt8} (hmod : (2 + body.length) % 8 = 0)
    (hmax : 2 + body.length ≤ 2048) : ((hdrExtLenOf body).toNat + 1) * 8 = 2 + body.length := by
  rw [hdrExtLenOf, UInt8.toNat_ofNat']
  omega

theorem readPayload_routing (routingType segmentsLeft : UInt8) (data : List UInt8) :
    readPayload ipv6ExtRouting (routingType :: segmentsLeft :: data) =
      .ok (.routing routingType segmentsLeft data) := by
  have hslice : (slice (routingType :: segmentsLeft :: data) 2
      (routingType :: segmentsLeft :: data).length : Parsed _) = .ok data := by
    rw [Checked.slice_eq_ok (by simp) le_rfl, List.take_length]
    rfl
  rw [readPayload, if_neg (by decide), if_neg (by decide), if_pos ⟨rfl, by simp⟩,
    Checked.index_cons_zero, Checked.ok_bind, Checked.index_cons_succ, Checked.index_cons_zero,
    Checked.ok_bind, hslice, Checked.ok_bind]

theorem readPayload_ah (spi seq : BitVec 32) (icv : List UInt8) :
    readPayload ipv6ExtAh ([0, 0] ++ toBeBytes32 spi.toNat ++ toBeBytes32 seq.toNat ++ icv) =
      .ok (.authenticationHeader spi seq icv) := by
  generalize hbody : [0, 0] ++ toBeBytes32 spi.toNat ++ toBeBytes32 seq.toNat ++ icv = body
  have hlen : body.length = 10 + icv.length := by
    rw [← hbody]
    simp only [toBeBytes32, List.length_append, List.length_cons, List.length_nil]
  have hspi : (read32 body 2 : Parsed _) = .ok spi := by
    rw [← hbody]
    simpa using read32_at (ε := Ipv6ExtError) [0, 0] (toBeBytes32 seq.toNat ++ icv) spi
  have hseq : (read32 body 6 : Parsed _) = .ok seq := by
    rw [← hbody]
    have h := read32_at (ε := Ipv6ExtError) ([0, 0] ++ toBeBytes32 spi.toNat) icv seq
    rw [← List.append_assoc] at h
    exact h
  have hslice : (slice body 10 body.length : Parsed _) = .ok icv := by
    rw [Checked.slice_eq_ok (by omega) le_rfl, List.take_length, ← hbody]
    rfl
  rw [readPayload, if_neg (by decide), if_neg (by decide), if_neg fun h => absurd h.1 (by decide),
    if_pos ⟨rfl, by omega⟩, hspi, Checked.ok_bind, hseq, Checked.ok_bind, hslice, Checked.ok_bind]

theorem toNat_offsetAndFlag {off : BitVec 16} (h : off.toNat < 8192) (more : Bool) :
    (offsetAndFlag off more).toNat = 8 * off.toNat + (if more then 1 else 0) := by
  have hmask : off.toNat &&& 8191 = off.toNat :=
    (Nat.and_two_pow_sub_one_eq_mod off.toNat 13).trans (Nat.mod_eq_of_lt h)
  have hshift : off.toNat <<< 3 % 65536 = 2 ^ 3 * off.toNat := by
    rw [Nat.shiftLeft_eq]
    omega
  have hor := Nat.two_pow_add_eq_or_of_lt (i := 3) (b := if more then 1 else 0)
    (by split <;> decide) off.toNat
  rw [offsetAndFlag, BitVec.toNat_or, BitVec.toNat_shiftLeft, BitVec.toNat_and]
  have hbit : (if more then 1 else 0 : BitVec 16).toNat = if more then 1 else 0 := by
    cases more <;> rfl
  rw [hbit, show (0x1FFF : BitVec 16).toNat = 8191 from rfl, hmask, hshift, ← hor]

theorem offsetAndFlag_spec {off : BitVec 16} (h : off.toNat < 8192) (more : Bool) :
    offsetAndFlag off more >>> 3 = off ∧ decide (offsetAndFlag off more &&& 1 ≠ 0) = more := by
  have hnat := toNat_offsetAndFlag h more
  constructor
  · apply BitVec.eq_of_toNat_eq
    rw [BitVec.toNat_ushiftRight, hnat, Nat.shiftRight_eq_div_pow]
    split <;> omega
  · have hlow : (offsetAndFlag off more &&& 1).toNat = if more then 1 else 0 := by
      rw [BitVec.toNat_and, hnat, show (1 : BitVec 16).toNat = 1 from rfl, Nat.and_one_is_mod]
      split <;> omega
    cases more with
    | false =>
      have : offsetAndFlag off false &&& 1 = 0 := BitVec.eq_of_toNat_eq (by simpa using hlow)
      simpa using this
    | true =>
      have : offsetAndFlag off true &&& 1 ≠ 0 := fun h0 => by
        rw [h0] at hlow
        simp at hlow
      simpa using this
/-- A canonical header is read back, with its padding, from where it was written. -/
theorem parseHeader_serialize (hcan : h.Canonical) (hsize : 2 + h.serializeBody.1.length ≤ 2048)
    (hopts : ∀ opt ∈ h.options, opt.data.length ≤ 255) (pre post : List UInt8) (next : UInt8) :
    ∃ h', Padded h h' ∧ parseHeader (pre ++ (h.serialize next ++ post)) h.extensionType pre.length =
      .ok (h', (h.serialize next).length) := by
  rw [length_serialize]
  cases h with
  | hopByHop options =>
    obtain ⟨pad, hpad, hread⟩ := parseAll_padOptions fun opt hopt => ⟨hcan opt hopt, hopts opt hopt⟩
    refine ⟨_, .hopByHop options pad hpad, parseHeader_at pre post next ?_ ?_ ?_⟩
    · exact (by decide : ipv6ExtHopByHop ≠ ipv6ExtFragment)
    · exact hdrExtLenOf_spec (length_padOptions _).1 hsize
    · exact bind_of_eq_ok _ hread
  | destinationOptions options =>
    obtain ⟨pad, hpad, hread⟩ := parseAll_padOptions fun opt hopt => ⟨hcan opt hopt, hopts opt hopt⟩
    refine ⟨_, .destinationOptions options pad hpad, parseHeader_at pre post next ?_ ?_ ?_⟩
    · exact (by decide : ipv6ExtDestOptions ≠ ipv6ExtFragment)
    · exact hdrExtLenOf_spec (length_padOptions _).1 hsize
    · exact bind_of_eq_ok _ hread
  | routing routingType segmentsLeft data =>
    refine ⟨_, .routing routingType segmentsLeft data _, parseHeader_at pre post next ?_ ?_
      (readPayload_routing ..)⟩
    · exact (by decide : ipv6ExtRouting ≠ ipv6ExtFragment)
    · refine hdrExtLenOf_spec ?_ hsize
      simp only [List.length_append, List.length_cons, List.length_replicate]
      omega
  | fragment off more ident =>
    refine ⟨_, .fragment off more ident, ?_⟩
    obtain ⟨hoff, hmore⟩ := offsetAndFlag_spec hcan more
    have h₂ := read16_at (ε := Ipv6ExtError) (pre ++ [next, 0]) (toBeBytes32 ident.toNat ++ post)
      (offsetAndFlag off more)
    have h₄ := read32_at (ε := Ipv6ExtError)
      (pre ++ ([next, 0] ++ toBeBytes16 (offsetAndFlag off more).toNat)) post ident
    rw [List.length_append, show ([next, 0] : List UInt8).length = 2 from rfl] at h₂
    rw [List.length_append,
      show ([next, 0] ++ toBeBytes16 (offsetAndFlag off more).toNat).length = 4 from rfl] at h₄
    simp only [List.append_assoc] at h₂ h₄
    simp only [serialize, serializeBody, List.cons_append, List.append_assoc, extensionType]
    simp only [List.cons_append, List.nil_append] at h₂ h₄
    rw [parseHeader, if_pos rfl, if_neg (by simp [toBeBytes16, toBeBytes32]), h₂,
      Checked.ok_bind, h₄, Checked.ok_bind, hoff, hmore]
    rfl
  | authenticationHeader spi seq icv =>
    refine ⟨_, .authenticationHeader spi seq icv 0, parseHeader_at pre post next ?_ ?_ ?_⟩
    · exact (by decide : ipv6ExtAh ≠ ipv6ExtFragment)
    · obtain ⟨hmod, hmax⟩ := hcan
      simp only [extensionType, if_true, serializeBody, toBeBytes32, List.length_append,
        List.length_cons, List.length_nil, UInt8.toNat_ofNat']
      omega
    · simpa [serializeBody, extensionType] using readPayload_ah spi seq icv
  | unknown t d =>
    refine ⟨_, .unknown t d 0, parseHeader_at pre post next ?_ ?_ ?_⟩
    · simp only [extensionType]
      rcases hcan with ⟨rfl, -⟩ | ⟨rfl, -⟩ <;> decide
    · rcases hcan with ⟨rfl, hmod⟩ | ⟨rfl, hsix⟩
      · exact hdrExtLenOf_spec (show (2 + d.length) % 8 = 0 by omega) hsize
      · simp [extensionType, serializeBody, hdrExtLenOf, hsix]
    · simp only [extensionType, serializeBody, List.replicate_zero, List.append_nil]
      rcases hcan with ⟨rfl, hmod⟩ | ⟨rfl, hsix⟩
      · rfl
      · rw [readPayload, if_neg (by decide), if_neg (by decide),
          if_neg fun h => absurd h.1 (by decide), if_neg (by omega)]

theorem isExtensionHeader_of_canonical (hcan : h.Canonical) :
    isExtensionHeader h.extensionType = true ∧ h.extensionType ≠ ipv6ExtNoNextHeader := by
  cases h with
  | unknown t d =>
    simp only [extensionType]
    rcases hcan with ⟨rfl, -⟩ | ⟨rfl, -⟩ <;> decide
  | _ => exact ⟨rfl, by simp only [extensionType]; decide⟩

theorem hopByHop_of_canonical (hcan : h.Canonical) (htype : h.extensionType = ipv6ExtHopByHop) :
    ∃ options, h = .hopByHop options := by
  cases h with
  | hopByHop options => exact ⟨options, rfl⟩
  | unknown t d =>
    obtain rfl : t = ipv6ExtHopByHop := htype
    rcases hcan with ⟨h, -⟩ | ⟨h, -⟩ <;> exact absurd h (by decide)
  | _ => exact absurd htype (by simp only [extensionType]; decide)

/-- The loop reads the remaining headers from where they were written. -/
theorem parseFrom_serializeHeaders {final : UInt8} (hfinal : isExtensionHeader final = true →
      final = ipv6ExtNoNextHeader) (payload : List UInt8) (headers : List Ipv6ExtensionHeader)
    (hcan : ∀ h ∈ headers, h.Canonical)
    (hsize : ∀ h ∈ headers, 2 + h.serializeBody.1.length ≤ 2048)
    (hopts : ∀ h ∈ headers, ∀ opt ∈ h.options, opt.data.length ≤ 255)
    (found : List Ipv6ExtensionHeader)
    (hcount : found.length + headers.length ≤ maxExtensionHeaders)
    (hlast : final = ipv6ExtNoNextHeader → found.length + headers.length < maxExtensionHeaders)
    (hfirst : found ≠ [] → ∀ h ∈ headers, ∀ options, h ≠ .hopByHop options)
    (htail : ∀ h ∈ headers.tail, ∀ options, h ≠ .hopByHop options) (pre : List UInt8) :
    ∃ headers', List.Forall₂ Padded headers headers' ∧
      parseFrom (pre ++ (serializeHeaders final headers ++ payload)) found
        (firstNextHeader headers final) pre.length =
      .ok (⟨found ++ headers', final⟩, pre.length + (serializeHeaders final headers).length) := by
  induction headers generalizing found pre with
  | nil =>
    refine ⟨[], .nil, ?_⟩
    simp only [firstNextHeader, serializeHeaders, List.append_nil, List.length_nil, Nat.add_zero]
    rw [parseFrom]
    by_cases hext : isExtensionHeader final = true
    · obtain rfl := hfinal hext
      have hroom := hlast rfl
      rw [if_pos hext, if_neg fun h => absurd h.1 (by decide), if_neg (by simpa using hroom),
        if_pos rfl]
    · rw [if_neg hext]
  | cons h rest ih =>
    obtain ⟨hext, hne⟩ := isExtensionHeader_of_canonical (hcan h List.mem_cons_self)
    obtain ⟨h', hpad, hparse⟩ := parseHeader_serialize (hcan h List.mem_cons_self)
      (hsize h List.mem_cons_self) (hopts h List.mem_cons_self) pre
      (serializeHeaders final rest ++ payload) (firstNextHeader rest final)
    rw [List.length_cons] at hcount hlast
    have hrest : ∀ h ∈ rest, ∀ options, h ≠ .hopByHop options := htail
    obtain ⟨headers', hpads, hparses⟩ := ih (fun h hh => hcan h (List.mem_cons_of_mem _ hh))
      (fun h hh => hsize h (List.mem_cons_of_mem _ hh))
      (fun h hh => hopts h (List.mem_cons_of_mem _ hh)) (found ++ [h'])
      (by rw [List.length_append, List.length_singleton]; omega)
      (fun hf => by rw [List.length_append, List.length_singleton]; have := hlast hf; omega)
      (fun _ => hrest) (fun h hh => hrest h (List.mem_of_mem_tail hh))
      (pre ++ h.serialize (firstNextHeader rest final))
    refine ⟨h' :: headers', .cons hpad hpads, ?_⟩
    have hdata : pre ++ (serializeHeaders final (h :: rest) ++ payload) =
        pre ++ (h.serialize (firstNextHeader rest final) ++
          (serializeHeaders final rest ++ payload)) := by
      rw [serializeHeaders, List.append_assoc]
    have hnext : (index (pre ++ (h.serialize (firstNextHeader rest final) ++
        (serializeHeaders final rest ++ payload))) pre.length : Parsed UInt8) =
        .ok (firstNextHeader rest final) := index_at pre _ _
    have hmis : ¬ (h.extensionType = ipv6ExtHopByHop ∧ found ≠ []) := by
      rintro ⟨htype, hfound⟩
      obtain ⟨options, rfl⟩ := hopByHop_of_canonical (hcan h List.mem_cons_self) htype
      exact hfirst hfound _ List.mem_cons_self options rfl
    rw [List.append_assoc, List.length_append] at hparses
    rw [hdata, parseFrom, firstNextHeader, if_pos hext, if_neg hmis, if_neg (by omega), if_neg hne,
      if_neg (by simp [length_serialize]), hnext, Checked.ok_bind, hparse, Checked.ok_bind, hparses,
      serializeHeaders, List.length_append, ← Nat.add_assoc, List.append_assoc]
    rfl

namespace Ipv6ExtensionChain

/-- The chains of the codec: at most sixteen headers of at most 2048 bytes, Hop-by-Hop only in
front, option data that a byte can count, and something other than another header at the end. -/
structure Bounded (chain : Ipv6ExtensionChain) : Prop where
  count : chain.headers.length ≤ maxExtensionHeaders
  hopByHop : ∀ h ∈ chain.headers.tail, ∀ options, h ≠ .hopByHop options
  size : ∀ h ∈ chain.headers, 2 + h.serializeBody.1.length ≤ 2048
  optionData : ∀ h ∈ chain.headers, ∀ opt ∈ h.options, opt.data.length ≤ 255
  final : isExtensionHeader chain.finalNextHeader = true →
    chain.finalNextHeader = ipv6ExtNoNextHeader

/-- Before any payload the chain is read back, up to padding, from exactly its own bytes. -/
def RoundTrips (chain : Ipv6ExtensionChain) : Prop :=
  ∀ payload, ∃ headers', List.Forall₂ Padded chain.headers headers' ∧
    parse chain.serialize.2 (chain.serialize.1 ++ payload) =
      .ok (⟨headers', chain.finalNextHeader⟩, chain.serialize.1.length)

/-- Every header survives the wire, and sixteen headers are not followed by No-Next-Header. -/
def Canonical (chain : Ipv6ExtensionChain) : Prop :=
  (∀ h ∈ chain.headers, h.Canonical) ∧
    ¬ (chain.headers.length = maxExtensionHeaders ∧ chain.finalNextHeader = ipv6ExtNoNextHeader)

end Ipv6ExtensionChain

theorem canonical_of_roundTrips {chain : Ipv6ExtensionChain} (h : chain.RoundTrips) :
    chain.Canonical := by
  obtain ⟨headers', hpad, hparse⟩ := h []
  obtain ⟨hlast, tail, htail, hall, hn⟩ := parseFrom_eq_ok hparse
  simp only [List.nil_append] at htail
  subst htail
  have hsum : (chain.headers.map fun h => 2 + h.serializeBody.1.length).sum =
      (headers'.map contentLength).sum := by
    rw [← length_serializeHeaders chain.finalNextHeader]
    simpa [Ipv6ExtensionChain.serialize] using hn
  refine ⟨(canonical_of_padded hpad hall).2 hsum, fun ⟨hfull, hnone⟩ => ?_⟩
  exact hlast (hpad.length_eq ▸ hfull) hnone

/-- Within the bounds of the codec a chain survives the wire exactly when it is canonical, and the
parser stays inside any input. -/
theorem chain_codec (chain : Ipv6ExtensionChain) (hb : chain.Bounded) :
    (chain.RoundTrips ↔ chain.Canonical) ∧
      ∀ nh data, Safe (Ipv6ExtensionChain.parse nh data) := by
  refine ⟨⟨canonical_of_roundTrips, fun ⟨hcan, hlast⟩ payload => ?_⟩,
    fun nh data => safe_parseFrom data [] nh 0⟩
  obtain ⟨headers', hpad, hparse⟩ := parseFrom_serializeHeaders hb.final payload chain.headers hcan
    hb.size hb.optionData [] (by simpa using hb.count) (fun hnone => by
      have := hb.count
      have hne : chain.headers.length ≠ maxExtensionHeaders := fun hfull => hlast ⟨hfull, hnone⟩
      simp only [List.length_nil, Nat.zero_add]
      omega)
    (fun h => absurd rfl h) hb.hopByHop []
  simp only [List.nil_append, List.length_nil, Nat.zero_add] at hparse
  exact ⟨headers', hpad, hparse⟩

/-- Router alert in front of a fragment of a TCP segment. -/
def alertedFragment : Ipv6ExtensionChain := ⟨[.hopByHop [.routerAlert 0], .fragment 185 true 7], 6⟩

example : alertedFragment.serialize.1.length = 16 ∧ alertedFragment.serialize.2 = 0 := by
  decide +kernel

theorem chain_codec_alertedFragment : alertedFragment.Bounded ∧ alertedFragment.RoundTrips := by
  have hb : alertedFragment.Bounded :=
    { count := by decide
      hopByHop := by simp [alertedFragment]
      size := by decide
      optionData := by decide
      final := by decide }
  exact ⟨hb, (chain_codec alertedFragment hb).1.mpr ⟨by decide, by decide⟩⟩

/-- An authentication header whose ICV is one byte. -/
def oddIcv : Ipv6ExtensionChain := ⟨[.authenticationHeader 1 2 [0xAA]], 6⟩

/-- Sixteen headers, and nothing after them. -/
def fullChain : Ipv6ExtensionChain := ⟨List.replicate 16 (.fragment 0 false 0), 59⟩

/-- The ICV is not padded to the words its length byte counts, and the limit on headers is tested
before the end of the chain is recognised. -/
theorem not_roundTrips_oddIcv : (oddIcv.Bounded ∧ ¬ oddIcv.RoundTrips) ∧
    (fullChain.Bounded ∧ ¬ fullChain.RoundTrips) := by
  refine ⟨⟨⟨by decide, by simp [oddIcv], by decide, by decide, by decide⟩, fun h => ?_⟩,
    ⟨⟨by decide, by simp [fullChain, List.replicate], by decide, by decide, by decide⟩,
      fun h => ?_⟩⟩
  · obtain ⟨_, -, hparse⟩ := h []
    have hshort : Ipv6ExtensionChain.parse oddIcv.serialize.2 (oddIcv.serialize.1 ++ []) =
        .error (.headerTooShort 13) := by decide +kernel
    rw [hshort] at hparse
    cases hparse
  · obtain ⟨_, -, hparse⟩ := h []
    have hlong : Ipv6ExtensionChain.parse fullChain.serialize.2 (fullChain.serialize.1 ++ []) =
        .error (.chainTooLong 17) := by decide +kernel
    rw [hlong] at hparse
    cases hparse

end ToyTcpip.Ipv6Ext
