import ToyTcpip.Bgp.Roundtrip
import ToyTcpip.Bgp.Capability

/-! Which capability sets an OPEN carries unchanged. -/
namespace ToyTcpip.Bgp

open Checked (index slice)

/-! ### Entering each element once -/

section PushNew

variable {α : Type} [DecidableEq α] {l ms : List α} {a b : α}

theorem mem_pushNew : b ∈ pushNew l a ↔ b ∈ l ∨ b = a := by
  unfold pushNew
  split
  · constructor
    · exact .inl
    · rintro (h | rfl) <;> assumption
  · simp

theorem length_le_pushNew : l.length ≤ (pushNew l a).length := by
  unfold pushNew
  split <;> simp

theorem mem_foldl_pushNew : b ∈ ms.foldl pushNew l ↔ b ∈ l ∨ b ∈ ms := by
  induction ms generalizing l with
  | nil => simp
  | cons a ms ih => rw [List.foldl_cons, ih, mem_pushNew, List.mem_cons, or_assoc]

theorem length_le_foldl_pushNew : l.length ≤ (ms.foldl pushNew l).length := by
  induction ms generalizing l with
  | nil => exact le_rfl
  | cons a ms ih => exact length_le_pushNew.trans ih

theorem foldl_pushNew_of_nodup (h : (l ++ ms).Nodup) : ms.foldl pushNew l = l ++ ms := by
  induction ms generalizing l with
  | nil => simp
  | cons a ms ih =>
    have ha : a ∉ l := by
      intro hmem
      exact (List.nodup_append.mp h).2.2 a hmem a List.mem_cons_self rfl
    rw [List.append_cons] at h
    rw [List.foldl_cons, pushNew, if_neg ha, ih h, ← List.append_cons]

theorem nodup_pushNew (h : l.Nodup) : (pushNew l a).Nodup := by
  unfold pushNew
  split
  · exact h
  · exact List.Nodup.append h (List.nodup_singleton a) (by simpa using ‹a ∉ l›)

end PushNew

/-! ### One capability -/

/-- The code is none of those the speaker reads. -/
def UnknownCode (code : UInt8) : Prop :=
  code ≠ bgpCapMultiprotocol ∧ code ≠ bgpCapRouteRefresh ∧ code ≠ bgpCapGracefulRestart ∧
    code ≠ bgpCapFourOctetAs ∧ code ≠ bgpCapEnhancedRouteRefresh

/-- The restart time fits its twelve bits and no family is named twice. -/
structure BgpGracefulRestartCapability.Plain (gr : BgpGracefulRestartCapability) : Prop where
  time : gr.restartTime &&& bgpGrMaxRestartTime = gr.restartTime
  families : gr.families.Nodup

/-- The capability is one that a reader may come up with. -/
def BgpCapability.Plain : BgpCapability → Prop
  | .gracefulRestart gr => gr.Plain
  | .unknown code _ => UnknownCode code
  | _ => True

namespace BgpGracefulRestartCapability

variable {families acc : List BgpGracefulRestartFamily}

theorem nodup_familiesOf {data : List UInt8} (h : acc.Nodup) : (familiesOf data acc).Nodup := by
  fun_induction familiesOf data acc with
  | case1 a b safi flags rest families ih => exact ih (nodup_pushNew h)
  | case2 => exact h

theorem familiesOf_encode : familiesOf (families.flatMap fun f =>
    toBeBytes16 f.family.afi.toNat ++
      [f.family.safi, if f.forwardingState then bgpGrForwardingState else 0]) acc =
    families.foldl pushNew acc := by
  induction families generalizing acc with
  | nil => rfl
  | cons f rest ih =>
    have hafi := ofNat_beWord f.family.afi
    have hflags : decide ((if f.forwardingState then bgpGrForwardingState else 0) &&&
        bgpGrForwardingState ≠ 0) = f.forwardingState := by
      cases f.forwardingState <;> rfl
    rw [List.flatMap_cons, List.foldl_cons, ← ih]
    simp only [toBeBytes16, List.cons_append, List.nil_append, familiesOf, hafi, hflags]

theorem or_and_right (a b m : UInt16) : (a ||| b) &&& m = (a &&& m) ||| (b &&& m) := by
  apply UInt16.toBitVec_inj.mp
  ext i
  simp [Bool.and_or_distrib_right]

theorem restart_bits (restarting : Bool) {time : UInt16}
    (h : time &&& bgpGrMaxRestartTime = time) :
    ((time &&& bgpGrMaxRestartTime) ||| (if restarting then bgpGrRestartState else 0)) &&&
        bgpGrMaxRestartTime = time ∧
    decide (((time &&& bgpGrMaxRestartTime) ||| (if restarting then bgpGrRestartState else 0)) &&&
        bgpGrRestartState ≠ 0) = restarting := by
  have htime : time &&& bgpGrRestartState = 0 := by
    rw [← h, UInt16.and_assoc]
    exact UInt16.and_zero
  rw [h, or_and_right, or_and_right, h, htime]
  cases restarting with
  | false => simp
  | true =>
    have hbit : bgpGrRestartState &&& bgpGrMaxRestartTime = 0 := by decide
    simp only [↓reduceIte, hbit, UInt16.or_zero, UInt16.zero_or, UInt16.and_self, true_and]
    decide

theorem decodeValue_cons {hi lo : UInt8} {rest : List UInt8} (h : rest.length % 4 = 0) :
    decodeValue (hi :: lo :: rest) =
      .ok ⟨decide (UInt16.ofNat (beWord hi lo) &&& bgpGrRestartState ≠ 0),
      UInt16.ofNat (beWord hi lo) &&& bgpGrMaxRestartTime, familiesOf rest []⟩ := by
  unfold decodeValue
  rw [if_neg (by simp; omega)]
  simp only [Checked.bind_def, Checked.index_cons_zero, Checked.index_cons_succ, Checked.ok_bind]
  rw [Checked.slice_eq_ok (by simp) le_rfl, Checked.ok_bind, List.take_length, List.drop_succ_cons,
    List.drop_succ_cons, List.drop_zero]

theorem decodeValue_encodeValue {gr : BgpGracefulRestartCapability} (h : gr.Plain) :
    decodeValue gr.encodeValue = .ok gr := by
  obtain ⟨hmask, hstate⟩ := restart_bits gr.restarting h.time
  have hlen : ∀ families : List BgpGracefulRestartFamily, (families.flatMap fun f =>
      toBeBytes16 f.family.afi.toNat ++
        [f.family.safi, if f.forwardingState then bgpGrForwardingState else 0]).length % 4 = 0 := by
    intro families
    induction families with
    | nil => rfl
    | cons f rest ih =>
      rw [List.flatMap_cons, List.length_append]
      simp only [toBeBytes16, List.cons_append, List.nil_append, List.length_cons,
        List.length_nil] at ih ⊢
      omega
  have hfamilies := @familiesOf_encode gr.families []
  rw [foldl_pushNew_of_nodup (by simpa using h.families), List.nil_append] at hfamilies
  have hword := ofNat_beWord ((gr.restartTime &&& bgpGrMaxRestartTime) |||
    (if gr.restarting then bgpGrRestartState else 0))
  have hdecode := @decodeValue_cons
    (UInt8.ofNat (((gr.restartTime &&& bgpGrMaxRestartTime) |||
      (if gr.restarting then bgpGrRestartState else 0)).toNat / 256))
    (UInt8.ofNat ((gr.restartTime &&& bgpGrMaxRestartTime) |||
      (if gr.restarting then bgpGrRestartState else 0)).toNat) _ (hlen gr.families)
  rw [hword, hmask, hstate, hfamilies] at hdecode
  exact hdecode

theorem plain_of_decodeValue {value : List UInt8} {gr : BgpGracefulRestartCapability}
    (h : decodeValue value = .ok gr) : gr.Plain := by
  unfold decodeValue at h
  simp only [Checked.bind_def, Checked.ite_error_eq_ok, Checked.bind_eq_ok] at h
  obtain ⟨-, hi, -, lo, -, rest, -, h⟩ := h
  cases h
  exact ⟨by rw [UInt16.and_assoc, UInt16.and_self], nodup_familiesOf List.nodup_nil⟩

end BgpGracefulRestartCapability

namespace BgpCapability

variable {c : BgpCapability} {code : UInt8} {value : List UInt8}

theorem decode_unknown (h : UnknownCode code) : decode code value = .ok (.unknown code value) := by
  obtain ⟨h₁, h₂, h₃, h₄, h₅⟩ := h
  unfold decode
  split <;> first | contradiction | rfl

theorem decode_encode (h : c.Plain) : decode c.code c.value = .ok c := by
  cases c with
  | multiProtocol af =>
    have hafi := ofNat_beWord af.afi
    change Checked.ok (multiProtocol ⟨UInt16.ofNat (beWord (UInt8.ofNat (af.afi.toNat / 256))
      (UInt8.ofNat af.afi.toNat)), af.safi⟩) = _
    rw [hafi]
  | fourOctetAs asn =>
    change (readLong (toBeBytes32 asn.toNat)).bind (fun asn => .ok (fourOctetAs asn)) = _
    rw [readLong_toBeBytes32, Checked.ok_bind]
  | routeRefresh => rfl
  | enhancedRouteRefresh => rfl
  | gracefulRestart gr =>
    have hgr := BgpGracefulRestartCapability.decodeValue_encodeValue h
    change (BgpGracefulRestartCapability.decodeValue gr.encodeValue).bind
      (fun gr => .ok (gracefulRestart gr)) = _
    rw [hgr, Checked.ok_bind]
  | unknown code value => exact decode_unknown h

theorem plain_of_decode (h : decode code value = .ok c) : c.Plain := by
  unfold decode at h
  split at h
  · simp only [Checked.ite_error_eq_ok, Checked.bind_def, Checked.bind_eq_ok] at h
    obtain ⟨-, _, -, _, -, _, -, h⟩ := h
    cases h
    trivial
  · simp only [Checked.ite_error_eq_ok, Checked.bind_eq_ok] at h
    obtain ⟨-, _, -, h⟩ := h
    cases h
    trivial
  · simp only [Checked.ite_error_eq_ok] at h
    cases h.2
    trivial
  · simp only [Checked.ite_error_eq_ok] at h
    cases h.2
    trivial
  · simp only [Checked.bind_eq_ok] at h
    obtain ⟨gr, hgr, h⟩ := h
    cases h
    exact BgpGracefulRestartCapability.plain_of_decodeValue hgr
  · rename_i h₁ h₂ h₃ h₄ h₅
    cases h
    exact ⟨h₁, h₃, h₅, h₂, h₄⟩

end BgpCapability

/-! ### The capability block -/

namespace BgpCapabilitySet

variable {s s' : BgpCapabilitySet} {data : List UInt8} {caps : List BgpCapability}

/-- The octets are whole capabilities, each readable and never a sixty-fifth, that make up a set. -/
inductive Reads : BgpCapabilitySet → List UInt8 → BgpCapabilitySet → Prop
  | done (s : BgpCapabilitySet) : Reads s [] s
  | more {s s' : BgpCapabilitySet} {code : UInt8} {value rest : List UInt8} {cap : BgpCapability}
      (hlen : value.length ≤ 255) (hroom : s.capabilities.length < maxCapabilities)
      (hcap : BgpCapability.decode code value = .ok cap) (hrest : Reads (s.push cap) rest s') :
      Reads s (code :: UInt8.ofNat value.length :: (value ++ rest)) s'

theorem parseCapabilityBlock_eq_ok :
    s.parseCapabilityBlock data = .ok s' ↔ Reads s data s' := by
  constructor
  · intro h
    fun_induction parseCapabilityBlock s data with
    | case1 s =>
      cases h
      exact .done _
    | case2 s _ => cases h
    | case3 s code len rest hlen => cases h
    | case4 s code len rest hlen hroom => cases h
    | case5 s code len rest hlen hroom ih =>
      obtain ⟨cap, hcap, hrest⟩ := Checked.bind_eq_ok.mp h
      have htake : (rest.take len.toNat).length = len.toNat := by
        rw [List.length_take]
        omega
      have hread := Reads.more (by rw [htake]; have := len.toNat_lt; omega) (by omega) hcap
        (ih cap hrest)
      rwa [htake, UInt8.ofNat_toNat, List.take_append_drop] at hread
  · intro h
    induction h with
    | done s => rw [parseCapabilityBlock]
    | @more s s' code value rest cap hlen hroom hcap _ ih =>
      have hbyte : (UInt8.ofNat value.length).toNat = value.length := by
        simp
        omega
      rw [parseCapabilityBlock, hbyte, if_neg (by simp), if_neg (by omega), List.take_left,
        List.drop_left, hcap, Checked.ok_bind, ih]

/-- Each capability once, where it is first named. -/
def canonical (s : BgpCapabilitySet) : BgpCapabilitySet := ⟨s.capabilities.foldl pushNew []⟩

/-- All that is read is plain. -/
theorem Reads.plain (h : Reads s data s') :
    ∀ c ∈ s'.capabilities, c ∈ s.capabilities ∨ c.Plain := by
  induction h with
  | done s => exact fun c hc => .inl hc
  | more hlen hroom hcap _ ih =>
    intro c hc
    rcases ih c hc with hc | hc
    · rcases mem_pushNew.mp hc with hc | rfl
      · exact .inl hc
      · exact .inr (BgpCapability.plain_of_decode hcap)
    · exact .inr hc

/-- Capabilities that fit their length octets are read one by one. -/
theorem parseCapabilityBlock_flatMap (hplain : ∀ c ∈ caps, c.Plain)
    (hlen : ∀ c ∈ caps, c.value.length ≤ 255) :
    s.parseCapabilityBlock (caps.flatMap BgpCapability.encode) =
        .ok ⟨caps.foldl pushNew s.capabilities⟩ ↔
      caps = [] ∨ (caps.dropLast.foldl pushNew s.capabilities).length < maxCapabilities := by
  induction caps generalizing s with
  | nil => simp [parseCapabilityBlock]
  | cons c rest ih =>
    obtain ⟨hc, hrest⟩ := List.forall_mem_cons.mp hplain
    obtain ⟨hclen, hrestlen⟩ := List.forall_mem_cons.mp hlen
    have hbyte : (UInt8.ofNat c.value.length).toNat = c.value.length := by
      simp
      omega
    have hdata : (c :: rest).flatMap BgpCapability.encode = c.code :: UInt8.ofNat c.value.length ::
        (c.value ++ rest.flatMap BgpCapability.encode) := by
      simp [BgpCapability.encode]
    rw [hdata, parseCapabilityBlock, hbyte, if_neg (by simp), List.take_left, List.drop_left,
      BgpCapability.decode_encode hc, Checked.ok_bind]
    have hrec := @ih (s.push c) hrest hrestlen
    have hgrow : s.capabilities.length ≤ (rest.dropLast.foldl pushNew
        (pushNew s.capabilities c)).length := length_le_pushNew.trans length_le_foldl_pushNew
    by_cases hroom : s.capabilities.length ≥ maxCapabilities
    · rw [if_pos hroom]
      simp only [reduceCtorEq, false_iff, List.cons_ne_nil, false_or, not_lt]
      cases rest with
      | nil => exact hroom
      | cons c' rest => exact hroom.trans hgrow
    · rw [if_neg hroom]
      simp only [List.foldl_cons, List.cons_ne_nil, false_or]
      refine hrec.trans ?_
      cases rest with
      | nil => simpa using hroom
      | cons c' rest => simp [push]

/-- Where octets are missing at the end, the reading succeeds only between two capabilities. -/
theorem boundary_of_ok {n : ℕ} (hplain : ∀ c ∈ caps, c.Plain)
    (hlen : ∀ c ∈ caps, c.value.length ≤ 255)
    (h : s.parseCapabilityBlock ((caps.flatMap BgpCapability.encode).take n) = .ok s') :
    ∃ k, (caps.flatMap BgpCapability.encode).take n =
        (caps.take k).flatMap BgpCapability.encode ∧
      s' = ⟨(caps.take k).foldl pushNew s.capabilities⟩ := by
  induction caps generalizing s n with
  | nil =>
    refine ⟨0, by simp, ?_⟩
    simpa [parseCapabilityBlock, eq_comm] using h
  | cons c rest ih =>
    obtain ⟨hc, hrest⟩ := List.forall_mem_cons.mp hplain
    obtain ⟨hclen, hrestlen⟩ := List.forall_mem_cons.mp hlen
    have hbyte : (UInt8.ofNat c.value.length).toNat = c.value.length := by
      simp
      omega
    have hdata : (c :: rest).flatMap BgpCapability.encode = c.code :: UInt8.ofNat c.value.length ::
        (c.value ++ rest.flatMap BgpCapability.encode) := by
      simp [BgpCapability.encode]
    rw [hdata] at h ⊢
    obtain rfl | rfl | ⟨m, rfl⟩ : n = 0 ∨ n = 1 ∨ ∃ m, n = m + 2 := by
      rcases n with _ | _ | m <;> simp
    · refine ⟨0, rfl, ?_⟩
      simpa [parseCapabilityBlock, eq_comm] using h
    · simp [parseCapabilityBlock] at h
    · rw [List.take_succ_cons, List.take_succ_cons, parseCapabilityBlock, hbyte] at h
      simp only [Checked.ite_error_eq_ok, Checked.bind_eq_ok] at h
      obtain ⟨hwhole, -, cap, hcap, hmore⟩ := h
      have hsplit : (c.value ++ rest.flatMap BgpCapability.encode).take m =
          c.value ++ (rest.flatMap BgpCapability.encode).take (m - c.value.length) := by
        rw [List.take_append, List.take_of_length_le]
        rw [List.length_take] at hwhole
        omega
      rw [hsplit, List.take_left, BgpCapability.decode_encode hc] at hcap
      rw [hsplit, List.drop_left] at hmore
      cases hcap
      obtain ⟨k, hk, hs'⟩ := ih hrest hrestlen hmore
      refine ⟨k + 1, ?_, hs'⟩
      rw [List.take_succ_cons, List.take_succ_cons, hsplit, hk]
      simp [BgpCapability.encode]

/-- The parameters fit the length octet of an OPEN, or would have to. -/
def Fits (s : BgpCapabilitySet) : Prop := s.encodeOptParams.length ≤ 255

instance : Decidable s.Fits := inferInstanceAs (Decidable (_ ≤ _))

theorem length_encodeOptParams (h : s.capabilities ≠ []) :
    s.encodeOptParams.length = 2 + (s.capabilities.flatMap BgpCapability.encode).length := by
  simp only [encodeOptParams, List.isEmpty_iff, h, ↓reduceIte, List.length_append]
  rfl

theorem value_le_of_mem {c : BgpCapability} (h : c ∈ caps) :
    c.value.length + 2 ≤ (caps.flatMap BgpCapability.encode).length := by
  have hle := List.Sublist.length_le (List.sublist_flatten_of_mem
    (List.mem_map_of_mem (f := BgpCapability.encode) h))
  have hc : c.encode.length = c.value.length + 2 := by simp [BgpCapability.encode]
  rwa [← List.flatMap_def, hc] at hle

/-- One whole parameter of capabilities. -/
theorem parseOptParams_block {block : List UInt8} {n : ℕ} (hn : n % 256 = block.length) :
    parseOptParams (bgpOptParamCapability :: UInt8.ofNat n :: block) =
      new.parseCapabilityBlock block := by
  have hbyte : (UInt8.ofNat n).toNat = block.length := by simp [hn]
  rw [parseOptParams, parseOptParamsFrom, hbyte, if_neg (by simp), if_pos rfl, List.take_length,
    List.drop_length]
  cases new.parseCapabilityBlock block with
  | ok s => rw [Checked.ok_bind, parseOptParamsFrom]
  | error e => rfl
  | panic => rfl

theorem parse_encode_iff (h : s.Fits) : parseOptParams s.encodeOptParams = .ok s.canonical ↔
    (∀ c ∈ s.capabilities, c.Plain) ∧
      (canonical ⟨s.capabilities.dropLast⟩).capabilities.length < maxCapabilities := by
  by_cases hempty : s.capabilities = []
  · simp [encodeOptParams, hempty, parseOptParams, parseOptParamsFrom, canonical, new,
      maxCapabilities]
  have hblock : (s.capabilities.flatMap BgpCapability.encode).length ≤ 253 := by
    have hlen := length_encodeOptParams hempty
    unfold Fits at h
    omega
  have hparse : parseOptParams s.encodeOptParams =
      new.parseCapabilityBlock (s.capabilities.flatMap BgpCapability.encode) := by
    simp only [encodeOptParams, List.isEmpty_iff, hempty, ↓reduceIte]
    exact parseOptParams_block (Nat.mod_eq_of_lt (by omega))
  have hlen : ∀ c ∈ s.capabilities, c.value.length ≤ 255 := by
    intro c hc
    have hle := value_le_of_mem hc
    omega
  rw [hparse]
  constructor
  · intro hok
    have hplain : ∀ c ∈ s.capabilities, c.Plain := by
      intro c hc
      have hmem : c ∈ s.canonical.capabilities := mem_foldl_pushNew.mpr (.inr hc)
      exact ((parseCapabilityBlock_eq_ok.mp hok).plain c hmem).resolve_left (by simp [new])
    exact ⟨hplain, ((parseCapabilityBlock_flatMap hplain hlen).mp hok).resolve_left hempty⟩
  · rintro ⟨hplain, hroom⟩
    exact (parseCapabilityBlock_flatMap hplain hlen).mpr (.inr hroom)

/-- The part of the capabilities that lies before the end an OPEN's length octets mark. -/
def cut (s : BgpCapabilitySet) : List UInt8 :=
  let block := s.capabilities.flatMap BgpCapability.encode
  block.take (block.length % 256)

/-- Of plain capabilities whose values fit their own length octets a peer reads those before the
cut, and only where it falls between two of them. -/
theorem reads_cut_iff (hplain : ∀ c ∈ s.capabilities, c.Plain)
    (hlen : ∀ c ∈ s.capabilities, c.value.length ≤ 255) :
    Reads new s.cut s' ↔ ∃ before after, s.capabilities = before ++ after ∧
      s.cut = before.flatMap BgpCapability.encode ∧
      (before = [] ∨ (canonical ⟨before.dropLast⟩).capabilities.length < maxCapabilities) ∧
      s' = canonical ⟨before⟩ := by
  rw [← parseCapabilityBlock_eq_ok]
  have hread : ∀ before after, s.capabilities = before ++ after →
      (new.parseCapabilityBlock (before.flatMap BgpCapability.encode) = .ok (canonical ⟨before⟩) ↔
        before = [] ∨ (canonical ⟨before.dropLast⟩).capabilities.length < maxCapabilities) := by
    intro before after hs
    refine parseCapabilityBlock_flatMap (fun c hc => hplain c ?_) fun c hc => hlen c ?_
    · simp [hs, hc]
    · simp [hs, hc]
  constructor
  · intro h
    obtain ⟨k, hk, rfl⟩ := boundary_of_ok hplain hlen h
    have hs := (List.take_append_drop k s.capabilities).symm
    rw [cut, hk] at h
    exact ⟨_, _, hs, hk, (hread _ _ hs).mp h, rfl⟩
  · rintro ⟨before, after, hs, hcut, hroom, rfl⟩
    rw [hcut]
    exact (hread before after hs).mpr hroom

/-- What a peer makes of an OPEN with parameters that do not fit their length octet. -/
theorem capabilities_of_over (hover : ¬ s.Fits) {o : BgpOpenMessage}
    (ho : o.optParams = s.encodeOptParams) :
    (BgpOpenMessage.parseBody o.encodeBody).bind BgpOpenMessage.capabilities = .ok s' ↔
      match (s.capabilities.flatMap BgpCapability.encode).length % 256 with
      | 254 => s' = new
      | 255 => False
      | _ => Reads new s.cut s' := by
  have hne : s.capabilities ≠ [] := by
    intro hnil
    simp [Fits, encodeOptParams, hnil] at hover
  have hlen := length_encodeOptParams hne
  rw [parseBody_encodeBody, Checked.ok_bind, BgpOpenMessage.capabilities, ho]
  have hbytes : s.encodeOptParams = bgpOptParamCapability ::
      UInt8.ofNat (s.capabilities.flatMap BgpCapability.encode).length ::
      s.capabilities.flatMap BgpCapability.encode := by
    simp [encodeOptParams, hne]
  generalize hblock : s.capabilities.flatMap BgpCapability.encode = block at *
  have hcut : s.cut = block.take (block.length % 256) := by rw [cut, hblock]
  simp only
  split
  · rename_i hmod
    rw [hlen, show (2 + block.length) % 256 = 0 by omega, List.take_zero, parseOptParams,
      parseOptParamsFrom, Checked.ok.injEq, eq_comm]
  · rename_i hmod
    rw [hlen, show (2 + block.length) % 256 = 1 by omega, hbytes, parseOptParams,
      List.take_succ_cons, List.take_zero, parseOptParamsFrom]
    simp
  · rename_i h₁ h₂
    have h254 : block.length % 256 ≠ 254 := h₁
    have h255 : block.length % 256 ≠ 255 := h₂
    have hmod := Nat.mod_lt block.length (show 0 < 256 by decide)
    rw [hlen, show (2 + block.length) % 256 = block.length % 256 + 2 by omega, hbytes,
      List.take_succ_cons, List.take_succ_cons, ← hcut, parseOptParams_block,
      parseCapabilityBlock_eq_ok]
    rw [hcut, List.length_take, Nat.min_eq_left (Nat.mod_le _ _)]

/-- A peer reads the set an OPEN was built from, or no set at all. -/
def Carried (s : BgpCapabilitySet) : Prop :=
  (s.Fits → parseOptParams s.encodeOptParams = .ok s.canonical) ∧
  (¬ s.Fits → ∀ (o : BgpOpenMessage) (s' : BgpCapabilitySet), o.optParams = s.encodeOptParams →
    (BgpOpenMessage.parseBody o.encodeBody).bind BgpOpenMessage.capabilities = .ok s' →
    s' = s.canonical)

/-- Parameters that fit hold plain capabilities, the last of them not after a sixty-fourth; others
are cut off within a capability or a length octet, unless what is left repeats the set. -/
structure Carriable (s : BgpCapabilitySet) : Prop where
  fits : s.Fits → (∀ c ∈ s.capabilities, c.Plain) ∧
    (canonical ⟨s.capabilities.dropLast⟩).capabilities.length < maxCapabilities
  cutOff : ¬ s.Fits → (s.capabilities.flatMap BgpCapability.encode).length % 256 = 255 ∨
    (s.capabilities.flatMap BgpCapability.encode).length % 256 ≠ 254 ∧
      ∀ s', Reads new s.cut s' → s' = s.canonical

/-- Where the values fit their own length octets: the cut does not fall between two capabilities,
unless those before it are too many or repeat the set. -/
theorem carriable_iff_of_over (hover : ¬ s.Fits) (hplain : ∀ c ∈ s.capabilities, c.Plain)
    (hlen : ∀ c ∈ s.capabilities, c.value.length ≤ 255) :
    s.Carriable ↔ (s.capabilities.flatMap BgpCapability.encode).length % 256 = 255 ∨
      (s.capabilities.flatMap BgpCapability.encode).length % 256 ≠ 254 ∧
        ∀ before after, s.capabilities = before ++ after →
          (before.flatMap BgpCapability.encode).length =
            (s.capabilities.flatMap BgpCapability.encode).length % 256 →
          before = [] ∨ (canonical ⟨before.dropLast⟩).capabilities.length < maxCapabilities →
          canonical ⟨before⟩ = s.canonical := by
  have hcut : ∀ before after, s.capabilities = before ++ after →
      (s.cut = before.flatMap BgpCapability.encode ↔ (before.flatMap BgpCapability.encode).length =
        (s.capabilities.flatMap BgpCapability.encode).length % 256) := by
    intro before after hs
    have hle := Nat.mod_le (s.capabilities.flatMap BgpCapability.encode).length 256
    constructor
    · intro h
      rw [← h, cut, List.length_take, Nat.min_eq_left hle]
    · intro h
      rw [cut, ← h, hs, List.flatMap_append, List.take_left]
  have hreads : (∀ s', Reads new s.cut s' → s' = s.canonical) ↔
      ∀ before after, s.capabilities = before ++ after →
        (before.flatMap BgpCapability.encode).length =
          (s.capabilities.flatMap BgpCapability.encode).length % 256 →
        before = [] ∨ (canonical ⟨before.dropLast⟩).capabilities.length < maxCapabilities →
        canonical ⟨before⟩ = s.canonical := by
    constructor
    · intro h before after hs hend hroom
      exact h _ ((reads_cut_iff hplain hlen).mpr
        ⟨before, after, hs, (hcut before after hs).mpr hend, hroom, rfl⟩)
    · intro h s' hs'
      obtain ⟨before, after, hs, hend, hroom, rfl⟩ := (reads_cut_iff hplain hlen).mp hs'
      exact h before after hs ((hcut before after hs).mp hend) hroom
  rw [← hreads]
  exact ⟨fun h => h.cutOff hover, fun h => ⟨fun hfits => absurd hfits hover, fun _ => h⟩⟩

theorem capability_set_carried_iff (s : BgpCapabilitySet) : s.Carried ↔ s.Carriable := by
  have hcanon : ¬ s.Fits → s.canonical ≠ new := by
    intro hover hnew
    have hne : s.capabilities ≠ [] := by
      intro hnil
      simp [Fits, encodeOptParams, hnil] at hover
    obtain ⟨c, hc⟩ := List.exists_mem_of_ne_nil _ hne
    have hmem : c ∈ s.canonical.capabilities := mem_foldl_pushNew.mpr (.inr hc)
    rw [hnew] at hmem
    simp [new] at hmem
  constructor
  · rintro ⟨hfits, hover⟩
    refine ⟨fun h => (parse_encode_iff h).mp (hfits h), fun h => ?_⟩
    have hread := fun s' => @capabilities_of_over s s' h ⟨4, 0, 0, .unspecified,
      s.encodeOptParams⟩ rfl
    have hall := fun s' => hover h ⟨4, 0, 0, .unspecified, s.encodeOptParams⟩ s' rfl
    by_cases h₁ : (s.capabilities.flatMap BgpCapability.encode).length % 256 = 255
    · exact .inl h₁
    by_cases h₂ : (s.capabilities.flatMap BgpCapability.encode).length % 256 = 254
    · have hempty := (hread new).mpr (by rw [h₂]; exact rfl)
      exact absurd (hall new hempty).symm (hcanon h)
    · refine .inr ⟨h₂, fun s' hs' => hall s' ((hread s').mpr ?_)⟩
      split
      · contradiction
      · contradiction
      · exact hs'
  · rintro ⟨hfits, hover⟩
    refine ⟨fun h => (parse_encode_iff h).mpr (hfits h), fun h o s' ho hs' => ?_⟩
    rw [capabilities_of_over h ho] at hs'
    rcases hover h with h₁ | ⟨h₂, hcut⟩
    · rw [h₁] at hs'
      exact hs'.elim
    · split at hs'
      · contradiction
      · exact hs'.elim
      · exact hcut s' hs'

/-- What a speaker with 24 families and graceful restart puts into an OPEN: 254 octets. -/
def manyFamilies : BgpCapabilitySet :=
  let families := (List.range 24).map fun i => (⟨25, UInt8.ofNat (70 + i)⟩ : AfiSafi)
  ⟨families.map .multiProtocol ++ [.fourOctetAs 65001, .routeRefresh, .enhancedRouteRefresh,
    .gracefulRestart (.new 120 false (families.map fun family => ⟨family, false⟩))]⟩

/-- Sixty-five capabilities of two octets each: 132 octets with the parameter's own header. -/
def manyUnknown : BgpCapabilitySet :=
  ⟨(List.range 65).map fun i => .unknown (UInt8.ofNat (100 + i)) []⟩

example : manyUnknown.encodeOptParams.length = 132 := by decide +kernel

/-- The OPEN with 24 families reads as one without capabilities; 65 capabilities are not read
back. -/
theorem families_lost_in_open :
    ¬ manyFamilies.Fits ∧
    (BgpOpenMessage.parseBody (BgpOpenMessage.withCapabilities 65001 180 ⟨10, 0, 0, 1⟩
      manyFamilies).encodeBody).bind BgpOpenMessage.capabilities = .ok new ∧
    manyFamilies.canonical ≠ new ∧
    manyUnknown.Fits ∧ parseOptParams manyUnknown.encodeOptParams ≠ .ok manyUnknown.canonical := by
  have hover : ¬ manyFamilies.Fits := by decide +kernel
  have hfits : manyUnknown.Fits := by decide +kernel
  have hmod : (manyFamilies.capabilities.flatMap BgpCapability.encode).length % 256 = 254 := by
    decide +kernel
  have hread := @capabilities_of_over manyFamilies new hover
    (BgpOpenMessage.withCapabilities 65001 180 ⟨10, 0, 0, 1⟩ manyFamilies) rfl
  rw [hmod] at hread
  refine ⟨hover, hread.mpr rfl, by decide +kernel, hfits, ?_⟩
  rw [Ne, parse_encode_iff hfits]
  rintro ⟨-, hroom⟩
  exact absurd hroom (by decide +kernel)

end BgpCapabilitySet

end ToyTcpip.Bgp
