import Mathlib.Data.List.Sort
import ToyTcpip.MacGrant
import ToyTcpip.MacPdu

/-! Uplink multiplexing of `mac_5g.rs`: how `assemble_ul_pdu` fills a grant. -/
namespace ToyTcpip.Mac

def macMaxLogicalChannels : ℕ := 33

inductive HarqState where
  | idle
  | waitingForFeedback
  | pendingRetransmission
  deriving DecidableEq

structure HarqProcess where
  processId : UInt8
  state : HarqState
  txCount : UInt8
  maxRetx : UInt8
  ndi : Bool
  redundancyVersion : UInt8
  tbData : Option (List UInt8)

def HarqProcess.newTransmission (h : HarqProcess) (tb : List UInt8) : HarqProcess :=
  { h with
    ndi := !h.ndi, txCount := 1, redundancyVersion := 0, tbData := some tb,
    state := .waitingForFeedback }

/-- A channel with the one field of its configuration that counts here. -/
structure LogicalChannelState where
  priority : UInt8
  bucketBytes : ℤ
  pendingData : ℕ

abbrev Lcid := Fin macMaxLogicalChannels

abbrev Channels := Lcid → Option LogicalChannelState

structure MacEntity where
  harqProcesses : List HarqProcess
  logicalChannels : Channels

/-- The locals of the loops. -/
structure UlState where
  remaining : ℕ
  channels : Channels
  elements : List MacPduElement

def pendingOf (channels : Channels) (lcid : Lcid) : ℕ :=
  ((channels lcid).map (·.pendingData)).getD 0

def priorityOf (channels : Channels) (lcid : Lcid) : UInt8 :=
  ((channels lcid).map (·.priority)).getD 255

/-- The channels with data by priority; the sort is stable. -/
def activeLcids (channels : Channels) : List Lcid :=
  ((List.finRange macMaxLogicalChannels).filter (0 < pendingOf channels ·)).insertionSort
    fun a b => priorityOf channels a ≤ priorityOf channels b

/-- The part that both loops share, from the subheader on: `request` is what the channel may send,
and `spend` its new bucket. -/
def serveChannel (s : UlState) (lcid : Lcid) (lc : LogicalChannelState) (request : ℕ) (fill : UInt8)
    (spend : ℕ → Option ℤ) : Checked Unit UlState :=
  let subhdrOverhead := if request ≤ 255 then 2 else 3
  let maxPayload := s.remaining - subhdrOverhead
  if maxPayload = 0 then .ok s
  else
    let serve := min request (maxPayload % 2 ^ 32)
    if serve = 0 then .ok s
    else
      let actualSubhdrLen := if serve ≤ 255 then 2 else 3
      if s.remaining < actualSubhdrLen + serve ∨ lc.pendingData < serve then .panic
      else match spend serve with
        | none => .panic
        | some bucketBytes => .ok
          { remaining := s.remaining - (actualSubhdrLen + serve)
            channels := Function.update s.channels lcid
              (some ⟨lc.priority, bucketBytes, lc.pendingData - serve⟩)
            elements := s.elements ++ [.sdu (.ofNat lcid) (List.replicate serve fill)] }

/-- The bucket is cast to `u32`. -/
def pbrAllow (lc : LogicalChannelState) : ℕ :=
  if 0 < lc.bucketBytes then lc.bucketBytes.toNat % 2 ^ 32 else 0

def firstTurn (s : UlState) (lcid : Lcid) : Checked Unit UlState :=
  match s.channels lcid with
  | none => .ok s
  | some lc =>
    if lc.pendingData = 0 then .ok s
    else if pbrAllow lc = 0 then .ok s
    else serveChannel s lcid lc (min lc.pendingData (pbrAllow lc)) 0xAA fun n =>
      if lc.bucketBytes - n < -2 ^ 63 then none else some (lc.bucketBytes - n)

def secondTurn (s : UlState) (lcid : Lcid) : Checked Unit UlState :=
  match s.channels lcid with
  | none => .ok s
  | some lc =>
    if lc.pendingData = 0 then .ok s
    else serveChannel s lcid lc lc.pendingData 0xBB fun _ => some lc.bucketBytes

/-- A loop over the active channels, which ends when less than a subheader and a byte is left. -/
def turns (turn : UlState → Lcid → Checked Unit UlState) :
    UlState → List Lcid → Checked Unit UlState
  | s, [] => .ok s
  | s, lcid :: lcids => if s.remaining < 3 then .ok s else (turn s lcid).bind fun s =>
    turns turn s lcids

def firstPhase (e : MacEntity) (grantBytes : ℕ) : Checked Unit UlState :=
  turns firstTurn ⟨grantBytes, e.logicalChannels, []⟩ (activeLcids e.logicalChannels)

/-- The entity after the call, and the HARQ process and the PDU when a process is idle. -/
def assembleUlPdu (e : MacEntity) (grantBytes : ℕ) :
    Checked Unit (MacEntity × Option (ℕ × MacPdu)) :=
  match e.harqProcesses.findIdx? (·.state = .idle) with
  | none => .ok (e, none)
  | some harqIdx =>
    (firstPhase e grantBytes).bind fun s =>
    (turns secondTurn s (activeLcids e.logicalChannels)).bind fun s =>
      let padding := if 0 < s.remaining then [MacPduElement.padding (s.remaining - 1)] else []
      let pdu : MacPdu := ⟨s.elements ++ padding⟩
      .ok (⟨e.harqProcesses.modify harqIdx (·.newTransmission pdu.toBytes), s.channels⟩,
        some (harqIdx, pdu))

def MacPduElement.asSdu : MacPduElement → Option (UInt8 × List UInt8)
  | .sdu lcid payload => some (lcid, payload)
  | _ => none

def MacPdu.sdus (p : MacPdu) : List (UInt8 × List UInt8) := p.elements.filterMap (·.asSdu)

/-- The bytes of the SDUs of a channel. -/
def MacPdu.bytesOf (p : MacPdu) (lcid : Lcid) : ℕ :=
  ((p.sdus.filter (·.1 = .ofNat lcid)).map (·.2.length)).sum

/-- The call meets no arithmetic fault; the transport block it hands to the HARQ process is as long
as the grant and is read back with the same SDUs; every channel has sent as many bytes as it no
longer has pending; and a channel is served in the second phase, in which each has one turn, only if
no channel of a higher priority stays with data. -/
def FillsGrant (e : MacEntity) (grantBytes : ℕ) : Prop :=
  ∃ s e' harqIdx h pdu tb, firstPhase e grantBytes = .ok s ∧
    assembleUlPdu e grantBytes = .ok (e', some (harqIdx, pdu)) ∧
    e'.harqProcesses[harqIdx]? = some h ∧ h.tbData = some tb ∧ tb.length = grantBytes ∧
    (∃ pdu', MacPdu.fromBytes tb = .ok pdu' ∧ pdu'.sdus = pdu.sdus) ∧
    (∀ lcid, pendingOf e'.logicalChannels lcid + pdu.bytesOf lcid =
      pendingOf e.logicalChannels lcid) ∧
    ∀ i j, priorityOf e.logicalChannels i < priorityOf e.logicalChannels j →
      pendingOf e'.logicalChannels j < pendingOf s.channels j → pendingOf e'.logicalChannels i = 0

/-! ### What a loop does -/

section loops

variable {b n : ℕ} {fill : UInt8} {l lcid : Lcid} {lcids : List Lcid} {lc : LogicalChannelState}
  {s s' : UlState} {q : LogicalChannelState → ℕ} {turn : UlState → Lcid → Checked Unit UlState}

def sduOf (fill : UInt8) (x : Lcid × ℕ) : List MacPduElement :=
  if x.2 = 0 then [] else [.sdu (.ofNat x.1) (List.replicate x.2 fill)]

/-- A turn serves the request `q` of its channel as far as the grant goes. -/
def Serves (fill : UInt8) (q : LogicalChannelState → ℕ)
    (turn : UlState → Lcid → Checked Unit UlState) : Prop :=
  ∀ s lcid lc, s.channels lcid = some lc → 3 ≤ s.remaining → ∃ bucket, turn s lcid = .ok
    { remaining := unspent s.remaining (q lc)
      channels := Function.update s.channels lcid
        (some ⟨lc.priority, bucket, lc.pendingData - served s.remaining (q lc)⟩)
      elements := s.elements ++ sduOf fill (lcid, served s.remaining (q lc)) }

theorem serveChannel_eq {request : ℕ} {spend : ℕ → Option ℤ} (bucket : ℕ → ℤ)
    (hlc : s.channels lcid = some lc) (hmin : 3 ≤ s.remaining) (hrequest : request ≤ lc.pendingData)
    (hzero : bucket 0 = lc.bucketBytes) (hspend : ∀ n ≤ request, spend n = some (bucket n)) :
    serveChannel s lcid lc request fill spend = .ok
      { remaining := unspent s.remaining request
        channels := Function.update s.channels lcid
          (some ⟨lc.priority, bucket (served s.remaining request),
            lc.pendingData - served s.remaining request⟩)
        elements := s.elements ++ sduOf fill (lcid, served s.remaining request) } := by
  have hserved : served s.remaining request =
      min request ((s.remaining - if request ≤ 255 then 2 else 3) % 2 ^ 32) := if_neg (by omega)
  have hsame : served s.remaining request = 0 → s =
      { remaining := unspent s.remaining request
        channels := Function.update s.channels lcid
          (some ⟨lc.priority, bucket (served s.remaining request),
            lc.pendingData - served s.remaining request⟩)
        elements := s.elements ++ sduOf fill (lcid, served s.remaining request) } := by
    intro h
    have hupdate : Function.update s.channels lcid (some lc) = s.channels := by
      rw [← hlc, Function.update_eq_self]
    rw [unspent, if_pos h, h, hzero, Nat.sub_zero, hupdate, sduOf, if_pos rfl, List.append_nil]
  by_cases hnone : served s.remaining request = 0
  · rw [← hsame hnone, serveChannel]
    simp only []
    rw [← hserved, if_pos hnone, ite_self]
  · have hpayload : ¬ (s.remaining - if request ≤ 255 then 2 else 3) = 0 := by
      intro h
      rw [hserved, h, Nat.zero_mod, Nat.min_zero] at hnone
      exact hnone rfl
    have hfit := overhead_add_served_le hnone
    have hle := served_le (g := s.remaining) (q := request)
    have hspend' := hspend _ hle
    rw [overhead] at hfit
    rw [serveChannel]
    simp only []
    rw [if_neg hpayload, ← hserved, if_neg hnone, if_neg (by omega), hspend', unspent,
      if_neg hnone, sduOf, if_neg hnone]
    rfl

/-- A turn does nothing for a channel that asks for nothing. -/
theorem advance_nothing {request : ℕ} (hlc : s.channels lcid = some lc) (hrequest : request = 0) :
    s = { remaining := unspent s.remaining request
          channels := Function.update s.channels lcid
            (some ⟨lc.priority, lc.bucketBytes, lc.pendingData - served s.remaining request⟩)
          elements := s.elements ++ sduOf fill (lcid, served s.remaining request) } := by
  have hupdate : Function.update s.channels lcid (some lc) = s.channels := by
    rw [← hlc, Function.update_eq_self]
  rw [hrequest, served_zero.1, served_zero.2, Nat.sub_zero, hupdate, sduOf, if_pos rfl,
    List.append_nil]

theorem firstTurn_serves : Serves 0xAA (fun lc => min lc.pendingData (pbrAllow lc)) firstTurn := by
  intro s lcid lc hlc hmin
  rw [firstTurn, hlc]
  simp only []
  by_cases hpending : lc.pendingData = 0
  · rw [if_pos hpending]
    exact ⟨lc.bucketBytes, congrArg Checked.ok
      (advance_nothing hlc (by rw [hpending, Nat.zero_min]))⟩
  · rw [if_neg hpending]
    by_cases hallow : pbrAllow lc = 0
    · rw [if_pos hallow]
      exact ⟨lc.bucketBytes, congrArg Checked.ok
        (advance_nothing hlc (by rw [hallow, Nat.min_zero]))⟩
    · rw [if_neg hallow]
      refine ⟨_, serveChannel_eq (fun n => lc.bucketBytes - n) hlc hmin
        (min_le_left _ _) (by simp) ?_⟩
      intro n hn
      have hallowed : (pbrAllow lc : ℤ) ≤ lc.bucketBytes := by
        unfold pbrAllow at hallow ⊢
        split_ifs at hallow ⊢ with hpos
        · have := Nat.mod_le lc.bucketBytes.toNat (2 ^ 32)
          omega
        · exact absurd rfl hallow
      rw [if_neg (by have := hn.trans (min_le_right _ _); omega)]

theorem secondTurn_serves : Serves 0xBB (·.pendingData) secondTurn := by
  intro s lcid lc hlc hmin
  rw [secondTurn, hlc]
  simp only []
  by_cases hpending : lc.pendingData = 0
  · rw [if_pos hpending]
    exact ⟨lc.bucketBytes, congrArg Checked.ok (advance_nothing hlc hpending)⟩
  · rw [if_neg hpending]
    exact ⟨_, serveChannel_eq (fun _ => lc.bucketBytes) hlc hmin le_rfl rfl fun _ _ => rfl⟩

/-- What a channel asks for in a loop. -/
def requestOf (q : LogicalChannelState → ℕ) (channels : Channels) (lcid : Lcid) : ℕ :=
  ((channels lcid).map q).getD 0

/-- A loop serves the requests of its channels one after the other. -/
theorem turns_spec (h : Serves fill q turn) (hnodup : lcids.Nodup)
    (hsome : ∀ l ∈ lcids, (s.channels l).isSome) :
    ∃ s', turns turn s lcids = .ok s' ∧
      s'.remaining = unspentAll s.remaining (lcids.map (requestOf q s.channels)) ∧
      s'.elements = s.elements ++
        (lcids.zip (servedAll s.remaining (lcids.map (requestOf q s.channels)))).flatMap
          (sduOf fill) ∧
      (∀ l ∉ lcids, s'.channels l = s.channels l) ∧
      ∀ x ∈ lcids.zip (servedAll s.remaining (lcids.map (requestOf q s.channels))),
        (s'.channels x.1).isSome ∧
        pendingOf s'.channels x.1 = pendingOf s.channels x.1 - x.2 := by
  induction lcids generalizing s with
  | nil => exact ⟨s, rfl, rfl, (List.append_nil _).symm, fun _ _ => rfl, by simp⟩
  | cons lcid lcids ih =>
    obtain ⟨hnotin, hnodup⟩ := List.nodup_cons.1 hnodup
    obtain ⟨hhead, htail⟩ := List.forall_mem_cons.1 hsome
    rw [turns]
    by_cases hsmall : s.remaining < 3
    · obtain ⟨hzero, hrest⟩ :
          (∀ n ∈ servedAll s.remaining ((lcid :: lcids).map (requestOf q s.channels)), n = 0) ∧ _ :=
        servedAll_small hsmall
      have hnone : ∀ x ∈ (lcid :: lcids).zip (servedAll s.remaining
          ((lcid :: lcids).map (requestOf q s.channels))),
          x.2 = 0 := fun x hx => hzero _ (List.of_mem_zip hx).2
      refine ⟨s, if_pos hsmall, hrest.symm, ?_, fun _ _ => rfl, fun x hx => ?_⟩
      · have hempty : ((lcid :: lcids).zip (servedAll s.remaining
            ((lcid :: lcids).map (requestOf q s.channels)))).flatMap (sduOf fill) = [] :=
          List.flatMap_eq_nil_iff.2 fun x hx => if_pos (hnone x hx)
        rw [hempty, List.append_nil]
      · exact ⟨hsome _ (List.of_mem_zip hx).1, by rw [hnone x hx, Nat.sub_zero]⟩
    · obtain ⟨lc, hlc⟩ := Option.isSome_iff_exists.1 hhead
      obtain ⟨bucket, hturn⟩ := h s lcid lc hlc (by omega)
      rw [if_neg hsmall, hturn, Checked.ok_bind]
      have hrequest : requestOf q s.channels lcid = q lc := by rw [requestOf, hlc]; rfl
      generalize hs₁ : (⟨unspent s.remaining (q lc), Function.update s.channels lcid
          (some ⟨lc.priority, bucket, lc.pendingData - served s.remaining (q lc)⟩),
          s.elements ++ sduOf fill (lcid, served s.remaining (q lc))⟩ : UlState) = s₁
      have hremaining₁ : s₁.remaining = unspent s.remaining (q lc) := by rw [← hs₁]
      have helements₁ : s₁.elements = s.elements ++ sduOf fill (lcid,
        served s.remaining (q lc)) := by rw [← hs₁]
      have hother : ∀ l ≠ lcid, s₁.channels l = s.channels l := fun l hl => by
        rw [← hs₁]
        exact Function.update_of_ne hl _ _
      have hself : s₁.channels lcid = some ⟨lc.priority, bucket,
          lc.pendingData - served s.remaining (q lc)⟩ := by
        rw [← hs₁]
        exact Function.update_self _ _ _
      have hne : ∀ l ∈ lcids, l ≠ lcid := fun l hl heq => hnotin (heq ▸ hl)
      have hmap : lcids.map (requestOf q s₁.channels) = lcids.map (requestOf q s.channels) :=
        List.map_congr_left fun l hl => by rw [requestOf, requestOf, hother l (hne l hl)]
      obtain ⟨s', hs', hremaining, helements, hout, hin⟩ := ih (s := s₁) hnodup
        (fun l hl => by rw [hother l (hne l hl)]; exact htail l hl)
      rw [hmap, hremaining₁] at hremaining helements hin
      rw [List.map_cons, hrequest, unspentAll, servedAll, List.zip_cons_cons, List.flatMap_cons]
      refine ⟨s', hs', hremaining, by rw [helements, helements₁, List.append_assoc], fun l hl => ?_,
        List.forall_mem_cons.2 ⟨⟨?_, ?_⟩, fun x hx => ?_⟩⟩
      · obtain ⟨hl, hl'⟩ := not_or.1 (mt List.mem_cons.2 hl)
        rw [hout l hl', hother l hl]
      · rw [hout lcid hnotin, hself]
        rfl
      · rw [pendingOf, pendingOf, hout lcid hnotin, hself, hlc]
        rfl
      · obtain ⟨hsome', hpending⟩ := hin x hx
        refine ⟨hsome', hpending.trans ?_⟩
        rw [pendingOf, hother x.1 (hne _ (List.of_mem_zip hx).1), pendingOf]

end loops

/-! ### Reading a transport block back -/

section readback

variable {data rest post : List UInt8} {offset : ℕ} {l : UInt8} {payload : List UInt8}
  {es pad es' : List MacPduElement} {e : MacPduElement}

/-- An SDU of a logical channel that is not empty. -/
def MacPduElement.IsSdu (e : MacPduElement) : Prop :=
  ∃ l payload, e = .sdu l payload ∧ l ≤ 32 ∧ payload ≠ []

/-- The bytes of an SDU. -/
def MacPduElement.sduLength (e : MacPduElement) : ℕ := ((e.asSdu).map (·.2.length)).getD 0

theorem MacPduElement.IsSdu.forms (h : e.IsSdu) : e.isPadding = false ∧ e.isLongBsr = false := by
  obtain ⟨l, payload, rfl, -⟩ := h
  exact ⟨rfl, rfl⟩

theorem MacPduElement.IsSdu.inRange (h : e.IsSdu) (hshort : e.sduLength ≤ 65535) : e.InRange := by
  obtain ⟨l, payload, rfl, hle, -⟩ := h
  exact ⟨hle, hshort⟩

theorem MacPduElement.ofPayload_sdu (hl : l ≤ 32) (payload : List UInt8) :
    MacPduElement.ofPayload l payload = .ok (.sdu l payload) := by
  rw [UInt8.le_iff_toNat_le] at hl
  have hne : ∀ l' : UInt8, 32 < l'.toNat → l ≠ l' := by
    rintro l' hl' rfl
    exact absurd hl (not_le.mpr hl')
  rw [ofPayload, if_neg (hne _ (by decide)), if_neg (hne _ (by decide)), if_neg (hne _ (by decide)),
    if_neg (hne _ (by decide))]

/-- The length of an SDU is read back with the sixteen bits that its subheader has. -/
theorem elementsFrom_sdu (hl : l ≤ 32)
    (hd : data.drop offset = (MacPduElement.sdu l payload).toBytes ++ rest)
    (h : MacPdu.elementsFrom data offset = .ok es') :
    ∃ payload' es'', es' = .sdu l payload' :: es'' ∧ payload'.length = payload.length % 2 ^ 16 := by
  rw [MacPduElement.toBytes, List.append_assoc] at hd
  have hlt : l.toNat ≤ 32 := UInt8.le_iff_toNat_le.1 hl
  have hpad : l ≠ macLcidPadding := by
    rintro rfl
    exact absurd hlt (by decide)
  have hdrx : l ≠ macLcidDrxCmd := by
    rintro rfl
    exact absurd hlt (by decide)
  have hsub := MacSubheader.fromBytes_toBytes
    (UInt8.lt_iff_toNat_lt.2 (hlt.trans_lt (by decide))) hpad hdrx
    (Nat.mod_lt payload.length (by decide)) hd
  rw [MacPdu.elementsFrom_of_ok hpad hsub, Checked.ite_error_eq_ok, Checked.bind_eq_ok] at h
  obtain ⟨-, payload', hslice, h⟩ := h
  have hlen := Checked.length_of_slice hslice
  rw [MacPduElement.ofPayload_sdu hl, Checked.ok_bind, Checked.bind_eq_ok] at h
  obtain ⟨es'', -, h⟩ := h
  exact ⟨payload', es'', (Checked.ok.inj h).symm, by rw [hlen]; omega⟩

/-- An SDU that sixteen bits do not measure is not read back. -/
theorem sdus_ne_of_long (hes : ∀ e ∈ es, e.IsSdu) (hlong : ∃ e ∈ es, 65535 < e.sduLength)
    (hle : offset ≤ data.length) (hd : data.drop offset = (es ++ pad).flatMap (·.toBytes))
    (h : MacPdu.elementsFrom data offset = .ok es') :
    es'.filterMap (·.asSdu) ≠ (es ++ pad).filterMap (·.asSdu) := by
  induction es generalizing offset es' with
  | nil =>
    obtain ⟨e, he, -⟩ := hlong
    cases he
  | cons e es ih =>
    obtain ⟨⟨l, payload, rfl, hl, -⟩, htail⟩ := List.forall_mem_cons.1 hes
    rw [List.cons_append, List.flatMap_cons] at hd
    by_cases hshort : payload.length ≤ 65535
    · have hrange : (MacPduElement.sdu l payload).InRange := ⟨hl, hshort⟩
      obtain ⟨hrest, hle', hcons⟩ := MacPdu.elementsFrom_cons hrange rfl rfl hle hd
      rw [hcons, Checked.bind_eq_ok] at h
      obtain ⟨es'', hes'', h⟩ := h
      obtain rfl := Checked.ok.inj h
      have hlong' : ∃ e ∈ es, 65535 < e.sduLength := by
        obtain ⟨e, hmem, hlong⟩ := hlong
        rcases List.mem_cons.1 hmem with rfl | hmem
        · exact absurd hshort (by simpa [MacPduElement.sduLength, MacPduElement.asSdu] using hlong)
        · exact ⟨e, hmem, hlong⟩
      have hne := ih htail hlong' hle' hrest hes''
      intro heq
      exact hne (List.cons.inj heq).2
    · obtain ⟨payload', es'', rfl, hlen⟩ := elementsFrom_sdu hl hd h
      intro heq
      have hsame : payload' = payload := (Prod.mk.inj (List.cons.inj heq).1).2
      rw [hsame] at hlen
      omega

theorem MacPduElement.IsSdu.length_toBytes (h : e.IsSdu) (hshort : e.sduLength ≤ 65535) :
    e.toBytes.length = cost e.sduLength := by
  obtain ⟨l, payload, rfl, hl, hpayload⟩ := h
  have hlen : payload.length ≤ 65535 := hshort
  have hpos : payload.length ≠ 0 := by simpa using hpayload
  have hmod : payload.length % 2 ^ 16 = payload.length := Nat.mod_eq_of_lt (by omega)
  have hsum : (sdu l payload).toBytes.length =
      (⟨l, some payload.length⟩ : MacSubheader).toBytes.length + payload.length := by
    rw [toBytes, List.length_append]
    simp only [subheader, payloadBytes, lcid, hmod]
  have hlength : (sdu l payload).sduLength = payload.length := rfl
  rw [hsum, hlength, cost, if_neg hpos, overhead, MacSubheader.toBytes]
  dsimp only
  split_ifs <;> rfl

theorem length_flatMap_toBytes (hes : ∀ e ∈ es, e.IsSdu) (hshort : ∀ e ∈ es, e.sduLength ≤ 65535) :
    (es.flatMap (·.toBytes)).length = total (es.map (·.sduLength)) := by
  induction es with
  | nil => rfl
  | cons e es ih =>
    obtain ⟨he, hes⟩ := List.forall_mem_cons.1 hes
    obtain ⟨hs, hshort⟩ := List.forall_mem_cons.1 hshort
    rw [List.flatMap_cons, List.length_append, he.length_toBytes hs, ih hes hshort,
      List.map_cons, total_cons]

end readback

/-! ### What the channels send -/

section sent

variable {es es' : List MacPduElement} {fill : UInt8} {l lcid : Lcid} {n : ℕ} {zs : List (Lcid × ℕ)}
  {lcids : List Lcid} {s s' : UlState} {lc : LogicalChannelState} {q : LogicalChannelState → ℕ}
  {turn : UlState → Lcid → Checked Unit UlState}

@[simp] theorem bytesOf_append :
    (⟨es ++ es'⟩ : MacPdu).bytesOf l = (⟨es⟩ : MacPdu).bytesOf l + (⟨es'⟩ : MacPdu).bytesOf l := by
  simp only [MacPdu.bytesOf, MacPdu.sdus, List.filterMap_append, List.filter_append,
    List.map_append, List.sum_append]

theorem lcid_injective (h : UInt8.ofNat lcid = UInt8.ofNat l) : lcid = l := by
  have hlt : ∀ x : Lcid, (x : ℕ) % 256 = x := fun x => Nat.mod_eq_of_lt (x.2.trans (by decide))
  have hnat := congrArg UInt8.toNat h
  rw [UInt8.toNat_ofNat', UInt8.toNat_ofNat', hlt, hlt] at hnat
  exact Fin.ext hnat

theorem bytesOf_sduOf : (⟨sduOf fill (lcid, n)⟩ : MacPdu).bytesOf l =
    if lcid = l then n else 0 := by
  unfold sduOf
  by_cases hzero : n = 0
  · rw [if_pos hzero, hzero, ite_self]
    rfl
  · rw [if_neg hzero]
    by_cases heq : lcid = l
    · subst heq
      simp [MacPdu.bytesOf, MacPdu.sdus, MacPduElement.asSdu]
    · have hne : ¬ UInt8.ofNat lcid = UInt8.ofNat l := fun h => heq (lcid_injective h)
      simp [MacPdu.bytesOf, MacPdu.sdus, MacPduElement.asSdu, heq, hne]

theorem isSdu_of_mem_sduOf {e : MacPduElement} {x : Lcid × ℕ} (h : e ∈ sduOf fill x) : e.IsSdu := by
  unfold sduOf at h
  split_ifs at h with hzero
  · cases h
  · obtain rfl := List.mem_singleton.1 h
    have hle : (x.1 : ℕ) ≤ 32 := Nat.le_of_lt_succ x.1.2
    refine ⟨_, _, rfl, ?_, by simpa using hzero⟩
    rw [UInt8.le_iff_toNat_le, UInt8.toNat_ofNat', Nat.mod_eq_of_lt (by omega)]
    exact hle

/-- The SDUs of a loop are as long as what it served. -/
theorem sduLength_sduOf (fill : UInt8) (zs : List (Lcid × ℕ)) :
    total ((zs.flatMap (sduOf fill)).map (·.sduLength)) = total (zs.map (·.2)) ∧
      ((∀ e ∈ zs.flatMap (sduOf fill), e.sduLength ≤ 65535) ↔ ∀ n ∈ zs.map (·.2), n ≤ 65535) := by
  induction zs with
  | nil => exact ⟨rfl, by simp⟩
  | cons x zs ih =>
    rw [List.flatMap_cons, List.map_append, total_append, List.map_cons, total_cons, ih.1,
      List.forall_mem_append, List.forall_mem_cons, ih.2, sduOf]
    by_cases hzero : x.2 = 0
    · rw [if_pos hzero, hzero]
      simp [cost]
    · rw [if_neg hzero]
      simp [MacPduElement.sduLength, MacPduElement.asSdu]

/-- What holds before each turn and after it holds after the loop. -/
theorem turns_keeps {P : UlState → Prop}
    (h : ∀ s l s', 3 ≤ s.remaining → turn s l = .ok s' → P s → P s')
    (hs : turns turn s lcids = .ok s') (hP : P s) : P s' := by
  induction lcids generalizing s with
  | nil => exact Checked.ok.inj hs ▸ hP
  | cons l lcids ih =>
    rw [turns] at hs
    by_cases hsmall : s.remaining < 3
    · rw [if_pos hsmall] at hs
      exact Checked.ok.inj hs ▸ hP
    · rw [if_neg hsmall, Checked.bind_eq_ok] at hs
      obtain ⟨s₁, hturn, hs⟩ := hs
      exact ih hs (h s l s₁ (not_lt.1 hsmall) hturn hP)

/-- The bytes of a channel, pending and sent. -/
def UlState.bytes (s : UlState) (l : Lcid) : ℕ :=
  pendingOf s.channels l + (⟨s.elements⟩ : MacPdu).bytesOf l

/-- A turn moves bytes from a channel to the PDU. -/
theorem turn_bytes (h : Serves fill q turn) (hnone : ∀ s l, s.channels l = none → turn s l = .ok s)
    (hq : ∀ lc, q lc ≤ lc.pendingData) (hmin : 3 ≤ s.remaining) (hturn : turn s lcid = .ok s') :
    s'.bytes = s.bytes ∧ ((∀ e ∈ s.elements, e.IsSdu) → ∀ e ∈ s'.elements, e.IsSdu) := by
  cases hlc : s.channels lcid with
  | none =>
    obtain rfl := Checked.ok.inj (hturn.symm.trans (hnone s lcid hlc))
    exact ⟨rfl, id⟩
  | some lc =>
    obtain ⟨bucket, heq⟩ := h s lcid lc hlc hmin
    obtain rfl := Checked.ok.inj (hturn.symm.trans heq)
    refine ⟨funext fun l => ?_, fun hes => List.forall_mem_append.2
      ⟨hes, fun e he => isSdu_of_mem_sduOf he⟩⟩
    have hle := (served_le (g := s.remaining)).trans (hq lc)
    rw [UlState.bytes, UlState.bytes, bytesOf_append, bytesOf_sduOf, pendingOf, pendingOf]
    dsimp only
    by_cases hl : lcid = l
    · subst hl
      rw [if_pos rfl, Function.update_self, hlc]
      change lc.pendingData - _ + _ = lc.pendingData + _
      omega
    · rw [if_neg hl, Function.update_of_ne (Ne.symm hl), Nat.add_zero]

theorem turns_bytes (h : Serves fill q turn) (hnone : ∀ s l, s.channels l = none → turn s l = .ok s)
    (hq : ∀ lc, q lc ≤ lc.pendingData) (hs : turns turn s lcids = .ok s') :
    s'.bytes = s.bytes ∧ ((∀ e ∈ s.elements, e.IsSdu) → ∀ e ∈ s'.elements, e.IsSdu) :=
  turns_keeps (P := fun t => t.bytes = s.bytes ∧
    ((∀ e ∈ s.elements, e.IsSdu) → ∀ e ∈ t.elements, e.IsSdu))
    (fun _ _ _ hmin hturn hP =>
      have hstep := turn_bytes h hnone hq hmin hturn
      ⟨hstep.1.trans hP.1, fun hes => hstep.2 (hP.2 hes)⟩) hs ⟨rfl, id⟩

end sent

/-! ### Both loops -/

section phases

variable {α β : Type} {e : MacEntity} {g : ℕ} {s s' : UlState} {l : Lcid}

/-- Among the members of a sorted list only those in order are related or not. -/
theorem pairwise_iff_of_sorted {R : α → α → Prop} [LinearOrder β] {k : α → β} {xs : List α}
    (hsorted : xs.Pairwise (k · ≤ k ·)) (hR : ∀ a b, k b ≤ k a → R a b) :
    xs.Pairwise R ↔ ∀ a ∈ xs, ∀ b ∈ xs, R a b := by
  induction xs with
  | nil => exact iff_of_true List.Pairwise.nil (by simp)
  | cons x xs ih =>
    obtain ⟨hhead, htail⟩ := List.pairwise_cons.1 hsorted
    rw [List.pairwise_cons, ih htail, List.forall_mem_cons]
    constructor
    · rintro ⟨hx, hxs⟩
      exact ⟨List.forall_mem_cons.2 ⟨hR x x le_rfl, hx⟩,
        fun a ha => List.forall_mem_cons.2 ⟨hR a x (hhead a ha), hxs a ha⟩⟩
    · rintro ⟨hx, hxs⟩
      exact ⟨(List.forall_mem_cons.1 hx).2, fun a ha => (List.forall_mem_cons.1 (hxs a ha)).2⟩

/-- What each member is paired with is a function of the member. -/
theorem map_eq_zipWith {f : α → β} {h : α → ℕ → β} {xs : List α} {ns : List ℕ}
    (hlen : ns.length = xs.length) (hf : ∀ x ∈ xs.zip ns, f x.1 = h x.1 x.2) :
    xs.map f = List.zipWith h xs ns := by
  induction xs generalizing ns with
  | nil => rfl
  | cons x xs ih =>
    cases ns with
    | nil => cases hlen
    | cons n ns =>
      obtain ⟨hx, hxs⟩ := List.forall_mem_cons.1 hf
      rw [List.map_cons, List.zipWith_cons_cons, hx, ih (Nat.succ.inj hlen) hxs]

theorem exists_mem_zip {a : α} {xs : List α} {ys : List β} (hlen : xs.length ≤ ys.length)
    (h : a ∈ xs) : ∃ x ∈ xs.zip ys, x.1 = a := by
  rw [← List.map_fst_zip hlen] at h
  exact List.mem_map.1 h

theorem mem_activeLcids {channels : Channels} : l ∈ activeLcids channels ↔
    0 < pendingOf channels l := by
  rw [activeLcids, List.mem_insertionSort, List.mem_filter, and_iff_right (List.mem_finRange l),
    decide_eq_true_iff]

theorem nodup_activeLcids (channels : Channels) : (activeLcids channels).Nodup :=
  (List.perm_insertionSort _ _).nodup_iff.2 ((List.nodup_finRange _).filter _)

theorem sorted_activeLcids (channels : Channels) :
    (activeLcids channels).Pairwise fun a b => (priorityOf channels a).toNat ≤
      (priorityOf channels b).toNat := by
  have : Std.Total fun a b => priorityOf channels a ≤ priorityOf channels b :=
    ⟨fun _ _ => UInt8.le_total _ _⟩
  have : IsTrans _ fun a b => priorityOf channels a ≤ priorityOf channels b :=
    ⟨fun _ _ _ => UInt8.le_trans⟩
  exact (List.pairwise_insertionSort _ _).imp UInt8.le_iff_toNat_le.1

theorem isSome_of_active {channels : Channels} (h : l ∈ activeLcids channels) :
    (channels l).isSome := by
  rw [mem_activeLcids, pendingOf] at h
  cases hl : channels l with
  | none =>
    rw [hl] at h
    exact absurd h (by decide)
  | some lc => rfl

/-- What a channel asks of the grant. -/
def demandOf (channels : Channels) (lcid : Lcid) : Demand where
  priority := (priorityOf channels lcid).toNat
  pending := pendingOf channels lcid
  allowed := ((channels lcid).map pbrAllow).getD 0

/-- What the channels with data ask of the grant, by priority. -/
def demandsOf (e : MacEntity) : List Demand :=
  (activeLcids e.logicalChannels).map (demandOf e.logicalChannels)

theorem requestOf_first (channels : Channels) :
    requestOf (fun lc => min lc.pendingData (pbrAllow lc)) channels = fun l =>
      (demandOf channels l).want := by
  funext l
  rw [requestOf, Demand.want, demandOf, pendingOf]
  cases channels l with
  | none => rfl
  | some lc => rfl

theorem firstTurn_none (s : UlState) (l : Lcid) (h : s.channels l = none) :
    firstTurn s l = .ok s := by
  rw [firstTurn, h]

theorem secondTurn_none (s : UlState) (l : Lcid) (h : s.channels l = none) :
    secondTurn s l = .ok s := by
  rw [secondTurn, h]

/-- The first phase serves what the buckets allow. -/
theorem firstPhase_spec (e : MacEntity) (g : ℕ) : ∃ s, firstPhase e g = .ok s ∧
    s.remaining = grantAfterFirst g (demandsOf e) ∧
    s.elements =
      ((activeLcids e.logicalChannels).zip (servedAll g ((demandsOf e).map (·.want)))).flatMap
        (sduOf 0xAA) ∧
    (∀ l ∉ activeLcids e.logicalChannels, s.channels l = e.logicalChannels l) ∧
    (∀ l ∈ activeLcids e.logicalChannels, (s.channels l).isSome) ∧
    (activeLcids e.logicalChannels).map (fun l => ((priorityOf e.logicalChannels l).toNat,
      pendingOf s.channels l)) =
      afterFirst g (demandsOf e) := by
  obtain ⟨s, hs, hremaining, helements, hout, hin⟩ :=
    turns_spec (s := ⟨g, e.logicalChannels, []⟩) firstTurn_serves
    (nodup_activeLcids e.logicalChannels) fun l hl => isSome_of_active hl
  have hwants : (activeLcids e.logicalChannels).map
      (requestOf (fun lc => min lc.pendingData (pbrAllow lc)) e.logicalChannels) =
          (demandsOf e).map (·.want) := by
    rw [requestOf_first, demandsOf, List.map_map]
    rfl
  have hlen : (servedAll g ((demandsOf e).map (·.want))).length =
      (activeLcids e.logicalChannels).length := by
    rw [length_servedAll, List.length_map, demandsOf, List.length_map]
  dsimp only at hremaining helements hout hin
  rw [hwants] at hremaining helements hin
  refine ⟨s, hs, hremaining, helements, hout, fun l hl => ?_, ?_⟩
  · obtain ⟨x, hx, rfl⟩ := exists_mem_zip hlen.ge hl
    exact (hin x hx).1
  · rw [map_eq_zipWith hlen (h := fun l n => ((priorityOf e.logicalChannels l).toNat,
      pendingOf e.logicalChannels l - n)) fun x hx => by rw [(hin x hx).2]]
    rw [afterFirst, demandsOf, List.zipWith_map_left]
    rfl

theorem le_of_mem_zip_servedAll (xs : List α) (f : α → ℕ) :
    ∀ x ∈ xs.zip (servedAll g (xs.map f)), x.2 ≤ f x.1 := by
  induction xs generalizing g with
  | nil => simp
  | cons x xs ih =>
    rw [List.map_cons, servedAll, List.zip_cons_cons, List.forall_mem_cons]
    exact ⟨served_le, ih⟩

/-- The second phase serves what the channels are left with. -/
theorem secondPhase_spec (hremaining : s.remaining = grantAfterFirst g (demandsOf e))
    (hsome : ∀ l ∈ activeLcids e.logicalChannels, (s.channels l).isSome)
    (hafter : (activeLcids e.logicalChannels).map
      (fun l => ((priorityOf e.logicalChannels l).toNat, pendingOf s.channels l)) =
        afterFirst g (demandsOf e)) :
    ∃ s', turns secondTurn s (activeLcids e.logicalChannels) = .ok s' ∧
      s'.remaining = unspentAll (grantAfterFirst g (demandsOf e))
        ((afterFirst g (demandsOf e)).map (·.2)) ∧
      s'.elements = s.elements ++ ((activeLcids e.logicalChannels).zip
        (servedAll (grantAfterFirst g (demandsOf e))
          ((afterFirst g (demandsOf e)).map (·.2)))).flatMap (sduOf 0xBB) ∧
      (∀ l ∉ activeLcids e.logicalChannels, s'.channels l = s.channels l) ∧
      (InOrder (grantAfterFirst g (demandsOf e)) (afterFirst g (demandsOf e)) ↔
        ∀ i ∈ activeLcids e.logicalChannels, ∀ j ∈ activeLcids e.logicalChannels,
          priorityOf e.logicalChannels i < priorityOf e.logicalChannels j →
          pendingOf s'.channels j < pendingOf s.channels j → pendingOf s'.channels i = 0) := by
  obtain ⟨s', hs, hremaining', helements, hout, hin⟩ := turns_spec (s := s) secondTurn_serves
    (nodup_activeLcids e.logicalChannels) hsome
  have hrequests : (activeLcids e.logicalChannels).map (requestOf (·.pendingData) s.channels) =
      (afterFirst g (demandsOf e)).map (·.2) := by
    rw [← hafter, List.map_map]
    rfl
  have hle := le_of_mem_zip_servedAll (g := s.remaining) (activeLcids e.logicalChannels)
    (requestOf (·.pendingData) s.channels)
  rw [hrequests, hremaining] at hremaining' helements hin hle
  refine ⟨s', hs, hremaining', helements, hout, ?_⟩
  have hlen : (servedAll (grantAfterFirst g (demandsOf e))
      ((afterFirst g (demandsOf e)).map (·.2))).length =
      (activeLcids e.logicalChannels).length := by
    rw [length_servedAll, ← hafter, List.length_map, List.length_map]
  have hzip := map_eq_zipWith hlen
    (f := fun l => (((priorityOf e.logicalChannels l).toNat, pendingOf s.channels l),
      pendingOf s.channels l - pendingOf s'.channels l))
    (h := fun l n => (((priorityOf e.logicalChannels l).toNat, pendingOf s.channels l),
        n)) fun x hx => by
      have hfit : x.2 ≤ pendingOf s.channels x.1 := hle x hx
      rw [(hin x hx).2, Nat.sub_sub_self hfit]
  have hfits : ∀ l ∈ activeLcids e.logicalChannels, pendingOf s'.channels l ≤
      pendingOf s.channels l := fun l hl => by
    obtain ⟨x, hx, rfl⟩ := exists_mem_zip hlen.ge hl
    rw [(hin x hx).2]
    exact Nat.sub_le _ _
  rw [← hafter] at hzip
  rw [InOrder, ← hafter, List.zip, List.zipWith_map_left, ← hzip, List.pairwise_map,
    pairwise_iff_of_sorted (sorted_activeLcids e.logicalChannels) fun a b hba hlt =>
      absurd hlt (not_lt.2 hba)]
  refine forall₂_congr fun i hi => forall₂_congr fun j hj => ?_
  have hi' := hfits i hi
  rw [UInt8.lt_iff_toNat_lt]
  dsimp only
  refine imp_congr_right fun _ => ?_
  omega

/-- The PDU of the SDUs and the padding behind them. -/
def UlState.pdu (s : UlState) : MacPdu :=
  ⟨s.elements ++ if 0 < s.remaining then [.padding (s.remaining - 1)] else []⟩

theorem bytesOf_pdu (s : UlState) (l : Lcid) :
    s.pdu.bytesOf l = (⟨s.elements⟩ : MacPdu).bytesOf l := by
  rw [UlState.pdu, bytesOf_append]
  split_ifs <;> rfl

theorem fromBytes_pdu (hes : ∀ e ∈ s.elements, e.IsSdu) :
    (∃ pdu', MacPdu.fromBytes s.pdu.toBytes = .ok pdu' ∧ pdu'.sdus = s.pdu.sdus) ↔
      ∀ e ∈ s.elements, e.sduLength ≤ 65535 := by
  constructor
  · rintro ⟨pdu', hread, hsame⟩
    by_contra hlong
    push Not at hlong
    rw [MacPdu.fromBytes, Checked.bind_eq_ok] at hread
    obtain ⟨es', hread, hpdu⟩ := hread
    obtain rfl := Checked.ok.inj hpdu
    exact sdus_ne_of_long hes hlong (Nat.zero_le _) rfl hread hsame
  · intro hshort
    have hform : s.pdu.WellFormed := by
      refine ⟨?_, ?_⟩
      · refine List.forall_mem_append.2 ⟨fun e he => (hes e he).inRange (hshort e he), ?_⟩
        split_ifs <;> simp [MacPduElement.InRange]
      · rw [UlState.pdu]
        split_ifs
        · rw [List.dropLast_concat]
          exact fun e he => (hes e he).forms.1
        · rw [List.append_nil]
          exact fun e he => (hes e (List.mem_of_mem_dropLast he)).forms.1
    have hlong : s.pdu.elements.any (·.isLongBsr) = false := by
      refine List.any_eq_false.2 (List.forall_mem_append.2
        ⟨fun e he => by simp [(hes e he).forms.2], ?_⟩)
      split_ifs <;> simp [MacPduElement.isLongBsr]
    refine ⟨s.pdu, ?_, rfl⟩
    rw [MacPdu.fromBytes_toBytes hform, hlong]
    rfl

theorem length_pdu (hes : ∀ e ∈ s.elements, e.IsSdu)
    (hshort : ∀ e ∈ s.elements, e.sduLength ≤ 65535) :
    s.pdu.toBytes.length = total (s.elements.map (·.sduLength)) + s.remaining := by
  rw [UlState.pdu, MacPdu.toBytes, List.flatMap_append, List.length_append,
    length_flatMap_toBytes hes hshort]
  split_ifs with hpos
  · have hbytes : (MacPduElement.padding (s.remaining - 1)).toBytes.length =
        1 + (s.remaining - 1) := by
      rw [MacPduElement.toBytes, List.length_append, MacPduElement.payloadBytes,
        List.length_replicate]
      rfl
    rw [List.flatMap_singleton, hbytes]
    omega
  · rw [List.flatMap_nil, List.length_nil]
    omega

/-- A grant is filled exactly when the lengths fit and the second phase serves in order. -/
theorem fillsGrant_iff_lengthsFit (hidle : ∃ h ∈ e.harqProcesses, h.state = .idle) :
    FillsGrant e g ↔
    LengthsFit g (demandsOf e) ∧ InOrder (grantAfterFirst g (demandsOf e)) (afterFirst g
      (demandsOf e)) := by
  obtain ⟨s, hs, hremaining, helements, hout, hsome, hafter⟩ := firstPhase_spec e g
  obtain ⟨s', hs', hremaining', helements', hout', horder⟩ :=
    secondPhase_spec hremaining hsome hafter
  obtain ⟨i, hi⟩ : ∃ i, e.harqProcesses.findIdx? (·.state = .idle) = some i := by
    rw [← Option.isSome_iff_exists, List.findIdx?_isSome, List.any_eq_true]
    simpa using hidle
  obtain ⟨hlt, -, -⟩ := List.findIdx?_eq_some_iff_getElem.1 hi
  have hcall : assembleUlPdu e g =
      .ok (⟨e.harqProcesses.modify i (·.newTransmission s'.pdu.toBytes), s'.channels⟩,
        some (i, s'.pdu)) := by
    rw [assembleUlPdu, hi]
    dsimp only
    rw [hs, Checked.ok_bind, hs', Checked.ok_bind]
    rfl
  have hprocess : (e.harqProcesses.modify i (·.newTransmission s'.pdu.toBytes))[i]? =
      some (e.harqProcesses[i].newTransmission s'.pdu.toBytes) := by
    rw [List.getElem?_modify_eq, List.getElem?_eq_getElem hlt]
    rfl
  -- the bytes of the channels, and the SDUs
  have hbytes := turns_bytes firstTurn_serves firstTurn_none
    (fun lc => min_le_left lc.pendingData (pbrAllow lc)) hs
  have hbytes' := turns_bytes secondTurn_serves secondTurn_none (fun _ => le_rfl) hs'
  have hes : ∀ e ∈ s'.elements, e.IsSdu := hbytes'.2 (hbytes.2 (by simp))
  have hsent (l) :
      pendingOf s'.channels l + s'.pdu.bytesOf l = pendingOf e.logicalChannels l := by
    rw [bytesOf_pdu]
    exact congrFun (hbytes'.1.trans hbytes.1) l
  -- the lengths
  have hlengths := sduLength_sduOf 0xAA
    ((activeLcids e.logicalChannels).zip (servedAll g ((demandsOf e).map (·.want))))
  have hlengths' := sduLength_sduOf 0xBB ((activeLcids e.logicalChannels).zip
    (servedAll (grantAfterFirst g (demandsOf e)) ((afterFirst g (demandsOf e)).map (·.2))))
  rw [List.map_snd_zip (by simp [demandsOf])] at hlengths
  rw [List.map_snd_zip (by simp [← hafter])] at hlengths'
  have hfit : LengthsFit g (demandsOf e) ↔ ∀ e ∈ s'.elements, e.sduLength ≤ 65535 := by
    rw [helements', helements, List.forall_mem_append, hlengths.2, hlengths'.2, LengthsFit]
  have htotal : total (s'.elements.map (·.sduLength)) + s'.remaining = g := by
    have hfirst := unspentAll_add_total g ((demandsOf e).map (·.want))
    have hsecond := unspentAll_add_total (grantAfterFirst g (demandsOf e))
      ((afterFirst g (demandsOf e)).map (·.2))
    rw [← hremaining'] at hsecond
    rw [helements', helements, List.map_append, total_append, hlengths.1, hlengths'.1]
    rw [grantAfterFirst] at hsecond ⊢
    omega
  have hrange : (∀ i ∈ activeLcids e.logicalChannels, ∀ j ∈ activeLcids e.logicalChannels,
      priorityOf e.logicalChannels i < priorityOf e.logicalChannels j →
        pendingOf s'.channels j < pendingOf s.channels j → pendingOf s'.channels i = 0) ↔
      ∀ i j, priorityOf e.logicalChannels i < priorityOf e.logicalChannels j →
        pendingOf s'.channels j < pendingOf s.channels j → pendingOf s'.channels i = 0 := by
    refine ⟨fun h i j hprio hserved => ?_, fun h i _ j _ => h i j⟩
    by_cases hj : j ∈ activeLcids e.logicalChannels
    · by_cases hinactive : i ∈ activeLcids e.logicalChannels
      · exact h i hinactive j hj hprio hserved
      · have hpending := mt mem_activeLcids.2 hinactive
        have := hsent i
        omega
    · rw [pendingOf, pendingOf, hout' j hj] at hserved
      exact absurd hserved (lt_irrefl _)
  rw [horder, hrange, hfit, ← fromBytes_pdu hes]
  constructor
  · rintro ⟨t, e', harqIdx, h, pdu, tb, ht, hcall', hh, htb, hlength, hread, -, hserved⟩
    obtain rfl := Checked.ok.inj (hs.symm.trans ht)
    obtain ⟨rfl, hpdu⟩ := Prod.mk.inj (Checked.ok.inj (hcall.symm.trans hcall'))
    obtain ⟨rfl, rfl⟩ := Prod.mk.inj (Option.some.inj hpdu)
    obtain rfl := Option.some.inj (hprocess.symm.trans hh)
    obtain rfl := Option.some.inj htb
    exact ⟨hread, hserved⟩
  · rintro ⟨hread, hserved⟩
    have hshort := (fromBytes_pdu hes).1 hread
    exact ⟨s, _, i, _, s'.pdu, _, hs, hcall, hprocess, rfl, (length_pdu hes hshort).trans htotal,
      hread, hsent, hserved⟩

/-- The requests of both phases, the first one met in full. -/
def requests (ds : List Demand) : List ℕ := ds.map (·.want) ++ ds.map (·.more)

/-- The conditions on a grant and the requests: lengths that sixteen bits hold, and no request
passed over for its length by three bytes that go to one of a lower priority. -/
def Fits (g : ℕ) (ds : List Demand) : Prop :=
  Short g (requests ds) ∧ ¬ StarvedAfterFull g ds ∧ ¬ StarvedAfterStuck g ds

/-- With an idle process a grant that thirty-two bits hold with a subheader is filled exactly when
it fits the requests; a larger one is filled when it is ample. -/
theorem fillsGrant_iff (hidle : ∃ h ∈ e.harqProcesses, h.state = .idle) (g : ℕ) :
    (g < 2 ^ 32 + 2 → (FillsGrant e g ↔ Fits g (demandsOf e))) ∧
      (Ample g (requests (demandsOf e)) → FillsGrant e g) := by
  rw [fillsGrant_iff_lengthsFit hidle]
  refine ⟨fun hg => ?_, fills_of_ample⟩
  rw [lengthsFit_iff hg, inOrder_afterFirst_iff hg]
  rfl

end phases

/-- A channel with a long packet, one of a lower priority with a byte, and buckets that allow
nothing. -/
def twoChannels : MacEntity where
  harqProcesses := [⟨0, .idle, 0, 4, false, 0, none⟩]
  logicalChannels := fun l => if l.1 = 1 then some ⟨1, 0, 300⟩ else if l.1 = 2 then
    some ⟨2, 0, 1⟩ else none

theorem demandsOf_twoChannels : demandsOf twoChannels = [⟨1, 300, 0⟩, ⟨2, 1, 0⟩] := by
  decide +kernel

theorem idle_twoChannels : ∃ h ∈ twoChannels.harqProcesses, h.state = .idle :=
  ⟨_, List.mem_singleton_self _, rfl⟩

theorem fillsGrant_thousand : FillsGrant twoChannels 1000 := by
  refine (fillsGrant_iff idle_twoChannels 1000).2 ?_
  have hrequests : requests (demandsOf twoChannels) = [0, 0, 300, 1] := by
    rw [demandsOf_twoChannels]
    rfl
  have hnil : Ample (1000 - cost 0 - cost 0 - cost 300 - cost 1) [] := fun pre q post h => by
    simp at h
  rw [hrequests, ample_cons, ample_cons, ample_cons, ample_cons]
  exact ⟨by decide, by decide, by decide, by decide, hnil⟩

/-- Three bytes go to the lower priority: the subheader of the long packet leaves nothing of
them. -/
theorem grant_of_three_starves : (∃ h ∈ twoChannels.harqProcesses, h.state = .idle) ∧
    ¬ FillsGrant twoChannels 3 := by
  refine ⟨idle_twoChannels, fun h => ?_⟩
  rw [fillsGrant_iff_lengthsFit idle_twoChannels, demandsOf_twoChannels] at h
  have hstarved : ¬ InOrder 3 [(1, 300), (2, 1)] := by
    unfold InOrder
    decide
  exact hstarved h.2

end ToyTcpip.Mac
