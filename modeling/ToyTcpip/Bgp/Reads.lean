import ToyTcpip.Bgp.Parse

/-! No decoder reads outside its input. -/
namespace ToyTcpip.Bgp

open Checked (Safe safe_ite safe_ok safe_error safe_index safe_slice index slice)

theorem safe_decodeList (subcode : UInt8) (data : List UInt8) :
    Safe (Ipv4Prefix.decodeList subcode data) := by
  fun_induction Ipv4Prefix.decodeList subcode data with
  | case1 => exact safe_ok _
  | case2 => exact safe_error _
  | case3 => exact safe_error _
  | case4 bits rest _ octets hlen ih =>
    refine (safe_slice (by omega) (by omega)).bind fun addr _ => ?_
    exact ih.bind fun out _ => safe_ok _

theorem safe_decodeAsns (fourOctet : Bool) (data : List UInt8) (count off : ℕ)
    (h : off + count * asnWidth fourOctet ≤ data.length) :
    Safe (decodeAsns fourOctet data count off) := by
  induction count generalizing off with
  | zero => exact safe_ok _
  | succ count ih =>
    cases fourOctet with
    | false =>
      simp only [asnWidth, Bool.false_eq_true, if_false] at h ih
      simp only [decodeAsns, Bool.false_eq_true, if_false, Checked.bind_def]
      refine (safe_index (by omega)).bind fun a _ => ?_
      refine (safe_index (by omega)).bind fun b _ => ?_
      exact (ih (off + 2) (by omega)).bind fun asns _ => safe_ok _
    | true =>
      simp only [asnWidth, if_true] at h ih
      simp only [decodeAsns, if_true, Checked.bind_def]
      refine (safe_index (by omega)).bind fun a _ => ?_
      refine (safe_index (by omega)).bind fun b _ => ?_
      refine (safe_index (by omega)).bind fun c _ => ?_
      refine (safe_index (by omega)).bind fun d _ => ?_
      exact (ih (off + 4) (by omega)).bind fun asns _ => safe_ok _

theorem safe_decodeKind (code : UInt8) : Safe (AsPathSegmentKind.decode code) := by
  unfold AsPathSegmentKind.decode
  split <;> simp

theorem safe_decodeSegments (fourOctet : Bool) (data : List UInt8) :
    Safe (decodeSegments fourOctet data) := by
  induction data using decodeSegments.induct fourOctet with
  | case1 =>
    rw [decodeSegments]
    exact safe_ok _
  | case2 code rest hshort =>
    rw [decodeSegments, if_pos hshort]
    exact safe_error _
  | case3 code rest hlong ih =>
    rw [decodeSegments, if_neg hlong]
    refine (safe_decodeKind code).bind fun kind _ => ?_
    refine (safe_index (by omega)).bind fun countByte _ => ?_
    refine safe_ite (fun _ => safe_error _) fun _ =>
      safe_ite (fun _ => safe_error _) fun hstop => ?_
    refine (safe_decodeAsns _ _ _ _ (by omega)).bind fun asns _ => ?_
    exact (ih countByte).bind fun segments _ => safe_ok _

theorem safe_decodeWidth (data : List UInt8) (fourOctet : Bool) :
    Safe (AsPath.decodeWidth data fourOctet) :=
  (safe_decodeSegments fourOctet data).bind fun _ _ => safe_ok _

theorem safe_mpReach (value : List UInt8) : Safe (MpReachNlri.parseValue value) := by
  refine safe_ite (fun _ => safe_error _) fun hlen => ?_
  simp only [Checked.bind_def]
  refine (safe_index (by omega)).bind fun a _ => ?_
  refine (safe_index (by omega)).bind fun b _ => ?_
  refine (safe_index (by omega)).bind fun safi _ => ?_
  refine (safe_index (by omega)).bind fun nhLen _ => ?_
  refine safe_ite (fun _ => safe_error _) fun hend => ?_
  refine (safe_slice (by omega) (by omega)).bind fun nlri _ => ?_
  refine safe_ite (fun _ => safe_error _) fun _ => ?_
  exact (safe_slice (by omega) (by omega)).bind fun nextHop _ => safe_ok _

theorem safe_mpUnreach (value : List UInt8) : Safe (MpUnreachNlri.parseValue value) := by
  refine safe_ite (fun _ => safe_error _) fun hlen => ?_
  refine (safe_slice (by omega) (by omega)).bind fun nlri _ => ?_
  refine safe_ite (fun _ => safe_error _) fun _ => ?_
  simp only [Checked.bind_def]
  refine (safe_index (by omega)).bind fun a _ => ?_
  refine (safe_index (by omega)).bind fun b _ => ?_
  exact (safe_index (by omega)).bind fun safi _ => safe_ok _

theorem safe_readAddress {value : List UInt8} (h : value.length = 4) :
    Safe (readAddress value) := by
  simp only [readAddress, Checked.bind_def]
  refine (safe_index (by omega)).bind fun a _ => ?_
  refine (safe_index (by omega)).bind fun b _ => ?_
  refine (safe_index (by omega)).bind fun c _ => ?_
  exact (safe_index (by omega)).bind fun d _ => safe_ok _

theorem safe_readLong {value : List UInt8} (h : value.length = 4) : Safe (readLong value) := by
  simp only [readLong, Checked.bind_def]
  refine (safe_index (by omega)).bind fun a _ => ?_
  refine (safe_index (by omega)).bind fun b _ => ?_
  refine (safe_index (by omega)).bind fun c _ => ?_
  exact (safe_index (by omega)).bind fun d _ => safe_ok _

theorem safe_parseOrigin (flags : UInt8) (value : List UInt8) : Safe (parseOrigin flags value) := by
  refine safe_ite (fun _ => safe_error _) fun _ => safe_ite (fun _ => safe_error _) fun hlen => ?_
  refine (safe_index (by omega)).bind fun v _ => ?_
  split
  · exact safe_ok _
  · exact safe_error _

theorem safe_parseNextHop (flags : UInt8) (value : List UInt8) :
    Safe (parseNextHop flags value) := by
  refine safe_ite (fun _ => safe_error _) fun _ => safe_ite (fun _ => safe_error _) fun hlen => ?_
  exact safe_readAddress (by omega)

theorem safe_parseLong (name : String) (value : List UInt8) : Safe (parseLong name value) :=
  safe_ite (fun _ => safe_error _) fun hlen => safe_readLong (by omega)

theorem safe_parseOriginatorId (flags : UInt8) (value : List UInt8) :
    Safe (parseOriginatorId flags value) := by
  refine safe_ite (fun _ => safe_error _) fun _ => safe_ite (fun _ => safe_error _) fun hlen => ?_
  exact safe_readAddress (by omega)

theorem safe_parseClusterList (flags : UInt8) (value : List UInt8) :
    Safe (parseClusterList flags value) := by
  refine safe_ite (fun _ => safe_error _) fun _ => safe_ite (fun _ => safe_error _) fun _ => ?_
  exact safe_ite (fun _ => safe_error _) fun _ => safe_ok _

theorem safe_parseAttributeValue (fourOctetAs : Bool) (flags typeCode : UInt8) (value : List UInt8)
    (parsed : ParsedAttributes) :
    Safe (parseAttributeValue fourOctetAs flags typeCode value parsed) := by
  unfold parseAttributeValue
  split
  · exact (safe_parseOrigin _ _).bind fun _ _ => safe_ok _
  · exact (safe_ite (fun _ => safe_error _) fun _ => safe_decodeWidth _ _).bind fun _ _ => safe_ok _
  · exact (safe_ite (fun _ => safe_error _) fun _ => safe_decodeWidth _ _).bind fun _ _ => safe_ok _
  · exact (safe_parseNextHop _ _).bind fun _ _ => safe_ok _
  · exact (safe_parseLong _ _).bind fun _ _ => safe_ok _
  · exact (safe_parseLong _ _).bind fun _ _ => safe_ok _
  · exact (safe_ite (fun _ => safe_error _) fun _ => safe_ok _).bind fun _ _ => safe_ok _
  · exact (safe_ite (fun _ => safe_error _) fun _ => safe_ok _).bind fun _ _ => safe_ok _
  · exact (safe_parseOriginatorId _ _).bind fun _ _ => safe_ok _
  · exact (safe_parseClusterList _ _).bind fun _ _ => safe_ok _
  · exact (safe_ite (fun _ => safe_error _) fun _ => safe_mpReach value).bind fun _ _ => safe_ok _
  · exact (safe_ite (fun _ => safe_error _) fun _ => safe_mpUnreach value).bind fun _ _ => safe_ok _
  · exact safe_ite (fun _ => safe_error _) fun _ => safe_ok _

theorem safe_attributeHeader (data : List UInt8) : Safe (attributeHeader data) := by
  refine safe_ite (fun _ => safe_error _) fun hlen => ?_
  simp only [Checked.bind_def]
  refine (safe_index (by omega)).bind fun flags _ => ?_
  refine (safe_index (by omega)).bind fun typeCode _ => ?_
  split
  · refine safe_ite (fun _ => safe_error _) fun hext => ?_
    refine (safe_index (by omega)).bind fun hi _ => ?_
    exact (safe_index (by omega)).bind fun lo _ => safe_ok _
  · refine safe_ite (fun _ => safe_error _) fun hshort => ?_
    exact (safe_index (by omega)).bind fun len _ => safe_ok _

theorem safe_parseAttributesFrom (fourOctetAs : Bool) (data seen : List UInt8)
    (parsed : ParsedAttributes) : Safe (parseAttributesFrom fourOctetAs data seen parsed) := by
  induction data, seen, parsed using parseAttributesFrom.induct with
  | case1 =>
    rw [parseAttributesFrom]
    exact safe_ok _
  | case2 b tail seen parsed ih =>
    rw [parseAttributesFrom]
    refine (safe_attributeHeader _).bind fun h _ => ?_
    refine safe_ite (fun _ => safe_error _) fun hend => safe_ite (fun _ => safe_error _) fun _ => ?_
    refine (safe_slice (by omega) (by omega)).bind fun value _ => ?_
    refine (safe_parseAttributeValue _ _ _ _ _).bind fun parsed' _ => ?_
    exact ih h parsed'

theorem safe_demandAttribute {α : Type} (found : Option α) (required : Bool) (default : α)
    (what : String) : Safe (demandAttribute found required default what) := by
  unfold demandAttribute
  split
  · exact safe_ok _
  · exact safe_ite (fun _ => safe_error _) fun _ => safe_ok _

theorem safe_intoAttributes (p : ParsedAttributes) (hasIpv4Nlri announcesMp : Bool) :
    Safe (p.intoAttributes hasIpv4Nlri announcesMp) := by
  simp only [ParsedAttributes.intoAttributes, Checked.bind_def]
  refine (safe_demandAttribute _ _ _ _).bind fun origin _ => ?_
  refine (safe_demandAttribute _ _ _ _).bind fun asPath _ => ?_
  exact (safe_demandAttribute _ _ _ _).bind fun nextHop _ => safe_ok _

theorem safe_updateBody (body : List UInt8) (fourOctetAs : Bool) :
    Safe (BgpUpdateMessage.parseBodyWidth body fourOctetAs) := by
  refine safe_ite (fun _ => safe_error _) fun hlen => ?_
  simp only [Checked.bind_def]
  refine (safe_index (by omega)).bind fun a _ => ?_
  refine (safe_index (by omega)).bind fun b _ => ?_
  refine safe_ite (fun _ => safe_error _) fun hwithdrawn => ?_
  refine (safe_slice (by omega) (by omega)).bind fun withdrawnBytes _ => ?_
  refine (safe_decodeList _ _).bind fun withdrawn _ => ?_
  refine (safe_index (by omega)).bind fun hi _ => ?_
  refine (safe_index (by omega)).bind fun lo _ => ?_
  refine safe_ite (fun _ => safe_error _) fun hattr => ?_
  refine (safe_slice (by omega) (by omega)).bind fun attrBytes _ => ?_
  refine (safe_parseAttributesFrom _ _ _ _).bind fun parsed _ => ?_
  refine (safe_slice (by omega) (by omega)).bind fun nlriBytes _ => ?_
  refine (safe_decodeList _ _).bind fun nlri _ => ?_
  refine safe_ite (fun _ => ?_) fun _ => safe_ok _
  exact (safe_intoAttributes _ _ _).bind fun attributes _ => safe_ok _

theorem safe_openBody (body : List UInt8) : Safe (BgpOpenMessage.parseBody body) := by
  refine safe_ite (fun _ => safe_error _) fun hlen => ?_
  simp only [Checked.bind_def]
  refine (safe_index (by omega)).bind fun optLen _ => ?_
  refine safe_ite (fun _ => safe_error _) fun hopt => ?_
  iterate 9 refine (safe_index (by omega)).bind fun _ _ => ?_
  exact (safe_slice (by omega) (by omega)).bind fun optParams _ => safe_ok _

theorem safe_routeRefreshBody (body : List UInt8) :
    Safe (BgpRouteRefreshMessage.parseBody body) := by
  refine safe_ite (fun _ => safe_error _) fun hlen => ?_
  simp only [Checked.bind_def]
  iterate 3 refine (safe_index (by omega)).bind fun _ _ => ?_
  exact (safe_index (by omega)).bind fun safi _ => safe_ok _

theorem safe_minMessageLen (msgType : UInt8) : Safe (minMessageLen msgType) := by
  unfold minMessageLen
  split <;> simp

theorem safe_parseBgpHeader (frame : List UInt8) : Safe (parseBgpHeader frame) := by
  refine safe_ite (fun _ => safe_error _) fun hlen => ?_
  simp only [bgpHeaderLen] at hlen
  simp only [Checked.bind_def]
  refine (safe_slice (by omega) (by omega)).bind fun marker _ => ?_
  refine safe_ite (fun _ => safe_error _) fun _ => ?_
  refine (safe_index (by omega)).bind fun hi _ => ?_
  refine (safe_index (by omega)).bind fun lo _ => ?_
  refine (safe_index (by omega)).bind fun msgType _ => ?_
  refine safe_ite (fun _ => safe_error _) fun hrange => ?_
  refine (safe_minMessageLen _).bind fun minLen _ => ?_
  refine safe_ite (fun _ => safe_error _) fun _ => safe_ite (fun _ => safe_error _) fun hexact => ?_
  exact (safe_slice (by omega) (by omega)).bind fun body _ => safe_ok _

/-- Whatever bytes arrive, a message or an error comes back. -/
theorem safe_parseWidth (frame : List UInt8) (fourOctetAs : Bool) :
    Safe (BgpPdu.parseWidth frame fourOctetAs) := by
  simp only [BgpPdu.parseWidth, Checked.bind_def]
  refine (safe_parseBgpHeader frame).bind fun ⟨msgType, body⟩ _ => ?_
  dsimp only
  split
  · exact (safe_openBody body).bind fun o _ => safe_ok _
  · exact (safe_updateBody body fourOctetAs).bind fun u _ => safe_ok _
  · refine safe_ite (fun _ => safe_error _) fun hlen => ?_
    refine (safe_index (by omega)).bind fun code _ => ?_
    refine (safe_index (by omega)).bind fun subcode _ => ?_
    exact (safe_slice (by omega) (by omega)).bind fun data _ => safe_ok _
  · exact safe_ite (fun _ => safe_error _) fun _ => safe_ok _
  · exact (safe_routeRefreshBody body).bind fun r _ => safe_ok _
  · exact safe_error _

end ToyTcpip.Bgp
