import ToyTcpip.Icmpv6.FullAdvertisement

/-! The builder of Router Advertisements of `icmpv6.rs`, and the options it writes read back. -/
namespace ToyTcpip

open Checked (index slice index_of_drop drop_succ_of_drop slice_of_drop)

namespace RouterPreference

def raFlags : RouterPreference → UInt8
  | .high => 0x08
  | .medium => 0x00
  | .low => 0x18

@[simp] theorem fromRaFlags_raFlags (p : RouterPreference) : fromRaFlags p.raFlags = p := by
  cases p <;> rfl

@[simp] theorem fromRioFlags_raFlags (p : RouterPreference) : fromRioFlags p.raFlags = some p := by
  cases p <;> rfl

end RouterPreference

/-! ### The options -/

def sourceLinkLayerBytes (mac : MacAddress) : List UInt8 :=
  [ndpOptSrcLinkLayerAddr, 1] ++ mac.octets

def mtuBytes (mtu : ℕ) : List UInt8 := [ndpOptMtu, 1, 0, 0] ++ toBeBytes32 mtu

def prefixFlags (onLink autonomous : Bool) : UInt8 :=
  (if onLink then 0x80 else 0) ||| (if autonomous then 0x40 else 0)

def PrefixInformationOption.bytes (p : PrefixInformationOption) : List UInt8 :=
  [ndpOptPrefixInformation, 4, UInt8.ofNat p.prefixLength, prefixFlags p.onLink p.autonomous] ++
    (toBeBytes32 p.validLifetime ++ (toBeBytes32 p.preferredLifetime ++ (toBeBytes32 0 ++
      (p.address.mask p.prefixLength).octets)))

/-- The shortest length of a route option, in units of eight bytes. -/
def RouteInformationOption.lengthUnits (r : RouteInformationOption) : ℕ :=
  if r.prefixLength = 0 then 1 else if r.prefixLength ≤ 64 then 2 else 3

def RouteInformationOption.bytes (r : RouteInformationOption) : List UInt8 :=
  [ndpOptRouteInformation, UInt8.ofNat r.lengthUnits, UInt8.ofNat r.prefixLength,
    r.preference.raFlags] ++
    (toBeBytes32 r.routeLifetime ++ r.address.octets.take ((r.lengthUnits - 1) * 8))

def RdnssOption.bytes (r : RdnssOption) : List UInt8 :=
  [ndpOptRdnss, UInt8.ofNat (1 + r.servers.length * 2), 0, 0] ++
    (toBeBytes32 r.lifetime ++ r.servers.flatMap Ipv6Address.octets)

/-- Zeros up to a multiple of eight. -/
def padNames (names : List UInt8) : List UInt8 :=
  names ++ List.replicate ((8 - names.length % 8) % 8) 0

def DnsslOption.nameBuf (d : DnsslOption) : List UInt8 :=
  padNames (d.searchList.flatMap encodeQname)

def DnsslOption.bytes (d : DnsslOption) : List UInt8 :=
  [ndpOptDnssl, UInt8.ofNat ((8 + d.nameBuf.length) / 8), 0, 0] ++
    (toBeBytes32 d.lifetime ++ d.nameBuf)

/-- What an advertisement is built from. -/
structure AdvertFields where
  currentHopLimit : UInt8
  routerLifetime : UInt16
  preference : RouterPreference
  prefixes : List PrefixInformationOption
  routes : List RouteInformationOption
  mtu : Option UInt32
  rdnss : List RdnssOption
  dnssl : List DnsslOption
  sourceMac : Option MacAddress

namespace AdvertFields

def header (f : AdvertFields) : List UInt8 :=
  [f.currentHopLimit, f.preference.raFlags] ++
    (toBeBytes16 f.routerLifetime.toNat ++ (toBeBytes32 0 ++ toBeBytes32 0))

def options (f : AdvertFields) : List UInt8 :=
  f.sourceMac.toList.flatMap sourceLinkLayerBytes ++
    (f.mtu.toList.flatMap (fun mtu => mtuBytes mtu.toNat) ++
      (f.prefixes.flatMap PrefixInformationOption.bytes ++
        (f.routes.flatMap RouteInformationOption.bytes ++
          (f.rdnss.flatMap RdnssOption.bytes ++ f.dnssl.flatMap DnsslOption.bytes))))

def buildRouterAdvertisementFull (srcIp dstIp : Ipv6Address) (f : AdvertFields) : List UInt8 :=
  Icmpv6Packet.build srcIp dstIp icmpv6TypeRouterAdvert (f.header ++ f.options)

end AdvertFields

/-! ### Options that the loop reads one after the other -/

namespace FullRouterAdvertisement

/-- The loop goes over these bytes, wherever they stand, and does `f` to the advertisement. -/
def Consumes (bytes : List UInt8) (f : FullRouterAdvertisement → FullRouterAdvertisement) : Prop :=
  ∀ payload ra offset post, offset ≤ payload.length → payload.drop offset = bytes ++ post →
    readOptions payload ra offset = readOptions payload (f ra) (offset + bytes.length)

variable {bytes bytes' tail : List UInt8} {f g : FullRouterAdvertisement → FullRouterAdvertisement}
  {optionType : UInt8}

theorem Consumes.nil : Consumes [] id := fun _ _ _ _ _ _ => rfl

theorem Consumes.append (hf : Consumes bytes f) (hg : Consumes bytes' g) :
    Consumes (bytes ++ bytes') (g ∘ f) := by
  intro payload ra offset post hle hdrop
  have htotal := congrArg List.length hdrop
  rw [List.length_drop, List.length_append, List.length_append] at htotal
  have hrest : payload.drop (offset + bytes.length) = bytes' ++ post := by
    rw [← List.drop_drop, hdrop, List.append_assoc, List.drop_left]
  rw [hf payload ra offset (bytes' ++ post) hle (by rw [hdrop, List.append_assoc]),
    hg payload (f ra) (offset + bytes.length) post (by omega) hrest, List.length_append,
    Nat.add_assoc]
  rfl

/-- A well-framed option. -/
theorem consumes_of_readOption (units : UInt8) (hbytes : bytes = optionType :: units :: tail)
    (hunits : units ≠ 0) (hlen : bytes.length = units.toNat * 8)
    (hread : ∀ ra : FullRouterAdvertisement,
      ra.readOption optionType units.toNat bytes = .ok (f ra)) : Consumes bytes f := by
  intro payload ra offset post hle hdrop
  have htotal := congrArg List.length hdrop
  rw [List.length_drop, List.length_append] at htotal
  have hpos := units_pos hunits
  have hfirst : payload.drop offset = optionType :: (units :: tail ++ post) := by
    rw [hdrop, hbytes]
    rfl
  have hsecond : payload.drop (offset + 1) = units :: (tail ++ post) := drop_succ_of_drop hfirst
  have hslice : (slice payload offset (offset + units.toNat * 8) : Checked Unit (List UInt8)) =
      .ok bytes := by
    rw [← hlen]
    exact slice_of_drop hle hdrop
  rw [readOptions, if_pos (by omega), if_neg (by omega), index_of_drop hfirst, Checked.ok_bind,
    index_of_drop hsecond, Checked.ok_bind, if_neg hunits, if_neg (by omega), hslice,
    Checked.ok_bind, hread, Checked.ok_bind, hlen]

/-- One option after the other, where each one adds to the advertisement what it stands for. -/
theorem Consumes.flatMap {α β : Type} {enc : α → List UInt8} {l : List α} (dec : α → β)
    (add : FullRouterAdvertisement → List β → FullRouterAdvertisement)
    (hnil : ∀ ra, add ra [] = ra) (happend : ∀ ra xs ys, add (add ra xs) ys = add ra (xs ++ ys))
    (h : ∀ a ∈ l, Consumes (enc a) fun ra => add ra [dec a]) :
    Consumes (l.flatMap enc) fun ra => add ra (l.map dec) := by
  induction l with
  | nil =>
    have hid : (fun ra => add ra (([] : List α).map dec)) = id := funext hnil
    rw [hid]
    exact .nil
  | cons a rest ih =>
    have hboth := (h a List.mem_cons_self).append (ih fun b hb => h b (List.mem_cons_of_mem a hb))
    have heq : (fun ra => add ra ((a :: rest).map dec)) =
        (fun ra => add ra (rest.map dec)) ∘ fun ra => add ra [dec a] := by
      funext ra
      simp only [Function.comp, happend, List.map_cons, List.singleton_append]
    rw [heq, List.flatMap_cons]
    exact hboth

end FullRouterAdvertisement

end ToyTcpip

/-! ### Router Advertisements that are built and parsed again. -/
namespace ToyTcpip

open Checked (index slice)

variable {data post : List UInt8} {i n : ℕ}

theorem checkedLong_of_drop (h : data.drop i = toBeBytes32 n ++ post) (hn : n < 2 ^ 32) :
    checkedLong data i = .ok n := by
  have hlen := congrArg List.length h
  have hfour : (toBeBytes32 n).length = 4 := rfl
  rw [List.length_drop, List.length_append, hfour] at hlen
  rw [checkedLong_eq (by omega), longAt_of_drop h hn]

theorem checkedLong_of_drop_eq (h : data.drop i = toBeBytes32 n) (hn : n < 2 ^ 32) :
    checkedLong data i = .ok n :=
  checkedLong_of_drop (h.trans (List.append_nil _).symm) hn

theorem ipv6At_of_drop {ip : Ipv6Address} (hle : i ≤ data.length)
    (h : data.drop i = ip.octets ++ post) : ipv6At data i = ip := by
  have hread := ipv6At_octets ip (data.take i) post
  rwa [← h, List.take_append_drop, List.length_take_of_le hle] at hread

theorem checkedAddress_of_drop {ip : Ipv6Address} (hle : i ≤ data.length)
    (h : data.drop i = ip.octets ++ post) : checkedAddress data i = .ok ip := by
  have hlen := congrArg List.length h
  rw [List.length_drop, List.length_append, Ipv6Address.length_octets] at hlen
  rw [checkedAddress_eq (by omega), ipv6At_of_drop hle h]

theorem checkedAddress_of_drop_eq {ip : Ipv6Address} (hle : i ≤ data.length)
    (h : data.drop i = ip.octets) : checkedAddress data i = .ok ip :=
  checkedAddress_of_drop hle (h.trans (List.append_nil _).symm)

theorem length_flatMap_octets (servers : List Ipv6Address) :
    (servers.flatMap Ipv6Address.octets).length = 16 * servers.length := by
  induction servers with
  | nil => rfl
  | cons ip rest ih =>
    rw [List.flatMap_cons, List.length_append, ih, Ipv6Address.length_octets, List.length_cons]
    omega

theorem checkedAddresses_of_drop {servers : List Ipv6Address} (hle : i ≤ data.length)
    (h : data.drop i = servers.flatMap Ipv6Address.octets) :
    checkedAddresses data i servers.length = .ok servers := by
  induction servers generalizing i with
  | nil => rfl
  | cons ip rest ih =>
    rw [List.flatMap_cons] at h
    have hlen := congrArg List.length h
    rw [List.length_drop, List.length_append, Ipv6Address.length_octets] at hlen
    have hrest : data.drop (i + 16) = rest.flatMap Ipv6Address.octets := by
      rw [← List.drop_drop, h, List.drop_left' ip.length_octets]
    rw [List.length_cons, checkedAddresses, checkedAddress_of_drop hle h, Checked.ok_bind,
      ih (by omega) hrest, Checked.ok_bind]

/-- The bytes of an address that a shorter option carries are all that a prefix needs. -/
theorem mask_paddedAddressAt {ip : Ipv6Address} {k len : ℕ} (hk : k ≤ 16)
    (h : data.drop i = ip.octets.take k) (hlen : len ≤ 8 * k) :
    (paddedAddressAt data i k).mask len = ip.mask len := by
  have hbyte : ∀ j (hj : j < 16), j < k → byteAt data (i + j) = ip.bytes[j] := by
    intro j hj hlt
    have hget : (data.drop i)[j]? = some ip.bytes[j] := by
      rw [h, List.getElem?_take_of_lt hlt]
      simp [Ipv6Address.octets, hj]
    rw [List.getElem?_drop] at hget
    rw [byteAt, List.getD_eq_getElem?_getD, hget, Option.getD_some]
  simp only [Ipv6Address.mask, Ipv6Address.mk.injEq, paddedAddressAt]
  ext j hj
  simp only [Vector.getElem_ofFn, Fin.getElem_fin]
  split_ifs with h₁ h₂ h₃ h₄
  · rw [hbyte j hj h₂]
  · omega
  · rw [hbyte j hj h₄]
  · omega
  · rfl

/-! ### Well-formed options -/

structure PrefixInformationOption.WellFormed (p : PrefixInformationOption) : Prop where
  length_le : p.prefixLength ≤ 128
  preferred_le : p.preferredLifetime ≤ p.validLifetime
  valid_lt : p.validLifetime < 2 ^ 32

structure RouteInformationOption.WellFormed (r : RouteInformationOption) : Prop where
  length_le : r.prefixLength ≤ 128
  lifetime_lt : r.routeLifetime < 2 ^ 32

structure RdnssOption.WellFormed (r : RdnssOption) : Prop where
  lifetime_lt : r.lifetime < 2 ^ 32
  some_server : 1 ≤ r.servers.length
  few_servers : r.servers.length ≤ 127

/-- At least one name, and all of them in an option, whose length is at most 255 units. -/
structure DnsslOption.WellFormed (d : DnsslOption) : Prop where
  lifetime_lt : d.lifetime < 2 ^ 32
  some_name : d.searchList ≠ []
  names : ∀ name ∈ d.searchList, WellFormedName name
  fits : (d.searchList.flatMap encodeQname).length ≤ 254 * 8

/-- Without the bits after the prefix. -/
def PrefixInformationOption.masked (p : PrefixInformationOption) : PrefixInformationOption :=
  { p with address := p.address.mask p.prefixLength }

def RouteInformationOption.masked (r : RouteInformationOption) : RouteInformationOption :=
  { r with address := r.address.mask r.prefixLength }

def DnsslOption.canonical (d : DnsslOption) : DnsslOption :=
  { d with searchList := d.searchList.map canonicalName }

namespace FullRouterAdvertisement

theorem consumes_sourceLinkLayer (mac : MacAddress) : Consumes (sourceLinkLayerBytes mac) id :=
  consumes_of_readOption 1 rfl (by decide) (by simp [sourceLinkLayerBytes, MacAddress.octets])
    fun _ => rfl

theorem consumes_mtu (mtu : UInt32) :
    Consumes (mtuBytes mtu.toNat) fun ra => { ra with mtu := some mtu.toNat } := by
  refine consumes_of_readOption 1 rfl (by decide) rfl fun ra => ?_
  have hlong : checkedLong (mtuBytes mtu.toNat) 4 = .ok mtu.toNat :=
    checkedLong_of_drop_eq rfl mtu.toNat_lt
  have hlen : (mtuBytes mtu.toNat).length = 8 := rfl
  rw [readOption, if_neg (by decide), if_pos rfl, readMtu, if_pos hlen, hlong, Checked.ok_bind]

theorem toNat_ofNat_of_le {len : ℕ} (h : len ≤ 255) : (UInt8.ofNat len).toNat = len := by
  rw [UInt8.toNat_ofNat']
  omega

/-- The fields of a prefix option where they were written. -/
theorem read_prefixBytes {p : PrefixInformationOption} (h : p.WellFormed) :
    checkedLong p.bytes 4 = .ok p.validLifetime ∧ checkedLong p.bytes 8 = .ok p.preferredLifetime ∧
      checkedAddress p.bytes 16 = .ok (p.address.mask p.prefixLength) := by
  have hlen : p.bytes.length = 32 := by simp [PrefixInformationOption.bytes, toBeBytes32]
  have hpreferred := lt_of_le_of_lt h.preferred_le h.valid_lt
  have hdrop : p.bytes.drop 4 = toBeBytes32 p.validLifetime ++ (toBeBytes32 p.preferredLifetime ++
      (toBeBytes32 0 ++ (p.address.mask p.prefixLength).octets)) := rfl
  have hdrop' : p.bytes.drop 8 = toBeBytes32 p.preferredLifetime ++
      (toBeBytes32 0 ++ (p.address.mask p.prefixLength).octets) := by
    rw [show 8 = 4 + 4 from rfl, ← List.drop_drop, hdrop]
    rfl
  have hdrop'' : p.bytes.drop 16 = (p.address.mask p.prefixLength).octets := by
    rw [show 16 = 8 + 8 from rfl, ← List.drop_drop, hdrop']
    rfl
  exact ⟨checkedLong_of_drop hdrop h.valid_lt, checkedLong_of_drop hdrop' hpreferred,
    checkedAddress_of_drop_eq (by omega) hdrop''⟩

theorem new_prefixFlags {p : PrefixInformationOption} (h : p.WellFormed) :
    PrefixInformationOption.new (p.address.mask p.prefixLength) p.prefixLength
      (prefixFlags p.onLink p.autonomous &&& 0x80 ≠ 0)
        (prefixFlags p.onLink p.autonomous &&& 0x40 ≠ 0)
      p.validLifetime p.preferredLifetime = p.masked := by
  have hflags : ∀ a b : Bool, (prefixFlags a b &&& 0x80 ≠ 0 ↔ a = true) ∧
      (prefixFlags a b &&& 0x40 ≠ 0 ↔ b = true) := by decide
  simp only [PrefixInformationOption.new, PrefixInformationOption.masked,
    Nat.min_eq_left h.length_le, Nat.min_eq_left h.preferred_le, Ipv6Address.mask_mask,
    (hflags _ _).1, (hflags _ _).2, Bool.decide_eq_true]

theorem consumes_prefix {p : PrefixInformationOption} (h : p.WellFormed) :
    Consumes p.bytes fun ra => { ra with prefixes := ra.prefixes ++ [p.masked] } := by
  have hle := h.length_le
  have hpreferred := h.preferred_le
  have hbits := @toNat_ofNat_of_le p.prefixLength (by omega)
  have hlen : p.bytes.length = 32 := by simp [PrefixInformationOption.bytes, toBeBytes32]
  obtain ⟨hvalid, hpref, haddress⟩ := read_prefixBytes h
  have hbyte : (index p.bytes 2 : Checked Unit UInt8) = .ok (UInt8.ofNat p.prefixLength) := rfl
  have hflag : (index p.bytes 3 : Checked Unit UInt8) =
      .ok (prefixFlags p.onLink p.autonomous) := rfl
  refine consumes_of_readOption 4 rfl (by decide) hlen fun ra => ?_
  rw [readOption, if_pos rfl, readPrefix, if_neg (not_not.mpr hlen), hbyte, Checked.ok_bind, hbits,
    if_neg (by omega), hflag, Checked.ok_bind, hvalid, Checked.ok_bind, hpref, Checked.ok_bind,
    if_neg (by omega), haddress, Checked.ok_bind, new_prefixFlags h]

theorem routeLengthValid_lengthUnits {r : RouteInformationOption} (h : r.WellFormed) :
    RouterAdvertisement.routeLengthValid r.prefixLength r.lengthUnits = true := by
  have hle := h.length_le
  unfold RouterAdvertisement.routeLengthValid RouteInformationOption.lengthUnits
  split_ifs <;> simp

theorem consumes_route {r : RouteInformationOption} (h : r.WellFormed) :
    Consumes r.bytes fun ra => { ra with routes := ra.routes ++ [r.masked] } := by
  have hle := h.length_le
  have hbits := @toNat_ofNat_of_le r.prefixLength (by omega)
  have hrange : 1 ≤ r.lengthUnits ∧ r.lengthUnits ≤ 3 ∧
      r.prefixLength ≤ 8 * ((r.lengthUnits - 1) * 8) := by
    unfold RouteInformationOption.lengthUnits
    split_ifs <;> omega
  have hunits := @toNat_ofNat_of_le r.lengthUnits (by omega)
  have hlen : r.bytes.length = r.lengthUnits * 8 := by
    simp [RouteInformationOption.bytes, toBeBytes32]
    omega
  refine consumes_of_readOption (UInt8.ofNat r.lengthUnits) rfl ?_ (by rw [hunits, hlen])
    fun ra => ?_
  · intro hzero
    rw [hzero] at hunits
    simp at hunits
    omega
  have hlong : checkedLong r.bytes 4 = .ok r.routeLifetime := checkedLong_of_drop rfl h.lifetime_lt
  have hcopied := @copiedPrefix_eq r.bytes (by omega) (by omega)
  have hmask := @mask_paddedAddressAt r.bytes 8 r.address ((r.lengthUnits - 1) * 8) r.prefixLength
    (by omega) rfl hrange.2.2
  have hbyte : (index r.bytes 2 : Checked Unit UInt8) = .ok (UInt8.ofNat r.prefixLength) := rfl
  have hflag : (index r.bytes 3 : Checked Unit UInt8) = .ok r.preference.raFlags := rfl
  rw [readOption, if_neg (by decide), if_neg (by decide), if_pos rfl, hunits, readRoute, hbyte,
    Checked.ok_bind, hbits, if_pos (routeLengthValid_lengthUnits h), hflag, Checked.ok_bind]
  simp only [RouterPreference.fromRioFlags_raFlags]
  rw [hlong, Checked.ok_bind, hcopied, Checked.ok_bind,
    show r.bytes.length - 8 = (r.lengthUnits - 1) * 8 by omega, RouteInformationOption.new]
  simp only [Nat.min_eq_left hle, hmask]
  rfl

theorem consumes_rdnss {r : RdnssOption} (h : r.WellFormed) :
    Consumes r.bytes fun ra => { ra with rdnss := ra.rdnss ++ [r] } := by
  have hsome := h.some_server
  have hfew := h.few_servers
  have hunits := @toNat_ofNat_of_le (1 + r.servers.length * 2) (by omega)
  have hlen : r.bytes.length = (1 + r.servers.length * 2) * 8 := by
    simp only [RdnssOption.bytes, toBeBytes32, List.length_append, List.length_cons,
      List.length_nil, length_flatMap_octets]
    omega
  refine consumes_of_readOption (UInt8.ofNat (1 + r.servers.length * 2)) rfl ?_
    (by rw [hunits, hlen]) fun ra => ?_
  · intro hzero
    rw [hzero] at hunits
    simp at hunits
    omega
  have hlong : checkedLong r.bytes 4 = .ok r.lifetime := checkedLong_of_drop rfl h.lifetime_lt
  have hservers : checkedAddresses r.bytes 8 r.servers.length = .ok r.servers :=
    checkedAddresses_of_drop (by omega) rfl
  rw [readOption, if_neg (by decide), if_neg (by decide), if_neg (by decide), if_pos rfl, hunits,
    readRdnss, if_pos (by omega), hlong, Checked.ok_bind,
    show (1 + r.servers.length * 2 - 1) / 2 = r.servers.length by omega, hservers, Checked.ok_bind]

theorem length_padNames (names : List UInt8) :
    (padNames names).length % 8 = 0 ∧ names.length ≤ (padNames names).length ∧
      (padNames names).length ≤ names.length + 7 := by
  simp only [padNames, List.length_append, List.length_replicate]
  omega

theorem consumes_dnssl {d : DnsslOption} (h : d.WellFormed) :
    Consumes d.bytes fun ra => { ra with dnssl := ra.dnssl ++ [d.canonical] } := by
  obtain ⟨hmod, hge, hle⟩ := length_padNames (d.searchList.flatMap encodeQname)
  change d.nameBuf.length % 8 = 0 at hmod
  change _ ≤ d.nameBuf.length at hge
  change d.nameBuf.length ≤ _ at hle
  have hfits := h.fits
  have hpos : 0 < (d.searchList.flatMap encodeQname).length := by
    obtain ⟨name, rest, hlist⟩ := List.exists_cons_of_ne_nil h.some_name
    rw [hlist, List.flatMap_cons, List.length_append, encodeQname, List.length_append]
    simp
  have hunits := @toNat_ofNat_of_le ((8 + d.nameBuf.length) / 8) (by omega)
  have hlen : d.bytes.length = (8 + d.nameBuf.length) / 8 * 8 := by
    simp only [DnsslOption.bytes, toBeBytes32, List.length_append, List.length_cons,
      List.length_nil]
    omega
  refine consumes_of_readOption (UInt8.ofNat ((8 + d.nameBuf.length) / 8)) rfl ?_
    (by rw [hunits, hlen]) fun ra => ?_
  · intro hzero
    rw [hzero] at hunits
    simp at hunits
  have hlong : checkedLong d.bytes 4 = .ok d.lifetime := checkedLong_of_drop rfl h.lifetime_lt
  have hnames : searchNames d.bytes 8 = .ok (d.searchList.map canonicalName) :=
    searchNames_of_drop h.names (by omega) rfl
  rw [readOption, if_neg (by decide), if_neg (by decide), if_neg (by decide), if_neg (by decide),
    if_pos rfl, hunits, readDnssl, if_pos (by omega), hlong, Checked.ok_bind, hnames,
    Checked.ok_bind]
  rfl

end FullRouterAdvertisement

/-! ### The checksum of a message that was built -/

theorem wordSum_le_half (data : List UInt8) : wordSum data ≤ 65535 * ((data.length + 1) / 2) := by
  fun_induction wordSum data with
  | case1 => simp
  | case2 a =>
    have := beWord_lt a 0
    simp
    omega
  | case3 a b rest ih =>
    have := beWord_lt a b
    simp only [List.length_cons]
    omega

/-- A checksum that is written where it was computed as zero makes the sum come out even. -/
theorem computeChecksum_filled {pre body : List UInt8} (heven : pre.length % 2 = 0)
    (hpos : 0 < wordSum pre) (hlen : pre.length + 2 + body.length ≤ 130000) :
    computeChecksum (pre ++ (toBeBytes16 (computeChecksum (pre ++ (toBeBytes16 0 ++ body))) ++
      body)) =
      0 := by
  have hword : ∀ n < 65536, wordSum (pre ++ (toBeBytes16 n ++ body)) =
      wordSum pre + (n + wordSum body) := by
    intro n hn
    rw [wordSum_append _ _ heven, toBeBytes16, List.cons_append, List.cons_append, List.nil_append,
      wordSum, beWord_toBeBytes16 hn]
  have hpre := wordSum_le_half pre
  have hbody := wordSum_le_half body
  have hsum : wordSum pre + wordSum body + 65535 < 2 ^ 32 := by omega
  have hraw : ∀ n < 65536, rawChecksum (pre ++ (toBeBytes16 n ++ body)) =
      wordSum pre + wordSum body + n := by
    intro n hn
    rw [rawChecksum, rawChecksumFrom_eq (by decide), hword n hn, Nat.mod_eq_of_lt (by omega)]
    omega
  have hlt := finalizeChecksum_lt (wordSum pre + wordSum body)
  have hfold := @foldCarry_add_finalizeChecksum (wordSum pre + wordSum body) (by omega) hsum
  have hcsum : computeChecksum (pre ++ (toBeBytes16 0 ++ body)) =
      finalizeChecksum (wordSum pre + wordSum body) := by
    rw [computeChecksum, hraw 0 (by decide), Nat.add_zero]
  rw [hcsum, computeChecksum, hraw _ hlt, finalizeChecksum, hfold]
  rfl

namespace Icmpv6Packet

/-- The fields of a message, where its checksum is known to be good. -/
def ofBytes (data : List UInt8) : Icmpv6Packet :=
  ⟨byteAt data 0, byteAt data 1, wordAt data 2, data.drop 4⟩

/-- Every message that is built for a packet passes its own checksum. -/
theorem parse_build {srcIp dstIp : Ipv6Address} {msgType : UInt8} {body : List UInt8}
    (hlen : (build srcIp dstIp msgType body).length ≤ 65535) :
    parse srcIp dstIp (build srcIp dstIp msgType body) =
      .ok (ofBytes (build srcIp dstIp msgType body)) := by
  have hlength := length_build srcIp dstIp msgType body
  have hpseudo : ∀ csum, srcIp.octets ++ dstIp.octets ++
      toBeBytes32 ([msgType, 0] ++ toBeBytes16 csum ++ body).length ++
        [0, 0, 0, nextHeaderIcmpv6] ++
        ([msgType, 0] ++ toBeBytes16 csum ++ body) =
      (srcIp.octets ++ (dstIp.octets ++ (toBeBytes32 (4 + body.length) ++
        ([0, 0, 0, nextHeaderIcmpv6] ++ [msgType, 0])))) ++ (toBeBytes16 csum ++ body) := by
    intro csum
    have hl : ([msgType, 0] ++ toBeBytes16 csum ++ body).length = 4 + body.length := by
      simp [toBeBytes16]
      omega
    rw [hl]
    simp only [List.append_assoc]
  have heven : (srcIp.octets ++ (dstIp.octets ++ (toBeBytes32 (4 + body.length) ++
      ([0, 0, 0, nextHeaderIcmpv6] ++ [msgType, 0])))).length = 42 := by
    simp [toBeBytes32]
  have hpos : 0 < wordSum (srcIp.octets ++ (dstIp.octets ++ (toBeBytes32 (4 + body.length) ++
      ([0, 0, 0, nextHeaderIcmpv6] ++ [msgType, 0])))) := by
    rw [wordSum_append _ _ (by simp), wordSum_append _ _ (by simp),
      wordSum_append _ _ (by simp [toBeBytes32]), wordSum_append _ _ (by simp)]
    have hlast : wordSum [0, 0, 0, nextHeaderIcmpv6] = 58 := by decide
    omega
  have hfilled := @computeChecksum_filled _ body (by rw [heven]) hpos (by omega)
  have hzero : computeIpv6TransportChecksum srcIp dstIp nextHeaderIcmpv6
      (build srcIp dstIp msgType body) = 0 := by
    rw [← hfilled, computeIpv6TransportChecksum, build, hpseudo]
    congr 4
    rw [computeIpv6TransportChecksum]
    have hbefore := hpseudo 0
    rw [← hbefore]
    rfl
  rw [parse, if_neg (by omega), if_neg (not_not.mpr hzero)]
  rfl

end Icmpv6Packet

/-! ### The round trip -/

namespace AdvertFields

/-- Every option is well formed. -/
structure WellFormed (f : AdvertFields) : Prop where
  prefixes : ∀ p ∈ f.prefixes, p.WellFormed
  routes : ∀ r ∈ f.routes, r.WellFormed
  rdnss : ∀ r ∈ f.rdnss, r.WellFormed
  dnssl : ∀ d ∈ f.dnssl, d.WellFormed

/-- What is read from it: the same, with the bits after a prefix cleared and the names in canonical
form. The builder leaves the other fields of the header at zero. -/
def advertised (f : AdvertFields) : FullRouterAdvertisement where
  currentHopLimit := f.currentHopLimit
  preference := f.preference
  routerLifetime := f.routerLifetime.toNat
  reachableTime := 0
  retransTimer := 0
  mtu := f.mtu.map UInt32.toNat
  prefixes := f.prefixes.map PrefixInformationOption.masked
  routes := f.routes.map RouteInformationOption.masked
  managed := false
  otherConfig := false
  rdnss := f.rdnss
  dnssl := f.dnssl.map DnsslOption.canonical

open FullRouterAdvertisement

variable {f : AdvertFields}

theorem consumes_sourceMac (sourceMac : Option MacAddress) :
    Consumes (sourceMac.toList.flatMap sourceLinkLayerBytes) id := by
  cases sourceMac with
  | none => exact .nil
  | some mac =>
    rw [Option.toList_some, List.flatMap_singleton]
    exact consumes_sourceLinkLayer mac

theorem consumes_mtus (mtu : Option UInt32) :
    Consumes (mtu.toList.flatMap fun mtu => mtuBytes mtu.toNat) fun ra =>
      { ra with mtu := (mtu.map UInt32.toNat).or ra.mtu } := by
  cases mtu with
  | none => exact .nil
  | some mtu =>
    rw [Option.toList_some, List.flatMap_singleton]
    exact consumes_mtu mtu

/-- The whole list of options. -/
theorem consumes_options (h : f.WellFormed) : Consumes f.options fun ra =>
    { ra with
      mtu := (f.mtu.map UInt32.toNat).or ra.mtu
      prefixes := ra.prefixes ++ f.prefixes.map PrefixInformationOption.masked
      routes := ra.routes ++ f.routes.map RouteInformationOption.masked
      rdnss := ra.rdnss ++ f.rdnss.map id
      dnssl := ra.dnssl ++ f.dnssl.map DnsslOption.canonical } := by
  have hprefixes := Consumes.flatMap PrefixInformationOption.masked
    (fun ra xs => ({ ra with prefixes := ra.prefixes ++ xs } : FullRouterAdvertisement))
    (fun _ => by simp) (fun _ _ _ => by simp) fun p hp => consumes_prefix (h.prefixes p hp)
  have hroutes := Consumes.flatMap RouteInformationOption.masked
    (fun ra xs => ({ ra with routes := ra.routes ++ xs } : FullRouterAdvertisement))
    (fun _ => by simp) (fun _ _ _ => by simp) fun r hr => consumes_route (h.routes r hr)
  have hrdnss := Consumes.flatMap id
    (fun ra xs => ({ ra with rdnss := ra.rdnss ++ xs } : FullRouterAdvertisement))
    (fun _ => by simp) (fun _ _ _ => by simp) fun r hr => consumes_rdnss (h.rdnss r hr)
  have hdnssl := Consumes.flatMap DnsslOption.canonical
    (fun ra xs => ({ ra with dnssl := ra.dnssl ++ xs } : FullRouterAdvertisement))
    (fun _ => by simp) (fun _ _ _ => by simp) fun d hd => consumes_dnssl (h.dnssl d hd)
  exact (consumes_sourceMac f.sourceMac).append ((consumes_mtus f.mtu).append
    (hprefixes.append (hroutes.append (hrdnss.append hdnssl))))

theorem ofBytes_build (srcIp dstIp : Ipv6Address) (f : AdvertFields) :
    (Icmpv6Packet.ofBytes (buildRouterAdvertisementFull srcIp dstIp f)).msgType =
        icmpv6TypeRouterAdvert ∧
      (Icmpv6Packet.ofBytes (buildRouterAdvertisementFull srcIp dstIp f)).code = 0 ∧
      (Icmpv6Packet.ofBytes (buildRouterAdvertisementFull srcIp dstIp f)).payload =
        f.header ++ f.options := ⟨rfl, rfl, rfl⟩

theorem parse_header (f : AdvertFields) {icmp : Icmpv6Packet}
    (htype : icmp.msgType = icmpv6TypeRouterAdvert) (hcode : icmp.code = 0)
    (hpayload : icmp.payload = f.header ++ f.options) : FullRouterAdvertisement.parse icmp =
      readOptions icmp.payload
        { currentHopLimit := f.currentHopLimit, preference := f.preference
          routerLifetime := f.routerLifetime.toNat, reachableTime := 0, retransTimer := 0
          mtu := none, prefixes := [], routes := [], managed := false, otherConfig := false
          rdnss := [], dnssl := [] } 12 := by
  have hheader : f.header.length = 12 := rfl
  have hlong : ¬ (icmp.msgType ≠ icmpv6TypeRouterAdvert ∨ icmp.code ≠ 0 ∨
      icmp.payload.length < 12) := by
    rw [htype, hcode, hpayload, List.length_append]
    simp
    omega
  have hhop : (index icmp.payload 0 : Checked Unit UInt8) = .ok f.currentHopLimit := by
    rw [hpayload]
    rfl
  have hflags : (index icmp.payload 1 : Checked Unit UInt8) = .ok f.preference.raFlags := by
    rw [hpayload]
    rfl
  have hlifetime : (slice icmp.payload 2 4 : Checked Unit (List UInt8)) =
      .ok (toBeBytes16 f.routerLifetime.toNat) := by
    have hdrop : icmp.payload.drop 2 = toBeBytes16 f.routerLifetime.toNat ++
        (toBeBytes32 0 ++ toBeBytes32 0 ++ f.options) := by
      rw [hpayload]
      rfl
    refine Checked.slice_of_drop ?_ hdrop
    rw [hpayload, List.length_append]
    omega
  have hword : wordAt (toBeBytes16 f.routerLifetime.toNat) 0 = f.routerLifetime.toNat := by
    have hread := wordAt_append [] [] f.routerLifetime.toNat_lt
    simpa using hread
  have hreachable : checkedLong icmp.payload 4 = .ok 0 := by
    refine @checkedLong_of_drop icmp.payload (toBeBytes32 0 ++ f.options) 4 0 ?_ (by decide)
    rw [hpayload]
    rfl
  have hretrans : checkedLong icmp.payload 8 = .ok 0 := by
    refine @checkedLong_of_drop icmp.payload f.options 8 0 ?_ (by decide)
    rw [hpayload]
    rfl
  have hmanaged : (decide (f.preference.raFlags &&& 0x80 ≠ 0),
      decide (f.preference.raFlags &&& 0x40 ≠ 0)) =
      (false, false) := by cases f.preference <;> rfl
  rw [FullRouterAdvertisement.parse, if_neg hlong, hhop, Checked.ok_bind, hflags, Checked.ok_bind,
    hlifetime, Checked.ok_bind, hreachable, Checked.ok_bind, hretrans, Checked.ok_bind, hword,
    RouterPreference.fromRaFlags_raFlags, (Prod.mk.inj hmanaged).1, (Prod.mk.inj hmanaged).2]

theorem parse_advertised (h : f.WellFormed) (srcIp dstIp : Ipv6Address) :
    FullRouterAdvertisement.parse (.ofBytes (buildRouterAdvertisementFull srcIp dstIp f)) =
      .ok f.advertised := by
  obtain ⟨htype, hcode, hpayload⟩ := ofBytes_build srcIp dstIp f
  generalize Icmpv6Packet.ofBytes (buildRouterAdvertisementFull srcIp dstIp f) =
    icmp at htype hcode hpayload ⊢
  have hheader : f.header.length = 12 := rfl
  have hlen : icmp.payload.length = 12 + f.options.length := by
    rw [hpayload, List.length_append, hheader]
  have hdrop : icmp.payload.drop 12 = f.options ++ [] := by
    rw [hpayload, List.drop_left' hheader, List.append_nil]
  rw [parse_header f htype hcode hpayload, consumes_options h _ _ _ _ (by omega) hdrop, readOptions,
    if_neg (by omega)]
  simp [advertised]

end AdvertFields

/-- What the builder writes is parsed to the same advertisement, and as far as it fits a packet its
checksum is accepted. On any message at all the parser reads nothing outside of it. -/
theorem advertisement_roundtrip :
    (∀ (srcIp dstIp : Ipv6Address) (f : AdvertFields), f.WellFormed →
      let bytes := AdvertFields.buildRouterAdvertisementFull srcIp dstIp f
      FullRouterAdvertisement.parse (.ofBytes bytes) = .ok f.advertised ∧
        (bytes.length ≤ 65535 → Icmpv6Packet.parse srcIp dstIp bytes = .ok (.ofBytes bytes))) ∧
    (∀ name, "" ∉ splitDots name → canonicalName name = name) ∧
    (∀ icmp, Checked.Safe (FullRouterAdvertisement.parse icmp)) ∧
    ∀ data offset, Checked.Safe (decodeQname data offset) := by
  refine ⟨fun srcIp dstIp f h => ⟨AdvertFields.parse_advertised h srcIp dstIp, fun hlen => ?_⟩,
    fun name => canonicalName_eq, FullRouterAdvertisement.safe_parse, safe_decodeQname⟩
  exact Icmpv6Packet.parse_build hlen

/-- One option of every kind. -/
def sampleFields : AdvertFields where
  currentHopLimit := 64
  routerLifetime := 1800
  preference := .high
  prefixes := [⟨64, true, true, 7200, 3600, .loopback⟩]
  routes := [⟨48, .low, 600, .loopback⟩, ⟨0, .medium, 600, .unspecified⟩]
  mtu := some 1500
  rdnss := [⟨600, [.loopback, .unspecified]⟩]
  dnssl := [⟨600, ["example.com", "lab"]⟩]
  sourceMac := some ⟨#v[2, 0, 0, 0, 0, 1]⟩

theorem sampleFields_wellFormed : sampleFields.WellFormed := by
  have hname : WellFormedName "example.com" :=
    ⟨⟨"example", by decide +kernel, by decide⟩, by decide +kernel⟩
  have hlab : WellFormedName "lab" := ⟨⟨"lab", by decide +kernel, by decide⟩, by decide +kernel⟩
  refine ⟨?_, ?_, ?_, ?_⟩ <;> simp only [sampleFields, List.mem_cons, List.not_mem_nil, or_false]
  · rintro _ rfl
    exact ⟨by decide, by decide, by decide⟩
  · rintro _ (rfl | rfl)
    · exact ⟨by decide, by decide⟩
    · exact ⟨by decide, by decide⟩
  · rintro _ rfl
    exact ⟨by decide, by decide, by decide⟩
  · rintro _ rfl
    refine ⟨by decide, by decide, ?_, by decide +kernel⟩
    simp only [List.mem_cons, List.not_mem_nil, or_false]
    rintro _ (rfl | rfl)
    · exact hname
    · exact hlab

theorem advertisement_roundtrip_sample :
    FullRouterAdvertisement.parse (.ofBytes (AdvertFields.buildRouterAdvertisementFull .loopback
      .linkLocalAllNodes sampleFields)) = .ok sampleFields.advertised :=
  (advertisement_roundtrip.1 .loopback .linkLocalAllNodes sampleFields sampleFields_wellFormed).1

end ToyTcpip
