import ToyTcpip.Dhcpv6.Server

/-! DHCPv6 messages and identity associations are read as they were written. -/
namespace ToyTcpip.Dhcpv6

variable {data post : List UInt8} {o : Dhcpv6Option} {options : List Dhcpv6Option} {n : ℕ}

/-! ### Options -/

/-- The code and the length of an option fit their fields. -/
def Dhcpv6Option.Fits (o : Dhcpv6Option) : Prop := o.code < 2 ^ 16 ∧ o.data.length < 2 ^ 16

instance (o : Dhcpv6Option) : Decidable o.Fits := inferInstanceAs (Decidable (_ ∧ _))

/-- What a reader of options finds at the front. -/
theorem front_serialize (h : o.Fits) (post : List UInt8) :
    ¬ (o.serialize ++ post).length < 4 ∧ wordAt (o.serialize ++ post) 0 = o.code ∧
      wordAt (o.serialize ++ post) 2 = o.data.length ∧
      ¬ (o.serialize ++ post).length < 4 + o.data.length ∧
      ((o.serialize ++ post).drop 4).take o.data.length = o.data ∧
      (o.serialize ++ post).drop (4 + o.data.length) = post := by
  have hcode := wordAt_append [] (toBeBytes16 o.data.length ++ o.data ++ post) h.1
  have hlen := wordAt_append (toBeBytes16 o.code) (o.data ++ post) h.2
  have hdrop : (o.serialize ++ post).drop 4 = o.data ++ post := by
    simp [Dhcpv6Option.serialize, toBeBytes16]
  refine ⟨?_, ?_, ?_, ?_, ?_, ?_⟩
  · simp [Dhcpv6Option.serialize, toBeBytes16]
  · simpa [Dhcpv6Option.serialize] using hcode
  · simpa [Dhcpv6Option.serialize, toBeBytes16] using hlen
  · simp [Dhcpv6Option.serialize, toBeBytes16]
    omega
  · rw [hdrop, List.take_left]
  · rw [← List.drop_drop, hdrop, List.drop_left]

theorem parseOptions_flatMap (h : ∀ o ∈ options, o.Fits) :
    Dhcpv6Message.parseOptions (options.flatMap Dhcpv6Option.serialize) = .ok options := by
  induction options with
  | nil =>
    rw [Dhcpv6Message.parseOptions]
    rfl
  | cons o rest ih =>
    obtain ⟨hlong, hcode, hlen, hwhole, htake, hdrop⟩ :=
      front_serialize (h o List.mem_cons_self) (rest.flatMap Dhcpv6Option.serialize)
    rw [List.flatMap_cons, Dhcpv6Message.parseOptions, if_neg hlong, hlen, if_neg hwhole, hdrop,
      ih (fun o ho => h o (List.mem_cons_of_mem _ ho)), hcode, htake]
    rfl

theorem subOptions_flatMap (h : ∀ o ∈ options, o.Fits) :
    Dhcpv6Message.subOptions (options.flatMap Dhcpv6Option.serialize) = options := by
  induction options with
  | nil =>
    rw [Dhcpv6Message.subOptions]
    rfl
  | cons o rest ih =>
    obtain ⟨hlong, hcode, hlen, hwhole, htake, hdrop⟩ :=
      front_serialize (h o List.mem_cons_self) (rest.flatMap Dhcpv6Option.serialize)
    rw [List.flatMap_cons, Dhcpv6Message.subOptions, if_neg hlong, hlen, if_neg hwhole, hdrop,
      ih (fun o ho => h o (List.mem_cons_of_mem _ ho)), hcode, htake]

/-- A message whose fields and options fit. -/
def Dhcpv6Message.Fits (m : Dhcpv6Message) : Prop :=
  m.transactionId < 2 ^ 24 ∧ ∀ o ∈ m.options, o.Fits

theorem parse_serialize {m : Dhcpv6Message} (h : m.Fits) :
    Dhcpv6Message.parse m.serialize = .ok m := by
  obtain ⟨hid, hoptions⟩ := h
  have hdrop : m.serialize.drop 4 = m.options.flatMap Dhcpv6Option.serialize := by
    simp [Dhcpv6Message.serialize, toBeBytes32]
  have hlong : ¬ m.serialize.length < 4 := by
    simp [Dhcpv6Message.serialize, toBeBytes32]
  rw [Dhcpv6Message.parse, if_neg hlong, hdrop, parseOptions_flatMap hoptions]
  have htype : byteAt m.serialize 0 = m.msgType := by simp [Dhcpv6Message.serialize, byteAt]
  have hnumber : (byteAt m.serialize 1).toNat * 65536 + wordAt m.serialize 2 =
      m.transactionId := by
    simp [Dhcpv6Message.serialize, byteAt, wordAt, beWord, toBeBytes32]
    omega
  rw [htype, hnumber]
  rfl

/-! ### Identity associations -/

theorem ofOption_iaAddress {a : IaAddressOption} (hp : a.preferredLifetime < 2 ^ 32)
    (hv : a.validLifetime < 2 ^ 32) : IaAddressOption.ofOption a.toOption = some a := by
  have haddress := ipv6At_octets a.address [] (toBeBytes32 a.preferredLifetime ++
    toBeBytes32 a.validLifetime)
  have hpref := longAt_append a.address.octets (toBeBytes32 a.validLifetime) hp
  have hvalid := longAt_append (a.address.octets ++ toBeBytes32 a.preferredLifetime) [] hv
  simp only [List.nil_append, List.length_nil] at haddress
  simp only [Ipv6Address.length_octets] at hpref
  rw [show (a.address.octets ++ toBeBytes32 a.preferredLifetime).length = 20 by
    simp [toBeBytes32]] at hvalid
  simp only [List.append_nil, List.append_assoc] at hvalid
  rw [IaAddressOption.ofOption, if_pos (by simp [IaAddressOption.toOption, toBeBytes32])]
  simp only [IaAddressOption.toOption, List.append_assoc, haddress, hpref, hvalid]

theorem ofOption_iaPrefix {p : IaPrefixOption} (hp : p.preferredLifetime < 2 ^ 32)
    (hv : p.validLifetime < 2 ^ 32) : IaPrefixOption.ofOption p.toOption = some p := by
  have hpref := longAt_append [] (toBeBytes32 p.validLifetime ++ [p.prefixLen] ++
    p.address.octets) hp
  have hvalid := longAt_append (toBeBytes32 p.preferredLifetime) ([p.prefixLen] ++
    p.address.octets) hv
  have haddress := ipv6At_octets p.address (toBeBytes32 p.preferredLifetime ++
    toBeBytes32 p.validLifetime ++ [p.prefixLen]) []
  rw [show (toBeBytes32 p.preferredLifetime ++ toBeBytes32 p.validLifetime ++
    [p.prefixLen]).length = 9 by simp [toBeBytes32]] at haddress
  rw [show (toBeBytes32 p.preferredLifetime).length = 4 by simp [toBeBytes32]] at hvalid
  simp only [List.nil_append, List.length_nil, List.append_assoc] at hpref
  simp only [List.append_nil, List.append_assoc] at haddress
  have hlen : byteAt (toBeBytes32 p.preferredLifetime ++ (toBeBytes32 p.validLifetime ++
      ([p.prefixLen] ++ p.address.octets))) 8 = p.prefixLen := by
    simp [byteAt, toBeBytes32]
  rw [IaPrefixOption.ofOption, if_pos (by simp [IaPrefixOption.toOption, toBeBytes32])]
  simp only [IaPrefixOption.toOption, List.append_assoc, haddress, hpref, hvalid, hlen]

theorem longAt_iaHeader {iaid t1 t2 : ℕ} (hi : iaid < 2 ^ 32) (h1 : t1 < 2 ^ 32) (h2 : t2 < 2 ^ 32)
    (post : List UInt8) :
    longAt (iaHeader iaid t1 t2 ++ post) 0 = iaid ∧ longAt (iaHeader iaid t1 t2 ++ post) 4 = t1 ∧
      longAt (iaHeader iaid t1 t2 ++ post) 8 = t2 ∧
      (iaHeader iaid t1 t2 ++ post).drop 12 = post := by
  simp [iaHeader, longAt, wordAt, byteAt, beWord, toBeBytes32]
  omega

def IaNaOption.Fits (na : IaNaOption) : Prop :=
  na.iaid < 2 ^ 32 ∧ na.t1 < 2 ^ 32 ∧ na.t2 < 2 ^ 32 ∧
    ∀ a ∈ na.addresses, a.preferredLifetime < 2 ^ 32 ∧ a.validLifetime < 2 ^ 32

def IaPdOption.Fits (pd : IaPdOption) : Prop :=
  pd.iaid < 2 ^ 32 ∧ pd.t1 < 2 ^ 32 ∧ pd.t2 < 2 ^ 32 ∧
    ∀ p ∈ pd.prefixes, p.preferredLifetime < 2 ^ 32 ∧ p.validLifetime < 2 ^ 32

/-- Parts that are written as options are read as the same parts. -/
theorem filterMap_subOptions {α : Type} {f : α → Dhcpv6Option} {g : Dhcpv6Option → Option α}
    {l : List α} (hfits : ∀ a ∈ l, (f a).Fits) (hread : ∀ a ∈ l, g (f a) = some a) :
    (Dhcpv6Message.subOptions (l.flatMap fun a => (f a).serialize)).filterMap g = l := by
  have hmap : (l.flatMap fun a => (f a).serialize) =
      (l.map f).flatMap Dhcpv6Option.serialize := by
    rw [List.flatMap_map]
  rw [hmap, subOptions_flatMap (by simpa using hfits), List.filterMap_map]
  have hsome : ∀ a ∈ l, (g ∘ f) a = some a := hread
  rw [List.filterMap_congr hsome, List.filterMap_some]

variable {m : Dhcpv6Message}

theorem getIaNa_eq {na : IaNaOption} (h : na.Fits) (hfind : m.findIa optIaNa = some na.toOption) :
    m.getIaNa = some na := by
  obtain ⟨hi, h1, h2, haddresses⟩ := h
  obtain ⟨hiaid, ht1, ht2, hrest⟩ := longAt_iaHeader hi h1 h2 (na.addresses.flatMap fun a =>
    a.toOption.serialize)
  have hsub := filterMap_subOptions (f := IaAddressOption.toOption)
    (g := IaAddressOption.ofOption) (l := na.addresses)
    (fun a _ => by simp [IaAddressOption.toOption, Dhcpv6Option.Fits, toBeBytes32, optIaaddr])
    (fun a ha => ofOption_iaAddress (haddresses a ha).1 (haddresses a ha).2)
  rw [Dhcpv6Message.getIaNa, hfind]
  simp only [IaNaOption.toOption, Option.map_some, hiaid, ht1, ht2, hrest, hsub]

theorem getIaPd_eq {pd : IaPdOption} (h : pd.Fits) (hfind : m.findIa optIaPd = some pd.toOption) :
    m.getIaPd = some pd := by
  obtain ⟨hi, h1, h2, hprefixes⟩ := h
  obtain ⟨hiaid, ht1, ht2, hrest⟩ := longAt_iaHeader hi h1 h2 (pd.prefixes.flatMap fun p =>
    p.toOption.serialize)
  have hsub := filterMap_subOptions (f := IaPrefixOption.toOption)
    (g := IaPrefixOption.ofOption) (l := pd.prefixes)
    (fun p _ => by simp [IaPrefixOption.toOption, Dhcpv6Option.Fits, toBeBytes32, optIaprefix])
    (fun p hp => ofOption_iaPrefix (hprefixes p hp).1 (hprefixes p hp).2)
  rw [Dhcpv6Message.getIaPd, hfind]
  simp only [IaPdOption.toOption, Option.map_some, hiaid, ht1, ht2, hrest, hsub]

/-! ### What the server writes -/

/-- The association that the server writes for an address. -/
def leased (ip : Ipv6Address) : IaNaOption := ⟨1, 1800, 2880, [⟨ip, 3600, 7200⟩]⟩

def delegated (d : Ipv6Address × UInt8) : IaPdOption := ⟨2, 1800, 2880, [⟨3600, 7200, d.2, d.1⟩]⟩

/-- A message that gives a client an address, and a prefix or none. -/
structure Grants (m : Dhcpv6Message) (ip : Ipv6Address) (d : Option (Ipv6Address × UInt8)) :
    Prop where
  iaNa : m.getIaNa = some (leased ip)
  iaPd : m.getIaPd = d.map delegated

section server

variable {transactionId : ℕ} {clientDuid serverDuid : List UInt8} {ip : Ipv6Address}
  {d : Option (Ipv6Address × UInt8)} {dnsServers : List Ipv6Address} {searchList : List String}
  {rapidCommit : Bool}

theorem leased_fits (ip : Ipv6Address) : (leased ip).Fits := by
  simp [leased, IaNaOption.Fits]

theorem delegated_fits (d : Ipv6Address × UInt8) : (delegated d).Fits := by
  simp [delegated, IaPdOption.Fits]

theorem length_leased (ip : Ipv6Address) : (leased ip).toOption.data.length = 40 := by
  simp [leased, IaNaOption.toOption, iaHeader, IaAddressOption.toOption, Dhcpv6Option.serialize,
    toBeBytes32, toBeBytes16]

theorem length_delegated (d : Ipv6Address × UInt8) : (delegated d).toOption.data.length = 41 := by
  simp [delegated, IaPdOption.toOption, iaHeader, IaPrefixOption.toOption, Dhcpv6Option.serialize,
    toBeBytes32, toBeBytes16]

/-- The options about names follow those about the client. -/
def nameOptions (dnsServers : List Ipv6Address) (searchList : List String) : List Dhcpv6Option :=
  (if dnsServers ≠ [] then [⟨optDnsServers, dnsServers.flatMap Ipv6Address.octets⟩] else []) ++
    if searchList ≠ [] then [⟨optDnssl, dnsslBytes searchList⟩] else []

theorem code_nameOptions {o : Dhcpv6Option} (h : o ∈ nameOptions dnsServers searchList) :
    o.code = optDnsServers ∨ o.code = optDnssl := by
  simp only [nameOptions] at h
  split_ifs at h <;> simp at h <;> aesop

theorem options_buildAdvertiseFull :
    (Dhcpv6Message.buildAdvertiseFull transactionId clientDuid serverDuid (some ip) d dnsServers
      searchList).options = ⟨optClientid, clientDuid⟩ :: ⟨optServerid, serverDuid⟩ ::
        (leased ip).toOption :: ((d.map fun d => (delegated d).toOption).toList ++
          nameOptions dnsServers searchList) := by
  cases d with
  | none => rfl
  | some d => rfl

/-- Whatever follows the associations, they are found. -/
theorem grants_of_options {more : List Dhcpv6Option}
    (hoptions : m.options = ⟨optClientid, clientDuid⟩ :: ⟨optServerid, serverDuid⟩ ::
      (leased ip).toOption :: ((d.map fun d => (delegated d).toOption).toList ++ more))
    (hmore : ∀ o ∈ more, o.code ≠ optIaNa ∧ o.code ≠ optIaPd) : Grants m ip d := by
  have hcode : (leased ip).toOption.code = optIaNa := rfl
  constructor
  · apply getIaNa_eq (leased_fits ip)
    rw [Dhcpv6Message.findIa, hoptions, List.find?_cons_of_neg (by simp [optClientid, optIaNa]),
      List.find?_cons_of_neg (by simp [optServerid, optIaNa]),
      List.find?_cons_of_pos (by simp [hcode, length_leased])]
  · cases d with
    | none =>
      rw [Dhcpv6Message.getIaPd, Dhcpv6Message.findIa, hoptions, List.find?_eq_none.mpr]
      · rfl
      · intro o ho
        simp only [Option.map_none, Option.toList_none, List.nil_append, List.mem_cons] at ho
        rcases ho with rfl | rfl | rfl | ho
        · simp [optClientid, optIaPd]
        · simp [optServerid, optIaPd]
        · simp [hcode, optIaNa, optIaPd]
        · simp [(hmore o ho).2]
    | some d =>
      have hpd : (delegated d).toOption.code = optIaPd := rfl
      apply getIaPd_eq (delegated_fits d)
      rw [Dhcpv6Message.findIa, hoptions, List.find?_cons_of_neg (by simp [optClientid, optIaPd]),
        List.find?_cons_of_neg (by simp [optServerid, optIaPd]),
        List.find?_cons_of_neg (by simp [hcode, optIaNa, optIaPd]), Option.map_some,
        Option.toList_some, List.singleton_append,
        List.find?_cons_of_pos (by simp [hpd, length_delegated])]

theorem nameOptions_others {o : Dhcpv6Option} (h : o ∈ nameOptions dnsServers searchList) :
    o.code ≠ optIaNa ∧ o.code ≠ optIaPd := by
  rcases code_nameOptions h with hc | hc <;> simp [hc, optDnsServers, optDnssl, optIaNa, optIaPd]

theorem grants_buildAdvertiseFull : Grants (.buildAdvertiseFull transactionId clientDuid serverDuid
    (some ip) d dnsServers searchList) ip d :=
  grants_of_options options_buildAdvertiseFull fun _ ho => nameOptions_others ho

theorem grants_buildReply : Grants (.buildReply transactionId clientDuid serverDuid (some ip) d
    dnsServers searchList rapidCommit) ip d := by
  have hoptions : (Dhcpv6Message.buildReply transactionId clientDuid serverDuid (some ip) d
      dnsServers searchList rapidCommit).options = ⟨optClientid, clientDuid⟩ ::
        ⟨optServerid, serverDuid⟩ :: (leased ip).toOption ::
          ((d.map fun d => (delegated d).toOption).toList ++ (nameOptions dnsServers searchList ++
            if rapidCommit then [⟨optRapidCommit, []⟩] else [])) := by
    simp only [Dhcpv6Message.buildReply, options_buildAdvertiseFull, List.cons_append,
      List.append_assoc]
  refine grants_of_options hoptions fun o ho => ?_
  rcases List.mem_append.mp ho with ho | ho
  · exact nameOptions_others ho
  · split_ifs at ho
    · obtain rfl := List.mem_singleton.mp ho
      simp [optRapidCommit, optIaNa, optIaPd]
    · cases ho

theorem leased_toOption_fits (ip : Ipv6Address) : (leased ip).toOption.Fits := by
  refine ⟨by simp [leased, IaNaOption.toOption, optIaNa], ?_⟩
  rw [length_leased]
  omega

theorem delegated_toOption_fits (d : Ipv6Address × UInt8) : (delegated d).toOption.Fits := by
  refine ⟨by simp [delegated, IaPdOption.toOption, optIaPd], ?_⟩
  rw [length_delegated]
  omega

theorem fits_buildAdvertiseFull (hclient : clientDuid.length < 2 ^ 16)
    (hserver : serverDuid.length < 2 ^ 16)
    (hnames : ∀ o ∈ nameOptions dnsServers searchList, o.Fits) :
    (Dhcpv6Message.buildAdvertiseFull transactionId clientDuid serverDuid (some ip) d dnsServers
      searchList).Fits := by
  refine ⟨Nat.mod_lt _ (by omega), ?_⟩
  rw [options_buildAdvertiseFull]
  intro o ho
  simp only [List.mem_cons, List.mem_append, Option.mem_toList, Option.map_eq_some_iff] at ho
  rcases ho with rfl | rfl | rfl | ⟨d, -, rfl⟩ | ho
  · exact ⟨by simp [optClientid], hclient⟩
  · exact ⟨by simp [optServerid], hserver⟩
  · exact leased_toOption_fits ip
  · exact delegated_toOption_fits d
  · exact hnames o ho

theorem fits_buildReply (hclient : clientDuid.length < 2 ^ 16)
    (hserver : serverDuid.length < 2 ^ 16)
    (hnames : ∀ o ∈ nameOptions dnsServers searchList, o.Fits) :
    (Dhcpv6Message.buildReply transactionId clientDuid serverDuid (some ip) d dnsServers searchList
      rapidCommit).Fits := by
  refine ⟨Nat.mod_lt _ (by omega), ?_⟩
  intro o ho
  rcases List.mem_append.mp ho with ho | ho
  · exact (@fits_buildAdvertiseFull 0 _ _ _ _ _ _ hclient hserver hnames).2 o ho
  · split_ifs at ho
    · obtain rfl := List.mem_singleton.mp ho
      exact ⟨by simp [optRapidCommit], by simp⟩
    · cases ho

end server

end ToyTcpip.Dhcpv6
