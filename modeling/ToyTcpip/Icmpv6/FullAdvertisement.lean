import ToyTcpip.Icmpv6.RouterAdvertisement
import ToyTcpip.Icmpv6.SearchList

/-! Router Advertisements with all their options, every read of the parser checked. -/
namespace ToyTcpip

open Checked (index slice Safe safe_ok safe_error safe_ite safe_index safe_slice bind_eq_ok
  ite_error_eq_ok index_eq_ok slice_eq_ok)

def ndpOptRdnss : UInt8 := 25

def ndpOptDnssl : UInt8 := 31

structure RdnssOption where
  lifetime : ℕ
  servers : List Ipv6Address
  deriving DecidableEq, Repr

structure DnsslOption where
  lifetime : ℕ
  searchList : List String
  deriving DecidableEq, Repr

/-- What the host stack acts on, and the rest. -/
structure FullRouterAdvertisement extends RouterAdvertisement where
  managed : Bool
  otherConfig : Bool
  rdnss : List RdnssOption
  dnssl : List DnsslOption
  deriving DecidableEq, Repr

/-- `u32::from_be_bytes(option[i..i + 4])`. -/
def checkedLong (option : List UInt8) (i : ℕ) : Checked Unit ℕ :=
  (slice option i (i + 4)).bind fun bytes => .ok (longAt bytes 0)

/-- The address in `option[i..i + 16]`. -/
def checkedAddress (option : List UInt8) (i : ℕ) : Checked Unit Ipv6Address :=
  (slice option i (i + 16)).bind fun bytes => .ok (ipv6At bytes 0)

/-- The `n` addresses from `i` on. -/
def checkedAddresses (option : List UInt8) (i : ℕ) : ℕ → Checked Unit (List Ipv6Address)
  | 0 => .ok []
  | n + 1 =>
    (checkedAddress option i).bind fun address =>
      (checkedAddresses option (i + 16) n).bind fun rest => .ok (address :: rest)

/-- `prefix_bytes[..n].copy_from_slice(&option[8..])`, into sixteen zeros. -/
def copiedPrefix (option : List UInt8) (n : ℕ) : Checked Unit Ipv6Address :=
  (slice option 8 option.length).bind fun bytes =>
    if bytes.length ≠ n ∨ 16 < n then .panic else .ok (paddedAddressAt bytes 0 n)

namespace FullRouterAdvertisement

def readPrefix (ra : FullRouterAdvertisement) (option : List UInt8) :
    Checked Unit FullRouterAdvertisement :=
  if option.length ≠ 32 then .error ()
  else
    (index option 2).bind fun prefixLength =>
      if prefixLength.toNat > 128 then .error ()
      else
        (index option 3).bind fun flags =>
          (checkedLong option 4).bind fun validLifetime =>
            (checkedLong option 8).bind fun preferredLifetime =>
              if preferredLifetime > validLifetime then .ok ra
              else
                (checkedAddress option 16).bind fun address =>
                  .ok { ra with
                    prefixes := ra.prefixes ++ [.new address prefixLength.toNat (flags &&& 0x80 ≠ 0)
                      (flags &&& 0x40 ≠ 0) validLifetime preferredLifetime] }

def readMtu (ra : FullRouterAdvertisement) (option : List UInt8) :
    Checked Unit FullRouterAdvertisement :=
  if option.length = 8 then (checkedLong option 4).bind fun mtu => .ok { ra with mtu := some mtu }
  else .ok ra

def readRoute (ra : FullRouterAdvertisement) (units : ℕ) (option : List UInt8) :
    Checked Unit FullRouterAdvertisement :=
  (index option 2).bind fun prefixLength =>
    if RouterAdvertisement.routeLengthValid prefixLength.toNat units then
      (index option 3).bind fun flags =>
        match RouterPreference.fromRioFlags flags with
        | some preference =>
          (checkedLong option 4).bind fun routeLifetime =>
            (copiedPrefix option (option.length - 8)).bind fun address =>
              .ok { ra with
                routes := ra.routes ++ [.new address prefixLength.toNat preference routeLifetime] }
        | none => .ok ra
    else .ok ra

def readRdnss (ra : FullRouterAdvertisement) (units : ℕ) (option : List UInt8) :
    Checked Unit FullRouterAdvertisement :=
  if 3 ≤ units ∧ units % 2 = 1 then
    (checkedLong option 4).bind fun lifetime =>
      (checkedAddresses option 8 ((units - 1) / 2)).bind fun servers =>
        .ok { ra with rdnss := ra.rdnss ++ [⟨lifetime, servers⟩] }
  else .ok ra

def readDnssl (ra : FullRouterAdvertisement) (units : ℕ) (option : List UInt8) :
    Checked Unit FullRouterAdvertisement :=
  if 2 ≤ units then
    (checkedLong option 4).bind fun lifetime =>
      (searchNames option 8).bind fun searchList =>
        .ok { ra with dnssl := ra.dnssl ++ [⟨lifetime, searchList⟩] }
  else .ok ra

/-- One round of the loop, for the bytes of an option. -/
def readOption (ra : FullRouterAdvertisement) (optionType : UInt8) (units : ℕ)
    (option : List UInt8) : Checked Unit FullRouterAdvertisement :=
  if optionType = ndpOptPrefixInformation then ra.readPrefix option
  else if optionType = ndpOptMtu then ra.readMtu option
  else if optionType = ndpOptRouteInformation then ra.readRoute units option
  else if optionType = ndpOptRdnss then ra.readRdnss units option
  else if optionType = ndpOptDnssl then ra.readDnssl units option
  else .ok ra

def readOptions (payload : List UInt8) (ra : FullRouterAdvertisement) (offset : ℕ) :
    Checked Unit FullRouterAdvertisement :=
  if offset < payload.length then
    if offset + 2 > payload.length then .error ()
    else
      (index payload offset).bind fun optionType =>
        (index payload (offset + 1)).bind fun units =>
          if units = 0 then .error ()
          else if offset + units.toNat * 8 > payload.length then .error ()
          else
            (slice payload offset (offset + units.toNat * 8)).bind fun option =>
              (ra.readOption optionType units.toNat option).bind fun ra =>
                readOptions payload ra (offset + units.toNat * 8)
  else .ok ra
termination_by payload.length - offset
decreasing_by
  have : units.toNat ≠ 0 := fun h => ‹¬units = 0› (UInt8.toNat_inj.mp h)
  omega

def parse (icmp : Icmpv6Packet) : Checked Unit FullRouterAdvertisement :=
  if icmp.msgType ≠ icmpv6TypeRouterAdvert ∨ icmp.code ≠ 0 ∨ icmp.payload.length < 12 then .error ()
  else
    (index icmp.payload 0).bind fun currentHopLimit =>
      (index icmp.payload 1).bind fun flags =>
        (slice icmp.payload 2 4).bind fun routerLifetime =>
          (checkedLong icmp.payload 4).bind fun reachableTime =>
            (checkedLong icmp.payload 8).bind fun retransTimer =>
              readOptions icmp.payload
                { currentHopLimit, preference := .fromRaFlags flags
                  routerLifetime := wordAt routerLifetime 0, reachableTime, retransTimer
                  mtu := none, prefixes := [], routes := [], managed := flags &&& 0x80 ≠ 0
                  otherConfig := flags &&& 0x40 ≠ 0, rdnss := [], dnssl := [] } 12

end FullRouterAdvertisement

/-! ### No read is outside the message -/

variable {option : List UInt8} {i n : ℕ}

theorem safe_checkedLong (h : i + 4 ≤ option.length) : Safe (checkedLong option i) :=
  (safe_slice (by omega) h).bind fun _ _ => safe_ok _

theorem safe_checkedAddress (h : i + 16 ≤ option.length) : Safe (checkedAddress option i) :=
  (safe_slice (by omega) h).bind fun _ _ => safe_ok _

theorem safe_checkedAddresses (h : i + 16 * n ≤ option.length) :
    Safe (checkedAddresses option i n) := by
  induction n generalizing i with
  | zero => exact safe_ok _
  | succ n ih =>
    refine (safe_checkedAddress (by omega)).bind fun address _ => ?_
    exact (ih (by omega)).bind fun _ _ => safe_ok _

theorem safe_copiedPrefix (h : 8 ≤ option.length) (hfits : option.length ≤ 24) :
    Safe (copiedPrefix option (option.length - 8)) := by
  refine (safe_slice h le_rfl).bind fun bytes hbytes => ?_
  have hlen := Checked.length_of_slice hbytes
  rw [if_neg (by omega)]
  exact safe_ok _

theorem RouterAdvertisement.units_le {prefixLength units : ℕ}
    (h : routeLengthValid prefixLength units = true) : units ≤ 3 := by
  unfold routeLengthValid at h
  split_ifs at h <;> simp at h <;> omega

namespace FullRouterAdvertisement

variable {ra : FullRouterAdvertisement} {units : ℕ}

theorem safe_readPrefix (ra : FullRouterAdvertisement) (option : List UInt8) :
    Safe (ra.readPrefix option) := by
  refine safe_ite (fun _ => safe_error _) fun hlen => ?_
  refine (safe_index (by omega)).bind fun prefixLength _ =>
    safe_ite (fun _ => safe_error _) fun _ => ?_
  refine (safe_index (by omega)).bind fun flags _ => ?_
  refine (safe_checkedLong (by omega)).bind fun valid _ => ?_
  refine (safe_checkedLong (by omega)).bind fun preferred _ =>
    safe_ite (fun _ => safe_ok _) fun _ => ?_
  exact (safe_checkedAddress (by omega)).bind fun _ _ => safe_ok _

theorem safe_readMtu (ra : FullRouterAdvertisement) (option : List UInt8) :
    Safe (ra.readMtu option) := by
  refine safe_ite (fun hlen => ?_) fun _ => safe_ok _
  exact (safe_checkedLong (by omega)).bind fun _ _ => safe_ok _

theorem safe_readRoute (ra : FullRouterAdvertisement) (hlen : option.length = units * 8)
    (hpos : 0 < units) : Safe (ra.readRoute units option) := by
  refine (safe_index (by omega)).bind fun prefixLength _ =>
    safe_ite (fun hvalid => ?_) fun _ => safe_ok _
  have hunits := RouterAdvertisement.units_le hvalid
  refine (safe_index (by omega)).bind fun flags _ => ?_
  split
  · refine (safe_checkedLong (by omega)).bind fun lifetime _ => ?_
    exact (safe_copiedPrefix (by omega) (by omega)).bind fun _ _ => safe_ok _
  · exact safe_ok _

theorem safe_readRdnss (ra : FullRouterAdvertisement) (hlen : option.length = units * 8) :
    Safe (ra.readRdnss units option) := by
  refine safe_ite (fun hunits => ?_) fun _ => safe_ok _
  refine (safe_checkedLong (by omega)).bind fun lifetime _ => ?_
  exact (safe_checkedAddresses (by omega)).bind fun _ _ => safe_ok _

theorem safe_readDnssl (ra : FullRouterAdvertisement) (hlen : option.length = units * 8) :
    Safe (ra.readDnssl units option) := by
  refine safe_ite (fun hunits => ?_) fun _ => safe_ok _
  refine (safe_checkedLong (by omega)).bind fun lifetime _ => ?_
  exact (safe_searchNames option 8).bind fun _ _ => safe_ok _

theorem safe_readOption (ra : FullRouterAdvertisement) (optionType : UInt8)
    (hlen : option.length = units * 8) (hpos : 0 < units) :
    Safe (ra.readOption optionType units option) := by
  refine safe_ite (fun _ => safe_readPrefix ra option) fun _ => ?_
  refine safe_ite (fun _ => safe_readMtu ra option) fun _ => ?_
  refine safe_ite (fun _ => safe_readRoute ra hlen hpos) fun _ => ?_
  refine safe_ite (fun _ => safe_readRdnss ra hlen) fun _ => ?_
  exact safe_ite (fun _ => safe_readDnssl ra hlen) fun _ => safe_ok _

theorem units_pos {units : UInt8} (h : ¬ units = 0) : 0 < units.toNat :=
  Nat.pos_of_ne_zero fun hzero => h (UInt8.toNat_inj.mp hzero)

theorem safe_readOptions (payload : List UInt8) (ra : FullRouterAdvertisement) (offset : ℕ) :
    Safe (readOptions payload ra offset) := by
  fun_induction readOptions payload ra offset with
  | case1 => exact safe_error _
  | case2 ra offset hlt hhead ih =>
    refine (safe_index hlt).bind fun optionType _ => (safe_index (by omega)).bind fun units _ => ?_
    refine safe_ite (fun _ => safe_error _) fun hunits =>
      safe_ite (fun _ => safe_error _) fun hfits => ?_
    refine (safe_slice (by omega) (by omega)).bind fun option hoption => ?_
    have hlen := Checked.length_of_slice hoption
    refine (safe_readOption ra optionType (by omega) (units_pos hunits)).bind fun ra _ => ?_
    exact ih units hunits hfits ra
  | case3 => exact safe_ok _

/-- Whatever the message is, it is read to its end and never beyond. -/
theorem safe_parse (icmp : Icmpv6Packet) : Safe (parse icmp) := by
  refine safe_ite (fun _ => safe_error _) fun hlong => ?_
  simp only [not_or, not_lt] at hlong
  refine (safe_index (by omega)).bind fun currentHopLimit _ => ?_
  refine (safe_index (by omega)).bind fun flags _ => ?_
  refine (safe_slice (by omega) (by omega)).bind fun routerLifetime _ => ?_
  refine (safe_checkedLong (by omega)).bind fun reachableTime _ => ?_
  refine (safe_checkedLong (by omega)).bind fun retransTimer _ => ?_
  exact safe_readOptions _ _ _

end FullRouterAdvertisement

/-! ### What the host stack sees of it -/

theorem index_byteAt {data : List UInt8} (h : i < data.length) :
    (index data i : Checked Unit UInt8) = .ok (byteAt data i) := by
  rw [index_eq_ok, byteAt, List.getD_eq_getElem?_getD, List.getElem?_eq_getElem h, Option.getD_some]

theorem byteAt_piece {data : List UInt8} {j k : ℕ} (h : i + k < j) :
    byteAt ((data.take j).drop i) k = byteAt data (i + k) := by
  simp only [byteAt, List.getD_eq_getElem?_getD, List.getElem?_drop, List.getElem?_take_of_lt h]

theorem checkedLong_eq (h : i + 4 ≤ option.length) :
    checkedLong option i = .ok (longAt option i) := by
  rw [checkedLong, slice_eq_ok (by omega) h, Checked.ok_bind]
  simp only [longAt, wordAt, Nat.zero_add]
  rw [byteAt_piece (by omega), byteAt_piece (by omega), byteAt_piece (by omega),
    byteAt_piece (by omega)]
  rfl

theorem checkedAddress_eq (h : i + 16 ≤ option.length) :
    checkedAddress option i = .ok (ipv6At option i) := by
  rw [checkedAddress, slice_eq_ok (by omega) h, Checked.ok_bind]
  unfold ipv6At
  congr 3
  funext j
  rw [Nat.zero_add, byteAt_piece (by omega)]

theorem checkedAddresses_eq_ok (h : i + 16 * n ≤ option.length) :
    ∃ servers, checkedAddresses option i n = .ok servers := by
  induction n generalizing i with
  | zero => exact ⟨[], rfl⟩
  | succ n ih =>
    obtain ⟨rest, hrest⟩ := @ih (i + 16) (by omega)
    exact ⟨ipv6At option i :: rest, by
      rw [checkedAddresses, checkedAddress_eq (by omega), Checked.ok_bind, hrest, Checked.ok_bind]⟩

theorem copiedPrefix_eq (h : 8 ≤ option.length) (hfits : option.length ≤ 24) :
    copiedPrefix option (option.length - 8) =
      .ok (paddedAddressAt option 8 (option.length - 8)) := by
  rw [copiedPrefix, slice_eq_ok h le_rfl, Checked.ok_bind, if_neg (by simp; omega)]
  unfold paddedAddressAt
  congr 3
  funext j
  by_cases hj : j.val < option.length - 8
  · rw [if_pos hj, if_pos hj, Nat.zero_add, byteAt_piece (by omega)]
  · rw [if_neg hj, if_neg hj]

namespace FullRouterAdvertisement

/-- The part of a result that the host stack acts on. -/
def hostView : Checked Unit FullRouterAdvertisement → Option RouterAdvertisement
  | .ok ra => some ra.toRouterAdvertisement
  | _ => none

@[simp] theorem hostView_ok (ra : FullRouterAdvertisement) :
    hostView (.ok ra) = some ra.toRouterAdvertisement := rfl

@[simp] theorem hostView_error : hostView (.error ()) = none := rfl

theorem hostView_readPrefix (ra : FullRouterAdvertisement) (option : List UInt8) :
    hostView (ra.readPrefix option) = (RouterAdvertisement.prefixOption option).map fun found =>
      { ra.toRouterAdvertisement with prefixes := ra.prefixes ++ found } := by
  unfold readPrefix RouterAdvertisement.prefixOption
  by_cases hlen : option.length = 32
  · rw [if_neg (not_not.mpr hlen), if_neg (not_not.mpr hlen), index_byteAt (by omega),
      Checked.ok_bind]
    by_cases hbits : (byteAt option 2).toNat > 128
    · rw [if_pos hbits, if_pos hbits]
      rfl
    · rw [if_neg hbits, if_neg hbits, index_byteAt (by omega), Checked.ok_bind,
        checkedLong_eq (by omega), Checked.ok_bind, checkedLong_eq (by omega), Checked.ok_bind]
      split
      · simp
      · rw [checkedAddress_eq (by omega)]
        rfl
  · rw [if_pos hlen, if_pos hlen]
    rfl

theorem hostView_readRoute (ra : FullRouterAdvertisement) (hlen : option.length = units * 8)
    (hpos : 0 < units) (hunits : (byteAt option 1).toNat = units) :
    hostView (ra.readRoute units option) = some
      { ra.toRouterAdvertisement with
        routes := ra.routes ++ RouterAdvertisement.routeOption option } := by
  unfold readRoute RouterAdvertisement.routeOption
  rw [index_byteAt (by omega), Checked.ok_bind, hunits]
  split
  · rename_i hvalid
    have hle := RouterAdvertisement.units_le hvalid
    rw [index_byteAt (by omega), Checked.ok_bind]
    cases RouterPreference.fromRioFlags (byteAt option 3) with
    | none => simp
    | some preference =>
      dsimp only
      rw [checkedLong_eq (by omega), Checked.ok_bind, copiedPrefix_eq (by omega) (by omega)]
      rfl
  · simp

theorem hostView_readOption (ra : FullRouterAdvertisement) (hlen : option.length = units * 8)
    (hpos : 0 < units) (hunits : (byteAt option 1).toNat = units) :
    hostView (ra.readOption (byteAt option 0) units option) =
      ra.toRouterAdvertisement.applyOption option := by
  unfold readOption RouterAdvertisement.applyOption
  split
  · exact hostView_readPrefix ra option
  · split
    · unfold readMtu
      split
      · rw [checkedLong_eq (by omega)]
        rfl
      · rfl
    · split
      · exact hostView_readRoute ra hlen hpos hunits
      · -- Name servers and search lists are nothing to the host stack.
        split
        · unfold readRdnss
          split
          · rename_i hodd
            obtain ⟨servers, hservers⟩ := @checkedAddresses_eq_ok option 8
              ((units - 1) / 2) (by omega)
            rw [checkedLong_eq (by omega), Checked.ok_bind, hservers]
            rfl
          · rfl
        · split
          · unfold readDnssl
            split
            · obtain ⟨names, hnames⟩ := searchNames_eq_ok option 8
              rw [checkedLong_eq (by omega), Checked.ok_bind, hnames]
              rfl
            · rfl
          · rfl

theorem hostView_bind {x : Checked Unit FullRouterAdvertisement}
    {f : FullRouterAdvertisement → Checked Unit FullRouterAdvertisement}
    {g : RouterAdvertisement → Option RouterAdvertisement}
    (h : ∀ ra, hostView (f ra) = g ra.toRouterAdvertisement) :
    hostView (x.bind f) = (hostView x).bind g := by
  cases x with
  | ok ra => exact h ra
  | error e => rfl
  | panic => rfl

theorem hostView_readOptions (payload : List UInt8) (ra : FullRouterAdvertisement) (offset : ℕ)
    (hle : offset ≤ payload.length) : hostView (readOptions payload ra offset) =
      RouterAdvertisement.parseOptions ra.toRouterAdvertisement (payload.drop offset) := by
  fun_induction readOptions payload ra offset with
  | case1 ra offset hlt hhead =>
    have hne : payload.drop offset ≠ [] := by simp; omega
    rw [RouterAdvertisement.parseOptions, if_neg hne, if_pos (by rw [List.length_drop]; omega)]
    rfl
  | case2 ra offset hlt hhead ih =>
    have hne : payload.drop offset ≠ [] := by simp; omega
    have hbyte : ∀ k, byteAt (payload.drop offset) k = byteAt payload (offset + k) := by
      intro k
      simp only [byteAt, List.getD_eq_getElem?_getD, List.getElem?_drop]
    have hoption : optionLen (payload.drop offset) = (byteAt payload (offset + 1)).toNat * 8 := by
      rw [optionLen, hbyte]
    rw [RouterAdvertisement.parseOptions, if_neg hne, if_neg (by rw [List.length_drop]; omega),
      index_byteAt hlt, Checked.ok_bind, index_byteAt (by omega), Checked.ok_bind]
    by_cases hzero : byteAt payload (offset + 1) = 0
    · rw [if_pos hzero, dif_pos (by rw [hoption, hzero]; rfl)]
      rfl
    · have hpos := units_pos hzero
      rw [if_neg hzero, dif_neg (by omega), List.length_drop]
      by_cases hfits : offset + (byteAt payload (offset + 1)).toNat * 8 > payload.length
      · rw [if_pos hfits, if_pos (by omega)]
        rfl
      · have hslice :
            (payload.take (offset + (byteAt payload (offset + 1)).toNat * 8)).drop offset =
            (payload.drop offset).take (optionLen (payload.drop offset)) := by
          rw [hoption, List.drop_take, Nat.add_sub_cancel_left]
        have hlen : ((payload.drop offset).take (optionLen (payload.drop offset))).length =
            (byteAt payload (offset + 1)).toNat * 8 := by
          rw [List.length_take, List.length_drop, hoption]
          omega
        have hread : ∀ k, k < 2 → byteAt ((payload.drop offset).take
            (optionLen (payload.drop offset))) k =
            byteAt payload (offset + k) := by
          intro k hk
          rw [← hslice, byteAt_piece (by omega)]
        rw [if_neg hfits, if_neg (by omega), slice_eq_ok (by omega) (by omega),
          Checked.ok_bind, hslice]
        have hround := @hostView_readOption ((payload.drop offset).take
          (optionLen (payload.drop offset))) (byteAt payload (offset + 1)).toNat ra hlen hpos
            (congrArg UInt8.toNat (hread 1 (by omega)))
        rw [hread 0 (by omega), Nat.add_zero] at hround
        rw [← hround]
        refine hostView_bind fun next => ?_
        rw [ih _ hzero hfits next (by omega), hoption, List.drop_drop]
  | case3 ra offset hge =>
    rw [List.drop_eq_nil_of_le (by omega), RouterAdvertisement.parseOptions, if_pos rfl]
    rfl

/-- The stack and this module read the same message: what the stack's parser gives is the part of
the full one's result that the host acts on. -/
theorem hostView_parse (icmp : Icmpv6Packet) :
    hostView (parse icmp) = RouterAdvertisement.parse icmp := by
  unfold parse RouterAdvertisement.parse
  split
  · rfl
  · rename_i hlong
    simp only [not_or, not_lt] at hlong
    have hword : wordAt ((icmp.payload.take 4).drop 2) 0 = wordAt icmp.payload 2 := by
      simp only [wordAt]
      rw [byteAt_piece (by omega), byteAt_piece (by omega)]
    rw [index_byteAt (by omega), Checked.ok_bind, index_byteAt (by omega), Checked.ok_bind,
      slice_eq_ok (by omega) (by omega), Checked.ok_bind, checkedLong_eq (by omega),
      Checked.ok_bind,
      checkedLong_eq (by omega), Checked.ok_bind, hostView_readOptions _ _ _ hlong.2.2, hword]

end FullRouterAdvertisement

end ToyTcpip
