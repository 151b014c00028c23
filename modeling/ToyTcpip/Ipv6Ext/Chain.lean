import ToyTcpip.Bytes

/-! IPv6 extension headers: the parser and the serializer of `ipv6_ext.rs`. -/
namespace ToyTcpip.Ipv6Ext

open Checked (index slice Safe safe_ok safe_error safe_ite safe_index safe_slice)

def ipv6ExtHopByHop : UInt8 := 0

def ipv6ExtRouting : UInt8 := 43

def ipv6ExtFragment : UInt8 := 44

def ipv6ExtAh : UInt8 := 51

def ipv6ExtNoNextHeader : UInt8 := 59

def ipv6ExtDestOptions : UInt8 := 60

def ipv6ExtMobility : UInt8 := 135

def maxExtensionHeaders : ℕ := 16

def ipv6OptPad1 : UInt8 := 0x00

def ipv6OptPadN : UInt8 := 0x01

def ipv6OptRouterAlert : UInt8 := 0x05

def ipv6OptJumboPayload : UInt8 := 0xC2

inductive Ipv6Option where
  | pad1
  | padN (pad : List UInt8)
  | routerAlert (val : BitVec 16)
  | jumboPayload (len : BitVec 32)
  | generic (optType : UInt8) (data : List UInt8)
  deriving DecidableEq, Repr

inductive Ipv6ExtError where
  | headerTooShort (len : ℕ)
  | truncatedOption
  | chainTooLong (count : ℕ)
  | misplacedHopByHop
  deriving DecidableEq, Repr

abbrev Parsed (α : Type) : Type := Checked Ipv6ExtError α

namespace Ipv6Option

def serialize : Ipv6Option → List UInt8
  | .pad1 => [ipv6OptPad1]
  | .padN pad => [ipv6OptPadN, UInt8.ofNat pad.length] ++ pad
  | .routerAlert val => [ipv6OptRouterAlert, 2] ++ toBeBytes16 val.toNat
  | .jumboPayload len => [ipv6OptJumboPayload, 4] ++ toBeBytes32 len.toNat
  | .generic optType data => [optType, UInt8.ofNat data.length] ++ data

/-- The option a type other than Pad1 and its data stand for. -/
def ofData (optType : UInt8) (optData : List UInt8) : Parsed Ipv6Option :=
  if optType = ipv6OptPadN then .ok (.padN optData)
  else if optType = ipv6OptRouterAlert ∧ optData.length = 2 then
    (read16 optData 0).bind fun val => .ok (.routerAlert val)
  else if optType = ipv6OptJumboPayload ∧ optData.length = 4 then
    (read32 optData 0).bind fun val => .ok (.jumboPayload val)
  else .ok (.generic optType optData)

def parseAll : List UInt8 → Parsed (List Ipv6Option)
  | [] => .ok []
  | optType :: rest =>
    if optType = ipv6OptPad1 then (parseAll rest).bind fun opts => .ok (.pad1 :: opts)
    else if 1 ≥ (optType :: rest).length then .error .truncatedOption
    else
      (index (optType :: rest) 1).bind fun len =>
        let optEnd := 2 + len.toNat
        if optEnd > (optType :: rest).length then .error .truncatedOption
        else
          (slice (optType :: rest) 2 optEnd).bind fun optData =>
            (ofData optType optData).bind fun opt =>
              (parseAll (rest.drop (optEnd - 1))).bind fun opts => .ok (opt :: opts)
termination_by data => data.length
decreasing_by all_goals simp

end Ipv6Option

inductive Ipv6ExtensionHeader where
  | hopByHop (options : List Ipv6Option)
  | routing (routingType segmentsLeft : UInt8) (data : List UInt8)
  | fragment (fragmentOffset : BitVec 16) (moreFragments : Bool) (identification : BitVec 32)
  | destinationOptions (options : List Ipv6Option)
  | authenticationHeader (spi sequenceNumber : BitVec 32) (icv : List UInt8)
  | unknown (nextHeaderType : UInt8) (data : List UInt8)
  deriving DecidableEq, Repr

/-- The padding that brings `opts`, with two bytes before them, to a multiple of eight. -/
def padOptions (optBytes : List UInt8) : List UInt8 :=
  let padNeeded := (8 - (2 + optBytes.length) % 8) % 8
  if padNeeded = 1 then optBytes ++ [ipv6OptPad1]
  else if padNeeded > 1 then
    optBytes ++ (ipv6OptPadN :: UInt8.ofNat (padNeeded - 2) :: List.replicate (padNeeded - 2) 0)
  else optBytes

/-- `(total_octets / 8).saturating_sub(1) as u8`, for a body after the first two bytes. -/
def hdrExtLenOf (body : List UInt8) : UInt8 := UInt8.ofNat ((2 + body.length) / 8 - 1)

/-- Offset and flag of a fragment header. -/
def offsetAndFlag (fragmentOffset : BitVec 16) (moreFragments : Bool) : BitVec 16 :=
  ((fragmentOffset &&& 0x1FFF) <<< 3) ||| (if moreFragments then 1 else 0)

namespace Ipv6ExtensionHeader

def extensionType : Ipv6ExtensionHeader → UInt8
  | .hopByHop _ => ipv6ExtHopByHop
  | .routing .. => ipv6ExtRouting
  | .fragment .. => ipv6ExtFragment
  | .destinationOptions _ => ipv6ExtDestOptions
  | .authenticationHeader .. => ipv6ExtAh
  | .unknown nextHeaderType _ => nextHeaderType

/-- The bytes after the first two, and the length byte. -/
def serializeBody : Ipv6ExtensionHeader → List UInt8 × UInt8
  | .hopByHop options | .destinationOptions options =>
    let optBytes := padOptions (options.flatMap Ipv6Option.serialize)
    (optBytes, hdrExtLenOf optBytes)
  | .routing routingType segmentsLeft data =>
    let body := routingType :: segmentsLeft :: data
    let body := body ++ List.replicate ((8 - (2 + body.length) % 8) % 8) 0
    (body, hdrExtLenOf body)
  | .fragment fragmentOffset moreFragments identification =>
    (toBeBytes16 (offsetAndFlag fragmentOffset moreFragments).toNat ++
      toBeBytes32 identification.toNat, 0)
  | .authenticationHeader spi sequenceNumber icv =>
    let body := [0, 0] ++ toBeBytes32 spi.toNat ++ toBeBytes32 sequenceNumber.toNat ++ icv
    (body, UInt8.ofNat ((2 + body.length + 3) / 4 - 2))
  | .unknown _ data => (data, hdrExtLenOf data)

/-- One header of a chain, before a header of type `nextNh`. The fragment header's length byte is
reserved, and its body is the one of `serializeBody`. -/
def serialize (h : Ipv6ExtensionHeader) (nextNh : UInt8) : List UInt8 :=
  nextNh :: h.serializeBody.2 :: h.serializeBody.1

end Ipv6ExtensionHeader

structure Ipv6ExtensionChain where
  headers : List Ipv6ExtensionHeader
  finalNextHeader : UInt8
  deriving DecidableEq, Repr

def isExtensionHeader (nh : UInt8) : Bool :=
  nh ∈ [ipv6ExtHopByHop, ipv6ExtRouting, ipv6ExtFragment, ipv6ExtAh, ipv6ExtDestOptions,
    ipv6ExtMobility, ipv6ExtNoNextHeader]

/-- The type of the first of `headers`, or of what follows them. -/
def firstNextHeader (headers : List Ipv6ExtensionHeader) (final : UInt8) : UInt8 :=
  match headers with
  | [] => final
  | h :: _ => h.extensionType

def serializeHeaders (final : UInt8) : List Ipv6ExtensionHeader → List UInt8
  | [] => []
  | h :: rest => h.serialize (firstNextHeader rest final) ++ serializeHeaders final rest

/-- The header of type `nh` with the bytes after the first two. -/
def readPayload (nh : UInt8) (extPayload : List UInt8) : Parsed Ipv6ExtensionHeader :=
  if nh = ipv6ExtHopByHop then
    (Ipv6Option.parseAll extPayload).bind fun options => .ok (.hopByHop options)
  else if nh = ipv6ExtDestOptions then
    (Ipv6Option.parseAll extPayload).bind fun options => .ok (.destinationOptions options)
  else if nh = ipv6ExtRouting ∧ 2 ≤ extPayload.length then
    (index extPayload 0).bind fun routingType =>
      (index extPayload 1).bind fun segmentsLeft =>
        (slice extPayload 2 extPayload.length).bind fun data =>
          .ok (.routing routingType segmentsLeft data)
  else if nh = ipv6ExtAh ∧ 10 ≤ extPayload.length then
    (read32 extPayload 2).bind fun spi =>
      (read32 extPayload 6).bind fun sequenceNumber =>
        (slice extPayload 10 extPayload.length).bind fun icv =>
          .ok (.authenticationHeader spi sequenceNumber icv)
  else .ok (.unknown nh extPayload)

/-- The header of type `nh` at `offset`, with the bytes it takes. -/
def parseHeader (data : List UInt8) (nh : UInt8) (offset : ℕ) : Parsed (Ipv6ExtensionHeader × ℕ) :=
  if nh = ipv6ExtFragment then
    if offset + 8 > data.length then .error (.headerTooShort (data.length - offset))
    else
      (read16 data (offset + 2)).bind fun offMf =>
        (read32 data (offset + 4)).bind fun identification =>
          .ok (.fragment (offMf >>> 3) (offMf &&& 1 ≠ 0) identification, 8)
  else if offset + 2 > data.length then .error (.headerTooShort (data.length - offset))
  else
    (index data (offset + 1)).bind fun hdrExtLen =>
      let totalLen := if nh = ipv6ExtAh then (hdrExtLen.toNat + 2) * 4 else
        (hdrExtLen.toNat + 1) * 8
      if offset + totalLen > data.length then .error (.headerTooShort (data.length - offset))
      else
        (slice data (offset + 2) (offset + totalLen)).bind fun extPayload =>
          (readPayload nh extPayload).bind fun header => .ok (header, totalLen)

/-- The loop, with the headers read so far, the type of the next one and where it starts. -/
def parseFrom (data : List UInt8) (headers : List Ipv6ExtensionHeader) (currNh : UInt8)
    (offset : ℕ) : Parsed (Ipv6ExtensionChain × ℕ) :=
  if isExtensionHeader currNh then
    if currNh = ipv6ExtHopByHop ∧ headers ≠ [] then .error .misplacedHopByHop
    else if headers.length ≥ maxExtensionHeaders then .error (.chainTooLong (headers.length + 1))
    else if currNh = ipv6ExtNoNextHeader then .ok (⟨headers, ipv6ExtNoNextHeader⟩, offset)
    else if offset ≥ data.length then .error (.headerTooShort (data.length - offset))
    else
      (index data offset).bind fun nextNh =>
        (parseHeader data currNh offset).bind fun found =>
          parseFrom data (headers ++ [found.1]) nextNh (offset + found.2)
  else .ok (⟨headers, currNh⟩, offset)
termination_by maxExtensionHeaders - headers.length
decreasing_by
  simp only [List.length_append, List.length_cons, List.length_nil]
  omega

namespace Ipv6ExtensionChain

def parse (initialNextHeader : UInt8) (data : List UInt8) : Parsed (Ipv6ExtensionChain × ℕ) :=
  parseFrom data [] initialNextHeader 0

/-- The bytes of the chain and the type of its first header. -/
def serialize (chain : Ipv6ExtensionChain) : List UInt8 × UInt8 :=
  (serializeHeaders chain.finalNextHeader chain.headers,
    firstNextHeader chain.headers chain.finalNextHeader)

end Ipv6ExtensionChain

/-! ### No read is outside the input -/

theorem safe_ofData (optType : UInt8) (optData : List UInt8) :
    Safe (Ipv6Option.ofData optType optData) := by
  unfold Ipv6Option.ofData
  split_ifs with h₁ h₂ h₃
  · exact safe_ok _
  · exact (safe_read16 (by omega)).bind fun _ _ => safe_ok _
  · exact (safe_read32 (by omega)).bind fun _ _ => safe_ok _
  · exact safe_ok _

theorem safe_parseAll (data : List UInt8) : Safe (Ipv6Option.parseAll data) := by
  induction data using Ipv6Option.parseAll.induct with
  | case1 =>
    rw [Ipv6Option.parseAll]
    exact safe_ok _
  | case2 rest ih =>
    rw [Ipv6Option.parseAll, if_pos rfl]
    exact ih.bind fun _ _ => safe_ok _
  | case3 optType rest hpad hshort =>
    rw [Ipv6Option.parseAll, if_neg hpad, if_pos hshort]
    exact safe_error _
  | case4 optType rest hpad hlong ih =>
    rw [Ipv6Option.parseAll, if_neg hpad, if_neg hlong]
    refine (safe_index (by omega)).bind fun len _ => ?_
    refine safe_ite (fun _ => safe_error _) fun hend => ?_
    refine (safe_slice (by omega) (by omega)).bind fun optData _ => ?_
    refine (safe_ofData _ _).bind fun opt _ => ?_
    exact (ih len).bind fun _ _ => safe_ok _

theorem safe_readPayload (nh : UInt8) (extPayload : List UInt8) :
    Safe (readPayload nh extPayload) := by
  unfold readPayload
  split_ifs with h₁ h₂ h₃ h₄
  · exact (safe_parseAll _).bind fun _ _ => safe_ok _
  · exact (safe_parseAll _).bind fun _ _ => safe_ok _
  · refine (safe_index (by omega)).bind fun _ _ => (safe_index (by omega)).bind fun _ _ => ?_
    exact (safe_slice h₃.2 le_rfl).bind fun _ _ => safe_ok _
  · refine (safe_read32 (by omega)).bind fun _ _ => (safe_read32 (by omega)).bind fun _ _ => ?_
    exact (safe_slice h₄.2 le_rfl).bind fun _ _ => safe_ok _
  · exact safe_ok _

theorem safe_parseHeader (data : List UInt8) (nh : UInt8) (offset : ℕ) :
    Safe (parseHeader data nh offset) := by
  refine safe_ite (fun _ => ?_) fun _ => ?_
  · refine safe_ite (fun _ => safe_error _) fun hlen => ?_
    refine (safe_read16 (by omega)).bind fun _ _ => ?_
    exact (safe_read32 (by omega)).bind fun _ _ => safe_ok _
  · refine safe_ite (fun _ => safe_error _) fun hlen => ?_
    refine (safe_index (by omega)).bind fun hdrExtLen _ => ?_
    refine safe_ite (fun _ => safe_error _) fun htotal => ?_
    refine (safe_slice ?_ (by omega)).bind fun extPayload _ => ?_
    · split <;> omega
    · exact (safe_readPayload _ _).bind fun _ _ => safe_ok _

theorem safe_parseFrom (data : List UInt8) (headers : List Ipv6ExtensionHeader) (currNh : UInt8)
    (offset : ℕ) : Safe (parseFrom data headers currNh offset) := by
  rw [parseFrom]
  refine safe_ite (fun _ => ?_) fun _ => safe_ok _
  refine safe_ite (fun _ => safe_error _) fun _ => ?_
  refine safe_ite (fun _ => safe_error _) fun hroom => ?_
  refine safe_ite (fun _ => safe_ok _) fun _ => ?_
  refine safe_ite (fun _ => safe_error _) fun hoff => ?_
  refine (safe_index (by omega)).bind fun nextNh _ => ?_
  refine (safe_parseHeader _ _ _).bind fun found _ => ?_
  exact safe_parseFrom data (headers ++ [found.1]) nextNh (offset + found.2)
termination_by maxExtensionHeaders - headers.length
decreasing_by
  simp only [List.length_append, List.length_cons, List.length_nil]
  omega

end ToyTcpip.Ipv6Ext
