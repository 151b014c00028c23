import ToyTcpip.Ethernet
import ToyTcpip.Ipv6Packet
import ToyTcpip.Lib.Utf8

/-! DHCPv6 messages on the wire: the codec of `dhcpv6.rs`. -/
namespace ToyTcpip.Dhcpv6

def msgSolicit : UInt8 := 1

def msgAdvertise : UInt8 := 2

def msgRequest : UInt8 := 3

def msgReply : UInt8 := 7

def msgRelease : UInt8 := 8

def optClientid : ℕ := 1

def optServerid : ℕ := 2

def optIaNa : ℕ := 3

def optIaaddr : ℕ := 5

def optOro : ℕ := 6

def optElapsedTime : ℕ := 8

def optStatusCode : ℕ := 13

def optRapidCommit : ℕ := 14

def optDnsServers : ℕ := 23

def optDnssl : ℕ := 24

def optIaPd : ℕ := 25

def optIaprefix : ℕ := 26

inductive Duid where
  | llt (hwType time : ℕ) (llAddr : MacAddress)
  | en (enterpriseNum : ℕ) (identifier : List UInt8)
  | ll (hwType : ℕ) (llAddr : MacAddress)
  | uuid (bytes : Vector UInt8 16)
  | raw (bytes : List UInt8)
  deriving DecidableEq

def Duid.serialize : Duid → List UInt8
  | .llt hwType time llAddr =>
    toBeBytes16 1 ++ toBeBytes16 hwType ++ toBeBytes32 time ++ llAddr.octets
  | .en enterpriseNum identifier => toBeBytes16 2 ++ toBeBytes32 enterpriseNum ++ identifier
  | .ll hwType llAddr => toBeBytes16 3 ++ toBeBytes16 hwType ++ llAddr.octets
  | .uuid bytes => toBeBytes16 4 ++ bytes.toList
  | .raw bytes => bytes

structure IaAddressOption where
  address : Ipv6Address
  preferredLifetime : ℕ
  validLifetime : ℕ
  deriving DecidableEq

structure IaPrefixOption where
  preferredLifetime : ℕ
  validLifetime : ℕ
  prefixLen : UInt8
  address : Ipv6Address
  deriving DecidableEq

structure IaNaOption where
  iaid : ℕ
  t1 : ℕ
  t2 : ℕ
  addresses : List IaAddressOption
  deriving DecidableEq

structure IaPdOption where
  iaid : ℕ
  t1 : ℕ
  t2 : ℕ
  prefixes : List IaPrefixOption
  deriving DecidableEq

structure Dhcpv6Option where
  code : ℕ
  data : List UInt8
  deriving DecidableEq

structure Dhcpv6Message where
  msgType : UInt8
  transactionId : ℕ
  options : List Dhcpv6Option
  deriving DecidableEq

inductive Dhcpv6Error where
  | packetTooShort (len : ℕ)
  | invalidLength
  deriving DecidableEq

/-! ### Options -/

/-- Code, length and data. -/
def Dhcpv6Option.serialize (o : Dhcpv6Option) : List UInt8 :=
  toBeBytes16 o.code ++ toBeBytes16 o.data.length ++ o.data

def iaHeader (iaid t1 t2 : ℕ) : List UInt8 := toBeBytes32 iaid ++ toBeBytes32 t1 ++ toBeBytes32 t2

def IaAddressOption.toOption (a : IaAddressOption) : Dhcpv6Option :=
  ⟨optIaaddr, a.address.octets ++ toBeBytes32 a.preferredLifetime ++ toBeBytes32 a.validLifetime⟩

def IaPrefixOption.toOption (p : IaPrefixOption) : Dhcpv6Option :=
  ⟨ optIaprefix, toBeBytes32 p.preferredLifetime ++ toBeBytes32 p.validLifetime ++ [p.prefixLen] ++
    p.address.octets⟩

def IaNaOption.toOption (na : IaNaOption) : Dhcpv6Option :=
  ⟨optIaNa, iaHeader na.iaid na.t1 na.t2 ++
    na.addresses.flatMap fun a => a.toOption.serialize⟩

def IaPdOption.toOption (pd : IaPdOption) : Dhcpv6Option :=
  ⟨optIaPd, iaHeader pd.iaid pd.t1 pd.t2 ++ pd.prefixes.flatMap fun p => p.toOption.serialize⟩

def IaAddressOption.ofOption (o : Dhcpv6Option) : Option IaAddressOption :=
  if o.code = optIaaddr ∧ 24 ≤ o.data.length then
    some ⟨ipv6At o.data 0, longAt o.data 16, longAt o.data 20⟩
  else none

def IaPrefixOption.ofOption (o : Dhcpv6Option) : Option IaPrefixOption :=
  if o.code = optIaprefix ∧ 25 ≤ o.data.length then
    some ⟨longAt o.data 0, longAt o.data 4, byteAt o.data 8, ipv6At o.data 9⟩
  else none

/-- The labels of a domain, each after its length. -/
def domainBytes (domain : String) : List UInt8 :=
  ((Utf8.asBytes domain).splitOn 0x2E).flatMap fun label =>
    if label ≠ [] then UInt8.ofNat label.length :: label else []

def dnsslBytes (searchList : List String) : List UInt8 :=
  searchList.flatMap fun domain => domainBytes domain ++ [0]

namespace Dhcpv6Message

def buildSolicitFull (transactionId : ℕ) (clientDuid : List UInt8) (rapidCommit requestPd : Bool) :
    Dhcpv6Message :=
  { msgType := msgSolicit
    transactionId := transactionId % 2 ^ 24
    options :=
      [⟨optClientid, clientDuid⟩] ++
      (if rapidCommit then [⟨optRapidCommit, []⟩] else []) ++
      [⟨optElapsedTime, [0, 0]⟩, ⟨optIaNa, iaHeader 1 0 0⟩] ++
      (if requestPd then [⟨optIaPd, iaHeader 2 0 0⟩] else []) ++
      [⟨optOro, toBeBytes16 optDnsServers ++ toBeBytes16 optDnssl⟩] }

def buildAdvertiseFull (transactionId : ℕ) (clientDuid serverDuid : List UInt8)
    (assignedIp : Option Ipv6Address) (delegatedPrefix : Option (Ipv6Address × UInt8))
    (dnsServers : List Ipv6Address) (searchList : List String) : Dhcpv6Message :=
  { msgType := msgAdvertise
    transactionId := transactionId % 2 ^ 24
    options :=
      [⟨optClientid, clientDuid⟩, ⟨optServerid, serverDuid⟩] ++
      (match assignedIp with
        | some ip => [IaNaOption.toOption ⟨1, 1800, 2880, [⟨ip, 3600, 7200⟩]⟩]
        | none => []) ++
      (match delegatedPrefix with
        | some (address, len) => [IaPdOption.toOption ⟨2, 1800, 2880, [⟨3600, 7200, len, address⟩]⟩]
        | none => []) ++
      (if dnsServers ≠ [] then [⟨optDnsServers, dnsServers.flatMap Ipv6Address.octets⟩] else []) ++
      (if searchList ≠ [] then [⟨optDnssl, dnsslBytes searchList⟩] else []) }

def buildRequest (transactionId : ℕ) (clientDuid serverDuid : List UInt8) (iaNa : Option IaNaOption)
    (iaPd : Option IaPdOption) : Dhcpv6Message :=
  { msgType := msgRequest
    transactionId := transactionId % 2 ^ 24
    options :=
      [⟨optClientid, clientDuid⟩, ⟨optServerid, serverDuid⟩] ++
      (iaNa.map IaNaOption.toOption).toList ++ (iaPd.map IaPdOption.toOption).toList }

def buildReply (transactionId : ℕ) (clientDuid serverDuid : List UInt8)
    (assignedIp : Option Ipv6Address) (delegatedPrefix : Option (Ipv6Address × UInt8))
    (dnsServers : List Ipv6Address) (searchList : List String) (rapidCommit : Bool) :
    Dhcpv6Message :=
  let msg := buildAdvertiseFull transactionId clientDuid serverDuid assignedIp delegatedPrefix
    dnsServers searchList
  { msg with
    msgType := msgReply
    options := msg.options ++ if rapidCommit then [⟨optRapidCommit, []⟩] else [] }

def buildRelease (transactionId : ℕ) (clientDuid serverDuid : List UInt8) (iaNa : Option IaNaOption)
    (iaPd : Option IaPdOption) : Dhcpv6Message :=
  { buildRequest transactionId clientDuid serverDuid iaNa iaPd with msgType := msgRelease }

def serialize (m : Dhcpv6Message) : List UInt8 :=
  [m.msgType] ++ (toBeBytes32 (m.transactionId % 2 ^ 24)).drop 1 ++
    m.options.flatMap Dhcpv6Option.serialize

/-- The options from here on; fewer bytes than a header takes are ignored. -/
def parseOptions (data : List UInt8) : Except Dhcpv6Error (List Dhcpv6Option) :=
  if data.length < 4 then .ok []
  else if data.length < 4 + wordAt data 2 then .error .invalidLength
  else (parseOptions (data.drop (4 + wordAt data 2))).map fun rest =>
    ⟨wordAt data 0, (data.drop 4).take (wordAt data 2)⟩ :: rest
termination_by data.length

def parse (data : List UInt8) : Except Dhcpv6Error Dhcpv6Message :=
  if data.length < 4 then .error (.packetTooShort data.length)
  else (parseOptions (data.drop 4)).map fun options =>
    ⟨byteAt data 0, (byteAt data 1).toNat * 65536 + wordAt data 2, options⟩

/-- The options inside an identity association, up to one that is cut off. -/
def subOptions (data : List UInt8) : List Dhcpv6Option :=
  if data.length < 4 then []
  else if data.length < 4 + wordAt data 2 then []
  else ⟨wordAt data 0, (data.drop 4).take (wordAt data 2)⟩ ::
    subOptions (data.drop (4 + wordAt data 2))
termination_by data.length

/-- The first association of a code that has its header. -/
def findIa (m : Dhcpv6Message) (code : ℕ) : Option Dhcpv6Option :=
  m.options.find? fun o => o.code = code ∧ 12 ≤ o.data.length

def getIaNa (m : Dhcpv6Message) : Option IaNaOption :=
  (m.findIa optIaNa).map fun o =>
    ⟨longAt o.data 0, longAt o.data 4, longAt o.data 8,
      (subOptions (o.data.drop 12)).filterMap IaAddressOption.ofOption⟩

def getIaPd (m : Dhcpv6Message) : Option IaPdOption :=
  (m.findIa optIaPd).map fun o =>
    ⟨longAt o.data 0, longAt o.data 4, longAt o.data 8,
      (subOptions (o.data.drop 12)).filterMap IaPrefixOption.ofOption⟩

def getAssignedIpv6 (m : Dhcpv6Message) : Option Ipv6Address :=
  m.getIaNa.bind fun na => na.addresses.head?.map IaAddressOption.address

def getDelegatedPrefix (m : Dhcpv6Message) : Option (Ipv6Address × UInt8) :=
  m.getIaPd.bind fun pd => pd.prefixes.head?.map fun p => (p.address, p.prefixLen)

def hasRapidCommit (m : Dhcpv6Message) : Bool := m.options.any fun o => o.code = optRapidCommit

def getDnsServers (m : Dhcpv6Message) : List Ipv6Address :=
  (m.options.filter fun o => o.code = optDnsServers).flatMap fun o =>
    (List.range (o.data.length / 16)).map fun i => ipv6At o.data (16 * i)

/-- The data of the first option of a code. -/
def optionData (m : Dhcpv6Message) (code : ℕ) : Option (List UInt8) :=
  (m.options.find? fun o => o.code = code).map Dhcpv6Option.data

end Dhcpv6Message

end ToyTcpip.Dhcpv6
