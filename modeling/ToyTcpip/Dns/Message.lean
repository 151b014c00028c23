import ToyTcpip.Dns.Name
import ToyTcpip.Ipv6Packet
import ToyTcpip.Lib.Tiled

/-! Messages and resource records of `dns.rs`. -/
namespace ToyTcpip.Dns

open Checked (index slice)
open Tiled (readMany)
open Utf8 (asBytes fromUtf8Lossy)

def dnsTypeA : BitVec 16 := 1
def dnsTypeNs : BitVec 16 := 2
def dnsTypeCname : BitVec 16 := 5
def dnsTypeSoa : BitVec 16 := 6
def dnsTypePtr : BitVec 16 := 12
def dnsTypeMx : BitVec 16 := 15
def dnsTypeTxt : BitVec 16 := 16
def dnsTypeAaaa : BitVec 16 := 28
def dnsTypeSrv : BitVec 16 := 33
def dnsTypeOpt : BitVec 16 := 41

def dnsClassIn : BitVec 16 := 1

structure DnsQuestion where
  name : String
  qtype : BitVec 16
  qclass : BitVec 16
  deriving DecidableEq

inductive DnsRecordData where
  | a (ip : Ipv4Address)
  | aaaa (ip : Ipv6Address)
  | cname (name : String)
  | ptr (name : String)
  | txt (texts : List String)
  | mx (preference : BitVec 16) (exchange : String)
  | ns (name : String)
  | srv (priority weight port : BitVec 16) (target : String)
  | soa (mname rname : String) (serial refresh retry expire minimum : BitVec 32)
  | opt (udpPayloadSize : BitVec 16) (extRcode version : BitVec 8) (flags : BitVec 16)
      (data : List UInt8)
  | raw (bytes : List UInt8)
  deriving DecidableEq

structure DnsAnswer where
  name : String
  rtype : BitVec 16
  rclass : BitVec 16
  ttl : BitVec 32
  ip : Ipv4Address
  data : DnsRecordData
  deriving DecidableEq

structure DnsMessage where
  id : BitVec 16
  isResponse : Bool
  recursionDesired : Bool
  recursionAvailable : Bool
  authoritative : Bool
  truncated : Bool
  rcode : BitVec 8
  questions : List DnsQuestion
  answers : List DnsAnswer
  authorities : List DnsAnswer
  additionals : List DnsAnswer
  deriving DecidableEq

/-! ### Records -/

/-- The loop over the strings of a TXT record. -/
def parseTexts (rdata : List UInt8) (off : ℕ) : Parsed (List String) :=
  if off < rdata.length then
    (index rdata off).bind fun slen =>
      if off + 1 + slen.toNat ≤ rdata.length then
        (slice rdata (off + 1) (off + 1 + slen.toNat)).bind fun text =>
          (parseTexts rdata (off + 1 + slen.toNat)).bind fun rest =>
            .ok (fromUtf8Lossy text :: rest)
      else .ok []
  else .ok []
termination_by rdata.length - off

def parseSoa (data : List UInt8) (mname rname : String) (off : ℕ) : Parsed DnsRecordData := do
  let serial ← read32 data off
  let refresh ← read32 data (off + 4)
  let retry ← read32 data (off + 8)
  let expire ← read32 data (off + 12)
  let minimum ← read32 data (off + 16)
  .ok (.soa mname rname serial refresh retry expire minimum)

/-- What a record holds; names are read from the whole message. -/
def parseRdata (data : List UInt8) (rtype rclass : BitVec 16) (ttl : BitVec 32) (start : ℕ)
    (rdata : List UInt8) : Parsed DnsRecordData :=
  if rtype = dnsTypeA ∧ rdata.length = 4 then
    .ok (.a ⟨byteAt rdata 0, byteAt rdata 1, byteAt rdata 2, byteAt rdata 3⟩)
  else if rtype = dnsTypeAaaa ∧ rdata.length = 16 then .ok (.aaaa (ipv6At rdata 0))
  else if rtype = dnsTypeCname then
    (decodeQname data start).bind fun target => .ok (.cname target.1)
  else if rtype = dnsTypePtr then
    (decodeQname data start).bind fun target => .ok (.ptr target.1)
  else if rtype = dnsTypeNs then
    (decodeQname data start).bind fun nsName => .ok (.ns nsName.1)
  else if rtype = dnsTypeMx ∧ 2 ≤ rdata.length then
    (read16 rdata 0).bind fun preference =>
      (decodeQname data (start + 2)).bind fun exchange => .ok (.mx preference exchange.1)
  else if rtype = dnsTypeTxt then (parseTexts rdata 0).bind fun texts => .ok (.txt texts)
  else if rtype = dnsTypeSrv ∧ 6 ≤ rdata.length then
    (read16 rdata 0).bind fun priority =>
      (read16 rdata 2).bind fun weight =>
        (read16 rdata 4).bind fun port =>
          (decodeQname data (start + 6)).bind fun target =>
            .ok (.srv priority weight port target.1)
  else if rtype = dnsTypeSoa then
    (decodeQname data start).bind fun mname =>
      (decodeQname data mname.2).bind fun rname =>
        if rname.2 + 20 ≤ start + rdata.length then parseSoa data mname.1 rname.1 rname.2
        else .ok (.raw rdata)
  else if rtype = dnsTypeOpt then
    .ok (.opt rclass ((ttl >>> 24).setWidth 8) ((ttl >>> 16).setWidth 8) (ttl.setWidth 16) rdata)
  else .ok (.raw rdata)

def legacyIp : DnsRecordData → Ipv4Address
  | .a ip => ip
  | _ => ⟨0, 0, 0, 0⟩

def parseResourceRecord (data : List UInt8) (offset : ℕ) : Parsed (DnsAnswer × ℕ) :=
  (decodeQname data offset).bind fun name =>
    if name.2 + 10 > data.length then .error (.packetTooShort data.length)
    else
      (read16 data name.2).bind fun rtype =>
        (read16 data (name.2 + 2)).bind fun rclass =>
          (read32 data (name.2 + 4)).bind fun ttl =>
            (read16 data (name.2 + 8)).bind fun rdlength =>
              if name.2 + 10 + rdlength.toNat > data.length then
                .error (.packetTooShort data.length)
              else
                (slice data (name.2 + 10) (name.2 + 10 + rdlength.toNat)).bind fun rdata =>
                  (parseRdata data rtype rclass ttl (name.2 + 10) rdata).bind fun parsed =>
                    .ok (⟨name.1, rtype, rclass, ttl, legacyIp parsed, parsed⟩,
                      name.2 + 10 + rdlength.toNat)

def parseQuestion (data : List UInt8) (offset : ℕ) : Parsed (DnsQuestion × ℕ) :=
  (decodeQname data offset).bind fun name =>
    if name.2 + 4 > data.length then .error (.packetTooShort data.length)
    else
      (read16 data name.2).bind fun qtype =>
        (read16 data (name.2 + 2)).bind fun qclass => .ok (⟨name.1, qtype, qclass⟩, name.2 + 4)

namespace DnsMessage

def parse (data : List UInt8) : Parsed DnsMessage :=
  if data.length < 12 then .error (.packetTooShort data.length)
  else do
    let id ← read16 data 0
    let flags ← read16 data 2
    let qdcount ← read16 data 4
    let ancount ← read16 data 6
    let nscount ← read16 data 8
    let arcount ← read16 data 10
    let questions ← readMany (parseQuestion data) qdcount.toNat 12
    let answers ← readMany (parseResourceRecord data) ancount.toNat questions.2
    let authorities ← readMany (parseResourceRecord data) nscount.toNat answers.2
    let additionals ← readMany (parseResourceRecord data) arcount.toNat authorities.2
    .ok {
      id := id
      isResponse := flags &&& 0x8000 ≠ 0
      recursionDesired := flags &&& 0x0100 ≠ 0
      recursionAvailable := flags &&& 0x0080 ≠ 0
      authoritative := flags &&& 0x0400 ≠ 0
      truncated := flags &&& 0x0200 ≠ 0
      rcode := (flags &&& 0x000F).setWidth 8
      questions := questions.1
      answers := answers.1
      authorities := authorities.1
      additionals := additionals.1
    }

/-- The records of all three sections, in the order of the message. -/
def records (m : DnsMessage) : List DnsAnswer := m.answers ++ m.authorities ++ m.additionals

/-! ### Builders -/

/-- The header of a message with one question. -/
def header (id flags ancount : BitVec 16) : List UInt8 :=
  toBeBytes16 id.toNat ++ (toBeBytes16 flags.toNat ++ (toBeBytes16 (1 : BitVec 16).toNat ++
    (toBeBytes16 ancount.toNat ++ (toBeBytes16 (0 : BitVec 16).toNat ++
      toBeBytes16 (0 : BitVec 16).toNat))))

def question (hostname : String) (qtype : BitVec 16) : List UInt8 :=
  encodeQname hostname ++ (toBeBytes16 qtype.toNat ++ toBeBytes16 dnsClassIn.toNat)

def buildTypedQuery (id : BitVec 16) (hostname : String) (qtype : BitVec 16) : List UInt8 :=
  header id 0x0100 0 ++ question hostname qtype

def buildQuery (id : BitVec 16) (hostname : String) : List UInt8 :=
  buildTypedQuery id hostname dnsTypeA

def buildNxdomainResponse (id : BitVec 16) (hostname : String) (qtype : BitVec 16) : List UInt8 :=
  header id 0x8183 0 ++ question hostname qtype

/-- A question, and an answer whose name points back at it. -/
def buildAnswer (id : BitVec 16) (hostname : String) (rtype : BitVec 16) (ttl : BitVec 32)
    (rdata : List UInt8) : List UInt8 :=
  header id 0x8180 1 ++ (question hostname rtype ++ ([0xC0, 12] ++ (toBeBytes16 rtype.toNat ++
    (toBeBytes16 dnsClassIn.toNat ++ (toBeBytes32 ttl.toNat ++
      (toBeBytes16 rdata.length ++ rdata))))))

def buildResponse (id : BitVec 16) (hostname : String) (ip : Ipv4Address) (ttl : BitVec 32) :
    List UInt8 :=
  buildAnswer id hostname dnsTypeA ttl ip.octets

def buildAaaaResponse (id : BitVec 16) (hostname : String) (ip : Ipv6Address) (ttl : BitVec 32) :
    List UInt8 :=
  buildAnswer id hostname dnsTypeAaaa ttl ip.octets

def buildCnameResponse (id : BitVec 16) (hostname target : String) (ttl : BitVec 32) : List UInt8 :=
  buildAnswer id hostname dnsTypeCname ttl (encodeQname target)

def buildPtrResponse (id : BitVec 16) (ptrName target : String) (ttl : BitVec 32) : List UInt8 :=
  buildAnswer id ptrName dnsTypePtr ttl (encodeQname target)

/-- A text after its length, cut to what a length byte can say. -/
def textBytes (text : String) : List UInt8 :=
  let len := min (asBytes text).length 255
  UInt8.ofNat len :: (asBytes text).take len

def buildTxtResponse (id : BitVec 16) (hostname : String) (texts : List String) (ttl : BitVec 32) :
    List UInt8 :=
  buildAnswer id hostname dnsTypeTxt ttl (texts.flatMap textBytes)

def buildMxResponse (id : BitVec 16) (hostname : String) (preference : BitVec 16)
    (exchange : String) (ttl : BitVec 32) : List UInt8 :=
  buildAnswer id hostname dnsTypeMx ttl (toBeBytes16 preference.toNat ++ encodeQname exchange)

def buildSrvResponse (id : BitVec 16) (hostname : String) (priority weight port : BitVec 16)
    (target : String) (ttl : BitVec 32) : List UInt8 :=
  buildAnswer id hostname dnsTypeSrv ttl (toBeBytes16 priority.toNat ++ (toBeBytes16 weight.toNat ++
    (toBeBytes16 port.toNat ++ encodeQname target)))

end DnsMessage

end ToyTcpip.Dns
