import ToyTcpip.Ipv4
import ToyTcpip.Lib.Serial

/-! Sequence number comparisons of `tcp_seq.rs`, and their meaning on positions. -/
namespace ToyTcpip

open Serial

abbrev SeqNum := BitVec 32

def seqLt (s1 s2 : SeqNum) : Bool := (s1 - s2).toInt < 0

def seqLe (s1 s2 : SeqNum) : Bool := (s1 - s2).toInt ≤ 0

def seqGt (s1 s2 : SeqNum) : Bool := (s1 - s2).toInt > 0

def seqGe (s1 s2 : SeqNum) : Bool := (s1 - s2).toInt ≥ 0

/-- Forward distance from `s1` to `s2`. -/
def seqDiff (s2 s1 : SeqNum) : SeqNum := s2 - s1

section positions

variable {b : SeqNum} {i j : ℕ}

theorem seqLt_pos (h₁ : j ≤ i + 2 ^ 31) (h₂ : i < j + 2 ^ 31) :
    seqLt (pos b i) (pos b j) = true ↔ i < j := by
  have h := toInt_pos_sub_pos (w := 32) (by omega) b (i := i) (j := j) (by omega) (by omega)
  simp only [seqLt, h, decide_eq_true_eq]
  omega

theorem seqLe_pos (h₁ : j ≤ i + 2 ^ 31) (h₂ : i < j + 2 ^ 31) :
    seqLe (pos b i) (pos b j) = true ↔ i ≤ j := by
  have h := toInt_pos_sub_pos (w := 32) (by omega) b (i := i) (j := j) (by omega) (by omega)
  simp only [seqLe, h, decide_eq_true_eq]
  omega

theorem seqGt_pos (h₁ : j ≤ i + 2 ^ 31) (h₂ : i < j + 2 ^ 31) :
    seqGt (pos b i) (pos b j) = true ↔ j < i := by
  have h := toInt_pos_sub_pos (w := 32) (by omega) b (i := i) (j := j) (by omega) (by omega)
  simp only [seqGt, h, decide_eq_true_eq]
  omega

theorem seqGe_pos (h₁ : j ≤ i + 2 ^ 31) (h₂ : i < j + 2 ^ 31) :
    seqGe (pos b i) (pos b j) = true ↔ j ≤ i := by
  have h := toInt_pos_sub_pos (w := 32) (by omega) b (i := i) (j := j) (by omega) (by omega)
  simp only [seqGe, h, decide_eq_true_eq]
  omega

theorem seqDiff_pos (h : j ≤ i) (hw : i - j < 2 ^ 32) :
    (seqDiff (pos b i) (pos b j)).toNat = i - j :=
  toNat_pos_sub_pos b h hw

end positions

theorem seqGt_eq_not_seqLe (s1 s2 : SeqNum) : seqGt s1 s2 = !seqLe s1 s2 := by
  simp only [seqGt, seqLe, gt_iff_lt, ← not_le, decide_not]

theorem eq_of_seqGe_of_not_seqGt {s1 s2 : SeqNum} (hge : seqGe s1 s2 = true)
    (hgt : seqGt s1 s2 = false) : s1 = s2 := by
  simp only [seqGe, seqGt, decide_eq_true_eq, decide_eq_false_iff_not] at hge hgt
  have hzero : s1 - s2 = 0 := by
    apply BitVec.eq_of_toInt_eq
    have h0 : (0 : SeqNum).toInt = 0 := rfl
    omega
  exact sub_eq_zero.mp hzero

end ToyTcpip

/-! ### TCP segments and the serializer of `tcp.rs`. -/
namespace ToyTcpip.Tcp

def tcpMinHeaderLen : ℕ := 20

def tcpMaxOptionsLen : ℕ := 40

inductive TcpOption where
  | endOfOptions
  | nop
  | mss (mss : BitVec 16)
  | windowScale (scale : UInt8)
  | sackPermitted
  | sack (blocks : List (SeqNum × SeqNum))
  | timestamp (val ecr : BitVec 32)
  | unknown (kind : UInt8) (data : List UInt8)
  deriving DecidableEq, Repr

structure TcpFlags where
  fin : Bool := false
  syn : Bool := false
  rst : Bool := false
  psh : Bool := false
  ack : Bool := false
  urg : Bool := false
  deriving DecidableEq, Repr

namespace TcpFlags

def toU8 (f : TcpFlags) : UInt8 :=
  (if f.fin then 0x01 else 0) ||| (if f.syn then 0x02 else 0) ||| (if f.rst then 0x04 else 0) |||
    (if f.psh then 0x08 else 0) ||| (if f.ack then 0x10 else 0) ||| (if f.urg then 0x20 else 0)

def synAck : TcpFlags := { syn := true, ack := true }

def ackOnly : TcpFlags := { ack := true }

def synOnly : TcpFlags := { syn := true }

def finAck : TcpFlags := { fin := true, ack := true }

def pshAck : TcpFlags := { psh := true, ack := true }

end TcpFlags

/-- What a segment says, apart from the fields the wire format derives or ignores
(`data_offset`, `checksum`, `urgent_ptr`). -/
structure TcpSegment where
  srcPort : BitVec 16
  dstPort : BitVec 16
  seqNum : SeqNum
  ackNum : SeqNum
  flags : TcpFlags
  windowSize : BitVec 16
  options : List TcpOption
  payload : List UInt8
  deriving DecidableEq, Repr

inductive TcpSerializeError where
  | optionLengthTooLarge (kind : UInt8) (length : ℕ)
  | optionsTooLong (length max : ℕ)
  deriving DecidableEq, Repr

/-- The bytes of one option, or the error of an option whose length field overflows. -/
def TcpOption.encode : TcpOption → Except TcpSerializeError (List UInt8)
  | .endOfOptions => .ok [0]
  | .nop => .ok [1]
  | .mss m => .ok ([2, 4] ++ toBeBytes16 m.toNat)
  | .windowScale scale => .ok [3, 3, scale]
  | .sackPermitted => .ok [4, 2]
  | .sack blocks =>
    let count := min blocks.length 4
    .ok ([5, UInt8.ofNat (2 + count * 8)] ++
      (blocks.take count).flatMap fun b => toBeBytes32 b.1.toNat ++ toBeBytes32 b.2.toNat)
  | .timestamp val ecr => .ok ([8, 10] ++ toBeBytes32 val.toNat ++ toBeBytes32 ecr.toNat)
  | .unknown kind data =>
    if 255 < data.length + 2 then .error (.optionLengthTooLarge kind (data.length + 2))
    else .ok ([kind, UInt8.ofNat (data.length + 2)] ++ data)

/-- The option loop: the length is checked after every option. -/
def encodeOptionsFrom (optBytes : List UInt8) :
    List TcpOption → Except TcpSerializeError (List UInt8)
  | [] => .ok optBytes
  | opt :: rest =>
    match opt.encode with
    | .error e => .error e
    | .ok bytes =>
      let optBytes := optBytes ++ bytes
      if tcpMaxOptionsLen < optBytes.length then
        .error (.optionsTooLong optBytes.length tcpMaxOptionsLen)
      else encodeOptionsFrom optBytes rest

/-- NOP padding up to a multiple of four. -/
def padOptions (optBytes : List UInt8) : List UInt8 :=
  optBytes ++ List.replicate ((4 - optBytes.length % 4) % 4) 1

/-- The header before its checksum is filled in, followed by options and payload. -/
def TcpSegment.rawBytes (seg : TcpSegment) (checksum : ℕ) (optBytes : List UInt8) : List UInt8 :=
  toBeBytes16 seg.srcPort.toNat ++ toBeBytes16 seg.dstPort.toNat ++
    toBeBytes32 seg.seqNum.toNat ++ toBeBytes32 seg.ackNum.toNat ++
    [UInt8.ofNat ((tcpMinHeaderLen + optBytes.length) / 4 * 16), seg.flags.toU8] ++
    toBeBytes16 seg.windowSize.toNat ++ toBeBytes16 checksum ++ toBeBytes16 0 ++
    optBytes ++ seg.payload

def TcpSegment.trySerializeWithOptions (srcIp dstIp : Ipv4Address) (seg : TcpSegment) :
    Except TcpSerializeError (List UInt8) :=
  match encodeOptionsFrom [] seg.options with
  | .error e => .error e
  | .ok optBytes =>
    let optBytes := padOptions optBytes
    if tcpMaxOptionsLen < optBytes.length then
      .error (.optionsTooLong optBytes.length tcpMaxOptionsLen)
    else
      let csum := computeIpv4TransportChecksum srcIp.octets dstIp.octets 6 (seg.rawBytes 0 optBytes)
      .ok (seg.rawBytes csum optBytes)

end ToyTcpip.Tcp
