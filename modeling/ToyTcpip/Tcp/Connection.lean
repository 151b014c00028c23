import Std.Data.TreeMap
import ToyTcpip.Congestion
import ToyTcpip.Tcp.Segment

/-! The connection record of `tcp.rs` and the operations the application calls on it. -/
namespace ToyTcpip.Tcp

def maxRetransmits : ℕ := 12

def maxOooBytes : ℕ := 262144

def timeWaitMs : ℕ := 2000

def persistIntervalMs : ℕ := 500

def sndBufferCapacity : ℕ := 262144

inductive TcpState where
  | closed
  | listen
  | synSent
  | synReceived
  | established
  | finWait1
  | finWait2
  | closeWait
  | closing
  | lastAck
  | timeWait
  deriving DecidableEq, Repr

structure SocketAddrV4 where
  ip : Ipv4Address
  port : BitVec 16
  deriving DecidableEq, Repr

structure TcpStats where
  bytesSent : ℕ := 0
  bytesReceived : ℕ := 0
  segmentsSent : ℕ := 0
  segmentsReceived : ℕ := 0
  retransmissions : ℕ := 0
  duplicateAcks : ℕ := 0
  fastRetransmits : ℕ := 0
  timeouts : ℕ := 0
  invalidSegments : ℕ := 0
  zeroWindowProbes : ℕ := 0
  sackBlocksReceived : ℕ := 0
  sackBlocksSent : ℕ := 0
  pawsDiscards : ℕ := 0
  deriving DecidableEq, Repr

structure RetransmitSegment where
  seqNum : SeqNum
  endSeq : SeqNum
  flags : TcpFlags
  payload : List UInt8
  firstSentMs : ℕ
  lastSentMs : ℕ
  retransmits : ℕ
  sacked : Bool
  deriving DecidableEq, Repr

/-- Milliseconds are naturals; `ρ` is the RTT estimator's state. -/
structure TcpConnection (ρ : Type) where
  localAddr : SocketAddrV4
  remoteAddr : SocketAddrV4
  state : TcpState
  sndUna : SeqNum
  sndNxt : SeqNum
  sndWnd : BitVec 16
  rcvNxt : SeqNum
  rcvWnd : BitVec 16
  rcvCapacity : ℕ
  peerMss : BitVec 16
  localMss : BitVec 16
  rxBuffer : List UInt8
  txBuffer : List UInt8
  oooQueue : Std.TreeMap SeqNum (List UInt8)
  oooSegments : List (SeqNum × List UInt8)
  retransmitQueue : List RetransmitSegment
  congestion : CongestionControl
  rtt : ρ
  stats : TcpStats
  currentTimeMs : ℕ
  timeWaitEnteredMs : Option ℕ
  finSent : Bool
  finReceived : Bool
  closeRequested : Bool
  aborted : Bool
  persistDeadlineMs : Option ℕ
  lastAdvertisedWnd : BitVec 16
  sackPermitted : Bool
  peerSackPermitted : Bool
  tsEnabled : Bool
  tsRecent : BitVec 32
  lastTsAck : BitVec 32
  lastAckSent : SeqNum

namespace TcpConnection

variable {ρ : Type} [RttEstimator ρ]

/-- `new_server` and `new_client` differ in the state they start from. -/
def newIn (state : TcpState) (localAddr remoteAddr : SocketAddrV4) (isn : SeqNum) :
    TcpConnection ρ :=
  { localAddr, remoteAddr, state
    sndUna := isn, sndNxt := isn, sndWnd := 65535
    rcvNxt := 0, rcvWnd := 65535, rcvCapacity := 65535
    peerMss := 1460, localMss := 1460
    rxBuffer := [], txBuffer := [], oooQueue := ∅, oooSegments := [], retransmitQueue := []
    congestion := .new 1460, rtt := RttEstimator.new, stats := {}
    currentTimeMs := 0, timeWaitEnteredMs := none
    finSent := false, finReceived := false, closeRequested := false, aborted := false
    persistDeadlineMs := none, lastAdvertisedWnd := 65535
    sackPermitted := false, peerSackPermitted := false
    tsEnabled := false, tsRecent := 0, lastTsAck := 0, lastAckSent := 0 }

def newServer (localAddr remoteAddr : SocketAddrV4) (isn : SeqNum) : TcpConnection ρ :=
  newIn .listen localAddr remoteAddr isn

def newClient (localAddr remoteAddr : SocketAddrV4) (isn : SeqNum) : TcpConnection ρ :=
  newIn .closed localAddr remoteAddr isn

/-- The segment handed to the serializer: ports are the connection's own. -/
def segment (c : TcpConnection ρ) (seqNum ackNum : SeqNum) (flags : TcpFlags)
    (windowSize : BitVec 16) (options : List TcpOption) (payload : List UInt8) : TcpSegment :=
  { srcPort := c.localAddr.port, dstPort := c.remoteAddr.port
    seqNum, ackNum, flags, windowSize, options, payload }

def currentRcvWnd (c : TcpConnection ρ) : BitVec 16 :=
  BitVec.ofNat 16 (min (c.rcvCapacity - c.rxBuffer.length) 65535)

def write (c : TcpConnection ρ) (data : List UInt8) : TcpConnection ρ × ℕ :=
  let accepted := min (sndBufferCapacity - c.txBuffer.length) data.length
  ({ c with txBuffer := c.txBuffer ++ data.take accepted }, accepted)

/-- A read into a buffer of `len` bytes; the bytes copied are returned. -/
def read (c : TcpConnection ρ) (len : ℕ) : TcpConnection ρ × List UInt8 :=
  if c.rxBuffer = [] then (c, [])
  else
    let toRead := min len c.rxBuffer.length
    let c' := { c with rxBuffer := c.rxBuffer.drop toRead }
    ({ c' with rcvWnd := c'.currentRcvWnd }, c.rxBuffer.take toRead)

def trackForRetransmit (c : TcpConnection ρ) (seq len : SeqNum) (flags : TcpFlags)
    (payload : List UInt8) (now : ℕ) : TcpConnection ρ :=
  { c with
    retransmitQueue := c.retransmitQueue ++
      [{ seqNum := seq, endSeq := seq + len, flags, payload
         firstSentMs := now, lastSentMs := now, retransmits := 0, sacked := false }]
    congestion := c.congestion.recordSent len }

/-- Karn's algorithm: only a segment sent once gives a round-trip sample. -/
def retireAcked (c : TcpConnection ρ) (ackNum : SeqNum) (now : ℕ) : TcpConnection ρ :=
  { c with
    retransmitQueue := c.retransmitQueue.filter fun e => !seqLe e.endSeq ackNum
    rtt := c.retransmitQueue.foldl (fun r e =>
      if seqLe e.endSeq ackNum && e.retransmits = 0 then
        RttEstimator.updateSample r (max (now - e.firstSentMs) 1)
      else r) c.rtt }

/-- Slides the send window up to an acknowledgement: the four lines every arm shares. -/
def acknowledge (c : TcpConnection ρ) (ackNum : SeqNum) (now : ℕ) : TcpConnection ρ :=
  let acked := seqDiff ackNum c.sndUna
  { c with sndUna := ackNum, congestion := c.congestion.onAck acked }.retireAcked ackNum now

def initiateSynAt (c : TcpConnection ρ) (now : ℕ) : TcpConnection ρ × TcpSegment :=
  let synSeq := c.sndNxt
  let c := { c with currentTimeMs := now, state := .synSent, sndNxt := c.sndNxt + 1 }
  let options := [.mss c.localMss, .sackPermitted] ++
    if c.tsEnabled then [.timestamp (BitVec.ofNat 32 now) 0] else []
  let packet := c.segment synSeq 0 .synOnly c.currentRcvWnd options []
  let c := c.trackForRetransmit synSeq 1 .synOnly [] now
  ({ c with stats.segmentsSent := c.stats.segmentsSent + 1 }, packet)

/-- The FIN itself, and the state the connection moves to with it. -/
def sendFin (c : TcpConnection ρ) (next : TcpState) (now : ℕ) : TcpConnection ρ × TcpSegment :=
  let finSeq := c.sndNxt
  let c := { c with
    state := next, sndNxt := c.sndNxt + 1, finSent := true, lastAckSent := c.rcvNxt }
  let packet := c.segment finSeq c.rcvNxt .finAck c.currentRcvWnd [] []
  let c := c.trackForRetransmit finSeq 1 .finAck [] now
  ({ c with stats.segmentsSent := c.stats.segmentsSent + 1 }, packet)

def emitFin (c : TcpConnection ρ) (now : ℕ) : TcpConnection ρ × Option TcpSegment :=
  if c.finSent then (c, none)
  else
    match c.state with
    | .established => let (c, fin) := c.sendFin .finWait1 now; (c, some fin)
    | .closeWait => let (c, fin) := c.sendFin .lastAck now; (c, some fin)
    | _ => (c, none)

def initiateCloseAt (c : TcpConnection ρ) (now : ℕ) : TcpConnection ρ × Option TcpSegment :=
  let c := { c with currentTimeMs := now }
  if c.state = .established ∨ c.state = .closeWait then
    let c := { c with closeRequested := true }
    if c.txBuffer = [] then c.emitFin now else (c, none)
  else (c, none)

end TcpConnection

end ToyTcpip.Tcp
