import Mathlib.Data.List.Sort
import ToyTcpip.Tcp.Connection

/-! The receive path of `tcp.rs`: window trimming, reassembly and acknowledgements. -/
namespace ToyTcpip.Tcp

/-- One queued out-of-order segment: its sequence number and its bytes. -/
abbrev OooSegment := SeqNum × List UInt8

/-- The sequence number after an out-of-order segment. -/
def oooEnd (e : OooSegment) : SeqNum := e.1 + BitVec.ofNat 32 e.2.length

/-- The receive position a drain works on. -/
structure DrainState where
  rcvNxt : SeqNum
  rxBuffer : List UInt8
  bytesReceived : ℕ

/-- Appends the part of a contiguous segment that lies above `rcv_nxt`. -/
def DrainState.consume (d : DrainState) (e : OooSegment) : DrainState :=
  let fresh := e.2.drop (seqDiff d.rcvNxt e.1).toNat
  { rcvNxt := d.rcvNxt + BitVec.ofNat 32 fresh.length
    rxBuffer := d.rxBuffer ++ fresh
    bytesReceived := d.bytesReceived + fresh.length }

/-- One pass of the inner loop: what is left of the queue, and whether anything moved. -/
def drainPass (d : DrainState) : List OooSegment → DrainState × List OooSegment × Bool
  | [] => (d, [], false)
  | e :: rest =>
    if seqLe (oooEnd e) d.rcvNxt then
      let (d, left, _) := drainPass d rest
      (d, left, true)
    else if seqLe e.1 d.rcvNxt then
      let (d, left, _) := drainPass (d.consume e) rest
      (d, left, true)
    else
      let (d, left, advanced) := drainPass d rest
      (d, e :: left, advanced)

/-- The outer loop. Each pass that moves something shortens the queue, so as many rounds as
there are segments reach a pass that moves nothing. -/
def drainLoop : ℕ → DrainState → List OooSegment → DrainState × List OooSegment
  | 0, d, ooo => (d, ooo)
  | rounds + 1, d, ooo =>
    match drainPass d ooo with
    | (d, left, true) => drainLoop rounds d left
    | (d, left, false) => (d, left)

/-- Adds one queued segment to the SACK blocks, extending the last block when adjacent. -/
def pushBlock (blocks : List (SeqNum × SeqNum)) (e : OooSegment) : List (SeqNum × SeqNum) :=
  match blocks.getLast? with
  | some last =>
    if last.2 = e.1 then blocks.dropLast ++ [(last.1, oooEnd e)] else blocks ++ [(e.1, oooEnd e)]
  | none => [(e.1, oooEnd e)]

namespace TcpConnection

variable {ρ : Type}

def oooBytes (ooo : List OooSegment) : ℕ := (ooo.map fun e => e.2.length).sum

def syncLegacyOooView (c : TcpConnection ρ) : TcpConnection ρ :=
  { c with oooQueue := c.oooSegments.foldl (fun m e => m.insert e.1 e.2) ∅ }

/-- The part of a segment that lies right of `rcv_nxt`, if any does. -/
def trimLeft (c : TcpConnection ρ) (seq : SeqNum) (payload : List UInt8) : Option OooSegment :=
  if payload = [] then none
  else if seqLe (seq + BitVec.ofNat 32 payload.length) c.rcvNxt then none
  else if seqLt seq c.rcvNxt then
    let offset := (seqDiff c.rcvNxt seq).toNat
    if payload.length ≤ offset then none else some (c.rcvNxt, payload.drop offset)
  else some (seq, payload)

/-- The part of a left-trimmed segment that lies inside the receive window, if any does. -/
def trimRight (c : TcpConnection ρ) (e : OooSegment) : Option OooSegment :=
  let window := c.currentRcvWnd.toNat
  let offset := (seqDiff e.1 c.rcvNxt).toNat
  if window = 0 then none
  else if window ≤ offset then none
  else
    let payload := if window - offset < e.2.length then e.2.take (window - offset) else e.2
    if payload = [] then none else some (e.1, payload)

/-- What `accept_data` keeps of a segment. -/
def trimToWindow (c : TcpConnection ρ) (seq : SeqNum) (payload : List UInt8) :
    Option OooSegment :=
  (c.trimLeft seq payload).bind c.trimRight

/-- A queued segment `e` spans the sequence numbers from `l` to `r`. -/
def coveredBy (e : OooSegment) (l r : SeqNum) : Bool := seqLe e.1 l && seqLe r (oooEnd e)

/-- The queued segments that the new one does not fully cover. -/
def retainUncovered (ooo : List OooSegment) (new : OooSegment) : List OooSegment :=
  ooo.filter fun e => !(seqLe new.1 e.1 && seqLe (oooEnd e) (oooEnd new))

def bufferOoo (c : TcpConnection ρ) (new : OooSegment) : TcpConnection ρ :=
  if c.oooSegments.any (coveredBy · new.1 (oooEnd new)) then c
  else
    let kept := retainUncovered c.oooSegments new
    if maxOooBytes < oooBytes kept + new.2.length then { c with oooSegments := kept }
    else
      { c with oooSegments := (kept ++ [new]).insertionSort fun a b => seqLt a.1 b.1 = true }

def drainOoo (c : TcpConnection ρ) : TcpConnection ρ :=
  let (d, left) := drainLoop c.oooSegments.length
    ⟨c.rcvNxt, c.rxBuffer, c.stats.bytesReceived⟩ c.oooSegments
  { c with
    rcvNxt := d.rcvNxt, rxBuffer := d.rxBuffer, stats.bytesReceived := d.bytesReceived
    oooSegments := left }

/-- In-order bytes go to the application's buffer and may release queued segments. -/
def acceptInOrder (c : TcpConnection ρ) (payload : List UInt8) : TcpConnection ρ :=
  { c with
    rxBuffer := c.rxBuffer ++ payload
    rcvNxt := c.rcvNxt + BitVec.ofNat 32 payload.length
    stats.bytesReceived := c.stats.bytesReceived + payload.length }.drainOoo

def acceptData (c : TcpConnection ρ) (seq : SeqNum) (payload : List UInt8) : TcpConnection ρ :=
  match c.trimToWindow seq payload with
  | none => c
  | some e =>
    (if e.1 = c.rcvNxt then c.acceptInOrder e.2 else c.bufferOoo e).syncLegacyOooView

def buildSackBlocks (c : TcpConnection ρ) : List (SeqNum × SeqNum) :=
  (c.oooSegments.foldl pushBlock []).take 4

/-- The SACK option of an outgoing segment, when there is anything to report. -/
def sackOptions (c : TcpConnection ρ) : List TcpOption :=
  if c.sackPermitted ∧ c.oooSegments ≠ [] ∧ c.buildSackBlocks ≠ [] then [.sack c.buildSackBlocks]
  else []

def timestampOptions (c : TcpConnection ρ) (now : ℕ) : List TcpOption :=
  if c.tsEnabled then [.timestamp (BitVec.ofNat 32 now) c.tsRecent] else []

def buildAck (c : TcpConnection ρ) : TcpConnection ρ × TcpSegment :=
  let wnd := c.currentRcvWnd
  let options := c.sackOptions ++ c.timestampOptions c.currentTimeMs
  let sackSent := if c.sackOptions = [] then 0 else c.buildSackBlocks.length
  let stats := { c.stats with
    segmentsSent := c.stats.segmentsSent + 1
    sackBlocksSent := c.stats.sackBlocksSent + sackSent }
  ({ c with stats, lastAckSent := c.rcvNxt, lastAdvertisedWnd := wnd },
    c.segment c.sndNxt c.rcvNxt .ackOnly wnd options [])

def rstAcceptable (c : TcpConnection ρ) (seg : TcpSegment) : Bool :=
  match c.state with
  | .synSent => seg.flags.ack && seg.ackNum = c.sndNxt
  | .listen | .closed => false
  | _ =>
    let window := max c.currentRcvWnd.toNat 1
    seqGe seg.seqNum c.rcvNxt && seqLt seg.seqNum (c.rcvNxt + BitVec.ofNat 32 window)

end TcpConnection

end ToyTcpip.Tcp

/-! ### The connection state machine of `tcp.rs`: incoming segments and the output pump. -/
namespace ToyTcpip.Tcp

/-- The oldest entry not covered by a SACK, with the queue after it was sent once more. -/
def touchOldest (now : ℕ) :
    List RetransmitSegment → Option (RetransmitSegment × List RetransmitSegment)
  | [] => none
  | e :: rest =>
    if e.sacked then (touchOldest now rest).map fun r => (r.1, e :: r.2)
    else some (e, { e with lastSentMs := now, retransmits := e.retransmits + 1 } :: rest)

/-- The sequence number after the SYN and the payload of a segment, where its FIN stands. -/
def TcpSegment.finSeq (seg : TcpSegment) : SeqNum :=
  seg.seqNum + (if seg.flags.syn then 1 else 0) + BitVec.ofNat 32 seg.payload.length

namespace TcpConnection

variable {ρ : Type} [RttEstimator ρ]

def retransmitOldest (c : TcpConnection ρ) (now : ℕ) (fast : Bool) :
    TcpConnection ρ × Option TcpSegment :=
  match touchOldest now c.retransmitQueue with
  | none => (c, none)
  | some (oldest, queue) =>
    if maxRetransmits ≤ oldest.retransmits then (c, none)
    else
      -- A SYN or SYN-ACK is rebuilt with the MSS and SACK options, but without the timestamp.
      let options :=
        if oldest.flags.syn then
          [.mss c.localMss] ++ if c.sackPermitted then [.sackPermitted] else []
        else c.sackOptions ++ c.timestampOptions now
      let stats := { c.stats with
        retransmissions := c.stats.retransmissions + 1
        segmentsSent := c.stats.segmentsSent + 1
        fastRetransmits := c.stats.fastRetransmits + if fast then 1 else 0 }
      ({ c with retransmitQueue := queue, stats },
        some (c.segment oldest.seqNum c.rcvNxt oldest.flags c.currentRcvWnd options oldest.payload))

/-! ### Incoming segments -/

def markSacked (c : TcpConnection ρ) (block : SeqNum × SeqNum) : TcpConnection ρ :=
  { c with
    stats.sackBlocksReceived := c.stats.sackBlocksReceived + 1
    retransmitQueue := c.retransmitQueue.map fun e =>
      if seqGe e.seqNum block.1 && seqLe e.endSeq block.2 then { e with sacked := true } else e }

/-- One round of the option loop; the timestamp is only captured. -/
def inspectOption (r : TcpConnection ρ × Option (BitVec 32 × BitVec 32)) (opt : TcpOption) :
    TcpConnection ρ × Option (BitVec 32 × BitVec 32) :=
  let (c, ts) := r
  match opt with
  | .mss m => ({ c with peerMss := m, congestion.mss := m.toNat }, ts)
  | .sackPermitted => ({ c with peerSackPermitted := true, sackPermitted := true }, ts)
  | .sack blocks => (blocks.foldl markSacked c, ts)
  | .timestamp val ecr => (c, some (val, ecr))
  | _ => (c, ts)

def inspectOptions (c : TcpConnection ρ) (options : List TcpOption) :
    TcpConnection ρ × Option (BitVec 32 × BitVec 32) :=
  options.foldl inspectOption (c, none)

/-- The handshake is past. -/
def synchronized (c : TcpConnection ρ) : Bool :=
  c.state ≠ .closed ∧ c.state ≠ .listen ∧ c.state ≠ .synSent

/-- A SYN decides whether timestamps are in use, and only before synchronization. -/
def negotiateTimestamps (c : TcpConnection ρ) (seg : TcpSegment)
    (ts : Option (BitVec 32 × BitVec 32)) : TcpConnection ρ :=
  if seg.flags.syn ∧ ¬ c.synchronized then
    match ts with
    | some (val, _) =>
      { c with tsEnabled := true, tsRecent := val, lastAckSent := seg.seqNum + 1 }
    | none => { c with tsEnabled := false }
  else c

/-- The PAWS test: an old duplicate on a synchronized connection. -/
def pawsRejects (c : TcpConnection ρ) (seg : TcpSegment)
    (ts : Option (BitVec 32 × BitVec 32)) : Bool :=
  match ts with
  | some (val, _) => c.synchronized && !seg.flags.rst && !seg.flags.syn && seqLt val c.tsRecent
  | none => false

def recordTimestamp (c : TcpConnection ρ) (seg : TcpSegment)
    (ts : Option (BitVec 32 × BitVec 32)) (now : ℕ) : TcpConnection ρ :=
  match ts with
  | none => c
  | some (val, ecr) =>
    let tsRecent :=
      if seqGe val c.tsRecent && seqLe seg.seqNum c.lastAckSent then val else c.tsRecent
    -- `saturating_sub` on the truncated clock; a zero sample is not taken.
    let sample := (BitVec.ofNat 32 now).toNat - ecr.toNat
    let rtt := if ecr ≠ 0 ∧ 0 < sample then RttEstimator.updateSample c.rtt sample else c.rtt
    { c with tsRecent, lastTsAck := ecr, rtt }

def handleRst (c : TcpConnection ρ) (seg : TcpSegment) : TcpConnection ρ :=
  if c.rstAcceptable seg then
    { c with
      state := .closed, retransmitQueue := [], txBuffer := [], oooSegments := [], oooQueue := ∅ }
  else { c with stats.invalidSegments := c.stats.invalidSegments + 1 }

def handleListen (c : TcpConnection ρ) (seg : TcpSegment) (now : ℕ) :
    TcpConnection ρ × Option TcpSegment :=
  if seg.flags.syn then
    let mySynSeq := c.sndNxt
    let c := { c with
      rcvNxt := seg.seqNum + 1, sndWnd := seg.windowSize, sndNxt := c.sndNxt + 1
      state := .synReceived }
    let options := [.mss c.localMss] ++
      (if c.peerSackPermitted then [.sackPermitted] else []) ++ c.timestampOptions now
    let synAck := c.segment mySynSeq c.rcvNxt .synAck c.currentRcvWnd options []
    let c := c.trackForRetransmit mySynSeq 1 .synAck [] now
    ({ c with lastAckSent := c.rcvNxt, stats.segmentsSent := c.stats.segmentsSent + 1 },
      some synAck)
  else (c, none)

/-- A reply without options, as the handshake and TIME_WAIT arms build it. -/
def plainReply (c : TcpConnection ρ) (flags : TcpFlags) : TcpConnection ρ × Option TcpSegment :=
  ({ c with lastAckSent := c.rcvNxt, stats.segmentsSent := c.stats.segmentsSent + 1 },
    some (c.segment c.sndNxt c.rcvNxt flags c.currentRcvWnd [] []))

def handleSynSent (c : TcpConnection ρ) (seg : TcpSegment) (now : ℕ) :
    TcpConnection ρ × Option TcpSegment :=
  if seg.flags.syn ∧ seg.flags.ack then
    if seg.ackNum = c.sndNxt then
      let c := { c with
        rcvNxt := seg.seqNum + 1, sndWnd := seg.windowSize, state := .established }
      (c.acknowledge seg.ackNum now).plainReply .ackOnly
    else (c, none)
  else if seg.flags.syn then
    -- Simultaneous open: the reply takes `snd_nxt`, which the SYN has already advanced.
    { c with rcvNxt := seg.seqNum + 1, state := .synReceived }.plainReply .synAck
  else (c, none)

def replyAck (c : TcpConnection ρ) : TcpConnection ρ × Option TcpSegment :=
  (c.buildAck.1, some c.buildAck.2)

def handleSynReceived (c : TcpConnection ρ) (seg : TcpSegment) (now : ℕ) :
    TcpConnection ρ × Option TcpSegment :=
  if seg.flags.ack ∧ seg.ackNum = c.sndNxt then
    let c := { c with sndWnd := seg.windowSize, state := .established }.acknowledge seg.ackNum now
    if seg.payload ≠ [] then (c.acceptData seg.seqNum seg.payload).replyAck else (c, none)
  else (c, none)

/-- An acknowledgement that advances `snd_una` within what was sent. -/
def ackAdvances (c : TcpConnection ρ) (seg : TcpSegment) : Bool :=
  seqGt seg.ackNum c.sndUna && seqLe seg.ackNum c.sndNxt

/-- Step 1 of the data-transfer arm, for an acknowledgement of something that was sent. -/
def slideWindow (c : TcpConnection ρ) (seg : TcpSegment) (now : ℕ) :
    TcpConnection ρ × Option TcpSegment :=
  if ¬ seg.flags.ack then (c, none)
  else if c.ackAdvances seg then
    ({ c with sndWnd := seg.windowSize }.acknowledge seg.ackNum now, none)
  else if seg.ackNum = c.sndUna ∧ seg.payload = [] ∧ ¬ seg.flags.syn ∧ ¬ seg.flags.fin ∧
      c.retransmitQueue ≠ [] then
    let (congestion, third) := c.congestion.onDupAck
    let c := { c with
      sndWnd := seg.windowSize, congestion
      stats.duplicateAcks := c.stats.duplicateAcks + 1 }
    if third then c.retransmitOldest now true else (c, none)
  else ({ c with sndWnd := seg.windowSize }, none)

/-- Step 3: a FIN is consumed when it stands exactly at `rcv_nxt`. -/
def consumeFin (c : TcpConnection ρ) (seg : TcpSegment) (now : ℕ) : TcpConnection ρ × Bool :=
  if seg.flags.fin ∧ seg.finSeq = c.rcvNxt ∧ ¬ c.finReceived then
    let c := { c with rcvNxt := c.rcvNxt + 1, finReceived := true }
    match c.state with
    | .established => ({ c with state := .closeWait }, true)
    | .finWait1 => ({ c with state := .closing }, true)
    | .finWait2 => ({ c with state := .timeWait, timeWaitEnteredMs := some now }, true)
    | _ => (c, true)
  else (c, false)

/-- Step 5: a FIN of ours that is now acknowledged moves the close on. -/
def settleFin (c : TcpConnection ρ) (now : ℕ) : TcpConnection ρ :=
  if c.state = .finWait1 ∧ c.finSent ∧ seqGe c.sndUna c.sndNxt then { c with state := .finWait2 }
  else if c.state = .closing ∧ c.finSent ∧ seqGe c.sndUna c.sndNxt then
    { c with state := .timeWait, timeWaitEnteredMs := some now }
  else c

/-- Step 2: reassembles the payload, if there is one. -/
def acceptPayload (c : TcpConnection ρ) (seg : TcpSegment) : TcpConnection ρ :=
  if seg.payload ≠ [] then c.acceptData seg.seqNum seg.payload else c

def handleEstablished (c : TcpConnection ρ) (seg : TcpSegment) (now : ℕ) :
    TcpConnection ρ × Option TcpSegment :=
  if seg.flags.ack ∧ ¬ c.ackAdvances seg ∧ seqGt seg.ackNum c.sndNxt then
    { c with stats.invalidSegments := c.stats.invalidSegments + 1 }.replyAck
  else
    let (c, resp) := c.slideWindow seg now
    let (c, finConsumed) := (c.acceptPayload seg).consumeFin seg now
    let (c, resp) :=
      if (seg.payload ≠ [] ∨ finConsumed) ∧ resp = none then c.replyAck else (c, resp)
    (c.settleFin now, resp)

def handleCloseWait (c : TcpConnection ρ) (seg : TcpSegment) (now : ℕ) :
    TcpConnection ρ × Option TcpSegment :=
  let c :=
    if seg.flags.ack ∧ c.ackAdvances seg then
      { c with sndWnd := seg.windowSize }.acknowledge seg.ackNum now
    else c
  if seg.flags.fin then c.replyAck else (c, none)

/-- The CLOSING and LAST_ACK arms: any acknowledgement at or above `snd_nxt` ends the wait. -/
def handleFinAcked (c : TcpConnection ρ) (seg : TcpSegment) (now : ℕ)
    (finish : TcpConnection ρ → TcpConnection ρ) : TcpConnection ρ × Option TcpSegment :=
  if seg.flags.ack ∧ seqGe seg.ackNum c.sndNxt then (finish (c.acknowledge seg.ackNum now), none)
  else (c, none)

def handleClosing (c : TcpConnection ρ) (seg : TcpSegment) (now : ℕ) :
    TcpConnection ρ × Option TcpSegment :=
  c.handleFinAcked seg now fun c => { c with state := .timeWait, timeWaitEnteredMs := some now }

def handleLastAck (c : TcpConnection ρ) (seg : TcpSegment) (now : ℕ) :
    TcpConnection ρ × Option TcpSegment :=
  c.handleFinAcked seg now fun c => { c with state := .closed }

def handleTimeWait (c : TcpConnection ρ) (seg : TcpSegment) :
    TcpConnection ρ × Option TcpSegment :=
  if seg.flags.fin then c.plainReply .ackOnly else (c, none)

/-- The match on the connection state. -/
def dispatch (c : TcpConnection ρ) (seg : TcpSegment) (now : ℕ) :
    TcpConnection ρ × Option TcpSegment :=
  match c.state with
  | .listen => c.handleListen seg now
  | .synSent => c.handleSynSent seg now
  | .synReceived => c.handleSynReceived seg now
  | .established | .finWait1 | .finWait2 => c.handleEstablished seg now
  | .closeWait => c.handleCloseWait seg now
  | .closing => c.handleClosing seg now
  | .lastAck => c.handleLastAck seg now
  | .timeWait => c.handleTimeWait seg
  | .closed => (c, none)

/-- The prologue: clock, statistics, options and timestamp negotiation. -/
def receiveOptions (c : TcpConnection ρ) (seg : TcpSegment) (now : ℕ) :
    TcpConnection ρ × Option (BitVec 32 × BitVec 32) :=
  let c := { c with
    currentTimeMs := now, stats.segmentsReceived := c.stats.segmentsReceived + 1 }
  let (c, ts) := c.inspectOptions seg.options
  let c := c.negotiateTimestamps seg ts
  (c, if c.tsEnabled then ts else none)

def handleSegmentAt (c : TcpConnection ρ) (seg : TcpSegment) (now : ℕ) :
    TcpConnection ρ × Option TcpSegment :=
  let (c, ts) := c.receiveOptions seg now
  if c.pawsRejects seg ts then
    { c with
      stats.pawsDiscards := c.stats.pawsDiscards + 1
      stats.invalidSegments := c.stats.invalidSegments + 1 }.replyAck
  else
    let c := c.recordTimestamp seg ts now
    if seg.flags.rst then (c.handleRst seg, none) else c.dispatch seg now

/-! ### The output pump -/

/-- One chunk of queued data, when the windows and the peer's MSS allow a byte. -/
def nextChunk (c : TcpConnection ρ) : ℕ :=
  min (min (c.congestion.sendWindowAvailable c.sndWnd) c.peerMss.toNat) c.txBuffer.length

def sendChunk (c : TcpConnection ρ) (size : ℕ) (flags : TcpFlags) (now : ℕ) :
    TcpConnection ρ × TcpSegment :=
  let chunk := c.txBuffer.take size
  let seq := c.sndNxt
  let wnd := c.currentRcvWnd
  let len := BitVec.ofNat 32 chunk.length
  let stats := { c.stats with
    bytesSent := c.stats.bytesSent + chunk.length
    segmentsSent := c.stats.segmentsSent + 1 }
  let c := { c with
    txBuffer := c.txBuffer.drop size, sndNxt := c.sndNxt + len
    lastAdvertisedWnd := wnd, lastAckSent := c.rcvNxt, stats }
  (c.trackForRetransmit seq len flags chunk now, c.segment seq c.rcvNxt flags wnd [] chunk)

/-- Step 1. Every round sends at least one byte, so the buffer's length bounds the rounds. -/
def sendQueued (now : ℕ) : ℕ → TcpConnection ρ → TcpConnection ρ × List TcpSegment
  | 0, c => (c, [])
  | rounds + 1, c =>
    if c.nextChunk = 0 then (c, [])
    else
      let (c, segment) := c.sendChunk c.nextChunk .pshAck now
      let (c, segments) := sendQueued now rounds c
      (c, segment :: segments)

/-- The states in which queued data is sent. -/
def sending (c : TcpConnection ρ) : Bool := c.state = .established ∨ c.state = .closeWait

/-- Step 2: a close deferred behind queued data. -/
def emitDeferredFin (c : TcpConnection ρ) (now : ℕ) : TcpConnection ρ × List TcpSegment :=
  if c.closeRequested ∧ ¬ c.finSent ∧ c.txBuffer = [] ∧ c.sending then
    let (c, fin) := c.emitFin now
    (c, fin.toList)
  else (c, [])

def rtoExpired (c : TcpConnection ρ) (now : ℕ) : Bool :=
  match c.retransmitQueue.head? with
  | some e => RttEstimator.rto c.rtt ≤ now - e.lastSentMs
  | none => false

def rtoExhausted (c : TcpConnection ρ) : Bool :=
  match c.retransmitQueue.head? with
  | some e => maxRetransmits ≤ e.retransmits
  | none => false

def abort (c : TcpConnection ρ) : TcpConnection ρ :=
  { c with aborted := true, state := .closed, retransmitQueue := [], txBuffer := [] }

def backOff (c : TcpConnection ρ) : TcpConnection ρ :=
  { c with
    congestion := c.congestion.onTimeout
    rtt := RttEstimator.backoff c.rtt
    stats.timeouts := c.stats.timeouts + 1 }

/-- Step 3, after the abort test. -/
def retransmitExpired (c : TcpConnection ρ) (now : ℕ) : TcpConnection ρ × List TcpSegment :=
  if c.rtoExpired now then
    let (c, resent) := c.backOff.retransmitOldest now false
    (c, resent.toList)
  else (c, [])

/-- Step 4: the unsolicited window update. -/
def updateWindow (c : TcpConnection ρ) : TcpConnection ρ × List TcpSegment :=
  if c.lastAdvertisedWnd < c.localMss ∧ c.localMss ≤ c.currentRcvWnd ∧
      c.state ≠ .closed ∧ c.state ≠ .timeWait then (c.buildAck.1, [c.buildAck.2])
  else (c, [])

def armPersist (c : TcpConnection ρ) (now : ℕ) : TcpConnection ρ :=
  { c with persistDeadlineMs := some (now + persistIntervalMs) }

def countProbe (c : TcpConnection ρ) : TcpConnection ρ :=
  { c with stats.zeroWindowProbes := c.stats.zeroWindowProbes + 1 }

/-- Step 5: the zero-window probe carries one byte of data. -/
def probe (c : TcpConnection ρ) (wasSending : Bool) (now : ℕ) :
    TcpConnection ρ × List TcpSegment :=
  let stalled := c.congestion.sendWindowAvailable c.sndWnd = 0 ∧ c.retransmitQueue = []
  if wasSending ∧ c.txBuffer ≠ [] ∧ stalled then
    match c.persistDeadlineMs with
    | none => (c.armPersist now, [])
    | some due =>
      if due ≤ now then
        let (c, segment) := (c.armPersist now).countProbe.sendChunk 1 .ackOnly now
        (c, [segment])
      else (c, [])
  else ({ c with persistDeadlineMs := none }, [])

/-- Step 6: TIME_WAIT ends after twice the segment lifetime. -/
def expireTimeWait (c : TcpConnection ρ) (now : ℕ) : TcpConnection ρ :=
  match c.timeWaitEnteredMs with
  | some entered =>
    if c.state = .timeWait ∧ timeWaitMs ≤ now - entered then { c with state := .closed } else c
  | none => c

/-- Steps 1 and 2: new data, and the FIN once it has all been sent. -/
def sendNew (c : TcpConnection ρ) (now : ℕ) : TcpConnection ρ × List TcpSegment :=
  let (c, data) := if c.sending then sendQueued now c.txBuffer.length c else (c, [])
  let (c, fin) := c.emitDeferredFin now
  (c, data ++ fin)

/-- Steps 3 to 6, for a connection that is not aborted. -/
def maintain (c : TcpConnection ρ) (wasSending : Bool) (now : ℕ) :
    TcpConnection ρ × List TcpSegment :=
  let (c, resent) := c.retransmitExpired now
  let (c, update) := c.updateWindow
  let (c, probed) := c.probe wasSending now
  (c.expireTimeWait now, resent ++ update ++ probed)

def pollOutput (c : TcpConnection ρ) (now : ℕ) : TcpConnection ρ × List TcpSegment :=
  let c := { c with currentTimeMs := now }
  if c.aborted ∨ c.state = .closed then (c, [])
  else
    let wasSending := c.sending
    let (c, sent) := c.sendNew now
    if c.rtoExpired now ∧ c.rtoExhausted then (c.abort, sent)
    else
      let (c, rest) := c.maintain wasSending now
      (c, sent ++ rest)

end TcpConnection

end ToyTcpip.Tcp
