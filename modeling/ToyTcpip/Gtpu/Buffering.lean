import ToyTcpip.Ipv4
import ToyTcpip.Lib.Hashed
import ToyTcpip.Lib.Machine

/-! GTP-U packets: what `gtp.rs` reads, and what the buffering UPF writes
(`upf_buffering_5g.rs`). -/
namespace ToyTcpip.Gtpu

def gtpUHeaderLen : ℕ := 8

structure GtpHeader where
  version : UInt8
  protocolType : Bool
  extFlag : Bool
  seqFlag : Bool
  npduFlag : Bool
  msgType : UInt8
  length : ℕ
  teid : ℕ
  seqNum : Option ℕ
  npduNum : Option UInt8
  nextExt : Option UInt8
  deriving DecidableEq

structure GtpPacket where
  header : GtpHeader
  payload : List UInt8
  deriving DecidableEq

inductive GtpError where
  | packetTooShort (len : ℕ)
  | invalidVersion (version : UInt8)
  | invalidLength
  deriving DecidableEq

def GtpPacket.parse (data : List UInt8) : Except GtpError GtpPacket :=
  if data.length < gtpUHeaderLen then .error (.packetTooShort data.length)
  else
    let flags := byteAt data 0
    let version := (flags >>> 5) &&& 0x07
    if version ≠ 1 then .error (.invalidVersion version)
    else
      let extFlag : Bool := flags &&& 0x04 ≠ 0
      let seqFlag : Bool := flags &&& 0x02 ≠ 0
      let npduFlag : Bool := flags &&& 0x01 ≠ 0
      let hasOptional := extFlag || seqFlag || npduFlag
      let headerLen := if hasOptional then 12 else 8
      let frameLen := gtpUHeaderLen + wordAt data 2
      if frameLen < headerLen ∨ data.length < frameLen then .error .invalidLength
      else .ok
        { header :=
            { version
              protocolType := flags &&& 0x10 ≠ 0
              extFlag
              seqFlag
              npduFlag
              msgType := byteAt data 1
              length := wordAt data 2
              teid := longAt data 4
              seqNum := if hasOptional then some (wordAt data 8) else none
              npduNum := if hasOptional then some (byteAt data 10) else none
              nextExt := if hasOptional then some (byteAt data 11) else none }
          payload := (data.take frameLen).drop headerLen }

/-- The length field is cast to `u16`. -/
def build5gGtpuPacket (teid : ℕ) (qfi : UInt8) (payload : List UInt8) : List UInt8 :=
  let totalExtLen := 4
  [0x34, 0xFF] ++ toBeBytes16 ((payload.length + totalExtLen) % 2 ^ 16) ++ toBeBytes32 teid ++
    [0x00, 0x00, 0x85, 0x01, qfi &&& 0x3F, 0x00, 0x00, 0x00] ++ payload

variable {teid : ℕ} {qfi : UInt8} {payload : List UInt8}

/-- The packet is parsed, with the payload at the end of what the parser returns. -/
def PayloadParsed (packet payload : List UInt8) : Prop :=
  ∃ p, GtpPacket.parse packet = .ok p ∧ payload.IsSuffix p.payload

/-- The container in front of the payload. -/
def container (qfi : UInt8) : List UInt8 := [qfi &&& 0x3F, 0, 0, 0]

/-- The length field counts four bytes of the eight in front of the payload, so the parser leaves
out as much of the end. -/
theorem parse_build (teid : ℕ) (qfi : UInt8) (payload : List UInt8) :
    (∃ p, GtpPacket.parse (build5gGtpuPacket teid qfi payload) = .ok p ∧
      4 ≤ (payload.length + 4) % 2 ^ 16 ∧
      p.payload = (container qfi ++ payload).take ((payload.length + 4) % 2 ^ 16 - 4)) ∨
    (∃ e, GtpPacket.parse (build5gGtpuPacket teid qfi payload) = .error e) ∧
      (payload.length + 4) % 2 ^ 16 < 4 := by
  generalize hn : (payload.length + 4) % 2 ^ 16 = n
  have hle : n ≤ payload.length + 4 := hn ▸ Nat.mod_le _ _
  have hlt : n < 2 ^ 16 := hn ▸ Nat.mod_lt _ (by decide)
  have hlen : (build5gGtpuPacket teid qfi payload).length = payload.length + 16 := by
    simp [build5gGtpuPacket, toBeBytes16, toBeBytes32]
  have hflags : byteAt (build5gGtpuPacket teid qfi payload) 0 = 0x34 := rfl
  have hword : wordAt (build5gGtpuPacket teid qfi payload) 2 = n := by
    rw [build5gGtpuPacket, hn]
    have := wordAt_append [0x34, 0xFF] (toBeBytes32 teid ++
      ([0x00, 0x00, 0x85, 0x01, qfi &&& 0x3F, 0x00, 0x00, 0x00] ++ payload)) hlt
    simpa using this
  have hbody : ∀ k, ((build5gGtpuPacket teid qfi payload).take (8 + k)).drop 12 =
      (container qfi ++ payload).take (k - 4) := by
    intro k
    rw [List.drop_take, show 8 + k - 12 = k - 4 by omega]
    rfl
  -- the first flag byte says that the four optional bytes are there
  have hflag : (decide ((0x34 : UInt8) &&& 0x04 ≠ 0) || decide ((0x34 : UInt8) &&& 0x02 ≠ 0) ||
      decide ((0x34 : UInt8) &&& 0x01 ≠ 0)) = true := by decide
  unfold GtpPacket.parse
  rw [if_neg (by rw [hlen, gtpUHeaderLen]; omega)]
  simp only [hflags, hword, hlen, gtpUHeaderLen, hflag, if_true]
  rw [if_neg (by decide)]
  by_cases hshort : n < 4
  · right
    rw [if_pos (.inl (by omega))]
    exact ⟨⟨_, rfl⟩, hshort⟩
  · left
    rw [if_neg (by omega)]
    exact ⟨_, rfl, by omega, hbody n⟩

/-- The payload comes out whole exactly when its length fits the length field and each of its bytes
is the byte four places before it in the container and the payload. -/
theorem payloadParsed_iff : PayloadParsed (build5gGtpuPacket teid qfi payload) payload ↔
    payload.length + 4 < 2 ^ 16 ∧ ∀ k < payload.length, payload[k]? =
      (container qfi ++ payload)[k]? := by
  have hcontainer : (container qfi ++ payload).length = payload.length + 4 := by simp [container]
  rcases parse_build teid qfi payload with ⟨p, hp, hlen, hbody⟩ | ⟨⟨e, he⟩, hlen⟩
  · constructor
    · rintro ⟨p', hp', hsuffix⟩
      obtain rfl : p = p' := Except.ok.inj (hp.symm.trans hp')
      have hle := hsuffix.length_le
      rw [hbody, List.length_take, hcontainer] at hle
      have hmod : (payload.length + 4) % 2 ^ 16 = payload.length + 4 := by
        have := Nat.mod_le (payload.length + 4) (2 ^ 16)
        omega
      have hlt : payload.length + 4 < 2 ^ 16 := hmod ▸ Nat.mod_lt _ (by decide)
      have heq : payload = p.payload := hsuffix.eq_of_length (by
        rw [hbody, List.length_take, hcontainer, hmod]
        omega)
      refine ⟨hlt, fun k hk => ?_⟩
      have hk' := congrArg (fun l => l[k]?) (heq.trans hbody)
      rw [hk', hmod, Nat.add_sub_cancel, List.getElem?_take_of_lt hk]
    · rintro ⟨hlt, hall⟩
      refine ⟨p, hp, ?_⟩
      have heq : p.payload = payload := by
        rw [hbody, Nat.mod_eq_of_lt hlt, Nat.add_sub_cancel]
        apply List.ext_getElem?
        intro k
        rw [List.getElem?_take]
        split
        · rename_i hk
          exact (hall k hk).symm
        · rename_i hk
          exact (List.getElem?_eq_none (by omega)).symm
      rw [heq]
  · constructor
    · rintro ⟨p, hp, -⟩
      rw [he] at hp
      cases hp
    · rintro ⟨hlt, -⟩
      rw [Nat.mod_eq_of_lt hlt] at hlen
      omega

end ToyTcpip.Gtpu

/-! ### Downlink packets that a UPF buffers while the UE is idle (`upf_buffering_5g.rs`). -/
namespace ToyTcpip.UpfBuffering

open Hashed (HashMap HashOrder)
open Gtpu

inductive BufferDropPolicy where
  | dropOldest
  | dropNewest
  | priorityDrop
  deriving DecidableEq

structure BarConfig where
  barId : UInt16
  ddnDelayMs : ℕ
  suggestedPacketCount : ℕ
  maxHoldTimeMs : ℕ
  deriving DecidableEq

structure BufferedDlPacket where
  payload : List UInt8
  qfi : UInt8
  dscp : UInt8
  arrivalTimeMs : ℕ
  packetSize : ℕ
  deriving DecidableEq

structure DownlinkDataReport where
  seid : UInt64
  pdrId : UInt16
  qfi : UInt8
  ppi : Option UInt8
  firstPacketTimestampMs : ℕ
  deriving DecidableEq

structure FlushedGtpPacket where
  teid : ℕ
  gnbIp : Ipv4Address
  qfi : UInt8
  gtpuPacket : List UInt8
  deriving DecidableEq

inductive UpfBufferingError where
  | sessionNotFound (seid : UInt64)
  | bufferFull
  | invalidPacket
  deriving DecidableEq

structure BufferingStats where
  totalBufferedPackets : ℕ
  totalBufferedBytes : ℕ
  totalFlushedPackets : ℕ
  totalFlushedBytes : ℕ
  totalDroppedOverflowPackets : ℕ
  totalDroppedOverflowBytes : ℕ
  totalPurgedPackets : ℕ
  totalPurgedBytes : ℕ
  totalDdnReportsGenerated : ℕ
  deriving DecidableEq

def BufferingStats.drop (s : BufferingStats) (packetSize : ℕ) : BufferingStats :=
  { s with
    totalDroppedOverflowPackets := s.totalDroppedOverflowPackets + 1
    totalDroppedOverflowBytes := s.totalDroppedOverflowBytes + packetSize }

def derivePpi (qfi dscp : UInt8) : Option UInt8 :=
  if qfi = 1 ∨ dscp = 46 then some 1
  else if qfi = 5 ∨ dscp = 40 ∨ dscp = 24 then some 2
  else if qfi = 2 ∨ qfi = 3 ∨ dscp = 34 then some 3
  else none

structure SessionBufferContext where
  seid : UInt64
  pdrId : UInt16
  barConfig : BarConfig
  maxBufferPackets : ℕ
  maxBufferBytes : ℕ
  currentBytes : ℕ
  dropPolicy : BufferDropPolicy
  ddnSent : Bool
  firstPacketTimeMs : Option ℕ
  packets : List BufferedDlPacket
  deriving DecidableEq

namespace SessionBufferContext

def new (seid : UInt64) (pdrId : UInt16) (barConfig : BarConfig)
    (maxBufferPackets maxBufferBytes : ℕ) (dropPolicy : BufferDropPolicy) : SessionBufferContext :=
  ⟨seid, pdrId, barConfig, maxBufferPackets, maxBufferBytes, 0, dropPolicy, false, none, []⟩

/-- The search of `PriorityDrop`: every packet worse than the worst one so far takes its place. -/
def lowestPrioIdx : List BufferedDlPacket → ℕ → Option ℕ → UInt8 → Option ℕ
  | [], _, found, _ => found
  | p :: rest, idx, found, highestQfi =>
    if highestQfi < p.qfi then lowestPrioIdx rest (idx + 1) (some idx) p.qfi
    else lowestPrioIdx rest (idx + 1) found highestQfi

def remove (s : SessionBufferContext) (idx : ℕ) : SessionBufferContext × Option BufferedDlPacket :=
  match s.packets[idx]? with
  | none => (s, none)
  | some dropped =>
    ({ s
      with packets := s.packets.eraseIdx idx, currentBytes := s.currentBytes - dropped.packetSize },
      some dropped)

/-- The session that a packet is put into, and the packet dropped for it; nothing when the new
packet itself is dropped. -/
def makeRoom (s : SessionBufferContext) (qfi : UInt8) (packetSize : ℕ) :
    Option (SessionBufferContext × Option BufferedDlPacket) :=
  if s.maxBufferPackets ≤ s.packets.length ∨ s.maxBufferBytes < s.currentBytes + packetSize then
    match s.dropPolicy with
    | .dropNewest => none
    | .dropOldest => some (s.remove 0)
    | .priorityDrop => (lowestPrioIdx s.packets 0 none qfi).map s.remove
  else some (s, none)

def store (s : SessionBufferContext) (p : BufferedDlPacket) : SessionBufferContext :=
  { s with
    currentBytes := s.currentBytes + p.packetSize
    packets := s.packets ++ [p]
    firstPacketTimeMs := some (s.firstPacketTimeMs.getD p.arrivalTimeMs)
    ddnSent := s.ddnSent || s.barConfig.ddnDelayMs = 0 }

/-- The report sent at once for a packet just stored. -/
def immediateReport (s : SessionBufferContext) (seid : UInt64) (p : BufferedDlPacket) :
    Option DownlinkDataReport :=
  if !s.ddnSent && s.barConfig.ddnDelayMs = 0 then
    some ⟨seid, s.pdrId, p.qfi, derivePpi p.qfi p.dscp, p.arrivalTimeMs⟩
  else none

def delayedReport (s : SessionBufferContext) (currentTimeMs : ℕ) : Option DownlinkDataReport :=
  match s.ddnSent, s.packets, s.firstPacketTimeMs with
  | false, first :: _, some time =>
    if s.barConfig.ddnDelayMs ≤ currentTimeMs - time then
      some ⟨s.seid, s.pdrId, first.qfi, derivePpi first.qfi first.dscp, time⟩
    else none
  | _, _, _ => none

def tick (currentTimeMs : ℕ) (s : SessionBufferContext) : SessionBufferContext :=
  { s with ddnSent := s.ddnSent || (s.delayedReport currentTimeMs).isSome }

def reset (s : SessionBufferContext) : SessionBufferContext :=
  { s with packets := [], currentBytes := 0, ddnSent := false, firstPacketTimeMs := none }

end SessionBufferContext

structure UpfBufferingEngine where
  sessions : HashMap UInt64 SessionBufferContext
  stats : BufferingStats

namespace UpfBufferingEngine

def new : UpfBufferingEngine := ⟨∅, ⟨0, 0, 0, 0, 0, 0, 0, 0, 0⟩⟩

def configureSessionBuffer (e : UpfBufferingEngine) (seid : UInt64) (pdrId : UInt16)
    (barConfig : BarConfig) (maxBufferPackets maxBufferBytes : ℕ) (dropPolicy : BufferDropPolicy) :
    UpfBufferingEngine :=
  { e with
    sessions := e.sessions.insert seid
      (.new seid pdrId barConfig maxBufferPackets maxBufferBytes dropPolicy) }

def bufferDownlinkPacket (e : UpfBufferingEngine) (seid : UInt64) (payload : List UInt8)
    (qfi dscp : UInt8) (currentTimeMs : ℕ) :
    UpfBufferingEngine × Except UpfBufferingError (Option DownlinkDataReport) :=
  match e.sessions.lookup seid with
  | none => (e, .error (.sessionNotFound seid))
  | some session =>
    match session.makeRoom qfi payload.length with
    | none => ({ e with stats := e.stats.drop payload.length }, .ok none)
    | some (session, dropped) =>
      let packet : BufferedDlPacket := ⟨payload, qfi, dscp, currentTimeMs, payload.length⟩
      let stats := match dropped with
        | none => e.stats
        | some p => e.stats.drop p.packetSize
      let report := session.immediateReport seid packet
      ({ sessions := e.sessions.insert seid (session.store packet)
         stats := { stats with
          totalBufferedPackets := stats.totalBufferedPackets + 1
          totalBufferedBytes := stats.totalBufferedBytes + payload.length
          totalDdnReportsGenerated := stats.totalDdnReportsGenerated + report.toList.length } },
        .ok report)

def checkDelayedDdn [HashOrder] (e : UpfBufferingEngine) (currentTimeMs : ℕ) :
    UpfBufferingEngine × List DownlinkDataReport :=
  let reports := (HashOrder.iter e.sessions.entries).filterMap fun x =>
    x.2.delayedReport currentTimeMs
  ({ sessions := Hashed.mapValues (·.tick currentTimeMs) e.sessions
     stats := { e.stats with
      totalDdnReportsGenerated := e.stats.totalDdnReportsGenerated + reports.length } },
    reports)

def flushBuffer (e : UpfBufferingEngine) (seid : UInt64) (gnbTeid : ℕ) (gnbIp : Ipv4Address) :
    UpfBufferingEngine × Except UpfBufferingError (List FlushedGtpPacket) :=
  match e.sessions.lookup seid with
  | none => (e, .error (.sessionNotFound seid))
  | some session =>
    ({ sessions := e.sessions.insert seid session.reset
       stats := { e.stats with
        totalFlushedPackets := e.stats.totalFlushedPackets + session.packets.length
        totalFlushedBytes := e.stats.totalFlushedBytes +
          (session.packets.map (·.packetSize)).sum } },
      .ok (session.packets.map fun p =>
        ⟨gnbTeid, gnbIp, p.qfi, build5gGtpuPacket gnbTeid p.qfi p.payload⟩))

def purgeBuffer (e : UpfBufferingEngine) (seid : UInt64) :
    UpfBufferingEngine × Except UpfBufferingError (ℕ × ℕ) :=
  match e.sessions.lookup seid with
  | none => (e, .error (.sessionNotFound seid))
  | some session =>
    ({ sessions := e.sessions.insert seid session.reset
       stats := { e.stats with
        totalPurgedPackets := e.stats.totalPurgedPackets + session.packets.length
        totalPurgedBytes := e.stats.totalPurgedBytes + session.currentBytes } },
      .ok (session.packets.length, session.currentBytes))

/-- The packets buffered for a session. -/
def held (e : UpfBufferingEngine) (seid : UInt64) : List BufferedDlPacket :=
  ((e.sessions.lookup seid).map (·.packets)).getD []

end UpfBufferingEngine

/-! ### An engine and the packets that went through it -/

open SessionBufferContext UpfBufferingEngine

inductive Call where
  | configureSessionBuffer (seid : UInt64) (pdrId : UInt16) (barConfig : BarConfig)
      (maxBufferPackets maxBufferBytes : ℕ) (dropPolicy : BufferDropPolicy)
  | bufferDownlinkPacket (seid : UInt64) (payload : List UInt8) (qfi dscp : UInt8)
      (currentTimeMs : ℕ)
  | checkDelayedDdn (currentTimeMs : ℕ)
  | flushBuffer (seid : UInt64) (gnbTeid : ℕ) (gnbIp : Ipv4Address)
  | purgeBuffer (seid : UInt64)

/-- An engine, the packets it was offered, those it flushed with what they were flushed as, those
that went with a purge, and those that went otherwise or never came in. -/
structure Ledger where
  engine : UpfBufferingEngine
  offered : Multiset (UInt64 × BufferedDlPacket)
  flushed : List ((UInt64 × BufferedDlPacket) × FlushedGtpPacket)
  purged : Multiset (UInt64 × BufferedDlPacket)
  lost : Multiset (UInt64 × BufferedDlPacket)

/-- The packets of a session, or handed to it, that it does not hold afterwards. -/
def gone (e e' : UpfBufferingEngine) (seid : UInt64) (new : List BufferedDlPacket) :
    Multiset (UInt64 × BufferedDlPacket) :=
  Multiset.map (seid, ·)
    (((e.held seid ++ new : List BufferedDlPacket) : Multiset BufferedDlPacket) - e'.held seid)

namespace Ledger

def start : Ledger := ⟨.new, 0, [], 0, 0⟩

def step [HashOrder] (s : Ledger) : Call → Ledger
  | .configureSessionBuffer seid pdrId barConfig maxBufferPackets maxBufferBytes dropPolicy =>
    let e := s.engine.configureSessionBuffer seid pdrId barConfig maxBufferPackets maxBufferBytes
      dropPolicy
    { s with engine := e, lost := s.lost + gone s.engine e seid [] }
  | .bufferDownlinkPacket seid payload qfi dscp currentTimeMs =>
    let packet : BufferedDlPacket := ⟨payload, qfi, dscp, currentTimeMs, payload.length⟩
    let e := (s.engine.bufferDownlinkPacket seid payload qfi dscp currentTimeMs).1
    { s with
      engine := e
      offered := s.offered + {(seid, packet)}
      lost := s.lost + gone s.engine e seid [packet] }
  | .checkDelayedDdn currentTimeMs =>
    { s with engine := (s.engine.checkDelayedDdn currentTimeMs).1 }
  | .flushBuffer seid gnbTeid gnbIp =>
    match s.engine.flushBuffer seid gnbTeid gnbIp with
    | (e, .error _) => { s with engine := e }
    | (e, .ok packets) =>
      { s with engine := e, flushed := s.flushed ++
        ((s.engine.held seid).map (seid, ·)).zip packets }
  | .purgeBuffer seid =>
    let e := (s.engine.purgeBuffer seid).1
    { s with engine := e, purged := s.purged + gone s.engine e seid [] }

def run [HashOrder] : Ledger → List Call → Ledger := Machine.run step

/-- A session's byte count is that of its packets. -/
def Counts (c : SessionBufferContext) : Prop :=
  c.currentBytes = (c.packets.map (·.packetSize)).sum ∧
  ∀ p ∈ c.packets, p.packetSize = p.payload.length

def WithinQuota (c : SessionBufferContext) : Prop :=
  c.packets.length ≤ c.maxBufferPackets ∧ c.currentBytes ≤ c.maxBufferBytes

/-- The packets that went with a flush. -/
def flushedPackets (s : Ledger) : Multiset (UInt64 × BufferedDlPacket) :=
  (s.flushed.map Prod.fst : List _)

/-- What holds of every run: the byte counts are right, and every packet offered is buffered,
flushed, purged or lost, exactly once. -/
structure Sound (s : Ledger) : Prop where
  counts : ∀ seid c, s.engine.sessions.lookup seid = some c → Counts c
  accounted : ∀ seid p, s.offered.count (seid, p) = Multiset.count p (s.engine.held seid) +
    s.flushedPackets.count (seid, p) + s.purged.count (seid, p) + s.lost.count (seid, p)

/-- The sessions are within their limits, what is lost is counted as dropped, and what was flushed
can be parsed whole. -/
structure Kept (s : Ledger) : Prop extends Sound s where
  quota : ∀ seid c, s.engine.sessions.lookup seid = some c → WithinQuota c
  counted : s.lost.card = s.engine.stats.totalDroppedOverflowPackets
  whole : ∀ x ∈ s.flushed, PayloadParsed x.2.gtpuPacket x.1.2.payload

/-- There is room for a packet next to the others. -/
def Room (c : SessionBufferContext) (packets : List BufferedDlPacket) (packetSize : ℕ) : Prop :=
  packets.length < c.maxBufferPackets ∧
    (packets.map (·.packetSize)).sum + packetSize ≤ c.maxBufferBytes

/-- One packet out of the buffer, when there is one to take, makes room for the new one. -/
def OneIsEnough (c : SessionBufferContext) (qfi : UInt8) (packetSize : ℕ) : Prop :=
  Room c c.packets packetSize ∨
    match c.dropPolicy with
    | .dropNewest => True
    | .dropOldest => Room c c.packets.tail packetSize
    | .priorityDrop => ∀ before p after, c.packets = before ++ p :: after → qfi < p.qfi →
      (∀ q ∈ before, q.qfi < p.qfi) → (∀ q ∈ after, q.qfi ≤ p.qfi) →
      Room c (before ++ after) packetSize

/-- The bytes of a packet are those of the container in front of it, over and over. -/
def Repeats (p : BufferedDlPacket) : Prop :=
  p.payload.length + 4 < 2 ^ 16 ∧
    ∀ k < p.payload.length, p.payload[k]? = (container p.qfi ++ p.payload)[k]?

/-- What a call must meet: sessions are configured before they get packets and only while they hold
none, taking one packet out is enough, and no packet is flushed that the container does not
repeat. -/
def Careful (s : Ledger) : Call → Prop
  | .configureSessionBuffer seid .. => s.engine.held seid = []
  | .bufferDownlinkPacket seid payload qfi .. =>
    ∃ c, s.engine.sessions.lookup seid = some c ∧ OneIsEnough c qfi payload.length
  | .checkDelayedDdn _ => True
  | .flushBuffer seid .. => ∀ p ∈ s.engine.held seid, Repeats p
  | .purgeBuffer _ => True

end Ledger

/-! ### Making room -/

section room

variable {c : SessionBufferContext} {qfi : UInt8} {n : ℕ}
  {p p' : BufferedDlPacket} {before after before' after' : List BufferedDlPacket}
  {x : SessionBufferContext × Option BufferedDlPacket}

/-- The first of the worst packets, the others around it. -/
def Worst (before : List BufferedDlPacket) (p : BufferedDlPacket)
    (after : List BufferedDlPacket) : Prop :=
  (∀ q ∈ before, q.qfi < p.qfi) ∧ ∀ q ∈ after, q.qfi ≤ p.qfi

theorem lowestPrioIdx_cases (packets : List BufferedDlPacket) (idx : ℕ) (found : Option ℕ)
    (qfi : UInt8) :
    (lowestPrioIdx packets idx found qfi = found ∧ ∀ p ∈ packets, p.qfi ≤ qfi) ∨
    ∃ before p after, packets = before ++ p :: after ∧ qfi < p.qfi ∧ Worst before p after ∧
      lowestPrioIdx packets idx found qfi = some (idx + before.length) := by
  induction packets generalizing idx found qfi with
  | nil => exact .inl ⟨rfl, by simp⟩
  | cons x rest ih =>
    rw [lowestPrioIdx]
    by_cases hx : qfi < x.qfi
    · rw [if_pos hx]
      right
      rcases ih (idx + 1) (some idx) x.qfi with ⟨heq, hall⟩ | ⟨before, p, after, rfl,
        hp, hworst, heq⟩
      · exact ⟨[], x, rest, rfl, hx, ⟨by simp, hall⟩, heq⟩
      · refine ⟨x :: before, p, after, rfl, UInt8.lt_trans hx hp, ⟨?_, hworst.2⟩, ?_⟩
        · intro q hq
          rcases List.mem_cons.mp hq with rfl | hq
          · exact hp
          · exact hworst.1 q hq
        · rw [heq, List.length_cons]
          congr 1
          omega
    · rw [if_neg hx]
      have hle : x.qfi ≤ qfi := UInt8.not_lt.mp hx
      rcases ih (idx + 1) found qfi with ⟨heq, hall⟩ | ⟨before, p, after, rfl, hp, hworst, heq⟩
      · exact .inl ⟨heq, by simpa using ⟨hle, hall⟩⟩
      · refine .inr ⟨x :: before, p, after, rfl, hp, ⟨?_, hworst.2⟩, ?_⟩
        · intro q hq
          rcases List.mem_cons.mp hq with rfl | hq
          · exact UInt8.lt_of_le_of_lt hle hp
          · exact hworst.1 q hq
        · rw [heq, List.length_cons]
          congr 1
          omega

/-- There is one first among the worst. -/
theorem Worst.unique (h : Worst before p after) (h' : Worst before' p' after')
    (heq : before ++ p :: after = before' ++ p' :: after') :
    before = before' ∧ p = p' ∧ after = after' := by
  rcases List.append_eq_append_iff.mp heq with ⟨mid, rfl, hmid⟩ | ⟨mid, rfl, hmid⟩
  · cases mid with
    | nil => simpa using hmid
    | cons x mid =>
      obtain ⟨rfl, rfl⟩ := List.cons.inj hmid
      have hlt := h'.1 p (by simp)
      have hle := h.2 p' (by simp)
      exact absurd hlt (UInt8.not_lt.mpr hle)
  · cases mid with
    | nil => simpa [eq_comm] using hmid
    | cons x mid =>
      obtain ⟨rfl, rfl⟩ := List.cons.inj hmid
      have hlt := h.1 p' (by simp)
      have hle := h'.2 p (by simp)
      exact absurd hlt (UInt8.not_lt.mpr hle)

theorem remove_of_split (h : c.packets = before ++ p :: after) : c.remove before.length =
    ({ c with packets := before ++ after, currentBytes := c.currentBytes - p.packetSize },
      some p) := by
  have hget : c.packets[before.length]? = some p := by
    rw [h, List.getElem?_append_right le_rfl]
    simp
  have herase : c.packets.eraseIdx before.length = before ++ after := by
    rw [h, List.eraseIdx_append_of_length_le le_rfl]
    simp
  simp only [SessionBufferContext.remove, hget, herase]

/-- What comes of making room: nothing is dropped, the new packet is, or one of the packets is. -/
theorem makeRoom_cases (c : SessionBufferContext) (qfi : UInt8) (n : ℕ) :
    c.makeRoom qfi n = none ∨ c.makeRoom qfi n = some (c, none) ∨
    ∃ before p after, c.packets = before ++ p :: after ∧ c.makeRoom qfi n =
      some ({ c with packets := before ++ after, currentBytes := c.currentBytes - p.packetSize },
        some p) := by
  unfold makeRoom
  split
  · split
    · exact .inl rfl
    · cases hp : c.packets with
      | nil =>
        right
        left
        simp [SessionBufferContext.remove, hp]
      | cons p rest =>
        exact .inr (.inr ⟨[], p, rest, rfl, congrArg some (@remove_of_split c p [] rest hp)⟩)
    · rcases lowestPrioIdx_cases c.packets 0 none qfi with ⟨heq, -⟩ | ⟨before, p, after,
        hp, -, -, heq⟩
      · simp [heq]
      · refine .inr (.inr ⟨before, p, after, hp, ?_⟩)
        simp only [heq, Nat.zero_add, Option.map_some, remove_of_split hp]
  · exact .inr (.inl rfl)

open Ledger

theorem not_room_iff (hc : Counts c) : ¬ Room c c.packets n ↔
    c.maxBufferPackets ≤ c.packets.length ∨ c.maxBufferBytes < c.currentBytes + n := by
  rw [Room, ← hc.1]
  omega

/-- Every way of making room leaves enough exactly when taking one packet out does. -/
theorem oneIsEnough_iff (hc : Counts c) : OneIsEnough c qfi n ↔
    ∀ x, c.makeRoom qfi n = some x → Room c x.1.packets n := by
  by_cases hroom : Room c c.packets n
  · have hmake : c.makeRoom qfi n = some (c, none) := by
      rw [makeRoom, if_neg]
      rwa [← not_room_iff hc, not_not]
    simp [OneIsEnough, hroom, hmake]
  · rw [OneIsEnough, makeRoom, if_pos ((not_room_iff hc).mp hroom)]
    cases c.dropPolicy with
    | dropNewest => simp
    | dropOldest =>
      have htail : (c.remove 0).1.packets = c.packets.tail := by
        cases hp : c.packets with
        | nil => simp [SessionBufferContext.remove, hp]
        | cons p rest => exact congrArg (·.1.packets) (@remove_of_split c p [] rest hp)
      simp [hroom, htail]
    | priorityDrop =>
      rcases lowestPrioIdx_cases c.packets 0 none qfi with ⟨heq, hall⟩ | ⟨before, p, after, hp,
        hlt, hworst, heq⟩
      · simp only [hroom, false_or, heq, Option.map_none, reduceCtorEq, false_imp_iff,
          implies_true, iff_true]
        intro before p after hp hlt
        exact absurd hlt (UInt8.not_lt.mpr (hall p (by simp [hp])))
      · simp only [hroom, false_or, heq, Nat.zero_add, Option.map_some,
          Option.some.injEq, forall_eq', remove_of_split hp]
        constructor
        · intro henough
          exact henough before p after hp hlt hworst.1 hworst.2
        · intro henough before' p' after' hp' _ hbefore hafter
          obtain ⟨rfl, rfl, rfl⟩ := hworst.unique ⟨hbefore, hafter⟩ (hp.symm.trans hp')
          exact henough

/-- The session that the packet is put into counts right, under the same limits; what it dropped is
one of its packets. -/
theorem makeRoom_sound (hc : Counts c) (h : c.makeRoom qfi n = some x) :
    Counts x.1 ∧ x.1.maxBufferPackets = c.maxBufferPackets ∧ x.1.maxBufferBytes = c.maxBufferBytes ∧
      c.packets.Perm (x.2.toList ++ x.1.packets) := by
  rcases makeRoom_cases c qfi n with hmake | hmake | ⟨before, p, after, hp, hmake⟩
  · rw [hmake] at h
    cases h
  · rw [hmake] at h
    cases h
    exact ⟨hc, rfl, rfl, List.Perm.refl _⟩
  · rw [hmake] at h
    cases h
    obtain ⟨hbytes, hsizes⟩ := hc
    rw [hp] at hbytes hsizes
    refine ⟨⟨?_, ?_⟩, rfl, rfl, ?_⟩
    · simp only [List.map_append, List.map_cons, List.sum_append, List.sum_cons] at hbytes ⊢
      omega
    · intro q hq
      refine hsizes q ?_
      simp only [List.mem_append, List.mem_cons] at hq ⊢
      tauto
    · rw [hp]
      exact List.perm_middle

theorem counts_store (hc : Counts c) (hp : p.packetSize = p.payload.length) :
    Counts (c.store p) := by
  obtain ⟨hbytes, hsizes⟩ := hc
  refine ⟨by simp [store, hbytes], ?_⟩
  intro q hq
  rcases List.mem_append.mp hq with hq | hq
  · exact hsizes q hq
  · rw [List.mem_singleton.mp hq, hp]

theorem withinQuota_store (hc : Counts c) : WithinQuota (c.store p) ↔
    Room c c.packets p.packetSize := by
  simp only [WithinQuota, store, Room, List.length_append, List.length_singleton, hc.1]
  omega

end room

/-! ### What a call does to the packets -/

section packets

variable {e e' : UpfBufferingEngine} {seid k : UInt64} {p : BufferedDlPacket}
  {l new out : List BufferedDlPacket} {c : SessionBufferContext} {stats : BufferingStats}

theorem held_of_lookup (h : e.sessions.lookup seid = some c) : e.held seid = c.packets := by
  simp [held, h]

theorem held_of_none (h : e.sessions.lookup seid = none) : e.held seid = [] := by simp [held, h]

theorem held_insert (e : UpfBufferingEngine) (seid : UInt64) (c : SessionBufferContext)
    (stats : BufferingStats) (k : UInt64) :
    UpfBufferingEngine.held ⟨e.sessions.insert seid c, stats⟩ k = if k = seid then
      c.packets else e.held k := by
  rw [held, Hashed.lookup_insert_of]
  split <;> rfl

theorem held_check [HashOrder] (e : UpfBufferingEngine) (now : ℕ) (k : UInt64) :
    (e.checkDelayedDdn now).1.held k = e.held k := by
  rw [held, held, checkDelayedDdn, Hashed.lookup_mapValues, Option.map_map]
  rfl

/-- The packets of a list, as those of a session. -/
def ofSession (seid : UInt64) (l : List BufferedDlPacket) : Multiset (UInt64 × BufferedDlPacket) :=
  Multiset.map (seid, ·) l

theorem gone_of_perm (h : (e.held seid ++ new).Perm (out ++ e'.held seid)) :
    gone e e' seid new = ofSession seid out := by
  have hperm : ((e.held seid ++ new : List _) : Multiset _) = (out : Multiset BufferedDlPacket) +
      (e'.held seid : Multiset BufferedDlPacket) := by
    rw [Multiset.coe_add]
    exact Multiset.coe_eq_coe.mpr h
  rw [gone, hperm, Multiset.add_sub_cancel_right, ofSession]

theorem count_ofSession :
    (ofSession seid l).count (k, p) = if k = seid then Multiset.count p l else 0 := by
  split
  · rename_i hk
    rw [hk]
    exact Multiset.count_map_eq_count' _ _ (Prod.mk_right_injective seid) p
  · rename_i hk
    refine Multiset.count_eq_zero.mpr fun hmem => ?_
    obtain ⟨q, -, hq⟩ := Multiset.mem_map.mp hmem
    exact hk (Prod.mk.inj hq).1.symm

/-- A call that concerns one session, and what it takes in and lets out. -/
theorem count_moved (hother : ∀ k ≠ seid, e'.held k = e.held k)
    (hperm : (e.held seid ++ new).Perm (out ++ e'.held seid)) (k : UInt64) (p : BufferedDlPacket) :
    Multiset.count p (e.held k) + (ofSession seid new).count (k, p) =
      Multiset.count p (e'.held k) + (ofSession seid out).count (k, p) := by
  rw [count_ofSession, count_ofSession]
  by_cases hk : k = seid
  · subst hk
    have := congrArg (Multiset.count p) (Multiset.coe_eq_coe.mpr hperm)
    simp only [← Multiset.coe_add, Multiset.count_add] at this
    simp only [if_true]
    omega
  · rw [if_neg hk, if_neg hk, hother k hk]

end packets

namespace Ledger

variable {s : Ledger} {seid : UInt64} {e : UpfBufferingEngine} {new out : List BufferedDlPacket}
  {payload : List UInt8} {qfi dscp : UInt8} {now : ℕ} {call : Call} {c : SessionBufferContext}

/-- What one session takes in and lets out has to be accounted for. -/
theorem Sound.moved {offered purged lost : Multiset (UInt64 × BufferedDlPacket)}
    {flushed : List ((UInt64 × BufferedDlPacket) × FlushedGtpPacket)} (h : s.Sound)
    (hcounts : ∀ seid c, e.sessions.lookup seid = some c → Counts c)
    (hother : ∀ k ≠ seid, e.held k = s.engine.held k)
    (hperm : (s.engine.held seid ++ new).Perm (out ++ e.held seid))
    (hin : ∀ x, offered.count x = s.offered.count x + (ofSession seid new).count x)
    (hout : ∀ x, Multiset.count x (flushed.map Prod.fst) + purged.count x + lost.count x =
      s.flushedPackets.count x + s.purged.count x + s.lost.count x + (ofSession seid out).count x) :
    Sound ⟨e, offered, flushed, purged, lost⟩ := by
  refine ⟨hcounts, fun k p => ?_⟩
  have := h.accounted k p
  have := count_moved hother hperm k p
  have := hin (k, p)
  have := hout (k, p)
  dsimp only [flushedPackets] at *
  omega

theorem buffer_of_none (h : e.sessions.lookup seid = none) :
    (e.bufferDownlinkPacket seid payload qfi dscp now).1 = e := by
  simp [bufferDownlinkPacket, h]

theorem buffer_of_drop (h : e.sessions.lookup seid = some c)
    (hmake : c.makeRoom qfi payload.length = none) :
    (e.bufferDownlinkPacket seid payload qfi dscp now).1 =
      { e with stats := e.stats.drop payload.length } := by
  simp [bufferDownlinkPacket, h, hmake]

theorem buffer_of_store {x : SessionBufferContext × Option BufferedDlPacket}
    (h : e.sessions.lookup seid = some c) (hmake : c.makeRoom qfi payload.length = some x) :
    (e.bufferDownlinkPacket seid payload qfi dscp now).1.sessions =
      e.sessions.insert seid (x.1.store ⟨payload, qfi, dscp, now, payload.length⟩) ∧
    (e.bufferDownlinkPacket seid payload qfi dscp now).1.stats.totalDroppedOverflowPackets =
      e.stats.totalDroppedOverflowPackets + x.2.toList.length := by
  obtain ⟨c', dropped⟩ := x
  cases dropped <;> simp [bufferDownlinkPacket, h, hmake, BufferingStats.drop]

/-- A session that takes a packet in lets out what it drops, and holds the rest. -/
theorem buffer_moved (hc : ∀ seid c, e.sessions.lookup seid = some c → Counts c) (seid : UInt64)
    (payload : List UInt8) (qfi dscp : UInt8) (now : ℕ) : ∃ out : List BufferedDlPacket,
    (∀ k c', (e.bufferDownlinkPacket seid payload qfi dscp now).1.sessions.lookup k = some c' →
      Counts c') ∧
    (∀ k ≠ seid, (e.bufferDownlinkPacket seid payload qfi dscp now).1.held k = e.held k) ∧
    (e.held seid ++ [(⟨payload, qfi, dscp, now, payload.length⟩ : BufferedDlPacket)]).Perm
      (out ++ (e.bufferDownlinkPacket seid payload qfi dscp now).1.held seid) ∧
    (e.sessions.lookup seid ≠ none →
      (e.bufferDownlinkPacket seid payload qfi dscp now).1.stats.totalDroppedOverflowPackets =
        e.stats.totalDroppedOverflowPackets + out.length) ∧
    (e.sessions.lookup seid = none → out.length = 1) := by
  cases hlookup : e.sessions.lookup seid with
  | none =>
    rw [buffer_of_none hlookup]
    refine ⟨[⟨payload, qfi, dscp, now, payload.length⟩], hc, fun _ _ => rfl, ?_, by simp, by simp⟩
    exact List.perm_append_comm
  | some c =>
    cases hmake : c.makeRoom qfi payload.length with
    | none =>
      rw [buffer_of_drop hlookup hmake]
      refine ⟨[⟨payload, qfi, dscp, now, payload.length⟩], hc, fun _ _ => rfl, ?_, ?_, by simp⟩
      · exact List.perm_append_comm
      · simp [BufferingStats.drop]
    | some x =>
      obtain ⟨hsessions, hstats⟩ := @buffer_of_store seid e payload qfi dscp now c x hlookup hmake
      obtain ⟨hcounts, -, -, hperm⟩ := makeRoom_sound (hc seid c hlookup) hmake
      have hheld := held_insert e seid (x.1.store ⟨payload, qfi, dscp, now, payload.length⟩)
        (e.bufferDownlinkPacket seid payload qfi dscp now).1.stats
      rw [← hsessions] at hheld
      refine ⟨x.2.toList, ?_, ?_, ?_, fun _ => hstats, by simp⟩
      · rw [hsessions]
        exact (Hashed.forall_insert_iff hc).mpr (counts_store hcounts rfl)
      · intro k hk
        rw [hheld, if_neg hk]
      · rw [hheld, if_pos rfl, held_of_lookup hlookup, SessionBufferContext.store,
          ← List.append_assoc]
        exact hperm.append_right _

theorem counts_reset (c : SessionBufferContext) : Counts c.reset := ⟨rfl, by simp [reset]⟩

/-- A flush, a purge and a configuration leave a session without packets. -/
theorem emptied_moved {stats : BufferingStats} (hc : c.packets = []) :
    (∀ k ≠ seid, UpfBufferingEngine.held ⟨s.engine.sessions.insert seid c, stats⟩ k =
      s.engine.held k) ∧
    (s.engine.held seid ++ []).Perm
      (s.engine.held seid ++ UpfBufferingEngine.held
          ⟨s.engine.sessions.insert seid c, stats⟩ seid) := by
  constructor
  · intro k hk
    rw [held_insert, if_neg hk]
  · rw [held_insert, if_pos rfl, hc]

theorem flushBuffer_of_some (h : e.sessions.lookup seid = some c) {teid : ℕ} {ip : Ipv4Address} :
    ∃ stats : BufferingStats, stats.totalDroppedOverflowPackets =
      e.stats.totalDroppedOverflowPackets ∧
      e.flushBuffer seid teid ip = (⟨e.sessions.insert seid c.reset, stats⟩,
        .ok (c.packets.map fun p =>
        ⟨teid, ip, p.qfi, build5gGtpuPacket teid p.qfi p.payload⟩)) := by
  simp only [UpfBufferingEngine.flushBuffer, h]
  exact ⟨_, by rfl, rfl⟩

theorem card_ofSession (seid : UInt64) (l : List BufferedDlPacket) :
    (ofSession seid l).card = l.length := by
  simp [ofSession]

theorem kept_start : start.Kept := by
  refine ⟨⟨by simp [start, UpfBufferingEngine.new], ?_⟩, by simp [start, UpfBufferingEngine.new],
    rfl, by simp [start]⟩
  intro seid p
  simp [start, UpfBufferingEngine.new, held, flushedPackets]

theorem withinQuota_empty (hp : c.packets = []) (hb : c.currentBytes = 0) : WithinQuota c := by
  simp [WithinQuota, hp, hb]

section order

variable [HashOrder]

theorem Sound.step (h : s.Sound) (call : Call) : (s.step call).Sound := by
  cases call with
  | configureSessionBuffer seid pdrId barConfig maxBufferPackets maxBufferBytes dropPolicy =>
    obtain ⟨hother, hperm⟩ := @emptied_moved s seid _ s.engine.stats
      (show (SessionBufferContext.new seid pdrId barConfig maxBufferPackets maxBufferBytes
        dropPolicy).packets = [] from rfl)
    refine h.moved ((Hashed.forall_insert_iff h.counts).mpr
      ⟨rfl, by simp [SessionBufferContext.new]⟩) hother hperm (by simp [ofSession]) fun x => ?_
    rw [UpfBufferingEngine.configureSessionBuffer, gone_of_perm hperm, Multiset.count_add]
    dsimp only [flushedPackets]
    omega
  | bufferDownlinkPacket seid payload qfi dscp now =>
    obtain ⟨out, hcounts, hother, hperm, -, -⟩ := buffer_moved h.counts seid payload qfi dscp now
    refine h.moved hcounts hother hperm (fun x => ?_) fun x => ?_
    · rw [Multiset.count_add]
      rfl
    · rw [gone_of_perm hperm, Multiset.count_add]
      dsimp only [flushedPackets]
      omega
  | checkDelayedDdn now =>
    refine ⟨?_, ?_⟩
    · intro seid c hc
      simp only [Ledger.step, UpfBufferingEngine.checkDelayedDdn, Hashed.lookup_mapValues,
        Option.map_eq_some_iff] at hc
      obtain ⟨c, hc, rfl⟩ := hc
      exact h.counts seid c hc
    · intro seid p
      simp only [Ledger.step, held_check]
      exact h.accounted seid p
  | flushBuffer seid teid ip =>
    cases hlookup : s.engine.sessions.lookup seid with
    | none => simpa [Ledger.step, UpfBufferingEngine.flushBuffer, hlookup] using h
    | some c =>
      obtain ⟨stats, -, hflush⟩ := @flushBuffer_of_some seid s.engine c hlookup teid ip
      obtain ⟨hother, hperm⟩ := @emptied_moved s seid c.reset stats rfl
      rw [Ledger.step, hflush]
      refine h.moved ((Hashed.forall_insert_iff h.counts).mpr (counts_reset c)) hother hperm
        (by simp [ofSession]) fun x => ?_
      rw [List.map_append, List.map_fst_zip (by simp [held_of_lookup hlookup]), ← Multiset.coe_add,
        Multiset.count_add]
      simp only [flushedPackets, ofSession, Multiset.map_coe]
      omega
  | purgeBuffer seid =>
    cases hlookup : s.engine.sessions.lookup seid with
    | none => simpa [Ledger.step, UpfBufferingEngine.purgeBuffer, hlookup, gone] using h
    | some c =>
      simp only [Ledger.step, UpfBufferingEngine.purgeBuffer, hlookup]
      obtain ⟨hother, hperm⟩ := @emptied_moved s seid c.reset _ rfl
      refine h.moved ((Hashed.forall_insert_iff h.counts).mpr (counts_reset c)) hother hperm
        (by simp [ofSession]) fun x => ?_
      rw [gone_of_perm hperm, Multiset.count_add]
      dsimp only [flushedPackets]
      omega

theorem Kept.configure_iff (h : s.Kept) {pdrId : UInt16} {barConfig : BarConfig} {m n : ℕ}
    {policy : BufferDropPolicy} :
    (s.step (.configureSessionBuffer seid pdrId barConfig m n policy)).Kept ↔
      s.engine.held seid = [] := by
  have hcard : (s.step (.configureSessionBuffer seid pdrId barConfig m n policy)).lost.card =
      s.lost.card + (s.engine.held seid).length := by
    obtain ⟨-, hperm⟩ := @emptied_moved s seid _ s.engine.stats
      (show (SessionBufferContext.new seid pdrId barConfig m n policy).packets = [] from rfl)
    simp only [Ledger.step, UpfBufferingEngine.configureSessionBuffer, Multiset.card_add]
    rw [gone_of_perm hperm, card_ofSession]
  constructor
  · intro hkept
    have hcounted := hkept.counted
    rw [hcard, h.counted] at hcounted
    simp only [Ledger.step, UpfBufferingEngine.configureSessionBuffer] at hcounted
    exact List.eq_nil_of_length_eq_zero (by omega)
  · intro hnone
    refine ⟨h.toSound.step _, (Hashed.forall_insert_iff h.quota).mpr
      (withinQuota_empty rfl rfl), ?_, h.whole⟩
    rw [hcard, hnone, h.counted]
    rfl

theorem Kept.buffer_iff (h : s.Kept) :
    (s.step (.bufferDownlinkPacket seid payload qfi dscp now)).Kept ↔
    ∃ c, s.engine.sessions.lookup seid = some c ∧ OneIsEnough c qfi payload.length := by
  obtain ⟨out, -, -, hperm, hsome, hnone⟩ := buffer_moved h.counts seid payload qfi dscp now
  have hcard : (s.step (.bufferDownlinkPacket seid payload qfi dscp now)).lost.card =
      s.lost.card + out.length := by
    simp only [Ledger.step, Multiset.card_add]
    rw [gone_of_perm hperm, card_ofSession]
  cases hlookup : s.engine.sessions.lookup seid with
  | none =>
    constructor
    · intro hkept
      have hcounted := hkept.counted
      rw [hcard, h.counted, hnone hlookup] at hcounted
      simp [Ledger.step, buffer_of_none hlookup] at hcounted
    · rintro ⟨c, hc, -⟩
      cases hc
  | some c =>
    have hcounted : (s.step (.bufferDownlinkPacket seid payload qfi dscp now)).lost.card =
        (s.step (.bufferDownlinkPacket seid payload qfi dscp
          now)).engine.stats.totalDroppedOverflowPackets := by
      rw [hcard, h.counted]
      exact (hsome (by simp [hlookup])).symm
    have hquota :
        (∀ k c', (s.engine.bufferDownlinkPacket seid payload qfi dscp now).1.sessions.lookup k =
        some c' → WithinQuota c') ↔ OneIsEnough c qfi payload.length := by
      rw [oneIsEnough_iff (h.counts seid c hlookup)]
      cases hmake : c.makeRoom qfi payload.length with
      | none =>
        rw [buffer_of_drop hlookup hmake]
        simpa using h.quota
      | some x =>
        obtain ⟨hsessions, -⟩ :=
          @buffer_of_store seid s.engine payload qfi dscp now c x hlookup hmake
        obtain ⟨hcounts, hpackets, hbytes, -⟩ := makeRoom_sound (h.counts seid c hlookup) hmake
        rw [hsessions, Hashed.forall_insert_iff h.quota, withinQuota_store hcounts]
        simp [Room, hpackets, hbytes]
    constructor
    · intro hkept
      exact ⟨c, rfl, hquota.mp hkept.quota⟩
    · rintro ⟨c', hc', henough⟩
      obtain rfl := Option.some.inj hc'
      exact ⟨h.toSound.step _, hquota.mpr henough, hcounted, h.whole⟩

theorem Kept.check (h : s.Kept) : (s.step (.checkDelayedDdn now)).Kept := by
  refine ⟨h.toSound.step _, ?_, h.counted, h.whole⟩
  intro seid c hc
  simp only [Ledger.step, UpfBufferingEngine.checkDelayedDdn, Hashed.lookup_mapValues,
    Option.map_eq_some_iff] at hc
  obtain ⟨c, hc, rfl⟩ := hc
  exact h.quota seid c hc

theorem Kept.flush_iff (h : s.Kept) {teid : ℕ} {ip : Ipv4Address} :
    (s.step (.flushBuffer seid teid ip)).Kept ↔ ∀ p ∈ s.engine.held seid, Repeats p := by
  cases hlookup : s.engine.sessions.lookup seid with
  | none =>
    simp only [Ledger.step, UpfBufferingEngine.flushBuffer, hlookup, held_of_none hlookup]
    simpa using h
  | some c =>
    obtain ⟨stats, hstats, hflush⟩ := @flushBuffer_of_some seid s.engine c hlookup teid ip
    have hsound := h.toSound.step (.flushBuffer seid teid ip)
    have hpairs : ∀ x, x ∈ (c.packets.map (seid, ·)).zip (c.packets.map fun p =>
        (⟨teid, ip, p.qfi, build5gGtpuPacket teid p.qfi p.payload⟩ : FlushedGtpPacket)) ↔
        ∃ p ∈ c.packets, x = ((seid, p), ⟨teid, ip, p.qfi,
          build5gGtpuPacket teid p.qfi p.payload⟩) := by
      intro x
      rw [List.zip_map']
      simp [eq_comm]
    rw [Ledger.step, hflush, held_of_lookup hlookup] at hsound
    rw [Ledger.step, hflush, held_of_lookup hlookup]
    constructor
    · intro hkept p hp
      have hmem := List.mem_append_right s.flushed ((hpairs _).mpr ⟨p, hp, rfl⟩)
      exact payloadParsed_iff.mp (hkept.whole _ hmem)
    · intro hall
      refine ⟨hsound, (Hashed.forall_insert_iff h.quota).mpr (withinQuota_empty rfl rfl), ?_, ?_⟩
      · rw [hstats]
        exact h.counted
      · intro x hx
        rcases List.mem_append.mp hx with hx | hx
        · exact h.whole x hx
        · obtain ⟨p, hp, rfl⟩ := (hpairs x).mp hx
          exact payloadParsed_iff.mpr (hall p hp)

theorem Kept.purge (h : s.Kept) : (s.step (.purgeBuffer seid)).Kept := by
  have hsound := h.toSound.step (.purgeBuffer seid)
  cases hlookup : s.engine.sessions.lookup seid with
  | none => simpa [Ledger.step, UpfBufferingEngine.purgeBuffer, hlookup, gone] using h
  | some c =>
    simp only [Ledger.step, UpfBufferingEngine.purgeBuffer, hlookup] at *
    exact ⟨hsound, (Hashed.forall_insert_iff h.quota).mpr (withinQuota_empty rfl rfl),
      h.counted, h.whole⟩

theorem Kept.step_iff (h : s.Kept) (call : Call) : (s.step call).Kept ↔ Careful s call := by
  cases call with
  | configureSessionBuffer seid pdrId barConfig m n policy => exact h.configure_iff
  | bufferDownlinkPacket seid payload qfi dscp now => exact h.buffer_iff
  | checkDelayedDdn now => exact iff_of_true h.check trivial
  | flushBuffer seid teid ip => exact h.flush_iff
  | purgeBuffer seid => exact iff_of_true h.purge trivial

theorem kept_run {calls : List Call} (h : Machine.Along step Careful start calls) :
    (start.run calls).Kept :=
  h.keeps (fun _ call hs hcareful => (hs.step_iff call).mpr hcareful) kept_start

/-- In a run of careful calls the quota holds, nothing is lost unless it is counted, and what is
flushed can be parsed; the first call that is not careful breaks one of these. -/
theorem buffering_kept {calls : List Call} (h : Machine.Along step Careful start calls) :
    (start.run calls).Kept ∧ ∀ next, ((start.run calls).step next).Kept ↔
    Careful (start.run calls) next :=
  ⟨kept_run h, (kept_run h).step_iff⟩

end order

/-- The first two calls of the runs below, on a session that takes one packet. -/
def oneBuffered : List Call :=
  [.configureSessionBuffer 7 1 ⟨1, 0, 10, 30000⟩ 1 100 .dropOldest,
    .bufferDownlinkPacket 7 [1, 2] 9 0 5]

/-- The second packet drops the first and is purged, and an empty one is flushed. -/
theorem buffering_kept_run : (@run Hashed.latestFirst start (oneBuffered ++
    [.bufferDownlinkPacket 7 [3] 9 0 6, .purgeBuffer 7, .bufferDownlinkPacket 7 [] 9 0 7,
      .flushBuffer 7 1 ⟨10, 0, 0, 1⟩])).Kept := by
  let _ := Hashed.latestFirst
  have h : Machine.Along step Careful start (oneBuffered ++ [.bufferDownlinkPacket 7 [3] 9 0 6,
      .purgeBuffer 7, .bufferDownlinkPacket 7 [] 9 0 7, .flushBuffer 7 1 ⟨10, 0, 0, 1⟩]) := by
    refine ⟨rfl, ⟨_, rfl, .inl ?_⟩, ⟨_, rfl, .inr ?_⟩, trivial, ⟨_, rfl, .inl ?_⟩, ?_, trivial⟩
    · unfold Room
      decide +kernel
    · show Room _ _ _
      unfold Room
      decide +kernel
    · unfold Room
      decide +kernel
    · intro p hp
      obtain rfl : p = ⟨[], 9, 0, 7, 0⟩ := List.mem_singleton.mp hp
      exact ⟨by decide, by simp⟩
  exact (buffering_kept h).1

/-- The last bytes of a packet are cut off from what is flushed. -/
theorem flush_cut : ¬ (@run Hashed.latestFirst start
    (oneBuffered ++ [.flushBuffer 7 1 ⟨10, 0, 0, 1⟩])).Kept := by
  let _ := Hashed.latestFirst
  intro hafter
  have hbefore : (start.run oneBuffered).Kept := by
    refine kept_run ⟨rfl, ⟨_, rfl, .inl ?_⟩, trivial⟩
    unfold Room
    decide +kernel
  have hflushed : ((start.run oneBuffered).step (.flushBuffer 7 1 ⟨10, 0, 0, 1⟩)).Kept := hafter
  have hrepeats := hbefore.flush_iff.mp hflushed ⟨[1, 2], 9, 0, 5, 2⟩ (List.mem_singleton.mpr rfl)
  exact absurd (hrepeats.2 0 (by decide)) (by decide)

end Ledger

end ToyTcpip.UpfBuffering
