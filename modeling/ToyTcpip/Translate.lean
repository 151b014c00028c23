import Mathlib.Data.List.AList
import ToyTcpip.Ipv4
import ToyTcpip.Lib.Entries

/-! Network address translation: the session tables of `nat.rs`. -/
namespace ToyTcpip.Translate

structure SocketAddrTuple where
  ip : Ipv4Address
  port : ℕ
  deriving DecidableEq, Repr

structure NatSessionKey where
  src : SocketAddrTuple
  dst : SocketAddrTuple
  protocol : UInt8
  deriving DecidableEq, Repr

/-- The key `(external port, remote ip, remote port, protocol)` of a reply. -/
structure ReplyKey where
  port : ℕ
  remote : SocketAddrTuple
  protocol : UInt8
  deriving DecidableEq, Repr

structure NatTable where
  publicIp : Ipv4Address
  nextAllocPort : ℕ
  outboundSessions : AList fun _ : NatSessionKey => ℕ
  inboundLookup : AList fun _ : ReplyKey => SocketAddrTuple
  portForwards : AList fun _ : ℕ × UInt8 => SocketAddrTuple

def protoIcmp : UInt8 := 1

def protoTcp : UInt8 := 6

def protoUdp : UInt8 := 17

namespace NatTable

def new (publicIp : Ipv4Address) : NatTable := ⟨publicIp, 40000, ∅, ∅, ∅⟩

def addPortForward (t : NatTable) (externalPort : ℕ) (internalIp : Ipv4Address)
    (internalPort : ℕ) (protocol : UInt8) : NatTable :=
  { t with
    portForwards := t.portForwards.insert (externalPort, protocol) ⟨internalIp, internalPort⟩ }

def allocatePort (t : NatTable) : ℕ × NatTable :=
  (t.nextAllocPort,
    { t with
      nextAllocPort := if t.nextAllocPort ≥ 65000 then 40000 else t.nextAllocPort + 1 })

/-- `data[i..i + bytes.len()].copy_from_slice(bytes)`. Every use is within the lengths checked. -/
def writeAt (data : List UInt8) (i : ℕ) (bytes : List UInt8) : List UInt8 :=
  data.take i ++ bytes ++ data.drop (i + bytes.length)

def rewriteHeaderChecksum (packet : List UInt8) (ihl : ℕ) : List UInt8 :=
  let packet := writeAt packet 10 [0x00, 0x00]
  writeAt packet 10 (toBeBytes16 (computeChecksum (packet.take ihl)))

/-- The TCP or UDP checksum, where the packet is long enough to hold one. -/
def rewriteTransportChecksum (packet : List UInt8) (ihl : ℕ) (protocol : UInt8)
    (srcIp dstIp : Ipv4Address) : List UInt8 :=
  if protocol = protoTcp then
    if packet.length ≥ ihl + 20 then
      let packet := writeAt packet (ihl + 16) [0x00, 0x00]
      writeAt packet (ihl + 16) (toBeBytes16
        (computeIpv4TransportChecksum srcIp.octets dstIp.octets 6 (packet.drop ihl)))
    else packet
  else if protocol = protoUdp ∧ packet.length ≥ ihl + 8 then
    let packet := writeAt packet (ihl + 6) [0x00, 0x00]
    writeAt packet (ihl + 6) (toBeBytes16
      (computeIpv4TransportChecksum srcIp.octets dstIp.octets 17 (packet.drop ihl)))
  else packet

/-- The external port of a session, allocated when the session is new. -/
def sessionPort (t : NatTable) (key : NatSessionKey) : ℕ × NatTable :=
  match t.outboundSessions.lookup key with
  | some port => (port, t)
  | none =>
    let (port, t) := t.allocatePort
    (port, { t with
      outboundSessions := t.outboundSessions.insert key port
      inboundLookup := t.inboundLookup.insert ⟨port, key.dst, key.protocol⟩ key.src })

/-- The translated packet stands beside the answer and the table. -/
def translateOutbound (t : NatTable) (packet : List UInt8) : Bool × List UInt8 × NatTable :=
  if packet.length < ipv4MinHeaderLen then (false, packet, t)
  else
    let ihl := (byteAt packet 0).toNat % 16 * 4
    if packet.length < ihl then (false, packet, t)
    else
      let protocol := byteAt packet 9
      let srcIp := addressAt packet 12
      let dstIp := addressAt packet 16
      if protocol = protoTcp ∨ protocol = protoUdp then
        if packet.length < ihl + 4 then (false, packet, t)
        else
          let srcPort := wordAt packet ihl
          let dstPort := wordAt packet (ihl + 2)
          let (extPort, t) := t.sessionPort ⟨⟨srcIp, srcPort⟩, ⟨dstIp, dstPort⟩, protocol⟩
          let packet := writeAt packet 12 t.publicIp.octets
          let packet := writeAt packet ihl (toBeBytes16 extPort)
          let packet := rewriteHeaderChecksum packet ihl
          (true, rewriteTransportChecksum packet ihl protocol t.publicIp dstIp, t)
      else if protocol = protoIcmp then
        (true, rewriteHeaderChecksum (writeAt packet 12 t.publicIp.octets) ihl, t)
      else (false, packet, t)

def translateInbound (t : NatTable) (packet : List UInt8) : Bool × List UInt8 × NatTable :=
  if packet.length < ipv4MinHeaderLen then (false, packet, t)
  else
    let ihl := (byteAt packet 0).toNat % 16 * 4
    if packet.length < ihl then (false, packet, t)
    else
      let protocol := byteAt packet 9
      let srcIp := addressAt packet 12
      if protocol = protoTcp ∨ protocol = protoUdp then
        if packet.length < ihl + 4 then (false, packet, t)
        else
          let srcPort := wordAt packet ihl
          let dstPort := wordAt packet (ihl + 2)
          let target := (t.inboundLookup.lookup ⟨dstPort, ⟨srcIp, srcPort⟩, protocol⟩).or
            (t.portForwards.lookup (dstPort, protocol))
          match target with
          | some addr =>
            let packet := writeAt packet 16 addr.ip.octets
            let packet := writeAt packet (ihl + 2) (toBeBytes16 addr.port)
            let packet := rewriteHeaderChecksum packet ihl
            (true, rewriteTransportChecksum packet ihl protocol srcIp addr.ip, t)
          | none => (false, packet, t)
      else (false, packet, t)

end NatTable

/-! ### What a packet does to the tables -/

/-- The session an outbound packet belongs to, if it is one that is tracked. -/
def outboundSession (packet : List UInt8) : Option NatSessionKey :=
  let ihl := (byteAt packet 0).toNat % 16 * 4
  let protocol := byteAt packet 9
  if ipv4MinHeaderLen ≤ packet.length ∧ ihl + 4 ≤ packet.length ∧
      (protocol = protoTcp ∨ protocol = protoUdp) then
    some ⟨⟨addressAt packet 12, wordAt packet ihl⟩, ⟨addressAt packet 16, wordAt packet (ihl + 2)⟩,
      protocol⟩
  else none

variable {t : NatTable} {key : NatSessionKey} {packet : List UInt8}

theorem translateOutbound_table (t : NatTable) (packet : List UInt8) :
    (t.translateOutbound packet).2.2 =
      ((outboundSession packet).map fun key => (t.sessionPort key).2).getD t := by
  unfold NatTable.translateOutbound outboundSession
  dsimp only
  split_ifs with h₁ h₂ h₃ h₄ h₅ h₆ h₇ <;> first | rfl | simp_all <;> omega

theorem translateInbound_table (t : NatTable) (packet : List UInt8) :
    (t.translateInbound packet).2.2 = t := by
  unfold NatTable.translateInbound
  dsimp only
  split_ifs
  · rfl
  · rfl
  · rfl
  · split <;> rfl
  · rfl

/-! ### The two tables -/

/-- The two tables are inverse to each other, and a port has one session per protocol. -/
structure Inverse (t : NatTable) : Prop where
  outbound : ∀ key port, t.outboundSessions.lookup key = some port →
    t.inboundLookup.lookup ⟨port, key.dst, key.protocol⟩ = some key.src
  inbound : ∀ port remote protocol internal,
    t.inboundLookup.lookup ⟨port, remote, protocol⟩ = some internal →
    t.outboundSessions.lookup ⟨internal, remote, protocol⟩ = some port
  ports : ∀ key key' port, t.outboundSessions.lookup key = some port →
    t.outboundSessions.lookup key' = some port → key.protocol = key'.protocol → key = key'

/-- No live session of the protocol has the port that is allocated next. -/
def NextPortFree (t : NatTable) (protocol : UInt8) : Prop :=
  ∀ key, t.outboundSessions.lookup key = some t.nextAllocPort → key.protocol ≠ protocol

theorem sessionPort_known {port : ℕ} (h : t.outboundSessions.lookup key = some port) :
    t.sessionPort key = (port, t) := by
  simp [NatTable.sessionPort, h]

theorem sessionPort_new (h : t.outboundSessions.lookup key = none) :
    (t.sessionPort key).2 = { t with
      nextAllocPort := if t.nextAllocPort ≥ 65000 then 40000 else t.nextAllocPort + 1
      outboundSessions := t.outboundSessions.insert key t.nextAllocPort
      inboundLookup :=
        t.inboundLookup.insert ⟨t.nextAllocPort, key.dst, key.protocol⟩ key.src } := by
  simp [NatTable.sessionPort, h, NatTable.allocatePort]

/-- A new session keeps the tables inverse exactly when the port it gets is free. -/
theorem inverse_sessionPort (h : Inverse t) : Inverse (t.sessionPort key).2 ↔
    (t.outboundSessions.lookup key = none → NextPortFree t key.protocol) := by
  cases hkey : t.outboundSessions.lookup key with
  | some port => simp [sessionPort_known hkey, h]
  | none =>
    rw [sessionPort_new hkey]
    constructor
    · intro hnew _ other hother hprot
      have hne : other ≠ key := by
        rintro rfl
        simp [hkey] at hother
      refine hne (hnew.ports other key t.nextAllocPort ?_ ?_ hprot)
      · simpa [AList.lookup_insert_ne hne] using hother
      · simp
    · intro hfree
      replace hfree := hfree rfl
      refine ⟨fun k port hk => ?_, fun port remote protocol internal hin => ?_,
        fun k k' port hk hk' hprot => ?_⟩
      · by_cases hkk : k = key
        · subst hkk
          obtain rfl : t.nextAllocPort = port := by simpa using hk
          simp
        · rw [AList.lookup_insert_ne hkk] at hk
          have hne : (⟨port, k.dst, k.protocol⟩ : ReplyKey) ≠
              ⟨t.nextAllocPort, key.dst, key.protocol⟩ := by
            intro heq
            injection heq with hport hdst hprot
            exact hfree k (hport ▸ hk) hprot
          rw [AList.lookup_insert_ne hne]
          exact h.outbound k port hk
      · by_cases hr : (⟨port, remote, protocol⟩ : ReplyKey) =
            ⟨t.nextAllocPort, key.dst, key.protocol⟩
        · injection hr with hport hremote hprot
          subst hport hremote hprot
          obtain rfl : key.src = internal := by simpa using hin
          simp
        · rw [AList.lookup_insert_ne hr] at hin
          have hold := h.inbound port remote protocol internal hin
          have hne : (⟨internal, remote, protocol⟩ : NatSessionKey) ≠ key := by
            rintro rfl
            simp [hkey] at hold
          rwa [AList.lookup_insert_ne hne]
      · by_cases hkk : k = key <;> by_cases hkk' : k' = key
        · rw [hkk, hkk']
        · subst hkk
          obtain rfl : t.nextAllocPort = port := by simpa using hk
          rw [AList.lookup_insert_ne hkk'] at hk'
          exact absurd hprot.symm (hfree k' hk')
        · subst hkk'
          obtain rfl : t.nextAllocPort = port := by simpa using hk'
          rw [AList.lookup_insert_ne hkk] at hk
          exact absurd hprot (hfree k hk)
        · rw [AList.lookup_insert_ne hkk] at hk
          rw [AList.lookup_insert_ne hkk'] at hk'
          exact h.ports k k' port hk hk' hprot

/-! ### Runs -/

inductive Call where
  | outbound (packet : List UInt8)
  | inbound (packet : List UInt8)
  | portForward (externalPort : ℕ) (internalIp : Ipv4Address) (internalPort : ℕ)
      (protocol : UInt8)

def step (t : NatTable) : Call → NatTable
  | .outbound packet => (t.translateOutbound packet).2.2
  | .inbound packet => (t.translateInbound packet).2.2
  | .portForward externalPort internalIp internalPort protocol =>
    t.addPortForward externalPort internalIp internalPort protocol

def run (publicIp : Ipv4Address) (calls : List Call) : NatTable :=
  calls.foldl step (.new publicIp)

/-- The call does not open a session on a port its protocol already uses. -/
def Allocates (t : NatTable) : Call → Prop
  | .outbound packet => ∀ key ∈ outboundSession packet,
      t.outboundSessions.lookup key = none → NextPortFree t key.protocol
  | _ => True

theorem inverse_new (publicIp : Ipv4Address) : Inverse (.new publicIp) := by
  refine ⟨?_, ?_, ?_⟩ <;> intros <;> simp_all [NatTable.new]

theorem inverse_step (h : Inverse t) (call : Call) : Inverse (step t call) ↔ Allocates t call := by
  cases call with
  | outbound packet =>
    simp only [step, Allocates, translateOutbound_table]
    cases hs : outboundSession packet with
    | none => simp [h]
    | some key => simpa using inverse_sessionPort h
  | inbound packet => simp [step, Allocates, translateInbound_table, h]
  | portForward externalPort internalIp internalPort protocol =>
    simp only [step, Allocates, iff_true]
    exact ⟨h.outbound, h.inbound, h.ports⟩

/-! ### The sessions of a run -/

/-- The session that the call is about, by its packet alone. -/
def opened : Call → Option NatSessionKey
  | .outbound packet => outboundSession packet
  | _ => none

def note (seen : List NatSessionKey) (call : Call) : List NatSessionKey :=
  match opened call with
  | some key => if key ∈ seen then seen else seen ++ [key]
  | none => seen

/-- The distinct sessions of a run, in the order of their first packets. -/
def sessions (calls : List Call) : List NatSessionKey := calls.foldl note []

/-- Sessions that are a multiple of the pool's 25001 ports apart are of different protocols. -/
def PortsApart (seen : List NatSessionKey) : Prop :=
  ∀ i j key key', i < j → seen[i]? = some key → seen[j]? = some key' → i % 25001 = j % 25001 →
    key.protocol ≠ key'.protocol

/-- The sessions took the ports in turn. -/
structure Numbered (seen : List NatSessionKey) (t : NatTable) : Prop where
  next : t.nextAllocPort = 40000 + seen.length % 25001
  port : ∀ key port, t.outboundSessions.lookup key = some port ↔
    ∃ i, seen[i]? = some key ∧ port = 40000 + i % 25001
  distinct : seen.Nodup

section

variable {seen rest : List NatSessionKey} {publicIp : Ipv4Address} {calls : List Call} {call : Call}

theorem Numbered.lookup_eq_none_iff (h : Numbered seen t) :
    t.outboundSessions.lookup key = none ↔ key ∉ seen := by
  rw [Option.eq_none_iff_forall_ne_some]
  constructor
  · intro hnone hmem
    obtain ⟨i, hi⟩ := List.mem_iff_getElem?.mp hmem
    exact hnone _ ((h.port key _).mpr ⟨i, hi, rfl⟩)
  · intro hmem port hport
    obtain ⟨i, hi, -⟩ := (h.port key port).mp hport
    exact hmem (List.mem_of_getElem? hi)

/-- The next port is free when no session a multiple of the pool before has the protocol. -/
theorem Numbered.nextPortFree_iff (h : Numbered seen t) {protocol : UInt8} :
    NextPortFree t protocol ↔ ∀ i key, seen[i]? = some key → i % 25001 = seen.length % 25001 →
      key.protocol ≠ protocol := by
  unfold NextPortFree
  rw [h.next]
  constructor
  · intro hfree i key hi hport
    exact hfree key ((h.port key _).mpr ⟨i, hi, by rw [hport]⟩)
  · intro hfree key hport
    obtain ⟨i, hi, heq⟩ := (h.port key _).mp hport
    exact hfree i key hi (by omega)

theorem numbered_sessionPort (h : Numbered seen t) :
    Numbered (if key ∈ seen then seen else seen ++ [key]) (t.sessionPort key).2 := by
  by_cases hmem : key ∈ seen
  · obtain ⟨i, hi⟩ := List.mem_iff_getElem?.mp hmem
    rw [if_pos hmem, sessionPort_known ((h.port key _).mpr ⟨i, hi, rfl⟩)]
    exact h
  · rw [if_neg hmem, sessionPort_new (h.lookup_eq_none_iff.mpr hmem)]
    refine ⟨?_, fun k port => ?_, ?_⟩
    · have hnext := h.next
      rw [List.length_append, List.length_singleton]
      dsimp only
      split <;> omega
    · by_cases hk : k = key
      · subst hk
        rw [AList.lookup_insert, Option.some.injEq, h.next]
        simp only [Entries.getElem?_concat_of_notMem hmem, exists_eq_left, eq_comm]
      · rw [AList.lookup_insert_ne hk, h.port]
        simp only [Entries.getElem?_concat_of_ne hk]
    · rw [List.nodup_append]
      exact ⟨h.distinct, by simp, fun a ha b hb => by rintro rfl; simp_all⟩

theorem numbered_step (h : Numbered seen t) (call : Call) :
    Numbered (note seen call) (step t call) := by
  cases call with
  | outbound packet =>
    simp only [step, note, opened, translateOutbound_table]
    cases hs : outboundSession packet with
    | none => exact h
    | some key => exact numbered_sessionPort h
  | inbound packet => simpa only [step, note, opened, translateInbound_table] using h
  | portForward externalPort internalIp internalPort protocol => exact ⟨h.next, h.port, h.distinct⟩

theorem run_append (publicIp : Ipv4Address) (calls : List Call) (call : Call) :
    run publicIp (calls ++ [call]) = step (run publicIp calls) call := by
  simp [run]

theorem sessions_append (calls : List Call) (call : Call) :
    sessions (calls ++ [call]) = note (sessions calls) call := by
  simp [sessions]

/-- After any run, however often the pool has wrapped. -/
theorem numbered_run (publicIp : Ipv4Address) (calls : List Call) :
    Numbered (sessions calls) (run publicIp calls) := by
  induction calls using List.reverseRecOn with
  | nil => exact ⟨rfl, fun key port => by simp [run, sessions, NatTable.new], List.nodup_nil⟩
  | append_singleton calls call ih =>
    rw [run_append, sessions_append]
    exact numbered_step ih call

theorem PortsApart.of_append (h : PortsApart (seen ++ rest)) : PortsApart seen := by
  intro i j key key' hij hi hj
  exact h i j key key' hij (List.getElem?_append_left (List.getElem?_eq_some_iff.mp hi).1 ▸ hi)
    (List.getElem?_append_left (List.getElem?_eq_some_iff.mp hj).1 ▸ hj)

theorem note_eq (seen : List NatSessionKey) (call : Call) :
    ∃ rest, note seen call = seen ++ rest := by
  unfold note
  split
  · split_ifs
    · exact ⟨[], by simp⟩
    · exact ⟨_, rfl⟩
  · exact ⟨[], by simp⟩

/-- What `PortsApart` asks of one more call. -/
theorem allocates_of_portsApart (h : Numbered seen t) (hports : PortsApart (note seen call)) :
    Allocates t call := by
  cases call with
  | outbound packet =>
    intro key hkey hnew
    rw [h.lookup_eq_none_iff] at hnew
    have hsession : outboundSession packet = some key := hkey
    simp only [note, opened, hsession, if_neg hnew] at hports
    refine h.nextPortFree_iff.mpr fun i key' hi hport => ?_
    have hlt := (List.getElem?_eq_some_iff.mp hi).1
    exact hports i seen.length key' key hlt (by rw [List.getElem?_append_left hlt, hi])
      (by simp) hport
  | _ => trivial

/-- The tables are inverse after a run exactly when no two of its sessions of one protocol are a
multiple of 25001 sessions apart. -/
theorem nat_tables_inverse (publicIp : Ipv4Address) (calls : List Call) :
    Inverse (run publicIp calls) ↔ PortsApart (sessions calls) := by
  have hnumbered := numbered_run publicIp calls
  constructor
  · intro h i j key key' hij hi hj hport hprot
    have hkey := (hnumbered.port key _).mpr ⟨i, hi, rfl⟩
    have hkey' := (hnumbered.port key' _).mpr ⟨j, hj, rfl⟩
    obtain rfl := h.ports key key' _ hkey (by rw [hkey', hport]) hprot
    have := (List.getElem?_inj (List.getElem?_eq_some_iff.mp hi).1 hnumbered.distinct).mp
      (hi.trans hj.symm)
    omega
  · clear hnumbered
    induction calls using List.reverseRecOn with
    | nil => exact fun _ => inverse_new publicIp
    | append_singleton calls call ih =>
      intro hports
      rw [sessions_append] at hports
      obtain ⟨rest, hrest⟩ := note_eq (sessions calls) call
      have hbefore := ih (PortsApart.of_append (hrest ▸ hports))
      rw [run_append, inverse_step hbefore]
      exact allocates_of_portsApart (numbered_run publicIp calls) hports

end

/-! ### Wrapping the port pool -/

/-- The head of a TCP packet from host `10.0.i/256.i` to one web server. -/
def hostPacket (i : ℕ) : List UInt8 :=
  [0x45, 0, 0, 24, 0, 0, 0, 0, 64, 6, 0, 0, 10, 0, UInt8.ofNat (i / 256), UInt8.ofNat i,
    93, 184, 216, 34, 0x30, 0x39, 0, 80]

def hostSession (i : ℕ) : NatSessionKey :=
  ⟨⟨⟨10, 0, UInt8.ofNat (i / 256), UInt8.ofNat i⟩, 12345⟩, ⟨⟨93, 184, 216, 34⟩, 80⟩, protoTcp⟩

theorem outboundSession_hostPacket (i : ℕ) :
    outboundSession (hostPacket i) = some (hostSession i) := by
  simp [outboundSession, hostPacket, hostSession, byteAt, addressAt, wordAt, beWord, protoTcp,
    ipv4MinHeaderLen]

theorem hostSession_injective {i j : ℕ} (hi : i < 65536) (hj : j < 65536)
    (h : hostSession i = hostSession j) : i = j := by
  simp only [hostSession, NatSessionKey.mk.injEq, SocketAddrTuple.mk.injEq,
    Ipv4Address.mk.injEq] at h
  obtain ⟨⟨⟨-, -, hhi, hlo⟩, -⟩, -⟩ := h
  have hhi' := congrArg UInt8.toNat hhi
  have hlo' := congrArg UInt8.toNat hlo
  simp only [UInt8.toNat_ofNat'] at hhi' hlo'
  omega

def hostCalls (n : ℕ) : List Call := (List.range n).map fun i => .outbound (hostPacket i)

/-- One session per host: the ports are handed out in turn and start over after the last one. -/
theorem run_hostCalls (publicIp : Ipv4Address) {n : ℕ} (hn : n ≤ 65536) :
    (run publicIp (hostCalls n)).nextAllocPort = 40000 + n % 25001 ∧
    (∀ i < n, (run publicIp (hostCalls n)).outboundSessions.lookup (hostSession i) =
      some (40000 + i % 25001)) ∧
    ∀ i, n ≤ i → i < 65536 →
      (run publicIp (hostCalls n)).outboundSessions.lookup (hostSession i) = none := by
  induction n with
  | zero => simp [hostCalls, run, NatTable.new]
  | succ n ih =>
    obtain ⟨hnext, hold, hnew⟩ := ih (by omega)
    have hrun : run publicIp (hostCalls (n + 1)) =
        ((run publicIp (hostCalls n)).sessionPort (hostSession n)).2 := by
      simp only [run, hostCalls, List.range_succ, List.map_append, List.foldl_append,
        List.map_cons, List.map_nil, List.foldl_cons, List.foldl_nil, step,
        translateOutbound_table, outboundSession_hostPacket, Option.map_some, Option.getD_some]
    rw [hrun, sessionPort_new (hnew n le_rfl (by omega))]
    generalize run publicIp (hostCalls n) = t at *
    dsimp only
    refine ⟨?_, fun i hi => ?_, fun i hi hlt => ?_⟩
    · split <;> omega
    · by_cases hin : i = n
      · subst hin
        rw [AList.lookup_insert, hnext]
      · have hne : hostSession i ≠ hostSession n :=
          fun heq => hin (hostSession_injective (by omega) (by omega) heq)
        rw [AList.lookup_insert_ne hne]
        exact hold i (by omega)
    · have hne : hostSession i ≠ hostSession n :=
        fun heq => absurd (hostSession_injective hlt (by omega) heq) (by omega)
      rw [AList.lookup_insert_ne hne]
      exact hnew i (by omega) hlt

/-- After 25002 sessions the first and the last host share an external port. -/
theorem external_port_shared : ¬ Inverse (run ⟨203, 0, 113, 1⟩ (hostCalls 25002)) := by
  intro h
  obtain ⟨-, hport, -⟩ := run_hostCalls ⟨203, 0, 113, 1⟩ (show 25002 ≤ 65536 by omega)
  have hsame := h.ports _ _ 40000 (hport 0 (by omega)) (hport 25001 (by omega)) rfl
  exact absurd (hostSession_injective (by omega) (by omega) hsame) (by omega)

end ToyTcpip.Translate
