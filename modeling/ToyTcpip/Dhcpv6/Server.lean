import ToyTcpip.Dhcpv6.Message
import ToyTcpip.Lib.Hashed
import ToyTcpip.Lib.Machine
import ToyTcpip.Routing.Lookup

/-! The DHCPv6 server of `dhcpv6.rs`, and when its counters hand out a live binding again. -/
namespace ToyTcpip.Dhcpv6

open Hashed

structure Dhcpv6Server where
  serverDuid : List UInt8
  nextIpSuffix : UInt16
  nextPrefixIndex : UInt16
  dnsServers : List Ipv6Address
  searchList : List String
  prefixPoolBase : Ipv6Address
  prefixDelegationLen : UInt8
  activeLeases : HashMap (List UInt8) Ipv6Address
  activeDelegations : HashMap (List UInt8) (Ipv6Address × UInt8)

namespace Dhcpv6Server

def new : Dhcpv6Server where
  serverDuid := [0x00, 0x01, 0x00, 0x01, 0x2A, 0x55, 0x00, 0x50, 0x56, 0x00, 0x00, 0x01]
  nextIpSuffix := 100
  nextPrefixIndex := 1
  dnsServers := [⟨#v[0x20, 0x01, 0x48, 0x60, 0x48, 0x60, 0, 0, 0, 0, 0, 0, 0, 0, 0x88, 0x88]⟩]
  searchList := ["lab.example.com"]
  prefixPoolBase := ⟨#v[0x20, 0x01, 0x0d, 0xb8, 0xca, 0xfe, 0, 0, 0, 0, 0, 0, 0, 0, 0, 0]⟩
  prefixDelegationLen := 64
  activeLeases := ∅
  activeDelegations := ∅

/-- The address of a suffix. -/
def addressOf (suffix : UInt16) : Ipv6Address :=
  ⟨#v[0x20, 0x01, 0x0D, 0xB8, 0, 0, 0, 0, 0, 0, 0, 0, 0, 0, (suffix >>> 8).toUInt8,
    suffix.toUInt8]⟩

/-- The prefix of an index: two bytes of the pool's base are replaced. -/
def prefixOf (base : Ipv6Address) (index : UInt16) : Ipv6Address :=
  ⟨(base.bytes.set 6 (index >>> 8).toUInt8).set 7 index.toUInt8⟩

def allocateIp (s : Dhcpv6Server) (clientDuid : List UInt8) : Dhcpv6Server × Ipv6Address :=
  match s.activeLeases.lookup clientDuid with
  | some existing => (s, existing)
  | none =>
    let addr := addressOf s.nextIpSuffix
    ({ s with
        nextIpSuffix := s.nextIpSuffix + 1
        activeLeases := s.activeLeases.insert clientDuid addr }, addr)

def allocatePrefix (s : Dhcpv6Server) (clientDuid : List UInt8) :
    Dhcpv6Server × (Ipv6Address × UInt8) :=
  match s.activeDelegations.lookup clientDuid with
  | some existing => (s, existing)
  | none =>
    let delegated := (prefixOf s.prefixPoolBase s.nextPrefixIndex, s.prefixDelegationLen)
    ({ s with
        nextPrefixIndex := s.nextPrefixIndex + 1
        activeDelegations := s.activeDelegations.insert clientDuid delegated }, delegated)

def wantsPrefix (msg : Dhcpv6Message) : Bool := msg.options.any fun o => o.code = optIaPd

/-- The bindings of a client that solicits or requests, old or new. -/
def allocate (s : Dhcpv6Server) (clientDuid : List UInt8) (msg : Dhcpv6Message) :
    Dhcpv6Server × Ipv6Address × Option (Ipv6Address × UInt8) :=
  let (s, assignedIp) := s.allocateIp clientDuid
  if wantsPrefix msg then
    let (s, delegated) := s.allocatePrefix clientDuid
    (s, assignedIp, some delegated)
  else (s, assignedIp, none)

def handleSolicit (s : Dhcpv6Server) (msg : Dhcpv6Message) : Dhcpv6Server × Option Dhcpv6Message :=
  match msg.optionData optClientid with
  | none => (s, none)
  | some clientDuid =>
    let (s, assignedIp, delegated) := s.allocate clientDuid msg
    (s, some (if msg.hasRapidCommit then
        .buildReply msg.transactionId clientDuid s.serverDuid (some assignedIp) delegated
          s.dnsServers s.searchList true
      else .buildAdvertiseFull msg.transactionId clientDuid s.serverDuid (some assignedIp) delegated
        s.dnsServers s.searchList))

def handleRequest (s : Dhcpv6Server) (msg : Dhcpv6Message) : Dhcpv6Server × Option Dhcpv6Message :=
  match msg.optionData optClientid with
  | none => (s, none)
  | some clientDuid =>
    let (s, assignedIp, delegated) := s.allocate clientDuid msg
    (s, some (.buildReply msg.transactionId clientDuid s.serverDuid (some assignedIp) delegated
      s.dnsServers s.searchList false))

def handleRelease (s : Dhcpv6Server) (msg : Dhcpv6Message) : Dhcpv6Server × Option Dhcpv6Message :=
  match msg.optionData optClientid with
  | none => (s, none)
  | some clientDuid =>
    ({ s with
        activeLeases := s.activeLeases.erase clientDuid
        activeDelegations := s.activeDelegations.erase clientDuid },
      some ⟨msgReply, msg.transactionId, [⟨optClientid, clientDuid⟩, ⟨optServerid, s.serverDuid⟩,
        ⟨optStatusCode, [0, 0]⟩]⟩)

end Dhcpv6Server

/-! ### Bindings -/

inductive Call where
  | solicit (msg : Dhcpv6Message)
  | request (msg : Dhcpv6Message)
  | release (msg : Dhcpv6Message)

/-- Two prefixes that agree on all bits they both have. -/
def Overlap (p q : Ipv6Address × UInt8) : Prop :=
  ∀ i < min p.2.toNat q.2.toNat, Routing.addressBit p.1 i = Routing.addressBit q.1 i

theorem Overlap.symm {p q : Ipv6Address × UInt8} (h : Overlap p q) : Overlap q p := by
  intro i hi
  exact (h i (by omega)).symm

namespace Dhcpv6Server

def step (s : Dhcpv6Server) : Call → Dhcpv6Server
  | .solicit msg => (s.handleSolicit msg).1
  | .request msg => (s.handleRequest msg).1
  | .release msg => (s.handleRelease msg).1

/-- No two clients have the same address, or prefixes that overlap. -/
def BindingsApart (s : Dhcpv6Server) : Prop :=
  Distinct s.activeLeases ∧ Apart Overlap s.activeDelegations

/-- A client without a lease finds the next address held by nobody, and one without a delegation
that wants a prefix finds the next prefix clear of all others. -/
def CountersFree (s : Dhcpv6Server) (clientDuid : List UInt8) (msg : Dhcpv6Message) : Prop :=
  (s.activeLeases.lookup clientDuid = none → ∀ other, other ≠ clientDuid →
    s.activeLeases.lookup other ≠ some (addressOf s.nextIpSuffix)) ∧
  (wantsPrefix msg = true → s.activeDelegations.lookup clientDuid = none →
    ∀ other p, other ≠ clientDuid → s.activeDelegations.lookup other = some p →
      ¬ Overlap p (prefixOf s.prefixPoolBase s.nextPrefixIndex, s.prefixDelegationLen))

def Fits (s : Dhcpv6Server) : Call → Prop
  | .solicit msg | .request msg =>
    ∀ clientDuid, msg.optionData optClientid = some clientDuid → s.CountersFree clientDuid msg
  | .release _ => True

variable {s : Dhcpv6Server} {msg : Dhcpv6Message} {clientDuid : List UInt8}

theorem distinct_allocateIp_iff (h : Distinct s.activeLeases) :
    Distinct (s.allocateIp clientDuid).1.activeLeases ↔
      (s.activeLeases.lookup clientDuid = none → ∀ other, other ≠ clientDuid →
        s.activeLeases.lookup other ≠ some (addressOf s.nextIpSuffix)) := by
  rw [allocateIp]
  cases s.activeLeases.lookup clientDuid with
  | some existing => simpa using h
  | none => simpa using distinct_insert_iff h

theorem apart_allocatePrefix_iff (h : Apart Overlap s.activeDelegations) :
    Apart Overlap (s.allocatePrefix clientDuid).1.activeDelegations ↔
      (s.activeDelegations.lookup clientDuid = none →
        ∀ other p, other ≠ clientDuid → s.activeDelegations.lookup other = some p →
          ¬ Overlap p (prefixOf s.prefixPoolBase s.nextPrefixIndex, s.prefixDelegationLen)) := by
  rw [allocatePrefix]
  cases s.activeDelegations.lookup clientDuid with
  | some existing => simpa using h
  | none => simpa using apart_insert_iff (fun _ _ => Overlap.symm) h

/-- An address is taken without touching the prefixes. -/
theorem allocateIp_rest (s : Dhcpv6Server) (clientDuid : List UInt8) :
    (s.allocateIp clientDuid).1.activeDelegations = s.activeDelegations ∧
      (s.allocateIp clientDuid).1.nextPrefixIndex = s.nextPrefixIndex ∧
      (s.allocateIp clientDuid).1.prefixPoolBase = s.prefixPoolBase ∧
      (s.allocateIp clientDuid).1.prefixDelegationLen = s.prefixDelegationLen := by
  rw [allocateIp]
  split <;> exact ⟨rfl, rfl, rfl, rfl⟩

theorem activeLeases_allocatePrefix (s : Dhcpv6Server) (clientDuid : List UInt8) :
    (s.allocatePrefix clientDuid).1.activeLeases = s.activeLeases := by
  rw [allocatePrefix]
  split <;> rfl

theorem allocatePrefix_rest (s : Dhcpv6Server) (clientDuid : List UInt8) :
    (s.allocatePrefix clientDuid).1.prefixPoolBase = s.prefixPoolBase ∧
      (s.allocatePrefix clientDuid).1.prefixDelegationLen = s.prefixDelegationLen ∧
      (s.allocatePrefix clientDuid).1.nextIpSuffix = s.nextIpSuffix := by
  rw [allocatePrefix]
  split <;> exact ⟨rfl, rfl, rfl⟩

theorem activeLeases_allocate (s : Dhcpv6Server) (clientDuid : List UInt8) (msg : Dhcpv6Message) :
    (s.allocate clientDuid msg).1.activeLeases = (s.allocateIp clientDuid).1.activeLeases := by
  simp only [allocate]
  split
  · exact activeLeases_allocatePrefix _ _
  · rfl

theorem bindingsApart_allocate_iff (h : s.BindingsApart) :
    (s.allocate clientDuid msg).1.BindingsApart ↔ s.CountersFree clientDuid msg := by
  obtain ⟨hdelegations, hindex, hbase, hlen⟩ := s.allocateIp_rest clientDuid
  rw [BindingsApart, activeLeases_allocate, CountersFree, distinct_allocateIp_iff h.1]
  refine and_congr_right fun _ => ?_
  simp only [allocate]
  cases wantsPrefix msg with
  | true =>
    have happart : Apart Overlap (s.allocateIp clientDuid).1.activeDelegations := by
      rw [hdelegations]
      exact h.2
    simpa [hdelegations, hindex, hbase, hlen] using
      @apart_allocatePrefix_iff _ clientDuid happart
  | false => simpa [hdelegations] using h.2

theorem bindingsApart_step_iff (h : s.BindingsApart) (call : Call) :
    (s.step call).BindingsApart ↔ s.Fits call := by
  cases call with
  | solicit msg =>
    simp only [step, handleSolicit, Fits]
    cases msg.optionData optClientid with
    | none => simpa using h
    | some clientDuid => simpa using bindingsApart_allocate_iff h
  | request msg =>
    simp only [step, handleRequest, Fits]
    cases msg.optionData optClientid with
    | none => simpa using h
    | some clientDuid => simpa using bindingsApart_allocate_iff h
  | release msg =>
    simp only [step, handleRelease, Fits]
    cases msg.optionData optClientid with
    | none => simpa using h
    | some clientDuid => simpa using ⟨apart_erase h.1 clientDuid, apart_erase h.2 clientDuid⟩

end Dhcpv6Server

/-! ### The bindings by the order in which they were made -/

/-- How many bindings of a kind were made, and which one of them a client has. -/
structure Ledger where
  count : ℕ
  live : List UInt8 → Option ℕ

namespace Ledger

def none : Ledger := ⟨0, fun _ => .none⟩

/-- A client without a binding is given the next one. -/
def take (l : Ledger) (clientDuid : List UInt8) : Ledger :=
  match l.live clientDuid with
  | some _ => l
  | .none => ⟨l.count + 1, Function.update l.live clientDuid (some l.count)⟩

def drop (l : Ledger) (clientDuid : List UInt8) : Ledger :=
  { l with live := Function.update l.live clientDuid .none }

/-- A client has a binding, or gets one and no live one was made a multiple of 65536 before. -/
def Fresh (l : Ledger) (clientDuid : List UInt8) : Prop :=
  l.live clientDuid = .none → ∀ other n, l.live other = some n → n % 65536 ≠ l.count % 65536

/-- The counter and the table of the server, after the bindings of a ledger: `binding` is made from
the counter, which starts with `start`. -/
structure Kept {ν : Type} (l : Ledger) (start : UInt16) (binding : UInt16 → ν) (counter : UInt16)
    (s : HashMap (List UInt8) ν) : Prop where
  counter : counter = start + .ofNat l.count
  held : ∀ clientDuid v, s.lookup clientDuid = some v ↔
    ∃ n, l.live clientDuid = some n ∧ v = binding (start + .ofNat n)

variable {ν : Type} {l : Ledger} {start counter : UInt16} {binding : UInt16 → ν}
  {s : HashMap (List UInt8) ν} {clientDuid : List UInt8} {r : ν → ν → Prop}

theorem Kept.lookup_eq_none_iff (h : l.Kept start binding counter s) :
    s.lookup clientDuid = .none ↔ l.live clientDuid = .none := by
  rw [Option.eq_none_iff_forall_ne_some, Option.eq_none_iff_forall_ne_some]
  constructor
  · intro hnone n hn
    exact hnone _ ((h.held clientDuid _).mpr ⟨n, hn, rfl⟩)
  · intro hnone v hv
    obtain ⟨n, hn, -⟩ := (h.held clientDuid v).mp hv
    exact hnone n hn

theorem Kept.take_known (h : l.Kept start binding counter s)
    (hsome : s.lookup clientDuid ≠ .none) : l.take clientDuid = l := by
  rw [ne_eq, h.lookup_eq_none_iff, ← ne_eq, Option.ne_none_iff_exists'] at hsome
  obtain ⟨n, hn⟩ := hsome
  rw [take, hn]

theorem Kept.take_new (h : l.Kept start binding counter s) (hnone : s.lookup clientDuid = .none) :
    (l.take clientDuid).Kept start binding (counter + 1)
      (s.insert clientDuid (binding counter)) := by
  rw [take, h.lookup_eq_none_iff.mp hnone]
  refine ⟨?_, fun other v => ?_⟩
  · rw [h.counter, UInt16.ofNat_add, UInt16.add_assoc]
    rfl
  · simp only [lookup_insert_of, Function.update_apply]
    split_ifs
    · simp only [h.counter, Option.some.injEq, exists_eq_left']
      exact eq_comm
    · exact h.held other v

theorem Kept.drop (h : l.Kept start binding counter s) :
    (l.drop clientDuid).Kept start binding counter (s.erase clientDuid) := by
  refine ⟨h.counter, fun other v => ?_⟩
  simp only [Ledger.drop, lookup_erase_of, Function.update_apply]
  split_ifs
  · simp
  · exact h.held other v

theorem ofNat_eq_iff {m n : ℕ} : UInt16.ofNat m = UInt16.ofNat n ↔ m % 65536 = n % 65536 := by
  rw [← UInt16.toNat_inj, UInt16.toNat_ofNat', UInt16.toNat_ofNat']

/-- The next binding clashes with a live one only after a multiple of 65536 others. -/
theorem Kept.fresh_iff (h : l.Kept start binding counter s) (clientDuid : List UInt8)
    (hclash : ∀ i j, r (binding i) (binding j) ↔ i = j) :
    (s.lookup clientDuid = .none → ∀ other v, other ≠ clientDuid → s.lookup other = some v →
      ¬ r v (binding counter)) ↔ l.Fresh clientDuid := by
  rw [Fresh, h.lookup_eq_none_iff]
  refine forall_congr' fun hnone => ?_
  constructor
  · intro hfree other n hn heq
    have hne : other ≠ clientDuid := by
      rintro rfl
      rw [hnone] at hn
      cases hn
    refine hfree other _ hne ((h.held other _).mpr ⟨n, hn, rfl⟩) ?_
    rw [hclash, h.counter, ofNat_eq_iff.mpr heq]
  · intro hfresh other v _ hv hr
    obtain ⟨n, hn, rfl⟩ := (h.held other v).mp hv
    rw [hclash, h.counter, UInt16.add_right_inj, ofNat_eq_iff] at hr
    exact hfresh other n hn hr

/-- Bindings are numbered as they are made. -/
def Numbered (l : Ledger) (bound : ℕ) : Prop :=
  l.count ≤ bound ∧ ∀ clientDuid n, l.live clientDuid = some n → n < l.count

theorem Numbered.take {bound : ℕ} (h : l.Numbered bound) :
    (l.take clientDuid).Numbered (bound + 1) := by
  rw [Ledger.take]
  cases l.live clientDuid with
  | some n => exact ⟨h.1.trans (Nat.le_succ _), h.2⟩
  | none =>
    refine ⟨Nat.succ_le_succ h.1, fun other n hn => ?_⟩
    simp only [Function.update_apply] at hn
    split_ifs at hn
    · cases hn
      exact Nat.lt_succ_self _
    · exact (h.2 other n hn).trans (Nat.lt_succ_self _)

theorem Numbered.drop {bound : ℕ} (h : l.Numbered bound) : (l.drop clientDuid).Numbered bound := by
  refine ⟨h.1, fun other n hn => ?_⟩
  simp only [Ledger.drop, Function.update_apply] at hn
  split_ifs at hn
  exact h.2 other n hn

theorem numbered_none : Ledger.none.Numbered 0 := ⟨le_rfl, fun _ _ h => by cases h⟩

/-- The first 65536 bindings do not clash. -/
theorem Numbered.fresh {bound : ℕ} (h : l.Numbered bound) (hbound : bound < 65536) :
    l.Fresh clientDuid := by
  intro _ other n hn
  have := h.1
  have := h.2 other n hn
  omega

end Ledger

/-- What the clients were given, by their messages alone. -/
structure Given where
  leases : Ledger
  delegations : Ledger

namespace Given

def none : Given := ⟨.none, .none⟩

def take (g : Given) (msg : Dhcpv6Message) (clientDuid : List UInt8) : Given where
  leases := g.leases.take clientDuid
  delegations := if Dhcpv6Server.wantsPrefix msg then g.delegations.take clientDuid
    else g.delegations

def note (g : Given) : Call → Given
  | .solicit msg | .request msg => ((msg.optionData optClientid).map (g.take msg)).getD g
  | .release msg => ((msg.optionData optClientid).map fun clientDuid =>
      ⟨g.leases.drop clientDuid, g.delegations.drop clientDuid⟩).getD g

/-- What is given anew was not given a multiple of 65536 before to a client that still has it. -/
def Suits (g : Given) : Call → Prop
  | .solicit msg | .request msg => ∀ clientDuid, msg.optionData optClientid = some clientDuid →
      g.leases.Fresh clientDuid ∧
        (Dhcpv6Server.wantsPrefix msg = true → g.delegations.Fresh clientDuid)
  | .release _ => True

variable {g : Given} {calls : List Call} {bound : ℕ}

theorem numbered_note (hleases : g.leases.Numbered bound)
    (hdelegations : g.delegations.Numbered bound) (call : Call) :
    (g.note call).leases.Numbered (bound + 1) ∧
      (g.note call).delegations.Numbered (bound + 1) := by
  have hold : ∀ {l : Ledger}, l.Numbered bound → l.Numbered (bound + 1) :=
    fun h => ⟨h.1.trans (Nat.le_succ _), h.2⟩
  have htake : ∀ (msg : Dhcpv6Message) clientDuid,
      (g.take msg clientDuid).leases.Numbered (bound + 1) ∧
      (g.take msg clientDuid).delegations.Numbered (bound + 1) := by
    intro msg clientDuid
    refine ⟨hleases.take, ?_⟩
    simp only [Given.take]
    split_ifs
    · exact hdelegations.take
    · exact hold hdelegations
  cases call with
  | release msg =>
    rw [note]
    cases msg.optionData optClientid with
    | none => exact ⟨hold hleases, hold hdelegations⟩
    | some clientDuid => exact ⟨hold hleases.drop, hold hdelegations.drop⟩
  | _ msg =>
    rw [note]
    cases msg.optionData optClientid with
    | none => exact ⟨hold hleases, hold hdelegations⟩
    | some clientDuid => exact htake msg clientDuid

/-- Runs of at most 65536 calls suit, whatever the messages. -/
theorem suits_of_short (hleases : g.leases.Numbered bound)
    (hdelegations : g.delegations.Numbered bound) (hlen : bound + calls.length ≤ 65536) :
    Machine.Along note Suits g calls := by
  induction calls generalizing g bound with
  | nil => trivial
  | cons call rest ih =>
    rw [List.length_cons] at hlen
    obtain ⟨hleases', hdelegations'⟩ := numbered_note hleases hdelegations call
    refine ⟨?_, ih hleases' hdelegations' (by omega)⟩
    cases call with
    | release msg => trivial
    | _ msg => exact fun _ _ => ⟨hleases.fresh (by omega), fun _ => hdelegations.fresh (by omega)⟩

end Given

namespace Dhcpv6Server

/-! ### Runs -/

/-- The prefixes that a new server delegates. -/
def delegated (index : UInt16) : Ipv6Address × UInt8 := (prefixOf new.prefixPoolBase index, 64)

/-- A server that was new has its pool, and keeps the bindings of the ledgers. -/
structure Follows (g : Given) (s : Dhcpv6Server) : Prop where
  pool : s.prefixPoolBase = new.prefixPoolBase ∧ s.prefixDelegationLen = 64
  leases : g.leases.Kept 100 addressOf s.nextIpSuffix s.activeLeases
  delegations : g.delegations.Kept 1 delegated s.nextPrefixIndex s.activeDelegations

variable {g : Given} {i j : UInt16} {s : Dhcpv6Server} {msg : Dhcpv6Message}
  {clientDuid : List UInt8} {call : Call}

theorem bytes_inj (h : (i >>> 8).toUInt8 = (j >>> 8).toUInt8) (h' : i.toUInt8 = j.toUInt8) :
    i = j := by
  have hhigh := congrArg UInt8.toNat h
  have hlow := congrArg UInt8.toNat h'
  have hi := i.toNat_lt
  have hj := j.toNat_lt
  have hshift : (8 : UInt16).toNat % 16 = 8 := rfl
  simp only [UInt16.toNat_toUInt8, UInt16.toNat_shiftRight, hshift, Nat.shiftRight_eq_div_pow]
    at hhigh hlow
  rw [← UInt16.toNat_inj]
  omega

theorem addressOf_inj : addressOf i = addressOf j ↔ i = j := by
  refine ⟨fun h => ?_, fun h => by rw [h]⟩
  have hbytes := congrArg Ipv6Address.bytes h
  exact bytes_inj (congrArg (fun b => b[14]) hbytes) (congrArg (fun b => b[15]) hbytes)

theorem overlap_delegated : Overlap (delegated i) (delegated j) ↔ i = j := by
  refine ⟨fun h => ?_, fun h _ _ => by rw [h]⟩
  have hbyte : ∀ k (hk : k < 8),
      (delegated i).1.bytes[k] = (delegated j).1.bytes[k] := by
    intro k hk
    rw [Routing.byte_eq_iff]
    intro m hm
    have hbit := h (8 * k + m) (show 8 * k + m < min 64 64 by omega)
    have hdiv : (8 * k + m) / 8 = k := by omega
    have hmod : (8 * k + m) % 8 = m := by omega
    simpa only [Routing.addressBit, hdiv, hmod, show k < 16 by omega, dite_true] using hbit
  exact bytes_inj (hbyte 6 (by omega)) (hbyte 7 (by omega))

theorem follows_allocateIp (h : Follows g s) :
    (g.leases.take clientDuid).Kept 100 addressOf (s.allocateIp clientDuid).1.nextIpSuffix
      (s.allocateIp clientDuid).1.activeLeases := by
  rw [allocateIp]
  cases hlease : s.activeLeases.lookup clientDuid with
  | some existing =>
    rw [h.leases.take_known (by simp [hlease])]
    exact h.leases
  | none => exact h.leases.take_new hlease

theorem follows_allocatePrefix (hpool : s.prefixPoolBase = new.prefixPoolBase ∧
    s.prefixDelegationLen = 64) {l : Ledger}
    (h : l.Kept 1 delegated s.nextPrefixIndex s.activeDelegations) :
    (l.take clientDuid).Kept 1 delegated (s.allocatePrefix clientDuid).1.nextPrefixIndex
      (s.allocatePrefix clientDuid).1.activeDelegations := by
  rw [allocatePrefix]
  cases hheld : s.activeDelegations.lookup clientDuid with
  | some existing =>
    rw [h.take_known (by simp [hheld])]
    exact h
  | none =>
    dsimp only
    rw [hpool.1, hpool.2]
    exact h.take_new hheld

theorem follows_allocate (h : Follows g s) :
    Follows (g.take msg clientDuid) (s.allocate clientDuid msg).1 := by
  obtain ⟨hdelegations, hindex, hbase, hlen⟩ := s.allocateIp_rest clientDuid
  have hleases := @follows_allocateIp g s clientDuid h
  have hpool : (s.allocateIp clientDuid).1.prefixPoolBase = new.prefixPoolBase ∧
      (s.allocateIp clientDuid).1.prefixDelegationLen = 64 :=
    ⟨hbase.trans h.pool.1, hlen.trans h.pool.2⟩
  have hkept : g.delegations.Kept 1 delegated (s.allocateIp clientDuid).1.nextPrefixIndex
      (s.allocateIp clientDuid).1.activeDelegations := by
    rw [hdelegations, hindex]
    exact h.delegations
  simp only [allocate, Given.take]
  cases wantsPrefix msg with
  | true =>
    obtain ⟨hbase', hlen', hsuffix⟩ := (s.allocateIp clientDuid).1.allocatePrefix_rest clientDuid
    refine ⟨⟨hbase'.trans hpool.1, hlen'.trans hpool.2⟩, ?_, follows_allocatePrefix hpool hkept⟩
    simp only [if_true, hsuffix, activeLeases_allocatePrefix]
    exact hleases
  | false => exact ⟨hpool, hleases, hkept⟩

theorem follows_step (h : Follows g s) : Follows (g.note call) (s.step call) := by
  cases call with
  | solicit msg =>
    simp only [Given.note, step, handleSolicit]
    cases msg.optionData optClientid with
    | none => exact h
    | some clientDuid => exact follows_allocate h
  | request msg =>
    simp only [Given.note, step, handleRequest]
    cases msg.optionData optClientid with
    | none => exact h
    | some clientDuid => exact follows_allocate h
  | release msg =>
    simp only [Given.note, step, handleRelease]
    cases msg.optionData optClientid with
    | none => exact h
    | some clientDuid => exact ⟨h.pool, h.leases.drop, h.delegations.drop⟩

theorem Follows.countersFree_iff (h : Follows g s) : s.CountersFree clientDuid msg ↔
    g.leases.Fresh clientDuid ∧ (wantsPrefix msg = true → g.delegations.Fresh clientDuid) := by
  have hleases := h.leases.fresh_iff clientDuid (r := Eq) fun _ _ => addressOf_inj
  have hdelegations :=
    h.delegations.fresh_iff clientDuid (r := Overlap) fun _ _ => overlap_delegated
  rw [CountersFree, ← hleases, ← hdelegations, h.pool.1, h.pool.2]
  refine and_congr (forall_congr' fun _ => forall_congr' fun other => ?_) Iff.rfl
  constructor
  · rintro hfree _ hne hv rfl
    exact hfree hne hv
  · intro hfree hne hv
    exact hfree _ hne hv rfl

theorem Follows.fits_iff (h : Follows g s) : s.Fits call ↔ g.Suits call := by
  cases call with
  | release msg => exact Iff.rfl
  | _ msg => exact forall_congr' fun clientDuid => forall_congr' fun _ => h.countersFree_iff

theorem follows_new : Follows .none new where
  pool := ⟨rfl, rfl⟩
  leases := ⟨rfl, fun clientDuid v => by simp [new, Given.none, Ledger.none]⟩
  delegations := ⟨rfl, fun clientDuid v => by simp [new, Given.none, Ledger.none]⟩

/-- In a run the bindings are unique, in every state, exactly when whatever is given was not given
a multiple of 65536 before to a client that still has it. -/
theorem bindings_unique (calls : List Call) :
    (∀ done, done <+: calls → (Machine.run step new done).BindingsApart) ↔
      Machine.Along Given.note Given.Suits .none calls :=
  Machine.keeps_iff_along (fun _ _ _ h => follows_step h)
    (fun _ _ call h hs => (bindingsApart_step_iff hs call).trans h.fits_iff) follows_new
    ⟨apart_empty, apart_empty⟩

end Dhcpv6Server

namespace Dhcpv6Server

/-- Two clients are bound, one is released, a third one comes, and the first one comes back. -/
theorem bindings_unique_released : (Machine.run step new
    [.solicit (.buildSolicitFull 1 [1] false true), .request (.buildSolicitFull 2 [2] false true),
      .release (.buildSolicitFull 3 [1] false true), .solicit (.buildSolicitFull 4 [3] false true),
      .solicit (.buildSolicitFull 5 [1] false false)]).BindingsApart :=
  (bindings_unique _).mpr (Given.suits_of_short Ledger.numbered_none Ledger.numbered_none
    (by decide))
    _ (List.prefix_refl _)

/-- Solicits of `n` clients, each with a DUID of its own. -/
def flood (n : ℕ) : List Call :=
  (List.range n).map fun i => .solicit (.buildSolicitFull 1 (toBeBytes32 i) false false)

theorem flood_succ (n : ℕ) :
    flood (n + 1) = flood n ++ [.solicit (.buildSolicitFull 1 (toBeBytes32 n) false false)] := by
  simp [flood, List.range_succ]

theorem step_solicit (s : Dhcpv6Server) (duid : List UInt8) :
    s.step (.solicit (.buildSolicitFull 1 duid false false)) = (s.allocateIp duid).1 := by
  have hid : (Dhcpv6Message.buildSolicitFull 1 duid false false).optionData optClientid =
      some duid := rfl
  have hpd : wantsPrefix (.buildSolicitFull 1 duid false false) = false := rfl
  simp [step, handleSolicit, hid, allocate, hpd]

theorem toBeBytes32_inj {i j : ℕ} (hi : i < 2 ^ 32) (hj : j < 2 ^ 32)
    (h : toBeBytes32 i = toBeBytes32 j) : i = j := by
  have hlong : ∀ n, n < 2 ^ 32 → longAt (toBeBytes32 n) 0 = n := by
    intro n hn
    simp [longAt, wordAt, byteAt, beWord, toBeBytes32]
    omega
  rw [← hlong i hi, ← hlong j hj, h]

/-- After `n` clients the counter has moved by `n`, and each client has the address it found. -/
theorem run_flood (n : ℕ) (hn : n < 2 ^ 32) :
    (Machine.run step new (flood n)).nextIpSuffix = 100 + UInt16.ofNat n ∧
      (∀ j < n, (Machine.run step new (flood n)).activeLeases.lookup (toBeBytes32 j) =
        some (addressOf (100 + UInt16.ofNat j))) ∧
      ∀ j, n ≤ j → j < 2 ^ 32 →
        (Machine.run step new (flood n)).activeLeases.lookup (toBeBytes32 j) = none := by
  induction n with
  | zero =>
    refine ⟨rfl, fun j hj => absurd hj (Nat.not_lt_zero j), fun j _ _ => ?_⟩
    exact AList.lookup_empty _
  | succ n ih =>
    obtain ⟨hsuffix, hheld, hfree⟩ := ih (by omega)
    rw [flood_succ, Machine.run_append]
    generalize Machine.run step new (flood n) = s at hsuffix hheld hfree
    have hrun : Machine.run step s [.solicit (.buildSolicitFull 1 (toBeBytes32 n) false false)] =
        (s.allocateIp (toBeBytes32 n)).1 := step_solicit s (toBeBytes32 n)
    rw [hrun, allocateIp, hfree n le_rfl (by omega)]
    refine ⟨?_, fun j hj => ?_, fun j hj hlt => ?_⟩
    · simp [hsuffix, UInt16.ofNat_add, UInt16.add_assoc]
    · dsimp only
      rw [lookup_insert_of, hsuffix]
      split_ifs with heq
      · rw [toBeBytes32_inj (by omega) (by omega) heq]
      · have hne : j ≠ n := fun hjn => heq (by rw [hjn])
        exact hheld j (by omega)
    · dsimp only
      rw [lookup_insert_of, if_neg, hfree j (by omega) hlt]
      intro heq
      have := toBeBytes32_inj hlt (by omega) heq
      omega

/-- The address of the first client is given to the one that comes 65536 allocations later. -/
theorem address_given_twice : ¬ (Machine.run step new (flood 65537)).BindingsApart := by
  rintro ⟨hdistinct, -⟩
  obtain ⟨-, hheld, -⟩ := run_flood 65537 (by omega)
  have hsame := hdistinct (toBeBytes32 0) (toBeBytes32 65536) _ _ (hheld 0 (by omega))
    (hheld 65536 (by omega)) rfl
  exact absurd (toBeBytes32_inj (by omega) (by omega) hsame) (by omega)

end Dhcpv6Server

end ToyTcpip.Dhcpv6
