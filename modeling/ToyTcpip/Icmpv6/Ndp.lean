import ToyTcpip.Icmpv6.RouterAdvertisement
import ToyTcpip.Lib.Hashed

/-! The neighbor cache of `icmpv6.rs` with neighbor unreachability detection. -/
namespace ToyTcpip

open Hashed (HashMap HashOrder)

/-- `u64::MAX`. -/
def u64Max : ℕ := 2 ^ 64 - 1

/-- `u64::saturating_add`, on times. -/
def satAddMs (a b : ℕ) : ℕ := min (a + b) u64Max

def ndpReachableTimeMs : ℕ := 30000

def ndpDelayFirstProbeTimeMs : ℕ := 5000

def ndpRetransTimerMs : ℕ := 1000

def ndpMaxUnicastSolicit : ℕ := 3

inductive NeighborState where
  | reachable
  | stale
  | delay
  | probe
  deriving DecidableEq, Repr

structure NudMetadata where
  state : NeighborState
  deadlineMs : Option ℕ
  probesSent : ℕ
  deriving DecidableEq, Repr

namespace NudMetadata

/-- The deadline is set and reached. -/
def due (m : NudMetadata) (now : ℕ) : Bool := m.deadlineMs.any fun deadline => deadline ≤ now

def stale : NudMetadata := ⟨.stale, none, 0⟩

/-- A reachable entry whose time has run out is stale. -/
def age (m : NudMetadata) (now : ℕ) : NudMetadata :=
  if m.state = .reachable ∧ m.due now then stale else m

end NudMetadata

/-- Entries that were not learned by the protocol have no metadata and do not age. -/
structure NdpTable where
  entries : HashMap Ipv6Address MacAddress
  nud : HashMap Ipv6Address NudMetadata
  reachableTimeMs : ℕ
  retransTimerMs : ℕ

namespace NdpTable

def new : NdpTable := ⟨∅, ∅, ndpReachableTimeMs, ndpRetransTimerMs⟩

def applyRouterAdvertisementTimers (t : NdpTable) (reachableTime retransTimer : ℕ) : NdpTable :=
  { t with
    reachableTimeMs := if reachableTime ≠ 0 then reachableTime else t.reachableTimeMs
    retransTimerMs := if retransTimer ≠ 0 then retransTimer else t.retransTimerMs }

def lookup (t : NdpTable) (ip : Ipv6Address) : Option MacAddress := t.entries.lookup ip

def markStale (t : NdpTable) (ip : Ipv6Address) (mac : MacAddress) : NdpTable :=
  { t with entries := t.entries.insert ip mac, nud := t.nud.insert ip .stale }

def learnStale (t : NdpTable) (ip : Ipv6Address) (mac : MacAddress) : NdpTable :=
  if t.lookup ip = some mac then t else t.markStale ip mac

def demoteReachablePreservingMac (t : NdpTable) (ip : Ipv6Address) : NdpTable :=
  match t.nud.lookup ip with
  | some nm => if nm.state = .reachable then { t with nud := t.nud.insert ip .stale } else t
  | none => t

def confirmReachable (t : NdpTable) (ip : Ipv6Address) (mac : MacAddress) (now : ℕ) : NdpTable :=
  { t with
    entries := t.entries.insert ip mac
    nud := t.nud.insert ip ⟨.reachable, some (satAddMs now t.reachableTimeMs), 0⟩ }

/-- The first use of a stale entry starts its delay. -/
def touch (t : NdpTable) (ip : Ipv6Address) (now : ℕ) : NdpTable :=
  match t.nud.lookup ip with
  | none => t
  | some nm =>
    let nm := nm.age now
    let nm := if nm.state = .stale then
        ⟨.delay, some (satAddMs now ndpDelayFirstProbeTimeMs), 0⟩ else nm
    { t with nud := t.nud.insert ip nm }

def lookupForTransmit (t : NdpTable) (ip : Ipv6Address) (now : ℕ) : NdpTable × Option MacAddress :=
  match t.lookup ip with
  | none => (t, none)
  | some mac => (t.touch ip now, some mac)

def state (t : NdpTable) (ip : Ipv6Address) : Option NeighborState :=
  (t.lookup ip).map fun _ => ((t.nud.lookup ip).map NudMetadata.state).getD .reachable

/-! ### Unreachability detection -/

/-- What a timer pump does with one entry. -/
inductive NudStep where
  | keep (nm : NudMetadata)
  | probe (nm : NudMetadata)
  | remove

def NudMetadata.step (nm : NudMetadata) (now retransTimerMs : ℕ) : NudStep :=
  if nm.state = .reachable ∧ nm.due now then .keep .stale
  else if nm.state = .delay ∧ nm.due now then
    .probe ⟨.probe, some (satAddMs now retransTimerMs), 1⟩
  else if nm.state = .probe ∧ nm.due now then
    if nm.probesSent < ndpMaxUnicastSolicit then
      .probe ⟨.probe, some (satAddMs now retransTimerMs), nm.probesSent + 1⟩
    else .remove
  else .keep nm

/-- The table, the probes that are due and the entries to remove. -/
structure NudPump where
  table : NdpTable
  probes : List (Ipv6Address × MacAddress)
  gone : List Ipv6Address

def NudPump.step (now : ℕ) (p : NudPump) (ip : Ipv6Address) : NudPump :=
  match p.table.nud.lookup ip with
  | none => p
  | some nm =>
    match p.table.entries.lookup ip with
    | none => { p with gone := p.gone ++ [ip] }
    | some mac =>
      match NudMetadata.step nm now p.table.retransTimerMs with
      | .keep nm => { p with table := { p.table with nud := p.table.nud.insert ip nm } }
      | .probe nm =>
        { p with
          table := { p.table with nud := p.table.nud.insert ip nm }
          probes := p.probes ++ [(ip, mac)] }
      | .remove => { p with gone := p.gone ++ [ip] }

def drop (t : NdpTable) (ip : Ipv6Address) : NdpTable :=
  { t with entries := t.entries.erase ip, nud := t.nud.erase ip }

def stepNud [HashOrder] (t : NdpTable) (now : ℕ) : NdpTable × List (Ipv6Address × MacAddress) :=
  let pump := (HashOrder.iter t.nud.keys).foldl (NudPump.step now) ⟨t, [], []⟩
  (pump.gone.foldl drop pump.table, pump.probes)

/-! ### Entries -/

variable {t : NdpTable} {ip : Ipv6Address} {mac : MacAddress} {now : ℕ}

theorem lookup_markStale (t : NdpTable) (ip : Ipv6Address) (mac : MacAddress) (a : Ipv6Address) :
    (t.markStale ip mac).lookup a = if a = ip then some mac else t.lookup a :=
  Hashed.lookup_insert_of t.entries ip mac a

theorem lookup_learnStale (t : NdpTable) (ip : Ipv6Address) (mac : MacAddress) (a : Ipv6Address) :
    (t.learnStale ip mac).lookup a = if a = ip then some mac else t.lookup a := by
  unfold learnStale
  split
  · split <;> simp_all
  · exact lookup_markStale t ip mac a

theorem lookup_confirmReachable (t : NdpTable) (ip : Ipv6Address) (mac : MacAddress) (now : ℕ)
    (a : Ipv6Address) :
    (t.confirmReachable ip mac now).lookup a = if a = ip then some mac else t.lookup a :=
  Hashed.lookup_insert_of t.entries ip mac a

@[simp] theorem lookup_applyTimers (t : NdpTable) (reachable retrans : ℕ) (a : Ipv6Address) :
    (t.applyRouterAdvertisementTimers reachable retrans).lookup a = t.lookup a := rfl

@[simp] theorem lookup_demote (t : NdpTable) (ip a : Ipv6Address) :
    (t.demoteReachablePreservingMac ip).lookup a = t.lookup a := by
  unfold demoteReachablePreservingMac
  split
  · split <;> rfl
  · rfl

@[simp] theorem lookup_touch (t : NdpTable) (ip : Ipv6Address) (now : ℕ) (a : Ipv6Address) :
    (t.touch ip now).lookup a = t.lookup a := by
  unfold touch
  split <;> rfl

theorem lookupForTransmit_snd (t : NdpTable) (ip : Ipv6Address) (now : ℕ) :
    (t.lookupForTransmit ip now).2 = t.lookup ip := by
  unfold lookupForTransmit
  split <;> simp_all

@[simp] theorem lookup_lookupForTransmit (t : NdpTable) (ip : Ipv6Address) (now : ℕ)
    (a : Ipv6Address) : (t.lookupForTransmit ip now).1.lookup a = t.lookup a := by
  unfold lookupForTransmit
  split <;> simp

theorem entries_nudPump (now : ℕ) (ips : List Ipv6Address) (p : NudPump) :
    (ips.foldl (NudPump.step now) p).table.entries = p.table.entries := by
  induction ips generalizing p with
  | nil => rfl
  | cons ip rest ih =>
    rw [List.foldl_cons, ih]
    unfold NudPump.step
    split
    · rfl
    · split
      · rfl
      · split <;> rfl

theorem lookup_drops (ips : List Ipv6Address) (t : NdpTable) (a : Ipv6Address) :
    (ips.foldl drop t).lookup a = if a ∈ ips then none else t.lookup a := by
  induction ips generalizing t with
  | nil => simp
  | cons ip rest ih =>
    rw [List.foldl_cons, ih]
    have hone : (t.drop ip).lookup a = if a = ip then none else t.lookup a :=
      Hashed.lookup_erase_of t.entries ip a
    by_cases hmem : a ∈ rest
    · simp [hmem]
    · rw [if_neg hmem, hone]
      simp [hmem]

/-- A timer pump only removes entries. -/
theorem lookup_stepNud [HashOrder] (t : NdpTable) (now : ℕ) (a : Ipv6Address) :
    (t.stepNud now).1.lookup a = none ∨ (t.stepNud now).1.lookup a = t.lookup a := by
  unfold stepNud
  dsimp only
  rw [lookup_drops]
  split
  · exact .inl rfl
  · right
    unfold lookup
    rw [entries_nudPump]

end NdpTable

end ToyTcpip
