import ToyTcpip.Icmpv6.Ndp
import ToyTcpip.Lib.Machine

/-! Neighbor unreachability detection over runs of the neighbor cache. -/
namespace ToyTcpip

open Hashed (HashMap HashOrder)

/-- One neighbor as the two maps of the table hold it. -/
structure Neighbor where
  mac : Option MacAddress
  nud : Option NudMetadata

namespace Neighbor

def unknown : Neighbor := ⟨none, none⟩

def demote (n : Neighbor) : Neighbor :=
  { n with nud := n.nud.map fun nm => if nm.state = .reachable then .stale else nm }

/-- The first use of a stale entry starts its delay. -/
def use (n : Neighbor) (now : ℕ) : Neighbor :=
  { n with
    nud := n.nud.map fun nm =>
      if (nm.age now).state = .stale then
        ⟨.delay, some (satAddMs now ndpDelayFirstProbeTimeMs), 0⟩
      else nm.age now }

/-- What a timer pump makes of a neighbor, and the address that it probes. -/
def pump (n : Neighbor) (now retransTimerMs : ℕ) : Neighbor × Option MacAddress :=
  match n.nud, n.mac with
  | none, _ => (n, none)
  | some _, none => (unknown, none)
  | some nm, some mac =>
    match NdpTable.NudMetadata.step nm now retransTimerMs with
    | .keep nm => (⟨some mac, some nm⟩, none)
    | .probe nm => (⟨some mac, some nm⟩, some mac)
    | .remove => (unknown, none)

end Neighbor

namespace NdpTable

/-- A mapping that is not learned by the protocol. -/
def insert (t : NdpTable) (ip : Ipv6Address) (mac : MacAddress) : NdpTable :=
  { t with entries := t.entries.insert ip mac, nud := t.nud.erase ip }

def neighbor (t : NdpTable) (ip : Ipv6Address) : Neighbor := ⟨t.lookup ip, t.nud.lookup ip⟩

variable {t : NdpTable} {ip a : Ipv6Address} {mac : MacAddress} {now : ℕ}

/-! ### One neighbor at a time -/

theorem neighbor_insert (t : NdpTable) (ip : Ipv6Address) (mac : MacAddress) (a : Ipv6Address) :
    (t.insert ip mac).neighbor a = if a = ip then ⟨some mac, none⟩ else t.neighbor a := by
  have hmac := Hashed.lookup_insert_of t.entries ip mac a
  have hnud := Hashed.lookup_erase_of t.nud ip a
  simp only [neighbor, insert, lookup, hmac, hnud]
  split <;> rfl

theorem neighbor_markStale (t : NdpTable) (ip : Ipv6Address) (mac : MacAddress) (a : Ipv6Address) :
    (t.markStale ip mac).neighbor a = if a = ip then ⟨some mac, some .stale⟩ else t.neighbor a := by
  have hmac := Hashed.lookup_insert_of t.entries ip mac a
  have hnud := Hashed.lookup_insert_of t.nud ip .stale a
  simp only [neighbor, markStale, lookup, hmac, hnud]
  split <;> rfl

theorem neighbor_learnStale (t : NdpTable) (ip : Ipv6Address) (mac : MacAddress) (a : Ipv6Address) :
    (t.learnStale ip mac).neighbor a =
      if a = ip ∧ t.lookup ip ≠ some mac then ⟨some mac, some .stale⟩ else t.neighbor a := by
  unfold learnStale
  split
  · rename_i hknown
    rw [if_neg fun h => h.2 hknown]
  · rename_i hnew
    rw [neighbor_markStale]
    simp only [ne_eq, hnew, not_false_eq_true, and_true]

theorem neighbor_confirmReachable (t : NdpTable) (ip : Ipv6Address) (mac : MacAddress) (now : ℕ)
    (a : Ipv6Address) :
    (t.confirmReachable ip mac now).neighbor a =
      if a = ip then ⟨some mac, some ⟨.reachable, some (satAddMs now t.reachableTimeMs), 0⟩⟩
      else t.neighbor a := by
  have hmac := Hashed.lookup_insert_of t.entries ip mac a
  have hnud := Hashed.lookup_insert_of t.nud ip
    ⟨.reachable, some (satAddMs now t.reachableTimeMs), 0⟩ a
  simp only [neighbor, confirmReachable, lookup, hmac, hnud]
  split <;> rfl

theorem neighbor_demote (t : NdpTable) (ip a : Ipv6Address) :
    (t.demoteReachablePreservingMac ip).neighbor a =
      if a = ip then (t.neighbor a).demote else t.neighbor a := by
  unfold demoteReachablePreservingMac
  by_cases heq : a = ip
  · subst heq
    rw [if_pos rfl]
    cases hnm : t.nud.lookup a with
    | none => simp [neighbor, Neighbor.demote, hnm]
    | some nm =>
      by_cases hstate : nm.state = .reachable
      · have hnud := Hashed.lookup_insert_of t.nud a .stale a
        rw [if_pos rfl] at hnud
        simp [neighbor, Neighbor.demote, lookup, hnm, hstate, hnud]
      · simp [neighbor, Neighbor.demote, hnm, hstate]
  · rw [if_neg heq]
    have hnud := Hashed.lookup_insert_of t.nud ip .stale a
    rw [if_neg heq] at hnud
    split
    · split
      · simp only [neighbor, lookup, hnud]
      · rfl
    · rfl

theorem neighbor_touch (t : NdpTable) (ip : Ipv6Address) (now : ℕ) (a : Ipv6Address) :
    (t.touch ip now).neighbor a = if a = ip then (t.neighbor a).use now else t.neighbor a := by
  unfold touch
  by_cases heq : a = ip
  · subst heq
    rw [if_pos rfl]
    cases hnm : t.nud.lookup a with
    | none => simp [neighbor, Neighbor.use, hnm]
    | some nm =>
      have hnud := Hashed.lookup_insert_of t.nud a
        (if (nm.age now).state = .stale then
          ⟨.delay, some (satAddMs now ndpDelayFirstProbeTimeMs), 0⟩ else nm.age now) a
      rw [if_pos rfl] at hnud
      simp only [neighbor, Neighbor.use, lookup, hnud, hnm, Option.map_some]
  · rw [if_neg heq]
    split
    · rfl
    · rename_i nm _
      have hnud := Hashed.lookup_insert_of t.nud ip
        (if (nm.age now).state = .stale then
          ⟨.delay, some (satAddMs now ndpDelayFirstProbeTimeMs), 0⟩ else nm.age now) a
      rw [if_neg heq] at hnud
      simp only [neighbor, lookup, hnud]

theorem neighbor_lookupForTransmit (t : NdpTable) (ip : Ipv6Address) (now : ℕ) (a : Ipv6Address) :
    (t.lookupForTransmit ip now).1.neighbor a =
      if a = ip ∧ t.lookup ip ≠ none then (t.neighbor a).use now else t.neighbor a := by
  unfold lookupForTransmit
  split
  · rename_i hmac
    rw [if_neg fun h => h.2 hmac]
  · rename_i mac hmac
    rw [neighbor_touch]
    simp [hmac]

theorem neighbor_drop (t : NdpTable) (ip a : Ipv6Address) :
    (t.drop ip).neighbor a = if a = ip then .unknown else t.neighbor a := by
  have hmac := Hashed.lookup_erase_of t.entries ip a
  have hnud := Hashed.lookup_erase_of t.nud ip a
  simp only [neighbor, drop, lookup, hmac, hnud]
  split <;> rfl

theorem neighbor_drops (ips : List Ipv6Address) (t : NdpTable) (a : Ipv6Address) :
    (ips.foldl drop t).neighbor a = if a ∈ ips then .unknown else t.neighbor a := by
  induction ips generalizing t with
  | nil => simp
  | cons ip rest ih =>
    rw [List.foldl_cons, ih, neighbor_drop]
    by_cases hmem : a ∈ rest
    · simp [hmem]
    · by_cases heq : a = ip <;> simp [hmem, heq]

/-! ### The timer pump -/

/-- What a pump in progress says about one address. -/
structure View (p : NudPump) (a : Ipv6Address) (n : Neighbor) (leaving : Prop)
    (probes : List (Ipv6Address × MacAddress)) : Prop where
  neighbor : p.table.neighbor a = n
  gone : a ∈ p.gone ↔ leaving
  probes : p.probes.filter (fun probe => probe.1 = a) = probes

variable {p : NudPump} {n : Neighbor} {leaving : Prop} {probes : List (Ipv6Address × MacAddress)}

theorem retransTimerMs_step (p : NudPump) (now : ℕ) (ip : Ipv6Address) :
    (NudPump.step now p ip).table.retransTimerMs = p.table.retransTimerMs := by
  unfold NudPump.step
  split
  · rfl
  · split
    · rfl
    · split <;> rfl

theorem View.other (h : View p a n leaving probes) (hne : a ≠ ip) :
    View (NudPump.step now p ip) a n leaving probes := by
  obtain ⟨hn, hgone, hprobes⟩ := h
  have hkept : ∀ nm, ({ p.table with nud := p.table.nud.insert ip nm } : NdpTable).neighbor a =
      n := by
    intro nm
    have hnud := Hashed.lookup_insert_of p.table.nud ip nm a
    rw [← hn]
    simp only [NdpTable.neighbor, NdpTable.lookup, hnud, hne, if_false]
  unfold NudPump.step
  split
  · exact ⟨hn, hgone, hprobes⟩
  · split
    · exact ⟨hn, by simp [hne, hgone], hprobes⟩
    · split
      · exact ⟨hkept _, hgone, hprobes⟩
      · exact ⟨hkept _, hgone, by simp [List.filter_append, hprobes, Ne.symm hne]⟩
      · exact ⟨hn, by simp [hne, hgone], hprobes⟩

theorem View.others {ips : List Ipv6Address} (h : View p a n leaving probes) (hmem : a ∉ ips) :
    View (ips.foldl (NudPump.step now) p) a n leaving probes := by
  induction ips generalizing p with
  | nil => exact h
  | cons ip rest ih =>
    rw [List.mem_cons, not_or] at hmem
    exact ih (h.other hmem.1) hmem.2

theorem retransTimerMs_pump (ips : List Ipv6Address) (p : NudPump) :
    (ips.foldl (NudPump.step now) p).table.retransTimerMs = p.table.retransTimerMs := by
  induction ips generalizing p with
  | nil => rfl
  | cons ip rest ih => rw [List.foldl_cons, ih, retransTimerMs_step]

/-- The turn of the neighbor itself: what leaves is dropped at the end. -/
theorem View.self (h : View p a n False []) :
    ∃ n' leaving, View (NudPump.step now p a) a n' leaving
        (((n.pump now p.table.retransTimerMs).2.map fun mac => (a, mac)).toList) ∧
      (leaving → (n.pump now p.table.retransTimerMs).1 = .unknown) ∧
      (¬ leaving → (n.pump now p.table.retransTimerMs).1 = n') := by
  obtain ⟨hn, hgone, hprobes⟩ := h
  have hnud : p.table.nud.lookup a = n.nud := congrArg Neighbor.nud hn
  have hmac : p.table.entries.lookup a = n.mac := congrArg Neighbor.mac hn
  have hkept : ∀ nm, ({ p.table with nud := p.table.nud.insert a nm } : NdpTable).neighbor a =
      ⟨n.mac, some nm⟩ := by
    intro nm
    have hnew := Hashed.lookup_insert_of p.table.nud a nm a
    simp only [NdpTable.neighbor, NdpTable.lookup, hnew, hmac, if_true]
  unfold NudPump.step Neighbor.pump
  rw [hnud, hmac]
  cases hnm : n.nud with
  | none => exact ⟨n, False, ⟨hn, hgone, hprobes⟩, False.elim, fun _ => rfl⟩
  | some nm =>
    cases hm : n.mac with
    | none => exact ⟨n, True, ⟨hn, by simp, hprobes⟩, fun _ => rfl, fun h => absurd trivial h⟩
    | some mac =>
      dsimp only
      rw [hm] at hkept
      cases NudMetadata.step nm now p.table.retransTimerMs with
      | keep nm' => exact ⟨_, False, ⟨hkept nm', hgone, hprobes⟩, False.elim, fun _ => rfl⟩
      | probe nm' =>
        exact ⟨_, False, ⟨hkept nm', hgone, by simp [List.filter_append, hprobes]⟩, False.elim,
          fun _ => rfl⟩
      | remove => exact ⟨n, True, ⟨hn, by simp, hprobes⟩, fun _ => rfl, fun h => absurd trivial h⟩

theorem stepNud_at [HashOrder] (t : NdpTable) (now : ℕ) (a : Ipv6Address) :
    (t.stepNud now).1.neighbor a = ((t.neighbor a).pump now t.retransTimerMs).1 ∧
      (t.stepNud now).2.filter (fun probe => probe.1 = a) =
        (((t.neighbor a).pump now t.retransTimerMs).2.map fun mac => (a, mac)).toList := by
  have hperm := HashOrder.perm t.nud.keys
  have hnodup : (HashOrder.iter t.nud.keys).Nodup := hperm.nodup_iff.mpr t.nud.nodupKeys
  have hstart : View ⟨t, [], []⟩ a (t.neighbor a) False [] := ⟨rfl, by simp, rfl⟩
  unfold stepNud
  dsimp only
  rw [neighbor_drops]
  by_cases hmem : a ∈ HashOrder.iter t.nud.keys
  · obtain ⟨before, after, hsplit⟩ := List.append_of_mem hmem
    rw [hsplit] at hnodup ⊢
    obtain ⟨hbefore, hafter⟩ : a ∉ before ∧ a ∉ after := by
      rw [List.nodup_append] at hnodup
      exact ⟨fun h => hnodup.2.2 a h a List.mem_cons_self rfl,
        (List.nodup_cons.mp hnodup.2.1).1⟩
    rw [List.foldl_append, List.foldl_cons]
    have hturn : View (before.foldl (NudPump.step now) ⟨t, [], []⟩) a (t.neighbor a) False [] :=
      hstart.others hbefore
    obtain ⟨n', leaving, hview, hleave, hstay⟩ := @View.self a now _ _ hturn
    rw [retransTimerMs_pump] at hview hleave hstay
    obtain ⟨hn, hgone, hprobes⟩ := @View.others a now _ _ _ _ _ hview hafter
    refine ⟨?_, hprobes⟩
    split
    · rename_i hmem
      exact (hleave (hgone.mp hmem)).symm
    · rename_i hmem
      rw [hn]
      exact (hstay fun h => hmem (hgone.mpr h)).symm
  · obtain ⟨hn, hgone, hprobes⟩ := @View.others a now _ _ _ _ _ hstart hmem
    have hnone : t.nud.lookup a = none := by
      rw [hperm.mem_iff] at hmem
      exact AList.lookup_eq_none.mpr hmem
    have hpump : (t.neighbor a).pump now t.retransTimerMs = (t.neighbor a, none) := by
      simp [Neighbor.pump, neighbor, hnone]
    rw [hpump, if_neg (by simp [hgone])]
    exact ⟨hn, hprobes⟩

/-! ### Runs -/

/-- The calls on a table. -/
inductive Call where
  | insert (ip : Ipv6Address) (mac : MacAddress)
  | learnStale (ip : Ipv6Address) (mac : MacAddress)
  | markStale (ip : Ipv6Address) (mac : MacAddress)
  | demoteReachablePreservingMac (ip : Ipv6Address)
  | confirmReachable (ip : Ipv6Address) (mac : MacAddress) (now : UInt64)
  | lookupForTransmit (ip : Ipv6Address) (now : UInt64)
  | applyRouterAdvertisementTimers (reachableTime retransTimer : UInt32)
  | stepNud (now : UInt64)

/-- A probe with its time and the retransmit interval at that time. -/
structure SentProbe where
  sentMs : ℕ
  interval : ℕ
  deriving DecidableEq, Repr

def SentProbe.due (p : SentProbe) : ℕ := satAddMs p.sentMs p.interval

/-- Something is heard of the neighbor: that it is there, or a link-layer address of it. -/
def Informs (t : NdpTable) (ip : Ipv6Address) : Call → Prop
  | .insert a _ | .markStale a _ | .confirmReachable a _ _ => a = ip
  | .learnStale a mac => a = ip ∧ t.lookup a ≠ some mac
  | _ => False

instance (t : NdpTable) (ip : Ipv6Address) (c : Call) : Decidable (t.Informs ip c) := by
  cases c <;> unfold Informs <;> infer_instance

/-- A table with the probes that no neighbor has reacted to so far. -/
structure Watched where
  table : NdpTable
  unanswered : Ipv6Address → List SentProbe

section runs

variable [HashOrder]

/-- The table after a call and the probes that it emits. -/
def perform (t : NdpTable) : Call → NdpTable × List (Ipv6Address × MacAddress)
  | .insert ip mac => (t.insert ip mac, [])
  | .learnStale ip mac => (t.learnStale ip mac, [])
  | .markStale ip mac => (t.markStale ip mac, [])
  | .demoteReachablePreservingMac ip => (t.demoteReachablePreservingMac ip, [])
  | .confirmReachable ip mac now => (t.confirmReachable ip mac now.toNat, [])
  | .lookupForTransmit ip now => ((t.lookupForTransmit ip now.toNat).1, [])
  | .applyRouterAdvertisementTimers reachableTime retransTimer =>
    (t.applyRouterAdvertisementTimers reachableTime.toNat retransTimer.toNat, [])
  | .stepNud now => t.stepNud now.toNat

def step (t : NdpTable) (c : Call) : NdpTable := (t.perform c).1

/-- The probes of `ip` among those that a call emits. -/
def sentTo (t : NdpTable) (ip : Ipv6Address) : Call → List SentProbe
  | .stepNud now =>
    ((t.stepNud now.toNat).2.filter fun probe => probe.1 = ip).map fun _ =>
      ⟨now.toNat, t.retransTimerMs⟩
  | _ => []

def Watched.step (w : Watched) (c : Call) : Watched where
  table := w.table.step c
  unanswered ip := if w.table.Informs ip c then [] else w.unanswered ip ++ w.table.sentTo ip c

/-- The probes of `ip` in a run since something was last heard of it. -/
def unanswered (calls : List Call) : Ipv6Address → List SentProbe :=
  (Machine.run Watched.step ⟨.new, fun _ => []⟩ calls).unanswered

end runs

/-- Every probe follows the one before it after the retransmit interval. -/
def Spaced (sent : List SentProbe) : Prop := sent.IsChain fun p q => p.due ≤ q.sentMs

/-- A neighbor and the probes that it has not reacted to. -/
structure Tracked (n : Neighbor) (sent : List SentProbe) : Prop where
  few : sent.length ≤ ndpMaxUnicastSolicit
  spaced : Spaced sent
  cached : n.nud.isSome → n.mac.isSome
  deadline : ∀ nm, n.nud = some nm → (nm.deadlineMs.isSome ↔ nm.state ≠ .stale)
  counted : ∀ nm, n.nud = some nm → nm.probesSent = sent.length
  quiet : ∀ nm, n.nud = some nm → nm.state ≠ .probe → sent = []
  waiting : ∀ nm, n.nud = some nm → nm.state = .probe →
    ∃ last, sent.getLast? = some last ∧ nm.deadlineMs = some last.due

variable {n : Neighbor} {sent : List SentProbe}

theorem Tracked.of_nud_none (hnud : n.nud = none) (hfew : sent.length ≤ ndpMaxUnicastSolicit)
    (hspaced : Spaced sent) : Tracked n sent := by
  refine ⟨hfew, hspaced, ?_, ?_, ?_, ?_, ?_⟩ <;> simp [hnud]

/-- A neighbor that has just been heard of. -/
theorem Tracked.fresh {nm : NudMetadata} (mac : MacAddress) (hsent : nm.probesSent = 0)
    (hstate : nm.state ≠ .probe) (hdeadline : nm.deadlineMs.isSome ↔ nm.state ≠ .stale) :
    Tracked ⟨some mac, some nm⟩ [] := by
  refine ⟨Nat.zero_le _, List.IsChain.nil, fun _ => rfl, ?_, ?_, ?_, ?_⟩ <;>
    rintro _ ⟨⟩
  · exact hdeadline
  · exact hsent
  · exact fun _ => rfl
  · exact fun h => absurd h hstate

theorem Tracked.demote (h : Tracked n sent) : Tracked n.demote sent := by
  obtain ⟨mac, nud⟩ := n
  cases nud with
  | none => exact h
  | some nm =>
    by_cases hstate : nm.state = .reachable
    · have hcached := h.cached rfl
      obtain ⟨m, rfl⟩ := Option.isSome_iff_exists.mp hcached
      obtain rfl := h.quiet nm rfl (by simp [hstate])
      simp only [Neighbor.demote, Option.map_some, hstate, if_true]
      exact .fresh m rfl (by simp [NudMetadata.stale]) (by simp [NudMetadata.stale])
    · simp only [Neighbor.demote, Option.map_some, hstate, if_false]
      exact h

theorem Tracked.use (h : Tracked n sent) (now : ℕ) : Tracked (n.use now) sent := by
  obtain ⟨mac, nud⟩ := n
  cases nud with
  | none => exact h
  | some nm =>
    have hcached := h.cached rfl
    obtain ⟨m, rfl⟩ := Option.isSome_iff_exists.mp hcached
    have hdelay : sent = [] → Tracked ⟨some m,
        some ⟨.delay, some (satAddMs now ndpDelayFirstProbeTimeMs), 0⟩⟩ sent := by
      rintro rfl
      exact .fresh m rfl (by simp) (by simp)
    simp only [Neighbor.use, Option.map_some]
    by_cases hold : nm.state = .reachable ∧ nm.due now
    · have hquiet := h.quiet nm rfl (by simp [hold.1])
      simp only [NudMetadata.age, hold, and_self, if_true, NudMetadata.stale]
      exact hdelay hquiet
    · simp only [NudMetadata.age, hold, if_false]
      by_cases hstate : nm.state = .stale
      · rw [if_pos hstate]
        exact hdelay (h.quiet nm rfl (by simp [hstate]))
      · rw [if_neg hstate]
        exact h

/-- The probes that are waited for are as many as are ever sent, and the last one is overdue. -/
structure Exhausted (sent : List SentProbe) (now : ℕ) : Prop where
  all : sent.length = ndpMaxUnicastSolicit
  spaced : Spaced sent
  overdue : ∀ last, sent.getLast? = some last → last.due ≤ now

theorem NudMetadata.due_iff {nm : NudMetadata} {now : ℕ} :
    nm.due now = true ↔ ∃ d, nm.deadlineMs = some d ∧ d ≤ now := by
  unfold ToyTcpip.NudMetadata.due
  cases nm.deadlineMs <;> simp

/-- A pump either keeps up the record or ends a neighbor that has used up its probes. -/
theorem Tracked.pump (h : Tracked n sent) (now interval : ℕ) :
    Tracked (n.pump now interval).1
        (sent ++ ((n.pump now interval).2.map fun _ => (⟨now, interval⟩ : SentProbe)).toList) ∧
      (n.mac ≠ none → (n.pump now interval).1.mac = none → Exhausted sent now) := by
  obtain ⟨mac, nud⟩ := n
  cases nud with
  | none =>
    simp only [Neighbor.pump, Option.map_none, Option.toList_none, List.append_nil]
    exact ⟨h, fun h h' => absurd h' h⟩
  | some nm =>
    have hcached := h.cached rfl
    obtain ⟨m, rfl⟩ := Option.isSome_iff_exists.mp hcached
    simp only [Neighbor.pump]
    unfold NudMetadata.step
    split_ifs with hreach hdelay hprobe hmore
    · -- A reachable neighbor grows stale.
      obtain rfl := h.quiet nm rfl (by simp [hreach.1])
      exact ⟨.fresh m rfl (by simp [NudMetadata.stale]) (by simp [NudMetadata.stale]), by simp⟩
    · -- The first probe.
      obtain rfl := h.quiet nm rfl (by simp [hdelay.1])
      refine ⟨⟨by simp [ndpMaxUnicastSolicit], List.isChain_singleton _, fun _ => rfl, ?_, ?_, ?_,
        ?_⟩, by simp⟩ <;>
        rintro _ ⟨⟩
      · simp
      · rfl
      · exact fun h => absurd rfl h
      · exact fun _ => ⟨_, rfl, rfl⟩
    · -- Another probe, after the one before it.
      obtain ⟨last, hlast, hdue⟩ := h.waiting nm rfl hprobe.1
      obtain ⟨d, hd, hle⟩ := NudMetadata.due_iff.mp hprobe.2
      obtain rfl : last.due = d := Option.some.inj (hdue.symm.trans hd)
      have hcount := h.counted nm rfl
      refine ⟨⟨?_, ?_, fun _ => rfl, ?_, ?_, ?_, ?_⟩, by simp⟩
      · simp only [Option.map_some, Option.toList_some, List.length_append, List.length_singleton]
        omega
      · refine List.isChain_append.mpr ⟨h.spaced, List.isChain_singleton _, ?_⟩
        intro p hp q hq
        rw [hlast] at hp
        simp only [Option.map_some, Option.toList_some, List.head?_cons, Option.mem_def,
          Option.some.injEq] at hp hq
        subst hp hq
        exact hle
      · rintro _ ⟨⟩
        simp
      · rintro _ ⟨⟩
        simp [hcount]
      · rintro _ ⟨⟩ hne
        exact absurd rfl hne
      · rintro _ ⟨⟩ _
        exact ⟨⟨now, interval⟩, by simp, rfl⟩
    · -- No probe is left.
      obtain ⟨last, hlast, hdue⟩ := h.waiting nm rfl hprobe.1
      obtain ⟨d, hd, hle⟩ := NudMetadata.due_iff.mp hprobe.2
      obtain rfl : last.due = d := Option.some.inj (hdue.symm.trans hd)
      have hcount := h.counted nm rfl
      have hfew := h.few
      refine ⟨.of_nud_none rfl (by simpa using hfew) (by simpa using h.spaced), fun _ _ => ?_⟩
      refine ⟨by omega, h.spaced, fun p hp => ?_⟩
      obtain rfl := Option.some.inj (hlast.symm.trans hp)
      exact hle
    · simp only [Option.map_none, Option.toList_none, List.append_nil]
      exact ⟨h, by simp⟩

theorem sentTo_stepNud [HashOrder] (t : NdpTable) (ip : Ipv6Address) (now : UInt64) :
    t.sentTo ip (.stepNud now) = (((t.neighbor ip).pump now.toNat t.retransTimerMs).2.map
      fun _ => (⟨now.toNat, t.retransTimerMs⟩ : SentProbe)).toList := by
  simp only [sentTo, (stepNud_at t now.toNat ip).2]
  cases ((t.neighbor ip).pump now.toNat t.retransTimerMs).2 <;> rfl

theorem tracked_step [HashOrder] {w : Watched} (c : Call)
    (h : Tracked (w.table.neighbor ip) (w.unanswered ip)) :
    Tracked ((w.step c).table.neighbor ip) ((w.step c).unanswered ip) := by
  cases c with
  | insert a mac =>
    simp only [Watched.step, NdpTable.step, perform, neighbor_insert, Informs, sentTo,
      List.append_nil, eq_comm (b := ip)]
    split
    · exact .of_nud_none rfl (Nat.zero_le _) List.IsChain.nil
    · exact h
  | markStale a mac =>
    simp only [Watched.step, NdpTable.step, perform, neighbor_markStale, Informs, sentTo,
      List.append_nil, eq_comm (b := ip)]
    split
    · exact .fresh mac rfl (by simp [NudMetadata.stale]) (by simp [NudMetadata.stale])
    · exact h
  | learnStale a mac =>
    simp only [Watched.step, NdpTable.step, perform, neighbor_learnStale, Informs, sentTo,
      List.append_nil, eq_comm (b := ip)]
    split
    · exact .fresh mac rfl (by simp [NudMetadata.stale]) (by simp [NudMetadata.stale])
    · exact h
  | confirmReachable a mac now =>
    simp only [Watched.step, NdpTable.step, perform, neighbor_confirmReachable, Informs, sentTo,
      List.append_nil, eq_comm (b := ip)]
    split
    · exact .fresh mac rfl (by simp) (by simp)
    · exact h
  | demoteReachablePreservingMac a =>
    simp only [Watched.step, NdpTable.step, perform, neighbor_demote, Informs, sentTo,
      List.append_nil, if_false]
    split
    · exact h.demote
    · exact h
  | lookupForTransmit a now =>
    simp only [Watched.step, NdpTable.step, perform, neighbor_lookupForTransmit, Informs, sentTo,
      List.append_nil, if_false]
    split
    · exact h.use now.toNat
    · exact h
  | applyRouterAdvertisementTimers reachableTime retransTimer =>
    simp only [Watched.step, NdpTable.step, perform, Informs, sentTo, List.append_nil, if_false]
    exact h
  | stepNud now =>
    simp only [Watched.step, NdpTable.step, perform, Informs, if_false, sentTo_stepNud,
      (stepNud_at w.table now.toNat ip).1]
    exact (h.pump now.toNat w.table.retransTimerMs).1

theorem tracked_run [HashOrder] (calls : List Call) (ip : Ipv6Address) :
    Tracked ((Machine.run Watched.step ⟨.new, fun _ => []⟩ calls).table.neighbor ip)
      (unanswered calls ip) := by
  have hnew : Tracked (NdpTable.new.neighbor ip) [] :=
    .of_nud_none rfl (Nat.zero_le _) List.IsChain.nil
  exact Machine.run_keeps
    (I := fun w : Watched => Tracked (w.table.neighbor ip) (w.unanswered ip))
    (fun _ c h => tracked_step c h) calls hnew

/-- To watch the probes does not change the table. -/
theorem table_watched [HashOrder] (calls : List Call) (w : Watched) :
    (Machine.run Watched.step w calls).table = Machine.run step w.table calls := by
  induction calls generalizing w with
  | nil => rfl
  | cons c rest ih => exact ih (w.step c)

theorem reachableTimeMs_stepNud [HashOrder] (t : NdpTable) (now : ℕ) :
    (t.stepNud now).1.reachableTimeMs = t.reachableTimeMs := by
  have hdrops : ∀ (ips : List Ipv6Address) (t : NdpTable),
      (ips.foldl drop t).reachableTimeMs = t.reachableTimeMs := by
    intro ips
    induction ips with
    | nil => exact fun _ => rfl
    | cons ip rest ih => exact fun t => ih (t.drop ip)
  have hpump : ∀ (ips : List Ipv6Address) (p : NudPump),
      (ips.foldl (NudPump.step now) p).table.reachableTimeMs = p.table.reachableTimeMs := by
    intro ips
    induction ips with
    | nil => exact fun _ => rfl
    | cons ip rest ih =>
      intro p
      rw [List.foldl_cons, ih]
      unfold NudPump.step
      split
      · rfl
      · split
        · rfl
        · split <;> rfl
  unfold stepNud
  dsimp only
  rw [hdrops, hpump]

/-- Zero is never taken over as the reachable time. -/
theorem reachableTimeMs_pos [HashOrder] (calls : List Call) :
    0 < (Machine.run step .new calls).reachableTimeMs := by
  refine Machine.run_keeps (I := fun t : NdpTable => 0 < t.reachableTimeMs) ?_ calls (by decide)
  intro t c h
  cases c with
  | stepNud now => exact (reachableTimeMs_stepNud t now.toNat).symm ▸ h
  | applyRouterAdvertisementTimers reachableTime retransTimer =>
    simp only [step, perform, applyRouterAdvertisementTimers]
    split <;> omega
  | learnStale ip mac =>
    simp only [step, perform, learnStale]
    split <;> exact h
  | demoteReachablePreservingMac ip =>
    simp only [step, perform, demoteReachablePreservingMac]
    split
    · split <;> exact h
    · exact h
  | lookupForTransmit ip now =>
    simp only [step, perform, lookupForTransmit]
    split
    · exact h
    · unfold touch
      split <;> exact h
  | insert | markStale | confirmReachable => exact h

/-- In every run: a neighbor with a state is cached, its deadline is there exactly when something is
waited for, no more than three of its probes are without an answer, a pump removes it only when
three are and the last one is overdue, and to confirm it makes it reachable for a while. -/
theorem neighbor_unreachability [HashOrder] (calls : List Call) (ip : Ipv6Address) :
    let t := Machine.run step .new calls
    (∀ nm, t.nud.lookup ip = some nm → t.lookup ip ≠ none ∧
      (nm.deadlineMs ≠ none ↔ nm.state = .reachable ∨ nm.state = .delay ∨ nm.state = .probe) ∧
      nm.probesSent ≤ 3) ∧
    (unanswered calls ip).length ≤ 3 ∧
    (∀ now : UInt64, t.lookup ip ≠ none → (t.stepNud now.toNat).1.lookup ip = none →
      Exhausted (unanswered calls ip) now.toNat) ∧
    ∀ (mac : MacAddress) (now : UInt64), ∃ deadline,
      (t.confirmReachable ip mac now.toNat).lookup ip = some mac ∧
      (t.confirmReachable ip mac now.toNat).nud.lookup ip = some ⟨.reachable, some deadline, 0⟩ ∧
      (now.toNat < u64Max → now.toNat < deadline) := by
  intro t
  have htable : (Machine.run Watched.step ⟨.new, fun _ => []⟩ calls).table = t :=
    table_watched calls ⟨.new, fun _ => []⟩
  have htracked := tracked_run calls ip
  rw [htable] at htracked
  refine ⟨fun nm hnm => ?_, htracked.few, fun now hmac hgone => ?_, fun mac now => ?_⟩
  · have hcached := htracked.cached (by simp [neighbor, hnm])
    have hdeadline := htracked.deadline nm hnm
    have hcount := htracked.counted nm hnm
    have hfew := htracked.few
    refine ⟨Option.isSome_iff_ne_none.mp hcached, ?_, by rw [hcount]; exact hfew⟩
    rw [← Option.isSome_iff_ne_none, hdeadline]
    cases nm.state <;> simp
  · have hpump := htracked.pump now.toNat t.retransTimerMs
    rw [← (stepNud_at t now.toNat ip).1] at hpump
    exact hpump.2 hmac hgone
  · have hpos := reachableTimeMs_pos calls
    have hconfirmed := neighbor_confirmReachable t ip mac now.toNat ip
    rw [if_pos rfl] at hconfirmed
    refine ⟨_, congrArg Neighbor.mac hconfirmed, congrArg Neighbor.nud hconfirmed, fun hlt => ?_⟩
    change 0 < t.reachableTimeMs at hpos
    unfold satAddMs
    omega

/-! ### The end of the clock -/

/-- `fe80::2`. -/
def peerIp : Ipv6Address := ⟨#v[0xfe, 0x80, 0, 0, 0, 0, 0, 0, 0, 0, 0, 0, 0, 0, 0, 2]⟩

def peerMac : MacAddress := ⟨#v[2, 0, 0, 0, 0, 2]⟩

/-- A neighbor is used and probed at the last instant of the clock. -/
def lastInstant : List Call :=
  [.markStale peerIp peerMac, .lookupForTransmit peerIp 0xffffffffffffffff,
    .stepNud 0xffffffffffffffff, .stepNud 0xffffffffffffffff, .stepNud 0xffffffffffffffff]

/-- There the deadline of a confirmation is not in the future, and the probes are not spaced. -/
theorem deadline_at_end_of_clock :
    (∃ deadline, (NdpTable.new.confirmReachable peerIp peerMac u64Max).nud.lookup peerIp =
        some ⟨.reachable, some deadline, 0⟩ ∧ ¬ u64Max < deadline) ∧
      @unanswered Hashed.latestFirst lastInstant peerIp =
        [⟨u64Max, 1000⟩, ⟨u64Max, 1000⟩, ⟨u64Max, 1000⟩] ∧
      (@stepNud Hashed.latestFirst (Machine.run (@step Hashed.latestFirst) .new lastInstant)
        u64Max).1.lookup peerIp = none :=
  ⟨⟨u64Max, by decide +kernel, lt_irrefl _⟩, by decide +kernel⟩

end NdpTable

end ToyTcpip
