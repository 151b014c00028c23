import ToyTcpip.Bgp.Session

/-! What the operations of the speaker do to the tables of a family, entry by entry. -/
namespace ToyTcpip.Bgp

namespace Rib

variable {κ π ρ ο : Type} [Ord κ] {rib : Rib κ π ρ ο} {addr a : Ipv4Address}
  {k k' : κ} {ks : List κ}

@[simp] theorem withdraw_adjRibOut : (rib.withdraw addr k).adjRibOut = rib.adjRibOut := by
  unfold withdraw
  split <;> rfl

@[simp] theorem withdraw_locRib : (rib.withdraw addr k).locRib = rib.locRib := by
  unfold withdraw
  split <;> rfl

@[simp] theorem withdraw_originated : (rib.withdraw addr k).originated = rib.originated := by
  unfold withdraw
  split <;> rfl

theorem dirty_withdraw (h : rib.dirty = true) : (rib.withdraw addr k).dirty = true := by
  unfold withdraw
  split
  · rfl
  · exact h

/-- A withdrawal that leaves the mark unset has found nothing. -/
theorem withdraw_of_clean (h : (rib.withdraw addr k).dirty = false) :
    rib.withdraw addr k = rib := by
  by_cases hk : (rib.adjRibIn.get? addr k).isSome
  · simp [withdraw, hk] at h
  · simp [withdraw, hk]

@[simp] theorem withdrawAll_nil : rib.withdrawAll addr [] = rib := rfl

@[simp] theorem withdrawAll_cons :
    rib.withdrawAll addr (k :: ks) = (rib.withdraw addr k).withdrawAll addr ks := rfl

@[simp] theorem withdrawAll_adjRibOut : (rib.withdrawAll addr ks).adjRibOut = rib.adjRibOut := by
  induction ks generalizing rib with
  | nil => rfl
  | cons k ks ih => rw [withdrawAll_cons, ih, withdraw_adjRibOut]

@[simp] theorem withdrawAll_locRib : (rib.withdrawAll addr ks).locRib = rib.locRib := by
  induction ks generalizing rib with
  | nil => rfl
  | cons k ks ih => rw [withdrawAll_cons, ih, withdraw_locRib]

@[simp] theorem withdrawAll_originated : (rib.withdrawAll addr ks).originated = rib.originated := by
  induction ks generalizing rib with
  | nil => rfl
  | cons k ks ih => rw [withdrawAll_cons, ih, withdraw_originated]

theorem dirty_withdrawAll (h : rib.dirty = true) : (rib.withdrawAll addr ks).dirty = true := by
  induction ks generalizing rib with
  | nil => exact h
  | cons k ks ih => exact ih (dirty_withdraw h)

theorem withdrawAll_of_clean (h : (rib.withdrawAll addr ks).dirty = false) :
    rib.withdrawAll addr ks = rib := by
  induction ks generalizing rib with
  | nil => rfl
  | cons k ks ih =>
    rw [withdrawAll_cons] at h ⊢
    have hrest := ih h
    rw [hrest] at h ⊢
    exact withdraw_of_clean h

section entries

variable [Std.TransOrd κ]

@[simp] theorem get?_clearIn : (rib.clearIn addr).adjRibIn.get? a k =
    if addr = a then none else rib.adjRibIn.get? a k := by
  simp [clearIn]

/-- Only an empty table is cleared without a mark. -/
theorem get?_clearIn_of_clean (h : (rib.clearIn addr).dirty = false) :
    (rib.clearIn addr).adjRibIn.get? a k = rib.adjRibIn.get? a k := by
  simp only [clearIn, Bool.or_eq_false_iff, decide_eq_false_iff_not, not_lt, Nat.le_zero] at h
  rw [get?_clearIn]
  split
  · rename_i ha
    rw [← ha, Nested.count_eq_zero_iff.mp h.2 k]
  · rfl

variable [Std.LawfulEqOrd κ] [DecidableEq κ]

@[simp] theorem get?_withdraw : (rib.withdraw addr k).adjRibIn.get? a k' =
    if addr = a ∧ k = k' then none else rib.adjRibIn.get? a k' := by
  by_cases hk : (rib.adjRibIn.get? addr k).isSome
  · simp [withdraw, hk]
  · have hnone : rib.adjRibIn.get? addr k = none := by simpa using hk
    simp only [withdraw, hk, Bool.false_eq_true, ↓reduceIte]
    split
    · rename_i h
      rw [← h.1, ← h.2, hnone]
    · rfl

theorem get?_withdrawAll : (rib.withdrawAll addr ks).adjRibIn.get? a k' =
    if addr = a ∧ k' ∈ ks then none else rib.adjRibIn.get? a k' := by
  induction ks generalizing rib with
  | nil => simp
  | cons k ks ih =>
    rw [withdrawAll_cons, ih, get?_withdraw]
    by_cases ha : addr = a
    · by_cases hk : k = k'
      · simp [ha, hk]
      · simp [ha, hk, Ne.symm hk]
    · simp [ha]

end entries

variable [RoutePath π κ] {path : π} {cutoff : Option ℕ}

variable [Std.TransOrd κ] [Std.LawfulEqOrd κ]

theorem mem_staleKeys : k ∈ rib.staleKeys addr cutoff ↔
    ∃ p, rib.adjRibIn.get? addr k = some p ∧ cutoff.all fun t => RoutePath.receivedAtMs p < t := by
  simp only [staleKeys, List.mem_map, List.mem_filter, Std.TreeMap.mem_toList_iff_getElem?_eq_some,
    Prod.exists, exists_and_right, exists_eq_right, Nested.get?]

variable [DecidableEq κ]

@[simp] theorem get?_receive : (rib.receive addr path).adjRibIn.get? a k =
    if addr = a ∧ RoutePath.key path = k then some path else rib.adjRibIn.get? a k := by
  simp [receive]

/-- A purge takes the entries received before the cutoff and no others. -/
theorem get?_purge : (rib.purge addr cutoff).adjRibIn.get? a k =
    (rib.adjRibIn.get? a k).filter fun p =>
      !(decide (addr = a) && cutoff.all fun t => RoutePath.receivedAtMs p < t) := by
  rw [purge, get?_withdrawAll]
  by_cases ha : addr = a
  · subst ha
    cases hp : rib.adjRibIn.get? addr k with
    | none => simp
    | some p =>
      by_cases hc : (cutoff.all fun t => decide (RoutePath.receivedAtMs p < t)) = true
      · simp [mem_staleKeys, hp, hc, Option.filter]
      · simp [mem_staleKeys, hp, hc, Option.filter]
  · simp only [ha, false_and, ↓reduceIte, decide_false, Bool.false_and, Bool.not_false]
    cases rib.adjRibIn.get? a k <;> rfl

end Rib

/-! ### Views by address and route -/

def RouteKey.family : RouteKey → AfiSafi
  | .ipv4 _ => .ipv4Unicast
  | .ipv6 _ => .ipv6Unicast
  | .evpn _ => .l2vpnEvpn

namespace BgpRouter

/-- When the path a peer has under a key was received. -/
def held (r : BgpRouter) (addr : Ipv4Address) : RouteKey → Option ℕ
  | .ipv4 k => (r.ipv4.adjRibIn.get? addr k).map BgpPath.receivedAtMs
  | .ipv6 k => (r.ipv6.adjRibIn.get? addr k).map Ipv6Path.receivedAtMs
  | .evpn k => (r.evpn.adjRibIn.get? addr k).map EvpnPath.receivedAtMs

/-- The peer was told a route under a key. -/
def told (r : BgpRouter) (addr : Ipv4Address) : RouteKey → Bool
  | .ipv4 k => (r.ipv4.adjRibOut.get? addr k).isSome
  | .ipv6 k => (r.ipv6.adjRibOut.get? addr k).isSome
  | .evpn k => (r.evpn.adjRibOut.get? addr k).isSome

end BgpRouter

/-- The parameters of a speaker that only its configuration changes. -/
structure Settings where
  localAs : UInt32
  routerId : Ipv4Address
  importRts : Std.TreeSet RouteTarget
  clusterIdSet : Option Ipv4Address
  retainAllRts : Bool

def BgpRouter.settings (r : BgpRouter) : Settings :=
  ⟨r.localAs, r.routerId, r.importRts, r.clusterIdSet, r.retainAllRts⟩

/-! ### Purges -/

/-- A family's tables, less the entries of a peer received before the cutoff if the purge is on. -/
structure RibPurged {κ π ρ ο : Type} [Ord κ] [RoutePath π κ] (rib rib' : Rib κ π ρ ο)
    (addr : Ipv4Address) (on : Bool) (cutoff : Option ℕ) : Prop where
  adjRibOut : rib'.adjRibOut = rib.adjRibOut
  locRib : rib'.locRib = rib.locRib
  originated : rib'.originated = rib.originated
  get? : ∀ a k, rib'.adjRibIn.get? a k = (rib.adjRibIn.get? a k).filter fun p =>
    !(on && decide (addr = a) && cutoff.all fun t => RoutePath.receivedAtMs p < t)
  clean : rib'.dirty = false → rib' = rib
  dirty : rib.dirty = true → rib'.dirty = true

namespace RibPurged

variable {κ π ρ ο : Type} [Ord κ] [RoutePath π κ] {rib rib' rib'' : Rib κ π ρ ο}
  {addr : Ipv4Address} {on on' : Bool} {cutoff : Option ℕ}

theorem refl : RibPurged rib rib addr false cutoff :=
  ⟨rfl, rfl, rfl, fun a k => by cases rib.adjRibIn.get? a k <;> rfl, fun _ => rfl, id⟩

theorem trans (h : RibPurged rib rib' addr on cutoff) (h' : RibPurged rib' rib'' addr on' cutoff) :
    RibPurged rib rib'' addr (on || on') cutoff where
  adjRibOut := h'.adjRibOut.trans h.adjRibOut
  locRib := h'.locRib.trans h.locRib
  originated := h'.originated.trans h.originated
  get? a k := by
    rw [h'.get?, h.get?, Option.filter_filter]
    congr 1
    funext p
    cases on <;> cases on' <;> simp
  clean hd := by
    have hlast := h'.clean hd
    rw [hlast] at hd ⊢
    exact h.clean hd
  dirty hd := h'.dirty (h.dirty hd)

variable [DecidableEq κ] [Std.TransOrd κ] [Std.LawfulEqOrd κ]

theorem purge : RibPurged rib (rib.purge addr cutoff) addr true cutoff where
  adjRibOut := Rib.withdrawAll_adjRibOut
  locRib := Rib.withdrawAll_locRib
  originated := Rib.withdrawAll_originated
  get? a k := by simpa using Rib.get?_purge
  clean := Rib.withdrawAll_of_clean
  dirty := Rib.dirty_withdrawAll

end RibPurged

/-- The tables of all families after a purge of some of them; the peers are as they were. -/
structure Purged (r r' : BgpRouter) (addr : Ipv4Address) (families : AfiSafi → Bool)
    (cutoff : Option ℕ) : Prop where
  peers : r'.peers = r.peers
  settings : r'.settings = r.settings
  evpnAdvertiseRib : r'.evpnAdvertiseRib = r.evpnAdvertiseRib
  ipv4 : RibPurged r.ipv4 r'.ipv4 addr (families .ipv4Unicast) cutoff
  ipv6 : RibPurged r.ipv6 r'.ipv6 addr (families .ipv6Unicast) cutoff
  evpn : RibPurged r.evpn r'.evpn addr (families .l2vpnEvpn) cutoff

def BgpPeer.setRestart (stale : Std.TreeSet AfiSafi) (deadline cutoff : Option ℕ) (p : BgpPeer) :
    BgpPeer :=
  { p with
    gracefulRestartStale := stale
    gracefulRestartDeadline := deadline
    gracefulRestartRefreshStartedMs := cutoff }

namespace Purged

variable {r r' r'' : BgpRouter} {addr a : Ipv4Address} {families families' : AfiSafi → Bool}
  {cutoff : Option ℕ} {k : RouteKey}

theorem refl : Purged r r addr (fun _ => false) cutoff := ⟨rfl, rfl, rfl, .refl, .refl, .refl⟩

theorem trans (h : Purged r r' addr families cutoff) (h' : Purged r' r'' addr families' cutoff) :
    Purged r r'' addr (fun f => families f || families' f) cutoff where
  peers := h'.peers.trans h.peers
  settings := h'.settings.trans h.settings
  evpnAdvertiseRib := h'.evpnAdvertiseRib.trans h.evpnAdvertiseRib
  ipv4 := h.ipv4.trans h'.ipv4
  ipv6 := h.ipv6.trans h'.ipv6
  evpn := h.evpn.trans h'.evpn

theorem withPeers (h : Purged r r' addr families cutoff) (peers : List BgpPeer) :
    Purged { r with peers } { r' with peers } addr families cutoff :=
  ⟨rfl, h.settings, h.evpnAdvertiseRib, h.ipv4, h.ipv6, h.evpn⟩

theorem peerAt (h : Purged r r' addr families cutoff) (idx : ℕ) : r'.peerAt idx = r.peerAt idx := by
  simp [BgpRouter.peerAt, h.peers]

/-- The purge by route: a path goes if its family is purged and it was received before the
cutoff. -/
theorem held (h : Purged r r' addr families cutoff) : r'.held a k = (r.held a k).filter fun t =>
    !(families k.family && decide (addr = a) && cutoff.all fun c => t < c) := by
  cases k with
  | ipv4 k =>
    simp only [BgpRouter.held, h.ipv4.get?, Option.filter_map]
    rfl
  | ipv6 k =>
    simp only [BgpRouter.held, h.ipv6.get?, Option.filter_map]
    rfl
  | evpn k =>
    simp only [BgpRouter.held, h.evpn.get?, Option.filter_map]
    rfl

theorem told (h : Purged r r' addr families cutoff) : r'.told a k = r.told a k := by
  cases k <;> simp [BgpRouter.told, h.ipv4.adjRibOut, h.ipv6.adjRibOut, h.evpn.adjRibOut]

end Purged

namespace BgpRouter

variable {r : BgpRouter} {idx nowMs : ℕ} {family : AfiSafi}

theorem purged_purgeFamily (r : BgpRouter) (idx : ℕ) (family : AfiSafi) :
    Purged r (r.purgeGracefulRestartStaleFamily idx family)
    (r.peerAt idx).addr (fun f => f = family) (r.peerAt idx).gracefulRestartRefreshStartedMs := by
  unfold purgeGracefulRestartStaleFamily
  by_cases h4 : family = .ipv4Unicast
  · subst h4
    exact ⟨rfl, rfl, rfl, .purge, .refl, .refl⟩
  · by_cases h6 : family = .ipv6Unicast
    · subst h6
      exact ⟨rfl, rfl, rfl, .refl, .purge, .refl⟩
    · by_cases he : family = .l2vpnEvpn
      · subst he
        exact ⟨rfl, rfl, rfl, .refl, .refl, .purge⟩
      · simp only [h4, h6, he, ↓reduceIte]
        exact ⟨rfl, rfl, rfl, by simpa [Ne.symm h4] using .refl, by simpa [Ne.symm h6] using .refl,
          by simpa [Ne.symm he] using .refl⟩

theorem purged_purgeFamilies (families : List AfiSafi) :
    Purged r (families.foldl (fun r family => r.purgeGracefulRestartStaleFamily idx family) r)
      (r.peerAt idx).addr (fun f => f ∈ families)
      (r.peerAt idx).gracefulRestartRefreshStartedMs := by
  induction families generalizing r with
  | nil => simpa using Purged.refl
  | cons family rest ih =>
    have hfirst := purged_purgeFamily r idx family
    have hrest := ih (r := r.purgeGracefulRestartStaleFamily idx family)
    rw [hfirst.peerAt] at hrest
    simpa [Bool.decide_or] using hfirst.trans hrest

end BgpRouter

/-! ### Updates of one peer -/

namespace BgpRouter

variable {r : BgpRouter} {idx j : ℕ} {f g : BgpPeer → BgpPeer}

@[simp] theorem length_updatePeer : (r.updatePeer idx f).peers.length = r.peers.length := by
  simp [updatePeer]

theorem peerAt_updatePeer (hidx : idx < r.peers.length) :
    (r.updatePeer idx f).peerAt j = if idx = j then f (r.peerAt j) else r.peerAt j := by
  simp only [peerAt, updatePeer, List.getD_eq_getElem?_getD, List.getElem?_modify]
  by_cases h : idx = j
  · subst h
    simp [hidx]
  · simp [h]

theorem peerAt_mem (hidx : idx < r.peers.length) : r.peerAt idx ∈ r.peers := by
  simp [peerAt, hidx]

theorem mem_peers_iff {p : BgpPeer} : p ∈ r.peers ↔ ∃ idx < r.peers.length, r.peerAt idx = p := by
  rw [List.mem_iff_getElem]
  constructor
  · rintro ⟨idx, hidx, rfl⟩
    exact ⟨idx, hidx, by simp [peerAt, hidx]⟩
  · rintro ⟨idx, hidx, rfl⟩
    exact ⟨idx, hidx, by simp [peerAt, hidx]⟩

theorem map_peers_updatePeer {γ : Type} {g : BgpPeer → γ} (h : ∀ p, g (f p) = g p) :
    (r.updatePeer idx f).peers.map g = r.peers.map g := by
  apply List.ext_getElem?
  intro i
  simp only [updatePeer, List.getElem?_map, List.getElem?_modify]
  cases r.peers[i]? with
  | none => simp
  | some p =>
    by_cases hi : idx = i
    · simp [hi, h p]
    · simp [hi]

theorem proj_peerAt_updatePeer {γ : Type} {g : BgpPeer → γ} (h : ∀ p, g (f p) = g p) :
    g ((r.updatePeer idx f).peerAt j) = g (r.peerAt j) := by
  simp only [peerAt, updatePeer, List.getD_eq_getElem?_getD, List.getElem?_modify]
  cases r.peers[j]? with
  | none => simp
  | some p =>
    by_cases hi : idx = j
    · simp [hi, h]
    · simp [hi]

theorem updatePeer_updatePeer :
    (r.updatePeer idx f).updatePeer idx g = r.updatePeer idx fun p => g (f p) := by
  simp only [updatePeer, List.modify_modify_eq]
  rfl

theorem updatePeer_congr (hidx : idx < r.peers.length) (h : f (r.peerAt idx) = g (r.peerAt idx)) :
    r.updatePeer idx f = r.updatePeer idx g := by
  have hpeers : r.peers.modify idx f = r.peers.modify idx g := by
    apply List.ext_getElem?
    intro i
    simp only [List.getElem?_modify]
    by_cases hi : idx = i
    · subst hi
      simpa [hidx, peerAt] using h
    · simp [hi]
  simp [updatePeer, hpeers]

end BgpRouter

/-! ### Graceful restart -/

/-- A purge of some of a peer's families, and the restart state it leaves. -/
def Retired (r : BgpRouter) (idx : ℕ) (families : AfiSafi → Bool) (stale : Std.TreeSet AfiSafi)
    (deadline cutoff : Option ℕ) (r' : BgpRouter) : Prop :=
  ∃ r₁, Purged r r₁ (r.peerAt idx).addr families (r.peerAt idx).gracefulRestartRefreshStartedMs ∧
    r' = r₁.updatePeer idx (.setRestart stale deadline cutoff)

namespace BgpRouter

variable {r : BgpRouter} {idx nowMs : ℕ} {family : AfiSafi} {families : AfiSafi → Bool}
  {stale : Std.TreeSet AfiSafi} {deadline cutoff : Option ℕ}

/-- The last retained family takes the deadline and the cutoff with it. -/
theorem retired_endRestartIfNoneLeft {r' : BgpRouter} (hidx : idx < r.peers.length)
    (h : Retired r idx families stale deadline cutoff r') :
    Retired r idx families stale (if stale.isEmpty then none else deadline)
      (if stale.isEmpty then none else cutoff) (r'.endRestartIfNoneLeft idx) := by
  obtain ⟨r₁, hpurged, rfl⟩ := h
  refine ⟨r₁, hpurged, ?_⟩
  have hidx₁ : idx < r₁.peers.length := by rwa [hpurged.peers]
  have hpeer : (r₁.updatePeer idx (.setRestart stale deadline cutoff)).peerAt idx =
      (r₁.peerAt idx).setRestart stale deadline cutoff := by
    simp [peerAt_updatePeer hidx₁]
  have hstale : ((r₁.peerAt idx).setRestart stale deadline cutoff).gracefulRestartStale = stale :=
    rfl
  unfold endRestartIfNoneLeft
  rw [hpeer, hstale]
  by_cases he : stale.isEmpty
  · simp only [he, ↓reduceIte, updatePeer_updatePeer]
    rfl
  · simp [he]

theorem retired_dropStaleFamilies (hidx : idx < r.peers.length) (dropped : List AfiSafi) :
    Retired r idx (fun f => f ∈ dropped)
      (dropped.foldl (fun s f => s.erase f) (r.peerAt idx).gracefulRestartStale)
      (r.peerAt idx).gracefulRestartDeadline (r.peerAt idx).gracefulRestartRefreshStartedMs
      (dropped.foldl (fun r family => r.dropStaleFamily idx family) r) := by
  induction dropped generalizing r with
  | nil =>
    refine ⟨r, by simpa using Purged.refl, ?_⟩
    have hid : r.updatePeer idx id = r := by simp [updatePeer]
    exact (hid.symm.trans (updatePeer_congr hidx rfl))
  | cons family rest ih =>
    have hfirst := purged_purgeFamily r idx family
    have hidx₁ : idx < (r.dropStaleFamily idx family).peers.length := by
      simpa [dropStaleFamily, hfirst.peers] using hidx
    have hpeer : (r.dropStaleFamily idx family).peerAt idx =
        { r.peerAt idx with
          gracefulRestartStale := (r.peerAt idx).gracefulRestartStale.erase family } := by
      rw [dropStaleFamily, peerAt_updatePeer (by rwa [hfirst.peers]), hfirst.peerAt]
      simp
    obtain ⟨r₁, hpurged, hr₁⟩ := ih hidx₁
    rw [hpeer] at hpurged hr₁
    have hbase : { r.dropStaleFamily idx family with peers := r.peers } =
        r.purgeGracefulRestartStaleFamily idx family := by
      rw [← hfirst.peers]
      rfl
    have hrest := hpurged.withPeers r.peers
    rw [hbase] at hrest
    refine ⟨{ r₁ with peers := r.peers }, by simpa [Bool.decide_or] using hfirst.trans hrest, ?_⟩
    have hpeers : r₁.peers = r.peers.modify idx fun p =>
        { p with gracefulRestartStale := p.gracefulRestartStale.erase family } := by
      rw [hpurged.peers, dropStaleFamily, updatePeer, hfirst.peers]
    have hr : r₁ = { r₁ with peers := r.peers }.updatePeer idx fun p =>
        { p with gracefulRestartStale := p.gracefulRestartStale.erase family } := by
      rw [updatePeer, ← hpeers]
    rw [List.foldl_cons, hr₁, hr, updatePeer_updatePeer]
    rfl

theorem mem_foldl_erase {dropped : List AfiSafi} :
    family ∈ dropped.foldl (fun s f => s.erase f) stale ↔ family ∈ stale ∧ family ∉ dropped := by
  induction dropped generalizing stale with
  | nil => simp
  | cons f rest ih =>
    rw [List.foldl_cons, ih, Std.TreeSet.mem_erase, List.mem_cons, not_or]
    by_cases hf : f = family
    · simp [hf]
    · simp [hf, Ne.symm hf]

theorem retired_flush : Retired r idx (fun f =>
  (r.peerAt idx).gracefulRestartStale.contains f) ∅ none
    none (r.flushGracefulRestart idx) := by
  refine ⟨_, ?_, rfl⟩
  have hmem : (fun f => (r.peerAt idx).gracefulRestartStale.contains f) =
      fun f => decide (f ∈ (r.peerAt idx).gracefulRestartStale.toList) := by
    funext f
    rw [Bool.eq_iff_iff]
    simp
  rw [hmem]
  exact purged_purgeFamilies _

/-- The marker that closes a retained family purges it. -/
theorem retired_complete (hidx : idx < r.peers.length)
    (h : (r.peerAt idx).gracefulRestartStale.contains family) :
    Retired r idx (fun f => f = family) ((r.peerAt idx).gracefulRestartStale.erase family)
      (if ((r.peerAt idx).gracefulRestartStale.erase family).isEmpty then none
        else (r.peerAt idx).gracefulRestartDeadline)
      (if ((r.peerAt idx).gracefulRestartStale.erase family).isEmpty then none
        else (r.peerAt idx).gracefulRestartRefreshStartedMs)
      (r.completeGracefulRestartFamily idx family) := by
  rw [completeGracefulRestartFamily, if_pos h]
  apply retired_endRestartIfNoneLeft hidx
  simpa using retired_dropStaleFamilies hidx [family]

/-- The peer's OPEN purges the retained families it does not keep, and dates the others. -/
def Reconciled (r : BgpRouter) (idx nowMs : ℕ) (kept : Std.TreeSet AfiSafi)
    (r' : BgpRouter) : Prop :=
  ∃ left : Std.TreeSet AfiSafi,
    (∀ f, left.contains f = ((r.peerAt idx).gracefulRestartStale.contains f && kept.contains f)) ∧
    Retired r idx (fun f => (r.peerAt idx).gracefulRestartStale.contains f && !kept.contains f) left
      (if left.isEmpty then none else (r.peerAt idx).gracefulRestartDeadline)
      (if left.isEmpty then none else some nowMs) r'

theorem reconciled_flush : Reconciled r idx nowMs ∅ (r.flushGracefulRestart idx) :=
  ⟨∅, by simp, by simpa using retired_flush⟩

theorem reconciled_dropStaleFamilies (hidx : idx < r.peers.length) (kept : Std.TreeSet AfiSafi) :
    Reconciled r idx nowMs kept
      (((((r.peerAt idx).gracefulRestartStale.toList.filter fun f => !kept.contains f).foldl
          (fun r family => r.dropStaleFamily idx family) r).updatePeer idx fun p =>
        { p with gracefulRestartRefreshStartedMs := some nowMs }).endRestartIfNoneLeft idx) := by
  obtain ⟨r₁, hpurged, hr₁⟩ := retired_dropStaleFamilies hidx
    ((r.peerAt idx).gracefulRestartStale.toList.filter fun f => !kept.contains f)
  have hmem : (fun f => (r.peerAt idx).gracefulRestartStale.contains f && !kept.contains f) =
      fun f => decide (f ∈ (r.peerAt idx).gracefulRestartStale.toList.filter fun f =>
        !kept.contains f) := by
    funext f
    rw [Bool.eq_iff_iff]
    simp
  refine ⟨((r.peerAt idx).gracefulRestartStale.toList.filter fun f => !kept.contains f).foldl
    (fun s f => s.erase f) (r.peerAt idx).gracefulRestartStale, ?_, ?_⟩
  · intro f
    rw [Bool.eq_iff_iff, Std.TreeSet.contains_iff_mem, mem_foldl_erase]
    simp
    tauto
  · apply retired_endRestartIfNoneLeft hidx
    rw [hmem, hr₁, updatePeer_updatePeer]
    exact ⟨r₁, hpurged, rfl⟩

theorem reconciled_reconcile (negotiated : NegotiatedCapabilities) (peerCaps : BgpCapabilitySet)
    (hidx : idx < r.peers.length) (h : (r.peerAt idx).gracefulRestartActive) :
    Reconciled r idx nowMs (familiesKept negotiated peerCaps)
      (r.reconcileGracefulRestartOpen idx nowMs negotiated peerCaps) := by
  unfold reconcileGracefulRestartOpen familiesKept
  simp only [h, Bool.not_true, Bool.false_eq_true, ↓reduceIte]
  cases peerCaps.gracefulRestart with
  | none => exact reconciled_flush
  | some gr =>
    by_cases hrestarting : gr.restarting
    · simp only [hrestarting, Bool.not_true, Bool.false_eq_true, ↓reduceIte]
      exact reconciled_dropStaleFamilies hidx _
    · simp only [hrestarting, Bool.not_false, Bool.false_eq_true, ↓reduceIte]
      exact reconciled_flush

end BgpRouter

end ToyTcpip.Bgp
