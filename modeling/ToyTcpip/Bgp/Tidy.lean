import ToyTcpip.Bgp.Reachable

/-! What holds of every session while it comes up, restarts and ends. -/
namespace ToyTcpip.Bgp

/-! ### The current session in the log -/

def Call.ends (addr : Ipv4Address) : Call → Bool
  | .teardown before idx _ => (before.peerAt idx).addr = addr
  | .adopt before idx => (before.peerAt idx).addr = addr
  | _ => false

def Call.stores (addr : Ipv4Address) (k : RouteKey) : Call → Bool
  | .store before idx path => (before.peerAt idx).addr = addr && path.key = k
  | _ => false

/-- A path under this key was received since the session before the current one ended. -/
def receivedInSession (addr : Ipv4Address) (k : RouteKey) : List Call → Bool
  | [] => false
  | c :: rest => c.stores addr k || !c.ends addr && receivedInSession addr k rest

/-! ### One session -/

/-- What holds of a session, of the receive times of the paths kept from it, of the routes it was
told, and of the keys it has received itself. -/
structure Tidy (s : Session) (held : RouteKey → Option ℕ)
    (told fresh : RouteKey → Bool) (clock : ℕ) : Prop where
  live : s.state = .openSent ∨ s.state = .openConfirm ∨ s.state = .established → s.live = true
  refresh : s.state ≠ .established → s.refresh = {}
  untold : s.state ≠ .established → ∀ k, told k = false
  unheard : s.state ≠ .established → ∀ k, fresh k = false
  /-- What an earlier session left is retained and older than the cutoff. -/
  old : ∀ k t, held k = some t → fresh k = false → s.restart.isStale k.family t = true
  /-- What the current session brought is not. -/
  new : ∀ k t, held k = some t → fresh k = true → ∀ c, s.restart.cutoff = some c → c ≤ t
  deadline : s.restart.stale.isEmpty = false → s.restart.deadline.isSome
  dated : s.state = .openConfirm ∨ s.state = .established → s.restart.stale.isEmpty = false →
    s.restart.cutoff.isSome
  past : ∀ c, s.restart.cutoff = some c → c ≤ clock

theorem Restart.isStale_iff {s : Restart} {family : AfiSafi} {t : ℕ} :
    s.isStale family t = true ↔ s.stale.contains family = true ∧ ∀ c,
      s.cutoff = some c → t < c := by
  cases hc : s.cutoff <;> simp [Restart.isStale, hc]

theorem Restart.not_isEmpty {s : Restart} {family : AfiSafi} (h : s.stale.contains family = true) :
    s.stale.isEmpty = false := by
  by_contra he
  rw [Bool.not_eq_false, Std.TreeSet.isEmpty_iff_forall_not_mem] at he
  exact he family h

namespace Tidy

variable {s s' : Session} {held held' : RouteKey → Option ℕ}
  {told told' fresh fresh' : RouteKey → Bool} {clock nowMs : ℕ}

theorem idle (addr : Ipv4Address) (clock : ℕ) :
    Tidy (.idle addr) (fun _ => none) (fun _ => false) (fun _ => false) clock := by
  constructor <;> simp [Session.idle]

theorem later (h : Tidy s held told fresh clock) {clock' : ℕ} (hle : clock ≤ clock') :
    Tidy s held told fresh clock' :=
  { h with past := fun c hc => (h.past c hc).trans hle }

/-- Fewer paths are no harm. -/
theorem mono (h : Tidy s held told fresh clock) (hheld : ∀ k, held' k = none ∨ held' k = held k) :
    Tidy s held' told fresh clock where
  live := h.live
  refresh := h.refresh
  untold := h.untold
  unheard := h.unheard
  old k t ht := by
    rcases hheld k with hk | hk
    · rw [hk] at ht
      cases ht
    · exact h.old k t (hk ▸ ht)
  new k t ht := by
    rcases hheld k with hk | hk
    · rw [hk] at ht
      cases ht
    · exact h.new k t (hk ▸ ht)
  deadline := h.deadline
  dated := h.dated
  past := h.past

/-- A session that moves without coming up or going down. -/
theorem moved (h : Tidy s held told fresh clock) (hrefresh : s'.refresh = s.refresh)
    (hrestart : s'.restart = s.restart) (hbefore : s.state ≠ .established)
    (hafter : s'.state ≠ .established)
    (hlive : s'.state = .openSent ∨ s'.state = .openConfirm → s'.live = true)
    (hdated : s'.state = .openConfirm → s.restart.stale.isEmpty = false → s.restart.cutoff.isSome) :
    Tidy s' held told fresh clock where
  live hs := by
    rcases hs with hs | hs | hs
    · exact hlive (.inl hs)
    · exact hlive (.inr hs)
    · exact absurd hs hafter
  refresh _ := hrefresh.trans (h.refresh hbefore)
  untold _ := h.untold hbefore
  unheard _ := h.unheard hbefore
  old := by rw [hrestart]; exact h.old
  new := by rw [hrestart]; exact h.new
  deadline := by rw [hrestart]; exact h.deadline
  dated hs := by
    rw [hrestart]
    rcases hs with hs | hs
    · exact hdated hs
    · exact absurd hs hafter
  past := by rw [hrestart]; exact h.past

theorem established (h : Tidy s held told fresh clock) (hs : s.state = .openConfirm)
    (hrestart : s'.restart = s.restart) (hs' : s'.state = .established) (hlive : s'.live = s.live) :
    Tidy s' held told fresh clock where
  live _ := by rw [hlive]; exact h.live (.inr (.inl hs))
  refresh hne := absurd hs' hne
  untold hne := absurd hs' hne
  unheard hne := absurd hs' hne
  old := by rw [hrestart]; exact h.old
  new := by rw [hrestart]; exact h.new
  deadline := by rw [hrestart]; exact h.deadline
  dated _ := by rw [hrestart]; exact h.dated (.inl hs)
  past := by rw [hrestart]; exact h.past

/-- Whatever a session that is up says or still has to say. -/
theorem speaking (h : Tidy s held told fresh clock) (hs : s.state = .established)
    (hs' : s'.state = .established) (hlive : s'.live = s.live) (hrestart : s'.restart = s.restart) :
    Tidy s' held told' fresh clock where
  live _ := by rw [hlive]; exact h.live (.inr (.inr hs))
  refresh hne := absurd hs' hne
  untold hne := absurd hs' hne
  unheard hne := absurd hs' hne
  old := by rw [hrestart]; exact h.old
  new := by rw [hrestart]; exact h.new
  deadline := by rw [hrestart]; exact h.deadline
  dated _ := by rw [hrestart]; exact h.dated (.inr hs)
  past := by rw [hrestart]; exact h.past

theorem stored (h : Tidy s held told fresh clock) (hs : s.state = .established) (k : RouteKey) :
    Tidy s (fun j => if k = j then some clock else held j) told (fun j => decide (k = j) || fresh j)
      clock where
  live := h.live
  refresh := h.refresh
  untold := h.untold
  unheard hne := absurd hs hne
  old j t ht hf := by
    simp only [Bool.or_eq_false_iff, decide_eq_false_iff_not] at hf
    rw [if_neg hf.1] at ht
    exact h.old j t ht hf.2
  new j t ht hf c hc := by
    by_cases hk : k = j
    · rw [if_pos hk] at ht
      cases ht
      exact h.past c hc
    · rw [if_neg hk] at ht
      exact h.new j t ht (by simpa [hk] using hf) c hc
  deadline := h.deadline
  dated := h.dated
  past := h.past

/-- A purge of retained families takes exactly what earlier sessions left in them. -/
theorem purge_iff (h : Tidy s held told fresh clock) {k : RouteKey} {t : ℕ} (hk : held k = some t)
    (hstale : s.restart.stale.contains k.family = true) :
    (s.restart.cutoff.all fun c => t < c) = true ↔ fresh k = false := by
  constructor
  · intro hall
    by_contra hf
    rw [Bool.not_eq_false] at hf
    have hstate : s.state = .established := by
      by_contra hne
      rw [h.unheard hne k] at hf
      cases hf
    obtain ⟨c, hc⟩ := Option.isSome_iff_exists.mp
      (h.dated (.inr hstate) (Restart.not_isEmpty hstale))
    have hle := h.new k t hk hf c hc
    have hlt : t < c := by simpa [hc] using hall
    omega
  · intro hf
    obtain ⟨-, hall⟩ := Restart.isStale_iff.mp (h.old k t hk hf)
    cases hc : s.restart.cutoff with
    | none => rfl
    | some c => simpa using hall c hc

/-- The retained families that a purge leaves, with the dates it leaves them. -/
theorem retired (h : Tidy s held told fresh clock) (families : AfiSafi → Bool)
    (hheld : ∀ k, held' k = (held k).filter fun t =>
      !(families k.family && s.restart.cutoff.all fun c => t < c))
    (hsame : s'.state = s.state ∧ s'.live = s.live ∧ s'.refresh = s.refresh)
    (hstale : ∀ f, s'.restart.stale.contains f = (s.restart.stale.contains f && !families f))
    (hdeadline : s'.restart.stale.isEmpty = false → s'.restart.deadline = s.restart.deadline)
    (hcutoff : s'.restart.stale.isEmpty = false → s'.restart.cutoff = s.restart.cutoff)
    (hnone : s'.restart.stale.isEmpty = true → s'.restart.cutoff = none) :
    Tidy s' held' told fresh clock := by
  obtain ⟨hstate, hlive, hrefresh⟩ := hsame
  have hkept : ∀ k t, held' k = some t → held k = some t ∧
      (families k.family = false ∨ (s.restart.cutoff.all fun c => t < c) = false) := by
    intro k t ht
    rw [hheld, Option.filter_eq_some_iff] at ht
    simpa using ht
  have hmore : s'.restart.stale.isEmpty = false → s.restart.stale.isEmpty = false := by
    intro he
    obtain ⟨f, hf⟩ := Std.TreeSet.isEmpty_eq_false_iff_exists_contains_eq_true.mp he
    rw [hstale, Bool.and_eq_true] at hf
    exact Restart.not_isEmpty hf.1
  have hcut : ∀ c, s'.restart.cutoff = some c → s.restart.cutoff = some c := by
    intro c hc
    cases he : s'.restart.stale.isEmpty with
    | true =>
      rw [hnone he] at hc
      cases hc
    | false => rwa [hcutoff he] at hc
  constructor
  · rw [hstate, hlive]
    exact h.live
  · rw [hstate, hrefresh]
    exact h.refresh
  · rw [hstate]
    exact h.untold
  · rw [hstate]
    exact h.unheard
  · intro k t ht hf
    obtain ⟨hk, hnot⟩ := hkept k t ht
    obtain ⟨hin, hall⟩ := Restart.isStale_iff.mp (h.old k t hk hf)
    have hnf : families k.family = false := by
      rcases hnot with hnot | hnot
      · exact hnot
      · rw [(h.purge_iff hk hin).mpr hf] at hnot
        cases hnot
    rw [Restart.isStale_iff, hstale, hin, hnf]
    exact ⟨rfl, fun c hc => hall c (hcut c hc)⟩
  · intro k t ht hf c hc
    exact h.new k t (hkept k t ht).1 hf c (hcut c hc)
  · intro he
    rw [hdeadline he]
    exact h.deadline (hmore he)
  · rw [hstate]
    intro hs he
    rw [hcutoff he]
    exact h.dated hs (hmore he)
  · exact fun c hc => h.past c (hcut c hc)

/-- The peer's OPEN: the families it kept are dated, what else was retained is gone. -/
theorem reconciled (h : Tidy s held told fresh nowMs) (hs : s.state = .openSent)
    {kept : Std.TreeSet AfiSafi}
    (hdated : ∀ k t, held k = some t → s.restart.stale.contains k.family = true →
      kept.contains k.family = true → t < nowMs)
    (hheld : ∀ k, held' k = (held k).filter fun t =>
      !((s.restart.stale.contains k.family && !kept.contains k.family) &&
        s.restart.cutoff.all fun c => t < c))
    (hsame : s'.state = s.state ∧ s'.live = s.live ∧ s'.refresh = s.refresh)
    (hstale : ∀ f, s'.restart.stale.contains f = (s.restart.stale.contains f && kept.contains f))
    (hdeadline : s'.restart.stale.isEmpty = false → s'.restart.deadline = s.restart.deadline)
    (hcutoff : s'.restart.cutoff = if s'.restart.stale.isEmpty then none else some nowMs) :
    Tidy s' held' told fresh nowMs := by
  obtain ⟨hstate, hlive, hrefresh⟩ := hsame
  have hdown : s.state ≠ .established := by simp [hs]
  have hnow : ∀ c, s'.restart.cutoff = some c → c = nowMs := by
    intro c hc
    rw [hcutoff] at hc
    split at hc
    · cases hc
    · exact (Option.some.inj hc).symm
  constructor
  · rw [hstate, hlive]
    exact h.live
  · rw [hstate, hrefresh]
    exact h.refresh
  · rw [hstate]
    exact h.untold
  · rw [hstate]
    exact h.unheard
  · intro k t ht hf
    rw [hheld, Option.filter_eq_some_iff] at ht
    obtain ⟨hk, hnot⟩ := ht
    obtain ⟨hin, hall⟩ := Restart.isStale_iff.mp (h.old k t hk hf)
    have hkept : kept.contains k.family = true := by
      rw [hin, (h.purge_iff hk hin).mpr hf] at hnot
      simpa using hnot
    rw [Restart.isStale_iff, hstale, hin, hkept]
    refine ⟨rfl, fun c hc => ?_⟩
    rw [hnow c hc]
    exact hdated k t hk hin hkept
  · intro k t _ hf
    rw [h.unheard hdown k] at hf
    cases hf
  · intro he
    rw [hdeadline he]
    obtain ⟨f, hf⟩ := Std.TreeSet.isEmpty_eq_false_iff_exists_contains_eq_true.mp he
    rw [hstale, Bool.and_eq_true] at hf
    exact h.deadline (Restart.not_isEmpty hf.1)
  · intro _ he
    simp [hcutoff, he]
  · intro c hc
    rw [hnow c hc]

/-- The end of a session, with some families retained. -/
theorem torn (hstate : s'.state = .idle) (hrefresh : s'.refresh = {})
    (hold : ∀ k t, held' k = some t → s'.restart.isStale k.family t = true)
    (hdeadline : s'.restart.stale.isEmpty = false → s'.restart.deadline.isSome)
    (hpast : ∀ c, s'.restart.cutoff = some c → c ≤ clock) :
    Tidy s' held' (fun _ => false) (fun _ => false) clock := by
  constructor
  · simp [hstate]
  · exact fun _ => hrefresh
  · exact fun _ _ => rfl
  · exact fun _ _ => rfl
  · exact fun k t ht _ => hold k t ht
  · simp
  · exact hdeadline
  · simp [hstate]
  · exact hpast

/-- The peer's connection is adopted while the session is not up, or has nothing to leave behind. -/
theorem adopted (h : Tidy s held told fresh clock) (hrefresh : s'.refresh = s.refresh)
    (hrestart : s'.restart = s.restart) (hs' : s'.state = .active)
    (hok : s.state ≠ .established ∨
      s.refresh = {} ∧ (∀ k, held k = none) ∧ ∀ k, told k = false) :
    Tidy s' held told (fun _ => false) clock := by
  rcases hok with hdown | ⟨hno, hheld, htold⟩
  · have hfresh : fresh = fun _ => false := funext (h.unheard hdown)
    have hmoved : Tidy s' held told fresh clock :=
      h.moved hrefresh hrestart hdown (by simp [hs']) (by simp [hs']) (by simp [hs'])
    rwa [hfresh] at hmoved
  · constructor
    · simp [hs']
    · exact fun _ => hrefresh.trans hno
    · exact fun _ => htold
    · exact fun _ _ => rfl
    · intro k t ht
      rw [hheld k] at ht
      cases ht
    · simp
    · rw [hrestart]
      exact h.deadline
    · simp [hs']
    · rw [hrestart]
      exact h.past

end Tidy

/-! ### All sessions -/

/-- What the speaker may do at the moments where it does not clean up behind itself. -/
def Call.Orderly : Call → Prop
  /- A transport that fails during recovery has brought nothing yet in the families still
    retained. -/
  | .teardown before idx why => why = .transport → (before.peerAt idx).gracefulRestartActive →
      ∀ k t, before.held (before.peerAt idx).addr k = some t →
        (before.peerAt idx).gracefulRestartStale.contains k.family = true →
        ∀ c, (before.peerAt idx).gracefulRestartRefreshStartedMs = some c → t < c
  /- The OPEN of a restarted peer comes later than the paths kept for it. -/
  | .reconcile before idx nowMs kept => (before.peerAt idx).gracefulRestartActive →
      ∀ k t, before.held (before.peerAt idx).addr k = some t →
        (before.peerAt idx).gracefulRestartStale.contains k.family = true →
        kept.contains k.family = true → t < nowMs
  /- A session that is replaced is not up yet, or has nothing to leave behind. -/
  | .adopt before idx => (before.peerAt idx).state ≠ .established ∨
      (before.peerAt idx).refresh = {} ∧ (∀ k, before.held (before.peerAt idx).addr k = none) ∧
        ∀ k, before.told (before.peerAt idx).addr k = false
  | _ => True

/-- Every session is tidy. -/
def AllTidy (r : BgpRouter) (log : List Call) (t : ℕ) : Prop :=
  ∀ a, Tidy (r.sessionOf a) (r.held a) (r.told a) (fun k => receivedInSession a k log) t

section steps

variable {r r' : BgpRouter} {log : List Call} {t idx : ℕ} {f : BgpPeer → BgpPeer}
  {addr a : Ipv4Address}

/-- Only what belongs to one address has changed. -/
theorem AllTidy.at (h : AllTidy r log t) (cs : List Call) (addr : Ipv4Address)
    (hother : ∀ a, addr ≠ a → r'.sessionOf a = r.sessionOf a ∧ r'.held a = r.held a ∧
      r'.told a = r.told a ∧ ∀ k, receivedInSession a k (cs ++ log) = receivedInSession a k log)
    (hself : Tidy (r'.sessionOf addr) (r'.held addr) (r'.told addr)
      (fun k => receivedInSession addr k (cs ++ log)) t) : AllTidy r' (cs ++ log) t := by
  intro a
  by_cases ha : addr = a
  · exact ha ▸ hself
  · obtain ⟨hs, hh, ht, hf⟩ := hother a ha
    rw [hs, hh, ht, funext hf]
    exact h a

theorem AllTidy.peer (h : AllTidy r log t) (hn : r.addrs.Nodup) (hidx : idx < r.peers.length) :
    Tidy (r.peerAt idx).session (r.held (r.peerAt idx).addr) (r.told (r.peerAt idx).addr)
      (fun k => receivedInSession (r.peerAt idx).addr k log) t := by
  rw [← BgpRouter.sessionOf_peerAt hn hidx]
  exact h _

theorem AllTidy.updatePeer (h : AllTidy r log t) (hn : r.addrs.Nodup) (hidx : idx < r.peers.length)
    (haddr : (f (r.peerAt idx)).addr = (r.peerAt idx).addr)
    (hself : Tidy (f (r.peerAt idx)).session (r.held (r.peerAt idx).addr)
      (r.told (r.peerAt idx).addr) (fun k => receivedInSession (r.peerAt idx).addr k log) t) :
    AllTidy (r.updatePeer idx f) log t := by
  refine AllTidy.at h [] (r.peerAt idx).addr ?_ ?_
  · intro a ha
    rw [BgpRouter.sessionOf_updatePeer hn hidx haddr, if_neg ha]
    exact ⟨rfl, rfl, rfl, fun _ => rfl⟩
  · rw [BgpRouter.sessionOf_updatePeer hn hidx haddr, if_pos rfl]
    exact hself

/-- Calls that neither end a session nor store a path. -/
theorem AllTidy.logged (h : AllTidy r log t) {c : Call} (hends : ∀ a, c.ends a = false)
    (hstores : ∀ a k, c.stores a k = false) : AllTidy r (c :: log) t := by
  intro a
  have hfresh : (fun k => receivedInSession a k (c :: log)) = fun k =>
    receivedInSession a k log := by
    funext k
    simp [receivedInSession, hends a, hstores a k]
  rw [hfresh]
  exact h a

theorem AllTidy.sent (h : AllTidy r log t) {before : BgpRouter} {i : ℕ} {pdu : BgpPdu}
    {written : Bool} : AllTidy r (.send before i pdu written :: log) t :=
  h.logged (fun _ => rfl) fun _ _ => rfl

theorem AllTidy.quiet (h : AllTidy r log t) (hq : Quiet r r') : AllTidy r' log t := by
  intro a
  have hheld : r'.held a = r.held a := by
    funext k
    cases k <;> simp [BgpRouter.held, hq.ipv4, hq.ipv6, hq.evpn]
  have htold : r'.told a = r.told a := by
    funext k
    cases k <;> simp [BgpRouter.told, hq.ipv4, hq.ipv6, hq.evpn]
  rw [BgpRouter.sessionOf_of_sessions hq.sessions, hheld, htold]
  exact h a

/-- What an established peer is told. -/
theorem AllTidy.speaking (h : AllTidy r log t) (hn : r.addrs.Nodup) (hidx : idx < r.peers.length)
    (hstate : (r.peerAt idx).state = .established) (hpeers : r'.peers = r.peers)
    (hheld : ∀ a, r'.held a = r.held a)
    (htold : ∀ a, (r.peerAt idx).addr ≠ a → r'.told a = r.told a) : AllTidy r' log t := by
  have hsessions : ∀ a, r'.sessionOf a = r.sessionOf a := fun a =>
    BgpRouter.sessionOf_of_sessions (by rw [hpeers])
  refine h.at [] (r.peerAt idx).addr ?_ ?_
  · exact fun a ha => ⟨hsessions a, hheld a, htold a ha, fun _ => rfl⟩
  · rw [hsessions, hheld, BgpRouter.sessionOf_peerAt hn hidx]
    exact (h.peer hn hidx).speaking hstate hstate rfl rfl

theorem held_out (h4 : r'.ipv4.adjRibIn = r.ipv4.adjRibIn) (h6 : r'.ipv6.adjRibIn = r.ipv6.adjRibIn)
    (he : r'.evpn.adjRibIn = r.evpn.adjRibIn) : r'.held a = r.held a := by
  funext k
  cases k <;> simp [BgpRouter.held, h4, h6, he]

theorem told_ipv4Out {table : AdjRibOut} (h : ∀ a, addr ≠ a → ∀ k, table.get? a k =
    r.ipv4.adjRibOut.get? a k) (ha : addr ≠ a) :
    ({ r with ipv4 := { r.ipv4 with adjRibOut := table } } : BgpRouter).told a = r.told a := by
  funext k
  cases k with
  | ipv4 k => simp [BgpRouter.told, h a ha k]
  | ipv6 k => rfl
  | evpn k => rfl

theorem told_ipv6Out {table : Ipv6AdjRibOut} (h : ∀ a, addr ≠ a → ∀ k, table.get? a k =
    r.ipv6.adjRibOut.get? a k) (ha : addr ≠ a) :
    ({ r with ipv6 := { r.ipv6 with adjRibOut := table } } : BgpRouter).told a = r.told a := by
  funext k
  cases k with
  | ipv4 k => rfl
  | ipv6 k => simp [BgpRouter.told, h a ha k]
  | evpn k => rfl

theorem told_evpnOut {table : EvpnAdjRibOut} (h : ∀ a, addr ≠ a → ∀ k, table.get? a k =
    r.evpn.adjRibOut.get? a k) (ha : addr ≠ a) :
    ({ r with evpn := { r.evpn with adjRibOut := table } } : BgpRouter).told a = r.told a := by
  funext k
  cases k with
  | ipv4 k => rfl
  | ipv6 k => rfl
  | evpn k => simp [BgpRouter.told, h a ha k]

theorem AllTidy.announcedIpv4 {route : AdvertisedRoute}
    {members : List (Ipv4Prefix × AdvertisedRoute)} (h : AllTidy r log t) (hn : r.addrs.Nodup)
    (ha : ipv4Plane.Announces r idx route members) :
    AllTidy (ipv4Plane.afterAnnounce r idx route members)
      (ipv4Plane.announceCall r idx route members :: log) t := by
  refine AllTidy.sent ?_
  refine h.speaking hn ha.inRange ha.established rfl (fun _ => held_out rfl rfl rfl) ?_
  exact fun a => told_ipv4Out fun a ha k => by simp [ipv4Plane, Nested.get?_insertAll, ha]

theorem AllTidy.announcedIpv6 {route : Ipv6AdvertisedRoute}
    {members : List (Ipv6Prefix × Ipv6AdvertisedRoute)} (h : AllTidy r log t) (hn : r.addrs.Nodup)
    (ha : ipv6Plane.Announces r idx route members) :
    AllTidy (ipv6Plane.afterAnnounce r idx route members)
      (ipv6Plane.announceCall r idx route members :: log) t := by
  refine AllTidy.sent ?_
  refine h.speaking hn ha.inRange ha.established rfl (fun _ => held_out rfl rfl rfl) ?_
  exact fun a => told_ipv6Out fun a ha k => by simp [ipv6Plane, Nested.get?_insertAll, ha]

theorem AllTidy.announcedEvpn {route : EvpnAdvertisedRoute}
    {members : List (EvpnRouteKey × EvpnAdvertisedRoute)} (h : AllTidy r log t) (hn : r.addrs.Nodup)
    (ha : evpnPlane.Announces r idx route members) :
    AllTidy (evpnPlane.afterAnnounce r idx route members)
      (evpnPlane.announceCall r idx route members :: log) t := by
  refine AllTidy.sent ?_
  refine h.speaking hn ha.inRange ha.established rfl (fun _ => held_out rfl rfl rfl) ?_
  exact fun a => told_evpnOut fun a ha k => by simp [evpnPlane, Nested.get?_insertAll, ha]

/-- What is left of a refresh is the business of a session that is up. -/
theorem AllTidy.setPhase {family : AfiSafi} {phase : EnhancedRefreshPhase} (h : AllTidy r log t)
    (hn : r.addrs.Nodup) (hidx : idx < r.peers.length)
    (hstate : (r.peerAt idx).state = .established) : AllTidy (r.setPhase idx family phase) log t :=
  h.updatePeer hn hidx rfl ((h.peer hn hidx).speaking hstate hstate rfl rfl)

theorem AllTidy.clearPhase {family : AfiSafi} (h : AllTidy r log t) (hn : r.addrs.Nodup)
    (hidx : idx < r.peers.length) (hstate : (r.peerAt idx).state = .established) :
    AllTidy (r.clearPhase idx family) log t :=
  h.updatePeer hn hidx rfl ((h.peer hn hidx).speaking hstate hstate rfl rfl)

/-- A replay: what holds along its messages holds when it is marked as finished. -/
theorem AllTidy.replayed {κ π ρ ο : Type} [Ord κ] {plane : Plane κ π ρ ο} {cs : List Call}
    {family : AfiSafi} (h : AllTidy r log t) (hn : r.addrs.Nodup) (hr : plane.Replays r idx cs r')
    (hpeers : ∀ r rib, (plane.setRib r rib).peers = r.peers)
    (hannounced : ∀ {r log route members}, AllTidy r log t → r.addrs.Nodup →
      plane.Announces r idx route members → AllTidy (plane.afterAnnounce r idx route members)
        (plane.announceCall r idx route members :: log) t) :
    AllTidy (r'.setPhase idx family .needEorr) (cs ++ log) t := by
  obtain ⟨ks, htells, -⟩ := hr.tells
  have hp := htells.peers hpeers
  have htidy : AllTidy r' (cs ++ log) t := by
    clear hr hp
    induction htells generalizing log with
    | done => exact h
    | @tell r r' route members cs ks ha hrest ih =>
      rw [List.append_assoc]
      refine ih (hannounced h hn ha) ?_
      rwa [Plane.afterAnnounce, Plane.record, BgpRouter.addrs, hpeers]
  refine htidy.setPhase ?_ ?_ ?_
  · rwa [BgpRouter.addrs, hp]
  · rw [hp]
    exact hr.inRange
  · rw [BgpRouter.peerAt, hp]
    exact hr.established

theorem AllTidy.talk {cs : List Call} (h : AllTidy r log t) (hn : r.addrs.Nodup)
    (htalk : Talk r cs r') : AllTidy r' (cs ++ log) t := by
  cases htalk with
  | quiet hq => exact h.quiet hq
  | sent => exact h.sent
  | refreshed hidx href =>
    exact h.updatePeer hn hidx href.addr ((h.peer hn hidx).speaking href.established
      (href.state.trans href.established) href.live href.restart)
  | began hidx hstate =>
    refine AllTidy.sent ?_
    exact h.setPhase hn hidx hstate
  | ended hidx hstate =>
    refine AllTidy.sent ?_
    exact h.clearPhase hn hidx hstate
  | marked => exact h.sent
  | replayedIpv4 hr => exact h.replayed hn hr (fun _ _ => rfl) AllTidy.announcedIpv4
  | replayedIpv6 hr => exact h.replayed hn hr (fun _ _ => rfl) AllTidy.announcedIpv6
  | replayedEvpn hr => exact h.replayed hn hr (fun _ _ => rfl) AllTidy.announcedEvpn
  | announcedIpv4 ha => exact h.announcedIpv4 hn ha
  | announcedIpv6 ha => exact h.announcedIpv6 hn ha
  | announcedEvpn ha => exact h.announcedEvpn hn ha
  | withdrewIpv4 hw =>
    refine AllTidy.sent ?_
    refine h.speaking hn hw.inRange hw.established rfl (fun _ => held_out rfl rfl rfl) ?_
    exact fun a => told_ipv4Out fun a ha k => by simp [ipv4Plane, Nested.get?_eraseAll, ha]
  | withdrewIpv6 hw =>
    refine AllTidy.sent ?_
    refine h.speaking hn hw.inRange hw.established rfl (fun _ => held_out rfl rfl rfl) ?_
    exact fun a => told_ipv6Out fun a ha k => by simp [ipv6Plane, Nested.get?_eraseAll, ha]
  | withdrewEvpn hw =>
    refine AllTidy.sent ?_
    refine h.speaking hn hw.inRange hw.established rfl (fun _ => held_out rfl rfl rfl) ?_
    exact fun a => told_evpnOut fun a ha k => by simp [evpnPlane, Nested.get?_eraseAll, ha]

/-! ### Purges and the end of a session, by address -/

theorem Retired.sessionOf {families : AfiSafi → Bool} {stale : Std.TreeSet AfiSafi}
    {deadline cutoff : Option ℕ} (h : Retired r idx families stale deadline cutoff r')
    (hn : r.addrs.Nodup) (hidx : idx < r.peers.length) (a : Ipv4Address) : r'.sessionOf a =
      if (r.peerAt idx).addr = a then
        { (r.peerAt idx).session with restart := ⟨stale, deadline, cutoff⟩ }
      else r.sessionOf a := by
  obtain ⟨r₁, hpurged, rfl⟩ := h
  have hs : r₁.sessionOf a = r.sessionOf a :=
    BgpRouter.sessionOf_of_sessions (by rw [hpurged.peers])
  rw [BgpRouter.sessionOf_updatePeer (by rwa [hpurged.addrs]) (by rwa [hpurged.peers]) rfl,
    hpurged.peerAt, hs]
  rfl

theorem Retired.held {families : AfiSafi → Bool} {stale : Std.TreeSet AfiSafi}
    {deadline cutoff : Option ℕ} (h : Retired r idx families stale deadline cutoff r')
    (a : Ipv4Address) (k : RouteKey) : r'.held a k = (r.held a k).filter fun t =>
      !(families k.family && decide ((r.peerAt idx).addr = a) &&
        (r.peerAt idx).gracefulRestartRefreshStartedMs.all fun c => t < c) := by
  obtain ⟨r₁, hpurged, rfl⟩ := h
  exact hpurged.held

theorem Retired.told {families : AfiSafi → Bool} {stale : Std.TreeSet AfiSafi}
    {deadline cutoff : Option ℕ} (h : Retired r idx families stale deadline cutoff r')
    (a : Ipv4Address) : r'.told a = r.told a := by
  obtain ⟨r₁, hpurged, rfl⟩ := h
  exact funext fun k => hpurged.told

theorem option_filter_true {α : Type} (o : Option α) : (o.filter fun _ => true) = o := by
  cases o <;> rfl

/-- A purge is the business of one address. -/
theorem AllTidy.retired {families : AfiSafi → Bool} {stale : Std.TreeSet AfiSafi}
    {deadline cutoff : Option ℕ} (h : AllTidy r log t) (hn : r.addrs.Nodup)
    (hidx : idx < r.peers.length) (hr : Retired r idx families stale deadline cutoff r')
    (hself : ∀ held', (∀ k, held' k = (r.held (r.peerAt idx).addr k).filter fun t =>
        !(families k.family && (r.peerAt idx).gracefulRestartRefreshStartedMs.all fun c => t < c)) →
      Tidy { (r.peerAt idx).session with restart := ⟨stale, deadline, cutoff⟩ } held'
        (r.told (r.peerAt idx).addr) (fun k => receivedInSession (r.peerAt idx).addr k log) t) :
    AllTidy r' log t := by
  refine h.at [] (r.peerAt idx).addr ?_ ?_
  · intro a ha
    refine ⟨by rw [hr.sessionOf hn hidx, if_neg ha], ?_, hr.told a, fun _ => rfl⟩
    funext k
    rw [hr.held]
    simp only [ha, decide_false, Bool.and_false, Bool.false_and, Bool.not_false]
    exact option_filter_true _
  · rw [hr.sessionOf hn hidx, if_pos rfl, hr.told]
    exact hself _ fun k => by simp [hr.held]

theorem AllTidy.completed {family : AfiSafi} (h : AllTidy r log t) (hn : r.addrs.Nodup)
    (hidx : idx < r.peers.length) : AllTidy (r.completeGracefulRestartFamily idx family) log t := by
  by_cases hc : (r.peerAt idx).gracefulRestartStale.contains family
  · refine h.retired hn hidx (BgpRouter.retired_complete hidx hc) fun held' hheld => ?_
    refine (h.peer hn hidx).retired (fun f => f = family) hheld ⟨rfl, rfl, rfl⟩ ?_ ?_ ?_ ?_
    · intro f
      simp only [BgpPeer.session, BgpPeer.restart]
      rw [Bool.eq_iff_iff]
      by_cases hf : family = f
      · simp [hf]
      · simp [hf, Ne.symm hf]
    · intro he
      simp only at he ⊢
      simp [he, BgpPeer.session, BgpPeer.restart]
    · intro he
      simp only at he ⊢
      simp [he, BgpPeer.session, BgpPeer.restart]
    · intro he
      simp only at he ⊢
      simp [he]
  · simpa [BgpRouter.completeGracefulRestartFamily, hc] using h

theorem AllTidy.flushed (h : AllTidy r log t) (hn : r.addrs.Nodup) (hidx : idx < r.peers.length) :
    AllTidy (r.flushGracefulRestart idx) log t := by
  refine h.retired hn hidx BgpRouter.retired_flush fun held' hheld => ?_
  refine (h.peer hn hidx).retired (fun f => (r.peerAt idx).gracefulRestartStale.contains f) hheld
    ⟨rfl, rfl, rfl⟩ ?_ ?_ ?_ ?_
  · intro f
    simp [BgpPeer.session, BgpPeer.restart]
  · simp
  · simp
  · simp

theorem AllTidy.reconciled {negotiated : NegotiatedCapabilities} {peerCaps : BgpCapabilitySet}
    (h : AllTidy r log t) (hn : r.addrs.Nodup) (hidx : idx < r.peers.length)
    (hstate : (r.peerAt idx).state = .openSent)
    (hok : (Call.reconcile r idx t (BgpRouter.familiesKept negotiated peerCaps)).Orderly) :
    AllTidy (r.reconcileGracefulRestartOpen idx t negotiated peerCaps) log t := by
  by_cases hactive : (r.peerAt idx).gracefulRestartActive
  · obtain ⟨left, hleft, hr⟩ : BgpRouter.Reconciled r idx t _ _ :=
      BgpRouter.reconciled_reconcile negotiated peerCaps hidx hactive
    refine h.retired hn hidx hr fun held' hheld => ?_
    refine (h.peer hn hidx).reconciled hstate (hok hactive) hheld ⟨rfl, rfl, rfl⟩ hleft ?_ rfl
    intro he
    simp only at he ⊢
    simp [he, BgpPeer.session, BgpPeer.restart]
  · simpa [BgpRouter.reconcileGracefulRestartOpen, hactive] using h

theorem sessionOf_sessionDown {why : Teardown} (hn : r.addrs.Nodup) (hidx : idx < r.peers.length)
    (a : Ipv4Address) : (r.sessionDown idx t why).sessionOf a =
      if (r.peerAt idx).addr = a then ⟨(r.peerAt idx).addr, .idle, false, {},
        ⟨(r.retention idx t why).1, (r.retention idx t why).2.1, (r.retention idx t why).2.2⟩⟩
      else r.sessionOf a :=
  BgpRouter.sessionOf_updatePeer (r := r) hn hidx rfl

theorem get?_downRib {κ π ρ ο : Type} [Ord κ] [DecidableEq κ] [Std.TransOrd κ] [Std.LawfulEqOrd κ]
    [RoutePath π κ] {rib : Rib κ π ρ ο} {keep : Bool} {k : κ} :
    (BgpRouter.downRib rib addr keep).adjRibIn.get? a k =
      if addr = a ∧ keep = false then none else rib.adjRibIn.get? a k := by
  cases keep with
  | false => simp [BgpRouter.downRib, Rib.clearOut]
  | true => simp [BgpRouter.downRib, Rib.clearOut]

theorem held_sessionDown {why : Teardown} (a : Ipv4Address) (k : RouteKey) :
    (r.sessionDown idx t why).held a k =
      if (r.peerAt idx).addr = a ∧ (r.retention idx t why).1.contains k.family = false then none
      else r.held a k := by
  by_cases h : (r.peerAt idx).addr = a ∧ (r.retention idx t why).1.contains k.family = false
  · rw [if_pos h]
    cases k with
    | ipv4 k => exact congrArg (Option.map _) (get?_downRib.trans (if_pos h))
    | ipv6 k => exact congrArg (Option.map _) (get?_downRib.trans (if_pos h))
    | evpn k => exact congrArg (Option.map _) (get?_downRib.trans (if_pos h))
  · rw [if_neg h]
    cases k with
    | ipv4 k => exact congrArg (Option.map _) (get?_downRib.trans (if_neg h))
    | ipv6 k => exact congrArg (Option.map _) (get?_downRib.trans (if_neg h))
    | evpn k => exact congrArg (Option.map _) (get?_downRib.trans (if_neg h))

theorem told_sessionDown {why : Teardown} (a : Ipv4Address) (k : RouteKey) :
    (r.sessionDown idx t why).told a k =
      if (r.peerAt idx).addr = a then false else r.told a k := by
  have hrib : ∀ {κ π ρ ο : Type} [Ord κ] [DecidableEq κ] [Std.TransOrd κ] [Std.LawfulEqOrd κ]
      [RoutePath π κ] (rib : Rib κ π ρ ο) (keep : Bool) (k : κ),
      (BgpRouter.downRib rib (r.peerAt idx).addr keep).adjRibOut.get? a k =
        if (r.peerAt idx).addr = a then none else rib.adjRibOut.get? a k := by
    intro κ π ρ ο _ _ _ _ _ rib keep k
    cases keep <;> simp [BgpRouter.downRib, Rib.clearOut, Rib.clearIn]
  cases k with
  | ipv4 k =>
    simp only [BgpRouter.sessionDown, BgpRouter.told, hrib]
    split <;> simp_all
  | ipv6 k =>
    simp only [BgpRouter.sessionDown, BgpRouter.told, hrib]
    split <;> simp_all
  | evpn k =>
    simp only [BgpRouter.sessionDown, BgpRouter.told, hrib]
    split <;> simp_all

/-- A restart that is going on is kept as it is; a new one has no cutoff yet. -/
theorem retention_cases (r : BgpRouter) (idx t : ℕ) (why : Teardown) :
    (why = .transport ∧ (r.peerAt idx).gracefulRestartActive = true ∧
      r.retention idx t why = ((r.peerAt idx).gracefulRestartStale,
        (r.peerAt idx).gracefulRestartDeadline, (r.peerAt idx).gracefulRestartRefreshStartedMs)) ∨
    ((r.retention idx t why).2.2 = none ∧
      ((r.retention idx t why).1.isEmpty = false → (r.retention idx t why).2.1.isSome)) := by
  unfold BgpRouter.retention
  simp only
  split
  · rename_i h
    exact .inl ⟨h.1, h.2, rfl⟩
  · right
    split
    · split
      · split
        · refine ⟨rfl, fun he => ?_⟩
          dsimp only at he ⊢
          rw [he]
          rfl
        · exact ⟨rfl, by simp⟩
      · exact ⟨rfl, by simp⟩
    · exact ⟨rfl, by simp⟩

/-- What a transport failure retains is older than the cutoff it keeps, if it keeps one. -/
theorem AllTidy.torn {why : Teardown} (h : AllTidy r log t) (hn : r.addrs.Nodup)
    (hidx : idx < r.peers.length) (hok : (Call.teardown r idx why).Orderly) :
    AllTidy (r.sessionDown idx t why) (.teardown r idx why :: log) t := by
  refine h.at [.teardown r idx why] (r.peerAt idx).addr ?_ ?_
  · intro a ha
    refine ⟨by rw [sessionOf_sessionDown hn hidx, if_neg ha], ?_, ?_, ?_⟩
    · funext k
      rw [held_sessionDown, if_neg (by simp [ha])]
    · funext k
      rw [told_sessionDown, if_neg ha]
    · intro k
      simp [receivedInSession, Call.stores, Call.ends, ha]
  · have htold : (r.sessionDown idx t why).told (r.peerAt idx).addr = fun _ => false := by
      funext k
      rw [told_sessionDown, if_pos rfl]
    have hfresh : (fun k => receivedInSession (r.peerAt idx).addr k
        ([.teardown r idx why] ++ log)) = fun _ => false := by
      funext k
      simp [receivedInSession, Call.stores, Call.ends]
    rw [sessionOf_sessionDown hn hidx, if_pos rfl, htold, hfresh]
    have hpeer := h.peer hn hidx
    have hkept : ∀ k t', (r.sessionDown idx t why).held (r.peerAt idx).addr k = some t' →
        r.held (r.peerAt idx).addr k = some t' ∧
          (r.retention idx t why).1.contains k.family = true := by
      intro k t' ht
      rw [held_sessionDown] at ht
      split at ht
      · cases ht
      · rename_i hc
        exact ⟨ht, by simpa using hc⟩
    rcases retention_cases r idx t why with ⟨htransport, hactive, hret⟩ | ⟨hnone, hdeadline⟩
    · rw [hret] at hkept ⊢
      refine .torn rfl rfl ?_ hpeer.deadline hpeer.past
      intro k t' ht
      obtain ⟨hheld, hin⟩ := hkept k t' ht
      exact Restart.isStale_iff.mpr ⟨hin, hok htransport hactive k t' hheld hin⟩
    · refine .torn rfl rfl ?_ hdeadline (by simp [hnone])
      intro k t' ht
      exact Restart.isStale_iff.mpr ⟨(hkept k t' ht).2, by simp [hnone]⟩

/-! ### Received and withdrawn paths, by address -/

/-- A path goes in at the time of the poll. -/
theorem AllTidy.stored {path : AnyPath} (h : AllTidy r log t) (hn : r.addrs.Nodup)
    (hidx : idx < r.peers.length) (hstate : (r.peerAt idx).state = .established)
    (hpeers : r'.peers = r.peers) (htold : ∀ a, r'.told a = r.told a)
    (hheld : ∀ a k, r'.held a k =
      if (r.peerAt idx).addr = a ∧ path.key = k then some t else r.held a k) :
    AllTidy r' (.store r idx path :: log) t := by
  have hsessions : ∀ a, r'.sessionOf a = r.sessionOf a := fun a =>
    BgpRouter.sessionOf_of_sessions (by rw [hpeers])
  refine h.at [.store r idx path] (r.peerAt idx).addr ?_ ?_
  · intro a ha
    refine ⟨hsessions a, ?_, htold a, ?_⟩
    · funext k
      rw [hheld, if_neg (by simp [ha])]
    · intro k
      simp [receivedInSession, Call.stores, Call.ends, ha]
  · have hstored := (h.peer hn hidx).stored hstate path.key
    have hfresh : (fun k => receivedInSession (r.peerAt idx).addr k ([.store r idx path] ++ log)) =
        fun k => decide (path.key = k) || receivedInSession (r.peerAt idx).addr k log := by
      funext k
      simp [receivedInSession, Call.stores, Call.ends]
    have heq : r'.held (r.peerAt idx).addr =
        fun k => if path.key = k then some t else r.held (r.peerAt idx).addr k := by
      funext k
      rw [hheld]
      simp
    rw [hsessions, BgpRouter.sessionOf_peerAt hn hidx, htold, hfresh, heq]
    exact hstored

theorem AllTidy.fewer (h : AllTidy r log t) (hsessions : ∀ a, r'.sessionOf a = r.sessionOf a)
    (htold : ∀ a, r'.told a = r.told a)
    (hheld : ∀ a k, r'.held a k = none ∨ r'.held a k = r.held a k) : AllTidy r' log t := by
  intro a
  rw [hsessions, htold]
  exact (h a).mono (hheld a)

theorem held_withdrawAll {κ π ρ ο : Type} [Ord κ] [DecidableEq κ] [Std.TransOrd κ]
    [Std.LawfulEqOrd κ] [RoutePath π κ] {rib : Rib κ π ρ ο} {ks : List κ} {k : κ} {time : π → ℕ} :
    ((rib.withdrawAll addr ks).adjRibIn.get? a k).map time = none ∨
      ((rib.withdrawAll addr ks).adjRibIn.get? a k).map time =
        (rib.adjRibIn.get? a k).map time := by
  rw [Rib.get?_withdrawAll]
  split
  · exact .inl rfl
  · exact .inr rfl

/-- A received path dates its own key. -/
theorem held_receive {κ π ρ ο : Type} [Ord κ] [DecidableEq κ] [Std.TransOrd κ] [Std.LawfulEqOrd κ]
    [RoutePath π κ] {rib : Rib κ π ρ ο} {path : π} {k : κ} {time : π → ℕ} {mk : κ → RouteKey}
    (hmk : Function.Injective mk) : ((rib.receive addr path).adjRibIn.get? a k).map time =
      if addr = a ∧ mk (RoutePath.key path) = mk k then some (time path)
      else (rib.adjRibIn.get? a k).map time := by
  rw [Rib.get?_receive]
  by_cases h : addr = a ∧ RoutePath.key path = k
  · rw [if_pos h, if_pos ⟨h.1, congrArg mk h.2⟩]
    rfl
  · rw [if_neg h, if_neg fun hk => h ⟨hk.1, hmk hk.2⟩]

theorem AllTidy.step {cs : List Call} (h : AllTidy r log t) (hn : r.addrs.Nodup)
    (hs : Step t r cs r') (hok : ∀ c ∈ cs, c.Orderly) : AllTidy r' (cs ++ log) t := by
  cases hs with
  | talk htalk => exact h.talk hn htalk
  | moved hidx hm =>
    refine h.updatePeer hn hidx hm.addr
      ((h.peer hn hidx).moved hm.refresh hm.restart hm.before ?_ ?_ ?_)
    · rcases hm.state with hs | hs | hs <;> simp [BgpPeer.session, hs]
    · rcases hm.state with hs | hs | hs <;> simp [BgpPeer.session, hs]
    · rcases hm.state with hs | hs | hs <;> simp [BgpPeer.session, hs]
  | reconciled hidx hstate =>
    exact (h.reconciled hn hidx hstate (hok _ List.mem_cons_self)).logged
      (fun _ => rfl) fun _ _ => rfl
  | @confirmed idx hidx hstate hcutoff =>
    have hpeer := h.peer hn hidx
    refine h.updatePeer hn hidx rfl (hpeer.moved rfl rfl ?_ ?_ ?_ ?_)
    · simp [BgpPeer.session, hstate]
    · simp [BgpPeer.session]
    · intro _
      exact hpeer.live (.inl hstate)
    · intro _ he
      have hdeadline := hpeer.deadline he
      apply hcutoff
      simp only [BgpPeer.session, BgpPeer.restart] at he hdeadline
      simp [BgpPeer.gracefulRestartActive, he, hdeadline]
  | @established idx hidx hstate =>
    have hup : AllTidy (r.updatePeer idx fun p => { p with state := .established }) log t :=
      h.updatePeer hn hidx rfl ((h.peer hn hidx).established hstate rfl rfl rfl)
    have hflagged : AllTidy (r.sessionUp idx) log t := by
      intro a
      have hheld : (r.sessionUp idx).held a = r.held a := by
        funext k
        cases k <;> rfl
      have htold : (r.sessionUp idx).told a = r.told a := by
        funext k
        cases k <;> rfl
      rw [hheld, htold]
      exact hup a
    exact hflagged.logged (fun _ => rfl) fun _ _ => rfl
  | torn hidx => exact h.torn hn hidx (hok _ List.mem_cons_self)
  | @adopted idx f hidx ha =>
    have hcall := hok _ List.mem_cons_self
    refine h.at [.adopt r idx] (r.peerAt idx).addr ?_ ?_
    · intro a hne
      rw [BgpRouter.sessionOf_updatePeer hn hidx ha.addr, if_neg hne]
      refine ⟨rfl, rfl, rfl, fun k => ?_⟩
      simp [receivedInSession, Call.stores, Call.ends, hne]
    · rw [BgpRouter.sessionOf_updatePeer hn hidx ha.addr, if_pos rfl]
      have hfresh : (fun k => receivedInSession (r.peerAt idx).addr k ([.adopt r idx] ++ log)) =
          fun _ => false := by
        funext k
        simp [receivedInSession, Call.stores, Call.ends]
      rw [hfresh]
      exact (h.peer hn hidx).adopted ha.refresh ha.restart ha.state hcall
  | storedIpv4 hidx hstate htime =>
    refine h.stored hn hidx hstate rfl (fun a => funext fun k => by cases k <;> rfl) fun a k => ?_
    cases k with
    | ipv4 k =>
      rw [← htime]
      exact held_receive fun _ _ => RouteKey.ipv4.inj
    | ipv6 k => simp [BgpRouter.held, AnyPath.key]
    | evpn k => simp [BgpRouter.held, AnyPath.key]
  | storedIpv6 hidx hstate htime =>
    refine h.stored hn hidx hstate rfl (fun a => funext fun k => by cases k <;> rfl) fun a k => ?_
    cases k with
    | ipv4 k => simp [BgpRouter.held, AnyPath.key]
    | ipv6 k =>
      rw [← htime]
      exact held_receive fun _ _ => RouteKey.ipv6.inj
    | evpn k => simp [BgpRouter.held, AnyPath.key]
  | storedEvpn hidx hstate htime =>
    refine h.stored hn hidx hstate rfl (fun a => funext fun k => by cases k <;> rfl) fun a k => ?_
    cases k with
    | ipv4 k => simp [BgpRouter.held, AnyPath.key]
    | ipv6 k => simp [BgpRouter.held, AnyPath.key]
    | evpn k =>
      rw [← htime]
      exact held_receive fun _ _ => RouteKey.evpn.inj
  | droppedIpv4 addr ks =>
    refine h.fewer (fun _ => rfl) (fun a => ?_) fun a k => ?_
    · funext k
      cases k <;> simp [BgpRouter.told]
    · cases k with
      | ipv4 k => exact held_withdrawAll
      | ipv6 k => exact .inr rfl
      | evpn k => exact .inr rfl
  | droppedIpv6 addr ks =>
    refine h.fewer (fun _ => rfl) (fun a => ?_) fun a k => ?_
    · funext k
      cases k <;> simp [BgpRouter.told]
    · cases k with
      | ipv4 k => exact .inr rfl
      | ipv6 k => exact held_withdrawAll
      | evpn k => exact .inr rfl
  | droppedEvpn addr ks =>
    refine h.fewer (fun _ => rfl) (fun a => ?_) fun a k => ?_
    · funext k
      cases k <;> simp [BgpRouter.told]
    · cases k with
      | ipv4 k => exact .inr rfl
      | ipv6 k => exact .inr rfl
      | evpn k => exact held_withdrawAll
  | completed hidx => exact h.completed hn hidx
  | flushed hidx => exact h.flushed hn hidx
  | decided =>
    refine h.fewer (fun a => ?_) (fun a => ?_) fun a k => .inr ?_
    · exact BgpRouter.sessionOf_of_sessions (by rw [peers_decide])
    · funext k
      rw [decideWhereDirty_eq]
      cases k <;> simp only [BgpRouter.told] <;> split <;> rfl
    · rw [decideWhereDirty_eq]
      cases k <;> simp only [BgpRouter.held] <;> split <;> rfl

end steps

theorem allTidy_invariant : StepInvariant Call.Orderly AllTidy where
  start localAs routerId a := by
    have hheld : (BgpRouter.new localAs routerId).held a = fun _ => none := by
      funext k
      cases k <;> simp [BgpRouter.new, BgpRouter.held]
    have htold : (BgpRouter.new localAs routerId).told a = fun _ => false := by
      funext k
      cases k <;> simp [BgpRouter.new, BgpRouter.told]
    rw [hheld, htold]
    exact .idle a 0
  later h ht a := (h a).later ht
  step hn hs hok h := h.step hn hs hok
  configure {r r' log t} hc h := by
    refine h.fewer hc.sessions (fun a => ?_) fun a k => ?_
    · funext k
      cases k <;> simp [BgpRouter.told, hc.ipv4.adjRibOut, hc.ipv6.adjRibOut, hc.evpn.adjRibOut]
    · cases k with
      | ipv4 k => exact (hc.ipv4.held a k).imp (fun h => by simp [BgpRouter.held, h]) id
      | ipv6 k => exact (hc.ipv6.held a k).imp (fun h => by simp [BgpRouter.held, h]) id
      | evpn k => exact (hc.evpn.held a k).imp (fun h => by simp [BgpRouter.held, h]) id

end ToyTcpip.Bgp
