import ToyTcpip.Bgp.Steps

/-! The sending half of a poll as runs: what is said to the peers and what that leaves unchanged. -/
namespace ToyTcpip.Bgp

/-- A peer as the outbound view sees it. -/
def BgpPeer.exportView (p : BgpPeer) : BgpPeer :=
  { p with
    txDesynced := false
    refreshPending := ∅
    enhancedRefreshOutbound := ∅
    localRestartEorPending := ∅ }

/-- All that the outbound views are computed from. -/
def BgpRouter.exportView (r : BgpRouter) : BgpRouter :=
  { r with
    peers := r.peers.map BgpPeer.exportView
    ipv4 := { r.ipv4 with adjRibOut := .empty }
    ipv6 := { r.ipv6 with adjRibOut := .empty }
    evpn := { r.evpn with adjRibOut := .empty } }

namespace BgpRouter

variable {r r' : BgpRouter} {idx : ℕ} {f : BgpPeer → BgpPeer}

theorem peerAt_exportView : r.exportView.peerAt idx = (r.peerAt idx).exportView := by
  simp only [peerAt, exportView, List.getD_eq_getElem?_getD, List.getElem?_map]
  cases r.peers[idx]? with
  | none => rfl
  | some p => rfl

theorem exportView_updatePeer (h : ∀ p, (f p).exportView = p.exportView) :
    (r.updatePeer idx f).exportView = r.exportView := by
  have hpeers : (r.updatePeer idx f).peers.map BgpPeer.exportView =
      r.peers.map BgpPeer.exportView :=
    map_peers_updatePeer h
  simp only [exportView, updatePeer] at hpeers ⊢
  rw [hpeers]

theorem computeAdjRibOut_exportView :
    r.exportView.computeAdjRibOut idx = r.computeAdjRibOut idx := by
  have hfun : r.exportView.exportIpv4 idx = r.exportIpv4 idx := by
    funext pfx best
    simp only [exportIpv4, isEbgp, propagation, metadataFor, exportedAsPath, reflectionMetadata,
      clusterId, peerAt_exportView]
    rfl
  rw [computeAdjRibOut, hfun]
  rfl

theorem computeIpv6AdjRibOut_exportView :
    r.exportView.computeIpv6AdjRibOut idx = r.computeIpv6AdjRibOut idx := by
  have hfun : r.exportView.exportIpv6 idx = r.exportIpv6 idx := by
    funext best
    simp only [exportIpv6, isEbgp, propagation, metadataFor, exportedAsPath, reflectionMetadata,
      clusterId, peerAt_exportView]
    rfl
  rw [computeIpv6AdjRibOut, hfun]
  rfl

theorem computeEvpnAdjRibOut_exportView :
    r.exportView.computeEvpnAdjRibOut idx = r.computeEvpnAdjRibOut idx := by
  have hfun : r.exportView.exportEvpn idx = r.exportEvpn idx := by
    funext best
    simp only [exportEvpn, isEbgp, propagation, metadataFor, exportedAsPath, reflectionMetadata,
      clusterId, peerAt_exportView]
    rfl
  rw [computeEvpnAdjRibOut, hfun]
  rfl

theorem peerAt_of_exportView (h : r'.exportView = r.exportView) (idx : ℕ) :
    (r'.peerAt idx).exportView = (r.peerAt idx).exportView := by
  simpa [peerAt_exportView] using congrArg (fun r => r.peerAt idx) h

theorem negotiated_of_exportView (h : r'.exportView = r.exportView) :
    (r'.peerAt idx).negotiated = (r.peerAt idx).negotiated := by
  have hpeer := congrArg BgpPeer.negotiated (peerAt_of_exportView h idx)
  exact hpeer

theorem state_of_exportView (h : r'.exportView = r.exportView) :
    (r'.peerAt idx).state = (r.peerAt idx).state := by
  have hpeer := congrArg BgpPeer.state (peerAt_of_exportView h idx)
  exact hpeer

theorem length_of_exportView (h : r'.exportView = r.exportView) :
    r'.peers.length = r.peers.length := by
  have hpeer := congrArg (fun r => r.peers.length) h
  simpa [exportView] using hpeer

end BgpRouter

/-- What a plane has to be for the sending loop to be a run. -/
structure Plane.Lawful {κ π ρ ο : Type} [Ord κ] (plane : Plane κ π ρ ο) : Prop where
  rib_setRib : ∀ r rib, plane.rib (plane.setRib r rib) = rib
  peers_setRib : ∀ r rib, (plane.setRib r rib).peers = r.peers
  exportView_setRib :
    ∀ r table, (plane.setRib r { plane.rib r with adjRibOut := table }).exportView =
    r.exportView
  desired_exportView : ∀ r idx, plane.desired r.exportView idx = plane.desired r idx
  eligible_established : ∀ p, plane.eligible p = true → p.state = .established
  announced : ∀ {r idx route members}, plane.Announces r idx route members →
    Talk r [plane.announceCall r idx route members] (plane.afterAnnounce r idx route members)
  withdrew : ∀ {r idx gone}, plane.Withdraws r idx gone →
    Talk r [plane.withdrawCall r idx gone] (plane.forget r idx (gone.map Prod.fst))
  replayed : ∀ {r idx cs r'}, plane.Replays r idx cs r' →
    Talk r cs (r'.setPhase idx plane.family .needEorr)

theorem ipv4Plane_lawful : ipv4Plane.Lawful where
  rib_setRib _ _ := rfl
  peers_setRib _ _ := rfl
  exportView_setRib _ _ := rfl
  desired_exportView _ _ := BgpRouter.computeAdjRibOut_exportView
  eligible_established p h := by simpa [ipv4Plane, BgpPeer.isEstablished] using h
  announced := .announcedIpv4
  withdrew := .withdrewIpv4
  replayed := .replayedIpv4

theorem ipv6Plane_lawful : ipv6Plane.Lawful where
  rib_setRib _ _ := rfl
  peers_setRib _ _ := rfl
  exportView_setRib _ _ := rfl
  desired_exportView _ _ := BgpRouter.computeIpv6AdjRibOut_exportView
  eligible_established p h := by
    simp only [ipv6Plane, BgpPeer.carries, BgpPeer.isEstablished, Bool.and_eq_true,
      decide_eq_true_eq] at h
    exact h.1
  announced := .announcedIpv6
  withdrew := .withdrewIpv6
  replayed := .replayedIpv6

theorem evpnPlane_lawful : evpnPlane.Lawful where
  rib_setRib _ _ := rfl
  peers_setRib _ _ := rfl
  exportView_setRib _ _ := rfl
  desired_exportView _ _ := BgpRouter.computeEvpnAdjRibOut_exportView
  eligible_established p h := by
    simp only [evpnPlane, BgpPeer.carries, BgpPeer.isEstablished, Bool.and_eq_true,
      decide_eq_true_eq] at h
    exact h.1
  announced := .announcedEvpn
  withdrew := .withdrewEvpn
  replayed := .replayedEvpn

/-- A run that says things to the peers and leaves the outbound views as they were. -/
structure Speaks {σ : Type} (w w' : World σ) : Prop where
  talks : Talks w w'
  view : w'.router.exportView = w.router.exportView

theorem Speaks.refl {σ : Type} (w : World σ) : Speaks w w := ⟨.refl w, rfl⟩

theorem Speaks.trans {σ : Type} {w w' w'' : World σ} (h : Speaks w w') (h' : Speaks w' w'') :
    Speaks w w'' :=
  ⟨h.talks.trans h'.talks, h'.view.trans h.view⟩

namespace World

variable {σ : Type} {io : SocketRuntime σ} {w w' : World σ} {idx : ℕ} {pdu : BgpPdu}

/-- A message that was written leaves the speaker as it was. -/
theorem sendPdu_true (h : w.sendPdu io idx pdu = (true, w')) :
    w'.router = w.router ∧ w'.calls = .send w.router idx pdu true :: w.calls := by
  unfold sendPdu at h
  split at h
  · cases h
  · simp only at h
    split at h
    · cases h
    · split at h
      · split at h
        · cases h
          exact ⟨rfl, rfl⟩
        · cases h
      · cases h

theorem speaks_updatePeer {f : BgpPeer → BgpPeer} (hs : ∀ p, (f p).session = p.session)
    (hv : ∀ p, (f p).exportView = p.exportView) : Speaks w (w.updatePeer idx f) :=
  ⟨.quiet (quiet_updatePeer hs) rfl, BgpRouter.exportView_updatePeer hv⟩

/-- A message that was not written may leave the transport marked as out of step. -/
theorem sendPdu_false (h : w.sendPdu io idx pdu = (false, w')) : Speaks w w' := by
  have hlog : ∀ s, Speaks w ({ w with sockets := s }.log (.send w.router idx pdu false)) :=
    fun s => ⟨.single (.sent (by simp)) rfl, rfl⟩
  unfold sendPdu at h
  split at h
  · cases h
    exact hlog w.sockets
  · simp only at h
    split at h
    · cases h
      exact hlog w.sockets
    · split at h
      · split at h
        · cases h
        · cases h
          exact (hlog _).trans (speaks_updatePeer (fun _ => rfl) fun _ => rfl)
      · cases h
        exact hlog _

/-- Nor does it change what is left of a replay. -/
theorem sendPdu_false_phase (idx' : ℕ) (h : w.sendPdu io idx pdu = (false, w')) : Speaks w w' ∧
    (w'.peerAt idx').enhancedRefreshOutbound = (w.peerAt idx').enhancedRefreshOutbound := by
  refine ⟨sendPdu_false h, ?_⟩
  unfold sendPdu at h
  split at h
  · cases h
    rfl
  · simp only at h
    split at h
    · cases h
      rfl
    · split at h
      · split at h
        · cases h
        · cases h
          exact BgpRouter.proj_peerAt_updatePeer fun _ => rfl
      · cases h
        rfl

theorem sendPdu_speaks (h : pdu.Silent) : Speaks w (w.sendPdu io idx pdu).2 := by
  cases hs : w.sendPdu io idx pdu with
  | mk written w' =>
    cases written with
    | false => exact sendPdu_false hs
    | true =>
      obtain ⟨hr, hc⟩ := sendPdu_true hs
      have hsent : Talk w.router [.send w.router idx pdu true] w'.router := by
        rw [hr]
        exact .sent fun _ => h
      exact ⟨.single hsent hc, by rw [hr]⟩

/-! ### Refresh markers -/

theorem refreshed_talk {f : BgpPeer → BgpPeer} (hidx : idx < w.router.peers.length)
    (hstate : (w.peerAt idx).state = .established) (haddr : ∀ p, (f p).addr = p.addr)
    (hs : ∀ p, (f p).state = p.state) (hl : ∀ p, (f p).stream.isSome = p.stream.isSome)
    (hr : ∀ p, (f p).restart = p.restart)
    (ho : ∀ p, (f p).enhancedRefreshOutbound = p.enhancedRefreshOutbound)
    (hv : ∀ p, (f p).exportView = p.exportView) : Speaks w (w.updatePeer idx f) :=
  ⟨.single (.refreshed hidx ⟨haddr _, hs _, hl _, hr _, hstate, fun F => .inl (by rw [ho])⟩) rfl,
    BgpRouter.exportView_updatePeer hv⟩

theorem ensureEnhancedRefreshBorr_speaks {family : AfiSafi} (hidx : idx < w.router.peers.length)
    (hstate : (w.peerAt idx).state = .established) :
    Speaks w (w.ensureEnhancedRefreshBorr io idx family).2 := by
  unfold ensureEnhancedRefreshBorr
  split
  · exact .refl w
  · split
    · rename_i hs
      exact sendPdu_false hs
    · rename_i w' hs
      obtain ⟨hr, hc⟩ := sendPdu_true hs
      have htalk : Talk w.router [.send w.router idx (.routeRefresh ⟨family, .beginning⟩) true]
          (w'.router.setPhase idx family .replaying) := by
        rw [hr]
        exact .began hidx hstate
      refine ⟨.single htalk hc, ?_⟩
      rw [← hr]
      exact BgpRouter.exportView_updatePeer fun _ => rfl

theorem erasePending_speaks {family : AfiSafi} (hidx : idx < w.router.peers.length)
    (hstate : (w.peerAt idx).state = .established) :
    Speaks w (w.updatePeer idx fun p =>
      { p with refreshPending := p.refreshPending.erase family }) :=
  refreshed_talk hidx hstate (fun _ => rfl) (fun _ => rfl) (fun _ => rfl) (fun _ => rfl)
    (fun _ => rfl) fun _ => rfl

theorem sendEorrs_speaks {families : List AfiSafi} (hidx : idx < w.router.peers.length)
    (hstate : (w.peerAt idx).state = .established) (hnodup : families.Nodup)
    (hphase : ∀ family ∈ families, (w.peerAt idx).enhancedRefreshOutbound[family]? =
      some .needEorr) :
    Speaks w (sendEorrs io idx families w) := by
  induction families generalizing w with
  | nil => exact .refl w
  | cons family rest ih =>
    obtain ⟨hfirst, hnodup⟩ := List.nodup_cons.mp hnodup
    unfold sendEorrs
    split
    · rename_i w' hs
      obtain ⟨hsent, hphase'⟩ := sendPdu_false_phase idx hs
      refine hsent.trans (ih (by rwa [hsent.talks.length])
        ((BgpRouter.state_of_exportView hsent.view).trans hstate) hnodup fun F hF => ?_)
      rw [hphase']
      exact hphase F (List.mem_cons_of_mem _ hF)
    · rename_i w' hs
      obtain ⟨hr, hc⟩ := sendPdu_true hs
      have htalk : Talk w.router [.send w.router idx (.routeRefresh ⟨family, .end⟩) true]
          (w'.router.clearPhase idx family) := by
        rw [hr]
        exact .ended hidx hstate (hphase family List.mem_cons_self)
      have hidx' : idx < w'.router.peers.length := by rwa [hr]
      have hdone : Speaks w (w'.updatePeer idx fun p =>
          { p with enhancedRefreshOutbound := p.enhancedRefreshOutbound.erase family }) := by
        refine ⟨.single htalk hc, ?_⟩
        rw [← hr]
        exact BgpRouter.exportView_updatePeer fun _ => rfl
      refine hdone.trans (ih (by simpa [updatePeer] using hidx')
        ((BgpRouter.state_of_exportView hdone.view).trans hstate) hnodup fun F hF => ?_)
      have hne : family ≠ F := fun h => hfirst (h ▸ hF)
      have hpeer : (w'.updatePeer idx fun p =>
          { p with enhancedRefreshOutbound := p.enhancedRefreshOutbound.erase family }).peerAt idx =
          { w.peerAt idx with
            enhancedRefreshOutbound := (w.peerAt idx).enhancedRefreshOutbound.erase family } := by
        rw [peerAt, updatePeer, BgpRouter.peerAt_updatePeer hidx', if_pos rfl, hr]
        rfl
      rw [hpeer, Std.TreeMap.getElem?_erase, if_neg (by simpa [Std.compare_eq_iff_eq] using hne)]
      exact hphase F (List.mem_cons_of_mem _ hF)

theorem eorDone_speaks {family : AfiSafi} : Speaks w (w.eorDone idx family) :=
  speaks_updatePeer (fun _ => rfl) fun _ => rfl

theorem sendEors_speaks {families : List AfiSafi} (hidx : idx < w.router.peers.length)
    (hstate : (w.peerAt idx).state = .established) : Speaks w (sendEors io idx families w) := by
  induction families generalizing w with
  | nil => exact .refl w
  | cons family rest ih =>
    have hgo : ∀ {w' : World σ}, Speaks w w' → Speaks w (sendEors io idx rest w') := fun h =>
      h.trans (ih (by rwa [h.talks.length]) ((BgpRouter.state_of_exportView h.view).trans hstate))
    unfold sendEors
    simp only
    split
    · exact hgo eorDone_speaks
    · split
      · exact hgo eorDone_speaks
      · rename_i eor heor
        split
        · rename_i w' hs
          obtain ⟨hr, hc⟩ := sendPdu_true hs
          have htalk : Talk w.router [.send w.router idx (.update eor) true] w'.router := by
            rw [hr]
            exact .marked hidx hstate heor
          have hsent : Speaks w w' := ⟨.single htalk hc, by rw [hr]⟩
          exact hgo (hsent.trans eorDone_speaks)
        · rename_i w' hs
          exact hgo (sendPdu_false hs)

/-! ### Routes -/

section plane

variable {κ π ρ ο : Type} [Ord κ] {plane : Plane κ π ρ ο}

/-- A group is made of the due routes with its encoding, in order, and is led by the first. -/
theorem groups_get? {fourOctet : Bool} {due : List (κ × ρ)} {b : List UInt8} :
    (due.foldl (addToGroup plane fourOctet) ∅)[b]? =
    (due.filter fun e => plane.groupKey fourOctet e.2 = b).head?.map fun e =>
      (e.2, due.filter fun e => plane.groupKey fourOctet e.2 = b) := by
  induction due using List.reverseRecOn with
  | nil => simp
  | append_singleton due e ih =>
    rw [List.foldl_append, List.foldl_cons, List.foldl_nil, addToGroup,
      Std.TreeMap.getElem?_alter]
    by_cases hb : plane.groupKey fourOctet e.2 = b
    · subst hb
      rw [ih]
      cases hd : due.filter fun e' => plane.groupKey fourOctet e'.2 =
          plane.groupKey fourOctet e.2 with
      | nil => simp [List.filter_append, hd]
      | cons e' rest => simp [List.filter_append, hd]
    · rw [if_neg (by simpa [Std.compare_eq_iff_eq] using hb), ih]
      simp [List.filter_append, hb]

theorem mem_groupsOf {fourOctet : Bool} {due members : List (κ × ρ)} {route : ρ} :
    (route, members) ∈ groupsOf plane fourOctet due ↔ ∃ b,
      (due.filter fun e => plane.groupKey fourOctet e.2 = b) = members ∧
      members.head?.map Prod.snd = some route := by
  simp only [groupsOf, List.mem_map, Prod.exists, exists_eq_right,
    Std.TreeMap.mem_toList_iff_getElem?_eq_some, groups_get?, Option.map_eq_some_iff, Prod.mk.injEq]
  apply exists_congr
  intro b
  constructor
  · rintro ⟨k, r, hhead, rfl, hm⟩
    exact ⟨hm, k, by rwa [← hm]⟩
  · rintro ⟨rfl, k, hhead⟩
    exact ⟨k, route, hhead, rfl, rfl⟩

theorem speaks_record {members : List (κ × ρ)} {route : ρ} (hp : plane.Lawful)
    (h : w.sendPdu io idx (.update (plane.announcement
      (w.peerAt idx).negotiated.fourOctetAs route members)) = (true, w'))
    (ha : plane.Announces w.router idx route members) :
    Speaks w { w' with
      router := plane.record w'.router idx (members.map fun m =>
        (m.1, plane.recorded route m.2)) } := by
  obtain ⟨hr, hc⟩ := sendPdu_true h
  rw [hr]
  exact ⟨.single (hp.announced ha) hc, hp.exportView_setRib _ _⟩

theorem speaks_forget {gone : List (κ × ρ)} (hp : plane.Lawful)
    (h : w.sendPdu io idx (.update (plane.withdrawal gone)) = (true, w'))
    (hw : plane.Withdraws w.router idx gone) :
    Speaks w { w' with router := plane.forget w'.router idx (gone.map Prod.fst) } := by
  obtain ⟨hr, hc⟩ := sendPdu_true h
  rw [hr]
  exact ⟨.single (hp.withdrew hw) hc, hp.exportView_setRib _ _⟩

/-- What makes a group sendable only depends on the outbound view. -/
theorem announces_of_exportView {r r' : BgpRouter} {members : List (κ × ρ)} {route : ρ}
    (ha : plane.Announces r idx route members) (hp : plane.Lawful)
    (hview : r'.exportView = r.exportView) : plane.Announces r' idx route members := by
  have hfour : (r'.peerAt idx).negotiated.fourOctetAs = (r.peerAt idx).negotiated.fourOctetAs := by
    rw [BgpRouter.negotiated_of_exportView hview]
  constructor
  · rw [BgpRouter.length_of_exportView hview]
    exact ha.inRange
  · rw [BgpRouter.state_of_exportView hview]
    exact ha.established
  · intro m hm
    rw [← hp.desired_exportView, hview, hp.desired_exportView]
    exact ha.wanted m hm
  · intro m hm
    rw [hfour]
    exact ha.alike m hm
  · exact ha.leader

/-- The loop over the groups. -/
theorem sendGroups_speaks {r : BgpRouter} {groups : List (ρ × List (κ × ρ))} {complete : Bool}
    (hp : plane.Lawful) (hview : w.router.exportView = r.exportView)
    (hgroups : ∀ g ∈ groups, plane.Announces r idx g.1 g.2) :
    Speaks w (sendGroups io plane idx (r.peerAt idx).negotiated.fourOctetAs groups
      (complete, w)).2 := by
  induction groups generalizing w complete with
  | nil => exact .refl w
  | cons g rest ih =>
    obtain ⟨route, members⟩ := g
    have ha := hgroups _ List.mem_cons_self
    have hfour : (r.peerAt idx).negotiated.fourOctetAs =
        (w.router.peerAt idx).negotiated.fourOctetAs := by
      rw [BgpRouter.negotiated_of_exportView hview]
    have hrest := fun g hg => hgroups g (List.mem_cons_of_mem _ hg)
    unfold sendGroups
    split
    · rename_i w' hs
      have hw := announces_of_exportView ha hp hview
      have hstep := speaks_record hp (by rw [hfour] at hs; exact hs) hw
      exact hstep.trans (ih (hstep.view.trans hview) hrest)
    · rename_i w' hs
      have hstep := sendPdu_false hs
      exact hstep.trans (ih (hstep.view.trans hview) hrest)

theorem sendGroups_false {fourOctet : Bool} {groups : List (ρ × List (κ × ρ))} :
    (sendGroups io plane idx fourOctet groups (false, w)).1 = false := by
  induction groups generalizing w with
  | nil => rfl
  | cons g rest ih =>
    unfold sendGroups
    split <;> exact ih

/-- The loop over the groups when every message was written. -/
theorem sendGroups_tells {r : BgpRouter} {groups : List (ρ × List (κ × ρ))} (hp : plane.Lawful)
    (hview : w.router.exportView = r.exportView)
    (hgroups : ∀ g ∈ groups, plane.Announces r idx g.1 g.2)
    (hsent : sendGroups io plane idx (r.peerAt idx).negotiated.fourOctetAs groups (true, w) =
      (true, w')) :
    ∃ cs, plane.Tells idx w.router cs (groups.flatMap fun g => g.2.map Prod.fst) w'.router ∧
      w'.calls = cs ++ w.calls ∧ w'.router.exportView = w.router.exportView := by
  induction groups generalizing w with
  | nil =>
    cases hsent
    exact ⟨[], .done _, rfl, rfl⟩
  | cons g rest ih =>
    obtain ⟨route, members⟩ := g
    have hfour : (r.peerAt idx).negotiated.fourOctetAs =
        (w.router.peerAt idx).negotiated.fourOctetAs := by
      rw [BgpRouter.negotiated_of_exportView hview]
    unfold sendGroups at hsent
    split at hsent
    · rename_i w₁ hs
      have hw := announces_of_exportView (hgroups _ List.mem_cons_self) hp hview
      obtain ⟨hr, hc⟩ := sendPdu_true hs
      rw [hr] at hsent
      have hstep : (plane.afterAnnounce w.router idx route members).exportView =
          w.router.exportView :=
        hp.exportView_setRib _ _
      obtain ⟨cs, htells, hcalls, hv⟩ := ih (hstep.trans hview)
        (fun g hg => hgroups g (List.mem_cons_of_mem _ hg)) hsent
      refine ⟨_, .tell hw htells, ?_, hv.trans hstep⟩
      rw [hcalls, hc, hfour]
      simp [Plane.announceCall]
    · have hfalse := congrArg Prod.fst hsent
      rw [sendGroups_false] at hfalse
      cases hfalse

theorem exists_group_of_mem (fourOctet : Bool) {due : List (κ × ρ)} {e : κ × ρ} (h : e ∈ due) :
    ∃ g ∈ groupsOf plane fourOctet due, e ∈ g.2 := by
  have hin : e ∈ due.filter fun e' => plane.groupKey fourOctet e'.2 =
      plane.groupKey fourOctet e.2 :=
    List.mem_filter.mpr ⟨h, by simp⟩
  obtain ⟨first, rest, hcons⟩ := List.exists_cons_of_ne_nil (List.ne_nil_of_mem hin)
  exact ⟨(first.2, _), mem_groupsOf.mpr ⟨_, rfl, by rw [hcons]; rfl⟩, hin⟩

variable [Std.TransOrd κ] [Std.LawfulEqOrd κ]

theorem withdraws_goneFrom {r : BgpRouter} {desired : Std.TreeMap κ ρ}
    (hidx : idx < r.peers.length) (hstate : (r.peerAt idx).state = .established) :
    plane.Withdraws r idx (goneFrom plane r idx desired) := by
  refine ⟨hidx, hstate, ?_⟩
  intro m hm
  exact Std.TreeMap.mem_toList_iff_getElem?_eq_some.mp (List.mem_filter.mp hm).1

theorem sendWithdrawals_speaks {desired : Std.TreeMap κ ρ} (hp : plane.Lawful)
    (hidx : idx < w.router.peers.length) (hstate : (w.peerAt idx).state = .established) :
    Speaks w (w.sendWithdrawals io plane idx (goneFrom plane w.router idx desired)).2 := by
  unfold sendWithdrawals
  split
  · exact .refl w
  · split
    · rename_i w' hs
      exact speaks_forget hp hs (withdraws_goneFrom hidx hstate)
    · rename_i w' hs
      exact sendPdu_false hs

variable [DecidableEq ρ]

/-- Each group of what is due is a message of announcements. -/
theorem announces_groupsOf {r : BgpRouter} {force : Bool} {g : ρ × List (κ × ρ)}
    (hidx : idx < r.peers.length) (hstate : (r.peerAt idx).state = .established)
    (hg : g ∈ groupsOf plane (r.peerAt idx).negotiated.fourOctetAs
      (dueTo plane r idx (plane.desired r idx) force)) :
    plane.Announces r idx g.1 g.2 := by
  obtain ⟨route, members⟩ := g
  obtain ⟨b, rfl, hlead⟩ := mem_groupsOf.mp hg
  have hkey : ∀ m ∈ (dueTo plane r idx (plane.desired r idx) force).filter (fun e =>
      plane.groupKey (r.peerAt idx).negotiated.fourOctetAs e.2 = b),
      plane.groupKey (r.peerAt idx).negotiated.fourOctetAs m.2 = b := by
    intro m hm
    simpa using (List.mem_filter.mp hm).2
  obtain ⟨⟨k, ρ'⟩, hhead, rfl⟩ := Option.map_eq_some_iff.mp hlead
  have hmem := List.mem_of_head? hhead
  refine ⟨hidx, hstate, ?_, ?_, ⟨k, hmem⟩⟩
  · intro m hm
    have hdue := (List.mem_filter.mp hm).1
    exact Std.TreeMap.mem_toList_iff_getElem?_eq_some.mp (List.mem_filter.mp hdue).1
  · intro m hm
    rw [hkey m hm, hkey _ hmem]

variable [DecidableEq κ]

omit [DecidableEq ρ] in
theorem get?_forget {gone : List (κ × ρ)} {r : BgpRouter} (hp : plane.Lawful) {k : κ} :
    (plane.rib (plane.forget r idx (gone.map Prod.fst))).adjRibOut.get? (r.peerAt idx).addr k =
      if k ∈ gone.map Prod.fst then none else (plane.rib r).adjRibOut.get?
        (r.peerAt idx).addr k := by
  simp only [Plane.forget, hp.rib_setRib, Nested.get?_eraseAll, true_and]

omit [DecidableEq ρ] in
/-- After the withdrawals were written, a peer has been told of nothing but what it should hear. -/
theorem wanted_of_withdrawn {desired : Std.TreeMap κ ρ} {k : κ} (hp : plane.Lawful)
    (hsent : w.sendWithdrawals io plane idx (goneFrom plane w.router idx desired) = (true, w'))
    (hk : ((plane.rib w'.router).adjRibOut.get? (w.peerAt idx).addr k).isSome) :
    desired.contains k = true := by
  have hgone : ∀ route, (plane.rib w.router).adjRibOut.get? (w.peerAt idx).addr k = some route →
      k ∉ (goneFrom plane w.router idx desired).map Prod.fst → desired.contains k = true := by
    intro route hget hnot
    by_contra hno
    refine hnot (List.mem_map.mpr ⟨(k, route), List.mem_filter.mpr ⟨?_, by simp [hno]⟩, rfl⟩)
    exact Std.TreeMap.mem_toList_iff_getElem?_eq_some.mpr hget
  unfold sendWithdrawals at hsent
  split at hsent
  · rename_i hempty
    cases hsent
    obtain ⟨route, hget⟩ := Option.isSome_iff_exists.mp hk
    exact hgone route hget (by simp [List.isEmpty_iff.mp hempty])
  · split at hsent
    · rename_i w₁ hs
      cases hsent
      obtain ⟨hr, -⟩ := sendPdu_true hs
      have haddr : (w.peerAt idx).addr = (w₁.router.peerAt idx).addr := by rw [hr]; rfl
      obtain ⟨route, hget⟩ := Option.isSome_iff_exists.mp hk
      rw [haddr, get?_forget hp] at hget
      split at hget
      · cases hget
      · rename_i hnot
        rw [hr] at hget
        exact hgone route hget hnot
    · cases hsent

omit [DecidableEq ρ] in
/-- What a peer has been told of is what it was told of before or what it is told of now. -/
theorem told_of_tells {cs : List Call} {ks : List κ} {r r' : BgpRouter} {k : κ} (hp : plane.Lawful)
    (h : plane.Tells idx r cs ks r')
    (hk : ((plane.rib r').adjRibOut.get? (r.peerAt idx).addr k).isSome) :
    ((plane.rib r).adjRibOut.get? (r.peerAt idx).addr k).isSome ∨ k ∈ ks := by
  induction h with
  | done => exact .inl hk
  | @tell r r' route members cs ks ha hrest ih =>
    have haddr : ((plane.afterAnnounce r idx route members).peerAt idx).addr =
        (r.peerAt idx).addr := by
      rw [BgpRouter.peerAt, Plane.afterAnnounce, Plane.record, hp.peers_setRib, BgpRouter.peerAt]
    rw [haddr] at ih
    rcases ih hk with hin | hin
    · by_cases hmem : k ∈ members.map Prod.fst
      · exact .inr (List.mem_append_left _ hmem)
      · left
        rw [Plane.afterAnnounce, Plane.record, hp.rib_setRib,
          Nested.get?_insertAll_of_not_mem] at hin
        · exact hin
        · simpa [Function.comp_def] using hmem
    · exact .inr (List.mem_append_right _ hin)

/-- A whole replay, with every message written. -/
theorem replay_speaks (io : SocketRuntime σ) {w₁ w₂ : World σ} (hp : plane.Lawful)
    (hidx : idx < w₁.router.peers.length) (hstate : (w₁.peerAt idx).state = .established)
    (hdesired : plane.desired w.router idx = plane.desired w₁.router idx)
    (haddr : (w.peerAt idx).addr = (w₁.peerAt idx).addr)
    (hsent : w.sendWithdrawals io plane idx
      (goneFrom plane w.router idx (plane.desired w.router idx)) = (true, w₁))
    (hgroups : sendGroups io plane idx (w₁.router.peerAt idx).negotiated.fourOctetAs
      (groupsOf plane (w₁.router.peerAt idx).negotiated.fourOctetAs
        (dueTo plane w₁.router idx (plane.desired w₁.router idx) true)) (true, w₁) = (true, w₂)) :
    Speaks w₁ { w₂ with router := w₂.router.setPhase idx plane.family .needEorr } := by
  obtain ⟨cs, htells, hcalls, hview⟩ := sendGroups_tells hp rfl
    (fun g hg => announces_groupsOf hidx hstate hg) hgroups
  refine ⟨.single (hp.replayed ⟨hidx, hstate, _, htells, fun k hk => ?_⟩) hcalls, ?_⟩
  · rcases told_of_tells hp htells hk with hbefore | hnow
    · -- what stands in the table is wanted, and all of that is in the groups
      have hwanted := wanted_of_withdrawn hp hsent (haddr ▸ hbefore)
      rw [hdesired] at hwanted
      rw [Std.TreeMap.contains_eq_isSome_getElem?] at hwanted
      obtain ⟨route, hroute⟩ := Option.isSome_iff_exists.mp hwanted
      have hdue : (k, route) ∈ dueTo plane w₁.router idx (plane.desired w₁.router idx) true :=
        List.mem_filter.mpr ⟨Std.TreeMap.mem_toList_iff_getElem?_eq_some.mpr hroute, by simp⟩
      obtain ⟨g, hg, hin⟩ := exists_group_of_mem
        (w₁.router.peerAt idx).negotiated.fourOctetAs hdue
      exact List.mem_flatMap.mpr ⟨g, hg, List.mem_map.mpr ⟨(k, route), hin, rfl⟩⟩
    · exact hnow
  · have hphase : (w₂.router.setPhase idx plane.family .needEorr).exportView =
        w₂.router.exportView :=
      BgpRouter.exportView_updatePeer fun _ => rfl
    exact hphase.trans hview

omit [DecidableEq κ] [Std.TransOrd κ] [Std.LawfulEqOrd κ] [DecidableEq ρ] in
/-- The end of a refresh marks a replay that was begun as finished. -/
theorem finishRefresh_speaks {w₁ w₂ : World σ} (hidx : idx < w₁.router.peers.length)
    (hstate : (w₁.peerAt idx).state = .established) (hsent : Speaks w₁ w₂)
    (hreplay : Speaks w₁ { w₂ with router := w₂.router.setPhase idx plane.family .needEorr }) :
    Speaks w₁ (w₂.finishRefresh idx plane.family) := by
  have herase : ∀ {w₂ : World σ}, Speaks w₁ w₂ → Speaks w₁ (w₂.updatePeer idx fun p =>
      { p with refreshPending := p.refreshPending.erase plane.family }) := fun h =>
    h.trans (erasePending_speaks (by rwa [h.talks.length])
      ((BgpRouter.state_of_exportView h.view).trans hstate))
  simp only [finishRefresh, BgpRouter.finishEnhancedRefreshReplay]
  split
  · have hboth := herase hreplay
    simp only [updatePeer, BgpRouter.setPhase, BgpRouter.updatePeer_updatePeer] at hboth ⊢
    exact hboth
  · exact herase hsent

/-- What `advertise` does once the peer is known to take the family. -/
theorem advertise_speaks (io : SocketRuntime σ) (hp : plane.Lawful)
    (hidx : idx < w.router.peers.length) : Speaks w (w.advertise io plane idx) := by
  unfold advertise
  by_cases he : plane.eligible (w.peerAt idx) = true
  · have hstate := hp.eligible_established _ he
    simp only [he, Bool.not_true, Bool.false_eq_true, ↓reduceIte]
    have hborr : Speaks w (if (w.peerAt idx).refreshPending.contains plane.family then
        w.ensureEnhancedRefreshBorr io idx plane.family else (true, w)).2 := by
      split
      · exact ensureEnhancedRefreshBorr_speaks hidx hstate
      · exact .refl w
    split
    · rename_i w₁ hs
      rwa [hs] at hborr
    · rename_i w₁ hs
      rw [hs] at hborr
      have hidx₁ : idx < w₁.router.peers.length := by rwa [hborr.talks.length]
      have hstate₁ : (w₁.peerAt idx).state = .established :=
        (BgpRouter.state_of_exportView hborr.view).trans hstate
      have hgone : Speaks w₁ (w₁.sendWithdrawals io plane idx
          (goneFrom plane w₁.router idx (plane.desired w₁.router idx))).2 :=
        sendWithdrawals_speaks hp hidx₁ hstate₁
      generalize hsent : w₁.sendWithdrawals io plane idx
        (goneFrom plane w₁.router idx (plane.desired w₁.router idx)) = sent at hgone
      obtain ⟨written, w₂⟩ := sent
      have hidx₂ : idx < w₂.router.peers.length := by rwa [hgone.talks.length]
      have hstate₂ : (w₂.router.peerAt idx).state = .established :=
        (BgpRouter.state_of_exportView hgone.view).trans hstate₁
      have hdesired : plane.desired w₁.router idx = plane.desired w₂.router idx := by
        rw [← hp.desired_exportView, ← hgone.view, hp.desired_exportView]
      have haddr : (w₁.peerAt idx).addr = (w₂.peerAt idx).addr := by
        have hpeer := congrArg BgpPeer.addr (BgpRouter.peerAt_of_exportView hgone.view idx)
        exact hpeer.symm
      have hsend : Speaks w₂ (sendGroups io plane idx (w₂.peerAt idx).negotiated.fourOctetAs
          (groupsOf plane (w₂.peerAt idx).negotiated.fourOctetAs
            (dueTo plane w₂.router idx (plane.desired w₂.router idx)
              ((w.peerAt idx).refreshPending.contains plane.family))) (written, w₂)).2 :=
        sendGroups_speaks hp rfl fun g hg => announces_groupsOf hidx₂ hstate₂ hg
      have hall := (hborr.trans hgone).trans hsend
      simp only [hdesired]
      generalize hres : sendGroups io plane idx (w₂.peerAt idx).negotiated.fourOctetAs
        (groupsOf plane (w₂.peerAt idx).negotiated.fourOctetAs
          (dueTo plane w₂.router idx (plane.desired w₂.router idx)
            ((w.peerAt idx).refreshPending.contains plane.family)))
            (written, w₂) = res at hsend hall
      obtain ⟨complete, w₃⟩ := res
      split
      · rename_i hdone
        obtain ⟨hforce, hcomplete⟩ := Bool.and_eq_true_iff.mp hdone
        obtain rfl : complete = true := hcomplete
        have hwritten : written = true := by
          by_contra hno
          rw [Bool.not_eq_true] at hno
          have hfalse := congrArg Prod.fst hres
          rw [hno, sendGroups_false] at hfalse
          cases hfalse
        subst hwritten
        rw [hforce] at hres
        exact (hborr.trans hgone).trans (finishRefresh_speaks hidx₂ hstate₂ hsend
          (replay_speaks io hp hidx₂ hstate₂ hdesired haddr hsent hres))
      · exact hall
  · simp only [he, Bool.not_false, ↓reduceIte]
    exact .refl w

end plane

theorem sendEnhancedRefreshEorrs_speaks (io : SocketRuntime σ)
    (hidx : idx < w.router.peers.length) : Speaks w (w.sendEnhancedRefreshEorrs io idx) := by
  unfold sendEnhancedRefreshEorrs
  split
  · exact .refl w
  · rename_i h
    refine sendEorrs_speaks hidx (by simpa [BgpPeer.isEstablished] using h) ?_ fun F hF => ?_
    · refine List.Nodup.sublist (List.filter_sublist.map Prod.fst) ?_
      rw [Std.TreeMap.map_fst_toList_eq_keys]
      exact Std.TreeMap.nodup_keys
    · obtain ⟨⟨F', phase⟩, hmem, rfl⟩ := List.mem_map.mp hF
      obtain ⟨hmem, hphase⟩ := List.mem_filter.mp hmem
      rw [Std.TreeMap.mem_toList_iff_getElem?_eq_some.mp hmem]
      exact congrArg some (of_decide_eq_true hphase)

theorem sendLocalRestartEors_speaks (io : SocketRuntime σ) (hidx : idx < w.router.peers.length) :
    Speaks w (w.sendLocalRestartEors io idx) := by
  unfold sendLocalRestartEors
  split
  · exact .refl w
  · rename_i h
    exact sendEors_speaks hidx (by simpa [BgpPeer.isEstablished] using h)

theorem advertiseAll_speaks (io : SocketRuntime σ) (hidx : idx < w.router.peers.length) :
    Speaks w (w.advertiseAll io idx) := by
  have h4 := advertise_speaks io ipv4Plane_lawful hidx
  have h6 := h4.trans (advertise_speaks io ipv6Plane_lawful (by rwa [h4.talks.length]))
  have he := h6.trans (advertise_speaks io evpnPlane_lawful (by rwa [h6.talks.length]))
  have hr := he.trans (sendEnhancedRefreshEorrs_speaks io (by rwa [he.talks.length]))
  exact hr.trans (sendLocalRestartEors_speaks io (by rwa [hr.talks.length]))

theorem advertiseEach_speaks (io : SocketRuntime σ) (idxs : List ℕ)
    (hidxs : ∀ idx ∈ idxs, idx < w.router.peers.length) :
    Speaks w (idxs.foldl (fun w idx => w.advertiseAll io idx) w) := by
  induction idxs generalizing w with
  | nil => exact .refl w
  | cons idx rest ih =>
    have hfirst := advertiseAll_speaks io (hidxs idx List.mem_cons_self)
    rw [List.foldl_cons]
    generalize w.advertiseAll io idx = w' at hfirst ⊢
    refine hfirst.trans (ih fun i hi => ?_)
    rw [hfirst.talks.length]
    exact hidxs i (List.mem_cons_of_mem _ hi)

theorem quiet_maybeFinish {r : BgpRouter} : Quiet r r.maybeFinishLocalGracefulRestart := by
  unfold BgpRouter.maybeFinishLocalGracefulRestart
  split
  · exact .refl r
  · split
    · exact .refl r
    · refine ⟨?_, rfl, rfl, rfl, rfl, rfl⟩
      simp [BgpRouter.clearEorPending, Function.comp_def, BgpPeer.session, BgpPeer.refresh,
        BgpPeer.restart]

/-- The second half of a poll only speaks. -/
theorem pollAdvertise_talks : Talks w (w.pollAdvertise io) := by
  have heach := advertiseEach_speaks io (List.range w.router.peers.length) fun idx h =>
    List.mem_range.mp h
  exact heach.talks.trans (.quiet quiet_maybeFinish rfl)

end World

end ToyTcpip.Bgp
