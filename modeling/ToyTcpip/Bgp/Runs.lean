import ToyTcpip.Bgp.Speaking

/-! Every call of the speaker is a run of its transition system. -/
namespace ToyTcpip.Bgp

theorem BgpRouter.position_lt {r : BgpRouter} {addr : Ipv4Address} {idx : ℕ}
    (h : r.position addr = some idx) : idx < r.peers.length :=
  (List.findIdx?_eq_some_iff_getElem.mp h).1

/-! ### What parsing promises -/

theorem canonical_new (address : Ipv4Address) {length : UInt8} (h : ¬ length > 32) :
    (Ipv4Prefix.new address length).Canonical := by
  have hmin : min length 32 = length := if_pos (UInt8.not_lt.mp h)
  simp only [Ipv4Prefix.Canonical, Ipv4Prefix.new, hmin, Ipv4Prefix.mk.injEq, and_true]
  exact Ipv4Address.mask_mask _ _

theorem canonical_decodeList {subcode : UInt8} {data : List UInt8} {out : List Ipv4Prefix}
    (h : Ipv4Prefix.decodeList subcode data = .ok out) : ∀ p ∈ out, p.Canonical := by
  fun_induction Ipv4Prefix.decodeList subcode data generalizing out with
  | case1 =>
    cases h
    simp
  | case2 => simp at h
  | case3 => simp at h
  | case4 bits rest hbits =>
    rename_i ih
    simp only [Checked.bind_eq_ok, Checked.ok.injEq] at h
    obtain ⟨addr, -, out, hout, rfl⟩ := h
    rw [List.forall_mem_cons]
    exact ⟨canonical_new _ hbits, ih hout⟩

theorem canonical_parseBody {body : List UInt8} {fourOctetAs : Bool} {u : BgpUpdateMessage}
    (h : BgpUpdateMessage.parseBodyWidth body fourOctetAs = .ok u) : ∀ p ∈ u.nlri, p.Canonical := by
  simp only [BgpUpdateMessage.parseBodyWidth, Checked.bind_def, Checked.ite_error_eq_ok,
    Checked.bind_eq_ok] at h
  obtain ⟨-, a, -, b, -, -, _, -, withdrawn, -, hi, -, lo, -, -, _, -, parsed, -, _, -, nlri, hnlri,
    h⟩ := h
  have hout : u.nlri = nlri := by
    split at h
    · obtain ⟨attributes, -, h⟩ := Checked.bind_eq_ok.mp h
      cases h
      rfl
    · cases h
      rfl
  rw [hout]
  exact canonical_decodeList hnlri

theorem canonical_parse {frame : List UInt8} {fourOctetAs : Bool} {pdu : BgpPdu}
    (h : BgpPdu.parseWidth frame fourOctetAs = .ok pdu) : pdu.Canonical := by
  cases pdu with
  | update u =>
    simp only [BgpPdu.parseWidth, Checked.bind_def, Checked.bind_eq_ok] at h
    obtain ⟨⟨msgType, body⟩, -, h⟩ := h
    dsimp only at h
    split at h
    case h_2 => exact canonical_parseBody (by simpa [Checked.bind_eq_ok] using h)
    case h_4 => split at h <;> simp at h
    all_goals simp [Checked.bind_eq_ok, Checked.ite_error_eq_ok] at h
  | _ => trivial

namespace World

variable {σ : Type} {io : SocketRuntime σ} {w w' : World σ} {idx nowMs : ℕ}

@[simp] theorem router_abort {stream : Option ℕ} : (w.abort io stream nowMs).router = w.router := by
  unfold abort
  split <;> rfl

@[simp] theorem calls_abort {stream : Option ℕ} : (w.abort io stream nowMs).calls = w.calls := by
  unfold abort
  split <;> rfl

theorem reaches_abort {stream : Option ℕ} : Reaches nowMs w (w.abort io stream nowMs) :=
  .quiet (by rw [router_abort]; exact .refl _) calls_abort

theorem reaches_updatePeer_quiet {f : BgpPeer → BgpPeer} (hs : ∀ p, (f p).session = p.session) :
    Reaches nowMs w (w.updatePeer idx f) :=
  .quiet (quiet_updatePeer hs) rfl

theorem reaches_sockets {s : σ} : Reaches nowMs w { w with sockets := s } := .quiet (.refl _) rfl

theorem length_updatePeer {f : BgpPeer → BgpPeer} (h : idx < w.router.peers.length) :
    idx < (w.updatePeer idx f).router.peers.length := by
  simpa [updatePeer] using h

/-! ### The end of a session -/

theorem teardown_reaches (io : SocketRuntime σ) (why : Teardown)
    (hidx : idx < w.router.peers.length) : Reaches nowMs w (w.teardown io idx nowMs why) := by
  have hend : ∀ w₁ : World σ, Speaks w w₁ → Reaches nowMs w
      (let p := w₁.peerAt idx
       let w := (w₁.abort io p.stream nowMs).abort io (p.collision.map CollisionConn.stream) nowMs
       { w.log (.teardown w.router idx why) with
         router := w.router.sessionDown idx nowMs why }) := by
    intro w₁ hw
    have hidx₁ : idx < w₁.router.peers.length := by rwa [hw.talks.length]
    refine hw.talks.reaches.trans (.single [.teardown w₁.router idx why] ?_ ?_)
    · simp only [router_abort]
      exact .torn hidx₁
    · simp [log]
  unfold teardown
  split
  · split
    · exact hend _ (sendPdu_speaks trivial)
    · exact hend w (.refl w)
  · exact hend w (.refl w)

/-! ### Connections -/

theorem reaches_moved {f : BgpPeer → BgpPeer} (hidx : idx < w.router.peers.length)
    (h : Moved (w.peerAt idx) (f (w.peerAt idx))) : Reaches nowMs w (w.updatePeer idx f) :=
  .step (.moved hidx h) rfl

theorem ensureListener_reaches : Reaches nowMs w (w.ensureListener io) := by
  unfold ensureListener
  split
  · exact .refl w
  · exact .quiet ⟨rfl, rfl, rfl, rfl, rfl, rfl⟩ rfl

theorem acceptOne_reaches {stream : ℕ} {remote : Ipv4Address} :
    Reaches nowMs w (w.acceptOne io nowMs stream remote) := by
  unfold acceptOne
  split
  · exact reaches_abort
  · rename_i idx hpos
    simp only
    split
    · exact reaches_abort
    · split
      · rename_i h
        apply reaches_moved (BgpRouter.position_lt hpos)
        refine ⟨rfl, rfl, rfl, ?_, .inl rfl⟩
        rcases h.2 with hs | hs <;> simp [hs]
      · split
        · exact reaches_updatePeer_quiet fun _ => rfl
        · exact reaches_abort

theorem acceptLoop_reaches {listener n : ℕ} :
    Reaches nowMs w (acceptLoop io nowMs listener n w) := by
  induction n generalizing w with
  | zero => exact .refl w
  | succ n ih =>
    unfold acceptLoop
    split
    · exact reaches_sockets
    · exact (reaches_sockets.trans acceptOne_reaches).trans ih

theorem acceptInbound_reaches : Reaches nowMs w (w.acceptInbound io nowMs) := by
  unfold acceptInbound
  split
  · exact .refl w
  · exact acceptLoop_reaches

theorem dropCollision_reaches {stream : ℕ} :
    Reaches nowMs w (w.dropCollision io idx stream nowMs) := by
  unfold dropCollision
  refine Reaches.trans ?_ reaches_abort
  exact reaches_updatePeer_quiet fun _ => rfl

theorem adoptCollision_reaches {c : CollisionConn} (hidx : idx < w.router.peers.length) :
    Reaches nowMs w (w.adoptCollision io idx nowMs c) := by
  refine .single [.adopt w.router idx] ?_ ?_
  · simp only [adoptCollision, log, updatePeer, router_abort]
    exact .adopted hidx ⟨rfl, rfl, rfl, rfl⟩
  · simp [adoptCollision, log, updatePeer]

theorem resolveCollision_reaches {remoteId : Ipv4Address} (hidx : idx < w.router.peers.length) :
    Reaches nowMs w (w.resolveCollision io idx nowMs remoteId) := by
  unfold resolveCollision
  split
  · exact .refl w
  · split
    · exact dropCollision_reaches
    · exact adoptCollision_reaches hidx

theorem serviceCollision_reaches (hidx : idx < w.router.peers.length) :
    Reaches nowMs w (w.serviceCollision io idx nowMs) := by
  unfold serviceCollision
  split
  · exact .refl w
  · rename_i c _
    split
    · exact dropCollision_reaches
    · split
      · rename_i framer live sockets _
        have hread : Reaches nowMs w ({ w with sockets }.updatePeer idx fun p =>
            { p with collision := some { c with framer } }) :=
          reaches_sockets.trans (reaches_updatePeer_quiet fun _ => rfl)
        simp only
        split
        · exact hread
        · split
          · exact hread.trans (resolveCollision_reaches (length_updatePeer hidx))
          · exact hread.trans dropCollision_reaches
        · exact hread.trans dropCollision_reaches
      · exact reaches_sockets.trans dropCollision_reaches

/-! ### Sessions on their way up -/

theorem dial_reaches (hidx : idx < w.router.peers.length)
    (hstate : (w.peerAt idx).state ≠ .established) : Reaches nowMs w (w.dial io idx nowMs) := by
  unfold dial
  simp only
  split
  · refine reaches_sockets.trans (reaches_moved hidx ⟨rfl, rfl, rfl, hstate, .inr (.inl rfl)⟩)
  · refine reaches_sockets.trans (reaches_moved hidx ⟨rfl, rfl, rfl, hstate, .inl rfl⟩)

theorem startPeer_reaches (hidx : idx < w.router.peers.length)
    (hstate : (w.peerAt idx).state ≠ .established) :
    Reaches nowMs w (w.startPeer io idx nowMs) := by
  unfold startPeer
  split
  · exact .refl w
  · split
    · exact reaches_moved hidx ⟨rfl, rfl, rfl, hstate, .inl rfl⟩
    · exact dial_reaches hidx hstate

theorem sendOpen_reaches (hidx : idx < w.router.peers.length)
    (hstate : (w.peerAt idx).state ≠ .established) (hstream : (w.peerAt idx).stream.isSome) :
    Reaches nowMs w (w.sendOpen io idx nowMs) := by
  unfold sendOpen
  simp only
  split
  · rename_i w' hs
    exact (sendPdu_false hs).talks.reaches
  · rename_i w' hs
    obtain ⟨hr, hc⟩ := sendPdu_true hs
    have hsent : Reaches nowMs w w' := by
      refine .single [_] (.talk ?_) hc
      rw [hr]
      exact .sent fun _ => trivial
    have hpeer : w'.peerAt idx = w.peerAt idx := by simp [peerAt, hr]
    refine hsent.trans (reaches_moved (by rwa [hr]) ⟨rfl, rfl, rfl, by rwa [hpeer], ?_⟩)
    exact .inr (.inr ⟨rfl, by simpa [hpeer] using hstream⟩)

theorem progressTransport_reaches (hidx : idx < w.router.peers.length)
    (hstate : (w.peerAt idx).state ≠ .established) :
    Reaches nowMs w (w.progressTransport io idx nowMs) := by
  unfold progressTransport
  simp only
  split
  · rename_i stream hstream
    split
    · exact sendOpen_reaches hidx hstate (by simp [hstream])
    · split
      · exact teardown_reaches io _ hidx
      · exact .refl w
  · split
    · exact dial_reaches hidx hstate
    · split
      · exact reaches_updatePeer_quiet fun _ => rfl
      · exact .refl w

/-! ### Import -/

/-- A run that leaves the session of a peer up. -/
structure Up (nowMs idx : ℕ) (w w' : World σ) : Prop where
  reaches : Reaches nowMs w w'
  inRange : idx < w.router.peers.length
  state : (w'.peerAt idx).state = .established

theorem Up.refl (hidx : idx < w.router.peers.length)
    (hstate : (w.peerAt idx).state = .established) : Up nowMs idx w w :=
  ⟨.refl w, hidx, hstate⟩

theorem Up.trans {w₁ w₂ w₃ : World σ} (h : Up nowMs idx w₁ w₂) (h' : Up nowMs idx w₂ w₃) :
    Up nowMs idx w₁ w₃ :=
  ⟨h.reaches.trans h'.reaches, h.inRange, h'.state⟩

theorem Up.inRange' (h : Up nowMs idx w w') : idx < w'.router.peers.length := by
  rw [h.reaches.length]
  exact h.inRange

section import_

variable (hidx : idx < w.router.peers.length) (hstate : (w.peerAt idx).state = .established)

include hidx hstate

theorem receiveIpv4_up {path : BgpPath} (htime : path.receivedAtMs = nowMs)
    (hpeer : path.peerAddr = (w.peerAt idx).addr) (hcanon : path.pfx.Canonical) :
    Up nowMs idx w (w.receiveIpv4 idx path) := by
  refine ⟨?_, hidx, ?_⟩
  · have hstored : Reaches nowMs w { w.log (.store w.router idx (.ipv4 path)) with
        router := { w.router with ipv4 := w.router.ipv4.receive (w.peerAt idx).addr path } } :=
      .single [_] (.storedIpv4 hidx hstate htime hpeer hcanon) rfl
    refine hstored.trans (.step (.talk (.refreshed hidx ?_)) rfl)
    exact ⟨rfl, rfl, rfl, rfl, hstate, fun _ => .inl rfl⟩
  · simpa [receiveIpv4, peerAt, BgpRouter.peerAt, BgpRouter.updatePeer, hidx] using hstate

theorem receiveIpv6_up {path : Ipv6Path} (htime : path.receivedAtMs = nowMs)
    (hpeer : path.peerAddr = (w.peerAt idx).addr) : Up nowMs idx w (w.receiveIpv6 idx path) := by
  refine ⟨?_, hidx, ?_⟩
  · have hstored : Reaches nowMs w { w.log (.store w.router idx (.ipv6 path)) with
        router := { w.router with ipv6 := w.router.ipv6.receive (w.peerAt idx).addr path } } :=
      .single [_] (.storedIpv6 hidx hstate htime hpeer) rfl
    refine hstored.trans (.step (.talk (.refreshed hidx ?_)) rfl)
    exact ⟨rfl, rfl, rfl, rfl, hstate, fun _ => .inl rfl⟩
  · simpa [receiveIpv6, peerAt, BgpRouter.peerAt, BgpRouter.updatePeer, hidx] using hstate

theorem receiveEvpn_up {path : EvpnPath} (htime : path.receivedAtMs = nowMs)
    (hpeer : path.peerAddr = (w.peerAt idx).addr)
    (hstamp : path.importable = path.route.matchesImport w.router.importRts)
    (hlearned : path.isLocal = false) : Up nowMs idx w (w.receiveEvpn idx path) := by
  refine ⟨?_, hidx, ?_⟩
  · have hstored : Reaches nowMs w { w.log (.store w.router idx (.evpn path)) with
        router := { w.router with evpn := w.router.evpn.receive (w.peerAt idx).addr path } } :=
      .single [_] (.storedEvpn hidx hstate htime hpeer hstamp hlearned) rfl
    refine hstored.trans (.step (.talk (.refreshed hidx ?_)) rfl)
    exact ⟨rfl, rfl, rfl, rfl, hstate, fun _ => .inl rfl⟩
  · simpa [receiveEvpn, peerAt, BgpRouter.peerAt, BgpRouter.updatePeer, hidx] using hstate

theorem withdrawIpv4_up {ks : List Ipv4Prefix} : Up nowMs idx w (w.withdrawIpv4 idx ks) :=
  ⟨.step (.droppedIpv4 _ _) rfl, hidx, hstate⟩

theorem withdrawIpv6_up {ks : List Ipv6Prefix} : Up nowMs idx w (w.withdrawIpv6 idx ks) :=
  ⟨.step (.droppedIpv6 _ _) rfl, hidx, hstate⟩

theorem withdrawEvpn_up {ks : List EvpnRouteKey} : Up nowMs idx w (w.withdrawEvpn idx ks) :=
  ⟨.step (.droppedEvpn _ _) rfl, hidx, hstate⟩

theorem importPrefixes_up {attrs : BgpPathAttributes} {pfxs : List Ipv4Prefix}
    (hcanon : ∀ p ∈ pfxs, p.Canonical) :
    Up nowMs idx w (importPrefixes idx nowMs attrs pfxs w).1 := by
  induction pfxs generalizing w with
  | nil => exact .refl hidx hstate
  | cons pfx rest ih =>
    have hrest : ∀ p ∈ rest, p.Canonical := fun p hp => hcanon p (List.mem_cons_of_mem _ hp)
    unfold importPrefixes
    split
    · exact ih hidx hstate hrest
    · split
      · have hfirst : Up nowMs idx w (w.withdrawIpv4 idx [pfx]) := withdrawIpv4_up hidx hstate
        exact hfirst.trans (ih hfirst.inRange' hfirst.state hrest)
      · rename_i lp med _
        have hfirst : Up nowMs idx w
            (w.receiveIpv4 idx (w.router.ipv4Path idx nowMs attrs lp med pfx)) :=
          receiveIpv4_up hidx hstate rfl rfl (hcanon pfx List.mem_cons_self)
        simp only
        split
        · exact hfirst
        · exact hfirst.trans (ih hfirst.inRange' hfirst.state hrest)

theorem importUpdate_up {update : BgpUpdateMessage} (hcanon : ∀ p ∈ update.nlri, p.Canonical) :
    Up nowMs idx w (w.importUpdate idx nowMs update).1 := by
  have hfirst : Up nowMs idx w (w.withdrawIpv4 idx update.withdrawn) := withdrawIpv4_up hidx hstate
  unfold importUpdate
  simp only
  split
  · exact hfirst
  · repeat' split
    all_goals first
      | exact hfirst
      | exact hfirst.trans (importPrefixes_up hfirst.inRange' hfirst.state hcanon)

theorem importIpv6Prefixes_up {attrs : BgpPathAttributes} {nextHop : Ipv6Address}
    {pfxs : List Ipv6Prefix} :
    Up nowMs idx w (importIpv6Prefixes idx nowMs attrs nextHop pfxs w).1 := by
  induction pfxs generalizing w with
  | nil => exact .refl hidx hstate
  | cons pfx rest ih =>
    unfold importIpv6Prefixes
    split
    · exact ih hidx hstate
    · have hfirst : Up nowMs idx w
          (w.receiveIpv6 idx (w.router.ipv6Path idx nowMs attrs nextHop pfx)) :=
        receiveIpv6_up hidx hstate rfl rfl
      simp only
      split
      · exact hfirst
      · exact hfirst.trans (ih hfirst.inRange' hfirst.state)

theorem importIpv6MpUpdate_up {update : BgpUpdateMessage} :
    Up nowMs idx w (w.importIpv6MpUpdate idx nowMs update).1 := by
  have hgone : Up nowMs idx w (w.importIpv6Withdrawals idx update).1 := by
    unfold importIpv6Withdrawals
    repeat' split
    all_goals first
      | exact .refl hidx hstate
      | exact withdrawIpv6_up hidx hstate
  unfold importIpv6MpUpdate
  split
  · exact .refl hidx hstate
  · split
    · rename_i h
      rwa [h] at hgone
    · rename_i w' h
      rw [h] at hgone
      refine hgone.trans ?_
      have hself : Up nowMs idx w' w' := .refl hgone.inRange' hgone.state
      unfold importIpv6Announcements
      repeat' split
      all_goals first
        | exact hself
        | exact importIpv6Prefixes_up hgone.inRange' hgone.state

theorem importEvpnRoutes_up {attrs : BgpPathAttributes} {nextHop : Ipv4Address} {retainAll : Bool}
    {nlri : List EvpnNlri} :
    Up nowMs idx w (importEvpnRoutes idx nowMs attrs nextHop retainAll nlri w).1 := by
  induction nlri generalizing w with
  | nil => exact .refl hidx hstate
  | cons n rest ih =>
    unfold importEvpnRoutes
    simp only
    split
    · have hfirst : Up nowMs idx w
          (w.withdrawEvpn idx [(BgpRouter.evpnRouteOf attrs nextHop n).key]) :=
        withdrawEvpn_up hidx hstate
      exact hfirst.trans (ih hfirst.inRange' hfirst.state)
    · have hfirst : Up nowMs idx w (w.receiveEvpn idx (w.router.evpnPath idx nowMs attrs
          (BgpRouter.evpnRouteOf attrs nextHop n))) :=
        receiveEvpn_up hidx hstate rfl rfl rfl rfl
      split
      · exact hfirst
      · exact hfirst.trans (ih hfirst.inRange' hfirst.state)

theorem importMpUpdate_up {update : BgpUpdateMessage} :
    Up nowMs idx w (w.importMpUpdate idx nowMs update).1 := by
  have hipv6 : Up nowMs idx w (w.importIpv6MpUpdate idx nowMs update).1 :=
    importIpv6MpUpdate_up hidx hstate
  unfold importMpUpdate
  split
  · exact .refl hidx hstate
  · split
    · rename_i h
      rwa [h] at hipv6
    · rename_i w₁ h
      rw [h] at hipv6
      refine hipv6.trans ?_
      have hgone : Up nowMs idx w₁ (w₁.importEvpnWithdrawals idx update).1 := by
        unfold importEvpnWithdrawals
        repeat' split
        all_goals first
          | exact .refl hipv6.inRange' hipv6.state
          | exact withdrawEvpn_up hipv6.inRange' hipv6.state
      split
      · rename_i h
        rwa [h] at hgone
      · rename_i w₂ h
        rw [h] at hgone
        refine hgone.trans ?_
        have hself : Up nowMs idx w₂ w₂ := .refl hgone.inRange' hgone.state
        unfold importEvpnAnnouncements
        repeat' split
        all_goals first
          | exact hself
          | exact importEvpnRoutes_up hgone.inRange' hgone.state

theorem complete_up {family : AfiSafi} :
    Up nowMs idx w (w.withRouter fun r => r.completeGracefulRestartFamily idx family) := by
  refine ⟨.step (.completed hidx hstate) rfl, hidx, ?_⟩
  simp only [peerAt, withRouter]
  by_cases h : (w.router.peerAt idx).gracefulRestartStale.contains family
  · obtain ⟨r₁, hpurged, hr₁⟩ := BgpRouter.retired_complete hidx h
    rw [hr₁, BgpRouter.peerAt_updatePeer (by rwa [hpurged.peers]), hpurged.peerAt]
    simpa [BgpPeer.setRestart, peerAt] using hstate
  · simpa [BgpRouter.completeGracefulRestartFamily, h, peerAt] using hstate

theorem completeEach_up {families : List AfiSafi} : Up nowMs idx w (w.withRouter fun r =>
    families.foldl (fun r family => r.completeGracefulRestartFamily idx family) r) := by
  induction families generalizing w with
  | nil => exact .refl hidx hstate
  | cons family rest ih =>
    have hfirst : Up nowMs idx w (w.withRouter fun r =>
      r.completeGracefulRestartFamily idx family) :=
      complete_up hidx hstate
    exact hfirst.trans (ih hfirst.inRange' hfirst.state)

theorem handleUpdate_up {update : BgpUpdateMessage} (hcanon : ∀ p ∈ update.nlri, p.Canonical) :
    Up nowMs idx w (w.handleUpdate idx nowMs update).1 := by
  have hmp : Up nowMs idx w (w.importMpUpdate idx nowMs update).1 := importMpUpdate_up hidx hstate
  unfold handleUpdate
  split
  · rename_i h
    rwa [h] at hmp
  · rename_i w₁ h
    rw [h] at hmp
    have hv4 : Up nowMs idx w₁ (w₁.importUpdate idx nowMs update).1 :=
      importUpdate_up hmp.inRange' hmp.state hcanon
    refine hmp.trans ?_
    split
    · rename_i h
      rwa [h] at hv4
    · rename_i w₂ h
      rw [h] at hv4
      exact hv4.trans (completeEach_up hv4.inRange' hv4.state)

omit hstate in
theorem reaches_refreshed {f : BgpPeer → BgpPeer}
    (h : Refreshed (w.peerAt idx) (f (w.peerAt idx))) : Reaches nowMs w (w.updatePeer idx f) :=
  .step (.talk (.refreshed hidx h)) rfl

theorem beginEnhancedRefreshInbound_reaches {family : AfiSafi} :
    Reaches nowMs w (w.withRouter fun r => r.beginEnhancedRefreshInbound idx family) := by
  have hinbound : Reaches nowMs w (w.updatePeer idx fun p =>
      { p with enhancedRefreshInbound := p.enhancedRefreshInbound.insert family }) :=
    reaches_refreshed hidx ⟨rfl, rfl, rfl, rfl, hstate, fun _ => .inl rfl⟩
  unfold withRouter BgpRouter.beginEnhancedRefreshInbound
  by_cases h4 : family = .ipv4Unicast
  · simp only [if_pos h4, BgpRouter.updatePeer_updatePeer]
    exact reaches_refreshed hidx ⟨rfl, rfl, rfl, rfl, hstate, fun _ => .inl rfl⟩
  · by_cases h6 : family = .ipv6Unicast
    · simp only [if_neg h4, if_pos h6, BgpRouter.updatePeer_updatePeer]
      exact reaches_refreshed hidx ⟨rfl, rfl, rfl, rfl, hstate, fun _ => .inl rfl⟩
    · by_cases he : family = .l2vpnEvpn
      · simp only [if_neg h4, if_neg h6, if_pos he, BgpRouter.updatePeer_updatePeer]
        exact reaches_refreshed hidx ⟨rfl, rfl, rfl, rfl, hstate, fun _ => .inl rfl⟩
      · simp only [if_neg h4, if_neg h6, if_neg he]
        exact hinbound

theorem completeEnhancedRefreshInbound_reaches {family : AfiSafi} :
    Reaches nowMs w (w.withRouter fun r => r.completeEnhancedRefreshInbound idx family) := by
  unfold withRouter BgpRouter.completeEnhancedRefreshInbound
  simp only
  split
  · exact .refl w
  · by_cases h4 : family = .ipv4Unicast
    · simp only [if_pos h4, BgpRouter.updatePeer_updatePeer]
      have hmarks : Reaches nowMs w (w.updatePeer idx fun p =>
          { p with
            enhancedRefreshInbound := p.enhancedRefreshInbound.erase family
            enhancedRefreshStaleIpv4 := ∅ }) :=
        reaches_refreshed hidx ⟨rfl, rfl, rfl, rfl, hstate, fun _ => .inl rfl⟩
      exact hmarks.trans (.step (.droppedIpv4 _ _) rfl)
    · by_cases h6 : family = .ipv6Unicast
      · simp only [if_neg h4, if_pos h6, BgpRouter.updatePeer_updatePeer]
        have hmarks : Reaches nowMs w (w.updatePeer idx fun p =>
            { p with
              enhancedRefreshInbound := p.enhancedRefreshInbound.erase family
              enhancedRefreshStaleIpv6 := ∅ }) :=
          reaches_refreshed hidx ⟨rfl, rfl, rfl, rfl, hstate, fun _ => .inl rfl⟩
        exact hmarks.trans (.step (.droppedIpv6 _ _) rfl)
      · by_cases he : family = .l2vpnEvpn
        · simp only [if_neg h4, if_neg h6, if_pos he, BgpRouter.updatePeer_updatePeer]
          have hmarks : Reaches nowMs w (w.updatePeer idx fun p =>
              { p with
                enhancedRefreshInbound := p.enhancedRefreshInbound.erase family
                enhancedRefreshStaleEvpn := ∅ }) :=
            reaches_refreshed hidx ⟨rfl, rfl, rfl, rfl, hstate, fun _ => .inl rfl⟩
          exact hmarks.trans (.step (.droppedEvpn _ _) rfl)
        · simp only [if_neg h4, if_neg h6, if_neg he]
          exact reaches_refreshed hidx ⟨rfl, rfl, rfl, rfl, hstate, fun _ => .inl rfl⟩

theorem handleRouteRefresh_reaches {refresh : BgpRouteRefreshMessage} :
    Reaches nowMs w (w.withRouter fun r => r.handleRouteRefresh idx refresh) := by
  unfold withRouter BgpRouter.handleRouteRefresh
  simp only
  split
  · exact .refl w
  · split
    · refine reaches_refreshed hidx ⟨rfl, rfl, rfl, rfl, hstate, fun F => ?_⟩
      simp only
      split
      · rw [Std.TreeMap.getElem?_insert]
        split
        · exact .inr rfl
        · exact .inl rfl
      · exact .inl rfl
    · exact beginEnhancedRefreshInbound_reaches hidx hstate
    · exact completeEnhancedRefreshInbound_reaches hidx hstate
    · exact .refl w

end import_

/-! ### Messages -/

theorem armHoldTimer_reaches : Reaches nowMs w (w.withRouter fun r => r.armHoldTimer idx nowMs) :=
  .quiet (quiet_updatePeer fun _ => rfl) rfl

theorem armKeepaliveTimer_reaches :
    Reaches nowMs w (w.withRouter fun r => r.armKeepaliveTimer idx nowMs) :=
  .quiet (quiet_updatePeer fun _ => rfl) rfl

/-- After the peer's OPEN, what is still retained has a cutoff. -/
theorem reconcile_peerAt {r : BgpRouter} {negotiated : NegotiatedCapabilities}
    {peerCaps : BgpCapabilitySet} (hidx : idx < r.peers.length) :
    ((r.reconcileGracefulRestartOpen idx nowMs negotiated peerCaps).peerAt idx).state =
        (r.peerAt idx).state ∧
      (((r.reconcileGracefulRestartOpen idx nowMs negotiated peerCaps).peerAt
        idx).gracefulRestartActive
        → ((r.reconcileGracefulRestartOpen idx nowMs negotiated peerCaps).peerAt
          idx).gracefulRestartRefreshStartedMs.isSome) := by
  by_cases h : (r.peerAt idx).gracefulRestartActive
  · obtain ⟨left, -, r₁, hpurged, hr₁⟩ : BgpRouter.Reconciled r idx nowMs _ _ :=
      BgpRouter.reconciled_reconcile negotiated peerCaps hidx h
    rw [hr₁, BgpRouter.peerAt_updatePeer (by rwa [hpurged.peers]), hpurged.peerAt, if_pos rfl]
    refine ⟨rfl, ?_⟩
    intro hactive
    by_cases hleft : left.isEmpty
    · simp [BgpPeer.gracefulRestartActive, BgpPeer.setRestart, hleft] at hactive
    · simp [BgpPeer.setRestart, hleft]
  · simp [BgpRouter.reconcileGracefulRestartOpen, h]

theorem openNegotiated_reaches {o : BgpOpenMessage} {peerCaps : BgpCapabilitySet}
    (hidx : idx < w.router.peers.length) (hstate : (w.peerAt idx).state = .openSent) :
    Reaches nowMs w (w.openNegotiated idx nowMs o peerCaps) := by
  have hreconciled : Reaches nowMs w ((w.log (.reconcile w.router idx nowMs
      (BgpRouter.familiesKept (negotiate w.router.localCapabilities peerCaps) peerCaps))).withRouter
      fun r => r.reconcileGracefulRestartOpen idx nowMs
        (negotiate w.router.localCapabilities peerCaps) peerCaps) :=
    .single [_] (.reconciled hidx hstate) rfl
  exact hreconciled.trans (.quiet (quiet_updatePeer fun _ => rfl) rfl)

theorem openNegotiated_peerAt (o : BgpOpenMessage) (peerCaps : BgpCapabilitySet) (nowMs : ℕ)
    (hidx : idx < w.router.peers.length) :
    ((w.openNegotiated idx nowMs o peerCaps).peerAt idx).state = (w.peerAt idx).state ∧
      (((w.openNegotiated idx nowMs o peerCaps).peerAt idx).gracefulRestartActive →
        ((w.openNegotiated idx nowMs o peerCaps).peerAt
          idx).gracefulRestartRefreshStartedMs.isSome) := by
  simp only [peerAt, openNegotiated, withRouter, log]
  have hlen : idx < (w.router.reconcileGracefulRestartOpen idx nowMs
      (negotiate w.router.localCapabilities peerCaps) peerCaps).peers.length := by
    rwa [length_reconcile hidx]
  rw [BgpRouter.peerAt_updatePeer hlen, if_pos rfl]
  exact reconcile_peerAt hidx

theorem confirmOpen_reaches (hidx : idx < w.router.peers.length)
    (hstate : (w.peerAt idx).state = .openSent)
    (hcutoff : (w.peerAt idx).gracefulRestartActive →
      (w.peerAt idx).gracefulRestartRefreshStartedMs.isSome) :
    Reaches nowMs w (w.confirmOpen io idx nowMs).1 := by
  have hsent : Speaks w (w.sendPdu io idx .keepalive).2 := sendPdu_speaks trivial
  unfold confirmOpen
  split
  · rename_i hs
    rw [hs] at hsent
    exact hsent.talks.reaches
  · rename_i w' hs
    rw [hs] at hsent
    obtain ⟨hr, -⟩ := sendPdu_true hs
    have hconfirmed : Reaches nowMs w' (w'.updatePeer idx fun p =>
      { p with state := .openConfirm }) :=
      .step (.confirmed (by rwa [hr]) (by rwa [hr]) (by rwa [hr])) rfl
    exact (hsent.talks.reaches.trans hconfirmed).trans
      (armHoldTimer_reaches.trans armKeepaliveTimer_reaches)

theorem handleOpen_reaches {o : BgpOpenMessage} (hidx : idx < w.router.peers.length)
    (hstate : (w.peerAt idx).state = .openSent) :
    Reaches nowMs w (w.handleOpen io idx nowMs o).1 := by
  unfold handleOpen
  split
  · exact .refl w
  · exact .refl w
  · rename_i peerCaps _
    split
    · exact .refl w
    · have hopen : Reaches nowMs w (w.openNegotiated idx nowMs o peerCaps) :=
        openNegotiated_reaches hidx hstate
      obtain ⟨hsame, hcutoff⟩ := openNegotiated_peerAt o peerCaps nowMs hidx
      exact hopen.trans (confirmOpen_reaches (by rwa [hopen.length]) (hsame.trans hstate) hcutoff)

theorem handlePdu_reaches {pdu : BgpPdu} (hcanon : pdu.Canonical)
    (hidx : idx < w.router.peers.length) : Reaches nowMs w (w.handlePdu io idx nowMs pdu).1 := by
  unfold handlePdu
  simp only
  have harmed : Reaches nowMs w (if (w.peerAt idx).state = .established ∨
      (w.peerAt idx).state = .openConfirm then w.withRouter fun r => r.armHoldTimer idx nowMs
      else w) := by
    split
    · exact armHoldTimer_reaches
    · exact .refl w
  have hsame : ((if (w.peerAt idx).state = .established ∨ (w.peerAt idx).state = .openConfirm then
      w.withRouter fun r => r.armHoldTimer idx nowMs else w).peerAt idx).state =
        (w.peerAt idx).state := by
    split
    · simp [peerAt, withRouter, BgpRouter.armHoldTimer, BgpRouter.peerAt_updatePeer hidx]
    · rfl
  generalize (if (w.peerAt idx).state = .established ∨ (w.peerAt idx).state = .openConfirm then
      w.withRouter fun r => r.armHoldTimer idx nowMs else w) = w₁ at harmed hsame ⊢
  refine harmed.trans ?_
  have hidx₁ : idx < w₁.router.peers.length := by rwa [harmed.length]
  split
  · rename_i hstate
    exact handleOpen_reaches hidx₁ (hsame.trans hstate)
  · rename_i hstate
    exact .single [_] (.established hidx₁ (hsame.trans hstate)) rfl
  · exact .refl w₁
  · rename_i hstate
    exact (handleUpdate_up hidx₁ (hsame.trans hstate) hcanon).reaches
  · rename_i hstate
    exact handleRouteRefresh_reaches hidx₁ (hsame.trans hstate)
  · exact .refl w₁
  · exact .refl w₁

theorem handleFrames_reaches {n : ℕ} (hidx : idx < w.router.peers.length) :
    Reaches nowMs w (handleFrames io idx nowMs n w).1 := by
  induction n generalizing w with
  | zero => exact .refl w
  | succ n ih =>
    unfold handleFrames
    split
    · dsimp only
      exact teardown_reaches io _ hidx
    · exact .refl w
    · exact .refl w
    · rename_i frame framer _
      have hnext : Reaches nowMs w (w.updatePeer idx fun p => { p with framer }) :=
        reaches_updatePeer_quiet fun _ => rfl
      have hidx₁ : idx < (w.updatePeer idx fun p => { p with framer }).router.peers.length :=
        length_updatePeer hidx
      simp only
      refine hnext.trans ?_
      generalize (w.updatePeer idx fun p => { p with framer }) = w₁ at hidx₁ ⊢
      split
      · exact ih hidx₁
      · dsimp only
        exact teardown_reaches io _ hidx₁
      · split
        · dsimp only
          exact teardown_reaches io _ hidx₁
        · exact .refl w₁
        · rename_i pdu hparse
          have hpdu : Reaches nowMs w₁ (w₁.handlePdu io idx nowMs pdu).1 :=
            handlePdu_reaches (canonical_parse hparse) hidx₁
          split
          · rename_i w₂ t h
            rw [h] at hpdu
            dsimp only
            exact hpdu.trans (teardown_reaches io _ (by rwa [hpdu.length]))
          · rename_i w₂ h
            rw [h] at hpdu
            exact hpdu.trans (ih (by rwa [hpdu.length]))

theorem runTimers_reaches (hidx : idx < w.router.peers.length) :
    Reaches nowMs w (w.runTimers io idx nowMs) := by
  unfold runTimers
  simp only
  split
  · exact teardown_reaches io _ hidx
  · split
    · have hsent : Speaks w (w.sendPdu io idx .keepalive).2 := sendPdu_speaks trivial
      exact hsent.talks.reaches.trans armKeepaliveTimer_reaches
    · exact .refl w

theorem readStream_reaches : Reaches nowMs w (w.readStream io idx).2 := by
  unfold readStream
  split
  · exact .refl w
  · split
    · exact reaches_sockets.trans (reaches_updatePeer_quiet fun _ => rfl)
    · exact reaches_sockets
    · exact reaches_sockets

theorem runSession_reaches (hidx : idx < w.router.peers.length) :
    Reaches nowMs w (w.runSession io idx nowMs) := by
  have hread : Reaches nowMs w (w.readStream io idx).2 := readStream_reaches
  unfold runSession
  split
  · rename_i w₁ h
    rw [h] at hread
    exact hread.trans (teardown_reaches io _ (by rwa [hread.length]))
  · rename_i w₁ h
    rwa [h] at hread
  · rename_i live w₁ h
    rw [h] at hread
    have hidx₁ : idx < w₁.router.peers.length := by rwa [hread.length]
    have hframes : Reaches nowMs w₁
        (handleFrames io idx nowMs ((w₁.peerAt idx).framer.buf.length + 1) w₁).1 :=
      handleFrames_reaches hidx₁
    refine hread.trans ?_
    split
    · rename_i w₂ h
      rwa [h] at hframes
    · rename_i w₂ h
      rw [h] at hframes
      have hidx₂ : idx < w₂.router.peers.length := by rwa [hframes.length]
      refine hframes.trans ?_
      split
      · exact teardown_reaches io _ hidx₂
      · exact runTimers_reaches hidx₂

theorem servicePeer_reaches (hidx : idx < w.router.peers.length) :
    Reaches nowMs w (w.servicePeer io idx nowMs) := by
  unfold servicePeer
  split
  · split
    · exact teardown_reaches io _ hidx
    · exact .refl w
  · split
    · exact teardown_reaches io _ hidx
    · have hcollision : Reaches nowMs w (w.serviceCollision io idx nowMs) :=
        serviceCollision_reaches hidx
      simp only
      generalize w.serviceCollision io idx nowMs = w₁ at hcollision ⊢
      have hidx₁ : idx < w₁.router.peers.length := by rwa [hcollision.length]
      refine hcollision.trans ?_
      split
      · exact teardown_reaches io _ hidx₁
      · split
        · rename_i hstate
          exact startPeer_reaches hidx₁ (by simp [hstate])
        · rename_i hstate
          exact progressTransport_reaches hidx₁ (by simp [hstate])
        · rename_i hstate
          exact progressTransport_reaches hidx₁ (by simp [hstate])
        · exact runSession_reaches hidx₁
        · exact runSession_reaches hidx₁
        · exact runSession_reaches hidx₁

/-! ### The pump and the calls from outside -/

theorem quiet_clearEorPending {r : BgpRouter} : Quiet r r.clearEorPending :=
  ⟨by simp [BgpRouter.clearEorPending, Function.comp_def, BgpPeer.session, BgpPeer.refresh,
    BgpPeer.restart], rfl, rfl, rfl, rfl, rfl⟩

theorem quiet_expireLocal {r : BgpRouter} : Quiet r (r.expireLocalGracefulRestart nowMs) := by
  unfold BgpRouter.expireLocalGracefulRestart
  split
  · exact .refl r
  · refine Quiet.trans ?_ quiet_clearEorPending
    exact ⟨rfl, rfl, rfl, rfl, rfl, rfl⟩

theorem session_oweEor {family : AfiSafi} {p : BgpPeer} :
    (BgpRouter.oweEor family p).session = p.session := by
  unfold BgpRouter.oweEor
  split <;> rfl

theorem quiet_markRecovered {r : BgpRouter} {family : AfiSafi} :
    Quiet r (r.markGracefulRestartFamilyRecovered family) := by
  unfold BgpRouter.markGracefulRestartFamilyRecovered
  split
  · exact .refl r
  · refine Quiet.trans ?_ quiet_maybeFinish
    exact ⟨by simp [Function.comp_def, session_oweEor], rfl, rfl, rfl, rfl, rfl⟩

theorem expireGracefulRestarts_reaches :
    Reaches nowMs w (w.withRouter fun r => r.expireGracefulRestarts nowMs) := by
  have hfold : ∀ (idxs : List ℕ) (w : World σ), (∀ idx ∈ idxs, idx < w.router.peers.length) →
      Reaches nowMs w (w.withRouter fun r =>
        idxs.foldl (fun r idx => r.flushGracefulRestart idx) r) := by
    intro idxs
    induction idxs with
    | nil => exact fun w _ => .refl w
    | cons idx rest ih =>
      intro w hidxs
      have hfirst : Reaches nowMs w (w.withRouter fun r => r.flushGracefulRestart idx) :=
        .step (.flushed (hidxs idx List.mem_cons_self)) rfl
      refine hfirst.trans (ih _ fun i hi => ?_)
      rw [hfirst.length]
      exact hidxs i (List.mem_cons_of_mem _ hi)
  exact hfold _ w fun idx h => List.mem_range.mp (List.mem_filter.mp h).1

theorem serviceEach_reaches {idxs : List ℕ} (hidxs : ∀ idx ∈ idxs, idx < w.router.peers.length) :
    Reaches nowMs w (idxs.foldl (fun w idx => w.servicePeer io idx nowMs) w) := by
  induction idxs generalizing w with
  | nil => exact .refl w
  | cons idx rest ih =>
    have hfirst : Reaches nowMs w (w.servicePeer io idx nowMs) :=
      servicePeer_reaches (hidxs idx List.mem_cons_self)
    rw [List.foldl_cons]
    generalize w.servicePeer io idx nowMs = w' at hfirst ⊢
    refine hfirst.trans (ih fun i hi => ?_)
    rw [hfirst.length]
    exact hidxs i (List.mem_cons_of_mem _ hi)

theorem pollSessions_reaches : Reaches nowMs w (w.pollSessions io nowMs) := by
  have hexpire : Reaches nowMs w (w.withRouter fun r => r.expireLocalGracefulRestart nowMs) :=
    .quiet quiet_expireLocal rfl
  have haccept : Reaches nowMs w (((w.withRouter fun r =>
      r.expireLocalGracefulRestart nowMs).ensureListener io).acceptInbound io nowMs) :=
    (hexpire.trans ensureListener_reaches).trans acceptInbound_reaches
  exact (haccept.trans (serviceEach_reaches fun idx h => List.mem_range.mp h)).trans
    expireGracefulRestarts_reaches

theorem decideWhereDirty_reaches :
    Reaches nowMs w (w.withRouter fun r => r.decideWhereDirty nowMs) :=
  .step .decided rfl

/-- A poll is a run. -/
theorem poll_reaches : Reaches nowMs w (w.poll io nowMs) :=
  (pollSessions_reaches.trans decideWhereDirty_reaches).trans pollAdvertise_talks.reaches

theorem shutdownPeer_reaches {addr : Ipv4Address} :
    Reaches nowMs w (w.shutdownPeer io addr nowMs) := by
  unfold shutdownPeer
  split
  · exact .refl w
  · rename_i idx hpos
    have hdown : Reaches nowMs w (w.updatePeer idx fun p => { p with adminUp := false }) :=
      reaches_updatePeer_quiet fun _ => rfl
    have hidx := BgpRouter.position_lt hpos
    have htorn := hdown.trans (teardown_reaches io (.protocol (.new bgpErrCease 0))
      (length_updatePeer hidx))
    exact htorn.trans (reaches_updatePeer_quiet fun _ => rfl)

theorem requestRouteRefresh_reaches {addr : Ipv4Address} {family : AfiSafi} :
    Reaches nowMs w (w.requestRouteRefresh io addr family) := by
  unfold requestRouteRefresh
  split
  · exact .refl w
  · rename_i idx _
    simp only
    split
    · have hsent : Speaks w (w.sendPdu io idx (.routeRefresh ⟨family, .normal⟩)).2 :=
        sendPdu_speaks rfl
      exact hsent.talks.reaches
    · exact .refl w

theorem beginGracefulRestart_reaches : Reaches nowMs w (w.beginGracefulRestart io nowMs) := by
  unfold beginGracefulRestart
  split
  · exact .refl w
  · simp only
    have hbegin : Reaches nowMs w (w.withRouter fun r =>
        { r with
          gracefulRestartRestarting := true
          gracefulRestartRecoveryPending := r.families
          gracefulRestartLocalDeadline :=
            some (nowMs + r.gracefulRestartTime.toNat * 1000) }.clearEorPending) := by
      refine .quiet (Quiet.trans ?_ quiet_clearEorPending) rfl
      exact ⟨rfl, rfl, rfl, rfl, rfl, rfl⟩
    have hfold : ∀ (idxs : List ℕ) (w : World σ), (∀ idx ∈ idxs, idx < w.router.peers.length) →
        Reaches nowMs w (idxs.foldl (fun w idx => w.teardown io idx nowMs .transport) w) := by
      intro idxs
      induction idxs with
      | nil => exact fun w _ => .refl w
      | cons idx rest ih =>
        intro w hidxs
        have hfirst : Reaches nowMs w (w.teardown io idx nowMs .transport) :=
          teardown_reaches io _ (hidxs idx List.mem_cons_self)
        rw [List.foldl_cons]
        generalize w.teardown io idx nowMs .transport = w' at hfirst ⊢
        refine hfirst.trans (ih _ fun i hi => ?_)
        rw [hfirst.length]
        exact hidxs i (List.mem_cons_of_mem _ hi)
    exact hbegin.trans (hfold _ _ fun idx h => List.mem_range.mp (List.mem_filter.mp h).1)

end World

end ToyTcpip.Bgp
