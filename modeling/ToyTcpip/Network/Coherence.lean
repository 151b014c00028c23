import ToyTcpip.Network.ReceiveSide
import ToyTcpip.Tcp.Replies

/-! What one side acknowledges it has received, and what the other takes as acknowledged. -/
namespace ToyTcpip.Network

open Tcp Serial

/-- How much of the peer's sequence space has been received: the SYN, the bytes and the FIN. -/
def Endpoint.heard {ρ : Type} (e : Endpoint ρ) : ℕ :=
  if e.synced then 1 + e.delivered.length + if e.conn.finReceived then 1 else 0 else 0

theorem Endpoint.read_views {ρ : Type} (e : Endpoint ρ) (len : ℕ) :
    (e.read len).heard = e.heard ∧ (e.read len).conn.send = e.conn.send := by
  by_cases hrx : e.conn.rxBuffer = []
  · have hread : e.conn.read len = (e.conn, []) := by simp [TcpConnection.read, hrx]
    simp [Endpoint.heard, Endpoint.delivered, Endpoint.read, hread]
  · constructor <;> simp [Endpoint.heard, Endpoint.delivered, Endpoint.read, TcpConnection.read,
      hrx, TcpConnection.send]

theorem RecvOk.heard_le {ρ : Type} {isn : SeqNum} {stream : List UInt8} {n : ℕ}
    {finAt : Option ℕ} {e : Endpoint ρ} (h : RecvOk isn stream n finAt e) : e.heard ≤ n + 2 := by
  have hle := h.le
  unfold Endpoint.heard
  split_ifs <;> omega

theorem heard_act {ρ : Type} {e : Endpoint ρ} {c' : TcpConnection ρ} {out : List TcpSegment}
    (step : LocalStep e.conn c' out) : (e.act c').heard = e.heard := by
  have hrecv := localStep_recv step
  have hrx : c'.rxBuffer = e.conn.rxBuffer := congrArg RecvView.rxBuffer hrecv
  have hfin : c'.finReceived = e.conn.finReceived := congrArg RecvView.finReceived hrecv
  simp [Endpoint.heard, Endpoint.act, Endpoint.delivered, hrx, hfin]

/-- The acknowledgements of an endpoint whose peer started at `isn`. -/
structure AckOk {ρ : Type} (isn : SeqNum) (e : Endpoint ρ) (net : List TcpSegment) : Prop where
  acks : ∀ seg ∈ net, seg.flags.ack = true → ∃ k ≤ e.heard, seg.ackNum = pos isn k
  quiet : e.synced = false → e.conn.lastAdvertisedWnd = 65535
  early : e.synced = false → ∀ r ∈ e.conn.send.queue, r.flags.ack = false

namespace AckOk

variable {ρ : Type} {isn : SeqNum} {e e' : Endpoint ρ} {net out : List TcpSegment}
  {stream : List UInt8} {n : ℕ} {finAt : Option ℕ}

theorem nxt_heard (h : RecvOk isn stream n finAt e) (hs : e.synced = true) :
    e.conn.rcvNxt = pos isn e.heard := by
  rw [h.nxt hs, Endpoint.heard, if_pos hs]

/-- New segments acknowledge the receive position of a synchronized endpoint. -/
theorem extend (h : AckOk isn e net) (hr : RecvOk isn stream n finAt e')
    (heard : e.heard ≤ e'.heard)
    (new : ∀ seg ∈ out, seg.flags.ack = true →
      seg.ackNum = e'.conn.rcvNxt ∧ e'.synced = true)
    (quiet : e'.synced = false → e'.conn.lastAdvertisedWnd = 65535)
    (early : e'.synced = false → ∀ r ∈ e'.conn.send.queue, r.flags.ack = false) :
    AckOk isn e' (net ++ out) where
  acks := by
    intro seg hseg hack
    rcases List.mem_append.mp hseg with hseg | hseg
    · obtain ⟨k, hk, heq⟩ := h.acks seg hseg hack
      exact ⟨k, hk.trans heard, heq⟩
    · obtain ⟨heq, hs⟩ := new seg hseg hack
      exact ⟨e'.heard, le_rfl, heq.trans (nxt_heard hr hs)⟩
  quiet := quiet
  early := early

/-- An endpoint that has not consumed a SYN has nothing to acknowledge. -/
theorem mayAdvertise (h : AckOk isn e net) (hr : RecvOk isn stream n finAt e)
    (hs : e.synced = false) : e.conn.mayAdvertise = false := by
  have hlive := hr.unsynchronized hs
  have hle : e.conn.localMss ≤ 65535 := by bv_omega
  simpa [TcpConnection.mayAdvertise, hlive, h.quiet hs] using hle

theorem act {c' : TcpConnection ρ} (h : AckOk isn e net) (hr : RecvOk isn stream n finAt e)
    (step : LocalStep e.conn c' out) : AckOk isn (e.act c') (net ++ out) := by
  refine h.extend (hr.act step) (heard_act step).ge ?_ ?_ ?_
  · intro seg hseg hack
    obtain ⟨heq, hdue⟩ := localStep_advertises step hseg
    refine ⟨heq.ackNum, ?_⟩
    by_contra hs
    have hs' : e.synced = false := by simpa [Endpoint.act] using hs
    rcases hdue hack with hdue | ⟨r, hmem, hflag⟩
    · simp [h.mayAdvertise hr hs'] at hdue
    · simp [h.early hs' r hmem] at hflag
  · intro hs
    have hsame := localStep_unsynchronized step (hr.unsynchronized hs)
    rcases hsame.advertised with ha | ha
    · exact ha.trans (h.quiet hs)
    · simp [h.mayAdvertise hr hs] at ha
  · intro hs
    have hsame := localStep_unsynchronized step (hr.unsynchronized hs)
    change ∀ r ∈ c'.send.queue, _
    rw [hsame.send]
    exact h.early hs

theorem abort (h : AckOk isn e net) : AckOk isn (e.act e.conn.abort) net :=
  ⟨h.acks, h.quiet, fun _ => nofun⟩

theorem write (h : AckOk isn e net) (data : List UInt8) : AckOk isn (e.write data) net :=
  ⟨h.acks, h.quiet, h.early⟩

theorem read (h : AckOk isn e net) (len : ℕ) : AckOk isn (e.read len) net := by
  obtain ⟨hheard, hsend⟩ := e.read_views len
  have hadv : (e.read len).conn.lastAdvertisedWnd = e.conn.lastAdvertisedWnd := by
    simp only [Endpoint.read, TcpConnection.read]
    split <;> rfl
  refine ⟨hheard ▸ h.acks, fun hs => hadv.trans (h.quiet hs), ?_⟩
  rw [hsend]
  exact h.early

theorem heard_receive {c' : TcpConnection ρ} {seg : TcpSegment} {reply : Option TcpSegment}
    (arrival : Arrival e.conn seg c' reply) : e.heard ≤ (e.receive c').heard := by
  obtain ⟨hrx, hfin⟩ := arrival_delivers arrival
  have hlen := hrx.length_le
  unfold Endpoint.heard
  split
  · rename_i hs
    simp only [Endpoint.receive, hs, Bool.true_or, if_true, Endpoint.delivered, List.length_append]
    by_cases hf : e.conn.finReceived = true
    · simp only [hf, hfin hf, if_true]
      omega
    · rw [if_neg hf]
      omega
  · exact Nat.zero_le _

theorem receive {c' : TcpConnection ρ} {seg : TcpSegment} {reply : Option TcpSegment}
    (h : AckOk isn e net) (hr : RecvOk isn stream n finAt e)
    (hr' : RecvOk isn stream n finAt (e.receive c')) (arrival : Arrival e.conn seg c' reply)
    (hrst : seg.flags.rst = false) : AckOk isn (e.receive c') (net ++ reply.toList) := by
  have hunsynced : (e.receive c').synced = false → e.synced = false ∧ c'.synchronized = false := by
    simp [Endpoint.receive]
  refine h.extend hr' (heard_receive arrival) ?_ ?_ ?_
  · intro r hmem hack
    obtain ⟨heq, hsync⟩ := arrival_advertises arrival r (Option.mem_toList.mp hmem)
    refine ⟨heq.ackNum, ?_⟩
    rcases hsync with hs | hs
    · simp [Endpoint.receive, hr.live hs]
    · simp [Endpoint.receive, hs]
  · intro hs
    obtain ⟨hs, hc⟩ := hunsynced hs
    rcases (arrival_unsynchronized arrival hrst (hr.unsynchronized hs) hc).2 with ha | ha
    · exact ha.trans (h.quiet hs)
    · simp [h.mayAdvertise hr hs] at ha
  · intro hs
    obtain ⟨hs, hc⟩ := hunsynced hs
    change ∀ r ∈ c'.send.queue, _
    rw [(arrival_unsynchronized arrival hrst (hr.unsynchronized hs) hc).1]
    exact h.early hs

end AckOk

end ToyTcpip.Network

/-! ### The joint invariant of both ends and everything on the wire. -/
namespace ToyTcpip.Network

open Tcp Serial

variable {ρ : Type}

def opening (isn : Side → SeqNum) (passive : Side → Bool) (x : Side) : Opening :=
  ⟨isn x, passive x, passive x.peer⟩

/-- One side of a coherent system; side `z` has sent `n z` bytes of its stream. -/
structure SideOk (isn : Side → SeqNum) (passive : Side → Bool) (s : System ρ) (n : Side → ℕ)
    (x : Side) : Prop where
  send : SendOk (opening isn passive x) (s.ends x) (n x) (s.net x)
  recv : RecvOk (isn x.peer) (s.ends x.peer).accepted (n x.peer) (s.ends x.peer).finAt (s.ends x)
  ack : AckOk (isn x.peer) (s.ends x) (s.net x)
  una : ∃ u ≤ (s.ends x.peer).heard, (s.ends x).conn.sndUna = pos (isn x) u

def Coherent (isn : Side → SeqNum) (passive : Side → Bool) (s : System ρ) : Prop :=
  ∃ n : Side → ℕ, ∀ x, SideOk isn passive s n x

/-- Both streams stay below half the sequence space. -/
def Short (s : System ρ) : Prop := ∀ x, (s.ends x).accepted.length < 2 ^ 31

/-- Only a passive peer's SYN-ACK reaches a side that is still in SynSent. -/
def SynAckFromPassive (passive : Side → Bool) (s : System ρ) (x : Side) (seg : TcpSegment) : Prop :=
  (s.conn x).state = .synSent → seg.flags.syn = true → seg.flags.ack = true →
    passive x.peer = true

namespace System

variable {s : System ρ} {x : Side} {e : Endpoint ρ} {out : List TcpSegment}

@[simp] theorem put_ends_self : (s.put x e out).ends x = e := by simp [put]

@[simp] theorem put_ends_peer : (s.put x e out).ends x.peer = s.ends x.peer := by simp [put]

@[simp] theorem put_net_self : (s.put x e out).net x = s.net x ++ out := by simp [put]

@[simp] theorem put_net_peer : (s.put x e out).net x.peer = s.net x.peer := by simp [put]

end System

namespace Coherent

variable {isn : Side → SeqNum} {passive : Side → Bool} {s : System ρ} {x : Side}

/-- One side moves on; the other one only sees it grow. -/
theorem put {n : Side → ℕ} (h : ∀ z, SideOk isn passive s n z) {e : Endpoint ρ}
    {out : List TcpSegment} {m : ℕ}
    (send : SendOk (opening isn passive x) e m (s.net x ++ out))
    (recv : RecvOk (isn x.peer) (s.ends x.peer).accepted (n x.peer) (s.ends x.peer).finAt e)
    (ack : AckOk (isn x.peer) e (s.net x ++ out))
    (una : ∃ u ≤ (s.ends x.peer).heard, e.conn.sndUna = pos (isn x) u)
    (grows : (s.ends x).accepted <+: e.accepted) (sent : n x ≤ m)
    (fin : ∀ k, (s.ends x).finAt = some k → e.finAt = some k)
    (heard : (s.ends x).heard ≤ e.heard) : Coherent isn passive (s.put x e out) := by
  refine ⟨Function.update n x m, fun z => ?_⟩
  rcases x.eq_or_peer z with rfl | rfl
  · exact ⟨by simpa using send, by simpa using recv, by simpa using ack, by simpa using una⟩
  · have hp := h x.peer
    obtain ⟨u, hu, heq⟩ := hp.una
    rw [Side.peer_peer] at hu
    refine ⟨by simpa using hp.send, ?_, by simpa using hp.ack, ?_⟩
    · have hr := hp.recv
      simp only [Side.peer_peer] at hr
      simpa using hr.mono grows sent fin
    · simp only [Side.peer_peer, System.put_ends_self, System.put_ends_peer]
      exact ⟨u, hu.trans heard, heq⟩

theorem write (h : Coherent isn passive s) (data : List UInt8) :
    Coherent isn passive (s.put x ((s.ends x).write data) []) := by
  obtain ⟨n, h⟩ := h
  obtain ⟨hs, hr, ha, hu⟩ := h x
  exact put h (by simpa using hs.write data) (hr.write data) (by simpa using ha.write data) hu
    (List.prefix_append _ _) le_rfl (fun _ hk => hk) le_rfl

theorem read (h : Coherent isn passive s) (len : ℕ) :
    Coherent isn passive (s.put x ((s.ends x).read len) []) := by
  obtain ⟨n, h⟩ := h
  obtain ⟨hs, hr, ha, hu⟩ := h x
  have hv := (s.ends x).read_views len
  refine put h (by simpa using hs.read len) (hr.read len) (by simpa using ha.read len) ?_
    List.prefix_rfl le_rfl (fun _ hk => hk) hv.1.ge
  rwa [show ((s.ends x).read len).conn.sndUna = (s.ends x).conn.sndUna from
    congrArg SendView.sndUna hv.2]

theorem act {c' : TcpConnection ρ} {out : List TcpSegment} (h : Coherent isn passive s)
    (step : LocalStep (s.conn x) c' out) : Coherent isn passive (s.act x c' out) := by
  obtain ⟨n, h⟩ := h
  obtain ⟨hs, hr, ha, hu⟩ := h x
  obtain ⟨m, hle, hfin, hs'⟩ := hs.act step
  refine put h hs' (hr.act step) (ha.act hr step) ?_ List.prefix_rfl hle ?_ (heard_act step).ge
  · rwa [show ((s.ends x).act c').conn.sndUna = (s.ends x).conn.sndUna from localStep_sndUna step]
  · exact fun _ hk => hs.finAt_act c' hk

theorem abort (h : Coherent isn passive s) (hq : (s.conn x).retransmitQueue ≠ []) :
    Coherent isn passive (s.act x (s.conn x).abort []) := by
  obtain ⟨n, h⟩ := h
  obtain ⟨hs, hr, ha, hu⟩ := h x
  refine put h ?_ hr.abort ?_ hu List.prefix_rfl le_rfl (fun _ hk => hs.finAt_act _ hk) le_rfl
  · rw [List.append_nil]
    exact hs.abort hq
  · rw [List.append_nil]
    exact ha.abort

theorem receive {c' : TcpConnection ρ} {seg : TcpSegment} {reply : Option TcpSegment}
    (h : Coherent isn passive s) (hshort : Short s) (hseg : seg ∈ s.net x.peer)
    (hok : SynAckFromPassive passive s x seg) (arrival : Arrival (s.conn x) seg c' reply) :
    Coherent isn passive (s.receive x c' reply.toList) := by
  obtain ⟨n, h⟩ := h
  obtain ⟨hs, hr, ha, hu⟩ := h x
  have hpeer := (h x.peer).send
  have hgen := hpeer.net seg hseg
  have hn : n x.peer < 2 ^ 31 := hpeer.le.trans_lt (hshort x.peer)
  have hfa : (s.ends x.peer).conn.finSent = true → (s.ends x.peer).finAt = some (n x.peer) := by
    intro hf
    rw [hpeer.finAt, if_pos hf]
  have hlisten : (s.conn x).state = .listen → (opening isn passive x.peer).peerPassive = true := by
    intro hl
    simpa [opening] using (hs.listen hl).1
  have hcross : seg.flags.syn = true → seg.flags.ack = false →
      (opening isn passive x).peerPassive = false := by
    intro hsyn hack
    rcases hgen.of_syn hsyn with ⟨-, hp⟩ | ⟨hp, -⟩
    · exact hp.symm.trans hack
    · simp [hack] at hp
  have hr' := hr.receive (o := opening isn passive x.peer) hn hfa hgen hlisten hok arrival
  refine put h (hs.receive hgen.rst hcross arrival) hr' (ha.receive hr hr' arrival hgen.rst) ?_
    List.prefix_rfl le_rfl (fun _ hk => hk) (AckOk.heard_receive arrival)
  rcases arrival_sndUna arrival with heq | ⟨hack, heq⟩
  · rw [show ((s.ends x).receive c').conn.sndUna = (s.ends x).conn.sndUna from heq]
    exact hu
  · obtain ⟨k, hk, hk'⟩ := (h x.peer).ack.acks seg hseg hack
    rw [Side.peer_peer] at hk'
    exact ⟨k, hk, heq.trans hk'⟩

end Coherent

/-- Accepted bytes are never taken back, so short streams have been short all along. -/
theorem Short.before {s : System ρ} {x : Side} {e : Endpoint ρ} {out : List TcpSegment}
    (h : Short (s.put x e out)) (hle : (s.ends x).accepted.length ≤ e.accepted.length) :
    Short s := by
  intro z
  have hz := h z
  rcases x.eq_or_peer z with rfl | rfl
  · rw [System.put_ends_self] at hz
    omega
  · rwa [System.put_ends_peer] at hz

/-- Along every run the system stays coherent while its streams are short. -/
theorem coherent_invariant [RttEstimator ρ] (isn : Side → SeqNum) (passive : Side → Bool) :
    System.Invariant (SynAckFromPassive passive)
      (fun s : System ρ => Short s → Coherent isn passive s) where
  write := fun data hJ hs => (hJ (hs.before (by simp [Endpoint.write]))).write data
  read := fun len hJ hs => (hJ (hs.before le_rfl)).read len
  act := fun hJ step hs => (hJ (hs.before le_rfl)).act step
  abort := fun hJ hq hs => (hJ (hs.before le_rfl)).abort hq
  receive := fun hJ hseg hok arrival hs =>
    (hJ (hs.before le_rfl)).receive (hs.before le_rfl) hseg hok arrival

/-- With a passive peer for every active side, nothing has to be asked of the network. -/
theorem coherent_invariant_of_passive [RttEstimator ρ] (isn : Side → SeqNum)
    {passive : Side → Bool} (hp : ∀ x, passive x = false → passive x.peer = true) :
    System.Invariant (fun _ _ _ => True)
      (fun s : System ρ => Short s → Coherent isn passive s) where
  write := (coherent_invariant isn passive).write
  read := (coherent_invariant isn passive).read
  act := (coherent_invariant isn passive).act
  abort := (coherent_invariant isn passive).abort
  receive := by
    intro s x seg c' reply hJ hseg _ arrival hs
    have hco := hJ (hs.before le_rfl)
    refine hco.receive (hs.before le_rfl) hseg ?_ arrival
    intro hsyn _ _
    obtain ⟨n, h⟩ := hco
    exact hp x ((h x).send.synSent hsyn).1

end ToyTcpip.Network
