import ToyTcpip.Network.Coherence

/-! Stream integrity between two connections, from both openings they support. -/
namespace ToyTcpip.Network

open Tcp Serial

variable {ρ : Type} [RttEstimator ρ]

section start

variable (st : Start) (isn : SeqNum) (passive : Bool)

theorem start_sendOk (peerPassive : Bool) :
    SendOk ⟨st.isn, passive, peerPassive⟩ (endpoint st passive : Endpoint ρ) 0
      (sent ρ st passive) := by
  cases passive with
  | false =>
    refine ⟨le_rfl, nofun, fun _ => ⟨rfl, rfl⟩, fun _ => rfl, fun _ => rfl, fun _ => rfl, rfl,
      ?_, ?_⟩
    · intro r hr
      obtain rfl := List.mem_singleton.mp hr
      exact .first rfl rfl rfl rfl
    · intro r hr
      obtain rfl := List.mem_singleton.mp hr
      exact .first rfl rfl rfl rfl
  | true =>
    exact ⟨le_rfl, fun _ => ⟨rfl, rfl, rfl, rfl⟩, nofun, fun hs => absurd rfl hs, fun _ => rfl,
      fun _ => rfl, rfl, nofun, nofun⟩

theorem start_recvOk (stream : List UInt8) :
    RecvOk isn stream 0 none (endpoint st passive : Endpoint ρ) := by
  cases passive <;>
    exact ⟨nofun, fun _ => rfl, fun _ => ⟨rfl, rfl, rfl⟩, List.nil_prefix, le_rfl, nofun, nofun,
      nofun, nofun⟩

theorem start_ackOk : AckOk isn (endpoint st passive : Endpoint ρ) (sent ρ st passive) := by
  cases passive with
  | false =>
    refine ⟨?_, fun _ => rfl, ?_⟩
    · intro r hr hack
      obtain rfl := List.mem_singleton.mp hr
      cases hack
    · intro _ r hr
      obtain rfl := List.mem_singleton.mp hr
      rfl
  | true => exact ⟨nofun, fun _ => rfl, fun _ => nofun⟩

end start

theorem start_coherent (passive : Side → Bool) (sides : Side → Start) :
    Coherent (fun x => (sides x).isn) passive (System.start passive sides : System ρ) := by
  refine ⟨fun _ => 0, fun x => ⟨start_sendOk (sides x) _ _, start_recvOk (sides x) _ _ _,
    start_ackOk (sides x) _ _, 0, Nat.zero_le _, ?_⟩⟩
  change (endpoint (sides x) (passive x) : Endpoint ρ).conn.sndUna = pos (sides x).isn 0
  rw [pos_zero]
  cases passive x <;> rfl

/-- Where the receive position stands: after the peer's SYN, what was delivered, and its FIN. -/
def Endpoint.expectedNxt (e : Endpoint ρ) (isn : SeqNum) : SeqNum :=
  isn + BitVec.ofNat 32 (1 + e.delivered.length + if e.conn.finReceived then 1 else 0)

/-- Stream integrity between a dialing and a listening connection, over every interleaving of
application calls, polls and deliveries: what one side has read and holds is a prefix of what
the other side accepted; once the peer's SYN is consumed `rcv_nxt` counts exactly the SYN, the
delivered bytes and the FIN; and the FIN is consumed only when everything accepted before it
was sent has been delivered. -/
theorem stream_integrity (sides : Side → Start) (actions : List Action)
    (hshort : Short ((System.connecting sides : System ρ).run actions)) (x : Side) :
    let s : System ρ := (System.connecting sides).run actions
    (s.ends x).delivered <+: (s.ends x.peer).accepted ∧
    ((s.ends x).synced = true → (s.conn x).rcvNxt = (s.ends x).expectedNxt (sides x.peer).isn) ∧
    ((s.conn x).finReceived = true →
      (s.ends x.peer).finAt = some (s.ends x).delivered.length) := by
  intro s
  have hroles : ∀ z : Side, decide (z = .right) = false → decide (z.peer = .right) = true := by
    intro z
    cases z <;> simp [Side.peer]
  have hco : Coherent _ _ s :=
    (coherent_invariant_of_passive _ hroles).run (fun _ => start_coherent _ sides)
      (System.admitsAll_trivial _ actions) hshort
  obtain ⟨n, h⟩ := hco
  exact ⟨(h x).recv.initial, (h x).recv.nxt, (h x).recv.fin⟩

/-- A handshake, three bytes sent, received out of turn after a repeated SYN, and two read. -/
def exchange : List Action :=
  [.deliver .right 0 1, .deliver .left 0 2, .write .left [7, 8, 9], .pollOutput .left 3,
    .deliver .right 0 4, .deliver .right 2 5, .read .right 2]

theorem short_exchange :
    Short ((System.connecting loopback : System JacobsonRtt).run exchange) := by
  intro x
  cases x <;> decide +kernel

example : (((System.connecting loopback : System JacobsonRtt).run exchange).ends .left).accepted =
    [7, 8, 9] := by
  decide +kernel

theorem stream_integrity_exchange :
    let s : System JacobsonRtt := (System.connecting loopback).run exchange
    (s.ends .right).delivered = [7, 8, 9] ∧ (s.ends .right).received = [7, 8] ∧
      (s.ends .right).delivered <+: (s.ends .left).accepted ∧
      ((s.ends .right).synced = true →
        (s.conn .right).rcvNxt = (s.ends .right).expectedNxt (loopback .left).isn) := by
  have h := stream_integrity loopback exchange short_exchange .right
  exact ⟨by decide +kernel, by decide +kernel, h.1, h.2.1⟩

/-- A listening side starts with `rcv_nxt` zero, whatever the peer's sequence numbers are. -/
theorem rcvNxt_before_syn :
    let s : System JacobsonRtt := (System.connecting loopback).run []
    Short s ∧ (s.conn .right).rcvNxt ≠ (s.ends .right).expectedNxt (loopback .left).isn := by
  refine ⟨fun x => ?_, by decide +kernel⟩
  cases x <;> decide +kernel

/-! ### Simultaneous open -/

/-- No SYN-ACK reaches a side that is still in SynSent. -/
def NoSynAckInSynSent (s : System ρ) (x : Side) (seg : TcpSegment) : Prop :=
  ¬ ((s.conn x).state = .synSent ∧ seg.flags.syn = true ∧ seg.flags.ack = true)

instance (s : System ρ) (x : Side) (seg : TcpSegment) : Decidable (NoSynAckInSynSent s x seg) :=
  inferInstanceAs (Decidable (¬ _))

/-- When both sides dial and no SYN-ACK overtakes the peer's SYN, an established side counts
from the peer's initial sequence number, and what it takes as acknowledged the peer has
received. -/
theorem crossing_agreement (sides : Side → Start) (actions : List Action)
    (hshort : Short ((System.crossing sides : System ρ).run actions))
    (hok : System.AdmitsAll NoSynAckInSynSent (System.crossing sides : System ρ) actions)
    (x : Side) :
    let s : System ρ := (System.crossing sides).run actions
    (s.conn x).state = .established →
      (s.conn x).rcvNxt =
        (sides x.peer).isn + 1 + BitVec.ofNat 32 (s.ends x).delivered.length ∧
      ((s.conn x).sndUna - (sides x).isn).toNat ≤ (s.ends x.peer).heard := by
  intro s hest
  have hok' : System.AdmitsAll (SynAckFromPassive fun _ => false)
      (System.crossing sides : System ρ) actions :=
    hok.mono fun s x seg h hs hsyn hack => absurd ⟨hs, hsyn, hack⟩ h
  have hco : Coherent (fun x => (sides x).isn) (fun _ => false) s :=
    (coherent_invariant _ _).run (fun _ => start_coherent _ sides) hok' hshort
  obtain ⟨n, h⟩ := hco
  have hr := (h x).recv
  constructor
  · have hsync : (s.ends x).synced = true := hr.live (by
      change (s.conn x).synchronized = true
      simp [TcpConnection.synchronized, hest])
    have hfin : (s.ends x).conn.finReceived = false := hr.open_ (by
      change taking (s.conn x).state = true
      simp [hest, taking])
    have hnxt := hr.nxt hsync
    rw [hfin] at hnxt
    exact hnxt.trans (pos_add_ofNat _ 1 _).symm
  · obtain ⟨u, hu, heq⟩ := (h x).una
    have hheard := (h x.peer).recv.heard_le
    have hsent := (h x).send.le
    have hlen : (s.ends x).accepted.length < 2 ^ 31 := hshort x
    rw [Side.peer_peer] at hheard
    change ((s.ends x).conn.sndUna - (sides x).isn).toNat ≤ _
    rw [heq]
    have hpos := toNat_pos_sub_pos (sides x).isn (Nat.zero_le u) (by omega)
    rw [pos_zero] at hpos
    omega

/-- Both SYNs cross; each side answers, and the answers come in after the SYNs. -/
def crossedSyns : List Action :=
  [.deliver .left 0 1, .deliver .right 0 2, .deliver .left 1 3, .deliver .right 1 4]

theorem crossing_agreement_crossedSyns :
    let s : System JacobsonRtt := (System.crossing loopback).run crossedSyns
    (s.conn .left).state = .established ∧
      (s.conn .left).rcvNxt = 5000 + 1 + BitVec.ofNat 32 (s.ends .left).delivered.length ∧
      ((s.conn .left).sndUna - 1000).toNat ≤ (s.ends .right).heard := by
  have hshort : Short ((System.crossing loopback : System JacobsonRtt).run crossedSyns) := by
    intro x
    cases x <;> decide +kernel
  have hok : System.AdmitsAll NoSynAckInSynSent (System.crossing loopback : System JacobsonRtt)
      crossedSyns := by
    decide +kernel
  have hest : (((System.crossing loopback : System JacobsonRtt).run crossedSyns).conn .left).state =
      .established := by decide +kernel
  exact ⟨hest, crossing_agreement loopback crossedSyns hshort hok .left hest⟩

/-- The SYN-ACK of a simultaneous open carries `snd_nxt`, one above the SYN: a peer that gets it
while still in SynSent expects the sequence number after the next. -/
theorem crossing_synAck_in_synSent :
    let s : System JacobsonRtt :=
      (System.crossing loopback).run [.deliver .right 0 1, .deliver .left 1 2]
    (s.conn .left).state = .established ∧
      (s.conn .left).rcvNxt ≠ 5000 + 1 + BitVec.ofNat 32 (s.ends .left).delivered.length := by
  decide +kernel

end ToyTcpip.Network
