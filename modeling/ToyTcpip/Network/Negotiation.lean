import ToyTcpip.Network.System
import ToyTcpip.Tcp.Replies

/-! Whether both ends of a connection come out of the handshake with the same options. -/
namespace ToyTcpip.Network

open Tcp

variable {ρ : Type} {c c' : TcpConnection ρ} {seg : TcpSegment} {out net : List TcpSegment}
  {reply : Option TcpSegment}

/-! ### What a segment says about its sender's options -/

/-- A SYN offers SACK exactly if its sender has it, and a timestamp only if its sender uses
them; no other segment offers SACK. -/
structure Honest (c : TcpConnection ρ) (seg : TcpSegment) : Prop where
  sack : seg.offersSack = (seg.flags.syn && c.sackPermitted)
  timestamps : seg.flags.syn = true → seg.carriesTimestamp = true → c.tsEnabled = true

theorem honest_plain (hsyn : seg.flags.syn = false) (hoffer : seg.offersSack = false) :
    Honest c seg :=
  ⟨by simp [hsyn, hoffer], by simp [hsyn]⟩

theorem Honest.congr (h : Honest c seg) (hs : c'.sackPermitted = c.sackPermitted)
    (ht : c'.tsEnabled = c.tsEnabled) : Honest c' seg :=
  ⟨hs ▸ h.sack, ht ▸ h.timestamps⟩

/-- SACK blocks and timestamps do not offer anything. -/
theorem ackOptions_offer (val ecr : BitVec 32) (h : seg.options =
    c.sackOptions ++ if c.tsEnabled then [.timestamp val ecr] else []) :
    seg.offersSack = false := by
  rw [TcpSegment.offersSack, h, TcpConnection.sackOptions]
  split <;> split <;> simp [TcpOption.isSackPermitted]

theorem honest_of_pureAck (h : PureAck c seg) : Honest c seg := by
  refine honest_plain (by simp [h.flags, TcpFlags.ackOnly]) ?_
  rcases h.options with ho | ⟨val, ecr, ho⟩
  · simp [TcpSegment.offersSack, ho]
  · exact ackOptions_offer val ecr ho

theorem honest_of_resent {r : SentRange} (h : Resent c seg r) : Honest c seg := by
  obtain ⟨mss, val, ecr, ho⟩ := h.options
  by_cases hsyn : r.flags.syn = true
  · rw [if_pos hsyn] at ho
    refine ⟨?_, ?_⟩
    · cases hsack : c.sackPermitted <;>
        simp [TcpSegment.offersSack, ho, h.flags, hsyn, hsack, TcpOption.isSackPermitted]
    · -- The rebuilt SYN carries no timestamp.
      intro _ hts
      cases hsack : c.sackPermitted <;>
        simp [TcpSegment.carriesTimestamp, ho, hsack, TcpOption.isTimestamp] at hts
  · rw [if_neg hsyn] at ho
    exact honest_plain (by rw [h.flags]; simpa using hsyn) (ackOptions_offer val ecr ho)

theorem localStep_honest (h : LocalStep c c' out) : ∀ seg ∈ out, Honest c' seg := by
  cases h with
  | quiet | expire => simp
  | ack _ _ reply => simpa using honest_of_pureAck reply
  | resend _ again => simpa using honest_of_resent again
  | chunk _ _ _ kind _ _ _ _ _ out =>
    subst out
    rcases kind with ⟨rfl, -⟩ | ⟨rfl, -⟩ <;> simpa using honest_plain rfl rfl
  | fin _ _ _ _ _ _ _ out =>
    subst out
    simpa using honest_plain rfl rfl

/-- A connection that did not dial answers honestly. -/
theorem arrival_honest (h : Arrival c seg c' reply) (hdial : c.state ≠ .synSent)
    (hpeer : c'.peerSackPermitted = c'.sackPermitted) : ∀ r ∈ reply, Honest c' r := by
  obtain ⟨c₁, hp, hr⟩ := h
  rw [← hp.state] at hdial
  cases hr with
  | ignore | reset | finAcked => simp
  | answer _ _ ack => simpa using honest_of_pureAck ack
  | passiveOpen now before syn state recv send opts =>
    have hs : c₁.sackPermitted = c'.sackPermitted := (congrArg OptView.sackPermitted opts).symm
    have hq : c₁.peerSackPermitted = c'.sackPermitted :=
      (congrArg OptView.peerSackPermitted opts).symm.trans hpeer
    have ht : c₁.tsEnabled = c'.tsEnabled := (TcpConnection.tsEnabled_congr opts).symm
    intro r hr
    obtain rfl := Option.some.inj hr
    cases hsack : c'.sackPermitted <;> cases hts : c'.tsEnabled <;>
      refine ⟨?_, ?_⟩ <;>
      simp [TcpConnection.segment, TcpSegment.offersSack, TcpSegment.carriesTimestamp,
        TcpConnection.timestampOptions, hq, ht, hsack, hts, TcpOption.isSackPermitted,
        TcpOption.isTimestamp, TcpFlags.synAck]
  | activeOpen before | crossing before => exact absurd before hdial
  | handshake _ _ _ _ _ _ _ _ acks | closeWait _ _ _ _ _ _ _ _ acks =>
    exact fun r hr => honest_of_pureAck (acks r hr)
  | transfer _ _ _ _ _ _ acks =>
    intro r hr
    rcases acks r hr with ha | ⟨-, q, ha⟩
    · exact honest_of_pureAck ha
    · exact honest_of_resent ha

/-! ### The agreement -/

/-- The client's options against those of the server and of what the server has sent. Before
the client is synchronized it has no more than the server, after that exactly as much. -/
structure Agreed (client server : TcpConnection ρ) (net : List TcpSegment) : Prop where
  dialer : client.state ≠ .listen
  listener : server.state ≠ .synSent
  flags : server.peerSackPermitted = server.sackPermitted
  early : server.state = .listen →
    (∀ seg ∈ net, seg.flags.syn = false) ∧ ∀ r ∈ server.send.queue, r.flags.syn = false
  honest : ∀ seg ∈ net, Honest server seg
  raised : client.sackPermitted = true → server.sackPermitted = true
  settled : client.synchronized = true → server.state ≠ .listen ∧
    client.sackPermitted = server.sackPermitted ∧ client.tsEnabled = server.tsEnabled

/-- The network delivers no SYN-ACK that lacks the timestamp the server uses to a client in
SynSent, and no offer of SACK to a server that has opened the connection without it. -/
def Negotiable (s : System ρ) (x : Side) (seg : TcpSegment) : Prop :=
  (x = .left → (s.conn .left).state = .synSent → seg.flags.syn = true →
    (s.conn .right).tsEnabled = true → seg.carriesTimestamp = true) ∧
  (x = .right → (s.conn .right).synchronized = true → seg.offersSack = true →
    (s.conn .right).sackPermitted = true)

instance (s : System ρ) (x : Side) (seg : TcpSegment) : Decidable (Negotiable s x seg) :=
  inferInstanceAs (Decidable ((_ → _ → _ → _ → _) ∧ (_ → _ → _ → _)))

namespace Agreed

variable {client server : TcpConnection ρ}

theorem client_congr (h : Agreed client server net) (hs : c'.state = client.state)
    (ho : c'.opts = client.opts) : Agreed c' server net where
  dialer := hs ▸ h.dialer
  listener := h.listener
  flags := h.flags
  early := h.early
  honest := h.honest
  raised := by
    rw [show c'.sackPermitted = client.sackPermitted from congrArg OptView.sackPermitted ho]
    exact h.raised
  settled := by
    simp only [TcpConnection.synchronized, hs, TcpConnection.tsEnabled_congr ho,
      show c'.sackPermitted = client.sackPermitted from congrArg OptView.sackPermitted ho]
    exact h.settled

theorem server_congr (h : Agreed client server net) (hs : c'.state = server.state)
    (ho : c'.opts = server.opts) (hq : c'.send.queue = server.send.queue) :
    Agreed client c' net := by
  have hsack : c'.sackPermitted = server.sackPermitted := congrArg OptView.sackPermitted ho
  have hpeer : c'.peerSackPermitted = server.peerSackPermitted :=
    congrArg OptView.peerSackPermitted ho
  have hts := TcpConnection.tsEnabled_congr ho
  refine ⟨h.dialer, hs ▸ h.listener, by rw [hpeer, hsack, h.flags], ?_, ?_, hsack ▸ h.raised, ?_⟩
  · rw [hs, hq]
    exact h.early
  · exact fun seg hseg => (h.honest seg hseg).congr hsack hts
  · rw [hs, hsack, hts]
    exact h.settled

theorem client_act (h : Agreed client server net) (step : LocalStep client c' out)
    (hopen : c'.state ≠ .closed) : Agreed c' server net := by
  have ho := localStep_opts step
  rcases localStep_state step with hs | ⟨hb, ha | ha⟩
  · exact h.client_congr hs ho
  · have hsack : c'.sackPermitted = client.sackPermitted := congrArg OptView.sackPermitted ho
    refine ⟨?_, h.listener, h.flags, h.early, h.honest, hsack ▸ h.raised, fun _ => ?_⟩
    · simp only [TcpConnection.synchronized, decide_eq_true_eq] at ha
      exact ha.2.1
    · rw [hsack, TcpConnection.tsEnabled_congr ho]
      exact h.settled hb
  · exact absurd ha hopen

/-- A client takes the options of the first SYN it consumes, and later ones add nothing. -/
theorem client_receive (h : Agreed client server net) (hseg : seg ∈ net)
    (hclient : client.state ≠ .closed)
    (hok : client.state = .synSent → seg.flags.syn = true → server.tsEnabled = true →
      seg.carriesTimestamp = true)
    (arrival : Arrival client seg c' reply) (hopen : c'.state ≠ .closed) :
    Agreed c' server net := by
  have hhonest := h.honest seg hseg
  have hopts := arrival_opts arrival
  have hsack : c'.sackPermitted = (client.sackPermitted || seg.offersSack) :=
    congrArg OptView.sackPermitted hopts
  have hts : c'.tsEnabled = client.timestampsAfter seg := congrArg OptView.tsEnabled hopts
  have hoffer : seg.offersSack = true → seg.flags.syn = true ∧ server.sackPermitted = true := by
    rw [hhonest.sack, Bool.and_eq_true]
    exact id
  have hraised : c'.sackPermitted = true → server.sackPermitted = true := by
    rw [hsack, Bool.or_eq_true]
    rintro (hs | hs)
    · exact h.raised hs
    · exact (hoffer hs).2
  have hstate := arrival_state arrival
  refine ⟨?_, h.listener, h.flags, h.early, h.honest, hraised, fun hs' => ?_⟩
  · rcases hstate with hs | hs | ⟨hs, -⟩
    · exact hs ▸ h.dialer
    · exact absurd hs hopen
    · simp only [TcpConnection.synchronized, decide_eq_true_eq] at hs
      exact hs.2.1
  · by_cases hs : client.synchronized = true
    · obtain ⟨hl, hsk, ht⟩ := h.settled hs
      refine ⟨hl, ?_, ?_⟩
      · rw [hsack, hsk, Bool.or_eq_left_iff_imp]
        exact fun ho => (hoffer ho).2
      · rw [hts, TcpConnection.timestampsAfter, if_neg (by simp [hs]), ht]
    · have hsyn : seg.flags.syn = true := by
        rcases hstate with hs'' | hs'' | ⟨-, -, hs'' | hs''⟩
        · simp only [TcpConnection.synchronized, hs''] at hs hs'
          exact absurd hs' hs
        · exact absurd hs'' hopen
        · exact absurd hs'' hs
        · exact hs''
      have hdial : client.state = .synSent := by
        have hd := h.dialer
        simp only [TcpConnection.synchronized, decide_eq_true_eq] at hs
        by_contra hne
        exact hs ⟨hclient, hd, hne⟩
      refine ⟨?_, ?_, ?_⟩
      · intro hl
        simp [(h.early hl).1 seg hseg] at hsyn
      · have hof : seg.offersSack = server.sackPermitted := by
          rw [hhonest.sack, hsyn, Bool.true_and]
        rw [hsack, hof, Bool.or_eq_right_iff_imp]
        exact h.raised
      · rw [hts, TcpConnection.timestampsAfter, if_pos ⟨hsyn, by simpa using hs⟩,
          Bool.eq_iff_iff]
        exact ⟨hhonest.timestamps hsyn, hok hdial hsyn⟩

theorem server_act (h : Agreed client server net) (step : LocalStep server c' out)
    (hopen : c'.state ≠ .closed) : Agreed client c' (net ++ out) := by
  have ho := localStep_opts step
  have hsack : c'.sackPermitted = server.sackPermitted := congrArg OptView.sackPermitted ho
  have hpeer : c'.peerSackPermitted = server.peerSackPermitted :=
    congrArg OptView.peerSackPermitted ho
  have hts := TcpConnection.tsEnabled_congr ho
  have hstate : c'.state = server.state ∨ c'.synchronized = true := by
    rcases localStep_state step with hs | ⟨-, hs | hs⟩
    · exact .inl hs
    · exact .inr hs
    · exact absurd hs hopen
  have hlisten : c'.state = .listen → server.state = .listen := by
    intro hl
    rcases hstate with hs | hs
    · exact hs.symm.trans hl
    · simp [TcpConnection.synchronized, hl] at hs
  refine ⟨h.dialer, ?_, by rw [hpeer, hsack, h.flags], fun hl => ?_, ?_, hsack ▸ h.raised, ?_⟩
  · rcases hstate with hs | hs
    · exact hs ▸ h.listener
    · simp only [TcpConnection.synchronized, decide_eq_true_eq] at hs
      exact hs.2.2
  · -- A listening server has nothing to repeat.
    obtain ⟨hnet, hq⟩ := h.early (hlisten hl)
    have hun : server.synchronized = false := by simp [TcpConnection.synchronized, hlisten hl]
    have hsame := localStep_unsynchronized step hun
    refine ⟨fun seg hseg => ?_, by rw [hsame.send]; exact hq⟩
    rcases List.mem_append.mp hseg with hseg | hseg
    · exact hnet seg hseg
    · cases step with
      | quiet | expire => cases hseg
      | ack _ _ reply =>
        obtain rfl := List.mem_singleton.mp hseg
        simp [reply.flags, TcpFlags.ackOnly]
      | resend _ again =>
        obtain rfl := List.mem_singleton.mp hseg
        rw [again.flags]
        exact hq _ (hsame.send ▸ again.mem)
      | chunk sending =>
        simp [TcpConnection.sending, hlisten hl] at sending
      | fin state => rcases state with ⟨hb, -⟩ | ⟨hb, -⟩ <;> simp [hlisten hl] at hb
  · intro seg hseg
    rcases List.mem_append.mp hseg with hseg | hseg
    · exact (h.honest seg hseg).congr hsack hts
    · exact localStep_honest step seg hseg
  · intro hs
    obtain ⟨hl, hsk, ht⟩ := h.settled hs
    exact ⟨fun hl' => hl (hlisten hl'), hsk.trans hsack.symm, ht.trans hts.symm⟩

theorem server_receive (h : Agreed client server net) (hserver : server.state ≠ .closed)
    (hok : server.synchronized = true → seg.offersSack = true → server.sackPermitted = true)
    (arrival : Arrival server seg c' reply) (hopen : c'.state ≠ .closed) :
    Agreed client c' (net ++ reply.toList) := by
  have hopts := arrival_opts arrival
  have hsack : c'.sackPermitted = (server.sackPermitted || seg.offersSack) :=
    congrArg OptView.sackPermitted hopts
  have hpeer : c'.peerSackPermitted = (server.peerSackPermitted || seg.offersSack) :=
    congrArg OptView.peerSackPermitted hopts
  have hts : c'.tsEnabled = server.timestampsAfter seg := congrArg OptView.tsEnabled hopts
  have hflags : c'.peerSackPermitted = c'.sackPermitted := by rw [hpeer, hsack, h.flags]
  have hreply := arrival_honest arrival h.listener hflags
  have hstate : c'.state = server.state ∨ c'.synchronized = true := by
    rcases arrival_state arrival with hs | hs | ⟨hs, -⟩
    · exact .inl hs
    · exact absurd hs hopen
    · exact .inr hs
  have hlistener : c'.state ≠ .synSent := by
    rcases hstate with hs | hs
    · exact hs ▸ h.listener
    · simp only [TcpConnection.synchronized, decide_eq_true_eq] at hs
      exact hs.2.2
  have hraised : client.sackPermitted = true → c'.sackPermitted = true := by
    intro hc
    rw [hsack, h.raised hc, Bool.true_or]
  by_cases hl : server.state = .listen
  · -- The client is not synchronized, and nothing sent so far is a SYN.
    obtain ⟨hnet, hq⟩ := h.early hl
    refine ⟨h.dialer, hlistener, hflags, fun hl' => ?_, fun r hr => ?_, hraised, fun hs => ?_⟩
    · obtain ⟨rfl, hv⟩ := arrival_listen arrival hl hl'
      exact ⟨by simpa using hnet, by rw [hv]; exact hq⟩
    · rcases List.mem_append.mp hr with hr | hr
      · exact honest_plain (hnet r hr) (by rw [(h.honest r hr).sack, hnet r hr, Bool.false_and])
      · exact hreply r (Option.mem_toList.mp hr)
    · exact absurd hl (h.settled hs).1
  · have hsync : server.synchronized = true := by
      simp only [TcpConnection.synchronized, decide_eq_true_eq]
      exact ⟨hserver, hl, h.listener⟩
    have hsack' : c'.sackPermitted = server.sackPermitted := by
      rw [hsack, Bool.or_eq_left_iff_imp]
      exact hok hsync
    have hts' : c'.tsEnabled = server.tsEnabled := by
      rw [hts, TcpConnection.timestampsAfter, if_neg (by simp [hsync])]
    have hl' : c'.state ≠ .listen := by
      rcases hstate with hs | hs
      · exact hs ▸ hl
      · simp only [TcpConnection.synchronized, decide_eq_true_eq] at hs
        exact hs.2.1
    refine ⟨h.dialer, hlistener, hflags, fun hc => absurd hc hl', fun r hr => ?_, hraised,
      fun hs => ?_⟩
    · rcases List.mem_append.mp hr with hr | hr
      · exact (h.honest r hr).congr hsack' hts'
      · exact hreply r (Option.mem_toList.mp hr)
    · obtain ⟨-, hsk, ht⟩ := h.settled hs
      exact ⟨hl', hsk.trans hsack'.symm, ht.trans hts'.symm⟩

end Agreed

/-- A closed end stays closed. -/
theorem closed_act (h : c.state = .closed) (step : LocalStep c c' out) : c'.state = .closed := by
  rcases localStep_state step with hs | ⟨hs, -⟩
  · exact hs.trans h
  · simp [TcpConnection.synchronized, h] at hs

theorem closed_receive (h : c.state = .closed) (arrival : Arrival c seg c' reply) :
    c'.state = .closed := by
  rcases arrival_state arrival with hs | hs | ⟨-, hs, -⟩
  · exact hs.trans h
  · exact hs
  · exact absurd h hs

/-- One end is closed for good, or the options agree. -/
def Negotiated (s : System ρ) : Prop :=
  (∃ x, (s.conn x).state = .closed) ∨ Agreed (s.conn .left) (s.conn .right) (s.net .right)

/-- Changing one end keeps a closed connection closed, and otherwise the agreement. -/
theorem Negotiated.put {s : System ρ} (h : Negotiated s) (x : Side) {e : Endpoint ρ}
    (hclosed : (s.conn x).state = .closed → e.conn.state = .closed)
    (hleft : x = .left → (s.conn .left).state ≠ .closed → (s.conn .right).state ≠ .closed →
      e.conn.state ≠ .closed → Agreed (s.conn .left) (s.conn .right) (s.net .right) →
      Agreed e.conn (s.conn .right) (s.net .right))
    (hright : x = .right → (s.conn .right).state ≠ .closed → e.conn.state ≠ .closed →
      Agreed (s.conn .left) (s.conn .right) (s.net .right) →
      Agreed (s.conn .left) e.conn (s.net .right ++ out)) : Negotiated (s.put x e out) := by
  have hself : (s.put x e out).conn x = e.conn := by simp [System.conn, System.put]
  have hother : ∀ z, z ≠ x → (s.put x e out).conn z = s.conn z := by
    intro z hz
    simp [System.conn, System.put, hz]
  by_cases hnew : e.conn.state = .closed
  · exact .inl ⟨x, hself ▸ hnew⟩
  by_cases hsome : ∃ z, (s.conn z).state = .closed
  · obtain ⟨z, hz⟩ := hsome
    refine .inl ⟨z, ?_⟩
    by_cases hzx : z = x
    · subst hzx
      exact absurd (hclosed hz) hnew
    · rwa [hother z hzx]
  · have hag : Agreed (s.conn .left) (s.conn .right) (s.net .right) := by
      rcases h with h | h
      · exact absurd h hsome
      · exact h
    have hall : ∀ z, (s.conn z).state ≠ .closed := fun z hz => hsome ⟨z, hz⟩
    right
    cases x with
    | left =>
      have hnet : (s.put .left e out).net .right = s.net .right := by simp [System.put]
      rw [hself, hother .right (by simp), hnet]
      exact hleft rfl (hall _) (hall _) hnew hag
    | right =>
      have hnet : (s.put .right e out).net .right = s.net .right ++ out := by simp [System.put]
      rw [hself, hother .left (by simp), hnet]
      exact hright rfl (hall _) hnew hag

theorem Negotiated.put_quiet {s : System ρ} (h : Negotiated s) {x : Side} {e : Endpoint ρ}
    (hs : e.conn.state = (s.conn x).state) (ho : e.conn.opts = (s.conn x).opts)
    (hq : e.conn.send.queue = (s.conn x).send.queue) : Negotiated (s.put x e []) := by
  refine h.put x (fun hc => hs.trans hc) ?_ ?_
  · rintro rfl - - - hag
    exact hag.client_congr hs ho
  · rintro rfl - - hag
    rw [List.append_nil]
    exact hag.server_congr hs ho hq

theorem negotiated_invariant : System.Invariant (Negotiable (ρ := ρ)) Negotiated where
  write := fun data h => h.put_quiet rfl rfl rfl
  read := fun {s x} len h => by
    apply h.put_quiet <;> simp only [Endpoint.read, TcpConnection.read, System.conn] <;>
      split <;> rfl
  act := fun {s x c' out} h step => by
    refine h.put x (fun hc => closed_act hc step) ?_ ?_
    · rintro rfl - - hopen hag
      exact hag.client_act step hopen
    · rintro rfl - hopen hag
      exact hag.server_act step hopen
  abort := fun {s x} h _ => .inl ⟨x, by simp [System.conn_act, TcpConnection.abort]⟩
  receive := fun {s x seg c' reply} h hseg hok arrival => by
    refine h.put x (fun hc => closed_receive hc arrival) ?_ ?_
    · rintro rfl hclient - hopen hag
      exact hag.client_receive hseg hclient (hok.1 rfl) arrival hopen
    · rintro rfl hserver hopen hag
      exact hag.server_receive hserver (hok.2 rfl) arrival hopen

section runs

variable [RttEstimator ρ]

theorem negotiated_connecting (sides : Side → Start) :
    Negotiated (System.connecting sides : System ρ) := by
  refine .inr ⟨?_, ?_, rfl, fun _ => ⟨by rintro seg ⟨⟩, by rintro r ⟨⟩⟩, by rintro seg ⟨⟩, ?_, ?_⟩
  · exact nofun
  · exact nofun
  · exact nofun
  · exact nofun

/-- Two ends that are both Established use the same options. -/
def OptionsAgree (s : System ρ) : Prop :=
  (s.conn .left).state = .established → (s.conn .right).state = .established →
    (s.conn .left).tsEnabled = (s.conn .right).tsEnabled ∧
    (s.conn .left).sackPermitted = (s.conn .right).sackPermitted

instance (s : System ρ) : Decidable (OptionsAgree s) :=
  inferInstanceAs (Decidable (_ → _ → _ ∧ _))

/-- A dialing and a listening connection that are both Established agree on timestamps and on
SACK, if the network respects what was negotiated first. -/
theorem options_agree (sides : Side → Start) (actions : List Action)
    (hok : System.AdmitsAll Negotiable (System.connecting sides : System ρ) actions) :
    OptionsAgree ((System.connecting sides : System ρ).run actions) := by
  intro hleft hright
  have h := negotiated_invariant.run (negotiated_connecting sides) hok
  rcases h with ⟨x, hx⟩ | h
  · cases x with
    | left => simp [hleft] at hx
    | right => simp [hright] at hx
  · obtain ⟨-, hsack, hts⟩ := h.settled (by simp [TcpConnection.synchronized, hleft])
    exact ⟨hts, hsack⟩

end runs

/-- Two hosts of which the dialing one asks for timestamps. -/
def stamping (x : Side) : Start :=
  { loopback x with config := { Config.default with tsEnabled := true } }

theorem options_agree_handshake :
    let actions : List Action := [.deliver .right 0 1, .deliver .left 0 2, .deliver .right 1 3]
    let s : System JacobsonRtt := (System.connecting stamping).run actions
    (s.conn .left).state = .established ∧ (s.conn .right).state = .established ∧
      (s.conn .left).tsEnabled = true ∧ OptionsAgree s :=
  ⟨by decide +kernel, by decide +kernel, by decide +kernel,
    options_agree stamping _ (by decide +kernel)⟩

/-- A lost SYN-ACK is repeated without its timestamp; and a SYN that offers SACK arrives after
its own repetition, which does not. -/
theorem options_disagree :
    ¬ OptionsAgree ((System.connecting stamping : System JacobsonRtt).run
      [.deliver .right 0 1, .pollOutput .right 5000, .deliver .left 1 5001,
        .deliver .right 1 5002]) ∧
    ¬ OptionsAgree ((System.connecting loopback : System JacobsonRtt).run
      [.pollOutput .left 5000, .deliver .right 1 5001, .deliver .left 0 5002,
        .deliver .right 2 5003, .deliver .right 0 5004]) := by
  decide +kernel

end ToyTcpip.Network
