import ToyTcpip.Bfd.Packet
import ToyTcpip.Ipv6Packet
import ToyTcpip.Lib.Machine

/-! The BFD sessions of `bfd_v6.rs`, and two of them over a network that loses, repeats and reorders
packets. -/
namespace ToyTcpip.Bfd

structure BfdV6Session where
  peerIp : Ipv6Address
  myDiscriminator : UInt32
  yourDiscriminator : UInt32
  state : BfdState
  desiredMinTxUs : UInt32
  requiredMinRxUs : UInt32
  detectMult : UInt8
  isMultihop : Bool
  deriving DecidableEq

namespace BfdV6Session

def new (peerIp : Ipv6Address) (myDiscriminator : UInt32) (isMultihop : Bool) : BfdV6Session :=
  { peerIp
    myDiscriminator
    yourDiscriminator := 0
    state := .down
    desiredMinTxUs := 50000
    requiredMinRxUs := 50000
    detectMult := 3
    isMultihop }

def buildOutboundPacket (s : BfdV6Session) (poll : Bool) : BfdControlPacket :=
  { BfdControlPacket.buildControl s.state s.myDiscriminator s.yourDiscriminator
    s.desiredMinTxUs with
    poll
    detectMult := s.detectMult
    requiredMinRxIntervalUs := s.requiredMinRxUs }

/-- The state after a packet, and whether it counts as a change. -/
def transition : BfdState → BfdState → BfdState × Bool
  | .down, .down => (.init, true)
  | .down, .init | .init, .init | .init, .up => (.up, true)
  | .up, .down | .init, .adminDown | .up, .adminDown => (.down, true)
  | state, _ => (state, false)

/-- The session that has taken a packet. -/
def heard (s : BfdV6Session) (p : BfdControlPacket) : BfdV6Session :=
  { s with yourDiscriminator := p.myDiscriminator, state := (transition s.state p.state).1 }

def response (s : BfdV6Session) (final : Bool) : BfdControlPacket :=
  { s.buildOutboundPacket false with final }

def processInboundPacket (s : BfdV6Session) (p : BfdControlPacket) :
    BfdV6Session × Option BfdControlPacket :=
  if p.yourDiscriminator ≠ 0 ∧ p.yourDiscriminator ≠ s.myDiscriminator then (s, none)
  else if p.yourDiscriminator = 0 ∧ ¬ (p.state = .down ∨ p.state = .adminDown) then (s, none)
  else if s.state = .adminDown then (s, none)
  else if (transition s.state p.state).2 ∨ p.poll then
    (s.heard p, some ((s.heard p).response p.poll))
  else (s.heard p, none)

variable {s : BfdV6Session} {p r : BfdControlPacket} {state peer : BfdState}

/-- A packet is taken, with its sender for the remote end, or it changes nothing. -/
theorem processInboundPacket_cases (s : BfdV6Session) (p : BfdControlPacket) :
    s.processInboundPacket p = (s, none) ∨ (s.processInboundPacket p).1 = s.heard p ∧
      ∀ r ∈ (s.processInboundPacket p).2, r = (s.heard p).response p.poll := by
  rw [processInboundPacket]
  split_ifs
  · exact .inl rfl
  · exact .inl rfl
  · exact .inl rfl
  · exact .inr ⟨rfl, fun r hr => (Option.mem_some.mp hr).symm⟩
  · exact .inr ⟨rfl, fun r hr => absurd hr (by simp)⟩

theorem processInboundPacket_taken (hyour : p.yourDiscriminator = 0 ∨
    p.yourDiscriminator = s.myDiscriminator)
    (hopening : p.yourDiscriminator = 0 → p.state = .down) (hrunning : s.state ≠ .adminDown) :
    (s.processInboundPacket p).1 = s.heard p := by
  rw [processInboundPacket, if_neg fun h => hyour.elim h.1 h.2,
    if_neg fun h => h.2 (.inl (hopening h.1)), if_neg hrunning]
  split_ifs <;> rfl

theorem transition_ne_adminDown (h : state ≠ .adminDown) :
    (transition state peer).1 ≠ .adminDown := by
  revert h
  cases state <;> cases peer <;> decide

/-- A session comes up, or stays up, on a packet of one that has heard it. -/
theorem transition_up (h : (transition state peer).1 = .up) :
    state = .up ∨ peer = .init ∨ peer = .up := by
  revert h
  cases state <;> cases peer <;> decide

end BfdV6Session

/-! ### Two sessions -/

/-- Both sessions, and every packet that was ever sent. -/
structure Link where
  session : Bool → BfdV6Session
  sent : List (Bool × List UInt8)

inductive LinkEvent where
  | transmit (side poll : Bool)
  | deliver (side : Bool) (data : List UInt8)

namespace Link

open BfdV6Session (transition transition_up transition_ne_adminDown processInboundPacket_cases
  processInboundPacket_taken)

def start (disc : Bool → UInt32) (ip : Bool → Ipv6Address) (isMultihop : Bool) : Link :=
  ⟨fun i => .new (ip !i) (disc i) isMultihop, []⟩

/-- What the session at `i` is, and what it answers, after a packet. -/
def receive (x : Link) (i : Bool) (p : BfdControlPacket) : Link :=
  ⟨Function.update x.session i ((x.session i).processInboundPacket p).1,
    (((x.session i).processInboundPacket p).2.toList.map fun r => (i, r.serialize)) ++ x.sent⟩

def step (x : Link) : LinkEvent → Link
  | .transmit i poll =>
    { x with sent := (i, ((x.session i).buildOutboundPacket poll).serialize) :: x.sent }
  | .deliver i data =>
    match BfdControlPacket.parse data with
    | .error _ => x
    | .ok p => x.receive i p

/-- The other side hears what was sent, late, repeatedly or never. -/
def Possible (x : Link) : LinkEvent → Prop
  | .transmit _ _ => True
  | .deliver i data => (!i, data) ∈ x.sent

/-- A packet of the session at `i`, which has heard the other side unless it says it is down. -/
structure Honest (disc : Bool → UInt32) (x : Link) (i : Bool) (p : BfdControlPacket) : Prop where
  fits : p.Fits
  my : p.myDiscriminator = disc i
  your : p.yourDiscriminator = 0 ∨ p.yourDiscriminator = disc !i
  state : p.state = .down ∨ p.state ≠ .adminDown ∧ p.yourDiscriminator = disc (!i) ∧
    (x.session i).yourDiscriminator = disc !i

structure Sound (disc : Bool → UInt32) (x : Link) : Prop where
  my : ∀ i, (x.session i).myDiscriminator = disc i
  mult : ∀ i, (x.session i).detectMult ≠ 0
  your : ∀ i, (x.session i).yourDiscriminator = 0 ∨ (x.session i).yourDiscriminator = disc !i
  running : ∀ i, (x.session i).state ≠ .adminDown
  known : ∀ i, (x.session i).state ≠ .down → (x.session i).yourDiscriminator = disc !i
  heard : ∀ i, (x.session i).state = .up → (x.session !i).yourDiscriminator = disc i
  told : ∀ m ∈ x.sent, ∃ p, m.2 = p.serialize ∧ Honest disc x m.1 p

variable {disc : Bool → UInt32} {x y : Link} {i j : Bool} {p : BfdControlPacket} {e : LinkEvent}

theorem sound_start (disc : Bool → UInt32) (ip : Bool → Ipv6Address) (isMultihop : Bool) :
    Sound disc (start disc ip isMultihop) := by
  refine ⟨fun _ => rfl, fun _ => ?_, fun _ => .inl rfl, fun _ => ?_, fun _ h => absurd rfl h,
    fun _ h => ?_, ?_⟩
  · simp [start, BfdV6Session.new]
  · simp [start, BfdV6Session.new]
  · cases h
  · exact nofun

/-- What a session sends is honest. -/
theorem Sound.honest (h : Sound disc x) (hdisc : ∀ i, disc i ≠ 0) (i : Bool)
    (hmy : p.myDiscriminator = disc i)
    (hyour : p.yourDiscriminator = (x.session i).yourDiscriminator)
    (hstate : p.state = (x.session i).state) (hfits : p.myDiscriminator ≠ 0 → p.Fits) :
    Honest disc x i p := by
  refine ⟨hfits (hmy.trans_ne (hdisc i)), hmy, hyour ▸ h.your i, ?_⟩
  rw [hstate, hyour]
  by_cases hdown : (x.session i).state = .down
  · exact .inl hdown
  · exact .inr ⟨h.running i, h.known i hdown, h.known i hdown⟩

theorem fits_outbound {s : BfdV6Session} {poll : Bool} (hmult : s.detectMult ≠ 0)
    (hmy : s.myDiscriminator ≠ 0) : (s.buildOutboundPacket poll).Fits :=
  ⟨rfl, by simp [BfdV6Session.buildOutboundPacket, BfdControlPacket.buildControl],
    by simp [BfdV6Session.buildOutboundPacket, BfdControlPacket.buildControl], rfl, hmult, hmy,
    rfl, nofun, rfl⟩

theorem fits_response {s : BfdV6Session} {final : Bool} (hmult : s.detectMult ≠ 0)
    (hmy : s.myDiscriminator ≠ 0) : (s.response final).Fits :=
  ⟨rfl, by simp [BfdV6Session.response, BfdV6Session.buildOutboundPacket,
    BfdControlPacket.buildControl], by simp [BfdV6Session.response,
    BfdV6Session.buildOutboundPacket], rfl, hmult, hmy, rfl, nofun, rfl⟩

theorem Honest.mono (h : Honest disc x i p)
    (hkeeps : (x.session i).yourDiscriminator = disc (!i) →
      (y.session i).yourDiscriminator = disc !i) :
    Honest disc y i p :=
  ⟨h.fits, h.my, h.your, h.state.imp_right fun hs => ⟨hs.1, hs.2.1, hkeeps hs.2.2⟩⟩

theorem Sound.receive (h : Sound disc x) (hdisc : ∀ i, disc i ≠ 0) (hp : Honest disc x (!i) p) :
    Sound disc (x.receive i p) := by
  rcases processInboundPacket_cases (x.session i) p with hsame | ⟨hnew, hreply⟩
  · rw [Link.receive, hsame, Function.update_eq_self]
    exact h
  have hother : ∀ j ≠ i, (x.receive i p).session j = x.session j :=
    fun j hj => Function.update_of_ne hj _ _
  have hself : (x.receive i p).session i = (x.session i).heard p :=
    (Function.update_self _ _ _).trans hnew
  have hyour : ((x.receive i p).session i).yourDiscriminator = disc !i := by
    rw [hself]
    exact hp.my
  have hkeeps : ∀ j, (x.session j).yourDiscriminator = disc (!j) →
      ((x.receive i p).session j).yourDiscriminator = disc !j := fun j hj => by
    by_cases hji : j = i
    · rw [hji, hyour]
    · rw [hother j hji, hj]
  have hparts : Sound disc ⟨(x.receive i p).session, x.sent⟩ := by
    refine ⟨fun j => ?_, fun j => ?_, fun j => ?_, fun j => ?_, fun j hj => ?_, fun j hj => ?_,
      fun m hm => ?_⟩
    · by_cases hji : j = i
      · rw [hji, hself]
        exact h.my i
      · rw [hother j hji]
        exact h.my j
    · by_cases hji : j = i
      · rw [hji, hself]
        exact h.mult i
      · rw [hother j hji]
        exact h.mult j
    · by_cases hji : j = i
      · rw [hji]
        exact .inr hyour
      · rw [hother j hji]
        exact h.your j
    · by_cases hji : j = i
      · rw [hji, hself]
        exact transition_ne_adminDown (h.running i)
      · rw [hother j hji]
        exact h.running j
    · by_cases hji : j = i
      · rw [hji]
        exact hyour
      · rw [hother j hji] at hj ⊢
        exact h.known j hj
    · by_cases hji : j = i
      · subst hji
        rw [hself] at hj
        rw [hother _ (Bool.not_ne_self j)]
        rcases transition_up hj with hup | hpeer
        · exact h.heard j hup
        · have hne : p.state ≠ .down := by rcases hpeer with hpeer | hpeer <;> rw [hpeer] <;> nofun
          simpa using (hp.state.resolve_left hne).2.2
      · obtain rfl : i = !j := Bool.eq_not.mpr (Ne.symm hji)
        rw [hyour, Bool.not_not]
    · obtain ⟨q, hq, hhonest⟩ := h.told m hm
      exact ⟨q, hq, hhonest.mono (hkeeps m.1)⟩
  refine ⟨hparts.my, hparts.mult, hparts.your, hparts.running, hparts.known, hparts.heard,
    fun m hm => ?_⟩
  rcases List.mem_append.mp hm with hm | hm
  · obtain ⟨r, hr, rfl⟩ := List.mem_map.mp hm
    obtain rfl := hreply r (Option.mem_toList.mp hr)
    have hmult := hparts.mult i
    rw [hself] at hmult
    have hhonest : Honest disc ⟨(x.receive i p).session, x.sent⟩ i
        (((x.session i).heard p).response p.poll) :=
      hparts.honest hdisc i (h.my i) (congrArg BfdV6Session.yourDiscriminator hself.symm)
        (congrArg BfdV6Session.state hself.symm) (fits_response hmult)
    exact ⟨_, rfl, hhonest.fits, hhonest.my, hhonest.your, hhonest.state⟩
  · obtain ⟨q, hq, hhonest⟩ := hparts.told m hm
    exact ⟨q, hq, hhonest.fits, hhonest.my, hhonest.your, hhonest.state⟩

theorem Sound.step (h : Sound disc x) (hdisc : ∀ i, disc i ≠ 0) (he : x.Possible e) :
    Sound disc (x.step e) := by
  cases e with
  | transmit i poll =>
    have hhonest : Honest disc x i ((x.session i).buildOutboundPacket poll) :=
      h.honest hdisc i (h.my i) rfl rfl (fits_outbound (h.mult i))
    refine ⟨h.my, h.mult, h.your, h.running, h.known, h.heard,
      List.forall_mem_cons.mpr ⟨?_, fun m hm => ?_⟩⟩
    · exact ⟨_, rfl, hhonest.fits, hhonest.my, hhonest.your, hhonest.state⟩
    · obtain ⟨q, hq, hhonest⟩ := h.told m hm
      exact ⟨q, hq, hhonest.fits, hhonest.my, hhonest.your, hhonest.state⟩
  | deliver i data =>
    obtain ⟨p, hdata, hp⟩ := h.told _ he
    dsimp only at hdata
    rw [Link.step, hdata, BfdControlPacket.parse_serialize hp.fits]
    exact h.receive hdisc hp

theorem sound_run (hdisc : ∀ i, disc i ≠ 0) {ip : Bool → Ipv6Address} {isMultihop : Bool}
    {events : List LinkEvent} (h : Machine.Along step Possible (start disc ip isMultihop) events) :
    Sound disc (Machine.run step (start disc ip isMultihop) events) :=
  h.keeps (fun _ _ hs he => hs.step hdisc he) (sound_start disc ip isMultihop)

/-- However packets are lost, repeated and reordered, a session that is not down knows the other
side, and one that is up has been heard by it. -/
theorem up_is_mutual {disc : Bool → UInt32} (hdisc : ∀ i, disc i ≠ 0) (ip : Bool → Ipv6Address)
    (isMultihop : Bool) {events : List LinkEvent}
    (h : Machine.Along step Possible (start disc ip isMultihop) events) (i : Bool) :
    let x := Machine.run step (start disc ip isMultihop) events
    ((x.session i).state ≠ .down → (x.session i).yourDiscriminator = disc !i) ∧
      ((x.session i).state = .up → (x.session !i).yourDiscriminator = disc i) :=
  ⟨(sound_run hdisc h).known i, (sound_run hdisc h).heard i⟩

def discriminators (i : Bool) : UInt32 := if i then 0x1001 else 0x2002

theorem discriminators_ne_zero (i : Bool) : discriminators i ≠ 0 := by
  cases i <;> decide

/-- A session on each side of a single hop, which has sent nothing yet. -/
def fresh : Link := start discriminators (fun _ => .loopback) false

/-- The second side hears the first. -/
def firstHeard : List LinkEvent :=
  [.transmit true true, .deliver false ((fresh.session true).buildOutboundPacket true).serialize]

theorem firstHeard_possible : Machine.Along step Possible fresh firstHeard :=
  ⟨trivial, List.mem_cons_self, trivial⟩

theorem up_is_mutual_firstHeard :
    ((Machine.run step fresh firstHeard).session false).yourDiscriminator = 0x1001 :=
  (up_is_mutual discriminators_ne_zero (fun _ => .loopback) false firstHeard_possible false).1
    (by decide +kernel)

/-! ### Coming up -/

/-- A fresh packet of one side is heard by the other. -/
def exchange (x : Link) (e : Bool × Bool) : Link :=
  (x.step (.transmit e.1 e.2)).step (.deliver (!e.1)
    ((x.session e.1).buildOutboundPacket e.2).serialize)

def states (x : Link) : BfdState × BfdState := ((x.session true).state, (x.session false).state)

/-- The states after a fresh packet of the first side, or of the second. -/
def hear (s : BfdState × BfdState) (first : Bool) : BfdState × BfdState :=
  if first then (s.1, (transition s.2 s.1).1) else ((transition s.1 s.2).1, s.2)

/-- How many fresh packets may be missing until both sides are up. -/
def distance : BfdState × BfdState → ℕ
  | (.up, .up) => 0
  | (.up, .init) | (.init, .up) => 1
  | (.init, .init) | (.init, .down) | (.down, .init) => 2
  | (.down, .down) => 3
  | _ => 4

def Running (s : BfdState × BfdState) : Prop := s.1 ≠ .adminDown ∧ s.2 ≠ .adminDown

theorem Running.hear {s : BfdState × BfdState} (h : Running s) (first : Bool) :
    Running (hear s first) := by
  cases first with
  | false => exact ⟨transition_ne_adminDown h.1, h.2⟩
  | true => exact ⟨h.1, transition_ne_adminDown h.2⟩

/-- A fresh packet changes nothing, or brings both sides closer to being up. -/
theorem hear_eq_or_lt {s : BfdState × BfdState} (h : Running s) (first : Bool) :
    hear s first = s ∨ distance (hear s first) < distance s := by
  obtain ⟨a, b⟩ := s
  obtain ⟨ha, hb⟩ := h
  revert ha hb
  cases first <;> cases a <;> cases b <;> decide

theorem distance_eq_zero {s : BfdState × BfdState} : distance s = 0 ↔ s = (.up, .up) := by
  obtain ⟨a, b⟩ := s
  cases a <;> cases b <;> decide

/-- Only where both are up, no side changes the other. -/
theorem up_of_still {s : BfdState × BfdState} (h : Running s) (hstill : ∀ first, hear s first = s) :
    s = (.up, .up) := by
  obtain ⟨a, b⟩ := s
  obtain ⟨ha, hb⟩ := h
  have hfirst := hstill true
  have hsecond := hstill false
  revert ha hb hfirst hsecond
  cases a <;> cases b <;> decide

theorem still_or_closer {s : BfdState × BfdState} (h : Running s) (l : List Bool) :
    (∀ first ∈ l, hear s first = s) ∧ l.foldl hear s = s ∨
    distance (l.foldl hear s) < distance s := by
  induction l generalizing s with
  | nil => exact .inl ⟨nofun, rfl⟩
  | cons first l ih =>
    rw [List.foldl_cons]
    have hrest := ih (h.hear first)
    rcases hear_eq_or_lt h first with hsame | hlt
    · rw [hsame] at hrest ⊢
      exact hrest.imp_left fun hl => ⟨List.forall_mem_cons.mpr ⟨hsame, hl.1⟩, hl.2⟩
    · rcases hrest with ⟨-, heq⟩ | hcloser
      · rw [heq]
        exact .inr hlt
      · exact .inr (hcloser.trans hlt)

theorem Running.foldl {s : BfdState × BfdState} (h : Running s) (l : List Bool) :
    Running (l.foldl Link.hear s) := by
  induction l generalizing s with
  | nil => exact h
  | cons first l ih => exact ih (h.hear first)

/-- Every round in which both sides are heard brings them closer. -/
theorem distance_rounds {s : BfdState × BfdState} (h : Running s) {rounds : List (List Bool)}
    (hboth : ∀ l ∈ rounds, ∀ first, first ∈ l) :
    distance (rounds.flatten.foldl hear s) ≤ distance s - rounds.length := by
  induction rounds generalizing s with
  | nil => exact le_rfl
  | cons l rounds ih =>
    obtain ⟨hl, hrounds⟩ := List.forall_mem_cons.mp hboth
    have hle := ih (h.foldl l) hrounds
    rw [List.flatten_cons, List.foldl_append, List.length_cons]
    rcases still_or_closer h l with ⟨hstill, heq⟩ | hlt
    · rw [heq] at hle ⊢
      have hzero := distance_eq_zero.mpr (up_of_still h fun first => hstill first (hl first))
      omega
    · omega

theorem Sound.exchange (h : Sound disc x) (hdisc : ∀ i, disc i ≠ 0) (e : Bool × Bool) :
    Sound disc (x.exchange e) ∧ (x.exchange e).states = hear x.states e.1 := by
  obtain ⟨i, poll⟩ := e
  have hsent : Sound disc (x.step (.transmit i poll)) := h.step hdisc trivial
  refine ⟨hsent.step hdisc ?_, ?_⟩
  · show (!!i, _) ∈ _ :: _
    rw [Bool.not_not]
    exact List.mem_cons_self
  have hopening : ((x.session i).buildOutboundPacket poll).yourDiscriminator = 0 →
      (x.session i).state = .down := by
    intro hzero
    by_contra hne
    exact hdisc (!i) ((h.known i hne).symm.trans hzero)
  have hyour : (x.session i).yourDiscriminator = 0 ∨
      (x.session i).yourDiscriminator = (x.session !i).myDiscriminator := by
    rw [h.my]
    exact h.your i
  have htaken := processInboundPacket_taken (s := x.session !i)
    (p := (x.session i).buildOutboundPacket poll) hyour
    hopening (h.running _)
  have hsession : (x.exchange (i, poll)).session =
      Function.update x.session (!i) ((x.session !i).heard
        ((x.session i).buildOutboundPacket poll)) := by
    rw [Link.exchange, Link.step, Link.step,
      BfdControlPacket.parse_serialize (fits_outbound (h.mult i) ((h.my i).trans_ne (hdisc i)))]
    exact congrArg (Function.update x.session (!i)) htaken
  rw [states, hsession]
  cases i with
  | false => rfl
  | true => rfl

/-- From whatever state they have come to, both sessions are up after four rounds in each of which
both are heard. -/
theorem comes_up {disc : Bool → UInt32} (hdisc : ∀ i, disc i ≠ 0) (ip : Bool → Ipv6Address)
    (isMultihop : Bool) {events : List LinkEvent}
    (h : Machine.Along step Possible (start disc ip isMultihop) events)
    {rounds : List (List (Bool × Bool))} (hlen : 4 ≤ rounds.length)
    (hboth : ∀ l ∈ rounds, ∀ i, ∃ poll, (i, poll) ∈ l) (i : Bool) :
    ((Machine.run exchange (Machine.run step (start disc ip isMultihop) events)
      rounds.flatten).session i).state
      = .up := by
  have hs := sound_run hdisc h
  generalize Machine.run step (start disc ip isMultihop) events = x at hs
  have hrun : ∀ l : List (Bool × Bool), Sound disc (Machine.run exchange x l) ∧
      (Machine.run exchange x l).states = (l.map Prod.fst).foldl hear x.states := by
    intro l
    induction l using List.reverseRecOn with
    | nil => exact ⟨hs, rfl⟩
    | append_singleton l e ih =>
      obtain ⟨hsound, hstates⟩ := ih.1.exchange hdisc e
      rw [Machine.run_append, List.map_append, List.foldl_append, ← ih.2]
      exact ⟨hsound, hstates⟩
  have hsides : ∀ l ∈ rounds.map (List.map Prod.fst), ∀ first, first ∈ l := by
    intro l hl first
    obtain ⟨l, hmem, rfl⟩ := List.mem_map.mp hl
    obtain ⟨poll, hpoll⟩ := hboth l hmem first
    exact List.mem_map.mpr ⟨(first, poll), hpoll, rfl⟩
  have hdistance := distance_rounds (s := x.states) ⟨hs.running true, hs.running false⟩ hsides
  have hfar : distance x.states ≤ 4 := by
    unfold distance
    split <;> omega
  rw [← List.map_flatten, ← (hrun rounds.flatten).2, List.length_map] at hdistance
  have hup := distance_eq_zero.mp
    (show distance (Machine.run exchange x rounds.flatten).states = 0 by omega)
  cases i with
  | false => exact (Prod.mk.inj hup).2
  | true => exact (Prod.mk.inj hup).1

/-- Four rounds in which both sides speak in turn. -/
def inTurn : List (List (Bool × Bool)) := List.replicate 4 [(true, false), (false, true)]

theorem mem_inTurn : ∀ l ∈ inTurn, ∀ i, ∃ poll, (i, poll) ∈ l := by
  intro l hl i
  obtain rfl := List.eq_of_mem_replicate hl
  cases i with
  | false => exact ⟨true, by decide⟩
  | true => exact ⟨false, by decide⟩

theorem comes_up_inTurn :
    ((Machine.run exchange (Machine.run step fresh firstHeard) inTurn.flatten).session true).state =
      .up := by
  rw [fresh]
  exact comes_up discriminators_ne_zero (fun _ =>
    .loopback) false firstHeard_possible le_rfl mem_inTurn true

end Link

end ToyTcpip.Bfd
