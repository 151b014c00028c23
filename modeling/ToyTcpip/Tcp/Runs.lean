import ToyTcpip.Tcp.LocalSteps
import ToyTcpip.Tcp.Arrivals

/-! One connection driven by any calls of its application and any segments of its peer. -/
namespace ToyTcpip.Tcp

variable {ρ : Type}

/-- The settings an application or the socket layer may change before a connection opens. -/
structure Config where
  localMss : BitVec 16
  congestionMss : ℕ
  rcvCapacity : ℕ
  tsEnabled : Bool

def Config.apply (cfg : Config) (c : TcpConnection ρ) : TcpConnection ρ :=
  { c with
    localMss := cfg.localMss, congestion.mss := cfg.congestionMss
    rcvCapacity := cfg.rcvCapacity, tsEnabled := cfg.tsEnabled }

def Config.default : Config := ⟨1460, 1460, 65535, false⟩

/-- How a connection starts: its addresses, its initial sequence number, its settings, and when
it dials, if it does. -/
structure Start where
  localAddr : SocketAddrV4
  remoteAddr : SocketAddrV4
  isn : SeqNum
  config : Config
  now : ℕ

inductive Call where
  | write (data : List UInt8)
  | read (len : ℕ)
  | pollOutput (now : ℕ)
  | handleSegmentAt (seg : TcpSegment) (now : ℕ)
  | initiateSynAt (now : ℕ)
  | initiateCloseAt (now : ℕ)

/-- The call opens the connection actively. -/
def Call.dials : Call → Bool
  | .initiateSynAt _ => true
  | _ => false

/-- A connection and everything it has sent. -/
structure Run (ρ : Type) where
  conn : TcpConnection ρ
  sent : List TcpSegment

section calls

variable [RttEstimator ρ]

namespace Start

def listening (st : Start) : TcpConnection ρ :=
  st.config.apply (.newServer st.localAddr st.remoteAddr st.isn)

/-- A client that has not dialed yet. -/
def idle (st : Start) : TcpConnection ρ :=
  st.config.apply (.newClient st.localAddr st.remoteAddr st.isn)

def dialing (st : Start) : TcpConnection ρ × TcpSegment := st.idle.initiateSynAt st.now

end Start

def TcpConnection.call (c : TcpConnection ρ) : Call → TcpConnection ρ × List TcpSegment
  | .write data => ((c.write data).1, [])
  | .read len => ((c.read len).1, [])
  | .pollOutput now => c.pollOutput now
  | .handleSegmentAt seg now => ((c.handleSegmentAt seg now).1,
    (c.handleSegmentAt seg now).2.toList)
  | .initiateSynAt now => ((c.initiateSynAt now).1, [(c.initiateSynAt now).2])
  | .initiateCloseAt now => ((c.initiateCloseAt now).1, (c.initiateCloseAt now).2.toList)

namespace Run

def start (c : TcpConnection ρ) : Run ρ := ⟨c, []⟩

def step (r : Run ρ) (k : Call) : Run ρ := ⟨(r.conn.call k).1, r.sent ++ (r.conn.call k).2⟩

def run (r : Run ρ) (calls : List Call) : Run ρ := calls.foldl step r

/-- Every call is made in a state that allows it. -/
def Admits (ok : TcpConnection ρ → Call → Prop) : Run ρ → List Call → Prop
  | _, [] => True
  | r, k :: rest => ok r.conn k ∧ Admits ok (r.step k) rest

instance decidableAdmits (ok : TcpConnection ρ → Call → Prop) [∀ c k, Decidable (ok c k)] :
    ∀ (r : Run ρ) (calls : List Call), Decidable (Admits ok r calls)
  | _, [] => isTrue trivial
  | r, k :: rest =>
    have := decidableAdmits ok (r.step k) rest
    inferInstanceAs (Decidable (ok r.conn k ∧ Admits ok (r.step k) rest))

/-- The run starts with a connection that listens, or that has just dialed. -/
def Opened (st : Start) (r : Run ρ) : Prop :=
  r = start st.listening ∨ r = ⟨(st.dialing (ρ := ρ)).1, [(st.dialing (ρ := ρ)).2]⟩

theorem admits_of_forall {P : Call → Prop} {r : Run ρ} {calls : List Call}
    (h : ∀ k ∈ calls, P k) : Admits (fun _ k => P k) r calls := by
  induction calls generalizing r with
  | nil => trivial
  | cons k rest ih =>
    exact ⟨h k List.mem_cons_self, ih fun k' hk => h k' (List.mem_cons_of_mem _ hk)⟩

theorem Admits.mono {ok ok' : TcpConnection ρ → Call → Prop} {r : Run ρ} {calls : List Call}
    (h : Admits ok r calls) (himp : ∀ c k, ok c k → ok' c k) : Admits ok' r calls := by
  induction calls generalizing r with
  | nil => trivial
  | cons k rest ih => exact ⟨himp _ _ h.1, ih h.2⟩

theorem Admits.append {ok : TcpConnection ρ → Call → Prop} {r : Run ρ} {calls rest : List Call}
    (h : Admits ok r (calls ++ rest)) : Admits ok r calls ∧ Admits ok (r.run calls) rest := by
  induction calls generalizing r with
  | nil => exact ⟨trivial, h⟩
  | cons k calls ih => exact ⟨⟨h.1, (ih h.2).1⟩, (ih h.2).2⟩

/-- What has to be shown of a property of the connection and the segments it sent to have it
in every state of every run. -/
structure Invariant (ok : TcpConnection ρ → Call → Prop)
    (J : TcpConnection ρ → List TcpSegment → Prop) : Prop where
  write : ∀ {c sent} data, J c sent → J (c.write data).1 sent
  read : ∀ {c sent} len, J c sent → J (c.read len).1 sent
  act : ∀ {c c' sent out}, J c sent → LocalStep c c' out → J c' (sent ++ out)
  abort : ∀ {c₀ c sent now}, ok c₀ (.pollOutput now) → c₀.aborts now = true → J c sent →
    J c.abort sent
  receive : ∀ {c c' sent seg now reply}, J c sent → ok c (.handleSegmentAt seg now) →
    Arrival c seg c' reply → J c' (sent ++ reply.toList)
  dial : ∀ {c sent now}, J c sent → ok c (.initiateSynAt now) →
    J (c.initiateSynAt now).1 (sent ++ [(c.initiateSynAt now).2])

namespace Invariant

variable {ok : TcpConnection ρ → Call → Prop} {J : TcpConnection ρ → List TcpSegment → Prop}

theorem chain (h : Invariant ok J) {c c' : TcpConnection ρ} {sent out : List TcpSegment}
    (hc : J c sent) (hchain : LocalChain c c' out) : J c' (sent ++ out) := by
  induction hchain with
  | refl => simpa using hc
  | tail _ step ih =>
    rw [← List.append_assoc]
    exact h.act ih step

theorem step (h : Invariant ok J) {r : Run ρ} {k : Call} (hr : J r.conn r.sent)
    (hk : ok r.conn k) : J (r.step k).conn (r.step k).sent := by
  cases k with
  | write data => simpa only [Run.step, TcpConnection.call, List.append_nil] using h.write data hr
  | read len => simpa only [Run.step, TcpConnection.call, List.append_nil] using h.read len hr
  | pollOutput now =>
    obtain ⟨c₁, hchain, ⟨-, heq⟩ | ⟨habort, -, heq⟩⟩ := r.conn.pollOutput_chain now
    · simp only [Run.step, TcpConnection.call, heq]
      exact h.chain hr hchain
    · simp only [Run.step, TcpConnection.call, heq]
      exact h.abort hk habort (h.chain hr hchain)
  | handleSegmentAt seg now => exact h.receive hr hk (r.conn.handleSegmentAt_arrival seg now)
  | initiateSynAt now => exact h.dial hr hk
  | initiateCloseAt now => exact h.chain hr (r.conn.initiateCloseAt_chain now)

theorem run (h : Invariant ok J) {r : Run ρ} {calls : List Call} (hr : J r.conn r.sent)
    (ha : Admits ok r calls) : J (r.run calls).conn (r.run calls).sent := by
  induction calls generalizing r with
  | nil => exact hr
  | cons k rest ih => exact ih (h.step hr ha.1) ha.2

end Invariant

end Run

end calls

/-! ### A host and its peer, for concrete runs -/

def host : Start := ⟨⟨⟨10, 0, 0, 2⟩, 80⟩, ⟨⟨10, 0, 0, 1⟩, 40000⟩, 5000, .default, 0⟩

/-- A peer's segment without options. -/
def peerSegment (seq ack : SeqNum) (flags : TcpFlags) (payload : List UInt8) : TcpSegment :=
  ⟨40000, 80, seq, ack, flags, 65535, [], payload⟩

end ToyTcpip.Tcp
